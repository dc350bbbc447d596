import DecentDb.Sync.ChangesetEffect
import DecentDb.Sync.RowRecords

/-! The snapshot of a shape has one insert for each row of the server that satisfies the scope
filter, numbered from one under the watermark of the journal.
-/

namespace DecentDb.Sync

open List Option SyncScope KeyedUpdates
open Sql (TableSchema)

-- Server rows

variable {name : RowName} {rows : ServerRows} {scope : SyncScope} {record : SyncChangesetRecord}
  {server : ShapeServer} {names : List String}

namespace ServerRows

/-- A row is one of the entries. -/
theorem row_eq_some {values : List Value}
    : rows.row name = some values ↔ (name, values) ∈ rows.entries := by
  constructor
  · intro found
    obtain ⟨before, after, split, -⟩ := lookup_eq_some_iff.mp found
    rw [split]
    exact mem_append_right _ mem_cons_self
  · exact lookup_eq_some_of_mem rows.distinct

/-- Setting a row changes that row. -/
theorem row_set (rows : ServerRows) (name : RowName) (image : Option (List Value))
    : (rows.set name image).row = Function.update rows.row name image := by
  funext other
  change ((image.map (name, ·)).toList
    ++ rows.entries.filter fun entry => entry.1 ≠ name).lookup other = _
  by_cases same : other = name
  · rw [same, Function.update_self]
    cases image with
    | some values => rw [map_some, toList_some, cons_append, lookup_cons, beq_self_eq_true]
    | none =>
      refine lookup_eq_none_iff.mpr fun entry member => ?_
      rw [bne_iff_ne]
      exact Ne.symm (of_decide_eq_true (mem_filter.mp member).2)
  have different : (other == name) = false := by simpa using same
  have others : (rows.entries.filter fun entry => entry.1 ≠ name).lookup other = rows.row other :=
    lookup_filter fun entry _ isOther => by simpa [isOther] using same
  rw [Function.update_of_ne same, ← others]
  cases image with
  | none => rfl
  | some values => simp [lookup_cons, different]

end ServerRows

/-- Whether the row filter holds of a row. -/
def SyncScope.keeps (scope : SyncScope) (table : TableSchema) (values : List Value) : Bool :=
  (rowSatisfies scope table values).toOption = some true

/-- A scope keeps the rows that satisfy its filter. -/
theorem SyncScope.keeps_iff {table : TableSchema} {values : List Value}
    : scope.keeps table values ↔ rowSatisfies scope table values = .ok true := by
  rw [keeps, decide_eq_true_eq]
  cases rowSatisfies scope table values <;> simp [Except.toOption]

/-- The row of the server if it satisfies the scope filter. -/
def ShapeServer.scopedRow (server : ShapeServer) (scope : SyncScope) (name : RowName)
    : Option (List Value) :=
  (server.rows.row name).filter fun values =>
    (catalogTable server.tables name.1).any (scope.keeps · values)

section

variable [JsonPrimitives] {tables : List TableSchema} {table : TableSchema} {source : String}
  {schemaCookie start maxRecords : Nat} {values key : List Value} {selected all : List (List Value)}

/-- The rows of the server fit their tables and stand under their names. -/
def ServerRows.Fit (tables : List TableSchema) (rows : ServerRows) : Prop :=
  ∀ entry ∈ rows.entries, ∃ table ∈ tables, RowFits table entry.2 ∧ entry.1 = rowName table entry.2

/-- The table of a row is the one that its name says. -/
theorem ServerRows.Fit.of_row (sound : TablesSound tables) (fit : rows.Fit tables)
    (member : table ∈ tables) (found : rows.row (table.name, key) = some values)
    : RowFits table values ∧ key = keyOf table values := by
  obtain ⟨other, isOther, fits, named⟩ := fit _ (row_eq_some.mp found)
  obtain ⟨sameName, sameKey⟩ := Prod.mk.inj named
  have same : other = table :=
    sound.eq_of_folded isOther member (by rw [← sameName, identifiersEqual]; exact decide_eq_true rfl)
  rw [same] at fits sameKey
  exact ⟨fits, sameKey⟩

/-- The rows of a table are those under its keys. -/
theorem ServerRows.Fit.mem_ofTable (sound : TablesSound tables) (fit : rows.Fit tables)
    (member : table ∈ tables)
    : values ∈ rows.ofTable table ↔ rows.row (rowName table values) = some values := by
  constructor
  · intro inTable
    obtain ⟨⟨⟨name, key⟩, found⟩, inside, rfl⟩ := mem_map.mp inTable
    obtain ⟨isEntry, named⟩ := mem_filter.mp inside
    have sameName : name = table.name := of_decide_eq_true named
    rw [sameName] at isEntry
    have row := row_eq_some.mpr isEntry
    obtain ⟨-, sameKey⟩ := fit.of_row sound member row
    rw [rowName, ← sameKey]
    exact row
  · intro row
    refine mem_map.mpr ⟨_, mem_filter.mpr ⟨row_eq_some.mp row, ?_⟩, rfl⟩
    exact decide_eq_true rfl

/-- A row that fits keeps the rows fitting. -/
theorem ServerRows.Fit.set (fit : rows.Fit tables) (member : table ∈ tables)
    (fits : RowFits table values) (operation : SyncOperation)
    : (rows.set (rowName table values) (operation.image values)).Fit tables := by
  intro entry inside
  rcases mem_append.mp inside with new | old
  · obtain ⟨image, isImage, rfl⟩ := map_eq_some_iff.mp (mem_toList.mp new)
    cases operation with
    | insert | update =>
      cases isImage
      exact ⟨table, member, fits, rfl⟩
    | delete => cases isImage
  · exact fit entry (mem_of_mem_filter old)

-- The records of a snapshot

section

omit [JsonPrimitives]

/-- The rows of a snapshot are filtered one by one. -/
theorem selectRows_eq (all : List (List Value))
    : selectRows scope table all = Results.filterResults (rowSatisfies scope table) all := by
  induction all with
  | nil => rfl
  | cons first rest ih => rw [selectRows, Results.filterResults, ih]

/-- The selected rows are those that satisfy the filter. -/
theorem mem_selectRows (ran : selectRows scope table all = .ok selected)
    : values ∈ selected ↔ values ∈ all ∧ rowSatisfies scope table values = .ok true := by
  rw [selectRows_eq, Results.filterResults_ok] at ran
  rw [ran.2, mem_filter]
  exact and_congr_right fun _ => keeps_iff

end

/-- The record is that of a row of the scope. -/
def IsSnapshotOf (server : ShapeServer) (source : String) (scope : SyncScope)
    (names : List String) (record : SyncChangesetRecord) : Prop :=
  ∃ table, (∃ name ∈ names, catalogTable server.tables name = some table)
    ∧ ∃ values ∈ server.rows.ofTable table, rowSatisfies scope table values = .ok true
      ∧ ∃ sequence, record = snapshotRecord source server.schemaCookie table sequence values

/-- Every record of a snapshot is that of a selected row. -/
theorem mem_snapshotTableRecords
    : record ∈ snapshotTableRecords source schemaCookie table start selected
      → ∃ values ∈ selected, ∃ sequence,
        record = snapshotRecord source schemaCookie table sequence values := by
  induction selected generalizing start with
  | nil => exact nofun
  | cons first rest ih =>
    intro member
    rcases mem_cons.mp member with rfl | later
    · exact ⟨first, mem_cons_self, start, rfl⟩
    · obtain ⟨values, inside, sequence, same⟩ := ih later
      exact ⟨values, mem_cons_of_mem _ inside, sequence, same⟩

/-- Every selected row has a record. -/
theorem snapshotTableRecords_complete {values : List Value} (member : values ∈ selected)
    : ∃ sequence, snapshotRecord source schemaCookie table sequence values
      ∈ snapshotTableRecords source schemaCookie table start selected := by
  induction selected generalizing start with
  | nil => cases member
  | cons first rest ih =>
    rcases mem_cons.mp member with rfl | later
    · exact ⟨start, mem_cons_self⟩
    · obtain ⟨sequence, inside⟩ := @ih (start + 1) later
      exact ⟨sequence, mem_cons_of_mem _ inside⟩

/-- The records of a snapshot are numbered consecutively. -/
theorem snapshotTableRecords_numbered (source : String) (schemaCookie start : Nat)
    (selected : List (List Value))
    : NumberedFrom start (snapshotTableRecords source schemaCookie table start selected) := by
  induction selected generalizing start with
  | nil => rfl
  | cons first rest ih => exact .cons rfl (ih (start + 1))

/-- By induction on the tables of the scope. -/
theorem snapshotRecords_spec
    {before records : List SyncChangesetRecord} (numbered : NumberedFrom 1 before)
    (ran : snapshotRecords server source scope maxRecords before names = .ok records)
    : NumberedFrom 1 records ∧ before ⊆ records
      ∧ (∀ record ∈ records, record ∈ before ∨ IsSnapshotOf server source scope names record)
      ∧ ∀ name ∈ names, ∃ table, catalogTable server.tables name = some table
        ∧ ∀ values ∈ server.rows.ofTable table, rowSatisfies scope table values = .ok true
          → ∃ sequence, snapshotRecord source server.schemaCookie table sequence values
            ∈ records := by
  induction names generalizing before with
  | nil =>
    cases ran
    exact ⟨numbered, List.Subset.refl _, fun _ member => .inl member, nofun⟩
  | cons name rest ih =>
    rw [snapshotRecords] at ran
    split at ran
    next => cases ran
    next table found =>
      obtain ⟨selected, isSelected, later⟩ := bind_eq_ok.mp ran
      dsimp only at later
      split at later
      next => cases later
      have more : NumberedFrom (1 + before.length) (snapshotTableRecords source
        server.schemaCookie table (before.length + 1) selected) := by
        rw [add_comm]
        exact snapshotTableRecords_numbered _ _ _ _
      obtain ⟨isNumbered, subset, sound, complete⟩ := ih (numbered.append more) later
      refine ⟨isNumbered, fun _ member => subset (mem_append_left _ member), ?_, ?_⟩
      · intro record member
        rcases sound record member with earlier | ⟨other, ⟨otherName, inRest, isOther⟩, isRow⟩
        · rcases mem_append.mp earlier with old | new
          · exact .inl old
          · obtain ⟨values, inside, isRecord⟩ := mem_snapshotTableRecords new
            obtain ⟨inTable, satisfied⟩ := (mem_selectRows isSelected).mp inside
            exact .inr ⟨table, ⟨name, mem_cons_self, found⟩, values, inTable, satisfied, isRecord⟩
        · exact .inr ⟨other, ⟨otherName, mem_cons_of_mem _ inRest, isOther⟩, isRow⟩
      intro other isOther
      rcases mem_cons.mp isOther with rfl | inRest
      · refine ⟨table, found, fun values inTable satisfied => ?_⟩
        have inside := (mem_selectRows isSelected).mpr ⟨inTable, satisfied⟩
        obtain ⟨sequence, isRecord⟩ := @snapshotTableRecords_complete _ table source
          server.schemaCookie (before.length + 1) selected values inside
        exact ⟨sequence, subset (mem_append_right _ isRecord)⟩
      · exact complete other inRest

-- The changeset of a snapshot

/-- A record of a snapshot is made like that of an insert in the journal. -/
theorem snapshotRecord_journal (source : String) (schemaCookie sequence : Nat)
    (table : TableSchema) (values : List Value)
    : ∃ journal, snapshotRecord source schemaCookie table sequence values
      = syncChangesetRecordFromJournalRecord journal ∧ IsRowRecord .insert table values journal
      ∧ syncJournalRecordFromChangesetRecord
        (snapshotRecord source schemaCookie table sequence values) = .ok journal :=
  ⟨⟨1, sequence, source, sequence, table.name, "insert", buildPrimaryKeyJson table values,
    some (buildAfterJson table values), schemaCookie, 0⟩, rfl, ⟨rfl, rfl, rfl, rfl⟩, rfl⟩

/-- A record of a snapshot is about a row of the server that satisfies the filter. -/
theorem IsSnapshotOf.effect {journal : SyncJournalRecord}
    (sound : TablesSound server.tables) (fit : server.rows.Fit server.tables)
    (isSnapshot : IsSnapshotOf server source scope names record)
    (converted : syncJournalRecordFromChangesetRecord record = .ok journal)
    : ∃ table ∈ server.tables, ∃ values, server.rows.row (rowName table values) = some values
      ∧ rowSatisfies scope table values = .ok true
      ∧ recordEffect server.tables journal = .ok (rowName table values, some values) := by
  obtain ⟨table, ⟨name, _, found⟩, values, inTable, satisfied, sequence, rfl⟩ := isSnapshot
  have member := catalogTable_mem found
  have isRow := (fit.mem_ofTable sound member).mp inTable
  obtain ⟨fits, -⟩ := fit.of_row sound member isRow
  obtain ⟨same, -, isRecord, isSame⟩ :=
    snapshotRecord_journal source server.schemaCookie sequence table values
  rw [isSame] at converted
  cases converted
  exact ⟨table, member, values, isRow, satisfied, isRecord.effect sound member fits⟩

/-- A row in the scope is stored under its own key. -/
theorem ServerRows.Fit.of_scopedRow (sound : TablesSound server.tables)
    (fit : server.rows.Fit server.tables) (isScoped : server.scopedRow scope name = some values)
    : ∃ table ∈ server.tables, name = rowName table values
      ∧ server.rows.row (rowName table values) = some values
      ∧ rowSatisfies scope table values = .ok true := by
  obtain ⟨isRow, kept⟩ := filter_eq_some_iff.mp isScoped
  obtain ⟨table, member, -, named⟩ := fit _ (row_eq_some.mp isRow)
  dsimp only at named
  rw [named, rowName, sound.catalogTable_self member] at kept
  exact ⟨table, member, named, named ▸ isRow, keeps_iff.mp kept⟩

omit [JsonPrimitives] in
/-- The table of a row in the scope is one of those that the snapshot goes through. -/
theorem includes_complete {property : TableSchema → Prop} (sound : TablesSound tables)
    (member : table ∈ tables)
    (complete : ∀ name ∈ scope.includeTables, ∃ table, catalogTable tables name = some table
      ∧ property table) (included : scope.includes table.name)
    : property table := by
  obtain ⟨name, inScope, same⟩ := any_eq_true.mp included
  obtain ⟨other, found, holds⟩ := complete name inScope
  have folded := catalogTable_folded found
  rw [identifiersEqual] at folded same
  have isTable : other = table := sound.eq_of_folded (catalogTable_mem found) member
      (decide_eq_true ((of_decide_eq_true folded).trans (of_decide_eq_true same)))
  exact isTable ▸ holds

/-- What a snapshot says about each row of a table of the shape. -/
theorem snapshot_images {records : List SyncChangesetRecord}
    (sound : TablesSound server.tables) (fit : server.rows.Fit server.tables)
    (ran : snapshotRecords server source scope maxRecords [] scope.includeTables = .ok records)
    (included : scope.includes name.1)
    : (lastImage (effects server.tables (records.filterMap fun record =>
      (syncJournalRecordFromChangesetRecord record).toOption)) name).getD none
      = server.scopedRow scope name := by
  have empty : NumberedFrom 1 [] := rfl
  obtain ⟨-, -, onlyRows, complete⟩ := snapshotRecords_spec empty ran
  generalize listed : effects server.tables (records.filterMap fun record =>
    (syncJournalRecordFromChangesetRecord record).toOption) = updates
  -- every update of the name is the row that the server has under it
  have agree : ∀ image, (name, image) ∈ updates → image = server.scopedRow scope name := by
    intro image member
    rw [← listed] at member
    obtain ⟨journal, inside, isEffect⟩ := mem_effects.mp member
    obtain ⟨record, isRecord, converted⟩ := mem_filterMap.mp inside
    have isSnapshot := (onlyRows record isRecord).resolve_left nofun
    obtain ⟨table, inTables, values, isRow, satisfied, effect⟩ :=
      isSnapshot.effect sound fit (eq_ok_of_toOption converted)
    rw [effect] at isEffect
    cases isEffect
    rw [ShapeServer.scopedRow, isRow, rowName, sound.catalogTable_self inTables, filter_some,
      any_some, keeps_iff.mpr satisfied, if_pos rfl]
  cases last : lastImage updates name with
  | some image => exact agree image (lastImage_mem last)
  | none =>
    cases isScoped : server.scopedRow scope name with
    | none => rfl
    | some values =>
      obtain ⟨table, member, rfl, isRow, satisfied⟩ := fit.of_scopedRow sound isScoped
      obtain ⟨sequence, inside⟩ := includes_complete sound member complete included values
        ((fit.mem_ofTable sound member).mpr isRow) satisfied
      obtain ⟨fits, -⟩ := fit.of_row sound member isRow
      obtain ⟨journal, -, isRecord, converted⟩ :=
        snapshotRecord_journal source server.schemaCookie sequence table values
      have listedEffect : (rowName table values, some values) ∈ updates := by
        rw [← listed]
        exact mem_effects.mpr ⟨journal,
          mem_filterMap.mpr ⟨_, inside, toOption_eq_some.mpr converted⟩,
          isRecord.effect sound member fits⟩
      have isSome := lastImage_isSome listedEffect
      rw [last] at isSome
      cases isSome

end

end DecentDb.Sync
