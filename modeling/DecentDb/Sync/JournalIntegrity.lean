import DecentDb.Library.Evaluation
import DecentDb.Sync.JournalContents
import DecentDb.Vfs.EncryptedRefinement

/-! The journal file stays intact as long as one handle at a time works on it, calls do not
overlap, no file operation fails halfway and the newest record is never pruned.
-/

namespace DecentDb.Sync

open List

open TransitionSystem (System)
open Vfs

variable {thread handle through : Nat} {context : SyncContext}
  {fault : Option FileFault}

/-- A rewrite of a truncated file is the whole file. -/
theorem writeAt_truncated (file bytes : List UInt8)
    : MemFile.writeAt (MemFile.resize file 0) 0 bytes = bytes := by
  rw [MemFile.writeAt_of_le (Nat.zero_le _)]
  simp [MemFile.resize]

section Journal

variable [JournalCodec] {state following : JournalState} {contexts : List (Nat × SyncContext)}

-- The invariant

/-- The file is exactly the kept records, and the attached handle knows its end. -/
structure Sound (state : JournalState) : Prop where
  file_eq : state.file = encodeRecords state.kept
  encodable : ∀ record ∈ state.kept, JournalCodec.canEncode record
  positive : ∀ record ∈ state.flushed, 0 < record.sequence
  increasing : Increasing state.flushed
  suffix : state.kept <:+ state.flushed
  newest : state.flushed ≠ [] → state.kept ≠ []
  single : state.contexts.length ≤ 1
  sequence : ∀ entry ∈ state.contexts, entry.2.nextSequence = nextAfter state.flushed
  offset : ∀ entry ∈ state.contexts,
    entry.2.journalOpen → entry.2.journalWriteOffset = state.file.length

/-- The calls under way that have not changed the file yet. -/
def JournalJob.Unwritten : JournalJob → Prop
  | .numbered _ _ _ | .located _ _ _ _ | .planned _ _ _ => True
  | .written _ _ _ _ | .truncated _ _ _ | .rewritten _ _ _ => False

instance (job : JournalJob) : Decidable job.Unwritten := by
  cases job <;> unfold JournalJob.Unwritten <;> infer_instance

/-- A file operation fails, if at all, before it changes the file. -/
def JournalJob.Harmless (fault : Option FileFault) : JournalJob → Prop
  | .located _ _ _ _ => fault = none ∨ fault = some (.write 0)
  | .planned _ _ _ => fault = none ∨ fault = some .setLen
  | .truncated _ _ _ => fault = none
  | .numbered _ _ _ | .written _ _ _ _ | .rewritten _ _ _ => True

instance (fault : Option FileFault) (job : JournalJob) : Decidable (job.Harmless fault) := by
  cases job <;> unfold JournalJob.Harmless <;> infer_instance

/-- One handle at a time is attached, a call begins only when no other is under way, a file
operation fails only before it changes the file, no crash falls into a call that has changed it,
and a prune keeps the newest record.
-/
def CarefulStep (state : JournalState) : JournalAction → Prop
  | .attach handle => state.jobs.isEmpty ∧ ∀ entry ∈ state.contexts, entry.1 = handle
  | .beginFlush _ handle origin mutations =>
    state.jobs.isEmpty ∧ ∀ context ∈ state.contexts.lookup handle,
      ∀ record ∈ journalRecords origin context.nextSequence mutations, JournalCodec.canEncode record
  | .beginPrune _ handle request =>
    state.jobs.isEmpty ∧ (∀ last ∈ lastSequence state.file, request.through < last)
      ∧ ∀ entry ∈ state.contexts, entry.1 = handle
  | .advance thread fault => ∀ job ∈ state.jobs.lookup thread, job.Harmless fault
  | .close _ => state.jobs.isEmpty
  | .crash => ∀ entry ∈ state.jobs, entry.2.Unwritten

instance (state : JournalState) (action : JournalAction) : Decidable (CarefulStep state action) := by
  cases action <;> unfold CarefulStep <;> infer_instance

omit [JournalCodec] in
/-- The context of the one handle is changed. -/
theorem modifyContext_single (handle : Nat) (context : SyncContext)
    (change : SyncContext → SyncContext)
    : modifyContext [(handle, context)] handle change = [(handle, change context)] := by
  simp [modifyContext]

/-- A new journal is empty. -/
theorem Sound.initial : Sound initialJournal :=
  ⟨rfl, nofun, nofun, .nil, suffix_rfl, nofun, Nat.zero_le _, nofun, nofun⟩

namespace Sound

section

variable (sound : Sound state)
include sound

/-- What is kept is numbered like what was flushed. -/
theorem keptIncreasing : Increasing state.kept := sound.increasing.sublist sound.suffix.sublist

/-- Reading the file returns what is kept. -/
theorem read : readJournalRecords state.file 0 none = .ok state.kept := by
  rw [sound.file_eq]
  exact readJournalRecords_encode sound.encodable fun record member =>
    sound.positive record (sound.suffix.subset member)

/-- A prune keeps the newest record, so the kept ones end like the flushed ones. -/
theorem getLast : state.kept.getLast? = state.flushed.getLast? := by
  obtain ⟨dropped, whole⟩ := sound.suffix
  rw [← whole, getLast?_append]
  cases found : state.kept.getLast? with
  | some last => rfl
  | none =>
    have empty : state.flushed = [] := by
      by_contra nonempty
      exact sound.newest nonempty (getLast?_eq_none_iff.mp found)
    rw [empty] at whole
    rw [(append_eq_nil_iff.mp whole).1]
    rfl

/-- A handle that attaches goes on behind everything that was flushed. -/
theorem effectiveSyncNextSequence
    : effectiveSyncNextSequence state.file = nextAfter state.flushed := by
  rw [Sync.effectiveSyncNextSequence, sound.file_eq, lastSequence_encode sound.encodable,
    sound.getLast, nextAfter]
  cases state.flushed.getLast? with
  | none => rfl
  | some last => simp

/-- The handles are none or one. -/
theorem contexts_cases : state.contexts = [] ∨ ∃ entry, state.contexts = [entry] := by
  rcases empty : state.contexts with _ | ⟨entry, _ | ⟨second, rest⟩⟩
  · exact .inl rfl
  · exact .inr ⟨entry, rfl⟩
  · have single := sound.single
    rw [empty] at single
    simp at single

/-- A handle's context that agrees with the file. -/
theorem withContext (sequence : context.nextSequence = nextAfter state.flushed)
    (offset : context.journalOpen → context.journalWriteOffset = state.file.length)
    : Sound { state with contexts := [(handle, context)] } :=
  { sound with
    single := le_rfl
    sequence := forall_mem_singleton.mpr sequence
    offset := forall_mem_singleton.mpr offset }

/-- Without the handle no other one is attached. -/
theorem unattached (own : ∀ entry ∈ state.contexts, entry.1 = handle)
    (absent : state.contexts.lookup handle = none) : state.contexts = [] := by
  rcases sound.contexts_cases with none | ⟨entry, one⟩
  · exact none
  · have same := own entry (by rw [one]; exact mem_cons_self)
    rw [one, lookup_cons, same] at absent
    simp at absent

/-- Attaching the only handle keeps the journal sound. -/
theorem attach (own : ∀ entry ∈ state.contexts, entry.1 = handle)
    : Sound (attachHandle state handle) := by
  unfold attachHandle
  split
  next => exact sound
  next absent =>
    rw [sound.unattached own absent]
    exact sound.withContext sound.effectiveSyncNextSequence fun opened => by cases opened

/-- Closing handles keeps the journal sound. -/
theorem detach (sublist : contexts.Sublist state.contexts) (jobs : List (Nat × JournalJob))
    : Sound { state with contexts, jobs } :=
  ⟨sound.file_eq, sound.encodable, sound.positive, sound.increasing, sound.suffix, sound.newest,
    le_trans sublist.length_le sound.single,
    fun entry member => sound.sequence entry (sublist.subset member),
    fun entry member => sound.offset entry (sublist.subset member)⟩

/-- The attached handle is the only one. -/
theorem attached (found : state.contexts.lookup handle = some context)
    : state.contexts = [(handle, context)] := by
  rcases sound.contexts_cases with none | ⟨⟨other, kept⟩, one⟩
  · rw [none] at found
    cases found
  rw [one, lookup_cons] at found
  split at found
  next same => rw [one, beq_iff_eq.mp same, Option.some.inj found]
  next => cases found

end

variable (sound : Sound state)
include sound

/-- The handle that appends writes at the end of the file. -/
theorem opened (found : state.contexts.lookup handle = some context)
    : (ensureJournalOpen state.file context).nextSequence = nextAfter state.flushed
      ∧ (ensureJournalOpen state.file context).journalOpen
      ∧ (ensureJournalOpen state.file context).journalWriteOffset = state.file.length := by
  have member : (handle, context) ∈ state.contexts := by
    rw [sound.attached found]
    exact mem_cons_self
  have sequence := sound.sequence _ member
  have offset := sound.offset _ member
  unfold ensureJournalOpen
  split
  next isOpen => exact ⟨sequence, isOpen, offset isOpen⟩
  next => exact ⟨sequence, rfl, rfl⟩

/-- Records with the next sequences behind the end of the file. -/
theorem append (handle : Nat) (origin : FlushOrigin) (mutations : List SyncMutation)
    (encodable : ∀ record ∈ journalRecords origin (nextAfter state.flushed) mutations,
      JournalCodec.canEncode record)
    (sequence : context.nextSequence = nextAfter state.flushed + mutations.length)
    (offset : context.journalWriteOffset = state.file.length
      + (encodeRecords (journalRecords origin (nextAfter state.flushed) mutations)).length)
    (jobs : List (Nat × JournalJob))
    : Sound {
      file := state.file
        ++ encodeRecords (journalRecords origin (nextAfter state.flushed) mutations)
      contexts := [(handle, context)]
      jobs
      flushed := state.flushed ++ journalRecords origin (nextAfter state.flushed) mutations
      kept := state.kept ++ journalRecords origin (nextAfter state.flushed) mutations
      } := by
  refine ⟨?_, ?_, ?_, increasing_flush origin mutations sound.increasing, ?_, ?_, le_rfl,
    ?_, ?_⟩
  · simp [sound.file_eq, encodeRecords, Lines.joinLines]
  · exact forall_mem_append.mpr ⟨sound.encodable, encodable⟩
  · refine forall_mem_append.mpr ⟨sound.positive, fun record member => ?_⟩
    have above := le_journalRecords origin mutations _ record member
    have started : 0 < nextAfter state.flushed := by
      unfold nextAfter
      cases state.flushed.getLast? <;> simp
    exact lt_of_lt_of_le started above
  · obtain ⟨dropped, whole⟩ := sound.suffix
    exact ⟨dropped, by rw [← append_assoc, whole]⟩
  · intro nonempty none
    obtain ⟨keptNone, freshNone⟩ := append_eq_nil_iff.mp none
    refine sound.newest ?_ keptNone
    intro flushedNone
    exact nonempty (append_eq_nil_iff.mpr ⟨flushedNone, freshNone⟩)
  · refine forall_mem_singleton.mpr (sequence.trans (Eq.symm ?_))
    change nextAfter (state.flushed ++ journalRecords origin (nextAfter state.flushed) mutations) = _
    rw [← getLast_journalRecords origin, nextAfter, getLast?_append]
    cases (journalRecords origin (nextAfter state.flushed) mutations).getLast? <;> rfl
  · exact forall_mem_singleton.mpr fun _ => offset.trans length_append.symm

/-- The file with what a prune retains. -/
theorem retain (contexts : List (Nat × SyncContext))
    (newest : ∀ last ∈ lastSequence state.file, through < last)
    (single : contexts.length ≤ 1)
    (sequence : ∀ entry ∈ contexts, entry.2.nextSequence = nextAfter state.flushed)
    (offset : ∀ entry ∈ contexts, entry.2.journalOpen →
      entry.2.journalWriteOffset
      = (encodeRecords (state.kept.filter (through < ·.sequence))).length)
    (jobs : List (Nat × JournalJob))
    : Sound {
      file := encodeRecords (state.kept.filter (through < ·.sequence))
      contexts
      jobs
      flushed := state.flushed
      kept := state.kept.filter (through < ·.sequence)
      } := by
  refine ⟨rfl, ?_, sound.positive, sound.increasing,
    (sound.keptIncreasing.filter_suffix through).trans sound.suffix, ?_, single, sequence, offset⟩
  · exact fun record member => sound.encodable record (mem_of_mem_filter member)
  intro nonempty none
  -- the last kept record is above the prune
  have keptNonempty := sound.newest nonempty
  have last : (state.kept.getLast keptNonempty).sequence ∈ lastSequence state.file := by
    rw [sound.file_eq, lastSequence_encode sound.encodable, getLast?_eq_some_getLast keptNonempty]
    rfl
  have retained : state.kept.getLast keptNonempty ∈ state.kept.filter (through < ·.sequence) :=
    mem_filter.mpr ⟨getLast_mem keptNonempty, decide_eq_true (newest _ last)⟩
  exact ne_nil_of_mem retained none

end Sound

-- A call under way

variable {job : JournalJob}

/-- The state is sound but for the file, which a call under way may have changed. -/
abbrev JournalState.SoundButFile (state : JournalState) : Prop :=
  Sound { state with file := encodeRecords state.kept }

/-- A sound state stays so but for the file when the file changes. -/
theorem Sound.butFile (sound : Sound state) : state.SoundButFile :=
  { sound with file_eq := rfl, offset := sound.file_eq ▸ sound.offset }

/-- With the file that its records stand for the state is sound. -/
theorem JournalState.SoundButFile.sound (sound : state.SoundButFile)
    (file : state.file = encodeRecords state.kept) : Sound state :=
  { sound with file_eq := file, offset := file ▸ sound.offset }

/-- A flush of the attached handle, whose records follow those that were flushed. -/
structure FlushReady (state : JournalState) (handle : Nat) (records : List SyncJournalRecord)
    (next : Nat) : Prop where
  sound : state.SoundButFile
  attached : ∃ context, state.contexts = [(handle, context)] ∧ context.journalOpen
  numbered : ∃ origin mutations, next = nextAfter state.flushed + mutations.length
    ∧ records = journalRecords origin (nextAfter state.flushed) mutations
  encodable : ∀ record ∈ records, JournalCodec.canEncode record

/-- A prune of the attached handle, if there is one, that keeps the newest record. -/
structure PruneReady (state : JournalState) (handle : Nat) (retained : List SyncJournalRecord)
    (through : Nat) : Prop where
  sound : state.SoundButFile
  retained : retained = state.kept.filter (through < ·.sequence)
  newest : ∀ last ∈ lastSequence (encodeRecords state.kept), through < last
  own : ∀ entry ∈ state.contexts, entry.1 = handle

/-- What the file holds at each point of a call. -/
inductive JobSound (state : JournalState) : JournalJob → Prop where
  | numbered {handle next : Nat} {records : List SyncJournalRecord}
    (ready : FlushReady state handle records next) (file : state.file = encodeRecords state.kept)
    : JobSound state (.numbered handle records next)
  | located {handle next offset : Nat} {records : List SyncJournalRecord}
    (ready : FlushReady state handle records next) (file : state.file = encodeRecords state.kept)
    (atEnd : offset = (encodeRecords state.kept).length)
    : JobSound state (.located handle records next offset)
  | written {handle next offset : Nat} {records : List SyncJournalRecord}
    (ready : FlushReady state handle records next)
    (file : state.file = encodeRecords state.kept ++ encodeRecords records)
    (atEnd : offset = (encodeRecords state.kept).length)
    : JobSound state (.written handle records next offset)
  | planned {handle through : Nat} {retained : List SyncJournalRecord}
    (ready : PruneReady state handle retained through)
    (file : state.file = encodeRecords state.kept)
    : JobSound state (.planned handle retained through)
  | truncated {handle through : Nat} {retained : List SyncJournalRecord}
    (ready : PruneReady state handle retained through) (file : state.file = [])
    : JobSound state (.truncated handle retained through)
  | rewritten {handle through : Nat} {retained : List SyncJournalRecord}
    (ready : PruneReady state handle retained through) (file : state.file = encodeRecords retained)
    : JobSound state (.rewritten handle retained through)

/-- No call is under way, or a single one. -/
inductive Intact (state : JournalState) : Prop where
  | idle (jobs : state.jobs = []) (sound : Sound state)
  | busy {thread : Nat} {job : JournalJob} (jobs : state.jobs = [(thread, job)])
    (sound : JobSound state job)

omit [JournalCodec] in
/-- The call of the only thread is replaced. -/
theorem setJob_single (thread : Nat) (before : JournalJob) (after : Option JournalJob)
    : setJob [(thread, before)] thread after = after.toList.map (thread, ·) := by
  simp [setJob]

/-- A call that has not changed the file leaves a sound state if it ends. -/
theorem JobSound.sound (sound : JobSound state job) (unwritten : job.Unwritten) : Sound state := by
  cases sound with
  | numbered ready file | located ready file => exact ready.sound.sound file
  | planned ready file => exact ready.sound.sound file
  | written | truncated | rewritten => exact unwritten.elim

/-- The records follow those that were flushed, and the offset is the end of the file. -/
theorem Sound.beginFlush {origin : FlushOrigin} {mutations : List SyncMutation}
    (sound : Sound state) (idle : state.jobs = [])
    (encodable : ∀ context ∈ state.contexts.lookup handle,
      ∀ record ∈ journalRecords origin context.nextSequence mutations,
        JournalCodec.canEncode record)
    (begun : Sync.beginFlush state thread handle origin mutations = some following)
    : Intact following := by
  simp only [Sync.beginFlush, idle, lookup_nil] at begun
  cases found : state.contexts.lookup handle with
  | none =>
    rw [found] at begun
    cases begun
  | some context =>
    have one := sound.attached found
    obtain ⟨sequence, isOpen, offset⟩ := sound.opened found
    have current : context.nextSequence = nextAfter state.flushed :=
      sound.sequence (handle, context) (by rw [one]; exact mem_cons_self)
    rw [found] at begun
    dsimp only at begun
    split at begun
    · -- nothing is pending
      cases begun
      exact .idle idle sound
    split at begun
    · cases begun
    rw [one, modifyContext_single] at begun
    cases begun
    have opened
      : Sound { state with contexts := [(handle, ensureJournalOpen state.file context)] } :=
      sound.withContext sequence fun _ => offset
    refine .busy rfl (.numbered ⟨{ opened.butFile with }, ⟨_, rfl, isOpen⟩, ⟨origin, mutations, ?_, ?_⟩, ?_⟩
      sound.file_eq)
    · rw [sequence]
    · rw [sequence]
    · rw [sequence, ← current]
      exact encodable context found

/-- A prune that is to rewrite the file has read all kept records. -/
theorem Sound.beginPrune {request : PruneRequest} (sound : Sound state) (idle : state.jobs = [])
    (newest : ∀ last ∈ lastSequence state.file, request.through < last)
    (own : ∀ entry ∈ state.contexts, entry.1 = handle)
    (begun : Sync.beginPrune state thread handle request = some following)
    : Intact following := by
  simp only [Sync.beginPrune, idle, lookup_nil] at begun
  split at begun
  next retained planned =>
    cases begun
    have kept : retained = state.kept.filter (request.through < ·.sequence) := by
      rw [planPrune, sound.read] at planned
      split at planned
      · cases planned
      rw [ok_bind] at planned
      dsimp only at planned
      split at planned <;> cases planned
      rfl
    exact .busy rfl (.planned ⟨{ sound.butFile with }, kept, sound.file_eq ▸ newest, own⟩
      sound.file_eq)
  next =>
    cases begun
    exact .idle idle sound

namespace JobSound

section

variable {records : List SyncJournalRecord} {next offset : Nat}
  (ready : FlushReady state handle records next)
include ready

/-- The lock is free, and the offset is the end of the file. -/
theorem locate (jobs : state.jobs = [(thread, .numbered handle records next)])
    (file : state.file = encodeRecords state.kept)
    (taken : advanceJob state thread fault (.numbered handle records next) = some following)
    : Intact following := by
  obtain ⟨context, one, isOpen⟩ := ready.attached
  have offset := ready.sound.offset (handle, context) (by rw [one]; exact mem_cons_self) isOpen
  have found : state.contexts.lookup handle = some context := by
    rw [one, lookup_cons, beq_self_eq_true]
  have free : state.locked handle = false := by
    rw [JournalState.locked, jobs]
    rfl
  simp only [advanceJob, free, found, jobs, setJob_single] at taken
  cases taken
  exact .busy rfl (.located ⟨{ ready.sound with }, ⟨context, one, isOpen⟩, ready.numbered,
    ready.encodable⟩ file offset)

/-- The records are written at the end of the file, or not at all. -/
theorem write (jobs : state.jobs = [(thread, .located handle records next offset)])
    (file : state.file = encodeRecords state.kept) (atEnd : offset = (encodeRecords state.kept).length)
    (harmless : fault = none ∨ fault = some (.write 0))
    (taken : advanceJob state thread fault (.located handle records next offset) = some following)
    : Intact following := by
  rcases harmless with rfl | rfl
  · have appended : MemFile.writeAt state.file offset (encodeRecords records)
        = encodeRecords state.kept ++ encodeRecords records := by
      rw [MemFile.writeAt_of_le (by rw [file, atEnd]), file, atEnd]
      simp
    simp only [advanceJob, writeAllAt, jobs, setJob_single, appended] at taken
    cases taken
    exact .busy rfl (.written ⟨{ ready.sound with }, ready.attached, ready.numbered,
      ready.encodable⟩ rfl atEnd)
  · simp only [advanceJob, writeAllAt, if_true, jobs, setJob_single] at taken
    cases taken
    exact .idle rfl { ready.sound.sound file with }

/-- The offset is again the end of the file, and the sequence follows the records. -/
theorem finishFlush (jobs : state.jobs = [(thread, .written handle records next offset)])
    (file : state.file = encodeRecords state.kept ++ encodeRecords records)
    (atEnd : offset = (encodeRecords state.kept).length)
    (taken : advanceJob state thread fault (.written handle records next offset) = some following)
    : Intact following := by
  obtain ⟨context, one, isOpen⟩ := ready.attached
  obtain ⟨origin, mutations, rfl, rfl⟩ := ready.numbered
  simp only [advanceJob, jobs, setJob_single, one, modifyContext_single, file] at taken
  cases taken
  refine .idle rfl ?_
  exact ready.sound.append handle origin mutations ready.encodable rfl (atEnd ▸ rfl) _

end

section

variable {retained : List SyncJournalRecord} (ready : PruneReady state handle retained through)
include ready

/-- The file is truncated, or the prune ends without having changed it. -/
theorem truncate (jobs : state.jobs = [(thread, .planned handle retained through)])
    (file : state.file = encodeRecords state.kept) (harmless : fault = none ∨ fault = some .setLen)
    (taken : advanceJob state thread fault (.planned handle retained through) = some following)
    : Intact following := by
  rcases harmless with rfl | rfl
  · simp only [advanceJob, jobs, setJob_single] at taken
    cases taken
    exact .busy rfl (.truncated ⟨{ ready.sound with }, ready.retained, ready.newest, ready.own⟩
      (by simp [MemFile.resize]))
  · simp only [advanceJob, jobs, setJob_single] at taken
    cases taken
    exact .idle rfl { ready.sound.sound file with }

/-- What is retained is written to the empty file. -/
theorem rewrite (jobs : state.jobs = [(thread, .truncated handle retained through)])
    (file : state.file = [])
    (taken : advanceJob state thread none (.truncated handle retained through) = some following)
    : Intact following := by
  have whole : MemFile.writeAt [] 0 (encodeRecords retained) = encodeRecords retained :=
    writeAt_truncated [] _
  simp only [advanceJob, writeAllAt, jobs, setJob_single, file, whole] at taken
  cases taken
  exact .busy rfl (.rewritten ⟨{ ready.sound with }, ready.retained, ready.newest, ready.own⟩ rfl)

/-- The attached handle learns the new end of the file. -/
theorem finishPrune (jobs : state.jobs = [(thread, .rewritten handle retained through)])
    (file : state.file = encodeRecords retained)
    (taken : advanceJob state thread fault (.rewritten handle retained through) = some following)
    : Intact following := by
  obtain ⟨sound, rfl, newest, own⟩ := ready
  simp only [advanceJob, jobs, setJob_single, file] at taken
  cases taken
  refine .idle rfl ?_
  rcases sound.contexts_cases with none | ⟨⟨other, context⟩, one⟩
  · have none : state.contexts = [] := none
    simp only [none, modifyContext, map_nil]
    exact sound.retain [] newest (Nat.zero_le _) nofun nofun _
  · have one : state.contexts = [(other, context)] := one
    obtain rfl : other = handle := own (other, context) (by rw [one]; exact mem_cons_self)
    have sequence := sound.sequence (other, context) (by dsimp only; rw [one]; exact mem_cons_self)
    simp only [one, modifyContext_single]
    refine sound.retain _ newest ?_ ?_ ?_ _
    · exact le_rfl
    · exact forall_mem_singleton.mpr sequence
    · exact forall_mem_singleton.mpr fun _ => rfl

end

/-- By cases on how far the call is. -/
theorem advance (sound : JobSound state job) (jobs : state.jobs = [(thread, job)])
    (harmless : job.Harmless fault) (taken : advanceJob state thread fault job = some following)
    : Intact following := by
  cases sound with
  | numbered ready file => exact locate ready jobs file taken
  | located ready file atEnd => exact write ready jobs file atEnd harmless taken
  | written ready file atEnd => exact finishFlush ready jobs file atEnd taken
  | planned ready file => exact truncate ready jobs file harmless taken
  | truncated ready file =>
    cases harmless
    exact rewrite ready jobs file taken
  | rewritten ready file => exact finishPrune ready jobs file taken

end JobSound

/-- The careful steps, of which only the next one of a call is taken while it is under way. -/
theorem Intact.step {action : JournalAction} (intact : Intact state)
    (careful : CarefulStep state action) (taken : journalSystem.next state action = some following)
    : Intact following := by
  have soundIdle (idle : state.jobs.isEmpty) : state.jobs = [] ∧ Sound state := by
    have none := isEmpty_iff.mp idle
    cases intact with
    | idle _ sound => exact ⟨none, sound⟩
    | busy jobs =>
      rw [none] at jobs
      cases jobs
  cases action with
  | attach handle =>
    obtain ⟨none, sound⟩ := soundIdle careful.1
    cases taken
    refine .idle ?_ (sound.attach careful.2)
    unfold attachHandle
    split <;> exact none
  | beginFlush thread handle origin mutations =>
    obtain ⟨none, sound⟩ := soundIdle careful.1
    exact sound.beginFlush none careful.2 taken
  | beginPrune thread handle request =>
    obtain ⟨none, sound⟩ := soundIdle careful.1
    exact sound.beginPrune none careful.2.1 careful.2.2 taken
  | advance thread fault =>
    obtain ⟨job, found, taken⟩ := Option.bind_eq_some_iff.mp taken
    have harmless := careful job found
    cases intact with
    | idle jobs =>
      rw [jobs] at found
      cases found
    | @busy owner _ jobs sound =>
      rw [jobs, lookup_cons] at found
      split at found
      next same =>
        cases found
        rw [← beq_iff_eq.mp same] at jobs
        exact sound.advance jobs harmless taken
      next => cases found
  | close handle =>
    obtain ⟨none, sound⟩ := soundIdle careful
    simp only [journalSystem, none, any_nil] at taken
    cases taken
    exact .idle rfl (sound.detach filter_sublist [])
  | crash =>
    cases taken
    cases intact with
    | idle _ sound => exact .idle rfl (sound.detach (nil_sublist _) [])
    | busy jobs sound =>
      have unwritten := careful _ (by rw [jobs]; exact mem_cons_self)
      exact .idle rfl ((sound.sound unwritten).detach (nil_sublist _) [])

/-- The journal is intact after every careful run at whose end no call is under way: reading it
does not fail and returns every record that was flushed and not pruned, and no sequence was used
twice.
-/
theorem journal_intact {actions : List JournalAction} {final : JournalState}
    (careful : journalSystem.Meets CarefulStep initialJournal actions)
    (ran : journalSystem.run initialJournal actions = some final) (idle : final.jobs = [])
    : ∃ records, readJournalRecords final.file 0 none = .ok records ∧ final.kept ⊆ records
      ∧ records.Pairwise (·.sequence < ·.sequence)
      ∧ final.flushed.Pairwise (·.sequence < ·.sequence) := by
  have intact : Intact final :=
    System.run_preserves _ Intact (fun _ _ _ holds guard taken => holds.step guard taken)
      (.idle rfl .initial) careful ran
  have sound : Sound final := by
    cases intact with
    | idle _ sound => exact sound
    | busy jobs =>
      rw [idle] at jobs
      cases jobs
  exact ⟨final.kept, sound.read, List.Subset.refl _, sound.keptIncreasing, sound.increasing⟩

end Journal

-- Two handles

/-- A mutation of which only the sequence is written. -/
def plainMutation : SyncMutation where
  table := "items"
  operation := "delete"
  primaryKey := .null
  after := none
  schemaCookie := 1

def plainOrigin : FlushOrigin where
  replicaId := "local"
  transactionLsn := 0
  nowMicros := 0

def plainRecord (sequence : Nat) : SyncJournalRecord :=
  journalRecord plainOrigin sequence plainMutation

variable (record : SyncJournalRecord)

def isPlain : Bool :=
  record.schemaVersion = 1 && record.replicaId = "local" && record.transactionLsn = 0
    && record.table = "items" && record.operation = "delete"
    && (match record.primaryKey with
      | .null => true
      | _ => false)
    && record.after.isNone && record.schemaCookie = 1 && record.committedAtMicros = 0

/-- The records of the example are known by their sequence. -/
theorem isPlain_eq {record : SyncJournalRecord} (plain : isPlain record)
    : record = plainRecord record.sequence := by
  obtain ⟨version, sequence, replica, lsn, table, operation, key, after, cookie, time⟩ := record
  cases key <;> simp [isPlain] at plain
  simp [plainRecord, journalRecord, plainOrigin, plainMutation, plain]

/-- Braces around as many ones as the sequence says. -/
def encodePlain : List UInt8 :=
  123 :: (replicate record.sequence 49 ++ [125])

def parsePlain : List UInt8 → Option SyncJournalRecord
  | 123 :: rest =>
    if rest.getLast? = some 125 && rest.dropLast.all (· = 49) then
      some (plainRecord rest.dropLast.length)
    else none
  | _ => none

@[reducible]
def plainCodec : JournalCodec where
  encode := encodePlain
  parse := parsePlain
  canEncode := isPlain
  newline_not_mem := by
    intro record _
    simp [encodePlain, newline]
  trim_encode := by
    intro record _
    simp [encodePlain, trim, isBlank]
  encode_ne_nil := by
    intro record _
    simp [encodePlain]
  parse_encode := by
    intro record plain
    rw [isPlain_eq plain]
    simp [encodePlain, parsePlain, plainRecord, journalRecord]

/-- A flush of one mutation by a thread without anything in between. -/
def flushActions (thread handle : Nat) : List JournalAction :=
  [.beginFlush thread handle plainOrigin [plainMutation], .advance thread none, .advance thread none,
    .advance thread none]

/-- Two flushes, a failed one, a prune and a crash. -/
def crashingRun : List JournalAction :=
  [.attach 1] ++ flushActions 1 1 ++ flushActions 2 1
    ++ [.beginFlush 1 1 plainOrigin [plainMutation], .advance 1 none, .advance 1 (some (.write 0)),
      .beginPrune 2 1 ⟨1, false, true, none, []⟩, .advance 2 none, .advance 2 none, .advance 2 none,
      .crash, .attach 2] ++ flushActions 1 2

/-- Two flushes, one that fails before it has written a byte, a prune, a crash and a flush by
another handle.
-/
theorem journal_intact_crash : letI := plainCodec
      ∃ final records, journalSystem.run initialJournal crashingRun = some final
        ∧ readJournalRecords final.file 0 none = .ok records ∧ final.kept ⊆ records
        ∧ records.Pairwise (·.sequence < ·.sequence)
        ∧ final.flushed.Pairwise (·.sequence < ·.sequence) := by
  have careful
    : letI := plainCodec
      journalSystem.Meets CarefulStep initialJournal crashingRun := by
    decide +kernel
  let _ := plainCodec
  simp only [exists_and_left]
  refine Evaluation.exists_of_checked (fun final => final.jobs.isEmpty) (by decide +kernel)
    fun final ran idle => ?_
  obtain ⟨records, intact⟩ := journal_intact careful ran (isEmpty_iff.mp idle)
  exact ⟨records, intact⟩

/-- Two handles use one sequence twice, and the first overwrites the record of the second. -/
theorem journal_two_handles_counterexample : letI := plainCodec
      ((journalSystem.run initialJournal ([.attach 1, .attach 2] ++ flushActions 1 1
        ++ flushActions 2 2 ++ flushActions 1 1)).map fun final =>
        (final.flushed.map (·.sequence), final.kept.map (·.sequence),
          (readJournalRecords final.file 0 none).toOption.map (·.map (·.sequence))))
        = some ([1, 1, 2], [1, 1, 2], some [1, 2]) := by
  decide +kernel

/-- A flush by another thread between the reading and the rewriting of a prune is lost. -/
example : letI := plainCodec
      ((journalSystem.run initialJournal ([.attach 1] ++ flushActions 1 1 ++ flushActions 1 1
        ++ [.beginPrune 2 1 ⟨1, false, true, none, []⟩] ++ flushActions 1 1
        ++ [.advance 2 none, .advance 2 none, .advance 2 none])).map fun final =>
        (final.kept.map (·.sequence),
          (readJournalRecords final.file 0 none).toOption.map (·.map (·.sequence))))
        = some ([2, 3], some [2]) := by
  decide +kernel

end DecentDb.Sync
