import DecentDb.Library.Overlays
import DecentDb.Wal.Format

/-! Fixed-size WAL delta payloads for small page edits: patches for the maximal runs of
differing bytes, and that applying them to a page overlays it with the bytes that differ.
-/

namespace DecentDb.Wal

open List

open LittleEndian (leBytes leNat leNat_leBytes_of_lt length_leBytes)
open Overlays (overlay)

def deltaPatchCountSize : Nat := 2
def deltaPatchHeaderSize : Nat := 4

/-- One patch: where its bytes go, and the bytes. -/
structure DeltaPatch where
  offset : Nat
  bytes : List UInt8
  deriving DecidableEq, Repr

/-- Puts the byte at `index` in front of the patches that follow it: it extends the first
one if that starts right after it.
-/
def extendRun (index : Nat) (byte : UInt8) : List DeltaPatch → List DeltaPatch
  | [] => [{ offset := index, bytes := [byte] }]
  | first :: rest =>
    if first.offset = index + 1 then { offset := index, bytes := byte :: first.bytes } :: rest
    else { offset := index, bytes := [byte] } :: first :: rest

/-- The maximal runs of bytes that differ, `index` being the position of the heads. -/
def differingRuns : Nat → Page → Page → List DeltaPatch
  | index, old :: base, new :: updated =>
    let runs := differingRuns (index + 1) base updated
    if old = new then runs else extendRun index new runs
  | _, _, _ => []

/-- The payload after one more patch is appended per run; `none` as soon as one does not
fit.
-/
def appendPatches : List UInt8 → Nat → List DeltaPatch → Option (List UInt8 × Nat)
  | payload, patchCount, [] => some (payload, patchCount)
  | payload, patchCount, run :: rest =>
    if deltaFramePayloadSize < payload.length + deltaPatchHeaderSize + run.bytes.length then none
    else if 65535 < run.offset then none
    else if 65535 < run.bytes.length then none
    else if patchCount = 65535 then none
    else appendPatches
      (payload ++ leBytes 2 run.offset ++ leBytes 2 run.bytes.length ++ run.bytes)
      (patchCount + 1) rest

/-- The delta payload that turns `base` into `updated`; `none` if the writer has to fall
back to a full-page frame.
-/
def encodePageDelta (base updated : Page) : Option (List UInt8) :=
  if base.length ≠ updated.length then none
  else
    match appendPatches (leBytes 2 0) 0 (differingRuns 0 base updated) with
    | none => none
    | some (payload, patchCount) =>
      if patchCount = 0 ∨ updated.length ≤ payload.length then none
      else
        some (leBytes 2 patchCount ++ payload.drop deltaPatchCountSize
          ++ replicate (deltaFramePayloadSize - payload.length) 0)

/-- Offset and length of the patch at the cursor, and the cursor of its bytes. -/
def decodeDeltaPatchHeader (payload : List UInt8) (cursor : Nat) : DbResult (Nat × Nat × Nat) :=
  if payload.length < cursor + deltaPatchHeaderSize then
    .error (.corruption "WAL delta patch header overruns payload")
  else
    .ok (leNat ((payload.drop cursor).take 2), leNat ((payload.drop (cursor + 2)).take 2),
      cursor + deltaPatchHeaderSize)

/-- The first pass over a payload: every patch lies in the payload and in the page. -/
def validatePatches (payload : List UInt8) (pageLength : Nat) : Nat → Nat → DbResult Unit
  | 0, _ => .ok ()
  | patchCount + 1, cursor => do
    let (offset, length, nextCursor) ← decodeDeltaPatchHeader payload cursor
    if payload.length < nextCursor + length then
      .error (.corruption "WAL delta patch bytes overrun payload")
    else if pageLength < offset + length then
      .error (.corruption "WAL delta patch writes past page end")
    else validatePatches payload pageLength patchCount (nextCursor + length)

/-- `page[offset..offset + bytes.len()].copy_from_slice(bytes)`. -/
def copyInto (page : Page) (patch : DeltaPatch) : Page :=
  page.take patch.offset ++ patch.bytes ++ page.drop (patch.offset + patch.bytes.length)

/-- The second pass: copies the bytes of each patch into the page. -/
def applyPatches (payload : List UInt8) : Nat → Nat → Page → DbResult Page
  | 0, _, page => .ok page
  | patchCount + 1, cursor, page => do
    let (offset, length, nextCursor) ← decodeDeltaPatchHeader payload cursor
    applyPatches payload patchCount (nextCursor + length)
      (copyInto page { offset, bytes := (payload.drop nextCursor).take length })

def applyPageDelta (page : Page) (payload : List UInt8) : DbResult Page :=
  if payload.length ≠ deltaFramePayloadSize then
    .error (.corruption (s!"invalid WAL delta payload length {payload.length}; "
      ++ s!"expected {deltaFramePayloadSize}"))
  else do
    let patchCount := leNat (payload.take deltaPatchCountSize)
    validatePatches payload page.length patchCount deltaPatchCountSize
    applyPatches payload patchCount deltaPatchCountSize page

-- The runs

/-- Prefixing a byte to the runs copies that byte first. -/
theorem foldl_copyInto_extendRun (before rest : Page) (old new : UInt8) (runs : List DeltaPatch)
    : (extendRun before.length new runs).foldl copyInto (before ++ old :: rest)
      = runs.foldl copyInto (before ++ new :: rest) := by
  have single (byte : UInt8) : copyInto (before ++ old :: rest)
    { offset := before.length, bytes := [byte] } = before ++ byte :: rest := by
    simp [copyInto]
  cases runs with
  | nil => simp only [extendRun, foldl_cons, single]
  | cons first others =>
    rw [extendRun]
    split
    next adjacent =>
      have same : copyInto (before ++ old :: rest)
        { offset := before.length, bytes := new :: first.bytes }
        = copyInto (before ++ new :: rest) first := by
        have split : before ++ new :: rest = (before ++ [new]) ++ rest := by simp
        have beyond (byte : UInt8) : (before ++ byte :: rest).drop
          (before.length + 1 + first.bytes.length) = rest.drop first.bytes.length := by
          rw [show before ++ byte :: rest = (before ++ [byte]) ++ rest by simp,
            ← drop_drop, drop_left' (by simp)]
        simp only [copyInto, adjacent, beyond, length_cons]
        rw [take_left, split, take_left' (by simp), show before.length + (first.bytes.length + 1)
            = before.length + 1 + first.bytes.length by omega, beyond]
        simp
      simp only [foldl_cons, same]
    next => simp only [foldl_cons, single]

variable {runs : List DeltaPatch} {base updated page : Page}

/-- Copying the runs into a page of the same length overlays it with the bytes that differ, by
induction along the two pages.
-/
theorem foldl_copyInto_differingRuns (before : Page) (sameLength : base.length = updated.length)
    (pageLength : page.length = updated.length)
    : (differingRuns before.length base updated).foldl copyInto (before ++ page)
      = before ++ overlay base updated page := by
  induction updated generalizing before base page with
  | nil =>
    have noBase := eq_nil_of_length_eq_zero sameLength
    have noPage := eq_nil_of_length_eq_zero pageLength
    subst noBase noPage
    rfl
  | cons new updated ih =>
    obtain ⟨old, base, rfl⟩ := exists_cons_of_length_eq_add_one sameLength
    obtain ⟨current, page, rfl⟩ := exists_cons_of_length_eq_add_one pageLength
    have tail (byte : UInt8) := ih (before ++ [byte]) (by simpa using sameLength)
      (by simpa using pageLength)
    simp only [length_append, length_singleton, append_assoc, singleton_append] at tail
    unfold differingRuns overlay
    split
    next => exact tail current
    next => rw [foldl_copyInto_extendRun, tail]

variable (patch : DeltaPatch)

/-- A patch lies between two positions. -/
def DeltaPatch.Within (low high : Nat) : Prop :=
  low ≤ patch.offset ∧ patch.offset + patch.bytes.length ≤ high

/-- A longer run stays within the page. -/
theorem extendRun_within {index high : Nat} {byte : UInt8}
    (room : index < high) (within : ∀ run ∈ runs, run.Within (index + 1) high)
    : ∀ run ∈ extendRun index byte runs, run.Within index high := by
  have weaken : ∀ run ∈ runs, run.Within index high := fun run member =>
    ⟨by have := (within run member).1; omega, (within run member).2⟩
  have single : DeltaPatch.Within { offset := index, bytes := [byte] } index high :=
    ⟨le_rfl, room⟩
  cases runs with
  | nil => simpa [extendRun] using single
  | cons first rest =>
    rw [extendRun]
    split
    next adjacent =>
      have head := within first (by simp)
      refine forall_mem_cons.mpr ⟨⟨le_rfl, ?_⟩, (forall_mem_cons.mp weaken).2⟩
      have := head.2
      simp only [length_cons]
      omega
    next => exact forall_mem_cons.mpr ⟨single, weaken⟩

/-- All runs of differing bytes lie within the page. -/
theorem differingRuns_within (index : Nat) (base updated : Page)
    : ∀ run ∈ differingRuns index base updated, run.Within index (index + updated.length) := by
  induction base generalizing index updated with
  | nil => simp [differingRuns]
  | cons old base ih =>
    cases updated with
    | nil => simp [differingRuns]
    | cons new updated =>
      have tail : ∀ run ∈ differingRuns (index + 1) base updated,
        run.Within (index + 1) (index + (new :: updated).length) := by
        have := ih (index + 1) updated
        rwa [show index + 1 + updated.length = index + (new :: updated).length by
          simp only [length_cons]; omega] at this
      unfold differingRuns
      split
      · intro run member
        have := tail run member
        exact ⟨by have := this.1; omega, this.2⟩
      · exact extendRun_within (by simp) tail

-- The payload

/-- A patch as it stands in the payload. -/
def DeltaPatch.encoded : List UInt8 :=
  leBytes 2 patch.offset ++ leBytes 2 patch.bytes.length ++ patch.bytes

/-- A patch whose numbers fit their two bytes. -/
def DeltaPatch.Fits : Prop :=
  patch.offset < 65536 ∧ patch.bytes.length < 65536

variable {payload final rest : List UInt8} {patch : DeltaPatch} {image : Page}
  {cursor pageLength : Nat}

/-- What a successful append pass has written, by induction on the runs. -/
theorem appendPatches_spec
    {patchCount total : Nat} (appended : appendPatches payload patchCount runs = some (final, total))
    (room : payload.length ≤ deltaFramePayloadSize) (small : patchCount < 65536)
    : final = payload ++ runs.flatMap DeltaPatch.encoded
      ∧ total = patchCount + runs.length ∧ total < 65536
      ∧ final.length ≤ deltaFramePayloadSize ∧ ∀ run ∈ runs, run.Fits := by
  induction runs generalizing payload patchCount with
  | nil =>
    obtain ⟨rfl, rfl⟩ : payload = final ∧ patchCount = total := by
      simpa [appendPatches] using appended
    simp [room, small]
  | cons run rest ih =>
    unfold appendPatches at appended
    split at appended
    next => cases appended
    split at appended
    next => cases appended
    split at appended
    next => cases appended
    split at appended
    next => cases appended
    next fits offsetFits lengthFits countFits =>
      have grown : (payload ++ leBytes 2 run.offset ++ leBytes 2 run.bytes.length
        ++ run.bytes).length ≤ deltaFramePayloadSize := by
        simp only [length_append, length_leBytes]
        unfold deltaPatchHeaderSize at fits
        omega
      obtain ⟨bytes, count, bound, length, all⟩ := ih appended grown (by omega)
      refine ⟨?_, ?_, bound, length, ?_⟩
      · rw [bytes]
        simp [DeltaPatch.encoded]
      · rw [count, length_cons]
        omega
      · exact forall_mem_cons.mpr ⟨⟨by omega, by omega⟩, all⟩

section Passes

/-- The header of a patch is read back. -/
theorem decodeDeltaPatchHeader_encoded (fits : patch.Fits)
    (at_cursor : payload.drop cursor = patch.encoded ++ rest)
    : decodeDeltaPatchHeader payload cursor
      = .ok (patch.offset, patch.bytes.length, cursor + deltaPatchHeaderSize)
      ∧ payload.drop (cursor + deltaPatchHeaderSize) = patch.bytes ++ rest
      ∧ cursor + deltaPatchHeaderSize + patch.bytes.length ≤ payload.length := by
  have length : payload.length - cursor
    = deltaPatchHeaderSize + patch.bytes.length + rest.length := by
    have := congrArg length at_cursor
    simp only [length_drop, length_append, DeltaPatch.encoded, length_leBytes] at this
    rw [this, deltaPatchHeaderSize]
  have positive : 0 < deltaPatchHeaderSize := by decide
  have second : payload.drop (cursor + 2) = leBytes 2 patch.bytes.length ++ (patch.bytes ++ rest) := by
    rw [← drop_drop, at_cursor, DeltaPatch.encoded, append_assoc, append_assoc,
      drop_left' (by simp)]
  refine ⟨?_, ?_, by omega⟩
  · rw [decodeDeltaPatchHeader, if_neg (by omega), second, at_cursor, DeltaPatch.encoded,
    append_assoc, append_assoc, take_left' (by simp), take_left' (by simp),
    leNat_leBytes_of_lt fits.1, leNat_leBytes_of_lt fits.2]
  · rw [show cursor + deltaPatchHeaderSize = cursor + 2 + 2 from rfl, ← drop_drop, second,
    drop_left' (by simp)]

variable (at_cursor : payload.drop cursor = runs.flatMap DeltaPatch.encoded ++ rest)
  (fit : ∀ run ∈ runs, run.Fits)
include at_cursor fit

/-- What the encoder writes passes the validation. -/
theorem validatePatches_encoded (within : ∀ run ∈ runs, run.Within 0 pageLength)
    : validatePatches payload pageLength runs.length cursor = .ok () := by
  induction runs generalizing cursor with
  | nil => rfl
  | cons run others ih =>
    rw [flatMap_cons, append_assoc] at at_cursor
    obtain ⟨header, bytes, inside⟩ := decodeDeltaPatchHeader_encoded (fit run (by simp)) at_cursor
    have end_ok := (within run (by simp)).2
    simp only [length_cons, validatePatches, header, ok_bind]
    rw [if_neg (by omega), if_neg (by omega)]
    refine ih ?_ (fun other member => fit other (by simp [member]))
      (fun other member => within other (by simp [member]))
    rw [← drop_drop, bytes, drop_left]

/-- Applying what the encoder writes copies the runs into the page. -/
theorem applyPatches_encoded
    : applyPatches payload runs.length cursor page = .ok (runs.foldl copyInto page) := by
  induction runs generalizing cursor page with
  | nil => rfl
  | cons run others ih =>
    rw [flatMap_cons, append_assoc] at at_cursor
    obtain ⟨header, bytes, inside⟩ := decodeDeltaPatchHeader_encoded (fit run (by simp)) at_cursor
    simp only [length_cons, applyPatches, header, ok_bind, foldl_cons]
    rw [bytes, take_left]
    refine ih ?_ (fun other member => fit other (by simp [member]))
    rw [← drop_drop, bytes, drop_left]

end Passes

section

variable (encoded : encodePageDelta base updated = some payload)
include encoded

/-- An encoded delta sets the bytes in which the updated page differs from its base, in every
page of that length.
-/
theorem applyPageDelta_overlay (pageLength : page.length = updated.length)
    : applyPageDelta page payload = .ok (overlay base updated page) := by
  unfold encodePageDelta at encoded
  split at encoded
  next => cases encoded
  next lengths =>
    split at encoded
    next => cases encoded
    next written patchCount appended =>
      split at encoded
      next => cases encoded
      obtain ⟨bytes, count, bound, length, fit⟩ :=
        appendPatches_spec appended (by simp [deltaFramePayloadSize]) (by decide)
      have total : payload = leBytes 2 (differingRuns 0 base updated).length
        ++ ((differingRuns 0 base updated).flatMap DeltaPatch.encoded
          ++ replicate (deltaFramePayloadSize - written.length) 0) := by
        rw [← Option.some.inj encoded, bytes, drop_left' (by rfl), count, zero_add,
          append_assoc]
      have size : payload.length = deltaFramePayloadSize := by
        have writtenLength := congrArg List.length bytes
        have payloadLength := congrArg List.length total
        simp only [length_append, length_leBytes, length_replicate]
          at writtenLength payloadLength
        omega
      have at_cursor : payload.drop deltaPatchCountSize
        = (differingRuns 0 base updated).flatMap DeltaPatch.encoded
          ++ replicate (deltaFramePayloadSize - written.length) 0 := by
        rw [total, drop_left' (by simp [deltaPatchCountSize])]
      have countRead : leNat (payload.take deltaPatchCountSize)
        = (differingRuns 0 base updated).length := by
        rw [total, take_left' (by simp [deltaPatchCountSize]), leNat_leBytes_of_lt (by omega)]
      have within : ∀ run ∈ differingRuns 0 base updated, run.Within 0 page.length := by
        have := differingRuns_within 0 base updated
        rwa [zero_add, ← pageLength] at this
      have copied := foldl_copyInto_differingRuns [] (of_not_not lengths) pageLength
      simp only [length_nil, nil_append] at copied
      rw [applyPageDelta, if_neg (not_not.mpr size)]
      simp only [countRead, validatePatches_encoded at_cursor fit within, ok_bind,
        applyPatches_encoded at_cursor fit, copied]

/-- A delta exists only between pages of the same length. -/
theorem length_eq_of_encodePageDelta : base.length = updated.length := by
  unfold encodePageDelta at encoded
  split at encoded
  · cases encoded
  next lengths => exact of_not_not lengths

/-- An encoded delta rebuilds the updated page from its base, and from every page that
differs from the updated one only where the base did.
-/
theorem applyPageDelta_encodePageDelta (pageLength : page.length = updated.length)
    (agrees : ∀ index : Nat, base[index]? = updated[index]? → page[index]? = updated[index]?)
    : applyPageDelta page payload = .ok updated := by
  rw [applyPageDelta_overlay encoded pageLength,
    Overlays.overlay_eq_image (length_eq_of_encodePageDelta encoded) pageLength agrees]

/-- A delta payload has the fixed size of its frame. -/
theorem length_encodePageDelta : payload.length = deltaFramePayloadSize := by
  by_contra wrong
  have applied := applyPageDelta_encodePageDelta encoded (length_eq_of_encodePageDelta encoded)
    fun _ same => same
  rw [applyPageDelta, if_pos wrong] at applied
  cases applied

end

-- Any payload

/-- Patches that were validated keep the length of the page, by induction on them. -/
theorem length_applyPatches {patchCount cursor : Nat}
    (valid : validatePatches payload page.length patchCount cursor = .ok ())
    (applied : applyPatches payload patchCount cursor page = .ok image)
    : image.length = page.length := by
  induction patchCount generalizing cursor page with
  | zero =>
    cases applied
    rfl
  | succ patchCount ih =>
    obtain ⟨⟨offset, length, nextCursor⟩, header, applied⟩ := bind_eq_ok.mp applied
    rw [validatePatches, header] at valid
    simp only [ok_bind] at valid
    split at valid
    · cases valid
    split at valid
    · cases valid
    next fits inside =>
      have bytes : ((payload.drop nextCursor).take length).length = length := by
        rw [length_take, length_drop]
        omega
      have kept : (copyInto page
        { offset, bytes := (payload.drop nextCursor).take length }).length = page.length := by
        simp only [copyInto, length_append, length_take, length_drop]
        omega
      rw [← kept] at valid ⊢
      exact ih valid applied

/-- Applying a delta keeps the length of the page. -/
theorem length_applyPageDelta
    (applied : applyPageDelta page payload = .ok image) : image.length = page.length := by
  unfold applyPageDelta at applied
  split at applied
  · cases applied
  · obtain ⟨_, valid, applied⟩ := bind_eq_ok.mp applied
    exact length_applyPatches valid applied

-- In place

/-- The second pass on the caller's page: the page it leaves, also if a header does not decode. -/
def writePatches (payload : List UInt8) : Nat → Nat → Page → Page × DbResult Unit
  | 0, _, page => (page, .ok ())
  | patchCount + 1, cursor, page =>
    match decodeDeltaPatchHeader payload cursor with
    | .error error => (page, .error error)
    | .ok (offset, length, nextCursor) =>
      writePatches payload patchCount (nextCursor + length)
        (copyInto page { offset, bytes := (payload.drop nextCursor).take length })

/-- The caller's page afterwards, with the result of the call. -/
def applyPageDeltaInPlace (page : Page) (payload : List UInt8) : Page × DbResult Unit :=
  if payload.length ≠ deltaFramePayloadSize then
    (page, .error (.corruption (s!"invalid WAL delta payload length {payload.length}; "
      ++ s!"expected {deltaFramePayloadSize}")))
  else
    let patchCount := leNat (payload.take deltaPatchCountSize)
    match validatePatches payload page.length patchCount deltaPatchCountSize with
    | .error error => (page, .error error)
    | .ok () => writePatches payload patchCount deltaPatchCountSize page

/-- The second pass meets the headers that the first one has decoded, by induction on them. -/
theorem writePatches_of_valid {pageLength patchCount cursor : Nat}
    (valid : validatePatches payload pageLength patchCount cursor = .ok ()) (page : Page)
    : ∃ image, applyPatches payload patchCount cursor page = .ok image
      ∧ writePatches payload patchCount cursor page = (image, .ok ()) := by
  induction patchCount generalizing cursor page with
  | zero => exact ⟨page, rfl, rfl⟩
  | succ patchCount ih =>
    obtain ⟨⟨offset, length, nextCursor⟩, header, valid⟩ := bind_eq_ok.mp valid
    simp only [applyPatches, writePatches, header, ok_bind]
    dsimp only at valid
    split at valid
    · cases valid
    · split at valid
      · cases valid
      · exact ih valid _

/-- A page is replaced by the image of the delta, and by nothing if there is none. -/
theorem applyPageDeltaInPlace_eq (page : Page) (payload : List UInt8)
    : applyPageDeltaInPlace page payload = match applyPageDelta page payload with
        | .ok image => (image, .ok ())
        | .error error => (page, .error error) := by
  unfold applyPageDeltaInPlace applyPageDelta
  split
  · rfl
  cases validated : validatePatches payload page.length
    (leNat (payload.take deltaPatchCountSize)) deltaPatchCountSize with
  | error error => simp only [validated, error_bind]
  | ok checked =>
    obtain ⟨image, applied, wrote⟩ := writePatches_of_valid validated page
    simp only [validated, ok_bind, applied, wrote]

/-- An encoded delta completes a page in which some of its bytes are already written, and a
payload that is refused changes no byte.
-/
theorem page_delta_in_place_exact
    : (∀ (base updated page : Page) (payload : List UInt8), base.length = updated.length
        → encodePageDelta base updated = some payload → page.length = updated.length
        → (∀ index : Nat, page[index]? = base[index]? ∨ page[index]? = updated[index]?)
        → applyPageDeltaInPlace page payload = (updated, .ok ()))
      ∧ ∀ (page : Page) (payload : List UInt8) (error : DbError),
        (applyPageDeltaInPlace page payload).2 = .error error
        → (applyPageDeltaInPlace page payload).1 = page := by
  constructor
  · intro base updated page payload _ encoded pageLength mixed
    have applied := applyPageDelta_encodePageDelta encoded pageLength fun index same =>
      (mixed index).elim (fun old => old.trans same) id
    rw [applyPageDeltaInPlace_eq, applied]
  intro page payload error failed
  rw [applyPageDeltaInPlace_eq] at failed ⊢
  split at failed
  · cases failed
  · rfl

/-- The first of two patches is already in the page. -/
theorem page_delta_in_place_half_written
    : ∃ payload, encodePageDelta (replicate 16 0) (((replicate 16 0).set 3 1).set 9 2)
        = some payload
      ∧ applyPageDeltaInPlace ((replicate 16 0).set 3 1) payload
        = (((replicate 16 0).set 3 1).set 9 2, .ok ()) := by
  refine ⟨_, rfl, page_delta_in_place_exact.1 (replicate 16 0) _ _ _ rfl rfl rfl ?_⟩
  intro index
  by_cases written : index = 9
  · exact .inl (by rw [written]; rfl)
  · exact .inr (getElem?_set_ne (Ne.symm written)).symm

end DecentDb.Wal
