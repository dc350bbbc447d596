import DecentDb.Wal.LogHeader
import DecentDb.Wal.LogReplay

/-! A commit writes its pages down as edits: each frame holds the whole image or the delta
against a base that the writer found for the page.
-/

namespace DecentDb.Wal

open List

open Overlays (Edit BaseRule History)

/-- A prepared page, the edit it stands for and the frame of that edit. -/
structure PreparedFor (pageSize : Nat) (edit : PageEdit) (frame : WalFrame)
    (prepared : PreparedWalPage) : Prop where
  records : Records pageSize edit frame
  pageId : prepared.pageId = edit.1
  encodedLen : prepared.encodedLen = frame.encodedLen pageSize
  resident : ∀ data encoding, prepared.payload = .resident data encoding → data = edit.2.image

/-- The pages that a commit has prepared. A patch is the first edit of its page in the commit,
and its base is one that the page offers.
-/
inductive PreparedEdits (pageSize : Nat) (offers : PageId → Page → Prop)
    : List PageEdit → List WalFrame → List PreparedWalPage → Prop where
  | nil : PreparedEdits pageSize offers [] [] []
  | snoc {edits : List PageEdit} {frames : List WalFrame} {prepared : List PreparedWalPage}
    {edit : PageEdit} {frame : WalFrame} {next : PreparedWalPage}
    (run : PreparedEdits pageSize offers edits frames prepared)
    (last : PreparedFor pageSize edit frame next)
    (base : ∀ base image, edit.2 = .patch base image
      → offers edit.1 base ∧ editsOf edit.1 edits = [])
    : PreparedEdits pageSize offers (edits ++ [edit]) (frames ++ [frame]) (prepared ++ [next])

/-- The pages of edits with the images that they were given. -/
def writesOf (edits : List PageEdit) : List (PageId × Page) :=
  edits.map fun edit => (edit.1, edit.2.image)

/-- The writes of edits, in order. -/
@[simp]
theorem writesOf_append (edits more : List PageEdit)
    : writesOf (edits ++ more) = writesOf edits ++ writesOf more :=
  map_append

/-- The last write of a page is the image of its last edit. -/
theorem find?_reverse_writesOf (edits : List PageEdit) (pageId : PageId)
    : (writesOf edits).reverse.find? (·.1 = pageId)
      = (editsOf pageId edits).getLast?.map fun edit => (pageId, edit.image) := by
  rw [← head?_filter, filter_reverse, head?_reverse, writesOf, filter_map,
    editsOf, getLast?_map, getLast?_map]
  simp only [Function.comp_def]
  cases found : (edits.filter (·.1 = pageId)).getLast? with
  | none => rfl
  | some edit =>
    have same := (mem_filter.mp (mem_of_getLast? found)).2
    simp only [decide_eq_true_eq] at same
    simp [same]

variable {offers wider : PageId → Page → Prop} {edits log : List PageEdit} {page : PageId × Page}
  {frame : WalFrame} {base : WalBasePage} {config : WalConfig}
  {before batched frames : List WalFrame} {batch next : ChunkBatch} {offset pageSize : Nat}
  {retainHistoryHint : Bool} {prepared : List PreparedWalPage}

namespace PreparedEdits

section

variable (run : PreparedEdits pageSize offers edits frames prepared)
include run

/-- Every prepared edit is recorded by its frame. -/
theorem records : List.Forall₂ (Records pageSize) edits frames := by
  induction run with
  | nil => exact .nil
  | snoc _ last _ ih => exact rel_append ih (.cons last.records .nil)

/-- All prepared frames are well formed. -/
theorem wellFormed : ∀ frame ∈ frames, frame.WellFormed pageSize := by
  induction run with
  | nil => exact nofun
  | snoc _ last _ ih =>
    exact forall_mem_append.mpr ⟨ih, forall_mem_singleton.mpr last.records.wellFormed⟩

/-- More bases may be offered. -/
theorem mono (weaker : ∀ pageId base, offers pageId base → wider pageId base)
    : PreparedEdits pageSize wider edits frames prepared := by
  induction run with
  | nil => exact .nil
  | snoc _ last base ih =>
    refine .snoc ih last fun source image patched => ?_
    obtain ⟨offered, first⟩ := base source image patched
    exact ⟨weaker _ source offered, first⟩

/-- The prepared pages take the bytes of their frames. -/
theorem sum_encodedLen
    : (prepared.map PreparedWalPage.encodedLen).sum = framesLen pageSize frames := by
  induction run with
  | nil => rfl
  | snoc _ last _ ih =>
    simp [ih, last.encodedLen]

end

/-- A commit that takes its bases by the rule continues the history of every page. -/
theorem history {rule : BaseRule UInt8} {main : PageId → Page}
    (mainPages : ∀ pageId, (main pageId).length = pageSize)
    (earlier : ∀ pageId, History rule (main pageId) (editsOf pageId log))
    (run : PreparedEdits pageSize (fun pageId => rule (main pageId) (editsOf pageId log)) edits
      frames prepared) (pageId : PageId)
    : History rule (main pageId) (editsOf pageId (log ++ edits)) := by
  induction run with
  | nil => simpa using earlier pageId
  | @snoc edits frames prepared edit frame next run last base ih =>
    rw [← append_assoc, editsOf_append _ (log ++ edits), editsOf_single]
    by_cases same : edit.1 = pageId
    · subst same
      rw [if_pos rfl]
      have sized := last.records.sized
      rw [← mainPages edit.1] at sized
      cases made : edit.2 with
      | whole image =>
        rw [made] at sized
        exact .whole ih sized
      | patch source image =>
        rw [made] at sized
        obtain ⟨offered, first⟩ := base source image made
        refine .patch ih ?_ sized
        rwa [editsOf_append, first, append_nil]
    · rw [if_neg same, append_nil]
      exact ih

end PreparedEdits

-- Encoding

section Encoding

/-- A base that the page offers, if the writer would use it. -/
def BaseOffered (config : WalConfig) (offers : PageId → Page → Prop) (pageId : PageId)
    (base : WalBasePage) : Prop :=
  pageId ≠ headerPageId → ∀ image, usableBase config base = some image
    → offers pageId image ∧ image.length = config.pageSize

/-- The frame that is prepared for a page, with the edit that it holds. -/
theorem records_of_pageFrame {encoding : FrameEncoding} {seenPageIds : List PageId}
    (offered : BaseOffered config offers page.1 base)
    (made : PageFrame config seenPageIds page base frame encoding)
    : ∃ edit : Edit UInt8, Records config.pageSize (page.1, edit) frame ∧ edit.image = page.2
      ∧ ∀ source image, edit = .patch source image
        → offers page.1 source ∧ page.1 ∉ seenPageIds := by
  cases made with
  | full nonzero length => exact ⟨.whole page.2, .page nonzero length, rfl, by simp⟩
  | @delta source _ unseen ordinary nonzero usable encoded =>
    obtain ⟨from_, length⟩ := offered ordinary source usable
    refine ⟨.patch source page.2, .delta nonzero ?_ encoded, rfl, ?_⟩
    · rw [← length_eq_of_encodePageDelta encoded, length]
    · rintro _ _ ⟨⟩
      exact ⟨from_, unseen⟩

/-- A chunk being encoded: the frames before it are in the file, its own in the batch. -/
structure ChunkEdits (config : WalConfig) (offers : PageId → Page → Prop)
    (edits : List PageEdit) (before batched : List WalFrame) (batch : ChunkBatch) : Prop where
  run : PreparedEdits config.pageSize offers edits (before ++ batched) batch.preparedPages
  bytes : batch.pageBatch = batched.flatMap WalFrame.bytes
  seen : ∀ pageId, pageId ∈ batch.seenPageIds ↔ pageId ∈ edits.map Prod.fst

variable (chunk : ChunkEdits config offers edits before batched batch)
include chunk

/-- One page of a chunk, as an edit with its frame. -/
theorem ChunkEdits.preparePage (offered : BaseOffered config offers page.1 base)
    (made : preparePage config offset retainHistoryHint batch page base = .ok next)
    : ∃ edit frame, (edit.1, edit.2.image) = page
      ∧ ChunkEdits config offers (edits ++ [edit]) before (batched ++ [frame]) next := by
  obtain ⟨frame, encoding, framed, rfl⟩ := preparePage_eq_ok made
  obtain ⟨edit, records, image, patched⟩ := records_of_pageFrame offered framed
  refine ⟨(page.1, edit), frame, by rw [image], ?_, ?_, ?_⟩
  · rw [← append_assoc]
    refine .snoc chunk.run ⟨records, rfl, records.wellFormed.length_bytes, ?_⟩
      fun source image same => (patched source image same).imp_right fun unseen =>
        eq_nil_iff_forall_not_mem.mpr fun edit member =>
          unseen ((chunk.seen _).mpr (mem_map_of_mem (mem_editsOf.mp member)))
    intro data kind same
    dsimp only at same
    split at same <;> cases same
    · exact image.symm
  · rw [chunk.bytes, flatMap_append]
    simp
  · intro pageId
    simp [chunk.seen pageId, or_comm]

/-- A whole chunk, by induction along its pages. -/
theorem ChunkEdits.prepareChunk {found : List ((PageId × Page) × WalBasePage)}
    (offered : ∀ pair ∈ found, BaseOffered config offers pair.1.1 pair.2)
    (made : prepareChunk config offset retainHistoryHint batch found = .ok next)
    : ∃ more frames, writesOf more = found.map Prod.fst
      ∧ ChunkEdits config offers (edits ++ more) before (batched ++ frames) next := by
  induction found generalizing edits batched batch with
  | nil =>
    cases made
    exact ⟨[], [], rfl, by simpa using chunk⟩
  | cons pair rest ih =>
    obtain ⟨page, base⟩ := pair
    obtain ⟨first, others⟩ := forall_mem_cons.mp offered
    unfold Wal.prepareChunk at made
    obtain ⟨middle, one, later⟩ := bind_eq_ok.mp made
    obtain ⟨edit, frame, image, grown⟩ := chunk.preparePage first one
    obtain ⟨more, frames, writes, whole⟩ := ih grown others later
    refine ⟨edit :: more, frame :: frames, ?_, by simpa [append_assoc] using whole⟩
    rw [map_cons, ← writes, ← image]
    rfl

end Encoding

-- Base lookup

namespace WalHandle

/-- A condition on the handle that base lookups keep, and under which they find offered
bases.
-/
structure LookupSound (config : WalConfig) (storage : Storage) (snapshotLsn : Nat)
    (offers : PageId → Page → Prop) (pages : List (PageId × Page))
    (condition : WalHandle → Prop) : Prop where
  kept : ∀ handle, condition handle → ∀ page ∈ pages,
    condition (handle.lookupBasePage config storage snapshotLsn page.1).1
  offered : ∀ handle, condition handle → ∀ page ∈ pages, ∀ base,
    (handle.lookupBasePage config storage snapshotLsn page.1).2 = .ok base
      → BaseOffered config offers page.1 base

variable {storage : Storage} {snapshotLsn : Nat} {pages chunk : List (PageId × Page)}
  {condition : WalHandle → Prop}

/-- A sound look-up is sound for a whole chunk, by induction on it. -/
theorem LookupSound.lookupBasePages
    (sound : LookupSound config storage snapshotLsn offers pages condition)
    (within : ∀ page ∈ chunk, page ∈ pages)
    {handle after : WalHandle} (holds : condition handle) {result : DbResult (List WalBasePage)}
    (looked : lookupBasePages config storage snapshotLsn handle chunk = (after, result))
    : condition after ∧ ∀ bases, result = .ok bases → bases.length = chunk.length
      ∧ ∀ pair ∈ chunk.zip bases, BaseOffered config offers pair.1.1 pair.2 :=
  lookupBasePages_rule (fun page => BaseOffered config offers page.1)
    (fun handle holds page listed => sound.kept handle holds page (within page listed))
    (fun handle holds page listed => sound.offered handle holds page (within page listed))
    holds looked

end WalHandle

end DecentDb.Wal
