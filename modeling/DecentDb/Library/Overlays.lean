import Mathlib.Data.List.Basic

/-! Lists of cells that are edited as a whole or only where two other lists differ. Replaying
the edits over a mixture of the first and the last list gives what replaying them over the
first one gives.
-/

namespace Overlays

open List

universe u

variable {Cell : Type u} [DecidableEq Cell] {page other mixed : List Cell}

/-- The page with the cells of the image wherever it differs from the base. -/
def overlay : List Cell → List Cell → List Cell → List Cell
  | old :: base, new :: image, cell :: page =>
    (if old = new then cell else new) :: overlay base image page
  | _, _, page => page

/-- By induction along the three lists. -/
theorem getElem?_overlay {base image : List Cell} (baseLength : base.length = image.length)
    (pageLength : page.length = image.length) (index : Nat)
    : (overlay base image page)[index]?
      = if base[index]? = image[index]? then page[index]? else image[index]? := by
  induction image generalizing base page index with
  | nil =>
    rw [eq_nil_of_length_eq_zero baseLength, eq_nil_of_length_eq_zero pageLength]
    rfl
  | cons new image ih =>
    obtain ⟨old, base, rfl⟩ := exists_cons_of_length_eq_add_one baseLength
    obtain ⟨cell, page, rfl⟩ := exists_cons_of_length_eq_add_one pageLength
    cases index with
    | zero => by_cases same : old = new <;> simp [overlay, same]
    | succ index =>
      simpa [overlay] using ih (by simpa using baseLength) (by simpa using pageLength) index

/-- An overlay has the length of the page below it. -/
@[simp]
theorem length_overlay (base image page : List Cell)
    : (overlay base image page).length = page.length := by
  induction page generalizing base image with
  | nil => cases base <;> cases image <;> rfl
  | cons cell page ih =>
    cases base with
    | nil => rfl
    | cons old base =>
      cases image with
      | nil => rfl
      | cons new image => simp [overlay, ih]

/-- A page that differs from the image only where the base does becomes the image. -/
theorem overlay_eq_image {base image : List Cell} (baseLength : base.length = image.length)
    (pageLength : page.length = image.length)
    (agrees : ∀ index : Nat, base[index]? = image[index]? → page[index]? = image[index]?)
    : overlay base image page = image := by
  refine ext_getElem? fun index => ?_
  rw [getElem?_overlay baseLength pageLength]
  split
  next same => exact agrees index same
  next => rfl

-- Edits

/-- An edit gives a page a new image: all of it, or the cells in which the image differs from
a base.
-/
inductive Edit (Cell : Type u) where
  | whole (image : List Cell)
  | patch (base image : List Cell)

variable {length index : Nat} {edits : List (Edit Cell)} {edit : Edit Cell}

namespace Edit

def image : Edit Cell → List Cell
  | .whole image => image
  | .patch _ image => image

def apply : Edit Cell → List Cell → List Cell
  | .whole image, _ => image
  | .patch base image, page => overlay base image page

/-- The edit sets the cell whatever it was. -/
def Covers (index : Nat) : Edit Cell → Prop
  | .whole _ => True
  | .patch base image => base[index]? ≠ image[index]?

/-- Base and image are of one length. -/
def Sized (length : Nat) : Edit Cell → Prop
  | .whole image => image.length = length
  | .patch base image => base.length = length ∧ image.length = length

instance (index : Nat) (edit : Edit Cell) : Decidable (edit.Covers index) := by
  cases edit <;> unfold Covers <;> infer_instance

omit [DecidableEq Cell] in
/-- The image of an edit is as long as the page. -/
theorem Sized.image (sized : edit.Sized length) : edit.image.length = length := by
  cases edit with
  | whole => exact sized
  | patch => exact sized.2

/-- Applying an edit keeps the length of the page. -/
theorem Sized.apply (sized : edit.Sized page.length) : (edit.apply page).length = page.length := by
  cases edit with
  | whole => exact sized
  | patch base image => exact length_overlay base image page

/-- An edit decides the cells that it covers and leaves the others. -/
theorem getElem?_apply (sized : edit.Sized page.length) (index : Nat) : (edit.apply page)[index]?
      = if edit.Covers index then edit.image[index]? else page[index]? := by
  cases edit with
  | whole image => simp [apply, Covers, Edit.image]
  | patch base image =>
    rw [apply, getElem?_overlay (sized.1.trans sized.2.symm) sized.2.symm]
    by_cases same : base[index]? = image[index]? <;> simp [Covers, Edit.image]

end Edit

def replay (edits : List (Edit Cell)) (page : List Cell) : List Cell :=
  edits.foldl (fun page edit => edit.apply page) page

/-- Edits are replayed one after the other. -/
theorem replay_append (edits more : List (Edit Cell)) (page : List Cell)
    : replay (edits ++ more) page = replay more (replay edits page) :=
  foldl_append ..

section

variable (sized : ∀ edit ∈ edits, edit.Sized page.length)
include sized

/-- Replaying edits keeps the length of the page. -/
theorem length_replay : (replay edits page).length = page.length := by
  induction edits generalizing page with
  | nil => rfl
  | cons edit rest ih =>
    obtain ⟨first, others⟩ := forall_mem_cons.mp sized
    have length := first.apply
    rw [replay, foldl_cons]
    exact (ih (by rwa [length])).trans length

/-- A cell that no edit covers stays as it is. -/
theorem getElem?_replay_of_not_covered (uncovered : ∀ edit ∈ edits, ¬ edit.Covers index)
    : (replay edits page)[index]? = page[index]? := by
  induction edits generalizing page with
  | nil => rfl
  | cons edit rest ih =>
    obtain ⟨first, others⟩ := forall_mem_cons.mp sized
    obtain ⟨firstMisses, othersMiss⟩ := forall_mem_cons.mp uncovered
    rw [replay, foldl_cons]
    refine (ih (by rwa [first.apply]) othersMiss).trans ?_
    rw [Edit.getElem?_apply first, if_neg firstMisses]

end

/-- A covered cell does not depend on the page that the edits start from. -/
theorem getElem?_replay_of_covered (length : other.length = page.length)
    (sized : ∀ edit ∈ edits, edit.Sized page.length) (covered : ∃ edit ∈ edits, edit.Covers index)
    : (replay edits other)[index]? = (replay edits page)[index]? := by
  induction edits generalizing page other with
  | nil => simp at covered
  | cons edit rest ih =>
    obtain ⟨first, others⟩ := forall_mem_cons.mp sized
    have firstOther : edit.Sized other.length := by rwa [length]
    rw [replay, replay, foldl_cons, foldl_cons]
    by_cases later : ∃ edit ∈ rest, edit.Covers index
    · refine ih ?_ (by rwa [first.apply]) later
      rw [firstOther.apply, first.apply, length]
    have missed : ∀ edit ∈ rest, ¬ edit.Covers index := by simpa using later
    have here : edit.Covers index := by
      obtain ⟨found, member, covers⟩ := covered
      rcases mem_cons.mp member with rfl | inRest
      · exact covers
      · exact absurd covers (missed found inRest)
    have left : (replay rest (edit.apply other))[index]? = (edit.apply other)[index]? :=
      getElem?_replay_of_not_covered (by rwa [firstOther.apply, length]) missed
    have right : (replay rest (edit.apply page))[index]? = (edit.apply page)[index]? :=
      getElem?_replay_of_not_covered (by rwa [first.apply]) missed
    rw [replay] at left right
    rw [left, right, Edit.getElem?_apply firstOther, Edit.getElem?_apply first, if_pos here,
      if_pos here]

-- Histories of one page

/-- The page after the edits, if each of them had made its image. -/
def lastImage (page : List Cell) (edits : List (Edit Cell)) : List Cell :=
  (edits.getLast?.map Edit.image).getD page

omit [DecidableEq Cell] in
/-- Without edits the page itself is the last image. -/
@[simp]
theorem lastImage_nil (page : List Cell) : lastImage page [] = page := rfl

omit [DecidableEq Cell] in
/-- The image of the last edit is the last image. -/
@[simp]
theorem lastImage_snoc (page : List Cell) (edits : List (Edit Cell)) (edit : Edit Cell)
    : lastImage page (edits ++ [edit]) = edit.image := by
  simp [lastImage]

omit [DecidableEq Cell] in
/-- The last image is as long as the page. -/
theorem length_lastImage
    (pageLength : page.length = length) (sized : ∀ edit ∈ edits, edit.Sized length)
    : (lastImage page edits).length = length := by
  rcases eq_nil_or_concat edits with rfl | ⟨earlier, edit, rfl⟩
  · exact pageLength
  · rw [concat_eq_append] at *
    rw [lastImage_snoc]
    exact (sized edit (by simp)).image

/-- Which bases a patch may have, given the first page and the earlier edits. -/
abbrev BaseRule (Cell : Type u) := List Cell → List (Edit Cell) → List Cell → Prop

/-- A patch may be made against the first page or any image since. -/
def fromAnyImage : BaseRule Cell := fun page edits base =>
  base = page ∨ base ∈ edits.map Edit.image

/-- A patch is made against the newest image. -/
def fromLastImage : BaseRule Cell := fun page edits base => base = lastImage page edits

/-- Edits of a page that keep its length and whose patches follow the rule. -/
inductive History (rule : BaseRule Cell) (page : List Cell) : List (Edit Cell) → Prop where
  | nil : History rule page []
  | whole {edits : List (Edit Cell)} {image : List Cell} (earlier : History rule page edits)
    (length : image.length = page.length) : History rule page (edits ++ [.whole image])
  | patch {edits : List (Edit Cell)} {base image : List Cell}
    (earlier : History rule page edits) (origin : rule page edits base)
    (lengths : (Edit.patch base image).Sized page.length)
    : History rule page (edits ++ [.patch base image])

namespace History

omit [DecidableEq Cell] in
/-- Every edit of a history fits the page. -/
theorem sized {rule : BaseRule Cell} (history : History rule page edits)
    : ∀ edit ∈ edits, edit.Sized page.length := by
  induction history with
  | nil => exact nofun
  | whole earlier length ih => exact forall_mem_append.mpr ⟨ih, forall_mem_singleton.mpr length⟩
  | patch earlier origin lengths ih =>
    exact forall_mem_append.mpr ⟨ih, forall_mem_singleton.mpr lengths⟩

/-- Where every patch is made against the newest image, the replay ends with it. -/
theorem replay_eq_lastImage (history : History fromLastImage page edits)
    : replay edits page = lastImage page edits := by
  induction history with
  | nil => rfl
  | whole earlier length ih =>
    rw [replay_append, lastImage_snoc]
    rfl
  | @patch edits base image earlier origin lengths ih =>
    rw [replay_append, lastImage_snoc, ih, ← origin]
    exact overlay_eq_image (lengths.1.trans lengths.2.symm) (lengths.1.trans lengths.2.symm)
      fun _ same => same

variable (history : History fromAnyImage page edits)
include history

omit [DecidableEq Cell] in
/-- A cell that no edit covers is the same in all images, by induction on the edits. -/
theorem image_of_not_covered (uncovered : ∀ edit ∈ edits, ¬ edit.Covers index)
    : ∀ edit ∈ edits, edit.image[index]? = page[index]? := by
  induction history with
  | nil => exact nofun
  | whole earlier length ih => exact absurd trivial (uncovered _ (mem_append_right _ mem_cons_self))
  | @patch edits base image earlier origin lengths ih =>
    obtain ⟨before, last⟩ := forall_mem_append.mp uncovered
    have same : base[index]? = image[index]? := not_not.mp (last _ mem_cons_self)
    refine forall_mem_append.mpr ⟨ih before, forall_mem_singleton.mpr ?_⟩
    rw [Edit.image, ← same]
    rcases origin with rfl | source
    · rfl
    · obtain ⟨edit, listed, rfl⟩ := mem_map.mp source
      exact ih before edit listed

/-- The edits can be replayed over a page whose every cell is that of the first page or that
of an image.
-/
theorem replay_mixed
    (length : mixed.length = page.length) (mixture : ∀ index : Nat, mixed[index]? = page[index]?
      ∨ ∃ edit ∈ edits, mixed[index]? = edit.image[index]?)
    : replay edits mixed = replay edits page := by
  refine ext_getElem? fun index => ?_
  by_cases covered : ∃ edit ∈ edits, edit.Covers index
  · exact getElem?_replay_of_covered length history.sized covered
  have uncovered : ∀ edit ∈ edits, ¬ edit.Covers index := by simpa using covered
  rw [getElem?_replay_of_not_covered (by rw [length]; exact history.sized) uncovered,
    getElem?_replay_of_not_covered history.sized uncovered]
  rcases mixture index with same | ⟨edit, listed, same⟩
  · exact same
  · rw [same, history.image_of_not_covered uncovered edit listed]

end History

end Overlays
