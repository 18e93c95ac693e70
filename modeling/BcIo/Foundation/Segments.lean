import Mathlib.Data.List.Basic
import Mathlib.Tactic.Common

/-!
# Runs of writes to a memory

A write places some cells at a position.  Writes that follow each other without
a gap put the concatenation of their cells into the memory and leave the rest of
it alone.
-/

namespace BcIo.Foundation.Segments

variable {α : Type*}

/-- The cells that a write places, and where. -/
structure Segment (α : Type*) where
  position : Nat
  cells : List α
  deriving DecidableEq, Repr

/-- The memory after a write. -/
def Segment.place (memory : Nat → α) (segment : Segment α) : Nat → α :=
  fun index =>
    if segment.position ≤ index then
      (segment.cells[index - segment.position]?).getD (memory index)
    else
      memory index

/-- The memory after a run of writes. -/
def placeAll (memory : Nat → α) (segments : List (Segment α)) : Nat → α :=
  segments.foldl Segment.place memory

/-- The cells of a run of writes, one after the other. -/
def contents (segments : List (Segment α)) : List α :=
  segments.flatMap Segment.cells

/-- Each write begins where the one before it has ended. -/
def Consecutive : Nat → List (Segment α) → Prop
  | _, [] => True
  | start, segment :: segments =>
      segment.position = start ∧
        Consecutive (start + segment.cells.length) segments

theorem Segment.place_of_outside {memory : Nat → α} {segment : Segment α}
    {index : Nat}
    (outside : index < segment.position ∨
      segment.position + segment.cells.length ≤ index) :
    segment.place memory index = memory index := by
  unfold Segment.place
  split
  · rename_i after
    have beyond : segment.cells.length ≤ index - segment.position := by
      omega
    rw [List.getElem?_eq_none beyond, Option.getD_none]
  · rfl

/-- Consecutive writes leave alone what is not between their ends. -/
theorem placeAll_of_outside {memory : Nat → α} {start : Nat}
    {segments : List (Segment α)} (consecutive : Consecutive start segments)
    {index : Nat}
    (outside : index < start ∨ start + (contents segments).length ≤ index) :
    placeAll memory segments index = memory index := by
  induction segments generalizing memory start with
  | nil => rfl
  | cons segment segments induction =>
      rcases consecutive with ⟨rfl, later⟩
      simp only [contents, List.flatMap_cons, List.length_append] at outside
      have rest :
          placeAll (segment.place memory) segments index =
            segment.place memory index :=
        induction later (by unfold contents; omega)
      exact rest.trans (Segment.place_of_outside (by omega))

/-- What stands between the ends of consecutive writes. -/
theorem placeAll_of_inside {memory : Nat → α} {start : Nat}
    {segments : List (Segment α)} (consecutive : Consecutive start segments)
    {offset : Nat} {cell : α}
    (found : (contents segments)[offset]? = some cell) :
    placeAll memory segments (start + offset) = cell := by
  induction segments generalizing memory start offset with
  | nil => simp [contents] at found
  | cons segment segments induction =>
      rcases consecutive with ⟨rfl, later⟩
      rw [contents, List.flatMap_cons] at found
      by_cases own : offset < segment.cells.length
      · -- the writes behind this one do not reach back
        rw [List.getElem?_append_left own] at found
        have rest :
            placeAll (segment.place memory) segments
                (segment.position + offset) =
              segment.place memory (segment.position + offset) :=
          placeAll_of_outside later (Or.inl (by omega))
        refine rest.trans ?_
        simp [Segment.place, found]
      · rw [List.getElem?_append_right (Nat.le_of_not_lt own)] at found
        have there :
            segment.position + offset =
              segment.position + segment.cells.length +
                (offset - segment.cells.length) := by
          omega
        rw [there]
        exact induction later found

/-- No write reaches beyond the end of the run. -/
theorem Consecutive.inside {start : Nat} {segments : List (Segment α)}
    (consecutive : Consecutive start segments) :
    ∀ segment ∈ segments,
      segment.position + segment.cells.length ≤
        start + (contents segments).length := by
  induction segments generalizing start with
  | nil => simp
  | cons segment segments induction =>
      rcases consecutive with ⟨rfl, later⟩
      intro other member
      simp only [contents, List.flatMap_cons, List.length_append]
      rcases List.mem_cons.mp member with rfl | among
      · omega
      · have within := induction later other among
        unfold contents at within
        omega

/-- A write places a cell at an index. -/
def Segment.Covers (segment : Segment α) (index : Nat) : Prop :=
  segment.position ≤ index ∧
    index < segment.position + segment.cells.length

instance (segment : Segment α) (index : Nat) :
    Decidable (segment.Covers index) :=
  inferInstanceAs (Decidable (_ ∧ _))

/-- Between the ends of consecutive writes each index is written once. -/
theorem Consecutive.countP_covers {start : Nat} {segments : List (Segment α)}
    (consecutive : Consecutive start segments) (index : Nat) :
    segments.countP (fun segment => segment.Covers index) =
      if start ≤ index ∧ index < start + (contents segments).length then 1
      else 0 := by
  induction segments generalizing start with
  | nil =>
      rw [List.countP_nil, if_neg]
      simp only [contents, List.flatMap_nil, List.length_nil]
      omega
  | cons segment segments induction =>
      rcases consecutive with ⟨rfl, later⟩
      have whole :
          (contents (segment :: segments)).length =
            segment.cells.length + (contents segments).length := by
        rw [contents, List.flatMap_cons, List.length_append]
        rfl
      have own :
          decide (segment.Covers index) = true ↔
            segment.position ≤ index ∧
              index < segment.position + segment.cells.length :=
        decide_eq_true_iff
      rw [List.countP_cons, induction later, whole]
      simp only [own]
      by_cases covered :
          segment.position ≤ index ∧
            index < segment.position + segment.cells.length
      · -- the writes behind this one begin where it ends
        rw [if_pos covered, if_neg (by omega), if_pos (by omega)]
      · rw [if_neg covered, Nat.add_zero]
        exact if_congr (by omega) rfl rfl

end BcIo.Foundation.Segments
