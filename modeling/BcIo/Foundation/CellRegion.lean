import Mathlib.Data.List.Basic
import Mathlib.Tactic.Common

/-!
# Bounded regions of memory cells

An allocation is the list of its cells.  `load` and `store` answer only when
the whole accessed range lies inside the region, so a program that never
receives `none` never leaves its allocation.
-/

namespace BcIo.Foundation.CellRegion

variable {α : Type*}

/-- The `count` cells from `offset` on, when all of them exist. -/
def load (region : List α) (offset count : Nat) : Option (List α) :=
  if offset + count ≤ region.length then
    some ((region.drop offset).take count)
  else
    none

/-- Overwrite the cells from `offset` on, when all of them exist. -/
def store (region : List α) (offset : Nat) (cells : List α) :
    Option (List α) :=
  if offset + cells.length ≤ region.length then
    some (region.take offset ++ cells ++
      region.drop (offset + cells.length))
  else
    none

theorem load_of_le {region : List α} {offset count : Nat}
    (inside : offset + count ≤ region.length) :
    load region offset count = some ((region.drop offset).take count) :=
  if_pos inside

theorem store_of_le {region cells : List α} {offset : Nat}
    (inside : offset + cells.length ≤ region.length) :
    store region offset cells =
      some (region.take offset ++ cells ++
        region.drop (offset + cells.length)) :=
  if_pos inside

/-- Writing never changes the size of an allocation. -/
theorem length_of_store {region cells result : List α} {offset : Nat}
    (stored : store region offset cells = some result) :
    result.length = region.length := by
  unfold store at stored
  split at stored
  · rename_i inside
    cases stored
    simp only [List.length_append, List.length_take, List.length_drop]
    omega
  · cases stored

/-- The cells up to the end of a written range. -/
theorem take_of_store {region cells result : List α} {offset : Nat}
    (stored : store region offset cells = some result) :
    result.take (offset + cells.length) = region.take offset ++ cells := by
  unfold store at stored
  split at stored
  · rename_i inside
    cases stored
    have writtenLength :
        (region.take offset ++ cells).length = offset + cells.length := by
      simp only [List.length_append, List.length_take]
      omega
    rw [← writtenLength, List.take_left]
  · cases stored

/--
Cutting off a written prefix and keeping the rest of the used part loses
nothing: the two pieces are the used part.
-/
theorem take_append_rest (region : List α) (written used : Nat) :
    (region.take used).take written ++
        (region.drop written).take (used - written) =
      region.take used := by
  have rest :
      (region.drop written).take (used - written) =
        (region.take used).drop written := by
    rw [List.drop_take]
  rw [rest, List.take_append_drop]

end BcIo.Foundation.CellRegion
