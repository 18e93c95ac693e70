import Mathlib.Algebra.BigOperators.Group.Finset.Basic
import Mathlib.Order.WellFounded

/-!
# Filling a capacity step by step

At each step an amount is on offer, of which no more goes in than there is room
for.  If the capacity is never filled, nothing is on offer from some step on.
-/

namespace BcIo.Foundation.Filling

variable {capacity : Nat} {amounts : Nat → Nat}

/-- What has gone in after a number of steps. -/
def filled (capacity : Nat) (amounts : Nat → Nat) : Nat → Nat
  | 0 => 0
  | step + 1 =>
      filled capacity amounts step +
        min (amounts step) (capacity - filled capacity amounts step)

/-- What goes in at a step. -/
def portion (capacity : Nat) (amounts : Nat → Nat) (step : Nat) : Nat :=
  min (amounts step) (capacity - filled capacity amounts step)

theorem filled_succ (step : Nat) :
    filled capacity amounts (step + 1) =
      filled capacity amounts step + portion capacity amounts step :=
  rfl

theorem filled_succ_of_zero {step : Nat} (nothing : amounts step = 0) :
    filled capacity amounts (step + 1) = filled capacity amounts step := by
  rw [filled_succ, portion, nothing, Nat.zero_min, Nat.add_zero]

theorem filled_le (step : Nat) : filled capacity amounts step ≤ capacity := by
  induction step with
  | zero => exact Nat.zero_le capacity
  | succ step induction =>
      rw [filled_succ, portion]
      omega

theorem filled_monotone : Monotone (filled capacity amounts) :=
  monotone_nat_of_le_succ fun _ => Nat.le_add_right _ _

/-- Nothing goes in while nothing is on offer. -/
theorem filled_of_nothing {start : Nat}
    (nothing : ∀ step ≥ start, amounts step = 0) {step : Nat}
    (later : start ≤ step) :
    filled capacity amounts step = filled capacity amounts start := by
  induction step, later using Nat.le_induction with
  | base => rfl
  | succ step later induction =>
      rw [filled_succ_of_zero (nothing step later), induction]

theorem filled_eq_sum (steps : Nat) :
    filled capacity amounts steps =
      ∑ step ∈ Finset.range steps, portion capacity amounts step := by
  induction steps with
  | zero => rfl
  | succ steps induction =>
      rw [Finset.sum_range_succ, ← induction, filled_succ]

/-- Room is left exactly if what has been on offer is less than the capacity. -/
theorem filled_lt_iff (steps : Nat) :
    filled capacity amounts steps < capacity ↔
      ∑ step ∈ Finset.range steps, amounts step < capacity := by
  have least :
      filled capacity amounts steps =
        min capacity (∑ step ∈ Finset.range steps, amounts step) := by
    induction steps with
    | zero => simp [filled]
    | succ steps induction =>
        rw [Finset.sum_range_succ, filled_succ, portion, induction]
        omega
  rw [least]
  omega

/-- If room is always left, nothing is on offer from some step on. -/
theorem exists_nothing
    (room : ∀ step, filled capacity amounts step < capacity) :
    ∃ start, ∀ step ≥ start, amounts step = 0 := by
  -- start where the room that is left is smallest
  have smallest : ∃ start, ∀ step,
      capacity - filled capacity amounts start ≤
        capacity - filled capacity amounts step :=
    ⟨_, fun step =>
      Function.argmin_le (capacity - filled capacity amounts ·) step⟩
  rcases smallest with ⟨start, smallest⟩
  refine ⟨start, ?_⟩
  intro step later
  have here := room step
  have after := smallest (step + 1)
  have before : filled capacity amounts start ≤ filled capacity amounts step :=
    filled_monotone later
  rw [filled_succ, portion] at after
  omega

end BcIo.Foundation.Filling
