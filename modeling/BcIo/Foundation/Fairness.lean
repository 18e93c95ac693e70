import Mathlib.Order.OrderIsoNat

/-!
# Progress along infinite schedules

A system takes one move of a schedule after the other.  A move that comes again
and again, and that brings a rank down as long as something is waited for, ends
the wait; and a measure that no move raises is at last left alone.
-/

namespace BcIo.Foundation.Fairness

variable {σ μ : Type} (step : σ → μ → σ) (start : σ) (schedule : Nat → μ)

/-- The state after the first `time` moves. -/
def stateAt : Nat → σ
  | 0 => start
  | time + 1 => step (stateAt time) (schedule time)

/-- Such a move comes again and again. -/
def Recurs (chosen : μ → Prop) : Prop :=
  ∀ time, ∃ later, time ≤ later ∧ chosen (schedule later)

variable {step start schedule}

/-- What every move keeps holds at all times. -/
theorem stateAt_invariant {holds : σ → Prop}
    (keeps : ∀ state move, holds state → holds (step state move))
    (starts : holds start) (time : Nat) :
    holds (stateAt step start schedule time) := by
  induction time with
  | zero => exact starts
  | succ time induction => exact keeps _ _ induction

/-- A measure that no move raises only falls. -/
theorem measure_antitone {holds : σ → Prop} {measure : σ → Nat}
    (keeps : ∀ state move, holds state → holds (step state move))
    (falls : ∀ state move, holds state →
      measure (step state move) ≤ measure state)
    (starts : holds start) :
    Antitone fun time => measure (stateAt step start schedule time) :=
  antitone_nat_of_succ_le fun time =>
    falls _ _ (stateAt_invariant keeps starts time)

/-- From some time on it is left alone. -/
theorem measure_settles {holds : σ → Prop} {measure : σ → Nat}
    (keeps : ∀ state move, holds state → holds (step state move))
    (falls : ∀ state move, holds state →
      measure (step state move) ≤ measure state)
    (starts : holds start) :
    ∃ time, ∀ later, time ≤ later →
      measure (stateAt step start schedule later) =
        measure (stateAt step start schedule time) := by
  have antitone :=
    @measure_antitone _ _ _ _ schedule _ _ keeps falls starts
  rcases WellFoundedLT.antitone_chain_condition antitone with ⟨time, settled⟩
  exact ⟨time, fun later after => (settled later after).symm⟩

/--
While the wait lasts no move raises the rank, and a move that comes again and
again lowers it: so the wait ends.
-/
theorem ends_of_rank {chosen : μ → Prop} (recurs : Recurs schedule chosen)
    {waiting goal : σ → Prop} {rank : σ → Nat}
    (waits : ∀ state move, waiting state →
      goal (step state move) ∨
        (waiting (step state move) ∧ rank (step state move) ≤ rank state))
    (lowers : ∀ state move, waiting state → chosen move →
      goal (step state move) ∨ rank (step state move) < rank state)
    {time : Nat} (begins : waiting (stateAt step start schedule time)) :
    ∃ later, time ≤ later ∧ goal (stateAt step start schedule later) := by
  by_contra never
  simp only [not_exists, not_and] at never
  -- then it waits for ever, and the rank settles
  have waiting_after :
      ∀ later, time ≤ later →
        waiting (stateAt step start schedule later) := by
    intro later after
    induction later, after using Nat.le_induction with
    | base => exact begins
    | succ later after induction =>
        rcases waits _ (schedule later) induction with reached | still
        · exact absurd reached (never (later + 1) (Nat.le_succ_of_le after))
        · exact still.1
  have falls :
      Antitone fun distance =>
        rank (stateAt step start schedule (time + distance)) := by
    refine antitone_nat_of_succ_le ?_
    intro distance
    have after : time ≤ time + distance := Nat.le_add_right _ _
    rcases waits _ (schedule (time + distance))
        (waiting_after _ after) with reached | still
    · exact absurd reached (never (time + distance + 1) (by omega))
    · exact still.2
  rcases WellFoundedLT.antitone_chain_condition falls with
    ⟨distance, settled⟩
  rcases recurs (time + distance) with ⟨turn, after, isChosen⟩
  rcases Nat.exists_eq_add_of_le after with ⟨more, rfl⟩
  have still := settled (distance + more) (Nat.le_add_right _ _)
  have still_too := settled (distance + more + 1) (by omega)
  rcases lowers _ (schedule (time + distance + more))
      (waiting_after (time + distance + more) (by omega)) isChosen with
      reached | lower
  · exact never (time + distance + more + 1) (by omega) reached
  · simp only [← Nat.add_assoc] at still still_too
    rw [stateAt] at still_too
    omega

end BcIo.Foundation.Fairness
