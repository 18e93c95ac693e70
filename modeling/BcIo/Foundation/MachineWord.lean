import Mathlib.Algebra.GroupWithZero.Nat
import Mathlib.Data.Nat.Basic
import Mathlib.Tactic.Common

/-!
# Unsigned machine words as natural numbers

A 64-bit unsigned word is a natural number below `wordLimit`.  The operations
reduce modulo that limit, exactly as unsigned arithmetic does; the lemmas below
say when the reduction is invisible.  Keeping words inside `Nat` lets lengths
of lists and machine sizes meet without conversions.
-/

namespace BcIo.Foundation.MachineWord

/-- The number of values of a 64-bit word. -/
def wordLimit : Nat := 2 ^ 64

/-- Addition modulo the word size. -/
def wordAdd (left right : Nat) : Nat :=
  (left + right) % wordLimit

/-- Subtraction modulo the word size. -/
def wordSub (left right : Nat) : Nat :=
  (left + (wordLimit - right % wordLimit)) % wordLimit

/-- Multiplication modulo the word size. -/
def wordMul (left right : Nat) : Nat :=
  (left * right) % wordLimit

theorem wordLimit_pos : 0 < wordLimit := by
  simp [wordLimit]

/-- A sum that fits in a word is the true sum. -/
theorem wordAdd_of_lt {left right : Nat}
    (fits : left + right < wordLimit) :
    wordAdd left right = left + right :=
  Nat.mod_eq_of_lt fits

/-- A product that fits in a word is the true product. -/
theorem wordMul_of_lt {left right : Nat}
    (fits : left * right < wordLimit) :
    wordMul left right = left * right :=
  Nat.mod_eq_of_lt fits

/-- A difference of words that does not go below zero is the true one. -/
theorem wordSub_of_le {left right : Nat}
    (ordered : right ≤ left) (fits : left < wordLimit) :
    wordSub left right = left - right := by
  have rightFits : right < wordLimit := Nat.lt_of_le_of_lt ordered fits
  have shifted :
      left + (wordLimit - right % wordLimit) =
        (left - right) + wordLimit := by
    rw [Nat.mod_eq_of_lt rightFits]
    omega
  rw [wordSub, shifted, Nat.add_mod_right]
  exact Nat.mod_eq_of_lt (by omega)

end BcIo.Foundation.MachineWord
