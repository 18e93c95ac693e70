import Mathlib.Algebra.BigOperators.Group.List.Basic
import Mathlib.Algebra.Order.Group.Multiset
import Mathlib.Data.List.Forall2
import Mathlib.Tactic.Abel

/-!
# Sums over lists, and lists side by side

Sums of multisets along a list, and what the replacement of one element does to
a sum and to two lists that are related element by element.
-/

namespace BcIo.Foundation.Aggregate

variable {α β : Type}

/-! ## Sums of multisets -/

theorem mem_sum_map {items : List α} {part : α → Multiset β} {value : β} :
    value ∈ (items.map part).sum ↔ ∃ item ∈ items, value ∈ part item := by
  induction items with
  | nil => simp
  | cons item items induction => simp [induction]

theorem sum_map_singleton (items : List α) (view : α → β) :
    (items.map fun item => ({view item} : Multiset β)).sum =
      (items.map view : List β) := by
  induction items with
  | nil => rfl
  | cons item items induction => simp [induction]

/-- A sum of parts that have nothing in common and repeat nothing. -/
theorem nodup_sum_map {items : List α} {part : α → Multiset β}
    (parts : ∀ item ∈ items, (part item).Nodup)
    (apart : items.Pairwise fun first second =>
      ∀ value ∈ part first, value ∉ part second) :
    (items.map part).sum.Nodup := by
  induction items with
  | nil => exact Multiset.nodup_zero
  | cons item items induction =>
      rw [List.forall_mem_cons] at parts
      rw [List.pairwise_cons] at apart
      rw [List.map_cons, List.sum_cons, Multiset.nodup_add]
      refine ⟨parts.1, induction parts.2 apart.2, ?_⟩
      rw [Multiset.disjoint_left]
      intro value here there
      rcases mem_sum_map.mp there with ⟨other, isOther, inOther⟩
      exact apart.1 other isOther value here inOther

/-! ## One element replaced -/

variable {M : Type} [AddCommMonoid M]

/-- The sum over a list, before and after one element is replaced. -/
theorem sum_map_set {items : List α} (worth : α → M)
    {index : Nat} {old : α} (found : items[index]? = some old) (new : α) :
    ∃ others, (items.map worth).sum = worth old + others ∧
      ((items.set index new).map worth).sum = worth new + others := by
  induction items generalizing index with
  | nil => cases found
  | cons item items induction =>
      cases index with
      | zero =>
          cases found
          exact ⟨(items.map worth).sum, by simp, by simp⟩
      | succ index =>
          rcases induction found with ⟨others, before, after⟩
          refine ⟨worth item + others, ?_, ?_⟩
          · rw [List.map_cons, List.sum_cons, before]
            abel
          · rw [List.set_cons_succ, List.map_cons, List.sum_cons, after]
            abel

/-! ## Lists side by side -/

variable {related : α → β → Prop}

theorem exists_of_forall₂ {left : List α} {right : List β}
    (all : List.Forall₂ related left right)
    {index : Nat} {value : β} (found : right[index]? = some value) :
    ∃ partner, left[index]? = some partner ∧ related partner value := by
  induction all generalizing index with
  | nil => cases found
  | cons here rest induction =>
      cases index with
      | zero =>
          cases found
          exact ⟨_, rfl, here⟩
      | succ index => exact induction found

theorem forall₂_set {left : List α} {right : List β}
    (all : List.Forall₂ related left right)
    (index : Nat) {first : α} {second : β} (fits : related first second) :
    List.Forall₂ related (left.set index first)
      (right.set index second) := by
  induction all generalizing index with
  | nil => exact .nil
  | cons here rest induction =>
      cases index with
      | zero => exact .cons fits rest
      | succ index => exact .cons here (induction index)

end BcIo.Foundation.Aggregate
