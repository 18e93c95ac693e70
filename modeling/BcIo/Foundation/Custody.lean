import Mathlib.Data.Multiset.AddSub
import Mathlib.Algebra.Order.Group.Multiset
import Mathlib.Algebra.BigOperators.Group.List.Basic
import Mathlib.Tactic.Abel

/-!
# Who has to release what

A ledger says what is live in a world, and how often something was released that
was not.  A call trades what it is given for what it hands back, whatever else is
live, so that calls compose and everything around them can be left out of their
statements.  A collection of objects, each answerable for a part of what is live,
stays in balance along any run of such calls.
-/

namespace BcIo.Foundation.Custody

variable {W R O : Type}

/-- What is live in a world, and the releases of what was not. -/
structure Ledger (W R : Type) where
  live : W → Multiset R
  stray : W → Nat

variable {ledger : Ledger W R}

/--
From one world to the next, `given` has been replaced by `taken`; nothing else
was touched, and nothing was released that was not live.
-/
def Ledger.Trades (ledger : Ledger W R) (before after : W)
    (given taken : Multiset R) : Prop :=
  ∀ frame, ledger.live before = given + frame →
    ledger.live after = taken + frame ∧
      ledger.stray after = ledger.stray before

namespace Ledger.Trades

variable {before middle after : W} {given between taken extra : Multiset R}

theorem refl (world : W) (given : Multiset R) :
    ledger.Trades world world given given :=
  fun _ held => ⟨held, rfl⟩

theorem trans (first : ledger.Trades before middle given between)
    (second : ledger.Trades middle after between taken) :
    ledger.Trades before after given taken := by
  intro frame held
  rcases first frame held with ⟨inBetween, same⟩
  rcases second frame inBetween with ⟨final, still⟩
  exact ⟨final, still.trans same⟩

/-- What a call is not given, it leaves alone. -/
theorem frame (trades : ledger.Trades before after given taken)
    (extra : Multiset R) :
    ledger.Trades before after (given + extra) (taken + extra) := by
  intro rest held
  rw [add_assoc] at held ⊢
  exact trades (extra + rest) held

/-- Two calls that acquire have acquired both. -/
theorem also (first : ledger.Trades before middle 0 taken)
    (second : ledger.Trades middle after 0 extra) :
    ledger.Trades before after 0 (extra + taken) := by
  have framed := second.frame taken
  rw [zero_add] at framed
  exact first.trans framed

/-- Two calls that release have released both. -/
theorem andThen (first : ledger.Trades before middle given 0)
    (second : ledger.Trades middle after extra 0) :
    ledger.Trades before after (given + extra) 0 := by
  have framed := first.frame extra
  rw [zero_add] at framed
  exact framed.trans second

/-- What is live afterwards says what a call has acquired. -/
theorem of_live
    (gained : ledger.live after = taken + ledger.live before)
    (same : ledger.stray after = ledger.stray before) :
    ledger.Trades before after 0 taken := by
  intro frame held
  rw [gained, held, zero_add]
  exact ⟨rfl, same⟩

/-- A release that takes away what it finds. -/
theorem of_release {resource : R}
    (releases : resource ∈ ledger.live before →
      ledger.live before = resource ::ₘ ledger.live after ∧
        ledger.stray after = ledger.stray before) :
    ledger.Trades before after {resource} 0 := by
  intro frame held
  have isLive : resource ∈ ledger.live before := by
    rw [held]
    exact Multiset.mem_add.mpr (Or.inl (Multiset.mem_singleton_self _))
  rcases releases isLive with ⟨taken, same⟩
  rw [taken, ← Multiset.singleton_add] at held
  exact ⟨(add_left_cancel held).trans (zero_add frame).symm, same⟩

end Ledger.Trades

/-! ## Collections of objects -/

/-- What a list of objects answers for. -/
def total (footprint : O → Multiset R) (objects : List O) : Multiset R :=
  (objects.map footprint).sum

@[simp]
theorem total_nil (footprint : O → Multiset R) : total footprint [] = 0 :=
  rfl

@[simp]
theorem total_cons (footprint : O → Multiset R) (object : O)
    (objects : List O) :
    total footprint (object :: objects) =
      footprint object + total footprint objects := by
  rw [total, List.map_cons, List.sum_cons]
  rfl

@[simp]
theorem total_append (footprint : O → Multiset R)
    (first second : List O) :
    total footprint (first ++ second) =
      total footprint first + total footprint second := by
  rw [total, List.map_append, List.sum_append]
  rfl

theorem total_map {P : Type} (footprint : O → Multiset R) (make : P → O)
    (objects : List P) :
    total footprint (objects.map make) =
      total (fun object => footprint (make object)) objects := by
  rw [total, List.map_map]
  rfl

/-- One object, if there is one. -/
@[simp]
theorem total_some (footprint : O → Multiset R) (object : O) :
    total footprint (some object).toList = footprint object := by
  rw [Option.toList_some, total_cons, total_nil, add_zero]

@[simp]
theorem total_none (footprint : O → Multiset R) :
    total footprint (none : Option O).toList = 0 :=
  rfl

/--
The objects answer for everything that is live beyond `base`, and nothing has
been released that was not live.
-/
structure Balanced (ledger : Ledger W R) (footprint : O → Multiset R)
    (base : Multiset R) (stray : Nat) (world : W) (objects : List O) :
    Prop where
  live : ledger.live world = total footprint objects + base
  stray : ledger.stray world = stray

variable {footprint : O → Multiset R} {base : Multiset R} {stray : Nat}

/--
A call that trades the footprints of the objects it uses for those of the objects
it makes keeps the balance; what it leaves behind beyond them is nobody's.
-/
theorem Balanced.replace {world after : W} {earlier used made later : List O}
    {shed : Multiset R}
    (balanced : Balanced ledger footprint base stray world
      (earlier ++ used ++ later))
    (trades : ledger.Trades world after (total footprint used)
      (total footprint made + shed)) :
    Balanced ledger footprint (shed + base) stray after
      (earlier ++ made ++ later) := by
  have held :
      ledger.live world =
        total footprint used +
          (total footprint earlier + total footprint later + base) := by
    rw [balanced.live, total_append, total_append]
    abel
  rcases trades _ held with ⟨live, same⟩
  refine ⟨?_, same.trans balanced.stray⟩
  rw [live, total_append, total_append]
  abel

end BcIo.Foundation.Custody
