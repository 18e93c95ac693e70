import BcIo.Foundation.Recording
import Mathlib.Algebra.BigOperators.Group.Finset.Piecewise

/-!
# Threads that are automata

An automaton says in each of its states which call comes next, if any, and where
the response takes it.  A program that makes the calls of an automaton can be
replaced by it: what the calls of a thread have in common is then an invariant
of the states, and what they add up to is a balance of single steps.
-/

namespace BcIo.Foundation.Automata

open BcIo.Foundation.Aggregate
open BcIo.Foundation.Bookkeeping
open BcIo.Foundation.Interaction
open BcIo.Foundation.Recording
open BcIo.Foundation.WorkerPool

variable {Op : Type} {Response : Op → Type} {ν α : Type}

/-- Which call is next, and where its response leads. -/
structure Automaton (Op : Type) (Response : Op → Type) (ν : Type) where
  op : ν → Option Op
  next : ν → (op : Op) → Response op → ν

namespace Automaton

variable (automaton : Automaton Op Response ν)

/-- The calls of a program are those of the automaton. -/
def discipline : Discipline Op Response ν where
  note := automaton.next
  permits held op := automaton.op held = some op
  allowed _ _ _ := True
  cut := True

/-- The automaton makes these calls from one state to another. -/
def Makes : ν → List (Answered Op Response) → ν → Prop
  | held, [], last => held = last
  | held, call :: calls, last =>
      automaton.op held = some call.1 ∧
        Makes (automaton.next held call.1 call.2) calls last

variable {automaton}

/--
A check of the calls that sees no state accepts them, if every call is accepted
where the value of the check is related to the state.
-/
theorem Makes.accepted {γ : Type} {related : ν → γ → Prop}
    {check : γ → Answered Op Response → Option γ}
    (accepts : ∀ held value (call : Answered Op Response),
      related held value → automaton.op held = some call.1 →
      ∃ after, check value call = some after ∧
        related (automaton.next held call.1 call.2) after)
    {held last : ν} {value : γ} {calls : List (Answered Op Response)}
    (makes : automaton.Makes held calls last)
    (starts : related held value) :
    ∃ final, calls.foldlM check value = some final ∧
      related last final := by
  induction calls generalizing held value with
  | nil =>
      cases makes
      exact ⟨value, rfl, starts⟩
  | cons call calls induction =>
      rcases accepts held value call starts makes.1 with
        ⟨after, accepted, continues⟩
      rcases induction makes.2 continues with ⟨final, rest, ends⟩
      refine ⟨final, ?_, ends⟩
      rw [List.foldlM_cons, accepted]
      exact rest

/-! ## What the calls add up to -/

section Ledger

variable {γ δ : Type}

/-- What falls due along the calls; it may depend on the calls before. -/
def accrued (fold : γ → Answered Op Response → γ)
    (due : γ → Answered Op Response → List δ) :
    γ → List (Answered Op Response) → List δ
  | _, [] => []
  | value, call :: calls =>
      due value call ++ accrued fold due (fold value call) calls

/--
Where every step settles what it makes fall due, up to what the state still
owes, so does a run, in the same order.
-/
theorem Makes.settles {fold : γ → Answered Op Response → γ}
    {due : γ → Answered Op Response → List δ}
    {paid : Answered Op Response → List δ} {owed : ν → List δ}
    {related : ν → γ → Prop}
    (steps : ∀ held value (call : Answered Op Response),
      related held value → automaton.op held = some call.1 →
      related (automaton.next held call.1 call.2) (fold value call) ∧
        owed held ++ due value call =
          paid call ++ owed (automaton.next held call.1 call.2))
    {held last : ν} {value : γ} {calls : List (Answered Op Response)}
    (makes : automaton.Makes held calls last)
    (starts : related held value) :
    owed held ++ accrued fold due value calls =
      calls.flatMap paid ++ owed last := by
  induction calls generalizing held value with
  | nil =>
      cases makes
      exact List.append_nil _
  | cons call calls induction =>
      rcases steps held value call starts makes.1 with ⟨continues, balance⟩
      rw [accrued, ← List.append_assoc, balance, List.append_assoc,
        induction makes.2 continues, List.flatMap_cons, List.append_assoc]

/--
Where every step passes on what it has and gets, apart from what it loses, a run
of steps that lose nothing has lost nothing.
-/
theorem Makes.conserves {M : Type} [AddCommMonoid M] {has : ν → M}
    {gets gives : Answered Op Response → M}
    {keeps : Answered Op Response → Prop}
    (steps : ∀ held (call : Answered Op Response),
      automaton.op held = some call.1 →
      ∃ lost, has held + gets call =
          gives call + lost +
            has (automaton.next held call.1 call.2) ∧
        (keeps call → lost = 0))
    {held last : ν} {calls : List (Answered Op Response)}
    (makes : automaton.Makes held calls last) :
    ∃ lost, has held + (calls.map gets).sum =
        (calls.map gives).sum + lost + has last ∧
      ((∀ call ∈ calls, keeps call) → lost = 0) := by
  induction calls generalizing held with
  | nil =>
      cases makes
      exact ⟨0, by simp, fun _ => rfl⟩
  | cons call calls induction =>
      rcases steps held call makes.1 with ⟨here, step, kept⟩
      rcases induction makes.2 with ⟨later, rest, keptLater⟩
      refine ⟨here + later, ?_, ?_⟩
      · rw [List.map_cons, List.sum_cons, List.map_cons, List.sum_cons,
          ← add_assoc, step, add_assoc, rest]
        abel
      · intro all
        rw [List.forall_mem_cons] at all
        rw [kept all.1, keptLater all.2, add_zero]

end Ledger

/-! ## Threads of a pool -/

section Threads

variable {machine : Machine Op Response}
  {resume : α → Option (Program Op Response α)} {waiting : α → ν → Prop}

/-- Nothing but the order of its threads is asked of such a pool. -/
theorem upholds_trivial :
    Noted.Upholds (α := α) automaton.discipline (fun _ _ => True)
      (fun (_ : machine.State) (_ : List ν) => True) where
  turn := fun _ _ _ _ _ => ⟨trivial, trivial⟩
  drift := fun _ _ => trivial

theorem makes_of_conforms {thread : Nat} {held : ν}
    {events : List (Event Op Response)}
    (conforms : Conforms automaton.discipline thread held events) :
    automaton.Makes held (recordOf thread events)
      (noteAfter automaton.discipline thread held events) := by
  induction events generalizing held with
  | nil => exact rfl
  | cons event events induction =>
      rw [Conforms] at conforms
      by_cases isThread : event.thread = thread
      · rw [if_pos isThread] at conforms
        have rest := induction conforms.2.2
        simp only [recordOf, noteAfter, List.filter_cons, isThread,
          decide_true, if_true, List.map_cons, List.foldl_cons]
        exact ⟨conforms.1, rest⟩
      · rw [if_neg isThread] at conforms
        have rest := induction conforms
        simp only [recordOf, noteAfter, List.filter_cons, isThread,
          decide_false, Bool.false_eq_true, if_false, List.foldl_cons]
        exact rest

/-- A pool whose threads keep to the automaton, and nothing else. -/
theorem sound_of_orderly {noted : Noted machine α ν}
    (orderly : Noted.Orderly automaton.discipline waiting noted) :
    Noted.Sound automaton.discipline waiting (fun _ _ => True) noted :=
  ⟨orderly, trivial⟩

/--
The calls of a thread are those of the automaton, which has come to where the
thread stands.
-/
theorem makes_of_run
    (resumes : Noted.Resumes automaton.discipline resume waiting)
    {noted : Noted machine α ν}
    (orderly : Noted.Orderly automaton.discipline waiting noted)
    (moves : List (Move machine)) {thread : Nat} {held : ν}
    (found : noted.notes[thread]? = some held) :
    ∃ last,
      automaton.Makes held
        (recordOf thread (Pool.log resume noted.pool moves)) last ∧
      (∀ op next,
        (Pool.run resume noted.pool moves).threads[thread]? =
          some (.call op next) → automaton.op last = some op) ∧
      (∀ value,
        (Pool.run resume noted.pool moves).threads[thread]? =
          some (.ret value) → waiting value last) := by
  have sound := sound_of_orderly orderly
  have each :
      Noted.Each automaton.discipline resume (fun _ _ => True) noted moves :=
    Noted.each_of_forall _ moves fun _ _ _ => trivial
  refine ⟨_, makes_of_conforms
    (sound.conforms resumes upholds_trivial each found), ?_, ?_⟩
  · intro op next running
    have after := sound.run resumes upholds_trivial each
    rw [← Noted.run_pool automaton.discipline] at running
    rcases exists_of_forall₂ after.orderly running with
      ⟨last, isLast, keeps⟩
    rw [Noted.run_notes, found] at isLast
    cases isLast
    exact keeps.1
  · intro value returned
    exact sound.returned resumes upholds_trivial each found returned

end Threads

end Automaton

/-- What all calls of a log add up to, thread by thread. -/
theorem sum_recordOf {M : Type} [AddCommMonoid M]
    (worth : Answered Op Response → M) {threads : Nat}
    {events : List (Event Op Response)}
    (inside : ∀ event ∈ events, event.thread < threads) :
    ∑ thread ∈ Finset.range threads,
        ((recordOf thread events).map worth).sum =
      (events.map fun event => worth ⟨event.op, event.response⟩).sum := by
  induction events with
  | nil => simp [recordOf]
  | cons event events induction =>
      rw [List.forall_mem_cons] at inside
      have split :
          ∀ thread, ((recordOf thread (event :: events)).map worth).sum =
            (if event.thread = thread then
                worth ⟨event.op, event.response⟩ else 0) +
              ((recordOf thread events).map worth).sum := by
        intro thread
        by_cases isThread : event.thread = thread
        · simp [recordOf, isThread]
        · simp [recordOf, isThread]
      simp only [split]
      rw [Finset.sum_add_distrib, Finset.sum_ite_eq,
        if_pos (Finset.mem_range.mpr inside.1), induction inside.2,
        List.map_cons, List.sum_cons]

end BcIo.Foundation.Automata
