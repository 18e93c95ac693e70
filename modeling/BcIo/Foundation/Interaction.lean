import Mathlib.Algebra.BigOperators.Group.List.Basic
import Mathlib.Tactic.Common

/-!
# Programs that act through calls

A program is a tree: it returns, or makes a call and goes on from the response.
Nothing is said about what answers the calls, so that one and the same program
can be run alone, interleaved with others, or against an adversary.
-/

namespace BcIo.Foundation.Interaction

variable {Op : Type} {Response : Op → Type} {α β γ : Type}

/--
A program over the calls `Op`.  A recursion that is only followed to a bounded
depth ends in `stuck` where the bound is used up.
-/
inductive Program (Op : Type) (Response : Op → Type) (α : Type) where
  | ret (value : α)
  | call (op : Op) (next : Response op → Program Op Response α)
  | stuck

namespace Program

/-- Go on with a second program from what the first one returned. -/
protected def bind : Program Op Response α →
    (α → Program Op Response β) → Program Op Response β
  | .ret value, rest => rest value
  | .call op next, rest => .call op fun response => (next response).bind rest
  | .stuck, _ => .stuck

instance : Monad (Program Op Response) where
  pure := .ret
  bind := Program.bind

/-- A single call. -/
def perform (op : Op) : Program Op Response (Response op) :=
  .call op .ret

@[simp]
theorem pure_eq (value : α) :
    (pure value : Program Op Response α) = .ret value :=
  rfl

@[simp]
theorem ret_bind (value : α) (rest : α → Program Op Response β) :
    (ret value >>= rest) = rest value :=
  rfl

@[simp]
theorem call_bind (op : Op) (next : Response op → Program Op Response α)
    (rest : α → Program Op Response β) :
    (call op next >>= rest) = call op fun response => next response >>= rest :=
  rfl

/-! ## Following one set of answers -/

section Answers

variable (answer : (op : Op) → Response op)

/-- The calls a program makes when they are answered by `answer`. -/
def trace : Program Op Response α → List Op
  | .ret _ => []
  | .call op next => op :: (next (answer op)).trace
  | .stuck => []

/-- What the program then returns, unless it gets stuck. -/
def outcome : Program Op Response α → Option α
  | .ret value => some value
  | .call op next => (next (answer op)).outcome
  | .stuck => none

@[simp]
theorem trace_ret (value : α) :
    (ret value : Program Op Response α).trace answer = [] :=
  rfl

@[simp]
theorem trace_call (op : Op) (next : Response op → Program Op Response α) :
    (call op next).trace answer = op :: (next (answer op)).trace answer :=
  rfl

theorem outcome_bind (program : Program Op Response α)
    (rest : α → Program Op Response β) :
    (program >>= rest).outcome answer =
      (program.outcome answer).bind
        fun value => (rest value).outcome answer := by
  induction program with
  | ret value => rfl
  | call op next induction => exact induction _
  | stuck => rfl

/-- The calls of a sequence are those of its parts. -/
theorem trace_bind {program : Program Op Response α} {value : α}
    (returned : program.outcome answer = some value)
    (rest : α → Program Op Response β) :
    (program >>= rest).trace answer =
      program.trace answer ++ (rest value).trace answer := by
  induction program with
  | ret other =>
      cases returned
      rfl
  | call op next induction =>
      rw [call_bind, trace_call, trace_call, List.cons_append]
      congr 1
      exact induction _ returned
  | stuck => cases returned

/-- The program returns `value`, after calls that all satisfy `holds`. -/
structure Returns (holds : Op → Prop) (program : Program Op Response α)
    (value : α) : Prop where
  outcome : program.outcome answer = some value
  calls : ∀ op ∈ program.trace answer, holds op

variable {answer} {holds : Op → Prop}

namespace Returns

theorem ret (value : α) :
    Returns answer holds (ret value : Program Op Response α) value :=
  ⟨rfl, by simp⟩

theorem call {op : Op} {next : Response op → Program Op Response α}
    {value : α} (here : holds op)
    (continues : Returns answer holds (next (answer op)) value) :
    Returns answer holds (.call op next) value := by
  refine ⟨continues.outcome, ?_⟩
  rw [trace_call, List.forall_mem_cons]
  exact ⟨here, continues.calls⟩

theorem bind {program : Program Op Response α} {value : α}
    (first : Returns answer holds program value)
    {rest : α → Program Op Response β} {final : β}
    (second : Returns answer holds (rest value) final) :
    Returns answer holds (program >>= rest) final := by
  constructor
  · rw [outcome_bind, first.outcome]
    exact second.outcome
  · rw [trace_bind answer first.outcome, List.forall_mem_append]
    exact ⟨first.calls, second.calls⟩

theorem mono {program : Program Op Response α} {value : α}
    {weaker : Op → Prop} (implies : ∀ op, holds op → weaker op)
    (returns : Returns answer holds program value) :
    Returns answer weaker program value :=
  ⟨returns.outcome, fun op member => implies op (returns.calls op member)⟩

end Returns

/--
A way to say that a program returns a value.  It covers the programs whose calls
are all `plain`, and it composes.
-/
structure Judgement (answer : (op : Op) → Response op)
    (plain : Op → Prop) where
  judges : {α : Type} → Program Op Response α → α → Prop
  ret {α : Type} (value : α) : judges (.ret value) value
  bind {α β : Type} {program : Program Op Response α} {value : α}
    {rest : α → Program Op Response β} {final : β}
    (first : judges program value) (second : judges (rest value) final) :
    judges (program >>= rest) final
  returns {α : Type} {program : Program Op Response α} {value : α}
    (returns : Returns answer plain program value) : judges program value

/-- Having an outcome is such a way. -/
def outcomeJudgement (answer : (op : Op) → Response op)
    (plain : Op → Prop) : Judgement answer plain where
  judges program value := program.outcome answer = some value
  ret _ := rfl
  bind first second := by
    rw [outcome_bind, first]
    exact second
  returns returns := returns.outcome

/-- Returning after calls that satisfy `holds` is such a way. -/
def Returns.judgement {plain : Op → Prop}
    (implies : ∀ op, plain op → holds op) : Judgement answer plain where
  judges program value := Returns answer holds program value
  ret value := .ret value
  bind first second := first.bind second
  returns returns := returns.mono implies

end Answers

/-! ## What a program spends -/

section Ledger

variable {M : Type} [AddCommMonoid M]
  (answer : (op : Op) → Response op) (toll : Op → M)

/-- The tolls of all calls a program makes when they are answered by `answer`. -/
def total (program : Program Op Response α) : M :=
  ((program.trace answer).map toll).sum

@[simp]
theorem total_ret (value : α) :
    (ret value : Program Op Response α).total answer toll = 0 :=
  rfl

@[simp]
theorem total_call (op : Op) (next : Response op → Program Op Response α) :
    (call op next).total answer toll =
      toll op + (next (answer op)).total answer toll := by
  simp [total]

theorem total_bind {program : Program Op Response α} {value : α}
    (returned : program.outcome answer = some value)
    (rest : α → Program Op Response β) :
    (program >>= rest).total answer toll =
      program.total answer toll + (rest value).total answer toll := by
  simp [total, trace_bind answer returned rest]

/-- Calls that cost nothing add up to nothing. -/
theorem Returns.total_eq_zero {holds : Op → Prop}
    {program : Program Op Response α} {value : α}
    (returns : Returns answer holds program value)
    (free : ∀ op, holds op → toll op = 0) :
    program.total answer toll = 0 := by
  apply List.sum_eq_zero
  intro amount member
  rcases List.mem_map.mp member with ⟨op, called, rfl⟩
  exact free op (returns.calls op called)

/-- Tolls that agree on the calls of a program give the same total. -/
theorem Returns.total_congr {holds : Op → Prop}
    {program : Program Op Response α} {value : α} {other : Op → M}
    (returns : Returns answer holds program value)
    (agree : ∀ op, holds op → toll op = other op) :
    program.total answer toll = program.total answer other := by
  unfold total
  congr 1
  apply List.map_congr_left
  intro op called
  exact agree op (returns.calls op called)

/--
Responses other than those of `answer`, and what they cost; `uses` says which
calls are made at all.
-/
structure Tariff (Op : Type) (Response : Op → Type) (M : Type) where
  uses : Op → Prop
  allowed : (op : Op) → Response op → Prop
  spent : (op : Op) → Response op → M

/--
Whatever allowed responses it gets, the program returns `value`, and what it
spends is its total.
-/
def Balanced (tariff : Tariff Op Response M) (value : α) :
    Program Op Response α → Prop
  | .ret returned => returned = value
  | .call op next =>
      tariff.uses op ∧
        ∀ response, tariff.allowed op response →
          (call op next).total answer toll =
              tariff.spent op response +
                (next response).total answer toll ∧
            (next response).Balanced tariff value
  | .stuck => False

variable {answer toll} {tariff : Tariff Op Response M}

/-- The answers themselves are allowed responses. -/
def Tariff.Admits (tariff : Tariff Op Response M)
    (answer : (op : Op) → Response op) : Prop :=
  ∀ op, tariff.allowed op (answer op)

theorem Balanced.outcome (admits : tariff.Admits answer)
    {program : Program Op Response α} {value : α}
    (balanced : program.Balanced answer toll tariff value) :
    program.outcome answer = some value := by
  induction program with
  | ret returned => exact congrArg some balanced
  | call op next induction =>
      exact induction _ (balanced.2 (answer op) (admits op)).2
  | stuck => exact balanced.elim

/--
A program is balanced when nothing but `answer` is allowed for the calls it
makes.
-/
theorem Returns.balanced {holds : Op → Prop}
    {program : Program Op Response α} {value : α}
    (returns : Returns answer holds program value)
    (determined : ∀ op, holds op → tariff.uses op ∧
      ∀ response, tariff.allowed op response →
        response = answer op ∧ tariff.spent op response = toll op) :
    program.Balanced answer toll tariff value := by
  rcases returns with ⟨returned, calls⟩
  induction program with
  | ret other => exact Option.some.inj returned
  | call op next induction =>
      rw [trace_call, List.forall_mem_cons] at calls
      rcases determined op calls.1 with ⟨used, only⟩
      refine ⟨used, ?_⟩
      intro response allowed
      rcases only response allowed with ⟨rfl, spent⟩
      refine ⟨?_, induction _ returned calls.2⟩
      rw [total_call, spent]
  | stuck => cases returned

/-- Balanced programs compose. -/
theorem Balanced.bind (admits : tariff.Admits answer)
    {program : Program Op Response α} {value : α}
    (balanced : program.Balanced answer toll tariff value)
    {rest : α → Program Op Response β} {final : β}
    (continues : (rest value).Balanced answer toll tariff final) :
    (program >>= rest).Balanced answer toll tariff final := by
  induction program with
  | ret returned =>
      cases balanced
      exact continues
  | call op next induction =>
      refine ⟨balanced.1, ?_⟩
      intro response allowed
      rcases balanced.2 response allowed with ⟨spends, inner⟩
      refine ⟨?_, induction response inner⟩
      have whole :
          (call op next).outcome answer = some value :=
        Balanced.outcome admits balanced
      have part : (next response).outcome answer = some value :=
        Balanced.outcome admits inner
      change (call op next >>= rest).total answer toll =
        tariff.spent op response +
          (next response >>= rest).total answer toll
      rw [total_bind answer toll whole rest, spends,
        total_bind answer toll part rest, add_assoc]
  | stuck => exact balanced.elim

/-- Returning in balance is a way to return that composes. -/
def Balanced.judgement {plain : Op → Prop} (admits : tariff.Admits answer)
    (determined : ∀ op, plain op → tariff.uses op ∧
      ∀ response, tariff.allowed op response →
        response = answer op ∧ tariff.spent op response = toll op) :
    Judgement answer plain where
  judges program value := program.Balanced answer toll tariff value
  ret _ := rfl
  bind first second := first.bind admits second
  returns returns := returns.balanced determined

end Ledger

end Program

end BcIo.Foundation.Interaction
