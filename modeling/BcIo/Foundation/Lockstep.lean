import BcIo.Foundation.Bookkeeping

/-!
# Two machines in lockstep

The same programs can run on two machines.  Where both answer every call alike
that the programs make, the two runs are one: the threads stand at the same
points, the logs are the same, and the states correspond.  What the programs can
call is known from a discipline that they keep to on the first machine.
-/

namespace BcIo.Foundation.Lockstep

open BcIo.Foundation.Bookkeeping
open BcIo.Foundation.Interaction
open BcIo.Foundation.WorkerPool

variable {Op : Type} {Response : Op → Type} {ν α : Type}

/-- How the states and the moves of one machine are those of another. -/
structure Translation (first second : Machine Op Response) where
  state : first.State → second.State
  choice : first.Choice → second.Choice
  drift : first.Drift → second.Drift

namespace Translation

variable {first second : Machine Op Response}
  (translation : Translation first second)

def move : Move first → Move second
  | .turn thread choice => .turn thread (translation.choice choice)
  | .drift drift => .drift (translation.drift drift)

/-- The same threads, over the corresponding state. -/
def pool (pool : Pool first α) : Pool second α :=
  ⟨translation.state pool.state, pool.threads⟩

/-- The two machines answer a call alike. -/
def AgreesAt (state : first.State) (choice : first.Choice) (op : Op) :
    Prop :=
  second.handle (translation.state state) (translation.choice choice) op =
    ((first.handle state choice op).1,
      translation.state (first.handle state choice op).2)

/-- The two machines change alike between the calls. -/
def DriftsAlike : Prop :=
  ∀ state drift,
    second.drift (translation.state state) (translation.drift drift) =
      translation.state (first.drift state drift)

variable {translation} {resume : α → Option (Program Op Response α)}

theorem step_pool (alike : translation.DriftsAlike) {pool : Pool first α}
    {move : Move first}
    (agrees : ∀ thread choice op next, move = .turn thread choice →
      pool.threads[thread]? = some (.call op next) →
      translation.AgreesAt pool.state choice op) :
    Pool.step resume (translation.pool pool) (translation.move move) =
        translation.pool (Pool.step resume pool move) ∧
      (translation.pool pool).eventOf (translation.move move) =
        pool.eventOf move := by
  cases move with
  | drift drift =>
      refine ⟨?_, rfl⟩
      exact congrArg (Pool.mk · pool.threads) (alike pool.state drift)
  | turn thread choice =>
      have same : (translation.pool pool).threads = pool.threads := rfl
      cases running : pool.threads[thread]? with
      | none =>
          simp only [Translation.move, Pool.step, Pool.eventOf, same, running,
            and_self]
      | some program =>
          cases program with
          | ret value =>
              simp only [Translation.move, Pool.step, Pool.eventOf, same,
                running, and_self]
          | stuck =>
              simp only [Translation.move, Pool.step, Pool.eventOf, same,
                running, and_self]
          | call op next =>
              have answered := agrees thread choice op next rfl running
              have asked :
                  second.handle (translation.pool pool).state
                      (translation.choice choice) op =
                    ((first.handle pool.state choice op).1,
                      translation.state
                        (first.handle pool.state choice op).2) :=
                answered
              constructor
              · rw [Translation.move, Pool.step_call (same ▸ running),
                  Pool.step_call running, asked]
                rfl
              · simp only [Translation.move, Pool.eventOf, same, running,
                  asked]

variable {discipline : Discipline Op Response ν} {waiting : α → ν → Prop}
  {holds : first.State → List ν → Prop}

/-- Where a sound pool runs on the first machine, it runs alike on the second. -/
theorem run_pool (alike : translation.DriftsAlike)
    (resumes : Noted.Resumes discipline resume waiting)
    (upholds :
      Noted.Upholds (α := α) discipline (fun _ _ => True) holds)
    (agrees : ∀ (noted : Noted first α ν) (thread : Nat) choice op held,
      Noted.Sound discipline waiting holds noted →
      noted.notes[thread]? = some held → discipline.permits held op →
      translation.AgreesAt noted.pool.state choice op)
    {noted : Noted first α ν}
    (sound : Noted.Sound discipline waiting holds noted)
    (moves : List (Move first)) :
    Pool.run resume (translation.pool noted.pool)
        (moves.map translation.move) =
        translation.pool (Pool.run resume noted.pool moves) ∧
      Pool.log resume (translation.pool noted.pool)
          (moves.map translation.move) =
        Pool.log resume noted.pool moves := by
  induction moves generalizing noted with
  | nil => exact ⟨rfl, rfl⟩
  | cons move moves induction =>
      have called :
          ∀ thread choice op next, move = .turn thread choice →
            noted.pool.threads[thread]? = some (.call op next) →
            translation.AgreesAt noted.pool.state choice op := by
        rintro thread choice op next rfl running
        rcases sound.orderly.turn resumes running with
          ⟨held, found, permitted, _⟩
        exact agrees noted thread choice op held sound found permitted
      have both :
          Pool.step resume (translation.pool noted.pool)
                (translation.move move) =
              translation.pool (Pool.step resume noted.pool move) ∧
            (translation.pool noted.pool).eventOf (translation.move move) =
              noted.pool.eventOf move :=
        step_pool alike called
      rcases both with ⟨stepped, made⟩
      have later :
          Noted.Sound discipline waiting holds
            (Noted.step discipline resume noted move) :=
        sound.step resumes upholds trivial
      have rest := induction later
      rw [List.map_cons, Pool.log, Pool.log, made]
      change Pool.run resume
          (Pool.step resume (translation.pool noted.pool)
            (translation.move move)) _ =
          translation.pool
            (Pool.run resume (Pool.step resume noted.pool move) moves) ∧ _
      rw [stepped]
      exact ⟨rest.1, congrArg _ rest.2⟩

end Translation

end BcIo.Foundation.Lockstep
