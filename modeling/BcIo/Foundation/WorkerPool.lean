import BcIo.Foundation.Interaction
import Mathlib.Data.List.Basic

/-!
# Pools of interleaved programs

Any number of programs take turns on one shared state.  A schedule says whose
turn it is and resolves what the machine leaves open; between the turns the
state may also change by itself.
-/

namespace BcIo.Foundation.WorkerPool

open BcIo.Foundation.Interaction

variable {Op : Type} {Response : Op → Type} {α : Type}

/-- What answers the calls of the programs. -/
structure Machine (Op : Type) (Response : Op → Type) where
  State : Type
  /-- What the answer to a call may depend on besides the state. -/
  Choice : Type
  /-- What may happen to the state between the calls. -/
  Drift : Type
  handle : State → Choice → (op : Op) → Response op × State
  drift : State → Drift → State

/-- One step of a pool. -/
inductive Move (machine : Machine Op Response) where
  | turn (thread : Nat) (choice : machine.Choice)
  | drift (drift : machine.Drift)

/-- The shared state and the programs still to be run. -/
structure Pool (machine : Machine Op Response) (α : Type) where
  state : machine.State
  threads : List (Program Op Response α)

namespace Pool

variable {machine : Machine Op Response}
  (resume : α → Option (Program Op Response α))

/-- A program that has returned is followed by what `resume` says, if anything. -/
def settle : Program Op Response α → Program Op Response α
  | .ret value => (resume value).getD (.ret value)
  | .call op next => .call op next
  | .stuck => .stuck

/-- One step; a thread that has ended stays as it is. -/
def step (pool : Pool machine α) : Move machine → Pool machine α
  | .turn thread choice =>
      match pool.threads[thread]? with
      | some (.call op next) =>
          let (response, state) := machine.handle pool.state choice op
          ⟨state, pool.threads.set thread (settle resume (next response))⟩
      | _ => pool
  | .drift drift => ⟨machine.drift pool.state drift, pool.threads⟩

/-- A run of a pool. -/
def run (pool : Pool machine α) (moves : List (Move machine)) :
    Pool machine α :=
  moves.foldl (step resume) pool

theorem run_append_singleton (pool : Pool machine α)
    (moves : List (Move machine)) (move : Move machine) :
    run resume pool (moves ++ [move]) =
      step resume (run resume pool moves) move := by
  simp [run]

variable {resume}

/-- What every step keeps holds after every run. -/
theorem run_invariant {holds : Pool machine α → Prop}
    (keeps : ∀ pool move, holds pool → holds (step resume pool move))
    {pool : Pool machine α} (starts : holds pool)
    (moves : List (Move machine)) : holds (run resume pool moves) := by
  induction moves generalizing pool with
  | nil => exact starts
  | cons move rest induction => exact induction (keeps pool move starts)

/-- The turn of a thread that is about to make a call. -/
theorem step_call {pool : Pool machine α} {thread : Nat} {op : Op}
    {next : Response op → Program Op Response α}
    (running : pool.threads[thread]? = some (.call op next))
    (choice : machine.Choice) :
    step resume pool (.turn thread choice) =
      ⟨(machine.handle pool.state choice op).2,
        pool.threads.set thread
          (settle resume
            (next (machine.handle pool.state choice op).1))⟩ := by
  simp only [step, running]

/--
Every step is a change of the state by itself, the turn of a thread that is
about to make a call, or nothing.
-/
theorem step_cases (pool : Pool machine α) (move : Move machine) :
    (∃ drift, move = .drift drift ∧
        step resume pool move =
          ⟨machine.drift pool.state drift, pool.threads⟩) ∨
      (∃ thread choice op next, move = .turn thread choice ∧
        pool.threads[thread]? = some (.call op next) ∧
        step resume pool move =
          ⟨(machine.handle pool.state choice op).2,
            pool.threads.set thread
              (settle resume
                (next (machine.handle pool.state choice op).1))⟩) ∨
      step resume pool move = pool := by
  cases move with
  | drift drift => exact Or.inl ⟨drift, rfl, rfl⟩
  | turn thread choice =>
      cases found : pool.threads[thread]? with
      | none => exact Or.inr (Or.inr (by simp only [step, found]))
      | some program =>
          cases program with
          | ret value => exact Or.inr (Or.inr (by simp only [step, found]))
          | call op next =>
              exact Or.inr (Or.inl ⟨thread, choice, op, next, rfl, found,
                step_call found choice⟩)
          | stuck => exact Or.inr (Or.inr (by simp only [step, found]))

/-- The turn of one thread leaves the others alone. -/
theorem step_threads_ne (pool : Pool machine α) {thread other : Nat}
    (differs : other ≠ thread) (choice : machine.Choice) :
    (step resume pool (.turn other choice)).threads[thread]? =
      pool.threads[thread]? := by
  rcases step_cases pool (.turn other choice) with
    ⟨drift, isDrift, _⟩ | ⟨_, _, op, next, isTurn, _, stepped⟩ | same
  · cases isDrift
  · cases isTurn
    rw [stepped]
    exact List.getElem?_set_ne differs
  · rw [same]

/-- Every step of the pool leaves a thread where it is, or is its turn. -/
theorem step_thread {pool : Pool machine α} {thread : Nat} {op : Op}
    {next : Response op → Program Op Response α}
    (running : pool.threads[thread]? = some (.call op next))
    (move : Move machine) :
    (step resume pool move).threads[thread]? = some (.call op next) ∨
      ∃ choice, move = .turn thread choice ∧
        (step resume pool move).threads[thread]? =
          some (settle resume
            (next (machine.handle pool.state choice op).1)) := by
  cases move with
  | drift drift => exact Or.inl running
  | turn other choice =>
      by_cases isSelf : other = thread
      · subst isSelf
        refine Or.inr ⟨choice, rfl, ?_⟩
        rw [step_call running]
        exact List.getElem?_set_self (List.getElem?_eq_some_iff.mp running).1
      · refine Or.inl ?_
        rw [step_threads_ne pool isSelf]
        exact running

/-- A thread that has returned for good stays as it is. -/
theorem step_returned {pool : Pool machine α} {thread : Nat} {value : α}
    (returned : pool.threads[thread]? = some (.ret value))
    (move : Move machine) :
    (step resume pool move).threads[thread]? = some (.ret value) := by
  cases move with
  | drift drift => exact returned
  | turn other choice =>
      by_cases isSelf : other = thread
      · subst isSelf
        simp only [step, returned]
      · rw [step_threads_ne pool isSelf]
        exact returned

/-- The number of threads does not change. -/
theorem step_length (pool : Pool machine α) (move : Move machine) :
    (step resume pool move).threads.length = pool.threads.length := by
  rcases step_cases pool move with
    ⟨drift, _, stepped⟩ | ⟨thread, choice, op, next, _, _, stepped⟩ | same
  · rw [stepped]
  · rw [stepped]
    exact List.length_set
  · rw [same]

theorem run_length (pool : Pool machine α) (moves : List (Move machine)) :
    (run resume pool moves).threads.length = pool.threads.length := by
  induction moves generalizing pool with
  | nil => rfl
  | cons move moves induction =>
      exact (induction (step resume pool move)).trans (step_length pool move)

/-- No thread stands at a result that something follows. -/
def Settled (resume : α → Option (Program Op Response α))
    (pool : Pool machine α) : Prop :=
  ∀ program ∈ pool.threads, settle resume program = program

theorem Settled.step
    (settles : ∀ program : Program Op Response α,
      settle resume (settle resume program) = settle resume program)
    {pool : Pool machine α} (settled : Settled resume pool)
    (move : Move machine) : Settled resume (step resume pool move) := by
  rcases step_cases pool move with
    ⟨drift, _, stepped⟩ | ⟨thread, choice, op, next, _, _, stepped⟩ | same
  · rw [stepped]
    exact settled
  · rw [stepped]
    intro program member
    rcases List.mem_or_eq_of_mem_set member with old | rfl
    · exact settled program old
    · exact settles _
  · rw [same]
    exact settled

variable (resume) in
theorem run_append (pool : Pool machine α)
    (earlier later : List (Move machine)) :
    run resume pool (earlier ++ later) =
      run resume (run resume pool earlier) later := by
  simp [run]

end Pool

/-! ## What a run has done -/

/-- A call that a thread has made, with the response it got. -/
structure Event (Op : Type) (Response : Op → Type) where
  thread : Nat
  op : Op
  response : Response op

namespace Pool

variable {machine : Machine Op Response}
  (resume : α → Option (Program Op Response α))

/-- The call that a step makes, if it makes one. -/
def eventOf (pool : Pool machine α) :
    Move machine → Option (Event Op Response)
  | .turn thread choice =>
      match pool.threads[thread]? with
      | some (.call op _) =>
          some ⟨thread, op, (machine.handle pool.state choice op).1⟩
      | _ => none
  | .drift _ => none

/-- The calls that the threads make in a run, in order. -/
def log : Pool machine α → List (Move machine) → List (Event Op Response)
  | _, [] => []
  | pool, move :: moves =>
      (pool.eventOf move).toList ++ log (step resume pool move) moves

/-- A call in the log was made at some point of the run. -/
theorem log_split {pool : Pool machine α} {moves : List (Move machine)}
    {before after : List (Event Op Response)} {event : Event Op Response}
    (logged : log resume pool moves = before ++ event :: after) :
    ∃ earlier move later, moves = earlier ++ move :: later ∧
      log resume pool earlier = before ∧
      (run resume pool earlier).eventOf move = some event ∧
      log resume (step resume (run resume pool earlier) move) later =
        after := by
  induction moves generalizing pool before with
  | nil => simp [log] at logged
  | cons move moves induction =>
      rw [log] at logged
      cases made : pool.eventOf move with
      | none =>
          rw [made] at logged
          rcases induction logged with
            ⟨earlier, found, later, rfl, first, event, rest⟩
          refine ⟨move :: earlier, found, later, rfl, ?_, event, rest⟩
          rw [log, made]
          exact first
      | some first =>
          rw [made] at logged
          cases before with
          | nil =>
              simp only [Option.toList_some, List.singleton_append,
                List.nil_append, List.cons.injEq] at logged
              rcases logged with ⟨rfl, rest⟩
              exact ⟨[], move, moves, rfl, rfl, made, rest⟩
          | cons head before =>
              simp only [Option.toList_some, List.cons_append,
                List.cons.injEq] at logged
              rcases logged with ⟨rfl, rest⟩
              rcases induction rest with
                ⟨earlier, found, later, rfl, earlierLog, event, rest⟩
              refine ⟨move :: earlier, found, later, rfl, ?_, event, rest⟩
              rw [log, made, earlierLog]
              rfl

/-- The turn behind a call. -/
theorem eventOf_some {pool : Pool machine α} {move : Move machine}
    {event : Event Op Response} (made : pool.eventOf move = some event) :
    ∃ choice next, move = .turn event.thread choice ∧
      pool.threads[event.thread]? = some (.call event.op next) ∧
      event.response =
        (machine.handle pool.state choice event.op).1 := by
  cases move with
  | drift drift => cases made
  | turn thread choice =>
      simp only [eventOf] at made
      split at made
      · rename_i op next found
        cases made
        exact ⟨choice, next, rfl, found, rfl⟩
      · cases made

/-- A call in the log got its response from the machine, in a state of the run. -/
theorem response_of_logged {pool : Pool machine α}
    {moves : List (Move machine)} {event : Event Op Response}
    (logged : event ∈ log resume pool moves) :
    ∃ earlier choice,
      event.response =
        (machine.handle (run resume pool earlier).state choice
          event.op).1 := by
  rcases List.append_of_mem logged with ⟨before, after, split⟩
  rcases log_split resume split with ⟨earlier, _, _, _, _, made, _⟩
  rcases eventOf_some made with ⟨choice, _, _, _, response⟩
  exact ⟨earlier, choice, response⟩

/-- A step without a call. -/
theorem eventOf_none {pool : Pool machine α} {move : Move machine}
    (silent : pool.eventOf move = none) :
    (∃ drift, move = .drift drift) ∨ step resume pool move = pool := by
  cases move with
  | drift drift => exact Or.inl ⟨drift, rfl⟩
  | turn thread choice =>
      rcases step_cases pool (.turn thread choice) with
        ⟨drift, isDrift, _⟩ | ⟨_, _, op, next, isTurn, running, _⟩ | same
      · cases isDrift
      · cases isTurn
        simp [eventOf, running] at silent
      · exact Or.inr same

/-- Every call is made by one of the threads. -/
theorem log_thread {pool : Pool machine α} {moves : List (Move machine)}
    {event : Event Op Response} (logged : event ∈ log resume pool moves) :
    event.thread < pool.threads.length := by
  induction moves generalizing pool with
  | nil => cases logged
  | cons move moves induction =>
      rw [log, List.mem_append, Option.mem_toList] at logged
      rcases logged with made | later
      · rcases eventOf_some made with ⟨_, _, _, running, _⟩
        exact (List.getElem?_eq_some_iff.mp running).1
      · rw [← step_length pool move]
        exact induction later

end Pool

/-! ## A program on its own -/

section Alone

variable (machine : Machine Op Response) (choice : machine.Choice)

/-- Run a program to its end, with the same choice at every call. -/
def runAlone : Program Op Response α → machine.State →
    Option (α × machine.State)
  | .ret value, state => some (value, state)
  | .call op next, state =>
      let (response, after) := machine.handle state choice op
      runAlone (next response) after
  | .stuck, _ => none

/-- What every call keeps holds when the program has returned. -/
theorem runAlone_invariant (holds : machine.State → Prop)
    (keeps : ∀ state op, holds state →
      holds (machine.handle state choice op).2)
    {program : Program Op Response α} {state final : machine.State}
    {value : α} (starts : holds state)
    (ran : runAlone machine choice program state = some (value, final)) :
    holds final := by
  induction program generalizing state with
  | ret other =>
      cases ran
      exact starts
  | call op next induction =>
      exact induction _ (keeps state op starts) ran
  | stuck => cases ran

/--
A program whose calls are answered as `answer` says, as long as the state is
quiet, ends with the outcome that `answer` gives it, after handling exactly the
calls of its trace.
-/
theorem runAlone_of_outcome {answer : (op : Op) → Response op}
    (quiet : machine.State → Prop) {program : Program Op Response α}
    {value : α} (returned : program.outcome answer = some value)
    (answers : ∀ op ∈ program.trace answer, ∀ state, quiet state →
      (machine.handle state choice op).1 = answer op ∧
        quiet (machine.handle state choice op).2)
    {state : machine.State} (starts : quiet state) :
    runAlone machine choice program state =
        some (value,
          (program.trace answer).foldl
            (fun state op => (machine.handle state choice op).2) state) ∧
      quiet
        ((program.trace answer).foldl
          (fun state op => (machine.handle state choice op).2) state) := by
  induction program generalizing state with
  | ret other =>
      cases returned
      exact ⟨rfl, starts⟩
  | call op next induction =>
      rw [Program.trace_call, List.forall_mem_cons] at answers
      rcases answers.1 state starts with ⟨same, continues⟩
      have inner := induction _ returned answers.2 continues
      rw [← same] at inner
      simpa only [runAlone, Program.trace_call, List.foldl_cons, ← same]
        using inner
  | stuck => cases returned

end Alone

/-! ## Fair schedules -/

section Fair

variable {machine : Machine Op Response}
  (resume : α → Option (Program Op Response α))

/-- The pool after the first `time` steps of an infinite schedule. -/
def poolAt (pool : Pool machine α) (schedule : Nat → Move machine) :
    Nat → Pool machine α
  | 0 => pool
  | time + 1 => Pool.step resume (poolAt pool schedule time) (schedule time)

/-- Every thread gets its turn again and again. -/
def Fair (threads : Nat) (schedule : Nat → Move machine) : Prop :=
  ∀ thread, thread < threads → ∀ time, ∃ later choice, time ≤ later ∧
    schedule later = .turn thread choice

variable {resume}

/--
A thread whose turns bring a rank down, while the turns of the others leave the
rank as it is, reaches the goal: the others can only reach it earlier.
-/
theorem reaches_of_rank {pool : Pool machine α}
    {schedule : Nat → Move machine} {threads thread : Nat}
    (fair : Fair threads schedule) (isThread : thread < threads)
    (waiting goal : Pool machine α → Prop) (rank : Pool machine α → Nat)
    (others : ∀ pool move, waiting pool →
      goal (Pool.step resume pool move) ∨
        (waiting (Pool.step resume pool move) ∧
          rank (Pool.step resume pool move) ≤ rank pool))
    (own : ∀ pool choice, waiting pool →
      goal (Pool.step resume pool (.turn thread choice)) ∨
        rank (Pool.step resume pool (.turn thread choice)) < rank pool)
    {time : Nat} (starts : waiting (poolAt resume pool schedule time)) :
    ∃ later, time ≤ later ∧ goal (poolAt resume pool schedule later) := by
  generalize bound : rank (poolAt resume pool schedule time) = value
  induction value using Nat.strongRecOn generalizing time with
  | ind value induction =>
      rcases fair thread isThread time with ⟨turn, choice, after, chosen⟩
      -- until its turn comes, either the goal is reached or it still waits
      have until_ :
          ∀ distance, time + distance ≤ turn →
            (∃ later, time ≤ later ∧
                goal (poolAt resume pool schedule later)) ∨
              (waiting (poolAt resume pool schedule (time + distance)) ∧
                rank (poolAt resume pool schedule (time + distance)) ≤
                  value) := by
        intro distance
        induction distance with
        | zero =>
            intro _
            exact Or.inr ⟨starts, Nat.le_of_eq bound⟩
        | succ distance inner =>
            intro before
            rcases inner (by omega) with reached | ⟨waits, low⟩
            · exact Or.inl reached
            · rcases others _ (schedule (time + distance)) waits with
                reached | ⟨waits, lower⟩
              · exact Or.inl ⟨time + distance + 1, by omega, reached⟩
              · exact Or.inr ⟨waits, Nat.le_trans lower low⟩
      rcases Nat.exists_eq_add_of_le after with ⟨distance, rfl⟩
      rcases until_ distance (Nat.le_refl _) with reached | ⟨waits, low⟩
      · exact reached
      · have stepped :
            poolAt resume pool schedule (time + distance + 1) =
              Pool.step resume (poolAt resume pool schedule (time + distance))
                (.turn thread choice) := by
          rw [poolAt, chosen]
        rcases own _ choice waits with reached | lower
        · exact ⟨time + distance + 1, by omega, by rw [stepped]; exact reached⟩
        · rcases others _ (.turn thread choice) waits with
            reached | ⟨waits, _⟩
          · exact ⟨time + distance + 1, by omega,
              by rw [stepped]; exact reached⟩
          · rw [← stepped] at lower waits
            rcases induction _ (Nat.lt_of_lt_of_le lower low) waits rfl with
              ⟨later, afterwards, reached⟩
            exact ⟨later, by omega, reached⟩

/-- The rule for a thread that reaches the goal by its next turn. -/
theorem reaches_of_turn {pool : Pool machine α}
    {schedule : Nat → Move machine} {threads thread : Nat}
    (fair : Fair threads schedule) (isThread : thread < threads)
    (waiting goal : Pool machine α → Prop)
    (others : ∀ pool move, waiting pool →
      goal (Pool.step resume pool move) ∨
        waiting (Pool.step resume pool move))
    (own : ∀ pool choice, waiting pool →
      goal (Pool.step resume pool (.turn thread choice)))
    {time : Nat} (starts : waiting (poolAt resume pool schedule time)) :
    ∃ later, time ≤ later ∧ goal (poolAt resume pool schedule later) := by
  refine reaches_of_rank fair isThread waiting goal (fun _ => 0) ?_ ?_ starts
  · intro pool move waits
    rcases others pool move waits with reached | waits
    · exact Or.inl reached
    · exact Or.inr ⟨waits, Nat.le_refl _⟩
  · intro pool choice waits
    exact Or.inl (own pool choice waits)

/-- What every step keeps holds at all times. -/
theorem poolAt_invariant (holds : Pool machine α → Prop)
    (keeps : ∀ pool move, holds pool → holds (Pool.step resume pool move))
    {pool : Pool machine α} (starts : holds pool)
    (schedule : Nat → Move machine) (time : Nat) :
    holds (poolAt resume pool schedule time) := by
  induction time with
  | zero => exact starts
  | succ time induction => exact keeps _ _ induction

/-- A finite part of a schedule is a run. -/
theorem poolAt_eq_run (pool : Pool machine α)
    (schedule : Nat → Move machine) (time : Nat) :
    poolAt resume pool schedule time =
      Pool.run resume pool ((List.range time).map schedule) := by
  induction time with
  | zero => rfl
  | succ time induction =>
      rw [poolAt, induction, List.range_succ, List.map_append,
        List.map_singleton, Pool.run_append_singleton]

/-- What each of some threads comes to and keeps, they all come to together. -/
theorem reaches_together (holds : Nat → Pool machine α → Prop)
    (keeps : ∀ thread pool move, holds thread pool →
      holds thread (Pool.step resume pool move))
    {pool : Pool machine α} {schedule : Nat → Move machine} {count : Nat}
    (each : ∀ thread, thread < count →
      ∃ time, holds thread (poolAt resume pool schedule time)) :
    ∃ time, ∀ thread, thread < count →
      holds thread (poolAt resume pool schedule time) := by
  have stays :
      ∀ thread {earlier later}, earlier ≤ later →
        holds thread (poolAt resume pool schedule earlier) →
        holds thread (poolAt resume pool schedule later) := by
    intro thread earlier later after reached
    induction after with
    | refl => exact reached
    | step _ induction => exact keeps _ _ _ induction
  induction count with
  | zero => exact ⟨0, fun thread below => absurd below (Nat.not_lt_zero _)⟩
  | succ count induction =>
      rcases induction (fun thread below => each thread (by omega)) with
        ⟨first, reached⟩
      rcases each count (Nat.lt_succ_self _) with ⟨second, reachedToo⟩
      refine ⟨max first second, ?_⟩
      intro thread below
      rcases Nat.lt_succ_iff_lt_or_eq.mp below with below | rfl
      · exact stays thread (Nat.le_max_left _ _) (reached thread below)
      · exact stays _ (Nat.le_max_right _ _) reachedToo

end Fair

end BcIo.Foundation.WorkerPool
