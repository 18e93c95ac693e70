import BcIo.Walk.Walker
import BcIo.Foundation.WorkerPool

/-!
# Running a walk

The state that the programs of a walk act on, and the machine that answers
their calls.  What the calls that leave the library return is up to an
`Environment`; the queue is a bounded collection that may refuse a push and
hands out any of its elements.
-/

namespace BcIo.Walk

open BcIo.Foundation.Interaction
open BcIo.Foundation.WorkerPool

/-- `bc_io_walk_stats_t`. -/
structure Stats where
  filesVisited : Nat := 0
  directoriesVisited : Nat := 0
  filesSkipped : Nat := 0
  errorsEncountered : Nat := 0
  deriving DecidableEq, Repr

/-- A counter goes up by one. -/
def Stats.count (stats : Stats) : Counter → Stats
  | .filesVisited =>
      { stats with filesVisited := sizeAdd stats.filesVisited 1 }
  | .directoriesVisited =>
      { stats with directoriesVisited := sizeAdd stats.directoriesVisited 1 }
  | .filesSkipped =>
      { stats with filesSkipped := sizeAdd stats.filesSkipped 1 }
  | .errorsEncountered =>
      { stats with errorsEncountered := sizeAdd stats.errorsEncountered 1 }

/-- What answers the calls that leave the library. -/
structure Environment where
  Situation : Type
  /-- What the answer may depend on besides the situation. -/
  Choice : Type
  /-- What may happen to the situation between the calls. -/
  Change : Type
  answer : Situation → Choice → (call : Call) → call.Response × Situation
  change : Situation → Change → Situation

/--
The state of a walk: `bc_io_walk_sequential_state_t`, or `bc_io_walk_shared_t`
with the content of its queue.
-/
structure State (Situation : Type) where
  visitFailed : Bool
  /-- The value of an `int`. -/
  outstanding : Int
  stats : Stats
  queue : List Directory
  /-- What the programs have done so far, in order. -/
  history : List Op
  situation : Situation

/-- What the queue may decide. -/
structure QueueChoice where
  refuse : Bool
  position : Nat

/-- The value an `int` takes when a result is stored in it. -/
def wrapInt (value : Int) : Int :=
  value.bmod (2 ^ 32)

variable {Situation : Type}

/-- An access to the state, with a queue of `capacity` places. -/
def touch (capacity : Nat) (state : State Situation)
    (choice : QueueChoice) : (access : Access) →
      access.Response × State Situation
  | .loadVisitFailed => (state.visitFailed, state)
  | .storeVisitFailed => ((), { state with visitFailed := true })
  | .count counter =>
      ((), { state with stats := state.stats.count counter })
  | .raiseOutstanding =>
      ((), { state with outstanding := wrapInt (state.outstanding + 1) })
  | .undoOutstanding =>
      ((), { state with outstanding := wrapInt (state.outstanding - 1) })
  | .finishOutstanding =>
      ((), { state with outstanding := wrapInt (state.outstanding - 1) })
  | .loadOutstanding => (state.outstanding, state)
  | .queuePush directory =>
      if state.queue.length < capacity ∧ choice.refuse = false then
        (true, { state with queue := state.queue ++ [directory] })
      else
        (false, state)
  | .queuePop =>
      let position := choice.position % state.queue.length
      (state.queue[position]?,
        { state with queue := state.queue.eraseIdx position })

/-- The response to an operation, and the state it leaves. -/
def respond (environment : Environment) (capacity : Nat)
    (state : State environment.Situation)
    (choice : environment.Choice × QueueChoice) :
    (op : Op) → op.Response × State environment.Situation
  | .outside call =>
      let (response, situation) :=
        environment.answer state.situation choice.1 call
      (response, { state with situation := situation })
  | .shared access => touch capacity state choice.2 access

/-- The machine behind a walk. -/
abbrev machine (environment : Environment) (capacity : Nat) :
    Machine Op Op.Response where
  State := State environment.Situation
  Choice := environment.Choice × QueueChoice
  Drift := environment.Change
  handle state choice op :=
    let (response, after) := respond environment capacity state choice op
    (response, { after with history := state.history ++ [op] })
  drift state change :=
    { state with
      situation := environment.change state.situation change }

/-- The state in which a walk begins. -/
def State.initial (situation : Situation) : State Situation where
  visitFailed := false
  outstanding := 0
  stats := {}
  queue := []
  history := []
  situation := situation

/-- Nothing follows the single program of a sequential walk. -/
def sequentialResume : Bool → Option (Action Bool) :=
  fun _ => none

/-- A sequential walk that has not begun. -/
def sequentialPool (environment : Environment) (config : Config)
    (situation : environment.Situation) :
    Pool (machine environment config.effectiveQueueCapacity) Bool where
  state := .initial situation
  threads := [walkSequential config]

/-- The loop of `bc_io_walk_worker_task`. -/
def workerResume (config : Config) : Bool → Option (Action Bool)
  | true => some (workerTurn config)
  | false => none

/--
A parallel walk with `workers` running workers, after `bc_io_walk_parallel` has
pushed the root.
-/
def parallelPool (environment : Environment) (config : Config)
    (memory : List Byte) (workers : Nat)
    (situation : environment.Situation) :
    Pool (machine environment config.effectiveQueueCapacity) Bool where
  state :=
    { State.initial situation with
      outstanding := 1
      queue := [rootEntry config memory] }
  threads := List.replicate workers (workerStart config)

/--
`bc_io_walk_parallel` up to the dispatch of its workers, unless it has returned
`false` before.
-/
def dispatchParallel (environment : Environment) (config : Config)
    (workers : Nat) (situation : environment.Situation) :
    Option
      (Pool (machine environment config.effectiveQueueCapacity) Bool) :=
  match usableRoot config with
  | none => none
  | some memory =>
      if !config.hasConcurrencyContext then none
      else some (parallelPool environment config memory workers situation)

theorem dispatchParallel_some {environment : Environment} {config : Config}
    {workers : Nat} {situation : environment.Situation}
    {pool : Pool (machine environment config.effectiveQueueCapacity) Bool}
    (dispatched :
      dispatchParallel environment config workers situation = some pool) :
    ∃ memory, usableRoot config = some memory ∧
      pool = parallelPool environment config memory workers situation := by
  unfold dispatchParallel at dispatched
  split at dispatched
  · cases dispatched
  · rename_i memory usable
    split at dispatched
    · cases dispatched
    · exact ⟨memory, usable, (Option.some.inj dispatched).symm⟩

/-- The result of `bc_io_walk_parallel` once its workers have ended. -/
def State.parallelResult (state : State Situation) : Bool :=
  !state.visitFailed

/-- How much an operation takes away from the outstanding directories. -/
def lowering : Op → Int
  | .shared .raiseOutstanding => -1
  | .shared .undoOutstanding => 1
  | .shared .finishOutstanding => 1
  | _ => 0

theorem wrapInt_add (value change : Int) :
    wrapInt (wrapInt value + change) = wrapInt (value + change) := by
  simp [wrapInt]

/-- The count goes along with the operations, up to the width of an `int`. -/
theorem outstanding_handle (environment : Environment) (capacity : Nat)
    {state : State environment.Situation} {value : Int}
    (counted : state.outstanding = wrapInt value)
    (choice : environment.Choice × QueueChoice) (op : Op) :
    ((machine environment capacity).handle state choice op).2.outstanding =
      wrapInt (value - lowering op) := by
  have unchanged :
      lowering op = 0 → state.outstanding = wrapInt (value - lowering op) := by
    intro free
    rw [free, Int.sub_zero]
    exact counted
  cases op with
  | outside call => exact unchanged rfl
  | shared access =>
      cases access with
      | raiseOutstanding =>
          change wrapInt (state.outstanding + 1) = wrapInt (value - -1)
          rw [counted, wrapInt_add, Int.sub_neg]
      | undoOutstanding =>
          change wrapInt (state.outstanding - 1) = wrapInt (value - 1)
          rw [counted, Int.sub_eq_add_neg, wrapInt_add, Int.sub_eq_add_neg]
      | finishOutstanding =>
          change wrapInt (state.outstanding - 1) = wrapInt (value - 1)
          rw [counted, Int.sub_eq_add_neg, wrapInt_add, Int.sub_eq_add_neg]
      | queuePush directory =>
          have same :
              ((machine environment capacity).handle state choice
                  (.shared (.queuePush directory))).2.outstanding =
                state.outstanding := by
            simp only [respond, touch]
            split <;> rfl
          exact same.trans (unchanged rfl)
      | _ => exact unchanged rfl

end BcIo.Walk
