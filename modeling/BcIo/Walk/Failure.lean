import BcIo.Walk.Agreement
import BcIo.Walk.Bounds

/-!
# A failing visit stops the walk

After a visit has failed, the sequential walk unwinds without another callback.
In the parallel walk a worker looks at the flag before each entry: once it is
set, every other worker completes at most the entry that it is working on.
-/

namespace BcIo.Walk

open BcIo.File
open BcIo.Foundation.Aggregate
open BcIo.Foundation.Bookkeeping
open BcIo.Foundation.Interaction
open BcIo.Foundation.WorkerPool

theorem visitFailed_handle {environment : Environment} {capacity : Nat}
    {state : State environment.Situation}
    (choice : environment.Choice × QueueChoice) (op : Op) :
    ((machine environment capacity).handle state choice op).2.visitFailed =
        true ↔
      state.visitFailed = true ∨ op = .shared .storeVisitFailed := by
  cases op with
  | outside call => simp [respond]
  | shared access =>
      cases access with
      | queuePush directory =>
          simp only [respond, touch]
          split <;> simp
      | _ => simp [respond, touch]

/-! ## The sequential walk -/

/-- Where a sequential walk is with respect to its flag. -/
inductive Mood where
  | running
  /-- A visit has returned `false`, which is to be stored. -/
  | failing
  | failed
  deriving DecidableEq, Repr

namespace Mood

def note : Mood → (op : Op) → op.Response → Mood
  | held, .outside (.visit _), visited =>
      match visited with
      | true => held
      | false => .failing
  | _, .shared .storeVisitFailed, _ => .failed
  | held, _, _ => held

def permits : Mood → Op → Prop
  | .running, op => op ≠ .shared .storeVisitFailed
  | .failing, op => op = .shared .storeVisitFailed
  | .failed, .shared .loadVisitFailed => True
  | .failed, .outside (.closeDirectory _) => True
  | .failed, _ => False

/-- The flag is seen as it is. -/
def allowed : Mood → (op : Op) → op.Response → Prop
  | held, .shared .loadVisitFailed, flag => flag = true ↔ held = .failed
  | _, _, _ => True

end Mood

variable {config : Config}

/-- With a usable root the result says whether a failure has been stored. -/
def Reported (config : Config) (value : Bool) (held : Mood) : Prop :=
  usableRoot config ≠ none →
    held ≠ .failing ∧ (value = false ↔ held = .failed)

section Sequential

variable {environment : Environment}

variable {situation : environment.Situation}

end Sequential

/-! ## The parallel walk -/

/-- Where a worker is with respect to the flag. -/
inductive Pace where
  | starting
  /-- It has seen that the flag was not set. -/
  | fresh
  /-- It has to look again before it may visit. -/
  | used
  /-- It is about to set the flag. -/
  | failing
  deriving DecidableEq, Repr

namespace Pace

def note : Pace → (op : Op) → op.Response → Pace
  | .starting, .outside .direntReaderCreate, created =>
      match created with
      | true => .used
      | false => .failing
  | _, .shared .loadVisitFailed, flag =>
      match flag with
      | true => .used
      | false => .fresh
  | _, .outside (.visit _), visited =>
      match visited with
      | true => .used
      | false => .failing
  | _, .shared .storeVisitFailed, _ => .used
  | held, _, _ => held

def isVisit : Op → Bool
  | .outside (.visit _) => true
  | _ => false

def permits : Pace → Op → Prop
  | .starting, op => op = .outside .direntReaderCreate
  | .fresh, op => op ≠ .shared .storeVisitFailed
  | .used, op => op ≠ .shared .storeVisitFailed ∧ isVisit op = false
  | .failing, op =>
      op = .shared .storeVisitFailed ∨
        op = .shared (.count .errorsEncountered)

/-- A worker that is at work and has nothing to store. -/
def calm (held : Pace) : Prop :=
  held = .fresh ∨ held = .used

end Pace

/-- A visit follows a look at the flag, and a store a failure. -/
def pacing : Discipline Op Op.Response Pace where
  note := Pace.note
  permits := Pace.permits
  allowed _ _ _ := True
  cut := True

/-- A calm worker may do anything but visit and store. -/
theorem Pace.calm.permits {held : Pace} (isCalm : held.calm) {op : Op}
    (noStore : op ≠ .shared .storeVisitFailed)
    (noVisit : Pace.isVisit op = false) : pacing.permits held op := by
  rcases isCalm with rfl | rfl
  · exact noStore
  · exact ⟨noStore, noVisit⟩

/-- If the call looks at the flag, it sees that it is set. -/
def SeesFlag (event : Event Op Op.Response) : Prop :=
  ∀ thread flag, event = ⟨thread, .shared .loadVisitFailed, flag⟩ →
    flag = true

/-- How many visits a worker can make before it looks at the flag again. -/
def Pace.visits : Pace → Nat
  | .fresh => 1
  | _ => 0

section Flag

variable {environment : Environment} {capacity : Nat}
  {resume : Bool → Option (Action Bool)}

/-- The flag is set after a run when it was set before, or in the run. -/
theorem visitFailed_run
    (pool : Pool (machine environment capacity) Bool)
    (moves : List (Move (machine environment capacity))) :
    (Pool.run resume pool moves).state.visitFailed = true ↔
      pool.state.visitFailed = true ∨
        ∃ event ∈ Pool.log resume pool moves,
          event.op = .shared .storeVisitFailed := by
  induction moves generalizing pool with
  | nil => simp [Pool.run, Pool.log]
  | cons move moves induction =>
      change (Pool.run resume (Pool.step resume pool move)
        moves).state.visitFailed = true ↔ _
      rw [induction, Pool.log]
      cases made : pool.eventOf move with
      | none =>
          have same :
              (Pool.step resume pool move).state.visitFailed =
                pool.state.visitFailed := by
            rcases Pool.eventOf_none resume made with ⟨drift, rfl⟩ | same
            · rfl
            · rw [same]
          rw [same]
          rfl
      | some event =>
          rcases Pool.eventOf_some made with
            ⟨choice, next, rfl, running, _⟩
          rw [Pool.step_call running, visitFailed_handle, or_assoc,
            Option.toList_some, List.singleton_append,
            List.exists_mem_cons_iff]

end Flag

section Parallel

variable {environment : Environment}

variable {memory : List Byte} {workers : Nat}
  {situation : environment.Situation}

/-- The bounds, with the flag set. -/
def halting (config : Config) (listing : Path → Nat) :
    Discipline Op Op.Response Unit where
  note _ _ _ := ()
  permits _ _ := True
  allowed _ op response :=
    Expected config listing op response ∧ SeesFlag ⟨0, op, response⟩
  cut := False

variable {listing : Path → Nat}

/-- A worker goes on with a call, not with a result. -/
theorem settle_settle (program : Action Bool) :
    Pool.settle (workerResume config)
        (Pool.settle (workerResume config) program) =
      Pool.settle (workerResume config) program := by
  cases program with
  | call op next => rfl
  | stuck => rfl
  | ret value =>
      cases value with
      | false => rfl
      | true =>
          change Pool.settle _ (workerTurn config) = workerTurn config
          unfold workerTurn shouldStop
          split <;> rfl

theorem settled_parallelPool :
    Pool.Settled (workerResume config)
      (parallelPool environment config memory workers situation) := by
  intro program member
  rw [List.eq_of_mem_replicate member]
  rfl

/-- The bounds hold, the flag is set, and no worker stands between turns. -/
structure Halting (config : Config) (listing : Path → Nat)
    (pool : Pool (machine environment config.effectiveQueueCapacity)
      Bool) : Prop where
  bounded : BoundedPool config listing pool
  isSet : pool.state.visitFailed = true
  settled : Pool.Settled (workerResume config) pool

theorem Halting.step (finite : FiniteListings environment listing)
    (pool : Pool (machine environment config.effectiveQueueCapacity) Bool)
    (move : Move (machine environment config.effectiveQueueCapacity))
    (isHalting : Halting config listing pool) :
    Halting config listing (Pool.step (workerResume config) pool move) := by
  refine ⟨bounded_step finite
    (boundedParallel config listing).rests_workerResume pool move
    isHalting.bounded, ?_, isHalting.settled.step settle_settle move⟩
  exact (visitFailed_run pool [move]).mpr (Or.inl isHalting.isSet)

theorem Halting.allowed (finite : FiniteListings environment listing)
    (pool : Pool (machine environment config.effectiveQueueCapacity) Bool)
    (choice : environment.Choice × QueueChoice) (held : Unit) (op : Op)
    (isHalting : Halting config listing pool) :
    (halting config listing).allowed held op
      ((machine environment config.effectiveQueueCapacity).handle pool.state
        choice op).1 := by
  refine ⟨bounded_allowed finite pool choice held op isHalting.bounded, ?_⟩
  intro thread flag isLoad
  cases isLoad
  exact isHalting.isSet

end Parallel

/-! ## Both walks -/

section Stops

variable {environment : Environment} {listing : Path → Nat}

end Stops

/-- The file system `r/d/b`, with a visit that always fails. -/
def refusingEnvironment : Environment where
  Situation := Unit
  Choice := Unit
  Change := Empty
  answer
    | _, _, .visit _ => (false, ())
    | _, _, call => (nestedWorld.answer call, ())
  change _ _ := ()

end BcIo.Walk
