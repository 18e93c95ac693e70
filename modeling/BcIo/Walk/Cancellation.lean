import BcIo.Walk.Bounds

/-!
# Cancelling a walk

A sequential walk polls `should_stop_check` before it opens a directory and
before it reads an entry.  A worker of a parallel walk polls it only between two
directories of the queue; a directory that the full queue refuses is walked at
once, without another poll.
-/

namespace BcIo.Walk

open BcIo.File
open BcIo.Foundation.Bookkeeping
open BcIo.Foundation.Interaction
open BcIo.Foundation.WorkerPool

/-- `should_stop_check` looks at the situation and never takes a stop back. -/
structure Cancels (environment : Environment)
    (stop : environment.Situation → Bool) : Prop where
  answers : ∀ situation choice,
    (environment.answer situation choice .shouldStopCheck).1 =
      stop situation
  answer_keeps : ∀ situation choice call, stop situation = true →
    stop (environment.answer situation choice call).2 = true
  change_keeps : ∀ situation change, stop situation = true →
    stop (environment.change situation change) = true

def isOpen : Op → Bool
  | .outside (.openDirectory _ _) => true
  | _ => false

/-- How many directories a thread opens, or tries to. -/
def opensBy (thread : Nat) (events : List (Event Op Op.Response)) : Nat :=
  events.countP fun event => event.thread = thread && isOpen event.op

/-- The queue refuses a directory. -/
def isRefusal : Event Op Op.Response → Bool
  | ⟨_, .shared (.queuePush _), accepted⟩ => !accepted
  | _ => false

/-- How many directories of a thread the queue refuses. -/
def refusalsBy (thread : Nat) (events : List (Event Op Op.Response)) :
    Nat :=
  events.countP fun event => event.thread = thread && isRefusal event

/-! ## The budget of a thread -/

/-- Whether a thread may open a directory after its last poll or refusal. -/
def budgetNote : Bool → (op : Op) → op.Response → Bool
  | _, .outside .shouldStopCheck, stopped => !stopped
  | _, .outside (.openDirectory _ _), _ => false
  | held, .shared (.queuePush _), accepted => held || !accepted
  | held, _, _ => held

def isPush : Op → Bool
  | .shared (.queuePush _) => true
  | _ => false

/--
An opening needs a poll or a refusal of its own; `pushes` says whether there is
a queue to push to.
-/
def budgeting (pushes : Prop) : Discipline Op Op.Response Bool where
  note := budgetNote
  permits held op :=
    (isOpen op = true → held = true) ∧ (isPush op = true → pushes)
  allowed _ _ _ := True
  cut := True

variable {config : Config} {held : Bool} {pushes : Prop}

/-- Everything but an opening and a push is free. -/
theorem free {op : Op} (noOpen : isOpen op = false)
    (noPush : isPush op = false) : (budgeting pushes).permits held op := by
  constructor
  · intro isOpening
    rw [noOpen] at isOpening
    cases isOpening
  · intro isPushing
    rw [noPush] at isPushing
    cases isPushing

/-- A poll that finds no stop allows for one opening. -/
theorem keeps_shouldStop_budgeting
    (checked : config.hasShouldStopCheck = true) :
    Keeps (budgeting pushes) (fun isStopped last => last = !isStopped)
      (shouldStop config) held := by
  rw [shouldStop, if_pos checked]
  exact ⟨free rfl rfl, fun _ _ => rfl⟩

theorem keeps_sequentialHalted_budgeting
    (checked : config.hasShouldStopCheck = true) :
    Keeps (budgeting pushes)
      (fun isHalted last => isHalted = false → last = true)
      (sequentialHalted config) held := by
  refine Keeps.bind (keeps_parallelHalted ⟨free rfl rfl, fun _ => rfl⟩) ?_
  intro flag last _
  cases flag with
  | true => exact fun impossible => Bool.noConfusion impossible
  | false =>
      refine (keeps_shouldStop_budgeting checked).mono ?_
      rintro isStopped _ rfl rfl
      rfl

/--
The outline of the budget.  The two walks differ in when a directory is `ready`:
for the sequential walk at any time, since it polls before it opens.
-/
def budgetOutline (config : Config) (pushes : Prop) (halted : Action Bool)
    (ready : Bool → Prop)
    (looks : ∀ {held}, Keeps (budgeting pushes) (fun _ _ => True) halted held)
    (begins : ∀ {held}, ready held →
      Keeps (budgeting pushes)
        (fun isHalted last => isHalted = false → last = true)
        halted held) : Outline config halted Bool Unit where
  discipline := budgeting pushes
  calm _ := True
  head _ _ := True
  fresh _ _ := True
  seen _ _ := True
  within _ _ := True
  ready _ _ := ready
  opening _ _ held := held = true
  inside _ _ := ()
  fresh_seen := id
  seen_head := id
  seen_calm := id
  ready_head _ := trivial
  ordinary := by
    intro held op _ isOrdinary
    cases op with
    | outside call =>
        cases call with
        | openDirectory path noFollow => cases isOrdinary
        | shouldStopCheck => cases isOrdinary
        | _ =>
            exact ⟨free rfl rfl, fun _ => rfl⟩
    | shared access =>
        cases access with
        | queuePush directory => cases isOrdinary
        | _ =>
            exact ⟨free rfl rfl, fun _ => rfl⟩
  asks _ _ _ :=
    ⟨⟨free rfl rfl, fun _ => rfl⟩,
      ⟨free rfl rfl, fun _ => rfl⟩⟩
  visits _ _ _ :=
    ⟨free rfl rfl, trivial,
      free rfl rfl, trivial⟩
  looks _ := looks.mono fun _ _ _ => ⟨trivial, fun _ => trivial⟩
  begins isReady := (begins isReady).mono fun _ _ may => ⟨trivial, may⟩
  opens may :=
    ⟨⟨fun _ => may, fun impossible => Bool.noConfusion impossible⟩,
      fun _ => trivial, fun _ => trivial, trivial⟩
  closes _ := ⟨free rfl rfl, trivial⟩
  listing _ := 0
  rank _ := 0
  opened := Or.inl trivial
  listed := Or.inl trivial
  nested := Or.inl trivial

def budgetSequential (checked : config.hasShouldStopCheck = true) :
    SequentialOutline config Bool Unit where
  toOutline := budgetOutline config False (sequentialHalted config)
    (fun _ => True)
    ((keeps_sequentialHalted_budgeting checked).mono fun _ _ _ => trivial)
    (fun _ => keeps_sequentialHalted_budgeting checked)
  recurses _ _ _ := trivial

theorem begins_parallel {held : Bool} (may : held = true) :
    Keeps (budgeting pushes)
      (fun isHalted last => isHalted = false → last = true)
      parallelHalted held := by
  refine (keeps_parallelHalted ⟨free rfl rfl, fun _ => rfl⟩).mono ?_
  rintro _ _ rfl _
  exact may

def budgetParallel (checked : config.hasShouldStopCheck = true) :
    ParallelOutline config Bool Unit where
  toOutline := budgetOutline config True parallelHalted
    (fun held => held = true)
    ((keeps_parallelHalted ⟨free rfl rfl, fun _ => rfl⟩).mono
      fun _ _ _ => trivial)
    begins_parallel
  ready_calm _ := trivial
  hands := by
    intro _ _ entry held _ _ _
    refine ⟨free rfl rfl,
      ⟨fun impossible => Bool.noConfusion impossible, fun _ => trivial⟩,
      trivial, free rfl rfl, ?_⟩
    exact Bool.or_true held
  idle _ := True
  starting _ := True
  starts := by
    intro held _
    refine (keeps_workerStart ⟨free rfl rfl, fun _ => rfl⟩
      ⟨free rfl rfl, fun _ => rfl⟩ ⟨free rfl rfl, fun _ => rfl⟩
      fun _ _ _ => ⟨free rfl rfl, fun _ => rfl⟩).mono ?_
    intro _ _ _
    trivial
  polled held := held = true
  polls _ := (keeps_shouldStop_budgeting checked).mono (by
    rintro isStopped _ rfl
    exact ⟨trivial, fun goesOn => by rw [goesOn]; rfl⟩)
  looked held := held = true
  checks may := (begins_parallel may).mono fun _ _ may => ⟨trivial, may⟩
  misses _ :=
    ⟨free rfl rfl,
      free rfl rfl, fun _ => trivial⟩
  takes may _ :=
    ⟨Or.inl trivial, (), may, fun _ _ =>
      ⟨free rfl rfl, trivial⟩⟩

/-! ## The log after a stop -/

/-- If the call polls, it finds that the walk is to stop. -/
def SeesStop (event : Event Op Op.Response) : Prop :=
  ∀ thread stopped, event = ⟨thread, .outside .shouldStopCheck, stopped⟩ →
    stopped = true

/-- A call of a thread, when the walk is to stop. -/
theorem budget_note {event : Event Op Op.Response}
    (permitted : (budgeting pushes).permits held event.op)
    (sees : SeesStop event) :
    (if isOpen event.op = true then 1 else 0) +
        (budgetNote held event.op event.response).toNat ≤
      held.toNat + if isRefusal event = true then 1 else 0 := by
  rcases event with ⟨thread, op, response⟩
  cases op with
  | outside call =>
      cases call with
      | openDirectory path noFollow =>
          rw [permitted.1 rfl]
          exact Nat.le_refl _
      | shouldStopCheck =>
          have isStopped : response = true := sees thread response rfl
          subst isStopped
          exact Nat.zero_le _
      | _ => exact Nat.le_of_eq (Nat.zero_add _)
  | shared access =>
      cases access with
      | queuePush directory =>
          cases response <;> cases held <;>
            simp [isOpen, budgetNote, isRefusal]
      | _ => exact Nat.le_of_eq (Nat.zero_add _)

/-- After a stop a thread opens what its budget and the refusals allow. -/
theorem opensBy_le {thread : Nat} {events : List (Event Op Op.Response)}
    (conforms : Conforms (budgeting pushes) thread held events)
    (sees : ∀ event ∈ events, SeesStop event) :
    opensBy thread events ≤ held.toNat + refusalsBy thread events := by
  induction events generalizing held with
  | nil => exact Nat.zero_le _
  | cons event events induction =>
      rw [List.forall_mem_cons] at sees
      rw [Conforms] at conforms
      rw [opensBy, refusalsBy, List.countP_cons, List.countP_cons]
      split at conforms
      · rename_i isThread
        rcases conforms with ⟨permitted, _, continues⟩
        have rest := induction continues sees.2
        have here := budget_note permitted sees.1
        simp only [isThread, decide_true, Bool.true_and]
        rw [opensBy, refusalsBy] at rest
        change _ ≤ (budgetNote held event.op event.response).toNat + _ at rest
        omega
      · rename_i isOther
        have rest := induction conforms sees.2
        simp only [isOther, decide_false, Bool.false_and,
          Bool.false_eq_true, if_false, Nat.add_zero]
        exact rest

section Stop

variable {environment : Environment} {stop : environment.Situation → Bool}
  {resume : Bool → Option (Action Bool)} {capacity : Nat}

/-- A stop is not taken back by what a walk does. -/
theorem stop_handle (cancels : Cancels environment stop)
    {state : State environment.Situation}
    (stopped : stop state.situation = true)
    (choice : environment.Choice × QueueChoice) (op : Op) :
    stop ((machine environment capacity).handle state choice
      op).2.situation = true := by
  cases op with
  | outside call => exact cancels.answer_keeps _ _ _ stopped
  | shared access =>
      cases access with
      | queuePush directory =>
          simp only [respond, touch]
          split <;> exact stopped
      | _ => exact stopped

/-- The walk is to stop. -/
def Stopped (stop : environment.Situation → Bool)
    (pool : Pool (machine environment capacity) Bool) : Prop :=
  stop pool.state.situation = true

theorem Stopped.step (cancels : Cancels environment stop)
    (pool : Pool (machine environment capacity) Bool)
    (move : Move (machine environment capacity))
    (stopped : Stopped stop pool) :
    Stopped stop (Pool.step resume pool move) := by
  rcases Pool.step_cases pool move with
    ⟨drift, _, stepped⟩ | ⟨thread, choice, op, next, _, _, stepped⟩ | same
  · rw [stepped]
    exact cancels.change_keeps _ _ stopped
  · rw [stepped]
    exact stop_handle cancels stopped choice op
  · rw [same]
    exact stopped

theorem seesStop_log (cancels : Cancels environment stop)
    {pool : Pool (machine environment capacity) Bool}
    (stopped : Stopped stop pool)
    (moves : List (Move (machine environment capacity))) :
    ∀ event ∈ Pool.log resume pool moves, SeesStop event := by
  intro event logged
  rcases Pool.response_of_logged resume logged with
    ⟨earlier, choice, response⟩
  rintro thread answer rfl
  have still : Stopped stop (Pool.run resume pool earlier) :=
    Pool.run_invariant (Stopped.step cancels) stopped earlier
  exact response.trans ((cancels.answers _ _).trans still)

theorem upholds_budgeting {α : Type} :
    Noted.Upholds (α := α) (budgeting pushes) (fun _ _ => True)
      (fun (_ : (machine environment capacity).State) _ => True) where
  turn _ _ _ _ _ := ⟨trivial, trivial⟩
  drift _ _ := trivial

/--
However far a pool has come when the walk is to stop: each thread opens at most
one directory more than the queue refuses.
-/
theorem opensBy_log_le (cancels : Cancels environment stop)
    {waiting : Bool → Bool → Prop}
    (resumes : Noted.Resumes (budgeting pushes) resume waiting)
    {noted : Noted (machine environment capacity) Bool Bool}
    (sound : Noted.Sound (budgeting pushes) waiting (fun _ _ => True) noted)
    (earlier later : List (Move (machine environment capacity)))
    (stopped : Stopped stop (Pool.run resume noted.pool earlier))
    (thread : Nat) :
    opensBy thread
        (Pool.log resume (Pool.run resume noted.pool earlier) later) ≤
      1 + refusalsBy thread
        (Pool.log resume (Pool.run resume noted.pool earlier) later) := by
  have sees :
      ∀ event ∈ Pool.log resume (Pool.run resume noted.pool earlier) later,
        SeesStop event :=
    seesStop_log cancels stopped later
  have reached :=
    sound.run resumes upholds_budgeting
      (Noted.each_of_forall noted earlier fun _ _ _ => trivial)
  have pools := Noted.run_pool (budgeting pushes) resume noted earlier
  cases found :
      (Noted.run (budgeting pushes) resume noted earlier).notes[thread]? with
  | some held =>
      have conforms :=
        reached.conforms resumes upholds_budgeting
          (Noted.each_of_forall _ later fun _ _ _ => trivial) found
      rw [pools] at conforms
      have few := opensBy_le conforms sees
      have small := Bool.toNat_le held
      omega
  | none =>
      -- no such thread
      have none_ :
          opensBy thread
            (Pool.log resume (Pool.run resume noted.pool earlier) later) =
              0 := by
        rw [opensBy, List.countP_eq_zero]
        intro event logged isOpening
        have isThread := Pool.log_thread resume logged
        have lengths := reached.orderly.length_eq
        have outside := List.getElem?_eq_none_iff.mp found
        rw [pools] at lengths
        simp only [Bool.and_eq_true, decide_eq_true_eq] at isOpening
        omega
      omega

end Stop

theorem keeps_walkSequential_budgeting
    (checked : config.hasShouldStopCheck = true) :
    Keeps (budgeting False) (fun _ _ => True) (walkSequential config)
      held := by
  unfold walkSequential
  cases usableRoot config with
  | none => trivial
  | some memory =>
      have ends :
          (budgetSequential checked).Ends ()
            (sequentialRecurse config maxPathLength
              (sequentialRoot config memory)) held :=
        SequentialOutline.ends_sequentialRecurse (Or.inl trivial) trivial
      refine Keeps.bind ends ?_
      intro _ _ _
      exact ⟨free rfl rfl, fun _ _ => trivial⟩

/-- Where there is nothing to push to, nothing is refused. -/
theorem refusalsBy_eq_zero {environment : Environment} {capacity : Nat}
    {resume : Bool → Option (Action Bool)} {waiting : Bool → Bool → Prop}
    (resumes : Noted.Resumes (budgeting False) resume waiting)
    {noted : Noted (machine environment capacity) Bool Bool}
    (sound : Noted.Sound (budgeting False) waiting (fun _ _ => True) noted)
    (moves : List (Move (machine environment capacity))) (thread : Nat) :
    refusalsBy thread (Pool.log resume noted.pool moves) = 0 := by
  rw [refusalsBy, List.countP_eq_zero]
  intro event logged isRefused
  rcases sound.permitted resumes upholds_budgeting
      (Noted.each_of_forall _ moves fun _ _ _ => trivial) logged with
    ⟨held, _, noPush⟩
  apply noPush
  rcases event with ⟨own, op, response⟩
  cases op with
  | outside call => simp [isRefusal] at isRefused
  | shared access =>
      cases access with
      | queuePush directory => rfl
      | _ => simp [isRefusal] at isRefused

/--
After `should_stop_check` has become true, the thread of a sequential walk opens
at most one more directory, and so does each worker of a parallel walk from
which the queue refuses no directory.
-/
theorem cancellation_prompt {environment : Environment}
    {stop : environment.Situation → Bool}
    (checked : config.hasShouldStopCheck = true)
    (cancels : Cancels environment stop)
    (situation : environment.Situation) :
    (∀ earlier later,
      Stopped stop (Pool.run sequentialResume
        (sequentialPool environment config situation) earlier) →
      ∀ thread,
        opensBy thread (Pool.log sequentialResume
          (Pool.run sequentialResume
            (sequentialPool environment config situation) earlier)
          later) ≤ 1) ∧
      ∀ workers pool,
        dispatchParallel environment config workers situation =
          some pool →
        ∀ earlier later,
          Stopped stop (Pool.run (workerResume config) pool earlier) →
          ∀ thread,
            refusalsBy thread (Pool.log (workerResume config)
              (Pool.run (workerResume config) pool earlier) later) = 0 →
            opensBy thread (Pool.log (workerResume config)
              (Pool.run (workerResume config) pool earlier) later) ≤ 1 := by
  constructor
  · intro earlier later stopped thread
    have sound :
        Noted.Sound (budgeting False) (fun _ _ => True) (fun _ _ => True)
          ⟨sequentialPool environment config situation, [false]⟩ :=
      ⟨.cons (keeps_walkSequential_budgeting checked) .nil, trivial⟩
    have few :=
      opensBy_log_le cancels resumes_sequential sound earlier later stopped
        thread
    have reached :=
      sound.run resumes_sequential upholds_budgeting
        (Noted.each_of_forall _ earlier fun _ _ _ => trivial)
    have unrefused :=
      refusalsBy_eq_zero resumes_sequential reached later thread
    rw [Noted.run_pool] at unrefused
    rw [unrefused] at few
    exact few
  · intro workers pool dispatched earlier later stopped thread unrefused
    rcases dispatchParallel_some dispatched with ⟨memory, usable, rfl⟩
    have sound :
        Noted.Sound (budgeting True) (fun _ _ => True) (fun _ _ => True)
          ⟨parallelPool environment config memory workers situation,
            List.replicate workers false⟩ :=
      ⟨(budgetParallel checked).orderly_parallelPool trivial workers
        situation, trivial⟩
    have few :=
      opensBy_log_le cancels (budgetParallel checked).rests_workerResume
        sound earlier later stopped thread
    rw [unrefused] at few
    exact few

/-- A byte that is a name of its own. -/
structure IsLetter (letter : Byte) : Prop where
  noSlash : slash ∉ [letter]
  noNul : (0 : Byte) ∉ [letter]
  notSpecial : [letter] ≠ [dot] ∧ [letter] ≠ [dot, dot]

/-- The record of a directory with a name of one letter. -/
def letterDirectory (letter : Byte) (isLetter : IsLetter letter) : Dirent :=
  ⟨⟨[letter], by simp, isLetter.noSlash, isLetter.noNul,
    isLetter.notSpecial, by simp⟩, dtDir⟩

/-- The file system with `r/a`, `r/b` and `r/c`, all of them empty directories. -/
def wideWorld : World where
  openError _ _ := none
  listing path :=
    if path = [114] then
      ⟨[letterDirectory 97 ⟨by decide, by decide, by decide⟩,
        letterDirectory 98 ⟨by decide, by decide, by decide⟩,
        letterDirectory 99 ⟨by decide, by decide, by decide⟩], none⟩
    else
      ⟨[], none⟩
  stat _ _ _ := .ok ⟨1, 2, 4096, 0o040755, 5⟩
  filter _ := true
  shouldDescend _ := true

def wideConfig : Config where
  root := some [114, 0]
  rootLength := 1
  hasMainMemoryContext := true
  hasConcurrencyContext := true
  hasShouldStopCheck := true
  queueCapacity := 1
  followSymlinks := false
  includeHidden := false
  hasFilter := false
  hasShouldDescend := false
  hasVisit := true
  hasOnError := false

/-- `wideWorld`, with a stop that can be asked for at any time. -/
abbrev cancellingEnvironment : Environment where
  Situation := Bool
  Choice := Unit
  Change := Unit
  answer
    | stopped, _, .shouldStopCheck => (stopped, stopped)
    | stopped, _, call => (wideWorld.answer call, stopped)
  change _ _ := true

theorem cancels_cancelling : Cancels cancellingEnvironment id where
  answers _ _ := rfl
  answer_keeps := by
    intro situation _ call stopped
    cases call <;> exact stopped
  change_keeps _ _ _ := rfl

/-- A worker that is asked to stop when it has opened `r` and listed `r/a`. -/
theorem cancellation_prompt_wide :
    opensBy 0 (Pool.log (workerResume wideConfig)
      (Pool.run (workerResume wideConfig)
        (parallelPool cancellingEnvironment wideConfig [114, 0] 1 false)
        (List.replicate 6 (.turn 0 ((), ⟨false, 0⟩)) ++ [.drift ()]))
      (List.replicate 8 (.turn 0 ((), ⟨false, 0⟩)))) ≤ 1 := by
  refine (cancellation_prompt rfl cancels_cancelling false).2 1 _ rfl _ _ ?_
    0 ?_
  · change (_ : Bool) = true
    decide +kernel
  · decide +kernel

/-- A worker that is asked to stop when it has opened `r`. -/
def stoppedWorker : Pool (machine cancellingEnvironment
    wideConfig.effectiveQueueCapacity) Bool :=
  Pool.run (workerResume wideConfig)
    (parallelPool cancellingEnvironment wideConfig [114, 0] 1 false)
    (List.replicate 6 (.turn 0 ((), ⟨false, 0⟩)) ++ [.drift ()])

/-- It then opens `r/b` and `r/c`, which do not fit in the queue. -/
theorem cancellation_not_prompt :
    Stopped id stoppedWorker ∧
      ¬ opensBy 0 (Pool.log (workerResume wideConfig) stoppedWorker
        (List.replicate 40 (.turn 0 ((), ⟨false, 0⟩)))) ≤ 1 := by
  have isStopped : stoppedWorker.state.situation = true := by
    decide +kernel
  refine ⟨isStopped, ?_⟩
  decide +kernel

end BcIo.Walk
