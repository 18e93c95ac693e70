import BcIo.Walk.Agreement
import BcIo.Walk.Outline

/-!
# The count of outstanding directories

A worker leaves its loop when it finds the queue empty and then reads zero from
`outstanding_directory_count`.  The count is that of the queued directories, of
those that workers have popped and still process, and of the pushes that are
under way, as long as it fits in an `int`.
-/

namespace BcIo.Walk

open BcIo.File
open BcIo.Foundation.Aggregate
open BcIo.Foundation.Bookkeeping
open BcIo.Foundation.Interaction
open BcIo.Foundation.WorkerPool

/-! ## What a worker is at -/

/-- Whether a worker processes a popped directory, and is pushing another. -/
inductive Duty where
  | idle
  | processing
  /-- The count has been raised, and the push or its undoing is to come. -/
  | pushing
  deriving DecidableEq, Repr

namespace Duty

def note : Duty → (op : Op) → op.Response → Duty
  | held, .shared .queuePop, popped =>
      match popped with
      | some _ => .processing
      | none => held
  | _, .shared .raiseOutstanding, _ => .pushing
  | held, .shared (.queuePush _), accepted =>
      match accepted with
      | true => .processing
      | false => held
  | _, .shared .undoOutstanding, _ => .processing
  | _, .shared .finishOutstanding, _ => .idle
  | held, _, _ => held

def permits : Duty → Op → Prop
  | held, .shared .queuePop => held = .idle
  | held, .shared .raiseOutstanding => held = .processing
  | held, .shared (.queuePush _) => held = .pushing
  | held, .shared .undoOutstanding => held = .pushing
  | held, .shared .finishOutstanding => held = .processing
  | _, _ => True

/-- The worker has popped a directory that it still processes. -/
def busy : Duty → Bool
  | .idle => false
  | _ => true

/-- The worker has raised the count for a push. -/
def pending : Duty → Bool
  | .pushing => true
  | _ => false

/-- What the worker counts for. -/
def size (duty : Duty) : Nat :=
  duty.busy.toNat + duty.pending.toNat

end Duty

/-- A push follows a raise, and only a busy worker raises. -/
def counting : Discipline Op Op.Response Duty where
  note := Duty.note
  permits := Duty.permits
  allowed _ _ _ := True
  cut := True

variable {config : Config}

/-- At all stages of a directory the worker is processing it. -/
def countingOutline (config : Config) :
    ParallelOutline config Duty Unit where
  discipline := counting
  calm _ := True
  head _ held := held = .processing
  fresh _ held := held = .processing
  seen _ held := held = .processing
  within _ _ := True
  ready _ _ held := held = .processing
  opening _ _ held := held = .processing
  inside _ _ := ()
  fresh_seen := id
  seen_head := id
  seen_calm _ := trivial
  ready_head := id
  ready_calm _ := trivial
  ordinary := by
    intro held op _ isOrdinary
    cases op with
    | outside call => exact ⟨trivial, fun _ => rfl⟩
    | shared access =>
        cases access with
        | count counter => exact ⟨trivial, fun _ => rfl⟩
        | _ => cases isOrdinary
  asks _ _ _ := ⟨⟨trivial, fun _ => rfl⟩, ⟨trivial, fun _ => rfl⟩⟩
  visits _ _ isFresh := ⟨trivial, isFresh, trivial, isFresh⟩
  looks := by
    rintro _ _ rfl
    refine (keeps_parallelHalted ⟨trivial, fun _ => rfl⟩).mono ?_
    rintro _ _ rfl
    exact ⟨rfl, fun _ => rfl⟩
  begins := by
    rintro _ _ _ rfl
    refine (keeps_parallelHalted ⟨trivial, fun _ => rfl⟩).mono ?_
    rintro _ _ rfl
    exact ⟨rfl, fun _ => rfl⟩
  opens isOpening :=
    ⟨trivial, fun _ => isOpening, fun _ => isOpening, trivial⟩
  closes isHead := ⟨trivial, isHead⟩
  listing _ := 0
  rank _ := 0
  opened := Or.inl trivial
  listed := Or.inl trivial
  nested := Or.inl trivial
  hands _ _ isSeen := ⟨isSeen, rfl, rfl, rfl, rfl⟩
  idle held := held = .idle
  starting held := held = .idle
  starts := by
    rintro _ rfl
    exact keeps_workerStart ⟨trivial, fun _ => rfl⟩
      ⟨trivial, fun _ => rfl⟩ ⟨trivial, fun _ => rfl⟩
      fun _ _ _ => ⟨trivial, fun _ => rfl⟩
  polled held := held = .idle
  polls := by
    rintro _ rfl
    refine (keeps_shouldStop ⟨trivial, fun _ => rfl⟩).mono ?_
    rintro _ _ rfl
    exact ⟨rfl, fun _ => rfl⟩
  looked held := held = .idle
  checks := by
    rintro _ rfl
    refine (keeps_parallelHalted ⟨trivial, fun _ => rfl⟩).mono ?_
    rintro _ _ rfl
    exact ⟨rfl, fun _ => rfl⟩
  misses := by
    rintro _ rfl
    exact ⟨rfl, trivial, fun _ => rfl⟩
  takes := by
    rintro _ directory rfl _
    refine ⟨Or.inl trivial, (), rfl, ?_⟩
    rintro _ rfl
    exact ⟨rfl, rfl⟩

/-! ## The count -/

/-- Queued directories, processed ones, and pushes under way. -/
def outstandingOf {Situation : Type} (state : State Situation)
    (duties : List Duty) : Nat :=
  state.queue.length + (duties.map Duty.size).sum

section Count

variable {environment : Environment} {capacity : Nat}

/-- A pop takes one directory from the queue, if there is one. -/
theorem queuePop_cases (capacity : Nat)
    (state : State environment.Situation)
    (choice : environment.Choice × QueueChoice) :
    (state.queue = [] ∧
        ((machine environment capacity).handle state choice
          (.shared .queuePop)).1 = none ∧
        ((machine environment capacity).handle state choice
          (.shared .queuePop)).2.queue = []) ∨
      ∃ directory,
        ((machine environment capacity).handle state choice
            (.shared .queuePop)).1 = some directory ∧
          ((machine environment capacity).handle state choice
            (.shared .queuePop)).2.queue.length + 1 =
            state.queue.length := by
  cases empty : state.queue with
  | nil =>
      refine Or.inl ⟨rfl, ?_, ?_⟩ <;> simp [respond, touch, empty]
  | cons first rest =>
      have positive : 0 < state.queue.length := by
        rw [empty]
        exact Nat.succ_pos _
      have inside := Nat.mod_lt choice.2.position positive
      refine Or.inr ⟨state.queue[choice.2.position % state.queue.length],
        List.getElem?_eq_getElem inside, ?_⟩
      change (state.queue.eraseIdx _).length + 1 = _
      rw [List.length_eraseIdx_of_lt inside, ← empty]
      omega

/-- A permitted call changes what is outstanding as it changes the count. -/
theorem outstanding_duty (capacity : Nat)
    (state : State environment.Situation)
    (choice : environment.Choice × QueueChoice) {held : Duty} {op : Op}
    (permitted : counting.permits held op) :
    (((machine environment capacity).handle state choice
            op).2.queue.length : Int) +
        (counting.note held op
          ((machine environment capacity).handle state choice
            op).1).size =
      state.queue.length + held.size - lowering op := by
  have unchanged :
      lowering op = 0 →
        ((machine environment capacity).handle state choice op).2.queue =
          state.queue →
        counting.note held op
          ((machine environment capacity).handle state choice op).1 =
          held →
        (((machine environment capacity).handle state choice
                op).2.queue.length : Int) +
            (counting.note held op
              ((machine environment capacity).handle state choice
                op).1).size =
          state.queue.length + held.size - lowering op := by
    intro free sameQueue sameDuty
    rw [free, sameQueue, sameDuty, Int.sub_zero]
  cases op with
  | outside call => exact unchanged rfl rfl rfl
  | shared access =>
      cases access with
      | queuePop =>
          cases permitted
          rcases queuePop_cases capacity state choice with
            ⟨empty, missed, still⟩ | ⟨directory, popped, shorter⟩
          · rw [missed, still, empty]
            rfl
          · rw [popped]
            change _ + ((1 : Nat) : Int) = _ + ((0 : Nat) : Int) - 0
            omega
      | queuePush directory =>
          cases permitted
          simp only [respond, touch]
          split
          · rw [List.length_append]
            change ((_ + 1 : Nat) : Int) + ((1 : Nat) : Int) =
              _ + ((2 : Nat) : Int) - 0
            omega
          · rfl
      | raiseOutstanding =>
          cases permitted
          change _ + ((2 : Nat) : Int) = _ + ((1 : Nat) : Int) - -1
          simp only [respond, touch]
          omega
      | undoOutstanding =>
          cases permitted
          change _ + ((1 : Nat) : Int) = _ + ((2 : Nat) : Int) - 1
          simp only [respond, touch]
          omega
      | finishOutstanding =>
          cases permitted
          change _ + ((0 : Nat) : Int) = _ + ((1 : Nat) : Int) - 1
          simp only [respond, touch]
          omega
      | _ => exact unchanged rfl rfl rfl

/-- `INT_MAX`. -/
def intMax : Int := 2 ^ 31 - 1

theorem wrapInt_of_le {value : Int} (nonneg : 0 ≤ value)
    (small : value ≤ intMax) : wrapInt value = value := by
  unfold intMax at small
  exact Int.bmod_eq_of_le (by omega) (by omega)

/-- The count is what is outstanding. -/
def Exact (state : State environment.Situation) (duties : List Duty) :
    Prop :=
  state.outstanding = outstandingOf state duties ∧
    state.outstanding ≤ intMax

/--
The step does not raise the count past what an `int` can hold: a thread that is
about to raise it finds less than `INT_MAX`.
-/
def Unsaturated {ν : Type}
    (noted : Noted (machine environment capacity) Bool ν)
    (move : Move (machine environment capacity)) : Prop :=
  ∀ thread choice next, move = .turn thread choice →
    noted.pool.threads[thread]? =
      some (.call (.shared .raiseOutstanding) next) →
    noted.pool.state.outstanding < intMax

/-- Only a raise adds to the count. -/
theorem lowering_nonneg {op : Op}
    (noRaise : op ≠ .shared .raiseOutstanding) : 0 ≤ lowering op := by
  cases op with
  | outside call => exact Int.le_refl _
  | shared access =>
      cases access with
      | raiseOutstanding => exact absurd rfl noRaise
      | _ => simp [lowering]

/-- What is outstanding after a permitted call of one of the workers. -/
theorem outstandingOf_handle (capacity : Nat)
    (state : State environment.Situation)
    (choice : environment.Choice × QueueChoice) {duties : List Duty}
    {thread : Nat} {held : Duty} {op : Op} (found : duties[thread]? = some held)
    (permitted : counting.permits held op) :
    (outstandingOf
        ((machine environment capacity).handle state choice op).2
        (duties.set thread
          (counting.note held op
            ((machine environment capacity).handle state choice
              op).1)) : Int) =
      outstandingOf state duties - lowering op := by
  rcases sum_map_set Duty.size found
      (counting.note held op
        ((machine environment capacity).handle state choice op).1) with
    ⟨others, before, after⟩
  have changed := outstanding_duty capacity state choice permitted
  unfold outstandingOf
  rw [before, after]
  omega

theorem upholds_exact :
    Noted.Upholds counting
      (fun (noted : Noted (machine environment capacity) Bool Duty) move =>
        Unsaturated noted move)
      Exact where
  turn := by
    intro noted thread choice op next held isExact running found permitted
      unsaturated
    refine ⟨trivial, ?_⟩
    rcases isExact with ⟨count, small⟩
    have nonneg : (0 : Int) ≤ outstandingOf noted.pool.state noted.notes :=
      Int.natCast_nonneg _
    have counted :
        noted.pool.state.outstanding =
          wrapInt (outstandingOf noted.pool.state noted.notes) := by
      rw [wrapInt_of_le nonneg (by rw [← count]; exact small)]
      exact count
    have changed :=
      outstanding_handle environment capacity counted choice op
    have after :=
      outstandingOf_handle capacity noted.pool.state choice found permitted
    have nonnegAfter :
        (0 : Int) ≤
          outstandingOf noted.pool.state noted.notes - lowering op := by
      rw [← after]
      exact Int.natCast_nonneg _
    have smallAfter :
        (outstandingOf noted.pool.state noted.notes : Int) - lowering op ≤
          intMax := by
      by_cases isRaise : op = .shared .raiseOutstanding
      · subst isRaise
        have room := unsaturated thread choice next rfl running
        change _ - (-1 : Int) ≤ _
        omega
      · have lowers := lowering_nonneg isRaise
        omega
    rw [wrapInt_of_le nonnegAfter smallAfter] at changed
    refine ⟨changed.trans after.symm, ?_⟩
    rw [changed]
    exact smallAfter
  drift := by
    intro noted drift isExact _
    exact isExact

/-! ## Nothing left to do -/

/-- Nothing is queued, and no worker is at a directory. -/
def Done (state : State environment.Situation) (duties : List Duty) :
    Prop :=
  state.queue = [] ∧ ∀ duty ∈ duties, duty = .idle

theorem Duty.size_eq_zero {duty : Duty} : duty.size = 0 ↔ duty = .idle := by
  cases duty <;> decide

theorem done_iff {state : State environment.Situation} {duties : List Duty} :
    outstandingOf state duties = 0 ↔ Done state duties := by
  unfold outstandingOf Done
  rw [Nat.add_eq_zero_iff, List.length_eq_zero_iff,
    List.sum_eq_zero_iff_forall_eq_nat]
  simp [Duty.size_eq_zero]

/-- An idle worker that finds nothing in the queue stays idle. -/
theorem upholds_done :
    Noted.Upholds (α := Bool) counting (fun _ _ => True)
      (fun (state : (machine environment capacity).State) duties =>
        Done state duties) where
  turn := by
    rintro noted thread choice op next held ⟨empty, allIdle⟩ running found
      permitted _
    refine ⟨trivial, ?_⟩
    have isIdle := allIdle held (List.mem_of_getElem? found)
    subst isIdle
    have nothing : outstandingOf noted.pool.state noted.notes = 0 :=
      done_iff.mpr ⟨empty, allIdle⟩
    have noRaise : op ≠ .shared .raiseOutstanding := by
      rintro rfl
      cases permitted
    have lowers := lowering_nonneg noRaise
    have after :=
      outstandingOf_handle capacity noted.pool.state choice found permitted
    rw [← done_iff]
    omega
  drift := by
    intro noted drift done _
    exact done

end Count

/-! ## Termination detection -/

/-- The parts of the sum, one by one. -/
theorem sum_size (duties : List Duty) :
    (duties.map Duty.size).sum =
      duties.countP Duty.busy + duties.countP Duty.pending := by
  induction duties with
  | nil => rfl
  | cons duty duties induction =>
      rw [List.map_cons, List.sum_cons, induction, List.countP_cons,
        List.countP_cons]
      cases duty <;> simp [Duty.size, Duty.busy, Duty.pending] <;> omega

/-- The count tells what is left to do. -/
structure Detects {environment : Environment} {capacity : Nat}
    (noted : Noted (machine environment capacity) Bool Duty) : Prop where
  count : noted.pool.state.outstanding =
    noted.pool.state.queue.length + noted.notes.countP Duty.busy +
      noted.notes.countP Duty.pending
  nonneg : 0 ≤ noted.pool.state.outstanding
  live : 0 < noted.pool.state.outstanding →
    noted.pool.state.queue ≠ [] ∨
      ∃ duty ∈ noted.notes, duty.busy = true ∨ duty.pending = true

theorem Exact.detects {environment : Environment} {capacity : Nat}
    {noted : Noted (machine environment capacity) Bool Duty}
    (isExact : Exact noted.pool.state noted.notes) : Detects noted := by
  have count := isExact.1
  refine ⟨?_, ?_, ?_⟩
  · rw [count, outstandingOf, sum_size]
    push_cast
    omega
  · rw [count]
    exact Int.natCast_nonneg _
  · intro positive
    by_contra nothing
    rw [not_or, not_not] at nothing
    have done : Done noted.pool.state noted.notes := by
      refine ⟨nothing.1, ?_⟩
      intro duty member
      by_contra isBusy
      refine nothing.2 ⟨duty, member, Or.inl ?_⟩
      cases duty with
      | idle => exact absurd rfl isBusy
      | processing => rfl
      | pushing => rfl
    rw [count, done_iff.mpr done] at positive
    exact absurd positive (Int.lt_irrefl 0)

section Runs

variable {environment : Environment} {workers : Nat}
  {situation : environment.Situation}
  {pool : Pool (machine environment config.effectiveQueueCapacity) Bool}

theorem sound_counting
    (dispatched :
      dispatchParallel environment config workers situation = some pool) :
    Noted.Sound counting (fun _ last => last = .idle) Exact
      ⟨pool, List.replicate workers .idle⟩ := by
  rcases dispatchParallel_some dispatched with ⟨memory, usable, rfl⟩
  refine ⟨(countingOutline config).orderly_parallelPool rfl workers
    situation, ?_, ?_⟩
  · change (1 : Int) = ((1 + _ : Nat) : Int)
    rw [List.map_replicate, List.sum_replicate]
    simp [Duty.size, Duty.busy, Duty.pending]
  · change (1 : Int) ≤ intMax
    decide

/-- Once nothing is left to do, nothing ever is. -/
theorem done_later
    {noted : Noted (machine environment config.effectiveQueueCapacity) Bool
      Duty}
    (orderly : Noted.Orderly counting (fun _ last => last = .idle) noted)
    (done : Done noted.pool.state noted.notes)
    (moves : List (Move (machine environment
      config.effectiveQueueCapacity))) :
    Done
      (Noted.run counting (workerResume config) noted moves).pool.state
      (Noted.run counting (workerResume config) noted moves).notes := by
  have sound :
      Noted.Sound counting (fun _ last => last = .idle) Done noted :=
    ⟨orderly, done⟩
  exact (sound.run (countingOutline config).rests_workerResume upholds_done
    (Noted.each_of_forall _ moves fun _ _ _ => trivial)).property

/--
Termination detection is sound in every run that does not raise the count past
`INT_MAX`: the count is exact, and once a worker has read zero from it, there is
nothing left to do, then and later.
-/
theorem termination_detected
    (dispatched :
      dispatchParallel environment config workers situation = some pool)
    {moves : List (Move (machine environment
      config.effectiveQueueCapacity))}
    (each : Noted.Each counting (workerResume config) Unsaturated
      ⟨pool, List.replicate workers .idle⟩ moves) :
    Detects
        (Noted.run counting (workerResume config)
          ⟨pool, List.replicate workers .idle⟩ moves) ∧
      ∀ before thread after,
        Pool.log (workerResume config) pool moves =
          before ++
            ⟨thread, .shared .loadOutstanding, (0 : Int)⟩ :: after →
        Done
          (Noted.run counting (workerResume config)
            ⟨pool, List.replicate workers .idle⟩ moves).pool.state
          (Noted.run counting (workerResume config)
            ⟨pool, List.replicate workers .idle⟩ moves).notes := by
  have sound := sound_counting dispatched
  constructor
  · exact (sound.run (countingOutline config).rests_workerResume
      upholds_exact each).property.detects
  · intro before thread after logged
    rcases Pool.log_split _ logged with
      ⟨earlier, move, later, rfl, _, made, _⟩
    rw [Noted.each_append] at each
    have reached :=
      sound.run (countingOutline config).rests_workerResume upholds_exact
        each.1
    rw [Noted.run_append]
    -- the worker reads the count as it is
    have nothing :
        (Pool.run (workerResume config) pool earlier).state.outstanding =
          0 := by
      rcases Pool.eventOf_some made with ⟨choice, next, _, _, response⟩
      exact response.symm
    have done :
        Done
          (Noted.run counting (workerResume config)
            ⟨pool, List.replicate workers .idle⟩ earlier).pool.state
          (Noted.run counting (workerResume config)
            ⟨pool, List.replicate workers .idle⟩ earlier).notes := by
      have count := reached.property.1
      rw [Noted.run_pool, nothing] at count
      rw [← done_iff, Noted.run_pool]
      exact Int.natCast_eq_zero.mp count.symm
    exact done_later reached.orderly done _

/-! ## Queues that are not too large -/

/-- The invariant of walks whose queue is far from `INT_MAX`. -/
structure Roomy (config : Config) (workers : Nat)
    (noted : Noted (machine environment config.effectiveQueueCapacity) Bool
      Duty) : Prop where
  sound : Noted.Sound counting (fun _ last => last = .idle) Exact noted
  queue : noted.pool.state.queue.length ≤ config.effectiveQueueCapacity
  duties : noted.notes.length = workers

theorem length_queue_handle {capacity : Nat}
    {state : State environment.Situation}
    (choice : environment.Choice × QueueChoice) (op : Op)
    (fits : state.queue.length ≤ capacity) :
    ((machine environment capacity).handle state choice
      op).2.queue.length ≤ capacity := by
  cases op with
  | outside call => exact fits
  | shared access =>
      cases access with
      | queuePush directory =>
          simp only [respond, touch]
          split
          · rename_i room
            rw [List.length_append]
            exact room.1
          · exact fits
      | queuePop =>
          exact Nat.le_trans (List.length_eraseIdx_le _ _) fits
      | _ => exact fits

/-- A worker that is about to raise the count leaves room for that. -/
theorem Roomy.unsaturated
    (small : config.effectiveQueueCapacity + 2 * workers ≤ intMax)
    {noted : Noted (machine environment config.effectiveQueueCapacity) Bool
      Duty} (roomy : Roomy config workers noted)
    (move : Move (machine environment config.effectiveQueueCapacity)) :
    Unsaturated noted move := by
  intro thread choice next _ running
  rcases roomy.sound.orderly.turn
      (countingOutline config).rests_workerResume running with
    ⟨held, found, permitted, _⟩
  cases permitted
  rcases sum_map_set Duty.size found .pushing with ⟨others, before, after⟩
  have most :
      ((noted.notes.set thread .pushing).map Duty.size).sum ≤
        2 * workers := by
    have busy := List.countP_le_length (p := Duty.busy)
      (l := noted.notes.set thread .pushing)
    have pending := List.countP_le_length (p := Duty.pending)
      (l := noted.notes.set thread .pushing)
    rw [List.length_set, roomy.duties] at busy pending
    rw [sum_size]
    omega
  have raised : Duty.size .pushing = Duty.size .processing + 1 := rfl
  have queue := roomy.queue
  rw [roomy.sound.property.1, outstandingOf]
  omega

theorem Roomy.step
    (small : config.effectiveQueueCapacity + 2 * workers ≤ intMax)
    {noted : Noted (machine environment config.effectiveQueueCapacity) Bool
      Duty} (roomy : Roomy config workers noted)
    (move : Move (machine environment config.effectiveQueueCapacity)) :
    Roomy config workers
      (Noted.step counting (workerResume config) noted move) := by
  refine ⟨roomy.sound.step (countingOutline config).rests_workerResume
    upholds_exact (roomy.unsaturated small move), ?_, ?_⟩
  · rcases Pool.step_cases noted.pool move with
      ⟨drift, _, stepped⟩ | ⟨thread, choice, op, next, _, _, stepped⟩ | same
    · rw [Noted.step, stepped]
      exact roomy.queue
    · rw [Noted.step, stepped]
      exact length_queue_handle choice op roomy.queue
    · rw [Noted.step, same]
      exact roomy.queue
  · rw [Noted.step, Noted.length_notesAfter]
    exact roomy.duties

/-- With few enough workers and places in the queue, no run is saturated. -/
theorem each_unsaturated
    (small : config.effectiveQueueCapacity + 2 * workers ≤ intMax)
    (dispatched :
      dispatchParallel environment config workers situation = some pool)
    (moves : List (Move (machine environment
      config.effectiveQueueCapacity))) :
    Noted.Each counting (workerResume config) Unsaturated
      ⟨pool, List.replicate workers .idle⟩ moves := by
  have starts :
      Roomy config workers
        (⟨pool, List.replicate workers .idle⟩ :
          Noted (machine environment config.effectiveQueueCapacity) Bool
            Duty) := by
    refine ⟨sound_counting dispatched, ?_, List.length_replicate⟩
    rcases dispatchParallel_some dispatched with ⟨memory, _, rfl⟩
    change 1 ≤ config.effectiveQueueCapacity
    unfold Config.effectiveQueueCapacity
    split
    · assumption
    · decide
  refine Noted.each_of_invariant ?_ starts moves
  intro noted move roomy
  exact ⟨roomy.unsaturated small move, roomy.step small move⟩

end Runs

/-- Two workers on `r/d/b`. -/
theorem termination_detected_nested :
    Detects
      (Noted.run counting (workerResume nestedConfig)
        ⟨parallelPool nestedWorld.environment nestedConfig [114, 0] 2 (),
          List.replicate 2 .idle⟩
        ((List.range 60).map alternating)) :=
  (termination_detected rfl
    (each_unsaturated (by decide) rfl ((List.range 60).map alternating))).1

/-! ## A count that overflows -/

/-- The name with the binary digits of a number, written with `a` and `b`. -/
def digitName (index : Nat) : EntryName where
  bytes :=
    97 :: (List.range 31).map fun digit =>
      if index.testBit digit then 98 else 97
  nonempty := by simp
  noSlash := by
    rw [List.mem_cons, not_or, List.mem_map]
    refine ⟨by decide, ?_⟩
    rintro ⟨digit, _, isSlash⟩
    split at isSlash <;> cases isSlash
  noNul := by
    rw [List.mem_cons, not_or, List.mem_map]
    refine ⟨by decide, ?_⟩
    rintro ⟨digit, _, isNul⟩
    split at isNul <;> cases isNul
  notSpecial := by
    constructor <;>
      exact fun same => absurd (congrArg List.length same) (by simp)
  short := by simp

/-- How many directories the root holds. -/
def crowd : Nat := 2 ^ 31

/-- A root `r` that holds `crowd` empty directories. -/
def crowdedAnswer : (call : Call) → call.Response
  | .shouldStopCheck => false
  | .openDirectory path _ => .ok (if path = [114] then crowd else 0)
  | .closeDirectory _ => ()
  | .direntReaderCreate => true
  | .direntReaderNext path index =>
      if path = [114] ∧ index < crowd then .entry ⟨digitName index, dtDir⟩
      else .finished
  | .fstatat _ _ _ => .ok ⟨1, 2, 4096, 0o040755, 5⟩
  | .filter _ => true
  | .visit _ => true
  | .shouldDescend _ => true
  | .onError _ _ _ => ()

abbrev crowdedEnvironment : Environment where
  Situation := Unit
  Choice := Unit
  Change := Empty
  answer _ _ call := (crowdedAnswer call, ())
  change _ _ := ()

def crowdedConfig : Config where
  root := some [114, 0]
  rootLength := 1
  hasMainMemoryContext := true
  hasConcurrencyContext := true
  hasShouldStopCheck := false
  queueCapacity := 2 ^ 32
  followSymlinks := false
  includeHidden := false
  hasFilter := false
  hasShouldDescend := false
  hasVisit := true
  hasOnError := false

abbrev crowdedMachine : Machine Op Op.Response :=
  machine crowdedEnvironment crowdedConfig.effectiveQueueCapacity

/-- A single worker at a point of its program, with a queue and a count. -/
structure Alone (length : Nat) (count : Int) (program : Action Bool)
    (pool : Pool crowdedMachine Bool) : Prop where
  threads : pool.threads = [program]
  unset : pool.state.visitFailed = false
  length : pool.state.queue.length = length
  count : pool.state.outstanding = wrapInt count

/-- The turn of the worker. -/
def nextTurn : Move crowdedMachine :=
  .turn 0 ((), ⟨false, 0⟩)

section Stepping

variable {length : Nat} {count : Int} {pool : Pool crowdedMachine Bool}

theorem Alone.turn {op : Op} {next : op.Response → Action Bool}
    (alone : Alone length count (.call op next) pool) :
    Pool.step (workerResume crowdedConfig) pool nextTurn =
      ⟨(crowdedMachine.handle pool.state ((), ⟨false, 0⟩) op).2,
        [Pool.settle (workerResume crowdedConfig)
          (next
            (crowdedMachine.handle pool.state ((), ⟨false, 0⟩) op).1)]⟩ := by
  have running : pool.threads[0]? = some (.call op next) := by
    rw [alone.threads]
    rfl
  rw [nextTurn, Pool.step_call running, alone.threads]
  rfl

theorem Alone.outside {call : Call} {next : call.Response → Action Bool}
    (alone : Alone length count (.call (.outside call) next) pool) :
    Alone length count
      (Pool.settle (workerResume crowdedConfig) (next (crowdedAnswer call)))
      (Pool.step (workerResume crowdedConfig) pool nextTurn) := by
  rw [alone.turn]
  exact ⟨rfl, alone.unset, alone.length, alone.count⟩

theorem Alone.load {next : Bool → Action Bool}
    (alone : Alone length count (.call (.shared .loadVisitFailed) next) pool) :
    Alone length count
      (Pool.settle (workerResume crowdedConfig) (next false))
      (Pool.step (workerResume crowdedConfig) pool nextTurn) := by
  rw [alone.turn]
  refine ⟨?_, alone.unset, alone.length, alone.count⟩
  change [Pool.settle _ (next pool.state.visitFailed)] = _
  rw [alone.unset]

theorem Alone.countUp {counter : Counter} {next : Unit → Action Bool}
    (alone : Alone length count (.call (.shared (.count counter)) next)
      pool) :
    Alone length count
      (Pool.settle (workerResume crowdedConfig) (next ()))
      (Pool.step (workerResume crowdedConfig) pool nextTurn) := by
  rw [alone.turn]
  exact ⟨rfl, alone.unset, alone.length, alone.count⟩

theorem Alone.raise {next : Unit → Action Bool}
    (alone : Alone length count (.call (.shared .raiseOutstanding) next) pool) :
    Alone length (count + 1)
      (Pool.settle (workerResume crowdedConfig) (next ()))
      (Pool.step (workerResume crowdedConfig) pool nextTurn) := by
  rw [alone.turn]
  refine ⟨rfl, alone.unset, alone.length, ?_⟩
  change wrapInt (pool.state.outstanding + 1) = _
  rw [alone.count, wrapInt_add]

theorem Alone.pop {directory : Directory}
    {next : Option Directory → Action Bool}
    (alone : Alone 1 count (.call (.shared .queuePop) next) pool)
    (queued : pool.state.queue = [directory]) :
    Alone 0 count
      (Pool.settle (workerResume crowdedConfig) (next (some directory)))
      (Pool.step (workerResume crowdedConfig) pool nextTurn) := by
  rw [alone.turn]
  simp only [respond, touch, queued]
  exact ⟨rfl, alone.unset, rfl, alone.count⟩

theorem Alone.push {directory : Directory} {next : Bool → Action Bool}
    (alone : Alone length count (.call (.shared (.queuePush directory)) next)
      pool) (room : length < 2 ^ 32) :
    Alone (length + 1) count
      (Pool.settle (workerResume crowdedConfig) (next true))
      (Pool.step (workerResume crowdedConfig) pool nextTurn) := by
  have accepts :
      pool.state.queue.length < crowdedConfig.effectiveQueueCapacity ∧
        True := by
    rw [alone.length]
    exact ⟨room, trivial⟩
  rw [alone.turn]
  simp only [respond, touch]
  rw [if_pos accepts]
  refine ⟨rfl, alone.unset, ?_, alone.count⟩
  rw [List.length_append, alone.length]
  rfl

/-- The worker in the listing of the root, which it has popped. -/
def crowdedLoop (process : Directory → Action Unit)
    (calls index : Nat) : Action Bool := do
  (do
    listingLoop crowdedConfig parallelHalted
      (enqueueDirectory crowdedConfig process)
      (rootEntry crowdedConfig [114, 0]) calls index
    outside (.closeDirectory (rootEntry crowdedConfig [114, 0]).text))
  shared .finishOutstanding
  return true

/-- One entry: the worker pushes the directory and goes on. -/
theorem Alone.entry {process : Directory → Action Unit}
    {calls index : Nat} (listed : index < crowd)
    (room : length < 2 ^ 32)
    (alone : Alone length count (crowdedLoop process (calls + 2) index)
      pool) :
    ∃ moves, Alone (length + 1) (count + 1)
      (crowdedLoop process (calls + 1) (index + 1))
      (Pool.run (workerResume crowdedConfig) pool moves) := by
  have looked := alone.load
  have read := looked.outside
  have next :
      crowdedAnswer
          (.direntReaderNext (rootEntry crowdedConfig [114, 0]).text
            index) =
        .entry ⟨digitName index, dtDir⟩ :=
    if_pos ⟨rfl, listed⟩
  rw [next] at read
  have stated := read.outside
  have visited := stated.outside
  have raised := visited.raise
  have pushed := raised.push room
  exact ⟨List.replicate 6 nextTurn, pushed⟩

end Stepping

/-- The walk of the crowded root, once its single worker is dispatched. -/
def crowdedPool : Pool crowdedMachine Bool :=
  parallelPool crowdedEnvironment crowdedConfig [114, 0] 1 ()

/-- The worker goes on with the directory it has popped. -/
theorem settle_workerProcess (directory : Directory) :
    Pool.settle (workerResume crowdedConfig)
        (workerProcess crowdedConfig directory) =
      workerProcess crowdedConfig directory := by
  have levels : maxPathLength = 4095 + 1 := rfl
  rw [workerProcess, levels, processDirectory]
  generalize processDirectory crowdedConfig 4095 = process
  rfl

/-- The worker pops the root. -/
theorem alone_popped :
    ∃ moves, Alone 0 1
      (workerProcess crowdedConfig (rootEntry crowdedConfig [114, 0]))
      (Pool.run (workerResume crowdedConfig) crowdedPool moves) := by
  have starts :
      Alone 1 1 (workerStart crowdedConfig) crowdedPool :=
    ⟨rfl, rfl, rfl, rfl⟩
  have popped := starts.outside.load.pop rfl
  change Alone 0 1
    (Pool.settle (workerResume crowdedConfig)
      (workerProcess crowdedConfig (rootEntry crowdedConfig [114, 0])))
    _ at popped
  rw [settle_workerProcess] at popped
  exact ⟨List.replicate 3 nextTurn, popped⟩

/-- The worker opens the root. -/
theorem Alone.opened {process : Directory → Action Unit} {entries : Nat}
    (answer :
      crowdedAnswer
          (.openDirectory (rootEntry crowdedConfig [114, 0]).text
            (!crowdedConfig.followSymlinks)) = .ok entries)
    {pool : Pool crowdedMachine Bool}
    (alone : Alone 0 1
      (do
        processBody crowdedConfig (enqueueDirectory crowdedConfig process)
          (rootEntry crowdedConfig [114, 0])
        shared .finishOutstanding
        return true) pool) :
    ∃ moves, Alone 0 1 (crowdedLoop process (entries + 1) 0)
      (Pool.run (workerResume crowdedConfig) pool moves) := by
  have opened := alone.load.outside
  rw [answer] at opened
  exact ⟨List.replicate 3 nextTurn, opened.countUp⟩

/-- The worker has popped and opened the root. -/
theorem alone_opened :
    ∃ process moves, Alone 0 1 (crowdedLoop process (crowd + 1) 0)
      (Pool.run (workerResume crowdedConfig) crowdedPool moves) := by
  rcases alone_popped with ⟨earlier, alone⟩
  have levels : maxPathLength = 4095 + 1 := rfl
  rw [workerProcess, levels, processDirectory] at alone
  have answer :
      crowdedAnswer
          (.openDirectory (rootEntry crowdedConfig [114, 0]).text
            (!crowdedConfig.followSymlinks)) = .ok crowd :=
    congrArg Except.ok (if_pos rfl)
  rcases alone.opened answer with ⟨later, opened⟩
  rw [← Pool.run_append] at opened
  exact ⟨_, _, opened⟩

/-- It pushes one directory after the other. -/
theorem alone_after (pushed calls : Nat)
    (total : pushed + calls + 1 = crowd) :
    ∃ process moves, Alone pushed (pushed + 1)
      (crowdedLoop process (calls + 2) pushed)
      (Pool.run (workerResume crowdedConfig) crowdedPool moves) := by
  have large : crowd = 2 ^ 31 := rfl
  induction pushed generalizing calls with
  | zero =>
      have calling : calls + 2 = crowd + 1 := by omega
      rw [calling]
      exact alone_opened
  | succ pushed induction =>
      rcases induction (calls + 1) (by omega) with ⟨process, moves, alone⟩
      rcases alone.entry (by omega) (by omega) with ⟨more, next⟩
      rw [← Pool.run_append] at next
      exact ⟨process, moves ++ more, next⟩

/--
A single worker and a queue that is large enough: with `2 ^ 31` directories in
the root the count becomes negative.
-/
theorem outstanding_negative :
    ∃ moves,
      (Pool.run (workerResume crowdedConfig) crowdedPool
        moves).state.outstanding < 0 := by
  rcases alone_after (2 ^ 31 - 1) 0 rfl with ⟨_, moves, alone⟩
  refine ⟨moves, ?_⟩
  rw [alone.count]
  decide

end BcIo.Walk
