import BcIo.Walk.Ending
import BcIo.Walk.Selection

/-!
# The parallel walk does what the sequential walk does

In a static world, however the workers are scheduled and whatever the queue
refuses: once all workers have ended, the parallel walk has made the same visits
and reported the same errors as the sequential walk, each as often, and has the
same counters and result.  Under a fair schedule all workers end.
-/

namespace BcIo.Walk

open BcIo.File
open BcIo.Foundation.MachineWord
open BcIo.Foundation.Interaction
open BcIo.Foundation.WorkerPool

/-- The arguments of the error callback. -/
def errorOf : Op → Option (Path × Stage × Errno)
  | .outside (.onError path stage errno) => some (path, stage, errno)
  | _ => none

def State.errors {Situation : Type} (state : State Situation) :
    List (Path × Stage × Errno) :=
  state.history.filterMap errorOf

/-- All workers have ended. -/
def Ended {environment : Environment} {capacity : Nat}
    (pool : Pool (machine environment capacity) Bool) : Prop :=
  ∀ program ∈ pool.threads, program = .ret false

/-- A parallel walk that is over did what a sequential walk did. -/
structure Agrees (sequential parallel : State Unit) : Prop where
  visits : parallel.visits.Perm sequential.visits
  errors : parallel.errors.Perm sequential.errors
  stats : parallel.stats = sequential.stats
  result : parallel.parallelResult = !sequential.visitFailed

variable {world : World} {config : Config} {capacity : Nat}

/-! ## From what can be observed to what is compared -/

theorem filterMap_observable {β : Type} {pick : Op → Option β}
    (unpicked : ∀ op, observable op = false → pick op = none)
    (history : List Op) :
    (history.filter observable).filterMap pick = history.filterMap pick := by
  induction history with
  | nil => rfl
  | cons op history induction =>
      cases seen : observable op with
      | true =>
          rw [List.filter_cons_of_pos seen, List.filterMap_cons,
            List.filterMap_cons, induction]
      | false =>
          rw [List.filter_cons_of_neg (by simp [seen]), induction,
            List.filterMap_cons_none (unpicked op seen)]

theorem visitOf_of_hidden (op : Op) (hidden : observable op = false) :
    visitOf op = none := by
  cases op with
  | shared access => rfl
  | outside call =>
      cases call with
      | visit entry => cases hidden
      | _ => rfl

theorem errorOf_of_hidden (op : Op) (hidden : observable op = false) :
    errorOf op = none := by
  cases op with
  | shared access => rfl
  | outside call =>
      cases call with
      | onError path stage errno => cases hidden
      | _ => rfl

/-- The counters depend on what can be observed, not on its order. -/
theorem tally_of_perm {first second : List Op}
    (same : (first.filter observable).Perm (second.filter observable)) :
    tally first = tally second := by
  have counts :
      ∀ counter, first.count (.shared (.count counter)) =
        second.count (.shared (.count counter)) := by
    intro counter
    have seen : observable (.shared (.count counter)) = true := rfl
    rw [← List.count_filter seen, same.count_eq, List.count_filter seen]
  simp only [tally, counts]

/-! ## The start and the end of a parallel walk -/

/-- A parallel walk that has been dispatched is in progress. -/
theorem progress_parallelPool {M : Type} [AddCommMonoid M]
    (ledger : Ledger M) {memory : List Byte}
    (usable : usableRoot config = some memory)
    (terminated : Terminated memory config.rootLength) {workers : Nat}
    (someWorker : 0 < workers) :
    Progress ledger world config
      (ledger.value world config (sequentialRoot config memory))
      (parallelPool world.environment config memory workers ())
      (List.replicate workers .starting) where
  stands := by
    rw [parallelPool]
    apply List.forall₂_of_length_eq_of_get
    · simp
    · intro index first second
      simp [At]
  noFailure := rfl
  proper := by
    intro directory queued
    rw [List.mem_singleton.mp queued, rootEntry_eq usable terminated]
    exact (proper_sequentialRoot usable terminated).1
  conserved := by
    have nobody :
        ((List.replicate workers (workerStart config)).map
          (owed ledger world config)).sum = 0 := by
      rw [List.map_replicate, List.sum_replicate, owed_starting, nsmul_zero]
    change (0 + (ledger.value world config (rootEntry config memory) + 0)) +
      ((List.replicate workers (workerStart config)).map
        (owed ledger world config)).sum = _
    rw [nobody, zero_add, add_zero, add_zero, rootEntry_eq usable terminated]
  eager := by
    intro _
    refine ⟨.starting, ?_, trivial⟩
    rw [List.mem_replicate]
    exact ⟨Nat.ne_of_gt someWorker, rfl⟩

/-- Once all workers have ended, everything has been paid. -/
theorem account_of_ended {M : Type} [AddCommMonoid M] {ledger : Ledger M}
    (noCheck : config.hasShouldStopCheck = false) {amount : M}
    {pool : Pool (machine world.environment capacity) Bool}
    {stations : List Station}
    (progress : Progress ledger world config amount pool stations)
    (ended : Ended pool) :
    (pool.state.history.map ledger.toll).sum = amount := by
  have finished : ∀ station ∈ stations, station = .finished := by
    intro station isStation
    rcases List.getElem_of_mem isStation with ⟨index, bound, rfl⟩
    have boundToo := bound
    rw [progress.stands.length_eq] at boundToo
    have stands := List.Forall₂.get progress.stands bound boundToo
    rw [List.get_eq_getElem, List.get_eq_getElem,
      ended _ (List.getElem_mem boundToo)] at stands
    by_contra alive
    rcases stands.call noCheck alive with ⟨op, next, isCall⟩
    cases isCall
  have empty : pool.state.queue = [] := by
    by_contra queued
    rcases progress.eager queued with ⟨station, isStation, eager⟩
    rw [finished station isStation] at eager
    exact eager
  have nobody : (pool.threads.map (owed ledger world config)).sum = 0 := by
    apply List.sum_eq_zero
    rw [List.forall_mem_map]
    intro program running
    rw [ended program running]
    rfl
  have conserved := progress.conserved
  rw [account, empty, nobody, List.map_nil, List.sum_nil, add_zero,
    add_zero] at conserved
  exact conserved

/-- The same can be observed of both walks. -/
theorem observed_parallel {memory : List Byte}
    (usable : usableRoot config = some memory)
    (terminated : Terminated memory config.rootLength)
    (noCheck : config.hasShouldStopCheck = false) {workers : Nat}
    (someWorker : 0 < workers)
    {moves : List (Move (machine world.environment
      config.effectiveQueueCapacity))}
    (ended : Ended (Pool.run (workerResume config)
      (parallelPool world.environment config memory workers ()) moves))
    {sequential : State Unit}
    (history :
      sequential.history =
        (sequentialRecurse config maxPathLength
            (sequentialRoot config memory)).trace world.answers ++
          [.shared .loadVisitFailed]) :
    ((Pool.run (workerResume config)
          (parallelPool world.environment config memory workers ())
          moves).state.history.filter observable).Perm
      (sequential.history.filter observable) := by
  have progresses :=
    Pool.run_invariant (Progress.step noCheck)
      ⟨_, @progress_parallelPool world config _ _ observedLedger memory
        usable terminated workers someWorker⟩ moves
  rcases progresses with ⟨stations, progress⟩
  rcases proper_sequentialRoot usable terminated with ⟨proper, _⟩
  rw [← Multiset.coe_eq_coe, ← sum_observed,
    account_of_ended noCheck progress ended, value_observed noCheck,
    ← total_sequentialRecurse _ proper (Nat.le_add_left _ _),
    Program.total, sum_observed, history, List.filter_append]
  simp [observable]

/-- Along every run the counters say what the history says. -/
theorem tallied_run {memory : List Byte} (workers : Nat)
    (moves : List (Move (machine world.environment
      config.effectiveQueueCapacity))) :
    (Pool.run (workerResume config)
          (parallelPool world.environment config memory workers ())
          moves).state.stats =
      tally (Pool.run (workerResume config)
        (parallelPool world.environment config memory workers ())
        moves).state.history := by
  let tallied (pool : Pool (machine world.environment
      config.effectiveQueueCapacity) Bool) : Prop :=
    pool.state.stats = tally pool.state.history
  have keeps :
      ∀ pool move, tallied pool →
        tallied (Pool.step (workerResume config) pool move) := by
    intro pool move isTallied
    rcases Pool.step_cases pool move with
      ⟨drift, _⟩ | ⟨thread, choice, op, next, rfl, running, stepped⟩ | same
    · exact drift.elim
    · rw [stepped]
      exact tallied_handled isTallied _ choice op
    · rw [same]
      exact isTallied
  exact Pool.run_invariant keeps rfl moves

/-- A dispatched parallel walk is underway. -/
theorem underway_parallelPool {memory : List Byte}
    (usable : usableRoot config = some memory)
    (terminated : Terminated memory config.rootLength) {workers : Nat}
    (someWorker : 0 < workers) :
    Underway world config workers
      (parallelPool world.environment config memory workers ()) := by
  rcases proper_sequentialRoot usable terminated with ⟨proper, _⟩
  have counts :=
    @progress_parallelPool world config _ _ countLedger memory usable
      terminated workers someWorker
  rw [value_count proper] at counts
  refine ⟨⟨_, _, progress_parallelPool costLedger usable terminated
    someWorker⟩, ⟨_, counts⟩, rfl, ?_⟩
  rw [parallelPool, List.length_replicate]

/--
In a static world the parallel walk agrees with the sequential walk: in every
interleaving in which all workers have ended, and every fair schedule comes to
such an end.
-/
theorem walkParallel_agrees {memory : List Byte}
    (rooted : config.root = some memory)
    (terminated : Terminated memory config.rootLength)
    (noCheck : config.hasShouldStopCheck = false) {workers : Nat}
    (someWorker : 0 < workers)
    {pool : Pool (machine world.environment config.effectiveQueueCapacity)
      Bool}
    (dispatched :
      dispatchParallel world.environment config workers () = some pool)
    (choice : Unit × QueueChoice) :
    ∃ sequential,
      runAlone (machine world.environment config.effectiveQueueCapacity)
          choice (walkSequential config) (State.initial ()) =
        some (true, sequential) ∧
      (∀ moves, Ended (Pool.run (workerResume config) pool moves) →
        Agrees sequential
          (Pool.run (workerResume config) pool moves).state) ∧
      ∀ schedule, Fair workers schedule → ∃ time,
        Ended (Pool.run (workerResume config) pool
          ((List.range time).map schedule)) := by
  rcases dispatchParallel_some dispatched with ⟨other, usable, rfl⟩
  have same : other = memory := by
    have rootedToo := (usableRoot_some usable).1
    rw [rooted] at rootedToo
    exact (Option.some.inj rootedToo).symm
  subst same
  rcases @walkSequential_ends world config other usable terminated
      config.effectiveQueueCapacity choice with
    ⟨sequential, ran, noFailure, history⟩
  refine ⟨sequential, ran, ?_, ?_⟩
  · intro moves ended
    have observed :=
      observed_parallel usable terminated noCheck someWorker ended history
    have tallied : sequential.stats = tally sequential.history :=
      runAlone_invariant
        (machine world.environment config.effectiveQueueCapacity) choice
        (fun state => state.stats = tally state.history)
        (fun state op tallied => tallied_handled tallied _ choice op) rfl ran
    refine ⟨?_, ?_, ?_, ?_⟩
    · unfold State.visits
      rw [← filterMap_observable visitOf_of_hidden,
        ← filterMap_observable visitOf_of_hidden sequential.history]
      exact observed.filterMap visitOf
    · unfold State.errors
      rw [← filterMap_observable errorOf_of_hidden,
        ← filterMap_observable errorOf_of_hidden sequential.history]
      exact observed.filterMap errorOf
    · rw [tallied_run, tallied]
      exact tally_of_perm observed
    · rcases Pool.run_invariant (Progress.step noCheck)
        ⟨_, progress_parallelPool observedLedger usable terminated
          someWorker⟩ moves with ⟨stations, progress⟩
      rw [State.parallelResult, progress.noFailure, noFailure]
  · intro schedule fair
    rcases workers_end noCheck fair
        (underway_parallelPool usable terminated someWorker) with
      ⟨time, ended⟩
    rw [poolAt_eq_run] at ended
    exact ⟨time, ended⟩

/-- Two workers that take turns, with a queue that refuses every other push. -/
def alternating (time : Nat) : Move (machine nestedWorld.environment
    nestedConfig.effectiveQueueCapacity) :=
  .turn (time % 2) ((), ⟨time % 4 = 0, time⟩)

theorem fair_alternating : Fair 2 alternating := by
  intro thread isThread time
  have turn : (2 * time + thread) % 2 = thread := by omega
  refine ⟨2 * time + thread,
    ((), ⟨decide ((2 * time + thread) % 4 = 0), 2 * time + thread⟩),
    by omega, ?_⟩
  rw [alternating, turn]

/-- Two workers visit `r/d` and `r/d/b` as the sequential walk does. -/
theorem walkParallel_agrees_nested :
    ∃ sequential time,
      runAlone (machine nestedWorld.environment
          nestedConfig.effectiveQueueCapacity) ((), ⟨false, 0⟩)
          (walkSequential nestedConfig) (State.initial ()) =
        some (true, sequential) ∧
      Ended (Pool.run (workerResume nestedConfig)
        (parallelPool nestedWorld.environment nestedConfig [114, 0] 2 ())
        ((List.range time).map alternating)) ∧
      Agrees sequential (Pool.run (workerResume nestedConfig)
        (parallelPool nestedWorld.environment nestedConfig [114, 0] 2 ())
        ((List.range time).map alternating)).state := by
  have terminated : Terminated [114, 0] nestedConfig.rootLength := by
    constructor <;> decide
  have someWorker : 0 < 2 := by decide
  rcases walkParallel_agrees rfl terminated rfl someWorker rfl
      ((), ⟨false, 0⟩) with ⟨sequential, ran, agrees, ends⟩
  rcases ends alternating fair_alternating with ⟨time, ended⟩
  exact ⟨sequential, time, ran, ended, agrees _ ended⟩

end BcIo.Walk
