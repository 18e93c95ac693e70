import BcIo.Walk.Accounts

/-!
# A fair schedule ends the walk

While there is work left, some worker will do a part of it; once there is none
left, the count of outstanding directories is zero and every worker ends.
-/

namespace BcIo.Walk

open BcIo.File
open BcIo.Foundation.Aggregate
open BcIo.Foundation.Interaction
open BcIo.Foundation.WorkerPool

variable {world : World} {config : Config} {capacity : Nat}

/-- The operations that are left, besides those that are free. -/
def remaining (world : World) (config : Config)
    (pool : Pool (machine world.environment capacity) Bool) : Nat :=
  (pool.state.queue.map (costLedger.value world config)).sum +
    (pool.threads.map (owed costLedger world config)).sum

/-- The invariants that the end of a walk depends on. -/
structure Underway (world : World) (config : Config) (workers : Nat)
    (pool : Pool (machine world.environment capacity) Bool) : Prop where
  costs : ∃ amount stations,
    Progress costLedger world config amount pool stations
  counts : ∃ stations, Progress countLedger world config 1 pool stations
  counted : Counted pool.state
  workers : pool.threads.length = workers

variable {workers : Nat}
  {pool : Pool (machine world.environment capacity) Bool}

theorem Underway.step (noCheck : config.hasShouldStopCheck = false)
    (underway : Underway world config workers pool)
    (move : Move (machine world.environment capacity)) :
    Underway world config workers
      (Pool.step (workerResume config) pool move) := by
  rcases underway.costs with ⟨amount, costs⟩
  refine ⟨⟨amount, Progress.step noCheck pool move costs⟩,
    Progress.step noCheck pool move underway.counts, ?_, ?_⟩
  · rcases Pool.step_cases pool move with
      ⟨drift, _⟩ | ⟨thread, choice, op, next, rfl, running, stepped⟩ | same
    · exact drift.elim
    · rw [stepped]
      exact underway.counted.handled capacity choice op
    · rw [same]
      exact underway.counted
  · rcases Pool.step_cases pool move with
      ⟨drift, _⟩ | ⟨thread, choice, op, next, rfl, running, stepped⟩ | same
    · exact drift.elim
    · rw [stepped, List.length_set]
      exact underway.workers
    · rw [same]
      exact underway.workers

/-- Every operation is paid out of what is left. -/
theorem remaining_turn (noCheck : config.hasShouldStopCheck = false)
    (underway : Underway world config workers pool) {thread : Nat} {op : Op}
    {next : op.Response → Action Bool}
    (running : pool.threads[thread]? = some (.call op next))
    (choice : Unit × QueueChoice) :
    remaining world config
          (Pool.step (workerResume config) pool (.turn thread choice)) +
        cost op =
      remaining world config pool := by
  rcases underway.costs with ⟨amount, stations, progress⟩
  rcases progress.turn noCheck running choice with ⟨_, _, _, _, continues⟩
  have history :
      (Pool.step (workerResume config) pool
          (.turn thread choice)).state.history =
        pool.state.history ++ [op] := by
    rw [Pool.step_call running]
  have before := progress.conserved
  have after := continues.conserved
  rw [account, history, List.map_append, List.sum_append,
    List.map_singleton, List.sum_singleton] at after
  rw [account] at before
  unfold remaining
  have paid : costLedger.toll op = cost op := rfl
  omega

theorem remaining_step_le (noCheck : config.hasShouldStopCheck = false)
    (underway : Underway world config workers pool)
    (move : Move (machine world.environment capacity)) :
    remaining world config (Pool.step (workerResume config) pool move) ≤
      remaining world config pool := by
  rcases Pool.step_cases pool move with
    ⟨drift, _⟩ | ⟨thread, choice, op, next, rfl, running, _⟩ | same
  · exact drift.elim
  · have paid := remaining_turn noCheck underway running choice
    omega
  · rw [same]

/-! ## A worker that is processing a directory -/

/-- While it does nothing that costs, it comes nearer to something that does. -/
theorem working_free {state : State Unit}
    (noFailure : state.visitFailed = false) {op : Op}
    {next : op.Response → Action Bool}
    (stands : At costLedger world config .working (.call op next))
    (free : cost op = 0) (choice : Unit × QueueChoice) :
    At costLedger world config .working
        (Pool.settle (workerResume config)
          (next (handled world capacity state choice op).1)) ∧
      ((Pool.settle (workerResume config)
          (next (handled world capacity state choice op).1)).trace
            world.answers).length <
        ((Program.call op next).trace world.answers).length := by
  rcases stands with ⟨rest, balances, isThread⟩
  cases rest with
  | ret value =>
      cases isThread
      cases free
  | call other inner =>
      cases isThread
      have answered :
          (handled world capacity state choice op).1 = world.answers op := by
        cases op with
        | outside call => rfl
        | shared access =>
            cases access with
            | loadVisitFailed => exact noFailure
            | queuePop => exact balances.1.elim
            | loadOutstanding => exact balances.1.elim
            | _ => cases free
      rw [answered]
      have continues :=
        (balances.2 (world.answers op) (Ledger.admits_tariff op)).2
      change At _ _ _ _ (Pool.settle _ (inner _ >>= finishDirectory)) ∧
        ((Pool.settle _ (inner _ >>= finishDirectory)).trace _).length < _
      rw [settle_working]
      refine ⟨⟨_, continues, rfl⟩, ?_⟩
      exact Nat.lt_succ_self _
  | stuck => exact balances.elim

/-- Where a thread of the pool stands. -/
def Stands (world : World) (config : Config) (thread : Nat)
    (station : Station)
    (pool : Pool (machine world.environment capacity) Bool) : Prop :=
  ∃ program, pool.threads[thread]? = some program ∧
    At costLedger world config station program

/-- A worker that has not ended is about to make a call. -/
theorem At.call {M : Type} [AddCommMonoid M] {ledger : Ledger M}
    (noCheck : config.hasShouldStopCheck = false)
    {station : Station} (alive : station ≠ .finished)
    {program : Action Bool}
    (stands : At ledger world config station program) :
    ∃ op next, program = .call op next := by
  cases station with
  | starting =>
      cases stands
      exact ⟨_, _, rfl⟩
  | looking =>
      cases stands
      exact ⟨_, _, workerTurn_eq noCheck⟩
  | popping =>
      cases stands
      exact ⟨_, _, rfl⟩
  | checking =>
      cases stands
      exact ⟨_, _, rfl⟩
  | working =>
      rcases stands with ⟨rest, balances, rfl⟩
      cases rest with
      | ret value => exact ⟨_, _, rfl⟩
      | call op next => exact ⟨_, _, rfl⟩
      | stuck => exact balances.elim
  | finished => exact absurd rfl alive

/-- The turn of a worker that has not ended. -/
theorem Stands.turn (noCheck : config.hasShouldStopCheck = false)
    (underway : Underway world config workers pool) {thread : Nat}
    {station : Station} (alive : station ≠ .finished)
    (stands : Stands world config thread station pool)
    (choice : Unit × QueueChoice) :
    ∃ station',
      Stands world config thread station'
          (Pool.step (workerResume config) pool (.turn thread choice)) ∧
        Follows pool.state
          (Pool.step (workerResume config) pool (.turn thread choice)).state
          station station' := by
  rcases underway.costs with ⟨amount, stations, progress⟩
  rcases stands with ⟨program, running, stands⟩
  rcases stands.call noCheck alive with ⟨op, next, rfl⟩
  have turn := @turned Nat _ costLedger world config capacity pool.state
    progress.noFailure progress.proper choice noCheck station op next stands
  rcases turn.moves with ⟨station', standsNext, follows⟩
  rw [Pool.step_call running]
  have inside : thread < pool.threads.length :=
    (List.getElem?_eq_some_iff.mp running).1
  exact ⟨station', ⟨_, List.getElem?_set_self inside, standsNext⟩, follows⟩

theorem Stands.other {thread other : Nat} {station : Station}
    (stands : Stands world config thread station pool)
    (differs : other ≠ thread) (choice : Unit × QueueChoice) :
    Stands world config thread station
      (Pool.step (workerResume config) pool (.turn other choice)) := by
  rcases stands with ⟨program, running, stands⟩
  exact ⟨program, (Pool.step_threads_ne pool differs choice).trans running,
    stands⟩

/-- A worker that is processing works something off, or comes nearer to it. -/
theorem working_turn (noCheck : config.hasShouldStopCheck = false)
    (underway : Underway world config workers pool) {thread : Nat}
    {program : Action Bool} (running : pool.threads[thread]? = some program)
    (stands : At costLedger world config .working program)
    (choice : Unit × QueueChoice) :
    remaining world config
          (Pool.step (workerResume config) pool (.turn thread choice)) <
        remaining world config pool ∨
      ∃ next,
        (Pool.step (workerResume config) pool
            (.turn thread choice)).threads[thread]? = some next ∧
          At costLedger world config .working next ∧
          (next.trace world.answers).length <
            (program.trace world.answers).length := by
  rcases underway.costs with ⟨amount, stations, progress⟩
  rcases stands.call noCheck (by decide) with ⟨op, next, rfl⟩
  have paid := remaining_turn noCheck underway running choice
  by_cases free : cost op = 0
  · right
    have inside : thread < pool.threads.length :=
      (List.getElem?_eq_some_iff.mp running).1
    rcases @working_free world config capacity pool.state progress.noFailure
        op next stands free choice with ⟨standsNext, shorter⟩
    rw [Pool.step_call running]
    exact ⟨_, List.getElem?_set_self inside, standsNext, shorter⟩
  · left
    omega

/-! ## When nothing is left -/

/-- A worker that is not processing a directory owes nothing. -/
theorem owed_of_idle {M N : Type} [AddCommMonoid M] [AddCommMonoid N]
    {ledger : Ledger M} (other : Ledger N)
    (noCheck : config.hasShouldStopCheck = false) {station : Station}
    (idle : station ≠ .working) {program : Action Bool}
    (stands : At ledger world config station program) :
    owed other world config program = 0 := by
  cases station with
  | starting =>
      cases stands
      exact owed_starting
  | looking =>
      cases stands
      exact owed_looking noCheck
  | popping =>
      cases stands
      exact owed_popping
  | checking =>
      cases stands
      exact owed_checking
  | working => exact absurd rfl idle
  | finished =>
      cases stands
      rfl

/-- A worker that is processing a directory has something left to do. -/
theorem owed_of_working {M : Type} [AddCommMonoid M] {ledger : Ledger M}
    {program : Action Bool}
    (stands : At ledger world config .working program) :
    0 < owed costLedger world config program := by
  rcases stands with ⟨rest, balances, rfl⟩
  have returned := Program.Balanced.outcome Ledger.admits_tariff balances
  have split :
      owed costLedger world config (rest >>= finishDirectory) =
        rest.total world.answers (costLedger.charge world config) + 1 :=
    Program.total_bind _ _ returned _
  omega

theorem queue_eq_nil_of_remaining
    (underway : Underway world config workers pool)
    (nothing : remaining world config pool = 0) :
    pool.state.queue = [] := by
  rcases underway.costs with ⟨amount, stations, progress⟩
  rw [remaining, Nat.add_eq_zero_iff, List.sum_eq_zero_iff_forall_eq_nat,
    List.forall_mem_map] at nothing
  apply List.eq_nil_iff_forall_not_mem.mpr
  intro directory queued
  have positive :=
    @value_cost_pos world config directory (progress.proper directory queued)
  exact Nat.ne_of_gt positive (nothing.1 directory queued)

theorem idle_of_remaining (nothing : remaining world config pool = 0)
    {M : Type} [AddCommMonoid M] {ledger : Ledger M}
    {program : Action Bool} (running : program ∈ pool.threads)
    {station : Station} (stands : At ledger world config station program) :
    station ≠ .working := by
  rintro rfl
  rw [remaining, Nat.add_eq_zero_iff, List.sum_eq_zero_iff_forall_eq_nat,
    List.sum_eq_zero_iff_forall_eq_nat, List.forall_mem_map,
    List.forall_mem_map] at nothing
  exact Nat.ne_of_gt (owed_of_working stands) (nothing.2 program running)

/-- Then the count of outstanding directories is zero. -/
theorem outstanding_eq_zero_of_remaining
    (noCheck : config.hasShouldStopCheck = false)
    (underway : Underway world config workers pool)
    (nothing : remaining world config pool = 0) :
    pool.state.outstanding = 0 := by
  rcases underway.counts with ⟨stations, progress⟩
  have nobody :
      (pool.threads.map (owed countLedger world config)).sum = 0 := by
    apply List.sum_eq_zero
    rw [List.forall_mem_map]
    intro program running
    rcases List.getElem?_of_mem running with ⟨index, found⟩
    rcases exists_of_forall₂ progress.stands found with
      ⟨station, _, stands⟩
    exact owed_of_idle countLedger noCheck
      (idle_of_remaining nothing running stands) stands
  have conserved := progress.conserved
  rw [nobody, account, queue_eq_nil_of_remaining underway nothing,
    List.map_nil, List.sum_nil, add_zero, add_zero] at conserved
  have lowered : (pool.state.history.map lowering).sum = 1 := conserved
  have counted : pool.state.outstanding = wrapInt (1 - _) :=
    underway.counted
  rw [counted, lowered]
  rfl

/-- How many turns a worker has left when there is nothing to do. -/
def Station.distance : Station → Nat
  | .starting => 4
  | .looking => 3
  | .popping => 2
  | .checking => 1
  | .working => 5
  | .finished => 0

/-- When there is nothing to do, a turn brings a worker nearer to its end. -/
theorem Follows.of_nothing {before after : State Unit}
    {station station' : Station} (empty : before.queue = [])
    (done : before.outstanding = 0) (idle : station ≠ .working)
    (follows : Follows before after station station') :
    station' ≠ .working ∧ station'.distance + 1 = station.distance := by
  cases follows with
  | take present => exact absurd empty present
  | again same busy => exact absurd done busy
  | work => exact absurd rfl idle
  | finish same => exact absurd rfl idle
  | _ => exact ⟨by decide, rfl⟩

/-- Some worker is processing a directory, or less is left than `left`. -/
def Busy (world : World) (config : Config) (workers left : Nat)
    (pool : Pool (machine world.environment capacity) Bool) : Prop :=
  remaining world config pool < left ∨
    ∃ thread, thread < workers ∧ Stands world config thread .working pool

/-! ## Along a fair schedule -/

section Schedule

variable (schedule : Nat → Move (machine world.environment capacity))
  (noCheck : config.hasShouldStopCheck = false)

include noCheck

theorem underwayAt (begins : Underway world config workers pool)
    (time : Nat) :
    Underway world config workers
      (poolAt (workerResume config) pool schedule time) :=
  poolAt_invariant (Underway world config workers)
    (fun _ move underway => underway.step noCheck move) begins schedule time

theorem remainingAt_le (begins : Underway world config workers pool)
    {time later : Nat} (after : time ≤ later) :
    remaining world config
        (poolAt (workerResume config) pool schedule later) ≤
      remaining world config
        (poolAt (workerResume config) pool schedule time) := by
  induction later, after using Nat.le_induction with
  | base => exact Nat.le_refl _
  | succ later after induction =>
      exact Nat.le_trans
        (remaining_step_le noCheck (underwayAt schedule noCheck begins later)
          _)
        induction

variable {schedule} (fair : Fair workers schedule)

include fair

/-- A worker that is processing a directory works something off. -/
theorem works_off (begins : Underway world config workers pool)
    {thread time : Nat} (isThread : thread < workers)
    (stands : Stands world config thread .working
      (poolAt (workerResume config) pool schedule time)) :
    ∃ later, time ≤ later ∧
      remaining world config
          (poolAt (workerResume config) pool schedule later) <
        remaining world config
          (poolAt (workerResume config) pool schedule time) := by
  generalize isLeft :
    remaining world config
      (poolAt (workerResume config) pool schedule time) = left
  refine reaches_of_rank fair isThread
    (fun pool => Underway world config workers pool ∧
      remaining world config pool = left ∧
      Stands world config thread .working pool)
    (fun pool => remaining world config pool < left)
    (fun pool => (pool.threads[thread]?.elim 0 fun program =>
      (program.trace world.answers).length)) ?_ ?_
    ⟨underwayAt schedule noCheck begins time, isLeft, stands⟩
  · rintro pool move ⟨underway, isLeft, stands⟩
    have continues := underway.step noCheck move
    have below := remaining_step_le noCheck underway move
    by_cases less :
        remaining world config
          (Pool.step (workerResume config) pool move) < left
    · exact Or.inl less
    · right
      have still :
          remaining world config
            (Pool.step (workerResume config) pool move) = left := by
        omega
      cases move with
      | drift drift => exact drift.elim
      | turn other choice =>
          by_cases same : other = thread
          · subst same
            rcases stands with ⟨program, running, stands⟩
            rcases working_turn noCheck underway running stands choice with
              lower | ⟨next, runs, standsNext, shorter⟩
            · omega
            · refine ⟨⟨continues, still, next, runs, standsNext⟩, ?_⟩
              rw [runs, running]
              exact Nat.le_of_lt shorter
          · refine ⟨⟨continues, still, stands.other same choice⟩, ?_⟩
            rw [Pool.step_threads_ne pool same choice]
  · rintro pool choice ⟨underway, isLeft, program, running, stands⟩
    rcases working_turn noCheck underway running stands choice with
      lower | ⟨next, runs, _, shorter⟩
    · left
      omega
    · right
      rw [runs, running]
      exact shorter

/-- A worker at a station, while something is kept, comes to its next turn. -/
theorem station_leads (begins : Underway world config workers pool)
    {thread time : Nat} (isThread : thread < workers) {station : Station}
    (alive : station ≠ .finished)
    (kept goal : Pool (machine world.environment capacity) Bool → Prop)
    (keeps : ∀ pool move, Underway world config workers pool → kept pool →
      goal (Pool.step (workerResume config) pool move) ∨
        kept (Pool.step (workerResume config) pool move))
    (own : ∀ pool choice station',
      Underway world config workers pool → kept pool →
      Stands world config thread station'
        (Pool.step (workerResume config) pool (.turn thread choice)) →
      Follows pool.state
        (Pool.step (workerResume config) pool (.turn thread choice)).state
        station station' →
      goal (Pool.step (workerResume config) pool (.turn thread choice)))
    (isKept : kept (poolAt (workerResume config) pool schedule time))
    (stands : Stands world config thread station
      (poolAt (workerResume config) pool schedule time)) :
    ∃ later, time ≤ later ∧
      goal (poolAt (workerResume config) pool schedule later) := by
  have ownTurn :
      ∀ pool choice,
        (Underway world config workers pool ∧ kept pool ∧
          Stands world config thread station pool) →
        goal (Pool.step (workerResume config) pool
          (.turn thread choice)) := by
    rintro pool choice ⟨underway, isKept, stands⟩
    rcases stands.turn noCheck underway alive choice with
      ⟨station', standsNext, follows⟩
    exact own pool choice station' underway isKept standsNext follows
  refine reaches_of_turn fair isThread
    (fun pool => Underway world config workers pool ∧ kept pool ∧
      Stands world config thread station pool) goal ?_ ownTurn
    ⟨underwayAt schedule noCheck begins time, isKept, stands⟩
  rintro pool move ⟨underway, isKept, stands⟩
  cases move with
  | drift drift => exact drift.elim
  | turn other choice =>
      by_cases same : other = thread
      · subst same
        exact Or.inl (ownTurn pool choice ⟨underway, isKept, stands⟩)
      · rcases keeps pool (.turn other choice) underway isKept with
          reached | isKept
        · exact Or.inl reached
        · exact Or.inr ⟨underway.step noCheck _, isKept,
            stands.other same choice⟩

/-- When nothing is left, every worker ends. -/
theorem worker_ends (begins : Underway world config workers pool)
    {thread : Nat} (isThread : thread < workers) {station : Station}
    (idle : station ≠ .working) {time : Nat}
    (nothing : remaining world config
      (poolAt (workerResume config) pool schedule time) = 0)
    (stands : Stands world config thread station
      (poolAt (workerResume config) pool schedule time)) :
    ∃ later, time ≤ later ∧
      Stands world config thread .finished
        (poolAt (workerResume config) pool schedule later) := by
  generalize isDistance : station.distance = distance
  induction distance generalizing station time with
  | zero =>
      have ended : station = .finished := by
        cases station <;> first | rfl | cases isDistance
      rw [ended] at stands
      exact ⟨time, Nat.le_refl _, stands⟩
  | succ distance induction =>
      have alive : station ≠ .finished := by
        rintro rfl
        cases isDistance
      have nearer :
          ∃ later, time ≤ later ∧
            ∃ station', station' ≠ .working ∧
              station'.distance = distance ∧
              Stands world config thread station'
                (poolAt (workerResume config) pool schedule later) := by
        refine station_leads noCheck fair begins isThread alive
          (fun pool => remaining world config pool = 0)
          (fun pool => ∃ station', station' ≠ .working ∧
            station'.distance = distance ∧
            Stands world config thread station' pool) ?_ ?_ nothing stands
        · intro pool move underway nothing
          have below := remaining_step_le noCheck underway move
          exact Or.inr (by omega)
        · intro pool choice station' underway nothing standsNext follows
          rcases follows.of_nothing
              (queue_eq_nil_of_remaining underway nothing)
              (outstanding_eq_zero_of_remaining noCheck underway nothing)
              idle with ⟨idleToo, closer⟩
          exact ⟨station', idleToo, by omega, standsNext⟩
      rcases nearer with ⟨middle, after, station', idleToo, closer, standsToo⟩
      have below := remainingAt_le schedule noCheck begins after
      rcases induction idleToo (by omega) standsToo closer with
        ⟨later, afterwards, ended⟩
      exact ⟨later, Nat.le_trans after afterwards, ended⟩

omit fair in
/-- Something stays queued until a worker takes it. -/
theorem busy_or_queued (left : Nat)
    (pool : Pool (machine world.environment capacity) Bool)
    (move : Move (machine world.environment capacity))
    (underway : Underway world config workers pool)
    (queued : pool.state.queue ≠ []) :
    Busy world config workers left
        (Pool.step (workerResume config) pool move) ∨
      (Pool.step (workerResume config) pool move).state.queue ≠ [] := by
  rcases Pool.step_cases pool move with
    ⟨drift, _⟩ | ⟨thread, choice, op, next, rfl, running, stepped⟩ | same
  · exact drift.elim
  · rcases underway.costs with ⟨amount, stations, progress⟩
    rcases exists_of_forall₂ progress.stands running with
      ⟨station, _, stands⟩
    have isThread : thread < workers := by
      rw [← underway.workers]
      exact (List.getElem?_eq_some_iff.mp running).1
    have alive : station ≠ .finished := by
      rintro rfl
      cases stands
    rcases Stands.turn noCheck underway alive ⟨_, running, stands⟩ choice
      with ⟨station', standsNext, follows⟩
    cases follows with
    | take present => exact Or.inl (Or.inr ⟨thread, isThread, standsNext⟩)
    | work => exact Or.inl (Or.inr ⟨thread, isThread, standsNext⟩)
    | start same =>
        rw [same]
        exact Or.inr queued
    | look same =>
        rw [same]
        exact Or.inr queued
    | miss empty same => exact absurd empty queued
    | again same busy =>
        rw [same]
        exact Or.inr queued
    | leave same done =>
        rw [same]
        exact Or.inr queued
    | finish same =>
        rw [same]
        exact Or.inr queued
  · rw [same]
    exact Or.inr queued

/-- A worker that will look at the queue finds what is queued. -/
theorem takes_queued (begins : Underway world config workers pool)
    {thread : Nat} (isThread : thread < workers) (left : Nat)
    {station : Station} (eager : station.Eager) {time : Nat}
    (queued :
      (poolAt (workerResume config) pool schedule time).state.queue ≠ [])
    (stands : Stands world config thread station
      (poolAt (workerResume config) pool schedule time)) :
    ∃ later, time ≤ later ∧
      Busy world config workers left
        (poolAt (workerResume config) pool schedule later) := by
  generalize isDistance : station.distance = distance
  induction distance using Nat.strongRecOn generalizing station time with
  | ind distance induction =>
      by_cases working : station = .working
      · rw [working] at stands
        exact ⟨time, Nat.le_refl _, Or.inr ⟨thread, isThread, stands⟩⟩
      · have alive : station ≠ .finished := by
          rintro rfl
          exact eager
        have nearer :
            ∃ later, time ≤ later ∧
              (Busy world config workers left
                  (poolAt (workerResume config) pool schedule later) ∨
                ((poolAt (workerResume config) pool schedule
                    later).state.queue ≠ [] ∧
                  ∃ station', station'.Eager ∧
                    station'.distance < distance ∧
                    Stands world config thread station'
                      (poolAt (workerResume config) pool schedule
                        later))) := by
          refine station_leads noCheck fair begins isThread alive
            (fun pool => pool.state.queue ≠ [])
            (fun pool => Busy world config workers left pool ∨
              (pool.state.queue ≠ [] ∧ ∃ station', station'.Eager ∧
                station'.distance < distance ∧
                Stands world config thread station' pool)) ?_ ?_ queued
            stands
          · intro pool move underway queued
            rcases busy_or_queued noCheck left pool move underway queued with
              busy | queued
            · exact Or.inl (Or.inl busy)
            · exact Or.inr queued
          · intro pool choice station' underway queued standsNext follows
            cases follows with
            | start same =>
                rw [same]
                exact Or.inr ⟨queued, .looking, trivial,
                  by rw [← isDistance]; decide, standsNext⟩
            | look same =>
                rw [same]
                exact Or.inr ⟨queued, .popping, trivial,
                  by rw [← isDistance]; decide, standsNext⟩
            | take present =>
                exact Or.inl (Or.inr ⟨thread, isThread, standsNext⟩)
            | miss empty same => exact absurd empty queued
            | again same busy => exact eager.elim
            | leave same done => exact eager.elim
            | work => exact absurd rfl working
            | finish same => exact absurd rfl working
        rcases nearer with
          ⟨middle, after, busy | ⟨queued, station', eager, closer, stands⟩⟩
        · exact ⟨middle, after, busy⟩
        · rcases induction _ closer eager queued stands rfl with
            ⟨later, afterwards, busy⟩
          exact ⟨later, Nat.le_trans after afterwards, busy⟩

/-- While something is left, some worker comes to do a part of it. -/
theorem becomes_busy (begins : Underway world config workers pool)
    {time : Nat}
    (something : 0 < remaining world config
      (poolAt (workerResume config) pool schedule time)) (left : Nat) :
    ∃ later, time ≤ later ∧
      Busy world config workers left
        (poolAt (workerResume config) pool schedule later) := by
  have underway := underwayAt schedule noCheck begins time
  rcases underway.costs with ⟨amount, stations, progress⟩
  have isThread :
      ∀ {thread : Nat} {program : Action Bool},
        (poolAt (workerResume config) pool schedule
          time).threads[thread]? = some program → thread < workers := by
    intro thread program running
    rw [← underway.workers]
    exact (List.getElem?_eq_some_iff.mp running).1
  by_cases queued :
      (poolAt (workerResume config) pool schedule time).state.queue = []
  · -- nothing is queued, so it is the workers that owe something
    rw [remaining, queued, List.map_nil, List.sum_nil, Nat.zero_add,
      List.sum_pos_iff_exists_pos_nat] at something
    rcases something with ⟨amount, isAmount, positive⟩
    rcases List.mem_map.mp isAmount with ⟨program, running, rfl⟩
    rcases List.getElem?_of_mem running with ⟨thread, found⟩
    rcases exists_of_forall₂ progress.stands found with
      ⟨station, _, stands⟩
    have working : station = .working := by
      by_contra idle
      rw [owed_of_idle costLedger noCheck idle stands] at positive
      exact Nat.lt_irrefl _ positive
    rw [working] at stands
    exact ⟨time, Nat.le_refl _,
      Or.inr ⟨thread, isThread found, program, found, stands⟩⟩
  · rcases progress.eager queued with ⟨station, isStation, eager⟩
    rcases List.getElem_of_mem isStation with ⟨thread, bound, isThere⟩
    have boundToo := bound
    rw [progress.stands.length_eq] at boundToo
    have stands := List.Forall₂.get progress.stands bound boundToo
    rw [List.get_eq_getElem, isThere] at stands
    have found := List.getElem?_eq_getElem boundToo
    exact takes_queued noCheck fair begins (isThread found) left eager queued
      ⟨_, found, stands⟩

/-- A fair schedule uses up the work. -/
theorem work_ends (begins : Underway world config workers pool)
    (time : Nat) :
    ∃ later, time ≤ later ∧
      remaining world config
        (poolAt (workerResume config) pool schedule later) = 0 := by
  generalize isLeft :
    remaining world config
      (poolAt (workerResume config) pool schedule time) = left
  induction left using Nat.strongRecOn generalizing time with
  | ind left induction =>
      rcases Nat.eq_zero_or_pos left with rfl | positive
      · exact ⟨time, Nat.le_refl _, isLeft⟩
      · have less :
            ∃ later, time ≤ later ∧
              remaining world config
                (poolAt (workerResume config) pool schedule later) <
                  left := by
          rw [← isLeft] at positive
          rcases becomes_busy noCheck fair begins positive left with
            ⟨middle, after, lower | ⟨thread, isThread, stands⟩⟩
          · exact ⟨middle, after, lower⟩
          · have below :=
              remainingAt_le schedule noCheck begins after
            rcases works_off noCheck fair begins isThread stands with
              ⟨later, afterwards, lower⟩
            exact ⟨later, by omega, by omega⟩
        rcases less with ⟨middle, after, lower⟩
        rcases induction _ lower middle rfl with ⟨later, afterwards, nothing⟩
        exact ⟨later, by omega, nothing⟩

omit noCheck fair in
/-- A worker that has ended stays ended. -/
theorem Stands.finished_step {thread : Nat}
    {pool : Pool (machine world.environment capacity) Bool}
    (ended : Stands world config thread .finished pool)
    (move : Move (machine world.environment capacity)) :
    Stands world config thread .finished
      (Pool.step (workerResume config) pool move) := by
  cases move with
  | drift drift => exact drift.elim
  | turn other choice =>
      by_cases same : other = thread
      · subst same
        rcases ended with ⟨program, running, rfl⟩
        refine ⟨_, ?_, rfl⟩
        simp only [Pool.step, running]
      · exact ended.other same choice

/-- A fair schedule ends all workers. -/
theorem workers_end (begins : Underway world config workers pool) :
    ∃ time, ∀ program ∈
      (poolAt (workerResume config) pool schedule time).threads,
        program = .ret false := by
  rcases work_ends noCheck fair begins 0 with ⟨quiet, _, nothing⟩
  have each :
      ∀ thread, thread < workers → ∃ later,
        Stands world config thread .finished
          (poolAt (workerResume config) pool schedule later) := by
    intro thread isThread
    have underway := underwayAt schedule noCheck begins quiet
    rcases underway.costs with ⟨amount, stations, progress⟩
    have bound := isThread
    rw [← underway.workers] at bound
    have found := List.getElem?_eq_getElem bound
    rcases exists_of_forall₂ progress.stands found with
      ⟨station, _, stands⟩
    rcases worker_ends noCheck fair begins isThread
        (idle_of_remaining nothing (List.getElem_mem bound) stands) nothing
        ⟨_, found, stands⟩ with ⟨later, _, ended⟩
    exact ⟨later, ended⟩
  rcases reaches_together
      (fun thread pool => Stands world config thread .finished pool)
      (fun _ _ move ended => ended.finished_step move) each with
    ⟨time, ended⟩
  refine ⟨time, ?_⟩
  intro program running
  have underway := underwayAt schedule noCheck begins time
  rcases List.getElem?_of_mem running with ⟨thread, found⟩
  have isThread : thread < workers := by
    rw [← underway.workers]
    exact (List.getElem?_eq_some_iff.mp found).1
  rcases ended thread isThread with ⟨other, foundToo, isEnded⟩
  rw [found] at foundToo
  cases foundToo
  exact isEnded

end Schedule

end BcIo.Walk
