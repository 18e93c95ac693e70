import BcIo.Walk.Ledger
import BcIo.Foundation.Aggregate
import BcIo.Walk.Visits

/-!
# The workers of a parallel walk of a static world

Where a worker can stand, how its turns take it from one station to the next,
and what every turn conserves: what has been paid, what the queued directories
are worth and what the workers still owe add up to the same at all times.
-/

namespace BcIo.Walk

open BcIo.File
open BcIo.Foundation.Aggregate
open BcIo.Foundation.Interaction
open BcIo.Foundation.WorkerPool

/-- Where a worker stands. -/
inductive Station where
  | starting
  | looking
  | popping
  | checking
  | working
  | finished
  deriving DecidableEq, Repr

/-- The rest of a turn of the worker, from the pop on. -/
def popDirectory (config : Config) : Action Bool := do
  match ← shared .queuePop with
  | some directory => workerProcess config directory
  | none => workerCheck

/-- The rest of a turn of the worker once a directory has been processed. -/
def finishDirectory (_ : Unit) : Action Bool := do
  shared .finishOutstanding
  return true

section Stations

variable {M : Type} [AddCommMonoid M] (ledger : Ledger M)
  (world : World) (config : Config)

/-- The program of a worker at a station. -/
def At : Station → Action Bool → Prop
  | .starting, thread => thread = workerStart config
  | .looking, thread => thread = workerTurn config
  | .popping, thread => thread = popDirectory config
  | .checking, thread => thread = workerCheck
  | .working, thread => ∃ rest : Action Unit,
      ledger.Balances world config rest () ∧
        thread = rest >>= finishDirectory
  | .finished, thread => thread = .ret false

/-- What has been paid, and what the queue is worth. -/
def account (state : State Unit) : M :=
  (state.history.map ledger.toll).sum +
    (state.queue.map (ledger.value world config)).sum

/-- What a worker owes until the end of its turn. -/
def owed (thread : Action Bool) : M :=
  thread.total world.answers (ledger.charge world config)

end Stations

/-- How the turn of a worker leads from one station to another. -/
inductive Follows (before after : State Unit) : Station → Station → Prop
  | start (same : after.queue = before.queue) :
      Follows before after .starting .looking
  | look (same : after.queue = before.queue) :
      Follows before after .looking .popping
  | take (present : before.queue ≠ []) :
      Follows before after .popping .working
  | miss (empty : before.queue = []) (same : after.queue = before.queue) :
      Follows before after .popping .checking
  | again (same : after.queue = before.queue)
      (busy : before.outstanding ≠ 0) :
      Follows before after .checking .looking
  | leave (same : after.queue = before.queue)
      (done : before.outstanding = 0) :
      Follows before after .checking .finished
  | work : Follows before after .working .working
  | finish (same : after.queue = before.queue) :
      Follows before after .working .looking

variable {M : Type} [AddCommMonoid M] {ledger : Ledger M}
  {world : World} {config : Config} {capacity : Nat}

/-! ## What a worker owes at a station -/

theorem workerTurn_eq (noCheck : config.hasShouldStopCheck = false) :
    workerTurn config =
      .call (.shared .loadVisitFailed) fun halted =>
        if halted = true then .ret false else popDirectory config := by
  simp only [workerTurn, shouldStop, noCheck, Bool.false_eq_true, if_false]
  rfl

theorem owed_starting : owed ledger world config (workerStart config) = 0 := by
  refine (total_outside_bind _ _ _).trans ?_
  exact (congrArg (· + _) ledger.create).trans (add_zero _)

theorem owed_checking : owed ledger world config workerCheck = 0 := by
  refine (total_shared_bind _ _ _).trans ?_
  exact (congrArg (· + _) ledger.check).trans (add_zero _)

theorem owed_popping :
    owed ledger world config (popDirectory config) = 0 := by
  refine (total_shared_bind _ _ _).trans ?_
  refine (congrArg (· + _) ledger.pop).trans ?_
  rw [zero_add]
  exact owed_checking

theorem owed_looking (noCheck : config.hasShouldStopCheck = false) :
    owed ledger world config (workerTurn config) = 0 := by
  rw [workerTurn_eq noCheck]
  refine (Program.total_call _ _ _ _).trans ?_
  refine (congrArg (· + _) ledger.load).trans ?_
  rw [zero_add]
  exact owed_popping

theorem owed_working {rest : Action Unit}
    (balances : ledger.Balances world config rest ()) :
    owed ledger world config (rest >>= finishDirectory) =
      rest.total world.answers (ledger.charge world config) +
        ledger.toll (.shared .undoOutstanding) := by
  have returned := Program.Balanced.outcome Ledger.admits_tariff balances
  refine (Program.total_bind _ _ returned _).trans ?_
  congr 1
  refine (total_shared_bind _ _ _).trans ?_
  exact (add_zero _).trans ledger.lowers

/-- A popped directory is worth what the worker then owes. -/
theorem working_of_pop {directory : Directory} (proper : Proper directory) :
    At ledger world config .working (workerProcess config directory) ∧
      owed ledger world config (workerProcess config directory) =
        ledger.value world config directory := by
  have balances :
      ledger.Balances world config
        (processDirectory config maxPathLength directory) () :=
    Ledger.balances_processDirectory proper (Nat.le_add_left _ _)
  refine ⟨⟨_, balances, rfl⟩, ?_⟩
  refine (owed_working balances).trans ?_
  exact Ledger.total_processDirectory 4095 proper

/-! ## One turn -/

/-- The state after an operation, and the response. -/
abbrev handled (world : World) (capacity : Nat) (state : State Unit)
    (choice : Unit × QueueChoice) (op : Op) : op.Response × State Unit :=
  (machine world.environment capacity).handle state choice op

theorem account_append (state : State Unit) (queue : List Directory)
    (op : Op) {after : State Unit}
    (history : after.history = state.history ++ [op])
    (isQueue : after.queue = queue) :
    account ledger world config after =
      (state.history.map ledger.toll).sum + ledger.toll op +
        (queue.map (ledger.value world config)).sum := by
  rw [account, history, isQueue, List.map_append, List.sum_append,
    List.map_singleton, List.sum_singleton]

/-- An operation that leaves the queue alone is paid for. -/
theorem account_of_same_queue (state : State Unit) (op : Op)
    {after : State Unit}
    (history : after.history = state.history ++ [op])
    (same : after.queue = state.queue) :
    account ledger world config after =
      account ledger world config state + ledger.toll op := by
  rw [account_append state state.queue op history same, account]
  abel

/-- What the machine does for a worker that is processing a directory. -/
theorem handled_of_uses {state : State Unit}
    (noFailure : state.visitFailed = false)
    (proper : ∀ directory ∈ state.queue, Proper directory) {op : Op}
    (uses : (ledger.tariff world config).uses op)
    (choice : Unit × QueueChoice) :
    (ledger.tariff world config).allowed op
        (handled world capacity state choice op).1 ∧
      account ledger world config
          (handled world capacity state choice op).2 =
        account ledger world config state +
          (ledger.tariff world config).spent op
            (handled world capacity state choice op).1 ∧
      (handled world capacity state choice op).2.visitFailed = false ∧
      ∀ directory ∈ (handled world capacity state choice op).2.queue,
        Proper directory := by
  cases op with
  | outside call =>
      exact ⟨rfl, account_of_same_queue state _ rfl rfl, noFailure, proper⟩
  | shared access =>
      cases access with
      | loadVisitFailed =>
          exact ⟨noFailure, account_of_same_queue state _ rfl rfl, noFailure,
            proper⟩
      | count counter =>
          exact ⟨trivial, account_of_same_queue state _ rfl rfl, noFailure,
            proper⟩
      | raiseOutstanding =>
          exact ⟨trivial, account_of_same_queue state _ rfl rfl, noFailure,
            proper⟩
      | undoOutstanding =>
          exact ⟨trivial, account_of_same_queue state _ rfl rfl, noFailure,
            proper⟩
      | queuePush directory =>
          refine ⟨trivial, ?_⟩
          by_cases accepts :
              state.queue.length < capacity ∧ choice.2.refuse = false
          · have result :
                handled world capacity state choice
                    (.shared (.queuePush directory)) =
                  (true, { state with
                    queue := state.queue ++ [directory]
                    history := state.history ++
                      [.shared (.queuePush directory)] }) := by
              simp only [handled, respond, touch, if_pos accepts]
            rw [result]
            refine ⟨?_, noFailure, ?_⟩
            · refine (account_append state _ _ rfl rfl).trans ?_
              change _ = account ledger world config state +
                (ledger.pushed + ledger.value world config directory)
              rw [ledger.push, List.map_append, List.sum_append,
                List.map_singleton, List.sum_singleton, account]
              abel
            · intro other isOther
              rcases List.mem_append.mp isOther with before | isNew
              · exact proper other before
              · rw [List.mem_singleton.mp isNew]
                exact uses
          · have result :
                handled world capacity state choice
                    (.shared (.queuePush directory)) =
                  (false, { state with
                    history := state.history ++
                      [.shared (.queuePush directory)] }) := by
              simp only [handled, respond, touch, if_neg accepts]
            have paid :
                account ledger world config
                    (handled world capacity state choice
                      (.shared (.queuePush directory))).2 =
                  account ledger world config state + ledger.pushed := by
              rw [← ledger.push directory]
              exact account_of_same_queue state _ rfl (by rw [result])
            rw [result] at paid ⊢
            exact ⟨paid, noFailure, proper⟩
      | storeVisitFailed => exact uses.elim
      | finishOutstanding => exact uses.elim
      | loadOutstanding => exact uses.elim
      | queuePop => exact uses.elim

/-- A worker that is still processing a directory has not returned. -/
theorem settle_working (rest : Action Unit) :
    Pool.settle (workerResume config) (rest >>= finishDirectory) =
      rest >>= finishDirectory := by
  cases rest with
  | ret value => rfl
  | call op next => rfl
  | stuck => rfl

/-- What the turn of a worker from one station to another keeps. -/
structure Turned (ledger : Ledger M) (world : World) (config : Config)
    (before after : State Unit) (station : Station)
    (thread next : Action Bool) : Prop where
  moves : ∃ station', At ledger world config station' next ∧
    Follows before after station station'
  conserved :
    account ledger world config after + owed ledger world config next =
      account ledger world config before + owed ledger world config thread
  noFailure : after.visitFailed = false
  proper : ∀ directory ∈ after.queue, Proper directory

section Turn

variable {state : State Unit} (noFailure : state.visitFailed = false)
  (proper : ∀ directory ∈ state.queue, Proper directory)
  (choice : Unit × QueueChoice)

include proper in
/-- A free operation that leaves the queue alone, towards a free station. -/
theorem Turned.free {before after : Station} {op : Op}
    {thread next : Action Bool}
    (isFree : ledger.toll op = 0)
    (same : (handled world capacity state choice op).2.queue = state.queue)
    (still : (handled world capacity state choice op).2.visitFailed = false)
    (owedBefore : owed ledger world config thread = 0)
    (owedAfter : owed ledger world config next = 0)
    (follows : Follows state (handled world capacity state choice op).2
      before after)
    (stands : At ledger world config after next) :
    Turned ledger world config state
      (handled world capacity state choice op).2 before thread next where
  moves := ⟨after, stands, follows⟩
  conserved := by
    rw [account_of_same_queue state op rfl same, isFree, owedBefore,
      owedAfter, add_zero]
  noFailure := still
  proper := by
    rw [same]
    exact proper

include noFailure proper

theorem turned_starting (noCheck : config.hasShouldStopCheck = false) :
    Turned ledger world config state
      (handled world capacity state choice
        (.outside .direntReaderCreate)).2
      .starting (workerStart config) (workerTurn config) :=
  .free proper choice ledger.create rfl noFailure owed_starting
    (owed_looking noCheck) (.start rfl) rfl

theorem turned_looking (noCheck : config.hasShouldStopCheck = false) :
    Turned ledger world config state
      (handled world capacity state choice (.shared .loadVisitFailed)).2
      .looking (workerTurn config) (popDirectory config) :=
  .free proper choice ledger.load rfl noFailure
    (owed_looking noCheck) owed_popping (.look rfl) rfl

theorem turned_checking_again (noCheck : config.hasShouldStopCheck = false)
    (busy : state.outstanding ≠ 0) :
    Turned ledger world config state
      (handled world capacity state choice (.shared .loadOutstanding)).2
      .checking workerCheck (workerTurn config) :=
  .free proper choice ledger.check rfl noFailure owed_checking
    (owed_looking noCheck) (.again rfl busy) rfl

theorem turned_checking_leave (done : state.outstanding = 0) :
    Turned ledger world config state
      (handled world capacity state choice (.shared .loadOutstanding)).2
      .checking workerCheck (.ret false) :=
  .free proper choice ledger.check rfl noFailure owed_checking rfl
    (.leave rfl done) rfl

theorem turned_finish (noCheck : config.hasShouldStopCheck = false) :
    Turned ledger world config state
      (handled world capacity state choice (.shared .finishOutstanding)).2
      .working (finishDirectory ()) (workerTurn config) where
  moves := ⟨.looking, rfl, .finish rfl⟩
  conserved := by
    have owes :
        owed ledger world config (finishDirectory ()) =
          ledger.toll (.shared .finishOutstanding) :=
      (total_shared_bind _ _ _).trans (add_zero _)
    have paid :
        account ledger world config
            (handled world capacity state choice
              (.shared .finishOutstanding)).2 =
          account ledger world config state +
            ledger.toll (.shared .finishOutstanding) :=
      account_of_same_queue state _ rfl rfl
    rw [paid, owes, owed_looking noCheck, add_zero]
  noFailure := noFailure
  proper := proper

theorem turned_working {op : Op} {inner : op.Response → Action Unit}
    (balances : ledger.Balances world config (.call op inner) ()) :
    Turned ledger world config state
      (handled world capacity state choice op).2 .working
      (.call op inner >>= finishDirectory)
      (inner (handled world capacity state choice op).1 >>=
        finishDirectory) := by
  rcases handled_of_uses noFailure proper balances.1 choice with
    ⟨allowed, paid, still, properToo⟩
  rcases balances.2 _ allowed with ⟨spends, continues⟩
  refine ⟨⟨.working, ⟨_, continues, rfl⟩, .work⟩, ?_, still, properToo⟩
  rw [owed_working continues, owed_working balances, paid, spends]
  abel

theorem turned_popping_none (empty : state.queue = []) :
    (handled world capacity state choice (.shared .queuePop)).1 = none ∧
      Turned ledger world config state
        (handled world capacity state choice (.shared .queuePop)).2
        .popping (popDirectory config) workerCheck := by
  have same :
      (handled world capacity state choice (.shared .queuePop)).2.queue =
        state.queue := by
    simp [respond, touch, empty]
  refine ⟨by simp [respond, touch, empty], ?_⟩
  exact .free proper choice ledger.pop same noFailure owed_popping
    owed_checking (.miss empty same) rfl

/-- A worker that pops a directory owes what the directory was worth. -/
theorem turned_popping_some (present : state.queue ≠ []) :
    ∃ directory,
      (handled world capacity state choice (.shared .queuePop)).1 =
          some directory ∧
        Turned ledger world config state
          (handled world capacity state choice (.shared .queuePop)).2
          .popping (popDirectory config) (workerProcess config directory) := by
  have inside :
      choice.2.position % state.queue.length < state.queue.length :=
    Nat.mod_lt _ (List.length_pos_iff.mpr present)
  generalize isPosition :
    choice.2.position % state.queue.length = position at inside
  have result :
      handled world capacity state choice (.shared .queuePop) =
        (some state.queue[position], { state with
          queue := state.queue.eraseIdx position
          history := state.history ++ [.shared .queuePop] }) := by
    simp only [handled, respond, touch, isPosition,
      List.getElem?_eq_getElem inside]
  rcases @working_of_pop M _ ledger world config state.queue[position]
      (proper _ (List.getElem_mem inside)) with ⟨stands, owes⟩
  refine ⟨state.queue[position], by rw [result], ?_⟩
  rw [result]
  refine ⟨⟨.working, stands, .take present⟩, ?_, noFailure, ?_⟩
  · have order := List.getElem_cons_eraseIdx_perm inside
    have worth := (order.map (ledger.value world config)).sum_eq
    rw [List.map_cons, List.sum_cons] at worth
    refine (congrArg (· + _) (account_append state
      (state.queue.eraseIdx position) (.shared .queuePop) rfl rfl)).trans ?_
    rw [owes, owed_popping, ledger.pop, account, ← worth]
    abel
  · intro directory member
    exact proper directory (List.mem_of_mem_eraseIdx member)

/-- Every turn of a worker leads from its station to another. -/
theorem turned (noCheck : config.hasShouldStopCheck = false)
    {station : Station} {op : Op} {next : op.Response → Action Bool}
    (stands : At ledger world config station (.call op next)) :
    Turned ledger world config state
      (handled world capacity state choice op).2 station (.call op next)
      (Pool.settle (workerResume config)
        (next (handled world capacity state choice op).1)) := by
  cases station with
  | starting =>
      cases stands
      exact turned_starting noFailure proper choice noCheck
  | looking =>
      change Program.call op next = workerTurn config at stands
      rw [workerTurn_eq noCheck] at stands
      cases stands
      have moved := @turned_looking M _ ledger world config capacity state
        noFailure proper choice noCheck
      rw [workerTurn_eq noCheck] at moved
      change Turned _ _ _ _ _ _ _
        (Pool.settle _ (if state.visitFailed = true then _ else _))
      rw [noFailure]
      exact moved
  | popping =>
      cases stands
      by_cases empty : state.queue = []
      · rcases @turned_popping_none M _ ledger world config capacity state
          noFailure proper choice empty with ⟨missed, moved⟩
        rw [missed]
        exact moved
      · rcases @turned_popping_some M _ ledger world config capacity state
          noFailure proper choice empty with ⟨directory, popped, moved⟩
        rw [popped]
        exact moved
  | checking =>
      cases stands
      by_cases done : state.outstanding = 0
      · have decided : decide (state.outstanding ≠ 0) = false := by
          simp [done]
        change Turned _ _ _ _ _ _ _
          (Pool.settle _ (.ret (decide (state.outstanding ≠ 0))))
        rw [decided]
        exact turned_checking_leave noFailure proper choice done
      · have decided : decide (state.outstanding ≠ 0) = true := by
          simp [done]
        change Turned _ _ _ _ _ _ _
          (Pool.settle _ (.ret (decide (state.outstanding ≠ 0))))
        rw [decided]
        exact turned_checking_again noFailure proper choice noCheck done
  | working =>
      rcases stands with ⟨rest, balances, isThread⟩
      cases rest with
      | ret value =>
          cases isThread
          exact turned_finish noFailure proper choice noCheck
      | call other inner =>
          cases isThread
          change Turned _ _ _ _ _ _ _
            (Pool.settle (workerResume config) (inner _ >>= finishDirectory))
          rw [settle_working]
          exact turned_working noFailure proper choice balances
      | stuck => exact balances.elim
  | finished => cases stands

end Turn

/-! ## The whole pool -/

/-- A worker that will look at the queue before it ends. -/
def Station.Eager : Station → Prop
  | .checking => False
  | .finished => False
  | _ => True

/--
The invariant of a parallel walk: every worker stands at some station, the
ledger adds up to `amount`, and while something is queued there is a worker that
will look.
-/
structure Progress (ledger : Ledger M) (world : World) (config : Config)
    (amount : M) (pool : Pool (machine world.environment capacity) Bool)
    (stations : List Station) : Prop where
  stands : List.Forall₂ (At ledger world config) stations pool.threads
  noFailure : pool.state.visitFailed = false
  proper : ∀ directory ∈ pool.state.queue, Proper directory
  conserved :
    account ledger world config pool.state +
        (pool.threads.map (owed ledger world config)).sum =
      amount
  eager : pool.state.queue ≠ [] → ∃ station ∈ stations, station.Eager

/-- While something is queued, a turn leaves a worker that will look. -/
theorem eager_of_follows {before after : State Unit}
    {stations : List Station} {index : Nat} {station next : Station}
    (eager : before.queue ≠ [] → ∃ station ∈ stations, station.Eager)
    (found : stations[index]? = some station)
    (follows : Follows before after station next)
    (present : after.queue ≠ []) :
    ∃ station ∈ stations.set index next, station.Eager := by
  have inside : index < stations.length :=
    (List.getElem?_eq_some_iff.mp found).1
  have here : next ∈ stations.set index next :=
    List.mem_set inside next
  cases follows with
  | miss empty same =>
      rw [same] at present
      exact absurd empty present
  | leave same done =>
      rw [same] at present
      rcases eager present with ⟨other, isOther, isEager⟩
      rcases List.getElem_of_mem isOther with ⟨position, bound, isThere⟩
      have differs : index ≠ position := by
        rintro rfl
        rw [List.getElem?_eq_getElem bound, isThere] at found
        cases found
        exact isEager
      refine ⟨other, ?_, isEager⟩
      rw [← isThere, ← List.getElem_set_ne differs (by simpa using bound)]
      exact List.getElem_mem _
  | _ => exact ⟨_, here, trivial⟩

/-- The turn of a worker keeps the invariant. -/
theorem Progress.turn (noCheck : config.hasShouldStopCheck = false)
    {amount : M} {pool : Pool (machine world.environment capacity) Bool}
    {stations : List Station}
    (progress : Progress ledger world config amount pool stations)
    {thread : Nat} {op : Op} {next : op.Response → Action Bool}
    (running : pool.threads[thread]? = some (.call op next))
    (choice : Unit × QueueChoice) :
    ∃ station station', stations[thread]? = some station ∧
      Follows pool.state (handled world capacity pool.state choice op).2
        station station' ∧
      Progress ledger world config amount
        (Pool.step (workerResume config) pool (.turn thread choice))
        (stations.set thread station') := by
  rcases exists_of_forall₂ progress.stands running with
    ⟨station, found, stands⟩
  have turn := @turned M _ ledger world config capacity pool.state
    progress.noFailure progress.proper choice noCheck station op next stands
  rcases turn.moves with ⟨station', standsNext, follows⟩
  refine ⟨station, station', found, follows, ?_⟩
  rw [Pool.step_call running]
  refine ⟨forall₂_set progress.stands thread standsNext, turn.noFailure,
    turn.proper, ?_, eager_of_follows progress.eager found follows⟩
  rcases sum_map_set (owed ledger world config) running
      (Pool.settle (workerResume config)
        (next (handled world capacity pool.state choice op).1)) with
    ⟨others, before, after⟩
  rw [← progress.conserved, before, ← add_assoc, ← turn.conserved]
  refine (congrArg _ after).trans ?_
  exact (add_assoc _ _ _).symm

/-- Every step keeps the invariant. -/
theorem Progress.step (noCheck : config.hasShouldStopCheck = false)
    {amount : M} (pool : Pool (machine world.environment capacity) Bool)
    (move : Move (machine world.environment capacity))
    (progress : ∃ stations,
      Progress ledger world config amount pool stations) :
    ∃ stations, Progress ledger world config amount
      (Pool.step (workerResume config) pool move) stations := by
  rcases progress with ⟨stations, progress⟩
  rcases Pool.step_cases pool move with
    ⟨drift, _⟩ | ⟨thread, choice, op, next, rfl, running, _⟩ | same
  · exact drift.elim
  · rcases progress.turn noCheck running choice with
      ⟨_, station', _, _, continues⟩
    exact ⟨_, continues⟩
  · rw [same]
    exact ⟨stations, progress⟩

end BcIo.Walk
