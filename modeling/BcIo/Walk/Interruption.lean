import BcIo.Walk.Itinerary
import BcIo.Walk.Failure

/-!
# What an interruption leaves out

A walk that is asked to stop, or whose visit fails, makes no other visits than
an uninterrupted one.  The sequential walk has visited the first entries of its
itinerary.  In a parallel walk the entries are divided among what has been
visited, what the workers have left to visit, and what lies below the queued
directories; a worker that has no reader for a refused directory gives up what
lies below it.
-/

namespace BcIo.Walk

open BcIo.File
open BcIo.Foundation.Aggregate
open BcIo.Foundation.Bookkeeping
open BcIo.Foundation.Interaction
open BcIo.Foundation.WorkerPool

variable {world : World} {config : Config} {shares : Prop}

/--
An environment in which a static world is walked, except that visits may fail,
that the walk may be asked to stop, and that readers may be missing.
-/
structure FixedFiles (world : World) (environment : Environment) : Prop where
  answers : ∀ situation choice call, call ≠ .shouldStopCheck →
    call ≠ .direntReaderCreate → (∀ entry, call ≠ .visit entry) →
    (environment.answer situation choice call).1 = world.answer call

/-- Once the walk has been asked to stop, it is `stopped`, and remains so. -/
structure Remembers (environment : Environment)
    (stopped : environment.Situation → Prop) : Prop where
  asks : ∀ situation choice,
    (environment.answer situation choice .shouldStopCheck).1 = true →
    stopped (environment.answer situation choice .shouldStopCheck).2
  remains : ∀ situation choice call, stopped situation →
    stopped (environment.answer situation choice call).2
  drifts : ∀ situation change, stopped situation →
    stopped (environment.change situation change)

/-- Whether a walk was asked to stop need not be known. -/
theorem remembers_nothing (environment : Environment) :
    Remembers environment fun _ => True where
  asks _ _ _ := trivial
  remains _ _ _ _ := trivial
  drifts _ _ _ := trivial

/--
An environment in which a static world is walked and all readers are created,
except that visits may fail, and that the walk may be asked to stop; from then
on it always is.
-/
structure Interruptible (world : World) (environment : Environment)
    (stopped : environment.Situation → Prop) : Prop
    extends FixedFiles world environment, Remembers environment stopped where
  creates : ∀ situation choice,
    (environment.answer situation choice .direntReaderCreate).1 = true
  insists : ∀ situation choice, stopped situation →
    (environment.answer situation choice .shouldStopCheck).1 = true

section Runs

variable {environment : Environment}
  {stopped : environment.Situation → Prop}

/-- A thread that has broken off has a reason. -/
def Informed (stopped : environment.Situation → Prop)
    (state : State environment.Situation) (held : Tour) : Prop :=
  (held.course = .flagged → state.visitFailed = true) ∧
    (held.course = .stopped → stopped state.situation)

variable (remembers : Remembers environment stopped)
  {capacity : Nat} {state : State environment.Situation} {held : Tour}
  (informed : Informed stopped state held)
  (choice : environment.Choice × QueueChoice)

include remembers informed in
/-- The reasons stay. -/
theorem Informed.handle (capacity : Nat) (op : Op) :
    Informed stopped
      ((machine environment capacity).handle state choice op).2 held := by
  refine ⟨?_, ?_⟩
  · intro isFlagged
    rw [visitFailed_handle]
    exact Or.inl (informed.1 isFlagged)
  · intro isStopped
    have before := informed.2 isStopped
    cases op with
    | outside call => exact remembers.remains _ _ call before
    | shared access =>
        cases access with
        | queuePush directory =>
            simp only [respond, touch]
            split <;> exact before
        | _ => exact before

include informed in
/-- A thread is answered as allowed, if one that shares nothing is told so. -/
theorem Informed.allowed (fixed : FixedFiles world environment)
    (proper : ∀ directory ∈ state.queue, Proper directory) (op : Op)
    (alone : ¬ shares →
      op = .outside .shouldStopCheck ∨ op = .outside .direntReaderCreate →
      Tour.allowed world shares held op
        ((machine environment capacity).handle state choice op).1) :
    Tour.allowed world shares held op
      ((machine environment capacity).handle state choice op).1 := by
  cases op with
  | outside call =>
      cases call with
      | shouldStopCheck =>
          exact fun isAlone => alone isAlone (Or.inl rfl) isAlone
      | direntReaderCreate =>
          exact fun isAlone => alone isAlone (Or.inr rfl) isAlone
      | visit entry => trivial
      | _ =>
          exact fixed.answers _ _ _ Call.noConfusion Call.noConfusion
            fun _ => Call.noConfusion
  | shared access =>
      cases access with
      | loadVisitFailed => exact informed.1
      | queuePop =>
          intro directory popped
          exact proper directory (mem_queue_of_popped popped)
      | _ => trivial

include remembers informed in
/-- What a thread notes has a reason, too. -/
theorem Informed.note (op : Op) :
    Informed stopped
      ((machine environment capacity).handle state choice op).2
      (Tour.note world config held op
        ((machine environment capacity).handle state choice op).1) := by
  have kept := informed.handle remembers choice capacity op
  cases op with
  | outside call =>
      cases call with
      | shouldStopCheck =>
          change Informed stopped _ (if _ = true then _ else _)
          split
          · rename_i asked
            exact ⟨Course.noConfusion, fun _ => remembers.asks _ _ asked⟩
          · exact kept
      | direntReaderCreate =>
          unfold Tour.note
          dsimp only
          split
          · exact ⟨Course.noConfusion, Course.noConfusion⟩
          · exact kept
      | visit entry =>
          change Informed stopped _
            ⟨_, if _ = true then held.course else .failing⟩
          split
          · exact kept
          · exact ⟨Course.noConfusion, Course.noConfusion⟩
      | _ => exact kept
  | shared access =>
      cases access with
      | storeVisitFailed => exact ⟨fun _ => rfl, Course.noConfusion⟩
      | loadVisitFailed =>
          change Informed stopped _ (if _ = true then _ else _)
          split
          · rename_i flag
            exact ⟨fun _ => flag, Course.noConfusion⟩
          · exact kept
      | queuePush directory =>
          change Informed stopped _ (if _ = true then _ else _)
          split
          · exact kept
          · exact ⟨Course.noConfusion, Course.noConfusion⟩
      | queuePop =>
          unfold Tour.note
          dsimp only
          split
          · exact kept
          · exact kept
      | _ => exact kept

theorem visits_handle (capacity : Nat) (op : Op) :
    ((machine environment capacity).handle state choice op).2.visits =
      state.visits ++ (visitOf op).toList := by
  have history :
      ((machine environment capacity).handle state choice op).2.history =
        state.history ++ [op] :=
    rfl
  rw [State.visits, history, List.filterMap_append, State.visits]
  cases picked : visitOf op <;> simp [picked]

/-! ## The sequential walk -/

/-- The operations that hand directories over, take them or give them up. -/
def Sharing : Op → Prop
  | .outside .direntReaderCreate => True
  | .shared (.queuePush _) => True
  | .shared .queuePop => True
  | _ => False

/-- An operation that hands nothing over takes off what it visits. -/
theorem Tour.rest_note {op : Op}
    (permitted : Tour.permits world config shares held op)
    (alone : ¬ Sharing op) (response : op.Response) :
    (visitOf op).toList ++ (Tour.note world config held op response).rest =
      held.rest := by
  cases op with
  | outside call =>
      cases call with
      | visit entry =>
          rcases List.head?_eq_some_iff.mp permitted.2 with ⟨rest, isRest⟩
          change [entry] ++ held.rest.tail = held.rest
          rw [isRest]
          rfl
      | shouldStopCheck =>
          change (if response = true then _ else _ : Tour).rest = _
          split <;> rfl
      | direntReaderCreate => exact absurd trivial alone
      | _ => rfl
  | shared access =>
      cases access with
      | loadVisitFailed =>
          change (if response = true then _ else _ : Tour).rest = _
          split <;> rfl
      | queuePush directory => exact absurd trivial alone
      | queuePop => exact absurd trivial alone
      | _ => rfl

variable (world config held) in
/-- A thread that gets its reader gives nothing up. -/
theorem Tour.rest_created :
    (Tour.note world config held (.outside .direntReaderCreate) true).rest =
      held.rest := by
  unfold Tour.note
  dsimp only
  split <;> rfl

variable (world config held) in
/-- A thread with or without a reader takes nothing on. -/
theorem Tour.rest_create_sublist (created : Bool) :
    List.Sublist
      (Tour.note world config held (.outside .direntReaderCreate)
        created).rest
      held.rest := by
  cases created with
  | true => simp [rest_created]
  | false =>
      unfold Tour.note
      dsimp only
      split
      · exact List.drop_sublist _ _
      · exact List.Sublist.refl _

theorem queue_handle {op : Op} (alone : ¬ Sharing op) :
    ((machine environment capacity).handle state choice op).2.queue =
      state.queue := by
  cases op with
  | outside call => rfl
  | shared access =>
      cases access with
      | queuePush directory => exact absurd trivial alone
      | queuePop => exact absurd trivial alone
      | _ => rfl

/-- A thread that is alone hands nothing over, and gives nothing up. -/
theorem not_sharing_of_permits {op : Op}
    (permitted : Tour.permits world config False held op) :
    op = .outside .direntReaderCreate ∨ ¬ Sharing op := by
  cases op with
  | outside call =>
      cases call with
      | direntReaderCreate => exact Or.inl rfl
      | _ => exact Or.inr id
  | shared access =>
      cases access with
      | queuePush directory => exact permitted.1.elim
      | queuePop => exact permitted.elim
      | _ => exact Or.inr id

/-- What is visited and what is left make up the itinerary. -/
def Itinerant (stopped : environment.Situation → Prop)
    (whole : List Entry) (state : State environment.Situation)
    (notes : List Tour) : Prop :=
  state.queue = [] ∧ ∃ held, notes = [held] ∧
    Informed stopped state held ∧ state.visits ++ held.rest = whole

theorem upholds_itinerant {α : Type}
    (interruptible : Interruptible world environment stopped)
    (whole : List Entry) :
    Noted.Upholds (α := α) (touring world config False)
      (fun _ _ => True)
      (fun (state : (machine environment capacity).State) notes =>
        Itinerant stopped whole state notes) where
  turn := by
    rintro noted thread choice op next held ⟨noQueue, own, isOwn, informed,
      adds⟩ running found permitted _
    rw [isOwn] at found ⊢
    have isThread : thread = 0 := by
      have inside := (List.getElem?_eq_some_iff.mp found).1
      simpa using inside
    subst isThread
    cases found
    have isAllowed :
        Tour.allowed world False held op
          ((machine environment capacity).handle noted.pool.state choice
            op).1 := by
      refine informed.allowed choice interruptible.toFixedFiles ?_ op ?_
      · intro directory member
        rw [noQueue] at member
        cases member
      · rintro _ (rfl | rfl)
        · exact fun _ isStopped =>
            interruptible.insists _ _ (informed.2 isStopped)
        · exact fun _ => interruptible.creates _ _
    have isNoted :
        Informed stopped
          ((machine environment capacity).handle noted.pool.state choice op).2
          (Tour.note world config held op
            ((machine environment capacity).handle noted.pool.state choice
              op).1) :=
      informed.note interruptible.toRemembers choice op
    rcases not_sharing_of_permits permitted with rfl | alone
    · refine ⟨isAllowed, noQueue, _, rfl, isNoted, ?_⟩
      rw [visits_handle, isAllowed id]
      exact (congrArg₂ _ (List.append_nil _)
        (Tour.rest_created world config held)).trans adds
    · refine ⟨isAllowed, (queue_handle choice alone).trans noQueue, _, rfl,
        isNoted, ?_⟩
      rw [visits_handle, List.append_assoc]
      exact (congrArg _ (Tour.rest_note permitted alone _)).trans adds
  drift := by
    rintro noted drift ⟨noQueue, own, isOwn, informed, adds⟩ _
    refine ⟨noQueue, own, isOwn, ⟨informed.1, ?_⟩, adds⟩
    intro isStopped
    exact interruptible.drifts _ _ (informed.2 isStopped)

/--
An interrupted sequential walk breaks off.  Whenever it is asked to stop and
whichever visits fail, it has visited the first entries of the itinerary, in
this order; and if it returns `true` and was not asked to stop, all of them.
-/
theorem sequential_follows_itinerary
    (interruptible : Interruptible world environment stopped)
    {memory : List Byte} (usable : usableRoot config = some memory)
    (terminated : Terminated memory config.rootLength)
    (situation : environment.Situation)
    (moves : List (Move (machine environment
      config.effectiveQueueCapacity))) :
    let pool := Pool.run sequentialResume
      (sequentialPool environment config situation) moves
    pool.state.visits <+:
        below world config (sequentialRoot config memory) ∧
      (pool.threads[0]? = some (.ret true) →
        ¬ stopped pool.state.situation →
        pool.state.visits =
          below world config (sequentialRoot config memory)) := by
  intro pool
  have starts :
      Noted.Sound (touring world config False) (Toured config)
        (Itinerant stopped
          (below world config (sequentialRoot config memory)))
        ⟨sequentialPool environment config situation,
          [⟨below world config (sequentialRoot config memory),
            .running⟩]⟩ := by
    refine ⟨.cons (keeps_walkSequential_touring usable terminated) .nil,
      rfl, _, rfl, ⟨Course.noConfusion, Course.noConfusion⟩, rfl⟩
  have sound :=
    starts.run resumes_sequential (upholds_itinerant interruptible _)
      (Noted.each_of_forall _ moves fun _ _ _ => trivial)
  rcases sound.property with ⟨_, held, isHeld, informed, adds⟩
  rw [Noted.run_pool] at informed adds
  refine ⟨⟨held.rest, adds⟩, ?_⟩
  intro returned notStopped
  have orderly := sound.orderly
  rw [Noted.Orderly, isHeld, Noted.run_pool] at orderly
  rcases exists_of_forall₂ orderly returned with ⟨last, isLast, toured⟩
  cases isLast
  rcases toured rfl (by rw [usable]; exact Option.some_ne_none _) with
    isStopped | nothing
  · exact absurd (informed.2 isStopped) notStopped
  · rw [nothing, List.append_nil] at adds
    exact adds

end Runs

/-- A visit of `r/d/b` that fails is an interruption. -/
theorem interruptible_refusing :
    Interruptible nestedWorld refusingEnvironment (fun _ => False) where
  answers situation choice call notStop notReader notVisit := by
    cases call with
    | visit entry => exact absurd rfl (notVisit entry)
    | _ => rfl
  asks _ _ impossible := Bool.noConfusion impossible
  creates _ _ := rfl
  insists _ _ impossible := impossible.elim
  remains _ _ _ impossible := impossible
  drifts _ _ impossible := impossible

theorem terminated_nested : Terminated [114, 0] nestedConfig.rootLength := by
  constructor <;> decide

/-- The first visit fails: `r/d` is visited, and `r/d/b` is not. -/
theorem sequential_follows_itinerary_refused :
    let visits := (Pool.run sequentialResume
      (sequentialPool refusingEnvironment nestedConfig ())
      (List.replicate 60 (.turn 0 ((), ⟨false, 0⟩)))).state.visits
    visits.map Entry.absolutePath = [[114, 47, 100]] ∧
      visits <+:
        below nestedWorld nestedConfig
          (sequentialRoot nestedConfig [114, 0]) :=
  ⟨by decide +kernel, (sequential_follows_itinerary interruptible_refusing rfl
    terminated_nested () _).1⟩

section Runs

variable {environment : Environment} {capacity : Nat}
  {state : State environment.Situation} {held : Tour}
  (choice : environment.Choice × QueueChoice)

/-! ## The parallel walk -/

/-- What has been visited, what the threads have left, and what is queued. -/
def claimed (world : World) (config : Config)
    (state : State environment.Situation) (notes : List Tour) :
    Multiset Entry :=
  (state.visits : Multiset Entry) +
    (notes.map fun held => (held.rest : Multiset Entry)).sum +
    (state.queue.map fun directory =>
      (below world config directory : Multiset Entry)).sum

/-- Nothing is claimed twice. -/
structure Divided (world : World) (config : Config) (whole : List Entry)
    (state : State environment.Situation) (notes : List Tour) : Prop where
  informed : ∀ held ∈ notes, Informed (fun _ => True) state held
  proper : ∀ directory ∈ state.queue, Proper directory
  claims : claimed world config state notes ≤ whole

section Claims

variable {notes : List Tour} {thread : Nat}
  (found : notes[thread]? = some held)

include found

/-- An operation that hands nothing over claims nothing new. -/
theorem claimed_alone {op : Op} (alone : ¬ Sharing op)
    (permitted : Tour.permits world config shares held op) :
    claimed world config
        ((machine environment capacity).handle state choice op).2
        (notes.set thread
          (Tour.note world config held op
            ((machine environment capacity).handle state choice op).1)) =
      claimed world config state notes := by
  rcases sum_map_set (fun held : Tour => (held.rest : Multiset Entry)) found
    (Tour.note world config held op
      ((machine environment capacity).handle state choice op).1) with
    ⟨others, before, after⟩
  unfold claimed
  rw [visits_handle, queue_handle choice alone, before, after,
    ← Tour.rest_note permitted alone
      ((machine environment capacity).handle state choice op).1]
  simp only [← Multiset.coe_add]
  abel

/-- A thread that takes nothing on claims nothing new. -/
theorem claimed_mono {after : State environment.Situation} {next : Tour}
    (visits : after.visits = state.visits)
    (queue : after.queue = state.queue)
    (rest : List.Sublist next.rest held.rest) :
    claimed world config after (notes.set thread next) ≤
      claimed world config state notes := by
  rcases sum_map_set (fun held : Tour => (held.rest : Multiset Entry)) found
    next with ⟨others, isBefore, isAfter⟩
  have fewer : (next.rest : Multiset Entry) ≤ held.rest :=
    Multiset.coe_le.mpr rest.subperm
  unfold claimed
  rw [visits, queue, isBefore, isAfter]
  gcongr

/-- A directory that is pushed takes what lies below it along. -/
theorem claimed_push {directory : Directory}
    (permitted : Tour.permits world config shares held
      (.shared (.queuePush directory))) :
    claimed world config
        ((machine environment capacity).handle state choice
          (.shared (.queuePush directory))).2
        (notes.set thread
          (Tour.note world config held (.shared (.queuePush directory))
            ((machine environment capacity).handle state choice
              (.shared (.queuePush directory))).1)) ≤
      claimed world config state notes := by
  rcases permitted with ⟨_, _, later, isRest⟩
  by_cases room :
      state.queue.length < capacity ∧ choice.2.refuse = false
  · have result :
        (machine environment capacity).handle state choice
            (.shared (.queuePush directory)) =
          (true, { state with
            queue := state.queue ++ [directory]
            history := state.history ++
              [.shared (.queuePush directory)] }) := by
      simp only [respond, touch, if_pos room]
    have left :
        Tour.note world config held (.shared (.queuePush directory)) true =
          { held with rest := later } := by
      change (⟨List.drop _ held.rest, held.course⟩ : Tour) = _
      rw [← isRest, List.drop_left]
    rw [result, left]
    rcases sum_map_set (fun held : Tour => (held.rest : Multiset Entry))
      found { held with rest := later } with ⟨others, before, after⟩
    unfold claimed
    rw [before, after, ← isRest]
    apply le_of_eq
    have visits :
        ({ state with
            queue := state.queue ++ [directory]
            history := state.history ++
              [.shared (.queuePush directory)] } :
          State environment.Situation).visits = state.visits := by
      simp [State.visits, List.filterMap_append, visitOf]
    rw [visits]
    simp only [List.map_append, List.sum_append, List.map_cons,
      List.map_nil, List.sum_cons, List.sum_nil, add_zero,
      ← Multiset.coe_add]
    abel
  · have result :
        (machine environment capacity).handle state choice
            (.shared (.queuePush directory)) =
          (false, { state with
            history := state.history ++
              [.shared (.queuePush directory)] }) := by
      simp only [respond, touch, if_neg room]
    rw [result]
    refine claimed_mono found ?_ rfl (List.Sublist.refl _)
    simp [State.visits, List.filterMap_append, visitOf]

/-- A worker that pops a directory claims what lies below it. -/
theorem claimed_pop :
    claimed world config
        ((machine environment capacity).handle state choice
          (.shared .queuePop)).2
        (notes.set thread
          (Tour.note world config held (.shared .queuePop)
            ((machine environment capacity).handle state choice
              (.shared .queuePop)).1)) ≤
      claimed world config state notes := by
  have visits :
      ((machine environment capacity).handle state choice
        (.shared .queuePop)).2.visits = state.visits := by
    rw [visits_handle]
    exact List.append_nil _
  by_cases empty : state.queue = []
  · have missed :
        ((machine environment capacity).handle state choice
          (.shared .queuePop)).1 = none := by
      simp [respond, touch, empty]
    rw [missed]
    refine claimed_mono found visits ?_ (List.Sublist.refl _)
    simp [respond, touch, empty]
  · have inside :
        choice.2.position % state.queue.length < state.queue.length :=
      Nat.mod_lt _ (List.length_pos_iff.mpr empty)
    generalize isPosition :
      choice.2.position % state.queue.length = position at inside
    have popped :
        ((machine environment capacity).handle state choice
          (.shared .queuePop)).1 = some state.queue[position] := by
      simp only [respond, touch, isPosition,
        List.getElem?_eq_getElem inside]
    have queue :
        ((machine environment capacity).handle state choice
          (.shared .queuePop)).2.queue = state.queue.eraseIdx position := by
      simp only [respond, touch, isPosition]
    have order := List.getElem_cons_eraseIdx_perm inside
    have worth := (order.map fun directory =>
      (below world config directory : Multiset Entry)).sum_eq
    rw [List.map_cons, List.sum_cons] at worth
    rcases sum_map_set (fun held : Tour => (held.rest : Multiset Entry))
      found (Tour.note world config held (.shared .queuePop)
        (some state.queue[position])) with ⟨others, before, after⟩
    rw [popped]
    unfold claimed
    rw [visits, queue, before, after, ← worth]
    -- what the worker had left is given up
    calc (state.visits : Multiset Entry) +
            ((below world config state.queue[position] : Multiset Entry) +
              others) +
          ((state.queue.eraseIdx position).map fun directory =>
            (below world config directory : Multiset Entry)).sum
        ≤ (held.rest : Multiset Entry) +
            ((state.visits : Multiset Entry) +
              ((below world config state.queue[position] :
                Multiset Entry) + others) +
              ((state.queue.eraseIdx position).map fun directory =>
                (below world config directory : Multiset Entry)).sum) :=
          Multiset.le_add_left _ _
      _ = _ := by abel

end Claims

theorem upholds_divided {α : Type}
    (fixed : FixedFiles world environment) (whole : List Entry) :
    Noted.Upholds (α := α) (touring world config True)
      (fun _ _ => True)
      (fun (state : (machine environment capacity).State) notes =>
        Divided world config whole state notes) where
  turn := by
    intro noted thread choice op next held divided running found permitted _
    have isHeld := List.mem_of_getElem? found
    have informed := divided.informed held isHeld
    have remembers := remembers_nothing environment
    refine ⟨informed.allowed choice fixed divided.proper op
      fun impossible => absurd trivial impossible, ?_, ?_, ?_⟩
    · intro other member
      rcases List.mem_or_eq_of_mem_set member with old | rfl
      · exact (divided.informed other old).handle remembers choice capacity
          op
      · exact informed.note remembers choice op
    · intro directory member
      rcases mem_queue_handle member with old | rfl
      · exact divided.proper directory old
      · exact permitted.2.1
    · by_cases isSharing : Sharing op
      · cases op with
        | outside call =>
            cases call with
            | direntReaderCreate =>
                have same :
                    ((machine environment capacity).handle noted.pool.state
                      choice (.outside .direntReaderCreate)).2.visits =
                      noted.pool.state.visits :=
                  (visits_handle choice capacity _).trans
                    (List.append_nil _)
                exact (claimed_mono found same rfl
                  (Tour.rest_create_sublist world config held _)).trans
                  divided.claims
            | _ => exact isSharing.elim
        | shared access =>
            cases access with
            | queuePush directory =>
                exact (claimed_push choice found permitted).trans
                  divided.claims
            | queuePop =>
                exact (claimed_pop choice found).trans divided.claims
            | _ => exact isSharing.elim
      · exact (claimed_alone choice found isSharing permitted).trans_le
          divided.claims
  drift := by
    intro noted drift divided _
    refine ⟨?_, divided.proper, divided.claims⟩
    intro held member
    exact ⟨(divided.informed held member).1, fun _ => trivial⟩

/--
An interrupted parallel walk makes no other visits.  However many workers there
are, however they are scheduled, whatever the queue refuses, whichever readers
are missing, whenever they are asked to stop and whichever visits fail: every
entry of the itinerary is visited at most as often as it stands there, and no
other entry is.  At a terminated root the itinerary is the sequential walk's.
-/
theorem parallel_visits_from_itinerary
    (fixed : FixedFiles world environment)
    {memory : List Byte} (usable : usableRoot config = some memory)
    (names : NamesRoot memory config.rootLength) (workers : Nat)
    (situation : environment.Situation)
    (moves : List (Move (machine environment
      config.effectiveQueueCapacity))) :
    ((Pool.run (workerResume config)
        (parallelPool environment config memory workers situation)
        moves).state.visits : Multiset Entry) ≤
      below world config (rootEntry config memory) ∧
    (Terminated memory config.rootLength →
      rootEntry config memory = sequentialRoot config memory) := by
  rcases usableRoot_some usable with ⟨_, _, short, hasVisit, _⟩
  rcases proper_rootEntry short names with ⟨proper, _⟩
  refine ⟨?_, rootEntry_eq usable⟩
  have starts :
      Noted.Sound (touring world config True) Onward
        (Divided world config (below world config (rootEntry config memory)))
        ⟨parallelPool environment config memory workers situation,
          List.replicate workers ⟨[], .running⟩⟩ := by
    refine ⟨Noted.Orderly.replicate keeps_workerStart_touring _ _, ?_, ?_,
      ?_⟩
    · intro held member
      rw [List.eq_of_mem_replicate member]
      exact ⟨Course.noConfusion, Course.noConfusion⟩
    · intro directory member
      rw [List.mem_singleton.mp member]
      exact proper
    · change (0 : Multiset Entry) + _ + _ ≤ _
      rw [zero_add, List.map_replicate, List.sum_replicate]
      change _ • (0 : Multiset Entry) + (_ + 0) ≤ _
      rw [nsmul_zero, zero_add, add_zero]
  have sound :=
    starts.run (resumes_touring hasVisit) (upholds_divided fixed _)
      (Noted.each_of_forall _ moves fun _ _ _ => trivial)
  have claims := sound.property.claims
  rw [Noted.run_pool] at claims
  refine le_trans ?_ claims
  unfold claimed
  rw [add_assoc]
  exact Multiset.le_add_right _ _

end Runs

/-- Two workers take turns, and the first visit fails. -/
theorem parallel_visits_from_itinerary_refused :
    let visits := (Pool.run (workerResume nestedConfig)
      (parallelPool refusingEnvironment nestedConfig [114, 0] 2 ())
      ((List.range 60).map fun time =>
        .turn (time % 2) ((), ⟨false, time⟩))).state.visits
    visits.map Entry.absolutePath = [[114, 47, 100]] ∧
      (visits : Multiset Entry) ≤
        below nestedWorld nestedConfig (rootEntry nestedConfig [114, 0]) :=
  ⟨by decide +kernel,
    (parallel_visits_from_itinerary interruptible_refusing.toFixedFiles rfl
      terminated_nested.namesRoot 2 () _).1⟩

end BcIo.Walk
