import BcIo.Walk.Tolls
import BcIo.Walk.Agreement
import BcIo.Walk.Cancellation
import BcIo.Foundation.Fairness
import Mathlib.Data.Set.Finite.List
import Mathlib.Data.Set.Finite.Lattice
import Mathlib.Data.FinEnum

/-!
# Every parallel walk comes to an end

Whatever the file system looks like and however it changes, whatever fails, is
refused or asked for: if listings are finite and every worker gets its turn
again and again, all workers return.  What they can still cost together only
falls, and is at last left alone; then all workers are idle, and as nothing is
left to do the count of outstanding directories lets them go.
-/

namespace BcIo.Walk

open BcIo.File
open BcIo.Foundation.Aggregate
open BcIo.Foundation.Interaction
open BcIo.Foundation.WorkerPool
open BcIo.Foundation.Bookkeeping
open BcIo.Foundation.Recording
open BcIo.Foundation.Automata
open BcIo.Foundation.Fairness

/-! ## Listings of bounded length -/

section Listings

variable (config : Config) (listing : Path → Nat)

/-- There are only finitely many names for the directories of a walk. -/
theorem finite_texts :
    {text : Path | IsRoot config text ∨ BelowRoot text}.Finite := by
  have below : {text : Path | BelowRoot text}.Finite := by
    refine ((List.finite_length_le Byte (maxPathLength - 1)).image
      fun whole => cString (whole ++ [0])).subset ?_
    rintro text ⟨whole, buffered, rfl⟩
    exact ⟨whole, buffered.short, rfl⟩
  have root : {text : Path | IsRoot config text}.Finite := by
    refine (Set.toFinite
      {config.rootText, (rootEntry config (config.root.getD [])).text}).subset
        ?_
    intro text isRoot
    exact isRoot
  exact root.union below

/-- So the listings of a walk, if they are finite, have a common bound. -/
theorem exists_limit :
    ∃ limit, ∀ directory, Reached config directory →
      listing directory.text ≤ limit := by
  rcases ((finite_texts config).image listing).bddAbove with
    ⟨limit, bounds⟩
  refine ⟨limit, ?_⟩
  intro directory reached
  exact bounds ⟨directory.text, reached.origin, rfl⟩

end Listings

/-! ## All workers together -/

/-- What the queue and the workers can still cost. -/
def remainingToll (limit : Nat) {Situation : Type}
    (state : State Situation) (conducts : List Conduct) : Nat :=
  (state.queue.map (queueToll limit)).sum +
    (conducts.map (Conduct.toll limit)).sum

/-- The directories that the queue and the workers are accountable for. -/
def burdens {Situation : Type} (state : State Situation)
    (conducts : List Conduct) : Int :=
  (state.queue.map fun _ => (1 : Int)).sum +
    (conducts.map fun conduct => (conduct.point.burden : Int)).sum

/--
All directories can be reached, and the count of outstanding directories is what
the queue and the workers are accountable for, up to the width of an `int`.
-/
structure Answerable (config : Config) {Situation : Type}
    (state : State Situation) (conducts : List Conduct) : Prop where
  fits : ∀ conduct ∈ conducts, conduct.Fits config
  queue : QueueReached config state []
  counted : state.outstanding = wrapInt (burdens state conducts)

section Turns

variable {config : Config} {listing : Path → Nat} {limit capacity : Nat}
  {environment : Environment}

/-- The sums over the queue and over the workers after a call. -/
theorem sums_handle {M : Type} [AddCommMonoid M] (worth : Directory → M)
    (value : Conduct → M) {state : State environment.Situation}
    {choice : environment.Choice × QueueChoice} {op : Op}
    {conducts : List Conduct} {thread : Nat} {held : Conduct}
    (found : conducts[thread]? = some held) (after : Conduct) :
    ∃ rest,
      (state.queue.map worth).sum + (conducts.map value).sum +
          putBy worth
            ⟨op, ((machine environment capacity).handle state choice
              op).1⟩ =
        value held +
          takenBy worth
            ⟨op, ((machine environment capacity).handle state choice
              op).1⟩ + rest ∧
      (((machine environment capacity).handle state choice
            op).2.queue.map worth).sum +
          ((conducts.set thread after).map value).sum =
        value after + rest := by
  rcases sum_map_set value found after with ⟨others, before, replaced⟩
  have moved :=
    @worth_handle environment capacity _ _ worth state choice op
  refine ⟨(((machine environment capacity).handle state choice
    op).2.queue.map worth).sum + others, ?_, ?_⟩
  · rw [before, add_right_comm, moved]
    abel
  · rw [replaced]
    abel

/-- A call of a worker keeps the account. -/
theorem Answerable.turn (finite : FiniteListings environment listing)
    (few : ∀ directory, Reached config directory →
      listing directory.text ≤ limit)
    {state : State environment.Situation} {conducts : List Conduct}
    (answerable : Answerable config state conducts)
    (choice : environment.Choice × QueueChoice) {thread : Nat}
    {held : Conduct} {op : Op} (found : conducts[thread]? = some held)
    (isNext : held.op config = some op) :
    Advances config limit held
      ⟨op, ((machine environment capacity).handle state choice op).1⟩
      (held.after config true op
        ((machine environment capacity).handle state choice op).1) :=
  advances_call few (answerable.fits held (List.mem_of_getElem? found))
    isNext (expected_handle finite answerable.queue choice op)

/-- A worker pushes what it stands ready to push. -/
theorem pushing_of_op {conduct : Conduct} {directory : Directory}
    (isNext :
      conduct.op config = some (.shared (.queuePush directory))) :
    conduct.point = .pushing directory := by
  rcases conduct with ⟨listings, point⟩
  cases point with
  | pushing other =>
      cases isNext
      rfl
  | reading => cases listings <;> cases isNext
  | inquiring dirent childPath noFollow => cases listings <;> cases isNext
  | closing => cases listings <;> cases isNext
  | _ => cases isNext

/-- What is accounted for goes along with the count. -/
theorem Advances.burdens {state : State environment.Situation}
    {conducts : List Conduct}
    {choice : environment.Choice × QueueChoice} {thread : Nat}
    {held after : Conduct} {op : Op}
    (advances : Advances config limit held
      ⟨op, ((machine environment capacity).handle state choice op).1⟩ after)
    (found : conducts[thread]? = some held) :
    burdens ((machine environment capacity).handle state choice op).2
        (conducts.set thread after) =
      burdens state conducts - lowering op := by
  rcases @sums_handle capacity environment Int _ (fun _ => 1)
      (fun conduct => (conduct.point.burden : Int)) state choice op _ _ _
      found after with ⟨rest, before, afterwards⟩
  have balance :
      (after.point.burden : Int) + putBy (fun _ => 1) _ + lowering op =
        held.point.burden + takenBy (fun _ => 1) _ :=
    advances.burden
  unfold BcIo.Walk.burdens
  omega

theorem upholds_answerable {α : Type}
    (finite : FiniteListings environment listing) :
    Noted.Upholds (α := α) (conducting config true) (fun _ _ => True)
      (fun (state : (machine environment capacity).State) conducts =>
        Answerable config state conducts) where
  turn := by
    intro noted thread choice op next held answerable _ found isNext _
    rcases exists_limit config listing with ⟨limit, few⟩
    have advances :=
      @Answerable.turn config listing limit capacity environment finite few
        _ _ answerable choice _ _ _ found isNext
    refine ⟨trivial, ?_, ?_, ?_⟩
    · intro conduct member
      rcases List.mem_or_eq_of_mem_set member with old | rfl
      · exact answerable.fits conduct old
      · exact advances.fits
    · intro directory member
      rcases mem_queue_handle member with old | rfl
      · exact answerable.queue directory old
      · have fits :=
          (answerable.fits held (List.mem_of_getElem? found)).point
        rw [pushing_of_op isNext] at fits
        exact fits
    · have changed :=
        outstanding_handle environment capacity answerable.counted choice op
      rw [← advances.burdens found] at changed
      exact changed
  drift := by
    intro noted drift answerable _
    exact ⟨answerable.fits, answerable.queue, answerable.counted⟩

/--
A call of a worker lowers what is left, or the worker was idle and still is, and
nothing has changed.
-/
theorem remainingToll_turn (finite : FiniteListings environment listing)
    (few : ∀ directory, Reached config directory →
      listing directory.text ≤ limit)
    {state : State environment.Situation} {conducts : List Conduct}
    (answerable : Answerable config state conducts)
    (choice : environment.Choice × QueueChoice) {thread : Nat}
    {held : Conduct} {op : Op} (found : conducts[thread]? = some held)
    (isNext : held.op config = some op) :
    remainingToll limit
          ((machine environment capacity).handle state choice op).2
          (conducts.set thread
            (held.after config true op
              ((machine environment capacity).handle state choice
                op).1)) <
        remainingToll limit state conducts ∨
      (held.point.Idle ∧
        (held.after config true op
          ((machine environment capacity).handle state choice
            op).1).point.Idle ∧
        remainingToll limit
            ((machine environment capacity).handle state choice op).2
            (conducts.set thread
              (held.after config true op
                ((machine environment capacity).handle state choice
                  op).1)) =
          remainingToll limit state conducts) := by
  have advances :=
    @Answerable.turn config listing limit capacity environment finite few _ _
      answerable choice _ _ _ found isNext
  rcases @sums_handle capacity environment Nat _ (queueToll limit)
      (Conduct.toll limit) state choice op _ _ _ found
      (held.after config true op
        ((machine environment capacity).handle state choice op).1) with
    ⟨rest, before, after⟩
  unfold remainingToll
  rcases advances.toll with lower | ⟨idle, stays, same⟩
  · left
    omega
  · right
    refine ⟨idle, stays, ?_⟩
    omega

end Turns

/-! ## Runs -/

section Runs

variable {config : Config} {listing : Path → Nat} {limit capacity : Nat}
  {environment : Environment}

/-- The workers of a walk, with where they stand. -/
abbrev Crew (environment : Environment) (capacity : Nat) : Type :=
  Noted (machine environment capacity) Bool Conduct

/-- One step of a crew. -/
abbrev Crew.step (config : Config) (crew : Crew environment capacity)
    (move : Move (machine environment capacity)) :
    Crew environment capacity :=
  Noted.step (conducting config true) (workerResume config) crew move

/-- What a crew can still cost. -/
def Crew.toll (limit : Nat) (crew : Crew environment capacity) : Nat :=
  remainingToll limit crew.pool.state crew.notes

/-- What is known of a crew at all times. -/
structure Live (config : Config) (listing : Path → Nat)
    (crew : Crew environment capacity) : Prop where
  sound : Noted.Sound (conducting config true) (Between config)
    (fun state conducts => Answerable config state conducts) crew
  bounded : BoundedPool config listing crew.pool
  settled : Pool.Settled (workerResume config) crew.pool

theorem Live.step (finite : FiniteListings environment listing)
    (crew : Crew environment capacity)
    (move : Move (machine environment capacity))
    (live : Live config listing crew) :
    Live config listing (crew.step config move) where
  sound := live.sound.step resumes_worker_conducting
    (upholds_answerable finite) trivial
  bounded := bounded_step finite
    (boundedParallel config listing).rests_workerResume _ move live.bounded
  settled := live.settled.step settle_settle move

/--
Every step of a crew is the call of one of the workers, or leaves the workers
and the queue as they are.
-/
theorem Live.step_cases {crew : Crew environment capacity}
    (live : Live config listing crew)
    (move : Move (machine environment capacity)) :
    ((crew.step config move).notes = crew.notes ∧
        (crew.step config move).pool.state.queue = crew.pool.state.queue) ∨
      ∃ thread choice op held, move = .turn thread choice ∧
        crew.notes[thread]? = some held ∧ held.op config = some op ∧
        (crew.step config move).notes =
          crew.notes.set thread
            (held.after config true op
              ((machine environment capacity).handle crew.pool.state choice
                op).1) ∧
        (crew.step config move).pool.state =
          ((machine environment capacity).handle crew.pool.state choice
            op).2 := by
  cases made : crew.pool.eventOf move with
  | none =>
      refine Or.inl ⟨Noted.notesAfter_of_silent made, ?_⟩
      rcases Pool.eventOf_none (workerResume config) made with
        ⟨drift, rfl⟩ | same
      · rfl
      · change (Pool.step (workerResume config) crew.pool move).state.queue = _
        rw [same]
  | some event =>
      rcases Pool.eventOf_some made with ⟨choice, next, rfl, running, _⟩
      rcases live.sound.orderly.turn resumes_worker_conducting running with
        ⟨held, found, isNext, follows⟩
      refine Or.inr ⟨event.thread, choice, event.op, held, rfl, found, isNext,
        (follows choice).1, ?_⟩
      change (Pool.step (workerResume config) crew.pool _).state = _
      rw [Pool.step_call running]

/-- A worker has returned, and is done, or is about to make its next call. -/
theorem Live.standing {crew : Crew environment capacity}
    (live : Live config listing crew) {thread : Nat} {held : Conduct}
    (found : crew.notes[thread]? = some held) :
    (crew.pool.threads[thread]? = some (.ret false) ∧
        held.point = .done) ∨
      ∃ op next, crew.pool.threads[thread]? = some (.call op next) ∧
        held.op config = some op := by
  have inside : thread < crew.pool.threads.length := by
    rw [← live.sound.orderly.length_eq]
    exact (List.getElem?_eq_some_iff.mp found).1
  have running := List.getElem?_eq_getElem inside
  generalize crew.pool.threads[thread] = program at running
  rcases exists_of_forall₂ live.sound.orderly running with
    ⟨other, isHeld, keeps⟩
  rw [found] at isHeld
  cases isHeld
  cases program with
  | stuck =>
      rcases live.bounded with ⟨notes, sound⟩
      exact absurd running (sound.orderly.not_stuck id thread)
  | ret value =>
      have isFalse := returned_of_settled live.settled running
      subst isFalse
      have between : held = ⟨[], .done⟩ := keeps
      exact Or.inl ⟨running, congrArg Conduct.point between⟩
  | call op next => exact Or.inr ⟨op, next, running, keeps.1⟩

/-- A worker that is done has returned. -/
theorem Live.returned {crew : Crew environment capacity}
    (live : Live config listing crew) {thread : Nat} {held : Conduct}
    (found : crew.notes[thread]? = some held) (isDone : held.point = .done) :
    crew.pool.threads[thread]? = some (.ret false) := by
  rcases live.standing found with ⟨returned, _⟩ | ⟨op, _, _, isNext⟩
  · exact returned
  · rw [Conduct.op, isDone] at isNext
    cases isNext

/-- A worker that is not done makes its next call when it gets its turn. -/
theorem Live.turns {crew : Crew environment capacity}
    (live : Live config listing crew) {thread : Nat} {held : Conduct}
    (found : crew.notes[thread]? = some held) (alive : held.point ≠ .done)
    (choice : environment.Choice × QueueChoice) :
    ∃ op, held.op config = some op ∧
      (crew.step config (.turn thread choice)).notes =
        crew.notes.set thread
          (held.after config true op
            ((machine environment capacity).handle crew.pool.state choice
              op).1) ∧
      (crew.step config (.turn thread choice)).pool.state =
        ((machine environment capacity).handle crew.pool.state choice
          op).2 := by
  rcases live.standing found with ⟨_, isDone⟩ | ⟨op, next, running, isNext⟩
  · exact absurd isDone alive
  · rcases live.sound.orderly.turn resumes_worker_conducting running with
      ⟨other, isHeld, _, follows⟩
    rw [found] at isHeld
    cases isHeld
    refine ⟨op, isNext, (follows choice).1, ?_⟩
    change (Pool.step (workerResume config) crew.pool _).state = _
    rw [Pool.step_call running]

/-- The turn of a worker lowers what is left, unless the worker is idle. -/
theorem Live.toll_step (finite : FiniteListings environment listing)
    (few : ∀ directory, Reached config directory →
      listing directory.text ≤ limit)
    (crew : Crew environment capacity)
    (move : Move (machine environment capacity))
    (live : Live config listing crew) :
    (crew.step config move).toll limit ≤ crew.toll limit := by
  rcases live.step_cases move with
    ⟨notes, queue⟩ | ⟨thread, choice, op, held, _, found, isNext, notes, state⟩
  · unfold Crew.toll remainingToll
    rw [notes, queue]
  · unfold Crew.toll
    rw [notes, state]
    rcases remainingToll_turn finite few live.sound.property choice found
        isNext with lower | ⟨_, _, same⟩
    · exact Nat.le_of_lt lower
    · exact Nat.le_of_eq same

theorem Live.toll_turn (finite : FiniteListings environment listing)
    (few : ∀ directory, Reached config directory →
      listing directory.text ≤ limit)
    {crew : Crew environment capacity} (live : Live config listing crew)
    {thread : Nat} {held : Conduct}
    (found : crew.notes[thread]? = some held) (busy : ¬ held.point.Idle)
    (choice : environment.Choice × QueueChoice) :
    (crew.step config (.turn thread choice)).toll limit <
      crew.toll limit := by
  have alive : held.point ≠ .done := by
    intro isDone
    rw [isDone] at busy
    exact busy trivial
  rcases live.turns found alive choice with ⟨op, isNext, notes, state⟩
  unfold Crew.toll
  rw [notes, state]
  rcases remainingToll_turn finite few live.sound.property choice found
      isNext with lower | ⟨idle, _⟩
  · exact lower
  · exact absurd idle busy

/-- Where a thread stands changes only by its own turns. -/
theorem Live.notes_ne {crew : Crew environment capacity}
    (live : Live config listing crew) (thread : Nat)
    (move : Move (machine environment capacity)) :
    (crew.step config move).notes[thread]? = crew.notes[thread]? ∨
      ∃ choice, move = .turn thread choice := by
  rcases live.step_cases move with
    ⟨notes, _⟩ | ⟨other, choice, op, held, isTurn, _, _, notes, _⟩
  · exact Or.inl (by rw [notes])
  · by_cases same : other = thread
    · subst same
      exact Or.inr ⟨choice, isTurn⟩
    · left
      rw [notes]
      exact List.getElem?_set_ne same

/-- All workers are idle. -/
def Resting (conducts : List Conduct) : Prop :=
  ∀ conduct ∈ conducts, conduct.point.Idle

/-! ### Idle workers -/

/-- How many turns an idle worker is away from its end, with this queue. -/
def Point.stage (queue : List Directory) : Point → Nat
  | .surveying => if queue = [] then 1 else 5
  | .stop _ => 4
  | .flag _ => 3
  | .popping => 2
  | _ => 0

theorem stage_turning (queue : List Directory) :
    (turning config).stage queue < 5 := by
  unfold turning
  split
  · exact Nat.lt_succ_self 4
  · exact Nat.le_of_ble_eq_true rfl

/--
An idle worker that stays idle gets nearer to its end: it pops from an empty
queue only, and where the queue is empty nothing is outstanding.
-/
theorem stage_after {conduct : Conduct} {call : Answered Op Op.Response}
    (isNext : conduct.op config = some call.1) (idle : conduct.point.Idle)
    (stays : (conduct.after config true call.1 call.2).point.Idle)
    {queue : List Directory}
    (pops : call.1 = .shared .queuePop → queue = [])
    (loads : ∀ value, call = ⟨.shared .loadOutstanding, value⟩ →
      queue = [] → value = 0) :
    (conduct.after config true call.1 call.2).point.stage queue <
      conduct.point.stage queue := by
  rcases conduct with ⟨listings, point⟩
  rcases call with ⟨op, response⟩
  cases point with
  | flag errand =>
      cases errand with
      | turn =>
          cases isNext
          change Point.stage queue
            (if response then .done else unflagged config true .turn) < 3
          rw [unflagged_worker]
          cases response <;> exact Nat.le_of_ble_eq_true rfl
      | _ => exact idle.elim
  | stop errand =>
      cases errand with
      | turn =>
          cases isNext
          cases response <;> exact Nat.le_of_ble_eq_true rfl
      | _ => exact idle.elim
  | popping =>
      cases isNext
      cases response with
      | none =>
          change (if queue = [] then 1 else 5) < 2
          rw [if_pos (pops rfl)]
          decide
      | some directory => exact stays.elim
  | surveying =>
      cases isNext
      change Point.stage queue
          (if response ≠ 0 then turning config else .done) <
        if queue = [] then 1 else 5
      by_cases isEmpty : queue = []
      · rw [if_neg (not_not.mpr (loads response rfl isEmpty)),
          if_pos isEmpty]
        exact Nat.zero_lt_one
      · rw [if_neg isEmpty]
        split
        · exact stage_turning queue
        · exact Nat.zero_lt_succ 4
  | done => cases isNext
  | _ => exact idle.elim

/-- An idle worker that pops and stays idle has found the queue empty. -/
theorem queue_nil_of_idle {conduct : Conduct}
    {state : State environment.Situation}
    {choice : environment.Choice × QueueChoice}
    (stays : (conduct.after config true (.shared .queuePop)
      ((machine environment capacity).handle state choice
        (.shared .queuePop)).1).point.Idle) :
    state.queue = [] := by
  by_contra someLeft
  have inside :
      choice.2.position % state.queue.length < state.queue.length :=
    Nat.mod_lt _ (List.length_pos_iff.mpr someLeft)
  have popped :
      ((machine environment capacity).handle state choice
          (.shared .queuePop)).1 =
        some state.queue[choice.2.position % state.queue.length] :=
    List.getElem?_eq_getElem inside
  rw [popped] at stays
  exact stays

/-- Idle workers leave the queue as it is. -/
theorem queue_of_idle {conduct : Conduct} {op : Op}
    {state : State environment.Situation}
    {choice : environment.Choice × QueueChoice}
    (isNext : conduct.op config = some op) (idle : conduct.point.Idle)
    (stays : (conduct.after config true op
      ((machine environment capacity).handle state choice
        op).1).point.Idle) :
    ((machine environment capacity).handle state choice op).2.queue =
      state.queue := by
  cases op with
  | outside call => rfl
  | shared access =>
      cases access with
      | queuePop =>
          have isEmpty := queue_nil_of_idle stays
          change state.queue.eraseIdx _ = state.queue
          rw [isEmpty]
          rfl
      | queuePush directory =>
          rw [pushing_of_op isNext] at idle
          exact idle.elim
      | _ => rfl

/-- Where all workers are idle, what is outstanding is in the queue. -/
theorem outstanding_of_resting {state : State environment.Situation}
    {conducts : List Conduct} (answerable : Answerable config state conducts)
    (resting : Resting conducts) (isEmpty : state.queue = []) :
    state.outstanding = 0 := by
  have free :
      (conducts.map fun conduct => (conduct.point.burden : Int)).sum = 0 := by
    refine List.sum_eq_zero ?_
    intro value member
    rcases List.mem_map.mp member with ⟨conduct, isConduct, rfl⟩
    have idle :=
      @affords_idle config 0 conduct.listings _ (resting conduct isConduct)
    rw [idle.burden]
    rfl
  rw [answerable.counted, burdens, isEmpty, free]
  rfl

/--
When all workers are idle, the turn of a worker lowers what is left, or brings
that worker nearer to its end; everything else stays as it is.
-/
theorem Live.idle_turn (finite : FiniteListings environment listing)
    (few : ∀ directory, Reached config directory →
      listing directory.text ≤ limit)
    {crew : Crew environment capacity} (live : Live config listing crew)
    (resting : Resting crew.notes)
    {choice : environment.Choice × QueueChoice} {op : Op} {thread : Nat}
    {held : Conduct} (found : crew.notes[thread]? = some held)
    (isNext : held.op config = some op) :
    remainingToll limit
          ((machine environment capacity).handle crew.pool.state choice
            op).2
          (crew.notes.set thread
            (held.after config true op
              ((machine environment capacity).handle crew.pool.state choice
                op).1)) <
        crew.toll limit ∨
      (((machine environment capacity).handle crew.pool.state choice
          op).2.queue = crew.pool.state.queue ∧
        (held.after config true op
          ((machine environment capacity).handle crew.pool.state choice
            op).1).point.Idle ∧
        (held.after config true op
          ((machine environment capacity).handle crew.pool.state choice
            op).1).point.stage crew.pool.state.queue <
          held.point.stage crew.pool.state.queue) := by
  rcases @remainingToll_turn config listing limit capacity environment finite
      few _ _ live.sound.property choice _ _ _ found isNext with
    lower | ⟨idle, stays, _⟩
  · exact Or.inl lower
  · refine Or.inr ⟨queue_of_idle isNext idle stays, stays, ?_⟩
    refine @stage_after config held ⟨op, _⟩ isNext idle stays _ ?_ ?_
    · rintro rfl
      exact queue_nil_of_idle stays
    · intro value isLoad isEmpty
      cases isLoad
      exact outstanding_of_resting live.sound.property resting isEmpty

/-- No step takes an idle worker further from its end, as long as all are idle. -/
theorem Live.idle_step (finite : FiniteListings environment listing)
    (few : ∀ directory, Reached config directory →
      listing directory.text ≤ limit)
    {crew : Crew environment capacity} (live : Live config listing crew)
    (resting : Resting crew.notes) {thread : Nat} {held : Conduct}
    (found : crew.notes[thread]? = some held)
    (move : Move (machine environment capacity)) :
    (crew.step config move).toll limit < crew.toll limit ∨
      (Resting (crew.step config move).notes ∧
        ∃ next, (crew.step config move).notes[thread]? = some next ∧
          next.point.stage (crew.step config move).pool.state.queue ≤
            held.point.stage crew.pool.state.queue) := by
  rcases live.step_cases move with
    ⟨notes, queue⟩ |
      ⟨other, choice, op, current, _, isCurrent, isNext, notes, state⟩
  · refine Or.inr ⟨by rw [notes]; exact resting, held, ?_, ?_⟩
    · rw [notes]
      exact found
    · rw [queue]
  · rw [Crew.toll, notes, state]
    rcases live.idle_turn finite few resting isCurrent isNext with
      lower | ⟨queue, stays, nearer⟩
    · exact Or.inl lower
    · refine Or.inr ⟨?_, ?_⟩
      · intro conduct member
        rcases List.mem_or_eq_of_mem_set member with old | rfl
        · exact resting conduct old
        · exact stays
      · rw [queue]
        by_cases same : other = thread
        · subst same
          rw [found] at isCurrent
          cases isCurrent
          refine ⟨_, List.getElem?_set_self ?_, Nat.le_of_lt nearer⟩
          exact (List.getElem?_eq_some_iff.mp found).1
        · refine ⟨held, ?_, Nat.le_refl _⟩
          rw [List.getElem?_set_ne same]
          exact found

/-- Its own turn takes it nearer. -/
theorem Live.idle_own (finite : FiniteListings environment listing)
    (few : ∀ directory, Reached config directory →
      listing directory.text ≤ limit)
    {crew : Crew environment capacity} (live : Live config listing crew)
    (resting : Resting crew.notes) {thread : Nat} {held : Conduct}
    (found : crew.notes[thread]? = some held) (alive : held.point ≠ .done)
    (choice : environment.Choice × QueueChoice) :
    (crew.step config (.turn thread choice)).toll limit < crew.toll limit ∨
      ∃ next,
        (crew.step config (.turn thread choice)).notes[thread]? =
            some next ∧
          next.point.stage
              (crew.step config (.turn thread choice)).pool.state.queue <
            held.point.stage crew.pool.state.queue := by
  rcases live.turns found alive choice with ⟨op, isNext, notes, state⟩
  rw [Crew.toll, notes, state]
  rcases live.idle_turn finite few resting found isNext with
    lower | ⟨queue, _, nearer⟩
  · exact Or.inl lower
  · rw [queue]
    refine Or.inr ⟨_, List.getElem?_set_self ?_, nearer⟩
    exact (List.getElem?_eq_some_iff.mp found).1

section Fairly

variable {crew : Crew environment capacity} {workers : Nat}
  {schedule : Nat → Move (machine environment capacity)}

/-- The crew at a time. -/
abbrev Crew.after (config : Config) (crew : Crew environment capacity)
    (schedule : Nat → Move (machine environment capacity)) (time : Nat) :
    Crew environment capacity :=
  stateAt (Crew.step config) crew schedule time

theorem Crew.length_after (time : Nat) :
    (crew.after config schedule time).notes.length = crew.notes.length := by
  have keeps :
      ∀ (current : Crew environment capacity) move,
        current.notes.length = crew.notes.length →
        (current.step config move).notes.length = crew.notes.length :=
    fun current move same =>
      (Noted.length_notesAfter _ current move).trans same
  exact stateAt_invariant keeps rfl time

theorem recurs_turn (fair : Fair workers schedule) {thread : Nat}
    (isThread : thread < workers) :
    Recurs schedule fun move => ∃ choice, move = .turn thread choice := by
  intro time
  rcases fair thread isThread time with ⟨later, choice, after, isTurn⟩
  exact ⟨later, after, choice, isTurn⟩

/-- When what is left does not change any more, all workers are idle. -/
theorem resting_of_settled (finite : FiniteListings environment listing)
    (few : ∀ directory, Reached config directory →
      listing directory.text ≤ limit)
    (live : Live config listing crew) (fair : Fair workers schedule)
    (workerCount : crew.notes.length = workers) {time : Nat}
    (settled : ∀ later, time ≤ later →
      (crew.after config schedule later).toll limit =
        (crew.after config schedule time).toll limit) :
    Resting (crew.after config schedule time).notes := by
  intro held member
  by_contra busy
  rcases List.getElem?_of_mem member with ⟨thread, found⟩
  have isThread : thread < workers := by
    have inside := (List.getElem?_eq_some_iff.mp found).1
    rw [Crew.length_after, workerCount] at inside
    exact inside
  have lower :
      ∃ later, time ≤ later ∧
        (crew.after config schedule later).toll limit <
          (crew.after config schedule time).toll limit := by
    refine @ends_of_rank _ _ _ _ _ _ (recurs_turn fair isThread)
      (fun current => Live config listing current ∧
        current.toll limit = (crew.after config schedule time).toll limit ∧
        current.notes[thread]? = some held)
      (fun current =>
        current.toll limit < (crew.after config schedule time).toll limit)
      (fun _ => 0) ?_ ?_ time
      ⟨stateAt_invariant (Live.step finite) live time, rfl, found⟩
    · rintro current move ⟨isLive, left, stands⟩
      by_cases less :
          (current.step config move).toll limit <
            (crew.after config schedule time).toll limit
      · exact Or.inl less
      · have falls := Live.toll_step finite few current move isLive
        rcases isLive.notes_ne thread move with same | ⟨choice, rfl⟩
        · refine Or.inr ⟨⟨Live.step finite current move isLive, ?_,
            same.trans stands⟩, Nat.le_refl _⟩
          omega
        · have lower := isLive.toll_turn finite few stands busy choice
          omega
    · rintro current _ ⟨isLive, left, stands⟩ ⟨choice, rfl⟩
      left
      rw [← left]
      exact isLive.toll_turn finite few stands busy choice
  rcases lower with ⟨later, after, less⟩
  exact absurd (settled later after) (Nat.ne_of_lt less)

/-- When what is left does not change any more, every worker comes to its end. -/
theorem ends_of_settled (finite : FiniteListings environment listing)
    (few : ∀ directory, Reached config directory →
      listing directory.text ≤ limit)
    (live : Live config listing crew) (fair : Fair workers schedule)
    (workerCount : crew.notes.length = workers) {time : Nat}
    (settled : ∀ later, time ≤ later →
      (crew.after config schedule later).toll limit =
        (crew.after config schedule time).toll limit)
    {thread : Nat} (isThread : thread < workers) :
    ∃ later held,
      (crew.after config schedule later).notes[thread]? = some held ∧
        held.point = .done := by
  by_contra never
  simp only [not_exists, not_and] at never
  have standing :
      ∃ held,
        (crew.after config schedule time).notes[thread]? = some held := by
    refine ⟨_, List.getElem?_eq_getElem ?_⟩
    rw [Crew.length_after, workerCount]
    exact isThread
  rcases standing with ⟨held, stands⟩
  have lower :
      ∃ later, time ≤ later ∧
        ((crew.after config schedule later).toll limit <
            (crew.after config schedule time).toll limit ∨
          ∃ held,
            (crew.after config schedule later).notes[thread]? = some held ∧
              held.point = .done) := by
    refine @ends_of_rank _ _ _ _ _ _ (recurs_turn fair isThread)
      (fun current => Live config listing current ∧
        Resting current.notes ∧
        current.toll limit = (crew.after config schedule time).toll limit ∧
        ∃ held, current.notes[thread]? = some held ∧ held.point ≠ .done)
      (fun current =>
        current.toll limit < (crew.after config schedule time).toll limit ∨
          ∃ held, current.notes[thread]? = some held ∧ held.point = .done)
      (fun current => (current.notes[thread]?.elim 0 fun held =>
        held.point.stage current.pool.state.queue)) ?_ ?_ time
      ⟨stateAt_invariant (Live.step finite) live time,
        resting_of_settled finite few live fair workerCount settled, rfl,
        held, stands, never time held stands⟩
    · rintro current move ⟨isLive, rests, left, held, stands, alive⟩
      rw [← left]
      have falls := Live.toll_step finite few current move isLive
      rcases isLive.idle_step finite few rests stands move with
        lower | ⟨restsOn, next, standsNext, nearer⟩
      · exact Or.inl (Or.inl lower)
      · by_cases isDone : next.point = .done
        · exact Or.inl (Or.inr ⟨next, standsNext, isDone⟩)
        · by_cases lower :
              (current.step config move).toll limit < current.toll limit
          · exact Or.inl (Or.inl lower)
          · refine Or.inr ⟨⟨Live.step finite current move isLive, restsOn,
              by omega, next, standsNext, isDone⟩, ?_⟩
            rw [standsNext, stands]
            exact nearer
    · rintro current _ ⟨isLive, rests, left, held, stands, alive⟩
        ⟨choice, rfl⟩
      rw [← left]
      rcases isLive.idle_own finite few rests stands alive choice with
        lower | ⟨next, standsNext, nearer⟩
      · exact Or.inl (Or.inl lower)
      · right
        rw [standsNext, stands]
        exact nearer
  rcases lower with ⟨later, after, less | ⟨held, stands, isDone⟩⟩
  · exact absurd (settled later after) (Nat.ne_of_lt less)
  · exact never later held stands isDone

/-- The crew at a time is the walk at that time, with where its workers stand. -/
theorem pool_after (time : Nat) :
    (crew.after config schedule time).pool =
      poolAt (workerResume config) crew.pool schedule time := by
  induction time with
  | zero => rfl
  | succ time induction =>
      rw [poolAt, ← induction]
      rfl

end Fairly

end Runs

/-- The workers of a walk that has been dispatched. -/
def crewOf (environment : Environment) (config : Config)
    (memory : List Byte) (workers : Nat)
    (situation : environment.Situation) :
    Crew environment config.effectiveQueueCapacity :=
  ⟨parallelPool environment config memory workers situation,
    List.replicate workers ⟨[], .starting⟩⟩

theorem live_crewOf {config : Config} {listing : Path → Nat}
    {environment : Environment} (covers : CoversRoot config)
    {memory : List Byte} (usable : usableRoot config = some memory)
    (workers : Nat) (situation : environment.Situation) :
    Live config listing
      (crewOf environment config memory workers situation) := by
  have bounds :=
    @sound_parallelPool config listing environment covers memory usable
      workers situation
  refine ⟨⟨.replicate keeps_workerStart_conducting _ workers, ?_,
    bounds.property, ?_⟩, ⟨_, bounds⟩, settled_parallelPool⟩
  · intro conduct member
    rw [List.eq_of_mem_replicate member]
    exact ⟨nofun, trivial⟩
  · have free :
        ((List.replicate workers (⟨[], .starting⟩ : Conduct)).map
          fun conduct => (conduct.point.burden : Int)).sum = 0 := by
      rw [List.map_replicate, List.sum_replicate]
      exact nsmul_zero workers
    change 1 = wrapInt (burdens _ (List.replicate workers _))
    rw [burdens, free]
    rfl

/--
Every parallel walk comes to an end: in every environment with finite listings,
whatever fails, is refused or asked for and however the file system changes,
under every fair schedule all workers return.
-/
theorem workers_return {config : Config} {listing : Path → Nat}
    {environment : Environment} (covers : CoversRoot config)
    (finite : FiniteListings environment listing) {workers : Nat}
    {situation : environment.Situation}
    {pool : Pool (machine environment config.effectiveQueueCapacity) Bool}
    (dispatched :
      dispatchParallel environment config workers situation = some pool)
    {schedule : Nat → Move (machine environment
      config.effectiveQueueCapacity)} (fair : Fair workers schedule) :
    ∃ time, Ended (Pool.run (workerResume config) pool
      ((List.range time).map schedule)) := by
  rcases dispatchParallel_some dispatched with ⟨memory, usable, rfl⟩
  rcases exists_limit config listing with ⟨limit, few⟩
  have live :=
    @live_crewOf config listing environment covers memory usable workers
      situation
  rcases measure_settles (Live.step finite) (Live.toll_step finite few) live
      with ⟨time, settled⟩
  have each :
      ∀ thread, thread < workers → ∃ later,
        (poolAt (workerResume config)
          (parallelPool environment config memory workers situation)
          schedule later).threads[thread]? = some (.ret false) := by
    intro thread isThread
    rcases ends_of_settled finite few live fair List.length_replicate settled
        isThread with ⟨later, held, stands, isDone⟩
    have returned :=
      (stateAt_invariant (Live.step finite) live later).returned stands
        isDone
    rw [pool_after] at returned
    exact ⟨later, returned⟩
  rcases reaches_together
      (fun thread pool => pool.threads[thread]? = some (.ret false))
      (fun thread pool move returned => Pool.step_returned returned move)
      each with ⟨last, together⟩
  refine ⟨last, ?_⟩
  intro program member
  rcases List.getElem?_of_mem member with ⟨thread, found⟩
  have isThread : thread < workers := by
    have inside := (List.getElem?_eq_some_iff.mp found).1
    rw [Pool.run_length] at inside
    exact Nat.lt_of_lt_of_eq inside List.length_replicate
  have returned := together thread isThread
  rw [poolAt_eq_run, found] at returned
  exact Option.some.inj returned

/--
Two workers that take turns, while a stop is asked for again and again and a
queue with one place refuses what it likes.
-/
def interrupted (time : Nat) : Move (machine cancellingEnvironment
    wideConfig.effectiveQueueCapacity) :=
  if time % 3 = 2 then .drift ()
  else .turn (time % 3) ((), ⟨time % 4 = 0, time⟩)

theorem fair_interrupted : Fair 2 interrupted := by
  intro thread isThread time
  have turn : (3 * time + thread) % 3 = thread := by omega
  refine ⟨3 * time + thread,
    ((), ⟨decide ((3 * time + thread) % 4 = 0), 3 * time + thread⟩),
    by omega, ?_⟩
  rw [interrupted, turn, if_neg (by omega)]

/-- They return. -/
theorem workers_return_interrupted :
    ∃ time, Ended (Pool.run (workerResume wideConfig)
      (parallelPool cancellingEnvironment wideConfig [114, 0] 2 false)
      ((List.range time).map interrupted)) := by
  have covers : CoversRoot wideConfig := by
    intro memory isRoot
    cases isRoot
    decide
  have finite :
      FiniteListings cancellingEnvironment
        (fun path => (wideWorld.listing path).entries.length) :=
    ⟨fun _ _ => (finiteListings_world wideWorld).1 () (),
      fun _ _ => (finiteListings_world wideWorld).2 () ()⟩
  exact workers_return covers finite rfl fair_interrupted

/-! ## How much is done -/

/-- A call that looks whether the walk goes on and whether there is work. -/
def isLook : Op → Bool
  | .shared .loadVisitFailed => true
  | .shared .queuePop => true
  | .shared .loadOutstanding => true
  | .outside .shouldStopCheck => true
  | _ => false

/-- The calls that do something. -/
def workOf (events : List (Event Op Op.Response)) : Nat :=
  events.countP fun event => !isLook event.op

section Work

variable {config : Config} {listing : Path → Nat} {limit capacity : Nat}
  {environment : Environment}

/-- An idle worker only looks. -/
theorem isLook_of_idle {conduct : Conduct} {op : Op}
    (isNext : conduct.op config = some op) (idle : conduct.point.Idle) :
    isLook op = true := by
  rcases conduct with ⟨listings, point⟩
  cases point with
  | flag errand =>
      cases isNext
      rfl
  | stop errand =>
      cases isNext
      rfl
  | popping =>
      cases isNext
      rfl
  | surveying =>
      cases isNext
      rfl
  | done => cases isNext
  | _ => exact idle.elim

/-- What a crew does is paid for out of what it can cost. -/
theorem Live.work_log (finite : FiniteListings environment listing)
    (few : ∀ directory, Reached config directory →
      listing directory.text ≤ limit)
    {crew : Crew environment capacity} (live : Live config listing crew)
    (moves : List (Move (machine environment capacity))) :
    workOf (Pool.log (workerResume config) crew.pool moves) ≤
      crew.toll limit := by
  induction moves generalizing crew with
  | nil => exact Nat.zero_le _
  | cons move moves induction =>
      have rest :
          workOf (Pool.log (workerResume config)
              (Pool.step (workerResume config) crew.pool move) moves) ≤
            (crew.step config move).toll limit :=
        induction (Live.step finite crew move live)
      have falls := Live.toll_step finite few crew move live
      rw [Pool.log, workOf, List.countP_append]
      rw [workOf] at rest
      cases made : crew.pool.eventOf move with
      | none =>
          rw [Option.toList_none, List.countP_nil]
          omega
      | some event =>
          rw [Option.toList_some, List.countP_singleton]
          split
          · rename_i works
            rcases Pool.eventOf_some made with
              ⟨choice, next, rfl, running, _⟩
            rcases live.sound.orderly.turn resumes_worker_conducting running
              with ⟨held, found, isNext, _⟩
            have busy : ¬ held.point.Idle := by
              intro idle
              rw [isLook_of_idle isNext idle] at works
              cases works
            have lower := live.toll_turn finite few found busy choice
            omega
          · omega

end Work

/--
However the workers are scheduled, fairly or not, whatever fails and however the
file system changes: all they ever do, apart from looking for work, is bounded
by the number of workers, the length of the listings and the room that the path
of the root leaves.
-/
theorem work_bounded {config : Config} {listing : Path → Nat}
    {environment : Environment} (covers : CoversRoot config)
    (finite : FiniteListings environment listing) {limit : Nat}
    (few : ∀ path, listing path ≤ limit) {workers : Nat}
    {situation : environment.Situation}
    {pool : Pool (machine environment config.effectiveQueueCapacity) Bool}
    (dispatched :
      dispatchParallel environment config workers situation = some pool)
    (moves : List (Move (machine environment
      config.effectiveQueueCapacity))) :
    workOf (Pool.log (workerResume config) pool moves) ≤
      2 + toll limit (maxPathLength - config.rootLength) + workers * 4 := by
  rcases dispatchParallel_some dispatched with ⟨memory, usable, rfl⟩
  have live :=
    @live_crewOf config listing environment covers memory usable workers
      situation
  have bounded :=
    live.work_log finite (fun directory _ => few directory.text) moves
  have begins :
      (crewOf environment config memory workers situation).toll limit =
        queueToll limit (rootEntry config memory) + workers * 4 := by
    change ([rootEntry config memory].map (queueToll limit)).sum +
      ((List.replicate workers (⟨[], .starting⟩ : Conduct)).map
        (Conduct.toll limit)).sum = _
    rw [List.map_singleton, List.sum_singleton, List.map_replicate,
      List.sum_replicate]
    rfl
  -- the path of the root is as long as the configuration says
  have root : queueToll limit (rootEntry config memory) ≤
      2 + toll limit (maxPathLength - config.rootLength) := by
    have long := (reached_rootEntry covers usable).deep
    refine Nat.add_le_add_left (toll_mono limit ?_) 2
    unfold spaceOf
    omega
  rw [begins] at bounded
  exact Nat.le_trans bounded (Nat.add_le_add_right root _)

/-- Two workers that follow a link from a directory to itself. -/
theorem work_bounded_cyclic :
    workOf (Pool.log (workerResume cyclicConfig)
        (parallelPool cyclicWorld.environment cyclicConfig [114, 0] 2 ())
        (List.replicate 1000 (.turn 0 ((), ⟨true, 0⟩)))) ≤
      2 + toll 1 (maxPathLength - cyclicConfig.rootLength) + 2 * 4 := by
  have covers : CoversRoot cyclicConfig := by
    intro memory isRoot
    cases isRoot
    decide
  exact work_bounded covers (finiteListings_world cyclicWorld)
    (fun _ => Nat.le_refl 1) rfl _

end BcIo.Walk
