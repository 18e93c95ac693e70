import BcIo.Walk.Reports

/-!
# From worker to worker

A worker hands a directory over through the queue, or keeps it when the queue
refuses it.  Nothing is lost or doubled on the way: no directory is opened more
often than it was agreed to, and in a walk that nothing disturbs each is opened
once.
-/

namespace BcIo.Walk

open BcIo.File
open BcIo.Foundation.Aggregate
open BcIo.Foundation.Interaction
open BcIo.Foundation.WorkerPool
open BcIo.Foundation.Bookkeeping
open BcIo.Foundation.Recording
open BcIo.Foundation.Automata

/-! ## The queue -/

/-- A directory is put into the queue. -/
def queuedBy : Answered Op Op.Response → Multiset Path
  | ⟨.shared (.queuePush directory), true⟩ => {directory.text}
  | _ => 0

/-- A directory is taken from the queue. -/
def poppedBy : Answered Op Op.Response → Multiset Path
  | ⟨.shared .queuePop, some directory⟩ => {directory.text}
  | _ => 0

/-- The queue refuses a directory. -/
def refusedBy : Answered Op Op.Response → Multiset Path
  | ⟨.shared (.queuePush directory), false⟩ => {directory.text}
  | _ => 0

/-- A directory has been agreed to, and is offered to the queue. -/
def offeredBy : Answered Op Op.Response → Multiset Path
  | ⟨.shared (.queuePush directory), _⟩ => {directory.text}
  | _ => 0

/-- A directory is opened, or the attempt is made. -/
def openedBy : Answered Op Op.Response → Multiset Path
  | ⟨.outside (.openDirectory path _), _⟩ => {path}
  | _ => 0

/-- The paths of the directories in the queue. -/
def State.queued {Situation : Type} (state : State Situation) :
    Multiset Path :=
  (state.queue.map Directory.text : List Path)

/-- The sum over the calls of a log. -/
def along (part : Answered Op Op.Response → Multiset Path)
    (log : List (Event Op Op.Response)) : Multiset Path :=
  (log.map fun event => part (callOf event)).sum

theorem along_cons (part : Answered Op Op.Response → Multiset Path)
    (event : Event Op Op.Response) (log : List (Event Op Op.Response)) :
    along part (event :: log) = part (callOf event) + along part log := by
  rw [along, List.map_cons, List.sum_cons]
  rfl

section Queue

variable {environment : Environment} {capacity : Nat}

variable {M : Type} [AddCommMonoid M] (worth : Directory → M)

/-- What a call puts into the queue is worth. -/
def putBy : Answered Op Op.Response → M
  | ⟨.shared (.queuePush directory), true⟩ => worth directory
  | _ => 0

/-- What a call takes from the queue is worth. -/
def takenBy : Answered Op Op.Response → M
  | ⟨.shared .queuePop, some directory⟩ => worth directory
  | _ => 0

/-- Whatever position is chosen, one directory leaves the queue, or none. -/
theorem worth_pop (queue : List Directory) (position : Nat) :
    (queue.map worth).sum =
      takenBy worth ⟨.shared .queuePop, queue[position]?⟩ +
        ((queue.eraseIdx position).map worth).sum := by
  cases found : queue[position]? with
  | none =>
      rw [List.eraseIdx_of_length_le (List.getElem?_eq_none_iff.mp found)]
      exact (zero_add _).symm
  | some directory =>
      rcases List.getElem?_eq_some_iff.mp found with ⟨inside, isThere⟩
      have moved :=
        ((List.getElem_cons_eraseIdx_perm inside).symm.map worth).sum_eq
      rw [isThere, List.map_cons, List.sum_cons] at moved
      exact moved

/-- What a call puts into the queue and takes from it. -/
theorem worth_handle (state : State environment.Situation)
    (choice : environment.Choice × QueueChoice) (op : Op) :
    (state.queue.map worth).sum +
        putBy worth
          ⟨op, ((machine environment capacity).handle state choice op).1⟩ =
      takenBy worth
          ⟨op, ((machine environment capacity).handle state choice op).1⟩ +
        (((machine environment capacity).handle state choice
          op).2.queue.map worth).sum := by
  have unchanged :
      (state.queue.map worth).sum + 0 = 0 + (state.queue.map worth).sum :=
    add_comm _ _
  cases op with
  | outside call => exact unchanged
  | shared access =>
      cases access with
      | queuePush directory =>
          simp only [respond, touch]
          split
          · change (state.queue.map worth).sum + worth directory =
              0 + ((state.queue ++ [directory]).map worth).sum
            rw [List.map_append, List.sum_append, zero_add]
            simp
          · exact unchanged
      | queuePop =>
          exact (add_zero _).trans (worth_pop worth state.queue _)
      | _ => exact unchanged

theorem queued_handle (state : State environment.Situation)
    (choice : environment.Choice × QueueChoice) (op : Op) :
    state.queued +
        queuedBy
          ⟨op, ((machine environment capacity).handle state choice op).1⟩ =
      poppedBy
          ⟨op, ((machine environment capacity).handle state choice op).1⟩ +
        ((machine environment capacity).handle state choice
          op).2.queued := by
  have moved :=
    @worth_handle environment capacity _ _
      (fun directory => ({directory.text} : Multiset Path)) state choice op
  rw [sum_map_singleton, sum_map_singleton] at moved
  exact moved

/-- In every run, what was put into the queue was taken from it or is in it. -/
theorem queued_run {resume : Bool → Option (Action Bool)}
    (pool : Pool (machine environment capacity) Bool)
    (moves : List (Move (machine environment capacity))) :
    pool.state.queued + along queuedBy (Pool.log resume pool moves) =
      along poppedBy (Pool.log resume pool moves) +
        (Pool.run resume pool moves).state.queued := by
  induction moves generalizing pool with
  | nil => exact add_comm _ _
  | cons move moves induction =>
      have rest := induction (Pool.step resume pool move)
      change _ = _ + (Pool.run resume (Pool.step resume pool move)
        moves).state.queued
      rw [Pool.log]
      cases made : pool.eventOf move with
      | none =>
          have same :
              (Pool.step resume pool move).state.queued =
                pool.state.queued := by
            rcases Pool.eventOf_none resume made with ⟨drift, rfl⟩ | same
            · rfl
            · rw [same]
          rw [same] at rest
          exact rest
      | some event =>
          rcases Pool.eventOf_some made with
            ⟨choice, next, rfl, running, response⟩
          have step :
              pool.state.queued + queuedBy (callOf event) =
                poppedBy (callOf event) +
                  ((machine environment capacity).handle pool.state choice
                    event.op).2.queued := by
            rw [callOf, response]
            exact queued_handle pool.state choice event.op
          rw [Pool.step_call running] at rest ⊢
          rw [Option.toList_some, List.singleton_append, along_cons,
            along_cons, ← add_assoc, step, add_assoc, rest, add_assoc]

end Queue

/-! ## What a worker has in hand -/

/-- The directory that a worker is about to open. -/
def Point.inHand : Point → Multiset Path
  | .flag (.enter directory) => {directory.text}
  | .stop (.enter directory) => {directory.text}
  | .opening directory => {directory.text}
  | .undoing directory => {directory.text}
  | .inlining directory => {directory.text}
  | _ => 0

/-- The walk is broken off, or a reader cannot be had. -/
def disturbs : Answered Op Op.Response → Bool
  | ⟨.shared .loadVisitFailed, failed⟩ => failed
  | ⟨.outside .shouldStopCheck, asked⟩ => asked
  | ⟨.outside .direntReaderCreate, created⟩ => !created
  | _ => false

section Hands

variable {config : Config} {listings : List OpenListing} {entry : Entry}

theorem inHand_leaving (worker : Bool) :
    (leaving worker listings).inHand = 0 := by
  unfold leaving
  split
  · split <;> rfl
  · rfl

theorem inHand_breakingOff (errand : Errand) :
    (breakingOff true listings errand).inHand = 0 := by
  cases errand with
  | enter directory => exact inHand_leaving true
  | _ => rfl

theorem inHand_turning : (turning config).inHand = 0 := by
  unfold turning
  split <;> rfl

theorem inHand_sequel (sequel : Sequel) :
    (sequel.point true listings).inHand = 0 := by
  cases sequel with
  | leave => exact inHand_leaving true
  | _ => rfl

theorem inHand_charged (report : Report) (sequel : Sequel) :
    (charged config true listings report sequel).inHand = 0 := by
  unfold charged
  split
  · rfl
  · split
    · rfl
    · exact inHand_sequel sequel

theorem inHand_afterVisit :
    (afterVisit config true entry).inHand = 0 := by
  unfold afterVisit
  split <;> rfl

theorem inHand_admitting : (admitting config true entry).inHand = 0 := by
  unfold admitting
  split
  · rfl
  · split
    · rfl
    · exact inHand_afterVisit
  · rfl
  · rfl

theorem inHand_presenting : (presenting config true entry).inHand = 0 := by
  unfold presenting
  split
  · rfl
  · exact inHand_admitting

theorem inHand_receiving (directory : Directory) (dirent : Dirent) :
    (receiving config true directory dirent).inHand = 0 := by
  unfold receiving
  split
  · rfl
  · split
    · rfl
    · split
      · rfl
      · split
        · rfl
        · exact inHand_presenting

/-- A worker opens what it has in hand, unless it is disturbed. -/
theorem hands_step (conduct : Conduct) (call : Answered Op Op.Response)
    (isNext : conduct.op config = some call.1) :
    ∃ lost, conduct.point.inHand + (poppedBy call + refusedBy call) =
        openedBy call + lost +
          (conduct.after config true call.1 call.2).point.inHand ∧
      (disturbs call = false → lost = 0) := by
  rcases conduct with ⟨listings, point⟩
  rcases call with ⟨op, response⟩
  -- a call that opens nothing and is handed nothing
  have passes :
      ∀ {before after : Multiset Path}, before = after →
        ∃ lost, before + (0 + 0) = 0 + lost + after ∧
          (disturbs ⟨op, response⟩ = false → lost = 0) := by
    rintro before _ rfl
    refine ⟨0, ?_, fun _ => rfl⟩
    rw [add_zero, add_zero, zero_add]
  have drops :
      ∀ {before after : Multiset Path}, disturbs ⟨op, response⟩ = true →
        after = 0 →
        ∃ lost, before + (0 + 0) = 0 + lost + after ∧
          (disturbs ⟨op, response⟩ = false → lost = 0) := by
    rintro before _ isDisturbed rfl
    refine ⟨before, ?_, ?_⟩
    · rw [add_zero, add_zero, add_zero, zero_add]
    · intro undisturbed
      rw [isDisturbed] at undisturbed
      cases undisturbed
  cases point with
  | flag errand =>
      cases isNext
      cases response with
      | true => exact drops rfl (inHand_breakingOff errand)
      | false => exact passes (by cases errand <;> rfl)
  | stop errand =>
      cases isNext
      cases response with
      | true => exact drops rfl (inHand_breakingOff errand)
      | false => exact passes (by cases errand <;> rfl)
  | popping =>
      cases isNext
      cases response with
      | none => exact passes rfl
      | some directory =>
          refine ⟨0, ?_, fun _ => rfl⟩
          exact add_comm _ _
  | opening directory =>
      cases isNext
      refine ⟨0, ?_, fun _ => rfl⟩
      cases response <;> rfl
  | pushing directory =>
      cases isNext
      cases response with
      | true => exact passes rfl
      | false =>
          refine ⟨0, ?_, fun _ => rfl⟩
          rfl
  | inlining directory =>
      cases isNext
      cases response with
      | true => exact passes rfl
      | false => exact drops rfl rfl
  | starting =>
      cases isNext
      cases response with
      | true => exact passes inHand_turning.symm
      | false => exact passes rfl
  | abandoning =>
      cases isNext
      refine passes ?_
      change 0 = Point.inHand (if config.hasOnError then _ else _)
      split <;> rfl
  | surveying =>
      cases isNext
      refine passes ?_
      change 0 = Point.inHand (if response ≠ 0 then turning config else .done)
      split
      · exact inHand_turning.symm
      · rfl
  | finishing =>
      cases isNext
      exact passes inHand_turning.symm
  | allocating =>
      cases isNext
      refine passes ?_
      cases listings with
      | nil => rfl
      | cons listing outer => cases response <;> rfl
  | reading =>
      cases listings with
      | nil => cases isNext
      | cons listing outer =>
          cases isNext
          refine passes ?_
          cases response with
          | entry dirent => exact (inHand_receiving _ dirent).symm
          | _ => rfl
  | inquiring dirent childPath noFollow =>
      cases listings with
      | nil => cases isNext
      | cons listing outer =>
          cases isNext
          refine passes ?_
          cases response with
          | error errno => rfl
          | ok stat => exact inHand_presenting.symm
  | filtering entry =>
      cases isNext
      refine passes ?_
      cases response with
      | true => exact inHand_admitting.symm
      | false => rfl
  | visiting entry =>
      cases isNext
      refine passes ?_
      cases response with
      | false => rfl
      | true =>
          change 0 = Point.inHand
            (if entry.kind = .file then .flag .read
              else afterVisit config true entry)
          split
          · rfl
          · exact inHand_afterVisit.symm
  | deciding entry =>
      cases isNext
      refine passes ?_
      cases response <;> rfl
  | charging report sequel =>
      cases isNext
      exact passes (inHand_charged report sequel).symm
  | telling report sequel =>
      cases isNext
      exact passes (inHand_sequel sequel).symm
  | closing =>
      cases listings with
      | nil => cases isNext
      | cons listing outer =>
          cases isNext
          exact passes (inHand_leaving true).symm
  | done => cases isNext
  | _ =>
      cases isNext
      exact passes rfl

end Hands

/-! ## How a worker ends -/

/--
A worker has last found the queue empty: it has neither taken a directory nor
offered one since.
-/
def foundEmpty (before : Bool) : Answered Op Op.Response → Bool
  | ⟨.shared .queuePop, popped⟩ => popped.isNone
  | ⟨.shared (.queuePush _), _⟩ => false
  | _ => before

/--
Points of a worker that nothing has disturbed: it asks for the count, and ends,
only after it has found the queue empty.
-/
def Steady (empty : Bool) : Point → Prop
  | .surveying => empty = true
  | .done => empty = true
  | .abandoning => False
  | .flag .result => False
  | .stop .result => False
  | .charging _ .abandon => False
  | .telling _ .abandon => False
  | _ => True

section Ends

variable {config : Config} {listings : List OpenListing} {entry : Entry}
  {empty : Bool}

theorem steady_leaving : Steady empty (leaving true listings) := by
  unfold leaving
  split <;> trivial

theorem steady_turning : Steady empty (turning config) := by
  unfold turning
  split <;> trivial

theorem steady_afterVisit : Steady empty (afterVisit config true entry) := by
  unfold afterVisit
  split <;> trivial

theorem steady_admitting : Steady empty (admitting config true entry) := by
  unfold admitting
  split
  · trivial
  · split
    · trivial
    · exact steady_afterVisit
  · trivial
  · trivial

theorem steady_presenting : Steady empty (presenting config true entry) := by
  unfold presenting
  split
  · trivial
  · exact steady_admitting

theorem steady_receiving (directory : Directory) (dirent : Dirent) :
    Steady empty (receiving config true directory dirent) := by
  unfold receiving
  split
  · trivial
  · split
    · trivial
    · split
      · trivial
      · split
        · trivial
        · exact steady_presenting

theorem steady_sequel {sequel : Sequel} (goesOn : sequel ≠ .abandon) :
    Steady empty (sequel.point true listings) := by
  cases sequel with
  | abandon => exact absurd rfl goesOn
  | leave => exact steady_leaving
  | _ => trivial

theorem steady_step {conduct : Conduct} {call : Answered Op Op.Response}
    (steady : Steady empty conduct.point)
    (undisturbed : disturbs call = false)
    (isNext : conduct.op config = some call.1) :
    Steady (foundEmpty empty call)
      (conduct.after config true call.1 call.2).point := by
  rcases conduct with ⟨listings, point⟩
  rcases call with ⟨op, response⟩
  cases point with
  | flag errand =>
      cases isNext
      cases response with
      | true => cases undisturbed
      | false =>
          cases errand with
          | result => exact False.elim steady
          | _ => trivial
  | stop errand =>
      cases isNext
      cases response with
      | true => cases undisturbed
      | false =>
          cases errand with
          | result => exact False.elim steady
          | _ => trivial
  | popping =>
      cases isNext
      cases response with
      | none => rfl
      | some directory => trivial
  | surveying =>
      cases isNext
      by_cases isZero : response = 0
      · subst isZero
        exact steady
      · change Steady _ (if response ≠ 0 then turning config else .done)
        rw [if_pos isZero]
        exact steady_turning
  | starting =>
      cases isNext
      cases response with
      | true => exact steady_turning
      | false => cases undisturbed
  | finishing =>
      cases isNext
      exact steady_turning
  | opening directory =>
      cases isNext
      cases response <;> trivial
  | allocating =>
      cases isNext
      cases listings with
      | nil => trivial
      | cons listing outer => cases response <;> trivial
  | reading =>
      cases listings with
      | nil => cases isNext
      | cons listing outer =>
          cases isNext
          cases response with
          | entry dirent => exact steady_receiving _ dirent
          | _ => trivial
  | inquiring dirent childPath noFollow =>
      cases listings with
      | nil => cases isNext
      | cons listing outer =>
          cases isNext
          cases response with
          | error errno => trivial
          | ok stat => exact steady_presenting
  | filtering entry =>
      cases isNext
      cases response with
      | true => exact steady_admitting
      | false => trivial
  | visiting entry =>
      cases isNext
      cases response with
      | false => trivial
      | true =>
          change Steady _
            (if entry.kind = .file then .flag .read
              else afterVisit config true entry)
          split
          · trivial
          · exact steady_afterVisit
  | deciding entry =>
      cases isNext
      cases response <;> trivial
  | pushing directory =>
      cases isNext
      cases response <;> trivial
  | inlining directory =>
      cases isNext
      cases response <;> trivial
  | charging report sequel =>
      cases isNext
      have goesOn : sequel ≠ .abandon := by
        rintro rfl
        exact steady
      change Steady _ (charged config true listings report sequel)
      unfold charged
      rw [if_neg goesOn]
      split
      · cases sequel with
        | abandon => exact absurd rfl goesOn
        | _ => trivial
      · exact steady_sequel goesOn
  | telling report sequel =>
      cases isNext
      refine steady_sequel ?_
      rintro rfl
      exact steady
  | closing =>
      cases listings with
      | nil => cases isNext
      | cons listing outer =>
          cases isNext
          exact steady_leaving
  | abandoning => exact absurd steady id
  | done => cases isNext
  | _ =>
      cases isNext
      exact trivial

theorem steady_makes {held last : Conduct}
    {calls : List (Answered Op Op.Response)}
    (makes : (conductor config true).Makes held calls last)
    (steady : Steady empty held.point)
    (undisturbed : ∀ call ∈ calls, disturbs call = false) :
    Steady (calls.foldl foundEmpty empty) last.point := by
  induction calls generalizing held empty with
  | nil =>
      cases makes
      exact steady
  | cons call calls induction =>
      rw [List.forall_mem_cons] at undisturbed
      exact induction makes.2 (steady_step steady undisturbed.1 makes.1)
        undisturbed.2

end Ends

/-! ## The workers of a walk -/

section Workers

variable {config : Config} {calls : List (Answered Op Op.Response)}
  {program : Action Bool}

/-- A worker opens what it has taken or was refused, if it is not disturbed. -/
theorem worker_opens
    (performed : Performed environment config true calls program) :
    ∃ rest,
      (calls.map fun call => poppedBy call + refusedBy call).sum =
          (calls.map openedBy).sum + rest ∧
        ((∀ call ∈ calls, disturbs call = false) →
          (∃ value, program = .ret value) → rest = 0) := by
  rcases performed.makes with ⟨last, makes, _, returned⟩
  rcases makes.conserves hands_step with ⟨lost, balance, kept⟩
  refine ⟨lost + last.point.inHand, ?_, ?_⟩
  · rw [← add_assoc, ← balance]
    exact (zero_add _).symm
  · rintro undisturbed ⟨value, isReturn⟩
    rw [kept undisturbed, returned value isReturn]
    rfl

theorem offered_eq (call : Answered Op Op.Response) :
    offeredBy call = queuedBy call + refusedBy call := by
  rcases call with ⟨op, response⟩
  cases op with
  | outside call => rfl
  | shared access =>
      cases access with
      | queuePush directory =>
          cases response with
          | true => exact (add_zero _).symm
          | false => exact (zero_add _).symm
      | _ => rfl

theorem along_add {first second both : Answered Op Op.Response → Multiset Path}
    (splits : ∀ call, both call = first call + second call)
    (log : List (Event Op Op.Response)) :
    along both log = along first log + along second log := by
  induction log with
  | nil => rfl
  | cons event log induction =>
      rw [along_cons, along_cons, along_cons, splits, induction]
      abel

variable {environment : Environment} {workers : Nat}
  {situation : environment.Situation}
  {pool : Pool (machine environment config.effectiveQueueCapacity) Bool}
  (dispatched :
    dispatchParallel environment config workers situation = some pool)
  (moves : List (Move (machine environment config.effectiveQueueCapacity)))

include dispatched in
theorem thread_exists {thread : Nat} (isThread : thread < workers) :
    ∃ program,
      (Pool.run (workerResume config) pool moves).threads[thread]? =
        some program := by
  have inside :
      thread <
        (Pool.run (workerResume config) pool moves).threads.length := by
    rcases dispatchParallel_some dispatched with ⟨memory, _, rfl⟩
    rw [Pool.run_length]
    exact Nat.lt_of_lt_of_eq isThread List.length_replicate.symm
  exact ⟨_, List.getElem?_eq_getElem inside⟩

include dispatched in
theorem log_inside :
    ∀ event ∈ Pool.log (workerResume config) pool moves,
      event.thread < workers := by
  rcases dispatchParallel_some dispatched with ⟨memory, _, rfl⟩
  intro event logged
  exact Nat.lt_of_lt_of_eq (Pool.log_thread _ logged) List.length_replicate

include dispatched in
/-- All workers together. -/
theorem workers_open :
    ∃ rest,
      along (fun call => poppedBy call + refusedBy call)
          (Pool.log (workerResume config) pool moves) =
        along openedBy (Pool.log (workerResume config) pool moves) + rest ∧
      ((∀ event ∈ Pool.log (workerResume config) pool moves,
          disturbs (callOf event) = false) →
        (∀ thread, thread < workers → ∃ value,
          (Pool.run (workerResume config) pool moves).threads[thread]? =
            some (.ret value)) →
        rest = 0) := by
  have each :
      ∀ thread, ∃ rest, thread < workers →
        ((recordOf thread (Pool.log (workerResume config) pool moves)).map
            fun call => poppedBy call + refusedBy call).sum =
          ((recordOf thread
            (Pool.log (workerResume config) pool moves)).map openedBy).sum +
              rest ∧
        ((∀ call ∈ recordOf thread
            (Pool.log (workerResume config) pool moves),
          disturbs call = false) →
          (∃ value,
            (Pool.run (workerResume config) pool moves).threads[thread]? =
              some (.ret value)) → rest = 0) := by
    intro thread
    by_cases isThread : thread < workers
    · rcases thread_exists dispatched moves isThread with ⟨program, left⟩
      rcases worker_opens (.parallel workers situation dispatched moves
        thread left) with ⟨rest, balance, none⟩
      refine ⟨rest, fun _ => ⟨balance, ?_⟩⟩
      rintro undisturbed ⟨value, isReturn⟩
      rw [left] at isReturn
      exact none undisturbed ⟨value, Option.some.inj isReturn⟩
    · exact ⟨0, fun isThread' => absurd isThread' isThread⟩
  choose rest balances using each
  have inside := log_inside dispatched moves
  refine ⟨∑ thread ∈ Finset.range workers, rest thread, ?_, ?_⟩
  · have total := Finset.sum_congr rfl fun thread isThread =>
      (balances thread (Finset.mem_range.mp isThread)).1
    rw [Finset.sum_add_distrib, sum_recordOf _ inside,
      sum_recordOf _ inside] at total
    exact total
  · intro undisturbed returned
    refine Finset.sum_eq_zero ?_
    intro thread isThread
    have below := Finset.mem_range.mp isThread
    refine (balances thread below).2 ?_ (returned thread below)
    rintro ⟨op, response⟩ recorded
    exact undisturbed _ (mem_recordOf.mp recorded)

/-- The queue is empty, or some worker is not known to have found it so. -/
def Exhausted (workers : Nat) (empty : Nat → Bool) (queue : List Directory) :
    Prop :=
  (∀ thread < workers, empty thread = true) → queue = []

/-- What a call tells about the thread that makes it. -/
def foundEmptyBy (event : Event Op Op.Response) (empty : Nat → Bool) :
    Nat → Bool :=
  Function.update empty event.thread
    (foundEmpty (empty event.thread) (callOf event))

/-- A worker that leaves something in the queue has not found it empty. -/
theorem Exhausted.handle {capacity : Nat} {empty : Nat → Bool}
    {state : State environment.Situation}
    (exhausted : Exhausted workers empty state.queue)
    (choice : environment.Choice × QueueChoice) {event : Event Op Op.Response}
    (inside : event.thread < workers)
    (response : event.response =
      ((machine environment capacity).handle state choice event.op).1) :
    Exhausted workers (foundEmptyBy event empty)
      ((machine environment capacity).handle state choice
        event.op).2.queue := by
  intro allEmpty
  have own : foundEmpty (empty event.thread) (callOf event) = true := by
    have found := allEmpty event.thread inside
    rwa [foundEmptyBy, Function.update_self] at found
  -- the others know what they knew before
  have before : empty event.thread = true → state.queue = [] := by
    intro isEmpty
    refine exhausted fun thread isThread => ?_
    by_cases isOwn : thread = event.thread
    · rw [isOwn]
      exact isEmpty
    · have found := allEmpty thread isThread
      rwa [foundEmptyBy, Function.update_of_ne isOwn] at found
  rcases event with ⟨thread, op, result⟩
  change result = ((machine environment capacity).handle state choice op).1
    at response
  subst response
  cases op with
  | outside call => exact before own
  | shared access =>
      cases access with
      | queuePush directory => cases own
      | queuePop =>
          have missed :
              state.queue.length ≤
                choice.2.position % state.queue.length :=
            List.getElem?_eq_none_iff.mp (Option.isNone_iff_eq_none.mp own)
          have noQueue : state.queue = [] := by
            by_contra isQueue
            exact absurd missed (Nat.not_le.mpr
              (Nat.mod_lt _ (List.length_pos_iff.mpr isQueue)))
          change state.queue.eraseIdx _ = []
          rw [noQueue]
          rfl
      | _ => exact before own

/-- If each worker has last found the queue empty, then it is. -/
theorem Exhausted.run {capacity : Nat}
    {resume : Bool → Option (Action Bool)}
    {pool : Pool (machine environment capacity) Bool} {empty : Nat → Bool}
    (exhausted : Exhausted workers empty pool.state.queue)
    (moves : List (Move (machine environment capacity)))
    (inside : ∀ event ∈ Pool.log resume pool moves, event.thread < workers) :
    Exhausted workers
      (fun thread =>
        (recordOf thread (Pool.log resume pool moves)).foldl foundEmpty
          (empty thread))
      (Pool.run resume pool moves).state.queue := by
  induction moves generalizing pool empty with
  | nil => exact exhausted
  | cons move moves induction =>
      change Exhausted _ _
        (Pool.run resume (Pool.step resume pool move) moves).state.queue
      rw [Pool.log] at inside ⊢
      cases made : pool.eventOf move with
      | none =>
          rw [made] at inside
          refine induction ?_ inside
          rcases Pool.eventOf_none resume made with ⟨drift, rfl⟩ | same
          · exact exhausted
          · rw [same]
            exact exhausted
      | some event =>
          rw [made, Option.toList_some, List.singleton_append,
            List.forall_mem_cons] at inside
          rcases Pool.eventOf_some made with
            ⟨choice, next, rfl, running, response⟩
          have stepped :
              Exhausted workers (foundEmptyBy event empty)
                (Pool.step resume pool
                  (.turn event.thread choice)).state.queue := by
            rw [Pool.step_call running]
            exact exhausted.handle choice inside.1 response
          have later := induction stepped inside.2
          rw [Option.toList_some, List.singleton_append]
          intro allEmpty
          refine later fun thread isThread => ?_
          have found := allEmpty thread isThread
          dsimp only at found ⊢
          by_cases isOwn : event.thread = thread
          · subst isOwn
            rw [foundEmptyBy, Function.update_self]
            simpa [recordOf, callOf] using found
          · rw [foundEmptyBy, Function.update_of_ne (Ne.symm isOwn)]
            simpa [recordOf, isOwn] using found

include dispatched in
/-- Once all workers of an undisturbed walk have returned, nothing is queued. -/
theorem queue_empty (someWorker : 0 < workers)
    (undisturbed : ∀ event ∈ Pool.log (workerResume config) pool moves,
      disturbs (callOf event) = false)
    (returned : ∀ thread, thread < workers → ∃ value,
      (Pool.run (workerResume config) pool moves).threads[thread]? =
        some (.ret value)) :
    (Pool.run (workerResume config) pool moves).state.queue = [] := by
  have begins : Exhausted workers (fun _ => false) pool.state.queue :=
    fun allEmpty => absurd (allEmpty 0 someWorker) Bool.false_ne_true
  refine begins.run moves (log_inside dispatched moves) ?_
  intro thread isThread
  rcases returned thread isThread with ⟨value, isReturn⟩
  have performed : Performed environment config true _ (.ret value) :=
    .parallel workers situation dispatched moves thread isReturn
  rcases performed.makes with ⟨last, makes, _, ended⟩
  have steady :=
    steady_makes makes (show Steady false _ from trivial)
      fun ⟨op, response⟩ recorded => undisturbed _ (mem_recordOf.mp recorded)
  rw [ended value rfl] at steady
  exact steady

include dispatched in
/--
The workers hand directories over without losing or doubling any, whatever the
environment does and however they are interleaved: at no time have more openings
been attempted at a path than the root and the directories that were agreed to
account for; and when all workers, at least one, have returned, nothing has
broken the walk off and all readers were created, there was exactly one attempt
for the root and for each directory that was agreed to.  That holds even if the
count of outstanding directories overflows: the worker that came last to the
queue found it empty, and nobody has pushed since.
-/
theorem directories_handed_over {memory : List Byte}
    (usable : usableRoot config = some memory) :
    along openedBy (Pool.log (workerResume config) pool moves) ≤
        {(rootEntry config memory).text} +
          along offeredBy (Pool.log (workerResume config) pool moves) ∧
      (0 < workers →
        (∀ event ∈ Pool.log (workerResume config) pool moves,
          disturbs (callOf event) = false) →
        (∀ thread, thread < workers → ∃ value,
          (Pool.run (workerResume config) pool moves).threads[thread]? =
            some (.ret value)) →
        along openedBy (Pool.log (workerResume config) pool moves) =
          {(rootEntry config memory).text} +
            along offeredBy
              (Pool.log (workerResume config) pool moves)) := by
  have begins : pool.state.queued = {(rootEntry config memory).text} := by
    rcases dispatchParallel_some dispatched with ⟨other, isUsable, rfl⟩
    rw [usable] at isUsable
    cases isUsable
    rfl
  have queue :
      pool.state.queued +
          along queuedBy (Pool.log (workerResume config) pool moves) =
        along poppedBy (Pool.log (workerResume config) pool moves) +
          (Pool.run (workerResume config) pool moves).state.queued :=
    queued_run pool moves
  rcases workers_open dispatched moves with ⟨rest, balance, none⟩
  have total :
      {(rootEntry config memory).text} +
          along offeredBy (Pool.log (workerResume config) pool moves) =
        along openedBy (Pool.log (workerResume config) pool moves) +
          (rest + (Pool.run (workerResume config) pool
            moves).state.queued) := by
    rw [along_add (fun _ => rfl)] at balance
    rw [along_add offered_eq, ← begins, ← add_assoc, queue, ← add_assoc,
      ← balance]
    abel
  refine ⟨?_, ?_⟩
  · rw [total]
    exact Multiset.le_add_right _ _
  · intro someWorker undisturbed returned
    rw [total, none undisturbed returned, State.queued,
      queue_empty dispatched moves someWorker undisturbed returned]
    exact (add_zero _).symm

set_option maxRecDepth 2000 in
/-- Two workers on `r/d/b`: both directories are opened, once each. -/
theorem directories_handed_over_nested :
    along openedBy
        (Pool.log (workerResume nestedConfig)
          (parallelPool nestedWorld.environment nestedConfig [114, 0] 2 ())
          ((List.range 80).map alternating)) =
      {[114], [114, 47, 100]} := by
  have dispatched :
      dispatchParallel nestedWorld.environment nestedConfig 2 () =
        some (parallelPool nestedWorld.environment nestedConfig [114, 0] 2
          ()) := rfl
  have handed :=
    (directories_handed_over dispatched ((List.range 80).map alternating)
      (show usableRoot nestedConfig = some [114, 0] from rfl)).2
  refine (handed (by decide) ?_ ?_).trans ?_
  · decide +kernel
  · intro thread isThread
    refine ⟨false, ?_⟩
    rcases Nat.lt_succ_iff_lt_or_eq.mp isThread with isFirst | rfl
    · rw [Nat.lt_one_iff.mp isFirst]
      rfl
    · rfl
  · decide +kernel

end Workers

end BcIo.Walk
