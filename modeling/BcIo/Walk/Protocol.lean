import BcIo.Walk.Conduct
import BcIo.Walk.Failure

/-!
# How a thread of a walk behaves towards the outside

The calls of a thread, in whatever environment and among whatever other threads,
are those of its machine.  Read off the machine: a thread works on the innermost
directory it has open and closes every directory it has opened, and it goes
through the callbacks for an entry in their order.
-/

namespace BcIo.Walk

open BcIo.File
open BcIo.Foundation.Interaction
open BcIo.Foundation.WorkerPool
open BcIo.Foundation.Bookkeeping
open BcIo.Foundation.Recording
open BcIo.Foundation.Automata

/-! ## Threads of a walk -/

/--
In some run of a walk in an environment one of its threads has made these calls,
and is left with this program; the thread of a sequential walk, or a worker of a
parallel one.
-/
inductive Performed (environment : Environment) (config : Config) :
    Bool → List (Answered Op Op.Response) → Action Bool → Prop where
  | sequential (situation : environment.Situation)
      (moves : List
        (Move (machine environment config.effectiveQueueCapacity)))
      {program : Action Bool}
      (left : (Pool.run sequentialResume
        (sequentialPool environment config situation) moves).threads[0]? =
          some program) :
      Performed environment config false
        (recordOf 0 (Pool.log sequentialResume
          (sequentialPool environment config situation) moves)) program
  | parallel (workers : Nat) (situation : environment.Situation)
      {pool : Pool (machine environment config.effectiveQueueCapacity) Bool}
      (dispatched :
        dispatchParallel environment config workers situation = some pool)
      (moves : List
        (Move (machine environment config.effectiveQueueCapacity)))
      (thread : Nat) {program : Action Bool}
      (left : (Pool.run (workerResume config) pool moves).threads[thread]? =
        some program) :
      Performed environment config true
        (recordOf thread (Pool.log (workerResume config) pool moves)) program

/-- Where a thread begins. -/
def threadStart (config : Config) (worker : Bool) : Conduct :=
  if worker then ⟨[], .starting⟩ else sequentialStart config

variable {environment : Environment} {config : Config} {worker : Bool}
  {calls : List (Answered Op Op.Response)} {program : Action Bool}

/-- A worker that has returned has ended: between its turns it never stands. -/
theorem returned_of_settled {capacity : Nat}
    {pool : Pool (machine environment capacity) Bool}
    (settled : Pool.Settled (workerResume config) pool)
    {thread : Nat} {value : Bool}
    (returned : pool.threads[thread]? = some (.ret value)) :
    value = false := by
  have fixed := settled _ (List.mem_of_getElem? returned)
  cases value with
  | false => rfl
  | true =>
      have again : workerTurn config = .ret true := fixed
      unfold workerTurn shouldStop at again
      split at again <;> cases again

theorem returned_false {memory : List Byte} {workers : Nat}
    {situation : environment.Situation}
    (moves : List
      (Move (machine environment config.effectiveQueueCapacity)))
    {thread : Nat} {value : Bool}
    (returned : (Pool.run (workerResume config)
      (parallelPool environment config memory workers situation)
      moves).threads[thread]? = some (.ret value)) :
    value = false :=
  returned_of_settled
    (Pool.run_invariant
      (fun _ move settled => settled.step settle_settle move)
      settled_parallelPool moves)
    returned

/--
A thread has made the calls of its machine, makes the machine's next call, and
has returned only when the machine is done.
-/
theorem Performed.makes
    (performed : Performed environment config worker calls program) :
    ∃ last, (conductor config worker).Makes (threadStart config worker)
        calls last ∧
      (∀ op next, program = .call op next → last.op config = some op) ∧
      (∀ value, program = .ret value → last = ⟨[], .done⟩) := by
  cases performed with
  | sequential situation moves left =>
      have orderly :
          Noted.Orderly (conducting config false) (fun _ held => AtEnd held)
            (⟨sequentialPool environment config situation,
              [sequentialStart config]⟩ : Noted _ Bool Conduct) :=
        .cons keeps_walkSequential_conducting .nil
      have begins :
          [sequentialStart config][0]? = some (sequentialStart config) :=
        rfl
      rcases Automaton.makes_of_run resumes_sequential_conducting orderly
          moves begins with ⟨last, makes, running, returned⟩
      refine ⟨last, makes, ?_, ?_⟩
      · rintro op next rfl
        exact running op next left
      · rintro value rfl
        exact returned value left
  | parallel workers situation dispatched moves thread left =>
      rcases dispatchParallel_some dispatched with ⟨memory, _, rfl⟩
      have orderly :
          Noted.Orderly (conducting config true) (Between config)
            (⟨parallelPool environment config memory workers situation,
              List.replicate workers ⟨[], .starting⟩⟩ :
                Noted _ Bool Conduct) :=
        .replicate keeps_workerStart_conducting _ workers
      have isThread : thread < workers := by
        have inside := (List.getElem?_eq_some_iff.mp left).1
        rw [Pool.run_length] at inside
        exact Nat.lt_of_lt_of_eq inside List.length_replicate
      rcases Automaton.makes_of_run resumes_worker_conducting orderly moves
          (List.getElem?_replicate_of_lt isThread) with
        ⟨last, makes, running, returned⟩
      refine ⟨last, makes, ?_, ?_⟩
      · rintro op next rfl
        exact running op next left
      · rintro value rfl
        have isFalse := returned_false moves left
        subst isFalse
        exact returned false left

/-- Where listings are finite, neither the loop nor the recursion is cut off. -/
theorem Performed.uncut
    (performed : Performed environment config worker calls program)
    {listing : Path → Nat} (covers : CoversRoot config)
    (finite : FiniteListings environment listing) : program ≠ .stuck := by
  cases performed with
  | sequential situation moves left =>
      have deep : config.depthLimit < maxPathLength := by
        rw [Config.depthLimit]
        simp only [maxPathLength]
        omega
      have unstuck :=
        sequentialPoolTo_unstuck covers finite deep situation moves 0
      rintro rfl
      exact unstuck left
  | parallel workers situation dispatched moves thread left =>
      rcases dispatchParallel_some dispatched with ⟨memory, usable, rfl⟩
      have sound :=
        (sound_parallelPool covers usable workers situation).run
          (boundedParallel config listing).rests_workerResume
          (upholds_bounding finite)
          (Noted.each_of_forall _ moves fun _ _ _ => trivial)
      have unstuck := sound.orderly.not_stuck id thread
      rw [Noted.run_pool] at unstuck
      rintro rfl
      exact unstuck left

/--
The recursive walkers are the machine with a stack: in every environment, under
every schedule and with any other workers beside it, a thread has made the calls
of the machine.  Unless its recursion was cut off, its next call is the one the
machine makes next, and it has returned exactly when the machine is done and has
nothing open; and it is not cut off where listings are finite.
-/
theorem thread_follows_machine
    (performed : Performed environment config worker calls program) :
    (∃ last, (conductor config worker).Makes (threadStart config worker)
        calls last ∧
      (program ≠ .stuck →
        (∀ op, last.op config = some op ↔
            ∃ next, program = .call op next) ∧
          (last = ⟨[], .done⟩ ↔ ∃ value, program = .ret value))) ∧
      ∀ listing, CoversRoot config → FiniteListings environment listing →
        program ≠ .stuck := by
  refine ⟨?_, fun _ covers finite => performed.uncut covers finite⟩
  rcases performed.makes with ⟨last, makes, running, returned⟩
  refine ⟨last, makes, ?_⟩
  intro uncut
  cases program with
  | stuck => exact absurd rfl uncut
  | ret value =>
      have isDone := returned value rfl
      subst isDone
      refine ⟨fun op => ⟨nofun, nofun⟩, fun _ => ⟨value, rfl⟩, ?_⟩
      exact fun _ => rfl
  | call op next =>
      have isNext := running op next rfl
      refine ⟨fun other => ⟨?_, ?_⟩, ?_, nofun⟩
      · intro isOther
        rw [isNext] at isOther
        cases isOther
        exact ⟨next, rfl⟩
      · rintro ⟨rest, isCall⟩
        exact running other rest isCall
      · intro isDone
        rw [isDone] at isNext
        cases isNext

/-! ## Open directories -/

/-- A directory that a thread has open, as its calls show it. -/
structure Handle where
  path : Path
  /-- How often its reader was called. -/
  reads : Nat
  /-- Its reader has reported the end of the listing, or an error. -/
  exhausted : Bool
  deriving DecidableEq, Repr

/--
What a call does to the open directories, the innermost first.  Only the
innermost may be read, asked for a status or closed; it is read in order, and
not after its reader has come to an end.
-/
def useHandles (handles : List Handle) :
    Answered Op Op.Response → Option (List Handle)
  | ⟨.outside (.openDirectory path _), .ok _⟩ =>
      some (⟨path, 0, false⟩ :: handles)
  | ⟨.outside (.closeDirectory path), _⟩ =>
      match handles with
      | [] => none
      | handle :: outer => if handle.path = path then some outer else none
  | ⟨.outside (.direntReaderNext path index), next⟩ =>
      match handles with
      | [] => none
      | handle :: outer =>
          if handle = ⟨path, index, false⟩ then
            match next with
            | .entry _ => some (⟨path, index + 1, false⟩ :: outer)
            | _ => some (⟨path, index + 1, true⟩ :: outer)
          else
            none
  | ⟨.outside (.fstatat path _ _), _⟩ =>
      match handles with
      | [] => none
      | handle :: _ => if handle.path = path then some handles else none
  | _ => some handles

/-- The listing of the innermost directory is over. -/
def Spent : Point → Prop
  | .closing => True
  | .charging _ .close => True
  | .telling _ .close => True
  | _ => False

/-- The handle of a directory that is being listed. -/
def OpenListing.handle (listing : OpenListing) : Handle :=
  ⟨listing.directory.text, listing.reads, false⟩

/-- What the calls show of the open directories is what the machine has. -/
def Matches (conduct : Conduct) (handles : List Handle) : Prop :=
  match conduct.listings with
  | [] => handles = []
  | listing :: outer =>
      ∃ exhausted,
        handles =
          ⟨listing.directory.text, listing.reads, exhausted⟩ ::
            outer.map OpenListing.handle ∧
        (exhausted = true → Spent conduct.point)

/-- The thread goes on to a point where the listing is over, if it was. -/
theorem Matches.move {listings : List OpenListing} {point next : Point}
    {handles : List Handle} (matched : Matches ⟨listings, point⟩ handles)
    (spends : Spent point → Spent next) :
    Matches ⟨listings, next⟩ handles := by
  cases listings with
  | nil => exact matched
  | cons listing outer =>
      rcases matched with ⟨exhausted, rfl, spent⟩
      exact ⟨exhausted, rfl, fun isExhausted => spends (spent isExhausted)⟩

/-- Where the listing is not over, no reader has come to its end. -/
theorem Matches.fresh {listings : List OpenListing} {point : Point}
    {handles : List Handle} (matched : Matches ⟨listings, point⟩ handles)
    (unspent : ¬ Spent point) :
    handles = listings.map OpenListing.handle := by
  cases listings with
  | nil => exact matched
  | cons listing outer =>
      rcases matched with ⟨exhausted, rfl, spent⟩
      cases exhausted with
      | true => exact absurd (spent rfl) unspent
      | false => rfl

theorem matches_of_fresh (point : Point) {listings : List OpenListing}
    {handles : List Handle}
    (fresh : handles = listings.map OpenListing.handle) :
    Matches ⟨listings, point⟩ handles := by
  subst fresh
  cases listings with
  | nil => exact rfl
  | cons listing outer => exact ⟨false, rfl, Bool.noConfusion⟩

theorem spent_charged {listings : List OpenListing} {report : Report} :
    Spent (charged config worker listings report .close) := by
  unfold charged
  rw [if_neg nofun]
  split <;> trivial

/-- Every call of the machine uses the open directories as it should. -/
theorem handles_step {conduct : Conduct} {handles : List Handle}
    {call : Answered Op Op.Response} (matched : Matches conduct handles)
    (isNext : conduct.op config = some call.1) :
    ∃ after, useHandles handles call = some after ∧
      Matches (conduct.after config worker call.1 call.2) after := by
  rcases conduct with ⟨listings, point⟩
  rcases call with ⟨op, response⟩
  -- a call that leaves the open directories as they are
  have plain :
      ∀ next : Point, ¬ Spent point → Matches ⟨listings, next⟩ handles :=
    fun next unspent => matched.move fun spent => absurd spent unspent
  cases point with
  | opening directory =>
      cases isNext
      cases response with
      | error errno => exact ⟨handles, rfl, plain _ id⟩
      | ok entries =>
          refine ⟨_, rfl, false, congrArg _ ?_, Bool.noConfusion⟩
          exact matched.fresh id
  | reading =>
      cases listings with
      | nil => cases isNext
      | cons listing outer =>
          cases isNext
          rcases matched with ⟨exhausted, rfl, spent⟩
          cases exhausted with
          | true => exact absurd (spent rfl) id
          | false =>
              cases response with
              | failed lastErrno =>
                  exact ⟨_, if_pos rfl, true, rfl, fun _ => trivial⟩
              | finished =>
                  exact ⟨_, if_pos rfl, true, rfl, fun _ => trivial⟩
              | entry dirent =>
                  exact ⟨_, if_pos rfl, false, rfl, Bool.noConfusion⟩
  | inquiring dirent childPath noFollow =>
      cases listings with
      | nil => cases isNext
      | cons listing outer =>
          cases isNext
          have moved := plain
            ((Conduct.mk (listing :: outer)
              (.inquiring dirent childPath noFollow)).next config worker
                (.outside (.fstatat listing.directory.text dirent.name
                  noFollow)) response) id
          rcases matched with ⟨exhausted, rfl, _⟩
          exact ⟨_, if_pos rfl, moved⟩
  | closing =>
      cases listings with
      | nil => cases isNext
      | cons listing outer =>
          cases isNext
          rcases matched with ⟨exhausted, rfl, _⟩
          refine ⟨_, if_pos rfl, ?_⟩
          exact matches_of_fresh _ rfl
  | charging report sequel =>
      cases isNext
      refine ⟨handles, rfl, matched.move ?_⟩
      cases sequel with
      | close => exact fun _ => spent_charged
      | _ => exact False.elim
  | telling report sequel =>
      cases isNext
      refine ⟨handles, rfl, matched.move ?_⟩
      cases sequel with
      | close => exact id
      | _ => exact False.elim
  | done => cases isNext
  | _ =>
      cases isNext
      exact ⟨handles, rfl, plain _ id⟩

/--
A thread uses the directories it has open as a stack, in every environment and
every interleaving: it reads, asks for a status in and closes the innermost one
only, reads each from its first record on without a gap and not beyond the end
or an error, closes what it closes once, and has closed everything when it
returns.
-/
theorem directories_nested
    (performed : Performed environment config worker calls program) :
    ∃ handles, calls.foldlM useHandles [] = some handles ∧
      ∀ value, program = .ret value → handles = [] := by
  rcases performed.makes with ⟨last, makes, _, returned⟩
  have begins : Matches (threadStart config worker) [] := by
    unfold threadStart sequentialStart
    split
    · exact rfl
    · split <;> exact rfl
  rcases makes.accepted (fun _ _ _ => handles_step) begins with
    ⟨handles, accepted, ends⟩
  refine ⟨handles, accepted, ?_⟩
  intro value isReturn
  rw [returned value isReturn] at ends
  exact ends

/-- The first and only thread takes so many turns in the walk of `r/d/b`. -/
def nestedMoves (count : Nat) :
    List (Move (machine nestedWorld.environment
      nestedConfig.effectiveQueueCapacity)) :=
  List.replicate count (.turn 0 ((), ⟨false, 0⟩))

/-- All calls of the sequential walk of `r/d/b`. -/
def nestedCalls : List (Answered Op Op.Response) :=
  recordOf 0 (Pool.log sequentialResume
    (sequentialPool nestedWorld.environment nestedConfig ())
    (nestedMoves 27))

/-- All calls of the parallel walk of `r/d/b` by one worker. -/
def nestedWorkerCalls : List (Answered Op Op.Response) :=
  recordOf 0 (Pool.log (workerResume nestedConfig)
    (parallelPool nestedWorld.environment nestedConfig [114, 0] 1 ())
    (nestedMoves 36))

theorem performed_nested :
    Performed nestedWorld.environment nestedConfig false nestedCalls
      (.ret true) := by
  have left :
      (Pool.run sequentialResume
        (sequentialPool nestedWorld.environment nestedConfig ())
        (nestedMoves 27)).threads[0]? = some (.ret true) := rfl
  exact .sequential () (nestedMoves 27) left

theorem performed_nestedWorker :
    Performed nestedWorld.environment nestedConfig true nestedWorkerCalls
      (.ret false) := by
  have dispatched :
      dispatchParallel nestedWorld.environment nestedConfig 1 () =
        some (parallelPool nestedWorld.environment nestedConfig [114, 0] 1
          ()) := rfl
  exact .parallel 1 () dispatched (nestedMoves 36) 0 rfl

/-- The machine makes all the calls of this walk, and is then done. -/
theorem thread_follows_machine_nested :
    nestedCalls.length = 27 ∧
      (conductor nestedConfig false).Makes (threadStart nestedConfig false)
        nestedCalls ⟨[], .done⟩ := by
  rcases (thread_follows_machine performed_nested).1 with
    ⟨last, makes, follows⟩
  rw [(follows nofun).2.mpr ⟨true, rfl⟩] at makes
  exact ⟨rfl, makes⟩

/-- The worker has closed both directories. -/
theorem directories_nested_worker :
    nestedWorkerCalls.length = 36 ∧
      nestedWorkerCalls.foldlM useHandles [] = some [] := by
  rcases directories_nested performed_nestedWorker with
    ⟨handles, accepted, closed⟩
  rw [closed false rfl] at accepted
  exact ⟨rfl, accepted⟩

/-! ## Callbacks -/

/-- How far a thread has come with what it has in hand. -/
inductive Courtesy where
  | idle
  /-- A record that no callback has seen. -/
  | record
  /-- The filter has let this entry through. -/
  | passed (entry : Entry)
  /-- This directory has been visited. -/
  | visited (entry : Entry)
  /-- This directory is to be entered. -/
  | bound (directory : Directory)
  deriving DecidableEq, Repr

/-- What is left before a visit. -/
def Courtesy.ready (config : Config) (entry : Entry) : Courtesy :=
  if config.hasFilter then .passed entry else .record

/-- What is left after a visit that went well. -/
def Courtesy.seen (config : Config) (entry : Entry) : Courtesy :=
  if entry.kind ≠ .directory then .idle
  else if config.hasShouldDescend then .visited entry
  else .bound entry.directory

/--
The order of the calls for one entry: a record is filtered once, visited only if
the filter let it through, and then asked about only if it is a directory whose
visit went well; a directory is opened or queued only if it was agreed to, taken
from the queue, or refused by the queue.
-/
def followOrder (config : Config) (state : Courtesy) :
    Answered Op Op.Response → Option Courtesy
  | ⟨.outside (.direntReaderNext _ _), .entry _⟩ => some .record
  | ⟨.outside (.filter entry), accepted⟩ =>
      if config.hasFilter = true ∧ state = .record then
        some (if accepted then .passed entry else .idle)
      else none
  | ⟨.outside (.visit entry), succeeded⟩ =>
      if state = .ready config entry ∧
          (entry.kind = .file ∨ entry.kind = .directory) then
        some (if succeeded then .seen config entry else .idle)
      else none
  | ⟨.outside (.shouldDescend entry), wanted⟩ =>
      if state = .visited entry then
        some (if wanted then .bound entry.directory else .idle)
      else none
  | ⟨.shared (.queuePush directory), pushed⟩ =>
      if state = .bound directory then
        some (if pushed then .idle else .bound directory)
      else none
  | ⟨.shared .queuePop, some directory⟩ => some (.bound directory)
  | ⟨.outside (.openDirectory path _), _⟩ =>
      match state with
      | .bound directory =>
          if directory.text = path then some .idle else none
      | _ => none
  | _ => some state

/-- What a thread begins with: a sequential walk with its root. -/
def courtesyStart (config : Config) (worker : Bool) : Courtesy :=
  match usableRoot config, worker with
  | some memory, false => .bound (.atPointer memory config.rootLength 0)
  | _, _ => .idle

/-- What the point a thread stands at says about what it has in hand. -/
def Courteous (config : Config) (point : Point) (state : Courtesy) : Prop :=
  match point with
  | .flag (.enter directory) => state = .bound directory
  | .stop (.enter directory) => state = .bound directory
  | .opening directory => state = .bound directory
  | .inquiring _ _ _ => state = .record
  | .filtering _ => config.hasFilter = true ∧ state = .record
  | .counting entry => state = .ready config entry ∧ entry.kind = .file
  | .visiting entry => state = .ready config entry ∧
      (entry.kind = .file ∨ entry.kind = .directory)
  | .deciding entry => state = .visited entry
  | .raising directory => state = .bound directory
  | .pushing directory => state = .bound directory
  | .undoing directory => state = .bound directory
  | .inlining directory => state = .bound directory
  | _ => True

section Order

variable {listings : List OpenListing} {state : Courtesy} {entry : Entry}

theorem courteous_leaving :
    Courteous config (leaving worker listings) state := by
  unfold leaving
  split
  · split <;> trivial
  · trivial

theorem courteous_breakingOff (errand : Errand) :
    Courteous config (breakingOff worker listings errand) state := by
  cases errand with
  | enter directory => exact courteous_leaving
  | _ => trivial

theorem courteous_descending {directory : Directory} :
    Courteous config (descending worker directory) (.bound directory) := by
  unfold descending
  split <;> exact rfl

theorem courteous_afterVisit (isDirectory : entry.kind = .directory) :
    Courteous config (afterVisit config worker entry)
      (.seen config entry) := by
  unfold afterVisit Courtesy.seen
  rw [if_neg (not_not.mpr isDirectory)]
  split
  · exact rfl
  · exact courteous_descending

theorem courteous_admitting (hasVisit : config.hasVisit = true) :
    Courteous config (admitting config worker entry)
      (.ready config entry) := by
  unfold admitting
  rw [hasVisit]
  split
  · rename_i isFile
    exact ⟨rfl, isFile⟩
  · rename_i isDirectory
    exact ⟨rfl, Or.inr isDirectory⟩
  · trivial
  · trivial

theorem courteous_presenting (hasVisit : config.hasVisit = true) :
    Courteous config (presenting config worker entry) .record := by
  unfold presenting
  split
  · rename_i hasFilter
    exact ⟨hasFilter, rfl⟩
  · rename_i noFilter
    have isReady : Courtesy.ready config entry = .record := if_neg noFilter
    rw [← isReady]
    exact courteous_admitting hasVisit

theorem courteous_receiving (hasVisit : config.hasVisit = true)
    (directory : Directory) (dirent : Dirent) :
    Courteous config (receiving config worker directory dirent)
      .record := by
  unfold receiving
  split
  · trivial
  · split
    · trivial
    · split
      · exact rfl
      · split
        · exact rfl
        · exact courteous_presenting hasVisit

theorem courteous_sequel (sequel : Sequel) :
    Courteous config (sequel.point worker listings) state := by
  cases sequel with
  | leave => exact courteous_leaving
  | _ => trivial

theorem courteous_charged (report : Report) (sequel : Sequel) :
    Courteous config (charged config worker listings report sequel)
      state := by
  unfold charged
  split
  · trivial
  · split
    · trivial
    · exact courteous_sequel sequel

theorem courteous_turning : Courteous config (turning config) state := by
  unfold turning
  split <;> trivial

theorem courteous_unflagged {errand : Errand}
    (courteous : Courteous config (.flag errand) state) :
    Courteous config (unflagged config worker errand) state := by
  unfold unflagged
  cases errand <;> split <;> exact courteous

theorem courteous_unstopped {errand : Errand}
    (courteous : Courteous config (.stop errand) state) :
    Courteous config (unstopped worker errand) state := by
  unfold unstopped
  cases errand <;> split <;> exact courteous

/-- Every call of the machine keeps the order. -/
theorem order_step (hasVisit : config.hasVisit = true) {conduct : Conduct}
    {call : Answered Op Op.Response}
    (courteous : Courteous config conduct.point state)
    (isNext : conduct.op config = some call.1) :
    ∃ after, followOrder config state call = some after ∧
      Courteous config (conduct.after config worker call.1 call.2).point
        after := by
  rcases conduct with ⟨listings, point⟩
  rcases call with ⟨op, response⟩
  cases point with
  | flag errand =>
      cases isNext
      refine ⟨state, rfl, ?_⟩
      cases response with
      | true => exact courteous_breakingOff errand
      | false => exact courteous_unflagged courteous
  | stop errand =>
      cases isNext
      refine ⟨state, rfl, ?_⟩
      cases response with
      | true => exact courteous_breakingOff errand
      | false => exact courteous_unstopped courteous
  | starting =>
      cases isNext
      refine ⟨state, rfl, ?_⟩
      cases response with
      | true => exact courteous_turning
      | false => trivial
  | abandoning =>
      cases isNext
      refine ⟨state, rfl, ?_⟩
      change Courteous config (if config.hasOnError then _ else _) state
      split <;> trivial
  | popping =>
      cases isNext
      cases response with
      | none => exact ⟨state, rfl, trivial⟩
      | some directory => exact ⟨_, rfl, rfl⟩
  | surveying =>
      cases isNext
      refine ⟨state, rfl, ?_⟩
      change Courteous config (if response ≠ 0 then _ else _) state
      split
      · exact courteous_turning
      · trivial
  | finishing =>
      cases isNext
      exact ⟨state, rfl, courteous_turning⟩
  | opening directory =>
      cases isNext
      have isBound : state = .bound directory := courteous
      subst isBound
      refine ⟨.idle, if_pos rfl, ?_⟩
      cases response <;> trivial
  | entered =>
      cases isNext
      refine ⟨state, rfl, ?_⟩
      cases worker <;> trivial
  | allocating =>
      cases isNext
      refine ⟨state, rfl, ?_⟩
      cases listings with
      | nil => trivial
      | cons listing outer => cases response <;> trivial
  | reading =>
      cases listings with
      | nil => cases isNext
      | cons listing outer =>
          cases isNext
          cases response with
          | failed lastErrno => exact ⟨state, rfl, trivial⟩
          | finished => exact ⟨state, rfl, trivial⟩
          | entry dirent =>
              exact ⟨.record, rfl, courteous_receiving hasVisit _ dirent⟩
  | inquiring dirent childPath noFollow =>
      have isRecord : state = .record := courteous
      subst isRecord
      cases listings with
      | nil => cases isNext
      | cons listing outer =>
          cases isNext
          refine ⟨.record, rfl, ?_⟩
          cases response with
          | error errno => trivial
          | ok stat => exact courteous_presenting hasVisit
  | filtering entry =>
      cases isNext
      refine ⟨_, if_pos courteous, ?_⟩
      cases response with
      | true =>
          have isReady : Courtesy.ready config entry = .passed entry :=
            if_pos courteous.1
          change Courteous config (admitting config worker entry)
            (.passed entry)
          rw [← isReady]
          exact courteous_admitting hasVisit
      | false => trivial
  | skipping =>
      cases isNext
      exact ⟨state, rfl, trivial⟩
  | counting entry =>
      cases isNext
      exact ⟨state, rfl, courteous.1, Or.inl courteous.2⟩
  | visiting entry =>
      cases isNext
      refine ⟨_, if_pos courteous, ?_⟩
      cases response with
      | false => trivial
      | true =>
          change Courteous config
            (if entry.kind = .file then _ else afterVisit config worker entry)
            (.seen config entry)
          rcases courteous.2 with isFile | isDirectory
          · rw [if_pos isFile]
            trivial
          · rw [if_neg (by rw [isDirectory]; exact nofun)]
            exact courteous_afterVisit isDirectory
  | failing =>
      cases isNext
      exact ⟨state, rfl, trivial⟩
  | deciding entry =>
      cases isNext
      refine ⟨_, if_pos courteous, ?_⟩
      cases response with
      | true => exact courteous_descending
      | false => trivial
  | raising directory =>
      cases isNext
      exact ⟨state, rfl, courteous⟩
  | pushing directory =>
      cases isNext
      refine ⟨_, if_pos courteous, ?_⟩
      cases response with
      | true => trivial
      | false => exact rfl
  | undoing directory =>
      cases isNext
      exact ⟨state, rfl, courteous⟩
  | inlining directory =>
      cases isNext
      refine ⟨state, rfl, ?_⟩
      cases response with
      | true => exact courteous
      | false => trivial
  | charging report sequel =>
      cases isNext
      exact ⟨state, rfl, courteous_charged report sequel⟩
  | telling report sequel =>
      cases isNext
      exact ⟨state, rfl, courteous_sequel sequel⟩
  | closing =>
      cases listings with
      | nil => cases isNext
      | cons listing outer =>
          cases isNext
          exact ⟨state, rfl, courteous_leaving⟩
  | done => cases isNext

end Order

/-- A thread that has done anything walks a usable root. -/
theorem Performed.usable
    (performed : Performed environment config worker calls program)
    (acts : calls ≠ []) :
    ∃ memory, usableRoot config = some memory := by
  cases performed with
  | sequential situation moves left =>
      cases usable : usableRoot config with
      | some memory => exact ⟨memory, rfl⟩
      | none =>
          have performed : Performed environment config false _ program :=
            .sequential situation moves left
          rcases performed.makes with ⟨last, makes, _, _⟩
          have begins : threadStart config false = ⟨[], .done⟩ := by
            unfold threadStart sequentialStart
            rw [usable]
            rfl
          rw [begins] at makes
          rcases List.exists_cons_of_ne_nil acts with ⟨call, rest, split⟩
          rw [split] at makes
          cases makes.1
  | parallel workers situation dispatched moves thread left =>
      rcases dispatchParallel_some dispatched with ⟨memory, usable, _⟩
      exact ⟨memory, usable⟩

/--
Every thread keeps the order of the callbacks, in every environment and every
interleaving.
-/
theorem callbacks_in_order
    (performed : Performed environment config worker calls program) :
    ∃ state,
      calls.foldlM (followOrder config) (courtesyStart config worker) =
        some state := by
  by_cases acts : calls = []
  · subst acts
    exact ⟨_, rfl⟩
  · rcases performed.usable acts with ⟨memory, usable⟩
    have hasVisit : config.hasVisit = true :=
      (usableRoot_some usable).2.2.2.1
    rcases performed.makes with ⟨last, makes, _, _⟩
    have begins :
        Courteous config (threadStart config worker).point
          (courtesyStart config worker) := by
      unfold threadStart sequentialStart courtesyStart
      rw [usable]
      cases worker
      · exact rfl
      · trivial
    have accepts :
        ∀ (held : Conduct) (state : Courtesy)
          (call : Answered Op Op.Response),
          Courteous config held.point state →
          held.op config = some call.1 →
          ∃ after, followOrder config state call = some after ∧
            Courteous config (held.after config worker call.1 call.2).point
              after :=
      fun _ _ _ => order_step hasVisit
    rcases makes.accepted accepts begins with ⟨state, accepted, _⟩
    exact ⟨state, accepted⟩

/-- The callbacks of the sequential walk of `r/d/b`. -/
theorem callbacks_in_order_nested :
    ∃ state, nestedCalls.foldlM (followOrder nestedConfig)
      (.bound ⟨[114], [114], 0⟩) = some state :=
  callbacks_in_order performed_nested

end BcIo.Walk
