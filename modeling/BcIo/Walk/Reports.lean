import BcIo.Walk.Protocol
import BcIo.Walk.Accounts

/-!
# What a walk owes its caller

A call that fails has to be counted and reported, with the path, the stage and
the error number of that call; a directory that was opened and an entry that was
rejected have to be counted.  What a thread owes is told from its calls alone,
and a thread does what it owes before it does anything else, and nothing beyond.
-/

namespace BcIo.Walk

open BcIo.File
open BcIo.Foundation.Interaction
open BcIo.Foundation.WorkerPool
open BcIo.Foundation.Recording
open BcIo.Foundation.Automata

/-! ## What is owed -/

/-- Where a thread is, as its calls show it. -/
structure Whereabouts where
  /-- The directories it has open, the innermost first. -/
  opened : List Directory
  /-- The directory it visited, took from the queue or was refused last. -/
  target : Directory
  deriving DecidableEq, Repr

def Whereabouts.after (place : Whereabouts) :
    Answered Op Op.Response → Whereabouts
  | ⟨.outside (.visit entry), _⟩ => { place with target := entry.directory }
  | ⟨.shared (.queuePush directory), _⟩ =>
      { place with target := directory }
  | ⟨.shared .queuePop, some directory⟩ =>
      { place with target := directory }
  | ⟨.outside (.openDirectory _ _), .ok _⟩ =>
      { place with opened := place.target :: place.opened }
  | ⟨.outside (.closeDirectory _), _⟩ =>
      { place with opened := place.opened.tail }
  | _ => place

/-- The path of a record of the innermost directory, if it fits. -/
def Whereabouts.childPath (place : Whereabouts) (name : EntryName) :
    Option Path :=
  place.opened.head?.bind fun directory =>
    pathJoin maxPathLength directory.path name.bytes

/-- The failure that a call shows, if it shows one. -/
def Whereabouts.failure (config : Config) (place : Whereabouts) :
    Answered Op Op.Response → Option Report
  | ⟨.outside (.openDirectory path _), .error errno⟩ =>
      some ⟨path, .opening, errno⟩
  | ⟨.outside .direntReaderCreate, false⟩ =>
      some ⟨place.target.text, .direntReaderAlloc, Errno.enomem⟩
  | ⟨.outside (.direntReaderNext path _), .failed lastErrno⟩ =>
      some ⟨path, .getdents64, lastErrno⟩
  | ⟨.outside (.direntReaderNext path _), .entry dirent⟩ =>
      if dirent.hidden && !config.includeHidden then none
      else if (place.childPath dirent.name).isNone then
        some ⟨path, .pathTooLong, Errno.enametoolong⟩
      else none
  | ⟨.outside (.fstatat _ name _), .error errno⟩ =>
      (place.childPath name).map fun path => ⟨path, .stat, errno⟩
  | _ => none

/-- Something a thread has to do. -/
inductive Obligation where
  | count (counter : Counter)
  | tell (report : Report)
  /-- Files are counted ahead of their visit. -/
  | visitFile
  deriving DecidableEq, Repr

/-- What a failure asks for. -/
def Report.obligations (config : Config) (report : Report) :
    List Obligation :=
  if config.hasOnError then [.count .errorsEncountered, .tell report]
  else [.count .errorsEncountered]

/-- What a call asks for. -/
def obligations (config : Config) (place : Whereabouts)
    (call : Answered Op Op.Response) : List Obligation :=
  match place.failure config call with
  | some report => report.obligations config
  | none =>
      match call with
      | ⟨.outside (.openDirectory _ _), .ok _⟩ =>
          [.count .directoriesVisited]
      | ⟨.outside (.filter _), false⟩ => [.count .filesSkipped]
      | ⟨.shared (.count .filesVisited), _⟩ => [.visitFile]
      | _ => []

/-- What a call does of it. -/
def fulfilled : Answered Op Op.Response → List Obligation
  | ⟨.shared (.count .filesVisited), _⟩ => []
  | ⟨.shared (.count counter), _⟩ => [.count counter]
  | ⟨.outside (.visit entry), _⟩ =>
      if entry.kind = .file then [.visitFile] else []
  | ⟨.outside (.onError path stage errno), _⟩ =>
      [.tell ⟨path, stage, errno⟩]
  | _ => []

/-- Where a thread begins. -/
def whereaboutsStart (config : Config) (worker : Bool) : Whereabouts :=
  match usableRoot config, worker with
  | some memory, false => ⟨[], .atPointer memory config.rootLength 0⟩
  | _, _ => ⟨[], ⟨config.rootText, config.rootText, 0⟩⟩

/-- All that the calls of a thread ask for, in order. -/
def owedBy (config : Config) (worker : Bool)
    (calls : List (Answered Op Op.Response)) : List Obligation :=
  Automaton.accrued Whereabouts.after (obligations config)
    (whereaboutsStart config worker) calls

/-! ## What the machine still owes -/

/-- What is still to be done at a point. -/
def Point.owes (config : Config) : Point → List Obligation
  | .charging report _ => report.obligations config
  | .telling report _ => [.tell report]
  | .abandoning =>
      if config.hasOnError then [.tell (abandonReport config)] else []
  | .entered => [.count .directoriesVisited]
  | .skipping => [.count .filesSkipped]
  | .visiting entry => if entry.kind = .file then [.visitFile] else []
  | _ => []

/-- What the point a thread stands at says about its whereabouts. -/
def Aims (config : Config) (listings : List OpenListing)
    (target : Directory) : Point → Prop
  | .starting => target.text = config.rootText
  | .flag (.enter directory) => target = directory
  | .stop (.enter directory) => target = directory
  | .opening directory => target = directory
  | .entered => listings.head?.map OpenListing.directory = some target
  | .allocating => listings.head?.map OpenListing.directory = some target
  | .inquiring dirent childPath _ =>
      (listings.head?.bind fun listing =>
        pathJoin maxPathLength listing.directory.path dirent.name.bytes) =
          some childPath
  | .counting entry => entry.kind = .file
  | .deciding entry => target = entry.directory
  | .undoing directory => target = directory
  | .inlining directory => target = directory
  | .charging report .abandon => report = abandonReport config
  | _ => True

/-- What the calls show of a thread's whereabouts is where its machine is. -/
structure Situated (config : Config) (conduct : Conduct)
    (place : Whereabouts) : Prop where
  opened : place.opened = conduct.listings.map OpenListing.directory
  aims : Aims config conduct.listings place.target conduct.point

section Quiet

variable {config : Config} {worker : Bool} {listings : List OpenListing}
  {target : Directory} {entry : Entry}

/-- Nothing is owed at a point, and it is where the thread seems to be. -/
structure Quiet (config : Config) (listings : List OpenListing)
    (target : Directory) (point : Point) : Prop where
  aims : Aims config listings target point
  owes : point.owes config = []

theorem quiet_read : Quiet config listings target (.flag .read) :=
  ⟨trivial, rfl⟩

theorem quiet_leaving : Quiet config listings target
    (leaving worker listings) := by
  unfold leaving
  split
  · split <;> exact ⟨trivial, rfl⟩
  · exact quiet_read

theorem quiet_breakingOff (errand : Errand) :
    Quiet config listings target (breakingOff worker listings errand) := by
  cases errand with
  | enter directory => exact quiet_leaving
  | _ => exact ⟨trivial, rfl⟩

theorem quiet_turning : Quiet config listings target (turning config) := by
  unfold turning
  split <;> exact ⟨trivial, rfl⟩

theorem quiet_sequel (sequel : Sequel) :
    Quiet config listings target (sequel.point worker listings) := by
  cases sequel with
  | leave => exact quiet_leaving
  | _ => exact ⟨trivial, rfl⟩

theorem quiet_unflagged {errand : Errand}
    (aims : Aims config listings target (.flag errand)) :
    Quiet config listings target (unflagged config worker errand) := by
  unfold unflagged
  cases errand <;> split <;> exact ⟨aims, rfl⟩

theorem quiet_unstopped {errand : Errand}
    (aims : Aims config listings target (.stop errand)) :
    Quiet config listings target (unstopped worker errand) := by
  unfold unstopped
  cases errand <;> split <;> exact ⟨aims, rfl⟩

theorem quiet_descending (directory : Directory) :
    Quiet config listings directory (descending worker directory) := by
  unfold descending
  split
  · exact ⟨trivial, rfl⟩
  · exact ⟨rfl, rfl⟩

theorem quiet_afterVisit : Quiet config listings entry.directory
    (afterVisit config worker entry) := by
  unfold afterVisit
  split
  · exact ⟨rfl, rfl⟩
  · exact quiet_descending _

theorem quiet_admitting (hasVisit : config.hasVisit = true) :
    Quiet config listings target (admitting config worker entry) := by
  unfold admitting
  rw [hasVisit]
  split
  · rename_i isFile
    exact ⟨isFile, rfl⟩
  · rename_i isDirectory
    refine ⟨trivial, if_neg ?_⟩
    rw [isDirectory]
    exact nofun
  · exact quiet_read
  · exact quiet_read

theorem quiet_presenting (hasVisit : config.hasVisit = true) :
    Quiet config listings target (presenting config worker entry) := by
  unfold presenting
  split
  · exact ⟨trivial, rfl⟩
  · exact quiet_admitting hasVisit

end Quiet

section Steps

variable {config : Config} {worker : Bool} {conduct : Conduct}
  {place : Whereabouts} {call : Answered Op Op.Response}

/-- A step keeps the whereabouts, and what it makes fall due is settled. -/
structure Settles (config : Config) (worker : Bool) (conduct : Conduct)
    (place : Whereabouts) (call : Answered Op Op.Response) : Prop where
  located : Situated config (conduct.after config worker call.1 call.2)
    (place.after call)
  balance :
    conduct.point.owes config ++ obligations config place call =
      fulfilled call ++
        (conduct.after config worker call.1 call.2).point.owes config

/-- A record that has been read is passed over, reported or looked into. -/
theorem receiving_settles (worker : Bool) (hasVisit : config.hasVisit = true)
    (directory : Directory) (reads : Nat) (outer : List OpenListing)
    (target : Directory) (dirent : Dirent) (index : Nat) :
    Aims config (⟨directory, reads⟩ :: outer) target
        (receiving config worker directory dirent) ∧
      obligations config
          ⟨directory :: outer.map OpenListing.directory, target⟩
          ⟨.outside (.direntReaderNext directory.text index),
            .entry dirent⟩ =
        (receiving config worker directory dirent).owes config := by
  unfold receiving obligations Whereabouts.failure Whereabouts.childPath
  dsimp only [List.head?_cons, Option.bind_some]
  split
  · exact ⟨trivial, rfl⟩
  · rcases Option.eq_none_or_eq_some
        (pathJoin maxPathLength directory.path dirent.name.bytes) with
      tooLong | ⟨childPath, joins⟩
    · simp only [tooLong]
      exact ⟨trivial, rfl⟩
    · have inquires :
          ∀ noFollow, Aims config (⟨directory, reads⟩ :: outer) target
            (.inquiring dirent childPath noFollow) :=
        fun _ => joins
      simp only [joins]
      split
      · exact ⟨inquires _, rfl⟩
      · split
        · exact ⟨inquires _, rfl⟩
        · have quiet :
              Quiet config (⟨directory, reads⟩ :: outer) target
                (presenting config worker
                  (entryOf directory childPath (resolvedByType dirent))) :=
            quiet_presenting hasVisit
          exact ⟨quiet.aims, quiet.owes.symm⟩

/-- A failure that has been counted is reported, if anyone is to be told. -/
theorem charged_settles (worker : Bool) (listings : List OpenListing)
    (target : Directory) {report : Report} {sequel : Sequel}
    (isAbandon : sequel = .abandon → report = abandonReport config) :
    Aims config listings target
        (charged config worker listings report sequel) ∧
      report.obligations config =
        .count .errorsEncountered ::
          (charged config worker listings report sequel).owes config := by
  unfold charged Report.obligations
  split
  · rename_i abandons
    rw [isAbandon abandons]
    refine ⟨trivial, ?_⟩
    change _ = Obligation.count .errorsEncountered ::
      (if config.hasOnError then _ else _)
    split <;> rfl
  · split
    · exact ⟨trivial, rfl⟩
    · have quiet :
          Quiet config listings target (sequel.point worker listings) :=
        quiet_sequel sequel
      exact ⟨quiet.aims, congrArg _ quiet.owes.symm⟩

/-- A step that leaves nothing owed. -/
theorem settles_of_quiet
    (opened : (place.after call).opened =
      (conduct.holding call.1 call.2).map OpenListing.directory)
    (quiet : Quiet config (conduct.holding call.1 call.2)
      (place.after call).target
      (conduct.next config worker call.1 call.2))
    (balance : conduct.point.owes config ++ obligations config place call =
      fulfilled call) :
    Settles config worker conduct place call := by
  refine ⟨⟨opened, quiet.aims⟩, ?_⟩
  rw [balance]
  change fulfilled call =
    fulfilled call ++ (conduct.next config worker call.1 call.2).owes config
  rw [quiet.owes, List.append_nil]

/-- A failure of a call is charged. -/
theorem settles_of_failure {report : Report} {sequel : Sequel}
    (charges : conduct.next config worker call.1 call.2 =
      .charging report sequel)
    (opened : (place.after call).opened =
      (conduct.holding call.1 call.2).map OpenListing.directory)
    (aims : sequel ≠ .abandon ∨ report = abandonReport config)
    (failed : place.failure config call = some report)
    (clear : conduct.point.owes config = [])
    (unpaid : fulfilled call = []) :
    Settles config worker conduct place call := by
  refine ⟨⟨opened, ?_⟩, ?_⟩
  · change Aims config _ _ (conduct.next config worker call.1 call.2)
    rw [charges]
    cases sequel with
    | abandon => exact aims.resolve_left (not_not.mpr rfl)
    | _ => trivial
  · change _ = _ ++
      (conduct.next config worker call.1 call.2).owes config
    rw [charges, clear, unpaid]
    unfold obligations
    rw [failed]
    rfl

/-- Every call of the machine does what is owed, before anything else. -/
theorem settles_step (worker : Bool) (hasVisit : config.hasVisit = true)
    (located : Situated config conduct place)
    (isNext : conduct.op config = some call.1) :
    Settles config worker conduct place call := by
  rcases conduct with ⟨listings, point⟩
  rcases call with ⟨op, response⟩
  rcases place with ⟨opened, target⟩
  have sameOpened : opened = listings.map OpenListing.directory :=
    located.opened
  subst sameOpened
  have aims : Aims config listings target point := located.aims
  cases point with
  | flag errand =>
      cases isNext
      refine settles_of_quiet rfl ?_ rfl
      cases response with
      | true => exact quiet_breakingOff errand
      | false => exact quiet_unflagged aims
  | stop errand =>
      cases isNext
      refine settles_of_quiet rfl ?_ rfl
      cases response with
      | true => exact quiet_breakingOff errand
      | false => exact quiet_unstopped aims
  | starting =>
      cases isNext
      cases response with
      | true => exact settles_of_quiet rfl quiet_turning rfl
      | false =>
          refine settles_of_failure rfl rfl (Or.inr rfl) ?_ rfl rfl
          change some (Report.mk target.text _ _) = some (abandonReport config)
          rw [show target.text = config.rootText from aims]
          rfl
  | abandoning =>
      cases isNext
      have goes :
          ∀ told : Bool,
            Aims config listings target
                (if told then .telling (abandonReport config) .abandon
                  else .done) ∧
              (if told = true then [Obligation.tell (abandonReport config)]
                else []) =
                Point.owes config
                  (if told then .telling (abandonReport config) .abandon
                    else .done) := by
        intro told
        cases told <;> exact ⟨trivial, rfl⟩
      refine ⟨⟨rfl, (goes config.hasOnError).1⟩, ?_⟩
      exact (List.append_nil _).trans (goes config.hasOnError).2
  | popping =>
      cases isNext
      cases response with
      | none => exact settles_of_quiet rfl ⟨trivial, rfl⟩ rfl
      | some directory => exact settles_of_quiet rfl ⟨rfl, rfl⟩ rfl
  | surveying =>
      cases isNext
      refine settles_of_quiet rfl ?_ rfl
      change Quiet config _ _ (if response ≠ 0 then _ else _)
      split
      · exact quiet_turning
      · exact ⟨trivial, rfl⟩
  | finishing =>
      cases isNext
      exact settles_of_quiet rfl quiet_turning rfl
  | opening directory =>
      cases isNext
      have isTarget : target = directory := aims
      subst isTarget
      cases response with
      | error errno =>
          exact settles_of_failure rfl rfl (Or.inl nofun) rfl rfl rfl
      | ok entries => exact ⟨⟨rfl, rfl⟩, rfl⟩
  | entered =>
      cases isNext
      refine settles_of_quiet rfl ?_ rfl
      cases worker with
      | true => exact quiet_read
      | false => exact ⟨aims, rfl⟩
  | allocating =>
      cases isNext
      cases listings with
      | nil => cases aims
      | cons listing outer =>
          have isTarget : listing.directory = target := Option.some.inj aims
          subst isTarget
          cases response with
          | true => exact settles_of_quiet rfl quiet_read rfl
          | false =>
              exact settles_of_failure rfl rfl (Or.inl nofun) rfl rfl rfl
  | reading =>
      cases listings with
      | nil => cases isNext
      | cons listing outer =>
          cases isNext
          cases response with
          | failed lastErrno =>
              exact settles_of_failure rfl rfl (Or.inl nofun) rfl rfl rfl
          | finished => exact settles_of_quiet rfl ⟨trivial, rfl⟩ rfl
          | entry dirent =>
              rcases receiving_settles worker hasVisit
                  listing.directory (listing.reads + 1) outer target dirent
                  listing.reads with ⟨aims, due⟩
              exact ⟨⟨rfl, aims⟩, due⟩
  | inquiring dirent childPath noFollow =>
      cases listings with
      | nil => cases isNext
      | cons listing outer =>
          cases isNext
          have joins :
              pathJoin maxPathLength listing.directory.path
                dirent.name.bytes = some childPath := aims
          cases response with
          | error errno =>
              refine settles_of_failure rfl rfl (Or.inl nofun) ?_ rfl rfl
              change Option.map _
                (pathJoin maxPathLength listing.directory.path
                  dirent.name.bytes) = _
              rw [joins]
              rfl
          | ok stat =>
              exact settles_of_quiet rfl (quiet_presenting hasVisit) rfl
  | filtering entry =>
      cases isNext
      cases response with
      | true => exact settles_of_quiet rfl (quiet_admitting hasVisit) rfl
      | false => exact ⟨⟨rfl, trivial⟩, rfl⟩
  | skipping =>
      cases isNext
      exact settles_of_quiet rfl quiet_read rfl
  | counting entry =>
      cases isNext
      have isFile : entry.kind = .file := aims
      exact ⟨⟨rfl, trivial⟩, (if_pos isFile).symm⟩
  | visiting entry =>
      cases isNext
      refine settles_of_quiet rfl ?_ (List.append_nil _)
      cases response with
      | false => exact ⟨trivial, rfl⟩
      | true =>
          change Quiet config _ _
            (if entry.kind = .file then .flag .read
              else afterVisit config worker entry)
          split
          · exact quiet_read
          · exact quiet_afterVisit
  | failing =>
      cases isNext
      exact settles_of_quiet rfl ⟨trivial, rfl⟩ rfl
  | deciding entry =>
      cases isNext
      have isTarget : target = entry.directory := aims
      subst isTarget
      cases response with
      | true => exact settles_of_quiet rfl (quiet_descending _) rfl
      | false => exact settles_of_quiet rfl quiet_read rfl
  | raising directory =>
      cases isNext
      exact settles_of_quiet rfl ⟨trivial, rfl⟩ rfl
  | pushing directory =>
      cases isNext
      cases response with
      | true => exact settles_of_quiet rfl quiet_read rfl
      | false => exact settles_of_quiet rfl ⟨rfl, rfl⟩ rfl
  | undoing directory =>
      cases isNext
      exact settles_of_quiet rfl ⟨aims, rfl⟩ rfl
  | inlining directory =>
      cases isNext
      have isTarget : target = directory := aims
      subst isTarget
      cases response with
      | true => exact settles_of_quiet rfl ⟨rfl, rfl⟩ rfl
      | false =>
          exact settles_of_failure rfl rfl (Or.inl nofun) rfl rfl rfl
  | charging report sequel =>
      cases isNext
      have isAbandon : sequel = .abandon → report = abandonReport config := by
        rintro rfl
        exact aims
      rcases charged_settles worker listings target isAbandon with
        ⟨aims, due⟩
      exact ⟨⟨rfl, aims⟩, (List.append_nil _).trans due⟩
  | telling report sequel =>
      cases isNext
      exact settles_of_quiet rfl (quiet_sequel sequel) rfl
  | closing =>
      cases listings with
      | nil => cases isNext
      | cons listing outer =>
          cases isNext
          exact settles_of_quiet rfl quiet_leaving rfl
  | done => cases isNext

end Steps

/-! ## Every thread does what it owes -/

section Threads

variable {config : Config} {worker : Bool}
  {calls : List (Answered Op Op.Response)} {program : Action Bool}

theorem owes_length (point : Point) : (point.owes config).length ≤ 2 := by
  cases point with
  | charging report sequel =>
      change (report.obligations config).length ≤ 2
      unfold Report.obligations
      split <;> simp
  | abandoning =>
      change List.length (if config.hasOnError then _ else _) ≤ 2
      split <;> simp
  | visiting entry =>
      change List.length (if entry.kind = .file then _ else _) ≤ 2
      split <;> simp
  | _ => simp [Point.owes]

/--
What the calls of a thread ask for is done in order, up to the last failure at
most, and all of it when the thread has returned.
-/
theorem Performed.settles
    (performed : Performed environment config worker calls program) :
    ∃ pending, owedBy config worker calls =
        calls.flatMap fulfilled ++ pending ∧
      pending.length ≤ 2 ∧
      ∀ value, program = .ret value → pending = [] := by
  by_cases acts : calls = []
  · subst acts
    exact ⟨[], rfl, Nat.zero_le _, fun _ _ => rfl⟩
  · rcases performed.usable acts with ⟨memory, usable⟩
    have hasVisit : config.hasVisit = true :=
      (usableRoot_some usable).2.2.2.1
    rcases performed.makes with ⟨last, makes, _, returned⟩
    have begins :
        Situated config (threadStart config worker)
          (whereaboutsStart config worker) := by
      unfold threadStart sequentialStart whereaboutsStart
      rw [usable]
      cases worker <;> exact ⟨rfl, rfl⟩
    have clear : (threadStart config worker).point.owes config = [] := by
      unfold threadStart sequentialStart
      rw [usable]
      cases worker <;> rfl
    have steps :
        ∀ (held : Conduct) (place : Whereabouts)
          (call : Answered Op Op.Response),
          Situated config held place → held.op config = some call.1 →
          Situated config (held.after config worker call.1 call.2)
              (place.after call) ∧
            held.point.owes config ++ obligations config place call =
              fulfilled call ++
                (held.after config worker call.1 call.2).point.owes
                  config := by
      intro held place call located isNext
      have settles := settles_step worker hasVisit located isNext
      exact ⟨settles.located, settles.balance⟩
    have settled := makes.settles steps begins
    rw [clear, List.nil_append] at settled
    refine ⟨last.point.owes config, settled, owes_length _, ?_⟩
    intro value isReturn
    rw [returned value isReturn]
    rfl

/-! ## Reports -/

/-- The failures that the calls of a thread show, in order. -/
def failuresOf (config : Config) (worker : Bool)
    (calls : List (Answered Op Op.Response)) : List Report :=
  Automaton.accrued Whereabouts.after
    (fun place call => (place.failure config call).toList)
    (whereaboutsStart config worker) calls

/-- What the caller is told by a call. -/
def toldBy : Answered Op Op.Response → List Report
  | ⟨.outside (.onError path stage errno), _⟩ => [⟨path, stage, errno⟩]
  | _ => []

/-- A report, if that is what is to be done. -/
def Obligation.report : Obligation → Option Report
  | .tell report => some report
  | _ => none

theorem filterMap_report_obligations (hasOnError : config.hasOnError = true)
    (place : Whereabouts) (call : Answered Op Op.Response) :
    (obligations config place call).filterMap Obligation.report =
      (place.failure config call).toList := by
  unfold obligations
  cases place.failure config call with
  | some report =>
      change (Report.obligations config report).filterMap _ = [report]
      unfold Report.obligations
      rw [if_pos hasOnError]
      rfl
  | none =>
      dsimp only
      split <;> rfl

theorem filterMap_report_fulfilled (call : Answered Op Op.Response) :
    (fulfilled call).filterMap Obligation.report = toldBy call := by
  rcases call with ⟨op, response⟩
  cases op with
  | outside call =>
      cases call with
      | visit entry =>
          change List.filterMap _ (if entry.kind = .file then _ else _) = []
          split <;> rfl
      | _ => rfl
  | shared access =>
      cases access with
      | count counter => cases counter <;> rfl
      | _ => rfl

/-- The reports among what is owed are those of the failures. -/
theorem filterMap_report_owedBy (hasOnError : config.hasOnError = true)
    (calls : List (Answered Op Op.Response)) :
    (owedBy config worker calls).filterMap Obligation.report =
      failuresOf config worker calls := by
  unfold owedBy failuresOf
  generalize whereaboutsStart config worker = place
  induction calls generalizing place with
  | nil => rfl
  | cons call calls induction =>
      rw [Automaton.accrued, Automaton.accrued, List.filterMap_append,
        filterMap_report_obligations hasOnError, induction]

/--
In every environment and every interleaving a thread does what its calls ask
for, in order, and counts and reports nothing else: every failed call is counted
once, every directory that was opened and every entry that was rejected is
counted once, and the caller is told of the failures one by one, with the path,
the stage and the error number of each.  At no time is more than the last failure
still to be dealt with, and nothing when the thread has returned.
-/
theorem failures_reported
    (performed : Performed environment config worker calls program) :
    ∃ pending, owedBy config worker calls =
        calls.flatMap fulfilled ++ pending ∧
      (config.hasOnError = true →
        failuresOf config worker calls =
          calls.flatMap toldBy ++ pending.filterMap Obligation.report) ∧
      pending.length ≤ 2 ∧
      ∀ value, program = .ret value → pending = [] := by
  rcases performed.settles with ⟨pending, settled, short, returned⟩
  refine ⟨pending, settled, ?_, short, returned⟩
  intro hasOnError
  have told :
      (calls.flatMap fulfilled).filterMap Obligation.report =
        calls.flatMap toldBy := by
    rw [List.filterMap_flatMap]
    exact List.flatMap_congr fun call _ => filterMap_report_fulfilled call
  rw [← filterMap_report_owedBy hasOnError, settled,
    List.filterMap_append, told]

end Threads

/-- The file system `r/d/b`, in which `r/d` may not be opened. -/
def deniedWorld : World :=
  { nestedWorld with
    openError := fun path _ =>
      if path = [114, 47, 100] then some Errno.eacces else none }

def deniedMoves (count : Nat) :
    List (Move (machine deniedWorld.environment
      nestedConfig.effectiveQueueCapacity)) :=
  List.replicate count (.turn 0 ((), ⟨false, 0⟩))

def deniedCalls : List (Answered Op Op.Response) :=
  recordOf 0 (Pool.log sequentialResume
    (sequentialPool deniedWorld.environment nestedConfig ())
    (deniedMoves 18))

/-- The walk reports the directory it may not open. -/
theorem failures_reported_denied :
    deniedCalls.flatMap fulfilled =
        [.count .directoriesVisited, .count .errorsEncountered,
          .tell ⟨[114, 47, 100], .opening, Errno.eacces⟩] ∧
      deniedCalls.flatMap toldBy =
        [⟨[114, 47, 100], .opening, Errno.eacces⟩] := by
  have performed :
      Performed deniedWorld.environment nestedConfig false deniedCalls
        (.ret true) := by
    have left :
        (Pool.run sequentialResume
          (sequentialPool deniedWorld.environment nestedConfig ())
          (deniedMoves 18)).threads[0]? = some (.ret true) := rfl
    exact .sequential () (deniedMoves 18) left
  rcases failures_reported performed with ⟨pending, settled, told, _, none⟩
  rw [none true rfl, List.append_nil] at settled
  have reported := told rfl
  rw [none true rfl, List.filterMap_nil, List.append_nil] at reported
  rw [← settled, ← reported]
  decide +kernel

/-! ## The statistics of a walk that has ended -/

/-- A directory has been opened. -/
def opensDirectory : Answered Op Op.Response → Bool
  | ⟨.outside (.openDirectory _ _), .ok _⟩ => true
  | _ => false

/-- The filter has rejected an entry. -/
def rejectsEntry : Answered Op Op.Response → Bool
  | ⟨.outside (.filter _), false⟩ => true
  | _ => false

/-- A file is visited. -/
def visitsFile : Answered Op Op.Response → Bool
  | ⟨.outside (.visit entry), _⟩ => entry.kind = .file
  | _ => false

/-- A counter goes up. -/
def countsUp (counter : Counter) (call : Answered Op Op.Response) : Bool :=
  call.1 = .shared (.count counter)

/-- A call of a log, with its response. -/
def callOf (event : Event Op Op.Response) : Answered Op Op.Response :=
  ⟨event.op, event.response⟩

/--
All threads of a run of a walk have returned; what they have done, in order, and
the statistics they leave.
-/
inductive Completed (config : Config) :
    Bool → Nat → List (Event Op Op.Response) → Stats → Prop where
  | sequential (environment : Environment)
      (situation : environment.Situation)
      (moves : List
        (Move (machine environment config.effectiveQueueCapacity)))
      (value : Bool)
      (returned : (Pool.run sequentialResume
        (sequentialPool environment config situation) moves).threads[0]? =
          some (.ret value)) :
      Completed config false 1
        (Pool.log sequentialResume
          (sequentialPool environment config situation) moves)
        (Pool.run sequentialResume
          (sequentialPool environment config situation) moves).state.stats
  | parallel (environment : Environment) (workers : Nat)
      (situation : environment.Situation)
      {pool : Pool (machine environment config.effectiveQueueCapacity) Bool}
      (dispatched :
        dispatchParallel environment config workers situation = some pool)
      (moves : List
        (Move (machine environment config.effectiveQueueCapacity)))
      (returned : ∀ thread, thread < workers → ∃ value,
        (Pool.run (workerResume config) pool moves).threads[thread]? =
          some (.ret value)) :
      Completed config true workers
        (Pool.log (workerResume config) pool moves)
        (Pool.run (workerResume config) pool moves).state.stats

section Statistics

variable {config : Config} {worker : Bool} {threads : Nat}
  {log : List (Event Op Op.Response)} {stats : Stats}

/-- The counters go along with the calls. -/
theorem stats_handle (environment : Environment) (capacity : Nat)
    {state : State environment.Situation} {history : List Op}
    (tallied : state.stats = tally history)
    (choice : environment.Choice × QueueChoice) (op : Op) :
    ((machine environment capacity).handle state choice op).2.stats =
      tally (history ++ [op]) := by
  cases op with
  | outside call => exact tallied.trans (tally_append_other (by simp)).symm
  | shared access =>
      cases access with
      | count counter =>
          refine Eq.trans ?_ (tally_append_count _ counter).symm
          rw [← tallied]
          rfl
      | queuePush directory =>
          have same :
              ((machine environment capacity).handle state choice
                (.shared (.queuePush directory))).2.stats = state.stats := by
            simp only [respond, touch]
            split <;> rfl
          exact same.trans (tallied.trans (tally_append_other (by simp)).symm)
      | _ => exact tallied.trans (tally_append_other (by simp)).symm

/-- The counters say what the log says. -/
theorem stats_run {environment : Environment} {capacity : Nat}
    {resume : Bool → Option (Action Bool)}
    {pool : Pool (machine environment capacity) Bool} (history : List Op)
    (tallied : pool.state.stats = tally history)
    (moves : List (Move (machine environment capacity))) :
    (Pool.run resume pool moves).state.stats =
      tally (history ++ (Pool.log resume pool moves).map Event.op) := by
  induction moves generalizing pool history with
  | nil =>
      rw [Pool.log, List.map_nil, List.append_nil]
      exact tallied
  | cons move moves induction =>
      change (Pool.run resume (Pool.step resume pool move)
        moves).state.stats = _
      rw [Pool.log, List.map_append, ← List.append_assoc]
      apply induction
      cases made : pool.eventOf move with
      | none =>
          rw [Option.toList_none, List.map_nil, List.append_nil]
          rcases Pool.eventOf_none resume made with
            ⟨drift, rfl⟩ | same
          · exact tallied
          · rw [same]
            exact tallied
      | some event =>
          rcases Pool.eventOf_some made with
            ⟨choice, next, rfl, running, _⟩
          rw [Pool.step_call running]
          exact stats_handle environment capacity tallied choice event.op

/-- A thread of a completed walk. -/
theorem Completed.performed (completed : Completed config worker threads
    log stats) {thread : Nat} (isThread : thread < threads) :
    ∃ environment value,
      Performed environment config worker (recordOf thread log)
        (.ret value) := by
  cases completed with
  | sequential environment situation moves value returned =>
      rw [Nat.lt_one_iff] at isThread
      subst isThread
      exact ⟨environment, value, .sequential situation moves returned⟩
  | parallel environment workers situation dispatched moves returned =>
      rcases returned thread isThread with ⟨value, isReturn⟩
      exact ⟨environment, value, .parallel _ situation dispatched moves
        thread isReturn⟩

theorem Completed.tallied
    (completed : Completed config worker threads log stats) :
    stats = tally (log.map Event.op) := by
  cases completed with
  | sequential environment situation moves value returned =>
      exact stats_run [] rfl moves
  | parallel environment workers situation dispatched moves returned =>
      rcases dispatchParallel_some dispatched with ⟨memory, _, rfl⟩
      exact stats_run [] rfl moves

theorem Completed.inside
    (completed : Completed config worker threads log stats) :
    ∀ event ∈ log, event.thread < threads := by
  intro event logged
  cases completed with
  | sequential environment situation moves value returned =>
      exact Pool.log_thread _ logged
  | parallel environment workers situation dispatched moves returned =>
      rcases dispatchParallel_some dispatched with ⟨memory, _, rfl⟩
      have inside := Pool.log_thread _ logged
      exact Nat.lt_of_lt_of_eq inside List.length_replicate

/-- What the calls ask for of one kind, if their place does not matter. -/
theorem count_owedBy (worker : Bool) {obligation : Obligation}
    {asks : Answered Op Op.Response → Nat}
    (same : ∀ place call,
      (obligations config place call).count obligation = asks call)
    (calls : List (Answered Op Op.Response)) :
    (owedBy config worker calls).count obligation =
      (calls.map asks).sum := by
  unfold owedBy
  generalize whereaboutsStart config worker = place
  induction calls generalizing place with
  | nil => rfl
  | cons call calls induction =>
      rw [Automaton.accrued, List.count_append, same, induction,
        List.map_cons, List.sum_cons]

theorem count_fulfilled {obligation : Obligation}
    {does : Answered Op Op.Response → Nat}
    (same : ∀ call, (fulfilled call).count obligation = does call)
    (calls : List (Answered Op Op.Response)) :
    (calls.flatMap fulfilled).count obligation = (calls.map does).sum := by
  induction calls with
  | nil => rfl
  | cons call calls induction =>
      rw [List.flatMap_cons, List.count_append, same, induction,
        List.map_cons, List.sum_cons]

/-- What the threads of a completed walk were asked to do, they have done. -/
theorem Completed.sum_eq
    (completed : Completed config worker threads log stats)
    {obligation : Obligation}
    {asks does : Answered Op Op.Response → Nat}
    (asked : ∀ place call,
      (obligations config place call).count obligation = asks call)
    (done : ∀ call, (fulfilled call).count obligation = does call) :
    (log.map fun event => asks (callOf event)).sum =
      (log.map fun event => does (callOf event)).sum := by
  have threadwise :
      ∀ thread ∈ Finset.range threads,
        ((recordOf thread log).map asks).sum =
          ((recordOf thread log).map does).sum := by
    intro thread isThread
    rcases completed.performed (Finset.mem_range.mp isThread) with
      ⟨_, value, performed⟩
    rcases performed.settles with ⟨pending, settled, _, none⟩
    rw [none value rfl, List.append_nil] at settled
    rw [← count_owedBy worker asked, settled, count_fulfilled done]
  have total := Finset.sum_congr rfl threadwise
  rw [sum_recordOf asks completed.inside,
    sum_recordOf does completed.inside] at total
  exact total

/-- What a call asks for, kind by kind. -/
theorem obligations_eq (place : Whereabouts)
    (call : Answered Op Op.Response) :
    obligations config place call =
      (place.failure config call).toList.flatMap
          (Report.obligations config) ++
        ((if opensDirectory call then [.count .directoriesVisited] else []) ++
          ((if rejectsEntry call then [.count .filesSkipped] else []) ++
            if countsUp .filesVisited call then [.visitFile] else [])) := by
  cases failed : place.failure config call with
  | none =>
      unfold obligations
      rw [failed]
      rcases call with ⟨op, response⟩
      cases op with
      | outside call =>
          cases call with
          | openDirectory path noFollow =>
              cases response with
              | error errno => cases failed
              | ok entries => rfl
          | filter entry => cases response <;> rfl
          | _ => rfl
      | shared access =>
          cases access with
          | count counter => cases counter <;> rfl
          | _ => rfl
  | some report =>
      unfold obligations
      rw [failed]
      rcases call with ⟨op, response⟩
      have alone :
          ((if opensDirectory ⟨op, response⟩ then
              [Obligation.count .directoriesVisited] else []) ++
            ((if rejectsEntry ⟨op, response⟩ then
                [.count .filesSkipped] else []) ++
              if countsUp .filesVisited ⟨op, response⟩ then
                [.visitFile] else [])) = [] := by
        cases op with
        | outside call =>
            cases call with
            | openDirectory path noFollow =>
                cases response with
                | error errno => rfl
                | ok entries => cases failed
            | filter entry => cases failed
            | _ => rfl
        | shared access => cases failed
      rw [alone, List.append_nil]
      exact (List.flatMap_singleton _ _).symm

/-- A failure asks for one count of an error, and for no other count. -/
theorem count_failure (failure : Option Report) {obligation : Obligation}
    (untold : ∀ report, obligation ≠ .tell report) :
    (failure.toList.flatMap (Report.obligations config)).count obligation =
      if obligation = .count .errorsEncountered then failure.toList.length
      else 0 := by
  cases failure with
  | none => split <;> rfl
  | some report =>
      have others :
          (report.obligations config).count obligation =
            if obligation = .count .errorsEncountered then 1 else 0 := by
        unfold Report.obligations
        by_cases isError : obligation = .count .errorsEncountered
        · subst isError
          cases config.hasOnError <;> rfl
        · rw [if_neg isError]
          refine List.count_eq_zero_of_not_mem ?_
          cases config.hasOnError <;> simp [isError, untold report]
      rw [Option.toList_some, List.flatMap_singleton, others]
      rfl

/-- What a call asks for of one kind, apart from reports. -/
theorem count_obligations (place : Whereabouts)
    (call : Answered Op Op.Response) {obligation : Obligation}
    (untold : ∀ report, obligation ≠ .tell report) :
    (obligations config place call).count obligation =
      (if obligation = .count .errorsEncountered then
          (place.failure config call).toList.length else 0) +
        ((if obligation = .count .directoriesVisited then
            (opensDirectory call).toNat else 0) +
          ((if obligation = .count .filesSkipped then
              (rejectsEntry call).toNat else 0) +
            if obligation = .visitFile then
              (countsUp .filesVisited call).toNat else 0)) := by
  have piece :
      ∀ (holds : Bool) (kind : Obligation),
        (if holds = true then [kind] else []).count obligation =
          if obligation = kind then holds.toNat else 0 := by
    intro holds kind
    by_cases isKind : obligation = kind
    · subst isKind
      cases holds <;> simp
    · rw [if_neg isKind]
      refine List.count_eq_zero_of_not_mem ?_
      cases holds <;> simp [isKind]
  rw [obligations_eq, List.count_append, List.count_append,
    List.count_append, count_failure _ untold, piece, piece, piece]

theorem count_opened (place : Whereabouts)
    (call : Answered Op Op.Response) :
    (obligations config place call).count (.count .directoriesVisited) =
      (opensDirectory call).toNat := by
  rw [count_obligations place call fun _ => Obligation.noConfusion]
  simp

theorem count_rejected (place : Whereabouts)
    (call : Answered Op Op.Response) :
    (obligations config place call).count (.count .filesSkipped) =
      (rejectsEntry call).toNat := by
  rw [count_obligations place call fun _ => Obligation.noConfusion]
  simp

theorem count_counted (place : Whereabouts)
    (call : Answered Op Op.Response) :
    (obligations config place call).count .visitFile =
      (countsUp .filesVisited call).toNat := by
  rw [count_obligations place call fun _ => Obligation.noConfusion]
  simp

theorem count_failures (calls : List (Answered Op Op.Response)) :
    (owedBy config worker calls).count (.count .errorsEncountered) =
      (failuresOf config worker calls).length := by
  unfold owedBy failuresOf
  generalize whereaboutsStart config worker = place
  induction calls generalizing place with
  | nil => rfl
  | cons call calls induction =>
      rw [Automaton.accrued, Automaton.accrued, List.count_append,
        List.length_append, induction,
        count_obligations place call fun _ => Obligation.noConfusion]
      rfl

/-- The counts that a call does; files are counted by what they ask for. -/
theorem count_fulfilled_count {counter : Counter}
    (notFiles : counter ≠ .filesVisited) (call : Answered Op Op.Response) :
    (fulfilled call).count (.count counter) =
      (countsUp counter call).toNat := by
  rcases call with ⟨op, response⟩
  cases op with
  | outside call =>
      cases call with
      | visit entry =>
          change List.count _ (if entry.kind = .file then _ else _) = 0
          split <;> rfl
      | _ => rfl
  | shared access =>
      cases access with
      | count other =>
          cases other with
          | filesVisited =>
              cases counter with
              | filesVisited => exact absurd rfl notFiles
              | _ => rfl
          | _ => cases counter <;> rfl
      | _ => rfl

theorem count_fulfilled_visit (call : Answered Op Op.Response) :
    (fulfilled call).count .visitFile = (visitsFile call).toNat := by
  rcases call with ⟨op, response⟩
  cases op with
  | outside call =>
      cases call with
      | visit entry =>
          change List.count _ (if entry.kind = .file then _ else _) =
            (decide (entry.kind = .file)).toNat
          by_cases isFile : entry.kind = .file
          · rw [if_pos isFile, decide_eq_true isFile]
            rfl
          · rw [if_neg isFile, decide_eq_false isFile]
            rfl
      | _ => rfl
  | shared access =>
      cases access with
      | count counter => cases counter <;> rfl
      | _ => rfl

theorem sum_toNat {α : Type} (holds : α → Bool) (items : List α) :
    (items.map fun item => (holds item).toNat).sum =
      items.countP holds := by
  induction items with
  | nil => rfl
  | cons item items induction =>
      rw [List.map_cons, List.sum_cons, induction, List.countP_cons]
      cases holds item <;> simp [Nat.add_comm]

/-- The counters of a log. -/
theorem count_log (counter : Counter) :
    (log.map Event.op).count (.shared (.count counter)) =
      (log.map fun event => (countsUp counter (callOf event)).toNat).sum := by
  rw [sum_toNat, List.count, List.countP_map]
  rfl

/--
When a walk has ended, its statistics are those of what it did, modulo the width
of a counter: the visits of files, the directories that were opened, the entries
that were rejected, and the failures of all its threads.
-/
theorem statistics_exact
    (completed : Completed config worker threads log stats) :
    stats.filesVisited =
        log.countP (fun event => visitsFile (callOf event)) % sizeLimit ∧
      stats.directoriesVisited =
        log.countP (fun event => opensDirectory (callOf event)) %
          sizeLimit ∧
      stats.filesSkipped =
        log.countP (fun event => rejectsEntry (callOf event)) % sizeLimit ∧
      stats.errorsEncountered =
        (∑ thread ∈ Finset.range threads,
          (failuresOf config worker (recordOf thread log)).length) %
            sizeLimit := by
  rw [completed.tallied]
  refine ⟨congrArg (· % sizeLimit) ?_, congrArg (· % sizeLimit) ?_,
    congrArg (· % sizeLimit) ?_, congrArg (· % sizeLimit) ?_⟩
  · rw [count_log, completed.sum_eq count_counted count_fulfilled_visit,
      sum_toNat]
  · rw [count_log, ← completed.sum_eq count_opened
      (count_fulfilled_count Counter.noConfusion), sum_toNat]
  · rw [count_log, ← completed.sum_eq count_rejected
      (count_fulfilled_count Counter.noConfusion), sum_toNat]
  · rw [count_log]
    refine (sum_recordOf
      (fun call => (countsUp .errorsEncountered call).toNat)
      completed.inside).symm.trans (Finset.sum_congr rfl ?_)
    intro thread isThread
    rcases completed.performed (Finset.mem_range.mp isThread) with
      ⟨_, value, performed⟩
    rcases performed.settles with ⟨pending, settled, _, none⟩
    rw [none value rfl, List.append_nil] at settled
    rw [← count_failures, settled,
      count_fulfilled (count_fulfilled_count Counter.noConfusion)]

/-- One worker walks `r/d/b`, where `r/d` may not be opened. -/
theorem statistics_exact_denied :
    ∃ log stats, Completed nestedConfig true 1 log stats ∧
      stats.directoriesVisited = 1 ∧ stats.errorsEncountered = 1 := by
  have dispatched :
      dispatchParallel deniedWorld.environment nestedConfig 1 () =
        some (parallelPool deniedWorld.environment nestedConfig [114, 0] 1
          ()) := rfl
  have completed :=
    Completed.parallel deniedWorld.environment 1 () dispatched
      (deniedMoves 28) (by
        intro thread isThread
        rw [Nat.lt_one_iff] at isThread
        subst isThread
        exact ⟨false, rfl⟩)
  rcases statistics_exact completed with ⟨_, directories, _, errors⟩
  refine ⟨_, _, completed, directories.trans ?_, errors.trans ?_⟩
  · decide +kernel
  · decide +kernel

end Statistics

end BcIo.Walk
