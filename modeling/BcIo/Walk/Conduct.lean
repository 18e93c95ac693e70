import BcIo.Walk.Run
import BcIo.Foundation.Automata

/-!
# The walkers as machines with a stack

The two walkers are recursive functions.  Here a thread of a walk is a machine
instead: it stands at a point, which says what it does next, over a stack of
the directories it has open, and the response takes it to the next point.  The
recursive programs make the calls of this machine and no others, in every
environment and every interleaving; what a walk does is then read off the
machine, one point at a time.
-/

namespace BcIo.Walk

open BcIo.File
open BcIo.Foundation.Interaction
open BcIo.Foundation.WorkerPool
open BcIo.Foundation.Bookkeeping
open BcIo.Foundation.Recording
open BcIo.Foundation.Automata

/-! ## The machine -/

/-- What the error callback is told. -/
structure Report where
  path : Path
  stage : Stage
  errno : Errno
  deriving DecidableEq, Repr

/-- What a thread wants to do when it looks whether the walk goes on. -/
inductive Errand where
  | enter (directory : Directory)
  | read
  /-- The next turn of the loop of a worker. -/
  | turn
  /-- The result of a sequential walk. -/
  | result
  deriving DecidableEq, Repr

/-- What a thread does after it has reported a failure. -/
inductive Sequel where
  /-- The next record of the innermost directory. -/
  | again
  | close
  /-- The directory could not be opened. -/
  | leave
  /-- The worker has no reader. -/
  | abandon
  deriving DecidableEq, Repr

/-- What a thread is about to do. -/
inductive Point where
  | starting
  | abandoning
  | flag (errand : Errand)
  | stop (errand : Errand)
  | popping
  | surveying
  | finishing
  | opening (directory : Directory)
  | entered
  | allocating
  | reading
  | inquiring (dirent : Dirent) (childPath : Path) (noFollow : Bool)
  | filtering (entry : Entry)
  | skipping
  | counting (entry : Entry)
  | visiting (entry : Entry)
  | failing
  | deciding (entry : Entry)
  | raising (directory : Directory)
  | pushing (directory : Directory)
  | undoing (directory : Directory)
  | inlining (directory : Directory)
  | charging (report : Report) (sequel : Sequel)
  | telling (report : Report) (sequel : Sequel)
  | closing
  | done
  deriving DecidableEq, Repr

/-- A directory that is being listed, and how often its reader was called. -/
structure OpenListing where
  directory : Directory
  reads : Nat
  deriving DecidableEq, Repr

/-- Where a thread stands; the innermost of its open directories comes first. -/
structure Conduct where
  listings : List OpenListing
  point : Point
  deriving DecidableEq, Repr

section Machine

variable (config : Config) (worker : Bool)

/-- The call that a thread makes next, unless it is done. -/
def Conduct.op (conduct : Conduct) : Option Op :=
  match conduct.point with
  | .starting => some (.outside .direntReaderCreate)
  | .abandoning => some (.shared .storeVisitFailed)
  | .flag _ => some (.shared .loadVisitFailed)
  | .stop _ => some (.outside .shouldStopCheck)
  | .popping => some (.shared .queuePop)
  | .surveying => some (.shared .loadOutstanding)
  | .finishing => some (.shared .finishOutstanding)
  | .opening directory =>
      some (.outside
        (.openDirectory directory.text (!config.followSymlinks)))
  | .entered => some (.shared (.count .directoriesVisited))
  | .allocating => some (.outside .direntReaderCreate)
  | .reading =>
      conduct.listings.head?.map fun listing =>
        .outside (.direntReaderNext listing.directory.text listing.reads)
  | .inquiring dirent _ noFollow =>
      conduct.listings.head?.map fun listing =>
        .outside (.fstatat listing.directory.text dirent.name noFollow)
  | .filtering entry => some (.outside (.filter entry))
  | .skipping => some (.shared (.count .filesSkipped))
  | .counting _ => some (.shared (.count .filesVisited))
  | .visiting entry => some (.outside (.visit entry))
  | .failing => some (.shared .storeVisitFailed)
  | .deciding entry => some (.outside (.shouldDescend entry))
  | .raising _ => some (.shared .raiseOutstanding)
  | .pushing directory => some (.shared (.queuePush directory))
  | .undoing _ => some (.shared .undoOutstanding)
  | .inlining _ => some (.outside .direntReaderCreate)
  | .charging _ _ => some (.shared (.count .errorsEncountered))
  | .telling report _ =>
      some (.outside (.onError report.path report.stage report.errno))
  | .closing =>
      conduct.listings.head?.map fun listing =>
        .outside (.closeDirectory listing.directory.text)
  | .done => none

/-- The beginning of a turn of the loop of a worker. -/
def turning : Point :=
  if config.hasShouldStopCheck then .stop .turn else .flag .turn

/-- A directory has been left, over the directories that are still open. -/
def leaving (listings : List OpenListing) : Point :=
  match listings with
  | [] => if worker then .finishing else .flag .result
  | _ :: _ => .flag .read

/-- The walk does not go on. -/
def breakingOff (listings : List OpenListing) : Errand → Point
  | .enter _ => leaving worker listings
  | .read => .closing
  | .turn => .done
  | .result => .done

/-- The walk goes on. -/
def proceeding : Errand → Point
  | .enter directory => .opening directory
  | .read => .reading
  | .turn => .popping
  | .result => .done

/--
`visit_failed` is not set.  A sequential walk then asks `should_stop_check`,
unless it is about to return.
-/
def unflagged (errand : Errand) : Point :=
  if worker = false ∧ config.hasShouldStopCheck = true ∧ errand ≠ .result then
    .stop errand
  else
    proceeding errand

/-- `should_stop_check` does not ask for an end. -/
def unstopped (errand : Errand) : Point :=
  if worker = true then .flag errand else proceeding errand

/-- A directory is to be descended into. -/
def descending (directory : Directory) : Point :=
  if worker then .raising directory else .flag (.enter directory)

/-- A directory has been visited. -/
def afterVisit (entry : Entry) : Point :=
  if config.hasShouldDescend then .deciding entry
  else descending worker entry.directory

/-- The filter lets an entry through. -/
def admitting (entry : Entry) : Point :=
  match entry.kind with
  | .file => .counting entry
  | .directory =>
      if config.hasVisit then .visiting entry
      else afterVisit config worker entry
  | .symlink => .flag .read
  | .other => .flag .read

/-- An entry has been classified. -/
def presenting (entry : Entry) : Point :=
  if config.hasFilter then .filtering entry
  else admitting config worker entry

/-- What a record says about its entry. -/
def resolvedByType (dirent : Dirent) : Resolved :=
  ⟨entryKindFromType (dtypeToEntryType dirent.dType), 0, 0, 0, 0, 0, false⟩

/-- What a record and a status say together. -/
def resolvedByStatus (dirent : Dirent) (stat : Stat) : Resolved :=
  if dirent.dType = dtUnknown then
    ⟨entryKindFromType stat.entryType, stat.size, stat.device, stat.inode,
      stat.modificationTime, 0, true⟩
  else
    ⟨followedKind config (resolvedByType dirent).entryKind stat, stat.size,
      stat.device, stat.inode, stat.modificationTime, stat.permissionMask,
      true⟩

/-- A record has been read. -/
def receiving (directory : Directory) (dirent : Dirent) : Point :=
  if dirent.hidden && !config.includeHidden then .flag .read
  else
    match pathJoin maxPathLength directory.path dirent.name.bytes with
    | none =>
        .charging ⟨directory.text, .pathTooLong, Errno.enametoolong⟩ .again
    | some childPath =>
        if dirent.dType = dtUnknown then .inquiring dirent childPath true
        else if needsStat config (resolvedByType dirent) then
          .inquiring dirent childPath (!config.followSymlinks)
        else
          presenting config worker
            (entryOf directory childPath (resolvedByType dirent))

/-- A failure has been reported. -/
def Sequel.point (listings : List OpenListing) : Sequel → Point
  | .again => .flag .read
  | .close => .closing
  | .leave => leaving worker listings
  | .abandon => .done

/-- A failure has been counted. -/
def charged (listings : List OpenListing) (report : Report)
    (sequel : Sequel) : Point :=
  if sequel = .abandon then .abandoning
  else if config.hasOnError then .telling report sequel
  else sequel.point worker listings

/-- The worker reports that it has no reader. -/
def abandonReport : Report :=
  ⟨config.rootText, .direntReaderAlloc, Errno.enomem⟩

/-- The point a thread goes to with the response to its call. -/
def Conduct.next (conduct : Conduct) :
    (op : Op) → op.Response → Point
  | .shared .loadVisitFailed, failed =>
      match conduct.point with
      | .flag errand =>
          if failed then breakingOff worker conduct.listings errand
          else unflagged config worker errand
      | point => point
  | .outside .shouldStopCheck, asked =>
      match conduct.point with
      | .stop errand =>
          if asked then breakingOff worker conduct.listings errand
          else unstopped worker errand
      | point => point
  | .outside (.openDirectory path _), opened =>
      match opened with
      | .error errno => .charging ⟨path, .opening, errno⟩ .leave
      | .ok _ => .entered
  | .outside (.closeDirectory _), _ => leaving worker conduct.listings.tail
  | .outside .direntReaderCreate, created =>
      match conduct.point with
      | .starting =>
          if created then turning config
          else .charging (abandonReport config) .abandon
      | .inlining directory =>
          if created then .flag (.enter directory)
          else
            .charging ⟨directory.text, .direntReaderAlloc, Errno.enomem⟩
              .again
      | point =>
          match conduct.listings with
          | [] => point
          | listing :: _ =>
              if created then .flag .read
              else
                .charging
                  ⟨listing.directory.text, .direntReaderAlloc, Errno.enomem⟩
                  .close
  | .outside (.direntReaderNext path _), next =>
      match next, conduct.listings with
      | .failed lastErrno, _ => .charging ⟨path, .getdents64, lastErrno⟩ .close
      | .finished, _ => .closing
      | .entry _, [] => conduct.point
      | .entry dirent, listing :: _ =>
          receiving config worker listing.directory dirent
  | .outside (.fstatat _ _ _), answered =>
      match conduct.point, conduct.listings with
      | .inquiring dirent childPath _, listing :: _ =>
          match answered with
          | .error errno => .charging ⟨childPath, .stat, errno⟩ .again
          | .ok stat =>
              presenting config worker
                (entryOf listing.directory childPath
                  (resolvedByStatus config dirent stat))
      | point, _ => point
  | .outside (.filter entry), accepted =>
      if accepted then admitting config worker entry else .skipping
  | .outside (.visit entry), succeeded =>
      if succeeded = false then .failing
      else if entry.kind = .file then .flag .read
      else afterVisit config worker entry
  | .outside (.shouldDescend entry), wanted =>
      if wanted then descending worker entry.directory else .flag .read
  | .outside (.onError _ _ _), _ =>
      match conduct.point with
      | .telling _ sequel => sequel.point worker conduct.listings
      | point => point
  | .shared .storeVisitFailed, _ =>
      match conduct.point with
      | .abandoning =>
          if config.hasOnError then .telling (abandonReport config) .abandon
          else .done
      | _ => .closing
  | .shared (.count _), _ =>
      match conduct.point with
      | .entered => if worker then .flag .read else .allocating
      | .counting entry => .visiting entry
      | .charging report sequel =>
          charged config worker conduct.listings report sequel
      | _ => .flag .read
  | .shared .raiseOutstanding, _ =>
      match conduct.point with
      | .raising directory => .pushing directory
      | point => point
  | .shared (.queuePush directory), pushed =>
      if pushed then .flag .read else .undoing directory
  | .shared .undoOutstanding, _ =>
      match conduct.point with
      | .undoing directory => .inlining directory
      | point => point
  | .shared .finishOutstanding, _ => turning config
  | .shared .loadOutstanding, outstanding =>
      if outstanding ≠ 0 then turning config else .done
  | .shared .queuePop, popped =>
      match popped with
      | some directory => .flag (.enter directory)
      | none => .surveying

/-- The open directories after a call. -/
def Conduct.holding (conduct : Conduct) :
    (op : Op) → op.Response → List OpenListing
  | .outside (.openDirectory _ _), .ok _ =>
      match conduct.point with
      | .opening directory => ⟨directory, 0⟩ :: conduct.listings
      | _ => conduct.listings
  | .outside (.closeDirectory _), _ => conduct.listings.tail
  | .outside (.direntReaderNext _ _), _ =>
      match conduct.listings with
      | [] => []
      | listing :: outer => ⟨listing.directory, listing.reads + 1⟩ :: outer
  | _, _ => conduct.listings

/-- One step of the machine. -/
def Conduct.after (conduct : Conduct) (op : Op) (response : op.Response) :
    Conduct :=
  ⟨conduct.holding op response, conduct.next config worker op response⟩

/-- The machine. -/
def conductor : Automaton Op Op.Response Conduct where
  op := Conduct.op config
  next := Conduct.after config worker

/-- The calls of a thread are those of the machine. -/
abbrev conducting : Discipline Op Op.Response Conduct :=
  (conductor config worker).discipline

end Machine

/-! ## The programs make the calls of the machine -/

section Programs

variable {config : Config} {worker : Bool} {listings : List OpenListing}

/-- What a program returns, and where the machine then stands. -/
def Arrival {α : Type} (listings : List OpenListing) (point : α → Point)
    (value : α) (conduct : Conduct) : Prop :=
  conduct = ⟨listings, point value⟩

/-- A program makes the calls from one point to the next. -/
def Leads {α : Type} (config : Config) (worker : Bool)
    (listings : List OpenListing) (point : Point) (program : Action α)
    (follows : α → Point) : Prop :=
  Keeps (conducting config worker) (Arrival listings follows) program
    ⟨listings, point⟩

theorem Leads.bind {α β : Type} {program : Action α}
    {rest : α → Action β} {point : Point} {between : α → Point}
    {follows : β → Point}
    (first : Leads config worker listings point program between)
    (second : ∀ value,
      Leads config worker listings (between value) (rest value) follows) :
    Leads config worker listings point (program >>= rest) follows := by
  refine Keeps.bind first ?_
  rintro value _ rfl
  exact second value

theorem leads_ret {α : Type} (value : α) {point : Point}
    {follows : α → Point} (isPoint : follows value = point) :
    Leads config worker listings point (.ret value) follows := by
  subst isPoint
  exact rfl

/-- A call that opens and closes nothing. -/
theorem leads_perform {op : Op} {point : Point}
    {follows : op.Response → Point}
    (isOp : (Conduct.mk listings point).op config = some op)
    (holds : ∀ response,
      (Conduct.mk listings point).holding op response = listings)
    (goes : ∀ response,
      (Conduct.mk listings point).next config worker op response =
        follows response) :
    Leads config worker listings point (Program.perform op) follows := by
  refine ⟨isOp, ?_⟩
  intro response _
  change Conduct.mk _ _ = Conduct.mk _ _
  rw [holds, goes]

theorem leads_reportError (report : Report) {sequel : Sequel}
    (goesOn : sequel ≠ .abandon) :
    Leads config worker listings (.charging report sequel)
      (reportError config report.path report.stage report.errno)
      (fun _ => sequel.point worker listings) := by
  unfold reportError
  refine Leads.bind
    (leads_perform rfl (fun _ => rfl) (fun _ => rfl)) ?_
  intro _
  change Leads config worker listings
    (charged config worker listings report sequel) _ _
  unfold charged
  rw [if_neg goesOn]
  split
  · exact leads_perform rfl (fun _ => rfl) (fun _ => rfl)
  · exact leads_ret _ rfl

/-! ### One record -/

variable {outer : List OpenListing} {directory : Directory} {reads : Nat}

/-- What follows once a record has been examined. -/
def examined (config : Config) (worker : Bool) : Option Entry → Point
  | none => .flag .read
  | some entry => presenting config worker entry

/-- What follows a status that was asked for. -/
theorem leads_status {follows : Option Entry → Point}
    {dirent : Dirent} {childPath : Path} {noFollow : Bool}
    {rest : Except Errno Stat → Action (Option Entry)}
    (failed : ∀ errno,
      Leads config worker (⟨directory, reads⟩ :: outer)
        (.charging ⟨childPath, .stat, errno⟩ .again) (rest (.error errno))
        follows)
    (answered : ∀ stat,
      Leads config worker (⟨directory, reads⟩ :: outer)
        (presenting config worker
          (entryOf directory childPath
            (resolvedByStatus config dirent stat)))
        (rest (.ok stat)) follows) :
    Leads config worker (⟨directory, reads⟩ :: outer)
      (.inquiring dirent childPath noFollow)
      (outside (.fstatat directory.text dirent.name noFollow) >>= rest)
      follows := by
  refine ⟨rfl, ?_⟩
  intro response _
  cases response with
  | error errno => exact failed errno
  | ok stat => exact answered stat

/-- A status that failed is reported, and the record is passed over. -/
theorem keeps_reported {α : Type} (value : α) (childPath : Path)
    (errno : Errno) :
    Keeps (conducting config worker)
      (fun last held => last = value ∧
        held = ⟨⟨directory, reads⟩ :: outer, .flag .read⟩)
      (reportError config childPath .stat errno >>= fun _ => .ret value)
      ⟨⟨directory, reads⟩ :: outer,
        .charging ⟨childPath, .stat, errno⟩ .again⟩ := by
  refine Keeps.bind
    (leads_reportError ⟨childPath, .stat, errno⟩ (by decide)) ?_
  rintro _ _ rfl
  exact ⟨rfl, rfl⟩

theorem leads_examineEntry (dirent : Dirent) :
    Leads config worker (⟨directory, reads⟩ :: outer)
      (receiving config worker directory dirent)
      (examineEntry config directory dirent)
      (examined config worker) := by
  unfold examineEntry receiving
  split
  · exact leads_ret _ rfl
  · cases pathJoin maxPathLength directory.path dirent.name.bytes with
    | none =>
        refine Leads.bind
          (leads_reportError
            ⟨directory.text, .pathTooLong, Errno.enametoolong⟩
            (by decide)) ?_
        intro _
        exact leads_ret _ rfl
    | some childPath =>
        by_cases isUnknown : dirent.dType = dtUnknown
        · simp only [resolveType, if_pos isUnknown,
            if_neg (not_not.mpr isUnknown)]
          refine leads_status
            (fun errno => Keeps.bind (keeps_reported none childPath errno) ?_)
            ?_
          · rintro _ _ ⟨rfl, rfl⟩
            exact leads_ret _ rfl
          · intro stat
            -- the status counts as populated, so that no second one is asked
            simp only [resolvedByStatus, if_pos isUnknown]
            exact leads_ret _ rfl
        · simp only [resolveType, if_neg isUnknown, if_pos isUnknown]
          change Leads config worker _ _
            (resolveStat config directory childPath dirent
              (resolvedByType dirent) >>= _) _
          unfold resolveStat
          split
          · refine leads_status
              (fun errno =>
                Keeps.bind (keeps_reported none childPath errno) ?_) ?_
            · rintro _ _ ⟨rfl, rfl⟩
              exact leads_ret _ rfl
            · intro stat
              simp only [resolvedByStatus, if_neg isUnknown]
              exact leads_ret _ rfl
          · exact leads_ret _ rfl

theorem leads_passesFilter (entry : Entry) :
    Leads config worker listings (presenting config worker entry)
      (passesFilter config entry)
      (fun accepted =>
        if accepted then admitting config worker entry else .skipping) := by
  unfold presenting passesFilter
  split
  · exact leads_perform rfl (fun _ => rfl) (fun _ => rfl)
  · exact leads_ret _ rfl

/-- The point after a visit that went well. -/
def afterSuccess (config : Config) (worker : Bool) (entry : Entry) : Point :=
  if entry.kind = .file then .flag .read
  else afterVisit config worker entry

theorem leads_visitEntry {entry : Entry} {point : Point}
    (success : afterSuccess config worker entry = point) :
    Leads config worker listings (.visiting entry) (visitEntry entry)
      (fun succeeded => if succeeded then point else .closing) := by
  subst success
  refine ⟨rfl, ?_⟩
  intro succeeded _
  cases succeeded with
  | true => exact leads_ret _ rfl
  | false =>
      refine ⟨rfl, ?_⟩
      intro _ _
      exact leads_ret _ rfl

/-- The point at which a listing stands after one of its records. -/
def afterEntry (goesOn : Bool) : Point :=
  if goesOn then .flag .read else .closing

variable {descend : Directory → Action Unit}

theorem leads_enterDirectory {entry : Entry}
    (isDirectory : entry.kind = .directory)
    (descends :
      Leads config worker listings (descending worker entry.directory)
        (descend entry.directory) (fun _ => .flag .read)) :
    Leads config worker listings (admitting config worker entry)
      (enterDirectory config descend entry) afterEntry := by
  have wanted :
      Leads config worker listings (afterVisit config worker entry)
        (wantsDescend config entry)
        (fun wanted =>
          if wanted then descending worker entry.directory
          else .flag .read) := by
    unfold wantsDescend afterVisit
    split
    · exact leads_perform rfl (fun _ => rfl) (fun _ => rfl)
    · exact leads_ret _ rfl
  have visited :
      Leads config worker listings (admitting config worker entry)
        (visitDirectory config entry)
        (fun succeeded =>
          if succeeded then afterVisit config worker entry
          else .closing) := by
    unfold visitDirectory admitting
    simp only [isDirectory]
    split
    · exact leads_visitEntry (by simp [afterSuccess, isDirectory])
    · exact leads_ret _ rfl
  unfold enterDirectory
  refine Leads.bind visited ?_
  intro succeeded
  cases succeeded with
  | false => exact leads_ret _ rfl
  | true =>
      refine Leads.bind wanted ?_
      intro isWanted
      cases isWanted with
      | false => exact leads_ret _ rfl
      | true =>
          refine Leads.bind descends ?_
          intro _
          exact leads_ret _ rfl

theorem leads_handleEntry (dirent : Dirent)
    (descends : ∀ child,
      Leads config worker (⟨directory, reads⟩ :: outer)
        (descending worker child) (descend child) (fun _ => .flag .read)) :
    Leads config worker (⟨directory, reads⟩ :: outer)
      (receiving config worker directory dirent)
      (handleEntry config descend directory dirent) afterEntry := by
  unfold handleEntry
  refine Leads.bind (leads_examineEntry dirent) ?_
  intro found
  cases found with
  | none => exact leads_ret _ rfl
  | some entry =>
      refine Leads.bind (leads_passesFilter entry) ?_
      intro accepted
      cases accepted with
      | false =>
          refine Leads.bind
            (leads_perform rfl (fun _ => rfl) (fun _ => rfl)) ?_
          intro _
          exact leads_ret _ rfl
      | true =>
          rw [if_pos rfl, if_pos rfl]
          split
          · rename_i isFile
            unfold admitting
            simp only [isFile]
            refine Leads.bind
              (leads_perform rfl (fun _ => rfl) (fun _ => rfl)) ?_
            intro _
            exact leads_visitEntry (if_pos isFile)
          · rename_i isDirectory
            exact leads_enterDirectory isDirectory (descends _)
          · rename_i isSymlink
            unfold admitting
            simp only [isSymlink]
            exact leads_ret _ rfl
          · rename_i isOther
            unfold admitting
            simp only [isOther]
            exact leads_ret _ rfl

/-! ### One directory -/

/-- How a walk looks before it opens or reads. -/
def Halts (config : Config) (worker : Bool) (halted : Action Bool) : Prop :=
  ∀ (listings : List OpenListing) (errand : Errand),
    errand = .read ∨ (∃ directory, errand = .enter directory) →
    Leads config worker listings (.flag errand) halted
      (fun isHalted =>
        if isHalted then breakingOff worker listings errand
        else proceeding errand)

theorem halts_sequentialHalted :
    Halts config false (sequentialHalted config) := by
  intro listings errand opensOrReads
  have goesOn : errand ≠ .result := by
    rcases opensOrReads with rfl | ⟨directory, rfl⟩ <;> exact nofun
  refine ⟨rfl, ?_⟩
  intro flagged _
  cases flagged with
  | true => exact leads_ret _ rfl
  | false =>
      change Leads config false listings (unflagged config false errand)
        (shouldStop config) _
      unfold unflagged shouldStop
      cases config.hasShouldStopCheck with
      | true =>
          rw [if_pos ⟨rfl, rfl, goesOn⟩, if_pos rfl]
          exact leads_perform rfl (fun _ => rfl) (fun _ => rfl)
      | false => exact leads_ret _ rfl

theorem halts_parallelHalted : Halts config true parallelHalted := by
  intro listings errand _
  refine leads_perform rfl (fun _ => rfl) ?_
  intro flagged
  cases flagged <;> rfl

variable {halted : Action Bool} (halts : Halts config worker halted)

/-- The innermost directory has been listed as far as it is. -/
def Listed (outer : List OpenListing) (directory : Directory)
    (conduct : Conduct) : Prop :=
  ∃ reads, conduct = ⟨⟨directory, reads⟩ :: outer, .closing⟩

include halts in
theorem keeps_listingLoop_conducting
    (descends : ∀ (reads : Nat) (child : Directory),
      Leads config worker (⟨directory, reads⟩ :: outer)
        (descending worker child) (descend child) (fun _ => .flag .read))
    (calls index : Nat) :
    Keeps (conducting config worker)
      (fun _ held => Listed outer directory held)
      (listingLoop config halted descend directory calls index)
      ⟨⟨directory, index⟩ :: outer, .flag .read⟩ := by
  induction calls generalizing index with
  | zero => exact trivial
  | succ calls induction =>
      rw [listingLoop]
      refine Keeps.bind (halts _ .read (Or.inl rfl)) ?_
      rintro isHalted _ rfl
      cases isHalted with
      | true => exact ⟨index, rfl⟩
      | false =>
          refine ⟨rfl, ?_⟩
          intro response _
          cases response with
          | failed lastErrno =>
              refine (leads_reportError
                ⟨directory.text, .getdents64, lastErrno⟩
                (by decide)).mono ?_
              rintro _ _ rfl
              exact ⟨index + 1, rfl⟩
          | finished => exact ⟨index + 1, rfl⟩
          | entry dirent =>
              change Keeps _ _
                (handleEntry config descend directory dirent >>= _)
                (⟨⟨directory, index + 1⟩ :: outer,
                  receiving config worker directory dirent⟩ : Conduct)
              refine Keeps.bind
                (leads_handleEntry dirent (descends (index + 1))) ?_
              rintro goesOn _ rfl
              cases goesOn with
              | true => exact induction (index + 1)
              | false => exact ⟨index + 1, rfl⟩

/-- What is left of a directory that has been listed. -/
theorem keeps_closing {conduct : Conduct}
    (listed : Listed outer directory conduct) :
    Keeps (conducting config worker)
      (Arrival outer fun _ => leaving worker outer)
      (outside (.closeDirectory directory.text)) conduct := by
  rcases listed with ⟨reads, rfl⟩
  refine ⟨rfl, ?_⟩
  intro _ _
  exact rfl

include halts in
/-- An open directory is listed and closed. -/
theorem keeps_listed_conducting
    (descends : ∀ (reads : Nat) (child : Directory),
      Leads config worker (⟨directory, reads⟩ :: outer)
        (descending worker child) (descend child) (fun _ => .flag .read))
    (calls : Nat) :
    Keeps (conducting config worker)
      (Arrival outer fun _ => leaving worker outer)
      (listingLoop config halted descend directory calls 0 >>= fun _ =>
        outside (.closeDirectory directory.text))
      ⟨⟨directory, 0⟩ :: outer, .flag .read⟩ := by
  refine Keeps.bind
    (keeps_listingLoop_conducting halts descends calls 0) ?_
  intro _ held listed
  exact keeps_closing listed

/-- A directory without a reader is reported and closed. -/
theorem keeps_unread (directory : Directory) (outer : List OpenListing) :
    Keeps (conducting config worker)
      (Arrival outer fun _ => leaving worker outer)
      (reportError config directory.text .direntReaderAlloc Errno.enomem >>=
        fun _ => outside (.closeDirectory directory.text))
      ⟨⟨directory, 0⟩ :: outer,
        .charging ⟨directory.text, .direntReaderAlloc, Errno.enomem⟩
          .close⟩ := by
  refine Keeps.bind
    (leads_reportError ⟨directory.text, .direntReaderAlloc, Errno.enomem⟩
      (by decide)) ?_
  rintro _ _ rfl
  exact keeps_closing ⟨0, rfl⟩

theorem leads_sequentialRecurse (levels : Nat) (directory : Directory)
    (outer : List OpenListing) :
    Leads config false outer (.flag (.enter directory))
      (sequentialRecurse config levels directory)
      (fun _ => leaving false outer) := by
  induction levels generalizing directory outer with
  | zero => exact trivial
  | succ levels induction =>
      change Leads config false outer _
        (sequentialBody config _ directory) _
      unfold sequentialBody
      refine Leads.bind
        (halts_sequentialHalted outer _ (Or.inr ⟨directory, rfl⟩)) ?_
      intro isHalted
      cases isHalted with
      | true => exact leads_ret _ rfl
      | false =>
          refine ⟨rfl, ?_⟩
          intro opened _
          cases opened with
          | error errno =>
              exact leads_reportError ⟨directory.text, .opening, errno⟩
                (by decide)
          | ok entries =>
              refine ⟨rfl, ?_⟩
              intro _ _
              refine ⟨rfl, ?_⟩
              intro created _
              cases created with
              | true =>
                  exact keeps_listed_conducting halts_sequentialHalted
                    (fun reads child => induction child _) _
              | false => exact keeps_unread directory outer

/-- A directory is queued, or processed on the spot. -/
theorem leads_enqueueDirectory {process : Directory → Action Unit}
    {child : Directory}
    (processes :
      Leads config true (⟨directory, reads⟩ :: outer)
        (.flag (.enter child)) (process child)
        (fun _ => leaving true (⟨directory, reads⟩ :: outer))) :
    Leads config true (⟨directory, reads⟩ :: outer) (descending true child)
      (enqueueDirectory config process child) (fun _ => .flag .read) := by
  refine ⟨rfl, ?_⟩
  intro _ _
  refine ⟨rfl, ?_⟩
  intro pushed _
  cases pushed with
  | true => exact leads_ret _ rfl
  | false =>
      refine ⟨rfl, ?_⟩
      intro _ _
      refine ⟨rfl, ?_⟩
      intro created _
      cases created with
      | true => exact processes
      | false =>
          exact leads_reportError
            ⟨child.text, .direntReaderAlloc, Errno.enomem⟩ (by decide)

theorem leads_processDirectory (levels : Nat) (directory : Directory)
    (outer : List OpenListing) :
    Leads config true outer (.flag (.enter directory))
      (processDirectory config levels directory)
      (fun _ => leaving true outer) := by
  induction levels generalizing directory outer with
  | zero => exact trivial
  | succ levels induction =>
      change Leads config true outer _ (processBody config _ directory) _
      unfold processBody
      refine Leads.bind
        (halts_parallelHalted outer _ (Or.inr ⟨directory, rfl⟩)) ?_
      intro isHalted
      cases isHalted with
      | true => exact leads_ret _ rfl
      | false =>
          refine ⟨rfl, ?_⟩
          intro opened _
          cases opened with
          | error errno =>
              exact leads_reportError ⟨directory.text, .opening, errno⟩
                (by decide)
          | ok entries =>
              refine ⟨rfl, ?_⟩
              intro _ _
              refine keeps_listed_conducting halts_parallelHalted ?_ _
              intro reads child
              exact leads_enqueueDirectory
                (induction child (⟨directory, reads⟩ :: outer))

end Programs

/-! ## Whole walks -/

/-- Where the thread of a sequential walk begins. -/
def sequentialStart (config : Config) : Conduct :=
  match usableRoot config with
  | none => ⟨[], .done⟩
  | some memory =>
      ⟨[], .flag (.enter (.atPointer memory config.rootLength 0))⟩

/-- A thread has ended, with nothing open. -/
def AtEnd (conduct : Conduct) : Prop :=
  conduct = ⟨[], .done⟩

/-- Where a worker stands between its turns. -/
def Between (config : Config) (goesOn : Bool) (conduct : Conduct) : Prop :=
  conduct = ⟨[], if goesOn then turning config else .done⟩

section Walks

variable {config : Config}

theorem unflagged_result (worker : Bool) :
    unflagged config worker .result = .done := by
  simp [unflagged, proceeding]

theorem keeps_walkSequential_conducting :
    Keeps (conducting config false) (fun _ held => AtEnd held)
      (walkSequential config) (sequentialStart config) := by
  unfold walkSequential sequentialStart
  cases usableRoot config with
  | none => exact rfl
  | some memory =>
      refine Keeps.bind (leads_sequentialRecurse _ _ []) ?_
      rintro _ _ rfl
      refine ⟨rfl, ?_⟩
      intro flagged _
      cases flagged with
      | true => exact rfl
      | false =>
          change Conduct.mk [] (unflagged config false .result) = _
          rw [unflagged_result]

theorem keeps_workerStart_conducting :
    Keeps (conducting config true) (Between config) (workerStart config)
      ⟨[], .starting⟩ := by
  refine ⟨rfl, ?_⟩
  intro created _
  cases created with
  | true => exact rfl
  | false =>
      refine ⟨rfl, ?_⟩
      intro _ _
      refine ⟨rfl, ?_⟩
      intro _ _
      change Leads config true []
        (if config.hasOnError then .telling (abandonReport config) .abandon
          else .done) _ _
      cases config.hasOnError with
      | true =>
          refine ⟨rfl, ?_⟩
          intro _ _
          exact rfl
      | false => exact rfl

theorem keeps_workerTurn_conducting :
    Keeps (conducting config true) (Between config) (workerTurn config)
      ⟨[], turning config⟩ := by
  have asked :
      Leads config true [] (turning config) (shouldStop config)
        (fun asked => if asked then .done else .flag .turn) := by
    unfold turning shouldStop
    cases config.hasShouldStopCheck with
    | true => exact leads_perform rfl (fun _ => rfl) (fun _ => rfl)
    | false => exact leads_ret _ rfl
  unfold workerTurn
  refine Keeps.bind asked ?_
  rintro isAsked _ rfl
  cases isAsked with
  | true => exact rfl
  | false =>
      refine ⟨rfl, ?_⟩
      intro flagged _
      cases flagged with
      | true => exact rfl
      | false =>
          refine ⟨rfl, ?_⟩
          intro popped _
          cases popped with
          | some directory =>
              change Keeps _ _ (workerProcess config directory)
                (⟨[], .flag (.enter directory)⟩ : Conduct)
              unfold workerProcess
              refine Keeps.bind (leads_processDirectory _ _ []) ?_
              rintro _ _ rfl
              refine ⟨rfl, ?_⟩
              intro _ _
              exact rfl
          | none =>
              refine ⟨rfl, ?_⟩
              intro outstanding _
              change Conduct.mk [] _ = Conduct.mk [] _
              simp only [Conduct.next, decide_eq_true_eq]

theorem resumes_worker_conducting :
    Noted.Resumes (conducting config true) (workerResume config)
      (Between config) := by
  rintro value program held resumed rfl
  cases value with
  | true =>
      cases resumed
      exact keeps_workerTurn_conducting
  | false => cases resumed

theorem resumes_sequential_conducting :
    Noted.Resumes (conducting config false) sequentialResume
      (fun _ held => AtEnd held) := by
  intro value program held resumed _
  cases resumed

end Walks

end BcIo.Walk
