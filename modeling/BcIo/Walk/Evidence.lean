import BcIo.Walk.Bounds
import BcIo.Foundation.Recording

/-!
# What stands behind the entries of a walk

A walk presents an entry to a callback only when it has opened a directory, has
read a record of it and has joined the name in the record to the path of the
directory; and an entry that carries a status got it from a call for that
record.  All of this the thread that presents the entry has done itself.  What
it has not done itself is to open the first directory: it may have popped one
that another worker has found.

An outline takes no note of what is read and asked, so the inductions over the
walkers are made here for records of all calls.
-/

namespace BcIo.Walk

open BcIo.File
open BcIo.Foundation.Bookkeeping
open BcIo.Foundation.Interaction
open BcIo.Foundation.Recording
open BcIo.Foundation.WorkerPool

/-- The calls that a thread has made, with their responses. -/
abbrev Record := List (Answered Op Op.Response)

/-- A call from outside has got this response. -/
def Answers (held : Record) (call : Call) (response : call.Response) :
    Prop :=
  (⟨.outside call, response⟩ : Answered Op Op.Response) ∈ held

/-- The directory has been opened. -/
structure Opened (good : Directory → Prop) (held : Record)
    (directory : Directory) : Prop where
  good : good directory
  opened : ∃ noFollow entries,
    Answers held (.openDirectory directory.text noFollow) (.ok entries)

/-- The directory has been opened and the record has been read from it. -/
structure Origin (good : Directory → Prop) (held : Record)
    (directory : Directory) (dirent : Dirent) : Prop extends
    Opened good held directory where
  read : ∃ index,
    Answers held (.direntReaderNext directory.text index) (.entry dirent)

/-- Whether the status of a record is asked for without following a link. -/
def Dirent.unfollowed (config : Config) (dirent : Dirent) : Bool :=
  dirent.dType = dtUnknown || !config.followSymlinks

/--
The fields of an entry come from one status of its record, but for the mode:
that is not taken over when the record does not say the type.
-/
structure Describes (config : Config) (held : Record)
    (directory : Directory) (dirent : Dirent) (entry : Entry)
    (stat : Stat) : Prop where
  asked : Answers held
    (.fstatat directory.text dirent.name (dirent.unfollowed config))
    (.ok stat)
  size : entry.fileSize = stat.size
  device : entry.deviceId = stat.device
  inode : entry.inodeNumber = stat.inode
  modificationTime : entry.modificationTimeSeconds = stat.modificationTime
  mask : entry.permissionMask =
    if dirent.dType = dtUnknown then 0 else stat.permissionMask

/-- The path is that of a record which has been read. -/
def Traced (good : Directory → Prop) (held : Record) (path : Path) : Prop :=
  ∃ directory dirent, Origin good held directory dirent ∧
    pathJoin maxPathLength directory.path dirent.name.bytes = some path

/-- The entry is that of a record which has been read, and its status too. -/
def Presented (good : Directory → Prop) (config : Config) (held : Record)
    (entry : Entry) : Prop :=
  ∃ directory dirent, Origin good held directory dirent ∧
    pathJoin maxPathLength directory.path dirent.name.bytes =
        some entry.absolutePath ∧
      (entry.statPopulated = true →
        ∃ stat, Describes config held directory dirent entry stat)

/-- The thread has tried to open a directory. -/
def HasOpened (held : Record) : Prop :=
  ∃ path noFollow response,
    Answers held (.openDirectory path noFollow) response

/-- The thread knows of a directory other than the root. -/
def Begun (root : Directory) (held : Record) : Prop :=
  HasOpened held ∨ ∃ directory, directory ≠ root ∧
    (⟨.shared .queuePop, some directory⟩ : Answered Op Op.Response) ∈ held

/-- What must have happened before an operation. -/
def Attested (good : Directory → Prop) (root : Directory) (config : Config)
    (held : Record) : Op → Prop
  | .outside (.openDirectory path _) =>
      path = root.text ∨ Begun root held
  | .outside (.filter entry) => Presented good config held entry
  | .outside (.visit entry) => Presented good config held entry
  | .outside (.shouldDescend entry) => Presented good config held entry
  | .outside (.onError path stage _) => stage = .stat → Traced good held path
  | .shared (.queuePush directory) => good directory ∧ HasOpened held
  | _ => True

/-- Only good directories are handed out by the queue. -/
def Handed (good : Directory → Prop) : (op : Op) → op.Response → Prop
  | .shared .queuePop, popped =>
      ∀ directory, popped = some directory → good directory
  | _, _ => True

/-- A walk that can account for what it presents. -/
def attesting (good : Directory → Prop) (root : Directory)
    (config : Config) : Discipline Op Op.Response Record :=
  recording (Attested good root config) (Handed good)

/-! ## Records that grow -/

section Growing

variable {good : Directory → Prop} {root directory : Directory}
  {config : Config} {held last : Record} {dirent : Dirent}

theorem Opened.mono (opened : Opened good held directory)
    (grown : held ⊆ last) : Opened good last directory := by
  rcases opened with ⟨isGood, noFollow, entries, answered⟩
  exact ⟨isGood, noFollow, entries, grown answered⟩

theorem Origin.mono (origin : Origin good held directory dirent)
    (grown : held ⊆ last) : Origin good last directory dirent := by
  rcases origin with ⟨opened, index, answered⟩
  exact ⟨opened.mono grown, index, grown answered⟩

theorem Describes.mono {entry : Entry} {stat : Stat}
    (describes : Describes config held directory dirent entry stat)
    (grown : held ⊆ last) :
    Describes config last directory dirent entry stat :=
  { describes with asked := grown describes.asked }

theorem Presented.mono {entry : Entry}
    (presented : Presented good config held entry) (grown : held ⊆ last) :
    Presented good config last entry := by
  rcases presented with ⟨directory, dirent, origin, joins, described⟩
  refine ⟨directory, dirent, origin.mono grown, joins, ?_⟩
  intro populated
  rcases described populated with ⟨stat, describes⟩
  exact ⟨stat, describes.mono grown⟩

theorem HasOpened.mono (opened : HasOpened held) (grown : held ⊆ last) :
    HasOpened last := by
  rcases opened with ⟨path, noFollow, response, answered⟩
  exact ⟨path, noFollow, response, grown answered⟩

theorem Begun.mono (begun : Begun root held)
    (grown : held ⊆ last) : Begun root last := by
  rcases begun with opened | ⟨directory, differs, popped⟩
  · exact Or.inl (opened.mono grown)
  · exact Or.inr ⟨directory, differs, grown popped⟩

theorem Opened.hasOpened (opened : Opened good held directory) :
    HasOpened held := by
  rcases opened with ⟨_, noFollow, entries, answered⟩
  exact ⟨_, noFollow, _, answered⟩

end Growing

/-! ## One entry -/

section Programs

variable {good : Directory → Prop} {root : Directory} {config : Config}
  {held : Record}

theorem keeps_outside {call : Call}
    (permitted : Attested good root config held (.outside call)) :
    Keeps (attesting good root config)
      (fun response last => Answers last call response) (outside call)
      held :=
  (keeps_perform permitted).mono fun _ _ recorded => recorded.2

theorem keeps_shared {access : Access}
    (permitted : Attested good root config held (.shared access)) :
    Keeps (attesting good root config)
      (fun response last => Handed good (.shared access) response ∧
        (⟨.shared access, response⟩ : Answered Op Op.Response) ∈ last)
      (shared access) held :=
  keeps_perform permitted

/-- Whatever it finds out, the program accounts for what it does. -/
abbrev Accounts (good : Directory → Prop) (root : Directory)
    (config : Config) {α : Type} (program : Action α) (held : Record) :
    Prop :=
  Keeps (attesting good root config) (fun _ _ => True) program held

theorem accounts_outside {call : Call}
    (permitted : Attested good root config held (.outside call)) :
    Accounts good root config (outside call) held :=
  (keeps_outside permitted).mono fun _ _ _ => trivial

theorem accounts_shared {access : Access}
    (permitted : Attested good root config held (.shared access)) :
    Accounts good root config (shared access) held :=
  (keeps_shared permitted).mono fun _ _ _ => trivial

theorem accounts_reportError {path : Path} {stage : Stage} (errno : Errno)
    (traced : stage = .stat → Traced good held path) :
    Accounts good root config (reportError config path stage errno)
      held := by
  unfold reportError
  refine keeps_recorded (accounts_shared trivial) ?_
  intro _ last grown _
  split
  · refine accounts_outside ?_
    intro isStat
    rcases traced isStat with ⟨directory, dirent, origin, joins⟩
    exact ⟨directory, dirent, origin.mono grown, joins⟩
  · trivial

theorem accounts_shouldStop :
    Accounts good root config (shouldStop config) held := by
  unfold shouldStop
  split
  · exact accounts_outside trivial
  · trivial

theorem accounts_sequentialHalted :
    Accounts good root config (sequentialHalted config) held := by
  unfold sequentialHalted
  refine keeps_recorded (accounts_shared trivial) ?_
  intro failed last _ _
  split
  · trivial
  · exact accounts_shouldStop

section Entry

variable {directory : Directory} {dirent : Dirent} {childPath : Path}

/--
What the first look at a record leaves: nothing, or a status whose mode is
missing.
-/
def FirstLook (config : Config) (held : Record) (directory : Directory)
    (childPath : Path) (dirent : Dirent) (resolved : Resolved) : Prop :=
  (dirent.dType ≠ dtUnknown ∧ resolved.statPopulated = false) ∨
    (resolved.statPopulated = true ∧ ∃ stat,
      Describes config held directory dirent
        (entryOf directory childPath resolved) stat)

theorem keeps_resolveType
    (origin : Origin good held directory dirent)
    (joins : pathJoin maxPathLength directory.path dirent.name.bytes =
      some childPath) :
    Keeps (attesting good root config)
      (fun found last => ∀ resolved, found = some resolved →
        FirstLook config last directory childPath dirent resolved)
      (resolveType config directory childPath dirent) held := by
  unfold resolveType
  split
  · rename_i known
    intro resolved isResolved
    cases isResolved
    exact Or.inl ⟨known, rfl⟩
  · rename_i unknown
    have isUnknown : dirent.dType = dtUnknown := not_not.mp unknown
    have unfollowed : dirent.unfollowed config = true := by
      simp [Dirent.unfollowed, isUnknown]
    refine keeps_recorded (keeps_outside trivial) ?_
    intro status last grown asked
    cases status with
    | error errno =>
        refine keeps_recorded (accounts_reportError errno ?_) ?_
        · intro _
          exact ⟨directory, dirent, origin.mono grown, joins⟩
        · intro _ _ _ _ resolved impossible
          cases impossible
    | ok stat =>
        intro resolved isResolved
        cases isResolved
        rw [← unfollowed] at asked
        refine Or.inr ⟨rfl, stat, asked, rfl, rfl, rfl, rfl, ?_⟩
        rw [if_pos isUnknown]
        rfl

theorem keeps_resolveStat {resolved : Resolved}
    (origin : Origin good held directory dirent)
    (joins : pathJoin maxPathLength directory.path dirent.name.bytes =
      some childPath)
    (looked :
      FirstLook config held directory childPath dirent resolved) :
    Keeps (attesting good root config)
      (fun found last => ∀ resolved, found = some resolved →
        resolved.statPopulated = true → ∃ stat,
          Describes config last directory dirent
            (entryOf directory childPath resolved) stat)
      (resolveStat config directory childPath dirent resolved) held := by
  unfold resolveStat
  split
  · rename_i needed
    -- a record without a type has its status already
    have unpopulated : resolved.statPopulated = false := by
      simp only [needsStat, Bool.and_eq_true, Bool.not_eq_true'] at needed
      exact needed.1
    rcases looked with ⟨known, _⟩ | ⟨populated, _⟩
    · have unfollowed :
          dirent.unfollowed config = !config.followSymlinks := by
        simp [Dirent.unfollowed, known]
      refine keeps_recorded (keeps_outside trivial) ?_
      intro status last grown asked
      cases status with
      | error errno =>
          refine keeps_recorded (accounts_reportError errno ?_) ?_
          · intro _
            exact ⟨directory, dirent, origin.mono grown, joins⟩
          · intro _ _ _ _ resolved impossible
            cases impossible
      | ok stat =>
          intro found isFound _
          cases isFound
          rw [← unfollowed] at asked
          refine ⟨stat, asked, rfl, rfl, rfl, rfl, ?_⟩
          rw [if_neg known]
          rfl
    · rw [populated] at unpopulated
      cases unpopulated
  · intro found isFound populated
    cases isFound
    rcases looked with ⟨_, unpopulated⟩ | ⟨_, described⟩
    · rw [populated] at unpopulated
      cases unpopulated
    · exact described

/-- What is made of a record can be presented. -/
theorem keeps_examineEntry_attesting
    (origin : Origin good held directory dirent) :
    Keeps (attesting good root config)
      (fun found last => ∀ entry, found = some entry →
        Offspring directory entry ∧ Presented good config last entry)
      (examineEntry config directory dirent) held := by
  unfold examineEntry
  split
  · intro entry impossible
    cases impossible
  · cases joins :
        pathJoin maxPathLength directory.path dirent.name.bytes with
    | none =>
        refine keeps_recorded
          (accounts_reportError _ Stage.noConfusion) ?_
        intro _ _ _ _ entry impossible
        cases impossible
    | some childPath =>
        refine keeps_recorded (keeps_resolveType origin joins) ?_
        intro first between grown looked
        cases first with
        | none =>
            intro entry impossible
            cases impossible
        | some resolved =>
            refine keeps_recorded
              (keeps_resolveStat (origin.mono grown) joins
                (looked resolved rfl)) ?_
            intro second last grownToo described
            cases second with
            | none =>
                intro entry impossible
                cases impossible
            | some resolved =>
                intro entry isEntry
                cases isEntry
                exact ⟨⟨dirent.name, joins, rfl, rfl⟩, directory, dirent,
                  (origin.mono grown).mono grownToo, joins,
                  described resolved rfl⟩

theorem accounts_passesFilter {entry : Entry}
    (presented : Presented good config held entry) :
    Accounts good root config (passesFilter config entry) held := by
  unfold passesFilter
  split
  · exact accounts_outside presented
  · trivial

theorem accounts_visitEntry {entry : Entry}
    (presented : Presented good config held entry) :
    Accounts good root config (visitEntry entry) held := by
  unfold visitEntry
  refine keeps_recorded (accounts_outside presented) ?_
  intro succeeded last _ _
  split
  · trivial
  · exact keeps_recorded (accounts_shared trivial) fun _ _ _ _ => trivial

theorem accounts_enterDirectory {descend : Directory → Action Unit}
    {entry : Entry}
    (descends : ∀ last, held ⊆ last →
      Accounts good root config (descend entry.directory) last)
    (presented : Presented good config held entry) :
    Accounts good root config (enterDirectory config descend entry)
      held := by
  have visits :
      Accounts good root config (visitDirectory config entry) held := by
    unfold visitDirectory
    split
    · exact accounts_visitEntry presented
    · trivial
  unfold enterDirectory
  refine keeps_recorded visits ?_
  intro goesOn visited grown _
  split
  · have wants :
        Accounts good root config (wantsDescend config entry) visited := by
      unfold wantsDescend
      split
      · exact accounts_outside (presented.mono grown)
      · trivial
    refine keeps_recorded wants ?_
    intro isWanted last grownToo _
    split
    · exact keeps_recorded
        (descends last (List.Subset.trans grown grownToo))
        fun _ _ _ _ => trivial
    · trivial
  · trivial

theorem accounts_handleEntry {descend : Directory → Action Unit}
    (origin : Origin good held directory dirent)
    (descends : ∀ entry last, Offspring directory entry → held ⊆ last →
      Accounts good root config (descend entry.directory) last) :
    Accounts good root config (handleEntry config descend directory dirent)
      held := by
  unfold handleEntry
  refine keeps_recorded (keeps_examineEntry_attesting origin) ?_
  intro found examined grown isFound
  cases found with
  | none => trivial
  | some entry =>
      rcases isFound entry rfl with ⟨offspring, presented⟩
      refine keeps_recorded (accounts_passesFilter presented) ?_
      intro isAccepted filtered grownToo _
      have presented := presented.mono grownToo
      split
      · split
        · refine keeps_recorded (accounts_shared trivial) ?_
          intro _ last counted _
          exact accounts_visitEntry (presented.mono counted)
        · refine accounts_enterDirectory ?_ presented
          intro last further
          exact descends entry last offspring
            (List.Subset.trans (List.Subset.trans grown grownToo) further)
        · trivial
        · trivial
      · exact keeps_recorded (accounts_shared trivial)
          fun _ _ _ _ => trivial

end Entry

/-! ## One directory -/

section Directory

variable {directory : Directory} {descend : Directory → Action Unit}
  {halted : Action Bool}

/-- The induction is on the calls that are left. -/
theorem accounts_listingLoop
    (looks : ∀ held, Accounts good root config halted held)
    (descends : ∀ entry last, Offspring directory entry → held ⊆ last →
      Accounts good root config (descend entry.directory) last)
    (opened : Opened good held directory) (calls index : Nat) :
    Accounts good root config
      (listingLoop config halted descend directory calls index) held := by
  induction calls generalizing index held with
  | zero => trivial
  | succ calls induction =>
      unfold listingLoop
      refine keeps_recorded (looks held) ?_
      intro isHalted looked grown _
      split
      · trivial
      · refine keeps_recorded (keeps_outside trivial) ?_
        intro next called grownToo answered
        have further : held ⊆ called := List.Subset.trans grown grownToo
        cases next with
        | failed lastErrno =>
            exact accounts_reportError _ Stage.noConfusion
        | finished => trivial
        | entry dirent =>
            have origin : Origin good called directory dirent :=
              ⟨opened.mono further, index, answered⟩
            refine keeps_recorded (accounts_handleEntry origin ?_) ?_
            · intro entry last offspring later
              exact descends entry last offspring
                (List.Subset.trans further later)
            · intro continues last later _
              split
              · refine induction ?_ ((opened.mono further).mono later) _
                intro entry final offspring finally_
                exact descends entry final offspring
                  (List.Subset.trans (List.Subset.trans further later)
                    finally_)
              · trivial

/-- What is done after the attempt to open a directory. -/
theorem accounts_opening {rest : Except Errno Nat → Action Unit}
    (isGood : good directory)
    (known : directory.text = root.text ∨ Begun root held)
    (fails : ∀ errno last,
      Accounts good root config (rest (.error errno)) last)
    (succeeds : ∀ entries last, Opened good last directory →
      Accounts good root config (rest (.ok entries)) last) :
    Accounts good root config
      (outside (.openDirectory directory.text (!config.followSymlinks)) >>=
        rest) held := by
  refine keeps_recorded (keeps_outside known) ?_
  intro response last _ answered
  cases response with
  | error errno => exact fails errno last
  | ok entries => exact succeeds entries last ⟨isGood, _, entries, answered⟩

/-- The listing of an open directory, up to its closing. -/
theorem accounts_listing {entries : Nat}
    (looks : ∀ held, Accounts good root config halted held)
    (descends : ∀ entry last, Offspring directory entry →
      HasOpened last →
      Accounts good root config (descend entry.directory) last)
    (opened : Opened good held directory) :
    Accounts good root config
      (listingLoop config halted descend directory (entries + 1) 0 >>=
        fun _ => outside (.closeDirectory directory.text)) held := by
  refine keeps_recorded
    (accounts_listingLoop looks ?_ opened (entries + 1) 0) ?_
  · intro entry last offspring grown
    exact descends entry last offspring (opened.hasOpened.mono grown)
  · intro _ last _ _
    exact accounts_outside trivial

end Directory

/-! ## The walks -/

/-- Whatever a good directory leads to is good. -/
def Inherited (good : Directory → Prop) : Prop :=
  ∀ directory entry, good directory → Offspring directory entry →
    good entry.directory

theorem accounts_sequentialRecurse (inherited : Inherited good)
    {levels : Nat} {directory : Directory} (isGood : good directory)
    (known : directory.text = root.text ∨ Begun root held) :
    Accounts good root config (sequentialRecurse config levels directory)
      held := by
  induction levels generalizing directory held with
  | zero => trivial
  | succ levels induction =>
      change Accounts good root config (sequentialBody config _ directory)
        held
      unfold sequentialBody
      refine keeps_recorded accounts_sequentialHalted ?_
      intro isHalted looked grown _
      split
      · trivial
      · refine accounts_opening isGood
          (known.imp_right fun begun => begun.mono grown) ?_ ?_
        · intro errno last
          exact accounts_reportError _ Stage.noConfusion
        · intro entries last opened
          refine keeps_recorded (accounts_shared trivial) ?_
          intro _ counted grown _
          have opened := opened.mono grown
          refine keeps_recorded (accounts_outside trivial) ?_
          intro created last grown _
          have opened := opened.mono grown
          split
          · refine accounts_listing
              (fun _ => accounts_sequentialHalted) ?_ opened
            intro entry last offspring begun
            exact induction (inherited _ _ isGood offspring)
              (Or.inr (Or.inl begun))
          · refine keeps_recorded
              (accounts_reportError _ Stage.noConfusion) ?_
            intro _ _ _ _
            exact accounts_outside trivial

theorem accounts_walkSequential (inherited : Inherited good)
    (starts : ∀ memory, usableRoot config = some memory →
      good (sequentialRoot config memory) ∧
        (sequentialRoot config memory).text = root.text) :
    Accounts good root config (walkSequential config) held := by
  unfold walkSequential
  cases usable : usableRoot config with
  | none => trivial
  | some memory =>
      rcases starts memory usable with ⟨isGood, isRoot⟩
      refine keeps_recorded
        (accounts_sequentialRecurse inherited isGood (Or.inl isRoot)) ?_
      intro _ _ _ _
      exact keeps_recorded (accounts_shared trivial) fun _ _ _ _ => trivial

theorem accounts_enqueueDirectory {process : Directory → Action Unit}
    {directory : Directory} (isGood : good directory)
    (processes : ∀ last, HasOpened last →
      Accounts good root config (process directory) last)
    (opened : HasOpened held) :
    Accounts good root config (enqueueDirectory config process directory)
      held := by
  unfold enqueueDirectory
  refine keeps_recorded (accounts_shared trivial) ?_
  intro _ raised grown _
  have opened := opened.mono grown
  refine keeps_recorded (accounts_shared ⟨isGood, opened⟩) ?_
  intro pushed last grown _
  have opened := opened.mono grown
  split
  · trivial
  · refine keeps_recorded (accounts_shared trivial) ?_
    intro _ undone grown _
    have opened := opened.mono grown
    refine keeps_recorded (accounts_outside trivial) ?_
    intro created last grown _
    split
    · exact processes last (opened.mono grown)
    · exact accounts_reportError _ Stage.noConfusion

theorem accounts_processDirectory (inherited : Inherited good)
    {levels : Nat} {directory : Directory} (isGood : good directory)
    (known : directory.text = root.text ∨ Begun root held) :
    Accounts good root config (processDirectory config levels directory)
      held := by
  induction levels generalizing directory held with
  | zero => trivial
  | succ levels induction =>
      change Accounts good root config (processBody config _ directory) held
      unfold processBody
      refine keeps_recorded (accounts_shared trivial) ?_
      intro isHalted looked grown _
      split
      · trivial
      · refine accounts_opening isGood
          (known.imp_right fun begun => begun.mono grown) ?_ ?_
        · intro errno last
          exact accounts_reportError _ Stage.noConfusion
        · intro entries last opened
          refine keeps_recorded (accounts_shared trivial) ?_
          intro _ counted grown _
          refine accounts_listing
            (fun _ => accounts_shared trivial) ?_ (opened.mono grown)
          intro entry last offspring begun
          have child := inherited _ _ isGood offspring
          refine accounts_enqueueDirectory child ?_ begun
          intro last begun
          exact induction child (Or.inr (Or.inl begun))

theorem accounts_workerStart :
    Accounts good root config (workerStart config) held := by
  unfold workerStart
  refine keeps_recorded (accounts_outside trivial) ?_
  intro created last _ _
  split
  · trivial
  · refine keeps_recorded (accounts_shared trivial) ?_
    intro _ _ _ _
    refine keeps_recorded (accounts_shared trivial) ?_
    intro _ _ _ _
    split
    · exact keeps_recorded (accounts_outside Stage.noConfusion)
        fun _ _ _ _ => trivial
    · trivial

/-- What a worker pops is the root, or shows that the walk has begun. -/
theorem accounts_workerTurn (inherited : Inherited good) :
    Accounts good root config (workerTurn config) held := by
  unfold workerTurn
  refine keeps_recorded accounts_shouldStop ?_
  intro isStopped _ _ _
  split
  · trivial
  · refine keeps_recorded (accounts_shared trivial) ?_
    intro isHalted _ _ _
    split
    · trivial
    · refine keeps_recorded (keeps_shared trivial) ?_
      rintro popped last _ ⟨handed, recorded⟩
      cases popped with
      | none =>
          exact keeps_recorded (accounts_shared trivial)
            fun _ _ _ _ => trivial
      | some directory =>
          have known : directory.text = root.text ∨ Begun root last := by
            by_cases isRoot : directory = root
            · rw [isRoot]
              exact Or.inl rfl
            · exact Or.inr (Or.inr ⟨directory, isRoot, recorded⟩)
          refine keeps_recorded
            (accounts_processDirectory inherited (handed directory rfl)
              known) ?_
          intro _ _ _ _
          exact keeps_recorded (accounts_shared trivial)
            fun _ _ _ _ => trivial

theorem resumes_attesting (inherited : Inherited good) :
    Noted.Resumes (attesting good root config) (workerResume config)
      (fun _ _ => True) := by
  intro value program held resumed _
  cases value with
  | false => cases resumed
  | true =>
      cases resumed
      exact accounts_workerTurn inherited

end Programs

/-! ## Runs -/

section Runs

variable {good : Directory → Prop} {root : Directory} {config : Config}

/--
Everything that is queued is good, and once something else than the root is
queued or has been popped, a directory has been opened.
-/
structure Accounted (good : Directory → Prop) (root : Directory)
    {Situation : Type} (state : State Situation) (notes : List Record) :
    Prop where
  queued : ∀ directory ∈ state.queue, good directory ∧
    (directory = root ∨ ∃ held ∈ notes, HasOpened held)
  begun : ∀ held ∈ notes, Begun root held →
    ∃ other ∈ notes, HasOpened other

/-- A thread that has done nothing knows of nothing. -/
theorem not_begun_nil {threads : Nat} {held : Record}
    (member : held ∈ List.replicate threads []) : ¬ Begun root held := by
  rw [List.eq_of_mem_replicate member]
  rintro (⟨_, _, _, impossible⟩ | ⟨_, _, impossible⟩)
  · cases impossible
  · cases impossible

/-- An opening stays in the records. -/
theorem hasOpened_set {notes : List Record} {thread : Nat}
    {held last : Record} (found : notes[thread]? = some held)
    (grown : held ⊆ last) (opened : ∃ other ∈ notes, HasOpened other) :
    ∃ other ∈ notes.set thread last, HasOpened other := by
  rcases opened with ⟨other, member, opened⟩
  rcases List.getElem?_of_mem member with ⟨position, isOther⟩
  by_cases same : thread = position
  · subst same
    rw [found] at isOther
    cases isOther
    have inside := (List.getElem?_eq_some_iff.mp found).1
    exact ⟨last, List.mem_set inside last, opened.mono grown⟩
  · refine ⟨other, ?_, opened⟩
    apply List.mem_of_getElem?
    rw [List.getElem?_set_ne same]
    exact isOther

/-- What a call adds to what a thread knows. -/
theorem begun_append {held : Record} {op : Op} {response : op.Response}
    (begun : Begun root (held ++ [⟨op, response⟩])) :
    Begun root held ∨ HasOpened (held ++ [⟨op, response⟩]) ∨
      ∃ directory, directory ≠ root ∧
        (⟨op, response⟩ : Answered Op Op.Response) =
          ⟨.shared .queuePop, some directory⟩ := by
  rcases begun with opened | ⟨directory, differs, popped⟩
  · exact Or.inr (Or.inl opened)
  · rcases List.mem_append.mp popped with old | new
    · exact Or.inl (Or.inr ⟨directory, differs, old⟩)
    · exact Or.inr (Or.inr
        ⟨directory, differs, (List.mem_singleton.mp new).symm⟩)

theorem mem_queue_of_answered {environment : Environment} {capacity : Nat}
    {state : State environment.Situation}
    {choice : environment.Choice × QueueChoice} {op : Op}
    {directory : Directory}
    (popped :
      (⟨op, ((machine environment capacity).handle state choice op).1⟩ :
          Answered Op Op.Response) =
        ⟨.shared .queuePop, some directory⟩) :
    directory ∈ state.queue := by
  have isPop : op = .shared .queuePop := congrArg Sigma.fst popped
  subst isPop
  exact mem_queue_of_popped (eq_of_heq (Sigma.mk.inj popped).2)

/-- What attested calls keep, whatever the environment answers. -/
theorem upholds_attesting {environment : Environment} {capacity : Nat} :
    Noted.Upholds (α := Bool) (attesting good root config)
      (fun _ _ => True)
      (fun (state : (machine environment capacity).State) notes =>
        Accounted good root state notes) where
  drift accounted _ := ⟨accounted.queued, accounted.begun⟩
  turn := by
    intro noted thread choice op next held accounted _ found permitted _
    have member := List.mem_of_getElem? found
    have inside := (List.getElem?_eq_some_iff.mp found).1
    have opens : ∀ {last : Record}, held ⊆ last →
        (∃ other ∈ noted.notes, HasOpened other) →
        ∃ other ∈ noted.notes.set thread last, HasOpened other :=
      fun grown => hasOpened_set found grown
    refine ⟨?_, ?_, ?_⟩
    · cases op with
      | outside call => trivial
      | shared access =>
          cases access with
          | queuePop =>
              intro directory isPopped
              exact (accounted.queued directory
                (mem_queue_of_popped isPopped)).1
          | _ => trivial
    · intro directory queued
      rcases mem_queue_handle queued with old | rfl
      · rcases accounted.queued directory old with ⟨isGood, origin⟩
        exact ⟨isGood,
          origin.imp_right (opens (List.subset_append_left _ _))⟩
      · exact ⟨permitted.1, Or.inr
          (opens (List.subset_append_left _ _) ⟨held, member, permitted.2⟩)⟩
    · intro other isOther begun
      -- only the record of the thread has changed, by this one call
      rcases List.mem_or_eq_of_mem_set isOther with old | rfl
      · exact opens (List.subset_append_left _ _)
          (accounted.begun other old begun)
      · rcases begun_append begun with
          before | opened | ⟨directory, differs, isPop⟩
        · exact opens (List.subset_append_left _ _)
            (accounted.begun held member before)
        · exact ⟨_, List.mem_set inside _, opened⟩
        · rcases
              (accounted.queued directory (mem_queue_of_answered isPop)).2 with
            isRoot | opened
          · exact absurd isRoot differs
          · exact opens (List.subset_append_left _ _) opened

/--
Every call of the log is attested by the calls that its thread has made before,
and the first directory that is opened is the root.
-/
structure Accountable (good : Directory → Prop) (root : Directory)
    (config : Config) (log : List (Event Op Op.Response)) : Prop where
  attested : ∀ before event after, log = before ++ event :: after →
    Attested good root config (recordOf event.thread before) event.op
  first : ∀ before event after path noFollow,
    log = before ++ event :: after →
    event.op = .outside (.openDirectory path noFollow) →
    (∀ earlier ∈ before, ∀ path noFollow,
      earlier.op ≠ .outside (.openDirectory path noFollow)) →
    path = root.text

/-- What a pool of threads that account for what they do has logged. -/
theorem accountable_of_sound {environment : Environment} {capacity : Nat}
    {resume : Bool → Option (Action Bool)}
    {pool : Pool (machine environment capacity) Bool} {threads : Nat}
    (resumes : Noted.Resumes (attesting good root config) resume
      (fun _ _ => True))
    (sound : Noted.Sound (attesting good root config) (fun _ _ => True)
      (fun state notes => Accounted good root state notes)
      ⟨pool, List.replicate threads []⟩)
    (moves : List (Move (machine environment capacity))) :
    Accountable good root config (Pool.log resume pool moves) := by
  have each :
      Noted.Each (attesting good root config) resume (fun _ _ => True)
        ⟨pool, List.replicate threads []⟩ moves :=
    Noted.each_of_forall _ moves fun _ _ _ => trivial
  constructor
  · intro before event after logged
    exact
      (recorded_before resumes upholds_attesting sound each logged).1
  · intro before event after path noFollow logged isOpen untouched
    rcases recorded_before resumes upholds_attesting sound each logged with
      ⟨permitted, state, notes, accounted, member, records⟩
    rw [isOpen] at permitted
    rcases permitted with isRoot | begun
    · exact isRoot
    · -- somebody must have opened a directory before, but nobody has
      rcases accounted.begun _ member begun with
        ⟨other, isOther, earlier, follows, response, answered⟩
      rcases records other isOther with ⟨thread, rfl⟩
      exact absurd rfl
        (untouched _ (mem_recordOf.mp answered) earlier follows)

theorem accountable_sequential (inherited : Inherited good)
    (starts : ∀ memory, usableRoot config = some memory →
      good (sequentialRoot config memory) ∧
        (sequentialRoot config memory).text = root.text)
    (environment : Environment) (situation : environment.Situation)
    (moves : List
      (Move (machine environment config.effectiveQueueCapacity))) :
    Accountable good root config
      (Pool.log sequentialResume
        (sequentialPool environment config situation) moves) := by
  have sound :
      Noted.Sound (attesting good root config) (fun _ _ => True)
        (fun state notes => Accounted good root state notes)
        ⟨sequentialPool environment config situation,
          List.replicate 1 []⟩ := by
    refine ⟨.cons (accounts_walkSequential inherited starts) .nil, ?_, ?_⟩
    · intro directory queued
      cases queued
    · intro held member begun
      exact absurd begun (not_begun_nil member)
  exact accountable_of_sound resumes_sequential sound moves

theorem accountable_parallel (inherited : Inherited good)
    {memory : List Byte} (isGood : good (rootEntry config memory))
    (environment : Environment) (workers : Nat)
    (situation : environment.Situation)
    (moves : List
      (Move (machine environment config.effectiveQueueCapacity))) :
    Accountable good (rootEntry config memory) config
      (Pool.log (workerResume config)
        (parallelPool environment config memory workers situation)
        moves) := by
  have sound :
      Noted.Sound (attesting good (rootEntry config memory) config)
        (fun _ _ => True)
        (fun state notes =>
          Accounted good (rootEntry config memory) state notes)
        ⟨parallelPool environment config memory workers situation,
          List.replicate workers []⟩ := by
    refine ⟨.replicate accounts_workerStart _ workers, ?_, ?_⟩
    · intro directory queued
      rw [List.mem_singleton.mp queued]
      exact ⟨isGood, Or.inl rfl⟩
    · intro held member begun
      exact absurd begun (not_begun_nil member)
  exact accountable_of_sound (resumes_attesting inherited) sound moves

end Runs

end BcIo.Walk
