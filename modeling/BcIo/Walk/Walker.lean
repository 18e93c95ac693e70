import BcIo.Walk.Calls

/-!
# The two walkers

`bc_io_walk_sequential.c` and `bc_io_walk_parallel.c` as programs.  The body of
their listing loops is the same text up to the name of the state record, apart
from what happens to a directory that is to be descended into; it is given once,
as `handleEntry`, with that last step as a parameter.
-/

namespace BcIo.Walk

open BcIo.File
open BcIo.Foundation.Interaction

/-! ## One entry of a listing -/

/-- `bc_io_walk_report_error`, and its sequential copy. -/
def reportError (config : Config) (path : Path) (stage : Stage)
    (errno : Errno) : Action Unit := do
  shared (.count .errorsEncountered)
  if config.hasOnError then outside (.onError path stage errno)
  else return ()

/-- `bc_io_walk_should_stop`, and its sequential copy. -/
def shouldStop (config : Config) : Action Bool :=
  if config.hasShouldStopCheck then outside .shouldStopCheck
  else return false

/-- `bc_io_walk_entry_kind_from_type`, and its sequential copy. -/
def entryKindFromType : EntryType → EntryKind
  | .file => .file
  | .directory => .directory
  | .symlink => .symlink
  | .other => .other

/-- The local variables that classification fills in. -/
structure Resolved where
  entryKind : EntryKind
  fileSize : Nat
  deviceId : UInt64
  inodeNumber : UInt64
  modificationTime : Int
  permissionMask : Nat
  statPopulated : Bool
  deriving DecidableEq, Repr

/--
The type of an entry from its record, or from `bc_io_file_stat_if_unknown`,
which never follows a link and hands out no mode.
-/
def resolveType (config : Config) (directory : Directory)
    (childPath : Path) (dirent : Dirent) : Action (Option Resolved) :=
  if dirent.dType ≠ dtUnknown then
    return some
      ⟨entryKindFromType (dtypeToEntryType dirent.dType), 0, 0, 0, 0, 0,
        false⟩
  else do
    match ← outside (.fstatat directory.text dirent.name true) with
    | .error errno => do
        reportError config childPath .stat errno
        return none
    | .ok stat =>
        return some
          ⟨entryKindFromType stat.entryType, stat.size, stat.device,
            stat.inode, stat.modificationTime, 0, true⟩

/-- `needs_stat`. -/
def needsStat (config : Config) (resolved : Resolved) : Bool :=
  !resolved.statPopulated &&
    (resolved.entryKind = .file || resolved.entryKind = .directory ||
      (resolved.entryKind = .symlink && config.followSymlinks))

/-- What a link that is followed counts as. -/
def followedKind (config : Config) (kind : EntryKind) (stat : Stat) :
    EntryKind :=
  if kind = .symlink ∧ config.followSymlinks = true then
    if stat.isRegular then .file
    else if stat.isDirectory then .directory
    else kind
  else
    kind

/-- The `fstatat` that fills in what the record did not say. -/
def resolveStat (config : Config) (directory : Directory)
    (childPath : Path) (dirent : Dirent) (resolved : Resolved) :
    Action (Option Resolved) :=
  if needsStat config resolved then do
    match ←
        outside
          (.fstatat directory.text dirent.name (!config.followSymlinks))
      with
    | .error errno => do
        reportError config childPath .stat errno
        return none
    | .ok stat =>
        return some
          ⟨followedKind config resolved.entryKind stat, stat.size,
            stat.device, stat.inode, stat.modificationTime,
            stat.permissionMask, true⟩
  else
    return some resolved

/-- The entry that the callbacks see. -/
def entryOf (directory : Directory) (childPath : Path)
    (resolved : Resolved) : Entry where
  absolutePath := childPath
  absolutePathLength := childPath.length
  kind := resolved.entryKind
  fileSize := resolved.fileSize
  depth := sizeAdd directory.depth 1
  deviceId := resolved.deviceId
  inodeNumber := resolved.inodeNumber
  modificationTimeSeconds := resolved.modificationTime
  permissionMask := resolved.permissionMask
  statPopulated := resolved.statPopulated

/-- `current_entry.name[0] == '.'`. -/
def Dirent.hidden (dirent : Dirent) : Bool :=
  dirent.name.bytes.head? = some dot

/-- From a record to the entry, unless the entry is skipped. -/
def examineEntry (config : Config) (directory : Directory)
    (dirent : Dirent) : Action (Option Entry) :=
  if dirent.hidden && !config.includeHidden then
    return none
  else
    match pathJoin maxPathLength directory.path dirent.name.bytes with
    | none => do
        reportError config directory.text .pathTooLong Errno.enametoolong
        return none
    | some childPath => do
        match ← resolveType config directory childPath dirent with
        | none => return none
        | some resolved =>
            match ← resolveStat config directory childPath dirent resolved
              with
            | none => return none
            | some resolved =>
                return some (entryOf directory childPath resolved)

/-- `bc_io_walk_entry_passes_filter`, and its sequential copy. -/
def passesFilter (config : Config) (entry : Entry) : Action Bool :=
  if config.hasFilter then outside (.filter entry) else return true

/-- Whether the walk goes on after the visit. -/
def visitEntry (entry : Entry) : Action Bool := do
  if ← outside (.visit entry) then
    return true
  else do
    shared .storeVisitFailed
    return false

def wantsDescend (config : Config) (entry : Entry) : Action Bool :=
  if config.hasShouldDescend then outside (.shouldDescend entry)
  else return true

/-- The directory behind an entry, as it is recursed into or queued. -/
def Entry.directory (entry : Entry) : Directory :=
  .atPointer (entry.absolutePath ++ [0]) entry.absolutePathLength
    entry.depth

/-- The visit of a directory, which the source guards once more. -/
def visitDirectory (config : Config) (entry : Entry) : Action Bool :=
  if config.hasVisit then visitEntry entry else return true

/-- What is done with an accepted directory. -/
def enterDirectory (config : Config) (descend : Directory → Action Unit)
    (entry : Entry) : Action Bool := do
  if ← visitDirectory config entry then
    if ← wantsDescend config entry then do
      descend entry.directory
      return true
    else
      return true
  else
    return false

/-- The body of the listing loop; the result says whether the loop goes on. -/
def handleEntry (config : Config) (descend : Directory → Action Unit)
    (directory : Directory) (dirent : Dirent) : Action Bool := do
  match ← examineEntry config directory dirent with
  | none => return true
  | some entry =>
      if ← passesFilter config entry then
        match entry.kind with
        | .file => do
            shared (.count .filesVisited)
            visitEntry entry
        | .directory => enterDirectory config descend entry
        | .symlink => return true
        | .other => return true
      else do
        shared (.count .filesSkipped)
        return true

/--
The listing loop, for at most `calls` calls of the reader.  The two walks look
at different things before each call, `halted`.
-/
def listingLoop (config : Config) (halted : Action Bool)
    (descend : Directory → Action Unit) (directory : Directory) :
    Nat → Nat → Action Unit
  | 0, _ => .stuck
  | calls + 1, index => do
      if ← halted then
        return ()
      else
        match ← outside (.direntReaderNext directory.text index) with
        | .failed lastErrno =>
            reportError config directory.text .getdents64 lastErrno
        | .finished => return ()
        | .entry dirent =>
            if ← handleEntry config descend directory dirent then
              listingLoop config halted descend directory calls (index + 1)
            else
              return ()

/-! ## The sequential walk -/

/-- What the sequential walk looks at before it opens or reads. -/
def sequentialHalted (config : Config) : Action Bool := do
  if ← shared .loadVisitFailed then
    return true
  else
    shouldStop config

/-- `bc_io_walk_sequential_recurse`, with its recursive call as a parameter. -/
def sequentialBody (config : Config) (descend : Directory → Action Unit)
    (directory : Directory) : Action Unit := do
  if ← sequentialHalted config then
    return ()
  else
    match ←
        outside (.openDirectory directory.text (!config.followSymlinks))
      with
    | .error errno => reportError config directory.text .opening errno
    | .ok entries => do
        shared (.count .directoriesVisited)
        if ← outside .direntReaderCreate then do
          listingLoop config (sequentialHalted config) descend directory
            (entries + 1) 0
          outside (.closeDirectory directory.text)
        else do
          reportError config directory.text .direntReaderAlloc Errno.enomem
          outside (.closeDirectory directory.text)

/-- `bc_io_walk_sequential_recurse`, nested at most `levels` deep. -/
def sequentialRecurse (config : Config) : Nat → Directory → Action Unit
  | 0, _ => .stuck
  | levels + 1, directory =>
      sequentialBody config (sequentialRecurse config levels) directory

/-- The checks both walks make first: the memory behind a usable root. -/
def usableRoot (config : Config) : Option (List Byte) :=
  match config.root with
  | none => none
  | some memory =>
      if config.rootLength = 0 ∨ maxPathLength ≤ config.rootLength then none
      else if !config.hasVisit then none
      else if !config.hasMainMemoryContext then none
      else some memory

/--
`bc_io_walk_sequential`.  A path has room for fewer than `maxPathLength` names,
so the recursion is followed that deep.
-/
def walkSequential (config : Config) : Action Bool :=
  match usableRoot config with
  | none => return false
  | some memory => do
      sequentialRecurse config maxPathLength
        (.atPointer memory config.rootLength 0)
      let visitFailed ← shared .loadVisitFailed
      return !visitFailed

/-! ## The parallel walk -/

/-- Push a directory, or process it on the spot when the queue refuses it. -/
def enqueueDirectory (config : Config)
    (process : Directory → Action Unit) (directory : Directory) :
    Action Unit := do
  shared .raiseOutstanding
  if ← shared (.queuePush directory) then
    return ()
  else do
    shared .undoOutstanding
    if ← outside .direntReaderCreate then
      process directory
    else
      reportError config directory.text .direntReaderAlloc Errno.enomem

/-- What a worker looks at before it opens or reads. -/
def parallelHalted : Action Bool :=
  shared .loadVisitFailed

/--
`bc_io_walk_process_directory`, with what it does to a directory it is to
descend into as a parameter.
-/
def processBody (config : Config) (descend : Directory → Action Unit)
    (directory : Directory) : Action Unit := do
  if ← parallelHalted then
    return ()
  else
    match ←
        outside (.openDirectory directory.text (!config.followSymlinks))
      with
    | .error errno => reportError config directory.text .opening errno
    | .ok entries => do
        shared (.count .directoriesVisited)
        listingLoop config parallelHalted descend directory (entries + 1) 0
        outside (.closeDirectory directory.text)

/-- `bc_io_walk_process_directory`, nested at most `levels` deep. -/
def processDirectory (config : Config) : Nat → Directory → Action Unit
  | 0, _ => .stuck
  | levels + 1, directory =>
      processBody config
        (enqueueDirectory config (processDirectory config levels)) directory

/-- The C string that the worker reports when it has no reader. -/
def Config.rootText (config : Config) : Path :=
  cString (config.root.getD [])

/-- The start of `bc_io_walk_worker_task`; whether its loop is entered. -/
def workerStart (config : Config) : Action Bool := do
  if ← outside .direntReaderCreate then
    return true
  else do
    shared (.count .errorsEncountered)
    shared .storeVisitFailed
    if config.hasOnError then do
      outside (.onError config.rootText .direntReaderAlloc Errno.enomem)
      return false
    else
      return false

/-- The worker after it has popped a directory. -/
def workerProcess (config : Config) (directory : Directory) :
    Action Bool := do
  processDirectory config maxPathLength directory
  shared .finishOutstanding
  return true

/-- The worker after a pop that found nothing. -/
def workerCheck : Action Bool := do
  let outstanding ← shared .loadOutstanding
  return outstanding ≠ 0

/-- One turn of the loop of `bc_io_walk_worker_task`; whether there is a next. -/
def workerTurn (config : Config) : Action Bool := do
  if ← shouldStop config then
    return false
  else if ← parallelHalted then
    return false
  else
    match ← shared .queuePop with
    | some directory => workerProcess config directory
    | none => workerCheck

/-- `BC_IO_WALK_DEFAULT_QUEUE_CAPACITY`. -/
def defaultQueueCapacity : Nat := 16384

def Config.effectiveQueueCapacity (config : Config) : Nat :=
  if 0 < config.queueCapacity then config.queueCapacity
  else defaultQueueCapacity

/-- The root as `bc_io_walk_parallel` copies it into a queue entry. -/
def rootEntry (config : Config) (memory : List Byte) : Directory :=
  .atPointer (memory.take config.rootLength ++ [0]) config.rootLength 0

end BcIo.Walk
