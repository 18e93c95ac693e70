import BcIo.File.Path
import BcIo.System
import BcIo.Foundation.Interaction

/-!
# What a walk works on

The data of `bc_io_walk.h`, and the calls through which a walk acts: system
calls and callbacks, whose answers come from outside, and accesses to the state
that the workers of a parallel walk share.
-/

namespace BcIo.Walk

open BcIo.File
open BcIo.Foundation.Interaction

/-- `bc_io_walk_entry_kind_t`. -/
inductive EntryKind where
  | file
  | directory
  | symlink
  | other
  deriving DecidableEq, Repr

/-- `bc_io_walk_entry_t`. -/
structure Entry where
  absolutePath : Path
  absolutePathLength : Nat
  kind : EntryKind
  fileSize : Nat
  depth : Nat
  deviceId : UInt64
  inodeNumber : UInt64
  modificationTimeSeconds : Int
  permissionMask : Nat
  statPopulated : Bool
  deriving DecidableEq, Repr

/-- The name in a directory record, as the reader hands it out. -/
structure EntryName where
  bytes : List Byte
  nonempty : bytes ≠ []
  noSlash : slash ∉ bytes
  noNul : (0 : Byte) ∉ bytes
  notSpecial : bytes ≠ [dot] ∧ bytes ≠ [dot, dot]
  /-- It lies inside the buffer of the reader. -/
  short : bytes.length < 8192
  deriving DecidableEq, Repr

/-- `bc_io_dirent_entry_t`. -/
structure Dirent where
  name : EntryName
  dType : Byte
  deriving DecidableEq, Repr

/-- What `bc_io_dirent_reader_next` reports. -/
inductive NextEntry where
  | failed (lastErrno : Errno)
  | finished
  | entry (dirent : Dirent)
  deriving DecidableEq, Repr

/-- The `stage` texts of the error callback. -/
inductive Stage where
  | opening
  | direntReaderAlloc
  | getdents64
  | pathTooLong
  | stat
  deriving DecidableEq, Repr

def Stage.text : Stage → String
  | .opening => "open"
  | .direntReaderAlloc => "dirent-reader-alloc"
  | .getdents64 => "getdents64"
  | .pathTooLong => "path-too-long"
  | .stat => "stat"

/-- The C string at a pointer; `memory` is what stands from the pointer on. -/
def cString (memory : List Byte) : Path :=
  memory.takeWhile fun byte => byte ≠ 0

/--
A directory that is to be walked.  Its path is handed on as a pointer and a
length: `open` and the callbacks read the pointer as a C string, `text`, while
`bc_io_file_path_join` takes the bytes that the length says, `path`.
-/
structure Directory where
  text : Path
  path : Path
  depth : Nat
  deriving DecidableEq, Repr

/-- The directory whose path stands at a pointer. -/
def Directory.atPointer (memory : List Byte) (length depth : Nat) :
    Directory :=
  ⟨cString memory, memory.take length, depth⟩

/-- `bc_io_walk_config_t`; for each callback whether it is set. -/
structure Config where
  /-- What stands from the `root` pointer on, unless it is `NULL`. -/
  root : Option (List Byte)
  rootLength : Nat
  hasMainMemoryContext : Bool
  hasConcurrencyContext : Bool
  hasShouldStopCheck : Bool
  queueCapacity : Nat
  followSymlinks : Bool
  includeHidden : Bool
  hasFilter : Bool
  hasShouldDescend : Bool
  hasVisit : Bool
  hasOnError : Bool
  deriving DecidableEq, Repr

/-- The counters of `bc_io_walk_stats_t`. -/
inductive Counter where
  | filesVisited
  | directoriesVisited
  | filesSkipped
  | errorsEncountered
  deriving DecidableEq, Repr

/-! ## Calls -/

/--
Calls that are answered from outside.  An open directory is referred to by the
path it was opened under.
-/
inductive Call where
  | shouldStopCheck
  | openDirectory (path : Path) (noFollow : Bool)
  | closeDirectory (path : Path)
  | direntReaderCreate
  /-- The `index`-th call of `bc_io_dirent_reader_next` on a directory. -/
  | direntReaderNext (path : Path) (index : Nat)
  | fstatat (path : Path) (name : EntryName) (noFollow : Bool)
  | filter (entry : Entry)
  | visit (entry : Entry)
  | shouldDescend (entry : Entry)
  | onError (path : Path) (stage : Stage) (errno : Errno)
  deriving DecidableEq, Repr

/--
The type of the answer.  Listings are finite: a successful open says how many
entries the listing has at most.
-/
abbrev Call.Response : Call → Type
  | .shouldStopCheck => Bool
  | .openDirectory _ _ => Except Errno Nat
  | .closeDirectory _ => Unit
  | .direntReaderCreate => Bool
  | .direntReaderNext _ _ => NextEntry
  | .fstatat _ _ _ => Except Errno Stat
  | .filter _ => Bool
  | .visit _ => Bool
  | .shouldDescend _ => Bool
  | .onError _ _ _ => Unit

/-- Accesses to the state of the walk. -/
inductive Access where
  | loadVisitFailed
  | storeVisitFailed
  | count (counter : Counter)
  /-- `outstanding_directory_count` goes up for a directory to be pushed. -/
  | raiseOutstanding
  /-- It goes down again because the push failed. -/
  | undoOutstanding
  /-- It goes down because a popped directory has been processed. -/
  | finishOutstanding
  | loadOutstanding
  | queuePush (directory : Directory)
  | queuePop
  deriving DecidableEq, Repr

abbrev Access.Response : Access → Type
  | .loadVisitFailed => Bool
  | .storeVisitFailed => Unit
  | .count _ => Unit
  | .raiseOutstanding => Unit
  | .undoOutstanding => Unit
  | .finishOutstanding => Unit
  | .loadOutstanding => Int
  | .queuePush _ => Bool
  | .queuePop => Option Directory

/-- What a walk can do next. -/
inductive Op where
  | outside (call : Call)
  | shared (access : Access)
  deriving DecidableEq, Repr

abbrev Op.Response : Op → Type
  | .outside call => call.Response
  | .shared access => access.Response

/-- A piece of a walk. -/
abbrev Action := Program Op Op.Response

/-- Make a call. -/
def outside (call : Call) : Action call.Response :=
  Program.perform (Op.outside call)

/-- Access the state of the walk. -/
def shared (access : Access) : Action access.Response :=
  Program.perform (Op.shared access)

end BcIo.Walk
