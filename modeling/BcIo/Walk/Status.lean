import BcIo.Walk.Evidence

/-!
# Entries that carry a status

`stat_populated` says that the fields of an entry come from its status.  They are
filled in on two ways: `bc_io_file_stat_if_unknown` for a record without a type,
and `fstatat` for the others.  The first one hands out no mode.
-/

namespace BcIo.Walk

open BcIo.File
open BcIo.Foundation.Interaction
open BcIo.Foundation.Recording
open BcIo.Foundation.WorkerPool

/--
Directories, records and statuses are those of a world that does not change;
what the callbacks answer, which allocations fail and which listings break off
is left open.
-/
structure World.Backs (world : World) (environment : Environment) :
    Prop where
  opens : ∀ situation choice path noFollow entries,
    (environment.answer situation choice
      (.openDirectory path noFollow)).1 = .ok entries →
    world.openError path noFollow = none
  reads : ∀ situation choice path index dirent,
    (environment.answer situation choice
      (.direntReaderNext path index)).1 = .entry dirent →
    dirent ∈ (world.listing path).entries
  stats : ∀ situation choice path name noFollow,
    (environment.answer situation choice
      (.fstatat path name noFollow)).1 = world.stat path name noFollow

/-- A static world backs its own environment. -/
theorem World.backs_environment (world : World) :
    world.Backs world.environment where
  opens := by
    intro _ _ path noFollow entries opened
    simp only [World.answer] at opened
    split at opened
    · cases opened
    · assumption
  reads := by
    intro _ _ path index dirent read
    simp only [World.answer] at read
    split at read
    · rename_i found
      cases read
      exact List.mem_of_getElem? found
    · split at read
      · cases read
      · cases read
  stats _ _ _ _ _ := rfl

/-- The entry that is passed to `filter`, `visit` or `should_descend`. -/
def Op.presented : Op → Option Entry
  | .outside (.filter entry) => some entry
  | .outside (.visit entry) => some entry
  | .outside (.shouldDescend entry) => some entry
  | _ => none

/-- What is passed to a callback has been presented with evidence. -/
theorem presented_of_attested {good : Directory → Prop}
    {root : Directory} {config : Config} {held : Record} {op : Op}
    {entry : Entry} (attested : Attested good root config held op)
    (presented : op.presented = some entry) :
    Presented good config held entry := by
  cases op with
  | shared access => cases presented
  | outside call =>
      cases call with
      | filter shown =>
          cases presented
          exact attested
      | visit shown =>
          cases presented
          exact attested
      | shouldDescend shown =>
          cases presented
          exact attested
      | _ => cases presented

/-- Every field of an entry that tells of its status is that of `stat`. -/
structure Truthful (entry : Entry) (stat : Stat) : Prop where
  size : entry.fileSize = stat.size
  device : entry.deviceId = stat.device
  inode : entry.inodeNumber = stat.inode
  modificationTime : entry.modificationTimeSeconds = stat.modificationTime
  mask : entry.permissionMask = stat.permissionMask

/-- The root, or a directory that is opened under the path of an entry. -/
def Located (root directory : Directory) : Prop :=
  directory = root ∨ directory.text = cString (directory.path ++ [0])

/-- Below the root every directory is opened under its path. -/
theorem inherited_located (root : Directory) :
    Inherited (Located root) := by
  intro directory entry _ offspring
  refine Or.inr ?_
  rw [path_of_offspring offspring]
  rfl

/--
The entry is that of a record in the world, with the status that the walk asks
for on account of this record.
-/
structure StatusOf (world : World) (config : Config)
    (root directory : Directory) (dirent : Dirent) (stat : Stat)
    (entry : Entry) : Prop where
  located : Located root directory
  opened : ∃ noFollow, world.openError directory.text noFollow = none
  listed : dirent ∈ (world.listing directory.text).entries
  joined : pathJoin maxPathLength directory.path dirent.name.bytes =
    some entry.absolutePath
  status : world.stat directory.text dirent.name
    (dirent.unfollowed config) = .ok stat

theorem Describes.truthful_iff {config : Config} {held : Record}
    {directory : Directory} {dirent : Dirent} {entry : Entry} {stat : Stat}
    (describes : Describes config held directory dirent entry stat) :
    Truthful entry stat ↔
      dirent.dType ≠ dtUnknown ∨ stat.permissionMask = 0 := by
  have mask := describes.mask
  constructor
  · intro truthful
    by_cases unknown : dirent.dType = dtUnknown
    · rw [if_pos unknown, truthful.mask] at mask
      exact Or.inr mask
    · exact Or.inl unknown
  · intro known
    refine ⟨describes.size, describes.device, describes.inode,
      describes.modificationTime, ?_⟩
    rw [mask]
    split
    · rename_i unknown
      rcases known with known | unreadable
      · exact absurd unknown known
      · exact unreadable.symm
    · rfl

section Logs

variable {world : World} {environment : Environment} {config : Config}
  {capacity : Nat} {resume : Bool → Option (Action Bool)}
  {pool : Pool (machine environment capacity) Bool}
  {moves : List (Move (machine environment capacity))}

/-- What a record of a log says a call was answered, the environment answered. -/
theorem answered_of_record {before after : List (Event Op Op.Response)}
    {thread : Nat} {call : Call} {response : call.Response}
    (split : Pool.log resume pool moves = before ++ after)
    (recorded : Answers (recordOf thread before) call response) :
    ∃ situation choice,
      (environment.answer situation choice call).1 = response := by
  have logged :
      (⟨thread, .outside call, response⟩ : Event Op Op.Response) ∈
        Pool.log resume pool moves := by
    rw [split]
    exact List.mem_append_left _ (mem_recordOf.mp recorded)
  rcases Pool.response_of_logged resume logged with ⟨_, _, answered⟩
  exact ⟨_, _, answered.symm⟩

/-- Where a presented entry with a status comes from. -/
theorem statusOf_of_accountable (backs : world.Backs environment)
    {root : Directory}
    (accountable :
      Accountable (Located root) root config (Pool.log resume pool moves))
    {event : Event Op Op.Response}
    (logged : event ∈ Pool.log resume pool moves) {entry : Entry}
    (presented : event.op.presented = some entry)
    (populated : entry.statPopulated = true) :
    ∃ directory dirent stat,
      StatusOf world config root directory dirent stat entry ∧
        (Truthful entry stat ↔
          dirent.dType ≠ dtUnknown ∨ stat.permissionMask = 0) := by
  rcases List.append_of_mem logged with ⟨before, after, split⟩
  have attested := accountable.attested before event after split
  rcases presented_of_attested attested presented with
    ⟨directory, dirent, origin, joins, described⟩
  rcases described populated with ⟨stat, describes⟩
  rcases origin with ⟨⟨located, noFollow, entries, opened⟩, index, read⟩
  rcases answered_of_record split opened with ⟨_, _, opens⟩
  rcases answered_of_record split read with ⟨_, _, reads⟩
  rcases answered_of_record split describes.asked with ⟨_, _, stats⟩
  refine ⟨directory, dirent, stat,
    ⟨located, ⟨noFollow, ?_⟩, ?_, joins, ?_⟩, describes.truthful_iff⟩
  · exact backs.opens _ _ _ _ _ opens
  · exact backs.reads _ _ _ _ _ reads
  · rw [← backs.stats]
    exact stats

end Logs

/--
In both walks over a world that does not change, whatever the callbacks do: an
entry that is presented with `stat_populated` set comes from a record of a
directory, and all its fields are those of the status that was asked for, exactly
if the record says the type or the status has no permission bits.
-/
theorem presented_status_truthful_iff {world : World}
    {environment : Environment} (backs : world.Backs environment)
    (config : Config) (situation : environment.Situation) :
    (∀ moves, ∀ event ∈ Pool.log sequentialResume
          (sequentialPool environment config situation) moves,
        ∀ entry, event.op.presented = some entry →
          entry.statPopulated = true →
          ∃ directory dirent stat,
            StatusOf world config
                (sequentialRoot config (config.root.getD [])) directory
                dirent stat entry ∧
              (Truthful entry stat ↔
                dirent.dType ≠ dtUnknown ∨ stat.permissionMask = 0)) ∧
      ∀ workers pool,
        dispatchParallel environment config workers situation = some pool →
        ∀ moves, ∀ event ∈ Pool.log (workerResume config) pool moves,
          ∀ entry, event.op.presented = some entry →
            entry.statPopulated = true →
            ∃ directory dirent stat,
              StatusOf world config
                  (rootEntry config (config.root.getD [])) directory
                  dirent stat entry ∧
                (Truthful entry stat ↔
                  dirent.dType ≠ dtUnknown ∨ stat.permissionMask = 0) := by
  constructor
  · intro moves event logged entry presented populated
    have starts : ∀ memory, usableRoot config = some memory →
        Located (sequentialRoot config (config.root.getD []))
            (sequentialRoot config memory) ∧
          (sequentialRoot config memory).text =
            (sequentialRoot config (config.root.getD [])).text := by
      intro memory usable
      rw [(usableRoot_some usable).1]
      exact ⟨Or.inl rfl, rfl⟩
    exact statusOf_of_accountable backs
      (accountable_sequential (inherited_located _) starts environment
        situation moves) logged presented populated
  · intro workers pool dispatched moves event logged entry presented
      populated
    rcases dispatchParallel_some dispatched with ⟨memory, usable, rfl⟩
    rw [(usableRoot_some usable).1]
    exact statusOf_of_accountable backs
      (accountable_parallel (inherited_located _) (Or.inl rfl) environment
        workers situation moves) logged presented populated

/-- A turn of the first thread in a static world. -/
def firstTurn (world : World) (capacity : Nat) :
    Move (machine world.environment capacity) :=
  .turn 0 ((), ⟨false, 0⟩)

/-- `r/d` as `nestedWorld` has it. -/
def nestedEntry : Entry where
  absolutePath := [114, 47, 100]
  absolutePathLength := 3
  kind := .directory
  fileSize := 4096
  depth := 1
  deviceId := 1
  inodeNumber := 2
  modificationTimeSeconds := 5
  permissionMask := 0o755
  statPopulated := true

/-- With the type in its record `r/d` is presented with its status. -/
theorem presented_status_truthful_iff_nested :
    ∃ event ∈ Pool.log sequentialResume
        (sequentialPool nestedWorld.environment nestedConfig ())
        (List.replicate 10 (firstTurn nestedWorld 1)),
      event.op.presented = some nestedEntry ∧
        ∃ directory dirent stat,
          StatusOf nestedWorld nestedConfig
              (sequentialRoot nestedConfig [114, 0]) directory dirent stat
              nestedEntry ∧
            Truthful nestedEntry stat := by
  have logged :
      Op.outside (.visit nestedEntry) ∈
        (Pool.log sequentialResume
          (sequentialPool nestedWorld.environment nestedConfig ())
          (List.replicate 10 (firstTurn nestedWorld 1))).map Event.op := by
    decide +kernel
  rcases List.mem_map.mp logged with ⟨event, member, isVisit⟩
  have presented : event.op.presented = some nestedEntry := by
    rw [isVisit]
    rfl
  rcases (presented_status_truthful_iff nestedWorld.backs_environment
      nestedConfig ()).1 _ event member nestedEntry presented rfl with
    ⟨directory, dirent, stat, statusOf, truthful⟩
  refine ⟨event, member, presented, directory, dirent, stat, statusOf,
    truthful.mpr (Or.inl ?_)⟩
  exact reportsTypes_nestedWorld _ dirent statusOf.listed

/-- The file `r/b`, in a file system that does not say types. -/
def silentWorld : World where
  openError _ _ := none
  listing path :=
    if path = [114] then ⟨[⟨nestedFile.name, dtUnknown⟩], none⟩
    else ⟨[], none⟩
  stat _ _ _ := .ok ⟨1, 3, 12, 0o100644, 5⟩
  filter _ := true
  shouldDescend _ := true

/-- `r/b` as it is presented: the permissions are missing. -/
def silentEntry : Entry where
  absolutePath := [114, 47, 98]
  absolutePathLength := 3
  kind := .file
  fileSize := 12
  depth := 1
  deviceId := 1
  inodeNumber := 3
  modificationTimeSeconds := 5
  permissionMask := 0
  statPopulated := true

/--
Both walks visit `r/b` with `stat_populated` set and without its permissions,
which are `0644`: no status in this file system is the one that the entry tells.
-/
theorem presented_status_untruthful :
    silentEntry.statPopulated = true ∧
      (∀ path name noFollow stat,
        silentWorld.stat path name noFollow = .ok stat →
          ¬ Truthful silentEntry stat) ∧
      (∃ event ∈ Pool.log sequentialResume
          (sequentialPool silentWorld.environment nestedConfig ())
          (List.replicate 10 (firstTurn silentWorld 1)),
        event.op = .outside (.visit silentEntry)) ∧
      ∃ event ∈ Pool.log (workerResume nestedConfig)
          (parallelPool silentWorld.environment nestedConfig [114, 0] 1 ())
          (List.replicate 12 (firstTurn silentWorld 1)),
        event.op = .outside (.visit silentEntry) := by
  have sequential :
      Op.outside (.visit silentEntry) ∈
        (Pool.log sequentialResume
          (sequentialPool silentWorld.environment nestedConfig ())
          (List.replicate 10 (firstTurn silentWorld 1))).map Event.op := by
    decide +kernel
  have parallel :
      Op.outside (.visit silentEntry) ∈
        (Pool.log (workerResume nestedConfig)
          (parallelPool silentWorld.environment nestedConfig [114, 0] 1 ())
          (List.replicate 12 (firstTurn silentWorld 1))).map Event.op := by
    decide +kernel
  refine ⟨rfl, ?_, List.mem_map.mp sequential, List.mem_map.mp parallel⟩
  intro path name noFollow stat isStat truthful
  cases isStat
  exact absurd truthful.mask (by decide)

end BcIo.Walk
