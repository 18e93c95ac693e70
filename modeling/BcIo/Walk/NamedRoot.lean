import BcIo.Walk.Containment
import BcIo.Walk.Status

/-!
# The root that the caller named

The root of a walk is given by a pointer and a length.  `bc_io_walk_parallel`
copies that many bytes and terminates the copy; `bc_io_walk_sequential` hands the
pointer itself to `open`, which reads on to the first zero, and uses the length
only for the paths that it reports.
-/

namespace BcIo.Walk

open BcIo.File
open BcIo.Foundation.Bookkeeping
open BcIo.Foundation.Interaction
open BcIo.Foundation.Recording
open BcIo.Foundation.WorkerPool

/-- The configuration with what stands from its `root` pointer on. -/
def Config.rootedAt (config : Config) (memory : List Byte) : Config :=
  { config with root := some memory }

/-- The path that an operation reports as that of an entry. -/
def Op.reported : Op → Option Path
  | .outside (.filter entry) => some entry.absolutePath
  | .outside (.visit entry) => some entry.absolutePath
  | .outside (.shouldDescend entry) => some entry.absolutePath
  | .outside (.onError path .stat _) => some path
  | _ => none

/--
The first directory that is opened is `root`, and what is reported are entries
of directories: the path without its last component has been opened, and the
last component has been read from there.
-/
structure WalksRoot (root : Path) (log : List (Event Op Op.Response)) :
    Prop where
  first : ∀ before event after path noFollow,
    log = before ++ event :: after →
    event.op = .outside (.openDirectory path noFollow) →
    (∀ earlier ∈ before, ∀ path noFollow,
      earlier.op ≠ .outside (.openDirectory path noFollow)) →
    path = root
  listed : ∀ before event after path,
    log = before ++ event :: after → event.op.reported = some path →
    ∃ directory dirent,
      path = directory ++ slash :: dirent.name.bytes ∧
        (∃ noFollow entries,
          ⟨event.thread, .outside (.openDirectory directory noFollow),
            .ok entries⟩ ∈ before) ∧
        ∃ index,
          ⟨event.thread, .outside (.direntReaderNext directory index),
            .entry dirent⟩ ∈ before

/-- Walkable directories lead to walkable directories. -/
theorem inherited_walkable : Inherited Walkable :=
  fun _ _ walkable offspring => (walkable.child offspring).1

/-- What is reported has been traced back to a record. -/
theorem traced_of_reported {good : Directory → Prop} {root : Directory}
    {config : Config} {held : Record} {op : Op} {path : Path}
    (attested : Attested good root config held op)
    (reported : op.reported = some path) : Traced good held path := by
  have traced : ∀ {entry : Entry}, op.presented = some entry →
      Traced good held entry.absolutePath := by
    intro entry presented
    rcases presented_of_attested attested presented with
      ⟨directory, dirent, origin, joins, _⟩
    exact ⟨directory, dirent, origin, joins⟩
  cases op with
  | shared access => cases reported
  | outside call =>
      cases call with
      | filter entry =>
          cases reported
          exact traced rfl
      | visit entry =>
          cases reported
          exact traced rfl
      | shouldDescend entry =>
          cases reported
          exact traced rfl
      | onError path stage errno =>
          cases stage with
          | stat =>
              cases reported
              exact attested rfl
          | _ => cases reported
      | _ => cases reported

/-- A walk of walkable directories that can account for what it does. -/
theorem walksRoot_of_accountable {root : Directory} {config : Config}
    {log : List (Event Op Op.Response)}
    (accountable : Accountable Walkable root config log) :
    WalksRoot root.text log := by
  refine ⟨accountable.first, ?_⟩
  intro before event after path split reported
  rcases traced_of_reported
      (accountable.attested before event after split) reported with
    ⟨directory, dirent,
      ⟨⟨walkable, noFollow, entries, opened⟩, index, read⟩, joins⟩
  refine ⟨directory.text, dirent, ?_,
    ⟨noFollow, entries, mem_recordOf.mp opened⟩,
    index, mem_recordOf.mp read⟩
  rw [pathJoin_of_proper walkable.proper] at joins
  split at joins
  · rw [← Option.some.inj joins, joined_of_ne_nil walkable.named,
      walkable.proper.text]
  · cases joins

/-! ## Where the C string ends -/

/-- The C string goes on behind a slice that no zero follows. -/
theorem cString_ne_take {memory : List Byte} {length : Nat} {byte : Byte}
    (noNul : (0 : Byte) ∉ memory.take length)
    (behind : memory[length]? = some byte) (goesOn : byte ≠ 0) :
    cString memory ≠ memory.take length := by
  rcases List.getElem?_eq_some_iff.mp behind with ⟨inside, isByte⟩
  have split :
      memory = memory.take length ++ byte :: memory.drop (length + 1) := by
    conv_lhs => rw [← List.take_append_drop length memory]
    rw [List.drop_eq_getElem_cons inside, isByte]
  have free : ∀ other ∈ memory.take length,
      decide (other ≠ (0 : Byte)) = true := by
    intro other member
    apply decide_eq_true
    rintro rfl
    exact noNul member
  intro same
  have longer := congrArg List.length same
  rw [cString, split, List.takeWhile_append_of_pos free, ← split,
    List.takeWhile_cons, if_pos (decide_eq_true goesOn),
    List.length_append, List.length_cons] at longer
  omega

/-! ## The first opening of the sequential walk -/

/-- An attempt to open a directory, as a static world answers it. -/
def World.opening (world : World) (path : Path) (noFollow : Bool) :
    Event Op Op.Response :=
  ⟨0, .outside (.openDirectory path noFollow),
    world.answer (.openDirectory path noFollow)⟩

/-- Up to its first opening, a walk only looks whether it is to stop. -/
theorem first_opening {config : Config} {memory : List Byte}
    (usable : usableRoot config = some memory) (world : World) :
    ∃ moves before,
      Pool.log sequentialResume
          (sequentialPool world.environment config ()) moves =
        before ++
          [world.opening (cString memory) (!config.followSymlinks)] ∧
      ∀ earlier ∈ before, ∀ path noFollow,
        earlier.op ≠ .outside (.openDirectory path noFollow) := by
  have begins :
      walkSequential config =
        sequentialBody config (sequentialRecurse config 4095)
            (sequentialRoot config memory) >>= fun _ => do
          let visitFailed ← shared .loadVisitFailed
          return !visitFailed := by
    unfold walkSequential
    rw [usable]
    rfl
  cases stops : config.hasShouldStopCheck with
  | false =>
      refine ⟨[firstTurn _ _, firstTurn _ _],
        [⟨0, .shared .loadVisitFailed, false⟩], ?_, by simp⟩
      rw [sequentialPool, begins, sequentialBody, sequentialHalted,
        shouldStop, stops]
      rfl
  | true =>
      refine ⟨[firstTurn _ _, firstTurn _ _, firstTurn _ _],
        [⟨0, .shared .loadVisitFailed, false⟩,
          ⟨0, .outside .shouldStopCheck, false⟩], ?_, by simp⟩
      rw [sequentialPool, begins, sequentialBody, sequentialHalted,
        shouldStop, stops]
      rfl

/-! ## Both walks -/

section Root

variable {config : Config} {buffer : List Byte}
  (inside : config.rootLength ≤ buffer.length)
  (noNul : (0 : Byte) ∉ buffer.take config.rootLength)
  (long : 0 < config.rootLength)
  (short : config.rootLength < maxPathLength)

include inside noNul long short

/-- The copy that the parallel walk makes is the root that was named. -/
theorem walkable_namedRoot (behind : List Byte) :
    Walkable (rootEntry (config.rootedAt (buffer ++ behind))
        (buffer ++ behind)) ∧
      (rootEntry (config.rootedAt (buffer ++ behind))
        (buffer ++ behind)).text = buffer.take config.rootLength := by
  have slice :
      (buffer ++ behind).take config.rootLength =
        buffer.take config.rootLength :=
    List.take_append_of_le_length inside
  have names :
      NamesRoot (buffer ++ behind)
        (config.rootedAt (buffer ++ behind)).rootLength := by
    refine ⟨?_, ?_⟩
    · rw [List.length_append]
      exact Nat.le_trans inside (Nat.le_add_right _ _)
    · change (0 : Byte) ∉ (buffer ++ behind).take config.rootLength
      rw [slice]
      exact noNul
  refine ⟨(walkable_rootEntry long short names).1, ?_⟩
  rcases proper_rootEntry short names with ⟨proper, path⟩
  exact (proper.text.trans path).trans slice

/-- A terminated root is the root that was named, whatever stands behind it. -/
theorem walkable_terminatedRoot (behind : List Byte)
    (usable : usableRoot (config.rootedAt (buffer ++ behind)) =
      some (buffer ++ behind))
    (isNul : buffer[config.rootLength]? = some 0) :
    Walkable (sequentialRoot (config.rootedAt (buffer ++ behind))
        (buffer ++ behind)) ∧
      (sequentialRoot (config.rootedAt (buffer ++ behind))
        (buffer ++ behind)).text = buffer.take config.rootLength := by
  have terminated :
      Terminated (buffer ++ behind)
        (config.rootedAt (buffer ++ behind)).rootLength := by
    constructor
    · change (buffer ++ behind)[config.rootLength]? = some 0
      rw [List.getElem?_append_left
        (List.getElem?_eq_some_iff.mp isNul).1]
      exact isNul
    · change (0 : Byte) ∉ (buffer ++ behind).take config.rootLength
      rw [List.take_append_of_le_length inside]
      exact noNul
  rcases walkable_namedRoot inside noNul long short behind with
    ⟨walkable, text⟩
  rw [rootEntry_eq usable terminated] at walkable text
  exact ⟨walkable, text⟩

end Root

theorem usableRoot_rootedAt {config : Config}
    (long : 0 < config.rootLength)
    (short : config.rootLength < maxPathLength)
    (visits : config.hasVisit = true)
    (remembers : config.hasMainMemoryContext = true)
    (memory : List Byte) :
    usableRoot (config.rootedAt memory) = some memory := by
  have length :
      ¬ (config.rootLength = 0 ∨ maxPathLength ≤ config.rootLength) := by
    omega
  simp [usableRoot, Config.rootedAt, length, visits, remembers]

/--
Where no zero follows the slice in its buffer, a byte that is not zero may stand
behind it.
-/
theorem follows_of_unterminated {buffer : List Byte} {length : Nat}
    (inside : length ≤ buffer.length)
    (unterminated : buffer[length]? ≠ some 0) :
    ∃ byte, (buffer ++ [1])[length]? = some byte ∧ byte ≠ 0 := by
  rcases Nat.lt_or_eq_of_le inside with isWithin | atEnd
  · refine ⟨buffer[length], ?_, ?_⟩
    · rw [List.getElem?_append_left isWithin]
      exact List.getElem?_eq_getElem isWithin
    · intro isNul
      rw [List.getElem?_eq_getElem isWithin, isNul] at unterminated
      exact unterminated rfl
  · refine ⟨1, ?_, by decide⟩
    rw [atEnd, List.getElem?_append_right (Nat.le_refl _), Nat.sub_self]
    rfl

/-- Then a sequential walk can start with a longer path. -/
theorem not_walksRoot_of_unterminated {config : Config}
    {buffer : List Byte} (inside : config.rootLength ≤ buffer.length)
    (noNul : (0 : Byte) ∉ buffer.take config.rootLength)
    (unterminated : buffer[config.rootLength]? ≠ some 0)
    (usable : usableRoot (config.rootedAt (buffer ++ [1])) =
      some (buffer ++ [1])) :
    ∃ moves,
      ¬ WalksRoot (buffer.take config.rootLength)
        (Pool.log sequentialResume
          (sequentialPool nestedWorld.environment
            (config.rootedAt (buffer ++ [1])) ()) moves) := by
  rcases follows_of_unterminated inside unterminated with
    ⟨byte, isByte, goesOn⟩
  have slice :
      (buffer ++ [1]).take config.rootLength =
        buffer.take config.rootLength :=
    List.take_append_of_le_length inside
  rcases first_opening usable nestedWorld with
    ⟨moves, before, logged, untouched⟩
  refine ⟨moves, ?_⟩
  intro walks
  have opensRoot :=
    walks.first before _ [] _ _ logged rfl untouched
  rw [← slice] at noNul opensRoot
  exact cString_ne_take noNul isByte goesOn opensRoot

/--
The root is `root_length` bytes of a buffer, without a zero among them.  The
parallel walk always walks this root; the sequential walk does so, whatever
stands behind the buffer and whatever the file system answers, exactly if a zero
follows these bytes in the buffer.
-/
theorem walks_named_root_iff (config : Config) (buffer : List Byte)
    (inside : config.rootLength ≤ buffer.length)
    (noNul : (0 : Byte) ∉ buffer.take config.rootLength)
    (long : 0 < config.rootLength)
    (short : config.rootLength < maxPathLength)
    (visits : config.hasVisit = true)
    (remembers : config.hasMainMemoryContext = true) :
    ((∀ behind environment situation moves,
        WalksRoot (buffer.take config.rootLength)
          (Pool.log sequentialResume
            (sequentialPool environment
              (config.rootedAt (buffer ++ behind)) situation) moves)) ↔
      buffer[config.rootLength]? = some 0) ∧
      ∀ behind environment workers situation pool,
        dispatchParallel environment (config.rootedAt (buffer ++ behind))
          workers situation = some pool →
        ∀ moves,
          WalksRoot (buffer.take config.rootLength)
            (Pool.log (workerResume (config.rootedAt (buffer ++ behind)))
              pool moves) := by
  have usable := usableRoot_rootedAt long short visits remembers
  refine ⟨⟨?_, ?_⟩, ?_⟩
  · intro walks
    by_contra unterminated
    rcases not_walksRoot_of_unterminated inside noNul unterminated
        (usable (buffer ++ [1])) with ⟨moves, strays⟩
    exact strays (walks [1] nestedWorld.environment () moves)
  · intro isNul behind environment situation moves
    rcases walkable_terminatedRoot inside noNul long short behind
        (usable (buffer ++ behind)) isNul with ⟨walkable, text⟩
    rw [← text]
    refine walksRoot_of_accountable
      (accountable_sequential inherited_walkable ?_ environment situation
        moves)
    intro memory isUsable
    rw [usable (buffer ++ behind)] at isUsable
    cases isUsable
    exact ⟨walkable, rfl⟩
  · intro behind environment workers situation pool dispatched moves
    rcases dispatchParallel_some dispatched with ⟨memory, isUsable, rfl⟩
    rw [usable (buffer ++ behind)] at isUsable
    cases isUsable
    rcases walkable_namedRoot inside noNul long short behind with
      ⟨walkable, text⟩
    rw [← text]
    exact walksRoot_of_accountable
      (accountable_parallel inherited_walkable walkable environment workers
        situation moves)

/-- A buffer that holds `rx`, of which the first byte is named as the root. -/
def slicedBuffer : List Byte := [114, 120, 0]

/--
A parallel walk of the slice opens `r`, and walks the root that was named; so
does a sequential walk of `r` with a zero behind it.
-/
theorem walks_named_root_iff_slice :
    (∃ event ∈ Pool.log (workerResume (nestedConfig.rootedAt slicedBuffer))
          (parallelPool nestedWorld.environment
            (nestedConfig.rootedAt slicedBuffer) slicedBuffer 1 ())
          (List.replicate 20 (firstTurn nestedWorld 1)),
        event.op = .outside (.openDirectory [114] true)) ∧
      WalksRoot [114]
        (Pool.log (workerResume (nestedConfig.rootedAt slicedBuffer))
          (parallelPool nestedWorld.environment
            (nestedConfig.rootedAt slicedBuffer) slicedBuffer 1 ())
          (List.replicate 20 (firstTurn nestedWorld 1))) ∧
      WalksRoot [114]
        (Pool.log sequentialResume
          (sequentialPool nestedWorld.environment
            (nestedConfig.rootedAt [114, 0]) ())
          (List.replicate 20 (firstTurn nestedWorld 1))) := by
  have opens :
      Op.outside (.openDirectory [114] true) ∈
        (Pool.log (workerResume (nestedConfig.rootedAt slicedBuffer))
          (parallelPool nestedWorld.environment
            (nestedConfig.rootedAt slicedBuffer) slicedBuffer 1 ())
          (List.replicate 20 (firstTurn nestedWorld 1))).map Event.op := by
    decide +kernel
  refine ⟨List.mem_map.mp opens, ?_, ?_⟩
  · have walks :=
      walks_named_root_iff nestedConfig slicedBuffer (by decide)
        (by decide) (by decide) (by decide) rfl rfl
    exact walks.2 [] nestedWorld.environment 1 () _ rfl _
  · have walks :=
      walks_named_root_iff nestedConfig [114, 0] (by decide) (by decide)
        (by decide) (by decide) rfl rfl
    exact walks.1.mpr rfl [] nestedWorld.environment () _

/-- There is a file `b` in the directory `rx`, and nothing in `r`. -/
def slicedWorld : World :=
  { nestedWorld with
    listing := fun path =>
      if path = [114, 120] then ⟨[nestedFile], none⟩ else ⟨[], none⟩ }

/-- The calls of a sequential walk of the slice. -/
def slicedLog : List (Event Op Op.Response) :=
  Pool.log sequentialResume
    (sequentialPool slicedWorld.environment
      (nestedConfig.rootedAt slicedBuffer) ())
    (List.replicate 12 (firstTurn slicedWorld 1))

/--
A sequential walk of the slice opens `rx` instead of `r`; it visits `r/b`, which
is no entry of a directory that it has listed.
-/
theorem named_root_not_walked :
    ¬ WalksRoot [114] slicedLog ∧
      (∃ event ∈ slicedLog,
        event.op = .outside (.openDirectory [114, 120] true)) ∧
      (∃ event ∈ slicedLog, event.op.reported = some [114, 47, 98]) ∧
      ∀ event ∈ slicedLog, ∀ noFollow,
        event.op ≠ .outside (.openDirectory [114] noFollow) := by
  have opens :
      Op.outside (.openDirectory [114, 120] true) ∈
        slicedLog.map Event.op := by
    decide +kernel
  have reports :
      some [114, 47, 98] ∈
        slicedLog.map fun event => event.op.reported := by
    decide +kernel
  refine ⟨?_, List.mem_map.mp opens, List.mem_map.mp reports, ?_⟩
  · intro walks
    have opensRoot :=
      walks.first [⟨0, .shared .loadVisitFailed, false⟩]
        (slicedWorld.opening [114, 120] true) _ _ _ rfl rfl (by simp)
    exact absurd opensRoot (by decide)
  · decide +kernel

end BcIo.Walk
