import BcIo.Stream.Open

/-!
# When opening a stream fails

An opening passes through up to six calls, each with an outcome of its own.
The first part says, in terms of those outcomes alone, when it fails; the other
two what a failed opening has done to the file system, and what buffer a
successful one has.
-/

namespace BcIo.Stream

/-! ## Which outcomes decide -/

/-- The file cannot be opened. -/
def OpeningFails (world : World) (path : Path) (mode : Mode) : Prop :=
  world.fault .openFile ≠ none ∨ mode = .read ∧ world.files path = none

/-- One of the three allocations fails. -/
def AllocationFails (world : World) : Prop :=
  world.fault .poolAllocate ≠ none ∨ world.fault .arenaCreate ≠ none ∨
    world.fault .arenaAllocate ≠ none

instance (world : World) (path : Path) (mode : Mode) :
    Decidable (OpeningFails world path mode) :=
  inferInstanceAs (Decidable (_ ∨ _ ∧ _))

instance (world : World) : Decidable (AllocationFails world) :=
  inferInstanceAs (Decidable (_ ∨ _ ∨ _))

/-- `after` has what an allocation depends on, and the files, from `world`. -/
structure Kept (world after : World) : Prop where
  files : after.files = world.files
  unset : after.uninitialisedSize = world.uninitialisedSize
  poolAllocate : after.fault .poolAllocate = world.fault .poolAllocate
  arenaCreate : after.fault .arenaCreate = world.fault .arenaCreate
  arenaAllocate : after.fault .arenaAllocate = world.fault .arenaAllocate

namespace Kept

variable {world middle after : World}

theorem refl (world : World) : Kept world world :=
  ⟨rfl, rfl, rfl, rfl, rfl⟩

theorem trans (first : Kept world middle) (second : Kept middle after) :
    Kept world after :=
  ⟨second.files.trans first.files, second.unset.trans first.unset,
    second.poolAllocate.trans first.poolAllocate,
    second.arenaCreate.trans first.arenaCreate,
    second.arenaAllocate.trans first.arenaAllocate⟩

theorem allocationFails_iff (kept : Kept world after) :
    AllocationFails after ↔ AllocationFails world := by
  rw [AllocationFails, kept.poolAllocate, kept.arenaCreate,
    kept.arenaAllocate]
  rfl

theorem alignedSize_eq (kept : Kept world after) (bufferSize : Nat)
    (sourceType : SourceType) :
    alignedSize after bufferSize sourceType =
      alignedSize world bufferSize sourceType := by
  rw [alignedSize, alignedSize, kept.unset]

theorem fstat (world : World) (descriptor : Descriptor) :
    Kept world (world.fstat descriptor).2 := by
  unfold World.fstat
  split <;> exact ⟨rfl, rfl, rfl, rfl, rfl⟩

theorem fadvise (world : World) : Kept world world.fadvise.2 :=
  ⟨rfl, rfl, rfl, rfl, rfl⟩

theorem getFileSize (world : World) (descriptor : Descriptor) :
    Kept world (Io.getFileSize world descriptor).2 := by
  have stat := Kept.fstat world descriptor
  unfold Io.getFileSize
  split
  · rename_i later call
    rwa [call] at stat
  · rename_i node later call
    rw [call] at stat
    split <;> exact stat

/-- The size query in front of an allocation, where there is one. -/
theorem sizeQuery (world : World) (descriptor : Descriptor) (asked : Prop)
    [Decidable asked] :
    Kept world
      (if asked then
          let (size, world) := Io.getFileSize world descriptor
          (size, world.fadvise.2)
        else
          (none, world)).2 := by
  split
  · exact (Kept.getFileSize world descriptor).trans (Kept.fadvise _)
  · exact Kept.refl world

end Kept

section Calls

variable {world : World}

theorem poolAllocate_refused (refused : world.fault .poolAllocate ≠ none) :
    ∃ after, world.poolAllocate = (none, after) ∧
      after.files = world.files := by
  rcases Option.ne_none_iff_exists'.mp refused with ⟨errno, isErrno⟩
  simp only [World.poolAllocate, isErrno]
  exact ⟨_, rfl, rfl⟩

theorem poolAllocate_granted (granted : world.fault .poolAllocate = none) :
    ∃ block after, world.poolAllocate = (some block, after) ∧
      after.files = world.files ∧
      after.fault .arenaCreate = world.fault .arenaCreate ∧
      after.fault .arenaAllocate = world.fault .arenaAllocate := by
  simp only [World.poolAllocate, granted]
  exact ⟨_, _, rfl, rfl, rfl, rfl⟩

theorem arenaCreate_refused (refused : world.fault .arenaCreate ≠ none) :
    ∃ after, world.arenaCreate = (none, after) ∧
      after.files = world.files := by
  rcases Option.ne_none_iff_exists'.mp refused with ⟨errno, isErrno⟩
  simp only [World.arenaCreate, isErrno]
  exact ⟨_, rfl, rfl⟩

theorem arenaCreate_granted (granted : world.fault .arenaCreate = none) :
    ∃ arena after, world.arenaCreate = (some arena, after) ∧
      after.files = world.files ∧
      after.fault .arenaAllocate = world.fault .arenaAllocate := by
  simp only [World.arenaCreate, granted]
  exact ⟨_, _, rfl, rfl, rfl⟩

theorem arenaAllocate_refused (refused : world.fault .arenaAllocate ≠ none)
    (size : Nat) :
    ∃ after, world.arenaAllocate size = (none, after) ∧
      after.files = world.files := by
  rcases Option.ne_none_iff_exists'.mp refused with ⟨errno, isErrno⟩
  simp only [World.arenaAllocate, isErrno]
  exact ⟨_, rfl, rfl⟩

theorem arenaAllocate_granted (granted : world.fault .arenaAllocate = none)
    (size : Nat) :
    ∃ buffer after, world.arenaAllocate size = (some buffer, after) := by
  simp only [World.arenaAllocate, granted]
  exact ⟨_, _, rfl⟩

end Calls

/-- The two ways an allocation can go. -/
theorem allocateWithBuffer_cases (world : World) (bufferSize : Nat)
    (sourceType : SourceType) :
    (AllocationFails world ∧
      ∃ after, allocateWithBuffer world bufferSize sourceType =
          (none, after) ∧
        after.files = world.files) ∨
    (¬ AllocationFails world ∧
      ∃ allocated after, allocateWithBuffer world bufferSize sourceType =
        (some allocated, after)) := by
  unfold allocateWithBuffer AllocationFails
  dsimp only
  by_cases pool : world.fault .poolAllocate = none
  · rcases poolAllocate_granted pool with
      ⟨block, world₁, poolCall, files₁, createFault, allocateFault⟩
    rw [poolCall]
    by_cases create : world.fault .arenaCreate = none
    · rcases arenaCreate_granted (createFault.trans create) with
        ⟨arena, world₂, createCall, files₂, laterFault⟩
      dsimp only
      rw [createCall]
      by_cases allocate : world.fault .arenaAllocate = none
      · rcases arenaAllocate_granted
            (laterFault.trans (allocateFault.trans allocate))
            (alignedSize world bufferSize sourceType) with
          ⟨buffer, world₃, allocateCall⟩
        dsimp only
        rw [allocateCall]
        exact Or.inr ⟨by simp [pool, create, allocate], _, _, rfl⟩
      · rcases arenaAllocate_refused
            (by rwa [laterFault, allocateFault])
            (alignedSize world bufferSize sourceType) with
          ⟨world₃, allocateCall, files₃⟩
        dsimp only
        rw [allocateCall]
        refine Or.inl ⟨Or.inr (Or.inr allocate), _, rfl, ?_⟩
        rw [World.poolFree_files, World.arenaDestroy_files, files₃,
          files₂, files₁]
    · rcases arenaCreate_refused (by rwa [createFault]) with
        ⟨world₂, createCall, files₂⟩
      dsimp only
      rw [createCall]
      refine Or.inl ⟨Or.inr (Or.inl create), _, rfl, ?_⟩
      rw [World.poolFree_files, files₂, files₁]
  · rcases poolAllocate_refused pool with ⟨world₁, poolCall, files₁⟩
    rw [poolCall]
    exact Or.inl ⟨Or.inl pool, _, rfl, files₁⟩

/-- What a path names once it has been opened for writing. -/
def emptied : Option FileNode → FileNode
  | some (.special size) => .special size
  | _ => .regular []

/-- The file system once a path has been opened. -/
def openedFiles (world : World) (path : Path) :
    Mode → Path → Option FileNode
  | .read => world.files
  | .write =>
      Function.update world.files path (some (emptied (world.files path)))

/-- The two ways the opening of a file can go. -/
theorem ioOpenFile_cases (world : World) (path : Path) (mode : Mode) :
    (OpeningFails world path mode ∧
      ∃ after, Io.openFile world path mode = (none, after) ∧
        after.files = world.files) ∨
    (¬ OpeningFails world path mode ∧
      ∃ descriptor after,
        Io.openFile world path mode = (some descriptor, after) ∧
          Kept { world with files := openedFiles world path mode }
            after) := by
  unfold OpeningFails Io.openFile
  cases fault : world.fault .openFile with
  | some errno =>
      refine Or.inl ⟨Or.inl (Option.some_ne_none errno), ?_⟩
      cases mode <;>
        simp only [World.openRead, World.openWrite, fault] <;>
        exact ⟨_, rfl, rfl⟩
  | none =>
      cases mode with
      | read =>
          cases named : world.files path with
          | none =>
              refine Or.inl ⟨Or.inr ⟨rfl, rfl⟩, ?_⟩
              simp only [World.openRead, fault, named]
              exact ⟨_, rfl, rfl⟩
          | some node =>
              refine Or.inr ⟨by simp, ?_⟩
              simp only [World.openRead, fault, named]
              exact ⟨_, _, rfl, rfl, rfl, rfl, rfl, rfl⟩
      | write =>
          refine Or.inr ⟨by simp, ?_⟩
          simp only [World.openWrite, fault]
          refine ⟨_, _, rfl, ?_, rfl, rfl, rfl, rfl⟩
          unfold openedFiles emptied
          rfl

/-- The three ways `bc_io_stream_open_file` can go. -/
theorem openFile_cases (world : World) (path : Path) (mode : Mode)
    (bufferSize : Nat) :
    (OpeningFails world path mode ∧
      ∃ after, openFile world path mode bufferSize = (none, after) ∧
        after.files = world.files) ∨
    (¬ OpeningFails world path mode ∧ AllocationFails world ∧
      ∃ after, openFile world path mode bufferSize = (none, after) ∧
        after.files = openedFiles world path mode) ∨
    (¬ OpeningFails world path mode ∧ ¬ AllocationFails world ∧
      ∃ stream after,
        openFile world path mode bufferSize = (some stream, after) ∧
          stream.value.bufferSize = alignedSize world bufferSize .file ∧
          stream.value.buffer.length = stream.value.bufferSize) := by
  unfold openFile
  rcases ioOpenFile_cases world path mode with
    ⟨fails, after, call, files⟩ | ⟨opens, descriptor, opened, call, kept⟩
  · rw [call]
    exact Or.inl ⟨fails, after, rfl, files⟩
  refine Or.inr ?_
  rw [call]
  dsimp only
  have query := kept.trans (Kept.sizeQuery opened descriptor (mode = .read))
  generalize
      (if mode = .read then
          let (size, world) := Io.getFileSize opened descriptor
          (size, world.fadvise.2)
        else
          (none, opened)) = sized at query ⊢
  rcases sized with ⟨total, queried⟩
  have sameFailure := query.allocationFails_iff
  have sameSize := query.alignedSize_eq bufferSize .file
  rcases allocateWithBuffer_cases queried bufferSize .file with
    ⟨fails, after, allocation, files⟩ |
    ⟨succeeds, allocated, after, allocation⟩
  · refine Or.inl ⟨opens, sameFailure.mp fails, ?_⟩
    dsimp only
    rw [allocation]
    exact ⟨_, rfl, (World.close_files _).trans (files.trans query.files)⟩
  · refine Or.inr ⟨opens, fun fails => succeeds (sameFailure.mpr fails), ?_⟩
    rcases allocateWithBuffer_some allocation with ⟨_, aligned, length⟩
    dsimp only
    rw [allocation]
    exact ⟨_, _, rfl, aligned.trans sameSize, length⟩

/-- The two ways `bc_io_stream_open_file_descriptor` can go. -/
theorem openFileDescriptor_cases (world : World) (descriptor : Descriptor)
    (sourceType : SourceType) (mode : Mode) (bufferSize : Nat) :
    (AllocationFails world ∧
      (openFileDescriptor world descriptor sourceType mode bufferSize).1 =
        none) ∨
    (¬ AllocationFails world ∧
      ∃ stream after,
        openFileDescriptor world descriptor sourceType mode bufferSize =
            (some stream, after) ∧
          stream.value.bufferSize =
            alignedSize world bufferSize sourceType ∧
          stream.value.buffer.length = stream.value.bufferSize) := by
  unfold openFileDescriptor
  have query := Kept.sizeQuery world descriptor
    (sourceType = .file ∧ mode = .read)
  generalize
      (if sourceType = .file ∧ mode = .read then
          let (size, world) := Io.getFileSize world descriptor
          (size, world.fadvise.2)
        else
          (none, world)) = sized at query ⊢
  rcases sized with ⟨total, queried⟩
  have sameFailure := query.allocationFails_iff
  have sameSize := query.alignedSize_eq bufferSize sourceType
  rcases allocateWithBuffer_cases queried bufferSize sourceType with
    ⟨fails, after, allocation, _⟩ |
    ⟨succeeds, allocated, after, allocation⟩
  · refine Or.inl ⟨sameFailure.mp fails, ?_⟩
    dsimp only
    rw [allocation]
  · refine Or.inr ⟨fun fails => succeeds (sameFailure.mpr fails), ?_⟩
    rcases allocateWithBuffer_some allocation with ⟨_, aligned, length⟩
    dsimp only
    rw [allocation]
    exact ⟨_, _, rfl, aligned.trans sameSize, length⟩

/-! ## What a failed opening leaves behind -/

/-- Opening for writing does not change what a path names. -/
def AlreadyEmpty (node : Option FileNode) : Prop :=
  node = some (.regular []) ∨ ∃ size, node = some (.special size)

theorem alreadyEmpty_iff {node : Option FileNode} :
    AlreadyEmpty node ↔ some (emptied node) = node := by
  unfold AlreadyEmpty
  rcases node with _ | ⟨content⟩ | ⟨size⟩
  · simp [emptied]
  · simp [emptied, eq_comm]
  · simp [emptied]

/--
When a failed opening leaves the file system as it was: exactly if the file is
opened for reading, or cannot be opened, or has nothing to lose, or no
allocation fails.
-/
theorem failedOpen_harmless_iff (world : World) (path : Path) (mode : Mode)
    (bufferSize : Nat) :
    (∀ after, openFile world path mode bufferSize = (none, after) →
      after.files = world.files) ↔
    mode = .read ∨ world.fault .openFile ≠ none ∨
      AlreadyEmpty (world.files path) ∨ ¬ AllocationFails world := by
  rcases openFile_cases world path mode bufferSize with
    ⟨fails, after, call, files⟩ |
    ⟨opens, fails, after, call, files⟩ |
    ⟨opens, succeeds, stream, after, call, _⟩
  · rw [call]
    constructor
    · intro _
      rcases fails with fault | ⟨isRead, _⟩
      · exact Or.inr (Or.inl fault)
      · exact Or.inl isRead
    · rintro _ _ ⟨⟩
      exact files
  · have noFault : world.fault .openFile = none := by
      by_contra fault
      exact opens (Or.inl fault)
    simp only [call, Prod.mk.injEq, true_and, forall_eq', files, noFault,
      ne_eq, not_true_eq_false, fails, false_or, or_false]
    cases mode with
    | read => simp [openedFiles]
    | write =>
        simp only [openedFiles, Function.update_eq_self_iff,
          alreadyEmpty_iff, reduceCtorEq, false_or]
  · rw [call]
    constructor
    · intro _
      exact Or.inr (Or.inr (Or.inr succeeds))
    · rintro _ _ ⟨⟩

/-- A system with one file, `f`, of three bytes, where memory is used up. -/
def poolExhausted : World where
  files path := if path = [102] then some (.regular [1, 2, 3]) else none
  openFiles := []
  mappings := []
  memory _ := 0
  nextAddress := World.pageSize
  blocks := []
  arenas := []
  nextIdentity := 0
  faults kind := if kind = .poolAllocate then [some Errno.enomem] else []
  strayReleases := 0
  uninitialisedSize := 0

/-- A failed opening for writing has emptied `f`; another has created `g`. -/
theorem failedOpen_harms :
    (¬ ∀ after, openFile poolExhausted [102] .write 0 = (none, after) →
        after.files = poolExhausted.files) ∧
    ¬ ∀ after, openFile poolExhausted [103] .write 0 = (none, after) →
        after.files = poolExhausted.files := by
  constructor
  · intro unchanged
    have content := congrFun (unchanged _ rfl) [102]
    exact absurd content (by decide)
  · intro unchanged
    have created := congrFun (unchanged _ rfl) [103]
    exact absurd created (by decide)

/-! ## The buffer of an opened stream -/

/-- The size that is asked for, or the default of the source type. -/
def effectiveBufferSize (bufferSize : Nat) (sourceType : SourceType) : Nat :=
  if bufferSize = 0 then Io.defaultBufferSize sourceType else bufferSize

/--
What is promised about the buffer: its size is a positive multiple of the
alignment, is at least what is asked for and is what was allocated; and nothing
is opened if no such size is representable.
-/
def BufferPromised (bufferSize : Nat) (sourceType : SourceType)
    (opened : Option (Pooled Stream)) : Prop :=
  (∀ stream, opened = some stream →
    0 < stream.value.bufferSize ∧
      bufferAlignment ∣ stream.value.bufferSize ∧
      effectiveBufferSize bufferSize sourceType ≤
        stream.value.bufferSize ∧
      stream.value.buffer.length = stream.value.bufferSize) ∧
  ((¬ ∃ size, bufferAlignment ∣ size ∧
      effectiveBufferSize bufferSize sourceType ≤ size ∧
      size < sizeLimit) → opened = none)

theorem effectiveBufferSize_pos (bufferSize : Nat) (sourceType : SourceType) :
    0 < effectiveBufferSize bufferSize sourceType := by
  unfold effectiveBufferSize
  split
  · cases sourceType <;> decide
  · rename_i nonzero
    exact Nat.pos_of_ne_zero nonzero

/-- A size can be rounded up unless it is among the last of its range. -/
theorem exists_aligned_iff (size : Nat) :
    (∃ aligned, bufferAlignment ∣ aligned ∧ size ≤ aligned ∧
      aligned < sizeLimit) ↔ size + bufferAlignment ≤ sizeLimit := by
  have limit : sizeLimit = 2 ^ 64 := rfl
  unfold bufferAlignment
  constructor
  · rintro ⟨_, ⟨count, rfl⟩, below, fits⟩
    omega
  · intro fits
    exact ⟨(size + 63) / 64 * 64, Nat.dvd_mul_left _ _, by omega, by omega⟩

/-- A size that can be rounded up is. -/
theorem alignedSize_spec (world : World) {bufferSize : Nat}
    {sourceType : SourceType}
    (fits : effectiveBufferSize bufferSize sourceType + bufferAlignment ≤
      sizeLimit) :
    bufferAlignment ∣ alignedSize world bufferSize sourceType ∧
      effectiveBufferSize bufferSize sourceType ≤
        alignedSize world bufferSize sourceType := by
  have limit : sizeLimit = 2 ^ 64 := rfl
  change bufferAlignment ∣
      (coreAlignUp world.uninitialisedSize
        (effectiveBufferSize bufferSize sourceType) bufferAlignment).2 ∧
    effectiveBufferSize bufferSize sourceType ≤
      (coreAlignUp world.uninitialisedSize
        (effectiveBufferSize bufferSize sourceType) bufferAlignment).2
  generalize effectiveBufferSize bufferSize sourceType = size at fits ⊢
  unfold bufferAlignment at fits ⊢
  have representable : (size + 64 - 1) / 64 * 64 < sizeLimit := by
    omega
  rw [coreAlignUp, if_pos representable]
  exact ⟨Nat.dvd_mul_left _ _, by omega⟩

/-- A stream that is opened has a buffer as promised if its size fits. -/
theorem BufferPromised.of_some {world : World} {bufferSize : Nat}
    {sourceType : SourceType} {stream : Pooled Stream}
    (size : stream.value.bufferSize = alignedSize world bufferSize sourceType)
    (length : stream.value.buffer.length = stream.value.bufferSize) :
    BufferPromised bufferSize sourceType (some stream) ↔
      effectiveBufferSize bufferSize sourceType + bufferAlignment ≤
        sizeLimit := by
  unfold BufferPromised
  rw [exists_aligned_iff]
  constructor
  · intro promised
    by_contra tooLarge
    cases promised.2 tooLarge
  · intro fits
    have positive := effectiveBufferSize_pos bufferSize sourceType
    rcases alignedSize_spec world fits with ⟨aligned, enough⟩
    refine ⟨?_, fun tooLarge => absurd fits tooLarge⟩
    rintro _ ⟨⟩
    rw [length, size]
    exact ⟨Nat.lt_of_lt_of_le positive enough, aligned, enough, rfl⟩

/--
When the buffer is as promised: exactly if the size that is asked for can be
rounded up to a multiple of the alignment, or the opening fails for another
reason.
-/
theorem bufferPromised_iff (world : World) (mode : Mode) (bufferSize : Nat) :
    (∀ path,
      BufferPromised bufferSize .file
          (openFile world path mode bufferSize).1 ↔
        effectiveBufferSize bufferSize .file + bufferAlignment ≤
            sizeLimit ∨
          OpeningFails world path mode ∨ AllocationFails world) ∧
    ∀ descriptor sourceType,
      BufferPromised bufferSize sourceType
          (openFileDescriptor world descriptor sourceType mode
            bufferSize).1 ↔
        effectiveBufferSize bufferSize sourceType + bufferAlignment ≤
            sizeLimit ∨
          AllocationFails world := by
  constructor
  · intro path
    rcases openFile_cases world path mode bufferSize with
      ⟨fails, after, call, _⟩ |
      ⟨opens, fails, after, call, _⟩ |
      ⟨opens, succeeds, stream, after, call, size, length⟩
    · simp [call, BufferPromised, fails]
    · simp [call, BufferPromised, fails]
    · rw [call, BufferPromised.of_some size length]
      simp [opens, succeeds]
  · intro descriptor sourceType
    rcases openFileDescriptor_cases world descriptor sourceType mode
        bufferSize with
      ⟨fails, call⟩ | ⟨succeeds, stream, after, call, size, length⟩
    · simp [call, BufferPromised, fails]
    · rw [call, BufferPromised.of_some size length]
      simp [succeeds]

/-- The same system with memory left. -/
def nothingFails : World :=
  { poolExhausted with faults := fun _ => [] }

/--
The largest size cannot be rounded up.  The opening succeeds nevertheless, here
with a buffer of no bytes.
-/
theorem bufferPromise_broken :
    ¬ BufferPromised (2 ^ 64 - 1) .pipe
        (openFileDescriptor nothingFails 3 .pipe .write (2 ^ 64 - 1)).1 ∧
    ¬ BufferPromised (2 ^ 64 - 1) .file
        (openFile nothingFails [102] .read (2 ^ 64 - 1)).1 := by
  constructor
  · intro promised
    have positive := (promised.1 _ rfl).1
    exact absurd positive (by decide)
  · intro promised
    have positive := (promised.1 _ rfl).1
    exact absurd positive (by decide)

end BcIo.Stream
