import BcIo.File.Open
import BcIo.File.InodeSet

/-!
# Constructors that fail

What a constructor holds while it runs is the difference between the world it
was called in and the world it has reached: descriptors, mappings, pool blocks
and arenas in front of those that were live before.  Each system call extends
that difference or leaves it alone, each release takes its newest part away,
and a constructor that returns `false` has taken all of it away.
-/

namespace BcIo.File

open BcIo.Stream

/-- Live resources of the four kinds. -/
structure Holding where
  files : List OpenFile := []
  mappings : List Mapping := []
  blocks : List BlockId := []
  arenas : List ArenaId := []

/--
`after` has the resources of `world` and `holding` in front of them, and
nothing that was not live has been released in between.
-/
structure Acquired (world after : World) (holding : Holding) : Prop where
  files : after.openFiles = holding.files ++ world.openFiles
  mappings : after.mappings = holding.mappings ++ world.mappings
  blocks : after.blocks = holding.blocks ++ world.blocks
  arenas : after.arenas = holding.arenas ++ world.arenas
  released : after.strayReleases = world.strayReleases

namespace Acquired

variable {world middle after : World} {holding : Holding}

theorem refl (world : World) : Acquired world world {} :=
  ⟨rfl, rfl, rfl, rfl, rfl⟩

/-- A part that holds nothing at its end can follow any other. -/
theorem then_nothing (first : Acquired world middle holding)
    (second : Acquired middle after {}) : Acquired world after holding :=
  ⟨second.files.trans first.files, second.mappings.trans first.mappings,
    second.blocks.trans first.blocks, second.arenas.trans first.arenas,
    second.released.trans first.released⟩

/-- Reading the outcome of a call changes no resource. -/
theorem passed (held : Acquired world after holding) (kind : CallKind) :
    Acquired world (after.passed kind) holding :=
  ⟨held.files, held.mappings, held.blocks, held.arenas, held.released⟩

theorem opened {later : World} {path : Path} {descriptor : Descriptor}
    (held : Acquired world after holding)
    (call : after.openRead path = (.ok descriptor, later)) :
    ∃ node, Acquired world later
      { holding with files := ⟨descriptor, node⟩ :: holding.files } := by
  rcases World.openRead_ok call with ⟨node, _, rfl⟩
  exact ⟨node, congrArg (_ :: ·) held.files, held.mappings, held.blocks,
    held.arenas, held.released⟩

theorem refused {later : World} {path : Path} {errno : Errno}
    (held : Acquired world after holding)
    (call : after.openRead path = (.error errno, later)) :
    Acquired world later holding := by
  cases World.openRead_error call
  exact held.passed .openFile

theorem fstat {later : World} {descriptor : Descriptor}
    {node : Option FileNode} (held : Acquired world after holding)
    (call : after.fstat descriptor = (node, later)) :
    Acquired world later holding := by
  unfold World.fstat at call
  split at call <;> cases call <;> exact held.passed .fstat

/-- Closing the newest descriptor gives it back. -/
theorem closed {descriptor : Descriptor} {node : FileNode}
    {files : List OpenFile} (held : Acquired world after holding)
    (newest : holding.files = ⟨descriptor, node⟩ :: files) :
    Acquired world (after.close descriptor)
      { holding with files := files } := by
  have front :
      after.openFiles =
        ⟨descriptor, node⟩ :: (files ++ world.openFiles) := by
    rw [held.files, newest, List.cons_append]
  rw [World.close_of_head front]
  exact ⟨rfl, held.mappings, held.blocks, held.arenas, held.released⟩

theorem mapped {later : World} {node : FileNode} {size offset : Nat}
    {base : Option Address} (held : Acquired world after holding)
    (call : after.mmap node size offset = (base, later)) :
    Acquired world later
      { holding with
        mappings :=
          (base.map fun start => ⟨start, size⟩).toList ++
            holding.mappings } := by
  cases base with
  | none =>
      cases World.mmap_none call
      exact held.passed .mmap
  | some start =>
      rw [World.mmap_some call]
      exact ⟨held.files, congrArg (_ :: ·) held.mappings, held.blocks,
        held.arenas, held.released⟩

/-- Unmapping the newest mapping gives it back. -/
theorem unmapped {start : Address} {size : Nat} {mappings : List Mapping}
    (held : Acquired world after holding)
    (newest : holding.mappings = ⟨start, size⟩ :: mappings) :
    Acquired world (after.munmap start size)
      { holding with mappings := mappings } := by
  have front :
      after.mappings = ⟨start, size⟩ :: (mappings ++ world.mappings) := by
    rw [held.mappings, newest, List.cons_append]
  have live : ⟨start, size⟩ ∈ after.mappings := by
    simp [front]
  rw [World.munmap, if_pos live]
  refine ⟨held.files, ?_, held.blocks, held.arenas, held.released⟩
  simp [front]

theorem allocated {later : World} {block : Option BlockId}
    (held : Acquired world after holding)
    (call : after.poolAllocate = (block, later)) :
    Acquired world later
      { holding with blocks := block.toList ++ holding.blocks } := by
  unfold World.poolAllocate at call
  dsimp only at call
  split at call
  · cases call
    exact held.passed .poolAllocate
  · cases call
    exact ⟨held.files, held.mappings, congrArg (_ :: ·) held.blocks,
      held.arenas, held.released⟩

/-- Freeing the newest block gives it back. -/
theorem freed {block : BlockId} {blocks : List BlockId}
    (held : Acquired world after holding)
    (newest : holding.blocks = block :: blocks) :
    Acquired world (after.poolFree block)
      { holding with blocks := blocks } := by
  have front : after.blocks = block :: (blocks ++ world.blocks) := by
    rw [held.blocks, newest, List.cons_append]
  have live : block ∈ after.blocks := by
    simp [front]
  rw [World.poolFree, if_pos live]
  refine ⟨held.files, held.mappings, ?_, held.arenas, held.released⟩
  simp [front]

theorem arenaCreated {later : World} {arena : Option ArenaId}
    (held : Acquired world after holding)
    (call : after.arenaCreate = (arena, later)) :
    Acquired world later
      { holding with arenas := arena.toList ++ holding.arenas } := by
  unfold World.arenaCreate at call
  dsimp only at call
  split at call
  · cases call
    exact held.passed .arenaCreate
  · cases call
    exact ⟨held.files, held.mappings, held.blocks,
      congrArg (_ :: ·) held.arenas, held.released⟩

theorem arenaAllocated {later : World} {size : Nat}
    {buffer : Option (List Byte)} (held : Acquired world after holding)
    (call : after.arenaAllocate size = (buffer, later)) :
    Acquired world later holding := by
  unfold World.arenaAllocate at call
  dsimp only at call
  split at call <;> cases call <;> exact held.passed .arenaAllocate

/-- Destroying the newest arena gives it back. -/
theorem arenaDestroyed {arena : ArenaId} {arenas : List ArenaId}
    (held : Acquired world after holding)
    (newest : holding.arenas = arena :: arenas) :
    Acquired world (after.arenaDestroy arena)
      { holding with arenas := arenas } := by
  have front : after.arenas = arena :: (arenas ++ world.arenas) := by
    rw [held.arenas, newest, List.cons_append]
  have live : arena ∈ after.arenas := by
    simp [front]
  rw [World.arenaDestroy, if_pos live]
  refine ⟨held.files, held.mappings, held.blocks, ?_, held.released⟩
  simp [front]

end Acquired

/-! ## Streams -/

theorem allocateWithBuffer_none {world after : World} {bufferSize : Nat}
    {sourceType : SourceType}
    (failed :
      allocateWithBuffer world bufferSize sourceType = (none, after)) :
    Acquired world after {} := by
  unfold allocateWithBuffer at failed
  dsimp only at failed
  split at failed
  · rename_i world₁ pool
    cases failed
    exact (Acquired.refl world).allocated pool
  rename_i block world₁ pool
  have withBlock := (Acquired.refl world).allocated pool
  split at failed
  · rename_i world₂ create
    cases failed
    exact (withBlock.arenaCreated create).freed rfl
  rename_i arena world₂ create
  have withArena := withBlock.arenaCreated create
  split at failed
  · rename_i world₃ allocation
    cases failed
    exact ((withArena.arenaAllocated allocation).arenaDestroyed rfl).freed
      rfl
  · simp at failed

theorem getFileSize_acquired {world after : World}
    {descriptor : Descriptor} {size : Option Nat}
    (call : Io.getFileSize world descriptor = (size, after)) :
    Acquired world after {} := by
  unfold Io.getFileSize at call
  split at call
  · rename_i world₁ stat
    cases call
    exact (Acquired.refl world).fstat stat
  · rename_i node world₁ stat
    split at call <;> cases call <;> exact (Acquired.refl world).fstat stat

/-- The size query in front of an allocation, where there is one. -/
theorem sizeQuery_acquired {world after : World} {descriptor : Descriptor}
    {size : Option Nat} {asked : Prop} [Decidable asked]
    (call :
      (if asked then
          let (size, world) := Io.getFileSize world descriptor
          (size, world.fadvise.2)
        else
          (none, world)) = (size, after)) :
    Acquired world after {} := by
  split at call
  · simp only [Prod.mk.injEq] at call
    rcases call with ⟨_, rfl⟩
    exact (getFileSize_acquired
      (Prod.eta (Io.getFileSize world descriptor)).symm).passed .fadvise
  · cases call
    exact .refl world

theorem openFileDescriptor_none {world after : World}
    {descriptor : Descriptor} {sourceType : SourceType} {mode : Mode}
    {bufferSize : Nat}
    (failed :
      openFileDescriptor world descriptor sourceType mode bufferSize =
        (none, after)) :
    Acquired world after {} := by
  unfold openFileDescriptor at failed
  generalize sized :
      (if sourceType = .file ∧ mode = .read then
          let (size, world) := Io.getFileSize world descriptor
          (size, world.fadvise.2)
        else
          (none, world)) = query at failed
  rcases query with ⟨total, queried⟩
  dsimp only at failed
  split at failed
  · rename_i world₁ allocation
    cases failed
    exact (sizeQuery_acquired sized).then_nothing
      (allocateWithBuffer_none allocation)
  · simp at failed

/-- Opening a file by its name acquires its descriptor, or nothing. -/
theorem ioOpenFile_acquired {world after : World} {path : Path}
    {mode : Mode} {descriptor : Option Descriptor}
    (call : Io.openFile world path mode = (descriptor, after)) :
    ∃ node,
      Acquired world after
        { files :=
            (descriptor.map fun opened => ⟨opened, node⟩).toList } := by
  cases mode with
  | read =>
      cases opening : world.openRead path with
      | mk opened world₁ =>
          simp only [Io.openFile, opening] at call
          cases opened with
          | ok opened =>
              cases call
              exact (Acquired.refl world).opened opening
          | error errno =>
              cases call
              exact ⟨.special 0, (Acquired.refl world).refused opening⟩
  | write =>
      unfold Io.openFile World.openWrite at call
      dsimp only at call
      cases fault : world.fault .openFile with
      | some errno =>
          simp only [fault] at call
          cases call
          exact ⟨.special 0, (Acquired.refl world).passed .openFile⟩
      | none =>
          simp only [fault] at call
          cases call
          exact ⟨_, rfl, rfl, rfl, rfl, rfl⟩

theorem openFile_none {world after : World} {path : Path} {mode : Mode}
    {bufferSize : Nat}
    (failed : Stream.openFile world path mode bufferSize = (none, after)) :
    Acquired world after {} := by
  unfold Stream.openFile at failed
  split at failed
  · rename_i world₁ opening
    cases failed
    exact (ioOpenFile_acquired opening).choose_spec
  rename_i descriptor world₁ opening
  rcases ioOpenFile_acquired opening with ⟨node, withFile⟩
  generalize sized :
      (if mode = .read then
          let (size, world) := Io.getFileSize world₁ descriptor
          (size, world.fadvise.2)
        else
          (none, world₁)) = query at failed
  rcases query with ⟨total, queried⟩
  dsimp only at failed
  split at failed
  · rename_i world₂ allocation
    cases failed
    have stillOpen :=
      (withFile.then_nothing (sizeQuery_acquired sized)).then_nothing
        (allocateWithBuffer_none allocation)
    exact stillOpen.closed rfl
  · simp at failed

theorem openMemory_none {world after : World} {data : Option Address}
    {size : Nat} (failed : openMemory world data size = (none, after)) :
    Acquired world after {} := by
  unfold openMemory at failed
  split at failed
  · rename_i world₁ pool
    cases failed
    exact (Acquired.refl world).allocated pool
  · simp at failed

/-! ## Files and maps -/

/-- Resolving a path acquires a descriptor, or nothing. -/
theorem openResolveDescriptor_acquired {world after : World} {path : Path}
    {options : OpenOptions} {descriptor : Option Descriptor}
    (resolved :
      openResolveDescriptor world path options = (descriptor, after)) :
    ∃ node,
      Acquired world after
        { files :=
            (descriptor.map fun opened => ⟨opened, node⟩).toList } := by
  have start := Acquired.refl world
  unfold openResolveDescriptor openForRead at resolved
  split at resolved
  · split at resolved
    · rename_i opened world₁ call
      cases resolved
      exact start.opened call
    · rename_i errno world₁ refused
      have second := start.refused refused
      split at resolved
      · split at resolved
        · rename_i opened world₂ call
          cases resolved
          exact second.opened call
        · rename_i errno₂ world₂ call
          cases resolved
          exact ⟨.special 0, second.refused call⟩
      · cases resolved
        exact ⟨.special 0, second⟩
  · split at resolved
    · rename_i opened world₁ call
      cases resolved
      exact start.opened call
    · rename_i errno world₁ refused
      cases resolved
      exact ⟨.special 0, start.refused refused⟩

theorem openRead_none {world after : World} {path : Path}
    {options : OpenOptions}
    (failed : openRead world path options = (none, after)) :
    Acquired world after {} := by
  unfold openRead at failed
  split at failed
  · rename_i world₁ resolved
    cases failed
    exact (openResolveDescriptor_acquired resolved).choose_spec
  rename_i descriptor world₁ resolved
  rcases openResolveDescriptor_acquired resolved with ⟨node, withFile⟩
  split at failed
  · rename_i world₂ streamFailed
    cases failed
    exact (withFile.then_nothing
      (openFileDescriptor_none streamFailed)).closed rfl
  · simp at failed

/-- What is mapped at an address that may be null. -/
def mappingAt (base : Option Address) (size : Nat) : List Mapping :=
  (base.map fun start => ⟨start, size⟩).toList

/-- A map object acquires its block, or nothing. -/
theorem createFromAddress_acquired {world after later : World}
    {holding : Holding} {base : Option Address} {size : Nat}
    {map : Option (Pooled Mmap)} (held : Acquired world after holding)
    (made : Mmap.createFromAddress after base size = (map, later)) :
    Acquired world later
        { holding with
          blocks := (map.map Pooled.block).toList ++ holding.blocks } ∧
      ∀ built, map = some built →
        built.value = ⟨base, size, none, true⟩ := by
  unfold Mmap.createFromAddress at made
  split at made
  · rename_i world₁ pool
    cases made
    exact ⟨held.allocated pool, by simp⟩
  · rename_i block world₁ pool
    cases made
    refine ⟨held.allocated pool, ?_⟩
    rintro built ⟨⟩
    rfl

/-- Release the mapping behind an address that may be null. -/
def munmapAt (world : World) (base : Option Address) (size : Nat) : World :=
  match base with
  | some start => world.munmap start size
  | none => world

theorem Acquired.unmappedAt {world after : World} {holding : Holding}
    (base : Option Address) (size : Nat)
    (held : Acquired world after holding)
    (only : holding.mappings = mappingAt base size) :
    Acquired world (munmapAt after base size)
      { holding with mappings := [] } := by
  cases base with
  | none =>
      refine ⟨held.files, ?_, held.blocks, held.arenas, held.released⟩
      rw [munmapAt, held.mappings, only]
      rfl
  | some start => exact held.unmapped only

/-- A stream that could not be taken from a map has cost nothing. -/
theorem getStream_failed {world after later : World} {holding : Holding}
    {map value : Mmap} (held : Acquired world after holding)
    (failed : Mmap.getStream after map = (false, value, later)) :
    Acquired world later holding ∧ value = map := by
  unfold Mmap.getStream at failed
  split at failed
  · simp at failed
  · split at failed
    · rename_i world₁ memory
      cases failed
      exact ⟨held.then_nothing (openMemory_none memory), rfl⟩
    · simp at failed

/-- The mapped branch gives back the descriptor and the handle's block too. -/
theorem openMapped_none {world middle after : World}
    {descriptor : Descriptor} {opened node : FileNode} {handle : BlockId}
    (held :
      Acquired world middle
        { files := [⟨descriptor, opened⟩], blocks := [handle] })
    (failed : openMapped middle descriptor node handle = (none, after)) :
    Acquired world after {} := by
  unfold openMapped at failed
  dsimp only at failed
  generalize mapping :
      (if 0 < node.statSize then _ else (some none, middle)) = pages
        at failed
  rcases pages with ⟨mapped, world₁⟩
  -- what has been mapped so far, if anything
  have withPages :
      ∃ base : Option Address,
        Acquired world world₁
          { files := [⟨descriptor, opened⟩]
            mappings := mappingAt base node.statSize
            blocks := [handle] } ∧
          (mapped = none → base = none) ∧
          (∀ address, mapped = some address → address = base) ∧
          (∀ start, base = some start → 0 < node.statSize) := by
    split at mapping
    · rename_i positive
      split at mapping
      · rename_i base world₂ call
        cases mapping
        exact ⟨some base, by simpa [mappingAt] using held.mapped call,
          by simp, by simp, fun _ _ => positive⟩
      · rename_i world₂ call
        cases mapping
        exact ⟨none, by simpa [mappingAt] using held.mapped call,
          by simp, by simp, by simp⟩
    · cases mapping
      exact ⟨none, held, by simp, by simp, by simp⟩
  rcases withPages with ⟨base, withPages, unmapped, atBase, positive⟩
  dsimp only at failed
  split at failed
  · cases failed
    cases unmapped rfl
    exact (withPages.closed rfl).freed rfl
  · rename_i address
    cases atBase address rfl
    have closed := withPages.closed rfl
    split at failed
    · rename_i world₂ noMap
      cases failed
      rcases createFromAddress_acquired closed noMap with ⟨same, _⟩
      exact (same.unmappedAt base node.statSize rfl).freed rfl
    · rename_i map world₂ withMap
      rcases createFromAddress_acquired closed withMap with ⟨both, fields⟩
      split at failed
      · rename_i value world₃ noStream
        cases failed
        rcases getStream_failed both noStream with ⟨same, rfl⟩
        rw [fields map rfl]
        have released :
            Acquired world
              (Mmap.releaseMapping world₃
                ⟨base, node.statSize, none, true⟩)
              { blocks := [map.block, handle] } := by
          have givenBack := same.unmappedAt base node.statSize rfl
          cases base with
          | none => exact givenBack
          | some start =>
              rw [Mmap.releaseMapping]
              simp only [if_pos (positive start rfl)]
              exact givenBack
        exact (released.freed rfl).freed rfl
      · simp at failed

theorem openAuto_none {world after : World} {path : Path}
    {mmapThreshold : Nat} {options : OpenOptions}
    (failed : openAuto world path mmapThreshold options = (none, after)) :
    Acquired world after {} := by
  unfold openAuto at failed
  split at failed
  · rename_i world₁ resolved
    cases failed
    exact (openResolveDescriptor_acquired resolved).choose_spec
  rename_i descriptor world₁ resolved
  rcases openResolveDescriptor_acquired resolved with ⟨node, withFile⟩
  split at failed
  · rename_i world₂ stat
    cases failed
    exact (withFile.fstat stat).closed rfl
  rename_i statNode world₂ stat
  have queried := withFile.fstat stat
  split at failed
  · rename_i world₃ pool
    cases failed
    exact (queried.allocated pool).closed rfl
  rename_i handle world₃ pool
  have withHandle := queried.allocated pool
  dsimp only at failed
  split at failed
  · split at failed
    · rename_i world₄ streamFailed
      cases failed
      exact ((withHandle.then_nothing
        (openFileDescriptor_none streamFailed)).closed rfl).freed rfl
    · simp at failed
  · exact openMapped_none withHandle failed

theorem mapPages_acquired {world after later : World} {holding : Holding}
    {node : FileNode} {size : Nat} {options : Mmap.Options}
    {base : Option Address} (held : Acquired world after holding)
    (call : Mmap.mapPages after node size options = (base, later)) :
    Acquired world later
      { holding with
        mappings := mappingAt base size ++ holding.mappings } := by
  unfold Mmap.mapPages at call
  split at call
  · rename_i start world₁ first
    cases call
    exact held.mapped first
  · rename_i world₁ first
    have again := held.mapped first
    split at call
    · exact again.mapped call
    · cases call
      exact again

theorem mmapFile_none {world after : World} {path : Path}
    {options : Mmap.Options}
    (failed : Mmap.file world path options = (none, after)) :
    Acquired world after {} := by
  unfold Mmap.file at failed
  split at failed
  · cases failed
    exact .refl world
  split at failed
  · rename_i errno world₁ refused
    cases failed
    exact (Acquired.refl world).refused refused
  rename_i descriptor world₁ opening
  rcases (Acquired.refl world).opened opening with ⟨node, withFile⟩
  split at failed
  · rename_i world₂ stat
    cases failed
    exact (withFile.fstat stat).closed rfl
  rename_i statNode world₂ stat
  have queried := withFile.fstat stat
  split at failed
  · cases failed
    exact queried.closed rfl
  rename_i size sized
  generalize mapping :
      (if 0 < size then _ else (some none, world₂)) = pages at failed
  rcases pages with ⟨mapped, world₃⟩
  have withPages :
      ∃ base : Option Address,
        Acquired world world₃
          { files := [⟨descriptor, node⟩]
            mappings := mappingAt base size } ∧
          (mapped = none → base = none) ∧
          (∀ address, mapped = some address → address = base) := by
    split at mapping
    · split at mapping
      · rename_i world₄ noPages
        cases mapping
        have same := mapPages_acquired queried noPages
        exact ⟨none, by simpa [mappingAt] using same, by simp, by simp⟩
      · rename_i base world₄ pages
        have both := mapPages_acquired queried pages
        simp only [Prod.mk.injEq] at mapping
        rcases mapping with ⟨rfl, rfl⟩
        refine ⟨some base, ?_, by simp, by simp⟩
        split
        · exact (by simpa using both : Acquired world world₄ _).passed
            .madvise
        · simpa using both
    · cases mapping
      exact ⟨none, queried, by simp, by simp⟩
  rcases withPages with ⟨base, withPages, unmapped, atBase⟩
  dsimp only at failed
  split at failed
  · cases failed
    cases unmapped rfl
    exact withPages.closed rfl
  · rename_i address
    cases atBase address rfl
    have closed := withPages.closed rfl
    split at failed
    · rename_i world₄ noMap
      cases failed
      rcases createFromAddress_acquired closed noMap with ⟨same, _⟩
      exact same.unmappedAt base size rfl
    · simp at failed

/-! ## The set of inodes -/

theorem allocateBuckets_none {world after : World} {capacity : Nat}
    (failed :
      InodeSet.allocateBuckets world capacity = (none, after)) :
    Acquired world after {} := by
  unfold InodeSet.allocateBuckets at failed
  split at failed
  · cases failed
    exact .refl world
  split at failed
  · cases failed
    exact .refl world
  split at failed
  · rename_i world₁ pool
    cases failed
    exact (Acquired.refl world).allocated pool
  · simp at failed

theorem inodeSetCreate_none {steps : Nat} {world after : World}
    {initialCapacity : Nat}
    (failed :
      InodeSet.create steps world initialCapacity = .ok (none, after)) :
    Acquired world after {} := by
  unfold InodeSet.create at failed
  dsimp only at failed
  generalize InodeSet.roundUpToPowerOfTwo steps _ = rounded at failed
  cases rounded with
  | error abort => cases failed
  | ok capacity =>
      dsimp only [bind, Except.bind] at failed
      split at failed
      · rename_i world₁ pool
        cases failed
        exact (Acquired.refl world).allocated pool
      rename_i block world₁ pool
      have withBlock := (Acquired.refl world).allocated pool
      split at failed
      · rename_i world₂ noBuckets
        cases failed
        exact (withBlock.then_nothing
          (allocateBuckets_none noBuckets)).freed rfl
      · cases failed

/-! ## No constructor leaks -/

/--
The resources of `after` are those of `world`, kind by kind, and no release
was issued for something that was not live.
-/
structure SameResources (world after : World) : Prop where
  openFiles : after.openFiles.Perm world.openFiles
  mappings : after.mappings.Perm world.mappings
  blocks : after.blocks.Perm world.blocks
  arenas : after.arenas.Perm world.arenas
  strayReleases : after.strayReleases = world.strayReleases

/-- Holding nothing is having what was there before. -/
theorem Acquired.sameResources {world after : World}
    (nothing : Acquired world after {}) : SameResources world after :=
  ⟨.of_eq nothing.files, .of_eq nothing.mappings, .of_eq nothing.blocks,
    .of_eq nothing.arenas, nothing.released⟩

/--
Whatever the system and the allocators answer, a constructor that returns
`false` leaves the resources as they were and has released nothing twice.  In
particular `bc_io_stream_open_file_descriptor` leaves its caller's descriptor
open.
-/
theorem failed_constructors_leak_nothing (world after : World) :
    (∀ path mode bufferSize,
        Stream.openFile world path mode bufferSize = (none, after) →
          SameResources world after) ∧
      (∀ descriptor sourceType mode bufferSize,
        openFileDescriptor world descriptor sourceType mode bufferSize =
            (none, after) →
          SameResources world after) ∧
      (∀ data size,
        openMemory world data size = (none, after) →
          SameResources world after) ∧
      (∀ path options,
        openRead world path options = (none, after) →
          SameResources world after) ∧
      (∀ path mmapThreshold options,
        openAuto world path mmapThreshold options = (none, after) →
          SameResources world after) ∧
      (∀ path options,
        Mmap.file world path options = (none, after) →
          SameResources world after) ∧
      (∀ steps initialCapacity,
        InodeSet.create steps world initialCapacity = .ok (none, after) →
          SameResources world after) := by
  refine ⟨?_, ?_, ?_, ?_, ?_, ?_, ?_⟩
  · intro path mode bufferSize failed
    exact (openFile_none failed).sameResources
  · intro descriptor sourceType mode bufferSize failed
    exact (openFileDescriptor_none failed).sameResources
  · intro data size failed
    exact (openMemory_none failed).sameResources
  · intro path options failed
    exact (openRead_none failed).sameResources
  · intro path mmapThreshold options failed
    exact (openAuto_none failed).sameResources
  · intro path options failed
    exact (mmapFile_none failed).sameResources
  · intro steps initialCapacity failed
    exact (inodeSetCreate_none failed).sameResources

/--
A file of three bytes, a descriptor that is open already, and a pool that
serves two blocks and then fails.
-/
def twoBlocks : World where
  files path := if path = [102] then some (.regular [1, 2, 3]) else none
  openFiles := [⟨0, .special 0⟩]
  mappings := []
  memory _ := 0
  nextAddress := World.pageSize
  blocks := [7]
  arenas := []
  nextIdentity := 8
  faults kind :=
    if kind = .poolAllocate then [none, none, some Errno.enomem] else []
  strayReleases := 0
  uninitialisedSize := 0

/--
The open that maps the file fails at its third block, the one for the stream,
and gives back the mapping, the descriptor and the two blocks it has.
-/
theorem failed_constructors_leak_nothing_third_block :
    ∃ after,
      openAuto twoBlocks [102] 2 ⟨false, false, 64⟩ = (none, after) ∧
        SameResources twoBlocks after := by
  have failed :
      ∃ after,
        openAuto twoBlocks [102] 2 ⟨false, false, 64⟩ = (none, after) :=
    ⟨_, rfl⟩
  rcases failed with ⟨after, failed⟩
  exact ⟨after, failed,
    (failed_constructors_leak_nothing twoBlocks after).2.2.2.2.1
      [102] 2 ⟨false, false, 64⟩ failed⟩

end BcIo.File
