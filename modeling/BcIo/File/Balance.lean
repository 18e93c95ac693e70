import BcIo.File.Open

/-!
# The descriptors behind open and close

Over one life of a file: a successful open, any number of reads, and the close
that belongs to it.  A stream opened on a descriptor does not own it, so the
life leaves the descriptors as they were only where `bc_io_file_open_auto`
closes the descriptor itself, which is on its memory-mapped branch.
-/

namespace BcIo.File

open BcIo.Stream

variable {State Choice : Type}

/-- What a call that opened one descriptor has done to the world. -/
structure OpenedDescriptor (world after : World) (path : Path)
    (descriptor : Descriptor) (node : FileNode) : Prop where
  named : world.files path = some node
  openFiles : after.openFiles = ⟨descriptor, node⟩ :: world.openFiles
  strayReleases : after.strayReleases = world.strayReleases
  fstatFaults : after.faults .fstat = world.faults .fstat

theorem OpenedDescriptor.of_openRead {world after : World} {path : Path}
    {descriptor : Descriptor}
    (call : world.openRead path = (.ok descriptor, after)) :
    ∃ node, OpenedDescriptor world after path descriptor node := by
  rcases World.openRead_ok call with ⟨node, named, rfl⟩
  have others : CallKind.fstat ≠ CallKind.openFile := by
    decide
  exact ⟨node, named, rfl, rfl, World.passed_faults_of_ne others⟩

/-- A resolved descriptor is a new one on the node the path names. -/
theorem openResolveDescriptor_some {world after : World} {path : Path}
    {options : OpenOptions} {descriptor : Descriptor}
    (resolved :
      openResolveDescriptor world path options = (some descriptor, after)) :
    ∃ node, OpenedDescriptor world after path descriptor node := by
  unfold openResolveDescriptor openForRead at resolved
  split at resolved
  · split at resolved
    · rename_i opened world₁ call
      cases resolved
      exact OpenedDescriptor.of_openRead call
    · rename_i errno world₁ refused
      split at resolved
      · split at resolved
        · rename_i opened world₂ call
          cases resolved
          rcases OpenedDescriptor.of_openRead call with ⟨node, second⟩
          cases World.openRead_error refused
          have others : CallKind.fstat ≠ CallKind.openFile := by
            decide
          exact ⟨node, second.named, second.openFiles,
            second.strayReleases,
            second.fstatFaults.trans (World.passed_faults_of_ne others)⟩
        · simp at resolved
      · simp at resolved
  · split at resolved
    · rename_i opened world₁ call
      cases resolved
      exact OpenedDescriptor.of_openRead call
    · simp at resolved

/-! ## Closing a stream that was only read -/

/-- Holding nothing to write and no descriptor, as a stream on a descriptor does. -/
structure HoldsNoDescriptor (stream : Stream) : Prop where
  unused : stream.bufferUsed = 0
  borrowed : stream.ownsFileDescriptor = false

theorem HoldsNoDescriptor.after_reads {before after : Stream}
    (holds : HoldsNoDescriptor before) (same : SameHoldings before after) :
    HoldsNoDescriptor after :=
  ⟨same.bufferUsed.trans holds.unused,
    same.ownsFileDescriptor.trans holds.borrowed⟩

theorem HoldsNoDescriptor.of_opened {world after : World}
    {descriptor : Descriptor} {sourceType : SourceType} {mode : Mode}
    {bufferSize : Nat} {stream : Stream}
    (opened :
      OpenedOnDescriptor world after descriptor sourceType mode bufferSize
        stream) :
    HoldsNoDescriptor stream := by
  rcases opened.fields with ⟨arena, buffer, size, total, _, _, rfl, _⟩
  exact ⟨rfl, rfl⟩

/-- Closing such a stream writes nothing and leaves every descriptor open. -/
theorem close_keeps_descriptors (world : World) (block : BlockId)
    {stream : Stream} (holds : HoldsNoDescriptor stream)
    (side : WriteSide) :
    ∃ closed, Stream.close world ⟨block, stream⟩ side = .ok (closed, side) ∧
      closed.openFiles = world.openFiles := by
  have flushed : stream.flush side = .ok ⟨true, stream, side⟩ := by
    simp [flush, holds.unused]
  refine ⟨_, by simp only [Stream.close, flushed]; rfl, ?_⟩
  simp only [holds.borrowed, Bool.false_eq_true, if_false,
    World.poolFree_openFiles]
  cases stream.bufferArena <;> simp

/-! ## The memory-mapped branch -/

/-- The handle and the world that a successful memory-mapped open leaves. -/
structure MappedOpen (world after : World) (node : FileNode)
    (rest : List OpenFile) (handle : ReadHandle) (base : Address)
    (mapBlock streamBlock : BlockId) : Prop where
  source :
    handle.source =
      .memoryMapped
        ⟨mapBlock,
          ⟨some base, node.statSize,
            some ⟨streamBlock, overMemory (some base) node.statSize⟩, true⟩⟩
  fileSize : handle.fileSize = node.statSize
  openFiles : after.openFiles = rest
  strayReleases : after.strayReleases = world.strayReleases
  blocks : after.blocks = streamBlock :: mapBlock :: world.blocks
  mappings : after.mappings = ⟨base, node.statSize⟩ :: world.mappings
  memory :
    ∀ index, index < node.statSize →
      after.memory (base + index) = node.byteAt index

theorem openMapped_some {world after : World} {descriptor : Descriptor}
    {node : FileNode} {rest : List OpenFile} {block : BlockId}
    {handle : ReadHandle} (positive : 0 < node.statSize)
    (opened : world.openFiles = ⟨descriptor, node⟩ :: rest)
    (succeeded :
      openMapped world descriptor node block = (some handle, after)) :
    handle.block = block ∧
      ∃ base mapBlock streamBlock,
        MappedOpen world after node rest handle base mapBlock
          streamBlock := by
  unfold openMapped at succeeded
  simp only [if_pos positive] at succeeded
  cases mapping : world.mmap node node.statSize 0 with
  | mk mapped world₁ =>
      cases mapped with
      | none => simp [mapping] at succeeded
      | some base =>
          have unclosed := World.mmap_openFiles mapping
          rw [opened] at unclosed
          have mappedWorld := World.mmap_some mapping
          simp only [mapping, World.close_of_head unclosed,
            Mmap.createFromAddress] at succeeded
          generalize closedEq :
            ({ world₁ with openFiles := rest } : World) = closed at succeeded
          cases mapPool : closed.poolAllocate with
          | mk mapResult world₂ =>
              cases mapResult with
              | none => simp [mapPool] at succeeded
              | some mapBlock =>
                  simp only [mapPool, Mmap.getStream, openMemory]
                    at succeeded
                  cases streamPool : world₂.poolAllocate with
                  | mk streamResult world₃ =>
                      cases streamResult with
                      | none => simp [streamPool] at succeeded
                      | some streamBlock =>
                          simp only [streamPool, Prod.mk.injEq,
                            Option.some.injEq] at succeeded
                          rcases succeeded with ⟨rfl, rfl⟩
                          cases World.poolAllocate_some streamPool
                          cases World.poolAllocate_some mapPool
                          cases closedEq
                          cases mappedWorld
                          refine ⟨rfl, base, mapBlock, streamBlock, rfl,
                            rfl, rfl, rfl, rfl, rfl, ?_⟩
                          intro index inside
                          have within :
                              base ≤ base + index ∧
                                base + index < base + node.statSize :=
                            ⟨Nat.le_add_right _ _,
                              Nat.add_lt_add_left inside base⟩
                          simp [World.passed, within]

/-- Taking down a memory-mapped handle releases exactly what it holds. -/
theorem destroy_mapped {world after : World} {node : FileNode}
    {rest : List OpenFile} {handle : ReadHandle} {base : Address}
    {mapBlock streamBlock : BlockId} {blocks : List BlockId}
    (positive : 0 < node.statSize)
    (opened :
      MappedOpen world after node rest handle base mapBlock streamBlock)
    (owned : world.blocks = handle.block :: blocks) {stream : Stream}
    (same : SameHoldings (overMemory (some base) node.statSize) stream)
    (side : WriteSide) :
    ∃ closed,
      ReadHandle.destroy after (handle.setStream stream) side =
        .ok (closed, side) ∧
      closed.openFiles = rest ∧
      closed.strayReleases = world.strayReleases := by
  have unused : stream.bufferUsed = 0 := same.bufferUsed
  have noArena : stream.bufferArena = none := same.bufferArena
  have borrowed : stream.ownsFileDescriptor = false :=
    same.ownsFileDescriptor
  have closedStream :
      Stream.close after ⟨streamBlock, stream⟩ side =
        .ok (after.poolFree streamBlock, side) := by
    have flushed : stream.flush side = .ok ⟨true, stream, side⟩ := by
      simp [flush, unused]
    simp only [Stream.close, flushed]
    simp only [Bind.bind, Except.bind, noArena, borrowed]
    rfl
  refine
    ⟨(((after.poolFree streamBlock).munmap base node.statSize).poolFree
        mapBlock).poolFree handle.block, ?_, ?_, ?_⟩
  · simp only [ReadHandle.destroy, ReadHandle.setStream, opened.source,
      Option.map_some, Mmap.destroy, closedStream]
    simp only [Bind.bind, Except.bind, if_true, Mmap.releaseMapping,
      if_pos positive]
    rfl
  · simpa using opened.openFiles
  · -- each release finds what it releases still live
    rw [World.poolFree_strayReleases, World.poolFree_strayReleases,
      World.munmap_strayReleases, World.poolFree_strayReleases]
    · exact opened.strayReleases
    · simp [opened.blocks]
    · simp [opened.mappings]
    · simp [opened.blocks]
    · simp [opened.blocks, owned]

/-! ## The two branches of an automatic open -/

/-- A buffered open: the descriptor stays open under a stream that borrows it. -/
structure BufferedOpen (world after : World) (node : FileNode)
    (options : OpenOptions) (handle : ReadHandle) (before : World)
    (descriptor : Descriptor) (stream : Pooled Stream) : Prop where
  source : handle.source = .buffered stream
  openFiles : before.openFiles = ⟨descriptor, node⟩ :: world.openFiles
  fstatFaults : before.faults .fstat = (world.faults .fstat).tail
  opened :
    OpenedOnDescriptor before after descriptor .file .read
      options.effectiveBufferSize stream.value

/-- The threshold is never zero, so an empty file is never mapped. -/
theorem effectiveThreshold_pos (mmapThreshold : Nat) :
    0 < effectiveThreshold mmapThreshold := by
  unfold effectiveThreshold openDefaultThreshold
  split <;> omega

theorem nodeOf_head {world : World} {descriptor : Descriptor}
    {node : FileNode} {rest : List OpenFile}
    (opened : world.openFiles = ⟨descriptor, node⟩ :: rest) :
    world.nodeOf descriptor = some node := by
  simp [World.nodeOf, opened]

/-- What a successful `bc_io_file_open_auto` has built, branch by branch. -/
theorem openAuto_some {world after : World} {path : Path}
    {mmapThreshold : Nat} {options : OpenOptions} {handle : ReadHandle}
    (succeeded :
      openAuto world path mmapThreshold options = (some handle, after)) :
    ∃ node, world.files path = some node ∧
      handle.fileSize = node.statSize ∧
      ((node.statSize < effectiveThreshold mmapThreshold ∧
          ∃ before descriptor stream,
            BufferedOpen world after node options handle before descriptor
              stream) ∨
        (effectiveThreshold mmapThreshold ≤ node.statSize ∧
          ∃ before blocks base mapBlock streamBlock,
            before.blocks = handle.block :: blocks ∧
            before.strayReleases = world.strayReleases ∧
            MappedOpen before after node world.openFiles handle base
              mapBlock streamBlock)) := by
  unfold openAuto at succeeded
  split at succeeded
  · simp at succeeded
  rename_i descriptor world₁ resolved
  rcases openResolveDescriptor_some resolved with ⟨node, opened⟩
  split at succeeded
  · simp at succeeded
  rename_i statNode world₂ stat
  rcases World.fstat_some stat with ⟨statNamed, rfl⟩
  rw [nodeOf_head opened.openFiles, Option.some.injEq] at statNamed
  subst statNode
  split at succeeded
  · simp at succeeded
  rename_i block world₃ pool
  have pooled := World.poolAllocate_some pool
  have openFiles :
      world₃.openFiles = ⟨descriptor, node⟩ :: world.openFiles := by
    rw [pooled]
    exact opened.openFiles
  refine ⟨node, opened.named, ?_⟩
  by_cases below : node.statSize < effectiveThreshold mmapThreshold
  · simp only [if_pos below] at succeeded
    split at succeeded
    · simp at succeeded
    rename_i stream world₄ streamOpened
    simp only [Prod.mk.injEq, Option.some.injEq] at succeeded
    rcases succeeded with ⟨rfl, rfl⟩
    have fstatFaults :
        world₃.faults .fstat = (world.faults .fstat).tail := by
      have others : CallKind.fstat ≠ CallKind.poolAllocate := by
        decide
      rw [pooled]
      change ((world₁.passed .fstat).passed .poolAllocate).faults .fstat = _
      rw [World.passed_faults_of_ne others]
      simp [World.passed, opened.fstatFaults]
    exact ⟨rfl, Or.inl ⟨below, world₃, descriptor, stream, rfl, openFiles,
      fstatFaults, openFileDescriptor_some streamOpened⟩⟩
  · simp only [if_neg below] at succeeded
    have atLeast := Nat.le_of_not_lt below
    have positive : 0 < node.statSize :=
      Nat.lt_of_lt_of_le (effectiveThreshold_pos mmapThreshold) atLeast
    rcases openMapped_some positive openFiles succeeded with
      ⟨handleBlock, base, mapBlock, streamBlock, mapped⟩
    have blocks : world₃.blocks = handle.block :: world₁.blocks := by
      rw [pooled, handleBlock]
      rfl
    have strayReleases : world₃.strayReleases = world.strayReleases := by
      rw [pooled]
      exact opened.strayReleases
    exact ⟨mapped.fileSize, Or.inr ⟨atLeast, world₃, world₁.blocks, base,
      mapBlock, streamBlock, blocks, strayReleases, mapped⟩⟩

/-! ## The balance of descriptors -/

/-- One more open descriptor than before is not the same set of descriptors. -/
theorem not_perm_of_extra {file : OpenFile} {files rest : List OpenFile}
    (extra : files = file :: rest) : ¬ files.Perm rest := by
  intro perm
  have lengths := perm.length_eq
  rw [extra, List.length_cons] at lengths
  omega

/--
The life of a file opened for reading, with any number of reads in between.

After `bc_io_file_open_read` and `bc_io_stream_close` a descriptor is always
left open.  After `bc_io_file_open_auto` and `bc_io_file_read_handle_destroy`
the open descriptors are those from before, with nothing released that was not
live, exactly when the size reaches the threshold.
-/
theorem fileLife_balanced_iff (world : World) (path : Path)
    (options : OpenOptions) (mmapThreshold : Nat)
    (device : ReadDevice State Choice) (calls : Nat)
    (readSide : ReadSide State Choice) (writeSide : WriteSide) :
    (∀ stream opened run,
        openRead world path options = (some stream, opened) →
        runReads device opened.memory calls stream.value readSide =
            .ok run →
        ∃ closed,
          Stream.close opened ⟨stream.block, run.stream⟩ writeSide =
            .ok (closed, writeSide) ∧
          ¬ closed.openFiles.Perm world.openFiles) ∧
      (∀ handle opened stream run,
        openAuto world path mmapThreshold options =
            (some handle, opened) →
        handle.getStream = some stream →
        runReads device opened.memory calls stream.value readSide =
            .ok run →
        ∃ closed node,
          ReadHandle.destroy opened (handle.setStream run.stream)
              writeSide = .ok (closed, writeSide) ∧
          world.files path = some node ∧
          (closed.openFiles.Perm world.openFiles ∧
              closed.strayReleases = world.strayReleases ↔
            effectiveThreshold mmapThreshold ≤ node.statSize)) := by
  constructor
  · intro stream opened run succeeded returned
    unfold openRead at succeeded
    split at succeeded
    · simp at succeeded
    rename_i descriptor world₁ resolved
    rcases openResolveDescriptor_some resolved with ⟨node, resolvedOpen⟩
    split at succeeded
    · simp at succeeded
    rename_i built world₂ streamOpened
    simp only [Prod.mk.injEq, Option.some.injEq] at succeeded
    rcases succeeded with ⟨rfl, rfl⟩
    have spec := openFileDescriptor_some streamOpened
    have holds :=
      (HoldsNoDescriptor.of_opened spec).after_reads
        (runReads_sameHoldings device _ calls returned)
    rcases close_keeps_descriptors world₂ built.block holds writeSide with
      ⟨closed, closes, kept⟩
    have extra :
        closed.openFiles = ⟨descriptor, node⟩ :: world.openFiles := by
      rw [kept, spec.openFiles, resolvedOpen.openFiles]
    exact ⟨closed, closes, not_perm_of_extra extra⟩
  · intro handle opened stream run succeeded got returned
    have same := runReads_sameHoldings device _ calls returned
    rcases openAuto_some succeeded with
      ⟨node, named, _, ⟨below, before, descriptor, built, buffered⟩ |
        ⟨atLeast, before, blocks, base, mapBlock, streamBlock, owned, stray,
          mapped⟩⟩
    · have streamEq : built = stream := by
        simpa [ReadHandle.getStream, buffered.source] using got
      subst streamEq
      have holds :=
        (HoldsNoDescriptor.of_opened buffered.opened).after_reads same
      rcases close_keeps_descriptors opened built.block holds writeSide with
        ⟨closed, closes, kept⟩
      have extra :
          (closed.poolFree handle.block).openFiles =
            ⟨descriptor, node⟩ :: world.openFiles := by
        rw [World.poolFree_openFiles, kept, buffered.opened.openFiles,
          buffered.openFiles]
      refine ⟨closed.poolFree handle.block, node, ?_, named, ?_⟩
      · simp only [ReadHandle.destroy, ReadHandle.setStream,
          buffered.source, closes]
        rfl
      · constructor
        · rintro ⟨perm, _⟩
          exact absurd perm (not_perm_of_extra extra)
        · intro atLeast
          omega
    · have streamEq :
          stream = ⟨streamBlock, overMemory (some base) node.statSize⟩ := by
        simpa [ReadHandle.getStream, mapped.source, eq_comm] using got
      subst streamEq
      have positive : 0 < node.statSize :=
        Nat.lt_of_lt_of_le (effectiveThreshold_pos mmapThreshold) atLeast
      rcases destroy_mapped positive mapped owned same writeSide with
        ⟨closed, destroyed, openFiles, released⟩
      refine ⟨closed, node, destroyed, named, ?_⟩
      constructor
      · intro _
        exact atLeast
      · intro _
        exact ⟨by rw [openFiles], released.trans stray⟩

/-- A system with one regular file of three bytes, named `f`. -/
def oneFile : World where
  files path := if path = [102] then some (.regular [1, 2, 3]) else none
  openFiles := []
  mappings := []
  memory _ := 0
  nextAddress := World.pageSize
  blocks := []
  arenas := []
  nextIdentity := 0
  faults _ := []
  strayReleases := 0
  uninitialisedSize := 0

/-- The three-byte file is mapped when the threshold is two bytes. -/
theorem fileLife_balanced_iff_mapped :
    ∃ handle opened closed,
      openAuto oneFile [102] 2 ⟨false, false, 64⟩ = (some handle, opened) ∧
        handle.isMemoryMapped = true ∧
        ReadHandle.destroy opened handle ⟨[], []⟩ = .ok (closed, ⟨[], []⟩) ∧
        closed.openFiles.Perm oneFile.openFiles := by
  have succeeded :
      ∃ handle opened stream,
        openAuto oneFile [102] 2 ⟨false, false, 64⟩ =
            (some handle, opened) ∧
          handle.isMemoryMapped = true ∧
          handle.getStream = some stream ∧
          handle.setStream stream.value = handle :=
    ⟨_, _, _, rfl, rfl, rfl, rfl⟩
  rcases succeeded with ⟨handle, opened, stream, succeeded, mapped, got, same⟩
  rcases
      (fileLife_balanced_iff oneFile [102] ⟨false, false, 64⟩ 2
        scriptedDevice 0 ⟨(), [], []⟩ ⟨[], []⟩).2
        handle opened stream _ succeeded got rfl with
    ⟨closed, node, destroyed, named, balanced⟩
  rw [same] at destroyed
  have large : effectiveThreshold 2 ≤ node.statSize := by
    cases named
    decide
  exact ⟨handle, opened, closed, succeeded, mapped, destroyed,
    (balanced.mpr large).1⟩

/--
Opening the file with `bc_io_file_open_read` and closing the stream leaves a
descriptor behind, and so does the buffered branch of `bc_io_file_open_auto`.
-/
theorem fileLife_leaks_descriptor :
    ¬ ((∀ stream opened closed,
          openRead oneFile [102] ⟨false, false, 64⟩ =
              (some stream, opened) →
            Stream.close opened stream ⟨[], []⟩ = .ok (closed, ⟨[], []⟩) →
              closed.openFiles.Perm oneFile.openFiles) ∨
        (∀ handle opened closed,
          openAuto oneFile [102] 0 ⟨false, false, 64⟩ =
              (some handle, opened) →
            ReadHandle.destroy opened handle ⟨[], []⟩ =
                .ok (closed, ⟨[], []⟩) →
              closed.openFiles.Perm oneFile.openFiles)) := by
  rintro (balanced | balanced)
  · have extra := (balanced _ _ _ rfl rfl).length_eq
    exact absurd extra (by decide)
  · have extra := (balanced _ _ _ rfl rfl).length_eq
    exact absurd extra (by decide)

end BcIo.File
