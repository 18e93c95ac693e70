import BcIo.System
import BcIo.Stream.Write
import BcIo.Stream.Read

/-!
# Opening, inspecting and closing a stream

The constructors of `bc_io_stream.c` act on the world explicitly: each returns
the stream it built, if any, and the world it leaves.  `bc_core_align_up` is
not part of the library; it stores the least multiple of the alignment when
that is representable and otherwise reports failure without storing anything.
-/

namespace BcIo.Stream

open BcIo.Foundation.MachineWord

/-- `BC_IO_STREAM_BUFFER_ALIGNMENT`. -/
def bufferAlignment : Nat := 64

/-- `bc_io_stream_io_default_buffer_size`. -/
def Io.defaultBufferSize : SourceType → Nat
  | .file => 131072
  | .socket => 32768
  | .pipe => 65536
  | .memory => 131072

/--
`bc_core_align_up`, on a variable that holds `unset` before the call: it rounds
up, or fails and leaves the variable alone when the result does not fit.  The
function belongs to another library; this is what it is taken to do.
-/
def coreAlignUp (unset value alignment : Nat) : Bool × Nat :=
  let aligned := (value + alignment - 1) / alignment * alignment
  if aligned < sizeLimit then (true, aligned) else (false, unset)

/-- `bc_io_stream_io_align_buffer_size`. -/
def Io.alignBufferSize (unset requested : Nat) : Bool × Nat :=
  coreAlignUp unset requested bufferAlignment

/-- What `bc_io_stream_allocate_with_buffer` hands back. -/
structure Allocated where
  block : BlockId
  arena : ArenaId
  buffer : List Byte
  alignedSize : Nat

/--
The buffer size that `bc_io_stream_allocate_with_buffer` settles on.  It does
not look at whether the rounding succeeded.
-/
def alignedSize (world : World) (bufferSize : Nat)
    (sourceType : SourceType) : Nat :=
  let effectiveBufferSize :=
    if bufferSize = 0 then Io.defaultBufferSize sourceType else bufferSize
  (Io.alignBufferSize world.uninitialisedSize effectiveBufferSize).2

/-- `bc_io_stream_allocate_with_buffer`. -/
def allocateWithBuffer (world : World) (bufferSize : Nat)
    (sourceType : SourceType) : Option Allocated × World :=
  let alignedSize := alignedSize world bufferSize sourceType
  match world.poolAllocate with
  | (none, world) => (none, world)
  | (some block, world) =>
      match world.arenaCreate with
      | (none, world) => (none, world.poolFree block)
      | (some arena, world) =>
          match world.arenaAllocate alignedSize with
          | (none, world) =>
              (none, (world.arenaDestroy arena).poolFree block)
          | (some buffer, world) =>
              (some ⟨block, arena, buffer, alignedSize⟩, world)

/-- `bc_io_stream_io_get_file_size`. -/
def Io.getFileSize (world : World) (fileDescriptor : Descriptor) :
    Option Nat × World :=
  match world.fstat fileDescriptor with
  | (none, world) => (none, world)
  | (some node, world) =>
      if node.isRegular then (some node.statSize, world) else (none, world)

/-- `bc_io_stream_io_open_file`. -/
def Io.openFile (world : World) (path : Path) (mode : Mode) :
    Option Descriptor × World :=
  let (opened, world) :=
    match mode with
    | .read => world.openRead path
    | .write => world.openWrite path
  match opened with
  | .ok descriptor => (some descriptor, world)
  | .error _ => (none, world)

/-- `bc_io_stream_open_file`.  The stream owns the descriptor it opened. -/
def openFile (world : World) (path : Path) (mode : Mode)
    (bufferSize : Nat) : Option (Pooled Stream) × World :=
  match Io.openFile world path mode with
  | (none, world) => (none, world)
  | (some fileDescriptor, world) =>
      let (totalSize, world) :=
        if mode = .read then
          let (size, world) := Io.getFileSize world fileDescriptor
          (size, world.fadvise.2)
        else
          (none, world)
      match allocateWithBuffer world bufferSize .file with
      | (none, world) => (none, world.close fileDescriptor)
      | (some allocated, world) =>
          let stream :=
            initCommonFields (some allocated.arena) allocated.buffer
              allocated.alignedSize .file mode fileDescriptor true
          (some
            ⟨allocated.block,
              { stream with
                totalSize := totalSize.getD 0
                totalSizeKnown := totalSize.isSome }⟩,
            world)

/--
`bc_io_stream_open_file_descriptor`.  The stream does not own the descriptor.
-/
def openFileDescriptor (world : World) (fileDescriptor : Descriptor)
    (sourceType : SourceType) (mode : Mode) (bufferSize : Nat) :
    Option (Pooled Stream) × World :=
  let (totalSize, world) :=
    if sourceType = .file ∧ mode = .read then
      let (size, world) := Io.getFileSize world fileDescriptor
      (size, world.fadvise.2)
    else
      (none, world)
  match allocateWithBuffer world bufferSize sourceType with
  | (none, world) => (none, world)
  | (some allocated, world) =>
      let stream :=
        initCommonFields (some allocated.arena) allocated.buffer
          allocated.alignedSize sourceType mode fileDescriptor false
      (some
        ⟨allocated.block,
          { stream with
            totalSize := totalSize.getD 0
            totalSizeKnown := totalSize.isSome }⟩,
        world)

/-- The stream that `bc_io_stream_open_memory` builds over `size` bytes. -/
def overMemory (data : Option Address) (size : Nat) : Stream :=
  { initCommonFields none [] (Io.defaultBufferSize .memory) .memory .read
      (-1) false with
    memoryData := data
    memorySize := size
    memoryPosition := 0
    totalSize := size
    totalSizeKnown := true }

/-- `bc_io_stream_open_memory`. -/
def openMemory (world : World) (data : Option Address) (size : Nat) :
    Option (Pooled Stream) × World :=
  match world.poolAllocate with
  | (none, world) => (none, world)
  | (some block, world) => (some ⟨block, overMemory data size⟩, world)

/-- `bc_io_stream_total_size`. -/
def totalSize? (stream : Stream) : Option Nat :=
  if stream.totalSizeKnown then some stream.totalSize else none

/-- `bc_io_stream_current_position`. -/
def currentPosition (stream : Stream) : Nat :=
  stream.logicalPosition

/-- `bc_io_stream_remaining_bytes`. -/
def remainingBytes (stream : Stream) : Option Nat :=
  if stream.totalSizeKnown then
    some (sizeSub stream.totalSize stream.logicalPosition)
  else
    none

/-- `bc_io_stream_is_end_of_stream`. -/
def isEndOfStream (stream : Stream) : Bool :=
  stream.endOfStream

/-- `bc_io_stream_close`; the flush in front may still be writing. -/
def close (world : World) (stream : Pooled Stream) (side : WriteSide) :
    Except Halt (World × WriteSide) := do
  let flushed ← stream.value.flush side
  let open_ := flushed.stream
  let world :=
    match open_.bufferArena with
    | some arena => world.arenaDestroy arena
    | none => world
  let world :=
    if open_.ownsFileDescriptor then world.close open_.fileDescriptor
    else world
  return (world.poolFree stream.block, flushed.side)

/-! ## What a successful open has built -/

/-- A request that can be rounded up is served with at least its size. -/
theorem le_alignedSize (world : World) {bufferSize : Nat}
    (sourceType : SourceType) (positive : 0 < bufferSize)
    (representable : bufferSize + 63 < sizeLimit) :
    bufferSize ≤ alignedSize world bufferSize sourceType ∧
      alignedSize world bufferSize sourceType < sizeLimit := by
  have nonzero : bufferSize ≠ 0 := Nat.pos_iff_ne_zero.mp positive
  have fits : (bufferSize + 64 - 1) / 64 * 64 < sizeLimit := by
    omega
  simp only [alignedSize, if_neg nonzero, Io.alignBufferSize, coreAlignUp,
    bufferAlignment, if_pos fits]
  exact ⟨by omega, fits⟩

/--
A successful allocation leaves the descriptors alone, and its buffer has the
size that is recorded.
-/
theorem allocateWithBuffer_some {world after : World} {bufferSize : Nat}
    {sourceType : SourceType} {allocated : Allocated}
    (succeeded :
      allocateWithBuffer world bufferSize sourceType =
        (some allocated, after)) :
    after.openFiles = world.openFiles ∧
      allocated.alignedSize = alignedSize world bufferSize sourceType ∧
      allocated.buffer.length = allocated.alignedSize := by
  unfold allocateWithBuffer at succeeded
  dsimp only at succeeded
  split at succeeded
  · simp at succeeded
  rename_i block world₁ pool
  split at succeeded
  · simp at succeeded
  rename_i arena world₂ create
  split at succeeded
  · simp at succeeded
  rename_i buffer world₃ allocation
  simp only [Prod.mk.injEq, Option.some.injEq] at succeeded
  rcases succeeded with ⟨rfl, rfl⟩
  refine ⟨?_, rfl, ?_⟩
  · exact (World.arenaAllocate_openFiles allocation).trans
      ((World.arenaCreate_openFiles create).trans
        (World.poolAllocate_openFiles pool))
  · exact World.arenaAllocate_length allocation

/-- Asking for the size changes neither the descriptors nor stale variables. -/
theorem getFileSize_frame {world after : World} {descriptor : Descriptor}
    {size : Option Nat}
    (call : Io.getFileSize world descriptor = (size, after)) :
    after.openFiles = world.openFiles ∧
      after.uninitialisedSize = world.uninitialisedSize := by
  unfold Io.getFileSize at call
  split at call
  · rename_i world₁ stat
    cases call
    exact ⟨World.fstat_openFiles stat, World.fstat_uninitialisedSize stat⟩
  · rename_i node world₁ stat
    split at call <;> cases call <;>
      exact ⟨World.fstat_openFiles stat, World.fstat_uninitialisedSize stat⟩

/-- What a stream on a descriptor looks like just after it was opened. -/
structure OpenedOnDescriptor (world after : World)
    (descriptor : Descriptor) (sourceType : SourceType) (mode : Mode)
    (bufferSize : Nat) (stream : Stream) : Prop where
  openFiles : after.openFiles = world.openFiles
  fields :
    ∃ arena buffer size total,
      buffer.length = size ∧
      size = alignedSize world bufferSize sourceType ∧
      stream =
        { initCommonFields (some arena) buffer size sourceType mode
            descriptor false with
          totalSize := total.getD 0
          totalSizeKnown := total.isSome } ∧
      (sourceType = .file → mode = .read →
        total = (Io.getFileSize world descriptor).1)

theorem openFileDescriptor_some {world after : World}
    {descriptor : Descriptor} {sourceType : SourceType} {mode : Mode}
    {bufferSize : Nat} {stream : Pooled Stream}
    (succeeded :
      openFileDescriptor world descriptor sourceType mode bufferSize =
        (some stream, after)) :
    OpenedOnDescriptor world after descriptor sourceType mode bufferSize
      stream.value := by
  unfold openFileDescriptor at succeeded
  -- the size query, when there is one, changes nothing an allocation reads
  generalize sized :
      (if sourceType = .file ∧ mode = .read then
          let (size, world) := Io.getFileSize world descriptor
          (size, world.fadvise.2)
        else
          (none, world)) = query at succeeded
  rcases query with ⟨total, queried⟩
  have queriedFrame :
      queried.openFiles = world.openFiles ∧
        queried.uninitialisedSize = world.uninitialisedSize ∧
        (sourceType = .file → mode = .read →
          total = (Io.getFileSize world descriptor).1) := by
    split at sized
    · simp only [Prod.mk.injEq] at sized
      rcases sized with ⟨rfl, rfl⟩
      rcases getFileSize_frame
        (Prod.eta (Io.getFileSize world descriptor)).symm with
        ⟨openFiles, unset⟩
      exact ⟨openFiles, unset, fun _ _ => rfl⟩
    · rename_i other
      simp only [Prod.mk.injEq] at sized
      rcases sized with ⟨rfl, rfl⟩
      exact ⟨rfl, rfl, fun file read => absurd ⟨file, read⟩ other⟩
  rcases queriedFrame with ⟨openFiles, unset, known⟩
  dsimp only at succeeded
  split at succeeded
  · simp at succeeded
  · rename_i allocated world₂ allocation
    simp only [Prod.mk.injEq, Option.some.injEq] at succeeded
    rcases succeeded with ⟨rfl, rfl⟩
    rcases allocateWithBuffer_some allocation with ⟨frame, size, length⟩
    refine ⟨frame.trans openFiles, allocated.arena, allocated.buffer,
      allocated.alignedSize, total, length, ?_, rfl, known⟩
    rw [size, alignedSize, alignedSize, unset]

/-! ## The streams a program can start from -/

/--
A stream as one of the constructors leaves it: on a descriptor with a buffer
of its own, or over memory.
-/
inductive Opened : Stream → Prop where
  | onDescriptor (bufferArena : Option ArenaId) (buffer : List Byte)
      (sourceType : SourceType) (mode : Mode) (fileDescriptor : Int)
      (ownsFileDescriptor : Bool) (total : Option Nat)
      (fits : buffer.length < sizeLimit) :
      Opened
        { initCommonFields bufferArena buffer buffer.length sourceType mode
            fileDescriptor ownsFileDescriptor with
          totalSize := total.getD 0
          totalSizeKnown := total.isSome }
  | overMemory (data : Option Address) (size : Nat) :
      Opened (overMemory data size)

theorem coreAlignUp_lt {unset : Nat} (stale : unset < sizeLimit)
    (value alignment : Nat) :
    (coreAlignUp unset value alignment).2 < sizeLimit := by
  unfold coreAlignUp
  dsimp only
  split
  · rename_i fits
    exact fits
  · exact stale

/-- A buffer size is a `size_t`, even when it was never assigned. -/
theorem alignedSize_lt (world : World) (bufferSize : Nat)
    (sourceType : SourceType)
    (stale : world.uninitialisedSize < sizeLimit) :
    alignedSize world bufferSize sourceType < sizeLimit :=
  coreAlignUp_lt stale _ bufferAlignment

theorem openFileDescriptor_opened {world after : World}
    {descriptor : Descriptor} {sourceType : SourceType} {mode : Mode}
    {bufferSize : Nat} {stream : Pooled Stream}
    (stale : world.uninitialisedSize < sizeLimit)
    (succeeded :
      openFileDescriptor world descriptor sourceType mode bufferSize =
        (some stream, after)) :
    Opened stream.value := by
  rcases (openFileDescriptor_some succeeded).fields with
    ⟨arena, buffer, size, total, length, aligned, fields, _⟩
  have fits : buffer.length < sizeLimit := by
    rw [length, aligned]
    exact alignedSize_lt world bufferSize sourceType stale
  subst length
  rw [fields]
  exact .onDescriptor _ buffer sourceType mode descriptor false total fits

theorem openFile_uninitialisedSize (world : World) (path : Path)
    (mode : Mode) :
    (Io.openFile world path mode).2.uninitialisedSize =
      world.uninitialisedSize := by
  cases mode with
  | read =>
      cases call : world.openRead path with
      | mk opened after =>
          cases opened with
          | ok descriptor =>
              rcases World.openRead_ok call with ⟨node, _, rfl⟩
              simp only [Io.openFile, call]
              rfl
          | error errno =>
              cases World.openRead_error call
              simp only [Io.openFile, call]
              rfl
  | write =>
      unfold Io.openFile World.openWrite
      dsimp only
      cases world.fault .openFile <;> rfl

theorem openFile_opened {world after : World} {path : Path} {mode : Mode}
    {bufferSize : Nat} {stream : Pooled Stream}
    (stale : world.uninitialisedSize < sizeLimit)
    (succeeded :
      openFile world path mode bufferSize = (some stream, after)) :
    Opened stream.value := by
  have unset := openFile_uninitialisedSize world path mode
  unfold openFile at succeeded
  split at succeeded
  · simp at succeeded
  rename_i descriptor world₁ resolved
  rw [resolved] at unset
  generalize sized :
      (if mode = .read then
          let (size, world) := Io.getFileSize world₁ descriptor
          (size, world.fadvise.2)
        else
          (none, world₁)) = query at succeeded
  rcases query with ⟨total, queried⟩
  have queriedUnset :
      queried.uninitialisedSize = world.uninitialisedSize := by
    split at sized
    · simp only [Prod.mk.injEq] at sized
      rcases sized with ⟨_, rfl⟩
      exact (getFileSize_frame
        (Prod.eta (Io.getFileSize world₁ descriptor)).symm).2.trans unset
    · cases sized
      exact unset
  dsimp only at succeeded
  split at succeeded
  · simp at succeeded
  · rename_i allocated world₂ allocation
    simp only [Prod.mk.injEq, Option.some.injEq] at succeeded
    rcases succeeded with ⟨rfl, rfl⟩
    rcases allocateWithBuffer_some allocation with ⟨_, aligned, length⟩
    have fits : allocated.buffer.length < sizeLimit := by
      rw [length, aligned]
      exact alignedSize_lt queried bufferSize .file
        (by rw [queriedUnset]; exact stale)
    dsimp only
    rw [← length]
    exact .onDescriptor _ allocated.buffer .file mode descriptor true total
      fits

theorem openMemory_opened {world after : World} {data : Option Address}
    {size : Nat} {stream : Pooled Stream}
    (succeeded : openMemory world data size = (some stream, after)) :
    Opened stream.value := by
  unfold openMemory at succeeded
  split at succeeded
  · simp at succeeded
  · cases succeeded
    exact .overMemory data size

end BcIo.Stream
