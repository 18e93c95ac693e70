import BcIo.Mmap

/-!
# Opening files for reading

`bc_io_file_open_read`, `bc_io_file_open_auto` and the read handle.  A buffered
handle owns its stream; a memory-mapped one owns a map whose cached stream is
the object its `stream` pointer refers to, so that stream is kept in the map.
-/

namespace BcIo.File

/-- `bc_io_file_open_options_t`, as far as opening looks at it. -/
structure OpenOptions where
  useNoatime : Bool
  nonblock : Bool
  bufferSize : Nat
  deriving DecidableEq, Repr

/-- `BC_IO_OPEN_DEFAULT_BUFFER_SIZE`. -/
def openDefaultBufferSize : Nat := 65536

/-- `BC_IO_OPEN_DEFAULT_THRESHOLD`. -/
def openDefaultThreshold : Nat := 256 * 1024

/-- `bc_io_file_open_for_read`: `O_NOATIME` first, and without it on `EPERM`. -/
def openForRead (world : World) (path : Path) :
    Option Descriptor × World :=
  match world.openRead path with
  | (.ok descriptor, world) => (some descriptor, world)
  | (.error errno, world) =>
      if errno = Errno.eperm then
        match world.openRead path with
        | (.ok descriptor, world) => (some descriptor, world)
        | (.error _, world) => (none, world)
      else
        (none, world)

/-- `bc_io_file_open_resolve_descriptor`. -/
def openResolveDescriptor (world : World) (path : Path)
    (options : OpenOptions) : Option Descriptor × World :=
  if options.useNoatime then
    openForRead world path
  else
    match world.openRead path with
    | (.ok descriptor, world) => (some descriptor, world)
    | (.error _, world) => (none, world)

/-- The buffer size that both open functions ask for. -/
def OpenOptions.effectiveBufferSize (options : OpenOptions) : Nat :=
  if options.bufferSize ≠ 0 then options.bufferSize
  else openDefaultBufferSize

/-- `bc_io_file_open_read`. -/
def openRead (world : World) (path : Path) (options : OpenOptions) :
    Option (Pooled Stream) × World :=
  match openResolveDescriptor world path options with
  | (none, world) => (none, world)
  | (some descriptor, world) =>
      match
        Stream.openFileDescriptor world descriptor .file .read
          options.effectiveBufferSize
      with
      | (none, world) => (none, world.close descriptor)
      | (some stream, world) => (some stream, world)

/-- `struct bc_io_file_read_handle` with what its two pointers refer to. -/
inductive ReadHandle.Source where
  | buffered (stream : Pooled Stream)
  | memoryMapped (map : Pooled Mmap)

/-- `bc_io_file_read_handle_t`. -/
structure ReadHandle where
  block : BlockId
  source : ReadHandle.Source
  fileSize : Nat

/-- The threshold that `bc_io_file_open_auto` compares the size with. -/
def effectiveThreshold (mmapThreshold : Nat) : Nat :=
  if mmapThreshold = 0 then openDefaultThreshold else mmapThreshold

/-- The memory-mapped branch of `bc_io_file_open_auto`. -/
def openMapped (world : World) (descriptor : Descriptor)
    (node : FileNode) (handle : BlockId) : Option ReadHandle × World :=
  let fileSize := node.statSize
  let (mapped, world) :=
    if 0 < fileSize then
      match world.mmap node fileSize 0 with
      | (some base, world) => (some (some base), world)
      | (none, world) => (none, world)
    else
      (some none, world)
  match mapped with
  | none => (none, (world.close descriptor).poolFree handle)
  | some baseAddress =>
      let world := world.close descriptor
      match Mmap.createFromAddress world baseAddress fileSize with
      | (none, world) =>
          let world :=
            match baseAddress with
            | some base => world.munmap base fileSize
            | none => world
          (none, world.poolFree handle)
      | (some map, world) =>
          match Mmap.getStream world map.value with
          | (false, value, world) =>
              -- no stream has been cached, so nothing is flushed
              let world := Mmap.releaseMapping world value
              (none, (world.poolFree map.block).poolFree handle)
          | (true, value, world) =>
              (some
                ⟨handle, .memoryMapped ⟨map.block, value⟩, fileSize⟩,
                world)

/-- `bc_io_file_open_auto`. -/
def openAuto (world : World) (path : Path) (mmapThreshold : Nat)
    (options : OpenOptions) : Option ReadHandle × World :=
  match openResolveDescriptor world path options with
  | (none, world) => (none, world)
  | (some descriptor, world) =>
      match world.fstat descriptor with
      | (none, world) => (none, world.close descriptor)
      | (some node, world) =>
          let fileSize := node.statSize
          match world.poolAllocate with
          | (none, world) => (none, world.close descriptor)
          | (some handle, world) =>
              if fileSize < effectiveThreshold mmapThreshold then
                match
                  Stream.openFileDescriptor world descriptor .file .read
                    options.effectiveBufferSize
                with
                | (none, world) =>
                    (none, (world.close descriptor).poolFree handle)
                | (some stream, world) =>
                    (some ⟨handle, .buffered stream, fileSize⟩, world)
              else
                openMapped world descriptor node handle

namespace ReadHandle

/-- `bc_io_file_read_handle_get_stream`. -/
def getStream (handle : ReadHandle) : Option (Pooled Stream) :=
  match handle.source with
  | .buffered stream => some stream
  | .memoryMapped map => map.value.stream

/-- The handle after its stream object has changed. -/
def setStream (handle : ReadHandle) (value : Stream) : ReadHandle :=
  match handle.source with
  | .buffered stream =>
      { handle with source := .buffered { stream with value := value } }
  | .memoryMapped map =>
      let stream := map.value.stream.map fun stream =>
        { stream with value := value }
      { handle with
        source :=
          .memoryMapped
            { map with value := { map.value with stream := stream } } }

/-- `bc_io_file_read_handle_is_memory_mapped`. -/
def isMemoryMapped (handle : ReadHandle) : Bool :=
  match handle.source with
  | .buffered _ => false
  | .memoryMapped _ => true

/-- `bc_io_file_read_handle_get_size`. -/
def getSize (handle : ReadHandle) : Nat :=
  handle.fileSize

/-- `bc_io_file_read_handle_destroy`. -/
def destroy (world : World) (handle : ReadHandle)
    (side : Stream.WriteSide) :
    Except Stream.Halt (World × Stream.WriteSide) := do
  let (world, side) ←
    match handle.source with
    | .memoryMapped map => Mmap.destroy world map side
    | .buffered stream => Stream.close world stream side
  return (world.poolFree handle.block, side)

end ReadHandle

end BcIo.File
