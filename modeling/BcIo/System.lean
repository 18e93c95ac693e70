import BcIo.Stream.State
import Mathlib.Logic.Function.Basic

/-!
# The operating system and the allocators

The resources a call can acquire: descriptors, mappings, pool blocks and
arenas, each as the list of what is currently live.  Every call that can fail
reads its outcome from a script kept per kind of call; an exhausted script
means success, so a world with empty scripts is one where nothing fails.
Releasing something that is not live is counted and otherwise ignored.
-/

namespace BcIo

open BcIo.Foundation

/-- A path as a C string without its terminator. -/
abbrev Path := List Byte

abbrev Descriptor := Int
abbrev BlockId := Nat

/-- What a path names: a regular file, or a node of another type. -/
inductive FileNode where
  | regular (content : List Byte)
  | special (size : Nat)
  deriving DecidableEq, Repr

/-- `S_ISREG(st_mode)`. -/
def FileNode.isRegular : FileNode → Bool
  | .regular _ => true
  | .special _ => false

/-- `(size_t)st_size`. -/
def FileNode.statSize : FileNode → Nat
  | .regular content => content.length
  | .special size => size

/-- The bytes a mapping of a node shows: the file, and zeros behind it. -/
def FileNode.byteAt (node : FileNode) (offset : Nat) : Byte :=
  match node with
  | .regular content => content.getD offset 0
  | .special _ => 0

/-- A live mapping. -/
structure Mapping where
  base : Address
  size : Nat
  deriving DecidableEq, Repr

/-- A descriptor and the node it was opened on. -/
structure OpenFile where
  descriptor : Descriptor
  node : FileNode
  deriving DecidableEq, Repr

/-- The calls that can fail. -/
inductive CallKind where
  | openFile
  | fstat
  | fadvise
  | mmap
  | madvise
  | poolAllocate
  | arenaCreate
  | arenaAllocate
  deriving DecidableEq, Repr

/-- The state of the system around the library. -/
structure World where
  files : Path → Option FileNode
  openFiles : List OpenFile
  mappings : List Mapping
  memory : Address → Byte
  nextAddress : Address
  blocks : List BlockId
  arenas : List ArenaId
  nextIdentity : Nat
  /-- The outcomes of the calls to come: none for success. -/
  faults : CallKind → List (Option Errno)
  /-- Releases of something that was not live. -/
  strayReleases : Nat
  /-- What an uninitialised `size_t` variable happens to hold. -/
  uninitialisedSize : Nat

/-- An object allocated from the pool. -/
structure Pooled (α : Type) where
  block : BlockId
  value : α
  deriving DecidableEq, Repr

namespace World

/-- The outcome of the next call of a kind. -/
def fault (world : World) (kind : CallKind) : Option Errno :=
  (world.faults kind).head?.join

/-- The world after a call of a kind has read its outcome. -/
def passed (world : World) (kind : CallKind) : World :=
  { world with
    faults :=
      Function.update world.faults kind (world.faults kind).tail }

/-! ## Descriptors -/

/-- The lowest descriptor that is not open. -/
def unusedDescriptor (world : World) : Descriptor :=
  let used := world.openFiles.map OpenFile.descriptor
  (((List.range (used.length + 1)).map Int.ofNat).find?
    fun candidate => candidate ∉ used).getD 0

/-- `open(2)` for reading: no node is created and none is changed. -/
def openRead (world : World) (path : Path) :
    Except Errno Descriptor × World :=
  match world.fault .openFile with
  | some errno => (.error errno, world.passed .openFile)
  | none =>
      match world.files path with
      | none => (.error Errno.enoent, world.passed .openFile)
      | some node =>
          let descriptor := world.unusedDescriptor
          let after := world.passed .openFile
          (.ok descriptor,
            { after with
              openFiles := ⟨descriptor, node⟩ :: after.openFiles })

/--
`open(2)` for writing with `O_CREAT | O_TRUNC`: a missing file is created, a
regular one is emptied.
-/
def openWrite (world : World) (path : Path) :
    Except Errno Descriptor × World :=
  match world.fault .openFile with
  | some errno => (.error errno, world.passed .openFile)
  | none =>
      let node :=
        match world.files path with
        | some (.special size) => .special size
        | _ => .regular []
      let descriptor := world.unusedDescriptor
      let after := world.passed .openFile
      (.ok descriptor,
        { after with
          files := Function.update after.files path (some node)
          openFiles := ⟨descriptor, node⟩ :: after.openFiles })

/-- `close(2)`. -/
def close (world : World) (descriptor : Descriptor) : World :=
  if world.openFiles.any fun file => file.descriptor = descriptor then
    { world with
      openFiles :=
        world.openFiles.eraseP fun file => file.descriptor = descriptor }
  else
    { world with strayReleases := world.strayReleases + 1 }

/-- The node behind an open descriptor. -/
def nodeOf (world : World) (descriptor : Descriptor) : Option FileNode :=
  (world.openFiles.find? fun file => file.descriptor = descriptor).map
    OpenFile.node

/-- `fstat(2)`. -/
def fstat (world : World) (descriptor : Descriptor) :
    Option FileNode × World :=
  match world.fault .fstat with
  | some _ => (none, world.passed .fstat)
  | none => (world.nodeOf descriptor, world.passed .fstat)

/-- `posix_fadvise`; only its result is of interest. -/
def fadvise (world : World) : Bool × World :=
  (world.fault .fadvise = none, world.passed .fadvise)

/-! ## Mappings -/

/-- The size of a page, which `bc_allocators_context_page_size` always gets. -/
def pageSize : Nat := 4096

/--
`mmap` of `size` bytes of a node, at an address the kernel chooses.  The kernel
places a mapping above all earlier ones and leaves a page free.
-/
def mmap (world : World) (node : FileNode) (size offset : Nat) :
    Option Address × World :=
  let after := world.passed .mmap
  match world.fault .mmap with
  | some _ => (none, after)
  | none =>
      let base := world.nextAddress
      (some base,
        { after with
          mappings := ⟨base, size⟩ :: after.mappings
          memory := fun address =>
            if base ≤ address ∧ address < base + size then
              node.byteAt (offset + (address - base))
            else
              after.memory address
          nextAddress :=
            base + (size / pageSize + 2) * pageSize })

/-- `munmap`. -/
def munmap (world : World) (base : Address) (size : Nat) : World :=
  if ⟨base, size⟩ ∈ world.mappings then
    { world with mappings := world.mappings.erase ⟨base, size⟩ }
  else
    { world with strayReleases := world.strayReleases + 1 }

/-- `madvise`; only its result is of interest. -/
def madvise (world : World) : Bool × World :=
  (world.fault .madvise = none, world.passed .madvise)

/-! ## Allocators -/

/-- `bc_allocators_pool_allocate`. -/
def poolAllocate (world : World) : Option BlockId × World :=
  let after := world.passed .poolAllocate
  match world.fault .poolAllocate with
  | some _ => (none, after)
  | none =>
      (some world.nextIdentity,
        { after with
          blocks := world.nextIdentity :: after.blocks
          nextIdentity := world.nextIdentity + 1 })

/-- `bc_allocators_pool_free`. -/
def poolFree (world : World) (block : BlockId) : World :=
  if block ∈ world.blocks then
    { world with blocks := world.blocks.erase block }
  else
    { world with strayReleases := world.strayReleases + 1 }

/-- `bc_allocators_arena_create`. -/
def arenaCreate (world : World) : Option ArenaId × World :=
  let after := world.passed .arenaCreate
  match world.fault .arenaCreate with
  | some _ => (none, after)
  | none =>
      (some world.nextIdentity,
        { after with
          arenas := world.nextIdentity :: after.arenas
          nextIdentity := world.nextIdentity + 1 })

/-- `bc_allocators_arena_allocate`: the bytes of the new allocation. -/
def arenaAllocate (world : World) (size : Nat) :
    Option (List Byte) × World :=
  let after := world.passed .arenaAllocate
  match world.fault .arenaAllocate with
  | some _ => (none, after)
  | none => (some (List.replicate size 0), after)

/-- `bc_allocators_arena_destroy`. -/
def arenaDestroy (world : World) (arena : ArenaId) : World :=
  if arena ∈ world.arenas then
    { world with arenas := world.arenas.erase arena }
  else
    { world with strayReleases := world.strayReleases + 1 }

/-! ## What each call leaves alone -/

section Frames

variable {world after : World}

/-- Reading the outcome of one kind of call keeps those of the others. -/
theorem passed_faults_of_ne {kind other : CallKind} (differ : other ≠ kind) :
    (world.passed kind).faults other = world.faults other := by
  simp [passed, Function.update_of_ne differ]

theorem fstat_openFiles {descriptor : Descriptor} {result : Option FileNode}
    (call : world.fstat descriptor = (result, after)) :
    after.openFiles = world.openFiles := by
  unfold fstat at call
  split at call <;> cases call <;> rfl

/-- A successful `open` adds one descriptor on the node that the path names. -/
theorem openRead_ok {path : Path} {descriptor : Descriptor}
    (call : world.openRead path = (.ok descriptor, after)) :
    ∃ node, world.files path = some node ∧
      after =
        { world.passed .openFile with
          openFiles := ⟨descriptor, node⟩ :: world.openFiles } := by
  unfold openRead at call
  split at call
  · simp at call
  · split at call
    · simp at call
    · rename_i node named
      cases call
      exact ⟨node, named, rfl⟩

theorem openRead_error {path : Path} {errno : Errno}
    (call : world.openRead path = (.error errno, after)) :
    after = world.passed .openFile := by
  unfold openRead at call
  split at call
  · cases call
    rfl
  · split at call
    · cases call
      rfl
    · simp at call

/-- Closing the descriptor that was opened last undoes the opening. -/
theorem close_of_head {descriptor : Descriptor} {node : FileNode}
    {rest : List OpenFile}
    (opened : world.openFiles = ⟨descriptor, node⟩ :: rest) :
    world.close descriptor = { world with openFiles := rest } := by
  simp [close, opened]

theorem poolAllocate_some {block : BlockId}
    (call : world.poolAllocate = (some block, after)) :
    after =
      { world.passed .poolAllocate with
        blocks := block :: world.blocks
        nextIdentity := world.nextIdentity + 1 } := by
  unfold poolAllocate at call
  dsimp only at call
  split at call
  · simp at call
  · cases call
    rfl

theorem mmap_some {node : FileNode} {size offset : Nat} {base : Address}
    (call : world.mmap node size offset = (some base, after)) :
    after =
      { world.passed .mmap with
        mappings := ⟨base, size⟩ :: world.mappings
        memory := fun address =>
          if base ≤ address ∧ address < base + size then
            node.byteAt (offset + (address - base))
          else
            world.memory address
        nextAddress := base + (size / pageSize + 2) * pageSize } := by
  unfold mmap at call
  dsimp only at call
  split at call
  · simp at call
  · cases call
    rfl

/-- A mapping is placed at the next free address. -/
theorem mmap_base {node : FileNode} {size offset : Nat} {base : Address}
    (call : world.mmap node size offset = (some base, after)) :
    base = world.nextAddress := by
  unfold mmap at call
  dsimp only at call
  split at call
  · simp at call
  · cases call
    rfl

theorem mmap_none {node : FileNode} {size offset : Nat}
    (call : world.mmap node size offset = (none, after)) :
    after = world.passed .mmap := by
  unfold mmap at call
  dsimp only at call
  split at call
  · cases call
    rfl
  · simp at call

@[simp]
theorem close_mappings (descriptor : Descriptor) :
    (world.close descriptor).mappings = world.mappings := by
  unfold close
  split <;> rfl

@[simp]
theorem close_files (descriptor : Descriptor) :
    (world.close descriptor).files = world.files := by
  unfold close
  split <;> rfl

@[simp]
theorem close_memory (descriptor : Descriptor) :
    (world.close descriptor).memory = world.memory := by
  unfold close
  split <;> rfl

theorem fstat_some {descriptor : Descriptor} {node : FileNode}
    (call : world.fstat descriptor = (some node, after)) :
    world.nodeOf descriptor = some node ∧
      after = world.passed .fstat := by
  unfold fstat at call
  split at call
  · simp at call
  · simp only [Prod.mk.injEq] at call
    exact ⟨call.1, call.2.symm⟩

theorem poolAllocate_openFiles {result : Option BlockId}
    (call : world.poolAllocate = (result, after)) :
    after.openFiles = world.openFiles := by
  unfold poolAllocate at call
  dsimp only at call
  split at call <;> cases call <;> rfl

theorem arenaCreate_openFiles {result : Option ArenaId}
    (call : world.arenaCreate = (result, after)) :
    after.openFiles = world.openFiles := by
  unfold arenaCreate at call
  dsimp only at call
  split at call <;> cases call <;> rfl

theorem arenaAllocate_openFiles {size : Nat} {result : Option (List Byte)}
    (call : world.arenaAllocate size = (result, after)) :
    after.openFiles = world.openFiles := by
  unfold arenaAllocate at call
  dsimp only at call
  split at call <;> cases call <;> rfl

theorem mmap_openFiles {node : FileNode} {size offset : Nat}
    {result : Option Address}
    (call : world.mmap node size offset = (result, after)) :
    after.openFiles = world.openFiles := by
  unfold mmap at call
  dsimp only at call
  split at call <;> cases call <;> rfl

theorem fstat_uninitialisedSize {descriptor : Descriptor}
    {result : Option FileNode}
    (call : world.fstat descriptor = (result, after)) :
    after.uninitialisedSize = world.uninitialisedSize := by
  unfold fstat at call
  split at call <;> cases call <;> rfl

theorem arenaAllocate_length {size : Nat} {buffer : List Byte}
    (call : world.arenaAllocate size = (some buffer, after)) :
    buffer.length = size := by
  unfold arenaAllocate at call
  dsimp only at call
  split at call
  · simp at call
  · cases call
    exact List.length_replicate

@[simp]
theorem poolFree_blocks (block : BlockId) :
    (world.poolFree block).blocks = world.blocks.erase block := by
  unfold poolFree
  split
  · rfl
  · rename_i absent
    exact (List.erase_of_not_mem absent).symm

@[simp]
theorem poolFree_mappings (block : BlockId) :
    (world.poolFree block).mappings = world.mappings := by
  unfold poolFree
  split <;> rfl

/-- Freeing a live block is not a stray release. -/
theorem poolFree_strayReleases {block : BlockId}
    (live : block ∈ world.blocks) :
    (world.poolFree block).strayReleases = world.strayReleases := by
  simp [poolFree, live]

@[simp]
theorem munmap_blocks (base : Address) (size : Nat) :
    (world.munmap base size).blocks = world.blocks := by
  unfold munmap
  split <;> rfl

/-- Unmapping a live mapping is not a stray release. -/
theorem munmap_strayReleases {base : Address} {size : Nat}
    (live : ⟨base, size⟩ ∈ world.mappings) :
    (world.munmap base size).strayReleases = world.strayReleases := by
  simp [munmap, live]

@[simp]
theorem poolFree_files (block : BlockId) :
    (world.poolFree block).files = world.files := by
  unfold poolFree
  split <;> rfl

@[simp]
theorem arenaDestroy_files (arena : ArenaId) :
    (world.arenaDestroy arena).files = world.files := by
  unfold arenaDestroy
  split <;> rfl

@[simp]
theorem poolFree_openFiles (block : BlockId) :
    (world.poolFree block).openFiles = world.openFiles := by
  unfold poolFree
  split <;> rfl

@[simp]
theorem arenaDestroy_openFiles (arena : ArenaId) :
    (world.arenaDestroy arena).openFiles = world.openFiles := by
  unfold arenaDestroy
  split <;> rfl

@[simp]
theorem munmap_openFiles (base : Address) (size : Nat) :
    (world.munmap base size).openFiles = world.openFiles := by
  unfold munmap
  split <;> rfl

end Frames

end World

end BcIo
