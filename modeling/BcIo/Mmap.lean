import BcIo.Stream.Open

/-!
# Memory-mapped files

The object behind `bc_io_mmap_t`.  The stream a map caches is an object of its
own that the map points to; it is kept inside the map, and whoever holds the
pointer that `bc_io_mmap_get_stream` returned acts on that same object.
-/

namespace BcIo

/-- `struct bc_io_file_map`. -/
structure Mmap where
  baseAddress : Option Address
  mappedSize : Nat
  stream : Option (Pooled Stream)
  isMapped : Bool

namespace Mmap

/-- `bc_io_mmap_madvise_hint_t`. -/
inductive MadviseHint where
  | normal
  | sequential
  | random
  | willNeed
  | dontNeed
  deriving DecidableEq, Repr

/-- `bc_io_mmap_options_t`; `read_only` is never looked at. -/
structure Options where
  populate : Bool
  hugepagesHint : Bool
  madviseHint : MadviseHint
  offset : Nat
  length : Nat
  deriving DecidableEq, Repr

/-- `bc_io_mmap_create_from_address`. -/
def createFromAddress (world : World) (baseAddress : Option Address)
    (mappedSize : Nat) : Option (Pooled Mmap) × World :=
  match world.poolAllocate with
  | (none, world) => (none, world)
  | (some block, world) =>
      (some ⟨block, ⟨baseAddress, mappedSize, none, true⟩⟩, world)

/--
The size that `bc_io_mmap_file` maps: what is asked for, or the rest of the
file behind the offset; none when the offset lies behind the file.
-/
def Options.mappedSize (options : Options) (fileSize : Nat) : Option Nat :=
  if options.length = 0 then
    if fileSize < options.offset then none
    else some (fileSize - options.offset)
  else
    some options.length

/--
The call of `mmap` in `bc_io_mmap_file`, made a second time without huge pages
when the first fails.
-/
def mapPages (world : World) (node : FileNode) (mappedSize : Nat)
    (options : Options) : Option Address × World :=
  match world.mmap node mappedSize options.offset with
  | (some base, world) => (some base, world)
  | (none, world) =>
      if options.hugepagesHint then
        world.mmap node mappedSize options.offset
      else
        (none, world)

/-- `bc_io_mmap_file`. -/
def file (world : World) (path : Path) (options : Options) :
    Option (Pooled Mmap) × World :=
  if options.offset ≠ 0 ∧ options.offset % World.pageSize ≠ 0 then
    (none, world)
  else
    match world.openRead path with
    | (.error _, world) => (none, world)
    | (.ok descriptor, world) =>
        match world.fstat descriptor with
        | (none, world) => (none, world.close descriptor)
        | (some node, world) =>
            match options.mappedSize node.statSize with
            | none => (none, world.close descriptor)
            | some mappedSize =>
                let (mapped, world) :=
                  if 0 < mappedSize then
                    match mapPages world node mappedSize options with
                    | (none, world) => (none, world)
                    | (some base, world) =>
                        let world :=
                          if options.madviseHint ≠ .normal then
                            world.madvise.2
                          else
                            world
                        (some (some base), world)
                  else
                    (some none, world)
                match mapped with
                | none => (none, world.close descriptor)
                | some baseAddress =>
                    let world := world.close descriptor
                    match createFromAddress world baseAddress mappedSize with
                    | (none, world) =>
                        let world :=
                          match baseAddress with
                          | some base => world.munmap base mappedSize
                          | none => world
                        (none, world)
                    | (some map, world) => (some map, world)

/-- `bc_io_mmap_get_stream`: whether it succeeded, and the map afterwards. -/
def getStream (world : World) (map : Mmap) : Bool × Mmap × World :=
  match map.stream with
  | some _ => (true, map, world)
  | none =>
      match Stream.openMemory world map.baseAddress map.mappedSize with
      | (none, world) => (false, map, world)
      | (some stream, world) =>
          (true, { map with stream := some stream }, world)

/-- `bc_io_mmap_get_data`. -/
def getData (map : Mmap) : Option Address × Nat :=
  (map.baseAddress, map.mappedSize)

/-- `bc_io_mmap_hint_to_madvise`. -/
def hintToMadvise : MadviseHint → Int
  | .normal => 0
  | .sequential => 2
  | .random => 1
  | .willNeed => 3
  | .dontNeed => 4

/-- The arguments of a call of `madvise`. -/
structure MadviseCall where
  address : Address
  length : Nat
  advice : Int
  deriving DecidableEq, Repr

/-- The call of `madvise` that `bc_io_mmap_advise` makes, if it makes one. -/
def adviseCall (map : Mmap) (offset length : Nat) (hint : MadviseHint) :
    Option MadviseCall :=
  if map.isMapped = false ∨ length = 0 then none
  else
    map.baseAddress.map fun base =>
      ⟨sizeAdd base offset, length, hintToMadvise hint⟩

/-- `bc_io_mmap_advise`. -/
def advise (world : World) (map : Mmap) (offset length : Nat)
    (hint : MadviseHint) : Bool × World :=
  match map.adviseCall offset length hint with
  | none => (true, world)
  | some _ => world.madvise

/-- The `munmap` that `bc_io_mmap_unmap` and `bc_io_mmap_destroy` share. -/
def releaseMapping (world : World) (map : Mmap) : World :=
  match map.baseAddress with
  | some base =>
      if 0 < map.mappedSize then world.munmap base map.mappedSize else world
  | none => world

/-- `bc_io_mmap_unmap`.  It does not look at the cached stream. -/
def unmap (world : World) (map : Mmap) : Mmap × World :=
  if map.isMapped then
    ({ map with baseAddress := none, mappedSize := 0, isMapped := false },
      releaseMapping world map)
  else
    (map, world)

/-- `bc_io_mmap_destroy`. -/
def destroy (world : World) (map : Pooled Mmap) (side : Stream.WriteSide) :
    Except Stream.Halt (World × Stream.WriteSide) := do
  let (world, side) ←
    match map.value.stream with
    | some stream => Stream.close world stream side
    | none => .ok (world, side)
  let world :=
    if map.value.isMapped then releaseMapping world map.value else world
  return (world.poolFree map.block, side)

end Mmap

end BcIo
