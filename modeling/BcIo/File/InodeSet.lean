import BcIo.System
import BcIo.Foundation.LinearProbe
import Mathlib.Data.Finset.Card

/-!
# The set of inodes

`bc_io_file_inode.c`: an open-addressing table of (device, inode) pairs with
linear probing, a separate array of occupied bytes, and doubling when the load
would pass three quarters.  `bc_core_safe_multiply` and `bc_core_safe_add` are
not part of the library; they fail exactly when the result does not fit.
-/

namespace BcIo.File

open BcIo.Foundation
open BcIo.Foundation.MachineWord

/-- `bc_io_file_inode_set_entry_t`. -/
structure InodeSet.Entry where
  device : UInt64
  inode : UInt64
  deriving DecidableEq, Repr

/-- One block of memory: the entries, and behind them the occupied bytes. -/
structure InodeSet.Buckets where
  block : BlockId
  entries : List InodeSet.Entry
  occupied : List Bool
  deriving DecidableEq, Repr

/-- `struct bc_io_file_inode_set`. -/
structure InodeSet where
  buckets : InodeSet.Buckets
  capacity : Nat
  size : Nat
  deriving DecidableEq, Repr

namespace InodeSet

/--
Why a call does not return: it touches memory outside the table, or a loop is
back in a state it has already been in.
-/
inductive Abort where
  | outside
  | endless
  deriving DecidableEq, Repr

/-- `BC_IO_INODE_SET_DEFAULT_CAPACITY`. -/
def defaultCapacity : Nat := 8192

/-- `sizeof(bc_io_file_inode_set_entry_t)`. -/
def entrySize : Nat := 16

/-- The `while` loop of the rounding, for at most `steps` iterations. -/
def doubleUntil (value : Nat) : Nat → Nat → Except Abort Nat
  | 0, _ => .error .endless
  | steps + 1, result =>
      if result < value then
        doubleUntil value steps (sizeMul result 2)
      else
        .ok result

/-- `bc_io_file_inode_set_round_up_to_power_of_two`. -/
def roundUpToPowerOfTwo (steps value : Nat) : Except Abort Nat :=
  if value < 2 then .ok 2 else doubleUntil value steps 1

/-- `bc_io_file_inode_set_hash`. -/
def hash (entry : Entry) (capacity : Nat) : Nat :=
  let x : UInt64 := entry.device * 0x9E3779B97F4A7C15
  let left : UInt64 := x <<< 6
  let right : UInt64 := x >>> 2
  let x : UInt64 :=
    x ^^^ (entry.inode + 0x9E3779B97F4A7C15 + left + right)
  let x : UInt64 := x ^^^ (x >>> 33)
  let x : UInt64 := x * 0xff51afd7ed558ccd
  let x : UInt64 := x ^^^ (x >>> 33)
  (x &&& UInt64.ofNat (sizeSub capacity 1)).toNat

/--
`bc_core_safe_multiply`, which fails when the product does not fit.  Like
`bc_core_safe_add` it belongs to another library; this is what they are taken to
do.
-/
def coreSafeMultiply (left right : Nat) : Option Nat :=
  if left * right < sizeLimit then some (left * right) else none

/-- `bc_core_safe_add`, which fails when the sum does not fit. -/
def coreSafeAdd (left right : Nat) : Option Nat :=
  if left + right < sizeLimit then some (left + right) else none

/-- `bc_io_file_inode_set_allocate_buckets`. -/
def allocateBuckets (world : World) (capacity : Nat) :
    Option Buckets × World :=
  match coreSafeMultiply capacity entrySize with
  | none => (none, world)
  | some entriesSize =>
      match coreSafeAdd entriesSize capacity with
      | none => (none, world)
      | some _ =>
          match world.poolAllocate with
          | (none, world) => (none, world)
          | (some block, world) =>
              (some
                ⟨block, List.replicate capacity ⟨0, 0⟩,
                  List.replicate capacity false⟩,
                world)

/-- `bc_io_file_inode_set_create`; the rounding loop gets `steps` iterations. -/
def create (steps : Nat) (world : World) (initialCapacity : Nat) :
    Except Abort (Option (Pooled InodeSet) × World) := do
  let capacity :=
    if initialCapacity = 0 then defaultCapacity else initialCapacity
  let capacity ← roundUpToPowerOfTwo steps capacity
  match world.poolAllocate with
  | (none, world) => return (none, world)
  | (some block, world) =>
      match allocateBuckets world capacity with
      | (none, world) => return (none, world.poolFree block)
      | (some buckets, world) =>
          return (some ⟨block, ⟨buckets, capacity, 0⟩⟩, world)

/-- `bc_io_file_inode_set_destroy`. -/
def destroy (world : World) (set : Pooled InodeSet) : World :=
  (world.poolFree set.value.buckets.block).poolFree set.block

/--
The probe loops.  `bc_io_file_inode_set_insert` and
`bc_io_file_inode_set_contains` also stop at the entry they look for;
`bc_io_file_inode_set_grow` wants none.  The result says whether the loop
stopped at an occupied slot.
-/
def Buckets.probe (buckets : Buckets) (mask : Nat)
    (wanted : Entry → Bool) : Nat → Nat → Except Abort (Bool × Nat)
  | 0, _ => .error .endless
  | steps + 1, slot =>
      match buckets.occupied[slot]?, buckets.entries[slot]? with
      | some true, some stored =>
          if wanted stored then
            .ok (true, slot)
          else
            buckets.probe mask wanted steps (sizeAdd slot 1 &&& mask)
      | some false, _ => .ok (false, slot)
      | _, _ => .error .outside

/-- Write an entry into a slot and mark the slot. -/
def Buckets.place (buckets : Buckets) (slot : Nat) (entry : Entry) :
    Except Abort Buckets :=
  if slot < buckets.entries.length ∧ slot < buckets.occupied.length then
    .ok
      { buckets with
        entries := buckets.entries.set slot entry
        occupied := buckets.occupied.set slot true }
  else
    .error .outside

/-- The body of the loop of `bc_io_file_inode_set_grow`. -/
def reinsert (set : InodeSet) (newCapacity : Nat) (new : Buckets)
    (index : Nat) : Except Abort Buckets :=
  match set.buckets.occupied[index]?, set.buckets.entries[index]? with
  | some false, _ => .ok new
  | some true, some entry => do
      let mask := sizeSub newCapacity 1
      let slot := hash entry newCapacity
      let (_, slot) ← new.probe mask (fun _ => false) newCapacity slot
      new.place slot entry
  | _, _ => .error .outside

/-- `bc_io_file_inode_set_grow`. -/
def grow (world : World) (set : InodeSet) :
    Except Abort (Option InodeSet × World) :=
  let newCapacity := sizeMul set.capacity 2
  match allocateBuckets world newCapacity with
  | (none, world) => .ok (none, world)
  | (some new, world) => do
      let new ←
        (List.range set.capacity).foldlM (reinsert set newCapacity) new
      return (some ⟨new, newCapacity, set.size⟩,
        world.poolFree set.buckets.block)

/-- What a call of `bc_io_file_inode_set_insert` leaves. -/
structure Inserted where
  /-- `*out_was_already_present`, or none when the call returned `false`. -/
  wasAlreadyPresent : Option Bool
  set : InodeSet
  world : World

/-- `bc_io_file_inode_set_insert` once there is room. -/
def insertWithRoom (world : World) (set : InodeSet) (entry : Entry) :
    Except Abort Inserted := do
  let mask := sizeSub set.capacity 1
  let (present, slot) ←
    set.buckets.probe mask (fun stored => stored = entry) set.capacity
      (hash entry set.capacity)
  if present then
    return ⟨some true, set, world⟩
  else
    let buckets ← set.buckets.place slot entry
    return ⟨some false,
      { set with buckets := buckets, size := sizeAdd set.size 1 }, world⟩

/-- `bc_io_file_inode_set_insert`. -/
protected def insert (set : InodeSet) (world : World) (entry : Entry) :
    Except Abort Inserted := do
  if sizeMul set.capacity 3 < sizeMul (sizeAdd set.size 1) 4 then
    match ← grow world set with
    | (none, world) => return ⟨none, set, world⟩
    | (some grown, world) => insertWithRoom world grown entry
  else
    insertWithRoom world set entry

/-- `bc_io_file_inode_set_contains`. -/
def contains (set : InodeSet) (entry : Entry) : Except Abort Bool := do
  let mask := sizeSub set.capacity 1
  let (present, _) ←
    set.buckets.probe mask (fun stored => stored = entry) set.capacity
      (hash entry set.capacity)
  return present

/-- `bc_io_file_inode_set_clear`: the entries stay where they are. -/
def clear (set : InodeSet) : Except Abort InodeSet :=
  if set.capacity ≤ set.buckets.occupied.length then
    .ok
      { set with
        buckets :=
          { set.buckets with
            occupied :=
              List.replicate set.capacity false ++
                set.buckets.occupied.drop set.capacity }
        size := 0 }
  else
    .error .outside

/-- `bc_io_file_inode_set_get_size`. -/
def getSize (set : InodeSet) : Nat :=
  set.size

/-! ## Runs of calls -/

/-- A call on a set. -/
inductive Operation where
  | insert (entry : Entry)
  | contains (entry : Entry)
  | clear
  | getSize
  deriving DecidableEq, Repr

/-- What a call reports. -/
inductive Answer where
  /-- `*out_was_already_present`, or none when the call returned `false`. -/
  | inserted (wasAlreadyPresent : Option Bool)
  | contained (isPresent : Bool)
  | cleared
  | size (size : Nat)
  deriving DecidableEq, Repr

/-- One call. -/
def perform (world : World) (set : InodeSet) :
    Operation → Except Abort (Answer × InodeSet × World)
  | .insert entry => do
      let result ← set.insert world entry
      return (.inserted result.wasAlreadyPresent, result.set, result.world)
  | .contains entry => do
      let isPresent ← contains set entry
      return (.contained isPresent, set, world)
  | .clear => do
      let cleared ← clear set
      return (.cleared, cleared, world)
  | .getSize => return (.size (getSize set), set, world)

/-- A run of calls: after each one its answer and the set it left. -/
def run : World → InodeSet → List Operation →
    Except Abort (List (Answer × InodeSet))
  | _, _, [] => .ok []
  | world, set, operation :: rest => do
      let (answer, after, world) ← perform world set operation
      let later ← run world after rest
      return (answer, after) :: later

end InodeSet

end BcIo.File
