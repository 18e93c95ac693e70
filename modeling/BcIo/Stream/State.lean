import BcIo.Platform
import BcIo.Foundation.CellRegion

/-!
# The stream object

The record behind `bc_io_stream_t`, with the fields and the order of
`bc_io_stream_internal.h`.  The `memory_context` pointer only names the pool a
block came from and is left out.  A stream's buffer is the list of the bytes
of its allocation: the length of that list is the size that was allocated,
which is a different thing from the field `bufferSize`.
-/

namespace BcIo

open BcIo.Foundation

/-- `bc_io_stream_source_type_t`. -/
inductive Stream.SourceType where
  | file
  | socket
  | memory
  | pipe
  deriving DecidableEq, Repr

/-- `bc_io_stream_mode_t`. -/
inductive Stream.Mode where
  | read
  | write
  deriving DecidableEq, Repr

/-- `bc_io_stream_stats_t`; every counter is a `size_t`. -/
structure Stream.Stats where
  bytesRead : Nat := 0
  bytesWritten : Nat := 0
  readCount : Nat := 0
  writeCount : Nat := 0
  shortReadCount : Nat := 0
  shortWriteCount : Nat := 0
  retryCount : Nat := 0
  deriving DecidableEq, Repr

/-- The address of a memory object, and the identity of an arena. -/
abbrev Address := Nat
abbrev ArenaId := Nat

/-- `struct bc_io_stream`. -/
structure Stream where
  bufferArena : Option ArenaId
  buffer : List Byte
  bufferSize : Nat
  bufferUsed : Nat
  sourceType : Stream.SourceType
  mode : Stream.Mode
  fileDescriptor : Int
  ownsFileDescriptor : Bool
  endOfStream : Bool
  memoryData : Option Address
  memorySize : Nat
  memoryPosition : Nat
  totalSize : Nat
  totalSizeKnown : Bool
  logicalPosition : Nat
  stats : Stream.Stats
  deriving DecidableEq, Repr

namespace Stream

/-- `bc_io_stream_init_common_fields`. -/
def initCommonFields (bufferArena : Option ArenaId) (buffer : List Byte)
    (bufferSize : Nat) (sourceType : SourceType) (mode : Mode)
    (fileDescriptor : Int) (ownsFileDescriptor : Bool) : Stream where
  bufferArena := bufferArena
  buffer := buffer
  bufferSize := bufferSize
  bufferUsed := 0
  sourceType := sourceType
  mode := mode
  fileDescriptor := fileDescriptor
  ownsFileDescriptor := ownsFileDescriptor
  endOfStream := false
  memoryData := none
  memorySize := 0
  memoryPosition := 0
  totalSize := 0
  totalSizeKnown := false
  logicalPosition := 0
  stats := {}

/--
Why a call has not returned: the answers of the system calls supplied so far
are used up, or the program has touched a byte outside an allocation.
-/
inductive Halt where
  | waiting
  | overrun
  deriving DecidableEq, Repr

/--
The computation stays inside its allocations, and `post` holds of what it
returns once it does.
-/
def Delivers {α : Type} (post : α → Prop) : Except Halt α → Prop
  | .ok value => post value
  | .error .waiting => True
  | .error .overrun => False

namespace Delivers

variable {α β : Type} {post : α → Prop} {next : β → Prop}

theorem of_returned {computation : Except Halt α} {value : α}
    (delivers : Delivers post computation)
    (returned : computation = .ok value) : post value := by
  subst returned
  exact delivers

theorem ne_overrun {computation : Except Halt α}
    (delivers : Delivers post computation) :
    computation ≠ .error .overrun := by
  rintro rfl
  exact delivers

theorem of_forall {computation : Except Halt α}
    (inside : computation ≠ .error .overrun)
    (returned : ∀ value, computation = .ok value → post value) :
    Delivers post computation := by
  cases computation with
  | ok value => exact returned value rfl
  | error halt =>
      cases halt with
      | waiting => trivial
      | overrun => exact inside rfl

theorem mono {weaker : α → Prop} {computation : Except Halt α}
    (delivers : Delivers post computation)
    (implies : ∀ value, post value → weaker value) :
    Delivers weaker computation :=
  of_forall delivers.ne_overrun fun value returned =>
    implies value (delivers.of_returned returned)

theorem and {other : α → Prop} {computation : Except Halt α}
    (left : Delivers post computation) (right : Delivers other computation) :
    Delivers (fun value => post value ∧ other value) computation :=
  of_forall left.ne_overrun fun _ returned =>
    ⟨left.of_returned returned, right.of_returned returned⟩

/-- Sequencing: what the first part delivers is what the second part starts from. -/
theorem bind {computation : Except Halt α} {rest : α → Except Halt β}
    (delivers : Delivers post computation)
    (continues : ∀ value, post value → Delivers next (rest value)) :
    Delivers next (computation >>= rest) := by
  cases computation with
  | ok value => exact continues value delivers
  | error halt =>
      cases halt with
      | waiting => trivial
      | overrun => exact delivers

end Delivers

/-- A sequence that returned was made of parts that returned. -/
theorem returned_bind {α β : Type} {computation : Except Halt α}
    {rest : α → Except Halt β} {value : β}
    (returned : computation >>= rest = .ok value) :
    ∃ middle, computation = .ok middle ∧ rest middle = .ok value := by
  cases computation with
  | ok middle => exact ⟨middle, rfl, returned⟩
  | error halt => cases returned

/-- Read `count` bytes of an allocation, or leave it. -/
def loadBytes (region : List Byte) (offset count : Nat) :
    Except Halt (List Byte) :=
  match CellRegion.load region offset count with
  | some bytes => .ok bytes
  | none => .error .overrun

/--
`bc_core_copy` into an allocation; `bc_core_move` is the same operation after
a `loadBytes`, since the moved bytes are read before the first one is written.
-/
def copyBytes (region : List Byte) (offset : Nat) (bytes : List Byte) :
    Except Halt (List Byte) :=
  match CellRegion.store region offset bytes with
  | some result => .ok result
  | none => .error .overrun

/-- A read inside the allocation returns the bytes of the range. -/
theorem loadBytes_delivers {region : List Byte} {offset count : Nat}
    (inside : offset + count ≤ region.length) :
    Delivers (fun bytes => bytes = (region.drop offset).take count)
      (loadBytes region offset count) := by
  simp only [loadBytes, CellRegion.load_of_le inside, Delivers]

/-- A copy inside the allocation succeeds and only replaces the range. -/
theorem copyBytes_delivers {region bytes : List Byte} {offset : Nat}
    (inside : offset + bytes.length ≤ region.length) :
    Delivers
      (fun result =>
        result.length = region.length ∧
          result.take (offset + bytes.length) = region.take offset ++ bytes)
      (copyBytes region offset bytes) := by
  have stored := CellRegion.store_of_le inside
  simp only [copyBytes, stored, Delivers]
  exact ⟨CellRegion.length_of_store stored, CellRegion.take_of_store stored⟩

end Stream

end BcIo
