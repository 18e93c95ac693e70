import BcIo.Platform

/-!
# Paths and entry types

The pure parts of `bc_io_file_path.c`: joining a name to a base, and the type
of an entry from its directory record or from its status.
-/

namespace BcIo.File

open BcIo.Foundation.MachineWord

/-- `BC_IO_MAX_PATH_LENGTH`. -/
def maxPathLength : Nat := 4096

def slash : Byte := 47
def dot : Byte := 46

/--
`bc_io_file_path_join` into a buffer of `bufferCapacity` bytes: what stands in
front of the terminating zero, or none when the call returns `false`.
-/
def pathJoin (bufferCapacity : Nat) (base name : List Byte) :
    Option (List Byte) :=
  if base.length = 0 then
    if bufferCapacity < sizeAdd name.length 1 then none else some name
  else
    let totalLength := sizeAdd (sizeAdd base.length 1) name.length
    if bufferCapacity < sizeAdd totalLength 1 then none
    else some (base ++ slash :: name)

/-- `bc_io_file_entry_type_t`. -/
inductive EntryType where
  | file
  | directory
  | symlink
  | other
  deriving DecidableEq, Repr

def dtUnknown : Byte := 0
def dtDir : Byte := 4
def dtReg : Byte := 8
def dtLnk : Byte := 10

/-- `bc_io_file_dtype_to_entry_type`. -/
def dtypeToEntryType (dType : Byte) : EntryType :=
  if dType = dtReg then .file
  else if dType = dtDir then .directory
  else if dType = dtLnk then .symlink
  else .other

/-- `struct stat`, as far as the library reads it. -/
structure Stat where
  device : UInt64
  inode : UInt64
  /-- `(size_t)st_size`. -/
  size : Nat
  mode : Nat
  modificationTime : Int
  deriving DecidableEq, Repr

namespace Stat

/-- `st_mode & S_IFMT`. -/
def format (stat : Stat) : Nat :=
  stat.mode &&& 0o170000

/-- `S_ISREG(st_mode)`. -/
def isRegular (stat : Stat) : Bool :=
  stat.format = 0o100000

/-- `S_ISDIR(st_mode)`. -/
def isDirectory (stat : Stat) : Bool :=
  stat.format = 0o040000

/-- `S_ISLNK(st_mode)`. -/
def isSymlink (stat : Stat) : Bool :=
  stat.format = 0o120000

/-- `st_mode & 07777`. -/
def permissionMask (stat : Stat) : Nat :=
  stat.mode &&& 0o7777

/-- The type that `bc_io_file_stat_if_unknown` reads from the status. -/
def entryType (stat : Stat) : EntryType :=
  if stat.isRegular then .file
  else if stat.isDirectory then .directory
  else if stat.isSymlink then .symlink
  else .other

end Stat

/-! ## Joined paths -/

/-- The path that joining a name to a base is meant to give. -/
def joined (base name : List Byte) : List Byte :=
  if base.length = 0 then name else base ++ slash :: name

theorem length_joined (base name : List Byte) :
    base.length + name.length ≤ (joined base name).length := by
  unfold joined
  split
  · omega
  · simp only [List.length_append, List.length_cons]
    omega

/--
With lengths far below the word size a path is joined exactly when it fits with
its terminating zero.
-/
theorem pathJoin_eq {bufferCapacity : Nat} {base name : List Byte}
    (baseSmall : base.length < 2 ^ 62) (nameSmall : name.length < 2 ^ 62) :
    pathJoin bufferCapacity base name =
      if (joined base name).length < bufferCapacity then
        some (joined base name)
      else
        none := by
  have limit : wordLimit = 2 ^ 64 := rfl
  unfold pathJoin joined
  by_cases empty : base.length = 0
  · have size : sizeAdd name.length 1 = name.length + 1 :=
      wordAdd_of_lt (by omega)
    simp only [if_pos empty, size]
    by_cases fits : name.length < bufferCapacity
    · rw [if_pos fits, if_neg (by omega)]
    · rw [if_neg fits, if_pos (by omega)]
  · have prefixed : sizeAdd base.length 1 = base.length + 1 :=
      wordAdd_of_lt (by omega)
    have total :
        sizeAdd (base.length + 1) name.length =
          base.length + 1 + name.length :=
      wordAdd_of_lt (by omega)
    have size :
        sizeAdd (base.length + 1 + name.length) 1 =
          base.length + 1 + name.length + 1 :=
      wordAdd_of_lt (by omega)
    simp only [if_neg empty, prefixed, total, size, List.length_append,
      List.length_cons]
    by_cases fits : base.length + (name.length + 1) < bufferCapacity
    · rw [if_pos fits, if_neg (by omega)]
    · rw [if_neg fits, if_pos (by omega)]

/-! ## The buffer a path is joined in -/

/-- `bc_core_copy` to a position of a buffer. -/
def place (buffer : List Byte) (position : Nat) (bytes : List Byte) :
    List Byte :=
  buffer.take position ++ bytes ++ buffer.drop (position + bytes.length)

/--
`bc_io_file_path_join`: what stands in the buffer after the call, and the length
that it reports.
-/
def pathJoinInto (buffer base name : List Byte) :
    Option (List Byte × Nat) :=
  if base.length = 0 then
    if buffer.length < sizeAdd name.length 1 then none
    else
      some (place (place buffer 0 name) name.length [0], name.length)
  else
    let totalLength := sizeAdd (sizeAdd base.length 1) name.length
    if buffer.length < sizeAdd totalLength 1 then none
    else
      let based := place buffer 0 base
      let separated := place based base.length [slash]
      let named := place separated (base.length + 1) name
      some (place named totalLength [0], totalLength)

/-- Writing right behind what has been written. -/
theorem place_behind (written rest bytes : List Byte) :
    place (written ++ rest) written.length bytes =
      written ++ bytes ++ rest.drop bytes.length := by
  rw [place, List.take_left, List.drop_append]
  simp

/-- Writing at the start. -/
theorem place_zero (buffer bytes : List Byte) :
    place buffer 0 bytes = bytes ++ buffer.drop bytes.length := by
  simp [place]

/--
A path that is joined stands in the buffer with its terminating zero, and the
rest of the buffer is as it was.
-/
theorem pathJoinInto_of_pathJoin {buffer base name path : List Byte}
    (baseSmall : base.length < 2 ^ 62) (nameSmall : name.length < 2 ^ 62)
    (joins : pathJoin buffer.length base name = some path) :
    pathJoinInto buffer base name =
        some (path ++ 0 :: buffer.drop (path.length + 1), path.length) ∧
      path.length < buffer.length := by
  have limit : wordLimit = 2 ^ 64 := rfl
  have fits := joins
  rw [pathJoin_eq baseSmall nameSmall] at fits
  split at fits
  · rename_i short
    cases fits
    refine ⟨?_, short⟩
    unfold pathJoin at joins
    unfold pathJoinInto joined
    by_cases empty : base.length = 0
    · rw [if_pos empty] at joins ⊢
      rw [if_pos empty, if_neg (fun small => by simp [small] at joins),
        place_zero, place_behind, List.drop_drop]
      simp
    · have total :
          sizeAdd (sizeAdd base.length 1) name.length =
            (base ++ slash :: name).length := by
        have prefixed : sizeAdd base.length 1 = base.length + 1 :=
          wordAdd_of_lt (by omega)
        rw [prefixed, List.length_append, List.length_cons]
        exact (wordAdd_of_lt (by omega)).trans (by omega)
      have separated : (base ++ [slash]).length = base.length + 1 := by
        simp
      have named :
          (base ++ [slash] ++ name).length =
            (base ++ slash :: name).length := by
        simp
      rw [if_neg empty] at joins ⊢
      rw [if_neg empty]
      have tail :
          base.length +
              ([slash].length + (name.length + [(0 : Byte)].length)) =
            (base ++ [slash] ++ name).length + 1 := by
        simp only [List.length_append, List.length_cons, List.length_nil]
        omega
      dsimp only at joins ⊢
      rw [if_neg (fun small => by simp [small] at joins), place_zero,
        place_behind, ← separated, place_behind, total, ← named,
        place_behind, List.drop_drop, List.drop_drop, List.drop_drop, tail]
      simp
  · cases fits

end BcIo.File
