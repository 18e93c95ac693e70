import BcIo.File.Path
import BcIo.Foundation.Segments

/-!
# Joining a path in a buffer

`bc_io_file_path_join` write by write.  The lengths and the capacity are any
values of `size_t`, so the sums that the function compares may wrap.
-/

namespace BcIo.File

open BcIo.Foundation.MachineWord
open BcIo.Foundation.Segments

/-- What a call of `bc_io_file_path_join` does. -/
structure JoinRun where
  returned : Bool
  /-- The writes to the buffer, in order. -/
  writes : List (Segment Byte)
  /-- `*out_length`, unless it is left alone. -/
  outLength : Option Nat
  deriving DecidableEq, Repr

/-- `bc_io_file_path_join`. -/
def pathJoinRun (bufferCapacity : Nat) (base name : List Byte) : JoinRun :=
  if base.length = 0 then
    if bufferCapacity < sizeAdd name.length 1 then ⟨false, [], none⟩
    else
      ⟨true,
        (if 0 < name.length then [⟨0, name⟩] else []) ++
          [⟨name.length, [0]⟩],
        some name.length⟩
  else
    let totalLength := sizeAdd (sizeAdd base.length 1) name.length
    if bufferCapacity < sizeAdd totalLength 1 then ⟨false, [], none⟩
    else
      ⟨true,
        [⟨0, base⟩, ⟨base.length, [slash]⟩] ++
          (if 0 < name.length then [⟨base.length + 1, name⟩] else []) ++
          [⟨totalLength, [0]⟩],
        some totalLength⟩

/-- The path that the walkers take from the call is the one that it joins. -/
theorem pathJoin_eq_run (bufferCapacity : Nat) (base name : List Byte) :
    pathJoin bufferCapacity base name =
      if (pathJoinRun bufferCapacity base name).returned then
        some (joined base name)
      else
        none := by
  unfold pathJoin pathJoinRun joined
  by_cases empty : base.length = 0
  · simp only [if_pos empty]
    split <;> rfl
  · simp only [if_neg empty]
    split <;> rfl

/-- The buffer that the walkers find after the call is what its writes leave. -/
theorem pathJoinInto_eq_run (buffer base name : List Byte) :
    pathJoinInto buffer base name =
      (pathJoinRun buffer.length base name).outLength.map fun length =>
        ((pathJoinRun buffer.length base name).writes.foldl
          (fun buffer write => place buffer write.position write.cells)
          buffer, length) := by
  have nothing (buffer : List Byte) (position : Nat) :
      place buffer position [] = buffer := by
    simp [place]
  unfold pathJoinInto pathJoinRun
  by_cases empty : base.length = 0
  · simp only [if_pos empty]
    split
    · rfl
    · by_cases named : 0 < name.length
      · simp [if_pos named]
      · have none_ : name = [] :=
          List.length_eq_zero_iff.mp (Nat.eq_zero_of_not_pos named)
        simp [none_, nothing]
  · simp only [if_neg empty]
    split
    · rfl
    · by_cases named : 0 < name.length
      · simp [if_pos named]
      · have none_ : name = [] :=
          List.length_eq_zero_iff.mp (Nat.eq_zero_of_not_pos named)
        simp [none_, nothing]

/--
The call joins exactly what fits: it returns `true` exactly if the path and its
terminating zero have room, then they stand at the start of the buffer, and it
never writes beyond the buffer, nor anything when it returns `false`.
-/
structure JoinsExactly (bufferCapacity : Nat) (base name : List Byte)
    (buffer : Nat → Byte) : Prop where
  accepts :
    (pathJoinRun bufferCapacity base name).returned = true ↔
      (joined base name).length + 1 ≤ bufferCapacity
  placed :
    (pathJoinRun bufferCapacity base name).returned = true →
      ∀ index byte, (joined base name ++ [0])[index]? = some byte →
        placeAll buffer (pathJoinRun bufferCapacity base name).writes
          index = byte
  length :
    (pathJoinRun bufferCapacity base name).returned = true →
      (pathJoinRun bufferCapacity base name).outLength =
        some (joined base name).length
  inside :
    ∀ segment ∈ (pathJoinRun bufferCapacity base name).writes,
      segment.position + segment.cells.length ≤ bufferCapacity
  silent :
    (pathJoinRun bufferCapacity base name).returned = false →
      (pathJoinRun bufferCapacity base name).writes = []

/-! ## The sum that is compared with the capacity -/

theorem returned_iff (bufferCapacity : Nat) (base name : List Byte) :
    (pathJoinRun bufferCapacity base name).returned = true ↔
      ((joined base name).length + 1) % sizeLimit ≤ bufferCapacity := by
  have sum :
      sizeAdd (sizeAdd (sizeAdd base.length 1) name.length) 1 =
        ((base ++ slash :: name).length + 1) % sizeLimit := by
    simp only [sizeAdd, wordAdd, Nat.mod_add_mod, List.length_append,
      List.length_cons]
    congr 1
    omega
  unfold pathJoinRun joined
  by_cases empty : base.length = 0
  · rw [if_pos empty, if_pos empty]
    split
    · rename_i small
      simpa [sizeAdd, wordAdd] using small
    · rename_i large
      simpa [sizeAdd, wordAdd] using large
  · rw [if_neg empty, if_neg empty]
    dsimp only
    rw [sum]
    split
    · rename_i small
      simpa using small
    · rename_i large
      simpa using large

/-- A call that returns `false` has written nothing. -/
theorem silent_of_refused {bufferCapacity : Nat} {base name : List Byte}
    (refused : (pathJoinRun bufferCapacity base name).returned = false) :
    (pathJoinRun bufferCapacity base name).writes = [] := by
  unfold pathJoinRun at refused ⊢
  dsimp only at refused ⊢
  split_ifs at refused ⊢ <;> rfl

/-- Without a wrapped sum the writes follow each other and make up the path. -/
theorem writes_of_fits {bufferCapacity : Nat} {base name : List Byte}
    (fits : (joined base name).length + 1 < sizeLimit)
    (returned : (pathJoinRun bufferCapacity base name).returned = true) :
    Consecutive 0 (pathJoinRun bufferCapacity base name).writes ∧
      contents (pathJoinRun bufferCapacity base name).writes =
        joined base name ++ [0] ∧
      (pathJoinRun bufferCapacity base name).outLength =
        some (joined base name).length := by
  unfold pathJoinRun joined at *
  by_cases empty : base.length = 0
  · simp only [if_pos empty] at *
    split at returned
    · cases returned
    rename_i large
    rw [if_neg large]
    by_cases named : 0 < name.length
    · simp [named, Consecutive, contents]
    · have none_ : name = [] :=
        List.length_eq_zero_iff.mp (Nat.eq_zero_of_not_pos named)
      simp [none_, Consecutive, contents]
  · simp only [if_neg empty, List.length_append, List.length_cons] at *
    have limit : sizeLimit = wordLimit := rfl
    have total :
        sizeAdd (sizeAdd base.length 1) name.length =
          base.length + 1 + name.length := by
      have prefixed : sizeAdd base.length 1 = base.length + 1 :=
        wordAdd_of_lt (by omega)
      rw [prefixed]
      exact wordAdd_of_lt (by omega)
    rw [total] at returned ⊢
    split at returned
    · cases returned
    rename_i large
    rw [if_neg large]
    by_cases named : 0 < name.length
    · simp [named, Consecutive, contents]
      omega
    · have none_ : name = [] :=
        List.length_eq_zero_iff.mp (Nat.eq_zero_of_not_pos named)
      simp [none_, Consecutive, contents]

/-! ## When the path is joined exactly -/

/-- As long as the sum does not wrap. -/
theorem joinsExactly_of_fits (bufferCapacity : Nat) {base name : List Byte}
    (buffer : Nat → Byte)
    (fits : (joined base name).length + 1 < sizeLimit) :
    JoinsExactly bufferCapacity base name buffer where
  accepts := by
    rw [returned_iff, Nat.mod_eq_of_lt fits]
  placed := by
    intro returned index byte found
    rcases writes_of_fits fits returned with ⟨consecutive, whole, _⟩
    rw [← whole] at found
    have there :
        placeAll buffer (pathJoinRun bufferCapacity base name).writes
          (0 + index) = byte :=
      placeAll_of_inside consecutive found
    rwa [Nat.zero_add] at there
  length := by
    intro returned
    exact (writes_of_fits fits returned).2.2
  inside := by
    intro segment member
    cases returned : (pathJoinRun bufferCapacity base name).returned with
    | false =>
        rw [silent_of_refused returned] at member
        cases member
    | true =>
        rcases writes_of_fits fits returned with ⟨consecutive, whole, _⟩
        have room := (returned_iff bufferCapacity base name).mp returned
        rw [Nat.mod_eq_of_lt fits] at room
        have within := consecutive.inside segment member
        rw [whole, List.length_append] at within
        simp only [List.length_cons, List.length_nil] at within
        omega
  silent := silent_of_refused

/-- A sum that wraps to something the capacity does not hold is still refused. -/
theorem joinsExactly_of_refused {bufferCapacity : Nat}
    {base name : List Byte} (buffer : Nat → Byte)
    (capacity : bufferCapacity < sizeLimit)
    (wraps : sizeLimit ≤ (joined base name).length + 1)
    (refused :
      bufferCapacity < ((joined base name).length + 1) % sizeLimit) :
    JoinsExactly bufferCapacity base name buffer := by
  have fails : (pathJoinRun bufferCapacity base name).returned = false := by
    rw [← Bool.not_eq_true, returned_iff]
    exact Nat.not_le.mpr refused
  refine ⟨?_, ?_, ?_, ?_, silent_of_refused⟩
  · rw [returned_iff]
    constructor <;> intro holds <;> omega
  · intro returned
    rw [fails] at returned
    cases returned
  · intro returned
    rw [fails] at returned
    cases returned
  · rw [silent_of_refused fails]
    simp

/-- A sum that wraps to something the capacity holds is accepted. -/
theorem not_joinsExactly_of_wraps {bufferCapacity : Nat}
    {base name : List Byte} {buffer : Nat → Byte}
    (capacity : bufferCapacity < sizeLimit)
    (wraps : sizeLimit ≤ (joined base name).length + 1)
    (passes :
      ((joined base name).length + 1) % sizeLimit ≤ bufferCapacity) :
    ¬ JoinsExactly bufferCapacity base name buffer := by
  intro exactly
  have room := exactly.accepts.mp ((returned_iff _ _ _).mpr passes)
  omega

/--
For all lengths and capacities that a `size_t` holds, the path is joined exactly
if and only if the length of the path and its terminating zero does not wrap, or
what it wraps to is more than the capacity.
-/
theorem pathJoin_exact_iff (bufferCapacity : Nat) (base name : List Byte)
    (buffer : Nat → Byte) (capacity : bufferCapacity < sizeLimit) :
    JoinsExactly bufferCapacity base name buffer ↔
      (joined base name).length + 1 < sizeLimit ∨
        bufferCapacity < ((joined base name).length + 1) % sizeLimit := by
  by_cases fits : (joined base name).length + 1 < sizeLimit
  · simp only [fits, true_or, iff_true]
    exact joinsExactly_of_fits bufferCapacity buffer fits
  · have wraps := Nat.le_of_not_lt fits
    simp only [fits, false_or]
    constructor
    · intro exactly
      by_contra passes
      exact not_joinsExactly_of_wraps capacity wraps
        (Nat.le_of_not_lt passes) exactly
    · exact joinsExactly_of_refused buffer capacity wraps

/-- `r` and `b` in a buffer of four bytes, which they just fill. -/
theorem pathJoin_exact_iff_full :
    JoinsExactly 4 [114] [98] fun _ => 0 :=
  (pathJoin_exact_iff 4 [114] [98] (fun _ => 0)
    (by simp [wordLimit])).mpr (Or.inl (by simp [joined, wordLimit]))

/-- A name of `SIZE_MAX - 1` bytes. -/
def longestName : List Byte :=
  List.replicate (2 ^ 64 - 2) 98

theorem length_longestName : longestName.length = 2 ^ 64 - 2 := by
  unfold longestName
  exact List.length_replicate

theorem length_joined_longestName :
    (joined [114] longestName).length = 2 ^ 64 := by
  have path : joined [114] longestName = [114] ++ slash :: longestName :=
    if_neg (by simp)
  have size := length_longestName
  rw [path, List.length_append, List.length_singleton, List.length_cons]
  omega

/--
Behind a base of one byte the sum for this name wraps to one, and a buffer of
`BC_IO_MAX_PATH_LENGTH` bytes passes the check.
-/
theorem pathJoin_not_exact :
    longestName.length < sizeLimit ∧ maxPathLength < sizeLimit ∧
      ¬ JoinsExactly maxPathLength [114] longestName fun _ => 0 := by
  have limit : sizeLimit = 2 ^ 64 := rfl
  have capacity : maxPathLength < sizeLimit := by
    rw [limit, maxPathLength]
    omega
  refine ⟨?_, capacity, ?_⟩
  · rw [length_longestName, limit]
    omega
  · refine not_joinsExactly_of_wraps capacity ?_ ?_
    · rw [length_joined_longestName, limit]
      omega
    · rw [length_joined_longestName, limit, maxPathLength]
      omega

end BcIo.File
