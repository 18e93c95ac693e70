import BcIo.Perm
import Mathlib.Data.Nat.Digits.Defs

/-!
# The octal notation of a mode

`bc_io_perm_format_mode_octal` and `bc_io_perm_parse_mode_octal`.  Both are read
as statements about the digits of a number in base eight: the one writes the
last four of them, the other puts a number together from at most four.
-/

namespace BcIo.Perm

def sIsuid : Mode := 0o4000
def sIsgid : Mode := 0o2000
def sIsvtx : Mode := 0o1000

/-- `'0'` and `'7'`. -/
def digitZero : Byte := 48
def digitSeven : Byte := 55

/-- `(char)('0' + digit)`. -/
def digitChar (digit : Mode) : Byte :=
  digitZero + UInt8.ofNat digit.toNat

/-- What `bc_io_perm_format_mode_octal` writes when there is room for it. -/
def octalText (mode : Mode) : List Byte :=
  let special := (mode &&& (sIsuid ||| sIsgid ||| sIsvtx)) >>> 9
  [digitChar (special &&& 7), digitChar (mode >>> 6 &&& 7),
    digitChar (mode >>> 3 &&& 7), digitChar (mode &&& 7)]

/--
`bc_io_perm_format_mode_octal`: the characters it has written, whose number is
`*out_length`, or none when it returns `false`.
-/
def formatModeOctal (mode : Mode) (capacity : Nat) : Option (List Byte) :=
  if capacity < 4 then none else some (octalText mode)

/-- The loop of `bc_io_perm_parse_mode_octal` over the characters left. -/
def readDigits : List Byte → Mode → Option Mode
  | [], result => some result
  | char :: rest, result =>
      if char < digitZero ∨ digitSeven < char then none
      else
        readDigits rest
          (result <<< 3 ||| BitVec.ofNat 32 (char - digitZero).toNat)

/-- The mode that four digits stand for: the first of them is decoded again. -/
def rebuiltMode (result : Mode) : Mode :=
  let special := result >>> 9 &&& 7
  let mode := result &&& 0x1FF
  let mode := if special &&& 4 ≠ 0#32 then mode ||| sIsuid else mode
  let mode := if special &&& 2 ≠ 0#32 then mode ||| sIsgid else mode
  if special &&& 1 ≠ 0#32 then mode ||| sIsvtx else mode

/-- The mode that `bc_io_perm_parse_mode_octal` finds, if it accepts. -/
def parsedModeOctal (input : List Byte) : Option Mode :=
  if input.length = 0 ∨ 4 < input.length then none
  else do
    let result ← readDigits input 0#32
    if input.length = 4 then some (rebuiltMode result) else some result

/--
`bc_io_perm_parse_mode_octal`: its result, and `*out_mode` afterwards, which
holds `outMode` before.
-/
def parseModeOctal (input : List Byte) (outMode : Mode) : Bool × Mode :=
  match parsedModeOctal input with
  | some mode => (true, mode)
  | none => (false, outMode)

/-! ## Numbers in base eight -/

/-- A character in `'0'..'7'`. -/
def IsOctal (char : Byte) : Prop :=
  digitZero ≤ char ∧ char ≤ digitSeven

/-- The digit that a character shows. -/
def digitValue (char : Byte) : Nat :=
  char.toNat - 48

/-- A text read in base eight, its first character being the most significant. -/
def octalValue (input : List Byte) : Nat :=
  Nat.ofDigits 8 (input.reverse.map digitValue)

theorem isOctal_iff {char : Byte} :
    IsOctal char ↔ ¬ (char < digitZero ∨ digitSeven < char) := by
  simp only [IsOctal, not_or, UInt8.not_lt]

theorem IsOctal.toNat_bounds {char : Byte} (octal : IsOctal char) :
    48 ≤ char.toNat ∧ char.toNat ≤ 55 :=
  octal

theorem digitValue_lt {char : Byte} (octal : IsOctal char) :
    digitValue char < 8 := by
  have bounds := octal.toNat_bounds
  unfold digitValue
  omega

/-- The digit that the loop finds is the digit shown. -/
theorem toNat_sub_digitZero {char : Byte} (octal : IsOctal char) :
    (char - digitZero).toNat = digitValue char :=
  UInt8.toNat_sub_of_le char digitZero octal.1

theorem octalValue_cons (char : Byte) (rest : List Byte) :
    octalValue (char :: rest) =
      digitValue char * 8 ^ rest.length + octalValue rest := by
  rw [octalValue, List.reverse_cons, List.map_append, Nat.ofDigits_append,
    List.length_map, List.length_reverse]
  simp only [List.map_cons, List.map_nil, Nat.ofDigits_singleton, octalValue]
  ring

/-- Zeros in front of a text do not change its value. -/
theorem octalValue_pad (count : Nat) (input : List Byte) :
    octalValue (List.replicate count digitZero ++ input) =
      octalValue input := by
  rw [octalValue, List.reverse_append, List.reverse_replicate,
    List.map_append, List.map_replicate]
  exact Nat.ofDigits_append_replicate_zero _

theorem digits_lt {input : List Byte}
    (octal : ∀ char ∈ input, IsOctal char) :
    ∀ digit ∈ input.reverse.map digitValue, digit < 8 := by
  intro digit member
  rcases List.mem_map.mp member with ⟨char, among, rfl⟩
  exact digitValue_lt (octal char (List.mem_reverse.mp among))

theorem octalValue_lt {input : List Byte}
    (octal : ∀ char ∈ input, IsOctal char) :
    octalValue input < 8 ^ input.length := by
  have small :=
    Nat.ofDigits_lt_base_pow_length (by decide) (digits_lt octal)
  rwa [List.length_map, List.length_reverse] at small

theorem octalValue_lt_of_short {input : List Byte}
    (short : input.length ≤ 4) (octal : ∀ char ∈ input, IsOctal char) :
    octalValue input < 8 ^ 4 :=
  Nat.lt_of_lt_of_le (octalValue_lt octal)
    (Nat.pow_le_pow_right (by decide) short)

/-- A text can be told from its digits. -/
theorem map_digitValue {input : List Byte}
    (octal : ∀ char ∈ input, IsOctal char) :
    (input.map digitValue).map (fun digit => UInt8.ofNat (digit + 48)) =
      input := by
  rw [List.map_map]
  refine (List.map_congr_left ?_).trans (List.map_id input)
  intro char member
  have bounds := (octal char member).toNat_bounds
  have restored : char.toNat - 48 + 48 = char.toNat := by
    omega
  rw [Function.comp_apply, digitValue, restored, UInt8.ofNat_toNat, id]

/-- Texts of one length that have the same value are the same. -/
theorem octalValue_injective {left right : List Byte}
    (length : left.length = right.length)
    (leftOctal : ∀ char ∈ left, IsOctal char)
    (rightOctal : ∀ char ∈ right, IsOctal char)
    (same : octalValue left = octalValue right) : left = right := by
  have digits :
      left.reverse.map digitValue = right.reverse.map digitValue :=
    Nat.ofDigits_inj_of_len_eq (by decide) (by simpa using length)
      (digits_lt leftOctal) (digits_lt rightOctal) same
  rw [List.map_reverse, List.map_reverse] at digits
  rw [← map_digitValue leftOctal, ← map_digitValue rightOctal,
    List.reverse_injective digits]

/-! ## Reading -/

/-- One turn of the loop appends a digit. -/
theorem toNat_appendDigit {result : Mode} {digit : Nat} (small : digit < 8)
    (room : (result.toNat + 1) * 8 ≤ 2 ^ 32) :
    (result <<< 3 ||| BitVec.ofNat 32 digit).toNat =
      result.toNat * 8 + digit := by
  have digitFits : digit % 2 ^ 32 = digit :=
    Nat.mod_eq_of_lt (by omega)
  have shiftFits : result.toNat <<< 3 % 2 ^ 32 = result.toNat <<< 3 :=
    Nat.mod_eq_of_lt (by rw [Nat.shiftLeft_eq]; omega)
  rw [BitVec.toNat_or, BitVec.toNat_shiftLeft, BitVec.toNat_ofNat,
    digitFits, shiftFits, ← Nat.shiftLeft_add_eq_or_of_lt small,
    Nat.shiftLeft_eq]

/-- The loop appends the digits of a text, if nothing is shifted out. -/
theorem readDigits_of_octal {input : List Byte} {result : Mode}
    (octal : ∀ char ∈ input, IsOctal char)
    (room : (result.toNat + 1) * 8 ^ input.length ≤ 2 ^ 32) :
    ∃ mode, readDigits input result = some mode ∧
      mode.toNat = result.toNat * 8 ^ input.length + octalValue input := by
  induction input generalizing result with
  | nil => exact ⟨result, rfl, by simp [octalValue]⟩
  | cons char rest induction =>
      have charOctal : IsOctal char := octal char List.mem_cons_self
      have charSmall := digitValue_lt charOctal
      have restOctal : ∀ char ∈ rest, IsOctal char :=
        fun other among => octal other (List.mem_cons_of_mem _ among)
      have power : 1 ≤ 8 ^ rest.length := Nat.one_le_pow' _ _
      rw [List.length_cons, pow_succ'] at room
      have next :
          (result <<< 3 |||
              BitVec.ofNat 32 (char - digitZero).toNat).toNat =
            result.toNat * 8 + digitValue char := by
        rw [toNat_sub_digitZero charOctal]
        refine toNat_appendDigit charSmall ?_
        nlinarith only [room, power]
      have nextRoom :
          ((result <<< 3 |||
              BitVec.ofNat 32 (char - digitZero).toNat).toNat + 1) *
            8 ^ rest.length ≤ 2 ^ 32 := by
        rw [next]
        nlinarith only [room, charSmall]
      rcases induction restOctal nextRoom with ⟨mode, read, isValue⟩
      refine ⟨mode, ?_, ?_⟩
      · rw [readDigits, if_neg (isOctal_iff.mp charOctal), read]
      · rw [isValue, next, octalValue_cons, List.length_cons]
        ring

/-- The loop goes through a text only if it is made of digits. -/
theorem octal_of_readDigits {input : List Byte} {result mode : Mode}
    (read : readDigits input result = some mode) :
    ∀ char ∈ input, IsOctal char := by
  induction input generalizing result with
  | nil => simp
  | cons char rest induction =>
      rw [readDigits] at read
      split at read
      · cases read
      · rename_i isDigit
        intro other member
        rcases List.mem_cons.mp member with rfl | among
        · exact isOctal_iff.mpr isDigit
        · exact induction read other among

/-- A single bit is set or not. -/
theorem and_twoPow_ne_zero (mode : Mode) {position : Nat}
    (inside : position < 32) :
    mode &&& BitVec.twoPow 32 position ≠ 0#32 ↔
      mode.getLsbD position = true := by
  have set : BitVec.twoPow 32 position ≠ 0#32 := by
    intro zero
    have bit := congrArg (BitVec.getLsbD · position) zero
    simp [inside] at bit
  rw [BitVec.and_twoPow]
  cases mode.getLsbD position with
  | false => simp
  | true => simpa using set

/-- A bit of the first of four digits is a special bit. -/
theorem special_bit (result : Mode) (position : Nat)
    (special : position < 3) :
    result >>> 9 &&& 7 &&& BitVec.twoPow 32 position ≠ 0#32 ↔
      hasBit result (BitVec.twoPow 32 (9 + position)) = true := by
  have seven : (7 : Mode).getLsbD position = true := by
    have all : ∀ position < 3, (7 : Mode).getLsbD position = true := by
      decide
    exact all position special
  rw [hasBit, decide_eq_true_iff, and_twoPow_ne_zero _ (by omega),
    and_twoPow_ne_zero _ (by omega), BitVec.getLsbD_and,
    BitVec.getLsbD_ushiftRight, seven, Bool.and_true]

theorem single_sIsuid : ∃ position, sIsuid = BitVec.twoPow 32 position :=
  ⟨11, rfl⟩

theorem single_sIsgid : ∃ position, sIsgid = BitVec.twoPow 32 position :=
  ⟨10, rfl⟩

theorem single_sIsvtx : ∃ position, sIsvtx = BitVec.twoPow 32 position :=
  ⟨9, rfl⟩

/-- Decoding the first of four digits keeps the bits they stand for. -/
theorem rebuiltMode_eq (result : Mode) :
    rebuiltMode result = result &&& permissionBits := by
  have uid :
      result >>> 9 &&& 7 &&& 4 ≠ 0#32 ↔ hasBit result sIsuid = true :=
    special_bit result 2 (by decide)
  have gid :
      result >>> 9 &&& 7 &&& 2 ≠ 0#32 ↔ hasBit result sIsgid = true :=
    special_bit result 1 (by decide)
  have vtx :
      result >>> 9 &&& 7 &&& 1 ≠ 0#32 ↔ hasBit result sIsvtx = true :=
    special_bit result 0 (by decide)
  have layout : 0x1FF ||| sIsuid ||| sIsgid ||| sIsvtx = permissionBits := by
    decide
  rw [rebuiltMode]
  simp only [uid, gid, vtx, Triple.ite_or]
  rw [Triple.ite_hasBit single_sIsuid, Triple.ite_hasBit single_sIsgid,
    Triple.ite_hasBit single_sIsvtx, ← BitVec.and_or_distrib_left,
    ← BitVec.and_or_distrib_left, ← BitVec.and_or_distrib_left, layout]

theorem toNat_and_permissionBits (mode : Mode) :
    (mode &&& permissionBits).toNat = mode.toNat % 8 ^ 4 := by
  rw [BitVec.toNat_and]
  exact Nat.and_two_pow_sub_one_eq_mod mode.toNat 12

/-- What is accepted: one to four digits, which are read in base eight. -/
theorem parsedModeOctal_iff {input : List Byte} {mode : Mode} :
    parsedModeOctal input = some mode ↔
      (1 ≤ input.length ∧ input.length ≤ 4 ∧
        ∀ char ∈ input, IsOctal char) ∧
      mode.toNat = octalValue input := by
  unfold parsedModeOctal
  by_cases size : input.length = 0 ∨ 4 < input.length
  · rw [if_pos size]
    constructor
    · intro impossible
      cases impossible
    · rintro ⟨⟨positive, short, _⟩, _⟩
      omega
  rw [if_neg size, Option.bind_eq_bind, Option.bind_eq_some_iff]
  have short : input.length ≤ 4 := by
    omega
  by_cases octal : ∀ char ∈ input, IsOctal char
  · have power : 8 ^ input.length ≤ 8 ^ 4 :=
      Nat.pow_le_pow_right (by decide) short
    have small := octalValue_lt_of_short short octal
    rcases readDigits_of_octal octal
        (by rw [BitVec.toNat_zero]; omega : ((0#32).toNat + 1) *
          8 ^ input.length ≤ 2 ^ 32) with ⟨found, read, isValue⟩
    rw [BitVec.toNat_zero, Nat.zero_mul, Nat.zero_add] at isValue
    -- both branches give what the loop has put together
    have branches :
        (if input.length = 4 then some (rebuiltMode found)
          else some found) = some found := by
      have kept : found &&& permissionBits = found := by
        apply BitVec.eq_of_toNat_eq
        rw [toNat_and_permissionBits]
        exact Nat.mod_eq_of_lt (by omega)
      rw [rebuiltMode_eq, kept, ite_self]
    constructor
    · rintro ⟨_, again, given⟩
      cases read.symm.trans again
      cases branches.symm.trans given
      exact ⟨⟨by omega, short, octal⟩, isValue⟩
    · rintro ⟨_, same⟩
      refine ⟨found, read, ?_⟩
      rw [branches, BitVec.toNat_inj.mp (isValue.trans same.symm)]
  · constructor
    · rintro ⟨_, read, _⟩
      exact absurd (octal_of_readDigits read) octal
    · rintro ⟨⟨_, _, isOctal⟩, _⟩
      exact absurd isOctal octal

/-! ## Writing -/

theorem digitChar_spec {digit : Mode} (small : digit.toNat < 8) :
    IsOctal (digitChar digit) ∧
      digitValue (digitChar digit) = digit.toNat := by
  have all :
      ∀ value < 8, IsOctal (digitZero + UInt8.ofNat value) ∧
        digitValue (digitZero + UInt8.ofNat value) = value := by
    unfold IsOctal
    decide
  exact all digit.toNat small

/-- The last digit of a mode. -/
theorem toNat_and_seven (mode : Mode) :
    (mode &&& 7).toNat = mode.toNat % 8 := by
  rw [BitVec.toNat_and]
  exact Nat.and_two_pow_sub_one_eq_mod mode.toNat 3

/-- The three special bits are the fourth digit from behind. -/
theorem special_eq (mode : Mode) :
    (mode &&& (sIsuid ||| sIsgid ||| sIsvtx)) >>> 9 &&& (7 : Mode) =
      mode >>> 9 &&& (7 : Mode) := by
  rw [BitVec.ushiftRight_and_distrib, BitVec.and_assoc]
  rfl

theorem octalText_isOctal (mode : Mode) :
    ∀ char ∈ octalText mode, IsOctal char := by
  have last : ∀ number : Mode, IsOctal (digitChar (number &&& 7)) := by
    intro number
    refine (digitChar_spec ?_).1
    rw [toNat_and_seven]
    exact Nat.mod_lt _ (by decide)
  simp only [octalText, List.mem_cons, List.not_mem_nil, or_false]
  rintro char (rfl | rfl | rfl | rfl) <;> exact last _

theorem octalValue_octalText (mode : Mode) :
    octalValue (octalText mode) = mode.toNat % 8 ^ 4 := by
  have shown : ∀ number : Mode,
      digitValue (digitChar (number &&& 7)) = number.toNat % 8 := by
    intro number
    rw [(digitChar_spec _).2, toNat_and_seven]
    rw [toNat_and_seven]
    exact Nat.mod_lt _ (by decide)
  have nothing : octalValue [] = 0 := rfl
  rw [octalText, special_eq]
  simp only [octalValue_cons, shown, nothing, List.length_cons,
    List.length_nil, BitVec.toNat_ushiftRight, Nat.shiftRight_eq_div_pow]
  omega

theorem parsedModeOctal_octalText (mode : Mode) :
    parsedModeOctal (octalText mode) = some (mode &&& permissionBits) := by
  refine parsedModeOctal_iff.mpr
    ⟨⟨Nat.succ_le_succ (Nat.zero_le 3), Nat.le_refl 4,
      octalText_isOctal mode⟩, ?_⟩
  rw [toNat_and_permissionBits, octalValue_octalText]

/-- An accepted text, with zeros in front, is the notation of its value. -/
theorem octalText_of_parsed {input : List Byte} {mode : Mode}
    (parsed : parsedModeOctal input = some mode) :
    octalText mode =
      List.replicate (4 - input.length) digitZero ++ input := by
  rcases parsedModeOctal_iff.mp parsed with ⟨⟨_, short, octal⟩, isValue⟩
  have small := octalValue_lt_of_short short octal
  refine octalValue_injective ?_ (octalText_isOctal mode) ?_ ?_
  · rw [List.length_append, List.length_replicate, Nat.sub_add_cancel short]
    rfl
  · intro char member
    rcases List.mem_append.mp member with padding | own
    · rw [List.eq_of_mem_replicate padding]
      exact ⟨by decide, by decide⟩
    · exact octal char own
  · rw [octalValue_octalText, octalValue_pad, isValue,
      Nat.mod_eq_of_lt small]

/-! ## The notation as a code -/

theorem parseModeOctal_of_some {input : List Byte} {mode : Mode}
    (parsed : parsedModeOctal input = some mode) (outMode : Mode) :
    parseModeOctal input outMode = (true, mode) := by
  rw [parseModeOctal, parsed]

theorem parseModeOctal_of_none {input : List Byte}
    (rejected : parsedModeOctal input = none) (outMode : Mode) :
    parseModeOctal input outMode = (false, outMode) := by
  rw [parseModeOctal, rejected]

/--
The octal notation is a faithful code and agrees with the symbolic one.
Whatever `*out_mode` holds before: the four characters of a mode are read back
as its permission bits, which is what its symbolic notation is read back as; a
text is accepted exactly if it is made of one to four digits below eight; it is
then read in base eight, and its value is written as the text with zeros in
front; and a rejected text leaves `*out_mode` alone.
-/
theorem modeOctal_faithful (outMode : Mode) :
    (∀ mode capacity humanCapacity, 4 ≤ capacity → 10 ≤ humanCapacity →
      ∃ text human, formatModeOctal mode capacity = some text ∧
        formatModeHuman mode humanCapacity = some human ∧
        text.length = 4 ∧
        parseModeOctal text outMode = (true, mode &&& permissionBits) ∧
        parseModeHuman human outMode = parseModeOctal text outMode) ∧
    ∀ input,
      ((parseModeOctal input outMode).1 = true ↔
        1 ≤ input.length ∧ input.length ≤ 4 ∧
          ∀ char ∈ input, IsOctal char) ∧
      ((parseModeOctal input outMode).1 = true →
        (parseModeOctal input outMode).2.toNat = octalValue input ∧
        ∀ capacity, 4 ≤ capacity →
          formatModeOctal (parseModeOctal input outMode).2 capacity =
            some (List.replicate (4 - input.length) digitZero ++ input)) ∧
      ((parseModeOctal input outMode).1 = false →
        (parseModeOctal input outMode).2 = outMode) := by
  constructor
  · intro mode capacity humanCapacity room humanRoom
    have back := parseModeOctal_of_some (parsedModeOctal_octalText mode)
      outMode
    refine ⟨octalText mode, humanText mode, if_neg (Nat.not_lt.mpr room),
      if_neg (Nat.not_lt.mpr humanRoom), rfl, back, ?_⟩
    rw [back, parseModeHuman, parsedMode_humanText]
  · intro input
    cases parsed : parsedModeOctal input with
    | none =>
        rw [parseModeOctal_of_none parsed]
        refine ⟨⟨Bool.noConfusion, ?_⟩, Bool.noConfusion, fun _ => rfl⟩
        intro wellFormed
        have small := octalValue_lt_of_short wellFormed.2.1 wellFormed.2.2
        have accepted :
            parsedModeOctal input =
              some (BitVec.ofNat 32 (octalValue input)) := by
          refine parsedModeOctal_iff.mpr ⟨wellFormed, ?_⟩
          rw [BitVec.toNat_ofNat]
          exact Nat.mod_eq_of_lt (by omega)
        cases parsed.symm.trans accepted
    | some mode =>
        rw [parseModeOctal_of_some parsed]
        rcases parsedModeOctal_iff.mp parsed with ⟨wellFormed, isValue⟩
        refine ⟨⟨fun _ => wellFormed, fun _ => rfl⟩, ?_, Bool.noConfusion⟩
        intro _
        refine ⟨isValue, ?_⟩
        intro capacity room
        rw [formatModeOctal, if_neg (Nat.not_lt.mpr room),
          octalText_of_parsed parsed]

end BcIo.Perm
