import BcIo.Platform
import Mathlib.Data.BitVec

/-!
# The symbolic notation of a mode

`bc_io_perm_format_mode_human` and `bc_io_perm_parse_mode_human`.  Three times
three letters stand for twelve bits: in each triple the third letter shows two
of them, the permission to execute and a special bit.
-/

namespace BcIo.Perm

/-- A `uint32_t` mode. -/
abbrev Mode := BitVec 32

def sIfmt : Mode := 0o170000
def sIfreg : Mode := 0o100000
def sIfdir : Mode := 0o040000
def sIflnk : Mode := 0o120000
def sIfchr : Mode := 0o020000
def sIfblk : Mode := 0o060000
def sIfifo : Mode := 0o010000
def sIfsock : Mode := 0o140000

/-- `mode & 07777`. -/
def permissionBits : Mode := 0o7777

/-- The characters of the notation. -/
def dash : Byte := 45
def question : Byte := 63
def upperS : Byte := 83
def upperT : Byte := 84
def lowerB : Byte := 98
def lowerC : Byte := 99
def lowerD : Byte := 100
def lowerL : Byte := 108
def lowerP : Byte := 112
def lowerR : Byte := 114
def lowerS : Byte := 115
def lowerT : Byte := 116
def lowerW : Byte := 119
def lowerX : Byte := 120

/-- `bc_io_perm_file_type_char`. -/
def fileTypeChar (mode : Mode) : Byte :=
  if mode &&& sIfmt = sIfreg then dash
  else if mode &&& sIfmt = sIfdir then lowerD
  else if mode &&& sIfmt = sIflnk then lowerL
  else if mode &&& sIfmt = sIfchr then lowerC
  else if mode &&& sIfmt = sIfblk then lowerB
  else if mode &&& sIfmt = sIfifo then lowerP
  else if mode &&& sIfmt = sIfsock then lowerS
  else question

/-! ## Triples -/

/--
One of the three triples: its four bits, and the letters that show the special
bit with and without the permission to execute.
-/
structure Triple where
  readBit : Mode
  writeBit : Mode
  execBit : Mode
  specialBit : Mode
  specialWithExec : Byte
  specialNoExec : Byte
  deriving DecidableEq, Repr

/-- `S_IRUSR`, `S_IWUSR`, `S_IXUSR` and `S_ISUID`. -/
def userTriple : Triple :=
  ⟨0o400, 0o200, 0o100, 0o4000, lowerS, upperS⟩

/-- `S_IRGRP`, `S_IWGRP`, `S_IXGRP` and `S_ISGID`. -/
def groupTriple : Triple :=
  ⟨0o040, 0o020, 0o010, 0o2000, lowerS, upperS⟩

/-- `S_IROTH`, `S_IWOTH`, `S_IXOTH` and `S_ISVTX`. -/
def otherTriple : Triple :=
  ⟨0o004, 0o002, 0o001, 0o1000, lowerT, upperT⟩

/-- The three characters that `bc_io_perm_format_mode_human` writes for a triple. -/
def formatTriple (triple : Triple) (mode : Mode) : List Byte :=
  [if mode &&& triple.readBit ≠ 0#32 then lowerR else dash,
    if mode &&& triple.writeBit ≠ 0#32 then lowerW else dash,
    if mode &&& triple.specialBit ≠ 0#32 then
      if mode &&& triple.execBit ≠ 0#32 then triple.specialWithExec
      else triple.specialNoExec
    else
      if mode &&& triple.execBit ≠ 0#32 then lowerX else dash]

/-- What `bc_io_perm_format_mode_human` writes when there is room for it. -/
def humanText (mode : Mode) : List Byte :=
  fileTypeChar mode ::
    (formatTriple userTriple mode ++ formatTriple groupTriple mode ++
      formatTriple otherTriple mode)

/--
`bc_io_perm_format_mode_human`: the characters it has written, whose number is
`*out_length`, or none when it returns `false`.
-/
def formatModeHuman (mode : Mode) (capacity : Nat) : Option (List Byte) :=
  if capacity < 10 then none else some (humanText mode)

/--
`bc_io_perm_parse_rwx_triple` on the characters at `input[position]`: the value
of `*accumulated` when it returns `true`.
-/
def parseRwxTriple (input : List Byte) (position : Nat) (triple : Triple)
    (accumulated : Mode) : Option Mode :=
  let readChar := input.getD position 0
  let writeChar := input.getD (position + 1) 0
  let executeChar := input.getD (position + 2) 0
  if readChar ≠ lowerR ∧ readChar ≠ dash then none
  else if writeChar ≠ lowerW ∧ writeChar ≠ dash then none
  else
    let accumulated :=
      if readChar = lowerR then accumulated ||| triple.readBit
      else accumulated
    let accumulated :=
      if writeChar = lowerW then accumulated ||| triple.writeBit
      else accumulated
    if executeChar = lowerX then
      some (accumulated ||| triple.execBit)
    else if executeChar = dash then
      some accumulated
    else if executeChar = triple.specialWithExec then
      some (accumulated ||| triple.execBit ||| triple.specialBit)
    else if executeChar = triple.specialNoExec then
      some (accumulated ||| triple.specialBit)
    else
      none

/-- The characters that may stand for the type. -/
def typeChars : List Byte :=
  [dash, lowerD, lowerL, lowerC, lowerB, lowerP, lowerS,
    question]

/-- The mode that `bc_io_perm_parse_mode_human` finds, if it accepts. -/
def parsedMode (input : List Byte) : Option Mode :=
  if input.length ≠ 10 ∧ input.length ≠ 9 then none
  else if input.length = 10 ∧ input.getD 0 0 ∉ typeChars then none
  else do
    let base := if input.length = 10 then 1 else 0
    let mode ← parseRwxTriple input base userTriple 0#32
    let mode ← parseRwxTriple input (base + 3) groupTriple mode
    parseRwxTriple input (base + 6) otherTriple mode

/--
`bc_io_perm_parse_mode_human`: its result, and `*out_mode` afterwards, which
holds `outMode` before.
-/
def parseModeHuman (input : List Byte) (outMode : Mode) : Bool × Mode :=
  match parsedMode input with
  | some mode => (true, mode)
  | none => (false, outMode)

/-! ## Letters and flags -/

/-- What the letters of a triple show. -/
structure Flags where
  read : Bool
  write : Bool
  exec : Bool
  special : Bool
  deriving DecidableEq, Repr

/-- A bit is set in a mode. -/
def hasBit (mode bit : Mode) : Bool :=
  decide (mode &&& bit ≠ 0#32)

namespace Triple

variable (triple : Triple)

def letters (flags : Flags) : List Byte :=
  [if flags.read then lowerR else dash,
    if flags.write then lowerW else dash,
    if flags.special then
      if flags.exec then triple.specialWithExec else triple.specialNoExec
    else
      if flags.exec then lowerX else dash]

/-- The bits that the flags of a triple stand for. -/
def bits (flags : Flags) : Mode :=
  (if flags.read then triple.readBit else 0#32) |||
    (if flags.write then triple.writeBit else 0#32) |||
    (if flags.exec then triple.execBit else 0#32) |||
    (if flags.special then triple.specialBit else 0#32)

/-- The flags of a triple that are set in a mode. -/
def flagsIn (mode : Mode) : Flags :=
  ⟨hasBit mode triple.readBit, hasBit mode triple.writeBit,
    hasBit mode triple.execBit, hasBit mode triple.specialBit⟩

/-- No two meanings of the third letter have the same letter. -/
structure Legible : Prop where
  withExec : triple.specialWithExec ≠ lowerX ∧ triple.specialWithExec ≠ dash
  noExec : triple.specialNoExec ≠ lowerX ∧ triple.specialNoExec ≠ dash
  distinct : triple.specialNoExec ≠ triple.specialWithExec

variable {triple}

theorem formatTriple_eq (mode : Mode) :
    formatTriple triple mode = triple.letters (triple.flagsIn mode) := by
  simp [formatTriple, letters, flagsIn, hasBit]

@[simp]
theorem readChar_iff (read : Bool) :
    (if read then lowerR else dash) = lowerR ↔ read = true := by
  cases read <;> decide

@[simp]
theorem writeChar_iff (write : Bool) :
    (if write then lowerW else dash) = lowerW ↔ write = true := by
  cases write <;> decide

/-- A character that is accepted shows one of two flags. -/
theorem exists_flag {char letter : Byte}
    (accepted : ¬ (char ≠ letter ∧ char ≠ dash)) :
    ∃ flag : Bool, char = if flag then letter else dash := by
  by_cases isLetter : char = letter
  · exact ⟨true, isLetter⟩
  · refine ⟨false, ?_⟩
    by_contra isOther
    exact accepted ⟨isLetter, isOther⟩

/-- Bits are added one after the other. -/
theorem or_bits (accumulated : Mode) (flags : Flags) :
    accumulated ||| triple.bits flags =
      accumulated ||| (if flags.read then triple.readBit else 0#32) |||
        (if flags.write then triple.writeBit else 0#32) |||
        (if flags.exec then triple.execBit else 0#32) |||
        (if flags.special then triple.specialBit else 0#32) := by
  simp only [bits, BitVec.or_assoc]

theorem ite_or (flag : Bool) (accumulated bit : Mode) :
    (if flag = true then accumulated ||| bit else accumulated) =
      accumulated ||| if flag then bit else 0#32 := by
  cases flag <;> simp

/-- A triple is accepted exactly if it shows flags, and then adds their bits. -/
theorem parseRwxTriple_iff (legible : triple.Legible) {input : List Byte}
    {position : Nat} {accumulated mode : Mode} :
    parseRwxTriple input position triple accumulated = some mode ↔
      ∃ flags,
        [input.getD position 0, input.getD (position + 1) 0,
            input.getD (position + 2) 0] = triple.letters flags ∧
          mode = accumulated ||| triple.bits flags := by
  unfold parseRwxTriple
  generalize input.getD position 0 = readChar
  generalize input.getD (position + 1) 0 = writeChar
  generalize input.getD (position + 2) 0 = executeChar
  constructor
  · intro accepted
    dsimp only at accepted
    split at accepted
    · cases accepted
    rename_i isRead
    split at accepted
    · cases accepted
    rename_i isWrite
    rcases exists_flag isRead with ⟨read, rfl⟩
    rcases exists_flag isWrite with ⟨write, rfl⟩
    simp only [readChar_iff, writeChar_iff, ite_or] at accepted
    -- the third character decides about two flags at once
    split at accepted
    · rename_i isExec
      cases accepted
      exact ⟨⟨read, write, true, false⟩, by simp [letters, isExec],
        by simp [or_bits]⟩
    split at accepted
    · rename_i isDash
      cases accepted
      exact ⟨⟨read, write, false, false⟩, by simp [letters, isDash],
        by simp [or_bits]⟩
    split at accepted
    · rename_i isBoth
      cases accepted
      exact ⟨⟨read, write, true, true⟩, by simp [letters, isBoth],
        by simp [or_bits]⟩
    split at accepted
    · rename_i isSpecial
      cases accepted
      exact ⟨⟨read, write, false, true⟩, by simp [letters, isSpecial],
        by simp [or_bits]⟩
    · cases accepted
  · rintro ⟨⟨read, write, exec, special⟩, shown, rfl⟩
    simp only [letters, List.cons.injEq, and_true] at shown
    rcases shown with ⟨rfl, rfl, rfl⟩
    have dashes : dash ≠ lowerX := by
      decide
    have readable :
        ¬ ((if read = true then lowerR else dash) ≠ lowerR ∧
          (if read = true then lowerR else dash) ≠ dash) := by
      cases read <;> simp
    have writable :
        ¬ ((if write = true then lowerW else dash) ≠ lowerW ∧
          (if write = true then lowerW else dash) ≠ dash) := by
      cases write <;> simp
    rw [if_neg readable, if_neg writable, or_bits]
    simp only [readChar_iff, writeChar_iff, ite_or]
    cases exec <;> cases special <;>
      simp [legible.withExec, legible.noExec, legible.distinct, dashes]

end Triple

theorem legible_userTriple : userTriple.Legible := by
  constructor <;> decide

theorem legible_groupTriple : groupTriple.Legible := by
  constructor <;> decide

theorem legible_otherTriple : otherTriple.Legible := by
  constructor <;> decide

/-! ## Whole notations -/

/-- The flags of all three triples. -/
structure Permissions where
  user : Flags
  group : Flags
  other : Flags
  deriving DecidableEq, Repr

namespace Permissions

/-- The nine letters. -/
def letters (permissions : Permissions) : List Byte :=
  userTriple.letters permissions.user ++
    groupTriple.letters permissions.group ++
    otherTriple.letters permissions.other

/-- The mode that has exactly these flags. -/
def mode (permissions : Permissions) : Mode :=
  userTriple.bits permissions.user ||| groupTriple.bits permissions.group |||
    otherTriple.bits permissions.other

/-- The flags that are set in a mode. -/
def ofMode (mode : Mode) : Permissions :=
  ⟨userTriple.flagsIn mode, groupTriple.flagsIn mode,
    otherTriple.flagsIn mode⟩

theorem length_letters (permissions : Permissions) :
    permissions.letters.length = 9 :=
  rfl

end Permissions

theorem humanText_eq (mode : Mode) :
    humanText mode =
      fileTypeChar mode :: (Permissions.ofMode mode).letters := by
  simp only [humanText, Triple.formatTriple_eq, Permissions.letters,
    Permissions.ofMode]

/-- The characters of a triple. -/
def charsAt (input : List Byte) (position : Nat) : List Byte :=
  [input.getD position 0, input.getD (position + 1) 0,
    input.getD (position + 2) 0]

theorem drop_eq_charsAt {input : List Byte} {position : Nat}
    (inside : position + 3 ≤ input.length) :
    input.drop position =
      charsAt input position ++ input.drop (position + 3) := by
  have first : position < input.length := by omega
  have second : position + 1 < input.length := by omega
  have third : position + 2 < input.length := by omega
  rw [List.drop_eq_getElem_cons first, List.drop_eq_getElem_cons second,
    List.drop_eq_getElem_cons third]
  simp [charsAt, List.getD_eq_getElem?_getD, first, second, third]

/-- Nine characters are three times three. -/
theorem drop_eq_triples {input : List Byte} {base : Nat}
    (length : input.length = base + 9) :
    input.drop base =
      charsAt input base ++ charsAt input (base + 3) ++
        charsAt input (base + 6) := by
  have rest : input.drop (base + 9) = [] := by
    rw [← length, List.drop_length]
  rw [drop_eq_charsAt (by omega), drop_eq_charsAt (by omega),
    drop_eq_charsAt (by omega), rest]
  simp

/-- The three triples are read one after the other. -/
theorem parseTriples_iff {input : List Byte} (base : Nat) {mode : Mode}
    (length : input.length = base + 9) :
    (do
        let mode ← parseRwxTriple input base userTriple 0#32
        let mode ← parseRwxTriple input (base + 3) groupTriple mode
        parseRwxTriple input (base + 6) otherTriple mode) = some mode ↔
      ∃ permissions : Permissions, mode = permissions.mode ∧
        input.drop base = permissions.letters := by
  simp only [Option.bind_eq_bind, Option.bind_eq_some_iff,
    Triple.parseRwxTriple_iff legible_userTriple,
    Triple.parseRwxTriple_iff legible_groupTriple,
    Triple.parseRwxTriple_iff legible_otherTriple]
  constructor
  · rintro ⟨_, ⟨user, userShown, rfl⟩, _, ⟨group, groupShown, rfl⟩, other,
      otherShown, rfl⟩
    refine ⟨⟨user, group, other⟩, ?_, ?_⟩
    · simp [Permissions.mode]
    · rw [drop_eq_triples length, Permissions.letters, ← userShown,
        ← groupShown, ← otherShown]
      rfl
  · rintro ⟨⟨user, group, other⟩, rfl, shown⟩
    rw [drop_eq_triples length, Permissions.letters] at shown
    rcases List.append_inj shown rfl with ⟨front, otherShown⟩
    rcases List.append_inj front rfl with ⟨userShown, groupShown⟩
    refine ⟨_, ⟨user, userShown, rfl⟩, _, ⟨group, groupShown, rfl⟩, other,
      otherShown, ?_⟩
    simp [Permissions.mode]

/-- What is accepted: nine letters, with a type in front of them or without. -/
theorem parsedMode_iff {input : List Byte} {mode : Mode} :
    parsedMode input = some mode ↔
      ∃ permissions : Permissions, mode = permissions.mode ∧
        (input = permissions.letters ∨
          ∃ char ∈ typeChars, input = char :: permissions.letters) := by
  unfold parsedMode
  constructor
  · intro accepted
    split at accepted
    · cases accepted
    split at accepted
    · cases accepted
    rename_i size typed
    by_cases ten : input.length = 10
    · rw [if_pos ten] at accepted
      rcases (parseTriples_iff 1 ten).mp accepted with
        ⟨permissions, isMode, shown⟩
      refine ⟨permissions, isMode, Or.inr ?_⟩
      cases input with
      | nil => cases ten
      | cons char rest =>
          refine ⟨char, ?_, ?_⟩
          · simpa [ten] using typed
          · rw [← shown]
            rfl
    · have nine : input.length = 9 := by
        simpa [ten] using size
      rw [if_neg ten] at accepted
      rcases (parseTriples_iff 0 nine).mp accepted with
        ⟨permissions, isMode, shown⟩
      exact ⟨permissions, isMode, Or.inl (by simpa using shown)⟩
  · rintro ⟨permissions, rfl, rfl | ⟨char, isType, rfl⟩⟩
    · have nine := permissions.length_letters
      rw [if_neg (by simp [nine]), if_neg (by simp [nine]),
        if_neg (by simp [nine])]
      exact (parseTriples_iff 0 nine).mpr
        ⟨permissions, rfl, rfl⟩
    · have ten : (char :: permissions.letters).length = 10 := by
        rw [List.length_cons, permissions.length_letters]
      rw [if_neg (by simp [ten]), if_neg (by simpa using fun _ => isType),
        if_pos ten]
      exact (parseTriples_iff 1 ten).mpr
        ⟨permissions, rfl, rfl⟩

/-! ## Modes -/

theorem hasBit_or (left right bit : Mode) :
    hasBit (left ||| right) bit = (hasBit left bit || hasBit right bit) := by
  rw [hasBit, hasBit, hasBit, ← Bool.decide_or, decide_eq_decide,
    BitVec.and_or_distrib_right]
  exact (not_congr BitVec.or_eq_zero_iff).trans not_and_or

theorem hasBit_ite (flag : Bool) (set bit : Mode) :
    hasBit (if flag then set else 0#32) bit = (flag && hasBit set bit) := by
  cases flag <;> simp [hasBit]

namespace Triple

/-- The bits of a triple. -/
def allBits (triple : Triple) : Mode :=
  triple.readBit ||| triple.writeBit ||| triple.execBit |||
    triple.specialBit

/-- Each of the four is a single bit. -/
structure Single (triple : Triple) : Prop where
  read : ∃ position, triple.readBit = BitVec.twoPow 32 position
  write : ∃ position, triple.writeBit = BitVec.twoPow 32 position
  exec : ∃ position, triple.execBit = BitVec.twoPow 32 position
  special : ∃ position, triple.specialBit = BitVec.twoPow 32 position

/-- A single bit is set in a mode or not. -/
theorem ite_hasBit {bit : Mode}
    (single : ∃ position, bit = BitVec.twoPow 32 position) (mode : Mode) :
    (if hasBit mode bit = true then bit else 0#32) = mode &&& bit := by
  rcases single with ⟨position, rfl⟩
  rw [hasBit, BitVec.and_twoPow]
  cases mode.getLsbD position with
  | false => simp
  | true =>
      by_cases zero : BitVec.twoPow 32 position = 0#32 <;> simp [zero]

theorem bits_flagsIn {triple : Triple} (single : triple.Single)
    (mode : Mode) :
    triple.bits (triple.flagsIn mode) = mode &&& triple.allBits := by
  rw [bits, flagsIn, ite_hasBit single.read, ite_hasBit single.write,
    ite_hasBit single.exec, ite_hasBit single.special, allBits,
    BitVec.and_or_distrib_left, BitVec.and_or_distrib_left,
    BitVec.and_or_distrib_left]

end Triple

theorem single_userTriple : userTriple.Single :=
  ⟨⟨8, rfl⟩, ⟨7, rfl⟩, ⟨6, rfl⟩, ⟨11, rfl⟩⟩

theorem single_groupTriple : groupTriple.Single :=
  ⟨⟨5, rfl⟩, ⟨4, rfl⟩, ⟨3, rfl⟩, ⟨10, rfl⟩⟩

theorem single_otherTriple : otherTriple.Single :=
  ⟨⟨2, rfl⟩, ⟨1, rfl⟩, ⟨0, rfl⟩, ⟨9, rfl⟩⟩

/-- The three triples share out the permission bits. -/
theorem allBits_or :
    userTriple.allBits ||| groupTriple.allBits ||| otherTriple.allBits =
      permissionBits := by
  decide

namespace Permissions

/-- Reading the flags of a mode and setting them keeps the permission bits. -/
theorem mode_ofMode (mode : Mode) :
    (ofMode mode).mode = mode &&& permissionBits := by
  rw [← allBits_or, BitVec.and_or_distrib_left, BitVec.and_or_distrib_left,
    ← Triple.bits_flagsIn single_userTriple,
    ← Triple.bits_flagsIn single_groupTriple,
    ← Triple.bits_flagsIn single_otherTriple]
  rfl

/-- Flags outside the permission bits do not matter. -/
theorem ofMode_and (mode : Mode) :
    ofMode (mode &&& permissionBits) = ofMode mode := by
  simp only [ofMode, Triple.flagsIn, hasBit, BitVec.and_assoc]
  rfl

/-- The flags that have been set are the flags that are read. -/
theorem ofMode_mode (permissions : Permissions) :
    ofMode permissions.mode = permissions := by
  simp only [ofMode, mode, Triple.flagsIn, Triple.bits, hasBit_or,
    hasBit_ite]
  simp [hasBit, userTriple, groupTriple, otherTriple]

end Permissions

/-! ## The notation as a code -/

theorem fileTypeChar_mem (mode : Mode) : fileTypeChar mode ∈ typeChars := by
  unfold fileTypeChar
  repeat' split
  all_goals decide

/-- Every type character is that of a mode without permission bits. -/
theorem exists_type {char : Byte} (isType : char ∈ typeChars) :
    ∃ kind : Mode, kind &&& sIfmt = kind ∧ fileTypeChar kind = char := by
  simp only [typeChars, List.mem_cons, List.not_mem_nil, or_false] at isType
  rcases isType with rfl | rfl | rfl | rfl | rfl | rfl | rfl | rfl
  · exact ⟨sIfreg, by decide, by decide⟩
  · exact ⟨sIfdir, by decide, by decide⟩
  · exact ⟨sIflnk, by decide, by decide⟩
  · exact ⟨sIfchr, by decide, by decide⟩
  · exact ⟨sIfblk, by decide, by decide⟩
  · exact ⟨sIfifo, by decide, by decide⟩
  · exact ⟨sIfsock, by decide, by decide⟩
  · exact ⟨0, by decide, by decide⟩

/-- The type of a mode does not depend on its permission bits. -/
theorem fileTypeChar_and (mode : Mode) :
    fileTypeChar (mode &&& sIfmt) = fileTypeChar mode := by
  simp only [fileTypeChar, BitVec.and_assoc, BitVec.and_self]

/-- A type and permissions together are the notation of a mode. -/
theorem exists_humanText (char : Byte) (isType : char ∈ typeChars)
    (permissions : Permissions) :
    ∃ mode, humanText mode = char :: permissions.letters := by
  rcases exists_type isType with ⟨kind, onlyType, isChar⟩
  have apart : permissionBits &&& sIfmt = 0#32 := by decide
  have inside : permissions.mode &&& permissionBits = permissions.mode := by
    rw [← Permissions.mode_ofMode, Permissions.ofMode_mode]
  refine ⟨permissions.mode ||| kind, ?_⟩
  rw [humanText_eq]
  congr 1
  · rw [← fileTypeChar_and, BitVec.and_or_distrib_right, onlyType, ← inside,
      BitVec.and_assoc, apart, BitVec.and_zero, BitVec.zero_or, isChar]
  · rw [← Permissions.ofMode_and, BitVec.and_or_distrib_right, inside,
      ← onlyType, BitVec.and_assoc, BitVec.and_comm sIfmt, apart,
      BitVec.and_zero, BitVec.or_zero, Permissions.ofMode_mode]

theorem formatModeHuman_ten (mode : Mode) :
    formatModeHuman mode 10 = some (humanText mode) :=
  rfl

theorem parsedMode_humanText (mode : Mode) :
    parsedMode (humanText mode) = some (mode &&& permissionBits) := by
  rw [humanText_eq]
  exact parsedMode_iff.mpr ⟨_, (Permissions.mode_ofMode mode).symm,
    Or.inr ⟨_, fileTypeChar_mem mode, rfl⟩⟩

theorem parsedMode_tail (mode : Mode) :
    parsedMode ((humanText mode).drop 1) =
      some (mode &&& permissionBits) := by
  rw [humanText_eq]
  exact parsedMode_iff.mpr ⟨_, (Permissions.mode_ofMode mode).symm,
    Or.inl rfl⟩

theorem accepts_iff {input : List Byte} {outMode : Mode} :
    (parseModeHuman input outMode).1 = true ↔
      ∃ mode, parsedMode input = some mode ∧
        (parseModeHuman input outMode).2 = mode := by
  unfold parseModeHuman
  cases parsedMode input with
  | none => simp
  | some mode => simp

/--
The symbolic notation is a faithful code.  Whatever `*out_mode` holds before:
the ten characters of a mode, and the nine behind the first, are read back as
its permission bits; a text is accepted exactly if it is the notation of a mode,
with its first character or without; the accepted mode has the last nine
characters of the text as its own; and a rejected text leaves `*out_mode` alone.
-/
theorem modeHuman_faithful (outMode : Mode) :
    (∀ mode capacity, 10 ≤ capacity →
      ∃ text, formatModeHuman mode capacity = some text ∧
        text.length = 10 ∧
        parseModeHuman text outMode = (true, mode &&& permissionBits) ∧
        parseModeHuman (text.drop 1) outMode =
          (true, mode &&& permissionBits)) ∧
    ∀ input,
      ((parseModeHuman input outMode).1 = true ↔
        ∃ mode text, formatModeHuman mode 10 = some text ∧
          (input = text ∨ input = text.drop 1)) ∧
      ((parseModeHuman input outMode).1 = true →
        ∃ text,
          formatModeHuman (parseModeHuman input outMode).2 10 = some text ∧
            text.drop 1 = input.drop (input.length - 9)) ∧
      ((parseModeHuman input outMode).1 = false →
        (parseModeHuman input outMode).2 = outMode) := by
  constructor
  · intro mode capacity room
    refine ⟨humanText mode, if_neg (Nat.not_lt.mpr room), rfl, ?_, ?_⟩
    · rw [parseModeHuman, parsedMode_humanText]
    · rw [parseModeHuman, parsedMode_tail]
  · intro input
    refine ⟨?_, ?_, ?_⟩
    · rw [accepts_iff]
      simp only [formatModeHuman_ten, Option.some.injEq]
      constructor
      · rintro ⟨_, parsed, _⟩
        rcases parsedMode_iff.mp parsed with
          ⟨permissions, _, rfl | ⟨char, isType, rfl⟩⟩
        · rcases exists_humanText dash (by decide) permissions with
            ⟨mode, isText⟩
          exact ⟨mode, _, isText, Or.inr rfl⟩
        · rcases exists_humanText char isType permissions with ⟨mode, isText⟩
          exact ⟨mode, _, isText, Or.inl rfl⟩
      · rintro ⟨mode, _, rfl, rfl | rfl⟩
        · exact ⟨_, parsedMode_humanText mode, by
            rw [parseModeHuman, parsedMode_humanText]⟩
        · exact ⟨_, parsedMode_tail mode, by
            rw [parseModeHuman, parsedMode_tail]⟩
    · intro accepted
      rcases accepts_iff.mp accepted with ⟨mode, parsed, isMode⟩
      rw [isMode, formatModeHuman_ten]
      refine ⟨_, rfl, ?_⟩
      rcases parsedMode_iff.mp parsed with
        ⟨permissions, rfl, rfl | ⟨char, _, rfl⟩⟩
      · rw [humanText_eq, Permissions.ofMode_mode,
          permissions.length_letters]
        rfl
      · rw [humanText_eq, Permissions.ofMode_mode, List.length_cons,
          permissions.length_letters]
        rfl
    · intro rejected
      unfold parseModeHuman at rejected ⊢
      cases parsed : parsedMode input with
      | none => rfl
      | some mode => simp [parsed] at rejected

end BcIo.Perm
