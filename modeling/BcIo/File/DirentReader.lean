import BcIo.File.Path
import BcIo.Stream.State

/-!
# The directory reader

`bc_io_dirent_reader.c` hands out the records of a directory one by one.  The
kernel fills a buffer with as many records as it likes; a cursor goes through
them, and the buffer is filled again once the cursor has reached its end.

The kernel is a script for each descriptor, one outcome for each `getdents64`
that will be made on it.  A call whose script runs out has not returned.
-/

namespace BcIo.File

open BcIo.Stream (Halt)

/-- `BC_IO_DIRENT_READER_BUFFER_SIZE`. -/
def direntReaderBufferSize : Nat := 8192

/-- `bc_io_dirent_reader_t`. -/
structure DirentReader where
  dirFd : Int
  lastErrno : Errno
  bufferUsed : Nat
  cursor : Nat
  buffer : List Byte
  sized : buffer.length = direntReaderBufferSize
  deriving DecidableEq, Repr

/-- `bc_io_dirent_entry_t`. -/
structure DirentEntry where
  /-- What stands from the `name` pointer on in the buffer of the reader. -/
  name : List Byte
  nameLength : Nat
  dType : Byte
  deriving DecidableEq, Repr

/-- `struct bc_io_linux_dirent64` at a pointer, as far as it is read. -/
structure LinuxDirent where
  dReclen : Nat
  dType : Byte
  /-- What stands from `d_name` on. -/
  dName : List Byte
  deriving DecidableEq, Repr

/-- One outcome of `getdents64`; a result of `0` is the empty list. -/
inductive GetdentsOutcome where
  | transferred (bytes : List Byte)
  | failed (errno : Errno)
  deriving DecidableEq, Repr

/-- How `bc_io_dirent_reader_next` returns. -/
inductive NextReport where
  /-- `true`, with an entry. -/
  | entry (entry : DirentEntry)
  /-- `true`, with `has_entry` false. -/
  | finished
  /-- `false`. -/
  | failed
  deriving DecidableEq, Repr

/-- What a returned `bc_io_dirent_reader_next` leaves behind. -/
structure NextReturned where
  report : NextReport
  reader : DirentReader
  outcomes : List GetdentsOutcome
  deriving DecidableEq, Repr

namespace DirentReader

/--
`bc_io_dirent_reader_create`; `memory` is what the pool allocation holds, unless
it fails.
-/
def create
    (memory : Option
      { bytes : List Byte // bytes.length = direntReaderBufferSize })
    (dirFd : Int) : Option DirentReader :=
  memory.map fun bytes => ⟨dirFd, 0, 0, 0, bytes.val, bytes.property⟩

/-- `bc_io_dirent_reader_reset`. -/
def reset (reader : DirentReader) (dirFd : Int) : DirentReader :=
  { reader with dirFd := dirFd, lastErrno := 0, bufferUsed := 0, cursor := 0 }

/-- The first `bytes.length` bytes of the buffer are overwritten. -/
def filled (reader : DirentReader)
    (bytes : { bytes : List Byte // bytes.length ≤ direntReaderBufferSize }) :
    DirentReader where
  dirFd := reader.dirFd
  lastErrno := reader.lastErrno
  bufferUsed := bytes.val.length
  cursor := 0
  buffer := bytes.val ++ reader.buffer.drop bytes.val.length
  sized := by
    have inside := bytes.property
    rw [List.length_append, List.length_drop, reader.sized]
    omega

/-- The record at the cursor. -/
def record (reader : DirentReader) : Except Halt LinuxDirent :=
  -- `d_ino` and `d_off` take the first 16 bytes of a record
  match reader.buffer.drop (reader.cursor + 16) with
  | low :: high :: dType :: dName =>
      .ok ⟨low.toNat + 256 * high.toNat, dType, dName⟩
  | _ => .error .overrun

/-- How the loop goes on after its first half. -/
inductive Refill where
  | ended (returned : NextReturned)
  | ready (reader : DirentReader) (outcomes : List GetdentsOutcome)
  deriving DecidableEq, Repr

/-- The first half of the loop: a used up buffer is filled again. -/
def refill (reader : DirentReader) (outcomes : List GetdentsOutcome) :
    Except Halt Refill :=
  if reader.bufferUsed ≤ reader.cursor then
    match outcomes with
    | [] => .error .waiting
    | .failed errno :: rest =>
        .ok (.ended ⟨.failed, { reader with lastErrno := errno }, rest⟩)
    | .transferred bytes :: rest =>
        -- a kernel never gives more than it was asked for
        let given := bytes.take direntReaderBufferSize
        if given.length = 0 then
          .ok (.ended ⟨.finished, reader, rest⟩)
        else
          .ok (.ready
            (reader.filled ⟨given, List.length_take_le ..⟩) rest)
  else
    .ok (.ready reader outcomes)

end DirentReader

/--
`name[0] == '.' && (name[1] == '\0' || (name[1] == '.' && name[2] == '\0'))`,
where each comparison reads a byte.
-/
def isDotOrDotDot : List Byte → Except Halt Bool
  | [] => .error .overrun
  | first :: afterFirst =>
      if first = dot then
        match afterFirst with
        | [] => .error .overrun
        | second :: afterSecond =>
            if second = 0 then .ok true
            else if second = dot then
              match afterSecond with
              | [] => .error .overrun
              | third :: _ => .ok (third = 0)
            else .ok false
      else .ok false

namespace DirentReader

section Next

-- `bc_core_length`, at a pointer from which on `memory` stands
variable (coreLength : (memory : List Byte) → Option Nat)

/--
The second half of the loop: the cursor passes a record.  There is no report
when the loop goes on with the next record.
-/
def takeRecord (reader : DirentReader) :
    Except Halt (Option NextReport × DirentReader) := do
  let record ← reader.record
  let passed := { reader with cursor := reader.cursor + record.dReclen }
  if ← isDotOrDotDot record.dName then
    return (none, passed)
  match coreLength record.dName with
  | none =>
      return (some .failed, { passed with lastErrno := Errno.einval })
  | some nameLength =>
      return (some (.entry ⟨record.dName, nameLength, record.dType⟩), passed)

/-- The loop of `bc_io_dirent_reader_next`, for a number of rounds. -/
def nextLoop : Nat → DirentReader → List GetdentsOutcome →
    Except Halt NextReturned
  | 0, _, _ => .error .waiting
  | rounds + 1, reader, outcomes => do
      match ← reader.refill outcomes with
      | .ended returned => return returned
      | .ready reader outcomes =>
          match ← reader.takeRecord coreLength with
          | (some report, reader) => return ⟨report, reader, outcomes⟩
          | (none, reader) => nextLoop rounds reader outcomes

end Next

end DirentReader

/-- How many bytes an outcome transfers at most. -/
def GetdentsOutcome.size : GetdentsOutcome → Nat
  | .transferred bytes => bytes.length
  | .failed _ => 0

namespace DirentReader

/--
Each round of the loop passes a byte at least, unless the cursor stands on a
record of size zero: such a loop never ends, so it has not returned when the
rounds are used up either.
-/
def rounds (reader : DirentReader) (outcomes : List GetdentsOutcome) : Nat :=
  reader.bufferUsed - reader.cursor +
    (outcomes.map GetdentsOutcome.size).sum + 1

/-- `bc_io_dirent_reader_next`. -/
def next (coreLength : List Byte → Option Nat) (reader : DirentReader)
    (kernel : Int → List GetdentsOutcome) :
    Except Halt
      (NextReport × DirentReader × (Int → List GetdentsOutcome)) := do
  let outcomes := kernel reader.dirFd
  let returned ←
    reader.nextLoop coreLength (reader.rounds outcomes) outcomes
  return (returned.report, returned.reader,
    Function.update kernel reader.dirFd returned.outcomes)

end DirentReader

/-! ## Records -/

/-- A record as the kernel lays it out. -/
structure DirentRecord where
  /-- `d_ino` and `d_off`. -/
  header : List Byte
  headerSize : header.length = 16
  dType : Byte
  name : List Byte
  noNul : (0 : Byte) ∉ name
  padding : List Byte
  /-- `d_reclen` is an `unsigned short`. -/
  short : 20 + name.length + padding.length < 2 ^ 16
  deriving Repr

namespace DirentRecord

/-- `d_reclen`. -/
def size (record : DirentRecord) : Nat :=
  20 + record.name.length + record.padding.length

def bytes (record : DirentRecord) : List Byte :=
  record.header ++
    UInt8.ofNat (record.size % 256) :: UInt8.ofNat (record.size / 256) ::
      record.dType :: (record.name ++ 0 :: record.padding)

/-- The record of a name that is neither `.` nor `..`. -/
def Visible (record : DirentRecord) : Prop :=
  record.name ≠ [dot] ∧ record.name ≠ [dot, dot]

instance : DecidablePred Visible := fun _ => inferInstanceAs (Decidable (_ ∧ _))

/-- Records, one after the other. -/
def layout (records : List DirentRecord) : List Byte :=
  records.flatMap bytes

theorem length_bytes (record : DirentRecord) :
    record.bytes.length = record.size := by
  simp only [bytes, size, List.length_append, List.length_cons,
    record.headerSize]
  omega

theorem size_pos (record : DirentRecord) : 0 < record.size := by
  unfold size
  omega

@[simp]
theorem layout_nil : layout [] = [] :=
  rfl

@[simp]
theorem layout_cons (record : DirentRecord) (records : List DirentRecord) :
    layout (record :: records) = record.bytes ++ layout records :=
  List.flatMap_cons

end DirentRecord

/-- A call of `getdents64` on a directory. -/
inductive Delivery where
  | failed (errno : Errno)
  /-- No record at all is the result `0`. -/
  | records (listed : List DirentRecord)
      (fits : (DirentRecord.layout listed).length ≤ direntReaderBufferSize)
  deriving Repr

def Delivery.outcome : Delivery → GetdentsOutcome
  | .failed errno => .failed errno
  | .records listed _ => .transferred (DirentRecord.layout listed)

/-- What a call of `bc_io_dirent_reader_next` shows to its caller. -/
inductive Shown where
  /-- The C string at `name`, with `name_length` and `d_type`. -/
  | entry (name : List Byte) (nameLength : Nat) (dType : Byte)
  | finished
  /-- What `bc_io_dirent_reader_last_errno` says after a call has failed. -/
  | failed (lastErrno : Errno)
  deriving DecidableEq, Repr

def DirentReader.shown (reader : DirentReader) : NextReport → Shown
  | .entry entry =>
      .entry (entry.name.takeWhile fun byte => byte ≠ 0) entry.nameLength
        entry.dType
  | .finished => .finished
  | .failed => .failed reader.lastErrno

/-- What a record is to show. -/
def DirentRecord.shown (record : DirentRecord) : Shown :=
  .entry record.name record.name.length record.dType

/-- What records are to show, `.` and `..` left out. -/
def DirentRecord.shownAll (records : List DirentRecord) : List Shown :=
  (records.filter fun record => record.Visible).map DirentRecord.shown

/-- What the calls are to show between one `getdents64` and the next. -/
def Delivery.shown : Delivery → List Shown
  | .failed errno => [.failed errno]
  | .records [] _ => [.finished]
  | .records (record :: others) _ =>
      DirentRecord.shownAll (record :: others)

/-! ## One round of the loop -/

/-- `bc_core_length` finds the terminating zero of a C string. -/
def Measures (coreLength : List Byte → Option Nat) : Prop :=
  ∀ name rest : List Byte, (0 : Byte) ∉ name →
    coreLength (name ++ 0 :: rest) = some name.length

/-- The records between the cursor and the end of the used part. -/
structure DirentReader.Holds (reader : DirentReader)
    (records : List DirentRecord) : Prop where
  laid : ∃ after,
    reader.buffer.drop reader.cursor = DirentRecord.layout records ++ after
  used : reader.bufferUsed =
    reader.cursor + (DirentRecord.layout records).length

theorem isDotOrDotDot_record (record : DirentRecord) (rest : List Byte) :
    isDotOrDotDot (record.name ++ 0 :: rest) =
      .ok (decide (¬ record.Visible)) := by
  rcases record with ⟨header, headerSize, dType, name, noNul, padding, short⟩
  unfold DirentRecord.Visible isDotOrDotDot
  dsimp only at noNul ⊢
  match name, noNul with
  | [], _ => simp [dot]
  | [first], _ => by_cases isDot : first = dot <;> simp [isDot]
  | [first, second], noNul =>
      have nonzero : second ≠ 0 := fun zero => noNul (by simp [zero])
      by_cases isDot : first = dot <;> by_cases isDots : second = dot <;>
        simp [isDot, isDots, nonzero]
  | first :: second :: third :: name, noNul =>
      have nonzero : second ≠ 0 := fun zero => noNul (by simp [zero])
      have further : third ≠ 0 := fun zero => noNul (by simp [zero])
      by_cases isDot : first = dot <;> by_cases isDots : second = dot <;>
        simp [isDot, isDots, nonzero, further]
      simp [dot]

/-- A C string is what stands in front of the zero. -/
theorem takeWhile_terminated {name : List Byte} (noNul : (0 : Byte) ∉ name)
    (rest : List Byte) :
    (name ++ 0 :: rest).takeWhile (fun byte => byte ≠ 0) = name := by
  have nonzero : ∀ byte ∈ name, decide (byte ≠ 0) = true := by
    intro byte member
    exact decide_eq_true fun zero => noNul (zero ▸ member)
  rw [List.takeWhile_append_of_pos nonzero,
    List.takeWhile_cons_of_neg (by simp), List.append_nil]

namespace DirentReader

variable {coreLength : List Byte → Option Nat} {reader : DirentReader}
  {record : DirentRecord} {records : List DirentRecord}

theorem record_of_holds (holds : reader.Holds (record :: records)) :
    ∃ rest, reader.record =
      .ok ⟨record.size, record.dType, record.name ++ 0 :: rest⟩ := by
  rcases holds.laid with ⟨after, laid⟩
  have small : record.size < 2 ^ 16 := record.short
  have from16 :
      reader.buffer.drop (reader.cursor + 16) =
        UInt8.ofNat (record.size % 256) ::
          UInt8.ofNat (record.size / 256) :: record.dType ::
            (record.name ++ 0 :: (record.padding ++
              (DirentRecord.layout records ++ after))) := by
    rw [← List.drop_drop, laid, DirentRecord.layout_cons,
      DirentRecord.bytes]
    simp [record.headerSize]
  refine ⟨record.padding ++ (DirentRecord.layout records ++ after), ?_⟩
  rw [DirentReader.record, from16]
  have low : (UInt8.ofNat (record.size % 256)).toNat = record.size % 256 :=
    UInt8.toNat_ofNat_of_lt' (by
      show record.size % 256 < 256
      omega)
  have high : (UInt8.ofNat (record.size / 256)).toNat = record.size / 256 :=
    UInt8.toNat_ofNat_of_lt' (by
      show record.size / 256 < 256
      omega)
  simp only [low, high]
  rw [Nat.mod_add_div]

/-- Passing a record. -/
theorem Holds.passed (holds : reader.Holds (record :: records)) :
    { reader with cursor := reader.cursor + record.size }.Holds records := by
  rcases holds.laid with ⟨after, laid⟩
  have used := holds.used
  refine ⟨⟨after, ?_⟩, ?_⟩
  · show reader.buffer.drop (reader.cursor + record.size) = _
    rw [← List.drop_drop, laid, DirentRecord.layout_cons,
      List.append_assoc, ← record.length_bytes, List.drop_left]
  · show reader.bufferUsed = _
    rw [used, DirentRecord.layout_cons, List.length_append,
      record.length_bytes]
    exact (Nat.add_assoc ..).symm

/-- A visible record is reported, any other one only passed. -/
theorem takeRecord_of_holds (measures : Measures coreLength)
    (holds : reader.Holds (record :: records)) :
    ∃ report, reader.takeRecord coreLength =
        .ok (report,
          { reader with cursor := reader.cursor + record.size }) ∧
      report.map reader.shown =
        if record.Visible then some record.shown else none := by
  rcases record_of_holds holds with ⟨rest, found⟩
  unfold takeRecord
  simp only [found, isDotOrDotDot_record, bind, Except.bind, pure,
    Except.pure]
  by_cases visible : record.Visible
  · simp only [visible, not_true_eq_false, decide_false, if_true,
      measures _ _ record.noNul]
    refine ⟨_, rfl, ?_⟩
    have text := takeWhile_terminated record.noNul rest
    simp only [Option.map_some, DirentReader.shown, text, DirentRecord.shown]
  · exact ⟨none, by simp [visible]⟩

/-- A reader whose buffer is not used up goes on with it. -/
theorem refill_of_holds (holds : reader.Holds (record :: records))
    (outcomes : List GetdentsOutcome) :
    reader.refill outcomes = .ok (.ready reader outcomes) := by
  have used := holds.used
  have positive := record.size_pos
  rw [DirentRecord.layout_cons, List.length_append, record.length_bytes]
    at used
  exact if_neg (by omega)

/-- The buffer after a positive result. -/
theorem holds_filled (reader : DirentReader) (records : List DirentRecord)
    (fits : (DirentRecord.layout records).length ≤
      direntReaderBufferSize) :
    (reader.filled ⟨DirentRecord.layout records, fits⟩).Holds records where
  laid := ⟨_, List.drop_zero⟩
  used := (Nat.zero_add _).symm

/-! ## Whole calls -/

/-- What the calls to come are to show. -/
def awaited (records : List DirentRecord) (deliveries : List Delivery) :
    List Shown :=
  DirentRecord.shownAll records ++ deliveries.flatMap Delivery.shown

theorem awaited_of_visible {deliveries : List Delivery}
    (visible : record.Visible) :
    awaited (record :: records) deliveries =
      record.shown :: awaited records deliveries := by
  simp [awaited, DirentRecord.shownAll, visible]

theorem awaited_of_not_visible {deliveries : List Delivery}
    (hidden : ¬ record.Visible) :
    awaited (record :: records) deliveries =
      awaited records deliveries := by
  simp [awaited, DirentRecord.shownAll, hidden]

/--
The call shows the first of `expected`, and the calls behind it go on with the
rest; without any, it does not return.
-/
def Advances (dirFd : Int) (expected : List Shown)
    (call : Except Halt NextReturned) : Prop :=
  match expected with
  | [] => call = .error .waiting
  | first :: later => ∃ returned records deliveries,
      call = .ok returned ∧
        returned.reader.shown returned.report = first ∧
        returned.reader.dirFd = dirFd ∧
        returned.outcomes = deliveries.map Delivery.outcome ∧
        returned.reader.Holds records ∧
        awaited records deliveries = later

/-- The bytes that a call can pass. -/
def ahead (reader : DirentReader) (deliveries : List Delivery) : Nat :=
  reader.bufferUsed - reader.cursor +
    ((deliveries.map Delivery.outcome).map GetdentsOutcome.size).sum

/-- The second half of a round, with a record at the cursor. -/
theorem advances_of_record (measures : Measures coreLength) {rounds : Nat}
    {deliveries : List Delivery}
    (holds : reader.Holds (record :: records))
    (induction : ∀ reader : DirentReader, reader.Holds records →
      ahead reader deliveries < rounds →
        Advances reader.dirFd (awaited records deliveries)
          (nextLoop coreLength rounds reader
            (deliveries.map Delivery.outcome)))
    (enough : ahead reader deliveries < rounds + 1) :
    Advances reader.dirFd (awaited (record :: records) deliveries)
      (nextLoop coreLength (rounds + 1) reader
        (deliveries.map Delivery.outcome)) := by
  rcases takeRecord_of_holds measures holds with ⟨report, took, shows⟩
  have passed := holds.passed
  unfold nextLoop
  simp only [refill_of_holds holds, took, bind, Except.bind]
  by_cases visible : record.Visible
  · rw [if_pos visible] at shows
    rcases Option.map_eq_some_iff.mp shows with ⟨reported, rfl, shown⟩
    rw [awaited_of_visible visible]
    refine ⟨_, records, deliveries, rfl, ?_, rfl, rfl, passed, rfl⟩
    rw [← shown]
    cases reported <;> rfl
  · rw [if_neg visible] at shows
    rw [Option.map_eq_none_iff.mp shows, awaited_of_not_visible visible]
    refine induction _ passed ?_
    have used := holds.used
    have positive := record.size_pos
    rw [DirentRecord.layout_cons, List.length_append, record.length_bytes]
      at used
    unfold ahead at enough ⊢
    dsimp only
    omega

/-- A used up buffer is filled with the records of a positive result. -/
theorem nextLoop_of_filled (rounds : Nat) {outcomes : List GetdentsOutcome}
    (holds : reader.Holds [])
    (fits : (DirentRecord.layout (record :: records)).length ≤
      direntReaderBufferSize) :
    nextLoop coreLength (rounds + 1) reader
        (.transferred (DirentRecord.layout (record :: records)) ::
          outcomes) =
      nextLoop coreLength (rounds + 1)
        (reader.filled ⟨DirentRecord.layout (record :: records), fits⟩)
        outcomes := by
  have used := holds.used
  have some : (DirentRecord.layout (record :: records)).length ≠ 0 := by
    have positive := record.size_pos
    rw [DirentRecord.layout_cons, List.length_append, record.length_bytes]
    omega
  have filled :
      reader.refill
          (.transferred (DirentRecord.layout (record :: records)) ::
            outcomes) =
        .ok (.ready
          (reader.filled ⟨DirentRecord.layout (record :: records), fits⟩)
          outcomes) := by
    unfold refill
    rw [if_pos (by simp [used])]
    simp only [List.take_of_length_le fits, if_neg some]
  unfold nextLoop
  rw [filled, refill_of_holds (holds_filled reader (record :: records) fits)]

/-- A call shows what is awaited next. -/
theorem nextLoop_advances (measures : Measures coreLength) {rounds : Nat}
    {deliveries : List Delivery} (holds : reader.Holds records)
    (enough : ahead reader deliveries < rounds) :
    Advances reader.dirFd (awaited records deliveries)
      (nextLoop coreLength rounds reader
        (deliveries.map Delivery.outcome)) := by
  induction rounds generalizing reader records deliveries with
  | zero => omega
  | succ rounds induction =>
      match records with
      | record :: records =>
          exact advances_of_record measures holds
            (fun _ later => induction later) enough
      | [] =>
          -- the buffer is used up, and the kernel is asked
          have used : reader.bufferUsed ≤ reader.cursor := by
            simp [holds.used]
          match deliveries with
          | [] =>
              show nextLoop coreLength _ _ [] = _
              simp [nextLoop, refill, used, bind, Except.bind]
          | .failed errno :: deliveries =>
              refine ⟨⟨.failed, { reader with lastErrno := errno },
                deliveries.map Delivery.outcome⟩, [], deliveries, ?_, rfl,
                rfl, rfl, ⟨holds.laid, holds.used⟩, rfl⟩
              simp [nextLoop, refill, used, Delivery.outcome, bind,
                Except.bind, pure, Except.pure]
          | .records [] fits :: deliveries =>
              refine ⟨⟨.finished, reader, deliveries.map Delivery.outcome⟩,
                [], deliveries, ?_, rfl, rfl, rfl, holds, rfl⟩
              simp [nextLoop, refill, used, Delivery.outcome, bind,
                Except.bind, pure, Except.pure]
          | .records (record :: records) fits :: deliveries =>
              have filled :=
                holds_filled reader (record :: records) fits
              rw [List.map_cons, Delivery.outcome,
                nextLoop_of_filled rounds holds fits]
              refine advances_of_record measures filled
                (fun _ later => induction later) ?_
              unfold ahead at enough ⊢
              simp only [List.map_cons, List.sum_cons, Delivery.outcome,
                GetdentsOutcome.size] at enough
              simp only [DirentReader.filled, Nat.sub_zero]
              omega

/-- Calls of `bc_io_dirent_reader_next`, one after the other. -/
def calls (coreLength : List Byte → Option Nat) :
    Nat → DirentReader → (Int → List GetdentsOutcome) →
      Except Halt
        (List Shown × DirentReader × (Int → List GetdentsOutcome))
  | 0, reader, kernel => .ok ([], reader, kernel)
  | count + 1, reader, kernel => do
      let (report, reader, kernel) ← reader.next coreLength kernel
      let (shown, after) ← calls coreLength count reader kernel
      return (reader.shown report :: shown, after)

/-- A reader as `create` or `reset` leaves it. -/
def Fresh (reader : DirentReader) : Prop :=
  (∃ memory dirFd, create memory dirFd = some reader) ∨
    ∃ (prior : DirentReader) (dirFd : Int), reader = prior.reset dirFd

theorem Fresh.holds (fresh : reader.Fresh) : reader.Holds [] := by
  rcases fresh with ⟨memory, dirFd, created⟩ | ⟨prior, dirFd, rfl⟩
  · rcases Option.map_eq_some_iff.mp created with ⟨bytes, _, rfl⟩
    exact ⟨⟨_, rfl⟩, rfl⟩
  · exact ⟨⟨_, rfl⟩, rfl⟩

/-- Calls show what is awaited, and no call returns behind that. -/
theorem calls_of_holds (measures : Measures coreLength)
    {kernel : Int → List GetdentsOutcome} {deliveries : List Delivery}
    (holds : reader.Holds records)
    (answers : kernel reader.dirFd = deliveries.map Delivery.outcome)
    (count : Nat) :
    (count ≤ (awaited records deliveries).length →
      ∃ after, calls coreLength count reader kernel =
        .ok ((awaited records deliveries).take count, after)) ∧
    ((awaited records deliveries).length < count →
      calls coreLength count reader kernel = .error .waiting) := by
  induction count generalizing reader records deliveries kernel with
  | zero => exact ⟨fun _ => ⟨_, rfl⟩, fun less => absurd less (by omega)⟩
  | succ count induction =>
      have advances :
          Advances reader.dirFd (awaited records deliveries)
            (nextLoop coreLength
              (reader.rounds (deliveries.map Delivery.outcome)) reader
              (deliveries.map Delivery.outcome)) :=
        nextLoop_advances measures holds (Nat.lt_succ_self _)
      unfold calls next
      simp only [answers]
      cases expected : awaited records deliveries with
      | nil =>
          rw [expected] at advances
          refine ⟨fun within => absurd within (by simp), fun _ => ?_⟩
          rw [show nextLoop coreLength _ _ _ = .error .waiting from advances]
          rfl
      | cons first later =>
          rw [expected] at advances
          rcases advances with
            ⟨returned, held, ahead, call, shows, same, outcomes, holding,
              rfl⟩
          have answersLater :
              Function.update kernel reader.dirFd returned.outcomes
                  returned.reader.dirFd =
                ahead.map Delivery.outcome := by
            rw [same, Function.update_self, outcomes]
          have onward := induction holding answersLater
          simp only [call, bind, Except.bind, pure, Except.pure]
          constructor
          · intro within
            rcases onward.1 (by simpa using within) with ⟨after, run⟩
            exact ⟨after, by rw [run, shows, List.take_succ_cons]⟩
          · intro beyond
            rw [onward.2 (by simpa using beyond)]

/--
The calls on a fresh reader show every record but `.` and `..` once and in
order, an error where `getdents64` fails and the end where it returns zero, and
wait where it does.
-/
theorem direntReader_enumerates (coreLength : List Byte → Option Nat)
    (measures : Measures coreLength) (reader : DirentReader)
    (fresh : reader.Fresh) (kernel : Int → List GetdentsOutcome)
    (deliveries : List Delivery)
    (answers : kernel reader.dirFd = deliveries.map Delivery.outcome)
    (count : Nat) :
    (count ≤ (deliveries.flatMap Delivery.shown).length →
      ∃ after, calls coreLength count reader kernel =
        .ok ((deliveries.flatMap Delivery.shown).take count, after)) ∧
    ((deliveries.flatMap Delivery.shown).length < count →
      calls coreLength count reader kernel = .error .waiting) :=
  calls_of_holds measures fresh.holds answers count

/-- The C string length, if there is a terminating zero. -/
def cStringLength (memory : List Byte) : Option Nat :=
  if (0 : Byte) ∈ memory then
    some (memory.takeWhile fun byte => byte ≠ 0).length
  else
    none

theorem measures_cStringLength : Measures cStringLength := by
  intro name rest noNul
  rw [cStringLength, if_pos (by simp), takeWhile_terminated noNul]

/-- A record of a short name, padded to 24 bytes. -/
def shortRecord
    (name : { name : List Byte // (0 : Byte) ∉ name ∧ name.length ≤ 4 })
    (dType : Byte) : DirentRecord where
  header := List.replicate 16 7
  headerSize := rfl
  dType := dType
  name := name.val
  noNul := name.property.1
  padding := List.replicate (4 - name.val.length) 0
  short := by
    have small := name.property.2
    rw [List.length_replicate]
    omega

/--
A reset reader meets `.` and `a` in one buffer, an error, `..` alone in the
next buffer, `b` in the one behind it, and the end.
-/
theorem direntReader_enumerates_refills :
    ∃ after, calls cStringLength 4
        (DirentReader.reset
          ⟨3, Errno.eio, 24, 5, List.replicate 8192 46,
            List.length_replicate⟩ 9)
        (fun _ =>
          [ .transferred (DirentRecord.layout
              [shortRecord ⟨[dot], by decide⟩ dtDir,
                shortRecord ⟨[97], by decide⟩ dtReg]),
            .failed Errno.eintr,
            .transferred (DirentRecord.layout
              [shortRecord ⟨[dot, dot], by decide⟩ dtDir]),
            .transferred (DirentRecord.layout
              [shortRecord ⟨[98], by decide⟩ dtUnknown]),
            .transferred [] ]) =
      .ok ([.entry [97] 1 dtReg, .failed Errno.eintr,
        .entry [98] 1 dtUnknown, .finished], after) :=
  (direntReader_enumerates cStringLength measures_cStringLength _
    (Or.inr ⟨_, _, rfl⟩) _
    [ .records
        [shortRecord ⟨[dot], by decide⟩ dtDir,
          shortRecord ⟨[97], by decide⟩ dtReg] (by decide),
      .failed Errno.eintr,
      .records [shortRecord ⟨[dot, dot], by decide⟩ dtDir] (by decide),
      .records [shortRecord ⟨[98], by decide⟩ dtUnknown] (by decide),
      .records [] (by decide) ] rfl 4).1 (by decide)

end DirentReader

end BcIo.File
