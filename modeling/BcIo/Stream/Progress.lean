import BcIo.Stream.Session

/-!
# How far the reads of a stream get

What a run of `bc_io_stream_read_chunk` calls hands out is decided by the
outcomes of `read(2)`.  Compared with the size that was sampled when the stream
was opened it says what `bc_io_stream_remaining_bytes` answers, and the first
outcome of a call says whether a chunk can be empty.
-/

namespace BcIo.Stream

open BcIo.Foundation.MachineWord

variable {State Choice : Type}

/-! ## What reading keeps -/

/-- The fields that say what a stream reads from, and how. -/
structure SameSource (before after : Stream) : Prop where
  sourceType : after.sourceType = before.sourceType
  mode : after.mode = before.mode
  bufferSize : after.bufferSize = before.bufferSize
  memorySize : after.memorySize = before.memorySize
  totalSize : after.totalSize = before.totalSize
  totalSizeKnown : after.totalSizeKnown = before.totalSizeKnown

namespace SameSource

theorem refl (stream : Stream) : SameSource stream stream :=
  ⟨rfl, rfl, rfl, rfl, rfl, rfl⟩

theorem trans {first second third : Stream}
    (left : SameSource first second) (right : SameSource second third) :
    SameSource first third :=
  ⟨right.sourceType.trans left.sourceType, right.mode.trans left.mode,
    right.bufferSize.trans left.bufferSize,
    right.memorySize.trans left.memorySize,
    right.totalSize.trans left.totalSize,
    right.totalSizeKnown.trans left.totalSizeKnown⟩

end SameSource

theorem settleRead_sameSource (stream : Stream)
    (full : ReadFullResult State Choice) :
    SameSource stream (settleRead stream full).stream := by
  unfold settleRead
  dsimp only
  split
  · exact .refl stream
  · split
    · exact ⟨rfl, rfl, rfl, rfl, rfl, rfl⟩
    · split <;> split <;> exact ⟨rfl, rfl, rfl, rfl, rfl, rfl⟩

theorem readChunkMemory_sameSource (stream : Stream) :
    SameSource stream stream.readChunkMemory.2 := by
  unfold readChunkMemory
  split <;> exact ⟨rfl, rfl, rfl, rfl, rfl, rfl⟩

theorem readChunk_sameSource (device : ReadDevice State Choice)
    {stream : Stream} {side : ReadSide State Choice}
    {result : ReadChunkResult State Choice}
    (returned : stream.readChunk device side = .ok result) :
    SameSource stream result.stream := by
  rcases readChunk_leaves device returned with
    same | overMemory | ⟨buffer, full, settled⟩
  · rw [same]
    exact .refl stream
  · rw [overMemory]
    exact readChunkMemory_sameSource stream
  · have rebuffered : SameSource stream { stream with buffer := buffer } :=
      ⟨rfl, rfl, rfl, rfl, rfl, rfl⟩
    rw [settled]
    exact rebuffered.trans (settleRead_sameSource _ full)

theorem runReads_sameSource (device : ReadDevice State Choice)
    (memory : Address → Byte) (calls : Nat) {stream : Stream}
    {side : ReadSide State Choice} {run : ReadRun State Choice}
    (returned : runReads device memory calls stream side = .ok run) :
    SameSource stream run.stream :=
  runReads_related SameSource.refl SameSource.trans
    (readChunk_sameSource device) memory calls returned

/-! ## The bytes that the outcomes deliver -/

/--
How many bytes `calls` calls with a buffer of `capacity` bytes hand out;
`filled` is the number of bytes the current call has already received.
-/
def delivered (capacity : Nat) : Nat → Nat → List ReadOutcome → Nat
  | 0, _, _ => 0
  | _ + 1, _, [] => 0
  | calls + 1, filled, .transferred bytes :: rest =>
      -- an empty transfer is the end of the input, after which no call reads
      if bytes = [] then filled
      else
        let total := filled + min (capacity - filled) bytes.length
        if total < capacity then
          delivered capacity (calls + 1) total rest
        else
          total + delivered capacity calls 0 rest
  | calls + 1, filled, .failed errno :: rest =>
      if errno = Errno.eintr then
        delivered capacity (calls + 1) filled rest
      else if errno = Errno.eagain then
        filled + delivered capacity calls 0 rest
      else
        -- a call that fails drops what it has received
        delivered capacity calls 0 rest

/-- What one call hands out, and what the calls behind it do. -/
theorem delivered_readLoop {capacity : Nat} (calls : Nat)
    (choices : List ReadOutcome) (transferred bytes : List Byte)
    (unfinished : bytes.length < capacity)
    {full : ReadFullResult Unit ReadOutcome}
    (returned :
      Io.readLoop scriptedDevice capacity choices () transferred bytes =
        .ok full) :
    delivered capacity (calls + 1) bytes.length choices =
      (if full.succeeded then full.bytes.length else 0) +
        if full.endOfFile then 0
        else delivered capacity calls 0 full.side.choices := by
  induction choices generalizing transferred bytes with
  | nil => simp [Io.readLoop, unfinished] at returned
  | cons outcome rest induction =>
      rcases Io.readLoop_turn unfinished returned with
        ⟨rfl, rfl⟩ | ⟨received, rfl, nonempty, later⟩ |
        ⟨rfl, later⟩ | ⟨rfl, rfl⟩ |
        ⟨errno, rfl, notInterrupted, hard, rfl⟩
      · simp [delivered]
      · have total :
            (bytes ++ received.take (capacity - bytes.length)).length =
              bytes.length +
                min (capacity - bytes.length) received.length := by
          rw [List.length_append, List.length_take]
        simp only [delivered, if_neg nonempty]
        split
        · rename_i room
          rw [← total] at room ⊢
          exact induction _ _ room later
        · rename_i filled
          rw [Io.readLoop_of_full _ _ _ _ (by omega),
            Except.ok.injEq] at later
          subst later
          simp [List.length_take]
      · exact induction _ _ unfinished later
      · simp [delivered, Errno.eagain, Errno.eintr]
      · simp [delivered, notInterrupted, hard]

/-- Without a buffer nothing is handed out. -/
theorem delivered_no_buffer (calls : Nat) (outcomes : List ReadOutcome) :
    delivered 0 calls 0 outcomes = 0 := by
  induction outcomes generalizing calls with
  | nil => cases calls <;> rfl
  | cons outcome rest induction =>
      cases calls with
      | zero => rfl
      | succ calls => cases outcome <;> simp [delivered, induction]

theorem delivered_readFull {capacity : Nat} (calls : Nat)
    {side : ReadSide Unit ReadOutcome}
    {full : ReadFullResult Unit ReadOutcome}
    (returned : Io.readFull scriptedDevice capacity side = .ok full) :
    delivered capacity (calls + 1) 0 side.choices =
      (if full.succeeded then full.bytes.length else 0) +
        if full.endOfFile then 0
        else delivered capacity calls 0 full.side.choices := by
  by_cases positive : 0 < capacity
  · exact delivered_readLoop calls side.choices side.transferred [] positive
      returned
  · have empty : capacity = 0 := Nat.eq_zero_of_not_pos positive
    subst empty
    rw [Io.readFull, Io.readLoop_of_full _ _ _ _ (Nat.zero_le _),
      Except.ok.injEq] at returned
    subst returned
    simp [delivered_no_buffer]

/-- The size of the chunk that a settled call hands out. -/
theorem settleRead_chunkSize (stream : Stream)
    (full : ReadFullResult State Choice) :
    ((settleRead stream full).chunk.map Chunk.size).getD 0 =
      if full.succeeded then full.bytes.length else 0 := by
  unfold settleRead
  dsimp only
  split
  · rename_i failed
    simp [failed]
  · rename_i succeeded
    split
    · rename_i empty
      simp [empty.1]
    · simp [succeeded]

/-- One call on an open descriptor stream, with the size of its chunk. -/
theorem readChunk_settled_size (device : ReadDevice State Choice)
    {stream : Stream} (reads : ReadsDescriptor stream)
    (notEnded : stream.endOfStream = false)
    (side : ReadSide State Choice) {result : ReadChunkResult State Choice}
    (returned : stream.readChunk device side = .ok result) :
    ∃ full,
      Io.readFull device stream.bufferSize side = .ok full ∧
      result.side = full.side ∧
      result.stream.endOfStream = full.endOfFile ∧
      (result.chunk.map Chunk.size).getD 0 =
        if full.succeeded then full.bytes.length else 0 := by
  rcases readChunk_settled device reads notEnded side returned with
    ⟨full, answer, spec, settled⟩
  refine ⟨full, answer, settled.side, ?_, ?_⟩
  · cases ended : full.endOfFile with
    | false => simp [settled.latched, notEnded, ended]
    | true => simp [settled.latched, ended, spec.ended ended]
  · rw [readChunk_eq_file device reads notEnded] at returned
    rcases returned_bind returned with ⟨same, sameAnswer, returned⟩
    rcases returned_bind returned with ⟨buffer, _, returned⟩
    rw [answer] at sameAnswer
    cases sameAnswer
    cases returned
    exact settleRead_chunkSize _ full

/-! ## The position after a run -/

/--
On a descriptor the position after a run is what the outcomes deliver, in the
arithmetic of `size_t`.
-/
theorem runReads_position {total counted : Nat} {stream : Stream}
    (counters : ReadCounters total counted stream)
    (fdBacked : stream.sourceType ≠ .memory)
    (notEnded : stream.endOfStream = false) (memory : Address → Byte)
    (calls : Nat) (side : ReadSide Unit ReadOutcome)
    {run : ReadRun Unit ReadOutcome}
    (returned : runReads scriptedDevice memory calls stream side = .ok run) :
    run.stream.logicalPosition =
      (total + delivered stream.bufferSize calls 0 side.choices) %
        sizeLimit := by
  induction calls generalizing total counted stream side run with
  | zero =>
      cases returned
      simpa [delivered] using counters.position
  | succ calls induction =>
      rcases returned_bind returned with ⟨first, firstReturned, returned⟩
      rcases returned_bind returned with ⟨later, laterReturned, returned⟩
      cases returned
      have reads : ReadsDescriptor stream :=
        ⟨counters.mode, fdBacked, counters.sized fdBacked⟩
      have after :=
        (readChunk_counters scriptedDevice counters side).of_returned
          firstReturned
      have same := readChunk_sameSource scriptedDevice firstReturned
      rcases readChunk_settled_size scriptedDevice reads notEnded side
          firstReturned with ⟨full, answer, sides, latched, size⟩
      rw [size] at after
      rw [delivered_readFull calls answer, ← Nat.add_assoc]
      cases ended : full.endOfFile with
      | true =>
          rw [runReads_of_endOfStream _ _ _ (latched.trans ended),
            Except.ok.injEq] at laterReturned
          subst laterReturned
          simpa using after.position
      | false =>
          have inner :=
            induction after (by rw [same.sourceType]; exact fdBacked)
              (latched.trans ended) _ laterReturned
          rw [same.bufferSize, sides] at inner
          simpa using inner

/-- A stream over memory that has handed out what is behind its position. -/
structure WithinMemory (stream : Stream) : Prop where
  source : stream.sourceType = .memory
  position : stream.logicalPosition = stream.memoryPosition
  total : stream.memorySize ≤ stream.totalSize
  inside : stream.memoryPosition ≤ stream.memorySize

theorem WithinMemory.readChunkMemory {stream : Stream}
    (within : WithinMemory stream) (fits : stream.totalSize < sizeLimit) :
    WithinMemory stream.readChunkMemory.2 := by
  rcases within with ⟨source, position, total, inside⟩
  have memoryFits : stream.memorySize < sizeLimit :=
    Nat.lt_of_le_of_lt total fits
  by_cases atEnd : stream.memorySize ≤ stream.memoryPosition
  · rw [readChunkMemory_at_end atEnd]
    exact ⟨source, position, total, inside⟩
  · have remaining :
        sizeSub stream.memorySize stream.memoryPosition =
          stream.memorySize - stream.memoryPosition :=
      wordSub_of_le inside memoryFits
    have small :
        stream.memoryPosition + memoryChunkSize stream ≤
          stream.memorySize := by
      unfold memoryChunkSize
      dsimp only
      rw [remaining]
      split <;> omega
    have sum :
        sizeAdd stream.memoryPosition (memoryChunkSize stream) =
          stream.memoryPosition + memoryChunkSize stream :=
      wordAdd_of_lt (Nat.lt_of_le_of_lt small memoryFits)
    rw [readChunkMemory_before_end atEnd]
    refine ⟨source, ?_, total, ?_⟩
    · simp only [creditRead, position]
    · simp only [creditRead, sum]
      exact small

theorem WithinMemory.readChunk (device : ReadDevice State Choice)
    {stream : Stream} (within : WithinMemory stream)
    (fits : stream.totalSize < sizeLimit) {side : ReadSide State Choice}
    {result : ReadChunkResult State Choice}
    (returned : stream.readChunk device side = .ok result) :
    WithinMemory result.stream := by
  unfold Stream.readChunk at returned
  split at returned
  · cases returned
    exact within
  split at returned
  · cases returned
    exact within
  split at returned
  · cases returned
    exact within.readChunkMemory fits
  · rename_i other
    exact absurd within.source other

theorem WithinMemory.runReads (device : ReadDevice State Choice)
    (memory : Address → Byte) (calls : Nat) {stream : Stream}
    (within : WithinMemory stream) (fits : stream.totalSize < sizeLimit)
    {side : ReadSide State Choice} {run : ReadRun State Choice}
    (returned :
      Stream.runReads device memory calls stream side = .ok run) :
    WithinMemory run.stream := by
  induction calls generalizing stream side run with
  | zero =>
      cases returned
      exact within
  | succ calls induction =>
      rcases returned_bind returned with ⟨first, firstReturned, returned⟩
      rcases returned_bind returned with ⟨later, laterReturned, returned⟩
      have same := readChunk_sameSource device firstReturned
      have inner :=
        induction (within.readChunk device fits firstReturned)
          (by rw [same.totalSize]; exact fits) laterReturned
      cases returned
      exact inner

/-! ## The bytes that remain -/

/--
What `bc_io_stream_remaining_bytes` is to answer: no more than the total size,
and the difference to the position as long as there is one.
-/
def RemainingExact (stream : Stream) : Prop :=
  ∀ remaining, stream.remainingBytes = some remaining →
    remaining ≤ stream.totalSize ∧
      (stream.currentPosition ≤ stream.totalSize →
        remaining + stream.currentPosition = stream.totalSize)

/-- The answer is exact unless the position is past the total size. -/
theorem remainingExact_iff {stream : Stream}
    (known : stream.totalSizeKnown = true)
    (fits : stream.totalSize < sizeLimit)
    (position : stream.logicalPosition < sizeLimit) :
    RemainingExact stream ↔
      stream.logicalPosition ≤ stream.totalSize := by
  simp only [RemainingExact, remainingBytes, known, if_true,
    currentPosition, Option.some.injEq, forall_eq']
  constructor
  · rintro ⟨small, _⟩
    by_contra past
    -- the difference has gone below zero by less than the position
    have wrapped :
        sizeSub stream.totalSize stream.logicalPosition =
          stream.totalSize + (sizeLimit - stream.logicalPosition) := by
      show (_ + (sizeLimit - _ % sizeLimit)) % sizeLimit = _
      rw [Nat.mod_eq_of_lt position]
      exact Nat.mod_eq_of_lt (by omega)
    omega
  · intro ordered
    have difference :
        sizeSub stream.totalSize stream.logicalPosition =
          stream.totalSize - stream.logicalPosition :=
      wordSub_of_le ordered fits
    rw [difference]
    exact ⟨by omega, fun _ => by omega⟩

theorem Opened.notEnded {stream : Stream} (opened : Opened stream) :
    stream.endOfStream = false := by
  cases opened <;> rfl

/--
After any run on a stream of known size the remaining bytes are exact if and
only if `read(2)` has not delivered more than the size that was sampled when
the stream was opened.  Streams over memory always meet this.
-/
theorem remainingBytes_exact_iff (stream : Stream) (opened : Opened stream)
    (mode : stream.mode = .read) (known : stream.totalSizeKnown = true)
    (fits : stream.totalSize < sizeLimit) (memory : Address → Byte)
    (calls : Nat) (outcomes : List ReadOutcome)
    (run : ReadRun Unit ReadOutcome)
    (returned :
      runReads scriptedDevice memory calls stream ⟨(), [], outcomes⟩ =
        .ok run) :
    RemainingExact run.stream ↔
      (stream.sourceType ≠ .memory →
        delivered stream.bufferSize calls 0 outcomes % sizeLimit ≤
          stream.totalSize) := by
  have same := runReads_sameSource scriptedDevice memory calls returned
  have knownAfter := same.totalSizeKnown.trans known
  have fitsAfter : run.stream.totalSize < sizeLimit := by
    rw [same.totalSize]
    exact fits
  by_cases source : stream.sourceType = .memory
  · have within : WithinMemory stream := by
      cases opened with
      | onDescriptor =>
          exact ⟨source, rfl, Nat.zero_le _, Nat.le_refl 0⟩
      | overMemory data size =>
          exact ⟨rfl, rfl, Nat.le_refl size, Nat.zero_le size⟩
    have after := within.runReads scriptedDevice memory calls fits returned
    have ordered : run.stream.logicalPosition ≤ run.stream.totalSize := by
      rw [after.position]
      exact Nat.le_trans after.inside after.total
    refine iff_of_true ?_ fun other => absurd source other
    exact (remainingExact_iff knownAfter fitsAfter (by omega)).mpr ordered
  · have counters : ReadCounters 0 0 stream :=
      (opened.readAccounts mode
        (⟨(), [], []⟩ : ReadSide Unit ReadOutcome) ⟨[], []⟩).counters
    have position :=
      runReads_position counters source opened.notEnded memory calls _
        returned
    rw [Nat.zero_add] at position
    have below : run.stream.logicalPosition < sizeLimit := by
      rw [position]
      exact Nat.mod_lt _ wordLimit_pos
    rw [remainingExact_iff knownAfter fitsAfter below, position,
      same.totalSize]
    exact ⟨fun ordered _ => ordered, fun ordered => ordered source⟩

/-- A file of two bytes as `bc_io_stream_open_file` leaves it. -/
def openedFile : Stream :=
  { initCommonFields (some 0) [0, 0, 0, 0] 4 .file .read 3 true with
    totalSize := 2
    totalSizeKnown := true }

theorem openedFile_opened : Opened openedFile :=
  .onDescriptor (some 0) [0, 0, 0, 0] .file .read 3 true (some 2)
    (by decide)

/-- The two bytes arrive one by one. -/
theorem remainingBytes_exact_iff_short_reads :
    ∃ run,
      runReads scriptedDevice (fun _ => 0) 1 openedFile
          ⟨(), [], [.transferred [1], .failed Errno.eintr,
            .transferred [2], .transferred []]⟩ = .ok run ∧
        RemainingExact run.stream := by
  have ran :
      ∃ run,
        runReads scriptedDevice (fun _ => 0) 1 openedFile
          ⟨(), [], [.transferred [1], .failed Errno.eintr,
            .transferred [2], .transferred []]⟩ = .ok run :=
    ⟨_, rfl⟩
  rcases ran with ⟨run, returned⟩
  exact ⟨run, returned,
    (remainingBytes_exact_iff openedFile openedFile_opened rfl rfl
      (by decide) _ _ _ run returned).mpr fun _ => by decide⟩

/-- The file has grown by a byte since it was opened. -/
theorem remainingBytes_wraps :
    ∃ run,
      runReads scriptedDevice (fun _ => 0) 1 openedFile
          ⟨(), [], [.transferred [1, 2, 3], .transferred []]⟩ = .ok run ∧
        run.stream.remainingBytes = some (2 ^ 64 - 1) ∧
        ¬ RemainingExact run.stream := by
  refine ⟨_, rfl, by decide, ?_⟩
  intro exact_
  exact absurd (exact_ (2 ^ 64 - 1) (by decide)).1 (by decide)

/-! ## Empty chunks -/

/-- The first outcome other than `EINTR` is `EAGAIN`. -/
def blocksAtOnce : List ReadOutcome → Bool
  | .failed errno :: rest =>
      if errno = Errno.eintr then blocksAtOnce rest
      else errno = Errno.eagain
  | _ => false

/-- What the loop has received it keeps. -/
theorem readLoop_keeps {capacity : Nat} (choices : List ReadOutcome)
    (transferred bytes : List Byte)
    {full : ReadFullResult Unit ReadOutcome}
    (returned :
      Io.readLoop scriptedDevice capacity choices () transferred bytes =
        .ok full) :
    bytes.length ≤ full.bytes.length := by
  induction choices generalizing transferred bytes with
  | nil =>
      simp only [Io.readLoop] at returned
      split at returned
      · cases returned
      · cases returned
        exact Nat.le_refl _
  | cons outcome rest induction =>
      by_cases unfinished : bytes.length < capacity
      · rcases Io.readLoop_turn unfinished returned with
          ⟨_, rfl⟩ | ⟨received, _, _, later⟩ | ⟨_, later⟩ | ⟨_, rfl⟩ |
          ⟨_, _, _, _, rfl⟩
        · exact Nat.le_refl _
        · have more := induction _ _ later
          rw [List.length_append] at more
          omega
        · exact induction _ _ later
        · exact Nat.le_refl _
        · exact Nat.le_refl _
      · rw [Io.readLoop_of_full _ _ _ _ (Nat.le_of_not_lt unfinished)]
          at returned
        cases returned
        exact Nat.le_refl _

/-- A call that returns empty-handed without an error or the end has blocked. -/
theorem readLoop_empty_iff {capacity : Nat} (positive : 0 < capacity)
    (choices : List ReadOutcome) (transferred : List Byte)
    {full : ReadFullResult Unit ReadOutcome}
    (returned :
      Io.readLoop scriptedDevice capacity choices () transferred [] =
        .ok full) :
    (full.succeeded = true ∧ full.bytes = [] ∧ full.endOfFile = false) ↔
      blocksAtOnce choices = true := by
  induction choices generalizing transferred with
  | nil => simp [Io.readLoop, positive] at returned
  | cons outcome rest induction =>
      rcases Io.readLoop_turn positive returned with
        ⟨rfl, rfl⟩ | ⟨received, rfl, nonempty, later⟩ |
        ⟨rfl, later⟩ | ⟨rfl, rfl⟩ |
        ⟨errno, rfl, notInterrupted, hard, rfl⟩
      · simp [blocksAtOnce]
      · have kept := readLoop_keeps _ _ _ later
        rw [List.nil_append, List.length_nil, Nat.sub_zero,
          List.length_take] at kept
        have received_pos := List.length_pos_iff.mpr nonempty
        have some_ : full.bytes ≠ [] :=
          List.length_pos_iff.mp (by omega)
        simp [blocksAtOnce, some_]
      · exact induction _ later
      · simp [blocksAtOnce, Errno.eagain, Errno.eintr]
      · simp [blocksAtOnce, notInterrupted, hard]

/-- When a settled call hands out no empty chunk. -/
theorem settleRead_progress_iff (stream : Stream)
    (full : ReadFullResult State Choice) :
    (∀ chunk, (settleRead stream full).chunk = some chunk →
        0 < chunk.size) ↔
      ¬ (full.succeeded = true ∧ full.bytes = [] ∧
        full.endOfFile = false) := by
  unfold settleRead
  dsimp only
  split
  · rename_i failed
    simp [failed]
  · rename_i succeeded
    have ok : full.succeeded = true := by simpa using succeeded
    split
    · rename_i empty
      simp [empty.2]
    · rename_i going
      have bytes : full.bytes = [] ↔ full.bytes.length = 0 :=
        List.length_eq_zero_iff.symm
      rw [← bytes] at going
      simp only [Option.some.injEq, forall_eq', ok, true_and]
      cases ended : full.endOfFile with
      | true =>
          have nonempty : full.bytes ≠ [] := fun empty =>
            going ⟨empty, ended⟩
          simp [List.length_pos_iff, nonempty]
      | false => simp [List.length_pos_iff]

/-- The states that calls of a user lead to. -/
inductive Reachable (start : Stream) :
    Stream → Sides Unit ReadOutcome → Prop where
  | opened (sides : Sides Unit ReadOutcome) : Reachable start start sides
  | called {stream : Stream} {sides : Sides Unit ReadOutcome} (call : Call)
      {report : Report Unit ReadOutcome}
      (reached : Reachable start stream sides)
      (returned : perform scriptedDevice call stream sides = .ok report) :
      Reachable start report.stream report.sides

/-- Whatever is called, a stream open for reading keeps its source. -/
theorem Reachable.reads {start stream : Stream}
    {sides : Sides Unit ReadOutcome}
    (reachable : Reachable start stream sides) (opened : Opened start)
    (mode : start.mode = .read) :
    SameSource start stream ∧
      ∃ total counted, ReadCounters total counted stream := by
  induction reachable with
  | opened sides =>
      exact ⟨.refl start, 0, 0,
        (opened.readAccounts mode sides.reading sides.writing).counters⟩
  | @called stream sides call report reached returned induction =>
      rcases induction with ⟨same, total, counted, counters⟩
      cases call with
      | readChunk =>
          rcases returned_bind returned with ⟨result, read, returned⟩
          cases returned
          exact ⟨same.trans (readChunk_sameSource scriptedDevice read), _, _,
            (readChunk_counters scriptedDevice counters _).of_returned read⟩
      | writeChunk data =>
          simp only [perform, counters.writeChunk_eq data sides.writing]
            at returned
          cases returned
          exact ⟨same, total, counted, counters⟩
      | flush =>
          simp only [perform, counters.flush_eq sides.writing] at returned
          cases returned
          exact ⟨same, total, counted, counters⟩

/-- A chunk of memory is never empty. -/
theorem readChunkMemory_progress {stream : Stream}
    (positive : 0 < stream.bufferSize) (fits : stream.memorySize < sizeLimit)
    {chunk : Chunk} (handed : stream.readChunkMemory.1 = some chunk) :
    0 < chunk.size := by
  by_cases atEnd : stream.memorySize ≤ stream.memoryPosition
  · rw [readChunkMemory_at_end atEnd] at handed
    cases handed
  · have remaining :
        sizeSub stream.memorySize stream.memoryPosition =
          stream.memorySize - stream.memoryPosition :=
      wordSub_of_le (by omega) fits
    rw [readChunkMemory_before_end atEnd] at handed
    cases handed
    show 0 < memoryChunkSize stream
    unfold memoryChunkSize
    dsimp only
    rw [remaining]
    split <;> omega

/--
In every state that calls lead to, a read hands out no empty chunk unless it
reads a descriptor that would block at once: `EAGAIN` ends the loop of
`bc_io_stream_io_read_full` as a success, and an empty-handed success that is
not the end of the file is passed on as a chunk.
-/
theorem readChunk_progress_iff (start : Stream) (opened : Opened start)
    (mode : start.mode = .read) (positive : 0 < start.bufferSize)
    (fits : start.memorySize < sizeLimit) (stream : Stream)
    (sides : Sides Unit ReadOutcome)
    (reachable : Reachable start stream sides)
    (result : ReadChunkResult Unit ReadOutcome)
    (returned :
      stream.readChunk scriptedDevice sides.reading = .ok result) :
    (∀ chunk, result.chunk = some chunk → 0 < chunk.size) ↔
      (stream.endOfStream = false → stream.sourceType ≠ .memory →
        blocksAtOnce sides.reading.choices = false) := by
  rcases reachable.reads opened mode with ⟨same, total, counted, counters⟩
  rw [← same.bufferSize] at positive
  rw [← same.memorySize] at fits
  cases ended : stream.endOfStream with
  | true =>
      simp only [readChunk, ended, if_true] at returned
      cases returned
      simp
  | false =>
      by_cases source : stream.sourceType = .memory
      · rw [readChunk_eq_memory scriptedDevice counters.mode source ended]
          at returned
        cases returned
        refine iff_of_true ?_ fun _ other => absurd source other
        intro chunk handed
        exact readChunkMemory_progress positive fits handed
      · have reads : ReadsDescriptor stream :=
          ⟨counters.mode, source, counters.sized source⟩
        rw [readChunk_eq_file scriptedDevice reads ended] at returned
        rcases returned_bind returned with ⟨full, answer, returned⟩
        rcases returned_bind returned with ⟨buffer, _, returned⟩
        cases returned
        rw [settleRead_progress_iff,
          readLoop_empty_iff positive _ _ answer]
        simp [source]

theorem openedPipe_opened : Opened openedPipe :=
  .onDescriptor (some 0) [0, 0, 0, 0] .pipe .read 3 false none (by decide)

/-- The second chunk of a pipe, whose first byte comes after a retry. -/
theorem readChunk_progress_iff_second_chunk :
    ∃ report result,
      perform scriptedDevice .readChunk openedPipe
          ⟨⟨(), [], [.transferred [1, 2, 3, 4], .failed Errno.eintr,
            .transferred [5], .failed Errno.eagain]⟩, ⟨[], []⟩⟩ =
        .ok report ∧
      report.stream.readChunk scriptedDevice report.sides.reading =
        .ok result ∧
      result.chunk.isSome ∧
      ∀ chunk, result.chunk = some chunk → 0 < chunk.size := by
  have ran :
      ∃ report result,
        perform scriptedDevice .readChunk openedPipe
            ⟨⟨(), [], [.transferred [1, 2, 3, 4], .failed Errno.eintr,
              .transferred [5], .failed Errno.eagain]⟩, ⟨[], []⟩⟩ =
          .ok report ∧
        report.stream.readChunk scriptedDevice report.sides.reading =
          .ok result ∧
        result.chunk.isSome ∧
        blocksAtOnce report.sides.reading.choices = false :=
    ⟨_, _, rfl, rfl, rfl, by decide⟩
  rcases ran with ⟨report, result, first, second, some_, arrives⟩
  have progress :=
    readChunk_progress_iff openedPipe openedPipe_opened rfl (by decide)
      (by decide) report.stream report.sides
      (.called .readChunk (.opened _) first) result second
  exact ⟨report, result, first, second, some_,
    progress.mpr fun _ _ => arrives⟩

/-- A non-blocking pipe without data: `true`, and a chunk of no bytes. -/
theorem readChunk_without_progress :
    ∃ result,
      openedPipe.readChunk scriptedDevice
          ⟨(), [], [.failed Errno.eagain]⟩ = .ok result ∧
        ¬ ∀ chunk, result.chunk = some chunk → 0 < chunk.size := by
  refine ⟨_, rfl, ?_⟩
  intro progress
  exact absurd (progress ⟨.streamBuffer, 0, true⟩ (by decide)) (by decide)

end BcIo.Stream
