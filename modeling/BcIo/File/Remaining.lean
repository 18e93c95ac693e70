import BcIo.File.Drain

/-!
# Descriptors that are not at the start of their file

`bc_io_stream_open_file_descriptor` takes the size of the whole file, while the
position of the stream counts from the moment it was opened.  A read never
looks at the position, so a stream on a descriptor at `offset` goes through the
file as one whose position started there.
-/

namespace BcIo.File

open BcIo.Foundation.MachineWord
open BcIo.Stream

variable {State Choice : Type}

/-! ## Reading does not look at the position -/

/-- The same stream, further on in its own account. -/
def advanced (offset : Nat) (stream : Stream) : Stream :=
  { stream with logicalPosition := sizeAdd stream.logicalPosition offset }

theorem advanced_creditRead (offset size : Nat) (stream : Stream) :
    (advanced offset stream).creditRead size =
      advanced offset (stream.creditRead size) := by
  have swapped :
      sizeAdd (sizeAdd stream.logicalPosition offset) size =
        sizeAdd (sizeAdd stream.logicalPosition size) offset := by
    simp only [sizeAdd, wordAdd, Nat.mod_add_mod]
    rw [Nat.add_right_comm]
  simp only [Stream.creditRead, advanced, swapped]

theorem settleRead_advanced (offset : Nat) (stream : Stream)
    (full : ReadFullResult State Choice) :
    settleRead (advanced offset stream) full =
      { settleRead stream full with
        stream := advanced offset (settleRead stream full).stream } := by
  unfold settleRead
  simp only [advanced_creditRead]
  by_cases failed : full.succeeded = false
  · simp only [if_pos failed]
  by_cases empty : full.bytes.length = 0 ∧ full.endOfFile = true
  · simp only [if_neg failed, if_pos empty]
    rfl
  simp only [if_neg failed, if_neg empty]
  generalize credited : stream.creditRead full.bytes.length = after
  by_cases short : full.bytes.length < after.bufferSize
  · have shortToo : full.bytes.length < (advanced offset after).bufferSize :=
      short
    simp only [if_pos short, if_pos shortToo]
    split <;> rfl
  · have fullToo :
        ¬ full.bytes.length < (advanced offset after).bufferSize :=
      short
    simp only [if_neg short, if_neg fullToo]
    split <;> rfl

theorem readChunkFile_advanced (device : ReadDevice State Choice)
    (offset : Nat) (stream : Stream) (side : ReadSide State Choice) :
    (advanced offset stream).readChunkFile device side =
      (stream.readChunkFile device side).map fun result =>
        { result with stream := advanced offset result.stream } := by
  unfold readChunkFile
  show (Io.readFull device stream.bufferSize side >>= fun full =>
    copyBytes stream.buffer 0 full.bytes >>= fun buffer => _) = _
  cases Io.readFull device stream.bufferSize side with
  | error halt => rfl
  | ok full =>
      show (copyBytes stream.buffer 0 full.bytes >>= fun buffer =>
        .ok (settleRead (advanced offset { stream with buffer := buffer })
          full)) = _
      simp only [bind, Except.bind]
      cases copyBytes stream.buffer 0 full.bytes with
      | error halt => rfl
      | ok buffer =>
          simp only [settleRead_advanced]
          rfl

theorem readChunk_advanced (device : ReadDevice State Choice)
    (offset : Nat) {stream : Stream}
    (fdBacked : stream.sourceType ≠ .memory)
    (side : ReadSide State Choice) :
    (advanced offset stream).readChunk device side =
      (stream.readChunk device side).map fun result =>
        { result with stream := advanced offset result.stream } := by
  have fdBackedToo : (advanced offset stream).sourceType ≠ .memory :=
    fdBacked
  unfold readChunk
  rw [if_neg fdBacked, if_neg fdBackedToo, readChunkFile_advanced]
  show (if stream.endOfStream = true then _
    else if stream.mode ≠ .read then _ else _) = _
  split
  · rfl
  · split <;> rfl

/-- The run that a stream makes further on. -/
def advancedRun (offset : Nat) (run : ReadRun State Choice) :
    ReadRun State Choice :=
  { run with stream := advanced offset run.stream }

theorem runReads_advanced (device : ReadDevice State Choice)
    (memory : Address → Byte) (offset calls : Nat) {stream : Stream}
    (fdBacked : stream.sourceType ≠ .memory)
    (side : ReadSide State Choice) :
    runReads device memory calls (advanced offset stream) side =
      (runReads device memory calls stream side).map
        (advancedRun offset) := by
  induction calls generalizing stream side with
  | zero => rfl
  | succ calls induction =>
      unfold runReads
      rw [readChunk_advanced device offset fdBacked]
      cases returned : stream.readChunk device side with
      | error halt => rfl
      | ok first =>
          have same := readChunk_sameSource device returned
          have fdBackedLater : first.stream.sourceType ≠ .memory := by
            rw [same.sourceType]
            exact fdBacked
          have inner := induction fdBackedLater first.side
          simp only [Except.map, bind, Except.bind] at inner ⊢
          rw [inner]
          cases runReads device memory calls first.stream first.side with
          | error halt => rfl
          | ok later => rfl

/-- The position counts the bytes that were handed out. -/
theorem runReads_counters (device : ReadDevice State Choice)
    (memory : Address → Byte) (calls : Nat) {total counted : Nat}
    {stream : Stream} (counters : ReadCounters total counted stream)
    (fdBacked : stream.sourceType ≠ .memory)
    {side : ReadSide State Choice} {run : ReadRun State Choice}
    (returned : runReads device memory calls stream side = .ok run) :
    ∃ later, ReadCounters (total + run.handed.length) later run.stream := by
  induction calls generalizing total counted stream side run with
  | zero =>
      cases returned
      exact ⟨counted, counters⟩
  | succ calls induction =>
      by_cases ended : stream.endOfStream = true
      · rw [runReads_of_endOfStream _ _ _ ended, Except.ok.injEq] at returned
        subst returned
        exact ⟨counted, by simpa [ReadRun.handed] using counters⟩
      have notEnded : stream.endOfStream = false := by simpa using ended
      rcases returned_bind returned with ⟨first, firstReturned, returned⟩
      rcases returned_bind returned with ⟨later, laterReturned, returned⟩
      cases returned
      have reads : ReadsDescriptor stream :=
        ⟨counters.mode, fdBacked, counters.sized fdBacked⟩
      have after :=
        (readChunk_counters device counters side).of_returned firstReturned
      have same := readChunk_sameSource device firstReturned
      rcases readChunk_settled device reads notEnded side firstReturned with
        ⟨full, answer, _, settled⟩
      rcases readChunk_settled_size device reads notEnded side
          firstReturned with ⟨full', answer', _, _, size⟩
      cases (show Except.ok full = Except.ok full' from
        answer.symm.trans answer')
      have bytes := settled.handed memory
      have length :
          (first.chunk.map Chunk.size).getD 0 =
            ((first.chunk.map fun chunk =>
              chunk.bytes first.stream memory).getD []).length := by
        rw [size, bytes]
        split <;> rfl
      rw [length] at after
      rcases induction after (by rw [same.sourceType]; exact fdBacked)
          laterReturned with ⟨counted', counters'⟩
      refine ⟨counted', ?_⟩
      simpa [ReadRun.handed, Nat.add_assoc] using counters'

/-! ## Streams that start inside the file -/

/-- With a buffer, further calls deliver what is left of the file. -/
theorem runReads_rest {content : List Byte} {offset start : Nat}
    {stream : Stream} {side : ReadSide Nat RegularChoice}
    (representable : content.length < sizeLimit)
    (memory : Address → Byte)
    (holds : BufferedAt content offset (advanced start stream) side)
    (enough : content.length < offset + answered side.choices)
    {calls : Nat} (many : content.length < offset + calls) :
    ∃ run, runReads (regularFile content) memory calls stream side =
        .ok run ∧ run.handed = content.drop offset := by
  have fdBacked : stream.sourceType ≠ .memory := holds.reads.fdBacked
  have returns :
      ∃ run, runReads (regularFile content) memory calls
        (advanced start stream) side = .ok run :=
    runReads_buffered_returns holds representable enough calls
  rcases returns with ⟨run, returned⟩
  have drained :=
    (draining_buffered content representable memory).runReads calls holds
      returned
  have stopped : none ∈ run.results :=
    List.mem_of_mem_take (drained.bounded many)
  rcases drained.reached with ⟨count, handed, reached⟩
  have all : offset + count = content.length :=
    reached.accounts.latched (drained.ended stopped)
  rw [runReads_advanced _ memory start calls fdBacked] at returned
  cases own : runReads (regularFile content) memory calls stream side with
  | error halt =>
      rw [own] at returned
      cases returned
  | ok ownRun =>
      rw [own] at returned
      cases returned
      refine ⟨ownRun, rfl, ?_⟩
      have whole : (content.drop offset).length ≤ count := by
        rw [List.length_drop]
        omega
      exact handed.trans (List.take_of_length_le whole)

/-- A stream that was opened on a descriptor of a regular file. -/
structure OnFile (content : List Byte) (stream : Stream) : Prop where
  counters : ReadCounters 0 0 stream
  source : stream.sourceType = .file
  totalSizeKnown : stream.totalSizeKnown = true
  totalSize : stream.totalSize = content.length
  notEnded : stream.endOfStream = false

theorem OnFile.fdBacked {content : List Byte} {stream : Stream}
    (onFile : OnFile content stream) : stream.sourceType ≠ .memory := by
  simp [onFile.source]

theorem openFileDescriptor_onFile {world opened : World}
    {descriptor : Descriptor} {bufferSize : Nat} {content : List Byte}
    {stream : Pooled Stream}
    (node : world.nodeOf descriptor = some (.regular content))
    (succeeded :
      openFileDescriptor world descriptor .file .read bufferSize =
        (some stream, opened))
    (known : stream.value.totalSizeKnown = true) :
    OnFile content stream.value := by
  rcases (openFileDescriptor_some succeeded).fields with
    ⟨arena, buffer, size, total, length, _, fields, answer⟩
  have sized : total = some content.length := by
    have isSome : total.isSome = true := by
      rw [fields] at known
      exact known
    rw [answer rfl rfl, Io.getFileSize, World.fstat] at isSome ⊢
    cases fault : world.fault .fstat with
    | some errno => simp [fault] at isSome
    | none =>
        rw [node]
        rfl
  subst sized
  rw [fields]
  exact ⟨⟨rfl, fun _ => length, rfl, rfl, rfl, rfl⟩, rfl, rfl, rfl, rfl⟩

/-- With a buffer the stream stands at the offset of its descriptor. -/
theorem OnFile.starts {content : List Byte} {stream : Stream}
    (onFile : OnFile content stream) (positive : 0 < stream.bufferSize)
    (representable : content.length < sizeLimit) {offset : Nat}
    (inside : offset ≤ content.length) (choices : List RegularChoice) :
    BufferedAt content offset (advanced offset stream)
      ⟨offset, [], choices⟩ where
  accounts := by
    refine ⟨inside, onFile.counters.mode, ?_, ?_⟩
    · show sizeAdd stream.logicalPosition offset = offset
      rw [onFile.counters.position, Nat.zero_mod]
      have fits : 0 + offset < sizeLimit := by omega
      exact (wordAdd_of_lt fits).trans (Nat.zero_add offset)
    · intro ended
      exact absurd (onFile.notEnded.symm.trans ended) (by decide)
  reads :=
    ⟨onFile.counters.mode, onFile.fdBacked,
      onFile.counters.sized onFile.fdBacked⟩
  positive := positive
  fileOffset := rfl

/-- Where a run on the descriptor has got to. -/
theorem OnFile.reaches {content : List Byte} {stream : Stream}
    (onFile : OnFile content stream) (positive : 0 < stream.bufferSize)
    (representable : content.length < sizeLimit) {offset : Nat}
    (inside : offset ≤ content.length) (memory : Address → Byte)
    {calls : Nat} {choices : List RegularChoice}
    {run : ReadRun Nat RegularChoice}
    (returned :
      runReads (regularFile content) memory calls stream
        ⟨offset, [], choices⟩ = .ok run) :
    BufferedAt content (offset + run.handed.length)
      (advanced offset run.stream) run.side := by
  have further :=
    runReads_advanced (regularFile content) memory offset calls
      onFile.fdBacked ⟨offset, [], choices⟩
  rw [returned] at further
  have drained :=
    (draining_buffered content representable memory).runReads calls
      (onFile.starts positive representable inside choices) further
  rcases drained.reached with ⟨count, handed, reached⟩
  have length : run.handed.length = count := by
    have bound := reached.accounts.inside
    have same : run.handed = (content.drop offset).take count := handed
    rw [same, List.length_take, List.length_drop]
    omega
  rw [length]
  exact reached

/-- What is left of the size after a run, while the reads are within it. -/
theorem OnFile.remaining {content : List Byte} {stream : Stream}
    (onFile : OnFile content stream)
    (representable : content.length < sizeLimit)
    {device : ReadDevice State Choice} (memory : Address → Byte) {calls : Nat}
    {side : ReadSide State Choice} {run : ReadRun State Choice}
    (returned : runReads device memory calls stream side = .ok run)
    (within : run.handed.length ≤ content.length) :
    run.stream.remainingBytes =
      some (content.length - run.handed.length) := by
  have same := runReads_sameSource device memory calls returned
  rcases runReads_counters device memory calls onFile.counters
      onFile.fdBacked returned with ⟨_, counters⟩
  have fits : run.handed.length < sizeLimit := by omega
  rw [remainingBytes, same.totalSizeKnown, onFile.totalSizeKnown,
    same.totalSize, onFile.totalSize, counters.position, Nat.zero_add,
    Nat.mod_eq_of_lt fits, if_pos rfl, Option.some.injEq]
  exact wordSub_of_le within representable

/-! ## The remaining bytes and the drain -/

/--
The remaining bytes are what all later calls deliver, given an answer of the
kernel and a call for each byte and one more of both for the end; at the end of
the stream there are none.
-/
def PredictsDrain (content : List Byte) (memory : Address → Byte)
    (run : ReadRun Nat RegularChoice) : Prop :=
  (∀ choices more, content.length < answered choices →
      content.length < more →
        ∃ later, runReads (regularFile content) memory more run.stream
            { run.side with choices := choices } = .ok later ∧
          run.stream.remainingBytes = some later.handed.length) ∧
    (run.stream.isEndOfStream = true →
      run.stream.remainingBytes = some 0)

/-- From the start of the file the prediction is exact. -/
theorem OnFile.predictsDrain {content : List Byte} {stream : Stream}
    (onFile : OnFile content stream) (positive : 0 < stream.bufferSize)
    (representable : content.length < sizeLimit)
    (memory : Address → Byte) {calls : Nat}
    {choices : List RegularChoice} {run : ReadRun Nat RegularChoice}
    (returned :
      runReads (regularFile content) memory calls stream
        ⟨0, [], choices⟩ = .ok run) :
    PredictsDrain content memory run := by
  have reached :=
    onFile.reaches positive representable (Nat.zero_le _) memory returned
  rw [Nat.zero_add] at reached
  have within := reached.accounts.inside
  have remaining := onFile.remaining representable memory returned within
  constructor
  · intro choices more enough many
    have holds :
        BufferedAt content run.handed.length (advanced 0 run.stream)
          { run.side with choices := choices } :=
      ⟨reached.accounts, reached.reads, reached.positive,
        reached.fileOffset⟩
    have enoughLeft :
        content.length < run.handed.length + answered choices := by
      omega
    rcases runReads_rest representable memory holds enoughLeft
        (show content.length < run.handed.length + more by omega) with
      ⟨later, laterReturned, handed⟩
    refine ⟨later, laterReturned, ?_⟩
    rw [remaining, handed, List.length_drop]
  · intro ended
    have all : run.handed.length = content.length :=
      reached.accounts.latched ended
    rw [remaining, all, Nat.sub_self]

/-- Without a buffer nothing is ever delivered, of an empty file as well. -/
theorem OnFile.predictsDrain_of_empty {stream : Stream}
    (onFile : OnFile [] stream) (noBuffer : stream.bufferSize = 0)
    (memory : Address → Byte) {calls : Nat}
    {side : ReadSide Nat RegularChoice} {run : ReadRun Nat RegularChoice}
    (returned :
      runReads (regularFile []) memory calls stream side = .ok run) :
    PredictsDrain [] memory run := by
  have reads : ReadsDescriptor stream :=
    ⟨onFile.counters.mode, onFile.fdBacked,
      onFile.counters.sized onFile.fdBacked⟩
  rcases runReads_of_no_buffer (regularFile []) memory calls reads noBuffer
      onFile.notEnded side with
    ⟨same, sameReturned, handed, _, open_, readsLater, noBufferLater⟩
  cases returned.symm.trans sameReturned
  have remaining : run.stream.remainingBytes = some 0 := by
    rw [onFile.remaining wordLimit_pos memory returned (by simp [handed]),
      handed]
    rfl
  refine ⟨?_, fun _ => remaining⟩
  intro choices more _ _
  rcases runReads_of_no_buffer (regularFile []) memory more readsLater
      noBufferLater open_ { run.side with choices := choices } with
    ⟨later, laterReturned, nothing, _⟩
  exact ⟨later, laterReturned, by rw [remaining, nothing]; rfl⟩

theorem answered_replicate (count : Nat) :
    answered (List.replicate count (.upTo 0)) = count := by
  simp [answered, List.countP_replicate]

/-- A prediction at the start fails on a descriptor inside a file. -/
theorem OnFile.of_predictsDrain {content : List Byte} {stream : Stream}
    (onFile : OnFile content stream)
    (representable : content.length < sizeLimit) {offset : Nat}
    (inside : offset ≤ content.length) (memory : Address → Byte)
    (predicts :
      PredictsDrain content memory ⟨[], stream, ⟨offset, [], []⟩⟩) :
    content = [] ∨ (offset = 0 ∧ 0 < stream.bufferSize) := by
  have started :
      runReads (regularFile content) memory 0 stream ⟨offset, [], []⟩ =
        .ok ⟨[], stream, ⟨offset, [], []⟩⟩ :=
    rfl
  have remaining :=
    onFile.remaining representable memory started (Nat.zero_le _)
  rcases predicts.1 (List.replicate (content.length + 1) (.upTo 0))
      (content.length + 1) (by rw [answered_replicate]; omega)
      (Nat.lt_succ_self _) with ⟨later, returned, predicted⟩
  have delivered : later.handed.length = content.length := by
    have same := predicted.symm.trans remaining
    simpa [ReadRun.handed] using same
  by_cases positive : 0 < stream.bufferSize
  · have reached :=
      onFile.reaches positive representable inside memory returned
    have within := reached.accounts.inside
    have start : offset = 0 := by omega
    exact Or.inr ⟨start, positive⟩
  · have reads : ReadsDescriptor stream :=
      ⟨onFile.counters.mode, onFile.fdBacked,
        onFile.counters.sized onFile.fdBacked⟩
    rcases runReads_of_no_buffer (regularFile content) memory
        (content.length + 1) reads (Nat.eq_zero_of_not_pos positive)
        onFile.notEnded _ with ⟨same, sameReturned, handed, _⟩
    cases returned.symm.trans sameReturned
    rw [handed] at delivered
    exact Or.inl (List.length_eq_zero_iff.mp delivered.symm)

theorem openFileDescriptor_bufferSize {world opened : World}
    {descriptor : Descriptor} {sourceType : SourceType} {mode : Mode}
    {bufferSize : Nat} {stream : Pooled Stream}
    (succeeded :
      openFileDescriptor world descriptor sourceType mode bufferSize =
        (some stream, opened)) :
    stream.value.bufferSize = alignedSize world bufferSize sourceType := by
  rcases (openFileDescriptor_some succeeded).fields with
    ⟨arena, buffer, size, total, _, aligned, fields, _⟩
  rw [fields, ← aligned]
  rfl

/--
On a descriptor of a regular file the remaining bytes predict the drain after
every run of reads if and only if the descriptor was at the start of the file
and the stream has a buffer, or the file is empty: the total size is that of
the whole file, while the position counts from where the descriptor was.
-/
theorem remainingBytes_predicts_drain_iff (world opened : World)
    (descriptor : Descriptor) (bufferSize : Nat) (content : List Byte)
    (stream : Pooled Stream)
    (node : world.nodeOf descriptor = some (.regular content))
    (representable : content.length < 2 ^ 63)
    (succeeded :
      openFileDescriptor world descriptor .file .read bufferSize =
        (some stream, opened))
    (known : stream.value.totalSizeKnown = true) (offset : Nat)
    (inside : offset ≤ content.length) (memory : Address → Byte) :
    (∀ choices calls run,
        runReads (regularFile content) memory calls stream.value
            ⟨offset, [], choices⟩ = .ok run →
          PredictsDrain content memory run) ↔
      content = [] ∨
        (offset = 0 ∧ 0 < alignedSize world bufferSize .file) := by
  have buffered := openFileDescriptor_bufferSize succeeded
  rw [← buffered]
  have fits : content.length < sizeLimit := by
    simp only [sizeLimit, wordLimit]
    omega
  have onFile := openFileDescriptor_onFile node succeeded known
  constructor
  · intro predicts
    exact onFile.of_predictsDrain fits inside memory (predicts [] 0 _ rfl)
  · rintro (rfl | ⟨rfl, positive⟩) choices calls run returned
    · have start : offset = 0 := Nat.le_zero.mp inside
      subst start
      by_cases positive : 0 < stream.value.bufferSize
      · exact onFile.predictsDrain positive fits memory returned
      · exact onFile.predictsDrain_of_empty
          (Nat.eq_zero_of_not_pos positive) memory returned
    · exact onFile.predictsDrain positive fits memory returned

/-- The file of `oneFile` behind descriptor 0. -/
def oneDescriptor : World :=
  (oneFile.openRead [102]).2

/-- From the start, with the end reached after a short read. -/
theorem remainingBytes_predicts_drain_iff_start :
    ∃ stream opened run,
      openFileDescriptor oneDescriptor 0 .file .read 1 =
          (some stream, opened) ∧
        runReads (regularFile [1, 2, 3]) (fun _ => 0) 1 stream.value
          ⟨0, [], [.upTo 0, .interrupted, .upTo 5, .upTo 0]⟩ = .ok run ∧
        PredictsDrain [1, 2, 3] (fun _ => 0) run := by
  have ran :
      ∃ stream opened run,
        openFileDescriptor oneDescriptor 0 .file .read 1 =
            (some stream, opened) ∧
          stream.value.totalSizeKnown = true ∧
          runReads (regularFile [1, 2, 3]) (fun _ => 0) 1 stream.value
            ⟨0, [], [.upTo 0, .interrupted, .upTo 5, .upTo 0]⟩ =
              .ok run :=
    ⟨_, _, _, rfl, rfl, rfl⟩
  rcases ran with ⟨stream, opened, run, succeeded, known, returned⟩
  refine ⟨stream, opened, run, succeeded, returned, ?_⟩
  exact
    (remainingBytes_predicts_drain_iff oneDescriptor opened 0 1 [1, 2, 3]
      stream rfl (by decide) succeeded known 0 (by decide)
      fun _ => 0).mpr (Or.inr ⟨rfl, by decide⟩) _ _ run returned

/--
A descriptor that is one byte into its file: when the end is reached, one byte
still seems to remain.
-/
theorem remainingBytes_past_end :
    ∃ stream opened run,
      openFileDescriptor oneDescriptor 0 .file .read 1 =
          (some stream, opened) ∧
        runReads (regularFile [1, 2, 3]) (fun _ => 0) 1 stream.value
          ⟨1, [], [.upTo 5, .upTo 0]⟩ = .ok run ∧
        run.stream.isEndOfStream = true ∧
        run.stream.remainingBytes = some 1 ∧
        ¬ PredictsDrain [1, 2, 3] (fun _ => 0) run := by
  refine ⟨_, _, _, rfl, rfl, rfl, by decide, ?_⟩
  rintro ⟨_, none_⟩
  exact absurd (none_ rfl) (by decide)

end BcIo.File
