import BcIo.Stream.Io

/-!
# The read side of a stream

`bc_io_stream_read_chunk` with its two back ends.  A chunk is a pointer and a
size: the bytes of an owned chunk are the front of the stream's buffer, those
of a borrowed one lie in the caller's memory.
-/

namespace BcIo.Stream

open BcIo.Foundation
open BcIo.Foundation.MachineWord

/-- Where the bytes of a chunk are. -/
inductive ChunkData where
  | streamBuffer
  | memory (address : Address)
  deriving DecidableEq, Repr

/-- `bc_io_stream_chunk_t`. -/
structure Chunk where
  data : ChunkData
  size : Nat
  owned : Bool
  deriving DecidableEq, Repr

/-- The bytes a caller finds behind a chunk. -/
def Chunk.bytes (chunk : Chunk) (stream : Stream)
    (memory : Address → Byte) : List Byte :=
  match chunk.data with
  | .streamBuffer => stream.buffer.take chunk.size
  | .memory address =>
      (List.range chunk.size).map fun index => memory (address + index)

/-- What `bc_io_stream_read_chunk` returns: a chunk on `true`, none on `false`. -/
structure ReadChunkResult (State Choice : Type) where
  chunk : Option Chunk
  stream : Stream
  side : ReadSide State Choice

variable {State Choice : Type}

/-- The accounting of a delivered chunk that both back ends share. -/
def creditRead (stream : Stream) (size : Nat) : Stream :=
  { stream with
    stats :=
      { stream.stats with
        bytesRead := sizeAdd stream.stats.bytesRead size
        readCount := sizeAdd stream.stats.readCount 1 }
    logicalPosition := sizeAdd stream.logicalPosition size }

/-- `stream->stats.short_read_count++`. -/
def countShortRead (stream : Stream) : Stream :=
  { stream with
    stats :=
      { stream.stats with
        shortReadCount := sizeAdd stream.stats.shortReadCount 1 } }

/-- What `bc_io_stream_read_chunk_file` does once its read loop has ended. -/
def settleRead (stream : Stream) (full : ReadFullResult State Choice) :
    ReadChunkResult State Choice :=
  let bytesRead := full.bytes.length
  if full.succeeded = false then
    ⟨none, stream, full.side⟩
  else if bytesRead = 0 ∧ full.endOfFile = true then
    ⟨none, { stream with endOfStream := true }, full.side⟩
  else
    let stream := stream.creditRead bytesRead
    let stream :=
      if bytesRead < stream.bufferSize then stream.countShortRead else stream
    let stream :=
      if full.endOfFile = true then { stream with endOfStream := true }
      else stream
    ⟨some ⟨.streamBuffer, bytesRead, true⟩, stream, full.side⟩

/-- `bc_io_stream_read_chunk_file`. -/
def readChunkFile (device : ReadDevice State Choice) (stream : Stream)
    (side : ReadSide State Choice) :
    Except Halt (ReadChunkResult State Choice) := do
  let full ← Io.readFull device stream.bufferSize side
  let buffer ← copyBytes stream.buffer 0 full.bytes
  return settleRead { stream with buffer := buffer } full

/-- `bc_io_stream_read_chunk_memory`. -/
def readChunkMemory (stream : Stream) : Option Chunk × Stream :=
  if stream.memorySize ≤ stream.memoryPosition then
    (none, { stream with endOfStream := true })
  else
    let remaining := sizeSub stream.memorySize stream.memoryPosition
    let chunkSize :=
      if remaining < stream.bufferSize then remaining else stream.bufferSize
    let address := stream.memoryData.getD 0 + stream.memoryPosition
    let stream :=
      { stream with
        memoryPosition := sizeAdd stream.memoryPosition chunkSize }
    (some ⟨.memory address, chunkSize, false⟩, stream.creditRead chunkSize)

/-- `bc_io_stream_read_chunk`. -/
def readChunk (device : ReadDevice State Choice) (stream : Stream)
    (side : ReadSide State Choice) :
    Except Halt (ReadChunkResult State Choice) :=
  if stream.endOfStream = true then
    .ok ⟨none, stream, side⟩
  else if stream.mode ≠ .read then
    .ok ⟨none, stream, side⟩
  else if stream.sourceType = .memory then
    let (chunk, stream) := stream.readChunkMemory
    .ok ⟨chunk, stream, side⟩
  else
    stream.readChunkFile device side

/-! ## Streams on a descriptor -/

/-- A stream that reads from a descriptor into a buffer of its own. -/
structure ReadsDescriptor (stream : Stream) : Prop where
  mode : stream.mode = .read
  fdBacked : stream.sourceType ≠ .memory
  sized : stream.buffer.length = stream.bufferSize

/--
A returned `bc_io_stream_read_chunk_file` is its read loop followed by
`settleRead`, with the transferred bytes at the front of the buffer.
-/
theorem readChunkFile_delivers (device : ReadDevice State Choice)
    {stream : Stream} (reads : ReadsDescriptor stream)
    (side : ReadSide State Choice) :
    Delivers
      (fun result =>
        ∃ full buffer,
          Io.readFull device stream.bufferSize side = .ok full ∧
          Io.ReadFullSpec stream.bufferSize side.transferred full ∧
          buffer.length = stream.buffer.length ∧
          buffer.take full.bytes.length = full.bytes ∧
          result = settleRead { stream with buffer := buffer } full)
      (stream.readChunkFile device side) := by
  have delivers := Io.readFull_delivers device stream.bufferSize side
  unfold readChunkFile
  cases answer : Io.readFull device stream.bufferSize side with
  | error halt =>
      rw [answer] at delivers
      cases halt with
      | waiting => trivial
      | overrun => exact delivers
  | ok full =>
      have spec := delivers.of_returned answer
      have inside : 0 + full.bytes.length ≤ stream.buffer.length := by
        rw [Nat.zero_add, reads.sized]
        exact spec.bounded
      refine (copyBytes_delivers inside).bind ?_
      rintro buffer ⟨sized, front⟩
      refine ⟨full, buffer, rfl, spec, sized, ?_, rfl⟩
      simpa using front

/-- What settling changes, field by field, as far as the runs below need it. -/
structure Settled (stream : Stream) (full : ReadFullResult State Choice)
    (result : ReadChunkResult State Choice) : Prop where
  side : result.side = full.side
  reads : ReadsDescriptor result.stream
  bufferSize : result.stream.bufferSize = stream.bufferSize
  latched :
    result.stream.endOfStream =
      (stream.endOfStream || (full.succeeded && full.endOfFile))
  /-- The chunk holds the bytes of this call, unless the call failed. -/
  handed :
    ∀ memory,
      (result.chunk.map fun chunk =>
          chunk.bytes result.stream memory).getD [] =
        if full.succeeded then full.bytes else []

theorem settleRead_settled {stream : Stream} (reads : ReadsDescriptor stream)
    (full : ReadFullResult State Choice)
    (front : stream.buffer.take full.bytes.length = full.bytes) :
    Settled stream full (settleRead stream full) := by
  unfold settleRead
  dsimp only
  split
  · rename_i failed
    exact ⟨rfl, reads, rfl, by simp [failed], by simp [failed]⟩
  · rename_i succeeded
    split
    · rename_i empty
      rcases empty with ⟨nothing, endOfFile⟩
      have noBytes : full.bytes = [] := List.length_eq_zero_iff.mp nothing
      refine ⟨rfl, ⟨reads.mode, reads.fdBacked, reads.sized⟩, rfl, ?_, ?_⟩
      · simp [succeeded, endOfFile]
      · simp [noBytes]
    · have ok : full.succeeded = true := by simpa using succeeded
      refine ⟨rfl, ?_, ?_, ?_, ?_⟩
      · split <;> split <;>
          exact ⟨reads.mode, reads.fdBacked, reads.sized⟩
      · split <;> split <;> rfl
      · by_cases endOfFile : full.endOfFile = true
        · simp [ok, endOfFile]
        · simp only [endOfFile, if_false, Bool.false_eq_true]
          split <;> simp [ok, creditRead, countShortRead]
      · intro memory
        simp only [Option.map_some, Option.getD_some, Chunk.bytes, ok,
          if_true]
        split <;> split <;> exact front

/-! ## Streams over memory -/

theorem readChunk_eq_memory (device : ReadDevice State Choice)
    {stream : Stream} (mode : stream.mode = .read)
    (source : stream.sourceType = .memory)
    (notEnded : stream.endOfStream = false)
    (side : ReadSide State Choice) :
    stream.readChunk device side =
      .ok ⟨stream.readChunkMemory.1, stream.readChunkMemory.2, side⟩ := by
  simp [readChunk, notEnded, mode, source]

theorem readChunkMemory_at_end {stream : Stream}
    (atEnd : stream.memorySize ≤ stream.memoryPosition) :
    stream.readChunkMemory = (none, { stream with endOfStream := true }) :=
  if_pos atEnd

/-- The size of the chunk that `bc_io_stream_read_chunk_memory` hands out. -/
def memoryChunkSize (stream : Stream) : Nat :=
  let remaining := sizeSub stream.memorySize stream.memoryPosition
  if remaining < stream.bufferSize then remaining else stream.bufferSize

theorem readChunkMemory_before_end {stream : Stream}
    (before : ¬ stream.memorySize ≤ stream.memoryPosition) :
    stream.readChunkMemory =
      (some
          ⟨.memory (stream.memoryData.getD 0 + stream.memoryPosition),
            memoryChunkSize stream, false⟩,
        Stream.creditRead
          { stream with
            memoryPosition :=
              sizeAdd stream.memoryPosition (memoryChunkSize stream) }
          (memoryChunkSize stream)) :=
  if_neg before

/-! ## Runs of read calls -/

/-- The calls of a run, and the state they leave behind. -/
structure ReadRun (State Choice : Type) where
  /-- For each call, the bytes of its chunk, or none if it returned `false`. -/
  results : List (Option (List Byte))
  stream : Stream
  side : ReadSide State Choice

/-- The concatenation of the chunks that were handed out. -/
def ReadRun.handed (run : ReadRun State Choice) : List Byte :=
  run.results.flatMap fun result => result.getD []

/-- Make `calls` calls of `bc_io_stream_read_chunk`, whatever they return. -/
def runReads (device : ReadDevice State Choice) (memory : Address → Byte) :
    Nat → Stream → ReadSide State Choice →
      Except Halt (ReadRun State Choice)
  | 0, stream, side => .ok ⟨[], stream, side⟩
  | calls + 1, stream, side => do
      let first ← stream.readChunk device side
      let later ← runReads device memory calls first.stream first.side
      let bytes := first.chunk.map fun chunk =>
        chunk.bytes first.stream memory
      return ⟨bytes :: later.results, later.stream, later.side⟩

/-- At the end of the stream every further call returns `false` and does nothing. -/
theorem runReads_of_endOfStream (device : ReadDevice State Choice)
    (memory : Address → Byte) (calls : Nat) {stream : Stream}
    (ended : stream.endOfStream = true) (side : ReadSide State Choice) :
    runReads device memory calls stream side =
      .ok ⟨List.replicate calls none, stream, side⟩ := by
  induction calls with
  | zero => rfl
  | succ calls induction =>
      have first :
          stream.readChunk device side = .ok ⟨none, stream, side⟩ := by
        simp [readChunk, ended]
      simp only [runReads, first]
      change (runReads device memory calls stream side >>= _) = _
      rw [induction]
      rfl

/-! ## What reading never touches -/

/-- The stream that one call leaves behind. -/
theorem readChunk_leaves (device : ReadDevice State Choice)
    {stream : Stream} {side : ReadSide State Choice}
    {result : ReadChunkResult State Choice}
    (returned : stream.readChunk device side = .ok result) :
    result.stream = stream ∨ result.stream = stream.readChunkMemory.2 ∨
      ∃ (buffer : List Byte) (full : ReadFullResult State Choice),
        result.stream =
          (settleRead { stream with buffer := buffer } full).stream := by
  unfold readChunk at returned
  split at returned
  · cases returned
    exact Or.inl rfl
  split at returned
  · cases returned
    exact Or.inl rfl
  split at returned
  · cases returned
    exact Or.inr (Or.inl rfl)
  · rcases returned_bind returned with ⟨full, _, returned⟩
    rcases returned_bind returned with ⟨buffer, _, returned⟩
    cases returned
    exact Or.inr (Or.inr ⟨buffer, full, rfl⟩)

/-- What every call keeps, a run keeps. -/
theorem runReads_related {device : ReadDevice State Choice}
    {Related : Stream → Stream → Prop}
    (refl : ∀ stream, Related stream stream)
    (trans : ∀ {first second third}, Related first second →
      Related second third → Related first third)
    (step : ∀ {stream side result},
      stream.readChunk device side = .ok result →
        Related stream result.stream)
    (memory : Address → Byte) (calls : Nat) {stream : Stream}
    {side : ReadSide State Choice} {run : ReadRun State Choice}
    (returned : runReads device memory calls stream side = .ok run) :
    Related stream run.stream := by
  induction calls generalizing stream side run with
  | zero =>
      cases returned
      exact refl stream
  | succ calls induction =>
      rcases returned_bind returned with ⟨first, firstReturned, returned⟩
      rcases returned_bind returned with ⟨later, laterReturned, returned⟩
      have inner := induction laterReturned
      cases returned
      exact trans (step firstReturned) inner

/-- The fields that say what a stream holds and has to release. -/
structure SameHoldings (before after : Stream) : Prop where
  bufferArena : after.bufferArena = before.bufferArena
  bufferUsed : after.bufferUsed = before.bufferUsed
  fileDescriptor : after.fileDescriptor = before.fileDescriptor
  ownsFileDescriptor : after.ownsFileDescriptor = before.ownsFileDescriptor

namespace SameHoldings

theorem refl (stream : Stream) : SameHoldings stream stream :=
  ⟨rfl, rfl, rfl, rfl⟩

theorem trans {first second third : Stream}
    (left : SameHoldings first second) (right : SameHoldings second third) :
    SameHoldings first third :=
  ⟨right.bufferArena.trans left.bufferArena,
    right.bufferUsed.trans left.bufferUsed,
    right.fileDescriptor.trans left.fileDescriptor,
    right.ownsFileDescriptor.trans left.ownsFileDescriptor⟩

end SameHoldings

theorem settleRead_sameHoldings (stream : Stream)
    (full : ReadFullResult State Choice) :
    SameHoldings stream (settleRead stream full).stream := by
  unfold settleRead
  dsimp only
  split
  · exact .refl stream
  · split
    · exact ⟨rfl, rfl, rfl, rfl⟩
    · split <;> split <;> exact ⟨rfl, rfl, rfl, rfl⟩

theorem readChunkMemory_sameHoldings (stream : Stream) :
    SameHoldings stream stream.readChunkMemory.2 := by
  unfold readChunkMemory
  split <;> exact ⟨rfl, rfl, rfl, rfl⟩

theorem readChunk_sameHoldings (device : ReadDevice State Choice)
    {stream : Stream} {side : ReadSide State Choice}
    {result : ReadChunkResult State Choice}
    (returned : stream.readChunk device side = .ok result) :
    SameHoldings stream result.stream := by
  rcases readChunk_leaves device returned with
    same | overMemory | ⟨buffer, full, settled⟩
  · rw [same]
    exact .refl stream
  · rw [overMemory]
    exact readChunkMemory_sameHoldings stream
  · have rebuffered :
        SameHoldings stream { stream with buffer := buffer } :=
      ⟨rfl, rfl, rfl, rfl⟩
    rw [settled]
    exact rebuffered.trans (settleRead_sameHoldings _ full)

theorem runReads_sameHoldings (device : ReadDevice State Choice)
    (memory : Address → Byte) (calls : Nat) {stream : Stream}
    {side : ReadSide State Choice} {run : ReadRun State Choice}
    (returned : runReads device memory calls stream side = .ok run) :
    SameHoldings stream run.stream :=
  runReads_related SameHoldings.refl SameHoldings.trans
    (readChunk_sameHoldings device) memory calls returned

/-! ## The bytes a failed call drops -/

/--
The outcomes a run of `calls` calls consumes contain no hard error that arrives
while the buffer of `capacity` bytes is partly filled; `filled` is the number
of bytes the current call has already received.
-/
def SparesPartialFills (capacity : Nat) :
    Nat → Nat → List ReadOutcome → Prop
  | 0, _, _ => True
  | _ + 1, _, [] => True
  | calls + 1, filled, .transferred bytes :: rest =>
      -- an empty transfer is the end of the input, after which no call reads
      if bytes = [] then True
      else
        let total := filled + min (capacity - filled) bytes.length
        if total < capacity then
          SparesPartialFills capacity (calls + 1) total rest
        else
          SparesPartialFills capacity calls 0 rest
  | calls + 1, filled, .failed errno :: rest =>
      if errno = Errno.eintr then
        SparesPartialFills capacity (calls + 1) filled rest
      else if errno = Errno.eagain then
        SparesPartialFills capacity calls 0 rest
      else
        filled = 0 ∧ SparesPartialFills capacity calls 0 rest

/--
Reading the condition along the loop of one call: the call itself drops
nothing, and the outcomes it leaves behind meet the condition for the calls
that follow.
-/
theorem sparesPartialFills_readLoop {capacity : Nat} (calls : Nat)
    (choices : List ReadOutcome) (transferred bytes : List Byte)
    (unfinished : bytes.length < capacity)
    {full : ReadFullResult Unit ReadOutcome}
    (returned :
      Io.readLoop scriptedDevice capacity choices () transferred bytes =
        .ok full) :
    SparesPartialFills capacity (calls + 1) bytes.length choices ↔
      (full.succeeded = false → full.bytes = []) ∧
        (full.endOfFile = false →
          SparesPartialFills capacity calls 0 full.side.choices) := by
  induction choices generalizing transferred bytes with
  | nil => simp [Io.readLoop, unfinished] at returned
  | cons outcome rest induction =>
      rcases Io.readLoop_turn unfinished returned with
        ⟨rfl, rfl⟩ | ⟨received, rfl, nonempty, later⟩ |
        ⟨rfl, later⟩ | ⟨rfl, rfl⟩ |
        ⟨errno, rfl, notInterrupted, hard, rfl⟩
      · simp [SparesPartialFills]
      · have total :
            (bytes ++ received.take (capacity - bytes.length)).length =
              bytes.length +
                min (capacity - bytes.length) received.length := by
          rw [List.length_append, List.length_take]
        simp only [SparesPartialFills, if_neg nonempty]
        split
        · rename_i room
          rw [← total] at room ⊢
          exact induction _ _ room later
        · rename_i filled
          rw [Io.readLoop_of_full _ _ _ _ (by omega),
            Except.ok.injEq] at later
          subst later
          simp
      · exact induction _ _ unfinished later
      · simp [SparesPartialFills, Errno.eagain, Errno.eintr]
      · simp [SparesPartialFills, notInterrupted, hard]

/-! ## What a run hands out -/

/-- On an open descriptor stream `bc_io_stream_read_chunk` reads the descriptor. -/
theorem readChunk_eq_file (device : ReadDevice State Choice)
    {stream : Stream} (reads : ReadsDescriptor stream)
    (notEnded : stream.endOfStream = false)
    (side : ReadSide State Choice) :
    stream.readChunk device side = stream.readChunkFile device side := by
  simp [readChunk, notEnded, reads.mode, reads.fdBacked]

/-- One call on an open descriptor stream, as the run sees it. -/
theorem readChunk_settled (device : ReadDevice State Choice)
    {stream : Stream} (reads : ReadsDescriptor stream)
    (notEnded : stream.endOfStream = false)
    (side : ReadSide State Choice) {result : ReadChunkResult State Choice}
    (returned : stream.readChunk device side = .ok result) :
    ∃ full,
      Io.readFull device stream.bufferSize side = .ok full ∧
      Io.ReadFullSpec stream.bufferSize side.transferred full ∧
      Settled stream full result := by
  rw [readChunk_eq_file device reads notEnded] at returned
  rcases (readChunkFile_delivers device reads side).of_returned returned with
    ⟨full, buffer, answer, spec, sized, front, rfl⟩
  have rebuffered : ReadsDescriptor { stream with buffer := buffer } :=
    ⟨reads.mode, reads.fdBacked, sized.trans reads.sized⟩
  have settled := settleRead_settled rebuffered full front
  exact ⟨full, answer, spec, settled.side, settled.reads,
    settled.bufferSize, settled.latched, settled.handed⟩

/-- Two pieces that are each no longer than their targets match together. -/
theorem append_eq_append_iff_of_le {α : Type} {first second : List α}
    {firstTarget secondTarget : List α}
    (firstLe : first.length ≤ firstTarget.length)
    (secondLe : second.length ≤ secondTarget.length) :
    first ++ second = firstTarget ++ secondTarget ↔
      first = firstTarget ∧ second = secondTarget := by
  constructor
  · intro equal
    have lengths := congrArg List.length equal
    simp only [List.length_append] at lengths
    exact List.append_inj equal (by omega)
  · rintro ⟨rfl, rfl⟩
    rfl

/--
A run on a descriptor hands out no more than it received, and all of it
exactly when no partial fill was dropped.
-/
theorem runReads_handed {stream : Stream} (reads : ReadsDescriptor stream)
    (positive : 0 < stream.bufferSize)
    (notEnded : stream.endOfStream = false) (memory : Address → Byte)
    (calls : Nat) (side : ReadSide Unit ReadOutcome)
    {run : ReadRun Unit ReadOutcome}
    (returned : runReads scriptedDevice memory calls stream side = .ok run) :
    ∃ received, run.side.transferred = side.transferred ++ received ∧
      run.handed.length ≤ received.length ∧
      (run.handed = received ↔
        SparesPartialFills stream.bufferSize calls 0 side.choices) := by
  induction calls generalizing stream side run with
  | zero =>
      cases returned
      exact ⟨[], by simp, by simp [ReadRun.handed],
        by simp [ReadRun.handed, SparesPartialFills]⟩
  | succ calls induction =>
      rcases returned_bind returned with ⟨first, firstReturned, returned⟩
      rcases returned_bind returned with ⟨later, laterReturned, returned⟩
      cases returned
      rcases readChunk_settled scriptedDevice reads notEnded side
          firstReturned with ⟨full, answer, spec, settled⟩
      have condition :=
        sparesPartialFills_readLoop calls side.choices side.transferred []
          positive answer
      have firstLe :
          (if full.succeeded then full.bytes else []).length ≤
            full.bytes.length := by
        split <;> simp
      -- the calls after this one, whether or not the end was reached
      have rest :
          ∃ received,
            later.side.transferred = full.side.transferred ++ received ∧
            later.handed.length ≤ received.length ∧
            (later.handed = received ↔
              (full.endOfFile = false →
                SparesPartialFills stream.bufferSize calls 0
                  full.side.choices)) := by
        by_cases ended : full.endOfFile = true
        · have latched : first.stream.endOfStream = true := by
            simp [settled.latched, ended, spec.ended ended]
          rw [runReads_of_endOfStream _ _ _ latched,
            Except.ok.injEq] at laterReturned
          subst laterReturned
          exact ⟨[], by simp [settled.side], by simp [ReadRun.handed],
            by simp [ReadRun.handed, ended]⟩
        · have open_ : first.stream.endOfStream = false := by
            simp [settled.latched, notEnded, ended]
          have inner :=
            induction settled.reads
              (by rw [settled.bufferSize]; exact positive)
              open_ first.side laterReturned
          rw [settled.side, settled.bufferSize] at inner
          simpa [ended] using inner
      rcases rest with ⟨received, transferred, laterLe, laterIff⟩
      refine ⟨full.bytes ++ received, ?_, ?_, ?_⟩
      · simp only [transferred, spec.transferred, List.append_assoc]
      · simp only [ReadRun.handed, List.flatMap_cons, settled.handed,
          List.length_append] at laterLe ⊢
        omega
      · have split :
            ReadRun.handed
                ⟨(first.chunk.map fun chunk =>
                    chunk.bytes first.stream memory) :: later.results,
                  later.stream, later.side⟩ =
              (if full.succeeded then full.bytes else []) ++
                later.handed := by
          simp only [ReadRun.handed, List.flatMap_cons, settled.handed]
        rw [split, append_eq_append_iff_of_le firstLe laterLe, laterIff]
        refine Iff.trans ?_ condition.symm
        by_cases succeeded : full.succeeded = true <;>
          simp [succeeded]

/-- Nothing but the read loop makes a call on a descriptor wait. -/
theorem readChunkFile_returns (device : ReadDevice State Choice)
    {stream : Stream}
    (reads : ReadsDescriptor stream) {side : ReadSide State Choice}
    {full : ReadFullResult State Choice}
    (answer : Io.readFull device stream.bufferSize side = .ok full) :
    ∃ result, stream.readChunkFile device side = .ok result := by
  have spec := (Io.readFull_delivers device _ side).of_returned answer
  have inside : 0 + full.bytes.length ≤ stream.buffer.length := by
    rw [Nat.zero_add, reads.sized]
    exact spec.bounded
  have tail :
      stream.readChunkFile device side =
        copyBytes stream.buffer 0 full.bytes >>= fun buffer =>
          .ok (settleRead { stream with buffer := buffer } full) := by
    simp only [readChunkFile, answer]
    rfl
  rw [tail, copyBytes, CellRegion.store_of_le inside]
  exact ⟨_, rfl⟩

/-- A stream without a buffer neither receives nor hands out anything. -/
theorem runReads_of_no_buffer (device : ReadDevice State Choice)
    (memory : Address → Byte) (calls : Nat) {stream : Stream}
    (reads : ReadsDescriptor stream) (empty : stream.bufferSize = 0)
    (notEnded : stream.endOfStream = false)
    (side : ReadSide State Choice) :
    ∃ run, runReads device memory calls stream side = .ok run ∧
      run.handed = [] ∧ run.side = side ∧
      run.stream.endOfStream = false ∧ ReadsDescriptor run.stream ∧
      run.stream.bufferSize = 0 := by
  induction calls generalizing stream with
  | zero => exact ⟨_, rfl, rfl, rfl, notEnded, reads, empty⟩
  | succ calls induction =>
      have answer :
          Io.readFull device stream.bufferSize side =
            .ok ⟨true, [], false, side⟩ := by
        rw [empty]
        exact Io.readLoop_of_full _ _ _ _ (Nat.zero_le _)
      rcases readChunkFile_returns device reads answer with
        ⟨first, firstReturned⟩
      rw [← readChunk_eq_file device reads notEnded] at firstReturned
      rcases readChunk_settled device reads notEnded side firstReturned with
        ⟨full, sameAnswer, _, settled⟩
      cases answer.symm.trans sameAnswer
      rcases induction settled.reads (settled.bufferSize.trans empty)
          (by simp [settled.latched, notEnded]) with
        ⟨later, laterReturned, handed, laterSide, open_, laterReads,
          laterEmpty⟩
      refine ⟨⟨(first.chunk.map fun chunk =>
          chunk.bytes first.stream memory) :: later.results, later.stream,
        later.side⟩, ?_, ?_, laterSide, open_, laterReads, laterEmpty⟩
      · rw [runReads, firstReturned]
        change (runReads device memory calls _ first.side >>= _) = _
        rw [settled.side, laterReturned]
        rfl
      · simp only [ReadRun.handed, List.flatMap_cons, settled.handed,
          if_true, List.nil_append] at handed ⊢
        exact handed

/--
The chunks handed out by a run are all the bytes `read(2)` transferred exactly
when no hard error arrives while a call has part of its buffer filled: such an
error makes `bc_io_stream_read_chunk_file` return without the bytes that
`bc_io_stream_io_read_full` has already received.
-/
theorem readRun_keeps_bytes_iff (stream : Stream)
    (reads : ReadsDescriptor stream) (memory : Address → Byte)
    (calls : Nat) (outcomes : List ReadOutcome)
    (run : ReadRun Unit ReadOutcome)
    (returned :
      runReads scriptedDevice memory calls stream ⟨(), [], outcomes⟩ =
        .ok run) :
    run.handed = run.side.transferred ↔
      (stream.endOfStream = false → 0 < stream.bufferSize →
        SparesPartialFills stream.bufferSize calls 0 outcomes) := by
  by_cases ended : stream.endOfStream = true
  · rw [runReads_of_endOfStream _ _ _ ended, Except.ok.injEq] at returned
    subst returned
    simp [ReadRun.handed, ended]
  · have notEnded : stream.endOfStream = false := by simpa using ended
    by_cases positive : 0 < stream.bufferSize
    · rcases runReads_handed reads positive notEnded memory calls _ returned
        with ⟨received, transferred, _, keeps⟩
      have all : run.side.transferred = received := by
        simpa using transferred
      rw [all, keeps]
      simp [notEnded, positive]
    · have empty : stream.bufferSize = 0 := Nat.eq_zero_of_not_pos positive
      rcases runReads_of_no_buffer scriptedDevice memory calls reads empty
          notEnded ⟨(), [], outcomes⟩ with
        ⟨same, sameReturned, handed, side, _⟩
      cases returned.symm.trans sameReturned
      simp [handed, side, empty]

/-- A stream as `bc_io_stream_open_file_descriptor` leaves it on a pipe. -/
def openedPipe : Stream :=
  initCommonFields (some 0) [0, 0, 0, 0] 4 .pipe .read 3 false

/-- Short reads, retries, an error between chunks and the end drop nothing. -/
theorem readRun_keeps_bytes_iff_short_reads :
    ∃ run,
      runReads scriptedDevice (fun _ => 0) 3 openedPipe
          ⟨(), [], [.transferred [1, 2], .failed Errno.eintr,
            .transferred [3, 4, 5], .failed Errno.eio, .transferred [6],
            .transferred []]⟩ = .ok run ∧
        run.handed = run.side.transferred := by
  have ran :
      ∃ run,
        runReads scriptedDevice (fun _ => 0) 3 openedPipe
          ⟨(), [], [.transferred [1, 2], .failed Errno.eintr,
            .transferred [3, 4, 5], .failed Errno.eio, .transferred [6],
            .transferred []]⟩ = .ok run :=
    ⟨_, rfl⟩
  rcases ran with ⟨run, returned⟩
  refine ⟨run, returned, ?_⟩
  refine
    (readRun_keeps_bytes_iff openedPipe ⟨rfl, by decide, rfl⟩ _ _ _ run
      returned).mpr ?_
  intro _ _
  simp [openedPipe, initCommonFields, SparesPartialFills, Errno.eintr,
    Errno.eio, Errno.eagain]

/-- Two bytes arrive, then the device fails: the bytes are gone. -/
theorem readRun_drops_partial_fill :
    ¬ ∀ (calls : Nat) (outcomes : List ReadOutcome)
        (run : ReadRun Unit ReadOutcome),
      runReads scriptedDevice (fun _ => 0) calls openedPipe
          ⟨(), [], outcomes⟩ = .ok run →
        run.handed = run.side.transferred := by
  intro keeps
  have lost :=
    keeps 1 [.transferred [1, 2], .failed Errno.eio] _ rfl
  exact absurd lost (by decide)

end BcIo.Stream
