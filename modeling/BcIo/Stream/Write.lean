import BcIo.Stream.Io

/-!
# The write side of a stream

`bc_io_stream_flush` and `bc_io_stream_write_chunk`, and the conservation law
that ties them together: whatever the kernel answers, the bytes it has taken
followed by the bytes still buffered are exactly the bytes the callers were
told had been written.
-/

namespace BcIo.Stream

open BcIo.Foundation
open BcIo.Foundation.MachineWord

/-- What `bc_io_stream_flush` returns and leaves behind. -/
structure FlushResult where
  succeeded : Bool
  stream : Stream
  side : WriteSide
  deriving DecidableEq, Repr

/-- `stream->stats.short_write_count++`. -/
def countShortWrite (stream : Stream) : Stream :=
  { stream with
    stats :=
      { stream.stats with
        shortWriteCount := sizeAdd stream.stats.shortWriteCount 1 } }

/-- `bc_io_stream_flush`. -/
def flush (stream : Stream) (side : WriteSide) :
    Except Halt FlushResult :=
  if stream.bufferUsed = 0 then
    .ok ⟨true, stream, side⟩
  else do
    let originalUsed := stream.bufferUsed
    let pending ← loadBytes stream.buffer 0 originalUsed
    let written ← Io.writeFull pending side
    let bytesWritten := written.bytesWritten
    let remaining := sizeSub originalUsed bytesWritten
    let moved ← loadBytes stream.buffer bytesWritten remaining
    let buffer ← copyBytes stream.buffer 0 moved
    let stream := { stream with buffer := buffer, bufferUsed := remaining }
    if bytesWritten < originalUsed then
      return ⟨false, stream.countShortWrite, written.side⟩
    else
      return ⟨written.succeeded, stream, written.side⟩

/-- What `bc_io_stream_write_chunk` returns and leaves behind. -/
structure WriteChunkResult where
  succeeded : Bool
  bytesWritten : Nat
  stream : Stream
  side : WriteSide
  deriving DecidableEq, Repr

/-- The accounting that every completed or partial write does. -/
def creditWritten (stream : Stream) (size : Nat) : Stream :=
  { stream with
    stats :=
      { stream.stats with
        bytesWritten := sizeAdd stream.stats.bytesWritten size
        writeCount := sizeAdd stream.stats.writeCount 1 }
    logicalPosition := sizeAdd stream.logicalPosition size }

/-- The flush that `bc_io_stream_write_chunk` makes when `data` does not fit. -/
def flushBeforeWrite (stream : Stream) (side : WriteSide) :
    Except Halt FlushResult :=
  if 0 < stream.bufferUsed then flush stream side
  else .ok ⟨true, stream, side⟩

/-- `bc_io_stream_write_chunk` on the `size` bytes of `data`. -/
def writeChunk (stream : Stream) (data : List Byte) (side : WriteSide) :
    Except Halt WriteChunkResult := do
  let size := data.length
  if stream.mode ≠ .write then
    return ⟨false, 0, stream, side⟩
  if stream.sourceType = .memory then
    return ⟨false, 0, stream, side⟩
  if size = 0 then
    return ⟨true, 0, stream, side⟩
  let remainingBuffer := sizeSub stream.bufferSize stream.bufferUsed
  if size ≤ remainingBuffer then
    let buffer ← copyBytes stream.buffer stream.bufferUsed data
    let stream :=
      { stream with
        buffer := buffer, bufferUsed := sizeAdd stream.bufferUsed size }
    return ⟨true, size, stream.creditWritten size, side⟩
  let flushed ← flushBeforeWrite stream side
  if flushed.succeeded = false then
    return ⟨false, 0, flushed.stream, flushed.side⟩
  let stream := flushed.stream
  if stream.bufferSize ≤ size then
    let written ← Io.writeFull data flushed.side
    let stream := stream.creditWritten written.bytesWritten
    let stream :=
      if written.bytesWritten < size then stream.countShortWrite else stream
    return ⟨written.succeeded, written.bytesWritten, stream, written.side⟩
  let buffer ← copyBytes stream.buffer 0 data
  let stream := { stream with buffer := buffer, bufferUsed := size }
  return ⟨true, size, stream.creditWritten size, flushed.side⟩

/-! ## What a flush and a write do -/

/-- A stream that writes to a descriptor through a buffer of its own. -/
structure WritesDescriptor (stream : Stream) : Prop where
  mode : stream.mode = .write
  fdBacked : stream.sourceType ≠ .memory
  fits : stream.bufferSize < sizeLimit
  sized : stream.buffer.length = stream.bufferSize
  used : stream.bufferUsed ≤ stream.bufferSize

namespace WritesDescriptor

variable {stream : Stream}

theorem usedInside (writes : WritesDescriptor stream) :
    stream.bufferUsed ≤ stream.buffer.length := by
  rw [writes.sized]
  exact writes.used

/-- The space left in the buffer is the true difference of the two fields. -/
theorem remaining_eq (writes : WritesDescriptor stream) :
    sizeSub stream.bufferSize stream.bufferUsed =
      stream.bufferSize - stream.bufferUsed :=
  wordSub_of_le writes.used writes.fits

/-- Accounting touches none of the fields that make a stream writable. -/
theorem credit (writes : WritesDescriptor stream) (size : Nat) :
    WritesDescriptor (stream.creditWritten size) :=
  ⟨writes.mode, writes.fdBacked, writes.fits, writes.sized, writes.used⟩

theorem short (writes : WritesDescriptor stream) :
    WritesDescriptor stream.countShortWrite :=
  ⟨writes.mode, writes.fdBacked, writes.fits, writes.sized, writes.used⟩

theorem rebuffer (writes : WritesDescriptor stream) {buffer : List Byte}
    {used : Nat} (sized : buffer.length = stream.buffer.length)
    (usedLe : used ≤ stream.bufferSize) :
    WritesDescriptor
      { stream with buffer := buffer, bufferUsed := used } :=
  ⟨writes.mode, writes.fdBacked, writes.fits, sized.trans writes.sized,
    usedLe⟩

end WritesDescriptor

/--
What a returned `bc_io_stream_flush` has done, when the kernel took `sent` of
the buffered bytes: they are gone from the buffer, the others have moved to
its front, and a shortfall is counted and reported.
-/
structure Flushed (stream : Stream) (side : WriteSide) (sent : Nat)
    (buffer : List Byte) (result : FlushResult) : Prop where
  bounded : sent ≤ stream.bufferUsed
  sized : buffer.length = stream.buffer.length
  front :
    buffer.take (stream.bufferUsed - sent) =
      (stream.buffer.drop sent).take (stream.bufferUsed - sent)
  accepted :
    result.side.accepted =
      side.accepted ++ (stream.buffer.take stream.bufferUsed).take sent
  succeeded : result.succeeded = true ↔ sent = stream.bufferUsed
  leaves :
    result.stream =
      if sent < stream.bufferUsed then
        countShortWrite
          { stream with
            buffer := buffer, bufferUsed := stream.bufferUsed - sent }
      else
        { stream with
          buffer := buffer, bufferUsed := stream.bufferUsed - sent }
  whole :
    sent = stream.bufferUsed →
      Io.sends side.outcomes stream.bufferUsed = .whole result.side.outcomes
  short :
    sent < stream.bufferUsed →
      ∀ rest, Io.sends side.outcomes stream.bufferUsed ≠ .whole rest

/-- Nothing is buffered, and nothing is sent. -/
theorem Flushed.of_empty {stream : Stream} (empty : stream.bufferUsed = 0)
    (side : WriteSide) :
    Flushed stream side 0 stream.buffer ⟨true, stream, side⟩ := by
  refine ⟨Nat.zero_le _, rfl, by simp, by simp, by simp [empty], ?_, ?_, ?_⟩
  · rw [if_neg (by omega), Nat.sub_zero]
  · intro _
    rw [empty]
    cases side.outcomes <;> simp [Io.sends]
  · intro short
    omega

section Sent

variable {stream : Stream} {side : WriteSide} {buffer : List Byte}
  {written : WriteFullResult}
  (pendingLength :
    (stream.buffer.take stream.bufferUsed).length = stream.bufferUsed)
  (spec :
    Io.WriteFullSpec (stream.buffer.take stream.bufferUsed) side.accepted
      written)
  (ending :
    Io.sends side.outcomes stream.bufferUsed =
      if written.bytesWritten < stream.bufferUsed then
        if written.succeeded then .blocked else .broken
      else .whole written.side.outcomes)
  (sized : buffer.length = stream.buffer.length)
  (front :
    buffer.take (stream.bufferUsed - written.bytesWritten) =
      (stream.buffer.drop written.bytesWritten).take
        (stream.bufferUsed - written.bytesWritten))

include spec ending sized front

/-- Some of the buffered bytes are sent. -/
theorem Flushed.of_short (short : written.bytesWritten < stream.bufferUsed) :
    Flushed stream side written.bytesWritten buffer
      ⟨false,
        countShortWrite
          { stream with
            buffer := buffer
            bufferUsed := stream.bufferUsed - written.bytesWritten },
        written.side⟩ := by
  rw [if_pos short] at ending
  refine ⟨Nat.le_of_lt short, sized, front, spec.accepted, ?_,
    (if_pos short).symm, ?_, ?_⟩
  · simp only [Bool.false_eq_true, false_iff]
    exact Nat.ne_of_lt short
  · intro all
    exact absurd short (by omega)
  · intro _ rest whole
    rw [ending] at whole
    split at whole <;> cases whole

include pendingLength

/-- All of the buffered bytes are sent. -/
theorem Flushed.of_all (all : ¬ written.bytesWritten < stream.bufferUsed) :
    Flushed stream side written.bytesWritten buffer
      ⟨written.succeeded,
        { stream with
          buffer := buffer
          bufferUsed := stream.bufferUsed - written.bytesWritten },
        written.side⟩ := by
  rw [if_neg all] at ending
  have bounded := spec.bounded
  rw [pendingLength] at bounded
  have sent : written.bytesWritten = stream.bufferUsed := by
    omega
  -- only a hard error fails, and a hard error leaves bytes unsent
  have succeeded : written.succeeded = true := by
    by_contra failed
    have unsent := spec.failure (by simpa using failed)
    rw [pendingLength] at unsent
    exact all unsent
  refine ⟨bounded, sized, front, spec.accepted, ?_, (if_neg all).symm,
    fun _ => ending, ?_⟩
  · simp [succeeded, sent]
  · intro short
    exact absurd short all

end Sent

theorem flush_flushed {stream : Stream} (writes : WritesDescriptor stream)
    (side : WriteSide) :
    Delivers (fun result => ∃ sent buffer,
        Flushed stream side sent buffer result)
      (flush stream side) := by
  unfold flush
  split
  · rename_i empty
    exact ⟨0, stream.buffer, .of_empty empty side⟩
  · have usedInside := writes.usedInside
    refine (loadBytes_delivers (by omega)).bind ?_
    rintro pending rfl
    rw [List.drop_zero]
    have pendingLength :
        (stream.buffer.take stream.bufferUsed).length =
          stream.bufferUsed := by
      rw [List.length_take]
      omega
    -- the answer is named, for how its outcomes end is read off below
    cases answer :
        Io.writeFull (stream.buffer.take stream.bufferUsed) side with
    | error halt =>
        have delivers := Io.writeFull_delivers
          (stream.buffer.take stream.bufferUsed) side
        rw [answer] at delivers
        cases halt with
        | waiting => trivial
        | overrun => exact delivers
    | ok written =>
        have spec := (Io.writeFull_delivers _ side).of_returned answer
        have ending := Io.writeFull_sends _ side answer
        rw [pendingLength] at ending
        have bounded : written.bytesWritten ≤ stream.bufferUsed := by
          rw [← pendingLength]
          exact spec.bounded
        have remaining :
            sizeSub stream.bufferUsed written.bytesWritten =
              stream.bufferUsed - written.bytesWritten :=
          wordSub_of_le bounded
            (Nat.lt_of_le_of_lt writes.used writes.fits)
        change Delivers _
          (loadBytes stream.buffer written.bytesWritten
            (sizeSub stream.bufferUsed written.bytesWritten) >>= _)
        rw [remaining]
        refine (loadBytes_delivers (by omega)).bind ?_
        rintro moved rfl
        have movedLength :
            ((stream.buffer.drop written.bytesWritten).take
                (stream.bufferUsed - written.bytesWritten)).length =
              stream.bufferUsed - written.bytesWritten := by
          simp only [List.length_take, List.length_drop]
          omega
        refine (copyBytes_delivers (by rw [movedLength]; omega)).bind ?_
        intro buffer copied
        rw [movedLength] at copied
        simp only [Nat.zero_add, List.take_zero, List.nil_append] at copied
        dsimp only
        split
        · rename_i short
          exact ⟨_, buffer, .of_short spec ending copied.1 copied.2 short⟩
        · rename_i all
          exact ⟨_, buffer,
            .of_all pendingLength spec ending copied.1 copied.2 all⟩

namespace Flushed

variable {stream : Stream} {side : WriteSide} {sent : Nat}
  {buffer : List Byte} {result : FlushResult}

theorem bufferUsed_eq (flushed : Flushed stream side sent buffer result) :
    result.stream.bufferUsed = stream.bufferUsed - sent := by
  rw [flushed.leaves]
  split <;> rfl

/-- When all bytes are sent the buffer is empty. -/
theorem emptied
    (flushed : Flushed stream side stream.bufferUsed buffer result) :
    result.stream.bufferUsed = 0 := by
  rw [flushed.bufferUsed_eq, Nat.sub_self]

theorem bufferSize_eq (flushed : Flushed stream side sent buffer result) :
    result.stream.bufferSize = stream.bufferSize := by
  rw [flushed.leaves]
  split <;> rfl

theorem buffer_length_eq
    (flushed : Flushed stream side sent buffer result) :
    result.stream.buffer.length = stream.buffer.length := by
  rw [flushed.leaves]
  split <;> exact flushed.sized

theorem writes (flushed : Flushed stream side sent buffer result)
    (before : WritesDescriptor stream) : WritesDescriptor result.stream := by
  have kept :
      WritesDescriptor
        { stream with
          buffer := buffer, bufferUsed := stream.bufferUsed - sent } :=
    before.rebuffer flushed.sized
      (Nat.le_trans (Nat.sub_le _ _) before.used)
  rw [flushed.leaves]
  split
  · exact kept.short
  · exact kept

/-- The kernel's bytes followed by the buffered ones are as before. -/
theorem conserved (flushed : Flushed stream side sent buffer result) :
    result.side.accepted ++
        result.stream.buffer.take result.stream.bufferUsed =
      side.accepted ++ stream.buffer.take stream.bufferUsed := by
  have left : result.stream.buffer = buffer := by
    rw [flushed.leaves]
    split <;> rfl
  rw [left, flushed.bufferUsed_eq, flushed.front, flushed.accepted,
    List.append_assoc, CellRegion.take_append_rest]

end Flushed

/-- The flush in front of a write is a flush like any other. -/
theorem flushBeforeWrite_eq (stream : Stream) (side : WriteSide) :
    flushBeforeWrite stream side = flush stream side := by
  unfold flushBeforeWrite
  split
  · rfl
  · rename_i empty
    rw [flush, if_pos (Nat.eq_zero_of_not_pos empty)]

/-- The state a direct write leaves: credited, and counted when cut short. -/
def creditDirect (stream : Stream) (size bytesWritten : Nat) : Stream :=
  if bytesWritten < size then
    (stream.creditWritten bytesWritten).countShortWrite
  else
    stream.creditWritten bytesWritten

/--
The paths through `bc_io_stream_write_chunk` on a writable stream, each with
what it returns.
-/
inductive WritePath (stream : Stream) (data : List Byte) (side : WriteSide) :
    WriteChunkResult → Prop where
  | nothing (empty : data.length = 0) :
      WritePath stream data side ⟨true, 0, stream, side⟩
  /-- `data` fits behind what is buffered. -/
  | buffered (buffer : List Byte)
      (room : stream.bufferUsed + data.length ≤ stream.bufferSize)
      (sized : buffer.length = stream.buffer.length)
      (front :
        buffer.take (stream.bufferUsed + data.length) =
          stream.buffer.take stream.bufferUsed ++ data) :
      WritePath stream data side
        ⟨true, data.length,
          creditWritten
            { stream with
              buffer := buffer
              bufferUsed := stream.bufferUsed + data.length }
            data.length,
          side⟩
  /-- The flush that has to make room leaves bytes behind. -/
  | stopped (sent : Nat) (buffer : List Byte) (flushed : FlushResult)
      (full : stream.bufferSize < stream.bufferUsed + data.length)
      (effect : Flushed stream side sent buffer flushed)
      (short : sent < stream.bufferUsed) :
      WritePath stream data side ⟨false, 0, flushed.stream, flushed.side⟩
  /-- The buffer is empty and `data` would fill it: it goes to the kernel. -/
  | direct (buffer : List Byte) (flushed : FlushResult)
      (written : WriteFullResult)
      (full : stream.bufferSize < stream.bufferUsed + data.length)
      (effect : Flushed stream side stream.bufferUsed buffer flushed)
      (large : stream.bufferSize ≤ data.length)
      (spec : Io.WriteFullSpec data flushed.side.accepted written)
      (ending :
        Io.sends flushed.side.outcomes data.length =
          if written.bytesWritten < data.length then
            if written.succeeded then .blocked else .broken
          else .whole written.side.outcomes) :
      WritePath stream data side
        ⟨written.succeeded, written.bytesWritten,
          flushed.stream.creditDirect data.length written.bytesWritten,
          written.side⟩
  /-- The buffer is empty and takes all of `data`. -/
  | rebuffered (emptied buffer : List Byte) (flushed : FlushResult)
      (full : stream.bufferSize < stream.bufferUsed + data.length)
      (effect : Flushed stream side stream.bufferUsed emptied flushed)
      (small : data.length < stream.bufferSize)
      (sized : buffer.length = stream.buffer.length)
      (front : buffer.take data.length = data) :
      WritePath stream data side
        ⟨true, data.length,
          creditWritten
            { flushed.stream with buffer := buffer, bufferUsed := data.length }
            data.length,
          flushed.side⟩

/-- A returned write has taken one of the paths. -/
theorem writeChunk_path {stream : Stream} (writes : WritesDescriptor stream)
    (data : List Byte) (side : WriteSide) :
    Delivers (WritePath stream data side) (writeChunk stream data side) := by
  have usedInside := writes.usedInside
  have writable : ¬ stream.mode ≠ .write := fun other => other writes.mode
  unfold writeChunk
  rw [if_neg writable, if_neg writes.fdBacked, writes.remaining_eq]
  dsimp only
  split
  · rename_i empty
    exact .nothing empty
  rename_i nonempty
  split
  · rename_i space
    have room : stream.bufferUsed + data.length ≤ stream.bufferSize := by
      have := writes.used
      omega
    refine (copyBytes_delivers (by rw [writes.sized]; exact room)).bind ?_
    rintro buffer ⟨sized, front⟩
    have advanced :
        sizeAdd stream.bufferUsed data.length =
          stream.bufferUsed + data.length :=
      wordAdd_of_lt (Nat.lt_of_le_of_lt room writes.fits)
    rw [advanced]
    exact .buffered buffer room sized front
  · rename_i noSpace
    have full : stream.bufferSize < stream.bufferUsed + data.length := by
      omega
    rw [flushBeforeWrite_eq]
    refine (flush_flushed writes side).bind ?_
    rintro flushed ⟨sent, emptied, effect⟩
    have flushedWrites := effect.writes writes
    have size := effect.bufferSize_eq
    have length := effect.buffer_length_eq
    split
    · rename_i failed
      have short : sent < stream.bufferUsed := by
        refine Nat.lt_of_le_of_ne effect.bounded fun all => ?_
        rw [effect.succeeded.mpr all] at failed
        cases failed
      exact .stopped sent emptied flushed full effect short
    · rename_i notFailed
      have all : sent = stream.bufferUsed :=
        effect.succeeded.mp (by simpa using notFailed)
      subst all
      split
      · rename_i large
        rw [size] at large
        cases answer : Io.writeFull data flushed.side with
        | error halt =>
            have delivers := Io.writeFull_delivers data flushed.side
            rw [answer] at delivers
            cases halt with
            | waiting => trivial
            | overrun => exact delivers
        | ok written =>
            exact .direct emptied flushed written full effect large
              ((Io.writeFull_delivers _ _).of_returned answer)
              (Io.writeFull_sends _ _ answer)
      · rename_i small
        have inside : data.length < stream.bufferSize := by
          rw [size] at small
          omega
        refine (copyBytes_delivers
          (by rw [flushedWrites.sized, size]; omega)).bind ?_
        rintro buffer ⟨sized, front⟩
        rw [Nat.zero_add] at front
        exact .rebuffered emptied buffer flushed full effect inside
          (sized.trans length) front

/-! ## The conservation invariant -/

/--
A writable stream on a descriptor, relative to the bytes `delivered` that its
callers have been told were written.
-/
structure WriteInvariant (delivered : List Byte) (stream : Stream)
    (side : WriteSide) : Prop where
  mode : stream.mode = .write
  fdBacked : stream.sourceType ≠ .memory
  positive : 0 < stream.bufferSize
  fits : stream.bufferSize < sizeLimit
  sized : stream.buffer.length = stream.bufferSize
  used : stream.bufferUsed ≤ stream.bufferSize
  conserved :
    side.accepted ++ stream.buffer.take stream.bufferUsed = delivered

namespace WriteInvariant

variable {delivered : List Byte} {stream : Stream} {side : WriteSide}

theorem writes (invariant : WriteInvariant delivered stream side) :
    WritesDescriptor stream :=
  ⟨invariant.mode, invariant.fdBacked, invariant.fits, invariant.sized,
    invariant.used⟩

/-- Accounting touches none of the fields the invariant reads. -/
theorem credit (invariant : WriteInvariant delivered stream side)
    (size : Nat) :
    WriteInvariant delivered (stream.creditWritten size) side :=
  ⟨invariant.mode, invariant.fdBacked, invariant.positive, invariant.fits,
    invariant.sized, invariant.used, invariant.conserved⟩

theorem short (invariant : WriteInvariant delivered stream side) :
    WriteInvariant delivered stream.countShortWrite side :=
  ⟨invariant.mode, invariant.fdBacked, invariant.positive, invariant.fits,
    invariant.sized, invariant.used, invariant.conserved⟩

/-- Replacing the buffered bytes, with what the kernel took in the meantime. -/
theorem rebuffer (invariant : WriteInvariant delivered stream side)
    (buffer : List Byte) (used : Nat) (laterSide : WriteSide)
    {laterDelivered : List Byte}
    (sized : buffer.length = stream.buffer.length)
    (usedLe : used ≤ stream.bufferSize)
    (conserved :
      laterSide.accepted ++ buffer.take used = laterDelivered) :
    WriteInvariant laterDelivered
      { stream with buffer := buffer, bufferUsed := used } laterSide :=
  ⟨invariant.mode, invariant.fdBacked, invariant.positive, invariant.fits,
    sized.trans invariant.sized, usedLe, conserved⟩

/-- With an empty buffer, everything delivered has reached the kernel. -/
theorem accepted_eq (invariant : WriteInvariant delivered stream side)
    (empty : stream.bufferUsed = 0) : side.accepted = delivered := by
  simpa [empty] using invariant.conserved

end WriteInvariant

/-- What a returned `bc_io_stream_flush` guarantees. -/
structure FlushSpec (delivered : List Byte) (result : FlushResult) : Prop where
  invariant : WriteInvariant delivered result.stream result.side
  drained : result.succeeded = true ↔ result.stream.bufferUsed = 0

/-- What a flush leaves, with the bytes delivered as they were. -/
theorem WriteInvariant.of_flushed {delivered : List Byte} {stream : Stream}
    {side : WriteSide} {sent : Nat} {buffer : List Byte}
    {result : FlushResult}
    (invariant : WriteInvariant delivered stream side)
    (flushed : Flushed stream side sent buffer result) :
    WriteInvariant delivered result.stream result.side := by
  have writes := flushed.writes invariant.writes
  refine ⟨writes.mode, writes.fdBacked, ?_, writes.fits, writes.sized,
    writes.used, flushed.conserved.trans invariant.conserved⟩
  rw [flushed.leaves]
  split <;> exact invariant.positive

/--
A flush loses nothing, whatever prefix of the buffer the kernel takes: the
bytes that leave the buffer are the bytes `write(2)` accepted.
-/
theorem flush_delivers {delivered : List Byte} {stream : Stream}
    {side : WriteSide}
    (invariant : WriteInvariant delivered stream side) :
    Delivers (FlushSpec delivered) (flush stream side) := by
  refine (flush_flushed invariant.writes side).mono ?_
  rintro result ⟨sent, buffer, flushed⟩
  refine ⟨invariant.of_flushed flushed, ?_⟩
  have bounded := flushed.bounded
  rw [flushed.succeeded, flushed.bufferUsed_eq]
  omega

/-- What a returned `bc_io_stream_write_chunk` guarantees. -/
structure WriteChunkSpec (delivered data : List Byte)
    (result : WriteChunkResult) : Prop where
  bounded : result.bytesWritten ≤ data.length
  invariant :
    WriteInvariant (delivered ++ data.take result.bytesWritten)
      result.stream result.side

/-- A call that accepts nothing leaves the invariant where it was. -/
theorem WriteChunkSpec.of_nothing {delivered data : List Byte}
    {stream : Stream} {side : WriteSide} (succeeded : Bool)
    (invariant : WriteInvariant delivered stream side) :
    WriteChunkSpec delivered data ⟨succeeded, 0, stream, side⟩ :=
  ⟨Nat.zero_le _, by simpa using invariant⟩

/-- A call that puts all of `data` into the buffer. -/
theorem WriteChunkSpec.of_buffered {delivered data : List Byte}
    {stream : Stream} {side : WriteSide}
    (invariant : WriteInvariant (delivered ++ data) stream side) :
    WriteChunkSpec delivered data
      ⟨true, data.length, stream.creditWritten data.length, side⟩ :=
  ⟨Nat.le_refl _, by simpa using invariant.credit data.length⟩

/--
Each of the three paths of a write conserves the bytes: the buffered path and
the flush-then-buffer path add all of `data` to the buffer, the direct path
adds to the kernel exactly the prefix that is reported.
-/
theorem writeChunk_delivers {delivered : List Byte} {stream : Stream}
    {side : WriteSide}
    (invariant : WriteInvariant delivered stream side)
    (data : List Byte) :
    Delivers (WriteChunkSpec delivered data)
      (writeChunk stream data side) := by
  refine (writeChunk_path invariant.writes data side).mono ?_
  intro result path
  cases path with
  | nothing => exact WriteChunkSpec.of_nothing true invariant
  | buffered buffer room sized front =>
      refine WriteChunkSpec.of_buffered
        (invariant.rebuffer buffer _ side sized room ?_)
      rw [front, ← List.append_assoc, invariant.conserved]
  | stopped sent buffer flushed full effect short =>
      exact WriteChunkSpec.of_nothing false (invariant.of_flushed effect)
  | direct buffer flushed written full effect large spec ending =>
      have emptied := invariant.of_flushed effect
      have empty := effect.emptied
      have conserved :
          written.side.accepted ++
              flushed.stream.buffer.take flushed.stream.bufferUsed =
            delivered ++ data.take written.bytesWritten := by
        rw [spec.accepted, emptied.accepted_eq empty, empty]
        simp
      have credited :=
        (emptied.rebuffer flushed.stream.buffer flushed.stream.bufferUsed
          written.side rfl emptied.used conserved).credit
          written.bytesWritten
      refine ⟨spec.bounded, ?_⟩
      unfold creditDirect
      split
      · exact credited.short
      · exact credited
  | rebuffered emptied buffer flushed full effect small sized front =>
      have left := invariant.of_flushed effect
      have empty := effect.emptied
      have size := effect.bufferSize_eq
      have length := effect.buffer_length_eq
      refine WriteChunkSpec.of_buffered
        (left.rebuffer buffer _ flushed.side (sized.trans length.symm)
          (by omega) ?_)
      rw [front, left.accepted_eq empty]

/-! ## Runs of write calls -/

/-- A call a user makes on a writable stream. -/
inductive WriteCall where
  | writeChunk (data : List Byte)
  | flush
  deriving DecidableEq, Repr

/-- A call that has returned, with the state it left behind. -/
structure WriteReport where
  call : WriteCall
  succeeded : Bool
  bytesWritten : Nat
  stream : Stream
  side : WriteSide
  deriving DecidableEq, Repr

/-- The bytes of a call's data that the call said were written. -/
def WriteReport.credited (report : WriteReport) : List Byte :=
  match report.call with
  | .writeChunk data => data.take report.bytesWritten
  | .flush => []

/-- Make one call. -/
def performWrite (call : WriteCall) (stream : Stream) (side : WriteSide) :
    Except Halt WriteReport :=
  match call with
  | .writeChunk data => do
      let result ← stream.writeChunk data side
      return ⟨call, result.succeeded, result.bytesWritten, result.stream,
        result.side⟩
  | .flush => do
      let result ← stream.flush side
      return ⟨call, result.succeeded, 0, result.stream, result.side⟩

/-- Make the calls one after the other, whether or not they succeed. -/
def runWrites :
    List WriteCall → Stream → WriteSide → Except Halt (List WriteReport)
  | [], _, _ => .ok []
  | call :: calls, stream, side => do
      let report ← performWrite call stream side
      let later ← runWrites calls report.stream report.side
      return report :: later

/-- What one returned call guarantees. -/
structure WriteReportSpec (delivered : List Byte) (report : WriteReport) :
    Prop where
  invariant :
    WriteInvariant (delivered ++ report.credited) report.stream report.side
  drained :
    report.call = .flush →
      (report.succeeded = true ↔ report.stream.bufferUsed = 0)

theorem performWrite_delivers {delivered : List Byte} {stream : Stream}
    {side : WriteSide}
    (invariant : WriteInvariant delivered stream side)
    (call : WriteCall) :
    Delivers
      (fun report => report.call = call ∧ WriteReportSpec delivered report)
      (performWrite call stream side) := by
  cases call with
  | writeChunk data =>
      refine (writeChunk_delivers invariant data).bind ?_
      intro result spec
      exact ⟨rfl, spec.invariant, by simp⟩
  | flush =>
      refine (flush_delivers invariant).bind ?_
      intro result spec
      refine ⟨rfl, ?_, fun _ => spec.drained⟩
      simpa [WriteReport.credited] using spec.invariant

/--
A whole run, report by report: `delivered` grows by what each call said it had
written, and the invariant holds after every call.
-/
inductive WriteTrace :
    List Byte → List WriteCall → List WriteReport → Prop where
  | done (delivered : List Byte) : WriteTrace delivered [] []
  | step {delivered : List Byte} {report : WriteReport}
      {calls : List WriteCall} {reports : List WriteReport}
      (spec : WriteReportSpec delivered report)
      (later : WriteTrace (delivered ++ report.credited) calls reports) :
      WriteTrace delivered (report.call :: calls) (report :: reports)

theorem runWrites_delivers {delivered : List Byte} {stream : Stream}
    {side : WriteSide}
    (invariant : WriteInvariant delivered stream side)
    (calls : List WriteCall) :
    Delivers (WriteTrace delivered calls) (runWrites calls stream side) := by
  induction calls generalizing delivered stream side with
  | nil => exact .done delivered
  | cons call calls induction =>
      refine (performWrite_delivers invariant call).bind ?_
      rintro report ⟨rfl, spec⟩
      refine (induction spec.invariant).bind ?_
      intro reports later
      exact .step spec later

/-- The trace of a run determines the state after each of its calls. -/
theorem WriteTrace.at_split {delivered : List Byte}
    {calls : List WriteCall} {reports : List WriteReport}
    (trace : WriteTrace delivered calls reports)
    {earlier later : List WriteReport} {report : WriteReport}
    (split : reports = earlier ++ report :: later) :
    WriteReportSpec (delivered ++ earlier.flatMap WriteReport.credited)
      report := by
  induction trace generalizing earlier with
  | done => simp at split
  | @step delivered head calls reports spec rest induction =>
      cases earlier with
      | nil =>
          simp only [List.nil_append, List.cons.injEq] at split
          rcases split with ⟨rfl, _⟩
          simpa using spec
      | cons first earlier =>
          simp only [List.cons_append, List.cons.injEq] at split
          rcases split with ⟨rfl, tail⟩
          simpa [List.append_assoc] using induction tail

/-- A stream just opened for writing has delivered nothing. -/
theorem WriteInvariant.of_opened (bufferArena : Option ArenaId)
    (buffer : List Byte) (sourceType : SourceType) (fileDescriptor : Int)
    (ownsFileDescriptor : Bool) (outcomes : List WriteOutcome)
    (fdBacked : sourceType ≠ .memory) (positive : 0 < buffer.length)
    (fits : buffer.length < sizeLimit) :
    WriteInvariant []
      (initCommonFields bufferArena buffer buffer.length sourceType .write
        fileDescriptor ownsFileDescriptor)
      ⟨[], outcomes⟩ :=
  ⟨rfl, fdBacked, positive, fits, rfl, Nat.zero_le _, by
    simp [initCommonFields]⟩

/--
Conservation over every run: after each returned call, what the kernel has
accepted followed by what is buffered is the concatenation of the prefixes the
calls reported; nothing is ever written outside the buffer; and a flush
reports success exactly when it leaves the buffer empty.  The last part also
covers the flushes inside `bc_io_stream_write_chunk`, which start from a
reached state like any other.
-/
theorem writeRun_conserves_bytes (bufferArena : Option ArenaId)
    (buffer : List Byte) (sourceType : SourceType) (fileDescriptor : Int)
    (ownsFileDescriptor : Bool) (fdBacked : sourceType ≠ .memory)
    (positive : 0 < buffer.length) (fits : buffer.length < sizeLimit)
    (calls : List WriteCall) (outcomes : List WriteOutcome) :
    let opened :=
      initCommonFields bufferArena buffer buffer.length sourceType .write
        fileDescriptor ownsFileDescriptor
    runWrites calls opened ⟨[], outcomes⟩ ≠ .error .overrun ∧
      ∀ reports, runWrites calls opened ⟨[], outcomes⟩ = .ok reports →
        ∀ earlier report later, reports = earlier ++ report :: later →
          report.side.accepted ++
              report.stream.buffer.take report.stream.bufferUsed =
            (earlier ++ [report]).flatMap WriteReport.credited ∧
          report.stream.bufferUsed ≤ report.stream.bufferSize ∧
          report.stream.bufferSize = report.stream.buffer.length ∧
          (report.call = .flush →
            (report.succeeded = true ↔ report.stream.bufferUsed = 0)) ∧
          ∀ moreOutcomes flushed,
            report.stream.flush ⟨report.side.accepted, moreOutcomes⟩ =
                .ok flushed →
              (flushed.succeeded = true ↔ flushed.stream.bufferUsed = 0) := by
  intro opened
  have delivers :=
    runWrites_delivers
      (WriteInvariant.of_opened bufferArena buffer sourceType fileDescriptor
        ownsFileDescriptor outcomes fdBacked positive fits) calls
  refine ⟨delivers.ne_overrun, ?_⟩
  intro reports returned earlier report later split
  have spec := (delivers.of_returned returned).at_split split
  have invariant := spec.invariant
  refine ⟨?_, invariant.used, invariant.sized.symm, spec.drained, ?_⟩
  · rw [invariant.conserved]
    simp
  · intro moreOutcomes flushed finished
    have later :
        WriteInvariant
          (([] ++ earlier.flatMap WriteReport.credited) ++ report.credited)
          report.stream ⟨report.side.accepted, moreOutcomes⟩ :=
      ⟨invariant.mode, invariant.fdBacked, invariant.positive,
        invariant.fits, invariant.sized, invariant.used,
        invariant.conserved⟩
    exact ((flush_delivers later).of_returned finished).drained

/--
A run with a partial flush inside a write that then fails, a retry of that
write and a final flush interrupted once.
-/
theorem writeRun_conserves_bytes_partial_flush :
    let run :=
      runWrites
        [.writeChunk [1, 2, 3], .writeChunk [4, 5], .writeChunk [4, 5],
          .flush]
        (initCommonFields (some 0) [0, 0, 0, 0] 4 .pipe .write 5 false)
        ⟨[], [.accepted 2, .failed Errno.eagain, .failed Errno.eintr,
          .accepted 9]⟩
    run.map (List.map WriteReport.succeeded) =
        .ok [true, false, true, true] ∧
      ∀ reports, run = .ok reports →
        ∀ earlier report later, reports = earlier ++ report :: later →
          report.side.accepted ++
              report.stream.buffer.take report.stream.bufferUsed =
            (earlier ++ [report]).flatMap WriteReport.credited := by
  refine ⟨by decide, ?_⟩
  intro reports returned earlier report later split
  exact
    ((writeRun_conserves_bytes (some 0) [0, 0, 0, 0] .pipe 5 false
      (by decide) (by decide) (by simp [wordLimit]) _ _).2 reports returned
      earlier report later split).1

end BcIo.Stream
