import BcIo.Stream.Open

/-!
# Runs of calls on one stream

A user may call `bc_io_stream_read_chunk`, `bc_io_stream_write_chunk` and
`bc_io_stream_flush` in any order on any stream.  A report keeps what a call
returned together with the state before and after it, so that the counters of
the stream can be compared with what the user has seen: the sums over the
reports of a run.
-/

namespace BcIo.Stream

open BcIo.Foundation.MachineWord

/-- A call a user makes on a stream. -/
inductive Call where
  | readChunk
  | writeChunk (data : List Byte)
  | flush
  deriving DecidableEq, Repr

variable {State Choice : Type}

/-- The two far sides of a descriptor. -/
structure Sides (State Choice : Type) where
  reading : ReadSide State Choice
  writing : WriteSide

/-- A call that has returned. -/
structure Report (State Choice : Type) where
  call : Call
  /-- The stream the call was made on. -/
  before : Stream
  /-- The outcomes of `write(2)` that lay ahead of the call. -/
  ahead : List WriteOutcome
  succeeded : Bool
  /-- `*out_bytes_written` of a write, zero for other calls. -/
  bytesWritten : Nat
  /-- The size of the chunk a read returned, zero when there is none. -/
  chunkSize : Nat
  stream : Stream
  sides : Sides State Choice

/-- Make one call. -/
def perform (device : ReadDevice State Choice) (call : Call)
    (stream : Stream) (sides : Sides State Choice) :
    Except Halt (Report State Choice) :=
  match call with
  | .readChunk => do
      let result ← stream.readChunk device sides.reading
      return ⟨call, stream, sides.writing.outcomes, result.chunk.isSome, 0,
        (result.chunk.map Chunk.size).getD 0, result.stream,
        ⟨result.side, sides.writing⟩⟩
  | .writeChunk data => do
      let result ← stream.writeChunk data sides.writing
      return ⟨call, stream, sides.writing.outcomes, result.succeeded,
        result.bytesWritten, 0, result.stream,
        ⟨sides.reading, result.side⟩⟩
  | .flush => do
      let result ← stream.flush sides.writing
      return ⟨call, stream, sides.writing.outcomes, result.succeeded, 0, 0,
        result.stream, ⟨sides.reading, result.side⟩⟩

/-- Make the calls one after the other, whether or not they succeed. -/
def session (device : ReadDevice State Choice) :
    List Call → Stream → Sides State Choice →
      Except Halt (List (Report State Choice))
  | [], _, _ => .ok []
  | call :: calls, stream, sides => do
      let report ← perform device call stream sides
      let later ← session device calls report.stream report.sides
      return report :: later

/--
An invariant that sees the reports so far and the state they have led to, kept
by every call, holds after every call of a session.
-/
theorem session_invariant (device : ReadDevice State Choice)
    {holds : List (Report State Choice) → Stream → Sides State Choice → Prop}
    (step :
      ∀ done stream sides call, holds done stream sides →
        Delivers
          (fun report => holds (done ++ [report]) report.stream report.sides)
          (perform device call stream sides))
    {done : List (Report State Choice)} {stream : Stream}
    {sides : Sides State Choice} (start : holds done stream sides)
    (calls : List Call) :
    Delivers
      (fun reports => ∀ earlier report later,
        reports = earlier ++ report :: later →
          holds (done ++ earlier ++ [report]) report.stream report.sides)
      (session device calls stream sides) := by
  induction calls generalizing done stream sides with
  | nil =>
      intro earlier report later split
      simp at split
  | cons call calls induction =>
      refine (step done stream sides call start).bind ?_
      intro first holdsFirst
      refine (induction holdsFirst).bind ?_
      intro reports holdsLater earlier report later split
      cases earlier with
      | nil =>
          simp only [List.nil_append, List.cons.injEq] at split
          rcases split with ⟨rfl, _⟩
          simpa using holdsFirst
      | cons head earlier =>
          simp only [List.cons_append, List.cons.injEq] at split
          rcases split with ⟨rfl, tail⟩
          simpa using holdsLater earlier report later tail

/-! ## The attempts to send -/

/-- An attempt that leaves bytes unsent. -/
def Io.Sending.short : Io.Sending → Bool
  | .whole _ => false
  | _ => true

/--
The attempts a call makes to send bytes, as the state before it and the
outcomes ahead decide them: a flush sends what is buffered; a write that does
not fit flushes first and sends its own data when they would fill the buffer.
-/
def attempts (call : Call) (stream : Stream) (ahead : List WriteOutcome) :
    List Io.Sending :=
  match call with
  | .readChunk => []
  | .flush => [Io.sends ahead stream.bufferUsed]
  | .writeChunk data =>
      if stream.bufferUsed + data.length ≤ stream.bufferSize then
        []
      else
        match Io.sends ahead stream.bufferUsed with
        | .whole rest =>
            if stream.bufferSize ≤ data.length then
              [.whole rest, Io.sends rest data.length]
            else
              [.whole rest]
        | cut => [cut]

/-- How many of the attempts of a call left bytes unsent. -/
def Report.shortfalls (report : Report State Choice) : Nat :=
  (attempts report.call report.before report.ahead).countP Io.Sending.short

/-! ## Streams open for writing -/

/-- Counting on in a word that holds a count modulo its size. -/
theorem sizeAdd_mod (count more : Nat) :
    sizeAdd (count % sizeLimit) more = (count + more) % sizeLimit :=
  Nat.mod_add_mod count sizeLimit more

/--
The counters of a stream open for writing, when `total` bytes were reported
as written and `shorts` attempts left bytes unsent.
-/
structure WriteCounters (total shorts : Nat) (stream : Stream)
    (side : WriteSide) : Prop where
  writes : WritesDescriptor stream
  position : stream.logicalPosition = total % sizeLimit
  bytes : stream.stats.bytesWritten = total % sizeLimit
  held : total = side.accepted.length + stream.bufferUsed
  short : stream.stats.shortWriteCount = shorts % sizeLimit

namespace WriteCounters

variable {total shorts : Nat} {stream : Stream} {side : WriteSide}

/-- Bytes that are buffered or accepted are credited to both counters. -/
theorem credit {size : Nat} {before : Stream}
    (position : before.logicalPosition = total % sizeLimit)
    (bytes : before.stats.bytesWritten = total % sizeLimit)
    (writes : WritesDescriptor before)
    (held : total + size = side.accepted.length + before.bufferUsed)
    (short : before.stats.shortWriteCount = shorts % sizeLimit) :
    WriteCounters (total + size) shorts (before.creditWritten size)
      side := by
  refine ⟨writes.credit size, ?_, ?_, held, short⟩
  · rw [creditWritten, position, sizeAdd_mod]
  · rw [creditWritten, bytes, sizeAdd_mod]

theorem countShort (counters : WriteCounters total shorts stream side) :
    WriteCounters total (shorts + 1) stream.countShortWrite side := by
  refine ⟨counters.writes.short, counters.position, counters.bytes,
    counters.held, ?_⟩
  rw [countShortWrite, counters.short, sizeAdd_mod]

/-- A flush moves bytes to the kernel and counts a shortfall. -/
theorem flushed {sent : Nat} {buffer : List Byte} {result : FlushResult}
    (counters : WriteCounters total shorts stream side)
    (effect : Flushed stream side sent buffer result) :
    WriteCounters total
      (shorts + if sent < stream.bufferUsed then 1 else 0)
      result.stream result.side := by
  have usedInside := counters.writes.usedInside
  have bounded := effect.bounded
  have held :
      total =
        result.side.accepted.length + (stream.bufferUsed - sent) := by
    rw [effect.accepted, List.length_append, List.length_take,
      List.length_take, counters.held]
    omega
  have kept :
      WriteCounters total shorts
        { stream with
          buffer := buffer, bufferUsed := stream.bufferUsed - sent }
        result.side :=
    ⟨counters.writes.rebuffer effect.sized
        (Nat.le_trans (Nat.sub_le _ _) counters.writes.used),
      counters.position, counters.bytes, held, counters.short⟩
  rw [effect.leaves]
  split
  · exact kept.countShort
  · exact kept

end WriteCounters

/-- A flush leaves bytes behind exactly when the outcomes cut it short. -/
theorem Flushed.shortfalls {stream : Stream} {side : WriteSide} {sent : Nat}
    {buffer : List Byte} {result : FlushResult}
    (effect : Flushed stream side sent buffer result) :
    (Io.sends side.outcomes stream.bufferUsed).short =
      decide (sent < stream.bufferUsed) := by
  by_cases short : sent < stream.bufferUsed
  · have cut := effect.short short
    cases ending : Io.sends side.outcomes stream.bufferUsed with
    | whole rest => exact absurd ending (cut rest)
    | waiting | blocked | broken => simp [Io.Sending.short, short]
  · have all : sent = stream.bufferUsed :=
      Nat.le_antisymm effect.bounded (Nat.le_of_not_lt short)
    rw [effect.whole all]
    simp [Io.Sending.short, short]

theorem flush_counters {total shorts : Nat} {stream : Stream}
    {side : WriteSide}
    (counters : WriteCounters total shorts stream side) :
    Delivers
      (fun result =>
        WriteCounters total
          (shorts +
            (attempts .flush stream side.outcomes).countP Io.Sending.short)
          result.stream result.side)
      (stream.flush side) := by
  refine (flush_flushed counters.writes side).mono ?_
  rintro result ⟨sent, buffer, effect⟩
  have after := counters.flushed effect
  simp only [attempts, List.countP_singleton, effect.shortfalls,
    decide_eq_true_eq]
  exact after

/-- The attempts of a write, read off the path it takes. -/
theorem WritePath.shortfalls {stream : Stream} {data : List Byte}
    {side : WriteSide} {result : WriteChunkResult}
    (writes : WritesDescriptor stream)
    (path : WritePath stream data side result) :
    (attempts (.writeChunk data) stream side.outcomes).countP
        Io.Sending.short =
      if result.succeeded = false ∨ result.bytesWritten < data.length then 1
      else 0 := by
  have used := writes.used
  cases path with
  | nothing empty =>
      have fits :
          stream.bufferUsed + data.length ≤ stream.bufferSize := by
        omega
      rw [attempts, if_pos fits]
      simp [empty]
  | buffered buffer room sized front => simp [attempts, room]
  | stopped sent buffer flushed full effect short =>
      have cut := effect.short short
      rw [attempts, if_neg (Nat.not_le.mpr full)]
      cases ending : Io.sends side.outcomes stream.bufferUsed with
      | whole rest => exact absurd ending (cut rest)
      | waiting | blocked | broken => simp [Io.Sending.short]
  | direct buffer flushed written full effect large spec ending =>
      simp only [attempts, if_neg (Nat.not_le.mpr full), effect.whole rfl,
        if_pos large, ending]
      by_cases short : written.bytesWritten < data.length
      · cases written.succeeded <;> simp [short, Io.Sending.short]
      · have succeeded : written.succeeded = true := by
          by_contra failed
          exact short (spec.failure (by simpa using failed))
        simp [short, succeeded, Io.Sending.short]
  | rebuffered emptied buffer flushed full effect small sized front =>
      simp [attempts, Nat.not_le.mpr full, effect.whole rfl,
        Nat.not_le.mpr small, Io.Sending.short]

theorem writeChunk_counters {total shorts : Nat} {stream : Stream}
    {side : WriteSide} (counters : WriteCounters total shorts stream side)
    (data : List Byte) :
    Delivers
      (fun result =>
        WriteCounters (total + result.bytesWritten)
          (shorts +
            (attempts (.writeChunk data) stream side.outcomes).countP
              Io.Sending.short)
          result.stream result.side)
      (stream.writeChunk data side) := by
  refine (writeChunk_path counters.writes data side).mono ?_
  intro result path
  rw [path.shortfalls counters.writes]
  cases path with
  | nothing empty => simpa [empty] using counters
  | buffered buffer room sized front =>
      simp only [Bool.true_eq_false, Nat.lt_irrefl, or_self, if_false,
        Nat.add_zero]
      refine WriteCounters.credit counters.position counters.bytes
        (counters.writes.rebuffer sized room) ?_ counters.short
      rw [counters.held]
      exact Nat.add_assoc _ _ _
  | stopped sent buffer flushed full effect short =>
      have after := counters.flushed effect
      rw [if_pos short] at after
      simpa using after
  | direct buffer flushed written full effect large spec ending =>
      have after := counters.flushed effect
      rw [if_neg (Nat.lt_irrefl _), Nat.add_zero] at after
      have empty := effect.emptied
      have credited :
          WriteCounters (total + written.bytesWritten) shorts
            (flushed.stream.creditWritten written.bytesWritten)
            written.side := by
        refine WriteCounters.credit after.position after.bytes after.writes
          ?_ after.short
        rw [after.held, spec.accepted, List.length_append,
          List.length_take, empty]
        have bounded := spec.bounded
        omega
      unfold creditDirect
      by_cases short : written.bytesWritten < data.length
      · simpa [short] using credited.countShort
      · have succeeded : written.succeeded = true := by
          by_contra failed
          exact short (spec.failure (by simpa using failed))
        simpa [short, succeeded] using credited
  | rebuffered emptied buffer flushed full effect small sized front =>
      have after := counters.flushed effect
      rw [if_neg (Nat.lt_irrefl _), Nat.add_zero] at after
      have empty := effect.emptied
      have size := effect.bufferSize_eq
      have length := effect.buffer_length_eq
      simp only [Bool.true_eq_false, Nat.lt_irrefl, or_self, if_false,
        Nat.add_zero]
      refine WriteCounters.credit after.position after.bytes
        (after.writes.rebuffer (sized.trans length.symm) (by omega)) ?_
        after.short
      rw [after.held, empty]
      rfl

/-- A stream open for writing has nothing to read. -/
theorem readChunk_of_write (device : ReadDevice State Choice)
    {stream : Stream} (mode : stream.mode = .write)
    (side : ReadSide State Choice) :
    stream.readChunk device side = .ok ⟨none, stream, side⟩ := by
  unfold readChunk
  split
  · rfl
  · rw [if_pos (by rw [mode]; decide)]

/-- The counters against the sums over the reports so far. -/
def WriteAccounts (done : List (Report State Choice)) (stream : Stream)
    (sides : Sides State Choice) : Prop :=
  WriteCounters (done.map Report.bytesWritten).sum
    (done.map Report.shortfalls).sum stream sides.writing

theorem perform_writeAccounts (device : ReadDevice State Choice)
    (done : List (Report State Choice)) (stream : Stream)
    (sides : Sides State Choice) (call : Call)
    (accounts : WriteAccounts done stream sides) :
    Delivers
      (fun report =>
        WriteAccounts (done ++ [report]) report.stream report.sides)
      (perform device call stream sides) := by
  unfold WriteAccounts at accounts ⊢
  simp only [List.map_append, List.map_cons, List.map_nil,
    List.sum_append, List.sum_cons, List.sum_nil, Nat.add_zero]
  cases call with
  | readChunk =>
      simp only [perform, readChunk_of_write device accounts.writes.mode]
      exact accounts
  | writeChunk data =>
      refine (writeChunk_counters accounts data).bind ?_
      intro result after
      exact after
  | flush =>
      refine (flush_counters accounts).bind ?_
      intro result after
      exact after

/-! ## Streams open for reading -/

/--
The counters of a stream open for reading, when `calls` reads returned chunks
of `total` bytes together.
-/
structure ReadCounters (total calls : Nat) (stream : Stream) : Prop where
  mode : stream.mode = .read
  sized :
    stream.sourceType ≠ .memory →
      stream.buffer.length = stream.bufferSize
  unused : stream.bufferUsed = 0
  position : stream.logicalPosition = total % sizeLimit
  bytes : stream.stats.bytesRead = total % sizeLimit
  count : stream.stats.readCount = calls % sizeLimit

namespace ReadCounters

variable {total calls : Nat} {stream : Stream}

/-- A chunk is credited to all three counters. -/
theorem credit (counters : ReadCounters total calls stream) (size : Nat) :
    ReadCounters (total + size) (calls + 1) (stream.creditRead size) := by
  refine ⟨counters.mode, counters.sized, counters.unused, ?_, ?_, ?_⟩
  · rw [creditRead, counters.position, sizeAdd_mod]
  · rw [creditRead, counters.bytes, sizeAdd_mod]
  · rw [creditRead, counters.count, sizeAdd_mod]

theorem countShort (counters : ReadCounters total calls stream) :
    ReadCounters total calls stream.countShortRead :=
  ⟨counters.mode, counters.sized, counters.unused, counters.position,
    counters.bytes, counters.count⟩

theorem latch (counters : ReadCounters total calls stream) :
    ReadCounters total calls { stream with endOfStream := true } :=
  ⟨counters.mode, counters.sized, counters.unused, counters.position,
    counters.bytes, counters.count⟩

/-- Settling a read credits the chunk it hands out, and nothing otherwise. -/
theorem settled (counters : ReadCounters total calls stream)
    (full : ReadFullResult State Choice) :
    ReadCounters
      (total + ((settleRead stream full).chunk.map Chunk.size).getD 0)
      (calls + if (settleRead stream full).chunk.isSome then 1 else 0)
      (settleRead stream full).stream := by
  unfold settleRead
  dsimp only
  split
  · exact counters
  · split
    · exact counters.latch
    · have credited := counters.credit full.bytes.length
      simp only [Option.map_some, Option.getD_some, Option.isSome_some,
        if_true]
      split <;> split
      · exact credited.countShort.latch
      · exact credited.latch
      · exact credited.countShort
      · exact credited

theorem memoryChunk (counters : ReadCounters total calls stream) :
    ReadCounters
      (total + (stream.readChunkMemory.1.map Chunk.size).getD 0)
      (calls + if stream.readChunkMemory.1.isSome then 1 else 0)
      stream.readChunkMemory.2 := by
  unfold readChunkMemory
  split
  · exact counters.latch
  · dsimp only
    refine credit ?_ _
    exact ⟨counters.mode, counters.sized, counters.unused,
      counters.position, counters.bytes, counters.count⟩

/-- Flushing a stream open for reading does nothing at all. -/
theorem flush_eq (counters : ReadCounters total calls stream)
    (side : WriteSide) : stream.flush side = .ok ⟨true, stream, side⟩ := by
  rw [flush, if_pos counters.unused]

theorem writeChunk_eq (counters : ReadCounters total calls stream)
    (data : List Byte) (side : WriteSide) :
    stream.writeChunk data side = .ok ⟨false, 0, stream, side⟩ := by
  unfold writeChunk
  dsimp only
  rw [if_pos (by rw [counters.mode]; decide)]
  rfl

/-- Closing a stream open for reading makes no call of `write(2)`. -/
theorem close_eq (counters : ReadCounters total calls stream)
    (world : World) (block : BlockId) (side : WriteSide) :
    ∃ closed, close world ⟨block, stream⟩ side = .ok (closed, side) := by
  simp only [close, counters.flush_eq side]
  exact ⟨_, rfl⟩

end ReadCounters

theorem readChunk_counters (device : ReadDevice State Choice)
    {total calls : Nat} {stream : Stream}
    (counters : ReadCounters total calls stream)
    (side : ReadSide State Choice) :
    Delivers
      (fun result =>
        ReadCounters (total + (result.chunk.map Chunk.size).getD 0)
          (calls + if result.chunk.isSome then 1 else 0) result.stream)
      (stream.readChunk device side) := by
  unfold readChunk
  split
  · exact counters
  split
  · exact counters
  split
  · exact counters.memoryChunk
  · rename_i fdBacked
    have reads : ReadsDescriptor stream :=
      ⟨counters.mode, fdBacked, counters.sized fdBacked⟩
    refine (readChunkFile_delivers device reads side).mono ?_
    rintro result ⟨full, buffer, _, _, sized, _, rfl⟩
    refine ReadCounters.settled ?_ full
    exact ⟨counters.mode, fun other => sized.trans (counters.sized other),
      counters.unused, counters.position, counters.bytes, counters.count⟩

/-- A read that returned `true`. -/
def Report.isRead (report : Report State Choice) : Bool :=
  report.call = .readChunk ∧ report.succeeded = true

/--
The counters against the sums over the reports so far, and the far side of
`write(2)`, which is as it was at the start.
-/
structure ReadAccounts (start : WriteSide)
    (done : List (Report State Choice)) (stream : Stream)
    (sides : Sides State Choice) : Prop where
  counters :
    ReadCounters (done.map Report.chunkSize).sum
      (done.countP Report.isRead) stream
  writing : sides.writing = start

theorem perform_readAccounts (device : ReadDevice State Choice)
    (start : WriteSide) (done : List (Report State Choice))
    (stream : Stream) (sides : Sides State Choice) (call : Call)
    (accounts : ReadAccounts start done stream sides) :
    Delivers
      (fun report =>
        ReadAccounts start (done ++ [report]) report.stream report.sides)
      (perform device call stream sides) := by
  rcases accounts with ⟨counters, rfl⟩
  cases call with
  | readChunk =>
      refine (readChunk_counters device counters sides.reading).bind ?_
      intro result after
      refine ⟨?_, rfl⟩
      simpa [List.countP_append, List.countP_singleton, Report.isRead]
        using after
  | writeChunk data =>
      simp only [perform, counters.writeChunk_eq data sides.writing]
      refine ⟨?_, rfl⟩
      simpa [List.countP_append, List.countP_singleton, Report.isRead]
        using counters
  | flush =>
      simp only [perform, counters.flush_eq sides.writing]
      refine ⟨?_, rfl⟩
      simpa [List.countP_append, List.countP_singleton, Report.isRead]
        using counters

/-! ## The start of a session -/

theorem Opened.writeAccounts {stream : Stream} (opened : Opened stream)
    (mode : stream.mode = .write) (fdBacked : stream.sourceType ≠ .memory)
    (reading : ReadSide State Choice) (outcomes : List WriteOutcome) :
    WriteAccounts [] stream ⟨reading, ⟨[], outcomes⟩⟩ := by
  cases opened with
  | onDescriptor arena buffer sourceType mode' descriptor owns total fits =>
      exact ⟨⟨mode, fdBacked, fits, rfl, Nat.zero_le _⟩, rfl, rfl, rfl, rfl⟩
  | overMemory data size => exact absurd rfl fdBacked

theorem Opened.readAccounts {stream : Stream} (opened : Opened stream)
    (mode : stream.mode = .read) (reading : ReadSide State Choice)
    (writing : WriteSide) :
    ReadAccounts writing [] stream ⟨reading, writing⟩ := by
  cases opened with
  | onDescriptor arena buffer sourceType mode' descriptor owns total fits =>
      exact ⟨⟨mode, fun _ => rfl, rfl, rfl, rfl, rfl⟩, rfl⟩
  | overMemory data size =>
      exact ⟨⟨rfl, fun other => absurd rfl other, rfl, rfl, rfl, rfl⟩, rfl⟩

/-! ## The counters are exact -/

/--
After every call of every session the counters agree with what the calls
returned.  On a descriptor open for writing the position and the written bytes
are the sum of what the writes reported, which is what the kernel accepted
together with what is buffered, and the short writes are the attempts that left
bytes unsent.  On a stream open for reading, of any source, the position and
the read bytes are the sum of the chunk sizes, the reads are those that
returned a chunk, nothing is ever buffered, and neither a flush nor a close
calls `write(2)`.
-/
theorem session_counters_exact (device : ReadDevice State Choice)
    (stream : Stream) (opened : Opened stream) (calls : List Call)
    (reading : ReadSide State Choice) (outcomes : List WriteOutcome) :
    let ran := session device calls stream ⟨reading, ⟨[], outcomes⟩⟩
    (stream.mode = .write → stream.sourceType ≠ .memory →
      ran ≠ .error .overrun ∧
        ∀ reports, ran = .ok reports →
          ∀ earlier report later, reports = earlier ++ report :: later →
            let done := earlier ++ [report]
            let total := (done.map Report.bytesWritten).sum
            report.stream.logicalPosition =
                report.stream.stats.bytesWritten ∧
              report.stream.stats.bytesWritten = total % sizeLimit ∧
              total =
                report.sides.writing.accepted.length +
                  report.stream.bufferUsed ∧
              report.stream.stats.shortWriteCount =
                (done.map Report.shortfalls).sum % sizeLimit) ∧
      (stream.mode = .read →
        ran ≠ .error .overrun ∧
          ∀ reports, ran = .ok reports →
            ∀ earlier report later, reports = earlier ++ report :: later →
              let done := earlier ++ [report]
              report.stream.logicalPosition =
                  report.stream.stats.bytesRead ∧
                report.stream.stats.bytesRead =
                  (done.map Report.chunkSize).sum % sizeLimit ∧
                report.stream.stats.readCount =
                  done.countP Report.isRead % sizeLimit ∧
                report.stream.bufferUsed = 0 ∧
                report.sides.writing = ⟨[], outcomes⟩ ∧
                ∀ world block side,
                  report.stream.flush side =
                      .ok ⟨true, report.stream, side⟩ ∧
                    ∃ closed,
                      close world ⟨block, report.stream⟩ side =
                        .ok (closed, side)) := by
  intro ran
  refine ⟨?_, ?_⟩
  · intro mode fdBacked
    have delivers :=
      session_invariant device (perform_writeAccounts device)
        (opened.writeAccounts mode fdBacked reading outcomes) calls
    refine ⟨delivers.ne_overrun, ?_⟩
    intro reports returned earlier report later split
    have accounts :=
      delivers.of_returned returned earlier report later split
    exact ⟨accounts.position.trans accounts.bytes.symm, accounts.bytes,
      accounts.held, accounts.short⟩
  · intro mode
    have delivers :=
      session_invariant device
        (perform_readAccounts device ⟨[], outcomes⟩)
        (opened.readAccounts mode reading ⟨[], outcomes⟩) calls
    refine ⟨delivers.ne_overrun, ?_⟩
    intro reports returned earlier report later split
    rcases delivers.of_returned returned earlier report later split with
      ⟨counters, writing⟩
    refine ⟨counters.position.trans counters.bytes.symm, counters.bytes,
      counters.count, counters.unused, writing, ?_⟩
    intro world block side
    exact ⟨counters.flush_eq side, counters.close_eq world block side⟩

/-- A pipe open for writing with a buffer of four bytes. -/
def openedForWriting : Stream :=
  initCommonFields (some 0) [0, 0, 0, 0] 4 .pipe .write 5 false

theorem openedForWriting_opened : Opened openedForWriting :=
  .onDescriptor (some 0) [0, 0, 0, 0] .pipe .write 5 false none
    (by simp [wordLimit])

/--
A flush cut short inside a write, a flush that sends the rest, and a direct
write of six bytes of which the kernel takes four.
-/
theorem session_counters_exact_partial_writes :
    ∃ reports,
      session scriptedDevice
          [.writeChunk [1, 2, 3], .writeChunk [4, 5], .flush,
            .writeChunk [4, 5, 6, 7, 8, 9]]
          openedForWriting
          ⟨⟨(), [], []⟩,
            ⟨[], [.accepted 2, .failed Errno.eagain, .accepted 9,
              .accepted 4, .failed Errno.eio]⟩⟩ = .ok reports ∧
        reports.map Report.succeeded = [true, false, true, false] ∧
        reports.map (fun report => report.stream.stats.shortWriteCount) =
          [0, 1, 1, 2] ∧
        ∀ earlier report later, reports = earlier ++ report :: later →
          report.stream.logicalPosition =
            report.stream.stats.bytesWritten := by
  have ran :
      ∃ reports,
        session scriptedDevice
            [.writeChunk [1, 2, 3], .writeChunk [4, 5], .flush,
              .writeChunk [4, 5, 6, 7, 8, 9]]
            openedForWriting
            ⟨⟨(), [], []⟩,
              ⟨[], [.accepted 2, .failed Errno.eagain, .accepted 9,
                .accepted 4, .failed Errno.eio]⟩⟩ = .ok reports ∧
          reports.map Report.succeeded = [true, false, true, false] ∧
          reports.map (fun report => report.stream.stats.shortWriteCount) =
            [0, 1, 1, 2] :=
    ⟨_, rfl, by decide, by decide⟩
  rcases ran with ⟨reports, returned, succeeded, shorts⟩
  refine ⟨reports, returned, succeeded, shorts, ?_⟩
  intro earlier report later split
  exact
    (((session_counters_exact scriptedDevice openedForWriting
        openedForWriting_opened _ _ _).1 rfl (by decide)).2 reports returned
      earlier report later split).1

/-! ## What a write reports -/

/--
A write of `size` bytes goes to the kernel directly and meets `EAGAIN` before
its last byte is accepted: it does not fit behind what is buffered, it would
fill the buffer, and the outcomes ahead first send what is buffered.
-/
def DirectBlocks (stream : Stream) (size : Nat)
    (ahead : List WriteOutcome) : Prop :=
  stream.bufferSize < stream.bufferUsed + size ∧
    stream.bufferSize ≤ size ∧
    ∃ rest, Io.sends ahead stream.bufferUsed = .whole rest ∧
      Io.sends rest size = .blocked

/-- On every path but a blocked direct write, success means completeness. -/
theorem WritePath.complete_iff {stream : Stream} {data : List Byte}
    {side : WriteSide} {result : WriteChunkResult}
    (writes : WritesDescriptor stream)
    (path : WritePath stream data side result) :
    (result.succeeded = true ↔ result.bytesWritten = data.length) ↔
      ¬ DirectBlocks stream data.length side.outcomes := by
  have used := writes.used
  cases path with
  | nothing empty =>
      refine iff_of_true (by simp [empty]) ?_
      rintro ⟨full, _⟩
      omega
  | buffered buffer room sized front =>
      refine iff_of_true (by simp) ?_
      rintro ⟨full, _⟩
      omega
  | stopped sent buffer flushed full effect short =>
      refine iff_of_true ?_ ?_
      · simp only [Bool.false_eq_true, false_iff]
        omega
      · rintro ⟨_, _, rest, whole, _⟩
        exact effect.short short rest whole
  | direct buffer flushed written full effect large spec ending =>
      have bounded := spec.bounded
      have blocks :
          DirectBlocks stream data.length side.outcomes ↔
            Io.sends flushed.side.outcomes data.length = .blocked := by
        unfold DirectBlocks
        rw [effect.whole rfl]
        simp [full, large]
      rw [blocks, ending]
      by_cases short : written.bytesWritten < data.length
      · have incomplete : written.bytesWritten ≠ data.length :=
          Nat.ne_of_lt short
        cases succeeded : written.succeeded <;> simp [short, incomplete]
      · have complete : written.bytesWritten = data.length :=
          Nat.le_antisymm bounded (Nat.le_of_not_lt short)
        have succeeded : written.succeeded = true := by
          by_contra failed
          exact short (spec.failure (by simpa using failed))
        simp [succeeded, complete]
  | rebuffered emptied buffer flushed full effect small sized front =>
      refine iff_of_true (by simp) ?_
      rintro ⟨_, large, _⟩
      omega

/-- What is shown of each write of a session. -/
def Report.CompleteIff (report : Report State Choice) : Prop :=
  ∀ data, report.call = .writeChunk data →
    ((report.succeeded = true ↔ report.bytesWritten = data.length) ↔
      ¬ DirectBlocks report.before data.length report.ahead)

theorem perform_completeIff (device : ReadDevice State Choice)
    {stream : Stream} (writes : WritesDescriptor stream)
    (sides : Sides State Choice) (call : Call) :
    Delivers Report.CompleteIff (perform device call stream sides) := by
  cases call with
  | readChunk =>
      simp only [perform, readChunk_of_write device writes.mode]
      intro data other
      cases other
  | writeChunk data =>
      refine (writeChunk_path writes data sides.writing).bind ?_
      intro result path other isWrite
      cases isWrite
      exact path.complete_iff writes
  | flush =>
      refine (flush_flushed writes sides.writing).bind ?_
      intro result _ data other
      cases other

/-- Every write so far has been shown, and the stream is writable. -/
structure WritesShown (done : List (Report State Choice)) (stream : Stream)
    (sides : Sides State Choice) : Prop where
  accounts : WriteAccounts done stream sides
  shown : ∀ report ∈ done, report.CompleteIff

theorem perform_writesShown (device : ReadDevice State Choice)
    (done : List (Report State Choice)) (stream : Stream)
    (sides : Sides State Choice) (call : Call)
    (before : WritesShown done stream sides) :
    Delivers
      (fun report =>
        WritesShown (done ++ [report]) report.stream report.sides)
      (perform device call stream sides) := by
  have accounts :=
    perform_writeAccounts device done stream sides call before.accounts
  have complete :=
    perform_completeIff device before.accounts.writes sides call
  refine (accounts.and complete).mono ?_
  rintro report ⟨after, latest⟩
  refine ⟨after, ?_⟩
  simp only [List.mem_append, List.mem_singleton]
  rintro other (earlier | rfl)
  · exact before.shown other earlier
  · exact latest

/--
In every session on a descriptor open for writing, and for each write in it:
the write returns `true` exactly when it reports all its bytes, if and only if
it is not a direct write that `EAGAIN` cuts short.
`bc_io_stream_io_write_full` takes `EAGAIN` for success; a flush looks at the
count as well, the direct path does not.
-/
theorem writeChunk_true_iff_complete_iff
    (device : ReadDevice State Choice) (stream : Stream)
    (opened : Opened stream) (mode : stream.mode = .write)
    (fdBacked : stream.sourceType ≠ .memory) (calls : List Call)
    (reading : ReadSide State Choice) (outcomes : List WriteOutcome)
    (reports : List (Report State Choice))
    (returned :
      session device calls stream ⟨reading, ⟨[], outcomes⟩⟩ = .ok reports)
    (report : Report State Choice) (made : report ∈ reports)
    (data : List Byte) (isWrite : report.call = .writeChunk data) :
    (report.succeeded = true ↔ report.bytesWritten = data.length) ↔
      ¬ DirectBlocks report.before data.length report.ahead := by
  have start :
      WritesShown [] stream
        (⟨reading, ⟨[], outcomes⟩⟩ : Sides State Choice) :=
    ⟨opened.writeAccounts mode fdBacked reading outcomes, by simp⟩
  have delivers :=
    session_invariant device (perform_writesShown device) start calls
  rcases List.append_of_mem made with ⟨earlier, later, split⟩
  have shown :=
    (delivers.of_returned returned earlier report later split).shown
  exact shown report (by simp) data isWrite

/-- A direct write whose first call is interrupted and whose second is short. -/
theorem writeChunk_true_iff_complete_iff_direct :
    ∃ report,
      session scriptedDevice [.writeChunk [1, 2, 3, 4, 5]] openedForWriting
          ⟨⟨(), [], []⟩,
            ⟨[], [.failed Errno.eintr, .accepted 2, .accepted 3]⟩⟩ =
        .ok [report] ∧
        (report.succeeded = true ↔ report.bytesWritten = 5) := by
  have ran :
      ∃ report,
        session scriptedDevice [.writeChunk [1, 2, 3, 4, 5]]
            openedForWriting
            ⟨⟨(), [], []⟩,
              ⟨[], [.failed Errno.eintr, .accepted 2, .accepted 3]⟩⟩ =
          .ok [report] ∧
        report.call = .writeChunk [1, 2, 3, 4, 5] ∧
        report.before = openedForWriting ∧
        report.ahead =
          [.failed Errno.eintr, .accepted 2, .accepted 3] :=
    ⟨_, rfl, rfl, rfl, rfl⟩
  rcases ran with ⟨report, returned, isWrite, before, ahead⟩
  refine ⟨report, returned, ?_⟩
  refine
    (writeChunk_true_iff_complete_iff scriptedDevice openedForWriting
      openedForWriting_opened rfl (by decide) _ _ _ _ returned report
      (by simp) _ isWrite).mpr ?_
  rw [before, ahead]
  rintro ⟨_, _, rest, whole, blocked⟩
  cases whole
  exact absurd blocked (by decide)

/-- Two of five bytes are accepted, then `EAGAIN`: the write returns `true`. -/
theorem writeChunk_true_without_completion :
    ¬ ∀ (calls : List Call) (outcomes : List WriteOutcome)
        (reports : List (Report Unit ReadOutcome)),
      session scriptedDevice calls openedForWriting
          ⟨⟨(), [], []⟩, ⟨[], outcomes⟩⟩ = .ok reports →
        ∀ report ∈ reports, ∀ data, report.call = .writeChunk data →
          (report.succeeded = true ↔
            report.bytesWritten = data.length) := by
  intro complete
  have claimed :=
    complete [.writeChunk [1, 2, 3, 4, 5]]
      [.accepted 2, .failed Errno.eagain] _ rfl _
      (List.mem_singleton_self _) [1, 2, 3, 4, 5] rfl
  exact absurd (claimed.mp rfl) (by decide)

end BcIo.Stream
