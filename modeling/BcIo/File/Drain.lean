import BcIo.File.Balance
import BcIo.Stream.Progress

/-!
# Draining a file that was opened automatically

The buffered and the memory-mapped branch of `bc_io_file_open_auto` cut a file
into different chunks and latch the end of the stream at different calls.  Both
keep the same abstract promise, `Draining`, from which everything a whole drain
delivers follows once.
-/

namespace BcIo.File

open BcIo.Foundation
open BcIo.Foundation.MachineWord
open BcIo.Stream

/-! ## A regular file behind a descriptor -/

/-- What the kernel may decide when a regular file is read. -/
inductive RegularChoice where
  | interrupted
  /-- Serve at most `more + 1` bytes. -/
  | upTo (more : Nat)
  deriving DecidableEq, Repr

/--
A descriptor on a regular file whose content does not change; the state is the
file offset.
-/
def regularFile (content : List Byte) : ReadDevice Nat RegularChoice where
  read offset choice requested :=
    match choice with
    | .interrupted => (.failed Errno.eintr, offset)
    | .upTo more =>
        let bytes := (content.drop offset).take (min requested (more + 1))
        (.transferred bytes, offset + bytes.length)

/-- The file behind a descriptor; what is not a regular file is empty here. -/
def fileBehind (world : World) (descriptor : Descriptor) :
    ReadDevice Nat RegularChoice :=
  match world.nodeOf descriptor with
  | some (.regular content) => regularFile content
  | _ => regularFile []

/-- `open(2)` leaves the file offset at the first byte. -/
def freshlyOpened (choices : List RegularChoice) :
    ReadSide Nat RegularChoice :=
  ⟨0, [], choices⟩

/-- The number of choices that let a call of `read(2)` end the wait. -/
def answered (choices : List RegularChoice) : Nat :=
  choices.countP fun choice => choice ≠ .interrupted

/-- What `bc_io_stream_io_read_full` does on a regular file. -/
structure RegularReadSpec (content : List Byte) (requested offset : Nat)
    (bytes : List Byte) (full : ReadFullResult Nat RegularChoice) :
    Prop where
  succeeded : full.succeeded = true
  progress :
    ∃ count, full.bytes = bytes ++ (content.drop offset).take count ∧
      full.side.state = offset + count ∧ offset + count ≤ content.length
  ended : full.endOfFile = true → full.side.state = content.length
  filled : full.endOfFile = false → requested ≤ full.bytes.length

theorem sysRead_regularFile (content : List Byte) (offset more wanted : Nat) :
    Io.sysRead (regularFile content) offset (.upTo more) wanted =
      (.transferred
          ((content.drop offset).take (min wanted (more + 1))),
        offset + min (min wanted (more + 1)) (content.length - offset)) := by
  simp [Io.sysRead, regularFile, List.take_take]

theorem readLoop_regularFile (content : List Byte) (requested : Nat)
    (choices : List RegularChoice) (offset : Nat)
    (transferred bytes : List Byte) (inside : offset ≤ content.length)
    {full : ReadFullResult Nat RegularChoice}
    (returned :
      Io.readLoop (regularFile content) requested choices offset transferred
        bytes = .ok full) :
    RegularReadSpec content requested offset bytes full := by
  induction choices generalizing offset transferred bytes with
  | nil =>
      by_cases unfinished : bytes.length < requested
      · simp [Io.readLoop, unfinished] at returned
      · simp only [Io.readLoop, if_neg unfinished, Except.ok.injEq]
          at returned
        subst returned
        exact ⟨rfl, ⟨0, by simp, rfl, inside⟩, by simp,
          fun _ => Nat.le_of_not_lt unfinished⟩
  | cons choice rest induction =>
      by_cases unfinished : bytes.length < requested
      · simp only [Io.readLoop, if_pos unfinished] at returned
        cases choice with
        | interrupted =>
            exact induction offset transferred bytes inside returned
        | upTo more =>
            simp only [sysRead_regularFile] at returned
            generalize countEq :
              min (requested - bytes.length) (more + 1) = count at returned
            have positive : 0 < count := by omega
            split at returned
            · rename_i received
              have inner := induction _ _ _ (by omega) returned
              rcases inner.progress with ⟨later, laterBytes, state, bound⟩
              refine ⟨inner.succeeded, ?_, inner.ended, inner.filled⟩
              refine ⟨min count (content.length - offset) + later, ?_, ?_,
                by omega⟩
              · rw [laterBytes, List.append_assoc, List.take_add,
                  List.drop_drop]
                congr 2
                rw [List.take_eq_take_iff, List.length_drop]
                omega
              · rw [state, Nat.add_assoc]
            · rename_i nothing
              have atEnd : offset = content.length := by
                simp only [List.length_take, List.length_drop] at nothing
                omega
              simp only [Except.ok.injEq] at returned
              subst returned
              refine ⟨rfl, ⟨0, by simp, ?_, inside⟩, ?_, by simp⟩
              · simp [atEnd]
              · intro _
                simp [atEnd]
      · simp only [Io.readLoop, if_neg unfinished, Except.ok.injEq]
          at returned
        subst returned
        exact ⟨rfl, ⟨0, by simp, rfl, inside⟩, by simp,
          fun _ => Nat.le_of_not_lt unfinished⟩

/--
Enough answers end the loop: one for each byte that is left, and one more for
the end of the file, and what is left over is again enough for the rest.
-/
theorem readLoop_regularFile_returns (content : List Byte)
    (requested : Nat) (choices : List RegularChoice) (offset : Nat)
    (transferred bytes : List Byte) (inside : offset ≤ content.length)
    (enough : content.length < offset + answered choices) :
    ∃ full,
      Io.readLoop (regularFile content) requested choices offset transferred
          bytes = .ok full ∧
        (full.endOfFile = false →
          content.length <
            full.side.state + answered full.side.choices) := by
  induction choices generalizing offset transferred bytes with
  | nil =>
      simp only [answered, List.countP_nil] at enough
      omega
  | cons choice rest induction =>
      by_cases unfinished : bytes.length < requested
      · simp only [Io.readLoop, if_pos unfinished]
        cases choice with
        | interrupted =>
            have remaining :
                content.length < offset + answered rest := by
              simpa [answered] using enough
            exact induction offset transferred bytes inside remaining
        | upTo more =>
            have remaining :
                content.length < offset + answered rest + 1 := by
              simpa [answered, Nat.add_assoc] using enough
            simp only [sysRead_regularFile]
            split
            · rename_i received
              simp only [List.length_take, List.length_drop] at received
              exact induction _ _ _ (by omega) (by omega)
            · exact ⟨_, rfl, by simp⟩
      · simp only [Io.readLoop, if_neg unfinished]
        exact ⟨_, rfl, fun _ => enough⟩

/-! ## The promise both branches keep -/

section Drain

variable {State Choice : Type}

/-- The stream has handed out the first `offset` bytes and accounts for them. -/
structure AtOffset (content : List Byte) (offset : Nat)
    (stream : Stream) : Prop where
  inside : offset ≤ content.length
  mode : stream.mode = .read
  position : stream.logicalPosition = offset
  latched : stream.endOfStream = true → offset = content.length

/--
An invariant that follows a stream through a file: every call that returns
either hands out the next bytes, at least one, or latches the end.
-/
structure Draining (device : ReadDevice State Choice)
    (memory : Address → Byte) (content : List Byte)
    (holds : Nat → Stream → ReadSide State Choice → Prop) : Prop where
  accounts : ∀ {offset stream side},
    holds offset stream side → AtOffset content offset stream
  step : ∀ {offset stream side result},
    holds offset stream side → stream.endOfStream = false →
      stream.readChunk device side = .ok result →
        (result.chunk = none ∧ result.stream.endOfStream = true ∧
            holds offset result.stream result.side) ∨
          ∃ chunk count, result.chunk = some chunk ∧ 0 < count ∧
            offset + count ≤ content.length ∧
            chunk.bytes result.stream memory =
              (content.drop offset).take count ∧
            holds (offset + count) result.stream result.side

/-- What a run of calls from some offset on has done to the file. -/
structure DrainedFrom (content : List Byte) (offset calls : Nat)
    (holds : Nat → Stream → ReadSide State Choice → Prop)
    (run : ReadRun State Choice) : Prop where
  reached :
    ∃ count, run.handed = (content.drop offset).take count ∧
      holds (offset + count) run.stream run.side
  nonempty : ∀ bytes, some bytes ∈ run.results → bytes ≠ []
  ended : none ∈ run.results → run.stream.endOfStream = true
  bounded :
    content.length < offset + calls →
      none ∈ run.results.take (content.length - offset + 1)

theorem Draining.runReads {device : ReadDevice State Choice}
    {memory : Address → Byte} {content : List Byte}
    {holds : Nat → Stream → ReadSide State Choice → Prop}
    (draining : Draining device memory content holds) (calls : Nat)
    {offset : Nat} {stream : Stream} {side : ReadSide State Choice}
    (starts : holds offset stream side) {run : ReadRun State Choice}
    (returned : runReads device memory calls stream side = .ok run) :
    DrainedFrom content offset calls holds run := by
  induction calls generalizing offset stream side run with
  | zero =>
      cases returned
      have inside := (draining.accounts starts).inside
      refine ⟨⟨0, by simp [ReadRun.handed], starts⟩, by simp, by simp, ?_⟩
      intro beyond
      omega
  | succ calls induction =>
      by_cases latched : stream.endOfStream = true
      · -- nothing is left to do once the end is latched
        rw [runReads_of_endOfStream _ _ _ latched, Except.ok.injEq]
          at returned
        subst returned
        refine ⟨⟨0, by simp [ReadRun.handed], starts⟩, by simp, ?_, ?_⟩
        · intro _
          exact latched
        · intro _
          simp [List.replicate_succ]
      · have notEnded : stream.endOfStream = false := by simpa using latched
        rcases returned_bind returned with ⟨first, firstReturned, returned⟩
        rcases returned_bind returned with ⟨later, laterReturned, returned⟩
        cases returned
        rcases draining.step starts notEnded firstReturned with
          ⟨noChunk, ended, continues⟩ |
            ⟨chunk, count, handed, positive, inside, bytes, continues⟩
        · rw [runReads_of_endOfStream _ _ _ ended, Except.ok.injEq]
            at laterReturned
          subst laterReturned
          refine ⟨⟨0, ?_, continues⟩, ?_, ?_, ?_⟩
          · simp [ReadRun.handed, noChunk]
          · simp [noChunk]
          · intro _
            exact ended
          · intro _
            simp [noChunk]
        · have inner := induction continues laterReturned
          rcases inner.reached with ⟨more, laterHanded, reached⟩
          refine ⟨⟨count + more, ?_, ?_⟩, ?_, ?_, ?_⟩
          · rw [List.take_add, List.drop_drop, ← laterHanded]
            simp [ReadRun.handed, handed, bytes]
          · rw [← Nat.add_assoc]
            exact reached
          · intro received isResult
            simp only [handed, Option.map_some, List.mem_cons,
              Option.some.injEq] at isResult
            rcases isResult with rfl | isLater
            · rw [bytes, ← List.length_pos_iff, List.length_take,
                List.length_drop]
              omega
            · exact inner.nonempty received isLater
          · intro isResult
            simp only [handed, Option.map_some, List.mem_cons,
              reduceCtorEq, false_or] at isResult
            exact inner.ended isResult
          · intro beyond
            have soon := inner.bounded (by omega)
            have fewer :
                content.length - (offset + count) + 1 ≤
                  content.length - offset := by
              omega
            rw [List.take_succ_cons]
            exact List.mem_cons_of_mem _
              (List.take_subset_take_left _ fewer soon)

/-- A run returns when every one of its calls does. -/
theorem runReads_returns {device : ReadDevice State Choice}
    {memory : Address → Byte}
    (ready : Stream → ReadSide State Choice → Prop)
    (answers : ∀ {stream side}, ready stream side →
      ∃ result, stream.readChunk device side = .ok result ∧
        ready result.stream result.side)
    (calls : Nat) {stream : Stream} {side : ReadSide State Choice}
    (starts : ready stream side) :
    ∃ run, runReads device memory calls stream side = .ok run := by
  induction calls generalizing stream side with
  | zero => exact ⟨_, rfl⟩
  | succ calls induction =>
      rcases answers starts with ⟨result, returned, continues⟩
      rcases induction continues with ⟨run, laterReturned⟩
      refine
        ⟨⟨(result.chunk.map fun chunk =>
            chunk.bytes result.stream memory) :: run.results,
          run.stream, run.side⟩, ?_⟩
      rw [Stream.runReads, returned]
      change (Stream.runReads device memory calls _ _ >>= _) = _
      rw [laterReturned]
      rfl

end Drain

/-! ## The buffered branch -/

/-- A buffered stream on a regular file, `offset` bytes into it. -/
structure BufferedAt (content : List Byte) (offset : Nat) (stream : Stream)
    (side : ReadSide Nat RegularChoice) : Prop where
  accounts : AtOffset content offset stream
  reads : ReadsDescriptor stream
  positive : 0 < stream.bufferSize
  fileOffset : side.state = offset

/-- The accounting of a chunk of `size` bytes, before the end is considered. -/
theorem AtOffset.creditRead {content : List Byte} {offset size : Nat}
    {stream : Stream} (accounts : AtOffset content offset stream)
    (notEnded : stream.endOfStream = false)
    (representable : content.length < sizeLimit)
    (inside : offset + size ≤ content.length) :
    AtOffset content (offset + size) (stream.creditRead size) where
  inside := inside
  mode := accounts.mode
  position := by
    have fits : offset + size < sizeLimit :=
      Nat.lt_of_le_of_lt inside representable
    change sizeAdd stream.logicalPosition size = offset + size
    rw [accounts.position]
    exact wordAdd_of_lt fits
  latched := by
    intro ended
    rw [show (stream.creditRead size).endOfStream = stream.endOfStream
      from rfl, notEnded] at ended
    contradiction

/-- Counting a short read changes nothing that a drain looks at. -/
theorem AtOffset.countShortRead {content : List Byte} {offset : Nat}
    {stream : Stream} (accounts : AtOffset content offset stream) :
    AtOffset content offset stream.countShortRead :=
  ⟨accounts.inside, accounts.mode, accounts.position, accounts.latched⟩

/-- At the end of the file the end may be latched. -/
theorem AtOffset.latch {content : List Byte} {offset : Nat}
    {stream : Stream} (accounts : AtOffset content offset stream)
    (atEnd : offset = content.length) :
    AtOffset content offset { stream with endOfStream := true } :=
  ⟨accounts.inside, accounts.mode, accounts.position, fun _ => atEnd⟩

/-- Settling a call that received `count` bytes of the file. -/
theorem settleRead_drains {content : List Byte} {offset count : Nat}
    {stream : Stream} (accounts : AtOffset content offset stream)
    (notEnded : stream.endOfStream = false)
    (representable : content.length < sizeLimit)
    (positive : 0 < stream.bufferSize)
    {full : ReadFullResult Nat RegularChoice}
    (succeeded : full.succeeded = true)
    (received : full.bytes.length = count)
    (inside : offset + count ≤ content.length)
    (ended : full.endOfFile = true → offset + count = content.length)
    (filled : full.endOfFile = false → stream.bufferSize ≤ count) :
    AtOffset content (offset + count) (settleRead stream full).stream ∧
      (((settleRead stream full).chunk = none ∧ count = 0 ∧
          (settleRead stream full).stream.endOfStream = true) ∨
        ((settleRead stream full).chunk =
            some ⟨.streamBuffer, count, true⟩ ∧ 0 < count)) := by
  have notFailed : ¬ full.succeeded = false := by simp [succeeded]
  unfold settleRead
  dsimp only
  rw [if_neg notFailed, received]
  by_cases empty : count = 0 ∧ full.endOfFile = true
  · rw [if_pos empty]
    rcases empty with ⟨rfl, endOfFile⟩
    exact ⟨accounts.latch (ended endOfFile), Or.inl ⟨rfl, rfl, rfl⟩⟩
  · rw [if_neg empty]
    have credited := accounts.creditRead notEnded representable inside
    refine ⟨?_, Or.inr ⟨rfl, ?_⟩⟩
    · dsimp only
      split
      · rename_i endOfFile
        have atEnd := ended endOfFile
        split
        · exact credited.countShortRead.latch atEnd
        · exact credited.latch atEnd
      · split
        · exact credited.countShortRead
        · exact credited
    · -- an empty call that is not at the end would have an empty buffer
      rcases Nat.eq_zero_or_pos count with none_ | some_
      · have open_ : full.endOfFile = false := by
          simpa [none_] using empty
        have := filled open_
        omega
      · exact some_

theorem draining_buffered (content : List Byte)
    (representable : content.length < sizeLimit)
    (memory : Address → Byte) :
    Draining (regularFile content) memory content (BufferedAt content) where
  accounts := BufferedAt.accounts
  step := by
    intro offset stream side result starts notEnded returned
    rw [readChunk_eq_file _ starts.reads notEnded] at returned
    rcases (readChunkFile_delivers _ starts.reads side).of_returned returned
      with ⟨full, buffer, answer, spec, sized, front, rfl⟩
    have regular :=
      readLoop_regularFile content stream.bufferSize side.choices side.state
        side.transferred []
        (by rw [starts.fileOffset]; exact starts.accounts.inside) answer
    rcases regular.progress with ⟨count, bytes, state, inside⟩
    rw [starts.fileOffset] at bytes state inside
    rw [List.nil_append] at bytes
    have received : full.bytes.length = count := by
      rw [bytes, List.length_take, List.length_drop]
      omega
    have rebuffered : AtOffset content offset
        { stream with buffer := buffer } :=
      ⟨starts.accounts.inside, starts.accounts.mode,
        starts.accounts.position, starts.accounts.latched⟩
    have reads : ReadsDescriptor { stream with buffer := buffer } :=
      ⟨starts.reads.mode, starts.reads.fdBacked,
        sized.trans starts.reads.sized⟩
    have settled := settleRead_settled reads full front
    have continues :=
      settleRead_drains rebuffered notEnded representable starts.positive
        regular.succeeded received inside
        (fun ended => state.symm.trans (regular.ended ended))
        (fun open_ => received ▸ regular.filled open_)
    have holds :
        BufferedAt content (offset + count)
          (settleRead { stream with buffer := buffer } full).stream
          (settleRead { stream with buffer := buffer } full).side := by
      refine ⟨continues.1, settled.reads, ?_, ?_⟩
      · rw [settled.bufferSize]
        exact starts.positive
      · rw [settled.side, state]
    rcases continues.2 with ⟨noChunk, rfl, ended⟩ | ⟨handed, some_⟩
    · exact Or.inl ⟨noChunk, ended, holds⟩
    · have chunkBytes := settled.handed memory
      rw [handed, regular.succeeded] at chunkBytes
      refine Or.inr ⟨_, count, handed, some_, inside, ?_, holds⟩
      rw [← bytes]
      exact chunkBytes

/-- With enough answers of the kernel a call on a buffered stream returns. -/
theorem readChunk_buffered_returns {content : List Byte} {offset : Nat}
    {stream : Stream} {side : ReadSide Nat RegularChoice}
    (starts : BufferedAt content offset stream side)
    (representable : content.length < sizeLimit)
    (enough : stream.endOfStream = false →
      content.length < offset + answered side.choices) :
    ∃ result later,
      stream.readChunk (regularFile content) side = .ok result ∧
      BufferedAt content later result.stream result.side ∧
      (result.stream.endOfStream = false →
        content.length < later + answered result.side.choices) := by
  by_cases latched : stream.endOfStream = true
  · exact ⟨⟨none, stream, side⟩, offset, by simp [readChunk, latched],
      starts, enough⟩
  · have notEnded : stream.endOfStream = false := by simpa using latched
    rcases readLoop_regularFile_returns content stream.bufferSize
        side.choices side.state side.transferred []
        (by rw [starts.fileOffset]; exact starts.accounts.inside)
        (by rw [starts.fileOffset]; exact enough notEnded) with
      ⟨full, answer, left⟩
    rcases readChunkFile_returns _ starts.reads answer with
      ⟨result, returned⟩
    rw [← readChunk_eq_file _ starts.reads notEnded] at returned
    rcases readChunk_settled _ starts.reads notEnded side returned with
      ⟨full', answer', _, settled⟩
    cases (show Except.ok full = Except.ok full' from
      answer.symm.trans answer')
    have drains := draining_buffered content representable fun _ => 0
    have continues :
        ∃ later, BufferedAt content later result.stream result.side := by
      rcases drains.step starts notEnded returned with
        ⟨_, _, holds⟩ | ⟨_, count, _, _, _, _, holds⟩
      · exact ⟨offset, holds⟩
      · exact ⟨offset + count, holds⟩
    rcases continues with ⟨later, holds⟩
    have regular :=
      readLoop_regularFile content stream.bufferSize side.choices side.state
        side.transferred []
        (by rw [starts.fileOffset]; exact starts.accounts.inside) answer
    refine ⟨result, later, returned, holds, ?_⟩
    intro open_
    have notAtEnd : full.endOfFile = false := by
      simpa [settled.latched, notEnded, regular.succeeded] using open_
    rw [← holds.fileOffset, settled.side]
    exact left notAtEnd

/-- Any number of reads return, with an answer for each byte and the end. -/
theorem runReads_buffered_returns {content : List Byte} {offset : Nat}
    {memory : Address → Byte} {stream : Stream}
    {side : ReadSide Nat RegularChoice}
    (starts : BufferedAt content offset stream side)
    (representable : content.length < sizeLimit)
    (enough : content.length < offset + answered side.choices)
    (calls : Nat) :
    ∃ run, runReads (regularFile content) memory calls stream side =
      .ok run := by
  refine runReads_returns
    (fun stream side =>
      ∃ offset, BufferedAt content offset stream side ∧
        (stream.endOfStream = false →
          content.length < offset + answered side.choices))
    ?_ calls ⟨offset, starts, fun _ => enough⟩
  rintro stream side ⟨offset, holds, answers⟩
  rcases readChunk_buffered_returns holds representable answers with
    ⟨result, later, returned, continues, left⟩
  exact ⟨result, returned, later, continues, left⟩

/-! ## The memory-mapped branch -/

section Mapped

variable {State Choice : Type}

/-- A memory stream over a mapped file, `offset` bytes into it. -/
structure MappedAt (content : List Byte) (base : Address) (offset : Nat)
    (stream : Stream) (_side : ReadSide State Choice) : Prop where
  accounts : AtOffset content offset stream
  source : stream.sourceType = .memory
  data : stream.memoryData = some base
  size : stream.memorySize = content.length
  memoryPosition : stream.memoryPosition = offset
  positive : 0 < stream.bufferSize

/-- The mapped bytes are the bytes of the file. -/
theorem map_memory_eq_take {content : List Byte} {base : Address}
    {memory : Address → Byte}
    (mapped : ∀ index, index < content.length →
      memory (base + index) = content.getD index 0)
    {offset count : Nat} (inside : offset + count ≤ content.length) :
    ((List.range count).map fun index => memory (base + offset + index)) =
      (content.drop offset).take count := by
  apply List.ext_getElem
  · simp only [List.length_map, List.length_range, List.length_take,
      List.length_drop]
    omega
  · intro index left right
    have small : index < count := by
      simpa using left
    have here : offset + index < content.length := by
      omega
    simp only [List.getElem_map, List.getElem_range, List.getElem_take,
      List.getElem_drop, Nat.add_assoc]
    rw [mapped _ here, List.getD_eq_getElem?_getD,
      List.getElem?_eq_getElem here, Option.getD_some]

theorem draining_mapped (device : ReadDevice State Choice)
    {memory : Address → Byte} {content : List Byte} {base : Address}
    (representable : content.length < sizeLimit)
    (mapped : ∀ index, index < content.length →
      memory (base + index) = content.getD index 0) :
    Draining device memory content (MappedAt content base) where
  accounts := MappedAt.accounts
  step := by
    intro offset stream side result starts notEnded returned
    rw [readChunk_eq_memory device starts.accounts.mode starts.source
      notEnded, Except.ok.injEq] at returned
    subst returned
    have within := starts.accounts.inside
    by_cases atEnd : stream.memorySize ≤ stream.memoryPosition
    · rw [readChunkMemory_at_end atEnd]
      rw [starts.size, starts.memoryPosition] at atEnd
      refine Or.inl ⟨rfl, rfl, ?_⟩
      exact ⟨starts.accounts.latch (Nat.le_antisymm within atEnd),
        starts.source, starts.data, starts.size, starts.memoryPosition,
        starts.positive⟩
    · rw [readChunkMemory_before_end atEnd]
      generalize countEq : memoryChunkSize stream = count
      rw [starts.size, starts.memoryPosition] at atEnd
      have someLeft : 0 < count ∧ offset + count ≤ content.length := by
        have positive := starts.positive
        rw [memoryChunkSize, starts.size, starts.memoryPosition, sizeSub,
          wordSub_of_le within representable] at countEq
        split at countEq <;> omega
      rcases someLeft with ⟨positive, inside⟩
      have advanced : sizeAdd stream.memoryPosition count =
          offset + count := by
        rw [starts.memoryPosition]
        exact wordAdd_of_lt (Nat.lt_of_le_of_lt inside representable)
      have bytes :
          ((List.range count).map fun index =>
            memory (stream.memoryData.getD 0 + stream.memoryPosition +
              index)) = (content.drop offset).take count := by
        rw [starts.data, starts.memoryPosition]
        exact map_memory_eq_take mapped inside
      refine Or.inr ⟨_, count, rfl, positive, inside, bytes, ?_⟩
      have moved : AtOffset content offset
          { stream with
            memoryPosition := sizeAdd stream.memoryPosition count } :=
        ⟨within, starts.accounts.mode, starts.accounts.position,
          starts.accounts.latched⟩
      exact ⟨moved.creditRead notEnded representable inside, starts.source,
        starts.data, starts.size, advanced, starts.positive⟩

theorem readChunk_mapped_returns (device : ReadDevice State Choice)
    {content : List Byte} {base : Address} {offset : Nat}
    (representable : content.length < sizeLimit)
    {stream : Stream} {side : ReadSide State Choice}
    (starts : MappedAt content base offset stream side) :
    ∃ result later, stream.readChunk device side = .ok result ∧
      MappedAt content base later result.stream result.side := by
  by_cases latched : stream.endOfStream = true
  · exact ⟨⟨none, stream, side⟩, offset, by simp [readChunk, latched],
      starts⟩
  · have notEnded : stream.endOfStream = false := by simpa using latched
    have returned :=
      readChunk_eq_memory device starts.accounts.mode starts.source notEnded
        side
    have drains :
        Draining device (fun address => content.getD (address - base) 0)
          content (MappedAt content base) :=
      draining_mapped device representable
        fun index _ => by rw [Nat.add_sub_cancel_left]
    rcases drains.step starts notEnded returned with
      ⟨_, _, holds⟩ | ⟨_, count, _, _, _, _, holds⟩
    · exact ⟨_, offset, returned, holds⟩
    · exact ⟨_, offset + count, returned, holds⟩

/-- A stream over a mapping starts at its first byte. -/
theorem mappedAt_overMemory (content : List Byte) (base : Address)
    (side : ReadSide State Choice) :
    MappedAt content base 0 (overMemory (some base) content.length) side :=
  ⟨⟨Nat.zero_le _, rfl, rfl,
    fun ended => absurd ended (by simp [overMemory, initCommonFields])⟩,
    rfl, rfl, rfl, rfl,
    by simp [overMemory, initCommonFields, Io.defaultBufferSize]⟩

/-- Any number of reads from a mapping return. -/
theorem runReads_mapped_returns (device : ReadDevice State Choice)
    {content : List Byte} {base : Address} {offset : Nat}
    {memory : Address → Byte} (representable : content.length < sizeLimit)
    {stream : Stream} {side : ReadSide State Choice}
    (starts : MappedAt content base offset stream side) (calls : Nat) :
    ∃ run, runReads device memory calls stream side = .ok run := by
  refine runReads_returns
    (fun stream side => ∃ offset, MappedAt content base offset stream side)
    ?_ calls ⟨offset, starts⟩
  rintro stream side ⟨offset, holds⟩
  rcases readChunk_mapped_returns device representable holds with
    ⟨result, later, returned, continues⟩
  exact ⟨result, returned, later, continues⟩

end Mapped

/-! ## Whole drains of an automatic open -/

/-- The stream knows the size of the file, or knows that it does not. -/
structure Sized (content : List Byte) (known : Bool) (stream : Stream) :
    Prop where
  flagged : stream.totalSizeKnown = known
  counted : known = true → stream.totalSize = content.length

/-- Reading does not change what is known of the size. -/
theorem Sized.after_reads {content : List Byte} {known : Bool}
    {before after : Stream} (sized : Sized content known before)
    (same : SameSource before after) : Sized content known after :=
  ⟨same.totalSizeKnown.trans sized.flagged,
    fun isKnown => same.totalSize.trans (sized.counted isKnown)⟩

/--
What a handle and its stream report once the file has been handed out.  The
total and the remaining size are reported if the size is known.
-/
structure FullyRead {State Choice : Type}
    (device : ReadDevice State Choice) (content : List Byte) (known : Bool)
    (handle : ReadHandle) (stream : Stream) : Prop where
  ended : stream.isEndOfStream = true
  position : stream.currentPosition = content.length
  total : stream.totalSize? = if known then some content.length else none
  remaining : stream.remainingBytes = if known then some 0 else none
  size : handle.getSize = content.length
  further : ∀ side, stream.readChunk device side = .ok ⟨none, stream, side⟩

theorem AtOffset.fullyRead {State Choice : Type} {content : List Byte}
    {known : Bool} {offset : Nat} {stream : Stream} {handle : ReadHandle}
    (device : ReadDevice State Choice)
    (accounts : AtOffset content offset stream)
    (sized : Sized content known stream)
    (representable : content.length < sizeLimit)
    (ended : stream.endOfStream = true)
    (size : handle.fileSize = content.length) :
    FullyRead device content known handle stream where
  ended := ended
  position := accounts.position.trans (accounts.latched ended)
  total := by
    rw [totalSize?, sized.flagged]
    split
    · rename_i isKnown
      rw [sized.counted isKnown]
    · rfl
  remaining := by
    have atEnd := accounts.latched ended
    rw [remainingBytes, sized.flagged]
    split
    · rename_i isKnown
      rw [sized.counted isKnown, accounts.position, atEnd, sizeSub,
        wordSub_of_le (Nat.le_refl _) representable, Nat.sub_self]
    · rfl
  size := size
  further := by
    intro side
    simp [readChunk, ended]

/-- A run that drains a file from its start, in the terms of its caller. -/
theorem DrainedFrom.whole {State Choice : Type} {content : List Byte}
    {known : Bool} {calls : Nat} {memory : Address → Byte}
    {device : ReadDevice State Choice}
    {holds : Nat → Stream → ReadSide State Choice → Prop}
    {run : ReadRun State Choice} {handle : ReadHandle}
    (draining : Draining device memory content holds)
    (drained : DrainedFrom content 0 calls holds run)
    (sized : Sized content known run.stream)
    (representable : content.length < sizeLimit)
    (size : handle.fileSize = content.length) :
    (∀ bytes, some bytes ∈ run.results → bytes ≠ []) ∧
      (content.length < calls →
        none ∈ run.results.take (content.length + 1)) ∧
      (none ∈ run.results →
        run.handed = content ∧
          FullyRead device content known handle run.stream) := by
  refine ⟨drained.nonempty, ?_, ?_⟩
  · intro beyond
    exact drained.bounded (by omega)
  · intro stopped
    rcases drained.reached with ⟨count, handed, holds⟩
    have accounts := draining.accounts holds
    have ended := drained.ended stopped
    have all : count = content.length := by
      simpa using accounts.latched ended
    refine ⟨?_, accounts.fullyRead device sized representable ended size⟩
    rw [handed, all, List.drop_zero, List.take_length]

/-- A size that can be asked for is served with a buffer of at least one byte. -/
theorem alignedSize_pos (world : World) {options : OpenOptions}
    (bounded : options.bufferSize ≤ 2 ^ 63) :
    0 < Stream.alignedSize world options.effectiveBufferSize .file := by
  have positive : 0 < options.effectiveBufferSize := by
    unfold OpenOptions.effectiveBufferSize openDefaultBufferSize
    split <;> omega
  have fits : options.effectiveBufferSize + 63 < sizeLimit := by
    unfold OpenOptions.effectiveBufferSize openDefaultBufferSize
    simp only [sizeLimit, wordLimit]
    split <;> omega
  exact Nat.lt_of_lt_of_le positive
    (le_alignedSize world .file positive fits).1

/-- The stream of a buffered open stands at the start of the file. -/
theorem BufferedOpen.starts {world after before : World}
    {content : List Byte} {options : OpenOptions} {handle : ReadHandle}
    {descriptor : Descriptor} {stream : Pooled Stream}
    (opened :
      BufferedOpen world after (.regular content) options handle before
        descriptor stream)
    (bounded : options.bufferSize ≤ 2 ^ 63)
    (choices : List RegularChoice) :
    BufferedAt content 0 stream.value (freshlyOpened choices) := by
  rcases opened.opened.fields with
    ⟨arena, buffer, size, total, length, aligned, fields, _⟩
  have positive : 0 < stream.value.bufferSize := by
    rw [fields]
    change 0 < size
    rw [aligned]
    exact alignedSize_pos before bounded
  refine ⟨⟨Nat.zero_le _, ?_, ?_, ?_⟩, ⟨?_, ?_, ?_⟩, positive, rfl⟩
  · rw [fields]; rfl
  · rw [fields]; rfl
  · rw [fields]
    intro ended
    exact absurd ended (by simp [initCommonFields])
  · rw [fields]; rfl
  · rw [fields]
    simp [initCommonFields]
  · rw [fields]
    exact length

/-- It knows the size if its own `fstat`, the second of the open, succeeds. -/
theorem BufferedOpen.sized {world after before : World}
    {content : List Byte} {options : OpenOptions} {handle : ReadHandle}
    {descriptor : Descriptor} {stream : Pooled Stream}
    (opened :
      BufferedOpen world after (.regular content) options handle before
        descriptor stream) :
    Sized content (decide ((world.passed .fstat).fault .fstat = none))
      stream.value := by
  rcases opened.opened.fields with
    ⟨arena, buffer, size, total, _, _, fields, isTotal⟩
  have answers :
      before.fault .fstat = (world.passed .fstat).fault .fstat := by
    simp [World.fault, World.passed, opened.fstatFaults]
  have total? :
      total =
        if (world.passed .fstat).fault .fstat = none then
          some content.length
        else
          none := by
    rw [isTotal rfl rfl, Io.getFileSize, World.fstat, answers,
      nodeOf_head opened.openFiles]
    cases (world.passed .fstat).fault .fstat <;> rfl
  rw [fields, total?]
  by_cases statted : (world.passed .fstat).fault .fstat = none
  · simp only [if_pos statted, decide_eq_true statted]
    exact ⟨rfl, fun _ => rfl⟩
  · simp only [if_neg statted, decide_eq_false statted]
    exact ⟨rfl, Bool.noConfusion⟩

/-- What it reads is the file that its descriptor was opened on. -/
theorem BufferedOpen.fileBehind {world after before : World}
    {content : List Byte} {options : OpenOptions} {handle : ReadHandle}
    {descriptor : Descriptor} {stream : Pooled Stream}
    (opened :
      BufferedOpen world after (.regular content) options handle before
        descriptor stream) :
    File.fileBehind after stream.value.fileDescriptor =
      regularFile content := by
  rcases opened.opened.fields with ⟨arena, buffer, size, total, _, _, fields, _⟩
  have isOpen : after.nodeOf stream.value.fileDescriptor =
      some (.regular content) := by
    rw [fields]
    exact nodeOf_head (opened.opened.openFiles.trans opened.openFiles)
  rw [File.fileBehind, isOpen]

/--
Repeated reads deliver the same file on both branches of
`bc_io_file_open_auto`, whatever the threshold, the buffer size and the short
reads and interruptions of the kernel.

Every chunk has at least one byte.  The first call that returns `false` comes
after at most one call for each byte of the file; then the chunks are the
whole file, position and handle size agree, and every further call changes
nothing.  The total and the remaining size agree with them on the mapped branch;
on the buffered one they are unknown if the second `fstat` fails, which the open
survives.  The kernel keeps no call waiting that has an answer for each byte
and one for the end.
-/
theorem openAuto_drains_content (world opened : World) (path : Path)
    (mmapThreshold : Nat) (options : OpenOptions) (content : List Byte)
    (handle : ReadHandle)
    (named : world.files path = some (.regular content))
    (representable : content.length < 2 ^ 63)
    (bounded : options.bufferSize ≤ 2 ^ 63)
    (succeeded :
      openAuto world path mmapThreshold options = (some handle, opened)) :
    ∃ stream, handle.getStream = some stream ∧
      (handle.isMemoryMapped = true ↔
        effectiveThreshold mmapThreshold ≤ content.length) ∧
      ∀ choices calls,
        (content.length < answered choices →
          ∃ run,
            runReads (fileBehind opened stream.value.fileDescriptor)
              opened.memory calls stream.value (freshlyOpened choices) =
                .ok run) ∧
        ∀ run,
          runReads (fileBehind opened stream.value.fileDescriptor)
              opened.memory calls stream.value (freshlyOpened choices) =
                .ok run →
            (∀ bytes, some bytes ∈ run.results → bytes ≠ []) ∧
              (content.length < calls →
                none ∈ run.results.take (content.length + 1)) ∧
              (none ∈ run.results →
                run.handed = content ∧
                  FullyRead (fileBehind opened stream.value.fileDescriptor)
                    content
                    (decide
                      (effectiveThreshold mmapThreshold ≤ content.length ∨
                        (world.passed .fstat).fault .fstat = none))
                    handle run.stream) := by
  have fits : content.length < sizeLimit := by
    simp only [sizeLimit, wordLimit]
    omega
  rcases openAuto_some succeeded with
    ⟨node, sameNode, fileSize, ⟨below, before, descriptor, stream, buffered⟩ |
      ⟨atLeast, before, _, base, mapBlock, streamBlock, _, _, mapped⟩⟩
  · cases named.symm.trans sameNode
    have drains := draining_buffered content fits opened.memory
    have notMapped : ¬ effectiveThreshold mmapThreshold ≤ content.length :=
      Nat.not_le.mpr below
    refine ⟨stream, by simp [ReadHandle.getStream, buffered.source], ?_, ?_⟩
    · simp only [ReadHandle.isMemoryMapped, buffered.source,
        Bool.false_eq_true, false_iff]
      exact notMapped
    · intro choices calls
      have starts := buffered.starts bounded choices
      rw [buffered.fileBehind]
      constructor
      · intro enough
        exact runReads_buffered_returns starts fits
          (by simpa [freshlyOpened] using enough) calls
      · intro run returned
        have same :=
          runReads_sameSource (regularFile content) opened.memory calls
            returned
        have whole :=
          (drains.runReads calls starts returned).whole drains
            (buffered.sized.after_reads same) fits fileSize
        simpa only [notMapped, false_or] using whole
  · cases named.symm.trans sameNode
    have shown :
        ∀ index, index < content.length →
          opened.memory (base + index) = content.getD index 0 :=
      mapped.memory
    refine ⟨⟨streamBlock, overMemory (some base) content.length⟩,
      by simp [ReadHandle.getStream, mapped.source, FileNode.statSize],
      ?_, ?_⟩
    · simp only [ReadHandle.isMemoryMapped, mapped.source, true_iff]
      exact atLeast
    · intro choices calls
      -- a stream over memory asks no device
      generalize
        fileBehind opened (overMemory (some base)
          content.length).fileDescriptor = device
      have drains := draining_mapped device fits shown
      have starts := mappedAt_overMemory content base (freshlyOpened choices)
      constructor
      · intro _
        exact runReads_mapped_returns device fits starts calls
      · intro run returned
        have same :=
          runReads_sameSource device opened.memory calls returned
        have sized :
            Sized content true (overMemory (some base) content.length) :=
          ⟨rfl, fun _ => rfl⟩
        have whole :=
          (drains.runReads calls starts returned).whole drains
            (sized.after_reads same) fits fileSize
        have isMapped : effectiveThreshold mmapThreshold ≤ content.length :=
          atLeast
        simpa only [isMapped, true_or, decide_true] using whole

/-- A file of three bytes can be opened and drained. -/
def DrainsThree (mmapThreshold : Nat) : Prop :=
  ∃ handle opened stream run,
    openAuto oneFile [102] mmapThreshold ⟨false, false, 1⟩ =
        (some handle, opened) ∧
      handle.getStream = some stream ∧
      runReads (fileBehind opened stream.value.fileDescriptor) opened.memory 4
        stream.value
        (freshlyOpened [.upTo 1, .interrupted, .upTo 5, .upTo 0, .upTo 0]) =
          .ok run ∧
      run.handed = [1, 2, 3]

/-- Three bytes, drained through a buffer and through a mapping. -/
theorem openAuto_drains_content_both : DrainsThree 0 ∧ DrainsThree 2 := by
  have drains :
      ∀ mmapThreshold handle opened,
        openAuto oneFile [102] mmapThreshold ⟨false, false, 1⟩ =
            (some handle, opened) →
          DrainsThree mmapThreshold := by
    intro mmapThreshold handle opened succeeded
    rcases
        openAuto_drains_content oneFile opened [102] mmapThreshold
          ⟨false, false, 1⟩ [1, 2, 3] handle rfl (by decide) (by decide)
          succeeded with
      ⟨stream, got, _, drained⟩
    have drain :=
      drained [.upTo 1, .interrupted, .upTo 5, .upTo 0, .upTo 0] 4
    rcases drain.1 (by decide) with ⟨run, returned⟩
    have whole := drain.2 run returned
    have stopped : none ∈ run.results :=
      List.mem_of_mem_take (whole.2.1 (by decide))
    exact ⟨handle, opened, stream, run, succeeded, got, returned,
      (whole.2.2 stopped).1⟩
  exact ⟨drains 0 _ _ rfl, drains 2 _ _ rfl⟩

/-- The same file, when the second `fstat` fails. -/
def statsOnce : World :=
  { oneFile with
    faults := fun kind =>
      if kind = .fstat then [none, some Errno.eio] else [] }

/--
The buffered branch opens and delivers the whole file, and its stream reports
neither a total size nor what remains.
-/
theorem openAuto_size_unknown :
    ∃ handle opened stream run,
      openAuto statsOnce [102] 0 ⟨false, false, 1⟩ = (some handle, opened) ∧
        handle.getStream = some stream ∧
        runReads (fileBehind opened stream.value.fileDescriptor)
          opened.memory 4 stream.value
          (freshlyOpened [.upTo 0, .upTo 0, .upTo 0, .upTo 0]) = .ok run ∧
        none ∈ run.results ∧
        run.handed = [1, 2, 3] ∧
        run.stream.totalSize? = none ∧
        run.stream.remainingBytes = none :=
  ⟨_, _, _, _, rfl, rfl, rfl, by decide, by decide, rfl, rfl⟩

end BcIo.File
