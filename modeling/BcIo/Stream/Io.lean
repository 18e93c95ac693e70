import BcIo.Stream.State

/-!
# The full-transfer loops

`bc_io_stream_io_read_full` and `bc_io_stream_io_write_full` repeat a system
call until the whole request is served.  The kernel is a script: one outcome
for each call that will be made, consumed from the front.  A loop whose script
runs out has not returned yet, which is the result `Halt.waiting`; every
statement about a returned call is a statement about a script that was long
enough, and no number of retries is fixed in advance.
-/

namespace BcIo.Stream

open BcIo.Foundation

/-! ## Writing -/

/--
One outcome of `write(2)`: the kernel takes up to `count` of the offered bytes,
or the call fails.
-/
inductive WriteOutcome where
  | accepted (count : Nat)
  | failed (errno : Errno)
  deriving DecidableEq, Repr

/-- The far side of a descriptor open for writing. -/
structure WriteSide where
  /-- The bytes `write(2)` has accepted so far, in order. -/
  accepted : List Byte
  /-- The outcomes of the `write(2)` calls still to come. -/
  outcomes : List WriteOutcome
  deriving DecidableEq, Repr

/-- What `bc_io_stream_io_write_full` returns and leaves behind. -/
structure WriteFullResult where
  succeeded : Bool
  bytesWritten : Nat
  side : WriteSide
  deriving DecidableEq, Repr

namespace Io

/-- The `while` loop of `bc_io_stream_io_write_full`. -/
def writeLoop (data : List Byte) :
    List WriteOutcome → List Byte → Nat → Except Halt WriteFullResult
  | [], accepted, totalWritten =>
      if totalWritten < data.length then
        .error .waiting
      else
        .ok ⟨true, totalWritten, ⟨accepted, []⟩⟩
  | outcome :: rest, accepted, totalWritten =>
      if totalWritten < data.length then
        match outcome with
        | .accepted count =>
            -- a kernel never takes more than it was offered
            let offered := data.drop totalWritten
            writeLoop data rest (accepted ++ offered.take count)
              (totalWritten + min count offered.length)
        | .failed errno =>
            if errno = Errno.eintr then
              writeLoop data rest accepted totalWritten
            else if errno = Errno.eagain then
              .ok ⟨true, totalWritten, ⟨accepted, rest⟩⟩
            else
              .ok ⟨false, totalWritten, ⟨accepted, rest⟩⟩
      else
        .ok ⟨true, totalWritten, ⟨accepted, outcome :: rest⟩⟩

/-- `bc_io_stream_io_write_full`. -/
def writeFull (data : List Byte) (side : WriteSide) :
    Except Halt WriteFullResult :=
  writeLoop data side.outcomes side.accepted 0

/-- What a returned `bc_io_stream_io_write_full` guarantees. -/
structure WriteFullSpec (data before : List Byte)
    (result : WriteFullResult) : Prop where
  bounded : result.bytesWritten ≤ data.length
  accepted :
    result.side.accepted = before ++ data.take result.bytesWritten
  failure : result.succeeded = false → result.bytesWritten < data.length

/--
The loop invariant: what the kernel has taken during this call is the prefix
of `data` of length `totalWritten`.
-/
theorem writeLoop_spec (data before : List Byte)
    (outcomes : List WriteOutcome) (accepted : List Byte)
    (totalWritten : Nat) (result : WriteFullResult)
    (bounded : totalWritten ≤ data.length)
    (taken : accepted = before ++ data.take totalWritten)
    (returned :
      writeLoop data outcomes accepted totalWritten = .ok result) :
    WriteFullSpec data before result := by
  induction outcomes generalizing accepted totalWritten with
  | nil =>
      by_cases unfinished : totalWritten < data.length
      · simp [writeLoop, unfinished] at returned
      · simp only [writeLoop, if_neg unfinished, Except.ok.injEq] at returned
        subst returned
        exact ⟨bounded, taken, by simp⟩
  | cons outcome rest induction =>
      by_cases unfinished : totalWritten < data.length
      · simp only [writeLoop, if_pos unfinished] at returned
        cases outcome with
        | accepted count =>
            refine induction _ _ ?_ ?_ returned
            · simp only [List.length_drop]
              omega
            · rw [taken, List.append_assoc, List.take_add,
                List.take_eq_take_min (i := count)]
        | failed errno =>
            simp only at returned
            split at returned
            · exact induction _ _ bounded taken returned
            · split at returned
              · cases returned
                exact ⟨bounded, taken, by simp⟩
              · cases returned
                exact ⟨bounded, taken, fun _ => unfinished⟩
      · simp only [writeLoop, if_neg unfinished, Except.ok.injEq] at returned
        subst returned
        exact ⟨bounded, taken, by simp⟩

/-- How an attempt to send a number of bytes ends. -/
inductive Sending where
  /-- The outcomes are used up before the bytes are sent. -/
  | waiting
  /-- Everything is sent; `rest` are the outcomes still to come. -/
  | whole (rest : List WriteOutcome)
  /-- `EAGAIN` arrives first. -/
  | blocked
  /-- A hard error arrives first. -/
  | broken
  deriving DecidableEq, Repr

/-- How the outcomes to come end an attempt to send `unsent` bytes. -/
def sends : List WriteOutcome → Nat → Sending
  | [], unsent => if 0 < unsent then .waiting else .whole []
  | outcome :: rest, unsent =>
      if 0 < unsent then
        match outcome with
        | .accepted count => sends rest (unsent - count)
        | .failed errno =>
            if errno = Errno.eintr then sends rest unsent
            else if errno = Errno.eagain then .blocked
            else .broken
      else
        .whole (outcome :: rest)

/-- The outcomes alone decide how a returned write loop has ended. -/
theorem writeLoop_sends (data : List Byte) (outcomes : List WriteOutcome)
    (accepted : List Byte) (totalWritten : Nat)
    {result : WriteFullResult}
    (returned :
      writeLoop data outcomes accepted totalWritten = .ok result) :
    sends outcomes (data.length - totalWritten) =
      if result.bytesWritten < data.length then
        if result.succeeded then .blocked else .broken
      else .whole result.side.outcomes := by
  induction outcomes generalizing accepted totalWritten with
  | nil =>
      by_cases unfinished : totalWritten < data.length
      · simp [writeLoop, unfinished] at returned
      · have sent : data.length - totalWritten = 0 := by
          omega
        simp only [writeLoop, if_neg unfinished, Except.ok.injEq] at returned
        subst returned
        simp [sends, unfinished, sent]
  | cons outcome rest induction =>
      by_cases unfinished : totalWritten < data.length
      · have unsent : 0 < data.length - totalWritten :=
          Nat.sub_pos_of_lt unfinished
        simp only [writeLoop, if_pos unfinished] at returned
        simp only [sends, if_pos unsent]
        cases outcome with
        | accepted count =>
            have left :
                data.length - totalWritten - count =
                  data.length -
                    (totalWritten +
                      min count (data.drop totalWritten).length) := by
              rw [List.length_drop]
              omega
            simp only [left]
            exact induction _ _ returned
        | failed errno =>
            simp only at returned ⊢
            split at returned
            · rename_i interrupted
              rw [if_pos interrupted]
              exact induction _ _ returned
            · rename_i notInterrupted
              rw [if_neg notInterrupted]
              split at returned
              · rename_i wouldBlock
                cases returned
                simp [wouldBlock, unfinished]
              · rename_i hard
                cases returned
                simp [hard, unfinished]
      · have sent : data.length - totalWritten = 0 := by
          omega
        simp only [writeLoop, if_neg unfinished, Except.ok.injEq] at returned
        subst returned
        simp [sends, unfinished, sent]

/-- The write loop only ever stops for want of outcomes. -/
theorem writeLoop_ne_overrun (data : List Byte)
    (outcomes : List WriteOutcome) (accepted : List Byte)
    (totalWritten : Nat) :
    writeLoop data outcomes accepted totalWritten ≠ .error .overrun := by
  induction outcomes generalizing accepted totalWritten with
  | nil =>
      by_cases unfinished : totalWritten < data.length <;>
        simp [writeLoop, unfinished]
  | cons outcome rest induction =>
      by_cases unfinished : totalWritten < data.length
      · cases outcome with
        | accepted count =>
            simpa only [writeLoop, if_pos unfinished] using induction _ _
        | failed errno =>
            simp only [writeLoop, if_pos unfinished]
            split
            · exact induction _ _
            · split <;> simp
      · simp [writeLoop, unfinished]

/-- A write of the whole of `data` keeps to its allocation and to its spec. -/
theorem writeFull_delivers (data : List Byte) (side : WriteSide) :
    Delivers (WriteFullSpec data side.accepted) (writeFull data side) :=
  Delivers.of_forall
    (writeLoop_ne_overrun data side.outcomes side.accepted 0)
    fun result returned =>
      writeLoop_spec data side.accepted side.outcomes side.accepted 0 result
        (Nat.zero_le _) (by simp) returned

theorem writeFull_sends (data : List Byte) (side : WriteSide)
    {result : WriteFullResult} (returned : writeFull data side = .ok result) :
    sends side.outcomes data.length =
      if result.bytesWritten < data.length then
        if result.succeeded then .blocked else .broken
      else .whole result.side.outcomes :=
  writeLoop_sends data side.outcomes side.accepted 0 returned

end Io

/-! ## Reading -/

/--
One outcome of `read(2)`: the bytes it put into the caller's memory, none at
the end of the input, or a failure.
-/
inductive ReadOutcome where
  | transferred (bytes : List Byte)
  | failed (errno : Errno)
  deriving DecidableEq, Repr

/--
A descriptor open for reading: how `read(2)` answers a request of a given size,
from the state of what is behind the descriptor and a choice left to the
kernel.
-/
structure ReadDevice (State Choice : Type) where
  read : State → Choice → Nat → ReadOutcome × State

/--
A descriptor about which nothing is known: each choice is the outcome itself,
so that every sequence of outcomes occurs.
-/
def scriptedDevice : ReadDevice Unit ReadOutcome where
  read _ outcome _ := (outcome, ())

/-- The far side of a descriptor open for reading. -/
structure ReadSide (State Choice : Type) where
  state : State
  /-- The bytes `read(2)` has transferred so far, in order. -/
  transferred : List Byte
  /-- The choices behind the `read(2)` calls still to come. -/
  choices : List Choice

/--
What `bc_io_stream_io_read_full` returns and leaves behind.  `bytes` are the
bytes it put at the front of the caller's memory; their number is
`*out_bytes_read` on every return.
-/
structure ReadFullResult (State Choice : Type) where
  succeeded : Bool
  bytes : List Byte
  endOfFile : Bool
  side : ReadSide State Choice

namespace Io

variable {State Choice : Type}

/--
One call of `read(2)`.  The kernel never transfers more than was asked for,
whatever the device holds.
-/
def sysRead (device : ReadDevice State Choice) (state : State)
    (choice : Choice) (requested : Nat) : ReadOutcome × State :=
  match device.read state choice requested with
  | (.transferred bytes, after) => (.transferred (bytes.take requested), after)
  | (.failed errno, after) => (.failed errno, after)

/-- The `while` loop of `bc_io_stream_io_read_full`. -/
def readLoop (device : ReadDevice State Choice) (requested : Nat) :
    List Choice → State → List Byte → List Byte →
      Except Halt (ReadFullResult State Choice)
  | [], state, transferred, bytes =>
      if bytes.length < requested then
        .error .waiting
      else
        .ok ⟨true, bytes, false, ⟨state, transferred, []⟩⟩
  | choice :: rest, state, transferred, bytes =>
      if bytes.length < requested then
        match sysRead device state choice (requested - bytes.length) with
        | (.transferred received, after) =>
            if 0 < received.length then
              readLoop device requested rest after
                (transferred ++ received) (bytes ++ received)
            else
              .ok ⟨true, bytes, true, ⟨after, transferred, rest⟩⟩
        | (.failed errno, after) =>
            if errno = Errno.eintr then
              readLoop device requested rest after transferred bytes
            else if errno = Errno.eagain then
              .ok ⟨true, bytes, false, ⟨after, transferred, rest⟩⟩
            else
              .ok ⟨false, bytes, false, ⟨after, transferred, rest⟩⟩
      else
        .ok ⟨true, bytes, false, ⟨state, transferred, choice :: rest⟩⟩

/-- `bc_io_stream_io_read_full`. -/
def readFull (device : ReadDevice State Choice) (requested : Nat)
    (side : ReadSide State Choice) :
    Except Halt (ReadFullResult State Choice) :=
  readLoop device requested side.choices side.state side.transferred []

/-- What a returned `bc_io_stream_io_read_full` guarantees. -/
structure ReadFullSpec (requested : Nat) (before : List Byte)
    (result : ReadFullResult State Choice) : Prop where
  bounded : result.bytes.length ≤ requested
  transferred : result.side.transferred = before ++ result.bytes
  ended : result.endOfFile = true → result.succeeded = true

theorem sysRead_bounded (device : ReadDevice State Choice) (state : State)
    (choice : Choice) (requested : Nat) {received : List Byte}
    {after : State}
    (answer :
      sysRead device state choice requested = (.transferred received, after)) :
    received.length ≤ requested := by
  unfold sysRead at answer
  split at answer
  · simp only [Prod.mk.injEq, ReadOutcome.transferred.injEq] at answer
    rw [← answer.1, List.length_take]
    exact Nat.min_le_left _ _
  · simp at answer

/--
The loop invariant: what `read(2)` has transferred during this call is what
stands at the front of the buffer.
-/
theorem readLoop_spec (device : ReadDevice State Choice) (requested : Nat)
    (before : List Byte) (choices : List Choice) (state : State)
    (transferred bytes : List Byte)
    (bounded : bytes.length ≤ requested)
    (filled : transferred = before ++ bytes) :
    Delivers (ReadFullSpec requested before)
      (readLoop device requested choices state transferred bytes) := by
  induction choices generalizing state transferred bytes with
  | nil =>
      by_cases unfinished : bytes.length < requested
      · simp [readLoop, unfinished, Delivers]
      · simp only [readLoop, if_neg unfinished]
        exact ⟨bounded, filled, by simp⟩
  | cons choice rest induction =>
      by_cases unfinished : bytes.length < requested
      · simp only [readLoop, if_pos unfinished]
        split
        · rename_i received after answer
          have short := sysRead_bounded device state choice _ answer
          split
          · refine induction after _ _ ?_ ?_
            · rw [List.length_append]
              omega
            · rw [filled, List.append_assoc]
          · exact ⟨bounded, filled, by simp⟩
        · rename_i errno after answer
          split
          · exact induction after _ _ bounded filled
          · split
            · exact ⟨bounded, filled, by simp⟩
            · exact ⟨bounded, filled, by simp⟩
      · simp only [readLoop, if_neg unfinished]
        exact ⟨bounded, filled, by simp⟩

/-- A full buffer ends the loop without another call. -/
theorem readLoop_of_full (device : ReadDevice State Choice)
    {requested : Nat} (choices : List Choice) (state : State)
    (transferred : List Byte) {bytes : List Byte}
    (full : requested ≤ bytes.length) :
    readLoop device requested choices state transferred bytes =
      .ok ⟨true, bytes, false, ⟨state, transferred, choices⟩⟩ := by
  have finished : ¬ bytes.length < requested := Nat.not_lt.mpr full
  cases choices <;> simp only [readLoop, if_neg finished]

/-- What one turn of the loop does with an outcome, before the buffer is full. -/
theorem readLoop_turn {requested : Nat} {outcome : ReadOutcome}
    {rest : List ReadOutcome} {transferred bytes : List Byte}
    (unfinished : bytes.length < requested)
    {full : ReadFullResult Unit ReadOutcome}
    (returned :
      readLoop scriptedDevice requested (outcome :: rest) () transferred
        bytes = .ok full) :
    (outcome = .transferred [] ∧
      full = ⟨true, bytes, true, ⟨(), transferred, rest⟩⟩) ∨
    (∃ received, outcome = .transferred received ∧ received ≠ [] ∧
      readLoop scriptedDevice requested rest ()
        (transferred ++ received.take (requested - bytes.length))
        (bytes ++ received.take (requested - bytes.length)) = .ok full) ∨
    (outcome = .failed Errno.eintr ∧
      readLoop scriptedDevice requested rest () transferred bytes =
        .ok full) ∨
    (outcome = .failed Errno.eagain ∧
      full = ⟨true, bytes, false, ⟨(), transferred, rest⟩⟩) ∨
    ∃ errno, outcome = .failed errno ∧ errno ≠ Errno.eintr ∧
      errno ≠ Errno.eagain ∧
      full = ⟨false, bytes, false, ⟨(), transferred, rest⟩⟩ := by
  simp only [readLoop, if_pos unfinished, sysRead, scriptedDevice]
    at returned
  cases outcome with
  | transferred received =>
      simp only at returned
      split at returned
      · rename_i nonempty
        refine Or.inr (Or.inl ⟨received, rfl, ?_, returned⟩)
        rintro rfl
        exact absurd nonempty (by simp)
      · rename_i empty
        have nothing : received = [] := by
          rw [List.length_take, Nat.not_lt, Nat.le_zero] at empty
          exact List.eq_nil_of_length_eq_zero (by omega)
        cases returned
        exact Or.inl ⟨by rw [nothing], rfl⟩
  | failed errno =>
      simp only at returned
      split at returned
      · rename_i interrupted
        rw [interrupted]
        exact Or.inr (Or.inr (Or.inl ⟨rfl, returned⟩))
      · rename_i notInterrupted
        split at returned
        · rename_i wouldBlock
          rw [wouldBlock]
          cases returned
          exact Or.inr (Or.inr (Or.inr (Or.inl ⟨rfl, rfl⟩)))
        · rename_i hard
          cases returned
          exact Or.inr (Or.inr (Or.inr (Or.inr
            ⟨errno, rfl, notInterrupted, hard, rfl⟩)))

theorem readFull_delivers (device : ReadDevice State Choice)
    (requested : Nat) (side : ReadSide State Choice) :
    Delivers (ReadFullSpec requested side.transferred)
      (readFull device requested side) :=
  readLoop_spec device requested side.transferred side.choices side.state
    side.transferred [] (Nat.zero_le _) (by simp)

end Io

end BcIo.Stream
