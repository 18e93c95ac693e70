import BcIo.Stream.Io
import BcIo.Foundation.Filling

/-!
# Whether the full-transfer loops end

Here the outcomes of the system calls go on for ever, and a loop that ends has
ended after finitely many of them.  Both loops go on after an interruption and
after some bytes; they differ in what they do after no bytes.
-/

namespace BcIo.Stream

open BcIo.Foundation.Filling

/-- Some of the outcomes to come, from a call on. -/
def upcoming {α : Type} (outcomes : Nat → α) (start count : Nat) : List α :=
  (List.range' start count).map outcomes

theorem upcoming_succ {α : Type} (outcomes : Nat → α) (start count : Nat) :
    upcoming outcomes start (count + 1) =
      outcomes start :: upcoming outcomes (start + 1) count :=
  rfl

/-- The count that `write(2)` returns, none if it fails. -/
def WriteOutcome.count : WriteOutcome → Nat
  | .accepted count => count
  | .failed _ => 0

/-- The count that `read(2)` returns, none if it fails. -/
def ReadOutcome.count : ReadOutcome → Nat
  | .transferred bytes => bytes.length
  | .failed _ => 0

/-! ## Writing -/

/-- The outcomes after which `bc_io_stream_io_write_full` goes on. -/
def WriteOutcome.Continues : WriteOutcome → Prop
  | .accepted _ => True
  | .failed errno => errno = Errno.eintr

/--
`bc_io_stream_io_write_full` returns after finitely many calls, with a count that
is at most the size and the sum of what the calls have taken.
-/
def WriteEnds (data : List Byte) (outcomes : Nat → WriteOutcome) : Prop :=
  ∃ calls result,
    Io.writeFull data ⟨[], upcoming outcomes 0 calls⟩ = .ok result ∧
      result.side.outcomes = [] ∧
      result.bytesWritten ≤ data.length ∧
      result.bytesWritten =
        ∑ call ∈ Finset.range calls,
          portion data.length (fun call => (outcomes call).count) call

/--
From some call on `write(2)` takes nothing, without a failure, before it has
taken everything.
-/
def Stalls (size : Nat) (outcomes : Nat → WriteOutcome) : Prop :=
  ∃ start, (∀ call ≥ start, outcomes call = .accepted 0) ∧
    (∀ call < start, (outcomes call).Continues) ∧
    ∑ call ∈ Finset.range start, (outcomes call).count < size

section Writing

variable {data : List Byte} {outcomes : Nat → WriteOutcome}

/-- What the calls before a call have taken. -/
def written (data : List Byte) (outcomes : Nat → WriteOutcome) : Nat → Nat :=
  filled data.length fun call => (outcomes call).count

/-- The loop makes a call and goes on after it. -/
def WritesOn (data : List Byte) (outcomes : Nat → WriteOutcome)
    (call : Nat) : Prop :=
  written data outcomes call < data.length ∧ (outcomes call).Continues

/-- A failed call takes nothing. -/
theorem written_of_failed {start : Nat} {errno : Errno}
    (failed : outcomes start = .failed errno) :
    written data outcomes (start + 1) = written data outcomes start :=
  filled_succ_of_zero (by rw [failed]; rfl)

/-- One turn of the write loop. -/
theorem writeLoop_step {start : Nat} (goesOn : WritesOn data outcomes start)
    (accepted : List Byte) :
    ∃ later, ∀ rest,
      Io.writeLoop data (outcomes start :: rest) accepted
          (written data outcomes start) =
        Io.writeLoop data rest later (written data outcomes (start + 1)) := by
  rcases goesOn with ⟨unfinished, continues⟩
  cases outcome : outcomes start with
  | accepted count =>
      have next :
          written data outcomes (start + 1) =
            written data outcomes start +
              min count (data.drop (written data outcomes start)).length := by
        rw [List.length_drop, written, filled_succ, portion, outcome]
        rfl
      rw [next]
      simp only [Io.writeLoop, if_pos unfinished]
      exact ⟨_, fun _ => rfl⟩
  | failed errno =>
      rw [outcome] at continues
      have interrupted : errno = Errno.eintr := continues
      rw [written_of_failed outcome]
      simp only [Io.writeLoop, if_pos unfinished, if_pos interrupted]
      exact ⟨_, fun _ => rfl⟩

/-- A loop that always goes on does not return. -/
theorem writeLoop_waits (goesOn : ∀ call, WritesOn data outcomes call)
    (accepted : List Byte) (start count : Nat) :
    Io.writeLoop data (upcoming outcomes start count) accepted
        (written data outcomes start) =
      .error .waiting := by
  induction count generalizing accepted start with
  | zero => exact if_pos (goesOn start).1
  | succ count induction =>
      rcases writeLoop_step (goesOn start) accepted with ⟨later, step⟩
      rw [upcoming_succ, step]
      exact induction later (start + 1)

/-- The write loop returns, from a call on, with what the calls have taken. -/
def WriteReturns (data : List Byte) (outcomes : Nat → WriteOutcome)
    (start : Nat) (accepted : List Byte) : Prop :=
  ∃ calls result,
    Io.writeLoop data (upcoming outcomes start calls) accepted
        (written data outcomes start) = .ok result ∧
      result.side.outcomes = [] ∧
      result.bytesWritten = written data outcomes (start + calls)

/-- A loop that does not go on returns. -/
theorem writeReturns_of_stops {start : Nat}
    (stops : ¬ WritesOn data outcomes start) (accepted : List Byte) :
    WriteReturns data outcomes start accepted := by
  by_cases unfinished : written data outcomes start < data.length
  · have stopped : ¬ (outcomes start).Continues := fun continues =>
      stops ⟨unfinished, continues⟩
    cases outcome : outcomes start with
    | accepted count =>
        rw [outcome] at stopped
        exact absurd trivial stopped
    | failed errno =>
        rw [outcome] at stopped
        have notInterrupted : ¬ errno = Errno.eintr := stopped
        refine ⟨1, ?_⟩
        rw [written_of_failed outcome, upcoming_succ, outcome]
        simp only [Io.writeLoop, if_pos unfinished, if_neg notInterrupted]
        split
        · exact ⟨_, rfl, rfl, rfl⟩
        · exact ⟨_, rfl, rfl, rfl⟩
  · exact ⟨0, _, if_neg unfinished, rfl, rfl⟩

/-- A loop that goes on for finitely many calls returns. -/
theorem writeReturns_of_later {start count : Nat}
    (stops : ¬ WritesOn data outcomes (start + count))
    (accepted : List Byte) : WriteReturns data outcomes start accepted := by
  induction count generalizing start accepted with
  | zero => exact writeReturns_of_stops stops accepted
  | succ count induction =>
      by_cases goesOn : WritesOn data outcomes start
      · have later : ¬ WritesOn data outcomes (start + 1 + count) := by
          rwa [Nat.add_assoc, Nat.add_comm 1 count]
        rcases writeLoop_step goesOn accepted with ⟨next, step⟩
        rcases induction later next with ⟨calls, result, returned, used, count⟩
        refine ⟨calls + 1, result, ?_, used, ?_⟩
        · rw [upcoming_succ, step, returned]
        · rw [count, Nat.add_assoc, Nat.add_comm 1 calls]
      · exact writeReturns_of_stops goesOn accepted

theorem writeEnds_iff :
    WriteEnds data outcomes ↔ ∃ call, ¬ WritesOn data outcomes call := by
  constructor
  · rintro ⟨calls, result, returned, _⟩
    by_contra always
    have goesOn : ∀ call, WritesOn data outcomes call := by
      simpa using always
    have waits := writeLoop_waits goesOn [] 0 calls
    cases waits.symm.trans returned
  · rintro ⟨call, stops⟩
    rw [← Nat.zero_add call] at stops
    rcases writeReturns_of_later stops [] with
      ⟨calls, result, returned, used, count⟩
    rw [Nat.zero_add] at count
    refine ⟨calls, result, returned, used, ?_, ?_⟩
    · rw [count]
      exact filled_le calls
    · rw [count]
      exact filled_eq_sum calls

/-- With finitely many interruptions, a loop goes on for ever if it stalls. -/
theorem stalls_iff
    (interruptions : ∃ bound, ∀ call ≥ bound,
      outcomes call ≠ .failed Errno.eintr) :
    Stalls data.length outcomes ↔ ∀ call, WritesOn data outcomes call := by
  constructor
  · rintro ⟨start, nothing, continues, less⟩ call
    have room : written data outcomes start < data.length :=
      (filled_lt_iff start).mpr less
    by_cases before : call < start
    · refine ⟨?_, continues call before⟩
      exact Nat.lt_of_le_of_lt (filled_monotone (Nat.le_of_lt before)) room
    · have later : start ≤ call := Nat.le_of_not_lt before
      constructor
      · have still : written data outcomes call = written data outcomes start :=
          filled_of_nothing
            (fun call later => congrArg WriteOutcome.count (nothing call later))
            later
        rw [still]
        exact room
      · rw [nothing call later]
        trivial
  · intro goesOn
    rcases interruptions with ⟨bound, uninterrupted⟩
    rcases exists_nothing fun call => (goesOn call).1 with ⟨start, nothing⟩
    refine ⟨max start bound, ?_, fun call _ => (goesOn call).2,
      (filled_lt_iff _).mp (goesOn _).1⟩
    intro call later
    have taken := nothing call (Nat.le_trans (Nat.le_max_left _ _) later)
    have continues := (goesOn call).2
    cases outcome : outcomes call with
    | accepted count =>
        rw [outcome] at taken
        exact congrArg WriteOutcome.accepted taken
    | failed errno =>
        rw [outcome] at continues
        have interrupted : errno = Errno.eintr := continues
        rw [interrupted] at outcome
        exact absurd outcome
          (uninterrupted call (Nat.le_trans (Nat.le_max_right _ _) later))

end Writing

/-! ## Reading -/

/-- The outcomes after which `bc_io_stream_io_read_full` goes on. -/
def ReadOutcome.Continues : ReadOutcome → Prop
  | .transferred bytes => bytes ≠ []
  | .failed errno => errno = Errno.eintr

/--
`bc_io_stream_io_read_full` returns after finitely many calls, with a count that
is at most the size and the sum of what the calls have transferred.
-/
def ReadEnds (requested : Nat) (outcomes : Nat → ReadOutcome) : Prop :=
  ∃ calls result,
    Io.readFull scriptedDevice requested ⟨(), [], upcoming outcomes 0 calls⟩ =
        .ok result ∧
      result.side.choices = [] ∧
      result.bytes.length ≤ requested ∧
      result.bytes.length =
        ∑ call ∈ Finset.range calls,
          portion requested (fun call => (outcomes call).count) call

section Reading

variable {requested : Nat} {outcomes : Nat → ReadOutcome}

/-- What the calls before a call have transferred. -/
def received (requested : Nat) (outcomes : Nat → ReadOutcome) : Nat → Nat :=
  filled requested fun call => (outcomes call).count

/-- The loop makes a call and goes on after it. -/
def ReadsOn (requested : Nat) (outcomes : Nat → ReadOutcome)
    (call : Nat) : Prop :=
  received requested outcomes call < requested ∧ (outcomes call).Continues

theorem received_of_failed {start : Nat} {errno : Errno}
    (failed : outcomes start = .failed errno) :
    received requested outcomes (start + 1) =
      received requested outcomes start :=
  filled_succ_of_zero (by rw [failed]; rfl)

/-- One turn of the read loop. -/
theorem readLoop_step {start : Nat}
    (goesOn : ReadsOn requested outcomes start)
    (transferred : List Byte) {bytes : List Byte}
    (length : bytes.length = received requested outcomes start) :
    ∃ later more, more.length = received requested outcomes (start + 1) ∧
      ∀ rest,
        Io.readLoop scriptedDevice requested (outcomes start :: rest) ()
            transferred bytes =
          Io.readLoop scriptedDevice requested rest () later more := by
  rcases goesOn with ⟨unfinished, continues⟩
  rw [← length] at unfinished
  cases outcome : outcomes start with
  | transferred new =>
      rw [outcome] at continues
      have nonempty : 0 < (new.take (requested - bytes.length)).length := by
        have some := List.length_pos_iff.mpr continues
        rw [List.length_take]
        omega
      refine ⟨transferred ++ new.take (requested - bytes.length),
        bytes ++ new.take (requested - bytes.length), ?_, ?_⟩
      · rw [List.length_append, List.length_take, length, received,
          filled_succ, portion, outcome, Nat.min_comm]
        rfl
      · intro rest
        simp only [Io.readLoop, if_pos unfinished, Io.sysRead,
          scriptedDevice, if_pos nonempty]
  | failed errno =>
      rw [outcome] at continues
      have interrupted : errno = Errno.eintr := continues
      refine ⟨transferred, bytes,
        length.trans (received_of_failed outcome).symm, ?_⟩
      intro rest
      simp only [Io.readLoop, if_pos unfinished, Io.sysRead, scriptedDevice,
        if_pos interrupted]

/-- The read loop returns, from a call on, with what has been transferred. -/
def ReadReturns (requested : Nat) (outcomes : Nat → ReadOutcome)
    (start : Nat) (transferred bytes : List Byte) : Prop :=
  ∃ calls result,
    Io.readLoop scriptedDevice requested (upcoming outcomes start calls) ()
        transferred bytes = .ok result ∧
      result.side.choices = [] ∧
      result.bytes.length = received requested outcomes (start + calls)

/-- A loop that does not go on returns. -/
theorem readReturns_of_stops {start : Nat}
    (stops : ¬ ReadsOn requested outcomes start)
    (transferred : List Byte) {bytes : List Byte}
    (length : bytes.length = received requested outcomes start) :
    ReadReturns requested outcomes start transferred bytes := by
  by_cases unfinished : bytes.length < requested
  · have stopped : ¬ (outcomes start).Continues := fun continues =>
      stops ⟨by rwa [← length], continues⟩
    refine ⟨1, ?_⟩
    rw [upcoming_succ]
    cases outcome : outcomes start with
    | transferred new =>
        rw [outcome] at stopped
        have ended : new = [] := not_not.mp stopped
        have same : received requested outcomes (start + 1) =
            received requested outcomes start :=
          filled_succ_of_zero (by rw [outcome, ended]; rfl)
        rw [same, ended]
        simp only [Io.readLoop, if_pos unfinished, Io.sysRead,
          scriptedDevice, List.take_nil, List.length_nil, Nat.lt_irrefl,
          if_false]
        exact ⟨_, rfl, rfl, length⟩
    | failed errno =>
        rw [outcome] at stopped
        have notInterrupted : ¬ errno = Errno.eintr := stopped
        rw [received_of_failed outcome]
        simp only [Io.readLoop, if_pos unfinished, Io.sysRead,
          scriptedDevice, if_neg notInterrupted]
        split
        · exact ⟨_, rfl, rfl, length⟩
        · exact ⟨_, rfl, rfl, length⟩
  · exact ⟨0, _, if_neg unfinished, rfl, length⟩

/-- A loop that goes on for finitely many calls returns. -/
theorem readReturns_of_later {start count : Nat}
    (stops : ¬ ReadsOn requested outcomes (start + count))
    (transferred : List Byte) {bytes : List Byte}
    (length : bytes.length = received requested outcomes start) :
    ReadReturns requested outcomes start transferred bytes := by
  induction count generalizing start transferred bytes with
  | zero => exact readReturns_of_stops stops transferred length
  | succ count induction =>
      by_cases goesOn : ReadsOn requested outcomes start
      · have later : ¬ ReadsOn requested outcomes (start + 1 + count) := by
          rwa [Nat.add_assoc, Nat.add_comm 1 count]
        rcases readLoop_step goesOn transferred length with
          ⟨next, more, moreLength, step⟩
        rcases induction later next moreLength with
          ⟨calls, result, returned, used, total⟩
        refine ⟨calls + 1, result, ?_, used, ?_⟩
        · rw [upcoming_succ, step, returned]
        · rw [total, Nat.add_assoc, Nat.add_comm 1 calls]
      · exact readReturns_of_stops goesOn transferred length

/-- With finitely many interruptions, the read loop stops at some call. -/
theorem exists_not_readsOn (requested : Nat)
    (interruptions : ∃ bound, ∀ call ≥ bound,
      outcomes call ≠ .failed Errno.eintr) :
    ∃ call, ¬ ReadsOn requested outcomes call := by
  by_contra always
  have goesOn : ∀ call, ReadsOn requested outcomes call := by
    simpa using always
  rcases interruptions with ⟨bound, uninterrupted⟩
  rcases exists_nothing fun call => (goesOn call).1 with ⟨start, nothing⟩
  have none := nothing (max start bound) (Nat.le_max_left _ _)
  have continues := (goesOn (max start bound)).2
  have unfailed := uninterrupted (max start bound) (Nat.le_max_right _ _)
  cases outcome : outcomes (max start bound) with
  | transferred bytes =>
      rw [outcome] at none continues
      exact continues (List.eq_nil_of_length_eq_zero none)
  | failed errno =>
      rw [outcome] at continues unfailed
      have interrupted : errno = Errno.eintr := continues
      exact unfailed (by rw [interrupted])

theorem readEnds_of_finitely_interrupted
    (interruptions : ∃ bound, ∀ call ≥ bound,
      outcomes call ≠ .failed Errno.eintr) :
    ReadEnds requested outcomes := by
  rcases exists_not_readsOn requested interruptions with ⟨call, stops⟩
  rw [← Nat.zero_add call] at stops
  rcases readReturns_of_later stops [] List.length_nil with
    ⟨calls, result, returned, used, total⟩
  rw [Nat.zero_add] at total
  refine ⟨calls, result, returned, used, ?_, ?_⟩
  · rw [total]
    exact filled_le calls
  · rw [total]
    exact filled_eq_sum calls

end Reading

/-! ## Both loops -/

/--
When the full-transfer loops end.  With finitely many interruptions the read
loop always ends; the write loop ends exactly if `write(2)` does not take
nothing for ever, without a failure, while bytes are left.
-/
theorem fullTransfers_end_iff (requested : Nat)
    (reads : Nat → ReadOutcome) (data : List Byte)
    (writes : Nat → WriteOutcome) :
    ((∃ bound, ∀ call ≥ bound, reads call ≠ .failed Errno.eintr) →
      ReadEnds requested reads) ∧
    ((∃ bound, ∀ call ≥ bound, writes call ≠ .failed Errno.eintr) →
      (WriteEnds data writes ↔ ¬ Stalls data.length writes)) := by
  constructor
  · intro interruptions
    exact readEnds_of_finitely_interrupted interruptions
  · intro interruptions
    rw [writeEnds_iff, stalls_iff interruptions, not_forall]

/-- A `write(2)` that is interrupted once and then takes one byte at a time. -/
def takesByte : Nat → WriteOutcome
  | 0 => .failed Errno.eintr
  | _ + 1 => .accepted 1

/-- Two bytes are transferred one at a time, in both directions. -/
theorem fullTransfers_end_iff_interrupted :
    ReadEnds 2 (fun _ => .transferred [7]) ∧ WriteEnds [1, 2] takesByte := by
  rcases fullTransfers_end_iff 2 (fun _ => .transferred [7]) [1, 2] takesByte
    with ⟨reads, writes⟩
  constructor
  · exact reads ⟨0, fun _ _ => ReadOutcome.noConfusion⟩
  · have uninterrupted :
        ∃ bound, ∀ call ≥ bound, takesByte call ≠ .failed Errno.eintr := by
      refine ⟨1, fun call later => ?_⟩
      rcases Nat.exists_eq_succ_of_ne_zero (Nat.ne_of_gt later) with
        ⟨earlier, rfl⟩
      exact WriteOutcome.noConfusion
    refine (writes uninterrupted).mpr ?_
    rintro ⟨start, nothing, _⟩
    cases nothing (start + 1) (Nat.le_succ start)

/-- A `write(2)` that never takes anything and is never interrupted. -/
def takesNothing : Nat → WriteOutcome :=
  fun _ => .accepted 0

/-- One byte is never written, and `bc_io_stream_io_write_full` never returns. -/
theorem writeFull_never_ends :
    (∃ bound, ∀ call ≥ bound, takesNothing call ≠ .failed Errno.eintr) ∧
      ¬ WriteEnds [0] takesNothing := by
  have uninterrupted :
      ∃ bound, ∀ call ≥ bound, takesNothing call ≠ .failed Errno.eintr :=
    ⟨0, fun _ _ => WriteOutcome.noConfusion⟩
  refine ⟨uninterrupted, ?_⟩
  have stalls : Stalls ([0] : List Byte).length takesNothing :=
    ⟨0, fun _ _ => rfl, fun _ before => absurd before (Nat.not_lt_zero _),
      Nat.zero_lt_one⟩
  rw [writeEnds_iff, not_exists]
  intro call stops
  exact stops ((stalls_iff uninterrupted).mp stalls call)

end BcIo.Stream
