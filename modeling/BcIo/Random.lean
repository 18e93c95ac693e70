import BcIo.Platform
import BcIo.Foundation.Segments

/-!
# Random bytes

`bc_io_random_bytes` asks `getrandom(2)` until the output is full; after a hard
error it reads the rest from `/dev/urandom`.  As for the stream loops, the two
sources are scripts with one outcome for each call that will be made, and a call
whose script runs out has not returned.
-/

namespace BcIo.Random

open BcIo.Foundation.Segments

/-! ## The two sources -/

inductive Source where
  | getrandom
  | urandom
  deriving DecidableEq, Repr

/--
One outcome of `getrandom(2)` or `read(2)`: as many of these bytes as have been
asked for, or an error.
-/
inductive Outcome where
  | produced (bytes : List Byte)
  | failed (errno : Errno)
  deriving DecidableEq, Repr

/-- A system call that has been made, and its outcome. -/
inductive Call where
  /-- `open("/dev/urandom", O_RDONLY | O_CLOEXEC)`. -/
  | opening (descriptor : Int)
  /-- A request for bytes at `output + position`. -/
  | request (source : Source) (position remaining : Nat) (outcome : Outcome)
  deriving DecidableEq, Repr

/-- What the calling thread meets. -/
structure World where
  /-- The thread-local `bc_io_random_urandom_descriptor`. -/
  descriptor : Int
  /-- What opening `/dev/urandom` returns. -/
  opening : Int
  getrandom : List Outcome
  urandom : List Outcome
  deriving DecidableEq, Repr

/-- What a call has returned, unless it still waits, and the calls it has made. -/
structure Result where
  returned : Option Bool
  calls : List Call
  descriptor : Int
  deriving DecidableEq, Repr

/-- The result of what is left to do after a system call. -/
def Result.after (call : Call) (result : Result) : Result :=
  { result with calls := call :: result.calls }

/-! ## The loops -/

/-- The loop of `bc_io_random_read_urandom`. -/
def readLoop (descriptor : Int) : List Outcome → Nat → Nat → Result
  | [], _, remaining =>
      ⟨if 0 < remaining then none else some true, [], descriptor⟩
  | outcome :: rest, position, remaining =>
      if 0 < remaining then
        let call := Call.request .urandom position remaining outcome
        match outcome with
        | .failed errno =>
            if errno = Errno.eintr then
              (readLoop descriptor rest position remaining).after call
            else
              ⟨some false, [call], descriptor⟩
        | .produced bytes =>
            let readCount := (bytes.take remaining).length
            if readCount = 0 then
              ⟨some false, [call], descriptor⟩
            else
              (readLoop descriptor rest (position + readCount)
                (remaining - readCount)).after call
      else
        ⟨some true, [], descriptor⟩

/--
`bc_io_random_read_urandom`, with `bc_io_random_open_urandom`: a descriptor that
the thread has opened before is used again.
-/
def readUrandom (world : World) (position remaining : Nat) : Result :=
  if 0 ≤ world.descriptor then
    readLoop world.descriptor world.urandom position remaining
  else if world.opening < 0 then
    ⟨some false, [.opening world.opening], world.descriptor⟩
  else
    (readLoop world.opening world.urandom position remaining).after
      (.opening world.opening)

/-- The loop of `bc_io_random_bytes`. -/
def bytesLoop (world : World) : List Outcome → Nat → Nat → Result
  | [], _, remaining =>
      ⟨if 0 < remaining then none else some true, [], world.descriptor⟩
  | outcome :: rest, position, remaining =>
      if 0 < remaining then
        let call := Call.request .getrandom position remaining outcome
        match outcome with
        | .failed errno =>
            if errno = Errno.eintr then
              (bytesLoop world rest position remaining).after call
            else
              (readUrandom world position remaining).after call
        | .produced bytes =>
            let produced := (bytes.take remaining).length
            (bytesLoop world rest (position + produced)
              (remaining - produced)).after call
      else
        ⟨some true, [], world.descriptor⟩

/-- `bc_io_random_bytes`. -/
def randomBytes (outputIsNull : Bool) (length : Nat) (world : World) :
    Result :=
  if length = 0 then ⟨some true, [], world.descriptor⟩
  else if outputIsNull then ⟨some false, [], world.descriptor⟩
  else bytesLoop world world.getrandom 0 length

/-! ## What the calls have written -/

/-- The bytes that a call has placed in the output. -/
def Call.write : Call → Option (Segment Byte)
  | .request _ position remaining (.produced bytes) =>
      some ⟨position, bytes.take remaining⟩
  | .request _ _ _ (.failed _) => none
  | .opening _ => none

/-- The writes to the output, in order. -/
def writes (calls : List Call) : List (Segment Byte) :=
  calls.filterMap Call.write

/-- The fallback could not be opened, or has ended early. -/
def Call.Refuses : Call → Prop
  | .opening descriptor => descriptor < 0
  | .request .getrandom _ _ _ => False
  | .request .urandom _ remaining (.produced bytes) =>
      bytes.take remaining = []
  | .request .urandom _ _ (.failed errno) => errno ≠ Errno.eintr

/--
A result that fills `remaining` bytes from a position on: the writes follow each
other, fill everything if it returns `true`, and it returns `false` exactly if a
call to the fallback has failed.
-/
structure Fills (position remaining : Nat) (result : Result) : Prop where
  consecutive : Consecutive position (writes result.calls)
  bounded : (contents (writes result.calls)).length ≤ remaining
  complete : result.returned = some true →
    (contents (writes result.calls)).length = remaining
  refused : result.returned = some false ↔
    ∃ call ∈ result.calls, call.Refuses

namespace Fills

variable {position remaining : Nat} {result : Result}

/-- Nothing is left to do. -/
theorem full {descriptor : Int} (nothingLeft : ¬ 0 < remaining) :
    Fills position remaining ⟨some true, [], descriptor⟩ := by
  refine ⟨trivial, Nat.zero_le _, ?_, by simp⟩
  intro _
  exact (Nat.eq_zero_of_not_pos nothingLeft).symm

/-- The script has ended. -/
theorem exhausted {descriptor : Int} :
    Fills position remaining
      ⟨if 0 < remaining then none else some true, [], descriptor⟩ := by
  split
  · exact ⟨trivial, Nat.zero_le _, by simp, by simp⟩
  · rename_i nothingLeft
    exact full nothingLeft

/-- A last call that writes nothing and refuses. -/
theorem refusing {call : Call} {descriptor : Int} (refuses : call.Refuses)
    (silent : contents (writes [call]) = [])
    (placed : Consecutive position (writes [call])) :
    Fills position remaining ⟨some false, [call], descriptor⟩ := by
  refine ⟨placed, ?_, ?_, ?_⟩
  · rw [silent]
    exact Nat.zero_le _
  · intro returned
    cases returned
  · simpa using refuses

/-- The calls made before do not change what is refused, if they are accepted. -/
theorem refused_after {call : Call} (accepted : ¬ call.Refuses)
    (fills : Fills position remaining result) :
    (result.after call).returned = some false ↔
      ∃ other ∈ (result.after call).calls, other.Refuses := by
  have refused := fills.refused
  simp only [Result.after, List.mem_cons, exists_eq_or_imp, accepted,
    false_or]
  exact refused

/-- A call that writes nothing and is accepted. -/
theorem after_silent {call : Call} (silent : call.write = none)
    (accepted : ¬ call.Refuses) (fills : Fills position remaining result) :
    Fills position remaining (result.after call) := by
  have same : writes (result.after call).calls = writes result.calls :=
    List.filterMap_cons_none silent
  refine ⟨?_, ?_, ?_, fills.refused_after accepted⟩
  · rw [same]
    exact fills.consecutive
  · rw [same]
    exact fills.bounded
  · rw [same]
    exact fills.complete

/-- A call that writes at the position, in front of what is written later. -/
theorem after_write {call : Call} {bytes : List Byte}
    (write : call.write = some ⟨position, bytes.take remaining⟩)
    (accepted : ¬ call.Refuses)
    (fills : Fills (position + (bytes.take remaining).length)
      (remaining - (bytes.take remaining).length) result) :
    Fills position remaining (result.after call) := by
  have placed :
      writes (result.after call).calls =
        ⟨position, bytes.take remaining⟩ :: writes result.calls :=
    List.filterMap_cons_some write
  have total :
      (contents (writes (result.after call).calls)).length =
        (bytes.take remaining).length +
          (contents (writes result.calls)).length := by
    rw [placed, contents, List.flatMap_cons, List.length_append]
    rfl
  have taken : (bytes.take remaining).length ≤ remaining :=
    List.length_take_le remaining bytes
  refine ⟨?_, ?_, ?_, fills.refused_after accepted⟩
  · rw [placed]
    exact ⟨rfl, fills.consecutive⟩
  · have later := fills.bounded
    omega
  · intro returned
    have later := fills.complete returned
    omega

end Fills

theorem readLoop_fills (descriptor : Int) (outcomes : List Outcome)
    (position remaining : Nat) :
    Fills position remaining
      (readLoop descriptor outcomes position remaining) := by
  induction outcomes generalizing position remaining with
  | nil => exact Fills.exhausted
  | cons outcome rest induction =>
      rw [readLoop]
      split
      · cases outcome with
        | failed errno =>
            dsimp only
            split
            · rename_i interrupted
              exact Fills.after_silent rfl (not_not.mpr interrupted)
                (induction position remaining)
            · rename_i hardError
              exact Fills.refusing hardError rfl trivial
        | produced bytes =>
            dsimp only
            split
            · rename_i ended
              have silent := List.eq_nil_of_length_eq_zero ended
              refine Fills.refusing silent ?_ ⟨rfl, trivial⟩
              simp [writes, Call.write, contents, silent]
            · rename_i some
              exact Fills.after_write rfl
                (fun silent => some (by rw [silent]; rfl))
                (induction _ _)
      · rename_i nothingLeft
        exact Fills.full nothingLeft

theorem readUrandom_fills (world : World) (position remaining : Nat) :
    Fills position remaining (readUrandom world position remaining) := by
  unfold readUrandom
  split
  · exact readLoop_fills world.descriptor world.urandom position remaining
  · split
    · rename_i failed
      exact Fills.refusing failed rfl trivial
    · rename_i opened
      exact Fills.after_silent rfl opened
        (readLoop_fills world.opening world.urandom position remaining)

/-- The fallback goes on where `getrandom(2)` has stopped. -/
theorem bytesLoop_fills (world : World) (outcomes : List Outcome)
    (position remaining : Nat) :
    Fills position remaining
      (bytesLoop world outcomes position remaining) := by
  induction outcomes generalizing position remaining with
  | nil => exact Fills.exhausted
  | cons outcome rest induction =>
      rw [bytesLoop]
      split
      · cases outcome with
        | failed errno =>
            dsimp only
            split
            · exact Fills.after_silent rfl not_false
                (induction position remaining)
            · exact Fills.after_silent rfl not_false
                (readUrandom_fills world position remaining)
        | produced bytes =>
            exact Fills.after_write rfl not_false (induction _ _)
      · rename_i nothingLeft
        exact Fills.full nothingLeft

/-- The writes follow each other, and fill the output if `true` is returned. -/
theorem randomBytes_placed (outputIsNull : Bool) (length : Nat)
    (world : World) :
    let result := randomBytes outputIsNull length world
    Consecutive 0 (writes result.calls) ∧
      (contents (writes result.calls)).length ≤ length ∧
      (result.returned = some true →
        (contents (writes result.calls)).length = length) := by
  dsimp only
  unfold randomBytes
  split
  · rename_i empty
    exact ⟨trivial, Nat.zero_le _, fun _ => empty.symm⟩
  · split
    · exact ⟨trivial, Nat.zero_le _, by simp⟩
    · have fills := bytesLoop_fills world world.getrandom 0 length
      exact ⟨fills.consecutive, fills.bounded, fills.complete⟩

theorem randomBytes_refused (outputIsNull : Bool) (length : Nat)
    (world : World) :
    let result := randomBytes outputIsNull length world
    result.returned = some false ↔
      (outputIsNull = true ∧ 0 < length) ∨
        ∃ call ∈ result.calls, call.Refuses := by
  dsimp only
  unfold randomBytes
  split
  · rename_i empty
    simp [empty]
  · rename_i nonempty
    split
    · rename_i isNull
      simp [isNull, Nat.pos_of_ne_zero nonempty]
    · rename_i notNull
      have refused := (bytesLoop_fills world world.getrandom 0 length).refused
      simpa [notNull] using refused

/-! ## Which calls are made -/

/-- The outcome of a request to a source. -/
def Call.outcomeOf? (source : Source) : Call → Option Outcome
  | .request asked _ _ outcome => if asked = source then some outcome else none
  | .opening _ => none

/-- What a source has answered, in order. -/
def outcomesOf (source : Source) (calls : List Call) : List Outcome :=
  calls.filterMap (Call.outcomeOf? source)

/-- What opening the fallback has returned. -/
def Call.opened? : Call → Option Int
  | .opening descriptor => some descriptor
  | .request _ _ _ _ => none

/-- What opening the fallback has returned each time. -/
def openingsOf (calls : List Call) : List Int :=
  calls.filterMap Call.opened?

/-- `getrandom(2)` first, then the fallback is opened, then it is read. -/
def Call.stage : Call → Nat
  | .request .getrandom _ _ _ => 0
  | .opening _ => 1
  | .request .urandom _ _ _ => 2

/-- An error after which `getrandom(2)` is not asked again. -/
def Outcome.Hard : Outcome → Prop
  | .failed errno => errno ≠ Errno.eintr
  | .produced _ => False

/-- A request for everything from its position to the end of the output. -/
def Call.AsksForRest (length : Nat) : Call → Prop
  | .request _ position remaining _ =>
      0 < remaining ∧ position + remaining = length
  | .opening _ => True

/--
The fallback is asked last: it is opened at most once, by a thread that has no
descriptor yet, and then read in the order of its script.
-/
structure FallsBack (world : World) (length : Nat) (calls : List Call) :
    Prop where
  urandom : outcomesOf .urandom calls <+: world.urandom
  opening : openingsOf calls <+: [world.opening]
  needed : openingsOf calls ≠ [] → world.descriptor < 0
  readable : outcomesOf .urandom calls ≠ [] → world.descriptor < 0 →
    openingsOf calls = [world.opening] ∧ 0 ≤ world.opening
  ordered : calls.Pairwise fun call later => call.stage ≤ later.stage
  requests : ∀ call ∈ calls, call.AsksForRest length

/--
The calls are those of the two scripts: `getrandom(2)` is asked in the order of
its script until it fails, and the fallback only once it has failed.
-/
structure Asks (world : World) (length : Nat) (calls : List Call) : Prop
    extends FallsBack world length calls where
  getrandom : outcomesOf .getrandom calls <+: world.getrandom
  persistent : ∀ outcome ∈ (outcomesOf .getrandom calls).dropLast,
    ¬ outcome.Hard
  switched : (∃ call ∈ calls, 0 < call.stage) →
    ∃ outcome ∈ outcomesOf .getrandom calls, outcome.Hard

theorem Asks.none (world : World) (length : Nat) : Asks world length [] where
  urandom := List.nil_prefix
  opening := List.nil_prefix
  needed := absurd rfl
  readable := absurd rfl
  ordered := .nil
  requests := by simp
  getrandom := List.nil_prefix
  persistent := by simp [outcomesOf]
  switched := by simp

/-- The loop reads its script in order, and nothing else. -/
theorem readLoop_requests {descriptor : Int} {outcomes : List Outcome}
    {position remaining length : Nat} (left : position + remaining = length) :
    let calls := (readLoop descriptor outcomes position remaining).calls
    outcomesOf .urandom calls <+: outcomes ∧
      ∀ call ∈ calls, call.stage = 2 ∧ call.AsksForRest length := by
  induction outcomes generalizing position remaining with
  | nil => exact ⟨List.nil_prefix, by simp [readLoop]⟩
  | cons outcome rest induction =>
      dsimp only
      rw [readLoop]
      split
      · rename_i unfilled
        -- the call that is made, in front of those of the rest
        have first :
            ∀ {calls : List Call}, outcomesOf .urandom calls <+: rest →
              (∀ call ∈ calls, call.stage = 2 ∧ call.AsksForRest length) →
              outcomesOf .urandom
                  (.request .urandom position remaining outcome :: calls) <+:
                    outcome :: rest ∧
                ∀ call ∈ Call.request .urandom position remaining outcome ::
                    calls, call.stage = 2 ∧ call.AsksForRest length := by
          intro calls read each
          refine ⟨(List.cons_prefix_cons).mpr ⟨rfl, read⟩, ?_⟩
          rw [List.forall_mem_cons]
          exact ⟨⟨rfl, unfilled, left⟩, each⟩
        cases outcome with
        | failed errno =>
            dsimp only
            split
            · exact first (induction left).1 (induction left).2
            · exact first List.nil_prefix (by simp)
        | produced bytes =>
            dsimp only
            split
            · exact first List.nil_prefix (by simp)
            · have taken : (bytes.take remaining).length ≤ remaining :=
                List.length_take_le remaining bytes
              have later := @induction
                (position + (bytes.take remaining).length)
                (remaining - (bytes.take remaining).length) (by omega)
              exact first later.1 later.2
      · exact ⟨List.nil_prefix, by simp⟩

/-- Calls that only read the fallback ask `getrandom(2)` and open nothing. -/
theorem outcomesOf_getrandom_of_stage {calls : List Call}
    (late : ∀ call ∈ calls, 0 < call.stage) :
    outcomesOf .getrandom calls = [] := by
  refine List.filterMap_eq_nil_iff.mpr ?_
  intro call member
  have isLate := late call member
  cases call with
  | opening descriptor => rfl
  | request source position remaining outcome =>
      cases source with
      | getrandom => exact absurd isLate (Nat.lt_irrefl 0)
      | urandom => rfl

theorem openingsOf_of_stage {calls : List Call}
    (requests : ∀ call ∈ calls, call.stage = 2) : openingsOf calls = [] := by
  refine List.filterMap_eq_nil_iff.mpr ?_
  intro call member
  have isRequest := requests call member
  cases call with
  | opening descriptor => cases isRequest
  | request source position remaining outcome => rfl

theorem readUrandom_fallsBack {world : World}
    {position remaining length : Nat} (left : position + remaining = length) :
    let calls := (readUrandom world position remaining).calls
    outcomesOf .getrandom calls = [] ∧ FallsBack world length calls := by
  have reads (descriptor : Int) :=
    @readLoop_requests descriptor world.urandom position remaining length left
  have ordered {calls : List Call}
      (requests : ∀ call ∈ calls, call.stage = 2) :
      calls.Pairwise fun call later => call.stage ≤ later.stage := by
    refine List.pairwise_of_forall_mem_list ?_
    intro call member later isLater
    rw [requests call member, requests later isLater]
  dsimp only
  unfold readUrandom
  split
  · rename_i has
    rcases reads world.descriptor with ⟨read, each⟩
    have requests := fun call member => (each call member).1
    refine ⟨outcomesOf_getrandom_of_stage ?_, read, ?_, ?_, ?_,
      ordered requests, fun call member => (each call member).2⟩
    · intro call member
      rw [requests call member]
      exact Nat.two_pos
    · rw [openingsOf_of_stage requests]
      exact List.nil_prefix
    · intro opened
      exact absurd (openingsOf_of_stage requests) opened
    · intro _ lacks
      exact absurd has (Int.not_le.mpr lacks)
  · rename_i lacks
    have lacks : world.descriptor < 0 := Int.not_le.mp lacks
    split
    · exact ⟨rfl, List.nil_prefix, List.prefix_rfl, fun _ => lacks,
        absurd rfl, List.pairwise_singleton _ _, by simp [Call.AsksForRest]⟩
    · rename_i opened
      rcases reads world.opening with ⟨read, each⟩
      have requests := fun call member => (each call member).1
      have once :
          openingsOf ((readLoop world.opening world.urandom position
            remaining).after (.opening world.opening)).calls =
              [world.opening] :=
        congrArg (world.opening :: ·) (openingsOf_of_stage requests)
      refine ⟨outcomesOf_getrandom_of_stage ?_, read, ?_, fun _ => lacks, ?_,
        ?_, ?_⟩
      · refine List.forall_mem_cons.mpr ⟨Nat.one_pos, ?_⟩
        intro call member
        rw [requests call member]
        exact Nat.two_pos
      · exact ⟨[], (List.append_nil _).trans once⟩
      · intro _ _
        exact ⟨once, Int.not_lt.mp opened⟩
      · refine List.pairwise_cons.mpr ⟨?_, ordered requests⟩
        intro call member
        rw [requests call member]
        exact Nat.le_succ 1
      · exact List.forall_mem_cons.mpr
          ⟨trivial, fun call member => (each call member).2⟩

/-- A request that `getrandom(2)` does not answer with a hard error. -/
theorem Asks.after_getrandom {world : World} {outcome : Outcome}
    {rest : List Outcome} {calls : List Call}
    {position remaining length : Nat} (goesOn : ¬ outcome.Hard)
    (unfilled : 0 < remaining) (left : position + remaining = length)
    (asks : Asks { world with getrandom := rest } length calls) :
    Asks { world with getrandom := outcome :: rest } length
      (.request .getrandom position remaining outcome :: calls) where
  getrandom := List.cons_prefix_cons.mpr ⟨rfl, asks.getrandom⟩
  urandom := asks.urandom
  opening := asks.opening
  needed := asks.needed
  readable := asks.readable
  ordered := List.pairwise_cons.mpr ⟨fun _ _ => Nat.zero_le _, asks.ordered⟩
  persistent := by
    intro other member
    change other ∈ (outcome :: outcomesOf .getrandom calls).dropLast at member
    cases answers : outcomesOf .getrandom calls with
    | nil =>
        rw [answers] at member
        cases member
    | cons next later =>
        rw [answers, List.dropLast_cons_of_ne_nil (List.cons_ne_nil _ _),
          ← answers, List.mem_cons] at member
        rcases member with rfl | member
        · exact goesOn
        · exact asks.persistent other member
  switched := by
    rintro ⟨call, member, late⟩
    rcases List.mem_cons.mp member with rfl | member
    · exact absurd late (Nat.lt_irrefl 0)
    · rcases asks.switched ⟨call, member, late⟩ with ⟨other, answered, hard⟩
      exact ⟨other, List.mem_cons_of_mem _ answered, hard⟩
  requests := List.forall_mem_cons.mpr ⟨⟨unfilled, left⟩, asks.requests⟩

/-- A request that `getrandom(2)` answers with a hard error is its last. -/
theorem FallsBack.after_getrandom {world : World} {outcome : Outcome}
    {rest : List Outcome} {calls : List Call}
    {position remaining length : Nat} (hard : outcome.Hard)
    (unfilled : 0 < remaining) (left : position + remaining = length)
    (silent : outcomesOf .getrandom calls = [])
    (fallsBack : FallsBack world length calls) :
    Asks { world with getrandom := outcome :: rest } length
      (.request .getrandom position remaining outcome :: calls) := by
  have only :
      outcomesOf .getrandom
          (.request .getrandom position remaining outcome :: calls) =
        [outcome] :=
    congrArg (outcome :: ·) silent
  exact
    { urandom := fallsBack.urandom
      opening := fallsBack.opening
      needed := fallsBack.needed
      readable := fallsBack.readable
      ordered :=
        List.pairwise_cons.mpr ⟨fun _ _ => Nat.zero_le _, fallsBack.ordered⟩
      requests :=
        List.forall_mem_cons.mpr ⟨⟨unfilled, left⟩, fallsBack.requests⟩
      getrandom := by
        rw [only]
        exact List.cons_prefix_cons.mpr ⟨rfl, List.nil_prefix⟩
      persistent := by
        rw [only]
        simp
      switched := by
        intro _
        rw [only]
        exact ⟨outcome, List.mem_singleton_self outcome, hard⟩ }

theorem bytesLoop_asks (world : World) (outcomes : List Outcome)
    {position remaining length : Nat} (left : position + remaining = length) :
    Asks { world with getrandom := outcomes } length
      (bytesLoop world outcomes position remaining).calls := by
  induction outcomes generalizing position remaining with
  | nil => exact Asks.none _ _
  | cons outcome rest induction =>
      rw [bytesLoop]
      split
      · rename_i unfilled
        cases outcome with
        | failed errno =>
            dsimp only
            split
            · rename_i interrupted
              exact Asks.after_getrandom (not_not.mpr interrupted) unfilled
                left (induction left)
            · rename_i hardError
              rcases @readUrandom_fallsBack world _ _ _ left with
                ⟨silent, fallsBack⟩
              exact fallsBack.after_getrandom hardError unfilled left silent
        | produced bytes =>
            have taken : (bytes.take remaining).length ≤ remaining :=
              List.length_take_le remaining bytes
            exact Asks.after_getrandom not_false unfilled left
              (induction (by omega))
      · exact Asks.none _ _

/-- `bc_io_random_bytes` asks its two sources, and takes what they answer. -/
theorem randomBytes_asks (outputIsNull : Bool) (length : Nat)
    (world : World) :
    Asks world length (randomBytes outputIsNull length world).calls := by
  unfold randomBytes
  split
  · exact Asks.none world length
  · split
    · exact Asks.none world length
    · exact bytesLoop_asks world world.getrandom (Nat.zero_add length)

/-! ## Returning -/

/-- How many of the calls are not interrupted. -/
def uninterrupted (outcomes : List Outcome) : Nat :=
  outcomes.countP fun outcome => outcome ≠ .failed Errno.eintr

theorem uninterrupted_cons_eintr (rest : List Outcome) :
    uninterrupted (.failed Errno.eintr :: rest) = uninterrupted rest :=
  List.countP_cons_of_neg (by simp)

theorem uninterrupted_cons_le (outcome : Outcome) (rest : List Outcome) :
    uninterrupted (outcome :: rest) ≤ uninterrupted rest + 1 := by
  rw [uninterrupted, List.countP_cons]
  exact Nat.add_le_add_left (by split <;> decide) _

theorem exhausted_returns {remaining : Nat} (full : remaining ≤ 0) :
    (if 0 < remaining then none else some true) ≠ none := by
  rw [if_neg (Nat.not_lt.mpr full)]
  exact Option.some_ne_none true

theorem readLoop_returns {descriptor : Int} {outcomes : List Outcome}
    {position remaining : Nat} (enough : remaining ≤ uninterrupted outcomes) :
    (readLoop descriptor outcomes position remaining).returned ≠ none := by
  induction outcomes generalizing position remaining with
  | nil => exact exhausted_returns enough
  | cons outcome rest induction =>
      have step := uninterrupted_cons_le outcome rest
      rw [readLoop]
      split
      · cases outcome with
        | failed errno =>
            dsimp only
            split
            · rename_i interrupted
              rw [interrupted, uninterrupted_cons_eintr] at enough
              exact induction enough
            · exact Option.some_ne_none false
        | produced bytes =>
            dsimp only
            split
            · exact Option.some_ne_none false
            · exact induction (by omega)
      · exact Option.some_ne_none true

theorem readUrandom_returns {world : World} {position remaining : Nat}
    (enough : remaining ≤ uninterrupted world.urandom) :
    (readUrandom world position remaining).returned ≠ none := by
  unfold readUrandom
  split
  · exact readLoop_returns enough
  · split
    · exact Option.some_ne_none false
    · exact readLoop_returns enough

theorem bytesLoop_returns {world : World} {outcomes : List Outcome}
    {position remaining : Nat} (positive : .produced [] ∉ outcomes)
    (enough : remaining ≤ uninterrupted outcomes)
    (enoughFallback : remaining ≤ uninterrupted world.urandom) :
    (bytesLoop world outcomes position remaining).returned ≠ none := by
  induction outcomes generalizing position remaining with
  | nil => exact exhausted_returns enough
  | cons outcome rest induction =>
      have step := uninterrupted_cons_le outcome rest
      rw [List.mem_cons, not_or] at positive
      rw [bytesLoop]
      split
      · rename_i unfilled
        cases outcome with
        | failed errno =>
            dsimp only
            split
            · rename_i interrupted
              rw [interrupted, uninterrupted_cons_eintr] at enough
              exact induction positive.2 enough enoughFallback
            · exact readUrandom_returns enoughFallback
        | produced bytes =>
            have nonempty : 0 < bytes.length :=
              List.length_pos_iff.mpr fun empty =>
                positive.1 (by rw [empty])
            have some : 0 < (bytes.take remaining).length := by
              rw [List.length_take]
              omega
            exact induction positive.2 (by omega) (by omega)
      · exact Option.some_ne_none true

/-- `bc_io_random_bytes` returns if `getrandom(2)` always produces something. -/
theorem randomBytes_returns {outputIsNull : Bool} {length : Nat}
    {world : World} (positive : .produced [] ∉ world.getrandom)
    (enough : length ≤ uninterrupted world.getrandom)
    (enoughFallback : length ≤ uninterrupted world.urandom) :
    (randomBytes outputIsNull length world).returned ≠ none := by
  unfold randomBytes
  split
  · exact Option.some_ne_none true
  · split
    · exact Option.some_ne_none false
    · exact bytesLoop_returns positive enough enoughFallback

/-! ## The whole output -/

/--
No byte is left unfilled.  The calls are those of the two sources, answered as
their scripts say and in this order.  When `bc_io_random_bytes` has returned
`true`, what they wrote has followed each other from the first byte to the last,
so that each byte has been written once and is the next one produced; in any
case nothing outside the output is written; and it has returned `false` exactly
if the output is `NULL` with bytes to fill, or the fallback could not be opened
or has ended early.  It does return: as many calls as there are bytes are
enough, not counting the interrupted ones.
-/
theorem randomBytes_fills (outputIsNull : Bool) (length : Nat)
    (world : World) :
    let result := randomBytes outputIsNull length world
    let written := writes result.calls
    Asks world length result.calls ∧
    (result.returned = some true →
      Consecutive 0 written ∧ (contents written).length = length ∧
      (∀ index < length,
        written.countP (fun write => write.Covers index) = 1) ∧
      ∀ memory : Nat → Byte, ∀ index < length,
        (contents written)[index]? =
          some (placeAll memory written index)) ∧
    (∀ memory : Nat → Byte, ∀ index, length ≤ index →
      written.countP (fun write => write.Covers index) = 0 ∧
        placeAll memory written index = memory index) ∧
    (result.returned = some false ↔
      (outputIsNull = true ∧ 0 < length) ∨
        ∃ call ∈ result.calls, call.Refuses) ∧
    (.produced [] ∉ world.getrandom →
      length ≤ uninterrupted world.getrandom →
      length ≤ uninterrupted world.urandom →
      result.returned ≠ none) := by
  intro result written
  rcases randomBytes_placed outputIsNull length world with
    ⟨consecutive, bounded, complete⟩
  refine ⟨randomBytes_asks outputIsNull length world, ?_, ?_,
    randomBytes_refused outputIsNull length world, randomBytes_returns⟩
  · intro returned
    have whole : (contents written).length = length := complete returned
    refine ⟨consecutive, whole, ?_, ?_⟩
    · intro index inside
      rw [consecutive.countP_covers, whole, if_pos (by omega)]
    · intro memory index inside
      have found := List.getElem?_eq_getElem (whole.symm ▸ inside)
      have placed :
          placeAll memory written (0 + index) = (contents written)[index] :=
        placeAll_of_inside consecutive found
      rw [found, ← placed, Nat.zero_add]
  · intro memory index outside
    have beyond : 0 + (contents written).length ≤ index := by
      rw [Nat.zero_add]
      exact Nat.le_trans bounded outside
    refine ⟨?_, placeAll_of_outside consecutive (Or.inr beyond)⟩
    rw [consecutive.countP_covers, if_neg (by omega)]

/-- Two bytes, an interruption and a failure, then a fallback in pieces. -/
def handedOver : World where
  descriptor := -1
  opening := 3
  getrandom := [.produced [1, 2], .failed Errno.eintr, .failed Errno.eio]
  urandom := [.produced [3], .failed Errno.eintr, .produced [4, 5, 6]]

/-- Five bytes, of which the fallback provides the last three. -/
theorem randomBytes_fills_handed_over :
    (randomBytes false 5 handedOver).returned = some true ∧
      contents (writes (randomBytes false 5 handedOver).calls) =
        [1, 2, 3, 4, 5] ∧
      ∀ index < 5,
        (writes (randomBytes false 5 handedOver).calls).countP
          (fun write => write.Covers index) = 1 := by
  have returned : (randomBytes false 5 handedOver).returned = some true := by
    decide
  refine ⟨returned, by decide, ?_⟩
  rcases (randomBytes_fills false 5 handedOver).2.1 returned with
    ⟨_, _, once, _⟩
  exact once

end BcIo.Random
