import BcIo.File.DirentReader
import BcIo.Walk.Protocol
import BcIo.Foundation.Lockstep

/-!
# Walks over the bytes of the kernel

A walk asks its reader for one record after the other.  What the reader has is
bytes: `getdents64` fills its buffer with as many records as it likes, `.` and
`..` among them, and is called again when the buffer is used up.  A walk over
these bytes is, call by call, the walk over the records that they stand for; the
reader is never called again once it has reported an end or an error.
-/

namespace BcIo.Walk

open BcIo.File
open BcIo.Foundation.Interaction
open BcIo.Foundation.WorkerPool
open BcIo.Foundation.Bookkeeping
open BcIo.Foundation.Recording
open BcIo.Foundation.Automata
open BcIo.Foundation.Lockstep

/-! ## Records -/

/-- What a walk relies on in a name that is not `.` or `..`. -/
def ProperName (name : List Byte) : Prop :=
  name ≠ [] ∧ slash ∉ name ∧ (0 : Byte) ∉ name ∧
    (name ≠ [dot] ∧ name ≠ [dot, dot]) ∧ name.length < 8192

instance : DecidablePred ProperName :=
  fun _ => inferInstanceAs (Decidable (_ ∧ _ ∧ _ ∧ _ ∧ _))

/-- The record that a reader shows. -/
def direntOf (name : List Byte) (dType : Byte) : Option Dirent :=
  if proper : ProperName name then
    some
      ⟨⟨name, proper.1, proper.2.1, proper.2.2.1, proper.2.2.2.1,
        proper.2.2.2.2⟩, dType⟩
  else none

/-- What a reader shows of a record. -/
def Dirent.shown (dirent : Dirent) : Shown :=
  .entry dirent.name.bytes dirent.name.bytes.length dirent.dType

theorem direntOf_shown (dirent : Dirent) :
    direntOf dirent.name.bytes dirent.dType = some dirent := by
  have proper : ProperName dirent.name.bytes :=
    ⟨dirent.name.nonempty, dirent.name.noSlash, dirent.name.noNul,
      dirent.name.notSpecial, dirent.name.short⟩
  rw [direntOf, dif_pos proper]

/-- What a walk gets from a call of its reader, if that has returned. -/
def nextOf : Option Shown → NextEntry
  | some (.entry name _ dType) =>
      match direntOf name dType with
      | some dirent => .entry dirent
      | none => .failed Errno.einval
  | some .finished => .finished
  | some (.failed lastErrno) => .failed lastErrno
  | none => .finished

/-! ## Directories -/

/-- A name that the kernel hands out is not empty and has no slash. -/
def Delivery.Named : Delivery → Prop
  | .failed _ => True
  | .records listed _ =>
      ∀ record ∈ listed, record.name ≠ [] ∧ slash ∉ record.name

/-- The call of `getdents64` that a reader reports as the end, or as an error. -/
def Delivery.Ends : Delivery → Prop
  | .failed _ => True
  | .records [] _ => True
  | .records (_ :: _) _ => False

/-- The listing that the calls of `getdents64` on a directory stand for. -/
def listingOf : List Delivery → Listing
  | [] => ⟨[], none⟩
  | .failed errno :: _ => ⟨[], some errno⟩
  | .records [] _ :: _ => ⟨[], none⟩
  | .records (record :: others) _ :: later =>
      ⟨(record :: others).filterMap (fun record =>
          direntOf record.name record.dType) ++ (listingOf later).entries,
        (listingOf later).failure⟩

/-- How a listing ends. -/
def Listing.ending (listing : Listing) : Shown :=
  match listing.failure with
  | some errno => .failed errno
  | none => .finished

/-- What a reader is to show of a listing. -/
def Listing.shown (listing : Listing) : List Shown :=
  listing.entries.map Dirent.shown ++ [listing.ending]

theorem length_shown (listing : Listing) :
    listing.shown.length = listing.entries.length + 1 := by
  simp [Listing.shown]

/-- A record that fits into the buffer of a reader has a proper name. -/
theorem properName_of_visible {record : DirentRecord}
    (named : record.name ≠ [] ∧ slash ∉ record.name)
    (visible : record.Visible)
    (fits : record.size ≤ direntReaderBufferSize) :
    ProperName record.name := by
  refine ⟨named.1, named.2, record.noNul, visible, ?_⟩
  have size : record.size = 20 + record.name.length + record.padding.length :=
    rfl
  have limit : direntReaderBufferSize = 8192 := rfl
  omega

theorem size_le_layout {record : DirentRecord}
    {records : List DirentRecord} (member : record ∈ records) :
    record.size ≤ (DirentRecord.layout records).length := by
  induction records with
  | nil => cases member
  | cons first records induction =>
      rw [DirentRecord.layout_cons, List.length_append,
        DirentRecord.length_bytes]
      rcases List.mem_cons.mp member with rfl | later
      · exact Nat.le_add_right _ _
      · exact Nat.le_add_left_of_le (induction later)

/-- The records of a walk are those that a reader shows. -/
theorem map_shown_filterMap {records : List DirentRecord}
    (proper : ∀ record ∈ records, record.Visible → ProperName record.name) :
    (records.filterMap fun record =>
        direntOf record.name record.dType).map Dirent.shown =
      DirentRecord.shownAll records := by
  induction records with
  | nil => rfl
  | cons record records induction =>
      rw [List.forall_mem_cons] at proper
      have rest := induction proper.2
      rw [DirentRecord.shownAll] at rest ⊢
      by_cases visible : record.Visible
      · rw [List.filterMap_cons_some (dif_pos (proper.1 visible)),
          List.filter_cons, if_pos (decide_eq_true visible), List.map_cons,
          List.map_cons, rest]
        rfl
      · have improper : ¬ ProperName record.name :=
          fun isProper => visible isProper.2.2.2.1
        rw [List.filterMap_cons_none (dif_neg improper), List.filter_cons,
          if_neg (by simpa using visible), rest]

/-- What the reader shows begins with the listing and its end. -/
theorem shown_listingOf {deliveries : List Delivery}
    (named : ∀ delivery ∈ deliveries, Delivery.Named delivery)
    (ends : ∃ delivery ∈ deliveries, Delivery.Ends delivery) :
    (listingOf deliveries).shown <+:
      deliveries.flatMap Delivery.shown := by
  induction deliveries with
  | nil =>
      rcases ends with ⟨_, member, _⟩
      cases member
  | cons delivery later induction =>
      rw [List.forall_mem_cons] at named
      rw [List.flatMap_cons]
      cases delivery with
      | failed errno => exact List.prefix_append [Shown.failed errno] _
      | records listed fits =>
          cases listed with
          | nil => exact List.prefix_append [Shown.finished] _
          | cons record others =>
              have endsLater : ∃ delivery ∈ later, Delivery.Ends delivery := by
                rcases ends with ⟨other, member, isEnd⟩
                rcases List.mem_cons.mp member with rfl | isLater
                · exact isEnd.elim
                · exact ⟨other, isLater, isEnd⟩
              have proper :
                  ∀ one ∈ record :: others, one.Visible →
                    ProperName one.name :=
                fun one member visible =>
                  properName_of_visible (named.1 one member) visible
                    (Nat.le_trans (size_le_layout member) fits)
              have shows := map_shown_filterMap proper
              change List.map Dirent.shown
                  (List.filterMap _ (record :: others) ++
                    (listingOf later).entries) ++
                    [(listingOf later).ending] <+:
                DirentRecord.shownAll (record :: others) ++ _
              rw [List.map_append, shows, List.append_assoc]
              exact (List.prefix_append_right_inj _).mpr
                (induction named.2 endsLater)

/-! ## The two worlds -/

/-- A file system that does not change, down to the bytes of its directories. -/
structure ByteWorld where
  openError : Path → Bool → Option Errno
  /-- What `getdents64` does, call by call, on a descriptor of a directory. -/
  deliveries : Path → List Delivery
  named : ∀ path, ∀ delivery ∈ deliveries path, Delivery.Named delivery
  ends : ∀ path, ∃ delivery ∈ deliveries path, Delivery.Ends delivery
  /-- The reader of a directory, as it is created or reset for it. -/
  reader : Path → DirentReader
  fresh : ∀ path, (reader path).Fresh
  /-- `bc_core_length`. -/
  coreLength : List Byte → Option Nat
  measures : Measures coreLength
  stat : Path → EntryName → Bool → Except Errno Stat
  filter : Entry → Bool
  shouldDescend : Entry → Bool

namespace ByteWorld

variable (bytes : ByteWorld)

/-- The world of the records that the bytes stand for. -/
def records : World where
  openError := bytes.openError
  listing path := listingOf (bytes.deliveries path)
  stat := bytes.stat
  filter := bytes.filter
  shouldDescend := bytes.shouldDescend

/--
What `bc_io_dirent_reader_next` shows when the reader of a directory has been
called `index` times before, if that call returns.
-/
def shown (path : Path) (index : Nat) : Option Shown :=
  match DirentReader.calls bytes.coreLength (index + 1) (bytes.reader path)
      (fun _ => (bytes.deliveries path).map Delivery.outcome) with
  | .ok (shown, _) => shown.getLast?
  | .error _ => none

/-- The answers that the bytes give. -/
def answer : (call : Call) → call.Response
  | .direntReaderNext path index => nextOf (bytes.shown path index)
  | call => bytes.records.answer call

/-- The world of the bytes as an environment. -/
abbrev environment : Environment where
  Situation := Unit
  Choice := Unit
  Change := Empty
  answer _ _ call := (bytes.answer call, ())
  change _ _ := ()

/-- How many records a directory has. -/
def count (path : Path) : Nat :=
  (bytes.records.listing path).entries.length

variable {bytes} {path : Path} {index : Nat}

/-- Up to the end, the reader shows the listing. -/
theorem shown_of_le (within : index ≤ bytes.count path) :
    bytes.shown path index =
      (bytes.records.listing path).shown[index]? := by
  have begins := shown_listingOf (bytes.named path) (bytes.ends path)
  have inside : index < (bytes.records.listing path).shown.length := by
    rw [length_shown]
    exact Nat.lt_succ_of_le within
  have enough :
      index + 1 ≤
        ((bytes.deliveries path).flatMap Delivery.shown).length :=
    Nat.le_trans inside begins.length_le
  rcases (@DirentReader.calls_of_holds _ _ _ bytes.measures
      (fun _ => (bytes.deliveries path).map Delivery.outcome) _
      (bytes.fresh path).holds rfl (index + 1)).1 enough with
    ⟨after, called⟩
  have first :=
    List.prefix_iff_getElem?.mp begins index inside
  unfold shown
  rw [called]
  change (List.take (index + 1)
    ((bytes.deliveries path).flatMap Delivery.shown)).getLast? = _
  rw [List.getLast?_take, if_neg (Nat.succ_ne_zero index),
    Nat.add_sub_cancel, first, List.getElem?_eq_getElem inside]
  rfl

theorem answer_of_le (within : index ≤ bytes.count path) :
    bytes.answer (.direntReaderNext path index) =
      bytes.records.answer (.direntReaderNext path index) := by
  change nextOf (bytes.shown path index) = _
  rw [shown_of_le within, Listing.shown]
  rcases Nat.lt_or_eq_of_le within with inside | atEnd
  · have found :=
      List.getElem?_eq_getElem (l := (bytes.records.listing path).entries)
        inside
    rw [List.getElem?_append_left (by rw [List.length_map]; exact inside),
      List.getElem?_map, found]
    simp only [World.answer, found, Option.map_some, Dirent.shown, nextOf,
      direntOf_shown]
  · have none_ :
        (bytes.records.listing path).entries[index]? = none :=
      List.getElem?_eq_none (Nat.le_of_eq atEnd.symm)
    have last :
        ((bytes.records.listing path).entries.map Dirent.shown ++
            [(bytes.records.listing path).ending])[index]? =
          some (bytes.records.listing path).ending := by
      rw [atEnd, count, ← List.length_map (f := Dirent.shown)]
      exact List.getElem?_concat_length
    rw [last]
    simp only [World.answer, none_, Listing.ending]
    cases (bytes.records.listing path).failure <;> rfl

end ByteWorld

/-! ## No reader is called behind its end -/

/-- The innermost directory is only to be closed. -/
def Point.over : Point → Bool
  | .closing => true
  | .charging _ .close => true
  | .telling _ .close => true
  | _ => false

/-- No directory has been read past its end. -/
structure Within (world : World) (conduct : Conduct) : Prop where
  outer : ∀ listing ∈ conduct.listings.tail,
    listing.reads ≤ (world.listing listing.directory.text).entries.length
  innermost : conduct.point.over = false →
    ∀ listing ∈ conduct.listings.head?,
      listing.reads ≤ (world.listing listing.directory.text).entries.length

section Reads

variable {config : Config} {worker : Bool} {world : World}
  {listings : List OpenListing} {point next : Point}

/-- The same directories stay open. -/
theorem Within.same (within : Within world ⟨listings, point⟩)
    (goesOn : point.over = false) : Within world ⟨listings, next⟩ :=
  ⟨within.outer, fun _ => within.innermost goesOn⟩

/-- The innermost directory is given up. -/
theorem Within.given_up (within : Within world ⟨listings, point⟩)
    (isOver : next.over = true) : Within world ⟨listings, next⟩ := by
  refine ⟨within.outer, ?_⟩
  intro goesOn
  rw [isOver] at goesOn
  cases goesOn

theorem over_charged (report : Report) :
    (charged config worker listings report .close).over = true := by
  rw [charged, if_neg nofun]
  split <;> rfl

/-- Every call whose answer a static world gives keeps inside the listings. -/
theorem within_step {conduct : Conduct} {call : Answered Op Op.Response}
    (within : Within world conduct)
    (isNext : conduct.op config = some call.1)
    (answered : ∀ path index told,
      call = ⟨.outside (.direntReaderNext path index), told⟩ →
      told = world.answer (.direntReaderNext path index)) :
    Within world (conduct.after config worker call.1 call.2) := by
  rcases conduct with ⟨listings, point⟩
  rcases call with ⟨op, response⟩
  cases point with
  | opening directory =>
      cases isNext
      cases response with
      | error errno => exact within.same rfl
      | ok entries =>
          refine ⟨?_, ?_⟩
          · cases listings with
            | nil =>
                intro listing member
                cases member
            | cons innermost outer =>
                exact List.forall_mem_cons.mpr
                  ⟨within.innermost rfl innermost rfl, within.outer⟩
          · rintro _ listing ⟨⟩
            exact Nat.zero_le _
  | reading =>
      cases listings with
      | nil => cases isNext
      | cons innermost outer =>
          cases isNext
          have told := answered _ _ response rfl
          refine ⟨within.outer, ?_⟩
          rintro goesOn listing ⟨⟩
          cases response with
          | failed lastErrno => cases goesOn
          | finished => cases goesOn
          | entry dirent =>
              rw [World.answer] at told
              cases found :
                  (world.listing innermost.directory.text).entries[
                    innermost.reads]? with
              | some other => exact (List.getElem?_eq_some_iff.mp found).1
              | none =>
                  rw [found] at told
                  dsimp only at told
                  split at told <;> cases told
  | closing =>
      cases listings with
      | nil => cases isNext
      | cons innermost outer =>
          cases isNext
          refine ⟨?_, ?_⟩
          · intro listing member
            exact within.outer listing (List.mem_of_mem_tail member)
          · intro _ listing isHead
            exact within.outer listing (List.mem_of_mem_head? isHead)
  | charging report sequel =>
      cases isNext
      cases sequel with
      | close => exact within.given_up (over_charged report)
      | _ => exact within.same rfl
  | telling report sequel =>
      cases isNext
      cases sequel with
      | close => exact within.given_up rfl
      | _ => exact within.same rfl
  | inquiring dirent childPath noFollow =>
      cases listings with
      | nil => cases isNext
      | cons innermost outer =>
          cases isNext
          exact within.same rfl
  | done => cases isNext
  | _ =>
      cases isNext
      exact within.same rfl

/-- A worker that reads a directory has it open. -/
theorem reading_of_op {conduct : Conduct} {path : Path} {index : Nat}
    (isNext :
      conduct.op config =
        some (.outside (.direntReaderNext path index))) :
    conduct.point.over = false ∧ ∃ listing ∈ conduct.listings.head?,
      path = listing.directory.text ∧ index = listing.reads := by
  rcases conduct with ⟨listings, point⟩
  cases point with
  | reading =>
      cases listings with
      | nil => cases isNext
      | cons innermost outer =>
          cases isNext
          exact ⟨rfl, innermost, rfl, rfl, rfl⟩
  | inquiring dirent childPath noFollow => cases listings <;> cases isNext
  | closing => cases listings <;> cases isNext
  | _ => cases isNext

theorem upholds_within {α : Type} {capacity : Nat} :
    Noted.Upholds (α := α) (conducting config worker) (fun _ _ => True)
      (fun (_ : (machine world.environment capacity).State) conducts =>
        ∀ conduct ∈ conducts, Within world conduct) where
  turn := by
    intro noted thread choice op next held within _ found isNext _
    refine ⟨trivial, ?_⟩
    intro conduct member
    rcases List.mem_or_eq_of_mem_set member with old | rfl
    · exact within conduct old
    · refine @within_step config worker world held ⟨op, _⟩
        (within held (List.mem_of_getElem? found)) isNext ?_
      intro path index told isRead
      cases isRead
      rfl
  drift := by
    intro noted drift within _
    exact within

end Reads

/-! ## One walk -/

/-- The moves of the walk over the records are those of the walk over the bytes. -/
def overBytes (bytes : ByteWorld) (capacity : Nat) :
    Translation (machine bytes.records.environment capacity)
      (machine bytes.environment capacity) where
  state := id
  choice := id
  drift := id

section Bytes

variable {bytes : ByteWorld} {config : Config} {worker : Bool}
  {capacity : Nat}

/-- Up to the end of the listings, the two worlds answer alike. -/
theorem agreesAt_overBytes {conduct : Conduct} {op : Op}
    (within : Within bytes.records conduct)
    (isNext : conduct.op config = some op) (state : State Unit)
    (choice : Unit × QueueChoice) :
    (overBytes bytes capacity).AgreesAt state choice op := by
  cases op with
  | shared access => rfl
  | outside call =>
      cases call with
      | direntReaderNext path index =>
          rcases reading_of_op isNext with
            ⟨goesOn, listing, isHead, rfl, rfl⟩
          have same :=
            @ByteWorld.answer_of_le bytes listing.directory.text
              listing.reads (within.innermost goesOn listing isHead)
          exact congrArg
            (fun told : NextEntry =>
              (told,
                { state with
                  situation := (),
                  history := state.history ++
                    [Op.outside (.direntReaderNext listing.directory.text
                      listing.reads)] }))
            same
      | _ => rfl

/-- Two pools over the bytes and over the records, after the same moves. -/
structure OneWalk (bytes : ByteWorld) (resume : Bool → Option (Action Bool))
    (overTheBytes : Pool (machine bytes.environment capacity) Bool)
    (overTheRecords : Pool (machine bytes.records.environment capacity) Bool)
    (moves : List (Move (machine bytes.records.environment capacity))) :
    Prop where
  state :
    (Pool.run resume overTheBytes
        (moves.map (overBytes bytes capacity).move)).state =
      (Pool.run resume overTheRecords moves).state
  threads :
    (Pool.run resume overTheBytes
        (moves.map (overBytes bytes capacity).move)).threads =
      (Pool.run resume overTheRecords moves).threads
  log :
    Pool.log resume overTheBytes
        (moves.map (overBytes bytes capacity).move) =
      Pool.log resume overTheRecords moves
  /-- No reader is called behind the end of its listing. -/
  within : ∀ event ∈ Pool.log resume overTheRecords moves,
    ∀ path index, event.op = .outside (.direntReaderNext path index) →
      index ≤ bytes.count path
  /-- Every call of a reader that the walk has made has returned. -/
  returned : ∀ event ∈ Pool.log resume overTheRecords moves,
    ∀ path index, event.op = .outside (.direntReaderNext path index) →
      bytes.shown path index ≠ none

theorem oneWalk_of_sound {resume : Bool → Option (Action Bool)}
    {waiting : Bool → Conduct → Prop}
    (resumes : Noted.Resumes (conducting config worker) resume waiting)
    {noted : Noted (machine bytes.records.environment capacity) Bool Conduct}
    (orderly : Noted.Orderly (conducting config worker) waiting noted)
    (begins : ∀ conduct ∈ noted.notes, Within bytes.records conduct)
    (moves : List (Move (machine bytes.records.environment capacity))) :
    OneWalk bytes resume ((overBytes bytes capacity).pool noted.pool)
      noted.pool moves := by
  have sound :
      Noted.Sound (conducting config worker) waiting
        (fun (_ : (machine bytes.records.environment capacity).State)
          conducts => ∀ conduct ∈ conducts, Within bytes.records conduct)
        noted :=
    ⟨orderly, begins⟩
  have alike : (overBytes bytes capacity).DriftsAlike := fun _ _ => rfl
  rcases Translation.run_pool alike resumes upholds_within
      (fun current thread choice op held isSound found isNext =>
        agreesAt_overBytes
          (isSound.property held (List.mem_of_getElem? found)) isNext
          current.pool.state choice)
      sound moves with ⟨ran, logged⟩
  have within :
      ∀ event ∈ Pool.log resume noted.pool moves, ∀ path index,
        event.op = .outside (.direntReaderNext path index) →
          index ≤ bytes.count path := by
    intro event member path index isRead
    rcases List.append_of_mem member with ⟨before, after, split⟩
    rcases sound.logged resumes upholds_within
        (Noted.each_of_forall _ moves fun _ _ _ => trivial) split with
      ⟨reached, isSound, _, held, found, isNext⟩
    have reads : held.op config = some event.op := isNext
    rw [isRead] at reads
    rcases reading_of_op reads with ⟨goesOn, listing, isHead, rfl, rfl⟩
    exact
      (isSound.property held (List.mem_of_getElem? found)).innermost goesOn
        listing isHead
  refine ⟨by rw [ran]; rfl, by rw [ran]; rfl, logged, within, ?_⟩
  intro event member path index isRead
  have inside := within event member path index isRead
  have short : index < (bytes.records.listing path).shown.length := by
    rw [length_shown]
    exact Nat.lt_succ_of_le inside
  rw [ByteWorld.shown_of_le inside, List.getElem?_eq_getElem short]
  exact Option.some_ne_none _

end Bytes

/--
A walk over the bytes of the kernel, sequential or parallel and in every
interleaving, is the walk over the records that the bytes stand for: the same
calls with the same responses, the same state and the same points in all
threads; and no reader is called where it would not return.
-/
theorem walk_reads_bytes (bytes : ByteWorld) (config : Config) :
    (∀ moves,
      OneWalk bytes sequentialResume
        (sequentialPool bytes.environment config ())
        (sequentialPool bytes.records.environment config ()) moves) ∧
      ∀ memory workers moves,
        OneWalk bytes (workerResume config)
          (parallelPool bytes.environment config memory workers ())
          (parallelPool bytes.records.environment config memory workers ())
          moves := by
  have fresh : ∀ point, Within bytes.records ⟨[], point⟩ := by
    intro point
    refine ⟨?_, ?_⟩
    · intro listing member
      cases member
    · intro _ listing isHead
      cases isHead
  constructor
  · intro moves
    have orderly :
        Noted.Orderly (conducting config false) (fun _ held => AtEnd held)
          (⟨sequentialPool bytes.records.environment config (),
            [sequentialStart config]⟩ : Noted _ Bool Conduct) :=
      .cons keeps_walkSequential_conducting .nil
    refine oneWalk_of_sound resumes_sequential_conducting orderly ?_ moves
    intro conduct member
    rw [List.mem_singleton.mp member, sequentialStart]
    split
    · exact fresh _
    · exact fresh _
  · intro memory workers moves
    have orderly :
        Noted.Orderly (conducting config true) (Between config)
          (⟨parallelPool bytes.records.environment config memory workers (),
            List.replicate workers ⟨[], .starting⟩⟩ :
              Noted _ Bool Conduct) :=
      .replicate keeps_workerStart_conducting _ workers
    refine oneWalk_of_sound resumes_worker_conducting orderly ?_ moves
    intro conduct member
    rw [List.eq_of_mem_replicate member]
    exact fresh _

/-! ## The bytes of `r/d/b` -/

theorem short_dot : (0 : Byte) ∉ [dot] ∧ [dot].length ≤ 4 := by
  decide

theorem short_dotDot : (0 : Byte) ∉ [dot, dot] ∧ [dot, dot].length ≤ 4 := by
  decide

theorem short_d :
    (0 : Byte) ∉ nestedDirectory.name.bytes ∧
      nestedDirectory.name.bytes.length ≤ 4 := by
  decide

theorem short_b :
    (0 : Byte) ∉ nestedFile.name.bytes ∧
      nestedFile.name.bytes.length ≤ 4 := by
  decide

/-- The first buffer for `r`: `.` and `d`. -/
def firstOfRoot : List DirentRecord :=
  [DirentReader.shortRecord ⟨_, short_dot⟩ dtDir,
    DirentReader.shortRecord ⟨_, short_d⟩ dtDir]

/-- The second buffer for `r`: `..` alone. -/
def secondOfRoot : List DirentRecord :=
  [DirentReader.shortRecord ⟨_, short_dotDot⟩ dtDir]

/-- The buffer for `r/d`. -/
def onlyOfNested : List DirentRecord :=
  [DirentReader.shortRecord ⟨_, short_dotDot⟩ dtDir,
    DirentReader.shortRecord ⟨_, short_b⟩ dtReg]

theorem named_buffers :
    ∀ record ∈ firstOfRoot ++ secondOfRoot ++ onlyOfNested,
      record.name ≠ [] ∧ slash ∉ record.name := by
  decide

theorem fits_buffers :
    (DirentRecord.layout firstOfRoot).length ≤ direntReaderBufferSize ∧
      (DirentRecord.layout secondOfRoot).length ≤ direntReaderBufferSize ∧
      (DirentRecord.layout onlyOfNested).length ≤
        direntReaderBufferSize := by
  decide

/-- The result `0` of `getdents64`. -/
def endOfDirectory : Delivery :=
  .records [] (Nat.zero_le _)

/-- What `getdents64` does for the directories of `r/d/b`. -/
def nestedDeliveries (path : Path) : List Delivery :=
  if path = [114] then
    [.records firstOfRoot fits_buffers.1,
      .records secondOfRoot fits_buffers.2.1, endOfDirectory]
  else if path = [114, 47, 100] then
    [.records onlyOfNested fits_buffers.2.2, endOfDirectory]
  else [endOfDirectory]

theorem named_nestedDeliveries (path : Path) :
    ∀ delivery ∈ nestedDeliveries path, Delivery.Named delivery := by
  have atEnd : Delivery.Named endOfDirectory := by
    intro record member
    cases member
  have of_buffer :
      ∀ listed fits, listed ⊆ firstOfRoot ++ secondOfRoot ++ onlyOfNested →
        Delivery.Named (.records listed fits) :=
    fun listed _ inside record member =>
      named_buffers record (inside member)
  intro delivery member
  unfold nestedDeliveries at member
  split at member
  · simp only [List.mem_cons, List.not_mem_nil, or_false] at member
    rcases member with rfl | rfl | rfl
    · exact of_buffer _ _ (by simp)
    · exact of_buffer _ _ (by simp)
    · exact atEnd
  · split at member
    · simp only [List.mem_cons, List.not_mem_nil, or_false] at member
      rcases member with rfl | rfl
      · exact of_buffer _ _ (by simp)
      · exact atEnd
    · rw [List.mem_singleton.mp member]
      exact atEnd

theorem ends_nestedDeliveries (path : Path) :
    ∃ delivery ∈ nestedDeliveries path, Delivery.Ends delivery := by
  refine ⟨endOfDirectory, ?_, trivial⟩
  unfold nestedDeliveries
  split
  · simp
  · split <;> simp

/-- A reader that was reset in the middle of something else. -/
def resetReader : DirentReader :=
  DirentReader.reset
    ⟨3, Errno.eio, 24, 5, List.replicate 8192 46, List.length_replicate⟩ 9

/-- The file system `r/d/b`, down to the bytes of its directories. -/
def nestedBytes : ByteWorld where
  openError := nestedWorld.openError
  deliveries := nestedDeliveries
  named := named_nestedDeliveries
  ends := ends_nestedDeliveries
  reader _ := resetReader
  fresh _ := Or.inr ⟨_, _, rfl⟩
  coreLength := DirentReader.cStringLength
  measures := DirentReader.measures_cStringLength
  stat := nestedWorld.stat
  filter := nestedWorld.filter
  shouldDescend := nestedWorld.shouldDescend

/-- Its bytes stand for the records of `r/d/b`. -/
theorem records_nestedBytes : nestedBytes.records = nestedWorld := by
  have same :
      (fun path => listingOf (nestedDeliveries path)) =
        nestedWorld.listing := by
    funext path
    unfold nestedDeliveries nestedWorld
    dsimp only
    split
    · decide
    · split
      · decide
      · rfl
  unfold ByteWorld.records
  change World.mk _ (fun path => listingOf (nestedDeliveries path)) _ _ _ = _
  rw [same]
  rfl

/-- Two workers on these bytes do what they do in the world `r/d/b`. -/
theorem walk_reads_bytes_nested :
    nestedBytes.records = nestedWorld ∧
      OneWalk nestedBytes (workerResume nestedConfig)
        (parallelPool nestedBytes.environment nestedConfig [114, 0] 2 ())
        (parallelPool nestedBytes.records.environment nestedConfig [114, 0]
          2 ())
        (List.replicate 36 (.turn 0 ((), ⟨false, 0⟩))) :=
  ⟨records_nestedBytes, (walk_reads_bytes nestedBytes nestedConfig).2 _ _ _⟩

end BcIo.Walk
