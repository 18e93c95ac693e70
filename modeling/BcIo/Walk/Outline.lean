import BcIo.Walk.Run
import BcIo.Foundation.Bookkeeping

/-!
# The outline of a walk

What the two walkers do in any environment, in the order in which they do it.
An outline says what a discipline makes of the stages of a walk; the inductions
over the listing loop and over the recursions of the walkers are made here once,
for every outline.
-/

namespace BcIo.Walk

open BcIo.File
open BcIo.Foundation.Bookkeeping
open BcIo.Foundation.Interaction
open BcIo.Foundation.WorkerPool

/-- Operations that a discipline takes no note of while a walk is calm. -/
def Ordinary : Op → Prop
  | .outside .direntReaderCreate => True
  | .outside (.direntReaderNext _ _) => True
  | .outside (.fstatat _ _ _) => True
  | .outside (.onError _ _ _) => True
  | .shared (.count _) => True
  | _ => False

/-- An entry that a record of the directory can lead to. -/
def Offspring (directory : Directory) (entry : Entry) : Prop :=
  ∃ name : EntryName,
    pathJoin maxPathLength directory.path name.bytes =
        some entry.absolutePath ∧
      entry.absolutePathLength = entry.absolutePath.length ∧
      entry.depth = sizeAdd directory.depth 1

variable {ν κ α β : Type}

/-- The operation is permitted and changes nothing in the note. -/
def Unnoted (discipline : Discipline Op Op.Response ν) (held : ν)
    (op : Op) : Prop :=
  discipline.permits held op ∧
    ∀ response, discipline.note held op response = held

/-! ## Parts that are not taken note of -/

section Unnoted

variable {discipline : Discipline Op Op.Response ν} {held : ν}
  {config : Config}

theorem Unnoted.keeps {op : Op} (unnoted : Unnoted discipline held op) :
    Keeps discipline (fun _ last => last = held) (Program.perform op)
      held :=
  Keeps.perform unnoted.1 fun response _ => unnoted.2 response

theorem keeps_shouldStop
    (polls : Unnoted discipline held (.outside .shouldStopCheck)) :
    Keeps discipline (fun _ last => last = held) (shouldStop config)
      held := by
  unfold shouldStop
  split
  · exact polls.keeps
  · exact rfl

theorem keeps_parallelHalted
    (loads : Unnoted discipline held (.shared .loadVisitFailed)) :
    Keeps discipline (fun _ last => last = held) parallelHalted held :=
  loads.keeps

theorem keeps_sequentialHalted
    (loads : Unnoted discipline held (.shared .loadVisitFailed))
    (polls : Unnoted discipline held (.outside .shouldStopCheck)) :
    Keeps discipline (fun _ last => last = held)
      (sequentialHalted config) held := by
  refine Keeps.bind (keeps_parallelHalted loads) ?_
  rintro failed last rfl
  cases failed with
  | true => exact rfl
  | false => exact keeps_shouldStop polls

/-- A worker that gets no reader reports it and raises the flag. -/
theorem keeps_workerStart
    (creates : Unnoted discipline held (.outside .direntReaderCreate))
    (counts : Unnoted discipline held
      (.shared (.count .errorsEncountered)))
    (stores : Unnoted discipline held (.shared .storeVisitFailed))
    (reports : ∀ path stage errno,
      Unnoted discipline held (.outside (.onError path stage errno))) :
    Keeps discipline (fun _ last => last = held) (workerStart config)
      held := by
  refine Keeps.bind creates.keeps ?_
  rintro created last rfl
  split
  · exact rfl
  · refine Keeps.bind counts.keeps ?_
    rintro _ last rfl
    refine Keeps.bind stores.keeps ?_
    rintro _ last rfl
    split
    · exact Keeps.bind (reports _ _ _).keeps fun _ _ same => same
    · exact rfl

end Unnoted

/-! ## Outlines -/

/--
The stages of a walk.  A context `κ` says where the walk is: which directories
are open.  In each turn of a listing loop the walk looks whether it is halted,
from `head` on; then it is `fresh`, and after a visit it has `seen` the entry.
A directory that is `ready` to be walked is `opening` once the walk has looked
again.
-/
structure Outline (config : Config) (halted : Action Bool)
    (ν κ : Type) where
  discipline : Discipline Op Op.Response ν
  calm : ν → Prop
  head : κ → ν → Prop
  fresh : κ → ν → Prop
  seen : κ → ν → Prop
  within : κ → Directory → Prop
  ready : κ → Directory → ν → Prop
  opening : κ → Directory → ν → Prop
  inside : κ → Directory → κ
  fresh_seen : ∀ {context held}, fresh context held → seen context held
  seen_head : ∀ {context held}, seen context held → head context held
  seen_calm : ∀ {context held}, seen context held → calm held
  ready_head : ∀ {context directory held},
    ready context directory held → head context held
  ordinary : ∀ {held op}, calm held → Ordinary op →
    Unnoted discipline held op
  asks : ∀ {context directory entry held}, within context directory →
    Offspring directory entry → calm held →
    Unnoted discipline held (.outside (.filter entry)) ∧
      Unnoted discipline held (.outside (.shouldDescend entry))
  visits : ∀ {context directory entry held}, within context directory →
    Offspring directory entry → fresh context held →
    discipline.permits held (.outside (.visit entry)) ∧
      seen context
        (discipline.note held (.outside (.visit entry)) true) ∧
      discipline.permits
        (discipline.note held (.outside (.visit entry)) false)
        (.shared .storeVisitFailed) ∧
      head context
        (discipline.note
          (discipline.note held (.outside (.visit entry)) false)
          (.shared .storeVisitFailed) ())
  looks : ∀ {context held}, head context held →
    Keeps discipline
      (fun isHalted last =>
        head context last ∧ (isHalted = false → fresh context last))
      halted held
  begins : ∀ {context directory held}, ready context directory held →
    Keeps discipline
      (fun isHalted last =>
        head context last ∧
          (isHalted = false → opening context directory last))
      halted held
  opens : ∀ {context directory held}, opening context directory held →
    discipline.permits held
        (.outside
          (.openDirectory directory.text (!config.followSymlinks))) ∧
      (∀ errno,
        fresh context
          (discipline.note held
            (.outside
              (.openDirectory directory.text (!config.followSymlinks)))
            (.error errno))) ∧
      (∀ entries,
        fresh (inside context directory)
          (discipline.note held
            (.outside
              (.openDirectory directory.text (!config.followSymlinks)))
            (.ok entries))) ∧
      within (inside context directory) directory
  closes : ∀ {context directory held},
    head (inside context directory) held →
    discipline.permits held (.outside (.closeDirectory directory.text)) ∧
      head context
        (discipline.note held (.outside (.closeDirectory directory.text)) ())
  /-- How many entries a directory has at most, and how deep it can nest. -/
  listing : Path → Nat
  rank : Directory → Nat
  /-- Unless recursions may be cut off, listings end and nesting does. -/
  opened : discipline.cut ∨ ∀ held path noFollow entries,
    discipline.allowed held (.outside (.openDirectory path noFollow))
      (.ok entries) → listing path ≤ entries
  listed : discipline.cut ∨ ∀ held path index dirent,
    discipline.allowed held (.outside (.direntReaderNext path index))
      (.entry dirent) → index < listing path
  nested : discipline.cut ∨ ∀ context directory entry,
    within context directory → Offspring directory entry →
    rank entry.directory < rank directory

namespace Outline

variable {config : Config} {halted : Action Bool}
  (outline : Outline config halted ν κ)

/-- The program keeps to the discipline and leaves the note as it is. -/
abbrev Stays (program : Action α) (held : ν) : Prop :=
  Keeps outline.discipline (fun _ last => last = held) program held

/-- The program keeps to the discipline and ends at the head of a turn. -/
abbrev Ends (context : κ) (program : Action α) (held : ν) : Prop :=
  Keeps outline.discipline (fun _ last => outline.head context last) program
    held

variable {outline} {held : ν} {context : κ}

theorem fresh_head (isFresh : outline.fresh context held) :
    outline.head context held :=
  outline.seen_head (outline.fresh_seen isFresh)

theorem fresh_calm (isFresh : outline.fresh context held) :
    outline.calm held :=
  outline.seen_calm (outline.fresh_seen isFresh)

theorem Stays.bind {program : Action α} {rest : α → Action β}
    (first : outline.Stays program held)
    (second : ∀ value, outline.Stays (rest value) held) :
    outline.Stays (program >>= rest) held := by
  apply Keeps.bind first
  rintro value last rfl
  exact second value

theorem Stays.ret (value : α) : outline.Stays (.ret value) held :=
  rfl

theorem Stays.perform {op : Op}
    (unnoted : Unnoted outline.discipline held op) :
    outline.Stays (Program.perform op) held :=
  unnoted.keeps

theorem Stays.ends {program : Action α}
    (isHead : outline.head context held)
    (stays : outline.Stays program held) :
    outline.Ends context program held := by
  refine stays.mono ?_
  rintro value last rfl
  exact isHead

theorem stays_outside {call : Call} (isCalm : outline.calm held)
    (isOrdinary : Ordinary (.outside call)) :
    outline.Stays (outside call) held :=
  .perform (outline.ordinary isCalm isOrdinary)

theorem stays_count (isCalm : outline.calm held) (counter : Counter) :
    outline.Stays (shared (.count counter)) held :=
  .perform (outline.ordinary isCalm trivial)

/-! ## One entry -/

theorem stays_reportError (isCalm : outline.calm held) (path : Path)
    (stage : Stage) (errno : Errno) :
    outline.Stays (reportError config path stage errno) held := by
  unfold reportError
  refine .bind (stays_count isCalm _) ?_
  intro _
  split
  · exact stays_outside isCalm trivial
  · exact .ret _

theorem stays_resolveType (isCalm : outline.calm held)
    (directory : Directory) (childPath : Path) (dirent : Dirent) :
    outline.Stays (resolveType config directory childPath dirent) held := by
  unfold resolveType
  split
  · exact .ret _
  · refine .bind (stays_outside isCalm trivial) ?_
    intro status
    cases status with
    | error errno =>
        exact .bind (stays_reportError isCalm _ _ _) fun _ => .ret _
    | ok stat => exact .ret _

theorem stays_resolveStat (isCalm : outline.calm held)
    (directory : Directory) (childPath : Path) (dirent : Dirent)
    (resolved : Resolved) :
    outline.Stays
      (resolveStat config directory childPath dirent resolved) held := by
  unfold resolveStat
  split
  · refine .bind (stays_outside isCalm trivial) ?_
    intro status
    cases status with
    | error errno =>
        exact .bind (stays_reportError isCalm _ _ _) fun _ => .ret _
    | ok stat => exact .ret _
  · exact .ret _

/-- Examining a record leads to an offspring, or to nothing. -/
theorem keeps_examineEntry (isCalm : outline.calm held)
    (directory : Directory) (dirent : Dirent) :
    Keeps outline.discipline
      (fun found last => last = held ∧
        ∀ entry, found = some entry → Offspring directory entry)
      (examineEntry config directory dirent) held := by
  have nothing :
      ∀ entry, (none : Option Entry) = some entry →
        Offspring directory entry := by
    intro entry impossible
    cases impossible
  unfold examineEntry
  split
  · exact ⟨rfl, nothing⟩
  · cases joins :
        pathJoin maxPathLength directory.path dirent.name.bytes with
    | none =>
        refine Keeps.bind (stays_reportError isCalm _ _ _) ?_
        intro _ last same
        exact ⟨same, nothing⟩
    | some childPath =>
        refine Keeps.bind (stays_resolveType isCalm _ _ _) ?_
        rintro first last rfl
        cases first with
        | none => exact ⟨rfl, nothing⟩
        | some resolved =>
            refine Keeps.bind (stays_resolveStat isCalm _ _ _ _) ?_
            rintro second last rfl
            cases second with
            | none => exact ⟨rfl, nothing⟩
            | some resolved =>
                refine ⟨rfl, ?_⟩
                rintro entry isEntry
                cases isEntry
                exact ⟨dirent.name, joins, rfl, rfl⟩

section Entry

variable {directory : Directory} {entry : Entry}
  (isWithin : outline.within context directory)
  (offspring : Offspring directory entry)

include isWithin offspring

theorem stays_passesFilter (isCalm : outline.calm held) :
    outline.Stays (passesFilter config entry) held := by
  unfold passesFilter
  split
  · exact .perform (outline.asks isWithin offspring isCalm).1
  · exact .ret _

theorem stays_wantsDescend (isCalm : outline.calm held) :
    outline.Stays (wantsDescend config entry) held := by
  unfold wantsDescend
  split
  · exact .perform (outline.asks isWithin offspring isCalm).2
  · exact .ret _

theorem keeps_visitEntry (isFresh : outline.fresh context held) :
    Keeps outline.discipline
      (fun visited last => outline.head context last ∧
        (visited = true → outline.seen context last))
      (visitEntry entry) held := by
  rcases outline.visits isWithin offspring isFresh with
    ⟨visits, seen, stores, stored⟩
  refine ⟨visits, ?_⟩
  intro visited _
  cases visited with
  | true => exact ⟨outline.seen_head seen, fun _ => seen⟩
  | false =>
      refine ⟨stores, ?_⟩
      intro _ _
      refine ⟨stored, ?_⟩
      intro impossible
      cases impossible

theorem keeps_visitDirectory (isFresh : outline.fresh context held) :
    Keeps outline.discipline
      (fun visited last => outline.head context last ∧
        (visited = true → outline.seen context last))
      (visitDirectory config entry) held := by
  unfold visitDirectory
  split
  · exact keeps_visitEntry isWithin offspring isFresh
  · exact ⟨fresh_head isFresh, fun _ => outline.fresh_seen isFresh⟩

theorem ends_enterDirectory {descend : Directory → Action Unit}
    (descends : ∀ held, outline.seen context held →
      outline.Ends context (descend entry.directory) held)
    (isFresh : outline.fresh context held) :
    outline.Ends context (enterDirectory config descend entry) held := by
  unfold enterDirectory
  refine Keeps.bind
    (keeps_visitDirectory isWithin offspring isFresh) ?_
  rintro visited last ⟨isHead, isSeen⟩
  split
  · rename_i went
    refine Keeps.bind
      (stays_wantsDescend isWithin offspring
        (outline.seen_calm (isSeen went))) ?_
    rintro wanted last rfl
    split
    · refine Keeps.bind (descends last (isSeen went)) ?_
      intro _ last isHead
      exact isHead
    · exact isHead
  · exact isHead

end Entry

theorem ends_handleEntry {directory : Directory}
    (isWithin : outline.within context directory)
    {descend : Directory → Action Unit}
    (descends : ∀ entry held, Offspring directory entry →
      outline.seen context held →
      outline.Ends context (descend entry.directory) held)
    (isFresh : outline.fresh context held) (dirent : Dirent) :
    outline.Ends context (handleEntry config descend directory dirent)
      held := by
  have isCalm := fresh_calm isFresh
  unfold handleEntry
  refine Keeps.bind (keeps_examineEntry isCalm directory dirent) ?_
  rintro found last ⟨rfl, offspring⟩
  cases found with
  | none => exact fresh_head isFresh
  | some entry =>
      have isOffspring := offspring entry rfl
      refine Keeps.bind (stays_passesFilter isWithin isOffspring isCalm) ?_
      rintro accepted last rfl
      split
      · split
        · refine Keeps.bind (stays_count isCalm _) ?_
          rintro _ last rfl
          refine (keeps_visitEntry isWithin isOffspring isFresh).mono ?_
          intro visited last follows
          exact follows.1
        · exact ends_enterDirectory isWithin isOffspring
            (fun held => descends entry held isOffspring) isFresh
        · exact fresh_head isFresh
        · exact fresh_head isFresh
      · refine Keeps.bind (stays_count isCalm _) ?_
        rintro _ last rfl
        exact fresh_head isFresh

/-! ## One directory -/

/-- The induction is on the calls that are left; each one reads an entry. -/
theorem ends_listingLoop {directory : Directory}
    (isWithin : outline.within context directory)
    {descend : Directory → Action Unit}
    (descends : ∀ entry held, Offspring directory entry →
      outline.seen context held →
      outline.Ends context (descend entry.directory) held)
    {calls index : Nat}
    (enough : outline.discipline.cut ∨
      index ≤ outline.listing directory.text ∧
        outline.listing directory.text < calls + index)
    (isHead : outline.head context held) :
    outline.Ends context
      (listingLoop config halted descend directory calls index) held := by
  induction calls generalizing index held with
  | zero =>
      rcases enough with cut | ⟨low, high⟩
      · exact cut
      · omega
  | succ calls induction =>
      unfold listingLoop
      refine Keeps.bind (outline.looks isHead) ?_
      rintro isHalted last ⟨isHead, isFresh⟩
      split
      · exact isHead
      · rename_i goesOn
        have isFresh := isFresh (Bool.eq_false_of_not_eq_true goesOn)
        have isCalm := fresh_calm isFresh
        have isOrdinary :
            Ordinary (.outside (.direntReaderNext directory.text index)) :=
          trivial
        rcases outline.ordinary isCalm isOrdinary with ⟨permitted, same⟩
        refine ⟨permitted, ?_⟩
        intro next allowed
        rw [same next]
        cases next with
        | failed lastErrno =>
            exact (stays_reportError isCalm _ _ _).ends (fresh_head isFresh)
        | finished => exact fresh_head isFresh
        | entry dirent =>
            change Keeps _ _
              (handleEntry config descend directory dirent >>= _) _
            refine Keeps.bind
              (ends_handleEntry isWithin descends isFresh dirent) ?_
            intro continues last isHead
            split
            · refine induction ?_ isHead
              rcases enough with cut | ⟨_, high⟩
              · exact Or.inl cut
              · rcases outline.listed with cut | listed
                · exact Or.inl cut
                · have more := listed _ _ _ _ allowed
                  exact Or.inr ⟨more, by omega⟩
            · exact isHead

/-- What is done with a directory that is about to be opened. -/
theorem ends_opening {directory : Directory}
    (isOpening : outline.opening context directory held)
    {rest : Except Errno Nat → Action Unit}
    (fails : ∀ errno held, outline.fresh context held →
      outline.Ends context (rest (.error errno)) held)
    (succeeds : ∀ entries held,
      outline.fresh (outline.inside context directory) held →
      outline.within (outline.inside context directory) directory →
      (outline.discipline.cut ∨
        outline.listing directory.text ≤ entries) →
      outline.Ends context (rest (.ok entries)) held) :
    outline.Ends context
      (outside (.openDirectory directory.text (!config.followSymlinks)) >>=
        rest) held := by
  rcases outline.opens isOpening with ⟨permitted, failed, opened, isWithin⟩
  refine ⟨permitted, ?_⟩
  intro response allowed
  cases response with
  | error errno => exact fails errno _ (failed errno)
  | ok entries =>
      refine succeeds entries _ (opened entries) isWithin ?_
      rcases outline.opened with cut | opened
      · exact Or.inl cut
      · exact Or.inr (opened _ _ _ _ allowed)

theorem ends_closeDirectory {directory : Directory}
    (isHead : outline.head (outline.inside context directory) held) :
    outline.Ends context (outside (.closeDirectory directory.text))
      held := by
  rcases outline.closes isHead with ⟨permitted, closed⟩
  exact ⟨permitted, fun _ _ => closed⟩

/-- The listing of an open directory, up to its closing. -/
theorem ends_listing {directory : Directory} {entries : Nat}
    {descend : Directory → Action Unit}
    (isWithin :
      outline.within (outline.inside context directory) directory)
    (enough : outline.discipline.cut ∨
      outline.listing directory.text ≤ entries)
    (descends : ∀ entry held, Offspring directory entry →
      outline.seen (outline.inside context directory) held →
      outline.Ends (outline.inside context directory)
        (descend entry.directory) held)
    (isFresh : outline.fresh (outline.inside context directory) held) :
    outline.Ends context
      (listingLoop config halted descend directory (entries + 1) 0 >>=
        fun _ => outside (.closeDirectory directory.text)) held := by
  refine Keeps.bind
    (ends_listingLoop isWithin descends ?_ (fresh_head isFresh)) ?_
  · rcases enough with cut | enough
    · exact Or.inl cut
    · exact Or.inr ⟨Nat.zero_le _, by omega⟩
  · intro _ last isHead
    exact ends_closeDirectory isHead

/-- One level of nesting less is enough for an entry of the directory. -/
theorem deeper {levels : Nat} {directory : Directory} {entry : Entry}
    (enough : outline.discipline.cut ∨ outline.rank directory < levels + 1)
    (isWithin : outline.within context directory)
    (offspring : Offspring directory entry) :
    outline.discipline.cut ∨ outline.rank entry.directory < levels := by
  rcases enough with cut | low
  · exact Or.inl cut
  · rcases outline.nested with cut | nested
    · exact Or.inl cut
    · have lower := nested _ _ _ isWithin offspring
      exact Or.inr (by omega)

end Outline

/-! ## The sequential walk -/

/-- An outline of the sequential walk, which recurses at once. -/
structure SequentialOutline (config : Config) (ν κ : Type) extends
    Outline config (sequentialHalted config) ν κ where
  recurses : ∀ {context directory entry held}, within context directory →
    Offspring directory entry → seen context held →
    ready context entry.directory held

namespace SequentialOutline

variable {config : Config} {outline : SequentialOutline config ν κ}

open Outline in
theorem ends_sequentialRecurse {levels : Nat} {directory : Directory}
    {context : κ} {held : ν}
    (enough : outline.discipline.cut ∨ outline.rank directory < levels)
    (isReady : outline.ready context directory held) :
    outline.Ends context (sequentialRecurse config levels directory)
      held := by
  induction levels generalizing directory context held with
  | zero =>
      rcases enough with cut | impossible
      · exact cut
      · omega
  | succ levels induction =>
      change outline.Ends context (sequentialBody config _ directory) held
      unfold sequentialBody
      refine Keeps.bind (outline.begins isReady) ?_
      rintro isHalted last ⟨isHead, isOpening⟩
      split
      · exact isHead
      · rename_i goesOn
        refine ends_opening
          (isOpening (Bool.eq_false_of_not_eq_true goesOn)) ?_ ?_
        · intro errno last isFresh
          exact (stays_reportError (fresh_calm isFresh) _ _ _).ends
            (fresh_head isFresh)
        · intro entries last isFresh isWithin listed
          refine Keeps.bind (stays_count (fresh_calm isFresh) _) ?_
          rintro _ last rfl
          refine Keeps.bind
            (stays_outside (fresh_calm isFresh) trivial) ?_
          rintro created last rfl
          split
          · refine ends_listing isWithin listed ?_ isFresh
            intro entry held offspring isSeen
            exact induction (deeper enough isWithin offspring)
              (outline.recurses isWithin offspring isSeen)
          · refine Keeps.bind
              (stays_reportError (fresh_calm isFresh) _ _ _) ?_
            rintro _ last rfl
            exact ends_closeDirectory (fresh_head isFresh)

end SequentialOutline

/-! ## The parallel walk -/

/-- An outline of the parallel walk, which hands directories over. -/
structure ParallelOutline (config : Config) (ν κ : Type) extends
    Outline config parallelHalted ν κ where
  ready_calm : ∀ {context directory held},
    ready context directory held → calm held
  /-- A directory is handed over, or the attempt is undone. -/
  hands : ∀ {context directory entry held}, within context directory →
    Offspring directory entry → seen context held →
    let raised := discipline.note held (.shared .raiseOutstanding) ()
    let refused :=
      discipline.note raised (.shared (.queuePush entry.directory)) false
    discipline.permits held (.shared .raiseOutstanding) ∧
      discipline.permits raised (.shared (.queuePush entry.directory)) ∧
      head context
        (discipline.note raised (.shared (.queuePush entry.directory))
          true) ∧
      discipline.permits refused (.shared .undoOutstanding) ∧
      ready context entry.directory
        (discipline.note refused (.shared .undoOutstanding) ())
  /-- The notes between the turns of the loop, and at its start. -/
  idle : ν → Prop
  starting : ν → Prop
  starts : ∀ {held}, starting held →
    Keeps discipline (fun _ last => idle last) (workerStart config) held
  polled : ν → Prop
  polls : ∀ {held}, idle held →
    Keeps discipline
      (fun isStopped last =>
        idle last ∧ (isStopped = false → polled last))
      (shouldStop config) held
  looked : ν → Prop
  checks : ∀ {held}, polled held →
    Keeps discipline
      (fun isHalted last =>
        idle last ∧ (isHalted = false → looked last))
      parallelHalted held
  misses : ∀ {held}, looked held →
    let missed := discipline.note held (.shared .queuePop) none
    discipline.permits held (.shared .queuePop) ∧
      discipline.permits missed (.shared .loadOutstanding) ∧
      ∀ outstanding,
        idle (discipline.note missed (.shared .loadOutstanding) outstanding)
  takes : ∀ {held directory}, looked held →
    discipline.allowed held (.shared .queuePop) (some directory) →
    (discipline.cut ∨ rank directory < maxPathLength) ∧ ∃ context,
      ready context directory
          (discipline.note held (.shared .queuePop) (some directory)) ∧
        ∀ last, head context last →
          discipline.permits last (.shared .finishOutstanding) ∧
            idle (discipline.note last (.shared .finishOutstanding) ())

namespace ParallelOutline

open Outline

variable {config : Config} {outline : ParallelOutline config ν κ}

theorem ends_enqueueDirectory {process : Directory → Action Unit}
    {directory : Directory} {entry : Entry} {context : κ} {held : ν}
    (isWithin : outline.within context directory)
    (offspring : Offspring directory entry)
    (processes : ∀ held, outline.ready context entry.directory held →
      outline.Ends context (process entry.directory) held)
    (isSeen : outline.seen context held) :
    outline.Ends context (enqueueDirectory config process entry.directory)
      held := by
  rcases outline.hands isWithin offspring isSeen with
    ⟨raises, pushes, pushed, undoes, isReady⟩
  refine ⟨raises, fun _ _ => ⟨pushes, ?_⟩⟩
  intro accepted _
  cases accepted with
  | true => exact pushed
  | false =>
      refine ⟨undoes, ?_⟩
      intro _ _
      have isCalm := outline.ready_calm isReady
      change Keeps _ _ (outside .direntReaderCreate >>= _) _
      refine Keeps.bind (stays_outside isCalm trivial) ?_
      rintro created last rfl
      split
      · exact processes _ isReady
      · exact (stays_reportError isCalm _ _ _).ends
          (outline.ready_head isReady)

theorem ends_processDirectory {levels : Nat} {directory : Directory}
    {context : κ} {held : ν}
    (enough : outline.discipline.cut ∨ outline.rank directory < levels)
    (isReady : outline.ready context directory held) :
    outline.Ends context (processDirectory config levels directory)
      held := by
  induction levels generalizing directory context held with
  | zero =>
      rcases enough with cut | impossible
      · exact cut
      · omega
  | succ levels induction =>
      change outline.Ends context (processBody config _ directory) held
      unfold processBody
      refine Keeps.bind (outline.begins isReady) ?_
      rintro isHalted last ⟨isHead, isOpening⟩
      split
      · exact isHead
      · rename_i goesOn
        refine ends_opening
          (isOpening (Bool.eq_false_of_not_eq_true goesOn)) ?_ ?_
        · intro errno last isFresh
          exact (stays_reportError (fresh_calm isFresh) _ _ _).ends
            (fresh_head isFresh)
        · intro entries last isFresh isWithin listed
          refine Keeps.bind (stays_count (fresh_calm isFresh) _) ?_
          rintro _ last rfl
          refine ends_listing isWithin listed ?_ isFresh
          intro entry held offspring isSeen
          exact ends_enqueueDirectory isWithin offspring
            (fun held isReady =>
              induction (deeper enough isWithin offspring) isReady) isSeen

variable (outline) in
/-- The program keeps to the discipline and ends between two turns. -/
abbrev Rests (program : Action α) (held : ν) : Prop :=
  Keeps outline.discipline (fun _ last => outline.idle last) program held

theorem rests_workerTurn {held : ν} (isIdle : outline.idle held) :
    outline.Rests (workerTurn config) held := by
  unfold workerTurn
  refine Keeps.bind (outline.polls isIdle) ?_
  rintro isStopped last ⟨isIdle, isPolled⟩
  split
  · exact isIdle
  · rename_i goesOn
    refine Keeps.bind
      (outline.checks (isPolled (Bool.eq_false_of_not_eq_true goesOn))) ?_
    rintro isHalted last ⟨isIdle, isLooked⟩
    split
    · exact isIdle
    · rename_i goesOn
      have isLooked := isLooked (Bool.eq_false_of_not_eq_true goesOn)
      rcases outline.misses isLooked with ⟨pops, loads, checked⟩
      refine ⟨pops, ?_⟩
      intro popped allowed
      cases popped with
      | none => exact ⟨loads, fun outstanding _ => checked outstanding⟩
      | some directory =>
          rcases outline.takes isLooked allowed with
            ⟨enough, context, isReady, finishes⟩
          change outline.Rests (workerProcess config directory) _
          refine Keeps.bind (ends_processDirectory enough isReady) ?_
          intro _ last isHead
          rcases finishes last isHead with ⟨permitted, finished⟩
          exact ⟨permitted, fun _ _ => finished⟩

/-- Whatever a worker goes on with, it comes to rest again. -/
theorem rests_workerResume :
    Noted.Resumes outline.discipline (workerResume config)
      (fun _ last => outline.idle last) := by
  intro value program held resumed isIdle
  cases value with
  | false => cases resumed
  | true =>
      cases resumed
      exact rests_workerTurn isIdle

/-- Workers that have been dispatched are orderly. -/
theorem orderly_parallelPool {environment : Environment}
    {memory : List Byte} {held : ν} (isStarting : outline.starting held)
    (workers : Nat) (situation : environment.Situation) :
    Noted.Orderly outline.discipline (fun _ last => outline.idle last)
      ⟨parallelPool environment config memory workers situation,
        List.replicate workers held⟩ :=
  .replicate (outline.starts isStarting) _ workers

end ParallelOutline

end BcIo.Walk
