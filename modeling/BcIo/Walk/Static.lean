import BcIo.Walk.Run
import Mathlib.Tactic.Abel

/-!
# Walks over a file system that does not change

In a static world every system call has one answer for each path, the callbacks
are functions of the entry they see, every visit succeeds and every allocation
does.  What a walk does there is determined, and is computed here: first for
one entry, then for one listing, then for one directory.
-/

namespace BcIo.Walk

open BcIo.File
open BcIo.Foundation.MachineWord
open BcIo.Foundation.Interaction
open BcIo.Foundation.WorkerPool

/-- What `getdents64` delivers for a directory: entries, and then maybe an error. -/
structure Listing where
  entries : List Dirent
  failure : Option Errno
  deriving DecidableEq, Repr

/-- A file system that does not change, with pure callbacks. -/
structure World where
  openError : Path → Bool → Option Errno
  listing : Path → Listing
  stat : Path → EntryName → Bool → Except Errno Stat
  filter : Entry → Bool
  shouldDescend : Entry → Bool

namespace World

/-- How a static world answers. -/
def answer (world : World) : (call : Call) → call.Response
  | .shouldStopCheck => false
  | .openDirectory path noFollow =>
      match world.openError path noFollow with
      | some errno => .error errno
      | none => .ok (world.listing path).entries.length
  | .closeDirectory _ => ()
  | .direntReaderCreate => true
  | .direntReaderNext path index =>
      match (world.listing path).entries[index]? with
      | some dirent => .entry dirent
      | none =>
          match (world.listing path).failure with
          | some errno => .failed errno
          | none => .finished
  | .fstatat path name noFollow => world.stat path name noFollow
  | .filter entry => world.filter entry
  | .visit _ => true
  | .shouldDescend entry => world.shouldDescend entry
  | .onError _ _ _ => ()

/-- The static world as an environment. -/
abbrev environment (world : World) : Environment where
  Situation := Unit
  Choice := Unit
  Change := Empty
  answer _ _ call := (world.answer call, ())
  change _ _ := ()

/--
The answers of a static world, with those of the state of the walk when no
visit has failed, no push is refused and nothing is to be popped.
-/
def answers (world : World) : (op : Op) → op.Response
  | .outside call => world.answer call
  | .shared access =>
      match access with
      | .loadVisitFailed => false
      | .storeVisitFailed => ()
      | .count _ => ()
      | .raiseOutstanding => ()
      | .undoOutstanding => ()
      | .finishOutstanding => ()
      | .loadOutstanding => (0 : Int)
      | .queuePush _ => true
      | .queuePop => none

end World

/-! ## One entry -/

/-- What finding out about an entry takes. -/
def Inspecting : Op → Prop
  | .outside (.fstatat _ _ _) => True
  | .outside (.onError _ _ _) => True
  | .shared (.count .errorsEncountered) => True
  | _ => False

/-- Calls that leave the library, and the accesses that a sequential walk makes. -/
def Plain : Op → Prop
  | .outside _ => True
  | .shared .loadVisitFailed => True
  | .shared (.count _) => True
  | .shared _ => False

theorem Inspecting.plain (op : Op) (inspecting : Inspecting op) :
    Plain op := by
  cases op with
  | outside call => trivial
  | shared access =>
      cases access with
      | count counter => trivial
      | _ => exact inspecting.elim

section Entry

variable (world : World) (config : Config)

/-- What `resolveType` finds out in a static world. -/
def typeOf (directory : Directory) (dirent : Dirent) : Option Resolved :=
  if dirent.dType ≠ dtUnknown then
    some
      ⟨entryKindFromType (dtypeToEntryType dirent.dType), 0, 0, 0, 0, 0,
        false⟩
  else
    match world.stat directory.text dirent.name true with
    | .error _ => none
    | .ok stat =>
        some
          ⟨entryKindFromType stat.entryType, stat.size, stat.device,
            stat.inode, stat.modificationTime, 0, true⟩

/-- What `resolveStat` makes of it. -/
def statOf (directory : Directory) (dirent : Dirent)
    (resolved : Resolved) : Option Resolved :=
  if needsStat config resolved then
    match world.stat directory.text dirent.name (!config.followSymlinks) with
    | .error _ => none
    | .ok stat =>
        some
          ⟨followedKind config resolved.entryKind stat, stat.size,
            stat.device, stat.inode, stat.modificationTime,
            stat.permissionMask, true⟩
  else
    some resolved

/-- The entry that a record leads to, unless it is skipped. -/
def described (directory : Directory) (dirent : Dirent) : Option Entry :=
  if dirent.hidden && !config.includeHidden then
    none
  else do
    let childPath ← pathJoin maxPathLength directory.path dirent.name.bytes
    let resolved ← typeOf world directory dirent
    let resolved ← statOf world config directory dirent resolved
    return entryOf directory childPath resolved

def accepted (entry : Entry) : Bool :=
  !config.hasFilter || world.filter entry

def descends (entry : Entry) : Bool :=
  !config.hasShouldDescend || world.shouldDescend entry

variable {world config}

theorem returns_outside (call : Call) :
    Program.Returns world.answers Plain (outside call)
      (world.answer call) :=
  .call trivial (.ret _)

theorem returns_count (counter : Counter) :
    Program.Returns world.answers Plain (shared (.count counter)) () :=
  .call trivial (.ret _)

theorem inspects_reportError (path : Path) (stage : Stage)
    (errno : Errno) :
    Program.Returns world.answers Inspecting
      (reportError config path stage errno) () := by
  unfold reportError
  refine .bind (.call trivial (.ret _)) ?_
  split
  · exact .call trivial (.ret _)
  · exact .ret _

theorem returns_reportError (path : Path) (stage : Stage) (errno : Errno) :
    Program.Returns world.answers Plain
      (reportError config path stage errno) () :=
  (inspects_reportError path stage errno).mono Inspecting.plain

theorem inspects_fstatat (path : Path) (name : EntryName)
    (noFollow : Bool) :
    Program.Returns world.answers Inspecting
      (outside (.fstatat path name noFollow))
      (world.stat path name noFollow) :=
  .call trivial (.ret _)

theorem inspects_resolveType (directory : Directory) (childPath : Path)
    (dirent : Dirent) :
    Program.Returns world.answers Inspecting
      (resolveType config directory childPath dirent)
      (typeOf world directory dirent) := by
  unfold resolveType typeOf
  split
  · exact .ret _
  · refine .bind (inspects_fstatat _ _ _) ?_
    cases world.stat directory.text dirent.name true with
    | error errno => exact .bind (inspects_reportError _ _ _) (.ret _)
    | ok stat => exact .ret _

theorem inspects_resolveStat (directory : Directory) (childPath : Path)
    (dirent : Dirent) (resolved : Resolved) :
    Program.Returns world.answers Inspecting
      (resolveStat config directory childPath dirent resolved)
      (statOf world config directory dirent resolved) := by
  unfold resolveStat statOf
  split
  · refine .bind (inspects_fstatat _ _ _) ?_
    cases world.stat directory.text dirent.name (!config.followSymlinks) with
    | error errno => exact .bind (inspects_reportError _ _ _) (.ret _)
    | ok stat => exact .ret _
  · exact .ret _

theorem inspects_examineEntry (directory : Directory) (dirent : Dirent) :
    Program.Returns world.answers Inspecting
      (examineEntry config directory dirent)
      (described world config directory dirent) := by
  unfold examineEntry described
  split
  · exact .ret _
  · cases pathJoin maxPathLength directory.path dirent.name.bytes with
    | none => exact .bind (inspects_reportError _ _ _) (.ret _)
    | some childPath =>
        refine .bind (inspects_resolveType _ _ _) ?_
        change Program.Returns _ _ _
          ((typeOf world directory dirent).bind _)
        cases typeOf world directory dirent with
        | none => exact .ret _
        | some resolved =>
            refine .bind (inspects_resolveStat _ _ _ _) ?_
            change Program.Returns _ _ _
              ((statOf world config directory dirent resolved).bind _)
            cases statOf world config directory dirent resolved with
            | none => exact .ret _
            | some resolved => exact .ret _

theorem returns_examineEntry (directory : Directory) (dirent : Dirent) :
    Program.Returns world.answers Plain
      (examineEntry config directory dirent)
      (described world config directory dirent) :=
  (inspects_examineEntry directory dirent).mono Inspecting.plain

theorem returns_passesFilter (entry : Entry) :
    Program.Returns world.answers Plain (passesFilter config entry)
      (accepted world config entry) := by
  unfold passesFilter accepted
  split
  · rename_i hasFilter
    rw [hasFilter]
    exact returns_outside _
  · rename_i noFilter
    rw [Bool.not_eq_true] at noFilter
    rw [noFilter]
    exact .ret _

theorem returns_visitEntry (entry : Entry) :
    Program.Returns world.answers Plain (visitEntry entry) true :=
  .bind (returns_outside _) (.ret _)

theorem returns_visitDirectory (entry : Entry) :
    Program.Returns world.answers Plain (visitDirectory config entry)
      true := by
  unfold visitDirectory
  split
  · exact returns_visitEntry entry
  · exact .ret _

theorem returns_wantsDescend (entry : Entry) :
    Program.Returns world.answers Plain (wantsDescend config entry)
      (descends world config entry) := by
  unfold wantsDescend descends
  split
  · rename_i hasShouldDescend
    rw [hasShouldDescend]
    exact returns_outside _
  · rename_i noShouldDescend
    rw [Bool.not_eq_true] at noShouldDescend
    rw [noShouldDescend]
    exact .ret _

/-- The directory that an entry makes the walk descend into. -/
def entered (world : World) (config : Config) (directory : Directory)
    (dirent : Dirent) : Option Directory :=
  (described world config directory dirent).bind fun entry =>
    if entry.kind = .directory ∧ accepted world config entry = true ∧
        descends world config entry = true then
      some entry.directory
    else
      none

end Entry

/-! ## One listing -/

section Listing

variable {world : World} {config : Config}

/-- Pass over a directory instead of descending into it. -/
def passOver (_ : Directory) : Action Unit :=
  return ()

/-- An accepted directory, with a way to descend that returns. -/
theorem judges_enterDirectory {descend : Directory → Action Unit}
    (judgement : Program.Judgement world.answers Plain) (entry : Entry)
    (returns : descends world config entry = true →
      judgement.judges (descend entry.directory) ()) :
    judgement.judges (enterDirectory config descend entry) true := by
  unfold enterDirectory
  refine judgement.bind (judgement.returns (returns_visitDirectory entry)) ?_
  refine judgement.bind (judgement.returns (returns_wantsDescend entry)) ?_
  cases wanted : descends world config entry with
  | true => exact judgement.bind (returns wanted) (judgement.ret _)
  | false => exact judgement.ret _

theorem judges_handleEntry {descend : Directory → Action Unit}
    (judgement : Program.Judgement world.answers Plain)
    (directory : Directory) (dirent : Dirent)
    (returns : ∀ child, entered world config directory dirent = some child →
      judgement.judges (descend child) ()) :
    judgement.judges (handleEntry config descend directory dirent)
      true := by
  unfold handleEntry
  refine judgement.bind
    (judgement.returns (returns_examineEntry directory dirent)) ?_
  cases found : described world config directory dirent with
  | none => exact judgement.ret _
  | some entry =>
      refine judgement.bind (judgement.returns (returns_passesFilter entry)) ?_
      cases passed : accepted world config entry with
      | false =>
          exact judgement.bind (judgement.returns (returns_count _))
            (judgement.ret _)
      | true =>
          rw [if_pos rfl]
          split
          · exact judgement.bind (judgement.returns (returns_count _))
              (judgement.returns (returns_visitEntry entry))
          · rename_i isDirectory
            refine judges_enterDirectory judgement entry ?_
            intro wanted
            exact returns _
              (by simp [entered, found, isDirectory, passed, wanted])
          · exact judgement.ret _
          · exact judgement.ret _

variable {M : Type} [AddCommMonoid M] (toll : Op → M)

theorem total_outside_bind {α : Type} (call : Call)
    (rest : call.Response → Action α) :
    (outside call >>= rest).total world.answers toll =
      toll (.outside call) +
        (rest (world.answer call)).total world.answers toll :=
  Program.total_call _ _ _ _

theorem total_shared_bind {α : Type} (access : Access)
    (rest : access.Response → Action α) :
    (shared access >>= rest).total world.answers toll =
      toll (.shared access) +
        (rest (world.answers (.shared access))).total world.answers toll :=
  Program.total_call _ _ _ _

/-- What a way to descend adds to the tolls of an entry. -/
theorem total_handleEntry {descend : Directory → Action Unit}
    (directory : Directory) (dirent : Dirent)
    (returns : ∀ child, entered world config directory dirent = some child →
      (descend child).outcome world.answers = some ()) :
    (handleEntry config descend directory dirent).total world.answers toll =
      (handleEntry config passOver directory dirent).total world.answers
          toll +
        (entered world config directory dirent).elim 0 fun child =>
          (descend child).total world.answers toll := by
  unfold handleEntry
  rw [Program.total_bind _ _ (returns_examineEntry directory dirent).outcome,
    Program.total_bind _ _ (returns_examineEntry directory dirent).outcome,
    add_assoc]
  congr 1
  cases found : described world config directory dirent with
  | none => simp [entered, found]
  | some entry =>
      dsimp only
      rw [Program.total_bind _ _ (returns_passesFilter entry).outcome,
        Program.total_bind _ _ (returns_passesFilter entry).outcome,
        add_assoc]
      congr 1
      cases passed : accepted world config entry with
      | false => simp [entered, found, passed]
      | true =>
          rw [if_pos rfl, if_pos rfl]
          split
          · rename_i isFile
            simp [entered, found, isFile]
          · rename_i isDirectory
            unfold enterDirectory
            rw [Program.total_bind _ _ (returns_visitDirectory entry).outcome,
              Program.total_bind _ _ (returns_visitDirectory entry).outcome,
              add_assoc]
            congr 1
            rw [if_pos rfl, if_pos rfl]
            rw [Program.total_bind _ _ (returns_wantsDescend entry).outcome,
              Program.total_bind _ _ (returns_wantsDescend entry).outcome,
              add_assoc]
            congr 1
            cases wanted : descends world config entry with
            | false => simp [entered, found, wanted]
            | true =>
                have isEntered :
                    entered world config directory dirent =
                      some entry.directory := by
                  simp [entered, found, isDirectory, passed, wanted]
                rw [isEntered, if_pos rfl, if_pos rfl]
                rw [Program.total_bind _ _ (returns _ isEntered)]
                simp [passOver]
          · rename_i isSymlink
            simp [entered, found, isSymlink]
          · rename_i isOther
            simp [entered, found, isOther]

/-- The entries from some index on, and what the reader says at that index. -/
theorem answer_next_of_drop {path : Path} {index : Nat} {dirent : Dirent}
    {rest : List Dirent}
    (listed : (world.listing path).entries.drop index = dirent :: rest) :
    world.answer (.direntReaderNext path index) = .entry dirent := by
  have here : (world.listing path).entries[index]? = some dirent := by
    rw [← List.head?_drop, listed, List.head?_cons]
  simp only [World.answer, here]

theorem answer_next_of_end {path : Path} {index : Nat}
    (listed : (world.listing path).entries.drop index = []) :
    world.answer (.direntReaderNext path index) =
      match (world.listing path).failure with
      | some errno => .failed errno
      | none => .finished := by
  have here : (world.listing path).entries[index]? = none := by
    rw [← List.head?_drop, listed, List.head?_nil]
  simp only [World.answer, here]

theorem drop_succ_of_drop {path : Path} {index : Nat} {dirent : Dirent}
    {rest : List Dirent}
    (listed : (world.listing path).entries.drop index = dirent :: rest) :
    (world.listing path).entries.drop (index + 1) = rest := by
  rw [← List.drop_drop, listed, List.drop_one, List.tail_cons]

theorem judges_listingLoop {halted : Action Bool}
    {descend : Directory → Action Unit}
    (judgement : Program.Judgement world.answers Plain)
    (goesOn : Program.Returns world.answers Plain halted false)
    (directory : Directory) {rest : List Dirent} {index : Nat}
    (listed : (world.listing directory.text).entries.drop index = rest)
    (returns : ∀ dirent ∈ rest, ∀ child,
      entered world config directory dirent = some child →
        judgement.judges (descend child) ()) :
    judgement.judges
      (listingLoop config halted descend directory (rest.length + 1) index)
      () := by
  induction rest generalizing index with
  | nil =>
      unfold listingLoop
      refine judgement.bind (judgement.returns goesOn) ?_
      refine judgement.bind (judgement.returns (returns_outside _)) ?_
      rw [answer_next_of_end listed]
      cases (world.listing directory.text).failure with
      | none => exact judgement.ret _
      | some errno => exact judgement.returns (returns_reportError _ _ _)
  | cons dirent rest induction =>
      rw [List.forall_mem_cons] at returns
      unfold listingLoop
      refine judgement.bind (judgement.returns goesOn) ?_
      refine judgement.bind (judgement.returns (returns_outside _)) ?_
      rw [answer_next_of_drop listed]
      refine judgement.bind
        (judges_handleEntry judgement directory dirent returns.1) ?_
      exact induction (drop_succ_of_drop listed) returns.2

/-- The tolls of the last turn of a listing loop. -/
theorem total_listingLoop_end {halted : Action Bool}
    (descend : Directory → Action Unit)
    (goesOn : Program.Returns world.answers Plain halted false)
    (directory : Directory) {index : Nat}
    (listed : (world.listing directory.text).entries.drop index = []) :
    (listingLoop config halted descend directory 1 index).total
        world.answers toll =
      halted.total world.answers toll +
        (toll (.outside (.direntReaderNext directory.text index)) +
          ((world.listing directory.text).failure.elim (return ())
              fun errno =>
                reportError config directory.text .getdents64 errno).total
            world.answers toll) := by
  unfold listingLoop
  rw [Program.total_bind _ _ goesOn.outcome]
  congr 1
  refine (Program.total_call _ _ _ _).trans ?_
  congr 1
  rw [World.answers, answer_next_of_end listed]
  cases (world.listing directory.text).failure <;> rfl

/-- The tolls of a turn that reads an entry, and of those that follow. -/
theorem total_listingLoop_cons {halted : Action Bool}
    {descend : Directory → Action Unit}
    (goesOn : Program.Returns world.answers Plain halted false)
    (directory : Directory) {dirent : Dirent} {rest : List Dirent}
    {index : Nat}
    (listed :
      (world.listing directory.text).entries.drop index = dirent :: rest)
    (returned :
      (handleEntry config descend directory dirent).outcome world.answers =
        some true) (calls : Nat) :
    (listingLoop config halted descend directory (calls + 1) index).total
        world.answers toll =
      halted.total world.answers toll +
        (toll (.outside (.direntReaderNext directory.text index)) +
          ((handleEntry config descend directory dirent).total
              world.answers toll +
            (listingLoop config halted descend directory calls
              (index + 1)).total world.answers toll)) := by
  rw [listingLoop, Program.total_bind _ _ goesOn.outcome]
  congr 1
  refine (Program.total_call _ _ _ _).trans ?_
  congr 1
  rw [World.answers, answer_next_of_drop listed]
  exact Program.total_bind _ _ returned _

theorem total_listingLoop {halted : Action Bool}
    {descend : Directory → Action Unit}
    (goesOn : Program.Returns world.answers Plain halted false)
    (directory : Directory) {rest : List Dirent} {index : Nat}
    (listed : (world.listing directory.text).entries.drop index = rest)
    (returns : ∀ dirent ∈ rest, ∀ child,
      entered world config directory dirent = some child →
        (descend child).outcome world.answers = some ()) :
    (listingLoop config halted descend directory (rest.length + 1)
        index).total world.answers toll =
      (listingLoop config halted passOver directory (rest.length + 1)
          index).total world.answers toll +
        ((rest.filterMap (entered world config directory)).map fun child =>
          (descend child).total world.answers toll).sum := by
  induction rest generalizing index with
  | nil =>
      rw [List.length_nil, Nat.zero_add,
        total_listingLoop_end toll descend goesOn directory listed,
        total_listingLoop_end toll passOver goesOn directory listed]
      simp
  | cons dirent rest induction =>
      rw [List.forall_mem_cons] at returns
      have handled :
          ∀ {descend : Directory → Action Unit},
            (∀ child, entered world config directory dirent = some child →
              (descend child).outcome world.answers = some ()) →
            (handleEntry config descend directory dirent).outcome
              world.answers = some true := by
        intro descend returns
        exact
          judges_handleEntry (Program.outcomeJudgement world.answers Plain)
            directory dirent returns
      rw [List.length_cons,
        total_listingLoop_cons toll goesOn directory listed
          (handled returns.1),
        total_listingLoop_cons toll goesOn directory listed
          (handled fun _ _ => rfl),
        total_handleEntry toll directory dirent returns.1,
        induction (drop_succ_of_drop listed) returns.2]
      rw [List.filterMap_cons]
      cases entered world config directory dirent with
      | none =>
          simp only [Option.elim_none, add_zero]
          abel
      | some child =>
          simp only [Option.elim_some, List.map_cons, List.sum_cons]
          abel

end Listing

/-! ## One directory -/

section Directory

variable {world : World} {config : Config}

/-- The directories that a walk descends into from a directory. -/
def children (world : World) (config : Config) (directory : Directory) :
    List Directory :=
  match world.openError directory.text (!config.followSymlinks) with
  | some _ => []
  | none =>
      (world.listing directory.text).entries.filterMap
        (entered world config directory)

theorem answer_openDirectory (path : Path) (noFollow : Bool) :
    world.answer (.openDirectory path noFollow) =
      match world.openError path noFollow with
      | some errno => .error errno
      | none => .ok (world.listing path).entries.length :=
  rfl

theorem children_of_openable {directory : Directory}
    (openable :
      world.openError directory.text (!config.followSymlinks) = none) :
    children world config directory =
      (world.listing directory.text).entries.filterMap
        (entered world config directory) := by
  simp only [children, openable]

theorem mem_children {directory child : Directory} {dirent : Dirent}
    (openable :
      world.openError directory.text (!config.followSymlinks) = none)
    (listed : dirent ∈ (world.listing directory.text).entries)
    (isEntered : entered world config directory dirent = some child) :
    child ∈ children world config directory := by
  rw [children_of_openable openable, List.mem_filterMap]
  exact ⟨dirent, listed, isEntered⟩

theorem mem_children_iff {directory child : Directory} :
    child ∈ children world config directory ↔
      world.openError directory.text (!config.followSymlinks) = none ∧
        ∃ dirent ∈ (world.listing directory.text).entries,
          entered world config directory dirent = some child := by
  unfold children
  cases world.openError directory.text (!config.followSymlinks) with
  | some errno => simp
  | none => simp [List.mem_filterMap]

theorem returns_parallelHalted :
    Program.Returns world.answers Plain parallelHalted false :=
  .call trivial (.ret _)

theorem returns_shouldStop :
    Program.Returns world.answers Plain (shouldStop config) false := by
  unfold shouldStop
  split
  · exact returns_outside _
  · exact .ret _

theorem returns_sequentialHalted :
    Program.Returns world.answers Plain (sequentialHalted config) false :=
  .bind (.call trivial (.ret _)) returns_shouldStop

theorem judges_processBody {descend : Directory → Action Unit}
    (judgement : Program.Judgement world.answers Plain)
    (directory : Directory)
    (returns : ∀ child ∈ children world config directory,
      judgement.judges (descend child) ()) :
    judgement.judges (processBody config descend directory) () := by
  unfold processBody
  refine judgement.bind (judgement.returns returns_parallelHalted) ?_
  refine judgement.bind (judgement.returns (returns_outside _)) ?_
  rw [answer_openDirectory]
  cases openable :
      world.openError directory.text (!config.followSymlinks) with
  | some errno => exact judgement.returns (returns_reportError _ _ _)
  | none =>
      have looped :=
        judges_listingLoop judgement returns_parallelHalted directory
          List.drop_zero
          fun dirent listed child isEntered =>
            returns child (mem_children openable listed isEntered)
      refine judgement.bind (judgement.returns (returns_count _)) ?_
      exact judgement.bind looped (judgement.returns (returns_outside _))

theorem judges_sequentialBody {descend : Directory → Action Unit}
    (judgement : Program.Judgement world.answers Plain)
    (directory : Directory)
    (returns : ∀ child ∈ children world config directory,
      judgement.judges (descend child) ()) :
    judgement.judges (sequentialBody config descend directory) () := by
  have goesOn :
      Program.Returns world.answers Plain (sequentialHalted config) false :=
    returns_sequentialHalted
  unfold sequentialBody
  refine judgement.bind (judgement.returns goesOn) ?_
  refine judgement.bind (judgement.returns (returns_outside _)) ?_
  rw [answer_openDirectory]
  cases openable :
      world.openError directory.text (!config.followSymlinks) with
  | some errno => exact judgement.returns (returns_reportError _ _ _)
  | none =>
      have looped :=
        judges_listingLoop judgement goesOn directory List.drop_zero
          fun dirent listed child isEntered =>
            returns child (mem_children openable listed isEntered)
      refine judgement.bind (judgement.returns (returns_count _)) ?_
      refine judgement.bind
        (judgement.returns (returns_outside .direntReaderCreate)) ?_
      exact judgement.bind looped (judgement.returns (returns_outside _))

variable {M : Type} [AddCommMonoid M] (toll : Op → M)

/-- The tolls of the whole listing loop of a directory that could be opened. -/
theorem total_wholeListing {halted : Action Bool}
    {descend : Directory → Action Unit}
    (goesOn : Program.Returns world.answers Plain halted false)
    (directory : Directory)
    (openable :
      world.openError directory.text (!config.followSymlinks) = none)
    (returns : ∀ child ∈ children world config directory,
      (descend child).outcome world.answers = some ())
    (rest : Unit → Action Unit) :
    (listingLoop config halted descend directory
          ((world.listing directory.text).entries.length + 1) 0 >>=
        rest).total world.answers toll =
      (listingLoop config halted passOver directory
            ((world.listing directory.text).entries.length + 1) 0 >>=
          rest).total world.answers toll +
        ((children world config directory).map fun child =>
          (descend child).total world.answers toll).sum := by
  have looped :
      ∀ {descend : Directory → Action Unit},
        (∀ child ∈ children world config directory,
          (descend child).outcome world.answers = some ()) →
        (listingLoop config halted descend directory
          ((world.listing directory.text).entries.length + 1) 0).outcome
            world.answers = some () := by
    intro descend returns
    exact
      judges_listingLoop (Program.outcomeJudgement world.answers Plain)
        goesOn directory List.drop_zero
        fun dirent listed child isEntered =>
          returns child (mem_children openable listed isEntered)
  rw [Program.total_bind _ _ (looped returns),
    Program.total_bind _ _ (looped fun _ _ => rfl),
    children_of_openable openable,
    total_listingLoop toll goesOn directory List.drop_zero
      fun dirent listed child isEntered =>
        returns child (mem_children openable listed isEntered)]
  abel

/-- What ways to descend that return add to the tolls of a directory. -/
theorem total_processBody {descend : Directory → Action Unit}
    (directory : Directory)
    (returns : ∀ child ∈ children world config directory,
      (descend child).outcome world.answers = some ()) :
    (processBody config descend directory).total world.answers toll =
      (processBody config passOver directory).total world.answers toll +
        ((children world config directory).map fun child =>
          (descend child).total world.answers toll).sum := by
  unfold processBody
  rw [Program.total_bind _ _ returns_parallelHalted.outcome,
    Program.total_bind _ _ returns_parallelHalted.outcome, add_assoc]
  congr 1
  rw [if_neg Bool.false_ne_true, if_neg Bool.false_ne_true,
    Program.total_bind _ _ (returns_outside _).outcome,
    Program.total_bind _ _ (returns_outside _).outcome, add_assoc,
    answer_openDirectory]
  congr 1
  cases openable :
      world.openError directory.text (!config.followSymlinks) with
  | some errno => simp [children, openable]
  | none =>
      dsimp only
      rw [Program.total_bind _ _ (returns_count _).outcome,
        Program.total_bind _ _ (returns_count _).outcome, add_assoc,
        total_wholeListing toll returns_parallelHalted directory openable
          returns]

theorem total_sequentialBody {descend : Directory → Action Unit}
    (directory : Directory)
    (returns : ∀ child ∈ children world config directory,
      (descend child).outcome world.answers = some ()) :
    (sequentialBody config descend directory).total world.answers toll =
      (sequentialBody config passOver directory).total world.answers toll +
        ((children world config directory).map fun child =>
          (descend child).total world.answers toll).sum := by
  have goesOn :
      Program.Returns world.answers Plain (sequentialHalted config) false :=
    returns_sequentialHalted
  unfold sequentialBody
  rw [Program.total_bind _ _ goesOn.outcome,
    Program.total_bind _ _ goesOn.outcome, add_assoc]
  congr 1
  rw [if_neg Bool.false_ne_true, if_neg Bool.false_ne_true,
    Program.total_bind _ _ (returns_outside _).outcome,
    Program.total_bind _ _ (returns_outside _).outcome, add_assoc,
    answer_openDirectory]
  congr 1
  cases openable :
      world.openError directory.text (!config.followSymlinks) with
  | some errno => simp [children, openable]
  | none =>
      dsimp only
      rw [Program.total_bind _ _ (returns_count _).outcome,
        Program.total_bind _ _ (returns_count _).outcome, add_assoc]
      congr 1
      rw [Program.total_bind _ _ (returns_outside .direntReaderCreate).outcome,
        Program.total_bind _ _ (returns_outside .direntReaderCreate).outcome,
        add_assoc]
      congr 1
      exact total_wholeListing toll goesOn directory openable returns _

end Directory

end BcIo.Walk
