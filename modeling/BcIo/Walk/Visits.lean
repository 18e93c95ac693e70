import BcIo.Walk.Tree
import Mathlib.Algebra.Order.Group.Multiset

/-!
# What a sequential walk visits and opens

The run of `bc_io_walk_sequential` in a static world, and from it the entries
that are passed to `visit` and the directories that are opened, as sums over
the tree of entered directories.
-/

namespace BcIo.Walk

open BcIo.File
open BcIo.Foundation.MachineWord
open BcIo.Foundation.Interaction
open BcIo.Foundation.WorkerPool

/-! ## Reading a history -/

/-- What a selection of operations collects. -/
def collect {β : Type} (pick : Op → Option β) (op : Op) : Multiset β :=
  (pick op).elim 0 fun value => {value}

theorem sum_collect {β : Type} (pick : Op → Option β) (ops : List Op) :
    (ops.map (collect pick)).sum = (ops.filterMap pick : Multiset β) := by
  induction ops with
  | nil => rfl
  | cons op rest induction =>
      rw [List.map_cons, List.sum_cons, induction, List.filterMap_cons,
        collect]
      cases pick op with
      | none => simp
      | some value => simp

/-- The entry that is passed to `visit`. -/
def visitOf : Op → Option Entry
  | .outside (.visit entry) => some entry
  | _ => none

/-- The path that is passed to `open`. -/
def openOf : Op → Option Path
  | .outside (.openDirectory path _) => some path
  | _ => none

def State.visits {Situation : Type} (state : State Situation) :
    List Entry :=
  state.history.filterMap visitOf

def State.opened {Situation : Type} (state : State Situation) :
    List Path :=
  state.history.filterMap openOf

variable {world : World} {config : Config}

/-! ## One directory -/

/-- The entry that a record makes the walk pass to `visit`. -/
def visitedAt (world : World) (config : Config) (directory : Directory)
    (dirent : Dirent) : Option Entry :=
  (described world config directory dirent).bind fun entry =>
    if accepted world config entry = true ∧
        (entry.kind = .file ∨ entry.kind = .directory) then
      some entry
    else
      none

/-- The entries that are visited while a directory is listed. -/
def visitedIn (world : World) (config : Config) (directory : Directory) :
    List Entry :=
  match world.openError directory.text (!config.followSymlinks) with
  | some _ => []
  | none =>
      (world.listing directory.text).entries.filterMap
        (visitedAt world config directory)

/-- Visits, and attempts to open a directory. -/
def Notable : Op → Prop
  | .outside (.visit _) => True
  | .outside (.openDirectory _ _) => True
  | _ => False

theorem Inspecting.not_notable {op : Op} (inspecting : Inspecting op) :
    ¬ Notable op := by
  cases op with
  | outside call =>
      cases call with
      | fstatat path name noFollow => exact id
      | onError path stage errno => exact id
      | _ => exact inspecting.elim
  | shared access => exact id

theorem visitOf_of_not_notable {op : Op} (unnoted : ¬ Notable op) :
    visitOf op = none := by
  cases op with
  | shared access => rfl
  | outside call =>
      cases call with
      | visit entry => exact absurd trivial unnoted
      | _ => rfl

theorem openOf_of_not_notable {op : Op} (unnoted : ¬ Notable op) :
    openOf op = none := by
  cases op with
  | shared access => rfl
  | outside call =>
      cases call with
      | openDirectory path noFollow => exact absurd trivial unnoted
      | _ => rfl

section Notable

variable {M : Type} [AddCommMonoid M] {toll : Op → M}
  (free : ∀ op, ¬ Notable op → toll op = 0)

include free

theorem total_reportError_notable (path : Path) (stage : Stage)
    (errno : Errno) :
    (reportError config path stage errno).total world.answers toll = 0 :=
  (inspects_reportError path stage errno).total_eq_zero world.answers toll
    fun op inspecting => free op inspecting.not_notable

theorem total_passesFilter_notable (entry : Entry) :
    (passesFilter config entry).total world.answers toll = 0 := by
  unfold passesFilter
  split
  · refine (Program.total_call _ _ _ _).trans ?_
    rw [free _ id, Program.total_ret, add_zero]
  · rfl

theorem total_wantsDescend_notable (entry : Entry) :
    (wantsDescend config entry).total world.answers toll = 0 := by
  unfold wantsDescend
  split
  · refine (Program.total_call _ _ _ _).trans ?_
    rw [free _ id, Program.total_ret, add_zero]
  · rfl

omit free in
theorem total_visitEntry (entry : Entry) :
    (visitEntry entry).total world.answers toll =
      toll (.outside (.visit entry)) := by
  refine (Program.total_call _ _ _ _).trans ?_
  exact add_zero _

/-- What the handling of one record adds, apart from the descent. -/
theorem total_handleEntry_notable (hasVisit : config.hasVisit = true)
    (directory : Directory) (dirent : Dirent) :
    (handleEntry config passOver directory dirent).total world.answers
        toll =
      (visitedAt world config directory dirent).elim 0 fun entry =>
        toll (.outside (.visit entry)) := by
  have examined :
      (examineEntry config directory dirent).total world.answers toll = 0 :=
    (inspects_examineEntry directory dirent).total_eq_zero world.answers
      toll fun op inspecting => free op inspecting.not_notable
  unfold handleEntry
  rw [Program.total_bind _ _ (returns_examineEntry directory dirent).outcome,
    examined, zero_add]
  cases found : described world config directory dirent with
  | none => simp [visitedAt, found]
  | some entry =>
      dsimp only
      rw [Program.total_bind _ _ (returns_passesFilter entry).outcome,
        total_passesFilter_notable free, zero_add]
      cases passed : accepted world config entry with
      | false =>
          rw [if_neg Bool.false_ne_true, total_shared_bind, free _ id]
          simp [visitedAt, found, passed]
      | true =>
          rw [if_pos rfl]
          split
          · rename_i isFile
            rw [total_shared_bind, free _ id, zero_add, total_visitEntry]
            simp [visitedAt, found, passed, isFile]
          · rename_i isDirectory
            unfold enterDirectory
            rw [Program.total_bind _ _ (returns_visitDirectory entry).outcome,
              if_pos rfl,
              Program.total_bind _ _ (returns_wantsDescend entry).outcome,
              total_wantsDescend_notable free, zero_add]
            have passes :
                (if descends world config entry = true then do
                    passOver entry.directory
                    return true
                  else return true : Action Bool).total
                    world.answers toll = 0 := by
              split <;> rfl
            rw [passes, add_zero, visitDirectory, if_pos hasVisit,
              total_visitEntry entry]
            simp [visitedAt, found, passed, isDirectory]
          · rename_i isSymlink
            simp [visitedAt, found, isSymlink]
          · rename_i isOther
            simp [visitedAt, found, isOther]

/-- What the listing loop adds, apart from the descents. -/
theorem total_listingLoop_notable (hasVisit : config.hasVisit = true)
    {halted : Action Bool}
    (goesOn : Program.Returns world.answers Plain halted false)
    (costless : halted.total world.answers toll = 0)
    (directory : Directory) {rest : List Dirent} {index : Nat}
    (listed : (world.listing directory.text).entries.drop index = rest) :
    (listingLoop config halted passOver directory (rest.length + 1)
        index).total world.answers toll =
      ((rest.filterMap (visitedAt world config directory)).map fun entry =>
        toll (.outside (.visit entry))).sum := by
  induction rest generalizing index with
  | nil =>
      rw [List.length_nil, Nat.zero_add,
        total_listingLoop_end toll passOver goesOn directory listed,
        costless, free _ id]
      cases (world.listing directory.text).failure with
      | none => simp
      | some errno => simp [total_reportError_notable free]
  | cons dirent rest induction =>
      have handled :
          (handleEntry config passOver directory dirent).outcome
            world.answers = some true :=
        judges_handleEntry (Program.outcomeJudgement world.answers Plain)
          directory dirent fun _ _ => rfl
      rw [List.length_cons,
        total_listingLoop_cons toll goesOn directory listed handled,
        induction (drop_succ_of_drop listed), costless, free _ id,
        total_handleEntry_notable free hasVisit, List.filterMap_cons]
      cases visitedAt world config directory dirent with
      | none => simp
      | some entry => simp

theorem total_sequentialHalted_notable :
    (sequentialHalted config).total world.answers toll = 0 := by
  unfold sequentialHalted
  rw [total_shared_bind, free _ id, zero_add]
  change (shouldStop config).total world.answers toll = 0
  unfold shouldStop
  split
  · refine (Program.total_call _ _ _ _).trans ?_
    rw [free _ id, Program.total_ret, add_zero]
  · rfl

/-- What a directory adds: it is opened, and its entries are visited. -/
theorem total_sequentialBody_notable (hasVisit : config.hasVisit = true)
    (directory : Directory) :
    (sequentialBody config passOver directory).total world.answers toll =
      toll (.outside
          (.openDirectory directory.text (!config.followSymlinks))) +
        ((visitedIn world config directory).map fun entry =>
          toll (.outside (.visit entry))).sum := by
  have goesOn :
      Program.Returns world.answers Plain (sequentialHalted config) false :=
    returns_sequentialHalted
  unfold sequentialBody
  rw [Program.total_bind _ _ goesOn.outcome,
    total_sequentialHalted_notable free, zero_add,
    if_neg Bool.false_ne_true]
  rw [total_outside_bind, answer_openDirectory]
  congr 1
  cases openable :
      world.openError directory.text (!config.followSymlinks) with
  | some errno =>
      simp [visitedIn, openable, total_reportError_notable free]
  | none =>
      dsimp only
      rw [total_shared_bind, free _ id, zero_add, total_outside_bind,
        free _ id, zero_add]
      have looped :
          (listingLoop config (sequentialHalted config) passOver directory
            ((world.listing directory.text).entries.length + 1) 0).outcome
              world.answers = some () :=
        judges_listingLoop (Program.outcomeJudgement world.answers Plain)
          goesOn directory List.drop_zero fun _ _ _ _ => rfl
      refine (Program.total_bind _ _ looped _).trans ?_
      rw [total_listingLoop_notable free hasVisit goesOn
        (total_sequentialHalted_notable free) directory
        List.drop_zero]
      simp only [visitedIn, openable]
      have closed :
          (outside (.closeDirectory directory.text)).total world.answers
            toll = 0 := by
        refine (Program.total_call _ _ _ _).trans ?_
        rw [free _ id, zero_add]
        rfl
      rw [closed, add_zero]

end Notable

/-! ## The run of a sequential walk -/

/-- A path that is terminated where its length says, and not before. -/
def Terminated (memory : List Byte) (length : Nat) : Prop :=
  memory[length]? = some 0 ∧ (0 : Byte) ∉ memory.take length

/-- A slice of the given length, with no zero in it; one need not follow. -/
def NamesRoot (memory : List Byte) (length : Nat) : Prop :=
  length ≤ memory.length ∧ (0 : Byte) ∉ memory.take length

theorem Terminated.namesRoot {memory : List Byte} {length : Nat}
    (terminated : Terminated memory length) : NamesRoot memory length :=
  ⟨Nat.le_of_lt (List.getElem?_eq_some_iff.mp terminated.1).1, terminated.2⟩

theorem Terminated.split {memory : List Byte} {length : Nat}
    (terminated : Terminated memory length) :
    ∃ rest, memory = memory.take length ++ 0 :: rest ∧
      (memory.take length).length = length := by
  rcases List.getElem?_eq_some_iff.mp terminated.1 with ⟨inside, isNul⟩
  refine ⟨memory.drop (length + 1), ?_, ?_⟩
  · conv_lhs => rw [← List.take_append_drop length memory]
    rw [List.drop_eq_getElem_cons inside, isNul]
  · rw [List.length_take]
    omega

/-- The checks that both walks make of a usable root. -/
theorem usableRoot_some {memory : List Byte}
    (usable : usableRoot config = some memory) :
    config.root = some memory ∧ 0 < config.rootLength ∧
      config.rootLength < maxPathLength ∧ config.hasVisit = true ∧
      config.hasMainMemoryContext = true := by
  unfold usableRoot at usable
  split at usable
  · cases usable
  · rename_i present
    split at usable
    · cases usable
    · rename_i length
      split at usable
      · cases usable
      · rename_i visit
        split at usable
        · cases usable
        · rename_i context
          cases usable
          refine ⟨present, ?_, ?_, by simpa using visit,
            by simpa using context⟩ <;> omega

/-- A terminated root is a proper directory, whose path the length gives. -/
theorem proper_root {memory : List Byte}
    (usable : usableRoot config = some memory)
    (terminated : Terminated memory config.rootLength) (rest : List Byte) :
    Proper
        (.atPointer (memory.take config.rootLength ++ 0 :: rest)
          config.rootLength 0) ∧
      (Directory.atPointer (memory.take config.rootLength ++ 0 :: rest)
        config.rootLength 0).path = memory.take config.rootLength := by
  rcases usableRoot_some usable with ⟨_, _, short, _⟩
  rcases terminated.split with ⟨_, _, length⟩
  have proper :=
    Proper.atPointer terminated.2 (by rw [length]; exact short) rest 0
  rw [length] at proper
  exact proper

/-- The root as the sequential walk refers to it. -/
def sequentialRoot (config : Config) (memory : List Byte) : Directory :=
  .atPointer memory config.rootLength 0

theorem proper_sequentialRoot {memory : List Byte}
    (usable : usableRoot config = some memory)
    (terminated : Terminated memory config.rootLength) :
    Proper (sequentialRoot config memory) ∧
      (sequentialRoot config memory).path =
        memory.take config.rootLength := by
  rcases terminated.split with ⟨rest, split, _⟩
  have proper := proper_root usable terminated rest
  rw [← split] at proper
  exact proper

/-- The copy that the parallel walk makes is proper, whatever follows the root. -/
theorem proper_rootEntry {memory : List Byte}
    (short : config.rootLength < maxPathLength)
    (names : NamesRoot memory config.rootLength) :
    Proper (rootEntry config memory) ∧
      (rootEntry config memory).path = memory.take config.rootLength := by
  have length :
      (memory.take config.rootLength).length = config.rootLength := by
    rw [List.length_take]
    exact Nat.min_eq_left names.1
  have proper :=
    Proper.atPointer names.2 (by rw [length]; exact short) [] 0
  rw [length] at proper
  exact proper

/-- Both walks start at the same directory when the root is terminated. -/
theorem rootEntry_eq {memory : List Byte}
    (usable : usableRoot config = some memory)
    (terminated : Terminated memory config.rootLength) :
    rootEntry config memory = sequentialRoot config memory := by
  rcases usableRoot_some usable with ⟨_, _, short, _⟩
  rcases proper_rootEntry short terminated.namesRoot with ⟨proper, path⟩
  rcases proper_sequentialRoot usable terminated with
    ⟨properToo, pathToo⟩
  have texts :
      (rootEntry config memory).text =
        (sequentialRoot config memory).text := by
    rw [properToo.text, pathToo]
    exact proper.text.trans path
  have paths :
      (rootEntry config memory).path =
        (sequentialRoot config memory).path := by
    rw [pathToo]
    exact path
  unfold rootEntry sequentialRoot Directory.atPointer at *
  simp only at texts paths
  rw [texts, paths]

theorem handle_plain (capacity : Nat)
    (choice : Unit × QueueChoice) (state : State Unit)
    (noFailure : state.visitFailed = false) {op : Op} (plain : Plain op) :
    ((machine world.environment capacity).handle state choice op).1 =
        world.answers op ∧
      ((machine world.environment capacity).handle state choice
        op).2.visitFailed = false := by
  cases op with
  | outside call => exact ⟨rfl, noFailure⟩
  | shared access =>
      cases access with
      | loadVisitFailed => exact ⟨noFailure, noFailure⟩
      | count counter => exact ⟨rfl, noFailure⟩
      | _ => exact plain.elim

theorem foldl_history (capacity : Nat) (choice : Unit × QueueChoice)
    (ops : List Op) (state : State Unit) :
    (ops.foldl
      (fun state op =>
        ((machine world.environment capacity).handle state choice op).2)
      state).history = state.history ++ ops := by
  induction ops generalizing state with
  | nil => simp
  | cons op rest induction =>
      rw [List.foldl_cons, induction]
      exact List.append_assoc _ _ _

/-- The sequential walk of a static world ends, and succeeds. -/
theorem walkSequential_ends {memory : List Byte}
    (usable : usableRoot config = some memory)
    (terminated : Terminated memory config.rootLength) (capacity : Nat)
    (choice : Unit × QueueChoice) :
    ∃ final,
      runAlone (machine world.environment capacity) choice
          (walkSequential config) (State.initial ()) =
        some (true, final) ∧
      final.visitFailed = false ∧
      final.history =
        (sequentialRecurse config maxPathLength
            (sequentialRoot config memory)).trace world.answers ++
          [.shared .loadVisitFailed] := by
  rcases proper_sequentialRoot usable terminated with ⟨proper, _⟩
  have recursed :
      Program.Returns world.answers Plain
        (sequentialRecurse config maxPathLength
          (sequentialRoot config memory)) () :=
    returns_sequentialRecurse proper (Nat.le_add_left _ _)
  have walked :
      Program.Returns world.answers Plain (walkSequential config) true := by
    unfold walkSequential
    rw [usable]
    exact recursed.bind (.call trivial (.ret _))
  have starts : (State.initial ()).visitFailed = false := rfl
  have ran :=
    runAlone_of_outcome (machine world.environment capacity) choice
      (fun state => state.visitFailed = false) walked.outcome
      (fun op called state noFailure =>
        handle_plain capacity choice state noFailure
          (walked.calls op called))
      starts
  refine ⟨_, ran.1, ran.2, ?_⟩
  refine (foldl_history capacity choice _ _).trans ?_
  change [] ++ _ = _
  rw [List.nil_append]
  unfold walkSequential
  rw [usable]
  exact Program.trace_bind world.answers recursed.outcome _

/-- What a selection of operations collects over the whole walk. -/
theorem collected_sequential {β : Type} (pick : Op → Option β)
    (unpicked : pick (.shared .loadVisitFailed) = none)
    {memory : List Byte} (usable : usableRoot config = some memory)
    (terminated : Terminated memory config.rootLength) :
    ((((sequentialRecurse config maxPathLength
            (sequentialRoot config memory)).trace world.answers ++
          [Op.shared .loadVisitFailed]).filterMap pick : List β) :
        Multiset β) =
      treeSum world config
        (fun directory =>
          (sequentialBody config passOver directory).total world.answers
            (collect pick))
        maxPathLength (sequentialRoot config memory) := by
  rcases proper_sequentialRoot usable terminated with ⟨proper, _⟩
  rw [← total_sequentialRecurse (collect pick) proper
    (Nat.le_add_left _ _), Program.total, sum_collect]
  simp [List.filterMap_append, unpicked]

end BcIo.Walk
