import BcIo.Walk.Bounds

/-!
# Symbolic links that appear during a walk

A directory is opened by its full path, with `O_NOFOLLOW` unless links are to be
followed.  The flag concerns the last component only: an opening stays below the
root as long as the components before it are still directories.  What has to be
left alone for that are the directories that the walk is in, and those above the
directories that are queued.
-/

namespace BcIo.Walk

open BcIo.File
open BcIo.Foundation.Bookkeeping
open BcIo.Foundation.Interaction
open BcIo.Foundation.WorkerPool

/-! ## Paths above a path -/

/--
A component of a path before the last one, below a root whose path has a given
length.
-/
def Above (rootLength : Nat) (above path : Path) : Prop :=
  ∃ position, rootLength < position ∧ path[position]? = some slash ∧
    above = path.take position

/-- Any component below the root. -/
def OnPath (rootLength : Nat) (above path : Path) : Prop :=
  Above rootLength above path ∨ (above = path ∧ rootLength < path.length)

variable {rootLength : Nat}

/-- The components before a name are those of the directory. -/
theorem above_join {base above : Path} {name : EntryName}
    (isAbove : Above rootLength above (base ++ slash :: name.bytes)) :
    OnPath rootLength above base := by
  rcases isAbove with ⟨position, below, isSlash, rfl⟩
  rcases Nat.lt_trichotomy position base.length with inside | rfl | after
  · rw [List.getElem?_append_left inside] at isSlash
    rw [List.take_append_of_le_length (Nat.le_of_lt inside)]
    exact Or.inl ⟨position, below, isSlash, rfl⟩
  · rw [List.take_left]
    exact Or.inr ⟨rfl, below⟩
  · rw [List.getElem?_append_right (Nat.le_of_lt after)] at isSlash
    rcases Nat.exists_eq_add_of_lt after with ⟨distance, rfl⟩
    have behind :
        base.length + distance + 1 - base.length = distance + 1 := by
      omega
    rw [behind, List.getElem?_cons_succ] at isSlash
    exact absurd (List.mem_of_getElem? isSlash) name.noSlash

/-- There is nothing above the root. -/
theorem not_above_root {above path : Path}
    (isRoot : path.length = rootLength) : ¬ Above rootLength above path := by
  rintro ⟨position, below, isSlash, _⟩
  have inside := (List.getElem?_eq_some_iff.mp isSlash).1
  omega

/-! ## A file system that changes -/

/-- What a path leads to when no link is followed. -/
inductive Node where
  | directory
  | symlink
  | other
  deriving DecidableEq, Repr

/-- The tree below the root, and the openings that went through a link. -/
structure Linked where
  node : Path → Option Node
  escapes : List Path

/-- A component before the last one is a link. -/
def passesLink (rootLength : Nat) (node : Path → Option Node)
    (path : Path) : Bool :=
  (List.range path.length).any fun position =>
    decide (rootLength < position) &&
      decide (path[position]? = some slash) &&
      decide (node (path.take position) = some .symlink)

theorem passesLink_iff {node : Path → Option Node} {path : Path} :
    passesLink rootLength node path = true ↔
      ∃ above, Above rootLength above path ∧
        node above = some .symlink := by
  simp only [passesLink, List.any_eq_true, List.mem_range,
    Bool.and_eq_true, decide_eq_true_eq]
  constructor
  · rintro ⟨position, _, ⟨below, isSlash⟩, isLink⟩
    exact ⟨_, ⟨position, below, isSlash, rfl⟩, isLink⟩
  · rintro ⟨_, ⟨position, below, isSlash, rfl⟩, isLink⟩
    exact ⟨position, (List.getElem?_eq_some_iff.mp isSlash).1,
      ⟨below, isSlash⟩, isLink⟩

/--
`open` as Linux does it: links before the last component are followed, and a
link as the last component is an error with `O_NOFOLLOW`.
-/
def openLinked (rootLength : Nat) (situation : Linked)
    (outcome : Except Errno Nat) (path : Path) (noFollow : Bool) :
    Except Errno Nat × Linked :=
  if passesLink rootLength situation.node path then
    (outcome,
      { situation with escapes := situation.escapes ++ [path] })
  else
    match situation.node path with
    | some .directory => (outcome, situation)
    | some .symlink =>
        (if noFollow then .error Errno.eloop else outcome, situation)
    | some .other => (.error Errno.enotdir, situation)
    | none => (.error Errno.enoent, situation)

/--
An environment in which the tree may change at any time, as a whole; what it
does not determine is answered in any way.
-/
abbrev linkedEnvironment (rootLength : Nat) : Environment where
  Situation := Linked
  Choice := (call : Call) → call.Response
  Change := Path → Option Node
  answer
    | situation, choice, .openDirectory path noFollow =>
        openLinked rootLength situation
          (choice (.openDirectory path noFollow)) path noFollow
    | situation, choice, call => (choice call, situation)
  change situation node := { situation with node := node }

/-! ## What a worker relies on -/

/-- A directory that a worker has popped, or has opened. -/
inductive Hold where
  | popped (path : Path)
  | opened (path : Path)
  deriving DecidableEq, Repr

/-- The components that must not become links. -/
def Hold.guards (rootLength : Nat) : Hold → Path → Prop
  | .popped path, above => Above rootLength above path
  | .opened path, above => OnPath rootLength above path

/-- What is above a path is guarded by one of some holds. -/
def Covered (rootLength : Nat) (held : List Hold) (path : Path) : Prop :=
  ∀ above, Above rootLength above path →
    ∃ hold ∈ held, hold.guards rootLength above

def holdNote : List Hold → (op : Op) → op.Response → List Hold
  | held, .outside (.openDirectory path _), opened =>
      match opened with
      | .ok _ => .opened path :: held
      | .error _ => held
  | held, .outside (.closeDirectory _), _ => held.tail
  | held, .shared .queuePop, popped =>
      match popped with
      | some directory => .popped directory.path :: held
      | none => held
  | held, .shared .finishOutstanding, _ => held.tail
  | held, _, _ => held

/-- A directory whose path is a C string below the root. -/
structure Walkable (directory : Directory) : Prop where
  proper : Proper directory
  named : directory.path ≠ []

/-- Only what is covered is opened or handed over. -/
def holding (rootLength : Nat) : Discipline Op Op.Response (List Hold) where
  note := holdNote
  permits
    | held, .outside (.openDirectory path noFollow) =>
        noFollow = true ∧ Covered rootLength held path
    | held, .shared (.queuePush directory) =>
        Walkable directory ∧ Covered rootLength held directory.path
    | _, _ => True
  allowed
    | _, .shared .queuePop, popped =>
        ∀ directory, popped = some directory → Walkable directory
    | _, _, _ => True
  cut := True

theorem Walkable.child {directory : Directory} {entry : Entry}
    (walkable : Walkable directory)
    (offspring : Offspring directory entry) :
    Walkable entry.directory ∧
      ∃ name : EntryName,
        entry.directory.path = directory.path ++ slash :: name.bytes := by
  rcases offspring with ⟨name, joins, length, depth⟩
  rw [pathJoin_of_proper walkable.proper] at joins
  split at joins
  · rename_i short
    have path := Option.some.inj joins
    have noNul : (0 : Byte) ∉ entry.absolutePath := by
      rw [← path]
      exact noNul_joined walkable.proper.noNul name
    rw [path] at short
    rcases Proper.atPointer noNul short [] entry.depth with
      ⟨proper, samePath⟩
    have whole :
        entry.directory.path = directory.path ++ slash :: name.bytes := by
      rw [← joined_of_ne_nil walkable.named, path, Entry.directory, length]
      exact samePath
    rw [Entry.directory, length]
    refine ⟨⟨proper, ?_⟩, name, ?_⟩
    · rw [Entry.directory, length] at whole
      rw [whole]
      simp
    · rw [Entry.directory, length] at whole
      exact whole
  · cases joins

/-- An entry of an open directory is covered. -/
theorem covered_child {directory : Directory} {entry : Entry}
    {held : List Hold} (walkable : Walkable directory)
    (isOpen : Hold.opened directory.path ∈ held)
    (offspring : Offspring directory entry) :
    Covered rootLength held entry.directory.path := by
  rcases (walkable.child offspring).2 with ⟨name, path⟩
  intro above isAbove
  rw [path] at isAbove
  exact ⟨_, isOpen, above_join isAbove⟩

/-! ## The outlines -/

variable {config : Config} {held : List Hold}

/--
The outline of what is held.  A context is the list of the holds; it grows when
a directory is opened and shrinks when it is closed.
-/
def holdingOutline (rootLength : Nat) (config : Config)
    (noLinks : config.followSymlinks = false) (halted : Action Bool)
    (looks : ∀ {held},
      Keeps (holding rootLength) (fun _ last => last = held) halted held) :
    Outline config halted (List Hold) (List Hold) where
  discipline := holding rootLength
  calm _ := True
  head context held := held = context
  fresh context held := held = context
  seen context held := held = context
  within context directory :=
    Walkable directory ∧ .opened directory.path ∈ context
  ready context directory held :=
    held = context ∧ Walkable directory ∧
      Covered rootLength context directory.path
  opening context directory held :=
    held = context ∧ Walkable directory ∧
      Covered rootLength context directory.path
  inside context directory := .opened directory.path :: context
  fresh_seen := id
  seen_head := id
  seen_calm _ := trivial
  ready_head isReady := isReady.1
  ordinary := by
    intro held op _ isOrdinary
    cases op with
    | outside call =>
        cases call with
        | openDirectory path noFollow => cases isOrdinary
        | closeDirectory path => cases isOrdinary
        | _ => exact ⟨trivial, fun _ => rfl⟩
    | shared access =>
        cases access with
        | count counter => exact ⟨trivial, fun _ => rfl⟩
        | _ => cases isOrdinary
  asks _ _ _ := ⟨⟨trivial, fun _ => rfl⟩, ⟨trivial, fun _ => rfl⟩⟩
  visits _ _ isFresh := ⟨trivial, isFresh, trivial, isFresh⟩
  looks := by
    rintro _ _ rfl
    refine looks.mono ?_
    rintro _ _ rfl
    exact ⟨rfl, fun _ => rfl⟩
  begins := by
    rintro _ directory _ ⟨rfl, walkable, covered⟩
    refine looks.mono ?_
    rintro _ _ rfl
    exact ⟨rfl, fun _ => ⟨rfl, walkable, covered⟩⟩
  opens := by
    rintro context directory _ ⟨rfl, walkable, covered⟩
    rw [walkable.proper.text, noLinks]
    exact ⟨⟨rfl, covered⟩, fun _ => rfl, fun _ => rfl, walkable,
      List.mem_cons_self⟩
  closes := by
    rintro _ _ _ rfl
    exact ⟨trivial, rfl⟩
  listing _ := 0
  rank _ := 0
  opened := Or.inl trivial
  listed := Or.inl trivial
  nested := Or.inl trivial

def holdingSequential (rootLength : Nat)
    (noLinks : config.followSymlinks = false) :
    SequentialOutline config (List Hold) (List Hold) where
  toOutline := holdingOutline rootLength config noLinks
    (sequentialHalted config)
    (keeps_sequentialHalted ⟨trivial, fun _ => rfl⟩
      ⟨trivial, fun _ => rfl⟩)
  recurses := by
    rintro context directory entry _ ⟨walkable, isOpen⟩ offspring rfl
    exact ⟨rfl, (walkable.child offspring).1,
      covered_child walkable isOpen offspring⟩

def holdingParallel (rootLength : Nat)
    (noLinks : config.followSymlinks = false) :
    ParallelOutline config (List Hold) (List Hold) where
  toOutline := holdingOutline rootLength config noLinks parallelHalted
    (keeps_parallelHalted ⟨trivial, fun _ => rfl⟩)
  ready_calm _ := trivial
  hands := by
    rintro context directory entry _ ⟨walkable, isOpen⟩ offspring rfl
    have child := (walkable.child offspring).1
    have covered :
        Covered rootLength _ entry.directory.path :=
      covered_child walkable isOpen offspring
    exact ⟨trivial, ⟨child, covered⟩, rfl, trivial, rfl, child, covered⟩
  idle held := held = []
  starting held := held = []
  starts := by
    rintro _ rfl
    exact keeps_workerStart ⟨trivial, fun _ => rfl⟩
      ⟨trivial, fun _ => rfl⟩ ⟨trivial, fun _ => rfl⟩
      fun _ _ _ => ⟨trivial, fun _ => rfl⟩
  polled held := held = []
  polls := by
    rintro _ rfl
    refine (keeps_shouldStop ⟨trivial, fun _ => rfl⟩).mono ?_
    rintro _ _ rfl
    exact ⟨rfl, fun _ => rfl⟩
  looked held := held = []
  checks := by
    rintro _ rfl
    refine (keeps_parallelHalted ⟨trivial, fun _ => rfl⟩).mono ?_
    rintro _ _ rfl
    exact ⟨rfl, fun _ => rfl⟩
  misses := by
    rintro _ rfl
    exact ⟨trivial, trivial, fun _ => rfl⟩
  takes := by
    rintro _ directory rfl walkable
    refine ⟨Or.inl trivial, [.popped directory.path],
      ⟨rfl, walkable directory rfl, ?_⟩, ?_⟩
    · intro above isAbove
      exact ⟨_, List.mem_singleton_self _, isAbove⟩
    · rintro _ rfl
      exact ⟨trivial, rfl⟩

/-! ## What must be left alone -/

section Guarded

variable {capacity : Nat}

/--
A component above a queued directory, or one that a worker relies on.
-/
def Guarded {Situation : Type} (rootLength : Nat) (state : State Situation)
    (notes : List (List Hold)) (path : Path) : Prop :=
  (∃ directory ∈ state.queue, Above rootLength path directory.path) ∨
    ∃ held ∈ notes, ∃ hold ∈ held, hold.guards rootLength path

/-- The step turns no guarded component into a link. -/
def Spared (rootLength : Nat)
    (noted : Noted (machine (linkedEnvironment rootLength) capacity) Bool
      (List Hold))
    (move : Move (machine (linkedEnvironment rootLength) capacity)) :
    Prop :=
  ∀ node : Path → Option Node, move = .drift node →
    ∀ path, Guarded rootLength noted.pool.state noted.notes path →
      node path ≠ some .symlink

/-- No opening has gone through a link, and no guarded component is one. -/
structure Unlinked (rootLength : Nat) (state : State Linked)
    (notes : List (List Hold)) : Prop where
  escapes : state.situation.escapes = []
  walkable : ∀ directory ∈ state.queue, Walkable directory
  unlinked : ∀ path, Guarded rootLength state notes path →
    state.situation.node path ≠ some .symlink

/-- What is guarded after one of the notes has changed. -/
theorem guarded_set {Situation : Type} {state : State Situation}
    {notes : List (List Hold)} {thread : Nat} {path : Path}
    (guarded : Guarded rootLength state (notes.set thread held) path) :
    Guarded rootLength state notes path ∨
      ∃ hold ∈ held, hold.guards rootLength path := by
  rcases guarded with queued | ⟨other, member, guards⟩
  · exact Or.inl (Or.inl queued)
  · rcases List.mem_or_eq_of_mem_set member with old | rfl
    · exact Or.inl (Or.inr ⟨other, old, guards⟩)
    · exact Or.inr guards

/-- A covered path is guarded. -/
theorem Covered.guarded {Situation : Type} {state : State Situation}
    {notes : List (List Hold)} {path above : Path}
    (member : held ∈ notes) (covered : Covered rootLength held path)
    (isAbove : Above rootLength above path) :
    Guarded rootLength state notes above :=
  Or.inr ⟨held, member, covered above isAbove⟩

/-- A covered path does not pass a link. -/
theorem Unlinked.passesLink_eq_false {state : State Linked}
    {notes : List (List Hold)} {path : Path}
    (unlinked : Unlinked rootLength state notes) (member : held ∈ notes)
    (covered : Covered rootLength held path) :
    passesLink rootLength state.situation.node path = false := by
  rw [Bool.eq_false_iff]
  intro passes
  rcases passesLink_iff.mp passes with ⟨above, isAbove, isLink⟩
  exact unlinked.unlinked above (covered.guarded member isAbove) isLink

/-- An opening of a covered path, which links are not followed for. -/
theorem openLinked_covered {situation : Linked} {path : Path}
    (outcome : Except Errno Nat)
    (passes : passesLink rootLength situation.node path = false) :
    (openLinked rootLength situation outcome path true).2 = situation ∧
      ∀ entries,
        (openLinked rootLength situation outcome path true).1 =
            .ok entries →
          situation.node path = some .directory := by
  rw [openLinked, passes, if_neg Bool.false_ne_true]
  cases at_ : situation.node path with
  | none => exact ⟨rfl, fun _ failed => by cases failed⟩
  | some node =>
      cases node with
      | directory => exact ⟨rfl, fun _ _ => rfl⟩
      | symlink => exact ⟨rfl, fun _ failed => by cases failed⟩
      | other => exact ⟨rfl, fun _ failed => by cases failed⟩

/-- The notes may change as long as what is guarded anew is no link. -/
theorem Unlinked.set {state : State Linked} {notes : List (List Hold)}
    {thread : Nat} (unlinked : Unlinked rootLength state notes)
    (fresh : ∀ hold ∈ held, ∀ path, hold.guards rootLength path →
      state.situation.node path ≠ some .symlink) :
    Unlinked rootLength state (notes.set thread held) := by
  refine ⟨unlinked.escapes, unlinked.walkable, ?_⟩
  intro path guarded
  rcases guarded_set guarded with old | ⟨hold, member, guards⟩
  · exact unlinked.unlinked path old
  · exact fresh hold member path guards

/-- What a thread holds is no link. -/
theorem Unlinked.of_held {state : State Linked} {notes : List (List Hold)}
    (unlinked : Unlinked rootLength state notes) (member : held ∈ notes) :
    ∀ hold ∈ held, ∀ path, hold.guards rootLength path →
      state.situation.node path ≠ some .symlink :=
  fun hold among path guards =>
    unlinked.unlinked path (Or.inr ⟨held, member, hold, among, guards⟩)

/-- A call that changes neither the tree nor the escapes nor adds to the queue. -/
theorem Unlinked.convert {state after : State Linked}
    {notes : List (List Hold)} (unlinked : Unlinked rootLength state notes)
    (situation : after.situation = state.situation)
    (queue : ∀ directory ∈ after.queue, directory ∈ state.queue ∨
      Walkable directory ∧
        ∀ path, Above rootLength path directory.path →
          Guarded rootLength state notes path) :
    Unlinked rootLength after notes := by
  refine ⟨?_, ?_, ?_⟩
  · rw [situation]
    exact unlinked.escapes
  · intro directory queued
    rcases queue directory queued with old | new
    · exact unlinked.walkable directory old
    · exact new.1
  · intro path guarded
    rw [situation]
    apply unlinked.unlinked
    rcases guarded with ⟨directory, queued, isAbove⟩ | noted
    · rcases queue directory queued with old | new
      · exact Or.inl ⟨directory, old, isAbove⟩
      · exact new.2 path isAbove
    · exact Or.inr noted

theorem Unlinked.open {state : State Linked} {notes : List (List Hold)}
    {path : Path} (unlinked : Unlinked rootLength state notes)
    (member : held ∈ notes) (covered : Covered rootLength held path)
    (thread : Nat) (outcome : Except Errno Nat) :
    (openLinked rootLength state.situation outcome path true).2 =
        state.situation ∧
      Unlinked rootLength state
        (notes.set thread
          (holdNote held (.outside (.openDirectory path true))
            (openLinked rootLength state.situation outcome path
              true).1)) := by
  have passes := unlinked.passesLink_eq_false member covered
  rcases openLinked_covered outcome passes with
    ⟨same, isDirectory⟩
  refine ⟨same, unlinked.set ?_⟩
  cases response :
      (openLinked rootLength state.situation outcome path true).1 with
  | error errno => exact unlinked.of_held member
  | ok entries =>
      have at_ := isDirectory entries response
      intro hold among above guards
      rcases List.mem_cons.mp among with rfl | old
      · rcases guards with isAbove | ⟨rfl, _⟩
        · exact unlinked.unlinked above (covered.guarded member isAbove)
        · rw [at_]
          simp
      · exact unlinked.of_held member hold old above guards

section Handle

variable {state : State Linked} {notes : List (List Hold)} {thread : Nat}
  (unlinked : Unlinked rootLength state notes) (member : held ∈ notes)
  (choice : (linkedEnvironment rootLength).Choice × QueueChoice)

include unlinked member

/-- Most calls leave the tree and the queue alone, and add no hold. -/
theorem Unlinked.quiet {op : Op}
    (situation :
      ((machine (linkedEnvironment rootLength) capacity).handle state
        choice op).2.situation = state.situation)
    (queue :
      ((machine (linkedEnvironment rootLength) capacity).handle state
        choice op).2.queue = state.queue)
    (subset :
      holdNote held op
          ((machine (linkedEnvironment rootLength) capacity).handle state
            choice op).1 ⊆ held) :
    Unlinked rootLength
      ((machine (linkedEnvironment rootLength) capacity).handle state
        choice op).2
      (notes.set thread
        (holdNote held op
          ((machine (linkedEnvironment rootLength) capacity).handle state
            choice op).1)) := by
  refine (unlinked.convert situation ?_).set ?_
  · intro directory queued
    rw [queue] at queued
    exact Or.inl queued
  · rw [situation]
    intro hold among
    exact unlinked.of_held member hold (subset among)

theorem Unlinked.push {directory : Directory}
    (walkable : Walkable directory)
    (covered : Covered rootLength held directory.path) :
    Unlinked rootLength
      ((machine (linkedEnvironment rootLength) capacity).handle state
        choice (.shared (.queuePush directory))).2
      (notes.set thread held) := by
  have same :
      ((machine (linkedEnvironment rootLength) capacity).handle state
          choice (.shared (.queuePush directory))).2.situation =
        state.situation := by
    simp only [respond, touch]
    split <;> rfl
  refine (unlinked.convert same ?_).set ?_
  · intro other queued
    rcases mem_queue_handle queued with old | pushed
    · exact Or.inl old
    · cases pushed
      exact Or.inr ⟨walkable, fun path => covered.guarded member⟩
  · rw [same]
    exact unlinked.of_held member

/-- What was above a queued directory is held by the worker that popped it. -/
theorem Unlinked.pop :
    Unlinked rootLength
      ((machine (linkedEnvironment rootLength) capacity).handle state
        choice (.shared .queuePop)).2
      (notes.set thread
        (holdNote held (.shared .queuePop)
          ((machine (linkedEnvironment rootLength) capacity).handle state
            choice (.shared .queuePop)).1)) := by
  have remains :
      Unlinked rootLength
        ((machine (linkedEnvironment rootLength) capacity).handle state
          choice (.shared .queuePop)).2 notes := by
    refine unlinked.convert rfl ?_
    intro directory queued
    exact Or.inl (List.mem_of_mem_eraseIdx queued)
  refine remains.set ?_
  cases popped :
      ((machine (linkedEnvironment rootLength) capacity).handle state
        choice (.shared .queuePop)).1 with
  | none => exact unlinked.of_held member
  | some directory =>
      intro hold among path guards
      rcases List.mem_cons.mp among with rfl | old
      · exact unlinked.unlinked path
          (Or.inl ⟨directory, mem_queue_of_popped popped, guards⟩)
      · exact unlinked.of_held member hold old path guards

end Handle

/-- What permitted calls and sparing changes keep. -/
theorem upholds_holding :
    Noted.Upholds (α := Bool) (holding rootLength) (Spared rootLength)
      (fun (state : (machine (linkedEnvironment rootLength)
        capacity).State) notes => Unlinked rootLength state notes) where
  drift := by
    intro noted node unlinked spared
    refine ⟨unlinked.escapes, unlinked.walkable, ?_⟩
    intro path guarded
    exact spared node rfl path guarded
  turn := by
    intro noted thread choice op next held unlinked running found permitted _
    have member := List.mem_of_getElem? found
    have shrinks : held.tail ⊆ held := (List.tail_sublist held).subset
    have stays : held ⊆ held := List.Subset.refl held
    cases op with
    | outside call =>
        cases call with
        | openDirectory path noFollow =>
            rcases permitted with ⟨rfl, covered⟩
            rcases unlinked.open member covered thread
                (choice.1 (.openDirectory path true)) with
              ⟨same, continues⟩
            refine ⟨trivial, continues.convert same ?_⟩
            intro directory queued
            exact Or.inl queued
        | closeDirectory path =>
            exact ⟨trivial, unlinked.quiet member choice rfl rfl shrinks⟩
        | _ => exact ⟨trivial, unlinked.quiet member choice rfl rfl stays⟩
    | shared access =>
        cases access with
        | queuePush directory =>
            exact ⟨trivial,
              unlinked.push member choice permitted.1 permitted.2⟩
        | queuePop =>
            refine ⟨?_, unlinked.pop member choice⟩
            intro directory popped
            exact unlinked.walkable directory (mem_queue_of_popped popped)
        | finishOutstanding =>
            exact ⟨trivial, unlinked.quiet member choice rfl rfl shrinks⟩
        | _ => exact ⟨trivial, unlinked.quiet member choice rfl rfl stays⟩

end Guarded

/-! ## The walks -/

/-- The root is walkable, and there is nothing above it. -/
theorem walkable_sequentialRoot {memory : List Byte}
    (usable : usableRoot config = some memory)
    (terminated : Terminated memory config.rootLength) :
    Walkable (sequentialRoot config memory) ∧
      ∀ above, ¬ Above config.rootLength above
        (sequentialRoot config memory).path := by
  rcases proper_sequentialRoot usable terminated with ⟨proper, path⟩
  rcases terminated.split with ⟨_, _, length⟩
  rcases usableRoot_some usable with ⟨_, rooted, _⟩
  rw [← path] at length
  refine ⟨⟨proper, ?_⟩, fun _ => not_above_root length⟩
  rw [← List.length_pos_iff, length]
  exact rooted

/-- So is the copy that the parallel walk makes, whatever follows the root. -/
theorem walkable_rootEntry {memory : List Byte}
    (long : 0 < config.rootLength)
    (short : config.rootLength < maxPathLength)
    (names : NamesRoot memory config.rootLength) :
    Walkable (rootEntry config memory) ∧
      ∀ above, ¬ Above config.rootLength above
        (rootEntry config memory).path := by
  rcases proper_rootEntry short names with ⟨proper, path⟩
  have length : (rootEntry config memory).path.length = config.rootLength := by
    rw [path, List.length_take]
    exact Nat.min_eq_left names.1
  refine ⟨⟨proper, ?_⟩, fun _ => not_above_root length⟩
  rw [← List.length_pos_iff, length]
  exact long

theorem keeps_walkSequential_holding
    (noLinks : config.followSymlinks = false)
    (terminated : ∀ memory, usableRoot config = some memory →
      Terminated memory config.rootLength) :
    Keeps (holding config.rootLength) (fun _ _ => True)
      (walkSequential config) [] := by
  unfold walkSequential
  cases usable : usableRoot config with
  | none => trivial
  | some memory =>
      rcases walkable_sequentialRoot usable (terminated memory usable) with
        ⟨walkable, top⟩
      have isReady :
          (holdingSequential config.rootLength noLinks).ready []
            (sequentialRoot config memory) [] :=
        ⟨rfl, walkable, fun above isAbove => absurd isAbove (top above)⟩
      have ends :
          (holdingSequential config.rootLength noLinks).Ends []
            (sequentialRecurse config maxPathLength
              (sequentialRoot config memory)) [] :=
        SequentialOutline.ends_sequentialRecurse (Or.inl trivial) isReady
      refine Keeps.bind ends ?_
      intro _ _ _
      exact ⟨trivial, fun _ _ => trivial⟩

/-- A worker that has not begun holds nothing. -/
theorem not_guarded_of_idle {Situation : Type} {state : State Situation}
    {workers : Nat} {path : Path}
    (top : ∀ directory ∈ state.queue,
      ¬ Above rootLength path directory.path) :
    ¬ Guarded rootLength state (List.replicate workers []) path := by
  rintro (⟨directory, queued, isAbove⟩ | ⟨held, member, hold, among, _⟩)
  · exact top directory queued isAbove
  · rw [List.eq_of_mem_replicate member] at among
    cases among

/-- Before a sequential walk begins, nothing is guarded. -/
theorem not_guarded_initial {Situation : Type} {situation : Situation}
    (path : Path) :
    ¬ Guarded rootLength (State.initial situation) [[]] path := by
  have top :
      ∀ directory ∈ (State.initial situation).queue,
        ¬ Above rootLength path directory.path := by
    intro directory queued
    cases queued
  change ¬ Guarded rootLength _ (List.replicate 1 []) path
  exact not_guarded_of_idle top

section Start

variable (noLinks : config.followSymlinks = false)
  (node : Path → Option Node)

include noLinks

/-- A sequential walk begins with nothing guarded and no opening made. -/
theorem sound_sequentialPool_holding
    (terminated : ∀ memory, usableRoot config = some memory →
      Terminated memory config.rootLength) :
    Noted.Sound (holding config.rootLength) (fun _ _ => True)
      (fun state notes => Unlinked config.rootLength state notes)
      ⟨sequentialPool (linkedEnvironment config.rootLength) config
        ⟨node, []⟩, [[]]⟩ := by
  refine ⟨.cons (keeps_walkSequential_holding noLinks terminated) .nil,
    rfl, ?_, ?_⟩
  · intro directory queued
    cases queued
  · intro path guarded
    exact absurd guarded (not_guarded_initial path)

theorem sound_parallelPool_holding {memory : List Byte}
    (usable : usableRoot config = some memory)
    (names : NamesRoot memory config.rootLength) (workers : Nat) :
    Noted.Sound (holding config.rootLength) (fun _ last => last = [])
      (fun state notes => Unlinked config.rootLength state notes)
      ⟨parallelPool (linkedEnvironment config.rootLength) config memory
        workers ⟨node, []⟩, List.replicate workers []⟩ := by
  rcases usableRoot_some usable with ⟨_, long, short, _⟩
  rcases walkable_rootEntry long short names with ⟨walkable, top⟩
  refine ⟨(holdingParallel config.rootLength noLinks).orderly_parallelPool
    rfl workers _, rfl, ?_, ?_⟩
  · intro directory queued
    rw [List.mem_singleton.mp queued]
    exact walkable
  · intro path guarded
    refine absurd guarded (not_guarded_of_idle ?_)
    intro directory queued
    rw [List.mem_singleton.mp queued]
    exact top path

end Start

/--
As long as nobody turns a component that the walk relies on into a link, no
opening goes through a link, whatever else happens to the tree.  The root has no
zero inside its length; for the sequential walk, which hands out the pointer, one
follows, while the parallel walk terminates a copy.
-/
theorem openings_contained
    (noLinks : config.followSymlinks = false)
    (node : Path → Option Node) :
    ((∀ memory, usableRoot config = some memory →
        Terminated memory config.rootLength) →
      ∀ moves,
        Noted.Each (holding config.rootLength) sequentialResume
          (Spared config.rootLength)
          ⟨sequentialPool (linkedEnvironment config.rootLength) config
            ⟨node, []⟩, [[]]⟩ moves →
        (Pool.run sequentialResume
          (sequentialPool (linkedEnvironment config.rootLength) config
            ⟨node, []⟩) moves).state.situation.escapes = []) ∧
      ((∀ memory, usableRoot config = some memory →
          NamesRoot memory config.rootLength) →
        ∀ workers pool,
        dispatchParallel (linkedEnvironment config.rootLength) config
          workers ⟨node, []⟩ = some pool →
        ∀ moves,
          Noted.Each (holding config.rootLength) (workerResume config)
            (Spared config.rootLength)
            ⟨pool, List.replicate workers []⟩ moves →
          (Pool.run (workerResume config) pool
            moves).state.situation.escapes = []) := by
  constructor
  · intro terminated moves each
    have sound := sound_sequentialPool_holding noLinks node terminated
    have escapes :=
      (sound.run resumes_sequential upholds_holding each).property.escapes
    rw [Noted.run_pool] at escapes
    exact escapes
  · intro names workers pool dispatched moves each
    rcases dispatchParallel_some dispatched with ⟨memory, usable, rfl⟩
    have sound :=
      sound_parallelPool_holding noLinks node usable (names memory usable)
        workers
    have escapes :=
      (sound.run
        (holdingParallel config.rootLength noLinks).rests_workerResume
        upholds_holding each).property.escapes
    rw [Noted.run_pool] at escapes
    exact escapes

/-- The directories `r`, `r/d` and `r/d/d`. -/
def chainTree : Path → Option Node := fun path =>
  if path = [114] ∨ path = [114, 47, 100] ∨
      path = [114, 47, 100, 47, 100] then
    some .directory
  else
    none

/-- `r/d` is replaced by a link to a directory that has a `d` of its own. -/
def swappedTree : Path → Option Node := fun path =>
  if path = [114, 47, 100] then some .symlink else chainTree path

/-- What a walk of `chainTree` reads. -/
def chainWorld : World where
  openError _ _ := none
  listing path :=
    if path = [114] ∨ path = [114, 47, 100] then ⟨[nestedDirectory], none⟩
    else ⟨[], none⟩
  stat _ _ _ := .ok ⟨1, 2, 4096, 0o040755, 5⟩
  filter _ := true
  shouldDescend _ := true

/-- A step of a thread, with a queue that refuses nothing. -/
def chainTurn : Move (machine (linkedEnvironment 1)
    nestedConfig.effectiveQueueCapacity) :=
  .turn 0 (chainWorld.answer, ⟨false, 0⟩)

/-- `r/d` becomes a link before the walk begins. -/
theorem openings_contained_swapped_first :
    (Pool.run sequentialResume
      (sequentialPool (linkedEnvironment 1) nestedConfig ⟨chainTree, []⟩)
      (.drift swappedTree :: List.replicate 40 chainTurn)
        ).state.situation.escapes = [] := by
  have terminated : ∀ memory, usableRoot nestedConfig = some memory →
      Terminated memory nestedConfig.rootLength := by
    intro memory usable
    cases usable
    constructor <;> decide
  refine (openings_contained rfl chainTree).1 terminated _ ⟨?_, ?_⟩
  · intro node _ path guarded
    exact absurd guarded (not_guarded_initial path)
  · apply Noted.each_of_forall
    intro noted move member node isDrift
    rw [List.eq_of_mem_replicate member] at isDrift
    cases isDrift

/--
`r/d` becomes a link when the walk has listed it: then `r/d/d` is opened through
the link, by the sequential walk as well as by a worker.
-/
theorem openings_not_contained :
    (Pool.run sequentialResume
      (sequentialPool (linkedEnvironment 1) nestedConfig ⟨chainTree, []⟩)
      (List.replicate 16 chainTurn ++ .drift swappedTree ::
        List.replicate 10 chainTurn)).state.situation.escapes =
        [[114, 47, 100, 47, 100]] ∧
      (Pool.run (workerResume nestedConfig)
        (parallelPool (linkedEnvironment 1) nestedConfig [114, 0] 1
          ⟨chainTree, []⟩)
        (List.replicate 25 chainTurn ++ .drift swappedTree ::
          List.replicate 30 chainTurn)).state.situation.escapes =
        [[114, 47, 100, 47, 100]] := by
  constructor <;> decide +kernel

end BcIo.Walk
