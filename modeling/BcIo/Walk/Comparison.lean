import BcIo.Walk.Selection
import BcIo.Walk.Accounts

/-!
# Comparing two walks

Two static worlds lead to the same visits, and to the same openings, exactly if
they do so in each directory that the walk comes to: the path of an entry shows
the directory it was found in, and the path of a directory the one above it.
-/

namespace BcIo.Walk

open BcIo.File
open BcIo.Foundation.Aggregate
open BcIo.Foundation.Interaction
open BcIo.Foundation.WorkerPool

/-- What the comparison is about: the path and the kind of a visited entry. -/
def Entry.shape (entry : Entry) : Path × EntryKind :=
  (entry.absolutePath, entry.kind)

variable {world : World} {config : Config}

/-! ## One directory -/

/-- Two lists have the same elements. -/
def SameElements {α : Type} (first second : List α) : Prop :=
  ∀ value, value ∈ first ↔ value ∈ second

/-- In a directory two worlds lead to the same visits and the same descents. -/
structure Alike (first second : World) (config : Config)
    (directory : Directory) : Prop where
  visits : SameElements
    ((visitedIn first config directory).map Entry.shape)
    ((visitedIn second config directory).map Entry.shape)
  children : SameElements (children first config directory)
    (children second config directory)

theorem mem_shapes {directory : Directory} {seen : Path × EntryKind} :
    seen ∈ (visitedIn world config directory).map Entry.shape ↔
      world.openError directory.text (!config.followSymlinks) = none ∧
        ∃ dirent ∈ (world.listing directory.text).entries,
          (visitedAt world config directory dirent).map Entry.shape =
            some seen := by
  rw [List.mem_map]
  constructor
  · rintro ⟨entry, visited, rfl⟩
    rcases mem_visitedIn.mp visited with ⟨openable, dirent, listed, found⟩
    exact ⟨openable, dirent, listed, by rw [found, Option.map_some]⟩
  · rintro ⟨openable, dirent, listed, found⟩
    rcases Option.map_eq_some_iff.mp found with ⟨entry, visited, shape⟩
    exact ⟨entry, mem_visitedIn.mpr ⟨openable, dirent, listed, visited⟩,
      shape⟩

/-- A joined path shows what it was joined from. -/
theorem joined_injective {base other : Path} (rooted : base ≠ [])
    (rootedToo : other ≠ []) {name nameToo : EntryName}
    (same : joined base name.bytes = joined other nameToo.bytes) :
    base = other ∧ name = nameToo := by
  rw [joined_of_ne_nil rooted, joined_of_ne_nil rootedToo] at same
  have backwards := congrArg List.reverse same
  simp only [List.reverse_append, List.reverse_cons, List.append_assoc,
    List.singleton_append] at backwards
  have separated : ∀ rest : List Byte, Separated (slash :: rest) := by
    intro rest byte isHead
    exact (Option.some.inj isHead).symm
  rcases split_unique (fun isIn => name.noSlash (List.mem_reverse.mp isIn))
      (fun isIn => nameToo.noSlash (List.mem_reverse.mp isIn))
      (separated _) (separated _) backwards with ⟨names, bases⟩
  exact ⟨List.reverse_injective (List.cons.inj bases).2,
    EntryName.ext_bytes (List.reverse_injective names)⟩

/-! ## The whole tree -/

/-- A walk comes from the one directory to the other. -/
def Below (world : World) (config : Config) :
    Directory → Directory → Prop :=
  Relation.ReflTransGen fun directory child =>
    child ∈ children world config directory

/-- What a sum over the tree consists of. -/
theorem mem_treeSum {β : Type} {weight : Directory → Multiset β}
    {levels : Nat} {directory : Directory} (proper : Proper directory)
    (enough : Suffices levels directory) {value : β} :
    value ∈ treeSum world config weight levels directory ↔
      ∃ below, Below world config directory below ∧
        value ∈ weight below := by
  induction levels generalizing directory with
  | zero => exact absurd enough (not_suffices_zero proper)
  | succ levels induction =>
      rw [treeSum, Multiset.mem_add, mem_sum_map]
      constructor
      · rintro (here | ⟨child, isChild, there⟩)
        · exact ⟨directory, .refl, here⟩
        · rcases proper.child isChild with ⟨properChild, longer⟩
          rcases (induction properChild (enough.child longer)).mp there with
            ⟨below, isBelow, inBelow⟩
          exact ⟨below, .head isChild isBelow, inBelow⟩
      · rintro ⟨below, isBelow, inBelow⟩
        rcases isBelow.cases_head with rfl | ⟨child, isChild, isBelow⟩
        · exact Or.inl inBelow
        · rcases proper.child isChild with ⟨properChild, longer⟩
          exact Or.inr ⟨child, isChild,
            (induction properChild (enough.child longer)).mpr
              ⟨below, isBelow, inBelow⟩⟩

/-- The depth of a directory is what its path says. -/
structure Placed (root directory : Directory) : Prop where
  sound : Sound directory
  level : directory.path.count slash + root.depth =
    root.path.count slash + directory.depth
  longer : root.path.length ≤ directory.path.length

theorem Placed.unique {root first second : Directory}
    (placed : Placed root first) (placedToo : Placed root second)
    (samePath : first.path = second.path) : first = second := by
  have sameText : first.text = second.text := by
    rw [placed.sound.proper.text, placedToo.sound.proper.text, samePath]
  have sameDepth : first.depth = second.depth := by
    have level := placed.level
    have levelToo := placedToo.level
    rw [samePath] at level
    omega
  cases first
  cases second
  simp only at sameText samePath sameDepth
  rw [sameText, samePath, sameDepth]

theorem count_slash_joined {base : Path} (rooted : base ≠ [])
    (name : EntryName) :
    (joined base name.bytes).count slash = base.count slash + 1 := by
  rw [joined_of_ne_nil rooted, List.count_append, List.count_cons_self,
    List.count_eq_zero_of_not_mem name.noSlash]

theorem Placed.child {root directory child : Directory}
    (placed : Placed root directory)
    (isChild : child ∈ children world config directory) :
    Placed root child ∧ ∃ name : EntryName,
      child.path = joined directory.path name.bytes := by
  rcases mem_children_iff.mp isChild with ⟨_, dirent, _, isEntered⟩
  rcases entered_iff_visitedAt.mp isEntered with
    ⟨entry, visited, _, _, rfl⟩
  rcases placed.sound.directory visited with ⟨sound, path, depth⟩
  have further := length_lt_joined directory.path dirent.name
  have level := placed.level
  have longer := placed.longer
  refine ⟨⟨sound, ?_, ?_⟩, dirent.name, path⟩
  · rw [path, depth, count_slash_joined placed.sound.rooted]
    omega
  · rw [path]
    omega

theorem Below.placed {root directory : Directory} (sound : Sound root)
    (below : Below world config root directory) :
    Placed root directory := by
  induction below with
  | refl => exact ⟨sound, rfl, Nat.le_refl _⟩
  | tail _ isChild placed => exact (placed.child isChild).1

section Compare

variable {first second : World} {root : Directory}

/-- What is visited below the root, as far as it is compared. -/
def SeenBelow (world : World) (config : Config) (root : Directory)
    (seen : Path × EntryKind) : Prop :=
  ∃ directory, Below world config root directory ∧
    seen ∈ (visitedIn world config directory).map Entry.shape

/-- What is opened below the root, and the root. -/
def OpenedBelow (world : World) (config : Config) (root : Directory)
    (path : Path) : Prop :=
  ∃ directory, Below world config root directory ∧ directory.text = path

/-- Where every directory is alike, a walk comes to the same directories. -/
theorem below_of_alike
    (alike : ∀ directory, Below first config root directory →
      Alike first second config directory) (directory : Directory) :
    Below first config root directory ↔
      Below second config root directory := by
  constructor
  · intro below
    induction below with
    | refl => exact .refl
    | tail below isChild reached =>
        exact reached.tail (((alike _ below).children _).mp isChild)
  · intro below
    induction below with
    | refl => exact .refl
    | tail _ isChild reached =>
        exact reached.tail (((alike _ reached).children _).mpr isChild)

variable (sound : Sound root)

include sound

/-- What is opened shows to which directories a walk comes. -/
theorem below_of_opened
    (opened : ∀ path, OpenedBelow first config root path →
      OpenedBelow second config root path) {directory : Directory}
    (below : Below first config root directory) :
    Below second config root directory := by
  rcases opened directory.text ⟨directory, below, rfl⟩ with
    ⟨other, belowToo, sameText⟩
  have placed := below.placed sound
  have placedToo := belowToo.placed sound
  have samePath : other.path = directory.path := by
    rw [← placedToo.sound.proper.text, ← placed.sound.proper.text, sameText]
  rw [← placedToo.unique placed samePath]
  exact belowToo

/-- A visit belongs to one directory. -/
theorem visit_of_seen
    (seen : ∀ shape, SeenBelow first config root shape →
      SeenBelow second config root shape) {directory : Directory}
    (below : Below first config root directory) {shape : Path × EntryKind}
    (visited : shape ∈ (visitedIn first config directory).map
      Entry.shape) :
    shape ∈ (visitedIn second config directory).map Entry.shape := by
  rcases seen shape ⟨directory, below, visited⟩ with
    ⟨other, belowToo, visitedToo⟩
  have placed := below.placed sound
  have placedToo := belowToo.placed sound
  have same : other = directory := by
    rcases (mem_shapes.mp visited).2 with ⟨_, _, found⟩
    rcases (mem_shapes.mp visitedToo).2 with ⟨_, _, foundToo⟩
    rcases Option.map_eq_some_iff.mp found with ⟨entry, isEntry, rfl⟩
    rcases Option.map_eq_some_iff.mp foundToo with
      ⟨entryToo, isEntryToo, shapes⟩
    have samePath : entryToo.absolutePath = entry.absolutePath :=
      (Prod.mk.inj shapes).1
    rw [visitedAt_path placed.sound.proper isEntry,
      visitedAt_path placedToo.sound.proper isEntryToo] at samePath
    exact placedToo.unique placed
      (joined_injective placedToo.sound.rooted placed.sound.rooted
        samePath).1
  rw [same] at visitedToo
  exact visitedToo

/-- A descent starts from one directory. -/
theorem child_of_opened
    (opened : ∀ path, OpenedBelow first config root path →
      OpenedBelow second config root path) {directory child : Directory}
    (below : Below first config root directory)
    (isChild : child ∈ children first config directory) :
    child ∈ children second config directory := by
  have placed := below.placed sound
  rcases placed.child isChild with ⟨_, name, path⟩
  have reached : Below second config root child :=
    below_of_opened sound opened (below.tail isChild)
  rcases reached.cases_tail with isRoot | ⟨parent, belowToo, isChildToo⟩
  · have longer := length_lt_joined directory.path name
    have long := placed.longer
    rw [← path, isRoot] at longer
    omega
  · have placedToo := Below.placed sound belowToo
    rcases placedToo.child isChildToo with ⟨_, nameToo, pathToo⟩
    rw [path] at pathToo
    have same := placed.unique placedToo
      (joined_injective placed.sound.rooted placedToo.sound.rooted
        pathToo).1
    rw [same]
    exact isChildToo

/-- Two walks do the same exactly where all directories are alike. -/
theorem same_below_iff :
    ((∀ shape, SeenBelow first config root shape ↔
          SeenBelow second config root shape) ∧
        ∀ path, OpenedBelow first config root path ↔
          OpenedBelow second config root path) ↔
      ∀ directory, Below first config root directory →
        Alike first second config directory := by
  constructor
  · rintro ⟨seen, opened⟩ directory below
    have belowToo : Below second config root directory :=
      below_of_opened sound (fun path => (opened path).mp) below
    constructor
    · intro shape
      exact ⟨visit_of_seen sound (fun shape => (seen shape).mp) below,
        visit_of_seen sound (fun shape => (seen shape).mpr) belowToo⟩
    · intro child
      exact ⟨child_of_opened sound (fun path => (opened path).mp) below,
        child_of_opened sound (fun path => (opened path).mpr) belowToo⟩
  · intro alike
    have reached := below_of_alike alike
    constructor
    · intro shape
      constructor
      · rintro ⟨directory, below, visited⟩
        exact ⟨directory, (reached directory).mp below,
          ((alike directory below).visits shape).mp visited⟩
      · rintro ⟨directory, below, visited⟩
        have belowToo := (reached directory).mpr below
        exact ⟨directory, belowToo,
          ((alike directory belowToo).visits shape).mpr visited⟩
    · intro path
      constructor
      · rintro ⟨directory, below, isPath⟩
        exact ⟨directory, (reached directory).mp below, isPath⟩
      · rintro ⟨directory, below, isPath⟩
        exact ⟨directory, (reached directory).mpr below, isPath⟩

end Compare

/-! ## The sequential walk -/

section Sequential

variable {memory : List Byte} (usable : usableRoot config = some memory)
  (terminated : Terminated memory config.rootLength) {final : State Unit}
  (history :
    final.history =
      (sequentialRecurse config maxPathLength
          (sequentialRoot config memory)).trace world.answers ++
        [.shared .loadVisitFailed])

include usable terminated history

theorem mem_visits_sequential (shape : Path × EntryKind) :
    shape ∈ final.visits.map Entry.shape ↔
      SeenBelow world config (sequentialRoot config memory) shape := by
  rcases proper_sequentialRoot usable terminated with ⟨proper, _⟩
  rw [← Multiset.mem_coe,
    view_visits_sequential usable terminated Entry.shape history,
    visitedBelow, mem_treeSum proper (Nat.le_add_left _ _)]
  exact Iff.rfl

theorem mem_opened_sequential (path : Path) :
    path ∈ final.opened ↔
      OpenedBelow world config (sequentialRoot config memory) path := by
  rcases proper_sequentialRoot usable terminated with ⟨proper, _⟩
  rcases usableRoot_some usable with ⟨_, _, _, hasVisit, _⟩
  have free : ∀ op, ¬ Notable op → collect openOf op = 0 := by
    intro op unnoted
    rw [collect, openOf_of_not_notable unnoted]
    rfl
  have weights :
      (fun directory =>
          (sequentialBody config passOver directory).total world.answers
            (collect openOf)) =
        fun directory => ({directory.text} : Multiset Path) := by
    funext directory
    rw [total_sequentialBody_notable free hasVisit]
    simp [collect, openOf]
  rw [State.opened, history, ← Multiset.mem_coe,
    collected_sequential openOf rfl usable terminated, weights,
    mem_treeSum proper (Nat.le_add_left _ _)]
  simp only [Multiset.mem_singleton, OpenedBelow, eq_comm]

end Sequential

/-! ## The loop of the parallel walk -/

/-- The directory that a worker hands over. -/
def pushOf : Op → Option Directory
  | .shared (.queuePush directory) => some directory
  | _ => none

/-- What a worker does with a directory, when the queue takes its pushes. -/
def processed (world : World) (config : Config)
    (process : Directory → Action Unit) (directory : Directory) : List Op :=
  (processBody config (enqueueDirectory config process) directory).trace
    world.answers

theorem collect_processed {β : Type} (pick : Op → Option β)
    (process : Directory → Action Unit) (directory : Directory) :
    ((processed world config process directory).filterMap pick :
        Multiset β) =
      (processBody config passOver directory).total world.answers
          (collect pick) +
        ((children world config directory).map fun child =>
          collect pick (.shared .raiseOutstanding) +
            collect pick (.shared (.queuePush child))).sum := by
  rw [← sum_collect]
  refine (total_processBody (collect pick) directory ?_).trans ?_
  · intro child _
    rfl
  · congr 1
    congr 1
    apply List.map_congr_left
    intro child _
    refine (Program.total_call _ _ _ _).trans ?_
    congr 1
    refine (Program.total_call _ _ _ _).trans ?_
    exact add_zero _

theorem mem_visits_processed (hasVisit : config.hasVisit = true)
    (process : Directory → Action Unit) (directory : Directory)
    (shape : Path × EntryKind) :
    shape ∈ ((processed world config process directory).filterMap
          visitOf).map Entry.shape ↔
      shape ∈ (visitedIn world config directory).map Entry.shape := by
  have free :
      ∀ op, ¬ Notable op →
        collect (fun op => (visitOf op).map Entry.shape) op = 0 := by
    intro op unnoted
    simp [collect, visitOf_of_not_notable unnoted]
  rw [List.map_filterMap, ← Multiset.mem_coe, collect_processed,
    total_bodies _ (free _ id) (free _ id) (fun _ => free _ id),
    total_sequentialBody_notable free hasVisit, Multiset.mem_add,
    Multiset.mem_add, mem_sum_map, mem_sum_map]
  simp [collect, visitOf, eq_comm]

theorem mem_pushes_processed (process : Directory → Action Unit)
    (directory child : Directory) :
    child ∈ (processed world config process directory).filterMap pushOf ↔
      child ∈ children world config directory := by
  have free : ∀ op, Plain op → collect pushOf op = 0 := by
    intro op plain
    cases op with
    | outside call => rfl
    | shared access =>
        cases access with
        | queuePush directory => cases plain
        | _ => rfl
  have returns :
      Program.Returns world.answers Plain
        (processBody config passOver directory) () :=
    judges_processBody (Program.Returns.judgement fun _ => id) directory
      fun _ _ => .ret _
  rw [← Multiset.mem_coe, collect_processed,
    returns.total_eq_zero world.answers _ free, zero_add, mem_sum_map]
  simp [collect, pushOf]

end BcIo.Walk
