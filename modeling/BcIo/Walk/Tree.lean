import BcIo.Walk.Static

/-!
# The tree of directories that a walk enters

Every directory below another has a longer path, and no path reaches the size
of a path buffer, so the directories a walk enters form a finite tree, even
where links lead back.  Sums over this tree say what whole walks do.
-/

namespace BcIo.Walk

open BcIo.File
open BcIo.Foundation.MachineWord
open BcIo.Foundation.Interaction
open BcIo.Foundation.WorkerPool

/-- The pointer and the length of a path agree, and the path fits its buffer. -/
structure Proper (directory : Directory) : Prop where
  text : directory.text = directory.path
  noNul : (0 : Byte) ∉ directory.path
  short : directory.path.length < maxPathLength

theorem cString_terminated {path : Path} (noNul : (0 : Byte) ∉ path)
    (rest : List Byte) : cString (path ++ 0 :: rest) = path := by
  unfold cString
  induction path with
  | nil => simp
  | cons byte path induction =>
      rw [List.mem_cons, not_or] at noNul
      have here : (decide (byte ≠ 0)) = true :=
        decide_eq_true fun isNul => noNul.1 isNul.symm
      rw [List.cons_append, List.takeWhile_cons, if_pos here,
        induction noNul.2]

theorem Proper.atPointer {path : Path} (noNul : (0 : Byte) ∉ path)
    (short : path.length < maxPathLength) (rest : List Byte)
    (depth : Nat) :
    Proper (.atPointer (path ++ 0 :: rest) path.length depth) ∧
      (Directory.atPointer (path ++ 0 :: rest) path.length depth).path =
        path := by
  have text := cString_terminated noNul rest
  have front : (path ++ 0 :: rest).take path.length = path :=
    List.take_left
  refine ⟨⟨?_, ?_, ?_⟩, front⟩
  · exact text.trans front.symm
  · rw [Directory.atPointer, front]
    exact noNul
  · rw [Directory.atPointer, front]
    exact short

variable {world : World} {config : Config}

/-- A skipped entry aside, what an entry looks like. -/
theorem described_some {directory : Directory} {dirent : Dirent}
    {entry : Entry}
    (found : described world config directory dirent = some entry) :
    (dirent.hidden = true → config.includeHidden = true) ∧
      ∃ childPath first resolved,
        pathJoin maxPathLength directory.path dirent.name.bytes =
            some childPath ∧
          typeOf world directory dirent = some first ∧
          statOf world config directory dirent first = some resolved ∧
          entry = entryOf directory childPath resolved := by
  unfold described at found
  split at found
  · cases found
  · rename_i notHidden
    simp only [Option.bind_eq_bind, Option.bind_eq_some_iff] at found
    rcases found with
      ⟨childPath, joined, first, typed, resolved, statted, isEntry⟩
    refine ⟨?_, childPath, first, resolved, joined, typed, statted,
      (Option.some.inj isEntry).symm⟩
    intro hidden
    by_contra excluded
    exact notHidden (by simp [hidden, excluded])

/-- With a proper directory a joined path is the expected one. -/
theorem pathJoin_of_proper {directory : Directory}
    (proper : Proper directory) (name : EntryName) :
    pathJoin maxPathLength directory.path name.bytes =
      if (joined directory.path name.bytes).length < maxPathLength then
        some (joined directory.path name.bytes)
      else
        none := by
  have short := proper.short
  have nameShort := name.short
  rw [maxPathLength] at short
  exact pathJoin_eq (by omega) (by omega)

theorem noNul_joined {base : List Byte} (noNul : (0 : Byte) ∉ base)
    (name : EntryName) : (0 : Byte) ∉ joined base name.bytes := by
  unfold joined
  split
  · exact name.noNul
  · rw [List.mem_append, List.mem_cons]
    rintro (inBase | isSlash | inName)
    · exact noNul inBase
    · exact absurd isSlash (by decide)
    · exact name.noNul inName

theorem length_lt_joined (base : List Byte) (name : EntryName) :
    base.length < (joined base name.bytes).length := by
  have longer := length_joined base name.bytes
  have positive := List.length_pos_iff.mpr name.nonempty
  omega

/-- The path and the depth of an entry of a proper directory. -/
theorem described_path {directory : Directory} (proper : Proper directory)
    {dirent : Dirent} {entry : Entry}
    (found : described world config directory dirent = some entry) :
    entry.absolutePath = joined directory.path dirent.name.bytes ∧
      entry.absolutePathLength = entry.absolutePath.length ∧
      entry.absolutePath.length < maxPathLength ∧
      entry.depth = sizeAdd directory.depth 1 := by
  rcases described_some found with
    ⟨_, childPath, first, resolved, joins, _, _, rfl⟩
  rw [pathJoin_of_proper proper] at joins
  split at joins
  · rename_i fits
    cases joins
    exact ⟨rfl, rfl, fits, rfl⟩
  · cases joins

/-- The directory behind an entry of a proper directory is proper. -/
theorem Proper.directory {directory : Directory}
    (proper : Proper directory) {dirent : Dirent} {entry : Entry}
    (found : described world config directory dirent = some entry) :
    Proper entry.directory ∧
      entry.directory.path = joined directory.path dirent.name.bytes ∧
      entry.directory.depth = sizeAdd directory.depth 1 := by
  rcases described_path proper found with ⟨path, length, short, depth⟩
  have noNul : (0 : Byte) ∉ entry.absolutePath := by
    rw [path]
    exact noNul_joined proper.noNul dirent.name
  rcases Proper.atPointer noNul short [] entry.depth with ⟨isProper, samePath⟩
  rw [Entry.directory, length]
  exact ⟨isProper, samePath.trans path, depth⟩

theorem entered_some {directory child : Directory} {dirent : Dirent}
    (isEntered : entered world config directory dirent = some child) :
    ∃ entry, described world config directory dirent = some entry ∧
      entry.kind = .directory ∧ accepted world config entry = true ∧
      descends world config entry = true ∧ child = entry.directory := by
  unfold entered at isEntered
  rw [Option.bind_eq_some_iff] at isEntered
  rcases isEntered with ⟨entry, found, conditions⟩
  split at conditions
  · rename_i conditions'
    exact ⟨entry, found, conditions'.1, conditions'.2.1, conditions'.2.2,
      (Option.some.inj conditions).symm⟩
  · cases conditions

/-- A child is proper and its path is longer. -/
theorem Proper.child {directory child : Directory}
    (proper : Proper directory)
    (isChild : child ∈ children world config directory) :
    Proper child ∧ directory.path.length < child.path.length := by
  unfold children at isChild
  split at isChild
  · cases isChild
  · rcases List.mem_filterMap.mp isChild with ⟨dirent, _, isEntered⟩
    rcases entered_some isEntered with ⟨entry, found, _, _, _, rfl⟩
    rcases proper.directory found with ⟨isProper, path, _⟩
    refine ⟨isProper, ?_⟩
    rw [path]
    exact length_lt_joined directory.path dirent.name

/-- Enough levels for everything below a directory. -/
def Suffices (levels : Nat) (directory : Directory) : Prop :=
  maxPathLength ≤ directory.path.length + levels

theorem Suffices.child {directory child : Directory} {levels : Nat}
    (suffices' : Suffices (levels + 1) directory)
    (longer : directory.path.length < child.path.length) :
    Suffices levels child := by
  unfold Suffices at *
  omega

theorem not_suffices_zero {directory : Directory}
    (proper : Proper directory) : ¬ Suffices 0 directory := by
  intro enough
  have short := proper.short
  unfold Suffices at enough
  omega

/-! ## Sums over the tree -/

section Sum

variable {M : Type} [AddCommMonoid M]

/-- The weights of a directory and of everything entered below it. -/
def treeSum (world : World) (config : Config) (weight : Directory → M) :
    Nat → Directory → M
  | 0, _ => 0
  | levels + 1, directory =>
      weight directory +
        ((children world config directory).map
          (treeSum world config weight levels)).sum

/-- Levels beyond those that suffice add nothing. -/
theorem treeSum_stable (weight : Directory → M) {levels more : Nat}
    {directory : Directory} (proper : Proper directory)
    (enough : Suffices levels directory)
    (enoughToo : Suffices more directory) :
    treeSum world config weight levels directory =
      treeSum world config weight more directory := by
  induction levels generalizing directory more with
  | zero => exact absurd enough (not_suffices_zero proper)
  | succ levels induction =>
      cases more with
      | zero => exact absurd enoughToo (not_suffices_zero proper)
      | succ more =>
          rw [treeSum, treeSum]
          congr 2
          apply List.map_congr_left
          intro child isChild
          rcases proper.child isChild with ⟨properChild, longer⟩
          exact induction properChild (enough.child longer)
            (enoughToo.child longer)

theorem treeSum_step (weight : Directory → M) {directory : Directory}
    (proper : Proper directory) :
    treeSum world config weight maxPathLength directory =
      weight directory +
        ((children world config directory).map
          (treeSum world config weight maxPathLength)).sum := by
  have enough : Suffices maxPathLength directory := Nat.le_add_left _ _
  have enoughToo : Suffices (maxPathLength + 1) directory := by
    unfold Suffices
    omega
  rw [treeSum_stable weight proper enough enoughToo, treeSum]

end Sum

/-! ## The sequential walk as a sum -/

/-- In a static world the recursion returns, after calls that are all plain. -/
theorem returns_sequentialRecurse {levels : Nat}
    {directory : Directory} (proper : Proper directory)
    (enough : Suffices levels directory) :
    Program.Returns world.answers Plain
      (sequentialRecurse config levels directory) () := by
  induction levels generalizing directory with
  | zero => exact absurd enough (not_suffices_zero proper)
  | succ levels induction =>
      refine judges_sequentialBody
        (Program.Returns.judgement fun _ => id) directory ?_
      intro child isChild
      rcases proper.child isChild with ⟨properChild, longer⟩
      exact induction properChild (enough.child longer)

theorem total_sequentialRecurse {M : Type} [AddCommMonoid M]
    (toll : Op → M) {levels : Nat} {directory : Directory}
    (proper : Proper directory)
    (enough : Suffices levels directory) :
    (sequentialRecurse config levels directory).total world.answers toll =
      treeSum world config
        (fun directory =>
          (sequentialBody config passOver directory).total world.answers
            toll)
        levels directory := by
  induction levels generalizing directory with
  | zero => exact absurd enough (not_suffices_zero proper)
  | succ levels induction =>
      rw [sequentialRecurse, treeSum,
        total_sequentialBody toll directory]
      · congr 2
        apply List.map_congr_left
        intro child isChild
        rcases proper.child isChild with ⟨properChild, longer⟩
        exact induction properChild (enough.child longer)
      · intro child isChild
        rcases proper.child isChild with ⟨properChild, longer⟩
        exact (returns_sequentialRecurse properChild
          (enough.child longer)).outcome

end BcIo.Walk
