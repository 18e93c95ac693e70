import BcIo.Walk.Comparison

/-!
# Records without a type

A file system need not fill in the type of a directory record.  The walk then
takes the type from a status that never follows a link and that leaves the
permissions of the entry empty.  Two walks are compared here, of which the
second finds some of the types withheld.
-/

namespace BcIo.Walk

open BcIo.File
open BcIo.Foundation.Aggregate
open BcIo.Foundation.MachineWord
open BcIo.Foundation.Interaction
open BcIo.Foundation.WorkerPool

/-- The record with `DT_UNKNOWN` for its type. -/
def Dirent.untyped (dirent : Dirent) : Dirent :=
  { dirent with dType := dtUnknown }

/-- The record as a directory lists it that withholds some types. -/
def Dirent.reported (withheld : EntryName → Bool) (dirent : Dirent) :
    Dirent :=
  if withheld dirent.name then dirent.untyped else dirent

theorem Dirent.reported_name (withheld : EntryName → Bool)
    (dirent : Dirent) : (dirent.reported withheld).name = dirent.name := by
  unfold Dirent.reported
  split <;> rfl

/-- The same file system, with the types of any set of records withheld. -/
def World.withholding (world : World)
    (withheld : Path → EntryName → Bool) : World :=
  { world with
    listing := fun path =>
      { (world.listing path) with
        entries :=
          (world.listing path).entries.map
            (Dirent.reported (withheld path)) } }

/--
The types in the records are those of the nodes, and the status of anything but
a link does not depend on whether links are followed.
-/
structure Typed (world : World) : Prop where
  types : ∀ path, ∀ dirent ∈ (world.listing path).entries,
    dirent.dType ≠ dtUnknown →
    ∀ stat, world.stat path dirent.name true = .ok stat →
      stat.entryType = dtypeToEntryType dirent.dType
  links : ∀ path, ∀ dirent ∈ (world.listing path).entries,
    (∀ stat, world.stat path dirent.name true = .ok stat →
      stat.entryType ≠ .symlink) →
    world.stat path dirent.name false = world.stat path dirent.name true

/-- The entry as the callbacks see it when its type was withheld. -/
def Entry.withoutMode (entry : Entry) : Entry :=
  { entry with permissionMask := 0 }

variable {world : World} {config : Config}
  {withheld : Path → EntryName → Bool}

/-! ## One record -/

/-- The record is shown and its path fits. -/
def Admitted (config : Config) (directory : Directory) (dirent : Dirent) :
    Prop :=
  (dirent.hidden = true → config.includeHidden = true) ∧
    (joined directory.path dirent.name.bytes).length ≤ 4095

/-- The entry behind a record that reports its type. -/
def typedEntry (config : Config) (directory : Directory) (dirent : Dirent)
    (stat : Stat) : Entry :=
  entryAt config (joined directory.path dirent.name.bytes)
    (directory.depth + 1) dirent.dType stat

/--
A record for whose entry it does not matter whether its type is reported: it is
no link that the walk follows to an accepted file or directory, and the
callbacks answer the same whether or not the permissions are filled in.
-/
def IndifferentAt (world : World) (config : Config) (directory : Directory)
    (dirent : Dirent) : Prop :=
  Admitted config directory dirent → ∀ stat,
    world.stat directory.text dirent.name (!config.followSymlinks) =
      .ok stat →
    let entry := typedEntry config directory dirent stat
    (dirent.dType = dtLnk → accepted world config entry = true →
        entry.kind = .symlink) ∧
      (dirent.dType = dtReg ∨ dirent.dType = dtDir →
        accepted world config entry =
          accepted world config entry.withoutMode) ∧
      (dirent.dType = dtDir → accepted world config entry = true →
        descends world config entry =
          descends world config entry.withoutMode)

/-- A record leads to the same whether or not its type is reported. -/
def SameAt (world : World) (config : Config) (directory : Directory)
    (first second : Dirent) : Prop :=
  (visitedAt world config directory first).map Entry.shape =
      (visitedAt world config directory second).map Entry.shape ∧
    entered world config directory first =
      entered world config directory second

/-- Whether a walk descends depends on what it visits. -/
theorem entered_eq_bind (directory : Directory) (dirent : Dirent) :
    entered world config directory dirent =
      (visitedAt world config directory dirent).bind fun entry =>
        if entry.kind = .directory ∧ descends world config entry = true then
          some entry.directory
        else
          none := by
  apply Option.ext
  intro child
  rw [entered_iff_visitedAt, Option.bind_eq_some_iff]
  constructor
  · rintro ⟨entry, visited, kind, wanted, rfl⟩
    exact ⟨entry, visited, if_pos ⟨kind, wanted⟩⟩
  · rintro ⟨entry, visited, isChild⟩
    split at isChild
    · rename_i conditions
      exact ⟨entry, visited, conditions.1, conditions.2,
        (Option.some.inj isChild).symm⟩
    · cases isChild

/-- Files and directories are what the types of records say. -/
theorem kind_of_type (dType : Byte) :
    (entryKindFromType (dtypeToEntryType dType) = .file ∨
        entryKindFromType (dtypeToEntryType dType) = .directory) ↔
      dType = dtReg ∨ dType = dtDir := by
  unfold dtypeToEntryType
  split
  · rename_i isFile
    simp [isFile, entryKindFromType]
  · rename_i notFile
    split
    · rename_i isDirectory
      simp [isDirectory, entryKindFromType]
    · rename_i notDirectory
      split <;> simp [notFile, notDirectory, entryKindFromType]

/-- The kind of an entry whose type needs no other status. -/
theorem typedEntry_kind {directory : Directory} {dirent : Dirent}
    (isNode : dirent.dType = dtReg ∨ dirent.dType = dtDir) (stat : Stat) :
    (typedEntry config directory dirent stat).kind =
      entryKindFromType (dtypeToEntryType dirent.dType) := by
  rcases isNode with isFile | isDirectory
  · simp [typedEntry, entryAt, classified, isFile, dtypeToEntryType,
      entryKindFromType]
  · have different : dtDir ≠ dtReg := by decide
    simp [typedEntry, entryAt, classified, isDirectory, different,
      dtypeToEntryType, entryKindFromType]

theorem typedEntry_node {directory : Directory} {dirent : Dirent}
    (isNode : dirent.dType = dtReg ∨ dirent.dType = dtDir) (stat : Stat) :
    (typedEntry config directory dirent stat).kind = .file ∨
      (typedEntry config directory dirent stat).kind = .directory := by
  rw [typedEntry_kind isNode]
  exact (kind_of_type _).mpr isNode

theorem typedEntry_directory {directory : Directory} {dirent : Dirent}
    (isNode : dirent.dType = dtReg ∨ dirent.dType = dtDir) (stat : Stat) :
    (typedEntry config directory dirent stat).kind = .directory ↔
      dirent.dType = dtDir := by
  rw [typedEntry_kind isNode]
  rcases isNode with isFile | isDirectory
  · rw [isFile]
    decide
  · rw [isDirectory]
    decide

/-- What is no file or directory by its type can be one as a link only. -/
theorem typedEntry_other (config : Config) (directory : Directory)
    {dirent : Dirent}
    (noNode : ¬ (dirent.dType = dtReg ∨ dirent.dType = dtDir))
    (stat : Stat) :
    ¬ ((typedEntry config directory dirent stat).kind = .file ∨
        (typedEntry config directory dirent stat).kind = .directory) ↔
      (dirent.dType = dtLnk →
        (typedEntry config directory dirent stat).kind = .symlink) := by
  rw [not_or] at noNode
  change ¬ (classified config dirent.dType stat = .file ∨
      classified config dirent.dType stat = .directory) ↔
    (dirent.dType = dtLnk →
      classified config dirent.dType stat = .symlink)
  unfold classified
  rw [if_neg noNode.1, if_neg noNode.2]
  by_cases isLink : dirent.dType = dtLnk
  · rw [if_pos isLink]
    split
    · split
      · simp [isLink]
      · split <;> simp [isLink]
    · simp
  · simp [isLink]

section Record

variable {directory : Directory} {dirent : Dirent}

/-- What is not shown or does not fit is skipped. -/
theorem described_of_not_admitted (proper : Proper directory)
    (excluded : ¬ Admitted config directory dirent) :
    described world config directory dirent = none := by
  cases found : described world config directory dirent with
  | none => rfl
  | some entry =>
      rcases described_some found with ⟨shown, _⟩
      rcases described_path proper found with ⟨path, _, short, _⟩
      rw [path] at short
      exact absurd ⟨shown, Nat.le_of_lt_succ short⟩ excluded

theorem described_of_admitted (proper : Proper directory)
    (admitted : Admitted config directory dirent) :
    described world config directory dirent =
      ((typeOf world directory dirent).bind
          (statOf world config directory dirent)).map
        (entryOf directory (joined directory.path dirent.name.bytes)) := by
  have joins :
      pathJoin maxPathLength directory.path dirent.name.bytes =
        some (joined directory.path dirent.name.bytes) := by
    rw [pathJoin_of_proper proper, if_pos]
    exact Nat.lt_succ_of_le admitted.2
  unfold described
  rw [if_neg, joins]
  · cases typeOf world directory dirent with
    | none => rfl
    | some first => simp [Option.map_eq_bind]
  · intro hidden
    rw [Bool.and_eq_true, Bool.not_eq_true'] at hidden
    have shown := admitted.1 hidden.1
    rw [hidden.2] at shown
    cases shown

variable (sound : Sound directory)
  (listed : dirent ∈ (world.listing directory.text).entries)
  (reported : dirent.dType ≠ dtUnknown)

include sound in
/-- The entry of a record without a type, from its own status. -/
theorem described_untyped (admitted : Admitted config directory dirent) :
    described world config directory dirent.untyped =
      match world.stat directory.text dirent.name true with
      | .error _ => none
      | .ok stat =>
          some { (typedEntry config directory dirent stat).withoutMode with
            kind := entryKindFromType stat.entryType } := by
  have deeper : sizeAdd directory.depth 1 = directory.depth + 1 := by
    have limit : wordLimit = 2 ^ 64 := rfl
    have shallow := sound.depth_lt
    exact wordAdd_of_lt (by omega)
  have admittedToo : Admitted config directory dirent.untyped := admitted
  rw [described_of_admitted sound.proper admittedToo]
  simp only [typeOf, Dirent.untyped, ne_eq, not_true_eq_false, if_false]
  cases world.stat directory.text dirent.name true with
  | error errno => rfl
  | ok stat =>
      simp only [Option.bind_some, statOf, needsStat, Bool.not_true,
        Bool.false_and, Bool.false_eq_true, if_false, Option.map_some]
      rw [entryOf, deeper]
      rfl

include listed reported

/-- The status of a link aside, both ways to the type use the same status. -/
theorem stat_of_typed (typed : Typed world) {stat : Stat}
    (notLink : dtypeToEntryType dirent.dType ≠ .symlink) :
    world.stat directory.text dirent.name true = .ok stat ↔
      world.stat directory.text dirent.name (!config.followSymlinks) =
        .ok stat := by
  have same :
      world.stat directory.text dirent.name false =
        world.stat directory.text dirent.name true := by
    apply typed.links _ dirent listed
    intro stat status
    rw [typed.types _ dirent listed reported stat status]
    exact notLink
  cases config.followSymlinks with
  | false => exact Iff.rfl
  | true => rw [Bool.not_true, same]

include sound

theorem visitedAt_typed
    (openable :
      world.openError directory.text (!config.followSymlinks) = none)
    (admitted : Admitted config directory dirent) (entry : Entry) :
    visitedAt world config directory dirent = some entry ↔
      ∃ stat,
        world.stat directory.text dirent.name (!config.followSymlinks) =
            .ok stat ∧
          entry = typedEntry config directory dirent stat ∧
          accepted world config entry = true ∧
          (entry.kind = .file ∨ entry.kind = .directory) := by
  rw [visitedAt_iff_found sound.proper sound.depth_lt reported openable
    listed]
  constructor
  · rintro ⟨found, kind, _⟩
    rcases found.status with ⟨stat, status, isEntry⟩
    rw [← sound.proper.text] at status
    exact ⟨stat, status, isEntry, found.passes, kind⟩
  · rintro ⟨stat, status, isEntry, passed, kind⟩
    rw [sound.proper.text] at status openable listed
    exact ⟨⟨openable, listed, admitted.1, ⟨stat, status, isEntry⟩, passed⟩,
      kind, admitted.2⟩

theorem visitedAt_untyped (typed : Typed world)
    (admitted : Admitted config directory dirent) (entry : Entry) :
    visitedAt world config directory dirent.untyped = some entry ↔
      (dirent.dType = dtReg ∨ dirent.dType = dtDir) ∧ ∃ stat,
        world.stat directory.text dirent.name (!config.followSymlinks) =
            .ok stat ∧
          entry = (typedEntry config directory dirent stat).withoutMode ∧
          accepted world config entry = true := by
  have notLink :
      dirent.dType = dtReg ∨ dirent.dType = dtDir →
        dtypeToEntryType dirent.dType ≠ .symlink := by
    rintro (isFile | isDirectory)
    · rw [isFile]
      decide
    · rw [isDirectory]
      decide
  rw [visitedAt, described_untyped sound admitted, Option.bind_eq_some_iff]
  constructor
  · rintro ⟨other, isOther, conditions⟩
    cases status : world.stat directory.text dirent.name true with
    | error errno =>
        rw [status] at isOther
        cases isOther
    | ok stat =>
        rw [status] at isOther
        cases isOther
        split at conditions
        · rename_i passed
          cases conditions
          have type := typed.types _ dirent listed reported stat status
          rcases passed with ⟨passed, kind⟩
          rw [type] at passed kind
          have isNode := (kind_of_type dirent.dType).mp kind
          rw [stat_of_typed listed reported typed (notLink isNode)] at status
          refine ⟨isNode, stat, status, ?_, ?_⟩
          · rw [type, ← typedEntry_kind isNode stat]
            rfl
          · rw [type]
            exact passed
        · cases conditions
  · rintro ⟨isNode, stat, status, rfl, passed⟩
    rw [← stat_of_typed listed reported typed (notLink isNode)] at status
    have type := typed.types _ dirent listed reported stat status
    have same :
        { (typedEntry config directory dirent stat).withoutMode with
          kind := entryKindFromType stat.entryType } =
          (typedEntry config directory dirent stat).withoutMode := by
      rw [type, ← typedEntry_kind isNode stat]
      rfl
    refine ⟨(typedEntry config directory dirent stat).withoutMode, ?_, ?_⟩
    · rw [status]
      exact congrArg some same
    · rw [if_pos]
      refine ⟨passed, ?_⟩
      change (typedEntry config directory dirent stat).kind = _ ∨
        (typedEntry config directory dirent stat).kind = _
      rw [typedEntry_kind isNode]
      exact (kind_of_type _).mpr isNode

/-- What both ways lead to when the record has a status. -/
theorem sameAt_untyped_of_status (typed : Typed world)
    (openable :
      world.openError directory.text (!config.followSymlinks) = none)
    (admitted : Admitted config directory dirent) {stat : Stat}
    (status :
      world.stat directory.text dirent.name (!config.followSymlinks) =
        .ok stat) :
    visitedAt world config directory dirent =
        (if accepted world config
              (typedEntry config directory dirent stat) = true ∧
            ((typedEntry config directory dirent stat).kind = .file ∨
              (typedEntry config directory dirent stat).kind =
                .directory) then
          some (typedEntry config directory dirent stat)
        else none) ∧
      visitedAt world config directory dirent.untyped =
        (if accepted world config
              (typedEntry config directory dirent stat).withoutMode =
                true ∧
            (dirent.dType = dtReg ∨ dirent.dType = dtDir) then
          some (typedEntry config directory dirent stat).withoutMode
        else none) := by
  constructor
  · apply Option.ext
    intro entry
    rw [visitedAt_typed sound listed reported openable admitted,
      Option.ite_none_right_eq_some]
    constructor
    · rintro ⟨other, statusToo, rfl, passed, kind⟩
      rw [status] at statusToo
      cases statusToo
      exact ⟨⟨passed, kind⟩, rfl⟩
    · rintro ⟨⟨passed, kind⟩, isEntry⟩
      cases isEntry
      exact ⟨stat, status, rfl, passed, kind⟩
  · apply Option.ext
    intro entry
    rw [visitedAt_untyped sound listed reported typed admitted,
      Option.ite_none_right_eq_some]
    constructor
    · rintro ⟨isNode, other, statusToo, rfl, passed⟩
      rw [status] at statusToo
      cases statusToo
      exact ⟨⟨passed, isNode⟩, rfl⟩
    · rintro ⟨⟨passed, isNode⟩, isEntry⟩
      cases isEntry
      exact ⟨isNode, stat, status, rfl, passed⟩

omit sound listed reported in
/-- Where the record leads to nothing either way. -/
theorem sameAt_of_none {first second : Dirent}
    (nothing : visitedAt world config directory first = none)
    (nothingToo : visitedAt world config directory second = none) :
    SameAt world config directory first second := by
  rw [SameAt, entered_eq_bind, entered_eq_bind, nothing, nothingToo]
  exact ⟨rfl, rfl⟩

omit sound listed reported in
theorem sameAt_none_iff {first second : Dirent}
    (nothing : visitedAt world config directory second = none) :
    SameAt world config directory first second ↔
      visitedAt world config directory first = none := by
  constructor
  · intro same
    have shapes := same.1
    rw [nothing] at shapes
    exact Option.map_eq_none_iff.mp shapes
  · intro nothingToo
    exact sameAt_of_none nothingToo nothing

omit sound listed reported in
/-- What the conditions on an entry compare, when the entry may be visited. -/
theorem sameAt_of_node {first second : Dirent} {entry : Entry}
    (kind : entry.kind = .file ∨ entry.kind = .directory)
    (visited : visitedAt world config directory first =
      if accepted world config entry = true then some entry else none)
    (visitedToo : visitedAt world config directory second =
      if accepted world config entry.withoutMode = true then
        some entry.withoutMode
      else none) :
    SameAt world config directory first second ↔
      accepted world config entry =
          accepted world config entry.withoutMode ∧
        (entry.kind = .directory → accepted world config entry = true →
          descends world config entry =
            descends world config entry.withoutMode) := by
  have sameKind : entry.withoutMode.kind = entry.kind := rfl
  have sameShape : entry.withoutMode.shape = entry.shape := rfl
  have sameDirectory : entry.withoutMode.directory = entry.directory := rfl
  rw [SameAt, entered_eq_bind, entered_eq_bind, visited, visitedToo]
  cases accepted world config entry with
  | false =>
      cases accepted world config entry.withoutMode with
      | false => simp
      | true => simp
  | true =>
      cases accepted world config entry.withoutMode with
      | false => simp
      | true =>
          simp only [if_true, Option.map_some, Option.bind_some, sameKind,
            sameShape, sameDirectory, true_and, forall_const]
          rcases kind with isFile | isDirectory
          · simp [isFile]
          · simp only [isDirectory, true_and, forall_const]
            cases descends world config entry with
            | false =>
                cases descends world config entry.withoutMode with
                | false => simp
                | true => simp
            | true =>
                cases descends world config entry.withoutMode with
                | false => simp
                | true => simp

omit sound listed reported in
/-- With a status, what makes a record indifferent is about one entry. -/
theorem indifferentAt_of_status
    (admitted : Admitted config directory dirent) {stat : Stat}
    (status :
      world.stat directory.text dirent.name (!config.followSymlinks) =
        .ok stat) :
    IndifferentAt world config directory dirent ↔
      let entry := typedEntry config directory dirent stat
      (dirent.dType = dtLnk → accepted world config entry = true →
          entry.kind = .symlink) ∧
        (dirent.dType = dtReg ∨ dirent.dType = dtDir →
          accepted world config entry =
            accepted world config entry.withoutMode) ∧
        (dirent.dType = dtDir → accepted world config entry = true →
          descends world config entry =
            descends world config entry.withoutMode) := by
  constructor
  · intro indifferent
    exact indifferent admitted stat status
  · intro conditions _ other statusToo
    rw [status] at statusToo
    cases statusToo
    exact conditions

/-- A file or a directory: the callbacks must not look at the permissions. -/
theorem sameAt_untyped_of_node (typed : Typed world)
    (openable :
      world.openError directory.text (!config.followSymlinks) = none)
    (admitted : Admitted config directory dirent) {stat : Stat}
    (status :
      world.stat directory.text dirent.name (!config.followSymlinks) =
        .ok stat)
    (isNode : dirent.dType = dtReg ∨ dirent.dType = dtDir) :
    SameAt world config directory dirent dirent.untyped ↔
      IndifferentAt world config directory dirent := by
  rcases sameAt_untyped_of_status sound listed reported typed openable
      admitted status with ⟨visited, visitedToo⟩
  have kind :
      (typedEntry config directory dirent stat).kind = .file ∨
        (typedEntry config directory dirent stat).kind = .directory :=
    typedEntry_node isNode stat
  have notLink : dirent.dType ≠ dtLnk := by
    intro isLink
    rw [isLink] at isNode
    revert isNode
    decide
  rw [indifferentAt_of_status admitted status,
    sameAt_of_node kind
      (visited.trans (if_congr (and_iff_left kind) rfl rfl))
      (visitedToo.trans (if_congr (and_iff_left isNode) rfl rfl)),
    typedEntry_directory isNode stat]
  constructor
  · rintro ⟨same, wanted⟩
    exact ⟨fun isLink => absurd isLink notLink, fun _ => same, wanted⟩
  · rintro ⟨_, same, wanted⟩
    exact ⟨same isNode, wanted⟩

/-- Anything else: without its type it is not visited. -/
theorem sameAt_untyped_of_other (typed : Typed world)
    (openable :
      world.openError directory.text (!config.followSymlinks) = none)
    (admitted : Admitted config directory dirent) {stat : Stat}
    (status :
      world.stat directory.text dirent.name (!config.followSymlinks) =
        .ok stat)
    (noNode : ¬ (dirent.dType = dtReg ∨ dirent.dType = dtDir)) :
    SameAt world config directory dirent dirent.untyped ↔
      IndifferentAt world config directory dirent := by
  rcases sameAt_untyped_of_status sound listed reported typed openable
      admitted status with ⟨visited, visitedToo⟩
  have nothingToo :
      visitedAt world config directory dirent.untyped = none := by
    rw [visitedToo, if_neg]
    exact fun conditions => noNode conditions.2
  have others := typedEntry_other config directory noNode stat
  rw [indifferentAt_of_status admitted status, sameAt_none_iff nothingToo,
    visited]
  constructor
  · intro nothing
    refine ⟨?_, fun impossible => absurd impossible noNode, ?_⟩
    · intro isLink passed
      refine others.mp ?_ isLink
      intro kind
      rw [if_pos ⟨passed, kind⟩] at nothing
      cases nothing
    · intro isDirectory
      exact absurd (Or.inr isDirectory) noNode
  · rintro ⟨isSymlink, _⟩
    rw [if_neg]
    rintro ⟨passed, kind⟩
    exact others.mpr (fun isLink => isSymlink isLink passed) kind

/-- Without a status a record leads to nothing either way. -/
theorem sameAt_untyped_of_error (typed : Typed world)
    (openable :
      world.openError directory.text (!config.followSymlinks) = none)
    (admitted : Admitted config directory dirent) {errno : Errno}
    (status :
      world.stat directory.text dirent.name (!config.followSymlinks) =
        .error errno) :
    SameAt world config directory dirent dirent.untyped := by
  apply sameAt_of_none
  · rw [Option.eq_none_iff_forall_ne_some]
    intro entry visited
    rcases (visitedAt_typed sound listed reported openable admitted
        entry).mp visited with ⟨stat, statusToo, _⟩
    rw [status] at statusToo
    cases statusToo
  · rw [Option.eq_none_iff_forall_ne_some]
    intro entry visited
    rcases (visitedAt_untyped sound listed reported typed admitted
        entry).mp visited with ⟨_, stat, statusToo, _⟩
    rw [status] at statusToo
    cases statusToo

omit listed reported in
theorem sameAt_of_not_admitted
    (excluded : ¬ Admitted config directory dirent) :
    SameAt world config directory dirent dirent.untyped := by
  have excludedToo : ¬ Admitted config directory dirent.untyped := excluded
  apply sameAt_of_none
  · rw [visitedAt, described_of_not_admitted sound.proper excluded]
    rfl
  · rw [visitedAt, described_of_not_admitted sound.proper excludedToo]
    rfl

/-- A withheld type makes no difference exactly for an indifferent record. -/
theorem sameAt_untyped_iff (typed : Typed world)
    (openable :
      world.openError directory.text (!config.followSymlinks) = none) :
    SameAt world config directory dirent dirent.untyped ↔
      IndifferentAt world config directory dirent := by
  by_cases admitted : Admitted config directory dirent
  · cases status :
        world.stat directory.text dirent.name (!config.followSymlinks) with
    | error errno =>
        refine iff_of_true
          (sameAt_untyped_of_error sound listed reported typed openable
            admitted status) ?_
        intro _ stat statusToo
        rw [status] at statusToo
        cases statusToo
    | ok stat =>
        by_cases isNode : dirent.dType = dtReg ∨ dirent.dType = dtDir
        · exact sameAt_untyped_of_node sound listed reported typed openable
            admitted status isNode
        · exact sameAt_untyped_of_other sound listed reported typed
            openable admitted status isNode
  · exact iff_of_true (sameAt_of_not_admitted sound admitted)
      fun isAdmitted => absurd isAdmitted admitted

end Record

/-! ## One directory -/

theorem mem_withholding {path : Path} {dirent : Dirent} :
    dirent ∈ ((world.withholding withheld).listing path).entries ↔
      ∃ original ∈ (world.listing path).entries,
        original.reported (withheld path) = dirent :=
  List.mem_map

theorem listed_unique (once : ListsOnce world) {path : Path}
    {first second : Dirent}
    (listed : first ∈ (world.listing path).entries)
    (listedToo : second ∈ (world.listing path).entries)
    (sameName : first.name = second.name) : first = second :=
  List.inj_on_of_nodup_map (once path) listed listedToo sameName

/-- The withheld types of a directory make no difference. -/
def Indifferent (world : World) (config : Config)
    (withheld : Path → EntryName → Bool) (directory : Directory) : Prop :=
  world.openError directory.text (!config.followSymlinks) = none →
    ∀ dirent ∈ (world.listing directory.text).entries,
      withheld directory.text dirent.name = true →
      dirent.dType ≠ dtUnknown →
      IndifferentAt world config directory dirent

/-- Its records lead to the same as they do with their types. -/
def Agreeing (world : World) (config : Config)
    (withheld : Path → EntryName → Bool) (directory : Directory) : Prop :=
  world.openError directory.text (!config.followSymlinks) = none →
    ∀ dirent ∈ (world.listing directory.text).entries,
      SameAt world config directory dirent
        (dirent.reported (withheld directory.text))

theorem agreeing_iff_indifferent (typed : Typed world)
    {directory : Directory} (sound : Sound directory) :
    Agreeing world config withheld directory ↔
      Indifferent world config withheld directory := by
  constructor
  · intro agreeing openable dirent listed isWithheld reported
    have same := agreeing openable dirent listed
    rw [Dirent.reported, if_pos isWithheld] at same
    exact (sameAt_untyped_iff sound listed reported typed openable).mp same
  · intro indifferent openable dirent listed
    rw [Dirent.reported]
    split
    · rename_i isWithheld
      by_cases reported : dirent.dType = dtUnknown
      · have same : dirent.untyped = dirent := by
          rw [Dirent.untyped, ← reported]
        rw [same]
        exact ⟨rfl, rfl⟩
      · exact (sameAt_untyped_iff sound listed reported typed openable).mpr
          (indifferent openable dirent listed isWithheld reported)
    · exact ⟨rfl, rfl⟩

/-- Records that lead to the same have the same name. -/
theorem name_of_shape {directory : Directory} (sound : Sound directory)
    {first second : Dirent} {seen : Path × EntryKind}
    (found : (visitedAt world config directory first).map Entry.shape =
      some seen)
    (foundToo : (visitedAt world config directory second).map Entry.shape =
      some seen) : first.name = second.name := by
  rcases Option.map_eq_some_iff.mp found with ⟨entry, visited, rfl⟩
  rcases Option.map_eq_some_iff.mp foundToo with ⟨other, visitedToo, same⟩
  have samePath : other.absolutePath = entry.absolutePath :=
    (Prod.mk.inj same).1
  rw [visitedAt_path sound.proper visited,
    visitedAt_path sound.proper visitedToo] at samePath
  exact (joined_injective sound.rooted sound.rooted samePath).2.symm

theorem name_of_entered {directory child : Directory}
    (sound : Sound directory) {first second : Dirent}
    (isEntered : entered world config directory first = some child)
    (isEnteredToo : entered world config directory second = some child) :
    first.name = second.name := by
  rcases entered_iff_visitedAt.mp isEntered with ⟨entry, visited, _, _, same⟩
  rcases entered_iff_visitedAt.mp isEnteredToo with
    ⟨other, visitedToo, _, _, sameToo⟩
  have path := (sound.directory visited).2.1
  have pathToo := (sound.directory visitedToo).2.1
  rw [← same] at path
  rw [← sameToo, path] at pathToo
  exact (joined_injective sound.rooted sound.rooted pathToo).2

/--
Where names are listed once and what a record leads to shows its name, the
records lead to the same together only if each of them does.
-/
theorem picked_alike {β : Type} (withheld : Path → EntryName → Bool)
    (once : ListsOnce world) (path : Path) (pick : Dirent → Option β)
    (named : ∀ first second value, pick first = some value →
      pick second = some value → first.name = second.name) :
    (∀ value,
        (∃ dirent ∈ (world.listing path).entries,
            pick dirent = some value) ↔
          ∃ dirent ∈ ((world.withholding withheld).listing path).entries,
            pick dirent = some value) ↔
      ∀ dirent ∈ (world.listing path).entries,
        pick dirent = pick (dirent.reported (withheld path)) := by
  constructor
  · intro same dirent listed
    apply Option.ext
    intro value
    constructor
    · intro picked
      rcases (same value).mp ⟨dirent, listed, picked⟩ with
        ⟨other, listedToo, pickedToo⟩
      rcases mem_withholding.mp listedToo with ⟨original, isListed, rfl⟩
      have names := named _ _ value picked pickedToo
      rw [Dirent.reported_name] at names
      rw [listed_unique once listed isListed names]
      exact pickedToo
    · intro picked
      have withheldToo :
          dirent.reported (withheld path) ∈
            ((world.withholding withheld).listing path).entries :=
        mem_withholding.mpr ⟨dirent, listed, rfl⟩
      rcases (same value).mpr ⟨_, withheldToo, picked⟩ with
        ⟨other, listedToo, pickedToo⟩
      have names := named _ _ value pickedToo picked
      rw [Dirent.reported_name] at names
      rw [← listed_unique once listedToo listed names]
      exact pickedToo
  · intro each value
    constructor
    · rintro ⟨dirent, listed, picked⟩
      rw [each dirent listed] at picked
      exact ⟨_, mem_withholding.mpr ⟨dirent, listed, rfl⟩, picked⟩
    · rintro ⟨other, listed, picked⟩
      rcases mem_withholding.mp listed with ⟨dirent, isListed, rfl⟩
      rw [← each dirent isListed] at picked
      exact ⟨dirent, isListed, picked⟩

/-- What is compared in a directory depends on its withheld records alone. -/
theorem alike_iff_agreeing (once : ListsOnce world) {directory : Directory}
    (sound : Sound directory) :
    Alike world (world.withholding withheld) config directory ↔
      Agreeing world config withheld directory := by
  have shapes :=
    picked_alike withheld once directory.text
      (fun dirent =>
        (visitedAt world config directory dirent).map Entry.shape)
      fun first second value => name_of_shape sound
  have descents :=
    picked_alike withheld once directory.text
      (entered world config directory)
      fun first second value => name_of_entered sound
  constructor
  · rintro ⟨visits, inside⟩ openable
    have openableToo :
        (world.withholding withheld).openError directory.text
          (!config.followSymlinks) = none :=
      openable
    intro dirent listed
    constructor
    · refine shapes.mp ?_ dirent listed
      intro seen
      have same := visits seen
      rw [mem_shapes, mem_shapes, and_iff_right openable,
        and_iff_right openableToo] at same
      exact same
    · refine descents.mp ?_ dirent listed
      intro child
      have same := inside child
      rw [mem_children_iff, mem_children_iff, and_iff_right openable,
        and_iff_right openableToo] at same
      exact same
  · intro agreeing
    constructor
    · intro seen
      rw [mem_shapes, mem_shapes]
      refine and_congr_right ?_
      intro openable
      exact shapes.mpr (fun dirent listed =>
        (agreeing openable dirent listed).1) seen
    · intro child
      rw [mem_children_iff, mem_children_iff]
      refine and_congr_right ?_
      intro openable
      exact descents.mpr (fun dirent listed =>
        (agreeing openable dirent listed).2) child

/-! ## The walks -/

/--
Withheld types change neither what a sequential walk visits, as which kind, nor
into which directories it descends, exactly if they make no difference in each
directory that the walk comes to; and the same holds of the loop of a worker
over one directory.  The sequential walk is one of a root that is terminated
where its length says.
-/
theorem withheld_types_iff {memory : List Byte}
    (usable : usableRoot config = some memory)
    (typed : Typed world) (once : ListsOnce world)
    (withheld : Path → EntryName → Bool) (capacity : Nat)
    (choice : Unit × QueueChoice) :
    (Terminated memory config.rootLength →
      ∃ typedWalk untypedWalk,
        runAlone (machine world.environment capacity) choice
            (walkSequential config) (State.initial ()) =
          some (true, typedWalk) ∧
        runAlone (machine (world.withholding withheld).environment capacity)
            choice (walkSequential config) (State.initial ()) =
          some (true, untypedWalk) ∧
        (SameElements (typedWalk.visits.map Entry.shape)
              (untypedWalk.visits.map Entry.shape) ∧
            SameElements typedWalk.opened untypedWalk.opened ↔
          ∀ directory,
            Below world config (sequentialRoot config memory) directory →
              Indifferent world config withheld directory)) ∧
      ∀ process directory, Sound directory →
        (SameElements
              (((processed world config process directory).filterMap
                visitOf).map Entry.shape)
              (((processed (world.withholding withheld) config process
                directory).filterMap visitOf).map Entry.shape) ∧
            SameElements
              ((processed world config process directory).filterMap
                pushOf)
              ((processed (world.withholding withheld) config process
                directory).filterMap pushOf) ↔
          Indifferent world config withheld directory) := by
  constructor
  · intro terminated
    rcases @walkSequential_ends world config memory usable terminated
        capacity choice with ⟨typedWalk, ran, _, history⟩
    rcases @walkSequential_ends (world.withholding withheld) config memory
        usable terminated capacity choice with
      ⟨untypedWalk, ranToo, _, historyToo⟩
    rcases sound_sequentialRoot usable terminated with ⟨sound, _⟩
    refine ⟨typedWalk, untypedWalk, ran, ranToo, ?_⟩
    simp only [SameElements, mem_visits_sequential usable terminated history,
      mem_visits_sequential usable terminated historyToo,
      mem_opened_sequential usable terminated history,
      mem_opened_sequential usable terminated historyToo]
    rw [same_below_iff sound]
    refine forall₂_congr ?_
    intro directory below
    have soundToo := (Below.placed sound below).sound
    rw [alike_iff_agreeing once soundToo,
      agreeing_iff_indifferent typed soundToo]
  · intro process directory sound
    rcases usableRoot_some usable with ⟨_, _, _, hasVisit, _⟩
    rw [← agreeing_iff_indifferent typed sound,
      ← alike_iff_agreeing once sound]
    simp only [SameElements, mem_visits_processed hasVisit,
      mem_pushes_processed]
    exact ⟨fun ⟨visits, inside⟩ => ⟨visits, inside⟩,
      fun alike => ⟨alike.visits, alike.children⟩⟩

theorem listed_nestedWorld {path : Path} {dirent : Dirent}
    (listed : dirent ∈ (nestedWorld.listing path).entries) :
    path = [114] ∧ dirent = nestedDirectory ∨
      path = [114, 47, 100] ∧ dirent = nestedFile := by
  unfold nestedWorld at listed
  dsimp only at listed
  split at listed
  · rename_i isRoot
    exact Or.inl ⟨isRoot, List.mem_singleton.mp listed⟩
  · split at listed
    · rename_i isDirectory
      exact Or.inr ⟨isDirectory, List.mem_singleton.mp listed⟩
    · cases listed

theorem typed_nestedWorld : Typed nestedWorld where
  types := by
    intro path dirent listed _ stat status
    rcases listed_nestedWorld listed with ⟨rfl, rfl⟩ | ⟨rfl, rfl⟩
    · cases status
      decide
    · cases status
      decide
  links _ _ _ _ := rfl

/-- With callbacks that accept everything, all types of `r/d/b` may be withheld. -/
theorem withheld_types_iff_nested :
    ∃ typedWalk untypedWalk,
      runAlone (machine nestedWorld.environment 1) ((), ⟨false, 0⟩)
          (walkSequential nestedConfig) (State.initial ()) =
        some (true, typedWalk) ∧
      runAlone (machine
            (nestedWorld.withholding fun _ _ => true).environment 1)
          ((), ⟨false, 0⟩) (walkSequential nestedConfig)
          (State.initial ()) =
        some (true, untypedWalk) ∧
      SameElements (typedWalk.visits.map Entry.shape)
        (untypedWalk.visits.map Entry.shape) ∧
      SameElements typedWalk.opened untypedWalk.opened := by
  have usable : usableRoot nestedConfig = some [114, 0] := by decide
  have terminated : Terminated [114, 0] nestedConfig.rootLength := by
    constructor <;> decide
  rcases (withheld_types_iff usable typed_nestedWorld
      listsOnce_nestedWorld (fun _ _ => true) 1 ((), ⟨false, 0⟩)).1
      terminated with
    ⟨typedWalk, untypedWalk, ran, ranToo, same⟩
  refine ⟨typedWalk, untypedWalk, ran, ranToo, same.mpr ?_⟩
  intro directory _ _ dirent listed _ _ _ stat _
  refine ⟨?_, fun _ => rfl, fun _ _ => rfl⟩
  intro isLink
  rcases listed_nestedWorld listed with ⟨_, rfl⟩ | ⟨_, rfl⟩
  · exact absurd isLink (by decide)
  · exact absurd isLink (by decide)

/-- A link `b` to a file, in the root. -/
def linkWorld : World where
  openError _ _ := none
  listing _ := ⟨[⟨nestedFile.name, dtLnk⟩], none⟩
  stat _ _ noFollow :=
    if noFollow then .ok ⟨1, 3, 1, 0o120777, 5⟩
    else .ok ⟨1, 4, 12, 0o100644, 5⟩
  filter _ := true
  shouldDescend _ := true

def linkConfig : Config :=
  { nestedConfig with followSymlinks := true }

/-- `r/d/b` again, with a filter that looks at the permissions. -/
def readableWorld : World :=
  { nestedWorld with filter := fun entry => entry.permissionMask ≠ 0 }

/-- The paths and kinds that a sequential walk visits. -/
def shapesVisited (world : World) (config : Config) :
    Option (List (Path × EntryKind)) :=
  (runAlone (machine world.environment 1) ((), ⟨false, 0⟩)
    (walkSequential config) (State.initial ())).map fun result =>
      result.2.visits.map Entry.shape

/--
Without its type the link is not followed, and without their types the entries
have no permissions for the filter to see.
-/
theorem withheld_types_matter :
    shapesVisited linkWorld linkConfig =
        some [([114, 47, 98], .file)] ∧
      shapesVisited (linkWorld.withholding fun _ _ => true) linkConfig =
        some [] ∧
      shapesVisited readableWorld nestedConfig =
        some [([114, 47, 100], .directory),
          ([114, 47, 100, 47, 98], .file)] ∧
      shapesVisited (readableWorld.withholding fun _ _ => true)
        nestedConfig = some [] := by
  refine ⟨?_, ?_, ?_, ?_⟩ <;> decide +kernel

end BcIo.Walk
