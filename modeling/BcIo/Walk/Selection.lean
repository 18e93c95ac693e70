import BcIo.Walk.Visits
import BcIo.Foundation.Aggregate

/-!
# Which entries a sequential walk visits

`Selected` says, without reference to the walk, which entries below a root are
to be visited when every directory record reports its type: those that can be
reached through listed, shown, accepted directories that can be opened.  The
sequential walk visits these, and each of them once.
-/

namespace BcIo.Walk

open BcIo.File
open BcIo.Foundation.Aggregate
open BcIo.Foundation.MachineWord
open BcIo.Foundation.Interaction
open BcIo.Foundation.WorkerPool

/-! ## Paths below a directory -/

/-- The path `base/n1/…/nk`. -/
def pathTo (base : Path) (names : List EntryName) : Path :=
  names.foldl (fun path name => joined path name.bytes) base

theorem pathTo_cons (base : Path) (name : EntryName)
    (names : List EntryName) :
    pathTo base (name :: names) = pathTo (joined base name.bytes) names :=
  rfl

theorem joined_of_ne_nil {base : Path} (rooted : base ≠ [])
    (name : List Byte) : joined base name = base ++ slash :: name := by
  unfold joined
  rw [if_neg]
  simpa using rooted

theorem joined_ne_nil (base : Path) (name : EntryName) :
    joined base name.bytes ≠ [] := by
  have longer := length_lt_joined base name
  intro empty
  rw [empty] at longer
  exact Nat.not_lt_zero _ longer

theorem pathTo_eq {base : Path} (rooted : base ≠ [])
    (names : List EntryName) :
    pathTo base names =
      base ++ names.flatMap fun name => slash :: name.bytes := by
  induction names generalizing base with
  | nil => simp [pathTo]
  | cons name names induction =>
      rw [pathTo_cons, induction (joined_ne_nil base name),
        joined_of_ne_nil rooted, List.flatMap_cons, List.append_assoc,
        List.cons_append]

theorem EntryName.ext_bytes {first second : EntryName}
    (same : first.bytes = second.bytes) : first = second := by
  cases first
  cases second
  cases same
  rfl

/-- What follows a name in a path: nothing, or a slash. -/
def Separated (rest : List Byte) : Prop :=
  ∀ byte ∈ rest.head?, byte = slash

theorem separated_flatMap (names : List EntryName) :
    Separated (names.flatMap fun name => slash :: name.bytes) := by
  cases names with
  | nil =>
      intro byte isHead
      cases isHead
  | cons name names =>
      intro byte isHead
      rw [List.flatMap_cons, List.cons_append, List.head?_cons] at isHead
      exact (Option.some.inj isHead).symm

/-- A name ends where the first slash stands. -/
theorem split_unique {first second left right : List Byte}
    (noSlash : slash ∉ first) (noSlashToo : slash ∉ second)
    (separated : Separated left) (separatedToo : Separated right)
    (same : first ++ left = second ++ right) :
    first = second ∧ left = right := by
  induction first generalizing second with
  | nil =>
      cases second with
      | nil => exact ⟨rfl, same⟩
      | cons byte second =>
          rw [List.nil_append, List.cons_append] at same
          have isSlash := separated byte (by rw [same]; rfl)
          rw [isSlash] at noSlashToo
          exact absurd List.mem_cons_self noSlashToo
  | cons byte first induction =>
      cases second with
      | nil =>
          rw [List.nil_append, List.cons_append] at same
          have isSlash := separatedToo byte (by rw [← same]; rfl)
          rw [isSlash] at noSlash
          exact absurd List.mem_cons_self noSlash
      | cons other second =>
          rw [List.mem_cons, not_or] at noSlash noSlashToo
          rw [List.cons_append, List.cons_append, List.cons.injEq] at same
          rcases induction noSlash.2 noSlashToo.2 same.2 with ⟨rfl, rfl⟩
          rw [same.1]
          exact ⟨rfl, rfl⟩

/-- Different names lead to different paths. -/
theorem pathTo_injective {base : Path} (rooted : base ≠ [])
    {first second : List EntryName}
    (same : pathTo base first = pathTo base second) : first = second := by
  rw [pathTo_eq rooted, pathTo_eq rooted, List.append_cancel_left_eq] at same
  induction first generalizing second with
  | nil =>
      cases second with
      | nil => rfl
      | cons name names => cases same
  | cons name names induction =>
      cases second with
      | nil => cases same
      | cons other others =>
          simp only [List.flatMap_cons, List.cons_append,
            List.cons.injEq, true_and] at same
          rcases split_unique name.noSlash other.noSlash
              (separated_flatMap names) (separated_flatMap others) same with
            ⟨sameName, sameRest⟩
          rw [EntryName.ext_bytes sameName, induction sameRest]

/-! ## The selected entries -/

/-- What an entry counts as, once a link is resolved that is to be followed. -/
def classified (config : Config) (dType : Byte) (stat : Stat) :
    EntryKind :=
  if dType = dtReg then .file
  else if dType = dtDir then .directory
  else if dType = dtLnk then
    if config.followSymlinks then
      if stat.isRegular then .file
      else if stat.isDirectory then .directory
      else .symlink
    else .symlink
  else .other

/-- The entry at a path, with what its status says. -/
def entryAt (config : Config) (path : Path) (depth : Nat) (dType : Byte)
    (stat : Stat) : Entry where
  absolutePath := path
  absolutePathLength := path.length
  kind := classified config dType stat
  fileSize := stat.size
  depth := depth
  deviceId := stat.device
  inodeNumber := stat.inode
  modificationTimeSeconds := stat.modificationTime
  permissionMask := stat.permissionMask
  statPopulated := true

/--
The directory can be opened and lists the record, which is shown, has a status
and passes the filter as `entry`.
-/
structure Found (world : World) (config : Config) (directory : Path)
    (depth : Nat) (dirent : Dirent) (entry : Entry) : Prop where
  openable : world.openError directory (!config.followSymlinks) = none
  listed : dirent ∈ (world.listing directory).entries
  shown : dirent.hidden = true → config.includeHidden = true
  status : ∃ stat,
    world.stat directory dirent.name (!config.followSymlinks) = .ok stat ∧
      entry =
        entryAt config (joined directory dirent.name.bytes) (depth + 1)
          dirent.dType stat
  passes : accepted world config entry = true

/--
The entry that the names lead to from a directory is to be visited: the names
before the last one are directories to descend into, and the last one is a file
or a directory whose path fits.
-/
inductive Selected (world : World) (config : Config) :
    Path → Nat → List EntryName → Entry → Prop
  | last {directory : Path} {depth : Nat} {dirent : Dirent} {entry : Entry}
      (found : Found world config directory depth dirent entry)
      (kind : entry.kind = .file ∨ entry.kind = .directory)
      (fits : (joined directory dirent.name.bytes).length ≤ 4095) :
      Selected world config directory depth [dirent.name] entry
  | through {directory : Path} {depth : Nat} {dirent : Dirent}
      {middle entry : Entry} {names : List EntryName}
      (found : Found world config directory depth dirent middle)
      (kind : middle.kind = .directory)
      (wanted : descends world config middle = true)
      (rest : Selected world config (joined directory dirent.name.bytes)
        (depth + 1) names entry) :
      Selected world config directory depth (dirent.name :: names) entry

variable {world : World} {config : Config}

/-- Names, path and depth of a selected entry. -/
theorem Selected.position {directory : Path} {depth : Nat}
    {names : List EntryName} {entry : Entry}
    (selected : Selected world config directory depth names entry) :
    names ≠ [] ∧ entry.absolutePath = pathTo directory names ∧
      entry.depth = depth + names.length := by
  induction selected with
  | last found kind fits =>
      rcases found.status with ⟨stat, _, rfl⟩
      exact ⟨List.cons_ne_nil _ _, rfl, rfl⟩
  | through found kind wanted rest induction =>
      rcases induction with ⟨_, path, depth⟩
      refine ⟨List.cons_ne_nil _ _, path, ?_⟩
      rw [depth, List.length_cons]
      omega

theorem Selected.fits {directory : Path} {depth : Nat}
    {names : List EntryName} {entry : Entry}
    (selected : Selected world config directory depth names entry) :
    (pathTo directory names).length ≤ 4095 := by
  induction selected with
  | last found kind fits => exact fits
  | through found kind wanted rest induction => exact induction

theorem length_le_pathTo (base : Path) (names : List EntryName) :
    base.length ≤ (pathTo base names).length := by
  induction names generalizing base with
  | nil => exact Nat.le_refl _
  | cons name names induction =>
      have longer := length_lt_joined base name
      exact Nat.le_trans (Nat.le_of_lt longer) (induction _)

/-! ## From the records to the selected entries -/

/-- The kind that a record leads to, when its status has been asked for. -/
theorem followedKind_of_type (dType : Byte) (stat : Stat) :
    followedKind config (entryKindFromType (dtypeToEntryType dType)) stat =
      classified config dType stat := by
  unfold dtypeToEntryType classified
  split
  · rfl
  · split
    · rfl
    · split
      · unfold followedKind entryKindFromType
        cases config.followSymlinks with
        | false => rfl
        | true => rfl
      · rfl

/-- The status of a file and of a directory is asked for. -/
theorem needsStat_of_node {resolved : Resolved}
    (unpopulated : resolved.statPopulated = false)
    (kind : resolved.entryKind = .file ∨
      resolved.entryKind = .directory) :
    needsStat config resolved = true := by
  unfold needsStat
  rw [unpopulated]
  rcases kind with isFile | isDirectory
  · rw [isFile]
    rfl
  · rw [isDirectory]
    rfl

/-- So is that of a link that turns out to be one of them. -/
theorem needsStat_of_followed {resolved : Resolved} {stat : Stat}
    (unpopulated : resolved.statPopulated = false)
    (kind : followedKind config resolved.entryKind stat = .file ∨
      followedKind config resolved.entryKind stat = .directory) :
    needsStat config resolved = true := by
  unfold followedKind at kind
  split at kind
  · rename_i isFollowed
    rw [needsStat, unpopulated, isFollowed.1, isFollowed.2]
    rfl
  · exact needsStat_of_node unpopulated kind

/-- What classification makes of a record that reports its type. -/
theorem resolved_of_reported {directory : Directory} {dirent : Dirent}
    (reported : dirent.dType ≠ dtUnknown) (resolved : Resolved) :
    ((typeOf world directory dirent).bind
          (statOf world config directory dirent) = some resolved ∧
        (resolved.entryKind = .file ∨ resolved.entryKind = .directory)) ↔
      ∃ stat,
        world.stat directory.text dirent.name (!config.followSymlinks) =
            .ok stat ∧
          resolved =
            ⟨classified config dirent.dType stat, stat.size, stat.device,
              stat.inode, stat.modificationTime, stat.permissionMask,
              true⟩ ∧
          (resolved.entryKind = .file ∨
            resolved.entryKind = .directory) := by
  unfold typeOf
  rw [if_pos reported, Option.bind_some]
  unfold statOf
  split
  · cases world.stat directory.text dirent.name
        (!config.followSymlinks) with
    | error errno => simp
    | ok stat =>
        dsimp only
        rw [followedKind_of_type]
        constructor
        · rintro ⟨isResolved, kind⟩
          exact ⟨stat, rfl, (Option.some.inj isResolved).symm, kind⟩
        · rintro ⟨other, same, isResolved, kind⟩
          cases same
          exact ⟨congrArg some isResolved.symm, kind⟩
  · rename_i unneeded
    -- such a record is neither a file nor a directory, with any status
    constructor
    · rintro ⟨isResolved, kind⟩
      cases isResolved
      exact absurd (needsStat_of_node rfl kind) unneeded
    · rintro ⟨stat, _, rfl, kind⟩
      dsimp only at kind
      rw [← followedKind_of_type] at kind
      exact absurd (needsStat_of_followed rfl kind) unneeded

/-- A listed record of a directory that could be opened is visited when found. -/
theorem visitedAt_iff_found {directory : Directory}
    (proper : Proper directory) (shallow : directory.depth < 4096)
    {dirent : Dirent} (reported : dirent.dType ≠ dtUnknown)
    (openable :
      world.openError directory.text (!config.followSymlinks) = none)
    (listed : dirent ∈ (world.listing directory.text).entries)
    (entry : Entry) :
    visitedAt world config directory dirent = some entry ↔
      Found world config directory.path directory.depth dirent entry ∧
        (entry.kind = .file ∨ entry.kind = .directory) ∧
        (joined directory.path dirent.name.bytes).length ≤ 4095 := by
  have deeper : sizeAdd directory.depth 1 = directory.depth + 1 := by
    have limit : wordLimit = 2 ^ 64 := rfl
    exact wordAdd_of_lt (by omega)
  constructor
  · intro visited
    rcases Option.bind_eq_some_iff.mp visited with ⟨other, found, conditions⟩
    split at conditions
    · rename_i passed
      cases conditions
      rcases described_path proper found with ⟨path, _, short, _⟩
      rcases described_some found with
        ⟨shown, childPath, first, resolved, _, typed, statted, isEntry⟩
      have isResolved :
          (typeOf world directory dirent).bind
            (statOf world config directory dirent) = some resolved := by
        rw [typed, Option.bind_some, statted]
      have kind : resolved.entryKind = .file ∨
          resolved.entryKind = .directory := by
        rw [isEntry] at passed
        exact passed.2
      rcases (resolved_of_reported reported resolved).mp
          ⟨isResolved, kind⟩ with ⟨stat, status, isStatus, _⟩
      rw [proper.text] at openable listed status
      refine ⟨⟨openable, listed, shown, ⟨stat, status, ?_⟩, passed.1⟩,
        passed.2, ?_⟩
      · have samePath :
            childPath = joined directory.path dirent.name.bytes := by
          rw [isEntry] at path
          exact path
        rw [isEntry, isStatus, samePath, entryOf, entryAt, deeper]
      · rw [← path]
        exact Nat.le_of_lt_succ short
    · cases conditions
  · rintro ⟨found, kind, fits⟩
    rcases found.status with ⟨stat, status, isEntry⟩
    rw [← proper.text] at status
    have joins :
        pathJoin maxPathLength directory.path dirent.name.bytes =
          some (joined directory.path dirent.name.bytes) := by
      rw [pathJoin_of_proper proper, if_pos]
      exact Nat.lt_succ_of_le fits
    have kindToo : classified config dirent.dType stat = .file ∨
        classified config dirent.dType stat = .directory := by
      rw [isEntry] at kind
      exact kind
    rcases (resolved_of_reported reported _).mpr
        ⟨stat, status, rfl, kindToo⟩ with ⟨isResolved, _⟩
    rcases Option.bind_eq_some_iff.mp isResolved with
      ⟨first, typed, statted⟩
    have isDescribed :
        described world config directory dirent = some entry := by
      unfold described
      rw [if_neg]
      · simp only [joins, typed, statted, Option.bind_eq_bind,
          Option.bind_some, Option.pure_def, Option.some.injEq]
        rw [isEntry, entryOf, entryAt, deeper]
      · intro hidden
        rw [Bool.and_eq_true, Bool.not_eq_true'] at hidden
        have shown := found.shown hidden.1
        rw [hidden.2] at shown
        cases shown
    unfold visitedAt
    rw [isDescribed, Option.bind_some, if_pos ⟨found.passes, kind⟩]

/-- A record that leads to a descent is visited, as a directory. -/
theorem entered_iff_visitedAt {directory child : Directory}
    {dirent : Dirent} :
    entered world config directory dirent = some child ↔
      ∃ entry, visitedAt world config directory dirent = some entry ∧
        entry.kind = .directory ∧ descends world config entry = true ∧
        child = entry.directory := by
  constructor
  · intro isEntered
    rcases entered_some isEntered with
      ⟨entry, found, kind, passed, wanted, isChild⟩
    refine ⟨entry, ?_, kind, wanted, isChild⟩
    unfold visitedAt
    rw [found, Option.bind_some, if_pos ⟨passed, Or.inr kind⟩]
  · rintro ⟨entry, visited, kind, wanted, rfl⟩
    rcases Option.bind_eq_some_iff.mp visited with ⟨other, found, conditions⟩
    split at conditions
    · rename_i passed
      cases conditions
      unfold entered
      rw [found, Option.bind_some, if_pos ⟨kind, passed.1, wanted⟩]
    · cases conditions

theorem mem_visitedIn {directory : Directory} {entry : Entry} :
    entry ∈ visitedIn world config directory ↔
      world.openError directory.text (!config.followSymlinks) = none ∧
        ∃ dirent ∈ (world.listing directory.text).entries,
          visitedAt world config directory dirent = some entry := by
  unfold visitedIn
  cases world.openError directory.text (!config.followSymlinks) with
  | some errno => simp
  | none => simp [List.mem_filterMap]

/-! ## The whole tree -/

/-- A directory that the selection below it can be read off from. -/
structure Sound (directory : Directory) : Prop where
  proper : Proper directory
  rooted : directory.path ≠ []
  shallow : directory.depth < directory.path.length

theorem Sound.depth_lt {directory : Directory} (sound : Sound directory) :
    directory.depth < 4096 :=
  Nat.lt_trans sound.shallow sound.proper.short

/-- The directory behind a visited entry. -/
theorem Sound.directory {directory : Directory} (sound : Sound directory)
    {dirent : Dirent} {entry : Entry}
    (visited : visitedAt world config directory dirent = some entry) :
    Sound entry.directory ∧
      entry.directory.path = joined directory.path dirent.name.bytes ∧
      entry.directory.depth = directory.depth + 1 := by
  rcases Option.bind_eq_some_iff.mp visited with ⟨other, found, conditions⟩
  split at conditions
  · cases conditions
    rcases sound.proper.directory found with ⟨proper, path, depth⟩
    have deeper : sizeAdd directory.depth 1 = directory.depth + 1 := by
      have limit : wordLimit = 2 ^ 64 := rfl
      have shallow := sound.depth_lt
      exact wordAdd_of_lt (by omega)
    rw [deeper] at depth
    refine ⟨⟨proper, ?_, ?_⟩, path, depth⟩
    · rw [path]
      exact joined_ne_nil _ _
    · have longer := length_lt_joined directory.path dirent.name
      have shallow := sound.shallow
      rw [path, depth]
      omega
  · cases conditions

/-- Every directory record reports its type. -/
def ReportsTypes (world : World) : Prop :=
  ∀ path, ∀ dirent ∈ (world.listing path).entries,
    dirent.dType ≠ dtUnknown

/-- No listing has a name twice. -/
def ListsOnce (world : World) : Prop :=
  ∀ path, ((world.listing path).entries.map Dirent.name).Nodup

variable {β : Type} (view : Entry → β)

/-- Seen through `view`, the entries that are visited below a directory. -/
def visitedBelow (world : World) (config : Config) (levels : Nat)
    (directory : Directory) : Multiset β :=
  treeSum world config
    (fun directory => ((visitedIn world config directory).map view :))
    levels directory

variable {view}

/-- Below a directory, the visited entries are the selected ones. -/
theorem mem_visitedBelow (reports : ReportsTypes world) {levels : Nat}
    {directory : Directory} (sound : Sound directory)
    (enough : Suffices levels directory) {value : β} :
    value ∈ visitedBelow view world config levels directory ↔
      ∃ names entry, view entry = value ∧
        Selected world config directory.path directory.depth names
          entry := by
  induction levels generalizing directory with
  | zero => exact absurd enough (not_suffices_zero sound.proper)
  | succ levels induction =>
      rw [visitedBelow, treeSum, Multiset.mem_add, Multiset.mem_coe,
        List.mem_map, mem_sum_map]
      constructor
      · rintro (⟨entry, visited, seen⟩ | ⟨child, isChild, inChild⟩)
        · rcases mem_visitedIn.mp visited with
            ⟨openable, dirent, listed, visited⟩
          rcases (visitedAt_iff_found sound.proper sound.depth_lt
              (reports _ dirent listed) openable listed entry).mp visited
            with ⟨found, kind, fits⟩
          exact ⟨_, entry, seen, .last found kind fits⟩
        · rcases mem_children_iff.mp isChild with
            ⟨openable, dirent, listed, isEntered⟩
          rcases entered_iff_visitedAt.mp isEntered with
            ⟨middle, visited, kind, wanted, rfl⟩
          rcases (visitedAt_iff_found sound.proper sound.depth_lt
              (reports _ dirent listed) openable listed middle).mp visited
            with ⟨found, _, _⟩
          rcases sound.directory visited with ⟨soundChild, path, depth⟩
          have deeper : Suffices levels middle.directory := by
            apply enough.child
            rw [path]
            exact length_lt_joined _ _
          rcases (induction soundChild deeper).mp inChild with
            ⟨names, entry, seen, selected⟩
          rw [path, depth] at selected
          exact ⟨_, entry, seen, .through found kind wanted selected⟩
      · rintro ⟨names, entry, seen, selected⟩
        generalize isPath : directory.path = path at selected
        generalize isDepth : directory.depth = depth at selected
        cases selected with
        | last found kind fits =>
            subst isPath isDepth
            have openable := found.openable
            have listed := found.listed
            rw [← sound.proper.text] at openable listed
            refine Or.inl ⟨entry, mem_visitedIn.mpr ⟨openable, _, listed, ?_⟩,
              seen⟩
            exact (visitedAt_iff_found sound.proper sound.depth_lt
              (reports _ _ listed) openable listed entry).mpr
                ⟨found, kind, fits⟩
        | @through _ _ dirent middle _ names found kind wanted rest =>
            subst isPath isDepth
            have openable := found.openable
            have listed := found.listed
            rw [← sound.proper.text] at openable listed
            -- the path of a prefix fits because the whole path does
            have fits :
                (joined directory.path dirent.name.bytes).length ≤ 4095 :=
              Nat.le_trans (length_le_pathTo _ names) rest.fits
            have visited :=
              (visitedAt_iff_found sound.proper sound.depth_lt
                (reports _ dirent listed) openable listed middle).mpr
                ⟨found, Or.inr kind, fits⟩
            rcases sound.directory visited with ⟨soundChild, path, depth⟩
            have deeper : Suffices levels middle.directory := by
              apply enough.child
              rw [path]
              exact length_lt_joined _ _
            refine Or.inr ⟨middle.directory, ?_, ?_⟩
            · exact mem_children openable listed
                (entered_iff_visitedAt.mpr
                  ⟨middle, visited, kind, wanted, rfl⟩)
            · apply (induction soundChild deeper).mpr
              rw [path, depth]
              exact ⟨names, entry, seen, rest⟩

/-- The path of a visited entry. -/
theorem visitedAt_path {directory : Directory} (proper : Proper directory)
    {dirent : Dirent} {entry : Entry}
    (visited : visitedAt world config directory dirent = some entry) :
    entry.absolutePath = pathTo directory.path [dirent.name] := by
  rcases Option.bind_eq_some_iff.mp visited with ⟨other, found, conditions⟩
  split at conditions
  · cases conditions
    exact (described_path proper found).1
  · cases conditions

/-- Names of a listing that are listed once lead to entries that differ. -/
theorem pairwise_filterMap_names {α : Type} (once : ListsOnce world)
    (path : Path) {pick : Dirent → Option α} {apart : α → α → Prop}
    (differ : ∀ first second, first.name ≠ second.name →
      ∀ left ∈ pick first, ∀ right ∈ pick second, apart left right) :
    ((world.listing path).entries.filterMap pick).Pairwise apart := by
  rw [List.pairwise_filterMap]
  refine List.Pairwise.imp ?_ (List.pairwise_map.mp (once path))
  intro first second different left isLeft right isRight
  exact differ first second different left isLeft right isRight

/-- Below a directory, no path is visited twice. -/
theorem nodup_visitedBelow (reports : ReportsTypes world)
    (once : ListsOnce world) {levels : Nat} {directory : Directory}
    (sound : Sound directory) (enough : Suffices levels directory) :
    (visitedBelow Entry.absolutePath world config levels
      directory).Nodup := by
  induction levels generalizing directory with
  | zero => exact absurd enough (not_suffices_zero sound.proper)
  | succ levels induction =>
      -- the paths visited below a child, as names from this directory
      have belowChild :
          ∀ dirent child, entered world config directory dirent =
              some child →
            Sound child ∧ Suffices levels child ∧
              ∀ path ∈ visitedBelow Entry.absolutePath world config levels
                  child,
                ∃ names, names ≠ [] ∧
                  path = pathTo directory.path (dirent.name :: names) := by
        intro dirent child isEntered
        rcases entered_iff_visitedAt.mp isEntered with
          ⟨middle, visited, kind, wanted, rfl⟩
        rcases sound.directory visited with ⟨soundChild, isPath, _⟩
        have deeper : Suffices levels middle.directory := by
          apply enough.child
          rw [isPath]
          exact length_lt_joined _ _
        refine ⟨soundChild, deeper, ?_⟩
        intro path inChild
        rcases (mem_visitedBelow reports soundChild deeper).mp inChild with
          ⟨names, entry, rfl, selected⟩
        rcases selected.position with ⟨nonempty, position, _⟩
        rw [isPath] at position
        exact ⟨names, nonempty, position⟩
      rw [visitedBelow, treeSum, Multiset.nodup_add]
      refine ⟨?_, ?_, ?_⟩
      · rw [Multiset.coe_nodup, visitedIn]
        split
        · exact List.nodup_nil
        · rw [List.map_filterMap]
          apply pairwise_filterMap_names once
          intro first second different left isLeft right isRight same
          rcases Option.map_eq_some_iff.mp isLeft with ⟨entry, visited, rfl⟩
          rcases Option.map_eq_some_iff.mp isRight with
            ⟨other, visitedToo, rfl⟩
          rw [visitedAt_path sound.proper visited,
            visitedAt_path sound.proper visitedToo] at same
          have names := pathTo_injective sound.rooted same
          exact different (List.cons.inj names).1
      · apply nodup_sum_map
        · intro child isChild
          rcases mem_children_iff.mp isChild with ⟨_, dirent, _, isEntered⟩
          rcases belowChild dirent child isEntered with
            ⟨soundChild, deeper, _⟩
          exact induction soundChild deeper
        · unfold children
          split
          · exact List.Pairwise.nil
          · apply pairwise_filterMap_names once
            intro first second different left isLeft right isRight path
              inLeft inRight
            rcases (belowChild first left isLeft).2.2 path inLeft with
              ⟨names, _, rfl⟩
            rcases (belowChild second right isRight).2.2 _ inRight with
              ⟨others, _, same⟩
            have equal := pathTo_injective sound.rooted same
            exact different (List.cons.inj equal).1
      · rw [Multiset.disjoint_left]
        intro path here there
        rcases List.mem_map.mp (Multiset.mem_coe.mp here) with
          ⟨entry, visited, rfl⟩
        rcases mem_visitedIn.mp visited with ⟨_, dirent, _, visitedHere⟩
        rcases mem_sum_map.mp there with ⟨child, isChild, inChild⟩
        rcases mem_children_iff.mp isChild with ⟨_, other, _, isEntered⟩
        rcases (belowChild other child isEntered).2.2 _ inChild with
          ⟨names, nonempty, same⟩
        rw [visitedAt_path sound.proper visitedHere] at same
        have equal := pathTo_injective sound.rooted same
        exact nonempty (List.cons.inj equal).2.symm

/-! ## The walk -/

theorem sound_sequentialRoot {memory : List Byte}
    (usable : usableRoot config = some memory)
    (terminated : Terminated memory config.rootLength) :
    Sound (sequentialRoot config memory) ∧
      (sequentialRoot config memory).path =
        memory.take config.rootLength := by
  rcases proper_sequentialRoot usable terminated with ⟨proper, path⟩
  rcases usableRoot_some usable with ⟨_, positive, _⟩
  rcases terminated.split with ⟨_, _, length⟩
  have nonempty : 0 < (sequentialRoot config memory).path.length := by
    rw [path, length]
    exact positive
  exact ⟨⟨proper, List.ne_nil_of_length_pos nonempty, nonempty⟩, path⟩

/-- What the visits of a sequential walk look like through `view`. -/
theorem view_visits_sequential {memory : List Byte}
    (usable : usableRoot config = some memory)
    (terminated : Terminated memory config.rootLength) (view : Entry → β)
    {final : State Unit}
    (history :
      final.history =
        (sequentialRecurse config maxPathLength
            (sequentialRoot config memory)).trace world.answers ++
          [.shared .loadVisitFailed]) :
    ((final.visits.map view : List β) : Multiset β) =
      visitedBelow view world config maxPathLength
        (sequentialRoot config memory) := by
  rcases usableRoot_some usable with ⟨_, _, _, hasVisit, _⟩
  have free :
      ∀ op, ¬ Notable op →
        collect (fun op => (visitOf op).map view) op = 0 := by
    intro op unnoted
    simp [collect, visitOf_of_not_notable unnoted]
  rw [State.visits, List.map_filterMap, history,
    collected_sequential (fun op => (visitOf op).map view) rfl usable
      terminated, visitedBelow]
  congr 1
  funext directory
  rw [total_sequentialBody_notable free hasVisit,
    ← sum_map_singleton]
  exact zero_add _

/--
On a file system that reports types and lists no name twice, the sequential
walk ends successfully, no path is visited twice, and the visited entries are
the selected ones; the depth of each is the number of names that lead to it.
-/
theorem walkSequential_visits_selected {memory : List Byte}
    (usable : usableRoot config = some memory)
    (terminated : Terminated memory config.rootLength)
    (reports : ReportsTypes world) (once : ListsOnce world)
    (capacity : Nat) (choice : Unit × QueueChoice) :
    ∃ final,
      runAlone (machine world.environment capacity) choice
          (walkSequential config) (State.initial ()) =
        some (true, final) ∧
      (final.visits.map Entry.absolutePath).Nodup ∧
      (∀ entry, entry ∈ final.visits ↔
        ∃ names, Selected world config (memory.take config.rootLength) 0
          names entry) ∧
      ∀ names entry,
        Selected world config (memory.take config.rootLength) 0 names
            entry →
          entry.absolutePath =
              pathTo (memory.take config.rootLength) names ∧
            entry.depth = names.length := by
  rcases @walkSequential_ends world config memory usable terminated capacity
      choice with ⟨final, ran, _, history⟩
  rcases sound_sequentialRoot usable terminated with ⟨sound, path⟩
  have enough : Suffices maxPathLength (sequentialRoot config memory) :=
    Nat.le_add_left _ _
  have viewed :
      ∀ {γ : Type} (view : Entry → γ),
        ((final.visits.map view : List γ) : Multiset γ) =
          visitedBelow view world config maxPathLength
            (sequentialRoot config memory) :=
    fun view => view_visits_sequential usable terminated view history
  refine ⟨final, ran, ?_, ?_, ?_⟩
  · rw [← Multiset.coe_nodup, viewed]
    exact nodup_visitedBelow reports once sound enough
  · intro entry
    have selection :
        entry ∈ visitedBelow id world config maxPathLength
            (sequentialRoot config memory) ↔ _ :=
      mem_visitedBelow reports sound enough
    rw [← viewed id, Multiset.mem_coe, List.map_id, path] at selection
    rw [selection]
    constructor
    · rintro ⟨names, _, rfl, selected⟩
      exact ⟨names, selected⟩
    · rintro ⟨names, selected⟩
      exact ⟨names, entry, rfl, selected⟩
  · intro names entry selected
    rcases selected.position with ⟨_, position, depth⟩
    rw [Nat.zero_add] at depth
    exact ⟨position, depth⟩

/-- The record of a directory `d`. -/
def nestedDirectory : Dirent :=
  ⟨⟨[100], by decide, by decide, by decide, by decide, by decide⟩, dtDir⟩

/-- The record of a file `b`. -/
def nestedFile : Dirent :=
  ⟨⟨[98], by decide, by decide, by decide, by decide, by decide⟩, dtReg⟩

/-- The file system `r/d/b` below the root `r`. -/
def nestedWorld : World where
  openError _ _ := none
  listing path :=
    if path = [114] then
      ⟨[nestedDirectory], none⟩
    else if path = [114, 47, 100] then
      ⟨[nestedFile], none⟩
    else
      ⟨[], none⟩
  stat path _ _ :=
    if path = [114] then .ok ⟨1, 2, 4096, 0o040755, 5⟩
    else .ok ⟨1, 3, 12, 0o100644, 5⟩
  filter _ := true
  shouldDescend _ := true

def nestedConfig : Config where
  root := some [114, 0]
  rootLength := 1
  hasMainMemoryContext := true
  hasConcurrencyContext := true
  hasShouldStopCheck := false
  queueCapacity := 1
  followSymlinks := false
  includeHidden := false
  hasFilter := true
  hasShouldDescend := true
  hasVisit := true
  hasOnError := true

theorem reportsTypes_nestedWorld : ReportsTypes nestedWorld := by
  intro path dirent listed
  unfold nestedWorld at listed
  dsimp only at listed
  split at listed
  · rw [List.mem_singleton.mp listed]
    decide
  · split at listed
    · rw [List.mem_singleton.mp listed]
      decide
    · cases listed

theorem listsOnce_nestedWorld : ListsOnce nestedWorld := by
  intro path
  unfold nestedWorld
  dsimp only
  split
  · exact List.nodup_singleton _
  · split
    · exact List.nodup_singleton _
    · exact List.nodup_nil

/-- The walk of `r` visits `r/d/b`, at depth two. -/
theorem walkSequential_visits_selected_nested :
    ∃ final,
      runAlone (machine nestedWorld.environment 1) ((), ⟨false, 0⟩)
          (walkSequential nestedConfig) (State.initial ()) =
        some (true, final) ∧
      ∃ entry ∈ final.visits,
        entry.absolutePath = [114, 47, 100, 47, 98] ∧ entry.depth = 2 := by
  have usable : usableRoot nestedConfig = some [114, 0] := by decide
  have terminated : Terminated [114, 0] nestedConfig.rootLength := by
    constructor <;> decide
  rcases walkSequential_visits_selected usable terminated
      reportsTypes_nestedWorld listsOnce_nestedWorld 1 ((), ⟨false, 0⟩) with
    ⟨final, ran, _, selection, _⟩
  have throughDirectory :
      Found nestedWorld nestedConfig [114] 0 nestedDirectory
        (entryAt nestedConfig [114, 47, 100] 1 dtDir
          ⟨1, 2, 4096, 0o040755, 5⟩) :=
    ⟨rfl, List.mem_singleton_self _, by decide, ⟨_, rfl, rfl⟩, rfl⟩
  have atFile :
      Found nestedWorld nestedConfig [114, 47, 100] 1 nestedFile
        (entryAt nestedConfig [114, 47, 100, 47, 98] 2 dtReg
          ⟨1, 3, 12, 0o100644, 5⟩) :=
    ⟨rfl, List.mem_singleton_self _, by decide, ⟨_, rfl, rfl⟩, rfl⟩
  have selected :
      Selected nestedWorld nestedConfig [114] 0
        [nestedDirectory.name, nestedFile.name]
        (entryAt nestedConfig [114, 47, 100, 47, 98] 2 dtReg
          ⟨1, 3, 12, 0o100644, 5⟩) :=
    .through throughDirectory rfl rfl
      (.last atFile (Or.inl rfl) (by decide))
  exact ⟨final, ran, _, (selection _).mpr ⟨_, selected⟩, rfl, rfl⟩

end BcIo.Walk
