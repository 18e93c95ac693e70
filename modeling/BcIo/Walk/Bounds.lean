import BcIo.Walk.Outline
import BcIo.Walk.Selection

/-!
# Paths that grow, and a recursion that ends

Nothing in a walk detects a cycle.  What ends it is that joining a name adds at
least two bytes to a path, and that a path has to fit into its buffer: the
length of the path bounds the depth of an entry and the nesting of the
recursion, whatever the file system looks like.
-/

namespace BcIo.Walk

open BcIo.File
open BcIo.Foundation.MachineWord
open BcIo.Foundation.Bookkeeping
open BcIo.Foundation.Interaction
open BcIo.Foundation.WorkerPool

/-! ## Buffers -/

/-- The path of a queue entry: a zeroed buffer with a copy of the child path. -/
def queueEntryPath (childPathBuffer : List Byte) (childPathLength : Nat) :
    List Byte :=
  place
    (place (List.replicate maxPathLength 0) 0
      (childPathBuffer.take childPathLength))
    childPathLength [0]

/--
The path is what `bc_io_file_path_join` leaves in a buffer of a walker, with its
terminating zero inside the buffer.
-/
def Buffered (path : Path) : Prop :=
  ∃ base name : List Byte, ∀ buffer : List Byte,
    buffer.length = maxPathLength →
    ∃ rest,
      pathJoinInto buffer base name =
          some (path ++ 0 :: rest, path.length) ∧
        (path ++ 0 :: rest).length = maxPathLength

theorem Buffered.short {path : Path} (buffered : Buffered path) :
    path.length ≤ maxPathLength - 1 := by
  rcases buffered with ⟨base, name, joins⟩
  rcases joins (List.replicate maxPathLength 0) List.length_replicate with
    ⟨rest, _, length⟩
  rw [List.length_append, List.length_cons] at length
  omega

/-- A child path is copied into a queue entry with its terminating zero. -/
theorem queueEntryPath_eq {path : Path}
    (short : path.length ≤ maxPathLength - 1) (after : List Byte) :
    ∃ rest,
      queueEntryPath (path ++ after) path.length = path ++ 0 :: rest ∧
        (path ++ 0 :: rest).length = maxPathLength := by
  refine ⟨List.replicate (maxPathLength - path.length - 1) 0, ?_, ?_⟩
  · rw [queueEntryPath, List.take_left, place_zero, place_behind,
      List.drop_drop, List.drop_replicate]
    simp [Nat.sub_add_eq]
  · have positive : 0 < maxPathLength := by decide
    rw [List.length_append, List.length_cons, List.length_replicate]
    omega

/-! ## Bounds -/

/-- How deep a walk can get. -/
def Config.depthLimit (config : Config) : Nat :=
  (maxPathLength - 1 - config.rootLength) / 2

/-- An entry whose path stands in its buffer and which is not too deep. -/
structure Contained (config : Config) (entry : Entry) : Prop where
  length : entry.absolutePathLength = entry.absolutePath.length
  short : entry.absolutePathLength ≤ maxPathLength - 1
  buffered : Buffered entry.absolutePath
  depth : entry.depth ≤ config.depthLimit

/-- The root, as the sequential walk or the parallel walk refers to it. -/
def IsRoot (config : Config) (text : Path) : Prop :=
  text = config.rootText ∨
    text = (rootEntry config (config.root.getD [])).text

/-- What the buffer of a child path holds as a C string. -/
def BelowRoot (text : Path) : Prop :=
  ∃ whole, Buffered whole ∧ text = cString (whole ++ [0])

/-- The paths that an operation passes on are bounded. -/
def Bounded (config : Config) : Op → Prop
  | .outside (.openDirectory path _) => IsRoot config path ∨ BelowRoot path
  | .outside (.filter entry) => Contained config entry
  | .outside (.visit entry) => Contained config entry
  | .outside (.shouldDescend entry) => Contained config entry
  | .shared (.queuePush directory) =>
      0 < directory.path.length ∧
        directory.path.length ≤ maxPathLength - 1 ∧
        directory.depth ≤ config.depthLimit ∧
        config.rootLength + 2 * directory.depth ≤ directory.path.length ∧
        Buffered directory.path ∧
        ∀ after, ∃ rest,
          queueEntryPath (directory.path ++ after) directory.path.length =
              directory.path ++ 0 :: rest ∧
            (directory.path ++ 0 :: rest).length = maxPathLength ∧
            directory.text = cString (directory.path ++ 0 :: rest)
  | _ => True

/-- A directory that a walk can reach; each level adds two bytes to the path. -/
structure Reached (config : Config) (directory : Directory) : Prop where
  named : 0 < directory.path.length
  deep : config.rootLength + 2 * directory.depth ≤ directory.path.length
  short : directory.path.length ≤ maxPathLength - 1
  origin : IsRoot config directory.text ∨ BelowRoot directory.text

variable {config : Config} {directory : Directory} {entry : Entry}

theorem cString_append_zero (path rest : List Byte) :
    cString (path ++ 0 :: rest) = cString (path ++ [0]) := by
  unfold cString
  induction path with
  | nil => simp
  | cons byte path induction =>
      rw [List.cons_append, List.cons_append, List.takeWhile_cons,
        List.takeWhile_cons, induction]

/-- What joining a name to a reached directory leads to. -/
theorem Reached.offspring (reached : Reached config directory)
    (offspring : Offspring directory entry) :
    Buffered entry.absolutePath ∧
      directory.path.length + 2 ≤ entry.absolutePath.length ∧
      entry.absolutePath.length ≤ maxPathLength - 1 ∧
      entry.depth = directory.depth + 1 := by
  rcases offspring with ⟨name, joins, _, depth⟩
  have limit : wordLimit = 2 ^ 64 := rfl
  have small : maxPathLength = 4096 := rfl
  have based := reached.named
  have deep := reached.deep
  have short := reached.short
  have named := name.short
  have nonempty := List.length_pos_iff.mpr name.nonempty
  have baseSmall : directory.path.length < 2 ^ 62 := by omega
  have nameSmall : name.bytes.length < 2 ^ 62 := by omega
  have buffered : Buffered entry.absolutePath := by
    refine ⟨directory.path, name.bytes, ?_⟩
    intro buffer size
    rw [← size] at joins
    rcases pathJoinInto_of_pathJoin baseSmall nameSmall joins with
      ⟨written, fits⟩
    refine ⟨_, written, ?_⟩
    rw [List.length_append, List.length_cons, List.length_drop]
    omega
  refine ⟨buffered, ?_, buffered.short, ?_⟩
  · have path := joins
    rw [pathJoin_eq baseSmall nameSmall] at path
    split at path
    · rw [← Option.some.inj path, joined, if_neg (by omega),
        List.length_append, List.length_cons]
      omega
    · cases path
  · rw [depth]
    exact wordAdd_of_lt (by omega)

theorem Reached.contained (reached : Reached config directory)
    (offspring : Offspring directory entry) : Contained config entry := by
  rcases reached.offspring offspring with ⟨buffered, longer, short, depth⟩
  rcases offspring with ⟨name, _, length, _⟩
  have deep := reached.deep
  refine ⟨length, by omega, buffered, ?_⟩
  unfold Config.depthLimit
  omega

theorem path_of_offspring (offspring : Offspring directory entry) :
    entry.directory.path = entry.absolutePath := by
  rcases offspring with ⟨name, _, length, _⟩
  rw [Entry.directory, Directory.atPointer, length]
  exact List.take_left

theorem Reached.child (reached : Reached config directory)
    (offspring : Offspring directory entry) :
    Reached config entry.directory ∧ BelowRoot entry.directory.text ∧
      directory.path.length + 2 ≤ entry.directory.path.length := by
  rcases reached.offspring offspring with ⟨buffered, longer, short, depth⟩
  have path := path_of_offspring offspring
  have below : BelowRoot entry.directory.text :=
    ⟨entry.absolutePath, buffered, rfl⟩
  have deep := reached.deep
  have deeper : entry.directory.depth = directory.depth + 1 := depth
  rw [← path] at longer short
  exact ⟨⟨by omega, by omega, short, Or.inr below⟩, below, longer⟩

/-! ## The discipline -/

/-- Responses that fit to finite listings and to what has been queued. -/
def Expected (config : Config) (listing : Path → Nat) :
    (op : Op) → op.Response → Prop
  | .outside (.openDirectory path _), response =>
      ∀ entries, response = .ok entries → listing path ≤ entries
  | .outside (.direntReaderNext path index), response =>
      ∀ dirent, response = .entry dirent → index < listing path
  | .shared .queuePop, response =>
      ∀ directory, response = some directory → Reached config directory
  | _, _ => True

/-- Every operation is bounded; there is nothing to note. -/
def bounding (config : Config) (listing : Path → Nat) :
    Discipline Op Op.Response Unit where
  note _ _ _ := ()
  permits _ op := Bounded config op
  allowed _ op response := Expected config listing op response
  cut := False

variable {listing : Path → Nat}

/-- There is nothing to note, whatever is permitted. -/
theorem unnoted_bounding {op : Op} (bounded : Bounded config op) :
    Unnoted (bounding config listing) () op :=
  ⟨bounded, fun _ => rfl⟩

/-- The outline of the bounds, for both walks. -/
def boundedOutline (config : Config) (listing : Path → Nat)
    (halted : Action Bool)
    (looks : Keeps (bounding config listing) (fun _ _ => True)
      halted ()) : Outline config halted Unit Unit where
  discipline := bounding config listing
  calm _ := True
  head _ _ := True
  fresh _ _ := True
  seen _ _ := True
  within _ directory := Reached config directory
  ready _ directory _ := Reached config directory
  opening _ directory _ := Reached config directory
  inside _ _ := ()
  fresh_seen := id
  seen_head := id
  seen_calm := id
  ready_head _ := trivial
  ordinary := by
    intro held op _ isOrdinary
    refine ⟨?_, fun _ => rfl⟩
    cases op with
    | outside call => cases call <;> trivial
    | shared access => cases access <;> trivial
  asks reached offspring _ :=
    ⟨⟨reached.contained offspring, fun _ => rfl⟩,
      ⟨reached.contained offspring, fun _ => rfl⟩⟩
  visits reached offspring _ :=
    ⟨reached.contained offspring, trivial, trivial, trivial⟩
  looks _ := looks.mono fun _ _ _ => ⟨trivial, fun _ => trivial⟩
  begins reached := looks.mono fun _ _ _ => ⟨trivial, fun _ => reached⟩
  opens reached :=
    ⟨reached.origin, fun _ => trivial, fun _ => trivial, reached⟩
  closes _ := ⟨trivial, trivial⟩
  listing := listing
  rank directory := (maxPathLength - 1 - directory.path.length) / 2
  opened := Or.inr fun _ _ _ entries allowed => allowed entries rfl
  listed := Or.inr fun _ _ _ dirent allowed => allowed dirent rfl
  nested := by
    refine Or.inr ?_
    intro _ directory entry reached offspring
    rcases reached.child offspring with ⟨child, _, longer⟩
    have short := child.short
    omega

/-- The sequential walk is bounded, and its recursion is not cut off. -/
def boundedSequential (config : Config) (listing : Path → Nat) :
    SequentialOutline config Unit Unit where
  toOutline := boundedOutline config listing
    (sequentialHalted config)
    ((keeps_sequentialHalted (unnoted_bounding trivial)
      (unnoted_bounding trivial)).mono fun _ _ _ => trivial)
  recurses reached offspring _ := (reached.child offspring).1

theorem bounded_queuePush (reached : Reached config directory)
    (offspring : Offspring directory entry) :
    Bounded config (.shared (.queuePush entry.directory)) := by
  rcases reached.offspring offspring with ⟨buffered, _, short, _⟩
  have path := path_of_offspring offspring
  have child := (reached.child offspring).1
  refine ⟨child.named, child.short, (reached.contained offspring).depth,
    child.deep, by rw [path]; exact buffered, ?_⟩
  rw [path]
  intro after
  rcases queueEntryPath_eq short after with ⟨rest, copied, length⟩
  refine ⟨rest, copied, length, ?_⟩
  rw [cString_append_zero]
  rfl

theorem rank_lt (directory : Directory) :
    (maxPathLength - 1 - directory.path.length) / 2 < maxPathLength := by
  have positive : 0 < maxPathLength := by decide
  omega

/-- The parallel walk is bounded. -/
def boundedParallel (config : Config) (listing : Path → Nat) :
    ParallelOutline config Unit Unit where
  toOutline := boundedOutline config listing parallelHalted
    ((keeps_parallelHalted (unnoted_bounding trivial)).mono
      fun _ _ _ => trivial)
  ready_calm _ := trivial
  hands reached offspring _ :=
    ⟨trivial, bounded_queuePush reached offspring, trivial, trivial,
      (reached.child offspring).1⟩
  idle _ := True
  starting _ := True
  starts := by
    intro held _
    exact (keeps_workerStart (unnoted_bounding trivial)
      (unnoted_bounding trivial) (unnoted_bounding trivial)
      fun _ _ _ => unnoted_bounding trivial).mono fun _ _ _ => trivial
  polled _ := True
  polls _ :=
    (keeps_shouldStop (unnoted_bounding trivial)).mono fun _ _ _ =>
      ⟨trivial, fun _ => trivial⟩
  looked _ := True
  checks _ :=
    (keeps_parallelHalted (unnoted_bounding trivial)).mono fun _ _ _ =>
      ⟨trivial, fun _ => trivial⟩
  misses _ := ⟨trivial, trivial, fun _ => trivial⟩
  takes _ popped :=
    ⟨Or.inr (rank_lt _), (), popped _ rfl, fun _ _ => ⟨trivial, trivial⟩⟩

/-! ## Runs -/

/-- Listings are finite: each path has a bound on its entries. -/
def FiniteListings (environment : Environment) (listing : Path → Nat) :
    Prop :=
  (∀ situation choice path noFollow entries,
      (environment.answer situation choice
        (.openDirectory path noFollow)).1 = .ok entries →
      listing path ≤ entries) ∧
    ∀ situation choice path index dirent,
      (environment.answer situation choice
        (.direntReaderNext path index)).1 = .entry dirent →
      index < listing path

/-- The directories that are queued can be reached. -/
def QueueReached (config : Config) {Situation : Type}
    (state : State Situation) (_ : List Unit) : Prop :=
  ∀ directory ∈ state.queue, Reached config directory

/-- What a permitted push adds to the queue can be reached. -/
theorem reached_of_bounded
    (bounded : Bounded config (.shared (.queuePush directory))) :
    Reached config directory := by
  rcases bounded with ⟨named, short, _, deep, buffered, copies⟩
  rcases copies [] with ⟨rest, _, _, text⟩
  rw [cString_append_zero] at text
  exact ⟨named, deep, short, Or.inr ⟨_, buffered, text⟩⟩

/-- No queue operation but a push adds to the queue. -/
theorem mem_queue_handle {environment : Environment} {capacity : Nat}
    {state : State environment.Situation}
    {choice : environment.Choice × QueueChoice} {op : Op}
    (member : directory ∈
      ((machine environment capacity).handle state choice op).2.queue) :
    directory ∈ state.queue ∨ op = .shared (.queuePush directory) := by
  cases op with
  | outside call => exact Or.inl member
  | shared access =>
      cases access with
      | queuePush pushed =>
          simp only [respond, touch] at member
          split at member
          · rcases List.mem_append.mp member with old | new
            · exact Or.inl old
            · rw [List.mem_singleton.mp new]
              exact Or.inr rfl
          · exact Or.inl member
      | queuePop => exact Or.inl (List.mem_of_mem_eraseIdx member)
      | _ => exact Or.inl member

/-- A popped directory was in the queue. -/
theorem mem_queue_of_popped {environment : Environment} {capacity : Nat}
    {state : State environment.Situation}
    {choice : environment.Choice × QueueChoice}
    (popped : ((machine environment capacity).handle state choice
      (.shared .queuePop)).1 = some directory) :
    directory ∈ state.queue :=
  List.mem_of_getElem? popped

/-- Calls get the responses that are expected. -/
theorem expected_handle {environment : Environment} {capacity : Nat}
    (finite : FiniteListings environment listing)
    {state : State environment.Situation}
    (queued : QueueReached config state [])
    (choice : environment.Choice × QueueChoice) (op : Op) :
    Expected config listing op
      ((machine environment capacity).handle state choice op).1 := by
  cases op with
  | outside call =>
      cases call with
      | openDirectory path noFollow =>
          intro entries answered
          exact finite.1 _ _ _ _ _ answered
      | direntReaderNext path index =>
          intro dirent answered
          exact finite.2 _ _ _ _ _ answered
      | _ => trivial
  | shared access =>
      cases access with
      | queuePop =>
          intro directory popped
          exact queued directory (mem_queue_of_popped popped)
      | _ => trivial

theorem upholds_bounding {environment : Environment} {capacity : Nat}
    {α : Type} (finite : FiniteListings environment listing) :
    Noted.Upholds (α := α) (bounding config listing)
      (fun _ _ => True)
      (fun (state : (machine environment capacity).State) notes =>
        QueueReached config state notes) where
  turn := by
    intro noted thread choice op next held queued running found permitted _
    refine ⟨expected_handle finite queued choice op, ?_⟩
    intro directory member
    rcases mem_queue_handle member with old | rfl
    · exact queued directory old
    · exact reached_of_bounded permitted
  drift := by
    intro noted drift queued _
    exact queued

/-- The bounds hold of a pool. -/
def BoundedPool (config : Config) (listing : Path → Nat)
    {environment : Environment} {capacity : Nat}
    (pool : Pool (machine environment capacity) Bool) : Prop :=
  ∃ notes,
    Noted.Sound (bounding config listing) (fun _ _ => True)
      (QueueReached config) ⟨pool, notes⟩

theorem bounded_step {environment : Environment} {capacity : Nat}
    (finite : FiniteListings environment listing)
    {resume : Bool → Option (Action Bool)}
    (resumes :
      Noted.Resumes (bounding config listing) resume (fun _ _ => True))
    (pool : Pool (machine environment capacity) Bool)
    (move : Move (machine environment capacity))
    (bounded : BoundedPool config listing pool) :
    BoundedPool config listing (Pool.step resume pool move) := by
  rcases bounded with ⟨notes, sound⟩
  exact ⟨_, sound.step resumes (upholds_bounding finite) trivial⟩

theorem bounded_allowed {environment : Environment} {capacity : Nat}
    (finite : FiniteListings environment listing)
    (pool : Pool (machine environment capacity) Bool)
    (choice : environment.Choice × QueueChoice) (held : Unit) (op : Op)
    (bounded : BoundedPool config listing pool) :
    (bounding config listing).allowed held op
      ((machine environment capacity).handle pool.state choice op).1 := by
  rcases bounded with ⟨notes, sound⟩
  exact expected_handle finite sound.property choice op

/-- `bc_io_walk_sequential`, with its recursion nested at most `levels` deep. -/
def walkSequentialTo (config : Config) (levels : Nat) : Action Bool :=
  match usableRoot config with
  | none => return false
  | some memory => do
      sequentialRecurse config levels (sequentialRoot config memory)
      let visitFailed ← shared .loadVisitFailed
      return !visitFailed

/-- The walk itself allows for far more levels than it needs. -/
theorem walkSequentialTo_maxPathLength :
    walkSequentialTo config maxPathLength = walkSequential config :=
  rfl

/-- A sequential walk with limited nesting that has not begun. -/
def sequentialPoolTo (environment : Environment) (config : Config)
    (levels : Nat) (situation : environment.Situation) :
    Pool (machine environment config.effectiveQueueCapacity) Bool where
  state := .initial situation
  threads := [walkSequentialTo config levels]

/-- The pointer to the root covers the length that is given with it. -/
def CoversRoot (config : Config) : Prop :=
  ∀ memory, config.root = some memory → config.rootLength ≤ memory.length

theorem reached_sequentialRoot (covers : CoversRoot config)
    {memory : List Byte} (usable : usableRoot config = some memory) :
    Reached config (sequentialRoot config memory) ∧
      (sequentialRoot config memory).path.length = config.rootLength := by
  rcases usableRoot_some usable with ⟨root, rooted, short, _⟩
  have length :
      (sequentialRoot config memory).path.length = config.rootLength := by
    rw [sequentialRoot, Directory.atPointer, List.length_take]
    exact Nat.min_eq_left (covers memory root)
  refine ⟨⟨?_, ?_, ?_, Or.inl (Or.inl ?_)⟩, length⟩
  · rw [length]
    exact rooted
  · rw [length]
    exact Nat.le_refl _
  · rw [length]
    omega
  · rw [Config.rootText, root]
    rfl

theorem reached_rootEntry (covers : CoversRoot config)
    {memory : List Byte} (usable : usableRoot config = some memory) :
    Reached config (rootEntry config memory) := by
  rcases usableRoot_some usable with ⟨root, rooted, short, _⟩
  have taken : (memory.take config.rootLength).length = config.rootLength := by
    rw [List.length_take]
    exact Nat.min_eq_left (covers memory root)
  have length :
      (rootEntry config memory).path.length = config.rootLength := by
    rw [rootEntry, Directory.atPointer, List.length_take,
      List.length_append, taken]
    exact Nat.min_eq_left (Nat.le_add_right _ _)
  refine ⟨?_, ?_, ?_, Or.inl (Or.inr ?_)⟩
  · rw [length]
    exact rooted
  · rw [length]
    exact Nat.le_refl _
  · rw [length]
    omega
  · rw [root]
    rfl

theorem keeps_walkSequentialTo (covers : CoversRoot config)
    {levels : Nat} (deep : config.depthLimit < levels) :
    Keeps (bounding config listing) (fun _ _ => True)
      (walkSequentialTo config levels) () := by
  unfold walkSequentialTo
  cases usable : usableRoot config with
  | none => trivial
  | some memory =>
      rcases reached_sequentialRoot covers usable with ⟨reached, length⟩
      have enough :
          (boundedSequential config listing).rank
            (sequentialRoot config memory) < levels := by
        change (maxPathLength - 1 - _) / 2 < levels
        rw [length]
        exact deep
      have ends :
          (boundedSequential config listing).Ends ()
            (sequentialRecurse config levels (sequentialRoot config memory))
            () :=
        SequentialOutline.ends_sequentialRecurse (Or.inr enough) reached
      refine Keeps.bind ends ?_
      intro _ _ _
      exact ⟨trivial, fun _ _ => trivial⟩

/-- The sequential walk, with nothing to note. -/
theorem sound_sequentialPoolTo {environment : Environment}
    (covers : CoversRoot config) {levels : Nat}
    (deep : config.depthLimit < levels)
    (situation : environment.Situation) :
    Noted.Sound (bounding config listing) (fun _ _ => True)
      (QueueReached config)
      ⟨sequentialPoolTo environment config levels situation, [()]⟩ := by
  refine ⟨.cons (keeps_walkSequentialTo covers deep) .nil, ?_⟩
  intro directory member
  cases member

/-- The parallel walk, with nothing to note. -/
theorem sound_parallelPool {environment : Environment}
    (covers : CoversRoot config) {memory : List Byte}
    (usable : usableRoot config = some memory) (workers : Nat)
    (situation : environment.Situation) :
    Noted.Sound (bounding config listing) (fun _ _ => True)
      (QueueReached config)
      ⟨parallelPool environment config memory workers situation,
        List.replicate workers ()⟩ := by
  refine ⟨(boundedParallel config listing).orderly_parallelPool trivial
    workers situation, ?_⟩
  intro directory member
  rw [List.mem_singleton.mp member]
  exact reached_rootEntry covers usable

/-- Nothing follows the program of a sequential walk. -/
theorem resumes_sequential {ν : Type}
    {discipline : Discipline Op Op.Response ν} {waiting : Bool → ν → Prop} :
    Noted.Resumes discipline sequentialResume waiting := by
  intro value program held resumed
  cases resumed

theorem settle_sequentialResume (program : Action Bool) :
    Pool.settle sequentialResume program = program := by
  cases program <;> rfl

/-- The recursion of the sequential walk is never cut off. -/
theorem sequentialPoolTo_unstuck {environment : Environment}
    (covers : CoversRoot config)
    (finite : FiniteListings environment listing) {levels : Nat}
    (deep : config.depthLimit < levels)
    (situation : environment.Situation)
    (moves : List (Move (machine environment
      config.effectiveQueueCapacity))) (thread : Nat) :
    (Pool.run sequentialResume
      (sequentialPoolTo environment config levels situation)
      moves).threads[thread]? ≠ some .stuck := by
  have sound :=
    (sound_sequentialPoolTo covers deep situation).run
      resumes_sequential (upholds_bounding finite)
      (Noted.each_of_forall _ moves fun _ _ _ => trivial)
  have unstuck := sound.orderly.not_stuck id thread
  rw [Noted.run_pool] at unstuck
  exact unstuck

/-- Under every fair schedule the sequential walk returns. -/
theorem sequentialPoolTo_returns {environment : Environment}
    (covers : CoversRoot config)
    (finite : FiniteListings environment listing) {levels : Nat}
    (deep : config.depthLimit < levels)
    (situation : environment.Situation)
    {schedule : Nat → Move (machine environment
      config.effectiveQueueCapacity)} (fair : Fair 1 schedule) :
    ∃ time value,
      (poolAt sequentialResume
        (sequentialPoolTo environment config levels situation) schedule
        time).threads[0]? = some (.ret value) := by
  have begins :
      (poolAt sequentialResume
        (sequentialPoolTo environment config levels situation) schedule
        0).threads[0]? =
          some (Pool.settle sequentialResume
            (walkSequentialTo config levels)) := by
    rw [settle_sequentialResume]
    rfl
  rcases (keeps_walkSequentialTo covers deep).reaches fair Nat.zero_lt_one
      id (bounded_step finite resumes_sequential) (bounded_allowed finite)
      ⟨_, sound_sequentialPoolTo covers deep situation⟩ begins with
    ⟨time, value, _, _, _, _, returned⟩
  rw [settle_sequentialResume] at returned
  exact ⟨time, value, returned⟩

/--
Whatever the file system looks like, and however it changes, as long as its
listings are finite: the sequential walk ends; its recursion nests no deeper
than half of the bytes that the root leaves in a path; and all paths below the
root that the two walks pass on stand in their buffers.
-/
theorem walk_bounded {environment : Environment}
    (covers : CoversRoot config)
    (finite : FiniteListings environment listing) {levels : Nat}
    (deep : config.depthLimit < levels)
    (situation : environment.Situation) :
    (∀ moves, ∀ thread : Nat,
        (Pool.run sequentialResume
          (sequentialPoolTo environment config levels situation)
          moves).threads[thread]? ≠ some .stuck) ∧
      (∀ schedule, Fair 1 schedule → ∃ time value,
        (poolAt sequentialResume
          (sequentialPoolTo environment config levels situation) schedule
          time).threads[0]? = some (.ret value)) ∧
      (∀ moves, ∀ event ∈
        Pool.log sequentialResume
          (sequentialPoolTo environment config levels situation) moves,
        Bounded config event.op) ∧
      ∀ workers pool,
        dispatchParallel environment config workers situation = some pool →
        ∀ moves, ∀ event ∈ Pool.log (workerResume config) pool moves,
          Bounded config event.op := by
  have unstuck :=
    sequentialPoolTo_unstuck covers finite deep situation
  refine ⟨unstuck, ?_, ?_, ?_⟩
  · intro schedule fair
    exact sequentialPoolTo_returns covers finite deep situation fair
  · intro moves event logged
    rcases (sound_sequentialPoolTo covers deep situation).permitted
        resumes_sequential (upholds_bounding finite)
        (Noted.each_of_forall _ moves fun _ _ _ => trivial) logged with
      ⟨_, bounded⟩
    exact bounded
  · intro workers pool dispatched moves event logged
    rcases dispatchParallel_some dispatched with ⟨memory, usable, rfl⟩
    rcases (sound_parallelPool covers usable workers situation).permitted
        (boundedParallel config listing).rests_workerResume
        (upholds_bounding finite)
        (Noted.each_of_forall _ moves fun _ _ _ => trivial) logged with
      ⟨_, bounded⟩
    exact bounded

/-- In a static world every listing is finite. -/
theorem finiteListings_world (world : World) :
    FiniteListings world.environment
      (fun path => (world.listing path).entries.length) := by
  constructor
  · intro _ _ path noFollow entries answered
    change world.answer (.openDirectory path noFollow) = _ at answered
    rw [answer_openDirectory] at answered
    cases failed : world.openError path noFollow with
    | some errno =>
        rw [failed] at answered
        cases answered
    | none =>
        rw [failed] at answered
        cases answered
        exact Nat.le_refl _
  · intro _ _ path index dirent answered
    simp only [World.answer] at answered
    cases found : (world.listing path).entries[index]? with
    | some other => exact (List.getElem?_eq_some_iff.mp found).1
    | none =>
        rw [found] at answered
        dsimp only at answered
        split at answered <;> cases answered

/-- A root `r` with a link `d` back to itself. -/
def cyclicWorld : World where
  openError _ _ := none
  listing _ := ⟨[⟨nestedDirectory.name, dtLnk⟩], none⟩
  stat _ _ noFollow :=
    if noFollow then .ok ⟨1, 3, 1, 0o120777, 5⟩
    else .ok ⟨1, 2, 4096, 0o040755, 5⟩
  filter _ := true
  shouldDescend _ := true

def cyclicConfig : Config :=
  { nestedConfig with followSymlinks := true }

/-- Following the link again and again, the walk ends. -/
theorem walk_bounded_cyclic :
    ∃ time value,
      (poolAt sequentialResume
        (sequentialPoolTo cyclicWorld.environment cyclicConfig 2048 ())
        (fun _ => .turn 0 ((), ⟨false, 0⟩)) time).threads[0]? =
          some (.ret value) := by
  have covers : CoversRoot cyclicConfig := by
    intro memory isRoot
    cases isRoot
    decide
  have fair :
      Fair 1 (fun _ => (.turn 0 ((), ⟨false, 0⟩) :
        Move (machine cyclicWorld.environment
          cyclicConfig.effectiveQueueCapacity))) := by
    intro thread isThread time
    refine ⟨time, ((), ⟨false, 0⟩), Nat.le_refl _, ?_⟩
    rw [Nat.lt_one_iff.mp isThread]
  exact (walk_bounded covers (finiteListings_world cyclicWorld) (by decide)
    ()).2.1 _ fair

end BcIo.Walk
