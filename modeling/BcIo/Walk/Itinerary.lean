import BcIo.Walk.Bounds
import BcIo.Walk.Visits

/-!
# The order of a walk

In a static world a walk has an itinerary: every entry before what lies below
it, and the entries of a directory as they are listed.  The sequential walk
follows the itinerary, and the workers of a parallel walk share it out among
them.  Both may break off, when they are asked to stop or when a visit fails,
and a worker may lack the reader it needs to list a directory itself.
-/

namespace BcIo.Walk

open BcIo.File
open BcIo.Foundation.Bookkeeping
open BcIo.Foundation.Interaction
open BcIo.Foundation.WorkerPool

variable {world : World} {config : Config}

/-! ## Itineraries -/

/-- What a record leads to: a visit, and what lies below the entry. -/
def leg (world : World) (config : Config)
    (further : Directory → List Entry) (directory : Directory)
    (dirent : Dirent) : List Entry :=
  (visitedAt world config directory dirent).toList ++
    (entered world config directory dirent).elim [] further

/-- The entries to be visited below a directory, in order. -/
def itinerary (world : World) (config : Config) :
    Nat → Directory → List Entry
  | 0, _ => []
  | levels + 1, directory =>
      match world.openError directory.text (!config.followSymlinks) with
      | some _ => []
      | none =>
          (world.listing directory.text).entries.flatMap
            (leg world config (itinerary world config levels) directory)

theorem leg_congr {directory : Directory} {dirent : Dirent}
    {first second : Directory → List Entry}
    (same : ∀ child, entered world config directory dirent = some child →
      first child = second child) :
    leg world config first directory dirent =
      leg world config second directory dirent := by
  unfold leg
  cases isEntered : entered world config directory dirent with
  | none => rfl
  | some child => exact congrArg _ (same child isEntered)

/-- Levels beyond those that suffice add nothing. -/
theorem itinerary_stable {levels more : Nat} {directory : Directory}
    (proper : Proper directory) (enough : Suffices levels directory)
    (enoughToo : Suffices more directory) :
    itinerary world config levels directory =
      itinerary world config more directory := by
  induction levels generalizing directory more with
  | zero => exact absurd enough (not_suffices_zero proper)
  | succ levels induction =>
      cases more with
      | zero => exact absurd enoughToo (not_suffices_zero proper)
      | succ more =>
          unfold itinerary
          cases openable :
              world.openError directory.text (!config.followSymlinks) with
          | some errno => rfl
          | none =>
              dsimp only
              apply List.flatMap_congr
              intro dirent listed
              apply leg_congr
              intro child isEntered
              rcases proper.child (mem_children openable listed isEntered)
                with ⟨properChild, longer⟩
              exact induction properChild (enough.child longer)
                (enoughToo.child longer)

/-- What there is to be visited below a directory. -/
def below (world : World) (config : Config) (directory : Directory) :
    List Entry :=
  itinerary world config maxPathLength directory

theorem itinerary_eq_below {levels : Nat} {directory : Directory}
    (proper : Proper directory) (enough : Suffices levels directory) :
    itinerary world config levels directory =
      below world config directory :=
  itinerary_stable proper enough (Nat.le_add_left _ _)

/-! ## Following an itinerary -/

/-- Whether a thread may still visit. -/
inductive Course where
  | running
  /-- A queue has refused a directory with so many entries below it. -/
  | refused (entries : Nat)
  /-- A visit has returned `false`, which is to be stored. -/
  | failing
  /-- It has seen or set the flag. -/
  | flagged
  /-- It has been asked to stop. -/
  | stopped
  deriving DecidableEq, Repr

/-- What a thread has still to visit. -/
structure Tour where
  rest : List Entry
  course : Course

namespace Tour

variable (world config)

/--
A visit takes an entry off; a push hands over all that lies below.  What lies
below a refused directory is given up when there is no reader to list it with.
-/
def note (held : Tour) : (op : Op) → op.Response → Tour
  | .outside (.visit _), visited =>
      ⟨held.rest.tail, if visited = true then held.course else .failing⟩
  | .outside .direntReaderCreate, created =>
      match held.course with
      | .refused entries =>
          ⟨if created = true then held.rest else held.rest.drop entries,
            .running⟩
      | _ => held
  | .outside .shouldStopCheck, asked =>
      if asked = true then { held with course := .stopped } else held
  | .shared .storeVisitFailed, _ => { held with course := .flagged }
  | .shared .loadVisitFailed, flag =>
      if flag = true then { held with course := .flagged } else held
  | .shared (.queuePush directory), accepted =>
      if accepted = true then
        { held with
          rest := held.rest.drop (below world config directory).length }
      else
        { held with
          course := .refused (below world config directory).length }
  | .shared .queuePop, popped =>
      match popped with
      | some directory => { held with rest := below world config directory }
      | none => held
  | _, _ => held

/-- The next visit is the next entry; `shares` allows to use the queue. -/
def permits (shares : Prop) (held : Tour) : Op → Prop
  | .outside (.visit entry) =>
      held.course = .running ∧ held.rest.head? = some entry
  | .shared .loadVisitFailed => held.course ≠ .failing
  | .shared (.queuePush directory) =>
      shares ∧ Proper directory ∧ below world config directory <+: held.rest
  | .shared .queuePop => shares
  | _ => True

/--
A static world answers, except that visits may fail, stops be asked and readers
be missing.  A thread that shares nothing has its reader, and is asked to stop
for good.
-/
def allowed (shares : Prop) (held : Tour) : (op : Op) → op.Response → Prop
  | .outside .shouldStopCheck, asked =>
      ¬ shares → held.course = .stopped → asked = true
  | .outside .direntReaderCreate, created => ¬ shares → created = true
  | .outside (.visit _), _ => True
  | .outside call, response => response = world.answer call
  | .shared .loadVisitFailed, flag => held.course = .flagged → flag = true
  | .shared .queuePop, popped =>
      ∀ directory, popped = some directory → Proper directory
  | _, _ => True

end Tour

/-- Visiting in the order of the itinerary. -/
def touring (world : World) (config : Config) (shares : Prop) :
    Discipline Op Op.Response Tour where
  note := Tour.note world config
  permits := Tour.permits world config shares
  allowed := Tour.allowed world shares
  cut := False

variable {shares : Prop}

/-- Operations that a static world answers and that leave the tour alone. -/
def Routine : Op → Prop
  | .outside .shouldStopCheck => False
  | .outside .direntReaderCreate => False
  | .outside (.visit _) => False
  | .outside _ => True
  | .shared (.count _) => True
  | .shared _ => False

theorem Inspecting.routine (op : Op) (inspecting : Inspecting op) :
    Routine op := by
  cases op with
  | outside call =>
      cases call with
      | fstatat path name noFollow => trivial
      | onError path stage errno => trivial
      | _ => exact inspecting.elim
  | shared access =>
      cases access with
      | count counter => trivial
      | _ => exact inspecting.elim

theorem Routine.determined {op : Op} (routine : Routine op)
    (shares : Prop) (held : Tour) :
    Tour.permits world config shares held op ∧
      ∀ response, Tour.allowed world shares held op response →
        response = world.answers op ∧
          Tour.note world config held op response = held := by
  cases op with
  | outside call =>
      cases call with
      | shouldStopCheck => exact routine.elim
      | direntReaderCreate => exact routine.elim
      | visit entry => exact routine.elim
      | _ => exact ⟨trivial, fun response allowed => ⟨allowed, rfl⟩⟩
  | shared access =>
      cases access with
      | count counter => exact ⟨trivial, fun response _ => ⟨rfl, rfl⟩⟩
      | _ => exact routine.elim

/-- A part that only makes routine calls does what it does in a static world. -/
theorem keeps_routine {α : Type} {program : Action α} {value : α}
    (returns : Program.Returns world.answers Routine program value)
    (held : Tour) :
    Keeps (touring world config shares)
      (fun result last => result = value ∧ last = held) program held := by
  rcases returns with ⟨returned, calls⟩
  induction program with
  | ret other => exact ⟨Option.some.inj returned, rfl⟩
  | stuck => cases returned
  | call op next induction =>
      rw [Program.trace_call, List.forall_mem_cons] at calls
      rcases calls.1.determined shares held with ⟨permitted, determined⟩
      refine ⟨permitted, ?_⟩
      intro response isAllowed
      rcases determined response isAllowed with ⟨rfl, same⟩
      change Keeps _ _ _ (Tour.note world config held op _)
      rw [same]
      exact induction _ returned calls.2

theorem routine_outside (call : Call) (routine : Routine (.outside call)) :
    Program.Returns world.answers Routine (outside call)
      (world.answer call) :=
  .call routine (.ret _)

theorem routine_count (counter : Counter) :
    Program.Returns world.answers Routine (shared (.count counter)) () :=
  .call trivial (.ret _)

theorem routine_reportError (path : Path) (stage : Stage) (errno : Errno) :
    Program.Returns world.answers Routine
      (reportError config path stage errno) () :=
  (inspects_reportError path stage errno).mono Inspecting.routine

theorem routine_passesFilter (entry : Entry) :
    Program.Returns world.answers Routine (passesFilter config entry)
      (accepted world config entry) := by
  unfold passesFilter accepted
  cases config.hasFilter with
  | true => exact routine_outside _ trivial
  | false => exact .ret _

theorem routine_wantsDescend (entry : Entry) :
    Program.Returns world.answers Routine (wantsDescend config entry)
      (descends world config entry) := by
  unfold wantsDescend descends
  cases config.hasShouldDescend with
  | true => exact routine_outside _ trivial
  | false => exact .ret _

/-! ### One entry -/

/-- The thread has broken off, or has come to what is `later`. -/
def Arrives (ended : Course → Prop) (later : List Entry) (last : Tour) :
    Prop :=
  ended last.course ∨ last = ⟨later, .running⟩

/-- Unless the thread has broken off, its loop goes on. -/
def Proceeds (ended : Course → Prop) (later : List Entry) (goesOn : Bool)
    (last : Tour) : Prop :=
  ended last.course ∨ goesOn = true ∧ last = ⟨later, .running⟩

section Parts

variable {ended : Course → Prop} (flagged : ended .flagged)

include flagged in
theorem keeps_visitEntry_touring (entry : Entry) (later : List Entry) :
    Keeps (touring world config shares)
      (fun visited last =>
        if visited = true then last = ⟨later, .running⟩
        else ended last.course)
      (visitEntry entry) ⟨entry :: later, .running⟩ := by
  refine ⟨⟨rfl, rfl⟩, ?_⟩
  intro visited _
  cases visited with
  | true => exact rfl
  | false => exact ⟨trivial, fun _ _ => flagged⟩

variable (hasVisit : config.hasVisit = true)
  {descend : Directory → Action Unit} {further : Directory → List Entry}

include flagged hasVisit in
theorem keeps_enterDirectory_touring {entry : Entry} {later : List Entry}
    (descended : descends world config entry = true →
      Keeps (touring world config shares)
        (fun _ last => Arrives ended later last)
        (descend entry.directory)
        ⟨further entry.directory ++ later, .running⟩) :
    Keeps (touring world config shares) (Proceeds ended later)
      (enterDirectory config descend entry)
      ⟨entry ::
          (if descends world config entry = true then
            further entry.directory ++ later
          else later),
        .running⟩ := by
  unfold enterDirectory visitDirectory
  rw [if_pos hasVisit]
  refine Keeps.bind (keeps_visitEntry_touring flagged entry _) ?_
  intro visited last left
  cases visited with
  | false => exact Or.inl left
  | true =>
      have isLeft : last = ⟨_, .running⟩ := left
      subst isLeft
      refine Keeps.bind (keeps_routine (routine_wantsDescend entry) _) ?_
      rintro _ _ ⟨rfl, rfl⟩
      cases wanted : descends world config entry with
      | false => exact Or.inr ⟨rfl, rfl⟩
      | true =>
          refine Keeps.bind (descended wanted) ?_
          rintro _ last (isEnded | rfl)
          · exact Or.inl isEnded
          · exact Or.inr ⟨rfl, rfl⟩

include flagged hasVisit in
/-- One record, from its place in the itinerary on. -/
theorem keeps_handleEntry_touring {directory : Directory}
    {dirent : Dirent} {later : List Entry}
    (descended : ∀ child,
      entered world config directory dirent = some child →
      Keeps (touring world config shares)
        (fun _ last => Arrives ended later last) (descend child)
        ⟨further child ++ later, .running⟩) :
    Keeps (touring world config shares) (Proceeds ended later)
      (handleEntry config descend directory dirent)
      ⟨leg world config further directory dirent ++ later, .running⟩ := by
  have passes :
      ∀ {rest : List Entry}, rest = later →
        Proceeds ended later true ⟨rest, .running⟩ := by
    rintro rest rfl
    exact Or.inr ⟨rfl, rfl⟩
  unfold handleEntry
  refine Keeps.bind
    (keeps_routine
      ((inspects_examineEntry directory dirent).mono Inspecting.routine) _)
    ?_
  rintro _ _ ⟨rfl, rfl⟩
  cases found : described world config directory dirent with
  | none => exact passes (by simp [leg, visitedAt, entered, found])
  | some entry =>
      refine Keeps.bind (keeps_routine (routine_passesFilter entry) _) ?_
      rintro _ _ ⟨rfl, rfl⟩
      cases passed : accepted world config entry with
      | false =>
          refine Keeps.bind (keeps_routine (routine_count _) _) ?_
          rintro _ _ ⟨_, rfl⟩
          exact passes (by simp [leg, visitedAt, entered, found, passed])
      | true =>
          rw [if_pos rfl]
          split
          · rename_i isFile
            have first :
                leg world config further directory dirent = [entry] := by
              simp [leg, visitedAt, entered, found, passed, isFile]
            rw [first]
            refine Keeps.bind (keeps_routine (routine_count _) _) ?_
            rintro _ _ ⟨_, rfl⟩
            refine (keeps_visitEntry_touring flagged entry later).mono ?_
            intro visited last left
            cases visited with
            | true => exact Or.inr ⟨rfl, left⟩
            | false => exact Or.inl left
          · rename_i isDirectory
            have first :
                leg world config further directory dirent ++ later =
                  entry ::
                    (if descends world config entry = true then
                      further entry.directory ++ later
                    else later) := by
              cases wanted : descends world config entry <;>
                simp [leg, visitedAt, entered, found, passed, isDirectory,
                  wanted]
            rw [first]
            refine keeps_enterDirectory_touring flagged hasVisit ?_
            intro wanted
            exact descended _
              (by simp [entered, found, passed, isDirectory, wanted])
          · rename_i isSymlink
            exact passes
              (by simp [leg, visitedAt, entered, found, isSymlink])
          · rename_i isOther
            exact passes
              (by simp [leg, visitedAt, entered, found, isOther])

end Parts

/-! ### One directory -/

/-- How a thread looks before each step, and what it then knows. -/
structure Looks (world : World) (config : Config) (shares : Prop)
    (ended : Course → Prop) (halted : Action Bool) : Prop where
  flagged : ended .flagged
  running : ∀ rest, Keeps (touring world config shares)
    (fun isHalted last =>
      if isHalted = true then ended last.course
      else last = ⟨rest, .running⟩)
    halted ⟨rest, .running⟩
  ended : ∀ held, ended held.course → Keeps (touring world config shares)
    (fun isHalted last => isHalted = true ∧ ended last.course) halted held

section Loop

variable {ended : Course → Prop} {halted : Action Bool}
  (looks : Looks world config shares ended halted)
  (hasVisit : config.hasVisit = true)
  {descend : Directory → Action Unit} {further : Directory → List Entry}

include looks in
/-- A thread that has broken off leaves its loop. -/
theorem keeps_listingLoop_ended (directory : Directory) (calls index : Nat)
    {held : Tour} (isEnded : ended held.course) :
    Keeps (touring world config shares) (fun _ last => ended last.course)
      (listingLoop config halted descend directory (calls + 1) index)
      held := by
  rw [listingLoop]
  refine Keeps.bind (looks.ended held isEnded) ?_
  rintro _ last ⟨rfl, stays⟩
  exact stays

include looks hasVisit in
/-- The records that are left, from their place in the itinerary on. -/
theorem keeps_listingLoop_touring (directory : Directory)
    {rest : List Dirent} {index : Nat}
    (listed : (world.listing directory.text).entries.drop index = rest)
    (later : List Entry)
    (descended : ∀ dirent ∈ rest, ∀ child later,
      entered world config directory dirent = some child →
      Keeps (touring world config shares)
        (fun _ last => Arrives ended later last) (descend child)
        ⟨further child ++ later, .running⟩) :
    Keeps (touring world config shares)
      (fun _ last => Arrives ended later last)
      (listingLoop config halted descend directory (rest.length + 1) index)
      ⟨rest.flatMap (leg world config further directory) ++ later,
        .running⟩ := by
  induction rest generalizing index with
  | nil =>
      rw [List.length_nil, listingLoop]
      refine Keeps.bind (looks.running _) ?_
      intro isHalted last left
      cases isHalted with
      | true => exact Or.inl left
      | false =>
          have isLeft : last = ⟨later, .running⟩ := left
          subst isLeft
          refine Keeps.bind
            (keeps_routine
              (routine_outside (.direntReaderNext directory.text index)
                trivial) _) ?_
          rintro _ _ ⟨rfl, rfl⟩
          rw [answer_next_of_end listed]
          cases (world.listing directory.text).failure with
          | none => exact Or.inr rfl
          | some errno =>
              refine (keeps_routine (routine_reportError _ _ _) _).mono ?_
              rintro _ _ ⟨_, rfl⟩
              exact Or.inr rfl
  | cons dirent rest induction =>
      rw [List.forall_mem_cons] at descended
      rw [List.length_cons, listingLoop]
      refine Keeps.bind (looks.running _) ?_
      intro isHalted last left
      cases isHalted with
      | true => exact Or.inl left
      | false =>
          have isLeft : last = ⟨_, .running⟩ := left
          subst isLeft
          refine Keeps.bind
            (keeps_routine
              (routine_outside (.direntReaderNext directory.text index)
                trivial) _) ?_
          rintro _ _ ⟨rfl, rfl⟩
          rw [answer_next_of_drop listed, List.flatMap_cons,
            List.append_assoc]
          refine Keeps.bind
            (keeps_handleEntry_touring looks.flagged hasVisit
              fun child isEntered => descended.1 child _ isEntered) ?_
          rintro goesOn last (isEnded | ⟨rfl, rfl⟩)
          · cases goesOn with
            | false => exact Or.inl isEnded
            | true =>
                refine (keeps_listingLoop_ended looks directory _ _
                  isEnded).mono ?_
                intro _ last stays
                exact Or.inl stays
          · exact induction (drop_succ_of_drop listed) descended.2

include looks hasVisit in
/-- An open directory is listed and closed. -/
theorem keeps_listed_touring {directory : Directory}
    (openable :
      world.openError directory.text (!config.followSymlinks) = none)
    (later : List Entry)
    (descended : ∀ child ∈ children world config directory, ∀ later,
      Keeps (touring world config shares)
        (fun _ last => Arrives ended later last) (descend child)
        ⟨further child ++ later, .running⟩) :
    Keeps (touring world config shares)
      (fun _ last => Arrives ended later last)
      (listingLoop config halted descend directory
          ((world.listing directory.text).entries.length + 1) 0 >>=
        fun _ => outside (.closeDirectory directory.text))
      ⟨(world.listing directory.text).entries.flatMap
          (leg world config further directory) ++ later,
        .running⟩ := by
  refine Keeps.bind
    (keeps_listingLoop_touring looks hasVisit directory List.drop_zero later
      ?_) ?_
  · intro dirent listed child later isEntered
    exact descended child (mem_children openable listed isEntered) later
  · intro _ last arrives
    refine (keeps_routine
      (routine_outside (.closeDirectory directory.text) trivial) _).mono ?_
    rintro _ _ ⟨_, rfl⟩
    exact arrives

end Loop

/-! ### The sequential walk -/

/-- A sequential walk breaks off when it is flagged or asked to stop. -/
def Interrupted (config : Config) (course : Course) : Prop :=
  course = .flagged ∨
    course = .stopped ∧ config.hasShouldStopCheck = true

theorem looks_sequentialHalted :
    Looks world config False (Interrupted config)
      (sequentialHalted config) where
  flagged := Or.inl rfl
  running rest := by
    refine ⟨Course.noConfusion, ?_⟩
    intro flag _
    cases flag with
    | true => exact Or.inl rfl
    | false =>
        change Keeps (touring world config False) _ (shouldStop config)
          (⟨rest, .running⟩ : Tour)
        unfold shouldStop
        split
        · rename_i hasCheck
          refine ⟨trivial, ?_⟩
          intro asked _
          cases asked with
          | true => exact Or.inr ⟨rfl, hasCheck⟩
          | false => exact rfl
        · exact rfl
  ended held isEnded := by
    rcases held with ⟨rest, course⟩
    rcases isEnded with isFlagged | ⟨isStopped, hasCheck⟩
    · cases isFlagged
      refine ⟨Course.noConfusion, ?_⟩
      intro flag allowed
      cases allowed rfl
      exact ⟨rfl, Or.inl rfl⟩
    · cases isStopped
      refine ⟨Course.noConfusion, ?_⟩
      intro flag _
      cases flag with
      | true => exact ⟨rfl, Or.inl rfl⟩
      | false =>
          change Keeps (touring world config False) _ (shouldStop config)
            (⟨rest, .stopped⟩ : Tour)
          rw [shouldStop, if_pos hasCheck]
          refine ⟨trivial, ?_⟩
          intro asked allowed
          cases allowed id rfl
          exact ⟨rfl, Or.inr ⟨rfl, hasCheck⟩⟩

theorem keeps_sequentialRecurse_touring (hasVisit : config.hasVisit = true)
    {levels : Nat} {directory : Directory} (proper : Proper directory)
    (enough : Suffices levels directory) (later : List Entry) :
    Keeps (touring world config False)
      (fun _ last => Arrives (Interrupted config) later last)
      (sequentialRecurse config levels directory)
      ⟨itinerary world config levels directory ++ later, .running⟩ := by
  induction levels generalizing directory later with
  | zero => exact absurd enough (not_suffices_zero proper)
  | succ levels induction =>
      change Keeps _ _ (sequentialBody config _ directory) _
      unfold sequentialBody itinerary
      refine Keeps.bind (looks_sequentialHalted.running _) ?_
      intro isHalted last left
      cases isHalted with
      | true => exact Or.inl left
      | false =>
          have isLeft : last = ⟨_, .running⟩ := left
          subst isLeft
          refine Keeps.bind
            (keeps_routine
              (routine_outside
                (.openDirectory directory.text (!config.followSymlinks))
                trivial) _) ?_
          rintro _ _ ⟨rfl, rfl⟩
          rw [answer_openDirectory]
          cases openable :
              world.openError directory.text (!config.followSymlinks) with
          | some errno =>
              refine (keeps_routine (routine_reportError _ _ _) _).mono ?_
              rintro _ _ ⟨_, rfl⟩
              exact Or.inr rfl
          | none =>
              refine Keeps.bind (keeps_routine (routine_count _) _) ?_
              rintro _ _ ⟨_, rfl⟩
              refine ⟨trivial, ?_⟩
              intro created isCreated
              cases isCreated id
              refine keeps_listed_touring looks_sequentialHalted hasVisit
                openable later ?_
              intro child isChild later
              rcases proper.child isChild with ⟨properChild, longer⟩
              exact induction properChild (enough.child longer) later

/-- A walk that returns `true` has broken off or visited everything. -/
def Toured (config : Config) (value : Bool) (last : Tour) : Prop :=
  value = true → usableRoot config ≠ none →
    last.course = .stopped ∨ last.rest = []

theorem keeps_walkSequential_touring {memory : List Byte}
    (usable : usableRoot config = some memory)
    (terminated : Terminated memory config.rootLength) :
    Keeps (touring world config False) (Toured config)
      (walkSequential config)
      ⟨below world config (sequentialRoot config memory), .running⟩ := by
  rcases proper_sequentialRoot usable terminated with ⟨proper, _⟩
  rcases usableRoot_some usable with ⟨_, _, _, hasVisit, _⟩
  have recursed :=
    @keeps_sequentialRecurse_touring world config hasVisit
      maxPathLength _ proper (Nat.le_add_left _ _) []
  rw [List.append_nil] at recursed
  unfold walkSequential
  rw [usable]
  refine Keeps.bind recursed ?_
  rintro _ ⟨rest, course⟩ arrives
  refine ⟨?_, ?_⟩
  · rintro rfl
    rcases arrives with (isFlagged | ⟨isStopped, _⟩) | isThere
    · cases isFlagged
    · cases isStopped
    · cases isThere
  · intro flag allowed
    cases flag with
    | true => exact fun impossible => Bool.noConfusion impossible
    | false =>
        intro _ _
        rcases arrives with (isFlagged | ⟨isStopped, _⟩) | isThere
        · cases allowed isFlagged
        · exact Or.inl isStopped
        · cases isThere
          exact Or.inr rfl

/-! ### The parallel walk -/

/-- A worker breaks off when it has seen the flag. -/
def Flagged (course : Course) : Prop :=
  course = .flagged

theorem looks_parallelHalted :
    Looks world config shares Flagged parallelHalted where
  flagged := rfl
  running rest := by
    refine ⟨Course.noConfusion, ?_⟩
    intro flag _
    cases flag with
    | true => exact rfl
    | false => exact rfl
  ended held isEnded := by
    rcases held with ⟨rest, course⟩
    cases isEnded
    refine ⟨Course.noConfusion, ?_⟩
    intro flag allowed
    cases allowed rfl
    exact ⟨rfl, rfl⟩

/-- What lies below a directory is handed over, visited here or given up. -/
theorem keeps_enqueueDirectory_touring {process : Directory → Action Unit}
    {directory : Directory} {later : List Entry} (proper : Proper directory)
    (processed :
      Keeps (touring world config True)
        (fun _ last => Arrives Flagged later last) (process directory)
        ⟨below world config directory ++ later, .running⟩) :
    Keeps (touring world config True)
      (fun _ last => Arrives Flagged later last)
      (enqueueDirectory config process directory)
      ⟨below world config directory ++ later, .running⟩ := by
  refine ⟨trivial, fun _ _ => ?_⟩
  refine ⟨⟨trivial, proper, List.prefix_append _ _⟩, ?_⟩
  intro accepted _
  cases accepted with
  | true =>
      exact Or.inr (congrArg (fun rest => (⟨rest, .running⟩ : Tour))
        List.drop_left)
  | false =>
      refine ⟨trivial, fun _ _ => ⟨trivial, ?_⟩⟩
      intro created _
      cases created with
      | true => exact processed
      | false =>
          refine (keeps_routine (routine_reportError _ _ _) _).mono ?_
          rintro _ _ ⟨_, rfl⟩
          exact Or.inr (congrArg (fun rest => (⟨rest, .running⟩ : Tour))
            List.drop_left)

theorem keeps_processDirectory_touring (hasVisit : config.hasVisit = true)
    {levels : Nat} {directory : Directory} (proper : Proper directory)
    (enough : Suffices levels directory) (later : List Entry) :
    Keeps (touring world config True)
      (fun _ last => Arrives Flagged later last)
      (processDirectory config levels directory)
      ⟨itinerary world config levels directory ++ later, .running⟩ := by
  induction levels generalizing directory later with
  | zero => exact absurd enough (not_suffices_zero proper)
  | succ levels induction =>
      change Keeps _ _ (processBody config _ directory) _
      unfold processBody itinerary
      refine Keeps.bind (looks_parallelHalted.running _) ?_
      intro isHalted last left
      cases isHalted with
      | true => exact Or.inl left
      | false =>
          have isLeft : last = ⟨_, .running⟩ := left
          subst isLeft
          refine Keeps.bind
            (keeps_routine
              (routine_outside
                (.openDirectory directory.text (!config.followSymlinks))
                trivial) _) ?_
          rintro _ _ ⟨rfl, rfl⟩
          rw [answer_openDirectory]
          cases openable :
              world.openError directory.text (!config.followSymlinks) with
          | some errno =>
              refine (keeps_routine (routine_reportError _ _ _) _).mono ?_
              rintro _ _ ⟨_, rfl⟩
              exact Or.inr rfl
          | none =>
              refine Keeps.bind (keeps_routine (routine_count _) _) ?_
              rintro _ _ ⟨_, rfl⟩
              refine keeps_listed_touring looks_parallelHalted hasVisit
                openable later ?_
              intro child isChild later
              rcases proper.child isChild with ⟨properChild, longer⟩
              have processed :=
                induction properChild (enough.child longer) later
              rw [itinerary_eq_below properChild (enough.child longer)]
                at processed ⊢
              exact keeps_enqueueDirectory_touring properChild processed

/-- A worker that goes on has seen the flag, or is free to visit. -/
def Onward (value : Bool) (last : Tour) : Prop :=
  value = true → last.course = .flagged ∨ last.course = .running

theorem keeps_workerTurn_touring (hasVisit : config.hasVisit = true)
    {held : Tour} (onward : Onward true held) :
    Keeps (touring world config True) Onward (workerTurn config) held := by
  have notFailing : ∀ {tour : Tour}, Onward true tour →
      tour.course ≠ .failing := by
    intro tour onward isFailing
    rcases onward rfl with isFlagged | isRunning
    · rw [isFailing] at isFlagged
      cases isFlagged
    · rw [isFailing] at isRunning
      cases isRunning
  have polled :
      Keeps (touring world config True)
        (fun isStopped last => isStopped = false → last = held)
        (shouldStop config) held := by
    unfold shouldStop
    split
    · refine ⟨trivial, ?_⟩
      intro asked _
      cases asked with
      | true => exact fun impossible => Bool.noConfusion impossible
      | false => exact fun _ => rfl
    · exact fun _ => rfl
  unfold workerTurn
  refine Keeps.bind polled ?_
  intro isStopped last goesOn
  cases isStopped with
  | true => exact fun impossible => Bool.noConfusion impossible
  | false =>
      cases goesOn rfl
      refine ⟨notFailing onward, ?_⟩
      intro flag allowed
      cases flag with
      | true => exact fun impossible => Bool.noConfusion impossible
      | false =>
          have isRunning : held.course = .running := by
            rcases onward rfl with isFlagged | isRunning
            · cases allowed isFlagged
            · exact isRunning
          refine ⟨trivial, ?_⟩
          intro popped proper
          cases popped with
          | none => exact ⟨trivial, fun _ _ _ => Or.inr isRunning⟩
          | some directory =>
              have processed :=
                @keeps_processDirectory_touring world config hasVisit
                  maxPathLength directory (proper directory rfl)
                  (Nat.le_add_left _ _) []
              rw [List.append_nil] at processed
              change Keeps (touring world config True) Onward
                (workerProcess config directory)
                ⟨below world config directory, held.course⟩
              rw [isRunning]
              refine Keeps.bind processed ?_
              rintro _ last (isFlagged | rfl)
              · exact ⟨trivial, fun _ _ _ => Or.inl isFlagged⟩
              · exact ⟨trivial, fun _ _ _ => Or.inr rfl⟩

theorem keeps_workerStart_touring :
    Keeps (touring world config True) Onward (workerStart config)
      ⟨[], .running⟩ := by
  refine ⟨trivial, ?_⟩
  intro created _
  cases created with
  | true => exact fun _ => Or.inr rfl
  | false =>
      refine ⟨trivial, fun _ _ => ⟨trivial, fun _ _ => ?_⟩⟩
      split
      · exact ⟨trivial, fun _ _ => Bool.noConfusion⟩
      · exact Bool.noConfusion

theorem resumes_touring (hasVisit : config.hasVisit = true) :
    Noted.Resumes (touring world config True) (workerResume config)
      Onward := by
  intro value program held resumed onward
  cases value with
  | false => cases resumed
  | true =>
      cases resumed
      exact keeps_workerTurn_touring hasVisit onward

end BcIo.Walk
