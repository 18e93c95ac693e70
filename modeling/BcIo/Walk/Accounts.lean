import BcIo.Walk.Parallel

/-!
# Three accounts of a parallel walk

What can be observed of a walk, how many operations are left, and how the count
of outstanding directories changes, each as a ledger.  The observable worth of a
directory is what the sequential walk does below it, and it counts for one
outstanding directory.
-/

namespace BcIo.Walk

open BcIo.File
open BcIo.Foundation.MachineWord
open BcIo.Foundation.Interaction
open BcIo.Foundation.WorkerPool

/-! ## Three ledgers -/

/-- What can be observed of a walk: its calls and its counters. -/
def observable : Op → Bool
  | .outside .direntReaderCreate => false
  | .outside _ => true
  | .shared (.count _) => true
  | .shared _ => false

/-- What an operation costs: nothing while a worker looks for a directory. -/
def cost : Op → Nat
  | .outside .direntReaderCreate => 0
  | .shared .loadVisitFailed => 0
  | .shared .queuePop => 0
  | .shared .loadOutstanding => 0
  | _ => 1

/-- The ledger of what can be observed. -/
def observedLedger : Ledger (Multiset Op) where
  toll op := if observable op = true then {op} else 0
  pushed := 0
  push _ := rfl
  load := rfl
  create := rfl
  pop := rfl
  check := rfl
  lowers := rfl

/-- The ledger of operations. -/
def costLedger : Ledger Nat where
  toll := cost
  pushed := 1
  push _ := rfl
  load := rfl
  create := rfl
  pop := rfl
  check := rfl
  lowers := rfl

/-- The ledger of the count of outstanding directories. -/
def countLedger : Ledger Int where
  toll := lowering
  pushed := 0
  push _ := rfl
  load := rfl
  create := rfl
  pop := rfl
  check := rfl
  lowers := rfl

theorem sum_observed (ops : List Op) :
    (ops.map observedLedger.toll).sum =
      (ops.filter observable : Multiset Op) := by
  induction ops with
  | nil => rfl
  | cons op ops induction =>
      rw [List.map_cons, List.sum_cons, induction, List.filter_cons]
      change (if observable op = true then _ else _) + _ = _
      split <;> simp

variable {world : World} {config : Config}

/-- Listing loops that look at different things, for nothing. -/
theorem total_listingLoop_halted {M : Type} [AddCommMonoid M]
    (toll : Op → M) {first second : Action Bool}
    (goesOn : Program.Returns world.answers Plain first false)
    (goesOnToo : Program.Returns world.answers Plain second false)
    (free : first.total world.answers toll = 0)
    (freeToo : second.total world.answers toll = 0) (directory : Directory)
    {rest : List Dirent} {index : Nat}
    (listed : (world.listing directory.text).entries.drop index = rest) :
    (listingLoop config first passOver directory (rest.length + 1)
        index).total world.answers toll =
      (listingLoop config second passOver directory (rest.length + 1)
        index).total world.answers toll := by
  induction rest generalizing index with
  | nil =>
      rw [List.length_nil, Nat.zero_add,
        total_listingLoop_end toll passOver goesOn directory listed,
        total_listingLoop_end toll passOver goesOnToo directory listed, free,
        freeToo]
  | cons dirent rest induction =>
      have handled :
          (handleEntry config passOver directory dirent).outcome
            world.answers = some true :=
        judges_handleEntry (Program.outcomeJudgement world.answers Plain)
          directory dirent fun _ _ => rfl
      rw [List.length_cons,
        total_listingLoop_cons toll goesOn directory listed handled,
        total_listingLoop_cons toll goesOnToo directory listed handled,
        induction (drop_succ_of_drop listed), free, freeToo]

/-- Apart from free operations the two walks do the same in a directory. -/
theorem total_bodies {M : Type} [AddCommMonoid M] (toll : Op → M)
    (load : toll (.shared .loadVisitFailed) = 0)
    (create : toll (.outside .direntReaderCreate) = 0)
    (check : config.hasShouldStopCheck = true →
      toll (.outside .shouldStopCheck) = 0) (directory : Directory) :
    (processBody config passOver directory).total world.answers toll =
      (sequentialBody config passOver directory).total world.answers
        toll := by
  have goesOn :
      Program.Returns world.answers Plain (sequentialHalted config) false :=
    returns_sequentialHalted
  have free : (sequentialHalted config).total world.answers toll = 0 := by
    unfold sequentialHalted
    rw [total_shared_bind, load, zero_add]
    change (shouldStop config).total world.answers toll = 0
    unfold shouldStop
    split
    · rename_i checked
      refine (Program.total_call _ _ _ _).trans ?_
      rw [check checked, Program.total_ret, add_zero]
    · rfl
  have freeToo : parallelHalted.total world.answers toll = 0 := by
    refine (Program.total_call _ _ _ _).trans ?_
    rw [load, zero_add]
    rfl
  have looped :
      ∀ {halted : Action Bool},
        Program.Returns world.answers Plain halted false →
        (listingLoop config halted passOver directory
          ((world.listing directory.text).entries.length + 1) 0).outcome
            world.answers = some () :=
    fun goesOn =>
      judges_listingLoop (Program.outcomeJudgement world.answers Plain)
        goesOn directory List.drop_zero fun _ _ _ _ => rfl
  unfold processBody sequentialBody
  rw [Program.total_bind _ _ returns_parallelHalted.outcome,
    Program.total_bind _ _ goesOn.outcome, free, freeToo]
  congr 1
  rw [if_neg Bool.false_ne_true, if_neg Bool.false_ne_true,
    total_outside_bind, total_outside_bind, answer_openDirectory]
  congr 1
  cases world.openError directory.text (!config.followSymlinks) with
  | some errno => rfl
  | none =>
      dsimp only
      rw [total_shared_bind, total_shared_bind]
      congr 1
      rw [total_outside_bind, create, zero_add]
      refine (Program.total_bind _ _ (looped returns_parallelHalted) _).trans
        ?_
      refine Eq.trans ?_
        (Program.total_bind _ _ (looped goesOn) _).symm
      congr 1
      exact total_listingLoop_halted toll returns_parallelHalted goesOn
        freeToo free directory List.drop_zero

/-- What can be observed of a queued directory is what the sequential walk does. -/
theorem value_observed (noCheck : config.hasShouldStopCheck = false)
    (directory : Directory) :
    observedLedger.value world config directory =
      treeSum world config
        (fun directory =>
          (sequentialBody config passOver directory).total world.answers
            observedLedger.toll)
        maxPathLength directory := by
  unfold Ledger.value
  congr 1
  funext directory
  rw [Ledger.weight,
    total_bodies _ observedLedger.load observedLedger.create
      (fun checked => by rw [noCheck] at checked; cases checked)]
  change 0 + _ + _ • (0 + 0) = _
  rw [zero_add, add_zero, nsmul_zero, add_zero]

theorem value_cost_pos {directory : Directory} (proper : Proper directory) :
    0 < costLedger.value world config directory := by
  rw [Ledger.value, treeSum_step _ proper, Ledger.weight]
  have paid : costLedger.toll (.shared .undoOutstanding) = 1 := rfl
  omega

/-- A queued directory counts for one. -/
theorem value_count {directory : Directory} (proper : Proper directory) :
    countLedger.value world config directory = 1 := by
  have plain :
      ∀ directory,
        (processBody config passOver directory).total world.answers
          countLedger.toll = 0 := by
    intro directory
    refine Program.Returns.total_eq_zero world.answers _
      (judges_processBody (Program.Returns.judgement fun _ => id) directory
        fun _ _ => .ret _) ?_
    intro op isPlain
    cases op with
    | outside call => rfl
    | shared access =>
        cases access with
        | loadVisitFailed => rfl
        | count counter => rfl
        | _ => exact isPlain.elim
  have counts :
      ∀ levels directory, Proper directory → Suffices levels directory →
        treeSum world config (countLedger.weight world config) levels
          directory = 1 := by
    intro levels
    induction levels with
    | zero =>
        intro directory proper enough
        exact absurd enough (not_suffices_zero proper)
    | succ levels induction =>
        intro directory proper enough
        have ones :
            (children world config directory).map
                (treeSum world config (countLedger.weight world config)
                  levels) =
              (children world config directory).map fun _ => 1 := by
          apply List.map_congr_left
          intro child isChild
          rcases proper.child isChild with ⟨properChild, longer⟩
          exact induction child properChild (enough.child longer)
        rw [treeSum, Ledger.weight, plain, ones, List.map_const',
          List.sum_replicate]
        change (1 : Int) + 0 + _ • ((-1 : Int) + 0) + _ = 1
        simp
  exact counts maxPathLength directory proper (Nat.le_add_left _ _)

/-! ## Counters -/

/-- The counters that a history leaves. -/
def tally (history : List Op) : Stats where
  filesVisited := history.count (.shared (.count .filesVisited)) % sizeLimit
  directoriesVisited :=
    history.count (.shared (.count .directoriesVisited)) % sizeLimit
  filesSkipped := history.count (.shared (.count .filesSkipped)) % sizeLimit
  errorsEncountered :=
    history.count (.shared (.count .errorsEncountered)) % sizeLimit

theorem tally_append_count (history : List Op) (counter : Counter) :
    tally (history ++ [.shared (.count counter)]) =
      (tally history).count counter := by
  cases counter <;>
    simp [tally, Stats.count, List.count_append, wordAdd]

theorem tally_append_other {history : List Op} {op : Op}
    (other : ∀ counter, op ≠ .shared (.count counter)) :
    tally (history ++ [op]) = tally history := by
  simp [tally, List.count_append, other]

/-- The counters always say what the history says. -/
theorem tallied_handled {state : State Unit}
    (tallied : state.stats = tally state.history) (capacity : Nat)
    (choice : Unit × QueueChoice) (op : Op) :
    (handled world capacity state choice op).2.stats =
      tally (handled world capacity state choice op).2.history := by
  cases op with
  | outside call => exact tallied.trans (tally_append_other (by simp)).symm
  | shared access =>
      cases access with
      | count counter =>
          refine Eq.trans ?_ (tally_append_count _ counter).symm
          rw [← tallied]
          rfl
      | queuePush directory =>
          have same :
              (handled world capacity state choice
                (.shared (.queuePush directory))).2.stats = state.stats := by
            simp only [respond, touch]
            split <;> rfl
          exact same.trans (tallied.trans (tally_append_other (by simp)).symm)
      | _ => exact tallied.trans (tally_append_other (by simp)).symm

/-- So does the count of outstanding directories of a parallel walk. -/
def Counted (state : State Unit) : Prop :=
  state.outstanding = wrapInt (1 - (state.history.map lowering).sum)

theorem Counted.handled {state : State Unit} (counted : Counted state)
    (capacity : Nat) (choice : Unit × QueueChoice) (op : Op) :
    Counted (handled world capacity state choice op).2 := by
  have changed :=
    outstanding_handle world.environment capacity counted choice op
  have lowered :
      1 - ((state.history ++ [op]).map lowering).sum =
        1 - (state.history.map lowering).sum - lowering op := by
    rw [List.map_append, List.sum_append, List.map_singleton,
      List.sum_singleton]
    omega
  rw [← lowered] at changed
  exact changed

end BcIo.Walk
