import BcIo.Walk.Tree

/-!
# What processing a directory costs, however the queue decides

A worker that is to descend into a directory either hands it over to the queue
or processes it on the spot.  When a queued directory is worth as much as
processing it costs, the two come to the same, whatever it is that is counted.
A `Ledger` fixes what is counted.
-/

namespace BcIo.Walk

open BcIo.File
open BcIo.Foundation.Interaction

/--
Tolls on the operations of a parallel walk.  What a worker does while it looks
for a directory is free, and the two ways to lower the count of outstanding
directories cost the same.
-/
structure Ledger (M : Type) [AddCommMonoid M] where
  toll : Op → M
  pushed : M
  push : ∀ directory, toll (.shared (.queuePush directory)) = pushed
  load : toll (.shared .loadVisitFailed) = 0
  create : toll (.outside .direntReaderCreate) = 0
  pop : toll (.shared .queuePop) = 0
  check : toll (.shared .loadOutstanding) = 0
  lowers :
    toll (.shared .finishOutstanding) = toll (.shared .undoOutstanding)

namespace Ledger

variable {M : Type} [AddCommMonoid M] (ledger : Ledger M)
  (world : World) (config : Config)

/-- What one directory adds to the worth of the tree above it. -/
def weight (directory : Directory) : M :=
  ledger.toll (.shared .undoOutstanding) +
    (processBody config passOver directory).total world.answers
        ledger.toll +
      (children world config directory).length •
        (ledger.toll (.shared .raiseOutstanding) + ledger.pushed)

/-- What a directory is worth while it is queued. -/
def value (directory : Directory) : M :=
  treeSum world config (ledger.weight world config) maxPathLength directory

/-- The tolls, with what a push hands over. -/
def charge : Op → M
  | .shared (.queuePush directory) =>
      ledger.pushed + ledger.value world config directory
  | op => ledger.toll op

/-- How the calls of a worker that processes a directory may be answered. -/
def tariff : Program.Tariff Op Op.Response M where
  uses
    | .shared (.queuePush directory) => Proper directory
    | .shared .raiseOutstanding => True
    | .shared .undoOutstanding => True
    | op => Plain op
  allowed
    | .outside call => fun response => response = world.answer call
    | .shared .loadVisitFailed => fun response => response = false
    | .shared _ => fun _ => True
  spent
    | .shared (.queuePush directory) => fun response =>
        if response = true then
          ledger.pushed + ledger.value world config directory
        else
          ledger.pushed
    | op => fun _ => ledger.toll op

/-- In balance with the ledger, whatever the queue decides. -/
abbrev Balances {α : Type} (program : Action α) (value : α) : Prop :=
  program.Balanced world.answers (ledger.charge world config)
    (ledger.tariff world config) value

variable {ledger world config}

theorem admits_tariff : (ledger.tariff world config).Admits world.answers := by
  intro op
  cases op with
  | outside call => rfl
  | shared access =>
      cases access with
      | loadVisitFailed => rfl
      | _ => trivial

theorem charge_of_plain {op : Op} (plain : Plain op) :
    ledger.charge world config op = ledger.toll op := by
  cases op with
  | outside call => rfl
  | shared access =>
      cases access with
      | queuePush directory => exact plain.elim
      | _ => rfl

theorem determined_of_plain (op : Op) (plain : Plain op) :
    (ledger.tariff world config).uses op ∧
      ∀ response, (ledger.tariff world config).allowed op response →
        response = world.answers op ∧
          (ledger.tariff world config).spent op response =
            ledger.charge world config op := by
  cases op with
  | outside call => exact ⟨trivial, fun response allowed => ⟨allowed, rfl⟩⟩
  | shared access =>
      cases access with
      | loadVisitFailed =>
          exact ⟨trivial, fun response allowed => ⟨allowed, rfl⟩⟩
      | count counter => exact ⟨trivial, fun response _ => ⟨rfl, rfl⟩⟩
      | _ => exact plain.elim

variable (ledger world config) in
/-- Balance as a way to return. -/
def balance : Program.Judgement world.answers Plain :=
  @Program.Balanced.judgement Op Op.Response M _ world.answers
    (ledger.charge world config) (ledger.tariff world config) Plain
    admits_tariff determined_of_plain

/-- Processing a directory costs what it is worth, less the way out. -/
theorem total_processDirectory (levels : Nat) {directory : Directory}
    (proper : Proper directory) :
    (processDirectory config (levels + 1) directory).total world.answers
          (ledger.charge world config) +
        ledger.toll (.shared .undoOutstanding) =
      ledger.value world config directory := by
  have enqueued :
      ∀ child,
        (enqueueDirectory config (processDirectory config levels)
            child).total world.answers (ledger.charge world config) =
          ledger.toll (.shared .raiseOutstanding) + ledger.pushed +
            ledger.value world config child := by
    intro child
    unfold enqueueDirectory
    rw [total_shared_bind, total_shared_bind, add_assoc]
    congr 1
    exact add_zero _
  have passed :
      (processBody config passOver directory).total world.answers
          (ledger.charge world config) =
        (processBody config passOver directory).total world.answers
          ledger.toll :=
    Program.Returns.total_congr world.answers _
      (judges_processBody (Program.Returns.judgement fun _ => id) directory
        fun _ _ => .ret _)
      fun op plain => charge_of_plain plain
  rw [processDirectory, total_processBody _ directory fun _ _ => rfl,
    passed, value, treeSum_step _ proper, weight]
  simp only [enqueued]
  rw [List.sum_map_add, List.map_const', List.sum_replicate]
  unfold value
  abel

/-- Handing a directory over costs the same as processing it on the spot. -/
theorem balances_enqueueDirectory {process : Directory → Action Unit}
    {directory : Directory} (proper : Proper directory)
    (processed : ledger.Balances world config (process directory) ())
    (worth :
      (process directory).total world.answers
            (ledger.charge world config) +
          ledger.toll (.shared .undoOutstanding) =
        ledger.value world config directory) :
    ledger.Balances world config
      (enqueueDirectory config process directory) () := by
  refine ⟨trivial, ?_⟩
  intro _ _
  refine ⟨Program.total_call _ _ _ _, proper, ?_⟩
  intro accepted _
  cases accepted with
  | true =>
      refine ⟨?_, rfl⟩
      exact Program.total_call _ _ _ _
  | false =>
      refine ⟨?_, trivial, ?_⟩
      · refine (Program.total_call _ _ _ _).trans ?_
        change ledger.pushed + ledger.value world config directory + 0 =
          ledger.pushed + _
        rw [add_zero, ← worth]
        congr 1
        change _ =
          (shared .undoOutstanding >>= fun _ =>
            outside .direntReaderCreate >>= fun created =>
              if created = true then process directory
              else reportError config directory.text .direntReaderAlloc
                Errno.enomem).total world.answers
            (ledger.charge world config)
        rw [total_shared_bind, total_outside_bind, add_comm]
        congr 1
        exact ((congrArg (· + _) ledger.create).trans (zero_add _)).symm
      · intro _ _
        refine ⟨Program.total_call _ _ _ _, trivial, ?_⟩
        intro created isCreated
        cases isCreated
        exact ⟨Program.total_call _ _ _ _, processed⟩

/-- Processing a directory is in balance. -/
theorem balances_processDirectory {levels : Nat} {directory : Directory}
    (proper : Proper directory) (enough : Suffices levels directory) :
    ledger.Balances world config
      (processDirectory config levels directory) () := by
  induction levels generalizing directory with
  | zero => exact absurd enough (not_suffices_zero proper)
  | succ levels induction =>
      refine judges_processBody (ledger.balance world config) directory ?_
      intro child isChild
      rcases proper.child isChild with ⟨properChild, longer⟩
      have deeper := enough.child longer
      cases levels with
      | zero => exact absurd deeper (not_suffices_zero properChild)
      | succ levels =>
          exact balances_enqueueDirectory properChild
            (induction properChild deeper)
            (total_processDirectory levels properChild)

end Ledger

end BcIo.Walk
