import BcIo.Foundation.Bookkeeping

/-!
# Disciplines that keep a record

Here the note of a thread is the list of the calls it has made, with their
responses.  A record only grows, so what a part of a program has found out is
still known to the parts that follow, and what permits a call stands in the log
of the run before that call.
-/

namespace BcIo.Foundation.Recording

open BcIo.Foundation.Bookkeeping
open BcIo.Foundation.Interaction
open BcIo.Foundation.WorkerPool

variable {Op : Type} {Response : Op → Type} {α β : Type}

/-- A call with its response. -/
abbrev Answered (Op : Type) (Response : Op → Type) : Type :=
  (op : Op) × Response op

/-- A discipline whose notes are records. -/
def recording (permits : List (Answered Op Response) → Op → Prop)
    (allowed : (op : Op) → Response op → Prop) :
    Discipline Op Response (List (Answered Op Response)) where
  note held op response := held ++ [⟨op, response⟩]
  permits := permits
  allowed _ := allowed
  cut := True

variable {permits : List (Answered Op Response) → Op → Prop}
  {allowed : (op : Op) → Response op → Prop}
  {held : List (Answered Op Response)}

/-- Whatever a program does, nothing is lost from the record. -/
theorem keeps_grows {post : α → List (Answered Op Response) → Prop}
    {program : Program Op Response α}
    (keeps : Keeps (recording permits allowed) post program held) :
    Keeps (recording permits allowed)
      (fun value last => held ⊆ last ∧ post value last) program held := by
  induction program generalizing held with
  | ret value => exact ⟨List.Subset.refl held, keeps⟩
  | call op next induction =>
      refine ⟨keeps.1, ?_⟩
      intro response isAllowed
      refine (induction response (keeps.2 response isAllowed)).mono ?_
      rintro value last ⟨grown, holds⟩
      exact ⟨List.Subset.trans (List.subset_append_left _ _) grown, holds⟩
  | stuck => exact keeps

/-- What follows a program has its record, and what it has found out. -/
theorem keeps_recorded
    {between : α → List (Answered Op Response) → Prop}
    {post : β → List (Answered Op Response) → Prop}
    {program : Program Op Response α} {rest : α → Program Op Response β}
    (first : Keeps (recording permits allowed) between program held)
    (second : ∀ value last, held ⊆ last → between value last →
      Keeps (recording permits allowed) post (rest value) last) :
    Keeps (recording permits allowed) post (program >>= rest) held := by
  refine Keeps.bind (keeps_grows first) ?_
  rintro value last ⟨grown, found⟩
  exact second value last grown found

/-- A single call, which stands in the record from then on. -/
theorem keeps_perform {op : Op} (permitted : permits held op) :
    Keeps (recording permits allowed)
      (fun response last =>
        allowed op response ∧ (⟨op, response⟩ : Answered Op Response) ∈ last)
      (Program.perform op) held := by
  refine Keeps.perform permitted ?_
  intro response isAllowed
  exact ⟨isAllowed, List.mem_append_right _ (List.mem_singleton_self _)⟩

/-! ## Records in a log -/

/-- The record of a thread, as a log shows it. -/
def recordOf (thread : Nat) (events : List (Event Op Response)) :
    List (Answered Op Response) :=
  (events.filter fun event => event.thread = thread).map fun event =>
    ⟨event.op, event.response⟩

theorem mem_recordOf {thread : Nat} {events : List (Event Op Response)}
    {op : Op} {response : Response op} :
    (⟨op, response⟩ : Answered Op Response) ∈ recordOf thread events ↔
      ⟨thread, op, response⟩ ∈ events := by
  simp only [recordOf, List.mem_map, List.mem_filter, decide_eq_true_eq]
  constructor
  · rintro ⟨event, ⟨member, rfl⟩, same⟩
    cases same
    exact member
  · intro member
    exact ⟨_, ⟨member, rfl⟩, rfl⟩

theorem noteAfter_recording (thread : Nat)
    (events : List (Event Op Response)) :
    noteAfter (recording permits allowed) thread held events =
      held ++ recordOf thread events := by
  induction events generalizing held with
  | nil => exact (List.append_nil held).symm
  | cons event events induction =>
      change noteAfter _ thread
        (if event.thread = thread then held ++ [⟨event.op, event.response⟩]
          else held) events = _
      rw [induction]
      by_cases isThread : event.thread = thread
      · simp [recordOf, isThread]
      · simp [recordOf, isThread]

section Logs

variable {machine : Machine Op Response}
  {resume : α → Option (Program Op Response α)}
  {waiting : α → List (Answered Op Response) → Prop}
  {condition : Noted machine α (List (Answered Op Response)) →
    Move machine → Prop}
  {holds : machine.State → List (List (Answered Op Response)) → Prop}

/--
In a sound pool of threads that begin with empty records, every call of the log
is permitted by the record that the calls before it leave, and the property
holds of all these records.
-/
theorem recorded_before
    (resumes : Noted.Resumes (recording permits allowed) resume waiting)
    (upholds : Noted.Upholds (recording permits allowed) condition holds)
    {pool : Pool machine α} {threads : Nat} {moves : List (Move machine)}
    (sound : Noted.Sound (recording permits allowed) waiting holds
      ⟨pool, List.replicate threads []⟩)
    (each : Noted.Each (recording permits allowed) resume condition
      ⟨pool, List.replicate threads []⟩ moves)
    {before after : List (Event Op Response)} {event : Event Op Response}
    (logged : Pool.log resume pool moves = before ++ event :: after) :
    permits (recordOf event.thread before) event.op ∧
      ∃ state notes, holds state notes ∧
        recordOf event.thread before ∈ notes ∧
        ∀ record ∈ notes, ∃ thread, record = recordOf thread before := by
  rcases sound.logged resumes upholds each logged with
    ⟨reached, soundThen, notes, held, found, permitted⟩
  have records :
      ∀ (thread : Nat) record, reached.notes[thread]? = some record →
        record = recordOf thread before := by
    intro thread record isRecord
    rw [notes, List.getElem?_replicate] at isRecord
    split at isRecord
    · cases isRecord
      exact noteAfter_recording thread before
    · cases isRecord
  have isRecord := records _ _ found
  subst isRecord
  refine ⟨permitted, _, _, soundThen.property, List.mem_of_getElem? found, ?_⟩
  intro record member
  rcases List.getElem?_of_mem member with ⟨thread, isRecord⟩
  exact ⟨thread, records thread record isRecord⟩

end Logs

end BcIo.Foundation.Recording
