import BcIo.Foundation.WorkerPool
import BcIo.Foundation.Aggregate

/-!
# Programs that keep to a discipline

A discipline gives every thread a note of what it holds.  The note says which
calls the thread may make and which responses it may count on, and each call
and its response bring the note up to date.  That a program keeps to a
discipline is a property of the program alone, proved by rules for its parts; in
a pool of such programs every call is permitted.
-/

namespace BcIo.Foundation.Bookkeeping

open BcIo.Foundation.Aggregate
open BcIo.Foundation.Interaction
open BcIo.Foundation.WorkerPool

variable {Op : Type} {Response : Op → Type} {ν α β : Type}

/-- What may be called, which responses are to be expected, and what follows. -/
structure Discipline (Op : Type) (Response : Op → Type) (ν : Type) where
  note : ν → (op : Op) → Response op → ν
  permits : ν → Op → Prop
  allowed : ν → (op : Op) → Response op → Prop
  /-- Whether a recursion may be cut off at the depth it is followed to. -/
  cut : Prop

/--
Whatever allowed responses it gets, a program that starts with a note makes
permitted calls only, and `post` holds of what it returns and of its last note.
-/
def Keeps (discipline : Discipline Op Response ν) (post : α → ν → Prop) :
    Program Op Response α → ν → Prop
  | .ret value, held => post value held
  | .call op next, held =>
      discipline.permits held op ∧
        ∀ response, discipline.allowed held op response →
          Keeps discipline post (next response)
            (discipline.note held op response)
  | .stuck, _ => discipline.cut

variable {discipline : Discipline Op Response ν}

theorem Keeps.mono {post weaker : α → ν → Prop}
    (implies : ∀ value held, post value held → weaker value held)
    {program : Program Op Response α} {held : ν}
    (keeps : Keeps discipline post program held) :
    Keeps discipline weaker program held := by
  induction program generalizing held with
  | ret value => exact implies value held keeps
  | call op next induction =>
      refine ⟨keeps.1, ?_⟩
      intro response allowed
      exact induction response (keeps.2 response allowed)
  | stuck => exact keeps

theorem Keeps.bind {between : α → ν → Prop} {post : β → ν → Prop}
    {program : Program Op Response α}
    {rest : α → Program Op Response β} {held : ν}
    (first : Keeps discipline between program held)
    (second : ∀ value held, between value held →
      Keeps discipline post (rest value) held) :
    Keeps discipline post (program >>= rest) held := by
  induction program generalizing held with
  | ret value => exact second value held first
  | call op next induction =>
      refine ⟨first.1, ?_⟩
      intro response allowed
      exact induction response (first.2 response allowed)
  | stuck => exact first

/-- A single call. -/
theorem Keeps.perform {op : Op} {held : ν} {post : Response op → ν → Prop}
    (permitted : discipline.permits held op)
    (follows : ∀ response, discipline.allowed held op response →
      post response (discipline.note held op response)) :
    Keeps discipline post (Program.perform op) held :=
  ⟨permitted, follows⟩

/-- Another discipline that asks for less and allows less. -/
theorem Keeps.convert {other : Discipline Op Response ν}
    (permits : ∀ held op, discipline.permits held op →
      other.permits held op)
    (allowed : ∀ held op response, other.allowed held op response →
      discipline.allowed held op response)
    (notes : ∀ held op response,
      other.note held op response = discipline.note held op response)
    (cut : discipline.cut → other.cut) {post : α → ν → Prop}
    {program : Program Op Response α} {held : ν}
    (keeps : Keeps discipline post program held) :
    Keeps other post program held := by
  induction program generalizing held with
  | ret value => exact keeps
  | call op next induction =>
      refine ⟨permits held op keeps.1, ?_⟩
      intro response isAllowed
      rw [notes]
      exact induction response
        (keeps.2 response (allowed held op response isAllowed))
  | stuck => exact cut keeps

/-! ## Pools with notes -/

/-- A pool with a note for each of its threads. -/
structure Noted (machine : Machine Op Response) (α ν : Type) where
  pool : Pool machine α
  notes : List ν

namespace Noted

variable {machine : Machine Op Response}

/-- The notes after a step. -/
def notesAfter (discipline : Discipline Op Response ν)
    (noted : Noted machine α ν) : Move machine → List ν
  | .turn thread choice =>
      match noted.pool.threads[thread]? with
      | some (.call op _) =>
          noted.notes.modify thread fun held =>
            discipline.note held op
              (machine.handle noted.pool.state choice op).1
      | _ => noted.notes
  | .drift _ => noted.notes

theorem length_notesAfter (discipline : Discipline Op Response ν)
    (noted : Noted machine α ν) (move : Move machine) :
    (notesAfter discipline noted move).length = noted.notes.length := by
  cases move with
  | drift drift => rfl
  | turn thread choice =>
      simp only [notesAfter]
      split
      · exact List.length_modify _ _ _
      · rfl

/-- A step that makes no call changes no note. -/
theorem notesAfter_of_silent {discipline : Discipline Op Response ν}
    {noted : Noted machine α ν} {move : Move machine}
    (silent : noted.pool.eventOf move = none) :
    notesAfter discipline noted move = noted.notes := by
  cases move with
  | drift drift => rfl
  | turn thread choice =>
      cases running : noted.pool.threads[thread]? with
      | none => simp only [notesAfter, running]
      | some program =>
          cases program with
          | ret value => simp only [notesAfter, running]
          | stuck => simp only [notesAfter, running]
          | call op next => simp [Pool.eventOf, running] at silent

variable (discipline : Discipline Op Response ν)
  (resume : α → Option (Program Op Response α))

/-- One step, which also brings the note of the thread up to date. -/
def step (noted : Noted machine α ν) (move : Move machine) :
    Noted machine α ν :=
  ⟨Pool.step resume noted.pool move, notesAfter discipline noted move⟩

/-- A run. -/
def run (noted : Noted machine α ν) (moves : List (Move machine)) :
    Noted machine α ν :=
  moves.foldl (step discipline resume) noted

/-- The notes do not influence the run. -/
theorem run_pool (noted : Noted machine α ν) (moves : List (Move machine)) :
    (run discipline resume noted moves).pool =
      Pool.run resume noted.pool moves := by
  induction moves generalizing noted with
  | nil => rfl
  | cons move moves induction => exact induction _

/-- Every move of a run satisfies a condition on the state before it. -/
def Each (condition : Noted machine α ν → Move machine → Prop) :
    Noted machine α ν → List (Move machine) → Prop
  | _, [] => True
  | noted, move :: moves =>
      condition noted move ∧
        Each condition (step discipline resume noted move) moves

theorem run_append (noted : Noted machine α ν)
    (earlier later : List (Move machine)) :
    run discipline resume noted (earlier ++ later) =
      run discipline resume (run discipline resume noted earlier) later := by
  simp [run]

theorem each_append
    {condition : Noted machine α ν → Move machine → Prop}
    {noted : Noted machine α ν} {earlier later : List (Move machine)} :
    Each discipline resume condition noted (earlier ++ later) ↔
      Each discipline resume condition noted earlier ∧
        Each discipline resume condition
          (run discipline resume noted earlier) later := by
  induction earlier generalizing noted with
  | nil => exact (and_iff_right trivial).symm
  | cons move earlier induction =>
      rw [List.cons_append, Each, Each, induction, and_assoc]
      rfl

/-- Every thread keeps to the discipline until it waits again. -/
def Orderly (waiting : α → ν → Prop) (noted : Noted machine α ν) : Prop :=
  List.Forall₂
    (fun held thread => Keeps discipline waiting thread held)
    noted.notes noted.pool.threads

/-- What a thread goes on with keeps to the discipline again. -/
def Resumes (waiting : α → ν → Prop) : Prop :=
  ∀ value program held, resume value = some program → waiting value held →
    Keeps discipline waiting program held

variable {discipline resume} {waiting : α → ν → Prop}

/-- An invariant of the moves that satisfy a condition. -/
theorem run_invariant {holds : Noted machine α ν → Prop}
    {condition : Noted machine α ν → Move machine → Prop}
    (keeps : ∀ noted move, holds noted → condition noted move →
      holds (step discipline resume noted move))
    {noted : Noted machine α ν} (starts : holds noted)
    {moves : List (Move machine)}
    (each : Each discipline resume condition noted moves) :
    holds (run discipline resume noted moves) := by
  induction moves generalizing noted with
  | nil => exact starts
  | cons move moves induction =>
      exact induction (keeps noted move starts each.1) each.2

/-- A condition that an invariant implies holds of every move of a run. -/
theorem each_of_invariant {holds : Noted machine α ν → Prop}
    {condition : Noted machine α ν → Move machine → Prop}
    (keeps : ∀ noted move, holds noted → condition noted move ∧
      holds (step discipline resume noted move))
    {noted : Noted machine α ν} (starts : holds noted)
    (moves : List (Move machine)) :
    Each discipline resume condition noted moves := by
  induction moves generalizing noted with
  | nil => trivial
  | cons move moves induction =>
      rcases keeps noted move starts with ⟨here, continues⟩
      exact ⟨here, induction continues⟩

theorem each_of_forall {condition : Noted machine α ν → Move machine → Prop}
    (noted : Noted machine α ν) (moves : List (Move machine))
    (always : ∀ noted, ∀ move ∈ moves, condition noted move) :
    Each discipline resume condition noted moves := by
  induction moves generalizing noted with
  | nil => trivial
  | cons move moves induction =>
      refine ⟨always noted move List.mem_cons_self, induction _ ?_⟩
      intro noted later member
      exact always noted later (List.mem_cons_of_mem move member)

/-- Where no recursion may be cut off, no thread gets stuck. -/
theorem Orderly.not_stuck (uncut : ¬ discipline.cut)
    {noted : Noted machine α ν} (orderly : Orderly discipline waiting noted)
    (thread : Nat) : noted.pool.threads[thread]? ≠ some .stuck := by
  intro isStuck
  rcases exists_of_forall₂ orderly isStuck with ⟨held, _, cut⟩
  exact uncut cut

/--
The turn of a thread that is about to make a call: its note permits the call,
and the pool stays orderly.
-/
theorem Orderly.turn
    (resumes : Resumes discipline resume waiting)
    {noted : Noted machine α ν} (orderly : Orderly discipline waiting noted)
    {thread : Nat} {op : Op} {next : Response op → Program Op Response α}
    (running : noted.pool.threads[thread]? = some (.call op next)) :
    ∃ held, noted.notes[thread]? = some held ∧
      discipline.permits held op ∧
      ∀ choice,
        (step discipline resume noted (.turn thread choice)).notes =
            noted.notes.set thread
              (discipline.note held op
                (machine.handle noted.pool.state choice op).1) ∧
          (discipline.allowed held op
              (machine.handle noted.pool.state choice op).1 →
            Orderly discipline waiting
              (step discipline resume noted (.turn thread choice))) := by
  rcases exists_of_forall₂ orderly running with ⟨held, found, keeps⟩
  refine ⟨held, found, keeps.1, ?_⟩
  intro choice
  have notes :
      (step discipline resume noted (.turn thread choice)).notes =
        noted.notes.set thread
          (discipline.note held op
            (machine.handle noted.pool.state choice op).1) := by
    simp only [step, notesAfter, running]
    rw [List.modify_eq_set_getElem?, found]
    rfl
  refine ⟨notes, ?_⟩
  intro allowed
  rw [Orderly, notes, step, Pool.step_call running]
  apply forall₂_set orderly
  have continues := keeps.2 _ allowed
  generalize next (machine.handle noted.pool.state choice op).1 = program
    at continues ⊢
  cases program with
  | ret value =>
      have waits : waiting value (discipline.note held op _) := continues
      rw [Pool.settle]
      cases resumed : resume value with
      | none => exact waits
      | some program => exact resumes value program _ resumed waits
  | call op next => exact continues
  | stuck => exact continues

/-- Copies of one program, all with the same note. -/
theorem Orderly.replicate {program : Program Op Response α} {held : ν}
    (keeps : Keeps discipline waiting program held)
    (state : machine.State) (threads : Nat) :
    Orderly discipline waiting
      (⟨⟨state, List.replicate threads program⟩,
        List.replicate threads held⟩ : Noted machine α ν) := by
  rw [Orderly]
  induction threads with
  | zero => exact .nil
  | succ threads induction =>
      rw [List.replicate_succ, List.replicate_succ]
      exact .cons keeps induction

/-- A change of the state by itself leaves the threads and notes alone. -/
theorem Orderly.drift {noted : Noted machine α ν}
    (orderly : Orderly discipline waiting noted) (drift : machine.Drift) :
    Orderly discipline waiting
      (step discipline resume noted (.drift drift)) :=
  orderly

/-! ## Invariants that keep the responses as they are allowed to be -/

/--
A property of the shared state and the notes that permitted calls and changes of
the state keep, as long as the moves satisfy a condition, and under which calls
get allowed responses only.
-/
structure Upholds (discipline : Discipline Op Response ν)
    (condition : Noted machine α ν → Move machine → Prop)
    (holds : machine.State → List ν → Prop) : Prop where
  turn : ∀ {noted : Noted machine α ν} {thread : Nat}
    {choice : machine.Choice} {op : Op}
    {next : Response op → Program Op Response α} {held : ν},
    holds noted.pool.state noted.notes →
    noted.pool.threads[thread]? = some (.call op next) →
    noted.notes[thread]? = some held →
    discipline.permits held op →
    condition noted (.turn thread choice) →
    discipline.allowed held op
        (machine.handle noted.pool.state choice op).1 ∧
      holds (machine.handle noted.pool.state choice op).2
        (noted.notes.set thread
          (discipline.note held op
            (machine.handle noted.pool.state choice op).1))
  drift : ∀ {noted : Noted machine α ν} {drift : machine.Drift},
    holds noted.pool.state noted.notes →
    condition noted (.drift drift) →
    holds (machine.drift noted.pool.state drift) noted.notes

/-- What is kept from step to step: an orderly pool, and the property. -/
structure Sound (discipline : Discipline Op Response ν)
    (waiting : α → ν → Prop) (holds : machine.State → List ν → Prop)
    (noted : Noted machine α ν) : Prop where
  orderly : Orderly discipline waiting noted
  property : holds noted.pool.state noted.notes

section Upholding

variable {condition : Noted machine α ν → Move machine → Prop}
  {holds : machine.State → List ν → Prop}

theorem Sound.step
    (resumes : Resumes discipline resume waiting)
    (upholds : Upholds discipline condition holds)
    {noted : Noted machine α ν} {move : Move machine}
    (sound : Sound discipline waiting holds noted)
    (met : condition noted move) :
    Sound discipline waiting holds (step discipline resume noted move) := by
  cases move with
  | drift drift =>
      exact ⟨sound.orderly.drift drift, upholds.drift sound.property met⟩
  | turn thread choice =>
      cases running : noted.pool.threads[thread]? with
      | none =>
          simpa only [Noted.step, Pool.step, notesAfter, running] using sound
      | some program =>
          cases program with
          | ret value =>
              simpa only [Noted.step, Pool.step, notesAfter, running]
                using sound
          | stuck =>
              simpa only [Noted.step, Pool.step, notesAfter, running]
                using sound
          | call op next =>
              rcases sound.orderly.turn resumes running with
                ⟨held, found, permitted, follows⟩
              rcases upholds.turn sound.property running found permitted met
                with ⟨allowed, continues⟩
              rcases follows choice with ⟨notes, orderly⟩
              refine ⟨orderly allowed, ?_⟩
              rw [notes, Noted.step, Pool.step_call running]
              exact continues

/-- The run lemma. -/
theorem Sound.run
    (resumes : Resumes discipline resume waiting)
    (upholds : Upholds discipline condition holds)
    {noted : Noted machine α ν} {moves : List (Move machine)}
    (sound : Sound discipline waiting holds noted)
    (each : Each discipline resume condition noted moves) :
    Sound discipline waiting holds
      (Noted.run discipline resume noted moves) :=
  run_invariant (fun _ _ sound met => sound.step resumes upholds met) sound
    each

end Upholding

end Noted

/-! ## The calls of one thread -/

/--
The calls of a thread are permitted and get allowed responses, one after the
other, from a note on.
-/
def Conforms (discipline : Discipline Op Response ν) (thread : Nat) :
    ν → List (Event Op Response) → Prop
  | _, [] => True
  | held, event :: events =>
      if event.thread = thread then
        discipline.permits held event.op ∧
          discipline.allowed held event.op event.response ∧
          Conforms discipline thread
            (discipline.note held event.op event.response) events
      else
        Conforms discipline thread held events

/-- The note of a thread after some calls. -/
def noteAfter (discipline : Discipline Op Response ν) (thread : Nat)
    (held : ν) (events : List (Event Op Response)) : ν :=
  events.foldl
    (fun held event =>
      if event.thread = thread then
        discipline.note held event.op event.response
      else held)
    held

section Logs

variable {machine : Machine Op Response}
  {resume : α → Option (Program Op Response α)} {waiting : α → ν → Prop}
  {condition : Noted machine α ν → Move machine → Prop}
  {holds : machine.State → List ν → Prop}

/-- The notes after a run are what its calls make of those before. -/
theorem Noted.run_notes (noted : Noted machine α ν)
    (moves : List (Move machine)) (thread : Nat) :
    (Noted.run discipline resume noted moves).notes[thread]? =
      (noted.notes[thread]?).map fun held =>
        noteAfter discipline thread held
          (Pool.log resume noted.pool moves) := by
  induction moves generalizing noted with
  | nil => exact Option.map_id'.symm
  | cons move moves induction =>
      change (Noted.run discipline resume (Noted.step discipline resume
        noted move) moves).notes[thread]? = _
      rw [induction, Pool.log]
      change (notesAfter discipline noted move)[thread]?.map _ = _
      cases made : noted.pool.eventOf move with
      | none =>
          rw [notesAfter_of_silent made]
          rfl
      | some event =>
          rcases Pool.eventOf_some made with
            ⟨choice, next, rfl, running, response⟩
          simp only [notesAfter, running, ← response]
          rw [List.getElem?_modify]
          cases noted.notes[thread]? with
          | none => rfl
          | some held =>
              by_cases isThread : event.thread = thread
              · simp [noteAfter, isThread, Noted.step]
              · simp [noteAfter, isThread, Noted.step]

/--
The pool before a call of the log is sound, the note of the thread permits the
call, and the notes are what the calls before it make of those at the start.
-/
theorem Noted.Sound.logged
    (resumes : Resumes discipline resume waiting)
    (upholds : Upholds discipline condition holds)
    {noted : Noted machine α ν} {moves : List (Move machine)}
    (sound : Sound discipline waiting holds noted)
    (each : Each discipline resume condition noted moves)
    {before after : List (Event Op Response)} {event : Event Op Response}
    (logged : Pool.log resume noted.pool moves = before ++ event :: after) :
    ∃ reached : Noted machine α ν,
      Sound discipline waiting holds reached ∧
        (∀ thread : Nat, reached.notes[thread]? =
          (noted.notes[thread]?).map fun held =>
            noteAfter discipline thread held before) ∧
        ∃ held, reached.notes[event.thread]? = some held ∧
          discipline.permits held event.op := by
  rcases Pool.log_split resume logged with
    ⟨earlier, move, later, rfl, rfl, made, _⟩
  have soundThen :=
    sound.run resumes upholds ((each_append discipline resume).mp each).1
  rw [← run_pool discipline] at made
  rcases Pool.eventOf_some made with ⟨choice, next, _, running, _⟩
  rcases soundThen.orderly.turn resumes running with
    ⟨held, found, permitted, _⟩
  exact ⟨_, soundThen, run_notes noted earlier, held, found, permitted⟩

/-- In a sound pool every call is permitted by some note. -/
theorem Noted.Sound.permitted
    (resumes : Resumes discipline resume waiting)
    (upholds : Upholds discipline condition holds)
    {noted : Noted machine α ν} {moves : List (Move machine)}
    (sound : Sound discipline waiting holds noted)
    (each : Each discipline resume condition noted moves)
    {event : Event Op Response}
    (logged : event ∈ Pool.log resume noted.pool moves) :
    ∃ held, discipline.permits held event.op := by
  rcases List.append_of_mem logged with ⟨before, after, split⟩
  rcases sound.logged resumes upholds each split with
    ⟨_, _, _, held, _, permitted⟩
  exact ⟨held, permitted⟩

/-- In a sound pool the calls of every thread conform to the discipline. -/
theorem Noted.Sound.conforms
    (resumes : Resumes discipline resume waiting)
    (upholds : Upholds discipline condition holds)
    {noted : Noted machine α ν} {moves : List (Move machine)}
    (sound : Sound discipline waiting holds noted)
    (each : Each discipline resume condition noted moves)
    {thread : Nat} {held : ν} (found : noted.notes[thread]? = some held) :
    Conforms discipline thread held
      (Pool.log resume noted.pool moves) := by
  induction moves generalizing noted held with
  | nil => trivial
  | cons move moves induction =>
      have continues :
          ∀ {held}, (notesAfter discipline noted move)[thread]? = some held →
            Conforms discipline thread held
              (Pool.log resume (Pool.step resume noted.pool move) moves) :=
        fun found =>
          induction (sound.step resumes upholds each.1) each.2 found
      rw [Pool.log]
      cases made : noted.pool.eventOf move with
      | none =>
          refine continues ?_
          rw [notesAfter_of_silent made]
          exact found
      | some event =>
          rcases Pool.eventOf_some made with
            ⟨choice, next, rfl, running, response⟩
          rcases sound.orderly.turn resumes running with
            ⟨own, isOwn, permitted, follows⟩
          have notes :
              notesAfter discipline noted (.turn event.thread choice) =
                noted.notes.set event.thread
                  (discipline.note own event.op event.response) := by
            rw [response]
            exact (follows choice).1
          have allowed :=
            (upholds.turn sound.property running isOwn permitted each.1).1
          rw [← response] at allowed
          change Conforms discipline thread held (event :: _)
          rw [Conforms]
          split
          · rename_i isThread
            subst isThread
            rw [isOwn] at found
            cases found
            refine ⟨permitted, allowed, continues ?_⟩
            rw [notes]
            exact List.getElem?_set_self
              (List.getElem?_eq_some_iff.mp isOwn).1
          · rename_i isOther
            refine continues ?_
            rw [notes, List.getElem?_set_ne isOther]
            exact found

/-- What is known of a thread that has returned, and of its calls. -/
theorem Noted.Sound.returned
    (resumes : Resumes discipline resume waiting)
    (upholds : Upholds discipline condition holds)
    {noted : Noted machine α ν} {moves : List (Move machine)}
    (sound : Sound discipline waiting holds noted)
    (each : Each discipline resume condition noted moves)
    {thread : Nat} {held : ν} (found : noted.notes[thread]? = some held)
    {value : α}
    (returned : (Pool.run resume noted.pool moves).threads[thread]? =
      some (.ret value)) :
    waiting value
      (noteAfter discipline thread held
        (Pool.log resume noted.pool moves)) := by
  have after := sound.run resumes upholds each
  rw [← run_pool discipline] at returned
  rcases exists_of_forall₂ after.orderly returned with ⟨last, isLast, waits⟩
  rw [run_notes, found] at isLast
  cases isLast
  exact waits

end Logs

/-! ## Reaching an end -/

section Ends

variable {machine : Machine Op Response}
  {resume : α → Option (Program Op Response α)}

/--
Under a fair schedule a thread that keeps to a discipline, and whose recursions
are not cut off, comes to return: every turn of its own leads into a part of its
program, and the turns of the others leave it where it is.
-/
theorem Keeps.reaches {pool : Pool machine α}
    {schedule : Nat → Move machine} {threads thread : Nat}
    (fair : Fair threads schedule) (isThread : thread < threads)
    (uncut : ¬ discipline.cut) {holds : Pool machine α → Prop}
    (steps : ∀ pool move, holds pool → holds (Pool.step resume pool move))
    (allowed : ∀ (pool : Pool machine α) choice held op, holds pool →
      discipline.allowed held op (machine.handle pool.state choice op).1)
    {post : α → ν → Prop} {program : Program Op Response α} {held : ν}
    (keeps : Keeps discipline post program held) {time : Nat}
    (holding : holds (poolAt resume pool schedule time))
    (at_ : (poolAt resume pool schedule time).threads[thread]? =
      some (Pool.settle resume program)) :
    ∃ later value last, time ≤ later ∧
      holds (poolAt resume pool schedule later) ∧ post value last ∧
      (poolAt resume pool schedule later).threads[thread]? =
        some (Pool.settle resume (.ret value)) := by
  induction program generalizing held time with
  | ret value =>
      exact ⟨time, value, held, Nat.le_refl _, holding, keeps, at_⟩
  | stuck => exact absurd keeps uncut
  | call op next induction =>
      have proceeds :
          ∃ later, time ≤ later ∧
            holds (poolAt resume pool schedule later) ∧
            ∃ response, discipline.allowed held op response ∧
              (poolAt resume pool schedule later).threads[thread]? =
                some (Pool.settle resume (next response)) := by
        refine reaches_of_turn fair isThread
          (fun pool => holds pool ∧
            pool.threads[thread]? = some (.call op next))
          (fun pool => holds pool ∧ ∃ response,
            discipline.allowed held op response ∧
              pool.threads[thread]? =
                some (Pool.settle resume (next response)))
          ?_ ?_ ⟨holding, at_⟩
        · rintro pool move ⟨holding, running⟩
          rcases Pool.step_thread running move with
            stays | ⟨choice, _, taken⟩
          · exact Or.inr ⟨steps pool move holding, stays⟩
          · exact Or.inl ⟨steps pool move holding, _,
              allowed pool choice held op holding, taken⟩
        · rintro pool choice ⟨holding, running⟩
          refine ⟨steps pool _ holding, _,
            allowed pool choice held op holding, ?_⟩
          rw [Pool.step_call running]
          exact List.getElem?_set_self
            (List.getElem?_eq_some_iff.mp running).1
      rcases proceeds with
        ⟨later, after, holdingToo, response, isAllowed, reached⟩
      rcases induction response (keeps.2 response isAllowed) holdingToo
          reached with ⟨final, value, last, further, ended⟩
      exact ⟨final, value, last, Nat.le_trans after further, ended⟩

end Ends

end BcIo.Foundation.Bookkeeping
