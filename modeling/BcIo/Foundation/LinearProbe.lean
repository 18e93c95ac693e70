import Mathlib.Data.Nat.Find
import Mathlib.Tactic.Common

/-!
# Linear probing in a table of slots

A table of `capacity` slots, each vacant or holding a key, is searched from a
key's home slot on, one slot after the other and around the end.  The search is
right when the table is `Clustered`: every key can be reached from its home
through taken slots, and no key stands twice.
-/

namespace BcIo.Foundation.LinearProbe

variable {Key : Type*} {capacity : Nat}

/-- The slot that a search from `start` looks at after `distance` moves. -/
def slotAt (capacity start distance : Nat) : Nat :=
  (start + distance) % capacity

theorem slotAt_lt (positive : 0 < capacity) (start distance : Nat) :
    slotAt capacity start distance < capacity :=
  Nat.mod_lt _ positive

theorem slotAt_zero {start : Nat} (inside : start < capacity) :
    slotAt capacity start 0 = start :=
  Nat.mod_eq_of_lt inside

/-- A search that goes on from where it stands is the same search. -/
theorem slotAt_shift (start distance : Nat) :
    slotAt capacity ((start + 1) % capacity) distance =
      slotAt capacity start (distance + 1) := by
  simp only [slotAt, Nat.mod_add_mod, Nat.add_assoc, Nat.add_comm 1]

/-- A search meets every slot before it comes around. -/
theorem exists_slotAt {start slot : Nat} (startInside : start < capacity)
    (inside : slot < capacity) :
    ∃ distance, distance < capacity ∧
      slotAt capacity start distance = slot := by
  by_cases ordered : start ≤ slot
  · refine ⟨slot - start, by omega, ?_⟩
    rw [slotAt, Nat.add_sub_cancel' ordered, Nat.mod_eq_of_lt inside]
  · refine ⟨slot + capacity - start, by omega, ?_⟩
    have around : start + (slot + capacity - start) = slot + capacity := by
      omega
    rw [slotAt, around, Nat.add_mod_right, Nat.mod_eq_of_lt inside]

/-- The first slot of a search at which it stops. -/
structure FirstStop (capacity start : Nat) (stops : Nat → Prop)
    (distance : Nat) : Prop where
  bounded : distance < capacity
  stopped : stops (slotAt capacity start distance)
  passed : ∀ earlier, earlier < distance →
    ¬ stops (slotAt capacity start earlier)

/-- A search in a table with a stopping slot stops within `capacity` moves. -/
theorem exists_firstStop {start slot : Nat} {stops : Nat → Prop}
    (startInside : start < capacity) (inside : slot < capacity)
    (stopped : stops slot) :
    ∃ distance, FirstStop capacity start stops distance := by
  classical
  rcases exists_slotAt startInside inside with ⟨distance, bounded, rfl⟩
  have some_ : ∃ distance, stops (slotAt capacity start distance) :=
    ⟨distance, stopped⟩
  refine ⟨Nat.find some_, ?_, Nat.find_spec some_, ?_⟩
  · exact Nat.lt_of_le_of_lt (Nat.find_min' some_ stopped) bounded
  · intro earlier before
    exact Nat.find_min some_ before

/-! ## Clustered tables -/

/-- The keys that stand in the table. -/
def Holds (capacity : Nat) (slots : Nat → Option Key) (key : Key) : Prop :=
  ∃ slot, slot < capacity ∧ slots slot = some key

/--
Every key can be reached from its home through taken slots, and no key stands
twice.
-/
structure Clustered (capacity : Nat) (home : Key → Nat)
    (slots : Nat → Option Key) : Prop where
  reachable : ∀ {slot key}, slot < capacity → slots slot = some key →
    ∃ distance, slotAt capacity (home key) distance = slot ∧
      ∀ earlier, earlier < distance →
        slots (slotAt capacity (home key) earlier) ≠ none
  unique : ∀ {slot other key}, slot < capacity → other < capacity →
    slots slot = some key → slots other = some key → slot = other

/-- A search stops at a vacant slot and at a key that is wanted. -/
def Stops (slots : Nat → Option Key) (wanted : Key → Prop)
    (slot : Nat) : Prop :=
  ∀ stored, slots slot = some stored → wanted stored

theorem stops_of_vacant {slots : Nat → Option Key} {wanted : Key → Prop}
    {slot : Nat} (vacant : slots slot = none) : Stops slots wanted slot := by
  intro stored taken
  rw [vacant] at taken
  contradiction

/-- A search only passes slots that are taken by something unwanted. -/
theorem not_stops_iff {slots : Nat → Option Key} {wanted : Key → Prop}
    {slot : Nat} :
    ¬ Stops slots wanted slot ↔
      ∃ stored, slots slot = some stored ∧ ¬ wanted stored := by
  simp only [Stops, not_forall, exists_prop]

theorem FirstStop.taken {slots : Nat → Option Key} {wanted : Key → Prop}
    {start distance : Nat}
    (stop : FirstStop capacity start (Stops slots wanted) distance)
    {earlier : Nat} (before : earlier < distance) :
    slots (slotAt capacity start earlier) ≠ none := by
  intro vacant
  exact stop.passed earlier before (stops_of_vacant vacant)

theorem clustered_of_vacant (home : Key → Nat) {slots : Nat → Option Key}
    (vacant : ∀ slot, slot < capacity → slots slot = none) :
    Clustered capacity home slots where
  reachable := by
    intro slot key inside taken
    rw [vacant slot inside] at taken
    contradiction
  unique := by
    intro slot other key inside _ taken _
    rw [vacant slot inside] at taken
    contradiction

namespace Clustered

variable {home : Key → Nat} {slots : Nat → Option Key} {key : Key}
  {distance : Nat}

/-- The search for a key that stands in the table ends at the key. -/
theorem found (clustered : Clustered capacity home slots)
    (stop : FirstStop capacity (home key) (Stops slots (· = key)) distance)
    (held : Holds capacity slots key) :
    slots (slotAt capacity (home key) distance) = some key := by
  cases ending : slots (slotAt capacity (home key) distance) with
  | none =>
      rcases held with ⟨slot, inside, taken⟩
      rcases clustered.reachable inside taken with ⟨own, rfl, path⟩
      -- the key's own path has no vacant slot, and the search ends on it
      rcases Nat.lt_trichotomy own distance with before | rfl | after
      · refine absurd ?_ (stop.passed own before)
        intro stored here
        exact Option.some.inj (here.symm.trans taken)
      · exact ending.symm.trans taken
      · exact absurd ending (path distance after)
  | some stored =>
      rw [stop.stopped stored ending]

/-- What a search finds decides whether the key stands in the table. -/
theorem found_iff (clustered : Clustered capacity home slots)
    (stop : FirstStop capacity (home key) (Stops slots (· = key)) distance)
    (positive : 0 < capacity) :
    (slots (slotAt capacity (home key) distance)).isSome ↔
      Holds capacity slots key := by
  constructor
  · intro taken
    rcases Option.isSome_iff_exists.mp taken with ⟨stored, taken⟩
    cases stop.stopped stored taken
    exact ⟨_, slotAt_lt positive _ _, taken⟩
  · intro held
    rw [clustered.found stop held, Option.isSome_some]

/--
A new key may be put where a search from its home has passed only taken slots,
whether or not the search compared keys on the way.
-/
theorem insert (clustered : Clustered capacity home slots)
    (absent : ¬ Holds capacity slots key)
    (path : ∀ earlier, earlier < distance →
      slots (slotAt capacity (home key) earlier) ≠ none) :
    Clustered capacity home
      (Function.update slots (slotAt capacity (home key) distance)
        (some key)) := by
  -- a slot that was taken stays taken
  have stays : ∀ slot, slots slot ≠ none →
      Function.update slots (slotAt capacity (home key) distance)
        (some key) slot ≠ none := by
    intro slot taken
    by_cases here : slot = slotAt capacity (home key) distance
    · rw [here, Function.update_self]
      exact Option.some_ne_none key
    · rwa [Function.update_of_ne here]
  constructor
  · intro slot other inside taken
    by_cases here : slot = slotAt capacity (home key) distance
    · subst here
      rw [Function.update_self, Option.some.injEq] at taken
      subst taken
      exact ⟨distance, rfl, fun earlier before => stays _ (path _ before)⟩
    · rw [Function.update_of_ne here] at taken
      rcases clustered.reachable inside taken with ⟨own, rfl, ownPath⟩
      exact ⟨own, rfl, fun earlier before => stays _ (ownPath _ before)⟩
  · intro slot other held inside otherInside taken otherTaken
    by_cases here : slot = slotAt capacity (home key) distance
    · by_cases there : other = slotAt capacity (home key) distance
      · rw [here, there]
      · rw [here, Function.update_self, Option.some.injEq] at taken
        rw [Function.update_of_ne there, ← taken] at otherTaken
        exact absurd ⟨other, otherInside, otherTaken⟩ absent
    · rw [Function.update_of_ne here] at taken
      by_cases there : other = slotAt capacity (home key) distance
      · rw [there, Function.update_self, Option.some.injEq] at otherTaken
        rw [← otherTaken] at taken
        exact absurd ⟨slot, inside, taken⟩ absent
      · rw [Function.update_of_ne there] at otherTaken
        exact clustered.unique inside otherInside taken otherTaken

end Clustered

/-- Filling a vacant slot adds its key and nothing else. -/
theorem holds_update {slots : Nat → Option Key} {key other : Key}
    {slot : Nat} (inside : slot < capacity) (vacant : slots slot = none) :
    Holds capacity (Function.update slots slot (some key)) other ↔
      other = key ∨ Holds capacity slots other := by
  constructor
  · rintro ⟨found, foundInside, taken⟩
    by_cases here : found = slot
    · rw [here, Function.update_self, Option.some.injEq] at taken
      exact Or.inl taken.symm
    · rw [Function.update_of_ne here] at taken
      exact Or.inr ⟨found, foundInside, taken⟩
  · rintro (rfl | ⟨found, foundInside, taken⟩)
    · exact ⟨slot, inside, Function.update_self _ _ _⟩
    · have elsewhere : found ≠ slot := by
        rintro rfl
        rw [vacant] at taken
        contradiction
      exact ⟨found, foundInside,
        (Function.update_of_ne elsewhere _ _).trans taken⟩

end BcIo.Foundation.LinearProbe
