import BcIo.File.InodeSet

/-!
# The inode set as a finite set

The table represents the finite set of the pairs that stand in its marked
slots.  Every call keeps the representation, through collisions, wrapped
probes, entries left behind by a clear and every rehash, so that a run of calls
answers as the operations on finite sets do.
-/

namespace BcIo.File.InodeSet

open BcIo.Foundation
open BcIo.Foundation.MachineWord
open BcIo.Foundation.LinearProbe

/-! ## Capacities and indices -/

/-- A capacity for which buckets have been allocated. -/
structure Admissible (capacity : Nat) : Prop where
  power : ∃ exponent, capacity = 2 ^ (exponent + 1)
  fits : capacity * entrySize + capacity < sizeLimit

namespace Admissible

variable {capacity : Nat}

theorem two_le (admissible : Admissible capacity) : 2 ≤ capacity := by
  rcases admissible.power with ⟨exponent, rfl⟩
  have positive := Nat.two_pow_pos exponent
  rw [Nat.pow_succ]
  omega

theorem small (admissible : Admissible capacity) :
    capacity * 17 < wordLimit := by
  have fits := admissible.fits
  rw [entrySize] at fits
  omega

theorem mask (admissible : Admissible capacity) :
    sizeSub capacity 1 = capacity - 1 := by
  have atLeast := admissible.two_le
  have small := admissible.small
  exact wordSub_of_le (by omega) (by omega)

/-- The masked successor of a slot is the next slot around the table. -/
theorem next (admissible : Admissible capacity) {slot : Nat}
    (inside : slot < capacity) :
    sizeAdd slot 1 &&& sizeSub capacity 1 = (slot + 1) % capacity := by
  have small := admissible.small
  rw [admissible.mask, sizeAdd, wordAdd_of_lt (by omega)]
  rcases admissible.power with ⟨exponent, rfl⟩
  exact Nat.and_two_pow_sub_one_eq_mod _ _

theorem hash_lt (admissible : Admissible capacity) (entry : Entry) :
    hash entry capacity < capacity := by
  have atLeast := admissible.two_le
  have small := admissible.small
  have masked : (UInt64.ofNat (sizeSub capacity 1)).toNat = capacity - 1 := by
    rw [admissible.mask, UInt64.toNat_ofNat']
    rw [wordLimit] at small
    exact Nat.mod_eq_of_lt (by omega)
  unfold hash
  dsimp only
  rw [UInt64.toNat_and, masked]
  exact Nat.lt_of_le_of_lt Nat.and_le_right (by omega)

end Admissible

/-! ## What a table of buckets represents -/

/-- The entry in a marked slot. -/
def Buckets.slots (buckets : Buckets) (slot : Nat) : Option Entry :=
  if buckets.occupied[slot]? = some true then buckets.entries[slot]?
  else none

/-- The buckets hold exactly `keys`, each where a probe for it finds it. -/
structure Buckets.Represents (buckets : Buckets) (capacity : Nat)
    (keys : Finset Entry) : Prop where
  entries : buckets.entries.length = capacity
  occupied : buckets.occupied.length = capacity
  clustered :
    Clustered capacity (fun entry => hash entry capacity) buckets.slots
  holds : ∀ entry, entry ∈ keys ↔ Holds capacity buckets.slots entry
  count : buckets.occupied.count true = keys.card

namespace Buckets

variable {buckets : Buckets} {capacity : Nat}

/-- Slots that are not marked are vacant, whatever stale entry they hold. -/
theorem slots_of_unmarked {slot : Nat}
    (unmarked : buckets.occupied[slot]? ≠ some true) :
    buckets.slots slot = none :=
  if_neg unmarked

theorem slots_of_marked {slot : Nat} {stored : Entry}
    (marked : buckets.occupied[slot]? = some true)
    (entry : buckets.entries[slot]? = some stored) :
    buckets.slots slot = some stored := by
  rw [slots, if_pos marked, entry]

/-- A slot inside the table is either unmarked or holds an entry. -/
theorem slot_cases (entries : buckets.entries.length = capacity)
    (occupied : buckets.occupied.length = capacity) {slot : Nat}
    (inside : slot < capacity) :
    (buckets.occupied[slot]? = some false ∧ buckets.slots slot = none) ∨
      ∃ stored, buckets.occupied[slot]? = some true ∧
        buckets.entries[slot]? = some stored ∧
        buckets.slots slot = some stored := by
  have marker : ∃ marked, buckets.occupied[slot]? = some marked :=
    ⟨_, List.getElem?_eq_getElem (by omega)⟩
  have stored : ∃ stored, buckets.entries[slot]? = some stored :=
    ⟨_, List.getElem?_eq_getElem (by omega)⟩
  rcases marker with ⟨marked, marker⟩
  rcases stored with ⟨stored, entry⟩
  cases marked with
  | false =>
      exact Or.inl ⟨marker, slots_of_unmarked (by rw [marker]; simp)⟩
  | true => exact Or.inr ⟨stored, marker, entry, slots_of_marked marker entry⟩

/-- Fewer entries than slots leave a slot vacant. -/
theorem Represents.exists_vacant {keys : Finset Entry}
    (represents : buckets.Represents capacity keys)
    (room : keys.card < capacity) :
    ∃ slot, slot < capacity ∧ buckets.slots slot = none := by
  by_contra noVacant
  have full : buckets.occupied.count true = buckets.occupied.length := by
    rw [List.count_eq_length]
    intro marked member
    rcases List.mem_iff_getElem?.mp member with ⟨slot, marker⟩
    have inside : slot < capacity := by
      rw [← represents.occupied]
      exact (List.getElem?_eq_some_iff.mp marker).1
    rcases slot_cases represents.entries represents.occupied inside with
      ⟨_, vacant⟩ | ⟨_, isMarked, _, _⟩
    · exact absurd ⟨slot, inside, vacant⟩ noVacant
    · exact Option.some.inj (isMarked.symm.trans marker)
  rw [represents.count, represents.occupied] at full
  omega

/--
A probe loop ends at the first slot where it may stop, and says whether the
slot is taken.
-/
theorem probe_of_firstStop (admissible : Admissible capacity)
    (entries : buckets.entries.length = capacity)
    (occupied : buckets.occupied.length = capacity) {wanted : Entry → Bool}
    {start distance steps : Nat} (inside : start < capacity)
    (stop :
      FirstStop capacity start
        (Stops buckets.slots fun stored => wanted stored = true) distance)
    (enough : distance < steps) :
    buckets.probe (sizeSub capacity 1) wanted steps start =
      .ok ((buckets.slots (slotAt capacity start distance)).isSome,
        slotAt capacity start distance) := by
  induction distance generalizing start steps with
  | zero =>
      rcases Nat.exists_eq_add_of_lt enough with ⟨more, rfl⟩
      have stopped := stop.stopped
      rw [slotAt_zero inside] at stopped ⊢
      rw [Nat.zero_add, probe]
      rcases slot_cases entries occupied inside with
        ⟨marker, vacant⟩ | ⟨stored, marker, entry, taken⟩
      · simp [marker, vacant]
      · simp [marker, entry, taken, stopped stored taken]
  | succ distance induction =>
      rcases Nat.exists_eq_add_of_lt enough with ⟨more, rfl⟩
      have passed := stop.passed 0 (Nat.zero_lt_succ distance)
      rw [slotAt_zero inside] at passed
      rcases not_stops_iff.mp passed with ⟨stored, taken, unwanted⟩
      rcases slot_cases entries occupied inside with
        ⟨_, vacant⟩ | ⟨here, marker, entry, held⟩
      · rw [vacant] at taken
        contradiction
      · cases taken.symm.trans held
        have shifted :
            FirstStop capacity ((start + 1) % capacity)
              (Stops buckets.slots fun stored => wanted stored = true)
              distance := by
          refine ⟨?_, ?_, ?_⟩
          · have := stop.bounded
            omega
          · rw [slotAt_shift]
            exact stop.stopped
          · intro earlier before
            rw [slotAt_shift]
            exact stop.passed (earlier + 1) (by omega)
        have positive : 0 < capacity := by omega
        have continues :=
          induction (Nat.mod_lt _ positive) shifted
            (show distance < distance + 1 + more by omega)
        rw [slotAt_shift] at continues
        rw [probe]
        simp only [marker, entry, unwanted, Bool.false_eq_true, if_false]
        rw [admissible.next inside]
        exact continues

/-- Marking a slot of the table and writing its entry. -/
theorem place_slots (entries : buckets.entries.length = capacity)
    (occupied : buckets.occupied.length = capacity) {slot : Nat}
    (inside : slot < capacity) (entry : Entry) :
    ∃ placed, buckets.place slot entry = .ok placed ∧
      placed.entries.length = capacity ∧
      placed.occupied.length = capacity ∧
      placed.occupied = buckets.occupied.set slot true ∧
      placed.slots = Function.update buckets.slots slot (some entry) := by
  have within :
      slot < buckets.entries.length ∧ slot < buckets.occupied.length := by
    omega
  refine ⟨_, if_pos within, ?_, ?_, rfl, ?_⟩
  · rw [List.length_set, entries]
  · rw [List.length_set, occupied]
  · ext other
    by_cases here : other = slot
    · subst here
      simp [slots, List.getElem?_set_self within.1,
        List.getElem?_set_self within.2]
    · have elsewhere : slot ≠ other := fun same => here same.symm
      rw [Function.update_of_ne here]
      simp [slots, List.getElem?_set_ne elsewhere]

/-- An entry that is new goes where the search from its home has ended. -/
theorem Represents.place {keys : Finset Entry}
    (represents : buckets.Represents capacity keys)
    (admissible : Admissible capacity) {entry : Entry}
    (new : entry ∉ keys) {distance : Nat}
    (path : ∀ earlier, earlier < distance →
      buckets.slots (slotAt capacity (hash entry capacity) earlier) ≠ none)
    (vacant :
      buckets.slots (slotAt capacity (hash entry capacity) distance) =
        none) :
    ∃ placed,
      buckets.place (slotAt capacity (hash entry capacity) distance) entry =
        .ok placed ∧
      placed.Represents capacity (insert entry keys) := by
  have positive : 0 < capacity := by
    have := admissible.two_le
    omega
  have inside := slotAt_lt positive (hash entry capacity) distance
  generalize slotEq :
    slotAt capacity (hash entry capacity) distance = slot at *
  rcases place_slots represents.entries represents.occupied inside entry with
    ⟨placed, succeeded, entries, occupied, marks, slots⟩
  have absent : ¬ Holds capacity buckets.slots entry := by
    rw [← represents.holds]
    exact new
  refine ⟨placed, succeeded, entries, occupied, ?_, ?_, ?_⟩
  · rw [slots, ← slotEq]
    exact represents.clustered.insert absent path
  · intro other
    rw [slots, holds_update inside vacant, Finset.mem_insert,
      represents.holds]
  · have unmarked : buckets.occupied[slot]? = some false := by
      rcases slot_cases represents.entries represents.occupied inside with
        ⟨marker, _⟩ | ⟨_, _, _, taken⟩
      · exact marker
      · rw [vacant] at taken
        contradiction
    have marker : slot < buckets.occupied.length := by
      rw [represents.occupied]
      exact inside
    have wasFree : buckets.occupied[slot] = false := by
      rw [List.getElem?_eq_getElem marker] at unmarked
      exact Option.some.inj unmarked
    rw [marks, Finset.card_insert_of_notMem new, ← represents.count,
      List.count_set marker, wasFree]
    simp

/-- A search in a table with room ends, within one turn around the table. -/
theorem Represents.search {keys : Finset Entry}
    (represents : buckets.Represents capacity keys)
    (admissible : Admissible capacity) (room : keys.card < capacity)
    (entry : Entry) (wanted : Entry → Bool) :
    ∃ distance,
      FirstStop capacity (hash entry capacity)
          (Stops buckets.slots fun stored => wanted stored = true)
          distance ∧
        buckets.probe (sizeSub capacity 1) wanted capacity
            (hash entry capacity) =
          .ok
            ((buckets.slots
                (slotAt capacity (hash entry capacity) distance)).isSome,
              slotAt capacity (hash entry capacity) distance) := by
  have homeInside := admissible.hash_lt entry
  rcases represents.exists_vacant room with ⟨slot, inside, vacant⟩
  have stops :
      Stops buckets.slots (fun stored => wanted stored = true) slot :=
    stops_of_vacant vacant
  rcases exists_firstStop homeInside inside stops with ⟨distance, stop⟩
  exact ⟨distance, stop,
    probe_of_firstStop admissible represents.entries represents.occupied
      homeInside stop stop.bounded⟩

end Buckets

/-! ## Creating -/

theorem doubleUntil_zero {value : Nat} (positive : 0 < value)
    (steps : Nat) : doubleUntil value steps 0 = .error .endless := by
  induction steps with
  | zero => rfl
  | succ steps induction =>
      rw [doubleUntil, if_pos positive]
      simpa [sizeMul, wordMul] using induction

/-- Doubling a power of two below the top bit does not wrap. -/
theorem sizeMul_two_pow {exponent : Nat} (early : exponent < 63) :
    sizeMul (2 ^ exponent) 2 = 2 ^ (exponent + 1) := by
  have fits : 2 ^ (exponent + 1) < wordLimit :=
    Nat.pow_lt_pow_right (by omega) (by omega)
  rw [Nat.pow_succ] at fits ⊢
  exact wordMul_of_lt fits

/-- A rounding that ends does so at a power of two, before the shift wraps. -/
theorem doubleUntil_power {value steps exponent result : Nat}
    (positive : 0 < value) (small : exponent ≤ 63)
    (returned : doubleUntil value steps (2 ^ exponent) = .ok result) :
    ∃ reached, result = 2 ^ reached ∧ value ≤ result := by
  induction steps generalizing exponent with
  | zero => cases returned
  | succ steps induction =>
      rw [doubleUntil] at returned
      split at returned
      · rcases Nat.lt_or_eq_of_le small with below | rfl
        · rw [sizeMul_two_pow below] at returned
          exact induction below returned
        · have wrapped : sizeMul (2 ^ 63) 2 = 0 := by
            simp [sizeMul, wordMul, wordLimit]
          rw [wrapped, doubleUntil_zero positive] at returned
          cases returned
      · rename_i reached
        cases returned
        exact ⟨exponent, rfl, Nat.le_of_not_lt reached⟩

theorem roundUpToPowerOfTwo_power {steps value capacity : Nat}
    (returned : roundUpToPowerOfTwo steps value = .ok capacity) :
    ∃ exponent, capacity = 2 ^ (exponent + 1) := by
  unfold roundUpToPowerOfTwo at returned
  split at returned
  · cases returned
    exact ⟨0, rfl⟩
  · rename_i atLeast
    have started : doubleUntil value steps (2 ^ 0) = .ok capacity :=
      returned
    rcases doubleUntil_power (by omega) (Nat.zero_le _) started with
      ⟨reached, rfl, above⟩
    cases reached with
    | zero =>
        rw [Nat.pow_zero] at above
        omega
    | succ exponent => exact ⟨exponent, rfl⟩

/-- Fresh buckets are empty and their byte count has not wrapped. -/
theorem allocateBuckets_some {world after : World} {capacity : Nat}
    {buckets : Buckets}
    (succeeded : allocateBuckets world capacity = (some buckets, after)) :
    capacity * entrySize + capacity < sizeLimit ∧
      buckets.Represents capacity ∅ := by
  unfold allocateBuckets coreSafeMultiply coreSafeAdd at succeeded
  split at succeeded
  · simp at succeeded
  rename_i entriesSize multiplied
  split at multiplied
  · cases multiplied
    split at succeeded
    · simp at succeeded
    rename_i total added
    split at added
    · rename_i fits
      split at succeeded
      · simp at succeeded
      · simp only [Prod.mk.injEq, Option.some.injEq] at succeeded
        rcases succeeded with ⟨rfl, _⟩
        have vacant :
            ∀ block slot,
              Buckets.slots
                ⟨block, List.replicate capacity ⟨0, 0⟩,
                  List.replicate capacity false⟩ slot = none := by
          intro block slot
          apply Buckets.slots_of_unmarked
          simp [List.getElem?_replicate]
        refine ⟨fits, by simp, by simp,
          clustered_of_vacant _ fun slot _ => vacant _ slot, ?_, ?_⟩
        · intro entry
          simp [Holds, vacant]
        · simp [List.count_replicate]
    · cases added
  · cases multiplied

/-- The set represents `keys`, and its load is at most three quarters. -/
structure Represents (set : InodeSet) (keys : Finset Entry) : Prop where
  admissible : Admissible set.capacity
  buckets : set.buckets.Represents set.capacity keys
  size : set.size = keys.card
  load : 4 * keys.card ≤ 3 * set.capacity

theorem create_represents {steps : Nat} {world after : World}
    {initialCapacity : Nat} {set : Pooled InodeSet}
    (created :
      create steps world initialCapacity = .ok (some set, after)) :
    set.value.Represents ∅ := by
  unfold create at created
  dsimp only at created
  cases rounded :
      roundUpToPowerOfTwo steps
        (if initialCapacity = 0 then defaultCapacity
          else initialCapacity) with
  | error abort =>
      rw [rounded] at created
      cases created
  | ok capacity =>
      rw [rounded] at created
      dsimp only [bind, Except.bind] at created
      split at created
      · cases created
      · split at created
        · cases created
        · rename_i buckets _ allocated
          cases created
          rcases allocateBuckets_some allocated with ⟨fits, empty⟩
          exact ⟨⟨roundUpToPowerOfTwo_power rounded, fits⟩, empty, rfl,
            by simp⟩

/-! ## Rehashing -/

theorem reinsert_of_probe {set : InodeSet} {newCapacity index slot : Nat}
    {new : Buckets} {entry : Entry} {taken : Bool}
    (marked : set.buckets.occupied[index]? = some true)
    (stored : set.buckets.entries[index]? = some entry)
    (found :
      new.probe (sizeSub newCapacity 1) (fun _ => false) newCapacity
        (hash entry newCapacity) = .ok (taken, slot)) :
    reinsert set newCapacity new index = new.place slot entry := by
  simp only [reinsert, marked, stored, found]
  rfl

/-- The search of `bc_io_file_inode_set_grow` ends at a vacant slot. -/
theorem reinsert_marked {set : InodeSet} {newCapacity index : Nat}
    {new : Buckets} {done : Finset Entry} {entry : Entry}
    (admissible : Admissible newCapacity)
    (represents : new.Represents newCapacity done)
    (room : done.card < newCapacity)
    (marked : set.buckets.occupied[index]? = some true)
    (stored : set.buckets.entries[index]? = some entry)
    (fresh : entry ∉ done) :
    ∃ placed, reinsert set newCapacity new index = .ok placed ∧
      placed.Represents newCapacity (insert entry done) := by
  rcases represents.search admissible room entry (fun _ => false) with
    ⟨distance, stop, found⟩
  have vacant :
      new.slots (slotAt newCapacity (hash entry newCapacity) distance) =
        none := by
    apply Option.eq_none_iff_forall_ne_some.mpr
    intro other taken
    exact Bool.false_ne_true (stop.stopped other taken)
  rcases represents.place admissible fresh (fun _ => stop.taken) vacant with
    ⟨placed, succeeded, inserted⟩
  exact ⟨placed, (reinsert_of_probe marked stored found).trans succeeded,
    inserted⟩

/--
The loop of `bc_io_file_inode_set_grow` over some of the old slots adds exactly
what stands in them.
-/
theorem foldlM_reinsert {set : InodeSet} {keys : Finset Entry}
    (represents : set.buckets.Represents set.capacity keys)
    {newCapacity : Nat} (admissible : Admissible newCapacity)
    (room : keys.card < newCapacity) (indices : List Nat)
    (inside : ∀ index ∈ indices, index < set.capacity)
    (distinct : indices.Nodup) {new : Buckets} {done : Finset Entry}
    (started : new.Represents newCapacity done) (known : done ⊆ keys)
    (fresh : ∀ index ∈ indices, ∀ entry,
      set.buckets.slots index = some entry → entry ∉ done) :
    ∃ result reached,
      indices.foldlM (reinsert set newCapacity) new = .ok result ∧
      result.Represents newCapacity reached ∧
      ∀ entry, entry ∈ reached ↔
        entry ∈ done ∨
          ∃ index ∈ indices, set.buckets.slots index = some entry := by
  induction indices generalizing new done with
  | nil => exact ⟨new, done, rfl, started, by simp⟩
  | cons index rest induction =>
      rw [List.forall_mem_cons] at inside fresh
      rw [List.nodup_cons] at distinct
      rcases Buckets.slot_cases represents.entries represents.occupied
          inside.1 with
        ⟨unmarked, vacant⟩ | ⟨entry, marked, stored, taken⟩
      · rcases induction inside.2 distinct.2 started known fresh.2 with
          ⟨result, reached, folded, rehashed, members⟩
        refine ⟨result, reached, ?_, rehashed, ?_⟩
        · rw [List.foldlM_cons]
          simp only [reinsert, unmarked]
          exact folded
        · intro other
          rw [members other]
          simp [vacant]
      · have new_ : entry ∉ done := fresh.1 entry taken
        have isKey : entry ∈ keys :=
          (represents.holds entry).mpr ⟨index, inside.1, taken⟩
        have fits : done.card < newCapacity :=
          Nat.lt_of_le_of_lt (Finset.card_le_card known) room
        rcases reinsert_marked admissible started fits marked stored new_
          with ⟨placed, succeeded, inserted⟩
        have knownAfter : insert entry done ⊆ keys :=
          Finset.insert_subset isKey known
        -- the same entry does not stand in a later slot
        have freshAfter :
            ∀ later ∈ rest, ∀ other,
              set.buckets.slots later = some other →
                other ∉ insert entry done := by
          intro later isLater other otherTaken member
          rcases Finset.mem_insert.mp member with rfl | wasDone
          · have same :=
              represents.clustered.unique (inside.2 later isLater) inside.1
                otherTaken taken
            exact distinct.1 (same ▸ isLater)
          · exact fresh.2 later isLater other otherTaken wasDone
        rcases induction inside.2 distinct.2 inserted knownAfter freshAfter
          with ⟨result, reached, folded, rehashed, members⟩
        refine ⟨result, reached, ?_, rehashed, ?_⟩
        · rw [List.foldlM_cons, succeeded]
          exact folded
        · intro other
          rw [members other, Finset.mem_insert]
          simp only [List.mem_cons, exists_eq_or_imp, taken,
            Option.some.injEq]
          constructor
          · rintro ((rfl | wasDone) | later)
            · exact Or.inr (Or.inl rfl)
            · exact Or.inl wasDone
            · exact Or.inr (Or.inr later)
          · rintro (wasDone | rfl | later)
            · exact Or.inl (Or.inr wasDone)
            · exact Or.inl (Or.inl rfl)
            · exact Or.inr later

/--
Growing fails without touching the set, or doubles the table and keeps what it
represents.
-/
theorem grow_spec {set : InodeSet} {keys : Finset Entry}
    (represents : set.Represents keys) (world : World) :
    ∃ grown after, grow world set = .ok (grown, after) ∧
      ∀ larger, grown = some larger →
        larger.Represents keys ∧ larger.capacity = 2 * set.capacity := by
  have small := represents.admissible.small
  have atLeast := represents.admissible.two_le
  have load := represents.load
  have doubled : sizeMul set.capacity 2 = 2 * set.capacity := by
    rw [sizeMul, wordMul_of_lt (by omega), Nat.mul_comm]
  unfold grow
  dsimp only
  rw [doubled]
  cases allocation : allocateBuckets world (2 * set.capacity) with
  | mk buckets after =>
      cases buckets with
      | none => exact ⟨none, after, rfl, by simp⟩
      | some new =>
          rcases allocateBuckets_some allocation with ⟨fits, empty⟩
          have admissible : Admissible (2 * set.capacity) := by
            rcases represents.admissible.power with ⟨exponent, power⟩
            exact ⟨⟨exponent + 1, by rw [power, ← Nat.pow_succ']⟩, fits⟩
          rcases foldlM_reinsert represents.buckets admissible (by omega)
              (List.range set.capacity) (fun _ => List.mem_range.mp)
              List.nodup_range empty (Finset.empty_subset keys)
              (fun _ _ _ _ => Finset.notMem_empty _) with
            ⟨result, reached, folded, rehashed, members⟩
          have all : reached = keys := by
            ext entry
            rw [members entry, represents.buckets.holds entry]
            simp [Holds]
          subst all
          refine ⟨some ⟨result, 2 * set.capacity, set.size⟩,
            after.poolFree set.buckets.block, ?_, ?_⟩
          · simp only [folded]
            rfl
          · intro larger isLarger
            cases isLarger
            exact ⟨⟨admissible, rehashed, represents.size, by
              change 4 * _ ≤ 3 * (2 * set.capacity)
              omega⟩, rfl⟩

/-! ## The calls -/

theorem insertWithRoom_of_found {set : InodeSet} {world : World}
    {entry : Entry} {slot : Nat}
    (found :
      set.buckets.probe (sizeSub set.capacity 1)
        (fun stored => stored = entry) set.capacity
        (hash entry set.capacity) = .ok (true, slot)) :
    insertWithRoom world set entry = .ok ⟨some true, set, world⟩ := by
  simp only [insertWithRoom, found]
  rfl

theorem insertWithRoom_of_vacant {set : InodeSet} {world : World}
    {entry : Entry} {slot : Nat} {placed : Buckets}
    (found :
      set.buckets.probe (sizeSub set.capacity 1)
        (fun stored => stored = entry) set.capacity
        (hash entry set.capacity) = .ok (false, slot))
    (succeeded : set.buckets.place slot entry = .ok placed) :
    insertWithRoom world set entry =
      .ok ⟨some false, ⟨placed, set.capacity, sizeAdd set.size 1⟩,
        world⟩ := by
  simp only [insertWithRoom, found]
  change (set.buckets.place slot entry >>= _) = _
  rw [succeeded]
  rfl

/-- The search for an entry stops at a taken slot exactly if it is there. -/
theorem Represents.lookup {set : InodeSet} {keys : Finset Entry}
    (represents : set.Represents keys) (entry : Entry) :
    ∃ distance,
      FirstStop set.capacity (hash entry set.capacity)
          (Stops set.buckets.slots fun stored =>
            decide (stored = entry) = true) distance ∧
        set.buckets.probe (sizeSub set.capacity 1)
            (fun stored => stored = entry) set.capacity
            (hash entry set.capacity) =
          .ok
            ((set.buckets.slots
                (slotAt set.capacity (hash entry set.capacity)
                  distance)).isSome,
              slotAt set.capacity (hash entry set.capacity) distance) ∧
        ((set.buckets.slots
            (slotAt set.capacity (hash entry set.capacity)
              distance)).isSome = true ↔ entry ∈ keys) := by
  have atLeast := represents.admissible.two_le
  have load := represents.load
  rcases represents.buckets.search represents.admissible (by omega) entry
      (fun stored => stored = entry) with ⟨distance, stop, found⟩
  have stopFor :
      FirstStop set.capacity (hash entry set.capacity)
        (Stops set.buckets.slots (· = entry)) distance := by
    simpa using stop
  exact ⟨distance, stop, found,
    (represents.buckets.clustered.found_iff stopFor (by omega)).trans
      (represents.buckets.holds entry).symm⟩

theorem insertWithRoom_spec {set : InodeSet} {keys : Finset Entry}
    (represents : set.Represents keys) (world : World) (entry : Entry)
    (room : 4 * (keys.card + 1) ≤ 3 * set.capacity) :
    ∃ after, insertWithRoom world set entry =
        .ok ⟨some (decide (entry ∈ keys)), after, world⟩ ∧
      after.Represents (insert entry keys) := by
  have small := represents.admissible.small
  rcases represents.lookup entry with ⟨distance, stop, found, decides⟩
  by_cases present : entry ∈ keys
  · rw [decides.mpr present] at found
    refine ⟨set, ?_, ?_⟩
    · rw [insertWithRoom_of_found found, decide_eq_true present]
    · rw [Finset.insert_eq_of_mem present]
      exact represents
  · have vacant :
        set.buckets.slots
          (slotAt set.capacity (hash entry set.capacity) distance) =
            none := by
      rw [← Option.not_isSome_iff_eq_none]
      exact fun taken => present (decides.mp taken)
    rcases represents.buckets.place represents.admissible present
        (fun _ => stop.taken) vacant with ⟨placed, succeeded, inserted⟩
    have card := Finset.card_insert_of_notMem present
    rw [vacant, Option.isSome_none] at found
    refine ⟨⟨placed, set.capacity, sizeAdd set.size 1⟩, ?_, ?_⟩
    · rw [insertWithRoom_of_vacant found succeeded,
        decide_eq_false present]
    · refine ⟨represents.admissible, inserted, ?_, ?_⟩
      · change sizeAdd set.size 1 = _
        rw [represents.size, card, sizeAdd, wordAdd_of_lt (by omega)]
      · change 4 * _ ≤ 3 * set.capacity
        rw [card]
        exact room

/--
An insertion that fails leaves the set as it is; one that succeeds reports
whether the entry was there and adds it.
-/
theorem insert_spec {set : InodeSet} {keys : Finset Entry}
    (represents : set.Represents keys) (world : World) (entry : Entry) :
    ∃ result, set.insert world entry = .ok result ∧
      ((result.wasAlreadyPresent = none ∧ result.set = set) ∨
        (result.wasAlreadyPresent = some (decide (entry ∈ keys)) ∧
          result.set.Represents (insert entry keys))) := by
  have small := represents.admissible.small
  have atLeast := represents.admissible.two_le
  have load := represents.load
  have threshold :
      sizeMul set.capacity 3 < sizeMul (sizeAdd set.size 1) 4 ↔
        3 * set.capacity < 4 * (keys.card + 1) := by
    rw [represents.size, sizeAdd, wordAdd_of_lt (by omega), sizeMul,
      wordMul_of_lt (by omega), wordMul_of_lt (by omega),
      Nat.mul_comm set.capacity, Nat.mul_comm (keys.card + 1)]
  unfold InodeSet.insert
  by_cases full : 3 * set.capacity < 4 * (keys.card + 1)
  · rw [if_pos (threshold.mpr full)]
    rcases grow_spec represents world with ⟨grown, after, grows, larger⟩
    rw [grows]
    cases grown with
    | none => exact ⟨⟨none, set, after⟩, rfl, Or.inl ⟨rfl, rfl⟩⟩
    | some bigger =>
        rcases larger bigger rfl with ⟨kept, capacity⟩
        rcases insertWithRoom_spec kept after entry (by omega) with
          ⟨final, inserted, represented⟩
        exact ⟨_, inserted, Or.inr ⟨rfl, represented⟩⟩
  · rw [if_neg (mt threshold.mp full)]
    rcases insertWithRoom_spec represents world entry (by omega) with
      ⟨final, inserted, represented⟩
    exact ⟨_, inserted, Or.inr ⟨rfl, represented⟩⟩

theorem contains_spec {set : InodeSet} {keys : Finset Entry}
    (represents : set.Represents keys) (entry : Entry) :
    contains set entry = .ok (decide (entry ∈ keys)) := by
  rcases represents.lookup entry with ⟨distance, _, found, decides⟩
  unfold contains
  dsimp only
  rw [found]
  change Except.ok _ = _
  rw [Except.ok.injEq, Bool.eq_iff_iff, decides, decide_eq_true_iff]

theorem clear_spec {set : InodeSet} {keys : Finset Entry}
    (represents : set.Represents keys) :
    ∃ after, clear set = .ok after ∧ after.Represents ∅ := by
  have whole : set.capacity ≤ set.buckets.occupied.length :=
    Nat.le_of_eq represents.buckets.occupied.symm
  have nothingBehind : set.buckets.occupied.drop set.capacity = [] :=
    List.drop_eq_nil_of_le (Nat.le_of_eq represents.buckets.occupied)
  refine ⟨_, if_pos whole, represents.admissible, ?_, rfl, by simp⟩
  rw [nothingBehind, List.append_nil]
  have vacant :
      ∀ slot,
        Buckets.slots
          { set.buckets with
            occupied := List.replicate set.capacity false } slot = none := by
    intro slot
    apply Buckets.slots_of_unmarked
    simp [List.getElem?_replicate]
  refine ⟨represents.buckets.entries, by simp,
    clustered_of_vacant _ fun slot _ => vacant slot, ?_, ?_⟩
  · intro entry
    simp [Holds, vacant]
  · simp [List.count_replicate]

/-! ## Runs as operations on a finite set -/

/-- The calls as operations on a finite set of pairs. -/
inductive SetStep (keys : Finset Entry) :
    Operation → Answer → Finset Entry → Prop where
  | insert (entry : Entry) :
      SetStep keys (.insert entry)
        (.inserted (some (decide (entry ∈ keys)))) (insert entry keys)
  | insertFailed (entry : Entry) :
      SetStep keys (.insert entry) (.inserted none) keys
  | contains (entry : Entry) :
      SetStep keys (.contains entry) (.contained (decide (entry ∈ keys)))
        keys
  | clear : SetStep keys .clear .cleared ∅
  | getSize : SetStep keys .getSize (.size keys.card) keys

/--
The calls of a run are steps of a finite set that starts as `keys`, and a
failed insertion leaves the table and the size as they were.
-/
def Follows (keys : Finset Entry) (set : InodeSet) :
    List Operation → List (Answer × InodeSet) → Prop
  | [], [] => True
  | operation :: rest, (answer, after) :: later =>
      ∃ keysAfter, SetStep keys operation answer keysAfter ∧
        (answer = .inserted none → after = set) ∧
        Follows keysAfter after rest later
  | _, _ => False

/-- One call is one step of the finite set, and keeps the representation. -/
theorem perform_spec {set : InodeSet} {keys : Finset Entry}
    (represents : set.Represents keys) (world : World)
    (operation : Operation) :
    ∃ answer after worldAfter keysAfter,
      perform world set operation = .ok (answer, after, worldAfter) ∧
      SetStep keys operation answer keysAfter ∧
      (answer = .inserted none → after = set) ∧
      after.Represents keysAfter := by
  cases operation with
  | insert entry =>
      rcases insert_spec represents world entry with
        ⟨result, inserted, ⟨failed, same⟩ | ⟨reported, kept⟩⟩
      · refine ⟨.inserted none, set, result.world, keys, ?_,
          .insertFailed entry, fun _ => rfl, represents⟩
        rw [perform, inserted, ← failed, ← same]
        rfl
      · refine ⟨_, result.set, result.world, _, ?_, .insert entry, ?_, kept⟩
        · rw [perform, inserted, ← reported]
          rfl
        · intro failed
          cases failed
  | contains entry =>
      refine ⟨_, set, world, keys, ?_, .contains entry, fun _ => rfl,
        represents⟩
      rw [perform, contains_spec represents entry]
      rfl
  | clear =>
      rcases clear_spec represents with ⟨after, cleared, empty⟩
      refine ⟨.cleared, after, world, ∅, ?_, .clear, ?_, empty⟩
      · rw [perform, cleared]
        rfl
      · intro failed
        cases failed
  | getSize =>
      refine ⟨_, set, world, keys, ?_, .getSize, fun _ => rfl, represents⟩
      rw [perform, getSize, represents.size]
      rfl

theorem run_follows {set : InodeSet} {keys : Finset Entry}
    (represents : set.Represents keys) (world : World)
    (operations : List Operation) :
    ∃ trace, run world set operations = .ok trace ∧
      Follows keys set operations trace := by
  induction operations generalizing world set keys with
  | nil => exact ⟨[], rfl, trivial⟩
  | cons operation rest induction =>
      rcases perform_spec represents world operation with
        ⟨answer, after, worldAfter, keysAfter, performed, step, unchanged,
          kept⟩
      rcases induction kept worldAfter with ⟨later, ran, follows⟩
      refine ⟨(answer, after) :: later, ?_, keysAfter, step, unchanged,
        follows⟩
      rw [run, performed]
      change (run worldAfter after rest >>= _) = _
      rw [ran]
      rfl

/--
An inode set behaves as a finite set of (device, inode) pairs: whatever the
initial capacity it was created with, whatever the calls and whatever the
allocator answers, every call returns, and its answer is the one of the finite
set, empty at the start and after a clear.
-/
theorem inodeSet_refines_finset (steps : Nat) (world opened : World)
    (initialCapacity : Nat) (set : Pooled InodeSet)
    (created :
      create steps world initialCapacity = .ok (some set, opened))
    (operations : List Operation) :
    ∃ trace, run opened set.value operations = .ok trace ∧
      Follows ∅ set.value operations trace :=
  run_follows (create_represents created) opened operations

/-- A system whose third allocation fails. -/
def thirdAllocationFails : World where
  files _ := none
  openFiles := []
  mappings := []
  memory _ := 0
  nextAddress := World.pageSize
  blocks := []
  arenas := []
  nextIdentity := 0
  faults kind :=
    if kind = .poolAllocate then [none, none, some Errno.enomem] else []
  strayReleases := 0
  uninitialisedSize := 0

/-- A growth that fails, the same insertion again, and a clear. -/
theorem inodeSet_refines_finset_failed_growth :
    ∃ set opened trace,
      create 2 thirdAllocationFails 1 = .ok (some set, opened) ∧
        run opened set.value
          [.insert ⟨1, 1⟩, .insert ⟨1, 2⟩, .insert ⟨1, 2⟩,
            .contains ⟨1, 1⟩, .getSize, .clear, .contains ⟨1, 1⟩] =
          .ok trace ∧
        trace.map Prod.fst =
          [.inserted (some false), .inserted none, .inserted (some false),
            .contained true, .size 2, .cleared, .contained false] ∧
        Follows ∅ set.value
          [.insert ⟨1, 1⟩, .insert ⟨1, 2⟩, .insert ⟨1, 2⟩,
            .contains ⟨1, 1⟩, .getSize, .clear, .contains ⟨1, 1⟩]
          trace := by
  have creates :
      ∃ set opened,
        create 2 thirdAllocationFails 1 = .ok (some set, opened) ∧
          ((run opened set.value
            [.insert ⟨1, 1⟩, .insert ⟨1, 2⟩, .insert ⟨1, 2⟩,
              .contains ⟨1, 1⟩, .getSize, .clear,
              .contains ⟨1, 1⟩]).map fun trace => trace.map Prod.fst) =
            .ok [.inserted (some false), .inserted none,
              .inserted (some false), .contained true, .size 2, .cleared,
              .contained false] :=
    ⟨_, _, rfl, rfl⟩
  rcases creates with ⟨set, opened, created, answers⟩
  rcases
      inodeSet_refines_finset 2 thirdAllocationFails opened 1 set created
        [.insert ⟨1, 1⟩, .insert ⟨1, 2⟩, .insert ⟨1, 2⟩, .contains ⟨1, 1⟩,
          .getSize, .clear, .contains ⟨1, 1⟩] with
    ⟨trace, ran, follows⟩
  rw [ran] at answers
  exact ⟨set, opened, trace, created, ran, Except.ok.inj answers, follows⟩

end BcIo.File.InodeSet
