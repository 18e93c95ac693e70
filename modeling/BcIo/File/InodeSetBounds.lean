import BcIo.File.InodeSetRefinement

/-!
# What holds of every set of inodes

The tables a program can reach from a successful create by any insertions and
clears, with any allocator behind them.  The load bound that an insertion
checks is what ends the probe loops; the overflow checks of the allocation are
what keeps every product of the capacity inside a word.  Two calls promise
more than they keep: a create of more than half the address range never
returns, and an insertion of a present key at the load bound tries to grow.
-/

namespace BcIo.File.InodeSet

open BcIo.Foundation.MachineWord
open BcIo.Foundation.LinearProbe

/-- A set that some sequence of calls has produced. -/
inductive Reachable : InodeSet → Prop where
  | create (steps : Nat) (world after : World) (initialCapacity : Nat)
      (set : Pooled InodeSet)
      (created :
        InodeSet.create steps world initialCapacity =
          .ok (some set, after)) :
      Reachable set.value
  | insert (set : InodeSet) (reachable : Reachable set) (world : World)
      (entry : Entry) (result : Inserted)
      (inserted : set.insert world entry = .ok result) :
      Reachable result.set
  | clear (set : InodeSet) (reachable : Reachable set) (after : InodeSet)
      (cleared : clear set = .ok after) :
      Reachable after

/-- Every reachable set represents a finite set of pairs. -/
theorem Reachable.represents {set : InodeSet} (reachable : Reachable set) :
    ∃ keys, set.Represents keys := by
  induction reachable with
  | create steps world after initialCapacity set created =>
      exact ⟨∅, create_represents created⟩
  | insert set reachable world entry result inserted before =>
      rcases before with ⟨keys, represents⟩
      rcases insert_spec represents world entry with
        ⟨other, returned, ⟨_, same⟩ | ⟨_, kept⟩⟩
      · cases inserted.symm.trans returned
        rw [same]
        exact ⟨keys, represents⟩
      · cases inserted.symm.trans returned
        exact ⟨_, kept⟩
  | clear set reachable after cleared before =>
      rcases before with ⟨keys, represents⟩
      rcases clear_spec represents with ⟨other, returned, kept⟩
      cases cleared.symm.trans returned
      exact ⟨∅, kept⟩

/-! ## Bounds -/

/-- What the loops and the arithmetic of a table rely on. -/
structure Healthy (set : InodeSet) : Prop where
  power : ∃ exponent, set.capacity = 2 ^ (exponent + 1)
  sized :
    set.buckets.entries.length = set.capacity ∧
      set.buckets.occupied.length = set.capacity
  counted : set.size = set.buckets.occupied.count true
  load : 4 * set.size ≤ 3 * set.capacity
  free : ∃ slot, slot < set.capacity ∧
    set.buckets.occupied[slot]? = some false
  hashed : ∀ entry, hash entry set.capacity < set.capacity
  next :
    ∀ slot, slot < set.capacity →
      (sizeAdd slot 1 &&& sizeSub set.capacity 1) < set.capacity
  /-- A probe for any entry, with any stopping rule, ends in `capacity` steps. -/
  probes :
    ∀ entry wanted, ∃ found slot,
      set.buckets.probe (sizeSub set.capacity 1) wanted set.capacity
          (hash entry set.capacity) = .ok (found, slot) ∧
        slot < set.capacity
  inserts : ∀ world entry, ∃ result, set.insert world entry = .ok result
  contains : ∀ entry, ∃ isPresent, contains set entry = .ok isPresent
  /-- Each reinsertion of a growth ends in as many steps as the new table has. -/
  grows : ∀ world, ∃ grown after, grow world set = .ok (grown, after)
  doubled : sizeMul set.capacity 2 = set.capacity * 2
  tripled : sizeMul set.capacity 3 = set.capacity * 3
  quadrupled : sizeMul (sizeAdd set.size 1) 4 = (set.size + 1) * 4
  /-- The bytes of the table, and of any table a growth allocates. -/
  bytes : set.capacity * entrySize + set.capacity < sizeLimit
  newBytes :
    ∀ world buckets after,
      allocateBuckets world (sizeMul set.capacity 2) =
          (some buckets, after) →
        set.capacity * 2 * entrySize + set.capacity * 2 < sizeLimit

/-- A table that represents a set of pairs keeps to all the bounds. -/
theorem Represents.healthy {set : InodeSet} {keys : Finset Entry}
    (represents : set.Represents keys) : Healthy set := by
  have admissible := represents.admissible
  have small := admissible.small
  have atLeast := admissible.two_le
  have load := represents.load
  have room : keys.card < set.capacity := by
    omega
  have doubled : sizeMul set.capacity 2 = set.capacity * 2 :=
    wordMul_of_lt (by omega)
  refine
    { power := admissible.power
      sized := ⟨represents.buckets.entries, represents.buckets.occupied⟩
      counted := represents.size.trans represents.buckets.count.symm
      load := by rw [represents.size]; exact load
      free := ?_
      hashed := admissible.hash_lt
      next := ?_
      probes := ?_
      inserts := ?_
      contains := fun entry => ⟨_, contains_spec represents entry⟩
      grows := ?_
      doubled := doubled
      tripled := wordMul_of_lt (by omega)
      quadrupled := ?_
      bytes := admissible.fits
      newBytes := ?_ }
  · rcases represents.buckets.exists_vacant room with ⟨slot, inside, vacant⟩
    rcases Buckets.slot_cases represents.buckets.entries
        represents.buckets.occupied inside with
      ⟨unmarked, _⟩ | ⟨stored, _, _, held⟩
    · exact ⟨slot, inside, unmarked⟩
    · rw [vacant] at held
      cases held
  · intro slot inside
    rw [admissible.next inside]
    exact Nat.mod_lt _ (by omega)
  · intro entry wanted
    rcases represents.buckets.search admissible room entry wanted with
      ⟨distance, stop, found⟩
    exact ⟨_, _, found, Nat.mod_lt _ (by omega)⟩
  · intro world entry
    rcases insert_spec represents world entry with ⟨result, returned, _⟩
    exact ⟨result, returned⟩
  · intro world
    rcases grow_spec represents world with ⟨grown, after, returned, _⟩
    exact ⟨grown, after, returned⟩
  · rw [represents.size, sizeAdd, wordAdd_of_lt (by omega)]
    exact wordMul_of_lt (by omega)
  · intro world buckets after allocated
    rw [doubled] at allocated
    exact (allocateBuckets_some allocated).1

/--
In every reachable set the load leaves a slot free, so every probe loop of an
insertion, a lookup and a growth ends within the capacity, at slots of the
table, and no product or sum of capacity and size wraps.
-/
theorem reachable_healthy (set : InodeSet) (reachable : Reachable set) :
    Healthy set := by
  rcases reachable.represents with ⟨keys, represents⟩
  exact represents.healthy

/-- A set of the smallest capacity after a failed growth. -/
theorem reachable_healthy_failed_growth :
    ∃ set, Reachable set ∧ set.capacity = 2 ∧ set.size = 1 ∧
      Healthy set := by
  have reached :
      ∃ created opened first second,
        create 2 thirdAllocationFails 1 = .ok (some created, opened) ∧
          created.value.insert opened ⟨1, 1⟩ = .ok first ∧
          first.set.insert first.world ⟨1, 2⟩ = .ok second ∧
          second.wasAlreadyPresent = none ∧
          second.set.capacity = 2 ∧ second.set.size = 1 :=
    ⟨_, _, _, _, rfl, rfl, rfl, rfl, rfl, rfl⟩
  rcases reached with
    ⟨created, opened, first, second, creates, inserts, fails, _, capacity,
      size⟩
  have reachable : Reachable second.set :=
    .insert _
      (.insert _ (.create 2 thirdAllocationFails opened 1 created creates)
        opened ⟨1, 1⟩ first inserts)
      first.world ⟨1, 2⟩ second fails
  exact ⟨second.set, reachable, capacity, size,
    reachable_healthy second.set reachable⟩

/-! ## The rounding loop -/

/-- The least power of two that reaches a bound. -/
structure LeastPowerOfTwo (bound result : Nat) : Prop where
  power : ∃ exponent, result = 2 ^ exponent
  reaches : bound ≤ result
  least : ∀ exponent, bound ≤ 2 ^ exponent → result ≤ 2 ^ exponent

/--
Up to half the range of a word the loop ends, at the least power of two that
reaches the value: no smaller exponent than the current one reaches it.
-/
theorem doubleUntil_least {value : Nat} (small : value ≤ 2 ^ 63)
    (steps exponent : Nat) (left : exponent + steps = 64)
    (passed : ∀ other, value ≤ 2 ^ other → exponent ≤ other) :
    ∃ result, doubleUntil value steps (2 ^ exponent) = .ok result ∧
      LeastPowerOfTwo value result := by
  induction steps generalizing exponent with
  | zero =>
      have bounded := passed 63 small
      omega
  | succ steps induction =>
      rw [doubleUntil]
      split
      · rename_i below
        have strict : ∀ other, value ≤ 2 ^ other → exponent < other := by
          intro other reached
          refine (Nat.pow_lt_pow_iff_right (by decide : 1 < 2)).mp ?_
          exact Nat.lt_of_lt_of_le below reached
        rw [sizeMul_two_pow (strict 63 small)]
        exact induction (exponent + 1) (by omega) strict
      · rename_i reached
        refine ⟨_, rfl, ⟨exponent, rfl⟩, Nat.le_of_not_lt reached, ?_⟩
        intro other reaches
        exact Nat.pow_le_pow_right (by decide) (passed other reaches)

/-- Above half the range the shift reaches zero and the loop goes on forever. -/
theorem doubleUntil_endless {value : Nat} (large : 2 ^ 63 < value)
    (steps exponent : Nat) (early : exponent ≤ 63) :
    doubleUntil value steps (2 ^ exponent) = .error .endless := by
  induction steps generalizing exponent with
  | zero => rfl
  | succ steps induction =>
      have below : 2 ^ exponent < value :=
        Nat.lt_of_le_of_lt (Nat.pow_le_pow_right (by decide) early) large
      rw [doubleUntil, if_pos below]
      rcases Nat.lt_or_eq_of_le early with earlier | rfl
      · rw [sizeMul_two_pow earlier]
        exact induction (exponent + 1) earlier
      · have wrapped : sizeMul (2 ^ 63) 2 = 0 := by
          simp [sizeMul, wordMul, wordLimit]
        rw [wrapped]
        exact doubleUntil_zero (by omega) steps

/-- The capacity a create asks for, before it is rounded. -/
def requestedCapacity (initialCapacity : Nat) : Nat :=
  if initialCapacity = 0 then defaultCapacity else initialCapacity

theorem roundUpToPowerOfTwo_least {value : Nat} (small : value ≤ 2 ^ 63) :
    ∃ result, roundUpToPowerOfTwo 64 value = .ok result ∧
      LeastPowerOfTwo (max 2 value) result := by
  unfold roundUpToPowerOfTwo
  split
  · rename_i tiny
    have two : max 2 value = 2 := by
      omega
    rw [two]
    exact ⟨2, rfl, ⟨1, rfl⟩, Nat.le_refl _, fun _ reaches => reaches⟩
  · rename_i atLeast
    have same : max 2 value = value := by
      omega
    rw [same]
    exact doubleUntil_least small 64 0 rfl fun _ _ => Nat.zero_le _

/-- A new table is empty and has the capacity that was asked for. -/
theorem allocateBuckets_vacant {world after : World} {capacity : Nat}
    {buckets : Buckets}
    (allocated : allocateBuckets world capacity = (some buckets, after)) :
    buckets.occupied = List.replicate capacity false := by
  unfold allocateBuckets at allocated
  split at allocated
  · simp at allocated
  split at allocated
  · simp at allocated
  split at allocated
  · simp at allocated
  · cases allocated
    rfl

/-- What a create that returns a set has built. -/
structure Fresh (initialCapacity : Nat) (set : InodeSet) : Prop where
  size : set.size = 0
  occupied : set.buckets.occupied = List.replicate set.capacity false
  capacity :
    LeastPowerOfTwo (max 2 (requestedCapacity initialCapacity)) set.capacity

/-- A create whose rounding has ended returns, whatever the allocator does. -/
theorem create_of_rounded {steps initialCapacity capacity : Nat}
    (world : World)
    (rounded :
      roundUpToPowerOfTwo steps (requestedCapacity initialCapacity) =
        .ok capacity) :
    ∃ outcome after,
      create steps world initialCapacity = .ok (outcome, after) ∧
        ∀ set, outcome = some set →
          set.value.size = 0 ∧ set.value.capacity = capacity ∧
            set.value.buckets.occupied =
              List.replicate capacity false := by
  unfold requestedCapacity at rounded
  unfold create
  dsimp only
  rw [rounded]
  simp only [Bind.bind, Except.bind]
  cases world.poolAllocate with
  | mk block world₁ =>
      cases block with
      | none => exact ⟨none, world₁, rfl, by simp⟩
      | some block =>
          cases allocation : allocateBuckets world₁ capacity with
          | mk buckets world₂ =>
              cases buckets with
              | none =>
                  refine ⟨none, world₂.poolFree block, ?_, by simp⟩
                  simp only [allocation]
                  rfl
              | some buckets =>
                  refine ⟨some ⟨block, ⟨buckets, capacity, 0⟩⟩, world₂,
                    ?_, ?_⟩
                  · simp only [allocation]
                    rfl
                  rintro set ⟨⟩
                  exact ⟨rfl, rfl, allocateBuckets_vacant allocation⟩

/-- Above half the range a create does not return, however long it runs. -/
theorem create_endless {initialCapacity : Nat}
    (large : 2 ^ 63 < initialCapacity) (steps : Nat) (world : World) :
    create steps world initialCapacity = .error .endless := by
  have nonzero : initialCapacity ≠ 0 := by
    omega
  have rounding :
      roundUpToPowerOfTwo steps initialCapacity = .error .endless := by
    rw [roundUpToPowerOfTwo, if_neg (by omega)]
    exact doubleUntil_endless large steps 0 (by decide)
  unfold create
  dsimp only
  rw [if_neg nonzero, rounding]
  rfl

/--
A create returns for every allocator, with `false` or with an empty set of the
least power of two, exactly when it is asked for no more than `2 ^ 63`: above
that the doubled word wraps to zero before it reaches the request.
-/
theorem create_returns_iff (initialCapacity : Nat) :
    (∀ world, ∃ steps outcome after,
        create steps world initialCapacity = .ok (outcome, after) ∧
          ∀ set, outcome = some set → Fresh initialCapacity set.value) ↔
      initialCapacity ≤ 2 ^ 63 := by
  constructor
  · intro returns
    by_contra large
    rcases returns thirdAllocationFails with
      ⟨steps, outcome, after, returned, _⟩
    rw [create_endless (Nat.lt_of_not_le large)] at returned
    cases returned
  · intro small world
    have requested : requestedCapacity initialCapacity ≤ 2 ^ 63 := by
      unfold requestedCapacity defaultCapacity
      split <;> omega
    rcases roundUpToPowerOfTwo_least requested with
      ⟨capacity, rounded, least⟩
    rcases create_of_rounded world rounded with
      ⟨outcome, after, returned, built⟩
    refine ⟨64, outcome, after, returned, ?_⟩
    intro set made
    rcases built set made with ⟨size, capacityEq, occupied⟩
    refine ⟨size, ?_, ?_⟩
    · rw [capacityEq]
      exact occupied
    · rw [capacityEq]
      exact least

/-- A request of five slots. -/
theorem create_returns_iff_five :
    ∃ steps outcome after,
      create steps thirdAllocationFails 5 = .ok (outcome, after) ∧
        ∀ set, outcome = some set → Fresh 5 set.value :=
  (create_returns_iff 5).mpr (by decide) thirdAllocationFails

/-- A request of one slot more than half the range. -/
theorem create_never_returns :
    2 ^ 63 + 1 < sizeLimit ∧
      ¬ ∀ world, ∃ steps outcome after,
        create steps world (2 ^ 63 + 1) = .ok (outcome, after) := by
  refine ⟨by simp [wordLimit], ?_⟩
  intro returns
  rcases returns thirdAllocationFails with
    ⟨steps, outcome, after, returned⟩
  rw [create_endless (by decide)] at returned
  cases returned

/-! ## Inserting a key that is present -/

/-- A lookup that finds a key has stopped at its slot. -/
theorem probe_of_contains {set : InodeSet} {entry : Entry}
    (present : contains set entry = .ok true) :
    ∃ slot,
      set.buckets.probe (sizeSub set.capacity 1)
        (fun stored => stored = entry) set.capacity
        (hash entry set.capacity) = .ok (true, slot) := by
  unfold contains at present
  dsimp only at present
  generalize set.buckets.probe _ _ _ _ = probed at present ⊢
  cases probed with
  | error abort => cases present
  | ok result =>
      rcases result with ⟨found, slot⟩
      cases present
      exact ⟨slot, rfl⟩

/-- An insertion with room keeps the capacity. -/
theorem insertWithRoom_capacity {world : World} {set : InodeSet}
    {entry : Entry} {result : Inserted}
    (inserted : insertWithRoom world set entry = .ok result) :
    result.set.capacity = set.capacity := by
  unfold insertWithRoom at inserted
  dsimp only at inserted
  generalize set.buckets.probe _ _ _ _ = probed at inserted
  cases probed with
  | error abort => cases inserted
  | ok found =>
      rcases found with ⟨present, slot⟩
      simp only [Bind.bind, Except.bind] at inserted
      split at inserted
      · cases inserted
        rfl
      · cases placing : set.buckets.place slot entry with
        | error abort => simp [placing] at inserted
        | ok placed =>
            simp only [placing] at inserted
            cases inserted
            rfl

/-- The load check of an insertion, without the words. -/
theorem Healthy.threshold {set : InodeSet} (healthy : Healthy set) :
    sizeMul set.capacity 3 < sizeMul (sizeAdd set.size 1) 4 ↔
      set.capacity * 3 < (set.size + 1) * 4 := by
  rw [healthy.tripled, healthy.quadrupled]

/-- An insertion past the load bound never leaves the set as it was. -/
theorem insert_past_bound {set : InodeSet} {keys : Finset Entry}
    (represents : set.Represents keys) (world after : World)
    (entry : Entry) (full : set.capacity * 3 < (set.size + 1) * 4) :
    set.insert world entry ≠ .ok ⟨some true, set, after⟩ := by
  intro unchanged
  have atLeast := represents.admissible.two_le
  unfold InodeSet.insert at unchanged
  rw [if_pos (represents.healthy.threshold.mpr full)] at unchanged
  rcases grow_spec represents world with ⟨grown, later, grows, larger⟩
  rw [grows] at unchanged
  cases grown with
  | none => cases unchanged
  | some bigger =>
      have capacity := insertWithRoom_capacity unchanged
      rw [(larger bigger rfl).2] at capacity
      simp only at capacity
      omega

/--
For every reachable set, every pair in it and every allocator: the insertion
of that pair reports it as present and leaves the table as it is exactly when
one more pair would still be within the load bound.  The bound is checked, and
the table grown, before the pair is looked up.
-/
theorem insert_present_unchanged_iff (set : InodeSet)
    (reachable : Reachable set) (entry : Entry)
    (present : contains set entry = .ok true) (world : World) :
    (∃ after, set.insert world entry = .ok ⟨some true, set, after⟩) ↔
      (set.size + 1) * 4 ≤ set.capacity * 3 := by
  rcases reachable.represents with ⟨keys, represents⟩
  constructor
  · rintro ⟨after, unchanged⟩
    by_contra full
    exact insert_past_bound represents world after entry
      (Nat.lt_of_not_le full) unchanged
  · intro room
    rcases probe_of_contains present with ⟨slot, found⟩
    refine ⟨world, ?_⟩
    unfold InodeSet.insert
    rw [if_neg (mt represents.healthy.threshold.mp (Nat.not_lt.mpr room))]
    exact insertWithRoom_of_found found

/-- A set of capacity four with one pair, inserted again. -/
theorem insert_present_unchanged_iff_small :
    ∃ set opened first,
      create 3 thirdAllocationFails 3 = .ok (some set, opened) ∧
        set.value.insert opened ⟨1, 1⟩ = .ok first ∧
        ∃ after, first.set.insert first.world ⟨1, 1⟩ =
          .ok ⟨some true, first.set, after⟩ := by
  have reached :
      ∃ set opened first,
        create 3 thirdAllocationFails 3 = .ok (some set, opened) ∧
          set.value.insert opened ⟨1, 1⟩ = .ok first ∧
          contains first.set ⟨1, 1⟩ = .ok true ∧
          (first.set.size + 1) * 4 ≤ first.set.capacity * 3 :=
    ⟨_, _, _, rfl, rfl, rfl, by decide⟩
  rcases reached with ⟨set, opened, first, created, inserted, present, room⟩
  have reachable : Reachable first.set :=
    .insert _ (.create 3 thirdAllocationFails opened 3 set created) opened
      ⟨1, 1⟩ first inserted
  exact ⟨set, opened, first, created, inserted,
    (insert_present_unchanged_iff first.set reachable ⟨1, 1⟩ present
      first.world).mpr room⟩

/--
A set of capacity two with one pair: inserting the pair again needs a growth,
and fails when the allocator does.
-/
theorem insert_present_fails :
    ¬ ∀ set, Reachable set → ∀ entry, contains set entry = .ok true →
      ∀ world, ∃ after,
        set.insert world entry = .ok ⟨some true, set, after⟩ := by
  intro noOp
  have reached :
      ∃ set opened first after,
        create 2 thirdAllocationFails 1 = .ok (some set, opened) ∧
          set.value.insert opened ⟨1, 1⟩ = .ok first ∧
          contains first.set ⟨1, 1⟩ = .ok true ∧
          first.set.insert first.world ⟨1, 1⟩ =
            .ok ⟨none, first.set, after⟩ :=
    ⟨_, _, _, _, rfl, rfl, rfl, rfl⟩
  rcases reached with
    ⟨set, opened, first, failed, created, inserted, present, refused⟩
  have reachable : Reachable first.set :=
    .insert _ (.create 2 thirdAllocationFails opened 1 set created) opened
      ⟨1, 1⟩ first inserted
  rcases noOp first.set reachable ⟨1, 1⟩ present first.world with
    ⟨after, unchanged⟩
  rw [refused] at unchanged
  cases unchanged

end BcIo.File.InodeSet
