import BcIo.Custody.Acquisition

/-!
# Programs that use the library

All objects of the library side by side, in whatever order a program makes, uses
and releases them and whatever the system and the allocators answer.  One call
keeps the balance between what is live and what the objects answer for, and so
does every run.
-/

namespace BcIo.Custody

open BcIo.File
open BcIo.Stream
open BcIo.Foundation.Custody

/--
A world, the objects a program has in it, and the descriptors that the library
has opened and that no object answers for.
-/
structure Estate where
  world : World
  objects : List Object
  orphans : List Descriptor

/--
The calls of a program.  An object is named by its place among the objects that
are alive; what the system answers to reads and writes comes with the call.
-/
inductive Action (State Choice : Type) where
  | openFile (path : Path) (mode : Mode) (bufferSize : Nat)
  | openFileDescriptor (descriptor : Descriptor) (sourceType : SourceType)
      (mode : Mode) (bufferSize : Nat)
  | openMemory (data : Option Address) (size : Nat)
  | openRead (path : Path) (options : OpenOptions)
  | openAuto (path : Path) (mmapThreshold : Nat) (options : OpenOptions)
  | mapFile (path : Path) (options : Mmap.Options)
  | createInodeSet (steps initialCapacity : Nat)
  | readChunk (index : Nat) (side : ReadSide State Choice)
  | writeChunk (index : Nat) (data : List Byte) (side : WriteSide)
  | flush (index : Nat) (side : WriteSide)
  | getStream (index : Nat)
  | advise (index offset length : Nat) (hint : Mmap.MadviseHint)
  | unmap (index : Nat)
  | insert (index : Nat) (entry : InodeSet.Entry)
  | clear (index : Nat)
  | release (index : Nat) (side : WriteSide)

/-- The stream of an object, if it has one, after a call on it. -/
def Object.onStream (act : Stream → Option Stream) : Object → Option Object
  | .stream object =>
      (act object.value).map fun value => .stream ⟨object.block, value⟩
  | .map object => do
      let cached ← object.value.stream
      let value ← act cached.value
      return .map ⟨object.block,
        { object.value with stream := some ⟨cached.block, value⟩ }⟩
  | .handle object => do
      let current ← object.getStream
      let value ← act current.value
      return .handle (object.setStream value)
  | .inodeSet _ => none

/-- Give an object back. -/
def Object.release (world : World) (side : WriteSide) :
    Object → Option World
  | .stream object => (Stream.close world object side).toOption.map Prod.fst
  | .map object => (Mmap.destroy world object side).toOption.map Prod.fst
  | .handle object => (object.destroy world side).toOption.map Prod.fst
  | .inodeSet object => some (InodeSet.destroy world object)

namespace Estate

/-- New objects, and what is left to nobody. -/
def gain (estate : Estate) (world : World) (made : List Object)
    (orphans : List Descriptor) : Estate :=
  ⟨world, estate.objects ++ made, orphans ++ estate.orphans⟩

/-- A call on one object, of which something is left or nothing. -/
def use (estate : Estate) (index : Nat)
    (act : Object → Option (Option Object × World)) : Option Estate := do
  let object ← estate.objects[index]?
  let (left, world) ← act object
  return { estate with
    world := world
    objects := estate.objects.take index ++ left.toList ++
      estate.objects.drop (index + 1) }

/-- A call on the stream of an object; the world stays as it is. -/
def useStream (estate : Estate) (index : Nat)
    (act : Stream → Option Stream) : Option Estate :=
  estate.use index fun object =>
    (object.onStream act).map fun left => (some left, estate.world)

variable {State Choice : Type}

/-- One call; none if it does not return, or has no such object. -/
def step (device : ReadDevice State Choice) (estate : Estate) :
    Action State Choice → Option Estate
  | .openFile path mode bufferSize =>
      let (made, world) := Stream.openFile estate.world path mode bufferSize
      some (estate.gain world (made.toList.map .stream) [])
  | .openFileDescriptor descriptor sourceType mode bufferSize =>
      let (made, world) := Stream.openFileDescriptor estate.world descriptor
        sourceType mode bufferSize
      some (estate.gain world (made.toList.map .stream) [])
  | .openMemory data size =>
      let (made, world) := Stream.openMemory estate.world data size
      some (estate.gain world (made.toList.map .stream) [])
  | .openRead path options =>
      let (made, world) := File.openRead estate.world path options
      some (estate.gain world (made.toList.map .stream)
        (made.toList.map fun stream => stream.value.fileDescriptor))
  | .openAuto path mmapThreshold options =>
      let (made, world) :=
        File.openAuto estate.world path mmapThreshold options
      some (estate.gain world (made.toList.map .handle)
        (made.toList.flatMap handleOrphans))
  | .mapFile path options =>
      let (made, world) := Mmap.file estate.world path options
      some (estate.gain world (made.toList.map .map) [])
  | .createInodeSet steps initialCapacity =>
      match InodeSet.create steps estate.world initialCapacity with
      | .ok (made, world) =>
          some (estate.gain world (made.toList.map .inodeSet) [])
      | .error _ => none
  | .readChunk index side =>
      estate.useStream index fun stream =>
        (stream.readChunk device side).toOption.map ReadChunkResult.stream
  | .writeChunk index data side =>
      estate.useStream index fun stream =>
        (stream.writeChunk data side).toOption.map WriteChunkResult.stream
  | .flush index side =>
      estate.useStream index fun stream =>
        (stream.flush side).toOption.map FlushResult.stream
  | .getStream index =>
      estate.use index fun
        | .map object =>
            let (_, value, world) :=
              Mmap.getStream estate.world object.value
            some (some (.map ⟨object.block, value⟩), world)
        | _ => none
  | .advise index offset length hint =>
      estate.use index fun
        | .map object =>
            some (some (.map object),
              (Mmap.advise estate.world object.value offset length hint).2)
        | _ => none
  | .unmap index =>
      estate.use index fun
        | .map object =>
            let (value, world) := Mmap.unmap estate.world object.value
            some (some (.map ⟨object.block, value⟩), world)
        | _ => none
  | .insert index entry =>
      estate.use index fun
        | .inodeSet object =>
            match object.value.insert estate.world entry with
            | .ok inserted =>
                some (some (.inodeSet ⟨object.block, inserted.set⟩),
                  inserted.world)
            | .error _ => none
        | _ => none
  | .clear index =>
      estate.use index fun
        | .inodeSet object =>
            match InodeSet.clear object.value with
            | .ok cleared =>
                some (some (.inodeSet ⟨object.block, cleared⟩), estate.world)
            | .error _ => none
        | _ => none
  | .release index side =>
      estate.use index fun object =>
        (object.release estate.world side).map fun world => (none, world)

/-- A run of calls. -/
def run (device : ReadDevice State Choice) (estate : Estate)
    (actions : List (Action State Choice)) : Option Estate :=
  actions.foldlM (step device) estate

end Estate

section Runs

variable {State Choice : Type} {device : ReadDevice State Choice}
  {base : Multiset Resource} {stray : Nat} {estate after : Estate}

/--
The objects and the descriptors that are nobody's are all that is live beyond
`base`, and nothing has been released that was not live.
-/
def Estate.Exact (base : Multiset Resource) (stray : Nat)
    (estate : Estate) : Prop :=
  Balanced ledger Object.footprint
    (estate.orphans.map Resource.descriptor + base) stray estate.world
    estate.objects

theorem Estate.Exact.gain (exact : estate.Exact base stray) {world : World}
    {made : List Object} {orphans : List Descriptor}
    (trades : ledger.Trades estate.world world 0
      (total Object.footprint made +
        (orphans.map Resource.descriptor : Multiset Resource))) :
    (estate.gain world made orphans).Exact base stray := by
  have bare :
      Balanced ledger Object.footprint
        (estate.orphans.map Resource.descriptor + base) stray estate.world
        (estate.objects ++ [] ++ []) := by
    rw [List.append_nil, List.append_nil]
    exact exact
  have kept := bare.replace trades
  rw [List.append_nil, ← add_assoc, Multiset.coe_add,
    ← List.map_append] at kept
  exact kept

/-- New objects that answer for everything their constructor has acquired. -/
theorem Estate.Exact.gainOwned {P : Type} (exact : estate.Exact base stray)
    {make : P → Object} (result : Option P × World)
    (trades : ledger.Trades estate.world result.2 0
      (total (fun object => (make object).footprint) result.1.toList)) :
    (estate.gain result.2 (result.1.toList.map make) []).Exact base
      stray := by
  refine exact.gain ?_
  rw [total_map, List.map_nil, Multiset.coe_nil, add_zero]
  exact trades

theorem Estate.Exact.use (exact : estate.Exact base stray) {index : Nat}
    {act : Object → Option (Option Object × World)}
    (used : estate.use index act = some after)
    (trades : ∀ object left world, act object = some (left, world) →
      ledger.Trades estate.world world object.footprint
        (total Object.footprint left.toList)) :
    after.Exact base stray := by
  unfold Estate.use at used
  cases found : estate.objects[index]? with
  | none =>
      rw [found] at used
      cases used
  | some object =>
      cases acted : act object with
      | none =>
          simp [found, acted] at used
      | some result =>
          rcases result with ⟨left, world⟩
          simp only [found, acted, Option.bind_eq_bind,
            Option.bind_some, Option.pure_def, Option.some.injEq] at used
          subst used
          rcases List.getElem?_eq_some_iff.mp found with ⟨inside, isIt⟩
          have split :
              estate.objects =
                estate.objects.take index ++ [object] ++
                  estate.objects.drop (index + 1) := by
            rw [List.append_assoc, List.singleton_append, ← isIt,
              List.cons_getElem_drop_succ, List.take_append_drop]
          have parted :
              Balanced ledger Object.footprint
                (estate.orphans.map Resource.descriptor + base) stray
                estate.world
                (estate.objects.take index ++ [object] ++
                  estate.objects.drop (index + 1)) :=
            split ▸ exact
          have traded :
              ledger.Trades estate.world world
                (total Object.footprint [object])
                (total Object.footprint left.toList + 0) := by
            rw [total_cons, total_nil, add_zero, add_zero]
            exact trades object left world acted
          have kept := parted.replace traded
          rw [zero_add] at kept
          exact kept

/-- A call that keeps what a stream owns keeps what its object answers for. -/
theorem onStream_footprint {act : Stream → Option Stream}
    (keeps : ∀ stream value, act stream = some value →
      SameOwned stream value)
    {object left : Object} (acted : object.onStream act = some left) :
    left.footprint = object.footprint := by
  cases object with
  | stream object =>
      rcases Option.map_eq_some_iff.mp acted with ⟨value, isValue, rfl⟩
      change streamParts value + _ = streamParts object.value + _
      rw [(keeps _ _ isValue).parts]
  | map object =>
      rcases Option.bind_eq_some_iff.mp acted with ⟨cached, isCached, acted⟩
      rcases Option.bind_eq_some_iff.mp acted with ⟨value, isValue, acted⟩
      cases acted
      change total streamFootprint [_] + _ =
        total streamFootprint object.value.stream.toList + _
      rw [isCached, total_some, total_cons, total_nil, add_zero,
        streamFootprint, (keeps _ _ isValue).parts]
      rfl
  | handle object =>
      rcases Option.bind_eq_some_iff.mp acted with ⟨current, isIt, acted⟩
      rcases Option.bind_eq_some_iff.mp acted with ⟨value, isValue, acted⟩
      cases acted
      rcases object with ⟨block, source, fileSize⟩
      cases source with
      | buffered stream =>
          cases isIt
          change streamParts value + _ + _ = streamParts current.value + _ + _
          rw [(keeps _ _ isValue).parts]
          rfl
      | memoryMapped map =>
          change map.value.stream = some current at isIt
          change total streamFootprint
              (map.value.stream.map fun stream =>
                { stream with value := value }).toList + _ + _ =
            total streamFootprint map.value.stream.toList + _ + _
          rw [isIt, Option.map_some, total_some, total_some,
            streamFootprint, (keeps _ _ isValue).parts]
          rfl
  | inodeSet object => cases acted

theorem Estate.Exact.useStream (exact : estate.Exact base stray)
    {index : Nat} {act : Stream → Option Stream}
    (used : estate.useStream index act = some after)
    (keeps : ∀ stream value, act stream = some value →
      SameOwned stream value) :
    after.Exact base stray := by
  refine exact.use used ?_
  intro object left world acted
  rcases Option.map_eq_some_iff.mp acted with ⟨kept, isKept, same⟩
  cases same
  rw [total_some, onStream_footprint keeps isKept]
  exact .refl _ _

theorem ok_of_toOption {ε α : Type} {computation : Except ε α} {value : α}
    (returned : computation.toOption = some value) :
    computation = .ok value := by
  cases computation with
  | error abort => cases returned
  | ok result =>
      cases returned
      rfl

theorem release_trades {object : Object} {world later : World}
    {side : WriteSide} (released : object.release world side = some later) :
    ledger.Trades world later object.footprint 0 := by
  cases object with
  | stream object =>
      rcases Option.map_eq_some_iff.mp released with ⟨result, closed, rfl⟩
      exact close_trades (ok_of_toOption closed)
  | map object =>
      rcases Option.map_eq_some_iff.mp released with ⟨result, gone, rfl⟩
      exact destroyMap_trades (ok_of_toOption gone)
  | handle object =>
      rcases Option.map_eq_some_iff.mp released with ⟨result, gone, rfl⟩
      exact destroyHandle_trades (ok_of_toOption gone)
  | inodeSet object =>
      cases released
      exact destroySet_trades world object

/-- What every call does to the balance. -/
theorem Estate.Exact.step (exact : estate.Exact base stray)
    {action : Action State Choice}
    (stepped : estate.step device action = some after) :
    after.Exact base stray := by
  cases action with
  | openFile path mode bufferSize =>
      rw [← Option.some.inj stepped]
      exact exact.gainOwned _ (openFile_trades (Prod.eta _).symm)
  | openFileDescriptor descriptor sourceType mode bufferSize =>
      rw [← Option.some.inj stepped]
      exact exact.gainOwned _
        (openFileDescriptor_trades (Prod.eta _).symm).1
  | openMemory data size =>
      rw [← Option.some.inj stepped]
      exact exact.gainOwned _ (openMemory_trades (Prod.eta _).symm)
  | openRead path options =>
      rw [← Option.some.inj stepped]
      refine exact.gain ?_
      rw [total_map, List.map_map]
      exact openRead_trades (Prod.eta _).symm
  | openAuto path mmapThreshold options =>
      rw [← Option.some.inj stepped]
      refine exact.gain ?_
      rw [total_map]
      exact openAuto_trades (Prod.eta _).symm
  | mapFile path options =>
      rw [← Option.some.inj stepped]
      exact exact.gainOwned _ (mapFile_trades (Prod.eta _).symm)
  | createInodeSet steps initialCapacity =>
      cases created : InodeSet.create steps estate.world initialCapacity with
      | error abort =>
          simp only [Estate.step, created] at stepped
          cases stepped
      | ok result =>
          simp only [Estate.step, created] at stepped
          rw [← Option.some.inj stepped]
          exact exact.gainOwned result (createSet_trades created)
  | readChunk index side =>
      refine exact.useStream stepped ?_
      intro stream value isValue
      rcases Option.map_eq_some_iff.mp isValue with ⟨result, returned, rfl⟩
      have same :=
        readChunk_sameHoldings device (ok_of_toOption returned)
      exact ⟨same.bufferArena, same.fileDescriptor, same.ownsFileDescriptor⟩
  | writeChunk index data side =>
      refine exact.useStream stepped ?_
      intro stream value isValue
      rcases Option.map_eq_some_iff.mp isValue with ⟨result, returned, rfl⟩
      exact writeChunk_sameOwned (ok_of_toOption returned)
  | flush index side =>
      refine exact.useStream stepped ?_
      intro stream value isValue
      rcases Option.map_eq_some_iff.mp isValue with ⟨result, returned, rfl⟩
      exact flush_sameOwned (ok_of_toOption returned)
  | getStream index =>
      refine exact.use stepped ?_
      intro object left world acted
      cases object with
      | map object =>
          cases acted
          rw [total_some]
          exact getStream_trades rfl
      | _ => cases acted
  | advise index offset length hint =>
      refine exact.use stepped ?_
      intro object left world acted
      cases object with
      | map object =>
          cases acted
          rw [total_some]
          exact advise_trades _
      | _ => cases acted
  | unmap index =>
      refine exact.use stepped ?_
      intro object left world acted
      cases object with
      | map object =>
          cases acted
          rw [total_some]
          exact unmap_trades estate.world object
      | _ => cases acted
  | insert index entry =>
      refine exact.use stepped ?_
      intro object left world acted
      cases object with
      | inodeSet object =>
          dsimp only at acted
          split at acted
          · rename_i inserted returned
            cases acted
            rw [total_some]
            exact (insert_trades returned).frame {.block object.block}
          · cases acted
      | _ => cases acted
  | clear index =>
      refine exact.use stepped ?_
      intro object left world acted
      cases object with
      | inodeSet object =>
          dsimp only at acted
          split at acted
          · rename_i cleared returned
            cases acted
            rw [total_some]
            change ledger.Trades _ _ (setFootprint object) ({.block _} + _)
            rw [clear_block returned]
            exact .refl _ _
          · cases acted
      | _ => cases acted
  | release index side =>
      refine exact.use stepped ?_
      intro object left world acted
      rcases Option.map_eq_some_iff.mp acted with ⟨later, released, same⟩
      cases same
      exact release_trades released

theorem Estate.Exact.run (exact : estate.Exact base stray)
    {actions : List (Action State Choice)}
    (ran : estate.run device actions = some after) :
    after.Exact base stray := by
  induction actions generalizing estate with
  | nil =>
      cases ran
      exact exact
  | cons action actions induction =>
      unfold Estate.run at ran
      rw [List.foldlM_cons] at ran
      rcases Option.bind_eq_some_iff.mp ran with ⟨middle, stepped, rest⟩
      exact induction (exact.step stepped) rest

/-- Only the two read opens of `bc_io_file_open.c` leave a descriptor behind. -/
def Action.leavesDescriptor : Action State Choice → Bool
  | .openRead _ _ => true
  | .openAuto _ _ _ => true
  | _ => false

theorem use_orphans {index : Nat}
    {act : Object → Option (Option Object × World)}
    (used : estate.use index act = some after) :
    after.orphans = estate.orphans := by
  unfold Estate.use at used
  rcases Option.bind_eq_some_iff.mp used with ⟨object, _, used⟩
  rcases Option.bind_eq_some_iff.mp used with ⟨result, _, used⟩
  cases used
  rfl

theorem step_orphans {action : Action State Choice}
    (leavesNone : action.leavesDescriptor = false)
    (stepped : estate.step device action = some after) :
    after.orphans = estate.orphans := by
  cases action with
  | openFile path mode bufferSize =>
      rw [← Option.some.inj stepped]
      rfl
  | openFileDescriptor descriptor sourceType mode bufferSize =>
      rw [← Option.some.inj stepped]
      rfl
  | openMemory data size =>
      rw [← Option.some.inj stepped]
      rfl
  | mapFile path options =>
      rw [← Option.some.inj stepped]
      rfl
  | openRead path options => cases leavesNone
  | openAuto path mmapThreshold options => cases leavesNone
  | createInodeSet steps initialCapacity =>
      cases created : InodeSet.create steps estate.world initialCapacity with
      | error abort =>
          simp only [Estate.step, created] at stepped
          cases stepped
      | ok result =>
          simp only [Estate.step, created] at stepped
          rw [← Option.some.inj stepped]
          rfl
  | _ => exact use_orphans stepped

theorem run_orphans {actions : List (Action State Choice)}
    (leaveNone : ∀ action ∈ actions, action.leavesDescriptor = false)
    (ran : estate.run device actions = some after) :
    after.orphans = estate.orphans := by
  induction actions generalizing estate with
  | nil =>
      cases ran
      rfl
  | cons action actions induction =>
      rw [List.forall_mem_cons] at leaveNone
      unfold Estate.run at ran
      rw [List.foldlM_cons] at ran
      rcases Option.bind_eq_some_iff.mp ran with ⟨middle, stepped, rest⟩
      exact (induction leaveNone.2 rest).trans
        (step_orphans leaveNone.1 stepped)

/-- The resources of one kind. -/
def Resource.asDescriptor : Resource → Option Descriptor
  | .descriptor number => some number
  | _ => none

def Resource.asMapping : Resource → Option Mapping
  | .mapping range => some range
  | _ => none

def Resource.asBlock : Resource → Option BlockId
  | .block identity => some identity
  | _ => none

def Resource.asArena : Resource → Option ArenaId
  | .arena identity => some identity
  | _ => none

theorem filterMap_const_none {α β : Type} (items : List α) :
    (items.filterMap fun _ => (none : Option β)) = [] := by
  induction items with
  | nil => rfl
  | cons item items induction => exact induction

/-- The four kinds of a world, one at a time. -/
theorem filterMap_live {α : Type} (kind : Resource → Option α)
    (world : World) :
    (live world).filterMap kind =
      ((world.openFiles.filterMap fun file =>
          kind (.descriptor file.descriptor)) ++
        ((world.mappings.filterMap fun range => kind (.mapping range)) ++
          ((world.blocks.filterMap fun block => kind (.block block)) ++
            world.arenas.filterMap fun arena => kind (.arena arena))) :
        List α) := by
  simp only [live, Multiset.filterMap_add, Multiset.filterMap_coe,
    List.filterMap_map, ← Multiset.coe_add]
  rfl

/--
Whatever a program does with the library, in whatever order and with whatever
failures: what is live is what was live before, what the objects it still has
answer for, and the descriptors that `bc_io_file_open_read` and buffered handles
of `bc_io_file_open_auto` have left behind; nothing is released twice or without
having been acquired.  Once the program has given every object back, all mappings,
blocks and arenas are again those from before, and so are the descriptors if it
made none of these two calls.
-/
theorem programs_balance (device : ReadDevice State Choice) (world : World)
    (actions : List (Action State Choice)) {estate : Estate}
    (ran : Estate.run device ⟨world, [], []⟩ actions = some estate) :
    live estate.world =
        total Object.footprint estate.objects +
          (estate.orphans.map Resource.descriptor + live world) ∧
      estate.world.strayReleases = world.strayReleases ∧
      (estate.objects = [] →
        estate.world.mappings.Perm world.mappings ∧
          estate.world.blocks.Perm world.blocks ∧
          estate.world.arenas.Perm world.arenas ∧
          (estate.world.openFiles.map OpenFile.descriptor).Perm
            (estate.orphans ++
              world.openFiles.map OpenFile.descriptor)) ∧
      ((∀ action ∈ actions, action.leavesDescriptor = false) →
        estate.orphans = []) := by
  have begins :
      Estate.Exact (live world) world.strayReleases ⟨world, [], []⟩ := by
    refine ⟨?_, rfl⟩
    rw [total_nil, zero_add]
    exact (zero_add _).symm
  have balanced := begins.run ran
  refine ⟨balanced.live, balanced.stray, ?_,
    fun leaveNone => run_orphans leaveNone ran⟩
  intro allReleased
  have isLive := balanced.live
  rw [allReleased, total_nil, zero_add] at isLive
  change live estate.world = _ at isLive
  have ofKind :
      ∀ {α : Type} (kind : Resource → Option α),
        (live estate.world).filterMap kind =
          ((estate.orphans.map Resource.descriptor).filterMap kind :
              Multiset α) + (live world).filterMap kind := by
    intro α kind
    rw [isLive, Multiset.filterMap_add, Multiset.filterMap_coe]
  have mappings := ofKind Resource.asMapping
  have blocks := ofKind Resource.asBlock
  have arenas := ofKind Resource.asArena
  have descriptors := ofKind Resource.asDescriptor
  simp only [filterMap_live, List.filterMap_map, Multiset.coe_add,
    Multiset.coe_eq_coe, Resource.asMapping, Resource.asBlock,
    Resource.asArena, Resource.asDescriptor, Function.comp_def,
    filterMap_const_none, List.filterMap_some, List.filterMap_eq_map',
    List.nil_append,
    List.append_nil] at mappings blocks arenas descriptors
  exact ⟨mappings, blocks, arenas, descriptors⟩

end Runs

/--
A stream and a map on a file of three bytes; the pool fails when the map is asked
for its stream, and everything is given back.
-/
def shortProgram : List (Action Unit ReadOutcome) :=
  [.openFile [102] .read 64,
    .mapFile [102] ⟨false, false, .normal, 0, 0⟩, .getStream 1,
    .readChunk 0 ⟨(), [], [.transferred [1, 2, 3], .transferred []]⟩, .unmap 1,
    .createInodeSet 4 8, .insert 2 ⟨1, 1⟩, .release 0 ⟨[], []⟩,
    .release 0 ⟨[], []⟩, .release 0 ⟨[], []⟩]

theorem programs_balance_short :
    ∃ estate,
      Estate.run scriptedDevice ⟨twoBlocks, [], []⟩ shortProgram =
          some estate ∧
        estate.objects = [] ∧ estate.world.strayReleases = 0 ∧
        (estate.world.openFiles.map OpenFile.descriptor).Perm
          (twoBlocks.openFiles.map OpenFile.descriptor) := by
  have ran :
      ∃ estate,
        Estate.run scriptedDevice ⟨twoBlocks, [], []⟩ shortProgram =
            some estate ∧
          estate.objects = [] :=
    ⟨_, rfl, rfl⟩
  rcases ran with ⟨estate, ran, allReleased⟩
  rcases programs_balance scriptedDevice twoBlocks shortProgram ran with
    ⟨_, stray, released, noOrphans⟩
  refine ⟨estate, ran, allReleased, stray, ?_⟩
  rcases released allReleased with ⟨_, _, _, descriptors⟩
  rw [noOrphans (by decide)] at descriptors
  exact descriptors

end BcIo.Custody
