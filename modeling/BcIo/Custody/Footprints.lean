import BcIo.File.Constructors
import BcIo.Foundation.Custody

/-!
# What the objects of the library answer for

Streams, maps, read handles and sets of inodes: each answers for the descriptors,
mappings, blocks and arenas that its release gives back.  Using an object leaves
what it answers for as it is, or trades a part of it for another.
-/

namespace BcIo.Custody

open BcIo.File
open BcIo.Stream
open BcIo.Foundation.Custody

/-! ## What is live -/

/-- Something that has to be released. -/
inductive Resource where
  | descriptor (descriptor : Descriptor)
  | mapping (mapping : Mapping)
  | block (block : BlockId)
  | arena (arena : ArenaId)
  deriving DecidableEq, Repr

/-- Everything that is live in a world. -/
def live (world : World) : Multiset Resource :=
  (world.openFiles.map fun file => Resource.descriptor file.descriptor) +
    ((world.mappings.map Resource.mapping) +
      ((world.blocks.map Resource.block) +
        (world.arenas.map Resource.arena : Multiset Resource)))

/-- The ledger of the system. -/
def ledger : Ledger World Resource where
  live := live
  stray := World.strayReleases

/-- The resources of a constructor that is running. -/
def held (holding : Holding) : Multiset Resource :=
  (holding.files.map fun file => Resource.descriptor file.descriptor) +
    ((holding.mappings.map Resource.mapping) +
      ((holding.blocks.map Resource.block) +
        (holding.arenas.map Resource.arena : Multiset Resource)))

theorem trades_of_acquired {world after : World} {holding : Holding}
    (acquired : Acquired world after holding) :
    ledger.Trades world after 0 (held holding) := by
  refine .of_live ?_ acquired.released
  change live after = held holding + live world
  unfold live held
  rw [acquired.files, acquired.mappings, acquired.blocks, acquired.arenas]
  simp only [List.map_append, ← Multiset.coe_add]
  abel

section Releases

variable (world : World)

/-- One of the resources of a kind goes. -/
theorem coe_map_erase {α : Type} [DecidableEq α] {kind : α → Resource}
    {items : List α} {item : α} (isLive : item ∈ items) :
    (items.map kind : Multiset Resource) =
      kind item ::ₘ ((items.erase item).map kind : Multiset Resource) := by
  rw [Multiset.cons_coe, Multiset.coe_eq_coe]
  exact (List.perm_cons_erase isLive).map kind

theorem trades_poolFree (block : BlockId) :
    ledger.Trades world (world.poolFree block) {.block block} 0 := by
  refine .of_release fun isLive => ?_
  have found : block ∈ world.blocks := by simpa [ledger, live] using isLive
  rw [World.poolFree, if_pos found]
  refine ⟨?_, rfl⟩
  simp only [ledger, live]
  rw [coe_map_erase found, Multiset.cons_add, Multiset.add_cons,
    Multiset.add_cons]

theorem trades_arenaDestroy (arena : ArenaId) :
    ledger.Trades world (world.arenaDestroy arena) {.arena arena} 0 := by
  refine .of_release fun isLive => ?_
  have found : arena ∈ world.arenas := by simpa [ledger, live] using isLive
  rw [World.arenaDestroy, if_pos found]
  refine ⟨?_, rfl⟩
  simp only [ledger, live]
  rw [coe_map_erase found, Multiset.add_cons, Multiset.add_cons,
    Multiset.add_cons]

theorem trades_munmap (base : Address) (size : Nat) :
    ledger.Trades world (world.munmap base size) {.mapping ⟨base, size⟩}
      0 := by
  refine .of_release fun isLive => ?_
  have found : ⟨base, size⟩ ∈ world.mappings := by
    simpa [ledger, live] using isLive
  rw [World.munmap, if_pos found]
  refine ⟨?_, rfl⟩
  simp only [ledger, live]
  rw [coe_map_erase found, Multiset.cons_add, Multiset.add_cons]

/-- `close` finds the descriptor by its number. -/
theorem coe_map_eraseP {files : List OpenFile} {descriptor : Descriptor}
    (isOpen : ∃ file ∈ files, file.descriptor = descriptor) :
    (files.map fun file => Resource.descriptor file.descriptor :
        Multiset Resource) =
      .descriptor descriptor ::ₘ
        ((files.eraseP fun file => file.descriptor = descriptor).map
          fun file => Resource.descriptor file.descriptor) := by
  rcases isOpen with ⟨file, member, isIt⟩
  have isMatch : decide (file.descriptor = descriptor) = true :=
    decide_eq_true isIt
  rcases List.exists_of_eraseP
      (p := fun file => decide (file.descriptor = descriptor)) member
      isMatch with
    ⟨found, before, after, _, isFound, split, erased⟩
  rw [erased, split, Multiset.cons_coe, Multiset.coe_eq_coe]
  simp only [List.map_append, List.map_cons]
  rw [of_decide_eq_true isFound]
  exact List.perm_middle

theorem trades_close (descriptor : Descriptor) :
    ledger.Trades world (world.close descriptor) {.descriptor descriptor}
      0 := by
  refine .of_release fun isLive => ?_
  have found : ∃ file ∈ world.openFiles, file.descriptor = descriptor := by
    simpa [ledger, live] using isLive
  have isOpen :
      (world.openFiles.any fun file => file.descriptor = descriptor) =
        true := by
    simpa using found
  rw [World.close, if_pos isOpen]
  refine ⟨?_, rfl⟩
  simp only [ledger, live]
  rw [coe_map_eraseP found, Multiset.cons_add]

end Releases

/-! ## What an object answers for -/

/-- The fields of a stream that say what its release gives back. -/
structure SameOwned (before after : Stream) : Prop where
  bufferArena : after.bufferArena = before.bufferArena
  fileDescriptor : after.fileDescriptor = before.fileDescriptor
  ownsFileDescriptor : after.ownsFileDescriptor = before.ownsFileDescriptor

/-- What `bc_io_stream_close` releases, apart from the object itself. -/
def streamParts (stream : Stream) : Multiset Resource :=
  (stream.bufferArena.toList.map Resource.arena : Multiset Resource) +
    if stream.ownsFileDescriptor then {.descriptor stream.fileDescriptor}
    else 0

def streamFootprint (stream : Pooled Stream) : Multiset Resource :=
  streamParts stream.value + {.block stream.block}

/-- What is left mapped under a map. -/
def mappedFootprint (map : Mmap) : Multiset Resource :=
  match map.isMapped, map.baseAddress with
  | true, some base =>
      if 0 < map.mappedSize then {.mapping ⟨base, map.mappedSize⟩} else 0
  | _, _ => 0

def mapFootprint (map : Pooled Mmap) : Multiset Resource :=
  total streamFootprint map.value.stream.toList +
    (mappedFootprint map.value + {.block map.block})

def handleFootprint (handle : ReadHandle) : Multiset Resource :=
  (match handle.source with
    | .buffered stream => streamFootprint stream
    | .memoryMapped map => mapFootprint map) + {.block handle.block}

def setFootprint (set : Pooled InodeSet) : Multiset Resource :=
  {.block set.value.buckets.block} + {.block set.block}

/-- An object of the library. -/
inductive Object where
  | stream (stream : Pooled Stream)
  | map (map : Pooled Mmap)
  | handle (handle : ReadHandle)
  | inodeSet (set : Pooled InodeSet)

def Object.footprint : Object → Multiset Resource
  | .stream object => streamFootprint object
  | .map object => mapFootprint object
  | .handle object => handleFootprint object
  | .inodeSet object => setFootprint object

theorem SameOwned.parts {before after : Stream}
    (same : SameOwned before after) :
    streamParts after = streamParts before := by
  unfold streamParts
  rw [same.bufferArena, same.fileDescriptor, same.ownsFileDescriptor]

section Streams

variable {world after : World} {side later : WriteSide}

theorem flush_sameOwned {stream : Stream} {flushed : FlushResult}
    (returned : stream.flush side = .ok flushed) :
    SameOwned stream flushed.stream := by
  unfold flush at returned
  split at returned
  · cases returned
    exact ⟨rfl, rfl, rfl⟩
  rcases returned_bind returned with ⟨pending, _, returned⟩
  rcases returned_bind returned with ⟨written, _, returned⟩
  rcases returned_bind returned with ⟨moved, _, returned⟩
  rcases returned_bind returned with ⟨buffer, _, returned⟩
  split at returned <;> cases returned <;> exact ⟨rfl, rfl, rfl⟩

theorem flushBeforeWrite_sameOwned {stream : Stream} {flushed : FlushResult}
    (returned : stream.flushBeforeWrite side = .ok flushed) :
    SameOwned stream flushed.stream := by
  rw [flushBeforeWrite_eq] at returned
  exact flush_sameOwned returned

theorem writeChunk_sameOwned {stream : Stream} {data : List Byte}
    {result : WriteChunkResult}
    (returned : stream.writeChunk data side = .ok result) :
    SameOwned stream result.stream := by
  unfold writeChunk at returned
  dsimp only at returned
  split at returned
  · cases returned
    exact ⟨rfl, rfl, rfl⟩
  split at returned
  · cases returned
    exact ⟨rfl, rfl, rfl⟩
  split at returned
  · cases returned
    exact ⟨rfl, rfl, rfl⟩
  split at returned
  · rcases returned_bind returned with ⟨buffer, _, returned⟩
    cases returned
    exact ⟨rfl, rfl, rfl⟩
  rcases returned_bind returned with ⟨flushed, isFlushed, returned⟩
  have same := flushBeforeWrite_sameOwned isFlushed
  split at returned
  · cases returned
    exact same
  split at returned
  · rcases returned_bind returned with ⟨written, _, returned⟩
    split at returned <;> cases returned <;>
      exact ⟨same.bufferArena, same.fileDescriptor, same.ownsFileDescriptor⟩
  · rcases returned_bind returned with ⟨buffer, _, returned⟩
    cases returned
    exact ⟨same.bufferArena, same.fileDescriptor, same.ownsFileDescriptor⟩

/-- Closing a stream gives back what it answers for. -/
theorem close_trades {stream : Pooled Stream}
    (closed : Stream.close world stream side = .ok (after, later)) :
    ledger.Trades world after (streamFootprint stream) 0 := by
  unfold Stream.close at closed
  rcases returned_bind closed with ⟨flushed, isFlushed, closed⟩
  cases closed
  have same := flush_sameOwned isFlushed
  unfold streamFootprint
  refine .andThen ?_ (trades_poolFree _ stream.block)
  rw [← same.parts]
  unfold streamParts
  generalize flushed.stream.bufferArena = arena
  generalize flushed.stream.ownsFileDescriptor = owns
  cases arena with
  | none =>
      cases owns with
      | false => exact .andThen (.refl world 0) (.refl world 0)
      | true => exact .andThen (.refl world 0) (trades_close world _)
  | some arena =>
      cases owns with
      | false => exact .andThen (trades_arenaDestroy world arena) (.refl _ 0)
      | true =>
          exact .andThen (trades_arenaDestroy world arena)
            (trades_close _ _)

end Streams

section Maps

variable {world after : World} {side later : WriteSide} {map : Pooled Mmap}

theorem releaseMapping_trades {value : Mmap}
    (isMapped : value.isMapped = true) :
    ledger.Trades world (Mmap.releaseMapping world value)
      (mappedFootprint value) 0 := by
  unfold Mmap.releaseMapping mappedFootprint
  rw [isMapped]
  cases value.baseAddress with
  | none => exact .refl world 0
  | some base =>
      dsimp only
      split
      · exact trades_munmap world base value.mappedSize
      · exact .refl world 0

theorem mappedFootprint_unmapped {value : Mmap}
    (notMapped : value.isMapped = false) : mappedFootprint value = 0 := by
  unfold mappedFootprint
  rw [notMapped]

theorem unmap_trades (world : World) (map : Pooled Mmap) :
    ledger.Trades world (Mmap.unmap world map.value).2 (mapFootprint map)
      (mapFootprint ⟨map.block, (Mmap.unmap world map.value).1⟩) := by
  unfold Mmap.unmap
  split
  · rename_i isMapped
    have framed := (@releaseMapping_trades world _ isMapped).frame
      (total streamFootprint map.value.stream.toList + {.block map.block})
    have without :
        mappedFootprint { map.value with
          baseAddress := none, mappedSize := 0, isMapped := false } = 0 :=
      mappedFootprint_unmapped rfl
    unfold mapFootprint
    rw [without, add_left_comm, add_left_comm _ 0]
    exact framed
  · exact .refl world _

/-- The part of `bc_io_mmap_destroy` behind the cached stream. -/
theorem releaseMap_trades (world : World) (map : Pooled Mmap) :
    ledger.Trades world
      ((if map.value.isMapped then Mmap.releaseMapping world map.value
        else world).poolFree map.block)
      (mappedFootprint map.value + {.block map.block}) 0 := by
  refine .andThen ?_ (trades_poolFree _ map.block)
  split
  · rename_i isMapped
    exact releaseMapping_trades isMapped
  · rename_i notMapped
    rw [mappedFootprint_unmapped (Bool.eq_false_iff.mpr notMapped)]
    exact .refl _ 0

theorem destroyMap_trades
    (destroyed : Mmap.destroy world map side = .ok (after, later)) :
    ledger.Trades world after (mapFootprint map) 0 := by
  unfold Mmap.destroy at destroyed
  unfold mapFootprint
  cases isCached : map.value.stream with
  | none =>
      rw [isCached] at destroyed
      cases destroyed
      rw [total_none, zero_add]
      exact releaseMap_trades world map
  | some stream =>
      rw [isCached] at destroyed
      rcases returned_bind destroyed with
        ⟨⟨middle, between⟩, closed, destroyed⟩
      cases destroyed
      rw [total_some]
      exact (close_trades closed).andThen (releaseMap_trades middle map)

theorem openMemory_trades {data : Option Address} {size : Nat}
    {stream : Option (Pooled Stream)}
    (opened : openMemory world data size = (stream, after)) :
    ledger.Trades world after 0 (total streamFootprint stream.toList) := by
  cases stream with
  | none => exact trades_of_acquired (openMemory_none opened)
  | some stream =>
      unfold openMemory at opened
      split at opened
      · cases opened
      · rename_i block middle pool
        cases opened
        exact trades_of_acquired ((Acquired.refl world).allocated pool)

/-- The stream that a map caches is the map's from then on. -/
theorem getStream_trades {cached : Bool} {value : Mmap}
    (got : Mmap.getStream world map.value = (cached, value, after)) :
    ledger.Trades world after (mapFootprint map)
      (mapFootprint ⟨map.block, value⟩) := by
  unfold Mmap.getStream at got
  cases isCached : map.value.stream with
  | some stream =>
      rw [isCached] at got
      cases got
      exact .refl world _
  | none =>
      rw [isCached] at got
      dsimp only at got
      split at got
      · rename_i middle failed
        cases got
        have nothing := (openMemory_trades failed).frame (mapFootprint map)
        rwa [total_none, zero_add] at nothing
      · rename_i stream middle opened
        cases got
        have framed := (openMemory_trades opened).frame (mapFootprint map)
        unfold mapFootprint at framed ⊢
        rw [isCached, total_none, zero_add] at framed ⊢
        rw [zero_add] at framed
        exact framed

/-- Advice changes nothing that is live. -/
theorem advise_trades {value : Mmap} {offset length : Nat}
    {hint : Mmap.MadviseHint} (given : Multiset Resource) :
    ledger.Trades world (Mmap.advise world value offset length hint).2 given
      given := by
  unfold Mmap.advise
  split
  · exact .refl world given
  · exact fun frame isLive => ⟨isLive, rfl⟩

theorem destroyHandle_trades {handle : ReadHandle}
    (destroyed : handle.destroy world side = .ok (after, later)) :
    ledger.Trades world after (handleFootprint handle) 0 := by
  unfold ReadHandle.destroy at destroyed
  unfold handleFootprint
  cases isSource : handle.source with
  | buffered stream =>
      rw [isSource] at destroyed
      rcases returned_bind destroyed with
        ⟨⟨middle, between⟩, closed, destroyed⟩
      cases destroyed
      exact (close_trades closed).andThen (trades_poolFree _ handle.block)
  | memoryMapped map =>
      rw [isSource] at destroyed
      rcases returned_bind destroyed with
        ⟨⟨middle, between⟩, released, destroyed⟩
      cases destroyed
      exact (destroyMap_trades released).andThen
        (trades_poolFree _ handle.block)

end Maps

section Sets

variable {world after : World}

/-- A sequence of steps that returned was made of steps that returned. -/
theorem ok_of_bind {ε α β : Type} {computation : Except ε α}
    {rest : α → Except ε β} {value : β}
    (returned : computation >>= rest = .ok value) :
    ∃ middle, computation = .ok middle ∧ rest middle = .ok value := by
  cases computation with
  | ok middle => exact ⟨middle, rfl, returned⟩
  | error abort => cases returned

theorem destroySet_trades (world : World) (set : Pooled InodeSet) :
    ledger.Trades world (InodeSet.destroy world set) (setFootprint set) 0 :=
  .andThen (trades_poolFree world _) (trades_poolFree _ set.block)

theorem allocateBuckets_trades {capacity : Nat}
    {buckets : Option InodeSet.Buckets}
    (allocated :
      InodeSet.allocateBuckets world capacity = (buckets, after)) :
    ledger.Trades world after 0
      (buckets.toList.map fun made => Resource.block made.block :
        Multiset Resource) := by
  cases buckets with
  | none => exact trades_of_acquired (allocateBuckets_none allocated)
  | some buckets =>
      unfold InodeSet.allocateBuckets at allocated
      split at allocated
      · cases allocated
      split at allocated
      · cases allocated
      split at allocated
      · cases allocated
      · rename_i block middle pool
        cases allocated
        exact trades_of_acquired ((Acquired.refl world).allocated pool)

theorem createSet_trades {steps initialCapacity : Nat}
    {set : Option (Pooled InodeSet)}
    (created :
      InodeSet.create steps world initialCapacity = .ok (set, after)) :
    ledger.Trades world after 0 (total setFootprint set.toList) := by
  cases set with
  | none => exact trades_of_acquired (inodeSetCreate_none created)
  | some set =>
      unfold InodeSet.create at created
      dsimp only at created
      generalize InodeSet.roundUpToPowerOfTwo steps _ = rounded at created
      cases rounded with
      | error abort => cases created
      | ok capacity =>
          dsimp only [bind, Except.bind] at created
          split at created
          · cases created
          rename_i block middle pool
          split at created
          · cases created
          rename_i buckets last allocated
          cases created
          have withBlock :=
            trades_of_acquired ((Acquired.refl world).allocated pool)
          exact withBlock.also (allocateBuckets_trades allocated)

/-- Placing an entry leaves the table where it is. -/
theorem place_block {buckets placed : InodeSet.Buckets} {slot : Nat}
    {entry : InodeSet.Entry} (put : buckets.place slot entry = .ok placed) :
    placed.block = buckets.block := by
  unfold InodeSet.Buckets.place at put
  split at put <;> cases put
  rfl

theorem reinsert_block {set : InodeSet} {capacity index : Nat}
    {new moved : InodeSet.Buckets}
    (put : InodeSet.reinsert set capacity new index = .ok moved) :
    moved.block = new.block := by
  unfold InodeSet.reinsert at put
  split at put
  · cases put
    rfl
  · rcases ok_of_bind put with ⟨found, _, placed⟩
    exact place_block placed
  · cases put

theorem reinsertAll_block {set : InodeSet} {capacity : Nat}
    (indices : List Nat) {new moved : InodeSet.Buckets}
    (put : indices.foldlM (InodeSet.reinsert set capacity) new =
      .ok moved) :
    moved.block = new.block := by
  induction indices generalizing new with
  | nil =>
      cases put
      rfl
  | cons index indices induction =>
      rw [List.foldlM_cons] at put
      rcases ok_of_bind put with ⟨between, first, rest⟩
      exact (induction rest).trans (reinsert_block first)

/-- A set that grows trades its old table for the new one. -/
theorem grow_trades {set : InodeSet} {grown : Option InodeSet}
    (returned : InodeSet.grow world set = .ok (grown, after)) :
    ledger.Trades world after {.block set.buckets.block}
      {.block (grown.getD set).buckets.block} := by
  unfold InodeSet.grow at returned
  dsimp only at returned
  split at returned
  · rename_i middle failed
    cases returned
    have framed := (allocateBuckets_trades failed).frame
      {.block set.buckets.block}
    rwa [Option.toList_none, List.map_nil, Multiset.coe_nil, zero_add]
      at framed
  · rename_i new middle allocated
    rcases ok_of_bind returned with ⟨full, moved, returned⟩
    cases returned
    have framed := (allocateBuckets_trades allocated).frame
      {.block set.buckets.block}
    rw [zero_add, Option.toList_some, List.map_cons, List.map_nil,
      Multiset.coe_singleton, add_comm] at framed
    have freed := (trades_poolFree middle set.buckets.block).frame
      {.block new.block}
    rw [zero_add] at freed
    rw [Option.getD_some, reinsertAll_block _ moved]
    exact framed.trans freed

theorem insertWithRoom_same {set : InodeSet} {entry : InodeSet.Entry}
    {inserted : InodeSet.Inserted}
    (returned : InodeSet.insertWithRoom world set entry = .ok inserted) :
    inserted.world = world ∧
      inserted.set.buckets.block = set.buckets.block := by
  unfold InodeSet.insertWithRoom at returned
  rcases ok_of_bind returned with ⟨⟨isPresent, slot⟩, _, returned⟩
  cases isPresent with
  | true =>
      cases returned
      exact ⟨rfl, rfl⟩
  | false =>
      rcases ok_of_bind returned with ⟨placed, put, returned⟩
      cases returned
      exact ⟨rfl, place_block put⟩

theorem insert_trades {set : InodeSet} {entry : InodeSet.Entry}
    {inserted : InodeSet.Inserted}
    (returned : set.insert world entry = .ok inserted) :
    ledger.Trades world inserted.world {.block set.buckets.block}
      {.block inserted.set.buckets.block} := by
  unfold InodeSet.insert at returned
  split at returned
  · rcases ok_of_bind returned with ⟨⟨grown, middle⟩, grows, returned⟩
    have traded := grow_trades grows
    cases grown with
    | none =>
        cases returned
        exact traded
    | some grown =>
        rcases insertWithRoom_same returned with ⟨sameWorld, sameBlock⟩
        rw [sameWorld, sameBlock]
        exact traded
  · rcases insertWithRoom_same returned with ⟨sameWorld, sameBlock⟩
    rw [sameWorld, sameBlock]
    exact .refl world _

theorem clear_block {set cleared : InodeSet}
    (returned : InodeSet.clear set = .ok cleared) :
    cleared.buckets.block = set.buckets.block := by
  unfold InodeSet.clear at returned
  split at returned <;> cases returned
  rfl

end Sets

end BcIo.Custody
