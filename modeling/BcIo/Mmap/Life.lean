import BcIo.Mmap

/-!
# The life of a mapping

A map made by `bc_io_mmap_file` and any calls on it: taking its stream, reading
chunks from that stream, asking for the data, advising, and unmapping.  The
addresses a call hands out are compared with the mappings that are live when
it is made.
-/

namespace BcIo.Mmap

open BcIo.Foundation.MachineWord
open BcIo.Stream

/-- A call on a map, or on the stream it has handed out. -/
inductive Call where
  | getStream
  | readChunk
  | getData
  | advise (offset length : Nat) (hint : MadviseHint)
  | unmap
  deriving DecidableEq, Repr

/-- Memory that a call hands to its caller. -/
structure Range where
  address : Option Address
  size : Nat
  deriving DecidableEq, Repr

/-- Every byte of the range lies in a live mapping; an empty range has none. -/
def Range.Live (range : Range) (world : World) : Prop :=
  range.size = 0 ∨
    ∃ base mapping, range.address = some base ∧
      mapping ∈ world.mappings ∧ mapping.base ≤ base ∧
      base + range.size ≤ mapping.base + mapping.size

/-- The memory behind a chunk, when it is not the stream's own buffer. -/
def chunkRange (chunk : Chunk) : Range :=
  match chunk.data with
  | .memory address => ⟨some address, chunk.size⟩
  | .streamBuffer => ⟨none, chunk.size⟩

/-- A map with its cached stream, and the system around it. -/
structure Life where
  map : Mmap
  world : World

/-- A call that has returned. -/
structure Event where
  call : Call
  before : Life
  /-- What the call handed out, if anything. -/
  range : Option Range
  after : Life

/-- Make one call.  A read before any `getStream` has no stream to act on. -/
def perform (call : Call) (life : Life) : Except Halt Event :=
  match call with
  | .getStream =>
      let (_, map, world) := life.map.getStream life.world
      .ok ⟨call, life, none, ⟨map, world⟩⟩
  | .readChunk =>
      match life.map.stream with
      | none => .ok ⟨call, life, none, life⟩
      | some stream => do
          let result ← stream.value.readChunk scriptedDevice ⟨(), [], []⟩
          let cached := { stream with value := result.stream }
          return ⟨call, life, result.chunk.map chunkRange,
            { life with map := { life.map with stream := some cached } }⟩
  | .getData =>
      let (address, size) := life.map.getData
      .ok ⟨call, life, some ⟨address, size⟩, life⟩
  | .advise offset length hint =>
      .ok ⟨call, life, none,
        ⟨life.map, (life.map.advise life.world offset length hint).2⟩⟩
  | .unmap =>
      let (map, world) := life.map.unmap life.world
      .ok ⟨call, life, none, ⟨map, world⟩⟩

/-- Make the calls one after the other. -/
def run : List Call → Life → Except Halt (List Event)
  | [], _ => .ok []
  | call :: calls, life => do
      let event ← perform call life
      let later ← run calls event.after
      return event :: later

/-! ## What `bc_io_mmap_file` has made -/

/-- The mapping of a map of `size` bytes at `base`. -/
def own (base : Option Address) (size : Nat) : List Mapping :=
  match base with
  | some start => [⟨start, size⟩]
  | none => []

/-- A map as `bc_io_mmap_file` returns it. -/
structure Created (world after : World) (path : Path) (options : Options)
    (map : Mmap) (base : Option Address) (size : Nat) : Prop where
  fields : map = ⟨base, size, none, true⟩
  based : base = none ↔ size = 0
  placed : ∀ start, base = some start → start = world.nextAddress
  mappings : after.mappings = own base size ++ world.mappings
  sized :
    ∃ node, world.files path = some node ∧
      options.mappedSize node.statSize = some size

/-- What the memory at a map shows of the node that was mapped. -/
def Shows (world : World) (node : FileNode) (offset : Nat) (base : Address)
    (size : Nat) : Prop :=
  ∀ index, index < size →
    world.memory (base + index) = node.byteAt (offset + index)

theorem mmap_shows {world after : World} {node : FileNode}
    {size offset : Nat} {base : Address}
    (call : world.mmap node size offset = (some base, after)) :
    Shows after node offset base size := by
  intro index inside
  have within : base ≤ base + index ∧ base + index < base + size :=
    ⟨Nat.le_add_right _ _, Nat.add_lt_add_left inside base⟩
  rw [World.mmap_some call]
  simp [within]

/-- Mapping the pages adds one mapping, at the next free address. -/
theorem mapPages_some {world after : World} {node : FileNode}
    {mappedSize : Nat} {options : Options} {base : Address}
    (mapped :
      mapPages world node mappedSize options = (some base, after)) :
    base = world.nextAddress ∧
      after.mappings = ⟨base, mappedSize⟩ :: world.mappings ∧
      Shows after node options.offset base mappedSize := by
  unfold mapPages at mapped
  split at mapped
  · rename_i first world₁ call
    cases mapped
    refine ⟨World.mmap_base call, ?_, mmap_shows call⟩
    rw [World.mmap_some call]
  · rename_i world₁ refused
    cases World.mmap_none refused
    split at mapped
    · have placed := World.mmap_base mapped
      refine ⟨placed, ?_, mmap_shows mapped⟩
      rw [World.mmap_some mapped]
      rfl
    · simp at mapped

theorem createFromAddress_some {world after : World}
    {base : Option Address} {size : Nat} {map : Pooled Mmap}
    (made : createFromAddress world base size = (some map, after)) :
    map.value = ⟨base, size, none, true⟩ ∧
      after.mappings = world.mappings ∧ after.memory = world.memory := by
  unfold createFromAddress at made
  split at made
  · simp at made
  · rename_i block world₁ pool
    cases made
    rw [World.poolAllocate_some pool]
    exact ⟨rfl, rfl, rfl⟩

theorem file_made {world after : World} {path : Path} {options : Options}
    {map : Pooled Mmap}
    (made : file world path options = (some map, after)) :
    ∃ base size, Created world after path options map.value base size ∧
      ∀ node start, world.files path = some node → base = some start →
        Shows after node options.offset start size := by
  unfold file at made
  split at made
  · simp at made
  split at made
  · simp at made
  rename_i descriptor world₁ opened
  rcases World.openRead_ok opened with ⟨node, named, rfl⟩
  split at made
  · simp at made
  rename_i statNode world₂ stat
  rcases World.fstat_some stat with ⟨statNamed, rfl⟩
  have sameNode : statNode = node := by
    simpa [World.nodeOf] using statNamed.symm
  subst sameNode
  split at made
  · simp at made
  rename_i size sizeEq
  by_cases positive : 0 < size
  · simp only [if_pos positive] at made
    cases pages : mapPages _ statNode size options with
    | mk mapped world₃ =>
        rw [pages] at made
        cases mapped with
        | none => simp at made
        | some base =>
            rcases mapPages_some pages with ⟨placed, mappings, shows⟩
            simp only at made
            split at made
            · simp at made
            rename_i created world₄ creation
            cases made
            rcases createFromAddress_some creation with
              ⟨fields, kept, memory⟩
            refine ⟨some base, size, ⟨fields, ?_, ?_, ?_, statNode, named,
              sizeEq⟩, ?_⟩
            · simp only [reduceCtorEq, false_iff]
              exact Nat.pos_iff_ne_zero.mp positive
            · rintro start ⟨⟩
              exact placed
            · rw [kept, World.close_mappings]
              split
              · exact mappings
              · exact mappings
            · rintro node start sameNode ⟨⟩ index inside
              cases named.symm.trans sameNode
              rw [memory, World.close_memory, ← shows index inside]
              split <;> rfl
  · simp only [if_neg positive] at made
    split at made
    · simp at made
    rename_i created world₄ creation
    cases made
    rcases createFromAddress_some creation with ⟨fields, kept, _⟩
    refine ⟨none, size, ⟨fields, ?_, by simp, ?_, statNode, named, sizeEq⟩,
      by simp⟩
    · simp only [true_iff]
      exact Nat.eq_zero_of_not_pos positive
    · rw [kept, World.close_mappings]
      rfl

theorem file_some {world after : World} {path : Path} {options : Options}
    {map : Pooled Mmap}
    (made : file world path options = (some map, after)) :
    ∃ base size, Created world after path options map.value base size := by
  rcases file_made made with ⟨base, size, created, _⟩
  exact ⟨base, size, created⟩

/-- The size of a map is a `size_t`. -/
theorem Created.representable {world after : World} {path : Path}
    {options : Options} {map : Mmap} {base : Option Address} {size : Nat}
    (created : Created world after path options map base size)
    (length : options.length < sizeLimit)
    (fileSize :
      ∀ node, world.files path = some node → node.statSize < sizeLimit) :
    size < sizeLimit := by
  rcases created.sized with ⟨node, named, sized⟩
  have statSize := fileSize node named
  unfold Options.mappedSize at sized
  split at sized
  · split at sized
    · simp at sized
    · cases sized
      omega
  · cases sized
    exact length

/-! ## The stream a map has cached -/

/-- A stream over `size` bytes at `base`, somewhere in them. -/
structure Cached (base : Option Address) (size : Nat) (stream : Stream) :
    Prop where
  mode : stream.mode = .read
  source : stream.sourceType = .memory
  positive : 0 < stream.bufferSize
  data : stream.memoryData = base
  extent : stream.memorySize = size
  position : stream.memoryPosition ≤ size
  ended : stream.endOfStream = true → size ≤ stream.memoryPosition

theorem Cached.of_overMemory (base : Option Address) (size : Nat) :
    Cached base size (overMemory base size) :=
  ⟨rfl, rfl, by simp [overMemory, initCommonFields, Io.defaultBufferSize],
    rfl, rfl, Nat.zero_le _, by simp [overMemory, initCommonFields]⟩

/-- What a read from a cached stream hands out: a range of what is left. -/
structure ReadFrom (base : Option Address) (size : Nat) (stream : Stream)
    (result : ReadChunkResult Unit ReadOutcome) : Prop where
  cached : Cached base size result.stream
  exhausted : result.chunk = none → size ≤ stream.memoryPosition
  handed :
    ∀ chunk, result.chunk = some chunk →
      ∃ count, 0 < count ∧ stream.memoryPosition + count ≤ size ∧
        chunkRange chunk =
          ⟨some (base.getD 0 + stream.memoryPosition), count⟩

theorem Cached.readChunk {base : Option Address} {size : Nat}
    {stream : Stream} (cached : Cached base size stream)
    (representable : size < sizeLimit) :
    ∃ result,
      stream.readChunk scriptedDevice ⟨(), [], []⟩ = .ok result ∧
        ReadFrom base size stream result := by
  by_cases ended : stream.endOfStream = true
  · refine ⟨⟨none, stream, ⟨(), [], []⟩⟩,
      by simp [Stream.readChunk, ended], cached,
      fun _ => cached.ended ended, by simp⟩
  rw [readChunk_eq_memory scriptedDevice cached.mode cached.source
    (by simpa using ended)]
  refine ⟨_, rfl, ?_⟩
  by_cases atEnd : size ≤ stream.memoryPosition
  · rw [readChunkMemory_at_end (by rw [cached.extent]; exact atEnd)]
    exact ⟨⟨cached.mode, cached.source, cached.positive, cached.data,
      cached.extent, cached.position, fun _ => atEnd⟩, fun _ => atEnd,
      by simp⟩
  · rw [readChunkMemory_before_end (by rw [cached.extent]; exact atEnd)]
    have remaining :
        sizeSub stream.memorySize stream.memoryPosition =
          size - stream.memoryPosition := by
      rw [cached.extent]
      exact wordSub_of_le cached.position representable
    have positive := cached.positive
    have count :
        0 < memoryChunkSize stream ∧
          stream.memoryPosition + memoryChunkSize stream ≤ size := by
      simp only [memoryChunkSize, remaining]
      split <;> omega
    have advanced :
        sizeAdd stream.memoryPosition (memoryChunkSize stream) =
          stream.memoryPosition + memoryChunkSize stream :=
      wordAdd_of_lt (Nat.lt_of_le_of_lt count.2 representable)
    refine ⟨⟨cached.mode, cached.source, cached.positive, cached.data,
      cached.extent, ?_, ?_⟩, by simp, ?_⟩
    · rw [advanced]
      exact count.2
    · intro latched
      exact absurd latched ended
    · rintro chunk ⟨⟩
      exact ⟨_, count.1, count.2, by rw [cached.data]; rfl⟩

/-! ## What the calls keep -/

/--
The map, its mapping among the others, and the stream it has cached, which may
be older than the last `bc_io_mmap_unmap`.
-/
structure Linked (base : Option Address) (size : Nat)
    (others : List Mapping) (life : Life) : Prop where
  mapped :
    life.map.isMapped = true →
      life.map.baseAddress = base ∧ life.map.mappedSize = size ∧
        life.world.mappings = own base size ++ others
  unmapped :
    life.map.isMapped = false →
      life.map.baseAddress = none ∧ life.map.mappedSize = 0 ∧
        life.world.mappings = others
  cached :
    ∀ stream, life.map.stream = some stream →
      Cached base size stream.value ∨
        (life.map.isMapped = false ∧ Cached none 0 stream.value)

theorem Created.linked {world after : World} {path : Path}
    {options : Options} {map : Mmap} {base : Option Address} {size : Nat}
    (created : Created world after path options map base size) :
    Linked base size world.mappings ⟨map, after⟩ := by
  cases created.fields
  exact ⟨fun _ => ⟨rfl, rfl, created.mappings⟩, by simp, by simp⟩

/-- Taking the stream changes neither the map's memory nor the mappings. -/
theorem getStream_frame (world : World) (map : Mmap) :
    let after := map.getStream world
    after.2.1.isMapped = map.isMapped ∧
      after.2.1.baseAddress = map.baseAddress ∧
      after.2.1.mappedSize = map.mappedSize ∧
      after.2.2.mappings = world.mappings ∧
      ∀ stream, after.2.1.stream = some stream →
        map.stream = some stream ∨
          stream.value = overMemory map.baseAddress map.mappedSize := by
  unfold Mmap.getStream openMemory
  split
  · rename_i cached held
    refine ⟨rfl, rfl, rfl, rfl, ?_⟩
    intro stream same
    exact Or.inl same
  · rename_i empty
    cases pool : world.poolAllocate with
    | mk block after =>
        cases block with
        | none =>
            refine ⟨rfl, rfl, rfl, ?_, ?_⟩
            · unfold World.poolAllocate at pool
              dsimp only at pool
              split at pool
              · cases pool
                rfl
              · simp at pool
            · intro stream same
              exact Or.inl same
        | some block =>
            refine ⟨rfl, rfl, rfl, ?_, ?_⟩
            · rw [World.poolAllocate_some pool]
              rfl
            · rintro stream ⟨⟩
              exact Or.inr rfl

/-- A stream that is taken lies over what the map says of its memory. -/
theorem Linked.getStream {base : Option Address} {size : Nat}
    {others : List Mapping} {life : Life}
    (linked : Linked base size others life) :
    Linked base size others
      ⟨(life.map.getStream life.world).2.1,
        (life.map.getStream life.world).2.2⟩ := by
  rcases getStream_frame life.world life.map with
    ⟨isMapped, baseAddress, mappedSize, mappings, streams⟩
  refine ⟨?_, ?_, ?_⟩
  · intro still
    rw [baseAddress, mappedSize, mappings]
    exact linked.mapped (isMapped ▸ still)
  · intro gone
    rw [baseAddress, mappedSize, mappings]
    exact linked.unmapped (isMapped ▸ gone)
  · intro stream held
    rcases streams stream held with older | fresh
    · rw [isMapped]
      exact linked.cached stream older
    · rw [fresh, isMapped]
      by_cases still : life.map.isMapped = true
      · rcases linked.mapped still with ⟨sameBase, sameSize, _⟩
        rw [sameBase, sameSize]
        exact Or.inl (Cached.of_overMemory base size)
      · have gone : life.map.isMapped = false := by simpa using still
        rcases linked.unmapped gone with ⟨noBase, noSize, _⟩
        rw [noBase, noSize]
        exact Or.inr ⟨gone, Cached.of_overMemory none 0⟩

theorem Linked.advise {base : Option Address} {size : Nat}
    {others : List Mapping} {life : Life}
    (linked : Linked base size others life) (offset length : Nat)
    (hint : MadviseHint) :
    Linked base size others
      ⟨life.map, (life.map.advise life.world offset length hint).2⟩ := by
  have mappings :
      (life.map.advise life.world offset length hint).2.mappings =
        life.world.mappings := by
    unfold Mmap.advise
    split <;> rfl
  refine ⟨?_, ?_, linked.cached⟩
  · rw [mappings]
    exact linked.mapped
  · rw [mappings]
    exact linked.unmapped

/-- Unmapping leaves the other mappings and forgets the address. -/
theorem Linked.unmap {base : Option Address} {size : Nat}
    {others : List Mapping} {life : Life}
    (linked : Linked base size others life) (based : base = none ↔ size = 0) :
    Linked base size others
      ⟨(life.map.unmap life.world).1, (life.map.unmap life.world).2⟩ := by
  unfold Mmap.unmap
  split
  · rename_i isMapped
    rcases linked.mapped isMapped with ⟨baseAddress, mappedSize, mappings⟩
    refine ⟨by simp, ?_, ?_⟩
    · intro _
      refine ⟨rfl, rfl, ?_⟩
      simp only [releaseMapping, baseAddress, mappedSize]
      cases base with
      | none => simpa [own] using mappings
      | some start =>
          have positive : 0 < size := by
            refine Nat.pos_of_ne_zero fun empty => ?_
            exact absurd (based.mpr empty) (by simp)
          simp only [own, List.singleton_append] at mappings
          simp [positive, World.munmap, mappings]
    · intro stream held
      rcases linked.cached stream held with current | ⟨stale, _⟩
      · exact Or.inl current
      · rw [isMapped] at stale
        cases stale
  · rename_i notMapped
    exact linked

/-- What an event says about the memory it handed out. -/
structure Reported (base : Option Address) (size : Nat)
    (others : List Mapping) (call : Call) (life : Life) (event : Event) :
    Prop where
  named : event.call = call
  before : event.before = life
  linked : Linked base size others event.after
  data :
    call ≠ .readChunk → ∀ range, event.range = some range →
      range = ⟨life.map.baseAddress, life.map.mappedSize⟩
  silent :
    call = .readChunk → event.range = none →
      ∀ stream, life.map.stream = some stream →
        stream.value.memorySize ≤ stream.value.memoryPosition
  chunk :
    call = .readChunk → ∀ range, event.range = some range →
      ∃ stream origin extent count, life.map.stream = some stream ∧
        Cached origin extent stream.value ∧
        0 < count ∧ stream.value.memoryPosition + count ≤ extent ∧
        range = ⟨some (origin.getD 0 + stream.value.memoryPosition), count⟩

/-- A read advances the cached stream, if there is one. -/
theorem readChunk_reported {base : Option Address} {size : Nat}
    {others : List Mapping} {life : Life}
    (linked : Linked base size others life)
    (representable : size < sizeLimit) :
    ∃ event, perform .readChunk life = .ok event ∧
      Reported base size others .readChunk life event := by
  cases held : life.map.stream with
  | none =>
      refine ⟨⟨.readChunk, life, none, life⟩, by simp [perform, held],
        rfl, rfl, linked, by simp, ?_, by simp⟩
      intro _ _ stream other
      rw [held] at other
      cases other
  | some stream =>
      -- the cached stream is either over the mapping or over nothing
      have cached :
          ∃ origin extent, Cached origin extent stream.value ∧
            extent < sizeLimit ∧
            ∀ value, Cached origin extent value →
              Cached base size value ∨
                (life.map.isMapped = false ∧ Cached none 0 value) := by
        rcases linked.cached stream held with current | ⟨gone, empty⟩
        · exact ⟨base, size, current, representable,
            fun value same => Or.inl same⟩
        · exact ⟨none, 0, empty, wordLimit_pos,
            fun value same => Or.inr ⟨gone, same⟩⟩
      rcases cached with ⟨origin, extent, cached, fits, kept⟩
      rcases cached.readChunk fits with ⟨result, returned, read⟩
      refine ⟨⟨.readChunk, life, result.chunk.map chunkRange,
        { life with
          map :=
            { life.map with
              stream := some { stream with value := result.stream } } }⟩,
        ?_, rfl, rfl, ⟨linked.mapped, linked.unmapped, ?_⟩, by simp,
        ?_, ?_⟩
      · simp only [perform, held, returned]
        rfl
      · rintro after ⟨⟩
        exact kept result.stream read.cached
      · intro _ nothing other same
        rw [held, Option.some.injEq] at same
        subst same
        rw [cached.extent]
        exact read.exhausted (by simpa using nothing)
      · intro _ range handed
        simp only [Option.map_eq_some_iff] at handed
        rcases handed with ⟨chunk, some_, rfl⟩
        rcases read.handed chunk some_ with ⟨count, positive, inside, range⟩
        exact ⟨stream, origin, extent, count, held, cached, positive,
          inside, range⟩

/-- Every call returns, and keeps the map and its stream linked. -/
theorem perform_reported {base : Option Address} {size : Nat}
    {others : List Mapping} {life : Life}
    (linked : Linked base size others life) (based : base = none ↔ size = 0)
    (representable : size < sizeLimit) (call : Call) :
    ∃ event, perform call life = .ok event ∧
      Reported base size others call life event := by
  cases call with
  | getStream =>
      exact ⟨_, rfl, rfl, rfl, linked.getStream, by simp, by simp, by simp⟩
  | readChunk => exact readChunk_reported linked representable
  | getData =>
      refine ⟨_, rfl, rfl, rfl, linked, ?_, by simp, by simp⟩
      rintro _ range ⟨⟩
      rfl
  | advise offset length hint =>
      exact ⟨_, rfl, rfl, rfl, linked.advise offset length hint, by simp,
        by simp, by simp⟩
  | unmap =>
      exact ⟨_, rfl, rfl, rfl, linked.unmap based, by simp, by simp,
        by simp⟩

/-! ## Live ranges -/

/--
A read is made while the map is mapped, or on a stream with nothing left; no
other call is restricted.
-/
def Event.ReadsMapped (event : Event) : Prop :=
  event.call = .readChunk →
    event.before.map.isMapped = true ∨
      ∀ stream, event.before.map.stream = some stream →
        stream.value.memorySize ≤ stream.value.memoryPosition

/-- What the call handed out was live when it was made. -/
def Event.HandsOutLive (event : Event) : Prop :=
  ∀ range, event.range = some range → range.Live event.before.world

theorem Reported.handsOutLive {base : Option Address} {size : Nat}
    {others : List Mapping} {call : Call} {life : Life} {event : Event}
    (reported : Reported base size others call life event)
    (linked : Linked base size others life) (based : base = none ↔ size = 0)
    (reads : event.ReadsMapped) : event.HandsOutLive := by
  intro range handed
  rw [reported.before]
  by_cases isRead : call = .readChunk
  · rcases reported.chunk isRead range handed with
      ⟨stream, origin, extent, count, held, cached, positive, inside, rfl⟩
    rcases reads (reported.named.trans isRead) with still | nothing
    · rw [reported.before] at still
      rcases linked.cached stream held with current | ⟨gone, _⟩
      · have sameBase : origin = base := cached.data.symm.trans current.data
        have sameSize : extent = size :=
          cached.extent.symm.trans current.extent
        subst sameBase sameSize
        cases origin with
        | none =>
            have empty := based.mp rfl
            omega
        | some start =>
            refine Or.inr ⟨_, ⟨start, extent⟩, rfl, ?_, ?_, ?_⟩
            · simp [(linked.mapped still).2.2, own]
            · simp
            · rw [Option.getD_some, Nat.add_assoc]
              exact Nat.add_le_add_left inside start
      · rw [still] at gone
        cases gone
    · rw [reported.before] at nothing
      have past := nothing stream held
      rw [cached.extent] at past
      omega
  · cases reported.data isRead range handed
    by_cases still : life.map.isMapped = true
    · rcases linked.mapped still with ⟨sameBase, sameSize, mappings⟩
      rw [sameBase, sameSize]
      cases base with
      | none => exact Or.inl (based.mp rfl)
      | some start =>
          refine Or.inr ⟨start, ⟨start, size⟩, rfl, ?_, Nat.le_refl _,
            Nat.le_refl _⟩
          simp [mappings, own]
    · have gone : life.map.isMapped = false := by simpa using still
      exact Or.inl (linked.unmapped gone).2.1

/-- A stale read hands out memory above all mappings that are left. -/
theorem Reported.readsMapped {base : Option Address} {size : Nat}
    {others : List Mapping} {call : Call} {life : Life} {event : Event}
    (reported : Reported base size others call life event)
    (linked : Linked base size others life) (based : base = none ↔ size = 0)
    (apart :
      ∀ start, base = some start →
        ∀ mapping ∈ others, mapping.base + mapping.size ≤ start)
    (live : event.HandsOutLive) : event.ReadsMapped := by
  intro isRead
  rw [reported.named] at isRead
  rw [reported.before]
  cases handed : event.range with
  | none => exact Or.inr (reported.silent isRead handed)
  | some range =>
      rcases reported.chunk isRead range handed with
        ⟨stream, origin, extent, count, held, cached, positive, inside,
          rfl⟩
      by_contra stale
      simp only [not_or] at stale
      have gone : life.map.isMapped = false := by simpa using stale.1
      rcases linked.cached stream held with current | ⟨_, empty⟩
      · have sameBase : origin = base := cached.data.symm.trans current.data
        have sameSize : extent = size :=
          cached.extent.symm.trans current.extent
        subst sameBase sameSize
        cases origin with
        | none =>
            have nothing := based.mp rfl
            omega
        | some start =>
            have inMapping := live _ handed
            rw [reported.before] at inMapping
            rcases inMapping with none_ | ⟨at_, mapping, address, among,
              _, fits⟩
            · simp only at none_
              omega
            · rw [(linked.unmapped gone).2.2] at among
              have below := apart start rfl mapping among
              simp only [Option.some.injEq, Option.getD_some] at address
              rw [← address, Nat.add_assoc] at fits
              have above :
                  start < start + (stream.value.memoryPosition + count) :=
                Nat.lt_add_of_pos_right (by omega)
              exact absurd (Nat.le_trans fits below)
                (Nat.not_le.mpr above)
      · have nothing : extent = 0 :=
          cached.extent.symm.trans empty.extent
        omega

/-- Every run of calls returns, and each of its events is reported. -/
theorem run_reported {base : Option Address} {size : Nat}
    {others : List Mapping} {life : Life}
    (linked : Linked base size others life) (based : base = none ↔ size = 0)
    (representable : size < sizeLimit) (calls : List Call) :
    ∃ events, run calls life = .ok events ∧
      ∀ event ∈ events,
        Linked base size others event.before ∧
          Reported base size others event.call event.before event := by
  induction calls generalizing life with
  | nil => exact ⟨[], rfl, by simp⟩
  | cons call calls induction =>
      rcases perform_reported linked based representable call with
        ⟨event, performed, reported⟩
      rcases induction reported.linked with ⟨later, ran, all⟩
      refine ⟨event :: later, ?_, ?_⟩
      · simp only [run, performed]
        change (run calls event.after >>= _) = _
        rw [ran]
        rfl
      · intro other among
        rcases List.mem_cons.mp among with rfl | among
        · rw [reported.before, reported.named]
          exact ⟨linked, reported⟩
        · exact all other among

/--
A map made by `bc_io_mmap_file`, under every sequence of calls.  Each call
returns; what it hands out lies in a live mapping whenever it is not a read
from a stream that was taken before `bc_io_mmap_unmap` and still has bytes
left.  Where new mappings are placed apart from the older ones, it lies in a
live mapping only then.
-/
theorem mapLife_ranges_live (world after : World) (path : Path)
    (options : Options) (map : Pooled Mmap)
    (made : file world path options = (some map, after))
    (length : options.length < sizeLimit)
    (fileSize :
      ∀ node, world.files path = some node → node.statSize < sizeLimit)
    (calls : List Call) :
    ∃ events, run calls ⟨map.value, after⟩ = .ok events ∧
      ∀ event ∈ events,
        (event.ReadsMapped → event.HandsOutLive) ∧
          ((∀ mapping ∈ world.mappings,
              mapping.base + mapping.size ≤ world.nextAddress) →
            event.HandsOutLive → event.ReadsMapped) := by
  rcases file_some made with ⟨base, size, created⟩
  rcases run_reported created.linked created.based
      (created.representable length fileSize) calls with
    ⟨events, ran, all⟩
  refine ⟨events, ran, ?_⟩
  intro event among
  rcases all event among with ⟨linked, reported⟩
  refine ⟨reported.handsOutLive linked created.based, ?_⟩
  intro apart
  refine reported.readsMapped linked created.based ?_
  intro start placed mapping among
  rw [created.placed start placed]
  exact apart mapping among

/-- A system with one regular file of three bytes, named `f`. -/
def threeBytes : World where
  files path := if path = [102] then some (.regular [1, 2, 3]) else none
  openFiles := []
  mappings := []
  memory _ := 0
  nextAddress := World.pageSize
  blocks := []
  arenas := []
  nextIdentity := 0
  faults _ := []
  strayReleases := 0
  uninitialisedSize := 0

/-- Map the whole file, without hints. -/
def wholeFile : Options :=
  ⟨false, false, .normal, 0, 0⟩

/-- Read the whole file through the stream, and unmap it afterwards. -/
theorem mapLife_ranges_live_read_then_unmap :
    ∃ map after events event,
      file threeBytes [102] wholeFile = (some map, after) ∧
        run [.getStream, .readChunk, .unmap, .getData]
            ⟨map.value, after⟩ = .ok events ∧
        event ∈ events ∧ event.range = some ⟨some World.pageSize, 3⟩ ∧
        event.HandsOutLive := by
  have made :
      ∃ map after, file threeBytes [102] wholeFile = (some map, after) ∧
        ∃ event ∈ (run [.getStream, .readChunk, .unmap, .getData]
            ⟨map.value, after⟩).toOption.getD [],
          event.range = some ⟨some World.pageSize, 3⟩ ∧
            event.before.map.isMapped = true :=
    ⟨_, _, rfl, _, List.mem_cons_of_mem _ (List.mem_cons_self ..), rfl, rfl⟩
  rcases made with ⟨map, after, made, event, among, range, mapped⟩
  rcases mapLife_ranges_live threeBytes after [102] wholeFile map made
      (by simp [wholeFile, wordLimit])
      (by
        intro node named
        cases named
        simp [FileNode.statSize, wordLimit])
      [.getStream, .readChunk, .unmap, .getData] with ⟨events, ran, all⟩
  rw [ran] at among
  exact ⟨map, after, events, event, made, ran, among, range,
    (all event among).1 fun _ => Or.inl mapped⟩

/-- Take the stream, unmap, and read: the chunk is memory that is gone. -/
theorem mapLife_hands_out_dead_range :
    ∃ map after, file threeBytes [102] wholeFile = (some map, after) ∧
      ¬ ∀ calls events, run calls ⟨map.value, after⟩ = .ok events →
        ∀ event ∈ events, event.HandsOutLive := by
  refine ⟨_, _, rfl, ?_⟩
  intro live
  have stale :=
    live [.getStream, .unmap, .readChunk] _ rfl _
      (List.mem_cons_of_mem _
        (List.mem_cons_of_mem _ (List.mem_cons_self ..)))
  rcases stale _ rfl with empty | ⟨base, mapping, _, among, _⟩
  · exact absurd empty (by decide)
  · exact absurd among (List.not_mem_nil)

end BcIo.Mmap
