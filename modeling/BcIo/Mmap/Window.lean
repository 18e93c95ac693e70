import BcIo.Mmap.Life
import BcIo.File.Drain

/-!
# The window of a map

A map is a window into a file: `bc_io_mmap_file` chooses the part of the file
that it shows, and `bc_io_mmap_advise` the part of the window that an advice is
for.  Neither compares a length that its caller gives with what is there.
-/

namespace BcIo.Mmap

open BcIo.Foundation.MachineWord
open BcIo.Stream
open BcIo.File (Draining DrainedFrom MappedAt draining_mapped
  mappedAt_overMemory runReads_mapped_returns)

/-! ## The content of a window -/

/--
Calls on the stream hand out `content`: given one call for each byte and one
for the end they return, reach the end, and the chunks are the content.
-/
def Drains (memory : Address → Byte) (stream : Stream)
    (content : List Byte) : Prop :=
  ∀ calls, content.length < calls →
    ∃ run,
      runReads scriptedDevice memory calls stream ⟨(), [], []⟩ = .ok run ∧
        none ∈ run.results ∧ run.handed = content

/-- The map shows the part of the file that its options ask for. -/
structure ShowsContent (content : List Byte) (options : Options) (map : Mmap)
    (world : World) : Prop where
  inside : options.offset + map.mappedSize ≤ content.length
  sized :
    map.mappedSize =
      if 0 < options.length then options.length
      else content.length - options.offset
  drains :
    ∀ taken later, map.getStream world = (true, taken, later) →
      ∃ stream, taken.stream = some stream ∧
        Drains later.memory stream.value
          ((content.drop options.offset).take map.mappedSize)

/-- A stream over no memory ends at once. -/
theorem drains_nothing (memory : Address → Byte) (data : Option Address) :
    Drains memory (overMemory data 0) [] := by
  intro calls positive
  cases calls with
  | zero => simp at positive
  | succ calls =>
      have first :
          (overMemory data 0).readChunk scriptedDevice ⟨(), [], []⟩ =
            .ok ⟨none, { overMemory data 0 with endOfStream := true },
              ⟨(), [], []⟩⟩ :=
        rfl
      refine ⟨⟨List.replicate (calls + 1) none,
        { overMemory data 0 with endOfStream := true }, ⟨(), [], []⟩⟩, ?_,
        by simp [List.replicate_succ], by simp [ReadRun.handed]⟩
      rw [runReads, first]
      change (runReads scriptedDevice memory calls _ _ >>= _) = _
      rw [runReads_of_endOfStream _ _ _ rfl]
      rfl

/-- A stream over memory that shows `content` hands it out. -/
theorem drains_memory {memory : Address → Byte} {content : List Byte}
    {base : Address} (representable : content.length < sizeLimit)
    (mapped : ∀ index, index < content.length →
      memory (base + index) = content.getD index 0) :
    Drains memory (overMemory (some base) content.length) content := by
  intro calls many
  have drains := draining_mapped scriptedDevice representable mapped
  have starts :=
    mappedAt_overMemory content base
      (⟨(), [], []⟩ : ReadSide Unit ReadOutcome)
  have returns :
      ∃ run, runReads scriptedDevice memory calls
        (overMemory (some base) content.length) ⟨(), [], []⟩ = .ok run :=
    runReads_mapped_returns scriptedDevice representable starts calls
  rcases returns with ⟨run, returned⟩
  have drained := drains.runReads calls starts returned
  have stopped : none ∈ run.results :=
    List.mem_of_mem_take (drained.bounded (by omega))
  rcases drained.reached with ⟨count, handed, holds⟩
  have all : 0 + count = content.length :=
    (drains.accounts holds).latched (drained.ended stopped)
  rw [Nat.zero_add] at all
  refine ⟨run, returned, stopped, ?_⟩
  rw [handed, all, List.drop_zero, List.take_length]

/-- The stream that a new map hands out lies over its memory. -/
theorem getStream_fresh {world later : World} {base : Option Address}
    {size : Nat} {taken : Mmap}
    (succeeded :
      getStream world ⟨base, size, none, true⟩ = (true, taken, later)) :
    later.memory = world.memory ∧
      ∃ stream, taken.stream = some stream ∧
        stream.value = overMemory base size := by
  unfold getStream openMemory at succeeded
  cases pool : world.poolAllocate with
  | mk block after =>
      cases block with
      | none => simp [pool] at succeeded
      | some block =>
          simp only [pool, Prod.mk.injEq, true_and] at succeeded
          rcases succeeded with ⟨rfl, rfl⟩
          rw [World.poolAllocate_some pool]
          exact ⟨rfl, _, rfl, rfl⟩

/-- The window of a map as a part of the file. -/
theorem Shows.slice {world : World} {content : List Byte}
    {offset size : Nat} {base : Address}
    (shows : Shows world (.regular content) offset base size) :
    ∀ index, index < ((content.drop offset).take size).length →
      world.memory (base + index) =
        ((content.drop offset).take size).getD index 0 := by
  intro index small
  have below : index < size := by
    rw [List.length_take] at small
    omega
  rw [shows index below]
  simp [FileNode.byteAt, List.getD_eq_getElem?_getD,
    List.getElem?_take_of_lt below]

/-- A window that lies inside the file hands out the part that it shows. -/
theorem drains_window {world : World} {content : List Byte}
    {offset size : Nat} {base : Option Address}
    (representable : content.length < 2 ^ 63)
    (based : base = none ↔ size = 0)
    (shows : ∀ start, base = some start →
      Shows world (.regular content) offset start size)
    (inside : offset + size ≤ content.length) :
    Drains world.memory (overMemory base size)
      ((content.drop offset).take size) := by
  cases base with
  | none =>
      have empty : size = 0 := based.mp rfl
      rw [empty, List.take_zero]
      exact drains_nothing world.memory none
  | some start =>
      have length :
          ((content.drop offset).take size).length = size := by
        rw [List.length_take, List.length_drop]
        omega
      have limit : content.length < sizeLimit := by
        simp only [sizeLimit, wordLimit]
        omega
      have drains := drains_memory (by omega) (shows start rfl).slice
      rw [length] at drains
      exact drains

theorem options_mappedSize_eq {options : Options} {fileSize size : Nat}
    (sized : options.mappedSize fileSize = some size) :
    size =
        (if 0 < options.length then options.length
        else fileSize - options.offset) ∧
      (options.length = 0 → options.offset ≤ fileSize) := by
  unfold Options.mappedSize at sized
  split at sized
  · rename_i whole
    split at sized
    · simp at sized
    · cases sized
      simp only [whole, Nat.lt_irrefl, if_false, true_and]
      intro _
      omega
  · rename_i asked
    cases sized
    exact ⟨(if_pos (Nat.pos_of_ne_zero asked)).symm,
      fun zero => absurd zero asked⟩

/--
A map of a regular file shows the part of the file that was asked for if and
only if no length was given or the range ends inside the file: an explicit
length is never compared with the size of the file.
-/
theorem file_shows_content_iff (world after : World) (path : Path)
    (options : Options) (content : List Byte) (map : Pooled Mmap)
    (named : world.files path = some (.regular content))
    (representable : content.length < 2 ^ 63)
    (made : file world path options = (some map, after)) :
    ShowsContent content options map.value after ↔
      options.length = 0 ∨
        options.offset + options.length ≤ content.length := by
  rcases file_made made with ⟨base, size, created, shows⟩
  rcases created.sized with ⟨node, sameNamed, sized⟩
  cases named.symm.trans sameNamed
  rcases options_mappedSize_eq sized with ⟨sizeEq, within⟩
  rw [FileNode.statSize] at sizeEq within
  rw [created.fields]
  constructor
  · intro shown
    have inside := shown.inside
    rw [sizeEq] at inside
    by_cases zero : options.length = 0
    · exact Or.inl zero
    · rw [if_pos (Nat.pos_of_ne_zero zero)] at inside
      exact Or.inr inside
  · intro fits
    have inside : options.offset + size ≤ content.length := by
      rw [sizeEq]
      split
      · omega
      · rename_i zero
        have ordered := within (by omega)
        omega
    refine ⟨inside, sizeEq, ?_⟩
    intro taken later succeeded
    rcases getStream_fresh succeeded with ⟨memory, stream, held, lies⟩
    refine ⟨stream, held, ?_⟩
    rw [lies, memory]
    exact drains_window representable created.based
      (fun start isBase => shows _ start named isBase) inside

/-- The first two of three bytes. -/
theorem file_shows_content_iff_partial :
    ∃ map after,
      file threeBytes [102] ⟨true, false, .willNeed, 0, 2⟩ =
          (some map, after) ∧
        ShowsContent [1, 2, 3] ⟨true, false, .willNeed, 0, 2⟩ map.value
          after := by
  have made :
      ∃ map after,
        file threeBytes [102] ⟨true, false, .willNeed, 0, 2⟩ =
          (some map, after) :=
    ⟨_, _, rfl⟩
  rcases made with ⟨map, after, made⟩
  exact ⟨map, after, made,
    (file_shows_content_iff threeBytes after [102]
      ⟨true, false, .willNeed, 0, 2⟩ [1, 2, 3] map rfl (by decide)
      made).mpr (Or.inr (by decide))⟩

/-- Two pages of a file of three bytes: the second one is not there. -/
theorem file_maps_past_end :
    ∃ map after,
      file threeBytes [102] ⟨false, false, .normal, 0, 8192⟩ =
          (some map, after) ∧
        map.value.mappedSize = 8192 ∧
        ¬ ShowsContent [1, 2, 3] ⟨false, false, .normal, 0, 8192⟩ map.value
          after := by
  refine ⟨_, _, rfl, rfl, ?_⟩
  intro shown
  exact absurd shown.inside (by decide)

/-! ## The range of an advice -/

/--
A call of `madvise` for `offset` stays inside the mapping of the map: the
address has not wrapped, and the range ends where the mapping does or before.
-/
def MadviseCall.Inside (call : MadviseCall) (offset : Nat) (life : Life) :
    Prop :=
  ∃ mapping ∈ life.world.mappings,
    life.map.baseAddress = some mapping.base ∧
      life.map.mappedSize = mapping.size ∧
      call.address = mapping.base + offset ∧
      call.address + call.length ≤ mapping.base + mapping.size

/-- When an advice on a linked map stays inside. -/
theorem Linked.advise_inside_iff {base : Option Address} {size : Nat}
    {others : List Mapping} {life : Life}
    (linked : Linked base size others life)
    (addressable : ∀ start, base = some start → start + size ≤ sizeLimit)
    (offset length : Nat) (hint : MadviseHint) :
    (∀ call, life.map.adviseCall offset length hint = some call →
        call.Inside offset life) ↔
      (life.map.isMapped = false ∨ life.map.baseAddress = none ∨
        length = 0 ∨ offset + length ≤ life.map.mappedSize) := by
  by_cases silent : life.map.isMapped = false ∨ length = 0
  · have noCall : life.map.adviseCall offset length hint = none :=
      if_pos silent
    refine iff_of_true (by simp [noCall]) ?_
    rcases silent with gone | zero
    · exact Or.inl gone
    · exact Or.inr (Or.inr (Or.inl zero))
  have still : life.map.isMapped = true := by
    simpa using fun gone => silent (Or.inl gone)
  have positive : 0 < length :=
    Nat.pos_of_ne_zero fun zero => silent (Or.inr zero)
  rcases linked.mapped still with ⟨sameBase, sameSize, mappings⟩
  have made :
      life.map.adviseCall offset length hint =
        base.map fun start =>
          ⟨sizeAdd start offset, length, hintToMadvise hint⟩ := by
    rw [adviseCall, if_neg silent, sameBase]
  cases base with
  | none =>
      refine iff_of_true ?_ (Or.inr (Or.inl sameBase))
      simp [made]
  | some start =>
      rw [made, Option.map_some]
      constructor
      · intro inside
        rcases inside _ rfl with
          ⟨mapping, _, atBase, ofSize, address, ends⟩
        dsimp only at address ends
        rw [address, Nat.add_assoc] at ends
        rw [ofSize]
        exact Or.inr (Or.inr (Or.inr (Nat.le_of_add_le_add_left ends)))
      · rintro (gone | none_ | zero | fits)
        · rw [still] at gone
          cases gone
        · rw [sameBase] at none_
          cases none_
        · omega
        · rw [sameSize] at fits
          have below : start + offset < start + size :=
            Nat.add_lt_add_left (by omega) start
          have address : sizeAdd start offset = start + offset :=
            wordAdd_of_lt (Nat.lt_of_lt_of_le below (addressable start rfl))
          rintro call ⟨⟩
          refine ⟨⟨start, size⟩, ?_, sameBase, sameSize, address, ?_⟩
          · simp [mappings, own]
          · dsimp only
            rw [address, Nat.add_assoc]
            exact Nat.add_le_add_left fits start

/--
In every run of calls on a map the advice that is issued stays inside the live
mapping if and only if there is nothing to issue or the range that was asked
for ends inside the map: the range is handed to `madvise` as it is.
-/
theorem mapLife_advice_inside_iff (world after : World) (path : Path)
    (options : Options) (map : Pooled Mmap)
    (made : file world path options = (some map, after))
    (length : options.length < sizeLimit)
    (fileSize :
      ∀ node, world.files path = some node → node.statSize < sizeLimit)
    (addressable :
      ∀ mapping ∈ after.mappings,
        mapping.base + mapping.size ≤ sizeLimit)
    (calls : List Call) :
    ∃ events, run calls ⟨map.value, after⟩ = .ok events ∧
      ∀ event ∈ events, ∀ offset length hint,
        event.call = .advise offset length hint →
          ((∀ issued,
              event.before.map.adviseCall offset length hint =
                  some issued →
                issued.Inside offset event.before) ↔
            (event.before.map.isMapped = false ∨
              event.before.map.baseAddress = none ∨ length = 0 ∨
              offset + length ≤ event.before.map.mappedSize)) := by
  rcases file_some made with ⟨base, size, created⟩
  rcases run_reported created.linked created.based
      (created.representable length fileSize) calls with
    ⟨events, ran, all⟩
  refine ⟨events, ran, ?_⟩
  intro event among offset length hint _
  refine (all event among).1.advise_inside_iff ?_ offset length hint
  rintro start rfl
  refine addressable ⟨start, size⟩ ?_
  simp [created.mappings, own]

/-- Advice on the map, and again after it was unmapped. -/
theorem mapLife_advice_inside_iff_unmapped :
    ∃ map after events event,
      file threeBytes [102] wholeFile = (some map, after) ∧
        run [.advise 1 2 .dontNeed, .unmap, .advise 1 900 .dontNeed]
            ⟨map.value, after⟩ = .ok events ∧
        event ∈ events ∧ event.call = .advise 1 2 .dontNeed ∧
        event.before.map.isMapped = true ∧
        ∀ issued,
          event.before.map.adviseCall 1 2 .dontNeed = some issued →
            issued.Inside 1 event.before := by
  have made :
      ∃ map after, file threeBytes [102] wholeFile = (some map, after) ∧
        (∀ mapping ∈ after.mappings,
          mapping.base + mapping.size ≤ sizeLimit) ∧
        ∃ event ∈ (run [.advise 1 2 .dontNeed, .unmap,
              .advise 1 900 .dontNeed]
            ⟨map.value, after⟩).toOption.getD [],
          event.call = .advise 1 2 .dontNeed ∧
            event.before.map.isMapped = true ∧
            event.before.map.mappedSize = 3 :=
    ⟨_, _, rfl, by decide, _, List.mem_cons_self .., rfl, rfl, rfl⟩
  rcases made with
    ⟨map, after, made, addressable, event, among, call, mapped, size⟩
  rcases mapLife_advice_inside_iff threeBytes after [102] wholeFile map made
      (by simp [wholeFile, wordLimit])
      (by
        intro node named
        cases named
        simp [FileNode.statSize, wordLimit])
      addressable
      [.advise 1 2 .dontNeed, .unmap, .advise 1 900 .dontNeed] with
    ⟨events, ran, all⟩
  rw [ran] at among
  refine ⟨map, after, events, event, made, ran, among, call, mapped, ?_⟩
  refine (all event among 1 2 .dontNeed call).mpr ?_
  exact Or.inr (Or.inr (Or.inr (by rw [size])))

/-- Advice for the page behind a map of three bytes is issued. -/
theorem mapLife_advice_outside :
    ∃ map after event,
      file threeBytes [102] wholeFile = (some map, after) ∧
        run [.advise 4096 4096 .dontNeed] ⟨map.value, after⟩ =
          .ok [event] ∧
        ¬ ∀ issued,
          event.before.map.adviseCall 4096 4096 .dontNeed = some issued →
            issued.Inside 4096 event.before := by
  refine ⟨_, _, _, rfl, rfl, ?_⟩
  intro inside
  rcases inside _ rfl with ⟨mapping, among, _, _, _, ends⟩
  cases List.mem_singleton.mp among
  exact absurd ends (by decide)

end BcIo.Mmap
