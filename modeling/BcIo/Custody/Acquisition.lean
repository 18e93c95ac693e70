import BcIo.Custody.Footprints

/-!
# What the constructors acquire

A constructor that returns an object has acquired what the object answers for,
and one that fails has acquired nothing.  The two opens for reading of
`bc_io_file_open.c` are different: the streams they hand out do not own the
descriptor, so that it is left to nobody.
-/

namespace BcIo.Custody

open BcIo.File
open BcIo.Stream
open BcIo.Foundation.Custody

section Constructors

variable {world after : World} {path : Path} {bufferSize : Nat}

theorem allocateWithBuffer_trades {sourceType : SourceType}
    {allocated : Option Allocated}
    (call :
      allocateWithBuffer world bufferSize sourceType = (allocated, after)) :
    ledger.Trades world after 0
      (total (fun made => {.arena made.arena} + {.block made.block})
        allocated.toList) := by
  cases allocated with
  | none => exact trades_of_acquired (allocateWithBuffer_none call)
  | some allocated =>
      unfold allocateWithBuffer at call
      dsimp only at call
      split at call
      · cases call
      rename_i block world₁ pool
      split at call
      · cases call
      rename_i arena world₂ create
      split at call
      · cases call
      rename_i buffer world₃ allocation
      cases call
      have acquired :=
        (((Acquired.refl world).allocated pool).arenaCreated
          create).arenaAllocated allocation
      have traded := trades_of_acquired acquired
      rw [total_some, add_comm]
      exact traded

/-- A stream on a descriptor answers for its buffer and for itself only. -/
theorem openFileDescriptor_trades {descriptor : Descriptor}
    {sourceType : SourceType} {mode : Mode} {stream : Option (Pooled Stream)}
    (opened :
      openFileDescriptor world descriptor sourceType mode bufferSize =
        (stream, after)) :
    ledger.Trades world after 0 (total streamFootprint stream.toList) ∧
      ∀ made ∈ stream, made.value.fileDescriptor = descriptor := by
  cases stream with
  | none =>
      refine ⟨trades_of_acquired (openFileDescriptor_none opened), ?_⟩
      intro made member
      cases member
  | some stream =>
      unfold openFileDescriptor at opened
      generalize sized :
          (if sourceType = .file ∧ mode = .read then _ else (none, world)) =
            query at opened
      rcases query with ⟨size, queried⟩
      dsimp only at opened
      split at opened
      · cases opened
      rename_i allocated last allocation
      cases opened
      refine ⟨?_, ?_⟩
      · have traded :=
          (trades_of_acquired (sizeQuery_acquired sized)).also
            (allocateWithBuffer_trades allocation)
        exact traded
      · rintro made ⟨⟩
        rfl

/-- A stream on a file it opened also answers for the descriptor. -/
theorem openFile_trades {mode : Mode} {stream : Option (Pooled Stream)}
    (opened : Stream.openFile world path mode bufferSize = (stream, after)) :
    ledger.Trades world after 0 (total streamFootprint stream.toList) := by
  cases stream with
  | none => exact trades_of_acquired (openFile_none opened)
  | some stream =>
      unfold Stream.openFile at opened
      split at opened
      · cases opened
      rename_i descriptor world₁ opening
      rcases ioOpenFile_acquired opening with ⟨node, withFile⟩
      generalize sized :
          (if mode = .read then _ else (none, world₁)) = query at opened
      rcases query with ⟨size, queried⟩
      dsimp only at opened
      split at opened
      · cases opened
      rename_i allocated last allocation
      cases opened
      have traded :=
        (trades_of_acquired
          (withFile.then_nothing (sizeQuery_acquired sized))).also
            (allocateWithBuffer_trades allocation)
      rw [total_some, add_right_comm] at traded
      rw [total_some]
      exact traded

/-- The descriptor that `bc_io_file_open_read` opens is nobody's. -/
theorem openRead_trades {options : OpenOptions}
    {stream : Option (Pooled Stream)}
    (opened : File.openRead world path options = (stream, after)) :
    ledger.Trades world after 0
      (total streamFootprint stream.toList +
        (stream.toList.map fun made =>
          Resource.descriptor made.value.fileDescriptor :
            Multiset Resource)) := by
  cases stream with
  | none => exact trades_of_acquired (openRead_none opened)
  | some stream =>
      unfold File.openRead at opened
      split at opened
      · cases opened
      rename_i descriptor world₁ resolved
      rcases openResolveDescriptor_acquired resolved with ⟨node, withFile⟩
      split at opened
      · cases opened
      rename_i made last streamed
      cases opened
      rcases openFileDescriptor_trades streamed with ⟨traded, onIt⟩
      have both := (trades_of_acquired withFile).also traded
      rw [Option.toList_some, List.map_cons, List.map_nil, onIt stream rfl]
      exact both

/-- What a map that has just been made answers for. -/
theorem held_newMap {base : Option Address} {size : Nat} {block : BlockId}
    (positive : ∀ start, base = some start → 0 < size)
    (blocks : List BlockId) :
    held { mappings := mappingAt base size, blocks := block :: blocks } =
      mapFootprint ⟨block, ⟨base, size, none, true⟩⟩ +
        (blocks.map Resource.block : Multiset Resource) := by
  have mapped :
      ((mappingAt base size).map Resource.mapping : Multiset Resource) =
        mappedFootprint ⟨base, size, none, true⟩ := by
    cases base with
    | none => rfl
    | some start =>
        change _ = if 0 < size then _ else _
        rw [if_pos (positive start rfl)]
        rfl
  unfold held mapFootprint
  rw [mapped, total_none, List.map_cons, ← Multiset.cons_coe,
    ← Multiset.singleton_add, List.map_nil, List.map_nil, Multiset.coe_nil,
    zero_add, zero_add, add_zero, add_assoc]

theorem openMapped_trades {middle : World} {descriptor : Descriptor}
    {opened node : FileNode} {block : BlockId} {handle : ReadHandle}
    (acquired :
      Acquired world middle
        { files := [⟨descriptor, opened⟩], blocks := [block] })
    (made : openMapped middle descriptor node block = (some handle, after)) :
    ledger.Trades world after 0 (handleFootprint handle) ∧
      handle.isMemoryMapped = true := by
  unfold openMapped at made
  dsimp only at made
  generalize mapping :
      (if 0 < node.statSize then _ else (some none, middle)) = pages at made
  rcases pages with ⟨mapped, world₁⟩
  have withPages :
      ∀ base, mapped = some base →
        Acquired world world₁
            { files := [⟨descriptor, opened⟩]
              mappings := mappingAt base node.statSize
              blocks := [block] } ∧
          ∀ start, base = some start → 0 < node.statSize := by
    rintro base rfl
    split at mapping
    · rename_i positive
      split at mapping
      · rename_i start world₂ call
        cases mapping
        exact ⟨by simpa [mappingAt] using acquired.mapped call,
          fun _ _ => positive⟩
      · cases mapping
    · cases mapping
      refine ⟨acquired, ?_⟩
      intro start isSome
      cases isSome
  dsimp only at made
  split at made
  · cases made
  rename_i base
  rcases withPages base rfl with ⟨withPages, positive⟩
  split at made
  · cases made
  rename_i map world₂ withMap
  rcases createFromAddress_acquired (withPages.closed rfl) withMap with
    ⟨both, fields⟩
  split at made
  · cases made
  rename_i value world₃ withStream
  cases made
  refine ⟨?_, rfl⟩
  have asMap := trades_of_acquired both
  have isNew := fields map rfl
  rcases map with ⟨mapBlock, fresh⟩
  dsimp only at isNew
  subst isNew
  have footprint :
      held
          { mappings := mappingAt base node.statSize
            blocks := [mapBlock, block] } =
        mapFootprint ⟨mapBlock, ⟨base, node.statSize, none, true⟩⟩ +
          {.block block} :=
    held_newMap positive [block]
  exact (footprint ▸ asMap).trans ((getStream_trades withStream).frame _)

/-- The descriptors that `bc_io_file_open_auto` leaves to nobody. -/
def handleOrphans (handle : ReadHandle) : List Descriptor :=
  match handle.source with
  | .buffered stream => [stream.value.fileDescriptor]
  | .memoryMapped _ => []

theorem openAuto_trades {mmapThreshold : Nat} {options : OpenOptions}
    {handle : Option ReadHandle}
    (opened :
      openAuto world path mmapThreshold options = (handle, after)) :
    ledger.Trades world after 0
      (total handleFootprint handle.toList +
        (handle.toList.flatMap handleOrphans).map
          Resource.descriptor) := by
  cases handle with
  | none => exact trades_of_acquired (openAuto_none opened)
  | some handle =>
      unfold openAuto at opened
      split at opened
      · cases opened
      rename_i descriptor world₁ resolved
      rcases openResolveDescriptor_acquired resolved with ⟨node, withFile⟩
      split at opened
      · cases opened
      rename_i statNode world₂ stat
      have queried := withFile.fstat stat
      split at opened
      · cases opened
      rename_i block world₃ pool
      have withHandle := queried.allocated pool
      dsimp only at opened
      split at opened
      · split at opened
        · cases opened
        rename_i stream last streamed
        cases opened
        rcases openFileDescriptor_trades streamed with ⟨traded, onIt⟩
        have both := (trades_of_acquired withHandle).also traded
        rw [total_some] at both ⊢
        have parts :
            handleFootprint ⟨block, .buffered stream, statNode.statSize⟩ +
                ([stream.value.fileDescriptor].map Resource.descriptor :
                  Multiset Resource) =
              streamFootprint stream +
                held
                  { files := [⟨descriptor, node⟩], blocks := [block] } := by
          rw [onIt stream rfl]
          simp only [handleFootprint, held, List.map_cons, List.map_nil,
            Multiset.coe_singleton, Multiset.coe_nil, add_zero, zero_add]
          abel
        exact parts ▸ both
      · rcases openMapped_trades withHandle opened with ⟨traded, isMapped⟩
        have noOrphans : handleOrphans handle = [] := by
          unfold ReadHandle.isMemoryMapped at isMapped
          unfold handleOrphans
          cases source : handle.source with
          | buffered stream =>
              rw [source] at isMapped
              cases isMapped
          | memoryMapped map => rfl
        rw [total_some, Option.toList_some, List.flatMap_cons, noOrphans]
        simpa using traded

theorem mapFile_trades {options : Mmap.Options} {map : Option (Pooled Mmap)}
    (opened : Mmap.file world path options = (map, after)) :
    ledger.Trades world after 0 (total mapFootprint map.toList) := by
  cases map with
  | none => exact trades_of_acquired (mmapFile_none opened)
  | some map =>
      unfold Mmap.file at opened
      split at opened
      · cases opened
      split at opened
      · cases opened
      rename_i descriptor world₁ opening
      rcases (Acquired.refl world).opened opening with ⟨node, withFile⟩
      split at opened
      · cases opened
      rename_i statNode world₂ stat
      have queried := withFile.fstat stat
      split at opened
      · cases opened
      rename_i size sized
      generalize mapping :
          (if 0 < size then _ else (some none, world₂)) = pages at opened
      rcases pages with ⟨mapped, world₃⟩
      have withPages :
          ∀ base, mapped = some base →
            Acquired world world₃
                { files := [⟨descriptor, node⟩]
                  mappings := mappingAt base size } ∧
              ∀ start, base = some start → 0 < size := by
        rintro base rfl
        split at mapping
        · rename_i positive
          split at mapping
          · cases mapping
          · rename_i start world₄ pages
            have both := mapPages_acquired queried pages
            simp only [Prod.mk.injEq, Option.some.injEq] at mapping
            rcases mapping with ⟨rfl, rfl⟩
            refine ⟨?_, fun _ _ => positive⟩
            split
            · exact (by simpa using both : Acquired world world₄ _).passed
                .madvise
            · simpa using both
        · cases mapping
          exact ⟨queried, nofun⟩
      dsimp only at opened
      split at opened
      · cases opened
      rename_i base
      rcases withPages base rfl with ⟨withPages, positive⟩
      split at opened
      · cases opened
      rename_i made last withMap
      cases opened
      rcases createFromAddress_acquired (withPages.closed rfl) withMap with
        ⟨both, fields⟩
      have asMap := trades_of_acquired both
      have isNew := fields map rfl
      rcases map with ⟨mapBlock, fresh⟩
      dsimp only at isNew
      subst isNew
      have footprint :
          held
              { mappings := mappingAt base size, blocks := [mapBlock] } =
            mapFootprint ⟨mapBlock, ⟨base, size, none, true⟩⟩ + 0 :=
        held_newMap positive []
      rw [total_some]
      exact (footprint.trans (add_zero _)) ▸ asMap

end Constructors

end BcIo.Custody
