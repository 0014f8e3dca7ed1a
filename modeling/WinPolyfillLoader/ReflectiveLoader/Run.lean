import WinPolyfillLoader.MemoryModule.ReflectiveRelocation
import WinPolyfillLoader.ReflectiveLoader.ImportBinding
import WinPolyfillLoader.ReflectiveLoader.ModuleSearch

/-!
`ReflectiveLoader` from the search for its functions to the call of the entry point. No step
can fail: a function that is not there is a null in its slot, and the entry point is called
all the same.
-/

namespace WinPolyfillLoader.ReflectiveLoader

open ByteMemory MemoryModule

def addressOfEntryPoint : Field := ⟨optionalHeader + 16, 4⟩

/-- `pVirtualAlloc`. -/
def Process.virtualAlloc (functions : Functions) (pointers : Pointers) (s : Process)
    (size : Nat) : Nat × Process :=
  let answer := functions.virtualAlloc (pointers .virtualAlloc) size s.bytes
  (answer.1, ⟨answer.2, s.calls ++ [.virtualAlloc (pointers .virtualAlloc) size]⟩)

/-- `uiLibraryAddress` in step 5. -/
def delta (host : Host) (m : Bytes) (uiHeaderValue uiBaseAddress : Nat) : Nat :=
  (uiBaseAddress + host.addresses - member m uiHeaderValue (imageBase host)) % host.addresses

def relocate (host : Host) (uiHeaderValue uiBaseAddress fuel : Nat) (m : Bytes) : Option Bytes :=
  if member m uiHeaderValue (relocSize host) ≠ 0 then
    processBlocks host uiBaseAddress (delta host m uiHeaderValue uiBaseAddress) fuel
      (host.offset uiBaseAddress (member m uiHeaderValue (relocVirtualAddress host))) m
  else some m

/-- Steps 2 to 6, up to the call of the entry point. -/
def loadImage (host : Host) (functions : Functions) (pointers : Pointers)
    (uiLibraryAddress fuel : Nat) (s : Process) : Option (Nat × Process) :=
  let uiHeaderValue := ntHeaders host s.bytes uiLibraryAddress
  let answer := s.virtualAlloc functions pointers (member s.bytes uiHeaderValue sizeOfImage)
  let uiBaseAddress := answer.1
  let s := { answer.2 with
    bytes := mapImage host uiLibraryAddress uiHeaderValue uiBaseAddress answer.2.bytes }
  let uiValueC := host.offset uiBaseAddress
    (member s.bytes uiHeaderValue (directoryAddress host imageDirectoryEntryImport))
  match bindImports host functions pointers uiBaseAddress fuel uiValueC s with
  | none => none
  | some s =>
    match relocate host uiHeaderValue uiBaseAddress fuel s.bytes with
    | none => none
    | some m =>
      let uiValueA := host.offset uiBaseAddress (member m uiHeaderValue addressOfEntryPoint)
      some (uiBaseAddress, ⟨m, s.calls ++
        [.ntFlushInstructionCache (pointers .ntFlushInstructionCache),
          .entryPoint uiValueA uiBaseAddress]⟩)

/-- `ReflectiveLoader`: the image, and the process in which its entry point is called. -/
def reflectiveLoader (host : Host) (functions : Functions) (peb buffer fuel : Nat) (m : Bytes) :
    Option (Nat × Process) :=
  match findFunctions host m peb fuel with
  | none => none
  | some pointers => loadImage host functions pointers buffer fuel ⟨m, []⟩

/-- A relocation directory in the image: behind its blocks stands the size 0 that ends step 5,
and the slots are elsewhere. -/
structure RelocationDirectory (host : Host) (m : Bytes) (header base : Nat) (ds : List Import)
    (blocks : List Block) : Prop where
  stop : readLE m (base + member m header (relocVirtualAddress host) + totalSize blocks +
    sizeOfBlock.offset) sizeOfBlock.size = 0
  inside : Within base (member m header sizeOfImage)
    (base + member m header (relocVirtualAddress host), totalSize blocks + typeOffset)
  slots : ∀ d ∈ ds, Apart (d.slots base) (d.size host)
    (base + member m header (relocVirtualAddress host)) (totalSize blocks + typeOffset)

/-- What the image at `base` holds when its sections are there: an import directory, and a
relocation directory that is tiled by blocks or empty. The additions are apart from each
other, from the blocks and the word behind them and from the slots. -/
structure Mapped (host : Host) (answers : Answers) (m : Bytes) (header base : Nat)
    (ds : List Import) (blocks : List Block) : Prop where
  imports : ImportDirectory host answers m base (member m header sizeOfImage)
    (base + member m header (directoryAddress host imageDirectoryEntryImport)) ds
  tiled : BlocksAt m (base + member m header (relocVirtualAddress host)) blocks
  total : totalSize blocks = member m header (relocSize host)
  directory : member m header (relocSize host) ≠ 0 →
    RelocationDirectory host m header base ds blocks
  disjoint : (additions host base (delta host m header base) blocks).Pairwise Addition.Apart
  targets : ∀ a ∈ additions host base (delta host m header base) blocks,
    Within base (member m header sizeOfImage) (a.address, a.width) ∧
      Apart a.address a.width (base + member m header (relocVirtualAddress host))
        (totalSize blocks + typeOffset) ∧
      ∀ d ∈ ds, Apart a.address a.width (d.slots base) (d.size host)

section Run

variable {host : Host} {functions : Functions} {pointers : Pointers} {answers : Answers}
variable {World : List Nat → Bytes → Prop} {m m' : Bytes} {header base : Nat}
variable {ds : List Import} {blocks : List Block}

/-- Stores to the slots leave the relocation directory alone. -/
theorem RelocationDirectory.kept (h : RelocationDirectory host m header base ds blocks)
    (hframe : ∀ k, base ≤ k → k < base + member m header sizeOfImage →
      (∀ d ∈ ds, k < d.slots base ∨ d.slots base + d.size host ≤ k) → m' k = m k) :
    ∀ k, base + member m header (relocVirtualAddress host) ≤ k →
      k < base + member m header (relocVirtualAddress host) + (totalSize blocks + typeOffset) →
        m' k = m k := by
  intro k hk hkn
  have hinside := h.inside
  unfold Within at hinside
  simp only at hinside
  apply hframe k (by omega) (by omega)
  intro d hd
  have hapart := h.slots d hd
  unfold Apart at hapart
  omega

/-- No addition is to the relocation directory. -/
theorem Mapped.additionsAvoid (h : Mapped host answers m header base ds blocks)
    (haddresses : base + member m header sizeOfImage < host.addresses) {start size : Nat}
    (hlow : base + member m header (relocVirtualAddress host) ≤ start)
    (hhigh : start + size ≤
      base + member m header (relocVirtualAddress host) + (totalSize blocks + typeOffset)) :
    AdditionsAvoid host start size (additions host base (delta host m header base) blocks) := by
  intro a ha
  obtain ⟨hwithin, hapart, -⟩ := h.targets a ha
  unfold Within at hwithin
  simp only at hwithin
  unfold Apart at hapart ⊢
  exact ⟨by omega, by omega⟩

/-- Step 5 makes its additions to an image whose slots are bound. -/
theorem relocate_run (h : Mapped host answers m header base ds blocks)
    (haddresses : base + member m header sizeOfImage < host.addresses)
    (hheader : ∀ field ∈ [imageBase host, relocSize host, relocVirtualAddress host],
      member m' header field = member m header field)
    (hframe : ∀ k, base ≤ k → k < base + member m header sizeOfImage →
      (∀ d ∈ ds, k < d.slots base ∨ d.slots base + d.size host ≤ k) → m' k = m k)
    {fuel : Nat} (hfuel : blocks.length < fuel) :
    relocate host header base fuel m' =
      some (addAll m' (additions host base (delta host m header base) blocks)) := by
  have hdelta : delta host m' header base = delta host m header base := by
    rw [delta, hheader _ (by simp)]
    rfl
  rw [relocate, hdelta, hheader _ (by simp), hheader _ (by simp)]
  split
  · rename_i hsize
    have hdirectory := h.directory hsize
    have hkept := hdirectory.kept hframe
    have hinside := hdirectory.inside
    unfold Within at hinside
    simp only [typeOffset] at hinside
    rw [offset_eq (by omega)]
    apply processBlocks_run
    · apply blocksAt_eq h.tiled
      intro j hj
      exact (hkept _ (by omega) (by omega)).symm
    · rw [← hdirectory.stop]
      apply readLE_congr
      intro k hk hkn
      simp only [sizeOfBlock] at hk hkn
      exact hkept k (by omega) (by rw [typeOffset]; omega)
    · omega
    · exact h.additionsAvoid haddresses (Nat.le_refl _) (by omega)
    · apply h.additionsAvoid haddresses
      · omega
      · simp only [sizeOfBlock, typeOffset]
        omega
    · exact hfuel
  · rename_i hempty
    have hnone : blocks = [] := by
      have hlength := length_le_totalSize blocks
      rw [h.total, not_not.mp hempty] at hlength
      exact List.eq_nil_of_length_eq_zero (Nat.le_zero.mp hlength)
    rw [hnone]
    rfl

end Run

/-- The image when its entry point is called: the slots are bound, the additions are made, and
every other byte is that of the mapped image. -/
structure Ready (host : Host) (answers : Answers) (image mapped m : Bytes) (base size : Nat)
    (ds : List Import) (as : List Addition) : Prop where
  slots : AllBound host answers m base ds
  fixups : ∀ a ∈ as, readLE m a.address a.width =
    (readLE mapped a.address a.width + a.addend) % 256 ^ a.width
  rest : ∀ k < size,
    (∀ d ∈ ds, base + k < d.slots base ∨ d.slots base + d.size host ≤ base + k) →
      (∀ a ∈ as, base + k < a.address ∨ a.address + a.width ≤ base + k) → m (base + k) = image k

theorem ready_addAll {host : Host} {answers : Answers} {image mapped m : Bytes} {base size : Nat}
    {ds : List Import} {as : List Addition} (hbound : AllBound host answers m base ds)
    (hframe : ∀ k, base ≤ k → k < base + size →
      (∀ d ∈ ds, k < d.slots base ∨ d.slots base + d.size host ≤ k) → m k = mapped k)
    (himage : ∀ k < size, mapped (base + k) = image k) (hdisjoint : as.Pairwise Addition.Apart)
    (htargets : ∀ a ∈ as, Within base size (a.address, a.width) ∧
      ∀ d ∈ ds, Apart a.address a.width (d.slots base) (d.size host)) :
    Ready host answers image mapped (addAll m as) base size ds as where
  slots := by
    intro d hd
    apply boundAt_congr (hbound d hd)
    intro k hk hkn
    apply addAll_outside
    intro a ha
    have hapart := (htargets a ha).2 d hd
    unfold Apart at hapart
    rw [Import.size] at hapart
    omega
  fixups := by
    intro a ha
    obtain ⟨hwithin, hapart⟩ := htargets a ha
    have hread : readLE m a.address a.width = readLE mapped a.address a.width := by
      apply readLE_congr
      intro k hk hkn
      unfold Within at hwithin
      simp only at hwithin
      apply hframe k (by omega) (by omega)
      intro d hd
      have hd := hapart d hd
      unfold Apart at hd
      omega
    rw [addAll_inside hdisjoint ha, hread]
  rest := by
    intro k hk hslots has
    rw [addAll_outside has, hframe _ (Nat.le_add_right _ _) (by omega) hslots, himage k hk]

/-- The allocation for the image: zeros at `base`, apart from the buffer, and nothing else. -/
structure Allocated (host : Host) (functions : Functions) (pointers : Pointers) (m : Bytes)
    (buffer length base size : Nat) : Prop where
  answer : (functions.virtualAlloc (pointers .virtualAlloc) size m).1 = base
  notNull : 0 < base
  fits : base + size < host.addresses
  apart : Apart buffer length base size
  zero : ∀ k < size, (functions.virtualAlloc (pointers .virtualAlloc) size m).2 (base + k) = 0
  rest : ∀ a, a < base ∨ base + size ≤ a →
    (functions.virtualAlloc (pointers .virtualAlloc) size m).2 a = m a

/-- The memory with the image of the buffer at `base`. -/
def mappedMemory (host : Host) (m : Bytes) (buffer base : Nat) (sections : List Section) : Bytes :=
  blit m base (imageBytes host m buffer sections) 0
    (member m (ntHeaders host m buffer) sizeOfImage)

theorem mappedMemory_buffer {host : Host} {m : Bytes} {buffer length base : Nat}
    {sections : List Section}
    (hapart : Apart buffer length base (member m (ntHeaders host m buffer) sizeOfImage)) :
    ∀ k < length, mappedMemory host m buffer base sections (buffer + k) = m (buffer + k) := by
  intro k hk
  unfold Apart at hapart
  exact blit_outside m (by omega)

section Image

variable {host : Host} {functions : Functions} {pointers : Pointers} {answers : Answers}
variable {World : List Nat → Bytes → Prop} {m : Bytes} {buffer length base : Nat}
variable {sections : List Section} {ds : List Import} {blocks : List Block}
variable (h : ImageBuffer host m buffer length sections)
variable (hallocated : Allocated host functions pointers m buffer length base
  (member m (ntHeaders host m buffer) sizeOfImage))
include h hallocated

/-- The image is mapped, and the rest of the memory is as it was. -/
theorem mapImage_allocated :
    mapImage host buffer (ntHeaders host m buffer) base
      (functions.virtualAlloc (pointers .virtualAlloc)
        (member m (ntHeaders host m buffer) sizeOfImage) m).2 =
      mappedMemory host m buffer base sections := by
  let m₁ := (functions.virtualAlloc (pointers .virtualAlloc)
    (member m (ntHeaders host m buffer) sizeOfImage) m).2
  have hapart := hallocated.apart
  have hsame : ∀ k < length, m₁ (buffer + k) = m (buffer + k) := by
    intro k hk
    unfold Apart at hapart
    exact hallocated.rest _ (by omega)
  have h₁ : ImageBuffer host m₁ buffer length sections := h.congr hsame
  have hnt : ntHeaders host m₁ buffer = ntHeaders host m buffer := h.ntHeaders_congr hsame
  have hsize : member m₁ (ntHeaders host m₁ buffer) sizeOfImage =
      member m (ntHeaders host m buffer) sizeOfImage := by
    rw [hnt]
    exact h.member_eq hsame (ntMembers_inside host _ (by simp [ntMembers]))
  obtain ⟨hinside, houtside⟩ := h₁.maps (hsize ▸ hapart) (hsize ▸ hallocated.fits)
    (hsize ▸ hallocated.zero)
  rw [hsize, hnt] at hinside houtside
  funext a
  by_cases ha : base ≤ a ∧ a < base + member m (ntHeaders host m buffer) sizeOfImage
  · obtain ⟨k, rfl⟩ := Nat.exists_eq_add_of_le ha.1
    rw [mappedMemory, blit_inside m ha.1 ha.2, Nat.add_sub_cancel_left, Nat.add_zero]
    exact (hinside k (by omega)).trans (h.imageBytes_congr hsame k)
  · rw [mappedMemory, blit_outside m (by omega)]
    exact (houtside a (by omega)).trans (hallocated.rest a (by omega))

theorem loadImage_run
    (hserves : Serves host functions pointers base (member m (ntHeaders host m buffer) sizeOfImage)
      answers World)
    (hworld : World [] m)
    (hbuffer : ∀ modules m', World modules m' → ∀ k < length, m' (buffer + k) = m (buffer + k))
    (hmapped : Mapped host answers (mappedMemory host m buffer base sections)
      (ntHeaders host m buffer) base ds blocks)
    {fuel : Nat} (hfuel : ds.length + blocks.length < fuel)
    (hthunks : ∀ d ∈ ds, ds.length + d.thunks.length < fuel) :
    ∃ s modules, loadImage host functions pointers buffer fuel ⟨m, []⟩ = some (base, s) ∧
      World modules s.bytes ∧
      Ready host answers (imageBytes host m buffer sections)
        (mappedMemory host m buffer base sections) s.bytes base
        (member m (ntHeaders host m buffer) sizeOfImage) ds
        (additions host base (delta host m (ntHeaders host m buffer) base) blocks) ∧
      s.calls = .virtualAlloc (pointers .virtualAlloc)
          (member m (ntHeaders host m buffer) sizeOfImage) ::
        importCalls host pointers answers base ds ++
          [.ntFlushInstructionCache (pointers .ntFlushInstructionCache),
            .entryPoint (host.offset base
              (member m (ntHeaders host m buffer) addressOfEntryPoint)) base] := by
  have himage : ∀ k < member m (ntHeaders host m buffer) sizeOfImage,
      mappedMemory host m buffer base sections (base + k) = imageBytes host m buffer sections k := by
    intro k hk
    rw [mappedMemory, blit_inside m (Nat.le_add_right _ _) (by omega), Nat.add_sub_cancel_left,
      Nat.add_zero]
  have houtside : ∀ a, a < base ∨ base + member m (ntHeaders host m buffer) sizeOfImage ≤ a →
      mappedMemory host m buffer base sections a = m a := fun a ha => blit_outside m ha
  have hkept : ∀ k < length, mappedMemory host m buffer base sections (buffer + k) =
      m (buffer + k) := mappedMemory_buffer hallocated.apart
  have hvalue : ∀ field : Field, field.offset + field.size ≤ sizeOfNtHeaders host →
      member (mappedMemory host m buffer base sections) (ntHeaders host m buffer) field =
        member m (ntHeaders host m buffer) field :=
    fun field hfield => h.member_eq hkept hfield
  have hsize := hvalue sizeOfImage (ntMembers_inside host _ (by simp [ntMembers]))
  have hdelta : delta host (mappedMemory host m buffer base sections)
      (ntHeaders host m buffer) base = delta host m (ntHeaders host m buffer) base := by
    rw [delta, hvalue _ (imageBase_inside host), delta]
  have himports := hmapped.imports
  have htargets := hmapped.targets
  have hdisjoint := hmapped.disjoint
  rw [hsize] at himports
  rw [hsize, hdelta] at htargets
  rw [hdelta] at hdisjoint
  have hfits := hallocated.fits
  obtain ⟨s₁, modules, hbind, hworld₁, hbound, hframe, hcalls⟩ :=
    bindImports_run (s := ⟨mappedMemory host m buffer base sections,
      [.virtualAlloc (pointers .virtualAlloc)
        (member m (ntHeaders host m buffer) sizeOfImage)]⟩) hserves
      (hserves.outside hworld houtside) hallocated.notNull hfits himports
      (by omega : ds.length < fuel) hthunks
  -- the buffer is still there, so step 5 reads the headers as they were
  have hkept₁ := hbuffer modules s₁.bytes hworld₁
  have hvalue₁ : ∀ field : Field, field.offset + field.size ≤ sizeOfNtHeaders host →
      member s₁.bytes (ntHeaders host m buffer) field =
        member (mappedMemory host m buffer base sections)
          (ntHeaders host m buffer) field :=
    fun field hfield => (h.member_eq hkept₁ hfield).trans (hvalue field hfield).symm
  have hrelocate : relocate host (ntHeaders host m buffer) base fuel s₁.bytes =
      some (addAll s₁.bytes
        (additions host base (delta host m (ntHeaders host m buffer) base) blocks)) := by
    rw [← hdelta]
    apply relocate_run hmapped
    · rw [hsize]
      exact hfits
    · intro field hfield
      apply hvalue₁
      simp only [List.mem_cons, List.not_mem_nil, or_false] at hfield
      rcases hfield with rfl | rfl | rfl
      · exact imageBase_inside host
      · exact ntMembers_inside host _ (by simp [ntMembers])
      · exact ntMembers_inside host _ (by simp [ntMembers])
    · rw [hsize]
      exact hframe
    · omega
  have hworld₂ : World modules (addAll s₁.bytes
      (additions host base (delta host m (ntHeaders host m buffer) base) blocks)) := by
    apply hserves.outside hworld₁
    intro a ha
    apply addAll_outside
    intro x hx
    have hwithin := (htargets x hx).1
    unfold Within at hwithin
    simp only at hwithin
    omega
  have hentry : member (addAll s₁.bytes
      (additions host base (delta host m (ntHeaders host m buffer) base) blocks))
        (ntHeaders host m buffer) addressOfEntryPoint =
      member m (ntHeaders host m buffer) addressOfEntryPoint :=
    h.member_eq (hbuffer modules _ hworld₂) (by cases host <;> decide)
  have hplace : host.offset base (member (mappedMemory host m buffer base sections)
      (ntHeaders host m buffer) (directoryAddress host imageDirectoryEntryImport)) =
        base + member (mappedMemory host m buffer base sections)
          (ntHeaders host m buffer) (directoryAddress host imageDirectoryEntryImport) := by
    have htable := himports.table
    unfold Within at htable
    simp only [sizeOfImportDescriptor] at htable
    exact offset_eq (by omega)
  refine ⟨⟨addAll s₁.bytes (additions host base
      (delta host m (ntHeaders host m buffer) base) blocks), s₁.calls ++
    [.ntFlushInstructionCache (pointers .ntFlushInstructionCache), .entryPoint (host.offset base
      (member m (ntHeaders host m buffer) addressOfEntryPoint)) base]⟩, modules, ?_, hworld₂, ?_, ?_⟩
  · rw [loadImage]
    simp only [Process.virtualAlloc, hallocated.answer, List.nil_append]
    rw [mapImage_allocated h hallocated, hplace, hbind]
    simp only [hrelocate, hentry]
  · exact ready_addAll hbound hframe himage hdisjoint
      fun a ha => ⟨(htargets a ha).1, (htargets a ha).2.2⟩
  · simp only [hcalls]
    rfl

end Image

theorem exists_thunksFuel (ds : List Import) :
    ∃ n, ∀ fuel, n ≤ fuel → ∀ d ∈ ds, ds.length + d.thunks.length < fuel := by
  let lengths := ds.map fun d => d.thunks.length
  refine ⟨ds.length + lengths.max?.getD 0 + 1, fun fuel hfuel d hd => ?_⟩
  have hmem : d.thunks.length ∈ lengths := List.mem_map_of_mem (f := fun d => d.thunks.length) hd
  have hle : d.thunks.length ≤ lengths.max?.getD 0 := List.le_max?_getD_of_mem hmem
  omega

/-- `ReflectiveLoader` on an image in a buffer: it finds its functions, maps, binds and
relocates the image, and calls the entry point last. -/
theorem reflectiveLoader_runs (host : Host) (functions : Functions) (answers : Answers)
    (World : List Nat → Bytes → Prop) (m : Bytes) (peb buffer length base : Nat)
    (pointers : Pointers) (entries : List Nat) (sections : List Section) (ds : List Import)
    (blocks : List Block) (hexporters : Exporters host m pointers entries)
    (hring : ModuleRing host m peb entries) (hboth : HasBoth host m entries)
    (h : ImageBuffer host m buffer length sections)
    (hallocated : Allocated host functions pointers m buffer length base
      (member m (ntHeaders host m buffer) sizeOfImage))
    (hserves : Serves host functions pointers base (member m (ntHeaders host m buffer) sizeOfImage)
      answers World)
    (hworld : World [] m)
    (hbuffer : ∀ modules m', World modules m' → ∀ k < length, m' (buffer + k) = m (buffer + k))
    (hmapped : Mapped host answers (mappedMemory host m buffer base sections)
      (ntHeaders host m buffer) base ds blocks) :
    ∃ n, ∀ fuel, n ≤ fuel → ∃ s modules,
      reflectiveLoader host functions peb buffer fuel m = some (base, s) ∧
      World modules s.bytes ∧
      Ready host answers (imageBytes host m buffer sections)
        (mappedMemory host m buffer base sections) s.bytes base
        (member m (ntHeaders host m buffer) sizeOfImage) ds
        (additions host base (delta host m (ntHeaders host m buffer) base) blocks) ∧
      s.calls = .virtualAlloc (pointers .virtualAlloc)
          (member m (ntHeaders host m buffer) sizeOfImage) ::
        importCalls host pointers answers base ds ++
          [.ntFlushInstructionCache (pointers .ntFlushInstructionCache),
            .entryPoint (host.offset base
              (member m (ntHeaders host m buffer) addressOfEntryPoint)) base] := by
  obtain ⟨n, hn⟩ := findFunctions_finds hexporters hring hboth
  obtain ⟨n', hn'⟩ := exists_thunksFuel ds
  refine ⟨max n (ds.length + blocks.length + n' + 1), fun fuel hfuel => ?_⟩
  have hlengths : ds.length + blocks.length < fuel := by omega
  obtain ⟨s, modules, hrun, hrest⟩ :=
    loadImage_run h hallocated hserves hworld hbuffer hmapped hlengths (hn' fuel (by omega))
  refine ⟨s, modules, ?_, hrest⟩
  rw [reflectiveLoader, hn fuel (by omega)]
  exact hrun

def sampleImports : List Import :=
  [⟨0x1130, 0x1150, 0x1140, "k.dll".toUTF8.toList,
    [⟨0x80000002, 0x80000002, []⟩, ⟨0x1160, 0x1160, "Sleep".toUTF8.toList⟩]⟩]

def sampleBlocks : List Block := [⟨0x1000, [0x3000, 0]⟩]

/-- `VirtualAlloc` gives `0x50000`; `k.dll` is at `0x10000`. -/
def sampleFunctions : Functions where
  virtualAlloc := fun _ _ m => (0x50000, m)
  loadLibraryA := fun _ p m => (if StringAt m p "k.dll".toUTF8.toList then 0x10000 else 0, m)
  getProcAddress := fun _ hModule p m =>
    (if hModule = 0x10000 ∧ StringAt m p "Sleep".toUTF8.toList then 0x11111 else 0, m)

def sampleAnswers : Answers where
  handle := fun name => if name = "k.dll".toUTF8.toList then 0x10000 else 0
  exported := fun handle ordinal =>
    if handle = 0x10000 ∧ ordinal = 2 then some 0x13333 else none
  procedure := fun handle name =>
    if handle = 0x10000 ∧ name = "Sleep".toUTF8.toList then 0x11111 else 0

/-- Nothing outside of the image is changed. -/
def SampleWorld (_ : List Nat) (m : Bytes) : Prop :=
  ∀ a, a < 0x50000 ∨ 0x52000 ≤ a → m a = sampleProcess a

theorem sample_functionByOrdinal {m : Bytes} {ordinal : Nat} (hm : SampleWorld [] m)
    (hordinal : ordinal % 0x10000 = 2) :
    functionByOrdinal .i386 m 0x10000 ordinal = 0x13333 := by
  have hread : ∀ a n value, a + n ≤ 0x50000 → readLE sampleProcess a n = value →
      readLE m a n = value := by
    intro a n value ha hvalue
    rw [← hvalue]
    exact readLE_congr fun k hk hkn => hm k (by omega)
  have hheaders : ntHeaders .i386 m 0x10000 = 0x10040 := by
    rw [ntHeaders, member, hread _ _ 0x40 (by decide) (by decide +kernel)]
    decide
  have hdirectory : exportDirectory .i386 m 0x10000 = 0x10100 := by
    rw [exportDirectory, hheaders, member, hread _ _ 0x100 (by decide) (by decide +kernel)]
    decide
  have hbase : member m 0x10100 exportBase = 0 := hread _ _ 0 (by decide) (by decide +kernel)
  have hfunctions : member m 0x10100 addressOfFunctions = 0x200 :=
    hread _ _ 0x200 (by decide) (by decide +kernel)
  have hfunction : readLE m 0x10208 4 = 0x3333 := hread _ _ _ (by decide) (by decide +kernel)
  rw [functionByOrdinal, functionAddress]
  simp only [hordinal, hdirectory, hbase, hfunctions]
  exact congrArg (Host.offset .i386 0x10000) hfunction

theorem sample_serves :
    Serves .i386 sampleFunctions sampleAddress 0x50000 0x2000 sampleAnswers SampleWorld where
  outside := fun hm hsame a ha => (hsame a ha).trans (hm a ha)
  loadLibraryA := by
    intro modules m p name hm hname
    refine ⟨?_, hm⟩
    apply if_congr _ rfl rfl
    exact ⟨fun h => stringAt_unique hname h, fun h => h ▸ hname⟩
  loadLibraryA_keeps := fun _ _ _ _ _ => rfl
  getProcAddress := by
    intro modules m handle p name hm _ hname
    refine ⟨?_, hm⟩
    apply if_congr _ rfl rfl
    apply and_congr_right
    exact fun _ => ⟨fun h => stringAt_unique hname h, fun h => h ▸ hname⟩
  getProcAddress_keeps := fun _ _ _ _ _ _ => rfl
  exported := by
    intro modules m handle ordinal address hm _ hexported
    change (if _ then _ else _) = _ at hexported
    split at hexported
    · rename_i hsample
      cases hexported
      rw [hsample.1]
      exact sample_functionByOrdinal hm hsample.2
    · cases hexported

theorem sample_buffer : ImageBuffer .i386 sampleProcess 0x40000 0x3a0 sampleSections := by
  constructor <;> decide +kernel

theorem sample_above {a : Nat} (ha : 0x50000 ≤ a) : sampleProcess a = 0 := by
  have hnames : ∀ (names : List (Nat × List UInt8)) (m : Bytes),
      (∀ name ∈ names, name.1 + name.2.length ≤ 0x50000) →
        names.foldl (fun m name => blit m name.1 (fun k => name.2.getD k 0) 0 name.2.length) m a =
          m a := by
    intro names
    induction names with
    | nil => exact fun _ _ => rfl
    | cons name names ih =>
      intro m hbelow
      have hfirst := hbelow name List.mem_cons_self
      rw [List.foldl_cons, ih _ fun w hw => hbelow w (List.mem_cons_of_mem name hw)]
      exact blit_outside m (by omega)
  have hbelow : ∀ word ∈ moduleWords ++ imageWords, word.1 + word.2.1 ≤ 0x50000 := by
    decide +kernel
  rw [sampleProcess, hnames _ _ (by decide +kernel)]
  exact storeWords_outside fun word hword => Or.inr (Nat.le_trans (hbelow word hword) ha)

theorem sample_allocated :
    Allocated .i386 sampleFunctions sampleAddress sampleProcess 0x40000 0x3a0 0x50000 0x2000 where
  answer := rfl
  notNull := by decide
  fits := by decide
  apart := by decide
  zero := fun k _ => sample_above (Nat.le_add_right 0x50000 k)
  rest := fun _ _ => rfl

theorem sample_directory :
    DirectoryAt .i386 (mappedMemory .i386 sampleProcess 0x40000 0x50000 sampleSections) 0x50000
      0x51100 sampleImports := by
  have hstop : member (mappedMemory .i386 sampleProcess 0x40000 0x50000 sampleSections) 0x51114
      descriptorName = 0 := by decide +kernel
  refine ⟨?_, hstop⟩
  constructor <;> decide +kernel

theorem sample_separate : Separate .i386 0x50000 0x51100 sampleImports := by
  refine ⟨?_, ?_, ?_, ?_, trivial⟩ <;> decide +kernel

theorem sample_mapped :
    Mapped .i386 sampleAnswers (mappedMemory .i386 sampleProcess 0x40000 0x50000 sampleSections)
      (ntHeaders .i386 sampleProcess 0x40000) 0x50000 sampleImports sampleBlocks where
  imports := by
    have hplace : 0x50000 + member (mappedMemory .i386 sampleProcess 0x40000 0x50000 sampleSections)
        (ntHeaders .i386 sampleProcess 0x40000)
        (directoryAddress .i386 imageDirectoryEntryImport) = 0x51100 := by decide +kernel
    rw [hplace]
    exact ⟨sample_directory, sample_separate, by decide +kernel, by decide +kernel,
      by decide +kernel⟩
  tiled := by decide +kernel
  total := by decide +kernel
  directory := fun _ => ⟨by decide +kernel, by decide +kernel, by decide +kernel⟩
  disjoint := by decide +kernel
  targets := by decide +kernel

theorem reflectiveLoader_runs_sample :
    ∃ n, ∀ fuel, n ≤ fuel → ∃ s modules,
      reflectiveLoader .i386 sampleFunctions 0x100 0x40000 fuel sampleProcess =
        some (0x50000, s) ∧
      SampleWorld modules s.bytes ∧
      Ready .i386 sampleAnswers (imageBytes .i386 sampleProcess 0x40000 sampleSections)
        (mappedMemory .i386 sampleProcess 0x40000 0x50000 sampleSections) s.bytes 0x50000
        (member sampleProcess (ntHeaders .i386 sampleProcess 0x40000) sizeOfImage) sampleImports
        (additions .i386 0x50000
          (delta .i386 sampleProcess (ntHeaders .i386 sampleProcess 0x40000) 0x50000)
          sampleBlocks) ∧
      s.calls = .virtualAlloc (sampleAddress .virtualAlloc)
          (member sampleProcess (ntHeaders .i386 sampleProcess 0x40000) sizeOfImage) ::
        importCalls .i386 sampleAddress sampleAnswers 0x50000 sampleImports ++
          [.ntFlushInstructionCache (sampleAddress .ntFlushInstructionCache),
            .entryPoint (Host.offset .i386 0x50000 (member sampleProcess
              (ntHeaders .i386 sampleProcess 0x40000) addressOfEntryPoint)) 0x50000] := by
  have hsize : member sampleProcess (ntHeaders .i386 sampleProcess 0x40000) sizeOfImage =
      0x2000 := by decide +kernel
  apply reflectiveLoader_runs .i386 sampleFunctions sampleAnswers SampleWorld sampleProcess 0x100
    0x40000 0x3a0 0x50000 sampleAddress [0x300, 0x400, 0x214] sampleSections sampleImports
    sampleBlocks sample_exporters sample_ring (by decide +kernel) sample_buffer
  · rw [hsize]
    exact sample_allocated
  · rw [hsize]
    exact sample_serves
  · exact fun _ _ => rfl
  · exact fun modules m' hm k hk => hm (0x40000 + k) (Or.inl (by omega))
  · exact sample_mapped

end WinPolyfillLoader.ReflectiveLoader
