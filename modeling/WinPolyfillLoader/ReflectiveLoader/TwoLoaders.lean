import WinPolyfillLoader.MemoryModule.ReflectiveRelocation
import WinPolyfillLoader.ReflectiveLoader.Run

/-!
`MemoryLoadLibrary` and `ReflectiveLoader` on the same image. The one writes the base into the
headers and leaves the imports to its caller, the other binds them and makes the fixups of 16
bits, too; everything else is the same.
-/

namespace WinPolyfillLoader.ReflectiveLoader

open ByteMemory MemoryModule

/-- A DLL image in a buffer of `length` bytes that both loaders read, with the raw data of its
sections. -/
structure CommonImage (c : Caller) (m : Bytes) (length : Nat) (sections : List Section) :
    Prop where
  dll : DllImage c sections
  same : ∀ k < length, m (c.data + k) = c.source (c.data + k)
  fits : c.data + length < c.host.addresses
  headers : c.member sizeOfHeaders ≤ length
  rawData : ∀ x ∈ sections, x.pointerToRawData + x.sizeOfRawData ≤ length

variable {c : Caller} {m : Bytes} {length base : Nat} {sections : List Section}

section Common

variable (h : CommonImage c m length sections)
include h

theorem CommonImage.lfanew_eq : member m c.data eLfanew = c.lfanew := by
  have hdos := h.dll.dosHeader
  have hheaders := h.headers
  rw [sizeOfDosHeader] at hdos
  apply readLE_eq
  intro j hj
  simp only [eLfanew] at hj ⊢
  rw [Nat.add_assoc]
  exact h.same _ (by omega)

theorem CommonImage.ntHeaders_eq : ntHeaders c.host m c.data = c.oldHeader := by
  rw [ntHeaders, h.lfanew_eq]
  rfl

theorem CommonImage.member_eq {field : Field}
    (hfield : field.offset + field.size ≤ sizeOfNtHeaders c.host) :
    member m (ntHeaders c.host m c.data) field = c.member field := by
  have hnt := h.dll.ntHeaders
  have hheaders := h.headers
  rw [h.ntHeaders_eq, member, Caller.member, oldHeader_eq h.dll]
  apply readLE_eq
  intro j hj
  rw [Nat.add_assoc, Nat.add_assoc]
  exact h.same _ (by omega)

theorem CommonImage.pieces_eq :
    bufferPieces c.host m c.data sections = pieces (c.member sizeOfHeaders) sections := by
  rw [bufferPieces, h.member_eq (ntMembers_inside c.host _ (by simp [ntMembers]))]

/-- The checks of the one loader are what the other one takes for granted. -/
theorem CommonImage.buffer : ImageBuffer c.host m c.data length sections := by
  have hlfanew := h.lfanew_eq
  have hnt := h.dll.ntHeaders
  have htable := h.dll.table
  have hheaders := h.headers
  have hmember : ∀ field ∈ ntMembers c.host,
      member m (ntHeaders c.host m c.data) field = c.member field :=
    fun field hfield => h.member_eq (ntMembers_inside c.host field hfield)
  have hoffset : tableOffset c.host m c.data = c.tableOffset := by
    rw [tableOffset, hlfanew, hmember _ (by simp [ntMembers]), Caller.tableOffset]
  constructor
  · exact h.fits
  · rw [hlfanew]
    exact h.dll.lfanew
  · rw [hlfanew]
    omega
  · rw [hoffset]
    omega
  · rw [hmember _ (by simp [ntMembers])]
    exact h.dll.count
  · rw [hoffset]
    apply sectionsAt_eq h.dll.sectionTable
    intro j hj
    rw [Nat.add_assoc]
    exact (h.same _ (by omega)).symm
  · rw [h.pieces_eq, pieces, List.forall_mem_cons, List.forall_mem_map]
    exact ⟨by simpa using hheaders, h.rawData⟩
  · rw [h.pieces_eq, hmember _ (by simp [ntMembers]), pieces, List.forall_mem_cons,
      List.forall_mem_map]
    refine ⟨by simpa using h.dll.headers, fun x hx => ?_⟩
    have hfits := h.dll.fits x hx
    have hinside := hfits.inside
    have hraw := hfits.rawData
    simp only
    omega

theorem CommonImage.imageBytes_eq {k : Nat}
    (hk : k < c.lfanew + (imageBase c.host).offset ∨
      c.lfanew + (imageBase c.host).offset + (imageBase c.host).size ≤ k) :
    imageBytes c.host m c.data sections k = mappedImage c base sections k := by
  have hlength := h.headers
  have hsection : ∀ {x : Section}, x ∈ sections → x.virtualAddress ≤ k →
      k < x.virtualAddress + x.sizeOfRawData → lastCovering (bufferPieces c.host m c.data sections)
        k = some ⟨x.virtualAddress, x.pointerToRawData, x.sizeOfRawData⟩ := by
    intro x hx hlow hhigh
    have hbehind := (h.dll.fits x hx).behind
    rw [h.pieces_eq]
    apply lastCovering_only
    · exact List.mem_cons_of_mem _ (List.mem_map_of_mem (f := fun x : Section =>
        (⟨x.virtualAddress, x.pointerToRawData, x.sizeOfRawData⟩ : Copy)) hx)
    · exact covers_iff.mpr ⟨hlow, hhigh⟩
    · rw [pieces, List.forall_mem_cons, List.forall_mem_map]
      refine ⟨fun hcovers => ?_, fun y hy hcovers => ?_⟩
      · have hheader := covers_iff.mp hcovers
        simp only at hheader
        omega
      · by_cases hsame : y = x
        · rw [hsame]
        · have hsymmetric : Std.Symm RawApart := ⟨fun _ _ hxy => Or.symm hxy⟩
          have hapart : RawApart y x := h.dll.apart.forall hy hx hsame
          have hboth := covers_iff.mp hcovers
          unfold RawApart Apart at hapart
          simp only at hboth
          omega
  rw [imageBytes, copyAll_byte, mappedImage]
  split
  · rename_i hheader
    have hfirst : lastCovering (bufferPieces c.host m c.data sections) k =
        some ⟨0, 0, c.member sizeOfHeaders⟩ := by
      rw [h.pieces_eq, pieces]
      apply lastCovering_only List.mem_cons_self
      · exact covers_iff.mpr ⟨Nat.zero_le k, by simpa using hheader⟩
      · rw [List.forall_mem_cons, List.forall_mem_map]
        refine ⟨fun _ => rfl, fun y hy hcovers => ?_⟩
        have hbehind := (h.dll.fits y hy).behind
        have hsection := covers_iff.mp hcovers
        simp only at hsection
        omega
    rw [hfirst, mappedHeaders, writeLE_outside _ hk]
    exact h.same k (by omega)
  · rename_i hbody
    split
    · rename_i x hfound
      have hx := List.mem_of_find?_eq_some hfound
      have hcovers := List.find?_some hfound
      rw [decide_eq_true_eq] at hcovers
      have hraw := h.rawData x hx
      have hfits := h.fits
      have hplace : c.host.offset c.data x.pointerToRawData = c.data + x.pointerToRawData :=
        offset_eq (by omega)
      have hbyte : k - x.virtualAddress + (c.data + x.pointerToRawData) =
          c.data + (k - x.virtualAddress + x.pointerToRawData) := by omega
      rw [hsection hx hcovers.1 hcovers.2, hplace, hbyte]
      exact h.same (k - x.virtualAddress + x.pointerToRawData) (by omega)
    · rename_i hnone
      have hnothing : lastCovering (bufferPieces c.host m c.data sections) k = none := by
        rw [lastCovering, List.find?_eq_none, h.pieces_eq]
        intro x hx hcovers
        have hboth := covers_iff.mp hcovers
        rcases List.mem_cons.mp (List.mem_reverse.mp hx) with rfl | hx
        · simp only at hboth
          omega
        · obtain ⟨y, hy, rfl⟩ := List.mem_map.mp hx
          exact (List.find?_eq_none.mp hnone y hy) (decide_eq_true hboth)
      rw [hnothing]
      rfl

theorem CommonImage.delta_eq (base : Nat) :
    delta c.host m (ntHeaders c.host m c.data) base = libraryDelta c base := by
  rw [delta, h.member_eq (imageBase_inside c.host)]
  rfl

theorem CommonImage.byte_eq {answers : Answers} {before left right : Bytes} {ds : List Import}
    {blocks : List Block} (hblocks : Relocations c base sections blocks)
    (htypes : ∀ b ∈ blocks, ∀ e ∈ b.entries, ListedType c.host (e / 0x1000))
    (hrebased : RebasedAt c base sections blocks before left)
    (hready : Ready c.host answers (imageBytes c.host m c.data sections)
      (mappedMemory c.host m c.data base sections) right base (c.member sizeOfImage) ds
      (additions c.host base (libraryDelta c base) blocks)) {k : Nat} (hk : k < c.member sizeOfImage)
    (hheader : k < c.lfanew + (imageBase c.host).offset ∨
      c.lfanew + (imageBase c.host).offset + (imageBase c.host).size ≤ k)
    (hslots : ∀ d ∈ ds, base + k < d.slots base ∨ d.slots base + d.size c.host ≤ base + k)
    (hnarrow : ∀ a ∈ additions c.host base (libraryDelta c base) blocks, wide a = false →
      base + k < a.address ∨ a.address + a.width ≤ base + k) :
    left (base + k) = right (base + k) := by
  have hsize : member m (ntHeaders c.host m c.data) sizeOfImage = c.member sizeOfImage :=
    h.member_eq (ntMembers_inside c.host _ (by simp [ntMembers]))
  have hwide : (additions c.host base (libraryDelta c base) blocks).filter wide =
      (fixups c.host blocks).map (Fixup.addition base (libraryDelta c base)) :=
    additions_wide (libraryDelta_lt c base) htypes
  by_cases hfixed : ∃ f ∈ fixups c.host blocks, f.target ≤ k ∧ k < f.target + f.width
  · obtain ⟨f, hf, hlow, hhigh⟩ := hfixed
    have hmade : f.addition base (libraryDelta c base) ∈
        additions c.host base (libraryDelta c base) blocks := by
      apply List.mem_of_mem_filter (p := wide)
      rw [hwide]
      exact List.mem_map_of_mem hf
    obtain ⟨hbehind, hinside⟩ := hblocks.behind f hf
    -- the field is behind the headers, so it is the same in both images
    have hfield : readLE (mappedMemory c.host m c.data base sections) (base + f.target) f.width =
        readLE (mappedImage c base sections) f.target f.width := by
      have hnt := h.dll.ntHeaders
      have himageBase := imageBase_inside c.host
      apply readLE_eq
      intro j hj
      rw [mappedMemory, hsize, blit_inside m (by omega) (by omega), Nat.add_assoc,
        Nat.add_sub_cancel_left, Nat.add_zero]
      exact h.imageBytes_eq (Or.inr (by omega))
    have hleft : readLE left (base + f.target) f.width = addDelta (libraryDelta c base) f.width
        (readLE (mappedImage c base sections) f.target f.width) := by
      have hvalue := hrebased.fixed f hf
      rw [← addDelta_bases _ (fixup_width_dvd hf) (imageBase_lt c)] at hvalue
      exact_mod_cast hvalue
    have hright := hready.fixups _ hmade
    simp only [Fixup.addition, hfield] at hright
    have hbytes := readLE_eq_iff.mp (hleft.trans hright.symm) (k - f.target) (by omega)
    rwa [Nat.add_assoc, Nat.add_sub_cancel' hlow] at hbytes
  · have haway : ∀ f ∈ fixups c.host blocks, k < f.target ∨ f.target + f.width ≤ k := by
      intro f hf
      by_contra hinside
      exact hfixed ⟨f, hf, by omega⟩
    have hadditions : ∀ a ∈ additions c.host base (libraryDelta c base) blocks,
        base + k < a.address ∨ a.address + a.width ≤ base + k := by
      intro a ha
      cases hkind : wide a with
      | false => exact hnarrow a ha hkind
      | true =>
        have hmem := List.mem_filter.mpr ⟨ha, hkind⟩
        rw [hwide] at hmem
        obtain ⟨f, hf, rfl⟩ := List.mem_map.mp hmem
        have := haway f hf
        simp only [Fixup.addition]
        omega
    rw [hrebased.inside k hk haway, ← h.imageBytes_eq hheader]
    exact (hready.rest k hk hslots hadditions).symm

end Common

/-- Where the system gives both the same base, the two loaders leave the same bytes there outside
of the `ImageBase` member, the slots of the imports and the fixups of 16 bits. -/
theorem loaders_agree (c : Caller) (s : Machine) (m : Bytes) (length : Nat)
    (sections : List Section) (blocks : List Block) (ds : List Import) (functions : Functions)
    (pointers : Pointers) (answers : Answers) (World : List Nat → Bytes → Prop)
    (h : CommonImage c m length sections) (halignment : 1 < c.member sectionAlignment)
    (honPage : ∀ x ∈ sections, x.OnPage)
    (hplaced : Placed c c.reservedBase (c.member sizeOfImage))
    (hblocks : Relocations c c.reservedBase sections blocks)
    (hzero : ∀ k < c.member sizeOfImage, s.bytes (c.reservedBase + k) = 0)
    (htypes : ∀ b ∈ blocks, ∀ e ∈ b.entries, ListedType c.host (e / 0x1000))
    (hallocated : Allocated c.host functions pointers m c.data length c.reservedBase
      (c.member sizeOfImage))
    (hserves : Serves c.host functions pointers c.reservedBase (c.member sizeOfImage) answers World)
    (hworld : World [] m)
    (hbuffer : ∀ modules m', World modules m' → ∀ k < length, m' (c.data + k) = m (c.data + k))
    (hmapped : Mapped c.host answers (mappedMemory c.host m c.data c.reservedBase sections)
      (ntHeaders c.host m c.data) c.reservedBase ds blocks) :
    ∃ n, ∀ fuel, n ≤ fuel → ∃ s' r,
      memoryLoadLibrary c fuel s = (some (statusSuccess, c.reservedBase), s') ∧
      loadImage c.host functions pointers c.data fuel ⟨m, []⟩ = some (c.reservedBase, r) ∧
      ∀ k < c.member sizeOfImage,
        (k < c.lfanew + (imageBase c.host).offset ∨
          c.lfanew + (imageBase c.host).offset + (imageBase c.host).size ≤ k) →
        (∀ d ∈ ds, c.reservedBase + k < d.slots c.reservedBase ∨
          d.slots c.reservedBase + d.size c.host ≤ c.reservedBase + k) →
        (∀ a ∈ additions c.host c.reservedBase (libraryDelta c c.reservedBase) blocks,
          wide a = false →
            c.reservedBase + k < a.address ∨ a.address + a.width ≤ c.reservedBase + k) →
        s'.bytes (c.reservedBase + k) = r.bytes (c.reservedBase + k) := by
  obtain ⟨n, hn⟩ := exists_thunksFuel ds
  refine ⟨max n (sections.length + totalSize blocks + ds.length + 1), fun fuel hfuel => ?_⟩
  have hsize : member m (ntHeaders c.host m c.data) sizeOfImage = c.member sizeOfImage :=
    h.member_eq (ntMembers_inside c.host _ (by simp [ntMembers]))
  have hlength := length_le_totalSize blocks
  obtain ⟨s', hrun, hrebased⟩ : ∃ s',
      memoryLoadLibrary c fuel s = (some (statusSuccess, c.reservedBase), s') ∧
        RebasedAt c c.reservedBase sections blocks s.bytes s'.bytes := by
    let s₀ : Machine := { s with trace := s.trace ++ checkTrace c }
    have hbase : (reserveImage c s₀).1 = c.reservedBase := reserveImage_fst s₀
    have hbytes : (reserveImage c s₀).2.bytes = s.bytes := reserveImage_bytes s₀
    rw [← hbytes] at hzero ⊢
    obtain ⟨s₁, hsections, himage⟩ := copySections_image h.dll hplaced honPage hzero
      (by omega : sections.length < fuel)
    obtain ⟨s', hrebase, hrebased⟩ := rebaseImage_run h.dll hplaced hblocks himage
      (by omega : totalSize blocks < fuel)
    refine ⟨s', ?_, hrebased⟩
    have hnull : c.reservedBase ≠ 0 := Nat.ne_of_gt hplaced.notNull
    simp only [memoryLoadLibrary, checkParameters_accepted (accepted_dllImage h.dll halignment)]
    rw [hbase, if_neg hnull, mapImage_eq]
    simp only [s₀] at hsections
    simp only [hsections, hrebase]
    rfl
  rw [← hsize] at hallocated hserves
  obtain ⟨r, modules, hload, -, hready, -⟩ := loadImage_run h.buffer hallocated hserves hworld
    hbuffer hmapped (by omega : ds.length + blocks.length < fuel) (hn fuel (by omega))
  rw [hsize, h.delta_eq] at hready
  exact ⟨s', r, hrun, hload, fun k hk => h.byte_eq hblocks htypes hrebased hready hk⟩

/-- A process without other modules, in which `VirtualAlloc` gives `0x10000`. -/
def lonelyFunctions : Functions where
  virtualAlloc := fun _ _ m => (0x10000, m)
  loadLibraryA := fun _ _ m => (0, m)
  getProcAddress := fun _ _ _ m => (0, m)

def noAnswers : Answers := ⟨fun _ => 0, fun _ _ => none, fun _ _ => 0⟩

/-- The image of the usual sample is not changed elsewhere. -/
def LonelyWorld (_ : List Nat) (m : Bytes) : Prop :=
  ∀ a, a < 0x10000 ∨ 0x13000 ≤ a → m a = (sampleCaller 0x1000 0x1000).source a

theorem lonely_serves : Serves .amd64 lonelyFunctions sampleAddress 0x10000 0x3000 noAnswers
    LonelyWorld where
  outside := fun hm hsame a ha => (hsame a ha).trans (hm a ha)
  loadLibraryA := fun hm _ => ⟨rfl, hm⟩
  loadLibraryA_keeps := fun _ _ _ _ _ => rfl
  getProcAddress := fun hm _ _ => ⟨rfl, hm⟩
  getProcAddress_keeps := fun _ _ _ _ _ _ => rfl
  exported := fun _ _ hexported => by cases hexported

theorem lonely_allocated : Allocated .amd64 lonelyFunctions sampleAddress
    (sampleCaller 0x1000 0x1000).source 0x700000 0x220 0x10000 0x3000 where
  answer := rfl
  notNull := by decide
  fits := by decide
  apart := by decide
  zero := by
    intro k hk
    let words := (sampleImage 0x1000 0x1000).map fun field => (0x700000 + field.1, field.2)
    have hsource : (sampleCaller 0x1000 0x1000).source = storeWords (fun _ => 0) words := by
      rw [storeWords, List.foldl_map]
      rfl
    have habove : ∀ word ∈ words, 0x13000 ≤ word.1 := by decide +kernel
    change (sampleCaller 0x1000 0x1000).source (0x10000 + k) = 0
    rw [hsource, storeWords_outside]
    intro word hword
    have := habove word hword
    omega
  rest := fun _ _ => rfl

theorem lonely_common : CommonImage (sampleCaller 0x1000 0x1000)
    (sampleCaller 0x1000 0x1000).source 0x220 (MemoryModule.sampleSections 0x1000) where
  dll := sample_dllImage (by decide)
  same := fun _ _ => rfl
  fits := by decide +kernel
  headers := by decide +kernel
  rawData := by decide +kernel

theorem lonely_mapped : Mapped .amd64 noAnswers
    (mappedMemory .amd64 (sampleCaller 0x1000 0x1000).source 0x700000 0x10000
      (MemoryModule.sampleSections 0x1000))
    (ntHeaders .amd64 (sampleCaller 0x1000 0x1000).source 0x700000) 0x10000 []
    (MemoryModule.sampleBlocks 0x1000) where
  imports := by
    refine ⟨?_, trivial, by decide +kernel, fun d hd => absurd hd List.not_mem_nil,
      fun d hd => absurd hd List.not_mem_nil⟩
    have hstop : member (mappedMemory .amd64 (sampleCaller 0x1000 0x1000).source 0x700000 0x10000
        (MemoryModule.sampleSections 0x1000)) 0x10000 descriptorName = 0 := by decide +kernel
    exact hstop
  tiled := by decide +kernel
  total := by decide +kernel
  directory := fun _ =>
    ⟨by decide +kernel, by decide +kernel, fun d hd => absurd hd List.not_mem_nil⟩
  disjoint := by decide +kernel
  targets := by decide +kernel

theorem loaders_agree_sample :
    ∃ n, ∀ fuel, n ≤ fuel → ∃ s' r,
      memoryLoadLibrary (sampleCaller 0x1000 0x1000) fuel blankMachine =
        (some (statusSuccess, 0x10000), s') ∧
      loadImage .amd64 lonelyFunctions sampleAddress 0x700000 fuel
        ⟨(sampleCaller 0x1000 0x1000).source, []⟩ = some (0x10000, r) ∧
      ∀ k < (sampleCaller 0x1000 0x1000).member sizeOfImage, (k < 0x70 ∨ 0x78 ≤ k) →
        (∀ d ∈ ([] : List Import), 0x10000 + k < d.slots 0x10000 ∨
          d.slots 0x10000 + d.size .amd64 ≤ 0x10000 + k) →
        (∀ a ∈ additions .amd64 0x10000 (libraryDelta (sampleCaller 0x1000 0x1000) 0x10000)
            (MemoryModule.sampleBlocks 0x1000), wide a = false →
          0x10000 + k < a.address ∨ a.address + a.width ≤ 0x10000 + k) →
        s'.bytes (0x10000 + k) = r.bytes (0x10000 + k) := by
  have hsample : (0x1000, 0x1000) ∈ samples := by decide
  have hsize : (sampleCaller 0x1000 0x1000).member sizeOfImage = 0x3000 := by decide +kernel
  apply loaders_agree (sampleCaller 0x1000 0x1000) blankMachine
    (sampleCaller 0x1000 0x1000).source 0x220 (MemoryModule.sampleSections 0x1000)
    (MemoryModule.sampleBlocks 0x1000) [] lonelyFunctions sampleAddress noAnswers LonelyWorld
    lonely_common (by decide +kernel) (by unfold Section.OnPage; decide)
    (sample_placed hsample) (sample_relocations hsample) (fun _ _ => rfl) (by decide +kernel)
  · rw [hsize]
    exact lonely_allocated
  · rw [hsize]
    exact lonely_serves
  · exact fun _ _ => rfl
  · exact fun _ m' hm k hk => hm (0x700000 + k) (Or.inr (by omega))
  · exact lonely_mapped

end WinPolyfillLoader.ReflectiveLoader
