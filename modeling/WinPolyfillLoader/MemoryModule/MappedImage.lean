import WinPolyfillLoader.MemoryModule.DllImage

/-!
What a run leaves in the memory: the image at the base with its fixups applied,
and every byte outside of the image as it was.
-/

namespace WinPolyfillLoader.MemoryModule

open ByteMemory

variable {c : Caller} {s : Machine} {base : Nat} {sections : List Section} {blocks : List Block}

/-- The copied headers are the headers of the buffer with the base in them. -/
theorem copyHeaders_inside (h : DllImage c sections)
    (hplaced : Placed c base (c.member sizeOfImage)) {k : Nat} (hk : k < c.member sizeOfHeaders) :
    (copyHeaders c base s).bytes (base + k) = mappedHeaders c base k := by
  simp only [copyHeaders, Machine.write, Machine.copy, newHeader_eq h hplaced, mappedHeaders]
  by_cases hfield : c.lfanew + (imageBase c.host).offset ≤ k ∧
      k < c.lfanew + (imageBase c.host).offset + (imageBase c.host).size
  · obtain ⟨hlow, hhigh⟩ := hfield
    have hdistance : base + k - (base + c.lfanew + (imageBase c.host).offset) =
        k - (c.lfanew + (imageBase c.host).offset) := by omega
    rw [writeLE_inside _ (by omega) (by omega), writeLE_inside _ hlow hhigh, hdistance]
  · have hdistance : base + k - base + c.data = c.data + k := by omega
    rw [writeLE_outside _ (by omega), writeLE_outside _ (by omega),
      blit_inside _ (by omega) (by omega), hdistance]

theorem copyHeaders_outside (h : DllImage c sections)
    (hplaced : Placed c base (c.member sizeOfImage)) {a : Nat}
    (ha : a < base ∨ base + c.member sizeOfHeaders ≤ a) :
    (copyHeaders c base s).bytes a = s.bytes a := by
  have hheaders := h.ntHeaders
  have hfield := imageBase_inside c.host
  simp only [copyHeaders, Machine.write, Machine.copy, newHeader_eq h hplaced]
  rw [writeLE_outside _ (by omega), blit_outside _ ha]
  rfl

/-- The memory holds the headers of the image at `base`. -/
def HeadersAt (c : Caller) (base : Nat) (m : Bytes) : Prop :=
  ∀ k < c.member sizeOfHeaders, m (base + k) = mappedHeaders c base k

/-- A member that is not changed has the value that it has in the buffer. -/
theorem value_headersAt (h : DllImage c sections)
    (hplaced : Placed c base (c.member sizeOfImage)) (hheaders : HeadersAt c base s.bytes)
    {field : Field} (hfield : field ∈ ntMembers c.host) :
    s.value (c.newHeader base) field = c.member field := by
  have hheadersEnd := h.ntHeaders
  have hinside := ntMembers_inside c.host field hfield
  have hapart := ntMembers_apart c.host field hfield
  unfold Apart at hapart
  rw [Machine.value, Caller.member, newHeader_eq h hplaced, oldHeader_eq h]
  apply readLE_eq
  intro j hj
  have hleft : base + c.lfanew + field.offset + j = base + (c.lfanew + field.offset + j) := by omega
  have hright : c.data + c.lfanew + field.offset + j = c.data + (c.lfanew + field.offset + j) := by
    omega
  rw [hleft, hright, hheaders _ (by omega), mappedHeaders, writeLE_outside _ (by omega)]

theorem imageBase_headersAt (h : DllImage c sections)
    (hplaced : Placed c base (c.member sizeOfImage)) (hheaders : HeadersAt c base s.bytes) :
    s.value (c.newHeader base) (imageBase c.host) = base := by
  have hinside := h.ntHeaders
  have hfield := imageBase_inside c.host
  have hlt : base < 256 ^ (imageBase c.host).size := by
    have hfits := hplaced.fits
    change _ < 256 ^ (imageBase c.host).size at hfits
    omega
  have hsame : s.value (c.newHeader base) (imageBase c.host) =
      readLE (mappedHeaders c base) (c.lfanew + (imageBase c.host).offset)
        (imageBase c.host).size := by
    rw [Machine.value, newHeader_eq h hplaced]
    apply readLE_eq
    intro j hj
    rw [← hheaders _ (by omega)]
    congr 1
    omega
  rw [hsame, mappedHeaders, readLE_writeLE, Nat.mod_eq_of_lt hlt]

theorem sectionsAt_headersAt (h : DllImage c sections) {m : Bytes}
    (hheaders : HeadersAt c base m) : SectionsAt m (base + c.tableOffset) sections := by
  have htable := h.table
  have hapart := h.tableApart
  unfold Apart at hapart
  apply sectionsAt_eq h.sectionTable
  intro j hj
  rw [Nat.add_assoc, Nat.add_assoc, hheaders _ (by omega), mappedHeaders,
    writeLE_outside _ (by omega)]

/-- The memory holds the image at `base` before its fixups, and is otherwise as
it was. -/
structure ImageAt (c : Caller) (base : Nat) (sections : List Section) (before after : Bytes) :
    Prop where
  inside : ∀ k < c.member sizeOfImage, after (base + k) = mappedImage c base sections k
  outside : ∀ a, a < base ∨ base + c.member sizeOfImage ≤ a → after a = before a

theorem headersAt_imageAt (h : DllImage c sections) {before after : Bytes}
    (himage : ImageAt c base sections before after) : HeadersAt c base after := by
  intro k hk
  have hsize := h.headers
  rw [himage.inside k (by omega), mappedImage, if_pos hk]

/-- The headers and the raw data make the image where there were zeros. -/
theorem imageAt_withSections (h : DllImage c sections) {before m : Bytes}
    (hheaders : HeadersAt c base m)
    (hrest : ∀ a, a < base ∨ base + c.member sizeOfHeaders ≤ a → m a = before a)
    (hzero : ∀ k < c.member sizeOfImage, before (base + k) = 0) :
    ImageAt c base sections before (withSections c base sections m) := by
  have hsize := h.headers
  constructor
  · intro k hk
    have hsame : (sections.find? fun x => base + x.virtualAddress ≤ base + k ∧
        base + k < base + x.virtualAddress + x.sizeOfRawData) =
          sections.find? fun x => x.virtualAddress ≤ k ∧ k < x.virtualAddress + x.sizeOfRawData := by
      congr 1
      funext x
      apply decide_eq_decide.mpr
      omega
    unfold withSections mappedImage
    rw [hsame]
    cases hfound : sections.find? fun x => x.virtualAddress ≤ k ∧
        k < x.virtualAddress + x.sizeOfRawData with
    | some x =>
      -- a section that has the address is behind the headers
      have hx := List.find?_some hfound
      have hbehind := (h.fits x (List.mem_of_find?_eq_some hfound)).behind
      rw [decide_eq_true_eq] at hx
      simp only
      rw [if_neg (by omega), Nat.add_sub_add_left]
    | none =>
      simp only
      by_cases hk' : k < c.member sizeOfHeaders
      · rw [if_pos hk', hheaders k hk']
      · rw [if_neg hk', hrest _ (by omega), hzero k hk]
  · intro a ha
    have hnone : (sections.find? fun x => base + x.virtualAddress ≤ a ∧
        a < base + x.virtualAddress + x.sizeOfRawData) = none := by
      rw [List.find?_eq_none]
      intro x hx
      have hinside := (h.fits x hx).inside
      have hraw := (h.fits x hx).rawData
      rw [decide_eq_true_eq]
      omega
    unfold withSections
    rw [hnone]
    exact hrest a (by omega)

theorem sizeOfImage_lt (c : Caller) : c.member sizeOfImage < 2 ^ 32 :=
  readLE_lt _ _ sizeOfImage.size

/-- The copy of the headers and the section loop make the image. -/
theorem copySections_image (h : DllImage c sections)
    (hplaced : Placed c base (c.member sizeOfImage)) (honPage : ∀ x ∈ sections, x.OnPage)
    (hzero : ∀ k < c.member sizeOfImage, s.bytes (base + k) = 0) {fuel : Nat}
    (hfuel : sections.length < fuel) :
    let newHeader := c.newHeader base
    let s₁ := copyHeaders c base s
    ∃ s', copySections c newHeader fuel 0
        (newHeader + optionalHeader + s₁.value newHeader sizeOfOptionalHeader)
        (s₁.touch newHeader sizeOfOptionalHeader) = (some statusSuccess, s') ∧
      ImageAt c base sections s.bytes s'.bytes := by
  intro newHeader s₁
  have hheaders : HeadersAt c base s₁.bytes := fun k hk => copyHeaders_inside h hplaced hk
  have hnew : newHeader = base + c.lfanew := newHeader_eq h hplaced
  have hvalue : ∀ {field : Field}, field ∈ ntMembers c.host →
      s₁.value newHeader field = c.member field := value_headersAt h hplaced hheaders
  have htable : newHeader + optionalHeader + s₁.value newHeader sizeOfOptionalHeader =
      base + c.tableOffset := by
    rw [hvalue (by simp [ntMembers]), hnew, Caller.tableOffset]
    omega
  have hcount : s₁.value newHeader numberOfSections = 0 + sections.length := by
    rw [hvalue (by simp [ntMembers]), h.count, Nat.zero_add]
  obtain ⟨k, hk⟩ := h.alignment
  have halignment : s₁.value newHeader sectionAlignment = 2 ^ k := by
    rw [hvalue (by simp [ntMembers]), hk]
  have hfits : ∀ x ∈ sections, x.Fits (2 ^ k) (c.member sizeOfHeaders) (c.member sizeOfImage) := by
    rw [← hk]
    exact h.fits
  have hinside := h.ntHeaders
  have hend := h.table
  rw [htable]
  obtain ⟨s', hrun, hbytes⟩ := copySections_run (s := s₁.touch newHeader sizeOfOptionalHeader)
    hplaced (sizeOfImage_lt c) (by omega) (sectionsAt_headersAt h hheaders) (by omega) hcount
    halignment (imageBase_headersAt h hplaced hheaders) hfits honPage h.apart hfuel
  refine ⟨s', hrun, ?_⟩
  rw [hbytes]
  apply imageAt_withSections h hheaders _ hzero
  intro a ha
  exact copyHeaders_outside h hplaced ha

/-- The memory holds the image at `base` with its fixups applied, and is otherwise
as it was. -/
structure RebasedAt (c : Caller) (base : Nat) (sections : List Section) (blocks : List Block)
    (before after : Bytes) : Prop where
  inside : ∀ k < c.member sizeOfImage,
    (∀ f ∈ fixups c.host blocks, k < f.target ∨ f.target + f.width ≤ k) →
      after (base + k) = mappedImage c base sections k
  fixed : ∀ f ∈ fixups c.host blocks,
    (readLE after (base + f.target) f.width : Int) =
      (readLE (mappedImage c base sections) f.target f.width +
        (base - c.member (imageBase c.host))) % 256 ^ f.width
  outside : ∀ a, a < base ∨ base + c.member sizeOfImage ≤ a → after a = before a

theorem fixup_width_dvd {host : Host} {f : Fixup} (hf : f ∈ fixups host blocks) :
    256 ^ f.width ∣ host.addresses := by
  obtain ⟨b, _, hb⟩ := List.mem_flatMap.mp hf
  obtain ⟨entry, _, hentry⟩ := List.mem_filterMap.mp hb
  obtain ⟨width, hwidth, rfl⟩ := Option.map_eq_some_iff.mp hentry
  apply Nat.pow_dvd_pow
  change width ≤ host.pointerSize
  unfold fixupWidth at hwidth
  split at hwidth
  · obtain rfl := Option.some.inj hwidth
    cases host <;> decide
  · split at hwidth
    · next hwide =>
      obtain rfl := Option.some.inj hwidth
      rw [Host.pointerSize, if_pos hwide.2]
    · cases hwidth

theorem addDelta_bases {addresses newBase oldBase width : Nat} (value : Nat)
    (hdvd : 256 ^ width ∣ addresses) (hold : oldBase < addresses) :
    (addDelta ((newBase + addresses - oldBase) % addresses) width value : Int) =
      (value + (newBase - oldBase)) % 256 ^ width := by
  have hnat : addDelta ((newBase + addresses - oldBase) % addresses) width value =
      (value + (newBase + addresses - oldBase)) % 256 ^ width := by
    rw [addDelta, Nat.mod_mod_of_dvd _ hdvd, Nat.add_mod_mod]
  obtain ⟨q, rfl⟩ := hdvd
  have hsub : ((newBase + 256 ^ width * q - oldBase : Nat) : Int) =
      newBase - oldBase + 256 ^ width * q := by
    push_cast [Nat.le_of_lt (Nat.lt_of_lt_of_le hold (Nat.le_add_left _ newBase))]
    omega
  rw [hnat]
  push_cast [hsub]
  rw [← Int.add_assoc, Int.add_mul_emod_self_left]

theorem imageBase_lt (c : Caller) : c.member (imageBase c.host) < c.host.addresses :=
  readLE_lt _ _ (imageBase c.host).size

theorem fixupsAvoid_headers (h : DllImage c sections)
    (hplaced : Placed c base (c.member sizeOfImage))
    (hblocks : Relocations c base sections blocks) :
    FixupsAvoid c.host base (c.newHeader base) (sizeOfNtHeaders c.host)
      (fixups c.host blocks) := by
  intro f hf
  have hfits := hplaced.fits
  have hinside := h.ntHeaders
  have ⟨hlow, hhigh⟩ := hblocks.behind f hf
  rw [newHeader_eq h hplaced]
  exact ⟨by omega, Or.inr (by omega)⟩

theorem fixupsAvoid_directory (hplaced : Placed c base (c.member sizeOfImage))
    (hblocks : Relocations c base sections blocks) :
    FixupsAvoid c.host base (base + c.member (relocVirtualAddress c.host))
      (c.member (relocSize c.host)) (fixups c.host blocks) := by
  intro f hf
  have hfits := hplaced.fits
  have ⟨hlow, hhigh⟩ := hblocks.behind f hf
  have hclear := hblocks.clear f hf
  unfold Apart at hclear ⊢
  exact ⟨by omega, by omega⟩

/-- Before the rebase the field of a fixup is that of the image. -/
theorem fixup_imageAt (hblocks : Relocations c base sections blocks) {before m : Bytes}
    (himage : ImageAt c base sections before m) {f : Fixup} (hf : f ∈ fixups c.host blocks) :
    readLE m (base + f.target) f.width =
      readLE (mappedImage c base sections) f.target f.width := by
  have ⟨_, hhigh⟩ := hblocks.behind f hf
  apply readLE_eq
  intro j hj
  rw [Nat.add_assoc]
  exact himage.inside (f.target + j) (by omega)

theorem rebasedAt_patched (hblocks : Relocations c base sections blocks) {before m : Bytes}
    (himage : ImageAt c base sections before m) :
    RebasedAt c base sections blocks before
      (patched base ((base + c.host.addresses - c.member (imageBase c.host)) % c.host.addresses)
        m (fixups c.host blocks)) := by
  constructor
  · intro k hk haway
    rw [← himage.inside k hk]
    apply modifyAll_outside
    intro r hr
    obtain ⟨f, hf, rfl⟩ := List.mem_map.mp hr
    have := haway f hf
    simp only [Fixup.range]
    omega
  · intro f hf
    have hapart : ((fixups c.host blocks).map (Fixup.range base)).Pairwise
        fun r r' => Apart r.1 r.2 r'.1 r'.2 := by
      rw [List.pairwise_map]
      apply hblocks.apart.imp
      intro f g hfg
      unfold Apart at hfg
      simp only [Fixup.range, Apart]
      omega
    have hinside := modifyAll_inside
      (addDelta ((base + c.host.addresses - c.member (imageBase c.host)) % c.host.addresses))
      (m := m) hapart (List.mem_map_of_mem hf)
    simp only [Fixup.range] at hinside
    rw [patched, hinside, fixup_imageAt hblocks himage hf,
      ← addDelta_bases _ (fixup_width_dvd hf) (imageBase_lt c), addDelta, Nat.mod_mod]
  · intro a ha
    rw [← himage.outside a ha]
    apply modifyAll_outside
    intro r hr
    obtain ⟨f, hf, rfl⟩ := List.mem_map.mp hr
    obtain ⟨_, hhigh⟩ := hblocks.behind f hf
    simp only [Fixup.range]
    omega

theorem rebasedAt_ownBase (hblocks : Relocations c base sections blocks) {before m : Bytes}
    (himage : ImageAt c base sections before m) (hbase : c.member (imageBase c.host) = base) :
    RebasedAt c base sections blocks before m := by
  constructor
  · intro k hk _
    exact himage.inside k hk
  · intro f hf
    have hlt := readLE_lt (mappedImage c base sections) f.target f.width
    rw [fixup_imageAt hblocks himage hf, hbase, Int.sub_self, Int.add_zero, Int.emod_eq_of_lt (by omega)]
    exact_mod_cast hlt
  · exact himage.outside

theorem length_le_totalSize (blocks : List Block) : blocks.length ≤ totalSize blocks := by
  induction blocks with
  | nil => exact Nat.le_refl 0
  | cons b blocks ih =>
    rw [List.length_cons, totalSize, Block.size, typeOffset]
    omega

theorem entries_le_totalSize {b : Block} (hb : b ∈ blocks) :
    blocks.length + b.entries.length ≤ totalSize blocks := by
  induction blocks with
  | nil => cases hb
  | cons first blocks ih =>
    have hlength := length_le_totalSize blocks
    rw [List.length_cons, totalSize, Block.size, typeOffset]
    rcases List.mem_cons.mp hb with rfl | hb
    · omega
    · have := ih hb
      omega

theorem rebaseImage_run (h : DllImage c sections)
    (hplaced : Placed c base (c.member sizeOfImage))
    (hblocks : Relocations c base sections blocks) {before : Bytes}
    (himage : ImageAt c base sections before s.bytes) {fuel : Nat}
    (hfuel : totalSize blocks < fuel) :
    ∃ s', rebaseImage c base (c.newHeader base) fuel s = (some (), s') ∧
      RebasedAt c base sections blocks before s'.bytes := by
  have hheaders := headersAt_imageAt h himage
  have haddress : s.value (c.newHeader base) (relocVirtualAddress c.host) =
      c.member (relocVirtualAddress c.host) :=
    value_headersAt h hplaced hheaders (by simp [ntMembers])
  have hsize : s.value (c.newHeader base) (relocSize c.host) = c.member (relocSize c.host) :=
    value_headersAt h hplaced hheaders (by simp [ntMembers])
  have hplace := hplaced.fits
  have hinside := hblocks.inside
  have hold := imageBase_lt c
  rw [rebaseImage_eq]
  simp only [imageBase_headersAt h hplaced hheaders, haddress, hsize]
  split
  · split
    · next hpresent =>
      have htotal := hblocks.total hpresent.2
      have htiled : BlocksAt s.bytes (base + c.member (relocVirtualAddress c.host)) blocks := by
        apply blocksAt_eq hblocks.tiled
        intro j hj
        rw [Nat.add_assoc]
        exact (himage.inside _ (by omega)).symm
      have hdirectory := fixupsAvoid_directory hplaced hblocks
      rw [← htotal] at hdirectory
      rw [offset_eq (by omega)]
      let delta := (base + c.host.addresses - c.member (imageBase c.host)) % c.host.addresses
      let s₁ := (((s.touch (c.newHeader base) (imageBase c.host)).consult c
        (imageBase c.host)).touch (c.newHeader base) (relocVirtualAddress c.host)).touch
          (c.newHeader base) (relocSize c.host)
      obtain ⟨s', hrun, hbytes⟩ : ∃ s', applyBlocks c base (c.newHeader base) delta fuel
          (base + c.member (relocVirtualAddress c.host)) s₁ = (some (), s') ∧
            s'.bytes = patched base delta s.bytes (fixups c.host blocks) :=
        applyBlocks_run htiled haddress hsize (by omega) (by omega)
          (fixupsAvoid_headers h hplaced hblocks) hdirectory
          (Nat.lt_of_le_of_lt (length_le_totalSize blocks) hfuel)
          fun b hb => Nat.lt_of_le_of_lt (entries_le_totalSize hb) hfuel
      refine ⟨s', hrun, ?_⟩
      rw [hbytes]
      exact rebasedAt_patched hblocks himage
    · next habsent =>
      have hnone : blocks = [] := by
        by_cases hzero : c.member (relocVirtualAddress c.host) = 0
        · exact hblocks.absent hzero
        · have htotal := hblocks.total hzero
          have hlength := length_le_totalSize blocks
          exact List.eq_nil_of_length_eq_zero (by omega)
      subst hnone
      exact ⟨_, rfl, rebasedAt_patched hblocks himage⟩
  · next hsame =>
    have hbase : c.member (imageBase c.host) = base := by
      rcases Nat.lt_or_ge base (c.member (imageBase c.host)) with hlt | hge
      · rw [Nat.mod_eq_of_lt (by omega)] at hsame
        omega
      · rw [Nat.sub_add_comm hge, Nat.add_mod_right, Nat.mod_eq_of_lt (by omega)] at hsame
        omega
    exact ⟨_, rfl, rebasedAt_ownBase hblocks himage hbase⟩

theorem reserve_fst (s : Machine) (attempt address size : Nat) :
    (s.reserve c attempt address size).1 = c.virtualReserve attempt address size := by
  unfold Machine.reserve
  split
  · next hzero => exact hzero.symm
  · rfl

theorem reserve_bytes (s : Machine) (attempt address size : Nat) :
    (s.reserve c attempt address size).2.bytes = s.bytes := by
  unfold Machine.reserve
  split <;> rfl

theorem reserveImage_fst (s : Machine) : (reserveImage c s).1 = c.reservedBase := by
  have hfirst : (reservePreferred c s).1 =
      if c.member dllCharacteristics &&& imageDllcharacteristicsDynamicBase = 0 then
        c.virtualReserve 0 (c.member (imageBase c.host)) (c.member sizeOfImage)
      else 0 := by
    unfold reservePreferred
    dsimp only
    split
    · exact reserve_fst _ _ _ _
    · rfl
  unfold reserveImage Caller.reservedBase
  simp only [← hfirst]
  split
  · exact reserve_fst _ _ _ _
  · rfl

theorem reserveImage_bytes (s : Machine) : (reserveImage c s).2.bytes = s.bytes := by
  have hfirst : (reservePreferred c s).2.bytes = s.bytes := by
    unfold reservePreferred
    dsimp only
    split
    · exact reserve_bytes _ _ _ _
    · rfl
  unfold reserveImage
  dsimp only
  split
  · rw [reserve_bytes]
    exact hfirst
  · exact hfirst

/-- A DLL image is mapped at the reserved base and rebased to it. -/
theorem memoryLoadLibrary_maps_and_rebases (h : DllImage c sections)
    (halignment : 1 < c.member sectionAlignment) (honPage : ∀ x ∈ sections, x.OnPage)
    (hplaced : Placed c c.reservedBase (c.member sizeOfImage))
    (hblocks : Relocations c c.reservedBase sections blocks)
    (hzero : ∀ k < c.member sizeOfImage, s.bytes (c.reservedBase + k) = 0) {fuel : Nat}
    (hsections : sections.length < fuel) (hfuel : totalSize blocks < fuel) :
    ∃ s', memoryLoadLibrary c fuel s = (some (statusSuccess, c.reservedBase), s') ∧
      RebasedAt c c.reservedBase sections blocks s.bytes s'.bytes := by
  have hnull : c.reservedBase ≠ 0 := Nat.ne_of_gt hplaced.notNull
  have hbase := reserveImage_fst (c := c) { s with trace := s.trace ++ checkTrace c }
  have hbytes := reserveImage_bytes (c := c) { s with trace := s.trace ++ checkTrace c }
  simp only [memoryLoadLibrary, checkParameters_accepted (accepted_dllImage h halignment), hbase]
  rw [if_neg hnull, mapImage_eq]
  rw [← hbytes] at hzero
  obtain ⟨s₁, hrun₁, himage⟩ := copySections_image h hplaced honPage hzero hsections
  obtain ⟨s₂, hrun₂, hrebased⟩ := rebaseImage_run h hplaced hblocks himage hfuel
  simp only [hrun₁, hrun₂]
  rw [hbytes] at hrebased
  exact ⟨s₂, rfl, hrebased⟩

theorem memoryLoadLibrary_maps_and_rebases_sample :
    ∃ s', memoryLoadLibrary (sampleCaller 0x1000 0x1000) 13 blankMachine =
        (some (statusSuccess, (sampleCaller 0x1000 0x1000).reservedBase), s') ∧
      RebasedAt (sampleCaller 0x1000 0x1000) (sampleCaller 0x1000 0x1000).reservedBase
        (sampleSections 0x1000) (sampleBlocks 0x1000) blankMachine.bytes s'.bytes := by
  have hsample : (0x1000, 0x1000) ∈ samples := by decide
  apply memoryLoadLibrary_maps_and_rebases (sample_dllImage hsample)
  · decide +kernel
  · unfold Section.OnPage
    decide
  · exact sample_placed hsample
  · exact sample_relocations hsample
  · exact fun _ _ => rfl
  · decide
  · decide

/-- An image with byte alignment is refused, and in an image whose sections do
not start on pages the raw data is copied to the starts of their pages. -/
theorem memoryLoadLibrary_refuses_or_misplaces :
    (DllImage (sampleCaller 1 0x1000) (sampleSections 0x1000) ∧
      Placed (sampleCaller 1 0x1000) (sampleCaller 1 0x1000).reservedBase
        ((sampleCaller 1 0x1000).member sizeOfImage) ∧
      Relocations (sampleCaller 1 0x1000) (sampleCaller 1 0x1000).reservedBase
        (sampleSections 0x1000) (sampleBlocks 0x1000) ∧
      ∀ fuel, (memoryLoadLibrary (sampleCaller 1 0x1000) fuel blankMachine).1 =
        some (statusInvalidImageFormat, 0)) ∧
    DllImage (sampleCaller 0x200 0x200) (sampleSections 0x200) ∧
      Placed (sampleCaller 0x200 0x200) (sampleCaller 0x200 0x200).reservedBase
        ((sampleCaller 0x200 0x200).member sizeOfImage) ∧
      Relocations (sampleCaller 0x200 0x200) (sampleCaller 0x200 0x200).reservedBase
        (sampleSections 0x200) (sampleBlocks 0x200) ∧
      (memoryLoadLibrary (sampleCaller 0x200 0x200) 13 blankMachine).1 =
        some (statusSuccess, (sampleCaller 0x200 0x200).reservedBase) ∧
      ¬ RebasedAt (sampleCaller 0x200 0x200) (sampleCaller 0x200 0x200).reservedBase
        (sampleSections 0x200) (sampleBlocks 0x200) blankMachine.bytes
        (memoryLoadLibrary (sampleCaller 0x200 0x200) 13 blankMachine).2.bytes := by
  have hbytes : (1, 0x1000) ∈ samples := by decide
  have hbelow : (0x200, 0x200) ∈ samples := by decide
  refine ⟨⟨sample_dllImage hbytes, sample_placed hbytes, sample_relocations hbytes, ?_⟩,
    sample_dllImage hbelow, sample_placed hbelow, sample_relocations hbelow, ?_, ?_⟩
  · intro fuel
    rfl
  · decide +kernel
  · intro hrebased
    -- behind the fixups of the first section
    have hinside := hrebased.inside 0x20c (by decide +kernel) (by decide +kernel)
    revert hinside
    decide +kernel

end WinPolyfillLoader.MemoryModule
