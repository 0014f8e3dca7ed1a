import WinPolyfillLoader.MemoryModule.MemoryLoadLibrary

/-!
The section loop on a table of sections that are pairwise disjoint, lie behind
the headers and start on pages: each section's raw data is copied to its
virtual address, and every other byte is left as it was.
-/

namespace WinPolyfillLoader.MemoryModule

open ByteMemory

/-- `IMAGE_SECTION_HEADER`. -/
structure Section where
  virtualSize : Nat
  virtualAddress : Nat
  sizeOfRawData : Nat
  pointerToRawData : Nat
deriving DecidableEq, Repr

/-- The memory holds a section table at an address. -/
def SectionsAt (m : Bytes) : Nat → List Section → Prop
  | _, [] => True
  | a, x :: xs =>
      readLE m (a + virtualSize.offset) virtualSize.size = x.virtualSize ∧
      readLE m (a + virtualAddress.offset) virtualAddress.size = x.virtualAddress ∧
      readLE m (a + sizeOfRawData.offset) sizeOfRawData.size = x.sizeOfRawData ∧
      readLE m (a + pointerToRawData.offset) pointerToRawData.size = x.pointerToRawData ∧
      SectionsAt m (a + sizeOfSectionHeader) xs

instance decidableSectionsAt (m : Bytes) : ∀ (a : Nat) (xs : List Section),
    Decidable (SectionsAt m a xs)
  | _, [] => isTrue trivial
  | a, _ :: xs =>
    have := decidableSectionsAt m (a + sizeOfSectionHeader) xs
    inferInstanceAs (Decidable (_ ∧ _ ∧ _ ∧ _ ∧ _))

/-- A size rounded up to a multiple of an alignment. -/
def alignedSize (value alignment : Nat) : Nat :=
  (value + alignment - 1) / alignment * alignment

theorem le_alignedSize (value : Nat) {alignment : Nat} (h : 0 < alignment) :
    value ≤ alignedSize value alignment := by
  have hdiv := Nat.div_add_mod (value + alignment - 1) alignment
  have hmod := Nat.mod_lt (value + alignment - 1) h
  rw [Nat.mul_comm] at hdiv
  unfold alignedSize
  omega

theorem ldiff_mask (x k : Nat) : Nat.ldiff x (2 ^ k - 1) = x / 2 ^ k * 2 ^ k := by
  apply Nat.eq_of_testBit_eq
  intro i
  rw [Nat.testBit_ldiff, Nat.testBit_two_pow_sub_one, Nat.testBit_mul_two_pow,
    Nat.testBit_div_two_pow]
  rcases Nat.lt_or_ge i k with h | h
  · simp [h, Nat.not_le.mpr h]
  · simp [h, Nat.not_lt.mpr h]

theorem addresses_eq (host : Host) : ∃ n, 32 ≤ n ∧ host.addresses = 2 ^ n := by
  cases host with
  | arm64 | amd64 => exact ⟨64, by decide, by decide⟩
  | arm | i386 => exact ⟨32, by decide, by decide⟩

theorem addresses_ge (host : Host) : 2 ^ 32 ≤ host.addresses := by
  obtain ⟨n, hn, haddresses⟩ := addresses_eq host
  rw [haddresses]
  exact Nat.pow_le_pow_right (by decide) hn

/-- `AlignValueUp` rounds up to a power of two, if the result is an address. -/
theorem alignValueUp_eq (host : Host) {value k : Nat} (hk : 2 ^ k < host.addresses)
    (hfits : alignedSize value (2 ^ k) < host.addresses) :
    alignValueUp host value (2 ^ k) = alignedSize value (2 ^ k) := by
  have hpos : 0 < 2 ^ k := Nat.two_pow_pos k
  obtain ⟨n, _, hn⟩ := addresses_eq host
  have hdvd : 2 ^ k ∣ host.addresses := by
    rw [hn] at hk ⊢
    exact Nat.pow_dvd_pow 2 (Nat.le_of_lt ((Nat.pow_lt_pow_iff_right (by decide)).mp hk))
  have hmask : (2 ^ k + host.addresses - 1) % host.addresses = 2 ^ k - 1 := by
    have hsum : 2 ^ k + host.addresses - 1 = 2 ^ k - 1 + host.addresses := by omega
    rw [hsum, Nat.add_mod_right, Nat.mod_eq_of_lt (by omega)]
  -- the sum cannot pass the number of addresses, which is a multiple of the alignment
  have hsum : value + (2 ^ k - 1) < host.addresses := by
    by_contra hge
    obtain ⟨q, hq⟩ := hdvd
    have hle : q ≤ (value + 2 ^ k - 1) / 2 ^ k := by
      rw [Nat.le_div_iff_mul_le hpos, Nat.mul_comm, ← hq]
      omega
    have := Nat.mul_le_mul_right (2 ^ k) hle
    rw [Nat.mul_comm q, ← hq] at this
    exact absurd hfits (Nat.not_lt.mpr this)
  unfold alignValueUp
  simp only [hmask]
  rw [Nat.mod_eq_of_lt hsum, ldiff_mask]
  unfold alignedSize
  rw [Nat.add_sub_assoc hpos]

/-- The reserved range: it starts on a page, and pages in it can be committed. -/
structure Placed (c : Caller) (base size : Nat) : Prop where
  aligned : base % pageSize = 0
  notNull : 0 < base
  fits : base + size < c.host.addresses
  commits : ∀ a n, base ≤ a → a + n ≤ base + size → 0 < n → c.virtualCommit a n = true

/-- The section is behind the headers and inside the image; its raw data fits
its size in memory. -/
structure Section.Fits (x : Section) (alignment headersSize imageSize : Nat) : Prop where
  virtualSize : 0 < x.virtualSize
  rawData : x.sizeOfRawData ≤ alignedSize x.virtualSize alignment
  behind : headersSize ≤ x.virtualAddress
  inside : x.virtualAddress + alignedSize x.virtualSize alignment ≤ imageSize

instance (x : Section) (alignment headersSize imageSize : Nat) :
    Decidable (x.Fits alignment headersSize imageSize) :=
  decidable_of_iff (0 < x.virtualSize ∧ x.sizeOfRawData ≤ alignedSize x.virtualSize alignment ∧
      headersSize ≤ x.virtualAddress ∧
      x.virtualAddress + alignedSize x.virtualSize alignment ≤ imageSize)
    ⟨fun ⟨virtualSize, rawData, behind, inside⟩ => ⟨virtualSize, rawData, behind, inside⟩,
      fun ⟨virtualSize, rawData, behind, inside⟩ => ⟨virtualSize, rawData, behind, inside⟩⟩

/-- Raw data that is copied starts on a page. -/
def Section.OnPage (x : Section) : Prop := x.sizeOfRawData ≠ 0 → x.virtualAddress % pageSize = 0

theorem offset_eq {host : Host} {pointer distance : Nat}
    (h : pointer + distance < host.addresses) : host.offset pointer distance = pointer + distance :=
  Nat.mod_eq_of_lt h

variable {c : Caller} {s : Machine} {base newHeader sectionHeader headersSize imageSize k : Nat}

theorem copySection_run {x : Section} {rest : List Section} (hplaced : Placed c base imageSize)
    (himage : imageSize < 2 ^ 32) (htable : SectionsAt s.bytes sectionHeader (x :: rest))
    (halignment : s.value newHeader sectionAlignment = 2 ^ k)
    (hbase : s.value newHeader (imageBase c.host) = base)
    (hfits : x.Fits (2 ^ k) headersSize imageSize) (honPage : x.OnPage) :
    ∃ s', copySection c newHeader sectionHeader s = (.ok (), s') ∧
      s'.bytes = blit s.bytes (base + x.virtualAddress) c.source
        (c.host.offset c.data x.pointerToRawData) x.sizeOfRawData := by
  obtain ⟨hvirtual, haddress, hraw, hpointer, _⟩ := htable
  change s.value sectionHeader virtualSize = _ at hvirtual
  change s.value sectionHeader virtualAddress = _ at haddress
  change s.value sectionHeader sizeOfRawData = _ at hraw
  change s.value sectionHeader pointerToRawData = _ at hpointer
  have hlimit := addresses_ge c.host
  have hk : 2 ^ k < c.host.addresses := by
    have hlt := readLE_lt s.bytes (newHeader + sectionAlignment.offset) sectionAlignment.size
    change s.value newHeader sectionAlignment < _ at hlt
    rw [halignment] at hlt
    exact Nat.lt_of_lt_of_le hlt hlimit
  have hsize := le_alignedSize x.virtualSize (Nat.two_pow_pos k)
  have hpositive := hfits.virtualSize
  have hinside := hfits.inside
  have hplace := hplaced.fits
  have hpage := hplaced.aligned
  have hnull := hplaced.notNull
  have haligned : alignValueUp c.host x.virtualSize (2 ^ k) % 2 ^ 32 =
      alignedSize x.virtualSize (2 ^ k) := by
    rw [alignValueUp_eq c.host hk (by omega), Nat.mod_eq_of_lt (by omega)]
  have hoffset : c.host.offset base x.virtualAddress = base + x.virtualAddress :=
    offset_eq (by omega)
  have hcommit : ∀ t : Machine, (t.commit c (base + x.virtualAddress)
      (alignedSize x.virtualSize (2 ^ k))).1 = (base + x.virtualAddress) / pageSize * pageSize := by
    intro t
    rw [Machine.commit, if_pos]
    exact hplaced.commits _ _ (by omega) (by omega) (by omega)
  have hdest : (base + x.virtualAddress) / pageSize * pageSize ≠ 0 := by
    unfold pageSize at hpage ⊢
    omega
  rw [copySection_eq]
  simp only [touch_value, commit_value, hvirtual, halignment, hbase, haddress, hraw, hpointer,
    haligned, hoffset, hcommit]
  rw [if_neg (Nat.not_lt.mpr hfits.rawData), if_neg hdest]
  by_cases hempty : x.sizeOfRawData = 0
  · refine ⟨_, if_neg (not_not_intro hempty), ?_⟩
    rw [hempty, blit_nothing]
    simp
  · -- the page of the destination is the destination
    have hsame : (base + x.virtualAddress) / pageSize * pageSize = base + x.virtualAddress := by
      have := honPage hempty
      unfold pageSize at hpage this ⊢
      omega
    refine ⟨_, if_pos hempty, ?_⟩
    rw [hsame]
    simp [Machine.copy]

/-- The bytes after the section loop: the raw data of the section that has the
address, or what was there. -/
def withSections (c : Caller) (base : Nat) (sections : List Section) (m : Bytes) : Bytes := fun a =>
  match sections.find? fun x => base + x.virtualAddress ≤ a ∧
      a < base + x.virtualAddress + x.sizeOfRawData with
  | some x => c.source (a - (base + x.virtualAddress) + c.host.offset c.data x.pointerToRawData)
  | none => m a

/-- The raw data of two sections do not meet. -/
def RawApart (x y : Section) : Prop :=
  Apart x.virtualAddress x.sizeOfRawData y.virtualAddress y.sizeOfRawData

instance (x y : Section) : Decidable (RawApart x y) := inferInstanceAs (Decidable (Apart _ _ _ _))

theorem withSections_cons {x : Section} {rest : List Section} (m : Bytes)
    (hapart : ∀ y ∈ rest, RawApart x y) :
    withSections c base (x :: rest) m =
      withSections c base rest (blit m (base + x.virtualAddress) c.source
        (c.host.offset c.data x.pointerToRawData) x.sizeOfRawData) := by
  funext a
  unfold withSections
  by_cases hin : base + x.virtualAddress ≤ a ∧ a < base + x.virtualAddress + x.sizeOfRawData
  · have hnone : (rest.find? fun y => base + y.virtualAddress ≤ a ∧
        a < base + y.virtualAddress + y.sizeOfRawData) = none := by
      rw [List.find?_eq_none]
      intro y hy
      have := hapart y hy
      unfold RawApart Apart at this
      simp only [decide_eq_true_eq]
      omega
    rw [List.find?_cons_of_pos (by simpa using hin), hnone]
    simp only [blit_inside m hin.1 hin.2]
  · rw [List.find?_cons_of_neg (by simpa using hin)]
    rw [blit_outside m (by omega)]

theorem sectionsAt_eq {m m' : Bytes} {a a' : Nat} {sections : List Section}
    (h : SectionsAt m a sections)
    (hsame : ∀ j < sizeOfSectionHeader * sections.length, m (a + j) = m' (a' + j)) :
    SectionsAt m' a' sections := by
  induction sections generalizing a a' with
  | nil => trivial
  | cons x rest ih =>
    obtain ⟨hvirtual, haddress, hraw, hpointer, hrest⟩ := h
    rw [List.length_cons, sizeOfSectionHeader] at hsame
    have hread : ∀ offset, offset + 4 ≤ 40 →
        readLE m' (a' + offset) 4 = readLE m (a + offset) 4 := by
      intro offset ho
      apply readLE_eq
      intro j hj
      rw [Nat.add_assoc, Nat.add_assoc]
      exact (hsame (offset + j) (by omega)).symm
    refine ⟨(hread 8 (by decide)).trans hvirtual, (hread 12 (by decide)).trans haddress,
      (hread 16 (by decide)).trans hraw, (hread 20 (by decide)).trans hpointer, ?_⟩
    apply ih hrest
    intro j hj
    rw [sizeOfSectionHeader] at hj ⊢
    rw [Nat.add_assoc, Nat.add_assoc]
    exact hsame (40 + j) (by omega)

theorem copySections_run {rest : List Section} {fuel i : Nat} (hplaced : Placed c base imageSize)
    (himage : imageSize < 2 ^ 32) (hheader : newHeader + sizeOfNtHeaders c.host ≤ base + headersSize)
    (htable : SectionsAt s.bytes sectionHeader rest)
    (htableEnd : sectionHeader + sizeOfSectionHeader * rest.length ≤ base + headersSize)
    (hcount : s.value newHeader numberOfSections = i + rest.length)
    (halignment : s.value newHeader sectionAlignment = 2 ^ k)
    (hbase : s.value newHeader (imageBase c.host) = base)
    (hfits : ∀ x ∈ rest, x.Fits (2 ^ k) headersSize imageSize)
    (honPage : ∀ x ∈ rest, x.OnPage)
    (hapart : rest.Pairwise RawApart) (hfuel : rest.length < fuel) :
    ∃ s', copySections c newHeader fuel i sectionHeader s = (some statusSuccess, s') ∧
      s'.bytes = withSections c base rest s.bytes := by
  induction rest generalizing fuel i sectionHeader s with
  | nil =>
    cases fuel with
    | zero => omega
    | succ fuel =>
      rw [List.length_nil, Nat.add_zero] at hcount
      exact ⟨s.touch newHeader numberOfSections,
        by rw [copySections_succ, if_neg (by omega)], rfl⟩
  | cons x rest ih =>
    cases fuel with
    | zero => omega
    | succ fuel =>
      rw [List.length_cons] at hcount hfuel htableEnd
      obtain ⟨hfirst, hrest⟩ := List.pairwise_cons.mp hapart
      have hx := hfits x (by simp)
      have htouched : SectionsAt (s.touch newHeader numberOfSections).bytes sectionHeader
        (x :: rest) := htable
      obtain ⟨s₁, hcopy, hbytes⟩ := copySection_run hplaced himage htouched halignment hbase hx
        (honPage x (by simp))
      -- the raw data is behind the headers
      have hbelow : ∀ a < base + headersSize, s.bytes a = s₁.bytes a := by
        intro a ha
        have := hx.behind
        rw [hbytes, touch_bytes, blit_outside _ (by omega)]
      have hvalue : ∀ field : Field, field.offset + field.size ≤ sizeOfNtHeaders c.host →
          s₁.value newHeader field = s.value newHeader field := by
        intro field hfield
        exact readLE_congr fun j _ hj => (hbelow j (by omega)).symm
      have htable₁ : SectionsAt s₁.bytes (sectionHeader + sizeOfSectionHeader) rest :=
        sectionsAt_eq htable.2.2.2.2 fun j hj => hbelow _ (by
          rw [sizeOfSectionHeader] at *
          omega)
      have hcount₁ : s₁.value newHeader numberOfSections = i + 1 + rest.length := by
        rw [hvalue _ (ntMembers_inside c.host _ (by simp [ntMembers])), hcount]
        omega
      have halignment₁ : s₁.value newHeader sectionAlignment = 2 ^ k := by
        rw [hvalue _ (ntMembers_inside c.host _ (by simp [ntMembers])), halignment]
      have hbase₁ : s₁.value newHeader (imageBase c.host) = base := by
        rw [hvalue _ (imageBase_inside c.host), hbase]
      have hend₁ : sectionHeader + sizeOfSectionHeader + sizeOfSectionHeader * rest.length ≤
          base + headersSize := by
        rw [sizeOfSectionHeader] at *
        omega
      have hfuel₁ : rest.length < fuel := by omega
      obtain ⟨s', hrun, hbytes'⟩ := ih htable₁ hend₁ hcount₁ halignment₁ hbase₁
        (fun y hy => hfits y (by simp [hy])) (fun y hy => honPage y (by simp [hy])) hrest hfuel₁
      refine ⟨s', ?_, ?_⟩
      · rw [copySections_succ, if_pos (by omega), hcopy]
        exact hrun
      · rw [hbytes', hbytes, withSections_cons _ hfirst, touch_bytes]

end WinPolyfillLoader.MemoryModule
