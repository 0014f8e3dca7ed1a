import WinPolyfillLoader.MemoryModule.LoadRuns
import WinPolyfillLoader.MemoryModule.SectionProtection

/-!
The size of a section on a 64-bit host. `MemorySetSectionProtection` has it in
`SIZE_T`, and `MemoryLoadLibrary` cuts it to a `DWORD`, so they differ where the
size is rounded up beyond 32 bits.
-/

namespace WinPolyfillLoader.MemoryModule

open ByteMemory Relation

/-- The bits that a mask takes away are the ones that it leaves out. -/
theorem ldiff_add_land (x mask : Nat) : Nat.ldiff x mask + (x &&& mask) = x := by
  induction x using Nat.binaryRec generalizing mask with
  | zero =>
    have hldiff : Nat.ldiff 0 mask = 0 := by
      apply Nat.eq_of_testBit_eq
      intro i
      simp [Nat.testBit_ldiff]
    rw [hldiff, Nat.zero_and]
  | bit b x ih =>
    obtain ⟨d, rest, rfl⟩ : ∃ d rest, mask = Nat.bit d rest :=
      ⟨mask.bodd, mask.div2, (Nat.bit_bodd_div2 mask).symm⟩
    have hrest := ih rest
    rw [Nat.ldiff_bit, Nat.land_bit]
    cases b with
    | false =>
      simp only [Nat.bit, Bool.false_and, cond_false]
      omega
    | true =>
      cases d with
      | false =>
        simp only [Nat.bit, Bool.true_and, Bool.not_false, cond_true, cond_false]
        omega
      | true =>
        simp only [Nat.bit, Bool.true_and, Bool.not_true, cond_true, cond_false]
        omega

variable {host : Host} {value alignment : Nat}

/-- Whatever the alignment is, rounding up loses no byte and adds less than it. -/
theorem alignValueUp_bounds (hhost : host.win64 = true) (hvalue : value < 2 ^ 32)
    (halignment : alignment < 2 ^ 32) (hpos : 0 < alignment) :
    value ≤ alignValueUp host value alignment ∧
      alignValueUp host value alignment < value + alignment := by
  have haddresses : host.addresses = 2 ^ 64 := by
    rw [Host.addresses, Host.pointerSize, if_pos hhost]
    decide
  have hmask : (alignment + host.addresses - 1) % host.addresses = alignment - 1 := by
    have hsum : alignment + host.addresses - 1 = alignment - 1 + host.addresses := by omega
    rw [hsum, Nat.add_mod_right, Nat.mod_eq_of_lt (by omega)]
  unfold alignValueUp
  simp only [hmask]
  rw [Nat.mod_eq_of_lt (by omega)]
  have hsplit := ldiff_add_land (value + (alignment - 1)) (alignment - 1)
  have hland : (value + (alignment - 1)) &&& (alignment - 1) ≤ alignment - 1 := Nat.and_le_right
  omega

theorem alignValueUp_zero (host : Host) (value : Nat) : alignValueUp host value 0 = 0 := by
  obtain ⟨n, _, hn⟩ := addresses_eq host
  have hpos := Nat.two_pow_pos n
  have hmask : (0 + host.addresses - 1) % host.addresses = 2 ^ n - 1 := by
    rw [Nat.zero_add, hn, Nat.mod_eq_of_lt (by omega)]
  unfold alignValueUp
  simp only [hmask]
  rw [ldiff_mask, hn, Nat.div_eq_of_lt (Nat.mod_lt _ hpos), Nat.zero_mul]

/-- A section that the loop comes to: its number, its header and the machine. -/
structure SectionState where
  index : Nat
  sectionHeader : Nat
  machine : Machine

def SectionState.Enters (newHeader : Nat) (x : SectionState) : Prop :=
  x.index < x.machine.value newHeader numberOfSections

/-- The loop has loaded a section and goes on to the next. -/
structure NextSection (c : Caller) (newHeader : Nat) (x y : SectionState) : Prop where
  enters : x.Enters newHeader
  copied : copySection c newHeader x.sectionHeader (x.machine.touch newHeader numberOfSections) =
    (.ok (), y.machine)
  index : y.index = x.index + 1
  sectionHeader : y.sectionHeader = x.sectionHeader + sizeOfSectionHeader

def firstSection (c : Caller) (s : Machine) : SectionState :=
  ⟨0, sectionTable c (checked c s), headersCopied c (checked c s)⟩

/-- The sections that the loop of a run comes to. -/
def ComesTo (c : Caller) (s : Machine) (x : SectionState) : Prop :=
  ReflTransGen (NextSection c (c.newHeader c.reservedBase)) (firstSection c s) x ∧
    x.Enters (c.newHeader c.reservedBase)

/-- The section in the headers of the image, as it is in a machine. -/
def SectionState.headerIn (x : SectionState) (s : Machine) : SectionHeader :=
  sectionHeaderAt s.bytes x.sectionHeader

/-- The size that `MemorySetSectionProtection` computes for the section when the
image is as in a machine. -/
def SectionState.sizeIn (c : Caller) (x : SectionState) (s : Machine) : Nat :=
  (x.headerIn s).size c.host (imageAlignment s.bytes (c.newHeader c.reservedBase))

/-- The size that `MemoryLoadLibrary` commits for the section. -/
def SectionState.committedSize (c : Caller) (x : SectionState) : Nat :=
  x.sizeIn c x.machine % 2 ^ 32

variable {c : Caller} {s s' : Machine} {newHeader fuel : Nat}

theorem copySections_comes {x y : SectionState}
    (h : copySections c newHeader fuel x.index x.sectionHeader x.machine =
      (some statusSuccess, s'))
    (hreaches : ReflTransGen (NextSection c newHeader) x y) (henters : y.Enters newHeader) :
    (y.machine.sectionAt y.sectionHeader).Loads c (y.machine.value newHeader (imageBase c.host))
      (y.machine.value newHeader sectionAlignment) := by
  induction fuel generalizing x with
  | zero => cases h
  | succ fuel ih =>
    rw [copySections_succ] at h
    rcases ReflTransGen.cases_head hreaches with heq | ⟨z, hnext, hrest⟩
    · subst heq
      have hcount : x.index < x.machine.value newHeader numberOfSections := henters
      rw [if_pos hcount] at h
      rcases copySection_loads c newHeader x.sectionHeader
        (x.machine.touch newHeader numberOfSections) with
        ⟨_, _, hloads⟩ | ⟨status, _, hcopy, hfails, _⟩
      · exact hloads
      · rw [hcopy] at h
        cases h
        cases hfails
    · have hcount : x.index < x.machine.value newHeader numberOfSections := hnext.enters
      rw [if_pos hcount, hnext.copied] at h
      dsimp only at h
      rw [← hnext.index, ← hnext.sectionHeader] at h
      exact ih h hrest

/-- A size that is cut to 32 bits holds the section and is the size of the
protection if and only if nothing is cut off. -/
theorem cut_iff {size later : Nat} (hvalue : value < 2 ^ 32) (halignment : alignment < 2 ^ 32)
    (hle : value ≤ size) (hlt : size < value + alignment) :
    value ≤ size % 2 ^ 32 ∧ size % 2 ^ 32 = later ↔ size < 2 ^ 32 ∧ later = size := by
  constructor
  · rintro ⟨hholds, hlater⟩
    omega
  · rintro ⟨hfits, rfl⟩
    rw [Nat.mod_eq_of_lt hfits]
    exact ⟨hle, rfl⟩

/-- The size that is committed holds the section, and it is the size that
`MemorySetSectionProtection` computes for the section in the loaded image. -/
structure SectionState.SizesAgree (c : Caller) (s' : Machine) (x : SectionState) : Prop where
  holds : (x.headerIn x.machine).virtualSize ≤ x.committedSize c
  agrees : x.committedSize c = x.sizeIn c s'

/-- The rounded size of the section fits 32 bits, and nothing that was copied over
the headers since has changed it. -/
structure SectionState.SizeKept (c : Caller) (s' : Machine) (x : SectionState) : Prop where
  fits : x.sizeIn c x.machine < 2 ^ 32
  kept : x.sizeIn c s' = x.sizeIn c x.machine

theorem sizesAgree_iff (hhost : c.host.win64 = true)
    (hzero : ∀ address, c.virtualCommit address 0 = false) {x : SectionState}
    (hloads : (x.machine.sectionAt x.sectionHeader).Loads c
      (x.machine.value (c.newHeader c.reservedBase) (imageBase c.host))
      (x.machine.value (c.newHeader c.reservedBase) sectionAlignment)) :
    x.SizesAgree c s' ↔ x.SizeKept c s' := by
  have hvalue : (x.headerIn x.machine).virtualSize < 2 ^ 32 := readLE_lt _ _ _
  have halignment : imageAlignment x.machine.bytes (c.newHeader c.reservedBase) < 2 ^ 32 :=
    readLE_lt _ _ _
  -- without an alignment the size would be 0, and no pages would be committed
  have hpos : 0 < imageAlignment x.machine.bytes (c.newHeader c.reservedBase) := by
    rw [Nat.pos_iff_ne_zero]
    intro hnone
    have hcommit : c.virtualCommit _ (x.committedSize c) = true := hloads.2.1
    rw [SectionState.committedSize, SectionState.sizeIn, SectionHeader.size, hnone,
      alignValueUp_zero, Nat.zero_mod, hzero] at hcommit
    cases hcommit
  obtain ⟨hle, hlt⟩ := alignValueUp_bounds hhost hvalue halignment hpos
  have hcut : (x.headerIn x.machine).virtualSize ≤ x.committedSize c ∧
      x.committedSize c = x.sizeIn c s' ↔
      x.sizeIn c x.machine < 2 ^ 32 ∧ x.sizeIn c s' = x.sizeIn c x.machine :=
    cut_iff hvalue halignment hle hlt
  constructor
  · rintro ⟨hholds, hagrees⟩
    obtain ⟨hfits, hkept⟩ := hcut.mp ⟨hholds, hagrees⟩
    exact ⟨hfits, hkept⟩
  · rintro ⟨hfits, hkept⟩
    obtain ⟨hholds, hagrees⟩ := hcut.mpr ⟨hfits, hkept⟩
    exact ⟨hholds, hagrees⟩

theorem comesTo_loads {handle : Nat} {x : SectionState}
    (h : memoryLoadLibrary c fuel s = (some (statusSuccess, handle), s')) (hx : ComesTo c s x) :
    (x.machine.sectionAt x.sectionHeader).Loads c
      (x.machine.value (c.newHeader c.reservedBase) (imageBase c.host))
      (x.machine.value (c.newHeader c.reservedBase) sectionAlignment) := by
  obtain ⟨s₁, hsections, _⟩ := memoryLoadLibrary_success h
  exact copySections_comes (x := firstSection c s) hsections hx.1 hx.2

/-- An image with one section of a `VirtualSize` of 5 and without raw data, at its
preferred base. No pages are committed for a size of 0. -/
def alignedCaller (alignment : Nat) : Caller :=
  { patchedCaller [(0x46, 2, 1), (0x70, 8, 0x10000), (0x78, 4, alignment), (0x150, 4, 5),
      (0x158, 4, 0)] with virtualCommit := fun _ size => size != 0 }

end WinPolyfillLoader.MemoryModule
