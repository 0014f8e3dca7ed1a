import WinPolyfillLoader.MemoryModule.Sections

/-!
The relocation walk on a directory that is tiled by blocks. The walk reads the
blocks from the memory that it patches; fixups that stay away from the directory
and the headers leave what is still to be read.
-/

namespace WinPolyfillLoader.MemoryModule

open ByteMemory

/-- A block of the base relocation directory. -/
structure Block where
  virtualAddress : Nat
  entries : List Nat
deriving DecidableEq, Repr

def Block.size (b : Block) : Nat := typeOffset + 2 * b.entries.length

def totalSize : List Block → Nat
  | [] => 0
  | b :: bs => b.size + totalSize bs

/-- The memory holds the entries of a block. -/
def EntriesAt (m : Bytes) : Nat → List Nat → Prop
  | _, [] => True
  | a, w :: ws => readLE m a 2 = w ∧ EntriesAt m (a + 2) ws

/-- The memory holds the blocks, one after the other. -/
def BlocksAt (m : Bytes) : Nat → List Block → Prop
  | _, [] => True
  | a, b :: bs =>
      readLE m (a + blockVirtualAddress.offset) blockVirtualAddress.size = b.virtualAddress ∧
      0 < b.virtualAddress ∧
      readLE m (a + sizeOfBlock.offset) sizeOfBlock.size = b.size ∧
      EntriesAt m (a + typeOffset) b.entries ∧ BlocksAt m (a + b.size) bs

instance decidableEntriesAt (m : Bytes) : ∀ (a : Nat) (ws : List Nat),
    Decidable (EntriesAt m a ws)
  | _, [] => isTrue trivial
  | a, _ :: ws =>
    have := decidableEntriesAt m (a + 2) ws
    inferInstanceAs (Decidable (_ ∧ _))

instance decidableBlocksAt (m : Bytes) : ∀ (a : Nat) (bs : List Block),
    Decidable (BlocksAt m a bs)
  | _, [] => isTrue trivial
  | a, b :: bs =>
    have := decidableBlocksAt m (a + b.size) bs
    inferInstanceAs (Decidable (_ ∧ _ ∧ _ ∧ _ ∧ _))

/-- An integer of the image that is changed by the rebase. -/
structure Fixup where
  target : Nat
  width : Nat
deriving DecidableEq, Repr

/-- The fixup of an entry, if its type has one. -/
def entryFixup (host : Host) (virtualAddress entry : Nat) : Option Fixup :=
  (fixupWidth host (entry / 0x1000)).map fun width => ⟨virtualAddress + entry % 0x1000, width⟩

def Block.fixups (host : Host) (b : Block) : List Fixup :=
  b.entries.filterMap (entryFixup host b.virtualAddress)

def fixups (host : Host) (blocks : List Block) : List Fixup := blocks.flatMap (Block.fixups host)

/-- The field of a fixup in the image at `base`. -/
def Fixup.range (base : Nat) (f : Fixup) : Nat × Nat := (base + f.target, f.width)

def addDelta (delta width value : Nat) : Nat := (value + delta % 256 ^ width) % 256 ^ width

def patched (base delta : Nat) (m : Bytes) (fs : List Fixup) : Bytes :=
  modifyAll (addDelta delta) m (fs.map (Fixup.range base))

/-- The fixups stay in the address space and away from a range. -/
def FixupsAvoid (host : Host) (base start size : Nat) (fs : List Fixup) : Prop :=
  ∀ f ∈ fs, base + f.target < host.addresses ∧ Apart (base + f.target) f.width start size

theorem patched_append (base delta : Nat) (m : Bytes) (first second : List Fixup) :
    patched base delta m (first ++ second) =
      patched base delta (patched base delta m first) second := by
  rw [patched, List.map_append, modifyAll_append]
  rfl

theorem patched_avoided {host : Host} {base delta start size a : Nat} {m : Bytes} {fs : List Fixup}
    (h : FixupsAvoid host base start size fs) (ha : start ≤ a) (hsize : a < start + size) :
    patched base delta m fs a = m a := by
  apply modifyAll_outside
  intro r hr
  obtain ⟨f, hf, rfl⟩ := List.mem_map.mp hr
  have := (h f hf).2
  unfold Apart at this
  simp only [Fixup.range]
  omega

theorem fixupsAvoid_append {host : Host} {base start size : Nat} {first second : List Fixup} :
    FixupsAvoid host base start size (first ++ second) ↔
      FixupsAvoid host base start size first ∧ FixupsAvoid host base start size second :=
  List.forall_mem_append

theorem fixupsAvoid_mono {host : Host} {base start size start' size' : Nat} {fs : List Fixup}
    (h : FixupsAvoid host base start size fs) (hstart : start ≤ start')
    (hsize : start' + size' ≤ start + size) : FixupsAvoid host base start' size' fs := by
  intro f hf
  obtain ⟨hfits, hapart⟩ := h f hf
  unfold Apart at hapart ⊢
  exact ⟨hfits, by omega⟩

theorem entriesAt_eq {m m' : Bytes} {a a' : Nat} {ws : List Nat} (h : EntriesAt m a ws)
    (hsame : ∀ j < 2 * ws.length, m (a + j) = m' (a' + j)) : EntriesAt m' a' ws := by
  induction ws generalizing a a' with
  | nil => trivial
  | cons w ws ih =>
    obtain ⟨hfirst, hrest⟩ := h
    rw [List.length_cons] at hsame
    constructor
    · rw [← hfirst]
      exact (readLE_eq fun j hj => hsame j (by omega)).symm
    · apply ih hrest
      intro j hj
      rw [Nat.add_assoc, Nat.add_assoc]
      exact hsame (2 + j) (by omega)

theorem blocksAt_eq {m m' : Bytes} {a a' : Nat} {bs : List Block} (h : BlocksAt m a bs)
    (hsame : ∀ j < totalSize bs, m (a + j) = m' (a' + j)) : BlocksAt m' a' bs := by
  induction bs generalizing a a' with
  | nil => trivial
  | cons b bs ih =>
    obtain ⟨haddress, hpositive, hsize, hentries, hrest⟩ := h
    rw [totalSize, Block.size, typeOffset] at hsame
    have hread : ∀ offset, offset + 4 ≤ 8 →
        readLE m' (a' + offset) 4 = readLE m (a + offset) 4 := by
      intro offset ho
      apply readLE_eq
      intro j hj
      rw [Nat.add_assoc, Nat.add_assoc]
      exact (hsame (offset + j) (by omega)).symm
    refine ⟨(hread 0 (by decide)).trans haddress, hpositive, (hread 4 (by decide)).trans hsize,
      ?_, ?_⟩
    · apply entriesAt_eq hentries
      intro j hj
      rw [typeOffset, Nat.add_assoc, Nat.add_assoc]
      exact hsame (8 + j) (by omega)
    · apply ih hrest
      intro j hj
      rw [Block.size, typeOffset, Nat.add_assoc a, Nat.add_assoc a']
      exact hsame (8 + 2 * b.entries.length + j) (by omega)

variable {c : Caller} {s : Machine} {base delta newHeader relocation relInfo page : Nat}

theorem applyFixup_run {w : Nat} (hentry : s.value relInfo ⟨0, 2⟩ = w)
    (hpage : s.value relocation blockVirtualAddress = page)
    (hfits : ∀ f ∈ entryFixup c.host page w, base + f.target < c.host.addresses) :
    (applyFixup c base delta relocation relInfo s).bytes =
      patched base delta s.bytes (entryFixup c.host page w).toList := by
  rw [applyFixup_eq]
  simp only [hentry, hpage]
  cases hwidth : fixupWidth c.host (w / 0x1000) with
  | none => simp [entryFixup, hwidth, patched, modifyAll]
  | some width =>
    have hfixup : entryFixup c.host page w = some ⟨page + w % 0x1000, width⟩ := by
      simp [entryFixup, hwidth]
    have hoffset : c.host.offset base (page + w % 0x1000) = base + (page + w % 0x1000) :=
      offset_eq (hfits _ hfixup)
    simp only [hoffset, hfixup]
    rfl

theorem typeOffsetCount_size {b : Block} (h : b.size < 2 ^ 32) :
    typeOffsetCount b.size = b.entries.length := by
  unfold typeOffsetCount
  rw [Block.size, typeOffset] at h ⊢
  omega

theorem applyFixups_run {rest : List Nat} {fuel i size : Nat}
    (hentries : EntriesAt s.bytes relInfo rest)
    (hcount : typeOffsetCount (s.value relocation sizeOfBlock) = i + rest.length)
    (hpage : s.value relocation blockVirtualAddress = page)
    (hstart : relocation + typeOffset ≤ relInfo) (hend : relInfo + 2 * rest.length ≤ relocation + size)
    (havoid : FixupsAvoid c.host base relocation size (rest.filterMap (entryFixup c.host page)))
    (hfuel : rest.length < fuel) :
    ∃ s', applyFixups c base delta relocation fuel i relInfo s = (some (), s') ∧
      s'.bytes = patched base delta s.bytes (rest.filterMap (entryFixup c.host page)) := by
  induction rest generalizing fuel i relInfo s with
  | nil =>
    cases fuel with
    | zero => omega
    | succ fuel =>
      rw [List.length_nil, Nat.add_zero] at hcount
      exact ⟨s.touch relocation sizeOfBlock,
        by rw [applyFixups_succ, if_neg (by omega)], rfl⟩
  | cons w rest ih =>
    cases fuel with
    | zero => omega
    | succ fuel =>
      obtain ⟨hfirst, hrest⟩ := hentries
      rw [List.length_cons] at hcount hend hfuel
      rw [typeOffset] at hstart
      have hsplit : (w :: rest).filterMap (entryFixup c.host page) =
          (entryFixup c.host page w).toList ++ rest.filterMap (entryFixup c.host page) := by
        cases h : entryFixup c.host page w <;> simp [h]
      rw [hsplit, fixupsAvoid_append] at havoid
      obtain ⟨havoid₁, havoid⟩ := havoid
      have htouched : (s.touch relocation sizeOfBlock).value relInfo ⟨0, 2⟩ = w := hfirst
      have hbytes : (applyFixup c base delta relocation relInfo
          (s.touch relocation sizeOfBlock)).bytes =
            patched base delta s.bytes (entryFixup c.host page w).toList :=
        applyFixup_run htouched hpage fun f hf => (havoid₁ f (Option.mem_toList.mpr hf)).1
      have hsame : ∀ a, relocation ≤ a → a < relocation + size →
          (applyFixup c base delta relocation relInfo
            (s.touch relocation sizeOfBlock)).bytes a = s.bytes a := by
        intro a ha hsize
        rw [hbytes, patched_avoided havoid₁ ha hsize]
      have hentries₁ := entriesAt_eq hrest fun j hj =>
        (hsame (relInfo + 2 + j) (by omega) (by omega)).symm
      have hvalue : ∀ field : Field, field.offset + field.size ≤ typeOffset →
          (applyFixup c base delta relocation relInfo (s.touch relocation sizeOfBlock)).value
            relocation field = s.value relocation field := by
        intro field hfield
        rw [typeOffset] at hfield
        exact readLE_congr fun a ha han => hsame a (by omega) (by omega)
      have hcount₁ : typeOffsetCount ((applyFixup c base delta relocation relInfo
          (s.touch relocation sizeOfBlock)).value relocation sizeOfBlock) =
            i + 1 + rest.length := by
        rw [hvalue _ (by decide), hcount]
        omega
      have hpage₁ : (applyFixup c base delta relocation relInfo
          (s.touch relocation sizeOfBlock)).value relocation blockVirtualAddress = page := by
        rw [hvalue _ (by decide), hpage]
      have hfuel₁ : rest.length < fuel := by omega
      obtain ⟨s', hrun, hbytes'⟩ := ih hentries₁ hcount₁ hpage₁ (by rw [typeOffset]; omega)
        (by omega) havoid hfuel₁
      refine ⟨s', ?_, ?_⟩
      · rw [applyFixups_succ, if_pos (by omega)]
        exact hrun
      · rw [hbytes', hbytes, hsplit, patched_append]

theorem directoryEntry_inside (host : Host) {field : Field}
    (hfield : field ∈ [relocVirtualAddress host, relocSize host]) :
    baseRelocDirectory host ≤ field.offset ∧
      field.offset + field.size ≤ baseRelocDirectory host + 8 := by
  rcases List.mem_cons.mp hfield with rfl | hfield
  · exact ⟨Nat.le_refl _, Nat.add_le_add_left (by decide : 4 ≤ 8) _⟩
  · rw [List.mem_singleton.mp hfield]
    exact ⟨Nat.le_add_right _ _, Nat.le_refl _⟩

theorem value_patched {s' : Machine} {fs : List Fixup}
    (hentry : FixupsAvoid c.host base (newHeader + baseRelocDirectory c.host) 8 fs)
    (hbytes : s'.bytes = patched base delta s.bytes fs) {field : Field}
    (hfield : field ∈ [relocVirtualAddress c.host, relocSize c.host]) :
    s'.value newHeader field = s.value newHeader field := by
  have hinside := directoryEntry_inside c.host hfield
  apply readLE_congr
  intro a ha han
  rw [hbytes, patched_avoided hentry (by omega) (by omega)]

/-- One block: its fixups are applied, and the directory is left. -/
theorem applyBlock_run (delta : Nat) {b : Block} {bs : List Block} {fuel : Nat}
    (hblocks : BlocksAt s.bytes relocation (b :: bs))
    (havoid : FixupsAvoid c.host base relocation (totalSize (b :: bs)) (b.fixups c.host))
    (hfuel : b.entries.length < fuel) :
    ∃ s', applyFixups c base delta relocation fuel 0 (relocation + typeOffset) s = (some (), s') ∧
      s'.bytes = patched base delta s.bytes (b.fixups c.host) ∧
      BlocksAt s'.bytes relocation (b :: bs) := by
  obtain ⟨hpage, _, hblock, hfirst, _⟩ := id hblocks
  change s.value relocation blockVirtualAddress = b.virtualAddress at hpage
  change s.value relocation sizeOfBlock = b.size at hblock
  have hcount : typeOffsetCount (s.value relocation sizeOfBlock) = 0 + b.entries.length := by
    have hlt := readLE_lt s.bytes (relocation + sizeOfBlock.offset) sizeOfBlock.size
    change s.value relocation sizeOfBlock < 2 ^ 32 at hlt
    rw [hblock] at hlt ⊢
    rw [typeOffsetCount_size hlt, Nat.zero_add]
  have havoidBlock : FixupsAvoid c.host base relocation b.size (b.fixups c.host) :=
    fixupsAvoid_mono havoid (Nat.le_refl _) (Nat.add_le_add_left (Nat.le_add_right _ _) _)
  have hend : relocation + typeOffset + 2 * b.entries.length ≤ relocation + b.size := by
    rw [Block.size]
    omega
  obtain ⟨s', hrun, hbytes⟩ :=
    applyFixups_run hfirst hcount hpage (Nat.le_refl _) hend havoidBlock hfuel
  refine ⟨s', hrun, hbytes, blocksAt_eq hblocks ?_⟩
  intro j hj
  rw [hbytes]
  exact (patched_avoided havoid (Nat.le_add_right _ _) (by omega)).symm

/-- The block loop applies the fixups of a block and goes on behind it. -/
theorem applyBlocks_block (delta : Nat) {b : Block} {blocks : List Block}
    {fuel address size : Nat}
    (hblocks : BlocksAt s.bytes relocation (b :: blocks))
    (haddress : s.value newHeader (relocVirtualAddress c.host) = address)
    (hsize : s.value newHeader (relocSize c.host) = size)
    (hend : relocation + b.size ≤ base + (address + size))
    (hplace : base + (address + size) < c.host.addresses)
    (havoid : FixupsAvoid c.host base relocation (totalSize (b :: blocks)) (b.fixups c.host))
    (hfuel : b.entries.length < fuel) :
    ∃ s₁, applyBlocks c base newHeader delta (fuel + 1) relocation s =
        applyBlocks c base newHeader delta fuel (relocation + b.size) s₁ ∧
      s₁.bytes = patched base delta s.bytes (b.fixups c.host) ∧
      BlocksAt s₁.bytes (relocation + b.size) blocks := by
  have hpage : s.value relocation blockVirtualAddress = b.virtualAddress := hblocks.1
  have hpositive := hblocks.2.1
  have hblockSize : typeOffset ≤ b.size := Nat.le_add_right _ _
  rw [typeOffset] at hblockSize
  let s₁ := ((s.touch newHeader (relocVirtualAddress c.host)).touch newHeader
    (relocSize c.host)).touch relocation blockVirtualAddress
  have hblocks₁ : BlocksAt s₁.bytes relocation (b :: blocks) := hblocks
  obtain ⟨s₂, hrun₂, hbytes₂, hblocks₂⟩ := applyBlock_run delta hblocks₁ havoid hfuel
  have hsize₂ : s₂.value relocation sizeOfBlock = b.size := hblocks₂.2.2.1
  have hnext : c.host.offset relocation b.size = relocation + b.size := offset_eq (by omega)
  refine ⟨s₂.touch relocation sizeOfBlock, ?_, hbytes₂, hblocks₂.2.2.2.2⟩
  rw [applyBlocks_succ]
  simp only [haddress, hsize, hpage]
  rw [offset_eq hplace, if_pos (by omega), if_pos hpositive]
  simp only [s₁] at hrun₂
  simp only [hrun₂, hsize₂, hnext]

/-- The block loop applies the fixups of the blocks, if these leave the directory and its
entry. -/
theorem applyBlocks_tiled {blocks : List Block} {fuel address size : Nat}
    (hblocks : BlocksAt s.bytes relocation blocks)
    (haddress : s.value newHeader (relocVirtualAddress c.host) = address)
    (hsize : s.value newHeader (relocSize c.host) = size)
    (hend : base + (address + size) = relocation + totalSize blocks)
    (hplace : base + (address + size) < c.host.addresses)
    (hentry : FixupsAvoid c.host base (newHeader + baseRelocDirectory c.host) 8
      (fixups c.host blocks))
    (havoid : FixupsAvoid c.host base relocation (totalSize blocks) (fixups c.host blocks))
    (hfuel : blocks.length < fuel)
    (hentries : ∀ b ∈ blocks, blocks.length + b.entries.length < fuel) :
    ∃ s', applyBlocks c base newHeader delta fuel relocation s = (some (), s') ∧
      s'.bytes = patched base delta s.bytes (fixups c.host blocks) := by
  induction blocks generalizing fuel relocation s with
  | nil =>
    cases fuel with
    | zero => omega
    | succ fuel =>
      rw [totalSize, Nat.add_zero] at hend
      refine ⟨(s.touch newHeader (relocVirtualAddress c.host)).touch newHeader
        (relocSize c.host), ?_, rfl⟩
      rw [applyBlocks_succ]
      simp only [haddress, hsize]
      rw [offset_eq hplace, if_neg (by omega)]
  | cons b bs ih =>
    cases fuel with
    | zero => omega
    | succ fuel =>
      have hsplit : fixups c.host (b :: bs) = b.fixups c.host ++ fixups c.host bs := rfl
      have htotal : totalSize (b :: bs) = b.size + totalSize bs := rfl
      rw [hsplit, fixupsAvoid_append] at hentry havoid
      rw [List.length_cons] at hfuel
      have hfuel₁ : b.entries.length < fuel := by
        have := hentries b (by simp)
        rw [List.length_cons] at this
        omega
      obtain ⟨s₁, hstep, hbytes₁, hrest₁⟩ :=
        applyBlocks_block delta hblocks haddress hsize (by omega) hplace havoid.1 hfuel₁
      have haddress₁ : s₁.value newHeader (relocVirtualAddress c.host) = address := by
        rw [value_patched hentry.1 hbytes₁ (by simp)]
        exact haddress
      have hsize₁ : s₁.value newHeader (relocSize c.host) = size := by
        rw [value_patched hentry.1 hbytes₁ (by simp)]
        exact hsize
      have hend₁ : base + (address + size) = relocation + b.size + totalSize bs := by omega
      have havoid₁ : FixupsAvoid c.host base (relocation + b.size) (totalSize bs)
          (fixups c.host bs) := fixupsAvoid_mono havoid.2 (by omega) (by omega)
      have hentries₁ : ∀ b' ∈ bs, bs.length + b'.entries.length < fuel := by
        intro b' hb'
        have := hentries b' (by simp [hb'])
        rw [List.length_cons] at this
        omega
      obtain ⟨s', hrun, hbytes⟩ := ih hrest₁ haddress₁ hsize₁ hend₁ hentry.2 havoid₁ (by omega)
        hentries₁
      refine ⟨s', hstep.trans hrun, ?_⟩
      rw [hbytes, hbytes₁, hsplit, patched_append]

theorem applyBlocks_run {blocks : List Block} {fuel address size : Nat}
    (hblocks : BlocksAt s.bytes relocation blocks)
    (haddress : s.value newHeader (relocVirtualAddress c.host) = address)
    (hsize : s.value newHeader (relocSize c.host) = size)
    (hend : base + (address + size) = relocation + totalSize blocks)
    (hplace : base + (address + size) < c.host.addresses)
    (hheader : FixupsAvoid c.host base newHeader (sizeOfNtHeaders c.host) (fixups c.host blocks))
    (havoid : FixupsAvoid c.host base relocation (totalSize blocks) (fixups c.host blocks))
    (hfuel : blocks.length < fuel)
    (hentries : ∀ b ∈ blocks, blocks.length + b.entries.length < fuel) :
    ∃ s', applyBlocks c base newHeader delta fuel relocation s = (some (), s') ∧
      s'.bytes = patched base delta s.bytes (fixups c.host blocks) := by
  have hinside : baseRelocDirectory c.host + 8 ≤ sizeOfNtHeaders c.host := by
    cases c.host <;> decide
  exact applyBlocks_tiled hblocks haddress hsize hend hplace
    (fixupsAvoid_mono hheader (Nat.le_add_right _ _) (by omega)) havoid hfuel hentries

end WinPolyfillLoader.MemoryModule
