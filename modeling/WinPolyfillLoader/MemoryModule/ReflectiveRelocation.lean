import Mathlib.Data.List.Basic
import WinPolyfillLoader.Library.Additions
import WinPolyfillLoader.MemoryModule.RelocationWalk

/-!
Step 5 of `ReflectiveLoader` beside the rebase of `MemoryLoadLibrary`. The one walk stops at
a `SizeOfBlock` of 0 and knows the fixups of 16 bits, the other stops at the end of the
directory and passes them over.
-/

namespace WinPolyfillLoader.MemoryModule

open ByteMemory

def imageRelBasedAbsolute : Nat := 0
def imageRelBasedHigh : Nat := 1
def imageRelBasedLow : Nat := 2

/-- What an entry adds to an integer of which width. `IMAGE_REL_BASED_ARM_MOV32T`, which
only a build for ARM has, is left out. -/
def relocAddend (host : Host) (uiLibraryAddress type : Nat) : Option (Nat × Nat) :=
  if type = imageRelBasedDir64 then some (host.pointerSize, uiLibraryAddress)
  else if type = imageRelBasedHighlow then some (4, uiLibraryAddress % 2 ^ 32)
  else if type = imageRelBasedHigh then some (2, uiLibraryAddress / 2 ^ 16 % 2 ^ 16)
  else if type = imageRelBasedLow then some (2, uiLibraryAddress % 2 ^ 16)
  else none

def processEntry (host : Host) (uiLibraryAddress uiValueA uiValueD : Nat) (m : Bytes) : Bytes :=
  let info := readLE m uiValueD 2
  match relocAddend host uiLibraryAddress (info / 0x1000) with
  | none => m
  | some (width, addend) => addAt m ⟨host.offset uiValueA (info % 0x1000), width, addend⟩

/-- `while (uiValueB--)`. -/
def processEntries (host : Host) (uiLibraryAddress uiValueA : Nat) : Nat → Nat → Bytes → Bytes
  | 0, _, m => m
  | uiValueB + 1, uiValueD, m =>
    processEntries host uiLibraryAddress uiValueA uiValueB (host.offset uiValueD 2)
      (processEntry host uiLibraryAddress uiValueA uiValueD m)

/-- The loop over the blocks; `none` if it still runs. -/
def processBlocks (host : Host) (uiBaseAddress uiLibraryAddress : Nat) :
    Nat → Nat → Bytes → Option Bytes
  | 0, _, _ => none
  | fuel + 1, uiValueC, m =>
    let size := readLE m (uiValueC + sizeOfBlock.offset) sizeOfBlock.size
    if size ≠ 0 then
      let uiValueA := host.offset uiBaseAddress
        (readLE m (uiValueC + blockVirtualAddress.offset) blockVirtualAddress.size)
      -- in `size_t`, where a size below that of the header wraps
      let uiValueB := (size + host.addresses - typeOffset) % host.addresses / 2
      let m := processEntries host uiLibraryAddress uiValueA uiValueB
        (host.offset uiValueC typeOffset) m
      processBlocks host uiBaseAddress uiLibraryAddress fuel
        (host.offset uiValueC (readLE m (uiValueC + sizeOfBlock.offset) sizeOfBlock.size)) m
    else some m

/-- `uiLibraryAddress` in step 5. -/
def libraryDelta (c : Caller) (uiBaseAddress : Nat) : Nat :=
  (uiBaseAddress + c.host.addresses - c.member (imageBase c.host)) % c.host.addresses

/-- Step 5 of `ReflectiveLoader`, which takes the directory from the headers of the
buffer. -/
def processRelocations (c : Caller) (uiBaseAddress fuel : Nat) (m : Bytes) : Option Bytes :=
  if c.member (relocSize c.host) ≠ 0 then
    processBlocks c.host uiBaseAddress (libraryDelta c uiBaseAddress) fuel
      (c.host.offset uiBaseAddress (c.member (relocVirtualAddress c.host))) m
  else some m

/-- What an entry adds to the image at `base`. -/
def entryAddition (host : Host) (base delta page entry : Nat) : Option Addition :=
  (relocAddend host delta (entry / 0x1000)).map fun (width, addend) =>
    ⟨base + (page + entry % 0x1000), width, addend⟩

def Block.additions (host : Host) (base delta : Nat) (b : Block) : List Addition :=
  b.entries.filterMap (entryAddition host base delta b.virtualAddress)

def additions (host : Host) (base delta : Nat) (blocks : List Block) : List Addition :=
  blocks.flatMap (Block.additions host base delta)

/-- The additions stay in the address space and away from a range. -/
def AdditionsAvoid (host : Host) (start size : Nat) (as : List Addition) : Prop :=
  ∀ a ∈ as, a.address < host.addresses ∧ Apart a.address a.width start size

instance (host : Host) (start size : Nat) (as : List Addition) :
    Decidable (AdditionsAvoid host start size as) := inferInstanceAs (Decidable (∀ a ∈ as, _))

section Reflective

variable {host : Host} {base delta page start size : Nat} {m : Bytes}

theorem additionsAvoid_append {first second : List Addition} :
    AdditionsAvoid host start size (first ++ second) ↔
      AdditionsAvoid host start size first ∧ AdditionsAvoid host start size second :=
  List.forall_mem_append

theorem additionsAvoid_mono {start' size' : Nat} {as : List Addition}
    (h : AdditionsAvoid host start size as) (hstart : start ≤ start')
    (hsize : start' + size' ≤ start + size) : AdditionsAvoid host start' size' as := by
  intro a ha
  obtain ⟨hfits, hapart⟩ := h a ha
  unfold Apart at hapart ⊢
  exact ⟨hfits, by omega⟩

theorem addAll_avoided {as : List Addition} (h : AdditionsAvoid host start size as) {k : Nat}
    (hk : start ≤ k) (hkn : k < start + size) : addAll m as k = m k := by
  apply addAll_outside
  intro a ha
  have hapart := (h a ha).2
  unfold Apart at hapart
  omega

theorem processEntry_run {w uiValueD : Nat} (hentry : readLE m uiValueD 2 = w)
    (hfits : ∀ a ∈ entryAddition host base delta page w, a.address < host.addresses) :
    processEntry host delta (host.offset base page) uiValueD m =
      addAll m (entryAddition host base delta page w).toList := by
  rw [processEntry]
  simp only [hentry]
  cases haddend : relocAddend host delta (w / 0x1000) with
  | none => simp [entryAddition, haddend, addAll]
  | some added =>
    obtain ⟨width, addend⟩ := added
    have haddition : entryAddition host base delta page w =
        some ⟨base + (page + w % 0x1000), width, addend⟩ := by
      simp [entryAddition, haddend]
    have htarget : host.offset (host.offset base page) (w % 0x1000) =
        base + (page + w % 0x1000) := by
      have hlt : base + (page + w % 0x1000) < host.addresses := hfits _ haddition
      rw [Host.offset, Host.offset, Nat.mod_add_mod, Nat.add_assoc, Nat.mod_eq_of_lt hlt]
    simp only [htarget, haddition]
    rfl

theorem processEntries_run {rest : List Nat} {uiValueD : Nat}
    (hentries : EntriesAt m uiValueD rest) (hstart : start ≤ uiValueD)
    (hend : uiValueD + 2 * rest.length ≤ start + size) (hplace : start + size < host.addresses)
    (havoid : AdditionsAvoid host start size
      (rest.filterMap (entryAddition host base delta page))) :
    processEntries host delta (host.offset base page) rest.length uiValueD m =
      addAll m (rest.filterMap (entryAddition host base delta page)) := by
  induction rest generalizing uiValueD m with
  | nil => rfl
  | cons w rest ih =>
    obtain ⟨hfirst, hrest⟩ := hentries
    rw [List.length_cons] at hend
    have hsplit : (w :: rest).filterMap (entryAddition host base delta page) =
        (entryAddition host base delta page w).toList ++
          rest.filterMap (entryAddition host base delta page) := by
      cases h : entryAddition host base delta page w <;> simp [h]
    rw [hsplit, additionsAvoid_append] at havoid
    obtain ⟨havoid₁, havoid⟩ := havoid
    have hentry := processEntry_run (m := m) hfirst fun a ha =>
      (havoid₁ a (Option.mem_toList.mpr ha)).1
    have hrest₁ : EntriesAt (addAll m (entryAddition host base delta page w).toList)
        (uiValueD + 2) rest := by
      apply entriesAt_eq hrest
      intro j hj
      exact (addAll_avoided havoid₁ (by omega) (by omega)).symm
    have hnext : host.offset uiValueD 2 = uiValueD + 2 := offset_eq (by omega)
    rw [List.length_cons, processEntries, hnext, hentry, ih hrest₁ (by omega) (by omega) havoid,
      hsplit, addAll_append]

theorem entryCount_eq {b : Block} (h : b.size < 2 ^ 32) :
    (b.size + host.addresses - typeOffset) % host.addresses / 2 = b.entries.length := by
  have haddresses := addresses_ge host
  rw [Block.size, typeOffset] at h ⊢
  have hwrap : 8 + 2 * b.entries.length + host.addresses - 8 =
      2 * b.entries.length + host.addresses := by omega
  rw [hwrap, Nat.add_mod_right, Nat.mod_eq_of_lt (by omega)]
  omega

/-- The walk makes the additions of a block and goes on behind it. -/
theorem processBlocks_block {b : Block} {blocks : List Block} {uiValueC fuel : Nat}
    (hblocks : BlocksAt m uiValueC (b :: blocks)) (hplace : uiValueC + b.size < host.addresses)
    (havoid : AdditionsAvoid host uiValueC b.size (b.additions host base delta)) :
    processBlocks host base delta (fuel + 1) uiValueC m =
      processBlocks host base delta fuel (uiValueC + b.size)
        (addAll m (b.additions host base delta)) := by
  obtain ⟨hpage, _, hsize, hentries, -⟩ := hblocks
  have hlt : b.size < 2 ^ 32 := hsize ▸ readLE_lt m (uiValueC + sizeOfBlock.offset) 4
  have hlength : b.size = typeOffset + 2 * b.entries.length := rfl
  have hpositive : b.size ≠ 0 := by
    rw [hlength, typeOffset]
    omega
  have hheader : host.offset uiValueC typeOffset = uiValueC + typeOffset := offset_eq (by omega)
  have hnext : host.offset uiValueC b.size = uiValueC + b.size := offset_eq hplace
  have hblock : processEntries host delta (host.offset base b.virtualAddress) b.entries.length
      (uiValueC + typeOffset) m = addAll m (b.additions host base delta) :=
    processEntries_run hentries (Nat.le_add_right _ _) (by omega) hplace havoid
  -- the size is read again
  have hsize₁ : readLE (addAll m (b.additions host base delta)) (uiValueC + sizeOfBlock.offset)
      sizeOfBlock.size = b.size := by
    rw [← hsize]
    apply readLE_congr
    intro k hk hkn
    apply addAll_avoided havoid (by omega)
    simp only [sizeOfBlock, hlength, typeOffset] at hkn ⊢
    omega
  rw [processBlocks]
  simp only [hsize, hpage, hheader, entryCount_eq hlt, hblock, hsize₁, hnext, if_pos hpositive]

theorem processBlocks_run {blocks : List Block} {uiValueC fuel : Nat}
    (hblocks : BlocksAt m uiValueC blocks)
    (hstop : readLE m (uiValueC + totalSize blocks + sizeOfBlock.offset) sizeOfBlock.size = 0)
    (hplace : uiValueC + totalSize blocks < host.addresses)
    (havoid : AdditionsAvoid host uiValueC (totalSize blocks) (additions host base delta blocks))
    (hkeeps : AdditionsAvoid host (uiValueC + totalSize blocks + sizeOfBlock.offset)
      sizeOfBlock.size (additions host base delta blocks))
    (hfuel : blocks.length < fuel) :
    processBlocks host base delta fuel uiValueC m =
      some (addAll m (additions host base delta blocks)) := by
  induction blocks generalizing uiValueC m fuel with
  | nil =>
    obtain ⟨fuel, rfl⟩ := Nat.exists_eq_succ_of_ne_zero (Nat.ne_of_gt hfuel)
    rw [totalSize, Nat.add_zero] at hstop
    rw [processBlocks]
    simp only [hstop]
    rfl
  | cons b bs ih =>
    obtain ⟨fuel, rfl⟩ := Nat.exists_eq_succ_of_ne_zero (Nat.ne_of_gt (Nat.zero_lt_of_lt hfuel))
    obtain ⟨_, _, _, _, hrest⟩ := id hblocks
    have hsplit : additions host base delta (b :: bs) =
        b.additions host base delta ++ additions host base delta bs := rfl
    have htotal : totalSize (b :: bs) = b.size + totalSize bs := rfl
    have hshift : uiValueC + totalSize (b :: bs) = uiValueC + b.size + totalSize bs := by
      rw [htotal, Nat.add_assoc]
    rw [hshift] at hstop hplace hkeeps
    rw [hsplit, additionsAvoid_append] at havoid hkeeps
    -- what the walk reads afterwards is left
    have hrest₁ : BlocksAt (addAll m (b.additions host base delta)) (uiValueC + b.size) bs := by
      apply blocksAt_eq hrest
      intro j hj
      exact (addAll_avoided havoid.1 (by omega) (by omega)).symm
    have hstop₁ : readLE (addAll m (b.additions host base delta))
        (uiValueC + b.size + totalSize bs + sizeOfBlock.offset) sizeOfBlock.size = 0 := by
      rw [← hstop]
      apply readLE_congr
      exact fun k hk hkn => addAll_avoided hkeeps.1 hk hkn
    have hfirst : AdditionsAvoid host uiValueC b.size (b.additions host base delta) :=
      additionsAvoid_mono havoid.1 (Nat.le_refl _) (by omega)
    have hlater : AdditionsAvoid host (uiValueC + b.size) (totalSize bs)
        (additions host base delta bs) := additionsAvoid_mono havoid.2 (by omega) (by omega)
    rw [processBlocks_block hblocks (by omega) hfirst,
      ih hrest₁ hstop₁ hplace hlater hkeeps.2 (Nat.lt_of_succ_lt_succ hfuel), hsplit,
      addAll_append]

end Reflective

/-- The fixup types that both walks are compared on. -/
def ListedType (host : Host) (type : Nat) : Prop :=
  type ∈ [imageRelBasedAbsolute, imageRelBasedHigh, imageRelBasedLow, imageRelBasedHighlow] ∨
    (type = imageRelBasedDir64 ∧ host.win64 = true)

instance (host : Host) (type : Nat) : Decidable (ListedType host type) :=
  inferInstanceAs (Decidable (_ ∨ _))

/-- An image that is mapped at `base`, with a directory of the listed types. The targets lie
apart from each other, from the blocks and the word behind them, and from the entry of the
directory in the headers. -/
structure SameImage (c : Caller) (base newHeader : Nat) (s : Machine) (blocks : List Block) :
    Prop where
  imageBase : s.value newHeader (imageBase c.host) = base
  address : s.value newHeader (relocVirtualAddress c.host) = c.member (relocVirtualAddress c.host)
  size : s.value newHeader (relocSize c.host) = c.member (relocSize c.host)
  tiled : BlocksAt s.bytes (base + c.member (relocVirtualAddress c.host)) blocks
  total : totalSize blocks = c.member (relocSize c.host)
  stop : readLE s.bytes (base + c.member (relocVirtualAddress c.host) + totalSize blocks +
    sizeOfBlock.offset) sizeOfBlock.size = 0
  inside : base + c.member (relocVirtualAddress c.host) + totalSize blocks < c.host.addresses
  types : ∀ b ∈ blocks, ∀ e ∈ b.entries, ListedType c.host (e / 0x1000)
  disjoint : (additions c.host base (libraryDelta c base) blocks).Pairwise Addition.Apart
  directory : AdditionsAvoid c.host (base + c.member (relocVirtualAddress c.host))
    (totalSize blocks) (additions c.host base (libraryDelta c base) blocks)
  behind : AdditionsAvoid c.host (base + c.member (relocVirtualAddress c.host) +
    totalSize blocks + sizeOfBlock.offset) sizeOfBlock.size
    (additions c.host base (libraryDelta c base) blocks)
  entry : AdditionsAvoid c.host (newHeader + baseRelocDirectory c.host) 8
    (additions c.host base (libraryDelta c base) blocks)

/-- The fixups of 16 bits add nothing. -/
def NarrowAddNothing (delta : Nat) (blocks : List Block) : Prop :=
  ∀ b ∈ blocks, ∀ e ∈ b.entries,
    (e / 0x1000 = imageRelBasedHigh → delta / 2 ^ 16 % 2 ^ 16 = 0) ∧
      (e / 0x1000 = imageRelBasedLow → delta % 2 ^ 16 = 0)

/-- The additions that `MemoryLoadLibrary` makes, too. -/
def wide (a : Addition) : Bool := a.width ≠ 2

/-- A fixup of `MemoryLoadLibrary` as an addition. -/
def Fixup.addition (base delta : Nat) (f : Fixup) : Addition :=
  ⟨base + f.target, f.width, delta % 256 ^ f.width⟩

section Rebase

variable {host : Host} {base delta : Nat} {blocks : List Block}

theorem patched_eq_addAll (m : Bytes) (fs : List Fixup) :
    patched base delta m fs = addAll m (fs.map (Fixup.addition base delta)) := by
  have h := modifyAll_eq_addAll (fun width => delta % 256 ^ width) m (fs.map (Fixup.range base))
  rw [List.map_map] at h
  exact h

theorem entryAddition_cases (hdelta : delta < host.addresses) (page : Nat) {e : Nat}
    (htype : ListedType host (e / 0x1000)) :
    (entryAddition host base delta page e = none ∧ entryFixup host page e = none ∧
      e / 0x1000 = imageRelBasedAbsolute) ∨
    (∃ addend, entryAddition host base delta page e =
        some ⟨base + (page + e % 0x1000), 2, addend⟩ ∧ entryFixup host page e = none ∧
      ((e / 0x1000 = imageRelBasedHigh ∧ addend = delta / 2 ^ 16 % 2 ^ 16) ∨
        (e / 0x1000 = imageRelBasedLow ∧ addend = delta % 2 ^ 16))) ∨
    (∃ f, entryAddition host base delta page e = some (f.addition base delta) ∧
      entryFixup host page e = some f ∧ f.width ≠ 2 ∧
      e / 0x1000 ≠ imageRelBasedHigh ∧ e / 0x1000 ≠ imageRelBasedLow) := by
  rcases htype with hlisted | ⟨hdir64, hwin64⟩
  · simp only [List.mem_cons, List.not_mem_nil, or_false] at hlisted
    rcases hlisted with habsolute | hhigh | hlow | hhighlow
    · refine Or.inl ⟨?_, ?_, habsolute⟩
      · rw [entryAddition, habsolute]
        rfl
      · rw [entryFixup, habsolute]
        rfl
    · refine Or.inr (Or.inl ⟨delta / 2 ^ 16 % 2 ^ 16, ?_, ?_, Or.inl ⟨hhigh, rfl⟩⟩)
      · rw [entryAddition, hhigh]
        rfl
      · rw [entryFixup, hhigh]
        rfl
    · refine Or.inr (Or.inl ⟨delta % 2 ^ 16, ?_, ?_, Or.inr ⟨hlow, rfl⟩⟩)
      · rw [entryAddition, hlow]
        rfl
      · rw [entryFixup, hlow]
        rfl
    · refine Or.inr (Or.inr ⟨⟨page + e % 0x1000, 4⟩, ?_, ?_, (by decide : 4 ≠ 2), ?_, ?_⟩)
      · rw [entryAddition, hhighlow]
        rfl
      · rw [entryFixup, hhighlow]
        rfl
      · rw [hhighlow]
        decide
      · rw [hhighlow]
        decide
  · have hpointer : host.pointerSize = 8 := if_pos hwin64
    have hwhole : delta % 256 ^ 8 = delta := by
      apply Nat.mod_eq_of_lt
      rw [Host.addresses, hpointer] at hdelta
      exact hdelta
    refine Or.inr (Or.inr ⟨⟨page + e % 0x1000, 8⟩, ?_, ?_, (by decide : 8 ≠ 2), ?_, ?_⟩)
    · rw [entryAddition, relocAddend, if_pos hdir64, hpointer, Fixup.addition, hwhole]
      rfl
    · rw [entryFixup, fixupWidth, if_neg (by rw [hdir64]; decide), if_pos ⟨hdir64, hwin64⟩]
      rfl
    · rw [hdir64]
      decide
    · rw [hdir64]
      decide

/-- What `MemoryLoadLibrary` adds are the additions of other widths than 16 bits. -/
theorem additions_wide (hdelta : delta < host.addresses)
    (htypes : ∀ b ∈ blocks, ∀ e ∈ b.entries, ListedType host (e / 0x1000)) :
    (additions host base delta blocks).filter wide =
      (fixups host blocks).map (Fixup.addition base delta) := by
  rw [additions, fixups, List.filter_flatMap, List.map_flatMap]
  apply List.flatMap_congr
  intro b hb
  rw [Block.additions, Block.fixups, List.filter_filterMap, List.map_filterMap]
  apply List.filterMap_congr
  intro e he
  rcases entryAddition_cases hdelta b.virtualAddress (htypes b hb e he) with
    ⟨hnone, hfixup, -⟩ | ⟨addend, hnarrow, hfixup, -⟩ | ⟨f, hwide, hfixup, hwidth, -⟩
  · rw [hnone, hfixup]
    rfl
  · rw [hnarrow, hfixup]
    rfl
  · rw [hwide, hfixup]
    simp [wide, Fixup.addition, hwidth]

/-- An addition is one of 16 bits or that of a fixup of `MemoryLoadLibrary`. -/
theorem mem_additions (hdelta : delta < host.addresses)
    (htypes : ∀ b ∈ blocks, ∀ e ∈ b.entries, ListedType host (e / 0x1000)) {a : Addition}
    (ha : a ∈ additions host base delta blocks) :
    (a.width = 2 ∧ ∃ b ∈ blocks, ∃ e ∈ b.entries,
      (e / 0x1000 = imageRelBasedHigh ∧ a.addend = delta / 2 ^ 16 % 2 ^ 16) ∨
        (e / 0x1000 = imageRelBasedLow ∧ a.addend = delta % 2 ^ 16)) ∨
    ∃ f : Fixup, a = f.addition base delta ∧ f.width ≠ 2 := by
  obtain ⟨b, hb, ha⟩ := List.mem_flatMap.mp ha
  obtain ⟨e, he, hentry⟩ := List.mem_filterMap.mp ha
  rcases entryAddition_cases hdelta b.virtualAddress (htypes b hb e he) with
    ⟨hnone, -⟩ | ⟨addend, hnarrow, -, hkind⟩ | ⟨f, hwide, -, hwidth, -⟩
  · rw [hnone] at hentry
    cases hentry
  · rw [hnarrow] at hentry
    cases hentry
    exact Or.inl ⟨rfl, b, hb, e, he, hkind⟩
  · rw [hwide] at hentry
    exact Or.inr ⟨f, (Option.some_inj.mp hentry).symm, hwidth⟩

theorem addend_lt (hdelta : delta < host.addresses)
    (htypes : ∀ b ∈ blocks, ∀ e ∈ b.entries, ListedType host (e / 0x1000)) :
    ∀ a ∈ additions host base delta blocks, a.addend < 256 ^ a.width := by
  intro a ha
  rcases mem_additions hdelta htypes ha with
    ⟨hwidth, -, -, -, -, ⟨-, haddend⟩ | ⟨-, haddend⟩⟩ | ⟨f, rfl, -⟩
  · rw [hwidth, haddend]
    exact Nat.mod_lt _ (by decide)
  · rw [hwidth, haddend]
    exact Nat.mod_lt _ (by decide)
  · exact Nat.mod_lt _ (Nat.pow_pos (by decide))

theorem addend_ownBase (htypes : ∀ b ∈ blocks, ∀ e ∈ b.entries, ListedType host (e / 0x1000)) :
    ∀ a ∈ additions host base 0 blocks, a.addend = 0 := by
  have hdelta : 0 < host.addresses := Nat.lt_of_lt_of_le (by decide) (addresses_ge host)
  intro a ha
  rcases mem_additions hdelta htypes ha with
    ⟨-, -, -, -, -, ⟨-, haddend⟩ | ⟨-, haddend⟩⟩ | ⟨f, rfl, -⟩
  · exact haddend
  · exact haddend
  · exact Nat.zero_mod _

/-- The additions that `MemoryLoadLibrary` does not make are those of 16 bits. -/
theorem narrow_iff (hdelta : delta < host.addresses)
    (htypes : ∀ b ∈ blocks, ∀ e ∈ b.entries, ListedType host (e / 0x1000)) :
    (∀ a ∈ additions host base delta blocks, wide a = false → a.addend = 0) ↔
      NarrowAddNothing delta blocks := by
  have hdistinct : imageRelBasedHigh ≠ imageRelBasedLow := by decide
  constructor
  · intro h b hb e he
    rcases entryAddition_cases hdelta b.virtualAddress (htypes b hb e he) with
      ⟨-, -, habsolute⟩ | ⟨addend, hnarrow, -, hkind⟩ | ⟨f, -, -, -, hhigh, hlow⟩
    · rw [habsolute]
      exact ⟨(fun h => nomatch h), (fun h => nomatch h)⟩
    · have hzero : addend = 0 := by
        refine h ⟨base + (b.virtualAddress + e % 0x1000), 2, addend⟩ ?_ rfl
        exact List.mem_flatMap.mpr ⟨b, hb, List.mem_filterMap.mpr ⟨e, he, hnarrow⟩⟩
      rcases hkind with ⟨hhigh, hadded⟩ | ⟨hlow, hadded⟩
      · exact ⟨fun _ => hadded.symm.trans hzero,
          fun hlow => absurd (hhigh.symm.trans hlow) hdistinct⟩
      · exact ⟨fun hhigh => absurd (hhigh.symm.trans hlow) hdistinct,
          fun _ => hadded.symm.trans hzero⟩
    · exact ⟨fun heq => absurd heq hhigh, fun heq => absurd heq hlow⟩
  · intro h a ha hnarrow
    rcases mem_additions hdelta htypes ha with
      ⟨-, b, hb, e, he, ⟨htype, haddend⟩ | ⟨htype, haddend⟩⟩ | ⟨f, rfl, hwidth⟩
    · exact haddend.trans ((h b hb e he).1 htype)
    · exact haddend.trans ((h b hb e he).2 htype)
    · exact absurd (of_decide_eq_false hnarrow) (not_not.mpr hwidth)

variable {c : Caller} {newHeader : Nat} {s : Machine}

theorem libraryDelta_lt (c : Caller) (base : Nat) : libraryDelta c base < c.host.addresses :=
  Nat.mod_lt _ (Nat.lt_of_lt_of_le (by decide) (addresses_ge c.host))

theorem SameImage.delta_eq (h : SameImage c base newHeader s blocks) :
    locationDelta c newHeader s = libraryDelta c base := by
  rw [locationDelta, h.imageBase]
  rfl

theorem SameImage.blocks_eq_nil (h : SameImage c base newHeader s blocks)
    (hempty : c.member (relocSize c.host) = 0) : blocks = [] := by
  have hlength := length_le_totalSize blocks
  rw [h.total, hempty] at hlength
  exact List.eq_nil_of_length_eq_zero (Nat.le_zero.mp hlength)

theorem SameImage.fixups_avoid (h : SameImage c base newHeader s blocks) {start size : Nat}
    (havoid : AdditionsAvoid c.host start size
      (additions c.host base (libraryDelta c base) blocks)) :
    FixupsAvoid c.host base start size (fixups c.host blocks) := by
  intro f hf
  have hmade : f.addition base (libraryDelta c base) ∈
      (additions c.host base (libraryDelta c base) blocks).filter wide := by
    rw [additions_wide (libraryDelta_lt c base) h.types]
    exact List.mem_map_of_mem hf
  exact havoid _ (List.mem_filter.mp hmade).1

/-- `MemoryLoadLibrary` makes the wide additions, if it walks at all. -/
theorem SameImage.rebaseImage_run (h : SameImage c base newHeader s blocks)
    (hrebases : Rebases c newHeader s) :
    ∃ s', (∀ fuel, totalSize blocks < fuel →
        rebaseImage c base newHeader fuel s = (some (), s')) ∧
      s'.bytes =
        addAll s.bytes ((additions c.host base (libraryDelta c base) blocks).filter wide) := by
  have hplace := h.inside
  have hfirst : (firstBlock c base newHeader s).relocation =
      base + c.member (relocVirtualAddress c.host) := by
    rw [firstBlock, h.address]
    exact offset_eq (by omega)
  have hwalk : ∀ fuel, totalSize blocks < fuel → ∃ s',
      rebaseImage c base newHeader fuel s = (some (), s') ∧
        s'.bytes = patched base (libraryDelta c base) s.bytes (fixups c.host blocks) := by
    intro fuel hfuel
    rw [rebaseImage_walks hrebases, hfirst, h.delta_eq]
    have hend : base + (c.member (relocVirtualAddress c.host) + c.member (relocSize c.host)) =
        base + c.member (relocVirtualAddress c.host) + totalSize blocks := by
      rw [h.total, Nat.add_assoc]
    exact applyBlocks_tiled h.tiled h.address h.size hend (by omega) (h.fixups_avoid h.entry)
      (h.fixups_avoid h.directory) (Nat.lt_of_le_of_lt (length_le_totalSize blocks) hfuel)
      fun b hb => Nat.lt_of_le_of_lt (entries_le_totalSize hb) hfuel
  obtain ⟨s', hrun, hbytes⟩ := hwalk (totalSize blocks + 1) (Nat.lt_succ_self _)
  refine ⟨s', fun fuel hfuel => ?_, ?_⟩
  · rw [rebaseImage_walks hrebases] at hrun ⊢
    exact applyBlocks_mono hfuel hrun
  · rw [hbytes, patched_eq_addAll, additions_wide (libraryDelta_lt c base) h.types]

theorem SameImage.processRelocations_run (h : SameImage c base newHeader s blocks) {fuel : Nat}
    (hfuel : totalSize blocks < fuel) :
    processRelocations c base fuel s.bytes =
      some (addAll s.bytes (additions c.host base (libraryDelta c base) blocks)) := by
  have hplace := h.inside
  rw [processRelocations]
  split
  · have hstart : c.host.offset base (c.member (relocVirtualAddress c.host)) =
        base + c.member (relocVirtualAddress c.host) := offset_eq (by omega)
    rw [hstart]
    exact processBlocks_run h.tiled h.stop h.inside h.directory h.behind
      (Nat.lt_of_le_of_lt (length_le_totalSize blocks) hfuel)
  · rename_i hempty
    rw [h.blocks_eq_nil (not_not.mp hempty)]
    rfl

end Rebase

/-- The two walks return, and leave the same bytes if the fixups of 16 bits add nothing
and, where the address of the directory is 0, no fixup does. -/
theorem relocations_same_iff (c : Caller) (base newHeader : Nat) (s : Machine)
    (blocks : List Block) (h : SameImage c base newHeader s blocks) :
    ∃ s' m',
      (∀ fuel, totalSize blocks < fuel →
        rebaseImage c base newHeader fuel s = (some (), s') ∧
          processRelocations c base fuel s.bytes = some m') ∧
      (s'.bytes = m' ↔ NarrowAddNothing (libraryDelta c base) blocks ∧
        (c.member (relocVirtualAddress c.host) = 0 →
          ∀ a ∈ additions c.host base (libraryDelta c base) blocks, a.addend = 0)) := by
  have hdelta := libraryDelta_lt c base
  have hwhole : ∀ a ∈ additions c.host base (libraryDelta c base) blocks,
      (a.addend % 256 ^ a.width = 0 ↔ a.addend = 0) := by
    intro a ha
    rw [Nat.mod_eq_of_lt (addend_lt hdelta h.types a ha)]
  rcases Classical.em (Rebases c newHeader s) with hrebases | hrests
  · obtain ⟨s', hrun, hbytes⟩ := h.rebaseImage_run hrebases
    refine ⟨s', _, fun fuel hfuel => ⟨hrun fuel hfuel, h.processRelocations_run hfuel⟩, ?_⟩
    have haddress : c.member (relocVirtualAddress c.host) ≠ 0 := h.address ▸ hrebases.2.2
    rw [hbytes, addAll_filter_iff h.disjoint, ← narrow_iff hdelta h.types,
      and_iff_left fun hzero => absurd hzero haddress]
    exact forall₂_congr fun a ha => imp_congr_right fun _ => hwhole a ha
  · obtain ⟨s', hbytes, hrun⟩ := rebaseImage_rests hrests base
    refine ⟨s', _, fun fuel hfuel => ⟨hrun fuel, h.processRelocations_run hfuel⟩, ?_⟩
    have hnothing : s.bytes = addAll s.bytes (additions c.host base (libraryDelta c base) blocks) ↔
        ∀ a ∈ additions c.host base (libraryDelta c base) blocks, a.addend = 0 := by
      have hall := addAll_filter_iff (m := s.bytes) h.disjoint (p := fun _ => false)
      rw [List.filter_false] at hall
      refine hall.trans (forall₂_congr fun a ha => ?_)
      rw [hwhole a ha]
      exact ⟨fun hzero => hzero rfl, fun hzero _ => hzero⟩
    rw [hbytes, hnothing]
    constructor
    · exact fun hzero => ⟨(narrow_iff hdelta h.types).mp fun a ha _ => hzero a ha, fun _ => hzero⟩
    · rintro ⟨-, hunplaced⟩
      by_cases hsame : libraryDelta c base = 0
      · rw [hsame]
        exact addend_ownBase h.types
      · by_cases hempty : c.member (relocSize c.host) = 0
        · rw [h.blocks_eq_nil hempty]
          exact fun a ha => nomatch ha
        · apply hunplaced
          by_contra haddress
          apply hrests
          rw [Rebases, h.delta_eq, h.size, h.address]
          exact ⟨hsame, hempty, haddress⟩

/-- Headers for the base 0x400000, with a directory of 12 bytes at 0x2000. -/
def narrowCaller : Caller where
  host := .i386
  data := 0x1000
  source :=
    let headers := writeLE (writeLE (fun _ => 0) 0x103c 4 0x80) 0x10b4 4 0x400000
    writeLE (writeLE headers 0x1120 4 0x2000) 0x1124 4 12
  readable := fun _ => true
  virtualReserve := fun _ _ _ => 0
  virtualCommit := fun _ _ => false

/-- The image at 0x500000. Its directory has a fixup of 32 bits, and the entry. -/
def narrowImage (entry : Nat) : Machine where
  bytes :=
    let headers := writeLE (fun _ => 0) 0x5000b4 4 0x500000
    let directory := writeLE (writeLE headers 0x500120 4 0x2000) 0x500124 4 12
    let block := writeLE (writeLE directory 0x502000 4 0x3000) 0x502004 4 12
    writeLE (writeLE block 0x502008 2 0x3000) 0x50200a 2 entry
  trace := []

theorem narrowImage_low :
    SameImage narrowCaller 0x500000 0x500080 (narrowImage 0x2010)
      [⟨0x3000, [0x3000, 0x2010]⟩] where
  imageBase := by decide
  address := by decide
  size := by decide
  tiled := by decide
  total := by decide
  stop := by decide
  inside := by decide
  types := by decide
  disjoint := by decide
  directory := by decide
  behind := by decide
  entry := by decide

theorem narrowImage_high :
    SameImage narrowCaller 0x500000 0x500080 (narrowImage 0x1010)
      [⟨0x3000, [0x3000, 0x1010]⟩] where
  imageBase := by decide
  address := by decide
  size := by decide
  tiled := by decide
  total := by decide
  stop := by decide
  inside := by decide
  types := by decide
  disjoint := by decide
  directory := by decide
  behind := by decide
  entry := by decide

theorem relocations_same_iff_low :
    ∃ s' m',
      (∀ fuel, 12 < fuel →
        rebaseImage narrowCaller 0x500000 0x500080 fuel (narrowImage 0x2010) = (some (), s') ∧
          processRelocations narrowCaller 0x500000 fuel (narrowImage 0x2010).bytes = some m') ∧
      (s'.bytes = m' ↔
        NarrowAddNothing (libraryDelta narrowCaller 0x500000) [⟨0x3000, [0x3000, 0x2010]⟩] ∧
          (narrowCaller.member (relocVirtualAddress .i386) = 0 →
            ∀ a ∈ additions .i386 0x500000 (libraryDelta narrowCaller 0x500000)
              [⟨0x3000, [0x3000, 0x2010]⟩], a.addend = 0)) :=
  relocations_same_iff narrowCaller 0x500000 0x500080 (narrowImage 0x2010)
    [⟨0x3000, [0x3000, 0x2010]⟩] narrowImage_low

/-- A fixup of the high 16 bits is made by one walk only. -/
theorem relocations_differ :
    SameImage narrowCaller 0x500000 0x500080 (narrowImage 0x1010)
        [⟨0x3000, [0x3000, 0x1010]⟩] ∧
      ∃ s' m', rebaseImage narrowCaller 0x500000 0x500080 13 (narrowImage 0x1010) =
          (some (), s') ∧
        processRelocations narrowCaller 0x500000 13 (narrowImage 0x1010).bytes = some m' ∧
        s'.bytes ≠ m' := by
  have h := narrowImage_high
  have hrebases : Rebases narrowCaller 0x500080 (narrowImage 0x1010) := by
    refine ⟨?_, ?_, ?_⟩
    · decide
    · decide
    · decide
  obtain ⟨s', hrun, hbytes⟩ := h.rebaseImage_run hrebases
  refine ⟨h, s', _, hrun 13 (by decide), h.processRelocations_run (by decide), ?_⟩
  rw [hbytes]
  intro hsame
  have hnothing := (addAll_filter_iff h.disjoint).mp hsame ⟨0x503010, 2, 0x10⟩ (by decide) rfl
  exact absurd hnothing (by decide)

end WinPolyfillLoader.MemoryModule
