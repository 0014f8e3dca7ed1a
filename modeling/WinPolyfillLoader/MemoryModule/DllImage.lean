import WinPolyfillLoader.MemoryModule.Relocation

/-!
The DLL images that are given to `MemoryLoadLibrary`, and the image that is to
stand at the base before its fixups: the headers with the base stored in them,
the raw data of the sections, and zeros.
-/

namespace WinPolyfillLoader.MemoryModule

open ByteMemory

/-- `e_lfanew`, as a `DWORD`. -/
def Caller.lfanew (c : Caller) : Nat :=
  readLE c.source (c.data + eLfanew.offset) eLfanew.size

def Caller.tableOffset (c : Caller) : Nat :=
  c.lfanew + optionalHeader + c.member sizeOfOptionalHeader

/-- `sizeof(IMAGE_DOS_HEADER)`. -/
def sizeOfDosHeader : Nat := 64

/-- The buffer holds a DLL image for the host, with the section table `sections`. -/
structure DllImage (c : Caller) (sections : List Section) : Prop where
  readable : ∀ k < c.member sizeOfHeaders, c.readable (c.data + k) = true
  magic : readLE c.source (c.data + eMagic.offset) eMagic.size = imageDosSignature
  signature : c.member ntSignature = imageNtSignature
  machine : c.member fileMachine = c.host.machine
  dll : c.member fileCharacteristics &&& imageFileDll ≠ 0
  alignment : ∃ k, c.member sectionAlignment = 2 ^ k
  lfanew : c.lfanew < 2 ^ 31
  buffer : c.data + c.member sizeOfHeaders < c.host.addresses
  dosHeader : sizeOfDosHeader ≤ c.member sizeOfHeaders
  ntHeaders : c.lfanew + sizeOfNtHeaders c.host ≤ c.member sizeOfHeaders
  table : c.tableOffset + sizeOfSectionHeader * sections.length ≤ c.member sizeOfHeaders
  -- the table is not in the member that is changed
  tableApart : Apart (c.lfanew + (imageBase c.host).offset) (imageBase c.host).size
    c.tableOffset (sizeOfSectionHeader * sections.length)
  count : c.member numberOfSections = sections.length
  sectionTable : SectionsAt c.source (c.data + c.tableOffset) sections
  headers : c.member sizeOfHeaders ≤ c.member sizeOfImage
  fits : ∀ x ∈ sections,
    x.Fits (c.member sectionAlignment) (c.member sizeOfHeaders) (c.member sizeOfImage)
  apart : sections.Pairwise RawApart

/-- The headers of the buffer with another base, by offset. -/
def mappedHeaders (c : Caller) (base : Nat) : Bytes :=
  writeLE (fun k => c.source (c.data + k)) (c.lfanew + (imageBase c.host).offset)
    (imageBase c.host).size base

def mappedImage (c : Caller) (base : Nat) (sections : List Section) : Bytes := fun k =>
  if k < c.member sizeOfHeaders then mappedHeaders c base k
  else
    match sections.find? fun x => x.virtualAddress ≤ k ∧ k < x.virtualAddress + x.sizeOfRawData with
    | some x => c.source (k - x.virtualAddress + c.host.offset c.data x.pointerToRawData)
    | none => 0

/-- The base that the reservation returns. -/
def Caller.reservedBase (c : Caller) : Nat :=
  let preferred :=
    if c.member dllCharacteristics &&& imageDllcharacteristicsDynamicBase = 0 then
      c.virtualReserve 0 (c.member (imageBase c.host)) (c.member sizeOfImage)
    else 0
  if preferred = 0 then c.virtualReserve 1 0 (c.member sizeOfImage) else preferred

/-- The base relocation directory of the image is absent or tiled by `blocks`.
Their fixups change integers behind the headers, apart from each other and from
the directory. -/
structure Relocations (c : Caller) (base : Nat) (sections : List Section) (blocks : List Block) :
    Prop where
  absent : c.member (relocVirtualAddress c.host) = 0 → blocks = []
  total : c.member (relocVirtualAddress c.host) ≠ 0 →
    totalSize blocks = c.member (relocSize c.host)
  tiled : BlocksAt (mappedImage c base sections) (c.member (relocVirtualAddress c.host)) blocks
  inside : c.member (relocVirtualAddress c.host) + c.member (relocSize c.host) ≤
    c.member sizeOfImage
  apart : (fixups c.host blocks).Pairwise fun f g => Apart f.target f.width g.target g.width
  behind : ∀ f ∈ fixups c.host blocks, c.member sizeOfHeaders ≤ f.target ∧
    f.target + f.width ≤ c.member sizeOfImage
  clear : ∀ f ∈ fixups c.host blocks, Apart f.target f.width
    (c.member (relocVirtualAddress c.host)) (c.member (relocSize c.host))

variable {c : Caller} {sections : List Section}

theorem oldHeader_eq (h : DllImage c sections) : c.oldHeader = c.data + c.lfanew := by
  have hbuffer := h.buffer
  have hheaders := h.ntHeaders
  have hsign : c.host.signExtend c.lfanew = c.lfanew := if_pos h.lfanew
  change c.host.offset c.data (c.host.signExtend c.lfanew) = _
  rw [hsign]
  exact offset_eq (by omega)

theorem newHeader_eq (h : DllImage c sections) {base : Nat}
    (hplaced : Placed c base (c.member sizeOfImage)) : c.newHeader base = base + c.lfanew := by
  have hplace := hplaced.fits
  have hinside := h.headers
  have hheaders := h.ntHeaders
  have hsign : c.host.signExtend c.lfanew = c.lfanew := if_pos h.lfanew
  change c.host.offset base (c.host.signExtend c.lfanew) = _
  rw [hsign]
  exact offset_eq (by omega)

theorem load_headers (h : DllImage c sections) {k n : Nat} (hk : k + n ≤ c.member sizeOfHeaders) :
    load c.readable c.source (c.data + k) n = some (readLE c.source (c.data + k) n) := by
  apply if_pos
  unfold accessible
  rw [List.all_eq_true]
  intro j hj
  rw [List.mem_range] at hj
  rw [Nat.add_assoc]
  exact h.readable (k + j) (by omega)

theorem load_member (h : DllImage c sections) {field : Field} (hfield : field ∈ ntMembers c.host) :
    load c.readable c.source (c.oldHeader + field.offset) field.size = some (c.member field) := by
  have hheaders := h.ntHeaders
  have hinside := ntMembers_inside c.host field hfield
  rw [Caller.member, oldHeader_eq h, Nat.add_assoc]
  exact load_headers h (by omega)

/-- A DLL image passes the checks of the parameters if its sections are not
aligned to single bytes. -/
theorem accepted_dllImage (h : DllImage c sections) (halignment : 1 < c.member sectionAlignment) :
    Accepted c where
  magic := by
    have hdos := h.dosHeader
    rw [load_headers h (by rw [sizeOfDosHeader] at hdos; simp only [eMagic]; omega), h.magic]
  lfanew := by
    have hdos := h.dosHeader
    exact ⟨_, load_headers h (by rw [sizeOfDosHeader] at hdos; simp only [eLfanew]; omega)⟩
  signature := by
    rw [load_member h (by simp [ntMembers]), h.signature]
  alignment := by
    refine ⟨_, load_member h (by simp [ntMembers]), ?_⟩
    obtain ⟨k, hk⟩ := h.alignment
    cases k with
    | zero => omega
    | succ k =>
      rw [hk, Nat.pow_succ]
      exact Nat.mul_mod_left _ _
  machine := by
    rw [load_member h (by simp [ntMembers]), h.machine]
  dll := ⟨_, load_member h (by simp [ntMembers]), h.dll⟩

/-- The image of an amd64 DLL whose two sections are at `page` and twice `page`;
the second one has a block with two fixups of the first. -/
def sampleImage (alignment page : Nat) : List (Nat × Nat × Nat) :=
  [(0, 2, imageDosSignature), (0x3c, 4, 0x40), (0x40, 4, imageNtSignature), (0x44, 2, 0x8664),
    (0x46, 2, 2), (0x54, 2, 0xF0), (0x56, 2, imageFileDll), (0x70, 8, 0x400000),
    (0x78, 4, alignment), (0x90, 4, 3 * page), (0x94, 4, 0x200), (0x9e, 2, 0x40),
    (0xf0, 4, 2 * page), (0xf4, 4, 12),
    (0x150, 4, 0x10), (0x154, 4, page), (0x158, 4, 0x10), (0x15c, 4, 0x200),
    (0x178, 4, 0x10), (0x17c, 4, 2 * page), (0x180, 4, 0x10), (0x184, 4, 0x210),
    (0x200, 8, 0x401234), (0x208, 8, 0xC300401234),
    (0x210, 4, page), (0x214, 4, 12), (0x218, 2, 0xA000), (0x21a, 2, 0x3008)]

def sampleSections (page : Nat) : List Section :=
  [⟨0x10, page, 0x10, 0x200⟩, ⟨0x10, 2 * page, 0x10, 0x210⟩]

def sampleBlocks (page : Nat) : List Block := [⟨page, [0xA000, 0x3008]⟩]

/-- The image is in a buffer at `0x700000` and is given the base `0x10000`. -/
def sampleCaller (alignment page : Nat) : Caller where
  host := .amd64
  data := 0x700000
  source := (sampleImage alignment page).foldl
    (fun m field => writeLE m (0x700000 + field.1) field.2.1 field.2.2) fun _ => 0
  readable := fun _ => true
  virtualReserve := fun _ _ _ => 0x10000
  virtualCommit := fun _ _ => true

/-- The usual image with other values in some members. -/
def patchedCaller (members : List (Nat × Nat × Nat)) : Caller :=
  { sampleCaller 0x1000 0x1000 with
    source := members.foldl (fun m field => writeLE m (0x700000 + field.1) field.2.1 field.2.2)
      (sampleCaller 0x1000 0x1000).source }

def blankMachine : Machine := ⟨fun _ => 0, []⟩

/-- One usual image, one with byte alignment and one aligned below the page. -/
def samples : List (Nat × Nat) := [(0x1000, 0x1000), (1, 0x1000), (0x200, 0x200)]

theorem mem_samples {alignment page : Nat} : (alignment, page) ∈ samples ↔
    alignment = 0x1000 ∧ page = 0x1000 ∨ alignment = 1 ∧ page = 0x1000 ∨
      alignment = 0x200 ∧ page = 0x200 := by
  simp [samples]

theorem sample_dllImage {alignment page : Nat} (h : (alignment, page) ∈ samples) :
    DllImage (sampleCaller alignment page) (sampleSections page) := by
  have hpower : ∃ k, (sampleCaller alignment page).member sectionAlignment = 2 ^ k := by
    rcases mem_samples.mp h with ⟨rfl, rfl⟩ | ⟨rfl, rfl⟩ | ⟨rfl, rfl⟩
    · exact ⟨12, by decide +kernel⟩
    · exact ⟨0, by decide +kernel⟩
    · exact ⟨9, by decide +kernel⟩
  rcases mem_samples.mp h with ⟨rfl, rfl⟩ | ⟨rfl, rfl⟩ | ⟨rfl, rfl⟩ <;> constructor
  all_goals first
    | exact hpower
    | decide +kernel

theorem sample_placed {alignment page : Nat} (h : (alignment, page) ∈ samples) :
    Placed (sampleCaller alignment page) (sampleCaller alignment page).reservedBase
      ((sampleCaller alignment page).member sizeOfImage) := by
  rcases mem_samples.mp h with ⟨rfl, rfl⟩ | ⟨rfl, rfl⟩ | ⟨rfl, rfl⟩ <;> constructor
  all_goals first
    | exact fun _ _ _ _ _ => rfl
    | decide +kernel

theorem sample_relocations {alignment page : Nat} (h : (alignment, page) ∈ samples) :
    Relocations (sampleCaller alignment page) (sampleCaller alignment page).reservedBase
      (sampleSections page) (sampleBlocks page) := by
  rcases mem_samples.mp h with ⟨rfl, rfl⟩ | ⟨rfl, rfl⟩ | ⟨rfl, rfl⟩ <;> constructor <;>
    decide +kernel

end WinPolyfillLoader.MemoryModule
