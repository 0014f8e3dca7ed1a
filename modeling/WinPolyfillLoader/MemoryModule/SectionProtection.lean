import WinPolyfillLoader.Library.Overwrites
import WinPolyfillLoader.MemoryModule.DllImage

/-!
`MemorySetSectionProtection`. A protection is one of whole pages: where sections
share a page, it is the one of the last of them in the table. No protection is
of pages that can be written and not read.
-/

namespace WinPolyfillLoader.MemoryModule

open ByteMemory Overwrites

def pageNoaccess : Nat := 0x01
def pageReadonly : Nat := 0x02
def pageReadwrite : Nat := 0x04
def pageWritecopy : Nat := 0x08
def pageExecute : Nat := 0x10
def pageExecuteRead : Nat := 0x20
def pageExecuteReadwrite : Nat := 0x40
def pageExecuteWritecopy : Nat := 0x80
def pageNocache : Nat := 0x200

def imageScnMemNotCached : Nat := 0x04000000
def imageScnMemExecute : Nat := 0x20000000
def imageScnMemRead : Nat := 0x40000000
def imageScnMemWrite : Nat := 0x80000000

/-- The member `Characteristics` of `IMAGE_SECTION_HEADER`. -/
def sectionCharacteristics : Field := ⟨36, 4⟩

def protectionFlags (executable readable writeable : Bool) : Nat :=
  match executable, readable, writeable with
  | false, false, false => pageNoaccess
  | false, false, true => pageWritecopy
  | false, true, false => pageReadonly
  | false, true, true => pageReadwrite
  | true, false, false => pageExecute
  | true, false, true => pageExecuteWritecopy
  | true, true, false => pageExecuteRead
  | true, true, true => pageExecuteReadwrite

structure Rights where
  executable : Bool
  readable : Bool
  writeable : Bool
deriving DecidableEq, Repr

/-- The accesses that a protection allows; the modifiers above its low byte
allow none. -/
def rights (protect : Nat) : Rights :=
  let flag := protect % 0x100
  if flag = pageReadonly then ⟨false, true, false⟩
  else if flag = pageReadwrite ∨ flag = pageWritecopy then ⟨false, true, true⟩
  else if flag = pageExecute then ⟨true, false, false⟩
  else if flag = pageExecuteRead then ⟨true, true, false⟩
  else if flag = pageExecuteReadwrite ∨ flag = pageExecuteWritecopy then ⟨true, true, true⟩
  else ⟨false, false, false⟩

/-- The members of `IMAGE_SECTION_HEADER` that the protection of a section needs. -/
structure SectionHeader where
  virtualSize : Nat
  virtualAddress : Nat
  characteristics : Nat
deriving DecidableEq, Repr

def sectionHeaderAt (m : Bytes) (sectionHeader : Nat) : SectionHeader where
  virtualSize := readLE m (sectionHeader + virtualSize.offset) virtualSize.size
  virtualAddress := readLE m (sectionHeader + virtualAddress.offset) virtualAddress.size
  characteristics :=
    readLE m (sectionHeader + sectionCharacteristics.offset) sectionCharacteristics.size

/-- The accesses that the flags of a section name. -/
def SectionHeader.flags (x : SectionHeader) : Rights where
  executable := decide (x.characteristics &&& imageScnMemExecute ≠ 0)
  readable := decide (x.characteristics &&& imageScnMemRead ≠ 0)
  writeable := decide (x.characteristics &&& imageScnMemWrite ≠ 0)

def SectionHeader.address (x : SectionHeader) (host : Host) (base : Nat) : Nat :=
  host.offset base x.virtualAddress

/-- The size of a section in memory, in `SIZE_T`. -/
def SectionHeader.size (x : SectionHeader) (host : Host) (alignment : Nat) : Nat :=
  alignValueUp host x.virtualSize alignment

def SectionHeader.protect (x : SectionHeader) : Nat :=
  let protect := protectionFlags x.flags.executable x.flags.readable x.flags.writeable
  if x.characteristics &&& imageScnMemNotCached ≠ 0 then protect ||| pageNocache else protect

abbrev Pages := Nat → Nat

def touches (address size page : Nat) : Bool :=
  decide (0 < size ∧ address / pageSize ≤ page ∧ page ≤ (address + size - 1) / pageSize)

/-- `NtProtectVirtualMemory`, with its status: a success changes every page on
which the range has a byte. -/
def ntProtectVirtualMemory (status : NtStatus) (address size protect : Nat) (pages : Pages) :
    Pages :=
  if ntSuccess status then fun page => if touches address size page then protect else pages page
  else pages

/-- The status of each call, by the number of the section and the arguments. -/
abbrev ProtectStatus := (i address size protect : Nat) → NtStatus

/-- The loop over the sections, from section `i` on. -/
def protectSections (nt : ProtectStatus) (host : Host) (base alignment : Nat) :
    List SectionHeader → Nat → NtStatus → Pages → NtStatus × Pages
  | [], _, status, pages => (status, pages)
  | x :: rest, i, _, pages =>
    let address := x.address host base
    let size := x.size host alignment
    let status := nt i address size x.protect
    let pages := ntProtectVirtualMemory status address size x.protect pages
    if !ntSuccess status then (status, pages)
    else protectSections nt host base alignment rest (i + 1) status pages

/-- The section table behind the NT headers, which the protection does not change. -/
def imageSections (m : Bytes) (ntHeaders : Nat) : List SectionHeader :=
  let table := ntHeaders + optionalHeader +
    readLE m (ntHeaders + sizeOfOptionalHeader.offset) sizeOfOptionalHeader.size
  let count := readLE m (ntHeaders + numberOfSections.offset) numberOfSections.size
  (List.range count).map fun i => sectionHeaderAt m (table + i * sizeOfSectionHeader)

/-- The `SectionAlignment` of the NT headers. -/
def imageAlignment (m : Bytes) (ntHeaders : Nat) : Nat :=
  readLE m (ntHeaders + sectionAlignment.offset) sectionAlignment.size

def memorySetSectionProtection (nt : ProtectStatus) (host : Host) (m : Bytes)
    (base ntHeaders : Nat) (pages : Pages) : NtStatus × Pages :=
  protectSections nt host base (imageAlignment m ntHeaders) (imageSections m ntHeaders) 0
    statusSuccess pages

variable {nt : ProtectStatus} {host : Host} {m : Bytes} {base alignment ntHeaders : Nat}
  {status : NtStatus} {pages pages' : Pages}

def SectionHeader.covers (host : Host) (base alignment : Nat) (x : SectionHeader) (page : Nat) :
    Bool :=
  touches (x.address host base) (x.size host alignment) page

/-- After a success each section has given its protection to its pages, in order. -/
theorem protectSections_overwrites {sections : List SectionHeader} {i : Nat} {before : NtStatus}
    (h : protectSections nt host base alignment sections i before pages = (status, pages'))
    (hok : ntSuccess status = true) :
    pages' = sections.foldl
      (overwrite (SectionHeader.covers host base alignment) SectionHeader.protect) pages := by
  induction sections generalizing i before pages with
  | nil =>
    cases h
    rfl
  | cons x rest ih =>
    rw [protectSections] at h
    split at h
    · rename_i hfails
      cases h
      rw [hok] at hfails
      cases hfails
    · rename_i hgoes
      have hsuccess : ntSuccess (nt i (x.address host base) (x.size host alignment) x.protect) =
          true := by simpa using hgoes
      rw [ih h, List.foldl_cons, ntProtectVirtualMemory, if_pos hsuccess]
      rfl

/-- The section has the byte: it is in its address range. -/
def SectionHeader.Holds (host : Host) (base alignment : Nat) (x : SectionHeader) (a : Nat) :
    Prop :=
  x.address host base ≤ a ∧ a < x.address host base + x.size host alignment

theorem touches_iff {address size page : Nat} : touches address size page = true ↔
    ∃ a, address ≤ a ∧ a < address + size ∧ a / pageSize = page := by
  rw [touches, decide_eq_true_eq]
  constructor
  · rintro ⟨hsize, hfirst, hlast⟩
    rcases Nat.eq_or_lt_of_le hfirst with heq | hlt
    · exact ⟨address, Nat.le_refl _, by omega, heq⟩
    · have hdiv := Nat.div_add_mod (address + size - 1) pageSize
      unfold pageSize at *
      exact ⟨page * 0x1000, by omega, by omega, by omega⟩
  · rintro ⟨a, hle, hlt, rfl⟩
    exact ⟨by omega, Nat.div_le_div_right hle, Nat.div_le_div_right (by omega)⟩

theorem covers_iff {x : SectionHeader} {page : Nat} : x.covers host base alignment page = true ↔
    ∃ a, x.Holds host base alignment a ∧ a / pageSize = page := by
  rw [SectionHeader.covers, touches_iff]
  simp only [SectionHeader.Holds, and_assoc]

/-- What can be written can be read. -/
def Rights.granted (r : Rights) : Rights := { r with readable := r.readable || r.writeable }

theorem rights_protectionFlags (executable readable writeable : Bool) :
    rights (protectionFlags executable readable writeable) =
      (Rights.mk executable readable writeable).granted ∧
    rights (protectionFlags executable readable writeable ||| pageNocache) =
      (Rights.mk executable readable writeable).granted := by
  revert executable readable writeable
  decide

theorem rights_protect (x : SectionHeader) : rights x.protect = x.flags.granted := by
  obtain ⟨hcached, hnocache⟩ :=
    rights_protectionFlags x.flags.executable x.flags.readable x.flags.writeable
  unfold SectionHeader.protect
  split
  · exact hnocache
  · exact hcached

/-- An image with two sections on one page: the first has code, and the second
can only be written. -/
def sharedPageCaller : Caller :=
  patchedCaller [(0x70, 8, 0x10000), (0x78, 4, 0x200), (0x17c, 4, 0x1200),
    (0x16c, 4, imageScnMemExecute ||| imageScnMemRead), (0x194, 4, imageScnMemWrite)]

def sharedPageBytes : Bytes := (memoryLoadLibrary sharedPageCaller 13 blankMachine).2.bytes

/-- Its pages, when each call of `NtProtectVirtualMemory` has succeeded. -/
def sharedPages : NtStatus × Pages :=
  memorySetSectionProtection (fun _ _ _ _ => statusSuccess) .amd64 sharedPageBytes 0x10000 0x10040
    fun _ => pageReadwrite

theorem sharedPage_sections : imageSections sharedPageBytes 0x10040 =
    [⟨0x10, 0x1000, 0x60000000⟩, ⟨0x10, 0x1200, 0x80000000⟩] := by
  decide +kernel

theorem sharedPage_alignment : imageAlignment sharedPageBytes 0x10040 = 0x200 := by
  decide +kernel

theorem sharedPage_size (address characteristics : Nat) :
    SectionHeader.size ⟨0x10, address, characteristics⟩ .amd64 0x200 = 0x200 := by
  change alignValueUp .amd64 0x10 0x200 = 0x200
  decide +kernel

/-- Every byte of every section has exactly the rights of the section's flags. -/
def ProtectedPerSection (host : Host) (m : Bytes) (base ntHeaders : Nat) (pages : Pages) : Prop :=
  ∀ x ∈ imageSections m ntHeaders, ∀ a, x.Holds host base (imageAlignment m ntHeaders) a →
    rights (pages (a / pageSize)) = x.flags

end WinPolyfillLoader.MemoryModule
