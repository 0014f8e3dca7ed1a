import WinPolyfillLoader.Library.Copies
import WinPolyfillLoader.MemoryModule.MappedImage

/-!
Steps 2 and 3 of `ReflectiveLoader`: the headers and the sections are copied byte by byte
from the buffer to the allocation, in the one memory that holds both. Nothing about the
sections is checked; where they overlap, the one that stands last in the table remains.
-/

namespace WinPolyfillLoader.ReflectiveLoader

open ByteMemory MemoryModule

def member (m : Bytes) (pointer : Nat) (field : Field) : Nat :=
  readLE m (pointer + field.offset) field.size

/-- The NT headers of the image at an address. -/
def ntHeaders (host : Host) (m : Bytes) (image : Nat) : Nat :=
  host.offset image (host.signExtend (member m image eLfanew))

/-- `while (uiValueA--) *(BYTE*)uiValueC++ = *(BYTE*)uiValueB++`. -/
def copyBytes (host : Host) : (uiValueA uiValueB uiValueC : Nat) → Bytes → Bytes
  | 0, _, _, m => m
  | uiValueA + 1, uiValueB, uiValueC, m =>
    copyBytes host uiValueA (host.offset uiValueB 1) (host.offset uiValueC 1)
      (Function.update m uiValueC (m uiValueB))

def copySections (host : Host) (uiLibraryAddress uiBaseAddress : Nat) :
    (uiValueE uiValueA : Nat) → Bytes → Bytes
  | 0, _, m => m
  | uiValueE + 1, uiValueA, m =>
    let uiValueB := host.offset uiBaseAddress (member m uiValueA virtualAddress)
    let uiValueC := host.offset uiLibraryAddress (member m uiValueA pointerToRawData)
    let uiValueD := member m uiValueA sizeOfRawData
    copySections host uiLibraryAddress uiBaseAddress uiValueE
      (host.offset uiValueA sizeOfSectionHeader) (copyBytes host uiValueD uiValueC uiValueB m)

/-- Step 2 behind the allocation, and step 3. -/
def mapImage (host : Host) (uiLibraryAddress uiHeaderValue uiBaseAddress : Nat) (m : Bytes) :
    Bytes :=
  let m := copyBytes host (member m uiHeaderValue sizeOfHeaders) uiLibraryAddress uiBaseAddress m
  let uiValueA := host.offset (uiHeaderValue + optionalHeader)
    (member m uiHeaderValue sizeOfOptionalHeader)
  copySections host uiLibraryAddress uiBaseAddress (member m uiHeaderValue numberOfSections)
    uiValueA m

/-- The copies for an image, by offset: its headers, then its sections in their order. -/
def pieces (headersSize : Nat) (sections : List Section) : List Copy :=
  ⟨0, 0, headersSize⟩ ::
    sections.map fun x => ⟨x.virtualAddress, x.pointerToRawData, x.sizeOfRawData⟩

def tableOffset (host : Host) (m : Bytes) (image : Nat) : Nat :=
  member m image eLfanew + optionalHeader +
    member m (ntHeaders host m image) sizeOfOptionalHeader

/-- The pieces of the image in a buffer. -/
def bufferPieces (host : Host) (m : Bytes) (buffer : Nat) (sections : List Section) : List Copy :=
  pieces (member m (ntHeaders host m buffer) sizeOfHeaders) sections

/-- The buffer of `length` bytes has headers and a section table, and all that they refer
to is in the buffer and in the image. -/
structure ImageBuffer (host : Host) (m : Bytes) (buffer length : Nat) (sections : List Section) :
    Prop where
  fits : buffer + length < host.addresses
  lfanew : member m buffer eLfanew < 2 ^ 31
  header : member m buffer eLfanew + sizeOfNtHeaders host ≤ length
  table : tableOffset host m buffer + sizeOfSectionHeader * sections.length ≤ length
  count : member m (ntHeaders host m buffer) numberOfSections = sections.length
  sectionTable : SectionsAt m (buffer + tableOffset host m buffer) sections
  sources : ∀ x ∈ bufferPieces host m buffer sections, x.source + x.length ≤ length
  destinations : ∀ x ∈ bufferPieces host m buffer sections,
    x.destination + x.length ≤ member m (ntHeaders host m buffer) sizeOfImage

variable {host : Host} {m : Bytes} {buffer length base : Nat} {sections : List Section}

theorem update_eq_blit (m : Bytes) (destination source : Nat) :
    Function.update m destination (m source) = blit m destination m source 1 := by
  funext a
  by_cases ha : a = destination
  · rw [ha, Function.update_self, blit_inside m (Nat.le_refl _) (Nat.lt_succ_self _), Nat.sub_self,
      Nat.zero_add]
  · rw [Function.update_of_ne ha, blit_outside m (by omega)]

theorem copyBytes_run {n source destination : Nat} (hsource : source + n < host.addresses)
    (hdestination : destination + n < host.addresses) (hapart : Apart destination n source n) :
    copyBytes host n source destination m = blit m destination m source n := by
  induction n generalizing source destination m with
  | zero => exact (blit_nothing m destination m source).symm
  | succ n ih =>
    have hnext : host.offset source 1 = source + 1 := offset_eq (by omega)
    have hnext' : host.offset destination 1 = destination + 1 := offset_eq (by omega)
    unfold Apart at hapart ih
    rw [copyBytes, hnext, hnext', ih (by omega) (by omega) (by omega), update_eq_blit]
    funext a
    by_cases hinside : destination ≤ a ∧ a < destination + (n + 1)
    · obtain ⟨hlow, hhigh⟩ := hinside
      rw [blit_inside _ hlow hhigh]
      rcases Nat.eq_or_lt_of_le hlow with rfl | hlater
      · rw [blit_outside _ (by omega), blit_inside _ (by omega) (by omega)]
      · have hbyte : a - (destination + 1) + (source + 1) = a - destination + source := by omega
        rw [blit_inside _ (by omega) (by omega), hbyte, blit_outside _ (by omega)]
    · rw [blit_outside _ (by omega), blit_outside _ (by omega), blit_outside _ (by omega)]

/-- A section as a copy in the memory. -/
def sectionCopy (buffer base : Nat) (x : Section) : Copy :=
  ⟨base + x.virtualAddress, buffer + x.pointerToRawData, x.sizeOfRawData⟩

theorem copySections_run {uiValueA size : Nat} (htable : SectionsAt m uiValueA sections)
    (hbuffer : buffer + length < host.addresses) (hbase : base + size < host.addresses)
    (hapart : Apart buffer length base size) (hlow : buffer ≤ uiValueA)
    (hhigh : uiValueA + sizeOfSectionHeader * sections.length ≤ buffer + length)
    (hsources : ∀ x ∈ sections, x.pointerToRawData + x.sizeOfRawData ≤ length)
    (hdestinations : ∀ x ∈ sections, x.virtualAddress + x.sizeOfRawData ≤ size) :
    copySections host buffer base sections.length uiValueA m =
      moveAll m (sections.map (sectionCopy buffer base)) := by
  induction sections generalizing uiValueA m with
  | nil => rfl
  | cons x sections ih =>
    obtain ⟨-, haddress, hraw, hpointer, hrest⟩ := htable
    have hsource := hsources x List.mem_cons_self
    have hdestination := hdestinations x List.mem_cons_self
    rw [List.length_cons, sizeOfSectionHeader] at hhigh
    unfold Apart at hapart
    have hto : host.offset base x.virtualAddress = base + x.virtualAddress := offset_eq (by omega)
    have hfrom : host.offset buffer x.pointerToRawData = buffer + x.pointerToRawData :=
      offset_eq (by omega)
    have hnext : host.offset uiValueA sizeOfSectionHeader = uiValueA + sizeOfSectionHeader := by
      apply offset_eq
      rw [sizeOfSectionHeader]
      omega
    have hcopy : copyBytes host x.sizeOfRawData (buffer + x.pointerToRawData)
        (base + x.virtualAddress) m =
          blit m (base + x.virtualAddress) m (buffer + x.pointerToRawData) x.sizeOfRawData := by
      apply copyBytes_run (by omega) (by omega)
      unfold Apart
      omega
    -- the rest of the table is in the buffer
    have hrest' : SectionsAt (blit m (base + x.virtualAddress) m (buffer + x.pointerToRawData)
        x.sizeOfRawData) (uiValueA + sizeOfSectionHeader) sections := by
      apply sectionsAt_eq hrest
      intro j hj
      rw [sizeOfSectionHeader] at hj ⊢
      exact (blit_outside m (by omega)).symm
    rw [List.length_cons, copySections]
    simp only [member, haddress, hraw, hpointer]
    rw [hto, hfrom, hnext, hcopy]
    apply ih hrest'
    · omega
    · rw [sizeOfSectionHeader]
      omega
    · exact fun y hy => hsources y (List.mem_cons_of_mem x hy)
    · exact fun y hy => hdestinations y (List.mem_cons_of_mem x hy)

/-- The image before its imports and fixups, by offset: zeros under the pieces. -/
def imageBytes (host : Host) (m : Bytes) (buffer : Nat) (sections : List Section) : Bytes :=
  copyAll (fun k => m (buffer + k)) (fun _ => 0) (bufferPieces host m buffer sections)

section Buffer

variable (h : ImageBuffer host m buffer length sections)
include h

theorem ImageBuffer.ntHeaders_eq : ntHeaders host m buffer = buffer + member m buffer eLfanew := by
  have hfits := h.fits
  have hheader := h.header
  have hsign : host.signExtend (member m buffer eLfanew) = member m buffer eLfanew :=
    if_pos h.lfanew
  rw [ntHeaders, hsign]
  exact offset_eq (by omega)

theorem ImageBuffer.member_eq {m' : Bytes} (hsame : ∀ k < length, m' (buffer + k) = m (buffer + k))
    {field : Field} (hfield : field.offset + field.size ≤ sizeOfNtHeaders host) :
    member m' (ntHeaders host m buffer) field = member m (ntHeaders host m buffer) field := by
  have hheader := h.header
  rw [h.ntHeaders_eq]
  apply readLE_eq
  intro j hj
  rw [Nat.add_assoc, Nat.add_assoc]
  exact hsame _ (by omega)

theorem ImageBuffer.ntHeaders_congr {m' : Bytes}
    (hsame : ∀ k < length, m' (buffer + k) = m (buffer + k)) :
    ntHeaders host m' buffer = ntHeaders host m buffer := by
  have hheader := h.header
  have hdosHeader : eLfanew.offset + eLfanew.size ≤ sizeOfNtHeaders host := by
    cases host <;> decide
  have hlfanew : member m' buffer eLfanew = member m buffer eLfanew := by
    apply readLE_eq
    intro j hj
    rw [Nat.add_assoc]
    exact hsame _ (by omega)
  rw [ntHeaders, hlfanew, ntHeaders]

theorem ImageBuffer.congr {m' : Bytes} (hsame : ∀ k < length, m' (buffer + k) = m (buffer + k)) :
    ImageBuffer host m' buffer length sections := by
  have hheader := h.header
  have hdosHeader : eLfanew.offset + eLfanew.size ≤ sizeOfNtHeaders host := by
    cases host <;> decide
  have hlfanew : member m' buffer eLfanew = member m buffer eLfanew := by
    apply readLE_eq
    intro j hj
    rw [Nat.add_assoc]
    exact hsame _ (by omega)
  have hnt := h.ntHeaders_congr hsame
  have hvalue : ∀ field ∈ ntMembers host,
      member m' (ntHeaders host m' buffer) field = member m (ntHeaders host m buffer) field := by
    intro field hfield
    rw [hnt]
    exact h.member_eq hsame (ntMembers_inside host field hfield)
  have htable : tableOffset host m' buffer = tableOffset host m buffer := by
    rw [tableOffset, hlfanew, hvalue _ (by simp [ntMembers])]
    rfl
  have hpieces : bufferPieces host m' buffer sections = bufferPieces host m buffer sections := by
    rw [bufferPieces, hvalue _ (by simp [ntMembers])]
    rfl
  constructor
  · exact h.fits
  · exact hlfanew ▸ h.lfanew
  · exact hlfanew ▸ h.header
  · exact htable ▸ h.table
  · rw [hvalue _ (by simp [ntMembers])]
    exact h.count
  · rw [htable]
    apply sectionsAt_eq h.sectionTable
    intro j hj
    have hend := h.table
    rw [Nat.add_assoc]
    exact (hsame _ (by omega)).symm
  · exact hpieces ▸ h.sources
  · rw [hpieces, hvalue _ (by simp [ntMembers])]
    exact h.destinations

theorem ImageBuffer.imageBytes_congr {m' : Bytes}
    (hsame : ∀ k < length, m' (buffer + k) = m (buffer + k)) (k : Nat) :
    imageBytes host m' buffer sections k = imageBytes host m buffer sections k := by
  have hpieces : bufferPieces host m' buffer sections = bufferPieces host m buffer sections := by
    rw [bufferPieces, h.ntHeaders_congr hsame,
      h.member_eq hsame (ntMembers_inside host _ (by simp [ntMembers])), bufferPieces]
  rw [imageBytes, imageBytes, hpieces]
  apply copyAll_congr
  intro x hx j hj hjn
  have hsource := h.sources x hx
  exact hsame j (by omega)

theorem ImageBuffer.headersFit :
    member m (ntHeaders host m buffer) sizeOfHeaders ≤ length ∧
      member m (ntHeaders host m buffer) sizeOfHeaders ≤
        member m (ntHeaders host m buffer) sizeOfImage := by
  have hsource := h.sources ⟨0, 0, _⟩ List.mem_cons_self
  have hdestination := h.destinations ⟨0, 0, _⟩ List.mem_cons_self
  simp only at hsource hdestination
  omega

theorem ImageBuffer.sectionFits {x : Section} (hx : x ∈ sections) :
    x.pointerToRawData + x.sizeOfRawData ≤ length ∧
      x.virtualAddress + x.sizeOfRawData ≤ member m (ntHeaders host m buffer) sizeOfImage := by
  have hpiece : ⟨x.virtualAddress, x.pointerToRawData, x.sizeOfRawData⟩ ∈
      bufferPieces host m buffer sections :=
    List.mem_cons_of_mem _ (List.mem_map_of_mem (f := fun x : Section =>
      (⟨x.virtualAddress, x.pointerToRawData, x.sizeOfRawData⟩ : Copy)) hx)
  exact ⟨h.sources _ hpiece, h.destinations _ hpiece⟩

variable (hapart : Apart buffer length base (member m (ntHeaders host m buffer) sizeOfImage))
include hapart

theorem ImageBuffer.sourcesApart :
    SourcesApart ((bufferPieces host m buffer sections).map (·.shift base buffer)) := by
  intro x hx y hy
  obtain ⟨x', hx', rfl⟩ := List.mem_map.mp hx
  obtain ⟨y', hy', rfl⟩ := List.mem_map.mp hy
  have hdestination := h.destinations x' hx'
  have hsource := h.sources y' hy'
  unfold Apart Copy.shift at *
  simp only
  omega

theorem ImageBuffer.headersCopied {k : Nat} (hk : k < length) :
    blit m base m buffer (member m (ntHeaders host m buffer) sizeOfHeaders) (buffer + k) =
      m (buffer + k) := by
  have hheaders := h.headersFit
  unfold Apart at hapart
  exact blit_outside m (by omega)

/-- A member of the NT headers is read as it was before that copy. -/
theorem ImageBuffer.member_headersCopied {field : Field} (hfield : field ∈ ntMembers host) :
    member (blit m base m buffer (member m (ntHeaders host m buffer) sizeOfHeaders))
      (ntHeaders host m buffer) field = member m (ntHeaders host m buffer) field := by
  have hinside := ntMembers_inside host field hfield
  have hheader := h.header
  apply readLE_eq
  intro j hj
  have hplace : ntHeaders host m buffer + field.offset + j =
      buffer + (member m buffer eLfanew + field.offset + j) := by
    rw [h.ntHeaders_eq]
    omega
  rw [hplace]
  exact h.headersCopied hapart (by omega)

theorem ImageBuffer.mapImage_run
    (hbase : base + member m (ntHeaders host m buffer) sizeOfImage < host.addresses) :
    mapImage host buffer (ntHeaders host m buffer) base m =
      moveAll m ((bufferPieces host m buffer sections).map (·.shift base buffer)) := by
  have hheaders := h.headersFit
  have hfits := h.fits
  have htable := h.table
  have hcopy : copyBytes host (member m (ntHeaders host m buffer) sizeOfHeaders) buffer base m =
      blit m base m buffer (member m (ntHeaders host m buffer) sizeOfHeaders) := by
    unfold Apart at hapart
    apply copyBytes_run (by omega) (by omega)
    unfold Apart
    omega
  have hfirst : host.offset (ntHeaders host m buffer + optionalHeader)
      (member m (ntHeaders host m buffer) sizeOfOptionalHeader) =
        buffer + tableOffset host m buffer := by
    have hplace : ntHeaders host m buffer + optionalHeader +
        member m (ntHeaders host m buffer) sizeOfOptionalHeader =
          buffer + tableOffset host m buffer := by
      rw [tableOffset, h.ntHeaders_eq]
      omega
    rw [← hplace]
    exact offset_eq (by omega)
  have htable' : SectionsAt
      (blit m base m buffer (member m (ntHeaders host m buffer) sizeOfHeaders))
      (buffer + tableOffset host m buffer) sections := by
    apply sectionsAt_eq h.sectionTable
    intro j hj
    rw [Nat.add_assoc]
    exact (h.headersCopied hapart (by omega)).symm
  rw [mapImage]
  simp only [hcopy]
  rw [h.member_headersCopied hapart (by simp [ntMembers]),
    h.member_headersCopied hapart (by simp [ntMembers]), h.count, hfirst,
    copySections_run htable' hfits hbase hapart (by omega) (by omega)
      (fun x hx => (h.sectionFits hx).1) (fun x hx => (h.sectionFits hx).2), bufferPieces, pieces,
    List.map_cons, List.map_map]
  rfl

theorem ImageBuffer.maps
    (hbase : base + member m (ntHeaders host m buffer) sizeOfImage < host.addresses)
    (hzero : ∀ k < member m (ntHeaders host m buffer) sizeOfImage, m (base + k) = 0) :
    (∀ k < member m (ntHeaders host m buffer) sizeOfImage,
      mapImage host buffer (ntHeaders host m buffer) base m (base + k) =
        imageBytes host m buffer sections k) ∧
    ∀ a, a < base ∨ base + member m (ntHeaders host m buffer) sizeOfImage ≤ a →
      mapImage host buffer (ntHeaders host m buffer) base m a = m a := by
  rw [h.mapImage_run hapart hbase, moveAll_eq (h.sourcesApart hapart)]
  constructor
  · intro k hk
    rw [copyAll_shift, imageBytes, copyAll_byte, copyAll_byte, hzero k hk]
  · intro a ha
    apply copyAll_uncovered
    intro x hx
    obtain ⟨y, hy, rfl⟩ := List.mem_map.mp hx
    have hdestination := h.destinations y hy
    rw [Bool.eq_false_iff]
    intro hcovers
    obtain ⟨hlow, hhigh⟩ := covers_iff.mp hcovers
    simp only [Copy.shift] at hlow hhigh
    omega

end Buffer

/-- The image is made of the pieces, where a later one covers an earlier one and zeros are
left between them; no other byte is changed. -/
theorem mapImage_image (host : Host) (m : Bytes) (buffer length base : Nat)
    (sections : List Section) (h : ImageBuffer host m buffer length sections)
    (hbase : base + member m (ntHeaders host m buffer) sizeOfImage < host.addresses)
    (hapart : Apart buffer length base (member m (ntHeaders host m buffer) sizeOfImage))
    (hzero : ∀ k < member m (ntHeaders host m buffer) sizeOfImage, m (base + k) = 0) :
    (∀ k < member m (ntHeaders host m buffer) sizeOfImage,
      mapImage host buffer (ntHeaders host m buffer) base m (base + k) =
        imageBytes host m buffer sections k) ∧
    ∀ a, a < base ∨ base + member m (ntHeaders host m buffer) sizeOfImage ≤ a →
      mapImage host buffer (ntHeaders host m buffer) base m a = m a :=
  h.maps hapart hbase hzero

/-- Fields of a memory, with their sizes and values. -/
def storeWords (m : Bytes) (words : List (Nat × Nat × Nat)) : Bytes :=
  words.foldl (fun m word => writeLE m word.1 word.2.1 word.2.2) m

theorem storeWords_outside {a : Nat} {words : List (Nat × Nat × Nat)} {m : Bytes}
    (h : ∀ word ∈ words, a < word.1 ∨ word.1 + word.2.1 ≤ a) : storeWords m words a = m a := by
  rw [storeWords]
  induction words generalizing m with
  | nil => rfl
  | cons word words ih =>
    rw [List.foldl_cons, ih fun w hw => h w (List.mem_cons_of_mem word hw)]
    exact writeLE_outside m (h word List.mem_cons_self)

/-- An image in a buffer at `0x40000`: one section with an address to be relocated, an import
directory and a relocation directory. -/
def imageWords : List (Nat × Nat × Nat) :=
  [(0x4003c, 4, 0x40), (0x40046, 2, 1), (0x40054, 2, 0xe0), (0x40068, 4, 0x1010),
    (0x40074, 4, 0x400000), (0x40090, 4, 0x2000), (0x40094, 4, 0x200), (0x400c0, 4, 0x1100),
    (0x400e0, 4, 0x1180), (0x400e4, 4, 12), (0x40144, 4, 0x1000), (0x40148, 4, 0x1a0),
    (0x4014c, 4, 0x200), (0x40200, 4, 0x401010), (0x40300, 4, 0x1130), (0x4030c, 4, 0x1150),
    (0x40310, 4, 0x1140), (0x40330, 4, 0x80000002), (0x40334, 4, 0x1160),
    (0x40340, 4, 0x80000002), (0x40344, 4, 0x1160), (0x40380, 4, 0x1000), (0x40384, 4, 12),
    (0x40388, 2, 0x3000)]

def sampleSections : List Section := [⟨0, 0x1000, 0x1a0, 0x200⟩]

theorem mapImage_image_sample :
    member (storeWords (fun _ => 0) imageWords)
      (ntHeaders .i386 (storeWords (fun _ => 0) imageWords) 0x40000) sizeOfImage = 0x2000 ∧
    (∀ k < 0x2000, mapImage .i386 0x40000 0x40040 0x50000 (storeWords (fun _ => 0) imageWords)
      (0x50000 + k) = imageBytes .i386 (storeWords (fun _ => 0) imageWords) 0x40000
        sampleSections k) ∧
    ∀ a, a < 0x50000 ∨ 0x52000 ≤ a → mapImage .i386 0x40000 0x40040 0x50000
      (storeWords (fun _ => 0) imageWords) a = storeWords (fun _ => 0) imageWords a := by
  have hheader : ntHeaders .i386 (storeWords (fun _ => 0) imageWords) 0x40000 = 0x40040 := by
    decide +kernel
  have hsize : member (storeWords (fun _ => 0) imageWords) 0x40040 sizeOfImage = 0x2000 := by
    decide +kernel
  have hbuffer : ImageBuffer .i386 (storeWords (fun _ => 0) imageWords) 0x40000 0x3a0
      sampleSections := by
    constructor <;> decide +kernel
  have himage := mapImage_image .i386 (storeWords (fun _ => 0) imageWords) 0x40000 0x3a0 0x50000
    sampleSections hbuffer
  rw [hheader, hsize] at himage ⊢
  refine ⟨rfl, himage (by decide) (by decide) fun k _ => ?_⟩
  have hbelow : ∀ word ∈ imageWords, word.1 + word.2.1 ≤ 0x50000 := by decide +kernel
  exact storeWords_outside fun word hword =>
    Or.inr (Nat.le_trans (hbelow word hword) (Nat.le_add_right 0x50000 k))

end WinPolyfillLoader.ReflectiveLoader
