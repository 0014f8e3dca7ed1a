import WinPolyfillLoader.MemoryModule.Accesses

/-!
`RtlIsValidImageBuffer` of `Utils.cpp` against what `MemoryLoadLibrary` reads. The
check adds up the sizes of the raw data and never looks where they are, so the
size that it reports need not cover a section that is copied.
-/

namespace WinPolyfillLoader.MemoryModule

open ByteMemory

/-- Further members of the NT headers; the security directory is behind an
optional header of either kind. -/
def optionalMagic : Field := ⟨optionalHeader, 2⟩
def checkSum : Field := ⟨optionalHeader + 64, 4⟩
def securitySize (dataDirectory : Nat) : Field := ⟨optionalHeader + dataDirectory + 8 * 4 + 4, 4⟩

def imageNtOptionalHdr32Magic : Nat := 0x10b
def imageNtOptionalHdr64Magic : Nat := 0x20b

/-- A read of the buffer; `none` is an access violation. -/
def Caller.load (c : Caller) (pointer : Nat) (field : Field) : Option Nat :=
  ByteMemory.load c.readable c.source (pointer + field.offset) field.size

/-- `ProbeForRead`: only the page of the first byte is queried. -/
def probeForRead (c : Caller) (pointer size : Nat) : Bool := size = 0 || c.readable pointer

/-- `CalcCheckSum`, from the sum so far. -/
def calcCheckSum (c : Caller) : Nat → Nat → Nat → Option Nat
  | 0, _, sum => some ((sum % 2 ^ 16 + sum / 2 ^ 16) % 2 ^ 16)
  | wordCount + 1, ptr, sum => do
    let word ← c.load ptr ⟨0, 2⟩
    let sum := (sum + word) % 2 ^ 32
    calcCheckSum c wordCount (ptr + 2)
      (if sum / 2 ^ 16 ≠ 0 then sum % 2 ^ 16 + sum / 2 ^ 16 else sum)

/-- One of the two subtractions of `CheckSumBufferedFile`. -/
def subtractWord (calcSum word : Nat) : Nat :=
  if word ≤ calcSum % 2 ^ 16 then calcSum - word
  else (calcSum % 2 ^ 16 + 2 ^ 16 - word) % 2 ^ 16 - 1

def checkSumBufferedFile (c : Caller) (bufferLength hdrSum : Nat) : Option Bool := do
  let calcSum ← calcCheckSum c ((bufferLength + 1) % 2 ^ 32 / 2) c.data 0
  let calcSum := subtractWord (subtractWord calcSum (hdrSum % 2 ^ 16)) (hdrSum / 2 ^ 16)
  return hdrSum = (calcSum + bufferLength) % 2 ^ 32

/-- The loop over the section table, in `size_t`. -/
def addRawSizes (c : Caller) : Nat → Nat → Nat → Option Nat
  | 0, _, sizeofImage => some sizeofImage
  | sections + 1, pointer, sizeofImage => do
    let rawSize ← c.load pointer sizeOfRawData
    addRawSizes c sections (pointer + sizeOfSectionHeader)
      ((sizeofImage + rawSize) % c.host.addresses)

/-- The offset of `DataDirectory` in the optional header that a magic stands for. -/
def dataDirectoryOffset (magic : Nat) : Option Nat :=
  if magic = imageNtOptionalHdr32Magic then some 96
  else if magic = imageNtOptionalHdr64Magic then some 112
  else none

/-- `SizeofImage` and `CheckSum`; `none` if the magic is unknown or a read or a
probe raises an exception. -/
def measureImage (c : Caller) (ntHeader : Nat) : Option (Nat × Nat) := do
  let magic ← c.load ntHeader optionalMagic
  let dataDirectory ← dataDirectoryOffset magic
  let optionalSize ← c.load ntHeader sizeOfOptionalHeader
  let headersSize ← c.load ntHeader sizeOfHeaders
  let sections ← c.load ntHeader numberOfSections
  let pointer := ntHeader + optionalHeader + optionalSize
  if !probeForRead c pointer (sections * sizeOfSectionHeader) then none
  else
    let sizeofImage ← addRawSizes c sections pointer headersSize
    let security ← c.load ntHeader (securitySize dataDirectory)
    let sum ← c.load ntHeader checkSum
    return ((sizeofImage + security) % c.host.addresses, sum)

/-- `RtlIsValidImageBuffer`: the result and `*Size`. `ntHeader` is what
`RtlImageNtHeader` of ntdll returns for the buffer, null if it fails. -/
def rtlIsValidImageBuffer (c : Caller) (ntHeader : Nat) : Bool × Nat :=
  if ntHeader = 0 then (false, 0)
  else
    match measureImage c ntHeader with
    | none => (false, 0)
    | some (sizeofImage, sum) =>
      if !probeForRead c c.data sizeofImage then (false, 0)
      else if sum = 0 then (true, sizeofImage)
      else ((checkSumBufferedFile c (sizeofImage % 2 ^ 32) sum).getD false, sizeofImage)

/-- What is relied on of `RtlImageNtHeader`: it has read both signatures of a
buffer whose NT headers it returns. -/
structure ImageNtHeader (c : Caller) (ntHeader : Nat) : Prop where
  pointer : ntHeader = c.oldHeader
  magic : c.load c.data eMagic = some imageDosSignature
  lfanew : ∃ v, c.load c.data eLfanew = some v
  signature : c.load c.oldHeader ntSignature = some imageNtSignature

/-- Every byte that is read from the buffer has an offset below `size`. -/
def ReadsBelow (c : Caller) (size : Nat) (trace : List Access) : Prop :=
  ∀ a n, .readBuffer a n ∈ trace → ∀ k, a ≤ k → k < a + n → c.data ≤ k ∧ k < c.data + size

/-- The headers stand below `size`, as far as they are read. -/
structure HeadersBelow (c : Caller) (size : Nat) : Prop where
  dosHeader : sizeOfDosHeader ≤ size
  signature : c.data ≤ c.oldHeader ∧ c.oldHeader + 4 ≤ c.data + size
  alignment : c.load c.oldHeader sectionAlignment = none ∨ c.oldHeader + 60 ≤ c.data + size
  characteristics : Accepted c → c.oldHeader + 96 ≤ c.data + size

/-- The headers that are copied and the raw data of each section that is copied
stand below `size`. -/
structure DataBelow (c : Caller) (size fuel : Nat) (s : Machine) : Prop where
  headers : c.member sizeOfHeaders ≤ size
  sections : EachCopied c (c.newHeader c.reservedBase)
    (fun _ x => c.data + x.pointerToRawData < c.host.addresses ∧
      x.pointerToRawData + x.sizeOfRawData ≤ size)
    fuel 0 (sectionTable c s) (headersCopied c s)

/-- The condition of one access. -/
def ReadBelow (c : Caller) (size : Nat) : Access → Prop
  | .readBuffer a n => ∀ k, a ≤ k → k < a + n → c.data ≤ k ∧ k < c.data + size
  | _ => True

variable {c : Caller} {s : Machine} {size : Nat}

theorem onTransfers_readBelow (c : Caller) (size : Nat) : OnTransfers (ReadBelow c size) where
  read := fun _ _ => trivial
  reserve := fun _ _ => trivial
  commit := fun _ _ => trivial

theorem readsBelow_iff_meets (s : Machine) :
    ReadsBelow c size s.trace ↔ Meets (ReadBelow c size) s := by
  constructor
  · intro h access hmem
    cases access with
    | readBuffer a n => exact h a n hmem
    | write a n => trivial
    | read a n => trivial
    | reserve a n => trivial
    | commit a n => trivial
  · intro h a n hmem
    exact h _ hmem

theorem readBelow_iff {a n : Nat} (hn : n ≠ 0) :
    ReadBelow c size (.readBuffer a n) ↔ c.data ≤ a ∧ a + n ≤ c.data + size := by
  constructor
  · intro h
    have hfirst := h a (Nat.le_refl a) (by omega)
    have hlast := h (a + n - 1) (by omega) (by omega)
    exact ⟨hfirst.1, by omega⟩
  · rintro ⟨hstart, hend⟩ k hk hkn
    omega

/-- A member between the signature and another one that is read. -/
theorem readBelow_between {field : Field} {limit : Nat} (hstart : c.data ≤ c.oldHeader)
    (hlimit : c.oldHeader + limit ≤ c.data + size) (hfield : field.offset + field.size ≤ limit) :
    ReadBelow c size (.readBuffer (c.oldHeader + field.offset) field.size) := by
  intro k hk hkn
  omega

theorem readBelow_headers : ReadBelow c size (.readBuffer c.data (c.member sizeOfHeaders)) ↔
    c.member sizeOfHeaders ≤ size := by
  rcases Nat.eq_zero_or_pos (c.member sizeOfHeaders) with hzero | hpos
  · rw [hzero]
    refine iff_of_true ?_ (Nat.zero_le _)
    intro k hk hkn
    omega
  · rw [readBelow_iff (Nat.ne_of_gt hpos)]
    omega

/-- A distance below 4 GiB never wraps around to the buffer itself. -/
theorem readBelow_section {pointer raw : Nat} (hpointer : pointer < 2 ^ 32) (hraw : raw ≠ 0) :
    ReadBelow c size (.readBuffer (c.host.offset c.data pointer) raw) ↔
      c.data + pointer < c.host.addresses ∧ pointer + raw ≤ size := by
  obtain ⟨n, hn, haddresses⟩ := addresses_eq c.host
  have hlimit : 2 ^ 32 ≤ c.host.addresses := by
    rw [haddresses]
    exact Nat.pow_le_pow_right (by omega) hn
  rw [readBelow_iff hraw]
  rcases Nat.lt_or_ge (c.data + pointer) c.host.addresses with hlt | hge
  · rw [offset_eq hlt]
    omega
  · have hwrap : c.host.offset c.data pointer < c.data := by
      have hmod : c.host.offset c.data pointer < c.host.addresses := Nat.mod_lt _ (by omega)
      rcases Nat.lt_or_ge c.data c.host.addresses with hdata | hdata
      · have hsub : c.host.offset c.data pointer = c.data + pointer - c.host.addresses := by
          rw [Host.offset, Nat.mod_eq_sub_mod hge, Nat.mod_eq_of_lt (by omega)]
        omega
      · omega
    refine iff_of_false ?_ ?_
    · rintro ⟨hstart, -⟩
      omega
    · rintro ⟨hlt, -⟩
      omega

theorem probe_none {pointer : Nat} {field : Field} (h : c.load pointer field = none) (s : Machine) :
    probe c s pointer field = .error (statusAccessViolation, s) := by
  unfold probe
  rw [Caller.load] at h
  rw [h]

/-- The checks that follow both signatures. -/
def checkFields (c : Caller) (s : Machine) : Except (NtStatus × Machine) Machine := do
  let (alignment, s) ← probe c s c.oldHeader sectionAlignment
  if alignment % 2 = 1 then throw (statusInvalidImageFormat, s)
  let (machine, s) ← probe c s c.oldHeader fileMachine
  if machine ≠ c.host.machine then throw (statusImageMachineTypeMismatch, s)
  let (characteristics, s) ← probe c s c.oldHeader fileCharacteristics
  if characteristics &&& imageFileDll = 0 then throw (statusNotSupported, s)
  return s

/-- The checks of the parameters behind both signatures: they refuse the buffer
after some of their reads, the fourth of which is that of the alignment, or
accept it. -/
theorem checkParameters_cases {ntHeader : Nat} (hnt : ImageNtHeader c ntHeader) (s : Machine) :
    (∃ status s' n, checkParameters c s = .error (status, s') ∧ ¬ Accepted c ∧
      s'.trace = s.trace ++ (checkTrace c).take n ∧ 3 ≤ n ∧
      (n = 3 ↔ c.load c.oldHeader sectionAlignment = none)) ∨
    (Accepted c ∧ checkParameters c s = .ok (checked c s)) := by
  obtain ⟨lfanew, hlfanew⟩ := hnt.lfanew
  rcases Classical.em (Accepted c) with haccepted | hrefused
  · exact Or.inr ⟨haccepted, checkParameters_accepted haccepted s⟩
  · apply Or.inl
    let after (n : Nat) : Machine := { s with trace := s.trace ++ (checkTrace c).take n }
    have hstart : checkParameters c s = checkFields c (after 3) := by
      simp [checkParameters, checkFields, probe_some hnt.magic, probe_some hlfanew,
        probe_some hnt.signature, checkTrace, Machine.note, bind, Except.bind, after]
    have hfourth : (after 3).note (.readBuffer (c.oldHeader + sectionAlignment.offset)
        sectionAlignment.size) = after 4 := by
      simp [after, Machine.note, checkTrace]
    have hfifth : (after 4).note (.readBuffer (c.oldHeader + fileMachine.offset)
        fileMachine.size) = after 5 := by
      simp [after, Machine.note, checkTrace]
    have hsixth : (after 5).note (.readBuffer (c.oldHeader + fileCharacteristics.offset)
        fileCharacteristics.size) = after 6 := by
      simp [after, Machine.note, checkTrace]
    rw [hstart]
    unfold checkFields
    cases halignment : c.load c.oldHeader sectionAlignment with
    | none =>
      refine ⟨statusAccessViolation, after 3, 3, ?_, hrefused, rfl, Nat.le_refl 3, by simp⟩
      simp only [probe_none halignment, bind, Except.bind]
    | some alignment =>
      have hread (n : Nat) (hn : 4 ≤ n) : 3 ≤ n ∧ (n = 3 ↔ some alignment = none) :=
        ⟨by omega, iff_of_false (by omega) (Option.some_ne_none alignment)⟩
      simp only [probe_some halignment, bind, Except.bind, hfourth]
      rcases Nat.mod_two_eq_zero_or_one alignment with heven | hodd
      · cases hmachine : c.load c.oldHeader fileMachine with
        | none =>
          refine ⟨statusAccessViolation, after 4, 4, ?_, hrefused, rfl, hread 4 (by omega)⟩
          simp only [heven, probe_none hmachine]
          rfl
        | some machine =>
          rcases Decidable.em (machine = c.host.machine) with hhost | hother
          · cases hdll : c.load c.oldHeader fileCharacteristics with
            | none =>
              refine ⟨statusAccessViolation, after 5, 5, ?_, hrefused, rfl, hread 5 (by omega)⟩
              simp only [heven, probe_some hmachine, hhost, hfifth, probe_none hdll]
              simp
            | some characteristics =>
              rcases Decidable.em (characteristics &&& imageFileDll = 0) with hexe | hflag
              · refine ⟨statusNotSupported, after 6, 6, ?_, hrefused, rfl, hread 6 (by omega)⟩
                simp only [heven, probe_some hmachine, hhost, hfifth, probe_some hdll, hsixth, hexe]
                simp
                rfl
              · exact absurd ⟨hnt.magic, hnt.lfanew, hnt.signature, ⟨alignment, halignment, heven⟩,
                  hhost ▸ hmachine, ⟨characteristics, hdll, hflag⟩⟩ hrefused
          · refine ⟨statusImageMachineTypeMismatch, after 5, 5, ?_, hrefused, rfl,
              hread 5 (by omega)⟩
            simp only [heven, probe_some hmachine, hfifth, hother, ne_eq, not_false_eq_true, if_true]
            rfl
      · refine ⟨statusInvalidImageFormat, after 4, 4, ?_, hrefused, rfl, hread 4 (by omega)⟩
        simp only [hodd]
        rfl

/-- The reads of the checks, once they are behind both signatures. -/
theorem meets_checkTrace {n : Nat} (hn : 3 ≤ n) (bytes : Bytes) :
    Meets (ReadBelow c size) ⟨bytes, (checkTrace c).take n⟩ ↔
      sizeOfDosHeader ≤ size ∧ (c.data ≤ c.oldHeader ∧ c.oldHeader + 4 ≤ c.data + size) ∧
        (n = 3 ∨ c.oldHeader + 60 ≤ c.data + size) := by
  obtain ⟨k, rfl⟩ := Nat.exists_eq_add_of_le' hn
  have htake : (checkTrace c).take (k + 3) =
      .readBuffer (c.data + eMagic.offset) eMagic.size ::
      .readBuffer (c.data + eLfanew.offset) eLfanew.size ::
      .readBuffer (c.oldHeader + ntSignature.offset) ntSignature.size ::
      [.readBuffer (c.oldHeader + sectionAlignment.offset) sectionAlignment.size,
        .readBuffer (c.oldHeader + fileMachine.offset) fileMachine.size,
        .readBuffer (c.oldHeader + fileCharacteristics.offset) fileCharacteristics.size].take k := rfl
  have hlfanew : ReadBelow c size (.readBuffer (c.data + eLfanew.offset) eLfanew.size) ↔
      sizeOfDosHeader ≤ size := by
    apply (readBelow_iff (n := 4) (Nat.succ_ne_zero 3)).trans
    simp only [eLfanew, sizeOfDosHeader]
    omega
  have hsignature : ReadBelow c size (.readBuffer (c.oldHeader + ntSignature.offset)
      ntSignature.size) ↔ c.data ≤ c.oldHeader ∧ c.oldHeader + 4 ≤ c.data + size :=
    readBelow_iff (Nat.succ_ne_zero 3)
  have hmagic (h : sizeOfDosHeader ≤ size) :
      ReadBelow c size (.readBuffer (c.data + eMagic.offset) eMagic.size) := by
    intro k hk hkn
    simp only [sizeOfDosHeader, eMagic] at h hk hkn
    omega
  unfold Meets
  simp only [htake, List.forall_mem_cons, hlfanew, hsignature]
  constructor
  · rintro ⟨-, hdos, hnt, hrest⟩
    refine ⟨hdos, hnt, ?_⟩
    cases k with
    | zero => exact Or.inl rfl
    | succ k =>
      have halignment := hrest _ List.mem_cons_self
      exact Or.inr ((readBelow_iff (Nat.succ_ne_zero 3)).mp halignment).2
  · rintro ⟨hdos, hnt, hrest⟩
    refine ⟨hmagic hdos, hdos, hnt, ?_⟩
    intro access hmem
    rcases hrest with hthree | hlimit
    · obtain rfl : k = 0 := by omega
      cases hmem
    · have hmember := List.mem_of_mem_take hmem
      simp only [List.mem_cons, List.not_mem_nil, or_false] at hmember
      rcases hmember with rfl | rfl | rfl
      · exact readBelow_between hnt.1 hlimit (by decide)
      · exact readBelow_between hnt.1 hlimit (by decide)
      · exact readBelow_between hnt.1 hlimit (by decide)

theorem transfers_readBelow_iff (hlimit : c.data ≤ c.oldHeader ∧ c.oldHeader + 96 ≤ c.data + size)
    (fuel : Nat) (s : Machine) :
    Transfers c (ReadBelow c size) fuel s ↔ DataBelow c size fuel s := by
  have hmember {field : Field} (hfield : field.offset + field.size ≤ 96) :=
    readBelow_between hlimit.1 hlimit.2 hfield
  have himageBase : (imageBase c.host).offset + (imageBase c.host).size ≤ 96 := by
    cases c.host <;> decide
  have hsections : EachCopied c (c.newHeader c.reservedBase) (TransfersMeet c (ReadBelow c size))
      fuel 0 (sectionTable c s) (headersCopied c s) ↔
      EachCopied c (c.newHeader c.reservedBase)
        (fun _ x => c.data + x.pointerToRawData < c.host.addresses ∧
          x.pointerToRawData + x.sizeOfRawData ≤ size)
        fuel 0 (sectionTable c s) (headersCopied c s) := by
    apply eachCopied_congr
    intro imageBase s sectionHeader hraw
    exact (and_iff_left trivial).trans
      (readBelow_section (readLE_lt s.bytes (sectionHeader + pointerToRawData.offset) 4) hraw)
  have hfixups : ∀ s', EachRebased c c.reservedBase (c.newHeader c.reservedBase)
      (StoreMeets c (ReadBelow c size) c.reservedBase) fuel s' := by
    intro s'
    apply eachRebased_of_forall
    exact fun _ => trivial
  constructor
  · intro h
    exact ⟨readBelow_headers.mp h.headers.1, hsections.mp h.sections⟩
  · intro h
    exact ⟨hmember (by decide), ⟨readBelow_headers.mpr h.headers, trivial⟩, trivial,
      hsections.mpr h.sections, fun s' _ => ⟨hmember himageBase, hfixups s'⟩⟩

theorem addRawSizes_ge {sections pointer sizeofImage total : Nat}
    (hfits : sizeofImage + sections * 2 ^ 32 < c.host.addresses)
    (h : addRawSizes c sections pointer sizeofImage = some total) :
    sizeofImage ≤ total ∧ total ≤ sizeofImage + sections * 2 ^ 32 := by
  induction sections generalizing pointer sizeofImage with
  | zero =>
    cases h
    omega
  | succ sections ih =>
    rw [addRawSizes] at h
    obtain ⟨rawSize, hload, h⟩ := Option.bind_eq_some_iff.mp h
    have hraw : rawSize < 2 ^ 32 := by
      unfold Caller.load ByteMemory.load at hload
      split at hload
      · cases hload
        exact readLE_lt c.source _ 4
      · cases hload
    have hsum : (sizeofImage + rawSize) % c.host.addresses = sizeofImage + rawSize :=
      Nat.mod_eq_of_lt (by omega)
    rw [hsum] at h
    have hrest := ih (by omega) h
    omega

/-- On a 64-bit host the size that is reported covers the headers. -/
theorem imageCheck_covers_headers (hwin64 : c.host.win64 = true) {ntHeader : Nat}
    (hpointer : ntHeader = c.oldHeader) (hvalid : rtlIsValidImageBuffer c ntHeader = (true, size)) :
    c.member sizeOfHeaders ≤ size := by
  have haddresses : c.host.addresses = 2 ^ 64 := by
    unfold Host.addresses Host.pointerSize
    rw [if_pos hwin64]
    rfl
  have hloaded {field : Field} {value : Nat} (h : c.load ntHeader field = some value) :
      value = readLE c.source (ntHeader + field.offset) field.size := by
    unfold Caller.load ByteMemory.load at h
    split at h
    · exact (Option.some.inj h).symm
    · cases h
  unfold rtlIsValidImageBuffer at hvalid
  split at hvalid
  · cases hvalid
  · cases hmeasure : measureImage c ntHeader with
    | none =>
      rw [hmeasure] at hvalid
      cases hvalid
    | some measured =>
      obtain ⟨sizeofImage, sum⟩ := measured
      have hsize : sizeofImage = size := by
        rw [hmeasure] at hvalid
        dsimp only at hvalid
        split_ifs at hvalid
        · cases hvalid
        · exact congrArg Prod.snd hvalid
        · exact congrArg Prod.snd hvalid
      subst hsize
      unfold measureImage at hmeasure
      obtain ⟨magic, -, hmeasure⟩ := Option.bind_eq_some_iff.mp hmeasure
      obtain ⟨dataDirectory, -, hmeasure⟩ := Option.bind_eq_some_iff.mp hmeasure
      obtain ⟨optionalSize, -, hmeasure⟩ := Option.bind_eq_some_iff.mp hmeasure
      obtain ⟨headersSize, hheaders, hmeasure⟩ := Option.bind_eq_some_iff.mp hmeasure
      obtain ⟨sections, hsections, hmeasure⟩ := Option.bind_eq_some_iff.mp hmeasure
      dsimp only at hmeasure
      split at hmeasure
      · cases hmeasure
      · obtain ⟨total, htotal, hmeasure⟩ := Option.bind_eq_some_iff.mp hmeasure
        obtain ⟨security, hsecurity, hmeasure⟩ := Option.bind_eq_some_iff.mp hmeasure
        obtain ⟨checkSum, -, hmeasure⟩ := Option.bind_eq_some_iff.mp hmeasure
        cases hmeasure
        have hlimit : headersSize < 2 ^ 32 ∧ sections < 2 ^ 16 ∧ security < 2 ^ 32 := by
          rw [hloaded hheaders, hloaded hsections, hloaded hsecurity]
          exact ⟨readLE_lt c.source _ 4, readLE_lt c.source _ 2, readLE_lt c.source _ 4⟩
        have hsum := addRawSizes_ge (by omega) htotal
        have hmember : c.member sizeOfHeaders = headersSize := by
          rw [hloaded hheaders, hpointer]
          rfl
        rw [hmember, haddresses, Nat.mod_eq_of_lt (by omega)]
        omega

end WinPolyfillLoader.MemoryModule
