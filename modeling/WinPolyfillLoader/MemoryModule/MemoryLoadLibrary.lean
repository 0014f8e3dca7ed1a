import Mathlib.Data.Nat.Bitwise
import WinPolyfillLoader.MemoryModule.Machine

/-!
`MemoryLoadLibrary`. The loops take fuel; `none` means that they still run, in
the machine that they have reached.
-/

namespace WinPolyfillLoader.MemoryModule

open ByteMemory

/-- `AlignValueUp`, in `size_t`. -/
def alignValueUp (host : Host) (value alignment : Nat) : Nat :=
  let mask := (alignment + host.addresses - 1) % host.addresses
  Nat.ldiff ((value + mask) % host.addresses) mask

def Caller.oldHeader (c : Caller) : Nat :=
  c.host.offset c.data
    (c.host.signExtend (readLE c.source (c.data + eLfanew.offset) eLfanew.size))

def Caller.newHeader (c : Caller) (base : Nat) : Nat :=
  c.host.offset base
    (c.host.signExtend (readLE c.source (c.data + eLfanew.offset) eLfanew.size))

def probe (c : Caller) (s : Machine) (pointer : Nat) (field : Field) :
    Except (NtStatus × Machine) (Nat × Machine) :=
  match load c.readable c.source (pointer + field.offset) field.size with
  | none => .error (statusAccessViolation, s)
  | some value => .ok (value, s.note (.readBuffer (pointer + field.offset) field.size))

def checkParameters (c : Caller) (s : Machine) : Except (NtStatus × Machine) Machine := do
  let (magic, s) ← probe c s c.data eMagic
  if magic ≠ imageDosSignature then throw (statusInvalidImageFormat, s)
  let (_, s) ← probe c s c.data eLfanew
  let (signature, s) ← probe c s c.oldHeader ntSignature
  if signature ≠ imageNtSignature then throw (statusInvalidImageFormat, s)
  let (alignment, s) ← probe c s c.oldHeader sectionAlignment
  if alignment % 2 = 1 then throw (statusInvalidImageFormat, s)
  let (machine, s) ← probe c s c.oldHeader fileMachine
  if machine ≠ c.host.machine then throw (statusImageMachineTypeMismatch, s)
  let (characteristics, s) ← probe c s c.oldHeader fileCharacteristics
  if characteristics &&& imageFileDll = 0 then throw (statusNotSupported, s)
  return s

structure Accepted (c : Caller) : Prop where
  magic : load c.readable c.source (c.data + eMagic.offset) eMagic.size = some imageDosSignature
  lfanew : ∃ v, load c.readable c.source (c.data + eLfanew.offset) eLfanew.size = some v
  signature : load c.readable c.source (c.oldHeader + ntSignature.offset) ntSignature.size =
    some imageNtSignature
  alignment : ∃ v, load c.readable c.source (c.oldHeader + sectionAlignment.offset)
    sectionAlignment.size = some v ∧ v % 2 = 0
  machine : load c.readable c.source (c.oldHeader + fileMachine.offset) fileMachine.size =
    some c.host.machine
  dll : ∃ v, load c.readable c.source (c.oldHeader + fileCharacteristics.offset)
    fileCharacteristics.size = some v ∧ v &&& imageFileDll ≠ 0

def checkTrace (c : Caller) : List Access :=
  [.readBuffer (c.data + eMagic.offset) eMagic.size,
    .readBuffer (c.data + eLfanew.offset) eLfanew.size,
    .readBuffer (c.oldHeader + ntSignature.offset) ntSignature.size,
    .readBuffer (c.oldHeader + sectionAlignment.offset) sectionAlignment.size,
    .readBuffer (c.oldHeader + fileMachine.offset) fileMachine.size,
    .readBuffer (c.oldHeader + fileCharacteristics.offset) fileCharacteristics.size]

theorem probe_some {c : Caller} {pointer value : Nat} {field : Field}
    (h : load c.readable c.source (pointer + field.offset) field.size = some value)
    (s : Machine) :
    probe c s pointer field =
      .ok (value, s.note (.readBuffer (pointer + field.offset) field.size)) := by
  unfold probe
  rw [h]

theorem checkParameters_accepted {c : Caller} (h : Accepted c) (s : Machine) :
    checkParameters c s = .ok { s with trace := s.trace ++ checkTrace c } := by
  obtain ⟨_, hlfanew⟩ := h.lfanew
  obtain ⟨_, halignment, heven⟩ := h.alignment
  obtain ⟨_, hdll, hset⟩ := h.dll
  simp [checkParameters, probe_some h.magic, probe_some hlfanew, probe_some h.signature,
    probe_some halignment, heven, probe_some h.machine, probe_some hdll, hset, checkTrace,
    Machine.note, bind, Except.bind, pure, Except.pure]

/-- A member of the NT headers of the buffer. -/
def Caller.member (c : Caller) (field : Field) : Nat :=
  readLE c.source (c.oldHeader + field.offset) field.size

/-- The machine after a member of the NT headers of the buffer was read. -/
def Machine.consult (c : Caller) (s : Machine) (field : Field) : Machine :=
  s.note (.readBuffer (c.oldHeader + field.offset) field.size)

@[simp] theorem consult_trace (c : Caller) (s : Machine) (field : Field) :
    (s.consult c field).trace =
      s.trace ++ [.readBuffer (c.oldHeader + field.offset) field.size] := rfl

/-- The first attempt to reserve the image, at its own base unless it is dynamic. -/
def reservePreferred (c : Caller) (s : Machine) : Nat × Machine :=
  let s := s.consult c dllCharacteristics
  if c.member dllCharacteristics &&& imageDllcharacteristicsDynamicBase = 0 then
    ((s.consult c (imageBase c.host)).consult c sizeOfImage).reserve c 0
      (c.member (imageBase c.host)) (c.member sizeOfImage)
  else (0, s)

/-- The reservation of the image, anywhere if the first attempt has no base. -/
def reserveImage (c : Caller) (s : Machine) : Nat × Machine :=
  match reservePreferred c s with
  | (base, s) =>
    if base = 0 then (s.consult c sizeOfImage).reserve c 1 0 (c.member sizeOfImage)
    else (base, s)

/-- The copy of the headers, with the base stored in them. -/
def copyHeaders (c : Caller) (base : Nat) (s : Machine) : Machine :=
  let s := s.consult c sizeOfHeaders
  (s.copy c base c.data (c.member sizeOfHeaders)).write (c.newHeader base) (imageBase c.host) base

/-- The body of the section loop: the status that ends it, or the next state. -/
def copySection (c : Caller) (newHeader sectionHeader : Nat) (s : Machine) :
    Except NtStatus Unit × Machine :=
  let (misc, s) := s.read sectionHeader virtualSize
  let (alignment, s) := s.read newHeader sectionAlignment
  let size := alignValueUp c.host misc alignment % 2 ^ 32
  let (rawSize, s) := s.read sectionHeader sizeOfRawData
  if size < rawSize then (.error statusInvalidImageFormat, s)
  else
    let (base, s) := s.read newHeader (imageBase c.host)
    let (address, s) := s.read sectionHeader virtualAddress
    let (dest, s) := s.commit c (c.host.offset base address) size
    if dest = 0 then (.error statusNoMemory, s)
    else
      let (rawSize, s) := s.read sectionHeader sizeOfRawData
      if rawSize ≠ 0 then
        let (pointer, s) := s.read sectionHeader pointerToRawData
        let (rawSize, s) := s.read sectionHeader sizeOfRawData
        (.ok (), s.copy c dest (c.host.offset c.data pointer) rawSize)
      else (.ok (), s)

theorem copySection_eq (c : Caller) (newHeader sectionHeader : Nat) (s : Machine) :
    copySection c newHeader sectionHeader s =
      let size := alignValueUp c.host (s.value sectionHeader virtualSize)
        (s.value newHeader sectionAlignment) % 2 ^ 32
      let s₁ := ((s.touch sectionHeader virtualSize).touch newHeader sectionAlignment).touch
        sectionHeader sizeOfRawData
      let address := c.host.offset (s.value newHeader (imageBase c.host))
        (s.value sectionHeader virtualAddress)
      let commit := Machine.commit c
        ((s₁.touch newHeader (imageBase c.host)).touch sectionHeader virtualAddress) address size
      let s₂ := commit.2.touch sectionHeader sizeOfRawData
      if size < s.value sectionHeader sizeOfRawData then (.error statusInvalidImageFormat, s₁)
      else if commit.1 = 0 then (.error statusNoMemory, commit.2)
      else if s₂.value sectionHeader sizeOfRawData ≠ 0 then
        (.ok (), ((s₂.touch sectionHeader pointerToRawData).touch sectionHeader sizeOfRawData).copy c
          commit.1 (c.host.offset c.data (s₂.value sectionHeader pointerToRawData))
          (s₂.value sectionHeader sizeOfRawData))
      else (.ok (), s₂) := rfl

/-- The section loop, from section `i` on. -/
def copySections (c : Caller) (newHeader : Nat) :
    Nat → Nat → Nat → Machine → Option NtStatus × Machine
  | 0, _, _, s => (none, s)
  | fuel + 1, i, sectionHeader, s =>
    let (count, s) := s.read newHeader numberOfSections
    if i < count then
      match copySection c newHeader sectionHeader s with
      | (.error status, s) => (some status, s)
      | (.ok _, s) =>
        copySections c newHeader fuel (i + 1) (sectionHeader + sizeOfSectionHeader) s
    else (some statusSuccess, s)

theorem copySections_succ (c : Caller) (newHeader fuel i sectionHeader : Nat) (s : Machine) :
    copySections c newHeader (fuel + 1) i sectionHeader s =
      if i < s.value newHeader numberOfSections then
        match copySection c newHeader sectionHeader (s.touch newHeader numberOfSections) with
        | (.error status, s) => (some status, s)
        | (.ok _, s) =>
          copySections c newHeader fuel (i + 1) (sectionHeader + sizeOfSectionHeader) s
      else (some statusSuccess, s.touch newHeader numberOfSections) := rfl

/-- `TypeOffsetCount`, in `DWORD`. -/
def typeOffsetCount (size : Nat) : Nat := (size + 2 ^ 32 - 8) % 2 ^ 32 / 2

/-- The width of the integer that a fixup of a type changes. -/
def fixupWidth (host : Host) (type : Nat) : Option Nat :=
  if type = imageRelBasedHighlow then some 4
  else if type = imageRelBasedDir64 ∧ host.win64 = true then some 8
  else none

/-- One entry of a block: the low 12 bits are the offset, the others the type. -/
def applyFixup (c : Caller) (base delta relocation relInfo : Nat) (s : Machine) : Machine :=
  let (info, s) := s.read relInfo ⟨0, 2⟩
  match fixupWidth c.host (info / 0x1000) with
  | none => s
  | some width =>
    let (page, s) := s.read relocation blockVirtualAddress
    let (info, s) := s.read relInfo ⟨0, 2⟩
    let target := c.host.offset base (page + info % 0x1000)
    let (value, s) := s.read target ⟨0, width⟩
    s.write target ⟨0, width⟩ ((value + delta % 256 ^ width) % 256 ^ width)

theorem applyFixup_eq (c : Caller) (base delta relocation relInfo : Nat) (s : Machine) :
    applyFixup c base delta relocation relInfo s =
      let info := s.value relInfo ⟨0, 2⟩
      let s₁ := s.touch relInfo ⟨0, 2⟩
      match fixupWidth c.host (info / 0x1000) with
      | none => s₁
      | some width =>
        let target := c.host.offset base
          (s.value relocation blockVirtualAddress + info % 0x1000)
        (((s₁.touch relocation blockVirtualAddress).touch relInfo ⟨0, 2⟩).touch target
          ⟨0, width⟩).write target ⟨0, width⟩
            ((s.value target ⟨0, width⟩ + delta % 256 ^ width) % 256 ^ width) := rfl

/-- The entries of a block, from entry `i` on. -/
def applyFixups (c : Caller) (base delta relocation : Nat) :
    Nat → Nat → Nat → Machine → Option Unit × Machine
  | 0, _, _, s => (none, s)
  | fuel + 1, i, relInfo, s =>
    let (size, s) := s.read relocation sizeOfBlock
    if i < typeOffsetCount size then
      applyFixups c base delta relocation fuel (i + 1) (relInfo + 2)
        (applyFixup c base delta relocation relInfo s)
    else (some (), s)

theorem applyFixups_succ (c : Caller) (base delta relocation fuel i relInfo : Nat)
    (s : Machine) :
    applyFixups c base delta relocation (fuel + 1) i relInfo s =
      if i < typeOffsetCount (s.value relocation sizeOfBlock) then
        applyFixups c base delta relocation fuel (i + 1) (relInfo + 2)
          (applyFixup c base delta relocation relInfo (s.touch relocation sizeOfBlock))
      else (some (), s.touch relocation sizeOfBlock) := rfl

def applyBlocks (c : Caller) (base newHeader delta : Nat) :
    Nat → Nat → Machine → Option Unit × Machine
  | 0, _, s => (none, s)
  | fuel + 1, relocation, s =>
    let (address, s) := s.read newHeader (relocVirtualAddress c.host)
    let (size, s) := s.read newHeader (relocSize c.host)
    if relocation < c.host.offset base (address + size) then
      let (page, s) := s.read relocation blockVirtualAddress
      if page > 0 then
        match applyFixups c base delta relocation fuel 0 (relocation + typeOffset) s with
        | (none, s) => (none, s)
        | (some _, s) =>
          let (size, s) := s.read relocation sizeOfBlock
          applyBlocks c base newHeader delta fuel (c.host.offset relocation size) s
      else (some (), s)
    else (some (), s)

theorem applyBlocks_succ (c : Caller) (base newHeader delta fuel relocation : Nat)
    (s : Machine) :
    applyBlocks c base newHeader delta (fuel + 1) relocation s =
      let s₁ := (s.touch newHeader (relocVirtualAddress c.host)).touch newHeader
        (relocSize c.host)
      let s₂ := s₁.touch relocation blockVirtualAddress
      if relocation < c.host.offset base (s.value newHeader (relocVirtualAddress c.host) +
          s.value newHeader (relocSize c.host)) then
        if s.value relocation blockVirtualAddress > 0 then
          match applyFixups c base delta relocation fuel 0 (relocation + typeOffset) s₂ with
          | (none, s) => (none, s)
          | (some _, s) =>
            applyBlocks c base newHeader delta fuel
              (c.host.offset relocation (s.value relocation sizeOfBlock))
              (s.touch relocation sizeOfBlock)
        else (some (), s₂)
      else (some (), s₁) := rfl

def rebaseImage (c : Caller) (base newHeader fuel : Nat) (s : Machine) :
    Option Unit × Machine :=
  let (newBase, s) := s.read newHeader (imageBase c.host)
  let s := s.consult c (imageBase c.host)
  let delta := (newBase + c.host.addresses - c.member (imageBase c.host)) % c.host.addresses
  if delta ≠ 0 then
    let (address, s) := s.read newHeader (relocVirtualAddress c.host)
    let (size, s) := s.read newHeader (relocSize c.host)
    if size ≠ 0 ∧ address ≠ 0 then
      applyBlocks c base newHeader delta fuel (c.host.offset base address) s
    else (some (), s)
  else (some (), s)

theorem rebaseImage_eq (c : Caller) (base newHeader fuel : Nat) (s : Machine) :
    rebaseImage c base newHeader fuel s =
      let s₁ := (s.touch newHeader (imageBase c.host)).consult c (imageBase c.host)
      let delta := (s.value newHeader (imageBase c.host) + c.host.addresses -
        c.member (imageBase c.host)) % c.host.addresses
      let address := s.value newHeader (relocVirtualAddress c.host)
      let size := s.value newHeader (relocSize c.host)
      let s₂ := (s₁.touch newHeader (relocVirtualAddress c.host)).touch newHeader
        (relocSize c.host)
      if delta ≠ 0 then
        if size ≠ 0 ∧ address ≠ 0 then
          applyBlocks c base newHeader delta fuel (c.host.offset base address) s₂
        else (some (), s₂)
      else (some (), s₁) := rfl

/-- The part after the reservation: the status and `*MemoryModuleHandle`. -/
def mapImage (c : Caller) (fuel base : Nat) (s : Machine) : Option (NtStatus × Nat) × Machine :=
  let newHeader := c.newHeader base
  let (optionalSize, s) := (copyHeaders c base s).read newHeader sizeOfOptionalHeader
  match copySections c newHeader fuel 0 (newHeader + optionalHeader + optionalSize) s with
  | (none, s) => (none, s)
  | (some status, s) =>
    if !ntSuccess status then (some (status, 0), s)
    else
      match rebaseImage c base newHeader fuel s with
      | (none, s) => (none, s)
      | (some _, s) => (some (status, base), s)

theorem mapImage_eq (c : Caller) (fuel base : Nat) (s : Machine) :
    mapImage c fuel base s =
      let newHeader := c.newHeader base
      let s₁ := copyHeaders c base s
      match copySections c newHeader fuel 0
        (newHeader + optionalHeader + s₁.value newHeader sizeOfOptionalHeader)
        (s₁.touch newHeader sizeOfOptionalHeader) with
      | (none, s) => (none, s)
      | (some status, s) =>
        if !ntSuccess status then (some (status, 0), s)
        else
          match rebaseImage c base newHeader fuel s with
          | (none, s) => (none, s)
          | (some _, s) => (some (status, base), s) := rfl

def memoryLoadLibrary (c : Caller) (fuel : Nat) (s : Machine) :
    Option (NtStatus × Nat) × Machine :=
  match checkParameters c s with
  | .error (status, s) => (some (status, 0), s)
  | .ok s =>
    match reserveImage c s with
    | (base, s) =>
      if base = 0 then (some (statusNoMemory, 0), s)
      else mapImage c fuel base s

theorem copySections_status {c : Caller} {newHeader fuel i sectionHeader : Nat} {s s' : Machine}
    {status : NtStatus}
    (h : copySections c newHeader fuel i sectionHeader s = (some status, s'))
    (hsuccess : ntSuccess status = true) : status = statusSuccess := by
  induction fuel generalizing i sectionHeader s with
  | zero => cases h
  | succ fuel ih =>
    rw [copySections_succ] at h
    split at h
    · rcases hcopy : copySection c newHeader sectionHeader (s.touch newHeader numberOfSections)
        with ⟨result, s₁⟩
      rw [hcopy] at h
      cases result with
      | error error =>
        cases h
        rw [copySection_eq] at hcopy
        dsimp only at hcopy
        split_ifs at hcopy
        · cases hcopy
          cases hsuccess
        · cases hcopy
          cases hsuccess
        · cases hcopy
        · cases hcopy
      | ok _ => exact ih h
    · cases h
      rfl

theorem bind_error {ε α β : Type} {x : Except ε α} {f : α → Except ε β} {e : ε}
    (h : x >>= f = .error e) : x = .error e ∨ ∃ a, x = .ok a ∧ f a = .error e := by
  cases x with
  | error e' =>
    cases h
    exact Or.inl rfl
  | ok a => exact Or.inr ⟨a, rfl, h⟩

theorem probe_error {c : Caller} {s s' : Machine} {pointer : Nat} {field : Field}
    {status : NtStatus} (h : probe c s pointer field = .error (status, s')) :
    ntSuccess status = false := by
  unfold probe at h
  split at h
  · cases h
    rfl
  · cases h

/-- A failed check is a failure or the mismatch of the machine type. -/
theorem checkParameters_status {c : Caller} {s s' : Machine} {status : NtStatus}
    (h : checkParameters c s = .error (status, s')) :
    ntSuccess status = false ∨ status = statusImageMachineTypeMismatch := by
  unfold checkParameters at h
  rcases bind_error h with h | ⟨⟨magic, s₁⟩, -, h⟩
  · exact Or.inl (probe_error h)
  dsimp only at h
  split at h
  · cases h
    exact Or.inl rfl
  rcases bind_error h with h | ⟨⟨lfanew, s₂⟩, -, h⟩
  · exact Or.inl (probe_error h)
  rcases bind_error h with h | ⟨⟨signature, s₃⟩, -, h⟩
  · exact Or.inl (probe_error h)
  dsimp only at h
  split at h
  · cases h
    exact Or.inl rfl
  rcases bind_error h with h | ⟨⟨alignment, s₄⟩, -, h⟩
  · exact Or.inl (probe_error h)
  dsimp only at h
  split at h
  · cases h
    exact Or.inl rfl
  rcases bind_error h with h | ⟨⟨machine, s₅⟩, -, h⟩
  · exact Or.inl (probe_error h)
  dsimp only at h
  split at h
  · cases h
    exact Or.inr rfl
  rcases bind_error h with h | ⟨⟨characteristics, s₆⟩, -, h⟩
  · exact Or.inl (probe_error h)
  dsimp only at h
  split at h
  · cases h
    exact Or.inl rfl
  · cases h

/-- `*MemoryModuleHandle` is set exactly when the status says so. -/
theorem memoryLoadLibrary_handle {c : Caller} {fuel handle : Nat} {s s' : Machine}
    {status : NtStatus} (h : memoryLoadLibrary c fuel s = (some (status, handle), s')) :
    handle ≠ 0 ↔ ntSuccess status = true ∧ status ≠ statusImageMachineTypeMismatch := by
  unfold memoryLoadLibrary at h
  split at h
  next code _ hcheck =>
    cases h
    apply iff_of_false (fun h => h rfl)
    rintro ⟨hok, hmachine⟩
    rcases checkParameters_status hcheck with hfails | hmismatch
    · rw [hfails] at hok
      cases hok
    · exact hmachine hmismatch
  next =>
    split at h
    next base s₁ hreserve =>
      split at h
      · cases h
        exact iff_of_false (fun h => h rfl) (fun h => absurd h.1 (by decide))
      next hbase =>
        rw [mapImage_eq] at h
        dsimp only at h
        split at h
        · cases h
        next code _ hsections =>
          split at h
          next hfails =>
            cases h
            refine iff_of_false (fun h => h rfl) fun h => ?_
            rw [h.1] at hfails
            cases hfails
          next hok =>
            split at h
            · cases h
            · cases h
              have hsuccess : ntSuccess status = true := by simpa using hok
              obtain rfl := copySections_status hsections hsuccess
              exact iff_of_true hbase ⟨rfl, by decide⟩

end WinPolyfillLoader.MemoryModule
