import WinPolyfillLoader.Library.SharedSection
import WinPolyfillLoader.Version

/-!
`Initialize` of one copy of the library. The copies of a process share one block
through a section whose name they all build alike. A dereference of an address that
no view covers is `none`.
-/

namespace WinPolyfillLoader.Loader

open SharedSection

abbrev Word := BitVec 16

def statusObjectNameNotFound : NtStatus := 0xC0000034
def statusObjectNameCollision : NtStatus := 0xC0000035
def statusConflictingAddresses : NtStatus := 0xC0000018
def statusAlreadyInitialized : NtStatus := 0xC0000510

inductive WindowsVersion where
  | null
  | xp
  | vista
  | win7
  | win8
  | winBlue
  | win10
  | win10_1
  | win10_2
  | win11
  | invalid
deriving DecidableEq, Repr

/-- The build number without the flags of `RtlGetNtVersionNumbers`. -/
def plainBuildNumber (buildNumber : Dword) : Dword :=
  if buildNumber &&& 0xf0000000 ≠ 0 then buildNumber &&& 0xffff else buildNumber

/-- The switch of `InitializeWindowsVersion`. -/
def windowsVersionOf (nt : NtVersions) : WindowsVersion :=
  if nt.majorVersion = 5 then
    if nt.minorVersion = 1 ∧ nt.buildNumber = 2600 ∨
        nt.minorVersion = 2 ∧ nt.buildNumber = 3790 then .xp
    else .invalid
  else if nt.majorVersion = 6 then
    if nt.minorVersion = 0 then
      if nt.buildNumber = 6000 ∨ nt.buildNumber = 6001 ∨ nt.buildNumber = 6002 then .vista
      else .invalid
    else if nt.minorVersion = 1 then
      if nt.buildNumber = 7600 ∨ nt.buildNumber = 7601 then .win7 else .invalid
    else if nt.minorVersion = 2 then
      if nt.buildNumber = 9200 then .win8 else .invalid
    else if nt.minorVersion = 3 then
      if nt.buildNumber = 9600 then .winBlue else .invalid
    else .invalid
  else if nt.majorVersion = 10 then
    if nt.minorVersion ≠ 0 then .invalid
    else if 10240 ≤ nt.buildNumber then
      if 14393 ≤ nt.buildNumber then
        if 15063 ≤ nt.buildNumber then
          if 22000 ≤ nt.buildNumber then .win11 else .win10_2
        else .win10_1
      else .win10
    else .invalid
  else .invalid

def memoryModuleMakePreview (minorVersion : Word) : Word := 0x8000 ||| minorVersion

def memoryModuleIsPreview (minorVersion : Word) : Bool := 0x8000 &&& minorVersion != 0

/-- The two version constants that a copy is compiled with. -/
structure LibraryVersion where
  majorVersion : Word
  minorVersion : Word
deriving DecidableEq, Repr

def memoryModuleVersion : LibraryVersion := ⟨2, memoryModuleMakePreview 1⟩

/-- The fields of `MMP_GLOBAL_DATA` that decide what `Initialize` answers, and those that
`InitializeWindowsVersion` stores with them. -/
structure MmpGlobalData where
  majorVersion : Word
  minorVersion : Word
  ntVersions : NtVersions
  windowsVersion : WindowsVersion
  ldrDataTableEntrySize : Word
  baseAddress : Nat

def MmpGlobalData.zero : MmpGlobalData := ⟨0, 0, ⟨0, 0, 0⟩, .null, 0, 0⟩

/-- The running system and the size of the LDR entry of each of its layouts. -/
structure Platform where
  ntVersions : NtVersions
  ldrDataTableEntrySize : WindowsVersion → Dword

def Platform.runningVersions (platform : Platform) : NtVersions :=
  { platform.ntVersions with
    buildNumber := plainBuildNumber platform.ntVersions.buildNumber }

def Platform.windowsVersion (platform : Platform) : WindowsVersion :=
  windowsVersionOf platform.runningVersions

/-- The first stores of the creator, which also put the address of the block into it. -/
def storeLibraryVersion (version : LibraryVersion) (mmpGlobalDataPtr : Nat)
    (data : MmpGlobalData) : MmpGlobalData :=
  { data with
    majorVersion := version.majorVersion
    minorVersion := version.minorVersion
    baseAddress := mmpGlobalDataPtr }

/-- The stores of `InitializeWindowsVersion`. -/
def storeWindowsVersion (platform : Platform) (data : MmpGlobalData) : MmpGlobalData :=
  let version := platform.windowsVersion
  let data := { data with windowsVersion := version }
  if version ≠ .invalid then
    { data with
      ntVersions := platform.runningVersions
      ldrDataTableEntrySize := (platform.ldrDataTableEntrySize version).setWidth 16 }
  else data

/-- The test of `InitializeLockHeld` on the data of another copy. -/
def supportsVersion (version : LibraryVersion) (data : MmpGlobalData) : Bool :=
  !(data.majorVersion != version.majorVersion ||
    memoryModuleIsPreview data.minorVersion != memoryModuleIsPreview version.minorVersion ||
    (if memoryModuleIsPreview version.minorVersion then data.minorVersion != version.minorVersion
      else decide (data.minorVersion < version.minorVersion)))

/-- A status with which the kernel refuses a section, a handle or a view. It is not the
one that `MmpAllocateGlobalData` itself reports. -/
structure SectionError where
  status : NtStatus
  fails : ntSuccess status = false
  kernels : status ≠ statusAlreadyInitialized

/-- What the kernel answers in one call, as far as it is free. A view gets the address. -/
structure KernelAnswers where
  createSection : Except SectionError Unit
  openSection : Except SectionError Unit
  mapView : Except SectionError Nat

/-- The copies of one process: the sections that they share and the pointer of each. -/
structure Copies (κ : Type) where
  sections : Sections MmpGlobalData
  mmpGlobalDataPtr : κ → Nat

abbrev SectionAnswer := Except NtStatus (Nat × Sections MmpGlobalData)

def ntCreateSection (answers : KernelAnswers) (sections : Sections MmpGlobalData) :
    SectionAnswer :=
  match sections.named, answers.createSection with
  | some _, _ => .error statusObjectNameCollision
  | none, .error e => .error e.status
  | none, .ok _ => .ok (sections.next, sections.create .zero)

def ntOpenSection (answers : KernelAnswers) (sections : Sections MmpGlobalData) :
    SectionAnswer :=
  match answers.openSection, sections.named with
  | .error e, _ => .error e.status
  | .ok _, none => .error statusObjectNameNotFound
  | .ok _, some hSection => .ok (hSection, sections.openHandle hSection)

/-- A base address that is given is where the view has to go. -/
def ntMapViewOfSection (answers : KernelAnswers) (hSection baseAddress : Nat)
    (sections : Sections MmpGlobalData) : SectionAnswer :=
  match answers.mapView with
  | .error e => .error e.status
  | .ok chosen =>
    let address := if baseAddress = 0 then chosen else baseAddress
    if sections.Free address then .ok (address, sections.mapView address hSection)
    else .error statusConflictingAddresses

section Calls

variable {κ : Type} [DecidableEq κ]

/-- `MmpAllocateGlobalData` of a copy. The handle of the section that it creates stays open. -/
def mmpAllocateGlobalData (copy : κ) (answers : KernelAnswers) (s : Copies κ) :
    Option (NtStatus × Copies κ) :=
  match ntCreateSection answers s.sections with
  | .ok (hSection, sections) =>
    match ntMapViewOfSection answers hSection (s.mmpGlobalDataPtr copy) sections with
    | .ok (baseAddress, sections) =>
        some (statusSuccess,
          ⟨sections, Function.update s.mmpGlobalDataPtr copy baseAddress⟩)
    | .error status => some (status, { s with sections := sections.closeHandle hSection })
  | .error status =>
    if status = statusObjectNameCollision then
      match ntOpenSection answers s.sections with
      | .ok (hSection, sections) =>
        match ntMapViewOfSection answers hSection 0 sections with
        | .ok (baseAddress, sections) =>
          -- the address of the block is read through a view of the copy's own
          match (sections.closeHandle hSection).read baseAddress with
          | some data =>
              some (statusAlreadyInitialized,
                ⟨(sections.closeHandle hSection).unmapView baseAddress,
                  Function.update s.mmpGlobalDataPtr copy data.baseAddress⟩)
          | none => none
        | .error status => some (status, { s with sections := sections.closeHandle hSection })
      | .error status => some (status, s)
    else some (status, s)

/-- What the creator of the section stores in the block, up to the version of Windows. -/
def writeGlobalData (platform : Platform) (version : LibraryVersion) (mmpGlobalDataPtr : Nat)
    (sections : Sections MmpGlobalData) : Option (Sections MmpGlobalData) :=
  (sections.write mmpGlobalDataPtr (storeLibraryVersion version mmpGlobalDataPtr)).bind
    fun sections => sections.write mmpGlobalDataPtr (storeWindowsVersion platform)

/-- `InitializeLockHeld`. The creator gives its view up on an unknown Windows, and only that. -/
def initializeLockHeld (platform : Platform) (version : LibraryVersion) (copy : κ)
    (answers : KernelAnswers) (s : Copies κ) : Option (NtStatus × Copies κ) :=
  match mmpAllocateGlobalData copy answers s with
  | none => none
  | some (status, s) =>
    let mmpGlobalDataPtr := s.mmpGlobalDataPtr copy
    if ntSuccess status then
      match writeGlobalData platform version mmpGlobalDataPtr s.sections with
      | none => none
      | some sections =>
        match sections.read mmpGlobalDataPtr with
        | none => none
        | some data =>
          if data.windowsVersion = .invalid then
            some (statusNotSupported, { s with sections := sections.unmapView mmpGlobalDataPtr })
          else some (status, { s with sections := sections })
    else if status = statusAlreadyInitialized then
      match s.sections.read mmpGlobalDataPtr with
      | none => none
      | some data =>
        some (if supportsVersion version data then statusSuccess else statusNotSupported, s)
    else some (status, s)

/-- The call can open the section of another one and have a view of it. -/
def findsSection (answers : KernelAnswers) (sections : Sections MmpGlobalData) : Bool :=
  match ntOpenSection answers sections with
  | .ok (hSection, sections) =>
    match ntMapViewOfSection answers hSection 0 sections with
    | .ok _ => true
    | .error _ => false
  | .error _ => false

/-- What a status of the kernel says to the caller: the call has failed for good. -/
def Refusal (status : NtStatus) : Prop :=
  ntSuccess status = false ∧ status ≠ statusAlreadyInitialized

variable {platform : Platform} {version : LibraryVersion} {copy : κ} {answers : KernelAnswers}
  {s : Copies κ} {object : Nat}

theorem storeWindowsVersion_windowsVersion (data : MmpGlobalData) :
    (storeWindowsVersion platform data).windowsVersion = platform.windowsVersion := by
  unfold storeWindowsVersion
  dsimp only
  split <;> rfl

theorem storeWindowsVersion_same (platform : Platform) (data : MmpGlobalData) :
    (storeWindowsVersion platform data).majorVersion = data.majorVersion ∧
      (storeWindowsVersion platform data).minorVersion = data.minorVersion ∧
      (storeWindowsVersion platform data).baseAddress = data.baseAddress := by
  unfold storeWindowsVersion
  dsimp only
  split
  · exact ⟨rfl, rfl, rfl⟩
  · exact ⟨rfl, rfl, rfl⟩

theorem supportsVersion_own {data : MmpGlobalData}
    (hmajor : data.majorVersion = version.majorVersion)
    (hminor : data.minorVersion = version.minorVersion) :
    supportsVersion version data = true := by
  have hmin : ¬version.minorVersion < version.minorVersion := BitVec.lt_irrefl _
  unfold supportsVersion
  rw [hmajor, hminor]
  simp [hmin]

/-- What a block carries after the stores of its creator. -/
structure WrittenBy (platform : Platform) (version : LibraryVersion) (block : Nat)
    (data : MmpGlobalData) : Prop where
  majorVersion : data.majorVersion = version.majorVersion
  minorVersion : data.minorVersion = version.minorVersion
  windowsVersion : data.windowsVersion = platform.windowsVersion
  baseAddress : data.baseAddress = block

theorem writeGlobalData_of_view (platform : Platform) (version : LibraryVersion)
    {sections : Sections MmpGlobalData} {block : Nat} (hview : sections.views block = some object) :
    ∃ written, writeGlobalData platform version block sections = some written ∧
      written.named = sections.named ∧ written.views = sections.views ∧
      WrittenBy platform version block (written.contents object) := by
  obtain ⟨first, hfirst, hnamed, hviews, hcontents⟩ :=
    Sections.write_of_view (storeLibraryVersion version block) hview
  obtain ⟨written, hwritten, hnamed', hviews', hcontents'⟩ :=
    Sections.write_of_view (storeWindowsVersion platform) (hviews ▸ hview)
  have hwrite : writeGlobalData platform version block sections = some written := by
    rw [writeGlobalData, hfirst, Option.bind_some, hwritten]
  refine ⟨written, hwrite, hnamed'.trans hnamed, hviews'.trans hviews, ?_⟩
  rw [hcontents', hcontents]
  obtain ⟨hmajor, hminor, hbase⟩ := storeWindowsVersion_same platform
    (storeLibraryVersion version block (sections.contents object))
  exact ⟨hmajor, hminor, storeWindowsVersion_windowsVersion _, hbase⟩

theorem ntOpenSection_named (answers : KernelAnswers) {sections : Sections MmpGlobalData}
    (hnamed : sections.named = some object) :
    (∃ status, Refusal status ∧ ntOpenSection answers sections = .error status) ∨
      ntOpenSection answers sections = .ok (object, sections.openHandle object) := by
  unfold ntOpenSection
  rw [hnamed]
  cases answers.openSection with
  | error e => exact Or.inl ⟨e.status, ⟨e.fails, e.kernels⟩, rfl⟩
  | ok u => exact Or.inr rfl

theorem ntOpenSection_unnamed (answers : KernelAnswers) {sections : Sections MmpGlobalData}
    (hnamed : sections.named = none) :
    ∃ status, Refusal status ∧ ntOpenSection answers sections = .error status := by
  unfold ntOpenSection
  rw [hnamed]
  cases answers.openSection with
  | error e => exact ⟨e.status, ⟨e.fails, e.kernels⟩, rfl⟩
  | ok u => exact ⟨statusObjectNameNotFound, ⟨by decide, by decide⟩, rfl⟩

theorem ntMapViewOfSection_cases (answers : KernelAnswers) (hSection baseAddress : Nat)
    (sections : Sections MmpGlobalData) :
    (∃ status, Refusal status ∧
      ntMapViewOfSection answers hSection baseAddress sections = .error status) ∨
    ∃ address, sections.Free address ∧
      ntMapViewOfSection answers hSection baseAddress sections =
        .ok (address, sections.mapView address hSection) := by
  unfold ntMapViewOfSection
  cases answers.mapView with
  | error e => exact Or.inl ⟨e.status, ⟨e.fails, e.kernels⟩, rfl⟩
  | ok chosen =>
    by_cases hfree : sections.Free (if baseAddress = 0 then chosen else baseAddress)
    · exact Or.inr ⟨_, hfree, if_pos hfree⟩
    · exact Or.inl ⟨statusConflictingAddresses, ⟨by decide, by decide⟩, if_neg hfree⟩

theorem initializeLockHeld_refused {s' : Copies κ} {status : NtStatus} (hrefusal : Refusal status)
    (hrefused : mmpAllocateGlobalData copy answers s = some (status, s')) :
    initializeLockHeld platform version copy answers s = some (status, s') := by
  have hsuccess : ¬ntSuccess status = true := by
    rw [hrefusal.1]
    exact Bool.false_ne_true
  unfold initializeLockHeld
  rw [hrefused]
  dsimp only
  rw [if_neg hsuccess, if_neg hrefusal.2]

theorem initializeLockHeld_found {s' : Copies κ}
    (hfound : mmpAllocateGlobalData copy answers s = some (statusAlreadyInitialized, s')) :
    initializeLockHeld platform version copy answers s =
      (s'.sections.read (s'.mmpGlobalDataPtr copy)).map fun data =>
        (if supportsVersion version data then statusSuccess else statusNotSupported, s') := by
  have hsuccess : ¬ntSuccess statusAlreadyInitialized = true := by decide
  unfold initializeLockHeld
  rw [hfound]
  dsimp only
  rw [if_neg hsuccess, if_pos rfl]
  cases s'.sections.read (s'.mmpGlobalDataPtr copy) with
  | none => rfl
  | some data => rfl

/-- While the section is open a call either is refused or takes over the address that the
section carries. -/
theorem mmpAllocateGlobalData_named (copy : κ) (answers : KernelAnswers)
    (hnamed : s.sections.named = some object) :
    (findsSection answers s.sections = false ∧ ∃ status, Refusal status ∧
      mmpAllocateGlobalData copy answers s = some (status, s)) ∨
    (findsSection answers s.sections = true ∧
      mmpAllocateGlobalData copy answers s = some (statusAlreadyInitialized,
        ⟨s.sections, Function.update s.mmpGlobalDataPtr copy
          (s.sections.contents object).baseAddress⟩)) := by
  have hcollision : ntCreateSection answers s.sections = .error statusObjectNameCollision := by
    rw [ntCreateSection, hnamed]
  unfold mmpAllocateGlobalData findsSection
  rw [hcollision]
  dsimp only
  rw [if_pos rfl]
  rcases ntOpenSection_named answers hnamed with ⟨status, hrefusal, hopen⟩ | hopen
  · rw [hopen]
    exact Or.inl ⟨rfl, status, hrefusal, rfl⟩
  · rw [hopen]
    dsimp only
    rcases ntMapViewOfSection_cases answers object 0 (s.sections.openHandle object)
      with ⟨status, hrefusal, hmap⟩ | ⟨address, hfree, hmap⟩
    · rw [hmap]
      dsimp only
      rw [Sections.openHandle_closeHandle hnamed]
      exact Or.inl ⟨rfl, status, hrefusal, rfl⟩
    · have hread : (((s.sections.openHandle object).mapView address object).closeHandle
          object).read address = some (s.sections.contents object) :=
        Sections.read_mapView (s := (s.sections.openHandle object).closeHandle object)
      rw [hmap]
      dsimp only
      rw [hread]
      dsimp only
      rw [Sections.look_leaves hnamed hfree]
      exact Or.inr ⟨rfl, rfl⟩

theorem initializeLockHeld_named (platform : Platform) (version : LibraryVersion) (copy : κ)
    (answers : KernelAnswers) (hnamed : s.sections.named = some object) :
    (findsSection answers s.sections = false ∧ ∃ status, Refusal status ∧
      initializeLockHeld platform version copy answers s = some (status, s)) ∨
    (findsSection answers s.sections = true ∧
      initializeLockHeld platform version copy answers s =
        (s.sections.read (s.sections.contents object).baseAddress).map fun data =>
          (if supportsVersion version data then statusSuccess else statusNotSupported,
            ⟨s.sections, Function.update s.mmpGlobalDataPtr copy
              (s.sections.contents object).baseAddress⟩)) := by
  rcases mmpAllocateGlobalData_named copy answers hnamed with
    ⟨hnone, status, hrefusal, hallocate⟩ | ⟨hfinds, hallocate⟩
  · exact Or.inl ⟨hnone, status, hrefusal, initializeLockHeld_refused hrefusal hallocate⟩
  · apply Or.inr
    constructor
    · exact hfinds
    · rw [initializeLockHeld_found hallocate]
      dsimp only
      rw [Function.update_self]

/-- While the section is closed a call creates it with a view, or leaves it closed. -/
theorem mmpAllocateGlobalData_unnamed (copy : κ) (answers : KernelAnswers)
    (hnamed : s.sections.named = none) :
    (∃ status sections, Refusal status ∧ sections.named = none ∧
      sections.views = s.sections.views ∧
      mmpAllocateGlobalData copy answers s = some (status, ⟨sections, s.mmpGlobalDataPtr⟩)) ∨
    ∃ block, s.sections.Free block ∧ mmpAllocateGlobalData copy answers s = some (statusSuccess,
      ⟨(s.sections.create .zero).mapView block s.sections.next,
        Function.update s.mmpGlobalDataPtr copy block⟩) := by
  unfold mmpAllocateGlobalData
  cases hcreate : answers.createSection with
  | error e =>
    have hanswer : ntCreateSection answers s.sections = .error e.status := by
      rw [ntCreateSection, hnamed, hcreate]
    rw [hanswer]
    dsimp only
    apply Or.inl
    split
    · obtain ⟨status, hrefusal, hopen⟩ := ntOpenSection_unnamed answers hnamed
      rw [hopen]
      exact ⟨status, s.sections, hrefusal, hnamed, rfl, rfl⟩
    · exact ⟨e.status, s.sections, ⟨e.fails, e.kernels⟩, hnamed, rfl, rfl⟩
  | ok u =>
    have hanswer : ntCreateSection answers s.sections =
        .ok (s.sections.next, s.sections.create .zero) := by
      rw [ntCreateSection, hnamed, hcreate]
    rw [hanswer]
    dsimp only
    rcases ntMapViewOfSection_cases answers s.sections.next
      (s.mmpGlobalDataPtr copy) (s.sections.create .zero)
      with ⟨status, hrefusal, hmap⟩ | ⟨block, hfree, hmap⟩
    · rw [hmap]
      exact Or.inl ⟨status, _, hrefusal, Sections.create_closeHandle_named, rfl, rfl⟩
    · rw [hmap]
      exact Or.inr ⟨block, hfree, rfl⟩

theorem initializeLockHeld_created (platform : Platform) (version : LibraryVersion) {block : Nat}
    (hcreated : mmpAllocateGlobalData copy answers s = some (statusSuccess,
      ⟨(s.sections.create .zero).mapView block s.sections.next,
        Function.update s.mmpGlobalDataPtr copy block⟩)) :
    ∃ sections object, sections.named = some object ∧
      sections.views = Function.update s.sections.views block (some object) ∧
      WrittenBy platform version block (sections.contents object) ∧
      initializeLockHeld platform version copy answers s =
        if platform.windowsVersion = .invalid then
          some (statusNotSupported, ⟨sections.unmapView block,
            Function.update s.mmpGlobalDataPtr copy block⟩)
        else some (statusSuccess, ⟨sections, Function.update s.mmpGlobalDataPtr copy block⟩) := by
  have hmapped : ((s.sections.create .zero).mapView block s.sections.next).views block =
      some s.sections.next := Sections.mapView_views_self
  obtain ⟨sections, hwrite, hnamed, hviews, hwritten⟩ :=
    writeGlobalData_of_view platform version hmapped
  have hview : sections.views block = some s.sections.next := by
    rw [hviews, Sections.mapView_views_self]
  refine ⟨sections, s.sections.next, hnamed, hviews, hwritten, ?_⟩
  unfold initializeLockHeld
  rw [hcreated]
  dsimp only
  rw [Function.update_self, if_pos (by decide), hwrite]
  dsimp only
  rw [Sections.read_of_view hview rfl]
  dsimp only
  rw [hwritten.windowsVersion]

end Calls

end WinPolyfillLoader.Loader
