import WinPolyfillLoader.Library.EarlyExit
import WinPolyfillLoader.Loader.Process

/-!
`LdrLoadDllMemoryExW` and `LdrUnloadDllMemory`. A load either finds the module
among the loaded ones or maps the buffer; the mapped path is a sequence of
steps, each of which may end the load, and a failed load calls the unload to
take back what the flags of the module say was done.
-/

namespace WinPolyfillLoader.Loader

open LdrEntry

variable {δ ι τ ρ : Type}

/-- How a call can fail to return: `__fastfail`, or a null pointer is read. -/
inductive Fault where
  | fastFail
  | invalidRead
deriving DecidableEq, Repr

/-- The arguments; `baseAddress` and `ldrEntry` are the values of the two output
variables before the call. -/
structure LoadRequest where
  dwFlags : Dword
  bufferAddress : Nat
  bufferSize : Nat
  dllName : Option (List Wchar)
  dllFullName : Option (List Wchar)
  baseAddress : Nat
  ldrEntry : Nat
deriving DecidableEq, Repr

/-- The status and the output variables. Null is 0. -/
structure LoadResult (δ ι τ ρ : Type) where
  status : NtStatus
  baseAddress : Nat
  ldrEntry : Nat
  process : Process δ ι τ ρ

def Process.setModule (p : Process δ ι τ ρ) (base : Nat) (module : Option MemoryModule) :
    Process δ ι τ ρ :=
  { p with modules := Function.update p.modules base module }

def Process.log (p : Process δ ι τ ρ) (events : List Event) : Process δ ι τ ρ :=
  { p with events := p.events ++ events }

/-- `MemoryFreeLibrary`: the image goes, and the `MEMORYMODULE` inside it. -/
def freeLibrary (H : Helpers δ ι τ ρ) (base : Nat) (p : Process δ ι τ ρ) :
    Bool × Process δ ι τ ρ :=
  match H.memoryFreeLibrary base p.regions with
  | (false, regions) => (false, { p with regions := regions })
  | (true, regions) =>
      (true, ({ p with regions := regions }.setModule base none).log [.undid .loadLibrary base])

/-- `count & ~1`. -/
def dropLowBit (count : Nat) : Nat := count - count % 2

/-- The removal from the inverted function table, if an entry was inserted. -/
def removeInverted (H : Helpers δ ι τ ρ) (base : Nat) (module : MemoryModule)
    (p : Process δ ι τ ρ) : Except Fault (Process δ ι τ ρ) :=
  if module.insertInvertedFunctionTableEntry then
    match H.rtlRemoveInvertedFunctionTable base p.invertedTable with
    | (status, table) =>
        if ntSuccess status then
          .ok ({ p with invertedTable := table }.log [.undid .insertInverted base])
        else .error .fastFail
  else .ok p

def releaseTls (H : Helpers δ ι τ ρ) (base : Nat) (module : MemoryModule)
    (p : Process δ ι τ ρ) : Except Fault (Process δ ι τ ρ) :=
  if module.tlsHandled then
    match H.mmpReleaseTlsEntry module.ldrEntry p.tlsList with
    | (status, list) =>
        if ntSuccess status then .ok ({ p with tlsList := list }.log [.undid .handleTls base])
        else .error .fastFail
  else .ok p

def freeEntry (H : Helpers δ ι τ ρ) (base : Nat) (module : MemoryModule)
    (p : Process δ ι τ ρ) : Except Fault (Process δ ι τ ρ) :=
  match H.rtlFreeLdrDataTableEntry module.ldrEntry p.database with
  | (true, database) => .ok ({ p with database := database }.log [.undid .mapDll base])
  | (false, _) => .error .fastFail

def callDetach (base : Nat) (module : MemoryModule) (p : Process δ ι τ ρ) : Process δ ι τ ρ :=
  if module.initialized then p.log [.detach base] else p

/-- What the last unload of a mapped module does. -/
def tearDown (H : Helpers δ ι τ ρ) (base : Nat) (module : MemoryModule)
    (p : Process δ ι τ ρ) : Except Fault (NtStatus × Process δ ι τ ρ) :=
  let p := p.setModule base (some { module with underUnload := true })
  match removeInverted H base module (callDetach base module p) with
  | .error fault => .error fault
  | .ok p =>
    match releaseTls H base module p with
    | .error fault => .error fault
    | .ok p =>
      match freeEntry H base module p with
      | .error fault => .error fault
      | .ok p =>
        match freeLibrary H base p with
        | (true, p) => .ok (statusSuccess, p)
        | (false, _) => .error .fastFail

/-- The reference count of a module, 0 for one that is not counted. -/
def referenceCount (H : Helpers δ ι τ ρ) (module : MemoryModule) (database : δ) :
    NtStatus × Nat :=
  if module.useReferenceCount then H.rtlGetReferenceCount module.ldrEntry database
  else (statusSuccess, 0)

def ldrUnloadDllMemory (H : Helpers δ ι τ ρ) (base : Nat) (p : Process δ ι τ ρ) :
    Except Fault (NtStatus × Process δ ι τ ρ) :=
  match p.modules base with
  | none => .ok (statusInvalidHandle, p)
  | some module =>
    if !module.loadFromLdrLoadDllMemory then .ok (statusInvalidHandle, p)
    else if !module.mappedDll then
      match freeLibrary H base (p.setModule base (some { module with underUnload := true })) with
      | (true, p) => .ok (statusSuccess, p)
      | (false, p) => .ok (statusUnsuccessful, p)
    else
      match H.rtlImageNtHeader p.regions base with
      | none => .error .invalidRead
      | some headers =>
        if headers.sizeOfImage ≠ (H.ldrEntryAt p.database module.ldrEntry).sizeOfImage then
          .error .fastFail
        else
          match referenceCount H module p.database with
          | (status, count) =>
            if !ntSuccess status then .ok (status, p)
            else if dropLowBit count ≠ 0 then
              match H.rtlUpdateReferenceCount module.ldrEntry false p.database with
              | (status, database) => .ok (status, { p with database := database })
            else tearDown H base module p

/-- The check of the buffer, inside its exception handler. -/
def checkBuffer (H : Helpers δ ι τ ρ) (request : LoadRequest) : NtStatus :=
  match H.rtlIsValidImageBuffer request.bufferAddress with
  | .error code => code
  | .ok valid =>
      if !valid && !hasFlag request.dwFlags loadFlagsPassImageCheck then statusInvalidImageFormat
      else statusSuccess

/-- `LOAD_FLAGS_NOT_MAP_DLL` overrides all other flags and the names. -/
def normalizeRequest (request : LoadRequest) : LoadRequest :=
  if hasFlag request.dwFlags loadFlagsNotMapDll then
    { request with
      dwFlags := request.dwFlags &&& loadFlagsNotMapDll, dllName := none, dllFullName := none }
  else request

/-- `_wcsnicmp` finds no difference. Behind the characters of a list stands a NUL. -/
def wcsnicmpEqual (H : Helpers δ ι τ ρ) : Nat → List Wchar → List Wchar → Bool
  | 0, _, _ => true
  | count + 1, first, last =>
      let f := H.towlower (first.headD 0)
      f == H.towlower (last.headD 0) &&
        (f == 0 || wcsnicmpEqual H count first.tail last.tail)

/-- The name test of the scan. The length of `DllName` is an `int`, and the difference
a `SIZE_T`. -/
def nameMatches (H : Helpers δ ι τ ρ) (dllName baseDllName : List Wchar) : Bool :=
  let length := (BitVec.ofNat 32 dllName.length).signExtend 64
  let dist := BitVec.ofNat 64 baseDllName.length - length
  (dist == 0 || dist == 4) && wcsnicmpEqual H length.toNat dllName baseDllName

/-- The test that a listed entry is the module to be loaded. -/
def isLoadedEntry (H : Helpers δ ι τ ρ) (dllName : List Wchar) (h1 : ImageHeaders)
    (p : Process δ ι τ ρ) (entry : Nat) : Option MemoryModule :=
  let view := H.ldrEntryAt p.database entry
  if view.inMemoryOrder && nameMatches H dllName view.baseDllName then
    match H.rtlImageNtHeader p.regions view.dllBase with
    | none => none
    | some h2 =>
      match p.modules view.dllBase with
      | none => none
      | some module =>
          if h1.sizeOfCode = h2.sizeOfCode ∧ h1.sizeOfHeaders = h2.sizeOfHeaders then some module
          else none
  else none

/-- The scan of `InLoadOrderModuleList`. -/
def scanLoaded (H : Helpers δ ι τ ρ) (dllName : List Wchar) (h1 : ImageHeaders)
    (p : Process δ ι τ ρ) : List Nat → Option (Nat × MemoryModule)
  | [] => none
  | entry :: rest =>
    match isLoadedEntry H dllName h1 p entry with
    | some module => some (entry, module)
    | none => scanLoaded H dllName h1 p rest

/-- The module is loaded already: count it, if both sides count references. -/
def reuseModule (H : Helpers δ ι τ ρ) (request : LoadRequest) (entry : Nat)
    (module : MemoryModule) (p : Process δ ι τ ρ) : LoadResult δ ι τ ρ :=
  if !module.useReferenceCount || hasFlag request.dwFlags loadFlagsNotUseReferenceCount then
    ⟨statusInvalidParameter3, 0, 0, p⟩
  else
    ⟨statusSuccess, (H.ldrEntryAt p.database entry).dllBase, entry,
      { p with database := (H.rtlUpdateReferenceCount module.ldrEntry true p.database).2 }⟩

/-- A step of a `do` block. -/
abbrev LoadStep (δ ι τ ρ : Type) := EarlyExit.Step NtStatus (Process δ ι τ ρ)

/-- `if (!NT_SUCCESS(status)) break;` between two steps. -/
abbrev LoadStep.andThen (first second : LoadStep δ ι τ ρ) : LoadStep δ ι τ ρ :=
  EarlyExit.andThen ntSuccess first second

/-- A store to a field of the module at `base`. -/
def updateModule (base : Nat) (f : MemoryModule → MemoryModule) (p : Process δ ι τ ρ) :
    Process δ ι τ ρ :=
  p.setModule base ((p.modules base).map f)

def mapDllStep (H : Helpers δ ι τ ρ) (request : LoadRequest) (dwFlags : Dword)
    (headers : ImageHeaders) (base : Nat) : LoadStep δ ι τ ρ := fun _ p =>
  match H.ldrMapDllMemory base headers dwFlags request.dllName request.dllFullName p.database with
  | (status, entry, database) =>
    if ntSuccess status then
      (status, (updateModule base (fun m => { m with mappedDll := true, ldrEntry := entry })
        { p with database := database }).log [.did .mapDll base])
    else (status, { p with database := database })

def resolveImportsStep (H : Helpers δ ι τ ρ) (base : Nat) : LoadStep δ ι τ ρ := fun _ p =>
  match H.memoryResolveImportTable base p.regions with
  | (status, regions) => (status, { p with regions := regions })

def setProtectionStep (H : Helpers δ ι τ ρ) (base : Nat) : LoadStep δ ι τ ρ := fun _ p =>
  match H.memorySetSectionProtection base p.regions with
  | (status, regions) => (status, { p with regions := regions })

def useReferenceCountStep (dwFlags : Dword) (base : Nat) : LoadStep δ ι τ ρ := fun status p =>
  if !hasFlag dwFlags loadFlagsNotUseReferenceCount then
    (status, updateModule base (fun m => { m with useReferenceCount := true }) p)
  else (status, p)

def insertInvertedStep (H : Helpers δ ι τ ρ) (dwFlags : Dword) (headers : ImageHeaders)
    (base : Nat) : LoadStep δ ι τ ρ := fun status p =>
  if !hasFlag dwFlags loadFlagsNotAddInvertedFunction then
    match H.rtlInsertInvertedFunctionTable base headers.sizeOfImage p.invertedTable with
    | (status, table) =>
      if ntSuccess status then
        (status, (updateModule base (fun m => { m with insertInvertedFunctionTableEntry := true })
          { p with invertedTable := table }).log [.did .insertInverted base])
      else (status, { p with invertedTable := table })
  else (status, p)

def handleTlsStep (H : Helpers δ ι τ ρ) (dwFlags : Dword) (base entry : Nat) :
    LoadStep δ ι τ ρ := fun status p =>
  if !hasFlag dwFlags loadFlagsNotHandleTls then
    match H.mmpHandleTlsData entry p.tlsList with
    | (status, list) =>
      if ntSuccess status then
        (status, (updateModule base (fun m => { m with tlsHandled := true })
          { p with tlsList := list }).log [.did .handleTls base])
      else if hasFlag dwFlags loadFlagsNotFailIfHandleTls then
        (0x7fffffff, { p with tlsList := list })
      else (status, { p with tlsList := list })
  else (status, p)

/-- `LdrpExecuteTLS` and, if that succeeds, `LdrpCallInitializers`. -/
def initializeStep (H : Helpers δ ι τ ρ) (base : Nat) : LoadStep δ ι τ ρ := fun status p =>
  if !H.ldrpExecuteTls base then (statusDllInitFailed, p)
  else
    match H.ldrpCallInitializers base with
    | (result, initialized) =>
        (if result then status else statusDllInitFailed,
          updateModule base (fun m => { m with initialized := initialized }) p)

/-- `ModuleEntry`, once `LdrMapDllMemory` has succeeded. -/
def moduleEntry (H : Helpers δ ι τ ρ) (request : LoadRequest) (dwFlags : Dword)
    (headers : ImageHeaders) (base : Nat) (p : Process δ ι τ ρ) : Nat :=
  (H.ldrMapDllMemory base headers dwFlags request.dllName request.dllFullName p.database).2.1

/-- The `do` block of the mapped path. -/
def mappedPath (H : Helpers δ ι τ ρ) (request : LoadRequest) (dwFlags : Dword)
    (headers : ImageHeaders) (base entry : Nat) : LoadStep δ ι τ ρ :=
  (mapDllStep H request dwFlags headers base).andThen <|
  (resolveImportsStep H base).andThen <|
  (setProtectionStep H base).andThen <|
  (useReferenceCountStep dwFlags base).andThen <|
  (insertInvertedStep H dwFlags headers base).andThen <|
  (handleTlsStep H dwFlags base entry).andThen <|
  initializeStep H base

/-- The `do` block for `LOAD_FLAGS_NOT_MAP_DLL`. -/
def unmappedPath (H : Helpers δ ι τ ρ) (base : Nat) : LoadStep δ ι τ ρ :=
  (resolveImportsStep H base).andThen <|
  (setProtectionStep H base).andThen <|
  initializeStep H base

/-- The load of an image that is not loaded already, from `MemoryLoadLibrary` on. -/
def loadImage (H : Helpers δ ι τ ρ) (request : LoadRequest) (p : Process δ ι τ ρ) :
    Except Fault (LoadResult δ ι τ ρ) :=
  match H.memoryLoadLibrary request.bufferAddress p.regions with
  | (status, base, regions) =>
    if !ntSuccess status || status == statusImageMachineTypeMismatch then
      .ok ⟨status, base, 0, { p with regions := regions }⟩
    else
      let module : MemoryModule := ⟨base, 0, true, false, false, false, false, false, false⟩
      let p := ({ p with regions := regions }.setModule base (some module)).log
        [.did .loadLibrary base]
      match H.rtlImageNtHeader regions base with
      | none => .error .invalidRead
      | some headers =>
        let dwFlags :=
          if headers.dllCharacteristics &&& imageDllcharacteristicsNoSeh != 0 then
            request.dwFlags ||| loadFlagsNotAddInvertedFunction
          else request.dwFlags
        if hasFlag dwFlags loadFlagsNotMapDll then
          match unmappedPath H base status p with
          | (status, p) =>
            if ntSuccess status then .ok ⟨status, base, 0, p⟩
            else .ok ⟨status, base, 0, (freeLibrary H base p).2⟩
        else
          let entry := moduleEntry H request dwFlags headers base p
          match mappedPath H request dwFlags headers base entry status p with
          | (status, p) =>
            if ntSuccess status then .ok ⟨status, base, entry, p⟩
            else
              match ldrUnloadDllMemory H base p with
              | .error fault => .error fault
              | .ok (_, p) => .ok ⟨status, 0, 0, p⟩

/-- `LdrLoadDllMemoryExW`. The `__fastfail` when `MapMemoryModuleHandle` finds no module in
the image that `MemoryLoadLibrary` has just mapped is left out. -/
def ldrLoadDllMemoryExW (H : Helpers δ ι τ ρ) (request : LoadRequest) (p : Process δ ι τ ρ) :
    Except Fault (LoadResult δ ι τ ρ) :=
  if request.bufferSize ≠ 0 then
    .ok ⟨statusInvalidParameter5, request.baseAddress, request.ldrEntry, p⟩
  else if !ntSuccess (checkBuffer H request) then .ok ⟨checkBuffer H request, 0, 0, p⟩
  else
    let request := normalizeRequest request
    if hasFlag request.dwFlags loadFlagsUseDllName &&
        (request.dllName.isNone || request.dllFullName.isNone) then
      .ok ⟨statusInvalidParameter3, 0, 0, p⟩
    else
      match request.dllName with
      | none => loadImage H request p
      | some dllName =>
        match H.rtlImageNtHeader p.regions request.bufferAddress with
        | none => .ok ⟨statusInvalidImageFormat, 0, 0, p⟩
        | some h1 =>
          match scanLoaded H dllName h1 p (H.inLoadOrderModuleList p.database) with
          | some (entry, module) => .ok (reuseModule H request entry module p)
          | none => loadImage H request p

end WinPolyfillLoader.Loader
