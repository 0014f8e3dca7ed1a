import WinPolyfillLoader.LdrEntry.BaseAddressIndex

/-!
The life of a data table entry up to its insertion: allocation,
initialisation with its version gates, and linking. `headers` is what
`RtlImageNtHeader` finds at the base of the image.
-/

namespace WinPolyfillLoader.LdrEntry

open ProcessHeap

def ldrHashTableEntries : Dword := 32

def ldrHashEntryRaw (services : LdrServices) (globals : LdrGlobals) (name : List Wchar) : Dword :=
  let first := (services.rtlUpcaseUnicodeChar (name.headD 0)).zeroExtend 32
  if globals.windowsVersion < systemNt60Rtm then first - 0x41
  else if globals.windowsVersion < systemNt61Rtm then first - 1
  else if globals.windowsVersion < systemNt63Rtm then
    name.foldl (fun result c =>
      result + 0x1003F * (services.rtlUpcaseUnicodeChar c).zeroExtend 32) 0
  else services.rtlHashUnicodeString name

def ldrHashEntry (services : LdrServices) (globals : LdrGlobals) (name : List Wchar) : Nat :=
  (ldrHashEntryRaw services globals name &&& (ldrHashTableEntries - 1)).toNat

def setEntry (ldrEntry : Nat) (entry : LdrDataTableEntry) (state : LdrState) : LdrState :=
  { state with entries := Function.update state.entries ldrEntry entry }

/-- `RtlAllocateHeap(heap, HEAP_ZERO_MEMORY, …)`; null is 0. -/
def allocateZeroed (state : LdrState) : Nat × LdrState :=
  match state.heap.allocate with
  | (some block, heap) => (block, { state with heap := heap })
  | (none, heap) => (0, { state with heap := heap })

def freeBlock (block : Nat) (state : LdrState) : LdrState :=
  { state with heap := state.heap.free block }

def rtlAllocateDataTableEntry (headers : Option ImageNtHeaders) (state : LdrState) :
    Nat × LdrState :=
  match headers with
  | none => (0, state)
  | some _ =>
    match allocateZeroed state with
    | (0, state) => (0, state)
    | (ldrEntry, state) => (ldrEntry, setEntry ldrEntry .zero state)

def corImage (headers : ImageNtHeaders) : Bool :=
  headers.comDescriptor.2 != 0 && headers.comDescriptor.1 != 0

def comimageFlagsIlonly : Dword := 1

def corIL (headers : ImageNtHeaders) : Bool :=
  corImage headers && headers.corFlags &&& comimageFlagsIlonly != 0

def ldrpImageDll : Dword := 0x00000004
def ldrpLoadNotificationsSent : Dword := 0x00000008
def ldrpInLegacyLists : Dword := 0x00000040
def ldrpInIndexes : Dword := 0x00000080
def ldrpEntryProcessed : Dword := 0x00004000
def ldrpEntryInserted : Dword := 0x00008000
def ldrpCorImage : Dword := 0x00400000
def ldrpCorIlOnly : Dword := 0x01000000

/-- The bits that are set from Windows 8 on; all others stay zero. -/
def win8Flags (headers : ImageNtHeaders) : Dword :=
  ldrpImageDll ||| ldrpLoadNotificationsSent ||| ldrpEntryProcessed ||| ldrpInLegacyLists |||
    ldrpInIndexes ||| (if corImage headers then ldrpCorImage else 0) |||
    (if corIL headers then ldrpCorIlOnly else 0)

def legacyFlags (headers : ImageNtHeaders) : Dword :=
  ldrpImageDll ||| ldrpEntryInserted ||| ldrpEntryProcessed |||
    (if corImage headers then ldrpCorImage else 0)

def loadReasonDynamicLoad : Dword := 4
def ldrModulesReadyToRun : Dword := 9

def freshDdagNode (globals : LdrGlobals) (ldrEntry : Nat) : LdrDdagNode where
  modules := [ldrEntry]
  loadCount := 1
  referenceCount := if globals.windowsVersion < systemWin10Rtm then 1 else 0
  dependencyCount := 0
  dependencies := 0
  incomingDependencies := 0
  state := ldrModulesReadyToRun

/-- The entry after the gates of Windows 11 and Windows 10 and the first four
stores of the gate of Windows 8. -/
def earlyEntry (services : LdrServices) (globals : LdrGlobals) (headers : ImageNtHeaders)
    (dllBaseName : UnicodeString) : LdrDataTableEntry :=
  let entry := { LdrDataTableEntry.zero with
    checkSum := if systemWin11_21H2 ≤ globals.windowsVersion then headers.checkSum else 0
    referenceCount := if systemWin10Rtm ≤ globals.windowsVersion then 1 else 0 }
  if systemNt62Rtm ≤ globals.windowsVersion then
    { entry with
      loadTime := globals.systemTime
      originalBase := headers.imageBase
      baseNameHashValue := ldrHashEntryRaw services globals dllBaseName.text
      loadReason := loadReasonDynamicLoad }
  else entry

/-- The rest of the gate of Windows 8: the entry joins the index, then its DDAG
node is allocated. -/
def initializeWin8 (services : LdrServices) (globals : LdrGlobals) (headers : ImageNtHeaders)
    (ldrEntry baseAddress : Nat) (state : LdrState) : Bool × LdrState :=
  match rtlInsertModuleBaseAddressIndexNode services globals ldrEntry baseAddress state with
  | (status, state) =>
    if ntSuccess status then
      match allocateZeroed state with
      | (0, state) => (false, state)
      | (node, state) =>
        (true, setEntry ldrEntry
          { state.entries ldrEntry with ddagNode := node, flags := win8Flags headers }
          { state with
            ddagNodes := Function.update state.ddagNodes node (freshDdagNode globals ldrEntry) })
    else (false, state)

/-- The gates of Windows 7 and Vista and the stores for all versions, in a 64-bit
process. -/
def lateEntry (globals : LdrGlobals) (headers : ImageNtHeaders) (baseAddress : Nat)
    (dllBaseName dllFullName : UnicodeString) (entry : LdrDataTableEntry) : LdrDataTableEntry :=
  let isWin7 := globals.ldrDataTableEntrySize = sizeofLdrDataTableEntryWin7
  let isVista := globals.ldrDataTableEntrySize = sizeofLdrDataTableEntryVista
  let entry :=
    if systemNt61Rtm < globals.windowsVersion ∧ isWin7 then
      { entry with originalBase := headers.imageBase, loadTime := globals.systemTime }
    else entry
  let entry :=
    if systemNt60Rtm < globals.windowsVersion ∧ (isVista ∨ isWin7) then
      { entry with
        forwarderLinks := some [], staticLinks := some [], serviceTagLinks := some [] }
    else entry
  { entry with
    dllBase := baseAddress
    sizeOfImage := headers.sizeOfImage
    timeDateStamp := headers.timeDateStamp
    baseDllName := dllBaseName
    fullDllName := dllFullName
    entryPoint := (baseAddress + headers.addressOfEntryPoint.toNat) % 2 ^ 64
    loadCount := 1
    flags :=
      if systemNt62Rtm ≤ globals.windowsVersion then entry.flags else legacyFlags headers
    hashLinks := some [] }

/-- `RtlInitializeLdrDataTableEntry`. The load flags are not read. -/
def rtlInitializeLdrDataTableEntry (services : LdrServices) (globals : LdrGlobals)
    (headers : Option ImageNtHeaders) (ldrEntry baseAddress : Nat)
    (dllBaseName dllFullName : UnicodeString) (state : LdrState) : Bool × LdrState :=
  match headers with
  | none => (false, setEntry ldrEntry .zero state)
  | some headers =>
    let state := setEntry ldrEntry (earlyEntry services globals headers dllBaseName) state
    match
      if systemNt62Rtm ≤ globals.windowsVersion then
        initializeWin8 services globals headers ldrEntry baseAddress state
      else (true, state) with
    | (false, state) => (false, state)
    | (true, state) =>
      if systemNt50Rtm < globals.windowsVersion then
        (true, setEntry ldrEntry (lateEntry globals headers baseAddress dllBaseName dllFullName
          (state.entries ldrEntry)) state)
      else (false, state)

def rtlInsertMemoryTableEntry (services : LdrServices) (globals : LdrGlobals) (ldrEntry : Nat)
    (state : LdrState) : LdrState :=
  let i := ldrHashEntry services globals (state.entries ldrEntry).baseDllName.text
  { state with
    ldrpHashTable := Function.update state.ldrpHashTable i (state.ldrpHashTable i ++ [ldrEntry])
    inLoadOrderModuleList := state.inLoadOrderModuleList ++ [ldrEntry]
    inMemoryOrderModuleList := state.inMemoryOrderModuleList ++ [ldrEntry]
    inInitializationOrderModuleList := state.inInitializationOrderModuleList ++ [ldrEntry] }

end WinPolyfillLoader.LdrEntry
