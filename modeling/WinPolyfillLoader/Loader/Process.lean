import WinPolyfillLoader.LdrEntry.State

/-!
What `LdrLoadDllMemoryExW` and `LdrUnloadDllMemory` work on. The parts of the
process that their helpers edit (the loader database, the inverted function
table, the TLS list and the mapped regions) are arbitrary types; the helpers
are parameters, and the structures of laws say what a result relies on.
-/

namespace WinPolyfillLoader.Loader

open LdrEntry

/-- The fields of `IMAGE_NT_HEADERS` that the two functions read. -/
structure ImageHeaders where
  sizeOfCode : Dword
  sizeOfHeaders : Dword
  sizeOfImage : Dword
  dllCharacteristics : BitVec 16
deriving DecidableEq, Repr

structure MemoryModule where
  codeBase : Nat
  ldrEntry : Nat
  loadFromLdrLoadDllMemory : Bool
  mappedDll : Bool
  useReferenceCount : Bool
  insertInvertedFunctionTableEntry : Bool
  tlsHandled : Bool
  underUnload : Bool
  initialized : Bool
deriving DecidableEq, Repr

/-- The fields of `LDR_DATA_TABLE_ENTRY` that the two functions read.
`inMemoryOrder` tells whether `InMemoryOrderLinks.Flink` is set. -/
structure LdrEntryView where
  dllBase : Nat
  baseDllName : List Wchar
  sizeOfImage : Dword
  inMemoryOrder : Bool
deriving DecidableEq, Repr

def loadFlagsNotMapDll : Dword := 0x10000000
def loadFlagsNotFailIfHandleTls : Dword := 0x20000000
def loadFlagsPassImageCheck : Dword := 0x40000000
def loadFlagsNotAddInvertedFunction : Dword := 0x00000001
def loadFlagsNotUseReferenceCount : Dword := 0x00000002
def loadFlagsUseDllName : Dword := 0x00000004
def loadFlagsNotHandleTls : Dword := 0x00000008

def hasFlag (dwFlags flag : Dword) : Bool := dwFlags &&& flag != 0

def imageDllcharacteristicsNoSeh : BitVec 16 := 0x0400

/-- The steps of a load that have an undo step. -/
inductive Step where
  | loadLibrary
  | mapDll
  | insertInverted
  | handleTls
deriving DecidableEq, Repr

/-- The log of what was done for the image at a base. -/
inductive Event where
  | did (step : Step) (base : Nat)
  | undid (step : Step) (base : Nat)
  | detach (base : Nat)
deriving DecidableEq, Repr

/-- `modules` answers `MapMemoryModuleHandle`. -/
structure Process (δ ι τ ρ : Type) where
  database : δ
  invertedTable : ι
  tlsList : τ
  regions : ρ
  modules : Nat → Option MemoryModule
  events : List Event

/-- The helpers. `ldrMapDllMemory` takes the headers that it finds at the base;
`ldrpCallInitializers` answers with its result and `module->initialized`. The
flag of `rtlUpdateReferenceCount` is true for `FLAG_REFERENCE`. -/
structure Helpers (δ ι τ ρ : Type) where
  rtlIsValidImageBuffer : Nat → Except NtStatus Bool
  rtlImageNtHeader : ρ → Nat → Option ImageHeaders
  towlower : Wchar → Wchar
  inLoadOrderModuleList : δ → List Nat
  ldrEntryAt : δ → Nat → LdrEntryView
  memoryLoadLibrary : Nat → ρ → NtStatus × Nat × ρ
  memoryFreeLibrary : Nat → ρ → Bool × ρ
  ldrMapDllMemory : Nat → ImageHeaders → Dword → Option (List Wchar) → Option (List Wchar) → δ →
    NtStatus × Nat × δ
  rtlFreeLdrDataTableEntry : Nat → δ → Bool × δ
  memoryResolveImportTable : Nat → ρ → NtStatus × ρ
  memorySetSectionProtection : Nat → ρ → NtStatus × ρ
  rtlInsertInvertedFunctionTable : Nat → Dword → ι → NtStatus × ι
  rtlRemoveInvertedFunctionTable : Nat → ι → NtStatus × ι
  mmpHandleTlsData : Nat → τ → NtStatus × τ
  mmpReleaseTlsEntry : Nat → τ → NtStatus × τ
  ldrpExecuteTls : Nat → Bool
  ldrpCallInitializers : Nat → Bool × Bool
  rtlUpdateReferenceCount : Nat → Bool → δ → NtStatus × δ
  rtlGetReferenceCount : Nat → δ → NtStatus × Nat

variable {δ ι τ ρ : Type}

/-- The database after any updates of the reference count of one entry. -/
inductive Helpers.Recounted (H : Helpers δ ι τ ρ) (entry : Nat) : δ → δ → Prop where
  | refl (d : δ) : H.Recounted entry d d
  | step {d d' : δ} (flag : Bool) (h : H.Recounted entry d d') :
      H.Recounted entry d (H.rtlUpdateReferenceCount entry flag d').2

/-- The regions after the helpers that write to the image at a base. -/
inductive Helpers.ImageEdited (H : Helpers δ ι τ ρ) (base : Nat) : ρ → ρ → Prop where
  | refl (r : ρ) : H.ImageEdited base r r
  | resolve {r r' : ρ} (h : H.ImageEdited base r r') :
      H.ImageEdited base r (H.memoryResolveImportTable base r').2
  | protect {r r' : ρ} (h : H.ImageEdited base r r') :
      H.ImageEdited base r (H.memorySetSectionProtection base r').2

/-- `LdrMapDllMemory` lists an entry that was not there, with reference count 1. -/
structure Helpers.MapLaws (H : Helpers δ ι τ ρ) : Prop where
  map_entry : ∀ {base headers flags name full d status entry d'},
    H.ldrMapDllMemory base headers flags name full d = (status, entry, d') →
      ntSuccess status = true → entry ∉ H.inLoadOrderModuleList d ∧
        entry ∈ H.inLoadOrderModuleList d' ∧
        (H.ldrEntryAt d' entry).sizeOfImage = headers.sizeOfImage ∧
        (H.rtlGetReferenceCount entry d').2 = 1

/-- `RtlFreeLdrDataTableEntry` takes back what `LdrMapDllMemory` did. -/
structure Helpers.EntryLaws (H : Helpers δ ι τ ρ) : Prop extends H.MapLaws where
  free_reverses : ∀ {base headers flags name full d status entry d₁ d₂},
    H.ldrMapDllMemory base headers flags name full d = (status, entry, d₁) →
      ntSuccess status = true → H.Recounted entry d₁ d₂ →
      (H.rtlGetReferenceCount entry d₂).2 = 1 → H.rtlFreeLdrDataTableEntry entry d₂ = (true, d)

/-- The reference count is read and written as a number. -/
structure Helpers.CountLaws (H : Helpers δ ι τ ρ) : Prop where
  get_succeeds : ∀ entry d, ntSuccess (H.rtlGetReferenceCount entry d).1 = true
  update_succeeds : ∀ entry flag d, ntSuccess (H.rtlUpdateReferenceCount entry flag d).1 = true
  update_count : ∀ {entry d}, entry ∈ H.inLoadOrderModuleList d → ∀ flag,
    (H.rtlGetReferenceCount entry (H.rtlUpdateReferenceCount entry flag d).2).2 =
      if flag then (H.rtlGetReferenceCount entry d).2 + 1
      else (H.rtlGetReferenceCount entry d).2 - 1
  update_entries : ∀ entry flag d,
    H.inLoadOrderModuleList (H.rtlUpdateReferenceCount entry flag d).2 =
        H.inLoadOrderModuleList d ∧
      H.ldrEntryAt (H.rtlUpdateReferenceCount entry flag d).2 = H.ldrEntryAt d

/-- What the last unload of a module relies on: each undo helper takes back its do helper that
succeeded, and edits of the image leave its headers. -/
structure Helpers.UndoLaws (H : Helpers δ ι τ ρ) : Prop extends H.EntryLaws, H.CountLaws where
  load_reverses : ∀ {buffer r status base r₁ r₂},
    H.memoryLoadLibrary buffer r = (status, base, r₁) → ntSuccess status = true →
      H.ImageEdited base r₁ r₂ → H.memoryFreeLibrary base r₂ = (true, r)
  edit_headers : ∀ {base r r'}, H.ImageEdited base r r' →
    H.rtlImageNtHeader r' base = H.rtlImageNtHeader r base
  remove_reverses : ∀ {base size t status t'},
    H.rtlInsertInvertedFunctionTable base size t = (status, t') → ntSuccess status = true →
      H.rtlRemoveInvertedFunctionTable base t' = (statusSuccess, t)
  release_reverses : ∀ {entry t status t'},
    H.mmpHandleTlsData entry t = (status, t') → ntSuccess status = true →
      H.mmpReleaseTlsEntry entry t' = (statusSuccess, t)

/-- What the way back from a failed load relies on besides: a helper that fails changes nothing,
and a failed initialiser leaves `initialized` false. -/
structure Helpers.Lawful (H : Helpers δ ι τ ρ) : Prop extends H.UndoLaws where
  map_fails : ∀ {base headers flags name full d status entry d'},
    H.ldrMapDllMemory base headers flags name full d = (status, entry, d') →
      ntSuccess status = false → d' = d
  insert_fails : ∀ {base size t status t'},
    H.rtlInsertInvertedFunctionTable base size t = (status, t') →
      ntSuccess status = false → t' = t
  tls_fails : ∀ {entry t status t'},
    H.mmpHandleTlsData entry t = (status, t') → ntSuccess status = false → t' = t
  initializers_fail : ∀ {base i}, H.ldrpCallInitializers base = (false, i) → i = false

end WinPolyfillLoader.Loader
