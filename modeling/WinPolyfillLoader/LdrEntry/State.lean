import WinPolyfillLoader.Version
import WinPolyfillLoader.Library.Heap
import WinPolyfillLoader.Library.SearchTree

/-!
The loader database as `LdrEntry.cpp` and `BaseAddressIndex.cpp` edit it: the
data table entries and DDAG nodes by address, the module lists, the buckets of
the hash table and the index of image bases. A circular list with a head of its
own is the list of its members.
-/

namespace WinPolyfillLoader.LdrEntry

open ProcessHeap SearchTree

abbrev Wchar := BitVec 16

/-- `UNICODE_STRING`: the address of the buffer and the `Length / 2`
characters in it. -/
structure UnicodeString where
  buffer : Nat
  text : List Wchar
deriving DecidableEq, Repr

/-- `LDR_DATA_TABLE_ENTRY`, the union of its versions. `none` in a list head
means that its links are still zero. -/
structure LdrDataTableEntry where
  dllBase : Nat
  entryPoint : Nat
  sizeOfImage : Dword
  fullDllName : UnicodeString
  baseDllName : UnicodeString
  flags : Dword
  loadCount : BitVec 16
  timeDateStamp : Dword
  hashLinks : Option (List Nat)
  -- Vista and Windows 7
  forwarderLinks : Option (List Nat)
  serviceTagLinks : Option (List Nat)
  staticLinks : Option (List Nat)
  -- Windows 7 and, at other offsets, Windows 8 and later
  originalBase : Nat
  loadTime : Nat
  -- Windows 8 and later
  ddagNode : Nat
  baseNameHashValue : Dword
  loadReason : Dword
  referenceCount : Dword
  checkSum : Dword
deriving DecidableEq, Repr

def LdrDataTableEntry.zero : LdrDataTableEntry where
  dllBase := 0
  entryPoint := 0
  sizeOfImage := 0
  fullDllName := ⟨0, []⟩
  baseDllName := ⟨0, []⟩
  flags := 0
  loadCount := 0
  timeDateStamp := 0
  hashLinks := none
  forwarderLinks := none
  serviceTagLinks := none
  staticLinks := none
  originalBase := 0
  loadTime := 0
  ddagNode := 0
  baseNameHashValue := 0
  loadReason := 0
  referenceCount := 0
  checkSum := 0

/-- `_LDR_DDAG_NODE`; `referenceCount` and `dependencyCount` are the fields of
`_LDR_DDAG_NODE_WIN8`. `modules` are the entries linked by `NodeModuleLink`. -/
structure LdrDdagNode where
  modules : List Nat
  loadCount : Dword
  referenceCount : Dword
  dependencyCount : Dword
  dependencies : Nat
  incomingDependencies : Nat
  state : Dword
deriving DecidableEq, Repr

structure LdrpCslistDependent where
  nextDependentEntry : Nat
  dependentDdagNode : Nat
deriving DecidableEq, Repr

/-- `LDRP_CSLIST_INCOMMING`. Bit 0 of the node pointer is a tag. -/
structure LdrpCslistIncoming where
  nextIncomingEntry : Nat
  incomingDdagNode : Nat
deriving DecidableEq, Repr

/-- `unloaded` are the bases that `LdrUnloadDll` was called with, in order;
`dependents` holds no record that was freed. -/
@[ext]
structure LdrState where
  entries : Nat → LdrDataTableEntry
  ddagNodes : Nat → LdrDdagNode
  dependents : Nat → Option LdrpCslistDependent
  incoming : Nat → LdrpCslistIncoming
  inLoadOrderModuleList : List Nat
  inMemoryOrderModuleList : List Nat
  inInitializationOrderModuleList : List Nat
  ldrpHashTable : Nat → List Nat
  ldrpModuleBaseAddressIndex : Option (BinTree Nat)
  heap : Heap
  unloaded : List Nat

/-- What the headers of a mapped image say. `comDescriptor` is `VirtualAddress`
and `Size` of `IMAGE_DIRECTORY_ENTRY_COM_DESCRIPTOR`, `corFlags` the flags of
the header it points to. -/
structure ImageNtHeaders where
  timeDateStamp : Dword
  addressOfEntryPoint : Dword
  imageBase : Nat
  sizeOfImage : Dword
  checkSum : Dword
  comDescriptor : Dword × Dword
  corFlags : Dword
deriving DecidableEq, Repr

/-- The globals of the two files and what `NtQuerySystemTime` answers. -/
structure LdrGlobals where
  windowsVersion : Dword
  ldrDataTableEntrySize : Nat
  systemTime : Nat

/-- `sizeof` of the entry types that the code compares with, in a 64-bit process. -/
def sizeofLdrDataTableEntryVista : Nat := 0xc8
def sizeofLdrDataTableEntryWin7 : Nat := 0xe0

/-- The functions of ntdll that the database is edited with. The two hash
primitives are arbitrary; `RtlRbInsertNodeEx` links at the given slot; the name
resolution allocates both names or has no effect. -/
structure LdrServices where
  rtlUpcaseUnicodeChar : Wchar → Wchar
  rtlHashUnicodeString : List Wchar → Dword
  rtlRbInsertNodeEx : BinTree Nat → Nat → Bool → Nat → BinTree Nat
  rtlResolveDllNameUnicodeString : Option (List Wchar) → Option (List Wchar) → Heap →
    Option (UnicodeString × UnicodeString) × Heap
  insertsAtSlot : InsertsAtSlot rtlRbInsertNodeEx
  resolve_fails : ∀ {dllName fullName heap next},
    rtlResolveDllNameUnicodeString dllName fullName heap = (none, next) →
      next.live = heap.live ∧ next.log = heap.log
  resolve_allocates : ∀ {dllName fullName heap next base full},
    rtlResolveDllNameUnicodeString dllName fullName heap = (some (base, full), next) →
      [base.buffer, full.buffer].Nodup ∧
      (∀ b ∈ [base.buffer, full.buffer], b ≠ 0 ∧ b ∉ heap.live) ∧
      next.live = base.buffer :: full.buffer :: heap.live ∧
      next.log = heap.log ++ [.alloc base.buffer, .alloc full.buffer]

end WinPolyfillLoader.LdrEntry
