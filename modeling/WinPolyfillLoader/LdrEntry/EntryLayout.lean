import WinPolyfillLoader.LdrEntry.DataTableEntry
import WinPolyfillLoader.Library.StructLayout
import WinPolyfillLoader.Loader.GlobalData
import WinPolyfillLoader.MemoryModule.Machine

/-!
The layouts of the LDR entries of `LdrEntry.h`, and the size that
`InitializeWindowsVersion` finds for the running system.
-/

namespace WinPolyfillLoader.LdrEntry

open MemoryModule Loader StructLayout

/-- The types that the members have, the unions by their longest member. -/
inductive MemberType where
  | byte
  | word
  | dword
  | qword
  | pointer
  | listEntry
  | unicodeString
  | balancedNode
deriving DecidableEq, Repr

def MemberType.size (host : Host) : MemberType → Nat
  | .byte => 1
  | .word => 2
  | .dword => 4
  | .qword => 8
  | .pointer => host.pointerSize
  | .listEntry => 2 * host.pointerSize
  | .unicodeString => 2 * host.pointerSize
  | .balancedNode => 3 * host.pointerSize

def MemberType.alignment (host : Host) : MemberType → Nat
  | .byte => 1
  | .word => 2
  | .dword => 4
  | .qword => 8
  | .pointer | .listEntry | .unicodeString | .balancedNode => host.pointerSize

/-- The members of all versions; `lock` is `PatchInformation` before Windows 10, and
`loadContext` is `SnapContext` before. -/
inductive MemberName where
  | inLoadOrderLinks
  | inMemoryOrderLinks
  | inInitializationOrderLinks
  | dllBase
  | entryPoint
  | sizeOfImage
  | fullDllName
  | baseDllName
  | flags
  | loadCount
  | tlsIndex
  | hashLinks
  | timeDateStamp
  | entryPointActivationContext
  | lock
  | forwarderLinks
  | serviceTagLinks
  | staticLinks
  | contextInformation
  | originalBase
  | loadTime
  | ddagNode
  | nodeModuleLink
  | loadContext
  | parentDllBase
  | switchBackContext
  | baseAddressIndexNode
  | mappingInfoIndexNode
  | baseNameHashValue
  | loadReason
  | implicitPathOptions
  | referenceCount
  | dependentLoadFlags
  | signingLevel
  | checkSum
  | activePatchImageBase
  | hotPatchState
deriving DecidableEq, Repr

def member (host : Host) (declared : MemberName × MemberType) : Member MemberName :=
  ⟨declared.1, declared.2.size host, declared.2.alignment host⟩

/-- The members up to `TlsIndex`. -/
def firstMembers : List (MemberName × MemberType) :=
  [(.inLoadOrderLinks, .listEntry), (.inMemoryOrderLinks, .listEntry),
    (.inInitializationOrderLinks, .listEntry), (.dllBase, .pointer), (.entryPoint, .pointer),
    (.sizeOfImage, .dword), (.fullDllName, .unicodeString), (.baseDllName, .unicodeString),
    (.flags, .dword), (.loadCount, .word), (.tlsIndex, .word)]

/-- `LDR_DATA_TABLE_ENTRY_XP`. -/
def xpMembers : List (MemberName × MemberType) :=
  firstMembers ++ [(.hashLinks, .listEntry), (.timeDateStamp, .pointer),
    (.entryPointActivationContext, .pointer), (.lock, .pointer)]

/-- The members that `LDR_DATA_TABLE_ENTRY` has for all versions. -/
def commonMembers : List (MemberName × MemberType) :=
  firstMembers ++ [(.hashLinks, .listEntry), (.timeDateStamp, .dword),
    (.entryPointActivationContext, .pointer), (.lock, .pointer)]

/-- `LDR_DATA_TABLE_ENTRY_WIN8`. -/
def win8Members : List (MemberName × MemberType) :=
  commonMembers ++ [(.ddagNode, .pointer), (.nodeModuleLink, .listEntry), (.loadContext, .pointer),
    (.parentDllBase, .pointer), (.switchBackContext, .pointer),
    (.baseAddressIndexNode, .balancedNode), (.mappingInfoIndexNode, .balancedNode),
    (.originalBase, .qword), (.loadTime, .qword), (.baseNameHashValue, .dword),
    (.loadReason, .dword)]

/-- The entry types that the code casts to. -/
inductive EntryType where
  | common
  | xp
  | vista
  | win7
  | win8
  | winBlue
  | win10
  | win10_1
  | win10_2
  | win11
deriving DecidableEq, Repr

section Layouts

variable (host : Host)

def derived (base : Layout MemberName) (members : List (MemberName × MemberType)) :
    Layout MemberName := base.derive (members.map (member host))

def xpLayout : Layout MemberName := derived host .empty xpMembers

def vistaLayout : Layout MemberName :=
  derived host (xpLayout host)
    [(.forwarderLinks, .listEntry), (.serviceTagLinks, .listEntry), (.staticLinks, .listEntry)]

def win7Layout : Layout MemberName :=
  derived host (vistaLayout host)
    [(.contextInformation, .pointer), (.originalBase, .qword), (.loadTime, .qword)]

def win8Layout : Layout MemberName := derived host .empty win8Members

def winBlueLayout : Layout MemberName :=
  derived host (win8Layout host) [(.implicitPathOptions, .dword)]

def win10Layout : Layout MemberName :=
  derived host .empty
    (win8Members ++ [(.implicitPathOptions, .dword), (.referenceCount, .dword)])

def win10_1Layout : Layout MemberName :=
  derived host (win10Layout host) [(.dependentLoadFlags, .dword)]

def win10_2Layout : Layout MemberName :=
  derived host (win10Layout host) [(.dependentLoadFlags, .dword), (.signingLevel, .byte)]

def win11Layout : Layout MemberName :=
  derived host (win10_2Layout host)
    [(.checkSum, .dword), (.activePatchImageBase, .pointer), (.hotPatchState, .dword)]

def EntryType.layout : EntryType → Layout MemberName
  | .common => derived host .empty commonMembers
  | .xp => xpLayout host
  | .vista => vistaLayout host
  | .win7 => win7Layout host
  | .win8 => win8Layout host
  | .winBlue => winBlueLayout host
  | .win10 => win10Layout host
  | .win10_1 => win10_1Layout host
  | .win10_2 => win10_2Layout host
  | .win11 => win11Layout host

/-- `sizeof`. -/
def EntryType.size (type : EntryType) : Nat := (type.layout host).size

end Layouts

/-- The entry type of a system that `InitializeWindowsVersion` knows. -/
def knownEntryType : WindowsVersion → Option EntryType
  | .null | .invalid => none
  | .xp => some .xp
  | .vista => some .vista
  | .win7 => some .win7
  | .win8 => some .win8
  | .winBlue => some .winBlue
  | .win10 => some .win10
  | .win10_1 => some .win10_1
  | .win10_2 => some .win10_2
  | .win11 => some .win11

/-- The sizes that the code compares with, on the 64-bit targets. -/
theorem size_vista : EntryType.vista.size .amd64 = sizeofLdrDataTableEntryVista := by decide

theorem size_win7 : EntryType.win7.size .amd64 = sizeofLdrDataTableEntryWin7 := by decide

end WinPolyfillLoader.LdrEntry
