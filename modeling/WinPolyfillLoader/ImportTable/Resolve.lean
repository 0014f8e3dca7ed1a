import WinPolyfillLoader.LdrEntry.State
import WinPolyfillLoader.Library.Memory

/-!
`MemoryResolveImportTable`. The two loops walk the memory with fuel; `none`
means that they are still running. An access violation ends the call with its
code, as the exception handler does.
-/

namespace WinPolyfillLoader.ImportTable

open ByteMemory LdrEntry

inductive Target where
  | win32
  | win64
deriving DecidableEq, Repr

def Target.pointerSize : Target → Nat
  | .win32 => 4
  | .win64 => 8

/-- What the function reads of the NT headers. -/
structure NtHeaders where
  imageBase : Nat
  importVirtualAddress : Nat
  importSize : Nat
deriving DecidableEq, Repr

/-- The functions of `ntdll`. A procedure is asked for by name, if the name is
not null, else by its number. -/
structure ImportHelpers where
  rtlAnsiStringToUnicodeString : List UInt8 → NtStatus × List Wchar
  ldrGetDllHandle : List Wchar → NtStatus × Nat
  ldrGetProcedureAddress : Nat → Option (List UInt8) → Nat → NtStatus × Nat

structure Environment where
  target : Target
  mapped : Nat → Bool
  helpers : ImportHelpers

/-- What the local `ProcedureNameANSI`, which nothing initialises, stands for
when a handle is asked for the procedure of a slot. -/
abbrev Uninitialized := (handle funcRef : Nat) → List UInt8

def unicodeStringMaxBytes : Nat := 0xFFFE

def rtlInitAnsiString (mapped : Nat → Bool) (m : Bytes) (source : Nat) : Option (List UInt8) :=
  loadString mapped m unicodeStringMaxBytes source

/-- `IMAGE_SNAP_BY_ORDINAL`: the top bit of the thunk. -/
def imageSnapByOrdinal (target : Target) (thunk : Nat) : Bool :=
  thunk.testBit (8 * target.pointerSize - 1)

def imageOrdinal (thunk : Nat) : Nat := thunk % 0x10000

/-- The call of `LdrGetProcedureAddress` for one thunk. -/
def getProcedureAddress (env : Environment) (procedureNameAnsi : Uninitialized)
    (handle thunk funcRef : Nat) : NtStatus × Nat :=
  if imageSnapByOrdinal env.target thunk then
    env.helpers.ldrGetProcedureAddress handle none (imageOrdinal thunk)
  else env.helpers.ldrGetProcedureAddress handle (some (procedureNameAnsi handle funcRef)) 0

/-- `while (*thunkRef)`. -/
def resolveThunks (env : Environment) (procedureNameAnsi : Uninitialized) (handle : Nat) :
    Nat → NtStatus → Nat → Nat → Bytes → Option (NtStatus × Bytes)
  | 0, _, _, _, _ => none
  | fuel + 1, status, thunkRef, funcRef, m =>
    match load env.mapped m thunkRef env.target.pointerSize with
    | none => some (statusAccessViolation, m)
    | some 0 => some (status, m)
    | some thunk =>
      match getProcedureAddress env procedureNameAnsi handle thunk funcRef with
      | (status, address) =>
        if !ntSuccess status then some (status, m)
        else
          match store env.mapped m funcRef env.target.pointerSize address with
          | none => some (statusAccessViolation, m)
          | some m =>
            if readLE m funcRef env.target.pointerSize = 0 then
              some (statusEntrypointNotFound, m)
            else
              resolveThunks env procedureNameAnsi handle fuel status
                (thunkRef + env.target.pointerSize) (funcRef + env.target.pointerSize) m

/-- The DLL named at `nameAddress` with the status so far, or the status that
ends the loop. -/
def findDll (env : Environment) (nameAddress : Nat) (m : Bytes) :
    Except NtStatus (NtStatus × Nat) :=
  match rtlInitAnsiString env.mapped m nameAddress with
  | none => .error statusAccessViolation
  | some dllNameAscii =>
    match env.helpers.rtlAnsiStringToUnicodeString dllNameAscii with
    | (status, dllNameUnicode) =>
      if !ntSuccess status then .error status
      else
        match env.helpers.ldrGetDllHandle dllNameUnicode with
        | (status, handle) =>
          if !ntSuccess status then .error status
          else if handle = 0 then .error statusDllNotFound
          else .ok (status, handle)

/-- `for (; importDesc->Name; ++importDesc)`. -/
def resolveDescriptors (env : Environment) (procedureNameAnsi : Uninitialized) (base : Nat) :
    Nat → NtStatus → Nat → Bytes → Option (NtStatus × Bytes)
  | 0, _, _, _ => none
  | fuel + 1, status, importDesc, m =>
    match load env.mapped m (importDesc + 12) 4 with
    | none => some (statusAccessViolation, m)
    | some 0 => some (status, m)
    | some name =>
      match findDll env (base + name) m with
      | .error status => some (status, m)
      | .ok (status, handle) =>
        match load env.mapped m importDesc 4, load env.mapped m (importDesc + 16) 4 with
        | some originalFirstThunk, some firstThunk =>
          let thunks := if originalFirstThunk ≠ 0 then originalFirstThunk else firstThunk
          match resolveThunks env procedureNameAnsi handle fuel status (base + thunks)
            (base + firstThunk) m with
          | none => none
          | some (status, m) =>
            if !ntSuccess status then some (status, m)
            else resolveDescriptors env procedureNameAnsi base fuel status (importDesc + 20) m
        | _, _ => some (statusAccessViolation, m)

def memoryResolveImportTable (env : Environment) (procedureNameAnsi : Uninitialized)
    (fuel base : Nat) (ntHeaders : NtHeaders) (m : Bytes) : Option (NtStatus × Bytes) :=
  if ntHeaders.importSize ≠ 0 then
    let importDesc := ntHeaders.imageBase + ntHeaders.importVirtualAddress
    if importDesc ≠ 0 then
      resolveDescriptors env procedureNameAnsi base fuel statusSuccess importDesc m
    else some (statusSuccess, m)
  else some (statusSuccess, m)

end WinPolyfillLoader.ImportTable
