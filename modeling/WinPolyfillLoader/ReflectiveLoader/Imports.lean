import WinPolyfillLoader.ReflectiveLoader.Exports

/-!
Step 4 of `ReflectiveLoader`. A slot is looked up by ordinal if its entry in the lookup table
says so, and by the name that the slot itself refers to if not. The test for a missing lookup
table compares an address with null, so without one the headers of the image are read.
-/

namespace WinPolyfillLoader.ReflectiveLoader

open ByteMemory MemoryModule

/-- `IMAGE_IMPORT_DESCRIPTOR`. -/
def originalFirstThunk : Field := ⟨0, 4⟩
def descriptorName : Field := ⟨12, 4⟩
def firstThunk : Field := ⟨16, 4⟩
def sizeOfImportDescriptor : Nat := 20

/-- What is called through the pointers of step 1, in order. -/
inductive Call where
  | virtualAlloc (function size : Nat)
  | loadLibraryA (function lpLibFileName : Nat)
  | getProcAddress (function hModule lpProcName : Nat)
  | ntFlushInstructionCache (function : Nat)
  | entryPoint (function hinstance : Nat)
deriving DecidableEq, Repr

structure Process where
  bytes : Bytes
  calls : List Call

/-- What the functions at some addresses answer, and what they do to the memory. -/
structure Functions where
  virtualAlloc : (function size : Nat) → Bytes → Nat × Bytes
  loadLibraryA : (function lpLibFileName : Nat) → Bytes → Nat × Bytes
  getProcAddress : (function hModule lpProcName : Nat) → Bytes → Nat × Bytes

/-- `IMAGE_ORDINAL_FLAG`. -/
def byOrdinal (host : Host) (thunk : Nat) : Bool := thunk.testBit (8 * host.pointerSize - 1)

/-- The function that a module exports under an ordinal, with the arithmetic of `size_t`. -/
def functionByOrdinal (host : Host) (m : Bytes) (uiLibraryAddress ordinal : Nat) : Nat :=
  let uiExportDir := exportDirectory host m uiLibraryAddress
  let index := (ordinal % 0x10000 + host.addresses - member m uiExportDir exportBase) %
    host.addresses
  functionAddress host m uiLibraryAddress index

/-- `pLoadLibraryA`. -/
def Process.loadLibraryA (functions : Functions) (pointers : Pointers) (s : Process)
    (lpLibFileName : Nat) : Nat × Process :=
  let answer := functions.loadLibraryA (pointers .loadLibraryA) lpLibFileName s.bytes
  (answer.1, ⟨answer.2, s.calls ++ [.loadLibraryA (pointers .loadLibraryA) lpLibFileName]⟩)

/-- `pGetProcAddress`. -/
def Process.getProcAddress (functions : Functions) (pointers : Pointers) (s : Process)
    (hModule lpProcName : Nat) : Nat × Process :=
  let answer := functions.getProcAddress (pointers .getProcAddress) hModule lpProcName s.bytes
  (answer.1,
    ⟨answer.2, s.calls ++ [.getProcAddress (pointers .getProcAddress) hModule lpProcName]⟩)

/-- `DEREF(uiValueA) = …`. -/
def Process.patch (host : Host) (s : Process) (uiValueA address : Nat) : Process :=
  { s with bytes := writeLE s.bytes uiValueA host.pointerSize address }

/-- The name in the `IMAGE_IMPORT_BY_NAME` that a slot refers to. -/
def importName (host : Host) (uiBaseAddress slot : Nat) : Nat :=
  host.offset (host.offset uiBaseAddress slot) 2

def bindThunk (host : Host) (functions : Functions) (pointers : Pointers)
    (uiBaseAddress uiLibraryAddress uiValueA uiValueD : Nat) (s : Process) : Process :=
  let ordinal := readLE s.bytes uiValueD host.pointerSize
  if uiValueD ≠ 0 ∧ byOrdinal host ordinal = true then
    s.patch host uiValueA (functionByOrdinal host s.bytes uiLibraryAddress ordinal)
  else
    let lpProcName := importName host uiBaseAddress (readLE s.bytes uiValueA host.pointerSize)
    let answer := s.getProcAddress functions pointers uiLibraryAddress lpProcName
    answer.2.patch host uiValueA answer.1

/-- `while (DEREF(uiValueA))`; `none` if it still runs. -/
def bindThunks (host : Host) (functions : Functions) (pointers : Pointers)
    (uiBaseAddress uiLibraryAddress : Nat) : (fuel uiValueA uiValueD : Nat) → Process →
      Option Process
  | 0, _, _, _ => none
  | fuel + 1, uiValueA, uiValueD, s =>
    if readLE s.bytes uiValueA host.pointerSize ≠ 0 then
      bindThunks host functions pointers uiBaseAddress uiLibraryAddress fuel
        (host.offset uiValueA host.pointerSize)
        (if uiValueD ≠ 0 then host.offset uiValueD host.pointerSize else uiValueD)
        (bindThunk host functions pointers uiBaseAddress uiLibraryAddress uiValueA uiValueD s)
    else some s

def bindImports (host : Host) (functions : Functions) (pointers : Pointers)
    (uiBaseAddress : Nat) : (fuel uiValueC : Nat) → Process → Option Process
  | 0, _, _ => none
  | fuel + 1, uiValueC, s =>
    if member s.bytes uiValueC descriptorName ≠ 0 then
      let answer := s.loadLibraryA functions pointers
        (host.offset uiBaseAddress (member s.bytes uiValueC descriptorName))
      let s := answer.2
      match bindThunks host functions pointers uiBaseAddress answer.1 fuel
          (host.offset uiBaseAddress (member s.bytes uiValueC firstThunk))
          (host.offset uiBaseAddress (member s.bytes uiValueC originalFirstThunk)) s with
      | none => none
      | some s =>
        bindImports host functions pointers uiBaseAddress fuel
          (host.offset uiValueC sizeOfImportDescriptor) s
    else some s

end WinPolyfillLoader.ReflectiveLoader
