import WinPolyfillLoader.Library.Runs
import WinPolyfillLoader.Loader.LdrLoadDllMemory

/-!
The .NET hooks of `MmpDotNet.cpp`. A file that is a memory module is opened as an
event, and the list of fake handles says what the event, or the base of an image
view, stands for. A hook that finds its argument in the list answers itself;
otherwise the original function is called. `none` is a call that does not return.
-/

namespace WinPolyfillLoader.MmpDotNet

open Loader LdrEntry

variable {δ ι τ ρ : Type}

/-- `MMP_FAKE_HANDLE_LIST_ENTRY`. The value is the LDR entry of the module, or for
an image view the base of the view. -/
structure FakeHandleEntry where
  hObject : Nat
  value : Nat
  bImageMapping : Bool
deriving DecidableEq, Repr

structure DotNetProcess (δ ι τ ρ : Type) where
  fakeHandleList : List FakeHandleEntry
  process : Process δ ι τ ρ

/-- The helpers of the hooks: those of the loader, the names of the LDR entries, and
two members of the `MEMORYMODULE` of a mapped image. `IsValidMemoryModuleHandle` and
`MapMemoryModuleHandle` ask for the module at a base. -/
structure DotNetHelpers (δ ι τ ρ : Type) extends Helpers δ ι τ ρ where
  fullDllName : δ → Nat → List Wchar
  lpReserved : ρ → Nat → Nat
  dwImageFileSize : ρ → Nat → Dword
  assemblyTimes : Nat

/-- What a hook returns on its memory-module branch, or that it hands its arguments to
the original function. -/
inductive Answer (α : Type) where
  | fake (value : α)
  | original
deriving DecidableEq, Repr

/-- `MmpIsMemoryModuleFileName`: the first entry of that name, if its base is a memory
module. -/
def mmpIsMemoryModuleFileName (D : DotNetHelpers δ ι τ ρ) (lpFileName : List Wchar)
    (p : Process δ ι τ ρ) : Option Nat :=
  match (D.inLoadOrderModuleList p.database).find?
    fun e => D.fullDllName p.database e == lpFileName with
  | none => none
  | some entry =>
    if (p.modules (D.ldrEntryAt p.database entry).dllBase).isSome then some entry else none

/-- `MmpInsertHandleEntry`. The block is written to without a check. -/
def mmpInsertHandleEntry (allocated : Bool) (hObject value : Nat) (bImageMapping : Bool)
    (s : DotNetProcess δ ι τ ρ) : Option (DotNetProcess δ ι τ ρ) :=
  if allocated then
    some { s with fakeHandleList := s.fakeHandleList ++ [⟨hObject, value, bImageMapping⟩] }
  else none

def mmpFindHandleEntry (s : DotNetProcess δ ι τ ρ) (hObject : Nat) : Option FakeHandleEntry :=
  s.fakeHandleList.find? fun entry => entry.hObject == hObject

def mmpFreeHandleEntry (entry : FakeHandleEntry) (s : DotNetProcess δ ι τ ρ) :
    DotNetProcess δ ι τ ρ :=
  { s with fakeHandleList := s.fakeHandleList.erase entry }

/-- `HookCreateFileW`; the event is `CreateEventW`'s. -/
def hookCreateFileW (D : DotNetHelpers δ ι τ ρ) (lpFileName : List Wchar) (hEvent : Nat)
    (allocated : Bool) (s : DotNetProcess δ ι τ ρ) : Option (Answer Nat × DotNetProcess δ ι τ ρ) :=
  match mmpIsMemoryModuleFileName D lpFileName s.process with
  | some entry =>
      (mmpInsertHandleEntry allocated hEvent entry false s).map fun s => (.fake hEvent, s)
  | none => some (.original, s)

def mappedModule (D : DotNetHelpers δ ι τ ρ) (entry : Nat) (p : Process δ ι τ ρ) : Option Nat :=
  let dllBase := (D.ldrEntryAt p.database entry).dllBase
  if (p.modules dllBase).isSome then some dllBase else none

/-- The size that the hooks for a file read: a null module faults. -/
def imageFileSize (D : DotNetHelpers δ ι τ ρ) (hFile : Nat) (s : DotNetProcess δ ι τ ρ) :
    Option (Answer Dword) :=
  match mmpFindHandleEntry s hFile with
  | none => some .original
  | some iter =>
      (mappedModule D iter.value s.process).map fun base =>
        .fake (D.dwImageFileSize s.process.regions base)

structure FileInformation where
  ftCreationTime : Nat
  ftLastAccessTime : Nat
  ftLastWriteTime : Nat
  nFileSizeLow : Dword
deriving DecidableEq, Repr

def hookGetFileInformationByHandle (D : DotNetHelpers δ ι τ ρ) (hFile : Nat)
    (s : DotNetProcess δ ι τ ρ) : Option (Answer FileInformation) :=
  (imageFileSize D hFile s).map fun
    | .fake size => .fake ⟨D.assemblyTimes, D.assemblyTimes, D.assemblyTimes, size⟩
    | .original => .original

/-- `HookGetFileSize`: the high part is 0. -/
def hookGetFileSize (D : DotNetHelpers δ ι τ ρ) (hFile : Nat) (s : DotNetProcess δ ι τ ρ) :
    Option (Answer (Dword × Dword)) :=
  (imageFileSize D hFile s).map fun
    | .fake size => .fake (0, size)
    | .original => .original

def hookGetFileSizeEx (D : DotNetHelpers δ ι τ ρ) (hFile : Nat) (s : DotNetProcess δ ι τ ρ) :
    Option (Answer Nat) :=
  (imageFileSize D hFile s).map fun
    | .fake size => .fake size.toNat
    | .original => .original

def secImage : Dword := 0x01000000

def hookCreateFileMappingW (hFile : Nat) (flProtect : Dword) (hEvent : Nat) (allocated : Bool)
    (s : DotNetProcess δ ι τ ρ) : Option (Answer Nat × DotNetProcess δ ι τ ρ) :=
  match mmpFindHandleEntry s hFile with
  | some iter =>
      (mmpInsertHandleEntry allocated hEvent iter.value (flProtect &&& secImage != 0) s).map
        fun s => (.fake hEvent, s)
  | none => some (.original, s)

/-- The process after `MemoryLoadLibrary` has mapped the buffer of the module at
`base`, and the base of the view, null if it failed. -/
def mapImageView (D : DotNetHelpers δ ι τ ρ) (base : Nat) (p : Process δ ι τ ρ) :
    Nat × Process δ ι τ ρ :=
  match D.memoryLoadLibrary (D.lpReserved p.regions base) p.regions with
  | (_, hModule, regions) =>
    if hModule = 0 then (0, { p with regions := regions })
    else
      (hModule, ({ p with regions := regions }.setModule hModule
        (some ⟨hModule, 0, false, false, false, false, false, false, false⟩)).log
          [.did .loadLibrary hModule])

/-- `HookMapViewOfFileEx`, and `HookMapViewOfFile`, which calls it. -/
def hookMapViewOfFileEx (D : DotNetHelpers δ ι τ ρ) (hFileMappingObject : Nat) (allocated : Bool)
    (s : DotNetProcess δ ι τ ρ) : Option (Answer Nat × DotNetProcess δ ι τ ρ) :=
  match mmpFindHandleEntry s hFileMappingObject with
  | none => some (.original, s)
  | some iter =>
    match mappedModule D iter.value s.process with
    | none => some (.fake 0, s)
    | some base =>
      if iter.bImageMapping then
        match mapImageView D base s.process with
        | (hModule, p) =>
          if hModule ≠ 0 then
            (mmpInsertHandleEntry allocated hModule hModule false { s with process := p }).map
              fun s => (.fake hModule, s)
          else some (.fake 0, { s with process := p })
      else some (.fake (D.lpReserved s.process.regions base), s)

/-- `HookUnmapViewOfFile`. The result of `MemoryFreeLibrary` is not read. -/
def hookUnmapViewOfFile (D : DotNetHelpers δ ι τ ρ) (lpBaseAddress : Nat)
    (s : DotNetProcess δ ι τ ρ) : Answer Bool × DotNetProcess δ ι τ ρ :=
  match mmpFindHandleEntry s lpBaseAddress with
  | some iter =>
      (.fake true, mmpFreeHandleEntry iter
        { s with process := (freeLibrary D.toHelpers lpBaseAddress s.process).2 })
  | none => (.original, s)

/-- `HookCloseHandle`. The event is closed by the original function. -/
def hookCloseHandle (hObject : Nat) (s : DotNetProcess δ ι τ ρ) :
    Answer Bool × DotNetProcess δ ι τ ρ :=
  match mmpFindHandleEntry s hObject with
  | some iter => (.original, mmpFreeHandleEntry iter s)
  | none => (.original, s)

/-- The calls, each with the answers of the system that it gets. -/
inductive Call where
  | createFile (lpFileName : List Wchar) (hEvent : Nat) (allocated : Bool)
  | getFileInformationByHandle (hFile : Nat)
  | getFileSize (hFile : Nat)
  | getFileSizeEx (hFile : Nat)
  | createFileMapping (hFile : Nat) (flProtect : Dword) (hEvent : Nat) (allocated : Bool)
  | mapViewOfFile (hFileMappingObject : Nat) (allocated : Bool)
  | unmapViewOfFile (lpBaseAddress : Nat)
  | closeHandle (hObject : Nat)
  | loadDllMemory (request : LoadRequest)
  | unloadDllMemory (base : Nat)

def returned (D : DotNetHelpers δ ι τ ρ) (s : DotNetProcess δ ι τ ρ) :
    Call → Option (DotNetProcess δ ι τ ρ)
  | .createFile lpFileName hEvent allocated =>
      (hookCreateFileW D lpFileName hEvent allocated s).map (·.2)
  | .getFileInformationByHandle hFile => (hookGetFileInformationByHandle D hFile s).map fun _ => s
  | .getFileSize hFile => (hookGetFileSize D hFile s).map fun _ => s
  | .getFileSizeEx hFile => (hookGetFileSizeEx D hFile s).map fun _ => s
  | .createFileMapping hFile flProtect hEvent allocated =>
      (hookCreateFileMappingW hFile flProtect hEvent allocated s).map (·.2)
  | .mapViewOfFile hFileMappingObject allocated =>
      (hookMapViewOfFileEx D hFileMappingObject allocated s).map (·.2)
  | .unmapViewOfFile lpBaseAddress => some (hookUnmapViewOfFile D lpBaseAddress s).2
  | .closeHandle hObject => some (hookCloseHandle hObject s).2
  | .loadDllMemory request =>
      match ldrLoadDllMemoryExW D.toHelpers request s.process with
      | .ok result => some { s with process := result.process }
      | .error _ => none
  | .unloadDllMemory base =>
      match ldrUnloadDllMemory D.toHelpers base s.process with
      | .ok (_, p) => some { s with process := p }
      | .error _ => none

/-- A call that does not return ends the process; it has no next state. -/
def callStep (D : DotNetHelpers δ ι τ ρ) (s : DotNetProcess δ ι τ ρ) (call : Call) :
    DotNetProcess δ ι τ ρ :=
  (returned D s call).getD s

def fakeHandles (s : DotNetProcess δ ι τ ρ) : List Nat := s.fakeHandleList.map (·.hObject)

theorem mmpFindHandleEntry_some {s : DotNetProcess δ ι τ ρ} {hObject : Nat}
    {entry : FakeHandleEntry} (h : mmpFindHandleEntry s hObject = some entry) :
    entry ∈ s.fakeHandleList ∧ entry.hObject = hObject :=
  ⟨List.mem_of_find?_eq_some h, by simpa using List.find?_some h⟩

theorem mmpInsertHandleEntry_some {s s' : DotNetProcess δ ι τ ρ} {allocated bImageMapping : Bool}
    {hObject value : Nat}
    (h : mmpInsertHandleEntry allocated hObject value bImageMapping s = some s') :
    s' = { s with fakeHandleList := s.fakeHandleList ++ [⟨hObject, value, bImageMapping⟩] } := by
  unfold mmpInsertHandleEntry at h
  split at h
  · cases h
    rfl
  · cases h

end WinPolyfillLoader.MmpDotNet
