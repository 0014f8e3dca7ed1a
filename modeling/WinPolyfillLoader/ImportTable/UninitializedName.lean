import WinPolyfillLoader.ImportTable.Binding

/-!
A thunk by name is looked up by a local string that nothing initialises. What the
function binds is right whatever that string holds exactly if the
function cannot succeed or the DLLs do not tell their names apart.
-/

namespace WinPolyfillLoader.ImportTable

open ByteMemory LdrEntry

/-- The memory holds the import directory of an image at `base`. -/
structure ImportDirectory (env : Environment) (m : Bytes) (base : Nat) (ntHeaders : NtHeaders)
    (imports : List Import) : Prop where
  absent : ntHeaders.importSize = 0 → imports = []
  address : ntHeaders.importSize ≠ 0 → ntHeaders.imageBase + ntHeaders.importVirtualAddress ≠ 0
  directory : ntHeaders.importSize ≠ 0 →
    DirectoryAt env m base (ntHeaders.imageBase + ntHeaders.importVirtualAddress) imports
  separate : ntHeaders.importSize ≠ 0 →
    Separate env base (ntHeaders.imageBase + ntHeaders.importVirtualAddress) imports
  names : ∀ d ∈ imports, ∀ t ∈ d.thunks, imageSnapByOrdinal env.target t.value = false →
    rtlInitAnsiString env.mapped m (base + t.value + 2) = some t.name

/-- Each slot of each descriptor holds the address that the DLL gives for its thunk. -/
def Correct (env : Environment) (m : Bytes) (base : Nat) (imports : List Import) : Prop :=
  ∀ d ∈ imports, ∃ handle, dllHandle env d.dllName = some handle ∧
    ∀ i (h : i < d.thunks.length), thunkAddress env handle (d.thunks.get ⟨i, h⟩) =
      some (readLE m (d.slots base + env.target.pointerSize * i) env.target.pointerSize)

/-- Some DLL is missing, or refuses an ordinal, or refuses every name. -/
def Refused (env : Environment) (imports : List Import) : Prop :=
  ∃ d ∈ imports, ∀ handle, dllHandle env d.dllName = some handle → ∃ t ∈ d.thunks,
    if imageSnapByOrdinal env.target t.value then
      dllAddress env handle none (imageOrdinal t.value) = none
    else ∀ name, dllAddress env handle (some name) 0 = none

/-- Every name that a DLL answers has the address of each name imported from it. -/
def NamesAgree (env : Environment) (imports : List Import) : Prop :=
  ∀ d ∈ imports, ∀ handle, dllHandle env d.dllName = some handle →
    ∀ t ∈ d.thunks, imageSnapByOrdinal env.target t.value = false →
      ∀ name address, dllAddress env handle (some name) 0 = some address →
        dllAddress env handle (some t.name) 0 = some address

variable {env : Environment} {m : Bytes} {base fuel : Nat} {ntHeaders : NtHeaders}
  {imports : List Import}

/-- The function returns, and succeeds exactly if every thunk is answered. -/
theorem memoryResolveImportTable_run (procedureNameAnsi : Uninitialized)
    (h : ImportDirectory env m base ntHeaders imports) (hfuel : imports.length < fuel)
    (hthunks : ∀ d ∈ imports, imports.length + d.thunks.length < fuel) :
    ∃ status m',
      memoryResolveImportTable env procedureNameAnsi fuel base ntHeaders m = some (status, m') ∧
      (ntSuccess status = true →
        AllBound env (askedAddress env procedureNameAnsi) m' base imports) ∧
      (AllAnswered env (askedAddress env procedureNameAnsi) base imports →
        ntSuccess status = true) := by
  unfold memoryResolveImportTable
  by_cases hsize : ntHeaders.importSize = 0
  · rw [h.absent hsize]
    exact ⟨statusSuccess, m, by simp [hsize], fun _ _ hd => absurd hd (by simp), fun _ => rfl⟩
  · have hok : ntSuccess statusSuccess = true := rfl
    obtain ⟨status, m', hrun, _, hbound, hanswered⟩ := resolveDescriptors_run procedureNameAnsi
      (h.directory hsize) (h.separate hsize) hok hfuel hthunks
    refine ⟨status, m', ?_, hbound, hanswered⟩
    simp only [if_pos hsize, if_pos (h.address hsize)]
    exact hrun

theorem correct_of_namesAgree {procedureNameAnsi : Uninitialized} (h : NamesAgree env imports)
    (hbound : AllBound env (askedAddress env procedureNameAnsi) m base imports) :
    Correct env m base imports := by
  intro d hd
  obtain ⟨handle, hhandle, hslots⟩ := hbound d hd
  refine ⟨handle, hhandle, fun i hi => ?_⟩
  have hasked := bound_iff.mp hslots i hi
  have hmem : d.thunks.get ⟨i, hi⟩ ∈ d.thunks := List.get_mem _ _
  unfold askedAddress at hasked
  unfold thunkAddress
  split at hasked
  · next hordinal => rw [if_pos hordinal, hasked]
  · next hnamed =>
    rw [if_neg hnamed]
    exact h d hd handle hhandle _ hmem (by simpa using hnamed) _ _ hasked

/-- Nothing is answered in full if some DLL is missing or refuses. -/
theorem not_allBound_of_refused {procedureNameAnsi : Uninitialized} (h : Refused env imports) :
    ¬ AllBound env (askedAddress env procedureNameAnsi) m base imports := by
  intro hbound
  obtain ⟨d, hd, hrefused⟩ := h
  obtain ⟨handle, hhandle, hslots⟩ := hbound d hd
  obtain ⟨t, ht, hnone⟩ := hrefused handle hhandle
  obtain ⟨i, hi⟩ := List.mem_iff_get.mp ht
  have hasked := bound_iff.mp hslots i i.isLt
  rw [hi, askedAddress] at hasked
  split at hasked
  · next hordinal =>
    rw [if_pos hordinal, hasked] at hnone
    cases hnone
  · next hnamed =>
    rw [if_neg hnamed] at hnone
    rw [hnone] at hasked
    cases hasked

/-- If nothing is refused, the string can hold a name at every call that makes
the function succeed, with any answered name for one of the DLLs. -/
theorem exists_names (base : Nat) (h : ¬ Refused env imports) {handle address : Nat}
    {name : List UInt8}
    (hname : dllAddress env handle (some name) 0 = some address) :
    ∃ procedureNameAnsi : Uninitialized, (∀ funcRef, procedureNameAnsi handle funcRef = name) ∧
      AllAnswered env (askedAddress env procedureNameAnsi) base imports := by
  classical
  let known (k : Nat) : List UInt8 :=
    if hk : ∃ n, (dllAddress env k (some n) 0).isSome = true then hk.choose else []
  have hknown : ∀ k n, (dllAddress env k (some n) 0).isSome = true →
      (dllAddress env k (some (known k)) 0).isSome = true := by
    intro k n hn
    have hk : ∃ n, (dllAddress env k (some n) 0).isSome = true := ⟨n, hn⟩
    simp only [known, dif_pos hk]
    exact hk.choose_spec
  refine ⟨fun k _ => if k = handle then name else known k, fun _ => if_pos rfl, ?_⟩
  intro d hd
  unfold Refused at h
  push Not at h
  obtain ⟨k, hk, hanswers⟩ := h d hd
  refine ⟨k, hk, answered_of_forall fun t ht b => ?_⟩
  have ht' := hanswers t ht
  unfold askedAddress
  split
  · next hordinal =>
    rw [if_pos hordinal] at ht'
    exact Option.isSome_iff_ne_none.mpr ht'
  · next hnamed =>
    rw [if_neg hnamed] at ht'
    push Not at ht'
    obtain ⟨n, hn⟩ := ht'
    by_cases heq : k = handle
    · simp [heq, hname]
    · simp only [if_neg heq]
      exact hknown k n (Option.isSome_iff_ne_none.mpr hn)

/-- A DLL with two exports, `f` and `g`. -/
def twoExports : Environment where
  target := .win64
  mapped _ := true
  helpers := {
    rtlAnsiStringToUnicodeString := fun s => (statusSuccess, s.map fun c => BitVec.ofNat 16 c.toNat)
    ldrGetDllHandle := fun _ => (statusSuccess, 0x70000)
    ldrGetProcedureAddress := fun _ name _ =>
      if name = some [0x66] then (statusSuccess, 0x71000)
      else if name = some [0x67] then (statusSuccess, 0x72000)
      else (statusEntrypointNotFound, 0) }

/-- An image at 0x1000 that imports `f` from the DLL `d`. -/
def importsF : Bytes := fun a =>
  if a = 0x1101 then 2 else if a = 0x110d then 3 else if a = 0x1111 then 4
  else if a = 0x1201 then 5 else if a = 0x1300 then 0x64 else if a = 0x1502 then 0x66 else 0

def importsFHeaders : NtHeaders := ⟨0x1000, 0x100, 40⟩

def importF : Import := ⟨0x200, 0x300, 0x400, [0x64], [⟨0x500, [0x66]⟩]⟩

theorem importsF_directory :
    ImportDirectory twoExports importsF 0x1000 importsFHeaders [importF] where
  absent := by decide
  address := by decide
  directory := fun _ => by
    refine ⟨?_, rfl⟩
    exact {
      name := rfl
      named := by decide
      dllName := rfl
      originalFirstThunk := rfl
      firstThunk := rfl
      thunks := ⟨rfl, by decide, rfl⟩
      slots := rfl }
  separate := fun _ => ⟨by decide, by decide, by simp, trivial⟩
  names := by
    intro d hd t ht _
    cases List.mem_singleton.mp hd
    cases List.mem_singleton.mp ht
    rfl

end WinPolyfillLoader.ImportTable
