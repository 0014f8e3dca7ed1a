import WinPolyfillLoader.Loader.LoadExits
import WinPolyfillLoader.Loader.ReferenceCount
import WinPolyfillLoader.MemoryModule.DllImage

/-!
`LoadLibraryMemoryExW` and `LoadLibraryMemoryExA`. They return the output
variable of the load and not its status, so every exit of `LdrLoadDllMemoryExW`
decides what handle the caller gets.
-/

namespace WinPolyfillLoader.Loader

open LdrEntry EarlyExit

variable {δ ι τ ρ : Type}

/-- What a call returns, the status of `LdrLoadDllMemoryExW` if that was called,
and the last error if one was set. -/
structure ApiResult (δ ι τ ρ : Type) where
  handle : Nat
  status : Option NtStatus
  lastError : Option Dword
  process : Process δ ι τ ρ

def loadLibraryMemoryExW (H : Helpers δ ι τ ρ) (rtlNtStatusToDosError : NtStatus → Dword)
    (bufferAddress reserved : Nat) (dllBaseName dllFullName : Option (List Wchar)) (flags : Dword)
    (p : Process δ ι τ ρ) : Except Fault (ApiResult δ ι τ ρ) :=
  match ldrLoadDllMemoryExW H ⟨flags, bufferAddress, reserved, dllBaseName, dllFullName, 0, 0⟩ p with
  | .error fault => .error fault
  | .ok result =>
    .ok {
      handle := result.baseAddress
      status := some result.status
      lastError :=
        if !ntSuccess result.status || result.status == statusImageMachineTypeMismatch then
          some (rtlNtStatusToDosError result.status)
        else none
      process := result.process }

/-- The wide copy of a name: `none` if `RtlAllocateHeap` refuses its buffer. -/
def wideName (mbstowcs : List (BitVec 8) → List Wchar) (allocated : Bool) :
    Option (List (BitVec 8)) → Option (Option (List Wchar))
  | none => some none
  | some name => if allocated then some (some (mbstowcs name)) else none

/-- `LoadLibraryMemoryExA`. `allocated` are the answers for the two buffers, which
are freed at the end; the size that is passed on is always 0. -/
def loadLibraryMemoryExA (H : Helpers δ ι τ ρ) (rtlNtStatusToDosError : NtStatus → Dword)
    (mbstowcs : List (BitVec 8) → List Wchar) (allocated : Bool × Bool) (bufferAddress : Nat)
    (dllBaseName dllFullName : Option (List (BitVec 8))) (flags : Dword) (p : Process δ ι τ ρ) :
    Except Fault (ApiResult δ ι τ ρ) :=
  match wideName mbstowcs allocated.1 dllBaseName, wideName mbstowcs allocated.2 dllFullName with
  | some baseName, some fullName =>
      loadLibraryMemoryExW H rtlNtStatusToDosError bufferAddress 0 baseName fullName flags p
  | _, _ => .ok ⟨0, none, none, p⟩

/-- `MapMemoryModuleHandle` finds the module. -/
def StillMapped (base : Nat) (p : Process δ ι τ ρ) : Prop :=
  ∃ module, p.modules base = some module

/-- The handle is not null exactly if the load succeeded, and it is that of a
module that is mapped. -/
def HandleTellsStatus (result : ApiResult δ ι τ ρ) : Prop :=
  (result.handle ≠ 0 ↔ ∃ status, result.status = some status ∧ ntSuccess status = true ∧
    status ≠ statusImageMachineTypeMismatch) ∧
  (result.handle ≠ 0 → StillMapped result.handle result.process)

/-- What the exits rely on: `MemoryLoadLibrary` is the modelled one, and the
helpers that give the load its last status do not succeed with the mismatch of the
machine type. -/
structure Helpers.HandleLaws (H : Helpers δ ι τ ρ) : Prop where
  load_library : ∀ buffer r, ∃ c fuel s, (MemoryModule.memoryLoadLibrary c fuel s).1 =
    some ((H.memoryLoadLibrary buffer r).1, (H.memoryLoadLibrary buffer r).2.1)
  protect_status : ∀ base r,
    (H.memorySetSectionProtection base r).1 ≠ statusImageMachineTypeMismatch
  insert_status : ∀ base size t,
    (H.rtlInsertInvertedFunctionTable base size t).1 ≠ statusImageMachineTypeMismatch
  tls_status : ∀ entry t, (H.mmpHandleTlsData entry t).1 ≠ statusImageMachineTypeMismatch

/-- The failure of the step of the unmapped path that fails first. -/
def unmappedFailure (H : Helpers δ ι τ ρ) (base : Nat) (regions : ρ) : Option NtStatus :=
  let resolved := H.memoryResolveImportTable base regions
  failureOf ntSuccess resolved.1 <|>
    failureOf ntSuccess (H.memorySetSectionProtection base resolved.2).1 <|>
    (if H.ldrpExecuteTls base && (H.ldrpCallInitializers base).1 then none
      else some statusDllInitFailed)

/-- The image is loaded, and a step of the unmapped path fails on it. -/
def UnmappedImageFails (H : Helpers δ ι τ ρ) (bufferAddress : Nat) (start : Process δ ι τ ρ) :
    Prop :=
  ∃ status base regions headers,
    H.memoryLoadLibrary bufferAddress start.regions = (status, base, regions) ∧
      ntSuccess status = true ∧ status ≠ statusImageMachineTypeMismatch ∧
      H.rtlImageNtHeader regions base = some headers ∧ unmappedFailure H base regions ≠ none

/-- The request passes the checks and asks for an unmapped load, and its image
fails on that path. -/
structure FailedUnmappedLoad (H : Helpers δ ι τ ρ) (request : LoadRequest)
    (start : Process δ ι τ ρ) : Prop where
  bufferSize : request.bufferSize = 0
  buffer : ntSuccess (checkBuffer H request) = true
  unmapped : hasFlag request.dwFlags loadFlagsNotMapDll = true
  image : UnmappedImageFails H request.bufferAddress start

section Steps

variable {H : Helpers δ ι τ ρ} {base entry : Nat} {dwFlags : Dword}

/-- The module is mapped, and the status is not the mismatch. -/
def MappedMatching (base : Nat) (status : NtStatus) (p : Process δ ι τ ρ) : Prop :=
  StillMapped base p ∧ status ≠ statusImageMachineTypeMismatch

theorem stillMapped_updateModule {p q : Process δ ι τ ρ} (hq : q.modules = p.modules)
    (f : MemoryModule → MemoryModule) (h : StillMapped base p) :
    StillMapped base (updateModule base f q) := by
  obtain ⟨module, hmodule⟩ := h
  refine ⟨f module, ?_⟩
  simp [updateModule, Process.setModule, hq, hmodule]

theorem mapDllStep_leads (request : LoadRequest) (headers : ImageHeaders) :
    Leads (mapDllStep H request dwFlags headers base) (fun _ => StillMapped base)
      (fun _ => StillMapped base) := by
  intro status p h
  unfold mapDllStep
  split
  split
  · exact stillMapped_updateModule rfl _ h
  · exact h

theorem resolveImportsStep_leads :
    Leads (resolveImportsStep H base) (fun _ => StillMapped base) (fun _ => StillMapped base) :=
  fun _ _ h => h

theorem setProtectionStep_leads (laws : H.HandleLaws) :
    Leads (setProtectionStep H base) (fun _ => StillMapped base) (MappedMatching base) :=
  fun _ p h => ⟨h, laws.protect_status base p.regions⟩

theorem useReferenceCountStep_leads :
    Leads (useReferenceCountStep (δ := δ) (ι := ι) (τ := τ) (ρ := ρ) dwFlags base)
      (MappedMatching base) (MappedMatching base) := by
  intro status p h
  unfold useReferenceCountStep
  split
  · exact ⟨stillMapped_updateModule rfl _ h.1, h.2⟩
  · exact h

theorem insertInvertedStep_leads (laws : H.HandleLaws) (headers : ImageHeaders) :
    Leads (insertInvertedStep H dwFlags headers base) (MappedMatching base)
      (MappedMatching base) := by
  intro status p h
  unfold insertInvertedStep
  split
  · have hstatus := laws.insert_status base headers.sizeOfImage p.invertedTable
    rcases hinsert : H.rtlInsertInvertedFunctionTable base headers.sizeOfImage p.invertedTable with
      ⟨status', table⟩
    rw [hinsert] at hstatus
    dsimp only
    split
    · exact ⟨stillMapped_updateModule rfl _ h.1, hstatus⟩
    · exact ⟨h.1, hstatus⟩
  · exact h

theorem handleTlsStep_leads (laws : H.HandleLaws) :
    Leads (handleTlsStep H dwFlags base entry) (MappedMatching base) (MappedMatching base) := by
  intro status p h
  unfold handleTlsStep
  split
  · have hstatus := laws.tls_status entry p.tlsList
    rcases htls : H.mmpHandleTlsData entry p.tlsList with ⟨status', list⟩
    rw [htls] at hstatus
    dsimp only
    split
    · exact ⟨stillMapped_updateModule rfl _ h.1, hstatus⟩
    · split
      · have hinformational : (0x7fffffff : NtStatus) ≠ statusImageMachineTypeMismatch := by decide
        exact ⟨h.1, hinformational⟩
      · exact ⟨h.1, hstatus⟩
  · exact h

theorem initializeStep_leads :
    Leads (initializeStep H base) (MappedMatching base) (MappedMatching base) := by
  intro status p h
  have hfailed : statusDllInitFailed ≠ statusImageMachineTypeMismatch := by decide
  unfold initializeStep
  split
  · exact ⟨h.1, hfailed⟩
  · refine ⟨stillMapped_updateModule rfl _ h.1, ?_⟩
    dsimp only
    split
    · exact h.2
    · exact hfailed

/-- A step that fails before the protection is set ends with a failure. -/
theorem mappedMatching_of_failure {status : NtStatus} {p : Process δ ι τ ρ}
    (hfails : ntSuccess status = false) (h : StillMapped base p) : MappedMatching base status p := by
  refine ⟨h, ?_⟩
  rintro rfl
  cases hfails

theorem unmappedPath_leads (laws : H.HandleLaws) :
    Leads (unmappedPath H base) (fun _ => StillMapped base) (MappedMatching base) := by
  refine Leads.andThen resolveImportsStep_leads ?_ fun _ _ => mappedMatching_of_failure
  exact Leads.andThen (setProtectionStep_leads laws) initializeStep_leads fun _ _ _ h => h

theorem mappedPath_leads (laws : H.HandleLaws) (request : LoadRequest) (dwFlags : Dword)
    (headers : ImageHeaders) (entry : Nat) :
    Leads (mappedPath H request dwFlags headers base entry) (fun _ => StillMapped base)
      (MappedMatching base) := by
  refine Leads.andThen (mapDllStep_leads request headers) ?_ fun _ _ => mappedMatching_of_failure
  refine Leads.andThen resolveImportsStep_leads ?_ fun _ _ => mappedMatching_of_failure
  refine Leads.andThen (setProtectionStep_leads laws) ?_ fun _ _ _ h => h
  refine Leads.andThen useReferenceCountStep_leads ?_ fun _ _ _ h => h
  refine Leads.andThen (insertInvertedStep_leads laws headers) ?_ fun _ _ _ h => h
  exact Leads.andThen (handleTlsStep_leads laws) initializeStep_leads fun _ _ _ h => h

/-- The unmapped path ends with the failure of the step that fails first. -/
theorem unmappedPath_ends (H : Helpers δ ι τ ρ) (base : Nat) (regions : ρ) :
    Ends ntSuccess (unmappedPath H base) (fun p => p.regions = regions)
      (unmappedFailure H base regions) (fun _ => True) (fun _ => True) := by
  have hresolve : Ends ntSuccess (resolveImportsStep H base) (fun p => p.regions = regions)
      (failureOf ntSuccess (H.memoryResolveImportTable base regions).1)
      (fun p => p.regions = (H.memoryResolveImportTable base regions).2) (fun _ => True) := by
    apply Ends.of_status
    · rintro _ p rfl
      rfl
    · rintro _ p rfl -
      rfl
    · exact fun _ _ _ _ => trivial
  have hprotect : Ends ntSuccess (setProtectionStep H base)
      (fun p => p.regions = (H.memoryResolveImportTable base regions).2)
      (failureOf ntSuccess
        (H.memorySetSectionProtection base (H.memoryResolveImportTable base regions).2).1)
      (fun _ => True) (fun _ => True) := by
    apply Ends.of_status
    · rintro _ p hp
      rw [← hp]
      rfl
    · exact fun _ _ _ _ => trivial
    · exact fun _ _ _ _ => trivial
  have hinitialize : Ends ntSuccess (initializeStep H base) (fun _ => True)
      (if H.ldrpExecuteTls base && (H.ldrpCallInitializers base).1 then none
        else some statusDllInitFailed) (fun _ => True) (fun _ => True) := by
    intro status p hok _
    rw [initializeStep]
    cases H.ldrpExecuteTls base with
    | false => exact ⟨rfl, rfl, trivial⟩
    | true =>
      rcases H.ldrpCallInitializers base with ⟨result, initialized⟩
      cases result with
      | false => exact ⟨rfl, rfl, trivial⟩
      | true => exact ⟨hok, trivial⟩
  exact hresolve.andThen (hprotect.andThen hinitialize)

end Steps

section Exits

variable {H : Helpers δ ι τ ρ} (laws : H.HandleLaws) {start : Process δ ι τ ρ}

include laws

theorem load_handle {buffer base : Nat} {r r' : ρ} {status : NtStatus}
    (h : H.memoryLoadLibrary buffer r = (status, base, r')) :
    base ≠ 0 ↔ ntSuccess status = true ∧ status ≠ statusImageMachineTypeMismatch := by
  obtain ⟨c, fuel, s, hrun⟩ := laws.load_library buffer r
  rw [h] at hrun
  exact MemoryModule.memoryLoadLibrary_handle (Prod.ext hrun rfl)

omit laws in
/-- `LdrLoadDllMemoryExW` hands out a base exactly with a success, and the module is there. -/
def Consistent (result : LoadResult δ ι τ ρ) : Prop :=
  (result.baseAddress ≠ 0 ↔ ntSuccess result.status = true ∧
    result.status ≠ statusImageMachineTypeMismatch) ∧
  (result.baseAddress ≠ 0 → StillMapped result.baseAddress result.process)

omit laws in
theorem consistent_refused {status : NtStatus} {entry : Nat} {p : Process δ ι τ ρ}
    (hfails : ntSuccess status = false) : Consistent ⟨status, 0, entry, p⟩ := by
  refine ⟨iff_of_false (fun h => h rfl) fun h => ?_, fun h => absurd rfl h⟩
  rw [hfails] at h
  cases h.1

omit laws in
theorem consistent_loaded {status : NtStatus} {base entry : Nat} {p : Process δ ι τ ρ}
    (hbase : base ≠ 0) (hok : ntSuccess status = true) (h : MappedMatching base status p) :
    Consistent ⟨status, base, entry, p⟩ :=
  ⟨iff_of_true hbase ⟨hok, h.2⟩, fun _ => h.1⟩

/-- The exits from `MemoryLoadLibrary` on. Only on the unmapped path does a failure
leave a handle. -/
theorem loadImage_consistent_iff {request : LoadRequest} {result : LoadResult δ ι τ ρ}
    (h : loadImage H request start = .ok result) :
    Consistent result ↔ ¬ (hasFlag request.dwFlags loadFlagsNotMapDll = true ∧
      UnmappedImageFails H request.bufferAddress start) := by
  have hfresh (base : Nat) (regions : ρ) : StillMapped base (pathStart start base regions) :=
    ⟨freshModule base, Function.update_self _ _ _⟩
  cases loadImage_exits h with
  | refused status base regions hlibrary hrefused hresult =>
    have hhandle := load_handle laws hlibrary
    rw [hresult]
    refine iff_of_true ⟨hhandle, fun hbase => absurd (hhandle.mp hbase) hrefused⟩ ?_
    rintro ⟨-, _, _, _, _, hlibrary', hok, hmachine, -⟩
    rw [hlibrary] at hlibrary'
    cases hlibrary'
    exact hrefused ⟨hok, hmachine⟩
  | unmapped status base regions headers hloaded hflag code q hpath hresult =>
    have hbase : base ≠ 0 := (load_handle laws hloaded.library).mpr ⟨hloaded.ok, hloaded.machine⟩
    have hleads := unmappedPath_leads laws status _ (hfresh base regions)
    have hends := unmappedPath_ends H base regions status (pathStart start base regions)
      hloaded.ok rfl
    rw [hpath] at hleads hends
    cases hfailure : unmappedFailure H base regions with
    | none =>
      rw [hfailure] at hends
      rw [hresult, if_pos hends.1]
      apply iff_of_true (consistent_loaded hbase hends.1 hleads)
      rintro ⟨-, _, _, _, _, hlibrary', -, -, -, hsome⟩
      rw [hloaded.library] at hlibrary'
      cases hlibrary'
      exact hsome hfailure
    | some failure =>
      rw [hfailure] at hends
      obtain ⟨rfl, hfails, -⟩ := hends
      have himage : UnmappedImageFails H request.bufferAddress start :=
        ⟨status, base, regions, headers, hloaded.library, hloaded.ok, hloaded.machine,
          hloaded.image, by rw [hfailure]; exact Option.some_ne_none _⟩
      refine iff_of_false ?_ fun hnot => hnot ⟨hflag, himage⟩
      intro hconsistent
      rw [hresult] at hconsistent
      have hok := (hconsistent.1.mp hbase).1
      rw [hfails] at hok
      cases hok
  | mapped status base regions headers hloaded hflag code q hpath hok hresult =>
    have hbase : base ≠ 0 := (load_handle laws hloaded.library).mpr ⟨hloaded.ok, hloaded.machine⟩
    have hleads := mappedPath_leads laws request (effectiveFlags request headers) headers
      (moduleEntry H request (effectiveFlags request headers) headers base
        (pathStart start base regions)) status _ (hfresh base regions)
    have hmapped : MappedMatching base code q := by
      unfold runMappedPath at hpath
      dsimp only at hpath
      rw [hpath] at hleads
      exact hleads
    rw [hresult]
    apply iff_of_true (consistent_loaded hbase hok hmapped)
    rintro ⟨hunmapped, -⟩
    cases hflag.symm.trans hunmapped
  | rolledBack status base regions headers hloaded hflag code q hpath hfails unload q' hunload
      hresult =>
    rw [hresult]
    apply iff_of_true (consistent_refused hfails)
    rintro ⟨hunmapped, -⟩
    cases hflag.symm.trans hunmapped

omit laws in
theorem reuseModule_consistent {request : LoadRequest} {entry : Nat} {module : MemoryModule}
    (hnull : start.modules 0 = none)
    (hmodule : start.modules (H.ldrEntryAt start.database entry).dllBase = some module) :
    Consistent (reuseModule H request entry module start) := by
  unfold reuseModule
  split
  · exact consistent_refused (by decide)
  · refine consistent_loaded ?_ (by decide) ⟨⟨module, hmodule⟩, by decide⟩
    intro hbase
    rw [hbase, hnull] at hmodule
    cases hmodule

/-- The exits of `LdrLoadDllMemoryExW`, for a caller whose variable is null. -/
theorem ldrLoadDllMemoryExW_consistent_iff {request : LoadRequest} {result : LoadResult δ ι τ ρ}
    (hnull : start.modules 0 = none) (hvariable : request.baseAddress = 0)
    (h : ldrLoadDllMemoryExW H request start = .ok result) :
    Consistent result ↔ ¬ FailedUnmappedLoad H request start := by
  have hmapped (hflag : hasFlag request.dwFlags loadFlagsNotMapDll = false) :
      ¬ FailedUnmappedLoad H request start := by
    intro h
    cases hflag.symm.trans h.unmapped
  cases ldrLoadDllMemoryExW_exits h with
  | bufferSize hsize hresult =>
    rw [hresult, hvariable]
    exact iff_of_true (consistent_refused (by decide)) fun h => hsize h.bufferSize
  | buffer hinvalid hresult =>
    rw [hresult]
    apply iff_of_true (consistent_refused hinvalid)
    intro h
    cases hinvalid.symm.trans h.buffer
  | names hflag status hfails hresult =>
    rw [hresult]
    exact iff_of_true (consistent_refused hfails) (hmapped hflag)
  | reused hchecked dllName h1 entry module hname himage hscan hresult =>
    rw [hresult]
    exact iff_of_true (reuseModule_consistent hnull (scanLoaded_module hscan))
      (hmapped hchecked.mapDll)
  | image hsize hbuffer hnew hload =>
    have haddress : (normalizeRequest request).bufferAddress = request.bufferAddress := by
      unfold normalizeRequest
      split <;> rfl
    refine (loadImage_consistent_iff laws hload).trans (not_congr ?_)
    rw [hasFlag_normalizeRequest, haddress]
    exact ⟨fun h => ⟨hsize, hbuffer, h.1, h.2⟩, fun h => ⟨h.unmapped, h.image⟩⟩

theorem loadLibraryMemoryExW_handle_iff {rtlNtStatusToDosError : NtStatus → Dword}
    {bufferAddress reserved : Nat} {dllBaseName dllFullName : Option (List Wchar)} {flags : Dword}
    {result : ApiResult δ ι τ ρ} (hnull : start.modules 0 = none)
    (h : loadLibraryMemoryExW H rtlNtStatusToDosError bufferAddress reserved dllBaseName dllFullName
      flags start = .ok result) :
    HandleTellsStatus result ↔ ¬ FailedUnmappedLoad H
      ⟨flags, bufferAddress, reserved, dllBaseName, dllFullName, 0, 0⟩ start := by
  unfold loadLibraryMemoryExW at h
  split at h
  · cases h
  next loaded hload =>
    cases h
    rw [← ldrLoadDllMemoryExW_consistent_iff laws hnull rfl hload]
    simp [HandleTellsStatus, Consistent]

end Exits

/-- The handle of both functions tells the status of the load exactly when the load
is not an unmapped one that fails after `MemoryLoadLibrary`. -/
theorem loadLibraryMemory_handle_iff {H : Helpers δ ι τ ρ} (laws : H.HandleLaws)
    (rtlNtStatusToDosError : NtStatus → Dword) (mbstowcs : List (BitVec 8) → List Wchar)
    (allocated : Bool × Bool) (bufferAddress reserved : Nat) (flags : Dword)
    (start : Process δ ι τ ρ) (hnull : start.modules 0 = none) :
    (∀ dllBaseName dllFullName result,
      loadLibraryMemoryExW H rtlNtStatusToDosError bufferAddress reserved dllBaseName dllFullName
          flags start = .ok result →
        (HandleTellsStatus result ↔ ¬ FailedUnmappedLoad H
          ⟨flags, bufferAddress, reserved, dllBaseName, dllFullName, 0, 0⟩ start)) ∧
    ∀ dllBaseName dllFullName result,
      loadLibraryMemoryExA H rtlNtStatusToDosError mbstowcs allocated bufferAddress dllBaseName
          dllFullName flags start = .ok result →
        (HandleTellsStatus result ↔ ¬ ∃ baseName fullName,
          wideName mbstowcs allocated.1 dllBaseName = some baseName ∧
          wideName mbstowcs allocated.2 dllFullName = some fullName ∧
          FailedUnmappedLoad H ⟨flags, bufferAddress, 0, baseName, fullName, 0, 0⟩ start) := by
  constructor
  · intro dllBaseName dllFullName result h
    exact loadLibraryMemoryExW_handle_iff laws hnull h
  · intro dllBaseName dllFullName result h
    unfold loadLibraryMemoryExA at h
    split at h
    next baseName fullName hbase hfull =>
      rw [loadLibraryMemoryExW_handle_iff laws hnull h, hbase, hfull]
      simp
    next hrefused =>
      cases h
      refine iff_of_true ⟨iff_of_false (fun h => h rfl) (by simp), fun h => absurd rfl h⟩ ?_
      rintro ⟨baseName, fullName, hbase, hfull, -⟩
      exact hrefused baseName fullName hbase hfull

/-- A process that maps the usual image at `0x10000` and whose `DllMain` answers
`attached`. -/
def attachHelpers (attached : Bool) : Helpers (List StackProcess.StackEntry) (List Nat) (List Nat)
    (List Nat) :=
  { StackProcess.stackHelpers stackImage statusSuccess with
    memoryLoadLibrary := fun buffer regions => (statusSuccess, 0x10000, buffer :: regions)
    ldrpCallInitializers := fun _ => (attached, attached) }

/-- An unmapped load that `DllMain` accepts. -/
theorem loadLibraryMemory_handle_iff_attached :
    ∃ result,
      loadLibraryMemoryExW (attachHelpers true) id 0x7000 0 none none loadFlagsNotMapDll stackStart =
        .ok result ∧
      (HandleTellsStatus result ↔ ¬ FailedUnmappedLoad (attachHelpers true)
        ⟨loadFlagsNotMapDll, 0x7000, 0, none, none, 0, 0⟩ stackStart) := by
  have laws : (attachHelpers true).HandleLaws := by
    have hmatching : statusSuccess ≠ statusImageMachineTypeMismatch := by decide
    refine ⟨fun _ _ => ⟨MemoryModule.sampleCaller 0x1000 0x1000, 13, MemoryModule.blankMachine,
      ?_⟩, fun _ _ => hmatching, fun _ _ _ => hmatching, fun _ _ => hmatching⟩
    change _ = some (statusSuccess, 0x10000)
    decide +kernel
  exact ⟨_, rfl, (loadLibraryMemory_handle_iff laws id (fun _ => []) (true, true) 0x7000 0
    loadFlagsNotMapDll stackStart rfl).1 none none _ rfl⟩

/-- An unmapped load that `DllMain` refuses: the image is freed, the caller gets its
base. -/
theorem loadLibraryMemoryExW_dangling :
    ∃ result,
      loadLibraryMemoryExW (attachHelpers false) id 0x7000 0 none none loadFlagsNotMapDll
          stackStart = .ok result ∧
        result.handle = 0x10000 ∧ result.status = some statusDllInitFailed ∧
        ¬ StillMapped result.handle result.process ∧ ¬ HandleTellsStatus result := by
  refine ⟨_, rfl, rfl, rfl, ?_, ?_⟩
  · rintro ⟨module, hmodule⟩
    cases hmodule
  · rintro ⟨-, hmapped⟩
    obtain ⟨module, hmodule⟩ := hmapped (by decide)
    cases hmodule

end WinPolyfillLoader.Loader
