import WinPolyfillLoader.Loader.Rollback

/-!
The ways out of a load: those of `LdrLoadDllMemoryExW` ahead of the mapping of the image,
and those from `MemoryLoadLibrary` on.
-/

namespace WinPolyfillLoader.Loader

open LdrEntry

variable {δ ι τ ρ : Type}

/-- `MemoryLoadLibrary` has accepted the buffer, and the image has its headers. -/
structure LoadedImage (H : Helpers δ ι τ ρ) (bufferAddress : Nat) (p : Process δ ι τ ρ)
    (status : NtStatus) (base : Nat) (regions : ρ) (headers : ImageHeaders) : Prop where
  library : H.memoryLoadLibrary bufferAddress p.regions = (status, base, regions)
  ok : ntSuccess status = true
  machine : status ≠ statusImageMachineTypeMismatch
  image : H.rtlImageNtHeader regions base = some headers

/-- The `do` block of the mapped path, with the entry that it hands to the TLS handler. -/
def runMappedPath (H : Helpers δ ι τ ρ) (request : LoadRequest) (headers : ImageHeaders)
    (base : Nat) : LoadStep δ ι τ ρ := fun status p =>
  let dwFlags := effectiveFlags request headers
  mappedPath H request dwFlags headers base (moduleEntry H request dwFlags headers base p) status p

/-- The exits from `MemoryLoadLibrary` on: it refuses the buffer, the unmapped path ends,
the mapped path succeeds, or what it did is unloaded again. -/
inductive ImageExit (H : Helpers δ ι τ ρ) (request : LoadRequest) (p : Process δ ι τ ρ)
    (result : LoadResult δ ι τ ρ) : Prop where
  | refused (status : NtStatus) (base : Nat) (regions : ρ)
      (hlibrary : H.memoryLoadLibrary request.bufferAddress p.regions = (status, base, regions))
      (hrefused : ¬(ntSuccess status = true ∧ status ≠ statusImageMachineTypeMismatch))
      (hresult : result = ⟨status, base, 0, { p with regions := regions }⟩)
  | unmapped (status : NtStatus) (base : Nat) (regions : ρ) (headers : ImageHeaders)
      (hloaded : LoadedImage H request.bufferAddress p status base regions headers)
      (hflag : hasFlag request.dwFlags loadFlagsNotMapDll = true) (code : NtStatus)
      (q : Process δ ι τ ρ)
      (hpath : unmappedPath H base status (pathStart p base regions) = (code, q))
      (hresult : result = ⟨code, base, 0, if ntSuccess code then q else (freeLibrary H base q).2⟩)
  | mapped (status : NtStatus) (base : Nat) (regions : ρ) (headers : ImageHeaders)
      (hloaded : LoadedImage H request.bufferAddress p status base regions headers)
      (hflag : hasFlag request.dwFlags loadFlagsNotMapDll = false) (code : NtStatus)
      (q : Process δ ι τ ρ)
      (hpath : runMappedPath H request headers base status (pathStart p base regions) = (code, q))
      (hok : ntSuccess code = true)
      (hresult : result = ⟨code, base,
        moduleEntry H request (effectiveFlags request headers) headers base
          (pathStart p base regions), q⟩)
  | rolledBack (status : NtStatus) (base : Nat) (regions : ρ) (headers : ImageHeaders)
      (hloaded : LoadedImage H request.bufferAddress p status base regions headers)
      (hflag : hasFlag request.dwFlags loadFlagsNotMapDll = false) (code : NtStatus)
      (q : Process δ ι τ ρ)
      (hpath : runMappedPath H request headers base status (pathStart p base regions) = (code, q))
      (hfails : ntSuccess code = false) (unload : NtStatus) (q' : Process δ ι τ ρ)
      (hunload : ldrUnloadDllMemory H base q = .ok (unload, q'))
      (hresult : result = ⟨code, 0, 0, q'⟩)

/-- The exits of the whole load. The unmapped load drops the names, so that neither their
check nor the scan comes in its way. -/
inductive LoadExit (H : Helpers δ ι τ ρ) (request : LoadRequest) (p : Process δ ι τ ρ)
    (result : LoadResult δ ι τ ρ) : Prop where
  | bufferSize (hsize : request.bufferSize ≠ 0)
      (hresult : result = ⟨statusInvalidParameter5, request.baseAddress, request.ldrEntry, p⟩)
  | buffer (hinvalid : ntSuccess (checkBuffer H request) = false)
      (hresult : result = ⟨checkBuffer H request, 0, 0, p⟩)
  | names (hflag : hasFlag request.dwFlags loadFlagsNotMapDll = false) (status : NtStatus)
      (hfails : ntSuccess status = false) (hresult : result = ⟨status, 0, 0, p⟩)
  | reused (hchecked : Checked H request) (dllName : List Wchar) (h1 : ImageHeaders) (entry : Nat)
      (module : MemoryModule) (hname : request.dllName = some dllName)
      (himage : H.rtlImageNtHeader p.regions request.bufferAddress = some h1)
      (hscan : scanLoaded H dllName h1 p (H.inLoadOrderModuleList p.database) =
        some (entry, module))
      (hresult : result = reuseModule H request entry module p)
  | image (hsize : request.bufferSize = 0) (hbuffer : ntSuccess (checkBuffer H request) = true)
      (hnew : hasFlag request.dwFlags loadFlagsNotMapDll = false → Checked H request ∧
        ∀ dllName, request.dllName = some dllName →
          ∃ h1, H.rtlImageNtHeader p.regions request.bufferAddress = some h1 ∧
            scanLoaded H dllName h1 p (H.inLoadOrderModuleList p.database) = none)
      (hload : loadImage H (normalizeRequest request) p = .ok result)

section Exits

variable {H : Helpers δ ι τ ρ} {request : LoadRequest} {p : Process δ ι τ ρ}
  {result : LoadResult δ ι τ ρ}

theorem loadImage_exits (h : loadImage H request p = .ok result) :
    ImageExit H request p result := by
  rcases hlibrary : H.memoryLoadLibrary request.bufferAddress p.regions with ⟨status, base, regions⟩
  rw [loadImage, hlibrary] at h
  dsimp only at h
  split at h
  next hrefused =>
    cases h
    refine .refused status base regions hlibrary ?_ rfl
    rintro ⟨hok, hmachine⟩
    simp [hok, hmachine] at hrefused
  next haccepted =>
    have hloaded : ntSuccess status = true ∧ status ≠ statusImageMachineTypeMismatch := by
      simpa using haccepted
    cases himage : H.rtlImageNtHeader regions base with
    | none =>
      rw [himage] at h
      cases h
    | some headers =>
      have hstart : (({ p with regions := regions } : Process δ ι τ ρ).setModule base
          (some ⟨base, 0, true, false, false, false, false, false, false⟩)).log
            [.did .loadLibrary base] = pathStart p base regions := rfl
      rw [himage] at h
      dsimp only at h
      rw [← effectiveFlags, hasFlag_effectiveFlags (by rfl), hstart] at h
      have hentered : LoadedImage H request.bufferAddress p status base regions headers :=
        ⟨hlibrary, hloaded.1, hloaded.2, himage⟩
      split at h
      next hflag =>
        rcases hpath : unmappedPath H base status (pathStart p base regions) with ⟨code, q⟩
        rw [hpath] at h
        refine .unmapped status base regions headers hentered hflag code q hpath ?_
        dsimp only at h
        split at h
        next hok =>
          cases h
          rw [if_pos hok]
        next hfails =>
          cases h
          rw [if_neg hfails]
      next hflag =>
        have hflag := Bool.eq_false_iff.mpr hflag
        rcases hpath : runMappedPath H request headers base status (pathStart p base regions)
          with ⟨code, q⟩
        have hrun := hpath
        unfold runMappedPath at hrun
        dsimp only at h hrun
        rw [hrun] at h
        split at h
        next hok =>
          cases h
          exact .mapped status base regions headers hentered hflag code q hpath hok rfl
        next hfails =>
          have hfails := Bool.eq_false_iff.mpr hfails
          dsimp only at h
          split at h
          next => cases h
          next unload q' hunload =>
            cases h
            exact .rolledBack status base regions headers hentered hflag code q hpath hfails unload
              q' hunload rfl

theorem ldrLoadDllMemoryExW_exits (h : ldrLoadDllMemoryExW H request p = .ok result) :
    LoadExit H request p result := by
  rw [ldrLoadDllMemoryExW] at h
  split at h
  next hsize =>
    cases h
    exact .bufferSize hsize rfl
  next hsize =>
    have hsize : request.bufferSize = 0 := not_not.mp hsize
    split at h
    next hinvalid =>
      cases h
      exact .buffer (by simpa using hinvalid) rfl
    next hvalid =>
      have hbuffer : ntSuccess (checkBuffer H request) = true := by simpa using hvalid
      cases hflag : hasFlag request.dwFlags loadFlagsNotMapDll with
      | true =>
        have hunnamed : hasFlag (normalizeRequest request).dwFlags loadFlagsUseDllName = false := by
          rw [normalizeRequest_unmapped hflag]
          simp [hasFlag, BitVec.and_assoc, loadFlagsNotMapDll, loadFlagsUseDllName]
        have hname : (normalizeRequest request).dllName = none := by
          rw [normalizeRequest_unmapped hflag]
        dsimp only at h
        rw [hunnamed, hname] at h
        refine .image hsize hbuffer ?_ h
        rw [hflag]
        intro hmapped
        cases hmapped
      | false =>
        rw [normalizeRequest_mapped hflag] at h
        dsimp only at h
        split at h
        next =>
          cases h
          exact .names hflag statusInvalidParameter3 (by decide) rfl
        next hnames =>
          have hchecked : Checked H request := by
            refine ⟨hsize, hbuffer, hflag, ?_⟩
            intro huse
            rw [huse, Bool.true_and, Bool.or_eq_true, not_or] at hnames
            simpa [Option.isSome_iff_ne_none] using hnames
          split at h
          next hname =>
            refine .image hsize hbuffer (fun _ => ⟨hchecked, ?_⟩) ?_
            · rw [hname]
              rintro _ ⟨⟩
            · rw [normalizeRequest_mapped hflag]
              exact h
          next dllName hname =>
            split at h
            next =>
              cases h
              exact .names hflag statusInvalidImageFormat (by decide) rfl
            next h1 himage =>
              split at h
              next entry module hscan =>
                cases h
                exact .reused hchecked dllName h1 entry module hname himage hscan rfl
              next hscan =>
                refine .image hsize hbuffer (fun _ => ⟨hchecked, ?_⟩) ?_
                · rw [hname]
                  rintro _ ⟨⟩
                  exact ⟨h1, himage, hscan⟩
                · rw [normalizeRequest_mapped hflag]
                  exact h

end Exits

end WinPolyfillLoader.Loader
