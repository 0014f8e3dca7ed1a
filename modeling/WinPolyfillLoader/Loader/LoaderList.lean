import WinPolyfillLoader.Loader.LoadDllMemoryApi

/-!
What loads and unloads do to the loader list. A load adds an entry at most; an unload
takes out the entry of its module, and what `LdrUnloadDll` releases with it, when it is
the last one.
-/

namespace WinPolyfillLoader.Loader

open LdrEntry EarlyExit

variable {δ ι τ ρ : Type}

/-- The list keeps the entries that an operation is not about. `releasedWith` are the
entries of the dependencies that `RtlFreeLdrDataTableEntry` hands to `LdrUnloadDll` and
that leave the list with the entry. -/
structure Helpers.KeepsEntries (H : Helpers δ ι τ ρ) (releasedWith : δ → Nat → List Nat) :
    Prop where
  recount_keeps : ∀ entry flag d,
    H.inLoadOrderModuleList (H.rtlUpdateReferenceCount entry flag d).2 = H.inLoadOrderModuleList d
  map_keeps : ∀ {base headers flags name full d status entry d'},
    H.ldrMapDllMemory base headers flags name full d = (status, entry, d') →
      ∀ e ∈ H.inLoadOrderModuleList d, e ∈ H.inLoadOrderModuleList d'
  free_keeps : ∀ {entry d freed d'}, H.rtlFreeLdrDataTableEntry entry d = (freed, d') →
    ∀ e ∈ H.inLoadOrderModuleList d, e ≠ entry → e ∉ releasedWith d entry →
      e ∈ H.inLoadOrderModuleList d'

section Loads

variable {H : Helpers δ ι τ ρ} {request : LoadRequest} {p : Process δ ι τ ρ}
  {result : LoadResult δ ι τ ρ} {releasedWith : δ → Nat → List Nat}

theorem unmappedPath_database (base : Nat) (d : δ) :
    Leads (unmappedPath H base) (fun _ q => q.database = d) (fun _ q => q.database = d) := by
  have hinitialize : Leads (initializeStep H base) (fun _ q => q.database = d)
      (fun _ q => q.database = d) := by
    intro status q hq
    unfold initializeStep
    split
    · exact hq
    · exact hq
  have hresolve : Leads (resolveImportsStep H base) (fun _ q => q.database = d)
      (fun _ q => q.database = d) := fun _ _ hq => hq
  have hprotect : Leads (setProtectionStep H base) (fun _ q => q.database = d)
      (fun _ q => q.database = d) := fun _ _ hq => hq
  refine Leads.andThen hresolve ?_ fun _ _ _ hq => hq
  exact Leads.andThen hprotect hinitialize fun _ _ _ hq => hq

theorem freeLibrary_database (base : Nat) (q : Process δ ι τ ρ) :
    (freeLibrary H base q).2.database = q.database := by
  unfold freeLibrary
  split <;> rfl

theorem reuseModule_keeps (keeps : H.KeepsEntries releasedWith) (entry : Nat)
    (module : MemoryModule) {e : Nat} (he : e ∈ H.inLoadOrderModuleList p.database) :
    e ∈ H.inLoadOrderModuleList (reuseModule H request entry module p).process.database := by
  unfold reuseModule
  split
  · exact he
  · dsimp only
    rw [keeps.recount_keeps]
    exact he

/-- The database is `d`, and `entry` is that of the module at `base`. -/
def HasEntry (base entry : Nat) (d : δ) (q : Process δ ι τ ρ) : Prop :=
  q.database = d ∧ ∃ m, q.modules base = some m ∧ m.ldrEntry = entry

theorem HasEntry.store {base entry : Nat} {d : δ} {q t : Process δ ι τ ρ}
    (h : HasEntry base entry d q) {f : MemoryModule → MemoryModule}
    (hdatabase : t.database = q.database)
    (hmodules : t.modules = Function.update q.modules base ((q.modules base).map f))
    (hf : ∀ m, (f m).ldrEntry = m.ldrEntry) : HasEntry base entry d t := by
  obtain ⟨hd, m, hm, hentry⟩ := h
  refine ⟨hdatabase.trans hd, f m, ?_, (hf m).trans hentry⟩
  simp [hmodules, hm]

/-- Behind `LdrMapDllMemory` no step of the mapped path touches the loader database. -/
theorem laterSteps_database (H : Helpers δ ι τ ρ) (dwFlags : Dword) (headers : ImageHeaders)
    (base entry entry' : Nat) (d : δ) :
    Leads ((resolveImportsStep H base).andThen <| (setProtectionStep H base).andThen <|
        (useReferenceCountStep dwFlags base).andThen <|
        (insertInvertedStep H dwFlags headers base).andThen <|
        (handleTlsStep H dwFlags base entry').andThen <| initializeStep H base)
      (fun _ => HasEntry base entry d) (fun _ => HasEntry base entry d) := by
  have hcount : Leads (useReferenceCountStep (δ := δ) (ι := ι) (τ := τ) (ρ := ρ) dwFlags base)
      (fun _ => HasEntry base entry d) (fun _ => HasEntry base entry d) := by
    intro _ q h
    unfold useReferenceCountStep
    split
    · exact h.store rfl rfl fun _ => rfl
    · exact h
  have hinsert : Leads (insertInvertedStep H dwFlags headers base)
      (fun _ => HasEntry base entry d) (fun _ => HasEntry base entry d) := by
    intro _ q h
    unfold insertInvertedStep
    split
    · dsimp only
      split
      · exact h.store rfl rfl fun _ => rfl
      · exact h
    · exact h
  have htls : Leads (handleTlsStep H dwFlags base entry')
      (fun _ => HasEntry base entry d) (fun _ => HasEntry base entry d) := by
    intro _ q h
    unfold handleTlsStep
    split
    · dsimp only
      split
      · exact h.store rfl rfl fun _ => rfl
      · split
        · exact h
        · exact h
    · exact h
  have hinitialize : Leads (initializeStep H base)
      (fun _ => HasEntry base entry d) (fun _ => HasEntry base entry d) := by
    intro _ q h
    unfold initializeStep
    split
    · exact h
    · exact h.store rfl rfl fun _ => rfl
  have hresolve : Leads (resolveImportsStep H base) (fun _ => HasEntry base entry d)
      (fun _ => HasEntry base entry d) := fun _ _ h => h
  have hprotect : Leads (setProtectionStep H base) (fun _ => HasEntry base entry d)
      (fun _ => HasEntry base entry d) := fun _ _ h => h
  refine hresolve.andThen (hprotect.andThen (hcount.andThen (hinsert.andThen
    (htls.andThen hinitialize ?_) ?_) ?_) ?_) ?_
  all_goals exact fun _ _ _ h => h

/-- What the mapped path does to the loader database is what `LdrMapDllMemory` does, and the
module has its entry, if there is one. -/
theorem runMappedPath_database {base : Nat} {headers : ImageHeaders} {regions : ρ}
    {status code : NtStatus} {q : Process δ ι τ ρ}
    (hpath : runMappedPath H request headers base status (pathStart p base regions) = (code, q)) :
    ∃ dwFlags mapped entry d,
      H.ldrMapDllMemory base headers dwFlags request.dllName request.dllFullName p.database =
        (mapped, entry, d) ∧ q.database = d ∧ ∃ m, q.modules base = some m ∧
          (m.mappedDll = false ∨ ntSuccess mapped = true ∧ m.ldrEntry = entry) := by
  let dwFlags := effectiveFlags request headers
  rcases hmap : H.ldrMapDllMemory base headers dwFlags request.dllName request.dllFullName
    p.database with ⟨mapped, entry, d⟩
  refine ⟨dwFlags, mapped, entry, d, hmap, ?_⟩
  have hmap' : H.ldrMapDllMemory base headers dwFlags request.dllName request.dllFullName
    (pathStart p base regions).database = (mapped, entry, d) := hmap
  have hfresh : (pathStart p base regions).modules base = some (freshModule base) := by
    simp [pathStart, Process.setModule, Process.log]
  unfold runMappedPath mappedPath LoadStep.andThen at hpath
  rw [andThen_eq] at hpath
  cases hok : ntSuccess mapped with
  | false =>
    have hstep : mapDllStep H request dwFlags headers base status (pathStart p base regions) =
        (mapped, { pathStart p base regions with database := d }) := by
      simp [mapDllStep, hmap', hok]
    rw [hstep] at hpath
    simp only [hok, Bool.false_eq_true, if_false] at hpath
    cases hpath
    exact ⟨rfl, freshModule base, hfresh, .inl rfl⟩
  | true =>
    have hstep : (mapDllStep H request dwFlags headers base status
        (pathStart p base regions)).1 = mapped := by
      simp only [mapDllStep, hmap', hok, if_true]
    have hentry : HasEntry base entry d
        (mapDllStep H request dwFlags headers base status (pathStart p base regions)).2 := by
      simp only [mapDllStep, hmap', hok, if_true]
      refine ⟨rfl, { freshModule base with mappedDll := true, ldrEntry := entry }, ?_, rfl⟩
      simp [updateModule, Process.setModule, Process.log, hfresh]
    rw [if_pos (hstep.symm ▸ hok)] at hpath
    have hlater := laterSteps_database H dwFlags headers base entry
      (moduleEntry H request dwFlags headers base (pathStart p base regions)) d
      (mapDllStep H request dwFlags headers base status (pathStart p base regions)).1 _ hentry
    unfold LoadStep.andThen at hlater
    rw [hpath] at hlater
    obtain ⟨hdatabase, m, hm, hown⟩ := hlater
    exact ⟨hdatabase, m, hm, .inr ⟨rfl, hown⟩⟩

end Loads

/-- The LDR entry that an unload of the module at `base` frees: its own, if it was mapped
and the unload is the last one. -/
def freedEntry (H : Helpers δ ι τ ρ) (base : Nat) (p : Process δ ι τ ρ) : Option Nat :=
  match p.modules base with
  | none => none
  | some module =>
    let count := referenceCount H module p.database
    if module.loadFromLdrLoadDllMemory && module.mappedDll && ntSuccess count.1 &&
        dropLowBit count.2 == 0 then some module.ldrEntry
    else none

theorem freedEntry_some {H : Helpers δ ι τ ρ} {base entry : Nat} {p : Process δ ι τ ρ}
    {m : MemoryModule} (hm : p.modules base = some m) (h : freedEntry H base p = some entry) :
    entry = m.ldrEntry ∧ m.mappedDll = true := by
  rw [freedEntry, hm] at h
  dsimp only at h
  split at h
  next hguard =>
    simp only [Bool.and_eq_true] at hguard
    cases h
    exact ⟨rfl, hguard.1.1.2⟩
  next => cases h

section Unloads

variable {H : Helpers δ ι τ ρ} {base : Nat} {p q : Process δ ι τ ρ} {status : NtStatus}

theorem callDetach_database (base : Nat) (module : MemoryModule) (p : Process δ ι τ ρ) :
    (callDetach base module p).database = p.database := by
  unfold callDetach
  split <;> rfl

theorem removeInverted_database {module : MemoryModule} (h : removeInverted H base module p = .ok q) :
    q.database = p.database := by
  unfold removeInverted at h
  split at h
  · dsimp only at h
    split at h
    · cases h
      rfl
    · cases h
  · cases h
    rfl

theorem releaseTls_database {module : MemoryModule} (h : releaseTls H base module p = .ok q) :
    q.database = p.database := by
  unfold releaseTls at h
  split at h
  · dsimp only at h
    split at h
    · cases h
      rfl
    · cases h
  · cases h
    rfl

theorem freeEntry_database {module : MemoryModule} (h : freeEntry H base module p = .ok q) :
    H.rtlFreeLdrDataTableEntry module.ldrEntry p.database = (true, q.database) := by
  unfold freeEntry at h
  split at h
  next database hfree =>
    cases h
    exact hfree
  next => cases h

/-- The last unload hands the entry of the module to `RtlFreeLdrDataTableEntry`. -/
theorem tearDown_database {module : MemoryModule} (h : tearDown H base module p = .ok (status, q)) :
    H.rtlFreeLdrDataTableEntry module.ldrEntry p.database = (true, q.database) := by
  unfold tearDown at h
  dsimp only at h
  split at h
  · cases h
  next p₁ hremoved =>
    split at h
    · cases h
    next p₂ hreleased =>
      split at h
      · cases h
      next p₃ hfreed =>
        have hdatabase : p₂.database = p.database := by
          rw [releaseTls_database hreleased, removeInverted_database hremoved, callDetach_database]
          rfl
        have hlibrary := freeLibrary_database (H := H) base p₃
        split at h
        next p₄ hfree =>
          cases h
          rw [hfree] at hlibrary
          rw [hlibrary, ← hdatabase]
          exact freeEntry_database hfreed
        next => cases h

/-- An unload is refused, counts the module down, or frees its entry. -/
theorem ldrUnloadDllMemory_cases (h : ldrUnloadDllMemory H base p = .ok (status, q)) :
    q.database = p.database ∨
      (∃ entry, q.database = (H.rtlUpdateReferenceCount entry false p.database).2) ∨
      ∃ entry, freedEntry H base p = some entry ∧
        H.rtlFreeLdrDataTableEntry entry p.database = (true, q.database) := by
  unfold ldrUnloadDllMemory at h
  split at h
  · cases h
    exact Or.inl rfl
  next module hmodule =>
    split at h
    · cases h
      exact Or.inl rfl
    next hload =>
      split at h
      next hunmapped =>
        have hlibrary := freeLibrary_database (H := H) base
          (p.setModule base (some { module with underUnload := true }))
        split at h
        next p₁ hfree =>
          cases h
          rw [hfree] at hlibrary
          exact Or.inl hlibrary
        next p₁ hfree =>
          cases h
          rw [hfree] at hlibrary
          exact Or.inl hlibrary
      next hmapped =>
        split at h
        · cases h
        next headers himage =>
          split at h
          · cases h
          next hsize =>
            dsimp only at h
            split at h
            · cases h
              exact Or.inl rfl
            next hcounted =>
              split at h
              · cases h
                exact Or.inr (Or.inl ⟨module.ldrEntry, rfl⟩)
              next hlast =>
                refine Or.inr (Or.inr ⟨module.ldrEntry, ?_, tearDown_database h⟩)
                rw [freedEntry, hmodule]
                simp only [not_not] at hlast
                simp_all

/-- An unload takes out no entry but the one that it frees and what is released with it. -/
theorem ldrUnloadDllMemory_keeps {releasedWith : δ → Nat → List Nat}
    (keeps : H.KeepsEntries releasedWith) (h : ldrUnloadDllMemory H base p = .ok (status, q))
    {e : Nat} (he : e ∈ H.inLoadOrderModuleList p.database)
    (hother : ∀ entry, freedEntry H base p = some entry →
      e ≠ entry ∧ e ∉ releasedWith p.database entry) :
    e ∈ H.inLoadOrderModuleList q.database := by
  rcases ldrUnloadDllMemory_cases h with hsame | ⟨entry, hrecount⟩ | ⟨entry, hfreed, hfree⟩
  · rw [hsame]
    exact he
  · rw [hrecount, keeps.recount_keeps]
    exact he
  · obtain ⟨hne, hreleased⟩ := hother entry hfreed
    exact keeps.free_keeps hfree e he hne hreleased

end Unloads

section FailedLoads

variable {H : Helpers δ ι τ ρ} {request : LoadRequest} {p : Process δ ι τ ρ}
  {result : LoadResult δ ι τ ρ} {releasedWith : δ → Nat → List Nat}

/-- The unload of a failed load frees the entry that the load has made, or none. -/
theorem rolledBack_keeps (laws : H.EntryLaws) (keeps : H.KeepsEntries releasedWith) {base : Nat}
    {headers : ImageHeaders} {regions : ρ} {status code unload : NtStatus}
    {q q' : Process δ ι τ ρ}
    (hpath : runMappedPath H request headers base status (pathStart p base regions) = (code, q))
    (hunload : ldrUnloadDllMemory H base q = .ok (unload, q')) {e : Nat}
    (he : e ∈ H.inLoadOrderModuleList p.database) : e ∈ H.inLoadOrderModuleList q'.database := by
  obtain ⟨dwFlags, mapped, entry, d, hmap, hdatabase, m, hm, hentry⟩ :=
    runMappedPath_database hpath
  have hlisted : e ∈ H.inLoadOrderModuleList q.database :=
    hdatabase.symm ▸ keeps.map_keeps hmap e he
  rcases ldrUnloadDllMemory_cases hunload with hsame | ⟨counted, hrecount⟩ |
    ⟨freed, hfreed, hfree⟩
  · exact hsame.symm ▸ hlisted
  · rw [hrecount, keeps.recount_keeps]
    exact hlisted
  · obtain ⟨hown, hmapped⟩ := freedEntry_some hm hfreed
    rcases hentry with hunmapped | ⟨hok, hmade⟩
    · rw [hunmapped] at hmapped
      cases hmapped
    · obtain ⟨-, -, -, hcount⟩ := laws.map_entry hmap hok
      have hback := laws.free_reverses hmap hok (.refl d) hcount
      rw [hown, hmade, hdatabase, hback] at hfree
      have hsame : p.database = q'.database := congrArg Prod.snd hfree
      exact hsame ▸ he

theorem ldrLoadDllMemoryExW_keeps (laws : H.EntryLaws) (keeps : H.KeepsEntries releasedWith)
    (h : ldrLoadDllMemoryExW H request p = .ok result) {e : Nat}
    (he : e ∈ H.inLoadOrderModuleList p.database) :
    e ∈ H.inLoadOrderModuleList result.process.database := by
  cases ldrLoadDllMemoryExW_exits h with
  | bufferSize hsize hresult =>
    rw [hresult]
    exact he
  | buffer hinvalid hresult =>
    rw [hresult]
    exact he
  | names hflag status hfails hresult =>
    rw [hresult]
    exact he
  | reused hchecked dllName h1 entry module hname himage hscan hresult =>
    rw [hresult]
    exact reuseModule_keeps keeps entry module he
  | image hsize hbuffer hnew hload =>
    cases loadImage_exits hload with
    | refused status base regions hlibrary hrefused hresult =>
      rw [hresult]
      exact he
    | unmapped status base regions headers hloaded hflag code q hpath hresult =>
      have hsame := unmappedPath_database (H := H) base p.database status
        (pathStart p base regions) rfl
      rw [hpath] at hsame
      have hdatabase : result.process.database = p.database := by
        rw [hresult]
        dsimp only
        split
        · exact hsame
        · exact (freeLibrary_database base q).trans hsame
      rw [hdatabase]
      exact he
    | mapped status base regions headers hloaded hflag code q hpath hok hresult =>
      obtain ⟨dwFlags, mapped, entry, d, hmap, hdatabase, -⟩ := runMappedPath_database hpath
      rw [hresult]
      exact hdatabase.symm ▸ keeps.map_keeps hmap e he
    | rolledBack status base regions headers hloaded hflag code q hpath hfails unload q' hunload
        hresult =>
      rw [hresult]
      exact rolledBack_keeps laws keeps hpath hunload he

end FailedLoads

end WinPolyfillLoader.Loader
