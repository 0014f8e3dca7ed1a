import WinPolyfillLoader.Loader.RegistryUnloads

/-!
What a load does to what is registered. Every step of a load keeps the agreement of the flags
with it, whatever its helper answers; so the unload at the end of a failed load finds it, too.
-/

namespace WinPolyfillLoader.Loader

open LdrEntry EarlyExit

variable {δ ι τ ρ : Type}

/-- A load is under way, with a module at `base` that satisfies `K`. -/
structure Held (H : Helpers δ ι τ ρ) (V : Views δ ι τ ρ) (holders : Nat → Nat)
    (start : Process δ ι τ ρ) (base : Nat) (K : MemoryModule → Prop) (p : Process δ ι τ ρ) :
    Prop where
  agrees : Agrees H V holders p
  module : ∃ m, p.modules base = some m ∧ K m
  counted : ∀ m, p.modules base = some m → m.mappedDll = true →
    (H.rtlGetReferenceCount m.ldrEntry p.database).2 = 1
  others : ∀ b ≠ base, p.modules b = start.modules b

section Load

variable {H : Helpers δ ι τ ρ} {V : Views δ ι τ ρ} (laws : H.Registers V)
variable {holders : Nat → Nat} {start p q : Process δ ι τ ρ} {base entry : Nat}
variable {K : MemoryModule → Prop} {dwFlags : Dword} {headers : ImageHeaders}
variable {request : LoadRequest}

theorem Agrees.editImage (h : Agrees H V holders p) {regions : ρ}
    (himages : V.images regions = V.images p.regions)
    (hsame : H.SameImages (V.images p.regions) p.regions regions) :
    Agrees H V holders { p with regions := regions } where
  module := by
    intro b m hm
    have hmodule : p.modules b = some m := hm
    have hinside : b ∈ V.images p.regions := (h.images b).mpr (by rw [hmodule]; rfl)
    exact (h.module b m hm).congr (hsame b hinside)
      (fun hmapped => ⟨(h.module b m hm).entry hmapped, rfl, rfl⟩) Iff.rfl (fun _ => Iff.rfl) rfl
  images := by
    intro b
    rw [himages]
    exact h.images b
  distinct := h.distinct
  entries := h.entries
  bases := h.bases
  tlsEntries := h.tlsEntries
  released := h.released
  table := h.table
  foreign := h.foreign

theorem Held.editImage (h : Held H V holders start base K p) {regions : ρ}
    (hedit : V.images regions = V.images p.regions ∧
      H.SameImages (V.images p.regions) p.regions regions) :
    Held H V holders start base K { p with regions := regions } :=
  ⟨h.agrees.editImage hedit.1 hedit.2, h.module, h.counted, h.others⟩

/-- A store to the flags of the module, with what it says in the table and in the TLS list. -/
theorem Held.setModule (h : Held H V holders start base K p) {f : MemoryModule → MemoryModule}
    (hmodules : q.modules = Function.update p.modules base ((p.modules base).map f))
    (hregions : q.regions = p.regions) (hdatabase : q.database = p.database)
    (hmapped : ∀ m, (f m).mappedDll = m.mappedDll) (hentry : ∀ m, (f m).ldrEntry = m.ldrEntry)
    (hK : ∀ m, K m → K (f m))
    (hthis : ∀ m, p.modules base = some m → K m → Registered H V holders p base m →
      Registered H V holders q base (f m))
    (hsound : V.sound q.invertedTable)
    (htable : ∀ b ≠ base, b ∈ V.bases q.invertedTable ↔ b ∈ V.bases p.invertedTable)
    (htls : ∀ m, p.modules base = some m → K m → ∀ e, ¬(m.mappedDll = true ∧ e = m.ldrEntry) →
      (e ∈ V.tlsEntries q.tlsList ↔ e ∈ V.tlsEntries p.tlsList)) :
    Held H V holders start base K q := by
  obtain ⟨m, hm, hmK⟩ := h.module
  rw [hm, Option.map_some] at hmodules
  have hbase : q.modules base = some (f m) := by rw [hmodules, Function.update_self]
  refine ⟨?_, ⟨f m, hbase, hK m hmK⟩, ?_, ?_⟩
  · exact h.agrees.setModule hm hmodules hregions hdatabase (hmapped m) (hentry m)
      (hthis m hm hmK (h.agrees.module base m hm)) hsound htable (htls m hm hmK)
  · intro n hn hnmapped
    rw [hbase] at hn
    cases hn
    rw [hdatabase, hentry]
    exact h.counted m hm ((hmapped m).symm.trans hnmapped)
  · intro b hb
    rw [hmodules, Function.update_of_ne hb]
    exact h.others b hb

theorem Held.weaken {K' : MemoryModule → Prop} (h : Held H V holders start base K p)
    (hK : ∀ m, K m → K' m) : Held H V holders start base K' p :=
  ⟨h.agrees, h.module.imp fun m hm => ⟨hm.1, hK m hm.2⟩, h.counted, h.others⟩

/-- The module that the mapped path goes on with. -/
def IsMapped (entry : Nat) (m : MemoryModule) : Prop := m.mappedDll = true ∧ m.ldrEntry = entry

/-- The same module before its image is in the inverted function table. -/
def NotInserted (entry : Nat) (m : MemoryModule) : Prop :=
  IsMapped entry m ∧ m.insertInvertedFunctionTableEntry = false

theorem useReferenceCountStep_held (hone : holders base = 1) :
    Leads (useReferenceCountStep dwFlags base)
      (fun _ p => Held H V holders start base (NotInserted entry) p)
      (fun _ p => Held H V holders start base (NotInserted entry) p) := by
  intro status p h
  rw [useReferenceCountStep]
  split
  · refine h.setModule (f := fun m => { m with useReferenceCount := true }) rfl rfl rfl
      (fun _ => rfl) (fun _ => rfl) (fun _ hK => hK) ?_ h.agrees.table (fun _ _ => Iff.rfl)
      fun _ _ _ _ _ => Iff.rfl
    intro m hm hK hregistered
    exact { hregistered with
      unmapped := fun hunmapped => absurd hunmapped (by rw [hK.1.1]; decide)
      counted := fun _ => by
        rw [hone]
        exact h.counted m hm hK.1.1
      uncounted := fun hnever => by cases hnever }
  · exact h

theorem initializeStep_held (hK : ∀ m i, K m → K { m with initialized := i }) :
    Leads (initializeStep H base) (fun _ p => Held H V holders start base K p)
      (fun _ p => Held H V holders start base K p) := by
  intro status p h
  rw [initializeStep]
  split
  · exact h
  · exact h.setModule (f := fun m => { m with initialized := (H.ldrpCallInitializers base).2 })
      rfl rfl rfl (fun _ => rfl) (fun _ => rfl) (fun m => hK m _)
      (fun _ _ _ hregistered => { hregistered with }) h.agrees.table (fun _ _ => Iff.rfl)
      fun _ _ _ _ _ => Iff.rfl

/-- An image that is gone again leaves the modules that were there before it. -/
theorem modules_back {after : Process δ ι τ ρ} (hnone : p.modules base = none)
    (hothers : ∀ b ≠ base, q.modules b = p.modules b)
    (hmodules : after.modules = Function.update q.modules base none) :
    after.modules = p.modules := by
  funext b
  rw [hmodules]
  by_cases hb : b = base
  · rw [hb, Function.update_self, hnone]
  · rw [Function.update_of_ne hb]
    exact hothers b hb

theorem Held.loaded (hheld : Held H V (Function.update holders base 1) p base K q)
    (h : Agrees H V holders p) (hnone : p.modules base = none) {code : NtStatus}
    (hcode : ntSuccess code = true) :
    Agrees H V (holdersAfterLoad holders ⟨code, base, entry, q⟩) q := by
  obtain ⟨m, hm, -⟩ := hheld.module
  have hpresent : (q.modules base).isSome = true := by rw [hm]; rfl
  rw [holdersAfterLoad, if_pos ⟨hcode, hpresent⟩]
  dsimp only
  rw [(h.released base).mpr hnone]
  exact hheld.agrees

theorem pathStart_eq (p : Process δ ι τ ρ) (base : Nat) (regions : ρ) :
    (({ p with regions := regions } : Process δ ι τ ρ).setModule base
      (some ⟨base, 0, true, false, false, false, false, false, false⟩)).log
        [.did .loadLibrary base] = pathStart p base regions := rfl

section NewImage

variable {status code : NtStatus} {regions : ρ}
  (hlibrary : H.memoryLoadLibrary request.bufferAddress p.regions = (status, base, regions))
  (hok : ntSuccess status = true ∧ status ≠ statusImageMachineTypeMismatch)
  (himage : H.rtlImageNtHeader regions base = some headers)

include hlibrary hok himage

theorem loadImage_runs_unmapped (hflag : hasFlag request.dwFlags loadFlagsNotMapDll = true)
    (hpath : unmappedPath H base status (pathStart p base regions) = (code, q)) :
    loadImage H request p = if ntSuccess code then .ok ⟨code, base, 0, q⟩
      else .ok ⟨code, base, 0, (freeLibrary H base q).2⟩ := by
  have haccepted : (!ntSuccess status || status == statusImageMachineTypeMismatch) = false := by
    simp [hok.1, hok.2]
  simp only [loadImage, hlibrary, haccepted, himage]
  rw [← effectiveFlags, hasFlag_effectiveFlags (by rfl), hflag, pathStart_eq, hpath]
  rfl

theorem loadImage_runs_mapped (hflag : hasFlag request.dwFlags loadFlagsNotMapDll = false)
    (hentry : moduleEntry H request (effectiveFlags request headers) headers base
      (pathStart p base regions) = entry)
    (hpath : mappedPath H request (effectiveFlags request headers) headers base entry status
      (pathStart p base regions) = (code, q)) :
    loadImage H request p = if ntSuccess code then .ok ⟨code, base, entry, q⟩
      else (ldrUnloadDllMemory H base q).map fun unloaded => ⟨code, 0, 0, unloaded.2⟩ := by
  have haccepted : (!ntSuccess status || status == statusImageMachineTypeMismatch) = false := by
    simp [hok.1, hok.2]
  simp only [loadImage, hlibrary, haccepted, himage]
  rw [← effectiveFlags, hasFlag_effectiveFlags (by rfl), hflag, pathStart_eq,
    if_neg Bool.false_ne_true, hentry, hpath]
  cases ldrUnloadDllMemory H base q <;> rfl

end NewImage

include laws

theorem insertInvertedStep_held :
    Leads (insertInvertedStep H dwFlags headers base)
      (fun _ p => Held H V holders start base (NotInserted entry) p)
      (fun _ p => Held H V holders start base (IsMapped entry) p) := by
  intro status p hheld
  obtain ⟨m₀, hm₀, hK₀⟩ := hheld.module
  have h : Held H V holders start base (IsMapped entry) p := hheld.weaken fun _ hK => hK.1
  have hregistered₀ := h.agrees.module base m₀ hm₀
  have hfresh : base ∉ V.bases p.invertedTable := by
    rw [hregistered₀.inserted, hK₀.2]
    decide
  have hforeign := h.agrees.foreign base (by rw [hm₀]; rfl)
  obtain ⟨hsound, hinsert⟩ :=
    laws.insertInverted h.agrees.table hforeign hfresh headers.sizeOfImage
  rw [insertInvertedStep]
  split
  · dsimp only
    split
    · rename_i hok
      rw [if_pos hok] at hinsert
      refine h.setModule
        (f := fun m => { m with insertInvertedFunctionTableEntry := true }) rfl rfl rfl
        (fun _ => rfl) (fun _ => rfl) (fun _ hK => hK) ?_ hsound ?_ fun _ _ _ _ _ => Iff.rfl
      · intro m hm hK hregistered
        exact { hregistered with
          unmapped := fun hunmapped => absurd hunmapped (by rw [hK.1]; decide)
          inserted := iff_of_true (hinsert ▸ Set.mem_insert _ _) rfl }
      · intro b hb
        change b ∈ V.bases (H.rtlInsertInvertedFunctionTable base _ p.invertedTable).2 ↔ _
        rw [hinsert, Set.mem_insert_iff]
        exact or_iff_right hb
    · rename_i hfails
      rw [if_neg hfails] at hinsert
      refine h.setModule (f := id) ?_ rfl rfl (fun _ => rfl) (fun _ => rfl)
        (fun _ hK => hK) ?_ hsound ?_ fun _ _ _ _ _ => Iff.rfl
      · rw [Option.map_id, id, Function.update_eq_self]
      · intro m hm hK hregistered
        refine { hregistered with inserted := ?_ }
        change base ∈ V.bases (H.rtlInsertInvertedFunctionTable base _ p.invertedTable).2 ↔ _
        rw [hinsert]
        exact hregistered.inserted
      · intro b hb
        change b ∈ V.bases (H.rtlInsertInvertedFunctionTable base _ p.invertedTable).2 ↔ _
        rw [hinsert]
  · exact h

theorem handleTlsStep_held :
    Leads (handleTlsStep H dwFlags base entry)
      (fun _ p => Held H V holders start base (IsMapped entry) p)
      (fun _ p => Held H V holders start base (IsMapped entry) p) := by
  intro status p h
  have hhandle := laws.handleTls entry p.tlsList
  rw [handleTlsStep]
  split
  · dsimp only
    split
    · rename_i hok
      rw [if_pos hok] at hhandle
      refine h.setModule (f := fun m => { m with tlsHandled := true }) rfl rfl rfl
        (fun _ => rfl) (fun _ => rfl) (fun _ hK => hK) ?_ h.agrees.table (fun _ _ => Iff.rfl) ?_
      · intro m hm hK hregistered
        refine { hregistered with
          unmapped := fun hunmapped => absurd hunmapped (by rw [hK.1]; decide)
          handled := fun _ => iff_of_true ?_ rfl }
        change m.ldrEntry ∈ V.tlsEntries (H.mmpHandleTlsData entry p.tlsList).2
        rw [hhandle, hK.2]
        exact Set.mem_insert _ _
      · intro m hm hK e he
        change e ∈ V.tlsEntries (H.mmpHandleTlsData entry p.tlsList).2 ↔ _
        rw [hhandle, Set.mem_insert_iff]
        refine or_iff_right fun heq => he ⟨hK.1, heq.trans hK.2.symm⟩
    · rename_i hfails
      rw [if_neg hfails] at hhandle
      have hrefused : Held H V holders start base (IsMapped entry)
          { p with tlsList := (H.mmpHandleTlsData entry p.tlsList).2 } := by
        refine h.setModule (f := id) ?_ rfl rfl (fun _ => rfl) (fun _ => rfl) (fun _ hK => hK) ?_
          h.agrees.table (fun _ _ => Iff.rfl) ?_
        · rw [Option.map_id, id, Function.update_eq_self]
        · intro m hm hK hregistered
          refine { hregistered with handled := ?_ }
          change _ → (m.ldrEntry ∈ V.tlsEntries (H.mmpHandleTlsData entry p.tlsList).2 ↔ _)
          rw [hhandle]
          exact hregistered.handled
        · intro m hm hK e he
          change e ∈ V.tlsEntries (H.mmpHandleTlsData entry p.tlsList).2 ↔ _
          rw [hhandle]
      split
      · exact hrefused
      · exact hrefused
  · exact h

theorem laterSteps_held (hone : holders base = 1) :
    Leads ((resolveImportsStep H base).andThen <| (setProtectionStep H base).andThen <|
        (useReferenceCountStep dwFlags base).andThen <|
        (insertInvertedStep H dwFlags headers base).andThen <|
        (handleTlsStep H dwFlags base entry).andThen <| initializeStep H base)
      (fun _ p => Held H V holders start base (NotInserted entry) p)
      (fun _ p => Held H V holders start base (IsMapped entry) p) := by
  have hfails : ∀ (status : NtStatus) (p : Process δ ι τ ρ), ntSuccess status = false →
      Held H V holders start base (NotInserted entry) p →
        Held H V holders start base (IsMapped entry) p := fun _ _ _ h => h.weaken fun _ hK => hK.1
  refine Leads.andThen (fun _ p h => h.editImage (laws.resolveImports base p.regions)) ?_ hfails
  refine Leads.andThen (fun _ p h => h.editImage (laws.setProtection base p.regions)) ?_ hfails
  refine Leads.andThen (useReferenceCountStep_held hone) ?_ hfails
  refine Leads.andThen (insertInvertedStep_held laws) ?_ fun _ _ _ h => h
  refine Leads.andThen (handleTlsStep_held laws) ?_ fun _ _ _ h => h
  exact initializeStep_held fun _ _ hK => hK

theorem mapDllStep_held (request : LoadRequest) (dwFlags : Dword)
    (h : Held H V holders start base (·.mappedDll = false) p)
    (hheaders : H.rtlImageNtHeader p.regions base = some headers) (status : NtStatus) :
    if ntSuccess (mapDllStep H request dwFlags headers base status p).1 then
      Held H V holders start base (NotInserted (moduleEntry H request dwFlags headers base p))
        (mapDllStep H request dwFlags headers base status p).2
    else Held H V holders start base (·.mappedDll = false)
      (mapDllStep H request dwFlags headers base status p).2 := by
  obtain ⟨m, hm, hunmapped⟩ := h.module
  rcases hmap : H.ldrMapDllMemory base headers dwFlags request.dllName request.dllFullName
    p.database with ⟨code, entry, database⟩
  obtain ⟨hsame, hresult⟩ := laws.mapDll hmap
  rw [mapDllStep, moduleEntry]
  simp only [hmap]
  cases hok : ntSuccess code with
  | true =>
    obtain ⟨hfresh, hentries, hsize, hcount⟩ := (if_pos hok).mp hresult
    let m' : MemoryModule := { m with mappedDll := true, ldrEntry := entry }
    let q := (updateModule base (fun m => { m with mappedDll := true, ldrEntry := entry })
      { p with database := database }).log [.did .mapDll base]
    have hmodules : q.modules = Function.update p.modules base (some m') := by
      simp only [q, m', updateModule, Process.setModule, Process.log, hm, Option.map_some]
    have hbase : q.modules base = some m' := by rw [hmodules, Function.update_self]
    have hagrees : Agrees H V holders q := by
      apply h.agrees.mapDll hm hunmapped hmodules rfl rfl rfl hfresh hentries hsame
      intro headers' hheaders'
      rw [hheaders] at hheaders'
      cases hheaders'
      exact hsize
    simp only [if_true, hok]
    have hflags := (h.agrees.module base m hm).unmapped hunmapped
    refine ⟨hagrees, ⟨m', hbase, ⟨rfl, rfl⟩, hflags.1⟩, ?_, ?_⟩
    · intro n hn _
      have hn : q.modules base = some n := hn
      rw [hbase] at hn
      cases hn
      exact hcount
    · intro b hb
      change q.modules b = _
      rw [hmodules, Function.update_of_ne hb]
      exact h.others b hb
  | false =>
    have hentries := (if_neg (by rw [hok]; decide)).mp hresult
    simp only [Bool.false_eq_true, if_false, hok]
    refine ⟨?_, h.module, ?_, h.others⟩
    · exact { h.agrees with
        module := fun b n hn => (h.agrees.module b n hn).congr rfl
          (fun hnmapped => ⟨hentries ▸ (h.agrees.module b n hn).entry hnmapped,
            hsame _ ((h.agrees.module b n hn).entry hnmapped)⟩) Iff.rfl (fun _ => Iff.rfl) rfl
        entries := fun e he => h.agrees.entries e (hentries ▸ he)
        tlsEntries := fun e he => hentries ▸ h.agrees.tlsEntries e he }
    · intro n hn hnmapped
      have hn : p.modules base = some n := hn
      rw [hm] at hn
      cases hn
      rw [hunmapped] at hnmapped
      cases hnmapped

theorem mappedPath_held (request : LoadRequest) (dwFlags : Dword) (hone : holders base = 1)
    (h : Held H V holders start base (·.mappedDll = false) p)
    (hheaders : H.rtlImageNtHeader p.regions base = some headers) (status : NtStatus) :
    Held H V holders start base (fun _ => True)
      (mappedPath H request dwFlags headers base (moduleEntry H request dwFlags headers base p)
        status p).2 := by
  have hmap := mapDllStep_held laws request dwFlags h hheaders status
  unfold mappedPath LoadStep.andThen
  rw [andThen_eq]
  split
  · rename_i hok
    rw [if_pos hok] at hmap
    exact (laterSteps_held laws hone _ _ hmap).weaken fun _ _ => trivial
  · rename_i hfails
    rw [if_neg hfails] at hmap
    exact hmap.weaken fun _ _ => trivial

theorem unmappedPath_held (h : Held H V holders start base (·.mappedDll = false) p)
    (status : NtStatus) :
    Held H V holders start base (·.mappedDll = false) (unmappedPath H base status p).2 := by
  have hsteps : Leads ((resolveImportsStep H base).andThen <| (setProtectionStep H base).andThen <|
        initializeStep H base)
      (fun _ p => Held H V holders start base (·.mappedDll = false) p)
      (fun _ p => Held H V holders start base (·.mappedDll = false) p) := by
    refine Leads.andThen (fun _ p h => h.editImage (laws.resolveImports base p.regions)) ?_
      fun _ _ _ h => h
    refine Leads.andThen (fun _ p h => h.editImage (laws.setProtection base p.regions)) ?_
      fun _ _ _ h => h
    exact initializeStep_held fun _ _ hK => hK
  exact hsteps status p h

theorem pathStart_held (h : Agrees H V holders p) {buffer : Nat} {status : NtStatus} {regions : ρ}
    (hlibrary : H.memoryLoadLibrary buffer p.regions = (status, base, regions))
    (hok : ntSuccess status = true ∧ status ≠ statusImageMachineTypeMismatch) :
    p.modules base = none ∧ (H.rtlImageNtHeader regions base).isSome = true ∧
      Held H V (Function.update holders base 1) p base (·.mappedDll = false)
        (pathStart p base regions) := by
  obtain ⟨hsame, hmapped⟩ := laws.loadLibrary hlibrary
  rw [if_pos hok] at hmapped
  obtain ⟨hfresh, hforeign, himages, himage⟩ := hmapped
  have hnone : p.modules base = none := by
    rw [h.images base, Option.isSome_iff_ne_none, not_not] at hfresh
    exact hfresh
  let q := pathStart p base regions
  have hmodules : q.modules = Function.update p.modules base (some (freshModule base)) := rfl
  have hbase : q.modules base = some (freshModule base) := by
    rw [hmodules, Function.update_self]
  have hother : ∀ b ≠ base, q.modules b = p.modules b := by
    intro b hb
    rw [hmodules, Function.update_of_ne hb]
  -- the new module is not mapped yet
  have hleft : ∀ b n, q.modules b = some n → n.mappedDll = true →
      b ≠ base ∧ p.modules b = some n := by
    intro b n hn hnmapped
    have hb : b ≠ base := by
      rintro rfl
      rw [hbase] at hn
      cases hn
      cases hnmapped
    exact ⟨hb, (hother b hb).symm.trans hn⟩
  refine ⟨hnone, himage, ?_, ⟨_, hbase, rfl⟩, ?_, hother⟩
  · constructor
    · intro b n hn
      by_cases hb : b = base
      · subst hb
        rw [hbase] at hn
        cases hn
        exact {
          loadFromLdrLoadDllMemory := rfl
          image := himage
          unmapped := fun _ => ⟨rfl, rfl, rfl⟩
          entry := fun hnever => by cases hnever
          size := fun hnever => by cases hnever
          counted := fun hnever => by cases hnever
          uncounted := fun _ => Function.update_self ..
          inserted := by
            refine iff_of_false (fun hmem => ?_) Bool.false_ne_true
            have hmodule := h.bases b hmem
            rw [hnone] at hmodule
            cases hmodule
          handled := fun hnever => by cases hnever }
      · rw [hother b hb] at hn
        have hinside : b ∈ V.images p.regions := (h.images b).mpr (by rw [hn]; rfl)
        exact (h.module b n hn).congr (hsame b hinside)
          (fun hnmapped => ⟨(h.module b n hn).entry hnmapped, rfl, rfl⟩) Iff.rfl (fun _ => Iff.rfl)
          (Function.update_of_ne hb _ _)
    · intro b
      change b ∈ V.images regions ↔ _
      rw [himages, Set.mem_insert_iff, h.images b]
      by_cases hb : b = base
      · rw [hb, hbase]
        exact iff_of_true (Or.inl rfl) rfl
      · rw [hother b hb]
        exact or_iff_right hb
    · intro b n b' n' hn hn' hnmapped hnmapped'
      exact h.distinct b n b' n' (hleft b n hn hnmapped).2 (hleft b' n' hn' hnmapped').2 hnmapped
        hnmapped'
    · intro e he
      obtain ⟨b, n, hn, hnmapped, hnentry⟩ := h.entries e he
      have hb : b ≠ base := by
        rintro rfl
        rw [hnone] at hn
        cases hn
      exact ⟨b, n, (hother b hb).trans hn, hnmapped, hnentry⟩
    · intro b hb
      have hmodule := h.bases b hb
      have hne : b ≠ base := by
        rintro rfl
        rw [hnone] at hmodule
        cases hmodule
      rw [hother b hne]
      exact hmodule
    · exact h.tlsEntries
    · intro b
      by_cases hb : b = base
      · rw [hb, hbase, Function.update_self]
        exact iff_of_false one_ne_zero (by simp)
      · rw [hother b hb, Function.update_of_ne hb]
        exact h.released b
    · exact h.table
    · intro b hb
      by_cases hb' : b = base
      · rw [hb']
        exact hforeign
      · rw [hother b hb'] at hb
        exact h.foreign b hb
  · intro n hn hnmapped
    exact absurd rfl (hleft base n hn hnmapped).1

/-- A load of a new image returns. If it fails, the image is gone with all that was registered
for it. -/
theorem loadImage_agrees (h : Agrees H V holders p) (request : LoadRequest) :
    ∃ result, loadImage H request p = .ok result ∧
      Agrees H V (holdersAfterLoad holders result) result.process ∧
      (ntSuccess result.status = false → result.process.modules = p.modules) := by
  rcases hlibrary : H.memoryLoadLibrary request.bufferAddress p.regions with ⟨status, base, regions⟩
  by_cases hok : ntSuccess status = true ∧ status ≠ statusImageMachineTypeMismatch
  · obtain ⟨hnone, himage, hstart⟩ := pathStart_held laws h hlibrary hok
    obtain ⟨headers, himage⟩ := Option.isSome_iff_exists.mp himage
    have hback : Function.update (Function.update holders base 1) base 0 = holders := by
      rw [Function.update_idem, ← (h.released base).mpr hnone, Function.update_eq_self]
    cases hflag : hasFlag request.dwFlags loadFlagsNotMapDll with
    | true =>
      rcases hpath : unmappedPath H base status (pathStart p base regions) with ⟨code, q⟩
      have hheld := unmappedPath_held laws hstart status
      rw [hpath] at hheld
      rw [loadImage_runs_unmapped hlibrary hok himage hflag hpath]
      cases hcode : ntSuccess code with
      | true =>
        refine ⟨_, rfl, hheld.loaded h hnone hcode, fun hfails => ?_⟩
        exact absurd (hcode.symm.trans hfails) Bool.noConfusion
      | false =>
        obtain ⟨m, hm, hunmapped⟩ := hheld.module
        obtain ⟨q', hfree, hmodules, hagrees⟩ :=
          freeLibrary_agrees laws hheld.agrees hm hunmapped m
        have hsame : q.setModule base (some m) = q := by
          rw [Process.setModule, ← hm, Function.update_eq_self]
        rw [hsame] at hfree
        rw [hback] at hagrees
        refine ⟨_, rfl, ?_, fun _ => ?_⟩
        · rw [holdersAfterLoad, if_neg (by simp [hcode]), hfree]
          exact hagrees
        · rw [hfree]
          exact modules_back hnone hheld.others hmodules
    | false =>
      obtain ⟨entry, hentry⟩ : ∃ entry, moduleEntry H request (effectiveFlags request headers)
          headers base (pathStart p base regions) = entry := ⟨_, rfl⟩
      rcases hpath : mappedPath H request (effectiveFlags request headers) headers base entry status
        (pathStart p base regions) with ⟨code, q⟩
      have hheld := mappedPath_held laws request (effectiveFlags request headers)
        (Function.update_self ..) hstart himage status
      rw [hentry, hpath] at hheld
      rw [loadImage_runs_mapped hlibrary hok himage hflag hentry hpath]
      cases hcode : ntSuccess code with
      | true =>
        refine ⟨_, rfl, hheld.loaded h hnone hcode, fun hfails => ?_⟩
        exact absurd (hcode.symm.trans hfails) Bool.noConfusion
      | false =>
        obtain ⟨_, q', hunload, hagrees, hmodules⟩ :=
          ldrUnloadDllMemory_agrees laws hheld.agrees base
        rw [Function.update_self, if_pos le_rfl] at hmodules
        simp only [hunload]
        refine ⟨_, rfl, ?_, fun _ => modules_back hnone hheld.others hmodules⟩
        rw [holdersAfterUnload, Function.update_self] at hagrees
        rw [holdersAfterLoad, if_neg (by simp [hcode])]
        change Agrees H V holders q'
        rw [← hback]
        exact hagrees
  · obtain ⟨hsame, hrefused⟩ := laws.loadLibrary hlibrary
    rw [if_neg hok] at hrefused
    obtain ⟨rfl, himages⟩ := hrefused
    have hnull : p.modules 0 = none := by
      have hmodule := (h.images 0).not.mp (laws.null p.regions)
      rw [Option.isSome_iff_ne_none, not_not] at hmodule
      exact hmodule
    have hload : loadImage H request p = .ok ⟨status, 0, 0, { p with regions := regions }⟩ := by
      rw [loadImage, hlibrary]
      dsimp only
      refine if_pos ?_
      rw [Bool.or_eq_true, Bool.not_eq_true', beq_iff_eq]
      by_cases hsuccess : ntSuccess status = true
      · exact Or.inr (not_not.mp fun hmachine => hok ⟨hsuccess, hmachine⟩)
      · exact Or.inl (Bool.eq_false_iff.mpr hsuccess)
    refine ⟨_, hload, ?_, fun _ => rfl⟩
    rw [holdersAfterLoad, if_neg (by simp [hnull])]
    exact h.editImage himages hsame

theorem ldrLoadDllMemoryExW_agrees (h : Agrees H V holders p) (request : LoadRequest) :
    ∃ result, ldrLoadDllMemoryExW H request p = .ok result ∧
      Agrees H V (holdersAfterLoad holders result) result.process ∧
      (ntSuccess result.status = false → result.process.modules = p.modules) := by
  have hstays : ∀ {status : NtStatus} {base entry : Nat}, ntSuccess status = false →
      Agrees H V (holdersAfterLoad holders ⟨status, base, entry, p⟩) p := by
    intro status base entry hfails
    rw [holdersAfterLoad, if_neg (by simp [hfails])]
    exact h
  rw [ldrLoadDllMemoryExW]
  split
  · exact ⟨_, rfl, hstays (by decide), fun _ => rfl⟩
  split
  · rename_i hinvalid
    exact ⟨_, rfl, hstays (by simpa using hinvalid), fun _ => rfl⟩
  dsimp only
  split
  · exact ⟨_, rfl, hstays (by decide), fun _ => rfl⟩
  split
  · exact loadImage_agrees laws h _
  split
  · exact ⟨_, rfl, hstays (by decide), fun _ => rfl⟩
  split
  · rename_i entry module hscan
    refine ⟨_, rfl, ?_⟩
    rw [reuseModule]
    split
    · exact ⟨hstays (by decide), fun _ => rfl⟩
    · rename_i hcounting
      have hmodule := scanLoaded_module hscan
      have hcounted : module.useReferenceCount = true := by
        by_contra hnot
        simp [Bool.eq_false_iff.mpr hnot] at hcounting
      have hpresent : (p.modules (H.ldrEntryAt p.database entry).dllBase).isSome = true := by
        rw [hmodule]
        rfl
      refine ⟨?_, fun _ => rfl⟩
      rw [holdersAfterLoad, if_pos ⟨rfl, hpresent⟩]
      exact h.recount laws hmodule hcounted true fun hnever => by cases hnever
  · exact loadImage_agrees laws h _

end Load

end WinPolyfillLoader.Loader
