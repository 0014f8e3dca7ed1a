import WinPolyfillLoader.Loader.Rollback

/-!
The reference count of a module over any order of further loads that find it
and unloads. While fewer unloads than loads were made the module is mapped and
its count is the difference; the unload that makes them equal takes it down.
-/

namespace WinPolyfillLoader.Loader

open LdrEntry

variable {δ ι τ ρ : Type}

/-- The request finds the module at `base` in the loader database. -/
structure Resolves (H : Helpers δ ι τ ρ) (request : LoadRequest) (base : Nat)
    (p : Process δ ι τ ρ) : Prop where
  checked : Checked H request
  found : ∃ dllName h1 entry module, request.dllName = some dllName ∧
    H.rtlImageNtHeader p.regions request.bufferAddress = some h1 ∧
    scanLoaded H dllName h1 p (H.inLoadOrderModuleList p.database) = some (entry, module) ∧
    (H.ldrEntryAt p.database entry).dllBase = base

/-- The states that calls on the module at `base` reach from `first`, the state
after its load, with the numbers of loads that succeeded and of unloads. -/
inductive Calls (H : Helpers δ ι τ ρ) (base : Nat) (first : Process δ ι τ ρ) :
    Nat → Nat → Process δ ι τ ρ → Prop where
  | start : Calls H base first 1 0 first
  | load {loads unloads : Nat} {p : Process δ ι τ ρ} {result : LoadResult δ ι τ ρ}
      (request : LoadRequest) (h : Calls H base first loads unloads p)
      (hresolves : Resolves H request base p)
      (hload : ldrLoadDllMemoryExW H request p = .ok result) :
      Calls H base first (if ntSuccess result.status then loads + 1 else loads) unloads
        result.process
  | unload {loads unloads : Nat} {p q : Process δ ι τ ρ} {status : NtStatus}
      (h : Calls H base first loads unloads p)
      (hunload : ldrUnloadDllMemory H base p = .ok (status, q)) :
      Calls H base first loads (unloads + 1) q

/-- The state of a module after some calls: held by the calls that were not yet
matched, or taken down. -/
inductive Counted (H : Helpers δ ι τ ρ) (base : Nat) (headers : ImageHeaders)
    (start first : Process δ ι τ ρ) (m : MemoryModule) :
    Nat → Nat → Process δ ι τ ρ → Prop where
  | live {loads unloads : Nat} {p : Process δ ι τ ρ} (hheld : unloads < loads)
      (hloaded : Loaded H base headers (loads - unloads) start p m)
      (hregions : p.regions = first.regions) (hevents : p.events = first.events) :
      Counted H base headers start first m loads unloads p
  | gone {loads unloads : Nat} (hmatched : loads ≤ unloads) :
      Counted H base headers start first m loads unloads (unloaded start first base m)

theorem isLoadedEntry_module {H : Helpers δ ι τ ρ} {dllName : List Wchar} {h1 : ImageHeaders}
    {p : Process δ ι τ ρ} {entry : Nat} {module : MemoryModule}
    (h : isLoadedEntry H dllName h1 p entry = some module) :
    p.modules (H.ldrEntryAt p.database entry).dllBase = some module := by
  simp only [isLoadedEntry] at h
  split at h
  · cases himage : H.rtlImageNtHeader p.regions (H.ldrEntryAt p.database entry).dllBase with
    | none => simp [himage] at h
    | some h2 =>
      cases hmodule : p.modules (H.ldrEntryAt p.database entry).dllBase with
      | none => simp [himage, hmodule] at h
      | some found =>
        simp only [himage, hmodule, Option.ite_none_right_eq_some] at h
        rw [h.2]
  · cases h

theorem scanLoaded_module {H : Helpers δ ι τ ρ} {dllName : List Wchar} {h1 : ImageHeaders}
    {p : Process δ ι τ ρ} {entries : List Nat} {entry : Nat} {module : MemoryModule}
    (h : scanLoaded H dllName h1 p entries = some (entry, module)) :
    p.modules (H.ldrEntryAt p.database entry).dllBase = some module := by
  induction entries with
  | nil => cases h
  | cons first rest ih =>
    unfold scanLoaded at h
    cases hfirst : isLoadedEntry H dllName h1 p first with
    | none =>
      rw [hfirst] at h
      exact ih h
    | some found =>
      rw [hfirst] at h
      cases h
      exact isLoadedEntry_module hfirst

section Counting

variable {H : Helpers δ ι τ ρ} (laws : H.UndoLaws) {request : LoadRequest} {base count : Nat}
  {headers : ImageHeaders} {start first p : Process δ ι τ ρ} {m : MemoryModule}

theorem module_resolves (h : Resolves H request base p) : ∃ module, p.modules base = some module := by
  obtain ⟨_, _, _, module, _, _, hscan, hbase⟩ := h.found
  have hmodule := scanLoaded_module hscan
  rw [hbase] at hmodule
  exact ⟨module, hmodule⟩

/-- A load that finds a counted module adds a reference or is refused. -/
theorem ldrLoadDllMemoryExW_resolves (h : Resolves H request base p)
    (hmodule : p.modules base = some m) (hcounted : m.useReferenceCount = true) :
    (∃ status, ntSuccess status = false ∧
      ldrLoadDllMemoryExW H request p = .ok ⟨status, 0, 0, p⟩) ∨
    (∃ status entry, ntSuccess status = true ∧
      ldrLoadDllMemoryExW H request p = .ok ⟨status, base, entry,
        { p with database := (H.rtlUpdateReferenceCount m.ldrEntry true p.database).2 }⟩) := by
  obtain ⟨dllName, h1, entry, module, hname, himage, hscan, hbase⟩ := h.found
  have hfound := scanLoaded_module hscan
  rw [hbase, hmodule] at hfound
  cases hfound
  have hload : ldrLoadDllMemoryExW H request p = .ok (reuseModule H request entry m p) := by
    rw [ldrLoadDllMemoryExW_checked h.checked]
    simp only [hname, himage, hscan]
  rw [hload]
  unfold reuseModule
  cases hflag : hasFlag request.dwFlags loadFlagsNotUseReferenceCount with
  | true =>
    left
    exact ⟨statusInvalidParameter3, rfl, by simp⟩
  | false =>
    right
    exact ⟨statusSuccess, entry, rfl, by simp [hcounted, hbase]⟩

include laws

theorem recount_loaded (h : Loaded H base headers count start p m) (hmapped : m.mappedDll = true)
    (flag : Bool) :
    Loaded H base headers (if flag then count + 1 else count - 1) start
      { p with database := (H.rtlUpdateReferenceCount m.ldrEntry flag p.database).2 } m := by
  obtain ⟨_, _, _, _, d, hmap, hok, hrecount, hcount⟩ := h.mapped hmapped
  obtain ⟨_, hlisted, _⟩ := entry_loaded laws h hmapped
  have hupdate := laws.update_count hlisted flag
  rw [hcount] at hupdate
  exact { h with
    unmapped := by simp [hmapped]
    mapped := fun _ => ⟨_, _, _, _, d, hmap, hok, .step flag hrecount, hupdate⟩ }

/-- An unload while other references are held only gives one back. -/
theorem ldrUnloadDllMemory_held (h : Loaded H base headers count start p m)
    (hmapped : m.mappedDll = true) (hcounted : m.useReferenceCount = true) (hcount : 1 < count) :
    ∃ status, ntSuccess status = true ∧ ldrUnloadDllMemory H base p = .ok (status,
      { p with database := (H.rtlUpdateReferenceCount m.ldrEntry false p.database).2 }) := by
  obtain ⟨_, _, _, _, _, _, _, _, hread⟩ := h.mapped hmapped
  have hhigh : dropLowBit (referenceCount H m p.database).2 ≠ 0 := by
    simp only [referenceCount, hcounted, if_true, hread, dropLowBit]
    omega
  refine ⟨_, laws.update_succeeds m.ldrEntry false p.database, ?_⟩
  rw [ldrUnloadDllMemory_mapped laws h hmapped]
  simp only [if_pos hhigh]

omit laws in
/-- An unload at a base where nothing is mapped changes nothing. -/
theorem ldrUnloadDllMemory_gone (hnone : p.modules base = none) :
    ldrUnloadDllMemory H base p = .ok (statusInvalidHandle, p) := by
  simp only [ldrUnloadDllMemory, hnone]

theorem counted_load {loads unloads : Nat} {result : LoadResult δ ι τ ρ}
    (hmapped : m.mappedDll = true) (hcounted : m.useReferenceCount = true)
    (h : Counted H base headers start first m loads unloads p)
    (hresolves : Resolves H request base p)
    (hload : ldrLoadDllMemoryExW H request p = .ok result) :
    Counted H base headers start first m
      (if ntSuccess result.status then loads + 1 else loads) unloads result.process := by
  cases h with
  | live hheld hloaded hregions hevents =>
    rcases ldrLoadDllMemoryExW_resolves hresolves hloaded.module hcounted with
      ⟨status, hfails, heq⟩ | ⟨status, entry, hok, heq⟩
    · cases hload.symm.trans heq
      simp only [hfails]
      exact .live hheld hloaded hregions hevents
    · cases hload.symm.trans heq
      simp only [hok, if_true]
      have hmore := recount_loaded laws hloaded hmapped true
      rw [if_pos rfl, show loads - unloads + 1 = loads + 1 - unloads by omega] at hmore
      exact .live (by omega) hmore hregions hevents
  | gone _ =>
    obtain ⟨module, hmodule⟩ := module_resolves hresolves
    simp [unloaded] at hmodule

theorem counted_unload {loads unloads : Nat} {status : NtStatus} {q : Process δ ι τ ρ}
    (hmapped : m.mappedDll = true) (hcounted : m.useReferenceCount = true)
    (h : Counted H base headers start first m loads unloads p)
    (hunload : ldrUnloadDllMemory H base p = .ok (status, q)) :
    Counted H base headers start first m loads (unloads + 1) q := by
  cases h with
  | live hheld hloaded hregions hevents =>
    rcases Nat.lt_or_ge 1 (loads - unloads) with hmany | hone
    · obtain ⟨_, _, heq⟩ := ldrUnloadDllMemory_held laws hloaded hmapped hcounted hmany
      cases hunload.symm.trans heq
      have hless := recount_loaded laws hloaded hmapped false
      rw [if_neg Bool.false_ne_true, show loads - unloads - 1 = loads - (unloads + 1) by omega]
        at hless
      exact .live (by omega) hless hregions hevents
    · rw [show loads - unloads = 1 by omega] at hloaded
      cases hunload.symm.trans (ldrUnloadDllMemory_loaded laws hloaded)
      have hsame : unloaded start p base m = unloaded start first base m := by
        rw [unloaded, hevents]
        rfl
      rw [hsame]
      exact .gone (by omega)
  | gone hmatched =>
    cases hunload.symm.trans (ldrUnloadDllMemory_gone (by simp [unloaded]))
    exact .gone (by omega)

theorem counted_calls {loads unloads : Nat} (hloaded : Loaded H base headers 1 start first m)
    (hmapped : m.mappedDll = true) (hcounted : m.useReferenceCount = true)
    (h : Calls H base first loads unloads p) :
    Counted H base headers start first m loads unloads p := by
  induction h with
  | start => exact .live (by omega) hloaded rfl rfl
  | load request _ hresolves hload ih =>
    exact counted_load laws hmapped hcounted ih hresolves hload
  | unload _ hunload ih => exact counted_unload laws hmapped hcounted ih hunload

end Counting

/-- The process after the load of `stackRequest`. -/
def stackFirst : Process (List StackProcess.StackEntry) (List Nat) (List Nat) (List Nat) :=
  match ldrLoadDllMemoryExW (StackProcess.stackHelpers stackImage statusSuccess) stackRequest
    stackStart with
  | .ok result => result.process
  | .error _ => stackStart

/-- The same process with another count of its module. -/
def stackCounted (count : Nat) :
    Process (List StackProcess.StackEntry) (List Nat) (List Nat) (List Nat) :=
  { stackFirst with database := stackFirst.database.map fun e => { e with count := count } }

end WinPolyfillLoader.Loader
