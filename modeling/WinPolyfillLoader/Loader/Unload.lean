import WinPolyfillLoader.Loader.LdrLoadDllMemory

/-!
The state of a process with a module under way or loaded, against the process
before the load, and the one theorem about its last unload: every part of the
process is again what it was, and each step that was done is undone once.
-/

namespace WinPolyfillLoader.Loader

open LdrEntry

variable {δ ι τ ρ : Type}

/-- The steps that the flags of a module say were done, in their order. -/
def MemoryModule.completed (m : MemoryModule) : List Step :=
  [.loadLibrary] ++ (if m.mappedDll then [.mapDll] else []) ++
    (if m.insertInvertedFunctionTableEntry then [.insertInverted] else []) ++
    (if m.tlsHandled then [.handleTls] else [])

/-- The steps in the order in which an unload takes them back. -/
def MemoryModule.undone (m : MemoryModule) : List Step :=
  (if m.insertInvertedFunctionTableEntry then [.insertInverted] else []) ++
    (if m.tlsHandled then [.handleTls] else []) ++
    (if m.mappedDll then [.mapDll] else []) ++ [.loadLibrary]

/-- The process `p` holds the module `m` at `base`; `start` is the process
before it was loaded, and `count` its reference count. -/
structure Loaded (H : Helpers δ ι τ ρ) (base : Nat) (headers : ImageHeaders) (count : Nat)
    (start p : Process δ ι τ ρ) (m : MemoryModule) : Prop where
  module : p.modules base = some m
  loadFromLdrLoadDllMemory : m.loadFromLdrLoadDllMemory = true
  imageHeaders : H.rtlImageNtHeader p.regions base = some headers
  regions : ∃ buffer status r, H.memoryLoadLibrary buffer start.regions = (status, base, r) ∧
    ntSuccess status = true ∧ H.ImageEdited base r p.regions
  unmapped : m.mappedDll = false → p.database = start.database ∧
    m.insertInvertedFunctionTableEntry = false ∧ m.tlsHandled = false
  mapped : m.mappedDll = true → ∃ dwFlags name full status d,
    H.ldrMapDllMemory base headers dwFlags name full start.database = (status, m.ldrEntry, d) ∧
      ntSuccess status = true ∧ H.Recounted m.ldrEntry d p.database ∧
      (H.rtlGetReferenceCount m.ldrEntry p.database).2 = count
  notInserted : m.insertInvertedFunctionTableEntry = false →
    p.invertedTable = start.invertedTable
  inserted : m.insertInvertedFunctionTableEntry = true → ∃ size status,
    H.rtlInsertInvertedFunctionTable base size start.invertedTable = (status, p.invertedTable) ∧
      ntSuccess status = true
  notHandled : m.tlsHandled = false → p.tlsList = start.tlsList
  handled : m.tlsHandled = true → ∃ status,
    H.mmpHandleTlsData m.ldrEntry start.tlsList = (status, p.tlsList) ∧ ntSuccess status = true
  others : ∀ b ≠ base, p.modules b = start.modules b

def MemoryModule.unloadEvents (m : MemoryModule) (base : Nat) : List Event :=
  (if m.mappedDll && m.initialized then [.detach base] else []) ++ m.undone.map (.undid · base)

/-- The process after the last unload: all that a load edits is again as it was
in `start`, and nothing is mapped at the base. -/
def unloaded (start p : Process δ ι τ ρ) (base : Nat) (m : MemoryModule) : Process δ ι τ ρ :=
  { start with
    modules := Function.update start.modules base none
    events := p.events ++ m.unloadEvents base }

theorem undone_perm (m : MemoryModule) : m.undone.Perm m.completed := by
  unfold MemoryModule.undone MemoryModule.completed
  simp only [List.append_assoc]
  rw [← List.append_assoc, ← List.append_assoc [Step.loadLibrary]]
  exact List.perm_append_comm.trans (List.Perm.append_right _ List.perm_append_comm)

theorem mem_completed_handleTls (m : MemoryModule) :
    Step.handleTls ∈ m.completed ↔ m.tlsHandled = true := by
  simp [MemoryModule.completed]

theorem completed_nodup (m : MemoryModule) : m.completed.Nodup := by
  unfold MemoryModule.completed
  cases m.mappedDll <;> cases m.insertInvertedFunctionTableEntry <;> cases m.tlsHandled <;>
    simp

theorem recounted_entries {H : Helpers δ ι τ ρ} (laws : H.CountLaws) {entry : Nat} {d d' : δ}
    (h : H.Recounted entry d d') :
    H.inLoadOrderModuleList d' = H.inLoadOrderModuleList d ∧ H.ldrEntryAt d' = H.ldrEntryAt d := by
  induction h with
  | refl => exact ⟨rfl, rfl⟩
  | step flag _ ih =>
    obtain ⟨hlist, hentries⟩ := laws.update_entries entry flag _
    exact ⟨hlist.trans ih.1, hentries.trans ih.2⟩

section Unload

variable {H : Helpers δ ι τ ρ} (laws : H.UndoLaws) {base : Nat} {headers : ImageHeaders}
  {start p : Process δ ι τ ρ} {m : MemoryModule}

include laws

theorem removeInverted_loaded (q : Process δ ι τ ρ)
    (h : Loaded H base headers 1 start p m) (hq : q.invertedTable = p.invertedTable) :
    removeInverted H base m q = .ok { q with
      invertedTable := start.invertedTable
      events := q.events ++
        if m.insertInvertedFunctionTableEntry then [.undid .insertInverted base] else [] } := by
  cases hflag : m.insertInvertedFunctionTableEntry with
  | false =>
    have hsame : q.invertedTable = start.invertedTable := hq.trans (h.notInserted hflag)
    simp [removeInverted, hflag, ← hsame]
  | true =>
    obtain ⟨size, status, hinsert, hok⟩ := h.inserted hflag
    have hremove := laws.remove_reverses hinsert hok
    have hsuccess : ntSuccess statusSuccess = true := rfl
    simp [removeInverted, hflag, hq, hremove, hsuccess, Process.log]

theorem releaseTls_loaded (q : Process δ ι τ ρ)
    (h : Loaded H base headers 1 start p m) (hq : q.tlsList = p.tlsList) :
    releaseTls H base m q = .ok { q with
      tlsList := start.tlsList
      events := q.events ++ if m.tlsHandled then [.undid .handleTls base] else [] } := by
  cases hflag : m.tlsHandled with
  | false =>
    have hsame : q.tlsList = start.tlsList := hq.trans (h.notHandled hflag)
    simp [releaseTls, hflag, ← hsame]
  | true =>
    obtain ⟨status, hhandle, hok⟩ := h.handled hflag
    have hrelease := laws.release_reverses hhandle hok
    have hsuccess : ntSuccess statusSuccess = true := rfl
    simp [releaseTls, hflag, hq, hrelease, hsuccess, Process.log]

theorem freeEntry_loaded (q : Process δ ι τ ρ)
    (h : Loaded H base headers 1 start p m) (hmapped : m.mappedDll = true)
    (hq : q.database = p.database) :
    freeEntry H base m q = .ok { q with
      database := start.database, events := q.events ++ [.undid .mapDll base] } := by
  obtain ⟨_, _, _, _, d, hmap, hok, hrecount, hcount⟩ := h.mapped hmapped
  have hfree := laws.free_reverses hmap hok hrecount hcount
  simp [freeEntry, hq, hfree, Process.log]

theorem freeLibrary_loaded (q : Process δ ι τ ρ)
    (h : Loaded H base headers 1 start p m) (hq : q.regions = p.regions) :
    freeLibrary H base q = (true, { q with
      regions := start.regions
      modules := Function.update q.modules base none
      events := q.events ++ [.undid .loadLibrary base] }) := by
  obtain ⟨_, _, r, hload, hok, hedited⟩ := h.regions
  have hfree := laws.load_reverses hload hok hedited
  simp [freeLibrary, hq, hfree, Process.log, Process.setModule]

/-- The entry of a mapped module is in the loader database, and only since its load. -/
theorem entry_loaded {count : Nat} (h : Loaded H base headers count start p m)
    (hmapped : m.mappedDll = true) :
    m.ldrEntry ∉ H.inLoadOrderModuleList start.database ∧
      m.ldrEntry ∈ H.inLoadOrderModuleList p.database ∧
      (H.ldrEntryAt p.database m.ldrEntry).sizeOfImage = headers.sizeOfImage := by
  obtain ⟨_, _, _, _, d, hmap, hok, hrecount, _⟩ := h.mapped hmapped
  obtain ⟨hfresh, hlisted, hsize, _⟩ := laws.map_entry hmap hok
  obtain ⟨hlist, hentries⟩ := recounted_entries laws.toCountLaws hrecount
  rw [hlist, hentries]
  exact ⟨hfresh, hlisted, hsize⟩

omit laws in
theorem callDetach_eq (q : Process δ ι τ ρ) :
    callDetach base m q =
      { q with events := q.events ++ if m.initialized then [.detach base] else [] } := by
  cases hinit : m.initialized with
  | false => simp [callDetach, hinit]
  | true => simp [callDetach, hinit, Process.log]

omit laws in
theorem update_modules_loaded {count : Nat} (h : Loaded H base headers count start p m) :
    Function.update p.modules base none = Function.update start.modules base none := by
  funext b
  by_cases hb : b = base
  · simp [hb]
  · simp [hb, h.others b hb]

theorem tearDown_loaded (h : Loaded H base headers 1 start p m) (hmapped : m.mappedDll = true) :
    tearDown H base m p = .ok (statusSuccess, unloaded start p base m) := by
  unfold tearDown
  simp only [callDetach_eq]
  rw [removeInverted_loaded laws _ h (by rfl)]
  simp only
  rw [releaseTls_loaded laws _ h (by rfl)]
  simp only
  rw [freeEntry_loaded laws _ h hmapped (by rfl)]
  simp only
  rw [freeLibrary_loaded laws _ h (by rfl)]
  simp only [Process.setModule, Function.update_idem, update_modules_loaded h]
  unfold unloaded MemoryModule.unloadEvents MemoryModule.undone
  cases m.insertInvertedFunctionTableEntry <;> cases m.tlsHandled <;> simp [hmapped]

/-- The guards of an unload that a loaded, mapped module passes. -/
theorem ldrUnloadDllMemory_mapped {count : Nat} (h : Loaded H base headers count start p m)
    (hmapped : m.mappedDll = true) :
    ldrUnloadDllMemory H base p =
      match referenceCount H m p.database with
      | (_, count) =>
        if dropLowBit count ≠ 0 then
          match H.rtlUpdateReferenceCount m.ldrEntry false p.database with
          | (status, database) => .ok (status, { p with database := database })
        else tearDown H base m p := by
  obtain ⟨_, _, hsize⟩ := entry_loaded laws h hmapped
  have hstatus : ntSuccess (referenceCount H m p.database).1 = true := by
    unfold referenceCount
    split
    · exact laws.get_succeeds _ _
    · rfl
  unfold ldrUnloadDllMemory
  simp [h.module, h.loadFromLdrLoadDllMemory, hmapped, h.imageHeaders, hsize, hstatus]

/-- The unload of a module that nobody else counts reverses its load. -/
theorem ldrUnloadDllMemory_loaded (h : Loaded H base headers 1 start p m) :
    ldrUnloadDllMemory H base p = .ok (statusSuccess, unloaded start p base m) := by
  cases hmapped : m.mappedDll with
  | true =>
    rw [ldrUnloadDllMemory_mapped laws h hmapped]
    have hcount : dropLowBit (referenceCount H m p.database).2 = 0 := by
      obtain ⟨_, _, _, _, _, _, _, _, hcount⟩ := h.mapped hmapped
      unfold referenceCount
      split
      · rw [hcount]
        rfl
      · rfl
    simp only [hcount]
    exact tearDown_loaded laws h hmapped
  | false =>
    obtain ⟨hdatabase, hinserted, hhandled⟩ := h.unmapped hmapped
    unfold ldrUnloadDllMemory
    simp only [h.module, h.loadFromLdrLoadDllMemory, hmapped]
    rw [freeLibrary_loaded laws _ h (by rfl)]
    simp only [Process.setModule, Function.update_idem, update_modules_loaded h]
    simp [unloaded, MemoryModule.unloadEvents, MemoryModule.undone, hmapped, hinserted, hhandled,
      hdatabase, h.notInserted hinserted, h.notHandled hhandled]

end Unload

end WinPolyfillLoader.Loader
