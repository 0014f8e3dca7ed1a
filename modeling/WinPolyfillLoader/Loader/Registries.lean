import Mathlib.Data.Set.Insert
import WinPolyfillLoader.Loader.Rollback

/-!
The loader list, the inverted function table, the TLS list and the mapped images, with any
number of modules that come and go in any order. A helper that succeeds registers what it is
asked to, one that fails registers nothing; then the flags of the modules say exactly what is
registered, and no unload of a module fails fast.
-/

namespace WinPolyfillLoader.Loader

open LdrEntry EarlyExit

variable {δ ι τ ρ : Type}

/-- What the parts of a process hold for memory modules. The modules of the system keep their
bases, and what is registered for them is left out. `sound` is what an inverted function table
must be for its two helpers to work on it. -/
structure Views (δ ι τ ρ : Type) where
  entries : δ → Set Nat
  sound : ι → Prop
  bases : ι → Set Nat
  tlsEntries : τ → Set Nat
  images : ρ → Set Nat
  systemBases : Set Nat

/-- What is read of some entries is the same. -/
def Helpers.SameEntries (H : Helpers δ ι τ ρ) (s : Set Nat) (d d' : δ) : Prop :=
  ∀ e ∈ s, H.ldrEntryAt d' e = H.ldrEntryAt d e ∧
    (H.rtlGetReferenceCount e d').2 = (H.rtlGetReferenceCount e d).2

/-- The headers of some images are the same. -/
def Helpers.SameImages (H : Helpers δ ι τ ρ) (s : Set Nat) (r r' : ρ) : Prop :=
  ∀ b ∈ s, H.rtlImageNtHeader r' b = H.rtlImageNtHeader r b

/-- What the helpers do to the views. -/
structure Helpers.Registers (H : Helpers δ ι τ ρ) (V : Views δ ι τ ρ) : Prop where
  mapDll : ∀ {base headers flags name full d status entry d'},
    H.ldrMapDllMemory base headers flags name full d = (status, entry, d') →
      H.SameEntries (V.entries d) d d' ∧
      if ntSuccess status then entry ∉ V.entries d ∧ V.entries d' = insert entry (V.entries d) ∧
        (H.ldrEntryAt d' entry).sizeOfImage = headers.sizeOfImage ∧
        (H.rtlGetReferenceCount entry d').2 = 1
      else V.entries d' = V.entries d
  freeEntry : ∀ {entry d}, entry ∈ V.entries d →
    ∃ d', H.rtlFreeLdrDataTableEntry entry d = (true, d') ∧
      V.entries d' = V.entries d \ {entry} ∧ H.SameEntries (V.entries d') d d'
  getCount : ∀ entry d, ntSuccess (H.rtlGetReferenceCount entry d).1 = true
  updateCount : ∀ {entry d}, entry ∈ V.entries d → ∀ flag,
    V.entries (H.rtlUpdateReferenceCount entry flag d).2 = V.entries d ∧
      H.ldrEntryAt (H.rtlUpdateReferenceCount entry flag d).2 entry = H.ldrEntryAt d entry ∧
      (H.rtlGetReferenceCount entry (H.rtlUpdateReferenceCount entry flag d).2).2 =
        (if flag then (H.rtlGetReferenceCount entry d).2 + 1
          else (H.rtlGetReferenceCount entry d).2 - 1) ∧
      H.SameEntries (V.entries d \ {entry}) d (H.rtlUpdateReferenceCount entry flag d).2
  null : ∀ r, 0 ∉ V.images r
  loadLibrary : ∀ {buffer r status base r'}, H.memoryLoadLibrary buffer r = (status, base, r') →
    H.SameImages (V.images r) r r' ∧
    if ntSuccess status ∧ status ≠ statusImageMachineTypeMismatch then
      base ∉ V.images r ∧ base ∉ V.systemBases ∧ V.images r' = insert base (V.images r) ∧
        (H.rtlImageNtHeader r' base).isSome = true
    else base = 0 ∧ V.images r' = V.images r
  freeLibrary : ∀ {base r}, base ∈ V.images r → ∃ r', H.memoryFreeLibrary base r = (true, r') ∧
    V.images r' = V.images r \ {base} ∧ H.SameImages (V.images r') r r'
  resolveImports : ∀ base r, V.images (H.memoryResolveImportTable base r).2 = V.images r ∧
    H.SameImages (V.images r) r (H.memoryResolveImportTable base r).2
  setProtection : ∀ base r, V.images (H.memorySetSectionProtection base r).2 = V.images r ∧
    H.SameImages (V.images r) r (H.memorySetSectionProtection base r).2
  insertInverted : ∀ {base t}, V.sound t → base ∉ V.systemBases → base ∉ V.bases t → ∀ size,
    V.sound (H.rtlInsertInvertedFunctionTable base size t).2 ∧
      V.bases (H.rtlInsertInvertedFunctionTable base size t).2 =
        if ntSuccess (H.rtlInsertInvertedFunctionTable base size t).1 then insert base (V.bases t)
        else V.bases t
  removeInverted : ∀ {base t}, V.sound t → base ∈ V.bases t →
    ntSuccess (H.rtlRemoveInvertedFunctionTable base t).1 = true ∧
      V.sound (H.rtlRemoveInvertedFunctionTable base t).2 ∧
      V.bases (H.rtlRemoveInvertedFunctionTable base t).2 = V.bases t \ {base}
  handleTls : ∀ entry t, V.tlsEntries (H.mmpHandleTlsData entry t).2 =
    if ntSuccess (H.mmpHandleTlsData entry t).1 then insert entry (V.tlsEntries t)
    else V.tlsEntries t
  releaseTls : ∀ {entry t}, entry ∈ V.tlsEntries t →
    ntSuccess (H.mmpReleaseTlsEntry entry t).1 = true ∧
      V.tlsEntries (H.mmpReleaseTlsEntry entry t).2 = V.tlsEntries t \ {entry}

/-- The flags of the module at a base are true, and its count is the number of its holders. -/
structure Registered (H : Helpers δ ι τ ρ) (V : Views δ ι τ ρ) (holders : Nat → Nat)
    (p : Process δ ι τ ρ) (base : Nat) (m : MemoryModule) : Prop where
  loadFromLdrLoadDllMemory : m.loadFromLdrLoadDllMemory = true
  image : (H.rtlImageNtHeader p.regions base).isSome = true
  unmapped : m.mappedDll = false → m.insertInvertedFunctionTableEntry = false ∧
    m.tlsHandled = false ∧ m.useReferenceCount = false
  entry : m.mappedDll = true → m.ldrEntry ∈ V.entries p.database
  size : m.mappedDll = true → ∀ headers, H.rtlImageNtHeader p.regions base = some headers →
    (H.ldrEntryAt p.database m.ldrEntry).sizeOfImage = headers.sizeOfImage
  counted : m.useReferenceCount = true →
    (H.rtlGetReferenceCount m.ldrEntry p.database).2 = holders base
  uncounted : m.useReferenceCount = false → holders base = 1
  inserted : base ∈ V.bases p.invertedTable ↔ m.insertInvertedFunctionTableEntry = true
  handled : m.mappedDll = true →
    (m.ldrEntry ∈ V.tlsEntries p.tlsList ↔ m.tlsHandled = true)

/-- The modules of the process are what is registered, each with an entry of its own. -/
structure Agrees (H : Helpers δ ι τ ρ) (V : Views δ ι τ ρ) (holders : Nat → Nat)
    (p : Process δ ι τ ρ) : Prop where
  module : ∀ b m, p.modules b = some m → Registered H V holders p b m
  images : ∀ b, b ∈ V.images p.regions ↔ (p.modules b).isSome = true
  distinct : ∀ b m b' m', p.modules b = some m → p.modules b' = some m' → m.mappedDll = true →
    m'.mappedDll = true → m.ldrEntry = m'.ldrEntry → b = b'
  entries : ∀ e ∈ V.entries p.database, ∃ b m, p.modules b = some m ∧ m.mappedDll = true ∧
    m.ldrEntry = e
  bases : ∀ b ∈ V.bases p.invertedTable, (p.modules b).isSome = true
  tlsEntries : ∀ e ∈ V.tlsEntries p.tlsList, e ∈ V.entries p.database
  released : ∀ b, holders b = 0 ↔ p.modules b = none
  table : V.sound p.invertedTable
  foreign : ∀ b, (p.modules b).isSome = true → b ∉ V.systemBases

section Frame

variable {H : Helpers δ ι τ ρ} {V : Views δ ι τ ρ} {holders holders' : Nat → Nat}
variable {p q : Process δ ι τ ρ} {base : Nat} {m m' : MemoryModule}

theorem Registered.mappedDll (h : Registered H V holders p base m)
    (hcounted : m.useReferenceCount = true) : m.mappedDll = true := by
  by_contra hunmapped
  have hflags := h.unmapped (Bool.eq_false_iff.mpr hunmapped)
  rw [hflags.2.2] at hcounted
  cases hcounted

theorem Registered.congr (h : Registered H V holders p base m)
    (himage : H.rtlImageNtHeader q.regions base = H.rtlImageNtHeader p.regions base)
    (hentry : m.mappedDll = true → m.ldrEntry ∈ V.entries q.database ∧
      H.ldrEntryAt q.database m.ldrEntry = H.ldrEntryAt p.database m.ldrEntry ∧
      (H.rtlGetReferenceCount m.ldrEntry q.database).2 =
        (H.rtlGetReferenceCount m.ldrEntry p.database).2)
    (htable : base ∈ V.bases q.invertedTable ↔ base ∈ V.bases p.invertedTable)
    (htls : m.mappedDll = true →
      (m.ldrEntry ∈ V.tlsEntries q.tlsList ↔ m.ldrEntry ∈ V.tlsEntries p.tlsList))
    (hholders : holders' base = holders base) : Registered H V holders' q base m where
  loadFromLdrLoadDllMemory := h.loadFromLdrLoadDllMemory
  image := by
    rw [himage]
    exact h.image
  unmapped := h.unmapped
  entry := fun hmapped => (hentry hmapped).1
  size := by
    intro hmapped headers hheaders
    rw [himage] at hheaders
    rw [(hentry hmapped).2.1]
    exact h.size hmapped headers hheaders
  counted := by
    intro hcounted
    rw [(hentry (h.mappedDll hcounted)).2.2, hholders]
    exact h.counted hcounted
  uncounted := fun huncounted => hholders.trans (h.uncounted huncounted)
  inserted := htable.trans h.inserted
  handled := fun hmapped => (htls hmapped).trans (h.handled hmapped)

theorem Agrees.other_entry (h : Agrees H V holders p) (hm : p.modules base = some m)
    (hmapped : m.mappedDll = true) {b : Nat} (hb : b ≠ base) (hm' : p.modules b = some m')
    (hmapped' : m'.mappedDll = true) : m'.ldrEntry ≠ m.ldrEntry :=
  fun hsame => hb (h.distinct b m' base m hm' hm hmapped' hmapped hsame)

/-- A store to the flags of a module, with what it says in the table and in the TLS list. -/
theorem Agrees.setModule (h : Agrees H V holders p) (hm : p.modules base = some m)
    (hmodules : q.modules = Function.update p.modules base (some m'))
    (hregions : q.regions = p.regions) (hdatabase : q.database = p.database)
    (hmapped : m'.mappedDll = m.mappedDll) (hentry : m'.ldrEntry = m.ldrEntry)
    (hthis : Registered H V holders q base m') (hsound : V.sound q.invertedTable)
    (htable : ∀ b ≠ base, b ∈ V.bases q.invertedTable ↔ b ∈ V.bases p.invertedTable)
    (htls : ∀ e, ¬(m.mappedDll = true ∧ e = m.ldrEntry) →
      (e ∈ V.tlsEntries q.tlsList ↔ e ∈ V.tlsEntries p.tlsList)) : Agrees H V holders q := by
  have hother : ∀ b ≠ base, q.modules b = p.modules b := by
    intro b hb
    rw [hmodules, Function.update_of_ne hb]
  have hbase : q.modules base = some m' := by rw [hmodules, Function.update_self]
  -- a module of the one process, seen in the other one
  have hsame : ∀ b n, q.modules b = some n → ∃ n', p.modules b = some n' ∧
      n'.mappedDll = n.mappedDll ∧ n'.ldrEntry = n.ldrEntry := by
    intro b n hn
    by_cases hb : b = base
    · subst hb
      rw [hbase] at hn
      cases hn
      exact ⟨m, hm, hmapped.symm, hentry.symm⟩
    · exact ⟨n, (hother b hb).symm.trans hn, rfl, rfl⟩
  constructor
  · intro b n hn
    by_cases hb : b = base
    · subst hb
      rw [hbase] at hn
      cases hn
      exact hthis
    · rw [hother b hb] at hn
      apply (h.module b n hn).congr (by rw [hregions]) ?_ (htable b hb) ?_ rfl
      · rw [hdatabase]
        exact fun hmapped' => ⟨(h.module b n hn).entry hmapped', rfl, rfl⟩
      · intro hmapped'
        apply htls
        rintro ⟨hmapped, hsame⟩
        exact h.other_entry hm hmapped hb hn hmapped' hsame
  · intro b
    rw [hregions, h.images b]
    by_cases hb : b = base
    · rw [hb, hbase, hm]
      rfl
    · rw [hother b hb]
  · intro b n b' n' hn hn' hnmapped hnmapped' heq
    obtain ⟨k, hk, hkmapped, hkentry⟩ := hsame b n hn
    obtain ⟨k', hk', hkmapped', hkentry'⟩ := hsame b' n' hn'
    exact h.distinct b k b' k' hk hk' (hkmapped.trans hnmapped) (hkmapped'.trans hnmapped')
      (hkentry.trans (heq.trans hkentry'.symm))
  · intro e he
    rw [hdatabase] at he
    obtain ⟨b, n, hn, hnmapped, hnentry⟩ := h.entries e he
    by_cases hb : b = base
    · subst hb
      rw [hm] at hn
      cases hn
      exact ⟨b, m', hbase, hmapped.trans hnmapped, hentry.trans hnentry⟩
    · exact ⟨b, n, (hother b hb).trans hn, hnmapped, hnentry⟩
  · intro b hb
    by_cases hb' : b = base
    · rw [hb', hbase]
      rfl
    · rw [hother b hb']
      exact h.bases b ((htable b hb').mp hb)
  · intro e he
    rw [hdatabase]
    by_cases hown : m.mappedDll = true ∧ e = m.ldrEntry
    · rw [hown.2]
      exact (h.module base m hm).entry hown.1
    · exact h.tlsEntries e ((htls e hown).mp he)
  · intro b
    by_cases hb : b = base
    · rw [hb, hbase, h.released base, hm]
      simp
    · rw [hother b hb]
      exact h.released b
  · exact hsound
  · intro b hb
    by_cases hb' : b = base
    · rw [hb']
      exact h.foreign base (by rw [hm]; rfl)
    · rw [hother b hb'] at hb
      exact h.foreign b hb

theorem Agrees.mapDll {entry : Nat} (h : Agrees H V holders p) (hm : p.modules base = some m)
    (hunmapped : m.mappedDll = false)
    (hmodules : q.modules =
      Function.update p.modules base (some { m with mappedDll := true, ldrEntry := entry }))
    (hregions : q.regions = p.regions) (htable : q.invertedTable = p.invertedTable)
    (htls : q.tlsList = p.tlsList) (hfresh : entry ∉ V.entries p.database)
    (hentries : V.entries q.database = insert entry (V.entries p.database))
    (hsame : H.SameEntries (V.entries p.database) p.database q.database)
    (hsize : ∀ headers, H.rtlImageNtHeader p.regions base = some headers →
      (H.ldrEntryAt q.database entry).sizeOfImage = headers.sizeOfImage) :
    Agrees H V holders q := by
  have hregistered := h.module base m hm
  have hflags := hregistered.unmapped hunmapped
  let m' : MemoryModule := { m with mappedDll := true, ldrEntry := entry }
  have hbase : q.modules base = some m' := by rw [hmodules, Function.update_self]
  have hother : ∀ b ≠ base, q.modules b = p.modules b := by
    intro b hb
    rw [hmodules, Function.update_of_ne hb]
  have hentry : ∀ {b n}, p.modules b = some n → n.mappedDll = true → n.ldrEntry ≠ entry := by
    rintro b n hn hnmapped rfl
    exact hfresh ((h.module b n hn).entry hnmapped)
  constructor
  · intro b n hn
    by_cases hb : b = base
    · subst hb
      rw [hbase] at hn
      cases hn
      exact {
        loadFromLdrLoadDllMemory := hregistered.loadFromLdrLoadDllMemory
        image := by
          rw [hregions]
          exact hregistered.image
        unmapped := fun hnever => by cases hnever
        entry := fun _ => by
          rw [hentries]
          exact Set.mem_insert _ _
        size := fun _ => by
          rw [hregions]
          exact hsize
        counted := fun hcounted => by
          have hcounted : m.useReferenceCount = true := hcounted
          rw [hflags.2.2] at hcounted
          cases hcounted
        uncounted := hregistered.uncounted
        inserted := by
          rw [htable]
          exact hregistered.inserted
        handled := fun _ => by
          rw [htls]
          refine iff_of_false (fun hmem => hfresh (h.tlsEntries entry hmem)) ?_
          rw [show m'.tlsHandled = m.tlsHandled from rfl, hflags.2.1]
          decide }
    · rw [hother b hb] at hn
      have hregistered' := h.module b n hn
      refine hregistered'.congr (by rw [hregions]) (fun hnmapped => ?_) (by rw [htable])
        (fun _ => by rw [htls]) rfl
      have hmem := hregistered'.entry hnmapped
      refine ⟨?_, hsame n.ldrEntry hmem⟩
      rw [hentries]
      exact Set.mem_insert_of_mem entry hmem
  · intro b
    rw [hregions, h.images b]
    by_cases hb : b = base
    · rw [hb, hbase, hm]
      rfl
    · rw [hother b hb]
  · intro b n b' n' hn hn' hnmapped hnmapped' heq
    by_cases hb : b = base
    · by_cases hb' : b' = base
      · rw [hb, hb']
      · rw [hother b' hb'] at hn'
        rw [hb, hbase] at hn
        cases hn
        exact absurd heq.symm (hentry hn' hnmapped')
    · rw [hother b hb] at hn
      by_cases hb' : b' = base
      · rw [hb', hbase] at hn'
        cases hn'
        exact absurd heq (hentry hn hnmapped)
      · rw [hother b' hb'] at hn'
        exact h.distinct b n b' n' hn hn' hnmapped hnmapped' heq
  · intro e he
    rw [hentries] at he
    rcases he with rfl | he
    · exact ⟨base, m', hbase, rfl, rfl⟩
    · obtain ⟨b, n, hn, hnmapped, hnentry⟩ := h.entries e he
      have hb : b ≠ base := by
        rintro rfl
        rw [hm] at hn
        cases hn
        rw [hunmapped] at hnmapped
        cases hnmapped
      exact ⟨b, n, (hother b hb).trans hn, hnmapped, hnentry⟩
  · intro b hb
    rw [htable] at hb
    by_cases hb' : b = base
    · rw [hb', hbase]
      rfl
    · rw [hother b hb']
      exact h.bases b hb
  · intro e he
    rw [htls] at he
    rw [hentries]
    exact Set.mem_insert_of_mem entry (h.tlsEntries e he)
  · intro b
    by_cases hb : b = base
    · rw [hb, hbase, h.released base, hm]
      simp
    · rw [hother b hb]
      exact h.released b
  · rw [htable]
    exact h.table
  · intro b hb
    by_cases hb' : b = base
    · rw [hb']
      exact h.foreign base (by rw [hm]; rfl)
    · rw [hother b hb'] at hb
      exact h.foreign b hb

theorem Agrees.erase (h : Agrees H V holders p) (hm : p.modules base = some m)
    (hmodules : q.modules = Function.update p.modules base none)
    (himages : V.images q.regions = V.images p.regions \ {base})
    (hheaders : H.SameImages (V.images q.regions) p.regions q.regions)
    (hentries : ∀ e, e ∈ V.entries q.database ↔
      e ∈ V.entries p.database ∧ ¬(m.mappedDll = true ∧ e = m.ldrEntry))
    (hsame : H.SameEntries (V.entries q.database) p.database q.database)
    (hsound : V.sound q.invertedTable)
    (htable : ∀ b, b ∈ V.bases q.invertedTable ↔ b ∈ V.bases p.invertedTable ∧ b ≠ base)
    (htls : ∀ e, e ∈ V.tlsEntries q.tlsList ↔
      e ∈ V.tlsEntries p.tlsList ∧ ¬(m.mappedDll = true ∧ e = m.ldrEntry)) :
    Agrees H V (Function.update holders base 0) q := by
  have hother : ∀ b ≠ base, q.modules b = p.modules b := by
    intro b hb
    rw [hmodules, Function.update_of_ne hb]
  have hbase : q.modules base = none := by rw [hmodules, Function.update_self]
  have hleft : ∀ b n, q.modules b = some n → b ≠ base ∧ p.modules b = some n := by
    intro b n hn
    have hb : b ≠ base := by
      rintro rfl
      rw [hbase] at hn
      cases hn
    exact ⟨hb, (hother b hb).symm.trans hn⟩
  constructor
  · intro b n hn
    obtain ⟨hb, hn⟩ := hleft b n hn
    have hregistered := h.module b n hn
    have hinside : b ∈ V.images q.regions := by
      rw [himages]
      exact ⟨(h.images b).mpr (by rw [hn]; rfl), hb⟩
    have hown : n.mappedDll = true → ¬(m.mappedDll = true ∧ n.ldrEntry = m.ldrEntry) :=
      fun hnmapped ⟨hmapped, heq⟩ => h.other_entry hm hmapped hb hn hnmapped heq
    apply hregistered.congr (hheaders b hinside)
    · intro hnmapped
      have hmem := (hentries n.ldrEntry).mpr ⟨hregistered.entry hnmapped, hown hnmapped⟩
      exact ⟨hmem, hsame _ hmem⟩
    · exact (htable b).trans (and_iff_left hb)
    · exact fun hnmapped => (htls _).trans (and_iff_left (hown hnmapped))
    · exact Function.update_of_ne hb _ _
  · intro b
    rw [himages, Set.mem_sdiff, Set.mem_singleton_iff, h.images b]
    by_cases hb : b = base
    · rw [hb, hbase]
      simp
    · rw [hother b hb]
      exact and_iff_left hb
  · intro b n b' n' hn hn'
    exact h.distinct b n b' n' (hleft b n hn).2 (hleft b' n' hn').2
  · intro e he
    obtain ⟨he, hown⟩ := (hentries e).mp he
    obtain ⟨b, n, hn, hnmapped, hnentry⟩ := h.entries e he
    have hb : b ≠ base := by
      rintro rfl
      rw [hm] at hn
      cases hn
      exact hown ⟨hnmapped, hnentry.symm⟩
    exact ⟨b, n, (hother b hb).trans hn, hnmapped, hnentry⟩
  · intro b hb
    obtain ⟨hb, hne⟩ := (htable b).mp hb
    rw [hother b hne]
    exact h.bases b hb
  · intro e he
    obtain ⟨he, hown⟩ := (htls e).mp he
    exact (hentries e).mpr ⟨h.tlsEntries e he, hown⟩
  · intro b
    by_cases hb : b = base
    · rw [hb, hbase, Function.update_self]
      exact iff_of_true rfl rfl
    · rw [hother b hb, Function.update_of_ne hb]
      exact h.released b
  · exact hsound
  · intro b hb
    have hne : b ≠ base := by
      rintro rfl
      rw [hbase] at hb
      cases hb
    rw [hother b hne] at hb
    exact h.foreign b hb

end Frame

end WinPolyfillLoader.Loader
