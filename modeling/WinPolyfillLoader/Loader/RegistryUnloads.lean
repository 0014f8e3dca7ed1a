import WinPolyfillLoader.Loader.ReferenceCount
import WinPolyfillLoader.Loader.Registries

/-!
What a load that finds its module and an unload do to what is registered: they change the
count of one entry, or take all that the flags of the module say was registered.
-/

namespace WinPolyfillLoader.Loader

open LdrEntry EarlyExit

variable {δ ι τ ρ : Type}

/-- The holders of the modules after a load. -/
def holdersAfterLoad (holders : Nat → Nat) (result : LoadResult δ ι τ ρ) : Nat → Nat :=
  if ntSuccess result.status = true ∧
      (result.process.modules result.baseAddress).isSome = true then
    Function.update holders result.baseAddress (holders result.baseAddress + 1)
  else holders

def holdersAfterUnload (holders : Nat → Nat) (base : Nat) : Nat → Nat :=
  Function.update holders base (holders base - 1)

section Unload

variable {H : Helpers δ ι τ ρ} {V : Views δ ι τ ρ} (laws : H.Registers V)
variable {holders : Nat → Nat} {p q : Process δ ι τ ρ} {base : Nat} {m : MemoryModule}

include laws

theorem Agrees.recount (h : Agrees H V holders p) (hm : p.modules base = some m)
    (hcounted : m.useReferenceCount = true) (flag : Bool)
    (hheld : flag = false → 1 < holders base) :
    Agrees H V (Function.update holders base (if flag then holders base + 1 else holders base - 1))
      { p with database := (H.rtlUpdateReferenceCount m.ldrEntry flag p.database).2 } := by
  have hregistered := h.module base m hm
  have hmapped := hregistered.mappedDll hcounted
  obtain ⟨hentries, hview, hcount, hothers⟩ :=
    laws.updateCount (hregistered.entry hmapped) flag
  constructor
  · intro b n hn
    have hn : p.modules b = some n := hn
    by_cases hb : b = base
    · subst hb
      rw [hm] at hn
      cases hn
      exact { hregistered with
        entry := fun _ => by
          rw [hentries]
          exact hregistered.entry hmapped
        size := fun _ headers hheaders => by
          rw [hview]
          exact hregistered.size hmapped headers hheaders
        counted := fun _ => by
          rw [Function.update_self, hcount, hregistered.counted hcounted]
        uncounted := fun huncounted => absurd (hcounted.symm.trans huncounted) Bool.noConfusion }
    · refine (h.module b n hn).congr rfl ?_ Iff.rfl (fun _ => Iff.rfl)
        (Function.update_of_ne hb _ _)
      intro hnmapped
      have hmem := (h.module b n hn).entry hnmapped
      have hne := h.other_entry hm hmapped hb hn hnmapped
      refine ⟨?_, hothers n.ldrEntry ⟨hmem, hne⟩⟩
      rw [hentries]
      exact hmem
  · exact h.images
  · exact h.distinct
  · intro e he
    rw [hentries] at he
    exact h.entries e he
  · exact h.bases
  · intro e he
    rw [hentries]
    exact h.tlsEntries e he
  · intro b
    by_cases hb : b = base
    · subst hb
      change _ ↔ p.modules b = none
      rw [Function.update_self, hm]
      refine iff_of_false ?_ (by simp)
      cases flag with
      | true => exact Nat.succ_ne_zero _
      | false => exact Nat.sub_ne_zero_of_lt (hheld rfl)
    · rw [Function.update_of_ne hb]
      exact h.released b
  · exact h.table
  · exact h.foreign

theorem removeInverted_registered (h : Registered H V holders p base m)
    (hsound : V.sound p.invertedTable) (hq : q.invertedTable = p.invertedTable) :
    ∃ table events, removeInverted H base m q =
        .ok { q with invertedTable := table, events := events } ∧ V.sound table ∧
      ∀ b, b ∈ V.bases table ↔ b ∈ V.bases p.invertedTable ∧ b ≠ base := by
  rw [removeInverted]
  cases hflag : m.insertInvertedFunctionTableEntry with
  | true =>
    obtain ⟨hok, hsound, hbases⟩ := laws.removeInverted hsound (h.inserted.mpr hflag)
    rw [← hq] at hok hsound hbases
    simp only [hok, if_true]
    refine ⟨_, _, rfl, hsound, fun b => ?_⟩
    rw [hbases, hq, Set.mem_sdiff, Set.mem_singleton_iff]
  | false =>
    rw [← hq] at hsound
    refine ⟨q.invertedTable, q.events, rfl, hsound, fun b => ?_⟩
    rw [hq]
    refine (and_iff_left_of_imp ?_).symm
    rintro hb rfl
    rw [h.inserted.mp hb] at hflag
    cases hflag

theorem releaseTls_registered (h : Registered H V holders p base m) (hmapped : m.mappedDll = true)
    (hq : q.tlsList = p.tlsList) :
    ∃ list events, releaseTls H base m q = .ok { q with tlsList := list, events := events } ∧
      ∀ e, e ∈ V.tlsEntries list ↔
        e ∈ V.tlsEntries p.tlsList ∧ ¬(m.mappedDll = true ∧ e = m.ldrEntry) := by
  rw [releaseTls]
  cases hflag : m.tlsHandled with
  | true =>
    obtain ⟨hok, hentries⟩ := laws.releaseTls ((h.handled hmapped).mpr hflag)
    rw [← hq] at hok hentries
    simp only [hok, if_true]
    refine ⟨_, _, rfl, fun e => ?_⟩
    rw [hentries, hq, Set.mem_sdiff, Set.mem_singleton_iff, and_iff_right hmapped]
  | false =>
    refine ⟨q.tlsList, q.events, rfl, fun e => ?_⟩
    rw [hq]
    refine (and_iff_left_of_imp ?_).symm
    rintro he ⟨-, rfl⟩
    rw [(h.handled hmapped).mp he] at hflag
    cases hflag

theorem freeLibrary_registered (hq : base ∈ V.images q.regions) :
    ∃ regions events, freeLibrary H base q =
        (true, { q with
          regions := regions
          modules := Function.update q.modules base none
          events := events }) ∧
      V.images regions = V.images q.regions \ {base} ∧
      H.SameImages (V.images regions) q.regions regions := by
  obtain ⟨regions, hfree, himages, hsame⟩ := laws.freeLibrary hq
  refine ⟨regions, q.events ++ [.undid .loadLibrary base], ?_, himages, hsame⟩
  rw [freeLibrary, hfree]
  rfl

theorem freeLibrary_agrees (h : Agrees H V holders p) (hm : p.modules base = some m)
    (hunmapped : m.mappedDll = false) (m' : MemoryModule) :
    ∃ q, freeLibrary H base (p.setModule base (some m')) = (true, q) ∧
      q.modules = Function.update p.modules base none ∧
      Agrees H V (Function.update holders base 0) q := by
  have himage : base ∈ V.images (p.setModule base (some m')).regions :=
    (h.images base).mpr (by rw [hm]; rfl)
  obtain ⟨regions, events, hlibrary, himages, hheaders⟩ := freeLibrary_registered laws himage
  have hmodules : Function.update (p.setModule base (some m')).modules base none =
      Function.update p.modules base none := Function.update_idem _ _ _
  have hflags := (h.module base m hm).unmapped hunmapped
  have hown : ∀ e, ¬(m.mappedDll = true ∧ e = m.ldrEntry) := by
    rw [hunmapped]
    rintro e ⟨⟨⟩, -⟩
  refine ⟨_, hlibrary, hmodules, h.erase hm hmodules himages hheaders ?_ ?_ h.table ?_ ?_⟩
  · exact fun e => (and_iff_left (hown e)).symm
  · exact fun _ _ => ⟨rfl, rfl⟩
  · intro b
    refine (and_iff_left_of_imp ?_).symm
    rintro hb rfl
    rw [(h.module b m hm).inserted.mp hb] at hflags
    exact absurd hflags.1 (by decide)
  · exact fun e => (and_iff_left (hown e)).symm

/-- The last unload of a mapped module does not fail fast, and takes what was registered. -/
theorem tearDown_agrees (h : Agrees H V holders p) (hm : p.modules base = some m)
    (hmapped : m.mappedDll = true) :
    ∃ q, tearDown H base m p = .ok (statusSuccess, q) ∧
      q.modules = Function.update p.modules base none ∧
      Agrees H V (Function.update holders base 0) q := by
  have hregistered := h.module base m hm
  have himage : base ∈ V.images p.regions := (h.images base).mpr (by rw [hm]; rfl)
  let p₀ := callDetach base m (p.setModule base (some { m with underUnload := true }))
  have hparts : p₀.invertedTable = p.invertedTable ∧ p₀.tlsList = p.tlsList ∧
      p₀.database = p.database ∧ p₀.regions = p.regions ∧
      p₀.modules = Function.update p.modules base (some { m with underUnload := true }) := by
    simp only [p₀, callDetach_eq, Process.setModule]
    exact ⟨trivial, trivial, trivial, trivial, trivial⟩
  obtain ⟨table, events₁, hremove, hsound, hbases⟩ :=
    removeInverted_registered laws hregistered h.table hparts.1
  obtain ⟨list, events₂, hrelease, htls⟩ := releaseTls_registered laws
    (q := { p₀ with invertedTable := table, events := events₁ }) hregistered hmapped hparts.2.1
  obtain ⟨database, hfree, hentries, hsame⟩ := laws.freeEntry (hregistered.entry hmapped)
  let p₃ : Process δ ι τ ρ := { p₀ with
    invertedTable := table
    tlsList := list
    database := database
    events := events₂ ++ [.undid .mapDll base] }
  have hentry : freeEntry H base m
      { p₀ with invertedTable := table, tlsList := list, events := events₂ } = .ok p₃ := by
    rw [freeEntry]
    simp only [hparts.2.2.1, hfree]
    rfl
  have himage₃ : base ∈ V.images p₃.regions := by
    change base ∈ V.images p₀.regions
    rw [hparts.2.2.2.1]
    exact himage
  obtain ⟨regions, events₄, hlibrary, himages, hheaders⟩ :=
    freeLibrary_registered laws himage₃
  have hregions : p₃.regions = p.regions := hparts.2.2.2.1
  have hmodules : Function.update p₃.modules base none = Function.update p.modules base none := by
    change Function.update p₀.modules base none = _
    rw [hparts.2.2.2.2, Function.update_idem]
  refine ⟨{ p₃ with
    regions := regions
    modules := Function.update p₃.modules base none
    events := events₄ }, ?_, hmodules, ?_⟩
  · rw [tearDown]
    have hstart : callDetach base m (p.setModule base (some { m with underUnload := true })) =
        p₀ := rfl
    simp only [hstart, hremove, hrelease, hentry, hlibrary]
  · apply h.erase hm hmodules
    · rw [himages, hregions]
    · rw [← hregions]
      exact hheaders
    · intro e
      change e ∈ V.entries database ↔ _
      rw [hentries, Set.mem_sdiff, Set.mem_singleton_iff, and_iff_right hmapped]
    · exact hsame
    · exact hsound
    · exact hbases
    · exact htls

/-- An unload never fails fast. It takes a reference from a module with several holders, and
takes down one with none left. -/
theorem ldrUnloadDllMemory_agrees (h : Agrees H V holders p) (base : Nat) :
    ∃ status q, ldrUnloadDllMemory H base p = .ok (status, q) ∧
      Agrees H V (holdersAfterUnload holders base) q ∧
      q.modules = if holders base ≤ 1 then Function.update p.modules base none else p.modules := by
  have hgone : holders base ≤ 1 →
      holdersAfterUnload holders base = Function.update holders base 0 := by
    intro hfew
    rw [holdersAfterUnload, Nat.sub_eq_zero_of_le hfew]
  cases hm : p.modules base with
  | none =>
    have hfree := (h.released base).mpr hm
    have hfew : holders base ≤ 1 := by omega
    refine ⟨_, p, ldrUnloadDllMemory_gone hm, ?_, ?_⟩
    · rw [hgone hfew, ← hfree, Function.update_eq_self]
      exact h
    · rw [if_pos hfew, ← hm, Function.update_eq_self]
  | some m =>
    have hregistered := h.module base m hm
    -- only a module that is counted, and so mapped, has several holders
    have hfew : m.useReferenceCount = false → holders base ≤ 1 :=
      fun huncounted => (hregistered.uncounted huncounted).le
    cases hmapped : m.mappedDll with
    | false =>
      have hfew := hfew (hregistered.unmapped hmapped).2.2
      obtain ⟨q, hlibrary, hmodules, hagrees⟩ :=
        freeLibrary_agrees laws h hm hmapped { m with underUnload := true }
      have hours : ¬(!m.loadFromLdrLoadDllMemory) = true := by
        rw [hregistered.loadFromLdrLoadDllMemory]
        decide
      have hnotMapped : (!m.mappedDll) = true := by
        rw [hmapped]
        rfl
      refine ⟨statusSuccess, q, ?_, ?_, ?_⟩
      · rw [ldrUnloadDllMemory, hm]
        dsimp only
        rw [if_neg hours, if_pos hnotMapped, hlibrary]
      · rw [hgone hfew]
        exact hagrees
      · rw [if_pos hfew, hmodules]
    | true =>
      obtain ⟨headers, himageHeaders⟩ := Option.isSome_iff_exists.mp hregistered.image
      have hsize := hregistered.size hmapped headers himageHeaders
      have hstatus : ntSuccess (referenceCount H m p.database).1 = true := by
        rw [referenceCount]
        split
        · exact laws.getCount _ _
        · rfl
      have hguards : ldrUnloadDllMemory H base p =
          if dropLowBit (referenceCount H m p.database).2 ≠ 0 then
            .ok ((H.rtlUpdateReferenceCount m.ldrEntry false p.database).1,
              { p with database := (H.rtlUpdateReferenceCount m.ldrEntry false p.database).2 })
          else tearDown H base m p := by
        rw [ldrUnloadDllMemory]
        simp [hm, hregistered.loadFromLdrLoadDllMemory, hmapped, himageHeaders, hsize, hstatus]
      rw [hguards]
      by_cases hmany : 1 < holders base
      · have hcounted : m.useReferenceCount = true := by
          by_contra huncounted
          exact absurd hmany (Nat.not_lt.mpr (hfew (Bool.eq_false_iff.mpr huncounted)))
        have hhigh : dropLowBit (referenceCount H m p.database).2 ≠ 0 := by
          simp only [referenceCount, hcounted, if_true, hregistered.counted hcounted, dropLowBit]
          omega
        rw [if_pos hhigh, if_neg (Nat.not_le.mpr hmany)]
        exact ⟨_, _, rfl, h.recount laws hm hcounted false fun _ => hmany, rfl⟩
      · have hfew := Nat.not_lt.mp hmany
        have hlow : ¬dropLowBit (referenceCount H m p.database).2 ≠ 0 := by
          rw [referenceCount]
          split
          · rename_i hcounted
            simp only [hregistered.counted hcounted, dropLowBit]
            omega
          · decide
        rw [if_neg hlow, if_pos hfew]
        obtain ⟨q, hdown, hmodules, hagrees⟩ := tearDown_agrees laws h hm hmapped
        refine ⟨statusSuccess, q, hdown, ?_, hmodules⟩
        rw [hgone hfew]
        exact hagrees

end Unload

end WinPolyfillLoader.Loader
