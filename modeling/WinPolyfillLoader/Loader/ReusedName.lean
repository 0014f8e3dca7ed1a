import WinPolyfillLoader.Loader.LoadExits
import WinPolyfillLoader.Loader.StackProcess

/-!
The loads that end with a module of the list. The scan compares a name with the characters
in front of the last four of another, and never looks at these four.
-/

namespace WinPolyfillLoader.Loader

open LdrEntry

variable {δ ι τ ρ : Type}

/-- `L".dll"`. -/
def dotDll : List Wchar := [0x2e, 0x64, 0x6c, 0x6c]

/-- A base name is the wanted one or that with ".dll", without regard to case. -/
def OwnName (H : Helpers δ ι τ ρ) (dllName baseDllName : List Wchar) : Prop :=
  baseDllName.map H.towlower = dllName.map H.towlower ∨
    baseDllName.map H.towlower = (dllName ++ dotDll).map H.towlower

/-- Behind the characters that the scan compares there is nothing or ".dll", and the length
of the wanted name is an `int`. -/
def EndsLikeDll (H : Helpers δ ι τ ρ) (dllName baseDllName : List Wchar) : Prop :=
  dllName.length < 2 ^ 31 ∧ (baseDllName.length = dllName.length ∨
    (baseDllName.drop dllName.length).map H.towlower = dotDll.map H.towlower)

/-- The entry is the first one that passes all tests of the scan, and its references are
counted. -/
structure FirstLoaded (H : Helpers δ ι τ ρ) (request : LoadRequest) (p : Process δ ι τ ρ)
    (dllName : List Wchar) (entry : Nat) : Prop where
  checked : Checked H request
  name : request.dllName = some dllName
  counts : hasFlag request.dwFlags loadFlagsNotUseReferenceCount = false
  found : ∃ h1 before after module,
    H.rtlImageNtHeader p.regions request.bufferAddress = some h1 ∧
    H.inLoadOrderModuleList p.database = before ++ entry :: after ∧
    (∀ e ∈ before, isLoadedEntry H dllName h1 p e = none) ∧
    isLoadedEntry H dllName h1 p entry = some module ∧ module.useReferenceCount = true

section Names

variable {H : Helpers δ ι τ ρ} {dllName baseDllName : List Wchar}

/-- Inside two strings the comparison looks at `count` characters of each. -/
theorem wcsnicmpEqual_iff (hlower : ∀ c, H.towlower c = 0 ↔ c = 0) {count : Nat}
    {first last : List Wchar} (hfirst : count ≤ first.length) (hlast : count ≤ last.length)
    (hnul : 0 ∉ first) :
    wcsnicmpEqual H count first last = true ↔
      (last.take count).map H.towlower = (first.take count).map H.towlower := by
  induction count generalizing first last with
  | zero => simp [wcsnicmpEqual]
  | succ count ih =>
    cases first with
    | nil => simp at hfirst
    | cons f first =>
      cases last with
      | nil => simp at hlast
      | cons l last =>
        have hrest := ih (Nat.le_of_succ_le_succ hfirst) (Nat.le_of_succ_le_succ hlast)
          fun h => hnul (List.mem_cons_of_mem f h)
        have hhead : H.towlower f ≠ 0 :=
          fun h => hnul ((hlower f).mp h ▸ List.mem_cons_self)
        simp only [wcsnicmpEqual, List.headD_cons, List.tail_cons, Bool.and_eq_true, beq_iff_eq,
          Bool.or_eq_true, hhead, false_or, hrest, List.take_succ_cons, List.map_cons,
          List.cons.injEq]
        rw [eq_comm (a := H.towlower f)]

theorem nameMatches_iff (hlower : ∀ c, H.towlower c = 0 ↔ c = 0) (hnul : 0 ∉ dllName)
    (hint : dllName.length < 2 ^ 31) (hbase : baseDllName.length < 2 ^ 15) :
    nameMatches H dllName baseDllName = true ↔
      (baseDllName.length = dllName.length ∨ baseDllName.length = dllName.length + 4) ∧
        (baseDllName.take dllName.length).map H.towlower = dllName.map H.towlower := by
  have hlength : (BitVec.ofNat 32 dllName.length).signExtend 64 = BitVec.ofNat 64 dllName.length := by
    have hmsb : (BitVec.ofNat 32 dllName.length).msb = false := by
      rw [BitVec.msb_eq_decide, BitVec.toNat_ofNat, Nat.mod_eq_of_lt (by omega)]
      simpa using hint
    rw [BitVec.signExtend_eq_setWidth_of_msb_false hmsb]
    apply BitVec.eq_of_toNat_eq
    rw [BitVec.toNat_setWidth, BitVec.toNat_ofNat, BitVec.toNat_ofNat]
    omega
  have hdist (k : Nat) (hk : k ≤ 4) :
      BitVec.ofNat 64 baseDllName.length - BitVec.ofNat 64 dllName.length = BitVec.ofNat 64 k ↔
        baseDllName.length = dllName.length + k := by
    rw [← BitVec.toNat_inj, BitVec.toNat_sub, BitVec.toNat_ofNat, BitVec.toNat_ofNat,
      BitVec.toNat_ofNat]
    omega
  have hcount : (BitVec.ofNat 64 dllName.length).toNat = dllName.length := by
    rw [BitVec.toNat_ofNat, Nat.mod_eq_of_lt (by omega)]
  have hsame : BitVec.ofNat 64 baseDllName.length - BitVec.ofNat 64 dllName.length = 0 ↔
      baseDllName.length = dllName.length := hdist 0 (by decide)
  have hfour : BitVec.ofNat 64 baseDllName.length - BitVec.ofNat 64 dllName.length = 4 ↔
      baseDllName.length = dllName.length + 4 := hdist 4 (by decide)
  rw [nameMatches, hlength]
  simp only [hcount, Bool.and_eq_true, Bool.or_eq_true, beq_iff_eq]
  rw [hsame, hfour]
  refine and_congr_right fun hlengths => ?_
  have hlong : dllName.length ≤ baseDllName.length := by omega
  rw [wcsnicmpEqual_iff hlower (Nat.le_refl _) hlong hnul, List.take_length]

/-- Of the names that pass the test, those are right that end like a library. -/
theorem ownName_iff (hlower : ∀ c, H.towlower c = 0 ↔ c = 0) (hnul : 0 ∉ dllName)
    (hbase : baseDllName.length < 2 ^ 15) (h : nameMatches H dllName baseDllName = true) :
    OwnName H dllName baseDllName ↔ EndsLikeDll H dllName baseDllName := by
  constructor
  · rintro (hequal | hequal)
    · have hlength := congrArg List.length hequal
      rw [List.length_map, List.length_map] at hlength
      exact ⟨by omega, Or.inl hlength⟩
    · have hlength := congrArg List.length hequal
      rw [List.length_map, List.length_map, List.length_append] at hlength
      refine ⟨by omega, Or.inr ?_⟩
      rw [List.map_drop, hequal, List.map_append, List.drop_left' (List.length_map _)]
  · rintro ⟨hint, hend⟩
    obtain ⟨-, hfront⟩ := (nameMatches_iff hlower hnul hint hbase).mp h
    rcases hend with hlength | hdll
    · left
      rw [← hfront, List.take_of_length_le (Nat.le_of_eq hlength)]
    · right
      calc baseDllName.map H.towlower
          = (baseDllName.take dllName.length ++ baseDllName.drop dllName.length).map H.towlower := by
            rw [List.take_append_drop]
        _ = (dllName ++ dotDll).map H.towlower := by
            rw [List.map_append, hfront, hdll, List.map_append]

end Names

section Scan

variable {H : Helpers δ ι τ ρ} {request : LoadRequest} {p : Process δ ι τ ρ}
  {dllName : List Wchar} {h1 : ImageHeaders} {entry : Nat} {module : MemoryModule}

theorem isLoadedEntry_name (h : isLoadedEntry H dllName h1 p entry = some module) :
    nameMatches H dllName (H.ldrEntryAt p.database entry).baseDllName = true := by
  simp only [isLoadedEntry] at h
  split at h
  next htests => exact (Bool.and_eq_true_iff.mp htests).2
  next => cases h

theorem scanLoaded_eq_some_iff {entries : List Nat} :
    scanLoaded H dllName h1 p entries = some (entry, module) ↔
      ∃ before after, entries = before ++ entry :: after ∧
        (∀ e ∈ before, isLoadedEntry H dllName h1 p e = none) ∧
        isLoadedEntry H dllName h1 p entry = some module := by
  induction entries with
  | nil => simp [scanLoaded]
  | cons first rest ih =>
    rw [scanLoaded]
    cases hfirst : isLoadedEntry H dllName h1 p first with
    | none =>
      dsimp only
      rw [ih]
      constructor
      · rintro ⟨before, after, rfl, hbefore, hentry⟩
        exact ⟨first :: before, after, rfl, List.forall_mem_cons.mpr ⟨hfirst, hbefore⟩, hentry⟩
      · rintro ⟨before, after, hsplit, hbefore, hentry⟩
        cases before with
        | nil =>
          cases hsplit
          rw [hfirst] at hentry
          cases hentry
        | cons _ before =>
          cases hsplit
          exact ⟨before, after, rfl, (List.forall_mem_cons.mp hbefore).2, hentry⟩
    | some found =>
      dsimp only
      constructor
      · intro h
        cases h
        exact ⟨[], rest, rfl, List.forall_mem_nil _, hfirst⟩
      · rintro ⟨before, after, hsplit, hbefore, hentry⟩
        cases before with
        | nil =>
          cases hsplit
          rw [hfirst] at hentry
          cases hentry
          rfl
        | cons _ before =>
          cases hsplit
          have hnone := hbefore first List.mem_cons_self
          rw [hfirst] at hnone
          cases hnone

theorem runMappedPath_maps {headers : ImageHeaders} {base : Nat} {status code : NtStatus}
    {q : Process δ ι τ ρ} (h : runMappedPath H request headers base status p = (code, q))
    (hok : ntSuccess code = true) :
    ntSuccess (H.ldrMapDllMemory base headers (effectiveFlags request headers) request.dllName
      request.dllFullName p.database).1 = true := by
  have hpath : ntSuccess (runMappedPath H request headers base status p).1 = true := by
    rw [h]
    exact hok
  have hfirst : ntSuccess (mapDllStep H request (effectiveFlags request headers) headers base status
      p).1 = true := EarlyExit.ok_of_andThen hpath
  rw [mapDllStep] at hfirst
  split at hfirst
  next hmap =>
    rw [hmap]
    split at hfirst <;> assumption

/-- A load that succeeds with an entry of the list has found it by the scan. -/
theorem ldrLoadDllMemoryExW_reuses_iff (laws : H.MapLaws)
    (hnull : 0 ∉ H.inLoadOrderModuleList p.database) :
    (∃ result, ldrLoadDllMemoryExW H request p = .ok result ∧ ntSuccess result.status = true ∧
      result.ldrEntry ∈ H.inLoadOrderModuleList p.database ∧ result.ldrEntry = entry) ↔
    ∃ dllName, FirstLoaded H request p dllName entry := by
  constructor
  · rintro ⟨result, hload, hok, hlisted, rfl⟩
    have hnot : result.ldrEntry ≠ 0 := fun h => hnull (h ▸ hlisted)
    cases ldrLoadDllMemoryExW_exits hload with
    | bufferSize hsize hresult =>
      rw [hresult] at hok
      cases hok
    | buffer hinvalid hresult =>
      rw [hresult, hinvalid] at hok
      cases hok
    | names hflag status hfails hresult =>
      rw [hresult, hfails] at hok
      cases hok
    | reused hchecked dllName h1 entry module hname himage hscan hresult =>
      obtain ⟨before, after, hsplit, hbefore, hentry⟩ := scanLoaded_eq_some_iff.mp hscan
      rw [reuseModule] at hresult
      split at hresult
      next =>
        rw [hresult] at hok
        cases hok
      next hcounts =>
        rw [Bool.or_eq_true, not_or, Bool.not_eq_true', Bool.not_eq_false, Bool.not_eq_true]
          at hcounts
        refine ⟨dllName, hchecked, hname, hcounts.2, h1, before, after, module, himage, ?_,
          hbefore, ?_, hcounts.1⟩
        · rw [hresult]
          exact hsplit
        · rw [hresult]
          exact hentry
    | image hsize hbuffer hnew himage =>
      cases loadImage_exits himage with
      | refused status base regions hlibrary hrefused hresult => exact absurd (by rw [hresult]) hnot
      | unmapped status base regions headers hloaded hflag code q hpath hresult =>
        exact absurd (by rw [hresult]) hnot
      | mapped status base regions headers hloaded hflag code q hpath hcode hresult =>
        have hmaps := runMappedPath_maps hpath hcode
        have hfresh := (laws.map_entry rfl hmaps).1
        rw [hresult] at hlisted
        exact absurd hlisted hfresh
      | rolledBack status base regions headers hloaded hflag code q hpath hfails unload q' hunload
          hresult => exact absurd (by rw [hresult]) hnot
  · rintro ⟨dllName, hchecked, hname, hcounts, h1, before, after, module, himage, hsplit, hbefore,
      hentry, hmodule⟩
    have hscan := scanLoaded_eq_some_iff.mpr ⟨before, after, hsplit, hbefore, hentry⟩
    have hload : ldrLoadDllMemoryExW H request p = .ok (reuseModule H request entry module p) := by
      rw [ldrLoadDllMemoryExW_checked hchecked]
      simp only [hname, himage, hscan]
    refine ⟨_, hload, ?_⟩
    have hmember : entry ∈ H.inLoadOrderModuleList p.database := by simp [hsplit]
    simp only [reuseModule, hmodule, hcounts, Bool.not_true, Bool.or_self, Bool.false_eq_true,
      if_false]
    exact ⟨rfl, hmember, trivial⟩

theorem firstLoaded_name {dllName : List Wchar} (h : FirstLoaded H request p dllName entry) :
    nameMatches H dllName (H.ldrEntryAt p.database entry).baseDllName = true := by
  obtain ⟨_, _, _, _, _, _, _, hentry, _⟩ := h.found
  exact isLoadedEntry_name hentry

/-- A module is reused for its own name alone if the first entry that passes the tests of
the scan ends like a library behind the wanted name. -/
theorem ldrLoadDllMemoryExW_ownName_iff (laws : H.MapLaws)
    (hlower : ∀ c, H.towlower c = 0 ↔ c = 0)
    (hname : ∀ dllName, request.dllName = some dllName → 0 ∉ dllName)
    (hnull : 0 ∉ H.inLoadOrderModuleList p.database)
    (hbase : ∀ e ∈ H.inLoadOrderModuleList p.database,
      (H.ldrEntryAt p.database e).baseDllName.length < 2 ^ 15) :
    (∀ result, ldrLoadDllMemoryExW H request p = .ok result → ntSuccess result.status = true →
      result.ldrEntry ∈ H.inLoadOrderModuleList p.database →
        ∃ dllName, request.dllName = some dllName ∧
          OwnName H dllName (H.ldrEntryAt p.database result.ldrEntry).baseDllName) ↔
    ∀ dllName entry, FirstLoaded H request p dllName entry →
      EndsLikeDll H dllName (H.ldrEntryAt p.database entry).baseDllName := by
  constructor
  · intro hown dllName entry hfirst
    obtain ⟨result, hload, hok, hlisted, rfl⟩ :=
      (ldrLoadDllMemoryExW_reuses_iff laws hnull).mpr ⟨dllName, hfirst⟩
    obtain ⟨wanted, hwanted, howned⟩ := hown result hload hok hlisted
    have hsame : wanted = dllName := by
      rw [hfirst.name] at hwanted
      exact (Option.some_inj.mp hwanted).symm
    rw [hsame] at howned
    exact (ownName_iff hlower (hname dllName hfirst.name) (hbase _ hlisted)
      (firstLoaded_name hfirst)).mp howned
  · intro hends result hload hok hlisted
    obtain ⟨dllName, hfirst⟩ :=
      (ldrLoadDllMemoryExW_reuses_iff laws hnull).mp ⟨result, hload, hok, hlisted, rfl⟩
    exact ⟨dllName, hfirst.name, (ownName_iff hlower (hname dllName hfirst.name) (hbase _ hlisted)
      (firstLoaded_name hfirst)).mpr (hends dllName _ hfirst)⟩

end Scan

section Programs

open StackProcess

/-- `L"foo"`. -/
def foo : List Wchar := [0x66, 0x6f, 0x6f]

/-- `L".exe"`. -/
def dotExe : List Wchar := [0x2e, 0x65, 0x78, 0x65]

/-- A load under a name, with counted references. -/
def namedRequest (dllName : List Wchar) : LoadRequest := ⟨0, 0x7000, 0, some dllName, none, 0, 0⟩

/-- The process after the load of a module from memory under a name. -/
def namedProcess (dllName : List Wchar) :
    Process (List StackEntry) (List Nat) (List Nat) (List Nat) :=
  match ldrLoadDllMemoryExW (stackHelpers stackImage statusSuccess) (namedRequest dllName)
    stackStart with
  | .ok result => result.process
  | .error _ => stackStart

theorem ldrLoadDllMemoryExW_ownName_iff_foo :
    (∀ result, ldrLoadDllMemoryExW (stackHelpers stackImage statusSuccess) (namedRequest foo)
        (namedProcess (foo ++ dotDll)) = .ok result → ntSuccess result.status = true →
      result.ldrEntry ∈ (namedProcess (foo ++ dotDll)).database.map (·.address) →
        ∃ dllName, (namedRequest foo).dllName = some dllName ∧
          OwnName (stackHelpers stackImage statusSuccess) dllName
            (viewAt result.ldrEntry (namedProcess (foo ++ dotDll)).database).baseDllName) ↔
    ∀ dllName entry, FirstLoaded (stackHelpers stackImage statusSuccess) (namedRequest foo)
      (namedProcess (foo ++ dotDll)) dllName entry →
        EndsLikeDll (stackHelpers stackImage statusSuccess) dllName
          (viewAt entry (namedProcess (foo ++ dotDll)).database).baseDllName :=
  ldrLoadDllMemoryExW_ownName_iff (stackHelpers_lawful stackImage statusSuccess).toMapLaws
    (fun _ => Iff.rfl) (by rintro _ ⟨⟩; decide) (by decide) (by decide)

/-- "foo.exe" is reused for "foo". -/
theorem ldrLoadDllMemoryExW_reuses_program :
    ∃ result, ldrLoadDllMemoryExW (stackHelpers stackImage statusSuccess) (namedRequest foo)
        (namedProcess (foo ++ dotExe)) = .ok result ∧ result.status = statusSuccess ∧
      result.ldrEntry ∈ (namedProcess (foo ++ dotExe)).database.map (·.address) ∧
      (viewAt result.ldrEntry (namedProcess (foo ++ dotExe)).database).baseDllName =
        foo ++ dotExe ∧
      ¬OwnName (stackHelpers stackImage statusSuccess) foo (foo ++ dotExe) := by
  refine ⟨⟨statusSuccess, 0x10000, 1, _⟩, rfl, rfl, by decide, by decide, ?_⟩
  unfold OwnName
  decide

end Programs

end WinPolyfillLoader.Loader
