import WinPolyfillLoader.MmpTls.Initialize
import WinPolyfillLoader.MmpTls.ThreadStart
import WinPolyfillLoader.Library.Runs

/-!
The bitmap of TLS indices and the list of modules with TLS describe each other
in every state that loads and releases reach from `MmpTlsInitialize`.
-/

namespace WinPolyfillLoader.MmpTls

open ProcessHeap ByteMemory Runs

/-- Two states with the same list and bitmap. -/
def SameIndexes (before after : MmpState) : Prop :=
  after.mmpTlsList = before.mmpTlsList ∧ after.mmpTlsBitmap = before.mmpTlsBitmap

/-- The list and the bitmap describe each other. -/
structure RegistryDescribes (state : MmpState) : Prop where
  inRange : ∀ e ∈ state.mmpTlsList, mmpStartTlsIndex ≤ e.index ∧ e.index < mmpMaximumTlsIndex
  nodup : (state.mmpTlsList.map TlsEntry.index).Nodup
  bitmap : ∀ i < mmpMaximumTlsIndex, state.mmpTlsBitmap i = true ↔
    i < mmpStartTlsIndex ∨ ∃ e ∈ state.mmpTlsList, e.index = i

theorem RegistryDescribes.start_le {state : MmpState} (h : RegistryDescribes state)
    {index entry : Nat} (hindex : TakesIndex state index entry) : mmpStartTlsIndex ≤ index := by
  have hunused := (h.bitmap index hindex.lt).not.mp (Bool.eq_false_iff.mp hindex.clear)
  exact Nat.le_of_not_lt fun hlow => hunused (Or.inl hlow)

theorem RegistryDescribes.congr {before after : MmpState} (h : RegistryDescribes before)
    (hsame : SameIndexes before after) : RegistryDescribes after := by
  obtain ⟨hlist, hbitmap⟩ := hsame
  constructor
  · rw [hlist]
    exact h.inRange
  · rw [hlist]
    exact h.nodup
  · rw [hlist, hbitmap]
    exact h.bitmap

theorem RegistryDescribes.registered {state : MmpState} (h : RegistryDescribes state)
    (tlsDirectory : ImageTlsDirectory) (moduleEntry : Nat) {index entry : Nat} (heap : Heap)
    (memory : Bytes) (hindex : TakesIndex state index entry) :
    RegistryDescribes (registered tlsDirectory moduleEntry index entry heap memory state) := by
  have hunused := (h.bitmap index hindex.lt).not.mp (by simp [hindex.clear])
  obtain ⟨hstart, hnew⟩ := not_or.mp hunused
  constructor
  · intro e he
    rcases List.mem_append.mp he with he | he
    · exact h.inRange e he
    · rw [List.mem_singleton.mp he]
      exact ⟨Nat.le_of_not_lt hstart, hindex.lt⟩
  · simp only [MmpTls.registered, List.map_append, List.map_cons, List.map_nil]
    apply List.nodup_append.mpr
    refine ⟨h.nodup, List.pairwise_singleton _ _, ?_⟩
    intro i hi j hj
    obtain ⟨e, he, rfl⟩ := List.mem_map.mp hi
    rw [List.mem_singleton.mp hj]
    exact fun heq => hnew ⟨e, he, heq⟩
  · intro i hi
    have hold := h.bitmap i hi
    simp only [MmpTls.registered, List.mem_append, List.mem_singleton]
    rcases Decidable.em (i = index) with rfl | hne
    · rw [Function.update_self]
      exact iff_of_true rfl (Or.inr ⟨_, Or.inr rfl, rfl⟩)
    · rw [Function.update_of_ne hne, hold]
      refine or_congr_right ⟨?_, ?_⟩
      · rintro ⟨e, he, heq⟩
        exact ⟨e, Or.inl he, heq⟩
      · rintro ⟨e, he | rfl, heq⟩
        · exact ⟨e, he, heq⟩
        · exact absurd heq.symm hne

/-- What a release does to the list: it takes out the first entry of the
module, if there is one. -/
theorem mmpReleaseTlsEntry_cases (moduleEntry : Nat) (state : MmpState) :
    mmpReleaseTlsEntry moduleEntry state = state ∨
    ∃ older e younger, state.mmpTlsList = older ++ e :: younger ∧
      e.moduleEntry = moduleEntry ∧
      mmpReleaseTlsEntry moduleEntry state = { state with
        mmpTlsList := older ++ younger
        mmpTlsBitmap := Function.update state.mmpTlsBitmap e.index false
        heap := state.heap.free e.address } := by
  cases hfind : state.mmpTlsList.find? (fun p => p.moduleEntry == moduleEntry) with
  | none => exact Or.inl (by simp only [mmpReleaseTlsEntry, hfind])
  | some e =>
    obtain ⟨hmodule, older, younger, hlist, holder⟩ := List.find?_eq_some_iff_append.mp hfind
    have holder' : ∀ p ∈ older, ¬ (p.moduleEntry == moduleEntry) = true := by
      intro p hp
      simpa using holder p hp
    have herase : state.mmpTlsList.eraseP (fun p => p.moduleEntry == moduleEntry) =
        older ++ younger := by
      rw [hlist, List.eraseP_append_right _ holder']
      exact congrArg (older ++ ·) (List.eraseP_cons_of_pos hmodule)
    refine Or.inr ⟨older, e, younger, hlist, by simpa using hmodule, ?_⟩
    simp only [mmpReleaseTlsEntry, hfind, rtlFreeHeap, herase]

theorem RegistryDescribes.release {state : MmpState} (h : RegistryDescribes state)
    (moduleEntry : Nat) : RegistryDescribes (mmpReleaseTlsEntry moduleEntry state) := by
  rcases mmpReleaseTlsEntry_cases moduleEntry state with hsame | ⟨older, e, younger, hlist, _, hrun⟩
  · rw [hsame]
    exact h
  · have hnodup := h.nodup
    rw [hlist, List.map_append, List.map_cons] at hnodup
    have hother : ∀ p ∈ older ++ younger, p.index ≠ e.index := by
      intro p hp heq
      have hnot := (List.nodup_middle.mp hnodup).notMem
      rw [← List.map_append] at hnot
      exact hnot (heq ▸ List.mem_map_of_mem hp)
    have hmem : ∀ p, p ∈ state.mmpTlsList ↔ p = e ∨ p ∈ older ++ younger := by
      intro p
      rw [hlist]
      simp only [List.mem_append, List.mem_cons]
      tauto
    rw [hrun]
    constructor
    · intro p hp
      exact h.inRange p ((hmem p).mpr (Or.inr hp))
    · rw [List.map_append]
      exact (List.nodup_middle.mp hnodup).of_cons
    · intro i hi
      rcases Decidable.em (i = e.index) with rfl | hne
      · have hstart := (h.inRange e ((hmem e).mpr (Or.inl rfl))).1
        apply iff_of_false (by simp)
        rintro (hlow | ⟨p, hp, heq⟩)
        · omega
        · exact hother p hp heq
      · have hold := h.bitmap i hi
        simp only
        rw [Function.update_of_ne hne, hold]
        refine or_congr_right ⟨?_, ?_⟩
        · rintro ⟨p, hp, heq⟩
          rcases (hmem p).mp hp with rfl | hp
          · exact absurd heq.symm hne
          · exact ⟨p, hp, heq⟩
        · rintro ⟨p, hp, heq⟩
          exact ⟨p, (hmem p).mpr (Or.inr hp), heq⟩

/-- The call and what follows it leave the list and the bitmap alone. -/
theorem requestAndRelease_sameIndexes (kernel : KernelAnswer) (index buffer : Nat)
    (blocks : List Nat) (state : MmpState) :
    SameIndexes state (requestAndRelease kernel index buffer blocks state).2 := by
  obtain ⟨⟨hbitmap, hlist, _⟩, _⟩ := hookNtSetInformationProcess_own kernel index
    state.mmpActiveThreadCount.toNat blocks state
  exact ⟨hlist, hbitmap⟩

theorem RegistryDescribes.load {state : MmpState} (h : RegistryDescribes state)
    (kernel : KernelAnswer) (indexMapped : Bool) (tlsDirectory : Option ImageTlsDirectory)
    (moduleEntry : Nat) :
    RegistryDescribes (mmpHandleTlsData kernel indexMapped tlsDirectory moduleEntry state).2 := by
  have hexits := mmpHandleTlsData_exits kernel indexMapped tlsDirectory moduleEntry state
  generalize mmpHandleTlsData kernel indexMapped tlsDirectory moduleEntry state = result
    at hexits ⊢
  cases hexits with
  | noDirectory => exact h
  | entryRefused => exact h.congr ⟨rfl, rfl⟩
  | bufferRefused hindex => exact (h.registered _ moduleEntry _ _ hindex).release moduleEntry
  | copiesRefused hindex => exact (h.registered _ moduleEntry _ _ hindex).release moduleEntry
  | called hindex =>
    exact (h.registered _ moduleEntry _ _ hindex).congr (requestAndRelease_sameIndexes _ _ _ _ _)

theorem mmpHandleTlsData_full {state : MmpState}
    (hfull : ∀ i < mmpMaximumTlsIndex, state.mmpTlsBitmap i = true) (kernel : KernelAnswer)
    (indexMapped : Bool) (tlsDirectory : ImageTlsDirectory) (moduleEntry : Nat) :
    let result := mmpHandleTlsData kernel indexMapped (some tlsDirectory) moduleEntry state
    ntSuccess result.1 = false ∧ result.2.mmpTlsList = state.mmpTlsList := by
  have htaken : ∀ {index entry}, ¬ TakesIndex state index entry := by
    intro index entry hindex
    have hset := hfull index hindex.lt
    rw [hindex.clear] at hset
    cases hset
  have hexits := mmpHandleTlsData_exits kernel indexMapped (some tlsDirectory) moduleEntry state
  generalize mmpHandleTlsData kernel indexMapped (some tlsDirectory) moduleEntry state = result
    at hexits ⊢
  cases hexits with
  | entryRefused => exact ⟨rfl, rfl⟩
  | bufferRefused hindex => exact absurd hindex htaken
  | copiesRefused hindex => exact absurd hindex htaken
  | called hindex => exact absurd hindex htaken

/-- The two calls that edit the registry, each with what the system answers. -/
inductive RegistryCall where
  | handle (kernel : KernelAnswer) (indexMapped : Bool) (tlsDirectory : Option ImageTlsDirectory)
      (moduleEntry : Nat)
  | release (moduleEntry : Nat)

def registryStep (state : MmpState) : RegistryCall → MmpState
  | .handle kernel indexMapped tlsDirectory moduleEntry =>
      (mmpHandleTlsData kernel indexMapped tlsDirectory moduleEntry state).2
  | .release moduleEntry => mmpReleaseTlsEntry moduleEntry state

theorem RegistryDescribes.step {state : MmpState} (h : RegistryDescribes state)
    (call : RegistryCall) : RegistryDescribes (registryStep state call) := by
  cases call with
  | handle kernel indexMapped tlsDirectory moduleEntry =>
    exact h.load kernel indexMapped tlsDirectory moduleEntry
  | release moduleEntry => exact h.release moduleEntry

theorem RegistryDescribes.run {state : MmpState} (h : RegistryDescribes state)
    (calls : List RegistryCall) : RegistryDescribes (calls.foldl registryStep state) := by
  induction calls generalizing state with
  | nil => exact h
  | cons call calls ih => exact ih (h.step call)

theorem mmpTlsInitialize_describes {kernel : ReplaceVectorAnswer}
    {spi spi' : Option (List SystemThread)} {clientId : Nat} {process start : TlsProcess}
    (hinit : mmpTlsInitialize kernel spi spi' clientId process = .ok start) :
    RegistryDescribes start.mmp := by
  obtain ⟨hlist, hbitmap, _⟩ := mmpTlsInitialize_ok hinit
  constructor
  · simp [hlist]
  · simp [hlist]
  · simp [hlist, hbitmap]

/-- In every state that loads and releases reach from `MmpTlsInitialize`, the
list and the bitmap describe each other, and a load that finds the bitmap full
fails without a change of the list. -/
theorem registry_describes (kernel : ReplaceVectorAnswer) (spi spi' : Option (List SystemThread))
    (clientId : Nat) (process start : TlsProcess)
    (hinit : mmpTlsInitialize kernel spi spi' clientId process = .ok start)
    (calls : List RegistryCall) :
    let state := calls.foldl registryStep start.mmp
    RegistryDescribes state ∧
      ((∀ i < mmpMaximumTlsIndex, state.mmpTlsBitmap i = true) →
        ∀ (kernel : KernelAnswer) indexMapped tlsDirectory moduleEntry,
          let result := mmpHandleTlsData kernel indexMapped (some tlsDirectory) moduleEntry state
          ntSuccess result.1 = false ∧ result.2.mmpTlsList = state.mmpTlsList) :=
  ⟨(mmpTlsInitialize_describes hinit).run calls, mmpHandleTlsData_full⟩

/-- One thread, one load that the kernel refuses and the release of the module. -/
theorem registry_describes_oneThread :
    let spi := some [⟨true, true, 0x1010⟩]
    let kernel : KernelAnswer := ⟨statusUnsuccessful, fun _ tls slots => (tls, slots)⟩
    ∃ start, mmpTlsInitialize oneThreadAnswer spi spi 4
        (oneThread [some 0x2000, some 0x3000, some 0x4000, some 0x5000, some 0x6000]) =
          .ok start ∧
      RegistryDescribes ([RegistryCall.handle kernel true (some ⟨0x9000, 0x9008, 0x9100, 0, 0, 0⟩)
        0x8000, .release 0x8000].foldl registryStep start.mmp) := by
  intro spi kernel
  let process := oneThread [some 0x2000, some 0x3000, some 0x4000, some 0x5000, some 0x6000]
  obtain ⟨start, hinit⟩ : ∃ start, mmpTlsInitialize oneThreadAnswer spi spi 4 process =
      .ok start := ⟨_, rfl⟩
  exact ⟨start, hinit, (registry_describes oneThreadAnswer spi spi 4 process start hinit _).1⟩

end WinPolyfillLoader.MmpTls
