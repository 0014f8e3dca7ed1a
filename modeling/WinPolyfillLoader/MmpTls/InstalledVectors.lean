import WinPolyfillLoader.MmpTls.OwnershipStart

/-!
Where the slots of the module are written. A thread that ntdll has started, but
that has no record yet, has a vector that ends below the first index of the
module; a load in between reaches it all the same.
-/

namespace WinPolyfillLoader.MmpTls

open ProcessHeap ByteMemory

section Facts

variable {start : Heap} {leaked : List Nat} {s : ProcessState}

theorem Ledger.recorded_vector (h : Ledger start leaked s) {teb : Teb}
    (hteb : teb ∈ s.process.threads) {r : TlspRecord}
    (hr : r ∈ s.process.mmp.mmpThreadLocalStoragePointer) (hid : r.uniqueThread = teb.clientId) :
    r.tlspMmpBlock = teb.threadLocalStoragePointer := by
  rcases h.table.recorded r hr with ⟨hzero, _⟩ | hmem
  · exact absurd (hid.symm.trans hzero) (h.table.ids_ne teb hteb)
  · have hsame := List.inj_on_of_nodup_map h.table.ids hmem hteb hid
    exact congrArg Teb.threadLocalStoragePointer hsame

theorem Ledger.installed_live (h : Ledger start leaked s) {b : Nat} (hb : b ≠ 0)
    (hinstalled : Installed s.process b) : b ∈ s.process.mmp.heap.live := by
  obtain ⟨teb, hteb, hptr, k, hk, rfl⟩ := hinstalled
  rcases Nat.lt_or_ge k mmpStartTlsIndex with hlow | hhigh
  · exact h.other_live hb (h.data teb hteb hptr k hlow hk hb)
  · rcases Decidable.em (∃ r ∈ s.process.mmp.mmpThreadLocalStoragePointer,
        r.uniqueThread = teb.clientId) with ⟨r, hr, hid⟩ | hnone
    · have hvector := h.recorded_vector hteb hr hid
      have hown : teb.threadLocalStoragePointer ∈ s.process.tlspVectors :=
        hvector ▸ (h.table.own r hr).1
      rw [vectorSize, if_pos hown] at hk
      apply h.owned_live hb (mem_owned_record hr _)
      apply List.mem_cons_of_mem
      apply List.mem_cons_of_mem
      rw [hvector]
      exact List.mem_map_of_mem (mem_moduleIndices.mpr ⟨hhigh, hk⟩)
    · have hforeign := h.table.foreign teb hteb hptr fun r hr hid => hnone ⟨r, hr, hid⟩
      rw [vectorSize, if_neg hforeign.1] at hk
      exact absurd hhigh (Nat.not_le_of_lt (Nat.lt_of_lt_of_le hk hforeign.2))

end Facts

theorem mmpReleaseTlsEntry_slots (moduleEntry : Nat) (state : MmpState) :
    (mmpReleaseTlsEntry moduleEntry state).slots = state.slots := by
  rcases mmpReleaseTlsEntry_cases moduleEntry state with hrun | ⟨_, _, _, _, _, hrun⟩
  · rw [hrun]
  · rw [hrun]

theorem mmpHandleTlsData_slots {state : MmpState} (hregistry : RegistryDescribes state)
    {status : NtStatus} {served : List ServedThread} {indexMapped : Bool}
    {tlsDirectory : Option ImageTlsDirectory} {moduleEntry v k : Nat}
    (hwritten : (mmpHandleTlsData (replaceIndexAnswer status served) indexMapped tlsDirectory
      moduleEntry state).2.slots v k ≠ state.slots v k) :
    CallsKernel status indexMapped tlsDirectory state ∧ v ∈ served.map ServedThread.vector := by
  have hexits := mmpHandleTlsData_exits (replaceIndexAnswer status served) indexMapped tlsDirectory
    moduleEntry state
  generalize mmpHandleTlsData (replaceIndexAnswer status served) indexMapped tlsDirectory
    moduleEntry state = result at hexits hwritten
  cases hexits with
  | noDirectory => exact absurd rfl hwritten
  | entryRefused => exact absurd rfl hwritten
  | bufferRefused =>
    rw [mmpReleaseTlsEntry_slots] at hwritten
    exact absurd rfl hwritten
  | copiesRefused =>
    rw [mmpReleaseTlsEntry_slots] at hwritten
    exact absurd rfl hwritten
  | called hindex hmapped hlength hgranted hgrants =>
    rename_i tlsDirectory index entry buffer heap memory blocks
    let taken := registered tlsDirectory moduleEntry index entry heap memory state
    have hlength' : blocks.length = taken.mmpActiveThreadCount.toNat := hlength
    rcases requestAndRelease_cases status served buffer (hregistry.start_le hindex) hindex.lt
        hlength' with ⟨_, _, _, hrun⟩ | ⟨_, _, hgrant, hstatus, hrun⟩
    · rw [hrun] at hwritten
      exact absurd rfl hwritten
    · rw [hrun] at hwritten
      constructor
      · exact callsKernel_of hindex hmapped hgrants hgrant hstatus tlsDirectory
      · apply Decidable.byContradiction
        intro hnot
        exact hwritten (processTlsReplaceIndex_slots_other served _ _ (Or.inr hnot))

/-- Whatever slots of the module a step writes are in vectors of the module. What
a load frees is in no slot of a live thread: the slots do not change any more
once it frees something. -/
def WritesOwnVectors (s : ProcessState) (step : ProcessStep) : Prop :=
  let after := (processStep s step).process
  (∀ v k, mmpStartTlsIndex ≤ k → after.mmp.slots v k ≠ s.process.mmp.slots v k →
    v ∈ after.tlspVectors) ∧
  match step with
  | .load status served indexMapped tlsDirectory _ =>
      (CallsKernel status indexMapped tlsDirectory s.process.mmp →
        ∀ t ∈ served, t.vector ∈ after.tlspVectors) ∧
      ∀ b ≠ 0, s.process.mmp.heap.frees b < after.mmp.heap.frees b → ¬ Installed after b
  | _ => True

def ServesRecorded (s : ProcessState) : ProcessStep → Prop
  | .load status served indexMapped tlsDirectory _ =>
      CallsKernel status indexMapped tlsDirectory s.process.mmp → ∀ t ∈ served,
        (mmpFindTlspRecordLockHeld t.teb.clientId
          s.process.mmp.mmpThreadLocalStoragePointer).isSome = true
  | _ => True

section Steps

variable {start : Heap} {leaked : List Nat} {s : ProcessState}

theorem Ledger.recorded (h : Ledger start leaked s) {t : ServedThread}
    (hteb : t.teb ∈ s.process.threads)
    (hfind : (mmpFindTlspRecordLockHeld t.teb.clientId
      s.process.mmp.mmpThreadLocalStoragePointer).isSome = true) :
    Recorded s.process.mmp.mmpThreadLocalStoragePointer t := by
  obtain ⟨r, hr⟩ := Option.isSome_iff_exists.mp hfind
  have hmem := List.mem_of_find?_eq_some hr
  have hid : r.uniqueThread = t.teb.clientId := by simpa using List.find?_some hr
  exact ⟨r, hmem, hid, h.recorded_vector hteb hmem hid⟩

theorem Ledger.step (h : Ledger start leaked s) {step : ProcessStep} (hpossible : Possible s step)
    (hserves : ServesRecorded s step) : ∃ leaked, Ledger start leaked (processStep s step) := by
  cases step with
  | ntdllStart clientId tlsVector data => exact ⟨leaked, h.ntdllStart hpossible⟩
  | threadStart clientId => exact ⟨leaked, h.threadStart clientId⟩
  | threadExit clientId frees => exact ⟨leaked, h.threadExit hpossible⟩
  | load status served indexMapped tlsDirectory moduleEntry =>
    have hrecorded : CallsKernel status indexMapped tlsDirectory s.process.mmp →
        ∀ t ∈ served, Recorded s.process.mmp.mmpThreadLocalStoragePointer t := fun hcalls t ht =>
      h.recorded (hpossible.threads t ht).1 (hserves hcalls t ht)
    rcases h.load hpossible moduleEntry hrecorded with hafter | ⟨buffer, hafter, _⟩
    · exact ⟨leaked, hafter⟩
    · exact ⟨leaked ++ [buffer], hafter⟩
  | unload moduleEntry => exact ⟨leaked, h.unload moduleEntry⟩
  | workerPass active => exact ⟨_, h.workerPass active⟩

theorem writesOwnVectors_other {step : ProcessStep}
    (hload : ∀ status served indexMapped tlsDirectory moduleEntry,
      step ≠ .load status served indexMapped tlsDirectory moduleEntry)
    (hpossible : Possible s step) : WritesOwnVectors s step := by
  cases step with
  | ntdllStart clientId tlsVector data =>
    refine ⟨?_, trivial⟩
    intro v k hk hwritten
    apply absurd _ hwritten
    exact if_neg fun hlow => Nat.not_lt_of_le hk (Nat.lt_trans hlow.2 hpossible.short)
  | threadStart clientId =>
    refine ⟨?_, trivial⟩
    intro v k hk hwritten
    have hexits := mmpAllocateTlsLockHeld_exits clientId s.process
    simp only [processStep] at hwritten ⊢
    generalize mmpAllocateTlsLockHeld clientId s.process = result at hexits hwritten ⊢
    cases hexits with
    | skipped => exact absurd rfl hwritten
    | refused => exact absurd rfl hwritten
    | installed hneeds hgranted hnext hle hfull hshort =>
      rename_i record tlsVector blocks heap
      apply Decidable.byContradiction
      intro hnot
      have hv : v ≠ moduleTlsData tlsVector := fun heq => hnot (heq ▸ List.mem_cons_self)
      apply hwritten
      exact (storeBlocks_other (Or.inl hv)).trans (installTlsp_other hv k)
  | threadExit clientId frees =>
    refine ⟨?_, trivial⟩
    intro v k hk hwritten
    rcases hookLdrShutdownThread_cases clientId s.process with
      ⟨hrun, _⟩ | ⟨older, record, younger, _, _, ⟨hrun, _⟩ | ⟨tlsVector, heap, _, _, hrun⟩⟩
    · simp only [processStep, hrun] at hwritten
      exact absurd rfl hwritten
    · simp only [processStep, hrun] at hwritten
      exact absurd rfl hwritten
    · simp only [processStep, hrun] at hwritten ⊢
      apply Decidable.byContradiction
      intro hnot
      have hv : v ≠ moduleTlsData tlsVector := fun heq => hnot (heq ▸ List.mem_cons_self)
      exact hwritten ((postponed_other clientId record (older ++ younger) heap s.process hv).1 k)
  | load status served indexMapped tlsDirectory moduleEntry =>
    exact absurd rfl (hload status served indexMapped tlsDirectory moduleEntry)
  | unload moduleEntry =>
    refine ⟨?_, trivial⟩
    intro v k hk hwritten
    simp only [processStep, mmpReleaseTlsEntry_slots] at hwritten
    exact absurd rfl hwritten
  | workerPass active =>
    refine ⟨?_, trivial⟩
    intro v k hk hwritten
    rcases mmpReleasePostponedTlsWorker_cases active s.process with ⟨_, hrun⟩ | ⟨items, _, hrun⟩
    · simp only [processStep, hrun] at hwritten
      exact absurd rfl hwritten
    · simp only [processStep, hrun] at hwritten
      exact absurd rfl hwritten

/-- A load writes the vectors of the module, and frees nothing that is installed,
exactly when every thread that it reaches has a record. -/
theorem Ledger.writesOwnVectors_iff (h : Ledger start leaked s) {step : ProcessStep}
    (hpossible : Possible s step) : WritesOwnVectors s step ↔ ServesRecorded s step := by
  cases step with
  | load status served indexMapped tlsDirectory moduleEntry =>
    constructor
    · rintro ⟨_, hvectors, _⟩ hcalls t ht
      obtain ⟨hteb, hptr⟩ := hpossible.threads t ht
      apply Decidable.byContradiction
      intro hnone
      have hnorecord := List.find?_eq_none.mp (Option.not_isSome_iff_eq_none.mp hnone)
      have hforeign := h.table.foreign t.teb hteb hptr fun r hr => by simpa using hnorecord r hr
      exact hforeign.1 (hvectors hcalls t ht)
    · intro hserves
      have hrecorded : CallsKernel status indexMapped tlsDirectory s.process.mmp →
          ∀ t ∈ served, Recorded s.process.mmp.mmpThreadLocalStoragePointer t := fun hcalls t ht =>
        h.recorded (hpossible.threads t ht).1 (hserves hcalls t ht)
      have hown : CallsKernel status indexMapped tlsDirectory s.process.mmp →
          ∀ t ∈ served, t.vector ∈ s.process.tlspVectors := by
        intro hcalls t ht
        obtain ⟨r, hr, _, hvector⟩ := hrecorded hcalls t ht
        rw [← hvector]
        exact (h.table.own r hr).1
      refine ⟨?_, hown, ?_⟩
      · intro v k _ hwritten
        obtain ⟨hcalls, hv⟩ := mmpHandleTlsData_slots h.registry hwritten
        obtain ⟨t, ht, rfl⟩ := List.mem_map.mp hv
        exact hown hcalls t ht
      · intro b hb hfreed hinstalled
        obtain ⟨leaked', hafter⟩ := h.step hpossible hserves
        have hgone := mmpHandleTlsData_freedGone h.registry h.single status served indexMapped
          tlsDirectory moduleEntry b hb hfreed
        exact List.count_eq_zero.mp hgone (hafter.installed_live hb hinstalled)
  | ntdllStart => exact iff_of_true (writesOwnVectors_other nofun hpossible) trivial
  | threadStart => exact iff_of_true (writesOwnVectors_other nofun hpossible) trivial
  | threadExit => exact iff_of_true (writesOwnVectors_other nofun hpossible) trivial
  | unload => exact iff_of_true (writesOwnVectors_other nofun hpossible) trivial
  | workerPass => exact iff_of_true (writesOwnVectors_other nofun hpossible) trivial

end Steps

/-- In a run from the initialization, the slots of the module are written in
vectors of the module only, and no load frees what is installed, exactly when
every load that calls the kernel finds a record for each thread that is served. -/
theorem installedVectors_own_iff (status : NtStatus) (served : List ServedThread)
    (spi spi' : Option (List SystemThread)) (clientId : Nat) (process start : TlsProcess)
    (hinit : mmpTlsInitialize (replaceVectorAnswer status served) spi spi' clientId process =
      .ok start)
    (hbefore : Uninitialized process)
    (hserves : ServesThreads served (mmpGetThreadCount spi').toNat process)
    (steps : List ProcessStep)
    (hsteps : Runs.Admissible processStep Possible (initialState start) steps) :
    Runs.Admissible processStep WritesOwnVectors (initialState start) steps ↔
      Runs.Admissible processStep ServesRecorded (initialState start) steps := by
  have hstart := mmpTlsInitialize_ledger hinit hbefore hserves
  have hiff : ∀ s step, (∃ leaked, Ledger start.mmp.heap leaked s) → Possible s step →
      (WritesOwnVectors s step ↔ ServesRecorded s step) := by
    rintro s step ⟨leaked, h⟩ hpossible
    exact h.writesOwnVectors_iff hpossible
  have hkeep : ∀ s step, (∃ leaked, Ledger start.mmp.heap leaked s) → Possible s step →
      ServesRecorded s step → ∃ leaked, Ledger start.mmp.heap leaked (processStep s step) := by
    rintro s step ⟨leaked, h⟩ hpossible hrecorded
    exact h.step hpossible hrecorded
  exact Runs.admissible_congr hiff hkeep ⟨[], hstart⟩ hsteps

/-- A load between the two steps of the start of a thread. The counter has an
element for the thread, as another one has exited between the two snapshots of
the initialization. The block is stored behind the end of the vector, and the load
frees it. -/
theorem installedVectors_startingThread :
    let process := oneThread ([0x2000, 0x3000, 0x4000, 0x5000, 0x6000].map some ++
      [0x8000, 0x8800, 0x9000, 0x9400, 0x9800].map some)
    let spi := [⟨true, true, 0x1010⟩, ⟨true, true, 0x1810⟩]
    let start := oneThreadReplaced spi ([0x8000, 0x8800, 0x9000, 0x9400, 0x9800].map some)
    let served := [⟨⟨4, 0x4010⟩, 0, 1⟩, ⟨⟨8, 0x7010⟩, 1, 1⟩]
    let steps := [ProcessStep.ntdllStart 8 0x7000 [0x7800],
      .load statusSuccess served true (some ⟨0xa000, 0xa008, 0xb000, 0, 0, 0⟩) 0xc000]
    let after := steps.foldl processStep (initialState start)
    mmpTlsInitialize (replaceVectorAnswer statusSuccess oneThreadServed) (some spi)
        (some [⟨true, true, 0x1010⟩]) 4 process = .ok start ∧
      Uninitialized process ∧ ServesThreads oneThreadServed 1 process ∧
      Runs.Admissible processStep Possible (initialState start) steps ∧
      after.process.mmp.slots 0x7010 mmpStartTlsIndex = 0x9400 ∧
      0x7010 ∉ after.process.tlspVectors ∧ after.process.length 0x7010 = 1 ∧
      0x9400 ∉ after.process.mmp.heap.live ∧ after.process.mmp.heap.frees 0x9400 = 1 ∧
      ¬ Runs.Admissible processStep WritesOwnVectors (initialState start) steps := by
  intro process spi start served steps after
  let starting := processStep (initialState start) (.ntdllStart 8 0x7000 [0x7800])
  let loading := ProcessStep.load statusSuccess served true
    (some ⟨0xa000, 0xa008, 0xb000, 0, 0, 0⟩) 0xc000
  have hafter : after = processStep starting loading := by
    simp only [after, steps, loading, starting, List.foldl_cons, List.foldl_nil]
  have hslot : (processStep starting loading).process.mmp.slots 0x7010 mmpStartTlsIndex =
      0x9400 := by decide +kernel
  have hforeign : 0x7010 ∉ (processStep starting loading).process.tlspVectors := by decide +kernel
  have hwritten : (processStep starting loading).process.mmp.slots 0x7010 mmpStartTlsIndex ≠
      starting.process.mmp.slots 0x7010 mmpStartTlsIndex := by
    rw [hslot]
    decide +kernel
  have hfirst : StartsFresh 8 0x7000 [0x7800] start := by
    constructor
    all_goals decide +kernel
  have hload : ServesThreads served starting.process.mmp.mmpActiveThreadCount.toNat
      starting.process := by
    constructor
    all_goals decide +kernel
  rw [hafter]
  refine ⟨rfl, oneThread_uninitialized _, oneThread_served _, ⟨hfirst, hload, trivial⟩, hslot,
    hforeign, by decide +kernel, by decide +kernel, by decide +kernel, ?_⟩
  rintro ⟨_, hload, _⟩
  have hwrites : WritesOwnVectors starting loading := hload
  exact hforeign (hwrites.1 0x7010 mmpStartTlsIndex (Nat.le_refl _) hwritten)

/-- A load once the second thread has its vector. -/
theorem installedVectors_startedThread :
    let start := oneThreadReplaced [⟨true, true, 0x1010⟩] ([0x8000, 0x8400, 0x8800, 0x8c00, 0x9000,
      0x9400, 0x9800].map some)
    let steps := [ProcessStep.ntdllStart 8 0x7000 [0x7800], .threadStart 8,
      .load statusSuccess [⟨⟨4, 0x4010⟩, 0, 1⟩, ⟨⟨8, 0x8410⟩, 1, 1⟩] true
        (some ⟨0xa000, 0xa008, 0xb000, 0, 0, 0⟩) 0xc000]
    Runs.Admissible processStep WritesOwnVectors (initialState start) steps := by
  intro start steps
  let process := oneThread ([0x2000, 0x3000, 0x4000, 0x5000, 0x6000].map some ++
    [0x8000, 0x8400, 0x8800, 0x8c00, 0x9000, 0x9400, 0x9800].map some)
  let loading := (steps.take 2).foldl processStep (initialState start)
  have hinit : mmpTlsInitialize (replaceVectorAnswer statusSuccess oneThreadServed)
      (some [⟨true, true, 0x1010⟩]) (some [⟨true, true, 0x1010⟩]) 4 process = .ok start := rfl
  have hfirst : StartsFresh 8 0x7000 [0x7800] start := by
    constructor
    all_goals decide +kernel
  have hload : ServesThreads [⟨⟨4, 0x4010⟩, 0, 1⟩, ⟨⟨8, 0x8410⟩, 1, 1⟩]
      loading.process.mmp.mmpActiveThreadCount.toNat loading.process := by
    constructor
    all_goals decide +kernel
  apply (installedVectors_own_iff _ _ _ _ _ _ _ hinit (oneThread_uninitialized _)
    (oneThread_served _) steps ⟨hfirst, trivial, hload, trivial⟩).mpr
  refine ⟨trivial, trivial, ?_, trivial⟩
  intro _
  decide +kernel

end WinPolyfillLoader.MmpTls
