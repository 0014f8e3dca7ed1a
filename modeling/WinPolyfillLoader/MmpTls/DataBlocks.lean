import WinPolyfillLoader.MmpTls.InstalledVectors
import WinPolyfillLoader.MmpTls.ThreadCount

/-!
The blocks of the threads in runs without a failing call. A block moves from the
vector of its thread to a copy in the queue, or comes back in the request of a
load that takes its index again. The worker looks for it at the indexes of the
modules that are listed at the time of its pass.
-/

namespace WinPolyfillLoader.MmpTls

open ProcessHeap ByteMemory

/-- The steps of a run in which threads start as a whole. -/
inductive DataStep where
  | start (clientId tlsVector : Nat) (data : List Nat)
  | exit (clientId : Nat) (frees : List Nat)
  | load (status : NtStatus) (served : List ServedThread) (indexMapped : Bool)
      (tlsDirectory : Option ImageTlsDirectory) (moduleEntry : Nat)
  | unload (moduleEntry : Nat)
  | workerPass (active : PostponedTls → Bool)

def DataStep.steps : DataStep → List ProcessStep
  | .start clientId tlsVector data =>
      [.ntdllStart clientId tlsVector data, .threadStart clientId]
  | .exit clientId frees => [.threadExit clientId frees]
  | .load status served indexMapped tlsDirectory moduleEntry =>
      [.load status served indexMapped tlsDirectory moduleEntry]
  | .unload moduleEntry => [.unload moduleEntry]
  | .workerPass active => [.workerPass active]

def dataStep (s : ProcessState) (step : DataStep) : ProcessState := step.steps.foldl processStep s

/-- The call of the step returns what it returns when nothing fails. -/
def Succeeds (s : ProcessState) : DataStep → Prop
  | .start clientId tlsVector data =>
      (mmpAllocateTlsLockHeld clientId
        (ntdllStartThread clientId tlsVector data s.process)).1 = errorSuccess
  | .exit clientId _ => (hookLdrShutdownThread clientId s.process).isSome = true
  | .load status served indexMapped tlsDirectory moduleEntry =>
      ntSuccess (mmpHandleTlsData (replaceIndexAnswer status served) indexMapped tlsDirectory
        moduleEntry s.process.mmp).1 = true
  | _ => True

/-- What ntdll and the kernel may do, and no call fails. -/
def NoCallFails (s : ProcessState) (step : DataStep) : Prop :=
  Succeeds s step ∧
  match step with
  | .start clientId tlsVector data => StartsFresh clientId tlsVector data s.process
  | .exit clientId frees => ExitsWith clientId frees s
  | .load _ served _ _ _ =>
      ServesThreads served s.process.mmp.mmpActiveThreadCount.toNat s.process
  | _ => True

/-- In each copy that the worker releases, the slots of modules that are not
listed are empty. -/
def ReleasesListed (s : ProcessState) : DataStep → Prop
  | .workerPass active => ∀ item ∈ s.process.mmpPostponedTlsList.getD [], active item = false →
      ∀ k ∈ moduleIndices, (∀ e ∈ s.process.mmp.mmpTlsList, e.index ≠ k) →
        s.process.mmp.slots (moduleTlsData item.lpOldTlsVector) k = 0
  | _ => True

/-- Every thread with a vector has a record. -/
def AllRecorded (process : TlsProcess) : Prop :=
  ∀ teb ∈ process.threads, teb.threadLocalStoragePointer ≠ 0 →
    ∃ r ∈ process.mmp.mmpThreadLocalStoragePointer, r.uniqueThread = teb.clientId

section Steps

variable {start : Heap} {leaked : List Nat} {s : ProcessState}

theorem AllRecorded.startThread (h : AllRecorded s.process) {clientId tlsVector : Nat} {data : List Nat}
    (hids : ((ntdllStartThread clientId tlsVector data s.process).threads.map Teb.clientId).Nodup)
    (hsucceeds : Succeeds s (.start clientId tlsVector data)) :
    AllRecorded (dataStep s (.start clientId tlsVector data)).process := by
  let started := ntdllStartThread clientId tlsVector data s.process
  have hrecords : started.mmp.mmpThreadLocalStoragePointer =
      s.process.mmp.mmpThreadLocalStoragePointer := rfl
  have hthreads : started.threads = s.process.threads ++ [⟨clientId, moduleTlsData tlsVector⟩] := rfl
  have hpointer : threadPointer started.threads clientId = moduleTlsData tlsVector := by
    have hmem : ⟨clientId, moduleTlsData tlsVector⟩ ∈ started.threads :=
      List.mem_append_right _ (List.mem_singleton.mpr rfl)
    exact threadPointer_of_mem hids hmem
  have hexits := mmpAllocateTlsLockHeld_exits clientId started
  change (mmpAllocateTlsLockHeld clientId started).1 = errorSuccess at hsucceeds
  change AllRecorded (mmpAllocateTlsLockHeld clientId started).2
  generalize mmpAllocateTlsLockHeld clientId started = result at hexits hsucceeds ⊢
  cases hexits with
  | skipped hskip =>
    have hrecorded : ∃ r ∈ started.mmp.mmpThreadLocalStoragePointer, r.uniqueThread = clientId := by
      apply Decidable.byContradiction
      intro hnone
      apply hskip
      constructor
      · rw [hpointer]
        exact Nat.ne_of_gt (Nat.lt_add_left _ (by decide))
      · exact fun r hr hid => hnone ⟨r, hr, hid⟩
    intro teb hteb hptr
    rw [hthreads, List.mem_append, List.mem_singleton] at hteb
    rcases hteb with hold | rfl
    · exact h teb hold hptr
    · exact hrecorded
  | refused hneeds hunused hreason => cases hsucceeds
  | installed hneeds hgranted hnext hle hfull hshort =>
    rename_i record tlsVector' blocks heap
    intro teb hteb hptr
    let inserted : TlspRecord :=
      ⟨record, clientId, threadPointer started.threads clientId, moduleTlsData tlsVector'⟩
    change ∃ r ∈ started.mmp.mmpThreadLocalStoragePointer ++ [inserted], r.uniqueThread = _
    rcases mem_setThreadPointer hteb with rfl | ⟨hmem, hid⟩
    · exact ⟨inserted, List.mem_append_right _ (List.mem_singleton.mpr rfl), rfl⟩
    · change teb ∈ started.threads at hmem
      rw [hthreads, List.mem_append, List.mem_singleton] at hmem
      rcases hmem with hold | rfl
      · obtain ⟨r, hr, hrecord⟩ := h teb hold hptr
        exact ⟨r, List.mem_append_left _ hr, hrecord⟩
      · exact absurd rfl hid

theorem AllRecorded.exitThread (h : AllRecorded s.process) (clientId : Nat) (frees : List Nat) :
    AllRecorded (dataStep s (.exit clientId frees)).process := by
  change AllRecorded (processStep s (.threadExit clientId frees)).process
  rcases hookLdrShutdownThread_cases clientId s.process with
    ⟨hrun, _⟩ | ⟨older, record, younger, hlist, hrecord, ⟨hrun, _⟩ | ⟨tlsVector, heap, _, _, hrun⟩⟩
  · simp only [processStep, hrun]
    intro teb hteb hptr
    exact h teb (List.mem_filter.mp hteb).1 hptr
  · simp only [processStep, hrun]
    exact h
  · simp only [processStep, hrun]
    intro teb hteb hptr
    obtain ⟨hmem, hid⟩ := List.mem_filter.mp hteb
    obtain ⟨r, hr, hsame⟩ := h teb hmem hptr
    have hother : teb.clientId ≠ clientId := by simpa using hid
    rw [hlist, List.mem_append, List.mem_cons] at hr
    refine ⟨r, List.mem_append.mpr ?_, hsame⟩
    rcases hr with hr | rfl | hr
    · exact Or.inl hr
    · exact absurd (hsame.symm.trans hrecord) hother
    · exact Or.inr hr

theorem mmpHandleTlsData_records {state : MmpState} (hregistry : RegistryDescribes state)
    (status : NtStatus) (served : List ServedThread) (indexMapped : Bool)
    (tlsDirectory : Option ImageTlsDirectory) (moduleEntry : Nat) :
    (mmpHandleTlsData (replaceIndexAnswer status served) indexMapped tlsDirectory moduleEntry
      state).2.mmpThreadLocalStoragePointer = state.mmpThreadLocalStoragePointer := by
  have hexits := mmpHandleTlsData_exits (replaceIndexAnswer status served) indexMapped tlsDirectory
    moduleEntry state
  generalize mmpHandleTlsData (replaceIndexAnswer status served) indexMapped tlsDirectory
    moduleEntry state = result at hexits ⊢
  cases hexits with
  | noDirectory => rfl
  | entryRefused => rfl
  | bufferRefused => exact (mmpReleaseTlsEntry_records moduleEntry _).1
  | copiesRefused => exact (mmpReleaseTlsEntry_records moduleEntry _).1
  | called hindex hmapped hlength hgranted hgrants =>
    rename_i tlsDirectory index entry buffer heap memory blocks
    let taken := registered tlsDirectory moduleEntry index entry heap memory state
    have hlength' : blocks.length = taken.mmpActiveThreadCount.toNat := hlength
    rcases requestAndRelease_cases status served buffer (hregistry.start_le hindex) hindex.lt
        hlength' with ⟨_, _, _, hrun⟩ | ⟨_, _, _, _, hrun⟩
    · rw [hrun]
      rfl
    · rw [hrun]
      rfl

theorem mmpHandleTlsData_granted {state : MmpState} {kernel : KernelAnswer} {indexMapped : Bool}
    {tlsDirectory : Option ImageTlsDirectory} {moduleEntry : Nat} (hdirectory : tlsDirectory ≠ none)
    (hsucceeds : ntSuccess
      (mmpHandleTlsData kernel indexMapped tlsDirectory moduleEntry state).1 = true) :
    state.heap.grants (state.mmpActiveThreadCount.toNat + 2) = true := by
  have hexits := mmpHandleTlsData_exits kernel indexMapped tlsDirectory moduleEntry state
  generalize mmpHandleTlsData kernel indexMapped tlsDirectory moduleEntry state = result
    at hexits hsucceeds
  cases hexits with
  | noDirectory => exact absurd rfl hdirectory
  | entryRefused => cases hsucceeds
  | bufferRefused => cases hsucceeds
  | copiesRefused => cases hsucceeds
  | called hindex hmapped hlength hgranted hgrants =>
    have hall := hgrants 0
    rw [Nat.zero_add] at hall
    exact hall

/-- The blocks that a pass leaves behind are those of modules that are not listed. -/
theorem releasesListed_iff (active : PostponedTls → Bool) :
    let released := (s.process.mmpPostponedTlsList.getD []).filter fun item => !active item
    (∀ b ∈ released.flatMap (unlistedSlots s.process.mmp), b = 0) ↔
      ReleasesListed s (.workerPass active) := by
  intro released
  constructor
  · intro hall item hitem hactive k hk hunlisted
    apply hall
    apply List.mem_flatMap.mpr
    refine ⟨item, List.mem_filter.mpr ⟨hitem, by simp [hactive]⟩, ?_⟩
    apply List.mem_map_of_mem
    apply List.mem_filter.mpr
    exact ⟨hk, by simpa using hunlisted⟩
  · intro hlisted b hb
    obtain ⟨item, hitem, hslot⟩ := List.mem_flatMap.mp hb
    obtain ⟨hqueued, hactive⟩ := List.mem_filter.mp hitem
    obtain ⟨k, hk, rfl⟩ := List.mem_map.mp hslot
    obtain ⟨hmodule, hunlisted⟩ := List.mem_filter.mp hk
    exact hlisted item hqueued (by simpa using hactive) k hmodule (by simpa using hunlisted)

/-- A step without a failing call leaves blocks behind exactly when it is a pass
of the worker over a slot of a module that is not listed. -/
theorem Ledger.dataStep (h : Ledger start leaked s) (hall : AllRecorded s.process)
    {step : DataStep} (hpossible : NoCallFails s step) :
    ∃ lost, (Ledger start (leaked ++ lost) (dataStep s step) ∧
      AllRecorded (dataStep s step).process) ∧ ((∀ b ∈ lost, b = 0) ↔ ReleasesListed s step) := by
  obtain ⟨hsucceeds, hallowed⟩ := hpossible
  cases step with
  | start clientId tlsVector data =>
    have hstarted := h.ntdllStart hallowed
    refine ⟨[], ⟨?_, hall.startThread hstarted.table.ids hsucceeds⟩, iff_of_true (by simp) trivial⟩
    rw [List.append_nil]
    exact hstarted.threadStart clientId
  | exit clientId frees =>
    refine ⟨[], ⟨?_, hall.exitThread clientId frees⟩, iff_of_true (by simp) trivial⟩
    rw [List.append_nil]
    exact h.threadExit hallowed
  | load status served indexMapped tlsDirectory moduleEntry =>
    have hrecorded : ∀ t ∈ served, Recorded s.process.mmp.mmpThreadLocalStoragePointer t := by
      intro t ht
      obtain ⟨hteb, hptr⟩ := hallowed.threads t ht
      obtain ⟨r, hr, hid⟩ := hall t.teb hteb hptr
      exact ⟨r, hr, hid, h.recorded_vector hteb hr hid⟩
    refine ⟨[], ⟨?_, ?_⟩, iff_of_true (by simp) trivial⟩
    · rw [List.append_nil]
      have hload := h.load hallowed moduleEntry fun _ : CallsKernel status indexMapped tlsDirectory
        s.process.mmp => hrecorded
      rcases hload with hafter | ⟨buffer, _, hdirectory, hrefused⟩
      · exact hafter
      · rw [mmpHandleTlsData_granted hdirectory hsucceeds] at hrefused
        cases hrefused
    · intro teb hteb hptr
      obtain ⟨r, hr, hid⟩ := hall teb hteb hptr
      refine ⟨r, ?_, hid⟩
      have hrecords := mmpHandleTlsData_records h.registry status served indexMapped tlsDirectory
        moduleEntry
      rw [← hrecords] at hr
      exact hr
  | unload moduleEntry =>
    refine ⟨[], ⟨?_, ?_⟩, iff_of_true (by simp) trivial⟩
    · rw [List.append_nil]
      exact h.unload moduleEntry
    · intro teb hteb hptr
      obtain ⟨r, hr, hid⟩ := hall teb hteb hptr
      refine ⟨r, ?_, hid⟩
      rw [← (mmpReleaseTlsEntry_records moduleEntry s.process.mmp).1] at hr
      exact hr
  | workerPass active =>
    refine ⟨_, ⟨h.workerPass active, ?_⟩, releasesListed_iff active⟩
    change AllRecorded (mmpReleasePostponedTlsWorker active s.process)
    rcases mmpReleasePostponedTlsWorker_cases active s.process with ⟨_, hrun⟩ | ⟨_, _, hrun⟩
    · rw [hrun]
      exact hall
    · rw [hrun]
      exact hall

end Steps

/-- The initialization makes a record for every thread that has a vector. -/
theorem mmpTlsInitialize_allRecorded {status : NtStatus} {served : List ServedThread}
    {spi spi' : Option (List SystemThread)} {clientId : Nat} {process start : TlsProcess}
    (hinit : mmpTlsInitialize (replaceVectorAnswer status served) spi spi' clientId process =
      .ok start)
    (hbefore : Uninitialized process)
    (hserves : ServesThreads served (mmpGetThreadCount spi').toNat process)
    (hserved : ∀ teb ∈ process.threads, teb.threadLocalStoragePointer ≠ 0 →
      teb ∈ served.map ServedThread.teb)
    (hgrants : process.mmp.heap.grants 2 = true) (hstatus : ntSuccess status = true) :
    AllRecorded start := by
  rcases mmpTlsInitialize_cases hinit hbefore hserves with
    ⟨hreason, _⟩ | ⟨ready, tlsVectorLength, vectors, records, heap, h, rfl⟩
  · rcases hreason with hrefused | hfailed
    · rw [hgrants] at hrefused
      cases hrefused
    · rw [hstatus] at hfailed
      cases hfailed
  · intro teb hteb hptr
    let request := vectorRequest tlsVectorLength vectors.length vectors
    rcases mem_processTlsReplaceVector h.tebs h.serves.elements hteb with ⟨hold, hnot⟩ |
      ⟨t, ht, rfl⟩
    · rw [h.threads] at hold
      obtain ⟨t, ht, heq⟩ := List.mem_map.mp (hserved teb hold hptr)
      exact absurd (congrArg Teb.clientId heq) (hnot t ht)
    · obtain ⟨r, hr, hid⟩ := h.inserted.record (h.serves.lt t ht)
      have hdata := (processTlsReplaceVector_served h.tebs h.serves.elements request
        ready.mmp.slots ht).1
      rw [hdata] at hid
      exact ⟨r, hr, hid⟩

/-- What is live and not of others belongs to a live thread: it is its vector, or
its record holds it. A record is that of a live thread, or of none. -/
structure ExitedFreed (s : ProcessState) : Prop where
  records : ∀ r ∈ s.process.mmp.mmpThreadLocalStoragePointer,
    r.uniqueThread = 0 ∨ ∃ teb ∈ s.process.threads, teb.clientId = r.uniqueThread
  freed : ∀ b ≠ 0, b ∈ s.process.mmp.heap.live → b ∈ s.otherBlocks ∨
    b ∈ threadVectors s.process.threads ∨
    b ∈ s.process.mmp.mmpThreadLocalStoragePointer.flatMap (recordBlocks s.process.mmp.slots)

/-- Without modules and with the queue drained, the blocks of the exited threads
are freed when nothing has leaked. -/
theorem Ledger.exitedFreed_iff {start : Heap} {leaked : List Nat} {s : ProcessState}
    (h : Ledger start leaked s) (hlist : s.process.mmp.mmpTlsList = [])
    (hqueue : s.process.mmpPostponedTlsList = some []) :
    ExitedFreed s ↔ ∀ b ∈ leaked, b = 0 := by
  have hcount : ∀ b ≠ 0, s.otherBlocks.count b + (threadVectors s.process.threads).count b +
      (s.process.mmp.mmpThreadLocalStoragePointer.flatMap
        (recordBlocks s.process.mmp.slots)).count b + leaked.count b =
          s.process.mmp.heap.live.count b := by
    intro b hb
    have haccounts := h.accounts b hb
    rw [count_owned, hlist, hqueue] at haccounts
    change s.otherBlocks.count b + (0 + _ + _ + 0) + _ = _ at haccounts
    omega
  constructor
  · intro hfreed b hb
    apply Decidable.byContradiction
    intro hne
    have hsum := hcount b hne
    have honce := h.single b hne
    have hleak := List.count_pos_iff.mpr hb
    have hlive : b ∈ s.process.mmp.heap.live := List.count_pos_iff.mp (by omega)
    rcases hfreed.freed b hne hlive with hother | hvector | hrecord
    · have hpos := List.count_pos_iff.mpr hother
      omega
    · have hpos := List.count_pos_iff.mpr hvector
      omega
    · have hpos := List.count_pos_iff.mpr hrecord
      omega
  · intro hclean
    constructor
    · intro r hr
      rcases h.table.recorded r hr with ⟨hzero, _⟩ | hteb
      · exact Or.inl hzero
      · exact Or.inr ⟨_, hteb, rfl⟩
    · intro b hb hlive
      have hsum := hcount b hb
      have hpos := List.count_pos_iff.mpr hlive
      have hnone : leaked.count b = 0 :=
        List.count_eq_zero.mpr fun hmem => hb (hclean b hmem)
      rcases Nat.eq_zero_or_pos (s.otherBlocks.count b) with hother | hother
      · apply Or.inr
        rcases Nat.eq_zero_or_pos ((threadVectors s.process.threads).count b) with
          hvector | hvector
        · exact Or.inr (List.count_pos_iff.mp (by omega))
        · exact Or.inl (List.count_pos_iff.mp hvector)
      · exact Or.inl (List.count_pos_iff.mp hother)

/-- In a run without a failing call no block is freed that is not live. Once all
modules are unloaded and the queue is drained, the blocks of the threads that have
exited are freed exactly when the worker found, in each pass, every block of the
copies that it released at the index of a listed module. -/
theorem dataBlocks_freedOnce_iff (status : NtStatus) (served : List ServedThread)
    (spi spi' : Option (List SystemThread)) (clientId : Nat) (process start : TlsProcess)
    (hinit : mmpTlsInitialize (replaceVectorAnswer status served) spi spi' clientId process =
      .ok start)
    (hgrants : process.mmp.heap.grants 2 = true) (hstatus : ntSuccess status = true)
    (hbefore : Uninitialized process)
    (hserves : ServesThreads served (mmpGetThreadCount spi').toNat process)
    (hserved : ∀ teb ∈ process.threads, teb.threadLocalStoragePointer ≠ 0 →
      teb ∈ served.map ServedThread.teb)
    (steps : List DataStep)
    (hsteps : Runs.Admissible dataStep NoCallFails (initialState start) steps) :
    let s := steps.foldl dataStep (initialState start)
    Balanced start.mmp.heap s.process.mmp.heap ∧
      (s.process.mmp.mmpTlsList = [] → s.process.mmpPostponedTlsList = some [] →
        (ExitedFreed s ↔
          Runs.Admissible dataStep ReleasesListed (initialState start) steps)) := by
  intro s
  have hledger := mmpTlsInitialize_ledger hinit hbefore hserves
  have hall : AllRecorded (initialState start).process :=
    mmpTlsInitialize_allRecorded hinit hbefore hserves hserved hgrants hstatus
  have hstep : ∀ s leaked step, Ledger start.mmp.heap leaked s ∧ AllRecorded s.process →
      NoCallFails s step → ∃ lost, (Ledger start.mmp.heap (leaked ++ lost) (dataStep s step) ∧
        AllRecorded (dataStep s step).process) ∧
          ((∀ b ∈ lost, b = 0) ↔ ReleasesListed s step) := by
    rintro s leaked step ⟨h, hrecorded⟩ hpossible
    exact h.dataStep hrecorded hpossible
  obtain ⟨leaked, ⟨hend, _⟩, hclean⟩ := Runs.accounts hstep ⟨hledger, hall⟩ hsteps
  rw [List.nil_append] at hend
  refine ⟨hend.balanced, ?_⟩
  intro hlist hqueue
  exact (hend.exitedFreed_iff hlist hqueue).trans hclean

/-- The module is unloaded before its thread exits. The worker does not find the
block of the thread any more, and it is never freed. -/
theorem dataBlocks_unloadedFirst :
    let process := oneThread ([0x2000, 0x3000, 0x4000, 0x5000, 0x6000].map some ++
      [0x8000, 0x8800, 0x9000, 0x9800, 0x9c00].map some)
    let spi := [⟨true, true, 0x1010⟩]
    let start := oneThreadReplaced spi ([0x8000, 0x8800, 0x9000, 0x9800, 0x9c00].map some)
    let steps := [DataStep.load statusSuccess [⟨⟨4, 0x4010⟩, 0, 1⟩] true
        (some ⟨0xa000, 0xa008, 0xb000, 0, 0, 0⟩) 0xc000,
      .unload 0xc000, .exit 4 [], .workerPass fun _ => false]
    let s := steps.foldl dataStep (initialState start)
    mmpTlsInitialize (replaceVectorAnswer statusSuccess oneThreadServed) (some spi)
        (some spi) 4 process = .ok start ∧
      Uninitialized process ∧ ServesThreads oneThreadServed 1 process ∧
      Runs.Admissible dataStep NoCallFails (initialState start) steps ∧
      s.process.threads = [] ∧ s.process.mmp.mmpTlsList = [] ∧
      s.process.mmpPostponedTlsList = some [] ∧ s.process.mmp.heap.frees 0x9000 = 0 ∧
      ¬ ExitedFreed s := by
  intro process spi start steps s
  let loaded := (steps.take 1).foldl dataStep (initialState start)
  let unloaded := (steps.take 2).foldl dataStep (initialState start)
  have hserves : ServesThreads [⟨⟨4, 0x4010⟩, 0, 1⟩]
      (initialState start).process.mmp.mmpActiveThreadCount.toNat (initialState start).process := by
    constructor
    all_goals decide +kernel
  have hexits : ExitsWith 4 [] unloaded := by
    constructor
    · decide +kernel
    · exact List.nodup_nil
    · simp
    · simp
  have hload : Succeeds (initialState start) (.load statusSuccess [⟨⟨4, 0x4010⟩, 0, 1⟩] true
      (some ⟨0xa000, 0xa008, 0xb000, 0, 0, 0⟩) 0xc000) := by
    change _ = true
    decide +kernel
  have hexit : Succeeds unloaded (.exit 4 []) := by
    change _ = true
    decide +kernel
  have hlive : 0x9000 ∈ s.process.mmp.heap.live := by decide +kernel
  refine ⟨rfl, oneThread_uninitialized _, oneThread_served _,
    ⟨⟨hload, hserves⟩, ⟨trivial, trivial⟩, ⟨hexit, hexits⟩, ⟨trivial, trivial⟩, trivial⟩,
    by decide +kernel, by decide +kernel, by decide +kernel, by decide +kernel, ?_⟩
  intro hfreed
  have hothers : 0x9000 ∉ s.otherBlocks := by decide +kernel
  have hvectors : 0x9000 ∉ threadVectors s.process.threads := by decide +kernel
  have hrecords : 0x9000 ∉ s.process.mmp.mmpThreadLocalStoragePointer.flatMap
      (recordBlocks s.process.mmp.slots) := by decide +kernel
  rcases hfreed.freed 0x9000 (by decide) hlive with hother | hvector | hrecord
  · exact hothers hother
  · exact hvectors hvector
  · exact hrecords hrecord

/-- The thread exits first, and the worker passes before the module is unloaded. -/
theorem dataBlocks_exitedFirst :
    let start := oneThreadReplaced [⟨true, true, 0x1010⟩] ([0x8000, 0x8800, 0x9000, 0x9800,
      0x9c00].map some)
    let steps := [DataStep.load statusSuccess [⟨⟨4, 0x4010⟩, 0, 1⟩] true
        (some ⟨0xa000, 0xa008, 0xb000, 0, 0, 0⟩) 0xc000,
      .exit 4 [], .workerPass fun _ => false, .unload 0xc000]
    ExitedFreed (steps.foldl dataStep (initialState start)) := by
  intro start steps
  let process := oneThread ([0x2000, 0x3000, 0x4000, 0x5000, 0x6000].map some ++
    [0x8000, 0x8800, 0x9000, 0x9800, 0x9c00].map some)
  let loaded := (steps.take 1).foldl dataStep (initialState start)
  have hinit : mmpTlsInitialize (replaceVectorAnswer statusSuccess oneThreadServed)
      (some [⟨true, true, 0x1010⟩]) (some [⟨true, true, 0x1010⟩]) 4 process = .ok start := rfl
  have hserves : ServesThreads [⟨⟨4, 0x4010⟩, 0, 1⟩]
      (initialState start).process.mmp.mmpActiveThreadCount.toNat (initialState start).process := by
    constructor
    all_goals decide +kernel
  have hexits : ExitsWith 4 [] loaded := by
    constructor
    · decide +kernel
    · exact List.nodup_nil
    · simp
    · simp
  have hload : Succeeds (initialState start) (.load statusSuccess [⟨⟨4, 0x4010⟩, 0, 1⟩] true
      (some ⟨0xa000, 0xa008, 0xb000, 0, 0, 0⟩) 0xc000) := by
    change _ = true
    decide +kernel
  have hexit : Succeeds loaded (.exit 4 []) := by
    change _ = true
    decide +kernel
  have hserved : ∀ teb ∈ process.threads, teb.threadLocalStoragePointer ≠ 0 →
      teb ∈ oneThreadServed.map ServedThread.teb := by
    intro teb hteb _
    exact hteb
  have hiff := (dataBlocks_freedOnce_iff _ _ _ _ _ _ _ hinit rfl rfl (oneThread_uninitialized _)
    (oneThread_served _) hserved steps
    ⟨⟨hload, hserves⟩, ⟨hexit, hexits⟩, ⟨trivial, trivial⟩, ⟨trivial, trivial⟩, trivial⟩).2
  apply (hiff (by decide +kernel) (by decide +kernel)).mpr
  refine ⟨trivial, trivial, ?_, trivial, trivial⟩
  change ∀ item ∈ _, _
  decide +kernel

end WinPolyfillLoader.MmpTls
