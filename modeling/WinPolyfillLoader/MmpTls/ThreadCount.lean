import WinPolyfillLoader.MmpTls.ProcessRun
import WinPolyfillLoader.MmpTls.NewThreadData
import Mathlib.Data.List.Perm.Subperm

/-!
The counter of active threads and the list of records. The counter is edited in
four functions, and not always when the list is: a thread start that breaks off
leaves its record uncounted, and a load counts off every thread that the kernel
did not serve, without a look at the records.
-/

namespace WinPolyfillLoader.MmpTls

open ProcessHeap Runs

/-- The counter is the number of records, and no two are of one thread. -/
structure CountsRecords (mmp : MmpState) : Prop where
  count : mmp.mmpActiveThreadCount.toNat = mmp.mmpThreadLocalStoragePointer.length
  distinct : (mmp.mmpThreadLocalStoragePointer.map TlspRecord.uniqueThread).Nodup

/-- A thread identifier is a multiple of four with 32 bits. -/
def IsThreadId (clientId : Nat) : Prop := clientId % 4 = 0 ∧ clientId < 2 ^ 32

structure ReachesCall (indexMapped : Bool) (tlsDirectory : Option ImageTlsDirectory)
    (state : MmpState) : Prop where
  directory : tlsDirectory ≠ none
  mapped : indexMapped = true
  index : ∃ k < mmpMaximumTlsIndex, state.mmpTlsBitmap k = false
  grants : state.heap.grants (state.mmpActiveThreadCount.toNat + 2) = true

/-- The steps that edit the counter and the records alike. A start that gets its
two blocks also gets a block for every template, and a load that gets as far as
its request has every element of it served. -/
def KeepsCount (s : ProcessState) : ProcessStep → Prop
  | .threadStart clientId =>
      NeedsVector clientId s.process → s.process.mmp.heap.grants 2 = true →
        (∀ e ∈ s.process.mmp.mmpTlsList, e.length ≠ 0) ∧
          s.process.mmp.heap.grants (s.process.mmp.mmpTlsList.length + 2) = true
  | .load status served indexMapped tlsDirectory _ =>
      ReachesCall indexMapped tlsDirectory s.process.mmp →
        ∀ i < s.process.mmp.mmpActiveThreadCount.toNat,
          s.process.mmp.heap.grants (s.process.mmp.mmpActiveThreadCount.toNat + 3) = true ∧
            ntSuccess status = true ∧ servedFlags served i ≠ 0
  | _ => True

def StartsThread : ProcessStep → Prop
  | .threadStart clientId => IsThreadId clientId
  | _ => True

/-- Records of threads, and a bitmap that the list describes. -/
structure Countable (mmp : MmpState) : Prop where
  registry : RegistryDescribes mmp
  threads : ∀ r ∈ mmp.mmpThreadLocalStoragePointer, IsThreadId r.uniqueThread

theorem length_lt_of_threadIds {ids : List Nat} (hdistinct : ids.Nodup)
    (hids : ∀ id ∈ ids, IsThreadId id) : ids.length < 2 ^ 32 - 1 := by
  have hquarters : (ids.map (· / 4)).Nodup := by
    apply hdistinct.map_on
    intro id hid id' hid' heq
    have hfour := (hids id hid).1
    have hfour' := (hids id' hid').1
    omega
  have hsubset : ids.map (· / 4) ⊆ List.range (2 ^ 30) := by
    intro k hk
    obtain ⟨id, hid, rfl⟩ := List.mem_map.mp hk
    have hlt := (hids id hid).2
    rw [List.mem_range]
    omega
  have hle := (List.Nodup.subperm hquarters hsubset).length_le
  rw [List.length_map, List.length_range] at hle
  omega

theorem sub_ofNat_eq_self {count : Dword} {n : Nat} (hle : n ≤ count.toNat) :
    count - BitVec.ofNat 32 n = count ↔ n = 0 := by
  have hlt := count.isLt
  constructor
  · intro heq
    bv_omega
  · intro heq
    rw [heq]
    exact BitVec.sub_zero _

theorem requestAndRelease_count (status : NtStatus) (served : List ServedThread) (buffer : Nat)
    {index : Nat} {blocks : List Nat} {state : MmpState} (hstart : mmpStartTlsIndex ≤ index)
    (hlt : index < mmpMaximumTlsIndex)
    (hlength : blocks.length = state.mmpActiveThreadCount.toNat) :
    let after := (requestAndRelease (replaceIndexAnswer status served) index buffer blocks state).2
    after.mmpThreadLocalStoragePointer = state.mmpThreadLocalStoragePointer ∧
      (after.mmpActiveThreadCount = state.mmpActiveThreadCount ↔
        ∀ i < state.mmpActiveThreadCount.toNat, state.heap.grants 1 = true ∧
          ntSuccess status = true ∧ servedFlags served i ≠ 0) := by
  rcases requestAndRelease_cases status served buffer hstart hlt hlength with
    ⟨heap, _, hreason, hrun⟩ | ⟨heap, _, hgrant, hstatus, hrun⟩
  · rw [hrun]
    refine ⟨rfl, ?_⟩
    constructor
    · intro hzero i hi
      have hcount : (0 : Dword) = state.mmpActiveThreadCount := hzero
      rw [← hcount] at hi
      exact absurd hi (Nat.not_lt_zero i)
    · intro hserved
      apply BitVec.eq_of_toNat_eq
      change 0 = state.mmpActiveThreadCount.toNat
      by_contra hne
      obtain ⟨hgrant, hstatus, _⟩ := hserved 0 (Nat.pos_of_ne_zero (Ne.symm hne))
      rcases hreason with hrefused | hrefused
      · rw [hgrant] at hrefused
        cases hrefused
      · rw [hstatus] at hrefused
        cases hrefused
  · rw [hrun]
    refine ⟨rfl, (sub_ofNat_eq_self ?_).trans ?_⟩
    · have hle := List.countP_le_length (p := fun i => servedFlags served i == 0)
        (l := List.range state.mmpActiveThreadCount.toNat)
      rw [List.length_range] at hle
      exact hle
    · rw [List.countP_eq_zero]
      simp [hgrant, hstatus]

theorem CountsRecords.congr {before after : MmpState} (h : CountsRecords before)
    (hrecords : after.mmpThreadLocalStoragePointer = before.mmpThreadLocalStoragePointer)
    (hcount : after.mmpActiveThreadCount = before.mmpActiveThreadCount) : CountsRecords after := by
  constructor
  · rw [hcount, hrecords]
    exact h.count
  · rw [hrecords]
    exact h.distinct

theorem CountsRecords.same_records {before after : MmpState} (h : CountsRecords before)
    (hrecords : after.mmpThreadLocalStoragePointer = before.mmpThreadLocalStoragePointer) :
    CountsRecords after ↔ after.mmpActiveThreadCount = before.mmpActiveThreadCount := by
  constructor
  · intro hafter
    apply BitVec.eq_of_toNat_eq
    rw [hafter.count, h.count, hrecords]
  · exact h.congr hrecords

theorem mmpReleaseTlsEntry_records (moduleEntry : Nat) (state : MmpState) :
    let after := mmpReleaseTlsEntry moduleEntry state
    after.mmpThreadLocalStoragePointer = state.mmpThreadLocalStoragePointer ∧
      after.mmpActiveThreadCount = state.mmpActiveThreadCount := by
  intro after
  have hafter : after = mmpReleaseTlsEntry moduleEntry state := rfl
  rcases mmpReleaseTlsEntry_cases moduleEntry state with hsame | ⟨_, e, _, _, _, hrun⟩
  · rw [hafter, hsame]
    exact ⟨rfl, rfl⟩
  · rw [hafter, hrun]
    exact ⟨rfl, rfl⟩

section Step

variable {s : ProcessState}

theorem load_countsRecords (h : CountsRecords s.process.mmp) (hregistry : RegistryDescribes s.process.mmp)
    (status : NtStatus) (served : List ServedThread) (indexMapped : Bool)
    (tlsDirectory : Option ImageTlsDirectory) (moduleEntry : Nat) :
    let step := ProcessStep.load status served indexMapped tlsDirectory moduleEntry
    (processStep s step).process.mmp.mmpThreadLocalStoragePointer =
        s.process.mmp.mmpThreadLocalStoragePointer ∧
      (CountsRecords (processStep s step).process.mmp ↔ KeepsCount s step) := by
  let state := s.process.mmp
  let count := state.mmpActiveThreadCount.toNat
  have hexits := mmpHandleTlsData_exits (replaceIndexAnswer status served) indexMapped tlsDirectory
    moduleEntry state
  simp only [processStep, KeepsCount]
  generalize mmpHandleTlsData (replaceIndexAnswer status served) indexMapped tlsDirectory
    moduleEntry s.process.mmp = result at hexits ⊢
  -- a load that ends before its request changes neither side
  have hearly : ∀ after : MmpState,
      after.mmpThreadLocalStoragePointer = state.mmpThreadLocalStoragePointer ∧
        after.mmpActiveThreadCount = state.mmpActiveThreadCount →
      ¬ ReachesCall indexMapped tlsDirectory state →
      after.mmpThreadLocalStoragePointer = state.mmpThreadLocalStoragePointer ∧
        (CountsRecords after ↔ (ReachesCall indexMapped tlsDirectory state →
          ∀ i < count, state.heap.grants (count + 3) = true ∧ ntSuccess status = true ∧
            servedFlags served i ≠ 0)) := by
    rintro after ⟨hrecords, hcount⟩ hends
    refine ⟨hrecords, iff_of_true ((h.same_records hrecords).mpr hcount) ?_⟩
    exact fun hreaches => absurd hreaches hends
  have hrefused : ∀ {n}, n ≤ count + 2 → state.heap.grants n = false →
      ¬ ReachesCall indexMapped tlsDirectory state := by
    intro n hle hrefused hreaches
    rw [grants_of_le hle hreaches.grants] at hrefused
    cases hrefused
  cases hexits with
  | noDirectory => exact hearly state ⟨rfl, rfl⟩ fun hreaches => hreaches.directory rfl
  | entryRefused _ hreason =>
    refine hearly _ ⟨rfl, rfl⟩ ?_
    rcases hreason with hmapped | hheap | hfull
    · intro hreaches
      rw [hreaches.mapped] at hmapped
      cases hmapped
    · exact hrefused (Nat.le_add_left 1 (count + 1)) hheap
    · intro hreaches
      obtain ⟨k, hk, hclear⟩ := hreaches.index
      rw [hfull k hk] at hclear
      cases hclear
  | bufferRefused _ _ hreason =>
    exact hearly _ (mmpReleaseTlsEntry_records moduleEntry _)
      (hrefused (Nat.le_add_left 2 count) hreason)
  | copiesRefused _ _ _ _ _ hreason =>
    exact hearly _ (mmpReleaseTlsEntry_records moduleEntry _)
      (hrefused (Nat.le_refl (count + 2)) hreason)
  | called hindex hmapped hlength hgranted hgrants =>
    rename_i tlsDirectory index entry buffer heap memory blocks
    have hstart := hregistry.start_le hindex
    obtain ⟨hrecords, hcount⟩ := requestAndRelease_count status served buffer
      hstart hindex.lt (show blocks.length =
        (registered tlsDirectory moduleEntry index entry heap memory state).mmpActiveThreadCount.toNat
          from hlength)
    refine ⟨hrecords, (h.same_records hrecords).trans (hcount.trans ?_)⟩
    have hreaches : ReachesCall indexMapped (some tlsDirectory) state := by
      constructor
      · simp
      · exact hmapped
      · exact ⟨index, hindex.lt, hindex.clear⟩
      · have hall := hgrants 0
        rw [Nat.zero_add] at hall
        exact hall
    have hcall : state.heap.grants (count + 3) = heap.grants 1 := by
      rw [← hgrants 1]
      congr 1
      omega
    rw [hcall]
    exact ⟨fun hserved _ => hserved, fun hserved => hserved hreaches⟩

theorem started_countsRecords (h : CountsRecords s.process.mmp)
    (hids : ∀ r ∈ s.process.mmp.mmpThreadLocalStoragePointer, IsThreadId r.uniqueThread)
    {clientId : Nat}
    (hnew : ∀ r ∈ s.process.mmp.mmpThreadLocalStoragePointer, r.uniqueThread ≠ clientId)
    (record tlsVector : Nat) (blocks : List Nat) (heap : Heap) :
    CountsRecords (started clientId record tlsVector blocks heap s.process).mmp ↔
      blocks.length = s.process.mmp.mmpTlsList.length := by
  let after := (started clientId record tlsVector blocks heap s.process).mmp
  have hrecords : after.mmpThreadLocalStoragePointer =
      s.process.mmp.mmpThreadLocalStoragePointer ++ [⟨record, clientId,
        threadPointer s.process.threads clientId, moduleTlsData tlsVector⟩] := rfl
  have hlength : after.mmpThreadLocalStoragePointer.length =
      s.process.mmp.mmpThreadLocalStoragePointer.length + 1 := by
    rw [hrecords, List.length_append]
    rfl
  constructor
  · intro hafter
    by_contra hne
    have hsame : after.mmpActiveThreadCount = s.process.mmp.mmpActiveThreadCount := if_neg hne
    have hcount := hafter.count
    rw [hsame, h.count, hlength] at hcount
    omega
  · intro heq
    have hmore : after.mmpActiveThreadCount = s.process.mmp.mmpActiveThreadCount + 1 :=
      if_pos heq
    constructor
    · have hlt := length_lt_of_threadIds h.distinct (by simpa using hids)
      rw [List.length_map, ← h.count] at hlt
      rw [hmore, hlength, ← h.count]
      bv_omega
    · rw [hrecords, List.map_append]
      apply List.nodup_append.mpr
      refine ⟨h.distinct, List.pairwise_singleton _ _, ?_⟩
      intro id hid id' hid'
      obtain ⟨r, hr, rfl⟩ := List.mem_map.mp hid
      rw [List.mem_singleton.mp hid']
      exact hnew r hr

theorem threadStart_countsRecords (h : CountsRecords s.process.mmp)
    (hids : ∀ r ∈ s.process.mmp.mmpThreadLocalStoragePointer, IsThreadId r.uniqueThread)
    (clientId : Nat) :
    CountsRecords (processStep s (.threadStart clientId)).process.mmp ↔
      KeepsCount s (.threadStart clientId) := by
  have hexits := mmpAllocateTlsLockHeld_exits clientId s.process
  simp only [processStep, KeepsCount]
  generalize mmpAllocateTlsLockHeld clientId s.process = result at hexits ⊢
  cases hexits with
  | skipped hskip => exact iff_of_true h fun hneeds => absurd hneeds hskip
  | refused _ _ hreason =>
    apply iff_of_true
    · exact h.congr rfl rfl
    · intro _ hgrants
      rw [hreason] at hgrants
      cases hgrants
  | installed hneeds hgranted hnext hle hfull hshort =>
    rename_i record tlsVector blocks heap
    have hgrants : s.process.mmp.heap.grants (blocks.length + 2) = true := by
      apply grants_of_next
      rw [hnext]
      simp
    have htwo : s.process.mmp.heap.grants 2 = true :=
      grants_of_le (Nat.le_add_left 2 blocks.length) hgrants
    have hcounted := started_countsRecords h hids hneeds.2 record tlsVector blocks heap
    apply hcounted.trans
    constructor
    · intro heq _ _
      rw [heq, List.take_length] at hfull
      exact ⟨hfull, heq ▸ hgrants⟩
    · intro hkeeps
      obtain ⟨htemplates, hall⟩ := hkeeps hneeds htwo
      by_contra hne
      obtain ⟨e, hget, hempty⟩ := hshort (Nat.lt_of_le_of_ne hle hne) hall
      exact htemplates e (List.mem_of_getElem? hget) hempty

theorem threadExit_countsRecords (h : CountsRecords s.process.mmp) (clientId : Nat)
    (frees : List Nat) :
    CountsRecords (processStep s (.threadExit clientId frees)).process.mmp ∧
      (processStep s (.threadExit clientId frees)).process.mmp.mmpThreadLocalStoragePointer.Sublist
        s.process.mmp.mmpThreadLocalStoragePointer := by
  rcases hookLdrShutdownThread_cases clientId s.process with
    ⟨hrun, _⟩ | ⟨older, record, younger, hlist, hrecord, ⟨hrun, _⟩ | ⟨tlsVector, heap, _, _, hrun⟩⟩
  · simp only [processStep, hrun]
    exact ⟨h.congr rfl rfl, List.Sublist.refl _⟩
  · simp only [processStep, hrun]
    exact ⟨h, List.Sublist.refl _⟩
  · simp only [processStep, hrun]
    have hsublist : (older ++ younger).Sublist s.process.mmp.mmpThreadLocalStoragePointer := by
      rw [hlist]
      exact (List.sublist_cons_self record younger).append_left older
    refine ⟨?_, hsublist⟩
    constructor
    · have hcount := h.count
      rw [hlist, List.length_append, List.length_cons] at hcount
      change (s.process.mmp.mmpActiveThreadCount - 1).toNat = (older ++ younger).length
      rw [List.length_append]
      bv_omega
    · exact h.distinct.sublist (hsublist.map _)

/-- A step keeps the records counted exactly when it edits counter and records
alike. -/
theorem step_countsRecords (hcountable : Countable s.process.mmp)
    (h : CountsRecords s.process.mmp) (step : ProcessStep) :
    CountsRecords (processStep s step).process.mmp ↔ KeepsCount s step := by
  cases step with
  | ntdllStart clientId tlsVector data => exact iff_of_true (h.congr rfl rfl) trivial
  | threadStart clientId => exact threadStart_countsRecords h hcountable.threads clientId
  | threadExit clientId frees =>
    exact iff_of_true (threadExit_countsRecords h clientId frees).1 trivial
  | load status served indexMapped tlsDirectory moduleEntry =>
    exact (load_countsRecords h hcountable.registry status served indexMapped tlsDirectory
      moduleEntry).2
  | unload moduleEntry =>
    obtain ⟨hrecords, hcount⟩ := mmpReleaseTlsEntry_records moduleEntry s.process.mmp
    exact iff_of_true (h.congr hrecords hcount) trivial
  | workerPass active =>
    refine iff_of_true ?_ trivial
    rcases mmpReleasePostponedTlsWorker_cases active s.process with ⟨_, hrun⟩ | ⟨items, _, hrun⟩
    · simp only [processStep, hrun]
      exact h
    · simp only [processStep, hrun]
      exact h.congr rfl rfl

/-- Every step keeps the list, the bitmap and the identifiers of the records in
order. -/
theorem Countable.step (hcountable : Countable s.process.mmp) (h : CountsRecords s.process.mmp)
    {step : ProcessStep} (hthread : StartsThread step) :
    Countable (processStep s step).process.mmp := by
  have hkeeps : ∀ {after : MmpState}, SameIndexes s.process.mmp after →
      after.mmpThreadLocalStoragePointer ⊆ s.process.mmp.mmpThreadLocalStoragePointer →
      Countable after := by
    intro after hsame hrecords
    exact ⟨hcountable.registry.congr hsame, fun r hr => hcountable.threads r (hrecords hr)⟩
  cases step with
  | ntdllStart clientId tlsVector data => exact hkeeps ⟨rfl, rfl⟩ (List.Subset.refl _)
  | threadStart clientId =>
    have hexits := mmpAllocateTlsLockHeld_exits clientId s.process
    simp only [processStep]
    generalize mmpAllocateTlsLockHeld clientId s.process = result at hexits ⊢
    cases hexits with
    | skipped => exact hcountable
    | refused => exact hkeeps ⟨rfl, rfl⟩ (List.Subset.refl _)
    | installed =>
      constructor
      · exact hcountable.registry.congr ⟨rfl, rfl⟩
      · intro r hr
        rcases List.mem_append.mp hr with hr | hr
        · exact hcountable.threads r hr
        · rw [List.mem_singleton.mp hr]
          exact hthread
  | threadExit clientId frees =>
    have hsubset := (threadExit_countsRecords h clientId frees).2.subset
    refine hkeeps ?_ hsubset
    rcases hookLdrShutdownThread_cases clientId s.process with
      ⟨hrun, _⟩ | ⟨_, record, _, _, _, ⟨hrun, _⟩ | ⟨tlsVector, heap, _, _, hrun⟩⟩
    · simp only [processStep, hrun]
      exact ⟨rfl, rfl⟩
    · simp only [processStep, hrun]
      exact ⟨rfl, rfl⟩
    · simp only [processStep, hrun]
      exact ⟨rfl, rfl⟩
  | load status served indexMapped tlsDirectory moduleEntry =>
    have hrecords := (load_countsRecords h hcountable.registry status served indexMapped
      tlsDirectory moduleEntry).1
    constructor
    · exact hcountable.registry.load _ indexMapped tlsDirectory moduleEntry
    · rw [hrecords]
      exact hcountable.threads
  | unload moduleEntry =>
    obtain ⟨hrecords, _⟩ := mmpReleaseTlsEntry_records moduleEntry s.process.mmp
    constructor
    · exact hcountable.registry.release moduleEntry
    · simp only [processStep]
      rw [hrecords]
      exact hcountable.threads
  | workerPass active =>
    rcases mmpReleasePostponedTlsWorker_cases active s.process with ⟨_, hrun⟩ | ⟨items, _, hrun⟩
    · simp only [processStep, hrun]
      exact hcountable
    · simp only [processStep, hrun]
      exact hkeeps ⟨rfl, rfl⟩ (List.Subset.refl _)

end Step

/-- An initialization that counts the records it makes: both snapshots count the
same threads and the kernel reports as many distinct ones, or there is none to count. -/
def InitCounts (kernel : ReplaceVectorAnswer) (spi spi' : Option (List SystemThread))
    (clientId : Nat) (process : TlsProcess) : Prop :=
  if process.mmp.heap.grants 2 = true ∧ ntSuccess kernel.status = true then
    mmpGetThreadCount spi = mmpGetThreadCount spi' ∧
      ∀ ids, reportedThreads kernel spi spi' clientId process = some ids →
        ids.Nodup ∧ ∀ id ∈ ids, IsThreadId id
  else mmpGetThreadCount spi = 0

theorem length_of_reportedThreads {kernel : ReplaceVectorAnswer}
    {spi spi' : Option (List SystemThread)} {clientId : Nat} {process : TlsProcess}
    {ids : List Nat} (h : reportedThreads kernel spi spi' clientId process = some ids) :
    ids.length = (mmpGetThreadCount spi').toNat := by
  obtain ⟨vectors, -, rfl⟩ := Option.map_eq_some_iff.mp h
  rw [List.length_map, List.length_range]

theorem InitCounts.start {kernel : ReplaceVectorAnswer} {spi spi' : Option (List SystemThread)}
    {clientId : Nat} {process start : TlsProcess}
    (hcounts : InitCounts kernel spi spi' clientId process)
    (hinit : mmpTlsInitialize kernel spi spi' clientId process = .ok start) :
    CountsRecords start.mmp ∧ Countable start.mmp := by
  have hregistry := mmpTlsInitialize_describes hinit
  obtain ⟨_, _, hcount, ⟨hnone, hreason⟩ | ⟨hgrants, hkernel, hreported⟩⟩ :=
    mmpTlsInitialize_ok hinit
  · have hrefused : ¬ (process.mmp.heap.grants 2 = true ∧ ntSuccess kernel.status = true) := by
      rintro ⟨hgrants, hkernel⟩
      rcases hreason with hrefused | hrefused
      · rw [hgrants] at hrefused
        cases hrefused
      · rw [hkernel] at hrefused
        cases hrefused
    rw [InitCounts, if_neg hrefused] at hcounts
    constructor
    · constructor
      · rw [hcount, hcounts, hnone]
        rfl
      · simp [hnone]
    · exact ⟨hregistry, by simp [hnone]⟩
  · rw [InitCounts, if_pos ⟨hgrants, hkernel⟩] at hcounts
    obtain ⟨hsame, hreports⟩ := hcounts
    obtain ⟨hdistinct, hvalid⟩ := hreports _ hreported
    have hlength := length_of_reportedThreads hreported
    rw [List.length_map] at hlength
    constructor
    · exact ⟨by rw [hcount, hsame, hlength], hdistinct⟩
    · exact ⟨hregistry, fun r hr => hvalid _ (List.mem_map_of_mem hr)⟩

/-- From an initialization that counts its records, the counter is the number of
records in every state of a run exactly when every step of the run edits the two
alike. -/
theorem activeThreadCount_counts_iff (kernel : ReplaceVectorAnswer)
    (spi spi' : Option (List SystemThread)) (clientId : Nat) (process start : TlsProcess)
    (hinit : mmpTlsInitialize kernel spi spi' clientId process = .ok start)
    (hcounts : InitCounts kernel spi spi' clientId process) (otherBlocks : List Nat)
    (steps : List ProcessStep) (hthreads : ∀ step ∈ steps, StartsThread step) :
    (∀ before later, steps = before ++ later →
      CountsRecords (before.foldl processStep ⟨start, otherBlocks⟩).process.mmp) ↔
      Admissible processStep KeepsCount ⟨start, otherBlocks⟩ steps := by
  obtain ⟨hstart, hcountable⟩ := hcounts.start hinit
  have hkeep : ∀ (s : ProcessState) (step : ProcessStep), Countable s.process.mmp →
      CountsRecords s.process.mmp → StartsThread step →
        Countable (processStep s step).process.mmp :=
    fun _ _ hcountable h hthread => hcountable.step h hthread
  have hstep : ∀ (s : ProcessState) (step : ProcessStep), Countable s.process.mmp →
      CountsRecords s.process.mmp → StartsThread step →
        (CountsRecords (processStep s step).process.mmp ↔ KeepsCount s step) :=
    fun _ step hcountable h _ => step_countsRecords hcountable h step
  exact invariant_iff hkeep hstep hcountable hstart hthreads

def oneThreadStarted (answers : List (Option Nat)) : TlsProcess :=
  match mmpTlsInitialize oneThreadAnswer (some [⟨true, true, 0x1010⟩])
      (some [⟨true, true, 0x1010⟩]) 4
      (oneThread ([0x2000, 0x3000, 0x4000, 0x5000, 0x6000].map some ++ answers)) with
  | .ok start => start
  | .error _ => oneThread []

theorem oneThreadStarted_counts (answers : List (Option Nat)) :
    InitCounts oneThreadAnswer (some [⟨true, true, 0x1010⟩]) (some [⟨true, true, 0x1010⟩]) 4
      (oneThread ([0x2000, 0x3000, 0x4000, 0x5000, 0x6000].map some ++ answers)) := by
  refine (if_pos ⟨rfl, rfl⟩).mpr ⟨rfl, ?_⟩
  intro ids hreported
  obtain rfl : [4] = ids := Option.some.inj hreported
  exact ⟨List.nodup_singleton 4, by simp [IsThreadId]⟩

/-- When the kernel refuses the request of a load, the one thread is counted off
and keeps its record. -/
theorem activeThreadCount_kernelRefuses :
    ∃ start, mmpTlsInitialize oneThreadAnswer (some [⟨true, true, 0x1010⟩])
        (some [⟨true, true, 0x1010⟩]) 4
        (oneThread ([0x2000, 0x3000, 0x4000, 0x5000, 0x6000, 0x7000, 0x8000, 0x8800, 0x9000].map
          some)) = .ok start ∧
      CountsRecords start.mmp ∧
      let refused := ProcessStep.load statusUnsuccessful [] true
        (some ⟨0xa000, 0xa008, 0xb000, 0, 0, 0⟩) 0xc000
      let after := [refused].foldl processStep ⟨start, [0x1000]⟩
      after.process.mmp.mmpActiveThreadCount = 0 ∧
        after.process.mmp.mmpThreadLocalStoragePointer.length = 1 ∧
        ¬ CountsRecords after.process.mmp := by
  refine ⟨oneThreadStarted ([0x7000, 0x8000, 0x8800, 0x9000].map some), rfl, ?_, ?_⟩
  · constructor
    · decide +kernel
    · decide +kernel
  · intro refused after
    have hcount : after.process.mmp.mmpActiveThreadCount = 0 := by decide +kernel
    have hlength : after.process.mmp.mmpThreadLocalStoragePointer.length = 1 := by decide +kernel
    refine ⟨hcount, hlength, ?_⟩
    intro h
    have hcounted := h.count
    rw [hcount, hlength] at hcounted
    cases hcounted

/-- A load that the kernel serves, the start of a second thread and its exit. -/
theorem activeThreadCount_secondThread :
    let start := oneThreadStarted ([0x7000, 0x8000, 0x8800, 0x9000, 0x9800, 0x9900, 0x9a00,
      0x9c00].map some)
    let steps := [ProcessStep.load statusSuccess [⟨⟨4, 0x4010⟩, 0, 1⟩] true
        (some ⟨0xa000, 0xa008, 0xb000, 0, 0, 0⟩) 0xc000,
      .ntdllStart 8 0xd000 [], .threadStart 8, .threadExit 8 []]
    CountsRecords (steps.foldl processStep ⟨start, [0x1000]⟩).process.mmp := by
  intro start steps
  have hthreads : ∀ step ∈ steps, StartsThread step := by
    intro step hstep
    simp only [steps, List.mem_cons, List.not_mem_nil, or_false] at hstep
    rcases hstep with rfl | rfl | rfl | rfl
    · trivial
    · trivial
    · exact ⟨rfl, by decide⟩
    · trivial
  apply (activeThreadCount_counts_iff oneThreadAnswer _ _ 4 _ start rfl (oneThreadStarted_counts _)
    [0x1000] steps hthreads).mpr ?_ steps [] rfl
  refine ⟨?_, trivial, ?_, trivial, trivial⟩
  · intro _ i hi
    have hcount : start.mmp.mmpActiveThreadCount.toNat = 1 := by decide +kernel
    obtain rfl : i = 0 := Nat.lt_one_iff.mp (hcount ▸ hi)
    exact ⟨by decide +kernel, rfl, by decide⟩
  · intro _ _
    exact ⟨by decide +kernel, by decide +kernel⟩

end WinPolyfillLoader.MmpTls
