import WinPolyfillLoader.MmpTls.HandleTlsData

/-!
What a failing `MmpHandleTlsData` leaves behind. Its early exits give back what
they acquired, with two slips; the exit after the call to
`HookNtSetInformationProcess` gives back neither the index nor the list entry.
-/

namespace WinPolyfillLoader.MmpTls

open ProcessHeap ByteMemory CountedArray

theorem rtlAllocateHeap_cases (state : MmpState) :
    (∃ heap, rtlAllocateHeap state = (0, { state with heap := heap }) ∧
      heap.live = state.heap.live ∧ heap.log = state.heap.log ∧
      ∀ n, state.heap.grants (n + 1) = false) ∨
    (∃ block heap, rtlAllocateHeap state = (block, { state with heap := heap }) ∧
      block ≠ 0 ∧ block ∉ state.heap.live ∧ heap.live = block :: state.heap.live ∧
      heap.log = state.heap.log ++ [.alloc block] ∧
      ∀ n, state.heap.grants (n + 1) = heap.grants n) := by
  rcases allocate_cases state.heap with ⟨heap, hanswer, h⟩ | ⟨block, heap, hanswer, h⟩
  · exact Or.inl ⟨heap, by rw [rtlAllocateHeap, hanswer], h⟩
  · exact Or.inr ⟨block, heap, by rw [rtlAllocateHeap, hanswer], h⟩

theorem rtlFindClearBitsAndSet_cases (bitmap : Nat → Bool) :
    (rtlFindClearBitsAndSet bitmap = none ∧ ∀ k < mmpMaximumTlsIndex, bitmap k = true) ∨
    (∃ index, rtlFindClearBitsAndSet bitmap = some (index, Function.update bitmap index true) ∧
      index < mmpMaximumTlsIndex ∧ bitmap index = false ∧ ∀ k < index, bitmap k = true) := by
  let index := scan (fun k => !bitmap k) mmpMaximumTlsIndex 0
  have hbounds : 0 ≤ index ∧ index ≤ 0 + mmpMaximumTlsIndex := scan_bounds _ _ _
  have hbefore : ∀ k < index, bitmap k = true := by
    intro k hk
    simpa using scan_before (fun k => !bitmap k) _ 0 k (Nat.zero_le k) hk
  rcases Nat.lt_or_ge index mmpMaximumTlsIndex with hlt | hge
  · have hstop : (!bitmap index) = true := 
      scan_stop (fun k => !bitmap k) mmpMaximumTlsIndex 0 (by omega)
    refine Or.inr ⟨index, if_pos hlt, hlt, by simpa using hstop, hbefore⟩
  · refine Or.inl ⟨if_neg (by omega), ?_⟩
    intro k hk
    exact hbefore k (by omega)

/-- The entry, the bit and the two stores of a module whose registration went
through. -/
def registered (tlsDirectory : ImageTlsDirectory) (moduleEntry index entry : Nat) (heap : Heap)
    (memory : Bytes) (state : MmpState) : MmpState :=
  { state with
    mmpTlsBitmap := Function.update state.mmpTlsBitmap index true
    mmpTlsList := state.mmpTlsList ++
      [⟨entry, { tlsDirectory with characteristics := index }, moduleEntry⟩]
    heap := heap
    memory := memory }

def SameRegistry (before after : MmpState) : Prop :=
  after.mmpTlsBitmap = before.mmpTlsBitmap ∧ after.mmpTlsList = before.mmpTlsList ∧
    after.mmpActiveThreadCount = before.mmpActiveThreadCount

/-- Everything a registration can do: it fails and leaves nothing behind, or
it takes the lowest clear bit and a fresh list entry. -/
theorem mmpAllocateTlsEntry_cases (indexMapped : Bool) (tlsDirectory : ImageTlsDirectory)
    (moduleEntry : Nat) (state : MmpState) :
    (∃ status heap memory,
      mmpAllocateTlsEntry indexMapped tlsDirectory moduleEntry state =
        (.error status, { state with heap := heap, memory := memory }) ∧
      Heap.Unused state.heap heap ∧
      (indexMapped = false ∨ state.heap.grants 1 = false ∨
        ∀ k < mmpMaximumTlsIndex, state.mmpTlsBitmap k = true)) ∨
    (∃ index entry heap memory,
      mmpAllocateTlsEntry indexMapped tlsDirectory moduleEntry state =
        (.ok index, registered tlsDirectory moduleEntry index entry heap memory state) ∧
      indexMapped = true ∧ index < mmpMaximumTlsIndex ∧ state.mmpTlsBitmap index = false ∧
      (∀ k < index, state.mmpTlsBitmap k = true) ∧
      entry ≠ 0 ∧ entry ∉ state.heap.live ∧ heap.live = entry :: state.heap.live ∧
      heap.log = state.heap.log ++ [.alloc entry] ∧
      ∀ n, state.heap.grants (n + 1) = heap.grants n) := by
  cases indexMapped with
  | false =>
    exact Or.inl ⟨_, state.heap, state.memory, rfl, unused_of_refused rfl rfl, Or.inl rfl⟩
  | true =>
    let cleared : MmpState :=
      { state with memory := writeLE state.memory tlsDirectory.addressOfIndex 4 0 }
    rcases rtlAllocateHeap_cases cleared with ⟨heap, halloc, hlive, hlog, hgrants⟩ |
      ⟨entry, heap, halloc, hentry, hfresh, hlive, hlog, hgrants⟩
    · refine Or.inl ⟨statusNoMemory, heap, cleared.memory, ?_, unused_of_refused hlive hlog,
        Or.inr (Or.inl (hgrants 0))⟩
      simp only [mmpAllocateTlsEntry, cleared] at halloc ⊢
      rw [halloc]
      rfl
    · rcases rtlFindClearBitsAndSet_cases state.mmpTlsBitmap with ⟨hfind, hfull⟩ |
        ⟨index, hfind, hlt, hclear, hbefore⟩
      · refine Or.inl ⟨statusInsufficientResources, heap.free entry, cleared.memory, ?_,
          unused_of_freed hentry hfresh hlive hlog, Or.inr (Or.inr hfull)⟩
        simp only [mmpAllocateTlsEntry, cleared] at halloc ⊢
        rw [halloc]
        simp [mmpAcquireTlsIndex, hfind, rtlFreeHeap]
      · refine Or.inr ⟨index, entry, heap,
          writeLE cleared.memory tlsDirectory.addressOfIndex 4 index, ?_, rfl, hlt, hclear,
          hbefore, hentry, hfresh, hlive, hlog, hgrants⟩
        simp only [mmpAllocateTlsEntry, cleared] at halloc ⊢
        rw [halloc]
        simp only [mmpAcquireTlsIndex, hfind]
        rfl

theorem allocateThreadData_granted (tlsDirectory : ImageTlsDirectory) (n : Nat) (blocks : List Nat)
    {state granted : MmpState} {block : Nat} (hblock : block ≠ 0)
    (halloc : rtlAllocateHeap state = (block, granted)) :
    allocateThreadData tlsDirectory (n + 1) blocks state =
      allocateThreadData tlsDirectory n (blocks ++ [block]) { granted with
        memory := blit granted.memory block granted.memory tlsDirectory.startAddressOfRawData
          tlsDirectory.len } := by
  rw [allocateThreadData, halloc]
  split
  · rename_i heq
    exact absurd (congrArg Prod.fst heq) hblock
  · rename_i heq
    cases heq
    rfl

theorem allocateThreadData_cases (tlsDirectory : ImageTlsDirectory) (n : Nat) (blocks : List Nat)
    (state : MmpState) (hblocks : ∀ b ∈ blocks, b ≠ 0) :
    (∃ heap memory fresh, allocateThreadData tlsDirectory n blocks state =
        (none, { state with heap := heap, memory := memory }) ∧
      heap.log = state.heap.log ++ fresh.map .alloc ++ (blocks ++ fresh).map .free ∧
      (∀ b ∈ fresh, b ∉ state.heap.live) ∧
      (∀ b ≠ 0, heap.live.count b = state.heap.live.count b - blocks.count b) ∧
      ∀ k, state.heap.grants (k + n) = false) ∨
    (∃ heap memory fresh, allocateThreadData tlsDirectory n blocks state =
        (some (blocks ++ fresh), { state with heap := heap, memory := memory }) ∧
      fresh.length = n ∧ fresh.Nodup ∧ (∀ b ∈ fresh, b ≠ 0 ∧ b ∉ state.heap.live) ∧
      heap.live = fresh.reverse ++ state.heap.live ∧
      heap.log = state.heap.log ++ fresh.map .alloc ∧
      ∀ k, state.heap.grants (k + n) = heap.grants k) := by
  induction n generalizing blocks state with
  | zero =>
    refine Or.inr ⟨state.heap, state.memory, [], ?_, rfl, List.nodup_nil, by simp, rfl, by simp,
      fun _ => rfl⟩
    rw [List.append_nil]
    rfl
  | succ n ih =>
    rcases rtlAllocateHeap_cases state with ⟨heap, halloc, hlive, hlog, hgrants⟩ |
      ⟨block, heap, halloc, hblock, hfresh, hlive, hlog, hgrants⟩
    · refine Or.inl ⟨heap.freeAll blocks, state.memory, [], ?_, ?_, by simp, ?_,
        fun k => hgrants (k + n)⟩
      · rw [allocateThreadData, halloc]
        rfl
      · rw [freeAll_log hblocks, hlog]
        simp
      · intro b hb
        rw [freeAll_live_count heap blocks hb, hlive]
    · let memory := blit state.memory block state.memory tlsDirectory.startAddressOfRawData
        tlsDirectory.len
      have hunfold : allocateThreadData tlsDirectory (n + 1) blocks state =
          allocateThreadData tlsDirectory n (blocks ++ [block])
            { state with heap := heap, memory := memory } :=
        allocateThreadData_granted tlsDirectory n blocks hblock halloc
      have hblocks' : ∀ b ∈ blocks ++ [block], b ≠ 0 := by
        intro b hb
        rcases List.mem_append.mp hb with hb | hb
        · exact hblocks b hb
        · exact List.mem_singleton.mp hb ▸ hblock
      rw [hunfold]
      rcases ih (blocks ++ [block]) { state with heap := heap, memory := memory } hblocks' with
        ⟨heap', memory', fresh, hresult, hlog', hfresh', hcount', hrefused⟩ |
        ⟨heap', memory', fresh, hresult, hlength, hnodup, hfresh', hlive', hlog', h⟩
      · refine Or.inl ⟨heap', memory', block :: fresh, hresult, ?_, ?_, ?_,
          fun k => (hgrants (k + n)).trans (hrefused k)⟩
        · rw [hlog', hlog]
          simp
        · intro b hb
          rcases List.mem_cons.mp hb with rfl | hb
          · exact hfresh
          · intro hmem
            exact hfresh' b hb (hlive ▸ List.mem_cons_of_mem _ hmem)
        · intro b hb
          rw [hcount' b hb, hlive, List.count_append, List.count_cons, List.count_singleton]
          omega
      · have hnew : ∀ b ∈ fresh, b ≠ 0 ∧ b ≠ block ∧ b ∉ state.heap.live := by
          intro b hb
          obtain ⟨hb0, hnot⟩ := hfresh' b hb
          have hnot' : b ∉ block :: state.heap.live := hlive ▸ hnot
          exact ⟨hb0, by simpa using hnot'⟩
        refine Or.inr ⟨heap', memory', block :: fresh, ?_, ?_, ?_, ?_, ?_, ?_, ?_⟩
        · rw [hresult, List.append_assoc]
          rfl
        · rw [List.length_cons, hlength]
        · exact List.nodup_cons.mpr ⟨fun hmem => (hnew block hmem).2.1 rfl, hnodup⟩
        · intro b hb
          rcases List.mem_cons.mp hb with rfl | hb
          · exact ⟨hblock, hfresh⟩
          · exact ⟨(hnew b hb).1, (hnew b hb).2.2⟩
        · rw [hlive', hlive]
          simp
        · rw [hlog', hlog]
          simp
        · intro k
          rw [← h k, ← hgrants (k + n)]
          rfl

/-- The intercepted call on a request of the module itself: it succeeds iff its
private copy is granted, the index is in range and the kernel agrees, and it
leaves the registry alone. -/
theorem hookNtSetInformationProcess_own (kernel : KernelAnswer) (tlsIndex threadCount : Nat)
    (blocks : List Nat) (state : MmpState) :
    let result := hookNtSetInformationProcess kernel 0 (tlsRequest tlsIndex threadCount blocks) state
    SameRegistry state result.2.2 ∧
      (ntSuccess result.1 = true ↔ state.heap.grants 1 = true ∧ mmpStartTlsIndex ≤ tlsIndex ∧
        tlsIndex < mmpMaximumTlsIndex ∧ ntSuccess kernel.status = true) := by
  have hnoMemory : ntSuccess statusNoMemory = false := rfl
  rcases rtlAllocateHeap_cases state with ⟨heap, halloc, _, _, hgrants⟩ |
    ⟨block, heap, halloc, hblock, _, _, _, hgrants⟩
  · have hrefused := hgrants 0
    simp only [hookNtSetInformationProcess, tlsRequest, halloc]
    simp [SameRegistry, hnoMemory, hrefused]
  · have hgranted : state.heap.grants 1 = true := hgrants 0
    rcases Decidable.em (tlsIndex < mmpStartTlsIndex ∨ mmpMaximumTlsIndex ≤ tlsIndex) with
      hrange | hrange
    · have hconvert : ∀ slots, convertRequest 0 (tlsRequest tlsIndex threadCount blocks) slots =
          .error statusNoMemory := fun _ => if_pos hrange
      simp only [hookNtSetInformationProcess, halloc, hconvert]
      simp [tlsRequest, SameRegistry, rtlFreeHeap, hnoMemory]
      omega
    · have hconvert : ∀ slots, convertRequest 0 (tlsRequest tlsIndex threadCount blocks) slots =
          .ok (tlsRequest tlsIndex threadCount blocks) := fun _ => if_neg hrange
      simp only [hookNtSetInformationProcess, halloc, hconvert]
      cases hkernel : ntSuccess kernel.status with
      | false => simp [tlsRequest, SameRegistry, rtlFreeHeap, hkernel]
      | true =>
        simp [tlsRequest, SameRegistry, rtlFreeHeap, hkernel, hgranted]
        omega

theorem mmpReleaseTlsEntry_registered (tlsDirectory : ImageTlsDirectory)
    {moduleEntry index : Nat} (entry : Nat) (heap : Heap) (memory : Bytes) {state : MmpState}
    (hclear : state.mmpTlsBitmap index = false)
    (hnew : ∀ e ∈ state.mmpTlsList, e.moduleEntry ≠ moduleEntry) :
    let after := mmpReleaseTlsEntry moduleEntry
      (registered tlsDirectory moduleEntry index entry heap memory state)
    SameRegistry state after ∧ after.heap = heap.free entry := by
  have hfind : (state.mmpTlsList ++
      [(⟨entry, { tlsDirectory with characteristics := index }, moduleEntry⟩ : TlsEntry)]).find?
        (fun p => p.moduleEntry == moduleEntry) =
      some ⟨entry, { tlsDirectory with characteristics := index }, moduleEntry⟩ := by
    rw [List.find?_append, List.find?_eq_none.mpr (by simpa using hnew)]
    simp
  have herase : (state.mmpTlsList ++
      [(⟨entry, { tlsDirectory with characteristics := index }, moduleEntry⟩ : TlsEntry)]).eraseP
        (fun p => p.moduleEntry == moduleEntry) = state.mmpTlsList := by
    rw [List.eraseP_append_right _ (by simpa using hnew)]
    simp
  have hbitmap : Function.update (Function.update state.mmpTlsBitmap index true) index false =
      state.mmpTlsBitmap := by
    rw [Function.update_idem, ← hclear, Function.update_eq_self]
  intro after
  simp only [after, mmpReleaseTlsEntry, registered, hfind, herase, hbitmap, rtlFreeHeap]
  exact ⟨⟨rfl, rfl, rfl⟩, trivial⟩

theorem mmpReleaseTlsEntry_older (tlsDirectory : ImageTlsDirectory)
    {moduleEntry : Nat} (index entry : Nat) (heap : Heap) (memory : Bytes) {state : MmpState}
    (hold : ∃ e ∈ state.mmpTlsList, e.moduleEntry = moduleEntry) :
    ∃ e ∈ state.mmpTlsList, (mmpReleaseTlsEntry moduleEntry
      (registered tlsDirectory moduleEntry index entry heap memory state)).heap =
        heap.free e.address := by
  have hisSome : (state.mmpTlsList.find? (fun p => p.moduleEntry == moduleEntry)).isSome := by
    simpa using hold
  obtain ⟨e, hfind⟩ := Option.isSome_iff_exists.mp hisSome
  refine ⟨e, List.mem_of_find?_eq_some hfind, ?_⟩
  simp only [mmpReleaseTlsEntry, registered, List.find?_append, hfind, Option.some_or,
    rtlFreeHeap]

theorem mmpReleaseTlsEntry_heap (tlsDirectory : ImageTlsDirectory)
    (moduleEntry : Nat) {index : Nat} (entry : Nat) (heap : Heap) (memory : Bytes) {state : MmpState}
    (hclear : state.mmpTlsBitmap index = false) :
    ∃ block, (block = entry ∨ ∃ e ∈ state.mmpTlsList, block = e.address) ∧
      (mmpReleaseTlsEntry moduleEntry
        (registered tlsDirectory moduleEntry index entry heap memory state)).heap =
          heap.free block := by
  rcases Classical.em (∃ e ∈ state.mmpTlsList, e.moduleEntry = moduleEntry) with hold | hnew
  · obtain ⟨e, he, hheap⟩ := mmpReleaseTlsEntry_older tlsDirectory index entry heap memory hold
    exact ⟨e.address, Or.inr ⟨e, he, rfl⟩, hheap⟩
  · have hnew' : ∀ e ∈ state.mmpTlsList, e.moduleEntry ≠ moduleEntry := by simpa using hnew
    exact ⟨entry, Or.inl rfl, (mmpReleaseTlsEntry_registered tlsDirectory entry heap memory hclear hnew').2⟩

/-- What the caller relies on: a failure leaves the registry as it was and
every block of the call freed exactly once. -/
def FailsAtomically (before : MmpState) (result : NtStatus × MmpState) : Prop :=
  ntSuccess result.1 = false →
    SameRegistry before result.2 ∧ FreedOnce (Heap.since before.heap result.2.heap)

/-- The runs that end well: there is no TLS directory, the registration itself
fails, the request buffer is refused for a module that is not listed yet, or
nothing fails. The next `threadCount + 3` requests are those of the entry, the
request, one copy for each thread and the private copy of the request. -/
def CleansUp (kernel : KernelAnswer) (indexMapped : Bool)
    (tlsDirectory : Option ImageTlsDirectory) (moduleEntry : Nat) (state : MmpState) : Prop :=
  tlsDirectory = none ∨ indexMapped = false ∨ state.heap.grants 1 = false ∨
    (∀ k < mmpMaximumTlsIndex, state.mmpTlsBitmap k = true) ∨
    (state.heap.grants 2 = false ∧ ∀ e ∈ state.mmpTlsList, e.moduleEntry ≠ moduleEntry) ∨
    (state.heap.grants (state.mmpActiveThreadCount.toNat + 3) = true ∧
      (∀ k < mmpStartTlsIndex, state.mmpTlsBitmap k = true) ∧ ntSuccess kernel.status = true)

/-- A failure after the registration releases exactly one block besides those
it logs itself, so a block that is neither listed nor the new entry leaks. -/
theorem release_log (tlsDirectory : ImageTlsDirectory) (moduleEntry : Nat) {index : Nat}
    (entry : Nat) {heap : Heap} (memory : Bytes) {state : MmpState}
    (hclear : state.mmpTlsBitmap index = false) {events : List Event}
    (hlog : heap.log = state.heap.log ++ events) :
    ∃ freed, (freed = [] ∨ freed = [Event.free entry] ∨
        ∃ e ∈ state.mmpTlsList, freed = [Event.free e.address]) ∧
      Heap.since state.heap (mmpReleaseTlsEntry moduleEntry
        (registered tlsDirectory moduleEntry index entry heap memory state)).heap =
          events ++ freed := by
  obtain ⟨block, hblock, hheap⟩ := mmpReleaseTlsEntry_heap tlsDirectory moduleEntry entry heap memory hclear
  rw [hheap]
  rcases Nat.eq_zero_or_pos block with hzero | hpos
  · refine ⟨[], Or.inl rfl, ?_⟩
    rw [Heap.free, if_pos hzero]
    exact since_eq (hlog.trans (by rw [List.append_nil]))
  · refine ⟨[.free block], Or.inr ?_, ?_⟩
    · rcases hblock with rfl | ⟨e, he, rfl⟩
      · exact Or.inl rfl
      · exact Or.inr ⟨e, he, rfl⟩
    · apply since_eq
      rw [free_log (Nat.ne_of_gt hpos), hlog, List.append_assoc]

theorem mmpHandleTlsData_buffer_refused (kernel : KernelAnswer)
    {tlsDirectory : ImageTlsDirectory} {moduleEntry : Nat} {state after : MmpState}
    {index entry : Nat} {heap : Heap} {memory : Bytes}
    (hlive : ∀ e ∈ state.mmpTlsList, e.address ∈ state.heap.live)
    (hallocate : mmpAllocateTlsEntry true tlsDirectory moduleEntry state = (.ok index, after))
    (hrefused : rtlAllocateHeap after =
      (0, registered tlsDirectory moduleEntry index entry heap memory state))
    (hclear : state.mmpTlsBitmap index = false) (hentry : entry ≠ 0)
    (hfresh : entry ∉ state.heap.live) (hlog : heap.log = state.heap.log ++ [.alloc entry]) :
    FailsAtomically state (mmpHandleTlsData kernel true (some tlsDirectory) moduleEntry state) ↔
      ∀ e ∈ state.mmpTlsList, e.moduleEntry ≠ moduleEntry := by
  have hrun : mmpHandleTlsData kernel true (some tlsDirectory) moduleEntry state =
      (statusNoMemory, mmpReleaseTlsEntry moduleEntry
        (registered tlsDirectory moduleEntry index entry heap memory state)) := by
    simp only [mmpHandleTlsData, hallocate, hrefused]
  rw [hrun]
  constructor
  · intro h e he hmodule
    obtain ⟨old, hold, hfree⟩ := mmpReleaseTlsEntry_older tlsDirectory index entry heap memory
      ⟨e, he, hmodule⟩
    have honce := (h rfl).2
    have hne : entry ≠ old.address := fun heq => hfresh (heq ▸ hlive old hold)
    rw [hfree] at honce
    rcases Nat.eq_zero_or_pos old.address with hzero | hpos
    · rw [Heap.free, if_pos hzero, since_eq hlog] at honce
      exact not_freedOnce entry (by simp) (by simp) honce
    · have hfreed : (heap.free old.address).log =
          state.heap.log ++ [.alloc entry, .free old.address] := by
        rw [free_log (Nat.ne_of_gt hpos), hlog, List.append_assoc]
        rfl
      rw [since_eq hfreed] at honce
      exact not_freedOnce entry (by simp) (by simpa using hne) honce
  · intro hnew _
    obtain ⟨hsame, hfree⟩ := mmpReleaseTlsEntry_registered tlsDirectory entry heap memory
      hclear hnew
    have hfreed : (heap.free entry).log = state.heap.log ++ [.alloc entry, .free entry] := by
      rw [free_log hentry, hlog, List.append_assoc]
      rfl
    refine ⟨hsame, ?_⟩
    rw [hfree, since_eq hfreed]
    exact freedOnce_pair entry

theorem mmpHandleTlsData_copies_refused (kernel : KernelAnswer)
    {tlsDirectory : ImageTlsDirectory} {moduleEntry : Nat} {state after copied : MmpState}
    {index entry buffer : Nat} {heap : Heap} {memory : Bytes} {fresh : List Nat}
    (hlive : ∀ e ∈ state.mmpTlsList, e.address ∈ state.heap.live)
    (hallocate : mmpAllocateTlsEntry true tlsDirectory moduleEntry state = (.ok index, after))
    (hcount : after.mmpActiveThreadCount = state.mmpActiveThreadCount)
    (hbuffer : rtlAllocateHeap after = (buffer, copied)) (hbuffer0 : buffer ≠ 0)
    (hcopies : allocateThreadData tlsDirectory state.mmpActiveThreadCount.toNat [] copied =
      (none, registered tlsDirectory moduleEntry index entry heap memory state))
    (hclear : state.mmpTlsBitmap index = false) (hne : buffer ≠ entry)
    (hfresh : buffer ∉ state.heap.live) (hcopy : buffer ∉ fresh)
    (hlog : heap.log = state.heap.log ++
      ([.alloc entry, .alloc buffer] ++ fresh.map .alloc ++ fresh.map .free)) :
    ¬ FailsAtomically state
      (mmpHandleTlsData kernel true (some tlsDirectory) moduleEntry state) := by
  have hrun : mmpHandleTlsData kernel true (some tlsDirectory) moduleEntry state =
      (statusNoMemory, mmpReleaseTlsEntry moduleEntry
        (registered tlsDirectory moduleEntry index entry heap memory state)) := by
    simp only [mmpHandleTlsData, hallocate, hbuffer, hcount, hcopies]
  obtain ⟨freed, hfreed, hsince⟩ := release_log tlsDirectory moduleEntry entry memory hclear hlog
  intro h
  rw [hrun] at h
  have honce := (h rfl).2
  rw [hsince] at honce
  refine not_freedOnce buffer (by simp) ?_ honce
  have hfreed' : .free buffer ∉ freed := by
    rcases hfreed with rfl | rfl | ⟨e, he, rfl⟩
    · simp
    · simpa using hne
    · intro hmem
      have heq : buffer = e.address := by simpa using hmem
      exact hfresh (heq ▸ hlive e he)
  simp [hcopy, hfreed']

theorem mmpHandleTlsData_called (kernel : KernelAnswer)
    {tlsDirectory : ImageTlsDirectory} {moduleEntry : Nat} {state after copied : MmpState}
    {index entry buffer : Nat} {heap : Heap} {memory : Bytes} {blocks : List Nat}
    (hallocate : mmpAllocateTlsEntry true tlsDirectory moduleEntry state = (.ok index, after))
    (hcount : after.mmpActiveThreadCount = state.mmpActiveThreadCount)
    (hbuffer : rtlAllocateHeap after = (buffer, copied)) (hbuffer0 : buffer ≠ 0)
    (hcopies : allocateThreadData tlsDirectory state.mmpActiveThreadCount.toNat [] copied =
      (some blocks, registered tlsDirectory moduleEntry index entry heap memory state))
    (hlt : index < mmpMaximumTlsIndex) :
    FailsAtomically state (mmpHandleTlsData kernel true (some tlsDirectory) moduleEntry state) ↔
      heap.grants 1 = true ∧ mmpStartTlsIndex ≤ index ∧ ntSuccess kernel.status = true := by
  let threadCount := state.mmpActiveThreadCount.toNat
  let called := hookNtSetInformationProcess kernel 0 (tlsRequest index threadCount blocks)
    (registered tlsDirectory moduleEntry index entry heap memory state)
  have hrun : mmpHandleTlsData kernel true (some tlsDirectory) moduleEntry state =
      (called.1, rtlFreeHeap (releaseThreadData called.2.1 called.2.2) buffer) := by
    simp only [mmpHandleTlsData, hallocate, hbuffer, hcount, hcopies]
    rfl
  obtain ⟨⟨_, hlist, _⟩, hsuccess⟩ := hookNtSetInformationProcess_own kernel index threadCount
    blocks (registered tlsDirectory moduleEntry index entry heap memory state)
  have hsuccess' : ntSuccess called.1 = true ↔ heap.grants 1 = true ∧ mmpStartTlsIndex ≤ index ∧
      ntSuccess kernel.status = true := by
    apply hsuccess.trans
    constructor
    · rintro ⟨hgrant, hstart, -, hstatus⟩
      exact ⟨hgrant, hstart, hstatus⟩
    · rintro ⟨hgrant, hstart, hstatus⟩
      exact ⟨hgrant, hstart, hlt, hstatus⟩
  rw [hrun, ← hsuccess']
  constructor
  · intro h
    by_contra hfailed
    have hsame : called.2.2.mmpTlsList = state.mmpTlsList :=
      (h (Bool.eq_false_iff.mpr hfailed)).1.2.1
    have hlonger := congrArg List.length (hlist.symm.trans hsame)
    simp [registered] at hlonger
  · intro hok hfailed
    rw [hok] at hfailed
    cases hfailed

/-- After a registration that went through, the call is atomic only when the
request buffer is refused and no older entry is in the way, or when nothing
fails any more. -/
theorem mmpHandleTlsData_registered (kernel : KernelAnswer) {tlsDirectory : ImageTlsDirectory}
    {moduleEntry : Nat} {state : MmpState} {index entry : Nat} {heap : Heap} {memory : Bytes}
    (hlive : ∀ e ∈ state.mmpTlsList, e.address ∈ state.heap.live)
    (hallocate : mmpAllocateTlsEntry true tlsDirectory moduleEntry state =
      (.ok index, registered tlsDirectory moduleEntry index entry heap memory state))
    (hlt : index < mmpMaximumTlsIndex) (hclear : state.mmpTlsBitmap index = false)
    (hentry : entry ≠ 0) (hfresh : entry ∉ state.heap.live)
    (hheap : heap.live = entry :: state.heap.live)
    (hlog : heap.log = state.heap.log ++ [.alloc entry]) :
    FailsAtomically state (mmpHandleTlsData kernel true (some tlsDirectory) moduleEntry state) ↔
      (heap.grants 1 = false ∧ ∀ e ∈ state.mmpTlsList, e.moduleEntry ≠ moduleEntry) ∨
      (heap.grants (state.mmpActiveThreadCount.toNat + 2) = true ∧ mmpStartTlsIndex ≤ index ∧
        ntSuccess kernel.status = true) := by
  have hcount : (registered tlsDirectory moduleEntry index entry heap memory
      state).mmpActiveThreadCount = state.mmpActiveThreadCount := rfl
  rcases rtlAllocateHeap_cases
      (registered tlsDirectory moduleEntry index entry heap memory state) with
    ⟨heap₂, halloc, _, hlog₂, hgrants⟩ |
    ⟨buffer, heap₂, halloc, hbuffer, hfresh₂, hlive₂, hlog₂, hgrants⟩
  · have hiff := mmpHandleTlsData_buffer_refused kernel hlive hallocate halloc hclear hentry hfresh (hlog₂.trans hlog)
    have hrefused : ∀ n, heap.grants (n + 1) = false := hgrants
    rw [hiff, hrefused 0, hrefused (state.mmpActiveThreadCount.toNat + 1)]
    simp
  · have hgranted : ∀ n, heap.grants (n + 1) = heap₂.grants n := hgrants
    have hfresh₂' : buffer ≠ entry ∧ buffer ∉ state.heap.live := by
      have hnot : buffer ∉ entry :: state.heap.live := hheap ▸ hfresh₂
      simpa using hnot
    rw [hgranted 0, hgranted (state.mmpActiveThreadCount.toNat + 1)]
    rcases allocateThreadData_cases tlsDirectory state.mmpActiveThreadCount.toNat []
        (registered tlsDirectory moduleEntry index entry heap₂ memory state) (by simp) with
      ⟨heap₃, memory₃, fresh, hcopies, hlog₃, hfresh₃, _, hrefused⟩ |
      ⟨heap₃, memory₃, blocks, hcopies, _, _, _, _, _, h⟩
    · have hcopy : buffer ∉ fresh := by
        intro hmem
        have hlive₂' : heap₂.live = buffer :: heap.live := hlive₂
        exact hfresh₃ buffer hmem (hlive₂' ▸ List.mem_cons_self)
      have hlog : heap₃.log = state.heap.log ++
          ([.alloc entry, .alloc buffer] ++ fresh.map .alloc ++ fresh.map .free) := by
        have hlog₂' : heap₂.log = heap.log ++ [.alloc buffer] := hlog₂
        have hlog₃' : heap₃.log = heap₂.log ++ fresh.map .alloc ++ fresh.map .free := hlog₃
        rw [hlog₃', hlog₂', hlog]
        simp
      have hnot := mmpHandleTlsData_copies_refused kernel hlive hallocate hcount halloc hbuffer
        hcopies hclear hfresh₂'.1 hfresh₂'.2 hcopy hlog
      have hrefused₂ : heap₂.grants (state.mmpActiveThreadCount.toNat + 1) = false := by
        rw [Nat.add_comm]
        exact hrefused 1
      rw [hrefused₂]
      simp [hnot, Heap.grants]
    · have hiff := mmpHandleTlsData_called kernel hallocate hcount halloc hbuffer hcopies hlt
      have hgrants₃ : heap₂.grants (state.mmpActiveThreadCount.toNat + 1) = heap₃.grants 1 := by
        rw [← h 1, Nat.add_comm]
        rfl
      rw [hiff, hgrants₃]
      simp [Heap.grants]

def twoThreads : MmpState where
  mmpTlsList := []
  mmpTlsBitmap := fun k => k < mmpStartTlsIndex
  mmpThreadLocalStoragePointer := [⟨0x10, 1, 0x1000, 0x2000⟩, ⟨0x20, 2, 0x3000, 0x4000⟩]
  mmpActiveThreadCount := 2
  slots := fun _ _ => 0
  memory := fun _ => 0
  heap := ⟨[0x10, 0x20], [some 0x30, some 0x40, some 0x50, some 0x60, some 0x70], []⟩

/-- `MmpHandleTlsData` is atomic on failure in exactly the runs of `CleansUp`. -/
theorem mmpHandleTlsData_atomic_iff (kernel : KernelAnswer) (indexMapped : Bool)
    (tlsDirectory : Option ImageTlsDirectory) (moduleEntry : Nat) (state : MmpState)
    (hlive : ∀ e ∈ state.mmpTlsList, e.address ∈ state.heap.live) :
    FailsAtomically state (mmpHandleTlsData kernel indexMapped tlsDirectory moduleEntry state) ↔
      CleansUp kernel indexMapped tlsDirectory moduleEntry state := by
  cases tlsDirectory with
  | none =>
    have hsuccess : ntSuccess statusSuccess = true := rfl
    simp [FailsAtomically, mmpHandleTlsData, CleansUp, hsuccess]
  | some tlsDirectory =>
    rcases mmpAllocateTlsEntry_cases indexMapped tlsDirectory moduleEntry state with
      ⟨status, heap, memory, hallocate, hunused, hfailed⟩ |
      ⟨index, entry, heap, memory, hallocate, rfl, hlt, hclear, hbefore, hentry, hfresh, hheap,
        hlog, hgrants⟩
    · have hrun : mmpHandleTlsData kernel indexMapped (some tlsDirectory) moduleEntry state =
          (statusInsufficientResources, { state with heap := heap, memory := memory }) := by
        simp only [mmpHandleTlsData, hallocate]
      rw [hrun]
      refine iff_of_true (fun _ => ⟨⟨rfl, rfl, rfl⟩, freedOnce_of_unused hunused⟩) (Or.inr ?_)
      rcases hfailed with hmapped | hrefused | hfull
      · exact Or.inl hmapped
      · exact Or.inr (Or.inl hrefused)
      · exact Or.inr (Or.inr (Or.inl hfull))
    · have hfull : ¬ ∀ k < mmpMaximumTlsIndex, state.mmpTlsBitmap k = true := by
        intro hall
        have hset := hall index hlt
        rw [hclear] at hset
        cases hset
      have hgranted : state.heap.grants 1 = true := hgrants 0
      have hstart : (∀ k < mmpStartTlsIndex, state.mmpTlsBitmap k = true) ↔
          mmpStartTlsIndex ≤ index := by
        constructor
        · intro hall
          by_contra hlow
          have hset := hall index (by omega)
          rw [hclear] at hset
          cases hset
        · intro hle k hk
          exact hbefore k (by omega)
      rw [mmpHandleTlsData_registered kernel hlive hallocate hlt hclear hentry hfresh hheap hlog,
        CleansUp, hstart, hgrants 1, hgrants (state.mmpActiveThreadCount.toNat + 2)]
      simp [hgranted, hfull]

/-- When the kernel refuses the request, the entry of the module stays listed
and both threads are counted off. -/
theorem mmpHandleTlsData_kernel_refuses :
    let kernel : KernelAnswer := ⟨statusUnsuccessful, fun _ tls slots => (tls, slots)⟩
    let tlsDirectory : ImageTlsDirectory := ⟨0x9000, 0x9008, 0x9100, 0, 0, 0⟩
    let result := mmpHandleTlsData kernel true (some tlsDirectory) 0x8000 twoThreads
    ntSuccess result.1 = false ∧ result.2.mmpTlsList.length = 1 ∧
      result.2.mmpActiveThreadCount = 0 ∧ ¬ FailsAtomically twoThreads result := by
  intro kernel tlsDirectory result
  have hfailed : ntSuccess result.1 = false := by decide +kernel
  have hcount : result.2.mmpActiveThreadCount = 0 := by decide +kernel
  refine ⟨hfailed, by decide +kernel, hcount, ?_⟩
  intro h
  have hsame : result.2.mmpActiveThreadCount = 2 := (h hfailed).1.2.2
  rw [hcount] at hsame
  cases hsame

/-- The same process with a heap that refuses the list entry. -/
theorem mmpHandleTlsData_entry_refused :
    let kernel : KernelAnswer := ⟨statusSuccess, fun _ tls slots => (tls, slots)⟩
    let tlsDirectory : ImageTlsDirectory := ⟨0x9000, 0x9008, 0x9100, 0, 0, 0⟩
    let state := { twoThreads with heap := ⟨[], [none], []⟩ }
    FailsAtomically state (mmpHandleTlsData kernel true (some tlsDirectory) 0x8000 state) := by
  intro kernel tlsDirectory state
  have hlive : ∀ e ∈ state.mmpTlsList, e.address ∈ state.heap.live := by
    intro e he
    cases he
  exact (mmpHandleTlsData_atomic_iff kernel true (some tlsDirectory) 0x8000 state hlive).mpr
    (Or.inr (Or.inr (Or.inl rfl)))

end WinPolyfillLoader.MmpTls
