import WinPolyfillLoader.MmpTls.FailureCleanup

/-!
Everything a load with TLS can do, exit by exit, and what its own request does
once it is passed on: the elements come back, records and vectors stay.
-/

namespace WinPolyfillLoader.MmpTls

open ProcessHeap ByteMemory

/-- Element `i` of a request of the module after the mapping loop. A pointer
that some record's vector holds now is exchanged for the one the kernel took
out. -/
def handBack (tls request : ProcessTlsInformation) (records : List TlspRecord) (slots : Slots)
    (i : Nat) : ThreadTlsInformation where
  flags := (tls.threadData i).flags
  tlsPointer :=
    if records.any (fun record =>
        slots record.tlspMmpBlock request.tlsIndex = (request.threadData i).tlsPointer)
    then (tls.threadData i).tlsPointer else (request.threadData i).tlsPointer
  threadId := (tls.threadData i).threadId

def handedBack (tls request : ProcessTlsInformation) (records : List TlspRecord) (slots : Slots)
    (n : Nat) : ProcessTlsInformation :=
  { request with
    threadData := fun i =>
      if i < n then handBack tls request records slots i else request.threadData i }

theorem remapThread_own (tls : ProcessTlsInformation) (i : Nat) {request : ProcessTlsInformation}
    (records : List TlspRecord) (slots : Slots)
    (hop : request.operationType = .processTlsReplaceIndex) :
    remapThread 0 tls ⟨request, records, slots⟩ i =
      ⟨request.setThread i (handBack tls request records slots i), records, slots⟩ := by
  have hrecord : isThreadRecord request slots i = fun record =>
      decide (slots record.tlspMmpBlock request.tlsIndex = (request.threadData i).tlsPointer) := by
    funext record
    simp only [isThreadRecord, hop]
  cases hfind : records.findIdx? (isThreadRecord request slots i) with
  | none =>
    have hany : records.any (fun record => decide (slots record.tlspMmpBlock request.tlsIndex =
        (request.threadData i).tlsPointer)) = false := by
      rw [← hrecord]
      exact List.any_eq_false.mpr fun r hr => by
        simpa using List.findIdx?_eq_none_iff.mp hfind r hr
    simp [remapThread, hfind, handBack, hany]
  | some position =>
    obtain ⟨hlt, hmatch, _⟩ := List.findIdx?_eq_some_iff_getElem.mp hfind
    have hany : records.any (fun record => decide (slots record.tlspMmpBlock request.tlsIndex =
        (request.threadData i).tlsPointer)) = true := by
      rw [← hrecord]
      exact List.any_eq_true.mpr ⟨records[position], List.getElem_mem hlt, hmatch⟩
    simp [remapThread, hfind, List.getElem?_eq_getElem hlt, remapRecord, hop, handBack, hany,
      ProcessTlsInformation.setThread]

theorem remapThreads_own (tls : ProcessTlsInformation) {request : ProcessTlsInformation}
    (records : List TlspRecord) (slots : Slots)
    (hop : request.operationType = .processTlsReplaceIndex) (n : Nat) :
    (List.range n).foldl (remapThread 0 tls) ⟨request, records, slots⟩ =
      ⟨handedBack tls request records slots n, records, slots⟩ := by
  induction n with
  | zero => simp [handedBack]
  | succ n ih =>
    have hcurrent : (handedBack tls request records slots n).threadData n =
        request.threadData n := if_neg (Nat.lt_irrefl n)
    have hop' : (handedBack tls request records slots n).operationType =
        .processTlsReplaceIndex := hop
    have hback : handBack tls (handedBack tls request records slots n) records slots n =
        handBack tls request records slots n := by
      simp only [handBack, hcurrent]
      rfl
    rw [List.range_succ, List.foldl_append, ih, List.foldl_cons, List.foldl_nil,
      remapThread_own tls n records slots hop', hback]
    congr 1
    simp only [ProcessTlsInformation.setThread, handedBack]
    congr 1
    funext i
    rcases Nat.lt_trichotomy i n with hlt | rfl | hgt
    · rw [Function.update_of_ne (Nat.ne_of_lt hlt), if_pos hlt, if_pos (Nat.lt_succ_of_lt hlt)]
    · rw [Function.update_self, if_pos (Nat.lt_succ_self i)]
    · rw [Function.update_of_ne (Nat.ne_of_gt hgt), if_neg (by omega), if_neg (by omega)]

/-- Everything the intercepted call can do on a request of the module: it is
refused and only the heap was used, or the kernel's effect on the vectors
stands and the elements come back. -/
theorem hookNtSetInformationProcess_own_cases (kernel : KernelAnswer) (tlsIndex threadCount : Nat)
    (blocks : List Nat) (state : MmpState) :
    let request := tlsRequest tlsIndex threadCount blocks
    let result := hookNtSetInformationProcess kernel 0 request state
    (∃ status heap, result = (status, request, { state with heap := heap }) ∧
      ntSuccess status = false ∧ Heap.Unused state.heap heap ∧
      (state.heap.grants 1 = false ∨ tlsIndex < mmpStartTlsIndex ∨ mmpMaximumTlsIndex ≤ tlsIndex ∨
        ntSuccess kernel.status = false)) ∨
    (∃ heap, ntSuccess kernel.status = true ∧ mmpStartTlsIndex ≤ tlsIndex ∧
      tlsIndex < mmpMaximumTlsIndex ∧ Heap.Unused state.heap heap ∧
      let answer := kernel.effect ntCurrentProcess request state.slots
      result = (kernel.status,
        handedBack answer.1 request state.mmpThreadLocalStoragePointer answer.2
          answer.1.threadDataCount,
        { state with slots := answer.2, heap := heap })) := by
  intro request result
  have hresult : result = hookNtSetInformationProcess kernel 0 request state := rfl
  have hop : request.operationType = .processTlsReplaceIndex := rfl
  rcases rtlAllocateHeap_cases state with ⟨heap, halloc, hlive, hlog, hgrants⟩ |
    ⟨private_, heap, halloc, hprivate, hfresh, hlive, hlog, -⟩
  · refine Or.inl ⟨statusNoMemory, heap, ?_, rfl, unused_of_refused hlive hlog,
      Or.inl (hgrants 0)⟩
    simp only [hresult, hookNtSetInformationProcess, hop, halloc]
  · have hunused := unused_of_freed hprivate hfresh hlive hlog
    rcases Decidable.em (tlsIndex < mmpStartTlsIndex ∨ mmpMaximumTlsIndex ≤ tlsIndex) with
      hrange | hrange
    · have hconvert : convertRequest 0 request state.slots = .error statusNoMemory := if_pos hrange
      refine Or.inl ⟨statusNoMemory, heap.free private_, ?_, rfl, hunused, ?_⟩
      · simp only [hresult, hookNtSetInformationProcess, hop, halloc, hconvert, rtlFreeHeap]
      · rcases hrange with hlow | hhigh
        · exact Or.inr (Or.inl hlow)
        · exact Or.inr (Or.inr (Or.inl hhigh))
    · have hconvert : convertRequest 0 request state.slots = .ok request := if_neg hrange
      cases hkernel : ntSuccess kernel.status with
      | false =>
        refine Or.inl ⟨kernel.status, heap.free private_, ?_, hkernel, hunused,
          Or.inr (Or.inr (Or.inr rfl))⟩
        simp only [hresult, hookNtSetInformationProcess, hop, halloc, hconvert, hkernel,
          rtlFreeHeap]
        simp
      | true =>
        refine Or.inr ⟨heap.free private_, rfl, by omega, by omega, hunused, ?_⟩
        have hmapping := remapThreads_own (kernel.effect ntCurrentProcess request state.slots).1
          state.mmpThreadLocalStoragePointer (kernel.effect ntCurrentProcess request state.slots).2
          hop (kernel.effect ntCurrentProcess request state.slots).1.threadDataCount
        simp only [hresult, hookNtSetInformationProcess, hop, halloc, hconvert, hkernel,
          rtlFreeHeap]
        simp [hmapping]

structure TakesIndex (state : MmpState) (index entry : Nat) : Prop where
  lt : index < mmpMaximumTlsIndex
  clear : state.mmpTlsBitmap index = false
  lowest : ∀ k < index, state.mmpTlsBitmap k = true
  entry_ne : entry ≠ 0
  fresh : entry ∉ state.heap.live

/-- The end of `MmpHandleTlsData`, from the call on. -/
def requestAndRelease (kernel : KernelAnswer) (index buffer : Nat) (blocks : List Nat)
    (state : MmpState) : NtStatus × MmpState :=
  let called := hookNtSetInformationProcess kernel 0
    (tlsRequest index state.mmpActiveThreadCount.toNat blocks) state
  (called.1, rtlFreeHeap (releaseThreadData called.2.1 called.2.2) buffer)

/-- The exits of `MmpHandleTlsData`, in the order of the source: there is no
directory, the registration fails, the request buffer or a copy is refused and
an entry of the module is released, or the request was made. -/
inductive LoadExit (kernel : KernelAnswer) (indexMapped : Bool) (moduleEntry : Nat)
    (state : MmpState) : Option ImageTlsDirectory → NtStatus × MmpState → Prop where
  | noDirectory : LoadExit kernel indexMapped moduleEntry state none (statusSuccess, state)
  | entryRefused {tlsDirectory : ImageTlsDirectory} {heap : Heap} {memory : Bytes}
      (hunused : Heap.Unused state.heap heap)
      (hreason : indexMapped = false ∨ state.heap.grants 1 = false ∨
        ∀ k < mmpMaximumTlsIndex, state.mmpTlsBitmap k = true) :
      LoadExit kernel indexMapped moduleEntry state (some tlsDirectory)
        (statusInsufficientResources, { state with heap := heap, memory := memory })
  | bufferRefused {tlsDirectory : ImageTlsDirectory} {index entry : Nat} {heap : Heap}
      {memory : Bytes} (hindex : TakesIndex state index entry)
      (hgranted : Granted state.heap heap [entry]) (hreason : state.heap.grants 2 = false) :
      LoadExit kernel indexMapped moduleEntry state (some tlsDirectory)
        (statusNoMemory, mmpReleaseTlsEntry moduleEntry
          (registered tlsDirectory moduleEntry index entry heap memory state))
  | copiesRefused {tlsDirectory : ImageTlsDirectory} {index entry buffer : Nat} {heap copies : Heap}
      {memory : Bytes} {fresh : List Nat} (hindex : TakesIndex state index entry)
      (hgranted : Granted state.heap heap [entry, buffer]) (hfresh : ∀ b ∈ fresh, b ∉ heap.live)
      (hlive : ∀ b ≠ 0, copies.live.count b = heap.live.count b)
      (hlog : copies.log = heap.log ++ fresh.map .alloc ++ fresh.map .free)
      (hreason : state.heap.grants (state.mmpActiveThreadCount.toNat + 2) = false) :
      LoadExit kernel indexMapped moduleEntry state (some tlsDirectory)
        (statusNoMemory, mmpReleaseTlsEntry moduleEntry
          (registered tlsDirectory moduleEntry index entry copies memory state))
  | called {tlsDirectory : ImageTlsDirectory} {index entry buffer : Nat} {heap : Heap}
      {memory : Bytes} {blocks : List Nat} (hindex : TakesIndex state index entry)
      (hmapped : indexMapped = true) (hlength : blocks.length = state.mmpActiveThreadCount.toNat)
      (hgranted : Granted state.heap heap ([entry, buffer] ++ blocks))
      (hgrants : ∀ n, state.heap.grants (n + state.mmpActiveThreadCount.toNat + 2) =
        heap.grants n) :
      LoadExit kernel indexMapped moduleEntry state (some tlsDirectory)
        (requestAndRelease kernel index buffer blocks
          (registered tlsDirectory moduleEntry index entry heap memory state))

theorem mmpHandleTlsData_exits (kernel : KernelAnswer) (indexMapped : Bool)
    (tlsDirectory : Option ImageTlsDirectory) (moduleEntry : Nat) (state : MmpState) :
    LoadExit kernel indexMapped moduleEntry state tlsDirectory
      (mmpHandleTlsData kernel indexMapped tlsDirectory moduleEntry state) := by
  cases tlsDirectory with
  | none => exact .noDirectory
  | some tlsDirectory =>
    rcases mmpAllocateTlsEntry_cases indexMapped tlsDirectory moduleEntry state with
      ⟨status, heap, memory, hallocate, hunused, hreason⟩ |
      ⟨index, entry, heap, memory, hallocate, hmapped, hlt, hclear, hlowest, hentry, hfresh, hlive,
        hlog, hgrants⟩
    · have hrun : mmpHandleTlsData kernel indexMapped (some tlsDirectory) moduleEntry state =
          (statusInsufficientResources, { state with heap := heap, memory := memory }) := by
        simp only [mmpHandleTlsData, hallocate]
      rw [hrun]
      exact .entryRefused hunused hreason
    · have hindex : TakesIndex state index entry := ⟨hlt, hclear, hlowest, hentry, hfresh⟩
      have hgranted := granted_single hentry hfresh hlive hlog
      have hcount : (registered tlsDirectory moduleEntry index entry heap memory
          state).mmpActiveThreadCount = state.mmpActiveThreadCount := rfl
      rcases rtlAllocateHeap_cases
          (registered tlsDirectory moduleEntry index entry heap memory state) with
        ⟨heap₂, halloc, hlive₂, hlog₂, hgrants₂⟩ |
        ⟨buffer, heap₂, halloc, hbuffer, hfresh₂, hlive₂, hlog₂, hgrants₂⟩
      · have hrun : mmpHandleTlsData kernel indexMapped (some tlsDirectory) moduleEntry state =
            (statusNoMemory, mmpReleaseTlsEntry moduleEntry
              (registered tlsDirectory moduleEntry index entry heap₂ memory state)) := by
          simp only [mmpHandleTlsData, hallocate, halloc]
          rfl
        rw [hrun]
        exact .bufferRefused hindex (hgranted.refused hlive₂ hlog₂)
          ((hgrants 1).trans (hgrants₂ 0))
      · have hsecond : rtlAllocateHeap (registered tlsDirectory moduleEntry index entry heap memory
            state) = (buffer, registered tlsDirectory moduleEntry index entry heap₂ memory state) :=
          halloc
        have hgranted₂ := hgranted.append (granted_single hbuffer hfresh₂ hlive₂ hlog₂)
        rcases allocateThreadData_cases tlsDirectory state.mmpActiveThreadCount.toNat []
            (registered tlsDirectory moduleEntry index entry heap₂ memory state) (by simp) with
          ⟨heap₃, memory₃, fresh, hcopies, hlog₃, hfresh₃, hcount₃, hrefused⟩ |
          ⟨heap₃, memory₃, blocks, hcopies, hlength, hnodup, hfresh₃, hlive₃, hlog₃, hgrants₃⟩
        · have hrun : mmpHandleTlsData kernel indexMapped (some tlsDirectory) moduleEntry state =
              (statusNoMemory, mmpReleaseTlsEntry moduleEntry
                (registered tlsDirectory moduleEntry index entry heap₃ memory₃ state)) := by
            simp only [mmpHandleTlsData, hallocate, hcount, hsecond, hcopies]
            rfl
          rw [hrun]
          refine .copiesRefused hindex hgranted₂ hfresh₃ ?_ hlog₃ ?_
          · intro b hb
            rw [hcount₃ b hb, List.count_nil, Nat.sub_zero]
            rfl
          · have hrefused₂ := hrefused 0
            rw [Nat.zero_add] at hrefused₂
            exact ((hgrants _).trans (hgrants₂ _)).trans hrefused₂
        · rw [List.nil_append] at hcopies
          have hgranted₃ : Granted heap₂ heap₃ blocks := ⟨hfresh₃, hnodup, hlive₃, hlog₃⟩
          have hrun : mmpHandleTlsData kernel indexMapped (some tlsDirectory) moduleEntry state =
              requestAndRelease kernel index buffer blocks
                (registered tlsDirectory moduleEntry index entry heap₃ memory₃ state) := by
            simp only [mmpHandleTlsData, hallocate, hcount, hsecond, hcopies]
            rfl
          rw [hrun]
          refine .called hindex hmapped hlength (hgranted₂.append hgranted₃) ?_
          intro n
          exact ((hgrants _).trans (hgrants₂ _)).trans (hgrants₃ n)

end WinPolyfillLoader.MmpTls
