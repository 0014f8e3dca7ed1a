import WinPolyfillLoader.MmpTls.Loading
import WinPolyfillLoader.MmpTls.Kernel

/-!
The exits of `HookNtSetInformationProcess`: a request is refused and only the heap was used, or
the kernel carries it out and the mapping loop runs.
-/

namespace WinPolyfillLoader.MmpTls

open ProcessHeap

/-- The documented effect of `ProcessTlsReplaceIndex` on the vectors: only slot
`TlsIndex` is written. -/
def WritesOnlyIndex (kernel : KernelAnswer) : Prop :=
  ∀ hProcess tls slots v k, tls.operationType = .processTlsReplaceIndex → k ≠ tls.tlsIndex →
    (kernel.effect hProcess tls slots).2 v k = slots v k

theorem replaceIndexAnswer_writesOnlyIndex (status : NtStatus) (served : List ServedThread) :
    WritesOnlyIndex (replaceIndexAnswer status served) :=
  fun _ tls slots _ _ _ hk => processTlsReplaceIndex_slots_other served tls slots (Or.inl hk)

/-- What a request that passes the checks looks like to the kernel. -/
theorem convertRequest_ok {processHandle : Nat} {request tls : ProcessTlsInformation}
    {slots : Slots} (hop : request.operationType ≠ .maxProcessTlsOperation)
    (h : convertRequest processHandle request slots = .ok tls) :
    tls.operationType = .processTlsReplaceIndex ∧ tls.tlsIndex = request.tlsIndex ∧
      (processHandle ≠ 0 → tls.tlsIndex < mmpStartTlsIndex) ∧
      (processHandle = 0 → request.operationType = .processTlsReplaceIndex ∧
        mmpStartTlsIndex ≤ tls.tlsIndex ∧ tls.tlsIndex < mmpMaximumTlsIndex) := by
  cases hkind : request.operationType with
  | maxProcessTlsOperation => exact absurd hkind hop
  | processTlsReplaceVector =>
    simp only [convertRequest, hkind] at h
    split at h
    · cases h
    · rename_i hhandle
      split at h
      · cases h
      · cases h
        rename_i hindex
        exact ⟨rfl, rfl, fun _ => Nat.lt_of_not_le hindex, fun h0 => absurd h0 hhandle⟩
  | processTlsReplaceIndex =>
    simp only [convertRequest, hkind] at h
    split at h
    · rename_i hhandle
      split at h
      · cases h
      · cases h
        exact ⟨hkind, rfl, fun _ => by omega, fun h0 => absurd h0 hhandle⟩
    · rename_i hhandle
      split at h
      · cases h
      · cases h
        exact ⟨hkind, rfl, fun h0 => absurd h0 hhandle, fun _ => ⟨rfl, by omega, by omega⟩⟩

theorem convertRequest_count {processHandle : Nat} {request tls : ProcessTlsInformation}
    {slots : Slots} (h : convertRequest processHandle request slots = .ok tls) :
    tls.threadDataCount = request.threadDataCount := by
  unfold convertRequest at h
  split at h
  · split at h
    · cases h
    · split at h
      · cases h
      · cases h
        rfl
  · split at h
    · split at h
      · cases h
      · cases h
        rfl
    · split at h
      · cases h
      · cases h
        rfl

theorem convertRequest_error {processHandle : Nat} {request : ProcessTlsInformation}
    {slots : Slots} {status : NtStatus}
    (h : convertRequest processHandle request slots = .error status) :
    ntSuccess status = false := by
  unfold convertRequest at h
  split at h
  · split at h
    · cases h
      rfl
    · split at h
      · cases h
        rfl
      · cases h
  · split at h
    · split at h
      · cases h
        rfl
      · cases h
    · split at h
      · cases h
        rfl
      · cases h

/-- The call once its private copy is allocated, or refused for want of one. -/
theorem hookNtSetInformationProcess_run (kernel : KernelAnswer) (processHandle : Nat)
    {request : ProcessTlsInformation} (state : MmpState)
    (hop : request.operationType ≠ .maxProcessTlsOperation) :
    (∀ heap, state.heap.allocate = (none, heap) →
      hookNtSetInformationProcess kernel processHandle request state =
        (statusNoMemory, request, { state with heap := heap })) ∧
    ∀ private_ heap, state.heap.allocate = (some private_, heap) → private_ ≠ 0 →
      (∀ status, convertRequest processHandle request state.slots = .error status →
        hookNtSetInformationProcess kernel processHandle request state =
          (status, request, { state with heap := heap.free private_ })) ∧
      ∀ tls, convertRequest processHandle request state.slots = .ok tls →
        hookNtSetInformationProcess kernel processHandle request state =
          if ntSuccess kernel.status then
            let answer := kernel.effect
              (if processHandle ≠ 0 then processHandle else ntCurrentProcess) tls state.slots
            let mapping := (List.range answer.1.threadDataCount).foldl
              (remapThread processHandle answer.1)
              ⟨request, state.mmpThreadLocalStoragePointer, answer.2⟩
            (kernel.status, mapping.request, { state with
              mmpThreadLocalStoragePointer := mapping.records
              slots := mapping.slots
              heap := heap.free private_ })
          else (kernel.status, request, { state with heap := heap.free private_ }) := by
  constructor
  · intro heap hallocate
    unfold hookNtSetInformationProcess
    split
    · exact absurd ‹_› hop
    · simp only [rtlAllocateHeap, hallocate]
  · intro private_ heap hallocate hprivate
    obtain ⟨n, rfl⟩ := Nat.exists_eq_succ_of_ne_zero hprivate
    constructor
    · intro status hconvert
      unfold hookNtSetInformationProcess
      split
      · exact absurd ‹_› hop
      · simp only [rtlAllocateHeap, hallocate, hconvert, rtlFreeHeap]
    · intro tls hconvert
      unfold hookNtSetInformationProcess
      split
      · exact absurd ‹_› hop
      · simp only [rtlAllocateHeap, hallocate, hconvert, rtlFreeHeap]

/-- Everything the intercepted call can do: to fail and only use the heap, or to
run the mapping loop on what the kernel did to the request passed on. -/
theorem hookNtSetInformationProcess_cases (kernel : KernelAnswer) (processHandle : Nat)
    (request : ProcessTlsInformation) (state : MmpState) :
    (∃ status heap, ntSuccess status = false ∧
      hookNtSetInformationProcess kernel processHandle request state =
        (status, request, { state with heap := heap })) ∨
    ∃ hProcess tls heap, ntSuccess kernel.status = true ∧
      request.operationType ≠ .maxProcessTlsOperation ∧
      convertRequest processHandle request state.slots = .ok tls ∧
      let answer := kernel.effect hProcess tls state.slots
      let mapping := (List.range answer.1.threadDataCount).foldl
        (remapThread processHandle answer.1)
        ⟨request, state.mmpThreadLocalStoragePointer, answer.2⟩
      hookNtSetInformationProcess kernel processHandle request state =
        (kernel.status, mapping.request, { state with
          mmpThreadLocalStoragePointer := mapping.records
          slots := mapping.slots
          heap := heap }) := by
  rcases Decidable.em (request.operationType = .maxProcessTlsOperation) with hop | hop
  · refine Or.inl ⟨statusInvalidParameter, state.heap, rfl, ?_⟩
    simp only [hookNtSetInformationProcess, hop]
  · obtain ⟨hrefused, hgranted⟩ := hookNtSetInformationProcess_run kernel processHandle state hop
    rcases allocate_cases state.heap with ⟨heap, hallocate, -⟩ |
      ⟨private_, heap, hallocate, hprivate, -⟩
    · exact Or.inl ⟨statusNoMemory, heap, rfl, hrefused heap hallocate⟩
    · obtain ⟨herror, hok⟩ := hgranted private_ heap hallocate hprivate
      cases hconvert : convertRequest processHandle request state.slots with
      | error status =>
        exact Or.inl ⟨status, heap.free private_, convertRequest_error hconvert,
          herror status hconvert⟩
      | ok tls =>
        have hrun := hok tls hconvert
        cases hkernel : ntSuccess kernel.status with
        | false =>
          rw [hkernel] at hrun
          exact Or.inl ⟨kernel.status, heap.free private_, hkernel, hrun⟩
        | true =>
          rw [hkernel] at hrun
          exact Or.inr ⟨_, tls, heap.free private_, rfl, hop, rfl, hrun⟩

/-- A request of the module keeps the records and the slots of ntdll. -/
theorem hookNtSetInformationProcess_module {kernel : KernelAnswer} (hlaw : WritesOnlyIndex kernel)
    (request : ProcessTlsInformation) (state : MmpState) :
    let after := (hookNtSetInformationProcess kernel 0 request state).2.2
    after.mmpThreadLocalStoragePointer = state.mmpThreadLocalStoragePointer ∧
      ∀ v k, k < mmpStartTlsIndex → after.slots v k = state.slots v k := by
  intro after
  have hafter : after = (hookNtSetInformationProcess kernel 0 request state).2.2 := rfl
  rcases hookNtSetInformationProcess_cases kernel 0 request state with
    ⟨status, heap, _, hrun⟩ | ⟨hProcess, tls, heap, _, hop, hconvert, hrun⟩
  · rw [hafter, hrun]
    exact ⟨rfl, fun _ _ _ => rfl⟩
  · obtain ⟨hkind, _, _, hown⟩ := convertRequest_ok hop hconvert
    obtain ⟨hreplace, hlow, _⟩ := hown rfl
    have hmapping := remapThreads_own (kernel.effect hProcess tls state.slots).1
      state.mmpThreadLocalStoragePointer (kernel.effect hProcess tls state.slots).2 hreplace
    simp only [hmapping] at hrun
    rw [hafter, hrun]
    refine ⟨rfl, ?_⟩
    intro v k hk
    exact hlaw hProcess tls state.slots v k hkind (by omega)

end WinPolyfillLoader.MmpTls
