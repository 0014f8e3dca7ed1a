import WinPolyfillLoader.MmpTls.HookExits

/-!
A request that `HookNtSetInformationProcess` rejects. The conversion to an
index and the request to the kernel only edit the private copy, so the one trace
that is left is the copy in the log of the heap, allocated and freed.
-/

namespace WinPolyfillLoader.MmpTls

open ProcessHeap

def CopiesRequest (request : ProcessTlsInformation) (heap : Heap) : Prop :=
  request.operationType ≠ .maxProcessTlsOperation ∧ heap.grants 1 = true

/-- The private copy is allocated once and freed once, and nothing else happens
to the heap. -/
structure CopyFreed (request : ProcessTlsInformation) (before after : Heap) : Prop where
  live : after.live = before.live
  copied : CopiesRequest request before → ∃ copy, copy ≠ 0 ∧ copy ∉ before.live ∧
    Heap.since before after = [.alloc copy, .free copy]
  uncopied : ¬ CopiesRequest request before → Heap.since before after = []

theorem copyFreed_uncopied {request : ProcessTlsInformation} {before after : Heap}
    (hnot : ¬ CopiesRequest request before) (hlive : after.live = before.live)
    (hlog : after.log = before.log) : CopyFreed request before after where
  live := hlive
  copied := fun h => absurd h hnot
  uncopied := fun _ => since_eq (hlog.trans (List.append_nil _).symm)

theorem copyFreed_freed {request : ProcessTlsInformation} {before granted : Heap} {copy : Nat}
    (h : CopiesRequest request before) (h0 : copy ≠ 0) (hfresh : copy ∉ before.live)
    (hlive : granted.live = copy :: before.live)
    (hlog : granted.log = before.log ++ [.alloc copy]) :
    CopyFreed request before (granted.free copy) where
  live := (unused_of_freed h0 hfresh hlive hlog).1
  copied := by
    intro _
    refine ⟨copy, h0, hfresh, since_eq ?_⟩
    rw [free_log h0, hlog, List.append_assoc]
    rfl
  uncopied := fun hnot => absurd h hnot

theorem hookNtSetInformationProcess_copyFreed (kernel : KernelAnswer) (processHandle : Nat)
    (request : ProcessTlsInformation) (state : MmpState) :
    CopyFreed request state.heap
      (hookNtSetInformationProcess kernel processHandle request state).2.2.heap := by
  unfold hookNtSetInformationProcess
  split
  · rename_i hop
    apply copyFreed_uncopied
    · exact fun h => h.1 hop
    · rfl
    · rfl
  · rename_i hop
    rcases rtlAllocateHeap_cases state with ⟨heap, halloc, hlive, hlog, hgrants⟩ |
      ⟨copy, heap, halloc, hcopy, hfresh, hlive, hlog, hgrants⟩
    · simp only [halloc]
      apply copyFreed_uncopied
      · exact fun h => Bool.false_ne_true ((hgrants 0).symm.trans h.2)
      · exact hlive
      · exact hlog
    · have hcopies : CopiesRequest request state.heap := ⟨hop, hgrants 0⟩
      have hfreed := copyFreed_freed hcopies hcopy hfresh hlive hlog
      obtain ⟨n, rfl⟩ := Nat.exists_eq_succ_of_ne_zero hcopy
      simp only [halloc]
      split
      · exact hfreed
      · split
        · exact hfreed
        · exact hfreed

/-- What a rejected request must leave: the buffer of the caller, the records,
and each slot of the vectors as they were, and no copy of the request. -/
structure LeavesNoTrace (request : ProcessTlsInformation) (before : MmpState)
    (request' : ProcessTlsInformation) (after : MmpState) : Prop where
  processInformation : request' = request
  records : after.mmpThreadLocalStoragePointer = before.mmpThreadLocalStoragePointer
  slots : after.slots = before.slots
  copy : CopyFreed request before.heap after.heap

/-- A rejected request leaves no trace, whichever check, allocation or call
rejected it. -/
theorem hookNtSetInformationProcess_rejects {kernel : KernelAnswer} {processHandle : Nat}
    {request request' : ProcessTlsInformation} {state after : MmpState} {status : NtStatus}
    (h : hookNtSetInformationProcess kernel processHandle request state =
      (status, request', after))
    (hfail : ntSuccess status = false) : LeavesNoTrace request state request' after := by
  have hcopy := hookNtSetInformationProcess_copyFreed kernel processHandle request state
  rw [h] at hcopy
  rcases hookNtSetInformationProcess_cases kernel processHandle request state with
    ⟨_, heap, _, hrun⟩ | ⟨_, _, _, hsuccess, _, _, hrun⟩
  · rw [h] at hrun
    cases hrun
    exact ⟨rfl, rfl, rfl, hcopy⟩
  · rw [h] at hrun
    cases hrun
    rw [hfail] at hsuccess
    cases hsuccess

/-- ntdll replaces the vector of one thread, and the kernel refuses. -/
theorem hookNtSetInformationProcess_rejects_refused :
    let state : MmpState :=
      ⟨[], fun _ => false, [⟨0x4000, 4, 0x1010, 0x2010⟩], 1, fun v k => v + k, fun _ => 0,
        ⟨[], [some 0x8000], []⟩⟩
    let request : ProcessTlsInformation := ⟨.processTlsReplaceVector, 1, 5, fun _ => ⟨0, 0x3010, 4⟩⟩
    ∃ request' after, LeavesNoTrace request state request' after ∧
      Heap.since state.heap after.heap = [.alloc 0x8000, .free 0x8000] := by
  intro state request
  let kernel : KernelAnswer := ⟨statusUnsuccessful, fun _ tls slots => (tls, slots)⟩
  let after := rtlFreeHeap (rtlAllocateHeap state).2 0x8000
  have hrun : hookNtSetInformationProcess kernel 7 request state =
      (statusUnsuccessful, request, after) := rfl
  exact ⟨request, after, hookNtSetInformationProcess_rejects hrun rfl, rfl⟩

end WinPolyfillLoader.MmpTls
