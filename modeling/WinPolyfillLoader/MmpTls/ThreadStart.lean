import WinPolyfillLoader.MmpTls.Loading
import WinPolyfillLoader.MmpTls.Threads

/-!
Everything the start of a thread can do, exit by exit: it is skipped, a block is
refused and nothing stays, or the vector is installed and the loop over the
modules gets as far as templates and heap allow.
-/

namespace WinPolyfillLoader.MmpTls

open ProcessHeap ByteMemory

abbrev TlsEntry.index (e : TlsEntry) : Nat := e.tlsDirectory.characteristics

/-- The number of bytes in the template of a list entry. -/
abbrev TlsEntry.length (e : TlsEntry) : Nat := e.tlsDirectory.len

/-- Blocks that were stored in the slots of the entries, one after another. -/
def storeBlocks (vector : Nat) : List TlsEntry → List Nat → Slots → Slots
  | e :: entries, block :: blocks, slots =>
      storeBlocks vector entries blocks (writeSlot slots vector e.index block)
  | _, _, slots => slots

theorem storeBlocks_other {vector : Nat} {entries : List TlsEntry} {blocks : List Nat}
    {slots : Slots} {v k : Nat} (h : v ≠ vector ∨ k ∉ entries.map TlsEntry.index) :
    storeBlocks vector entries blocks slots v k = slots v k := by
  induction entries generalizing blocks slots with
  | nil => rfl
  | cons e entries ih =>
    cases blocks with
    | nil => rfl
    | cons block blocks =>
      have hrest : v ≠ vector ∨ k ∉ entries.map TlsEntry.index :=
        h.imp_right fun hnot hmem => hnot (List.mem_cons_of_mem _ hmem)
      have hfirst : ¬ (v = vector ∧ k = e.index) := by
        rintro ⟨rfl, rfl⟩
        rcases h with hv | hk
        · exact hv rfl
        · exact hk List.mem_cons_self
      exact (ih hrest).trans (writeSlot_other slots block hfirst)

/-- The templates that were copied to the blocks, one after another. -/
def copyTemplates : List TlsEntry → List Nat → Bytes → Bytes
  | e :: entries, block :: blocks, memory =>
      copyTemplates entries blocks
        (blit memory block memory e.tlsDirectory.startAddressOfRawData e.length)
  | _, _, memory => memory

theorem rtlAllocateHeap_next {state : MmpState} {block : Nat} {heap : Heap}
    (halloc : rtlAllocateHeap state = (block, { state with heap := heap })) (hblock : block ≠ 0)
    (n : Nat) : state.heap.next (n + 1) = block :: heap.next n := by
  cases hresult : state.heap.allocate with
  | mk answer next =>
    cases answer with
    | none =>
      rw [rtlAllocateHeap, hresult] at halloc
      exact absurd (congrArg Prod.fst halloc).symm hblock
    | some granted =>
      rw [rtlAllocateHeap, hresult] at halloc
      have hsame : granted = block := congrArg Prod.fst halloc
      have hheap : next = heap := congrArg (fun result => result.2.heap) halloc
      rw [next_succ hresult n, hsame, hheap]

/-- The loop over the modules: it stores one block for each entry until a
template is empty or a block is refused. -/
theorem allocateModuleData_cases (vector : Nat) (entries : List TlsEntry) (state : MmpState) :
    ∃ blocks heap,
      allocateModuleData vector entries state =
        (decide (blocks.length = entries.length), { state with
          slots := storeBlocks vector entries blocks state.slots
          heap := heap
          memory := copyTemplates entries blocks state.memory }) ∧
      Granted state.heap heap blocks ∧ state.heap.next blocks.length = blocks ∧
      blocks.length ≤ entries.length ∧ (∀ e ∈ entries.take blocks.length, e.length ≠ 0) ∧
      (blocks.length < entries.length → state.heap.grants entries.length = true →
        ∃ e, entries[blocks.length]? = some e ∧ e.length = 0) := by
  induction entries generalizing state with
  | nil =>
    exact ⟨[], state.heap, rfl, granted_nil state.heap, rfl, Nat.le_refl 0, by simp,
      fun h => absurd h (Nat.lt_irrefl 0)⟩
  | cons e entries ih =>
    rcases Nat.eq_zero_or_pos e.length with hempty | hpos
    · refine ⟨[], state.heap, ?_, granted_nil state.heap, rfl, Nat.zero_le _, by simp,
        fun _ _ => ⟨e, rfl, hempty⟩⟩
      simp [allocateModuleData, hempty, storeBlocks, copyTemplates]
    · have hlen : e.length ≠ 0 := Nat.ne_of_gt hpos
      rcases rtlAllocateHeap_cases state with ⟨heap, halloc, hlive, hlog, hrefused⟩ |
        ⟨block, heap, halloc, hblock, hfresh, hlive, hlog, hgrants⟩
      · refine ⟨[], heap, ?_, (granted_nil state.heap).refused hlive hlog, rfl, Nat.zero_le _,
          by simp, ?_⟩
        · simp [allocateModuleData, hlen, halloc, storeBlocks, copyTemplates]
        · intro _ hgranted
          rw [List.length_cons, hrefused] at hgranted
          cases hgranted
      · let next : MmpState := { state with
          heap := heap
          memory := blit state.memory block state.memory e.tlsDirectory.startAddressOfRawData
            e.length
          slots := writeSlot state.slots vector e.index block }
        have hunfold : allocateModuleData vector (e :: entries) state =
            allocateModuleData vector entries next := by
          obtain ⟨n, rfl⟩ := Nat.exists_eq_succ_of_ne_zero hblock
          simp only [allocateModuleData, hlen, ne_eq, not_false_eq_true, if_true, halloc]
          rfl
        obtain ⟨blocks, heap', hrun, hgranted, hnext, hle, hfull, hshort⟩ := ih next
        refine ⟨block :: blocks, heap', ?_,
          (granted_single hblock hfresh hlive hlog).append hgranted, ?_, Nat.succ_le_succ hle,
          ?_, ?_⟩
        · rw [hunfold, hrun]
          simp [storeBlocks, copyTemplates, next]
        · rw [List.length_cons, rtlAllocateHeap_next halloc hblock]
          exact congrArg (block :: ·) hnext
        · intro p hp
          rcases List.mem_cons.mp hp with rfl | hp
          · exact hlen
          · exact hfull p hp
        · intro hlt hall
          rw [List.length_cons, hgrants] at hall
          exact hshort (Nat.lt_of_succ_lt_succ hlt) hall

/-- A process after `MmpAllocateTlsp` was granted a block. -/
def withTlsp (tlsVector : Nat) (heap : Heap) (process : TlsProcess) : TlsProcess :=
  { process with
    mmp := { process.mmp with
      heap := heap
      slots := fun v k =>
        if v = moduleTlsData tlsVector ∧ k ≤ mmpMaximumTlsIndex then 0 else process.mmp.slots v k }
    length := Function.update process.length (moduleTlsData tlsVector) 0
    tlspVectors := moduleTlsData tlsVector :: process.tlspVectors }

theorem mmpAllocateTlsp_cases (process : TlsProcess) :
    (∃ heap, mmpAllocateTlsp process =
        (0, { process with mmp := { process.mmp with heap := heap } }) ∧
      heap.live = process.mmp.heap.live ∧ heap.log = process.mmp.heap.log ∧
      ∀ n, process.mmp.heap.grants (n + 1) = false) ∨
    (∃ tlsVector heap, mmpAllocateTlsp process = (tlsVector, withTlsp tlsVector heap process) ∧
      tlsVector ≠ 0 ∧ Granted process.mmp.heap heap [tlsVector] ∧
      (∀ n, process.mmp.heap.next (n + 1) = tlsVector :: heap.next n) ∧
      ∀ n, process.mmp.heap.grants (n + 1) = heap.grants n) := by
  rcases rtlAllocateHeap_cases process.mmp with ⟨heap, halloc, hlive, hlog, hgrants⟩ |
    ⟨tlsVector, heap, halloc, hblock, hfresh, hlive, hlog, hgrants⟩
  · exact Or.inl ⟨heap, by simp only [mmpAllocateTlsp, halloc], hlive, hlog, hgrants⟩
  · refine Or.inr ⟨tlsVector, heap, ?_, hblock, granted_single hblock hfresh hlive hlog,
      rtlAllocateHeap_next halloc hblock, hgrants⟩
    obtain ⟨n, rfl⟩ := Nat.exists_eq_succ_of_ne_zero hblock
    simp only [mmpAllocateTlsp, halloc]
    rfl

/-- The thread has a vector of ntdll and no record yet. -/
def NeedsVector (clientId : Nat) (process : TlsProcess) : Prop :=
  threadPointer process.threads clientId ≠ 0 ∧
    ∀ r ∈ process.mmp.mmpThreadLocalStoragePointer, r.uniqueThread ≠ clientId

/-- A process after the start of a thread whose two blocks were granted, with
the blocks for the templates. -/
def started (clientId record tlsVector : Nat) (blocks : List Nat) (heap : Heap)
    (process : TlsProcess) : TlsProcess :=
  let installed := installTlsp clientId record tlsVector (withTlsp tlsVector heap process)
  { installed with
    mmp := { installed.mmp with
      slots := storeBlocks (moduleTlsData tlsVector) process.mmp.mmpTlsList blocks
        installed.mmp.slots
      memory := copyTemplates process.mmp.mmpTlsList blocks process.mmp.memory
      mmpActiveThreadCount :=
        if blocks.length = process.mmp.mmpTlsList.length then
          process.mmp.mmpActiveThreadCount + 1
        else process.mmp.mmpActiveThreadCount } }

/-- The ways out of `MmpAllocateTlsLockHeld`. -/
inductive StartExit (clientId : Nat) (process : TlsProcess) : Dword × TlsProcess → Prop where
  | skipped (hskip : ¬ NeedsVector clientId process) :
      StartExit clientId process (errorSuccess, process)
  | refused {heap : Heap} (hneeds : NeedsVector clientId process)
      (hunused : Heap.Unused process.mmp.heap heap)
      (hreason : process.mmp.heap.grants 2 = false) :
      StartExit clientId process
        (errorNotEnoughMemory, { process with mmp := { process.mmp with heap := heap } })
  | installed {record tlsVector : Nat} {blocks : List Nat} {heap : Heap}
      (hneeds : NeedsVector clientId process)
      (hgranted : Granted process.mmp.heap heap ([record, tlsVector] ++ blocks))
      (hnext : process.mmp.heap.next (blocks.length + 2) = [record, tlsVector] ++ blocks)
      (hle : blocks.length ≤ process.mmp.mmpTlsList.length)
      (hfull : ∀ e ∈ process.mmp.mmpTlsList.take blocks.length, e.length ≠ 0)
      (hshort : blocks.length < process.mmp.mmpTlsList.length →
        process.mmp.heap.grants (process.mmp.mmpTlsList.length + 2) = true →
          ∃ e, process.mmp.mmpTlsList[blocks.length]? = some e ∧ e.length = 0) :
      StartExit clientId process
        (if blocks.length = process.mmp.mmpTlsList.length then errorSuccess
          else errorNotEnoughMemory,
          started clientId record tlsVector blocks heap process)

theorem mmpAllocateTlsLockHeld_exits (clientId : Nat) (process : TlsProcess) :
    StartExit clientId process (mmpAllocateTlsLockHeld clientId process) := by
  rcases Decidable.em (threadPointer process.threads clientId = 0) with hpointer | hpointer
  · have hrun : mmpAllocateTlsLockHeld clientId process = (errorSuccess, process) := by
      rw [mmpAllocateTlsLockHeld, if_pos hpointer]
    rw [hrun]
    exact .skipped fun hneeds => hneeds.1 hpointer
  · cases hfind : mmpFindTlspRecordLockHeld clientId process.mmp.mmpThreadLocalStoragePointer with
    | some r =>
      have hrun : mmpAllocateTlsLockHeld clientId process = (errorSuccess, process) := by
        simp only [mmpAllocateTlsLockHeld, if_neg hpointer, hfind]
      have hrecord : r.uniqueThread = clientId := by simpa using List.find?_some hfind
      rw [hrun]
      exact .skipped fun hneeds => hneeds.2 r (List.mem_of_find?_eq_some hfind) hrecord
    | none =>
      have hneeds : NeedsVector clientId process :=
        ⟨hpointer, by simpa using List.find?_eq_none.mp hfind⟩
      rcases rtlAllocateHeap_cases process.mmp with ⟨heap, halloc, hlive, hlog, hrefused⟩ |
        ⟨record, heap, halloc, hrecord, hfresh, hlive, hlog, hgrants⟩
      · have hrun : mmpAllocateTlsLockHeld clientId process =
            (errorNotEnoughMemory, { process with mmp := { process.mmp with heap := heap } }) := by
          simp only [mmpAllocateTlsLockHeld, if_neg hpointer, hfind, halloc]
        rw [hrun]
        exact .refused hneeds (unused_of_refused hlive hlog) (hrefused 1)
      · have hsingle := granted_single hrecord hfresh hlive hlog
        let recorded : TlsProcess := { process with mmp := { process.mmp with heap := heap } }
        rcases mmpAllocateTlsp_cases recorded with ⟨heap', hvector, hlive', hlog', hrefused⟩ |
          ⟨tlsVector, heap', hvector, htls, hgranted', hnext', hgrants'⟩
        · have hrun : mmpAllocateTlsLockHeld clientId process = (errorNotEnoughMemory,
              { process with mmp := { process.mmp with heap := heap'.free record } }) := by
            obtain ⟨n, rfl⟩ := Nat.exists_eq_succ_of_ne_zero hrecord
            simp only [mmpAllocateTlsLockHeld, if_neg hpointer, hfind, halloc]
            simp only [recorded] at hvector
            rw [hvector]
            rfl
          rw [hrun]
          refine .refused hneeds ?_ ((hgrants 1).trans (hrefused 0))
          exact unused_of_freed hrecord hfresh (hlive'.trans hlive) (hlog'.trans hlog)
        · obtain ⟨blocks, heap'', hdata, hgranted'', hnext'', hle, hfull, hshort⟩ :=
            allocateModuleData_cases (moduleTlsData tlsVector) process.mmp.mmpTlsList
              (installTlsp clientId record tlsVector (withTlsp tlsVector heap' recorded)).mmp
          have hrun : mmpAllocateTlsLockHeld clientId process =
              (if blocks.length = process.mmp.mmpTlsList.length then errorSuccess
                else errorNotEnoughMemory,
                started clientId record tlsVector blocks heap'' process) := by
            obtain ⟨n, rfl⟩ := Nat.exists_eq_succ_of_ne_zero hrecord
            obtain ⟨m, rfl⟩ := Nat.exists_eq_succ_of_ne_zero htls
            simp only [mmpAllocateTlsLockHeld, if_neg hpointer, hfind, halloc]
            simp only [recorded] at hvector hdata
            rw [hvector]
            simp only
            have hlist : (installTlsp clientId (n + 1) (m + 1) (withTlsp (m + 1) heap'
                { process with mmp := { process.mmp with heap := heap } })).mmp.mmpTlsList =
                  process.mmp.mmpTlsList := rfl
            rw [hlist, hdata]
            rcases Decidable.em (blocks.length = process.mmp.mmpTlsList.length) with heq | hne
            · simp only [heq, decide_true, if_true, started]
              rfl
            · simp only [hne, decide_false, if_false, started]
              rfl
          rw [hrun]
          refine .installed hneeds ?_ ?_ hle hfull ?_
          · exact (hsingle.append hgranted').append hgranted''
          · rw [rtlAllocateHeap_next halloc hrecord]
            exact congrArg (record :: ·) ((hnext' _).trans (congrArg (tlsVector :: ·) hnext''))
          · intro hlt hall
            exact hshort hlt (((hgrants' _).symm.trans (hgrants _).symm).trans hall)

end WinPolyfillLoader.MmpTls
