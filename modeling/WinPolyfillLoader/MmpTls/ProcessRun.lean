import WinPolyfillLoader.MmpTls.IndexRegistry
import WinPolyfillLoader.MmpTls.Kernel

/-!
The process as a state machine: threads start in two steps, one of ntdll and one
of the module, and exit; modules with TLS are loaded and unloaded; the worker
passes over its queue. ntdll's own part of a step is given with the step.
-/

namespace WinPolyfillLoader.MmpTls

open ProcessHeap ByteMemory

/-- A process with the live blocks of its heap that are neither the module's nor
a vector of a thread. -/
structure ProcessState where
  process : TlsProcess
  otherBlocks : List Nat

/-- The steps. `threadStart` is `MmpAllocateTlsLockHeld` in the new thread,
`threadExit` is `LdrShutdownThread` with the data that ntdll frees, `load` is
`MmpHandleTlsData` with the answer of the kernel, `unload` is
`MmpReleaseTlsEntry`, and `workerPass` one pass of the worker. -/
inductive ProcessStep where
  | ntdllStart (clientId tlsVector : Nat) (data : List Nat)
  | threadStart (clientId : Nat)
  | threadExit (clientId : Nat) (frees : List Nat)
  | load (status : NtStatus) (served : List ServedThread) (indexMapped : Bool)
      (tlsDirectory : Option ImageTlsDirectory) (moduleEntry : Nat)
  | unload (moduleEntry : Nat)
  | workerPass (active : PostponedTls → Bool)

def dataBlocks (data : List Nat) : List Nat := data.filter (fun pointer => pointer != 0)

/-- ntdll gives a new thread a vector, with a pointer in each slot. -/
def ntdllStartThread (clientId tlsVector : Nat) (data : List Nat) (process : TlsProcess) :
    TlsProcess :=
  { process with
    threads := process.threads ++ [⟨clientId, moduleTlsData tlsVector⟩]
    length := Function.update process.length (moduleTlsData tlsVector) data.length
    tlspVectors := process.tlspVectors.filter (fun vector => vector != moduleTlsData tlsVector)
    mmp := { process.mmp with
      slots := fun v k =>
        if v = moduleTlsData tlsVector ∧ k < data.length then data.getD k 0
        else process.mmp.slots v k
      heap := process.mmp.heap.claim (tlsVector :: dataBlocks data) } }

/-- What ntdll does behind the hook of an exiting thread: it frees the vector
that is installed and data of the thread. -/
def ntdllExitThread (clientId vector : Nat) (frees : List Nat) (process : TlsProcess) :
    TlsProcess :=
  { process with
    threads := process.threads.filter (fun teb => teb.clientId != clientId)
    mmp := { process.mmp with
      heap := process.mmp.heap.freeAll (containingTlsVector vector :: frees) } }

/-- One step. A thread that faults in the hook ends the process there. -/
def processStep (s : ProcessState) : ProcessStep → ProcessState
  | .ntdllStart clientId tlsVector data =>
      ⟨ntdllStartThread clientId tlsVector data s.process, dataBlocks data ++ s.otherBlocks⟩
  | .threadStart clientId =>
      { s with process := (mmpAllocateTlsLockHeld clientId s.process).2 }
  | .threadExit clientId frees =>
      match hookLdrShutdownThread clientId s.process with
      | some process =>
          ⟨ntdllExitThread clientId (threadPointer s.process.threads clientId) frees process,
            s.otherBlocks.diff frees⟩
      | none => s
  | .load status served indexMapped tlsDirectory moduleEntry =>
      { s with
        process := { s.process with
          mmp := (mmpHandleTlsData (replaceIndexAnswer status served) indexMapped tlsDirectory
            moduleEntry s.process.mmp).2 } }
  | .unload moduleEntry =>
      { s with process := { s.process with mmp := mmpReleaseTlsEntry moduleEntry s.process.mmp } }
  | .workerPass active =>
      { s with process := mmpReleasePostponedTlsWorker active s.process }

/-- A load reaches the kernel, and the kernel agrees: nothing on the way fails. -/
structure CallsKernel (status : NtStatus) (indexMapped : Bool)
    (tlsDirectory : Option ImageTlsDirectory) (state : MmpState) : Prop where
  directory : tlsDirectory ≠ none
  mapped : indexMapped = true
  index : ∃ k < mmpMaximumTlsIndex, state.mmpTlsBitmap k = false
  grants : state.heap.grants (state.mmpActiveThreadCount.toNat + 3) = true
  agrees : ntSuccess status = true

theorem callsKernel_of {status : NtStatus} {indexMapped : Bool} {state : MmpState}
    {index entry : Nat} {heap : Heap} (hindex : TakesIndex state index entry)
    (hmapped : indexMapped = true)
    (hgrants : ∀ n, state.heap.grants (n + state.mmpActiveThreadCount.toNat + 2) = heap.grants n)
    (hgrant : heap.grants 1 = true) (hstatus : ntSuccess status = true)
    (tlsDirectory : ImageTlsDirectory) :
    CallsKernel status indexMapped (some tlsDirectory) state where
  directory := nofun
  mapped := hmapped
  index := ⟨index, hindex.lt, hindex.clear⟩
  grants := by
    rw [← hgrant, ← hgrants 1]
    congr 1
    omega
  agrees := hstatus

def leftPointers (served : List ServedThread) (request : ProcessTlsInformation)
    (state : MmpState) : List Nat :=
  let answer := processTlsReplaceIndex served request state.slots
  (List.range request.threadDataCount).map fun i =>
    (handBack answer.1 request state.mmpThreadLocalStoragePointer answer.2 i).tlsPointer

theorem tlsRequest_pointers (tlsIndex : Nat) (blocks : List Nat) :
    (List.range blocks.length).map
      (fun i => ((tlsRequest tlsIndex blocks.length blocks).threadData i).tlsPointer) = blocks := by
  apply List.ext_getElem
  · simp
  · intro i hi hi'
    simp [tlsRequest, List.getElem?_eq_getElem hi']

theorem releaseThreadData_refused (tlsIndex : Nat) {blocks : List Nat} {state : MmpState}
    (hlength : blocks.length = state.mmpActiveThreadCount.toNat) :
    releaseThreadData (tlsRequest tlsIndex state.mmpActiveThreadCount.toNat blocks) state =
      { state with heap := state.heap.freeAll blocks, mmpActiveThreadCount := 0 } := by
  let request := tlsRequest tlsIndex state.mmpActiveThreadCount.toNat blocks
  let threads := (List.range state.mmpActiveThreadCount.toNat).map request.threadData
  have hpointers : threads.map ThreadTlsInformation.tlsPointer = blocks := by
    have hpointers := tlsRequest_pointers tlsIndex blocks
    rw [hlength] at hpointers
    rw [List.map_map]
    exact hpointers
  have hflags : threads.countP (fun thread => thread.flags == 0) =
      state.mmpActiveThreadCount.toNat := by
    have hall : threads.countP (fun thread => thread.flags == 0) = threads.length := by
      apply List.countP_eq_length.mpr
      intro thread hthread
      obtain ⟨i, _, rfl⟩ := List.mem_map.mp hthread
      rfl
    rw [hall, List.length_map, List.length_range]
  have hzero : state.mmpActiveThreadCount - BitVec.ofNat 32 state.mmpActiveThreadCount.toNat = 0 := by
    simp
  change ({ state with
    heap := state.heap.freeAll (threads.map ThreadTlsInformation.tlsPointer)
    mmpActiveThreadCount := state.mmpActiveThreadCount -
      BitVec.ofNat 32 (threads.countP fun thread => thread.flags == 0) } : MmpState) = _
  rw [hpointers, hflags, hzero]

theorem releaseThreadData_served (served : List ServedThread) (tlsIndex count : Nat)
    (blocks : List Nat) (before after : MmpState) :
    let request := tlsRequest tlsIndex count blocks
    let answer := processTlsReplaceIndex served request before.slots
    releaseThreadData (handedBack answer.1 request before.mmpThreadLocalStoragePointer answer.2
        answer.1.threadDataCount) after =
      { after with
        heap := after.heap.freeAll (leftPointers served request before)
        mmpActiveThreadCount := after.mmpActiveThreadCount - BitVec.ofNat 32
          ((List.range count).countP fun i => servedFlags served i == 0) } := by
  intro request answer
  have hanswer : answer.1.threadDataCount = count :=
    (processTlsReplaceIndex_request served request before.slots).2.1
  have hdata : (List.range count).map
      (handedBack answer.1 request before.mmpThreadLocalStoragePointer answer.2
        answer.1.threadDataCount).threadData =
      (List.range count).map
        (handBack answer.1 request before.mmpThreadLocalStoragePointer answer.2) := by
    apply List.map_congr_left
    intro i hi
    exact if_pos (hanswer.symm ▸ List.mem_range.mp hi)
  have hflags : ((List.range count).map
      (handBack answer.1 request before.mmpThreadLocalStoragePointer answer.2)).countP
        (fun thread => thread.flags == 0) =
      (List.range count).countP fun i => servedFlags served i == 0 := by
    rw [List.countP_map]
    apply List.countP_congr
    intro i _
    have hsame := servedFlags_eq served request before.slots i
    simp only [Function.comp, handBack, answer, hsame]
    rfl
  change ({ after with
    heap := after.heap.freeAll (((List.range count).map
      (handedBack answer.1 request before.mmpThreadLocalStoragePointer answer.2
        answer.1.threadDataCount).threadData).map ThreadTlsInformation.tlsPointer)
    mmpActiveThreadCount := after.mmpActiveThreadCount - BitVec.ofNat 32 (((List.range count).map
      (handedBack answer.1 request before.mmpThreadLocalStoragePointer answer.2
        answer.1.threadDataCount).threadData).countP
          fun thread => thread.flags == 0) } : MmpState) = _
  rw [hdata, hflags, List.map_map]
  rfl

/-- What a load does once its request is made. It is refused, every block goes
back and every thread is counted off, or the kernel serves the threads, and what
is left in the request goes back. -/
theorem requestAndRelease_cases (status : NtStatus) (served : List ServedThread) (buffer : Nat)
    {index : Nat} {blocks : List Nat} {state : MmpState} (hstart : mmpStartTlsIndex ≤ index)
    (hlt : index < mmpMaximumTlsIndex)
    (hlength : blocks.length = state.mmpActiveThreadCount.toNat) :
    let count := state.mmpActiveThreadCount
    let request := tlsRequest index count.toNat blocks
    let after := (requestAndRelease (replaceIndexAnswer status served) index buffer blocks state).2
    (∃ heap, Heap.Unused state.heap heap ∧
      (state.heap.grants 1 = false ∨ ntSuccess status = false) ∧
      after = { state with heap := (heap.freeAll blocks).free buffer, mmpActiveThreadCount := 0 }) ∨
    (∃ heap, Heap.Unused state.heap heap ∧ state.heap.grants 1 = true ∧ ntSuccess status = true ∧
      after = { state with
        slots := (processTlsReplaceIndex served request state.slots).2
        heap := (heap.freeAll (leftPointers served request state)).free buffer
        mmpActiveThreadCount := count - BitVec.ofNat 32
          ((List.range count.toNat).countP fun i => servedFlags served i == 0) }) := by
  intro count request after
  have hafter : after = rtlFreeHeap (releaseThreadData
      (hookNtSetInformationProcess (replaceIndexAnswer status served) 0 request state).2.1
      (hookNtSetInformationProcess (replaceIndexAnswer status served) 0 request state).2.2)
      buffer := rfl
  have hsuccess := (hookNtSetInformationProcess_own (replaceIndexAnswer status served) index
    count.toNat blocks state).2
  rcases hookNtSetInformationProcess_own_cases (replaceIndexAnswer status served) index count.toNat
      blocks state with
    ⟨failed, heap, hrun, hfailed, hunused, hreason⟩ | ⟨heap, hkernel, _, _, hunused, hrun⟩
  · refine Or.inl ⟨heap, hunused, ?_, ?_⟩
    · rcases hreason with hgrant | hlow | hhigh | hstatus
      · exact Or.inl hgrant
      · exact absurd hlow (Nat.not_lt_of_le hstart)
      · exact absurd hlt (Nat.not_lt_of_le hhigh)
      · exact Or.inr hstatus
    · let refused : MmpState := { state with heap := heap }
      have hlength : blocks.length = refused.mmpActiveThreadCount.toNat := hlength
      rw [hafter, hrun]
      exact congrArg (rtlFreeHeap · buffer) (releaseThreadData_refused index hlength)
  · obtain ⟨hgrant, _, _, hstatus⟩ := hsuccess.mp (hrun ▸ hkernel)
    refine Or.inr ⟨heap, hunused, hgrant, hstatus, ?_⟩
    rw [hafter, hrun]
    exact congrArg (rtlFreeHeap · buffer)
      (releaseThreadData_served served index count.toNat blocks state _)

/-- A process after the hook of an exiting thread with a record: the record is
queued with a copy of its vector. -/
def postponed (clientId : Nat) (record : TlspRecord) (remaining : List TlspRecord)
    (tlsVector : Nat) (heap : Heap) (process : TlsProcess) : TlsProcess :=
  let copied := withTlsp tlsVector heap process
  { copied with
    mmp := { copied.mmp with
      mmpThreadLocalStoragePointer := remaining
      mmpActiveThreadCount := process.mmp.mmpActiveThreadCount - 1
      slots := copySlots copied.mmp.slots (moduleTlsData tlsVector) record.tlspMmpBlock
        mmpMaximumTlsIndex
      heap := if process.mmpPostponedTlsList.isSome then heap else heap.free tlsVector }
    mmpPostponedTlsList :=
      process.mmpPostponedTlsList.map fun items => items ++ [⟨clientId, record, tlsVector⟩] }

theorem hookLdrShutdownThread_cases (clientId : Nat) (process : TlsProcess) :
    (hookLdrShutdownThread clientId process = some process ∧
      ∀ r ∈ process.mmp.mmpThreadLocalStoragePointer, r.uniqueThread ≠ clientId) ∨
    ∃ older record younger,
      process.mmp.mmpThreadLocalStoragePointer = older ++ record :: younger ∧
      record.uniqueThread = clientId ∧
      ((hookLdrShutdownThread clientId process = none ∧ process.mmp.heap.grants 1 = false) ∨
        ∃ tlsVector heap, tlsVector ≠ 0 ∧ Granted process.mmp.heap heap [tlsVector] ∧
          hookLdrShutdownThread clientId process =
            some (postponed clientId record (older ++ younger) tlsVector heap process)) := by
  cases hfind : mmpFindTlspRecordLockHeld clientId process.mmp.mmpThreadLocalStoragePointer with
  | none =>
    refine Or.inl ⟨by simp only [hookLdrShutdownThread, hfind], ?_⟩
    simpa using List.find?_eq_none.mp hfind
  | some record =>
    obtain ⟨hmatch, older, younger, hlist, holder⟩ := List.find?_eq_some_iff_append.mp hfind
    have holder' : ∀ p ∈ older, ¬ (p.uniqueThread == clientId) = true := by
      intro p hp
      simpa using holder p hp
    have herase : process.mmp.mmpThreadLocalStoragePointer.eraseP
        (fun record => record.uniqueThread == clientId) = older ++ younger := by
      rw [hlist, List.eraseP_append_right _ holder']
      exact congrArg (older ++ ·) (List.eraseP_cons_of_pos hmatch)
    refine Or.inr ⟨older, record, younger, hlist, by simpa using hmatch, ?_⟩
    let removed : TlsProcess := { process with
      mmp := { process.mmp with
        mmpThreadLocalStoragePointer := older ++ younger
        mmpActiveThreadCount := process.mmp.mmpActiveThreadCount - 1 } }
    have hhook : hookLdrShutdownThread clientId process =
        mmpQueuePostponedTls clientId record removed := by
      simp only [hookLdrShutdownThread, hfind, herase, removed]
    rcases mmpAllocateTlsp_cases removed with ⟨heap, hvector, _, _, hrefused⟩ |
      ⟨tlsVector, heap, hvector, htls, hgranted, _, _⟩
    · refine Or.inl ⟨?_, hrefused 0⟩
      rw [hhook]
      simp only [mmpQueuePostponedTls, hvector]
    · refine Or.inr ⟨tlsVector, heap, htls, hgranted, ?_⟩
      rw [hhook]
      obtain ⟨n, rfl⟩ := Nat.exists_eq_succ_of_ne_zero htls
      simp only [mmpQueuePostponedTls, hvector]
      cases hqueue : process.mmpPostponedTlsList with
      | none =>
        have hnone : (withTlsp (n + 1) heap removed).mmpPostponedTlsList = none := hqueue
        simp only [hnone, postponed, hqueue]
        rfl
      | some items =>
        have hsome : (withTlsp (n + 1) heap removed).mmpPostponedTlsList = some items := hqueue
        simp only [hsome, postponed, hqueue]
        rfl

def releasedBlocks (mmp : MmpState) (item : PostponedTls) : List Nat :=
  mmp.mmpTlsList.map (fun e => mmp.slots (moduleTlsData item.lpOldTlsVector) e.index) ++
    [containingTlsVector item.lpTlsRecord.tlspLdrBlock, item.lpTlsRecord.address,
      item.lpOldTlsVector]

theorem releasePostponedTls_foldl (items : List PostponedTls) (mmp : MmpState) :
    items.foldl releasePostponedTls mmp =
      { mmp with heap := mmp.heap.freeAll (items.flatMap (releasedBlocks mmp)) } := by
  induction items generalizing mmp with
  | nil => rfl
  | cons item items ih =>
    have hfirst : releasePostponedTls mmp item =
        { mmp with heap := mmp.heap.freeAll (releasedBlocks mmp item) } := rfl
    have hrest : releasedBlocks (releasePostponedTls mmp item) = releasedBlocks mmp := rfl
    rw [List.foldl_cons, ih, hrest, hfirst, List.flatMap_cons, freeAll_append]

theorem mmpReleasePostponedTlsWorker_cases (active : PostponedTls → Bool) (process : TlsProcess) :
    (process.mmpPostponedTlsList = none ∧
      mmpReleasePostponedTlsWorker active process = process) ∨
    ∃ items, process.mmpPostponedTlsList = some items ∧
      mmpReleasePostponedTlsWorker active process = { process with
        mmp := { process.mmp with
          heap := process.mmp.heap.freeAll ((items.filter (fun item => !active item)).flatMap
            (releasedBlocks process.mmp)) }
        mmpPostponedTlsList := some (items.filter active) } := by
  cases hqueue : process.mmpPostponedTlsList with
  | none => exact Or.inl ⟨rfl, by simp only [mmpReleasePostponedTlsWorker, hqueue]⟩
  | some items =>
    refine Or.inr ⟨items, rfl, ?_⟩
    simp only [mmpReleasePostponedTlsWorker, hqueue, releasePostponedTls_foldl]

end WinPolyfillLoader.MmpTls
