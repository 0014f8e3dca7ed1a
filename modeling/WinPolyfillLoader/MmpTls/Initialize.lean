import WinPolyfillLoader.MmpTls.ThreadStart
import WinPolyfillLoader.Library.HeapLedger

/-!
`MmpTlsInitialize`: the threads that run already get their vectors through one
request `ProcessTlsReplaceVector`, before the functions of ntdll are hooked.
-/

namespace WinPolyfillLoader.MmpTls

open ProcessHeap

/-- What `MmpGetThreadCount` learns of one thread of the process: whether it
can be opened and queried, and its `ThreadLocalStoragePointer`. -/
structure SystemThread where
  opened : Bool
  queried : Bool
  threadLocalStoragePointer : Nat
deriving DecidableEq, Repr

/-- `MmpGetThreadCount`. `spi` are the threads of the process in the snapshot,
whose buffer is freed before the return. -/
def mmpGetThreadCount (spi : Option (List SystemThread)) : Dword :=
  match spi with
  | some threads =>
      BitVec.ofNat 32 (threads.countP fun thread =>
        thread.opened && thread.queried && thread.threadLocalStoragePointer != 0)
  | none => 0

/-- What the kernel answers to `ProcessTlsReplaceVector`: it edits the request,
the vectors and the pointers of the threads. -/
structure ReplaceVectorAnswer where
  status : NtStatus
  effect : ProcessTlsInformation → Slots → List Teb → ProcessTlsInformation × Slots × List Teb

/-- One `TLS_VECTOR` for each of `n` threads; when a request fails, the earlier
ones are freed again. -/
def allocateTlspVectors : Nat → List Nat → TlsProcess → Option (List Nat) × TlsProcess
  | 0, vectors, process => (some vectors, process)
  | n + 1, vectors, process =>
    match mmpAllocateTlsp process with
    | (0, process) =>
        (none, { process with
          mmp := { process.mmp with heap := process.mmp.heap.freeAll vectors } })
    | (tlsVector, process) => allocateTlspVectors n (vectors ++ [tlsVector]) process

def vectorRequest (tlsVectorLength threadCount : Nat) (vectors : List Nat) :
    ProcessTlsInformation where
  operationType := .processTlsReplaceVector
  threadDataCount := threadCount
  tlsIndex := tlsVectorLength
  threadData := fun i => ⟨0, (vectors.map moduleTlsData).getD i 0, 0⟩

/-- The record of each element: the vector that came back, the one that was
sent, and the thread the kernel reports. A refused record is not checked. -/
def insertTlspRecords (tls tmp : ProcessTlsInformation) :
    List Nat → MmpState → Option MmpState
  | [], state => some state
  | i :: rest, state =>
    match rtlAllocateHeap state with
    | (0, _) => none
    | (record, state) =>
      insertTlspRecords tls tmp rest { state with
        mmpThreadLocalStoragePointer := state.mmpThreadLocalStoragePointer ++
          [⟨record, (tls.threadData i).threadId, (tls.threadData i).tlsPointer,
            (tmp.threadData i).tlsPointer⟩] }

/-- `PreHookNtSetInformationProcess` in the thread `clientId`. Without a buffer,
and when the kernel refuses, it still answers true. -/
def preHookNtSetInformationProcess (kernel : ReplaceVectorAnswer)
    (spi : Option (List SystemThread)) (clientId : Nat) (process : TlsProcess) :
    Except NtStatus (Bool × TlsProcess) :=
  let size := process.length (threadPointer process.threads clientId)
  let threadCount := (mmpGetThreadCount spi).toNat
  match rtlAllocateHeap process.mmp with
  | (0, mmp) => .ok (true, { process with mmp := mmp })
  | (buffer, mmp) =>
    match allocateTlspVectors threadCount [] { process with mmp := mmp } with
    | (none, process) => .ok (false, { process with mmp := rtlFreeHeap process.mmp buffer })
    | (some vectors, process) =>
      let tmp := vectorRequest (if size = clientId then 0 else size) threadCount vectors
      if ntSuccess kernel.status then
        let (tls, slots, threads) := kernel.effect tmp process.mmp.slots process.threads
        match insertTlspRecords tls tmp (List.range threadCount)
            { process.mmp with slots := slots } with
        | none => .error statusAccessViolation
        | some mmp =>
            .ok (true, { process with mmp := rtlFreeHeap mmp buffer, threads := threads })
      else .ok (true, { process with mmp := rtlFreeHeap process.mmp buffer })

def emptyRegistry (threadCount : Dword) (mmp : MmpState) : MmpState :=
  { mmp with
    mmpTlsList := []
    mmpTlsBitmap := fun k => k < mmpStartTlsIndex
    mmpThreadLocalStoragePointer := []
    mmpActiveThreadCount := threadCount }

/-- `MmpTlsInitialize` in the thread `clientId`, with the two snapshots that its
two calls of `MmpGetThreadCount` see. A thread without a vector faults in the
first check, an initialization that raises a status does not return. -/
def mmpTlsInitialize (kernel : ReplaceVectorAnswer) (spi spi' : Option (List SystemThread))
    (clientId : Nat) (process : TlsProcess) : Except NtStatus TlsProcess :=
  let pointer := threadPointer process.threads clientId
  if pointer = 0 then .error statusAccessViolation
  else if containingTlsVector pointer ≠ 0 ∧ process.length pointer ≠ clientId ∧
      mmpStartTlsIndex < process.length pointer then .error statusNotSupported
  else
    match rtlAllocateHeap (emptyRegistry (mmpGetThreadCount spi) process.mmp) with
    | (0, _) => .error statusNoMemory
    | (_, mmp) =>
      match preHookNtSetInformationProcess kernel spi' clientId { process with mmp := mmp } with
      | .error status => .error status
      | .ok (false, _) => .error statusUnsuccessful
      | .ok (true, process) =>
        match rtlAllocateHeap process.mmp with
        | (0, _) => .error statusAccessViolation
        | (_, mmp) => .ok { process with mmp := mmp, mmpPostponedTlsList := some [] }

/-- The globals stay but for the heap, as vectors were allocated meanwhile. -/
structure WithVectors (before after : TlsProcess) (vectors : List Nat) : Prop where
  globals : ∃ slots heap, after.mmp = { before.mmp with slots := slots, heap := heap }
  threads : after.threads = before.threads
  mem : ∀ v, v ∈ after.tlspVectors ↔ v ∈ vectors.map moduleTlsData ∨ v ∈ before.tlspVectors
  zero : ∀ v ∈ vectors.map moduleTlsData, ∀ k ≤ mmpMaximumTlsIndex, after.mmp.slots v k = 0
  slots : ∀ v ∉ vectors.map moduleTlsData, after.mmp.slots v = before.mmp.slots v
  length : ∀ v ∉ vectors.map moduleTlsData, after.length v = before.length v

theorem withVectors_nil (process : TlsProcess) (heap : Heap) :
    WithVectors process { process with mmp := { process.mmp with heap := heap } } [] where
  globals := ⟨process.mmp.slots, heap, rfl⟩
  threads := rfl
  mem := by simp
  zero := by simp
  slots := fun _ _ => rfl
  length := fun _ _ => rfl

theorem withVectors_withTlsp (tlsVector : Nat) (heap : Heap) (process : TlsProcess) :
    WithVectors process (withTlsp tlsVector heap process) [tlsVector] where
  globals := ⟨_, heap, rfl⟩
  threads := rfl
  mem := by simp [withTlsp]
  zero := by
    intro v hv k hk
    rw [List.map_singleton, List.mem_singleton] at hv
    simp [withTlsp, hv, hk]
  slots := by
    intro v hv
    rw [List.map_singleton, List.mem_singleton] at hv
    simp [withTlsp, hv]
  length := by
    intro v hv
    rw [List.map_singleton, List.mem_singleton] at hv
    exact Function.update_of_ne hv _ _

theorem WithVectors.trans {before between after : TlsProcess} {vectors vectors' : List Nat}
    (h : WithVectors before between vectors) (h' : WithVectors between after vectors') :
    WithVectors before after (vectors ++ vectors') := by
  have hnot : ∀ v, v ∉ (vectors ++ vectors').map moduleTlsData →
      v ∉ vectors.map moduleTlsData ∧ v ∉ vectors'.map moduleTlsData := by
    intro v hv
    rw [List.map_append, List.mem_append, not_or] at hv
    exact hv
  constructor
  · obtain ⟨_, _, hglobals⟩ := h.globals
    obtain ⟨slots, heap, hglobals'⟩ := h'.globals
    exact ⟨slots, heap, by rw [hglobals', hglobals]⟩
  · exact h'.threads.trans h.threads
  · intro v
    rw [h'.mem, h.mem, List.map_append, List.mem_append]
    tauto
  · intro v hv k hk
    rcases Decidable.em (v ∈ vectors'.map moduleTlsData) with hnew | hold
    · exact h'.zero v hnew k hk
    · rw [List.map_append, List.mem_append] at hv
      rw [h'.slots v hold]
      exact h.zero v (hv.resolve_right hold) k hk
  · intro v hv
    exact (h'.slots v (hnot v hv).2).trans (h.slots v (hnot v hv).1)
  · intro v hv
    exact (h'.length v (hnot v hv).2).trans (h.length v (hnot v hv).1)

theorem allocateTlspVectors_cases (n : Nat) {vectors : List Nat} (hvectors : ∀ b ∈ vectors, b ≠ 0)
    (process : TlsProcess) :
    (∃ more after, allocateTlspVectors n vectors process = (none, after) ∧
      process.mmp.heap.grants n = false ∧
      (∃ slots heap, after.mmp = { process.mmp with slots := slots, heap := heap }) ∧
      after.threads = process.threads ∧
      after.mmp.heap.log = process.mmp.heap.log ++ more.map .alloc ++ (vectors ++ more).map .free) ∨
    ∃ more after, allocateTlspVectors n vectors process = (some (vectors ++ more), after) ∧
      (∀ k, process.mmp.heap.grants (n + k) = after.mmp.heap.grants k) ∧
      more.length = n ∧ Granted process.mmp.heap after.mmp.heap more ∧
      WithVectors process after more := by
  induction n generalizing vectors process with
  | zero =>
    refine Or.inr ⟨[], process, ?_, ?_, rfl, granted_nil process.mmp.heap,
      withVectors_nil process process.mmp.heap⟩
    · rw [List.append_nil]
      rfl
    · intro k
      rw [Nat.zero_add]
  | succ n ih =>
    rcases mmpAllocateTlsp_cases process with ⟨heap, hrun, _, hlog, hgrants⟩ |
      ⟨tlsVector, heap, hrun, htls, hgranted, _, hgrants⟩
    · refine Or.inl ⟨[], { process with mmp := { process.mmp with
        heap := heap.freeAll vectors } }, ?_, hgrants n, ⟨_, _, rfl⟩, rfl, ?_⟩
      · simp only [allocateTlspVectors, hrun]
      · rw [List.map_nil, List.append_nil, List.append_nil, freeAll_log hvectors, hlog]
    · have hnext : allocateTlspVectors (n + 1) vectors process =
          allocateTlspVectors n (vectors ++ [tlsVector]) (withTlsp tlsVector heap process) := by
        obtain ⟨m, rfl⟩ := Nat.exists_eq_succ_of_ne_zero htls
        simp only [allocateTlspVectors, hrun]
      have hmore : ∀ b ∈ vectors ++ [tlsVector], b ≠ 0 := by
        intro b hb
        rcases List.mem_append.mp hb with hb | hb
        · exact hvectors b hb
        · rw [List.mem_singleton.mp hb]
          exact htls
      rw [hnext]
      rcases ih hmore (withTlsp tlsVector heap process) with
        ⟨more, after, hnone, hrefused, ⟨slots, heap', hglobals⟩, hthreads, hlog⟩ |
        ⟨more, after, hsome, hgranted', hlength, hheap, hafter⟩
      · refine Or.inl ⟨tlsVector :: more, after, hnone, (hgrants n).trans hrefused,
          ⟨slots, heap', hglobals⟩, hthreads, ?_⟩
        have hfirst : (withTlsp tlsVector heap process).mmp.heap.log =
            process.mmp.heap.log ++ [.alloc tlsVector] := hgranted.log
        rw [hlog, hfirst]
        simp only [List.append_assoc, List.singleton_append, List.map_cons]
      · refine Or.inr ⟨tlsVector :: more, after, ?_, ?_, congrArg (· + 1) hlength,
          hgranted.append hheap, (withVectors_withTlsp tlsVector heap process).trans hafter⟩
        · rw [hsome, List.append_assoc]
          rfl
        · intro k
          have hk : n + 1 + k = n + k + 1 := by omega
          rw [hk]
          exact (hgrants (n + k)).trans (hgranted' k)

abbrev TlspRecord.fields (r : TlspRecord) : Nat × Nat × Nat :=
  (r.uniqueThread, r.tlspLdrBlock, r.tlspMmpBlock)

theorem insertTlspRecords_cases (tls tmp : ProcessTlsInformation) (elements : List Nat)
    (state : MmpState) :
    (state.heap.grants elements.length = false ∧
      insertTlspRecords tls tmp elements state = none) ∨
    (state.heap.grants elements.length = true ∧ ∃ records heap,
      insertTlspRecords tls tmp elements state = some { state with
        mmpThreadLocalStoragePointer := state.mmpThreadLocalStoragePointer ++ records
        heap := heap } ∧
      Granted state.heap heap (records.map TlspRecord.address) ∧
      records.map TlspRecord.fields = elements.map (fun i => ((tls.threadData i).threadId,
        (tls.threadData i).tlsPointer, (tmp.threadData i).tlsPointer))) := by
  induction elements generalizing state with
  | nil =>
    refine Or.inr ⟨rfl, [], state.heap, ?_, granted_nil state.heap, rfl⟩
    rw [List.append_nil]
    rfl
  | cons i rest ih =>
    rcases rtlAllocateHeap_cases state with ⟨heap, halloc, _, _, hgrants⟩ |
      ⟨record, heap, halloc, hrecord, hfresh, hlive, hlog, hgrants⟩
    · refine Or.inl ⟨hgrants rest.length, ?_⟩
      simp only [insertTlspRecords, halloc]
    · let inserted : TlspRecord := ⟨record, (tls.threadData i).threadId,
        (tls.threadData i).tlsPointer, (tmp.threadData i).tlsPointer⟩
      let next : MmpState := { state with
        mmpThreadLocalStoragePointer := state.mmpThreadLocalStoragePointer ++ [inserted]
        heap := heap }
      have hnext : insertTlspRecords tls tmp (i :: rest) state =
          insertTlspRecords tls tmp rest next := by
        obtain ⟨n, rfl⟩ := Nat.exists_eq_succ_of_ne_zero hrecord
        simp only [insertTlspRecords, halloc]
        rfl
      rw [List.length_cons, hgrants, hnext]
      rcases ih next with ⟨hrefused, hnone⟩ | ⟨hgranted, records, heap', hsome, hheap, hfields⟩
      · exact Or.inl ⟨hrefused, hnone⟩
      · have hsingle := granted_single hrecord hfresh hlive hlog
        refine Or.inr ⟨hgranted, inserted :: records, heap', ?_, hsingle.append hheap, ?_⟩
        · rw [hsome]
          simp only [next, List.append_assoc, List.singleton_append]
        · rw [List.map_cons, List.map_cons, hfields]

/-- The request that a process makes in the thread that initializes it. -/
def initRequest (spi : Option (List SystemThread)) (clientId : Nat) (process : TlsProcess)
    (vectors : List Nat) : ProcessTlsInformation :=
  let size := process.length (threadPointer process.threads clientId)
  vectorRequest (if size = clientId then 0 else size) (mmpGetThreadCount spi).toNat vectors

/-- The vectors of that request, which are allocated behind its buffer. -/
def preHookVectors (spi : Option (List SystemThread)) (process : TlsProcess) :
    Option (List Nat) × TlsProcess :=
  allocateTlspVectors (mmpGetThreadCount spi).toNat []
    { process with mmp := (rtlAllocateHeap process.mmp).2 }

/-- Everything that `PreHookNtSetInformationProcess` can do. -/
inductive PreHookRun (kernel : ReplaceVectorAnswer) (spi : Option (List SystemThread))
    (clientId : Nat) (process : TlsProcess) : Except NtStatus (Bool × TlsProcess) → Prop where
  /-- The buffer of the request is refused. -/
  | unbuffered {heap : Heap} (hgrants : process.mmp.heap.grants 1 = false)
      (hheap : Moves process.mmp.heap heap [] []) :
      PreHookRun kernel spi clientId process
        (.ok (true, { process with mmp := { process.mmp with heap := heap } }))
  /-- A vector is refused. -/
  | withdrawn {after : TlsProcess} {buffer : Nat} {vectors : List Nat}
      (hbuffer : process.mmp.heap.grants 1 = true)
      (hgrants : process.mmp.heap.grants ((mmpGetThreadCount spi).toNat + 1) = false)
      (hglobals : ∃ slots heap, after.mmp = { process.mmp with slots := slots, heap := heap })
      (hthreads : after.threads = process.threads)
      (hlog : after.mmp.heap.log = process.mmp.heap.log ++
        ((buffer :: vectors).map .alloc ++ (vectors ++ [buffer]).map .free)) :
      PreHookRun kernel spi clientId process (.ok (false, after))
  /-- The kernel refuses the request. -/
  | refused {vectors : List Nat} {ready : TlsProcess}
      (hgrants : process.mmp.heap.grants ((mmpGetThreadCount spi).toNat + 1) = true)
      (hkernel : ntSuccess kernel.status = false) (hvectors : WithVectors process ready vectors)
      (hheap : Grows process.mmp.heap ready.mmp.heap vectors) :
      PreHookRun kernel spi clientId process (.ok (true, ready))
  /-- A record is refused, and the write to it faults. -/
  | faulted
      (hgrants : process.mmp.heap.grants ((mmpGetThreadCount spi).toNat + 1) = true)
      (hkernel : ntSuccess kernel.status = true)
      (hrefused : process.mmp.heap.grants
        ((mmpGetThreadCount spi).toNat + (mmpGetThreadCount spi).toNat + 1) = false) :
      PreHookRun kernel spi clientId process (.error statusAccessViolation)
  | recorded {vectors : List Nat} {ready : TlsProcess} {records : List TlspRecord} {heap : Heap}
      (hgrants : process.mmp.heap.grants
        ((mmpGetThreadCount spi).toNat + (mmpGetThreadCount spi).toNat + 1) = true)
      (hkernel : ntSuccess kernel.status = true)
      (hallocated : preHookVectors spi process = (some vectors, ready))
      (hvectors : WithVectors process ready vectors)
      (hlength : vectors.length = (mmpGetThreadCount spi).toNat) (hnodup : vectors.Nodup)
      (hne : ∀ b ∈ vectors, b ≠ 0)
      (hheap : Grows process.mmp.heap heap (vectors ++ records.map TlspRecord.address))
      (hfields : records.map TlspRecord.fields =
        (List.range (mmpGetThreadCount spi).toNat).map (fun i =>
          let request := initRequest spi clientId process vectors
          let tls := (kernel.effect request ready.mmp.slots ready.threads).1
          ((tls.threadData i).threadId, (tls.threadData i).tlsPointer,
            (request.threadData i).tlsPointer))) :
      PreHookRun kernel spi clientId process (.ok (true,
        let request := initRequest spi clientId process vectors
        let answer := kernel.effect request ready.mmp.slots ready.threads
        { ready with
          mmp := { ready.mmp with
            slots := answer.2.1
            mmpThreadLocalStoragePointer := ready.mmp.mmpThreadLocalStoragePointer ++ records
            heap := heap }
          threads := answer.2.2 }))

theorem preHookNtSetInformationProcess_runs (kernel : ReplaceVectorAnswer)
    (spi : Option (List SystemThread)) (clientId : Nat) (process : TlsProcess) :
    PreHookRun kernel spi clientId process
      (preHookNtSetInformationProcess kernel spi clientId process) := by
  unfold preHookNtSetInformationProcess
  rcases rtlAllocateHeap_cases process.mmp with ⟨heap, halloc, hlive, hlog, hgrants⟩ |
    ⟨buffer, heap, halloc, hbuffer, hfresh, hlive, hlog, hgrants⟩
  · simp only [halloc]
    exact .unbuffered (hgrants 0) (unused_of_refused hlive hlog).moves
  · have hsingle := granted_single hbuffer hfresh hlive hlog
    let buffered : TlsProcess := { process with mmp := { process.mmp with heap := heap } }
    have hbuffered : WithVectors process buffered [] := withVectors_nil process heap
    obtain ⟨m, rfl⟩ := Nat.exists_eq_succ_of_ne_zero hbuffer
    simp only [halloc]
    rcases allocateTlspVectors_cases (mmpGetThreadCount spi).toNat (List.forall_mem_nil _)
      buffered with
      ⟨more, after, hrun, hrefused, ⟨slots, heap', hglobals⟩, hthreads, hfreed⟩ |
      ⟨vectors, ready, hrun, hready, hlength, hgranted, hvectors⟩
    · simp only [buffered] at hrun
      simp only [hrun]
      have hfreedLog : (after.mmp.heap.free (m + 1)).log = process.mmp.heap.log ++
          (((m + 1) :: more).map .alloc ++ (more ++ [m + 1]).map .free) := by
        have hstart : buffered.mmp.heap.log = process.mmp.heap.log ++ [.alloc (m + 1)] := hlog
        rw [free_log hbuffer, hfreed, hstart]
        simp only [List.map_cons, List.map_append, List.map_nil, List.append_assoc, List.nil_append,
          List.cons_append]
      exact .withdrawn (hgrants 0) ((hgrants _).trans hrefused)
        ⟨slots, heap'.free (m + 1), by rw [rtlFreeHeap, hglobals]⟩ hthreads hfreedLog
    · have hall := hbuffered.trans hvectors
      have hgrows := hsingle.moves.grows.trans hgranted.moves.grows
      simp only [buffered, List.nil_append] at hrun
      have hallocated : preHookVectors spi process = (some vectors, ready) := by
        rw [preHookVectors, halloc, hrun]
      simp only [hrun]
      have hvectorsGranted : process.mmp.heap.grants ((mmpGetThreadCount spi).toNat + 1) = true :=
        (hgrants _).trans (hready 0)
      cases hkernel : ntSuccess kernel.status with
      | false =>
        have hfreed := hall.trans (withVectors_nil ready (ready.mmp.heap.free (m + 1)))
        rw [List.nil_append, List.append_nil] at hfreed
        exact .refused hvectorsGranted hkernel hfreed hgrows.free
      | true =>
        simp only [if_true]
        let request := initRequest spi clientId process vectors
        let answer := kernel.effect request ready.mmp.slots ready.threads
        let served : MmpState := { ready.mmp with slots := answer.2.1 }
        have hmore : ∀ k, process.mmp.heap.grants ((mmpGetThreadCount spi).toNat + k + 1) =
            served.heap.grants k := fun k => (hgrants _).trans (hready k)
        have hcount := hmore (mmpGetThreadCount spi).toNat
        have hinsert := insertTlspRecords_cases answer.1 request
          (List.range (mmpGetThreadCount spi).toNat) served
        rw [List.length_range, ← hcount] at hinsert
        split
        · rename_i hnone
          rcases hinsert with ⟨hrefused, _⟩ | ⟨_, _, _, hsome, _⟩
          · exact .faulted hvectorsGranted hkernel hrefused
          · cases hsome.symm.trans hnone
        · rename_i mmp hinserted
          rcases hinsert with ⟨_, hnone⟩ | ⟨hrecords, records, heap', hsome, hheap, hfields⟩
          · cases hnone.symm.trans hinserted
          · cases hsome.symm.trans hinserted
            exact .recorded hrecords hkernel hallocated hall hlength hgranted.nodup
              (fun b hb => (hgranted.fresh b hb).1) (hgrows.trans hheap.moves.grows).free hfields

/-- The ways out of `PreHookNtSetInformationProcess` that answer true: without a
buffer, and when the kernel refuses, no record is inserted. -/
inductive PreHookExit (kernel : ReplaceVectorAnswer) (spi : Option (List SystemThread))
    (clientId : Nat) (process : TlsProcess) : TlsProcess → Prop where
  | unrecorded {vectors : List Nat} {ready : TlsProcess}
      (hvectors : WithVectors process ready vectors)
      (hheap : Grows process.mmp.heap ready.mmp.heap vectors)
      (hreason : process.mmp.heap.grants 1 = false ∨ ntSuccess kernel.status = false) :
      PreHookExit kernel spi clientId process ready
  | recorded {vectors : List Nat} {ready : TlsProcess} {records : List TlspRecord} {heap : Heap}
      (hallocated : preHookVectors spi process = (some vectors, ready))
      (hvectors : WithVectors process ready vectors)
      (hlength : vectors.length = (mmpGetThreadCount spi).toNat) (hne : ∀ b ∈ vectors, b ≠ 0)
      (hheap : Grows process.mmp.heap heap (vectors ++ records.map TlspRecord.address))
      (hfields : records.map TlspRecord.fields =
        (List.range (mmpGetThreadCount spi).toNat).map (fun i =>
          let request := initRequest spi clientId process vectors
          let tls := (kernel.effect request ready.mmp.slots ready.threads).1
          ((tls.threadData i).threadId, (tls.threadData i).tlsPointer,
            (request.threadData i).tlsPointer)))
      (hgrants : process.mmp.heap.grants 1 = true) (hkernel : ntSuccess kernel.status = true) :
      PreHookExit kernel spi clientId process (
        let request := initRequest spi clientId process vectors
        let answer := kernel.effect request ready.mmp.slots ready.threads
        { ready with
          mmp := { ready.mmp with
            slots := answer.2.1
            mmpThreadLocalStoragePointer := ready.mmp.mmpThreadLocalStoragePointer ++ records
            heap := heap }
          threads := answer.2.2 })

theorem preHookNtSetInformationProcess_exits {kernel : ReplaceVectorAnswer}
    {spi : Option (List SystemThread)} {clientId : Nat} {process after : TlsProcess}
    (h : preHookNtSetInformationProcess kernel spi clientId process = .ok (true, after)) :
    PreHookExit kernel spi clientId process after := by
  have hrun := preHookNtSetInformationProcess_runs kernel spi clientId process
  rw [h] at hrun
  cases hrun with
  | unbuffered hgrants hheap =>
    exact .unrecorded (withVectors_nil process _) hheap.grows (Or.inl hgrants)
  | refused hgrants hkernel hvectors hheap =>
    exact .unrecorded hvectors hheap (Or.inr hkernel)
  | recorded hgrants hkernel hallocated hvectors hlength hnodup hne hheap hfields =>
    exact .recorded hallocated hvectors hlength hne hheap hfields
      (grants_of_le (Nat.succ_le_succ (Nat.zero_le _)) hgrants) hkernel

/-- The vectors that `MmpTlsInitialize` has allocated when it makes its request. -/
def initVectors (spi spi' : Option (List SystemThread)) (process : TlsProcess) :
    Option (List Nat) × TlsProcess :=
  preHookVectors spi' { process with
    mmp := (rtlAllocateHeap (emptyRegistry (mmpGetThreadCount spi) process.mmp)).2 }

inductive InitExit (kernel : ReplaceVectorAnswer) (spi spi' : Option (List SystemThread))
    (clientId : Nat) (process : TlsProcess) : TlsProcess → Prop where
  | unrecorded {vectors : List Nat} {ready : TlsProcess}
      (hvectors : WithVectors
        { process with mmp := emptyRegistry (mmpGetThreadCount spi) process.mmp } ready vectors)
      (hheap : Grows process.mmp.heap ready.mmp.heap vectors)
      (hreason : process.mmp.heap.grants 2 = false ∨ ntSuccess kernel.status = false) :
      InitExit kernel spi spi' clientId process { ready with mmpPostponedTlsList := some [] }
  | recorded {vectors : List Nat} {ready : TlsProcess} {records : List TlspRecord} {heap : Heap}
      (hpointer : threadPointer process.threads clientId ≠ 0)
      (hallocated : initVectors spi spi' process = (some vectors, ready))
      (hvectors : WithVectors
        { process with mmp := emptyRegistry (mmpGetThreadCount spi) process.mmp } ready vectors)
      (hlength : vectors.length = (mmpGetThreadCount spi').toNat) (hne : ∀ b ∈ vectors, b ≠ 0)
      (hheap : Grows process.mmp.heap heap (vectors ++ records.map TlspRecord.address))
      (hfields : records.map TlspRecord.fields =
        (List.range (mmpGetThreadCount spi').toNat).map (fun i =>
          let request := initRequest spi' clientId process vectors
          let tls := (kernel.effect request ready.mmp.slots ready.threads).1
          ((tls.threadData i).threadId, (tls.threadData i).tlsPointer,
            (request.threadData i).tlsPointer)))
      (hgrants : process.mmp.heap.grants 2 = true) (hkernel : ntSuccess kernel.status = true) :
      InitExit kernel spi spi' clientId process (
        let request := initRequest spi' clientId process vectors
        let answer := kernel.effect request ready.mmp.slots ready.threads
        { ready with
          mmp := { ready.mmp with
            slots := answer.2.1
            mmpThreadLocalStoragePointer := records
            heap := heap }
          threads := answer.2.2
          mmpPostponedTlsList := some [] })

theorem mmpTlsInitialize_exits {kernel : ReplaceVectorAnswer}
    {spi spi' : Option (List SystemThread)} {clientId : Nat} {process start : TlsProcess}
    (h : mmpTlsInitialize kernel spi spi' clientId process = .ok start) :
    InitExit kernel spi spi' clientId process start := by
  unfold mmpTlsInitialize at h
  simp only at h
  split at h
  · cases h
  · rename_i hpointer
    split at h
    · cases h
    · rcases rtlAllocateHeap_cases (emptyRegistry (mmpGetThreadCount spi) process.mmp) with
        ⟨heap, halloc, _⟩ | ⟨bits, heap, halloc, hbits, hfresh, hlive, hlog, hgrants⟩
      · simp only [halloc] at h
        cases h
      · obtain ⟨m, rfl⟩ := Nat.exists_eq_succ_of_ne_zero hbits
        simp only [halloc] at h
        have hsingle := (granted_single hbits hfresh hlive hlog).moves.grows
        have hgranted : process.mmp.heap.grants 2 = heap.grants 1 := hgrants 1
        split at h
        · cases h
        · cases h
        · rename_i ready hready
          have hexit := preHookNtSetInformationProcess_exits hready
          rcases rtlAllocateHeap_cases ready.mmp with ⟨heap', hlist, _⟩ |
            ⟨list, heap', hlist, hne', hfresh', hlive', hlog', hmore⟩
          · simp only [hlist] at h
            cases h
          · obtain ⟨m', rfl⟩ := Nat.exists_eq_succ_of_ne_zero hne'
            simp only [hlist] at h
            cases h
            have hbase := withVectors_nil
              { process with mmp := emptyRegistry (mmpGetThreadCount spi) process.mmp } heap
            have hlisted := (granted_single hne' hfresh' hlive' hlog').moves.grows
            cases hexit with
            | unrecorded hvectors hheap hreason =>
              have hall := (hbase.trans hvectors).trans (withVectors_nil ready heap')
              rw [List.nil_append, List.append_nil] at hall
              have hgrows := (hsingle.trans hheap).trans hlisted
              exact .unrecorded hall (hgrows.sublist (List.infix_append _ _ _).sublist)
                (hgranted ▸ hreason)
            | recorded hallocated hvectors hlength hne hheap hfields hgrants' hkernel =>
              rename_i vectors ready records heap''
              have hall := hbase.trans hvectors
              rw [List.nil_append] at hall
              have hgrows := (hsingle.trans hheap).trans hlisted
              have hnone : ready.mmp.mmpThreadLocalStoragePointer = [] := by
                obtain ⟨_, _, hglobals⟩ := hall.globals
                rw [hglobals]
                rfl
              simp only [hnone, List.nil_append]
              have hallocated' : initVectors spi spi' process = (some vectors, ready) := by
                rw [initVectors, halloc, hallocated]
              exact .recorded hpointer hallocated' hall hlength hne
                (hgrows.sublist (List.infix_append _ _ _).sublist) hfields
                (hgranted.trans hgrants') hkernel

/-- The threads that the kernel reports in its answer to the request of
`MmpTlsInitialize`, when the vectors for it are granted. -/
def reportedThreads (kernel : ReplaceVectorAnswer) (spi spi' : Option (List SystemThread))
    (clientId : Nat) (process : TlsProcess) : Option (List Nat) :=
  (initVectors spi spi' process).1.map fun vectors =>
    let ready := (initVectors spi spi' process).2
    let answer := kernel.effect (initRequest spi' clientId process vectors) ready.mmp.slots
      ready.threads
    (List.range (mmpGetThreadCount spi').toNat).map fun i => (answer.1.threadData i).threadId

/-- What a successful `MmpTlsInitialize` leaves in the globals: no module, the
bits of ntdll, the first thread count, and either no record at all or one for
each element of the request. -/
theorem mmpTlsInitialize_ok {kernel : ReplaceVectorAnswer} {spi spi' : Option (List SystemThread)}
    {clientId : Nat} {process start : TlsProcess}
    (h : mmpTlsInitialize kernel spi spi' clientId process = .ok start) :
    start.mmp.mmpTlsList = [] ∧ start.mmp.mmpTlsBitmap = (fun k => decide (k < mmpStartTlsIndex)) ∧
      start.mmp.mmpActiveThreadCount = mmpGetThreadCount spi ∧
      ((start.mmp.mmpThreadLocalStoragePointer = [] ∧
        (process.mmp.heap.grants 2 = false ∨ ntSuccess kernel.status = false)) ∨
      (process.mmp.heap.grants 2 = true ∧ ntSuccess kernel.status = true ∧
        reportedThreads kernel spi spi' clientId process =
          some (start.mmp.mmpThreadLocalStoragePointer.map TlspRecord.uniqueThread))) := by
  cases mmpTlsInitialize_exits h with
  | unrecorded hvectors hheap hreason =>
    obtain ⟨slots, heap, hglobals⟩ := hvectors.globals
    rw [hglobals]
    exact ⟨rfl, rfl, rfl, Or.inl ⟨rfl, hreason⟩⟩
  | recorded hpointer hallocated hvectors hlength hne hheap hfields hgrants hkernel =>
    rename_i vectors ready records heap
    obtain ⟨slots, heap', hglobals⟩ := hvectors.globals
    have hids := congrArg (List.map Prod.fst) hfields
    rw [List.map_map, List.map_map] at hids
    have hreported : reportedThreads kernel spi spi' clientId process =
        some (records.map TlspRecord.uniqueThread) := by
      simp only [reportedThreads, hallocated]
      exact congrArg some hids.symm
    simp only [hglobals]
    exact ⟨rfl, rfl, rfl, Or.inr ⟨hgrants, hkernel, hreported⟩⟩

/-- A process with one thread, whose vector has five slots, before the module
is initialized. -/
def oneThread (answers : List (Option Nat)) : TlsProcess where
  mmp := {
    mmpTlsList := []
    mmpTlsBitmap := fun _ => false
    mmpThreadLocalStoragePointer := []
    mmpActiveThreadCount := 0
    slots := fun _ _ => 0
    memory := fun _ => 0
    heap := ⟨[0x1000], answers, []⟩ }
  threads := [⟨4, 0x1010⟩]
  length := fun _ => 5
  tlspVectors := []
  mmpPostponedTlsList := none

def oneThreadAnswer : ReplaceVectorAnswer where
  status := statusSuccess
  effect := fun request slots threads =>
    (request.setThread 0 ⟨1, threadPointer threads 4, 4⟩, slots,
      setThreadPointer threads 4 (request.threadData 0).tlsPointer)

end WinPolyfillLoader.MmpTls
