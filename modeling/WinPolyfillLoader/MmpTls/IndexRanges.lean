import WinPolyfillLoader.MmpTls.HookExits
import WinPolyfillLoader.MmpTls.FlatMemory

/-!
The slots of ntdll and those of the module. A request with a process handle reaches the kernel
with an index of ntdll, a request without one with an index of the module. The first edits no slot
of the module and the second none of ntdll, unless vectors partly overlap.
-/

namespace WinPolyfillLoader.MmpTls.FlatMemory

open ProcessHeap ByteMemory MemoryModule

/-- The handle and the request that are passed on to the kernel, if the checks in front of the
call let any through. -/
def passedOn (host : Host) (processHandle : Nat) (request : ProcessTlsInformation)
    (state : FlatState) : Option (Nat × ProcessTlsInformation) :=
  if request.operationType = .maxProcessTlsOperation then none
  else
    match state.heap.allocate with
    | (none, _) => none
    | (some _, _) =>
      match convertRequest processHandle request (slotsOf host state.memory) with
      | .error _ => none
      | .ok tls => some (if processHandle ≠ 0 then processHandle else ntCurrentProcess, tls)

/-- The documented effect of `ProcessTlsReplaceIndex`: the request keeps its size, and of the
vectors only slot `TlsIndex` is written. -/
structure WritesOnlyIndex (host : Host) (length : Nat → Nat) (kernel : KernelAnswer) : Prop where
  count : ∀ hProcess tls memory, tls.operationType = .processTlsReplaceIndex →
    (kernel.effect hProcess tls memory).1.threadDataCount = tls.threadDataCount
  memory : ∀ hProcess tls memory a, tls.operationType = .processTlsReplaceIndex →
    tls.tlsIndex < mmpMaximumTlsIndex →
    (∀ v, tls.tlsIndex < length v → a < slotAddress host v tls.tlsIndex ∨
      slotAddress host v tls.tlsIndex + host.pointerSize ≤ a) →
    (kernel.effect hProcess tls memory).2 a = memory a

section Hook

variable {host : Host} {length : Nat → Nat} {kernel : KernelAnswer} {processHandle : Nat}
  {request tls : ProcessTlsInformation} {state : FlatState} {hProcess : Nat}

theorem passedOn_some (h : passedOn host processHandle request state = some (hProcess, tls)) :
    request.operationType ≠ .maxProcessTlsOperation ∧
      convertRequest processHandle request (slotsOf host state.memory) = .ok tls := by
  unfold passedOn at h
  split at h
  · cases h
  · rename_i hop
    split at h
    · cases h
    · split at h
      · cases h
      · rename_i hconvert
        cases h
        exact ⟨hop, hconvert⟩

/-- Every call is refused and only uses the heap, or runs the mapping loop on what the kernel did
to the request passed on. -/
theorem hookNtSetInformationProcess_flat_cases (host : Host) (kernel : KernelAnswer)
    (processHandle : Nat) (request : ProcessTlsInformation) (state : FlatState) :
    (∃ status heap, hookNtSetInformationProcess host kernel processHandle request state =
      (status, request, { state with heap := heap })) ∨
    ∃ hProcess tls heap, passedOn host processHandle request state = some (hProcess, tls) ∧
      let answer := kernel.effect hProcess tls state.memory
      let mapping := (List.range answer.1.threadDataCount).foldl
        (remapThread host processHandle answer.1)
        ⟨request, state.mmpThreadLocalStoragePointer, answer.2⟩
      hookNtSetInformationProcess host kernel processHandle request state =
        (kernel.status, mapping.request, ⟨mapping.records, mapping.memory, heap⟩) := by
  unfold hookNtSetInformationProcess passedOn
  by_cases hop : request.operationType = .maxProcessTlsOperation
  · exact .inl ⟨statusInvalidParameter, state.heap, if_pos hop⟩
  · simp only [if_neg hop]
    rcases state.heap.allocate with ⟨private_, heap⟩
    cases private_ with
    | none => exact .inl ⟨statusNoMemory, heap, rfl⟩
    | some private_ =>
      cases convertRequest processHandle request (slotsOf host state.memory) with
      | error status => exact .inl ⟨status, heap.free private_, rfl⟩
      | ok tls =>
        by_cases hsuccess : ntSuccess kernel.status = true
        · exact .inr ⟨_, tls, heap.free private_, rfl, if_pos hsuccess⟩
        · exact .inl ⟨kernel.status, heap.free private_, if_neg hsuccess⟩

/-- The kernel is asked about the request passed on and about no other. -/
theorem hookNtSetInformationProcess_flat_congr {kernel' : KernelAnswer}
    (h : ∀ hProcess tls, passedOn host processHandle request state = some (hProcess, tls) →
      kernel.status = kernel'.status ∧
        kernel.effect hProcess tls state.memory = kernel'.effect hProcess tls state.memory) :
    hookNtSetInformationProcess host kernel processHandle request state =
      hookNtSetInformationProcess host kernel' processHandle request state := by
  unfold passedOn at h
  unfold hookNtSetInformationProcess
  by_cases hop : request.operationType = .maxProcessTlsOperation
  · rw [if_pos hop, if_pos hop]
  · rw [if_neg hop] at h ⊢
    rw [if_neg hop]
    rcases hallocate : state.heap.allocate with ⟨private_, heap⟩
    cases private_ with
    | none => rfl
    | some private_ =>
      cases hconvert : convertRequest processHandle request (slotsOf host state.memory) with
      | error status => rfl
      | ok tls =>
        simp only [hallocate, hconvert] at h
        obtain ⟨hstatus, heffect⟩ := h _ _ rfl
        simp only [hstatus, heffect]

end Hook

/-- The slots of the module in the vectors that no other one partly overlaps. -/
def KeepsModuleSlots (host : Host) (length : Nat → Nat) (memory memory' : Bytes) : Prop :=
  ∀ v, SeparateVector host length v → ∀ k, mmpStartTlsIndex ≤ k → k < length v →
    slotsOf host memory' v k = slotsOf host memory v k

section Frame

variable {host : Host} {length : Nat → Nat} {processHandle : Nat} {tls : ProcessTlsInformation}
  {start mapping : Mapping} {i n : Nat}

theorem remapRecord_keepsSlots {position : Nat} {record : TlspRecord}
    (hindex : mapping.request.tlsIndex < mmpStartTlsIndex)
    (hvector : mapping.request.operationType = .processTlsReplaceVector →
      mapping.request.tlsIndex < length (mapping.request.threadData i).tlsPointer)
    (hldr : mapping.request.operationType ≠ .processTlsReplaceVector →
      mapping.request.tlsIndex < length record.tlspLdrBlock) :
    KeepsModuleSlots host length mapping.memory
      (remapRecord host processHandle tls i position record mapping).memory := by
  intro v hsep k hlow hk
  have hbelow : mapping.request.tlsIndex < k := Nat.lt_of_lt_of_le hindex hlow
  have hstored : mapping.request.operationType ≠ .processTlsReplaceVector →
      slotsOf host (if processHandle ≠ 0 then
        storeSlot host mapping.memory record.tlspLdrBlock mapping.request.tlsIndex
          (mapping.request.threadData i).tlsPointer
        else mapping.memory) v k = slotsOf host mapping.memory v k := by
    intro hop
    split
    · exact hsep.slotsOf_storeSlot_other hk (hldr hop) fun h => Nat.ne_of_gt hbelow h.2
    · rfl
  cases hop : mapping.request.operationType with
  | processTlsReplaceVector =>
    simp only [remapRecord, hop]
    have hfits := hvector hop
    exact hsep.slotsOf_rtlCopyMemory_other hk (Nat.zero_lt_of_lt hfits) (Nat.le_of_lt hfits)
      fun _ => Nat.le_of_lt hbelow
  | processTlsReplaceIndex =>
    simp only [remapRecord, hop]
    exact hstored (by simp [hop])
  | maxProcessTlsOperation =>
    simp only [remapRecord, hop]
    exact hstored (by simp [hop])

theorem remapThread_keepsSlots
    (hindex : start.request.tlsIndex < mmpStartTlsIndex)
    (hfits : VectorsFit length start.request start.records) (hn : n < start.request.threadDataCount)
    (h : RemapShape start n mapping) :
    KeepsModuleSlots host length mapping.memory
      (remapThread host processHandle tls mapping n).memory := by
  obtain ⟨mapped, hrun, hmapped⟩ := remapThread_cases host processHandle tls mapping n
  rw [hrun]
  rcases hmapped with rfl | ⟨position, record, hrecord, rfl⟩
  · exact fun _ _ _ _ _ => rfl
  · obtain ⟨hvector, hldr⟩ := h.fits hfits hn hrecord
    exact remapRecord_keepsSlots (h.index ▸ hindex) hvector hldr

theorem remapThreads_keepSlots
    (hindex : start.request.tlsIndex < mmpStartTlsIndex)
    (hfits : VectorsFit length start.request start.records)
    (hn : n ≤ start.request.threadDataCount) :
    KeepsModuleSlots host length start.memory
      ((List.range n).foldl (remapThread host processHandle tls) start).memory := by
  induction n with
  | zero => exact fun _ _ _ _ _ => rfl
  | succ n ih =>
    have hshape := remapThreads_shape host processHandle tls start n
    rw [List.range_succ, List.foldl_append]
    intro v hsep k hlow hk
    have hbefore := ih (Nat.le_of_succ_le hn) v hsep k hlow hk
    exact (remapThread_keepsSlots hindex hfits hn hshape v hsep k hlow hk).trans hbefore

theorem remapThreads_module (hop : start.request.operationType = .processTlsReplaceIndex)
    (elements : List Nat) :
    let mapping := elements.foldl (remapThread host 0 tls) start
    mapping.records = start.records ∧ mapping.memory = start.memory := by
  induction elements generalizing start with
  | nil => exact ⟨rfl, rfl⟩
  | cons i elements ih =>
    have hrecord : ∀ position record,
        let mapped := remapRecord host 0 tls i position record start
        mapped.request.operationType = .processTlsReplaceIndex ∧
          mapped.records = start.records ∧ mapped.memory = start.memory := by
      intro position record
      simp [remapRecord, hop, ProcessTlsInformation.setThread]
    have hstep : (remapThread host 0 tls start i).request.operationType =
        .processTlsReplaceIndex ∧ (remapThread host 0 tls start i).records = start.records ∧
        (remapThread host 0 tls start i).memory = start.memory := by
      unfold remapThread
      cases start.records.findIdx?
          (isThreadRecord start.request (slotsOf host start.memory) i) with
      | none => exact ⟨hop, rfl, rfl⟩
      | some position =>
        cases hget : start.records[position]? with
        | none =>
          simp only [hget]
          exact ⟨hop, trivial, trivial⟩
        | some record =>
          simp only [hget]
          exact hrecord position record
    obtain ⟨hop', hrecords, hmemory⟩ := hstep
    obtain ⟨hrest, hlast⟩ := ih hop'
    exact ⟨hrest.trans hrecords, hlast.trans hmemory⟩

end Frame

section Calls

variable {host : Host} {length : Nat → Nat} {kernel : KernelAnswer}

/-- The kernel's own implementation writes to the vectors of the threads it serves. -/
theorem replaceIndexAnswer_writesOnlyIndex {status : NtStatus} {served : List ServedThread}
    (hvectors : ∀ s ∈ served, mmpMaximumTlsIndex ≤ length s.vector) :
    WritesOnlyIndex host length (replaceIndexAnswer host status served) := by
  constructor
  · intro _ tls memory _
    exact processTlsReplaceIndex_count served tls memory
  · intro _ tls memory a _ hindex houtside
    apply processTlsReplaceIndex_outside
    intro s hs
    exact houtside s.vector (Nat.lt_of_lt_of_le hindex (hvectors s hs))

theorem WritesOnlyIndex.slotsOf_effect (h : WritesOnlyIndex host length kernel)
    {v k : Nat} (hsep : SeparateVector host length v) {hProcess : Nat}
    {tls : ProcessTlsInformation} {memory : Bytes}
    (hop : tls.operationType = .processTlsReplaceIndex)
    (hindex : tls.tlsIndex < mmpMaximumTlsIndex) (hk : k < length v)
    (hne : k ≠ tls.tlsIndex) :
    slotsOf host (kernel.effect hProcess tls memory).2 v k = slotsOf host memory v k := by
  apply slotsOf_congr
  intro a hlow hhigh
  apply h.memory hProcess tls memory a hop hindex
  intro v' hk'
  have hapart := hsep.slots_apart hk hk' fun heq => hne heq.2
  omega

theorem hookNtSetInformationProcess_ntdll (hlaw : WritesOnlyIndex host length kernel)
    {processHandle : Nat} (hhandle : processHandle ≠ 0)
    {request : ProcessTlsInformation} {state : FlatState}
    (hfits : VectorsFit length request state.mmpThreadLocalStoragePointer) :
    let after := (hookNtSetInformationProcess host kernel processHandle request state).2.2
    after.mmpThreadLocalStoragePointer.map TlspRecord.tlspMmpBlock =
        state.mmpThreadLocalStoragePointer.map TlspRecord.tlspMmpBlock ∧
      KeepsModuleSlots host length state.memory after.memory := by
  intro after
  have hafter : after =
    (hookNtSetInformationProcess host kernel processHandle request state).2.2 := rfl
  rcases hookNtSetInformationProcess_flat_cases host kernel processHandle request state with
    ⟨status, heap, hrun⟩ | ⟨hProcess, tls, heap, hpassed, hrun⟩
  · rw [hafter, hrun]
    exact ⟨rfl, fun _ _ _ _ _ => rfl⟩
  · obtain ⟨hop, hconvert⟩ := passedOn_some hpassed
    obtain ⟨hkind, hindex, hlow, -⟩ := convertRequest_ok hop hconvert
    have hlow' : tls.tlsIndex < mmpStartTlsIndex := hlow hhandle
    have hmax : tls.tlsIndex < mmpMaximumTlsIndex :=
      Nat.lt_trans hlow' (by decide)
    let answer := kernel.effect hProcess tls state.memory
    let start : Mapping := ⟨request, state.mmpThreadLocalStoragePointer, answer.2⟩
    have hcount : answer.1.threadDataCount ≤ start.request.threadDataCount :=
      Nat.le_of_eq ((hlaw.count hProcess tls state.memory hkind).trans
        (convertRequest_count hconvert))
    have hshape := remapThreads_shape host processHandle answer.1 start answer.1.threadDataCount
    have hslots : KeepsModuleSlots host length start.memory
        ((List.range answer.1.threadDataCount).foldl
          (remapThread host processHandle answer.1) start).memory :=
      remapThreads_keepSlots (hindex ▸ hlow') hfits hcount
    rw [hafter, hrun]
    refine ⟨hshape.blocks, ?_⟩
    intro v hsep k hk hlength
    have hne : k ≠ tls.tlsIndex := Nat.ne_of_gt (Nat.lt_of_lt_of_le hlow' hk)
    exact (hslots v hsep k hk hlength).trans (hlaw.slotsOf_effect hsep hkind hmax hlength hne)

theorem hookNtSetInformationProcess_module (hlaw : WritesOnlyIndex host length kernel)
    (request : ProcessTlsInformation) (state : FlatState) :
    let after := (hookNtSetInformationProcess host kernel 0 request state).2.2
    after.mmpThreadLocalStoragePointer = state.mmpThreadLocalStoragePointer ∧
      ∀ v, SeparateVector host length v → ∀ k, k < mmpStartTlsIndex → k < length v →
        slotsOf host after.memory v k = slotsOf host state.memory v k := by
  intro after
  have hafter : after = (hookNtSetInformationProcess host kernel 0 request state).2.2 := rfl
  rcases hookNtSetInformationProcess_flat_cases host kernel 0 request state with
    ⟨status, heap, hrun⟩ | ⟨hProcess, tls, heap, hpassed, hrun⟩
  · rw [hafter, hrun]
    exact ⟨rfl, fun _ _ _ _ _ => rfl⟩
  · obtain ⟨hop, hconvert⟩ := passedOn_some hpassed
    obtain ⟨hkind, -, -, hown⟩ := convertRequest_ok hop hconvert
    obtain ⟨hreplace, hlow, hmax⟩ := hown rfl
    let answer := kernel.effect hProcess tls state.memory
    let start : Mapping := ⟨request, state.mmpThreadLocalStoragePointer, answer.2⟩
    let mapping := (List.range answer.1.threadDataCount).foldl
      (remapThread host 0 answer.1) start
    have hmapped : mapping.records = start.records ∧ mapping.memory = start.memory :=
      remapThreads_module hreplace _
    obtain ⟨hrecords, hmemory⟩ := hmapped
    rw [hafter, hrun]
    refine ⟨hrecords, ?_⟩
    intro v hsep k hk hlength
    rw [hmemory]
    exact hlaw.slotsOf_effect hsep hkind hmax hlength (by omega)

end Calls

/-- One intercepted request, with what the kernel answers. -/
structure HookCall where
  kernel : KernelAnswer
  processHandle : Nat
  request : ProcessTlsInformation

def hookStep (host : Host) (state : FlatState) (call : HookCall) : FlatState :=
  (hookNtSetInformationProcess host call.kernel call.processHandle call.request state).2.2

/-- A `TlsVector` that points at slot `0x80` of a `TlspMmpBlock`: the hook takes it for the vector
of that thread and copies slot 0 of the block over slot `0x80`, which is the module's. -/
theorem tlsRanges_interfere :
    let host := Host.amd64
    let block := 0x2000
    let state : FlatState :=
      { mmpThreadLocalStoragePointer := [⟨0x10, 1, 0x1000, block⟩]
        memory := storeSlot host (storeSlot host (fun _ => 0) block 0 0x7000) block 0x81 0x9000
        heap := ⟨[0x10], [some 0x30], []⟩ }
    let call : HookCall :=
      { kernel := replaceIndexAnswer host statusSuccess [⟨⟨1, block⟩, 0, 1⟩]
        processHandle := ntCurrentProcess
        request := ⟨.processTlsReplaceVector, 1, 1,
          fun _ => ⟨0, slotAddress host block mmpStartTlsIndex, 0⟩⟩ }
    call.processHandle ≠ 0 ∧
      block ∈ state.mmpThreadLocalStoragePointer.map TlspRecord.tlspMmpBlock ∧
      slotsOf host state.memory block mmpStartTlsIndex = 0 ∧
      slotsOf host (hookStep host state call).memory block mmpStartTlsIndex = 0x7000 := by
  decide +kernel

/-- In every sequence of requests each one reaches the kernel only in the form `passedOn` and with
an index of its caller's range. In a vector that no other one partly overlaps it keeps the slots of
the other range. -/
theorem tlsRanges_separate (host : Host) (state : FlatState) (before : List HookCall)
    (call : HookCall) :
    let s := before.foldl (hookStep host) state
    let s' := hookStep host s call
    (∀ kernel', (∀ hProcess tls,
        passedOn host call.processHandle call.request s = some (hProcess, tls) →
          call.kernel.status = kernel'.status ∧
            call.kernel.effect hProcess tls s.memory = kernel'.effect hProcess tls s.memory) →
        hookStep host s { call with kernel := kernel' } = s') ∧
      (∀ hProcess tls, passedOn host call.processHandle call.request s = some (hProcess, tls) →
        (call.processHandle ≠ 0 → tls.tlsIndex < mmpStartTlsIndex) ∧
        (call.processHandle = 0 → mmpStartTlsIndex ≤ tls.tlsIndex ∧
          tls.tlsIndex < mmpMaximumTlsIndex)) ∧
      ∀ length, WritesOnlyIndex host length call.kernel →
        (call.processHandle ≠ 0 →
          VectorsFit length call.request s.mmpThreadLocalStoragePointer →
          s'.mmpThreadLocalStoragePointer.map TlspRecord.tlspMmpBlock =
            s.mmpThreadLocalStoragePointer.map TlspRecord.tlspMmpBlock ∧
          ∀ v, SeparateVector host length v → ∀ k, mmpStartTlsIndex ≤ k → k < length v →
            slotsOf host s'.memory v k = slotsOf host s.memory v k) ∧
        (call.processHandle = 0 →
          s'.mmpThreadLocalStoragePointer = s.mmpThreadLocalStoragePointer ∧
          ∀ v, SeparateVector host length v → ∀ k, k < mmpStartTlsIndex → k < length v →
            slotsOf host s'.memory v k = slotsOf host s.memory v k) := by
  intro s s'
  refine ⟨?_, ?_, ?_⟩
  · intro kernel' hagree
    have hsame := hookNtSetInformationProcess_flat_congr hagree
    exact congrArg (fun result => result.2.2) hsame.symm
  · intro hProcess tls hpassed
    obtain ⟨hop, hconvert⟩ := passedOn_some hpassed
    obtain ⟨_, _, hntdll, hmodule⟩ := convertRequest_ok hop hconvert
    exact ⟨hntdll, fun h0 => (hmodule h0).2⟩
  · intro length hlaw
    constructor
    · intro hhandle hfits
      exact hookNtSetInformationProcess_ntdll hlaw hhandle hfits
    · intro hhandle
      have hmodule := hookNtSetInformationProcess_module hlaw call.request s
      rw [← hhandle] at hmodule
      exact hmodule

/-- A vector at the start of each page. -/
def pageVectors (v : Nat) : Nat := if v % 0x1000 = 0 then mmpMaximumTlsIndex else 0

theorem pageVectors_separate : SeparateVectors .amd64 pageVectors := by
  intro v hv v' hv' hne
  have hpage : ∀ a, 0 < pageVectors a → a % 0x1000 = 0 ∧ pageVectors a = 0x100 := by
    intro a ha
    unfold pageVectors at ha ⊢
    split at ha
    · rename_i hzero
      exact ⟨hzero, if_pos hzero⟩
    · cases ha
  obtain ⟨hfirst, hlength⟩ := hpage v hv
  obtain ⟨hsecond, hlength'⟩ := hpage v' hv'
  have hsize : Host.amd64.pointerSize = 8 := rfl
  rw [hlength, hlength', hsize]
  unfold Apart
  omega

/-- A vector of ntdll and then a module of the loader, in a process with two threads. -/
theorem tlsRanges_separate_twoThreads :
    let host := Host.amd64
    let kernel := replaceIndexAnswer host statusSuccess
      [⟨⟨1, 0x2000⟩, 0, 1⟩, ⟨⟨2, 0x4000⟩, 1, 1⟩]
    let state : FlatState :=
      { mmpThreadLocalStoragePointer := twoThreads.mmpThreadLocalStoragePointer
        memory := storeSlot host (storeSlot host (fun _ => 0) 0x5000 2 0x51) 0x6000 2 0x61
        heap := twoThreads.heap }
    let first : HookCall := ⟨kernel, ntCurrentProcess,
      ⟨.processTlsReplaceVector, 2, 2, fun i => ⟨0, 0x5000 + 0x1000 * i, 0⟩⟩⟩
    let second : HookCall := ⟨kernel, 0, tlsRequest 0x80 2 [0x50, 0x60]⟩
    let s := hookStep host state first
    (passedOn host ntCurrentProcess first.request state).isSome = true ∧
      (passedOn host 0 second.request s).isSome = true ∧
      (∀ v k, mmpStartTlsIndex ≤ k → k < pageVectors v →
        slotsOf host s.memory v k = slotsOf host state.memory v k) ∧
      ∀ v k, k < mmpStartTlsIndex → k < pageVectors v →
        slotsOf host (hookStep host s second).memory v k = slotsOf host s.memory v k := by
  intro host kernel state first second s
  have hlaw : WritesOnlyIndex host pageVectors kernel :=
    replaceIndexAnswer_writesOnlyIndex (by decide +kernel)
  have hfits : VectorsFit pageVectors first.request state.mmpThreadLocalStoragePointer := by
    refine ⟨fun hop => absurd rfl hop, ?_⟩
    intro _ i _
    have hpage : (0x5000 + 0x1000 * i) % 0x1000 = 0 := by omega
    have hindex : 2 < mmpMaximumTlsIndex := by decide
    exact hindex.trans_eq (if_pos hpage).symm
  have hpages : ∀ {v k}, k < pageVectors v → SeparateVector host pageVectors v :=
    fun hk => pageVectors_separate _ (Nat.zero_lt_of_lt hk)
  obtain ⟨-, hntdll⟩ :=
    ((tlsRanges_separate host state [] first).2.2 pageVectors hlaw).1 (by decide) hfits
  obtain ⟨-, hmodule⟩ :=
    ((tlsRanges_separate host state [first] second).2.2 pageVectors hlaw).2 rfl
  refine ⟨by decide +kernel, by decide +kernel, ?_, ?_⟩
  · exact fun v k hlow hk => hntdll v (hpages hk) k hlow hk
  · exact fun v k hlow hk => hmodule v (hpages hk) k hlow hk

end WinPolyfillLoader.MmpTls.FlatMemory
