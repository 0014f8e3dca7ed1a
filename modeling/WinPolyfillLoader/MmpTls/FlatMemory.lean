import WinPolyfillLoader.MmpTls.Kernel
import WinPolyfillLoader.MemoryModule.Machine

/-!
`HookNtSetInformationProcess` on the bytes of the process, where a `TlsVector` may lie anywhere,
also inside of a `TlspMmpBlock`. As long as no vector partly overlaps another, each of them can
be taken for a memory of its own, as `Slots` does.
-/

namespace WinPolyfillLoader.MmpTls.FlatMemory

open ProcessHeap ByteMemory MemoryModule

def slotAddress (host : Host) (vector index : Nat) : Nat := vector + index * host.pointerSize

/-- What is read at the slots of a vector. -/
def slotsOf (host : Host) (memory : Bytes) : Slots :=
  fun v k => readLE memory (slotAddress host v k) host.pointerSize

def storeSlot (host : Host) (memory : Bytes) (vector index value : Nat) : Bytes :=
  writeLE memory (slotAddress host vector index) host.pointerSize value

/-- `RtlCopyMemory(dst, src, n * sizeof(PVOID))`. -/
def rtlCopyMemory (host : Host) (memory : Bytes) (dst src n : Nat) : Bytes :=
  blit memory dst memory src (n * host.pointerSize)

structure FlatState where
  mmpThreadLocalStoragePointer : List TlspRecord
  memory : Bytes
  heap : Heap

/-- What the kernel answers to the request that is passed on; the vectors are in the memory. -/
structure KernelAnswer where
  status : NtStatus
  effect : Nat → ProcessTlsInformation → Bytes → ProcessTlsInformation × Bytes

structure Mapping where
  request : ProcessTlsInformation
  records : List TlspRecord
  memory : Bytes

def remapRecord (host : Host) (processHandle : Nat) (tls : ProcessTlsInformation)
    (i position : Nat) (record : TlspRecord) (mapping : Mapping) : Mapping :=
  let request := mapping.request
  let current := request.threadData i
  match request.operationType with
  | .processTlsReplaceVector =>
      { request := request.setThread i { current with tlsPointer := record.tlspLdrBlock }
        records := mapping.records.set position { record with tlspLdrBlock := current.tlsPointer }
        memory := rtlCopyMemory host mapping.memory current.tlsPointer record.tlspMmpBlock
          request.tlsIndex }
  | _ =>
      { request := request.setThread i { current with tlsPointer := (tls.threadData i).tlsPointer }
        records := mapping.records
        memory :=
          if processHandle ≠ 0 then
            storeSlot host mapping.memory record.tlspLdrBlock request.tlsIndex current.tlsPointer
          else mapping.memory }

def remapThread (host : Host) (processHandle : Nat) (tls : ProcessTlsInformation)
    (mapping : Mapping) (i : Nat) : Mapping :=
  let found := mapping.records.findIdx?
    (isThreadRecord mapping.request (slotsOf host mapping.memory) i)
  let mapped :=
    match found with
    | some position =>
        match mapping.records[position]? with
        | some record => remapRecord host processHandle tls i position record mapping
        | none => mapping
    | none => mapping
  { mapped with
    request := mapped.request.setThread i
      { mapped.request.threadData i with
        flags := (tls.threadData i).flags
        threadId := (tls.threadData i).threadId } }

/-- `HookNtSetInformationProcess`, class `ProcessTlsInformation`. The request and its private
copy are values, so they lie apart from the vectors. -/
def hookNtSetInformationProcess (host : Host) (kernel : KernelAnswer) (processHandle : Nat)
    (request : ProcessTlsInformation) (state : FlatState) :
    NtStatus × ProcessTlsInformation × FlatState :=
  if request.operationType = .maxProcessTlsOperation then (statusInvalidParameter, request, state)
  else
    match state.heap.allocate with
    | (none, heap) => (statusNoMemory, request, { state with heap := heap })
    | (some private_, heap) =>
      let heap := heap.free private_
      match convertRequest processHandle request (slotsOf host state.memory) with
      | .error status => (status, request, { state with heap := heap })
      | .ok tls =>
        if ntSuccess kernel.status then
          let hProcess := if processHandle ≠ 0 then processHandle else ntCurrentProcess
          let answer := kernel.effect hProcess tls state.memory
          let mapping := (List.range answer.1.threadDataCount).foldl
            (remapThread host processHandle answer.1)
            ⟨request, state.mmpThreadLocalStoragePointer, answer.2⟩
          (kernel.status, mapping.request, ⟨mapping.records, mapping.memory, heap⟩)
        else (kernel.status, request, { state with heap := heap })

/-- `ProcessTlsReplaceIndex` for one thread. -/
def serveThread (host : Host) (answer : ProcessTlsInformation × Bytes) (s : ServedThread) :
    ProcessTlsInformation × Bytes :=
  let (tls, memory) := answer
  (tls.setThread s.element ⟨s.flags, slotsOf host memory s.vector tls.tlsIndex, s.teb.clientId⟩,
    storeSlot host memory s.vector tls.tlsIndex (tls.threadData s.element).tlsPointer)

def processTlsReplaceIndex (host : Host) (served : List ServedThread)
    (tls : ProcessTlsInformation) (memory : Bytes) : ProcessTlsInformation × Bytes :=
  served.foldl (serveThread host) (tls, memory)

def replaceIndexAnswer (host : Host) (status : NtStatus) (served : List ServedThread) :
    KernelAnswer where
  status := status
  effect := fun _ tls memory => processTlsReplaceIndex host served tls memory

theorem processTlsReplaceIndex_cons (host : Host) (s : ServedThread) (served : List ServedThread)
    (tls : ProcessTlsInformation) (memory : Bytes) :
    processTlsReplaceIndex host (s :: served) tls memory =
      processTlsReplaceIndex host served
        (tls.setThread s.element
          ⟨s.flags, slotsOf host memory s.vector tls.tlsIndex, s.teb.clientId⟩)
        (storeSlot host memory s.vector tls.tlsIndex (tls.threadData s.element).tlsPointer) := rfl

theorem processTlsReplaceIndex_count {host : Host} (served : List ServedThread)
    (tls : ProcessTlsInformation) (memory : Bytes) :
    (processTlsReplaceIndex host served tls memory).1.threadDataCount = tls.threadDataCount := by
  induction served generalizing tls memory with
  | nil => rfl
  | cons s served ih =>
    rw [processTlsReplaceIndex_cons]
    exact ih _ _

/-- Of the served vectors only the slot of the request is written. -/
theorem processTlsReplaceIndex_outside {host : Host} {served : List ServedThread}
    {tls : ProcessTlsInformation} {memory : Bytes} {a : Nat}
    (h : ∀ s ∈ served, a < slotAddress host s.vector tls.tlsIndex ∨
      slotAddress host s.vector tls.tlsIndex + host.pointerSize ≤ a) :
    (processTlsReplaceIndex host served tls memory).2 a = memory a := by
  induction served generalizing tls memory with
  | nil => rfl
  | cons s served ih =>
    rw [processTlsReplaceIndex_cons]
    refine (ih ?_).trans (writeLE_outside memory (h s List.mem_cons_self))
    exact fun s' hs' => h s' (List.mem_cons_of_mem _ hs')

/-- With `length v` slots at `v`, no other vector of the process partly overlaps this one. -/
def SeparateVector (host : Host) (length : Nat → Nat) (v : Nat) : Prop :=
  ∀ v', 0 < length v' → v ≠ v' →
    Apart v (length v * host.pointerSize) v' (length v' * host.pointerSize)

def SeparateVectors (host : Host) (length : Nat → Nat) : Prop :=
  ∀ v, 0 < length v → SeparateVector host length v

section Layout

variable {host : Host} {length : Nat → Nat} {memory : Bytes} {v v' k k' n src value : Nat}

/-- A slot lies outside of the first slots of any vector but its own. -/
theorem SeparateVector.slot_outside (h : SeparateVector host length v) (hk : k < length v)
    (hpos : 0 < length v') (hn : n ≤ length v') (hown : v = v' → n ≤ k) :
    slotAddress host v k + host.pointerSize ≤ v' ∨
      v' + n * host.pointerSize ≤ slotAddress host v k := by
  have hstep : k * host.pointerSize + host.pointerSize = (k + 1) * host.pointerSize := by ring
  unfold slotAddress
  rcases Decidable.em (v = v') with rfl | hne
  · have hbelow := Nat.mul_le_mul_right host.pointerSize (hown rfl)
    omega
  · have hend := Nat.mul_le_mul_right host.pointerSize (Nat.succ_le_of_lt hk)
    have hlast := Nat.mul_le_mul_right host.pointerSize hn
    have hapart := h v' hpos hne
    unfold Apart at hapart
    simp only [Nat.succ_eq_add_one] at hend
    omega

theorem SeparateVector.slots_apart (h : SeparateVector host length v) (hk : k < length v)
    (hk' : k' < length v') (hne : ¬(v = v' ∧ k = k')) :
    slotAddress host v k + host.pointerSize ≤ slotAddress host v' k' ∨
      slotAddress host v' k' + host.pointerSize ≤ slotAddress host v k := by
  have hstep : ∀ j, j * host.pointerSize + host.pointerSize = (j + 1) * host.pointerSize :=
    fun j => by ring
  have hfirst := hstep k
  have hsecond := hstep k'
  unfold slotAddress
  rcases Decidable.em (v = v') with rfl | hv
  · rcases Nat.lt_or_gt_of_ne fun heq => hne ⟨rfl, heq⟩ with hlt | hgt
    · have hbelow := Nat.mul_le_mul_right host.pointerSize (Nat.succ_le_of_lt hlt)
      simp only [Nat.succ_eq_add_one] at hbelow
      omega
    · have hbelow := Nat.mul_le_mul_right host.pointerSize (Nat.succ_le_of_lt hgt)
      simp only [Nat.succ_eq_add_one] at hbelow
      omega
  · have hend := Nat.mul_le_mul_right host.pointerSize (Nat.succ_le_of_lt hk)
    have hend' := Nat.mul_le_mul_right host.pointerSize (Nat.succ_le_of_lt hk')
    have hapart := h v' (Nat.zero_lt_of_lt hk') hv
    unfold Apart at hapart
    simp only [Nat.succ_eq_add_one] at hend hend'
    omega

theorem slotsOf_congr {memory' : Bytes} (h : ∀ a, slotAddress host v k ≤ a →
      a < slotAddress host v k + host.pointerSize → memory' a = memory a) :
    slotsOf host memory' v k = slotsOf host memory v k :=
  readLE_congr h

theorem slotsOf_storeSlot (hvalue : value < host.addresses) :
    slotsOf host (storeSlot host memory v k value) v k = value := by
  rw [slotsOf, storeSlot, readLE_writeLE]
  exact Nat.mod_eq_of_lt hvalue

theorem SeparateVector.slotsOf_storeSlot_other (h : SeparateVector host length v)
    (hk : k < length v) (hk' : k' < length v') (hne : ¬(v = v' ∧ k = k')) :
    slotsOf host (storeSlot host memory v' k' value) v k = slotsOf host memory v k := by
  have hapart := h.slots_apart hk hk' hne
  apply slotsOf_congr
  intro a hlow hhigh
  exact writeLE_outside memory (by omega)

theorem slotsOf_rtlCopyMemory (hk : k < n) :
    slotsOf host (rtlCopyMemory host memory v src n) v k = slotsOf host memory src k := by
  have hend := Nat.mul_le_mul_right host.pointerSize (Nat.succ_le_of_lt hk)
  have hstep : k * host.pointerSize + host.pointerSize = (k + 1) * host.pointerSize := by ring
  simp only [Nat.succ_eq_add_one] at hend
  unfold slotsOf slotAddress
  apply readLE_eq
  intro j hj
  rw [rtlCopyMemory, blit_inside memory (by omega) (by omega)]
  congr 1
  omega

theorem SeparateVector.slotsOf_rtlCopyMemory_other (h : SeparateVector host length v)
    (hk : k < length v) (hpos : 0 < length v') (hn : n ≤ length v') (hown : v = v' → n ≤ k) :
    slotsOf host (rtlCopyMemory host memory v' src n) v k = slotsOf host memory v k := by
  have houtside := h.slot_outside hk hpos hn hown
  apply slotsOf_congr
  intro a hlow hhigh
  exact blit_outside memory (by omega)

end Layout

/-- The vectors that a request of ntdll has the hook write to hold the slot of the request. -/
structure VectorsFit (length : Nat → Nat) (request : ProcessTlsInformation)
    (records : List TlspRecord) : Prop where
  ldrBlocks : request.operationType ≠ .processTlsReplaceVector →
    ∀ r ∈ records, request.tlsIndex < length r.tlspLdrBlock
  tlsVectors : request.operationType = .processTlsReplaceVector →
    ∀ i < request.threadDataCount, request.tlsIndex < length (request.threadData i).tlsPointer

/-- What the mapping loop leaves as it was after `n` elements. -/
structure RemapShape (start : Mapping) (n : Nat) (mapping : Mapping) : Prop where
  operation : mapping.request.operationType = start.request.operationType
  index : mapping.request.tlsIndex = start.request.tlsIndex
  pending : ∀ i, n ≤ i → mapping.request.threadData i = start.request.threadData i
  blocks : mapping.records.map TlspRecord.tlspMmpBlock =
    start.records.map TlspRecord.tlspMmpBlock
  records : start.request.operationType ≠ .processTlsReplaceVector →
    mapping.records = start.records

section Loop

variable {host : Host} {length : Nat → Nat} {processHandle : Nat} {tls : ProcessTlsInformation}
  {start mapping : Mapping} {n : Nat}

theorem map_tlspMmpBlock_set {records : List TlspRecord} {position : Nat} {record : TlspRecord}
    (hrecord : records[position]? = some record) (block : Nat) :
    (records.set position { record with tlspLdrBlock := block }).map TlspRecord.tlspMmpBlock =
      records.map TlspRecord.tlspMmpBlock := by
  obtain ⟨hlt, rfl⟩ := List.getElem?_eq_some_iff.mp hrecord
  rw [List.map_set]
  apply List.ext_getElem (by simp)
  intro j hj hj'
  rw [List.getElem_set]
  split
  · rename_i heq
    subst heq
    rw [List.getElem_map]
  · rfl

theorem RemapShape.fits (h : RemapShape start n mapping)
    (hfits : VectorsFit length start.request start.records) (hn : n < start.request.threadDataCount)
    {position : Nat} {record : TlspRecord} (hrecord : mapping.records[position]? = some record) :
    (mapping.request.operationType = .processTlsReplaceVector →
      mapping.request.tlsIndex < length (mapping.request.threadData n).tlsPointer) ∧
    (mapping.request.operationType ≠ .processTlsReplaceVector →
      mapping.request.tlsIndex < length record.tlspLdrBlock) := by
  rw [h.operation, h.index, h.pending n (Nat.le_refl n)]
  refine ⟨fun hop => hfits.tlsVectors hop n hn, ?_⟩
  intro hop
  refine hfits.ldrBlocks hop record ?_
  rw [← h.records hop]
  exact List.mem_of_getElem? hrecord

theorem remapRecord_shape (h : RemapShape start n mapping) {position : Nat} {record : TlspRecord}
    (hrecord : mapping.records[position]? = some record) :
    RemapShape start (n + 1) (remapRecord host processHandle tls n position record mapping) := by
  have hpending : ∀ thread j, n + 1 ≤ j →
      (mapping.request.setThread n thread).threadData j = start.request.threadData j := by
    intro thread j hj
    exact (Function.update_of_ne (by omega) _ _).trans (h.pending j (by omega))
  have hop := h.operation
  cases hkind : mapping.request.operationType with
  | processTlsReplaceVector =>
    rw [hkind] at hop
    simp only [remapRecord, hkind]
    refine ⟨hkind.trans hop, h.index, hpending _, ?_, fun hother => absurd hop.symm hother⟩
    exact (map_tlspMmpBlock_set hrecord _).trans h.blocks
  | processTlsReplaceIndex =>
    rw [hkind] at hop
    simp only [remapRecord, hkind]
    exact ⟨hkind.trans hop, h.index, hpending _, h.blocks, h.records⟩
  | maxProcessTlsOperation =>
    rw [hkind] at hop
    simp only [remapRecord, hkind]
    exact ⟨hkind.trans hop, h.index, hpending _, h.blocks, h.records⟩

/-- One element remaps the record it finds, if any, and takes `Flags` and `ThreadId`. -/
theorem remapThread_cases (host : Host) (processHandle : Nat) (tls : ProcessTlsInformation)
    (mapping : Mapping) (i : Nat) :
    ∃ mapped : Mapping,
      remapThread host processHandle tls mapping i =
        { mapped with
          request := mapped.request.setThread i
            { mapped.request.threadData i with
              flags := (tls.threadData i).flags
              threadId := (tls.threadData i).threadId } } ∧
      (mapped = mapping ∨ ∃ position record, mapping.records[position]? = some record ∧
        mapped = remapRecord host processHandle tls i position record mapping) := by
  unfold remapThread
  cases hfind : mapping.records.findIdx?
      (isThreadRecord mapping.request (slotsOf host mapping.memory) i) with
  | none => exact ⟨mapping, rfl, .inl rfl⟩
  | some position =>
    obtain ⟨hlt, -⟩ := List.findIdx?_eq_some_iff_getElem.mp hfind
    have hrecord := List.getElem?_eq_getElem hlt
    refine ⟨remapRecord host processHandle tls i position mapping.records[position] mapping, ?_,
      .inr ⟨position, _, hrecord, rfl⟩⟩
    simp only [hrecord]

theorem remapThread_shape (h : RemapShape start n mapping) :
    RemapShape start (n + 1) (remapThread host processHandle tls mapping n) := by
  obtain ⟨mapped, hrun, hmapped⟩ := remapThread_cases host processHandle tls mapping n
  have hkept : RemapShape start (n + 1) mapped := by
    rcases hmapped with rfl | ⟨position, record, hrecord, rfl⟩
    · exact ⟨h.operation, h.index, fun j hj => h.pending j (by omega), h.blocks, h.records⟩
    · exact remapRecord_shape h hrecord
  rw [hrun]
  refine ⟨hkept.operation, hkept.index, ?_, hkept.blocks, hkept.records⟩
  intro j hj
  exact (Function.update_of_ne (by omega) _ _).trans (hkept.pending j hj)

theorem remapThreads_shape (host : Host) (processHandle : Nat) (tls : ProcessTlsInformation)
    (start : Mapping) (n : Nat) :
    RemapShape start n ((List.range n).foldl (remapThread host processHandle tls) start) := by
  induction n with
  | zero => exact ⟨rfl, rfl, fun _ _ => rfl, rfl, fun _ => rfl⟩
  | succ n ih =>
    rw [List.range_succ, List.foldl_append]
    exact remapThread_shape ih

end Loop

end WinPolyfillLoader.MmpTls.FlatMemory
