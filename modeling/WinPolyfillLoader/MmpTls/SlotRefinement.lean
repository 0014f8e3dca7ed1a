import WinPolyfillLoader.MmpTls.HookExits
import WinPolyfillLoader.MmpTls.FlatMemory

/-!
`Slots` keeps the TLS vectors as memories of their own. Where no vector partly overlaps another,
the bytes of the process hold such slots throughout: every call on the bytes is the call on the
slots.
-/

namespace WinPolyfillLoader.MmpTls.FlatMemory

open ProcessHeap ByteMemory MemoryModule

/-- With `length v` slots at `v`, the memory holds what the vectors do. -/
def Holds (host : Host) (length : Nat → Nat) (memory : Bytes) (slots : Slots) : Prop :=
  ∀ v k, k < length v → slotsOf host memory v k = slots v k

/-- The request names slots that its vectors and those of the records have, and its pointers are
pointers of the host. -/
structure RequestFits (host : Host) (length : Nat → Nat) (request : ProcessTlsInformation)
    (records : List TlspRecord) : Prop extends VectorsFit length request records where
  mmpBlocks : ∀ r ∈ records, request.tlsIndex < length r.tlspMmpBlock
  pointers : ∀ i, (request.threadData i).tlsPointer < host.addresses

/-- The kernel does to the bytes what it does to the slots. -/
structure AnswersAlike (host : Host) (length : Nat → Nat) (flat : KernelAnswer)
    (kernel : MmpTls.KernelAnswer) : Prop where
  status : flat.status = kernel.status
  effect : ∀ hProcess tls memory slots, tls.operationType = .processTlsReplaceIndex →
    tls.tlsIndex < mmpMaximumTlsIndex →
    (∀ i, (tls.threadData i).tlsPointer < host.addresses) → Holds host length memory slots →
    (flat.effect hProcess tls memory).1 = (kernel.effect hProcess tls slots).1 ∧
      (flat.effect hProcess tls memory).1.threadDataCount = tls.threadDataCount ∧
      Holds host length (flat.effect hProcess tls memory).2 (kernel.effect hProcess tls slots).2

/-- The mapping loop and the process on the bytes `memory`. -/
def onMapping (mapping : MmpTls.Mapping) (memory : Bytes) : Mapping :=
  ⟨mapping.request, mapping.records, memory⟩

def onState (state : MmpState) (memory : Bytes) : FlatState :=
  ⟨state.mmpThreadLocalStoragePointer, memory, state.heap⟩

section Stores

variable {host : Host} {length : Nat → Nat} {memory : Bytes} {slots : Slots}

theorem Holds.storeSlot (h : Holds host length memory slots) (hsep : SeparateVectors host length)
    {v k value : Nat} (hk : k < length v) (hvalue : value < host.addresses) :
    Holds host length (storeSlot host memory v k value) (writeSlot slots v k value) := by
  intro v' k' hk'
  rcases Decidable.em (v' = v ∧ k' = k) with ⟨rfl, rfl⟩ | hother
  · rw [writeSlot_self]
    exact slotsOf_storeSlot hvalue
  · have hown := hsep v' (Nat.zero_lt_of_lt hk')
    rw [writeSlot_other slots value hother, hown.slotsOf_storeSlot_other hk' hk hother]
    exact h v' k' hk'

theorem Holds.rtlCopyMemory (h : Holds host length memory slots)
    (hsep : SeparateVectors host length) {dst src n : Nat} (hdst : n < length dst)
    (hsrc : n < length src) :
    Holds host length (rtlCopyMemory host memory dst src n) (copySlots slots dst src n) := by
  intro v k hk
  rcases Decidable.em (v = dst ∧ k < n) with ⟨rfl, hcopied⟩ | hother
  · rw [copySlots_copied slots v src hcopied, slotsOf_rtlCopyMemory hcopied]
    exact h src k (Nat.lt_trans hcopied hsrc)
  · rw [copySlots_other slots src hother]
    have hbeyond : v = dst → n ≤ k := fun heq => Nat.le_of_not_lt fun hlt => hother ⟨heq, hlt⟩
    have hown := hsep v (Nat.zero_lt_of_lt hk)
    exact (hown.slotsOf_rtlCopyMemory_other hk (Nat.zero_lt_of_lt hdst) (Nat.le_of_lt hdst)
      hbeyond).trans (h v k hk)

end Stores

section Kernel

variable {host : Host} {length : Nat → Nat}

/-- `ProcessTlsReplaceIndex` of threads whose vectors have the slot. -/
theorem processTlsReplaceIndex_holds (hsep : SeparateVectors host length)
    {served : List ServedThread} {tls : ProcessTlsInformation} {memory : Bytes} {slots : Slots}
    (hvectors : ∀ s ∈ served, tls.tlsIndex < length s.vector)
    (hpointers : ∀ i, (tls.threadData i).tlsPointer < host.addresses)
    (h : Holds host length memory slots) :
    (processTlsReplaceIndex host served tls memory).1 =
        (MmpTls.processTlsReplaceIndex served tls slots).1 ∧
      Holds host length (processTlsReplaceIndex host served tls memory).2
        (MmpTls.processTlsReplaceIndex served tls slots).2 := by
  induction served generalizing tls memory slots with
  | nil => exact ⟨rfl, h⟩
  | cons s served ih =>
    have hvector := hvectors s List.mem_cons_self
    rw [processTlsReplaceIndex_cons, MmpTls.processTlsReplaceIndex_cons,
      h s.vector tls.tlsIndex hvector]
    apply ih
    · exact fun s' hs' => hvectors s' (List.mem_cons_of_mem _ hs')
    · intro i
      simp only [ProcessTlsInformation.setThread]
      rcases Decidable.em (i = s.element) with rfl | hne
      · rw [Function.update_self, ← h s.vector tls.tlsIndex hvector]
        exact readLE_lt memory _ _
      · rw [Function.update_of_ne hne]
        exact hpointers i
    · exact h.storeSlot hsep hvector (hpointers s.element)

theorem replaceIndexAnswer_alike (hsep : SeparateVectors host length) (status : NtStatus)
    {served : List ServedThread}
    (hvectors : ∀ s ∈ served, mmpMaximumTlsIndex ≤ length s.vector) :
    AnswersAlike host length (replaceIndexAnswer host status served)
      (MmpTls.replaceIndexAnswer status served) := by
  refine ⟨rfl, ?_⟩
  intro _ tls memory slots _ hindex hpointers hholds
  have hvectors' : ∀ s ∈ served, tls.tlsIndex < length s.vector :=
    fun s hs => Nat.lt_of_lt_of_le hindex (hvectors s hs)
  obtain ⟨hrequest, hslots⟩ := processTlsReplaceIndex_holds hsep hvectors' hpointers hholds
  exact ⟨hrequest, processTlsReplaceIndex_count served tls memory, hslots⟩

end Kernel

section Loop

variable {host : Host} {length : Nat → Nat} {processHandle : Nat} {tls : ProcessTlsInformation}
  {start mapping : MmpTls.Mapping} {memory startMemory : Bytes} {n : Nat}

theorem findIdx?_congr {records : List TlspRecord} {p q : TlspRecord → Bool}
    (h : ∀ r ∈ records, p r = q r) : records.findIdx? p = records.findIdx? q := by
  induction records with
  | nil => rfl
  | cons r records ih =>
    rw [List.findIdx?_cons, List.findIdx?_cons, h r List.mem_cons_self,
      ih fun r' hr' => h r' (List.mem_cons_of_mem r hr')]

theorem isThreadRecord_holds {request : ProcessTlsInformation} {slots : Slots} {i : Nat}
    {record : TlspRecord} (hblock : request.tlsIndex < length record.tlspMmpBlock)
    (hvector : request.operationType = .processTlsReplaceVector →
      request.tlsIndex < length (request.threadData i).tlsPointer)
    (h : Holds host length memory slots) :
    isThreadRecord request (slotsOf host memory) i record =
      isThreadRecord request slots i record := by
  unfold isThreadRecord
  cases hop : request.operationType with
  | processTlsReplaceVector =>
    simp only
    rw [h _ _ hblock, h _ _ (hvector hop)]
  | processTlsReplaceIndex =>
    simp only
    rw [h _ _ hblock]
  | maxProcessTlsOperation =>
    simp only
    rw [h _ _ hblock]

theorem remapRecord_holds (hsep : SeparateVectors host length) {i position : Nat}
    {record : TlspRecord}
    (hblock : mapping.request.tlsIndex < length record.tlspMmpBlock)
    (hvector : mapping.request.operationType = .processTlsReplaceVector →
      mapping.request.tlsIndex < length (mapping.request.threadData i).tlsPointer)
    (hldr : mapping.request.operationType ≠ .processTlsReplaceVector →
      mapping.request.tlsIndex < length record.tlspLdrBlock)
    (hpointer : (mapping.request.threadData i).tlsPointer < host.addresses)
    (h : Holds host length memory mapping.slots) :
    ∃ memory', remapRecord host processHandle tls i position record (onMapping mapping memory) =
        onMapping (MmpTls.remapRecord processHandle tls i position record mapping) memory' ∧
      Holds host length memory'
        (MmpTls.remapRecord processHandle tls i position record mapping).slots := by
  have hstored : mapping.request.operationType ≠ .processTlsReplaceVector →
      Holds host length
        (if processHandle ≠ 0 then
          storeSlot host memory record.tlspLdrBlock mapping.request.tlsIndex
            (mapping.request.threadData i).tlsPointer
          else memory)
        (if processHandle ≠ 0 then
          writeSlot mapping.slots record.tlspLdrBlock mapping.request.tlsIndex
            (mapping.request.threadData i).tlsPointer
          else mapping.slots) := by
    intro hop
    split
    · exact h.storeSlot hsep (hldr hop) hpointer
    · exact h
  unfold remapRecord MmpTls.remapRecord
  cases hop : mapping.request.operationType with
  | processTlsReplaceVector =>
    simp only [onMapping, hop]
    exact ⟨_, rfl, h.rtlCopyMemory hsep (hvector hop) hblock⟩
  | processTlsReplaceIndex =>
    simp only [onMapping, hop]
    exact ⟨_, rfl, hstored (by simp [hop])⟩
  | maxProcessTlsOperation =>
    simp only [onMapping, hop]
    exact ⟨_, rfl, hstored (by simp [hop])⟩

theorem remapThread_holds (hsep : SeparateVectors host length)
    (hfits : RequestFits host length start.request start.records)
    (hn : n < start.request.threadDataCount)
    (hshape : RemapShape (onMapping start startMemory) n (onMapping mapping memory))
    (h : Holds host length memory mapping.slots) :
    ∃ memory', remapThread host processHandle tls (onMapping mapping memory) n =
        onMapping (MmpTls.remapThread processHandle tls mapping n) memory' ∧
      Holds host length memory' (MmpTls.remapThread processHandle tls mapping n).slots := by
  have hindex : mapping.request.tlsIndex = start.request.tlsIndex := hshape.index
  have hpending : mapping.request.threadData n = start.request.threadData n :=
    hshape.pending n (Nat.le_refl n)
  have hvector : mapping.request.operationType = .processTlsReplaceVector →
      mapping.request.tlsIndex < length (mapping.request.threadData n).tlsPointer := by
    intro hop
    rw [hindex, hpending]
    exact hfits.tlsVectors (hshape.operation.symm.trans hop) n hn
  have hblocks : ∀ r ∈ mapping.records, mapping.request.tlsIndex < length r.tlspMmpBlock := by
    intro r hr
    have hsame : mapping.records.map TlspRecord.tlspMmpBlock =
      start.records.map TlspRecord.tlspMmpBlock := hshape.blocks
    have hmem : r.tlspMmpBlock ∈ start.records.map TlspRecord.tlspMmpBlock :=
      hsame ▸ List.mem_map_of_mem hr
    obtain ⟨r', hr', heq⟩ := List.mem_map.mp hmem
    rw [hindex, ← heq]
    exact hfits.mmpBlocks r' hr'
  have hfind : (onMapping mapping memory).records.findIdx? (isThreadRecord
      (onMapping mapping memory).request (slotsOf host (onMapping mapping memory).memory) n) =
      mapping.records.findIdx? (isThreadRecord mapping.request mapping.slots n) :=
    findIdx?_congr fun r hr => isThreadRecord_holds (hblocks r hr) hvector h
  unfold remapThread MmpTls.remapThread
  rw [hfind]
  cases hfound : mapping.records.findIdx? (isThreadRecord mapping.request mapping.slots n) with
  | none => exact ⟨memory, rfl, h⟩
  | some position =>
    obtain ⟨hlt, -⟩ := List.findIdx?_eq_some_iff_getElem.mp hfound
    have hrecord : mapping.records[position]? = some mapping.records[position] :=
      List.getElem?_eq_getElem hlt
    obtain ⟨-, hldr⟩ := hshape.fits hfits.toVectorsFit hn hrecord
    have hmapped : ∃ memory', remapRecord host processHandle tls n position
            mapping.records[position] (onMapping mapping memory) =
          onMapping (MmpTls.remapRecord processHandle tls n position
            mapping.records[position] mapping) memory' ∧
        Holds host length memory' (MmpTls.remapRecord processHandle tls n position
          mapping.records[position] mapping).slots :=
      remapRecord_holds hsep (hblocks _ (List.getElem_mem hlt)) hvector hldr
        (hpending ▸ hfits.pointers n) h
    obtain ⟨memory', hrun, hholds⟩ := hmapped
    have hrecord' : (onMapping mapping memory).records[position]? =
      some mapping.records[position] := hrecord
    simp only [hrecord, hrecord', hrun]
    exact ⟨memory', rfl, hholds⟩

theorem remapThreads_hold (hsep : SeparateVectors host length)
    (hfits : RequestFits host length start.request start.records)
    (hn : n ≤ start.request.threadDataCount) (h : Holds host length memory start.slots) :
    ∃ memory', (List.range n).foldl (remapThread host processHandle tls)
          (onMapping start memory) =
        onMapping ((List.range n).foldl (MmpTls.remapThread processHandle tls) start) memory' ∧
      Holds host length memory'
        ((List.range n).foldl (MmpTls.remapThread processHandle tls) start).slots := by
  induction n with
  | zero => exact ⟨memory, rfl, h⟩
  | succ n ih =>
    obtain ⟨memory', hrun, hholds⟩ := ih (Nat.le_of_succ_le hn)
    have hshape := remapThreads_shape host processHandle tls (onMapping start memory) n
    rw [hrun] at hshape
    rw [List.range_succ, List.foldl_append, List.foldl_append, hrun]
    exact remapThread_holds hsep hfits hn hshape hholds

end Loop

section Hook

variable {host : Host} {length : Nat → Nat} {processHandle : Nat}
  {request : ProcessTlsInformation} {memory : Bytes}

theorem convertRequest_holds {slots : Slots}
    (hvectors : request.operationType = .processTlsReplaceVector →
      ∀ i < request.threadDataCount, request.tlsIndex < length (request.threadData i).tlsPointer)
    (h : Holds host length memory slots) :
    convertRequest processHandle request (slotsOf host memory) =
      convertRequest processHandle request slots := by
  cases hop : request.operationType with
  | processTlsReplaceVector =>
    have hpointers : ∀ i < request.threadDataCount,
        slotsOf host memory (request.threadData i).tlsPointer request.tlsIndex =
          slots (request.threadData i).tlsPointer request.tlsIndex :=
      fun i hi => h _ _ (hvectors hop i hi)
    have hdata : ∀ i, (if i < request.threadDataCount then
          { request.threadData i with
            tlsPointer := slotsOf host memory (request.threadData i).tlsPointer request.tlsIndex }
        else request.threadData i) =
        if i < request.threadDataCount then
          { request.threadData i with
            tlsPointer := slots (request.threadData i).tlsPointer request.tlsIndex }
        else request.threadData i := by
      intro i
      split
      · rename_i hi
        rw [hpointers i hi]
      · rfl
    simp only [convertRequest, hop, hdata]
  | processTlsReplaceIndex => simp only [convertRequest, hop]
  | maxProcessTlsOperation => simp only [convertRequest, hop]

theorem convertRequest_pointers {tls : ProcessTlsInformation}
    (hpointers : ∀ i, (request.threadData i).tlsPointer < host.addresses)
    (h : convertRequest processHandle request (slotsOf host memory) = .ok tls) (i : Nat) :
    (tls.threadData i).tlsPointer < host.addresses := by
  have hslot : ∀ v k, slotsOf host memory v k < host.addresses :=
    fun v k => readLE_lt memory _ _
  unfold convertRequest at h
  split at h
  · split at h
    · cases h
    · split at h
      · cases h
      · cases h
        dsimp only
        split
        · exact hslot _ _
        · exact hpointers i
  · split at h
    · split at h
      · cases h
      · cases h
        exact hpointers i
    · split at h
      · cases h
      · cases h
        exact hpointers i

/-- `HookNtSetInformationProcess` on the bytes is the one on the slots. -/
theorem hookNtSetInformationProcess_refines {flat : KernelAnswer} {kernel : MmpTls.KernelAnswer}
    {state : MmpState} (hsep : SeparateVectors host length)
    (hfits : RequestFits host length request state.mmpThreadLocalStoragePointer)
    (hkernel : AnswersAlike host length flat kernel)
    (h : Holds host length memory state.slots) :
    let answer := MmpTls.hookNtSetInformationProcess kernel processHandle request state
    ∃ memory', hookNtSetInformationProcess host flat processHandle request
        (onState state memory) = (answer.1, answer.2.1, onState answer.2.2 memory') ∧
      Holds host length memory' answer.2.2.slots := by
  have hconverted : convertRequest processHandle request (slotsOf host memory) =
      convertRequest processHandle request state.slots :=
    convertRequest_holds hfits.tlsVectors h
  unfold hookNtSetInformationProcess
  rcases Decidable.em (request.operationType = .maxProcessTlsOperation) with hop | hop
  · rw [if_pos hop]
    simp only [MmpTls.hookNtSetInformationProcess, hop]
    exact ⟨memory, rfl, h⟩
  · rw [if_neg hop]
    obtain ⟨hrefused, hgranted⟩ :=
      MmpTls.hookNtSetInformationProcess_run kernel processHandle state hop
    rcases allocate_cases state.heap with ⟨heap, hallocate, -⟩ |
      ⟨private_, heap, hallocate, hprivate, -⟩
    · rw [hrefused heap hallocate]
      simp only [onState, hallocate]
      exact ⟨memory, rfl, h⟩
    · obtain ⟨herror, hok⟩ := hgranted private_ heap hallocate hprivate
      simp only [onState, hallocate, hconverted]
      cases hconvert : convertRequest processHandle request state.slots with
      | error status =>
        rw [herror status hconvert]
        exact ⟨memory, rfl, h⟩
      | ok tls =>
        rw [hok tls hconvert, hkernel.status]
        cases hsuccess : ntSuccess kernel.status with
        | false => exact ⟨memory, rfl, h⟩
        | true =>
          obtain ⟨hkind, -, hlow, hown⟩ := convertRequest_ok hop hconvert
          have hindex : tls.tlsIndex < mmpMaximumTlsIndex := by
            rcases Decidable.em (processHandle = 0) with hnull | hhandle
            · exact (hown hnull).2.2
            · exact Nat.lt_trans (hlow hhandle) (by decide)
          have hpointers := convertRequest_pointers hfits.pointers (hconverted.trans hconvert)
          let hProcess := if processHandle ≠ 0 then processHandle else ntCurrentProcess
          let answer := kernel.effect hProcess tls state.slots
          obtain ⟨hrequest, hcount, hheld⟩ :=
            hkernel.effect hProcess tls memory state.slots hkind hindex hpointers h
          have hfew : answer.1.threadDataCount ≤ request.threadDataCount :=
            Nat.le_of_eq ((hrequest ▸ hcount).trans (convertRequest_count hconvert))
          let start : MmpTls.Mapping :=
            ⟨request, state.mmpThreadLocalStoragePointer, answer.2⟩
          have hmapped : ∃ memory', (List.range answer.1.threadDataCount).foldl
                  (remapThread host processHandle answer.1) (onMapping start _) =
                onMapping ((List.range answer.1.threadDataCount).foldl
                  (MmpTls.remapThread processHandle answer.1) start) memory' ∧
              Holds host length memory' ((List.range answer.1.threadDataCount).foldl
                (MmpTls.remapThread processHandle answer.1) start).slots :=
            remapThreads_hold hsep hfits hfew hheld
          obtain ⟨memory', hloop, hlast⟩ := hmapped
          refine ⟨memory', ?_, hlast⟩
          simp only [if_true]
          rw [hrequest]
          simp only [onMapping, start] at hloop
          rw [hloop]

end Hook

end WinPolyfillLoader.MmpTls.FlatMemory
