import WinPolyfillLoader.MmpTls.MappingLoop
import WinPolyfillLoader.Library.Runs

/-!
The two vectors of a thread. ntdll believes that the vector it made is the
installed one; every request that passes keeps the slots of ntdll in it equal to
those of the installed vector, and hands ntdll's own vectors back to it.
-/

namespace WinPolyfillLoader.MmpTls

open ProcessHeap Runs

/-- Each live thread has exactly one record, with the vector that is installed
in it, and no two vectors are the same memory. -/
structure ThreadsRecorded (threads : List Teb) (state : MmpState) : Prop where
  installed : (state.mmpThreadLocalStoragePointer.map fun r => (r.uniqueThread, r.tlspMmpBlock)).Perm
    (threads.map fun teb => (teb.clientId, teb.threadLocalStoragePointer))
  vector_ne : ∀ teb ∈ threads, teb.threadLocalStoragePointer ≠ 0
  distinct : (state.mmpThreadLocalStoragePointer.map TlspRecord.tlspMmpBlock ++
    state.mmpThreadLocalStoragePointer.map TlspRecord.tlspLdrBlock).Nodup

/-- The first `n` slots of the two vectors of each thread are equal. -/
def InStep (n : Nat) (state : MmpState) : Prop :=
  ∀ r ∈ state.mmpThreadLocalStoragePointer, ∀ k < n,
    state.slots r.tlspLdrBlock k = state.slots r.tlspMmpBlock k

/-- Each thread with a vector takes one element of a request of `count`. -/
structure Serves (threads : List Teb) (served : List ServedThread) (count : Nat) : Prop where
  threads : (served.map ServedThread.teb).Perm
    (threads.filter fun teb => teb.threadLocalStoragePointer ≠ 0)
  elements : (served.map ServedThread.element).Nodup
  lt : ∀ s ∈ served, s.element < count

/-- The element that the thread with this vector took. -/
def elementOf (served : List ServedThread) (vector : Nat) : Nat :=
  match served.find? (fun s => s.vector == vector) with
  | some s => s.element
  | none => 0

section Kernel

variable {threads : List Teb} {state : MmpState} {served : List ServedThread} {count : Nat}

theorem Serves.teb_mem_iff (hstate : ThreadsRecorded threads state)
    (hserves : Serves threads served count) (teb : Teb) :
    (∃ s ∈ served, s.teb = teb) ↔ teb ∈ threads := by
  rw [← List.mem_map, hserves.threads.mem_iff, List.mem_filter]
  constructor
  · exact fun h => h.1
  · intro h
    exact ⟨h, by simpa using hstate.vector_ne teb h⟩

theorem Serves.vectors_nodup (hstate : ThreadsRecorded threads state)
    (hserves : Serves threads served count) : (served.map ServedThread.vector).Nodup := by
  have hinstalled := hstate.installed.map Prod.snd
  rw [List.map_map, List.map_map] at hinstalled
  have hthreads : (threads.map Teb.threadLocalStoragePointer).Nodup :=
    hinstalled.nodup_iff.mp (List.nodup_append.mp hstate.distinct).1
  have hserved := hserves.threads.map Teb.threadLocalStoragePointer
  rw [List.map_map] at hserved
  exact hserved.nodup_iff.mpr (hthreads.sublist (List.filter_sublist.map _))

theorem Serves.elementOf (hstate : ThreadsRecorded threads state)
    (hserves : Serves threads served count) {s : ServedThread} (hs : s ∈ served) :
    elementOf served s.vector = s.element := by
  unfold MmpTls.elementOf
  cases hfind : served.find? (fun s' => s'.vector == s.vector) with
  | none =>
    have hnone := List.find?_eq_none.mp hfind s hs
    simp at hnone
  | some s' =>
    have hvector : s'.vector = s.vector := by simpa using List.find?_some hfind
    have hsame := List.inj_on_of_nodup_map (hserves.vectors_nodup hstate)
      (List.mem_of_find?_eq_some hfind) hs hvector
    simp [hsame]

/-- The record of a served thread, and the served thread of a record. -/
theorem Serves.record (hstate : ThreadsRecorded threads state)
    (hserves : Serves threads served count) {s : ServedThread} (hs : s ∈ served) :
    ∃ r ∈ state.mmpThreadLocalStoragePointer, r.uniqueThread = s.teb.clientId ∧
      r.tlspMmpBlock = s.vector := by
  have hteb := (hserves.teb_mem_iff hstate s.teb).mp ⟨s, hs, rfl⟩
  have hmem : (s.teb.clientId, s.vector) ∈
      state.mmpThreadLocalStoragePointer.map fun r => (r.uniqueThread, r.tlspMmpBlock) :=
    hstate.installed.mem_iff.mpr (List.mem_map.mpr ⟨s.teb, hteb, rfl⟩)
  obtain ⟨r, hr, heq⟩ := List.mem_map.mp hmem
  exact ⟨r, hr, congrArg Prod.fst heq, congrArg Prod.snd heq⟩

theorem Serves.taken (hstate : ThreadsRecorded threads state)
    (hserves : Serves threads served count) {r : TlspRecord}
    (hr : r ∈ state.mmpThreadLocalStoragePointer) : ∃ s ∈ served, s.vector = r.tlspMmpBlock := by
  have hmem := hstate.installed.mem_iff.mp (List.mem_map_of_mem hr)
  obtain ⟨teb, hteb, heq⟩ := List.mem_map.mp hmem
  obtain ⟨s, hs, hsteb⟩ := (hserves.teb_mem_iff hstate teb).mpr hteb
  exact ⟨s, hs, by rw [ServedThread.vector, hsteb]; exact congrArg Prod.snd heq⟩

theorem Serves.takesElement (hstate : ThreadsRecorded threads state)
    (hserves : Serves threads served count) :
    TakesElement state.mmpThreadLocalStoragePointer (MmpTls.elementOf served) count where
  lt := by
    intro r hr
    obtain ⟨s, hs, hvector⟩ := hserves.taken hstate hr
    rw [← hvector, hserves.elementOf hstate hs]
    exact hserves.lt s hs
  inj := by
    intro r hr r' hr' heq
    obtain ⟨s, hs, hvector⟩ := hserves.taken hstate hr
    obtain ⟨s', hs', hvector'⟩ := hserves.taken hstate hr'
    rw [← hvector, ← hvector', hserves.elementOf hstate hs, hserves.elementOf hstate hs'] at heq
    rw [← hvector, ← hvector', List.inj_on_of_nodup_map hserves.elements hs hs' heq]
  nodup := (List.nodup_append.mp hstate.distinct).1

theorem Serves.vector_mem_iff (hstate : ThreadsRecorded threads state)
    (hserves : Serves threads served count) (v : Nat) :
    v ∈ served.map ServedThread.vector ↔
      ∃ r ∈ state.mmpThreadLocalStoragePointer, r.tlspMmpBlock = v := by
  rw [List.mem_map]
  constructor
  · rintro ⟨s, hs, rfl⟩
    obtain ⟨r, hr, _, hvector⟩ := hserves.record hstate hs
    exact ⟨r, hr, hvector⟩
  · rintro ⟨r, hr, rfl⟩
    exact hserves.taken hstate hr

/-- After the exchange the slot of each record holds the pointer of the element
that its thread took. -/
theorem Serves.exchanged (hstate : ThreadsRecorded threads state)
    (hserves : Serves threads served count) (tls : ProcessTlsInformation) {r : TlspRecord}
    (hr : r ∈ state.mmpThreadLocalStoragePointer) :
    (processTlsReplaceIndex served tls state.slots).2 r.tlspMmpBlock tls.tlsIndex =
      (tls.threadData (MmpTls.elementOf served r.tlspMmpBlock)).tlsPointer := by
  obtain ⟨s, hs, hvector⟩ := hserves.taken hstate hr
  rw [← hvector, hserves.elementOf hstate hs]
  exact (processTlsReplaceIndex_served (hserves.vectors_nodup hstate) hserves.elements tls
    state.slots hs).2

end Kernel

/-- One intercepted request and what the kernel answers to it. -/
structure InterceptedRequest where
  status : NtStatus
  served : List ServedThread
  processHandle : Nat
  request : ProcessTlsInformation

def InterceptedRequest.result (r : InterceptedRequest) (state : MmpState) :
    NtStatus × ProcessTlsInformation × MmpState :=
  hookNtSetInformationProcess (replaceIndexAnswer r.status r.served) r.processHandle r.request state

/-- The pointers of a request are pairwise distinct. -/
def DistinctPointers (request : ProcessTlsInformation) : Prop :=
  ∀ i < request.threadDataCount, ∀ j < request.threadDataCount,
    (request.threadData i).tlsPointer = (request.threadData j).tlsPointer → i = j

/-- The new vectors of a request `ProcessTlsReplaceVector` and the pointers in
their last slots are pairwise distinct, and no vector is one of a record. -/
structure FreshVectors (request : ProcessTlsInformation) (state : MmpState) : Prop where
  vectors : DistinctPointers request
  data : ∀ i < request.threadDataCount, ∀ j < request.threadDataCount,
    state.slots (request.threadData i).tlsPointer request.tlsIndex =
      state.slots (request.threadData j).tlsPointer request.tlsIndex → i = j
  ne_mmp : ∀ r ∈ state.mmpThreadLocalStoragePointer, ∀ i < request.threadDataCount,
    (request.threadData i).tlsPointer ≠ r.tlspMmpBlock

/-- The three kinds of requests, when ntdll uses `s.1` slots: one of the module,
one of ntdll for a slot in use, and one of ntdll for its next slot. -/
def ValidRequest (threads : List Teb) (s : Nat × MmpState) (r : InterceptedRequest) : Prop :=
  (r.processHandle = 0 ∧ r.request.operationType = .processTlsReplaceIndex) ∨
  (r.processHandle ≠ 0 ∧ (ntSuccess r.status = true →
      Serves threads r.served r.request.threadDataCount) ∧
    ((r.request.operationType = .processTlsReplaceIndex ∧ r.request.tlsIndex < s.1 ∧
        DistinctPointers r.request) ∨
      (r.request.operationType = .processTlsReplaceVector ∧ r.request.tlsIndex = s.1 ∧
        s.1 < mmpStartTlsIndex ∧ FreshVectors r.request s.2)))

/-- A request, after which ntdll uses one slot more if it replaced the vectors. -/
def interceptedStep (s : Nat × MmpState) (r : InterceptedRequest) : Nat × MmpState :=
  let result := r.result s.2
  (if r.request.operationType = .processTlsReplaceVector ∧ ntSuccess result.1 = true then s.1 + 1
    else s.1, result.2.2)

/-- The invariant of a run. -/
structure StaysInStep (threads : List Teb) (s : Nat × MmpState) : Prop where
  recorded : ThreadsRecorded threads s.2
  bound : s.1 ≤ mmpStartTlsIndex
  inStep : InStep s.1 s.2

theorem convertRequest_replaceIndex {processHandle : Nat} {request tls : ProcessTlsInformation}
    {slots : Slots} (hop : request.operationType = .processTlsReplaceIndex)
    (h : convertRequest processHandle request slots = .ok tls) : tls = request := by
  simp only [convertRequest, hop] at h
  split at h
  · split at h
    · cases h
    · cases h
      rfl
  · split at h
    · cases h
    · cases h
      rfl

theorem convertRequest_replaceVector {processHandle : Nat} {request tls : ProcessTlsInformation}
    {slots : Slots} (hop : request.operationType = .processTlsReplaceVector)
    (h : convertRequest processHandle request slots = .ok tls) :
    tls.threadDataCount = request.threadDataCount ∧ ∀ i < request.threadDataCount,
      (tls.threadData i).tlsPointer =
        slots (request.threadData i).tlsPointer request.tlsIndex := by
  simp only [convertRequest, hop] at h
  split at h
  · cases h
  · split at h
    · cases h
    · cases h
      refine ⟨rfl, ?_⟩
      intro i hi
      simp only [if_pos hi]

theorem StaysInStep.heap {threads : List Teb} {n : Nat} {state : MmpState} (heap : Heap)
    (h : StaysInStep threads (n, state)) : StaysInStep threads (n, { state with heap := heap }) :=
  ⟨⟨h.recorded.installed, h.recorded.vector_ne, h.recorded.distinct⟩, h.bound, h.inStep⟩

theorem StaysInStep.module {threads : List Teb} {s : Nat × MmpState} {r : InterceptedRequest}
    (h : StaysInStep threads s) (hhandle : r.processHandle = 0)
    (hop : r.request.operationType = .processTlsReplaceIndex) :
    StaysInStep threads (interceptedStep s r) := by
  obtain ⟨hrecords, hslots⟩ := hookNtSetInformationProcess_module
    (replaceIndexAnswer_writesOnlyIndex r.status r.served) r.request s.2
  have hresult : interceptedStep s r = (s.1, (hookNtSetInformationProcess
      (replaceIndexAnswer r.status r.served) 0 r.request s.2).2.2) := by
    simp [interceptedStep, InterceptedRequest.result, hop, hhandle]
  rw [hresult]
  constructor
  · constructor
    · rw [hrecords]
      exact h.recorded.installed
    · exact h.recorded.vector_ne
    · rw [hrecords]
      exact h.recorded.distinct
  · exact h.bound
  · intro record hrecord k hk
    have hlow : k < mmpStartTlsIndex := Nat.lt_of_lt_of_le hk h.bound
    rw [hrecords] at hrecord
    rw [hslots _ k hlow, hslots _ k hlow]
    exact h.inStep record hrecord k hk

theorem ThreadsRecorded.ldr_ne_mmp {threads : List Teb} {state : MmpState}
    (h : ThreadsRecorded threads state) :
    ∀ r ∈ state.mmpThreadLocalStoragePointer, ∀ r' ∈ state.mmpThreadLocalStoragePointer,
      r.tlspLdrBlock ≠ r'.tlspMmpBlock := by
  intro r hr r' hr' heq
  exact (List.nodup_append.mp h.distinct).2.2 _ (List.mem_map_of_mem hr') _
    (List.mem_map_of_mem hr) heq.symm

/-- A request of ntdll for a slot in use: the hook writes the new pointer into
ntdll's own vectors as well. -/
theorem StaysInStep.replaceIndex {threads : List Teb} {s : Nat × MmpState} {r : InterceptedRequest}
    (h : StaysInStep threads s) (hhandle : r.processHandle ≠ 0)
    (hserves : ntSuccess r.status = true → Serves threads r.served r.request.threadDataCount)
    (hop : r.request.operationType = .processTlsReplaceIndex)
    (hdistinct : DistinctPointers r.request) :
    StaysInStep threads (interceptedStep s r) := by
  obtain ⟨n, state⟩ := s
  rcases hookNtSetInformationProcess_cases (replaceIndexAnswer r.status r.served)
    r.processHandle r.request state with
    ⟨status, heap, _, hrun⟩ | ⟨hProcess, tls, heap, hsuccess, _, hconvert, hrun⟩
  · have hresult : interceptedStep (n, state) r = (n, { state with heap := heap }) := by
      simp [interceptedStep, InterceptedRequest.result, hop, hrun]
    rw [hresult]
    exact h.heap heap
  · have hserved := hserves hsuccess
    have htls := convertRequest_replaceIndex hop hconvert
    subst htls
    let answer := processTlsReplaceIndex r.served r.request state.slots
    have hstart : ReplacesIndex state.mmpThreadLocalStoragePointer (elementOf r.served) r.request
        answer.2 :=
      ⟨hop, hserved.takesElement h.recorded, hdistinct,
        fun record hrecord => hserved.exchanged h.recorded r.request hrecord,
        (List.nodup_append.mp h.recorded.distinct).2.1, h.recorded.ldr_ne_mmp⟩
    have hcount : answer.1.threadDataCount = r.request.threadDataCount :=
      (processTlsReplaceIndex_request r.served r.request state.slots).2.1
    have hloop := IndexReplaced.loop hstart hhandle answer.1 (Nat.le_of_eq hcount)
    generalize hmapping : (List.range answer.1.threadDataCount).foldl
      (remapThread r.processHandle answer.1)
      ⟨r.request, state.mmpThreadLocalStoragePointer, answer.2⟩ = mapping at hloop
    have hresult : interceptedStep (n, state) r = (n, { state with
        mmpThreadLocalStoragePointer := mapping.records
        slots := mapping.slots
        heap := heap }) := by
      rw [← hmapping]
      simp only [interceptedStep, InterceptedRequest.result, hop, hrun]
      simp [answer, replaceIndexAnswer]
    rw [hresult]
    refine ⟨⟨?_, h.recorded.vector_ne, ?_⟩, h.bound, ?_⟩
    · rw [hloop.kept]
      exact h.recorded.installed
    · rw [hloop.kept]
      exact h.recorded.distinct
    · intro record hrecord k hk
      rw [hloop.kept] at hrecord
      have hmmp : ∀ k, mapping.slots record.tlspMmpBlock k = answer.2 record.tlspMmpBlock k := by
        intro k
        refine hloop.outside _ k (Or.inr ?_)
        intro r' hr' heq
        exact h.recorded.ldr_ne_mmp r' hr' record hrecord heq.symm
      change mapping.slots record.tlspLdrBlock k = mapping.slots record.tlspMmpBlock k
      rw [hmmp]
      rcases Decidable.em (k = r.request.tlsIndex) with rfl | hne
      · have hlt : elementOf r.served record.tlspMmpBlock < answer.1.threadDataCount :=
          hcount ▸ (hserved.takesElement h.recorded).lt record hrecord
        exact (hloop.written record hrecord hlt).trans (hstart.exchanged record hrecord).symm
      · rw [hloop.outside _ k (Or.inl hne)]
        have hldr := processTlsReplaceIndex_slots_other r.served r.request state.slots
          (v := record.tlspLdrBlock) (Or.inl hne)
        have hblock := processTlsReplaceIndex_slots_other r.served r.request state.slots
          (v := record.tlspMmpBlock) (Or.inl hne)
        exact (hldr.trans (h.inStep record hrecord k hk)).trans hblock.symm

/-- The end of the loop for a request of ntdll that replaced the vectors. -/
theorem replaceVector_mapping {threads : List Teb} {state : MmpState} {r : InterceptedRequest}
    (hrecorded : ThreadsRecorded threads state)
    (hserved : Serves threads r.served r.request.threadDataCount)
    (hop : r.request.operationType = .processTlsReplaceVector)
    (hfresh : FreshVectors r.request state) {tls : ProcessTlsInformation}
    (hconvert : convertRequest r.processHandle r.request state.slots = .ok tls)
    (hindex : tls.tlsIndex = r.request.tlsIndex) :
    let answer := processTlsReplaceIndex r.served tls state.slots
    ReplacesVectors state.mmpThreadLocalStoragePointer (elementOf r.served) r.request answer.2 ∧
      VectorsReplaced state.mmpThreadLocalStoragePointer (elementOf r.served) r.request answer.2
        r.request.threadDataCount
        ((List.range answer.1.threadDataCount).foldl (remapThread r.processHandle answer.1)
          ⟨r.request, state.mmpThreadLocalStoragePointer, answer.2⟩) := by
  intro answer
  obtain ⟨hcount, hpointers⟩ := convertRequest_replaceVector hop hconvert
  have hcount' : answer.1.threadDataCount = r.request.threadDataCount :=
    (processTlsReplaceIndex_request r.served tls state.slots).2.1.trans hcount
  have hvector : ∀ i < r.request.threadDataCount, ∀ k,
      answer.2 (r.request.threadData i).tlsPointer k =
        state.slots (r.request.threadData i).tlsPointer k := by
    intro i hi k
    refine processTlsReplaceIndex_slots_other r.served tls state.slots (Or.inr ?_)
    rw [hserved.vector_mem_iff hrecorded]
    rintro ⟨record, hrecord, heq⟩
    exact hfresh.ne_mmp record hrecord i hi heq.symm
  have htakes := hserved.takesElement hrecorded
  have hstart : ReplacesVectors state.mmpThreadLocalStoragePointer (elementOf r.served) r.request
      answer.2 := by
    refine ⟨hop, htakes, hfresh.vectors, ?_, ?_, ?_⟩
    · intro record hrecord i hi heq
      exact hfresh.ne_mmp record hrecord i hi heq.symm
    · intro i hi j hj heq
      rw [hvector i hi, hvector j hj] at heq
      exact hfresh.data i hi j hj heq
    · intro record hrecord
      have hlt := htakes.lt record hrecord
      have hexchanged := hserved.exchanged hrecorded tls hrecord
      rw [hindex] at hexchanged
      rw [hvector _ hlt]
      exact hexchanged.trans (hpointers _ hlt)
  refine ⟨hstart, ?_⟩
  rw [hcount']
  exact VectorsReplaced.loop hstart r.processHandle answer.1 (Nat.le_refl _)

/-- After the loop every record has its new vector, and the vectors are in step
for one slot more. -/
theorem VectorsReplaced.staysInStep {threads : List Teb} {n : Nat} {state : MmpState}
    {element : Nat → Nat} {request : ProcessTlsInformation} {slots : Slots} {mapping : Mapping}
    (h : StaysInStep threads (n, state)) (hindex : request.tlsIndex = n)
    (hn : n < mmpStartTlsIndex)
    (hstart : ReplacesVectors state.mmpThreadLocalStoragePointer element request slots)
    (hend : VectorsReplaced state.mmpThreadLocalStoragePointer element request slots
      request.threadDataCount mapping) (heap : Heap) :
    StaysInStep threads (n + 1, { state with
      mmpThreadLocalStoragePointer := mapping.records
      slots := mapping.slots
      heap := heap }) := by
  have hrecords : mapping.records = state.mmpThreadLocalStoragePointer.map fun r =>
      { r with tlspLdrBlock := (request.threadData (element r.tlspMmpBlock)).tlsPointer } := by
    rw [hend.replaced]
    exact List.map_congr_left fun r hr => if_pos (hstart.takes.lt r hr)
  constructor
  · constructor
    · simp only [hrecords, List.map_map]
      exact h.recorded.installed
    · exact h.recorded.vector_ne
    · simp only [hrecords, List.map_map]
      refine List.nodup_append.mpr ⟨(List.nodup_append.mp h.recorded.distinct).1, ?_, ?_⟩
      · refine List.Nodup.map_on ?_ hstart.takes.nodup.of_map
        intro r hr r' hr' heq
        have hsame := hstart.vectors_inj _ (hstart.takes.lt r hr) _ (hstart.takes.lt r' hr') heq
        exact List.inj_on_of_nodup_map hstart.takes.nodup hr hr'
          (hstart.takes.inj r hr r' hr' hsame)
      · intro v hv v' hv' heq
        obtain ⟨r, hr, rfl⟩ := List.mem_map.mp hv
        obtain ⟨r', hr', rfl⟩ := List.mem_map.mp hv'
        exact hstart.vectors_new r hr _ (hstart.takes.lt r' hr') heq
  · exact hn
  · intro record hrecord k hk
    simp only [hrecords] at hrecord
    obtain ⟨r, hr, rfl⟩ := List.mem_map.mp hrecord
    have hlt := hstart.takes.lt r hr
    have hmmp : mapping.slots r.tlspMmpBlock k = slots r.tlspMmpBlock k :=
      hend.outside _ k (Or.inr (hstart.vectors_new r hr))
    change mapping.slots (request.threadData (element r.tlspMmpBlock)).tlsPointer k =
      mapping.slots r.tlspMmpBlock k
    rw [hmmp]
    rcases Nat.lt_succ_iff_lt_or_eq.mp hk with hlow | rfl
    · exact hend.copied r hr hlt k (by omega)
    · have hexchanged := hstart.exchanged r hr
      rw [hindex] at hexchanged
      rw [hexchanged]
      exact hend.outside _ _ (Or.inl (by omega))

theorem StaysInStep.replaceVector {threads : List Teb} {s : Nat × MmpState} {r : InterceptedRequest}
    (h : StaysInStep threads s)
    (hserves : ntSuccess r.status = true → Serves threads r.served r.request.threadDataCount)
    (hop : r.request.operationType = .processTlsReplaceVector)
    (hindex : r.request.tlsIndex = s.1) (hn : s.1 < mmpStartTlsIndex)
    (hfresh : FreshVectors r.request s.2) :
    StaysInStep threads (interceptedStep s r) := by
  obtain ⟨n, state⟩ := s
  rcases hookNtSetInformationProcess_cases (replaceIndexAnswer r.status r.served)
    r.processHandle r.request state with
    ⟨status, heap, hfailed, hrun⟩ | ⟨hProcess, tls, heap, hsuccess, hkind, hconvert, hrun⟩
  · have hresult : interceptedStep (n, state) r = (n, { state with heap := heap }) := by
      simp [interceptedStep, InterceptedRequest.result, hop, hrun, hfailed]
    rw [hresult]
    exact h.heap heap
  · obtain ⟨_, htls, _⟩ := convertRequest_ok hkind hconvert
    obtain ⟨hstart, hend⟩ := replaceVector_mapping h.recorded (hserves hsuccess) hop hfresh
      hconvert htls
    have hstatus : ntSuccess r.status = true := hsuccess
    have hstays := hend.staysInStep h hindex hn hstart heap
    simp only [interceptedStep, InterceptedRequest.result, hop, hrun]
    simp only [replaceIndexAnswer, hstatus, and_self, if_true]
    exact hstays

theorem StaysInStep.step {threads : List Teb} {s : Nat × MmpState} {r : InterceptedRequest}
    (h : StaysInStep threads s) (hvalid : ValidRequest threads s r) :
    StaysInStep threads (interceptedStep s r) := by
  rcases hvalid with ⟨hhandle, hop⟩ | ⟨hhandle, hserves, hkind⟩
  · exact h.module hhandle hop
  · rcases hkind with ⟨hop, hindex, hdistinct⟩ | ⟨hop, hindex, hn, hfresh⟩
    · exact h.replaceIndex hhandle hserves hop hdistinct
    · exact h.replaceVector hserves hop hindex hn hfresh

/-- What a request for the next slot hands back: to every thread the vector of
ntdll that its record held, and never an installed vector. -/
def HandsBackVectors (threads : List Teb) (state : MmpState) (r : InterceptedRequest) : Prop :=
  (∀ i < r.request.threadDataCount, ∀ record ∈ state.mmpThreadLocalStoragePointer,
    ((r.result state).2.1.threadData i).tlsPointer ≠ record.tlspMmpBlock) ∧
  (ntSuccess (r.result state).1 = true → ∀ teb ∈ threads,
    ∃ s ∈ r.served, ∃ record ∈ state.mmpThreadLocalStoragePointer, s.teb = teb ∧
      record.uniqueThread = teb.clientId ∧
      record.tlspMmpBlock = teb.threadLocalStoragePointer ∧
      ((r.result state).2.1.threadData s.element).tlsPointer = record.tlspLdrBlock)

theorem StaysInStep.handsBack {threads : List Teb} {n : Nat} {state : MmpState}
    {r : InterceptedRequest} (h : StaysInStep threads (n, state))
    (hserves : ntSuccess r.status = true → Serves threads r.served r.request.threadDataCount)
    (hop : r.request.operationType = .processTlsReplaceVector)
    (hfresh : FreshVectors r.request state) : HandsBackVectors threads state r := by
  rcases hookNtSetInformationProcess_cases (replaceIndexAnswer r.status r.served)
    r.processHandle r.request state with
    ⟨status, heap, hfailed, hrun⟩ | ⟨hProcess, tls, heap, hsuccess, hkind, hconvert, hrun⟩
  · have hresult : r.result state = (status, r.request, { state with heap := heap }) := hrun
    constructor
    · intro i hi record hrecord
      rw [hresult]
      exact hfresh.ne_mmp record hrecord i hi
    · intro hstatus
      rw [hresult, hfailed] at hstatus
      cases hstatus
  · obtain ⟨_, htls, _⟩ := convertRequest_ok hkind hconvert
    have hserved := hserves hsuccess
    obtain ⟨hstart, hend⟩ := replaceVector_mapping h.recorded hserved hop hfresh hconvert htls
    generalize hmapping : (List.range
      (processTlsReplaceIndex r.served tls state.slots).1.threadDataCount).foldl
        (remapThread r.processHandle (processTlsReplaceIndex r.served tls state.slots).1)
        ⟨r.request, state.mmpThreadLocalStoragePointer,
          (processTlsReplaceIndex r.served tls state.slots).2⟩ = mapping at hend
    have hrequest : (r.result state).2.1 = mapping.request := by
      rw [← hmapping]
      simp only [InterceptedRequest.result, hrun]
      rfl
    rw [HandsBackVectors, hrequest]
    constructor
    · intro i hi record hrecord
      rcases Classical.em (∃ r' ∈ state.mmpThreadLocalStoragePointer,
        elementOf r.served r'.tlspMmpBlock = i) with ⟨r', hr', rfl⟩ | huntaken
      · rw [hend.handedBack r' hr' hi]
        exact h.recorded.ldr_ne_mmp r' hr' record hrecord
      · rw [hend.untaken i hi fun r' hr' heq => huntaken ⟨r', hr', heq⟩]
        exact hfresh.ne_mmp record hrecord i hi
    · intro _ teb hteb
      obtain ⟨s, hs, rfl⟩ := (hserved.teb_mem_iff h.recorded teb).mpr hteb
      obtain ⟨record, hrecord, hthread, hvector⟩ := hserved.record h.recorded hs
      refine ⟨s, hs, record, hrecord, rfl, hthread, hvector, ?_⟩
      have hback := hend.handedBack record hrecord (hstart.takes.lt record hrecord)
      rw [hvector, hserved.elementOf h.recorded hs] at hback
      exact hback

/-- After every request of a run of valid requests the two vectors of each
thread are in step, and each request for a next slot hands back the vectors of
ntdll. -/
theorem vectors_stay_in_step (threads : List Teb) (n : Nat) (state : MmpState)
    (hrecorded : ThreadsRecorded threads state) (hn : n ≤ mmpStartTlsIndex) (hstep : InStep n state)
    (requests : List InterceptedRequest)
    (hvalid : Admissible interceptedStep (ValidRequest threads) (n, state) requests)
    (before : List InterceptedRequest) (r : InterceptedRequest) (later : List InterceptedRequest)
    (hrequests : requests = before ++ r :: later) :
    let s := before.foldl interceptedStep (n, state)
    let s' := interceptedStep s r
    InStep s'.1 s'.2 ∧
      (r.request.operationType = .processTlsReplaceVector → HandsBackVectors threads s.2 r) := by
  intro s s'
  rw [hrequests, admissible_append] at hvalid
  obtain ⟨hbefore, hr, _⟩ := hvalid
  have hstays : StaysInStep threads s :=
    invariant (fun _ _ h hguard => h.step hguard) ⟨hrecorded, hn, hstep⟩ hbefore
  refine ⟨(hstays.step hr).inStep, ?_⟩
  intro hop
  rcases hr with ⟨_, hown⟩ | ⟨_, hserves, hkind⟩
  · rw [hop] at hown
    cases hown
  · rcases hkind with ⟨hother, _⟩ | ⟨_, _, _, hfresh⟩
    · rw [hop] at hother
      cases hother
    · exact StaysInStep.handsBack hstays hserves hop hfresh

/-- ntdll uses five slots and asks for the sixth in a process with two threads. -/
theorem vectors_stay_in_step_twoThreads :
    let threads : List Teb := [⟨1, 0x2000⟩, ⟨2, 0x4000⟩]
    let state := { twoThreads with slots := fun v k => if k < 5 then 0 else v }
    let r : InterceptedRequest := ⟨statusSuccess, [⟨⟨2, 0x4000⟩, 0, 1⟩, ⟨⟨1, 0x2000⟩, 1, 1⟩],
      ntCurrentProcess, ⟨.processTlsReplaceVector, 2, 5, fun i => ⟨0, 0x5000 + 0x1000 * i, 0⟩⟩⟩
    InStep 6 (interceptedStep (5, state) r).2 ∧ HandsBackVectors threads state r := by
  intro threads state r
  have hrecorded : ThreadsRecorded threads state :=
    ⟨by decide +kernel, by decide, by decide +kernel⟩
  have hstep : InStep 5 state := by
    intro record _ k hk
    simp only [state, if_pos hk]
  have hserves : Serves threads r.served 2 := ⟨by decide +kernel, by decide, by decide⟩
  have hfresh : FreshVectors r.request state :=
    ⟨by unfold DistinctPointers; decide, by decide +kernel, by decide +kernel⟩
  have hvalid : Admissible interceptedStep (ValidRequest threads) (5, state) [r] := by
    refine ⟨Or.inr ⟨by decide, fun _ => hserves, Or.inr ⟨rfl, rfl, by decide, hfresh⟩⟩, trivial⟩
  obtain ⟨hinStep, hback⟩ := vectors_stay_in_step threads 5 state hrecorded (by decide) hstep [r]
    hvalid [] r [] rfl
  have hnext : (interceptedStep (5, state) r).1 = 6 := by decide +kernel
  exact ⟨hnext ▸ hinStep, hback rfl⟩

end WinPolyfillLoader.MmpTls
