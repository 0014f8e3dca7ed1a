import WinPolyfillLoader.MmpTls.ReplaceVector
import WinPolyfillLoader.MmpTls.OwnershipLoads

/-!
The ledger at the start of a run. `MmpTlsInitialize` exchanges the vectors of the
threads that run already for its own, and its records keep those of ntdll.
-/

namespace WinPolyfillLoader.MmpTls

open ProcessHeap

/-- A process before its initialization. ntdll gave all threads the same number
of slots, fewer than the first index of the module. -/
structure Uninitialized (process : TlsProcess) : Prop where
  ids : (process.threads.map Teb.clientId).Nodup
  ids_ne : ∀ teb ∈ process.threads, teb.clientId ≠ 0
  vectors : ∀ teb ∈ process.threads, teb.threadLocalStoragePointer ≠ 0 →
    moduleTlsDataOffset < teb.threadLocalStoragePointer
  single : process.mmp.heap.Single
  live : ∀ b ≠ 0, (threadVectors process.threads).count b ≤ process.mmp.heap.live.count b
  foreign : process.tlspVectors = []
  length : ∃ n ≤ mmpStartTlsIndex, ∀ teb ∈ process.threads, teb.threadLocalStoragePointer ≠ 0 →
    process.length teb.threadLocalStoragePointer = n
  data : ∀ teb ∈ process.threads, teb.threadLocalStoragePointer ≠ 0 →
    ∀ k < process.length teb.threadLocalStoragePointer,
      process.mmp.slots teb.threadLocalStoragePointer k ≠ 0 →
        process.mmp.slots teb.threadLocalStoragePointer k ∈ process.mmp.heap.live ∧
        process.mmp.slots teb.threadLocalStoragePointer k ∉ threadVectors process.threads

/-- The live blocks that have no owner. -/
def otherLive (process : TlsProcess) : List Nat :=
  process.mmp.heap.live.filter fun b => decide (b ∉ owned process)

def initialState (start : TlsProcess) : ProcessState := ⟨start, otherLive start⟩

theorem initialState_ledger {start : TlsProcess} (hregistry : RegistryDescribes start.mmp)
    (htable : ThreadTable start) (hqueue : start.mmpPostponedTlsList = some [])
    (hsingle : start.mmp.heap.Single)
    (howned : ∀ b ≠ 0, (owned start).count b ≤ start.mmp.heap.live.count b)
    (hdata : DataOfOthers (otherLive start) start) :
    Ledger start.mmp.heap [] (initialState start) where
  registry := hregistry
  table := htable
  data := hdata
  queue := by
    change start.mmpPostponedTlsList.isSome = true
    rw [hqueue]
    rfl
  items := by
    intro item hitem
    change item ∈ start.mmpPostponedTlsList.getD [] at hitem
    rw [hqueue] at hitem
    cases hitem
  single := hsingle
  balanced := Balanced.refl start.mmp.heap
  accounts := by
    intro b hb
    have hle := howned b hb
    have honce := hsingle b hb
    change (otherLive start).count b + (owned start).count b + ([] : List Nat).count b =
      start.mmp.heap.live.count b
    rw [List.count_nil]
    rcases Decidable.em (b ∈ owned start) with hmem | hnot
    · have hpos := List.count_pos_iff.mpr hmem
      have hnone : (otherLive start).count b = 0 := by
        apply List.count_eq_zero.mpr
        intro hother
        exact of_decide_eq_true (List.mem_filter.mp hother).2 hmem
      omega
    · have hall : (otherLive start).count b = start.mmp.heap.live.count b :=
        List.count_filter (decide_eq_true hnot)
      rw [hall, List.count_eq_zero.mpr hnot, Nat.add_zero]

section Start

variable {process : TlsProcess} {heap : Heap} {vectors : List Nat}

theorem Uninitialized.pointer_old (h : Uninitialized process)
    (hheap : Grows process.mmp.heap heap vectors) {teb : Teb} (hteb : teb ∈ process.threads)
    (hptr : teb.threadLocalStoragePointer ≠ 0) :
    teb.threadLocalStoragePointer ∉ vectors.map moduleTlsData := by
  intro hmem
  obtain ⟨b, hb, heq⟩ := List.mem_map.mp hmem
  have hblock : containingTlsVector teb.threadLocalStoragePointer = b := by
    rw [← heq, containingTlsVector_moduleTlsData]
  have hne : b ≠ 0 := by
    rw [← hblock]
    exact Nat.sub_ne_zero_of_lt (h.vectors teb hteb hptr)
  have hinstalled : b ∈ threadVectors process.threads := by
    rw [← hblock]
    exact List.mem_map.mpr ⟨teb, hteb, rfl⟩
  have hpos := List.count_pos_iff.mpr hinstalled
  have hlive := h.live b hne
  exact hheap.fresh h.single hne hb (List.count_pos_iff.mp (Nat.lt_of_lt_of_le hpos hlive))

/-- What is installed before the initialization stays as it is, apart from the
new vectors. -/
theorem Uninitialized.kept (h : Uninitialized process) {count : Dword} {ready : TlsProcess}
    (hvectors : WithVectors { process with mmp := emptyRegistry count process.mmp } ready vectors)
    (hheap : Grows process.mmp.heap heap vectors) {teb : Teb} (hteb : teb ∈ process.threads)
    (hptr : teb.threadLocalStoragePointer ≠ 0) :
    teb.threadLocalStoragePointer ∉ ready.tlspVectors ∧
      ready.length teb.threadLocalStoragePointer = process.length teb.threadLocalStoragePointer ∧
      ready.mmp.slots teb.threadLocalStoragePointer =
        process.mmp.slots teb.threadLocalStoragePointer := by
  have hnot := h.pointer_old hheap hteb hptr
  refine ⟨?_, hvectors.length _ hnot, hvectors.slots _ hnot⟩
  rw [hvectors.mem, not_or]
  refine ⟨hnot, ?_⟩
  change _ ∉ process.tlspVectors
  rw [h.foreign]
  exact List.not_mem_nil

/-- Without records the threads keep their vectors, which are ntdll's. -/
theorem Uninitialized.threadTable (h : Uninitialized process) {count : Dword} {ready : TlsProcess}
    (hvectors : WithVectors { process with mmp := emptyRegistry count process.mmp } ready vectors)
    (hheap : Grows process.mmp.heap ready.mmp.heap vectors)
    (hrecords : ready.mmp.mmpThreadLocalStoragePointer = []) :
    ThreadTable { ready with mmpPostponedTlsList := some [] } := by
  have hthreads : ready.threads = process.threads := hvectors.threads
  obtain ⟨n, hn, hlength⟩ := h.length
  constructor
  · rw [hthreads]
    exact h.ids
  · rw [hthreads]
    exact h.ids_ne
  · rw [hthreads]
    exact h.vectors
  · rw [hrecords]
    simp
  · rw [hrecords]
    simp
  · rw [hrecords]
    exact List.nodup_nil
  · intro teb hteb hptr _
    rw [hthreads] at hteb
    obtain ⟨hforeign, hsame, _⟩ := h.kept hvectors hheap hteb hptr
    refine ⟨hforeign, ?_⟩
    change ready.length _ ≤ _
    rw [hsame, hlength teb hteb hptr]
    exact hn

theorem Uninitialized.dataOfOthers (h : Uninitialized process) {count : Dword} {ready : TlsProcess}
    (hvectors : WithVectors { process with mmp := emptyRegistry count process.mmp } ready vectors)
    (hheap : Grows process.mmp.heap ready.mmp.heap vectors)
    (howned : owned { ready with mmpPostponedTlsList := some [] } =
      threadVectors process.threads) :
    DataOfOthers (otherLive { ready with mmpPostponedTlsList := some [] })
      { ready with mmpPostponedTlsList := some [] } := by
  intro teb hteb hptr k _ hk hne
  have hteb : teb ∈ process.threads := by
    rw [← hvectors.threads]
    exact hteb
  obtain ⟨hforeign, hsame, hslots⟩ := h.kept hvectors hheap hteb hptr
  change k < (if _ ∈ ready.tlspVectors then _ else ready.length _) at hk
  rw [if_neg hforeign, hsame] at hk
  change ready.mmp.slots _ k ≠ 0 at hne
  change ready.mmp.slots _ k ∈ _
  rw [hslots] at hne ⊢
  obtain ⟨hlive, hfree⟩ := h.data teb hteb hptr k hk hne
  apply List.mem_filter.mpr
  constructor
  · have hgrows := hheap.live _ hne
    have hpos := List.count_pos_iff.mpr hlive
    exact List.count_pos_iff.mp (by change 0 < ready.mmp.heap.live.count _; omega)
  · rw [howned]
    exact decide_eq_true hfree

/-- Without records every thread keeps its vector, and new ones belong to nobody. -/
theorem Uninitialized.unrecorded (h : Uninitialized process) {count : Dword} {ready : TlsProcess}
    (hvectors : WithVectors { process with mmp := emptyRegistry count process.mmp } ready vectors)
    (hheap : Grows process.mmp.heap ready.mmp.heap vectors)
    (hregistry : RegistryDescribes ready.mmp) :
    Ledger ready.mmp.heap [] (initialState { ready with mmpPostponedTlsList := some [] }) := by
  obtain ⟨slots, heap', hglobals⟩ := hvectors.globals
  let start : TlsProcess := { ready with mmpPostponedTlsList := some [] }
  have hthreads : start.threads = process.threads := hvectors.threads
  have hrecords : ready.mmp.mmpThreadLocalStoragePointer = [] := by
    rw [hglobals]
    rfl
  have hlist : start.mmp.mmpTlsList = [] := by
    change ready.mmp.mmpTlsList = []
    rw [hglobals]
    rfl
  have hstart : start.mmp.mmpThreadLocalStoragePointer = [] := hrecords
  have howned : owned start = threadVectors process.threads := by
    simp only [owned, hlist, hstart, hthreads]
    simp [start]
  change Ledger start.mmp.heap [] (initialState start)
  apply initialState_ledger
  · exact hregistry
  · exact h.threadTable hvectors hheap hrecords
  · rfl
  · exact hheap.single h.single
  · intro b hb
    have hgrows := hheap.live b hb
    have hlive := h.live b hb
    rw [howned]
    change _ ≤ ready.mmp.heap.live.count b
    omega
  · exact h.dataOfOthers hvectors hheap howned

/-- The records that are inserted for the answer of the kernel. -/
def AnswerRecords (request : ProcessTlsInformation) (answer : ReplacedVectors) (n : Nat)
    (records : List TlspRecord) : Prop :=
  records.map TlspRecord.fields = (List.range n).map (fun i =>
    ((answer.1.threadData i).threadId, (answer.1.threadData i).tlsPointer,
      (request.threadData i).tlsPointer))

section Records

variable {request : ProcessTlsInformation} {answer : ReplacedVectors} {n : Nat}
  {records : List TlspRecord}

theorem AnswerRecords.element (h : AnswerRecords request answer n records) {r : TlspRecord}
    (hr : r ∈ records) : ∃ i < n, r.uniqueThread = (answer.1.threadData i).threadId ∧
      r.tlspLdrBlock = (answer.1.threadData i).tlsPointer ∧
      r.tlspMmpBlock = (request.threadData i).tlsPointer := by
  have hmem : r.fields ∈ records.map TlspRecord.fields := List.mem_map_of_mem hr
  rw [h] at hmem
  obtain ⟨i, hi, heq⟩ := List.mem_map.mp hmem
  have hid := congrArg Prod.fst heq
  have hpointers := congrArg Prod.snd heq
  exact ⟨i, List.mem_range.mp hi, hid.symm, (congrArg Prod.fst hpointers).symm,
    (congrArg Prod.snd hpointers).symm⟩

theorem AnswerRecords.record (h : AnswerRecords request answer n records) {i : Nat} (hi : i < n) :
    ∃ r ∈ records, r.uniqueThread = (answer.1.threadData i).threadId := by
  have hmem := List.mem_map_of_mem (f := fun i => ((answer.1.threadData i).threadId,
    (answer.1.threadData i).tlsPointer, (request.threadData i).tlsPointer)) (List.mem_range.mpr hi)
  rw [← h] at hmem
  obtain ⟨r, hr, heq⟩ := List.mem_map.mp hmem
  exact ⟨r, hr, congrArg Prod.fst heq⟩

theorem AnswerRecords.kept (h : AnswerRecords request answer n records) :
    records.map (fun r => containingTlsVector r.tlspLdrBlock) = elementVectors n answer.1 := by
  have hblocks := congrArg (List.map fun fields => containingTlsVector fields.2.1) h
  rw [List.map_map, List.map_map] at hblocks
  exact hblocks

theorem vectorRequest_pointers (tlsVectorLength : Nat) (vectors : List Nat) :
    (List.range vectors.length).map (fun i =>
      ((vectorRequest tlsVectorLength vectors.length vectors).threadData i).tlsPointer) =
        vectors.map moduleTlsData := by
  apply List.ext_getElem
  · simp
  · intro i hi hi'
    rw [List.length_map] at hi'
    simp [vectorRequest, List.getElem?_eq_getElem hi']

theorem AnswerRecords.blocks {tlsVectorLength : Nat}
    (h : AnswerRecords (vectorRequest tlsVectorLength vectors.length vectors) answer
      vectors.length records) :
    records.map TlspRecord.tlspMmpBlock = vectors.map moduleTlsData := by
  have hpointers := congrArg (List.map fun fields => fields.2.2) h
  rw [List.map_map, List.map_map] at hpointers
  exact hpointers.trans (vectorRequest_pointers tlsVectorLength vectors)

theorem mem_vectorRequest (tlsVectorLength : Nat) {i : Nat} (hi : i < vectors.length) :
    ((vectorRequest tlsVectorLength vectors.length vectors).threadData i).tlsPointer ∈
      vectors.map moduleTlsData := by
  rw [← vectorRequest_pointers tlsVectorLength vectors]
  exact List.mem_map.mpr ⟨i, List.mem_range.mpr hi, rfl⟩

end Records

end Start

/-- The process in which the kernel has replaced the vectors. -/
def exchanged (answer : ReplacedVectors) (records : List TlspRecord) (heap : Heap)
    (ready : TlsProcess) : TlsProcess :=
  { ready with
    mmp := { ready.mmp with
      slots := answer.2.1
      mmpThreadLocalStoragePointer := records
      heap := heap }
    threads := answer.2.2
    mmpPostponedTlsList := some [] }

/-- An initialization that gets its vectors, its records and the answer of the
kernel. -/
structure Exchanges (process ready : TlsProcess) (served : List ServedThread)
    (tlsVectorLength : Nat) (vectors : List Nat) (records : List TlspRecord) (heap : Heap) :
    Prop where
  before : Uninitialized process
  allocated : ∃ count, WithVectors { process with mmp := emptyRegistry count process.mmp } ready vectors
  ne : ∀ b ∈ vectors, b ≠ 0
  grows : Grows process.mmp.heap heap (vectors ++ records.map TlspRecord.address)
  serves : ServesThreads served vectors.length process
  copied : ∃ n ≤ mmpStartTlsIndex, tlsVectorLength ≤ n ∧ ∀ teb ∈ process.threads,
    teb.threadLocalStoragePointer ≠ 0 → process.length teb.threadLocalStoragePointer = n
  inserted : AnswerRecords (vectorRequest tlsVectorLength vectors.length vectors)
    (processTlsReplaceVector served (vectorRequest tlsVectorLength vectors.length vectors)
      ready.mmp.slots ready.threads) vectors.length records

section Exchange

variable {process ready : TlsProcess} {served : List ServedThread} {tlsVectorLength : Nat}
  {vectors : List Nat} {records : List TlspRecord} {heap : Heap}

theorem Exchanges.threads (h : Exchanges process ready served tlsVectorLength vectors records heap) :
    ready.threads = process.threads := by
  obtain ⟨_, hvectors⟩ := h.allocated
  exact hvectors.threads

theorem Exchanges.tebs (h : Exchanges process ready served tlsVectorLength vectors records heap) :
    ServedTebs served ready.threads where
  ids := by
    rw [h.threads]
    exact h.before.ids
  mem := by
    rw [h.threads]
    exact h.serves.threads
  once := h.serves.once

theorem Exchanges.vectors_grow
    (h : Exchanges process ready served tlsVectorLength vectors records heap) :
    Grows process.mmp.heap heap vectors :=
  h.grows.sublist (List.sublist_append_left _ _)

theorem Exchanges.vectors_nodup
    (h : Exchanges process ready served tlsVectorLength vectors records heap) :
    vectors.Nodup := by
  apply List.nodup_iff_count_le_one.mpr
  intro b
  rcases Decidable.em (b ∈ vectors) with hmem | hnot
  · exact h.vectors_grow.once h.before.single (h.ne b hmem)
  · rw [List.count_eq_zero.mpr hnot]
    exact Nat.zero_le 1

theorem Exchanges.table (h : Exchanges process ready served tlsVectorLength vectors records heap) :
    ThreadTable (exchanged (processTlsReplaceVector served
      (vectorRequest tlsVectorLength vectors.length vectors) ready.mmp.slots ready.threads) records
        heap ready) := by
  let request := vectorRequest tlsVectorLength vectors.length vectors
  let answer := processTlsReplaceVector served request ready.mmp.slots ready.threads
  obtain ⟨count, hvectors⟩ := h.allocated
  have hids : answer.2.2.map Teb.clientId = process.threads.map Teb.clientId := by
    rw [← h.threads]
    exact processTlsReplaceVector_ids served request ready.mmp.slots ready.threads
  have hmem : ∀ teb ∈ answer.2.2,
      (teb ∈ process.threads ∧ ∀ s ∈ served, s.teb.clientId ≠ teb.clientId) ∨
        ∃ s ∈ served, teb = ⟨s.teb.clientId, (request.threadData s.element).tlsPointer⟩ := by
    intro teb hteb
    have hcases := mem_processTlsReplaceVector h.tebs h.serves.elements hteb
    rw [h.threads] at hcases
    exact hcases
  have hnew : ∀ v ∈ vectors.map moduleTlsData, v ∈ ready.tlspVectors ∧ moduleTlsDataOffset < v := by
    intro v hv
    refine ⟨(hvectors.mem v).mpr (Or.inl hv), ?_⟩
    obtain ⟨b, hb, rfl⟩ := List.mem_map.mp hv
    exact Nat.lt_add_of_pos_left (Nat.pos_of_ne_zero (h.ne b hb))
  constructor
  · change (answer.2.2.map Teb.clientId).Nodup
    rw [hids]
    exact h.before.ids
  · intro teb hteb
    have hid : teb.clientId ∈ answer.2.2.map Teb.clientId := List.mem_map_of_mem hteb
    rw [hids] at hid
    obtain ⟨old, hold, heq⟩ := List.mem_map.mp hid
    rw [← heq]
    exact h.before.ids_ne old hold
  · intro teb hteb hptr
    rcases hmem teb hteb with ⟨hold, _⟩ | ⟨s, hs, rfl⟩
    · exact h.before.vectors teb hold hptr
    · exact (hnew _ (mem_vectorRequest tlsVectorLength (h.serves.lt s hs))).2
  · intro r hr
    obtain ⟨i, _, hid, hldr, hmmp⟩ := h.inserted.element hr
    rcases Decidable.em (i ∈ served.map ServedThread.element) with hserved | hnot
    · obtain ⟨s, hs, rfl⟩ := List.mem_map.mp hserved
      obtain ⟨hdata, hthread⟩ := processTlsReplaceVector_served h.tebs h.serves.elements request
        ready.mmp.slots hs
      rw [hdata] at hid
      rw [hid, hmmp]
      exact Or.inr hthread
    · have hdata := processTlsReplaceVector_element_other served request ready.mmp.slots
        ready.threads hnot
      rw [hdata] at hid hldr
      exact Or.inl ⟨hid, hldr.trans hmmp.symm⟩
  · intro r hr
    apply hnew
    rw [← h.inserted.blocks]
    exact List.mem_map_of_mem hr
  · change (records.map TlspRecord.tlspMmpBlock).Nodup
    rw [h.inserted.blocks]
    exact h.vectors_nodup.map fun _ _ heq => Nat.add_right_cancel heq
  · intro teb hteb hptr hnone
    rcases hmem teb hteb with ⟨hold, _⟩ | ⟨s, hs, rfl⟩
    · obtain ⟨hforeign, hsame, _⟩ := h.before.kept hvectors h.vectors_grow hold hptr
      obtain ⟨n, hn, hlength⟩ := h.before.length
      refine ⟨hforeign, ?_⟩
      change ready.length _ ≤ _
      rw [hsame, hlength teb hold hptr]
      exact hn
    · obtain ⟨r, hr, hid⟩ := h.inserted.record (h.serves.lt s hs)
      obtain ⟨hdata, _⟩ := processTlsReplaceVector_served h.tebs h.serves.elements request
        ready.mmp.slots hs
      rw [hdata] at hid
      exact absurd hid (hnone r hr)

/-- The blocks that are owned afterwards: the vectors of ntdll, those of the
module, and the records. -/
theorem Exchanges.owned_count
    (h : Exchanges process ready served tlsVectorLength vectors records heap) {b : Nat}
    (hb : b ≠ 0) :
    (owned (exchanged (processTlsReplaceVector served
      (vectorRequest tlsVectorLength vectors.length vectors) ready.mmp.slots ready.threads) records
        heap ready)).count b =
      (threadVectors process.threads).count b + vectors.count b +
        (records.map TlspRecord.address).count b := by
  let request := vectorRequest tlsVectorLength vectors.length vectors
  let answer := processTlsReplaceVector served request ready.mmp.slots ready.threads
  let start := exchanged answer records heap ready
  obtain ⟨count, hvectors⟩ := h.allocated
  have hlist : start.mmp.mmpTlsList = [] := by
    obtain ⟨_, _, hglobals⟩ := hvectors.globals
    change ready.mmp.mmpTlsList = []
    rw [hglobals]
    rfl
  have hzero : ∀ r ∈ records, (moduleSlots answer.2.1 r.tlspMmpBlock).count b = 0 := by
    intro r hr
    have hnew : r.tlspMmpBlock ∈ vectors.map moduleTlsData := by
      rw [← h.inserted.blocks]
      exact List.mem_map_of_mem hr
    apply count_moduleSlots_zero _ hb
    intro k hk hlt
    obtain ⟨n, hn, hlength, _⟩ := h.copied
    have hcopied : request.tlsIndex ≤ k := Nat.le_trans (Nat.le_trans hlength hn) hk
    change answer.2.1 _ k = 0
    rw [processTlsReplaceVector_slots_other served request _ _ _ hcopied]
    exact hvectors.zero _ hnew k (Nat.le_of_lt hlt)
  have hrecords : (records.flatMap (recordBlocks answer.2.1)).count b =
      (records.map TlspRecord.address).count b + (elementVectors vectors.length answer.1).count b := by
    have hsplit : (records.flatMap (recordBlocks answer.2.1)).count b =
        (records.flatMap fun r => [r.address]).count b +
          (records.flatMap fun r => [containingTlsVector r.tlspLdrBlock]).count b := by
      apply count_flatMap_split
      intro r hr
      rw [count_recordBlocks, hzero r hr, Nat.add_zero]
    rw [← List.map_eq_flatMap, ← List.map_eq_flatMap, h.inserted.kept] at hsplit
    exact hsplit
  have hconserved := processTlsReplaceVector_conserves h.tebs h.serves.lt request ready.mmp.slots b
  have hblocks : elementVectors vectors.length request = vectors := by
    have hpointers := congrArg (List.map containingTlsVector)
      (vectorRequest_pointers tlsVectorLength vectors)
    rw [List.map_map, List.map_map] at hpointers
    have hcontaining : containingTlsVector ∘ moduleTlsData = id := by
      funext tlsVector
      exact containingTlsVector_moduleTlsData tlsVector
    rw [hcontaining, List.map_id] at hpointers
    exact hpointers
  have hcount := count_owned start b
  rw [hlist] at hcount
  change (elementVectors vectors.length answer.1).count b + (threadVectors answer.2.2).count b = _
    at hconserved
  change (owned start).count b = 0 + (threadVectors answer.2.2).count b +
    (records.flatMap (recordBlocks answer.2.1)).count b + 0 at hcount
  rw [hblocks, h.threads] at hconserved
  change (owned start).count b = _
  omega

/-- The vectors that are installed in threads. -/
def installedVectors (threads : List Teb) : List Nat :=
  (threads.filter fun teb => teb.threadLocalStoragePointer != 0).map Teb.threadLocalStoragePointer

theorem mem_installedVectors {threads : List Teb} {teb : Teb} (hteb : teb ∈ threads)
    (hptr : teb.threadLocalStoragePointer ≠ 0) :
    teb.threadLocalStoragePointer ∈ installedVectors threads :=
  List.mem_map_of_mem (List.mem_filter.mpr ⟨hteb, by simpa using hptr⟩)

/-- What is live before and no vector of a thread. -/
def otherBefore (process : TlsProcess) : List Nat :=
  process.mmp.heap.live.filter fun b => decide (b ∉ threadVectors process.threads)

/-- Before the request the vectors of ntdll hold data of others, and the new ones nothing. -/
theorem Exchanges.slots_before
    (h : Exchanges process ready served tlsVectorLength vectors records heap) {n : Nat}
    (hn : n ≤ mmpStartTlsIndex) (hlength : ∀ teb ∈ process.threads,
      teb.threadLocalStoragePointer ≠ 0 → process.length teb.threadLocalStoragePointer = n) :
    ∀ v ∈ installedVectors process.threads ++ vectors.map moduleTlsData, ∀ k < n,
      ready.mmp.slots v k ≠ 0 → ready.mmp.slots v k ∈ otherBefore process := by
  obtain ⟨count, hvectors⟩ := h.allocated
  intro v hv k hk hne
  rcases List.mem_append.mp hv with hold | hnew
  · obtain ⟨teb, hmem, rfl⟩ := List.mem_map.mp hold
    obtain ⟨hteb, hptr⟩ := List.mem_filter.mp hmem
    have hptr : teb.threadLocalStoragePointer ≠ 0 := by simpa using hptr
    obtain ⟨_, _, hsame⟩ := h.before.kept hvectors h.vectors_grow hteb hptr
    rw [hsame] at hne ⊢
    have hlt : k < process.length teb.threadLocalStoragePointer := by
      rw [hlength teb hteb hptr]
      exact hk
    obtain ⟨hlive, hfree⟩ := h.before.data teb hteb hptr k hlt hne
    exact List.mem_filter.mpr ⟨hlive, decide_eq_true hfree⟩
  · have hmax : k ≤ mmpMaximumTlsIndex :=
      Nat.le_of_lt (Nat.lt_of_lt_of_le (Nat.lt_of_lt_of_le hk hn) (by decide))
    exact absurd (hvectors.zero v hnew k hmax) hne

/-- What is live before and no vector of a thread belongs to others afterwards. -/
theorem Exchanges.stays_other
    (h : Exchanges process ready served tlsVectorLength vectors records heap) {b : Nat}
    (hb : b ≠ 0) (hother : b ∈ otherBefore process) :
    b ∈ otherLive (exchanged (processTlsReplaceVector served
      (vectorRequest tlsVectorLength vectors.length vectors) ready.mmp.slots ready.threads) records
        heap ready) := by
  obtain ⟨hlive, hfree⟩ := List.mem_filter.mp hother
  have hgrows := h.grows.live b hb
  have honce := h.grows.single h.before.single b hb
  have hpos := List.count_pos_iff.mpr hlive
  have hnone := List.count_eq_zero.mpr (of_decide_eq_true hfree)
  have howned := h.owned_count hb
  rw [List.count_append] at hgrows
  apply List.mem_filter.mpr
  constructor
  · apply List.count_pos_iff.mp
    exact Nat.lt_of_lt_of_le hpos (Nat.le_trans (Nat.le_add_right _ _) hgrows)
  · apply decide_eq_true
    apply List.count_eq_zero.mp
    omega

/-- The slots below the first of the module hold what ntdll's vectors held. -/
theorem Exchanges.others (h : Exchanges process ready served tlsVectorLength vectors records heap) :
    let start := exchanged (processTlsReplaceVector served
      (vectorRequest tlsVectorLength vectors.length vectors) ready.mmp.slots ready.threads) records
        heap ready
    DataOfOthers (otherLive start) start := by
  let request := vectorRequest tlsVectorLength vectors.length vectors
  let answer := processTlsReplaceVector served request ready.mmp.slots ready.threads
  intro start teb hteb hptr k hk hsize hne
  obtain ⟨count, hvectors⟩ := h.allocated
  obtain ⟨n, hn, hcopied, hlength⟩ := h.copied
  have hserved : ∀ s ∈ served,
      s.vector ∈ installedVectors process.threads ++ vectors.map moduleTlsData := by
    intro s hs
    obtain ⟨hmem, hvector⟩ := h.serves.threads s hs
    exact List.mem_append_left _ (mem_installedVectors hmem hvector)
  have hrequest : request.tlsIndex ≤ n := hcopied
  have hafter := processTlsReplaceVector_slots_mem hserved hrequest (h.slots_before hn hlength)
    ready.threads
  have hvector : teb.threadLocalStoragePointer ∈
      installedVectors process.threads ++ vectors.map moduleTlsData ∧ k < n := by
    rcases mem_processTlsReplaceVector h.tebs h.serves.elements hteb with ⟨hold, _⟩ | ⟨s, hs, rfl⟩
    · rw [h.threads] at hold
      obtain ⟨hforeign, hsame, _⟩ := h.before.kept hvectors h.vectors_grow hold hptr
      refine ⟨List.mem_append_left _ (mem_installedVectors hold hptr), ?_⟩
      change k < if _ ∈ ready.tlspVectors then _ else ready.length _ at hsize
      rw [if_neg hforeign, hsame, hlength teb hold hptr] at hsize
      exact hsize
    · have hnew := mem_vectorRequest tlsVectorLength (h.serves.lt s hs)
      refine ⟨List.mem_append_right _ hnew, ?_⟩
      apply Nat.lt_of_not_le
      intro hle
      apply hne
      change answer.2.1 _ k = 0
      rw [processTlsReplaceVector_slots_other served request _ _ _ (Nat.le_trans hcopied hle)]
      exact hvectors.zero _ hnew k (Nat.le_of_lt (Nat.lt_of_lt_of_le hk (by decide)))
  exact h.stays_other hne (hafter _ hvector.1 k hvector.2 hne)

theorem Exchanges.ledger
    (h : Exchanges process ready served tlsVectorLength vectors records heap) :
    let start := exchanged (processTlsReplaceVector served
      (vectorRequest tlsVectorLength vectors.length vectors) ready.mmp.slots ready.threads) records
        heap ready
    RegistryDescribes start.mmp → Ledger start.mmp.heap [] (initialState start) := by
  intro start hregistry
  apply initialState_ledger
  · exact hregistry
  · exact h.table
  · rfl
  · exact h.grows.single h.before.single
  · intro b hb
    have howned := h.owned_count hb
    have hgrows := h.grows.live b hb
    have hlive := h.before.live b hb
    rw [List.count_append] at hgrows
    change (owned start).count b = _ at howned
    change (owned start).count b ≤ heap.live.count b
    omega
  · exact h.others

end Exchange

section Initialization

variable {status : NtStatus} {served : List ServedThread} {spi spi' : Option (List SystemThread)}
  {clientId : Nat} {process start : TlsProcess}

/-- An initialization that the kernel refuses, or that gets no buffer for it, makes
no record. Otherwise the kernel has replaced the vectors. -/
theorem mmpTlsInitialize_cases
    (hinit : mmpTlsInitialize (replaceVectorAnswer status served) spi spi' clientId process =
      .ok start)
    (hbefore : Uninitialized process)
    (hserves : ServesThreads served (mmpGetThreadCount spi').toNat process) :
    ((process.mmp.heap.grants 2 = false ∨ ntSuccess status = false) ∧
      ∃ vectors ready,
        WithVectors { process with mmp := emptyRegistry (mmpGetThreadCount spi) process.mmp } ready
          vectors ∧ Grows process.mmp.heap ready.mmp.heap vectors ∧
        start = { ready with mmpPostponedTlsList := some [] }) ∨
    ∃ ready tlsVectorLength vectors records heap,
      Exchanges process ready served tlsVectorLength vectors records heap ∧
      start = exchanged (processTlsReplaceVector served
        (vectorRequest tlsVectorLength vectors.length vectors) ready.mmp.slots ready.threads) records
          heap ready := by
  cases mmpTlsInitialize_exits hinit with
  | unrecorded hvectors hheap hreason =>
    exact Or.inl ⟨hreason, _, _, hvectors, hheap, rfl⟩
  | recorded hpointer hallocated hvectors hlength hne hheap hfields hgrants hkernel =>
    rename_i vectors ready records heap
    obtain ⟨n, hn, hsame⟩ := hbefore.length
    let size := process.length (threadPointer process.threads clientId)
    let tlsVectorLength := if size = clientId then 0 else size
    have hrequest : initRequest spi' clientId process vectors =
        vectorRequest tlsVectorLength vectors.length vectors := by
      rw [hlength]
      rfl
    refine Or.inr ⟨ready, tlsVectorLength, vectors, records, heap, ?_, ?_⟩
    · constructor
      · exact hbefore
      · exact ⟨_, hvectors⟩
      · exact hne
      · exact hheap
      · rw [hlength]
        exact hserves
      · refine ⟨n, hn, ?_, hsame⟩
        have hsize : size = n := hsame _ (mem_of_threadPointer hpointer) hpointer
        simp only [tlsVectorLength]
        split
        · exact Nat.zero_le n
        · exact Nat.le_of_eq hsize
      · rw [← hlength, hrequest] at hfields
        exact hfields
    · rw [hrequest]
      rfl

/-- After the initialization, whatever it was granted, every live block has one
owner. -/
theorem mmpTlsInitialize_ledger
    (hinit : mmpTlsInitialize (replaceVectorAnswer status served) spi spi' clientId process =
      .ok start)
    (hbefore : Uninitialized process)
    (hserves : ServesThreads served (mmpGetThreadCount spi').toNat process) :
    Ledger start.mmp.heap [] (initialState start) := by
  have hregistry := mmpTlsInitialize_describes hinit
  rcases mmpTlsInitialize_cases hinit hbefore hserves with
    ⟨_, vectors, ready, hvectors, hheap, rfl⟩ | ⟨ready, _, vectors, records, heap, hexchanges, rfl⟩
  · have hready : RegistryDescribes ready.mmp := hregistry
    have hledger := hbefore.unrecorded hvectors hheap hready
    exact hledger
  · exact hexchanges.ledger hregistry

end Initialization

/-- The kernel serves the one thread. -/
def oneThreadServed : List ServedThread := [⟨⟨4, 0x1010⟩, 0, 1⟩]

/-- That process with the module, the threads that its first snapshot saw, and what
the heap answers later. -/
def oneThreadReplaced (spi : List SystemThread) (answers : List (Option Nat)) : TlsProcess :=
  match mmpTlsInitialize (replaceVectorAnswer statusSuccess oneThreadServed) (some spi)
      (some [⟨true, true, 0x1010⟩]) 4
      (oneThread ([0x2000, 0x3000, 0x4000, 0x5000, 0x6000].map some ++ answers)) with
  | .ok start => start
  | .error _ => oneThread []

theorem oneThread_uninitialized (answers : List (Option Nat)) :
    Uninitialized (oneThread answers) where
  ids := List.nodup_singleton 4
  ids_ne := by simp [oneThread]
  vectors := by simp [oneThread, moduleTlsDataOffset]
  single := fun b _ => List.nodup_iff_count_le_one.mp (List.nodup_singleton 0x1000) b
  live := fun _ _ => Nat.le_refl _
  foreign := rfl
  length := ⟨5, by decide, fun _ _ _ => rfl⟩
  data := fun _ _ _ _ _ hne => absurd rfl hne

theorem oneThread_served (answers : List (Option Nat)) :
    ServesThreads oneThreadServed 1 (oneThread answers) where
  threads := by simp [oneThread, oneThreadServed]
  once := List.nodup_singleton _
  elements := List.nodup_singleton _
  lt := by simp [oneThreadServed]

end WinPolyfillLoader.MmpTls
