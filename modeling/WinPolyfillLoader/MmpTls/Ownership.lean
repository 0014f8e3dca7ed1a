import WinPolyfillLoader.MmpTls.ProcessRun
import WinPolyfillLoader.MmpTls.NewThreadData
import WinPolyfillLoader.Library.HeapLedger

/-!
Who owns which live block. The vectors of the threads, the records with the
module slots of their vectors, the copies in the queue and the list entries own
the blocks of the module; the rest is ntdll's and the modules' own, or leaked.
-/

namespace WinPolyfillLoader.MmpTls

open ProcessHeap

def moduleIndices : List Nat :=
  List.range' mmpStartTlsIndex (mmpMaximumTlsIndex - mmpStartTlsIndex)

theorem mem_moduleIndices {k : Nat} :
    k ∈ moduleIndices ↔ mmpStartTlsIndex ≤ k ∧ k < mmpMaximumTlsIndex := by
  have hend : mmpStartTlsIndex + (mmpMaximumTlsIndex - mmpStartTlsIndex) = mmpMaximumTlsIndex :=
    Nat.add_sub_cancel' (by decide)
  rw [moduleIndices, List.mem_range'_1, hend]

theorem moduleIndices_nodup : moduleIndices.Nodup := List.nodup_range'

/-- The pointers in the slots of a vector that are the module's. -/
def moduleSlots (slots : Slots) (vector : Nat) : List Nat := moduleIndices.map (slots vector)

/-- A record, the vector of ntdll that it keeps and the data in the module slots. -/
def recordBlocks (slots : Slots) (r : TlspRecord) : List Nat :=
  r.address :: containingTlsVector r.tlspLdrBlock :: moduleSlots slots r.tlspMmpBlock

/-- What the record left to the queue, with the copy of the vector. -/
def postponedBlocks (slots : Slots) (item : PostponedTls) : List Nat :=
  item.lpTlsRecord.address :: containingTlsVector item.lpTlsRecord.tlspLdrBlock ::
    item.lpOldTlsVector :: moduleSlots slots (moduleTlsData item.lpOldTlsVector)

/-- The blocks of the vectors that are installed. -/
def threadVectors (threads : List Teb) : List Nat :=
  threads.map fun teb => containingTlsVector teb.threadLocalStoragePointer

/-- The blocks of the module and the vectors of the threads. -/
def owned (process : TlsProcess) : List Nat :=
  process.mmp.mmpTlsList.map TlsEntry.address ++ threadVectors process.threads ++
    process.mmp.mmpThreadLocalStoragePointer.flatMap (recordBlocks process.mmp.slots) ++
    (process.mmpPostponedTlsList.getD []).flatMap (postponedBlocks process.mmp.slots)

/-- How many slots there are in a vector that is installed. -/
def vectorSize (process : TlsProcess) (vector : Nat) : Nat :=
  if vector ∈ process.tlspVectors then mmpMaximumTlsIndex else process.length vector

/-- Records are those of live threads, with the vector that is installed, or of
no thread at all. A thread without a record has a vector of ntdll. -/
structure ThreadTable (process : TlsProcess) : Prop where
  ids : (process.threads.map Teb.clientId).Nodup
  ids_ne : ∀ teb ∈ process.threads, teb.clientId ≠ 0
  vectors : ∀ teb ∈ process.threads, teb.threadLocalStoragePointer ≠ 0 →
    moduleTlsDataOffset < teb.threadLocalStoragePointer
  recorded : ∀ r ∈ process.mmp.mmpThreadLocalStoragePointer,
    (r.uniqueThread = 0 ∧ r.tlspLdrBlock = r.tlspMmpBlock) ∨
      ⟨r.uniqueThread, r.tlspMmpBlock⟩ ∈ process.threads
  own : ∀ r ∈ process.mmp.mmpThreadLocalStoragePointer,
    r.tlspMmpBlock ∈ process.tlspVectors ∧ moduleTlsDataOffset < r.tlspMmpBlock
  distinct : (process.mmp.mmpThreadLocalStoragePointer.map TlspRecord.tlspMmpBlock).Nodup
  foreign : ∀ teb ∈ process.threads, teb.threadLocalStoragePointer ≠ 0 →
    (∀ r ∈ process.mmp.mmpThreadLocalStoragePointer, r.uniqueThread ≠ teb.clientId) →
      teb.threadLocalStoragePointer ∉ process.tlspVectors ∧
        process.length teb.threadLocalStoragePointer ≤ mmpStartTlsIndex

/-- The slots of ntdll point to blocks that are not the module's. -/
def DataOfOthers (others : List Nat) (process : TlsProcess) : Prop :=
  ∀ teb ∈ process.threads, teb.threadLocalStoragePointer ≠ 0 → ∀ k < mmpStartTlsIndex,
    k < vectorSize process teb.threadLocalStoragePointer →
      process.mmp.slots teb.threadLocalStoragePointer k ≠ 0 →
        process.mmp.slots teb.threadLocalStoragePointer k ∈ others

/-- Every live block has one owner, or has leaked, and since the start no block
was freed that was not live. -/
structure Ledger (start : Heap) (leaked : List Nat) (s : ProcessState) : Prop where
  registry : RegistryDescribes s.process.mmp
  table : ThreadTable s.process
  data : DataOfOthers s.otherBlocks s.process
  queue : s.process.mmpPostponedTlsList.isSome = true
  items : ∀ item ∈ s.process.mmpPostponedTlsList.getD [], item.lpOldTlsVector ≠ 0
  single : s.process.mmp.heap.Single
  balanced : Balanced start s.process.mmp.heap
  accounts : ∀ b ≠ 0, s.otherBlocks.count b + (owned s.process).count b + leaked.count b =
    s.process.mmp.heap.live.count b

theorem count_owned (process : TlsProcess) (b : Nat) :
    (owned process).count b = (process.mmp.mmpTlsList.map TlsEntry.address).count b +
      (threadVectors process.threads).count b +
      (process.mmp.mmpThreadLocalStoragePointer.flatMap
        (recordBlocks process.mmp.slots)).count b +
      ((process.mmpPostponedTlsList.getD []).flatMap
        (postponedBlocks process.mmp.slots)).count b := by
  simp only [owned, List.count_append]

structure LiveVector (heap : Heap) (vector : Nat) : Prop where
  block : containingTlsVector vector ≠ 0
  live : containingTlsVector vector ∈ heap.live
  vector_eq : moduleTlsData (containingTlsVector vector) = vector

theorem liveVector_of {heap : Heap} {vector : Nat} (hlt : moduleTlsDataOffset < vector)
    (hlive : containingTlsVector vector ∈ heap.live) : LiveVector heap vector where
  block := Nat.sub_ne_zero_of_lt hlt
  live := hlive
  vector_eq := Nat.sub_add_cancel (Nat.le_of_lt hlt)

theorem LiveVector.ne {heap : Heap} {vector tlsVector : Nat} (h : LiveVector heap vector)
    (hfresh : tlsVector ∉ heap.live) : vector ≠ moduleTlsData tlsVector := by
  rintro rfl
  have hlive := h.live
  rw [containingTlsVector_moduleTlsData] at hlive
  exact hfresh hlive

section Facts

variable {start : Heap} {leaked : List Nat} {s : ProcessState}

theorem Ledger.once (h : Ledger start leaked s) {b : Nat} (hb : b ≠ 0) :
    s.otherBlocks.count b + ((s.process.mmp.mmpTlsList.map TlsEntry.address).count b +
      (threadVectors s.process.threads).count b +
      (s.process.mmp.mmpThreadLocalStoragePointer.flatMap
        (recordBlocks s.process.mmp.slots)).count b +
      ((s.process.mmpPostponedTlsList.getD []).flatMap
        (postponedBlocks s.process.mmp.slots)).count b) + leaked.count b ≤ 1 := by
  have haccounts := h.accounts b hb
  have hsingle := h.single b hb
  rw [count_owned] at haccounts
  omega

theorem Ledger.owned_live (h : Ledger start leaked s) {b : Nat} (hb : b ≠ 0)
    (hmem : b ∈ owned s.process) : b ∈ s.process.mmp.heap.live := by
  have hpos := List.count_pos_iff.mpr hmem
  have haccounts := h.accounts b hb
  exact List.count_pos_iff.mp (by omega)

theorem Ledger.other_live (h : Ledger start leaked s) {b : Nat} (hb : b ≠ 0)
    (hmem : b ∈ s.otherBlocks) : b ∈ s.process.mmp.heap.live := by
  have hpos := List.count_pos_iff.mpr hmem
  have haccounts := h.accounts b hb
  exact List.count_pos_iff.mp (by omega)

theorem mem_owned_thread {process : TlsProcess} {teb : Teb} (hteb : teb ∈ process.threads) :
    containingTlsVector teb.threadLocalStoragePointer ∈ owned process := by
  simp only [owned, List.mem_append]
  exact Or.inl (Or.inl (Or.inr (List.mem_map.mpr ⟨teb, hteb, rfl⟩)))

theorem mem_owned_record {process : TlsProcess} {r : TlspRecord} {b : Nat}
    (hr : r ∈ process.mmp.mmpThreadLocalStoragePointer)
    (hb : b ∈ recordBlocks process.mmp.slots r) : b ∈ owned process := by
  simp only [owned, List.mem_append]
  exact Or.inl (Or.inr (List.mem_flatMap.mpr ⟨r, hr, hb⟩))

theorem mem_owned_item {process : TlsProcess} {item : PostponedTls} {b : Nat}
    (hitem : item ∈ process.mmpPostponedTlsList.getD [])
    (hb : b ∈ postponedBlocks process.mmp.slots item) : b ∈ owned process := by
  simp only [owned, List.mem_append]
  exact Or.inr (List.mem_flatMap.mpr ⟨item, hitem, hb⟩)

theorem Ledger.thread_vector (h : Ledger start leaked s) {teb : Teb} (hteb : teb ∈ s.process.threads)
    (hptr : teb.threadLocalStoragePointer ≠ 0) :
    LiveVector s.process.mmp.heap teb.threadLocalStoragePointer := by
  have hlt := h.table.vectors teb hteb hptr
  apply liveVector_of hlt
  exact h.owned_live (Nat.sub_ne_zero_of_lt hlt) (mem_owned_thread hteb)

/-- The vector of a record is live, as its thread has it, or the record itself
does. -/
theorem Ledger.record_vector (h : Ledger start leaked s) {r : TlspRecord}
    (hr : r ∈ s.process.mmp.mmpThreadLocalStoragePointer) :
    LiveVector s.process.mmp.heap r.tlspMmpBlock := by
  have hlt := (h.table.own r hr).2
  rcases h.table.recorded r hr with ⟨_, hsame⟩ | hteb
  · apply liveVector_of hlt
    apply h.owned_live (Nat.sub_ne_zero_of_lt hlt) (mem_owned_record hr _)
    rw [← hsame]
    exact List.mem_cons_of_mem _ List.mem_cons_self
  · exact h.thread_vector hteb (Nat.ne_of_gt (Nat.zero_lt_of_lt hlt))

theorem Ledger.item_vector (h : Ledger start leaked s) {item : PostponedTls}
    (hitem : item ∈ s.process.mmpPostponedTlsList.getD []) :
    LiveVector s.process.mmp.heap (moduleTlsData item.lpOldTlsVector) := by
  have hne := h.items item hitem
  constructor
  · rw [containingTlsVector_moduleTlsData]
    exact hne
  · rw [containingTlsVector_moduleTlsData]
    apply h.owned_live hne (mem_owned_item hitem _)
    exact List.mem_cons_of_mem _ (List.mem_cons_of_mem _ List.mem_cons_self)
  · rw [containingTlsVector_moduleTlsData]

end Facts

section Slots

variable {slots slots' : Slots}

theorem moduleSlots_congr {vector : Nat}
    (h : ∀ k, mmpStartTlsIndex ≤ k → slots' vector k = slots vector k) :
    moduleSlots slots' vector = moduleSlots slots vector :=
  List.map_congr_left fun k hk => h k (mem_moduleIndices.mp hk).1

theorem count_cons_eq (block : Nat) (blocks : List Nat) (b : Nat) :
    (block :: blocks).count b = [block].count b + blocks.count b := by
  rw [← List.count_append, List.singleton_append]

theorem count_recordBlocks (slots : Slots) (r : TlspRecord) (b : Nat) :
    (recordBlocks slots r).count b = [r.address].count b +
      [containingTlsVector r.tlspLdrBlock].count b +
      (moduleSlots slots r.tlspMmpBlock).count b := by
  rw [← List.count_append, ← List.count_append]
  rfl

/-- Records hold the same blocks while their vectors keep the module slots. -/
theorem recordBlocks_congr {records : List TlspRecord}
    (h : ∀ r ∈ records, ∀ k, mmpStartTlsIndex ≤ k →
      slots' r.tlspMmpBlock k = slots r.tlspMmpBlock k) :
    records.flatMap (recordBlocks slots') = records.flatMap (recordBlocks slots) := by
  apply List.flatMap_congr
  intro r hr
  simp only [recordBlocks, moduleSlots_congr (h r hr)]

theorem postponedBlocks_congr {items : List PostponedTls}
    (h : ∀ item ∈ items, ∀ k, mmpStartTlsIndex ≤ k →
      slots' (moduleTlsData item.lpOldTlsVector) k = slots (moduleTlsData item.lpOldTlsVector) k) :
    items.flatMap (postponedBlocks slots') = items.flatMap (postponedBlocks slots) := by
  apply List.flatMap_congr
  intro item hitem
  simp only [postponedBlocks, moduleSlots_congr (h item hitem)]

theorem count_moduleSlots_writeSlot (slots : Slots) (vector : Nat) {k : Nat}
    (hk : k ∈ moduleIndices) (value b : Nat) :
    (moduleSlots (writeSlot slots vector k value) vector).count b + [slots vector k].count b =
      (moduleSlots slots vector).count b + [value].count b := by
  have hexchange := count_map_exchange (v := slots vector)
    (w := writeSlot slots vector k value vector) moduleIndices_nodup hk
    (fun j _ hne => writeSlot_other slots value fun hsame => hne hsame.2) b
  rw [writeSlot_self] at hexchange
  exact hexchange

theorem count_moduleSlots_zero {vector : Nat}
    (hzero : ∀ k, mmpStartTlsIndex ≤ k → k < mmpMaximumTlsIndex → slots vector k = 0) {b : Nat}
    (hb : b ≠ 0) : (moduleSlots slots vector).count b = 0 := by
  apply List.count_eq_zero.mpr
  intro hmem
  obtain ⟨k, hk, heq⟩ := List.mem_map.mp hmem
  obtain ⟨hstart, hlt⟩ := mem_moduleIndices.mp hk
  exact hb (heq ▸ hzero k hstart hlt)

theorem count_moduleSlots_storeBlocks {vector : Nat} {entries : List TlsEntry}
    {blocks : List Nat} (hindices : (entries.map TlsEntry.index).Nodup)
    (hrange : ∀ e ∈ entries, e.index ∈ moduleIndices)
    (hzero : ∀ e ∈ entries, slots vector e.index = 0) (hle : blocks.length ≤ entries.length)
    {b : Nat} (hb : b ≠ 0) :
    (moduleSlots (storeBlocks vector entries blocks slots) vector).count b =
      (moduleSlots slots vector).count b + blocks.count b := by
  induction entries generalizing blocks slots with
  | nil =>
    obtain rfl := List.eq_nil_of_length_eq_zero (Nat.le_zero.mp hle)
    rw [List.count_nil, Nat.add_zero]
    rfl
  | cons e entries ih =>
    cases blocks with
    | nil =>
      rw [List.count_nil, Nat.add_zero]
      rfl
    | cons block blocks =>
      obtain ⟨hnew, hrest⟩ := List.nodup_cons.mp hindices
      have hstored := count_moduleSlots_writeSlot slots vector (hrange e List.mem_cons_self) block b
      rw [hzero e List.mem_cons_self, List.count_singleton, if_neg (by simpa using Ne.symm hb)]
        at hstored
      have hnext : ∀ e' ∈ entries, writeSlot slots vector e.index block vector e'.index = 0 := by
        intro e' he'
        have hne : e'.index ≠ e.index := fun heq => hnew (heq ▸ List.mem_map_of_mem he')
        rw [writeSlot_other slots block fun hsame => hne hsame.2]
        exact hzero e' (List.mem_cons_of_mem _ he')
      have hrun := ih hrest (fun e' he' => hrange e' (List.mem_cons_of_mem _ he')) hnext
        (Nat.le_of_succ_le_succ hle)
      have hcons : (block :: blocks).count b = [block].count b + blocks.count b := by
        rw [← List.count_append, List.singleton_append]
      change (moduleSlots (storeBlocks vector entries blocks
        (writeSlot slots vector e.index block)) vector).count b = _
      rw [hrun, hcons]
      omega

end Slots

/-- The pointer is in a slot of a live thread. -/
def Installed (process : TlsProcess) (b : Nat) : Prop :=
  ∃ teb ∈ process.threads, teb.threadLocalStoragePointer ≠ 0 ∧
    ∃ k < vectorSize process teb.threadLocalStoragePointer,
      process.mmp.slots teb.threadLocalStoragePointer k = b

/-- ntdll starts a thread with blocks of its own, and a vector that is shorter
than the first index of the module. -/
structure StartsFresh (clientId tlsVector : Nat) (data : List Nat) (process : TlsProcess) :
    Prop where
  id_ne : clientId ≠ 0
  id_new : clientId ∉ process.threads.map Teb.clientId
  vector_ne : tlsVector ≠ 0
  nodup : (tlsVector :: dataBlocks data).Nodup
  fresh : ∀ b ∈ tlsVector :: dataBlocks data, b ∉ process.mmp.heap.live
  short : data.length < mmpStartTlsIndex

/-- A live thread exits, and the data that ntdll frees is not in use elsewhere. -/
structure ExitsWith (clientId : Nat) (frees : List Nat) (s : ProcessState) : Prop where
  live : clientId ∈ s.process.threads.map Teb.clientId
  nodup : frees.Nodup
  others : ∀ b ∈ frees, b ∈ s.otherBlocks
  unused : ∀ b ∈ frees, ∀ teb ∈ s.process.threads, teb.clientId ≠ clientId →
    teb.threadLocalStoragePointer ≠ 0 → ∀ k < mmpStartTlsIndex,
      k < vectorSize s.process teb.threadLocalStoragePointer →
        s.process.mmp.slots teb.threadLocalStoragePointer k ≠ b

/-- The kernel serves threads that have a vector, each at most once, with the
elements of the request. -/
structure ServesThreads (served : List ServedThread) (threadDataCount : Nat)
    (process : TlsProcess) : Prop where
  threads : ∀ t ∈ served, t.teb ∈ process.threads ∧ t.vector ≠ 0
  once : (served.map ServedThread.teb).Nodup
  elements : (served.map ServedThread.element).Nodup
  lt : ∀ t ∈ served, t.element < threadDataCount

/-- What ntdll and the kernel may do in a state. -/
def Possible (s : ProcessState) : ProcessStep → Prop
  | .ntdllStart clientId tlsVector data => StartsFresh clientId tlsVector data s.process
  | .threadExit clientId frees => ExitsWith clientId frees s
  | .load _ served _ _ _ =>
      ServesThreads served s.process.mmp.mmpActiveThreadCount.toNat s.process
  | _ => True

theorem ThreadTable.congr {before after : TlsProcess} (h : ThreadTable before)
    (hthreads : after.threads = before.threads)
    (hrecords : after.mmp.mmpThreadLocalStoragePointer = before.mmp.mmpThreadLocalStoragePointer)
    (hvectors : after.tlspVectors = before.tlspVectors) (hlength : after.length = before.length) :
    ThreadTable after := by
  constructor
  · rw [hthreads]
    exact h.ids
  · rw [hthreads]
    exact h.ids_ne
  · rw [hthreads]
    exact h.vectors
  · rw [hthreads, hrecords]
    exact h.recorded
  · rw [hrecords, hvectors]
    exact h.own
  · rw [hrecords]
    exact h.distinct
  · rw [hthreads, hrecords, hvectors, hlength]
    exact h.foreign

theorem DataOfOthers.congr {others : List Nat} {before after : TlsProcess}
    (h : DataOfOthers others before) (hthreads : after.threads = before.threads)
    (hvectors : after.tlspVectors = before.tlspVectors) (hlength : after.length = before.length)
    (hslots : ∀ v, ∀ k < mmpStartTlsIndex, after.mmp.slots v k = before.mmp.slots v k) :
    DataOfOthers others after := by
  intro teb hteb hptr k hk hsize
  rw [hslots _ k hk]
  rw [hthreads] at hteb
  rw [vectorSize, hvectors, hlength] at hsize
  exact h teb hteb hptr k hk hsize

section Steps

variable {start : Heap} {leaked leaked' : List Nat} {s : ProcessState}

/-- A step that keeps threads, records, queue and vectors, and pays for its list
entries and its leaks. -/
theorem Ledger.entries (h : Ledger start leaked s) {mmp : MmpState} {gained lost : List Nat}
    (hregistry : RegistryDescribes mmp)
    (hrecords : mmp.mmpThreadLocalStoragePointer = s.process.mmp.mmpThreadLocalStoragePointer)
    (hslots : mmp.slots = s.process.mmp.slots)
    (hmoves : Moves s.process.mmp.heap mmp.heap gained lost)
    (hentries : ∀ b ≠ 0, (mmp.mmpTlsList.map TlsEntry.address).count b + leaked'.count b +
      lost.count b = (s.process.mmp.mmpTlsList.map TlsEntry.address).count b + leaked.count b +
        gained.count b) :
    Ledger start leaked' { s with process := { s.process with mmp := mmp } } where
  registry := hregistry
  table := h.table.congr rfl hrecords rfl rfl
  data := h.data.congr rfl rfl rfl fun v k _ => by rw [hslots]
  queue := h.queue
  items := h.items
  single := hmoves.single h.single
  balanced := h.balanced.trans hmoves.balanced
  accounts := by
    intro b hb
    have haccounts := h.accounts b hb
    have hlive := hmoves.live b hb
    have hpaid := hentries b hb
    let after : TlsProcess := { s.process with mmp := mmp }
    have howned : (owned after).count b = (mmp.mmpTlsList.map TlsEntry.address).count b +
        (threadVectors s.process.threads).count b +
        (mmp.mmpThreadLocalStoragePointer.flatMap (recordBlocks mmp.slots)).count b +
        ((s.process.mmpPostponedTlsList.getD []).flatMap (postponedBlocks mmp.slots)).count b :=
      count_owned after b
    rw [count_owned] at haccounts
    rw [hrecords, hslots] at howned
    change s.otherBlocks.count b + (owned after).count b + leaked'.count b = mmp.heap.live.count b
    omega

theorem Ledger.unload (h : Ledger start leaked s) (moduleEntry : Nat) :
    Ledger start leaked (processStep s (.unload moduleEntry)) := by
  have hregistry := h.registry.release moduleEntry
  simp only [processStep]
  rcases mmpReleaseTlsEntry_cases moduleEntry s.process.mmp with
    hrun | ⟨older, e, younger, hlist, _, hrun⟩
  · rw [hrun]
    exact h
  · have howned : e.address ∈ owned s.process := by
      simp only [owned, List.mem_append]
      refine Or.inl (Or.inl (Or.inl (List.mem_map_of_mem ?_)))
      rw [hlist]
      exact List.mem_append_right _ List.mem_cons_self
    rw [hrun] at hregistry ⊢
    apply h.entries hregistry rfl rfl (free_moves fun hne => h.owned_live hne howned)
    intro b _
    have hcons : ((e :: younger).map TlsEntry.address).count b =
        [e.address].count b + (younger.map TlsEntry.address).count b := by
      rw [List.map_cons, ← List.count_append, List.singleton_append]
    rw [hlist, List.map_append, List.map_append, List.count_append, List.count_append, hcons,
      List.count_nil]
    omega

end Steps

end WinPolyfillLoader.MmpTls
