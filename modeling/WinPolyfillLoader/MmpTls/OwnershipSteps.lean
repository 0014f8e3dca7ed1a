import WinPolyfillLoader.MmpTls.Ownership

/-!
The life of a thread keeps the ledger: the start hands out a record, a vector and
the data of the modules, the exit passes them to the queue, and the worker frees
them, but for the slots of modules that are not listed any more.
-/

namespace WinPolyfillLoader.MmpTls

open ProcessHeap

/-- The module slots of a copied vector that no list entry stands for. -/
def unlistedSlots (mmp : MmpState) (item : PostponedTls) : List Nat :=
  (moduleIndices.filter fun k => !(mmp.mmpTlsList.any fun e => e.index == k)).map
    (mmp.slots (moduleTlsData item.lpOldTlsVector))

/-- The worker frees what the item holds, except for the unlisted slots. -/
theorem count_postponedBlocks {mmp : MmpState} (hregistry : RegistryDescribes mmp)
    (item : PostponedTls) (b : Nat) :
    (postponedBlocks mmp.slots item).count b =
      (releasedBlocks mmp item).count b + (unlistedSlots mmp item).count b := by
  let listed := mmp.mmpTlsList.map TlsEntry.index
  let unlisted := moduleIndices.filter fun k => !(mmp.mmpTlsList.any fun e => e.index == k)
  have hmem : ∀ k, k ∈ unlisted ↔ k ∈ moduleIndices ∧ k ∉ listed := by
    intro k
    simp [unlisted, listed]
  have hlisted : ∀ k ∈ listed, k ∈ moduleIndices := by
    intro k hk
    obtain ⟨e, he, rfl⟩ := List.mem_map.mp hk
    exact mem_moduleIndices.mpr (hregistry.inRange e he)
  have hperm : moduleIndices.Perm (listed ++ unlisted) := by
    apply (List.perm_ext_iff_of_nodup moduleIndices_nodup ?_).mpr
    · intro k
      rw [List.mem_append, hmem]
      constructor
      · intro hk
        rcases Decidable.em (k ∈ listed) with hin | hout
        · exact Or.inl hin
        · exact Or.inr ⟨hk, hout⟩
      · rintro (hin | ⟨hk, _⟩)
        · exact hlisted k hin
        · exact hk
    · apply List.nodup_append.mpr
      refine ⟨hregistry.nodup, moduleIndices_nodup.filter _, ?_⟩
      rintro k hk _ hk' rfl
      exact ((hmem k).mp hk').2 hk
  have hslots := (hperm.map (mmp.slots (moduleTlsData item.lpOldTlsVector))).count_eq b
  rw [List.map_append, List.count_append] at hslots
  have hdata : listed.map (mmp.slots (moduleTlsData item.lpOldTlsVector)) =
      mmp.mmpTlsList.map fun e => mmp.slots (moduleTlsData item.lpOldTlsVector) e.index :=
    List.map_map
  rw [hdata] at hslots
  have hmodule : (moduleSlots mmp.slots (moduleTlsData item.lpOldTlsVector)).count b =
      _ + (unlistedSlots mmp item).count b := hslots
  simp only [postponedBlocks, releasedBlocks, List.count_append, List.count_cons, hmodule,
    List.count_nil]
  omega

theorem mem_of_threadPointer {threads : List Teb} {clientId : Nat}
    (h : threadPointer threads clientId ≠ 0) :
    ⟨clientId, threadPointer threads clientId⟩ ∈ threads := by
  unfold threadPointer at h ⊢
  split
  · rename_i teb hfind
    have hid : teb.clientId = clientId := by simpa using List.find?_some hfind
    have hmem := List.mem_of_find?_eq_some hfind
    rw [← hid]
    exact hmem
  · rename_i hfind
    rw [hfind] at h
    exact absurd rfl h

theorem threadPointer_of_mem {threads : List Teb} (hids : (threads.map Teb.clientId).Nodup)
    {teb : Teb} (hteb : teb ∈ threads) :
    threadPointer threads teb.clientId = teb.threadLocalStoragePointer := by
  unfold threadPointer
  cases hfind : threads.find? (fun other => other.clientId == teb.clientId) with
  | none =>
    have hnone := List.find?_eq_none.mp hfind teb hteb
    simp at hnone
  | some other =>
    have hid : other.clientId = teb.clientId := by simpa using List.find?_some hfind
    have hsame := List.inj_on_of_nodup_map hids (List.mem_of_find?_eq_some hfind) hteb hid
    rw [hsame]

theorem mem_setThreadPointer {threads : List Teb} {clientId vector : Nat} {teb : Teb}
    (h : teb ∈ setThreadPointer threads clientId vector) :
    teb = ⟨clientId, vector⟩ ∨ (teb ∈ threads ∧ teb.clientId ≠ clientId) := by
  obtain ⟨other, hother, rfl⟩ := List.mem_map.mp h
  split
  · rename_i hid
    exact Or.inl (by rw [hid])
  · rename_i hid
    exact Or.inr ⟨hother, hid⟩

theorem mem_setThreadPointer_other {threads : List Teb} {clientId : Nat} (vector : Nat) {teb : Teb}
    (hteb : teb ∈ threads) (hne : teb.clientId ≠ clientId) :
    teb ∈ setThreadPointer threads clientId vector :=
  List.mem_map.mpr ⟨teb, hteb, if_neg hne⟩

theorem mem_setThreadPointer_self {threads : List Teb} {clientId : Nat} (vector : Nat)
    (h : threadPointer threads clientId ≠ 0) :
    ⟨clientId, vector⟩ ∈ setThreadPointer threads clientId vector :=
  List.mem_map.mpr ⟨_, mem_of_threadPointer h, if_pos rfl⟩

theorem setThreadPointer_ids (threads : List Teb) (clientId vector : Nat) :
    (setThreadPointer threads clientId vector).map Teb.clientId = threads.map Teb.clientId := by
  rw [setThreadPointer, List.map_map]
  apply List.map_congr_left
  intro teb _
  simp only [Function.comp]
  split
  · rfl
  · rfl

theorem count_threadVectors_set {threads : List Teb} (hids : (threads.map Teb.clientId).Nodup)
    {clientId : Nat} (h : threadPointer threads clientId ≠ 0) (vector b : Nat) :
    (threadVectors (setThreadPointer threads clientId vector)).count b +
        [containingTlsVector (threadPointer threads clientId)].count b =
      (threadVectors threads).count b + [containingTlsVector vector].count b := by
  have hteb := mem_of_threadPointer h
  let set : Teb → Teb := fun teb =>
    if teb.clientId = clientId then { teb with threadLocalStoragePointer := vector } else teb
  have hexchange := count_map_exchange
    (v := fun teb => containingTlsVector teb.threadLocalStoragePointer)
    (w := fun teb => containingTlsVector (set teb).threadLocalStoragePointer)
    hids.of_map hteb ?_ b
  · have hset : set ⟨clientId, threadPointer threads clientId⟩ = ⟨clientId, vector⟩ := if_pos rfl
    rw [hset] at hexchange
    rw [threadVectors, setThreadPointer, List.map_map]
    exact hexchange
  · intro teb hmem hne
    have hid : teb.clientId ≠ clientId := fun heq =>
      hne (List.inj_on_of_nodup_map hids hmem hteb heq)
    simp only [set, if_neg hid]

section Steps

variable {start : Heap} {leaked : List Nat} {s : ProcessState}

/-- A pass of the worker leaks the unlisted slots of the items it releases. -/
theorem Ledger.workerPass (h : Ledger start leaked s) (active : PostponedTls → Bool) :
    let released := (s.process.mmpPostponedTlsList.getD []).filter fun item => !active item
    Ledger start (leaked ++ released.flatMap (unlistedSlots s.process.mmp))
      (processStep s (.workerPass active)) := by
  intro released
  rcases mmpReleasePostponedTlsWorker_cases active s.process with
    ⟨hnone, _⟩ | ⟨items, hqueue, hrun⟩
  · have hsome := h.queue
    rw [hnone] at hsome
    cases hsome
  · have hitems : s.process.mmpPostponedTlsList.getD [] = items := by rw [hqueue]; rfl
    have hreleased : released = items.filter fun item => !active item := by
      simp only [released, hitems]
    let freed := released.flatMap (releasedBlocks s.process.mmp)
    have hsplit : ∀ b, (released.flatMap (postponedBlocks s.process.mmp.slots)).count b =
        freed.count b + (released.flatMap (unlistedSlots s.process.mmp)).count b :=
      fun b => count_flatMap_split fun item _ => count_postponedBlocks h.registry item b
    have hkept : ∀ b, (items.flatMap (postponedBlocks s.process.mmp.slots)).count b =
        ((items.filter active).flatMap (postponedBlocks s.process.mmp.slots)).count b +
          (released.flatMap (postponedBlocks s.process.mmp.slots)).count b := by
      intro b
      rw [hreleased]
      exact count_flatMap_filter active _ items b
    have hmoves : Moves s.process.mmp.heap (s.process.mmp.heap.freeAll freed) [] freed := by
      apply freeAll_moves
      intro b hb
      have haccounts := h.accounts b hb
      have hfirst := hsplit b
      have hsecond := hkept b
      rw [count_owned, hitems] at haccounts
      omega
    let after : TlsProcess := { s.process with
      mmp := { s.process.mmp with heap := s.process.mmp.heap.freeAll freed }
      mmpPostponedTlsList := some (items.filter active) }
    have hstep : processStep s (.workerPass active) = ⟨after, s.otherBlocks⟩ := by
      simp only [processStep, hrun, ← hreleased]
      rfl
    rw [hstep]
    constructor
    · exact h.registry.congr ⟨rfl, rfl⟩
    · exact h.table.congr rfl rfl rfl rfl
    · exact h.data.congr rfl rfl rfl fun _ _ _ => rfl
    · rfl
    · intro item hitem
      apply h.items item
      rw [hitems]
      exact (List.mem_filter.mp hitem).1
    · exact hmoves.single h.single
    · exact h.balanced.trans hmoves.balanced
    · intro b hb
      have haccounts := h.accounts b hb
      have hlive := hmoves.live b hb
      have hfirst := hsplit b
      have hsecond := hkept b
      have howned : (owned after).count b =
          (s.process.mmp.mmpTlsList.map TlsEntry.address).count b +
            (threadVectors s.process.threads).count b +
            (s.process.mmp.mmpThreadLocalStoragePointer.flatMap
              (recordBlocks s.process.mmp.slots)).count b +
            ((items.filter active).flatMap (postponedBlocks s.process.mmp.slots)).count b :=
        count_owned after b
      rw [count_owned, hitems] at haccounts
      rw [List.count_nil] at hlive
      change s.otherBlocks.count b + (owned after).count b +
        (leaked ++ released.flatMap (unlistedSlots s.process.mmp)).count b =
          (s.process.mmp.heap.freeAll freed).live.count b
      rw [howned, List.count_append]
      omega

/-- The block of a vector that no thread, no record and no item of the queue has yet. -/
structure NewVector (tlsVector : Nat) (process : TlsProcess) : Prop where
  block : tlsVector ≠ 0
  threads : ∀ teb ∈ process.threads, teb.threadLocalStoragePointer ≠ 0 →
    teb.threadLocalStoragePointer ≠ moduleTlsData tlsVector
  records : ∀ r ∈ process.mmp.mmpThreadLocalStoragePointer,
    r.tlspMmpBlock ≠ moduleTlsData tlsVector
  items : ∀ item ∈ process.mmpPostponedTlsList.getD [],
    moduleTlsData item.lpOldTlsVector ≠ moduleTlsData tlsVector

theorem Ledger.newVector (h : Ledger start leaked s) {tlsVector : Nat}
    (hfresh : tlsVector ≠ 0 ∧ tlsVector ∉ s.process.mmp.heap.live) :
    NewVector tlsVector s.process where
  block := hfresh.1
  threads := fun _ hmem hptr => (h.thread_vector hmem hptr).ne hfresh.2
  records := fun _ hr => (h.record_vector hr).ne hfresh.2
  items := fun _ hitem => (h.item_vector hitem).ne hfresh.2

theorem ntdllStartThread_vectors (clientId tlsVector : Nat) (data : List Nat) (process : TlsProcess)
    (v : Nat) : v ∈ (ntdllStartThread clientId tlsVector data process).tlspVectors ↔
      v ∈ process.tlspVectors ∧ v ≠ moduleTlsData tlsVector := by
  simp [ntdllStartThread]

theorem ntdllStartThread_slots {clientId tlsVector : Nat} {data : List Nat} {process : TlsProcess}
    {v k : Nat} (hother : v ≠ moduleTlsData tlsVector ∨ data.length ≤ k) :
    (ntdllStartThread clientId tlsVector data process).mmp.slots v k = process.mmp.slots v k := by
  apply if_neg
  rintro ⟨hv, hk⟩
  rcases hother with hne | hle
  · exact hne hv
  · omega

theorem ThreadTable.ntdllStart {process : TlsProcess} (h : ThreadTable process)
    {clientId tlsVector : Nat} {data : List Nat}
    (hfresh : StartsFresh clientId tlsVector data process) (hnew : NewVector tlsVector process) :
    ThreadTable (ntdllStartThread clientId tlsVector data process) := by
  let vector := moduleTlsData tlsVector
  let after := ntdllStartThread clientId tlsVector data process
  have hvectors := ntdllStartThread_vectors clientId tlsVector data process
  have hlength : ∀ v ≠ vector, after.length v = process.length v := fun v hne =>
    Function.update_of_ne hne _ _
  constructor
  · have hids : after.threads.map Teb.clientId =
        process.threads.map Teb.clientId ++ [clientId] := List.map_append
    rw [hids]
    apply List.nodup_append.mpr
    refine ⟨h.ids, List.pairwise_singleton _ _, ?_⟩
    rintro id hid id' hid' rfl
    exact hfresh.id_new (List.mem_singleton.mp hid' ▸ hid)
  · intro teb hteb
    rcases List.mem_append.mp hteb with hteb | hteb
    · exact h.ids_ne teb hteb
    · rw [List.mem_singleton.mp hteb]
      exact hfresh.id_ne
  · intro teb hteb hptr
    rcases List.mem_append.mp hteb with hteb | hteb
    · exact h.vectors teb hteb hptr
    · rw [List.mem_singleton.mp hteb]
      exact Nat.lt_add_of_pos_left (Nat.pos_of_ne_zero hfresh.vector_ne)
  · intro r hr
    exact (h.recorded r hr).imp_right (List.mem_append_left _)
  · intro r hr
    obtain ⟨hmem, hlt⟩ := h.own r hr
    exact ⟨(hvectors _).mpr ⟨hmem, hnew.records r hr⟩, hlt⟩
  · exact h.distinct
  · intro teb hteb hptr hnone
    rcases List.mem_append.mp hteb with hteb | hteb
    · obtain ⟨hforeign, hle⟩ := h.foreign teb hteb hptr hnone
      constructor
      · exact fun hmem => hforeign ((hvectors _).mp hmem).1
      · have hsame := hlength _ (hnew.threads teb hteb hptr)
        exact hsame.trans_le hle
    · rw [List.mem_singleton.mp hteb]
      constructor
      · exact fun hmem => ((hvectors _).mp hmem).2 rfl
      · have hself : after.length vector = data.length := Function.update_self _ _ _
        exact hself.trans_le (Nat.le_of_lt hfresh.short)

theorem DataOfOthers.ntdllStart {others : List Nat} {process : TlsProcess}
    (h : DataOfOthers others process) {clientId tlsVector : Nat} {data : List Nat}
    (hnew : NewVector tlsVector process) :
    DataOfOthers (dataBlocks data ++ others) (ntdllStartThread clientId tlsVector data process) := by
  let vector := moduleTlsData tlsVector
  let after := ntdllStartThread clientId tlsVector data process
  have hvectors := ntdllStartThread_vectors clientId tlsVector data process
  intro teb hteb hptr k hk hsize hne
  rcases List.mem_append.mp hteb with hteb | hteb
  · have hother := hnew.threads teb hteb hptr
    have hlength : after.length teb.threadLocalStoragePointer =
        process.length teb.threadLocalStoragePointer := Function.update_of_ne hother _ _
    rw [ntdllStartThread_slots (Or.inl hother)] at hne ⊢
    apply List.mem_append_right
    apply h teb hteb hptr k hk ?_ hne
    have hmem := hvectors teb.threadLocalStoragePointer
    rw [and_iff_left hother] at hmem
    change k < vectorSize after teb.threadLocalStoragePointer at hsize
    change teb.threadLocalStoragePointer ∈ after.tlspVectors ↔ _ at hmem
    simpa only [vectorSize, hmem, hlength] using hsize
  · obtain rfl := List.mem_singleton.mp hteb
    have hforeign : vector ∉ after.tlspVectors := fun hmem => ((hvectors _).mp hmem).2 rfl
    have hself : after.length vector = data.length := Function.update_self _ _ _
    have hlt : k < data.length := by
      rw [vectorSize, if_neg hforeign, hself] at hsize
      exact hsize
    have hget : data.getD k 0 = data[k] := by simp [List.getElem?_eq_getElem hlt]
    have hslot : after.mmp.slots vector k = data[k] := (if_pos ⟨rfl, hlt⟩).trans hget
    change after.mmp.slots vector k ≠ 0 at hne
    change after.mmp.slots vector k ∈ dataBlocks data ++ others
    rw [hslot] at hne ⊢
    apply List.mem_append_left
    exact List.mem_filter.mpr ⟨List.getElem_mem hlt, by simpa using hne⟩

/-- Of the blocks that ntdll takes, the vector counts as the thread's. -/
theorem count_owned_ntdllStart {clientId tlsVector : Nat} {data : List Nat} (process : TlsProcess)
    (hshort : data.length ≤ mmpStartTlsIndex) (b : Nat) :
    (owned (ntdllStartThread clientId tlsVector data process)).count b =
      (owned process).count b + [tlsVector].count b := by
  let vector := moduleTlsData tlsVector
  let after := ntdllStartThread clientId tlsVector data process
  have hthreads : (threadVectors after.threads).count b =
      (threadVectors process.threads).count b + [tlsVector].count b := by
    have happend : threadVectors after.threads =
        threadVectors process.threads ++ [containingTlsVector vector] := List.map_append
    rw [happend, containingTlsVector_moduleTlsData, List.count_append]
  have hmodule : ∀ v k, mmpStartTlsIndex ≤ k → after.mmp.slots v k = process.mmp.slots v k :=
    fun v k hk => ntdllStartThread_slots (Or.inr (Nat.le_trans hshort hk))
  have howned : (owned after).count b =
      (process.mmp.mmpTlsList.map TlsEntry.address).count b +
        (threadVectors after.threads).count b +
        (process.mmp.mmpThreadLocalStoragePointer.flatMap (recordBlocks after.mmp.slots)).count b +
        ((process.mmpPostponedTlsList.getD []).flatMap
          (postponedBlocks after.mmp.slots)).count b := count_owned after b
  rw [hthreads, recordBlocks_congr fun r _ k hk => hmodule _ k hk,
    postponedBlocks_congr fun item _ k hk => hmodule _ k hk] at howned
  change (owned after).count b = _
  rw [howned, count_owned]
  omega

theorem Ledger.ntdllStart (h : Ledger start leaked s) {clientId tlsVector : Nat} {data : List Nat}
    (hfresh : StartsFresh clientId tlsVector data s.process) :
    Ledger start leaked (processStep s (.ntdllStart clientId tlsVector data)) := by
  let after := ntdllStartThread clientId tlsVector data s.process
  have hnew := h.newVector ⟨hfresh.vector_ne, hfresh.fresh tlsVector List.mem_cons_self⟩
  have hmoves : Moves s.process.mmp.heap after.mmp.heap (tlsVector :: dataBlocks data) [] :=
    claim_moves hfresh.fresh hfresh.nodup
  change Ledger start leaked ⟨after, dataBlocks data ++ s.otherBlocks⟩
  constructor
  · exact h.registry.congr ⟨rfl, rfl⟩
  · exact h.table.ntdllStart hfresh hnew
  · exact h.data.ntdllStart hnew
  · exact h.queue
  · exact h.items
  · exact hmoves.single h.single
  · exact h.balanced.trans hmoves.balanced
  · intro b hb
    have haccounts := h.accounts b hb
    have hlive := hmoves.live b hb
    have hcons : (tlsVector :: dataBlocks data).count b =
        [tlsVector].count b + (dataBlocks data).count b := by
      rw [← List.count_append, List.singleton_append]
    have howned : (owned after).count b = (owned s.process).count b + [tlsVector].count b :=
      count_owned_ntdllStart s.process (Nat.le_of_lt hfresh.short) b
    rw [hcons, List.count_nil] at hlive
    change (dataBlocks data ++ s.otherBlocks).count b + (owned after).count b + leaked.count b =
      after.mmp.heap.live.count b
    rw [howned, List.count_append]
    omega

end Steps

section Start

variable {clientId record tlsVector : Nat} {heap : Heap} {process : TlsProcess}

theorem installTlsp_other {v : Nat} (hv : v ≠ moduleTlsData tlsVector) (k : Nat) :
    (installTlsp clientId record tlsVector (withTlsp tlsVector heap process)).mmp.slots v k =
      process.mmp.slots v k := by
  have hnot : ∀ n, ¬ (v = moduleTlsData tlsVector ∧ k < n) := fun n h => hv h.1
  have hwith : (withTlsp tlsVector heap process).mmp.slots v k = process.mmp.slots v k :=
    if_neg fun h => hv h.1
  simp only [installTlsp]
  split
  · exact (copySlots_other _ _ (hnot _)).trans hwith
  · exact hwith

/-- A slot of the new vector is empty, or it is copied from ntdll's. -/
theorem installTlsp_own
    (hldr : threadPointer process.threads clientId ≠ moduleTlsData tlsVector) {k : Nat}
    (hk : k ≤ mmpMaximumTlsIndex) :
    let slots := (installTlsp clientId record tlsVector
      (withTlsp tlsVector heap process)).mmp.slots
    let ldr := threadPointer process.threads clientId
    slots (moduleTlsData tlsVector) k = 0 ∨
      (k < process.length ldr ∧ slots (moduleTlsData tlsVector) k = process.mmp.slots ldr k) := by
  intro slots ldr
  have hzero : (withTlsp tlsVector heap process).mmp.slots (moduleTlsData tlsVector) k = 0 :=
    if_pos ⟨rfl, hk⟩
  have hsame : (withTlsp tlsVector heap process).mmp.slots ldr k = process.mmp.slots ldr k :=
    if_neg fun h => hldr h.1
  have hlength : (withTlsp tlsVector heap process).length ldr = process.length ldr :=
    Function.update_of_ne hldr _ _
  rcases Decidable.em (process.length ldr ≠ clientId ∧ k < process.length ldr) with
    ⟨hcopied, hlt⟩ | hnot
  · refine Or.inr ⟨hlt, ?_⟩
    have hslots : slots = copySlots (withTlsp tlsVector heap process).mmp.slots
        (moduleTlsData tlsVector) ldr (process.length ldr) := by
      rw [← hlength] at hcopied ⊢
      exact if_pos hcopied
    rw [hslots, copySlots_copied _ _ _ hlt, hsame]
  · apply Or.inl
    simp only [slots, installTlsp]
    split
    · rename_i hcopied
      have hcopied' : (withTlsp tlsVector heap process).length ldr ≠ clientId := hcopied
      have hge : ¬ k < (withTlsp tlsVector heap process).length ldr := by
        intro hlt
        rw [hlength] at hlt hcopied'
        exact hnot ⟨hcopied', hlt⟩
      exact (copySlots_other _ _ fun h => hge h.2).trans hzero
    · exact hzero

theorem installTlsp_empty (hldr : threadPointer process.threads clientId ≠ moduleTlsData tlsVector)
    (hlength : process.length (threadPointer process.threads clientId) ≤ mmpStartTlsIndex) {k : Nat}
    (hstart : mmpStartTlsIndex ≤ k) (hlt : k < mmpMaximumTlsIndex) :
    (installTlsp clientId record tlsVector
      (withTlsp tlsVector heap process)).mmp.slots (moduleTlsData tlsVector) k = 0 := by
  have hown : (installTlsp clientId record tlsVector
      (withTlsp tlsVector heap process)).mmp.slots (moduleTlsData tlsVector) k = 0 ∨
      (k < process.length (threadPointer process.threads clientId) ∧
        _ = process.mmp.slots (threadPointer process.threads clientId) k) :=
    installTlsp_own hldr (Nat.le_of_lt hlt)
  rcases hown with hzero | ⟨hcopied, _⟩
  · exact hzero
  · omega

variable {blocks : List Nat}

theorem started_other {v : Nat} (hv : v ≠ moduleTlsData tlsVector) (k : Nat) :
    (started clientId record tlsVector blocks heap process).mmp.slots v k =
      process.mmp.slots v k :=
  (storeBlocks_other (Or.inl hv)).trans (installTlsp_other hv k)

/-- A slot of ntdll in the new vector is empty, or it is copied from the old one. -/
theorem started_own (hldr : threadPointer process.threads clientId ≠ moduleTlsData tlsVector)
    (hrange : ∀ e ∈ process.mmp.mmpTlsList, mmpStartTlsIndex ≤ e.index) {k : Nat}
    (hk : k < mmpStartTlsIndex) :
    let slots := (started clientId record tlsVector blocks heap process).mmp.slots
    let ldr := threadPointer process.threads clientId
    slots (moduleTlsData tlsVector) k = 0 ∨
      (k < process.length ldr ∧ slots (moduleTlsData tlsVector) k = process.mmp.slots ldr k) := by
  intro slots ldr
  have hstored : slots (moduleTlsData tlsVector) k = (installTlsp clientId record tlsVector
      (withTlsp tlsVector heap process)).mmp.slots (moduleTlsData tlsVector) k := by
    apply storeBlocks_other
    apply Or.inr
    intro hmem
    obtain ⟨e, he, rfl⟩ := List.mem_map.mp hmem
    exact absurd (hrange e he) (Nat.not_le_of_lt hk)
  rw [hstored]
  exact installTlsp_own hldr (Nat.le_trans (Nat.le_of_lt hk) (by decide))

theorem ThreadTable.started (h : ThreadTable process) (hnew : NewVector tlsVector process)
    (hneeds : NeedsVector clientId process) :
    ThreadTable (started clientId record tlsVector blocks heap process) := by
  obtain ⟨hpointer, hnone⟩ := hneeds
  let ldr := threadPointer process.threads clientId
  let vector := moduleTlsData tlsVector
  let after := MmpTls.started clientId record tlsVector blocks heap process
  have hteb : ⟨clientId, ldr⟩ ∈ process.threads := mem_of_threadPointer hpointer
  have hlt : moduleTlsDataOffset < vector :=
    Nat.lt_add_of_pos_left (Nat.pos_of_ne_zero hnew.block)
  have hrecords : after.mmp.mmpThreadLocalStoragePointer =
      process.mmp.mmpThreadLocalStoragePointer ++ [⟨record, clientId, ldr, vector⟩] := rfl
  have hthreads : after.threads = setThreadPointer process.threads clientId vector := rfl
  have hvectors : after.tlspVectors = vector :: process.tlspVectors := rfl
  have hlengths : ∀ v ≠ vector, after.length v = process.length v := fun v hne =>
    Function.update_of_ne hne _ _
  change ThreadTable after
  constructor
  · rw [hthreads, setThreadPointer_ids]
    exact h.ids
  · intro teb hmem
    rcases mem_setThreadPointer hmem with rfl | ⟨hmem, _⟩
    · have hid := h.ids_ne _ hteb
      exact hid
    · exact h.ids_ne teb hmem
  · intro teb hmem hptr
    rcases mem_setThreadPointer hmem with rfl | ⟨hmem, _⟩
    · exact hlt
    · exact h.vectors teb hmem hptr
  · intro r hr
    rw [hrecords] at hr
    rcases List.mem_append.mp hr with hr | hr
    · exact (h.recorded r hr).imp_right fun hmem =>
        mem_setThreadPointer_other vector hmem (hnone r hr)
    · rw [List.mem_singleton.mp hr]
      exact Or.inr (mem_setThreadPointer_self vector hpointer)
  · intro r hr
    rw [hrecords] at hr
    rw [hvectors]
    rcases List.mem_append.mp hr with hr | hr
    · obtain ⟨hmem, hlt⟩ := h.own r hr
      exact ⟨List.mem_cons_of_mem _ hmem, hlt⟩
    · rw [List.mem_singleton.mp hr]
      exact ⟨List.mem_cons_self, hlt⟩
  · rw [hrecords, List.map_append]
    apply List.nodup_append.mpr
    refine ⟨h.distinct, List.pairwise_singleton _ _, ?_⟩
    rintro v hv _ hv' rfl
    obtain ⟨r, hr, rfl⟩ := List.mem_map.mp hv
    exact hnew.records r hr (List.mem_singleton.mp hv')
  · intro teb hmem hptr hunrecorded
    rcases mem_setThreadPointer hmem with rfl | ⟨hmem, _⟩
    · have hlast : (⟨record, clientId, ldr, vector⟩ : TlspRecord) ∈
          after.mmp.mmpThreadLocalStoragePointer :=
        List.mem_append_right _ List.mem_cons_self
      exact absurd rfl (hunrecorded _ hlast)
    · have hold := hnew.threads teb hmem hptr
      obtain ⟨hnot, hle⟩ := h.foreign teb hmem hptr fun r hr =>
        hunrecorded r (List.mem_append_left _ hr)
      rw [hvectors, List.mem_cons, not_or, hlengths _ hold]
      exact ⟨⟨hold, hnot⟩, hle⟩

theorem DataOfOthers.started {others : List Nat} (h : DataOfOthers others process)
    (htable : ThreadTable process) (hnew : NewVector tlsVector process)
    (hneeds : NeedsVector clientId process)
    (hrange : ∀ e ∈ process.mmp.mmpTlsList, mmpStartTlsIndex ≤ e.index) :
    DataOfOthers others (started clientId record tlsVector blocks heap process) := by
  obtain ⟨hpointer, hnone⟩ := hneeds
  let ldr := threadPointer process.threads clientId
  let vector := moduleTlsData tlsVector
  let after := MmpTls.started clientId record tlsVector blocks heap process
  have hteb : ⟨clientId, ldr⟩ ∈ process.threads := mem_of_threadPointer hpointer
  obtain ⟨hforeign, _⟩ := htable.foreign _ hteb hpointer hnone
  intro teb hmem hptr k hk hsize hne
  rcases mem_setThreadPointer hmem with rfl | ⟨hmem, _⟩
  · have hown : after.mmp.slots vector k = 0 ∨
        (k < process.length ldr ∧ after.mmp.slots vector k = process.mmp.slots ldr k) :=
      started_own (hnew.threads _ hteb hpointer) hrange hk
    rcases hown with hzero | ⟨hlt, hsame⟩
    · exact absurd hzero hne
    · change after.mmp.slots vector k ≠ 0 at hne
      change after.mmp.slots vector k ∈ others
      rw [hsame] at hne ⊢
      apply h _ hteb hpointer k hk ?_ hne
      rw [vectorSize, if_neg hforeign]
      exact hlt
  · have hne' := hnew.threads teb hmem hptr
    have hvectors : after.tlspVectors = vector :: process.tlspVectors := rfl
    have hlength : after.length teb.threadLocalStoragePointer =
        process.length teb.threadLocalStoragePointer := Function.update_of_ne hne' _ _
    rw [started_other hne'] at hne ⊢
    apply h teb hmem hptr k hk ?_ hne
    have hold : teb.threadLocalStoragePointer ≠ vector := hne'
    change k < vectorSize after teb.threadLocalStoragePointer at hsize
    simpa only [vectorSize, hvectors, List.mem_cons, hold, false_or, hlength] using hsize

/-- A thread that starts owns its record, its vector and the blocks for the templates. -/
theorem count_owned_started (htable : ThreadTable process) (hregistry : RegistryDescribes process.mmp)
    (hnew : NewVector tlsVector process) (hneeds : NeedsVector clientId process)
    (hle : blocks.length ≤ process.mmp.mmpTlsList.length) {b : Nat} (hb : b ≠ 0) :
    (owned (started clientId record tlsVector blocks heap process)).count b =
      (owned process).count b + ([record, tlsVector] ++ blocks).count b := by
  obtain ⟨hpointer, hnone⟩ := hneeds
  let ldr := threadPointer process.threads clientId
  let vector := moduleTlsData tlsVector
  let after := MmpTls.started clientId record tlsVector blocks heap process
  have hteb : ⟨clientId, ldr⟩ ∈ process.threads := mem_of_threadPointer hpointer
  have hldr : ldr ≠ vector := hnew.threads _ hteb hpointer
  obtain ⟨_, hlength⟩ := htable.foreign _ hteb hpointer hnone
  have hrecords : after.mmp.mmpThreadLocalStoragePointer =
      process.mmp.mmpThreadLocalStoragePointer ++ [⟨record, clientId, ldr, vector⟩] := rfl
  have hset := count_threadVectors_set htable.ids hpointer vector b
  rw [containingTlsVector_moduleTlsData] at hset
  have hempty : ∀ k, mmpStartTlsIndex ≤ k → k < mmpMaximumTlsIndex →
      (installTlsp clientId record tlsVector
        (withTlsp tlsVector heap process)).mmp.slots vector k = 0 :=
    fun k => installTlsp_empty hldr hlength
  have hindex : ∀ e ∈ process.mmp.mmpTlsList, e.index ∈ moduleIndices := fun e he =>
    mem_moduleIndices.mpr (hregistry.inRange e he)
  have hslots : (moduleSlots after.mmp.slots vector).count b = blocks.count b := by
    have hstored := count_moduleSlots_storeBlocks hregistry.nodup hindex
      (fun e he => hempty e.index (hregistry.inRange e he).1 (hregistry.inRange e he).2) hle hb
    rw [count_moduleSlots_zero hempty hb, Nat.zero_add] at hstored
    exact hstored
  have howned : (owned after).count b =
      (process.mmp.mmpTlsList.map TlsEntry.address).count b +
        (threadVectors (setThreadPointer process.threads clientId vector)).count b +
        (after.mmp.mmpThreadLocalStoragePointer.flatMap (recordBlocks after.mmp.slots)).count b +
        ((process.mmpPostponedTlsList.getD []).flatMap
          (postponedBlocks after.mmp.slots)).count b := count_owned after b
  have hother : ∀ v ≠ vector, ∀ k, after.mmp.slots v k = process.mmp.slots v k :=
    fun v hv k => started_other hv k
  have holdRecords := recordBlocks_congr fun r hr k _ => hother r.tlspMmpBlock (hnew.records r hr) k
  have hitems := postponedBlocks_congr fun item hitem k _ =>
    hother (moduleTlsData item.lpOldTlsVector) (hnew.items item hitem) k
  rw [hrecords, List.flatMap_append, List.count_append, holdRecords, hitems,
    List.flatMap_singleton] at howned
  have hrecord : (recordBlocks after.mmp.slots ⟨record, clientId, ldr, vector⟩).count b =
      [record].count b + [containingTlsVector ldr].count b + blocks.count b := by
    rw [← hslots, ← List.count_append, ← List.count_append]
    rfl
  have hgained : ([record, tlsVector] ++ blocks).count b =
      [record].count b + [tlsVector].count b + blocks.count b := by
    rw [← List.count_append, ← List.count_append]
    rfl
  change (owned after).count b = _
  rw [howned, hrecord, hgained, count_owned]
  change (threadVectors (setThreadPointer process.threads clientId vector)).count b +
    [containingTlsVector ldr].count b = _ at hset
  omega

end Start

/-- The start of a thread keeps the ledger, wherever it breaks off. -/
theorem Ledger.threadStart {start : Heap} {leaked : List Nat} {s : ProcessState}
    (h : Ledger start leaked s) (clientId : Nat) :
    Ledger start leaked (processStep s (.threadStart clientId)) := by
  have hexits := mmpAllocateTlsLockHeld_exits clientId s.process
  simp only [processStep]
  generalize mmpAllocateTlsLockHeld clientId s.process = result at hexits ⊢
  cases hexits with
  | skipped => exact h
  | refused _ hunused =>
    exact h.entries (h.registry.congr ⟨rfl, rfl⟩) rfl rfl hunused.moves fun _ _ => rfl
  | installed hneeds hgranted hnext hle hfull hshort =>
    rename_i record tlsVector blocks heap
    let after := started clientId record tlsVector blocks heap s.process
    have hfresh : tlsVector ≠ 0 ∧ tlsVector ∉ s.process.mmp.heap.live :=
      hgranted.fresh tlsVector (by simp)
    have hnew := h.newVector hfresh
    have hmoves : Moves s.process.mmp.heap after.mmp.heap ([record, tlsVector] ++ blocks) [] :=
      hgranted.moves
    change Ledger start leaked ⟨after, s.otherBlocks⟩
    constructor
    · exact h.registry.congr ⟨rfl, rfl⟩
    · exact h.table.started hnew hneeds
    · exact h.data.started h.table hnew hneeds fun e he => (h.registry.inRange e he).1
    · exact h.queue
    · exact h.items
    · exact hmoves.single h.single
    · exact h.balanced.trans hmoves.balanced
    · intro b hb
      have haccounts := h.accounts b hb
      have hlive := hmoves.live b hb
      have howned : (owned after).count b =
          (owned s.process).count b + ([record, tlsVector] ++ blocks).count b :=
        count_owned_started h.table h.registry hnew hneeds hle hb
      rw [List.count_nil] at hlive
      change s.otherBlocks.count b + (owned after).count b + leaked.count b =
        after.mmp.heap.live.count b
      omega

theorem threads_without {threads : List Teb} (hids : (threads.map Teb.clientId).Nodup) {teb : Teb}
    (hteb : teb ∈ threads) (b : Nat) :
    (threadVectors threads).count b =
      (threadVectors (threads.filter fun other => other.clientId != teb.clientId)).count b +
        [containingTlsVector teb.threadLocalStoragePointer].count b := by
  obtain ⟨older, younger, rfl⟩ := List.append_of_mem hteb
  rw [List.map_append, List.map_cons] at hids
  have hnew := (List.nodup_middle.mp hids).notMem
  rw [← List.map_append] at hnew
  have hkeep : ∀ other ∈ older ++ younger, (other.clientId != teb.clientId) = true := by
    intro other hother
    simp only [bne_iff_ne, ne_eq]
    rintro heq
    exact hnew (heq ▸ List.mem_map_of_mem hother)
  have hfilter : (older ++ teb :: younger).filter (fun other => other.clientId != teb.clientId) =
      older ++ younger := by
    rw [List.filter_append, List.filter_cons_of_neg (by simp),
      List.filter_eq_self.mpr fun other hother => hkeep other (List.mem_append_left _ hother),
      List.filter_eq_self.mpr fun other hother => hkeep other (List.mem_append_right _ hother)]
  rw [hfilter]
  simp only [threadVectors, List.map_append, List.map_cons, List.count_append, List.count_cons,
    List.count_nil]
  omega

/-- A thread leaves the table while its vector still waits to be freed. -/
def withoutThread (clientId : Nat) (process : TlsProcess) : TlsProcess :=
  { process with threads := process.threads.filter fun teb => teb.clientId != clientId }

section Exit

variable {start : Heap} {leaked : List Nat} {s : ProcessState}

theorem mem_withoutThread {clientId : Nat} {process : TlsProcess} (teb : Teb) :
    teb ∈ (withoutThread clientId process).threads ↔
      teb ∈ process.threads ∧ teb.clientId ≠ clientId := by
  simp [withoutThread]

theorem Ledger.leave (h : Ledger start leaked s) {teb : Teb} (hteb : teb ∈ s.process.threads)
    (hnone : ∀ r ∈ s.process.mmp.mmpThreadLocalStoragePointer, r.uniqueThread ≠ teb.clientId) :
    Ledger start (containingTlsVector teb.threadLocalStoragePointer :: leaked)
      { s with process := withoutThread teb.clientId s.process } where
  registry := h.registry
  table := {
    ids := h.table.ids.sublist (List.filter_sublist.map _)
    ids_ne := fun other hother => h.table.ids_ne other ((mem_withoutThread other).mp hother).1
    vectors := fun other hother => h.table.vectors other ((mem_withoutThread other).mp hother).1
    recorded := fun r hr => (h.table.recorded r hr).imp_right fun hlive =>
      (mem_withoutThread _).mpr ⟨hlive, hnone r hr⟩
    own := h.table.own
    distinct := h.table.distinct
    foreign := fun other hother => h.table.foreign other ((mem_withoutThread other).mp hother).1 }
  data := fun other hother => h.data other ((mem_withoutThread other).mp hother).1
  queue := h.queue
  items := h.items
  single := h.single
  balanced := h.balanced
  accounts := by
    intro b hb
    let after := withoutThread teb.clientId s.process
    have haccounts := h.accounts b hb
    have hthreads := threads_without h.table.ids hteb b
    have howned : (owned after).count b =
        (s.process.mmp.mmpTlsList.map TlsEntry.address).count b +
          (threadVectors (s.process.threads.filter
            fun other => other.clientId != teb.clientId)).count b +
          (s.process.mmp.mmpThreadLocalStoragePointer.flatMap
            (recordBlocks s.process.mmp.slots)).count b +
          ((s.process.mmpPostponedTlsList.getD []).flatMap
            (postponedBlocks s.process.mmp.slots)).count b := count_owned after b
    have hcons : (containingTlsVector teb.threadLocalStoragePointer :: leaked).count b =
        [containingTlsVector teb.threadLocalStoragePointer].count b + leaked.count b := by
      rw [← List.count_append, List.singleton_append]
    rw [count_owned] at haccounts
    change s.otherBlocks.count b + (owned after).count b +
      (containingTlsVector teb.threadLocalStoragePointer :: leaked).count b =
        s.process.mmp.heap.live.count b
    omega

theorem postponed_other (clientId : Nat) (record : TlspRecord) (remaining : List TlspRecord)
    {tlsVector : Nat} (heap : Heap) (process : TlsProcess) {v : Nat}
    (hv : v ≠ moduleTlsData tlsVector) :
    let after := postponed clientId record remaining tlsVector heap process
    (∀ k, after.mmp.slots v k = process.mmp.slots v k) ∧
      vectorSize after v = vectorSize process v := by
  intro after
  constructor
  · intro k
    have hcopied : after.mmp.slots v k = (withTlsp tlsVector heap process).mmp.slots v k :=
      copySlots_other _ _ fun hsame => hv hsame.1
    exact hcopied.trans (if_neg fun hsame => hv hsame.1)
  · have hvectors : after.tlspVectors = moduleTlsData tlsVector :: process.tlspVectors := rfl
    have hlength : after.length v = process.length v := Function.update_of_ne hv _ _
    simp only [vectorSize, hvectors, List.mem_cons, hv, false_or, hlength]

theorem ThreadTable.one_record {process : TlsProcess} (h : ThreadTable process) {teb : Teb}
    (hteb : teb ∈ process.threads) {older younger : List TlspRecord} {record : TlspRecord}
    (hlist : process.mmp.mmpThreadLocalStoragePointer = older ++ record :: younger)
    (hrecord : record.uniqueThread = teb.clientId) :
    ∀ r ∈ older ++ younger, r ∈ process.mmp.mmpThreadLocalStoragePointer ∧
      r.uniqueThread ≠ teb.clientId := by
  have hlive : ∀ p ∈ process.mmp.mmpThreadLocalStoragePointer,
      p.uniqueThread = teb.clientId → p.tlspMmpBlock = teb.threadLocalStoragePointer := by
    intro p hp hid
    rcases h.recorded p hp with ⟨hzero, _⟩ | hlive
    · exact absurd (hid.symm.trans hzero) (h.ids_ne teb hteb)
    · have heq := List.inj_on_of_nodup_map h.ids hlive hteb hid
      exact congrArg Teb.threadLocalStoragePointer heq
  have hin : record ∈ process.mmp.mmpThreadLocalStoragePointer := by
    rw [hlist]
    exact List.mem_append_right _ List.mem_cons_self
  have hdistinct := h.distinct
  rw [hlist, List.map_append, List.map_cons] at hdistinct
  have hnot := (List.nodup_middle.mp hdistinct).notMem
  rw [← List.map_append] at hnot
  intro r hr
  have hmem : r ∈ process.mmp.mmpThreadLocalStoragePointer := by
    rw [hlist]
    rcases List.mem_append.mp hr with hr | hr
    · exact List.mem_append_left _ hr
    · exact List.mem_append_right _ (List.mem_cons_of_mem _ hr)
  refine ⟨hmem, ?_⟩
  intro hsame
  have hsameVector : r.tlspMmpBlock = record.tlspMmpBlock := by
    rw [hlive r hmem hsame, hlive record hin hrecord]
  exact hnot (hsameVector ▸ List.mem_map_of_mem hr)

theorem ThreadTable.postponed {process : TlsProcess} (h : ThreadTable process) {teb : Teb}
    (hteb : teb ∈ process.threads) {older younger : List TlspRecord} {record : TlspRecord}
    (hlist : process.mmp.mmpThreadLocalStoragePointer = older ++ record :: younger)
    (hrecord : record.uniqueThread = teb.clientId) {tlsVector : Nat} {heap : Heap}
    (hnew : NewVector tlsVector process) :
    ThreadTable (withoutThread teb.clientId
      (postponed teb.clientId record (older ++ younger) tlsVector heap process)) := by
  let vector := moduleTlsData tlsVector
  let after := withoutThread teb.clientId
    (MmpTls.postponed teb.clientId record (older ++ younger) tlsVector heap process)
  have hothers := h.one_record hteb hlist hrecord
  have hthreads : ∀ other, other ∈ after.threads ↔
      other ∈ process.threads ∧ other.clientId ≠ teb.clientId := mem_withoutThread
  have hvectors : after.tlspVectors = vector :: process.tlspVectors := rfl
  have hlengths : ∀ v ≠ vector, after.length v = process.length v := fun v hne =>
    Function.update_of_ne hne _ _
  change ThreadTable after
  constructor
  · exact h.ids.sublist (List.filter_sublist.map _)
  · exact fun other hmem => h.ids_ne other ((hthreads other).mp hmem).1
  · exact fun other hmem => h.vectors other ((hthreads other).mp hmem).1
  · intro r hr
    obtain ⟨hmem, hid⟩ := hothers r hr
    exact (h.recorded r hmem).imp_right fun hlive => (hthreads _).mpr ⟨hlive, hid⟩
  · intro r hr
    obtain ⟨hown, hlt⟩ := h.own r (hothers r hr).1
    exact ⟨hvectors ▸ List.mem_cons_of_mem _ hown, hlt⟩
  · have hsublist : (older ++ younger).Sublist process.mmp.mmpThreadLocalStoragePointer := by
      rw [hlist]
      exact (List.sublist_cons_self record younger).append_left older
    exact h.distinct.sublist (hsublist.map _)
  · intro other hlive hptr hnone
    obtain ⟨hlive, hid⟩ := (hthreads other).mp hlive
    have hold := hnew.threads other hlive hptr
    have hunrecorded : ∀ r ∈ process.mmp.mmpThreadLocalStoragePointer,
        r.uniqueThread ≠ other.clientId := by
      intro r hr
      rw [hlist] at hr
      rcases List.mem_append.mp hr with hr | hr
      · exact hnone r (List.mem_append_left _ hr)
      · rcases List.mem_cons.mp hr with rfl | hr
        · exact fun heq => hid (heq.symm.trans hrecord)
        · exact hnone r (List.mem_append_right _ hr)
    obtain ⟨hforeign, hle⟩ := h.foreign other hlive hptr hunrecorded
    rw [hvectors, List.mem_cons, not_or, hlengths _ hold]
    exact ⟨⟨hold, hforeign⟩, hle⟩

/-- The queue takes over what the record and its vector own, with the copy of the vector,
and the vector of the thread itself is left. -/
theorem count_owned_postponed {process : TlsProcess} (h : ThreadTable process) {teb : Teb}
    (hteb : teb ∈ process.threads) {older younger : List TlspRecord} {record : TlspRecord}
    (hlist : process.mmp.mmpThreadLocalStoragePointer = older ++ record :: younger)
    (hrecord : record.uniqueThread = teb.clientId) {tlsVector : Nat} {heap : Heap}
    (hnew : NewVector tlsVector process) {items : List PostponedTls}
    (hqueue : process.mmpPostponedTlsList = some items) (b : Nat) :
    (owned (withoutThread teb.clientId
        (postponed teb.clientId record (older ++ younger) tlsVector heap process))).count b +
        [containingTlsVector teb.threadLocalStoragePointer].count b =
      (owned process).count b + [tlsVector].count b := by
  let vector := moduleTlsData tlsVector
  let after := withoutThread teb.clientId
    (MmpTls.postponed teb.clientId record (older ++ younger) tlsVector heap process)
  have hothers := h.one_record hteb hlist hrecord
  have hin : record ∈ process.mmp.mmpThreadLocalStoragePointer := by
    rw [hlist]
    exact List.mem_append_right _ List.mem_cons_self
  have hitems : process.mmpPostponedTlsList.getD [] = items := by rw [hqueue]; rfl
  have hother : ∀ v ≠ vector, ∀ k, after.mmp.slots v k = process.mmp.slots v k := fun v hv =>
    (postponed_other teb.clientId record (older ++ younger) heap process hv).1
  have hslots : moduleSlots after.mmp.slots vector =
      moduleSlots process.mmp.slots record.tlspMmpBlock := by
    apply List.map_congr_left
    intro k hk
    have hcopied : after.mmp.slots vector k =
        (withTlsp tlsVector heap process).mmp.slots record.tlspMmpBlock k :=
      copySlots_copied _ _ _ (mem_moduleIndices.mp hk).2
    exact hcopied.trans (if_neg fun hsame => hnew.records record hin hsame.1)
  have hqueued : after.mmpPostponedTlsList.getD [] =
      items ++ [⟨teb.clientId, record, tlsVector⟩] := by
    change (process.mmpPostponedTlsList.map fun items =>
      items ++ [⟨teb.clientId, record, tlsVector⟩]).getD [] = _
    rw [hqueue]
    rfl
  have hwithout := threads_without h.ids hteb b
  have howned : (owned after).count b =
      (process.mmp.mmpTlsList.map TlsEntry.address).count b +
        (threadVectors (process.threads.filter
          fun other => other.clientId != teb.clientId)).count b +
        ((older ++ younger).flatMap (recordBlocks after.mmp.slots)).count b +
        ((after.mmpPostponedTlsList.getD []).flatMap
          (postponedBlocks after.mmp.slots)).count b := count_owned after b
  have hrecords := recordBlocks_congr fun r (hr : r ∈ older ++ younger) k _ =>
    hother r.tlspMmpBlock (hnew.records r (hothers r hr).1) k
  have hcopies := postponedBlocks_congr fun item (hitem : item ∈ items) k _ =>
    hother (moduleTlsData item.lpOldTlsVector) (hnew.items item (hitems ▸ hitem)) k
  have hitem : (postponedBlocks after.mmp.slots ⟨teb.clientId, record, tlsVector⟩).count b =
      (recordBlocks process.mmp.slots record).count b + [tlsVector].count b := by
    simp only [postponedBlocks, recordBlocks, List.count_cons, List.count_nil]
    change (moduleSlots after.mmp.slots vector).count b + _ + _ + _ = _
    rw [hslots]
    omega
  have hbefore : (process.mmp.mmpThreadLocalStoragePointer.flatMap
      (recordBlocks process.mmp.slots)).count b =
        ((older ++ younger).flatMap (recordBlocks process.mmp.slots)).count b +
          (recordBlocks process.mmp.slots record).count b := by
    rw [hlist]
    simp only [List.flatMap_append, List.flatMap_cons, List.count_append]
    omega
  have hafterItems : ((after.mmpPostponedTlsList.getD []).flatMap
      (postponedBlocks after.mmp.slots)).count b =
        (items.flatMap (postponedBlocks process.mmp.slots)).count b +
          ((recordBlocks process.mmp.slots record).count b + [tlsVector].count b) := by
    rw [hqueued, List.flatMap_append, List.flatMap_singleton, List.count_append, hcopies, hitem]
  change (owned after).count b + _ = _
  rw [howned, hrecords, hafterItems, count_owned, hitems, hbefore]
  omega

/-- A thread with a record leaves, and its record goes to the queue with a copy of
the vector. -/
theorem Ledger.postpone (h : Ledger start leaked s) {teb : Teb} (hteb : teb ∈ s.process.threads)
    {older younger : List TlspRecord} {record : TlspRecord}
    (hlist : s.process.mmp.mmpThreadLocalStoragePointer = older ++ record :: younger)
    (hrecord : record.uniqueThread = teb.clientId) {tlsVector : Nat} {heap : Heap}
    (hgranted : Granted s.process.mmp.heap heap [tlsVector]) :
    Ledger start (containingTlsVector teb.threadLocalStoragePointer :: leaked)
      ⟨withoutThread teb.clientId
        (postponed teb.clientId record (older ++ younger) tlsVector heap s.process),
        s.otherBlocks⟩ := by
  let after := withoutThread teb.clientId
    (postponed teb.clientId record (older ++ younger) tlsVector heap s.process)
  obtain ⟨items, hqueue⟩ := Option.isSome_iff_exists.mp h.queue
  have hitems : s.process.mmpPostponedTlsList.getD [] = items := by rw [hqueue]; rfl
  have hfresh : tlsVector ≠ 0 ∧ tlsVector ∉ s.process.mmp.heap.live :=
    hgranted.fresh tlsVector List.mem_cons_self
  have hnew := h.newVector hfresh
  have hheap : after.mmp.heap = heap := if_pos h.queue
  have hmoves : Moves s.process.mmp.heap after.mmp.heap [tlsVector] [] := by
    rw [hheap]
    exact hgranted.moves
  have hqueued : after.mmpPostponedTlsList = some (items ++ [⟨teb.clientId, record, tlsVector⟩]) := by
    change s.process.mmpPostponedTlsList.map (fun items =>
      items ++ [⟨teb.clientId, record, tlsVector⟩]) = _
    rw [hqueue]
    rfl
  change Ledger start _ ⟨after, s.otherBlocks⟩
  constructor
  · exact h.registry.congr ⟨rfl, rfl⟩
  · exact h.table.postponed hteb hlist hrecord hnew
  · intro other hlive hptr k hk hsize hne
    obtain ⟨hlive, _⟩ := (mem_withoutThread other).mp hlive
    obtain ⟨hsame, hlength⟩ := postponed_other teb.clientId record (older ++ younger) heap
      s.process (hnew.threads other hlive hptr)
    have hslot : after.mmp.slots other.threadLocalStoragePointer k =
        s.process.mmp.slots other.threadLocalStoragePointer k := hsame k
    rw [hslot] at hne ⊢
    apply h.data other hlive hptr k hk ?_ hne
    rw [← hlength]
    exact hsize
  · rw [hqueued]
    rfl
  · intro item hitem
    rw [hqueued, Option.getD_some] at hitem
    rcases List.mem_append.mp hitem with hitem | hitem
    · exact h.items item (hitems ▸ hitem)
    · rw [List.mem_singleton.mp hitem]
      exact hfresh.1
  · exact hmoves.single h.single
  · exact h.balanced.trans hmoves.balanced
  · intro b hb
    have haccounts := h.accounts b hb
    have hlive := hmoves.live b hb
    have howned : (owned after).count b +
        [containingTlsVector teb.threadLocalStoragePointer].count b =
          (owned s.process).count b + [tlsVector].count b :=
      count_owned_postponed h.table hteb hlist hrecord hnew hqueue b
    have hcons : (containingTlsVector teb.threadLocalStoragePointer :: leaked).count b =
        [containingTlsVector teb.threadLocalStoragePointer].count b + leaked.count b := by
      rw [← List.count_append, List.singleton_append]
    rw [List.count_nil] at hlive
    change s.otherBlocks.count b + (owned after).count b +
      (containingTlsVector teb.threadLocalStoragePointer :: leaked).count b =
        after.mmp.heap.live.count b
    omega

/-- ntdll frees the vector of the thread that left, and data of others. -/
theorem Ledger.ntdllFrees {block : Nat} (h : Ledger start (block :: leaked) s) {frees : List Nat}
    (hnodup : frees.Nodup) (hsubset : ∀ b ∈ frees, b ∈ s.otherBlocks)
    (hunused : ∀ b ∈ frees, ∀ teb ∈ s.process.threads, teb.threadLocalStoragePointer ≠ 0 →
      ∀ k < mmpStartTlsIndex, k < vectorSize s.process teb.threadLocalStoragePointer →
        s.process.mmp.slots teb.threadLocalStoragePointer k ≠ b) :
    let mmp := { s.process.mmp with heap := s.process.mmp.heap.freeAll (block :: frees) }
    Ledger start leaked ⟨{ s.process with mmp := mmp }, s.otherBlocks.diff frees⟩ := by
  intro mmp
  have hothers : ∀ b, (s.otherBlocks.diff frees).count b + frees.count b =
      s.otherBlocks.count b := by
    intro b
    rw [List.count_diff]
    apply Nat.sub_add_cancel
    rcases Decidable.em (b ∈ frees) with hin | hout
    · rw [List.count_eq_one_of_mem hnodup hin]
      exact List.count_pos_iff.mpr (hsubset b hin)
    · rw [List.count_eq_zero.mpr hout]
      exact Nat.zero_le _
  have hcons : ∀ blocks : List Nat, ∀ b,
      (block :: blocks).count b = [block].count b + blocks.count b := by
    intro blocks b
    rw [← List.count_append, List.singleton_append]
  have hmoves : Moves s.process.mmp.heap mmp.heap [] (block :: frees) := by
    apply freeAll_moves
    intro b hb
    have haccounts := h.accounts b hb
    have hother := hothers b
    rw [hcons] at haccounts ⊢
    omega
  constructor
  · exact h.registry.congr ⟨rfl, rfl⟩
  · exact h.table.congr rfl rfl rfl rfl
  · intro teb hteb hptr k hk hsize hne
    have hdata := h.data teb hteb hptr k hk hsize hne
    have hnot : s.process.mmp.slots teb.threadLocalStoragePointer k ∉ frees := fun hin =>
      hunused _ hin teb hteb hptr k hk hsize rfl
    have hcount := hothers (s.process.mmp.slots teb.threadLocalStoragePointer k)
    rw [List.count_eq_zero.mpr hnot, Nat.add_zero] at hcount
    apply List.count_pos_iff.mp
    exact hcount.symm ▸ List.count_pos_iff.mpr hdata
  · exact h.queue
  · exact h.items
  · exact hmoves.single h.single
  · exact h.balanced.trans hmoves.balanced
  · intro b hb
    let after : TlsProcess := { s.process with mmp := mmp }
    have haccounts := h.accounts b hb
    have hlive := hmoves.live b hb
    have hother := hothers b
    have howned : (owned after).count b = (owned s.process).count b := rfl
    rw [hcons] at haccounts
    rw [hcons, List.count_nil] at hlive
    change (s.otherBlocks.diff frees).count b + (owned after).count b + leaked.count b =
      mmp.heap.live.count b
    omega

theorem Ledger.threadExit (h : Ledger start leaked s) {clientId : Nat} {frees : List Nat}
    (hexits : ExitsWith clientId frees s) :
    Ledger start leaked (processStep s (.threadExit clientId frees)) := by
  obtain ⟨teb, hteb, rfl⟩ := List.mem_map.mp hexits.live
  have hpointer := threadPointer_of_mem h.table.ids hteb
  rcases hookLdrShutdownThread_cases teb.clientId s.process with
    ⟨hrun, hnone⟩ | ⟨older, record, younger, hlist, hrecord, ⟨hrun, _⟩ |
      ⟨tlsVector, heap, htls, hgranted, hrun⟩⟩
  · simp only [processStep, hrun, hpointer]
    apply (h.leave hteb hnone).ntdllFrees hexits.nodup hexits.others
    intro b hb other hother
    obtain ⟨hlive, hid⟩ := (mem_withoutThread other).mp hother
    exact hexits.unused b hb other hlive hid
  · simp only [processStep, hrun]
    exact h
  · simp only [processStep, hrun, hpointer]
    apply (h.postpone hteb hlist hrecord hgranted).ntdllFrees hexits.nodup hexits.others
    intro b hb other hother hptr k hk hsize
    obtain ⟨hlive, hid⟩ := (mem_withoutThread other).mp hother
    have hlive' : other ∈ s.process.threads := hlive
    have hne := (h.thread_vector hlive' hptr).ne (hgranted.fresh tlsVector List.mem_cons_self).2
    obtain ⟨hslots, hsame⟩ :=
      postponed_other teb.clientId record (older ++ younger) heap s.process hne
    change (postponed teb.clientId record (older ++ younger) tlsVector heap s.process).mmp.slots
      other.threadLocalStoragePointer k ≠ b
    rw [hslots]
    exact hexits.unused b hb other hlive' hid hptr k hk (hsame ▸ hsize)

end Exit

end WinPolyfillLoader.MmpTls
