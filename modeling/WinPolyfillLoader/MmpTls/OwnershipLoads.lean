import WinPolyfillLoader.MmpTls.Ownership

/-!
Loads and the ledger. The kernel exchanges pointers between the request and the
vectors, so the two together hold what they held before. As long as every served
thread has a record, the request comes back with what is nobody's any more.
-/

namespace WinPolyfillLoader.MmpTls

open ProcessHeap

def pointersOf (n : Nat) (tls : ProcessTlsInformation) : List Nat :=
  (List.range n).map fun i => (tls.threadData i).tlsPointer

/-- The thread has a record, with the vector that is installed in it. -/
def Recorded (records : List TlspRecord) (t : ServedThread) : Prop :=
  ∃ r ∈ records, r.uniqueThread = t.teb.clientId ∧ r.tlspMmpBlock = t.vector

section Exchange

variable {records : List TlspRecord} {n : Nat}

theorem serveThread_conserves (hdistinct : (records.map TlspRecord.tlspMmpBlock).Nodup)
    {t : ServedThread} (hrecorded : Recorded records t) (hlt : t.element < n)
    {tls : ProcessTlsInformation} (hindex : tls.tlsIndex ∈ moduleIndices) (slots : Slots)
    (b : Nat) :
    let answer := serveThread (tls, slots) t
    (pointersOf n answer.1).count b + (records.flatMap (recordBlocks answer.2)).count b =
      (pointersOf n tls).count b + (records.flatMap (recordBlocks slots)).count b := by
  intro answer
  obtain ⟨r, hr, _, hvector⟩ := hrecorded
  let given := (tls.threadData t.element).tlsPointer
  let taken := slots t.vector tls.tlsIndex
  have hslots : answer.2 = writeSlot slots t.vector tls.tlsIndex given := rfl
  have hpointers : (pointersOf n answer.1).count b + [given].count b =
      (pointersOf n tls).count b + [taken].count b := by
    have hexchange := count_map_exchange (v := fun i => (tls.threadData i).tlsPointer)
      (w := fun i => (answer.1.threadData i).tlsPointer) List.nodup_range
      (List.mem_range.mpr hlt)
      (fun j _ hne => congrArg ThreadTlsInformation.tlsPointer (Function.update_of_ne hne _ _)) b
    have hself : answer.1.threadData t.element = ⟨t.flags, taken, t.teb.clientId⟩ :=
      Function.update_self _ _ _
    rw [hself] at hexchange
    exact hexchange
  have hother : ∀ r' ∈ records, r' ≠ r → recordBlocks answer.2 r' = recordBlocks slots r' := by
    intro r' hr' hne
    have hne' : r'.tlspMmpBlock ≠ t.vector := fun heq =>
      hne (List.inj_on_of_nodup_map hdistinct hr' hr (heq.trans hvector.symm))
    simp only [recordBlocks, hslots]
    rw [moduleSlots_congr fun k _ => writeSlot_other slots given fun h => hne' h.1]
  have hheld := count_flatMap_exchange (f := recordBlocks slots) (g := recordBlocks answer.2)
    hdistinct.of_map hr hother b
  have hrecord : (recordBlocks answer.2 r).count b + [taken].count b =
      (recordBlocks slots r).count b + [given].count b := by
    have hwritten := count_moduleSlots_writeSlot slots t.vector hindex given b
    rw [count_recordBlocks, count_recordBlocks, hvector, hslots]
    change _ + [taken].count b = _ at hwritten
    omega
  omega

theorem processTlsReplaceIndex_conserves
    (hdistinct : (records.map TlspRecord.tlspMmpBlock).Nodup) {served : List ServedThread}
    (hrecorded : ∀ t ∈ served, Recorded records t) (hlt : ∀ t ∈ served, t.element < n)
    {tls : ProcessTlsInformation} (hindex : tls.tlsIndex ∈ moduleIndices) (slots : Slots)
    (b : Nat) :
    let answer := processTlsReplaceIndex served tls slots
    (pointersOf n answer.1).count b + (records.flatMap (recordBlocks answer.2)).count b =
      (pointersOf n tls).count b + (records.flatMap (recordBlocks slots)).count b := by
  induction served generalizing tls slots with
  | nil => rfl
  | cons t served ih =>
    have hfirst := serveThread_conserves hdistinct (hrecorded t List.mem_cons_self)
      (hlt t List.mem_cons_self) hindex slots b
    let next := serveThread (tls, slots) t
    have hnext : next.1.tlsIndex ∈ moduleIndices := hindex
    have hrest := ih (fun u hu => hrecorded u (List.mem_cons_of_mem _ hu))
      (fun u hu => hlt u (List.mem_cons_of_mem _ hu)) hnext next.2
    exact hrest.trans hfirst

theorem leftPointers_eq {served : List ServedThread}
    (hvectors : (served.map ServedThread.vector).Nodup)
    (helements : (served.map ServedThread.element).Nodup) {state : MmpState}
    (hrecorded : ∀ t ∈ served, Recorded state.mmpThreadLocalStoragePointer t)
    (request : ProcessTlsInformation) :
    leftPointers served request state = pointersOf request.threadDataCount
      (processTlsReplaceIndex served request state.slots).1 := by
  apply List.map_congr_left
  intro i _
  let answer := processTlsReplaceIndex served request state.slots
  rcases Decidable.em (i ∈ served.map ServedThread.element) with hserved | hnot
  · obtain ⟨t, ht, rfl⟩ := List.mem_map.mp hserved
    obtain ⟨r, hr, _, hvector⟩ := hrecorded t ht
    have hslot := (processTlsReplaceIndex_served hvectors helements request state.slots ht).2
    have hany : state.mmpThreadLocalStoragePointer.any (fun record => decide
        (answer.2 record.tlspMmpBlock request.tlsIndex =
          (request.threadData t.element).tlsPointer)) = true := by
      apply List.any_eq_true.mpr
      exact ⟨r, hr, by rw [hvector]; exact decide_eq_true hslot⟩
    simp only [handBack, answer] at hany ⊢
    rw [hany]
    rfl
  · have hsame := processTlsReplaceIndex_element_other served request state.slots hnot
    simp only [handBack, hsame]
    split
    · rfl
    · rfl

end Exchange

section Load

variable {start : Heap} {leaked : List Nat} {s : ProcessState}

theorem Ledger.served_vectors (h : Ledger start leaked s) {served : List ServedThread} {n : Nat}
    (hserves : ServesThreads served n s.process) :
    (served.map ServedThread.vector).Nodup ∧
      ∀ item ∈ s.process.mmpPostponedTlsList.getD [],
        moduleTlsData item.lpOldTlsVector ∉ served.map ServedThread.vector := by
  have hblock : ∀ t ∈ served, containingTlsVector t.vector ≠ 0 := fun t ht =>
    (h.thread_vector (hserves.threads t ht).1 (hserves.threads t ht).2).block
  constructor
  · have hteb : ∀ t ∈ served, ∀ u ∈ served, t.vector = u.vector → t.teb = u.teb := by
      intro t ht u hu hsame
      have honce := h.once (hblock t ht)
      let block (teb : Teb) : Nat := containingTlsVector teb.threadLocalStoragePointer
      have hvectors : (s.process.threads.map block).count (block t.teb) ≤ 1 := by
        change (threadVectors s.process.threads).count (containingTlsVector t.vector) ≤ 1
        omega
      have hsame' : block u.teb = block t.teb := (congrArg containingTlsVector hsame).symm
      exact holder_unique (hserves.threads t ht).1 (hserves.threads u hu).1 rfl hsame' hvectors
    have hmap : (served.map ServedThread.teb).map Teb.threadLocalStoragePointer =
        served.map ServedThread.vector := List.map_map
    rw [← hmap]
    apply hserves.once.map_on
    intro teb hmem teb' hmem' hsame
    obtain ⟨t, ht, rfl⟩ := List.mem_map.mp hmem
    obtain ⟨u, hu, rfl⟩ := List.mem_map.mp hmem'
    exact hteb t ht u hu hsame
  · intro item hitem hmem
    obtain ⟨t, ht, hsame⟩ := List.mem_map.mp hmem
    have honce := h.once (hblock t ht)
    have hthread : 0 < (threadVectors s.process.threads).count (containingTlsVector t.vector) :=
      List.count_pos_iff.mpr (List.mem_map.mpr ⟨t.teb, (hserves.threads t ht).1, rfl⟩)
    have hcopy : containingTlsVector t.vector = item.lpOldTlsVector := by
      rw [hsame, containingTlsVector_moduleTlsData]
    have hqueue : 0 < ((s.process.mmpPostponedTlsList.getD []).flatMap
        (postponedBlocks s.process.mmp.slots)).count (containingTlsVector t.vector) := by
      apply List.count_pos_iff.mpr
      apply List.mem_flatMap.mpr
      refine ⟨item, hitem, ?_⟩
      rw [hcopy]
      exact List.mem_cons_of_mem _ (List.mem_cons_of_mem _ List.mem_cons_self)
    omega

/-- The exchange of the pointers loses none: what the request is left with and what the
vectors hold after it are the blocks of the request and what the vectors held before. -/
theorem Ledger.exchange_conserves {index : Nat} {blocks : List Nat} (h : Ledger start leaked s)
    {served : List ServedThread}
    (hserves : ServesThreads served s.process.mmp.mmpActiveThreadCount.toNat s.process)
    (hindex : index ∈ moduleIndices)
    (hlength : blocks.length = s.process.mmp.mmpActiveThreadCount.toNat)
    (hserved : ∀ t ∈ served, Recorded s.process.mmp.mmpThreadLocalStoragePointer t) {after : TlsProcess}
    (hmmp : SameIndexes s.process.mmp after.mmp) (hthreads : after.threads = s.process.threads)
    (hrecords : after.mmp.mmpThreadLocalStoragePointer =
      s.process.mmp.mmpThreadLocalStoragePointer)
    (hqueue : after.mmpPostponedTlsList = s.process.mmpPostponedTlsList)
    (hslots : after.mmp.slots = (processTlsReplaceIndex served
      (tlsRequest index s.process.mmp.mmpActiveThreadCount.toNat blocks) s.process.mmp.slots).2)
    (b : Nat) :
    (owned after).count b + (leftPointers served
        (tlsRequest index s.process.mmp.mmpActiveThreadCount.toNat blocks) s.process.mmp).count b =
      (owned s.process).count b + blocks.count b := by
  let request := tlsRequest index s.process.mmp.mmpActiveThreadCount.toNat blocks
  let answer := processTlsReplaceIndex served request s.process.mmp.slots
  obtain ⟨hvectors, hcopies⟩ := h.served_vectors hserves
  have hpointers : pointersOf request.threadDataCount request = blocks := by
    have hblocks := tlsRequest_pointers index blocks
    rw [hlength] at hblocks
    exact hblocks
  have hrequest : request.tlsIndex ∈ moduleIndices := hindex
  have hexchange : (pointersOf request.threadDataCount answer.1).count b +
      (s.process.mmp.mmpThreadLocalStoragePointer.flatMap (recordBlocks answer.2)).count b =
        (pointersOf request.threadDataCount request).count b +
          (s.process.mmp.mmpThreadLocalStoragePointer.flatMap
            (recordBlocks s.process.mmp.slots)).count b :=
    processTlsReplaceIndex_conserves h.table.distinct hserved hserves.lt hrequest
      s.process.mmp.slots b
  have hleft : leftPointers served request s.process.mmp =
      pointersOf request.threadDataCount answer.1 :=
    leftPointers_eq hvectors hserves.elements hserved request
  rw [hpointers] at hexchange
  have hkept : ∀ item ∈ s.process.mmpPostponedTlsList.getD [], ∀ k, mmpStartTlsIndex ≤ k →
      answer.2 (moduleTlsData item.lpOldTlsVector) k =
        s.process.mmp.slots (moduleTlsData item.lpOldTlsVector) k := fun item hitem k _ =>
    processTlsReplaceIndex_slots_other served request _ (Or.inr (hcopies item hitem))
  have hitems := postponedBlocks_congr hkept
  have hslots : after.mmp.slots = answer.2 := hslots
  rw [count_owned, count_owned, hthreads, hrecords, hqueue, hslots, hmmp.1, hitems, hleft]
  omega

theorem Ledger.accounts_request {buffer : Nat} {blocks : List Nat}
    (h : Ledger start (leaked ++ buffer :: blocks) s) {b : Nat} (hb : b ≠ 0) :
    s.otherBlocks.count b + (owned s.process).count b + leaked.count b +
      ([buffer].count b + blocks.count b) = s.process.mmp.heap.live.count b := by
  have haccounts := h.accounts b hb
  rw [List.count_append, count_cons_eq] at haccounts
  omega

theorem Ledger.request_unserved {buffer : Nat} {blocks : List Nat}
    (h : Ledger start (leaked ++ buffer :: blocks) s) {heap : Heap}
    (hunused : Heap.Unused s.process.mmp.heap heap) :
    Ledger start leaked { s with process := { s.process with mmp := { s.process.mmp with
      heap := (heap.freeAll blocks).free buffer
      mmpActiveThreadCount := 0 } } } := by
  have hmoves : Moves s.process.mmp.heap ((heap.freeAll blocks).free buffer) []
      (blocks ++ [buffer]) := by
    apply hunused.freed_moves
    intro b hb
    have haccounts := h.accounts_request hb
    rw [List.count_append]
    omega
  have hpaid : ∀ b ≠ 0, (s.process.mmp.mmpTlsList.map TlsEntry.address).count b +
      leaked.count b + (blocks ++ [buffer]).count b =
        (s.process.mmp.mmpTlsList.map TlsEntry.address).count b +
          (leaked ++ buffer :: blocks).count b + ([] : List Nat).count b := by
    intro b _
    rw [List.count_append, List.count_append, count_cons_eq buffer blocks, List.count_nil]
    omega
  exact h.entries (h.registry.congr ⟨rfl, rfl⟩) rfl rfl hmoves hpaid

theorem Ledger.request_served {buffer index : Nat} {blocks : List Nat}
    (h : Ledger start (leaked ++ buffer :: blocks) s) {served : List ServedThread}
    (hserves : ServesThreads served s.process.mmp.mmpActiveThreadCount.toNat s.process)
    (hindex : index ∈ moduleIndices)
    (hlength : blocks.length = s.process.mmp.mmpActiveThreadCount.toNat)
    (hserved : ∀ t ∈ served, Recorded s.process.mmp.mmpThreadLocalStoragePointer t)
    {heap : Heap} (hunused : Heap.Unused s.process.mmp.heap heap) (count : Dword) :
    let request := tlsRequest index s.process.mmp.mmpActiveThreadCount.toNat blocks
    Ledger start leaked { s with process := { s.process with mmp := { s.process.mmp with
      slots := (processTlsReplaceIndex served request s.process.mmp.slots).2
      heap := (heap.freeAll (leftPointers served request s.process.mmp)).free buffer
      mmpActiveThreadCount := count } } } := by
  intro request
  let left := leftPointers served request s.process.mmp
  let after : TlsProcess := { s.process with mmp := { s.process.mmp with
    slots := (processTlsReplaceIndex served request s.process.mmp.slots).2
    heap := (heap.freeAll left).free buffer
    mmpActiveThreadCount := count } }
  have hconserved : ∀ b, (owned after).count b + left.count b =
      (owned s.process).count b + blocks.count b :=
    h.exchange_conserves hserves hindex hlength hserved ⟨rfl, rfl⟩ rfl rfl rfl rfl
  have hmoves : Moves s.process.mmp.heap after.mmp.heap [] (left ++ [buffer]) := by
    apply hunused.freed_moves
    intro b hb
    have haccounts := h.accounts_request hb
    have hsum := hconserved b
    rw [List.count_append]
    omega
  have hntdll : ∀ v, ∀ k < mmpStartTlsIndex,
      after.mmp.slots v k = s.process.mmp.slots v k := fun v k hk =>
    processTlsReplaceIndex_slots_other served request _ (Or.inl (Nat.ne_of_lt
      (Nat.lt_of_lt_of_le hk (mem_moduleIndices.mp hindex).1)))
  change Ledger start leaked ⟨after, s.otherBlocks⟩
  constructor
  · exact h.registry.congr ⟨rfl, rfl⟩
  · exact h.table.congr rfl rfl rfl rfl
  · exact h.data.congr rfl rfl rfl hntdll
  · exact h.queue
  · exact h.items
  · exact hmoves.single h.single
  · exact h.balanced.trans hmoves.balanced
  · intro b hb
    have haccounts := h.accounts_request hb
    have hlive := hmoves.live b hb
    have hsum := hconserved b
    rw [List.count_nil, List.count_append] at hlive
    change s.otherBlocks.count b + (owned after).count b + leaked.count b =
      after.mmp.heap.live.count b
    omega

/-- The request of a load gives back what it took from the heap, and in its place
what the kernel took out of the vectors. -/
theorem Ledger.request {buffer index : Nat} {blocks : List Nat}
    (h : Ledger start (leaked ++ buffer :: blocks) s) {status : NtStatus}
    {served : List ServedThread}
    (hserves : ServesThreads served s.process.mmp.mmpActiveThreadCount.toNat s.process)
    (hindex : index ∈ moduleIndices)
    (hlength : blocks.length = s.process.mmp.mmpActiveThreadCount.toNat)
    (hrecorded : s.process.mmp.heap.grants 1 = true → ntSuccess status = true →
      ∀ t ∈ served, Recorded s.process.mmp.mmpThreadLocalStoragePointer t) :
    let mmp := (requestAndRelease (replaceIndexAnswer status served) index buffer blocks
      s.process.mmp).2
    Ledger start leaked { s with process := { s.process with mmp := mmp } } := by
  obtain ⟨hstart, hlt⟩ := mem_moduleIndices.mp hindex
  intro mmp
  rcases requestAndRelease_cases status served buffer hstart hlt hlength with
    ⟨heap, hunused, _, hrun⟩ | ⟨heap, hunused, hgrant, hstatus, hrun⟩
  · have hmmp : mmp = { s.process.mmp with
        heap := (heap.freeAll blocks).free buffer
        mmpActiveThreadCount := 0 } := hrun
    rw [hmmp]
    exact h.request_unserved hunused
  · have hmmp : mmp = { s.process.mmp with
        slots := (processTlsReplaceIndex served
          (tlsRequest index s.process.mmp.mmpActiveThreadCount.toNat blocks)
          s.process.mmp.slots).2
        heap := (heap.freeAll (leftPointers served
          (tlsRequest index s.process.mmp.mmpActiveThreadCount.toNat blocks)
          s.process.mmp)).free buffer
        mmpActiveThreadCount := s.process.mmp.mmpActiveThreadCount - BitVec.ofNat 32
          ((List.range s.process.mmp.mmpActiveThreadCount.toNat).countP
            fun i => servedFlags served i == 0) } := hrun
    rw [hmmp]
    exact h.request_served hserves hindex hlength (hrecorded hgrant hstatus) hunused _

theorem Ledger.registered (h : Ledger start leaked s) {index entry : Nat} {heap : Heap}
    (hindex : TakesIndex s.process.mmp index entry) (tlsDirectory : ImageTlsDirectory)
    (moduleEntry : Nat) (memory : ByteMemory.Bytes) {taken : List Nat}
    (hmoves : Moves s.process.mmp.heap heap (entry :: taken) []) :
    Ledger start (leaked ++ taken) { s with process := { s.process with
      mmp := registered tlsDirectory moduleEntry index entry heap memory s.process.mmp } } := by
  have hpaid : ∀ b ≠ 0, ((s.process.mmp.mmpTlsList ++
      [(⟨entry, { tlsDirectory with characteristics := index }, moduleEntry⟩ : TlsEntry)]).map
        TlsEntry.address).count b + (leaked ++ taken).count b + ([] : List Nat).count b =
      (s.process.mmp.mmpTlsList.map TlsEntry.address).count b + leaked.count b +
        (entry :: taken).count b := by
    intro b _
    rw [List.map_append, List.count_append, List.count_append, count_cons_eq, List.count_nil]
    change _ + [entry].count b + _ + 0 = _
    omega
  exact h.entries (h.registry.registered tlsDirectory moduleEntry heap memory hindex) rfl rfl
    hmoves hpaid

/-- A load keeps the ledger when every thread that the kernel serves has a record.
The request buffer leaks when a copy is refused. -/
theorem Ledger.load (h : Ledger start leaked s) {status : NtStatus} {served : List ServedThread}
    (hserves : ServesThreads served s.process.mmp.mmpActiveThreadCount.toNat s.process)
    {indexMapped : Bool} {tlsDirectory : Option ImageTlsDirectory} (moduleEntry : Nat)
    (hrecorded : CallsKernel status indexMapped tlsDirectory s.process.mmp →
      ∀ t ∈ served, Recorded s.process.mmp.mmpThreadLocalStoragePointer t) :
    let after := processStep s (.load status served indexMapped tlsDirectory moduleEntry)
    Ledger start leaked after ∨ (∃ buffer, Ledger start (leaked ++ [buffer]) after ∧
      tlsDirectory ≠ none ∧
      s.process.mmp.heap.grants (s.process.mmp.mmpActiveThreadCount.toNat + 2) = false) := by
  have hexits := mmpHandleTlsData_exits (replaceIndexAnswer status served) indexMapped tlsDirectory
    moduleEntry s.process.mmp
  simp only [processStep]
  generalize mmpHandleTlsData (replaceIndexAnswer status served) indexMapped tlsDirectory
    moduleEntry s.process.mmp = result at hexits ⊢
  cases hexits with
  | noDirectory => exact Or.inl h
  | entryRefused hunused =>
    exact Or.inl (h.entries (h.registry.congr ⟨rfl, rfl⟩) rfl rfl hunused.moves fun _ _ => rfl)
  | bufferRefused hindex hgranted hreason =>
    rename_i tlsDirectory index entry heap memory
    have hregistered := h.registered hindex tlsDirectory moduleEntry memory hgranted.moves
    rw [List.append_nil] at hregistered
    exact Or.inl (hregistered.unload moduleEntry)
  | copiesRefused hindex hgranted hfresh hlive hlog hreason =>
    rename_i tlsDirectory index entry buffer heap copies memory fresh
    have hmoves := hgranted.moves.trans (moves_of_returned hlive hlog)
    have hregistered := h.registered hindex tlsDirectory moduleEntry memory hmoves
    exact Or.inr ⟨buffer, hregistered.unload moduleEntry, by simp, hreason⟩
  | called hindex hmapped hlength hgranted hgrants =>
    rename_i tlsDirectory index entry buffer heap memory blocks
    have hmodule : index ∈ moduleIndices :=
      mem_moduleIndices.mpr ⟨h.registry.start_le hindex, hindex.lt⟩
    have hregistered := h.registered hindex tlsDirectory moduleEntry memory hgranted.moves
    apply Or.inl
    apply hregistered.request ⟨hserves.threads, hserves.once, hserves.elements, hserves.lt⟩ hmodule
      hlength
    intro hgrant hstatus
    exact hrecorded (callsKernel_of hindex hmapped hgrants hgrant hstatus tlsDirectory)

end Load

theorem mmpReleaseTlsEntry_freedGone {before : Heap} {state : MmpState} (moduleEntry : Nat)
    (h : FreedGone before state.heap) (hsingle : state.heap.Single) :
    FreedGone before (mmpReleaseTlsEntry moduleEntry state).heap := by
  rcases mmpReleaseTlsEntry_cases moduleEntry state with hrun | ⟨_, e, _, _, _, hrun⟩
  · rw [hrun]
    exact h
  · rw [hrun]
    exact h.freeAll hsingle [e.address]

theorem mmpHandleTlsData_freedGone {state : MmpState} (hregistry : RegistryDescribes state)
    (hsingle : state.heap.Single) (status : NtStatus) (served : List ServedThread)
    (indexMapped : Bool) (tlsDirectory : Option ImageTlsDirectory) (moduleEntry : Nat) :
    FreedGone state.heap (mmpHandleTlsData (replaceIndexAnswer status served) indexMapped
      tlsDirectory moduleEntry state).2.heap := by
  have hexits := mmpHandleTlsData_exits (replaceIndexAnswer status served) indexMapped tlsDirectory
    moduleEntry state
  generalize mmpHandleTlsData (replaceIndexAnswer status served) indexMapped tlsDirectory
    moduleEntry state = result at hexits ⊢
  cases hexits with
  | noDirectory => exact FreedGone.refl state.heap
  | entryRefused hunused => exact (FreedGone.refl state.heap).unused hunused
  | bufferRefused _ hgranted =>
    exact mmpReleaseTlsEntry_freedGone moduleEntry hgranted.freedGone (hgranted.moves.single hsingle)
  | copiesRefused _ hgranted hfresh hlive hlog =>
    exact mmpReleaseTlsEntry_freedGone moduleEntry
      (hgranted.freedGone.returned hfresh hlive hlog)
      ((hgranted.moves.trans (moves_of_returned hlive hlog)).single hsingle)
  | called hindex hmapped hlength hgranted hgrants =>
    rename_i tlsDirectory index entry buffer heap memory blocks
    have hstart := hregistry.start_le hindex
    let taken := registered tlsDirectory moduleEntry index entry heap memory state
    have hlength' : blocks.length = taken.mmpActiveThreadCount.toNat := hlength
    have hcases := requestAndRelease_cases status served buffer hstart hindex.lt hlength'
    have hends : ∀ {request : Heap} (pointers : List Nat), Heap.Unused heap request →
        FreedGone state.heap ((request.freeAll pointers).free buffer) := by
      intro request pointers hunused
      have hgone := hgranted.freedGone.unused hunused
      have hsingle' := hunused.moves.single (hgranted.moves.single hsingle)
      apply (hgone.freeAll hsingle' pointers).freeAll ?_ [buffer]
      intro b hb
      rw [freeAll_live_count request pointers hb]
      exact Nat.le_trans (Nat.sub_le _ _) (hsingle' b hb)
    rcases hcases with ⟨request, hunused, _, hrun⟩ | ⟨request, hunused, _, _, hrun⟩
    · rw [hrun]
      exact hends blocks hunused
    · rw [hrun]
      exact hends _ hunused

end WinPolyfillLoader.MmpTls
