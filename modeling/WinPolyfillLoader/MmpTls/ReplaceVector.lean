import WinPolyfillLoader.MmpTls.OwnershipSteps

/-!
The request `ProcessTlsReplaceVector` as the kernel carries it out: each thread
it serves takes the vector of one element, with a copy of the slots it had, and
leaves its own vector in the element.
-/

namespace WinPolyfillLoader.MmpTls

open ProcessHeap

/-- The request, the vectors and the pointers of the threads. -/
abbrev ReplacedVectors := ProcessTlsInformation × Slots × List Teb

def replaceVector (answer : ReplacedVectors) (s : ServedThread) : ReplacedVectors :=
  let (tls, slots, threads) := answer
  let vector := (tls.threadData s.element).tlsPointer
  (tls.setThread s.element ⟨s.flags, s.vector, s.teb.clientId⟩,
    copySlots slots vector s.vector tls.tlsIndex,
    setThreadPointer threads s.teb.clientId vector)

def processTlsReplaceVector (served : List ServedThread) (tls : ProcessTlsInformation)
    (slots : Slots) (threads : List Teb) : ReplacedVectors :=
  served.foldl replaceVector (tls, slots, threads)

def replaceVectorAnswer (status : NtStatus) (served : List ServedThread) :
    ReplaceVectorAnswer where
  status := status
  effect := processTlsReplaceVector served

theorem processTlsReplaceVector_cons (s : ServedThread) (served : List ServedThread)
    (tls : ProcessTlsInformation) (slots : Slots) (threads : List Teb) :
    processTlsReplaceVector (s :: served) tls slots threads =
      processTlsReplaceVector served
        (tls.setThread s.element ⟨s.flags, s.vector, s.teb.clientId⟩)
        (copySlots slots (tls.threadData s.element).tlsPointer s.vector tls.tlsIndex)
        (setThreadPointer threads s.teb.clientId (tls.threadData s.element).tlsPointer) := rfl

theorem processTlsReplaceVector_ids (served : List ServedThread) (tls : ProcessTlsInformation)
    (slots : Slots) (threads : List Teb) :
    (processTlsReplaceVector served tls slots threads).2.2.map Teb.clientId =
      threads.map Teb.clientId := by
  induction served generalizing tls slots threads with
  | nil => rfl
  | cons s served ih =>
    rw [processTlsReplaceVector_cons, ih]
    exact setThreadPointer_ids threads _ _

theorem processTlsReplaceVector_element_other (served : List ServedThread)
    (tls : ProcessTlsInformation) (slots : Slots) (threads : List Teb) {i : Nat}
    (h : i ∉ served.map ServedThread.element) :
    (processTlsReplaceVector served tls slots threads).1.threadData i = tls.threadData i := by
  induction served generalizing tls slots threads with
  | nil => rfl
  | cons s served ih =>
    rw [List.map_cons, List.mem_cons, not_or] at h
    rw [processTlsReplaceVector_cons, ih _ _ _ h.2]
    exact Function.update_of_ne h.1 _ _

theorem processTlsReplaceVector_slots_other (served : List ServedThread)
    (tls : ProcessTlsInformation) (slots : Slots) (threads : List Teb) (v : Nat) {k : Nat}
    (hk : tls.tlsIndex ≤ k) :
    (processTlsReplaceVector served tls slots threads).2.1 v k = slots v k := by
  induction served generalizing tls slots threads with
  | nil => rfl
  | cons s served ih =>
    rw [processTlsReplaceVector_cons, ih]
    · exact copySlots_other slots _ fun h => Nat.not_lt_of_le hk h.2
    · exact hk

theorem processTlsReplaceVector_slots_mem {n : Nat} {vectors data : List Nat}
    {served : List ServedThread} (hserved : ∀ s ∈ served, s.vector ∈ vectors)
    {tls : ProcessTlsInformation} (hlength : tls.tlsIndex ≤ n) {slots : Slots}
    (hslots : ∀ v ∈ vectors, ∀ k < n, slots v k ≠ 0 → slots v k ∈ data) (threads : List Teb) :
    let slots' := (processTlsReplaceVector served tls slots threads).2.1
    ∀ v ∈ vectors, ∀ k < n, slots' v k ≠ 0 → slots' v k ∈ data := by
  induction served generalizing tls slots threads with
  | nil => exact hslots
  | cons s served ih =>
    rw [processTlsReplaceVector_cons]
    apply ih
    · exact fun u hu => hserved u (List.mem_cons_of_mem _ hu)
    · exact hlength
    · intro v hv k hk
      simp only [copySlots]
      split
      · exact hslots s.vector (hserved s List.mem_cons_self) k hk
      · exact hslots v hv k hk

/-- Each thread is served with the vector that it has when the request is made. -/
structure ServedTebs (served : List ServedThread) (threads : List Teb) : Prop where
  ids : (threads.map Teb.clientId).Nodup
  mem : ∀ s ∈ served, s.teb ∈ threads ∧ s.vector ≠ 0
  once : (served.map ServedThread.teb).Nodup

theorem ServedTebs.pointer {served : List ServedThread} {threads : List Teb}
    (h : ServedTebs served threads) {s : ServedThread} (hs : s ∈ served) :
    threadPointer threads s.teb.clientId = s.vector :=
  threadPointer_of_mem h.ids (h.mem s hs).1

/-- Once one thread has its vector, the others still have theirs. -/
theorem ServedTebs.tail {s : ServedThread} {served : List ServedThread} {threads : List Teb}
    (h : ServedTebs (s :: served) threads) (vector : Nat) :
    ServedTebs served (setThreadPointer threads s.teb.clientId vector) := by
  obtain ⟨hnew, hrest⟩ := List.nodup_cons.mp h.once
  constructor
  · rw [setThreadPointer_ids]
    exact h.ids
  · intro u hu
    obtain ⟨hmem, hptr⟩ := h.mem u (List.mem_cons_of_mem _ hu)
    refine ⟨mem_setThreadPointer_other vector hmem ?_, hptr⟩
    intro hid
    have hsame := List.inj_on_of_nodup_map h.ids hmem (h.mem s List.mem_cons_self).1 hid
    exact hnew (hsame ▸ List.mem_map_of_mem hu)
  · exact hrest

theorem processTlsReplaceVector_thread_other (served : List ServedThread)
    (tls : ProcessTlsInformation) (slots : Slots) {threads : List Teb} {teb : Teb}
    (hteb : teb ∈ threads) (h : ∀ s ∈ served, teb.clientId ≠ s.teb.clientId) :
    teb ∈ (processTlsReplaceVector served tls slots threads).2.2 := by
  induction served generalizing tls slots threads with
  | nil => exact hteb
  | cons s served ih =>
    rw [processTlsReplaceVector_cons]
    apply ih
    · exact mem_setThreadPointer_other _ hteb (h s List.mem_cons_self)
    · exact fun u hu => h u (List.mem_cons_of_mem _ hu)

/-- A served thread leaves its vector in its element and has the one that the
element carried. -/
theorem processTlsReplaceVector_served {served : List ServedThread} {threads : List Teb}
    (h : ServedTebs served threads) (helements : (served.map ServedThread.element).Nodup)
    (tls : ProcessTlsInformation) (slots : Slots) {s : ServedThread} (hs : s ∈ served) :
    let answer := processTlsReplaceVector served tls slots threads
    answer.1.threadData s.element = ⟨s.flags, s.vector, s.teb.clientId⟩ ∧
      ⟨s.teb.clientId, (tls.threadData s.element).tlsPointer⟩ ∈ answer.2.2 := by
  induction served generalizing tls slots threads with
  | nil => cases hs
  | cons first served ih =>
    obtain ⟨helement, helements'⟩ := List.nodup_cons.mp helements
    have htail := h.tail (tls.threadData first.element).tlsPointer
    rw [processTlsReplaceVector_cons]
    rcases List.mem_cons.mp hs with rfl | hs
    · constructor
      · rw [processTlsReplaceVector_element_other _ _ _ _ helement]
        exact Function.update_self _ _ _
      · have hpointer : threadPointer threads s.teb.clientId ≠ 0 := by
          rw [h.pointer List.mem_cons_self]
          exact (h.mem s List.mem_cons_self).2
        apply processTlsReplaceVector_thread_other
        · exact mem_setThreadPointer_self _ hpointer
        · intro u hu hid
          have hmem := (h.mem u (List.mem_cons_of_mem _ hu)).1
          have hsame := List.inj_on_of_nodup_map h.ids (h.mem s List.mem_cons_self).1 hmem hid
          exact (List.nodup_cons.mp h.once).1 (hsame ▸ List.mem_map_of_mem hu)
    · have hne : s.element ≠ first.element := fun heq => helement (heq ▸ List.mem_map_of_mem hs)
      have hrest := ih htail helements'
        (tls.setThread first.element ⟨first.flags, first.vector, first.teb.clientId⟩)
        (copySlots slots (tls.threadData first.element).tlsPointer first.vector tls.tlsIndex) hs
      have hthread : (tls.setThread first.element
          ⟨first.flags, first.vector, first.teb.clientId⟩).threadData s.element =
            tls.threadData s.element := Function.update_of_ne hne _ _
      rw [hthread] at hrest
      exact hrest

/-- The threads afterwards: those that were not served, and the served ones with
their new vectors. -/
theorem mem_processTlsReplaceVector {served : List ServedThread} {threads : List Teb}
    (h : ServedTebs served threads) (helements : (served.map ServedThread.element).Nodup)
    {tls : ProcessTlsInformation} {slots : Slots} {teb : Teb}
    (hteb : teb ∈ (processTlsReplaceVector served tls slots threads).2.2) :
    (teb ∈ threads ∧ ∀ s ∈ served, s.teb.clientId ≠ teb.clientId) ∨
      ∃ s ∈ served, teb = ⟨s.teb.clientId, (tls.threadData s.element).tlsPointer⟩ := by
  induction served generalizing tls slots threads with
  | nil => exact Or.inl ⟨hteb, by simp⟩
  | cons first served ih =>
    obtain ⟨helement, helements'⟩ := List.nodup_cons.mp helements
    rw [processTlsReplaceVector_cons] at hteb
    rcases ih (h.tail _) helements' hteb with ⟨hmem, hnot⟩ | ⟨s, hs, rfl⟩
    · rcases mem_setThreadPointer hmem with rfl | ⟨hold, hid⟩
      · exact Or.inr ⟨first, List.mem_cons_self, rfl⟩
      · refine Or.inl ⟨hold, ?_⟩
        intro s hs
        rcases List.mem_cons.mp hs with rfl | hs
        · exact Ne.symm hid
        · exact hnot s hs
    · have hne : s.element ≠ first.element := fun heq => helement (heq ▸ List.mem_map_of_mem hs)
      refine Or.inr ⟨s, List.mem_cons_of_mem _ hs, ?_⟩
      have hthread : (tls.setThread first.element
          ⟨first.flags, first.vector, first.teb.clientId⟩).threadData s.element =
            tls.threadData s.element := Function.update_of_ne hne _ _
      rw [hthread]

/-- The blocks of the vectors in the first `n` elements. -/
def elementVectors (n : Nat) (tls : ProcessTlsInformation) : List Nat :=
  (List.range n).map fun i => containingTlsVector (tls.threadData i).tlsPointer

/-- The request and the threads hold together the vectors they held before. -/
theorem processTlsReplaceVector_conserves {n : Nat} {served : List ServedThread}
    {threads : List Teb} (h : ServedTebs served threads) (hlt : ∀ s ∈ served, s.element < n)
    (tls : ProcessTlsInformation) (slots : Slots) (b : Nat) :
    let answer := processTlsReplaceVector served tls slots threads
    (elementVectors n answer.1).count b + (threadVectors answer.2.2).count b =
      (elementVectors n tls).count b + (threadVectors threads).count b := by
  induction served generalizing tls slots threads with
  | nil => rfl
  | cons s served ih =>
    let given := (tls.threadData s.element).tlsPointer
    let next := tls.setThread s.element ⟨s.flags, s.vector, s.teb.clientId⟩
    have hpointer : threadPointer threads s.teb.clientId = s.vector := h.pointer List.mem_cons_self
    have hthreads := count_threadVectors_set h.ids
      (hpointer ▸ (h.mem s List.mem_cons_self).2 : threadPointer threads s.teb.clientId ≠ 0) given b
    rw [hpointer] at hthreads
    have helements : (elementVectors n next).count b + [containingTlsVector given].count b =
        (elementVectors n tls).count b + [containingTlsVector s.vector].count b := by
      have hother : ∀ j ∈ List.range n, j ≠ s.element →
          containingTlsVector (next.threadData j).tlsPointer =
            containingTlsVector (tls.threadData j).tlsPointer := by
        intro j _ hne
        have hsame : next.threadData j = tls.threadData j := Function.update_of_ne hne _ _
        rw [hsame]
      have hexchange := count_map_exchange
        (v := fun i => containingTlsVector (tls.threadData i).tlsPointer)
        (w := fun i => containingTlsVector (next.threadData i).tlsPointer) List.nodup_range
        (List.mem_range.mpr (hlt s List.mem_cons_self)) hother b
      have hself : next.threadData s.element = ⟨s.flags, s.vector, s.teb.clientId⟩ :=
        Function.update_self _ _ _
      rw [hself] at hexchange
      exact hexchange
    have hrest := ih (h.tail given) (fun u hu => hlt u (List.mem_cons_of_mem _ hu)) next
      (copySlots slots given s.vector tls.tlsIndex)
    intro answer
    change (elementVectors n answer.1).count b + (threadVectors answer.2.2).count b = _ at hrest
    omega

end WinPolyfillLoader.MmpTls
