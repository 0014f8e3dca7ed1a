import WinPolyfillLoader.MmpTls.Threads

/-!
The request `ProcessTlsReplaceIndex` as the kernel carries it out: each thread it
serves takes one element, and the slot of the thread and the pointer of the
element are exchanged.
-/

namespace WinPolyfillLoader.MmpTls

/-- A thread that the kernel serves, the element it takes and the `Flags` it
leaves there. -/
structure ServedThread where
  teb : Teb
  element : Nat
  flags : Dword
deriving DecidableEq, Repr

/-- The vector that is installed in the thread. -/
abbrev ServedThread.vector (s : ServedThread) : Nat := s.teb.threadLocalStoragePointer

def serveThread (answer : ProcessTlsInformation × Slots) (s : ServedThread) :
    ProcessTlsInformation × Slots :=
  let (tls, slots) := answer
  (tls.setThread s.element ⟨s.flags, slots s.vector tls.tlsIndex, s.teb.clientId⟩,
    writeSlot slots s.vector tls.tlsIndex (tls.threadData s.element).tlsPointer)

def processTlsReplaceIndex (served : List ServedThread) (tls : ProcessTlsInformation)
    (slots : Slots) : ProcessTlsInformation × Slots :=
  served.foldl serveThread (tls, slots)

def replaceIndexAnswer (status : NtStatus) (served : List ServedThread) : KernelAnswer where
  status := status
  effect := fun _ tls slots => processTlsReplaceIndex served tls slots

theorem processTlsReplaceIndex_cons (s : ServedThread) (served : List ServedThread)
    (tls : ProcessTlsInformation) (slots : Slots) :
    processTlsReplaceIndex (s :: served) tls slots =
      processTlsReplaceIndex served
        (tls.setThread s.element ⟨s.flags, slots s.vector tls.tlsIndex, s.teb.clientId⟩)
        (writeSlot slots s.vector tls.tlsIndex (tls.threadData s.element).tlsPointer) := rfl

/-- The kernel keeps the kind, the size and the index of the request. -/
theorem processTlsReplaceIndex_request (served : List ServedThread) (tls : ProcessTlsInformation)
    (slots : Slots) :
    let result := processTlsReplaceIndex served tls slots
    result.1.operationType = tls.operationType ∧
      result.1.threadDataCount = tls.threadDataCount ∧ result.1.tlsIndex = tls.tlsIndex := by
  induction served generalizing tls slots with
  | nil => exact ⟨rfl, rfl, rfl⟩
  | cons s served ih =>
    rw [processTlsReplaceIndex_cons]
    exact ih _ _

/-- Only the slot of the request in the served vectors is written. -/
theorem processTlsReplaceIndex_slots_other (served : List ServedThread)
    (tls : ProcessTlsInformation) (slots : Slots) {v k : Nat}
    (h : k ≠ tls.tlsIndex ∨ v ∉ served.map ServedThread.vector) :
    (processTlsReplaceIndex served tls slots).2 v k = slots v k := by
  induction served generalizing tls slots with
  | nil => rfl
  | cons s served ih =>
    have hrest : k ≠ tls.tlsIndex ∨ v ∉ served.map ServedThread.vector :=
      h.imp_right fun hnot hmem => hnot (List.mem_cons_of_mem _ hmem)
    have hfirst : ¬ (v = s.vector ∧ k = tls.tlsIndex) := by
      rintro ⟨rfl, rfl⟩
      rcases h with hk | hv
      · exact hk rfl
      · exact hv List.mem_cons_self
    rw [processTlsReplaceIndex_cons]
    exact (ih (tls.setThread s.element _) _ hrest).trans (writeSlot_other slots _ hfirst)

theorem processTlsReplaceIndex_element_other (served : List ServedThread)
    (tls : ProcessTlsInformation) (slots : Slots) {i : Nat}
    (h : i ∉ served.map ServedThread.element) :
    (processTlsReplaceIndex served tls slots).1.threadData i = tls.threadData i := by
  induction served generalizing tls slots with
  | nil => rfl
  | cons s served ih =>
    rw [List.map_cons, List.mem_cons, not_or] at h
    rw [processTlsReplaceIndex_cons]
    exact (ih _ _ h.2).trans (Function.update_of_ne h.1 _ _)

/-- The `Flags` that the kernel leaves in element `i` of a zeroed request. -/
def servedFlags (served : List ServedThread) (i : Nat) : Dword :=
  served.foldl (fun flags s => if s.element = i then s.flags else flags) 0

theorem servedFlags_eq (served : List ServedThread) (tls : ProcessTlsInformation) (slots : Slots)
    (i : Nat) : ((processTlsReplaceIndex served tls slots).1.threadData i).flags =
      served.foldl (fun flags s => if s.element = i then s.flags else flags)
        (tls.threadData i).flags := by
  induction served generalizing tls slots with
  | nil => rfl
  | cons s served ih =>
    rw [processTlsReplaceIndex_cons, ih, List.foldl_cons]
    congr 1
    simp only [ProcessTlsInformation.setThread]
    rcases Decidable.em (s.element = i) with rfl | hne
    · rw [Function.update_self, if_pos rfl]
    · rw [Function.update_of_ne (Ne.symm hne), if_neg hne]

theorem processTlsReplaceIndex_served {served : List ServedThread}
    (hvectors : (served.map ServedThread.vector).Nodup)
    (helements : (served.map ServedThread.element).Nodup) (tls : ProcessTlsInformation)
    (slots : Slots) {s : ServedThread} (hs : s ∈ served) :
    let result := processTlsReplaceIndex served tls slots
    result.1.threadData s.element = ⟨s.flags, slots s.vector tls.tlsIndex, s.teb.clientId⟩ ∧
      result.2 s.vector tls.tlsIndex = (tls.threadData s.element).tlsPointer := by
  induction served generalizing tls slots with
  | nil => cases hs
  | cons first served ih =>
    obtain ⟨hvector, hvectors'⟩ := List.nodup_cons.mp hvectors
    obtain ⟨helement, helements'⟩ := List.nodup_cons.mp helements
    rw [processTlsReplaceIndex_cons]
    rcases List.mem_cons.mp hs with rfl | hs
    · constructor
      · exact (processTlsReplaceIndex_element_other served _ _ helement).trans
          (Function.update_self _ _ _)
      · exact (processTlsReplaceIndex_slots_other served (tls.setThread s.element _) _
          (Or.inr hvector)).trans (writeSlot_self slots _ _ _)
    · have hne : s.vector ≠ first.vector := fun heq => hvector (heq ▸ List.mem_map_of_mem hs)
      have hne' : s.element ≠ first.element := fun heq => helement (heq ▸ List.mem_map_of_mem hs)
      obtain ⟨hdata, hslot⟩ := ih hvectors' helements'
        (tls.setThread first.element
          ⟨first.flags, slots first.vector tls.tlsIndex, first.teb.clientId⟩)
        (writeSlot slots first.vector tls.tlsIndex (tls.threadData first.element).tlsPointer) hs
      have hslots : writeSlot slots first.vector tls.tlsIndex
          (tls.threadData first.element).tlsPointer s.vector tls.tlsIndex =
            slots s.vector tls.tlsIndex := writeSlot_other slots _ fun h => hne h.1
      have hthread : (tls.setThread first.element
          ⟨first.flags, slots first.vector tls.tlsIndex, first.teb.clientId⟩).threadData s.element =
            tls.threadData s.element := Function.update_of_ne hne' _ _
      constructor
      · exact hdata.trans (by rw [← hslots]; rfl)
      · exact hslot.trans (by rw [hthread])

end WinPolyfillLoader.MmpTls
