import WinPolyfillLoader.MmpTls.HookExits

/-!
The mapping loop of `HookNtSetInformationProcess` behind a kernel that served
every thread: each element finds the record of the thread that took it.
-/

namespace WinPolyfillLoader.MmpTls

open ProcessHeap

/-- The elements that the kernel gave to the threads of the records: `element`
maps an installed vector to the element its thread took. -/
structure TakesElement (records : List TlspRecord) (element : Nat → Nat) (count : Nat) : Prop where
  lt : ∀ r ∈ records, element r.tlspMmpBlock < count
  inj : ∀ r ∈ records, ∀ r' ∈ records,
    element r.tlspMmpBlock = element r'.tlspMmpBlock → r.tlspMmpBlock = r'.tlspMmpBlock
  nodup : (records.map TlspRecord.tlspMmpBlock).Nodup

/-- The record that took element `j` is where the search of the mapping loop
finds it, and no other record matches. -/
theorem findRecord_cases {records : List TlspRecord} {element : Nat → Nat} {j : Nat}
    {test : TlspRecord → Bool}
    (htest : ∀ r ∈ records, test r = true ↔ element r.tlspMmpBlock = j) :
    (records.findIdx? test = none ∧ ∀ r ∈ records, element r.tlspMmpBlock ≠ j) ∨
    ∃ position record, records.findIdx? test = some position ∧
      records[position]? = some record ∧ record ∈ records ∧ element record.tlspMmpBlock = j := by
  cases hfind : records.findIdx? test with
  | none =>
    refine Or.inl ⟨rfl, ?_⟩
    intro r hr heq
    have hfalse := List.findIdx?_eq_none_iff.mp hfind r hr
    rw [(htest r hr).mpr heq] at hfalse
    cases hfalse
  | some position =>
    obtain ⟨hlt, hmatch, _⟩ := List.findIdx?_eq_some_iff_getElem.mp hfind
    exact Or.inr ⟨position, records[position], rfl, List.getElem?_eq_getElem hlt,
      List.getElem_mem hlt, (htest _ (List.getElem_mem hlt)).mp hmatch⟩

/-- What the mapping loop of `ProcessTlsReplaceVector` starts from: the slots as
the kernel left them, with the pointer of each new vector in the slot of the
thread that took its element. -/
structure ReplacesVectors (records : List TlspRecord) (element : Nat → Nat)
    (request : ProcessTlsInformation) (slots : Slots) : Prop where
  operation : request.operationType = .processTlsReplaceVector
  takes : TakesElement records element request.threadDataCount
  vectors_inj : ∀ i < request.threadDataCount, ∀ j < request.threadDataCount,
    (request.threadData i).tlsPointer = (request.threadData j).tlsPointer → i = j
  vectors_new : ∀ r ∈ records, ∀ i < request.threadDataCount,
    r.tlspMmpBlock ≠ (request.threadData i).tlsPointer
  data_inj : ∀ i < request.threadDataCount, ∀ j < request.threadDataCount,
    slots (request.threadData i).tlsPointer request.tlsIndex =
      slots (request.threadData j).tlsPointer request.tlsIndex → i = j
  exchanged : ∀ r ∈ records, slots r.tlspMmpBlock request.tlsIndex =
    slots (request.threadData (element r.tlspMmpBlock)).tlsPointer request.tlsIndex

/-- A record when the elements below `j` have been handled. -/
def replacedRecord (element : Nat → Nat) (request : ProcessTlsInformation) (j : Nat)
    (r : TlspRecord) : TlspRecord :=
  if element r.tlspMmpBlock < j then
    { r with tlspLdrBlock := (request.threadData (element r.tlspMmpBlock)).tlsPointer }
  else r

theorem replacedRecord_tlspMmpBlock (element : Nat → Nat) (request : ProcessTlsInformation)
    (j : Nat) (r : TlspRecord) :
    (replacedRecord element request j r).tlspMmpBlock = r.tlspMmpBlock := by
  unfold replacedRecord
  split
  · rfl
  · rfl

theorem replacedRecord_succ {element : Nat → Nat} (request : ProcessTlsInformation) {j : Nat}
    {r : TlspRecord} (h : element r.tlspMmpBlock ≠ j) :
    replacedRecord element request (j + 1) r = replacedRecord element request j r := by
  unfold replacedRecord
  have hiff : element r.tlspMmpBlock < j + 1 ↔ element r.tlspMmpBlock < j := by omega
  simp only [hiff]

theorem map_replacedRecord_set {records : List TlspRecord} {element : Nat → Nat} {count : Nat}
    (htakes : TakesElement records element count) (request : ProcessTlsInformation) {j : Nat}
    {position : Nat} {record : TlspRecord} (hrecord : records[position]? = some record)
    (hj : element record.tlspMmpBlock = j) :
    (records.map (replacedRecord element request j)).set position
        { record with tlspLdrBlock := (request.threadData j).tlsPointer } =
      records.map (replacedRecord element request (j + 1)) := by
  obtain ⟨hlt, hget⟩ := List.getElem?_eq_some_iff.mp hrecord
  apply List.ext_getElem (by simp)
  intro q hq hq'
  have hqlt : q < records.length := by simpa using hq'
  rw [List.getElem_set, List.getElem_map, List.getElem_map]
  split
  · rename_i heq
    subst heq
    rw [hget, replacedRecord, if_pos (by omega), hj]
  · rename_i hne
    refine (replacedRecord_succ request ?_).symm
    intro hq'
    have hsame := htakes.inj _ (List.getElem_mem hqlt) _ (List.getElem_mem hlt)
      (by rw [hq', hget, hj])
    have hrecords := List.inj_on_of_nodup_map htakes.nodup (List.getElem_mem hqlt)
      (List.getElem_mem hlt) hsame
    exact hne ((List.Nodup.getElem_inj_iff htakes.nodup.of_map).mp hrecords).symm

/-- The state of the loop when the elements below `j` have been handled. -/
structure VectorsReplaced (records : List TlspRecord) (element : Nat → Nat)
    (request : ProcessTlsInformation) (slots : Slots) (j : Nat) (mapping : Mapping) : Prop where
  operation : mapping.request.operationType = request.operationType
  index : mapping.request.tlsIndex = request.tlsIndex
  replaced : mapping.records = records.map (replacedRecord element request j)
  outside : ∀ v k, (request.tlsIndex ≤ k ∨
    ∀ i < request.threadDataCount, v ≠ (request.threadData i).tlsPointer) →
      mapping.slots v k = slots v k
  copied : ∀ r ∈ records, element r.tlspMmpBlock < j → ∀ k < request.tlsIndex,
    mapping.slots (request.threadData (element r.tlspMmpBlock)).tlsPointer k =
      slots r.tlspMmpBlock k
  pending : ∀ i, j ≤ i → mapping.request.threadData i = request.threadData i
  handedBack : ∀ r ∈ records, element r.tlspMmpBlock < j →
    (mapping.request.threadData (element r.tlspMmpBlock)).tlsPointer = r.tlspLdrBlock
  untaken : ∀ i < j, (∀ r ∈ records, element r.tlspMmpBlock ≠ i) →
    (mapping.request.threadData i).tlsPointer = (request.threadData i).tlsPointer

theorem vectorsReplaced_start (records : List TlspRecord) (element : Nat → Nat)
    (request : ProcessTlsInformation) (slots : Slots) :
    VectorsReplaced records element request slots 0 ⟨request, records, slots⟩ where
  operation := rfl
  index := rfl
  replaced := by
    refine (List.map_id records).symm.trans (List.map_congr_left ?_)
    intro r _
    exact (if_neg (Nat.not_lt_zero _)).symm
  outside := fun _ _ _ => rfl
  copied := fun _ _ h => absurd h (Nat.not_lt_zero _)
  pending := fun _ _ => rfl
  handedBack := fun _ _ h => absurd h (Nat.not_lt_zero _)
  untaken := fun _ h => absurd h (Nat.not_lt_zero _)

section ReplaceVector

variable {records : List TlspRecord} {element : Nat → Nat} {request : ProcessTlsInformation}
  {slots : Slots} {j : Nat} {mapping : Mapping}

/-- The records that the loop edits keep their vectors, so the search still
finds the record that took element `j`. -/
theorem VectorsReplaced.isThreadRecord_iff (hstart : ReplacesVectors records element request slots)
    (hj : j < request.threadDataCount)
    (h : VectorsReplaced records element request slots j mapping) :
    ∀ r ∈ mapping.records,
      isThreadRecord mapping.request mapping.slots j r = true ↔ element r.tlspMmpBlock = j := by
  intro r hr
  obtain ⟨r₀, hr₀, hblock⟩ : ∃ r₀ ∈ records, r.tlspMmpBlock = r₀.tlspMmpBlock := by
    rw [h.replaced] at hr
    obtain ⟨r₀, hr₀, rfl⟩ := List.mem_map.mp hr
    exact ⟨r₀, hr₀, replacedRecord_tlspMmpBlock element request j r₀⟩
  have hop : mapping.request.operationType = .processTlsReplaceVector :=
    h.operation.trans hstart.operation
  have hexchanged := hstart.exchanged r₀ hr₀
  have hlt := hstart.takes.lt r₀ hr₀
  simp only [isThreadRecord, hop, h.index, h.pending j (Nat.le_refl j), hblock, decide_eq_true_eq]
  rw [h.outside _ _ (Or.inl (Nat.le_refl _)), h.outside _ _ (Or.inl (Nat.le_refl _)), hexchanged]
  constructor
  · exact hstart.data_inj _ hlt j hj
  · intro heq
    rw [heq]

theorem VectorsReplaced.step_untaken
    (h : VectorsReplaced records element request slots j mapping) {processHandle : Nat}
    {tls : ProcessTlsInformation}
    (hfind : mapping.records.findIdx? (isThreadRecord mapping.request mapping.slots j) = none)
    (hnone : ∀ r ∈ mapping.records, element r.tlspMmpBlock ≠ j) :
    VectorsReplaced records element request slots (j + 1)
      (remapThread processHandle tls mapping j) := by
  have hcurrent := h.pending j (Nat.le_refl j)
  have hnone' : ∀ r ∈ records, element r.tlspMmpBlock ≠ j := by
    intro r hr
    have hblock := replacedRecord_tlspMmpBlock element request j r
    rw [← hblock]
    exact hnone _ (h.replaced ▸ List.mem_map_of_mem hr)
  have hlt : ∀ r ∈ records, element r.tlspMmpBlock < j + 1 → element r.tlspMmpBlock < j := by
    intro r hr hlt
    have hne := hnone' r hr
    omega
  simp only [remapThread, hfind]
  constructor
  · exact h.operation
  · exact h.index
  · rw [h.replaced]
    exact List.map_congr_left fun r hr => (replacedRecord_succ request (hnone' r hr)).symm
  · exact h.outside
  · intro r hr hr'
    exact h.copied r hr (hlt r hr hr')
  · intro i hi
    exact (Function.update_of_ne (by omega) _ _).trans (h.pending i (by omega))
  · intro r hr hr'
    have hold := hlt r hr hr'
    have hne : element r.tlspMmpBlock ≠ j := by omega
    simp only [ProcessTlsInformation.setThread, Function.update_of_ne hne]
    exact h.handedBack r hr hold
  · intro i hi huntaken
    rcases Nat.lt_succ_iff_lt_or_eq.mp hi with hi | rfl
    · have hne : i ≠ j := by omega
      simp only [ProcessTlsInformation.setThread, Function.update_of_ne hne]
      exact h.untaken i hi huntaken
    · simp only [ProcessTlsInformation.setThread, Function.update_self, hcurrent]

theorem VectorsReplaced.step_taken (hstart : ReplacesVectors records element request slots)
    (hj : j < request.threadDataCount)
    (h : VectorsReplaced records element request slots j mapping) {processHandle : Nat}
    {tls : ProcessTlsInformation} {position : Nat} {record : TlspRecord}
    (hfind : mapping.records.findIdx? (isThreadRecord mapping.request mapping.slots j) =
      some position)
    (hrecord : mapping.records[position]? = some record) (htook : element record.tlspMmpBlock = j) :
    VectorsReplaced records element request slots (j + 1)
      (remapThread processHandle tls mapping j) := by
  have hop : mapping.request.operationType = .processTlsReplaceVector :=
    h.operation.trans hstart.operation
  have hcurrent := h.pending j (Nat.le_refl j)
  obtain ⟨r₀, horiginal, hr₀⟩ : ∃ r₀, records[position]? = some r₀ ∧
      replacedRecord element request j r₀ = record := by
    have hrecord' := hrecord
    rw [h.replaced, List.getElem?_map] at hrecord'
    exact Option.map_eq_some_iff.mp hrecord'
  have hsame : r₀ = record := by
    have htook' : element r₀.tlspMmpBlock = j := by
      rw [← replacedRecord_tlspMmpBlock element request j r₀, hr₀, htook]
    rw [← hr₀, replacedRecord, if_neg (by omega)]
  subst hsame
  have hmem₀ : r₀ ∈ records := List.mem_of_getElem? horiginal
  have htook_iff : ∀ r ∈ records, element r.tlspMmpBlock = j → r = r₀ := by
    intro r hr heq
    exact List.inj_on_of_nodup_map hstart.takes.nodup hr hmem₀
      (hstart.takes.inj r hr r₀ hmem₀ (heq.trans htook.symm))
  simp only [remapThread, hfind, hrecord, remapRecord, hop, hcurrent, h.index]
  constructor
  · exact h.operation
  · exact h.index
  · simp only [h.replaced]
    exact map_replacedRecord_set hstart.takes request horiginal htook
  · intro v k hv
    have hnot : ¬ (v = (request.threadData j).tlsPointer ∧ k < request.tlsIndex) := by
      rintro ⟨rfl, hk⟩
      rcases hv with hge | hne
      · omega
      · exact hne j hj rfl
    exact (copySlots_other _ _ hnot).trans (h.outside v k hv)
  · intro r hr hr' k hk
    rcases Nat.lt_succ_iff_lt_or_eq.mp hr' with hold | heq
    · have hne : (request.threadData (element r.tlspMmpBlock)).tlsPointer ≠
          (request.threadData j).tlsPointer := by
        intro heq
        have := hstart.vectors_inj _ (hstart.takes.lt r hr) j hj heq
        omega
      exact (copySlots_other _ _ fun hboth => hne hboth.1).trans (h.copied r hr hold k hk)
    · have hr₀ := htook_iff r hr heq
      subst hr₀
      rw [heq]
      refine (copySlots_copied _ _ _ hk).trans (h.outside _ _ (Or.inr ?_))
      exact hstart.vectors_new r hr
  · intro i hi
    have hne : i ≠ j := by omega
    simp only [ProcessTlsInformation.setThread, Function.update_of_ne hne]
    exact h.pending i (by omega)
  · intro r hr hr'
    rcases Nat.lt_succ_iff_lt_or_eq.mp hr' with hold | heq
    · have hne : element r.tlspMmpBlock ≠ j := by omega
      simp only [ProcessTlsInformation.setThread, Function.update_of_ne hne]
      exact h.handedBack r hr hold
    · have hr₀ := htook_iff r hr heq
      subst hr₀
      simp only [ProcessTlsInformation.setThread, heq, Function.update_self]
  · intro i hi huntaken
    rcases Nat.lt_succ_iff_lt_or_eq.mp hi with hi | rfl
    · have hne : i ≠ j := by omega
      simp only [ProcessTlsInformation.setThread, Function.update_of_ne hne]
      exact h.untaken i hi huntaken
    · exact absurd htook (huntaken r₀ hmem₀)

theorem VectorsReplaced.step (hstart : ReplacesVectors records element request slots)
    (hj : j < request.threadDataCount)
    (h : VectorsReplaced records element request slots j mapping) (processHandle : Nat)
    (tls : ProcessTlsInformation) :
    VectorsReplaced records element request slots (j + 1)
      (remapThread processHandle tls mapping j) := by
  rcases findRecord_cases (h.isThreadRecord_iff hstart hj) with ⟨hfind, hnone⟩ |
    ⟨position, record, hfind, hrecord, _, htook⟩
  · exact h.step_untaken hfind hnone
  · exact h.step_taken hstart hj hfind hrecord htook

theorem VectorsReplaced.loop (hstart : ReplacesVectors records element request slots)
    (processHandle : Nat) (tls : ProcessTlsInformation) (hj : j ≤ request.threadDataCount) :
    VectorsReplaced records element request slots j
      ((List.range j).foldl (remapThread processHandle tls) ⟨request, records, slots⟩) := by
  induction j with
  | zero => exact vectorsReplaced_start records element request slots
  | succ j ih =>
    rw [List.range_succ, List.foldl_append]
    exact (ih (by omega)).step hstart (by omega) processHandle tls

end ReplaceVector

section ReplaceIndex

/-- What the mapping loop of `ProcessTlsReplaceIndex` starts from. -/
structure ReplacesIndex (records : List TlspRecord) (element : Nat → Nat)
    (request : ProcessTlsInformation) (slots : Slots) : Prop where
  operation : request.operationType = .processTlsReplaceIndex
  takes : TakesElement records element request.threadDataCount
  pointers_inj : ∀ i < request.threadDataCount, ∀ j < request.threadDataCount,
    (request.threadData i).tlsPointer = (request.threadData j).tlsPointer → i = j
  exchanged : ∀ r ∈ records, slots r.tlspMmpBlock request.tlsIndex =
    (request.threadData (element r.tlspMmpBlock)).tlsPointer
  ldr_nodup : (records.map TlspRecord.tlspLdrBlock).Nodup
  ldr_ne_mmp : ∀ r ∈ records, ∀ r' ∈ records, r.tlspLdrBlock ≠ r'.tlspMmpBlock

/-- The state of the loop when the elements below `j` have been handled, for a
request of ntdll. -/
structure IndexReplaced (records : List TlspRecord) (element : Nat → Nat)
    (request : ProcessTlsInformation) (slots : Slots) (j : Nat) (mapping : Mapping) : Prop where
  operation : mapping.request.operationType = request.operationType
  index : mapping.request.tlsIndex = request.tlsIndex
  kept : mapping.records = records
  outside : ∀ v k, (k ≠ request.tlsIndex ∨ ∀ r ∈ records, v ≠ r.tlspLdrBlock) →
    mapping.slots v k = slots v k
  written : ∀ r ∈ records, element r.tlspMmpBlock < j →
    mapping.slots r.tlspLdrBlock request.tlsIndex =
      (request.threadData (element r.tlspMmpBlock)).tlsPointer
  pending : ∀ i, j ≤ i → mapping.request.threadData i = request.threadData i

variable {records : List TlspRecord} {element : Nat → Nat} {request : ProcessTlsInformation}
  {slots : Slots} {j : Nat} {mapping : Mapping}

theorem IndexReplaced.isThreadRecord_iff (hstart : ReplacesIndex records element request slots)
    (hj : j < request.threadDataCount)
    (h : IndexReplaced records element request slots j mapping) :
    ∀ r ∈ mapping.records,
      isThreadRecord mapping.request mapping.slots j r = true ↔ element r.tlspMmpBlock = j := by
  intro r hr
  rw [h.kept] at hr
  have hop : mapping.request.operationType = .processTlsReplaceIndex :=
    h.operation.trans hstart.operation
  have hlt := hstart.takes.lt r hr
  have houtside : ∀ r' ∈ records, r.tlspMmpBlock ≠ r'.tlspLdrBlock := by
    intro r' hr' heq
    exact hstart.ldr_ne_mmp r' hr' r hr heq.symm
  simp only [isThreadRecord, hop, h.index, h.pending j (Nat.le_refl j), decide_eq_true_eq]
  rw [h.outside _ _ (Or.inr houtside), hstart.exchanged r hr]
  constructor
  · exact hstart.pointers_inj _ hlt j hj
  · intro heq
    rw [heq]

theorem IndexReplaced.step (hstart : ReplacesIndex records element request slots)
    (hj : j < request.threadDataCount)
    (h : IndexReplaced records element request slots j mapping) {processHandle : Nat}
    (hhandle : processHandle ≠ 0) (tls : ProcessTlsInformation) :
    IndexReplaced records element request slots (j + 1)
      (remapThread processHandle tls mapping j) := by
  have hop : mapping.request.operationType = .processTlsReplaceIndex :=
    h.operation.trans hstart.operation
  rcases findRecord_cases (h.isThreadRecord_iff hstart hj) with ⟨hfind, hnone⟩ |
    ⟨position, record, hfind, hrecord, hmem, htook⟩
  · simp only [remapThread, hfind]
    constructor
    · exact h.operation
    · exact h.index
    · exact h.kept
    · exact h.outside
    · intro r hr hlt
      have hne := hnone r (h.kept ▸ hr)
      exact h.written r hr (by omega)
    · intro i hi
      exact (Function.update_of_ne (by omega) _ _).trans (h.pending i (by omega))
  · rw [h.kept] at hmem
    have hcurrent := h.pending j (Nat.le_refl j)
    simp only [remapThread, hfind, hrecord, remapRecord, hop, if_pos hhandle, hcurrent, h.index]
    constructor
    · exact h.operation
    · exact h.index
    · exact h.kept
    · intro v k hv
      have hnot : ¬ (v = record.tlspLdrBlock ∧ k = request.tlsIndex) := by
        rintro ⟨rfl, rfl⟩
        rcases hv with hne | hne
        · exact hne rfl
        · exact hne record hmem rfl
      exact (writeSlot_other _ _ hnot).trans (h.outside v k hv)
    · intro r hr hlt
      rcases Nat.lt_succ_iff_lt_or_eq.mp hlt with hold | heq
      · have hne : r.tlspLdrBlock ≠ record.tlspLdrBlock := by
          intro heq
          have hsame := List.inj_on_of_nodup_map hstart.ldr_nodup hr hmem heq
          rw [hsame] at hold
          omega
        exact (writeSlot_other _ _ fun hboth => hne hboth.1).trans (h.written r hr hold)
      · have hsame : r = record := List.inj_on_of_nodup_map hstart.takes.nodup hr hmem
          (hstart.takes.inj r hr record hmem (heq.trans htook.symm))
        rw [hsame, htook]
        exact writeSlot_self _ _ _ _
    · intro i hi
      have hne : i ≠ j := by omega
      simp only [ProcessTlsInformation.setThread, Function.update_of_ne hne]
      exact h.pending i (by omega)

theorem IndexReplaced.loop (hstart : ReplacesIndex records element request slots)
    {processHandle : Nat} (hhandle : processHandle ≠ 0) (tls : ProcessTlsInformation)
    (hj : j ≤ request.threadDataCount) :
    IndexReplaced records element request slots j
      ((List.range j).foldl (remapThread processHandle tls) ⟨request, records, slots⟩) := by
  induction j with
  | zero =>
    exact ⟨rfl, rfl, rfl, fun _ _ _ => rfl, fun _ _ h => absurd h (Nat.not_lt_zero _),
      fun _ _ => rfl⟩
  | succ j ih =>
    rw [List.range_succ, List.foldl_append]
    exact (ih (by omega)).step hstart (by omega) hhandle tls

end ReplaceIndex

end WinPolyfillLoader.MmpTls
