import WinPolyfillLoader.MmpTls.ReplaceVector

/-!
What the answer of `PreHookNtSetInformationProcess` says. `MmpTlsInitialize`
installs the hooks when it is true, yet it is also true when the buffer of the
request was refused and when the kernel refused the request.
-/

namespace WinPolyfillLoader.MmpTls

open ProcessHeap

/-- The request for `n` threads is made, and the kernel carries it out. -/
def CarriedOut (status : NtStatus) (n : Nat) (before : TlsProcess) : Prop :=
  before.mmp.heap.grants (n + 1) = true ∧ ntSuccess status = true

/-- For each thread that was served there is just one new record of the vector
that it has now, and it names the vector that was replaced. -/
def RecordsServed (served : List ServedThread) (before after : TlsProcess) : Prop :=
  ∃ records, after.mmp.mmpThreadLocalStoragePointer =
      before.mmp.mmpThreadLocalStoragePointer ++ records ∧
    ∀ s ∈ served, (records.filter fun r =>
        decide (r.tlspMmpBlock = threadPointer after.threads s.teb.clientId)).map
      TlspRecord.tlspLdrBlock = [threadPointer before.threads s.teb.clientId]

/-- True means that the vectors are installed and recorded, false that there is
no new record and that every block was freed. -/
def ReportsInstallation (status : NtStatus) (served : List ServedThread) (n : Nat)
    (before : TlsProcess) : Except NtStatus (Bool × TlsProcess) → Prop
  | .ok (true, after) => CarriedOut status n before ∧ RecordsServed served before after
  | .ok (false, after) =>
      after.mmp.mmpThreadLocalStoragePointer = before.mmp.mmpThreadLocalStoragePointer ∧
        after.threads = before.threads ∧ FreedOnce (Heap.since before.mmp.heap after.mmp.heap)
  | .error _ => False

/-- The threads that the kernel serves take different elements of the request. -/
structure ServesElements (served : List ServedThread) (threads : List Teb) (n : Nat) : Prop where
  tebs : ServedTebs served threads
  elements : (served.map ServedThread.element).Nodup
  lt : ∀ s ∈ served, s.element < n

theorem freedOnce_of_perm {blocks freed : List Nat} (h : freed.Perm blocks) :
    FreedOnce (blocks.map .alloc ++ freed.map .free) := by
  intro block _
  obtain ⟨halloc, hfree⟩ := count_map_alloc blocks block
  obtain ⟨hfree', halloc'⟩ := count_map_free freed block
  rw [List.count_append, List.count_append, halloc, hfree, hfree', halloc', h.count_eq,
    Nat.zero_add, Nat.add_zero]

theorem filter_range_eq {n j : Nat} (hj : j < n) {β : Type} [DecidableEq β] {f : Nat → β}
    (hinj : ∀ i < n, f i = f j → i = j) :
    (List.range n).filter (fun i => decide (f i = f j)) = [j] := by
  have hsame : (List.range n).filter (fun i => decide (f i = f j)) =
      (List.range n).filter (fun i => i == j) := by
    apply List.filter_congr
    intro i hi
    have hi' := hinj i (List.mem_range.mp hi)
    rw [Bool.eq_iff_iff, decide_eq_true_eq, beq_iff_eq]
    exact ⟨hi', congrArg f⟩
  rw [hsame, List.filter_beq, List.count_eq_one_of_mem List.nodup_range (List.mem_range.mpr hj)]
  rfl

theorem vectorRequest_injective {length n : Nat} {vectors : List Nat} (hlength : vectors.length = n)
    (hnodup : vectors.Nodup) {i j : Nat} (hi : i < n) (hj : j < n)
    (h : ((vectorRequest length n vectors).threadData i).tlsPointer =
      ((vectorRequest length n vectors).threadData j).tlsPointer) : i = j := by
  have hi' : i < vectors.length := by omega
  have hj' : j < vectors.length := by omega
  have hblock : vectors[i] = vectors[j] := by
    simpa [vectorRequest, List.getElem?_eq_getElem, hi', hj', moduleTlsData] using h
  exact hnodup.getElem_inj_iff.mp hblock

/-- The records of all elements hold one for each thread that was served. -/
theorem recordsServed_of_fields {served : List ServedThread} {n length : Nat}
    {vectors : List Nat} {records : List TlspRecord} {before after ready : TlsProcess}
    (hserves : ServesElements served before.threads n) (hlength : vectors.length = n)
    (hnodup : vectors.Nodup) (hready : ready.threads = before.threads)
    (hthreads : after.threads = (processTlsReplaceVector served
      (vectorRequest length n vectors) ready.mmp.slots ready.threads).2.2)
    (hrecords : after.mmp.mmpThreadLocalStoragePointer =
      before.mmp.mmpThreadLocalStoragePointer ++ records)
    (hfields : records.map TlspRecord.fields = (List.range n).map (fun i =>
      let tls := (processTlsReplaceVector served (vectorRequest length n vectors) ready.mmp.slots
        ready.threads).1
      ((tls.threadData i).threadId, (tls.threadData i).tlsPointer,
        ((vectorRequest length n vectors).threadData i).tlsPointer))) :
    RecordsServed served before after := by
  refine ⟨records, hrecords, ?_⟩
  intro s hs
  let request := vectorRequest length n vectors
  have hj := hserves.lt s hs
  have htebs : ServedTebs served ready.threads := hready ▸ hserves.tebs
  obtain ⟨helement, hthread⟩ := processTlsReplaceVector_served htebs hserves.elements request
    ready.mmp.slots hs
  have hinstalled : threadPointer after.threads s.teb.clientId =
      (request.threadData s.element).tlsPointer := by
    rw [hthreads]
    apply threadPointer_of_mem _ hthread
    rw [processTlsReplaceVector_ids]
    exact htebs.ids
  have hreplaced : threadPointer before.threads s.teb.clientId = s.vector :=
    hserves.tebs.pointer hs
  have hfilter : (records.filter fun r =>
        decide (r.tlspMmpBlock = threadPointer after.threads s.teb.clientId)).map
      TlspRecord.tlspLdrBlock = ((records.map TlspRecord.fields).filter fun fields =>
        decide (fields.2.2 = (request.threadData s.element).tlsPointer)).map (fun fields =>
          fields.2.1) := by
    rw [List.filter_map, List.map_map, hinstalled]
    rfl
  have hone : (List.range n).filter (fun i => decide ((request.threadData i).tlsPointer =
      (request.threadData s.element).tlsPointer)) = [s.element] := by
    apply filter_range_eq hj
    exact fun i hi heq => vectorRequest_injective hlength hnodup hi hj heq
  rw [hfilter, hfields, List.filter_map, List.map_map, hreplaced]
  change ((List.range n).filter (fun i => decide ((request.threadData i).tlsPointer =
      (request.threadData s.element).tlsPointer))).map _ = _
  rw [hone, List.map_singleton]
  simp only [Function.comp]
  rw [helement]

/-- The bootstrap reports what it did if and only if its buffer is granted, and
either a vector is refused or both the kernel and all the records agree. -/
theorem preHookNtSetInformationProcess_reports_iff (status : NtStatus)
    {served : List ServedThread} {spi : Option (List SystemThread)} (clientId : Nat)
    {process : TlsProcess}
    (hserves : ntSuccess status = true →
      ServesElements served process.threads (mmpGetThreadCount spi).toNat) :
    let n := (mmpGetThreadCount spi).toNat
    ReportsInstallation status served n process
        (preHookNtSetInformationProcess (replaceVectorAnswer status served) spi clientId process) ↔
      process.mmp.heap.grants 1 = true ∧
        (process.mmp.heap.grants (n + 1) = false ∨
          (ntSuccess status = true ∧ process.mmp.heap.grants (n + n + 1) = true)) := by
  intro n
  have hrun := preHookNtSetInformationProcess_runs (replaceVectorAnswer status served) spi clientId
    process
  generalize preHookNtSetInformationProcess (replaceVectorAnswer status served) spi clientId
    process = result at hrun ⊢
  cases hrun with
  | unbuffered hgrants hheap =>
    apply iff_of_false
    · rintro ⟨⟨hall, _⟩, _⟩
      rw [grants_of_le (Nat.succ_le_succ (Nat.zero_le n)) hall] at hgrants
      cases hgrants
    · rintro ⟨hone, _⟩
      rw [hone] at hgrants
      cases hgrants
  | withdrawn hbuffer hgrants hglobals hthreads hlog =>
    apply iff_of_true
    · obtain ⟨slots, heap, hglobals⟩ := hglobals
      refine ⟨by rw [hglobals], hthreads, ?_⟩
      rw [since_eq hlog]
      exact freedOnce_of_perm List.perm_append_comm
    · exact ⟨hbuffer, Or.inl hgrants⟩
  | refused hgrants hkernel hvectors hheap =>
    apply iff_of_false
    · rintro ⟨⟨_, hsuccess⟩, _⟩
      cases hkernel.symm.trans hsuccess
    · rintro ⟨_, hrefused | ⟨hsuccess, _⟩⟩
      · cases hgrants.symm.trans hrefused
      · cases hkernel.symm.trans hsuccess
  | faulted hgrants hkernel hrefused =>
    apply iff_of_false
    · exact id
    · rintro ⟨_, hvector | ⟨_, hrecord⟩⟩
      · cases hgrants.symm.trans hvector
      · cases hrefused.symm.trans hrecord
  | recorded hgrants hkernel hallocated hvectors hlength hnodup hne hheap hfields =>
    apply iff_of_true
    · obtain ⟨slots, heap, hglobals⟩ := hvectors.globals
      refine ⟨⟨grants_of_le (by omega) hgrants, hkernel⟩, ?_⟩
      exact recordsServed_of_fields (hserves hkernel) hlength hnodup hvectors.threads rfl
        (by rw [hglobals]) hfields
    · exact ⟨grants_of_le (by omega) hgrants, Or.inr ⟨hkernel, hgrants⟩⟩

theorem servesElements_oneThread :
    ServesElements [⟨⟨4, 0x1010⟩, 0, 1⟩] (oneThread []).threads 1 where
  tebs := ⟨by decide, by decide, by decide⟩
  elements := by decide
  lt := by decide

theorem preHookNtSetInformationProcess_reports_oneThread :
    let process := oneThread [some 0x5000, some 0x6000, some 0x7000]
    let result := preHookNtSetInformationProcess (replaceVectorAnswer statusSuccess
      [⟨⟨4, 0x1010⟩, 0, 1⟩]) (some [⟨true, true, 0x1010⟩]) 4 process
    ReportsInstallation statusSuccess [⟨⟨4, 0x1010⟩, 0, 1⟩] 1 process result := by
  intro process result
  have hserves : ServesElements [⟨⟨4, 0x1010⟩, 0, 1⟩] process.threads
      (mmpGetThreadCount (some [⟨true, true, 0x1010⟩])).toNat := servesElements_oneThread
  exact (preHookNtSetInformationProcess_reports_iff statusSuccess 4 fun _ => hserves).mpr
    ⟨by decide, Or.inr ⟨by decide, by decide⟩⟩

/-- Without a buffer for the request the answer is true, and no thread has a
record. -/
theorem preHookNtSetInformationProcess_reports_unbuffered :
    let process := oneThread []
    ∃ after, preHookNtSetInformationProcess (replaceVectorAnswer statusSuccess
        [⟨⟨4, 0x1010⟩, 0, 1⟩]) (some [⟨true, true, 0x1010⟩]) 4 process = .ok (true, after) ∧
      after.mmp.mmpThreadLocalStoragePointer = [] ∧
      ¬ ReportsInstallation statusSuccess [⟨⟨4, 0x1010⟩, 0, 1⟩] 1 process (.ok (true, after)) := by
  intro process
  refine ⟨_, rfl, rfl, ?_⟩
  rintro ⟨⟨hgrants, _⟩, _⟩
  revert hgrants
  decide

end WinPolyfillLoader.MmpTls
