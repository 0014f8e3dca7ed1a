import WinPolyfillLoader.LdrEntry.DataTableEntry

/-!
`LdrMapDllMemory` registers a mapped image with the loader. Of its failures,
one comes after the new entry has joined the index of image bases, and the
cleanup does not take the entry out again.
-/

namespace WinPolyfillLoader.LdrEntry

open ProcessHeap SearchTree

/-- `LdrMapDllMemory`: the status, `*DataTableEntry` and the database. -/
def ldrMapDllMemory (services : LdrServices) (globals : LdrGlobals)
    (headers : Option ImageNtHeaders) (viewBase : Nat) (dllName lpFullDllName : Option (List Wchar))
    (state : LdrState) : NtStatus × Option Nat × LdrState :=
  match headers with
  | none => (statusInvalidImageFormat, none, state)
  | some _ =>
    match rtlAllocateDataTableEntry headers state with
    | (0, state) => (statusNoMemory, none, state)
    | (ldrEntry, state) =>
      match services.rtlResolveDllNameUnicodeString dllName lpFullDllName state.heap with
      | (none, heap) => (statusNoMemory, none, freeBlock ldrEntry { state with heap := heap })
      | (some (baseDllName, fullDllName), heap) =>
        match rtlInitializeLdrDataTableEntry services globals headers ldrEntry viewBase baseDllName
            fullDllName { state with heap := heap } with
        | (false, state) =>
            (statusUnsuccessful, none, freeBlock fullDllName.buffer
              (freeBlock baseDllName.buffer (freeBlock ldrEntry state)))
        | (true, state) =>
            (statusSuccess, some ldrEntry,
              rtlInsertMemoryTableEntry services globals ldrEntry state)

def Reachable (state : LdrState) (e : Nat) : Prop :=
  e ∈ state.inLoadOrderModuleList ∨ e ∈ state.inMemoryOrderModuleList ∨
    e ∈ state.inInitializationOrderModuleList ∨ (∃ i, e ∈ state.ldrpHashTable i) ∨
    e ∈ indexNodes state

def counts (state : LdrState) (e : Nat) : BitVec 16 × Dword × Dword × Dword :=
  let entry := state.entries e
  let node := state.ddagNodes entry.ddagNode
  (entry.loadCount, entry.referenceCount, node.loadCount, node.referenceCount)

/-- The database is as before: lists, buckets, members of the index, and the
counts of every entry that was there. -/
structure SameDatabase (before after : LdrState) : Prop where
  inLoadOrder : after.inLoadOrderModuleList = before.inLoadOrderModuleList
  inMemoryOrder : after.inMemoryOrderModuleList = before.inMemoryOrderModuleList
  inInitializationOrder :
    after.inInitializationOrderModuleList = before.inInitializationOrderModuleList
  hashTable : after.ldrpHashTable = before.ldrpHashTable
  index : ∀ e, e ∈ indexNodes after ↔ e ∈ indexNodes before
  counts : ∀ e, Reachable before e → counts after e = counts before e

/-- What a failing call owes: the same database, and nothing in it that the
call freed. -/
def MapFailsAtomically (before : LdrState) (result : NtStatus × Option Nat × LdrState) : Prop :=
  ntSuccess result.1 = false →
    SameDatabase before result.2.2 ∧
      ∀ e, Reachable result.2.2 e → Event.free e ∉ Heap.since before.heap result.2.2.heap

/-- The database of a running process: entries are live blocks, and the index
is a tree of them. -/
structure DatabaseWellFormed (state : LdrState) : Prop where
  live : ∀ e, Reachable state e → e ∈ state.heap.live
  index : IndexWellFormed state

/-- The inputs with which the DDAG node is refused after the entry has joined
the index. -/
def DdagNodeRefused (services : LdrServices) (globals : LdrGlobals)
    (headers : Option ImageNtHeaders) (dllName lpFullDllName : Option (List Wchar))
    (state : LdrState) : Prop :=
  systemNt62Rtm ≤ globals.windowsVersion ∧ headers ≠ none ∧
    state.ldrpModuleBaseAddressIndex ≠ none ∧
    ∃ ldrEntry heap names next, state.heap.allocate = (some ldrEntry, heap) ∧
      services.rtlResolveDllNameUnicodeString dllName lpFullDllName heap = (some names, next) ∧
      next.grants 1 = false

theorem allocateZeroed_cases (state : LdrState) :
    (∃ heap, allocateZeroed state = (0, { state with heap := heap }) ∧
      heap.live = state.heap.live ∧ heap.log = state.heap.log ∧ state.heap.grants 1 = false) ∨
    (∃ block heap, allocateZeroed state = (block, { state with heap := heap }) ∧ block ≠ 0 ∧
      state.heap.grants 1 = true) := by
  rcases allocate_cases state.heap with ⟨heap, hanswer, hlive, hlog, hgrants⟩ |
    ⟨block, heap, hanswer, hblock, _, _, _, hgrants⟩
  · exact Or.inl ⟨heap, by rw [allocateZeroed, hanswer], hlive, hlog, hgrants 0⟩
  · exact Or.inr ⟨block, heap, by rw [allocateZeroed, hanswer], hblock, hgrants 0⟩

theorem mapFailsAtomically_of_private {before : LdrState} (hwf : DatabaseWellFormed before)
    {status : NtStatus} {out : Option Nat} {entries : Nat → LdrDataTableEntry} {heap : Heap}
    (events : List Event) (hentries : ∀ e ∈ before.heap.live, entries e = before.entries e)
    (hlog : heap.log = before.heap.log ++ events)
    (hfreed : ∀ e ∈ before.heap.live, Event.free e ∉ events) :
    MapFailsAtomically before (status, out, { before with entries := entries, heap := heap }) := by
  intro _
  refine ⟨⟨rfl, rfl, rfl, rfl, fun _ => Iff.rfl, ?_⟩, ?_⟩
  · intro e he
    simp only [counts, hentries e (hwf.live e he)]
  · intro e he
    have hreach : Reachable before e := he
    simp only [since_eq hlog]
    exact hfreed e (hwf.live e hreach)

theorem nt50_lt_of_nt62_le {version : Dword} (h : systemNt62Rtm ≤ version) :
    systemNt50Rtm < version := by
  have hlt : systemNt50Rtm < systemNt62Rtm := by decide
  rw [BitVec.le_def] at h
  rw [BitVec.lt_def] at hlt ⊢
  omega

/-- The state in which an initialisation stops when the DDAG node is refused:
an older entry is counted up or the new entry is a node of the index. -/
def LeftInIndex (globals : LdrGlobals) (ldrEntry : Nat) (start after : LdrState) : Prop :=
  (∃ e ∈ indexNodes start, after = countUp globals e start) ∨
    (∃ tree : BinTree Nat, ldrEntry ∈ tree.toList ∧
      after = { start with ldrpModuleBaseAddressIndex := some tree })

def NodeRefused (globals : LdrGlobals) (state : LdrState) : Prop :=
  systemNt62Rtm ≤ globals.windowsVersion ∧ state.ldrpModuleBaseAddressIndex ≠ none ∧
    state.heap.grants 1 = false

/-- The three ways an initialisation ends: it succeeds, it fails having written
to the new entry alone, or the DDAG node is refused. -/
def InitializeEnds (globals : LdrGlobals) (ldrEntry : Nat) (state : LdrState)
    (result : Bool × LdrState) : Prop :=
  (¬ NodeRefused globals state ∧ ∃ after, result = (true, after)) ∨
    (¬ NodeRefused globals state ∧ ∃ entry, result = (false, setEntry ldrEntry entry state)) ∨
    (NodeRefused globals state ∧ ∃ entry heap after,
      result = (false, { after with heap := heap }) ∧
      LeftInIndex globals ldrEntry (setEntry ldrEntry entry state) after)

section Initialise

variable (services : LdrServices) {globals : LdrGlobals} (headers : ImageNtHeaders)
  {ldrEntry : Nat} {baseAddress : Nat} (dllBaseName dllFullName : UnicodeString)

theorem initialize_of_inserted (hwin8 : systemNt62Rtm ≤ globals.windowsVersion)
    {state after : LdrState} (hheap : after.heap = state.heap)
    (hinsert : rtlInsertModuleBaseAddressIndexNode services globals ldrEntry baseAddress
      (setEntry ldrEntry (earlyEntry services globals headers dllBaseName) state) =
        (statusSuccess, after)) :
    (state.heap.grants 1 = true ∧ ∃ final, rtlInitializeLdrDataTableEntry services globals
      (some headers) ldrEntry baseAddress dllBaseName dllFullName state = (true, final)) ∨
    (state.heap.grants 1 = false ∧ ∃ heap,
      rtlInitializeLdrDataTableEntry services globals (some headers) ldrEntry baseAddress
        dllBaseName dllFullName state = (false, { after with heap := heap })) := by
  have hsuccess : ntSuccess statusSuccess = true := rfl
  have hnt50 := nt50_lt_of_nt62_le hwin8
  rcases allocateZeroed_cases after with ⟨heap, halloc, _, _, hgrants⟩ |
    ⟨block, heap, halloc, hblock, hgrants⟩
  · refine Or.inr ⟨hheap ▸ hgrants, heap, ?_⟩
    simp only [rtlInitializeLdrDataTableEntry, if_pos hwin8, initializeWin8]
    simp only [hinsert, hsuccess, if_true, halloc]
  · refine Or.inl ⟨hheap ▸ hgrants, ?_⟩
    simp only [rtlInitializeLdrDataTableEntry, if_pos hwin8, initializeWin8]
    simp only [hinsert, hsuccess, if_true, halloc, if_pos hnt50]
    exact ⟨_, rfl⟩

theorem rtlInitializeLdrDataTableEntry_ends {state : LdrState} (hindex : IndexWellFormed state)
    (hnew : ldrEntry ∉ indexNodes state) :
    InitializeEnds globals ldrEntry state (rtlInitializeLdrDataTableEntry services globals
      (some headers) ldrEntry baseAddress dllBaseName dllFullName state) := by
  let start := setEntry ldrEntry (earlyEntry services globals headers dllBaseName) state
  have hstart : IndexWellFormed start := ⟨hindex.nonempty, hindex.nodup⟩
  rcases Decidable.em (systemNt62Rtm ≤ globals.windowsVersion) with hwin8 | hold
  · -- the two ends of a run whose insertion succeeded
    have hends : ∀ after : LdrState,
        rtlInsertModuleBaseAddressIndexNode services globals ldrEntry baseAddress start =
          (statusSuccess, after) → after.heap = state.heap →
        start.ldrpModuleBaseAddressIndex ≠ none →
        LeftInIndex globals ldrEntry start after →
        InitializeEnds globals ldrEntry state (rtlInitializeLdrDataTableEntry services globals
          (some headers) ldrEntry baseAddress dllBaseName dllFullName state) := by
      intro after hinsert hheap hsome hleft
      rcases initialize_of_inserted services headers dllBaseName dllFullName hwin8 hheap hinsert
        with ⟨hgranted, hfinal⟩ | ⟨hrefuse, heap, hfinal⟩
      · refine Or.inl ⟨?_, hfinal⟩
        rintro ⟨-, -, hrefused⟩
        rw [hgranted] at hrefused
        cases hrefused
      · exact Or.inr (Or.inr ⟨⟨hwin8, hsome, hrefuse⟩, _, heap, after, hfinal, hleft⟩)
    rcases rtlInsertModuleBaseAddressIndexNode_cases services globals baseAddress hstart hnew with
      ⟨hnone, hinsert⟩ | ⟨hsome, e, he, _, hinsert⟩ | ⟨hsome, tree, hinsert, htree⟩
    · refine Or.inr (Or.inl ⟨fun hrefused => hrefused.2.1 hnone,
        earlyEntry services globals headers dllBaseName, ?_⟩)
      have hfailed : ntSuccess statusUnsuccessful = false := rfl
      simp only [rtlInitializeLdrDataTableEntry, if_pos hwin8, initializeWin8]
      simp only [start] at hinsert
      simp only [hinsert, hfailed, Bool.false_eq_true, if_false]
    · exact hends _ hinsert rfl hsome (Or.inl ⟨e, he, rfl⟩)
    · exact hends _ hinsert rfl hsome (Or.inr ⟨tree, (htree ldrEntry).mpr (Or.inl rfl), rfl⟩)
  · have hnot : ¬ NodeRefused globals state := fun hrefused => hold hrefused.1
    rcases Decidable.em (systemNt50Rtm < globals.windowsVersion) with hnt50 | hnt50
    · refine Or.inl ⟨hnot, ?_⟩
      simp only [rtlInitializeLdrDataTableEntry, if_neg hold, if_pos hnt50]
      exact ⟨_, rfl⟩
    · refine Or.inr (Or.inl ⟨hnot, earlyEntry services globals headers dllBaseName, ?_⟩)
      simp only [rtlInitializeLdrDataTableEntry, if_neg hold, if_neg hnt50]

end Initialise

theorem not_sameDatabase_of_left (start : LdrState) {globals : LdrGlobals} {ldrEntry : Nat}
    {before after final : LdrState} (hwf : DatabaseWellFormed before)
    (hfresh : ldrEntry ∉ before.heap.live)
    (hnodes : indexNodes start = indexNodes before)
    (hentries : ∀ e ∈ before.heap.live, start.entries e = before.entries e)
    (hddag : start.ddagNodes = before.ddagNodes) (hleft : LeftInIndex globals ldrEntry start after)
    (hindex : final.ldrpModuleBaseAddressIndex = after.ldrpModuleBaseAddressIndex)
    (hfinal : final.entries = after.entries ∧ final.ddagNodes = after.ddagNodes) :
    ¬ SameDatabase before final := by
  intro hsame
  rcases hleft with ⟨e, he, rfl⟩ | ⟨tree, hmem, rfl⟩
  · have hreach : Reachable before e := Or.inr (Or.inr (Or.inr (Or.inr (hnodes ▸ he))))
    have hentry := hentries e (hwf.live e hreach)
    have hcounts : (counts final e).2.2.1 = (counts before e).2.2.1 :=
      congrArg (fun c => c.2.2.1) (hsame.counts e hreach)
    have hnode : (final.entries e).ddagNode = (before.entries e).ddagNode := by
      rw [hfinal.1, ← hentry]
      simp only [countUp]
      split <;> simp
    simp only [counts, hnode, hfinal.2, countUp, hentry, hddag, Function.update_self] at hcounts
    bv_omega
  · have hin : ldrEntry ∈ indexNodes final := by
      rw [indexNodes, hindex]
      exact hmem
    have hbefore := (hsame.index ldrEntry).mp hin
    exact hfresh (hwf.live ldrEntry (Or.inr (Or.inr (Or.inr (Or.inr hbefore)))))

theorem ldrMapDllMemory_initialized {services : LdrServices} {globals : LdrGlobals}
    {headers : ImageNtHeaders} {viewBase : Nat} {dllName lpFullDllName : Option (List Wchar)}
    {state after : LdrState} {ldrEntry : Nat} {heap next : Heap} {base full : UnicodeString}
    {filled : Bool} (hanswer : state.heap.allocate = (some ldrEntry, heap))
    (hresolve : services.rtlResolveDllNameUnicodeString dllName lpFullDllName heap =
      (some (base, full), next))
    (hinit : rtlInitializeLdrDataTableEntry services globals (some headers) ldrEntry viewBase
      base full { setEntry ldrEntry .zero state with heap := next } = (filled, after)) :
    ldrMapDllMemory services globals (some headers) viewBase dllName lpFullDllName state =
      if filled = true then
        (statusSuccess, some ldrEntry, rtlInsertMemoryTableEntry services globals ldrEntry after)
      else
        (statusUnsuccessful, none,
          freeBlock full.buffer (freeBlock base.buffer (freeBlock ldrEntry after))) := by
  have hentry : ldrEntry ≠ 0 := (allocate_some hanswer).1
  simp only [setEntry] at hinit
  simp only [ldrMapDllMemory, rtlAllocateDataTableEntry, allocateZeroed, hanswer, hresolve,
    setEntry, hinit]
  cases filled <;> rfl

theorem ldrMapDllMemory_named (services : LdrServices) (globals : LdrGlobals)
    (headers : ImageNtHeaders) (viewBase : Nat) {dllName lpFullDllName : Option (List Wchar)}
    {state : LdrState} (hwf : DatabaseWellFormed state) {ldrEntry : Nat} {heap next : Heap}
    {base full : UnicodeString} (hanswer : state.heap.allocate = (some ldrEntry, heap))
    (hresolve : services.rtlResolveDllNameUnicodeString dllName lpFullDllName heap =
      (some (base, full), next)) :
    MapFailsAtomically state
        (ldrMapDllMemory services globals (some headers) viewBase dllName lpFullDllName state) ↔
      ¬ NodeRefused globals { state with heap := next } := by
  obtain ⟨hentry, hfresh, hlive, hlog⟩ := allocate_some hanswer
  obtain ⟨_, hbuffers, _, hlog'⟩ := services.resolve_allocates hresolve
  let named := { setEntry ldrEntry .zero state with heap := next }
  have hprivate : ∀ entry, ∀ e ∈ state.heap.live,
      (setEntry ldrEntry entry named).entries e = state.entries e := by
    intro entry e he
    have hne : e ≠ ldrEntry := fun heq => hfresh (heq ▸ he)
    simp only [setEntry, named, Function.update_of_ne hne]
  have hnotIndex : ldrEntry ∉ indexNodes named := fun hmem =>
    hfresh (hwf.live ldrEntry (Or.inr (Or.inr (Or.inr (Or.inr hmem)))))
  have hindex : IndexWellFormed named := ⟨hwf.index.nonempty, hwf.index.nodup⟩
  rcases rtlInitializeLdrDataTableEntry_ends services headers base full hindex hnotIndex with
    ⟨hgranted, after, hinit⟩ | ⟨hgranted, entry, hinit⟩ | ⟨hrefused, entry, last, after, hinit, hleft⟩
  · rw [ldrMapDllMemory_initialized hanswer hresolve hinit, if_pos rfl]
    refine iff_of_true ?_ hgranted
    intro hfailed
    cases hfailed
  · rw [ldrMapDllMemory_initialized hanswer hresolve hinit, if_neg Bool.false_ne_true]
    refine iff_of_true ?_ hgranted
    refine mapFailsAtomically_of_private hwf [.alloc ldrEntry, .alloc base.buffer,
      .alloc full.buffer, .free ldrEntry, .free base.buffer, .free full.buffer]
      (hprivate entry) ?_ ?_
    · have hbase := (hbuffers base.buffer (by simp)).1
      have hfull := (hbuffers full.buffer (by simp)).1
      have hnext : next.log = state.heap.log ++
          [.alloc ldrEntry, .alloc base.buffer, .alloc full.buffer] := by
        rw [hlog', hlog, List.append_assoc]
        rfl
      simp only [freeBlock, free_log hfull, free_log hbase, free_log hentry, setEntry, named, hnext,
        List.append_assoc]
      rfl
    · intro e he hmem
      have hbase : base.buffer ∉ state.heap.live := fun hb =>
        (hbuffers base.buffer (by simp)).2 (hlive ▸ List.mem_cons_of_mem _ hb)
      have hfull : full.buffer ∉ state.heap.live := fun hb =>
        (hbuffers full.buffer (by simp)).2 (hlive ▸ List.mem_cons_of_mem _ hb)
      have heq : e = ldrEntry ∨ e = base.buffer ∨ e = full.buffer := by simpa using hmem
      rcases heq with rfl | rfl | rfl
      · exact hfresh he
      · exact hbase he
      · exact hfull he
  · rw [ldrMapDllMemory_initialized hanswer hresolve hinit, if_neg Bool.false_ne_true]
    refine iff_of_false ?_ (fun hnot => hnot hrefused)
    intro hatomic
    have hsame := (hatomic rfl).1
    let final := freeBlock full.buffer
      (freeBlock base.buffer (freeBlock ldrEntry { after with heap := last }))
    have hnot : ¬ SameDatabase state final :=
      not_sameDatabase_of_left (setEntry ldrEntry entry named) hwf hfresh rfl (hprivate entry) rfl
        hleft rfl ⟨rfl, rfl⟩
    exact hnot hsame

/-- `LdrMapDllMemory` is atomic on failure unless the DDAG node is refused. -/
theorem ldrMapDllMemory_atomic_iff (services : LdrServices) (globals : LdrGlobals)
    (headers : Option ImageNtHeaders) (viewBase : Nat) (dllName lpFullDllName : Option (List Wchar))
    (state : LdrState) (hwf : DatabaseWellFormed state) :
    MapFailsAtomically state
        (ldrMapDllMemory services globals headers viewBase dllName lpFullDllName state) ↔
      ¬ DdagNodeRefused services globals headers dllName lpFullDllName state := by
  cases headers with
  | none =>
    refine iff_of_true ?_ (fun hrefused => hrefused.2.1 rfl)
    exact mapFailsAtomically_of_private hwf [] (fun _ _ => rfl)
      (List.append_nil _).symm (by simp)
  | some headers =>
    rcases allocate_cases state.heap with ⟨heap, hanswer, _, hlog, _⟩ |
      ⟨ldrEntry, heap, hanswer, hentry, hfresh, hlive, hlog, _⟩
    · have hrun : ldrMapDllMemory services globals (some headers) viewBase dllName lpFullDllName
          state = (statusNoMemory, none, { state with heap := heap }) := by
        simp only [ldrMapDllMemory, rtlAllocateDataTableEntry, allocateZeroed, hanswer]
      rw [hrun]
      refine iff_of_true ?_ ?_
      · exact mapFailsAtomically_of_private hwf [] (fun _ _ => rfl)
          (hlog.trans (List.append_nil _).symm) (by simp)
      · rintro ⟨-, -, -, block, _, _, _, halloc, -⟩
        rw [hanswer] at halloc
        cases halloc
    · rcases hresolve : services.rtlResolveDllNameUnicodeString dllName lpFullDllName heap with
        ⟨_ | ⟨base, full⟩, next⟩
      · have hrun : ldrMapDllMemory services globals (some headers) viewBase dllName lpFullDllName
            state = (statusNoMemory, none,
              freeBlock ldrEntry { setEntry ldrEntry .zero state with heap := next }) := by
          simp only [ldrMapDllMemory, rtlAllocateDataTableEntry, allocateZeroed, hanswer, setEntry,
            hresolve]
        rw [hrun]
        refine iff_of_true ?_ ?_
        · refine mapFailsAtomically_of_private hwf [.alloc ldrEntry, .free ldrEntry] ?_ ?_ ?_
          · intro e he
            have hne : e ≠ ldrEntry := fun heq => hfresh (heq ▸ he)
            exact Function.update_of_ne hne _ _
          · rw [free_log hentry, (services.resolve_fails hresolve).2, hlog, List.append_assoc]
            rfl
          · intro e he hmem
            have heq : e = ldrEntry := by simpa using hmem
            exact hfresh (heq ▸ he)
        · rintro ⟨-, -, -, _, _, _, _, hsame, hnames, -⟩
          rw [hanswer] at hsame
          cases hsame
          rw [hresolve] at hnames
          cases hnames
      · rw [ldrMapDllMemory_named services globals headers viewBase hwf hanswer hresolve,
          not_iff_not]
        constructor
        · rintro ⟨hwin8, hsome, hrefused⟩
          exact ⟨hwin8, Option.some_ne_none headers, hsome, ldrEntry, heap, (base, full), next,
            hanswer, hresolve, hrefused⟩
        · rintro ⟨hwin8, -, hsome, _, _, _, _, hsame, hnames, hrefused⟩
          rw [hanswer] at hsame
          cases hsame
          rw [hresolve] at hnames
          cases hnames
          exact ⟨hwin8, hsome, hrefused⟩

/-- Services with plain linking, no hash and two fresh blocks for the names. -/
def plainServices : LdrServices where
  rtlUpcaseUnicodeChar := id
  rtlHashUnicodeString := fun _ => 0
  rtlRbInsertNodeEx := fun tree parent right new => tree.linkAt parent right new
  rtlResolveDllNameUnicodeString := fun _ _ heap =>
    match heap.allocate with
    | (none, _) => (none, heap)
    | (some full, heap₁) =>
      match heap₁.allocate with
      | (none, _) => (none, heap)
      | (some base, heap₂) =>
          (some (⟨base, []⟩, ⟨full, []⟩),
            { heap₂ with log := heap.log ++ [.alloc base, .alloc full] })
  insertsAtSlot := linkAt_insertsAtSlot
  resolve_fails := by
    intro _ _ heap next h
    split at h
    · cases h
      exact ⟨rfl, rfl⟩
    · split at h
      · cases h
        exact ⟨rfl, rfl⟩
      · cases h
  resolve_allocates := by
    intro _ _ heap next base full h
    split at h
    · cases h
    · rename_i full' heap₁ hfull
      split at h
      · cases h
      · rename_i base' heap₂ hbase
        cases h
        obtain ⟨hfull0, hfresh, hlive, _⟩ := allocate_some hfull
        obtain ⟨hbase0, hfresh', hlive', _⟩ := allocate_some hbase
        rw [hlive, List.mem_cons, not_or] at hfresh'
        refine ⟨by simpa using hfresh'.1, ?_, by rw [hlive', hlive], rfl⟩
        simpa using ⟨⟨hbase0, hfresh'.2⟩, hfull0, hfresh⟩

/-- Windows 10 with ntdll's entry in the index. -/
def ntdllOnly (answers : List (Option Nat)) : LdrState where
  entries := fun _ => { LdrDataTableEntry.zero with dllBase := 0x7ff0, ddagNode := 0x200 }
  ddagNodes := fun _ => ⟨[0x100], 1, 0, 0, 0, 0, ldrModulesReadyToRun⟩
  dependents := fun _ => none
  incoming := fun _ => ⟨0, 0⟩
  inLoadOrderModuleList := [0x100]
  inMemoryOrderModuleList := [0x100]
  inInitializationOrderModuleList := [0x100]
  ldrpHashTable := fun i => if i = 0 then [0x100] else []
  ldrpModuleBaseAddressIndex := some (.node .nil 0x100 .nil)
  heap := ⟨[0x100, 0x200], answers, []⟩
  unloaded := []

theorem ntdllOnly_wellFormed (answers : List (Option Nat)) :
    DatabaseWellFormed (ntdllOnly answers) := by
  refine ⟨?_, ?_, by simp [indexNodes, ntdllOnly, BinTree.toList]⟩
  · rintro e (he | he | he | ⟨i, he⟩ | he)
    · simp_all [ntdllOnly]
    · simp_all [ntdllOnly]
    · simp_all [ntdllOnly]
    · simp only [ntdllOnly] at he
      split at he
      · simp_all [ntdllOnly]
      · cases he
    · simp_all [ntdllOnly, indexNodes, BinTree.toList]
  · intro tree htree
    cases htree
    rfl

/-- On Windows 10 a refused DDAG node leaves the freed entry in the index. -/
theorem ldrMapDllMemory_leaves_freed_entry :
    let globals : LdrGlobals := ⟨systemWin10Rtm, 0x118, 0⟩
    let headers : ImageNtHeaders := ⟨0, 0x1000, 0x5000, 0x3000, 0, (0, 0), 0⟩
    let before := ntdllOnly [some 0x300, some 0x400, some 0x500, none]
    let result := ldrMapDllMemory plainServices globals (some headers) 0x5000 none none before
    result.1 = statusUnsuccessful ∧ 0x300 ∈ indexNodes result.2.2 ∧
      Event.free 0x300 ∈ Heap.since before.heap result.2.2.heap ∧
      ¬ MapFailsAtomically before result := by
  intro globals headers before result
  have hnode : 0x300 ∈ indexNodes result.2.2 := by decide +kernel
  have hfreed : Event.free 0x300 ∈ Heap.since before.heap result.2.2.heap := by decide +kernel
  refine ⟨by decide +kernel, hnode, hfreed, ?_⟩
  intro h
  have hclean := (h (by decide +kernel)).2 0x300 (Or.inr (Or.inr (Or.inr (Or.inr hnode))))
  exact hclean hfreed

/-- The same process with a heap that refuses the entry itself. -/
theorem ldrMapDllMemory_entry_refused :
    let globals : LdrGlobals := ⟨systemWin10Rtm, 0x118, 0⟩
    let headers : ImageNtHeaders := ⟨0, 0x1000, 0x5000, 0x3000, 0, (0, 0), 0⟩
    MapFailsAtomically (ntdllOnly [none])
      (ldrMapDllMemory plainServices globals (some headers) 0x5000 none none (ntdllOnly [none])) := by
  intro globals headers
  refine (ldrMapDllMemory_atomic_iff plainServices globals (some headers) 0x5000 none none
    (ntdllOnly [none]) (ntdllOnly_wellFormed [none])).mpr ?_
  rintro ⟨-, -, -, _, _, _, _, halloc, -⟩
  cases halloc

end WinPolyfillLoader.LdrEntry
