import WinPolyfillLoader.LdrEntry.FreeDependencies
import WinPolyfillLoader.LdrEntry.ModuleLists
import WinPolyfillLoader.Library.HeapLedger

/-!
The life of the entries of memory modules in the loader database: `LdrMapDllMemory` makes one
and `RtlFreeLdrDataTableEntry` takes it out again, for any number of modules and in any order.
-/

namespace WinPolyfillLoader.LdrEntry

open ProcessHeap SearchTree

/-- `ForwarderLinks` is an initialised list on Vista and Windows 7. -/
def hasForwarderList (globals : LdrGlobals) : Bool :=
  globals.ldrDataTableEntrySize == sizeofLdrDataTableEntryVista ||
    globals.ldrDataTableEntrySize == sizeofLdrDataTableEntryWin7

/-- The loop over `ForwarderLinks`. `moduleOf` is the entry that a record points to behind its
links; the record is freed after the step to the next one. -/
def freeForwarders (moduleOf : Nat → Nat) : List Nat → LdrState → LdrState
  | [], state => state
  | next :: rest, state =>
    let dep := moduleOf next
    freeForwarders moduleOf rest
      (freeBlock next (ldrUnloadDll (state.entries dep).dllBase state))

/-- The part for Windows 8 and later. Ntdll faults on a null index. -/
def freeWin8 (globals : LdrGlobals) (rtlRbRemoveNode : BinTree Nat → Nat → BinTree Nat)
    (fuel ldrEntry : Nat) (state : LdrState) : Except Halt LdrState :=
  if systemNt62Rtm ≤ globals.windowsVersion then
    match rtlFreeDependencies globals fuel ldrEntry state with
    | .error halt => .error halt
    | .ok state =>
      let state := freeBlock (state.entries ldrEntry).ddagNode state
      match rtlRemoveModuleBaseAddressIndexNode rtlRbRemoveNode ldrEntry state with
      | (status, state) => if ntSuccess status then .ok state else .error .invalidRead
  else .ok state

def freeForwarderLinks (globals : LdrGlobals) (moduleOf : Nat → Nat) (ldrEntry : Nat)
    (state : LdrState) : Except Halt LdrState :=
  if systemNt60Rtm ≤ globals.windowsVersion ∧ hasForwarderList globals then
    match (state.entries ldrEntry).forwarderLinks with
    | none => .error .invalidRead
    | some records => .ok (freeForwarders moduleOf records state)
  else .ok state

def freeCommon (globals : LdrGlobals) (ldrEntry : Nat) (state : LdrState) : Bool × LdrState :=
  if systemNt50Rtm ≤ globals.windowsVersion then
    let state := freeBlock (state.entries ldrEntry).baseDllName.buffer state
    let state := freeBlock (state.entries ldrEntry).fullDllName.buffer state
    (true, freeBlock ldrEntry (unlinkMemoryTableEntry ldrEntry state))
  else (false, state)

def rtlFreeLdrDataTableEntry (globals : LdrGlobals)
    (rtlRbRemoveNode : BinTree Nat → Nat → BinTree Nat) (moduleOf : Nat → Nat)
    (fuel ldrEntry : Nat) (state : LdrState) : Except Halt (Bool × LdrState) := do
  let state ← freeWin8 globals rtlRbRemoveNode fuel ldrEntry state
  let state ← freeForwarderLinks globals moduleOf ldrEntry state
  return freeCommon globals ldrEntry state

/-- The blocks of a memory module in the loader database; there is no DDAG node before
Windows 8. -/
structure MappedModule where
  ldrEntry : Nat
  baseDllName : UnicodeString
  fullDllName : UnicodeString
  ddagNode : Nat
deriving DecidableEq, Repr

def MappedModule.blocks (m : MappedModule) : List Nat :=
  [m.ddagNode, m.baseDllName.buffer, m.fullDllName.buffer, m.ldrEntry]

/-- The entry says what the module has, and no other entry or node points to it. -/
structure EntryOf (globals : LdrGlobals) (state : LdrState) (m : MappedModule) : Prop where
  version : systemNt50Rtm < globals.windowsVersion
  nonnull : m.ldrEntry ≠ 0
  baseDllName : (state.entries m.ldrEntry).baseDllName = m.baseDllName
  fullDllName : (state.entries m.ldrEntry).fullDllName = m.fullDllName
  forwarderLinks : systemNt60Rtm < globals.windowsVersion → hasForwarderList globals = true →
    (state.entries m.ldrEntry).forwarderLinks = some []
  ddagNode : systemNt62Rtm ≤ globals.windowsVersion →
    m.ddagNode ≠ 0 ∧ (state.entries m.ldrEntry).ddagNode = m.ddagNode ∧
      (state.ddagNodes m.ddagNode).dependencies = 0
  noNode : ¬systemNt62Rtm ≤ globals.windowsVersion → m.ddagNode = 0

/-- What a module adds to the database. -/
structure Added (services : LdrServices) (globals : LdrGlobals) (m : MappedModule)
    (state after : LdrState) : Prop where
  entry : EntryOf globals after m
  inLoadOrder : after.inLoadOrderModuleList = state.inLoadOrderModuleList ++ [m.ldrEntry]
  inMemoryOrder : after.inMemoryOrderModuleList = state.inMemoryOrderModuleList ++ [m.ldrEntry]
  inInitializationOrder : after.inInitializationOrderModuleList =
    state.inInitializationOrderModuleList ++ [m.ldrEntry]
  hashTable : ∀ i, after.ldrpHashTable i =
    state.ldrpHashTable i ++
      if ldrHashEntry services globals m.baseDllName.text = i then [m.ldrEntry] else []
  index : if systemNt62Rtm ≤ globals.windowsVersion then
      state.ldrpModuleBaseAddressIndex ≠ none ∧ after.ldrpModuleBaseAddressIndex ≠ none ∧
        (indexNodes after).Perm (m.ldrEntry :: indexNodes state)
    else after.ldrpModuleBaseAddressIndex = state.ldrpModuleBaseAddressIndex
  others : ∀ e ≠ m.ldrEntry, after.entries e = state.entries e
  nodes : ∀ n, n = 0 ∨ n ≠ m.ddagNode → after.ddagNodes n = state.ddagNodes n
  heap : Moves state.heap after.heap m.blocks []
  unloaded : after.unloaded = state.unloaded

/-- A failure leaves the database and gives back what it took. -/
structure Unchanged (state after : LdrState) : Prop where
  rest : ∃ entries heap, after = { state with entries := entries, heap := heap }
  entries : ∀ e ∈ state.heap.live, after.entries e = state.entries e
  heap : Moves state.heap after.heap [] []

/-- The members that teardown reads, after the stores of the late gates. -/
theorem lateEntry_members (globals : LdrGlobals) (headers : ImageNtHeaders) (baseAddress : Nat)
    (base full : UnicodeString) (entry : LdrDataTableEntry) :
    let late := lateEntry globals headers baseAddress base full entry
    late.baseDllName = base ∧ late.fullDllName = full ∧ late.ddagNode = entry.ddagNode ∧
      (systemNt60Rtm < globals.windowsVersion → hasForwarderList globals = true →
        late.forwarderLinks = some []) := by
  intro late
  refine ⟨rfl, rfl, ?_, ?_⟩
  · simp only [late, lateEntry]
    split <;> split <;> rfl
  · intro hversion hlist
    have hgate : systemNt60Rtm < globals.windowsVersion ∧
        (globals.ldrDataTableEntrySize = sizeofLdrDataTableEntryVista ∨
          globals.ldrDataTableEntrySize = sizeofLdrDataTableEntryWin7) :=
      ⟨hversion, by simpa [hasForwarderList] using hlist⟩
    simp only [late, lateEntry, if_pos hgate]

/-- An image under a base of its own joins the index, if there is one. -/
theorem rtlInsertModuleBaseAddressIndexNode_new (services : LdrServices) (globals : LdrGlobals)
    {ldrEntry baseAddress : Nat} {state : LdrState} (hindex : IndexWellFormed state)
    (hnew : ldrEntry ∉ indexNodes state)
    (hbase : ∀ e ∈ indexNodes state, (state.entries e).dllBase ≠ baseAddress) :
    (state.ldrpModuleBaseAddressIndex = none ∧
      rtlInsertModuleBaseAddressIndexNode services globals ldrEntry baseAddress state =
        (statusUnsuccessful, state)) ∨
    (state.ldrpModuleBaseAddressIndex ≠ none ∧ ∃ tree : BinTree Nat,
      rtlInsertModuleBaseAddressIndexNode services globals ldrEntry baseAddress state =
        (statusSuccess, { state with ldrpModuleBaseAddressIndex := some tree }) ∧
      tree.toList.Perm (ldrEntry :: indexNodes state)) := by
  cases htree : state.ldrpModuleBaseAddressIndex with
  | none => exact .inl ⟨rfl, by rw [rtlInsertModuleBaseAddressIndexNode, htree]⟩
  | some tree =>
    have hnodes : indexNodes state = tree.toList := by rw [indexNodes, htree]
    have hnodup : tree.toList.Nodup := hnodes ▸ hindex.nodup
    rw [hnodes] at hnew hbase ⊢
    obtain ⟨d, hdescend⟩ := descend_isSome (fun e => (state.entries e).dllBase) baseAddress
      (hindex.nonempty tree htree)
    cases d with
    | found ldrNode =>
      obtain ⟨hmem, hge, hle⟩ := descend_found hdescend
      have heq : (state.entries ldrNode).dllBase = baseAddress := by omega
      exact absurd heq (hbase ldrNode hmem)
    | slot parent right =>
      refine .inr ⟨Option.some_ne_none tree,
        services.rtlRbInsertNodeEx tree parent right ldrEntry, ?_, ?_⟩
      · simp only [rtlInsertModuleBaseAddressIndexNode, htree, hdescend]
      · exact insertsAtSlot_perm services.insertsAtSlot (descend_slot hdescend) hnew hnodup

/-- A successful initialisation sets the members of the entry, and from Windows 8 on adds a
node to the index and one to the graph. -/
structure InitializedEntry (globals : LdrGlobals) (m : MappedModule) (state after : LdrState) :
    Prop where
  rest : after = { state with
    entries := after.entries
    ddagNodes := after.ddagNodes
    ldrpModuleBaseAddressIndex := after.ldrpModuleBaseAddressIndex
    heap := after.heap }
  entry : m.ldrEntry ≠ 0 → EntryOf globals after m
  index : if systemNt62Rtm ≤ globals.windowsVersion then
      state.ldrpModuleBaseAddressIndex ≠ none ∧ after.ldrpModuleBaseAddressIndex ≠ none ∧
        (indexNodes after).Perm (m.ldrEntry :: indexNodes state)
    else after.ldrpModuleBaseAddressIndex = state.ldrpModuleBaseAddressIndex
  others : ∀ e ≠ m.ldrEntry, after.entries e = state.entries e
  nodes : ∀ n, n = 0 ∨ n ≠ m.ddagNode → after.ddagNodes n = state.ddagNodes n
  heap : Moves state.heap after.heap [m.ddagNode] []

theorem moves_null (heap : Heap) : Moves heap heap [0] [] where
  live := by
    intro b hb
    rw [List.count_singleton, if_neg (by simpa using Ne.symm hb)]
    rfl
  balanced := .refl heap
  single := id

theorem moves_giveBack {before between : Heap} {gained blocks kept : List Nat}
    (h : Moves before between gained []) (hperm : gained.Perm (blocks ++ kept)) :
    Moves before (between.freeAll blocks) kept [] := by
  have hgained : ∀ b, gained.count b = blocks.count b + kept.count b := by
    intro b
    rw [hperm.count_eq, List.count_append]
  have hback : Moves between (between.freeAll blocks) [] blocks := by
    refine freeAll_moves fun b hb => ?_
    have hlive := h.live b hb
    have hcount := hgained b
    rw [List.count_nil] at hlive
    omega
  refine ⟨?_, h.balanced.trans hback.balanced, fun hsingle => hback.single (h.single hsingle)⟩
  intro b hb
  have hfirst := h.live b hb
  have hsecond := hback.live b hb
  have hcount := hgained b
  simp only [List.count_nil] at hfirst hsecond ⊢
  omega

theorem moves_gained {before after : Heap} {gained gained' : List Nat}
    (h : Moves before after gained []) (hperm : gained.Perm gained') :
    Moves before after gained' [] where
  live := by
    intro b hb
    rw [← hperm.count_eq b]
    exact h.live b hb
  balanced := h.balanced
  single := h.single

theorem resolve_moves (services : LdrServices) {dllName lpFullDllName : Option (List Wchar)}
    {heap next : Heap} {base full : UnicodeString}
    (hresolve : services.rtlResolveDllNameUnicodeString dllName lpFullDllName heap =
      (some (base, full), next)) : Moves heap next [base.buffer, full.buffer] [] := by
  obtain ⟨hnodup, hbuffers, hlive, hlog⟩ := services.resolve_allocates hresolve
  have hcount : ∀ b,
      next.live.count b = [base.buffer, full.buffer].count b + heap.live.count b := by
    intro b
    rw [hlive, ← List.count_append]
    rfl
  constructor
  · intro b _
    rw [hcount, List.count_nil]
    omega
  · intro b _
    have hlog : next.log = heap.log ++ [base.buffer, full.buffer].map Event.alloc := hlog
    obtain ⟨hfrees, hallocs⟩ := log_alloc hlog b
    have hb := hcount b
    omega
  · intro hsingle b hb
    rw [hcount]
    by_cases hmem : b ∈ [base.buffer, full.buffer]
    · have hold := List.count_eq_zero.mpr (hbuffers b hmem).2
      have hnew := List.count_eq_one_of_mem hnodup hmem
      omega
    · rw [List.count_eq_zero.mpr hmem, Nat.zero_add]
      exact hsingle b hb

section Mapping

variable (services : LdrServices) {globals : LdrGlobals} (headers : ImageNtHeaders)
  {ldrEntry baseAddress : Nat} (base full : UnicodeString)

theorem initialize_old {state : LdrState} (hold : ¬systemNt62Rtm ≤ globals.windowsVersion)
    (hnt50 : systemNt50Rtm < globals.windowsVersion) :
    ∃ after, rtlInitializeLdrDataTableEntry services globals (some headers) ldrEntry baseAddress
        base full state = (true, after) ∧
      InitializedEntry globals ⟨ldrEntry, base, full, 0⟩ state after := by
  obtain ⟨hname, hfull, -, hforwarders⟩ := lateEntry_members globals headers baseAddress base full
    (earlyEntry services globals headers base)
  let late := lateEntry globals headers baseAddress base full
    (earlyEntry services globals headers base)
  have hrun : rtlInitializeLdrDataTableEntry services globals (some headers) ldrEntry baseAddress
      base full state = (true, setEntry ldrEntry late state) := by
    simp only [rtlInitializeLdrDataTableEntry, if_neg hold, if_pos hnt50, setEntry,
      Function.update_self, Function.update_idem, late]
  refine ⟨_, hrun, rfl, ?_, ?_, ?_, fun _ _ => rfl, moves_null state.heap⟩
  · intro hnonnull
    have hentry : (setEntry ldrEntry late state).entries ldrEntry = late :=
      Function.update_self _ _ _
    refine ⟨hnt50, hnonnull, ?_, ?_, ?_, fun hwin8 => absurd hwin8 hold, fun _ => rfl⟩
    · exact (congrArg LdrDataTableEntry.baseDllName hentry).trans hname
    · exact (congrArg LdrDataTableEntry.fullDllName hentry).trans hfull
    · intro hversion hlist
      exact (congrArg LdrDataTableEntry.forwarderLinks hentry).trans (hforwarders hversion hlist)
  · rw [if_neg hold]
    rfl
  · intro e he
    exact Function.update_of_ne he _ _

/-- From Windows 8 on, with the entry in the index and a block for its node. -/
theorem initialize_win8 {state : LdrState} (hwin8 : systemNt62Rtm ≤ globals.windowsVersion)
    (hsome : state.ldrpModuleBaseAddressIndex ≠ none) {tree : BinTree Nat}
    (hinsert : rtlInsertModuleBaseAddressIndexNode services globals ldrEntry baseAddress
      (setEntry ldrEntry (earlyEntry services globals headers base) state) =
        (statusSuccess, { setEntry ldrEntry (earlyEntry services globals headers base) state with
          ldrpModuleBaseAddressIndex := some tree }))
    (hperm : tree.toList.Perm (ldrEntry :: indexNodes state)) {node : Nat} {heap : Heap}
    (hanswer : state.heap.allocate = (some node, heap)) :
    ∃ after, rtlInitializeLdrDataTableEntry services globals (some headers) ldrEntry baseAddress
        base full state = (true, after) ∧
      InitializedEntry globals ⟨ldrEntry, base, full, node⟩ state after := by
  obtain ⟨hnonnull, hfresh, hlive, hlog⟩ := allocate_some hanswer
  let early := earlyEntry services globals headers base
  let entry := { early with ddagNode := node, flags := win8Flags headers }
  let late := lateEntry globals headers baseAddress base full entry
  obtain ⟨hname, hfull, hddag, hforwarders⟩ :=
    lateEntry_members globals headers baseAddress base full entry
  let after : LdrState := { setEntry ldrEntry late state with
    ddagNodes := Function.update state.ddagNodes node (freshDdagNode globals ldrEntry)
    ldrpModuleBaseAddressIndex := some tree
    heap := heap }
  have hsuccess : ntSuccess statusSuccess = true := rfl
  have hblock : allocateZeroed { setEntry ldrEntry early state with
      ldrpModuleBaseAddressIndex := some tree } =
        (node, { setEntry ldrEntry early state with
          ldrpModuleBaseAddressIndex := some tree, heap := heap }) := by
    simp only [allocateZeroed, setEntry, hanswer]
  obtain ⟨n, rfl⟩ := Nat.exists_eq_succ_of_ne_zero hnonnull
  have hgate : initializeWin8 services globals headers ldrEntry baseAddress
      (setEntry ldrEntry early state) = (true, { setEntry ldrEntry entry state with
        ddagNodes := Function.update state.ddagNodes (n + 1) (freshDdagNode globals ldrEntry)
        ldrpModuleBaseAddressIndex := some tree
        heap := heap }) := by
    simp only [initializeWin8]
    rw [hinsert]
    simp only [hsuccess, if_true]
    rw [hblock]
    simp only [setEntry, Function.update_self, Function.update_idem, entry]
  have hrun : rtlInitializeLdrDataTableEntry services globals (some headers) ldrEntry baseAddress
      base full state = (true, after) := by
    simp only [rtlInitializeLdrDataTableEntry, if_pos hwin8, if_pos (nt50_lt_of_nt62_le hwin8)]
    rw [hgate]
    simp only [setEntry, Function.update_self, Function.update_idem, after, late]
  refine ⟨after, hrun, rfl, ?_, ?_, ?_, ?_, ?_⟩
  · intro hentry
    have hlate : after.entries ldrEntry = late := Function.update_self _ _ _
    have hfreshNode : after.ddagNodes (n + 1) = freshDdagNode globals ldrEntry :=
      Function.update_self _ _ _
    refine ⟨nt50_lt_of_nt62_le hwin8, hentry, ?_, ?_, ?_, fun _ => ⟨hnonnull, ?_, ?_⟩,
      fun hold => absurd hwin8 hold⟩
    · exact (congrArg LdrDataTableEntry.baseDllName hlate).trans hname
    · exact (congrArg LdrDataTableEntry.fullDllName hlate).trans hfull
    · intro hversion hlist
      exact (congrArg LdrDataTableEntry.forwarderLinks hlate).trans (hforwarders hversion hlist)
    · exact (congrArg LdrDataTableEntry.ddagNode hlate).trans hddag
    · exact congrArg LdrDdagNode.dependencies hfreshNode
  · rw [if_pos hwin8]
    exact ⟨hsome, Option.some_ne_none tree, hperm⟩
  · intro e he
    exact Function.update_of_ne he _ _
  · intro k hk
    have hne : k ≠ n + 1 := by
      rintro rfl
      exact hk.elim hnonnull fun hdiffer => hdiffer rfl
    exact Function.update_of_ne hne _ _
  · exact (granted_single hnonnull hfresh hlive hlog).moves

/-- An initialisation writes to the new entry alone, or it succeeds. -/
theorem rtlInitializeLdrDataTableEntry_effect {state : LdrState} (hindex : IndexWellFormed state)
    (hnew : ldrEntry ∉ indexNodes state)
    (hbase : ∀ e ∈ indexNodes state, (state.entries e).dllBase ≠ baseAddress)
    (hgranted : ¬NodeRefused globals state) :
    (∃ entry, rtlInitializeLdrDataTableEntry services globals (some headers) ldrEntry baseAddress
      base full state = (false, setEntry ldrEntry entry state)) ∨
    ∃ node after, rtlInitializeLdrDataTableEntry services globals (some headers) ldrEntry
        baseAddress base full state = (true, after) ∧
      InitializedEntry globals ⟨ldrEntry, base, full, node⟩ state after := by
  let early := earlyEntry services globals headers base
  by_cases hwin8 : systemNt62Rtm ≤ globals.windowsVersion
  · have hstart : IndexWellFormed (setEntry ldrEntry early state) := ⟨hindex.nonempty, hindex.nodup⟩
    have hbase' : ∀ e ∈ indexNodes (setEntry ldrEntry early state),
        ((setEntry ldrEntry early state).entries e).dllBase ≠ baseAddress := by
      intro e he
      have hne : e ≠ ldrEntry := fun heq => hnew (heq ▸ he)
      have hsame : (setEntry ldrEntry early state).entries e = state.entries e :=
        Function.update_of_ne hne _ _
      rw [hsame]
      exact hbase e he
    obtain ⟨-, hinsert⟩ | ⟨hsome, tree, hinsert, hperm⟩ :=
      rtlInsertModuleBaseAddressIndexNode_new services globals hstart hnew hbase'
    · have hfailed : ntSuccess statusUnsuccessful = false := rfl
      refine .inl ⟨early, ?_⟩
      simp only [rtlInitializeLdrDataTableEntry, if_pos hwin8, initializeWin8]
      simp only [early] at hinsert
      simp only [hinsert, hfailed, Bool.false_eq_true, if_false]
      rfl
    · rcases allocate_cases state.heap with ⟨_, _, _, _, hrefused⟩ | ⟨node, heap, hanswer, _⟩
      · exact absurd ⟨hwin8, hsome, hrefused 0⟩ hgranted
      · have hknown : state.ldrpModuleBaseAddressIndex ≠ none := hsome
        exact .inr ⟨node,
          initialize_win8 services headers base full hwin8 hknown hinsert hperm hanswer⟩
  · by_cases hnt50 : systemNt50Rtm < globals.windowsVersion
    · exact .inr ⟨0, initialize_old services headers base full hwin8 hnt50⟩
    · refine .inl ⟨early, ?_⟩
      simp only [rtlInitializeLdrDataTableEntry, if_neg hwin8, if_neg hnt50]
      rfl

theorem InitializedEntry.added {node : Nat} {state after : LdrState} {next : Heap}
    (h : InitializedEntry globals ⟨ldrEntry, base, full, node⟩
      { setEntry ldrEntry .zero state with heap := next } after) (hentry : ldrEntry ≠ 0)
    (htaken : Moves state.heap next [ldrEntry, base.buffer, full.buffer] []) :
    Added services globals ⟨ldrEntry, base, full, node⟩ state
      (rtlInsertMemoryTableEntry services globals ldrEntry after) := by
  have hafter := h.rest
  have hentryOf := h.entry hentry
  have hname : (after.entries ldrEntry).baseDllName = base := hentryOf.baseDllName
  refine ⟨?_, ?_, ?_, ?_, ?_, h.index, ?_, h.nodes, ?_, ?_⟩
  · exact ⟨hentryOf.version, hentry, hname, hentryOf.fullDllName, hentryOf.forwarderLinks,
      hentryOf.ddagNode, hentryOf.noNode⟩
  · rw [rtlInsertMemoryTableEntry, hafter]
    rfl
  · rw [rtlInsertMemoryTableEntry, hafter]
    rfl
  · rw [rtlInsertMemoryTableEntry, hafter]
    rfl
  · intro i
    have htable : after.ldrpHashTable = state.ldrpHashTable := by rw [hafter]; rfl
    simp only [rtlInsertMemoryTableEntry, hname, htable]
    by_cases hi : ldrHashEntry services globals base.text = i
    · subst hi
      simp
    · simp [hi, Function.update_of_ne (Ne.symm hi)]
  · intro e he
    exact (h.others e he).trans (Function.update_of_ne he _ _)
  · have hmoves := htaken.trans h.heap
    exact moves_gained hmoves ((List.perm_append_singleton node _).trans
      (.cons node (List.perm_append_singleton ldrEntry [base.buffer, full.buffer]).symm))
  · rw [rtlInsertMemoryTableEntry, hafter]
    rfl

theorem ldrMapDllMemory_named_effect {dllName lpFullDllName : Option (List Wchar)}
    {state : LdrState} (hindex : IndexWellFormed state)
    (hlive : ∀ e ∈ indexNodes state, e ∈ state.heap.live)
    (hbase : ∀ e ∈ indexNodes state, (state.entries e).dllBase ≠ baseAddress)
    {heap next : Heap} (hanswer : state.heap.allocate = (some ldrEntry, heap))
    (hresolve : services.rtlResolveDllNameUnicodeString dllName lpFullDllName heap =
      (some (base, full), next))
    (hgranted : ¬NodeRefused globals { state with heap := next }) :
    let result := ldrMapDllMemory services globals (some headers) baseAddress dllName
      lpFullDllName state
    (ntSuccess result.1 = false ∧ result.2.1 = none ∧ Unchanged state result.2.2) ∨
      ∃ m : MappedModule, result.1 = statusSuccess ∧ result.2.1 = some m.ldrEntry ∧
        Added services globals m state result.2.2 := by
  obtain ⟨hentry, hfresh, hheap, hlog⟩ := allocate_some hanswer
  let named := { setEntry ldrEntry .zero state with heap := next }
  have htaken : Moves state.heap next [ldrEntry, base.buffer, full.buffer] [] :=
    (granted_single hentry hfresh hheap hlog).moves.trans (resolve_moves services hresolve)
  have hnew : ldrEntry ∉ indexNodes named := fun hmem => hfresh (hlive ldrEntry hmem)
  have hindex' : IndexWellFormed named := ⟨hindex.nonempty, hindex.nodup⟩
  have hothers : ∀ e ≠ ldrEntry, named.entries e = state.entries e :=
    fun e he => Function.update_of_ne he _ _
  have hbase' : ∀ e ∈ indexNodes named, (named.entries e).dllBase ≠ baseAddress := by
    intro e he
    rw [hothers e fun heq => hnew (heq ▸ he)]
    exact hbase e he
  intro result
  obtain ⟨entry, hinit⟩ | ⟨node, after, hinit, hadded⟩ :=
    rtlInitializeLdrDataTableEntry_effect services headers base full hindex' hnew hbase' hgranted
  · have hresult : result = (statusUnsuccessful, none,
        freeBlock full.buffer (freeBlock base.buffer
          (freeBlock ldrEntry (setEntry ldrEntry entry named)))) :=
      ldrMapDllMemory_initialized hanswer hresolve hinit
    rw [hresult]
    refine .inl ⟨rfl, rfl, ⟨_, _, rfl⟩, ?_, ?_⟩
    · intro e he
      have hne : e ≠ ldrEntry := fun heq => hfresh (heq ▸ he)
      exact (Function.update_of_ne hne _ _).trans (hothers e hne)
    · exact moves_giveBack htaken
        (.of_eq (List.append_nil [ldrEntry, base.buffer, full.buffer]).symm)
  · have hresult : result = (statusSuccess, some ldrEntry,
        rtlInsertMemoryTableEntry services globals ldrEntry after) :=
      ldrMapDllMemory_initialized hanswer hresolve hinit
    rw [hresult]
    exact .inr ⟨⟨ldrEntry, base, full, node⟩, rfl, rfl, hadded.added services base full hentry htaken⟩

theorem unchanged_heap {state : LdrState} {heap : Heap} (h : Moves state.heap heap [] []) :
    Unchanged state { state with heap := heap } := ⟨⟨_, _, rfl⟩, fun _ _ => rfl, h⟩

/-- `LdrMapDllMemory` of an image under a base of its own adds one module or none. -/
theorem ldrMapDllMemory_effect (headers : Option ImageNtHeaders)
    {dllName lpFullDllName : Option (List Wchar)} {state : LdrState}
    (hindex : IndexWellFormed state) (hlive : ∀ e ∈ indexNodes state, e ∈ state.heap.live)
    (hbase : ∀ e ∈ indexNodes state, (state.entries e).dllBase ≠ baseAddress)
    (hgranted : ¬DdagNodeRefused services globals headers dllName lpFullDllName state) :
    let result := ldrMapDllMemory services globals headers baseAddress dllName lpFullDllName state
    (ntSuccess result.1 = false ∧ result.2.1 = none ∧ Unchanged state result.2.2) ∨
      ∃ m : MappedModule, result.1 = statusSuccess ∧ result.2.1 = some m.ldrEntry ∧
        Added services globals m state result.2.2 := by
  have hnothing : ∀ heap : Heap, heap.live = state.heap.live → heap.log = state.heap.log →
      Unchanged state { state with heap := heap } :=
    fun heap hsame hlog => unchanged_heap (Heap.Unused.moves (unused_of_refused hsame hlog))
  cases headers with
  | none => exact .inl ⟨rfl, rfl, hnothing state.heap rfl rfl⟩
  | some headers =>
    intro result
    rcases allocate_cases state.heap with ⟨heap, hanswer, hsame, hlog, _⟩ |
      ⟨ldrEntry, heap, hanswer, hentry, hfresh, hheap, hlog, _⟩
    · have hresult : result = (statusNoMemory, none, { state with heap := heap }) := by
        simp only [result, ldrMapDllMemory, rtlAllocateDataTableEntry, allocateZeroed, hanswer]
      rw [hresult]
      exact .inl ⟨rfl, rfl, hnothing heap hsame hlog⟩
    · rcases hresolve : services.rtlResolveDllNameUnicodeString dllName lpFullDllName heap with
        ⟨_ | ⟨base, full⟩, next⟩
      · obtain ⟨hsame, hlog'⟩ := services.resolve_fails hresolve
        have hresult : result = (statusNoMemory, none,
            freeBlock ldrEntry { setEntry ldrEntry .zero state with heap := next }) := by
          simp only [result, ldrMapDllMemory, rtlAllocateDataTableEntry, allocateZeroed, hanswer,
            setEntry, hresolve]
        have hnext : Moves state.heap next [ldrEntry] [] :=
          (granted_single hentry hfresh (hsame.trans hheap) (hlog'.trans hlog)).moves
        rw [hresult]
        refine .inl ⟨rfl, rfl, ⟨_, _, rfl⟩, ?_, ?_⟩
        · intro e he
          have hne : e ≠ ldrEntry := fun heq => hfresh (heq ▸ he)
          exact Function.update_of_ne hne _ _
        · exact moves_giveBack hnext (.of_eq (List.append_nil [ldrEntry]).symm)
      · refine ldrMapDllMemory_named_effect services headers base full hindex hlive hbase hanswer
          hresolve ?_
        rintro ⟨hwin8, hsome, hrefused⟩
        exact hgranted ⟨hwin8, Option.some_ne_none headers, hsome, ldrEntry, heap, (base, full),
          next, hanswer, hresolve, hrefused⟩

end Mapping

section Freeing

variable {globals : LdrGlobals} {rtlRbRemoveNode : BinTree Nat → Nat → BinTree Nat}
  {moduleOf : Nat → Nat} {m : MappedModule} {state : LdrState}

/-- What the initialisation leaves zero and teardown would follow: `ForwarderLinks`, on the very
version that only teardown compares with "or equal". -/
def ForwarderLinksCovered (globals : LdrGlobals) : Prop :=
  globals.windowsVersion = systemNt60Rtm → hasForwarderList globals = false

def freedState (m : MappedModule) (index : Option (BinTree Nat)) (state : LdrState) : LdrState :=
  { unlinkMemoryTableEntry m.ldrEntry state with
    ldrpModuleBaseAddressIndex := index
    heap := state.heap.freeAll m.blocks }

/-- A module that nothing depends on leaves the graph and the index. -/
theorem freeWin8_effect (hdelete : DeletesNode rtlRbRemoveNode) (hentry : EntryOf globals state m)
    (hwin8 : systemNt62Rtm ≤ globals.windowsVersion) {tree : BinTree Nat}
    (htree : state.ldrpModuleBaseAddressIndex = some tree) (hmem : m.ldrEntry ∈ tree.toList)
    (hnodup : tree.toList.Nodup) (fuel : Nat) :
    ∃ tree' : BinTree Nat, tree'.toList = tree.toList.erase m.ldrEntry ∧
      freeWin8 globals rtlRbRemoveNode fuel m.ldrEntry state = .ok { state with
        ldrpModuleBaseAddressIndex := some tree'
        heap := state.heap.free m.ddagNode } := by
  obtain ⟨-, hnode, hnone⟩ := hentry.ddagNode hwin8
  have hdependencies : rtlFreeDependencies globals fuel m.ldrEntry state = .ok state := by
    simp only [rtlFreeDependencies, hnode, hnone, if_true]
  have hsuccess : ntSuccess statusSuccess = true := rfl
  refine ⟨rtlRbRemoveNode tree m.ldrEntry, hdelete tree m.ldrEntry hmem hnodup, ?_⟩
  simp only [freeWin8, if_pos hwin8, hdependencies, freeBlock,
    rtlRemoveModuleBaseAddressIndexNode, htree, hsuccess, if_true, hnode]

theorem nt60_lt_of_le {version : Dword} (h : systemNt60Rtm ≤ version)
    (hne : version ≠ systemNt60Rtm) : systemNt60Rtm < version := by
  rw [BitVec.le_def] at h
  rw [BitVec.lt_def]
  have hval : version.toNat ≠ systemNt60Rtm.toNat := fun heq => hne (BitVec.eq_of_toNat_eq heq)
  omega

/-- The gate of Vista does nothing for a module without forwarders. -/
theorem freeForwarderLinks_effect (hcovered : ForwarderLinksCovered globals)
    (hentry : EntryOf globals state m) {mid : LdrState}
    (hsame : mid.entries m.ldrEntry = state.entries m.ldrEntry) :
    freeForwarderLinks globals moduleOf m.ldrEntry mid = .ok mid := by
  unfold freeForwarderLinks
  split
  · next hgate =>
    have hne : globals.windowsVersion ≠ systemNt60Rtm := by
      intro heq
      rw [hcovered heq] at hgate
      exact Bool.false_ne_true hgate.2
    have hlist := hentry.forwarderLinks (nt60_lt_of_le hgate.1 hne) hgate.2
    rw [hsame, hlist]
    rfl
  · rfl

theorem freeCommon_effect (hentry : EntryOf globals state m) {mid : LdrState}
    (hsame : mid.entries m.ldrEntry = state.entries m.ldrEntry) :
    freeCommon globals m.ldrEntry mid = (true, { unlinkMemoryTableEntry m.ldrEntry mid with
      heap := mid.heap.freeAll [m.baseDllName.buffer, m.fullDllName.buffer, m.ldrEntry] }) := by
  have hversion : systemNt50Rtm ≤ globals.windowsVersion := by
    have hlt := hentry.version
    rw [BitVec.lt_def] at hlt
    rw [BitVec.le_def]
    omega
  simp only [freeCommon, if_pos hversion, freeBlock, hsame, hentry.baseDllName,
    hentry.fullDllName]
  rfl

theorem rtlFreeLdrDataTableEntry_effect (moduleOf : Nat → Nat)
    (hcovered : ForwarderLinksCovered globals) (hdelete : DeletesNode rtlRbRemoveNode)
    (hentry : EntryOf globals state m)
    (hindex : systemNt62Rtm ≤ globals.windowsVersion →
      state.ldrpModuleBaseAddressIndex ≠ none ∧ m.ldrEntry ∈ indexNodes state ∧
        (indexNodes state).Nodup) (fuel : Nat) :
    ∃ index, rtlFreeLdrDataTableEntry globals rtlRbRemoveNode moduleOf fuel m.ldrEntry state =
        .ok (true, freedState m index state) ∧
      if systemNt62Rtm ≤ globals.windowsVersion then
        ∃ tree : BinTree Nat, index = some tree ∧
          tree.toList = (indexNodes state).erase m.ldrEntry
      else index = state.ldrpModuleBaseAddressIndex := by
  -- after the first part the entry is as it was, so the other two do their work
  have hrest : ∀ mid : LdrState, freeWin8 globals rtlRbRemoveNode fuel m.ldrEntry state = .ok mid →
      mid.entries m.ldrEntry = state.entries m.ldrEntry →
      rtlFreeLdrDataTableEntry globals rtlRbRemoveNode moduleOf fuel m.ldrEntry state =
        .ok (true, { unlinkMemoryTableEntry m.ldrEntry mid with
          heap := mid.heap.freeAll
            [m.baseDllName.buffer, m.fullDllName.buffer, m.ldrEntry] }) := by
    intro mid hfirst hsame
    rw [rtlFreeLdrDataTableEntry, hfirst]
    change (freeForwarderLinks globals moduleOf m.ldrEntry mid >>= fun state =>
      return freeCommon globals m.ldrEntry state) = _
    rw [freeForwarderLinks_effect hcovered hentry hsame]
    change Except.ok (freeCommon globals m.ldrEntry mid) = _
    rw [freeCommon_effect hentry hsame]
  by_cases hwin8 : systemNt62Rtm ≤ globals.windowsVersion
  · obtain ⟨hsome, hmem, hnodup⟩ := hindex hwin8
    obtain ⟨tree, htree⟩ := Option.ne_none_iff_exists'.mp hsome
    have hnodes : indexNodes state = tree.toList := by rw [indexNodes, htree]
    rw [hnodes] at hmem hnodup ⊢
    obtain ⟨tree', herase, hfree⟩ :=
      freeWin8_effect hdelete hentry hwin8 htree hmem hnodup fuel
    refine ⟨some tree', hrest _ hfree rfl, ?_⟩
    rw [if_pos hwin8]
    exact ⟨tree', rfl, herase⟩
  · have hfirst : freeWin8 globals rtlRbRemoveNode fuel m.ldrEntry state = .ok state := by
      rw [freeWin8, if_neg hwin8]
    have hnull : state.heap.freeAll m.blocks = state.heap.freeAll
        [m.baseDllName.buffer, m.fullDllName.buffer, m.ldrEntry] := by
      rw [MappedModule.blocks, hentry.noNode hwin8]
      rfl
    refine ⟨state.ldrpModuleBaseAddressIndex, ?_, ?_⟩
    · rw [hrest state hfirst rfl, freedState, hnull]
      rfl
    · rw [if_neg hwin8]

end Freeing

/-- The database of a process without memory modules. -/
structure NativeDatabase (native : LdrState) : Prop where
  wellFormed : DatabaseWellFormed native
  nodes : ∀ e, Reachable native e →
    (native.entries e).ddagNode = 0 ∨ (native.entries e).ddagNode ∈ native.heap.live
  nonnull : 0 ∉ native.heap.live
  single : native.heap.Single

/-- From Windows 8 on the index, if it is known, has a node for each module besides the native
ones. -/
def IndexHolds (globals : LdrGlobals) (native : LdrState) (mapped : List MappedModule)
    (state : LdrState) : Prop :=
  if systemNt62Rtm ≤ globals.windowsVersion then
    (state.ldrpModuleBaseAddressIndex = none ↔ native.ldrpModuleBaseAddressIndex = none) ∧
      (mapped ≠ [] → state.ldrpModuleBaseAddressIndex ≠ none) ∧
      (indexNodes state).Perm (mapped.map MappedModule.ldrEntry ++ indexNodes native)
  else state.ldrpModuleBaseAddressIndex = native.ldrpModuleBaseAddressIndex

/-- The database holds the native entries and, behind them, the mapped modules. -/
structure Holds (services : LdrServices) (globals : LdrGlobals) (native : LdrState)
    (mapped : List MappedModule) (state : LdrState) : Prop where
  inLoadOrder : state.inLoadOrderModuleList =
    native.inLoadOrderModuleList ++ mapped.map MappedModule.ldrEntry
  inMemoryOrder : state.inMemoryOrderModuleList =
    native.inMemoryOrderModuleList ++ mapped.map MappedModule.ldrEntry
  inInitializationOrder : state.inInitializationOrderModuleList =
    native.inInitializationOrderModuleList ++ mapped.map MappedModule.ldrEntry
  hashTable : ∀ i, state.ldrpHashTable i = native.ldrpHashTable i ++
    (mapped.filter fun m => ldrHashEntry services globals m.baseDllName.text = i).map
      MappedModule.ldrEntry
  index : IndexHolds globals native mapped state
  entry : ∀ m ∈ mapped, EntryOf globals state m
  entries : ∀ e ∈ native.heap.live, state.entries e = native.entries e
  nodes : ∀ n, n = 0 ∨ n ∈ native.heap.live → state.ddagNodes n = native.ddagNodes n
  heap : Moves native.heap state.heap (mapped.flatMap MappedModule.blocks) []
  unloaded : state.unloaded = native.unloaded

theorem EntryOf.congr {globals : LdrGlobals} {state after : LdrState} {m : MappedModule}
    (h : EntryOf globals state m) (hentry : after.entries m.ldrEntry = state.entries m.ldrEntry)
    (hnode : systemNt62Rtm ≤ globals.windowsVersion →
      after.ddagNodes m.ddagNode = state.ddagNodes m.ddagNode) : EntryOf globals after m where
  version := h.version
  nonnull := h.nonnull
  baseDllName := hentry ▸ h.baseDllName
  fullDllName := hentry ▸ h.fullDllName
  forwarderLinks := hentry ▸ h.forwarderLinks
  ddagNode := by
    intro hwin8
    rw [hentry, hnode hwin8]
    exact h.ddagNode hwin8
  noNode := h.noNode

section Runs

variable {services : LdrServices} {globals : LdrGlobals} {native state after : LdrState}
  {mapped older younger : List MappedModule} {m : MappedModule}

theorem mem_blocks_ldrEntry (m : MappedModule) : m.ldrEntry ∈ m.blocks := by
  simp [MappedModule.blocks]

theorem mem_blocks_ddagNode (m : MappedModule) : m.ddagNode ∈ m.blocks := by
  simp [MappedModule.blocks]

theorem Holds.live (h : Holds services globals native mapped state) {b : Nat} (hb : b ≠ 0)
    (hmem : b ∈ native.heap.live ∨ ∃ m ∈ mapped, b ∈ m.blocks) : b ∈ state.heap.live := by
  have hcount := h.heap.live b hb
  rw [List.count_nil, Nat.add_zero] at hcount
  apply List.count_pos_iff.mp
  rw [hcount]
  obtain hnative | ⟨m, hm, hblock⟩ := hmem
  · exact Nat.add_pos_left (List.count_pos_iff.mpr hnative) _
  · exact Nat.add_pos_right _ (List.count_pos_iff.mpr (List.mem_flatMap.mpr ⟨m, hm, hblock⟩))

/-- A block of a mapped module is no native one, and no other module has it. -/
theorem Holds.apart (h : Holds services globals native (older ++ m :: younger) state)
    (hnative : NativeDatabase native) {b : Nat} (hb : b ≠ 0) (hmem : b ∈ m.blocks) :
    b ∉ native.heap.live ∧ ∀ other ∈ older ++ younger, b ∉ other.blocks := by
  have hblock : b ∈ (older ++ m :: younger).flatMap MappedModule.blocks :=
    List.mem_flatMap.mpr ⟨m, by simp, hmem⟩
  refine ⟨h.heap.grows.fresh hnative.single hb hblock, ?_⟩
  intro other hother hshared
  have honce := h.heap.grows.once hnative.single hb
  have hperm : ((older ++ m :: younger).flatMap MappedModule.blocks).Perm
      (m.blocks ++ (older ++ younger).flatMap MappedModule.blocks) :=
    (List.perm_middle (a := m)).flatMap_right MappedModule.blocks
  rw [hperm.count_eq, List.count_append] at honce
  have hown := List.count_pos_iff.mpr hmem
  have hforeign := List.count_pos_iff.mpr (List.mem_flatMap.mpr ⟨other, hother, hshared⟩)
  omega

theorem holds_start : Holds services globals native [] native where
  inLoadOrder := (List.append_nil _).symm
  inMemoryOrder := (List.append_nil _).symm
  inInitializationOrder := (List.append_nil _).symm
  hashTable := fun _ => (List.append_nil _).symm
  index := by
    unfold IndexHolds
    split
    · exact ⟨.rfl, fun hne => absurd rfl hne, .refl _⟩
    · rfl
  entry := fun _ hm => absurd hm List.not_mem_nil
  entries := fun _ _ => rfl
  nodes := fun _ _ => rfl
  heap := ⟨fun _ _ => rfl, .refl _, id⟩
  unloaded := rfl

theorem holds_unchanged (hnative : NativeDatabase native)
    (h : Holds services globals native mapped state) (hchange : Unchanged state after) :
    Holds services globals native mapped after := by
  obtain ⟨entries, heap, rfl⟩ := hchange.rest
  have hentries := hchange.entries
  refine ⟨h.inLoadOrder, h.inMemoryOrder, h.inInitializationOrder, h.hashTable, h.index,
    ?_, ?_, h.nodes, ?_, h.unloaded⟩
  · intro m hm
    have hentry := h.entry m hm
    refine hentry.congr (hentries m.ldrEntry ?_) fun _ => rfl
    exact h.live hentry.nonnull (.inr ⟨m, hm, mem_blocks_ldrEntry m⟩)
  · intro e he
    have hnonnull : e ≠ 0 := fun heq => hnative.nonnull (heq ▸ he)
    exact (hentries e (h.live hnonnull (.inl he))).trans (h.entries e he)
  · have hmoves := h.heap.trans hchange.heap
    rw [List.append_nil] at hmoves
    exact hmoves

theorem flatMap_blocks_concat (mapped : List MappedModule) (m : MappedModule) :
    (mapped ++ [m]).flatMap MappedModule.blocks =
      mapped.flatMap MappedModule.blocks ++ m.blocks := by
  rw [List.flatMap_append, List.flatMap_singleton]

theorem indexHolds_added (h : IndexHolds globals native mapped state)
    (hadded : if systemNt62Rtm ≤ globals.windowsVersion then
        state.ldrpModuleBaseAddressIndex ≠ none ∧ after.ldrpModuleBaseAddressIndex ≠ none ∧
          (indexNodes after).Perm (m.ldrEntry :: indexNodes state)
      else after.ldrpModuleBaseAddressIndex = state.ldrpModuleBaseAddressIndex) :
    IndexHolds globals native (mapped ++ [m]) after := by
  unfold IndexHolds at h ⊢
  split at h
  · next hwin8 =>
    rw [if_pos hwin8] at hadded ⊢
    obtain ⟨hknown, hknown', hadds⟩ := hadded
    refine ⟨?_, fun _ => hknown', ?_⟩
    · rw [← h.1]
      exact iff_of_false hknown' hknown
    · rw [List.map_append, List.append_assoc]
      exact (hadds.trans (.cons m.ldrEntry h.2.2)).trans List.perm_middle.symm
  · next hold =>
    rw [if_neg hold] at hadded ⊢
    exact hadded.trans h

theorem holds_added (hnative : NativeDatabase native)
    (h : Holds services globals native mapped state)
    (hadded : Added services globals m state after) :
    Holds services globals native (mapped ++ [m]) after := by
  have hentry := hadded.entry
  have hsingle : state.heap.Single := h.heap.single hnative.single
  have hfresh : ∀ b ∈ m.blocks, b ≠ 0 → b ∉ state.heap.live :=
    fun b hb hnonnull => hadded.heap.grows.fresh hsingle hnonnull hb
  have hnewEntry : m.ldrEntry ∉ state.heap.live :=
    hfresh m.ldrEntry (mem_blocks_ldrEntry m) hentry.nonnull
  have hnewNode : ∀ n, n ≠ 0 → n ∈ state.heap.live → n ≠ m.ddagNode := by
    rintro n hnonnull hlive rfl
    exact hfresh m.ddagNode (mem_blocks_ddagNode m) hnonnull hlive
  constructor
  · rw [hadded.inLoadOrder, h.inLoadOrder, List.map_append, List.append_assoc]
    rfl
  · rw [hadded.inMemoryOrder, h.inMemoryOrder, List.map_append, List.append_assoc]
    rfl
  · rw [hadded.inInitializationOrder, h.inInitializationOrder, List.map_append,
      List.append_assoc]
    rfl
  · intro i
    rw [hadded.hashTable, h.hashTable, List.filter_append, List.map_append, List.append_assoc]
    by_cases hi : ldrHashEntry services globals m.baseDllName.text = i
    · simp [hi]
    · simp [hi]
  · exact indexHolds_added h.index hadded.index
  · intro other hother
    rcases List.mem_append.mp hother with hother | hother
    · have hold := h.entry other hother
      have hlive := h.live hold.nonnull (.inr ⟨other, hother, mem_blocks_ldrEntry other⟩)
      refine hold.congr (hadded.others _ fun heq => hnewEntry (heq ▸ hlive)) fun hwin8 => ?_
      have hnonnull := (hold.ddagNode hwin8).1
      refine hadded.nodes _ (.inr (hnewNode _ hnonnull ?_))
      exact h.live hnonnull (.inr ⟨other, hother, mem_blocks_ddagNode other⟩)
    · rw [List.mem_singleton.mp hother]
      exact hentry
  · intro e he
    have hnonnull : e ≠ 0 := fun heq => hnative.nonnull (heq ▸ he)
    have hlive := h.live hnonnull (.inl he)
    exact (hadded.others e fun heq => hnewEntry (heq ▸ hlive)).trans (h.entries e he)
  · intro n hn
    refine (hadded.nodes n ?_).trans (h.nodes n hn)
    refine hn.imp id fun hlive => ?_
    have hnonnull : n ≠ 0 := fun heq => hnative.nonnull (heq ▸ hlive)
    exact hnewNode n hnonnull (h.live hnonnull (.inl hlive))
  · rw [flatMap_blocks_concat]
    exact h.heap.trans hadded.heap
  · exact hadded.unloaded.trans h.unloaded

theorem map_ldrEntry_sublist (mapped : List MappedModule) :
    (mapped.map MappedModule.ldrEntry).Sublist (mapped.flatMap MappedModule.blocks) := by
  induction mapped with
  | nil => exact .slnil
  | cons m rest ih =>
    have hown : [m.ldrEntry].Sublist m.blocks := List.singleton_sublist.mpr (mem_blocks_ldrEntry m)
    exact hown.append ih

theorem Holds.nodup (hnative : NativeDatabase native)
    (h : Holds services globals native mapped state) :
    (mapped.map MappedModule.ldrEntry).Nodup := by
  rw [List.nodup_iff_count_le_one]
  intro b
  by_cases hb : b ∈ mapped.map MappedModule.ldrEntry
  · obtain ⟨m, hm, rfl⟩ := List.mem_map.mp hb
    have honce := h.heap.grows.once hnative.single (h.entry m hm).nonnull
    exact Nat.le_trans ((map_ldrEntry_sublist mapped).count_le _) honce
  · rw [List.count_eq_zero.mpr hb]
    exact Nat.zero_le 1

theorem Holds.entry_fresh (hnative : NativeDatabase native)
    (h : Holds services globals native mapped state) (hm : m ∈ mapped) :
    m.ldrEntry ∉ native.heap.live := by
  obtain ⟨older, younger, rfl⟩ := List.append_of_mem hm
  exact (h.apart hnative (h.entry m hm).nonnull (mem_blocks_ldrEntry m)).1

theorem IndexHolds.nonempty (hnative : NativeDatabase native)
    (h : IndexHolds globals native mapped state) {tree : BinTree Nat}
    (htree : state.ldrpModuleBaseAddressIndex = some tree) : tree.isEmpty = false := by
  have hnodes : indexNodes state = tree.toList := by rw [indexNodes, htree]
  have hfull := hnative.wellFormed.index.nonempty
  unfold IndexHolds at h
  split at h
  · obtain ⟨hknown, -, hperm⟩ := h
    have hsome : native.ldrpModuleBaseAddressIndex ≠ none := by
      intro hnone
      rw [hknown.mpr hnone] at htree
      cases htree
    obtain ⟨root, hroot⟩ := Option.ne_none_iff_exists'.mp hsome
    have hroots : indexNodes native = root.toList := by rw [indexNodes, hroot]
    by_contra hempty
    have hnil : tree.toList = [] := isEmpty_toList (by simpa using hempty)
    rw [hnodes, hnil, hroots] at hperm
    have hempty' := (List.append_eq_nil_iff.mp (List.nil_perm.mp hperm)).2
    have hroot' := hfull root hroot
    cases root with
    | nil => cases hroot'
    | node l x r => simp [BinTree.toList] at hempty'
  · exact hfull tree (h ▸ htree)

theorem Holds.indexWellFormed (hnative : NativeDatabase native)
    (h : Holds services globals native mapped state) :
    IndexWellFormed state ∧ ∀ e ∈ indexNodes state, e ∈ state.heap.live := by
  have hreach : ∀ e ∈ indexNodes native, Reachable native e :=
    fun e he => .inr (.inr (.inr (.inr he)))
  have hlive : ∀ e ∈ indexNodes native, e ∈ native.heap.live :=
    fun e he => hnative.wellFormed.live e (hreach e he)
  have hkept : ∀ e ∈ indexNodes native, e ∈ state.heap.live := by
    intro e he
    have hnonnull : e ≠ 0 := fun heq => hnative.nonnull (heq ▸ hlive e he)
    exact h.live hnonnull (.inl (hlive e he))
  have hnonempty : ∀ tree, state.ldrpModuleBaseAddressIndex = some tree → tree.isEmpty = false :=
    fun _ htree => h.index.nonempty hnative htree
  have hindex := h.index
  unfold IndexHolds at hindex
  split at hindex
  · obtain ⟨-, -, hperm⟩ := hindex
    constructor
    · refine ⟨hnonempty, hperm.nodup_iff.mpr (List.nodup_append.mpr
        ⟨h.nodup hnative, hnative.wellFormed.index.nodup, ?_⟩)⟩
      rintro e he _ he' rfl
      obtain ⟨m, hm, rfl⟩ := List.mem_map.mp he
      exact h.entry_fresh hnative hm (hlive _ he')
    · intro e he
      rcases List.mem_append.mp (hperm.subset he) with he | he
      · obtain ⟨m, hm, rfl⟩ := List.mem_map.mp he
        exact h.live (h.entry m hm).nonnull (.inr ⟨m, hm, mem_blocks_ldrEntry m⟩)
      · exact hkept e he
  · have hnodes : indexNodes state = indexNodes native := by rw [indexNodes, indexNodes, hindex]
    rw [hnodes]
    exact ⟨⟨hnonempty, hnodes ▸ hnative.wellFormed.index.nodup⟩, hkept⟩

theorem erase_own {e : Nat} {natives before behind : List Nat} (hnative : e ∉ natives)
    (hbefore : e ∉ before) :
    (natives ++ (before ++ e :: behind)).erase e = natives ++ (before ++ behind) := by
  rw [List.erase_append_right _ hnative, List.erase_append_right _ hbefore,
    List.erase_cons_head]

theorem indexHolds_freed (h : IndexHolds globals native (older ++ m :: younger) state)
    (hother : m.ldrEntry ∉ older.map MappedModule.ldrEntry) {index : Option (BinTree Nat)}
    (hindex : if systemNt62Rtm ≤ globals.windowsVersion then
        ∃ tree : BinTree Nat, index = some tree ∧ tree.toList = (indexNodes state).erase m.ldrEntry
      else index = state.ldrpModuleBaseAddressIndex) :
    IndexHolds globals native (older ++ younger) (freedState m index state) := by
  unfold IndexHolds at h ⊢
  split at h
  · next hwin8 =>
    rw [if_pos hwin8] at hindex ⊢
    obtain ⟨tree, rfl, htree⟩ := hindex
    have hknown := h.2.1 (by simp)
    refine ⟨?_, fun _ => Option.some_ne_none tree, ?_⟩
    · rw [← h.1]
      exact iff_of_false (Option.some_ne_none tree) hknown
    · change tree.toList.Perm _
      have hperm := h.2.2.erase m.ldrEntry
      rw [List.map_append, List.map_cons, List.append_assoc,
        List.erase_append_right _ hother, List.cons_append, List.erase_cons_head] at hperm
      rw [htree, List.map_append, List.append_assoc]
      exact hperm
  · next hold =>
    rw [if_neg hold] at hindex ⊢
    exact hindex.trans h

theorem holds_freed (hnative : NativeDatabase native)
    (h : Holds services globals native (older ++ m :: younger) state)
    {index : Option (BinTree Nat)}
    (hindex : if systemNt62Rtm ≤ globals.windowsVersion then
        ∃ tree : BinTree Nat, index = some tree ∧ tree.toList = (indexNodes state).erase m.ldrEntry
      else index = state.ldrpModuleBaseAddressIndex) :
    Holds services globals native (older ++ younger) (freedState m index state) := by
  have hm : m ∈ older ++ m :: younger := by simp
  have hentry := h.entry m hm
  have hfresh : m.ldrEntry ∉ native.heap.live := h.entry_fresh hnative hm
  have hreach : ¬Reachable native m.ldrEntry :=
    fun hreach => hfresh (hnative.wellFormed.live _ hreach)
  have hnodup := h.nodup hnative
  rw [List.map_append, List.map_cons, List.nodup_middle, List.nodup_cons, List.mem_append] at hnodup
  obtain ⟨hother, -⟩ := hnodup
  rw [not_or] at hother
  have hrest : ∀ natives : List Nat, m.ldrEntry ∉ natives →
      (natives ++ (older ++ m :: younger).map MappedModule.ldrEntry).erase m.ldrEntry =
        natives ++ (older ++ younger).map MappedModule.ldrEntry := by
    intro natives hnatives
    rw [List.map_append, List.map_cons, erase_own hnatives hother.1, List.map_append]
  constructor
  · change state.inLoadOrderModuleList.erase m.ldrEntry = _
    rw [h.inLoadOrder]
    exact hrest _ fun hmem => hreach (.inl hmem)
  · change state.inMemoryOrderModuleList.erase m.ldrEntry = _
    rw [h.inMemoryOrder]
    exact hrest _ fun hmem => hreach (.inr (.inl hmem))
  · change state.inInitializationOrderModuleList.erase m.ldrEntry = _
    rw [h.inInitializationOrder]
    exact hrest _ fun hmem => hreach (.inr (.inr (.inl hmem)))
  · intro i
    change (state.ldrpHashTable i).erase m.ldrEntry = _
    rw [h.hashTable]
    have hbucket : m.ldrEntry ∉ native.ldrpHashTable i :=
      fun hmem => hreach (.inr (.inr (.inr (.inl ⟨i, hmem⟩))))
    have hfiltered : ∀ (keep : MappedModule → Bool) {side : List MappedModule},
        m.ldrEntry ∉ side.map MappedModule.ldrEntry →
          m.ldrEntry ∉ (side.filter keep).map MappedModule.ldrEntry :=
      fun keep side hside hmem =>
        hside ((List.filter_sublist.map MappedModule.ldrEntry).subset hmem)
    rw [List.filter_append, List.filter_cons, List.filter_append]
    split
    · rw [List.map_append, List.map_cons, erase_own hbucket (hfiltered _ hother.1),
        List.map_append]
    · refine List.erase_of_not_mem ?_
      rw [List.map_append, List.mem_append, List.mem_append, not_or, not_or]
      exact ⟨hbucket, hfiltered _ hother.1, hfiltered _ hother.2⟩
  · exact indexHolds_freed h.index hother.1 hindex
  · intro other hmem
    have hmem' : other ∈ older ++ m :: younger := by
      rcases List.mem_append.mp hmem with hmem | hmem
      · exact List.mem_append_left _ hmem
      · exact List.mem_append_right _ (List.mem_cons_of_mem m hmem)
    exact (h.entry other hmem').congr rfl fun _ => rfl
  · exact h.entries
  · exact h.nodes
  · refine moves_giveBack h.heap ?_
    exact (List.perm_middle (a := m)).flatMap_right MappedModule.blocks
  · exact h.unloaded

end Runs

/-- What a call of `LdrMapDllMemory` asks for. -/
structure MapRequest where
  headers : Option ImageNtHeaders
  viewBase : Nat
  dllName : Option (List Wchar)
  lpFullDllName : Option (List Wchar)

/-- Maps and frees in any order; `entries` are those that were mapped and not freed. An image
is mapped under a base of its own, with a block for its DDAG node. -/
inductive TableRun (services : LdrServices) (globals : LdrGlobals)
    (rtlRbRemoveNode : BinTree Nat → Nat → BinTree Nat) (moduleOf : Nat → Nat)
    (native : LdrState) : List Nat → LdrState → Prop
  | start : TableRun services globals rtlRbRemoveNode moduleOf native [] native
  | map {entries : List Nat} {state : LdrState} (request : MapRequest)
      (hrun : TableRun services globals rtlRbRemoveNode moduleOf native entries state)
      (hbase : ∀ e ∈ indexNodes state, (state.entries e).dllBase ≠ request.viewBase)
      (hgranted : ¬DdagNodeRefused services globals request.headers request.dllName
        request.lpFullDllName state) {result : NtStatus × Option Nat × LdrState}
      (hcall : ldrMapDllMemory services globals request.headers request.viewBase request.dllName
        request.lpFullDllName state = result) :
      TableRun services globals rtlRbRemoveNode moduleOf native
        (entries ++ result.2.1.toList) result.2.2
  | free {older younger : List Nat} {ldrEntry fuel : Nat} {state after : LdrState} {answer : Bool}
      (hrun : TableRun services globals rtlRbRemoveNode moduleOf native
        (older ++ ldrEntry :: younger) state)
      (hcall : rtlFreeLdrDataTableEntry globals rtlRbRemoveNode moduleOf fuel ldrEntry state =
        .ok (answer, after)) :
      TableRun services globals rtlRbRemoveNode moduleOf native (older ++ younger) after

/-- What the loader and the heap see of the entries that are mapped. -/
structure ShowsEntries (services : LdrServices) (globals : LdrGlobals) (native : LdrState)
    (entries : List Nat) (state : LdrState) : Prop where
  inLoadOrder : state.inLoadOrderModuleList = native.inLoadOrderModuleList ++ entries
  inMemoryOrder : state.inMemoryOrderModuleList = native.inMemoryOrderModuleList ++ entries
  inInitializationOrder : state.inInitializationOrderModuleList =
    native.inInitializationOrderModuleList ++ entries
  hashTable : ∀ i, state.ldrpHashTable i = native.ldrpHashTable i ++ entries.filter fun e =>
    ldrHashEntry services globals (state.entries e).baseDllName.text = i
  index : (indexNodes state).Perm
    ((if systemNt62Rtm ≤ globals.windowsVersion then entries else []) ++ indexNodes native)
  natives : ∀ e, Reachable native e →
    state.entries e = native.entries e ∧ counts state e = counts native e
  balanced : Balanced native.heap state.heap
  single : state.heap.Single
  unloaded : state.unloaded = native.unloaded

section Theorem

variable {services : LdrServices} {globals : LdrGlobals}
  {rtlRbRemoveNode : BinTree Nat → Nat → BinTree Nat} {moduleOf : Nat → Nat}
  {native state : LdrState} {mapped : List MappedModule} {entries : List Nat}

theorem Holds.frees (moduleOf : Nat → Nat) (hcovered : ForwarderLinksCovered globals)
    (hdelete : DeletesNode rtlRbRemoveNode) (hnative : NativeDatabase native)
    {older younger : List MappedModule} {m : MappedModule}
    (h : Holds services globals native (older ++ m :: younger) state) (fuel : Nat) :
    ∃ after, rtlFreeLdrDataTableEntry globals rtlRbRemoveNode moduleOf fuel m.ldrEntry state =
        .ok (true, after) ∧ Holds services globals native (older ++ younger) after := by
  have hm : m ∈ older ++ m :: younger := by simp
  have hwellFormed := (h.indexWellFormed hnative).1
  have hindex : systemNt62Rtm ≤ globals.windowsVersion →
      state.ldrpModuleBaseAddressIndex ≠ none ∧ m.ldrEntry ∈ indexNodes state ∧
        (indexNodes state).Nodup := by
    intro hwin8
    have hholds := h.index
    rw [IndexHolds, if_pos hwin8] at hholds
    refine ⟨hholds.2.1 (by simp), ?_, hwellFormed.nodup⟩
    exact hholds.2.2.symm.subset (List.mem_append_left _ (List.mem_map_of_mem hm))
  obtain ⟨index, hrun, hfreed⟩ := rtlFreeLdrDataTableEntry_effect moduleOf hcovered
    hdelete (h.entry m hm) hindex fuel
  exact ⟨freedState m index state, hrun, holds_freed hnative h hfreed⟩

theorem tableRun_holds (hcovered : ForwarderLinksCovered globals)
    (hdelete : DeletesNode rtlRbRemoveNode) (hnative : NativeDatabase native)
    (hrun : TableRun services globals rtlRbRemoveNode moduleOf native entries state) :
    ∃ mapped : List MappedModule, entries = mapped.map MappedModule.ldrEntry ∧
      Holds services globals native mapped state := by
  induction hrun with
  | start => exact ⟨[], rfl, holds_start⟩
  | map request hrun hbase hgranted hcall ih =>
    obtain ⟨mapped, rfl, h⟩ := ih
    obtain ⟨hindex, hlive⟩ := h.indexWellFormed hnative
    have heffect := ldrMapDllMemory_effect services request.headers hindex hlive hbase hgranted
    rw [hcall] at heffect
    obtain ⟨-, hout, hchange⟩ | ⟨m, -, hout, hadded⟩ := heffect
    · exact ⟨mapped, by simp [hout], holds_unchanged hnative h hchange⟩
    · exact ⟨mapped ++ [m], by simp [hout], holds_added hnative h hadded⟩
  | @free older younger ldrEntry fuel state after answer hrun hcall ih =>
    obtain ⟨mapped, hentries, h⟩ := ih
    obtain ⟨before, rest, rfl, rfl, hrest⟩ := List.append_eq_map_iff.mp hentries
    obtain ⟨m, behind, rfl, rfl, rfl⟩ := List.map_eq_cons_iff.mp hrest
    obtain ⟨final, hfree, hfreed⟩ := h.frees moduleOf hcovered hdelete hnative fuel
    rw [hcall] at hfree
    cases hfree
    exact ⟨before ++ behind, List.map_append.symm, hfreed⟩

theorem Holds.shows (hnative : NativeDatabase native)
    (h : Holds services globals native mapped state) :
    ShowsEntries services globals native (mapped.map MappedModule.ldrEntry) state := by
  refine ⟨h.inLoadOrder, h.inMemoryOrder, h.inInitializationOrder, ?_, ?_, ?_,
    h.heap.balanced, h.heap.single hnative.single, h.unloaded⟩
  · intro i
    rw [h.hashTable, List.filter_map]
    congr 2
    apply List.filter_congr
    intro m hm
    rw [Function.comp_apply, (h.entry m hm).baseDllName]
  · have hindex := h.index
    unfold IndexHolds at hindex
    split at hindex
    · next hwin8 =>
      rw [if_pos hwin8]
      exact hindex.2.2
    · next hold =>
      rw [if_neg hold, indexNodes, indexNodes, hindex]
      exact .refl _
  · intro e hreach
    have hentry := h.entries e (hnative.wellFormed.live e hreach)
    refine ⟨hentry, ?_⟩
    rw [counts, counts, hentry, h.nodes _ (hnative.nodes e hreach)]

theorem ShowsEntries.same (h : ShowsEntries services globals native [] state) :
    SameDatabase native state where
  inLoadOrder := h.inLoadOrder.trans (List.append_nil _)
  inMemoryOrder := h.inMemoryOrder.trans (List.append_nil _)
  inInitializationOrder := h.inInitializationOrder.trans (List.append_nil _)
  hashTable := funext fun i => (h.hashTable i).trans (List.append_nil _)
  index := by
    intro e
    have hperm := h.index
    rw [ite_self, List.nil_append] at hperm
    exact hperm.mem_iff
  counts := fun e hreach => (h.natives e hreach).2

/-- Memory modules come and go: after any maps and frees the loader lists, the buckets and the
index hold the native entries and behind them those that are still mapped, each of which can
be freed next; nothing is freed that is not live, and when none is left the database and the
blocks of the heap are those of before. -/
theorem memory_modules_come_and_go (hcovered : ForwarderLinksCovered globals)
    (hdelete : DeletesNode rtlRbRemoveNode) (hnative : NativeDatabase native)
    (hrun : TableRun services globals rtlRbRemoveNode moduleOf native entries state) :
    ShowsEntries services globals native entries state ∧
      (∀ e ∈ entries, ∀ fuel, ∃ after,
        rtlFreeLdrDataTableEntry globals rtlRbRemoveNode moduleOf fuel e state =
          .ok (true, after)) ∧
      (entries = [] → SameDatabase native state ∧
        ∀ b ≠ 0, state.heap.live.count b = native.heap.live.count b) := by
  obtain ⟨mapped, rfl, h⟩ := tableRun_holds hcovered hdelete hnative hrun
  have hshows := h.shows hnative
  refine ⟨hshows, ?_, ?_⟩
  · intro e he fuel
    obtain ⟨m, hm, rfl⟩ := List.mem_map.mp he
    obtain ⟨older, younger, rfl⟩ := List.append_of_mem hm
    obtain ⟨after, hfree, -⟩ := h.frees moduleOf hcovered hdelete hnative fuel
    exact ⟨after, hfree⟩
  · intro hnone
    rw [hnone] at hshows
    refine ⟨hshows.same, ?_⟩
    intro b hb
    have hlive := h.heap.live b hb
    rw [List.map_eq_nil_iff.mp hnone] at hlive
    exact hlive

end Theorem

theorem ntdllOnly_native (answers : List (Option Nat)) : NativeDatabase (ntdllOnly answers) where
  wellFormed := ntdllOnly_wellFormed answers
  nodes := fun _ _ => .inr (by simp [ntdllOnly])
  nonnull := by simp [ntdllOnly]
  single := by
    intro b _
    exact List.nodup_iff_count_le_one.mp (by simp [ntdllOnly]) b

/-- One image, mapped and freed again. -/
theorem memory_modules_come_and_go_win10 :
    let globals : LdrGlobals := ⟨systemWin10Rtm, 0x118, 0⟩
    let headers : ImageNtHeaders := ⟨0, 0x1000, 0x5000, 0x3000, 0, (0, 0), 0⟩
    let native := ntdllOnly [some 0x300, some 0x400, some 0x500, some 0x600]
    let unlink := fun (tree : BinTree Nat) x => tree.unlink x
    let state := (ldrMapDllMemory plainServices globals (some headers) 0x5000 none none native).2.2
    0x300 ∈ state.inLoadOrderModuleList ∧ ∃ after,
      rtlFreeLdrDataTableEntry globals unlink id 0 0x300 state = .ok (true, after) ∧
      SameDatabase native after ∧
      ∀ b ≠ 0, after.heap.live.count b = native.heap.live.count b := by
  intro globals headers native unlink state
  have hcovered : ForwarderLinksCovered globals := fun h => absurd h (by decide)
  have hnative : NativeDatabase native := ntdllOnly_native _
  have hmapped : TableRun plainServices globals unlink id native ([] ++ 0x300 :: []) state := by
    have hout : (ldrMapDllMemory plainServices globals (some headers) 0x5000 none none
        native).2.1 = some 0x300 := by decide +kernel
    have hbase : ∀ e ∈ indexNodes native, (native.entries e).dllBase ≠ 0x5000 := by
      intro e _ heq
      exact absurd (show 0x7ff0 = 0x5000 from heq) (by decide)
    have hgranted : ¬DdagNodeRefused plainServices globals (some headers) none none native := by
      rintro ⟨-, -, -, _, _, _, _, halloc, hresolve, hrefused⟩
      cases halloc
      cases hresolve
      cases hrefused
    have hstart : TableRun plainServices globals unlink id native [] native := .start
    have hmap := hstart.map ⟨some headers, 0x5000, none, none⟩ hbase hgranted rfl
    rw [hout] at hmap
    exact hmap
  obtain ⟨hshows, hfrees, -⟩ :=
    memory_modules_come_and_go hcovered unlink_deletesNode hnative hmapped
  obtain ⟨after, hfree⟩ := hfrees 0x300 (by simp) 0
  have hfreed : TableRun plainServices globals unlink id native ([] ++ []) after :=
    .free hmapped hfree
  obtain ⟨-, -, hnone⟩ := memory_modules_come_and_go hcovered unlink_deletesNode hnative hfreed
  refine ⟨?_, after, hfree, hnone rfl⟩
  rw [hshows.inLoadOrder]
  simp

end WinPolyfillLoader.LdrEntry
