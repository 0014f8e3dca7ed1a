import WinPolyfillLoader.LdrEntry.EntrySize

/-!
`RtlFreeLdrDataTableEntry` follows links of the entry behind gates of its own. Which of
them the initialisation and the insertion have set is decided on the bytes of the entry,
where the members of different versions overlap.
-/

namespace WinPolyfillLoader.LdrEntry

open ByteMemory MemoryModule Loader ProcessHeap SearchTree

/-- What the links of an entry in a list point to. -/
structure Neighbours (host : Host) where
  flink : Nat
  blink : Nat
  flink_pos : 0 < flink
  flink_lt : flink < host.addresses
  blink_pos : 0 < blink
  blink_lt : blink < host.addresses

/-- The neighbours of an entry in the lists that it is inserted into. -/
structure ListNeighbours (host : Host) where
  hash : Neighbours host
  inLoadOrder : Neighbours host
  inMemoryOrder : Neighbours host
  inInitializationOrder : Neighbours host

namespace InitializeCall

variable (call : InitializeCall)

/-- The links of a member of all versions. -/
def linkedIn (name : MemberName) (neighbours : Neighbours call.host) : List Write :=
  EntryType.common.storeLinks call.host name neighbours.flink neighbours.blink

/-- The stores of `RtlInsertMemoryTableEntry` to the entry. -/
def insertStores (lists : ListNeighbours call.host) : List Write :=
  call.linkedIn .hashLinks lists.hash ++ call.linkedIn .inLoadOrderLinks lists.inLoadOrder ++
    call.linkedIn .inMemoryOrderLinks lists.inMemoryOrder ++
    call.linkedIn .inInitializationOrderLinks lists.inInitializationOrder

/-- `RtlZeroMemory` on the entry. -/
def zeroed (m : Bytes) : Bytes :=
  fun k => if k < call.globals.ldrDataTableEntrySize then 0 else m k

/-- The bytes from the entry on, after the initialisation and the insertion. -/
def entryBytes (lists : ListNeighbours call.host) (m : Bytes) : Bytes :=
  writeAll (call.zeroed m) (call.stores ++ call.insertStores lists)

def node : Nat := (call.result.2.entries call.ldrEntry).ddagNode

/-- The links that `RtlFreeLdrDataTableEntry` follows, with the values that are valid for
them. -/
def followed (lists : ListNeighbours call.host) : List Write :=
  (if systemNt62Rtm ≤ call.globals.windowsVersion then
    [EntryType.win10.store call.host .ddagNode call.node,
      EntryType.win8.store call.host .baseAddressIndexNode call.linkedNode] else []) ++
  (if systemNt60Rtm ≤ call.globals.windowsVersion ∧ call.hasForwarderLinks then
    call.initializeListHead .vista .forwarderLinks else []) ++
  (if systemNt50Rtm ≤ call.globals.windowsVersion then
    call.linkedIn .inLoadOrderLinks lists.inLoadOrder ++
      call.linkedIn .inMemoryOrderLinks lists.inMemoryOrder ++
      call.linkedIn .inInitializationOrderLinks lists.inInitializationOrder ++
      call.linkedIn .hashLinks lists.hash else [])

/-- A link inside the block that has its value, not zero. -/
def Kept (bytes : Bytes) (w : Write) : Prop :=
  w.stop ≤ call.globals.ldrDataTableEntrySize ∧ readLE bytes w.start w.size = w.value ∧ w.value ≠ 0

def KnownSize : Prop :=
  ∃ version type, knownEntryType version = some type ∧
    call.globals.ldrDataTableEntrySize = type.size call.host

/-- The search for the base in the index ends at a free slot. -/
def BaseIsNew : Prop :=
  ∃ tree parent right, call.state.ldrpModuleBaseAddressIndex = some tree ∧
    tree.descend (fun e => (call.state.entries e).dllBase) call.baseAddress =
      some (.slot parent right)

/-- The entry is a block that is not yet in the index, the heap returns blocks apart from
it, and a node that joins the index has a parent. -/
structure Placed : Prop where
  entry_pos : 0 < call.ldrEntry
  entry_fits : call.ldrEntry + call.globals.ldrDataTableEntrySize ≤ call.host.addresses
  entry_new : call.ldrEntry ∉ indexNodes call.state
  blocks : ∀ block heap, call.state.heap.allocate = (some block, heap) →
    block < call.host.addresses ∧ (block < call.ldrEntry ∨
      call.ldrEntry + call.globals.ldrDataTableEntrySize ≤ block)
  linkedNode_pos : 0 < call.linkedNode
  linkedNode_lt : call.linkedNode < 256 ^ (3 * call.host.pointerSize)

/-- The initialisation sets everything that the teardown follows. -/
def CoversFollowed : Prop :=
  (call.globals.windowsVersion = systemNt60Rtm → ¬call.hasForwarderLinks) ∧
    (systemNt62Rtm ≤ call.globals.windowsVersion →
      EntryType.win8.size call.host ≤ call.globals.ldrDataTableEntrySize ∧ call.BaseIsNew)

variable {call} {headers : ImageNtHeaders} {m : Bytes} {lists : ListNeighbours call.host}

theorem rtlInsertModuleBaseAddressIndexNode_heap (services : LdrServices) (globals : LdrGlobals)
    (dataTableEntry baseAddress : Nat) (state : LdrState) :
    (rtlInsertModuleBaseAddressIndexNode services globals dataTableEntry baseAddress state).2.heap =
      state.heap := by
  unfold rtlInsertModuleBaseAddressIndexNode
  split
  · rfl
  · split <;> rfl

/-- The entry joins the index if the search in the index of before ends at a free slot. -/
theorem joinsIndex_iff (hnew : call.ldrEntry ∉ indexNodes call.state) (headers : ImageNtHeaders) :
    call.joinsIndex headers = true ↔ call.BaseIsNew := by
  have hindex : (call.indexState headers).ldrpModuleBaseAddressIndex =
      call.state.ldrpModuleBaseAddressIndex := rfl
  unfold joinsIndex BaseIsNew
  dsimp only
  rw [hindex]
  cases htree : call.state.ldrpModuleBaseAddressIndex with
  | none => simp
  | some tree =>
    have hkeys : ∀ e ∈ tree.toList, ((call.indexState headers).entries e).dllBase =
        (call.state.entries e).dllBase := by
      intro e he
      have hne : e ≠ call.ldrEntry := by
        rintro rfl
        exact hnew (by rwa [indexNodes, htree])
      simp only [indexState, setEntry, Function.update_of_ne hne]
    dsimp only
    rw [descend_congr call.baseAddress hkeys]
    constructor
    · intro hjoins
      split at hjoins
      · next parent right hdescend => exact ⟨tree, parent, right, rfl, hdescend⟩
      · cases hjoins
    · rintro ⟨_, parent, right, htree', hdescend⟩
      cases htree'
      rw [hdescend]

/-- A gate of Windows 8 that succeeds has got a node from the heap. -/
theorem initializeWin8_node {services : LdrServices} {globals : LdrGlobals} {ldrEntry : Nat}
    {baseAddress : Nat} {state after : LdrState}
    (h : initializeWin8 services globals headers ldrEntry baseAddress state = (true, after)) :
    ∃ status inserted heap node, rtlInsertModuleBaseAddressIndexNode services globals ldrEntry
        baseAddress state = (status, inserted) ∧ ntSuccess status = true ∧
      (allocateZeroed inserted).1 = node ∧ node ≠ 0 ∧
      state.heap.allocate = (some node, heap) ∧ (after.entries ldrEntry).ddagNode = node := by
  have hheap := rtlInsertModuleBaseAddressIndexNode_heap services globals ldrEntry baseAddress state
  unfold initializeWin8 at h
  rcases hinsert : rtlInsertModuleBaseAddressIndexNode services globals ldrEntry baseAddress state
    with ⟨status, inserted⟩
  rw [hinsert] at h hheap
  dsimp only at h hheap
  cases hstatus : ntSuccess status with
  | false =>
    rw [hstatus] at h
    cases h
  | true =>
    rw [if_pos hstatus] at h
    rcases allocate_cases inserted.heap with ⟨next, hanswer, -⟩ | ⟨block, next, hanswer, hblock, -⟩
    · have hnone : allocateZeroed inserted = (0, { inserted with heap := next }) := by
        rw [allocateZeroed, hanswer]
      rw [hnone] at h
      cases h
    · have hsome : allocateZeroed inserted = (block, { inserted with heap := next }) := by
        rw [allocateZeroed, hanswer]
      obtain ⟨n, rfl⟩ := Nat.exists_eq_succ_of_ne_zero hblock
      rw [hsome] at h
      cases h
      refine ⟨status, inserted, next, n + 1, rfl, hstatus, by rw [hsome], hblock, ?_, ?_⟩
      · rw [← hheap, hanswer]
      · simp only [setEntry, Function.update_self]

theorem lateEntry_ddagNode (globals : LdrGlobals) (headers : ImageNtHeaders) (baseAddress : Nat)
    (dllBaseName dllFullName : UnicodeString) (entry : LdrDataTableEntry) :
    (lateEntry globals headers baseAddress dllBaseName dllFullName entry).ddagNode =
      entry.ddagNode := by
  unfold lateEntry
  dsimp only
  split <;> split <;> rfl

/-- The stores before Windows 8, when the initialisation succeeds. -/
theorem stores_of_lt_win8 (hwin8 : ¬systemNt62Rtm ≤ call.globals.windowsVersion)
    (h : call.result.1 = true) :
    ∃ headers, systemNt50Rtm < call.globals.windowsVersion ∧
      call.stores = call.earlyStores headers ++ call.lateStores headers := by
  unfold result rtlInitializeLdrDataTableEntry at h
  unfold stores
  cases hheaders : call.headers with
  | none =>
    rw [hheaders] at h
    cases h
  | some headers =>
    rw [hheaders] at h
    simp only [if_neg hwin8] at h ⊢
    refine ⟨headers, ?_, rfl⟩
    by_contra hcommon
    rw [if_neg hcommon] at h
    cases h

/-- The stores from Windows 8 on, when the initialisation succeeds. -/
theorem stores_of_win8_le (hwin8 : systemNt62Rtm ≤ call.globals.windowsVersion)
    (h : call.result.1 = true) :
    ∃ headers, call.node ≠ 0 ∧ (∃ heap, call.state.heap.allocate = (some call.node, heap)) ∧
      call.stores = call.earlyStores headers ++ (call.win8Stores headers ++
        (call.linkStores headers ++ (call.nodeStores headers call.node ++
          call.lateStores headers))) := by
  unfold node
  unfold result rtlInitializeLdrDataTableEntry at *
  unfold stores
  cases hheaders : call.headers with
  | none =>
    rw [hheaders] at h
    cases h
  | some headers =>
    rw [hheaders] at h
    dsimp only at h ⊢
    simp only [if_pos hwin8, if_pos (nt50_lt_of_nt62_le hwin8)] at h ⊢
    rcases hgate : initializeWin8 call.services call.globals headers call.ldrEntry
      call.baseAddress (setEntry call.ldrEntry
        (earlyEntry call.services call.globals headers call.dllBaseName.name) call.state)
      with ⟨answer, after⟩
    rw [hgate] at h
    cases answer with
    | false => cases h
    | true =>
      obtain ⟨status, inserted, heap, node, hinsert, hstatus, hallocate, hnode, hheap, hddag⟩ :=
        initializeWin8_node hgate
      obtain ⟨n, rfl⟩ := Nat.exists_eq_succ_of_ne_zero hnode
      simp only [setEntry, Function.update_self, lateEntry_ddagNode, hddag]
      refine ⟨headers, hnode, ⟨heap, hheap⟩, ?_⟩
      have hinsert : rtlInsertModuleBaseAddressIndexNode call.services call.globals call.ldrEntry
          call.baseAddress (call.indexState headers) = (status, inserted) := hinsert
      simp only [hinsert, if_pos hstatus, hallocate]

def listNames : List MemberName :=
  [.hashLinks, .inLoadOrderLinks, .inMemoryOrderLinks, .inInitializationOrderLinks]

theorem insertStores_ranges :
    WritesTo (EntryType.common.ranges call.host listNames) (call.insertStores lists) :=
  writesTo_append (writesTo_append (writesTo_append
    (EntryType.writesTo_storeLinks _ _ (by decide) (by cases call.host <;> decide))
    (EntryType.writesTo_storeLinks _ _ (by decide) (by cases call.host <;> decide)))
    (EntryType.writesTo_storeLinks _ _ (by decide) (by cases call.host <;> decide)))
    (EntryType.writesTo_storeLinks _ _ (by decide) (by cases call.host <;> decide))

/-- What is stored for all versions, up to the insertion. -/
def lastRanges (host : Host) : List (Nat × Nat) :=
  EntryType.common.ranges host commonNames ++ EntryType.common.ranges host listNames

theorem lastStores_ranges :
    WritesTo (lastRanges call.host) (call.commonStores headers ++ call.insertStores lists) :=
  writesTo_union commonStores_ranges insertStores_ranges

/-- The ranges of the eight links. -/
def listShape (host : Host) : List (Nat × Nat) :=
  listNames.flatMap fun name =>
    [((EntryType.common.range host name).1, host.pointerSize),
      ((EntryType.common.range host name).1 + host.pointerSize, host.pointerSize)]

theorem insertStores_apart : (call.insertStores lists).Pairwise fun v w =>
    Apart v.start v.size w.start w.size := by
  have hshape : (call.insertStores lists).map (fun w => (w.start, w.size)) =
      listShape call.host := rfl
  have happart : (listShape call.host).Pairwise fun r r' => Apart r.1 r.2 r'.1 r'.2 := by
    cases call.host <;> decide
  rw [← hshape, List.pairwise_map] at happart
  exact happart

theorem linkedIn_value {name : MemberName} {neighbours : Neighbours call.host} :
    ∀ w ∈ call.linkedIn name neighbours, w.value ≠ 0 ∧ w.value < 256 ^ w.size := by
  intro w hw
  simp only [linkedIn, EntryType.storeLinks, List.mem_cons, List.not_mem_nil, or_false] at hw
  rcases hw with rfl | rfl
  · exact ⟨Nat.ne_of_gt neighbours.flink_pos, neighbours.flink_lt⟩
  · exact ⟨Nat.ne_of_gt neighbours.blink_pos, neighbours.blink_lt⟩

theorem insertStores_value :
    ∀ w ∈ call.insertStores lists, w.value ≠ 0 ∧ w.value < 256 ^ w.size := by
  intro w hw
  simp only [insertStores, List.mem_append] at hw
  rcases hw with ((hw | hw) | hw) | hw
  · exact linkedIn_value w hw
  · exact linkedIn_value w hw
  · exact linkedIn_value w hw
  · exact linkedIn_value w hw

theorem kept_of_read {bytes : Bytes} {w : Write}
    (hstop : w.stop ≤ call.globals.ldrDataTableEntrySize)
    (hread : readLE bytes w.start w.size = w.value % 256 ^ w.size)
    (hvalue : w.value ≠ 0 ∧ w.value < 256 ^ w.size) : call.Kept bytes w :=
  ⟨hstop, hread.trans (Nat.mod_eq_of_lt hvalue.2), hvalue.1⟩

theorem zeroed_inside {k : Nat} (hk : k < call.globals.ldrDataTableEntrySize) :
    call.zeroed m k = 0 := if_pos hk

theorem insertStores_kept (hsize : EntryType.common.size call.host ≤
    call.globals.ldrDataTableEntrySize) :
    ∀ w ∈ call.insertStores lists, call.Kept (call.entryBytes lists m) w := by
  intro w hw
  refine kept_of_read ?_ ?_ (insertStores_value w hw)
  · exact insertStores_ranges.stop_le (EntryType.ranges_stop_le hsize) w hw
  · rw [entryBytes, writeAll_append]
    exact readLE_writeAll_mem insertStores_apart hw

/-- The stores end with those of the late gates, when the initialisation succeeds. -/
theorem stores_late (h : call.result.1 = true) :
    ∃ headers front, systemNt50Rtm < call.globals.windowsVersion ∧
      call.stores = front ++ call.lateStores headers := by
  by_cases hwin8 : systemNt62Rtm ≤ call.globals.windowsVersion
  · obtain ⟨headers, -, -, hstores⟩ := stores_of_win8_le hwin8 h
    refine ⟨headers, call.earlyStores headers ++ (call.win8Stores headers ++
      (call.linkStores headers ++ call.nodeStores headers call.node)), nt50_lt_of_nt62_le hwin8, ?_⟩
    rw [hstores]
    simp only [List.append_assoc]
  · obtain ⟨headers, hcommon, hstores⟩ := stores_of_lt_win8 hwin8 h
    exact ⟨headers, call.earlyStores headers, hcommon, hstores⟩

theorem forwarderLinks_apart (host : Host) :
    ∀ r ∈ EntryType.vista.ranges host [.staticLinks, .serviceTagLinks] ++ lastRanges host,
      Apart r.1 r.2 (EntryType.vista.range host .forwarderLinks).1 (2 * host.pointerSize) := by
  cases host <;> decide

theorem apart_part {a n b k c l : Nat} (h : Apart a n b k) (hstart : b ≤ c)
    (hstop : c + l ≤ b + k) : Apart a n c l := by
  unfold Apart at h ⊢
  omega

/-- Behind the open gate of Vista the forwarder links lead to themselves. -/
theorem forwarderLinks_read (lists : ListNeighbours call.host) (h : call.result.1 = true)
    (hgate : systemNt60Rtm < call.globals.windowsVersion) (hsize : call.hasForwarderLinks) :
    ∀ w ∈ call.initializeListHead .vista .forwarderLinks,
      readLE (call.entryBytes lists m) w.start w.size = w.value % 256 ^ w.size := by
  intro w hw
  obtain ⟨headers, front, hcommon, hstores⟩ := stores_late h
  have hafter : WritesTo (EntryType.vista.ranges call.host [.staticLinks, .serviceTagLinks] ++
      lastRanges call.host) ((call.initializeListHead .vista .staticLinks ++
        call.initializeListHead .vista .serviceTagLinks) ++
        (call.commonStores headers ++ call.insertStores lists)) :=
    writesTo_union (writesTo_append
      (EntryType.writesTo_storeLinks _ _ (by decide) (by cases call.host <;> decide))
      (EntryType.writesTo_storeLinks _ _ (by decide) (by cases call.host <;> decide)))
      lastStores_ranges
  have hsplit : call.stores ++ call.insertStores lists =
      (front ++ call.win7Stores headers) ++ (call.initializeListHead .vista .forwarderLinks ++
        ((call.initializeListHead .vista .staticLinks ++
          call.initializeListHead .vista .serviceTagLinks) ++
          (call.commonStores headers ++ call.insertStores lists))) := by
    rw [hstores, lateStores, vistaStores, if_pos ⟨hgate, hsize⟩, if_pos hcommon]
    simp only [List.append_assoc]
  rw [entryBytes, hsplit]
  refine readLE_writeAll_last (EntryType.storeLinks_apart _ _) hw hafter fun r hr => ?_
  have hapart := forwarderLinks_apart call.host r hr
  simp only [initializeListHead, EntryType.storeLinks, List.mem_cons, List.not_mem_nil,
    or_false] at hw
  rcases hw with rfl | rfl
  · exact apart_part hapart (Nat.le_refl _) (by dsimp only; omega)
  · exact apart_part hapart (Nat.le_add_right _ _) (by dsimp only; omega)

/-- Without the stores of the gate of Vista the forwarder links stay zero. -/
theorem forwarderLinks_zero (lists : ListNeighbours call.host) (h : call.result.1 = true)
    (hversion : call.globals.windowsVersion = systemNt60Rtm)
    (hsize : EntryType.vista.size call.host ≤ call.globals.ldrDataTableEntrySize) :
    readLE (call.entryBytes lists m) (EntryType.vista.range call.host .forwarderLinks).1
      call.host.pointerSize = 0 := by
  have hwin8 : ¬systemNt62Rtm ≤ call.globals.windowsVersion := by
    rw [hversion]
    decide
  obtain ⟨headers, hcommon, hstores⟩ := stores_of_lt_win8 hwin8 h
  have hnone : call.vistaStores = [] := by
    rw [vistaStores, if_neg]
    rintro ⟨hgate, -⟩
    exact BitVec.lt_irrefl _ (hversion ▸ hgate)
  have hwrites : WritesTo (earlyRanges call.host ++
      (EntryType.win7.ranges call.host [.originalBase, .loadTime] ++ lastRanges call.host))
      (call.stores ++ call.insertStores lists) := by
    rw [hstores, lateStores, hnone, if_pos hcommon]
    simp only [List.append_assoc, List.nil_append]
    exact writesTo_union earlyStores_ranges (writesTo_union win7Stores_ranges lastStores_ranges)
  have hapart : ∀ r ∈ earlyRanges call.host ++
      (EntryType.win7.ranges call.host [.originalBase, .loadTime] ++ lastRanges call.host),
      Apart r.1 r.2 (EntryType.vista.range call.host .forwarderLinks).1 call.host.pointerSize := by
    cases call.host <;> decide
  have hinside : (EntryType.vista.range call.host .forwarderLinks).1 + call.host.pointerSize ≤
      EntryType.vista.size call.host := by
    cases call.host <;> decide
  exact readLE_writeAll_zero (fun k _ hk => zeroed_inside (by omega)) hwrites hapart

/-- With the size of a layout of Windows 8 or later the gates of Windows 7 and Vista are
shut. -/
theorem not_hasForwarderLinks
    (hsize : EntryType.win8.size call.host ≤ call.globals.ldrDataTableEntrySize) :
    ¬call.hasForwarderLinks ∧
      call.globals.ldrDataTableEntrySize ≠ EntryType.win7.size call.host := by
  have hvista : EntryType.vista.size call.host < EntryType.win8.size call.host := by
    cases call.host <;> decide
  have hwin7 : EntryType.win7.size call.host < EntryType.win8.size call.host := by
    cases call.host <;> decide
  unfold hasForwarderLinks
  omega

theorem lateStores_of_win8
    (hsize : EntryType.win8.size call.host ≤ call.globals.ldrDataTableEntrySize)
    (hcommon : systemNt50Rtm < call.globals.windowsVersion) :
    call.lateStores headers = call.commonStores headers := by
  obtain ⟨hforwarder, hwin7⟩ := not_hasForwarderLinks hsize
  rw [lateStores, win7Stores, vistaStores, if_neg fun h => hwin7 h.2,
    if_neg fun h => hforwarder h.2, if_pos hcommon]
  rfl

section Win8

variable (hwin8 : systemNt62Rtm ≤ call.globals.windowsVersion)
  (hsize : EntryType.win8.size call.host ≤ call.globals.ldrDataTableEntrySize)
  (h : call.result.1 = true)

include hwin8 hsize h

theorem ddagNode_read :
    readLE (call.entryBytes lists m) (EntryType.win10.range call.host .ddagNode).1
      (EntryType.win10.range call.host .ddagNode).2 =
        call.node % 256 ^ (EntryType.win10.range call.host .ddagNode).2 := by
  obtain ⟨headers, -, -, hstores⟩ := stores_of_win8_le hwin8 h
  rw [lateStores_of_win8 hsize (nt50_lt_of_nt62_le hwin8)] at hstores
  have hsplit : call.stores ++ call.insertStores lists =
      (call.earlyStores headers ++ (call.win8Stores headers ++ call.linkStores headers)) ++
        ([EntryType.win8.store call.host .ddagNode call.node] ++
          ((EntryType.win8.storeLinks call.host .nodeModuleLink call.node call.node ++
            [EntryType.win8.store call.host .flags (win8Flags headers).toNat]) ++
            (call.commonStores headers ++ call.insertStores lists))) := by
    rw [hstores, nodeStores]
    simp only [List.append_assoc, List.cons_append, List.nil_append]
  have hafter : WritesTo (EntryType.win8.ranges call.host [.nodeModuleLink, .flags] ++
      lastRanges call.host)
      ((EntryType.win8.storeLinks call.host .nodeModuleLink call.node call.node ++
        [EntryType.win8.store call.host .flags (win8Flags headers).toNat]) ++
        (call.commonStores headers ++ call.insertStores lists)) :=
    writesTo_union (writesTo_append
      (EntryType.writesTo_storeLinks _ _ (by decide) (by cases call.host <;> decide))
      (EntryType.writesTo_store _ (by decide))) lastStores_ranges
  have hapart : ∀ r ∈ EntryType.win8.ranges call.host [.nodeModuleLink, .flags] ++
      lastRanges call.host, Apart r.1 r.2 (EntryType.win8.range call.host .ddagNode).1
        (EntryType.win8.range call.host .ddagNode).2 := by
    cases call.host <;> decide
  have hsame : EntryType.win10.range call.host .ddagNode =
      EntryType.win8.range call.host .ddagNode := by
    cases call.host <;> decide
  rw [entryBytes, hsplit, hsame]
  exact readLE_writeAll_last (List.pairwise_singleton _ _) List.mem_cons_self hafter hapart

/-- The node of the index has its links if the entry has joined the index, and is zero
otherwise. -/
theorem baseAddressIndexNode_read (lists : ListNeighbours call.host)
    (hnew : call.ldrEntry ∉ indexNodes call.state) :
    (call.BaseIsNew →
      readLE (call.entryBytes lists m) (EntryType.win8.range call.host .baseAddressIndexNode).1
        (EntryType.win8.range call.host .baseAddressIndexNode).2 = call.linkedNode %
          256 ^ (EntryType.win8.range call.host .baseAddressIndexNode).2) ∧
    (¬call.BaseIsNew →
      readLE (call.entryBytes lists m) (EntryType.win8.range call.host .baseAddressIndexNode).1
        (EntryType.win8.range call.host .baseAddressIndexNode).2 = 0) := by
  obtain ⟨headers, -, -, hstores⟩ := stores_of_win8_le hwin8 h
  rw [lateStores_of_win8 hsize (nt50_lt_of_nt62_le hwin8)] at hstores
  have hafter : WritesTo
      (EntryType.win8.ranges call.host [.ddagNode, .nodeModuleLink, .flags] ++
        lastRanges call.host)
      (call.nodeStores headers call.node ++
        (call.commonStores headers ++ call.insertStores lists)) :=
    writesTo_union (nodeStores_ranges _) lastStores_ranges
  have hapart : ∀ r ∈ EntryType.win8.ranges call.host [.ddagNode, .nodeModuleLink, .flags] ++
      lastRanges call.host, Apart r.1 r.2 (EntryType.win8.range call.host .baseAddressIndexNode).1
        (EntryType.win8.range call.host .baseAddressIndexNode).2 := by
    cases call.host <;> decide
  constructor
  · intro hbase
    have hlink : call.linkStores headers =
        [EntryType.win8.store call.host .baseAddressIndexNode call.linkedNode] := by
      rw [linkStores, if_pos ((joinsIndex_iff hnew headers).mpr hbase)]
    have hsplit : call.stores ++ call.insertStores lists =
        (call.earlyStores headers ++ call.win8Stores headers) ++
          ([EntryType.win8.store call.host .baseAddressIndexNode call.linkedNode] ++
            (call.nodeStores headers call.node ++
              (call.commonStores headers ++ call.insertStores lists))) := by
      rw [hstores, hlink]
      simp only [List.append_assoc]
    rw [entryBytes, hsplit]
    exact readLE_writeAll_last (List.pairwise_singleton _ _) List.mem_cons_self hafter hapart
  · intro hbase
    have hlink : call.linkStores headers = [] := by
      rw [linkStores, if_neg fun hjoins => hbase ((joinsIndex_iff hnew headers).mp hjoins)]
    have hwrites : WritesTo (earlyRanges call.host ++ (EntryType.win8.ranges call.host
        [.loadTime, .originalBase, .baseNameHashValue, .loadReason] ++
          (EntryType.win8.ranges call.host [.ddagNode, .nodeModuleLink, .flags] ++
            lastRanges call.host))) (call.stores ++ call.insertStores lists) := by
      rw [hstores, hlink]
      simp only [List.append_assoc, List.nil_append]
      exact writesTo_union earlyStores_ranges (writesTo_union win8Stores_ranges hafter)
    have hearly : ∀ r ∈ earlyRanges call.host ++ EntryType.win8.ranges call.host
        [.loadTime, .originalBase, .baseNameHashValue, .loadReason], Apart r.1 r.2
          (EntryType.win8.range call.host .baseAddressIndexNode).1
          (EntryType.win8.range call.host .baseAddressIndexNode).2 := by
      cases call.host <;> decide
    have hinside : (EntryType.win8.range call.host .baseAddressIndexNode).1 +
        (EntryType.win8.range call.host .baseAddressIndexNode).2 ≤ EntryType.win8.size call.host :=
      EntryType.win8.range_stop_le .baseAddressIndexNode
    refine readLE_writeAll_zero (fun k _ hk => zeroed_inside (by omega)) hwrites fun r hr => ?_
    rw [← List.append_assoc, List.mem_append] at hr
    rcases hr with hr | hr
    · exact hearly r hr
    · exact hapart r hr

end Win8

/-- The known sizes are those of the layouts from Windows 8 on, of Windows XP, and the two
with forwarder links. -/
theorem knownSize_cases (hknown : call.KnownSize) :
    EntryType.common.size call.host ≤ call.globals.ldrDataTableEntrySize ∧
    (EntryType.win8.size call.host ≤ call.globals.ldrDataTableEntrySize ∨
      call.globals.ldrDataTableEntrySize = EntryType.xp.size call.host ∨
      call.hasForwarderLinks) := by
  obtain ⟨version, type, hversion, hsize⟩ := hknown
  unfold hasForwarderLinks
  rw [hsize]
  constructor
  · cases type <;> cases call.host <;> decide
  · cases version with
    | null => cases hversion
    | invalid => cases hversion
    | xp => cases hversion; exact Or.inr (Or.inl rfl)
    | vista => cases hversion; exact Or.inr (Or.inr (Or.inl rfl))
    | win7 => cases hversion; exact Or.inr (Or.inr (Or.inr rfl))
    | _ =>
      cases hversion
      exact Or.inl (by cases call.host <;> decide)

theorem vista_size_le (hforwarder : call.hasForwarderLinks) :
    EntryType.vista.size call.host ≤ call.globals.ldrDataTableEntrySize := by
  rcases hforwarder with hvista | hwin7
  · exact Nat.le_of_eq hvista.symm
  · rw [hwin7]
    cases call.host <;> decide

/-- The heads of the forwarder links are addresses in the block. -/
theorem forwarderLinks_value (hplaced : call.Placed) (hforwarder : call.hasForwarderLinks) :
    ∀ w ∈ call.initializeListHead .vista .forwarderLinks,
      w.stop ≤ call.globals.ldrDataTableEntrySize ∧ w.value ≠ 0 ∧ w.value < 256 ^ w.size ∧
        call.ldrEntry ≤ w.value ∧
        w.value < call.ldrEntry + call.globals.ldrDataTableEntrySize := by
  have hsize := vista_size_le hforwarder
  have hinside : (EntryType.vista.range call.host .forwarderLinks).1 + 2 * call.host.pointerSize ≤
      EntryType.vista.size call.host := by
    cases call.host <;> decide
  have hpointer : 0 < call.host.pointerSize := by cases call.host <;> decide
  have hpos := hplaced.entry_pos
  have hfits := hplaced.entry_fits
  unfold Host.addresses at hfits
  intro w hw
  simp only [initializeListHead, EntryType.storeLinks, List.mem_cons, List.not_mem_nil,
    or_false] at hw
  rcases hw with rfl | rfl <;>
  · simp only [Write.stop]
    omega

/-- Behind the gate of Windows 8 the node of the entry is a block of its own. -/
theorem node_value (hwin8 : systemNt62Rtm ≤ call.globals.windowsVersion)
    (h : call.result.1 = true) (hplaced : call.Placed) :
    call.node ≠ 0 ∧ call.node < call.host.addresses ∧ (call.node < call.ldrEntry ∨
      call.ldrEntry + call.globals.ldrDataTableEntrySize ≤ call.node) := by
  obtain ⟨-, hnode, ⟨heap, hheap⟩, -⟩ := stores_of_win8_le hwin8 h
  exact ⟨hnode, hplaced.blocks call.node heap hheap⟩

/-- From Windows 8 on both links are kept with a size that has room for them, if the base
is new. -/
theorem win8_kept (hwin8 : systemNt62Rtm ≤ call.globals.windowsVersion)
    (hsize : EntryType.win8.size call.host ≤ call.globals.ldrDataTableEntrySize)
    (hbase : call.BaseIsNew) (h : call.result.1 = true) (hplaced : call.Placed) :
    ∀ w ∈ [EntryType.win10.store call.host .ddagNode call.node,
      EntryType.win8.store call.host .baseAddressIndexNode call.linkedNode],
      call.Kept (call.entryBytes lists m) w := by
  have hddag : (EntryType.win10.range call.host .ddagNode).1 +
      (EntryType.win10.range call.host .ddagNode).2 ≤ EntryType.win8.size call.host := by
    cases call.host <;> decide
  have hpointer : (EntryType.win10.range call.host .ddagNode).2 = call.host.pointerSize := by
    cases call.host <;> decide
  have hnodeSize : (EntryType.win8.range call.host .baseAddressIndexNode).2 =
      3 * call.host.pointerSize := by
    cases call.host <;> decide
  obtain ⟨hnode, hfits, -⟩ := node_value hwin8 h hplaced
  intro w hw
  simp only [List.mem_cons, List.not_mem_nil, or_false] at hw
  rcases hw with rfl | rfl
  · refine kept_of_read (Nat.le_trans hddag hsize) (ddagNode_read hwin8 hsize h) ⟨hnode, ?_⟩
    simp only [EntryType.store, hpointer]
    exact hfits
  · refine kept_of_read (Nat.le_trans (EntryType.range_stop_le _ _) hsize)
      ((baseAddressIndexNode_read hwin8 hsize h lists hplaced.entry_new).1 hbase)
      ⟨Nat.ne_of_gt hplaced.linkedNode_pos, ?_⟩
    simp only [EntryType.store, hnodeSize]
    exact hplaced.linkedNode_lt

theorem ddagNode_overwritten (hwin8 : systemNt62Rtm ≤ call.globals.windowsVersion)
    (hforwarder : call.hasForwarderLinks) (h : call.result.1 = true) (hplaced : call.Placed) :
    ¬call.Kept (call.entryBytes lists m)
      (EntryType.win10.store call.host .ddagNode call.node) := by
  rintro ⟨-, hread, -⟩
  have hgate : systemNt60Rtm < call.globals.windowsVersion := by
    have h60 : systemNt60Rtm < systemNt62Rtm := by decide
    rw [BitVec.lt_def] at h60 ⊢
    rw [BitVec.le_def] at hwin8
    omega
  have hhead : ∃ w ∈ call.initializeListHead .vista .forwarderLinks,
      w.start = (EntryType.win10.range call.host .ddagNode).1 ∧
        w.size = (EntryType.win10.range call.host .ddagNode).2 := by
    refine ⟨_, List.mem_cons_self, ?_, ?_⟩
    · change (EntryType.vista.range call.host .forwarderLinks).1 = _
      cases call.host <;> decide
    · change call.host.pointerSize = _
      cases call.host <;> decide
  obtain ⟨w, hw, hstart, hwidth⟩ := hhead
  have hlinks := forwarderLinks_read (m := m) lists h hgate hforwarder w hw
  obtain ⟨-, -, hlt, hlow, hhigh⟩ := forwarderLinks_value hplaced hforwarder w hw
  rw [hstart, hwidth] at hlinks
  rw [hwidth] at hlt
  obtain ⟨-, -, hapart⟩ := node_value hwin8 h hplaced
  have hnode : call.node = w.value := by
    rw [← Nat.mod_eq_of_lt hlt, ← hlinks]
    exact hread.symm
  omega

/-- On the release of Vista the teardown follows forwarder links that the initialisation has
not set. -/
theorem forwarderLinks_notFollowed (hall : ∀ w ∈ call.followed lists,
    call.Kept (call.entryBytes lists m) w) (h : call.result.1 = true)
    (hversion : call.globals.windowsVersion = systemNt60Rtm) : ¬call.hasForwarderLinks := by
  intro hforwarder
  unfold followed at hall
  have hgate : systemNt60Rtm ≤ call.globals.windowsVersion := hversion ▸ BitVec.le_refl _
  have hmem : ⟨(EntryType.vista.range call.host .forwarderLinks).1, call.host.pointerSize,
      call.ldrEntry + (EntryType.vista.range call.host .forwarderLinks).1⟩ ∈
      call.initializeListHead .vista .forwarderLinks := List.mem_cons_self
  obtain ⟨-, hread, hvalue⟩ := hall _ (List.mem_append_left _ (List.mem_append_right _
    (by rw [if_pos ⟨hgate, hforwarder⟩]; exact hmem)))
  have hzero := forwarderLinks_zero (m := m) lists h hversion (vista_size_le hforwarder)
  exact hvalue (hread.symm.trans hzero)

/-- From Windows 8 on what the teardown follows is in its place only with a layout of these
versions, and is set only if the base is new. -/
theorem win8_followed (hknown : call.KnownSize) (hplaced : call.Placed)
    (hall : ∀ w ∈ call.followed lists, call.Kept (call.entryBytes lists m) w)
    (h : call.result.1 = true) (hwin8 : systemNt62Rtm ≤ call.globals.windowsVersion) :
    EntryType.win8.size call.host ≤ call.globals.ldrDataTableEntrySize ∧ call.BaseIsNew := by
  unfold followed at hall
  rw [if_pos hwin8] at hall
  have hddag := hall _ (List.mem_append_left _ (List.mem_append_left _ List.mem_cons_self))
  have hnode := hall _ (List.mem_append_left _ (List.mem_append_left _
    (List.mem_cons_of_mem _ List.mem_cons_self)))
  rcases (knownSize_cases hknown).2 with hsize | hxp | hforwarder
  · refine ⟨hsize, ?_⟩
    by_contra hbase
    have hzero := (baseAddressIndexNode_read (m := m) hwin8 hsize h lists hplaced.entry_new).2
      hbase
    exact hnode.2.2 (hnode.2.1.symm.trans hzero)
  · -- The entry of Windows XP ends before the DDAG node.
    have houtside : EntryType.xp.size call.host <
        (EntryType.win10.store call.host .ddagNode call.node).stop := by
      change _ < (EntryType.win10.range call.host .ddagNode).1 +
        (EntryType.win10.range call.host .ddagNode).2
      cases call.host <;> decide
    have hstop := hddag.1
    omega
  · exact absurd hddag (ddagNode_overwritten hwin8 hforwarder h hplaced)

theorem forwarderLinks_kept (hplaced : call.Placed) (h : call.result.1 = true)
    (hgate : systemNt60Rtm ≤ call.globals.windowsVersion) (hforwarder : call.hasForwarderLinks)
    (hrtm : call.globals.windowsVersion ≠ systemNt60Rtm) :
    ∀ w ∈ call.initializeListHead .vista .forwarderLinks,
      call.Kept (call.entryBytes lists m) w := by
  intro w hw
  obtain ⟨hstop, hne, hlt, -⟩ := forwarderLinks_value hplaced hforwarder w hw
  have hlater : systemNt60Rtm < call.globals.windowsVersion := by
    have hne : call.globals.windowsVersion.toNat ≠ systemNt60Rtm.toNat := fun heq =>
      hrtm (BitVec.eq_of_toNat_eq heq)
    have hle := BitVec.le_def.mp hgate
    exact BitVec.lt_def.mpr (by omega)
  exact kept_of_read hstop (forwarderLinks_read lists h hlater hforwarder w hw) ⟨hne, hlt⟩

end InitializeCall

open InitializeCall

/-- After a successful initialisation and the insertion every link that the teardown
follows is set, unless the version is the release of Vista and the size has forwarder
links, or the version is that of Windows 8 or later and the size is of an earlier layout or
the base was in the index. -/
theorem rtlFreeLdrDataTableEntry_follows_iff (call : InitializeCall)
    (lists : ListNeighbours call.host) (m : Bytes) (hknown : call.KnownSize)
    (hplaced : call.Placed) (h : call.result.1 = true) :
    (∀ w ∈ call.followed lists, call.Kept (call.entryBytes lists m) w) ↔ call.CoversFollowed := by
  constructor
  · intro hall
    exact ⟨forwarderLinks_notFollowed hall h, win8_followed hknown hplaced hall h⟩
  · rintro ⟨hrtm, hlayout⟩ w hw
    simp only [followed, List.mem_append] at hw
    rcases hw with (hw | hw) | hw
    · split at hw
      · next hwin8 =>
        obtain ⟨hsize, hbase⟩ := hlayout hwin8
        exact win8_kept hwin8 hsize hbase h hplaced w hw
      · cases hw
    · split at hw
      · next hgate =>
        exact forwarderLinks_kept hplaced h hgate.1 hgate.2 (fun hversion =>
          hrtm hversion hgate.2) w hw
      · cases hw
    · split at hw
      · apply insertStores_kept (knownSize_cases hknown).1
        simp only [insertStores, List.mem_append] at hw ⊢
        rcases hw with ((hload | hmemory) | hinit) | hhash
        · exact Or.inl (Or.inl (Or.inr hload))
        · exact Or.inl (Or.inr hmemory)
        · exact Or.inr hinit
        · exact Or.inl (Or.inl (Or.inl hhash))
      · cases hw

/-- An initialisation with a size of the entries. -/
def initializeWith (host : Host) (peb : Peb) (ldrDataTableEntrySize : Nat) : InitializeCall :=
  { initializeOn host peb with
    globals := ⟨getSystemVersionCompact peb, ldrDataTableEntrySize, 0⟩ }

/-- Every list has its head before and after the new entry. -/
def emptyLists : ListNeighbours .amd64 :=
  let head : Neighbours .amd64 := ⟨0x100, 0x100, by decide, by decide, by decide, by decide⟩
  ⟨head, head, head, head⟩

/-- Windows 10 with the size of its layout. -/
theorem rtlFreeLdrDataTableEntry_follows_iff_win10 :
    let call := initializeWith .amd64 ⟨10, 0, 19045, 0⟩ 288
    ∀ w ∈ call.followed emptyLists, call.Kept (call.entryBytes emptyLists fun _ => 0) w := by
  intro call
  have hplaced : call.Placed :=
    { entry_pos := by decide
      entry_fits := by decide
      entry_new := by decide
      blocks := fun block heap hanswer => by cases hanswer; decide
      linkedNode_pos := by decide
      linkedNode_lt := by decide }
  have hbase : call.BaseIsNew := ⟨_, 0x100, false, rfl, by decide⟩
  exact (rtlFreeLdrDataTableEntry_follows_iff call emptyLists (fun _ => 0)
    ⟨.win10_2, .win10_2, rfl, by decide⟩ hplaced (by decide +kernel)).mpr
    ⟨fun hversion => absurd hversion (by decide), fun _ => ⟨by decide, hbase⟩⟩

/-- The release of Vista: the teardown follows `ForwarderLinks.Flink`, which is zero. -/
theorem rtlFreeLdrDataTableEntry_follows_zero :
    let call := initializeWith .amd64 ⟨6, 0, 6000, 0⟩ 200
    let bytes := call.entryBytes emptyLists fun _ => 0
    call.KnownSize ∧ call.result.1 = true ∧ ⟨152, 8, 0x300 + 152⟩ ∈ call.followed emptyLists ∧
      readLE bytes 152 8 = 0 ∧ ¬∀ w ∈ call.followed emptyLists, call.Kept bytes w := by
  intro call bytes
  have hfollowed : ⟨152, 8, 0x300 + 152⟩ ∈ call.followed emptyLists := by decide +kernel
  have hzero : readLE bytes 152 8 = 0 := by decide +kernel
  refine ⟨⟨.vista, .vista, rfl, by decide⟩, by decide +kernel, hfollowed, hzero, ?_⟩
  intro hall
  have hread : readLE bytes 152 8 = 0x300 + 152 := (hall _ hfollowed).2.1
  rw [hzero] at hread
  cases hread

end WinPolyfillLoader.LdrEntry
