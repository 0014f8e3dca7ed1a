import WinPolyfillLoader.LdrEntry.EntryLayout
import WinPolyfillLoader.Library.WriteLog

/-!
The stores of `RtlInitializeLdrDataTableEntry`, in their order and at their offsets from
the entry, and the members that each group of them goes to.
-/

namespace WinPolyfillLoader.LdrEntry

open ByteMemory MemoryModule Loader StructLayout

/-- A `UNICODE_STRING` that is copied as a whole. -/
structure StoredName where
  name : UnicodeString
  maximumLength : Nat

def StoredName.value (host : Host) (s : StoredName) : Nat :=
  2 * s.name.text.length + 2 ^ 16 * s.maximumLength +
    256 ^ host.pointerSize * s.name.buffer

/-- What a call of `RtlInitializeLdrDataTableEntry` works on. `linkedNode` are the links
that `RtlRbInsertNodeEx` stores to a node which joins the index. -/
structure InitializeCall where
  host : Host
  services : LdrServices
  globals : LdrGlobals
  headers : Option ImageNtHeaders
  ldrEntry : Nat
  baseAddress : Nat
  dllBaseName : StoredName
  dllFullName : StoredName
  state : LdrState
  linkedNode : Nat

def EntryType.range (host : Host) (type : EntryType) (name : MemberName) : Nat × Nat :=
  match (type.layout host).member? name with
  | some p => (p.offset, p.size)
  | none => (0, 0)

def EntryType.store (host : Host) (type : EntryType) (name : MemberName) (value : Nat) : Write :=
  ⟨(type.range host name).1, (type.range host name).2, value⟩

/-- Stores to `Flink` and `Blink` of a member. -/
def EntryType.storeLinks (host : Host) (type : EntryType) (name : MemberName)
    (flink blink : Nat) : List Write :=
  let offset := (type.range host name).1
  [⟨offset, host.pointerSize, flink⟩, ⟨offset + host.pointerSize, host.pointerSize, blink⟩]

namespace InitializeCall

variable (call : InitializeCall) (headers : ImageNtHeaders)

/-- `RtlInitializeLdrDataTableEntry`: what it returns, and the database. -/
def result : Bool × LdrState :=
  rtlInitializeLdrDataTableEntry call.services call.globals call.headers call.ldrEntry
    call.baseAddress call.dllBaseName.name call.dllFullName.name call.state

/-- `InitializeListHead` on a member. -/
def initializeListHead (type : EntryType) (name : MemberName) : List Write :=
  let head := call.ldrEntry + (type.range call.host name).1
  type.storeLinks call.host name head head

/-- The gates of Windows 11 and Windows 10. -/
def earlyStores : List Write :=
  (if systemWin11_21H2 ≤ call.globals.windowsVersion then
    [EntryType.win11.store call.host .checkSum headers.checkSum.toNat] else []) ++
  (if systemWin10Rtm ≤ call.globals.windowsVersion then
    [EntryType.win10.store call.host .referenceCount 1] else [])

/-- The gate of Windows 8, up to the insertion into the index. -/
def win8Stores : List Write :=
  [EntryType.win8.store call.host .loadTime call.globals.systemTime,
    EntryType.win8.store call.host .originalBase headers.imageBase,
    EntryType.win8.store call.host .baseNameHashValue
      (ldrHashEntryRaw call.services call.globals call.dllBaseName.name.text).toNat,
    EntryType.win8.store call.host .loadReason loadReasonDynamicLoad.toNat]

/-- The database at the insertion into the index. -/
def indexState : LdrState :=
  setEntry call.ldrEntry
    (earlyEntry call.services call.globals headers call.dllBaseName.name) call.state

def joinsIndex : Bool :=
  let state := call.indexState headers
  match state.ldrpModuleBaseAddressIndex with
  | none => false
  | some tree =>
    match tree.descend (fun e => (state.entries e).dllBase) call.baseAddress with
    | some (.slot _ _) => true
    | _ => false

/-- `RtlRbInsertNodeEx`, if the entry joins the index. -/
def linkStores : List Write :=
  if call.joinsIndex headers then
    [EntryType.win8.store call.host .baseAddressIndexNode call.linkedNode] else []

/-- The rest of the gate of Windows 8. `Modules` is the first member of the node. -/
def nodeStores (node : Nat) : List Write :=
  EntryType.win8.store call.host .ddagNode node ::
    (EntryType.win8.storeLinks call.host .nodeModuleLink node node ++
      [EntryType.win8.store call.host .flags (win8Flags headers).toNat])

/-- The gate of Windows 7. -/
def win7Stores : List Write :=
  if systemNt61Rtm < call.globals.windowsVersion ∧
      call.globals.ldrDataTableEntrySize = EntryType.win7.size call.host then
    [EntryType.win7.store call.host .originalBase headers.imageBase,
      EntryType.win7.store call.host .loadTime call.globals.systemTime]
  else []

/-- Whether the size is that of Vista or Windows 7. -/
def hasForwarderLinks : Prop :=
  call.globals.ldrDataTableEntrySize = EntryType.vista.size call.host ∨
    call.globals.ldrDataTableEntrySize = EntryType.win7.size call.host

instance : Decidable call.hasForwarderLinks := inferInstanceAs (Decidable (_ ∨ _))

/-- The gate of Vista. -/
def vistaStores : List Write :=
  if systemNt60Rtm < call.globals.windowsVersion ∧ call.hasForwarderLinks then
    call.initializeListHead .vista .forwarderLinks ++
      call.initializeListHead .vista .staticLinks ++
      call.initializeListHead .vista .serviceTagLinks
  else []

/-- The stores for all versions. -/
def commonStores : List Write :=
  [EntryType.common.store call.host .dllBase call.baseAddress,
    EntryType.common.store call.host .sizeOfImage headers.sizeOfImage.toNat,
    EntryType.common.store call.host .timeDateStamp headers.timeDateStamp.toNat,
    EntryType.common.store call.host .baseDllName (call.dllBaseName.value call.host),
    EntryType.common.store call.host .fullDllName (call.dllFullName.value call.host),
    EntryType.common.store call.host .entryPoint
      (call.baseAddress + headers.addressOfEntryPoint.toNat),
    EntryType.common.store call.host .loadCount 1] ++
  (if systemNt62Rtm ≤ call.globals.windowsVersion then []
    else [EntryType.common.store call.host .flags (legacyFlags headers).toNat]) ++
  call.initializeListHead .common .hashLinks

def lateStores : List Write :=
  call.win7Stores headers ++ call.vistaStores ++
    if systemNt50Rtm < call.globals.windowsVersion then call.commonStores headers else []

def stores : List Write :=
  match call.headers with
  | none => []
  | some headers =>
    call.earlyStores headers ++
      if systemNt62Rtm ≤ call.globals.windowsVersion then
        call.win8Stores headers ++
          match rtlInsertModuleBaseAddressIndexNode call.services call.globals call.ldrEntry
            call.baseAddress (call.indexState headers) with
          | (status, state) =>
            if ntSuccess status then
              call.linkStores headers ++
                match (allocateZeroed state).1 with
                | 0 => []
                | node => call.nodeStores headers node ++ call.lateStores headers
            else []
      else call.lateStores headers

end InitializeCall

section Ranges

variable {host : Host} {type : EntryType} {name : MemberName} {names : List MemberName}
  {size : Nat}

/-- The places of some members. -/
def EntryType.ranges (host : Host) (type : EntryType) (names : List MemberName) :
    List (Nat × Nat) := names.map (type.range host)

theorem EntryType.range_stop_le (type : EntryType) (name : MemberName) :
    (type.range host name).1 + (type.range host name).2 ≤ type.size host := by
  unfold EntryType.range
  cases hmember : (type.layout host).member? name with
  | none => exact Nat.zero_le _
  | some p => exact Layout.member?_inside hmember

theorem EntryType.ranges_stop_le (hsize : type.size host ≤ size) :
    ∀ r ∈ type.ranges host names, r.1 + r.2 ≤ size := by
  intro r hr
  obtain ⟨name, -, rfl⟩ := List.mem_map.mp hr
  exact Nat.le_trans (type.range_stop_le name) hsize

theorem EntryType.writesTo_store (value : Nat) (hname : name ∈ names) :
    WritesTo (type.ranges host names) [type.store host name value] := by
  intro w hw
  rw [List.mem_singleton.mp hw]
  exact ⟨_, List.mem_map_of_mem hname, Nat.le_refl _, Nat.le_refl _⟩

theorem EntryType.storeLinks_apart (flink blink : Nat) :
    (type.storeLinks host name flink blink).Pairwise fun v w =>
      Apart v.start v.size w.start w.size := by
  simp [storeLinks, Apart]

theorem EntryType.writesTo_storeLinks (flink blink : Nat) (hname : name ∈ names)
    (hsize : (type.range host name).2 = 2 * host.pointerSize) :
    WritesTo (type.ranges host names) (type.storeLinks host name flink blink) := by
  intro w hw
  refine ⟨_, List.mem_map_of_mem hname, ?_⟩
  rw [hsize]
  simp only [storeLinks, List.mem_cons, List.not_mem_nil, or_false] at hw
  rcases hw with rfl | rfl
  · simp only [Write.stop]
    omega
  · simp only [Write.stop]
    omega

end Ranges

namespace InitializeCall

variable {call : InitializeCall} {headers : ImageNtHeaders}

/-- The members behind the gates of Windows 11 and Windows 10. -/
def earlyRanges (host : Host) : List (Nat × Nat) :=
  EntryType.win11.ranges host [.checkSum] ++ EntryType.win10.ranges host [.referenceCount]

theorem earlyStores_ranges : WritesTo (earlyRanges call.host) (call.earlyStores headers) := by
  unfold earlyStores
  apply writesTo_union
  · split
    · exact EntryType.writesTo_store _ (by decide)
    · exact writesTo_nil
  · split
    · exact EntryType.writesTo_store _ (by decide)
    · exact writesTo_nil

theorem win8Stores_ranges :
    WritesTo (EntryType.win8.ranges call.host
      [.loadTime, .originalBase, .baseNameHashValue, .loadReason]) (call.win8Stores headers) :=
  writesTo_cons (EntryType.writesTo_store _ (by decide))
    (writesTo_cons (EntryType.writesTo_store _ (by decide))
      (writesTo_cons (EntryType.writesTo_store _ (by decide))
        (EntryType.writesTo_store _ (by decide))))

theorem linkStores_ranges :
    WritesTo (EntryType.win8.ranges call.host [.baseAddressIndexNode])
      (call.linkStores headers) := by
  unfold linkStores
  split
  · exact EntryType.writesTo_store _ (by decide)
  · exact writesTo_nil

theorem nodeStores_ranges (node : Nat) :
    WritesTo (EntryType.win8.ranges call.host [.ddagNode, .nodeModuleLink, .flags])
      (call.nodeStores headers node) :=
  writesTo_cons (EntryType.writesTo_store _ (by decide))
    (writesTo_append (EntryType.writesTo_storeLinks _ _ (by decide) (by cases call.host <;> decide))
      (EntryType.writesTo_store _ (by decide)))

theorem win7Stores_ranges :
    WritesTo (EntryType.win7.ranges call.host [.originalBase, .loadTime])
      (call.win7Stores headers) := by
  unfold win7Stores
  split
  · exact writesTo_cons (EntryType.writesTo_store _ (by decide))
      (EntryType.writesTo_store _ (by decide))
  · exact writesTo_nil

theorem vistaStores_ranges :
    WritesTo (EntryType.vista.ranges call.host [.forwarderLinks, .staticLinks, .serviceTagLinks])
      call.vistaStores := by
  unfold vistaStores
  split
  · exact writesTo_append (writesTo_append
      (EntryType.writesTo_storeLinks _ _ (by decide) (by cases call.host <;> decide))
      (EntryType.writesTo_storeLinks _ _ (by decide) (by cases call.host <;> decide)))
      (EntryType.writesTo_storeLinks _ _ (by decide) (by cases call.host <;> decide))
  · exact writesTo_nil

/-- The members that the stores for all versions go to. -/
def commonNames : List MemberName :=
  [.dllBase, .sizeOfImage, .timeDateStamp, .baseDllName, .fullDllName, .entryPoint, .loadCount,
    .flags, .hashLinks]

theorem commonStores_ranges :
    WritesTo (EntryType.common.ranges call.host commonNames) (call.commonStores headers) := by
  apply writesTo_append (writesTo_append ?_ ?_)
    (EntryType.writesTo_storeLinks _ _ (by decide) (by cases call.host <;> decide))
  · intro w hw
    simp only [List.mem_cons, List.not_mem_nil, or_false] at hw
    rcases hw with rfl | rfl | rfl | rfl | rfl | rfl | rfl <;>
    exact EntryType.writesTo_store _ (by decide) _ List.mem_cons_self
  · split
    · exact writesTo_nil
    · exact EntryType.writesTo_store _ (by decide)

/-- Every store to the entry ends inside the size that entries are allocated with. -/
def StoresInside (call : InitializeCall) : Prop :=
  ∀ w ∈ call.stores, w.stop ≤ call.globals.ldrDataTableEntrySize

end InitializeCall

end WinPolyfillLoader.LdrEntry
