import WinPolyfillLoader.LdrEntry.MapDllMemory
import WinPolyfillLoader.Library.DoublyLinked
import WinPolyfillLoader.Library.Runs

/-!
The module lists of the PEB and the hash buckets with their links. Insertion
and unlinking rewire four circular lists by single writes; on the lists of the
loader database they append and delete. The bucket of an entry is that of its
name, whatever the case of the letters.
-/

namespace WinPolyfillLoader.LdrEntry

open DoublyLinked

/-- The lists with a head of their own. -/
inductive ListHead where
  | inLoadOrderModuleList
  | inMemoryOrderModuleList
  | inInitializationOrderModuleList
  | ldrpHashTable (i : Fin 32)
deriving DecidableEq, Repr

/-- A `LIST_ENTRY` of the database: a head or a member of an entry. -/
inductive ListNode where
  | null
  | head (list : ListHead)
  | inLoadOrderLinks (ldrEntry : Nat)
  | inMemoryOrderLinks (ldrEntry : Nat)
  | inInitializationOrderLinks (ldrEntry : Nat)
  | hashLinks (ldrEntry : Nat)
deriving DecidableEq, Repr

def ListNode.entry : ListNode → Option Nat
  | .null => none
  | .head _ => none
  | .inLoadOrderLinks ldrEntry => some ldrEntry
  | .inMemoryOrderLinks ldrEntry => some ldrEntry
  | .inInitializationOrderLinks ldrEntry => some ldrEntry
  | .hashLinks ldrEntry => some ldrEntry

/-- The member of an entry that is linked into a list. -/
def ListHead.linksOf (ldrEntry : Nat) : ListHead → ListNode
  | .inLoadOrderModuleList => .inLoadOrderLinks ldrEntry
  | .inMemoryOrderModuleList => .inMemoryOrderLinks ldrEntry
  | .inInitializationOrderModuleList => .inInitializationOrderLinks ldrEntry
  | .ldrpHashTable _ => .hashLinks ldrEntry

@[simp]
theorem ListHead.entry_linksOf (list : ListHead) (ldrEntry : Nat) :
    (list.linksOf ldrEntry).entry = some ldrEntry := by
  cases list <;> rfl

theorem ListHead.linksOf_injective (list : ListHead) :
    Function.Injective fun ldrEntry => list.linksOf ldrEntry := by
  intro e e' heq
  have hentry := congrArg ListNode.entry heq
  rw [ListHead.entry_linksOf, ListHead.entry_linksOf] at hentry
  exact Option.some.inj hentry

structure LinkedDatabase where
  links : Links ListNode
  baseDllName : Nat → List Wchar

theorem ldrHashEntry_lt (services : LdrServices) (globals : LdrGlobals) (name : List Wchar) :
    ldrHashEntry services globals name < 32 := by
  have hle : ldrHashEntry services globals name ≤ 31 := by
    rw [ldrHashEntry, BitVec.toNat_and]
    exact Nat.and_le_right
  omega

/-- `&LdrpHashTable[LdrHashEntry(name)]`. -/
def bucketOf (services : LdrServices) (globals : LdrGlobals) (name : List Wchar) : Fin 32 :=
  ⟨ldrHashEntry services globals name, ldrHashEntry_lt services globals name⟩

/-- An entry that is not linked is memory of its owner: allocation and
initialisation give it a name and any links. -/
def writeLinks (ldrEntry : Nat) (name : List Wchar) (content : Links ListNode)
    (db : LinkedDatabase) : LinkedDatabase where
  links :=
    { flink := fun node =>
        if node.entry = some ldrEntry then content.flink node else db.links.flink node
      blink := fun node =>
        if node.entry = some ldrEntry then content.blink node else db.links.blink node }
  baseDllName := Function.update db.baseDllName ldrEntry name

/-- `RtlInsertMemoryTableEntry`, link by link. -/
def insertLinks (services : LdrServices) (globals : LdrGlobals) (ldrEntry : Nat)
    (db : LinkedDatabase) : LinkedDatabase :=
  let i := bucketOf services globals (db.baseDllName ldrEntry)
  let l := db.links.insertTail (.head (.ldrpHashTable i)) (.hashLinks ldrEntry)
  let l := l.insertTail (.head .inLoadOrderModuleList) (.inLoadOrderLinks ldrEntry)
  let l := l.insertTail (.head .inMemoryOrderModuleList) (.inMemoryOrderLinks ldrEntry)
  { db with
    links := l.insertTail (.head .inInitializationOrderModuleList)
      (.inInitializationOrderLinks ldrEntry) }

/-- The unlinking in `RtlFreeLdrDataTableEntry`. -/
def removeLinks (globals : LdrGlobals) (ldrEntry : Nat) (db : LinkedDatabase) : LinkedDatabase :=
  if systemNt50Rtm ≤ globals.windowsVersion then
    let l := db.links.removeEntry (.inLoadOrderLinks ldrEntry)
    let l := l.removeEntry (.inMemoryOrderLinks ldrEntry)
    let l := l.removeEntry (.inInitializationOrderLinks ldrEntry)
    { db with links := l.removeEntry (.hashLinks ldrEntry) }
  else db

/-- The same on the lists of the loader database. -/
def unlinkMemoryTableEntry (ldrEntry : Nat) (state : LdrState) : LdrState :=
  { state with
    ldrpHashTable := fun i => (state.ldrpHashTable i).erase ldrEntry
    inLoadOrderModuleList := state.inLoadOrderModuleList.erase ldrEntry
    inMemoryOrderModuleList := state.inMemoryOrderModuleList.erase ldrEntry
    inInitializationOrderModuleList := state.inInitializationOrderModuleList.erase ldrEntry }

def listedEntries (state : LdrState) : ListHead → List Nat
  | .inLoadOrderModuleList => state.inLoadOrderModuleList
  | .inMemoryOrderModuleList => state.inMemoryOrderModuleList
  | .inInitializationOrderModuleList => state.inInitializationOrderModuleList
  | .ldrpHashTable i => state.ldrpHashTable i

def members (state : LdrState) (list : ListHead) : List ListNode :=
  (listedEntries state list).map fun e => list.linksOf e

/-- The links hold the lists of the loader database, and every hashed entry is
in the bucket of its name. -/
structure Consistent (services : LdrServices) (globals : LdrGlobals) (db : LinkedDatabase)
    (state : LdrState) : Prop where
  isList : ∀ list, IsList db.links (.head list) (members state list)
  names : ∀ e, db.baseDllName e = (state.entries e).baseDllName.text
  hashed : ∀ i : Fin 32, ∀ e ∈ state.ldrpHashTable i,
    bucketOf services globals (db.baseDllName e) = i

inductive ListOp where
  | write (ldrEntry : Nat) (name : UnicodeString) (content : Links ListNode)
  | insert (ldrEntry : Nat)
  | free (ldrEntry : Nat)

def linkStep (services : LdrServices) (globals : LdrGlobals) (db : LinkedDatabase) :
    ListOp → LinkedDatabase
  | .write ldrEntry name content => writeLinks ldrEntry name.text content db
  | .insert ldrEntry => insertLinks services globals ldrEntry db
  | .free ldrEntry => removeLinks globals ldrEntry db

def listStep (services : LdrServices) (globals : LdrGlobals) (state : LdrState) : ListOp → LdrState
  | .write ldrEntry name _ =>
      setEntry ldrEntry { state.entries ldrEntry with baseDllName := name } state
  | .insert ldrEntry => rtlInsertMemoryTableEntry services globals ldrEntry state
  | .free ldrEntry => unlinkMemoryTableEntry ldrEntry state

/-- The entry is in none of the lists. -/
def NotLinked (state : LdrState) (ldrEntry : Nat) : Prop :=
  ∀ list, ldrEntry ∉ listedEntries state list

def Hashed (state : LdrState) (ldrEntry : Nat) : Prop :=
  ∃ i : Fin 32, ldrEntry ∈ state.ldrpHashTable i

/-- The entry is in the three module lists and in a bucket. -/
def IsLinked (state : LdrState) (ldrEntry : Nat) : Prop :=
  ldrEntry ∈ state.inLoadOrderModuleList ∧ ldrEntry ∈ state.inMemoryOrderModuleList ∧
    ldrEntry ∈ state.inInitializationOrderModuleList ∧ Hashed state ldrEntry

/-- An entry is written to and inserted while it is not linked, inserted with a
name, and unlinked while it is linked. -/
def ListGuard (state : LdrState) : ListOp → Prop
  | .write ldrEntry _ _ => NotLinked state ldrEntry
  | .insert ldrEntry =>
      NotLinked state ldrEntry ∧ (state.entries ldrEntry).baseDllName.text ≠ []
  | .free ldrEntry => IsLinked state ldrEntry

section Consistency

variable {services : LdrServices} {globals : LdrGlobals} {db : LinkedDatabase} {state : LdrState}

/-- The lists have no node in common: an entry has a member of its own for each
module list, and one bucket. -/
theorem Consistent.areLists (h : Consistent services globals db state) :
    AreLists db.links ListNode.head (members state) := by
  refine ⟨h.isList, ?_⟩
  intro i j hij x hx hx'
  rcases List.mem_cons.mp hx with rfl | hx
  · rcases List.mem_cons.mp hx' with heq | hx'
    · exact hij (ListNode.head.inj heq)
    · obtain ⟨e, -, heq⟩ := List.mem_map.mp hx'
      have hentry := congrArg ListNode.entry heq
      rw [ListHead.entry_linksOf] at hentry
      cases hentry
  · obtain ⟨e, he, rfl⟩ := List.mem_map.mp hx
    rcases List.mem_cons.mp hx' with heq | hx'
    · have hentry := congrArg ListNode.entry heq
      rw [ListHead.entry_linksOf] at hentry
      cases hentry
    · obtain ⟨e', he', heq⟩ := List.mem_map.mp hx'
      have hentry := congrArg ListNode.entry heq
      rw [ListHead.entry_linksOf, ListHead.entry_linksOf] at hentry
      cases hentry
      cases i with
      | ldrpHashTable a =>
        cases j with
        | ldrpHashTable b => exact hij (by rw [← h.hashed a e he, ← h.hashed b e he'])
        | inLoadOrderModuleList => cases heq
        | inMemoryOrderModuleList => cases heq
        | inInitializationOrderModuleList => cases heq
      | inLoadOrderModuleList => cases j <;> first | exact hij rfl | cases heq
      | inMemoryOrderModuleList => cases j <;> first | exact hij rfl | cases heq
      | inInitializationOrderModuleList => cases j <;> first | exact hij rfl | cases heq

theorem NotLinked.fresh {ldrEntry : Nat} (hentry : NotLinked state ldrEntry) {node : ListNode}
    (hnode : node.entry = some ldrEntry) (list : ListHead) :
    node ∉ ListNode.head list :: members state list := by
  intro hmem
  rcases List.mem_cons.mp hmem with rfl | hmem
  · cases hnode
  · obtain ⟨e, he, rfl⟩ := List.mem_map.mp hmem
    rw [ListHead.entry_linksOf] at hnode
    cases hnode
    exact hentry list he

theorem consistent_write (h : Consistent services globals db state) {ldrEntry : Nat}
    (hentry : NotLinked state ldrEntry) (name : UnicodeString) (content : Links ListNode) :
    Consistent services globals (writeLinks ldrEntry name.text content db)
      (setEntry ldrEntry { state.entries ldrEntry with baseDllName := name } state) := by
  have hother : ∀ list, ∀ x ∈ ListNode.head list :: members state list,
      x.entry ≠ some ldrEntry := by
    intro list x hx hnode
    exact hentry.fresh hnode list hx
  have hlists : AreLists (writeLinks ldrEntry name.text content db).links ListNode.head
      (members state) := by
    apply areLists_congr _ _ h.areLists
    · intro list x hx
      exact if_neg (hother list x hx)
    · intro list x hx
      exact if_neg (hother list x hx)
  refine ⟨hlists.isList, ?_, ?_⟩
  · intro e
    rcases eq_or_ne e ldrEntry with rfl | hne
    · simp [writeLinks, setEntry]
    · simp [writeLinks, setEntry, hne, h.names e]
  · intro i e he
    have hne : e ≠ ldrEntry := by
      rintro rfl
      exact hentry (.ldrpHashTable i) he
    have hname : (writeLinks ldrEntry name.text content db).baseDllName e = db.baseDllName e :=
      Function.update_of_ne hne _ _
    rw [hname]
    exact h.hashed i e he

/-- The lists that an entry of this name is inserted into, in the order of the
source. -/
def insertedInto (services : LdrServices) (globals : LdrGlobals) (name : List Wchar) :
    List ListHead :=
  [.ldrpHashTable (bucketOf services globals name), .inLoadOrderModuleList,
    .inMemoryOrderModuleList, .inInitializationOrderModuleList]

/-- The lists that an entry of bucket `i` is unlinked from, in the order of the
source. -/
def removedFrom (i : Fin 32) : List ListHead :=
  [.inLoadOrderModuleList, .inMemoryOrderModuleList, .inInitializationOrderModuleList,
    .ldrpHashTable i]

theorem insertLinks_links (ldrEntry : Nat) :
    (insertLinks services globals ldrEntry db).links =
      (insertedInto services globals (db.baseDllName ldrEntry)).foldl
        (fun l list => l.insertTail (.head list) (list.linksOf ldrEntry)) db.links := rfl

theorem removeLinks_links (hversion : systemNt50Rtm ≤ globals.windowsVersion) (ldrEntry : Nat)
    (i : Fin 32) : (removeLinks globals ldrEntry db).links =
      (removedFrom i).foldl (fun l list => l.removeEntry (list.linksOf ldrEntry)) db.links := by
  rw [removeLinks, if_pos hversion]
  rfl

theorem members_insert (ldrEntry : Nat) :
    members (rtlInsertMemoryTableEntry services globals ldrEntry state) =
      fun list =>
        if list ∈ insertedInto services globals (state.entries ldrEntry).baseDllName.text then
          members state list ++ [list.linksOf ldrEntry]
        else members state list := by
  funext list
  cases list with
  | ldrpHashTable i =>
    rcases eq_or_ne i (bucketOf services globals (state.entries ldrEntry).baseDllName.text) with
      rfl | hne
    · simp [members, listedEntries, insertedInto, rtlInsertMemoryTableEntry, bucketOf]
    · have hval : (i : Nat) ≠
          ldrHashEntry services globals (state.entries ldrEntry).baseDllName.text := by
        intro heq
        exact hne (Fin.ext heq)
      simp [members, listedEntries, insertedInto, rtlInsertMemoryTableEntry, hne, hval]
  | inLoadOrderModuleList => simp [members, listedEntries, insertedInto, rtlInsertMemoryTableEntry]
  | inMemoryOrderModuleList =>
    simp [members, listedEntries, insertedInto, rtlInsertMemoryTableEntry]
  | inInitializationOrderModuleList =>
    simp [members, listedEntries, insertedInto, rtlInsertMemoryTableEntry]

theorem listedEntries_unlink (ldrEntry : Nat) (list : ListHead) :
    listedEntries (unlinkMemoryTableEntry ldrEntry state) list =
      (listedEntries state list).erase ldrEntry := by
  cases list <;> rfl

/-- An entry is in one bucket, so its links are in no other list. -/
theorem members_unlink (h : Consistent services globals db state) {ldrEntry : Nat} {i : Fin 32}
    (hi : ldrEntry ∈ state.ldrpHashTable i) :
    members (unlinkMemoryTableEntry ldrEntry state) =
      fun list => if list ∈ removedFrom i then (members state list).erase (list.linksOf ldrEntry)
        else members state list := by
  funext list
  have herase : members (unlinkMemoryTableEntry ldrEntry state) list =
      (members state list).erase (list.linksOf ldrEntry) := by
    rw [members, listedEntries_unlink, members]
    exact List.map_erase list.linksOf_injective _
  rw [herase]
  split
  · rfl
  next hother =>
    refine List.erase_of_not_mem fun hmem => ?_
    obtain ⟨e, he, heq⟩ := List.mem_map.mp hmem
    cases list.linksOf_injective heq
    cases list with
    | ldrpHashTable j =>
      have hj := h.hashed j ldrEntry he
      rw [h.hashed i ldrEntry hi] at hj
      exact hother (by simp [removedFrom, hj])
    | inLoadOrderModuleList => exact hother (by simp [removedFrom])
    | inMemoryOrderModuleList => exact hother (by simp [removedFrom])
    | inInitializationOrderModuleList => exact hother (by simp [removedFrom])

theorem linksOf_mem {list : ListHead} {ldrEntry : Nat} (h : ldrEntry ∈ listedEntries state list) :
    list.linksOf ldrEntry ∈ members state list :=
  List.mem_map.mpr ⟨ldrEntry, h, rfl⟩

theorem consistent_insert (h : Consistent services globals db state) {ldrEntry : Nat}
    (hentry : NotLinked state ldrEntry) :
    Consistent services globals (insertLinks services globals ldrEntry db)
      (rtlInsertMemoryTableEntry services globals ldrEntry state) := by
  have hlists : AreLists (insertLinks services globals ldrEntry db).links ListNode.head
      (members (rtlInsertMemoryTableEntry services globals ldrEntry state)) := by
    rw [members_insert, insertLinks_links, h.names ldrEntry]
    apply areLists_insertAll _ h.areLists
    · simp [insertedInto]
    · simp [insertedInto, ListHead.linksOf]
    · intro list _
      exact hentry.fresh (list.entry_linksOf ldrEntry)
  refine ⟨hlists.isList, h.names, ?_⟩
  intro i e he
  change bucketOf services globals (db.baseDllName e) = i
  change e ∈ Function.update state.ldrpHashTable _ _ i.val at he
  rcases eq_or_ne i.val
    (ldrHashEntry services globals (state.entries ldrEntry).baseDllName.text) with heq | hne
  · rw [← heq, Function.update_self] at he
    rcases List.mem_append.mp he with he | he
    · exact h.hashed i e he
    · rw [List.mem_singleton.mp he, h.names ldrEntry]
      exact Fin.ext heq.symm
  · rw [Function.update_of_ne hne] at he
    exact h.hashed i e he

theorem consistent_free (hversion : systemNt50Rtm ≤ globals.windowsVersion)
    (h : Consistent services globals db state) {ldrEntry : Nat}
    (hentry : IsLinked state ldrEntry) :
    Consistent services globals (removeLinks globals ldrEntry db)
      (unlinkMemoryTableEntry ldrEntry state) := by
  obtain ⟨hload, hmemory, hinitialization, i, hi⟩ := hentry
  have hlists : AreLists (removeLinks globals ldrEntry db).links ListNode.head
      (members (unlinkMemoryTableEntry ldrEntry state)) := by
    rw [members_unlink h hi, removeLinks_links hversion ldrEntry i]
    apply areLists_removeAll _ h.areLists
    · simp [removedFrom]
    · intro list hlist
      apply linksOf_mem
      simp only [removedFrom, List.mem_cons, List.not_mem_nil, or_false] at hlist
      rcases hlist with rfl | rfl | rfl | rfl
      · exact hload
      · exact hmemory
      · exact hinitialization
      · exact hi
  have hnames : (removeLinks globals ldrEntry db).baseDllName = db.baseDllName := by
    rw [removeLinks, if_pos hversion]
  refine ⟨hlists.isList, ?_, ?_⟩
  · rw [hnames]
    exact h.names
  · intro j e he
    rw [hnames]
    exact h.hashed j e (List.mem_of_mem_erase he)

theorem consistent_step (hversion : systemNt50Rtm ≤ globals.windowsVersion) (op : ListOp)
    (h : Consistent services globals db state) (hguard : ListGuard state op) :
    Consistent services globals (linkStep services globals db op)
      (listStep services globals state op) := by
  cases op with
  | write ldrEntry name content => exact consistent_write h hguard name content
  | insert ldrEntry => exact consistent_insert h hguard.1
  | free ldrEntry => exact consistent_free hversion h hguard

theorem Consistent.nodup (h : Consistent services globals db state) (list : ListHead) :
    (listedEntries state list).Nodup :=
  List.Nodup.of_map _ (List.nodup_cons.mp (h.isList list).nodup).2

end Consistency

section CaseOfNames

variable (services : LdrServices) (globals : LdrGlobals)

/-- `RtlUpcaseUnicodeChar` is the case folding. -/
def EqualIgnoringCase (a b : List Wchar) : Prop :=
  a.map services.rtlUpcaseUnicodeChar = b.map services.rtlUpcaseUnicodeChar

theorem hashSum_folded (name : List Wchar) :
    name.foldl (fun result c =>
        result + 0x1003F * (services.rtlUpcaseUnicodeChar c).zeroExtend 32) (0 : Dword) =
      (name.map services.rtlUpcaseUnicodeChar).foldl
        (fun result u => result + 0x1003F * u.zeroExtend 32) 0 := by
  rw [List.foldl_map]

theorem upcase_first {a b : List Wchar} (h : EqualIgnoringCase services a b) :
    services.rtlUpcaseUnicodeChar (a.headD 0) = services.rtlUpcaseUnicodeChar (b.headD 0) := by
  cases a with
  | nil =>
    cases b with
    | nil => rfl
    | cons c b => cases h
  | cons c a =>
    cases b with
    | nil => cases h
    | cons d b => exact (List.cons.inj h).1

/-- No variant of the hash tells names apart that differ in case. -/
theorem ldrHashEntry_folded
    (hfold : ∀ a b, EqualIgnoringCase services a b →
      services.rtlHashUnicodeString a = services.rtlHashUnicodeString b)
    {a b : List Wchar} (h : EqualIgnoringCase services a b) :
    ldrHashEntry services globals a = ldrHashEntry services globals b := by
  have hraw : ldrHashEntryRaw services globals a = ldrHashEntryRaw services globals b := by
    have hmap : a.map services.rtlUpcaseUnicodeChar = b.map services.rtlUpcaseUnicodeChar := h
    unfold ldrHashEntryRaw
    rw [upcase_first services h, hashSum_folded, hashSum_folded, hmap, hfold a b h]
  rw [ldrHashEntry, ldrHashEntry, hraw]

end CaseOfNames

/-- The order of a module list: what is inserted comes last, what is freed is
deleted. -/
def moduleOrder (order : List Nat) : ListOp → List Nat
  | .write _ _ _ => order
  | .insert ldrEntry => order ++ [ldrEntry]
  | .free ldrEntry => order.erase ldrEntry

/-- The entries that were hashed at the start or inserted, and not yet removed. -/
def hashedEntries (live : Set Nat) : ListOp → Set Nat
  | .write _ _ _ => live
  | .insert ldrEntry => Set.insert ldrEntry live
  | .free ldrEntry => live \ {ldrEntry}

section Runs

variable {services : LdrServices} {globals : LdrGlobals}

theorem hashed_step {db : LinkedDatabase} {state : LdrState}
    (h : Consistent services globals db state) (op : ListOp) (e : Nat) :
    Hashed (listStep services globals state op) e ↔ e ∈ hashedEntries {e | Hashed state e} op := by
  cases op with
  | write ldrEntry name content => exact Iff.rfl
  | insert ldrEntry =>
    have hbucket : ∀ i : Fin 32,
        e ∈ (listStep services globals state (.insert ldrEntry)).ldrpHashTable i ↔
          e ∈ state.ldrpHashTable i ∨
            (i = bucketOf services globals (state.entries ldrEntry).baseDllName.text ∧
              e = ldrEntry) := by
      intro i
      change e ∈ Function.update state.ldrpHashTable _ _ i.val ↔ _
      rcases eq_or_ne i.val
        (ldrHashEntry services globals (state.entries ldrEntry).baseDllName.text) with heq | hne
      · have hi : i = bucketOf services globals (state.entries ldrEntry).baseDllName.text :=
          Fin.ext heq
        rw [← heq, Function.update_self, List.mem_append, List.mem_singleton, and_iff_right hi]
      · have hi : i ≠ bucketOf services globals (state.entries ldrEntry).baseDllName.text :=
          fun hi => hne (congrArg Fin.val hi)
        rw [Function.update_of_ne hne]
        exact (or_iff_left fun h => hi h.1).symm
    constructor
    · rintro ⟨i, hi⟩
      rcases (hbucket i).mp hi with hi | ⟨-, rfl⟩
      · exact Or.inr ⟨i, hi⟩
      · exact Or.inl rfl
    · rintro (rfl | ⟨i, hi⟩)
      · exact ⟨_, (hbucket _).mpr (Or.inr ⟨rfl, rfl⟩)⟩
      · exact ⟨i, (hbucket i).mpr (Or.inl hi)⟩
  | free ldrEntry =>
    have hbucket : ∀ i : Fin 32,
        e ∈ (listStep services globals state (.free ldrEntry)).ldrpHashTable i ↔
          e ≠ ldrEntry ∧ e ∈ state.ldrpHashTable i :=
      fun i => (h.nodup (.ldrpHashTable i)).mem_erase_iff
    constructor
    · rintro ⟨i, hi⟩
      obtain ⟨hne, hi⟩ := (hbucket i).mp hi
      exact ⟨⟨i, hi⟩, hne⟩
    · rintro ⟨⟨i, hi⟩, hne⟩
      exact ⟨i, (hbucket i).mpr ⟨hne, hi⟩⟩

theorem hashed_run (hversion : systemNt50Rtm ≤ globals.windowsVersion) {db : LinkedDatabase}
    {state : LdrState} {ops : List ListOp} (h : Consistent services globals db state)
    (hops : Runs.Admissible (listStep services globals) ListGuard state ops) :
    {e | Hashed (ops.foldl (listStep services globals) state) e} =
      ops.foldl hashedEntries {e | Hashed state e} := by
  have hstep : ∀ s live op,
      ((∃ d, Consistent services globals d s) ∧ {e | Hashed s e} = live) → ListGuard s op →
        (∃ d, Consistent services globals d (listStep services globals s op)) ∧
          {e | Hashed (listStep services globals s op) e} = hashedEntries live op := by
    rintro s live op ⟨⟨d, hd⟩, rfl⟩ hguard
    exact ⟨⟨_, consistent_step hversion op hd hguard⟩, Set.ext (hashed_step hd op)⟩
  exact (Runs.simulation hashedEntries hstep ⟨⟨db, h⟩, rfl⟩ hops).2

theorem consistent_run (hversion : systemNt50Rtm ≤ globals.windowsVersion) {db : LinkedDatabase}
    {state : LdrState} {ops : List ListOp} (h : Consistent services globals db state)
    (hops : Runs.Admissible (listStep services globals) ListGuard state ops) :
    Consistent services globals (ops.foldl (linkStep services globals) db)
      (ops.foldl (listStep services globals) state) := by
  have hstep : ∀ s d op, Consistent services globals d s → ListGuard s op →
      Consistent services globals (linkStep services globals d op)
        (listStep services globals s op) :=
    fun s d op hd hguard => consistent_step hversion op hd hguard
  exact Runs.simulation (linkStep services globals) hstep h hops

theorem moduleOrder_run (list : LdrState → List Nat) (state : LdrState) (ops : List ListOp)
    (hlist : ∀ s op, moduleOrder (list s) op = list (listStep services globals s op)) :
    list (ops.foldl (listStep services globals) state) = ops.foldl moduleOrder (list state) :=
  (List.foldl_hom list hlist).symm

end Runs

/-- From every consistent database on, under every version from 5.0 on: the
links stay well-formed lists, the module lists keep their order, and the entry
of a module is in one bucket, that of its name in any case. -/
theorem moduleLists_consistent (services : LdrServices) (globals : LdrGlobals)
    (hversion : systemNt50Rtm ≤ globals.windowsVersion)
    (hfold : ∀ a b, EqualIgnoringCase services a b →
      services.rtlHashUnicodeString a = services.rtlHashUnicodeString b)
    (db : LinkedDatabase) (state : LdrState) (ops : List ListOp)
    (h : Consistent services globals db state)
    (hops : Runs.Admissible (listStep services globals) ListGuard state ops) :
    let db' := ops.foldl (linkStep services globals) db
    let state' := ops.foldl (listStep services globals) state
    (∀ list, IsList db'.links (.head list) (members state' list)) ∧
      (state'.inLoadOrderModuleList = ops.foldl moduleOrder state.inLoadOrderModuleList ∧
        state'.inMemoryOrderModuleList = ops.foldl moduleOrder state.inMemoryOrderModuleList ∧
        state'.inInitializationOrderModuleList =
          ops.foldl moduleOrder state.inInitializationOrderModuleList) ∧
      ∀ e ∈ ops.foldl hashedEntries {e | Hashed state e},
        ∃ i : Fin 32, (∀ j : Fin 32, e ∈ state'.ldrpHashTable j ↔ j = i) ∧
          ∀ name, EqualIgnoringCase services name (db'.baseDllName e) →
            ldrHashEntry services globals name = i := by
  intro db' state'
  have hend : Consistent services globals db' state' := consistent_run hversion h hops
  refine ⟨hend.isList, ⟨?_, ?_, ?_⟩, ?_⟩
  · apply moduleOrder_run LdrState.inLoadOrderModuleList
    intro s op
    cases op <;> rfl
  · apply moduleOrder_run LdrState.inMemoryOrderModuleList
    intro s op
    cases op <;> rfl
  · apply moduleOrder_run LdrState.inInitializationOrderModuleList
    intro s op
    cases op <;> rfl
  · intro e he
    rw [← hashed_run hversion h hops] at he
    obtain ⟨i, hi⟩ : Hashed state' e := he
    refine ⟨i, ?_, ?_⟩
    · intro j
      constructor
      · intro hj
        rw [← hend.hashed j e hj, ← hend.hashed i e hi]
      · rintro rfl
        exact hi
    · intro name hname
      rw [ldrHashEntry_folded services globals hfold hname]
      exact congrArg Fin.val (hend.hashed i e hi)

def noModules : LdrState :=
  { ntdllOnly [] with
    entries := fun _ => { LdrDataTableEntry.zero with baseDllName := ⟨0x40, [0x61]⟩ }
    inLoadOrderModuleList := []
    inMemoryOrderModuleList := []
    inInitializationOrderModuleList := []
    ldrpHashTable := fun _ => [] }

/-- A module is inserted and freed. -/
theorem moduleLists_consistent_insert_free :
    let globals : LdrGlobals := ⟨systemNt61Rtm, 0xe0, 0⟩
    let ops := [ListOp.insert 0x100, ListOp.free 0x100]
    let db : LinkedDatabase := ⟨⟨id, id⟩, fun _ => [0x61]⟩
    ∀ list, IsList (ops.foldl (linkStep plainServices globals) db).links (.head list)
      (members (ops.foldl (listStep plainServices globals) noModules) list) := by
  intro globals ops db
  have hconsistent : Consistent plainServices globals db noModules := by
    refine ⟨?_, fun _ => rfl, fun _ _ he => nomatch he⟩
    intro list
    have hempty : members noModules list = [] := by cases list <;> rfl
    rw [hempty]
    exact ⟨List.nodup_singleton _, ⟨rfl, trivial⟩, ⟨rfl, trivial⟩⟩
  have hfold : ∀ a b, EqualIgnoringCase plainServices a b →
      plainServices.rtlHashUnicodeString a = plainServices.rtlHashUnicodeString b := by
    intro a b _
    simp only [plainServices]
  have hfirst : NotLinked noModules 0x100 := by
    intro list
    cases list <;> simp [listedEntries, noModules]
  have hlinked : IsLinked (listStep plainServices globals noModules (.insert 0x100)) 0x100 := by
    refine ⟨List.mem_cons_self, List.mem_cons_self, List.mem_cons_self,
      bucketOf plainServices globals [0x61], ?_⟩
    simp [listStep, rtlInsertMemoryTableEntry, noModules, bucketOf]
  exact (moduleLists_consistent plainServices globals (by decide) hfold db noModules ops
    hconsistent ⟨⟨hfirst, List.cons_ne_nil _ _⟩, hlinked, trivial⟩).1

end WinPolyfillLoader.LdrEntry
