import WinPolyfillLoader.LdrEntry.MapDllMemory

/-!
The descent of `RtlInsertModuleBaseAddressIndexNode` over the child links of
the index nodes. On the links of a search tree it ends where the descent of the
tree ends, at the entry with the base or at the empty slot where the base
belongs.
-/

namespace WinPolyfillLoader.LdrEntry

open SearchTree

/-- The child links of a `BaseAddressIndexNode`, as the entries they belong to;
null is 0. -/
structure RtlBalancedNode where
  left : Nat
  right : Nat
deriving DecidableEq, Repr

/-- The `while (true)` loop, with `bRight` as it is when the loop is left. -/
def descendIndex (dllBase : Nat → Nat) (nodes : Nat → RtlBalancedNode) (baseAddress : Nat) :
    Nat → Nat → Bool → Option (Descent Nat)
  | 0, _, _ => none
  | fuel + 1, ldrNode, bRight =>
    if baseAddress < dllBase ldrNode then
      if (nodes ldrNode).left = 0 then some (.slot ldrNode bRight)
      else descendIndex dllBase nodes baseAddress fuel (nodes ldrNode).left bRight
    else if dllBase ldrNode < baseAddress then
      if (nodes ldrNode).right = 0 then some (.slot ldrNode true)
      else descendIndex dllBase nodes baseAddress fuel (nodes ldrNode).right bRight
    else some (.found ldrNode)

/-- The tree is linked through its nodes from `root` on. -/
def IndexLinks (nodes : Nat → RtlBalancedNode) (tree : BinTree Nat) (root : Nat) : Prop :=
  Links (fun e => (nodes e).left) (fun e => (nodes e).right) 0 tree root

def linkIndexNode (nodes : Nat → RtlBalancedNode) (parent : Nat) (right : Bool) (new : Nat) :
    Nat → RtlBalancedNode :=
  Function.update
    (Function.update nodes parent
      (if right then { nodes parent with right := new } else { nodes parent with left := new }))
    new ⟨0, 0⟩

/-- The loop over the links is the descent of the tree. One round visits one
node of it, so it ends after as many rounds as there are nodes. -/
theorem descendIndex_eq {dllBase : Nat → Nat} {nodes : Nat → RtlBalancedNode}
    (baseAddress : Nat) {tree : BinTree Nat} {root : Nat} (hlinks : IndexLinks nodes tree root)
    (hnonempty : tree.isEmpty = false) {fuel : Nat} (hfuel : tree.toList.length ≤ fuel) :
    descendIndex dllBase nodes baseAddress fuel root false = tree.descend dllBase baseAddress := by
  induction tree generalizing root fuel with
  | nil => cases hnonempty
  | node l x r ihl ihr =>
    obtain ⟨rfl, -, hl, hr⟩ := hlinks
    rw [BinTree.toList, List.length_append, List.length_cons] at hfuel
    obtain ⟨fuel, rfl⟩ := Nat.exists_eq_add_one_of_ne_zero (by omega : fuel ≠ 0)
    have hleft : l.isEmpty = true ↔ (nodes root).left = 0 := links_isEmpty hl
    have hright : r.isEmpty = true ↔ (nodes root).right = 0 := links_isEmpty hr
    rw [descendIndex, BinTree.descend]
    by_cases hlt : baseAddress < dllBase root
    · rw [if_pos hlt, if_pos hlt]
      cases hempty : l.isEmpty with
      | true => rw [if_pos (hleft.mp hempty), if_pos rfl]
      | false =>
        have hchild : ¬ (nodes root).left = 0 := fun h => by
          rw [hleft.mpr h] at hempty
          cases hempty
        rw [if_neg hchild, if_neg Bool.false_ne_true]
        exact ihl hl hempty (by omega)
    · rw [if_neg hlt, if_neg hlt]
      by_cases hgt : dllBase root < baseAddress
      · rw [if_pos hgt, if_pos hgt]
        cases hempty : r.isEmpty with
        | true => rw [if_pos (hright.mp hempty), if_pos rfl]
        | false =>
          have hchild : ¬ (nodes root).right = 0 := fun h => by
            rw [hright.mpr h] at hempty
            cases hempty
          rw [if_neg hchild, if_neg Bool.false_ne_true]
          exact ihr hr hempty (by omega)
      · rw [if_neg hgt, if_neg hgt]

theorem indexLinks_slot {nodes : Nat → RtlBalancedNode} {tree : BinTree Nat} {root parent : Nat}
    {right : Bool} (hlinks : IndexLinks nodes tree root) (hslot : tree.HasSlot parent right) :
    (if right then (nodes parent).right else (nodes parent).left) = 0 := by
  induction tree generalizing root with
  | nil => cases hslot
  | node l x r ihl ihr =>
    obtain ⟨rfl, -, hl, hr⟩ := hlinks
    rcases hslot with ⟨rfl, hempty⟩ | hslot | hslot
    · cases right with
      | true => exact (links_isEmpty hr).mp hempty
      | false => exact (links_isEmpty hl).mp hempty
    · exact ihl hl hslot
    · exact ihr hr hslot

theorem indexLinks_linkIndexNode {nodes : Nat → RtlBalancedNode} {tree : BinTree Nat}
    {root parent new : Nat} {right : Bool} (hlinks : IndexLinks nodes tree root)
    (hslot : tree.HasSlot parent right) (hnodup : tree.toList.Nodup) (hnonnull : new ≠ 0)
    (hnew : new ∉ tree.toList) :
    IndexLinks (linkIndexNode nodes parent right new) (tree.linkAt parent right new) root := by
  have hparent : parent ≠ new := fun heq => hnew (heq ▸ hasSlot_mem hslot)
  have hleaf : linkIndexNode nodes parent right new new = ⟨0, 0⟩ := Function.update_self _ _ _
  have hat : linkIndexNode nodes parent right new parent =
      if right then { nodes parent with right := new } else { nodes parent with left := new } := by
    rw [linkIndexNode, Function.update_of_ne hparent, Function.update_self]
  refine links_linkAt hlinks hslot hnodup hnonnull ⟨by rw [hleaf], by rw [hleaf]⟩ ?_ ?_
  · cases right with
    | true => exact ⟨by rw [hat]; rfl, by rw [hat]; rfl⟩
    | false => exact ⟨by rw [hat]; rfl, by rw [hat]; rfl⟩
  · intro x hx hne
    have hxnew : x ≠ new := fun heq => hnew (heq ▸ hx)
    have hsame : linkIndexNode nodes parent right new x = nodes x := by
      rw [linkIndexNode, Function.update_of_ne hxnew, Function.update_of_ne hne]
    exact ⟨by rw [hsame], by rw [hsame]⟩

/-- The slot for a base: the child link is null, and a node linked there, by
ntdll or as a plain leaf, takes the sorted place of its base. -/
structure SortedSlot (services : LdrServices) (dllBase : Nat → Nat)
    (nodes : Nat → RtlBalancedNode) (tree : BinTree Nat) (root dataTableEntry baseAddress parent : Nat)
    (right : Bool) : Prop where
  member : parent ∈ tree.toList
  empty : (if right then (nodes parent).right else (nodes parent).left) = 0
  linked : IndexLinks (linkIndexNode nodes parent right dataTableEntry)
    (tree.linkAt parent right dataTableEntry) root
  sorted : (tree.linkAt parent right dataTableEntry).toList.map
      (Function.update dllBase dataTableEntry baseAddress) =
    (tree.toList.map dllBase).orderedInsert (· ≤ ·) baseAddress
  balanced : (services.rtlRbInsertNodeEx tree parent right dataTableEntry).toList.map
      (Function.update dllBase dataTableEntry baseAddress) =
    (tree.toList.map dllBase).orderedInsert (· ≤ ·) baseAddress

/-- One more reference to an entry: the load count of its node and, from
Windows 10 on, its own reference count; nothing else changes. -/
structure CountedUp (globals : LdrGlobals) (ldrNode : Nat) (state after : LdrState) : Prop where
  node : after.ddagNodes (state.entries ldrNode).ddagNode =
    { state.ddagNodes (state.entries ldrNode).ddagNode with
      loadCount := (state.ddagNodes (state.entries ldrNode).ddagNode).loadCount + 1 }
  nodes : ∀ n ≠ (state.entries ldrNode).ddagNode, after.ddagNodes n = state.ddagNodes n
  entry : after.entries ldrNode =
    if systemWin10Rtm ≤ globals.windowsVersion then
      { state.entries ldrNode with referenceCount := (state.entries ldrNode).referenceCount + 1 }
    else state.entries ldrNode
  entries : ∀ e ≠ ldrNode, after.entries e = state.entries e
  others : after = { state with ddagNodes := after.ddagNodes, entries := after.entries }

theorem countUp_countedUp (globals : LdrGlobals) (ldrNode : Nat) (state : LdrState) :
    CountedUp globals ldrNode state (countUp globals ldrNode state) := by
  refine ⟨?_, ?_, ?_, ?_, rfl⟩
  · simp [countUp]
  · intro n hn
    exact Function.update_of_ne hn _ _
  · by_cases hversion : systemWin10Rtm ≤ globals.windowsVersion
    · simp [countUp, hversion]
    · simp [countUp, hversion]
  · intro e he
    by_cases hversion : systemWin10Rtm ≤ globals.windowsVersion
    · simp [countUp, hversion, he]
    · simp [countUp, hversion]

/-- On the links of any search tree the descent ends. A new base gets the empty
slot of its sorted place; a base that an entry has already counts that entry up
and leaves the tree alone. -/
theorem rtlInsertModuleBaseAddressIndexNode_descends (services : LdrServices)
    (globals : LdrGlobals) (nodes : Nat → RtlBalancedNode) (tree : BinTree Nat)
    (root dataTableEntry baseAddress : Nat) (state : LdrState)
    (hindex : state.ldrpModuleBaseAddressIndex = some tree) (hnonempty : tree.isEmpty = false)
    (hlinks : IndexLinks nodes tree root)
    (hordered : tree.toList.Pairwise
      (fun a b => (state.entries a).dllBase < (state.entries b).dllBase))
    (hnonnull : dataTableEntry ≠ 0) (hnew : dataTableEntry ∉ tree.toList) :
    let dllBase := fun e => (state.entries e).dllBase
    let descent := descendIndex dllBase nodes baseAddress tree.toList.length root false
    (baseAddress ∉ tree.toList.map dllBase →
      ∃ parent right, descent = some (.slot parent right) ∧
        SortedSlot services dllBase nodes tree root dataTableEntry baseAddress parent right ∧
        rtlInsertModuleBaseAddressIndexNode services globals dataTableEntry baseAddress state =
          (statusSuccess, { state with
            ldrpModuleBaseAddressIndex :=
              some (services.rtlRbInsertNodeEx tree parent right dataTableEntry) })) ∧
    (∀ ldrNode ∈ tree.toList, dllBase ldrNode = baseAddress →
      descent = some (.found ldrNode) ∧
        ∃ after, rtlInsertModuleBaseAddressIndexNode services globals dataTableEntry baseAddress
            state = (statusSuccess, after) ∧
          CountedUp globals ldrNode state after) := by
  intro dllBase descent
  have hnodup : tree.toList.Nodup :=
    hordered.imp (fun hlt heq => hlt.ne (congrArg dllBase heq))
  have hdescent : descent = tree.descend dllBase baseAddress :=
    descendIndex_eq baseAddress hlinks hnonempty (Nat.le_refl _)
  constructor
  · intro habsent
    obtain ⟨d, hd⟩ := descend_isSome dllBase baseAddress hnonempty
    cases d with
    | found ldrNode =>
      obtain ⟨hmem, hge, hle⟩ := descend_found hd
      have heq : dllBase ldrNode = baseAddress := by omega
      exact absurd (List.mem_map.mpr ⟨ldrNode, hmem, heq⟩) habsent
    | slot parent right =>
      have hslot := descend_slot hd
      refine ⟨parent, right, hdescent.trans hd, ⟨hasSlot_mem hslot, indexLinks_slot hlinks hslot,
        indexLinks_linkIndexNode hlinks hslot hnodup hnonnull hnew,
        insertAt_sorted linkAt_insertsAtSlot hordered hd hnew,
        insertAt_sorted services.insertsAtSlot hordered hd hnew⟩, ?_⟩
      simp only [rtlInsertModuleBaseAddressIndexNode, hindex]
      rw [hd]
  · intro ldrNode hmem hbase
    have hd : tree.descend dllBase baseAddress = some (.found ldrNode) :=
      hbase ▸ descend_of_mem dllBase hordered hmem
    refine ⟨hdescent.trans hd, countUp globals ldrNode state, ?_,
      countUp_countedUp globals ldrNode state⟩
    simp only [rtlInsertModuleBaseAddressIndexNode, hindex]
    rw [hd]

def twoIndexed : LdrState :=
  { ntdllOnly [] with
    entries := fun e => { LdrDataTableEntry.zero with dllBase := 0x10 * e, ddagNode := e + 8 }
    ldrpModuleBaseAddressIndex := some (.node (.node .nil 0x100 .nil) 0x200 .nil) }

theorem rtlInsertModuleBaseAddressIndexNode_descends_between :
    ∃ parent right,
      descendIndex (fun e => (twoIndexed.entries e).dllBase)
          (fun e => if e = 0x200 then ⟨0x100, 0⟩ else ⟨0, 0⟩) 0x1800 2 0x200 false =
        some (.slot parent right) ∧
      (rtlInsertModuleBaseAddressIndexNode plainServices ⟨systemWin10Rtm, 0x118, 0⟩ 0x300 0x1800
        twoIndexed).1 = statusSuccess := by
  have hlinks : IndexLinks (fun e => if e = 0x200 then ⟨0x100, 0⟩ else ⟨0, 0⟩)
      (.node (.node .nil 0x100 .nil) 0x200 .nil) 0x200 :=
    ⟨rfl, by simp, ⟨rfl, by simp, rfl, rfl⟩, rfl⟩
  have hordered : [0x100, 0x200].Pairwise
      (fun a b => (twoIndexed.entries a).dllBase < (twoIndexed.entries b).dllBase) := by
    simp [twoIndexed]
  obtain ⟨parent, right, hdescent, -, hrun⟩ := (rtlInsertModuleBaseAddressIndexNode_descends
    plainServices ⟨systemWin10Rtm, 0x118, 0⟩ _ _ 0x200 0x300 0x1800 twoIndexed rfl rfl hlinks
    hordered (by simp) (by simp [BinTree.toList])).1 (by simp [BinTree.toList, twoIndexed])
  exact ⟨parent, right, hdescent, by rw [hrun]⟩

end WinPolyfillLoader.LdrEntry
