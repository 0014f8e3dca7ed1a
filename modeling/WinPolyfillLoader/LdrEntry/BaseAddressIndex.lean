import WinPolyfillLoader.LdrEntry.State

/-!
`BaseAddressIndex.cpp`: the search tree of ntdll that maps image bases to
loader entries. An entry with the base of a new image is counted up instead.
-/

namespace WinPolyfillLoader.LdrEntry

open SearchTree

/-- `LdrNode->DdagNode->LoadCount++`, and `ReferenceCount++` from Windows 10 on. -/
def countUp (globals : LdrGlobals) (ldrNode : Nat) (state : LdrState) : LdrState :=
  let node := (state.entries ldrNode).ddagNode
  { state with
    ddagNodes := Function.update state.ddagNodes node
      { state.ddagNodes node with loadCount := (state.ddagNodes node).loadCount + 1 }
    entries :=
      if systemWin10Rtm ≤ globals.windowsVersion then
        Function.update state.entries ldrNode
          { state.entries ldrNode with referenceCount := (state.entries ldrNode).referenceCount + 1 }
      else state.entries }

/-- `RtlInsertModuleBaseAddressIndexNode`. The tree holds ntdll's entry, so the
descent from its root ends. -/
def rtlInsertModuleBaseAddressIndexNode (services : LdrServices) (globals : LdrGlobals)
    (dataTableEntry baseAddress : Nat) (state : LdrState) : NtStatus × LdrState :=
  match state.ldrpModuleBaseAddressIndex with
  | none => (statusUnsuccessful, state)
  | some tree =>
    match tree.descend (fun e => (state.entries e).dllBase) baseAddress with
    | none => (statusAccessViolation, state)
    | some (.found ldrNode) => (statusSuccess, countUp globals ldrNode state)
    | some (.slot parent right) =>
        (statusSuccess, { state with
          ldrpModuleBaseAddressIndex :=
            some (services.rtlRbInsertNodeEx tree parent right dataTableEntry) })

/-- `RtlRemoveModuleBaseAddressIndexNode`. `rtlRbRemoveNode` is ntdll's, which
reads the root of the tree it is given. -/
def rtlRemoveModuleBaseAddressIndexNode (rtlRbRemoveNode : BinTree Nat → Nat → BinTree Nat)
    (dataTableEntry : Nat) (state : LdrState) : NtStatus × LdrState :=
  match state.ldrpModuleBaseAddressIndex with
  | none => (statusAccessViolation, state)
  | some tree =>
      (statusSuccess, { state with
        ldrpModuleBaseAddressIndex := some (rtlRbRemoveNode tree dataTableEntry) })

def indexNodes (state : LdrState) : List Nat :=
  match state.ldrpModuleBaseAddressIndex with
  | none => []
  | some tree => tree.toList

/-- The index, where it is known, holds at least one entry and none twice. -/
structure IndexWellFormed (state : LdrState) : Prop where
  nonempty : ∀ tree, state.ldrpModuleBaseAddressIndex = some tree → tree.isEmpty = false
  nodup : (indexNodes state).Nodup

theorem rtlInsertModuleBaseAddressIndexNode_cases (services : LdrServices) (globals : LdrGlobals)
    {dataTableEntry : Nat} (baseAddress : Nat) {state : LdrState} (hindex : IndexWellFormed state)
    (hnew : dataTableEntry ∉ indexNodes state) :
    (state.ldrpModuleBaseAddressIndex = none ∧
      rtlInsertModuleBaseAddressIndexNode services globals dataTableEntry baseAddress state =
        (statusUnsuccessful, state)) ∨
    (state.ldrpModuleBaseAddressIndex ≠ none ∧
      ∃ ldrNode ∈ indexNodes state, (state.entries ldrNode).dllBase = baseAddress ∧
        rtlInsertModuleBaseAddressIndexNode services globals dataTableEntry baseAddress state =
          (statusSuccess, countUp globals ldrNode state)) ∨
    (state.ldrpModuleBaseAddressIndex ≠ none ∧ ∃ tree : BinTree Nat,
      rtlInsertModuleBaseAddressIndexNode services globals dataTableEntry baseAddress state =
        (statusSuccess, { state with ldrpModuleBaseAddressIndex := some tree }) ∧
      ∀ e, e ∈ tree.toList ↔ e = dataTableEntry ∨ e ∈ indexNodes state) := by
  cases htree : state.ldrpModuleBaseAddressIndex with
  | none => exact Or.inl ⟨rfl, by rw [rtlInsertModuleBaseAddressIndexNode, htree]⟩
  | some tree =>
    have hnodes : indexNodes state = tree.toList := by rw [indexNodes, htree]
    rw [hnodes] at hnew ⊢
    have hnodup : tree.toList.Nodup := hnodes ▸ hindex.nodup
    obtain ⟨d, hdescend⟩ := descend_isSome (fun e => (state.entries e).dllBase) baseAddress
      (hindex.nonempty tree htree)
    apply Or.inr
    cases d with
    | found ldrNode =>
      obtain ⟨hmem, hge, hle⟩ := descend_found hdescend
      refine Or.inl ⟨Option.some_ne_none tree, ldrNode, hmem, by omega, ?_⟩
      simp only [rtlInsertModuleBaseAddressIndexNode, htree, hdescend]
    | slot parent right =>
      refine Or.inr ⟨Option.some_ne_none tree,
        services.rtlRbInsertNodeEx tree parent right dataTableEntry, ?_, ?_⟩
      · simp only [rtlInsertModuleBaseAddressIndexNode, htree, hdescend]
      · exact insertsAtSlot_mem services.insertsAtSlot (descend_slot hdescend) hnew hnodup

end WinPolyfillLoader.LdrEntry
