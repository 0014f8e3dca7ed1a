import Mathlib.Data.Nat.Basic
import WinPolyfillLoader.LdrEntry.MapDllMemory

/-!
Insertion into the index of image bases followed by removal. The removal
deletes the node of the entry it is given, whether the insertion made that node
or counted up the entry that has the base already.
-/

namespace WinPolyfillLoader.LdrEntry

open SearchTree

variable (services : LdrServices) (globals : LdrGlobals)
  (rtlRbRemoveNode : BinTree Nat → Nat → BinTree Nat)

/-- The index is ordered by `DllBase`. -/
def IndexOrdered (state : LdrState) : Prop :=
  (indexNodes state).Pairwise fun a b => (state.entries a).dllBase < (state.entries b).dllBase

/-- What a caller relies on after a successful insertion: the entry is a node
of the index, and its removal gives back the nodes and the counts. -/
def InsertRemoveInverse (dataTableEntry baseAddress : Nat) (state : LdrState) : Prop :=
  let inserted :=
    rtlInsertModuleBaseAddressIndexNode services globals dataTableEntry baseAddress state
  let removed := rtlRemoveModuleBaseAddressIndexNode rtlRbRemoveNode dataTableEntry inserted.2
  ntSuccess inserted.1 = true →
    dataTableEntry ∈ indexNodes inserted.2 ∧ indexNodes removed.2 = indexNodes state ∧
      (∀ node, (removed.2.ddagNodes node).loadCount = (state.ddagNodes node).loadCount) ∧
      ∀ e, (removed.2.entries e).referenceCount = (state.entries e).referenceCount

theorem indexNodes_nodup {state : LdrState} (hordered : IndexOrdered state) :
    (indexNodes state).Nodup := by
  refine List.Pairwise.imp ?_ hordered
  rintro a _ hlt rfl
  exact Nat.lt_irrefl _ hlt

theorem rtlInsertModuleBaseAddressIndexNode_of_mem {state : LdrState} {e : Nat}
    (dataTableEntry : Nat) (hordered : IndexOrdered state) (he : e ∈ indexNodes state) :
    rtlInsertModuleBaseAddressIndexNode services globals dataTableEntry
      (state.entries e).dllBase state = (statusSuccess, countUp globals e state) := by
  cases htree : state.ldrpModuleBaseAddressIndex with
  | none =>
    rw [indexNodes, htree] at he
    cases he
  | some tree =>
    have hnodes : indexNodes state = tree.toList := by rw [indexNodes, htree]
    rw [IndexOrdered, hnodes] at hordered
    rw [hnodes] at he
    have hdescend : tree.descend (fun n => (state.entries n).dllBase) (state.entries e).dllBase =
        some (.found e) :=
      descend_of_mem (fun n => (state.entries n).dllBase) hordered he
    simp only [rtlInsertModuleBaseAddressIndexNode, htree, hdescend]

theorem insertRemoveInverse_of_new {state : LdrState} {dataTableEntry baseAddress : Nat}
    (hdelete : DeletesNode rtlRbRemoveNode) (hnodup : (indexNodes state).Nodup)
    (hnew : dataTableEntry ∉ indexNodes state)
    (hbase : ∀ e ∈ indexNodes state, (state.entries e).dllBase ≠ baseAddress) :
    InsertRemoveInverse services globals rtlRbRemoveNode dataTableEntry baseAddress state := by
  unfold InsertRemoveInverse
  intro inserted removed hsuccess
  cases htree : state.ldrpModuleBaseAddressIndex with
  | none =>
    have hfailed : inserted = (statusUnsuccessful, state) := by
      simp only [inserted, rtlInsertModuleBaseAddressIndexNode, htree]
    rw [hfailed] at hsuccess
    cases hsuccess
  | some tree =>
    have hnodes : indexNodes state = tree.toList := by rw [indexNodes, htree]
    rw [hnodes] at hnodup hnew hbase ⊢
    cases hdescend : tree.descend (fun e => (state.entries e).dllBase) baseAddress with
    | none =>
      have hfailed : inserted = (statusAccessViolation, state) := by
        simp only [inserted, rtlInsertModuleBaseAddressIndexNode, htree, hdescend]
      rw [hfailed] at hsuccess
      cases hsuccess
    | some d =>
      cases d with
      | found ldrNode =>
        obtain ⟨hmem, hge, hle⟩ := descend_found hdescend
        have heq : (state.entries ldrNode).dllBase = baseAddress := by omega
        exact absurd heq (hbase ldrNode hmem)
      | slot parent right =>
        have hslot := descend_slot hdescend
        have hlinked : inserted = (statusSuccess, { state with
            ldrpModuleBaseAddressIndex :=
              some (services.rtlRbInsertNodeEx tree parent right dataTableEntry) }) := by
          simp only [inserted, rtlInsertModuleBaseAddressIndexNode, htree, hdescend]
        have hmember := (insertsAtSlot_mem services.insertsAtSlot hslot hnew hnodup
          dataTableEntry).mpr (Or.inl rfl)
        have hback := insertAt_delete services.insertsAtSlot hdelete hslot hnew hnodup
        simp only [removed, hlinked]
        exact ⟨hmember, hback, fun _ => rfl, fun _ => rfl⟩

/-- Insertion and removal are inverse exactly when no indexed entry has the
base already. -/
theorem insertRemoveInverse_iff (hdelete : DeletesNode rtlRbRemoveNode)
    (dataTableEntry baseAddress : Nat) (state : LdrState) (hordered : IndexOrdered state)
    (hnew : dataTableEntry ∉ indexNodes state) :
    InsertRemoveInverse services globals rtlRbRemoveNode dataTableEntry baseAddress state ↔
      ∀ e ∈ indexNodes state, (state.entries e).dllBase ≠ baseAddress := by
  constructor
  · rintro h e he rfl
    have hcounted := rtlInsertModuleBaseAddressIndexNode_of_mem services globals dataTableEntry
      hordered he
    have hmember := (h (by rw [hcounted]; rfl)).1
    rw [hcounted] at hmember
    exact hnew hmember
  · exact insertRemoveInverse_of_new services globals rtlRbRemoveNode hdelete
      (indexNodes_nodup hordered) hnew

theorem insertRemoveInverse_new_base :
    InsertRemoveInverse plainServices ⟨systemWin10Rtm, 0x118, 0⟩ (fun tree x => tree.unlink x)
      0x300 0x5000 (ntdllOnly []) := by
  refine (insertRemoveInverse_iff plainServices ⟨systemWin10Rtm, 0x118, 0⟩ _ unlink_deletesNode
    0x300 0x5000 (ntdllOnly []) ?_ ?_).mpr ?_
  · exact List.pairwise_singleton _ _
  · simp [indexNodes, ntdllOnly, BinTree.toList]
  · simp [indexNodes, ntdllOnly, BinTree.toList]

/-- A second image under ntdll's base: the insertion succeeds without a node
for it, so its removal is one of a node that is not in the tree. -/
theorem insertRemoveInverse_fails :
    ¬ InsertRemoveInverse plainServices ⟨systemWin10Rtm, 0x118, 0⟩ (fun tree x => tree.unlink x)
      0x300 0x7ff0 (ntdllOnly []) := by
  intro h
  have hmember := (h rfl).1
  revert hmember
  decide

end WinPolyfillLoader.LdrEntry
