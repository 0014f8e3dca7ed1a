import WinPolyfillLoader.LdrEntry.EntryStores
import WinPolyfillLoader.LdrEntry.PatternSearch

/-!
`FindLdrpModuleBaseAddressIndex` looks for the descriptor of the index in the `.data`
section of ntdll: it goes up from ntdll's entry to the root of the tree, and searches for
the address of the root, which must occur once.
-/

namespace WinPolyfillLoader.LdrEntry

open ByteMemory MemoryModule Positions SearchTree

/-- A word of the process; `none` for an access violation, which nothing handles. -/
def ModuleView.word (v : ModuleView) (a : Nat) : Option Nat :=
  ByteMemory.load v.mapped v.bytes a v.host.pointerSize

/-- `RTL_BALANCED_NODE`: `ParentValue` is behind the two children. -/
def ModuleView.parentValue (v : ModuleView) (node : Nat) : Option Nat :=
  v.word (node + 2 * v.host.pointerSize)

/-- `ParentValue & (~7)`. -/
def untagged (parentValue : Nat) : Nat := parentValue / 8 * 8

def climb (v : ModuleView) : Nat → Nat → Option Nat
  | 0, _ => none
  | fuel + 1, node =>
    match v.parentValue node with
    | none => none
    | some parentValue =>
      if untagged parentValue ≠ 0 then climb v fuel (untagged parentValue) else some node

/-- `Red`, bit 0 of the byte at `ParentValue`. -/
def ModuleView.red (v : ModuleView) (node : Nat) : Option Bool :=
  (ByteMemory.load v.mapped v.bytes (node + 2 * v.host.pointerSize) 1).map fun byte => byte % 2 = 1

/-- The memory when the local variable `node` has its last value. -/
def ModuleView.withNode (v : ModuleView) (nodeVariable node : Nat) : ModuleView :=
  { v with bytes := writeLE v.bytes nodeVariable v.host.pointerSize node }

/-- The loop over the search. The inner `none` is the return on a second hit, otherwise it
gives `count` and `tmp`. -/
def countHits (v : ModuleView) (dllBase sectionName fuel : Nat) :
    Nat → BitVec 8 → Nat → SearchContext → Option (Option (BitVec 8 × Nat))
  | 0, _, _, _ => none
  | calls + 1, count, tmp, x =>
    match rtlFindMemoryBlockFromModuleSection v dllBase sectionName fuel x with
    | none => none
    | some (status, x) =>
      if ntSuccess status then
        if count ≠ 0 then some none
        else countHits v dllBase sectionName fuel calls (count + 1) x.result x
      else some (some (count, tmp))

/-- `tmp->Root && tmp->Min`. -/
def ModuleView.isTree (v : ModuleView) (tmp : Nat) : Option Bool :=
  match v.word tmp with
  | none => none
  | some root =>
    if root = 0 then some false
    else (v.word (tmp + v.host.pointerSize)).map fun min => min ≠ 0

/-- `FindLdrpModuleBaseAddressIndex`: what it sets `LdrpModuleBaseAddressIndex` to, if it
does. The local variable `node` and the name of the section have the given addresses. -/
def findLdrpModuleBaseAddressIndex (v : ModuleView) (windowsVersion : Dword)
    (nodeVariable sectionName fuel nt10 : Nat) : Option (Option Nat) :=
  if nt10 = 0 ∨ windowsVersion < systemNt62Rtm then some none
  else
    match climb v fuel
      (v.host.offset nt10 (EntryType.win10.range v.host .baseAddressIndexNode).1) with
    | none => none
    | some node =>
      match v.red node with
      | none => none
      | some true => some none
      | some false =>
        match v.word (v.host.offset nt10 (EntryType.win10.range v.host .dllBase).1) with
        | none => none
        | some dllBase =>
          let v := v.withNode nodeVariable node
          match countHits v dllBase sectionName fuel fuel 0 0
            ⟨nodeVariable, v.host.pointerSize, 0, 0⟩ with
          | none => none
          | some none => some none
          | some (some (count, tmp)) =>
            if count ≠ 0 ∧ tmp ≠ 0 then
              (v.isTree tmp).map fun found => if found then some tmp else none
            else some none

/-- The nodes of a tree lead to their parents; that of the root is given. -/
def TreeAt (v : ModuleView) : Nat → BinTree Nat → Prop
  | _, .nil => True
  | parent, .node l x r =>
    x ≠ 0 ∧ (∃ parentValue, v.parentValue x = some parentValue ∧ untagged parentValue = parent) ∧
      TreeAt v x l ∧ TreeAt v x r

/-- ntdll's entry is in a tree with a black root. -/
structure NtdllInTree (v : ModuleView) (nt10 : Nat) (l : BinTree Nat) (root : Nat)
    (r : BinTree Nat) : Prop where
  links : TreeAt v 0 (.node l root r)
  nodup : (BinTree.node l root r).toList.Nodup
  black : v.red root = some false
  contains : v.host.offset nt10 (EntryType.win10.range v.host .baseAddressIndexNode).1 ∈
    (BinTree.node l root r).toList

section Climb

variable {v : ModuleView} {parent x fuel : Nat} {t l r : BinTree Nat}

/-- From a node of a subtree the loop comes to the parent of the subtree. -/
theorem climb_tree (h : TreeAt v parent t) (hparent : parent ≠ 0) (hx : x ∈ t.toList) :
    ∃ d ≤ t.toList.length, ∀ fuel, climb v (fuel + d) x = climb v fuel parent := by
  induction t generalizing parent with
  | nil => cases hx
  | node l y r ihl ihr =>
    obtain ⟨hy, ⟨parentValue, hvalue, huntagged⟩, hl, hr⟩ := h
    have hstep : ∀ fuel, climb v (fuel + 1) y = climb v fuel parent := by
      intro fuel
      rw [climb, hvalue]
      dsimp only
      rw [huntagged, if_pos hparent]
    simp only [BinTree.toList, List.mem_append, List.mem_cons] at hx
    simp only [BinTree.toList, List.length_append, List.length_cons]
    rcases hx with hx | rfl | hx
    · obtain ⟨d, hd, hclimb⟩ := ihl hl hy hx
      refine ⟨d + 1, by omega, fun fuel => ?_⟩
      rw [Nat.add_comm d 1, ← Nat.add_assoc, hclimb, hstep]
    · exact ⟨1, by omega, hstep⟩
    · obtain ⟨d, hd, hclimb⟩ := ihr hr hy hx
      refine ⟨d + 1, by omega, fun fuel => ?_⟩
      rw [Nat.add_comm d 1, ← Nat.add_assoc, hclimb, hstep]

theorem climb_root {root : Nat} (h : TreeAt v 0 (.node l root r))
    (hx : x ∈ (BinTree.node l root r).toList)
    (hfuel : (BinTree.node l root r).toList.length < fuel) : climb v fuel x = some root := by
  obtain ⟨hroot, ⟨parentValue, hvalue, huntagged⟩, hl, hr⟩ := h
  have hlast : ∀ fuel, climb v (fuel + 1) root = some root := by
    intro fuel
    rw [climb, hvalue]
    dsimp only
    rw [huntagged, if_neg (not_not_intro rfl)]
  simp only [BinTree.toList, List.length_append, List.length_cons] at hfuel
  have hbelow : ∀ t, TreeAt v root t → x ∈ t.toList → t.toList.length + 1 < fuel →
      climb v fuel x = some root := by
    intro t ht hx hfuel
    obtain ⟨d, hd, hclimb⟩ := climb_tree ht hroot hx
    obtain ⟨n, rfl⟩ : ∃ n, fuel = n + 1 + d := ⟨fuel - d - 1, by omega⟩
    rw [hclimb, hlast]
  simp only [BinTree.toList, List.mem_append, List.mem_cons] at hx
  rcases hx with hx | rfl | hx
  · exact hbelow l hl hx (by omega)
  · obtain ⟨n, rfl⟩ := Nat.exists_eq_succ_of_ne_zero (Nat.ne_of_gt (Nat.zero_lt_of_lt hfuel))
    exact hlast n
  · exact hbelow r hr hx (by omega)

end Climb

section Sound

variable {v : ModuleView} {dllBase sectionName fuel last : Nat} {x y : SearchContext}
  {status : NtStatus}

/-- The search looks for the same pattern. -/
def SamePattern (x y : SearchContext) : Prop :=
  y.searchPattern = x.searchPattern ∧ y.patternSize = x.patternSize

theorem linearSearch_occurs (h : linearSearch v last fuel x = some (status, y))
    (hstatus : ntSuccess status = true) : SamePattern x y ∧ Occurs v x y.result := by
  induction fuel generalizing x with
  | zero => cases h
  | succ fuel ih =>
    rw [linearSearch] at h
    split at h
    · split at h
      · cases h
        cases hstatus
      · rename_i same hcompare
        split at h
        · rename_i hsame
          cases h
          refine ⟨⟨rfl, rfl⟩, rtlCompareMemory_eq_iff.mp ?_⟩
          unfold comparePattern at hcompare
          split at hcompare
          · rw [Option.some.inj hcompare, hsame]
          · cases hcompare
        · have hnext := ih h
          exact hnext
    · cases h
      cases hstatus

theorem ModuleView.load_error {pointer : Nat} {field : Field}
    (h : v.load pointer field = .error status) : ntSuccess status = false := by
  unfold ModuleView.load at h
  split at h
  · cases h
    rfl
  · cases h

theorem findSection_error {remaining sectionHeader : Nat}
    (h : findSection v sectionName remaining sectionHeader = .error status) :
    ntSuccess status = false := by
  induction remaining generalizing sectionHeader with
  | zero => cases h
  | succ remaining ih =>
    rw [findSection] at h
    split at h
    · split at h
      · cases h
      · exact ih h
    · cases h
      rfl

theorem selectSection_error {ntHeaders : Nat}
    (h : selectSection v sectionName ntHeaders = .error status) : ntSuccess status = false := by
  unfold selectSection at h
  cases hsize : v.load ntHeaders sizeOfOptionalHeader with
  | error code =>
    rw [hsize] at h
    cases h
    exact ModuleView.load_error hsize
  | ok size =>
    cases hcount : v.load ntHeaders numberOfSections with
    | error code =>
      rw [hsize, hcount] at h
      cases h
      exact ModuleView.load_error hcount
    | ok count =>
      rw [hsize, hcount] at h
      exact findSection_error h

/-- A call either fails before it compares anything, or looks for the same pattern. -/
def Starts (x : SearchContext) : Except (NtStatus × SearchContext) SearchContext → Prop
  | .error (status, _) => ntSuccess status = false
  | .ok y => SamePattern x y

theorem searchSection_starts (sectionHeader : Nat) :
    Starts x (searchSection v dllBase sectionHeader x) := by
  unfold searchSection
  cases haddress : v.load sectionHeader virtualAddress with
  | error code => exact ModuleView.load_error haddress
  | ok address =>
    cases hsize : v.load sectionHeader virtualSize with
    | error code => exact ModuleView.load_error hsize
    | ok size =>
      dsimp only
      split
      · rfl
      · exact ⟨rfl, rfl⟩

theorem startSearch_starts : Starts x (startSearch v dllBase sectionName x) := by
  unfold startSearch firstSearch
  split
  · rfl
  · split
    · exact ⟨rfl, rfl⟩
    · cases v.imageNtHeader dllBase with
      | none => rfl
      | some ntHeaders =>
        dsimp only
        cases hselect : selectSection v sectionName ntHeaders with
        | error code => exact selectSection_error hselect
        | ok found =>
          cases found with
          | none => rfl
          | some sectionHeader => exact searchSection_starts sectionHeader

theorem rtlFindMemoryBlockFromModuleSection_occurs
    (h : rtlFindMemoryBlockFromModuleSection v dllBase sectionName fuel x = some (status, y))
    (hstatus : ntSuccess status = true) : SamePattern x y ∧ Occurs v x y.result := by
  have hstarts : Starts x (startSearch v dllBase sectionName x) := startSearch_starts
  unfold rtlFindMemoryBlockFromModuleSection at h
  cases hstart : startSearch v dllBase sectionName x with
  | error result =>
    rw [hstart] at h hstarts
    cases h
    have hfails : ntSuccess status = false := hstarts
    rw [hfails] at hstatus
    cases hstatus
  | ok z =>
    rw [hstart] at h hstarts
    obtain ⟨⟨hpattern, hsize⟩, hoccurs⟩ := linearSearch_occurs h hstatus
    have hstarts : SamePattern x z := hstarts
    unfold Occurs at hoccurs ⊢
    rw [hstarts.1, hstarts.2] at hoccurs
    exact ⟨⟨hpattern.trans hstarts.1, hsize.trans hstarts.2⟩, hoccurs⟩

theorem countHits_occurs {calls : Nat} {count : BitVec 8} {tmp : Nat}
    (h : countHits v dllBase sectionName fuel calls 0 0 x = some (some (count, tmp)))
    (hcount : count ≠ 0) : Occurs v x tmp := by
  cases calls with
  | zero => cases h
  | succ calls =>
    rw [countHits] at h
    cases hfirst : rtlFindMemoryBlockFromModuleSection v dllBase sectionName fuel x with
    | none =>
      rw [hfirst] at h
      cases h
    | some answer =>
      obtain ⟨status, y⟩ := answer
      rw [hfirst] at h
      dsimp only at h
      cases hstatus : ntSuccess status with
      | false =>
        rw [hstatus] at h
        cases h
        exact absurd rfl hcount
      | true =>
        obtain ⟨-, hoccurs⟩ := rtlFindMemoryBlockFromModuleSection_occurs hfirst hstatus
        rw [if_pos hstatus, if_neg (not_not_intro rfl)] at h
        cases calls with
        | zero => cases h
        | succ calls =>
          rw [countHits] at h
          split at h
          · cases h
          · split at h
            · cases h
            · cases h
              exact hoccurs

end Sound

section Complete

variable {v : ModuleView} {dllBase sectionName fuel start size a : Nat} {x : SearchContext}

theorem nextCall_run (h : SectionFound v dllBase sectionName x start size)
    (hfuel : size + 1 < fuel) {rest : List Nat} (hle : start ≤ a)
    (hfits : a + x.patternSize ≤ start + size)
    (hrest : occurrences v x (a + 1) (start + size) = rest) :
    rtlFindMemoryBlockFromModuleSection v dllBase sectionName fuel (x.found (start + size) a) =
      some (x.outcome (start + size) rest) := by
  have hpattern := h.patternSize
  have hstart := startSearch_resumed h hle (by omega)
  rw [call_run h hstart (by omega) (by omega) hfuel, hrest]

/-- The loop returns early unless the pattern occurs at most once. -/
theorem countHits_run (h : SectionFound v dllBase sectionName x start size)
    (hfirst : x.result = 0) (hfuel : size + 1 < fuel) (calls : Nat) :
    countHits v dllBase sectionName fuel (calls + 2) 0 0 x =
      some (match occurrences v x start (start + size) with
        | [] => some (0, 0)
        | [a] => some (1, a)
        | _ :: _ :: _ => none) := by
  have hcall := firstCall_run h hfirst hfuel
  rw [countHits, hcall]
  cases hhits : occurrences v x start (start + size) with
  | nil => rfl
  | cons a rest =>
    obtain ⟨hle, hfits, -⟩ :=
      (mem_occurrences h).mp (hhits ▸ List.mem_cons_self : a ∈ occurrences v x start _)
    have hnext := nextCall_run h hfuel hle hfits (positions_tail hhits)
    have hsuccess : ntSuccess statusSuccess = true := rfl
    have hnotFound : ntSuccess statusNotFound = false := rfl
    simp only [SearchContext.outcome, hsuccess, if_true]
    rw [if_neg (not_not_intro rfl), countHits, hnext]
    cases rest with
    | nil => rfl
    | cons b rest => rfl

end Complete

/-- The word at an address. -/
def ModuleView.value (v : ModuleView) (a : Nat) : Nat := readLE v.bytes a v.host.pointerSize

/-- The context of the first search for the address in the variable `node`. -/
def nodeSearch (v : ModuleView) (nodeVariable : Nat) : SearchContext :=
  ⟨nodeVariable, v.host.pointerSize, 0, 0⟩

/-- The `.data` section of ntdll has the descriptor of the tree in it, and the address of
the root nowhere else. -/
structure DescriptorInData (v : ModuleView) (tree : BinTree Nat) (root dllBase nodeVariable
    sectionName descriptor start size : Nat) : Prop where
  found : SectionFound v dllBase sectionName (nodeSearch v nodeVariable) start size
  first : start ≤ descriptor
  last : descriptor + 2 * v.host.pointerSize ≤ start + size
  rootWord : v.value descriptor = root
  minWord : tree.toList.head? = some (v.value (descriptor + v.host.pointerSize))
  nowhereElse : ∀ a, start ≤ a → a + v.host.pointerSize ≤ start + size → v.value a = root →
    descriptor ≤ a ∧ a + v.host.pointerSize ≤ descriptor + 2 * v.host.pointerSize

section Descriptor

variable {v : ModuleView} {l r : BinTree Nat} {root dllBase nodeVariable sectionName : Nat}
  {descriptor start size parent : Nat} {tree : BinTree Nat}

theorem treeAt_ne_zero (h : TreeAt v parent tree) : ∀ x ∈ tree.toList, x ≠ 0 := by
  induction tree generalizing parent with
  | nil => exact fun x hx => nomatch hx
  | node l y r ihl ihr =>
    obtain ⟨hy, -, hl, hr⟩ := h
    intro x hx
    rcases List.mem_append.mp hx with hx | hx
    · exact ihl hl x hx
    · rcases List.mem_cons.mp hx with rfl | hx
      · exact hy
      · exact ihr hr x hx

theorem pointerSize_pos (host : Host) : 0 < host.pointerSize := by
  cases host <;> decide

theorem value_withNode (hroot : root < v.host.addresses) :
    (v.withNode nodeVariable root).value nodeVariable = root := by
  change readLE (writeLE v.bytes nodeVariable v.host.pointerSize root) nodeVariable
    v.host.pointerSize = root
  rw [readLE_writeLE]
  exact Nat.mod_eq_of_lt hroot

theorem occurs_iff (hvariable : v.value nodeVariable = root) (a : Nat) :
    Occurs v (nodeSearch v nodeVariable) a ↔ v.value a = root := by
  rw [← hvariable]
  unfold Occurs nodeSearch ModuleView.value
  rw [← readLE_eq_iff]
  exact eq_comm

theorem head_eq_root_iff (hnodup : (BinTree.node l root r).toList.Nodup) :
    (BinTree.node l root r).toList.head? = some root ↔ l.isEmpty = true := by
  cases l with
  | nil => exact iff_of_true rfl rfl
  | node ll y lr =>
    apply iff_of_false ?_ Bool.false_ne_true
    intro hhead
    rw [BinTree.toList] at hnodup hhead
    obtain ⟨first, rest, hl⟩ := List.exists_cons_of_ne_nil
      (fun hnil => by simp [BinTree.toList] at hnil : (BinTree.node ll y lr).toList ≠ [])
    rw [hl] at hnodup hhead
    have hfirst : first = root := Option.some_inj.mp hhead
    exact (List.nodup_cons.mp hnodup).1 (by simp [hfirst])

theorem descriptor_mem (hvariable : v.value nodeVariable = root)
    (h : DescriptorInData v tree root dllBase nodeVariable sectionName descriptor start size) :
    descriptor ∈ occurrences v (nodeSearch v nodeVariable) start (start + size) := by
  have hlast := h.last
  refine (mem_occurrences h.found).mpr
    ⟨h.first, ?_, (occurs_iff hvariable descriptor).mpr h.rootWord⟩
  change descriptor + v.host.pointerSize ≤ start + size
  omega

/-- The descriptor is the one hit if the root has a left child and its address does not
lie across the two words of the descriptor. -/
theorem occurrences_eq_descriptor_iff (hvariable : v.value nodeVariable = root)
    (hnodup : (BinTree.node l root r).toList.Nodup)
    (h : DescriptorInData v (.node l root r) root dllBase nodeVariable sectionName descriptor start
      size) :
    occurrences v (nodeSearch v nodeVariable) start (start + size) = [descriptor] ↔
      l.isEmpty = false ∧
        ∀ k, 0 < k → k < v.host.pointerSize → v.value (descriptor + k) ≠ root := by
  have hpointer := pointerSize_pos v.host
  have hfirst := h.first
  have hlast := h.last
  have hmem : ∀ a, a ∈ occurrences v (nodeSearch v nodeVariable) start (start + size) ↔
      start ≤ a ∧ a + v.host.pointerSize ≤ start + size ∧ v.value a = root := by
    intro a
    rw [mem_occurrences h.found, occurs_iff hvariable]
    rfl
  have hleft : l.isEmpty = false ↔ v.value (descriptor + v.host.pointerSize) ≠ root := by
    rw [← Bool.not_eq_true, ← head_eq_root_iff hnodup, h.minWord, ne_eq, Option.some_inj]
  rw [hleft]
  constructor
  · intro hhits
    have honly : ∀ k, 0 < k → k ≤ v.host.pointerSize → v.value (descriptor + k) ≠ root := by
      intro k hk hle hvalue
      have hk' := (hmem (descriptor + k)).mpr ⟨by omega, by omega, hvalue⟩
      rw [hhits, List.mem_singleton] at hk'
      omega
    exact ⟨honly _ hpointer (Nat.le_refl _), fun k hk hlt => honly k hk (Nat.le_of_lt hlt)⟩
  · rintro ⟨hmin, hacross⟩
    have hall : ∀ a ∈ occurrences v (nodeSearch v nodeVariable) start (start + size),
        a = descriptor := by
      intro a ha
      obtain ⟨hle, hfits, hvalue⟩ := (hmem a).mp ha
      obtain ⟨hlow, hhigh⟩ := h.nowhereElse a hle hfits hvalue
      obtain ⟨k, rfl⟩ := Nat.exists_eq_add_of_le hlow
      rcases Nat.eq_zero_or_pos k with rfl | hk
      · rfl
      · rcases Nat.lt_or_eq_of_le (by omega : k ≤ v.host.pointerSize) with hlt | rfl
        · exact absurd hvalue (hacross k hk hlt)
        · exact absurd hvalue hmin
    have hhere := descriptor_mem hvariable h
    have hincreasing : (occurrences v (nodeSearch v nodeVariable) start (start + size)).Pairwise
        (· < ·) := positions_increasing
    generalize occurrences v (nodeSearch v nodeVariable) start (start + size) = hits at *
    cases hits with
    | nil => cases hhere
    | cons a rest =>
      rw [hall a List.mem_cons_self]
      cases rest with
      | nil => rfl
      | cons b rest =>
        have hlt := (List.pairwise_cons.mp hincreasing).1 b List.mem_cons_self
        rw [hall a List.mem_cons_self, hall b (by simp)] at hlt
        exact absurd hlt (Nat.lt_irrefl _)

end Descriptor

section Locates

variable {v : ModuleView} {windowsVersion : Dword} {nodeVariable sectionName nt10 : Nat}
  {l r : BinTree Nat} {root : Nat}

theorem climb_mono {fuel x y : Nat} (h : climb v fuel x = some y) (k : Nat) :
    climb v (fuel + k) x = some y := by
  induction fuel generalizing x with
  | zero => cases h
  | succ fuel ih =>
    rw [Nat.add_right_comm, climb]
    rw [climb] at h
    cases hparent : v.parentValue x with
    | none =>
      rw [hparent] at h
      cases h
    | some parentValue =>
      rw [hparent] at h
      dsimp only at h ⊢
      split at h
      · next hup => rw [if_pos hup, ih h]
      · next htop => rw [if_neg htop, h]

theorem climb_eq_root (h : NtdllInTree v nt10 l root r) {fuel node : Nat}
    (hclimb : climb v fuel
      (v.host.offset nt10 (EntryType.win10.range v.host .baseAddressIndexNode).1) = some node) :
    node = root := by
  have hroot := climb_root h.links h.contains
    (Nat.lt_add_of_pos_left (n := (BinTree.node l root r).toList.length) (Nat.succ_pos fuel))
  have hmore := climb_mono hclimb (1 + (BinTree.node l root r).toList.length)
  rw [← Nat.add_assoc] at hmore
  exact Option.some_inj.mp (hmore.symm.trans hroot)

theorem untagged_le (parentValue : Nat) : untagged parentValue ≤ parentValue :=
  Nat.div_mul_le_self parentValue 8

theorem climb_lt {fuel x y : Nat} (hx : x < v.host.addresses) (h : climb v fuel x = some y) :
    y < v.host.addresses := by
  induction fuel generalizing x with
  | zero => cases h
  | succ fuel ih =>
    rw [climb] at h
    split at h
    · cases h
    · next parentValue hparent =>
      split at h
      · apply ih _ h
        unfold ModuleView.parentValue ModuleView.word ByteMemory.load at hparent
        split at hparent
        · cases hparent
          exact Nat.lt_of_le_of_lt (untagged_le _) (readLE_lt _ _ _)
        · cases hparent
      · cases h
        exact hx

theorem root_lt (h : NtdllInTree v nt10 l root r) : root < v.host.addresses := by
  have hnode : v.host.offset nt10 (EntryType.win10.range v.host .baseAddressIndexNode).1 <
      v.host.addresses := Nat.mod_lt _ (Nat.pow_pos (by decide))
  exact climb_lt hnode (climb_root h.links h.contains (Nat.lt_succ_self _))

theorem isTree_descriptor {tree : BinTree Nat} {dllBase descriptor start size : Nat}
    (hnodes : ∀ x ∈ tree.toList, x ≠ 0) (hroot : root ≠ 0)
    (h : DescriptorInData v tree root dllBase nodeVariable sectionName descriptor start size) :
    v.isTree descriptor = some true := by
  have hpointer := pointerSize_pos v.host
  have hfirst := h.first
  have hlast := h.last
  have hrootWord : v.word descriptor = some root := by
    rw [ModuleView.word, ByteMemory.load,
      if_pos (accessible_inside h.found.readable hfirst (by omega))]
    exact congrArg some h.rootWord
  have hminWord : v.word (descriptor + v.host.pointerSize) =
      some (v.value (descriptor + v.host.pointerSize)) := by
    rw [ModuleView.word, ByteMemory.load,
      if_pos (accessible_inside h.found.readable (by omega) (by omega))]
    rfl
  have hmin := hnodes _ (List.mem_of_head? h.minWord)
  rw [ModuleView.isTree, hrootWord]
  dsimp only
  rw [if_neg hroot, hminWord, Option.map_some, decide_eq_true hmin]

/-- What `LdrpModuleBaseAddressIndex` is set to is where the root is in the local variable's
memory. -/
theorem findLdrpModuleBaseAddressIndex_value (h : NtdllInTree v nt10 l root r) {fuel tmp : Nat}
    (hfind : findLdrpModuleBaseAddressIndex v windowsVersion nodeVariable sectionName fuel nt10 =
      some (some tmp)) :
    (v.withNode nodeVariable root).value tmp = root := by
  unfold findLdrpModuleBaseAddressIndex at hfind
  split at hfind
  · cases hfind
  · split at hfind
    · cases hfind
    · next node hclimb =>
      obtain rfl := climb_eq_root h hclimb
      rw [h.black] at hfind
      split at hfind
      · cases hfind
      · cases hfind
      · split at hfind
        · cases hfind
        · dsimp only at hfind
          split at hfind
          · cases hfind
          · cases hfind
          · next count last hhits =>
            split at hfind
            · next hcount =>
              have hoccurs := countHits_occurs hhits hcount.1
              obtain ⟨found, -, hfound⟩ := Option.map_eq_some_iff.mp hfind
              split at hfound
              · obtain rfl := Option.some_inj.mp hfound
                exact (occurs_iff (value_withNode (root_lt h)) last).mp hoccurs
              · cases hfound
            · cases hfind

/-- Past the gate and the loop the function is the count of the hits and what it makes of
them. -/
theorem findLdrpModuleBaseAddressIndex_eq (h : NtdllInTree v nt10 l root r) {dllBase fuel : Nat}
    (hnt10 : nt10 ≠ 0) (hversion : systemNt62Rtm ≤ windowsVersion)
    (hdllBase : v.word (v.host.offset nt10 (EntryType.win10.range v.host .dllBase).1) =
      some dllBase)
    (hfuel : (BinTree.node l root r).toList.length < fuel) :
    findLdrpModuleBaseAddressIndex v windowsVersion nodeVariable sectionName fuel nt10 =
      match countHits (v.withNode nodeVariable root) dllBase sectionName fuel fuel 0 0
        (nodeSearch (v.withNode nodeVariable root) nodeVariable) with
      | none => none
      | some none => some none
      | some (some (count, tmp)) =>
        if count ≠ 0 ∧ tmp ≠ 0 then
          ((v.withNode nodeVariable root).isTree tmp).map fun found =>
            if found then some tmp else none
        else some none := by
  have hgate : ¬(nt10 = 0 ∨ windowsVersion < systemNt62Rtm) := by
    rintro (hnull | hearlier)
    · exact hnt10 hnull
    · rw [BitVec.lt_def] at hearlier
      rw [BitVec.le_def] at hversion
      omega
  rw [findLdrpModuleBaseAddressIndex, if_neg hgate, climb_root h.links h.contains hfuel]
  dsimp only
  rw [h.black, hdllBase]
  rfl

/-- The pointer is set to a word with the address of the root, whatever the section holds.
It is set to the descriptor if and only if the root has a left child and its address does
not lie across the two words of the descriptor. -/
theorem findLdrpModuleBaseAddressIndex_locates_iff (v : ModuleView) (windowsVersion : Dword)
    (nodeVariable sectionName nt10 : Nat) {l : BinTree Nat} {root : Nat} {r : BinTree Nat}
    (htree : NtdllInTree v nt10 l root r) :
    (∀ fuel tmp, findLdrpModuleBaseAddressIndex v windowsVersion nodeVariable sectionName fuel nt10 =
        some (some tmp) → (v.withNode nodeVariable root).value tmp = root) ∧
    ∀ dllBase descriptor start size fuel, nt10 ≠ 0 → systemNt62Rtm ≤ windowsVersion →
      v.word (v.host.offset nt10 (EntryType.win10.range v.host .dllBase).1) = some dllBase →
      DescriptorInData (v.withNode nodeVariable root) (.node l root r) root dllBase nodeVariable
        sectionName descriptor start size →
      (BinTree.node l root r).toList.length < fuel → size + 1 < fuel →
      ∃ result, findLdrpModuleBaseAddressIndex v windowsVersion nodeVariable sectionName fuel nt10 =
          some result ∧
        (result = some descriptor ↔ l.isEmpty = false ∧ ∀ k, 0 < k → k < v.host.pointerSize →
          (v.withNode nodeVariable root).value (descriptor + k) ≠ root) := by
  refine ⟨fun fuel tmp hfind => findLdrpModuleBaseAddressIndex_value htree hfind, ?_⟩
  intro dllBase descriptor start size fuel hnt10 hversion hdllBase hdata htreeFuel hfuel
  have hvariable : (v.withNode nodeVariable root).value nodeVariable = root :=
    value_withNode (root_lt htree)
  obtain ⟨calls, rfl⟩ : ∃ calls, fuel = calls + 2 := ⟨fuel - 2, by omega⟩
  have hhits := countHits_run hdata.found rfl hfuel calls
  have htreeFound := isTree_descriptor (treeAt_ne_zero htree.links) htree.links.1 hdata
  have hiff := occurrences_eq_descriptor_iff hvariable htree.nodup hdata
  have hhere := descriptor_mem hvariable hdata
  have hpositive : descriptor ≠ 0 := by
    have hnotNull := hdata.found.notNull
    have hfirst := hdata.first
    omega
  have hhost : (v.withNode nodeVariable root).host = v.host := rfl
  rw [hhost] at hiff
  rw [findLdrpModuleBaseAddressIndex_eq htree hnt10 hversion hdllBase htreeFuel, hhits, ← hiff]
  cases hlist : occurrences (v.withNode nodeVariable root)
    (nodeSearch (v.withNode nodeVariable root) nodeVariable) start (start + size) with
  | nil =>
    rw [hlist] at hhere
    cases hhere
  | cons a rest =>
    rw [hlist] at hhere
    cases rest with
    | nil =>
      -- One hit: it is the descriptor, whose two words are not null.
      obtain rfl := List.mem_singleton.mp hhere
      dsimp only
      rw [if_pos ⟨by decide, hpositive⟩, htreeFound]
      exact ⟨_, rfl, iff_of_true rfl rfl⟩
    | cons b rest => exact ⟨none, rfl, iff_of_false nofun nofun⟩

end Locates

/-- ntdll at 0x400 with a `.data` section of 32 bytes at 0x1400 that has the descriptor at
0x1408, and ntdll's entry at 0x4000. -/
def ntdllView (root min : Nat) (parentValues : List (Nat × Nat)) : ModuleView where
  host := .amd64
  mapped := fun _ => true
  bytes := writeAll (fun _ => 0) ([⟨0x1006, 2, 1⟩, ⟨0x1018, 8, 0x617461642E⟩, ⟨0x1020, 4, 0x20⟩,
    ⟨0x1024, 4, 0x1000⟩, ⟨0x2000, 8, 0x617461642E⟩, ⟨0x4030, 8, 0x400⟩, ⟨0x1408, 8, root⟩,
    ⟨0x1410, 8, min⟩] ++ parentValues.map fun p => ⟨p.1 + 16, 8, p.2⟩)
  imageNtHeader := fun _ => some 0x1000
  upperChar := id

theorem ntdllView_readable (root min : Nat) (parentValues : List (Nat × Nat)) (node a n : Nat) :
    accessible ((ntdllView root min parentValues).withNode 0x5000 node).mapped a n = true :=
  List.all_eq_true.mpr fun _ _ => rfl

/-- The view with the local variable is an image with a `.data` section. -/
def HasData (v : ModuleView) : Prop :=
  selectSection v 0x2000 0x1000 = .ok (some 0x1018) ∧ v.load 0x1018 virtualAddress = .ok 0x1000 ∧
    v.load 0x1018 virtualSize = .ok 0x20

theorem ntdllView_found {root min node : Nat} {parentValues : List (Nat × Nat)}
    (h : HasData ((ntdllView root min parentValues).withNode 0x5000 node)) :
    SectionFound ((ntdllView root min parentValues).withNode 0x5000 node) 0x400 0x2000
      (nodeSearch ((ntdllView root min parentValues).withNode 0x5000 node) 0x5000) 0x1400 0x20 :=
  ⟨⟨0x1000, 0x1018, 0x1000, rfl, h.1, h.2.1, rfl, h.2.2⟩,
    (by decide : (0x5000 : Nat) ≠ 0), (by decide : 0 < Host.amd64.pointerSize),
    ntdllView_readable _ _ _ _ _ _, ntdllView_readable _ _ _ _ _ _, by decide,
    (by decide : 0x1400 + 0x20 < Host.amd64.addresses)⟩

/-- ntdll's entry is the left child of a black root. -/
def twoNodes : ModuleView := ntdllView 0x30c8 0x40c8 [(0x30c8, 0), (0x40c8, 0x30c9)]

def oneNode : ModuleView := ntdllView 0x40c8 0x40c8 [(0x40c8, 0)]

theorem twoNodes_hasData : HasData (twoNodes.withNode 0x5000 0x30c8) := by
  have hselect : selectSection (twoNodes.withNode 0x5000 0x30c8) 0x2000 0x1000 =
      .ok (some 0x1018) := by decide +kernel
  exact ⟨hselect, by decide +kernel, by decide +kernel⟩

theorem twoNodes_inTree : NtdllInTree twoNodes 0x4000 (.node .nil 0x40c8 .nil) 0x30c8 .nil where
  links := ⟨by decide, ⟨0, by decide +kernel, rfl⟩,
    ⟨by decide, ⟨0x30c9, by decide +kernel, rfl⟩, trivial, trivial⟩, trivial⟩
  nodup := by decide
  black := by decide +kernel
  contains := by decide +kernel

theorem twoNodes_descriptor : DescriptorInData (twoNodes.withNode 0x5000 0x30c8)
    (.node (.node .nil 0x40c8 .nil) 0x30c8 .nil) 0x30c8 0x400 0x5000 0x2000 0x1408 0x1400 0x20 where
  found := ntdllView_found twoNodes_hasData
  first := by decide
  last := by decide
  rootWord := by decide +kernel
  minWord := by decide +kernel
  nowhereElse := by
    have honly : ∀ k < 25,
        (twoNodes.withNode 0x5000 0x30c8).value (0x1400 + k) = 0x30c8 → k = 8 := by
      decide +kernel
    intro a hle hfits hvalue
    obtain ⟨k, rfl⟩ := Nat.exists_eq_add_of_le hle
    have hfits : 0x1400 + k + 8 ≤ 0x1400 + 0x20 := hfits
    obtain rfl := honly k (by omega) hvalue
    exact ⟨by decide, by decide⟩

/-- With a left child of the root the descriptor is found. -/
theorem findLdrpModuleBaseAddressIndex_locates_twoNodes :
    findLdrpModuleBaseAddressIndex twoNodes systemWin10Rtm 0x5000 0x2000 100 0x4000 =
      some (some 0x1408) := by
  obtain ⟨result, hfind, hiff⟩ := (findLdrpModuleBaseAddressIndex_locates_iff twoNodes
    systemWin10Rtm 0x5000 0x2000 0x4000 twoNodes_inTree).2 0x400 0x1408 0x1400 0x20 100
    (by decide) (by decide) (by decide +kernel) twoNodes_descriptor (by decide) (by decide)
  have hacross : ∀ k < 8, 0 < k →
      (twoNodes.withNode 0x5000 0x30c8).value (0x1408 + k) ≠ 0x30c8 := by decide +kernel
  rw [hfind, hiff.mpr ⟨rfl, fun k hk hlt => hacross k hlt hk⟩]

/-- With ntdll's entry alone in the tree `Root` and `Min` are the same, and the search stops
at the second of them. -/
theorem findLdrpModuleBaseAddressIndex_misses_oneNode :
    NtdllInTree oneNode 0x4000 .nil 0x40c8 .nil ∧
      DescriptorInData (oneNode.withNode 0x5000 0x40c8) (.node .nil 0x40c8 .nil) 0x40c8 0x400
        0x5000 0x2000 0x1408 0x1400 0x20 ∧
      findLdrpModuleBaseAddressIndex oneNode systemWin10Rtm 0x5000 0x2000 100 0x4000 =
        some none := by
  have hdata : HasData (oneNode.withNode 0x5000 0x40c8) := by
    have hselect : selectSection (oneNode.withNode 0x5000 0x40c8) 0x2000 0x1000 =
        .ok (some 0x1018) := by decide +kernel
    exact ⟨hselect, by decide +kernel, by decide +kernel⟩
  have honly : ∀ k < 25, (oneNode.withNode 0x5000 0x40c8).value (0x1400 + k) = 0x40c8 →
      k = 8 ∨ k = 16 := by
    decide +kernel
  refine ⟨⟨⟨by decide, ⟨0, by decide +kernel, rfl⟩, trivial, trivial⟩, by decide, by decide +kernel,
    by decide +kernel⟩, ⟨ntdllView_found hdata, by decide, by decide, by decide +kernel,
    by decide +kernel, ?_⟩, by decide +kernel⟩
  intro a hle hfits hvalue
  obtain ⟨k, rfl⟩ := Nat.exists_eq_add_of_le hle
  have hfits : 0x1400 + k + 8 ≤ 0x1400 + 0x20 := hfits
  rcases honly k (by omega) hvalue with rfl | rfl
  · exact ⟨by decide, by decide⟩
  · exact ⟨by decide, by decide⟩

end WinPolyfillLoader.LdrEntry
