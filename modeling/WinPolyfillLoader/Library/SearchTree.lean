import Mathlib.Data.List.Sort
import Mathlib.Order.Basic

/-!
Binary trees whose nodes are found by a key kept elsewhere, as in an intrusive
index. The descent stops at a node with the key or at an empty child slot;
linking a new node there is specified by the in-order sequence, so that a
rebalancing implementation meets the same law.
-/

namespace SearchTree

variable {α κ : Type*}

inductive BinTree (α : Type*) where
  | nil : BinTree α
  | node : BinTree α → α → BinTree α → BinTree α
deriving DecidableEq, Repr

def BinTree.isEmpty : BinTree α → Bool
  | .nil => true
  | .node _ _ _ => false

/-- The in-order sequence of the nodes. -/
def BinTree.toList : BinTree α → List α
  | .nil => []
  | .node l x r => l.toList ++ x :: r.toList

inductive Descent (α : Type*) where
  | slot (parent : α) (right : Bool)
  | found (x : α)
deriving DecidableEq, Repr

/-- The descent for the key `k`. Only the empty tree has no answer. -/
def BinTree.descend [LT κ] [DecidableLT κ] (key : α → κ) (k : κ) : BinTree α → Option (Descent α)
  | .nil => none
  | .node l x r =>
      if k < key x then
        if l.isEmpty then some (.slot x false) else l.descend key k
      else if key x < k then
        if r.isEmpty then some (.slot x true) else r.descend key k
      else some (.found x)

/-- `parent` is a node whose left or right child is missing. -/
def BinTree.HasSlot (parent : α) (right : Bool) : BinTree α → Prop
  | .nil => False
  | .node l x r =>
      (x = parent ∧ (if right then r else l).isEmpty = true) ∨
        l.HasSlot parent right ∨ r.HasSlot parent right

/-- The law of an insertion at a slot: the new node becomes the neighbour of
its parent in the in-order sequence. -/
def InsertsAtSlot (insertAt : BinTree α → α → Bool → α → BinTree α) : Prop :=
  ∀ t parent right x, t.HasSlot parent right → x ∉ t.toList → t.toList.Nodup →
    ∃ before after, t.toList = before ++ parent :: after ∧
      (insertAt t parent right x).toList =
        before ++ (if right then [parent, x] else [x, parent]) ++ after

theorem descend_congr [LT κ] [DecidableLT κ] {key key' : α → κ} (k : κ) {t : BinTree α}
    (h : ∀ x ∈ t.toList, key x = key' x) : t.descend key k = t.descend key' k := by
  induction t with
  | nil => rfl
  | node l x r ihl ihr =>
    simp only [BinTree.toList, List.mem_append, List.mem_cons] at h
    rw [BinTree.descend, BinTree.descend, h x (Or.inr (Or.inl rfl)),
      ihl fun y hy => h y (Or.inl hy), ihr fun y hy => h y (Or.inr (Or.inr hy))]

theorem descend_isSome [LT κ] [DecidableLT κ] (key : α → κ) (k : κ) {t : BinTree α}
    (h : t.isEmpty = false) : ∃ d, t.descend key k = some d := by
  induction t with
  | nil => cases h
  | node l x r ihl ihr =>
    rw [BinTree.descend]
    split
    · cases hl : l.isEmpty with
      | true => exact ⟨_, rfl⟩
      | false => exact ihl hl
    · split
      · cases hr : r.isEmpty with
        | true => exact ⟨_, rfl⟩
        | false => exact ihr hr
      · exact ⟨_, rfl⟩

theorem descend_slot [LT κ] [DecidableLT κ] {key : α → κ} {k : κ} {t : BinTree α} {parent : α}
    {right : Bool} (h : t.descend key k = some (.slot parent right)) :
    t.HasSlot parent right := by
  induction t with
  | nil => cases h
  | node l x r ihl ihr =>
    rw [BinTree.descend] at h
    split at h
    · cases hl : l.isEmpty with
      | true =>
        rw [hl, if_pos rfl] at h
        cases h
        exact Or.inl ⟨rfl, hl⟩
      | false =>
        rw [hl, if_neg Bool.false_ne_true] at h
        exact Or.inr (Or.inl (ihl h))
    · split at h
      · cases hr : r.isEmpty with
        | true =>
          rw [hr, if_pos rfl] at h
          cases h
          exact Or.inl ⟨rfl, hr⟩
        | false =>
          rw [hr, if_neg Bool.false_ne_true] at h
          exact Or.inr (Or.inr (ihr h))
      · cases h

theorem descend_found [LT κ] [DecidableLT κ] {key : α → κ} {k : κ} {t : BinTree α} {x : α}
    (h : t.descend key k = some (.found x)) :
    x ∈ t.toList ∧ ¬ k < key x ∧ ¬ key x < k := by
  induction t with
  | nil => cases h
  | node l y r ihl ihr =>
    rw [BinTree.descend] at h
    split at h
    · split at h
      · cases h
      · exact ⟨List.mem_append_left _ (ihl h).1, (ihl h).2⟩
    · split at h
      · split at h
        · cases h
        · exact ⟨List.mem_append_right _ (List.mem_cons_of_mem _ (ihr h).1), (ihr h).2⟩
      · rename_i hlt hgt
        cases h
        exact ⟨List.mem_append_right _ List.mem_cons_self, hlt, hgt⟩

theorem insertsAtSlot_mem {insertAt : BinTree α → α → Bool → α → BinTree α}
    (hinsert : InsertsAtSlot insertAt) {t : BinTree α} {parent x : α} {right : Bool}
    (hslot : t.HasSlot parent right) (hx : x ∉ t.toList) (hnodup : t.toList.Nodup) (y : α) :
    y ∈ (insertAt t parent right x).toList ↔ y = x ∨ y ∈ t.toList := by
  obtain ⟨before, after, ht, hresult⟩ := hinsert t parent right x hslot hx hnodup
  rw [hresult, ht]
  cases right with
  | true =>
    simp only [if_true, List.mem_append, List.mem_cons, List.not_mem_nil, or_false]
    tauto
  | false =>
    simp only [Bool.false_eq_true, if_false, List.mem_append, List.mem_cons, List.not_mem_nil,
      or_false]
    tauto

theorem insertsAtSlot_perm {insertAt : BinTree α → α → Bool → α → BinTree α}
    (hinsert : InsertsAtSlot insertAt) {t : BinTree α} {parent x : α} {right : Bool}
    (hslot : t.HasSlot parent right) (hx : x ∉ t.toList) (hnodup : t.toList.Nodup) :
    (insertAt t parent right x).toList.Perm (x :: t.toList) := by
  obtain ⟨before, after, ht, hresult⟩ := hinsert t parent right x hslot hx hnodup
  rw [hresult, ht, List.append_assoc]
  refine List.Perm.trans ?_ List.perm_middle
  apply List.Perm.append_left
  cases right with
  | true => exact List.Perm.swap x parent after
  | false => exact List.Perm.refl _

/-- Linking without rebalancing. -/
def BinTree.linkAt [DecidableEq α] (parent : α) (right : Bool) (new : α) : BinTree α → BinTree α
  | .nil => .nil
  | .node l x r =>
      if x = parent then
        if right then .node l x (if r.isEmpty then .node .nil new .nil else r)
        else .node (if l.isEmpty then .node .nil new .nil else l) x r
      else .node (l.linkAt parent right new) x (r.linkAt parent right new)

theorem hasSlot_mem {t : BinTree α} {parent : α} {right : Bool} (h : t.HasSlot parent right) :
    parent ∈ t.toList := by
  induction t with
  | nil => cases h
  | node l x r ihl ihr =>
    rw [BinTree.toList]
    rcases h with ⟨rfl, _⟩ | h | h
    · simp
    · exact List.mem_append_left _ (ihl h)
    · exact List.mem_append_right _ (List.mem_cons_of_mem _ (ihr h))

theorem linkAt_of_not_mem [DecidableEq α] {t : BinTree α} {parent : α} (right : Bool) (new : α)
    (h : parent ∉ t.toList) : t.linkAt parent right new = t := by
  induction t with
  | nil => rfl
  | node l x r ihl ihr =>
    have hparts : parent ∉ l.toList ∧ parent ≠ x ∧ parent ∉ r.toList := by
      simpa [BinTree.toList] using h
    rw [BinTree.linkAt, if_neg (Ne.symm hparts.2.1), ihl hparts.1, ihr hparts.2.2]

theorem isEmpty_toList {t : BinTree α} (h : t.isEmpty = true) : t.toList = [] := by
  cases t with
  | nil => rfl
  | node l x r => cases h

theorem linkAt_toList [DecidableEq α] {t : BinTree α} {parent : α} {right : Bool} (new : α)
    (hslot : t.HasSlot parent right) (hnodup : t.toList.Nodup) :
    ∃ before after, t.toList = before ++ parent :: after ∧
      (t.linkAt parent right new).toList =
        before ++ (if right then [parent, new] else [new, parent]) ++ after := by
  induction t with
  | nil => cases hslot
  | node l x r ihl ihr =>
    rw [BinTree.toList] at hnodup ⊢
    obtain ⟨hl, hxr, hdisjoint⟩ := List.nodup_append.mp hnodup
    obtain ⟨hxr, hr⟩ := List.nodup_cons.mp hxr
    rcases hslot with ⟨rfl, hempty⟩ | hslot | hslot
    · refine ⟨l.toList, r.toList, rfl, ?_⟩
      rw [BinTree.linkAt, if_pos rfl]
      cases right with
      | true =>
        have hr : r.isEmpty = true := hempty
        simp [BinTree.toList, hr, isEmpty_toList hr]
      | false =>
        have hl : l.isEmpty = true := hempty
        simp [BinTree.toList, hl, isEmpty_toList hl]
    · have hmem := hasSlot_mem hslot
      have hne : x ≠ parent := fun heq => hdisjoint parent hmem x List.mem_cons_self heq.symm
      have hnotr : parent ∉ r.toList := fun h =>
        hdisjoint parent hmem parent (List.mem_cons_of_mem _ h) rfl
      obtain ⟨before, after, hlist, hresult⟩ := ihl hslot hl
      refine ⟨before, after ++ x :: r.toList, by simp [hlist], ?_⟩
      rw [BinTree.linkAt, if_neg hne, linkAt_of_not_mem right new hnotr, BinTree.toList, hresult]
      simp
    · have hmem := hasSlot_mem hslot
      have hne : x ≠ parent := fun heq => hxr (heq ▸ hmem)
      have hnotl : parent ∉ l.toList := fun h =>
        hdisjoint parent h parent (List.mem_cons_of_mem _ hmem) rfl
      obtain ⟨before, after, hlist, hresult⟩ := ihr hslot hr
      refine ⟨l.toList ++ x :: before, after, by simp [hlist], ?_⟩
      rw [BinTree.linkAt, if_neg hne, linkAt_of_not_mem right new hnotl, BinTree.toList, hresult]
      simp

theorem linkAt_insertsAtSlot [DecidableEq α] :
    InsertsAtSlot (fun (t : BinTree α) parent right new => t.linkAt parent right new) :=
  fun _ _ _ new hslot _ hnodup => linkAt_toList new hslot hnodup

/-- In an ordered tree the descent for the key of a node ends at that node. -/
theorem descend_of_mem [Preorder κ] [DecidableLT κ] (key : α → κ) {t : BinTree α} {x : α}
    (hordered : t.toList.Pairwise (fun a b => key a < key b)) (hx : x ∈ t.toList) :
    t.descend key (key x) = some (.found x) := by
  induction t with
  | nil => cases hx
  | node l y r ihl ihr =>
    rw [BinTree.toList] at hordered hx
    obtain ⟨hl, hyr, hcross⟩ := List.pairwise_append.mp hordered
    obtain ⟨hright, hr⟩ := List.pairwise_cons.mp hyr
    rw [BinTree.descend]
    rcases List.mem_append.mp hx with hx | hx
    · have hlt : key x < key y := hcross x hx y List.mem_cons_self
      have hne : l.isEmpty = false := by
        cases l with
        | nil => cases hx
        | node _ _ _ => rfl
      rw [if_pos hlt, hne, if_neg Bool.false_ne_true]
      exact ihl hl hx
    · rcases List.mem_cons.mp hx with rfl | hx
      · rw [if_neg (lt_irrefl _), if_neg (lt_irrefl _)]
      · have hlt : key y < key x := hright x hx
        have hne : r.isEmpty = false := by
          cases r with
          | nil => cases hx
          | node _ _ _ => rfl
        rw [if_neg (lt_asymm hlt), if_pos hlt, hne, if_neg Bool.false_ne_true]
        exact ihr hr hx

/-- In an ordered tree every node is on the same side of the key that was looked
for and of the parent of the slot, and the parent is on the side of the slot. -/
theorem descend_slot_gap [LinearOrder κ] {key : α → κ} {k : κ} {t : BinTree α} {parent : α}
    {right : Bool} (hordered : t.toList.Pairwise (fun a b => key a < key b))
    (h : t.descend key k = some (.slot parent right)) :
    (if right then key parent < k else k < key parent) ∧
      ∀ x ∈ t.toList, (key x ≤ key parent ∧ key x < k) ∨ (key parent ≤ key x ∧ k < key x) := by
  induction t with
  | nil => cases h
  | node l y r ihl ihr =>
    rw [BinTree.toList] at hordered ⊢
    obtain ⟨hl, hyr, hcross⟩ := List.pairwise_append.mp hordered
    obtain ⟨hright, hr⟩ := List.pairwise_cons.mp hyr
    have hleft : ∀ x ∈ l.toList, key x < key y := fun x hx => hcross x hx y List.mem_cons_self
    have hmem : ∀ x, x ∈ l.toList ++ y :: r.toList → x ∈ l.toList ∨ x = y ∨ x ∈ r.toList :=
      fun x hx => (List.mem_append.mp hx).imp_right List.mem_cons.mp
    rw [BinTree.descend] at h
    split at h
    · -- to the left of `y`
      rename_i hlt
      have habove : key parent ≤ key y → ∀ x, x = y ∨ x ∈ r.toList →
          key parent ≤ key x ∧ k < key x := by
        intro hle x hx
        rcases hx with rfl | hx
        · exact ⟨hle, hlt⟩
        · exact ⟨hle.trans (hright x hx).le, hlt.trans (hright x hx)⟩
      split at h
      · rename_i hempty
        cases h
        refine ⟨hlt, ?_⟩
        intro x hx
        rcases hmem x hx with hx | hx
        · rw [isEmpty_toList hempty] at hx
          cases hx
        · exact Or.inr (habove le_rfl x hx)
      · obtain ⟨hside, hgap⟩ := ihl hl h
        have hparent : key parent < key y := hleft parent (hasSlot_mem (descend_slot h))
        refine ⟨hside, ?_⟩
        intro x hx
        rcases hmem x hx with hx | hx
        · exact hgap x hx
        · exact Or.inr (habove hparent.le x hx)
    · split at h
      · -- to the right of `y`
        rename_i hgt
        have hbelow : key y ≤ key parent → ∀ x, x ∈ l.toList ∨ x = y →
            key x ≤ key parent ∧ key x < k := by
          intro hle x hx
          rcases hx with hx | rfl
          · exact ⟨(hleft x hx).le.trans hle, (hleft x hx).trans hgt⟩
          · exact ⟨hle, hgt⟩
        split at h
        · rename_i hempty
          cases h
          refine ⟨hgt, ?_⟩
          intro x hx
          rcases or_assoc.mpr (hmem x hx) with hx | hx
          · exact Or.inl (hbelow le_rfl x hx)
          · rw [isEmpty_toList hempty] at hx
            cases hx
        · obtain ⟨hside, hgap⟩ := ihr hr h
          have hparent : key y < key parent := hright parent (hasSlot_mem (descend_slot h))
          refine ⟨hside, ?_⟩
          intro x hx
          rcases or_assoc.mpr (hmem x hx) with hx | hx
          · exact Or.inl (hbelow hparent.le x hx)
          · exact hgap x hx
      · cases h

theorem orderedInsert_between [LinearOrder κ] {k : κ} {before after : List κ}
    (hbefore : ∀ x ∈ before, x < k) (hafter : ∀ x ∈ after, k < x) :
    (before ++ after).orderedInsert (· ≤ ·) k = before ++ k :: after := by
  induction before with
  | nil =>
    cases after with
    | nil => rfl
    | cons x xs => exact if_pos (hafter x List.mem_cons_self).le
  | cons x xs ih =>
    have hx : ¬ k ≤ x := not_le.mpr (hbefore x List.mem_cons_self)
    have hrest := ih (fun y hy => hbefore y (List.mem_cons_of_mem _ hy))
    rw [List.cons_append, List.orderedInsert_cons, if_neg hx, hrest, List.cons_append]

/-- Inserting a node where the descent for its key ended inserts the key into
the ordered sequence of keys. -/
theorem insertAt_sorted [DecidableEq α] [LinearOrder κ]
    {insertAt : BinTree α → α → Bool → α → BinTree α} (hinsert : InsertsAtSlot insertAt)
    {key : α → κ} {k : κ} {t : BinTree α} {parent new : α} {right : Bool}
    (hordered : t.toList.Pairwise (fun a b => key a < key b))
    (h : t.descend key k = some (.slot parent right)) (hnew : new ∉ t.toList) :
    (insertAt t parent right new).toList.map (Function.update key new k) =
      (t.toList.map key).orderedInsert (· ≤ ·) k := by
  have hnodup : t.toList.Nodup := hordered.imp (fun hlt heq => hlt.ne (congrArg key heq))
  obtain ⟨before, after, ht, hresult⟩ := hinsert t parent right new (descend_slot h) hnew hnodup
  obtain ⟨hside, hgap⟩ := descend_slot_gap hordered h
  have hkeep : ∀ x ∈ t.toList, Function.update key new k x = key x := by
    intro x hx
    have hne : x ≠ new := fun heq => hnew (heq ▸ hx)
    exact Function.update_of_ne hne _ _
  have hnewkey : Function.update key new k new = k := Function.update_self _ _ _
  rw [ht] at hordered hgap hkeep
  obtain ⟨-, htail, hcross⟩ := List.pairwise_append.mp hordered
  have hbefore : ∀ a ∈ before.map key, a < k := by
    intro a ha
    obtain ⟨x, hx, rfl⟩ := List.mem_map.mp ha
    rcases hgap x (List.mem_append_left _ hx) with hbelow | habove
    · exact hbelow.2
    · exact absurd (hcross x hx parent List.mem_cons_self) (not_lt.mpr habove.1)
  have hafter : ∀ a ∈ after.map key, k < a := by
    intro a ha
    obtain ⟨x, hx, rfl⟩ := List.mem_map.mp ha
    rcases hgap x (List.mem_append_right _ (List.mem_cons_of_mem _ hx)) with hbelow | habove
    · exact absurd ((List.pairwise_cons.mp htail).1 x hx) (not_lt.mpr hbelow.1)
    · exact habove.2
  have hkeepbefore : before.map (Function.update key new k) = before.map key :=
    List.map_congr_left (fun x hx => hkeep x (List.mem_append_left _ hx))
  have hkeepafter : after.map (Function.update key new k) = after.map key :=
    List.map_congr_left
      (fun x hx => hkeep x (List.mem_append_right _ (List.mem_cons_of_mem _ hx)))
  have hkeepparent : Function.update key new k parent = key parent :=
    hkeep parent (List.mem_append_right _ List.mem_cons_self)
  rw [hresult, ht]
  cases right with
  | true =>
    have hlast : ∀ a ∈ before.map key ++ [key parent], a < k := by
      intro a ha
      rcases List.mem_append.mp ha with ha | ha
      · exact hbefore a ha
      · exact List.mem_singleton.mp ha ▸ hside
    have hseam := orderedInsert_between hlast hafter
    simp only [if_true, List.map_append, List.map_cons, hkeepbefore, hkeepafter,
      hkeepparent, hnewkey, List.append_assoc, List.cons_append, List.nil_append] at hseam ⊢
    exact hseam.symm
  | false =>
    have hfirst : ∀ a ∈ key parent :: after.map key, k < a := by
      intro a ha
      rcases List.mem_cons.mp ha with rfl | ha
      · exact hside
      · exact hafter a ha
    have hseam := orderedInsert_between hbefore hfirst
    simp only [Bool.false_eq_true, if_false, List.map_append, List.map_cons,
      hkeepbefore, hkeepafter, hkeepparent, hnewkey, List.append_assoc, List.cons_append,
      List.nil_append]
    exact hseam.symm

section Links

variable {left right : α → α} {null : α}

/-- The tree as child links hold it. -/
def Links (left right : α → α) (null : α) : BinTree α → α → Prop
  | .nil, root => root = null
  | .node l x r, root =>
      root = x ∧ x ≠ null ∧ Links left right null l (left x) ∧ Links left right null r (right x)

theorem links_isEmpty {t : BinTree α} {root : α} (h : Links left right null t root) :
    t.isEmpty = true ↔ root = null := by
  cases t with
  | nil => exact iff_of_true rfl h
  | node l x r =>
    obtain ⟨rfl, hnonnull, -⟩ := h
    exact iff_of_false Bool.false_ne_true hnonnull

theorem links_congr {left' right' : α → α} {t : BinTree α} {root : α}
    (hsame : ∀ x ∈ t.toList, left' x = left x ∧ right' x = right x)
    (h : Links left right null t root) : Links left' right' null t root := by
  induction t generalizing root with
  | nil => exact h
  | node l x r ihl ihr =>
    obtain ⟨hroot, hnonnull, hl, hr⟩ := h
    rw [BinTree.toList] at hsame
    obtain ⟨hleft, hright⟩ := hsame x (List.mem_append_right _ List.mem_cons_self)
    refine ⟨hroot, hnonnull, ?_, ?_⟩
    · rw [hleft]
      exact ihl (fun y hy => hsame y (List.mem_append_left _ hy)) hl
    · rw [hright]
      exact ihr (fun y hy => hsame y (List.mem_append_right _ (List.mem_cons_of_mem _ hy))) hr

/-- A new leaf in an empty slot links the tree with the node in that slot. -/
theorem links_linkAt [DecidableEq α] {left' right' : α → α} {t : BinTree α} {root parent new : α}
    {side : Bool} (h : Links left right null t root) (hslot : t.HasSlot parent side)
    (hnodup : t.toList.Nodup) (hnonnull : new ≠ null)
    (hleaf : left' new = null ∧ right' new = null)
    (hparent : if side then right' parent = new ∧ left' parent = left parent
      else left' parent = new ∧ right' parent = right parent)
    (hsame : ∀ x ∈ t.toList, x ≠ parent → left' x = left x ∧ right' x = right x) :
    Links left' right' null (t.linkAt parent side new) root := by
  have hnewleaf : Links left' right' null (.node .nil new .nil) new :=
    ⟨rfl, hnonnull, hleaf.1, hleaf.2⟩
  induction t generalizing root with
  | nil => cases hslot
  | node l x r ihl ihr =>
    obtain ⟨hroot, hx, hl, hr⟩ := h
    rw [BinTree.toList] at hnodup hsame
    obtain ⟨hlnodup, hxr, hdisjoint⟩ := List.nodup_append.mp hnodup
    obtain ⟨hxnot, hrnodup⟩ := List.nodup_cons.mp hxr
    have hsamel : ∀ y ∈ l.toList, y ≠ parent → left' y = left y ∧ right' y = right y :=
      fun y hy => hsame y (List.mem_append_left _ hy)
    have hsamer : ∀ y ∈ r.toList, y ≠ parent → left' y = left y ∧ right' y = right y :=
      fun y hy => hsame y (List.mem_append_right _ (List.mem_cons_of_mem _ hy))
    rcases hslot with ⟨rfl, hempty⟩ | hslot | hslot
    · have hl' : Links left' right' null l (left x) := by
        refine links_congr ?_ hl
        intro y hy
        exact hsamel y hy (hdisjoint y hy x List.mem_cons_self)
      have hr' : Links left' right' null r (right x) := by
        refine links_congr ?_ hr
        intro y hy
        exact hsamer y hy (fun heq => hxnot (heq ▸ hy))
      rw [BinTree.linkAt, if_pos rfl]
      cases side with
      | true =>
        have hempty : r.isEmpty = true := hempty
        obtain ⟨hnew, hkeep⟩ := hparent
        rw [if_pos rfl, hempty, if_pos rfl]
        exact ⟨hroot, hx, hkeep ▸ hl', hnew ▸ hnewleaf⟩
      | false =>
        have hempty : l.isEmpty = true := hempty
        obtain ⟨hnew, hkeep⟩ := hparent
        rw [if_neg Bool.false_ne_true, hempty, if_pos rfl]
        exact ⟨hroot, hx, hnew ▸ hnewleaf, hkeep ▸ hr'⟩
    · have hmem := hasSlot_mem hslot
      have hne : x ≠ parent := fun heq => hdisjoint parent hmem x List.mem_cons_self heq.symm
      have hnotr : parent ∉ r.toList := fun hmem' =>
        hdisjoint parent hmem parent (List.mem_cons_of_mem _ hmem') rfl
      obtain ⟨hleft, hright⟩ :=
        hsame x (List.mem_append_right _ List.mem_cons_self) hne
      rw [BinTree.linkAt, if_neg hne, linkAt_of_not_mem side new hnotr]
      refine ⟨hroot, hx, ?_, ?_⟩
      · rw [hleft]
        exact ihl hl hslot hlnodup hsamel
      · rw [hright]
        exact links_congr (fun y hy => hsamer y hy (fun heq => hnotr (heq ▸ hy))) hr
    · have hmem := hasSlot_mem hslot
      have hne : x ≠ parent := fun heq => hxnot (heq ▸ hmem)
      have hnotl : parent ∉ l.toList := fun hmem' =>
        hdisjoint parent hmem' parent (List.mem_cons_of_mem _ hmem) rfl
      obtain ⟨hleft, hright⟩ :=
        hsame x (List.mem_append_right _ List.mem_cons_self) hne
      rw [BinTree.linkAt, if_neg hne, linkAt_of_not_mem side new hnotl]
      refine ⟨hroot, hx, ?_, ?_⟩
      · rw [hleft]
        exact links_congr (fun y hy => hsamel y hy (fun heq => hnotl (heq ▸ hy))) hl
      · rw [hright]
        exact ihr hr hslot hrnodup hsamer

end Links

/-- The law of a deletion: a member leaves the in-order sequence. -/
def DeletesNode [DecidableEq α] (delete : BinTree α → α → BinTree α) : Prop :=
  ∀ t x, x ∈ t.toList → t.toList.Nodup → (delete t x).toList = t.toList.erase x

/-- Deleting what was just inserted gives back the in-order sequence. -/
theorem insertAt_delete [DecidableEq α] {insertAt : BinTree α → α → Bool → α → BinTree α}
    {delete : BinTree α → α → BinTree α} (hinsert : InsertsAtSlot insertAt)
    (hdelete : DeletesNode delete) {t : BinTree α} {parent x : α} {right : Bool}
    (hslot : t.HasSlot parent right) (hx : x ∉ t.toList) (hnodup : t.toList.Nodup) :
    (delete (insertAt t parent right x) x).toList = t.toList := by
  obtain ⟨before, after, ht, hresult⟩ := hinsert t parent right x hslot hx hnodup
  have hparts : x ∉ before ∧ x ≠ parent ∧ x ∉ after := by
    rw [ht] at hx
    simpa using hx
  obtain ⟨hbefore, hparent, hafter⟩ := hparts
  have hmem : x ∈ (insertAt t parent right x).toList :=
    (insertsAtSlot_mem hinsert hslot hx hnodup x).mpr (Or.inl rfl)
  have hperm : (insertAt t parent right x).toList.Perm (x :: t.toList) := by
    rw [hresult, ht]
    cases right with
    | true =>
      simp only [if_true, List.append_assoc, List.cons_append, List.nil_append]
      exact (List.perm_middle.trans (List.Perm.cons _ List.perm_middle)).trans
        ((List.Perm.swap _ _ _).trans (List.Perm.cons _ List.perm_middle.symm))
    | false =>
      simp only [Bool.false_eq_true, if_false, List.append_assoc, List.cons_append,
        List.nil_append]
      exact List.perm_middle
  have hnodup' : (insertAt t parent right x).toList.Nodup :=
    hperm.nodup_iff.mpr (List.nodup_cons.mpr ⟨hx, hnodup⟩)
  rw [hdelete _ x hmem hnodup', hresult, ht]
  cases right with
  | true => simp [List.erase_append, hbefore, Ne.symm hparent]
  | false => simp [List.erase_append, hbefore]

/-- The second tree hung below the last node of the first. -/
def BinTree.join : BinTree α → BinTree α → BinTree α
  | .nil, r => r
  | .node a x b, r => .node a x (b.join r)

/-- Unlinking without rebalancing. -/
def BinTree.unlink [DecidableEq α] (x : α) : BinTree α → BinTree α
  | .nil => .nil
  | .node l y r =>
      if y = x then l.join r
      else if x ∈ l.toList then .node (l.unlink x) y r
      else .node l y (r.unlink x)

theorem join_toList (l r : BinTree α) : (l.join r).toList = l.toList ++ r.toList := by
  induction l with
  | nil => rfl
  | node a x b _ ihb => simp [BinTree.join, BinTree.toList, ihb]

theorem unlink_deletesNode [DecidableEq α] :
    DeletesNode (fun (t : BinTree α) x => t.unlink x) := by
  intro t x hx hnodup
  induction t with
  | nil => cases hx
  | node l y r ihl ihr =>
    rw [BinTree.toList] at hx hnodup
    change (BinTree.unlink x (.node l y r)).toList = (l.toList ++ y :: r.toList).erase x
    obtain ⟨hl, hyr, hdisjoint⟩ := List.nodup_append.mp hnodup
    obtain ⟨hyr, hr⟩ := List.nodup_cons.mp hyr
    rcases Decidable.em (y = x) with rfl | hne
    · have hnotl : y ∉ l.toList := fun h => hdisjoint y h y List.mem_cons_self rfl
      rw [BinTree.unlink, if_pos rfl, join_toList, List.erase_append_right _ hnotl,
        List.erase_cons_head]
    · rw [BinTree.unlink, if_neg hne]
      rcases Decidable.em (x ∈ l.toList) with hmem | hmem
      · rw [if_pos hmem, BinTree.toList, ihl hmem hl, List.erase_append_left _ hmem]
      · have hmemr : x ∈ r.toList := by
          rcases List.mem_append.mp hx with h | h
          · exact absurd h hmem
          · exact (List.mem_cons.mp h).resolve_left (Ne.symm hne)
        rw [if_neg hmem, BinTree.toList, ihr hmemr hr, List.erase_append_right _ hmem,
          List.erase_cons_tail (by simpa using hne)]

end SearchTree
