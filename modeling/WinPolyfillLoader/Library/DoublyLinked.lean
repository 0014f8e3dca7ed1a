import Mathlib.Data.List.Nodup
import WinPolyfillLoader.Library.CircularList

/-!
Circular doubly linked lists with a head. The forward links are a ring of the
head and the members, the backward links are one of the head and the members in
reverse. Insertion at the tail and removal write single links; on a family of
lists without a common node each changes the one list it is about.
-/

namespace DoublyLinked

open CircularList

variable {α ι : Type*}

structure Links (α : Type*) where
  flink : α → α
  blink : α → α

namespace Links

variable [DecidableEq α]

def setFlink (x y : α) (l : Links α) : Links α := { l with flink := Function.update l.flink x y }

def setBlink (x y : α) (l : Links α) : Links α := { l with blink := Function.update l.blink x y }

def initializeListHead (head : α) (l : Links α) : Links α := (l.setFlink head head).setBlink head head

def insertTail (head entry : α) (l : Links α) : Links α :=
  let blink := l.blink head
  let l := l.setFlink entry head
  let l := l.setBlink entry blink
  let l := l.setFlink blink entry
  l.setBlink head entry

def removeEntry (entry : α) (l : Links α) : Links α :=
  let flink := l.flink entry
  let blink := l.blink entry
  let l := l.setFlink blink flink
  l.setBlink flink blink

end Links

/-- A well-formed list: distinct nodes, linked both ways. -/
structure IsList (l : Links α) (head : α) (members : List α) : Prop where
  nodup : (head :: members).Nodup
  forward : Ring l.flink (head :: members)
  backward : Ring l.blink (head :: members.reverse)

variable {l l' : Links α} {head entry : α} {members : List α}

theorem isList_congr (hflink : ∀ x ∈ head :: members, l'.flink x = l.flink x)
    (hblink : ∀ x ∈ head :: members, l'.blink x = l.blink x) (h : IsList l head members) :
    IsList l' head members := by
  refine ⟨h.nodup, ring_congr hflink h.forward, ring_congr ?_ h.backward⟩
  intro x hx
  apply hblink x
  rcases List.mem_cons.mp hx with rfl | hx
  · exact List.mem_cons_self
  · exact List.mem_cons_of_mem _ (List.mem_reverse.mp hx)

theorem exists_last (head : α) (xs : List α) :
    ∃ before, head :: xs = before ++ [xs.reverse.headD head] := by
  rcases List.eq_nil_or_concat xs with rfl | ⟨ys, y, rfl⟩
  · exact ⟨[], rfl⟩
  · exact ⟨head :: ys, by simp⟩

theorem nodup_reverse (h : (head :: members).Nodup) : (head :: members.reverse).Nodup := by
  obtain ⟨hhead, hmembers⟩ := List.nodup_cons.mp h
  exact List.nodup_cons.mpr ⟨fun hmem => hhead (List.mem_reverse.mp hmem),
    List.nodup_reverse.mpr hmembers⟩

theorem blink_head (h : IsList l head members) : l.blink head = members.reverse.headD head :=
  h.backward.1

theorem flink_last (h : IsList l head members) : l.flink (members.reverse.headD head) = head := by
  obtain ⟨before, hlast⟩ := exists_last head members
  have hpath : Path l.flink (head :: members) head := h.forward
  rw [hlast] at hpath
  exact ((path_append _ _ _ _).mp hpath).2.1

section Operations

variable [DecidableEq α]

theorem isList_insertTail (h : IsList l head members) (hentry : entry ∉ head :: members) :
    IsList (l.insertTail head entry) head (members ++ [entry]) := by
  have hflink : (l.insertTail head entry).flink =
      Function.update (Function.update l.flink entry head) (l.blink head) entry := rfl
  have hblink : (l.insertTail head entry).blink =
      Function.update (Function.update l.blink entry (l.blink head)) head entry := rfl
  have hreverse : entry ∉ head :: members.reverse := by
    rw [List.mem_cons, List.mem_reverse, ← List.mem_cons]
    exact hentry
  refine ⟨?_, ?_, ?_⟩
  · rw [← List.cons_append]
    refine List.nodup_append.mpr ⟨h.nodup, List.nodup_cons.mpr ⟨List.not_mem_nil, List.nodup_nil⟩, ?_⟩
    intro x hx y hy heq
    exact hentry (List.mem_singleton.mp hy ▸ heq ▸ hx)
  · obtain ⟨before, hlast⟩ := exists_last head members
    have hforward : Ring l.flink (before ++ [members.reverse.headD head] ++ []) := by
      rw [List.append_nil, ← hlast]
      exact h.forward
    have hinsert := ring_insert hforward
      (by rw [List.append_nil, ← hlast]; exact h.nodup)
      (by rw [List.append_nil, ← hlast]; exact hentry)
    rw [flink_last h, ← hlast] at hinsert
    rw [hflink, blink_head h]
    exact hinsert
  · have hbackward : Ring l.blink ([] ++ [head] ++ members.reverse) := h.backward
    have hinsert := ring_insert hbackward (nodup_reverse h.nodup) hreverse
    rw [hblink, List.reverse_append]
    exact hinsert

theorem isList_removeEntry {before after : List α} (h : IsList l head (before ++ entry :: after)) :
    IsList (l.removeEntry entry) head (before ++ after) := by
  have hflink : (l.removeEntry entry).flink =
      Function.update l.flink (l.blink entry) (l.flink entry) := rfl
  have hblink : (l.removeEntry entry).blink =
      Function.update l.blink (l.flink entry) (l.blink entry) := rfl
  have hreversed : (before ++ entry :: after).reverse = after.reverse ++ entry :: before.reverse := by
    simp
  have hback := h.backward
  have hnodupback := nodup_reverse h.nodup
  rw [hreversed] at hback hnodupback
  -- the neighbours of the entry
  have hnext : l.flink entry = after.headD head := by
    have hpath : Path l.flink (head :: before ++ entry :: after) head := h.forward
    exact ((path_append _ _ _ _).mp hpath).2.1
  have hprevious : l.blink entry = before.reverse.headD head := by
    have hpath : Path l.blink (head :: after.reverse ++ entry :: before.reverse) head := hback
    exact ((path_append _ _ _ _).mp hpath).2.1
  refine ⟨?_, ?_, ?_⟩
  · refine h.nodup.sublist (List.Sublist.cons_cons head ?_)
    exact List.Sublist.append_left (List.sublist_cons_self entry after) before
  · obtain ⟨front, hlast⟩ := exists_last head before
    have hforward : Ring l.flink (front ++ [before.reverse.headD head] ++ entry :: after) := by
      rw [← hlast]
      exact h.forward
    have hunlink := ring_unlink hforward (by rw [← hlast]; exact h.nodup)
    rw [← hlast] at hunlink
    rw [hflink, hprevious]
    exact hunlink
  · obtain ⟨front, hlast⟩ := exists_last head after.reverse
    rw [List.reverse_reverse] at hlast
    have hbackward : Ring l.blink (front ++ [after.headD head] ++ entry :: before.reverse) := by
      rw [← hlast]
      exact hback
    have hunlink := ring_unlink hbackward (by rw [← hlast]; exact hnodupback)
    rw [← hlast] at hunlink
    rw [hblink, hnext, List.reverse_append]
    exact hunlink

/-- The links that an insertion writes belong to the list and the new node. -/
theorem insertTail_other (h : IsList l head members) {x : α} (hx : x ∉ head :: members)
    (hentry : x ≠ entry) :
    (l.insertTail head entry).flink x = l.flink x ∧
      (l.insertTail head entry).blink x = l.blink x := by
  have hlast : x ≠ l.blink head := by
    rw [blink_head h]
    obtain ⟨before, hlast⟩ := exists_last head members
    intro heq
    exact hx (by rw [hlast, heq]; simp)
  have hhead : x ≠ head := fun heq => hx (heq ▸ List.mem_cons_self)
  constructor
  · change Function.update (Function.update l.flink entry head) (l.blink head) entry x = _
    rw [Function.update_of_ne hlast, Function.update_of_ne hentry]
  · change Function.update (Function.update l.blink entry (l.blink head)) head entry x = _
    rw [Function.update_of_ne hhead, Function.update_of_ne hentry]

theorem removeEntry_other (h : IsList l head members) (hmem : entry ∈ members) {x : α}
    (hx : x ∉ head :: members) :
    (l.removeEntry entry).flink x = l.flink x ∧ (l.removeEntry entry).blink x = l.blink x := by
  have hnext : l.flink entry ∈ head :: members :=
    ring_next_mem h.forward (List.mem_cons_of_mem _ hmem)
  have hprevious : l.blink entry ∈ head :: members := by
    have hback := ring_next_mem h.backward
      (List.mem_cons_of_mem _ (List.mem_reverse.mpr hmem) : entry ∈ head :: members.reverse)
    rw [List.mem_cons, List.mem_reverse, ← List.mem_cons] at hback
    exact hback
  have hxprevious : x ≠ l.blink entry := fun heq => hx (heq ▸ hprevious)
  have hxnext : x ≠ l.flink entry := fun heq => hx (heq ▸ hnext)
  exact ⟨Function.update_of_ne hxprevious _ _, Function.update_of_ne hxnext _ _⟩

end Operations

/-- Lists in one memory that have no node in common. -/
structure AreLists (l : Links α) (heads : ι → α) (members : ι → List α) : Prop where
  isList : ∀ i, IsList l (heads i) (members i)
  apart : ∀ i j, i ≠ j → ∀ x ∈ heads i :: members i, x ∉ heads j :: members j

section Family

variable {heads : ι → α} {lists : ι → List α}

theorem areLists_congr (hflink : ∀ j, ∀ x ∈ heads j :: lists j, l'.flink x = l.flink x)
    (hblink : ∀ j, ∀ x ∈ heads j :: lists j, l'.blink x = l.blink x) (h : AreLists l heads lists) :
    AreLists l' heads lists :=
  ⟨fun j => isList_congr (hflink j) (hblink j) (h.isList j), h.apart⟩

variable [DecidableEq α] [DecidableEq ι]

theorem areLists_insertTail (h : AreLists l heads lists) (i : ι)
    (hentry : ∀ j, entry ∉ heads j :: lists j) :
    AreLists (l.insertTail (heads i) entry) heads
      (Function.update lists i (lists i ++ [entry])) := by
  constructor
  · intro j
    rcases eq_or_ne j i with rfl | hne
    · rw [Function.update_self]
      exact isList_insertTail (h.isList j) (hentry j)
    · rw [Function.update_of_ne hne]
      have hother : ∀ x ∈ heads j :: lists j,
          (l.insertTail (heads i) entry).flink x = l.flink x ∧
            (l.insertTail (heads i) entry).blink x = l.blink x := by
        intro x hx
        exact insertTail_other (h.isList i) (h.apart j i hne x hx)
          (fun heq => hentry j (heq ▸ hx))
      exact isList_congr (fun x hx => (hother x hx).1) (fun x hx => (hother x hx).2) (h.isList j)
  · have hnodes : ∀ j x, x ∈ heads j :: Function.update lists i (lists i ++ [entry]) j →
        x ∈ heads j :: lists j ∨ (j = i ∧ x = entry) := by
      intro j x hx
      rcases eq_or_ne j i with rfl | hne
      · rw [Function.update_self, ← List.cons_append] at hx
        exact (List.mem_append.mp hx).imp_right (fun hx => ⟨rfl, List.mem_singleton.mp hx⟩)
      · rw [Function.update_of_ne hne] at hx
        exact Or.inl hx
    intro j k hjk x hx hx'
    rcases hnodes j x hx with hx | ⟨hj, hxentry⟩
    · rcases hnodes k x hx' with hx' | ⟨-, hxentry⟩
      · exact h.apart j k hjk x hx hx'
      · exact hentry j (hxentry ▸ hx)
    · rcases hnodes k x hx' with hx' | ⟨hk, -⟩
      · exact hentry k (hxentry ▸ hx')
      · exact hjk (hj.trans hk.symm)

theorem areLists_removeEntry (h : AreLists l heads lists) {i : ι} (hentry : entry ∈ lists i) :
    AreLists (l.removeEntry entry) heads (Function.update lists i ((lists i).erase entry)) := by
  obtain ⟨before, after, hsplit⟩ := List.append_of_mem hentry
  have hnodup := (List.nodup_cons.mp (h.isList i).nodup).2
  have herase : (lists i).erase entry = before ++ after := by
    rw [hsplit] at hnodup ⊢
    have hnot : entry ∉ before := fun hmem =>
      (List.nodup_append.mp hnodup).2.2 entry hmem entry List.mem_cons_self rfl
    rw [List.erase_append_right _ hnot, List.erase_cons_head]
  constructor
  · intro j
    rcases eq_or_ne j i with rfl | hne
    · have hlist := h.isList j
      rw [hsplit] at hlist
      rw [Function.update_self, herase]
      exact isList_removeEntry hlist
    · rw [Function.update_of_ne hne]
      have hother : ∀ x ∈ heads j :: lists j, (l.removeEntry entry).flink x = l.flink x ∧
          (l.removeEntry entry).blink x = l.blink x := by
        intro x hx
        exact removeEntry_other (h.isList i) hentry (h.apart j i hne x hx)
      exact isList_congr (fun x hx => (hother x hx).1) (fun x hx => (hother x hx).2) (h.isList j)
  · have hnodes : ∀ j x, x ∈ heads j :: Function.update lists i ((lists i).erase entry) j →
        x ∈ heads j :: lists j := by
      intro j x hx
      rcases eq_or_ne j i with rfl | hne
      · rw [Function.update_self] at hx
        exact (List.Sublist.cons_cons _ List.erase_sublist).subset hx
      · rw [Function.update_of_ne hne] at hx
        exact hx
    intro j k hjk x hx hx'
    exact h.apart j k hjk x (hnodes j x hx) (hnodes k x hx')

theorem areLists_insertAll {node : ι → α} (targets : List ι) (h : AreLists l heads lists)
    (htargets : targets.Nodup) (hnodes : (targets.map node).Nodup)
    (hfresh : ∀ i ∈ targets, ∀ j, node i ∉ heads j :: lists j) :
    AreLists (targets.foldl (fun l i => l.insertTail (heads i) (node i)) l) heads
      fun i => if i ∈ targets then lists i ++ [node i] else lists i := by
  induction targets generalizing l lists with
  | nil => exact h
  | cons t ts ih =>
    obtain ⟨ht, hts⟩ := List.nodup_cons.mp htargets
    obtain ⟨hnode, hnodes⟩ := List.nodup_cons.mp hnodes
    have hfirst := areLists_insertTail h t (hfresh t List.mem_cons_self)
    have hlater : ∀ i ∈ ts, ∀ j,
        node i ∉ heads j :: Function.update lists t (lists t ++ [node t]) j := by
      intro i hi j hmem
      have hold := hfresh i (List.mem_cons_of_mem t hi) j
      rcases eq_or_ne j t with rfl | hne
      · rw [Function.update_self, ← List.cons_append] at hmem
        rcases List.mem_append.mp hmem with hmem | hmem
        · exact hold hmem
        · exact hnode (List.mem_map.mpr ⟨i, hi, List.mem_singleton.mp hmem⟩)
      · rw [Function.update_of_ne hne] at hmem
        exact hold hmem
    have hrest := ih hfirst hts hnodes hlater
    have hlists : (fun i => if i ∈ ts then Function.update lists t (lists t ++ [node t]) i ++ [node i]
        else Function.update lists t (lists t ++ [node t]) i) =
        fun i => if i ∈ t :: ts then lists i ++ [node i] else lists i := by
      funext i
      rcases eq_or_ne i t with rfl | hne
      · rw [if_neg ht, if_pos List.mem_cons_self, Function.update_self]
      · simp only [Function.update_of_ne hne, List.mem_cons, hne, false_or]
    rw [hlists] at hrest
    exact hrest

theorem areLists_removeAll {node : ι → α} (targets : List ι) (h : AreLists l heads lists)
    (htargets : targets.Nodup) (hmem : ∀ i ∈ targets, node i ∈ lists i) :
    AreLists (targets.foldl (fun l i => l.removeEntry (node i)) l) heads
      fun i => if i ∈ targets then (lists i).erase (node i) else lists i := by
  induction targets generalizing l lists with
  | nil => exact h
  | cons t ts ih =>
    obtain ⟨ht, hts⟩ := List.nodup_cons.mp htargets
    have hfirst := areLists_removeEntry h (hmem t List.mem_cons_self)
    have hlater : ∀ i ∈ ts, node i ∈ Function.update lists t ((lists t).erase (node t)) i := by
      intro i hi
      have hne : i ≠ t := fun heq => ht (heq ▸ hi)
      rw [Function.update_of_ne hne]
      exact hmem i (List.mem_cons_of_mem t hi)
    have hrest := ih hfirst hts hlater
    have hlists : (fun i => if i ∈ ts then
          (Function.update lists t ((lists t).erase (node t)) i).erase (node i)
        else Function.update lists t ((lists t).erase (node t)) i) =
        fun i => if i ∈ t :: ts then (lists i).erase (node i) else lists i := by
      funext i
      rcases eq_or_ne i t with rfl | hne
      · rw [if_neg ht, if_pos List.mem_cons_self, Function.update_self]
      · simp only [Function.update_of_ne hne, List.mem_cons, hne, false_or]
    rw [hlists] at hrest
    exact hrest

end Family

end DoublyLinked
