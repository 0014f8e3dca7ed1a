import Mathlib.Data.List.Basic

/-!
Circular singly linked lists. `next` gives the link field of every node; a
`Path` is a stretch of the list up to the node it leads to, and a `Ring` is a
path from its first node back to that node. Unlinking a node means to let its
predecessor point past it.
-/

namespace CircularList

variable {α : Type*}

/-- The nodes of the list are linked one to the next and the last to `stop`. -/
def Path (next : α → α) : List α → α → Prop
  | [], _ => True
  | x :: xs, stop => next x = xs.headD stop ∧ Path next xs stop

/-- A circular list, written from one of its nodes on. -/
def Ring (next : α → α) : List α → Prop
  | [] => False
  | x :: xs => Path next (x :: xs) x

theorem headD_append (xs ys : List α) (stop : α) :
    (xs ++ ys).headD stop = xs.headD (ys.headD stop) := by
  cases xs with
  | nil => rfl
  | cons x xs => rfl

theorem headD_mem_append (xs : List α) (x : α) : xs.headD x ∈ xs ++ [x] := by
  cases xs with
  | nil => exact List.mem_cons_self
  | cons y ys => exact List.mem_cons_self

theorem path_append (next : α → α) (xs ys : List α) (stop : α) :
    Path next (xs ++ ys) stop ↔ Path next xs (ys.headD stop) ∧ Path next ys stop := by
  induction xs with
  | nil => simp [Path]
  | cons x xs ih =>
    rw [List.cons_append, Path, Path, ih, headD_append, and_assoc]

theorem path_congr {next next' : α → α} {xs : List α} {stop : α}
    (h : ∀ x ∈ xs, next' x = next x) (hpath : Path next xs stop) : Path next' xs stop := by
  induction xs with
  | nil => trivial
  | cons x xs ih =>
    obtain ⟨hx, hrest⟩ := hpath
    refine ⟨(h x List.mem_cons_self).trans hx, ih ?_ hrest⟩
    intro y hy
    exact h y (List.mem_cons_of_mem _ hy)

theorem ring_congr {next next' : α → α} {xs : List α} (h : ∀ x ∈ xs, next' x = next x)
    (hring : Ring next xs) : Ring next' xs := by
  cases xs with
  | nil => exact hring
  | cons x xs => exact path_congr h hring

theorem path_next_mem {next : α → α} {xs : List α} {x stop : α} (hpath : Path next xs stop)
    (hx : x ∈ xs) : next x ∈ xs ∨ next x = stop := by
  induction xs with
  | nil => cases hx
  | cons y ys ih =>
    obtain ⟨hy, hrest⟩ := hpath
    rcases List.mem_cons.mp hx with rfl | hx
    · rw [hy]
      cases ys with
      | nil => exact Or.inr rfl
      | cons z zs => exact Or.inl (List.mem_cons_of_mem _ List.mem_cons_self)
    · exact (ih hrest hx).imp_left (List.mem_cons_of_mem _)

theorem ring_next_mem {next : α → α} {xs : List α} {x : α} (hring : Ring next xs) (hx : x ∈ xs) :
    next x ∈ xs := by
  cases xs with
  | nil => cases hx
  | cons y ys =>
    rcases path_next_mem hring hx with hmem | heq
    · exact hmem
    · exact heq ▸ List.mem_cons_self

/-- On a path of distinct nodes no link leads back to its own node, unless the
path ends there. -/
theorem path_next_ne {next : α → α} {xs : List α} {x stop : α} (hpath : Path next xs stop)
    (hnodup : xs.Nodup) (hx : x ∈ xs) (hstop : x ≠ stop) : next x ≠ x := by
  induction xs with
  | nil => cases hx
  | cons y ys ih =>
    obtain ⟨hy, hrest⟩ := hpath
    obtain ⟨hynot, hnodup'⟩ := List.nodup_cons.mp hnodup
    rcases List.mem_cons.mp hx with rfl | hx
    · rw [hy]
      cases ys with
      | nil => exact hstop.symm
      | cons z zs => exact fun heq => hynot (heq ▸ List.mem_cons_self)
    · exact ih hrest hnodup' hx

/-- In a ring of several distinct nodes every node has another successor. -/
theorem ring_next_ne {next : α → α} {x y : α} {zs : List α} (hring : Ring next (x :: y :: zs))
    (hnodup : (x :: y :: zs).Nodup) {z : α} (hz : z ∈ x :: y :: zs) : next z ≠ z := by
  have hpath : Path next (x :: y :: zs) x := hring
  rcases eq_or_ne z x with rfl | hne
  · have hnext : next z = y := hpath.1
    rw [hnext]
    exact fun heq => (List.nodup_cons.mp hnodup).1 (heq ▸ List.mem_cons_self)
  · exact path_next_ne hpath hnodup hz hne

/-- A path may be led to another node by changing its last link. -/
theorem path_redirect [DecidableEq α] {next : α → α} {xs : List α} {p stop : α} (stop' : α)
    (hpath : Path next (xs ++ [p]) stop) (hp : p ∉ xs) :
    Path (Function.update next p stop') (xs ++ [p]) stop' := by
  obtain ⟨hxs, -⟩ := (path_append next xs [p] stop).mp hpath
  refine (path_append _ xs [p] stop').mpr ⟨?_, ?_, trivial⟩
  · refine path_congr ?_ hxs
    intro x hx
    have hne : x ≠ p := fun heq => hp (heq ▸ hx)
    exact Function.update_of_ne hne _ _
  · exact Function.update_self _ _ _

/-- Unlinking a node that is not the first: its predecessor `p` is led past it. -/
theorem ring_unlink [DecidableEq α] {next : α → α} {before after : List α} {p own : α}
    (hring : Ring next (before ++ [p] ++ own :: after))
    (hnodup : (before ++ [p] ++ own :: after).Nodup) :
    Ring (Function.update next p (next own)) (before ++ [p] ++ after) := by
  obtain ⟨first, rest, hfirst⟩ : ∃ first rest, before ++ [p] = first :: rest := by
    cases before with
    | nil => exact ⟨p, [], rfl⟩
    | cons x xs => exact ⟨x, xs ++ [p], rfl⟩
  have hp : p ∉ before ∧ p ∉ after := by
    rw [List.append_assoc, List.nodup_append] at hnodup
    obtain ⟨-, htail, hdisjoint⟩ := hnodup
    refine ⟨fun hmem => hdisjoint p hmem p List.mem_cons_self rfl, fun hmem => ?_⟩
    have htail' : p ∉ own :: after := (List.nodup_cons.mp htail).1
    exact htail' (List.mem_cons_of_mem _ hmem)
  have hpath : Path next ((before ++ [p]) ++ own :: after) first := by
    rw [hfirst] at hring ⊢
    exact hring
  obtain ⟨hleft, hown, hright⟩ := (path_append next (before ++ [p]) (own :: after) first).mp hpath
  have hleft' := path_redirect (next own) hleft hp.1
  have hgoal : Path (Function.update next p (next own)) ((before ++ [p]) ++ after) first := by
    refine (path_append _ (before ++ [p]) after first).mpr ⟨hown ▸ hleft', ?_⟩
    refine path_congr ?_ hright
    intro x hx
    have hne : x ≠ p := fun heq => hp.2 (heq ▸ hx)
    exact Function.update_of_ne hne _ _
  rw [hfirst] at hgoal ⊢
  exact hgoal

/-- Unlinking the first node of several: the last node `p` is led past it, and
the list now starts at its successor. -/
theorem ring_unlink_head [DecidableEq α] {next : α → α} {after : List α} {p own : α}
    (hring : Ring next (own :: (after ++ [p]))) (hnodup : (own :: (after ++ [p])).Nodup) :
    next own = (after ++ [p]).headD own ∧
      Ring (Function.update next p (next own)) (after ++ [p]) := by
  obtain ⟨hown, hpath⟩ := hring
  have hp : p ∉ after := by
    have hnodup' := (List.nodup_cons.mp hnodup).2
    rw [List.nodup_append] at hnodup'
    exact fun hmem => hnodup'.2.2 p hmem p (List.mem_singleton.mpr rfl) rfl
  have hredirect := path_redirect (next own) hpath hp
  refine ⟨hown, ?_⟩
  cases after with
  | nil =>
    have hp' : next own = p := hown
    rw [hp'] at hredirect ⊢
    exact hredirect
  | cons x xs =>
    have hx : next own = x := hown
    rw [hx] at hredirect ⊢
    exact hredirect

theorem ring_insert [DecidableEq α] {next : α → α} {before after : List α} {p new : α}
    (hring : Ring next (before ++ [p] ++ after)) (hnodup : (before ++ [p] ++ after).Nodup)
    (hnew : new ∉ before ++ [p] ++ after) :
    Ring (Function.update (Function.update next new (next p)) p new)
      (before ++ [p] ++ new :: after) := by
  obtain ⟨first, rest, hfirst⟩ : ∃ first rest, before ++ [p] = first :: rest := by
    cases before with
    | nil => exact ⟨p, [], rfl⟩
    | cons x xs => exact ⟨x, xs ++ [p], rfl⟩
  have hp : p ∉ before ∧ p ∉ after := by
    rw [List.append_assoc, List.nodup_append] at hnodup
    obtain ⟨-, htail, hdisjoint⟩ := hnodup
    exact ⟨fun hmem => hdisjoint p hmem p List.mem_cons_self rfl, (List.nodup_cons.mp htail).1⟩
  have hnewp : new ≠ p := fun heq => hnew (heq ▸ by simp)
  have hpath : Path next ((before ++ [p]) ++ after) first := by
    rw [hfirst] at hring ⊢
    exact hring
  obtain ⟨hleft, hright⟩ := (path_append next (before ++ [p]) after first).mp hpath
  have hstep : next p = after.headD first :=
    ((path_append next before [p] (after.headD first)).mp hleft).2.1
  have hkeep : ∀ x ∈ before ++ [p] ++ after, Function.update next new (next p) x = next x := by
    intro x hx
    have hne : x ≠ new := fun heq => hnew (heq ▸ hx)
    exact Function.update_of_ne hne _ _
  have hleft' := path_redirect new
    (path_congr (fun x hx => hkeep x (List.mem_append_left _ hx)) hleft) hp.1
  have hright' : Path (Function.update (Function.update next new (next p)) p new) after first := by
    refine path_congr ?_ hright
    intro x hx
    have hne : x ≠ p := fun heq => hp.2 (heq ▸ hx)
    rw [Function.update_of_ne hne]
    exact hkeep x (List.mem_append_right _ hx)
  have hnewnext : Function.update (Function.update next new (next p)) p new new =
      after.headD first := by
    rw [Function.update_of_ne hnewp, Function.update_self, hstep]
  have hgoal : Path (Function.update (Function.update next new (next p)) p new)
      ((before ++ [p]) ++ new :: after) first :=
    (path_append _ (before ++ [p]) (new :: after) first).mpr ⟨hleft', hnewnext, hright'⟩
  rw [hfirst] at hgoal ⊢
  exact hgoal

end CircularList
