import Mathlib.Data.Finset.Card

/-!
Walks along a partial step. A walk from a node is determined, so that it either comes to a
node without a step or, where there are finitely many nodes, back to one that it has been
at, and never both.
-/

namespace Walks

variable {α : Type*}

/-- A walk over the nodes of the list, from the first of them up to `stop`. -/
def Walk (step : α → Option α) : α → List α → α → Prop
  | a, [], stop => a = stop
  | a, x :: xs, stop => a = x ∧ ∃ b, step x = some b ∧ Walk step b xs stop

inductive Ends (step : α → Option α) : α → Prop
  | stop {a : α} (hstop : step a = none) : Ends step a
  | next {a b : α} (hstep : step a = some b) (hends : Ends step b) : Ends step a

/-- The walk from a node comes back to a node that it has left. -/
def ComesBack (step : α → Option α) (a : α) : Prop := ∃ xs b, Walk step a xs b ∧ b ∈ xs

variable {step : α → Option α}

theorem walk_append (xs ys : List α) (a stop : α) :
    Walk step a (xs ++ ys) stop ↔ ∃ b, Walk step a xs b ∧ Walk step b ys stop := by
  induction xs generalizing a with
  | nil => exact ⟨fun h => ⟨a, rfl, h⟩, fun ⟨_, hab, h⟩ => hab ▸ h⟩
  | cons x xs ih =>
    constructor
    · rintro ⟨hfirst, c, hstep, hrest⟩
      obtain ⟨b, hxs, hys⟩ := (ih c).mp hrest
      exact ⟨b, ⟨hfirst, c, hstep, hxs⟩, hys⟩
    · rintro ⟨b, ⟨hfirst, c, hstep, hxs⟩, hys⟩
      exact ⟨hfirst, c, hstep, (ih c).mpr ⟨b, hxs, hys⟩⟩

theorem walk_snoc {xs : List α} {a b c : α} (h : Walk step a xs b) (hstep : step b = some c) :
    Walk step a (xs ++ [b]) c :=
  (walk_append xs [b] a c).mpr ⟨b, h, rfl, c, hstep, rfl⟩

theorem walk_congr {step' : α → Option α} {xs : List α} {a stop : α}
    (h : ∀ x ∈ xs, step' x = step x) (hwalk : Walk step a xs stop) : Walk step' a xs stop := by
  induction xs generalizing a with
  | nil => exact hwalk
  | cons x xs ih =>
    obtain ⟨hfirst, b, hstep, hrest⟩ := hwalk
    exact ⟨hfirst, b, (h x List.mem_cons_self).trans hstep,
      ih (fun y hy => h y (List.mem_cons_of_mem x hy)) hrest⟩

theorem walk_start {xs : List α} {a stop : α} (h : Walk step a xs stop) : a = xs.headD stop := by
  cases xs with
  | nil => exact h
  | cons x xs => exact h.1

theorem walk_step {before after : List α} {a x stop : α}
    (h : Walk step a (before ++ x :: after) stop) : step x = some (after.headD stop) := by
  obtain ⟨b, -, -, c, hstep, hrest⟩ := (walk_append before (x :: after) a stop).mp h
  rw [hstep, walk_start hrest]

/-- The nodes of the list are linked in a circle, the last one to the head. -/
def Circle (step : α → Option α) (head : α) (entries : List α) : Prop :=
  Walk step head (head :: entries) head ∧ (head :: entries).Nodup

theorem circle_first {head : α} {entries : List α} (h : Circle step head entries) :
    ∃ first, step head = some first ∧ Walk step first entries head := h.1.2

theorem circle_step_ne {head e : α} {entries : List α} (h : Circle step head entries)
    (he : e ∈ entries) : ∃ f, step e = some f ∧ f ≠ e ∧ (f = head ∨ f ∈ entries) := by
  obtain ⟨before, after, rfl⟩ := List.append_of_mem he
  have hwalk : Walk step head ((head :: before) ++ e :: after) head := h.1
  have hstep : step e = some (after.headD head) := walk_step hwalk
  obtain ⟨hhead, hnodup⟩ := List.nodup_cons.mp h.2
  refine ⟨after.headD head, hstep, ?_⟩
  cases after with
  | nil => exact ⟨fun heq => hhead (heq ▸ he), Or.inl rfl⟩
  | cons y ys =>
    have hafter := (List.nodup_cons.mp (List.nodup_append.mp hnodup).2.1).1
    exact ⟨fun heq => hafter (heq ▸ List.mem_cons_self), Or.inr (by simp)⟩

/-- Two links lead from an entry of a circle back to it only if it is the one entry. -/
theorem circle_two_steps {head e f : α} {entries : List α} (h : Circle step head entries)
    (he : e ∈ entries) (hfirst : step e = some f) (hsecond : step f = some e) :
    entries = [e] ∧ f = head := by
  obtain ⟨before, after, rfl⟩ := List.append_of_mem he
  have hwalk : Walk step head ((head :: before) ++ e :: after) head := h.1
  have hstep : step e = some (after.headD head) := walk_step hwalk
  have hf : f = after.headD head := Option.some_inj.mp (hfirst.symm.trans hstep)
  obtain ⟨hhead, hnodup⟩ := List.nodup_cons.mp h.2
  have hne : e ≠ head := fun heq => hhead (heq ▸ he)
  cases after with
  | nil =>
    have hf : f = head := hf
    refine ⟨?_, hf⟩
    obtain ⟨first, hstart, hwalk⟩ := circle_first h
    rw [hf, hstart] at hsecond
    have hback := (walk_start hwalk).symm.trans (Option.some_inj.mp hsecond)
    cases before with
    | nil => rfl
    | cons b before =>
      have hb : b = e := hback
      rw [hb] at hnodup
      exact absurd (by simp) (List.nodup_cons.mp hnodup).1
  | cons y ys =>
    have hf : f = y := hf
    have hlater : Walk step head ((head :: (before ++ [e])) ++ y :: ys) head := by
      simpa using h.1
    have hy : step y = some (ys.headD head) := walk_step hlater
    rw [hf, hy] at hsecond
    have hback := Option.some_inj.mp hsecond
    have hafter := (List.nodup_cons.mp (List.nodup_append.mp hnodup).2.1).1
    cases ys with
    | nil => exact absurd hback.symm hne
    | cons z zs =>
      have hz : z = e := hback
      exact absurd (by simp [hz]) hafter

/-- The nodes of a walk are those that a set closed under the step has. -/
theorem walk_subset {S : Finset α} (hclosed : ∀ x y, step x = some y → y ∈ S) {xs : List α}
    {a stop : α} (ha : a ∈ S) (h : Walk step a xs stop) : stop ∈ S ∧ ∀ x ∈ xs, x ∈ S := by
  induction xs generalizing a with
  | nil => exact ⟨h ▸ ha, fun x hx => nomatch hx⟩
  | cons x xs ih =>
    obtain ⟨hfirst, b, hstep, hrest⟩ := h
    obtain ⟨hstop, hxs⟩ := ih (hclosed x b hstep) hrest
    exact ⟨hstop, List.forall_mem_cons.mpr ⟨hfirst ▸ ha, hxs⟩⟩

theorem ends_of_walk {xs : List α} {a b : α} (h : Walk step a xs b) (hends : Ends step b) :
    Ends step a := by
  induction xs generalizing a with
  | nil => exact h ▸ hends
  | cons x xs ih =>
    obtain ⟨rfl, c, hstep, hrest⟩ := h
    exact .next hstep (ih hrest)

theorem not_comesBack_of_ends {a : α} (h : Ends step a) : ¬ComesBack step a := by
  rintro ⟨xs, b, hwalk, hb⟩
  induction h generalizing xs b with
  | stop hstop =>
    cases xs with
    | nil => cases hb
    | cons x xs =>
      obtain ⟨rfl, c, hstep, -⟩ := hwalk
      rw [hstop] at hstep
      cases hstep
  | @next a c hstep _ ih =>
    cases xs with
    | nil => cases hb
    | cons x xs =>
      obtain ⟨rfl, c', hstep', hrest⟩ := hwalk
      have hsame : c' = c := Option.some_inj.mp (hstep'.symm.trans hstep)
      rw [hsame] at hrest
      rcases List.mem_cons.mp hb with rfl | hb
      · -- the walk is back at its first node, so one step later at its second
        refine ih (xs ++ [b]) c (walk_snoc hrest hstep) ?_
        cases xs with
        | nil =>
          have hcb : c = b := hrest
          rw [hcb]
          exact List.mem_cons_self
        | cons y ys => exact hrest.1 ▸ List.mem_cons_self
      · exact ih xs b hrest hb

/-- A walk that neither ends nor comes back has walks of every length without a node
twice. -/
theorem exists_walk_nodup {a : α} (hends : ¬Ends step a) (hback : ¬ComesBack step a) (n : Nat) :
    ∃ xs b, Walk step a xs b ∧ xs.length = n ∧ (xs ++ [b]).Nodup := by
  induction n with
  | zero => exact ⟨[], a, rfl, rfl, List.nodup_singleton a⟩
  | succ n ih =>
    obtain ⟨xs, b, hwalk, hlength, hnodup⟩ := ih
    cases hstep : step b with
    | none => exact absurd (ends_of_walk hwalk (.stop hstep)) hends
    | some c =>
      have hnext := walk_snoc hwalk hstep
      have hfresh : c ∉ xs ++ [b] := fun hc => hback ⟨_, c, hnext, hc⟩
      refine ⟨xs ++ [b], c, hnext, by simp [hlength], ?_⟩
      exact List.nodup_append.mpr ⟨hnodup, List.nodup_singleton c,
        fun x hx y hy heq => hfresh (List.mem_singleton.mp hy ▸ heq ▸ hx)⟩

theorem ends_iff_not_comesBack {S : Finset α} {a : α}
    (hclosed : ∀ x y, step x = some y → y ∈ S) (ha : a ∈ S) :
    Ends step a ↔ ¬ComesBack step a := by
  refine ⟨not_comesBack_of_ends, fun hback => ?_⟩
  by_contra hends
  obtain ⟨xs, b, hwalk, hlength, hnodup⟩ := exists_walk_nodup hends hback S.card
  obtain ⟨hb, hxs⟩ := walk_subset hclosed ha hwalk
  classical
  have hsubset : (xs ++ [b]).toFinset ⊆ S := by
    intro x hx
    rcases List.mem_append.mp (List.mem_toFinset.mp hx) with hx | hx
    · exact hxs x hx
    · exact List.mem_singleton.mp hx ▸ hb
  have hcard := Finset.card_le_card hsubset
  rw [List.toFinset_card_of_nodup hnodup, List.length_append, hlength, List.length_singleton]
    at hcard
  omega

end Walks
