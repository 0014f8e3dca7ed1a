import Mathlib.Tactic.TypeStar

/-!
Lists in lexicographic order, of which only a number of the first elements is compared.
-/

namespace Lexicographic

variable {α : Type*}

theorem compareLex_of_take {cmp : α → α → Ordering} {n : Nat} {a b : List α}
    (h : (a.take n).compareLex cmp (b.take n) ≠ .eq) :
    a.compareLex cmp b = (a.take n).compareLex cmp (b.take n) := by
  induction n generalizing a b with
  | zero => exact absurd List.compareLex_nil_nil h
  | succ n ih =>
    cases a with
    | nil =>
      cases b with
      | nil => rfl
      | cons y b => rw [List.take_nil, List.take_succ_cons, List.compareLex_nil_cons,
          List.compareLex_nil_cons]
    | cons x a =>
      cases b with
      | nil => rw [List.take_nil, List.take_succ_cons, List.compareLex_cons_nil,
          List.compareLex_cons_nil]
      | cons y b =>
        rw [List.take_succ_cons, List.take_succ_cons, List.compareLex_cons_cons] at h ⊢
        rw [List.compareLex_cons_cons]
        cases hhead : cmp x y with
        | lt => rfl
        | gt => rfl
        | eq =>
          rw [hhead] at h
          exact ih h

variable [Ord α] [Std.LawfulEqOrd α]

/-- The first elements tell the order of lists that are equal or differ in them. -/
theorem compareLex_take_iff (n : Nat) (a b : List α) :
    (a.take n).compareLex compare (b.take n) = a.compareLex compare b ↔
      (a.take n = b.take n → a = b) := by
  have hrefl : ∀ l : List α, l.compareLex compare l = .eq :=
    fun l => Std.ReflOrd.compare_self (a := l)
  have hequal : ∀ {l l' : List α}, l.compareLex compare l' = .eq → l = l' :=
    fun h => Std.LawfulEqOrd.eq_of_compare h
  constructor
  · intro hsame hfirst
    rw [hfirst, hrefl] at hsame
    exact hequal hsame.symm
  · intro hwhole
    by_cases hfirst : a.take n = b.take n
    · rw [hfirst, hwhole hfirst, hrefl, hrefl]
    · exact (compareLex_of_take fun h => hfirst (hequal h)).symm

end Lexicographic
