import Mathlib.Data.List.Basic
import Mathlib.Order.Bounds.Basic

/-!
The positions of a range at which something holds, in order: what a search that
is resumed behind each hit comes to.
-/

namespace Positions

/-- The positions from `first` on and below `stop` at which `p` holds. -/
def positions (p : Nat → Bool) (first stop : Nat) : List Nat :=
  (List.range' first (stop - first)).filter p

variable {p : Nat → Bool} {first stop : Nat}

theorem positions_end (h : stop ≤ first) : positions p first stop = [] := by
  rw [positions, Nat.sub_eq_zero_of_le h]
  rfl

theorem positions_hit (hlt : first < stop) (hp : p first = true) :
    positions p first stop = first :: positions p (first + 1) stop := by
  have hlength : stop - first = stop - (first + 1) + 1 := by omega
  rw [positions, hlength, List.range'_succ, List.filter_cons_of_pos hp]
  rfl

theorem positions_miss (hp : p first ≠ true) :
    positions p first stop = positions p (first + 1) stop := by
  rcases Nat.lt_or_ge first stop with hlt | hge
  · have hlength : stop - first = stop - (first + 1) + 1 := by omega
    rw [positions, hlength, List.range'_succ, List.filter_cons_of_neg hp]
    rfl
  · rw [positions_end hge, positions_end (Nat.le_succ_of_le hge)]

theorem mem_positions {k : Nat} :
    k ∈ positions p first stop ↔ first ≤ k ∧ k < stop ∧ p k = true := by
  rw [positions, List.mem_filter, List.mem_range'_1, and_assoc]
  constructor
  · rintro ⟨hle, hlt, hp⟩
    exact ⟨hle, by omega, hp⟩
  · rintro ⟨hle, hlt, hp⟩
    exact ⟨hle, by omega, hp⟩

theorem positions_increasing : (positions p first stop).Pairwise (· < ·) :=
  List.Pairwise.filter _ List.pairwise_lt_range'

theorem positions_tail {k : Nat} {rest : List Nat} (h : positions p first stop = k :: rest) :
    positions p (k + 1) stop = rest := by
  generalize hn : stop - first = n
  induction n generalizing first with
  | zero =>
    rw [positions_end (Nat.le_of_sub_eq_zero hn)] at h
    cases h
  | succ n ih =>
    cases hp : p first with
    | true =>
      rw [positions_hit (by omega) hp] at h
      cases h
      rfl
    | false =>
      rw [positions_miss (by rw [hp]; exact Bool.false_ne_true)] at h
      exact ih h (by omega)

theorem positions_length_le : (positions p first stop).length ≤ stop - first := by
  have hfilter := List.length_filter_le p (List.range' first (stop - first))
  rwa [List.length_range'] at hfilter

theorem find?_increasing {α : Type*} [Preorder α] {l : List α} (hl : l.Pairwise (· < ·))
    {q : α → Bool} {a : α} (h : l.find? q = some a) : IsLeast {b | b ∈ l ∧ q b = true} a := by
  refine ⟨⟨List.mem_of_find?_eq_some h, List.find?_some h⟩, ?_⟩
  rintro b ⟨hb, hq⟩
  induction l with
  | nil => cases hb
  | cons first rest ih =>
    rw [List.pairwise_cons] at hl
    cases hfirst : q first with
    | true =>
      rw [List.find?_cons_of_pos hfirst, Option.some.injEq] at h
      subst h
      rcases List.mem_cons.mp hb with rfl | hrest
      · exact le_refl b
      · exact le_of_lt (hl.1 b hrest)
    | false =>
      rw [List.find?_cons_of_neg (Bool.not_eq_true _ ▸ hfirst)] at h
      rcases List.mem_cons.mp hb with rfl | hrest
      · exact absurd (hq.symm.trans hfirst) Bool.false_ne_true.symm
      · exact ih hl.2 h hrest

end Positions
