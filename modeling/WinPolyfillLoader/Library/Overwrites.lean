import Mathlib.Data.List.Basic

/-!
A map that a list of writers changes one after the other: each gives its value
to the keys that it covers, so a key has the value of the last writer that
covers it, and of none the value that it had.
-/

namespace Overwrites

variable {κ ω ν : Type} (covers : ω → κ → Bool) (value : ω → ν)

def overwrite (m : κ → ν) (x : ω) : κ → ν := fun k => if covers x k then value x else m k

variable {covers value}

theorem overwrite_covered {m : κ → ν} {x : ω} {k : κ} (h : covers x k = true) :
    overwrite covers value m x k = value x := if_pos h

/-- What holds of the value at a key goes on to hold while each writer that covers
the key has such a value. -/
theorem foldl_keeps {P : ν → Prop} {xs : List ω} {m : κ → ν} {k : κ} (hm : P (m k))
    (hxs : ∀ x ∈ xs, covers x k = true → P (value x)) :
    P (xs.foldl (overwrite covers value) m k) := by
  induction xs generalizing m with
  | nil => exact hm
  | cons x xs ih =>
    apply ih
    · unfold overwrite
      split
      · rename_i hcovers
        exact hxs x List.mem_cons_self hcovers
      · exact hm
    · exact fun y hy => hxs y (List.mem_cons_of_mem x hy)

theorem foldl_uncovered {xs : List ω} {m : κ → ν} {k : κ} (h : ∀ x ∈ xs, covers x k ≠ true) :
    xs.foldl (overwrite covers value) m k = m k := by
  apply foldl_keeps (P := (· = m k)) rfl
  exact fun x hx hcovers => absurd hcovers (h x hx)

/-- A key has what a writer gives it, unless a later one gives it something else. -/
theorem foldl_covered {P : ν → Prop} {before after : List ω} {x : ω} {m : κ → ν} {k : κ}
    (hcovers : covers x k = true) (hx : P (value x))
    (hafter : ∀ y ∈ after, covers y k = true → P (value y)) :
    P ((before ++ x :: after).foldl (overwrite covers value) m k) := by
  rw [List.foldl_append, List.foldl_cons]
  apply foldl_keeps _ hafter
  rw [overwrite_covered hcovers]
  exact hx

end Overwrites
