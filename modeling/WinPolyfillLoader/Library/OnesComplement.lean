import Mathlib.Algebra.BigOperators.Group.List.Basic
import Mathlib.Tactic.Ring

/-!
Sums of digits of base `b` with end-around carry. The sum of some digits is the one
representative of their plain sum modulo `b - 1` among `1 .. b - 1`, or 0 if all digits
are 0; so 0 and `b - 1` are one number with two forms, and a subtraction with
end-around borrow does not always give back the form that it started from.
-/

namespace OnesComplement

def addCarry (b sum digit : Nat) : Nat := (sum + digit) % b + (sum + digit) / b

def subBorrow (b sum digit : Nat) : Nat :=
  if digit ≤ sum then sum - digit else sum + b - digit - 1

/-- The form that a sum of digits has. -/
def normal (b n : Nat) : Nat := if n = 0 then 0 else (n - 1) % (b - 1) + 1

variable {b : Nat}

theorem normal_lt (hb : 2 ≤ b) (n : Nat) : normal b n < b := by
  unfold normal
  split
  · omega
  · have hmod := Nat.mod_lt (n - 1) (by omega : 0 < b - 1)
    omega

theorem normal_of_lt {n : Nat} (h : n < b) : normal b n = n := by
  unfold normal
  split
  · omega
  · rw [Nat.mod_eq_of_lt (by omega)]
    omega

theorem normal_add_base {n : Nat} (hn : n ≠ 0) : normal b (n + (b - 1)) = normal b n := by
  have hsum : n + (b - 1) - 1 = n - 1 + (b - 1) := by omega
  rw [normal, normal, if_neg (by omega), if_neg hn, hsum, Nat.add_mod_right]

theorem normal_add_multiple {n : Nat} (hn : n ≠ 0) (k : Nat) :
    normal b (n + (b - 1) * k) = normal b n := by
  induction k with
  | zero => rfl
  | succ k ih => rw [Nat.mul_succ, ← Nat.add_assoc, normal_add_base (by omega), ih]

theorem normal_add_normal (n m : Nat) : normal b (normal b n + m) = normal b (n + m) := by
  rcases Nat.eq_zero_or_pos n with rfl | hpos
  · rfl
  · have hne : n ≠ 0 := Nat.ne_of_gt hpos
    have hsplit : normal b n + m + (b - 1) * ((n - 1) / (b - 1)) = n + m := by
      rw [normal, if_neg hne]
      have hdiv := Nat.mod_add_div (n - 1) (b - 1)
      omega
    rw [← hsplit, normal_add_multiple]
    rw [normal, if_neg hne]
    omega

theorem addCarry_eq {sum digit : Nat} (hsum : sum < b) (hdigit : digit < b) :
    addCarry b sum digit = normal b (sum + digit) := by
  rcases Nat.lt_or_ge (sum + digit) b with hlt | hge
  · rw [addCarry, Nat.mod_eq_of_lt hlt, Nat.div_eq_of_lt hlt, normal_of_lt hlt, Nat.add_zero]
  · have hmod : (sum + digit) % b = sum + digit - b := by
      rw [Nat.mod_eq_sub_mod hge, Nat.mod_eq_of_lt (by omega)]
    have hdiv : (sum + digit) / b = 1 := by
      rw [Nat.div_eq_iff (by omega)]
      omega
    have hsplit : sum + digit = sum + digit - b + 1 + (b - 1) := by omega
    rw [addCarry, hmod, hdiv, hsplit, normal_add_base (by omega), ← hsplit, normal_of_lt (by omega)]

theorem foldl_addCarry (hb : 2 ≤ b) {digits : List Nat} (hdigits : ∀ d ∈ digits, d < b)
    (sum : Nat) :
    digits.foldl (addCarry b) (normal b sum) = normal b (sum + digits.sum) := by
  induction digits generalizing sum with
  | nil => rfl
  | cons d digits ih =>
    rw [List.foldl_cons, addCarry_eq (normal_lt hb sum) (hdigits d List.mem_cons_self),
      normal_add_normal, ih fun e he => hdigits e (List.mem_cons_of_mem d he), List.sum_cons,
      Nat.add_assoc]

/-- Taking a digit away from a sum leaves the residue of the others; their form only if
the digit is 0. -/
theorem subBorrow_normal {rest digit : Nat} (hb : 2 ≤ b) (hdigit : digit < b) :
    subBorrow b (normal b (rest + digit)) digit =
      if digit = 0 then normal b rest else rest % (b - 1) := by
  split
  · rename_i hzero
    rw [hzero, Nat.add_zero, subBorrow, if_pos (Nat.zero_le _), Nat.sub_zero]
  · rename_i hne
    have hresidue := Nat.mod_lt rest (by omega : 0 < b - 1)
    have hsplit : rest + digit = rest % (b - 1) + digit + (b - 1) * (rest / (b - 1)) := by
      have hdiv := Nat.mod_add_div rest (b - 1)
      omega
    rw [hsplit, normal_add_multiple (by omega), subBorrow]
    rcases Nat.lt_or_ge (rest % (b - 1) + digit) b with hlt | hge
    · rw [normal_of_lt hlt, if_pos (by omega)]
      omega
    · have hwrap : rest % (b - 1) + digit = rest % (b - 1) + digit - (b - 1) + (b - 1) := by omega
      rw [hwrap, normal_add_base (by omega), normal_of_lt (by omega), if_neg (by omega)]
      omega

theorem subBorrow_mod {rest digit : Nat} (hb : 2 ≤ b) (hdigit : digit < b) :
    subBorrow b ((rest + digit) % (b - 1)) digit = rest % (b - 1) := by
  have hresidue := Nat.mod_lt rest (by omega : 0 < b - 1)
  have hsum : (rest + digit) % (b - 1) = (rest % (b - 1) + digit) % (b - 1) := by
    rw [Nat.mod_add_mod]
  rw [hsum, subBorrow]
  rcases Nat.lt_or_ge (rest % (b - 1) + digit) (b - 1) with hlt | hge
  · rw [Nat.mod_eq_of_lt hlt, if_pos (by omega)]
    omega
  · rw [Nat.mod_eq_sub_mod hge]
    rcases Nat.lt_or_ge (rest % (b - 1) + digit - (b - 1)) (b - 1) with hsmall | hlarge
    · rw [Nat.mod_eq_of_lt hsmall]
      split <;> omega
    · omega

theorem subBorrow_pair {rest low high : Nat} (hb : 2 ≤ b) (hlow : low < b) (hhigh : high < b) :
    subBorrow b (subBorrow b (normal b (rest + low + high)) low) high =
      if low = 0 ∧ high = 0 then normal b rest else rest % (b - 1) := by
  have hsum : rest + low + high = rest + high + low := Nat.add_right_comm rest low high
  rw [hsum, subBorrow_normal hb hlow]
  rcases Decidable.em (low = 0) with hzero | hne
  · rw [if_pos hzero, subBorrow_normal hb hhigh]
    simp only [hzero, true_and]
  · rw [if_neg hne, subBorrow_mod hb hhigh, if_neg fun h => hne h.1]

/-- The form and the residue differ on the positive multiples of `b - 1`. -/
theorem normal_eq_mod_iff (hb : 2 ≤ b) (n : Nat) :
    normal b n = n % (b - 1) ↔ n = 0 ∨ n % (b - 1) ≠ 0 := by
  rcases Nat.eq_zero_or_pos n with rfl | hpos
  · simp [normal]
  · have hresidue := Nat.mod_lt n (by omega : 0 < b - 1)
    have hsplit := Nat.mod_add_div n (b - 1)
    rcases Nat.eq_zero_or_pos (n % (b - 1)) with hzero | hnonzero
    · refine iff_of_false ?_ (by omega)
      rw [hzero, normal, if_neg (Nat.ne_of_gt hpos)]
      omega
    · refine iff_of_true ?_ (Or.inr (Nat.ne_of_gt hnonzero))
      rw [← hsplit, normal_add_multiple (Nat.ne_of_gt hnonzero), normal_of_lt (by omega), hsplit]

theorem normal_of_mod_eq_zero {n : Nat} (hn : n ≠ 0) (hzero : n % (b - 1) = 0) :
    normal b n = b - 1 := by
  obtain ⟨k, rfl⟩ := Nat.dvd_of_mod_eq_zero hzero
  cases k with
  | zero => exact absurd (Nat.mul_zero _) hn
  | succ k =>
    have hbase : b - 1 ≠ 0 := fun h => hn (by rw [h, Nat.zero_mul])
    rw [Nat.mul_succ, Nat.add_comm, normal_add_multiple hbase, normal_of_lt (by omega)]

end OnesComplement
