import WinPolyfillLoader.Library.Memory

/-!
Strings with a NUL at their end, against fields of a fixed size that need none. A
scan for the NUL reads the field, and where it finds none there goes on behind it.
-/

namespace ByteMemory

/-- The characters of a field of `n` bytes, up to its first NUL. -/
def fieldString (m : Bytes) : Nat → Nat → List UInt8
  | 0, _ => []
  | n + 1, a => if m a = 0 then [] else m a :: fieldString m n (a + 1)

theorem fieldString_length_le (m : Bytes) (n a : Nat) : (fieldString m n a).length ≤ n := by
  induction n generalizing a with
  | zero => exact Nat.le_refl 0
  | succ n ih =>
    rw [fieldString]
    split
    · exact Nat.zero_le _
    · rw [List.length_cons]
      exact Nat.succ_le_succ (ih (a + 1))

/-- A scan reads a field of `n` bytes, and goes on behind it if it has no NUL. -/
theorem loadString_field {mapped : Nat → Bool} {m : Bytes} {n k a : Nat}
    (hmapped : ∀ j < n, mapped (a + j) = true) :
    loadString mapped m (n + k) a =
      if (fieldString m n a).length < n then some (fieldString m n a)
      else (loadString mapped m k (a + n)).map (fieldString m n a ++ ·) := by
  induction n generalizing a with
  | zero =>
    rw [if_neg (Nat.not_lt_zero _), Nat.zero_add, Nat.add_zero]
    exact Option.map_id'.symm
  | succ n ih =>
    have hfirst : mapped a = true := hmapped 0 (Nat.succ_pos n)
    have hrest : ∀ j < n, mapped (a + 1 + j) = true := by
      intro j hj
      rw [Nat.add_assoc, Nat.add_comm 1 j]
      exact hmapped (j + 1) (by omega)
    rw [Nat.succ_add, loadString, if_pos hfirst, fieldString]
    split
    · exact (if_pos (Nat.succ_pos n)).symm
    · rw [ih hrest, List.length_cons, Nat.add_assoc a 1 n, Nat.add_comm 1 n]
      split
      · rename_i hshort
        rw [if_pos (Nat.succ_lt_succ hshort)]
        rfl
      · rename_i hfull
        rw [if_neg fun h => hfull (Nat.lt_of_succ_lt_succ h), Option.map_map]
        rfl

theorem loadString_isSome_iff {mapped : Nat → Bool} {m : Bytes} {n a : Nat} :
    (loadString mapped m n a).isSome = true ↔
      ∃ k ≤ n, (∀ j < k, mapped (a + j) = true) ∧
        (k < n → mapped (a + k) = true ∧ m (a + k) = 0) := by
  induction n generalizing a with
  | zero =>
    apply iff_of_true rfl
    exact ⟨0, Nat.le_refl 0, fun j hj => absurd hj (Nat.not_lt_zero j),
      fun h => absurd h (Nat.lt_irrefl 0)⟩
  | succ n ih =>
    rw [loadString]
    split
    · rename_i hmapped
      split
      · rename_i hzero
        apply iff_of_true rfl
        exact ⟨0, Nat.zero_le _, fun j hj => absurd hj (Nat.not_lt_zero j), fun _ => ⟨hmapped, hzero⟩⟩
      · rename_i hne
        rw [Option.isSome_map, ih]
        constructor
        · rintro ⟨k, hk, hscan, hend⟩
          refine ⟨k + 1, Nat.succ_le_succ hk, ?_, ?_⟩
          · intro j hj
            cases j with
            | zero => exact hmapped
            | succ j =>
              have := hscan j (by omega)
              rwa [Nat.add_assoc, Nat.add_comm 1 j] at this
          · intro hlt
            have := hend (by omega)
            rwa [Nat.add_assoc, Nat.add_comm 1 k] at this
        · rintro ⟨k, hk, hscan, hend⟩
          cases k with
          | zero => exact absurd (hend (Nat.succ_pos n)).2 hne
          | succ k =>
            refine ⟨k, Nat.le_of_succ_le_succ hk, ?_, ?_⟩
            · intro j hj
              rw [Nat.add_assoc, Nat.add_comm 1 j]
              exact hscan (j + 1) (by omega)
            · intro hlt
              rw [Nat.add_assoc, Nat.add_comm 1 k]
              exact hend (by omega)
    · rename_i hmapped
      apply iff_of_false Bool.false_ne_true
      rintro ⟨k, _, hscan, hend⟩
      cases k with
      | zero => exact hmapped (hend (Nat.succ_pos n)).1
      | succ k => exact hmapped (hscan 0 (Nat.succ_pos k))

/-- The memory holds a string and its NUL at an address. -/
def StringAt (m : Bytes) : Nat → List UInt8 → Prop
  | a, [] => m a = 0
  | a, c :: cs => m a = c ∧ c ≠ 0 ∧ StringAt m (a + 1) cs

instance decidableStringAt (m : Bytes) : ∀ (a : Nat) (s : List UInt8), Decidable (StringAt m a s)
  | _, [] => inferInstanceAs (Decidable (_ = _))
  | a, _ :: cs =>
    have := decidableStringAt m (a + 1) cs
    inferInstanceAs (Decidable (_ ∧ _ ∧ _))

theorem stringAt_unique {m : Bytes} {a : Nat} {s t : List UInt8} (hs : StringAt m a s)
    (ht : StringAt m a t) : s = t := by
  induction s generalizing a t with
  | nil =>
    cases t with
    | nil => rfl
    | cons d ds => exact absurd (ht.1.symm.trans hs) ht.2.1
  | cons c cs ih =>
    cases t with
    | nil => exact absurd (hs.1.symm.trans ht) hs.2.1
    | cons d ds => rw [← hs.1, ← ht.1, ih hs.2.2 ht.2.2]

theorem stringAt_congr {m m' : Bytes} {a : Nat} {s : List UInt8} (h : StringAt m a s)
    (hsame : ∀ k, a ≤ k → k < a + (s.length + 1) → m' k = m k) : StringAt m' a s := by
  induction s generalizing a with
  | nil => exact (hsame a (Nat.le_refl a) (by simp)).trans h
  | cons c cs ih =>
    obtain ⟨hfirst, hne, hrest⟩ := h
    refine ⟨(hsame a (Nat.le_refl a) (by simp)).trans hfirst, hne, ih hrest ?_⟩
    intro k hk hkn
    rw [List.length_cons] at hsame
    exact hsame k (by omega) (by omega)

end ByteMemory
