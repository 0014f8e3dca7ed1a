import Mathlib.Data.Nat.Basic
import Mathlib.Tactic.Ring

/-!
Byte memories with little-endian integers. A memory is a function from
addresses to bytes; integers of any width are read from and written to it, and
the lemmas say which bytes an operation depends on and which it leaves alone.
-/

namespace ByteMemory

abbrev Bytes := Nat → UInt8

/-- The little-endian integer of width `n` at address `a`. -/
def readLE (m : Bytes) (a : Nat) : Nat → Nat
  | 0 => 0
  | n + 1 => (m a).toNat + 256 * readLE m (a + 1) n

/-- Stores the low `n` bytes of `v` at address `a`. -/
def writeLE (m : Bytes) (a n v : Nat) : Bytes :=
  fun k => if a ≤ k ∧ k < a + n then UInt8.ofNat (v / 256 ^ (k - a)) else m k

/-- Copies `n` bytes at `src` of one memory to `dst` of another. -/
def blit (m : Bytes) (dst : Nat) (source : Bytes) (src n : Nat) : Bytes :=
  fun k => if dst ≤ k ∧ k < dst + n then source (k - dst + src) else m k

theorem readLE_congr {m m' : Bytes} {a n : Nat} (h : ∀ k, a ≤ k → k < a + n → m k = m' k) :
    readLE m a n = readLE m' a n := by
  induction n generalizing a with
  | zero => rfl
  | succ n ih =>
    have hhead : m a = m' a := h a (Nat.le_refl a) (by omega)
    have htail : readLE m (a + 1) n = readLE m' (a + 1) n :=
      ih (fun k hk hkn => h k (by omega) (by omega))
    simp only [readLE, hhead, htail]

theorem readLE_lt (m : Bytes) (a n : Nat) : readLE m a n < 256 ^ n := by
  induction n generalizing a with
  | zero => simp [readLE]
  | succ n ih =>
    have hhead : (m a).toNat < 256 := UInt8.toNat_lt (m a)
    have htail := ih (a + 1)
    rw [readLE, Nat.pow_succ]
    omega

theorem writeLE_outside (m : Bytes) {a n v k : Nat} (h : k < a ∨ a + n ≤ k) :
    writeLE m a n v k = m k := by
  have hout : ¬ (a ≤ k ∧ k < a + n) := by omega
  rw [writeLE, if_neg hout]

theorem writeLE_inside (m : Bytes) {a n v k : Nat} (ha : a ≤ k) (hk : k < a + n) :
    writeLE m a n v k = UInt8.ofNat (v / 256 ^ (k - a)) := by
  rw [writeLE, if_pos ⟨ha, hk⟩]

theorem blit_outside (m : Bytes) {dst src n k : Nat} {source : Bytes} (h : k < dst ∨ dst + n ≤ k) :
    blit m dst source src n k = m k := by
  have hout : ¬ (dst ≤ k ∧ k < dst + n) := by omega
  rw [blit, if_neg hout]

theorem blit_inside (m : Bytes) {dst src n k : Nat} {source : Bytes} (hd : dst ≤ k)
    (hk : k < dst + n) : blit m dst source src n k = source (k - dst + src) := by
  rw [blit, if_pos ⟨hd, hk⟩]

theorem readLE_writeLE (m : Bytes) (a n v : Nat) :
    readLE (writeLE m a n v) a n = v % 256 ^ n := by
  induction n generalizing m a v with
  | zero => simp [readLE, Nat.mod_one]
  | succ n ih =>
    have hhead : (writeLE m a (n + 1) v a).toNat = v % 256 := by
      rw [writeLE_inside m (Nat.le_refl a) (by omega), Nat.sub_self, Nat.pow_zero, Nat.div_one]
      simp
    have htail : readLE (writeLE m a (n + 1) v) (a + 1) n =
        readLE (writeLE m (a + 1) n (v / 256)) (a + 1) n := by
      apply readLE_congr
      intro k hk hkn
      obtain ⟨j, rfl⟩ := Nat.exists_eq_add_of_le hk
      rw [writeLE_inside m (by omega) (by omega), writeLE_inside m hk hkn]
      have hj : a + 1 + j - a = j + 1 := by omega
      rw [hj, Nat.add_sub_cancel_left, Nat.div_div_eq_div_mul, Nat.pow_succ, Nat.mul_comm 256]
    rw [readLE, hhead, htail, ih, Nat.pow_succ, Nat.mul_comm (256 ^ n) 256, Nat.mod_mul]

/-- A write does not change an integer that it does not overlap. -/
theorem readLE_writeLE_disjoint (m : Bytes) {a n v b k : Nat} (h : b + k ≤ a ∨ a + n ≤ b) :
    readLE (writeLE m a n v) b k = readLE m b k := by
  apply readLE_congr
  intro j hj hjk
  exact writeLE_outside m (by omega)

def Apart (a n b k : Nat) : Prop := a + n ≤ b ∨ b + k ≤ a

instance (a n b k : Nat) : Decidable (Apart a n b k) := inferInstanceAs (Decidable (_ ∨ _))

/-- Changes the integers at some ranges, each by a function of its width. -/
def modifyAll (f : Nat → Nat → Nat) (m : Bytes) (ranges : List (Nat × Nat)) : Bytes :=
  ranges.foldl (fun m r => writeLE m r.1 r.2 (f r.2 (readLE m r.1 r.2))) m

theorem modifyAll_append (f : Nat → Nat → Nat) (m : Bytes) (first second : List (Nat × Nat)) :
    modifyAll f m (first ++ second) = modifyAll f (modifyAll f m first) second :=
  List.foldl_append

theorem modifyAll_outside (f : Nat → Nat → Nat) {m : Bytes} {ranges : List (Nat × Nat)} {k : Nat}
    (h : ∀ r ∈ ranges, k < r.1 ∨ r.1 + r.2 ≤ k) : modifyAll f m ranges k = m k := by
  induction ranges generalizing m with
  | nil => rfl
  | cons r ranges ih =>
    rw [modifyAll, List.foldl_cons, ← modifyAll, ih fun r' hr' => h r' (by simp [hr'])]
    exact writeLE_outside m (h r (by simp))

theorem modifyAll_inside (f : Nat → Nat → Nat) {m : Bytes} {ranges : List (Nat × Nat)}
    {r : Nat × Nat} (hapart : ranges.Pairwise fun r r' => Apart r.1 r.2 r'.1 r'.2)
    (hr : r ∈ ranges) :
    readLE (modifyAll f m ranges) r.1 r.2 = f r.2 (readLE m r.1 r.2) % 256 ^ r.2 := by
  induction ranges generalizing m with
  | nil => cases hr
  | cons first ranges ih =>
    obtain ⟨hfirst, hrest⟩ := List.pairwise_cons.mp hapart
    rw [modifyAll, List.foldl_cons, ← modifyAll]
    rcases List.mem_cons.mp hr with rfl | hmem
    · rw [← readLE_writeLE m r.1 r.2]
      apply readLE_congr
      intro k hk hkn
      apply modifyAll_outside
      intro r' hr'
      have hr'' := hfirst r' hr'
      unfold Apart at hr''
      omega
    · have hsame : readLE (writeLE m first.1 first.2 (f first.2 (readLE m first.1 first.2)))
          r.1 r.2 = readLE m r.1 r.2 :=
        readLE_writeLE_disjoint m (Or.symm (hfirst r hmem))
      rw [ih hrest hmem, hsame]

theorem readLE_eq {m m' : Bytes} {a a' n : Nat} (h : ∀ j < n, m (a + j) = m' (a' + j)) :
    readLE m a n = readLE m' a' n := by
  induction n generalizing a a' with
  | zero => rfl
  | succ n ih =>
    have hhead : m a = m' a' := h 0 (by omega)
    have htail : readLE m (a + 1) n = readLE m' (a' + 1) n := by
      apply ih
      intro j hj
      rw [Nat.add_assoc, Nat.add_assoc, Nat.add_comm 1 j]
      exact h (j + 1) (by omega)
    simp only [readLE, hhead, htail]

theorem readLE_eq_iff {m m' : Bytes} {a a' n : Nat} :
    readLE m a n = readLE m' a' n ↔ ∀ j < n, m (a + j) = m' (a' + j) := by
  refine ⟨?_, readLE_eq⟩
  induction n generalizing a a' with
  | zero => exact fun _ j hj => absurd hj (Nat.not_lt_zero j)
  | succ n ih =>
    intro h j hj
    have hhead : (m a).toNat < 256 := UInt8.toNat_lt (m a)
    have hhead' : (m' a').toNat < 256 := UInt8.toNat_lt (m' a')
    rw [readLE, readLE] at h
    cases j with
    | zero => exact UInt8.toNat_inj.mp (by simp only [Nat.add_zero]; omega)
    | succ j =>
      have htail := ih (by omega : readLE m (a + 1) n = readLE m' (a' + 1) n) j (by omega)
      have hshift : ∀ b, b + 1 + j = b + (j + 1) := by omega
      rwa [hshift, hshift] at htail

theorem blit_nothing (m : Bytes) (dst : Nat) (source : Bytes) (src : Nat) :
    blit m dst source src 0 = m := by
  funext k
  exact blit_outside m (by omega)

/-- Every byte of the range is mapped. -/
def accessible (mapped : Nat → Bool) (a n : Nat) : Bool :=
  (List.range n).all fun k => mapped (a + k)

/-- A read, or `none` for an access violation. -/
def load (mapped : Nat → Bool) (m : Bytes) (a n : Nat) : Option Nat :=
  if accessible mapped a n then some (readLE m a n) else none

/-- A write, or `none` for an access violation. -/
def store (mapped : Nat → Bool) (m : Bytes) (a n v : Nat) : Option Bytes :=
  if accessible mapped a n then some (writeLE m a n v) else none

/-- The bytes before the next NUL, at most `n` of them. -/
def loadString (mapped : Nat → Bool) (m : Bytes) : Nat → Nat → Option (List UInt8)
  | 0, _ => some []
  | n + 1, a =>
    if mapped a then
      if m a = 0 then some [] else (loadString mapped m n (a + 1)).map (m a :: ·)
    else none

theorem accessible_add (mapped : Nat → Bool) (a n k : Nat) :
    accessible mapped a (n + k) = (accessible mapped a n && accessible mapped (a + n) k) := by
  unfold accessible
  rw [List.range_add, List.all_append, List.all_map]
  congr 2
  funext j
  simp [Nat.add_assoc]

theorem load_congr {mapped : Nat → Bool} {m m' : Bytes} {a n : Nat}
    (h : ∀ k, a ≤ k → k < a + n → m k = m' k) : load mapped m a n = load mapped m' a n := by
  rw [load, load, readLE_congr h]

theorem loadString_congr {mapped : Nat → Bool} {m m' : Bytes} {n a : Nat} {s : List UInt8}
    (hs : loadString mapped m n a = some s) (h : ∀ k, a ≤ k → k < a + (s.length + 1) → m k = m' k) :
    loadString mapped m' n a = some s := by
  induction n generalizing a s with
  | zero => exact hs
  | succ n ih =>
    have hhead : m a = m' a := h a (Nat.le_refl a) (by omega)
    unfold loadString at hs ⊢
    split at hs
    · next hmapped =>
      rw [if_pos hmapped, ← hhead]
      split at hs
      · next hzero => rw [if_pos hzero, hs]
      · next hzero =>
        obtain ⟨rest, hrest, rfl⟩ := Option.map_eq_some_iff.mp hs
        have htail := ih hrest (fun k hk hkn => h k (by omega) (by
          rw [List.length_cons]
          omega))
        rw [if_neg hzero, htail]
        rfl
    · cases hs

end ByteMemory
