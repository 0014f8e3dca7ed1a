import Mathlib.Data.List.Sort
import Mathlib.Data.List.Basic
import Mathlib.Data.List.InsertIdx

/-!
Arrays with a count. An array is a function from positions, of which the
positions `s, …, n - 1` are in use; an insertion shifts the tail with one
overlapping move and a removal shifts it back. The lemmas say what the two
moves and the linear search in front of them do to the list of used elements.
-/

namespace CountedArray

variable {α : Type*}

/-- The elements in use, in position order. -/
def segment (a : Nat → α) (s n : Nat) : List α := (List.range' s (n - s)).map a

/-- One overlapping move of `len` elements: the source is read as it was
before the move. -/
def moveRange (a : Nat → α) (dst src len : Nat) : Nat → α :=
  fun k => if dst ≤ k ∧ k < dst + len then a (k - dst + src) else a k

/-- `for (; fuel; --fuel, ++i) if (p(i)) break;`, returning `i`. -/
def scan (p : Nat → Bool) : Nat → Nat → Nat
  | 0, i => i
  | fuel + 1, i => if p i then i else scan p fuel (i + 1)

@[simp] theorem moveRange_zero (a : Nat → α) (dst src : Nat) : moveRange a dst src 0 = a := by
  funext k
  have hempty : ¬ (dst ≤ k ∧ k < dst + 0) := by omega
  rw [moveRange, if_neg hempty]

theorem moveRange_below (a : Nat → α) {dst src len k : Nat} (h : k < dst) :
    moveRange a dst src len k = a k := by
  have hbelow : ¬ (dst ≤ k ∧ k < dst + len) := by omega
  rw [moveRange, if_neg hbelow]

theorem moveRange_inside (a : Nat → α) {dst src len k : Nat} (hk : dst ≤ k)
    (hlen : k < dst + len) : moveRange a dst src len k = a (k - dst + src) := by
  rw [moveRange, if_pos ⟨hk, hlen⟩]

theorem segment_of_le (a : Nat → α) {s n : Nat} (h : n ≤ s) : segment a s n = [] := by
  simp [segment, Nat.sub_eq_zero_of_le h]

theorem segment_cons (a : Nat → α) {s n : Nat} (h : s < n) :
    segment a s n = a s :: segment a (s + 1) n := by
  have hlen : n - s = (n - (s + 1)) + 1 := by omega
  unfold segment
  rw [hlen, List.range'_succ, List.map_cons]

@[simp] theorem length_segment (a : Nat → α) (s n : Nat) : (segment a s n).length = n - s := by
  simp [segment]

theorem mem_segment {a : Nat → α} {s n : Nat} {x : α} :
    x ∈ segment a s n ↔ ∃ k, s ≤ k ∧ k < n ∧ a k = x := by
  simp only [segment, List.mem_map, List.mem_range'_1]
  constructor
  · rintro ⟨k, ⟨hs, hn⟩, rfl⟩
    exact ⟨k, hs, by omega, rfl⟩
  · rintro ⟨k, hs, hn, rfl⟩
    exact ⟨k, ⟨hs, by omega⟩, rfl⟩

theorem segment_congr {a b : Nat → α} {s n : Nat} (h : ∀ k, s ≤ k → k < n → a k = b k) :
    segment a s n = segment b s n := by
  apply List.map_congr_left
  intro k hk
  obtain ⟨hs, hn⟩ := List.mem_range'_1.mp hk
  exact h k hs (by omega)

theorem segment_shift (a : Nat → α) (s n d : Nat) :
    segment (fun k => a (k + d)) s n = segment a (s + d) (n + d) := by
  unfold segment
  rw [Nat.add_sub_add_right, Nat.add_comm s d, ← List.map_add_range', List.map_map]
  apply List.map_congr_left
  intro k _
  simp [Nat.add_comm]

theorem segment_append (a : Nat → α) {s m n : Nat} (hs : s ≤ m) (hn : m ≤ n) :
    segment a s n = segment a s m ++ segment a m n := by
  obtain ⟨j, rfl⟩ := Nat.exists_eq_add_of_le hs
  obtain ⟨k, rfl⟩ := Nat.exists_eq_add_of_le hn
  have hall : s + j + k - s = j + k := by omega
  have hfront : s + j - s = j := by omega
  have hback : s + j + k - (s + j) = k := by omega
  unfold segment
  rw [← List.map_append, hall, hfront, hback, List.range'_append_1]

/-- The insertion move: the tail goes up by one and `e` takes the free place. -/
theorem segment_insert (a : Nat → α) {s i n : Nat} (hs : s ≤ i) (hi : i ≤ n) (e : α) :
    segment (Function.update (moveRange a (i + 1) i (n - i)) i e) s (n + 1) =
      segment a s i ++ e :: segment a i n := by
  rw [segment_append _ hs (by omega : i ≤ n + 1), segment_cons _ (by omega : i < n + 1)]
  have hhead : segment (Function.update (moveRange a (i + 1) i (n - i)) i e) s i =
      segment a s i := by
    apply segment_congr
    intro k _ hki
    rw [Function.update_of_ne (by omega), moveRange_below a (by omega)]
  have htail : segment (Function.update (moveRange a (i + 1) i (n - i)) i e) (i + 1) (n + 1) =
      segment a i n := by
    rw [← segment_shift]
    apply segment_congr
    intro k hik hkn
    rw [Function.update_of_ne (by omega), moveRange_inside a (by omega) (by omega)]
    congr 1
    omega
  rw [hhead, htail, Function.update_self]

/-- The removal move: the tail comes down by one. Moving more than the tail
is harmless to the part in use. -/
theorem segment_remove (a : Nat → α) {s i n len : Nat} (hs : s ≤ i) (hi : i < n)
    (hlen : n - i - 1 ≤ len) :
    segment (moveRange a i (i + 1) len) s (n - 1) = segment a s i ++ segment a (i + 1) n := by
  obtain ⟨m, rfl⟩ : ∃ m, n = m + 1 := ⟨n - 1, by omega⟩
  rw [Nat.add_sub_cancel, segment_append _ hs (by omega : i ≤ m)]
  have hhead : segment (moveRange a i (i + 1) len) s i = segment a s i := by
    apply segment_congr
    intro k _ hki
    exact moveRange_below a hki
  have htail : segment (moveRange a i (i + 1) len) i m = segment a (i + 1) (m + 1) := by
    rw [← segment_shift]
    apply segment_congr
    intro k hik hkm
    rw [moveRange_inside a hik (by omega)]
    congr 1
    omega
  rw [hhead, htail]

theorem scan_bounds (p : Nat → Bool) (fuel i : Nat) :
    i ≤ scan p fuel i ∧ scan p fuel i ≤ i + fuel := by
  induction fuel generalizing i with
  | zero => simp [scan]
  | succ fuel ih =>
    simp only [scan]
    split
    · omega
    · have h := ih (i + 1)
      omega

theorem scan_before (p : Nat → Bool) (fuel i k : Nat) (hik : i ≤ k) (hk : k < scan p fuel i) :
    p k = false := by
  induction fuel generalizing i with
  | zero =>
    simp only [scan] at hk
    omega
  | succ fuel ih =>
    by_cases hp : p i = true
    · simp only [scan, if_pos hp] at hk
      omega
    · simp only [scan, if_neg hp] at hk
      by_cases hki : k = i
      · subst k
        simpa using hp
      · exact ih (i + 1) (by omega) hk

/-- A search that stopped early stopped at an element that passes the test. -/
theorem scan_stop (p : Nat → Bool) (fuel i : Nat) (h : scan p fuel i < i + fuel) :
    p (scan p fuel i) = true := by
  induction fuel generalizing i with
  | zero =>
    simp only [scan] at h
    omega
  | succ fuel ih =>
    by_cases hp : p i = true
    · simpa only [scan, if_pos hp] using hp
    · simp only [scan, if_neg hp] at h ⊢
      exact ih (i + 1) (by omega)

/-- Skipping positions that fail the test does not change where a search ends. -/
theorem scan_skip {p : Nat → Bool} {s t n : Nat} (hst : s ≤ t) (htn : t ≤ n)
    (h : ∀ k, s ≤ k → k < t → p k = false) : scan p (n - s) s = scan p (n - t) t := by
  induction t, hst using Nat.le_induction with
  | base => rfl
  | succ t hst ih =>
    have hlen : n - t = (n - (t + 1)) + 1 := by omega
    rw [ih (by omega) (fun k hs ht => h k hs (by omega)), hlen]
    simp [scan, h t hst (by omega)]

section Keys

variable {κ : Type*} [LinearOrder κ] (key : α → κ)

/-- The order in which a table keyed by `key` is kept. -/
def Ascending (l : List α) : Prop := l.Pairwise (fun x y => key x < key y)

/-- `e` goes in front of the first element with a larger key. -/
def insertAscending (e : α) (l : List α) : List α :=
  l.orderedInsert (fun x y => key x < key y) e

/-- The first element with key `k` goes. -/
def removeKey (k : κ) (l : List α) : List α := l.eraseP (fun x => decide (key x = k))

theorem insertAscending_cons_lt {e x : α} {l : List α} (h : key e < key x) :
    insertAscending key e (x :: l) = e :: x :: l := by
  simp [insertAscending, h]

theorem insertAscending_cons_not_lt {e x : α} {l : List α} (h : ¬ key e < key x) :
    insertAscending key e (x :: l) = x :: insertAscending key e l := by
  simp [insertAscending, h]

theorem insertAscending_append {e : α} {l r : List α} (hl : ∀ x ∈ l, ¬ key e < key x)
    (hr : ∀ x ∈ r.head?, key e < key x) : insertAscending key e (l ++ r) = l ++ e :: r := by
  induction l with
  | nil =>
    cases r with
    | nil => rfl
    | cons x r => exact insertAscending_cons_lt key (hr x rfl)
  | cons x l ih =>
    have hx : ¬ key e < key x := hl x (by simp)
    rw [List.cons_append, insertAscending_cons_not_lt key hx, ih (fun y hy => hl y (by simp [hy])),
      List.cons_append]

/-- Searching for the first larger key and inserting there is the ordered
insertion, whether or not the array was sorted. -/
theorem segment_insert_scan (a : Nat → α) {s n : Nat} (hsn : s ≤ n) (e : α) :
    let i := scan (fun k => decide (key e < key (a k))) (n - s) s
    segment (Function.update (moveRange a (i + 1) i (n - i)) i e) s (n + 1) =
      insertAscending key e (segment a s n) := by
  intro i
  have hb := scan_bounds (fun k => decide (key e < key (a k))) (n - s) s
  rw [segment_insert a hb.1 (by omega), segment_append a hb.1 (by omega : i ≤ n),
    insertAscending_append]
  · intro x hx
    obtain ⟨k, hsk, hki, rfl⟩ := mem_segment.mp hx
    simpa using scan_before _ _ _ k hsk hki
  · intro x hx
    by_cases hin : i < n
    · rw [segment_cons a hin] at hx
      obtain rfl : a i = x := by simpa using hx
      have hearly : i < s + (n - s) := by omega
      simpa using scan_stop _ _ _ hearly
    · rw [segment_of_le a (by omega)] at hx
      simp at hx

/-- Searching for a key and closing the gap removes the first element with
that key. -/
theorem segment_remove_scan (a : Nat → α) {s n len : Nat} (k : κ)
    (hfound : scan (fun j => decide (key (a j) = k)) (n - s) s < n)
    (hlen : n - scan (fun j => decide (key (a j) = k)) (n - s) s - 1 ≤ len) :
    let i := scan (fun j => decide (key (a j) = k)) (n - s) s
    segment (moveRange a i (i + 1) len) s (n - 1) = removeKey key k (segment a s n) := by
  intro i
  have hb := scan_bounds (fun j => decide (key (a j) = k)) (n - s) s
  have hearly : i < s + (n - s) := by omega
  have hkey := scan_stop _ _ _ hearly
  rw [segment_remove a hb.1 hfound hlen, segment_append a hb.1 (by omega : i ≤ n),
    segment_cons a hfound]
  unfold removeKey
  rw [List.eraseP_append_right]
  · exact congrArg _ (List.eraseP_cons_of_pos (p := fun x => decide (key x = k)) hkey).symm
  · intro x hx
    obtain ⟨j, hsj, hji, rfl⟩ := mem_segment.mp hx
    have hfail := scan_before _ _ _ j hsj hji
    simpa using hfail

theorem removeKey_of_scan_end (a : Nat → α) {s n : Nat} (k : κ)
    (hend : n ≤ scan (fun j => decide (key (a j) = k)) (n - s) s) :
    removeKey key k (segment a s n) = segment a s n := by
  apply List.eraseP_of_forall_not
  intro x hx
  obtain ⟨j, hsj, hjn, rfl⟩ := mem_segment.mp hx
  have hfail := scan_before _ _ _ j hsj (lt_of_lt_of_le hjn hend)
  simpa using hfail

@[simp] theorem mem_insertAscending {e x : α} {l : List α} :
    x ∈ insertAscending key e l ↔ x = e ∨ x ∈ l := by
  unfold insertAscending
  rw [(List.perm_orderedInsert _ e l).mem_iff, List.mem_cons]

theorem ascending_insertAscending {e : α} {l : List α} (hl : Ascending key l)
    (hfresh : ∀ x ∈ l, key x ≠ key e) : Ascending key (insertAscending key e l) := by
  induction l with
  | nil => simp [Ascending, insertAscending]
  | cons x l ih =>
    obtain ⟨hx, hl'⟩ := List.pairwise_cons.mp hl
    by_cases hlt : key e < key x
    · rw [insertAscending_cons_lt key hlt]
      refine List.pairwise_cons.mpr ⟨?_, hl⟩
      intro y hy
      rcases List.mem_cons.mp hy with rfl | hy
      · exact hlt
      · exact hlt.trans (hx y hy)
    · rw [insertAscending_cons_not_lt key hlt]
      refine List.pairwise_cons.mpr ⟨?_, ih hl' (fun y hy => hfresh y (by simp [hy]))⟩
      intro y hy
      rcases (mem_insertAscending key).mp hy with rfl | hy
      · exact lt_of_le_of_ne (not_lt.mp hlt) (hfresh x (by simp))
      · exact hx y hy

theorem ascending_removeKey {k : κ} {l : List α} (hl : Ascending key l) :
    Ascending key (removeKey key k l) :=
  List.Pairwise.sublist List.eraseP_sublist hl

/-- In a strictly ascending list a key occurs once, so removing it removes
every element that carries it. -/
theorem mem_removeKey {k : κ} {l : List α} (hl : Ascending key l) {x : α} :
    x ∈ removeKey key k l ↔ x ∈ l ∧ key x ≠ k := by
  induction l with
  | nil => simp [removeKey]
  | cons y l ih =>
    obtain ⟨hy, hl'⟩ := List.pairwise_cons.mp hl
    by_cases hk : key y = k
    · rw [removeKey, List.eraseP_cons_of_pos (by simpa using hk)]
      constructor
      · intro hx
        exact ⟨by simp [hx], fun hxk => (hy x hx).ne (hk.trans hxk.symm)⟩
      · rintro ⟨hx, hne⟩
        rcases List.mem_cons.mp hx with rfl | hx
        · exact absurd hk hne
        · exact hx
    · rw [removeKey, List.eraseP_cons_of_neg (by simpa using hk)]
      have hrec := ih hl'
      simp only [removeKey] at hrec
      simp only [List.mem_cons, hrec]
      constructor
      · rintro (rfl | ⟨hx, hne⟩)
        · exact ⟨Or.inl rfl, hk⟩
        · exact ⟨Or.inr hx, hne⟩
      · rintro ⟨rfl | hx, hne⟩
        · exact Or.inl rfl
        · exact Or.inr ⟨hx, hne⟩

end Keys

end CountedArray
