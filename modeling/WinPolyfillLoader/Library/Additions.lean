import Mathlib.Data.List.Pairwise
import WinPolyfillLoader.Library.Memory

/-!
Integers in memory that something is added to. Where they do not overlap, some of the
additions can be left out without a difference only if these add nothing.
-/

namespace ByteMemory

/-- An integer, and what is added to it. -/
structure Addition where
  address : Nat
  width : Nat
  addend : Nat
deriving DecidableEq, Repr

def Addition.Apart (a b : Addition) : Prop :=
  ByteMemory.Apart a.address a.width b.address b.width

instance : DecidableRel Addition.Apart :=
  fun a b => inferInstanceAs (Decidable (ByteMemory.Apart a.address a.width b.address b.width))

def addAt (m : Bytes) (a : Addition) : Bytes :=
  writeLE m a.address a.width ((readLE m a.address a.width + a.addend) % 256 ^ a.width)

def addAll (m : Bytes) (additions : List Addition) : Bytes := additions.foldl addAt m

variable {m : Bytes} {additions : List Addition} {a : Addition}

instance : Std.Symm Addition.Apart := ⟨fun _ _ h => Or.symm h⟩

theorem addAll_append (m : Bytes) (first second : List Addition) :
    addAll m (first ++ second) = addAll (addAll m first) second := List.foldl_append

theorem writeLE_readLE (m : Bytes) (a n : Nat) : writeLE m a n (readLE m a n) = m := by
  funext k
  by_cases hinside : a ≤ k ∧ k < a + n
  · have hread : readLE (writeLE m a n (readLE m a n)) a n = readLE m a n := by
      rw [readLE_writeLE, Nat.mod_eq_of_lt (readLE_lt m a n)]
    have hbyte := readLE_eq_iff.mp hread (k - a) (by omega)
    rw [Nat.add_sub_cancel' hinside.1] at hbyte
    exact hbyte
  · exact writeLE_outside m (by omega)

theorem addAt_nothing (h : a.addend % 256 ^ a.width = 0) : addAt m a = m := by
  have hsum : (readLE m a.address a.width + a.addend) % 256 ^ a.width =
      readLE m a.address a.width := by
    rw [Nat.add_mod, h, Nat.add_zero, Nat.mod_mod, Nat.mod_eq_of_lt (readLE_lt m _ _)]
  rw [addAt, hsum, writeLE_readLE]

theorem addAll_outside {k : Nat}
    (h : ∀ a ∈ additions, k < a.address ∨ a.address + a.width ≤ k) : addAll m additions k = m k := by
  induction additions generalizing m with
  | nil => rfl
  | cons a additions ih =>
    rw [addAll, List.foldl_cons, ← addAll, ih fun b hb => h b (List.mem_cons_of_mem a hb)]
    exact writeLE_outside m (h a List.mem_cons_self)

theorem addAll_apart (h : ∀ b ∈ additions, Addition.Apart a b) :
    readLE (addAll m additions) a.address a.width = readLE m a.address a.width := by
  apply readLE_congr
  intro k hk hkn
  apply addAll_outside
  intro b hb
  have hapart := h b hb
  unfold Addition.Apart ByteMemory.Apart at hapart
  omega

theorem addAll_inside (hapart : additions.Pairwise Addition.Apart) (ha : a ∈ additions) :
    readLE (addAll m additions) a.address a.width =
      (readLE m a.address a.width + a.addend) % 256 ^ a.width := by
  induction additions generalizing m with
  | nil => cases ha
  | cons b additions ih =>
    obtain ⟨hfirst, hrest⟩ := List.pairwise_cons.mp hapart
    rw [addAll, List.foldl_cons, ← addAll]
    rcases List.mem_cons.mp ha with rfl | hmem
    · rw [addAll_apart hfirst, addAt, readLE_writeLE, Nat.mod_mod]
    · have hsame : readLE (addAt m b) a.address a.width = readLE m a.address a.width :=
        readLE_writeLE_disjoint m (Or.symm (hfirst a hmem))
      rw [ih hrest hmem, hsame]

theorem addAll_filter {p : Addition → Bool}
    (h : ∀ a ∈ additions, p a = false → a.addend % 256 ^ a.width = 0) :
    addAll m (additions.filter p) = addAll m additions := by
  induction additions generalizing m with
  | nil => rfl
  | cons a additions ih =>
    have hrest := fun {m} => @ih m fun b hb => h b (List.mem_cons_of_mem a hb)
    cases hp : p a with
    | true =>
      rw [List.filter_cons_of_pos hp]
      exact hrest
    | false =>
      rw [List.filter_cons_of_neg (by rw [hp]; decide), hrest]
      change _ = addAll (addAt m a) additions
      rw [addAt_nothing (h a List.mem_cons_self hp)]

/-- Of additions to integers that are apart, those of nothing are all that can be left
out. -/
theorem addAll_filter_iff (hapart : additions.Pairwise Addition.Apart) {p : Addition → Bool} :
    addAll m (additions.filter p) = addAll m additions ↔
      ∀ a ∈ additions, p a = false → a.addend % 256 ^ a.width = 0 := by
  refine ⟨?_, addAll_filter⟩
  intro h a ha hleft
  have hothers : ∀ b ∈ additions.filter p, Addition.Apart a b := by
    intro b hb
    obtain ⟨hmem, hkept⟩ := List.mem_filter.mp hb
    have hne : a ≠ b := by
      rintro rfl
      rw [hleft] at hkept
      cases hkept
    exact hapart.forall ha hmem hne
  have hinside := addAll_inside (m := m) hapart ha
  rw [← h, addAll_apart hothers] at hinside
  have hlt := readLE_lt m a.address a.width
  have haddend := Nat.mod_lt a.addend (Nat.zero_lt_of_lt hlt)
  rw [Nat.add_mod, Nat.mod_eq_of_lt hlt] at hinside
  rcases Nat.lt_or_ge (readLE m a.address a.width + a.addend % 256 ^ a.width)
    (256 ^ a.width) with hsmall | hlarge
  · rw [Nat.mod_eq_of_lt hsmall] at hinside
    omega
  · rw [Nat.mod_eq_sub_mod hlarge, Nat.mod_eq_of_lt (by omega)] at hinside
    omega

theorem modifyAll_eq_addAll (addend : Nat → Nat) (m : Bytes) (ranges : List (Nat × Nat)) :
    modifyAll (fun width value => (value + addend width) % 256 ^ width) m ranges =
      addAll m (ranges.map fun r => ⟨r.1, r.2, addend r.2⟩) := by
  rw [addAll, List.foldl_map]
  rfl

end ByteMemory
