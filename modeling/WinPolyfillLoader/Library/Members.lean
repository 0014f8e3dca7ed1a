import WinPolyfillLoader.Library.Memory

/-!
Members of a structure that follow each other in memory without padding, each a size and a
value.
-/

namespace ByteMemory

def sizeOfMembers (members : List (Nat × Nat)) : Nat := (members.map Prod.fst).sum

def writeMembers (m : Bytes) (a : Nat) : List (Nat × Nat) → Bytes
  | [] => m
  | (n, v) :: rest => writeMembers (writeLE m a n v) (a + n) rest

/-- The memory has these members at the address. -/
def HoldsMembers (m : Bytes) (a : Nat) : List (Nat × Nat) → Prop
  | [] => True
  | (n, v) :: rest => readLE m a n = v % 256 ^ n ∧ HoldsMembers m (a + n) rest

instance decidableHoldsMembers (m : Bytes) : (a : Nat) → (members : List (Nat × Nat)) →
    Decidable (HoldsMembers m a members)
  | _, [] => .isTrue trivial
  | a, (n, v) :: rest =>
      have := decidableHoldsMembers m (a + n) rest
      inferInstanceAs (Decidable (readLE m a n = v % 256 ^ n ∧ HoldsMembers m (a + n) rest))

@[simp] theorem sizeOfMembers_cons (n v : Nat) (rest : List (Nat × Nat)) :
    sizeOfMembers ((n, v) :: rest) = n + sizeOfMembers rest := by
  simp [sizeOfMembers]

theorem writeMembers_outside (m : Bytes) {a k : Nat} {members : List (Nat × Nat)}
    (h : k < a ∨ a + sizeOfMembers members ≤ k) : writeMembers m a members k = m k := by
  induction members generalizing m a with
  | nil => rfl
  | cons first rest ih =>
    rw [sizeOfMembers_cons] at h
    rw [writeMembers, ih _ (by omega), writeLE_outside m (by omega)]

theorem holdsMembers_congr {m m' : Bytes} {a : Nat} {members : List (Nat × Nat)}
    (hsame : ∀ k, a ≤ k → k < a + sizeOfMembers members → m k = m' k) :
    HoldsMembers m a members ↔ HoldsMembers m' a members := by
  induction members generalizing a with
  | nil => exact Iff.rfl
  | cons first rest ih =>
    rw [sizeOfMembers_cons] at hsame
    rw [HoldsMembers, HoldsMembers, readLE_congr fun k hk hkn => hsame k hk (by omega),
      ih fun k hk hkn => hsame k (by omega) (by omega)]

theorem writeMembers_holds (m : Bytes) (a : Nat) (members : List (Nat × Nat)) :
    HoldsMembers (writeMembers m a members) a members := by
  induction members generalizing m a with
  | nil => exact trivial
  | cons first rest ih =>
    refine ⟨?_, ih (writeLE m a first.1 first.2) (a + first.1)⟩
    have hfirst : readLE (writeMembers (writeLE m a first.1 first.2) (a + first.1) rest) a first.1 =
        readLE (writeLE m a first.1 first.2) a first.1 :=
      readLE_congr fun k _ hkn => writeMembers_outside _ (Or.inl hkn)
    exact hfirst.trans (readLE_writeLE m a first.1 first.2)

theorem holdsMembers_iff {m m' : Bytes} {a a' : Nat} {members : List (Nat × Nat)}
    (h : HoldsMembers m a members) :
    HoldsMembers m' a' members ↔ ∀ j < sizeOfMembers members, m (a + j) = m' (a' + j) := by
  induction members generalizing a a' with
  | nil => exact iff_of_true trivial fun j hj => absurd hj (Nat.not_lt_zero j)
  | cons first rest ih =>
    obtain ⟨hfirst, hrest⟩ := h
    rw [HoldsMembers, ← hfirst, ih hrest, eq_comm, readLE_eq_iff, sizeOfMembers_cons]
    constructor
    · rintro ⟨hhead, htail⟩ j hj
      by_cases hin : j < first.1
      · exact hhead j hin
      · have hbyte := htail (j - first.1) (by omega)
        rwa [Nat.add_assoc, Nat.add_assoc, Nat.add_sub_cancel' (Nat.not_lt.mp hin)] at hbyte
    · intro hall
      refine ⟨fun j hj => hall j (by omega), fun j hj => ?_⟩
      rw [Nat.add_assoc, Nat.add_assoc]
      exact hall (first.1 + j) (by omega)

end ByteMemory
