import WinPolyfillLoader.Library.Memory

/-!
Copies of ranges of bytes that are made one after the other. A byte is that of the last copy
that covers it. Within one memory the copies read what was there before the first of them, if
none of them writes where one reads.
-/

namespace ByteMemory

structure Copy where
  destination : Nat
  source : Nat
  length : Nat
deriving DecidableEq, Repr

def Copy.covers (x : Copy) (a : Nat) : Bool := x.destination ≤ a ∧ a < x.destination + x.length

/-- A copy between ranges that start elsewhere. -/
def Copy.shift (x : Copy) (destination source : Nat) : Copy :=
  ⟨destination + x.destination, source + x.source, x.length⟩

/-- Copies from a memory that stays as it is. -/
def copyAll (source m : Bytes) (copies : List Copy) : Bytes :=
  copies.foldl (fun m x => blit m x.destination source x.source x.length) m

def moveAll (m : Bytes) (copies : List Copy) : Bytes :=
  copies.foldl (fun m x => blit m x.destination m x.source x.length) m

variable {source m : Bytes} {copies : List Copy}

theorem copyAll_cons (x : Copy) :
    copyAll source m (x :: copies) =
      copyAll source (blit m x.destination source x.source x.length) copies := rfl

theorem moveAll_cons (x : Copy) :
    moveAll m (x :: copies) = moveAll (blit m x.destination m x.source x.length) copies := rfl

theorem covers_iff {x : Copy} {a : Nat} :
    x.covers a = true ↔ x.destination ≤ a ∧ a < x.destination + x.length := by
  rw [Copy.covers, decide_eq_true_eq]

/-- The last of the copies that cover an address. -/
def lastCovering (copies : List Copy) (a : Nat) : Option Copy :=
  copies.reverse.find? fun x => x.covers a

theorem lastCovering_some {x : Copy} {a : Nat} (h : lastCovering copies a = some x) :
    x ∈ copies ∧ x.destination ≤ a ∧ a < x.destination + x.length := by
  rw [lastCovering] at h
  have hcovers := List.find?_some h
  exact ⟨List.mem_reverse.mp (List.mem_of_find?_eq_some h), covers_iff.mp hcovers⟩

theorem lastCovering_only {x : Copy} {a : Nat} (hx : x ∈ copies) (hcovers : x.covers a = true)
    (honly : ∀ y ∈ copies, y.covers a = true → y = x) : lastCovering copies a = some x := by
  cases hlast : lastCovering copies a with
  | none =>
    rw [lastCovering, List.find?_eq_none] at hlast
    exact absurd hcovers (hlast x (List.mem_reverse.mpr hx))
  | some y =>
    obtain ⟨hy, hlow, hhigh⟩ := lastCovering_some hlast
    rw [honly y hy (covers_iff.mpr ⟨hlow, hhigh⟩)]

theorem copyAll_byte (source m : Bytes) (copies : List Copy) (a : Nat) :
    copyAll source m copies a =
      (lastCovering copies a).elim (m a) fun x => source (a - x.destination + x.source) := by
  induction copies generalizing m with
  | nil => rfl
  | cons x copies ih =>
    have hsplit : lastCovering (x :: copies) a =
        (lastCovering copies a).or (if x.covers a then some x else none) := by
      rw [lastCovering, List.reverse_cons, List.find?_append, List.find?_singleton]
      rfl
    rw [copyAll_cons, ih, hsplit]
    cases lastCovering copies a with
    | some y => rfl
    | none =>
      by_cases hcovers : x.covers a = true
      · obtain ⟨hlow, hhigh⟩ := covers_iff.mp hcovers
        rw [if_pos hcovers]
        exact blit_inside m hlow hhigh
      · rw [if_neg hcovers]
        exact if_neg (mt covers_iff.mpr hcovers)

theorem copyAll_congr {source' : Bytes} {a : Nat}
    (h : ∀ x ∈ copies, ∀ k, x.source ≤ k → k < x.source + x.length → source' k = source k) :
    copyAll source' m copies a = copyAll source m copies a := by
  rw [copyAll_byte, copyAll_byte]
  cases hlast : lastCovering copies a with
  | none => rfl
  | some x =>
    obtain ⟨hmem, hlow, hhigh⟩ := lastCovering_some hlast
    exact h x hmem _ (by omega) (by omega)

theorem copyAll_uncovered {a : Nat} (h : ∀ x ∈ copies, x.covers a = false) :
    copyAll source m copies a = m a := by
  have hnone : lastCovering copies a = none := by
    rw [lastCovering, List.find?_eq_none]
    intro x hx
    rw [h x (List.mem_reverse.mp hx)]
    decide
  rw [copyAll_byte, hnone]
  rfl

theorem copyAll_shift (source m : Bytes) (destination start : Nat) (copies : List Copy) (k : Nat) :
    copyAll source m (copies.map (·.shift destination start)) (destination + k) =
      copyAll (fun j => source (start + j)) (fun j => m (destination + j)) copies k := by
  induction copies generalizing m with
  | nil => rfl
  | cons x copies ih =>
    rw [List.map_cons, copyAll_cons, copyAll_cons, ih]
    congr 1
    funext j
    unfold blit Copy.shift
    have hcovered : (destination + x.destination ≤ destination + j ∧
        destination + j < destination + x.destination + x.length) ↔
          (x.destination ≤ j ∧ j < x.destination + x.length) := by omega
    have hbyte : destination + j - (destination + x.destination) + (start + x.source) =
        start + (j - x.destination + x.source) := by omega
    simp only [hcovered, hbyte]

/-- No copy writes where one reads. -/
def SourcesApart (copies : List Copy) : Prop :=
  ∀ x ∈ copies, ∀ y ∈ copies, Apart x.destination x.length y.source y.length

theorem moveAll_eq (h : SourcesApart copies) : moveAll m copies = copyAll m m copies := by
  have hgeneral : ∀ (later : List Copy) (m' : Bytes), (∀ x ∈ later, x ∈ copies) →
      (∀ y ∈ copies, ∀ k, y.source ≤ k → k < y.source + y.length → m' k = m k) →
        moveAll m' later = copyAll m m' later := by
    intro later
    induction later with
    | nil => exact fun m' _ _ => rfl
    | cons x later ih =>
      intro m' hmem hsame
      have hx := hmem x List.mem_cons_self
      have hblit : blit m' x.destination m' x.source x.length =
          blit m' x.destination m x.source x.length := by
        funext a
        unfold blit
        split
        · exact hsame x hx _ (by omega) (by omega)
        · rfl
      rw [moveAll_cons, copyAll_cons, hblit]
      apply ih _ fun y hy => hmem y (List.mem_cons_of_mem x hy)
      intro y hy k hk hkn
      have hapart := h x hx y hy
      unfold Apart at hapart
      rw [blit_outside _ (by omega), hsame y hy k hk hkn]
  exact hgeneral copies m (fun _ hx => hx) fun _ _ _ _ _ => rfl

end ByteMemory
