import Mathlib.Data.List.Basic

/-!
A loop that erases from the vector it walks over: the position moves on past an
element that is kept and stays where it is after an erasure. It visits every
element once, in order, so it is a walk over the list from front to back.
-/

namespace ErasingLoop

variable {α σ : Type}

/-- The loop from `position` on. `visit` answers whether the element is erased. -/
def erasingLoop (visit : σ → α → Bool × σ) (position : Nat) (items : List α) (state : σ) :
    List α × σ :=
  if h : position < items.length then
    match visit state (items.get ⟨position, h⟩) with
    | (true, state) => erasingLoop visit position (items.eraseIdx position) state
    | (false, state) => erasingLoop visit (position + 1) items state
  else (items, state)
termination_by items.length - position
decreasing_by
  · rw [List.length_eraseIdx_of_lt h]
    omega
  · omega

/-- The walk: the elements that are kept, and the state after the last one. -/
def erasingWalk (visit : σ → α → Bool × σ) : List α → σ → List α × σ
  | [], state => ([], state)
  | item :: rest, state =>
    match visit state item with
    | (true, state) => erasingWalk visit rest state
    | (false, state) =>
        (item :: (erasingWalk visit rest state).1, (erasingWalk visit rest state).2)

/-- The elements in front of the position stay, those behind it are walked over. -/
theorem erasingLoop_append (visit : σ → α → Bool × σ) (kept items : List α) (state : σ) :
    erasingLoop visit kept.length (kept ++ items) state =
      (kept ++ (erasingWalk visit items state).1, (erasingWalk visit items state).2) := by
  induction items generalizing kept state with
  | nil =>
    rw [erasingLoop, dif_neg (by simp)]
    rfl
  | cons item rest ih =>
    have hlt : kept.length < (kept ++ item :: rest).length := by simp
    have hget : (kept ++ item :: rest).get ⟨kept.length, hlt⟩ = item := by simp
    rw [erasingLoop, dif_pos hlt, hget]
    cases hvisit : visit state item with
    | mk erased next =>
      cases erased with
      | true =>
        have herase : (kept ++ item :: rest).eraseIdx kept.length = kept ++ rest := by
          rw [List.eraseIdx_append_of_length_le (Nat.le_refl _), Nat.sub_self]
          rfl
        simp only [erasingWalk, hvisit, herase]
        exact ih kept next
      | false =>
        have hnext := ih (kept ++ [item]) next
        rw [List.length_append, List.append_assoc, List.append_assoc] at hnext
        simp only [erasingWalk, hvisit]
        exact hnext

theorem erasingLoop_eq (visit : σ → α → Bool × σ) (items : List α) (state : σ) :
    erasingLoop visit 0 items state = erasingWalk visit items state :=
  erasingLoop_append visit [] items state

theorem erasingWalk_sublist (visit : σ → α → Bool × σ) (items : List α) (state : σ) :
    (erasingWalk visit items state).1.Sublist items := by
  induction items generalizing state with
  | nil => exact List.Sublist.refl []
  | cons item rest ih =>
    cases hvisit : visit state item with
    | mk erased next =>
      cases erased with
      | true =>
        simp only [erasingWalk, hvisit]
        exact (ih next).cons item
      | false =>
        simp only [erasingWalk, hvisit]
        exact (ih next).cons_cons item

end ErasingLoop
