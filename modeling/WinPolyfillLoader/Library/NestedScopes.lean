import Mathlib.Data.List.Basic

/-!
Exceptions in nested scopes, innermost first. A scope has a filter or a `finally` block. The
exception is offered to the filters until one of them decides; when that one handles it, the
`finally` blocks of the scopes inside of it run first.
-/

namespace NestedScopes

/-- What a filter says. -/
inductive Verdict where
  | continueExecution
  | continueSearch
  | executeHandler
deriving DecidableEq, Repr

/-- What becomes of an exception, with the scope that decides and the `finally` blocks that
run, in their order. -/
inductive Outcome (α : Type*) where
  | unhandled
  | resumed (scope : α)
  | handled (finallies : List α) (scope : α)
deriving DecidableEq, Repr

variable {α : Type*}

/-- The scope that decides. -/
def Outcome.decider : Outcome α → Option α
  | .unhandled => none
  | .resumed scope => some scope
  | .handled _ scope => some scope

/-- Seen from inside of scopes with these `finally` blocks. -/
def Outcome.inside (blocks : List α) : Outcome α → Outcome α
  | .handled finallies scope => .handled (blocks ++ finallies) scope
  | outcome => outcome

/-- An exception that is raised in the scopes. A scope with a `finally` block has no verdict. -/
def raiseIn (verdict : α → Option Verdict) : List α → Outcome α
  | [] => .unhandled
  | scope :: outer =>
    match verdict scope with
    | some .continueExecution => .resumed scope
    | some .executeHandler => .handled [] scope
    | some .continueSearch => raiseIn verdict outer
    | none => (raiseIn verdict outer).inside [scope]

/-- The `finally` blocks among the scopes. -/
def finallyBlocks (verdict : α → Option Verdict) (scopes : List α) : List α :=
  scopes.filter fun scope => (verdict scope).isNone

variable {verdict : α → Option Verdict}

@[simp] theorem inside_nil (outcome : Outcome α) : outcome.inside [] = outcome := by
  cases outcome <;> rfl

theorem inside_inside (blocks more : List α) (outcome : Outcome α) :
    (outcome.inside more).inside blocks = outcome.inside (blocks ++ more) := by
  cases outcome with
  | unhandled => rfl
  | resumed scope => rfl
  | handled finallies scope => exact congrArg (Outcome.handled · scope) (by simp)

theorem finallyBlocks_cons (scope : α) (outer : List α) :
    finallyBlocks verdict (scope :: outer) =
      if verdict scope = none then scope :: finallyBlocks verdict outer
      else finallyBlocks verdict outer := by
  cases h : verdict scope with
  | none => simp [finallyBlocks, h]
  | some answer => simp [finallyBlocks, h]

theorem raiseIn_append_unhandled {inner : List α} (outer : List α)
    (h : raiseIn verdict inner = .unhandled) :
    raiseIn verdict (inner ++ outer) =
      (raiseIn verdict outer).inside (finallyBlocks verdict inner) := by
  induction inner with
  | nil => exact (inside_nil _).symm
  | cons scope rest ih =>
    rw [raiseIn] at h
    rw [List.cons_append, raiseIn, finallyBlocks_cons]
    cases hscope : verdict scope with
    | none =>
      rw [hscope] at h
      have hrest : raiseIn verdict rest = .unhandled := by
        cases hcase : raiseIn verdict rest with
        | unhandled => rfl
        | resumed scope => rw [hcase] at h; cases h
        | handled finallies scope => rw [hcase] at h; cases h
      rw [if_pos rfl, ih hrest]
      exact inside_inside _ _ _
    | some answer =>
      rw [hscope] at h
      rw [if_neg (Option.some_ne_none answer)]
      cases answer with
      | continueExecution => cases h
      | executeHandler => cases h
      | continueSearch => exact ih h

theorem raiseIn_append_decided {inner : List α} (outer : List α)
    (h : raiseIn verdict inner ≠ .unhandled) :
    raiseIn verdict (inner ++ outer) = raiseIn verdict inner := by
  induction inner with
  | nil => exact absurd rfl h
  | cons scope rest ih =>
    rw [raiseIn] at h
    rw [List.cons_append, raiseIn, raiseIn]
    cases hscope : verdict scope with
    | none =>
      rw [hscope] at h
      have hrest : raiseIn verdict rest ≠ .unhandled := by
        intro hcase
        rw [hcase] at h
        exact h rfl
      rw [ih hrest]
    | some answer =>
      rw [hscope] at h
      cases answer with
      | continueExecution => rfl
      | executeHandler => rfl
      | continueSearch => exact ih h

theorem inside_decider (blocks : List α) (outcome : Outcome α) :
    (outcome.inside blocks).decider = outcome.decider := by
  cases outcome <;> rfl

theorem mem_of_decider {scopes : List α} {scope : α}
    (h : (raiseIn verdict scopes).decider = some scope) : scope ∈ scopes := by
  induction scopes with
  | nil => cases h
  | cons first outer ih =>
    rw [raiseIn] at h
    split at h
    · cases h
      exact List.mem_cons_self
    · cases h
      exact List.mem_cons_self
    · exact List.mem_cons_of_mem first (ih h)
    · rw [inside_decider] at h
      exact List.mem_cons_of_mem first (ih h)

end NestedScopes
