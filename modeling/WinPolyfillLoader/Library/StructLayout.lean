import Mathlib.Data.List.Basic

/-!
The layout of C structures: each member at the next multiple of its alignment, padding up
to the alignment of the whole at the end, and the members of a derived structure behind the
end of its base.
-/

namespace StructLayout

structure Member (ν : Type) where
  name : ν
  size : Nat
  alignment : Nat
deriving Repr

structure Placed (ν : Type) where
  name : ν
  offset : Nat
  size : Nat
deriving Repr

def Placed.stop {ν : Type} (p : Placed ν) : Nat := p.offset + p.size

def alignUp (n alignment : Nat) : Nat := n + (alignment - n % alignment) % alignment

/-- The members one after the other, from an offset on. -/
def place {ν : Type} : Nat → List (Member ν) → List (Placed ν)
  | _, [] => []
  | start, m :: ms =>
    ⟨m.name, alignUp start m.alignment, m.size⟩ :: place (alignUp start m.alignment + m.size) ms

def stopOf {ν : Type} : Nat → List (Member ν) → Nat
  | start, [] => start
  | start, m :: ms => stopOf (alignUp start m.alignment + m.size) ms

/-- The members of a structure, all of them inside its size. -/
structure Layout (ν : Type) where
  members : List (Placed ν)
  size : Nat
  alignment : Nat
  inside : ∀ p ∈ members, p.stop ≤ size

section Layouts

variable {ν : Type}

theorem le_alignUp (n alignment : Nat) : n ≤ alignUp n alignment := Nat.le_add_right n _

theorem le_stopOf (start : Nat) (ms : List (Member ν)) : start ≤ stopOf start ms := by
  induction ms generalizing start with
  | nil => exact Nat.le_refl start
  | cons m ms ih =>
    calc start ≤ alignUp start m.alignment := le_alignUp start _
      _ ≤ alignUp start m.alignment + m.size := Nat.le_add_right _ _
      _ ≤ stopOf (alignUp start m.alignment + m.size) ms := ih _

theorem place_stop_le {start : Nat} {ms : List (Member ν)} :
    ∀ p ∈ place start ms, p.stop ≤ stopOf start ms := by
  induction ms generalizing start with
  | nil => exact fun p hp => nomatch hp
  | cons m ms ih =>
    intro p hp
    rcases List.mem_cons.mp hp with rfl | hp
    · exact le_stopOf _ ms
    · exact ih p hp

namespace Layout

def empty : Layout ν := ⟨[], 0, 1, fun _ hp => nomatch hp⟩

def strictest (alignment : Nat) (ms : List (Member ν)) : Nat :=
  ms.foldl (fun a m => max a m.alignment) alignment

/-- A structure with a base and members of its own. -/
def derive (base : Layout ν) (ms : List (Member ν)) : Layout ν where
  members := base.members ++ place base.size ms
  size := alignUp (stopOf base.size ms) (strictest base.alignment ms)
  alignment := strictest base.alignment ms
  inside := by
    intro p hp
    have hstop := le_alignUp (stopOf base.size ms) (strictest base.alignment ms)
    rcases List.mem_append.mp hp with hp | hp
    · calc p.stop ≤ base.size := base.inside p hp
        _ ≤ stopOf base.size ms := le_stopOf base.size ms
        _ ≤ alignUp (stopOf base.size ms) (strictest base.alignment ms) := hstop
    · exact Nat.le_trans (place_stop_le p hp) hstop

/-- The place of the member with a name. -/
def member? [DecidableEq ν] (layout : Layout ν) (name : ν) : Option (Placed ν) :=
  layout.members.find? (·.name = name)

theorem member?_inside [DecidableEq ν] {layout : Layout ν} {name : ν} {p : Placed ν}
    (h : layout.member? name = some p) : p.stop ≤ layout.size :=
  layout.inside p (List.mem_of_find?_eq_some h)

end Layout

end Layouts

end StructLayout
