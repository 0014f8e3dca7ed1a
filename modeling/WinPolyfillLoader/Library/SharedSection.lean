import Mathlib.Logic.Function.Basic

/-!
Section objects that share data between the views of them. One name is given to
the object that was created under it, and is free again when the last handle of
that object is closed. An object keeps its data while the name or a view leads to it.
-/

namespace SharedSection

/-- The objects by number, the address of each view with the object it shows, and the
object that has the name, which an open handle keeps. -/
@[ext]
structure Sections (α : Type) where
  named : Option Nat
  handles : Nat → Nat
  contents : Nat → α
  views : Nat → Option Nat
  next : Nat
  named_open : ∀ object, named = some object → 0 < handles object

namespace Sections

variable {α : Type} {s : Sections α} {object address : Nat}

def empty (initial : α) : Sections α where
  named := none
  handles := fun _ => 0
  contents := fun _ => initial
  views := fun _ => none
  next := 0
  named_open := nofun

/-- A new object with the name and one handle. -/
def create (initial : α) (s : Sections α) : Sections α :=
  { s with
    named := some s.next
    handles := Function.update s.handles s.next 1
    contents := Function.update s.contents s.next initial
    next := s.next + 1
    named_open := by
      rintro _ ⟨⟩
      rw [Function.update_self]
      exact Nat.one_pos }

def openHandle (object : Nat) (s : Sections α) : Sections α :=
  { s with
    handles := Function.update s.handles object (s.handles object + 1)
    named_open := by
      intro other hnamed
      have hopen := s.named_open other hnamed
      rcases eq_or_ne other object with rfl | hne
      · rw [Function.update_self]
        exact Nat.succ_pos _
      · rw [Function.update_of_ne hne]
        exact hopen }

/-- One handle less. The last one takes the name with it. -/
def closeHandle (object : Nat) (s : Sections α) : Sections α :=
  { s with
    named := if s.named = some object ∧ s.handles object ≤ 1 then none else s.named
    handles := Function.update s.handles object (s.handles object - 1)
    named_open := by
      intro other hnamed
      split at hnamed
      · cases hnamed
      next hkept =>
        have hopen := s.named_open other hnamed
        rcases eq_or_ne other object with rfl | hne
        · have hmore : ¬s.handles other ≤ 1 := fun hlast => hkept ⟨hnamed, hlast⟩
          rw [Function.update_self]
          omega
        · rw [Function.update_of_ne hne]
          exact hopen }

def mapView (address object : Nat) (s : Sections α) : Sections α :=
  { s with views := Function.update s.views address (some object) }

def unmapView (address : Nat) (s : Sections α) : Sections α :=
  { s with views := Function.update s.views address none }

/-- What is read at an address, if a view is there. -/
def read (address : Nat) (s : Sections α) : Option α := (s.views address).map s.contents

/-- A write through a view changes the object that it shows. -/
def write (address : Nat) (change : α → α) (s : Sections α) : Option (Sections α) :=
  match s.views address with
  | some object =>
      some { s with
        contents := Function.update s.contents object (change (s.contents object)) }
  | none => none

/-- The address can take a view. -/
def Free (address : Nat) (s : Sections α) : Prop := address ≠ 0 ∧ s.views address = none

instance decidableFree : Decidable (Free address s) :=
  inferInstanceAs (Decidable (address ≠ 0 ∧ s.views address = none))

theorem read_of_view {contents : α} (hview : s.views address = some object)
    (hcontents : s.contents object = contents) : s.read address = some contents := by
  rw [read, hview, Option.map_some, hcontents]

theorem read_none (hview : s.views address = none) : s.read address = none := by
  rw [read, hview, Option.map_none]

@[simp]
theorem mapView_views_self : (s.mapView address object).views address = some object := by
  simp only [mapView, Function.update_self]

theorem read_mapView : (s.mapView address object).read address = some (s.contents object) :=
  read_of_view mapView_views_self rfl

theorem write_of_view (change : α → α) (hview : s.views address = some object) :
    ∃ written, s.write address change = some written ∧ written.named = s.named ∧
      written.views = s.views ∧ written.contents object = change (s.contents object) := by
  rw [write, hview]
  exact ⟨_, rfl, rfl, rfl, Function.update_self object _ s.contents⟩

theorem create_closeHandle_named {initial : α} :
    ((s.create initial).closeHandle s.next).named = none := by
  have hlast : (s.create initial).handles s.next ≤ 1 := by
    simp only [create, Function.update_self, Nat.le_refl]
  exact if_pos ⟨rfl, hlast⟩

/-- A second handle of the named object is opened and closed without a trace. -/
theorem openHandle_closeHandle (hnamed : s.named = some object) :
    (s.openHandle object).closeHandle object = s := by
  have hopen := s.named_open object hnamed
  have hcount : (s.openHandle object).handles object = s.handles object + 1 := by
    simp only [openHandle, Function.update_self]
  have hname : ¬((s.openHandle object).named = some object ∧
      (s.openHandle object).handles object ≤ 1) := by
    rw [hcount]
    omega
  have hback : Function.update (s.openHandle object).handles object
      ((s.openHandle object).handles object - 1) = s.handles := by
    rw [hcount]
    simp only [openHandle, Nat.add_sub_cancel, Function.update_idem, Function.update_eq_self]
  apply Sections.ext
  · exact if_neg hname
  · exact hback
  · rfl
  · rfl
  · rfl

/-- So is a view that is mapped at a free address and unmapped again. -/
theorem mapView_unmapView (hfree : s.Free address) :
    (s.mapView address object).unmapView address = s := by
  have hviews : Function.update (Function.update s.views address (some object)) address none =
      s.views := by
    rw [Function.update_idem, ← hfree.2, Function.update_eq_self]
  apply Sections.ext
  · rfl
  · rfl
  · rfl
  · exact hviews
  · rfl

/-- A look at the named object through a handle and a view of its own leaves nothing. -/
theorem look_leaves (hnamed : s.named = some object) (hfree : s.Free address) :
    (((s.openHandle object).mapView address object).closeHandle object).unmapView address = s := by
  have hcommute : ((s.openHandle object).mapView address object).closeHandle object =
      ((s.openHandle object).closeHandle object).mapView address object := rfl
  rw [hcommute, openHandle_closeHandle hnamed, mapView_unmapView hfree]

end Sections

end SharedSection
