import Mathlib.Logic.Function.Basic

/-!
Steps that return a status, run in sequence until one of them does not succeed.
`Ends` says with which failure a step ends from the states that it is used in,
and what then holds; the rule for a sequence takes the first failure.
-/

namespace WinPolyfillLoader.EarlyExit

/-- From the status and the state so far to the next. -/
abbrev Step (σ S : Type) := σ → S → σ × S

variable {σ S : Type} (ok : σ → Bool)

def andThen (first second : Step σ S) : Step σ S := fun status s =>
  match first status s with
  | (status, s) => if ok status then second status s else (status, s)

/-- The failure that a status reports. -/
def failureOf (status : σ) : Option σ := if ok status then none else some status

/-- From a state with `P`, the step ends with the given failure and `R`, or with
a success and `Q` if the failure is `none`. -/
def Ends (f : Step σ S) (P : S → Prop) (failure : Option σ) (Q R : S → Prop) : Prop :=
  ∀ status s, ok status = true → P s →
    match failure with
    | none => ok (f status s).1 = true ∧ Q (f status s).2
    | some code => (f status s).1 = code ∧ ok code = false ∧ R (f status s).2

variable {ok} {f g : Step σ S} {P Q Q' R : S → Prop} {failure failure' : Option σ}

theorem andThen_eq (status : σ) (s : S) :
    andThen ok f g status s =
      if ok (f status s).1 then g (f status s).1 (f status s).2 else f status s := rfl

theorem ok_of_andThen {status : σ} {s : S} (h : ok (andThen ok f g status s).1 = true) :
    ok (f status s).1 = true := by
  rw [andThen_eq] at h
  split at h
  next hfirst => exact hfirst
  next => exact h

theorem Ends.andThen (hf : Ends ok f P failure Q R) (hg : Ends ok g Q failure' Q' R) :
    Ends ok (andThen ok f g) P (failure <|> failure') Q' R := by
  intro status s hok hs
  have hfirst := hf status s hok hs
  rw [andThen_eq]
  cases failure with
  | none =>
    obtain ⟨hok', hs'⟩ := hfirst
    rw [if_pos hok']
    exact hg _ _ hok' hs'
  | some code =>
    obtain ⟨hcode, hfails, hs'⟩ := hfirst
    rw [if_neg (by rw [hcode, hfails]; decide)]
    exact ⟨hcode, hfails, hs'⟩

/-- From a state with `P`, the step that succeeds leads to one with `Q`. -/
def Succeeds (ok : σ → Bool) (f : Step σ S) (P Q : S → Prop) : Prop :=
  ∀ status s, P s → ok (f status s).1 = true → Q (f status s).2

theorem Succeeds.andThen (hf : Succeeds ok f P Q) (hg : Succeeds ok g Q Q') :
    Succeeds ok (andThen ok f g) P Q' := by
  intro status s hs hok
  have hfirst := ok_of_andThen hok
  rw [andThen_eq, if_pos hfirst] at hok ⊢
  exact hg _ _ (hf status s hs hfirst) hok

theorem Ends.of_status {code : σ} (hcode : ∀ status s, P s → (f status s).1 = code)
    (hsuccess : Succeeds ok f P Q)
    (hfailure : ok code = false → ∀ status s, P s → R (f status s).2) :
    Ends ok f P (failureOf ok code) Q R := by
  intro status s _ hs
  cases h : ok code with
  | true =>
    have hok : ok (f status s).1 = true := by rw [hcode status s hs, h]
    simp only [failureOf, h, if_true]
    exact ⟨hok, hsuccess status s hs hok⟩
  | false =>
    simp only [failureOf, h]
    exact ⟨hcode status s hs, h, hfailure h status s hs⟩

theorem Ends.pass (hnext : ∀ status s, P s → (f status s).1 = status ∧ Q (f status s).2) :
    Ends ok f P none Q R := by
  intro status s hok hs
  obtain ⟨hstatus, hQ⟩ := hnext status s hs
  rw [hstatus]
  exact ⟨hok, hQ⟩

/-- From a status and a state with `P`, the step leads to ones with `Q`. -/
def Leads (f : Step σ S) (P Q : σ → S → Prop) : Prop :=
  ∀ status s, P status s → Q (f status s).1 (f status s).2

/-- What the first step leads to is the end of the sequence where its status is a
failure. -/
theorem Leads.andThen {P Q R : σ → S → Prop} (hf : Leads f P Q) (hg : Leads g Q R)
    (hfails : ∀ status s, ok status = false → Q status s → R status s) :
    Leads (andThen ok f g) P R := by
  intro status s hs
  have hfirst := hf status s hs
  rw [andThen_eq]
  cases hok : ok (f status s).1 with
  | true =>
    rw [if_pos rfl]
    exact hg _ _ hfirst
  | false =>
    rw [if_neg Bool.false_ne_true]
    exact hfails _ _ hok hfirst

end WinPolyfillLoader.EarlyExit
