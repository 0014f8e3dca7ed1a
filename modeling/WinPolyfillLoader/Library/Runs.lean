/-!
Runs of a deterministic system over a list of operations. Each operation has
a guard on the state it is applied to; the rules below carry an invariant or a
simulation from one step to every admissible run.
-/

namespace Runs

universe u v w

variable {σ : Type u} {ι : Type v} {τ : Type w}

/-- Every operation of the list meets its guard in the state it is applied to. -/
def Admissible (step : σ → ι → σ) (guard : σ → ι → Prop) : σ → List ι → Prop
  | _, [] => True
  | s, i :: is => guard s i ∧ Admissible step guard (step s i) is

instance decidableAdmissible (step : σ → ι → σ) (guard : σ → ι → Prop)
    [∀ s i, Decidable (guard s i)] : (s : σ) → (ops : List ι) →
      Decidable (Admissible step guard s ops)
  | _, [] => .isTrue trivial
  | s, i :: is =>
      have := decidableAdmissible step guard (step s i) is
      inferInstanceAs (Decidable (guard s i ∧ Admissible step guard (step s i) is))

/-- A relation that every guarded step of the system and its specification
keeps relates the ends of every admissible run. -/
theorem simulation {step : σ → ι → σ} (spec : τ → ι → τ) {guard : σ → ι → Prop}
    {R : σ → τ → Prop} (hstep : ∀ s t i, R s t → guard s i → R (step s i) (spec t i))
    {s : σ} {t : τ} {ops : List ι} (hR : R s t) (hops : Admissible step guard s ops) :
    R (ops.foldl step s) (ops.foldl spec t) := by
  induction ops generalizing s t with
  | nil => exact hR
  | cons i is ih =>
    obtain ⟨hguard, hrest⟩ := hops
    exact ih (hstep s t i hR hguard) hrest

/-- An invariant that every guarded step keeps holds at the end of every
admissible run. -/
theorem invariant {step : σ → ι → σ} {guard : σ → ι → Prop} {I : σ → Prop}
    (hstep : ∀ s i, I s → guard s i → I (step s i)) {s : σ} {ops : List ι} (hI : I s)
    (hops : Admissible step guard s ops) : I (ops.foldl step s) := by
  induction ops generalizing s with
  | nil => exact hI
  | cons i is ih =>
    obtain ⟨hguard, hrest⟩ := hops
    exact ih (hstep s i hI hguard) hrest

/-- When a step keeps a property exactly under its guard, the property holds in
every state of a run exactly when the run is admissible. `J` is what the runs
keep in any case, as long as the operations are `allowed`. -/
theorem invariant_iff {step : σ → ι → σ} {guard : σ → ι → Prop} {allowed : ι → Prop}
    {I J : σ → Prop} (hkeep : ∀ s i, J s → I s → allowed i → J (step s i))
    (hstep : ∀ s i, J s → I s → allowed i → (I (step s i) ↔ guard s i)) {s : σ} {ops : List ι}
    (hJ : J s) (hI : I s) (hops : ∀ i ∈ ops, allowed i) :
    (∀ before later, ops = before ++ later → I (before.foldl step s)) ↔
      Admissible step guard s ops := by
  induction ops generalizing s with
  | nil =>
    refine iff_of_true ?_ trivial
    intro before later hsplit
    rw [List.nil_eq, List.append_eq_nil_iff] at hsplit
    rw [hsplit.1]
    exact hI
  | cons i is ih =>
    have hallowed : allowed i := hops i List.mem_cons_self
    have hrest : ∀ i ∈ is, allowed i := fun j hj => hops j (List.mem_cons_of_mem i hj)
    have hnext := hkeep s i hJ hI hallowed
    constructor
    · intro hall
      have hfirst : I (step s i) := hall [i] is rfl
      refine ⟨(hstep s i hJ hI hallowed).mp hfirst, (ih hnext hfirst hrest).mp ?_⟩
      intro before later hsplit
      exact hall (i :: before) later (congrArg (i :: ·) hsplit)
    · rintro ⟨hguard, hlater⟩ before later hsplit
      have hfirst : I (step s i) := (hstep s i hJ hI hallowed).mpr hguard
      cases before with
      | nil => exact hI
      | cons j before =>
        obtain ⟨rfl, htail⟩ := List.cons.inj hsplit
        exact (ih hnext hfirst hrest).mpr hlater before later htail

/-- Two guards that agree where an invariant holds admit the same runs. The second
guard keeps the invariant, as long as the operations are allowed. -/
theorem admissible_congr {step : σ → ι → σ} {allowed guard guard' : σ → ι → Prop} {J : σ → Prop}
    (hiff : ∀ s i, J s → allowed s i → (guard s i ↔ guard' s i))
    (hkeep : ∀ s i, J s → allowed s i → guard' s i → J (step s i)) {s : σ} {ops : List ι}
    (hJ : J s) (hops : Admissible step allowed s ops) :
    Admissible step guard s ops ↔ Admissible step guard' s ops := by
  induction ops generalizing s with
  | nil => exact Iff.rfl
  | cons i is ih =>
    obtain ⟨hallowed, hrest⟩ := hops
    constructor
    · rintro ⟨hguard, hlater⟩
      have hguard' := (hiff s i hJ hallowed).mp hguard
      exact ⟨hguard', (ih (hkeep s i hJ hallowed hguard') hrest).mp hlater⟩
    · rintro ⟨hguard', hlater⟩
      have hguard := (hiff s i hJ hallowed).mpr hguard'
      exact ⟨hguard, (ih (hkeep s i hJ hallowed hguard') hrest).mpr hlater⟩

/-- An account of what the steps lose. When a step loses only clean things exactly
under the guard, so does a run. -/
theorem accounts {α : Type w} {step : σ → ι → σ} {allowed guard : σ → ι → Prop}
    {J : σ → List α → Prop} {clean : α → Prop}
    (hstep : ∀ s lost i, J s lost → allowed s i → ∃ more, J (step s i) (lost ++ more) ∧
      ((∀ x ∈ more, clean x) ↔ guard s i)) {s : σ} {lost : List α} {ops : List ι}
    (hJ : J s lost) (hops : Admissible step allowed s ops) :
    ∃ more, J (ops.foldl step s) (lost ++ more) ∧
      ((∀ x ∈ more, clean x) ↔ Admissible step guard s ops) := by
  induction ops generalizing s lost with
  | nil =>
    refine ⟨[], ?_, iff_of_true (by simp) trivial⟩
    rw [List.append_nil]
    exact hJ
  | cons i is ih =>
    obtain ⟨hallowed, hrest⟩ := hops
    obtain ⟨first, hnext, hfirst⟩ := hstep s lost i hJ hallowed
    obtain ⟨more, hend, hmore⟩ := ih hnext hrest
    refine ⟨first ++ more, ?_, ?_⟩
    · rw [← List.append_assoc]
      exact hend
    · rw [List.forall_mem_append, hfirst, hmore]
      exact Iff.rfl

theorem admissible_and {step : σ → ι → σ} {guard : σ → ι → Prop} {allowed : ι → Prop} {s : σ}
    {ops : List ι} (hops : Admissible step guard s ops) (hallowed : ∀ i ∈ ops, allowed i) :
    Admissible step (fun s i => guard s i ∧ allowed i) s ops := by
  induction ops generalizing s with
  | nil => exact trivial
  | cons i is ih =>
    obtain ⟨hguard, hrest⟩ := hops
    exact ⟨⟨hguard, hallowed i List.mem_cons_self⟩,
      ih hrest fun j hj => hallowed j (List.mem_cons_of_mem i hj)⟩

theorem admissible_append {step : σ → ι → σ} {guard : σ → ι → Prop} {s : σ}
    {ops later : List ι} : Admissible step guard s (ops ++ later) ↔
      Admissible step guard s ops ∧ Admissible step guard (ops.foldl step s) later := by
  induction ops generalizing s with
  | nil => exact (and_iff_right trivial).symm
  | cons i is ih =>
    rw [List.cons_append, Admissible, Admissible, List.foldl_cons, ih, and_assoc]

end Runs
