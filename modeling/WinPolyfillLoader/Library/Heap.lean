import Mathlib.Data.List.Basic

/-!
A process heap seen through its answers. Which request is granted, and at
which address, is decided by a list of answers that a proof leaves arbitrary;
an answer that names no fresh address counts as a refusal. The log of
allocations and frees is what leaks and double frees are stated about.
-/

namespace ProcessHeap

inductive Event where
  | alloc (block : Nat)
  | free (block : Nat)
deriving DecidableEq, Repr

structure Heap where
  live : List Nat
  answers : List (Option Nat)
  log : List Event
deriving DecidableEq, Repr

/-- One request. A refused request returns null. -/
def Heap.allocate (heap : Heap) : Option Nat × Heap :=
  match heap.answers with
  | [] => (none, heap)
  | none :: rest => (none, { heap with answers := rest })
  | some block :: rest =>
      if block ≠ 0 ∧ block ∉ heap.live then
        (some block,
          { live := block :: heap.live, answers := rest, log := heap.log ++ [.alloc block] })
      else (none, { heap with answers := rest })

def Heap.free (heap : Heap) (block : Nat) : Heap :=
  if block = 0 then heap
  else { heap with live := heap.live.erase block, log := heap.log ++ [.free block] }

def Heap.freeAll (heap : Heap) (blocks : List Nat) : Heap := blocks.foldl Heap.free heap

/-- Blocks that another party took from the heap. -/
def Heap.claim (heap : Heap) (blocks : List Nat) : Heap :=
  { heap with live := blocks.reverse ++ heap.live, log := heap.log ++ blocks.map .alloc }

/-- The next `n` requests are all granted. -/
def Heap.grants : Nat → Heap → Bool
  | 0, _ => true
  | n + 1, heap =>
      match heap.allocate with
      | (some _, heap) => Heap.grants n heap
      | (none, _) => false

/-- The blocks of the next `n` requests, up to the first that is refused. -/
def Heap.next : Nat → Heap → List Nat
  | 0, _ => []
  | n + 1, heap =>
      match heap.allocate with
      | (some block, heap) => block :: Heap.next n heap
      | (none, _) => []

/-- What was logged since an earlier state of the heap. -/
def Heap.since (start heap : Heap) : List Event := heap.log.drop start.log.length

/-- Every block that was allocated in the log was freed as often as it was
allocated. -/
def FreedOnce (events : List Event) : Prop :=
  ∀ block, Event.alloc block ∈ events → events.count (.free block) = events.count (.alloc block)

/-- A request is refused and changes nothing, or is granted at a fresh block. -/
theorem allocate_cases (heap : Heap) :
    (∃ next, heap.allocate = (none, next) ∧ next.live = heap.live ∧ next.log = heap.log ∧
      ∀ n, heap.grants (n + 1) = false) ∨
    (∃ block next, heap.allocate = (some block, next) ∧ block ≠ 0 ∧ block ∉ heap.live ∧
      next.live = block :: heap.live ∧ next.log = heap.log ++ [.alloc block] ∧
      ∀ n, heap.grants (n + 1) = next.grants n) := by
  cases hresult : heap.allocate with
  | mk answer next =>
    have hgrants : ∀ n, heap.grants (n + 1) =
        match heap.allocate with
        | (some _, heap) => Heap.grants n heap
        | (none, _) => false := fun _ => rfl
    rw [hresult] at hgrants
    unfold Heap.allocate at hresult
    split at hresult
    · cases hresult
      exact Or.inl ⟨_, rfl, rfl, rfl, hgrants⟩
    · cases hresult
      exact Or.inl ⟨_, rfl, rfl, rfl, hgrants⟩
    · split at hresult
      · rename_i hfresh
        cases hresult
        exact Or.inr ⟨_, _, rfl, hfresh.1, hfresh.2, rfl, rfl, hgrants⟩
      · cases hresult
        exact Or.inl ⟨_, rfl, rfl, rfl, hgrants⟩

theorem allocate_some {heap next : Heap} {block : Nat} (h : heap.allocate = (some block, next)) :
    block ≠ 0 ∧ block ∉ heap.live ∧ next.live = block :: heap.live ∧
      next.log = heap.log ++ [.alloc block] := by
  rcases allocate_cases heap with ⟨_, hanswer, _⟩ | ⟨_, _, hanswer, h0, hfresh, hlive, hlog, _⟩
  · rw [h] at hanswer
    cases hanswer
  · rw [h] at hanswer
    cases hanswer
    exact ⟨h0, hfresh, hlive, hlog⟩

theorem next_succ {heap next : Heap} {block : Nat} (h : heap.allocate = (some block, next))
    (n : Nat) : heap.next (n + 1) = block :: next.next n := by
  rw [Heap.next, h]

theorem grants_succ {heap : Heap} {n : Nat} (h : heap.grants (n + 1) = true) :
    heap.grants n = true := by
  induction n generalizing heap with
  | zero => rfl
  | succ n ih =>
    rcases allocate_cases heap with ⟨_, _, _, _, hrefused⟩ | ⟨_, next, _, _, _, _, _, hgranted⟩
    · rw [hrefused] at h
      cases h
    · rw [hgranted] at h ⊢
      exact ih h

theorem grants_of_le {heap : Heap} {m n : Nat} (hle : m ≤ n) (h : heap.grants n = true) :
    heap.grants m = true := by
  induction hle with
  | refl => exact h
  | step _ ih => exact ih (grants_succ h)

theorem grants_of_next {heap : Heap} {n : Nat} (h : (heap.next n).length = n) :
    heap.grants n = true := by
  induction n generalizing heap with
  | zero => rfl
  | succ n ih =>
    cases hresult : heap.allocate with
    | mk answer next =>
      cases answer with
      | none =>
        simp only [Heap.next, hresult, List.length_nil] at h
        omega
      | some block =>
        simp only [Heap.next, hresult, List.length_cons] at h
        simp only [Heap.grants, hresult]
        exact ih (Nat.succ.inj h)

theorem free_log {heap : Heap} {block : Nat} (h : block ≠ 0) :
    (heap.free block).log = heap.log ++ [.free block] := by
  rw [Heap.free, if_neg h]

theorem freeAll_append (heap : Heap) (first second : List Nat) :
    heap.freeAll (first ++ second) = (heap.freeAll first).freeAll second := List.foldl_append

theorem freeAll_log {heap : Heap} {blocks : List Nat} (h : ∀ b ∈ blocks, b ≠ 0) :
    (heap.freeAll blocks).log = heap.log ++ blocks.map .free := by
  induction blocks generalizing heap with
  | nil => simp [Heap.freeAll]
  | cons b blocks ih =>
    have hb : b ≠ 0 := h b (by simp)
    have hrec := @ih (heap.free b) (fun c hc => h c (by simp [hc]))
    unfold Heap.freeAll at hrec ⊢
    rw [List.foldl_cons, hrec, free_log hb, List.append_assoc]
    rfl

theorem free_live_count (heap : Heap) (block : Nat) {b : Nat} (hb : b ≠ 0) :
    (heap.free block).live.count b = heap.live.count b - [block].count b := by
  rw [Heap.free]
  split
  · rename_i h0
    have hne : block ≠ b := fun heq => hb (heq ▸ h0)
    simp [hne]
  · rw [List.count_erase, List.count_singleton]

theorem freeAll_live_count (heap : Heap) (blocks : List Nat) {b : Nat} (hb : b ≠ 0) :
    (heap.freeAll blocks).live.count b = heap.live.count b - blocks.count b := by
  induction blocks generalizing heap with
  | nil => simp [Heap.freeAll]
  | cons block blocks ih =>
    have hrec := ih (heap.free block)
    unfold Heap.freeAll at hrec ⊢
    have hcons : (block :: blocks).count b = [block].count b + blocks.count b := by
      rw [← List.count_append, List.singleton_append]
    rw [List.foldl_cons, hrec, free_live_count heap block hb, hcons]
    omega

theorem since_eq {start heap : Heap} {events : List Event} (h : heap.log = start.log ++ events) :
    Heap.since start heap = events := by
  rw [Heap.since, h, List.drop_left]

/-- The blocks were granted in between, in this order, and none was freed. -/
structure Granted (before after : Heap) (blocks : List Nat) : Prop where
  fresh : ∀ b ∈ blocks, b ≠ 0 ∧ b ∉ before.live
  nodup : blocks.Nodup
  live : after.live = blocks.reverse ++ before.live
  log : after.log = before.log ++ blocks.map .alloc

theorem Granted.append {before between after : Heap} {blocks more : List Nat}
    (h : Granted before between blocks) (h' : Granted between after more) :
    Granted before after (blocks ++ more) := by
  have hmore : ∀ b ∈ more, b ∉ blocks ∧ b ∉ before.live := by
    intro b hb
    have hnot := (h'.fresh b hb).2
    rw [h.live, List.mem_append, List.mem_reverse, not_or] at hnot
    exact hnot
  constructor
  · intro b hb
    rcases List.mem_append.mp hb with hb | hb
    · exact h.fresh b hb
    · exact ⟨(h'.fresh b hb).1, (hmore b hb).2⟩
  · apply List.nodup_append.mpr
    refine ⟨h.nodup, h'.nodup, ?_⟩
    rintro b hb _ hb' rfl
    exact (hmore b hb').1 hb
  · rw [h'.live, h.live, List.reverse_append, List.append_assoc]
  · rw [h'.log, h.log, List.map_append, List.append_assoc]

theorem granted_nil (heap : Heap) : Granted heap heap [] where
  fresh := by simp
  nodup := List.nodup_nil
  live := rfl
  log := (List.append_nil _).symm

theorem granted_single {before after : Heap} {block : Nat} (h0 : block ≠ 0)
    (hfresh : block ∉ before.live) (hlive : after.live = block :: before.live)
    (hlog : after.log = before.log ++ [.alloc block]) : Granted before after [block] where
  fresh := by simpa using ⟨h0, hfresh⟩
  nodup := List.pairwise_singleton _ block
  live := hlive
  log := hlog

theorem Granted.refused {before between after : Heap} {blocks : List Nat}
    (h : Granted before between blocks) (hlive : after.live = between.live)
    (hlog : after.log = between.log) : Granted before after blocks where
  fresh := h.fresh
  nodup := h.nodup
  live := hlive.trans h.live
  log := hlog.trans h.log

/-- Nothing was requested in between, or one block that was given back. -/
def Heap.Unused (before after : Heap) : Prop :=
  after.live = before.live ∧
    (after.log = before.log ∨ ∃ block, block ≠ 0 ∧ block ∉ before.live ∧
      after.log = before.log ++ [.alloc block, .free block])

theorem unused_of_refused {before after : Heap} (hlive : after.live = before.live)
    (hlog : after.log = before.log) : Heap.Unused before after := ⟨hlive, Or.inl hlog⟩

theorem unused_of_freed {before granted : Heap} {block : Nat} (h0 : block ≠ 0)
    (hfresh : block ∉ before.live) (hlive : granted.live = block :: before.live)
    (hlog : granted.log = before.log ++ [.alloc block]) :
    Heap.Unused before (granted.free block) := by
  constructor
  · rw [Heap.free, if_neg h0, hlive]
    exact List.erase_cons_head block before.live
  · refine Or.inr ⟨block, h0, hfresh, ?_⟩
    rw [free_log h0, hlog, List.append_assoc]
    rfl

theorem freedOnce_nil : FreedOnce [] := by
  intro block h
  cases h

theorem freedOnce_pair (block : Nat) : FreedOnce [.alloc block, .free block] := by
  intro b h
  have hb : b = block := by simpa using h
  subst hb
  simp

theorem freedOnce_of_unused {before after : Heap} (h : Heap.Unused before after) :
    FreedOnce (Heap.since before after) := by
  rcases h.2 with hlog | ⟨block, _, _, hlog⟩
  · exact since_eq (hlog.trans (List.append_nil _).symm) ▸ freedOnce_nil
  · exact since_eq hlog ▸ freedOnce_pair block

theorem not_freedOnce {events : List Event} (block : Nat) (halloc : .alloc block ∈ events)
    (hfree : .free block ∉ events) : ¬ FreedOnce events := by
  intro h
  have hzero : events.count (.free block) = 0 := List.count_eq_zero.mpr hfree
  have hpos : 0 < events.count (.alloc block) := List.count_pos_iff.mpr halloc
  have heq := h block halloc
  omega

end ProcessHeap
