import WinPolyfillLoader.Library.Heap
import Mathlib.Data.List.Count
import Mathlib.Data.List.Nodup

/-!
Keeping the books of a heap. What a stretch of a program gains and loses is two
lists of blocks; the counts of live blocks follow, and so does the balance of
the log. A block that is freed while it is not live upsets the balance for good.
-/

namespace ProcessHeap

def Heap.frees (heap : Heap) (block : Nat) : Nat := heap.log.count (.free block)

def Heap.allocs (heap : Heap) (block : Nat) : Nat := heap.log.count (.alloc block)

/-- No block is live twice. -/
def Heap.Single (heap : Heap) : Prop := ∀ b ≠ 0, heap.live.count b ≤ 1

/-- In between every block was freed as often as it stopped being live. -/
def Balanced (before after : Heap) : Prop := ∀ b ≠ 0,
  after.frees b + after.live.count b + before.allocs b =
    before.frees b + before.live.count b + after.allocs b

/-- What was gained and lost in between. -/
structure Moves (before after : Heap) (gained lost : List Nat) : Prop where
  live : ∀ b ≠ 0, after.live.count b + lost.count b = before.live.count b + gained.count b
  balanced : Balanced before after
  single : before.Single → after.Single

/-- The heap keeps what it held and holds the blocks, too. -/
structure Grows (before after : Heap) (blocks : List Nat) : Prop where
  live : ∀ b ≠ 0, before.live.count b + blocks.count b ≤ after.live.count b
  single : before.Single → after.Single

/-- What was freed in between is not live afterwards. -/
def FreedGone (before after : Heap) : Prop :=
  ∀ b ≠ 0, before.frees b < after.frees b → after.live.count b = 0

theorem Balanced.refl (heap : Heap) : Balanced heap heap := fun _ _ => rfl

theorem Balanced.trans {before between after : Heap} (h : Balanced before between)
    (h' : Balanced between after) : Balanced before after := by
  intro b hb
  have hfirst := h b hb
  have hsecond := h' b hb
  omega

theorem Moves.trans {before between after : Heap} {gained lost gained' lost' : List Nat}
    (h : Moves before between gained lost) (h' : Moves between after gained' lost') :
    Moves before after (gained ++ gained') (lost ++ lost') where
  live := by
    intro b hb
    have hfirst := h.live b hb
    have hsecond := h'.live b hb
    rw [List.count_append, List.count_append]
    omega
  balanced := h.balanced.trans h'.balanced
  single := fun hsingle => h'.single (h.single hsingle)

theorem count_map_alloc (blocks : List Nat) (b : Nat) :
    (blocks.map Event.alloc).count (.alloc b) = blocks.count b ∧
      (blocks.map Event.alloc).count (.free b) = 0 := by
  constructor
  · exact List.count_map_of_injective _ _ (fun _ _ heq => Event.alloc.inj heq) b
  · apply List.count_eq_zero.mpr
    simp

theorem count_map_free (blocks : List Nat) (b : Nat) :
    (blocks.map Event.free).count (.free b) = blocks.count b ∧
      (blocks.map Event.free).count (.alloc b) = 0 := by
  constructor
  · exact List.count_map_of_injective _ _ (fun _ _ heq => Event.free.inj heq) b
  · apply List.count_eq_zero.mpr
    simp

theorem log_alloc {before after : Heap} {blocks : List Nat}
    (hlog : after.log = before.log ++ blocks.map .alloc) (b : Nat) :
    after.frees b = before.frees b ∧ after.allocs b = before.allocs b + blocks.count b := by
  obtain ⟨halloc, hfree⟩ := count_map_alloc blocks b
  constructor
  · rw [Heap.frees, hlog, List.count_append, hfree]
    rfl
  · rw [Heap.allocs, hlog, List.count_append, halloc]
    rfl

theorem moves_of_fresh {before after : Heap} {blocks : List Nat}
    (hfresh : ∀ b ∈ blocks, b ∉ before.live) (hnodup : blocks.Nodup)
    (hlive : after.live = blocks.reverse ++ before.live)
    (hlog : after.log = before.log ++ blocks.map .alloc) : Moves before after blocks [] := by
  have hcount : ∀ b, after.live.count b = before.live.count b + blocks.count b := by
    intro b
    rw [hlive, List.count_append, List.count_reverse, Nat.add_comm]
  constructor
  · intro b _
    rw [hcount, List.count_nil, Nat.add_zero]
  · intro b _
    obtain ⟨hfrees, hallocs⟩ := log_alloc hlog b
    have hb := hcount b
    omega
  · intro hsingle b hb
    rw [hcount]
    rcases Decidable.em (b ∈ blocks) with hmem | hmem
    · have hold := List.count_eq_zero.mpr (hfresh b hmem)
      have hnew := List.count_eq_one_of_mem hnodup hmem
      omega
    · rw [List.count_eq_zero.mpr hmem]
      exact hsingle b hb

theorem Granted.moves {before after : Heap} {blocks : List Nat}
    (h : Granted before after blocks) : Moves before after blocks [] :=
  moves_of_fresh (fun b hb => (h.fresh b hb).2) h.nodup h.live h.log

theorem claim_moves {heap : Heap} {blocks : List Nat} (hfresh : ∀ b ∈ blocks, b ∉ heap.live)
    (hnodup : blocks.Nodup) : Moves heap (heap.claim blocks) blocks [] :=
  moves_of_fresh hfresh hnodup rfl rfl

theorem Heap.Unused.moves {before after : Heap} (h : Heap.Unused before after) :
    Moves before after [] [] := by
  obtain ⟨hlive, hlog⟩ := h
  constructor
  · intro b _
    rw [hlive]
  · intro b _
    rw [hlive]
    rcases hlog with hlog | ⟨block, _, _, hlog⟩
    · simp only [Heap.frees, Heap.allocs, hlog]
    · simp only [Heap.frees, Heap.allocs, hlog, List.count_append]
      rcases Decidable.em (block = b) with rfl | hne
      · simp
        omega
      · simp [hne]
  · intro hsingle b hb
    rw [hlive]
    exact hsingle b hb

theorem free_log_count (heap : Heap) (block : Nat) {b : Nat} (hb : b ≠ 0) :
    (heap.free block).frees b = heap.frees b + [block].count b ∧
      (heap.free block).allocs b = heap.allocs b := by
  rcases Decidable.em (block = 0) with rfl | hne
  · simp [Heap.free, Ne.symm hb]
  · simp only [Heap.frees, Heap.allocs, free_log hne, List.count_append]
    constructor
    · rw [List.count_singleton, List.count_singleton]
      simp
    · simp

theorem freeAll_log_count (heap : Heap) (blocks : List Nat) {b : Nat} (hb : b ≠ 0) :
    (heap.freeAll blocks).frees b = heap.frees b + blocks.count b ∧
      (heap.freeAll blocks).allocs b = heap.allocs b := by
  induction blocks generalizing heap with
  | nil => exact ⟨rfl, rfl⟩
  | cons block blocks ih =>
    obtain ⟨hfrees, hallocs⟩ := ih (heap.free block)
    obtain ⟨hfirst, hfirst'⟩ := free_log_count heap block hb
    have hcons : (block :: blocks).count b = [block].count b + blocks.count b := by
      rw [← List.count_append, List.singleton_append]
    change ((heap.free block).freeAll blocks).frees b = _ ∧
      ((heap.free block).freeAll blocks).allocs b = _
    rw [hfrees, hallocs, hfirst, hfirst', hcons]
    exact ⟨Nat.add_assoc _ _ _, rfl⟩

theorem freeAll_moves {heap : Heap} {blocks : List Nat}
    (h : ∀ b ≠ 0, blocks.count b ≤ heap.live.count b) :
    Moves heap (heap.freeAll blocks) [] blocks := by
  constructor
  · intro b hb
    have hle := h b hb
    rw [freeAll_live_count heap blocks hb, List.count_nil]
    omega
  · intro b hb
    have hle := h b hb
    obtain ⟨hfrees, hallocs⟩ := freeAll_log_count heap blocks hb
    rw [hfrees, hallocs, freeAll_live_count heap blocks hb]
    omega
  · intro hsingle b hb
    rw [freeAll_live_count heap blocks hb]
    exact Nat.le_trans (Nat.sub_le _ _) (hsingle b hb)

/-- Live blocks are given back with the one that they are pointed to from. -/
theorem Heap.Unused.freed_moves {before after : Heap} (h : Heap.Unused before after)
    {blocks : List Nat} {block : Nat}
    (hlive : ∀ b ≠ 0, (blocks ++ [block]).count b ≤ before.live.count b) :
    Moves before ((after.freeAll blocks).free block) [] (blocks ++ [block]) := by
  have hfree : (after.freeAll blocks).free block = after.freeAll (blocks ++ [block]) :=
    (freeAll_append after blocks [block]).symm
  rw [hfree]
  apply h.moves.trans
  apply freeAll_moves
  rw [h.1]
  exact hlive

theorem free_moves {heap : Heap} {block : Nat} (h : block ≠ 0 → block ∈ heap.live) :
    Moves heap (heap.free block) [] [block] := by
  change Moves heap (heap.freeAll [block]) [] [block]
  apply freeAll_moves
  intro b hb
  rcases Decidable.em (block = b) with rfl | hne
  · rw [List.count_singleton_self]
    exact List.count_pos_iff.mpr (h hb)
  · rw [List.count_singleton, if_neg (by simpa using hne)]
    exact Nat.zero_le _

theorem moves_of_returned {before after : Heap} {blocks : List Nat}
    (hlive : ∀ b ≠ 0, after.live.count b = before.live.count b)
    (hlog : after.log = before.log ++ blocks.map .alloc ++ blocks.map .free) :
    Moves before after [] [] := by
  have hcounts : ∀ b, after.frees b = before.frees b + blocks.count b ∧
      after.allocs b = before.allocs b + blocks.count b := by
    intro b
    obtain ⟨halloc, hfree⟩ := count_map_alloc blocks b
    obtain ⟨hfree', halloc'⟩ := count_map_free blocks b
    constructor
    · rw [Heap.frees, hlog, List.count_append, List.count_append, hfree, hfree']
      rfl
    · rw [Heap.allocs, hlog, List.count_append, List.count_append, halloc, halloc']
      rfl
  constructor
  · intro b hb
    rw [hlive b hb]
  · intro b hb
    obtain ⟨hfrees, hallocs⟩ := hcounts b
    have hsame := hlive b hb
    omega
  · intro hsingle b hb
    rw [hlive b hb]
    exact hsingle b hb

section Grows

variable {before between after : Heap} {blocks blocks' : List Nat}

theorem Moves.grows (h : Moves before after blocks []) : Grows before after blocks where
  live := fun b hb => Nat.le_of_eq (h.live b hb).symm
  single := h.single

theorem Grows.trans (h : Grows before between blocks) (h' : Grows between after blocks') :
    Grows before after (blocks ++ blocks') where
  live := by
    intro b hb
    have hfirst := h.live b hb
    have hsecond := h'.live b hb
    rw [List.count_append]
    omega
  single := fun hsingle => h'.single (h.single hsingle)

theorem Grows.sublist (h : Grows before after blocks') (hsub : blocks.Sublist blocks') :
    Grows before after blocks where
  live := fun b hb =>
    Nat.le_trans (Nat.add_le_add_left (hsub.count_le b) _) (h.live b hb)
  single := h.single

theorem Grows.free {block : Nat} (h : Grows before after (block :: blocks)) :
    Grows before (after.free block) blocks where
  live := by
    intro b hb
    have hlive := h.live b hb
    rw [free_live_count after block hb]
    rw [← List.singleton_append, List.count_append] at hlive
    omega
  single := by
    intro hsingle b hb
    rw [free_live_count after block hb]
    exact Nat.le_trans (Nat.sub_le _ _) (h.single hsingle b hb)

theorem Grows.fresh (h : Grows before after blocks) (hsingle : before.Single) {b : Nat}
    (hb : b ≠ 0) (hmem : b ∈ blocks) : b ∉ before.live := by
  intro hlive
  have hcount := h.live b hb
  have honce := h.single hsingle b hb
  have hold := List.count_pos_iff.mpr hlive
  have hnew := List.count_pos_iff.mpr hmem
  omega

theorem Grows.once (h : Grows before after blocks) (hsingle : before.Single) {b : Nat}
    (hb : b ≠ 0) : blocks.count b ≤ 1 := by
  have hcount := h.live b hb
  have honce := h.single hsingle b hb
  omega

end Grows

section FreedGone

variable {before between after : Heap}

theorem FreedGone.refl (heap : Heap) : FreedGone heap heap :=
  fun _ _ hlt => absurd hlt (Nat.lt_irrefl _)

theorem Granted.freedGone {blocks : List Nat} (h : Granted before after blocks) :
    FreedGone before after := by
  intro b _ hlt
  rw [(log_alloc h.log b).1] at hlt
  exact absurd hlt (Nat.lt_irrefl _)

theorem FreedGone.unused (h : FreedGone before between) (hunused : Heap.Unused between after) :
    FreedGone before after := by
  obtain ⟨hlive, hlog⟩ := hunused
  intro b hb hlt
  rw [hlive]
  rcases hlog with hlog | ⟨block, _, hfresh, hlog⟩
  · rw [Heap.frees, Heap.frees, hlog] at hlt
    exact h b hb hlt
  · rcases Decidable.em (block = b) with rfl | hne
    · exact List.count_eq_zero.mpr hfresh
    · apply h b hb
      simpa [Heap.frees, hlog, hne] using hlt

/-- What is freed is not live any more, as no block is live twice. -/
theorem FreedGone.freeAll (h : FreedGone before between) (hsingle : between.Single)
    (blocks : List Nat) : FreedGone before (between.freeAll blocks) := by
  intro b hb hlt
  have honce := hsingle b hb
  rw [(freeAll_log_count between blocks hb).1] at hlt
  rw [freeAll_live_count between blocks hb]
  rcases Nat.eq_zero_or_pos (blocks.count b) with hzero | hpos
  · rw [hzero, Nat.add_zero] at hlt
    rw [h b hb hlt, Nat.zero_sub]
  · omega

theorem FreedGone.returned {blocks : List Nat} (h : FreedGone before between)
    (hfresh : ∀ b ∈ blocks, b ∉ between.live)
    (hlive : ∀ b ≠ 0, after.live.count b = between.live.count b)
    (hlog : after.log = between.log ++ blocks.map .alloc ++ blocks.map .free) :
    FreedGone before after := by
  intro b hb hlt
  rw [hlive b hb]
  rcases Decidable.em (b ∈ blocks) with hmem | hmem
  · exact List.count_eq_zero.mpr (hfresh b hmem)
  · apply h b hb
    simp only [Heap.frees, hlog, List.count_append, count_map_alloc, count_map_free,
      List.count_eq_zero.mpr hmem] at hlt
    exact hlt

end FreedGone

section Holders

variable {α : Type*} {f g : α → List Nat}

theorem count_flatMap_exchange {holders : List α} (hnodup : holders.Nodup) {x : α}
    (hx : x ∈ holders) (hother : ∀ y ∈ holders, y ≠ x → g y = f y) (b : Nat) :
    (holders.flatMap g).count b + (f x).count b = (holders.flatMap f).count b + (g x).count b := by
  obtain ⟨older, younger, rfl⟩ := List.append_of_mem hx
  have hnew : x ∉ older ++ younger := (List.nodup_middle.mp hnodup).notMem
  have hsame : ∀ y ∈ older ++ younger, g y = f y := by
    intro y hy
    apply hother y
    · rcases List.mem_append.mp hy with hy | hy
      · exact List.mem_append_left _ hy
      · exact List.mem_append_right _ (List.mem_cons_of_mem _ hy)
    · rintro rfl
      exact hnew hy
  have holder : older.flatMap g = older.flatMap f :=
    List.flatMap_congr fun y hy => hsame y (List.mem_append_left _ hy)
  have hyounger : younger.flatMap g = younger.flatMap f :=
    List.flatMap_congr fun y hy => hsame y (List.mem_append_right _ hy)
  simp only [List.flatMap_append, List.flatMap_cons, List.count_append, holder, hyounger]
  omega

theorem count_map_exchange {keys : List α} {v w : α → Nat} (hnodup : keys.Nodup) {k : α}
    (hk : k ∈ keys) (hother : ∀ j ∈ keys, j ≠ k → w j = v j) (b : Nat) :
    (keys.map w).count b + [v k].count b = (keys.map v).count b + [w k].count b := by
  have hexchange := count_flatMap_exchange (f := fun j => [v j]) (g := fun j => [w j]) hnodup hk
    (fun j hj hne => by rw [hother j hj hne]) b
  rw [← List.map_eq_flatMap, ← List.map_eq_flatMap] at hexchange
  exact hexchange

theorem count_flatMap_split {part : α → List Nat} {holders : List α} {b : Nat}
    (h : ∀ x ∈ holders, (f x).count b = (g x).count b + (part x).count b) :
    (holders.flatMap f).count b = (holders.flatMap g).count b + (holders.flatMap part).count b := by
  induction holders with
  | nil => rfl
  | cons x holders ih =>
    have hfirst := h x List.mem_cons_self
    have hrest := ih fun y hy => h y (List.mem_cons_of_mem _ hy)
    simp only [List.flatMap_cons, List.count_append]
    omega

theorem count_flatMap_filter (keep : α → Bool) (f : α → List Nat) (holders : List α) (b : Nat) :
    (holders.flatMap f).count b = ((holders.filter keep).flatMap f).count b +
      ((holders.filter fun x => !keep x).flatMap f).count b := by
  have hperm := ((List.filter_append_perm keep holders).flatMap_right f).count_eq b
  rw [List.flatMap_append, List.count_append] at hperm
  exact hperm.symm

theorem holder_unique {holders : List α} {v : α → Nat} {x y : α} (hx : x ∈ holders)
    (hy : y ∈ holders) {b : Nat} (hxb : v x = b) (hyb : v y = b)
    (honce : (holders.map v).count b ≤ 1) : x = y := by
  obtain ⟨older, younger, rfl⟩ := List.append_of_mem hx
  rw [List.map_append, List.map_cons, List.count_append, List.count_cons, if_pos (by simpa using hxb)]
    at honce
  have hnone : ∀ {side : List α}, (side.map v).count b = 0 → y ∉ side := by
    intro side hzero hmem
    exact List.count_eq_zero.mp hzero (hyb ▸ List.mem_map_of_mem hmem)
  rcases List.mem_append.mp hy with hmem | hmem
  · exact absurd hmem (hnone (by omega))
  · rcases List.mem_cons.mp hmem with heq | hmem
    · exact heq.symm
    · exact absurd hmem (hnone (by omega))

end Holders

end ProcessHeap
