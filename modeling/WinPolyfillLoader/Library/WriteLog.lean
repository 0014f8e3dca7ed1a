import WinPolyfillLoader.Library.Memory

/-!
A list of writes to a byte memory, first to last. An integer reads as the last write to it
says, if later writes leave it alone.
-/

namespace ByteMemory

structure Write where
  start : Nat
  size : Nat
  value : Nat
deriving DecidableEq, Repr

def Write.stop (w : Write) : Nat := w.start + w.size

def writeAll (m : Bytes) (ws : List Write) : Bytes :=
  ws.foldl (fun m w => writeLE m w.start w.size w.value) m

/-- Every write lies in one of the ranges, given by their starts and sizes. -/
def WritesTo (ranges : List (Nat × Nat)) (ws : List Write) : Prop :=
  ∀ w ∈ ws, ∃ r ∈ ranges, r.1 ≤ w.start ∧ w.stop ≤ r.1 + r.2

section Writes

variable {m : Bytes} {ranges : List (Nat × Nat)} {ws first second : List Write}

theorem writeAll_append (m : Bytes) (first second : List Write) :
    writeAll m (first ++ second) = writeAll (writeAll m first) second :=
  List.foldl_append

theorem readLE_writeAll_apart {a n : Nat} (hranges : ∀ r ∈ ranges, Apart r.1 r.2 a n)
    (h : WritesTo ranges ws) : readLE (writeAll m ws) a n = readLE m a n := by
  induction ws generalizing m with
  | nil => rfl
  | cons w ws ih =>
    have hrest : WritesTo ranges ws := fun w' hw' => h w' (List.mem_cons_of_mem w hw')
    obtain ⟨r, hr, hstart, hstop⟩ := h w List.mem_cons_self
    have hapart := hranges r hr
    unfold Apart at hapart
    unfold Write.stop at hstop
    rw [writeAll, List.foldl_cons, ← writeAll, ih hrest]
    exact readLE_writeLE_disjoint m (by omega)

theorem readLE_writeAll_mem {w : Write}
    (hapart : ws.Pairwise fun v w => Apart v.start v.size w.start w.size) (hw : w ∈ ws) :
    readLE (writeAll m ws) w.start w.size = w.value % 256 ^ w.size := by
  induction ws generalizing m with
  | nil => cases hw
  | cons v ws ih =>
    obtain ⟨hfirst, hrest⟩ := List.pairwise_cons.mp hapart
    rw [writeAll, List.foldl_cons, ← writeAll]
    rcases List.mem_cons.mp hw with rfl | hw
    · have hothers : WritesTo (ws.map fun v => (v.start, v.size)) ws :=
        fun v hv => ⟨(v.start, v.size), List.mem_map_of_mem hv, Nat.le_refl _, Nat.le_refl _⟩
      have hlater : ∀ r ∈ ws.map fun v => (v.start, v.size), Apart r.1 r.2 w.start w.size := by
        intro r hr
        obtain ⟨v, hv, rfl⟩ := List.mem_map.mp hr
        exact Or.symm (hfirst v hv)
      rw [readLE_writeAll_apart hlater hothers, readLE_writeLE]
    · exact ih hrest hw

/-- A write of a group is read back if all later writes leave it alone. -/
theorem readLE_writeAll_last {w : Write} {before group after : List Write}
    (hapart : group.Pairwise fun v w => Apart v.start v.size w.start w.size) (hw : w ∈ group)
    (hafter : WritesTo ranges after) (hranges : ∀ r ∈ ranges, Apart r.1 r.2 w.start w.size) :
    readLE (writeAll m (before ++ (group ++ after))) w.start w.size = w.value % 256 ^ w.size := by
  rw [writeAll_append, writeAll_append, readLE_writeAll_apart hranges hafter,
    readLE_writeAll_mem hapart hw]

theorem readLE_writeAll_zero {a n : Nat} (hzero : ∀ k, a ≤ k → k < a + n → m k = 0)
    (h : WritesTo ranges ws) (hranges : ∀ r ∈ ranges, Apart r.1 r.2 a n) :
    readLE (writeAll m ws) a n = 0 := by
  rw [readLE_writeAll_apart hranges h]
  clear hranges
  induction n generalizing a with
  | zero => rfl
  | succ n ih =>
    have hhead : m a = 0 := hzero a (Nat.le_refl a) (by omega)
    rw [readLE, hhead, ih fun k hk hkn => hzero k (by omega) (by omega)]
    rfl

theorem writesTo_nil : WritesTo ranges [] := fun _ hw => nomatch hw

theorem writesTo_append (hfirst : WritesTo ranges first) (hsecond : WritesTo ranges second) :
    WritesTo ranges (first ++ second) := by
  intro w hw
  rcases List.mem_append.mp hw with hw | hw
  · exact hfirst w hw
  · exact hsecond w hw

theorem writesTo_cons {w : Write} (hw : WritesTo ranges [w]) (h : WritesTo ranges ws) :
    WritesTo ranges (w :: ws) := writesTo_append hw h

theorem WritesTo.mono {wider : List (Nat × Nat)} (h : WritesTo ranges ws)
    (hsub : ranges ⊆ wider) : WritesTo wider ws := by
  intro w hw
  obtain ⟨r, hr, hstart, hstop⟩ := h w hw
  exact ⟨r, hsub hr, hstart, hstop⟩

theorem writesTo_union {others : List (Nat × Nat)} (hfirst : WritesTo ranges first)
    (hsecond : WritesTo others second) : WritesTo (ranges ++ others) (first ++ second) :=
  writesTo_append (hfirst.mono (List.subset_append_left _ _))
    (hsecond.mono (List.subset_append_right _ _))

theorem WritesTo.stop_le {size : Nat} (h : WritesTo ranges ws)
    (hranges : ∀ r ∈ ranges, r.1 + r.2 ≤ size) : ∀ w ∈ ws, w.stop ≤ size := by
  intro w hw
  obtain ⟨r, hr, -, hstop⟩ := h w hw
  exact Nat.le_trans hstop (hranges r hr)

end Writes

end ByteMemory
