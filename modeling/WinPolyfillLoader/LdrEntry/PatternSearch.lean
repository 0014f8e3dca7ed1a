import Mathlib.Logic.Relation
import WinPolyfillLoader.LdrEntry.SectionLookup
import WinPolyfillLoader.Library.Positions

/-!
`RtlFindMemoryBlockFromModuleSection`. The context keeps where the last hit was
and how much of the section is left from there; a further call goes on behind it.
-/

namespace WinPolyfillLoader.LdrEntry

open ByteMemory MemoryModule Relation Positions

structure SearchContext where
  searchPattern : Nat
  patternSize : Nat
  result : Nat
  memoryBlockSize : Nat
deriving DecidableEq, Repr

/-- `++Result` and `--MemoryBlockSize`. -/
def SearchContext.advance (x : SearchContext) (host : Host) : SearchContext :=
  { x with
    result := (x.result + 1) % host.addresses
    memoryBlockSize := (x.memoryBlockSize + host.addresses - 1) % host.addresses }

/-- The output parameters are cleared. -/
def SearchContext.clear (x : SearchContext) : SearchContext :=
  { x with result := 0, memoryBlockSize := 0 }

/-- The last address at which the pattern fits. -/
def SearchContext.last (x : SearchContext) (host : Host) : Nat :=
  (x.result + x.memoryBlockSize + host.addresses - x.patternSize) % host.addresses

/-- `RtlCompareMemory`: how many bytes agree before the first that does not. -/
def rtlCompareMemory (m : Bytes) (first second : Nat) : Nat → Nat
  | 0 => 0
  | n + 1 => if m first = m second then rtlCompareMemory m (first + 1) (second + 1) n + 1 else 0

/-- The comparison with the pattern; `none` for an access violation. -/
def comparePattern (v : ModuleView) (x : SearchContext) : Option Nat :=
  if accessible v.mapped x.searchPattern x.patternSize &&
      accessible v.mapped x.result x.patternSize then
    some (rtlCompareMemory v.bytes x.searchPattern x.result x.patternSize)
  else none

/-- The context for the address range of a section. -/
def searchSection (v : ModuleView) (moduleHandle sectionHeader : Nat) (x : SearchContext) :
    Except (NtStatus × SearchContext) SearchContext :=
  match v.load sectionHeader virtualAddress with
  | .error status => .error (status, x)
  | .ok address =>
    let x := { x with result := v.host.offset moduleHandle address }
    match v.load sectionHeader virtualSize with
    | .error status => .error (status, x)
    | .ok size =>
      let x := { x with memoryBlockSize := size }
      if x.result = 0 ∨ x.memoryBlockSize = 0 ∨ x.memoryBlockSize < x.patternSize then
        .error (statusNotFound, x.clear)
      else .ok x

def firstSearch (v : ModuleView) (moduleHandle sectionName : Nat) (x : SearchContext) :
    Except (NtStatus × SearchContext) SearchContext :=
  match v.imageNtHeader moduleHandle with
  | none => .error (statusInvalidParameter1, x)
  | some ntHeaders =>
    match selectSection v sectionName ntHeaders with
    | .error status => .error (status, x)
    | .ok none => .error (statusNotFound, x.clear)
    | .ok (some sectionHeader) => searchSection v moduleHandle sectionHeader x

/-- Where a call starts to compare, or what it returns without. -/
def startSearch (v : ModuleView) (moduleHandle sectionName : Nat) (x : SearchContext) :
    Except (NtStatus × SearchContext) SearchContext :=
  if x.searchPattern = 0 ∨ x.patternSize = 0 then .error (statusInvalidParameter, x.clear)
  else if x.result ≠ 0 then .ok (x.advance v.host)
  else firstSearch v moduleHandle sectionName x

/-- The linear search; `none` if it still runs. -/
def linearSearch (v : ModuleView) (last : Nat) : Nat → SearchContext →
    Option (NtStatus × SearchContext)
  | 0, _ => none
  | fuel + 1, x =>
    if x.result ≤ last then
      match comparePattern v x with
      | none => some (statusAccessViolation, x)
      | some same =>
        if same = x.patternSize then some (statusSuccess, x)
        else linearSearch v last fuel (x.advance v.host)
    else some (statusNotFound, x.clear)

/-- `RtlFindMemoryBlockFromModuleSection`: the status and the context. -/
def rtlFindMemoryBlockFromModuleSection (v : ModuleView) (moduleHandle sectionName fuel : Nat)
    (x : SearchContext) : Option (NtStatus × SearchContext) :=
  match startSearch v moduleHandle sectionName x with
  | .error result => some result
  | .ok x => linearSearch v (x.last v.host) fuel x

/-- The results of a number of calls, each with the context that the one before it
has left. -/
def repeatedCalls (v : ModuleView) (moduleHandle sectionName fuel : Nat) :
    Nat → SearchContext → Option (List (NtStatus × SearchContext))
  | 0, _ => some []
  | calls + 1, x =>
    match rtlFindMemoryBlockFromModuleSection v moduleHandle sectionName fuel x with
    | none => none
    | some result =>
      (repeatedCalls v moduleHandle sectionName fuel calls result.2).map (result :: ·)

/-- The named section of the image is found and can be read, so it is neither at null
nor at the end of the address space; so can the pattern, which is not empty. -/
structure SectionFound (v : ModuleView) (moduleHandle sectionName : Nat) (x : SearchContext)
    (start size : Nat) : Prop where
  selected : ∃ ntHeaders sectionHeader address, v.imageNtHeader moduleHandle = some ntHeaders ∧
    selectSection v sectionName ntHeaders = .ok (some sectionHeader) ∧
    v.load sectionHeader virtualAddress = .ok address ∧
    v.host.offset moduleHandle address = start ∧ v.load sectionHeader virtualSize = .ok size
  pattern : x.searchPattern ≠ 0
  patternSize : 0 < x.patternSize
  patternReadable : accessible v.mapped x.searchPattern x.patternSize = true
  readable : accessible v.mapped start size = true
  notNull : 0 < start
  placed : start + size < v.host.addresses

def Occurs (v : ModuleView) (x : SearchContext) (a : Nat) : Prop :=
  ∀ j < x.patternSize, v.bytes (x.searchPattern + j) = v.bytes (a + j)

instance (v : ModuleView) (x : SearchContext) (a : Nat) : Decidable (Occurs v x a) :=
  inferInstanceAs (Decidable (∀ j < x.patternSize, _))

/-- The addresses of a section at which the pattern occurs. -/
def occurrences (v : ModuleView) (x : SearchContext) (first stop : Nat) : List Nat :=
  positions (fun a => decide (Occurs v x a)) first (stop + 1 - x.patternSize)

/-- The context with a hit in a section that ends at `stop`. -/
def SearchContext.found (x : SearchContext) (stop a : Nat) : SearchContext :=
  { x with result := a, memoryBlockSize := stop - a }

/-- What a call returns that has these hits in front of it. -/
def SearchContext.outcome (x : SearchContext) (stop : Nat) : List Nat → NtStatus × SearchContext
  | [] => (statusNotFound, x.clear)
  | a :: _ => (statusSuccess, x.found stop a)

variable {v : ModuleView} {moduleHandle sectionName fuel : Nat} {x : SearchContext}
  {start size stop a : Nat}

theorem rtlCompareMemory_eq_iff {m : Bytes} {first second n : Nat} :
    rtlCompareMemory m first second n = n ↔ ∀ j < n, m (first + j) = m (second + j) := by
  induction n generalizing first second with
  | zero => exact iff_of_true rfl fun j hj => absurd hj (Nat.not_lt_zero j)
  | succ n ih =>
    have hshift : ∀ base j, base + 1 + j = base + (j + 1) := by omega
    rw [rtlCompareMemory]
    split
    · rename_i hfirst
      rw [Nat.succ_inj, ih]
      constructor
      · intro hrest j hj
        cases j with
        | zero => exact hfirst
        | succ j =>
          have hsame := hrest j (Nat.lt_of_succ_lt_succ hj)
          rwa [hshift, hshift] at hsame
      · intro hall j hj
        rw [hshift, hshift]
        exact hall (j + 1) (Nat.succ_lt_succ hj)
    · rename_i hfirst
      apply iff_of_false (Nat.succ_ne_zero n).symm
      exact fun hall => hfirst (hall 0 (Nat.succ_pos n))

theorem accessible_inside {mapped : Nat → Bool} {n b k : Nat}
    (h : accessible mapped a n = true) (hle : a ≤ b) (hend : b + k ≤ a + n) :
    accessible mapped b k = true := by
  unfold accessible at h ⊢
  rw [List.all_eq_true] at h ⊢
  intro j hj
  have hread := h (b - a + j) (List.mem_range.mpr (by
    have := List.mem_range.mp hj
    omega))
  have hsum : a + (b - a + j) = b + j := by omega
  rwa [hsum] at hread

theorem found_advance (hlt : a < stop) (hplaced : stop < v.host.addresses) :
    (x.found stop a).advance v.host = x.found stop (a + 1) := by
  have hresult : (a + 1) % v.host.addresses = a + 1 := Nat.mod_eq_of_lt (by omega)
  have hleft : (stop - a + v.host.addresses - 1) % v.host.addresses = stop - (a + 1) := by
    have hsum : stop - a + v.host.addresses - 1 = stop - (a + 1) + v.host.addresses := by omega
    rw [hsum, Nat.add_mod_right, Nat.mod_eq_of_lt (by omega)]
  simp only [SearchContext.found, SearchContext.advance, hresult, hleft]

theorem found_last (hpos : 0 < a) (hpattern : 0 < x.patternSize)
    (hfits : a + x.patternSize ≤ stop + 1) (hplaced : stop < v.host.addresses) :
    (x.found stop a).last v.host = stop - x.patternSize := by
  have hsum : a + (stop - a) + v.host.addresses - x.patternSize =
      stop - x.patternSize + v.host.addresses := by omega
  simp only [SearchContext.found, SearchContext.last, hsum]
  rw [Nat.add_mod_right, Nat.mod_eq_of_lt (by omega)]

theorem comparePattern_found (h : SectionFound v moduleHandle sectionName x start size)
    (hle : start ≤ a) (hfits : a + x.patternSize ≤ start + size) :
    comparePattern v (x.found (start + size) a) =
      some (rtlCompareMemory v.bytes x.searchPattern a x.patternSize) := by
  have hread : accessible v.mapped a x.patternSize = true :=
    accessible_inside h.readable hle hfits
  have hboth : (accessible v.mapped x.searchPattern x.patternSize &&
      accessible v.mapped a x.patternSize) = true := by
    rw [h.patternReadable, hread]
    rfl
  exact if_pos hboth

/-- The search from a position on stops at the first occurrence. -/
theorem linearSearch_run (h : SectionFound v moduleHandle sectionName x start size)
    (hle : start ≤ a) (hfits : a + x.patternSize ≤ start + size + 1)
    (hfuel : start + size + 1 - a < fuel) :
    linearSearch v (start + size - x.patternSize) fuel (x.found (start + size) a) =
      some (x.outcome (start + size) (occurrences v x a (start + size))) := by
  have hpattern := h.patternSize
  induction fuel generalizing a with
  | zero => exact absurd hfuel (Nat.not_lt_zero _)
  | succ fuel ih =>
    rw [linearSearch]
    rcases Nat.lt_or_ge (start + size) (a + x.patternSize) with hbehind | hinside
    · have hout : ¬ (x.found (start + size) a).result ≤ start + size - x.patternSize := by
        have hnotNull := h.notNull
        change ¬ a ≤ _
        omega
      rw [if_neg hout, occurrences, positions_end (by omega)]
      rfl
    · have hin : (x.found (start + size) a).result ≤ start + size - x.patternSize := by
        change a ≤ _
        omega
      rw [if_pos hin, comparePattern_found h hle hinside]
      have hcompare : rtlCompareMemory v.bytes x.searchPattern a x.patternSize = x.patternSize ↔
          Occurs v x a := rtlCompareMemory_eq_iff
      change (if rtlCompareMemory v.bytes x.searchPattern a x.patternSize = x.patternSize then
          some (statusSuccess, x.found (start + size) a)
        else linearSearch v (start + size - x.patternSize) fuel
          ((x.found (start + size) a).advance v.host)) = _
      rcases Decidable.em (Occurs v x a) with hoccurs | hoccurs
      · rw [if_pos (hcompare.mpr hoccurs), occurrences,
          positions_hit (by omega) (decide_eq_true hoccurs)]
        rfl
      · have hmiss : occurrences v x a (start + size) = occurrences v x (a + 1) (start + size) :=
          positions_miss (by rw [decide_eq_false hoccurs]; exact Bool.false_ne_true)
        rw [if_neg fun heq => hoccurs (hcompare.mp heq), found_advance (by omega) h.placed,
          ih (by omega) (by omega) (by omega), hmiss]

/-- The first call starts at the section, unless the pattern is longer. -/
theorem startSearch_first (h : SectionFound v moduleHandle sectionName x start size)
    (hfirst : x.result = 0) :
    startSearch v moduleHandle sectionName x =
      if size < x.patternSize then .error (statusNotFound, x.clear)
      else .ok (x.found (start + size) start) := by
  obtain ⟨ntHeaders, sectionHeader, address, hheaders, hselect, haddress, hstart, hsize⟩ := h.selected
  have hempty : ¬ (x.searchPattern = 0 ∨ x.patternSize = 0) := by
    rintro (hnull | hzero)
    · exact h.pattern hnull
    · exact absurd h.patternSize (by omega)
  have hpattern := h.patternSize
  have hnotNull := h.notNull
  rw [startSearch, if_neg hempty, if_neg (not_not_intro hfirst), firstSearch, hheaders]
  simp only [hselect, searchSection, haddress, hstart, hsize]
  split
  · rename_i hshort
    rw [if_pos (by omega)]
    rfl
  · rename_i hlong
    have hleft : start + size - start = size := Nat.add_sub_cancel_left start size
    rw [if_neg (by omega), SearchContext.found, hleft]

theorem startSearch_resumed (h : SectionFound v moduleHandle sectionName x start size)
    (hle : start ≤ a) (hlt : a < start + size) :
    startSearch v moduleHandle sectionName (x.found (start + size) a) =
      .ok (x.found (start + size) (a + 1)) := by
  have hempty : ¬ (x.searchPattern = 0 ∨ x.patternSize = 0) := by
    rintro (hnull | hzero)
    · exact h.pattern hnull
    · exact absurd h.patternSize (by omega)
  have hresult : a ≠ 0 := by
    have hnotNull := h.notNull
    omega
  exact (if_neg hempty).trans ((if_pos hresult).trans
    (congrArg Except.ok (found_advance hlt h.placed)))

theorem mem_occurrences (h : SectionFound v moduleHandle sectionName x start size)
    {first : Nat} : a ∈ occurrences v x first (start + size) ↔
      first ≤ a ∧ a + x.patternSize ≤ start + size ∧ Occurs v x a := by
  have hpattern := h.patternSize
  have hnotNull := h.notNull
  rw [occurrences, mem_positions, decide_eq_true_eq]
  constructor
  · rintro ⟨hle, hlt, hoccurs⟩
    exact ⟨hle, by omega, hoccurs⟩
  · rintro ⟨hle, hlt, hoccurs⟩
    exact ⟨hle, by omega, hoccurs⟩

/-- A call from a context that the search starts in or goes on from. -/
theorem call_run {y : SearchContext} (h : SectionFound v moduleHandle sectionName x start size)
    (hstart : startSearch v moduleHandle sectionName y = .ok (x.found (start + size) a))
    (hle : start ≤ a) (hfits : a + x.patternSize ≤ start + size + 1) (hfuel : size + 1 < fuel) :
    rtlFindMemoryBlockFromModuleSection v moduleHandle sectionName fuel y =
      some (x.outcome (start + size) (occurrences v x a (start + size))) := by
  have hnotNull := h.notNull
  have hpattern := h.patternSize
  rw [rtlFindMemoryBlockFromModuleSection, hstart]
  change linearSearch v ((x.found (start + size) a).last v.host) fuel _ = _
  rw [found_last (by omega) hpattern hfits h.placed]
  exact linearSearch_run h hle hfits (by omega)

/-- The calls from such a context give every occurrence from its position on. -/
theorem repeatedCalls_run (h : SectionFound v moduleHandle sectionName x start size)
    (hfuel : size + 1 < fuel) {hits : List Nat} {y : SearchContext} (hle : start ≤ a)
    (hhits : occurrences v x a (start + size) = hits)
    (hcall : rtlFindMemoryBlockFromModuleSection v moduleHandle sectionName fuel y =
      some (x.outcome (start + size) hits)) :
    repeatedCalls v moduleHandle sectionName fuel (hits.length + 1) y =
      some (hits.map (fun k => (statusSuccess, x.found (start + size) k)) ++
        [(statusNotFound, x.clear)]) := by
  induction hits generalizing a y with
  | nil =>
    rw [repeatedCalls, hcall]
    rfl
  | cons k rest ih =>
    have hk := (mem_occurrences h).mp (hhits ▸ List.mem_cons_self : k ∈ occurrences v x a _)
    have hpattern := h.patternSize
    have hrest : occurrences v x (k + 1) (start + size) = rest := positions_tail hhits
    have hstart := startSearch_resumed h (by omega : start ≤ k) (by omega)
    have hnext := call_run h hstart (by omega) (by omega) hfuel
    rw [hrest] at hnext
    have hcalls : repeatedCalls v moduleHandle sectionName fuel (rest.length + 1)
        (x.outcome (start + size) (k :: rest)).2 = _ := ih (by omega) hrest hnext
    rw [List.length_cons, repeatedCalls, hcall]
    dsimp only
    rw [hcalls]
    rfl

/-- The search passes a position at which the pattern does not occur. -/
structure NextPosition (v : ModuleView) (last : Nat) (x y : SearchContext) : Prop where
  inside : x.result ≤ last
  differs : ∃ same, comparePattern v x = some same ∧ same ≠ x.patternSize
  next : y = x.advance v.host

/-- The contexts that a call advances: the one that it is given, if it is not the
first search, and those of the positions that it passes. -/
inductive Advances (v : ModuleView) (moduleHandle sectionName : Nat) (x : SearchContext) :
    SearchContext → Prop where
  | resumed (hpattern : x.searchPattern ≠ 0) (hsize : x.patternSize ≠ 0) (hresult : x.result ≠ 0) :
      Advances v moduleHandle sectionName x x
  | passed {first y z : SearchContext}
      (hstart : startSearch v moduleHandle sectionName x = .ok first)
      (hreaches : ReflTransGen (NextPosition v (first.last v.host)) first y)
      (hnext : NextPosition v (first.last v.host) y z) : Advances v moduleHandle sectionName x y

/-- No call takes 1 from a `MemoryBlockSize` of 0. -/
def NoUnderflow (v : ModuleView) (moduleHandle sectionName : Nat) (x : SearchContext) : Prop :=
  ∀ y, Advances v moduleHandle sectionName x y → 0 < y.memoryBlockSize

/-- Repeated calls give the occurrences of the pattern in a section, and then that
there are no more. -/
structure Enumerates (v : ModuleView) (moduleHandle sectionName fuel : Nat) (x : SearchContext)
    (start size : Nat) : Prop where
  calls : repeatedCalls v moduleHandle sectionName fuel
      ((occurrences v x start (start + size)).length + 1) x =
    some ((occurrences v x start (start + size)).map
      (fun a => (statusSuccess, x.found (start + size) a)) ++ [(statusNotFound, x.clear)])
  occurs : ∀ a, a ∈ occurrences v x start (start + size) ↔
    start ≤ a ∧ a + x.patternSize ≤ start + size ∧ Occurs v x a
  increasing : (occurrences v x start (start + size)).Pairwise (· < ·)
  ends : ∀ a ∈ occurrences v x start (start + size),
    (x.found (start + size) a).result + (x.found (start + size) a).memoryBlockSize = start + size
  noUnderflow : NoUnderflow v moduleHandle sectionName x ∧
    ∀ a ∈ occurrences v x start (start + size),
      NoUnderflow v moduleHandle sectionName (x.found (start + size) a)

/-- The search stays in the section, and what is left ends where the section does. -/
theorem reaches_found {y : SearchContext}
    (h : SectionFound v moduleHandle sectionName x start size) (hle : start ≤ a)
    (hfits : a + x.patternSize ≤ start + size + 1)
    (hreaches : ReflTransGen (NextPosition v (start + size - x.patternSize))
      (x.found (start + size) a) y) :
    ∃ b, start ≤ b ∧ b + x.patternSize ≤ start + size + 1 ∧ y = x.found (start + size) b := by
  have hpattern := h.patternSize
  have hnotNull := h.notNull
  induction hreaches with
  | refl => exact ⟨a, hle, hfits, rfl⟩
  | tail _ hnext ih =>
    obtain ⟨b, hb, hbfits, rfl⟩ := ih
    have hinside : b ≤ start + size - x.patternSize := hnext.inside
    refine ⟨b + 1, by omega, by omega, ?_⟩
    rw [hnext.next, found_advance (by omega) h.placed]

/-- A call that starts in the section advances no context with nothing left. -/
theorem passed_positive {y z : SearchContext}
    (h : SectionFound v moduleHandle sectionName x start size) (hle : start ≤ a)
    (hfits : a + x.patternSize ≤ start + size + 1)
    (hreaches : ReflTransGen (NextPosition v ((x.found (start + size) a).last v.host))
      (x.found (start + size) a) y)
    (hnext : NextPosition v ((x.found (start + size) a).last v.host) y z) :
    0 < y.memoryBlockSize := by
  have hpattern := h.patternSize
  have hnotNull := h.notNull
  rw [found_last (by omega) hpattern hfits h.placed] at hreaches hnext
  obtain ⟨b, hb, hbfits, rfl⟩ := reaches_found h hle hfits hreaches
  have hinside : b ≤ start + size - x.patternSize := hnext.inside
  change 0 < start + size - b
  omega

theorem noUnderflow_first (h : SectionFound v moduleHandle sectionName x start size)
    (hfirst : x.result = 0) : NoUnderflow v moduleHandle sectionName x := by
  intro y hy
  cases hy with
  | resumed hpattern hsize hresult => exact absurd hfirst hresult
  | passed hstart hreaches hnext =>
    rw [startSearch_first h hfirst] at hstart
    split at hstart
    · cases hstart
    · rename_i hlong
      cases hstart
      exact passed_positive h (Nat.le_refl start) (by omega) hreaches hnext

theorem noUnderflow_found (h : SectionFound v moduleHandle sectionName x start size)
    (hle : start ≤ a) (hfits : a + x.patternSize ≤ start + size) :
    NoUnderflow v moduleHandle sectionName (x.found (start + size) a) := by
  have hpattern := h.patternSize
  intro y hy
  cases hy with
  | resumed hpattern hsize hresult =>
    change 0 < start + size - a
    omega
  | passed hstart hreaches hnext =>
    rw [startSearch_resumed h hle (by omega)] at hstart
    cases hstart
    exact passed_positive h (by omega) (by omega) hreaches hnext

theorem firstCall_run (h : SectionFound v moduleHandle sectionName x start size)
    (hfirst : x.result = 0) (hfuel : size + 1 < fuel) :
    rtlFindMemoryBlockFromModuleSection v moduleHandle sectionName fuel x =
      some (x.outcome (start + size) (occurrences v x start (start + size))) := by
  have hstart := startSearch_first h hfirst
  split at hstart
  · have hnone : occurrences v x start (start + size) = [] := positions_end (by omega)
    rw [rtlFindMemoryBlockFromModuleSection, hstart, hnone]
    rfl
  · exact call_run h hstart (Nat.le_refl start) (by omega) hfuel

/-- The pattern search comes to every occurrence once. -/
theorem rtlFindMemoryBlockFromModuleSection_enumerates
    (h : SectionFound v moduleHandle sectionName x start size) (hfirst : x.result = 0)
    (hfuel : size + 1 < fuel) : Enumerates v moduleHandle sectionName fuel x start size where
  calls := repeatedCalls_run h hfuel (Nat.le_refl start) rfl (firstCall_run h hfirst hfuel)
  occurs := fun _ => mem_occurrences h
  increasing := positions_increasing
  ends := by
    intro a ha
    obtain ⟨_, hfits, _⟩ := (mem_occurrences h).mp ha
    change a + (start + size - a) = start + size
    omega
  noUnderflow := by
    refine ⟨noUnderflow_first h hfirst, ?_⟩
    intro a ha
    obtain ⟨hle, hfits, _⟩ := (mem_occurrences h).mp ha
    exact noUnderflow_found h hle hfits

/-- Two characters in the section of the sample image. -/
theorem rtlFindMemoryBlockFromModuleSection_enumerates_textbss :
    Enumerates (textbssView 0x10000) 0x400 0x2000 0x10002 ⟨0x2000, 2, 0, 0⟩ 0x1400 0x10000 := by
  have hreadable : ∀ a n, accessible (textbssView 0x10000).mapped a n = true :=
    fun _ _ => List.all_eq_true.mpr fun _ _ => rfl
  have hselect : selectSection (textbssView 0x10000) 0x2000 0x1000 = .ok (some 0x1018) := by
    rw [selectSection_eq (textbssView_readable 0x10000)]
    decide +kernel
  apply rtlFindMemoryBlockFromModuleSection_enumerates _ rfl (by decide)
  exact ⟨⟨0x1000, 0x1018, 0x1000, rfl, hselect, by decide +kernel, by decide +kernel,
    by decide +kernel⟩, by decide, by decide, hreadable _ _, hreadable _ _, by decide,
    by decide +kernel⟩

end WinPolyfillLoader.LdrEntry
