import Mathlib.Logic.Relation
import WinPolyfillLoader.MemoryModule.LoadRuns

/-!
The walk over the base relocation directory, block by block and entry by entry.
Only the address of a block is compared with the end of the directory; the step
to the next block and the number of entries come from the block itself, which
the fixups may change meanwhile.
-/

namespace WinPolyfillLoader.MemoryModule

open ByteMemory Relation

/-- Where the walk stands: at a block, in a machine. -/
structure WalkState where
  relocation : Nat
  machine : Machine

/-- Where the entry loop of a block stands. -/
structure EntryState where
  i : Nat
  relInfo : Nat
  machine : Machine

/-- `base + dir->VirtualAddress + dir->Size`, from the header as it stands. -/
def WalkState.directoryEnd (c : Caller) (base newHeader : Nat) (x : WalkState) : Nat :=
  c.host.offset base (x.machine.value newHeader (relocVirtualAddress c.host) +
    x.machine.value newHeader (relocSize c.host))

/-- `relocation->VirtualAddress`. -/
def WalkState.page (x : WalkState) : Nat := x.machine.value x.relocation blockVirtualAddress

/-- The condition of the loop over the blocks. -/
def WalkState.Enters (c : Caller) (base newHeader : Nat) (x : WalkState) : Prop :=
  x.relocation < x.directoryEnd c base newHeader ∧ 0 < x.page

/-- The entry loop of the block before its first entry. -/
def WalkState.firstEntry (c : Caller) (newHeader : Nat) (x : WalkState) : EntryState where
  i := 0
  relInfo := x.relocation + typeOffset
  machine := ((x.machine.touch newHeader (relocVirtualAddress c.host)).touch newHeader
    (relocSize c.host)).touch x.relocation blockVirtualAddress

/-- The entry loop goes on from one entry to the next. -/
def NextEntry (c : Caller) (base delta relocation : Nat) (e e' : EntryState) : Prop :=
  e.i < typeOffsetCount (e.machine.value relocation sizeOfBlock) ∧
    e' = ⟨e.i + 1, e.relInfo + 2, applyFixup c base delta relocation e.relInfo
      (e.machine.touch relocation sizeOfBlock)⟩

/-- The entry loop of the block ends, in machine `s`. -/
def WalkState.Applies (c : Caller) (base newHeader delta : Nat) (x : WalkState) (s : Machine) :
    Prop :=
  ∃ fuel, applyFixups c base delta x.relocation fuel 0 (x.relocation + typeOffset)
    (x.firstEntry c newHeader).machine = (some (), s)

/-- The walk goes on from one block to the next. -/
def NextBlock (c : Caller) (base newHeader delta : Nat) (x y : WalkState) : Prop :=
  x.Enters c base newHeader ∧ ∃ s, x.Applies c base newHeader delta s ∧
    y = ⟨c.host.offset x.relocation (s.value x.relocation sizeOfBlock),
      s.touch x.relocation sizeOfBlock⟩

variable {c : Caller} {s s' : Machine} {base newHeader delta relocation : Nat}

theorem applyFixups_mono {fuel fuel' i relInfo : Nat} (hle : fuel ≤ fuel')
    (h : applyFixups c base delta relocation fuel i relInfo s = (some (), s')) :
    applyFixups c base delta relocation fuel' i relInfo s = (some (), s') := by
  induction fuel generalizing fuel' i relInfo s with
  | zero => cases h
  | succ fuel ih =>
    obtain ⟨m, rfl⟩ := Nat.exists_eq_add_of_le' (Nat.succ_le_of_lt (Nat.lt_of_lt_of_le
      (Nat.succ_pos fuel) hle))
    rw [applyFixups_succ] at h ⊢
    split at h
    · rename_i hcount
      rw [if_pos hcount]
      exact ih (by omega) h
    · rename_i hcount
      rw [if_neg hcount]
      exact h

theorem applyBlocks_mono {fuel fuel' : Nat} (hle : fuel ≤ fuel')
    (h : applyBlocks c base newHeader delta fuel relocation s = (some (), s')) :
    applyBlocks c base newHeader delta fuel' relocation s = (some (), s') := by
  induction fuel generalizing fuel' relocation s with
  | zero => cases h
  | succ fuel ih =>
    obtain ⟨m, rfl⟩ := Nat.exists_eq_add_of_le' (Nat.succ_le_of_lt (Nat.lt_of_lt_of_le
      (Nat.succ_pos fuel) hle))
    have hle' : fuel ≤ m := by omega
    rw [applyBlocks_succ] at h ⊢
    dsimp only at h ⊢
    split at h
    · rename_i hinside
      rw [if_pos hinside]
      split at h
      · rename_i hpage
        rw [if_pos hpage]
        split at h
        · cases h
        · rename_i s₁ hentries
          rw [applyFixups_mono hle' hentries]
          exact ih hle' h
      · rename_i hpage
        rw [if_neg hpage]
        exact h
    · rename_i hinside
      rw [if_neg hinside]
      exact h

/-- The block determines the machine in which its entry loop ends. -/
theorem applies_unique {x : WalkState} {s s' : Machine} (h : x.Applies c base newHeader delta s)
    (h' : x.Applies c base newHeader delta s') : s = s' := by
  obtain ⟨fuel, h⟩ := h
  obtain ⟨fuel', h'⟩ := h'
  have hrun := applyFixups_mono (Nat.le_max_left fuel fuel') h
  rw [applyFixups_mono (Nat.le_max_right fuel fuel') h'] at hrun
  cases hrun
  rfl

theorem nextBlock_unique : Relator.RightUnique (NextBlock c base newHeader delta) := by
  rintro x y z ⟨_, s, hs, rfl⟩ ⟨_, s', hs', rfl⟩
  rw [applies_unique hs hs']

theorem applyBlocks_enters {x : WalkState} (h : x.Enters c base newHeader) (fuel : Nat) :
    applyBlocks c base newHeader delta (fuel + 1) x.relocation x.machine =
      match applyFixups c base delta x.relocation fuel 0 (x.relocation + typeOffset)
        (x.firstEntry c newHeader).machine with
      | (none, s) => (none, s)
      | (some _, s) =>
        applyBlocks c base newHeader delta fuel
          (c.host.offset x.relocation (s.value x.relocation sizeOfBlock))
          (s.touch x.relocation sizeOfBlock) := by
  rw [applyBlocks_succ]
  exact (if_pos h.1).trans (if_pos h.2)

theorem applyBlocks_leaves {x : WalkState} (h : ¬ x.Enters c base newHeader) (fuel : Nat) :
    ∃ s', applyBlocks c base newHeader delta (fuel + 1) x.relocation x.machine =
      (some (), s') := by
  rw [applyBlocks_succ]
  rcases Decidable.em (x.relocation < x.directoryEnd c base newHeader) with hinside | hinside
  · have hpage : ¬ x.machine.value x.relocation blockVirtualAddress > 0 :=
      fun hpage => h ⟨hinside, hpage⟩
    exact ⟨_, (if_pos hinside).trans (if_neg hpage)⟩
  · exact ⟨_, if_neg hinside⟩

/-- A walk that returns has come to a block that it does not enter. -/
theorem applyBlocks_stops {fuel : Nat} {x : WalkState}
    (h : applyBlocks c base newHeader delta fuel x.relocation x.machine = (some (), s')) :
    ∃ y, ReflTransGen (NextBlock c base newHeader delta) x y ∧ ¬ y.Enters c base newHeader := by
  induction fuel generalizing x with
  | zero => cases h
  | succ fuel ih =>
    rcases Classical.em (x.Enters c base newHeader) with henters | hstops
    · rw [applyBlocks_enters henters] at h
      split at h
      · cases h
      · rename_i s₁ hentries
        let next : WalkState := ⟨c.host.offset x.relocation (s₁.value x.relocation sizeOfBlock),
          s₁.touch x.relocation sizeOfBlock⟩
        have hnext : NextBlock c base newHeader delta x next :=
          ⟨henters, s₁, ⟨fuel, hentries⟩, rfl⟩
        have hrest : applyBlocks c base newHeader delta fuel next.relocation next.machine =
          (some (), s') := h
        obtain ⟨y, hreaches, hstops⟩ := ih hrest
        exact ⟨y, .head hnext hreaches, hstops⟩
    · exact ⟨x, .refl, hstops⟩

/-- The entry loop ends when all the entries that it comes to lie below a limit. -/
theorem applyFixups_returns {limit : Nat} (e : EntryState)
    (h : ∀ e', ReflTransGen (NextEntry c base delta relocation) e e' →
      e'.i < typeOffsetCount (e'.machine.value relocation sizeOfBlock) → e'.relInfo + 2 ≤ limit) :
    ∃ fuel s', applyFixups c base delta relocation fuel e.i e.relInfo e.machine =
      (some (), s') := by
  induction hn : limit - e.relInfo using Nat.strong_induction_on generalizing e with
  | _ n ih =>
    rcases Nat.lt_or_ge e.i (typeOffsetCount (e.machine.value relocation sizeOfBlock)) with
      hcount | hcount
    · have hinside := h e .refl hcount
      let next : EntryState := ⟨e.i + 1, e.relInfo + 2, applyFixup c base delta relocation e.relInfo
        (e.machine.touch relocation sizeOfBlock)⟩
      have hnext : NextEntry c base delta relocation e next := ⟨hcount, rfl⟩
      have hlt : limit - next.relInfo < n := by
        change limit - (e.relInfo + 2) < n
        omega
      obtain ⟨fuel, s', hrun⟩ := ih _ hlt next (fun e' he' => h e' (.head hnext he')) rfl
      exact ⟨fuel + 1, s', by rw [applyFixups_succ, if_pos hcount]; exact hrun⟩
    · exact ⟨1, _, by rw [applyFixups_succ, if_neg (Nat.not_lt.mpr hcount)]⟩

/-- The block lies inside the directory, as far as the walk reads it: the members
of its header, every entry that its `SizeOfBlock` makes the loop come to, and a
`SizeOfBlock` that leads on and stays in the address space. -/
structure WalkState.Inside (c : Caller) (base newHeader delta : Nat) (x : WalkState) : Prop where
  header : x.relocation + 4 ≤ x.directoryEnd c base newHeader
  size : 0 < x.page → x.relocation + 8 ≤ x.directoryEnd c base newHeader
  entries : 0 < x.page → ∀ e, ReflTransGen (NextEntry c base delta x.relocation)
    (x.firstEntry c newHeader) e →
      e.i < typeOffsetCount (e.machine.value x.relocation sizeOfBlock) →
        e.relInfo + 2 ≤ x.directoryEnd c base newHeader
  step : 0 < x.page → ∀ s, x.Applies c base newHeader delta s →
    0 < s.value x.relocation sizeOfBlock ∧
      x.relocation + s.value x.relocation sizeOfBlock < c.host.addresses

/-- The walk returns when all the blocks that it comes to lie inside the directory. -/
theorem applyBlocks_returns (x : WalkState)
    (h : ∀ y, ReflTransGen (NextBlock c base newHeader delta) x y →
      y.relocation < y.directoryEnd c base newHeader → y.Inside c base newHeader delta) :
    ∃ fuel s', applyBlocks c base newHeader delta fuel x.relocation x.machine =
      (some (), s') := by
  induction hn : c.host.addresses - x.relocation using Nat.strong_induction_on generalizing x with
  | _ n ih =>
    rcases Classical.em (x.Enters c base newHeader) with henters | hstops
    · have hinside := h x .refl henters.1
      obtain ⟨k, s₁, hentries⟩ :=
        applyFixups_returns (x.firstEntry c newHeader) (hinside.entries henters.2)
      have happlies : x.Applies c base newHeader delta s₁ := ⟨k, hentries⟩
      obtain ⟨hpositive, hplace⟩ := hinside.step henters.2 s₁ happlies
      let next : WalkState := ⟨c.host.offset x.relocation (s₁.value x.relocation sizeOfBlock),
        s₁.touch x.relocation sizeOfBlock⟩
      have hnext : NextBlock c base newHeader delta x next := ⟨henters, s₁, happlies, rfl⟩
      have hrelocation : next.relocation = x.relocation + s₁.value x.relocation sizeOfBlock :=
        offset_eq hplace
      have hlt : c.host.addresses - next.relocation < n := by
        rw [hrelocation]
        omega
      obtain ⟨fuel, s', hrun⟩ := ih _ hlt next (fun y hy => h y (.head hnext hy)) rfl
      refine ⟨max k fuel + 1, s', ?_⟩
      have hentries' := applyFixups_mono (Nat.le_max_left k fuel) hentries
      rw [applyBlocks_enters henters, WalkState.firstEntry]
      simp only [WalkState.firstEntry] at hentries'
      rw [hentries']
      exact applyBlocks_mono (Nat.le_max_right k fuel) hrun
    · obtain ⟨s', hrun⟩ := applyBlocks_leaves hstops 0
      exact ⟨1, s', hrun⟩

def locationDelta (c : Caller) (newHeader : Nat) (s : Machine) : Nat :=
  (s.value newHeader (imageBase c.host) + c.host.addresses - c.member (imageBase c.host)) %
    c.host.addresses

def Rebases (c : Caller) (newHeader : Nat) (s : Machine) : Prop :=
  locationDelta c newHeader s ≠ 0 ∧ s.value newHeader (relocSize c.host) ≠ 0 ∧
    s.value newHeader (relocVirtualAddress c.host) ≠ 0

def firstBlock (c : Caller) (base newHeader : Nat) (s : Machine) : WalkState where
  relocation := c.host.offset base (s.value newHeader (relocVirtualAddress c.host))
  machine := (((s.touch newHeader (imageBase c.host)).consult c (imageBase c.host)).touch newHeader
    (relocVirtualAddress c.host)).touch newHeader (relocSize c.host)

theorem rebaseImage_walks (h : Rebases c newHeader s) (base fuel : Nat) :
    rebaseImage c base newHeader fuel s =
      applyBlocks c base newHeader (locationDelta c newHeader s) fuel
        (firstBlock c base newHeader s).relocation (firstBlock c base newHeader s).machine := by
  rw [rebaseImage_eq]
  exact (if_pos h.1).trans (if_pos h.2)

theorem rebaseImage_rests (h : ¬ Rebases c newHeader s) (base : Nat) :
    ∃ s', s'.bytes = s.bytes ∧ ∀ fuel, rebaseImage c base newHeader fuel s = (some (), s') := by
  simp only [rebaseImage_eq]
  rcases Decidable.em (locationDelta c newHeader s ≠ 0) with hdelta | hdelta
  · have hdirectory : ¬ (s.value newHeader (relocSize c.host) ≠ 0 ∧
        s.value newHeader (relocVirtualAddress c.host) ≠ 0) :=
      fun hdirectory => h ⟨hdelta, hdirectory⟩
    refine ⟨_, ?_, fun _ => (if_pos hdelta).trans (if_neg hdirectory)⟩
    rfl
  · refine ⟨_, ?_, fun _ => if_neg hdelta⟩
    rfl

/-- The blocks that the walk of the rebase comes to. -/
def Visits (c : Caller) (base newHeader : Nat) (s : Machine) (x : WalkState) : Prop :=
  Rebases c newHeader s ∧
    ReflTransGen (NextBlock c base newHeader (locationDelta c newHeader s))
      (firstBlock c base newHeader s) x

/-- The walk ends, goes forward from block to block, and reads no header and no
entry behind the end of the directory. -/
structure WalkBounded (c : Caller) (base newHeader : Nat) (s : Machine) : Prop where
  ends : ∃ fuel s', rebaseImage c base newHeader fuel s = (some (), s')
  forward : ∀ x y, Visits c base newHeader s x →
    NextBlock c base newHeader (locationDelta c newHeader s) x y → x.relocation < y.relocation
  headers : ∀ x, Visits c base newHeader s x → x.relocation < x.directoryEnd c base newHeader →
    x.relocation + 4 ≤ x.directoryEnd c base newHeader ∧
      (0 < x.page → x.relocation + 8 ≤ x.directoryEnd c base newHeader)
  entries : ∀ x, Visits c base newHeader s x → x.Enters c base newHeader →
    ∀ e, ReflTransGen (NextEntry c base (locationDelta c newHeader s) x.relocation)
      (x.firstEntry c newHeader) e →
        e.i < typeOffsetCount (e.machine.value x.relocation sizeOfBlock) →
          e.relInfo + 2 ≤ x.directoryEnd c base newHeader

/-- A distance that leads forward is positive and does not wrap. -/
theorem offset_forward {host : Host} {pointer distance : Nat} (hdistance : distance < host.addresses)
    (h : pointer < host.offset pointer distance) :
    0 < distance ∧ pointer + distance < host.addresses := by
  unfold Host.offset at h
  have hpointer : pointer < host.addresses :=
    Nat.lt_trans h (Nat.mod_lt _ (Nat.zero_lt_of_lt hdistance))
  rcases Nat.lt_or_ge (pointer + distance) host.addresses with hplace | hwraps
  · rw [Nat.mod_eq_of_lt hplace] at h
    omega
  · rw [Nat.mod_eq_sub_mod hwraps, Nat.mod_eq_of_lt (by omega)] at h
    omega

/-- `relocation->SizeOfBlock`. -/
def WalkState.size (x : WalkState) : Nat := x.machine.value x.relocation sizeOfBlock

/-- The fixups of the block leave its own `SizeOfBlock`. -/
def WalkState.KeepsSize (c : Caller) (base newHeader delta : Nat) (x : WalkState) : Prop :=
  ∀ e, ReflTransGen (NextEntry c base delta x.relocation) (x.firstEntry c newHeader) e →
    e.machine.value x.relocation sizeOfBlock = x.size

/-- The block lies inside the directory, by its header alone. A `SizeOfBlock` below
8 announces more than `2 ^ 31 - 5` entries. -/
structure WalkState.Fits (c : Caller) (base newHeader : Nat) (x : WalkState) : Prop where
  header : x.relocation + 4 ≤ x.directoryEnd c base newHeader
  entries : 0 < x.page → x.relocation + typeOffset + 2 * typeOffsetCount x.size ≤
    x.directoryEnd c base newHeader
  step : 0 < x.page → 0 < x.size ∧ x.relocation + x.size < c.host.addresses

theorem applyFixups_stops {fuel : Nat} (e : EntryState)
    (h : applyFixups c base delta relocation fuel e.i e.relInfo e.machine = (some (), s')) :
    ∃ e', ReflTransGen (NextEntry c base delta relocation) e e' ∧
      s' = e'.machine.touch relocation sizeOfBlock := by
  induction fuel generalizing e with
  | zero => cases h
  | succ fuel ih =>
    rw [applyFixups_succ] at h
    split at h
    · rename_i hcount
      let next : EntryState := ⟨e.i + 1, e.relInfo + 2, applyFixup c base delta relocation e.relInfo
        (e.machine.touch relocation sizeOfBlock)⟩
      obtain ⟨e', hreaches, hend⟩ := ih next h
      have hnext : NextEntry c base delta relocation e next := ⟨hcount, rfl⟩
      exact ⟨e', .head hnext hreaches, hend⟩
    · cases h
      exact ⟨e, .refl, rfl⟩

theorem relInfo_reached {x : WalkState} {e : EntryState}
    (h : ReflTransGen (NextEntry c base delta x.relocation) (x.firstEntry c newHeader) e) :
    e.relInfo = x.relocation + typeOffset + 2 * e.i := by
  induction h with
  | refl => rfl
  | tail _ hnext ih =>
    obtain ⟨_, rfl⟩ := hnext
    dsimp only
    omega

/-- A block that keeps its `SizeOfBlock` has the loop come to each announced entry. -/
theorem entry_reached {x : WalkState} (hkeeps : x.KeepsSize c base newHeader delta) {i : Nat}
    (hi : i ≤ typeOffsetCount x.size) :
    ∃ e, ReflTransGen (NextEntry c base delta x.relocation) (x.firstEntry c newHeader) e ∧
      e.i = i := by
  induction i with
  | zero => exact ⟨x.firstEntry c newHeader, .refl, rfl⟩
  | succ i ih =>
    obtain ⟨e, hreaches, rfl⟩ := ih (by omega)
    have hcount : e.i < typeOffsetCount (e.machine.value x.relocation sizeOfBlock) := by
      rw [hkeeps e hreaches]
      omega
    exact ⟨_, .tail hreaches ⟨hcount, rfl⟩, rfl⟩

theorem size_applied {x : WalkState} (hkeeps : x.KeepsSize c base newHeader delta) {s : Machine}
    (h : x.Applies c base newHeader delta s) : s.value x.relocation sizeOfBlock = x.size := by
  obtain ⟨fuel, hrun⟩ := h
  obtain ⟨e, hreaches, rfl⟩ := applyFixups_stops (x.firstEntry c newHeader) hrun
  exact hkeeps e hreaches

/-- A block that keeps its `SizeOfBlock` lies inside if its header says so. -/
theorem inside_iff_fits {x : WalkState} (hkeeps : x.KeepsSize c base newHeader delta) :
    x.Inside c base newHeader delta ↔ x.Fits c base newHeader := by
  constructor
  · intro h
    refine ⟨h.header, ?_, ?_⟩
    · intro hpage
      rcases Nat.eq_zero_or_pos (typeOffsetCount x.size) with hnone | hsome
      · rw [hnone]
        exact h.size hpage
      · obtain ⟨e, hreaches, hlast⟩ :=
          entry_reached hkeeps (Nat.sub_le (typeOffsetCount x.size) 1)
        have hcount : e.i < typeOffsetCount (e.machine.value x.relocation sizeOfBlock) := by
          rw [hkeeps e hreaches]
          omega
        have hbound := h.entries hpage e hreaches hcount
        rw [relInfo_reached hreaches] at hbound
        omega
    · intro hpage
      obtain ⟨fuel, s, hrun⟩ := applyFixups_returns (x.firstEntry c newHeader) (h.entries hpage)
      have hstep := h.step hpage s ⟨fuel, hrun⟩
      rw [size_applied hkeeps ⟨fuel, hrun⟩] at hstep
      exact hstep
  · intro h
    refine ⟨h.header, ?_, ?_, ?_⟩
    · intro hpage
      have hbound := h.entries hpage
      rw [typeOffset] at hbound
      omega
    · intro hpage e hreaches hcount
      have hbound := h.entries hpage
      rw [hkeeps e hreaches] at hcount
      rw [relInfo_reached hreaches]
      omega
    · intro hpage s happlies
      rw [size_applied hkeeps happlies]
      exact h.step hpage

theorem walkBounded_of_inside (h : ∀ x, Visits c base newHeader s x →
    x.relocation < x.directoryEnd c base newHeader →
      x.Inside c base newHeader (locationDelta c newHeader s)) :
    WalkBounded c base newHeader s where
  ends := by
    rcases Classical.em (Rebases c newHeader s) with hrebases | hrests
    · obtain ⟨fuel, s', hrun⟩ := applyBlocks_returns (firstBlock c base newHeader s)
        fun x hx => h x ⟨hrebases, hx⟩
      exact ⟨fuel, s', (rebaseImage_walks hrebases base fuel).trans hrun⟩
    · obtain ⟨s', -, hrun⟩ := rebaseImage_rests hrests base
      exact ⟨0, s', hrun 0⟩
  forward := by
    rintro x _ hvisits ⟨⟨hinside, hpage⟩, s₁, happlies, rfl⟩
    obtain ⟨hpositive, hplace⟩ := (h x hvisits hinside).step hpage s₁ happlies
    change x.relocation < c.host.offset x.relocation (s₁.value x.relocation sizeOfBlock)
    rw [offset_eq hplace]
    omega
  headers := fun x hvisits hinside => ⟨(h x hvisits hinside).header, (h x hvisits hinside).size⟩
  entries := fun x hvisits henters => (h x hvisits henters.1).entries henters.2

theorem WalkBounded.inside (h : WalkBounded c base newHeader s) {x : WalkState}
    (hvisits : Visits c base newHeader s x)
    (hinside : x.relocation < x.directoryEnd c base newHeader) :
    x.Inside c base newHeader (locationDelta c newHeader s) where
  header := (h.headers x hvisits hinside).1
  size := (h.headers x hvisits hinside).2
  entries := fun hpage => h.entries x hvisits ⟨hinside, hpage⟩
  step := by
    intro hpage s₁ happlies
    have hforward := h.forward x _ hvisits ⟨⟨hinside, hpage⟩, s₁, happlies, rfl⟩
    have hsize : s₁.value x.relocation sizeOfBlock < 2 ^ 32 := readLE_lt _ _ _
    exact offset_forward (Nat.lt_of_lt_of_le hsize (addresses_ge c.host)) hforward

/-- The relocation walk is bounded by its directory if and only if every block
that it comes to lies inside the directory; where no block changes its own
`SizeOfBlock`, that is read off the headers of the blocks. -/
theorem rebaseImage_bounded_iff (c : Caller) (base newHeader : Nat) (s : Machine) :
    (WalkBounded c base newHeader s ↔
      ∀ x, Visits c base newHeader s x → x.relocation < x.directoryEnd c base newHeader →
        x.Inside c base newHeader (locationDelta c newHeader s)) ∧
    ((∀ x, Visits c base newHeader s x →
        x.KeepsSize c base newHeader (locationDelta c newHeader s)) →
      (WalkBounded c base newHeader s ↔
        ∀ x, Visits c base newHeader s x → x.relocation < x.directoryEnd c base newHeader →
          x.Fits c base newHeader)) := by
  have hiff : WalkBounded c base newHeader s ↔
      ∀ x, Visits c base newHeader s x → x.relocation < x.directoryEnd c base newHeader →
        x.Inside c base newHeader (locationDelta c newHeader s) :=
    ⟨fun h _ => h.inside, walkBounded_of_inside⟩
  refine ⟨hiff, ?_⟩
  intro hkeeps
  rw [hiff]
  apply forall_congr'
  intro x
  apply forall_congr'
  intro hvisits
  exact imp_congr_right fun _ => inside_iff_fits (hkeeps x hvisits)

/-- The usual image with a block whose `SizeOfBlock` is 0, once its sections are
loaded. -/
def emptyBlockLoaded : Machine :=
  let c := patchedCaller [(0x214, 4, 0)]
  (copySections c (c.newHeader c.reservedBase) 3 0 (sectionTable c (checked c blankMachine))
    (headersCopied c (checked c blankMachine))).2

/-- The entry loop of that block comes to the bytes behind the directory. -/
theorem rebaseImage_leaves_directory :
    let c := patchedCaller [(0x214, 4, 0)]
    (copySections c (c.newHeader c.reservedBase) 3 0 (sectionTable c (checked c blankMachine))
        (headersCopied c (checked c blankMachine))).1 = some statusSuccess ∧
      ¬ WalkBounded c c.reservedBase (c.newHeader c.reservedBase) emptyBlockLoaded := by
  intro c
  refine ⟨by decide +kernel, ?_⟩
  intro hbounded
  let base := c.reservedBase
  let newHeader := c.newHeader base
  let delta := locationDelta c newHeader emptyBlockLoaded
  let x := firstBlock c base newHeader emptyBlockLoaded
  have hvisits : Visits c base newHeader emptyBlockLoaded x :=
    ⟨⟨by decide +kernel, by decide +kernel, by decide +kernel⟩, .refl⟩
  have henters : x.Enters c base newHeader := ⟨by decide +kernel, by decide +kernel⟩
  let e₀ := x.firstEntry c newHeader
  let e₁ : EntryState := ⟨1, e₀.relInfo + 2,
    applyFixup c base delta x.relocation e₀.relInfo (e₀.machine.touch x.relocation sizeOfBlock)⟩
  let e₂ : EntryState := ⟨2, e₁.relInfo + 2,
    applyFixup c base delta x.relocation e₁.relInfo (e₁.machine.touch x.relocation sizeOfBlock)⟩
  have hfirst : NextEntry c base delta x.relocation e₀ e₁ := ⟨by decide +kernel, rfl⟩
  have hsecond : NextEntry c base delta x.relocation e₁ e₂ := ⟨by decide +kernel, rfl⟩
  have hbound := hbounded.entries x hvisits henters e₂ (.tail (.single hfirst) hsecond)
    (by decide +kernel)
  revert hbound
  decide +kernel

end WinPolyfillLoader.MemoryModule
