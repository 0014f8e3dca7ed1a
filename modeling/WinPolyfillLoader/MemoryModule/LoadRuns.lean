import WinPolyfillLoader.MemoryModule.Accesses

/-!
The ways in which a run of `MemoryLoadLibrary` returns, and what a failed run
leaves behind. Nothing is released on the way out: a section that is refused
leaves the reservation and the pages of the sections before it.
-/

namespace WinPolyfillLoader.MemoryModule

open ByteMemory

/-- The body of the section loop passes the section: its raw data fits its size
and its pages are committed. -/
def Section.Loads (c : Caller) (imageBase alignment : Nat) (x : Section) : Prop :=
  let size := alignValueUp c.host x.virtualSize alignment % 2 ^ 32
  x.sizeOfRawData ≤ size ∧ c.virtualCommit (c.host.offset imageBase x.virtualAddress) size = true ∧
    x.destination c imageBase ≠ 0

/-- Every section that the loop comes to meets the condition, with the `ImageBase`
and the `SectionAlignment` that stand in the image then. -/
def EachSection (c : Caller) (newHeader : Nat) (P : Nat → Nat → Section → Prop) :
    Nat → Nat → Nat → Machine → Prop
  | 0, _, _, _ => True
  | fuel + 1, i, sectionHeader, s =>
    i < s.value newHeader numberOfSections →
      P (s.value newHeader (imageBase c.host)) (s.value newHeader sectionAlignment)
        (s.sectionAt sectionHeader) ∧
      match copySection c newHeader sectionHeader (s.touch newHeader numberOfSections) with
      | (.error _, _) => True
      | (.ok _, s) =>
        EachSection c newHeader P fuel (i + 1) (sectionHeader + sizeOfSectionHeader) s

variable {c : Caller} {s s' : Machine} {newHeader fuel i sectionHeader : Nat} {status : NtStatus}

theorem copySection_loads (c : Caller) (newHeader sectionHeader : Nat) (s : Machine) :
    (∃ s', copySection c newHeader sectionHeader s = (.ok (), s') ∧
      (s.sectionAt sectionHeader).Loads c (s.value newHeader (imageBase c.host))
        (s.value newHeader sectionAlignment)) ∨
    ∃ status s', copySection c newHeader sectionHeader s = (.error status, s') ∧
      ntSuccess status = false ∧
      ¬ (s.sectionAt sectionHeader).Loads c (s.value newHeader (imageBase c.host))
        (s.value newHeader sectionAlignment) := by
  rw [copySection_eq]
  simp only [commit_fst, touch_value, commit_value]
  split
  · rename_i hsmall
    refine Or.inr ⟨_, _, rfl, rfl, ?_⟩
    rintro ⟨hfits, _⟩
    exact absurd hsmall (Nat.not_lt.mpr hfits)
  · rename_i hfits
    split
    · rename_i hcommit
      split
      · rename_i hnull
        refine Or.inr ⟨_, _, rfl, rfl, ?_⟩
        rintro ⟨_, _, hdest⟩
        exact hdest hnull
      · rename_i hdest
        have hloads : (s.sectionAt sectionHeader).Loads c (s.value newHeader (imageBase c.host))
            (s.value newHeader sectionAlignment) := ⟨Nat.le_of_not_lt hfits, hcommit, hdest⟩
        split
        · exact Or.inl ⟨_, rfl, hloads⟩
        · exact Or.inl ⟨_, rfl, hloads⟩
    · rename_i hcommit
      rw [if_pos rfl]
      refine Or.inr ⟨_, _, rfl, rfl, ?_⟩
      rintro ⟨_, hgranted, _⟩
      exact hcommit hgranted

/-- The section loop ends with a success exactly if every section loads. -/
theorem copySections_loads
    (h : copySections c newHeader fuel i sectionHeader s = (some status, s')) :
    ntSuccess status = true ↔ EachSection c newHeader (Section.Loads c) fuel i sectionHeader s := by
  induction fuel generalizing i sectionHeader s with
  | zero => cases h
  | succ fuel ih =>
    rw [copySections_succ] at h
    rw [EachSection]
    split at h
    · rename_i hcount
      rw [forall_prop_of_true hcount]
      rcases copySection_loads c newHeader sectionHeader (s.touch newHeader numberOfSections) with
        ⟨s₁, hcopy, hloads⟩ | ⟨error, s₁, hcopy, hfails, hloads⟩
      · rw [hcopy] at h ⊢
        exact (ih h).trans (and_iff_right hloads).symm
      · rw [hcopy] at h ⊢
        cases h
        apply iff_of_false
        · rw [hfails]
          exact Bool.false_ne_true
        · exact fun hall => hloads hall.1
    · rename_i hcount
      cases h
      exact iff_of_true rfl fun hlt => absurd hlt hcount

/-- The ways in which a run returns. -/
inductive LoadRun (c : Caller) (fuel : Nat) (s : Machine) : NtStatus → Nat → Machine → Prop where
  | rejected {status : NtStatus} {s' : Machine} (hrefused : ¬ Accepted c)
      (hcheck : checkParameters c s = .error (status, s')) : LoadRun c fuel s status 0 s'
  | unreserved (haccepted : Accepted c) (hbase : c.reservedBase = 0) :
      LoadRun c fuel s statusNoMemory 0 (reserveImage c (checked c s)).2
  | refused {status : NtStatus} {s' : Machine} (haccepted : Accepted c)
      (hbase : c.reservedBase ≠ 0)
      (hsections : copySections c (c.newHeader c.reservedBase) fuel 0 (sectionTable c (checked c s))
        (headersCopied c (checked c s)) = (some status, s'))
      (hfails : ntSuccess status = false) : LoadRun c fuel s status 0 s'
  | mapped {s₁ s' : Machine} (haccepted : Accepted c) (hbase : c.reservedBase ≠ 0)
      (hsections : copySections c (c.newHeader c.reservedBase) fuel 0 (sectionTable c (checked c s))
        (headersCopied c (checked c s)) = (some statusSuccess, s₁))
      (hrebase : rebaseImage c c.reservedBase (c.newHeader c.reservedBase) fuel s₁ =
        (some (), s')) : LoadRun c fuel s statusSuccess c.reservedBase s'

theorem memoryLoadLibrary_runs {handle : Nat}
    (h : memoryLoadLibrary c fuel s = (some (status, handle), s')) :
    LoadRun c fuel s status handle s' := by
  unfold memoryLoadLibrary at h
  cases hchecks : checkParameters c s with
  | error result =>
    rw [hchecks] at h
    cases h
    apply LoadRun.rejected _ hchecks
    intro haccepted
    rw [checkParameters_accepted haccepted] at hchecks
    cases hchecks
  | ok s₁ =>
    have haccepted := checkParameters_ok hchecks
    rw [hchecks] at h
    rw [checkParameters_accepted haccepted] at hchecks
    obtain rfl : checked c s = s₁ := Except.ok.inj hchecks
    dsimp only at h
    rw [reserveImage_fst] at h
    split at h
    · rename_i hbase
      cases h
      exact .unreserved haccepted hbase
    · rename_i hbase
      rw [mapImage_reserved, afterHeaders] at h
      split at h
      · cases h
      · rename_i code s₂ hsections
        split at h
        · rename_i hfails
          cases h
          exact .refused haccepted hbase hsections (by simpa using hfails)
        · rename_i hok
          obtain rfl := copySections_status hsections (by simpa using hok)
          unfold afterSections at h
          split at h
          · cases h
          · rename_i hrebase
            cases h
            exact .mapped haccepted hbase hsections hrebase

/-- A success has reserved the image, loaded its sections and rebased it. -/
theorem memoryLoadLibrary_success {handle : Nat}
    (h : memoryLoadLibrary c fuel s = (some (statusSuccess, handle), s')) :
    ∃ s₁, copySections c (c.newHeader c.reservedBase) fuel 0 (sectionTable c (checked c s))
        (headersCopied c (checked c s)) = (some statusSuccess, s₁) ∧
      rebaseImage c c.reservedBase (c.newHeader c.reservedBase) fuel s₁ = (some (), s') := by
  generalize hstatus : statusSuccess = status at h
  cases memoryLoadLibrary_runs h with
  | rejected hrefused hcheck =>
    have hfails := checkParameters_status hcheck
    rw [← hstatus] at hfails
    exact absurd hfails (by decide)
  | unreserved haccepted hbase => exact absurd hstatus (by decide)
  | refused haccepted hbase hsections hfails =>
    rw [← hstatus] at hfails
    cases hfails
  | mapped haccepted hbase hsections hrebase => exact ⟨_, hsections, hrebase⟩

/-- The address ranges that were reserved and committed. -/
def Access.allocates : Access → Bool
  | .reserve _ _ | .commit _ _ => true
  | .readBuffer _ _ | .read _ _ | .write _ _ => false

def allocations (s : Machine) : List Access := s.trace.filter Access.allocates

/-- A run that stores no handle leaves the reserved and committed ranges as they
were, and it says so by its status. -/
structure AtomicRun (s : Machine) (status : NtStatus) (handle : Nat) (s' : Machine) : Prop where
  ranges : handle = 0 → allocations s' = allocations s
  status : handle = 0 ↔ ntSuccess status = false ∨ status = statusImageMachineTypeMismatch

theorem allocations_prefix (h : s.trace <+: s'.trace) : allocations s <+: allocations s' := by
  obtain ⟨more, hmore⟩ := h
  exact ⟨more.filter Access.allocates, by rw [allocations, allocations, ← hmore, List.filter_append]⟩

theorem allocations_rejected (h : checkParameters c s = .error (status, s')) :
    allocations s' = allocations s := by
  have hread : ∀ t a n, allocations t = allocations s →
      allocations (t.note (.readBuffer a n)) = allocations s := by
    intro t a n ht
    rw [← ht, allocations, note_trace, List.filter_append]
    exact List.append_nil _
  exact refusesIn_checkParameters hread rfl status s' h

theorem allocations_checked (c : Caller) (s : Machine) :
    allocations (checked c s) = allocations s := by
  rw [allocations, checked, List.filter_append]
  exact List.append_nil _

theorem allocations_consult (c : Caller) (s : Machine) (field : Field) :
    allocations (s.consult c field) = allocations s := by
  rw [allocations, consult_trace, List.filter_append]
  exact List.append_nil _

theorem allocations_reserve (c : Caller) (s : Machine) (attempt address size : Nat) :
    allocations (s.reserve c attempt address size).2 = allocations s ++
      if c.virtualReserve attempt address size = 0 then []
      else [.reserve (c.virtualReserve attempt address size) size] := by
  unfold Machine.reserve
  split
  · rename_i hzero
    rw [if_pos hzero, List.append_nil]
  · rename_i base hne
    rw [if_neg hne, allocations, note_trace, List.filter_append]
    rfl

theorem allocations_reserveImage (c : Caller) (s : Machine) :
    allocations (reserveImage c s).2 = allocations s ++
      if c.reservedBase = 0 then [] else [.reserve c.reservedBase (c.member sizeOfImage)] := by
  unfold reserveImage reservePreferred Caller.reservedBase
  dsimp only
  split
  · rw [reserve_fst]
    split
    · rename_i hzero
      rw [allocations_reserve, allocations_consult, allocations_reserve, if_pos hzero]
      simp only [allocations_consult, List.append_nil]
    · rename_i hbase
      rw [allocations_reserve, if_neg hbase]
      simp only [allocations_consult]
  · rw [if_pos rfl, if_pos rfl, allocations_reserve]
    simp only [allocations_consult]

theorem prefix_headersCopied (c : Caller) (s : Machine) :
    (reserveImage c s).2.trace <+: (headersCopied c s).trace := by
  simp [headersCopied, copyHeaders, Machine.consult]

end WinPolyfillLoader.MemoryModule
