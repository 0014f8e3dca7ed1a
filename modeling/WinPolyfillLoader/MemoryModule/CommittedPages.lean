import WinPolyfillLoader.MemoryModule.DllImage

/-!
The pages that a run touches against the pages that it has committed. Every
operation of the run only adds to the trace, so what the copy of the headers
touches stays in it; a buffer that the checks refuse is only read.
-/

namespace WinPolyfillLoader.MemoryModule

open ByteMemory

/-- The access reads or writes the byte of the image at an address. -/
def Access.Touches : Access → Nat → Prop
  | .read a n, address | .write a n, address => a ≤ address ∧ address < a + n
  | .readBuffer _ _, _ | .reserve _ _, _ | .commit _ _, _ => False

/-- A page is committed if the range of a commit has a byte in it. -/
def PageCommitted (trace : List Access) (address : Nat) : Prop :=
  ∃ a n k, .commit a n ∈ trace ∧ a ≤ k ∧ k < a + n ∧ k / pageSize = address / pageSize

/-- Every byte of the image is touched after its page was committed. -/
def TouchesCommitted (trace : List Access) : Prop :=
  ∀ before access after, trace = before ++ access :: after →
    ∀ address, access.Touches address → PageCommitted before address

variable {c : Caller} {s : Machine}

theorem prefix_copySection (newHeader sectionHeader : Nat) (s : Machine) :
    s.trace <+: (copySection c newHeader sectionHeader s).2.trace := by
  rw [copySection_eq]
  dsimp only
  split_ifs <;> simp

theorem prefix_copySections (newHeader fuel i sectionHeader : Nat) (s : Machine) :
    s.trace <+: (copySections c newHeader fuel i sectionHeader s).2.trace := by
  induction fuel generalizing i sectionHeader s with
  | zero => exact List.prefix_refl _
  | succ fuel ih =>
    have hread : s.trace <+: (s.touch newHeader numberOfSections).trace := List.prefix_append _ _
    rw [copySections_succ]
    split
    · have hbody := prefix_copySection (c := c) newHeader sectionHeader
        (s.touch newHeader numberOfSections)
      rcases hcopy : copySection c newHeader sectionHeader (s.touch newHeader numberOfSections)
        with ⟨result, s'⟩
      rw [hcopy] at hbody
      cases result with
      | error status => exact hread.trans hbody
      | ok _ => exact (hread.trans hbody).trans (ih _ _ _)
    · exact hread

theorem prefix_applyFixup (base delta relocation relInfo : Nat) (s : Machine) :
    s.trace <+: (applyFixup c base delta relocation relInfo s).trace := by
  rw [applyFixup_eq]
  dsimp only
  split <;> simp

theorem prefix_applyFixups (base delta relocation fuel i relInfo : Nat) (s : Machine) :
    s.trace <+: (applyFixups c base delta relocation fuel i relInfo s).2.trace := by
  induction fuel generalizing i relInfo s with
  | zero => exact List.prefix_refl _
  | succ fuel ih =>
    have hread : s.trace <+: (s.touch relocation sizeOfBlock).trace := List.prefix_append _ _
    rw [applyFixups_succ]
    split
    · exact (hread.trans (prefix_applyFixup _ _ _ _ _)).trans (ih _ _ _)
    · exact hread

theorem prefix_applyBlocks (base newHeader delta fuel relocation : Nat) (s : Machine) :
    s.trace <+: (applyBlocks c base newHeader delta fuel relocation s).2.trace := by
  induction fuel generalizing relocation s with
  | zero => exact List.prefix_refl _
  | succ fuel ih =>
    rw [applyBlocks_succ]
    dsimp only
    split
    · split
      · have hreads : s.trace <+: (((s.touch newHeader (relocVirtualAddress c.host)).touch
            newHeader (relocSize c.host)).touch relocation blockVirtualAddress).trace := by
          simp
        have hblock := hreads.trans (prefix_applyFixups (c := c) base delta relocation fuel 0
          (relocation + typeOffset) _)
        split
        · next heq =>
          rw [heq] at hblock
          exact hblock
        · next s' heq =>
          rw [heq] at hblock
          have hread : s'.trace <+: (s'.touch relocation sizeOfBlock).trace :=
            List.prefix_append _ _
          exact (hblock.trans hread).trans (ih _ _)
      · simp
    · simp

theorem prefix_rebaseImage (base newHeader fuel : Nat) (s : Machine) :
    s.trace <+: (rebaseImage c base newHeader fuel s).2.trace := by
  rw [rebaseImage_eq]
  dsimp only
  split
  · split
    · apply List.IsPrefix.trans _ (prefix_applyBlocks _ _ _ _ _ _)
      simp
    · simp
  · simp

theorem prefix_mapImage (fuel base : Nat) (s : Machine) :
    (copyHeaders c base s).trace <+: (mapImage c fuel base s).2.trace := by
  rw [mapImage_eq]
  dsimp only
  have hread : (copyHeaders c base s).trace <+:
      ((copyHeaders c base s).touch (c.newHeader base) sizeOfOptionalHeader).trace :=
    List.prefix_append _ _
  have hsections := hread.trans (prefix_copySections (c := c) (c.newHeader base) fuel 0
    (c.newHeader base + optionalHeader +
      (copyHeaders c base s).value (c.newHeader base) sizeOfOptionalHeader) _)
  split
  · next heq =>
    rw [heq] at hsections
    exact hsections
  · next status s' heq =>
    rw [heq] at hsections
    split
    · exact hsections
    · have hrebase := hsections.trans (prefix_rebaseImage (c := c) base (c.newHeader base) fuel s')
      split
      · next heq' =>
        rw [heq'] at hrebase
        exact hrebase
      · next heq' =>
        rw [heq'] at hrebase
        exact hrebase

/-- The trace has no commit in it. -/
def NoCommit (trace : List Access) : Prop := ∀ a n, .commit a n ∉ trace

theorem noCommit_append {trace more : List Access} (h : NoCommit trace) (hmore : NoCommit more) :
    NoCommit (trace ++ more) := by
  intro a n hmem
  rcases List.mem_append.mp hmem with hmem | hmem
  · exact h a n hmem
  · exact hmore a n hmem

theorem reserve_noCommit {attempt address size : Nat} (h : NoCommit s.trace) :
    NoCommit (s.reserve c attempt address size).2.trace := by
  unfold Machine.reserve
  split
  · exact h
  · exact noCommit_append h (by simp [NoCommit])

theorem consult_noCommit {field : Field} (h : NoCommit s.trace) :
    NoCommit (s.consult c field).trace :=
  noCommit_append h (by simp [NoCommit])

theorem reserveImage_noCommit (h : NoCommit s.trace) : NoCommit (reserveImage c s).2.trace := by
  have hfirst : NoCommit (reservePreferred c s).2.trace := by
    unfold reservePreferred
    dsimp only
    split
    · exact reserve_noCommit (consult_noCommit (consult_noCommit (consult_noCommit h)))
    · exact consult_noCommit h
  unfold reserveImage
  dsimp only
  split
  · exact reserve_noCommit (consult_noCommit hfirst)
  · exact hfirst

theorem reserveImage_ne_zero (s : Machine)
    (h : ∀ attempt address size, c.virtualReserve attempt address size ≠ 0) :
    (reserveImage c s).1 ≠ 0 := by
  unfold reserveImage
  dsimp only
  split
  · unfold Machine.reserve
    split
    · next hzero => exact absurd hzero (h _ _ _)
    · next hne => exact h _ _ _
  · assumption

/-- The store of the base into the copied headers precedes every commit. -/
theorem not_touchesCommitted_mapImage {fuel base : Nat} (h : NoCommit s.trace) :
    ¬ TouchesCommitted (mapImage c fuel base s).2.trace := by
  intro htouches
  obtain ⟨more, hmore⟩ := prefix_mapImage (c := c) fuel base s
  let before := s.trace ++ [.readBuffer (c.oldHeader + sizeOfHeaders.offset) sizeOfHeaders.size,
    .readBuffer c.data (c.member sizeOfHeaders), .write base (c.member sizeOfHeaders)]
  let store := Access.write (c.newHeader base + (imageBase c.host).offset) (imageBase c.host).size
  have hcopy : (copyHeaders c base s).trace = before ++ [store] := by
    simp [copyHeaders, Machine.consult, before, store]
  have hbefore : NoCommit before := noCommit_append h (by simp [NoCommit])
  have hsplit : (mapImage c fuel base s).2.trace = before ++ store :: more := by
    rw [← hmore, hcopy, List.append_assoc]
    rfl
  have htouched : store.Touches (c.newHeader base + (imageBase c.host).offset) := by
    have hsize : 0 < (imageBase c.host).size := by
      cases c.host <;> decide
    exact ⟨Nat.le_refl _, by omega⟩
  obtain ⟨a, n, _, hmem, _⟩ := htouches before store more hsplit _ htouched
  exact hbefore a n hmem

/-- No run over a buffer that passes the checks keeps to the pages that it has
committed, even if every call of `VirtualAlloc` succeeds. -/
theorem not_touchesCommitted_accepted (haccepted : Accepted c)
    (hreserve : ∀ attempt address size, c.virtualReserve attempt address size ≠ 0)
    (fuel : Nat) (hstart : s.trace = []) :
    ¬ TouchesCommitted (memoryLoadLibrary c fuel s).2.trace := by
  have hchecks : NoCommit (s.trace ++ checkTrace c) := by
    rw [hstart]
    simp [NoCommit, checkTrace]
  simp only [memoryLoadLibrary, checkParameters_accepted haccepted]
  rw [if_neg (reserveImage_ne_zero _ hreserve)]
  exact not_touchesCommitted_mapImage (reserveImage_noCommit hchecks)

/-- No byte of an image was touched. -/
def Untouched (s : Machine) : Prop := ∀ access ∈ s.trace, ∀ address, ¬ access.Touches address

theorem touchesCommitted_untouched (h : Untouched s) : TouchesCommitted s.trace := by
  intro before access after htrace address htouches
  have hmem : access ∈ s.trace := by
    rw [htrace]
    simp
  exact absurd htouches (h access hmem address)

/-- If the checks end with an error, the machine is in a certain state. -/
def RefusesIn {α : Type} (I : Machine → Prop) (result : Except (NtStatus × Machine) α) : Prop :=
  ∀ status s, result = .error (status, s) → I s

section RefusesIn

variable {I : Machine → Prop}

theorem refusesIn_throw {α β : Type} {status : NtStatus}
    {f : α → Except (NtStatus × Machine) β} (h : I s) :
    RefusesIn I (throw (status, s) >>= f) := by
  rintro _ _ ⟨rfl, rfl⟩
  exact h

theorem refusesIn_probe {α : Type} (hread : ∀ s a n, I s → I (s.note (.readBuffer a n)))
    {pointer : Nat} {field : Field} {f : Nat × Machine → Except (NtStatus × Machine) α} (h : I s)
    (hf : ∀ value s, I s → RefusesIn I (f (value, s))) :
    RefusesIn I (probe c s pointer field >>= f) := by
  unfold probe
  split
  · rintro _ _ ⟨rfl, rfl⟩
    exact h
  · exact hf _ _ (hread _ _ _ h)

theorem refusesIn_checkParameters (hread : ∀ s a n, I s → I (s.note (.readBuffer a n)))
    (h : I s) : RefusesIn I (checkParameters c s) := by
  unfold checkParameters
  apply refusesIn_probe hread h
  intro magic s h
  dsimp only
  split
  · exact refusesIn_throw h
  apply refusesIn_probe hread h
  intro _ s h
  apply refusesIn_probe hread h
  intro signature s h
  dsimp only
  split
  · exact refusesIn_throw h
  apply refusesIn_probe hread h
  intro alignment s h
  dsimp only
  split
  · exact refusesIn_throw h
  apply refusesIn_probe hread h
  intro machine s h
  dsimp only
  split
  · exact refusesIn_throw h
  apply refusesIn_probe hread h
  intro characteristics s h
  dsimp only
  split
  · exact refusesIn_throw h
  · rintro _ _ ⟨⟩

end RefusesIn

/-- If the checks end with an error, no byte of an image was touched. -/
def RefusesUntouched {α : Type} (result : Except (NtStatus × Machine) α) : Prop :=
  ∀ status s, result = .error (status, s) → Untouched s

theorem refusesUntouched_checkParameters (h : Untouched s) :
    RefusesUntouched (checkParameters c s) := by
  apply refusesIn_checkParameters _ h
  intro s a n h access hmem address
  rw [note_trace, List.mem_append, List.mem_singleton] at hmem
  rcases hmem with hmem | rfl
  · exact h access hmem address
  · exact not_false

theorem bind_ok {ε α β : Type} {x : Except ε α} {f : α → Except ε β} {b : β}
    (h : x >>= f = .ok b) : ∃ a, x = .ok a ∧ f a = .ok b := by
  cases x with
  | error e => cases h
  | ok a => exact ⟨a, rfl, h⟩

theorem probe_ok {pointer value : Nat} {field : Field} {s' : Machine}
    (h : probe c s pointer field = .ok (value, s')) :
    load c.readable c.source (pointer + field.offset) field.size = some value := by
  unfold probe at h
  split at h
  · cases h
  · next hload =>
    obtain ⟨rfl, rfl⟩ := h
    exact hload

theorem checkParameters_ok {s' : Machine} (h : checkParameters c s = .ok s') : Accepted c := by
  unfold checkParameters at h
  obtain ⟨⟨magic, s₁⟩, hmagic, h⟩ := bind_ok h
  dsimp only at h
  split at h
  · cases h
  next hmagic' =>
  obtain ⟨⟨lfanew, s₂⟩, hlfanew, h⟩ := bind_ok h
  obtain ⟨⟨signature, s₃⟩, hsignature, h⟩ := bind_ok h
  dsimp only at h
  split at h
  · cases h
  next hsignature' =>
  obtain ⟨⟨alignment, s₄⟩, halignment, h⟩ := bind_ok h
  dsimp only at h
  split at h
  · cases h
  next halignment' =>
  obtain ⟨⟨machine, s₅⟩, hmachine, h⟩ := bind_ok h
  dsimp only at h
  split at h
  · cases h
  next hmachine' =>
  obtain ⟨⟨characteristics, s₆⟩, hdll, h⟩ := bind_ok h
  dsimp only at h
  split at h
  · cases h
  next hdll' =>
  exact {
    magic := by rw [probe_ok hmagic, not_not.mp hmagic']
    lfanew := ⟨lfanew, probe_ok hlfanew⟩
    signature := by rw [probe_ok hsignature, not_not.mp hsignature']
    alignment := ⟨alignment, probe_ok halignment, by omega⟩
    machine := by rw [probe_ok hmachine, not_not.mp hmachine']
    dll := ⟨characteristics, probe_ok hdll, hdll'⟩ }

/-- A run keeps to the pages that it has committed exactly if the checks refuse
the buffer. -/
theorem memoryLoadLibrary_touchesCommitted_iff
    (hreserve : ∀ attempt address size, c.virtualReserve attempt address size ≠ 0)
    (fuel : Nat) (hstart : s.trace = []) :
    TouchesCommitted (memoryLoadLibrary c fuel s).2.trace ↔ ¬ Accepted c := by
  constructor
  · intro htouches haccepted
    exact not_touchesCommitted_accepted haccepted hreserve fuel hstart htouches
  · intro hrefused
    have huntouched : Untouched s := by
      rw [Untouched, hstart]
      simp
    unfold memoryLoadLibrary
    cases hchecks : checkParameters c s with
    | ok s' => exact absurd (checkParameters_ok hchecks) hrefused
    | error result =>
      obtain ⟨status, s'⟩ := result
      exact touchesCommitted_untouched (refusesUntouched_checkParameters huntouched status s' hchecks)

theorem memoryLoadLibrary_touchesCommitted_iff_sample :
    TouchesCommitted
        (memoryLoadLibrary (sampleCaller 0x1000 0x1000) 13 blankMachine).2.trace ↔
      ¬ Accepted (sampleCaller 0x1000 0x1000) :=
  memoryLoadLibrary_touchesCommitted_iff (fun _ _ _ => Nat.succ_ne_zero _) 13 rfl

/-- A usual image is touched before any of its pages is committed. -/
theorem memoryLoadLibrary_touches_uncommitted :
    DllImage (sampleCaller 0x1000 0x1000) (sampleSections 0x1000) ∧
      (∀ attempt address size,
        (sampleCaller 0x1000 0x1000).virtualReserve attempt address size ≠ 0) ∧
      (∀ address size, (sampleCaller 0x1000 0x1000).virtualCommit address size = true) ∧
      ¬ TouchesCommitted
        (memoryLoadLibrary (sampleCaller 0x1000 0x1000) 13 blankMachine).2.trace := by
  have himage : DllImage (sampleCaller 0x1000 0x1000) (sampleSections 0x1000) :=
    sample_dllImage (by decide)
  have haccepted : Accepted (sampleCaller 0x1000 0x1000) :=
    accepted_dllImage himage (by decide +kernel)
  have hreserve : ∀ attempt address size,
      (sampleCaller 0x1000 0x1000).virtualReserve attempt address size ≠ 0 :=
    fun _ _ _ => Nat.succ_ne_zero _
  exact ⟨himage, hreserve, fun _ _ => rfl,
    not_touchesCommitted_accepted haccepted hreserve 13 rfl⟩

end WinPolyfillLoader.MemoryModule
