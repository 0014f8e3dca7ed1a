import WinPolyfillLoader.Library.Runs
import WinPolyfillLoader.Loader.GlobalData

/-!
Calls of `Initialize` by the copies of one process, one after the other under the PEB
lock. The copies agree on one block as long as no call finds a section whose creator
gave its view up.
-/

namespace WinPolyfillLoader.Loader

open SharedSection

variable {κ : Type}

structure InitializeCall (κ : Type) where
  copy : κ
  answers : KernelAnswers

/-- The copies with what their calls so far have come to: the first creator that
succeeded and the address of its block, the copies with a successful call, and whether a
call has dereferenced an address that is not mapped. -/
structure InitializeRun (κ : Type) where
  copies : Copies κ
  firstCreator : Option (κ × Nat)
  succeeded : List κ
  faulted : Bool

def InitializeRun.start : InitializeRun κ where
  copies := ⟨.empty .zero, fun _ => 0⟩
  firstCreator := none
  succeeded := []
  faulted := false

/-- A successful call that found no section is the one of a creator. -/
def creatorAfter (r : InitializeRun κ) (copy : κ) (copies : Copies κ) : Option (κ × Nat) :=
  if r.firstCreator = none ∧ r.copies.sections.named = none then
    some (copy, copies.mmpGlobalDataPtr copy)
  else r.firstCreator

section Call

variable [DecidableEq κ]

/-- One call. A fault ends the process. -/
def initializeCall (platform : Platform) (version : κ → LibraryVersion) (r : InitializeRun κ)
    (call : InitializeCall κ) : InitializeRun κ :=
  if r.faulted then r
  else
    match initializeLockHeld platform (version call.copy) call.copy call.answers r.copies with
    | none => { r with faulted := true }
    | some (status, copies) =>
      if ntSuccess status then
        { r with
          copies := copies
          firstCreator := creatorAfter r call.copy copies
          succeeded := call.copy :: r.succeeded }
      else { r with copies := copies }

end Call

/-- Nothing has faulted, and every copy with a successful call points to the mapped
block that the first successful creator has written, in a version that it supports. -/
structure Agreed (version : κ → LibraryVersion) (r : InitializeRun κ) : Prop where
  faultless : r.faulted = false
  oneBlock : ∀ copy ∈ r.succeeded, ∃ creator block data, r.firstCreator = some (creator, block) ∧
    r.copies.mmpGlobalDataPtr copy = block ∧ r.copies.sections.read block = some data ∧
    data.majorVersion = (version creator).majorVersion ∧
    data.minorVersion = (version creator).minorVersion ∧
    supportsVersion (version copy) data = true

/-- The running Windows is known, or the call finds no section. -/
def FindsNoAbandoned (platform : Platform) (r : InitializeRun κ) (call : InitializeCall κ) :
    Prop :=
  platform.windowsVersion ≠ .invalid ∨ findsSection call.answers r.copies.sections = false

/-- The section is open with the first creator's block in it. -/
structure SharesBlock (platform : Platform) (version : κ → LibraryVersion) (r : InitializeRun κ)
    (object : Nat) (creator : κ) (block : Nat) : Prop where
  named : r.copies.sections.named = some object
  view : r.copies.sections.views block = some object
  written : WrittenBy platform (version creator) block (r.copies.sections.contents object)
  first : r.firstCreator = some (creator, block)
  points : ∀ copy ∈ r.succeeded, r.copies.mmpGlobalDataPtr copy = block ∧
    supportsVersion (version copy) (r.copies.sections.contents object) = true

/-- What the calls keep. On a known Windows the section is closed, and nobody has
succeeded, or it is shared; on an unknown one no view is left and nobody succeeds. -/
inductive Shared (platform : Platform) (version : κ → LibraryVersion) (r : InitializeRun κ) :
    Prop where
  | closed (hnamed : r.copies.sections.named = none) (hfirst : r.firstCreator = none)
      (hsucceeded : r.succeeded = []) (hknown : platform.windowsVersion ≠ .invalid)
  | shared (object : Nat) (creator : κ) (block : Nat)
      (hblock : SharesBlock platform version r object creator block)
      (hknown : platform.windowsVersion ≠ .invalid)
  | abandoned (hviews : ∀ address, r.copies.sections.views address = none)
      (hsucceeded : r.succeeded = []) (hunknown : platform.windowsVersion = .invalid)

section Steps

variable {platform : Platform} {version : κ → LibraryVersion} {r : InitializeRun κ}
  {call : InitializeCall κ}

theorem creatorAfter_closed {copy : κ} {copies : Copies κ} {block : Nat}
    (hfirst : r.firstCreator = none) (hnamed : r.copies.sections.named = none)
    (hpoints : copies.mmpGlobalDataPtr copy = block) :
    creatorAfter r copy copies = some (copy, block) := by
  rw [creatorAfter, if_pos ⟨hfirst, hnamed⟩, hpoints]

theorem creatorAfter_first {copy creator : κ} {copies : Copies κ} {block : Nat}
    (hfirst : r.firstCreator = some (creator, block)) :
    creatorAfter r copy copies = some (creator, block) := by
  have hlater : ¬(r.firstCreator = none ∧ r.copies.sections.named = none) := by
    rintro ⟨hnone, _⟩
    cases hnone.symm.trans hfirst
  rw [creatorAfter, if_neg hlater, hfirst]

theorem agreed_iff_faultless (h : Shared platform version r) :
    Agreed version r ↔ r.faulted = false := by
  constructor
  · exact Agreed.faultless
  · intro hfaultless
    refine ⟨hfaultless, ?_⟩
    intro copy hcopy
    cases h with
    | closed hnamed hfirst hsucceeded hknown =>
      rw [hsucceeded] at hcopy
      cases hcopy
    | shared object creator block hblock hknown =>
      obtain ⟨hpoints, hsupports⟩ := hblock.points copy hcopy
      exact ⟨creator, block, _, hblock.first, hpoints, Sections.read_of_view hblock.view rfl,
        hblock.written.majorVersion, hblock.written.minorVersion, hsupports⟩
    | abandoned hviews hsucceeded hunknown =>
      rw [hsucceeded] at hcopy
      cases hcopy

variable [DecidableEq κ]

theorem initializeCall_failed {status : NtStatus} {copies : Copies κ}
    (hrunning : r.faulted = false)
    (hcall : initializeLockHeld platform (version call.copy) call.copy call.answers r.copies =
      some (status, copies)) (hfails : ntSuccess status = false) :
    initializeCall platform version r call = { r with copies := copies } := by
  unfold initializeCall
  rw [hrunning, hcall]
  dsimp only
  rw [if_neg Bool.false_ne_true, hfails, if_neg Bool.false_ne_true]

theorem initializeCall_succeeded {status : NtStatus} {copies : Copies κ}
    (hrunning : r.faulted = false)
    (hcall : initializeLockHeld platform (version call.copy) call.copy call.answers r.copies =
      some (status, copies)) (hsuccess : ntSuccess status = true) :
    initializeCall platform version r call =
      { r with
        copies := copies
        firstCreator := creatorAfter r call.copy copies
        succeeded := call.copy :: r.succeeded } := by
  unfold initializeCall
  rw [hrunning, hcall]
  dsimp only
  rw [if_neg Bool.false_ne_true, hsuccess, if_pos rfl]

theorem initializeCall_faults (hrunning : r.faulted = false)
    (hcall : initializeLockHeld platform (version call.copy) call.copy call.answers r.copies =
      none) : initializeCall platform version r call = { r with faulted := true } := by
  unfold initializeCall
  rw [hrunning, hcall]
  dsimp only
  rw [if_neg Bool.false_ne_true]

/-- While the section is closed a creator on a known Windows leaves it shared, and on an
unknown one abandoned. -/
theorem shared_call_unnamed (call : InitializeCall κ)
    (hnamed : r.copies.sections.named = none) (h : Shared platform version r) (hrunning : r.faulted = false) :
    Shared platform version (initializeCall platform version r call) ∧
      (initializeCall platform version r call).faulted = false := by
  rcases mmpAllocateGlobalData_unnamed call.copy call.answers hnamed with
    ⟨status, sections, hrefusal, hclosed, hviews, hallocate⟩ | ⟨block, hfree, hallocate⟩
  · have hcall : initializeLockHeld platform (version call.copy) call.copy call.answers r.copies =
        some (status, ⟨sections, r.copies.mmpGlobalDataPtr⟩) :=
      initializeLockHeld_refused hrefusal hallocate
    rw [initializeCall_failed hrunning hcall hrefusal.1]
    refine ⟨?_, hrunning⟩
    cases h with
    | closed hnamed hfirst hsucceeded hknown =>
      exact .closed hclosed hfirst hsucceeded hknown
    | shared object creator block hblock hknown =>
      cases hnamed.symm.trans hblock.named
    | abandoned hnone hsucceeded hunknown =>
      exact .abandoned (fun address => (congrFun hviews address).trans (hnone address))
        hsucceeded hunknown
  · obtain ⟨sections, object, hopen, hviews, hwritten, hcall⟩ :=
      initializeLockHeld_created platform (version call.copy) hallocate
    have hpoints : Function.update r.copies.mmpGlobalDataPtr call.copy block call.copy = block :=
      Function.update_self _ _ _
    cases h with
    | closed hnamed hfirst hsucceeded hknown =>
      rw [if_neg hknown] at hcall
      rw [initializeCall_succeeded hrunning hcall (by decide)]
      have hview : sections.views block = some object := by
        rw [hviews, Function.update_self]
      refine ⟨.shared object call.copy block ⟨hopen, hview, hwritten, ?_, ?_⟩ hknown, hrunning⟩
      · exact creatorAfter_closed hfirst hnamed hpoints
      · intro copy hcopy
        rw [hsucceeded] at hcopy
        rw [List.mem_singleton.mp hcopy]
        exact ⟨hpoints, supportsVersion_own hwritten.majorVersion hwritten.minorVersion⟩
    | shared object creator block hblock hknown =>
      cases hnamed.symm.trans hblock.named
    | abandoned hnone hsucceeded hunknown =>
      rw [if_pos hunknown] at hcall
      rw [initializeCall_failed hrunning hcall (by decide)]
      refine ⟨.abandoned ?_ hsucceeded hunknown, hrunning⟩
      intro address
      change Function.update sections.views block none address = none
      rw [hviews, Function.update_idem]
      rcases eq_or_ne address block with rfl | hne
      · rw [Function.update_self]
      · rw [Function.update_of_ne hne, hnone]

/-- While the section is shared a call is refused or reads the block through its address. -/
theorem shared_call_shared (call : InitializeCall κ) {object block : Nat} {creator : κ}
    (hblock : SharesBlock platform version r object creator block)
    (hknown : platform.windowsVersion ≠ .invalid) (hrunning : r.faulted = false) :
    Shared platform version (initializeCall platform version r call) ∧
      (initializeCall platform version r call).faulted = false := by
  rcases initializeLockHeld_named platform (version call.copy) call.copy call.answers hblock.named
    with ⟨_, status, hrefusal, hcall⟩ | ⟨_, hcall⟩
  · rw [initializeCall_failed hrunning hcall hrefusal.1]
    exact ⟨.shared object creator block hblock hknown, hrunning⟩
  · rw [hblock.written.baseAddress, Sections.read_of_view hblock.view rfl, Option.map_some] at hcall
    have hpoints : ∀ copy ∈ r.succeeded,
        Function.update r.copies.mmpGlobalDataPtr call.copy block copy = block := by
      intro copy hcopy
      rcases eq_or_ne copy call.copy with rfl | hne
      · exact Function.update_self _ _ _
      · rw [Function.update_of_ne hne]
        exact (hblock.points copy hcopy).1
    cases hsupports : supportsVersion (version call.copy) (r.copies.sections.contents object) with
    | false =>
      rw [hsupports] at hcall
      rw [initializeCall_failed hrunning hcall (by decide)]
      refine ⟨.shared object creator block ?_ hknown, hrunning⟩
      exact ⟨hblock.named, hblock.view, hblock.written, hblock.first, fun copy hcopy =>
        ⟨hpoints copy hcopy, (hblock.points copy hcopy).2⟩⟩
    | true =>
      rw [hsupports] at hcall
      rw [initializeCall_succeeded hrunning hcall (by decide)]
      refine ⟨.shared object creator block ?_ hknown, hrunning⟩
      refine ⟨hblock.named, hblock.view, hblock.written, ?_, ?_⟩
      · exact creatorAfter_first hblock.first
      · intro copy hcopy
        rcases List.mem_cons.mp hcopy with rfl | hcopy
        · exact ⟨Function.update_self _ _ _, hsupports⟩
        · exact ⟨hpoints copy hcopy, (hblock.points copy hcopy).2⟩

/-- Where the view behind the section is gone, the call that finds the section faults. -/
theorem shared_call_abandoned (call : InitializeCall κ) {object : Nat}
    (hnamed : r.copies.sections.named = some object)
    (hnone : ∀ address, r.copies.sections.views address = none) (hsucceeded : r.succeeded = [])
    (hunknown : platform.windowsVersion = .invalid) (hrunning : r.faulted = false) :
    Shared platform version (initializeCall platform version r call) ∧
      (initializeCall platform version r call).faulted =
        findsSection call.answers r.copies.sections := by
  rcases initializeLockHeld_named platform (version call.copy) call.copy call.answers hnamed
    with ⟨hfinds, status, hrefusal, hcall⟩ | ⟨hfinds, hcall⟩
  · rw [initializeCall_failed hrunning hcall hrefusal.1, hfinds]
    exact ⟨.abandoned hnone hsucceeded hunknown, hrunning⟩
  · rw [Sections.read_none (hnone _), Option.map_none] at hcall
    rw [initializeCall_faults hrunning hcall, hfinds]
    exact ⟨.abandoned hnone hsucceeded hunknown, rfl⟩

theorem shared_call (call : InitializeCall κ) (h : Shared platform version r) (hrunning : r.faulted = false) :
    Shared platform version (initializeCall platform version r call) ∧
      ((initializeCall platform version r call).faulted = false ↔
        FindsNoAbandoned platform r call) := by
  cases hnamed : r.copies.sections.named with
  | none =>
    obtain ⟨hshared, hfaultless⟩ := shared_call_unnamed call hnamed h hrunning
    obtain ⟨status, _, hopen⟩ := ntOpenSection_unnamed call.answers hnamed
    have hfinds : findsSection call.answers r.copies.sections = false := by
      rw [findsSection, hopen]
    exact ⟨hshared, iff_of_true hfaultless (Or.inr hfinds)⟩
  | some object =>
    cases h with
    | closed hclosed hfirst hsucceeded hknown =>
      cases hclosed.symm.trans hnamed
    | shared object creator block hblock hknown =>
      obtain ⟨hshared, hfaultless⟩ := shared_call_shared call hblock hknown hrunning
      exact ⟨hshared, iff_of_true hfaultless (Or.inl hknown)⟩
    | abandoned hnone hsucceeded hunknown =>
      obtain ⟨hshared, hfaulted⟩ :=
        shared_call_abandoned call hnamed hnone hsucceeded hunknown hrunning
      refine ⟨hshared, ?_⟩
      rw [hfaulted]
      constructor
      · exact Or.inr
      · rintro (hknown | hfinds)
        · exact absurd hunknown hknown
        · exact hfinds

end Steps

theorem shared_start (platform : Platform) (version : κ → LibraryVersion) :
    Shared platform version (InitializeRun.start : InitializeRun κ) := by
  by_cases hunknown : platform.windowsVersion = .invalid
  · exact .abandoned (fun _ => rfl) rfl hunknown
  · exact .closed rfl rfl rfl hunknown

/-- The copies agree on one block after every call of a run, and no call has read an
address that is not mapped, exactly when every call on an unknown Windows finds no
section. -/
theorem initialize_agrees_iff [DecidableEq κ] (platform : Platform) (version : κ → LibraryVersion)
    (calls : List (InitializeCall κ)) :
    (∀ before later, calls = before ++ later →
      Agreed version (before.foldl (initializeCall platform version) .start)) ↔
      Runs.Admissible (initializeCall platform version) (FindsNoAbandoned platform) .start
        calls := by
  have hkeep : ∀ (r : InitializeRun κ) (call : InitializeCall κ), Shared platform version r →
      Agreed version r → True → Shared platform version (initializeCall platform version r call) :=
    fun r call h hagreed _ => (shared_call call h hagreed.faultless).1
  have hstep : ∀ (r : InitializeRun κ) (call : InitializeCall κ), Shared platform version r →
      Agreed version r → True → (Agreed version (initializeCall platform version r call) ↔
        FindsNoAbandoned platform r call) := by
    intro r call h hagreed _
    obtain ⟨hshared, hfaultless⟩ := shared_call call h hagreed.faultless
    exact (agreed_iff_faultless hshared).trans hfaultless
  have hstart := shared_start (κ := κ) platform version
  have hagreed : Agreed version (InitializeRun.start : InitializeRun κ) :=
    (agreed_iff_faultless hstart).mpr rfl
  exact Runs.invariant_iff hkeep hstep hstart hagreed fun _ _ => trivial

/-- The build of Windows Server 2008 that its updates bring it to, which is not among
those of the switch. -/
def server2008 : Platform := ⟨⟨6, 0, 6003⟩, fun _ => 0⟩

/-- The kernel grants everything, with views at the given address. -/
def granted (address : Nat) : KernelAnswers := ⟨.ok (), .ok (), .ok address⟩

/-- The first copy gives up and keeps the section open, and the second one reads the block
where it was. -/
theorem initialize_abandoned :
    ¬Agreed (fun _ : Bool => memoryModuleVersion)
      ([InitializeCall.mk false (granted 0x10000), ⟨true, granted 0x10000⟩].foldl
        (initializeCall server2008 fun _ => memoryModuleVersion) .start) := by
  intro hagreed
  exact absurd hagreed.faultless (by decide +kernel)

end WinPolyfillLoader.Loader
