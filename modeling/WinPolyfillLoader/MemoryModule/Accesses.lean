import WinPolyfillLoader.MemoryModule.CommittedPages
import WinPolyfillLoader.MemoryModule.MappedImage

/-!
What a run over an arbitrary buffer reads from the buffer and writes to the
image. The section loop and the relocation loops read their tables from the
image, which they change, so the sections and the fixups are those that each
loop comes to.
-/

namespace WinPolyfillLoader.MemoryModule

open ByteMemory

/-- A condition on accesses that only reads of the buffer and writes can break. -/
structure OnTransfers (Q : Access → Prop) : Prop where
  read : ∀ a n, Q (.read a n)
  reserve : ∀ a n, Q (.reserve a n)
  commit : ∀ a n, Q (.commit a n)

/-- Every access of the machine so far meets the condition. -/
def Meets (Q : Access → Prop) (s : Machine) : Prop := ∀ access ∈ s.trace, Q access

/-- The section header at an address of the image. -/
def Machine.sectionAt (s : Machine) (sectionHeader : Nat) : Section where
  virtualSize := s.value sectionHeader virtualSize
  virtualAddress := s.value sectionHeader virtualAddress
  sizeOfRawData := s.value sectionHeader sizeOfRawData
  pointerToRawData := s.value sectionHeader pointerToRawData

/-- Where the raw data of a section goes: `VirtualAlloc` returns the first page
of the range. -/
def Section.destination (c : Caller) (imageBase : Nat) (x : Section) : Nat :=
  c.host.offset imageBase x.virtualAddress / pageSize * pageSize

/-- The loop copies the raw data of the section: there is some, it fits the
size of the section, and the pages are committed. -/
def Section.Copied (c : Caller) (imageBase alignment : Nat) (x : Section) : Prop :=
  let size := alignValueUp c.host x.virtualSize alignment % 2 ^ 32
  x.sizeOfRawData ≤ size ∧ c.virtualCommit (c.host.offset imageBase x.virtualAddress) size = true ∧
    x.destination c imageBase ≠ 0 ∧ x.sizeOfRawData ≠ 0

/-- Every section that the loop copies meets the condition, with the `ImageBase`
that stands in the image then. -/
def EachCopied (c : Caller) (newHeader : Nat) (P : Nat → Section → Prop) :
    Nat → Nat → Nat → Machine → Prop
  | 0, _, _, _ => True
  | fuel + 1, i, sectionHeader, s =>
    i < s.value newHeader numberOfSections →
      ((s.sectionAt sectionHeader).Copied c (s.value newHeader (imageBase c.host))
          (s.value newHeader sectionAlignment) →
        P (s.value newHeader (imageBase c.host)) (s.sectionAt sectionHeader)) ∧
      match copySection c newHeader sectionHeader (s.touch newHeader numberOfSections) with
      | (.error _, _) => True
      | (.ok _, s) =>
        EachCopied c newHeader P fuel (i + 1) (sectionHeader + sizeOfSectionHeader) s

/-- Every fixup of a block meets the condition. -/
def EachFixup (c : Caller) (base delta relocation : Nat) (P : Fixup → Prop) :
    Nat → Nat → Nat → Machine → Prop
  | 0, _, _, _ => True
  | fuel + 1, i, relInfo, s =>
    i < typeOffsetCount (s.value relocation sizeOfBlock) →
      (∀ f, entryFixup c.host (s.value relocation blockVirtualAddress) (s.value relInfo ⟨0, 2⟩) =
        some f → P f) ∧
      EachFixup c base delta relocation P fuel (i + 1) (relInfo + 2)
        (applyFixup c base delta relocation relInfo (s.touch relocation sizeOfBlock))

/-- Every fixup of the directory meets the condition. -/
def EachBlock (c : Caller) (base newHeader delta : Nat) (P : Fixup → Prop) :
    Nat → Nat → Machine → Prop
  | 0, _, _ => True
  | fuel + 1, relocation, s =>
    let s' := ((s.touch newHeader (relocVirtualAddress c.host)).touch newHeader
      (relocSize c.host)).touch relocation blockVirtualAddress
    relocation < c.host.offset base (s.value newHeader (relocVirtualAddress c.host) +
        s.value newHeader (relocSize c.host)) →
      s.value relocation blockVirtualAddress > 0 →
        EachFixup c base delta relocation P fuel 0 (relocation + typeOffset) s' ∧
        match applyFixups c base delta relocation fuel 0 (relocation + typeOffset) s' with
        | (none, _) => True
        | (some _, s) =>
          EachBlock c base newHeader delta P fuel
            (c.host.offset relocation (s.value relocation sizeOfBlock))
            (s.touch relocation sizeOfBlock)

/-- Every fixup of the rebase meets the condition. -/
def EachRebased (c : Caller) (base newHeader : Nat) (P : Fixup → Prop) (fuel : Nat) (s : Machine) :
    Prop :=
  let delta := (s.value newHeader (imageBase c.host) + c.host.addresses -
    c.member (imageBase c.host)) % c.host.addresses
  let address := s.value newHeader (relocVirtualAddress c.host)
  let s' := (((s.touch newHeader (imageBase c.host)).consult c (imageBase c.host)).touch newHeader
    (relocVirtualAddress c.host)).touch newHeader (relocSize c.host)
  delta ≠ 0 → s.value newHeader (relocSize c.host) ≠ 0 → address ≠ 0 →
    EachBlock c base newHeader delta P fuel (c.host.offset base address) s'

/-- The machine in which the section loop starts, when the reservation starts
from `s`. -/
def headersCopied (c : Caller) (s : Machine) : Machine :=
  (copyHeaders c c.reservedBase (reserveImage c s).2).touch (c.newHeader c.reservedBase)
    sizeOfOptionalHeader

/-- The address of the section table of the image. -/
def sectionTable (c : Caller) (s : Machine) : Nat :=
  c.newHeader c.reservedBase + optionalHeader +
    (headersCopied c s).value (c.newHeader c.reservedBase) sizeOfOptionalHeader

/-- The machine after the checks of an accepted buffer. -/
def checked (c : Caller) (s : Machine) : Machine := { s with trace := s.trace ++ checkTrace c }

variable {c : Caller} {Q : Access → Prop} {s : Machine} {base newHeader : Nat}

theorem meets_append {trace : List Access} {bytes : Bytes} :
    Meets Q ⟨bytes, s.trace ++ trace⟩ ↔ Meets Q s ∧ ∀ access ∈ trace, Q access :=
  List.forall_mem_append

theorem meets_touch (hQ : OnTransfers Q) (pointer : Nat) (field : Field) :
    Meets Q (s.touch pointer field) ↔ Meets Q s := by
  refine meets_append.trans (and_iff_left ?_)
  intro access h
  rw [List.mem_singleton.mp h]
  exact hQ.read _ _

theorem meets_commit (hQ : OnTransfers Q) (address size : Nat) :
    Meets Q (s.commit c address size).2 ↔ Meets Q s := by
  unfold Machine.commit
  split
  · refine meets_append.trans (and_iff_left ?_)
    intro access h
    rw [List.mem_singleton.mp h]
    exact hQ.commit _ _
  · exact Iff.rfl

theorem meets_copy (destination source length : Nat) :
    Meets Q (s.copy c destination source length) ↔
      Meets Q s ∧ Q (.readBuffer source length) ∧ Q (.write destination length) := by
  refine meets_append.trans (and_congr_right fun _ => ?_)
  simp

theorem meets_write (pointer : Nat) (field : Field) (value : Nat) :
    Meets Q (s.write pointer field value) ↔
      Meets Q s ∧ Q (.write (pointer + field.offset) field.size) := by
  refine meets_append.trans (and_congr_right fun _ => ?_)
  simp

theorem meets_consult (field : Field) :
    Meets Q (s.consult c field) ↔
      Meets Q s ∧ Q (.readBuffer (c.oldHeader + field.offset) field.size) := by
  refine meets_append.trans (and_congr_right fun _ => ?_)
  simp

theorem meets_reserve (hQ : OnTransfers Q) (attempt address size : Nat) :
    Meets Q (s.reserve c attempt address size).2 ↔ Meets Q s := by
  unfold Machine.reserve
  split
  · exact Iff.rfl
  · refine meets_append.trans (and_iff_left ?_)
    intro access h
    rw [List.mem_singleton.mp h]
    exact hQ.reserve _ _

theorem commit_fst (s : Machine) (address size : Nat) :
    (s.commit c address size).1 =
      if c.virtualCommit address size then address / pageSize * pageSize else 0 := by
  unfold Machine.commit
  split
  · rfl
  · rfl

theorem meets_copySection (hQ : OnTransfers Q) (newHeader sectionHeader : Nat) (s : Machine) :
    Meets Q (copySection c newHeader sectionHeader s).2 ↔
      Meets Q s ∧ ((s.sectionAt sectionHeader).Copied c (s.value newHeader (imageBase c.host))
          (s.value newHeader sectionAlignment) →
        Q (.readBuffer (c.host.offset c.data (s.sectionAt sectionHeader).pointerToRawData)
          (s.sectionAt sectionHeader).sizeOfRawData) ∧
        Q (.write ((s.sectionAt sectionHeader).destination c (s.value newHeader (imageBase c.host)))
          (s.sectionAt sectionHeader).sizeOfRawData)) := by
  rw [copySection_eq]
  simp only [commit_fst, touch_value, commit_value]
  split
  · rename_i hsmall
    rw [meets_touch hQ, meets_touch hQ, meets_touch hQ]
    refine (and_iff_left ?_).symm
    rintro ⟨hfits, -⟩
    exact absurd hfits (Nat.not_le_of_lt hsmall)
  · rename_i hfits
    split
    · rename_i hcommit
      split
      · rename_i hnull
        simp only [meets_touch hQ, meets_commit hQ]
        refine (and_iff_left ?_).symm
        rintro ⟨-, -, hdest, -⟩
        exact absurd hnull hdest
      · rename_i hdest
        split
        · rename_i hraw
          rw [meets_copy]
          simp only [meets_touch hQ, meets_commit hQ]
          refine and_congr_right fun _ => ?_
          have hcopied : (s.sectionAt sectionHeader).Copied c (s.value newHeader (imageBase c.host))
              (s.value newHeader sectionAlignment) :=
            ⟨Nat.le_of_not_lt hfits, hcommit, hdest, hraw⟩
          exact ⟨fun h _ => h, fun h => h hcopied⟩
        · rename_i hraw
          simp only [meets_touch hQ, meets_commit hQ]
          refine (and_iff_left ?_).symm
          rintro ⟨-, -, -, hsome⟩
          exact absurd hsome hraw
    · rename_i hcommit
      rw [if_pos rfl]
      simp only [meets_touch hQ, meets_commit hQ]
      refine (and_iff_left ?_).symm
      rintro ⟨-, hgranted, -⟩
      exact absurd hgranted hcommit

/-- The condition on the transfers of a section. -/
def TransfersMeet (c : Caller) (Q : Access → Prop) (imageBase : Nat) (x : Section) : Prop :=
  Q (.readBuffer (c.host.offset c.data x.pointerToRawData) x.sizeOfRawData) ∧
    Q (.write (x.destination c imageBase) x.sizeOfRawData)

theorem meets_copySections (hQ : OnTransfers Q) (newHeader fuel i sectionHeader : Nat)
    (s : Machine) :
    Meets Q (copySections c newHeader fuel i sectionHeader s).2 ↔
      Meets Q s ∧ EachCopied c newHeader (TransfersMeet c Q) fuel i sectionHeader s := by
  induction fuel generalizing i sectionHeader s with
  | zero => exact (and_iff_left trivial).symm
  | succ fuel ih =>
    rw [copySections_succ, EachCopied]
    have hbody := meets_copySection (c := c) hQ newHeader sectionHeader
      (s.touch newHeader numberOfSections)
    rw [meets_touch hQ] at hbody
    split
    · rename_i hcount
      rw [forall_prop_of_true hcount, ← and_assoc]
      cases hcopy : copySection c newHeader sectionHeader (s.touch newHeader numberOfSections) with
      | mk result s' =>
        rw [hcopy] at hbody
        cases result with
        | error status => exact hbody.trans (and_iff_left trivial).symm
        | ok _ => exact (ih _ _ s').trans (and_congr_left fun _ => hbody)
    · rename_i hcount
      rw [meets_touch hQ]
      refine (and_iff_left ?_).symm
      intro hlt
      exact absurd hlt hcount

/-- The condition on the store of a fixup. -/
def StoreMeets (c : Caller) (Q : Access → Prop) (base : Nat) (f : Fixup) : Prop :=
  Q (.write (c.host.offset base f.target) f.width)

theorem meets_applyFixup (hQ : OnTransfers Q) (base delta relocation relInfo : Nat) (s : Machine) :
    Meets Q (applyFixup c base delta relocation relInfo s) ↔
      Meets Q s ∧ ∀ f, entryFixup c.host (s.value relocation blockVirtualAddress)
        (s.value relInfo ⟨0, 2⟩) = some f → StoreMeets c Q base f := by
  rw [applyFixup_eq, entryFixup]
  dsimp only
  cases fixupWidth c.host (s.value relInfo ⟨0, 2⟩ / 0x1000) with
  | none => simp [meets_touch hQ]
  | some width =>
    simp only [meets_write, meets_touch hQ, Option.map_some, Option.some.injEq, forall_eq',
      StoreMeets, Nat.add_zero]

theorem meets_applyFixups (hQ : OnTransfers Q) (base delta relocation fuel i relInfo : Nat)
    (s : Machine) :
    Meets Q (applyFixups c base delta relocation fuel i relInfo s).2 ↔
      Meets Q s ∧ EachFixup c base delta relocation (StoreMeets c Q base) fuel i relInfo s := by
  induction fuel generalizing i relInfo s with
  | zero => exact (and_iff_left trivial).symm
  | succ fuel ih =>
    rw [applyFixups_succ, EachFixup]
    split
    · rename_i hcount
      rw [forall_prop_of_true hcount, ih, meets_applyFixup hQ, meets_touch hQ, and_assoc]
      rfl
    · rename_i hcount
      rw [meets_touch hQ]
      refine (and_iff_left ?_).symm
      intro hlt
      exact absurd hlt hcount

theorem meets_applyBlocks (hQ : OnTransfers Q) (base newHeader delta fuel relocation : Nat)
    (s : Machine) :
    Meets Q (applyBlocks c base newHeader delta fuel relocation s).2 ↔
      Meets Q s ∧ EachBlock c base newHeader delta (StoreMeets c Q base) fuel relocation s := by
  induction fuel generalizing relocation s with
  | zero => exact (and_iff_left trivial).symm
  | succ fuel ih =>
    rw [applyBlocks_succ, EachBlock]
    dsimp only
    split
    · rename_i hinside
      rw [forall_prop_of_true hinside]
      split
      · rename_i hpage
        rw [forall_prop_of_true hpage, ← and_assoc]
        have hblock := meets_applyFixups (c := c) hQ base delta relocation fuel 0
          (relocation + typeOffset) (((s.touch newHeader (relocVirtualAddress c.host)).touch
            newHeader (relocSize c.host)).touch relocation blockVirtualAddress)
        simp only [meets_touch hQ] at hblock
        cases hfixups : applyFixups c base delta relocation fuel 0 (relocation + typeOffset)
            (((s.touch newHeader (relocVirtualAddress c.host)).touch newHeader
              (relocSize c.host)).touch relocation blockVirtualAddress) with
        | mk result s' =>
          rw [hfixups] at hblock
          cases result with
          | none => exact hblock.trans (and_iff_left trivial).symm
          | some _ =>
            refine (ih _ _).trans (and_congr_left fun _ => ?_)
            rw [meets_touch hQ]
            exact hblock
      · rename_i hpage
        simp only [meets_touch hQ]
        refine (and_iff_left ?_).symm
        intro hpos
        exact absurd hpos hpage
    · rename_i hinside
      simp only [meets_touch hQ]
      refine (and_iff_left ?_).symm
      intro hlt
      exact absurd hlt hinside

theorem meets_rebaseImage (hQ : OnTransfers Q) (base newHeader fuel : Nat) (s : Machine) :
    Meets Q (rebaseImage c base newHeader fuel s).2 ↔
      (Meets Q s ∧ Q (.readBuffer (c.oldHeader + (imageBase c.host).offset) (imageBase c.host).size))
        ∧ EachRebased c base newHeader (StoreMeets c Q base) fuel s := by
  rw [rebaseImage_eq, EachRebased]
  dsimp only
  split
  · rename_i hdelta
    rw [forall_prop_of_true hdelta]
    split
    · rename_i hdirectory
      rw [forall_prop_of_true hdirectory.1, forall_prop_of_true hdirectory.2,
        meets_applyBlocks hQ]
      simp only [meets_touch hQ, meets_consult]
    · rename_i hdirectory
      simp only [meets_touch hQ, meets_consult]
      refine (and_iff_left ?_).symm
      intro hsize haddress
      exact absurd ⟨hsize, haddress⟩ hdirectory
  · rename_i hdelta
    simp only [meets_touch hQ, meets_consult]
    refine (and_iff_left ?_).symm
    intro hmoved
    exact absurd hmoved hdelta

section Conditions

variable {P P' : Nat → Section → Prop} {F F' : Fixup → Prop}

theorem eachCopied_congr
    (h : ∀ imageBase (s : Machine) sectionHeader, (s.sectionAt sectionHeader).sizeOfRawData ≠ 0 →
      (P imageBase (s.sectionAt sectionHeader) ↔ P' imageBase (s.sectionAt sectionHeader)))
    (newHeader fuel i sectionHeader : Nat) (s : Machine) :
    EachCopied c newHeader P fuel i sectionHeader s ↔
      EachCopied c newHeader P' fuel i sectionHeader s := by
  induction fuel generalizing i sectionHeader s with
  | zero => exact Iff.rfl
  | succ fuel ih =>
    refine imp_congr_right fun _ => and_congr (imp_congr_right fun hcopied => ?_) ?_
    · exact h _ s sectionHeader hcopied.2.2.2
    · cases copySection c newHeader sectionHeader (s.touch newHeader numberOfSections) with
      | mk result s' =>
        cases result with
        | error _ => exact Iff.rfl
        | ok _ => exact ih _ _ s'

theorem entryFixup_width {host : Host} {page entry : Nat} {f : Fixup}
    (h : entryFixup host page entry = some f) : f.width ≠ 0 := by
  unfold entryFixup fixupWidth at h
  obtain ⟨width, hwidth, rfl⟩ := Option.map_eq_some_iff.mp h
  split_ifs at hwidth
  · cases hwidth
    exact Nat.succ_ne_zero 3
  · cases hwidth
    exact Nat.succ_ne_zero 7

theorem eachFixup_congr (h : ∀ f, f.width ≠ 0 → (F f ↔ F' f))
    (base delta relocation fuel i relInfo : Nat) (s : Machine) :
    EachFixup c base delta relocation F fuel i relInfo s ↔
      EachFixup c base delta relocation F' fuel i relInfo s := by
  induction fuel generalizing i relInfo s with
  | zero => exact Iff.rfl
  | succ fuel ih =>
    refine imp_congr_right fun _ => and_congr ?_ (ih _ _ _)
    exact forall_congr' fun f => imp_congr_right fun hf => h f (entryFixup_width hf)

theorem eachBlock_congr (h : ∀ f, f.width ≠ 0 → (F f ↔ F' f))
    (base newHeader delta fuel relocation : Nat) (s : Machine) :
    EachBlock c base newHeader delta F fuel relocation s ↔
      EachBlock c base newHeader delta F' fuel relocation s := by
  induction fuel generalizing relocation s with
  | zero => exact Iff.rfl
  | succ fuel ih =>
    refine imp_congr_right fun _ => imp_congr_right fun _ =>
      and_congr (eachFixup_congr h _ _ _ _ _ _ _) ?_
    cases applyFixups c base delta relocation fuel 0 (relocation + typeOffset)
        (((s.touch newHeader (relocVirtualAddress c.host)).touch newHeader
          (relocSize c.host)).touch relocation blockVirtualAddress) with
    | mk result s' =>
      cases result with
      | none => exact Iff.rfl
      | some _ => exact ih _ _

theorem eachRebased_congr (h : ∀ f, f.width ≠ 0 → (F f ↔ F' f)) (base newHeader fuel : Nat)
    (s : Machine) :
    EachRebased c base newHeader F fuel s ↔ EachRebased c base newHeader F' fuel s :=
  imp_congr_right fun _ => imp_congr_right fun _ => imp_congr_right fun _ =>
    eachBlock_congr h _ _ _ _ _ _

theorem eachFixup_of_forall (h : ∀ f, F f) (base delta relocation fuel i relInfo : Nat)
    (s : Machine) : EachFixup c base delta relocation F fuel i relInfo s := by
  induction fuel generalizing i relInfo s with
  | zero => trivial
  | succ fuel ih => exact fun _ => ⟨fun f _ => h f, ih _ _ _⟩

theorem eachBlock_of_forall (h : ∀ f, F f) (base newHeader delta fuel relocation : Nat)
    (s : Machine) : EachBlock c base newHeader delta F fuel relocation s := by
  induction fuel generalizing relocation s with
  | zero => trivial
  | succ fuel ih =>
    intro _ _
    refine ⟨eachFixup_of_forall h _ _ _ _ _ _ _, ?_⟩
    cases applyFixups c base delta relocation fuel 0 (relocation + typeOffset)
        (((s.touch newHeader (relocVirtualAddress c.host)).touch newHeader
          (relocSize c.host)).touch relocation blockVirtualAddress) with
    | mk result s' =>
      cases result with
      | none => trivial
      | some _ => exact ih _ _

theorem eachRebased_of_forall (h : ∀ f, F f) (base newHeader fuel : Nat) (s : Machine) :
    EachRebased c base newHeader F fuel s :=
  fun _ _ _ => eachBlock_of_forall h _ _ _ _ _ _

end Conditions

/-- The transfers of a run that passes the checks and gets a base. -/
structure Transfers (c : Caller) (Q : Access → Prop) (fuel : Nat) (s : Machine) : Prop where
  consulted : Q (.readBuffer (c.oldHeader + sizeOfHeaders.offset) sizeOfHeaders.size)
  headers : Q (.readBuffer c.data (c.member sizeOfHeaders)) ∧
    Q (.write c.reservedBase (c.member sizeOfHeaders))
  base : Q (.write (c.newHeader c.reservedBase + (imageBase c.host).offset) (imageBase c.host).size)
  sections : EachCopied c (c.newHeader c.reservedBase) (TransfersMeet c Q) fuel 0 (sectionTable c s)
    (headersCopied c s)
  rebase : ∀ s', copySections c (c.newHeader c.reservedBase) fuel 0 (sectionTable c s)
      (headersCopied c s) = (some statusSuccess, s') →
    Q (.readBuffer (c.oldHeader + (imageBase c.host).offset) (imageBase c.host).size) ∧
      EachRebased c c.reservedBase (c.newHeader c.reservedBase) (StoreMeets c Q c.reservedBase) fuel
        s'

theorem meets_copyHeaders (base : Nat) (s : Machine) :
    Meets Q (copyHeaders c base s) ↔
      Meets Q s ∧ Q (.readBuffer (c.oldHeader + sizeOfHeaders.offset) sizeOfHeaders.size) ∧
        (Q (.readBuffer c.data (c.member sizeOfHeaders)) ∧
          Q (.write base (c.member sizeOfHeaders))) ∧
        Q (.write (c.newHeader base + (imageBase c.host).offset) (imageBase c.host).size) := by
  simp only [copyHeaders, meets_write, meets_copy, meets_consult, and_assoc]

/-- The members that the reservation reads stand between two others. -/
theorem meets_reserveImage (hQ : OnTransfers Q)
    (hbase : Q (.readBuffer (c.oldHeader + (imageBase c.host).offset) (imageBase c.host).size))
    (hsize : Q (.readBuffer (c.oldHeader + sizeOfImage.offset) sizeOfImage.size)) (s : Machine) :
    Meets Q (reserveImage c s).2 ↔
      Meets Q s ∧ Q (.readBuffer (c.oldHeader + dllCharacteristics.offset) dllCharacteristics.size) := by
  have hpreferred : Meets Q (reservePreferred c s).2 ↔ Meets Q s ∧
      Q (.readBuffer (c.oldHeader + dllCharacteristics.offset) dllCharacteristics.size) := by
    unfold reservePreferred
    dsimp only
    split
    · simp only [meets_reserve hQ, meets_consult, hbase, hsize, and_true]
    · exact meets_consult dllCharacteristics
  unfold reserveImage
  dsimp only
  split
  · simp only [meets_reserve hQ, meets_consult, hsize, and_true, hpreferred]
  · exact hpreferred

theorem prefix_reserveImage (s : Machine) :
    (s.consult c dllCharacteristics).trace <+: (reserveImage c s).2.trace := by
  have hreserve : ∀ (s : Machine) attempt address size,
      s.trace <+: (s.reserve c attempt address size).2.trace := by
    intro s attempt address size
    unfold Machine.reserve
    split
    · exact List.prefix_refl _
    · exact List.prefix_append _ _
  have hpreferred : (s.consult c dllCharacteristics).trace <+: (reservePreferred c s).2.trace := by
    unfold reservePreferred
    dsimp only
    split
    · exact List.IsPrefix.trans (by simp) (hreserve _ _ _ _)
    · exact List.prefix_refl _
  unfold reserveImage
  dsimp only
  split
  · exact hpreferred.trans (List.IsPrefix.trans (by simp) (hreserve _ _ _ _))
  · exact hpreferred

/-- What follows a section loop that ended with this status. -/
def afterSections (c : Caller) (fuel : Nat) (status : NtStatus) (s : Machine) :
    Option (NtStatus × Nat) × Machine :=
  match rebaseImage c c.reservedBase (c.newHeader c.reservedBase) fuel s with
  | (none, s) => (none, s)
  | (some _, s) => (some (status, c.reservedBase), s)

def afterHeaders (c : Caller) (fuel : Nat) (s : Machine) : Option (NtStatus × Nat) × Machine :=
  match copySections c (c.newHeader c.reservedBase) fuel 0 (sectionTable c s)
    (headersCopied c s) with
  | (none, s) => (none, s)
  | (some status, s) =>
    if !ntSuccess status then (some (status, 0), s) else afterSections c fuel status s

theorem mapImage_reserved (fuel : Nat) (s : Machine) :
    mapImage c fuel c.reservedBase (reserveImage c s).2 = afterHeaders c fuel s := rfl

theorem afterSections_snd (fuel : Nat) (status : NtStatus) (s : Machine) :
    (afterSections c fuel status s).2 =
      (rebaseImage c c.reservedBase (c.newHeader c.reservedBase) fuel s).2 := by
  unfold afterSections
  cases rebaseImage c c.reservedBase (c.newHeader c.reservedBase) fuel s with
  | mk result s' =>
    cases result with
    | none => rfl
    | some _ => rfl

theorem meets_mapImage (hQ : OnTransfers Q) (fuel : Nat) (s : Machine) :
    Meets Q (mapImage c fuel c.reservedBase (reserveImage c s).2).2 ↔
      Meets Q (reserveImage c s).2 ∧ Transfers c Q fuel s := by
  have hsections := meets_copySections (c := c) hQ (c.newHeader c.reservedBase) fuel 0
    (sectionTable c s) (headersCopied c s)
  have hheaders := meets_copyHeaders (c := c) (Q := Q) c.reservedBase (reserveImage c s).2
  rw [← meets_touch hQ (c.newHeader c.reservedBase) sizeOfOptionalHeader] at hheaders
  change Meets Q (headersCopied c s) ↔ _ at hheaders
  rw [hheaders] at hsections
  rw [mapImage_reserved, afterHeaders]
  cases hrun : copySections c (c.newHeader c.reservedBase) fuel 0 (sectionTable c s)
      (headersCopied c s) with
  | mk result s' =>
    rw [hrun] at hsections
    -- without a rebase the transfers are those up to the end of the section loop
    have hunrebased (hno : ∀ s'', (result, s') ≠ (some statusSuccess, s'')) :
        Meets Q s' ↔ Meets Q (reserveImage c s).2 ∧ Transfers c Q fuel s := by
      refine hsections.trans ⟨?_, ?_⟩
      · rintro ⟨⟨hstart, hconsulted, hheaders, hbase⟩, hcopied⟩
        exact ⟨hstart, hconsulted, hheaders, hbase, hcopied,
          fun s'' hend => absurd (hrun.symm.trans hend) (hno s'')⟩
      · rintro ⟨hstart, h⟩
        exact ⟨⟨hstart, h.consulted, h.headers, h.base⟩, h.sections⟩
    cases result with
    | none =>
      refine hunrebased fun s'' hend => ?_
      cases hend
    | some status =>
      cases hsuccess : ntSuccess status with
      | false =>
        simp only [hsuccess, Bool.not_false, if_true]
        refine hunrebased fun s'' hend => ?_
        cases hend
        cases hsuccess
      | true =>
        obtain rfl := copySections_status hrun hsuccess
        have hrebase := meets_rebaseImage (c := c) hQ c.reservedBase (c.newHeader c.reservedBase)
          fuel s'
        simp only [hsuccess, Bool.not_true, Bool.false_eq_true, if_false, afterSections_snd]
        refine hrebase.trans ⟨?_, ?_⟩
        · rintro ⟨⟨hloop, hmember⟩, hrebased⟩
          obtain ⟨⟨hstart, hconsulted, hheaders, hbase⟩, hcopied⟩ := hsections.mp hloop
          refine ⟨hstart, hconsulted, hheaders, hbase, hcopied, fun s'' hend => ?_⟩
          cases hrun.symm.trans hend
          exact ⟨hmember, hrebased⟩
        · rintro ⟨hstart, h⟩
          obtain ⟨hmember, hrebased⟩ := h.rebase s' hrun
          exact ⟨⟨hsections.mpr ⟨⟨hstart, h.consulted, h.headers, h.base⟩, h.sections⟩, hmember⟩,
            hrebased⟩

end WinPolyfillLoader.MemoryModule
