import WinPolyfillLoader.InvertedFunctionTable.Layout32
import WinPolyfillLoader.InvertedFunctionTable.Layout64
import WinPolyfillLoader.Status

/-!
`RtlInsertInvertedFunctionTable` around the insertion: the two changes of the
protection, which may each fail, and the overflow flag, which may have been set
before. The status is compared with what happened to the table.
-/

namespace WinPolyfillLoader.InvertedFunctionTable

open CountedArray

/-- One insertion as the function sees it: the table, the flag that it tests at
the end and the entry of the image. `none` is an access violation. -/
structure Insertion (τ ε : Type) where
  count : τ → Nat
  maxCount : τ → Nat
  entry : τ → Nat → ε
  overflow : τ → Nat
  rtlpInsertInvertedFunctionTable : τ → Option τ
  newEntry : ε

variable {τ ε : Type}

def needVirtualProtect (nt : NtVersions) : Bool := rtlIsWindowsVersionOrGreater nt 6 3 0

/-- `RtlInsertInvertedFunctionTable`. `protect` are the statuses of the two
calls of `RtlProtectMrdata`. -/
def rtlInsertInvertedFunctionTable (nt : NtVersions) (insertion : Insertion τ ε)
    (protect : NtStatus × NtStatus) : Option τ → Option (NtStatus × Option τ)
  | none => some (statusNotSupported, none)
  | some table =>
    if needVirtualProtect nt && !ntSuccess protect.1 then some (protect.1, some table)
    else
      match insertion.rtlpInsertInvertedFunctionTable table with
      | none => none
      | some table =>
        if needVirtualProtect nt && !ntSuccess protect.2 then some (protect.2, some table)
        else if insertion.overflow table ≠ 0 then some (statusNoMemory, some table)
        else some (statusSuccess, some table)

namespace Insertion

def InTable (insertion : Insertion τ ε) (table : τ) : Prop :=
  ∃ k, k < insertion.count table ∧ insertion.entry table k = insertion.newEntry

def Unchanged (insertion : Insertion τ ε) (before after : τ) : Prop :=
  insertion.count after = insertion.count before ∧
    ∀ k, insertion.entry after k = insertion.entry before k

/-- A success says that the entry is in the table, a failure that it is not and
that nothing was changed. -/
def Truthful (insertion : Insertion τ ε) (before : τ) : Option (NtStatus × Option τ) → Prop
  | some (status, some after) =>
      (ntSuccess status = true ↔ insertion.InTable after) ∧
        (ntSuccess status = false → insertion.Unchanged before after)
  | _ => False

/-- The table is written with room for the entry. -/
def Reached (insertion : Insertion τ ε) (nt : NtVersions) (protect : NtStatus × NtStatus)
    (table : τ) : Prop :=
  (needVirtualProtect nt = true → ntSuccess protect.1 = true) ∧
    insertion.count table ≠ insertion.maxCount table

/-- When the status is the truth. Either the entry is inserted, at a place in
use, with the flag clear and the protection restored; or it is not, and it was
not there before. -/
def TruthfulWhen (insertion : Insertion τ ε) (nt : NtVersions) (protect : NtStatus × NtStatus)
    (placed : Prop) (table : τ) : Prop :=
  (insertion.Reached nt protect table → insertion.overflow table = 0 ∧
    (needVirtualProtect nt = true → ntSuccess protect.2 = true) ∧ placed) ∧
  (¬ insertion.Reached nt protect table → ¬ insertion.InTable table)

/-- What the insertion does to a full table and to one with room. -/
structure Lawful (insertion : Insertion τ ε) (placed : τ → Prop) : Prop where
  full : ∀ table, insertion.count table = insertion.maxCount table →
    ∃ after, insertion.rtlpInsertInvertedFunctionTable table = some after ∧
      insertion.count after = insertion.count table ∧
      (∀ k, insertion.entry after k = insertion.entry table k) ∧ insertion.overflow after ≠ 0
  room : ∀ table after, insertion.count table ≠ insertion.maxCount table →
    insertion.rtlpInsertInvertedFunctionTable table = some after →
      insertion.count after = insertion.count table + 1 ∧
      insertion.overflow after = insertion.overflow table ∧
      (insertion.InTable after ↔ placed table)
  faults : ∀ table, insertion.count table ≠ insertion.maxCount table → placed table →
    (insertion.rtlpInsertInvertedFunctionTable table).isSome = true

theorem truthfulWhen_reached {insertion : Insertion τ ε} {nt : NtVersions}
    {protect : NtStatus × NtStatus} {placed : Prop} {table : τ}
    (h : insertion.Reached nt protect table) :
    insertion.TruthfulWhen nt protect placed table ↔ insertion.overflow table = 0 ∧
      (needVirtualProtect nt = true → ntSuccess protect.2 = true) ∧ placed :=
  ⟨fun hwhen => hwhen.1 h, fun hall => ⟨fun _ => hall, fun hnot => absurd h hnot⟩⟩

theorem truthfulWhen_unreached {insertion : Insertion τ ε} {nt : NtVersions}
    {protect : NtStatus × NtStatus} {placed : Prop} {table : τ}
    (h : ¬ insertion.Reached nt protect table) :
    insertion.TruthfulWhen nt protect placed table ↔ ¬ insertion.InTable table :=
  ⟨fun hwhen => hwhen.2 h, fun habsent => ⟨fun hreached => absurd hreached h, fun _ => habsent⟩⟩

/-- A change of the protection that does not end the insertion was not needed or
has succeeded. -/
theorem protected_of_not {nt : NtVersions} {status : NtStatus}
    (h : ¬ (needVirtualProtect nt && !ntSuccess status) = true) :
    needVirtualProtect nt = true → ntSuccess status = true := by
  intro hneed
  simpa [hneed] using h

theorem unchanged_refl (insertion : Insertion τ ε) (table : τ) :
    insertion.Unchanged table table := ⟨rfl, fun _ => rfl⟩

/-- A failure without a change is the truth unless the entry was there. -/
theorem truthful_unchanged {insertion : Insertion τ ε} {before after : τ} {status : NtStatus}
    (hfailed : ntSuccess status = false) (hunchanged : insertion.Unchanged before after) :
    insertion.Truthful before (some (status, some after)) ↔ ¬ insertion.InTable before := by
  have hsame : insertion.InTable after ↔ insertion.InTable before := by
    obtain ⟨hcount, hentries⟩ := hunchanged
    unfold InTable
    simp only [hcount, hentries]
  constructor
  · rintro ⟨hiff, -⟩ hmem
    rw [hiff.mpr (hsame.mpr hmem)] at hfailed
    cases hfailed
  · intro habsent
    refine ⟨iff_of_false ?_ ?_, fun _ => hunchanged⟩
    · rw [hfailed]
      exact Bool.false_ne_true
    · exact fun hmem => habsent (hsame.mp hmem)

theorem not_truthful_of_changed {insertion : Insertion τ ε} {before after : τ} {status : NtStatus}
    (hfailed : ntSuccess status = false)
    (hcount : insertion.count after = insertion.count before + 1) :
    ¬ insertion.Truthful before (some (status, some after)) := by
  rintro ⟨-, hunchanged⟩
  have hsame := (hunchanged hfailed).1
  omega

theorem truthful_iff {insertion : Insertion τ ε} {placed : τ → Prop}
    (hlaws : insertion.Lawful placed) (nt : NtVersions) (protect : NtStatus × NtStatus) (table : τ) :
    insertion.Truthful table (rtlInsertInvertedFunctionTable nt insertion protect (some table)) ↔
      insertion.TruthfulWhen nt protect (placed table) table := by
  have hnoMemory : ntSuccess statusNoMemory = false := by decide
  have hsuccess : ntSuccess statusSuccess = true := by decide
  unfold rtlInsertInvertedFunctionTable
  dsimp only
  by_cases hfirst : (needVirtualProtect nt && !ntSuccess protect.1) = true
  · -- the first change of the protection fails
    rw [if_pos hfirst]
    obtain ⟨hneed, hfailed⟩ := Bool.and_eq_true_iff.mp hfirst
    have hfailed : ntSuccess protect.1 = false := by simpa using hfailed
    have hnot : ¬ insertion.Reached nt protect table := fun h => by
      rw [h.1 hneed] at hfailed
      cases hfailed
    rw [truthful_unchanged hfailed (insertion.unchanged_refl table), truthfulWhen_unreached hnot]
  · rw [if_neg hfirst]
    have hprotected := protected_of_not hfirst
    by_cases hroom : insertion.count table = insertion.maxCount table
    · -- a full table: the insertion only sets the flag
      obtain ⟨after, hrun, hcount, hentries, hflag⟩ := hlaws.full table hroom
      have hunchanged : insertion.Unchanged table after := ⟨hcount, hentries⟩
      have hnot : ¬ insertion.Reached nt protect table := fun h => h.2 hroom
      rw [hrun, truthfulWhen_unreached hnot]
      dsimp only
      by_cases hsecond : (needVirtualProtect nt && !ntSuccess protect.2) = true
      · rw [if_pos hsecond]
        have hfailed : ntSuccess protect.2 = false := by
          simpa using (Bool.and_eq_true_iff.mp hsecond).2
        exact truthful_unchanged hfailed hunchanged
      · rw [if_neg hsecond, if_pos hflag]
        exact truthful_unchanged hnoMemory hunchanged
    · have hreached : insertion.Reached nt protect table := ⟨hprotected, hroom⟩
      rw [truthfulWhen_reached hreached]
      cases hrun : insertion.rtlpInsertInvertedFunctionTable table with
      | none =>
        apply iff_of_false (fun h => h)
        rintro ⟨-, -, hplaced⟩
        have hreturns := hlaws.faults table hroom hplaced
        rw [hrun] at hreturns
        cases hreturns
      | some after =>
        obtain ⟨hcount, hflag, hplaced⟩ := hlaws.room table after hroom hrun
        dsimp only
        by_cases hsecond : (needVirtualProtect nt && !ntSuccess protect.2) = true
        · -- inserted, but the second change of the protection fails
          rw [if_pos hsecond]
          obtain ⟨hneed, hfailed⟩ := Bool.and_eq_true_iff.mp hsecond
          have hfailed : ntSuccess protect.2 = false := by simpa using hfailed
          apply iff_of_false (not_truthful_of_changed hfailed hcount)
          rintro ⟨-, hrestored, -⟩
          rw [hrestored hneed] at hfailed
          cases hfailed
        · rw [if_neg hsecond, hflag]
          have hrestored := protected_of_not hsecond
          by_cases hclear : insertion.overflow table = 0
          · rw [if_neg (fun h => h hclear)]
            constructor
            · rintro ⟨hiff, -⟩
              exact ⟨hclear, hrestored, hplaced.mp (hiff.mp hsuccess)⟩
            · rintro ⟨-, -, hp⟩
              refine ⟨iff_of_true hsuccess (hplaced.mpr hp), fun hfailed => ?_⟩
              rw [hsuccess] at hfailed
              cases hfailed
          · -- inserted under a flag that was set before
            rw [if_pos hclear]
            exact iff_of_false (not_truthful_of_changed hnoMemory hcount) (fun h => hclear h.1)

end Insertion

/-- The 64-bit build. Before Windows 8 the flag is tested where this structure
has `Epoch`. -/
def insertion64 (nt : NtVersions) (exceptionDirectory : Nat → Nat × Nat)
    (imageBase sizeOfImage : Nat) : Insertion Table64 Entry64 where
  count := Table64.count
  maxCount := Table64.maxCount
  entry := Table64.entries
  overflow := fun table => if isWin8OrGreater nt then table.overflow else table.epoch
  rtlpInsertInvertedFunctionTable := fun table =>
    some (rtlpInsertInvertedFunctionTable64 nt exceptionDirectory table imageBase sizeOfImage)
  newEntry := newEntry64 exceptionDirectory imageBase sizeOfImage

/-- The new entry is among those in use. The search starts behind ntdll's entry,
so in an empty table it goes to a slot that the count does not reach. -/
def Placed64 (nt : NtVersions) (exceptionDirectory : Nat → Nat × Nat)
    (imageBase sizeOfImage : Nat) (table : Table64) : Prop :=
  firstSorted nt ≤ table.count ∨
    table.entries 0 = newEntry64 exceptionDirectory imageBase sizeOfImage

/-- An entry of the 32-bit table: the 64-bit layout from Windows 8 on, the
shifted one before. -/
def entry32 (nt : NtVersions) (table : Table32) (k : Nat) : Entry32 :=
  if isWin8OrGreater nt then
    ⟨table (entryAt k), table (entryAt k + 1), table (entryAt k + 2), table (entryAt k + 3)⟩
  else logicalEntry table k

/-- The 32-bit build. In an empty table `Count - Index` wraps from Windows 8 on,
and the move runs over all addresses. -/
def insertion32 (nt : NtVersions) (image : Nat → ImageExceptionView)
    (rtlEncodeSystemPointer : Nat → Nat) (imageBase sizeOfImage : Nat) :
    Insertion Table32 Entry32 where
  count := fun table => table countAt
  maxCount := fun table => table maxCountAt
  entry := entry32 nt
  overflow := fun table => if isWin8OrGreater nt then table nextEntryAt else table overflowAt
  rtlpInsertInvertedFunctionTable := fun table =>
    if table countAt ≠ table maxCountAt ∧ table countAt < firstSorted nt then none
    else some (rtlpInsertInvertedFunctionTable32 nt image rtlEncodeSystemPointer table imageBase
      sizeOfImage)
  newEntry := newEntry32 image rtlEncodeSystemPointer imageBase sizeOfImage

/-- The search starts in front of an entry in use or at the end of them. -/
def Placed32 (nt : NtVersions) (table : Table32) : Prop := firstSorted nt ≤ table countAt

theorem insertion64_lawful (nt : NtVersions) (exceptionDirectory : Nat → Nat × Nat)
    (imageBase sizeOfImage : Nat) :
    (insertion64 nt exceptionDirectory imageBase sizeOfImage).Lawful
      (Placed64 nt exceptionDirectory imageBase sizeOfImage) := by
  refine ⟨?_, ?_, fun _ _ _ => rfl⟩
  · intro table hfull
    refine ⟨_, rfl, ?_⟩
    rw [insert64_full imageBase sizeOfImage hfull]
    cases hnt : isWin8OrGreater nt with
    | true => exact ⟨rfl, fun _ => rfl, by simp [insertion64, hnt]⟩
    | false => exact ⟨rfl, fun _ => rfl, by simp [insertion64, hnt]⟩
  · intro table after hroom hrun
    cases hrun
    by_cases hfirst : firstSorted nt ≤ table.count
    · have hb := insertIndex64_bounds imageBase hfirst
      rw [insert64_eq imageBase sizeOfImage hroom hfirst]
      refine ⟨rfl, rfl, iff_of_true ?_ (Or.inl hfirst)⟩
      exact ⟨insertIndex64 nt table imageBase, Nat.lt_succ_of_le hb.2,
        Function.update_self _ _ _⟩
    · -- an empty table from Windows 8 on: slot 1 is written and slot 0 counted
      have hone : firstSorted nt = 1 ∧ table.count = 0 := by
        unfold firstSorted at hfirst ⊢
        split at hfirst
        · rename_i hnt
          rw [if_pos hnt]
          omega
        · omega
      obtain ⟨hone, hempty⟩ := hone
      have hrun : rtlpInsertInvertedFunctionTable64 nt exceptionDirectory table imageBase
          sizeOfImage = { table with
            entries := Function.update table.entries 1
              (newEntry64 exceptionDirectory imageBase sizeOfImage)
            count := table.count + 1 } := by
        have hroom : table.count ≠ table.maxCount := hroom
        have hcount : ¬ table.count ≠ 0 := fun h => h hempty
        have hmoves : ∀ index, ¬ (table.count ≠ 0 ∧ index ≠ table.count) := fun _ h => hcount h.1
        simp only [rtlpInsertInvertedFunctionTable64, if_pos hroom, if_neg hcount,
          if_neg (hmoves _), hone]
      rw [hrun]
      refine ⟨rfl, rfl, ?_⟩
      have hzero : Function.update table.entries 1
          (newEntry64 exceptionDirectory imageBase sizeOfImage) 0 = table.entries 0 :=
        Function.update_of_ne (by omega) _ _
      constructor
      · rintro ⟨k, hk, hentry⟩
        have hk : k < table.count + 1 := hk
        have hk0 : k = 0 := by omega
        subst hk0
        exact Or.inr (hzero.symm.trans hentry)
      · rintro (habsurd | hentry)
        · exact absurd habsurd hfirst
        · exact ⟨0, Nat.succ_pos _, hzero.trans hentry⟩

/-- From Windows 8 on the 32-bit insertion writes one entry in use and leaves
the header words but the count. -/
theorem insert32_win8 {nt : NtVersions} (hnt : isWin8OrGreater nt = true)
    (image : Nat → ImageExceptionView) (rtlEncodeSystemPointer : Nat → Nat) {table : Table32}
    (imageBase sizeOfImage : Nat) (hroom : table countAt ≠ table maxCountAt)
    (hfirst : firstSorted nt ≤ table countAt) :
    let after := rtlpInsertInvertedFunctionTable32 nt image rtlEncodeSystemPointer table imageBase
      sizeOfImage
    after countAt = table countAt + 1 ∧ after nextEntryAt = table nextEntryAt ∧
      insertIndex32 nt table imageBase ≤ table countAt ∧
      entry32 nt after (insertIndex32 nt table imageBase) =
        newEntry32 image rtlEncodeSystemPointer imageBase sizeOfImage := by
  intro after
  have hone : firstSorted nt = 1 := by rw [firstSorted, if_pos hnt]
  have hb := scan_bounds (fun k => decide (imageBase < table (imageBaseAt nt k)))
    (table countAt - 1) 1
  have hindex : insertIndex32 nt table imageBase =
      scan (fun k => decide (imageBase < table (imageBaseAt nt k))) (table countAt - 1) 1 := by
    simp only [insertIndex32, hnt, if_true]
  rw [← hindex] at hb
  generalize hi : insertIndex32 nt table imageBase = i at hb ⊢
  -- the move changes nothing in front of the entry behind the new one
  have hmoved : ∀ word, word < entryAt (i + 1) →
      (if i ≠ table countAt then
        moveRange table (entryAt (i + 1)) (entryAt i) ((table countAt - i) * entrySize)
      else table) word = table word := by
    intro word hword
    split
    · exact moveRange_below _ hword
    · rfl
  have hafter : after = rtlpInsertInvertedFunctionTable32 nt image rtlEncodeSystemPointer table
      imageBase sizeOfImage := rfl
  simp only [rtlpInsertInvertedFunctionTable32, if_neg hroom, hnt, if_true, hi] at hafter
  have hcount := hmoved countAt (by unfold entryAt countAt; omega)
  have hnext := hmoved nextEntryAt (by unfold entryAt nextEntryAt; omega)
  have hcountAt : ∀ d, entryAt i + d ≠ countAt := fun d => by
    unfold entryAt countAt
    omega
  have hnextAt : ∀ d, nextEntryAt ≠ entryAt i + d := fun d => by
    unfold entryAt nextEntryAt
    omega
  have hcountEntry : countAt ≠ entryAt i := fun h => hcountAt 0 h.symm
  have hnextEntry : nextEntryAt ≠ entryAt i := hnextAt 0
  have hnextCount : nextEntryAt ≠ countAt := by decide
  refine ⟨?_, ?_, by omega, ?_⟩
  · rw [hafter, Function.update_self, Function.update_of_ne (hcountAt 2).symm,
      Function.update_of_ne (hcountAt 1).symm, Function.update_of_ne (hcountAt 3).symm,
      Function.update_of_ne hcountEntry, hcount]
  · rw [hafter, Function.update_of_ne hnextCount, Function.update_of_ne (hnextAt 2),
      Function.update_of_ne (hnextAt 1), Function.update_of_ne (hnextAt 3),
      Function.update_of_ne hnextEntry, hnext]
  · rw [entry32, if_pos hnt, hafter]
    simp [newEntry32, hcountAt, hcountEntry.symm]

section Insertion32

variable (nt : NtVersions) (image : Nat → ImageExceptionView) (rtlEncodeSystemPointer : Nat → Nat)
  (imageBase sizeOfImage : Nat)

theorem insertion32_full (table : Table32)
    (hfull : (insertion32 nt image rtlEncodeSystemPointer imageBase sizeOfImage).count table =
      (insertion32 nt image rtlEncodeSystemPointer imageBase sizeOfImage).maxCount table) :
    let insertion := insertion32 nt image rtlEncodeSystemPointer imageBase sizeOfImage
    ∃ after, insertion.rtlpInsertInvertedFunctionTable table = some after ∧
      insertion.count after = insertion.count table ∧
      (∀ k, insertion.entry after k = insertion.entry table k) ∧ insertion.overflow after ≠ 0 := by
  have hfull : table countAt = table maxCountAt := hfull
  have hreturns : ¬ (table countAt ≠ table maxCountAt ∧ table countAt < firstSorted nt) :=
    fun h => h.1 hfull
  refine ⟨_, if_neg hreturns, ?_⟩
  simp only [rtlpInsertInvertedFunctionTable32, if_pos hfull]
  cases hnt : isWin8OrGreater nt with
  | true =>
    have hcount : Function.update table nextEntryAt 1 countAt = table countAt :=
      Function.update_of_ne (by decide) _ _
    refine ⟨hcount, ?_, by simp [insertion32, hnt]⟩
    intro k
    have hword : ∀ d, entryAt k + d ≠ nextEntryAt := fun d => by
      unfold entryAt nextEntryAt
      omega
    have hfirst : entryAt k ≠ nextEntryAt := hword 0
    simp [insertion32, entry32, hnt, hword, hfirst]
  | false =>
    have hcount : Function.update table overflowAt 1 countAt = table countAt :=
      Function.update_of_ne (by decide) _ _
    refine ⟨hcount, ?_, by simp [insertion32, hnt]⟩
    intro k
    have hsame := congrFun (logicalEntry_update_header table (by decide : overflowAt < 3) 1) k
    simpa [insertion32, entry32, hnt] using hsame

theorem insertion32_room (table after : Table32)
    (hroom : (insertion32 nt image rtlEncodeSystemPointer imageBase sizeOfImage).count table ≠
      (insertion32 nt image rtlEncodeSystemPointer imageBase sizeOfImage).maxCount table)
    (hrun : (insertion32 nt image rtlEncodeSystemPointer imageBase
      sizeOfImage).rtlpInsertInvertedFunctionTable table = some after) :
    let insertion := insertion32 nt image rtlEncodeSystemPointer imageBase sizeOfImage
    insertion.count after = insertion.count table + 1 ∧
      insertion.overflow after = insertion.overflow table ∧
      (insertion.InTable after ↔ Placed32 nt table) := by
  have hroom : table countAt ≠ table maxCountAt := hroom
  have hfirst : firstSorted nt ≤ table countAt := by
    by_contra hempty
    have hrun : (if table countAt ≠ table maxCountAt ∧ table countAt < firstSorted nt then none
      else some (rtlpInsertInvertedFunctionTable32 nt image rtlEncodeSystemPointer table imageBase
        sizeOfImage)) = some after := hrun
    rw [if_pos ⟨hroom, by omega⟩] at hrun
    cases hrun
  have hreturns : ¬ (table countAt ≠ table maxCountAt ∧ table countAt < firstSorted nt) :=
    fun h => by omega
  have hafter : rtlpInsertInvertedFunctionTable32 nt image rtlEncodeSystemPointer table imageBase
      sizeOfImage = after := Option.some.inj ((if_neg hreturns).symm.trans hrun)
  subst hafter
  cases hnt : isWin8OrGreater nt with
  | true =>
    obtain ⟨hcount, hflag, hindex, hentry⟩ := insert32_win8 hnt image rtlEncodeSystemPointer
      imageBase sizeOfImage hroom hfirst
    refine ⟨hcount, by simpa [insertion32, hnt] using hflag, iff_of_true ?_ hfirst⟩
    exact ⟨_, Nat.lt_of_le_of_lt hindex (Nat.lt_of_lt_of_eq (Nat.lt_succ_self _) hcount.symm),
      hentry⟩
  | false =>
    have hplain : plainTableOf (rtlpInsertInvertedFunctionTable32 nt image rtlEncodeSystemPointer
        table imageBase sizeOfImage) =
        plainInsert image rtlEncodeSystemPointer (plainTableOf table) imageBase sizeOfImage :=
      insert32_plain hnt table imageBase sizeOfImage
    have hplainRoom : ¬ (plainTableOf table).count = (plainTableOf table).maxCount := hroom
    have hb := scan_bounds (fun k => decide (imageBase < (logicalEntry table k).imageBase))
      (table countAt) 0
    generalize hindex : scan (fun k => decide (imageBase < (logicalEntry table k).imageBase))
      (table countAt) 0 = index at hb
    rw [plainInsert, if_neg hplainRoom] at hplain
    have hcount : rtlpInsertInvertedFunctionTable32 nt image rtlEncodeSystemPointer table
        imageBase sizeOfImage countAt = table countAt + 1 := congrArg PlainTable32.count hplain
    have hflag : rtlpInsertInvertedFunctionTable32 nt image rtlEncodeSystemPointer table
        imageBase sizeOfImage overflowAt = table overflowAt :=
      congrArg PlainTable32.overflow hplain
    have hentry : logicalEntry (rtlpInsertInvertedFunctionTable32 nt image
        rtlEncodeSystemPointer table imageBase sizeOfImage) index =
        newEntry32 image rtlEncodeSystemPointer imageBase sizeOfImage := by
      rw [← hindex]
      exact (congrFun (congrArg PlainTable32.entries hplain) _).trans (Function.update_self _ _ _)
    refine ⟨hcount, by simpa [insertion32, hnt] using hflag, iff_of_true ?_ hfirst⟩
    refine ⟨index, ?_, by simpa [insertion32, entry32, hnt] using hentry⟩
    exact Nat.lt_of_lt_of_eq (by omega : index < table countAt + 1) hcount.symm

theorem insertion32_faults (table : Table32) (hfirst : Placed32 nt table) :
    ((insertion32 nt image rtlEncodeSystemPointer imageBase
      sizeOfImage).rtlpInsertInvertedFunctionTable table).isSome = true := by
  have hfirst : firstSorted nt ≤ table countAt := hfirst
  have hreturns : ¬ (table countAt ≠ table maxCountAt ∧ table countAt < firstSorted nt) :=
    fun h => by omega
  have hrun : (insertion32 nt image rtlEncodeSystemPointer imageBase
      sizeOfImage).rtlpInsertInvertedFunctionTable table =
        some (rtlpInsertInvertedFunctionTable32 nt image rtlEncodeSystemPointer table imageBase
          sizeOfImage) := if_neg hreturns
  rw [hrun]
  rfl

theorem insertion32_lawful :
    (insertion32 nt image rtlEncodeSystemPointer imageBase sizeOfImage).Lawful (Placed32 nt) where
  full := insertion32_full nt image rtlEncodeSystemPointer imageBase sizeOfImage
  room := insertion32_room nt image rtlEncodeSystemPointer imageBase sizeOfImage
  faults := fun table _ hfirst =>
    insertion32_faults nt image rtlEncodeSystemPointer imageBase sizeOfImage table hfirst

end Insertion32

/-- The status of `RtlInsertInvertedFunctionTable` is the truth exactly when
the entry is inserted at a place in use, with the overflow flag clear before and
the protection restored after, or is not inserted and was not there. -/
theorem rtlInsertInvertedFunctionTable_truthful_iff (nt : NtVersions)
    (protect : NtStatus × NtStatus) (imageBase sizeOfImage : Nat) :
    (∀ exceptionDirectory (table : Table64),
      let insertion := insertion64 nt exceptionDirectory imageBase sizeOfImage
      insertion.Truthful table (rtlInsertInvertedFunctionTable nt insertion protect (some table)) ↔
        insertion.TruthfulWhen nt protect
          (Placed64 nt exceptionDirectory imageBase sizeOfImage table) table) ∧
    (∀ image rtlEncodeSystemPointer (table : Table32),
      let insertion := insertion32 nt image rtlEncodeSystemPointer imageBase sizeOfImage
      insertion.Truthful table (rtlInsertInvertedFunctionTable nt insertion protect (some table)) ↔
        insertion.TruthfulWhen nt protect (Placed32 nt table) table) := by
  constructor
  · intro exceptionDirectory table insertion
    exact Insertion.truthful_iff
      (insertion64_lawful nt exceptionDirectory imageBase sizeOfImage) nt protect table
  · intro image rtlEncodeSystemPointer table insertion
    exact Insertion.truthful_iff
      (insertion32_lawful nt image rtlEncodeSystemPointer imageBase sizeOfImage) nt protect table

/-- ntdll's own entry and the overflow flag that an earlier insertion left. -/
def overflowed64 : Table64 := ⟨1, 0x200, 0, 1, fun _ => ⟨0, 0x7ff0, 0x100, 0⟩⟩

/-- Windows 10, with both changes of the protection successful: the entry is
inserted and the status says that there is no room. -/
theorem rtlInsertInvertedFunctionTable_stale_overflow :
    let insertion := insertion64 ⟨10, 0, 19041⟩ (fun base => (base, 12)) 0x3000 0x200
    let protect := (statusSuccess, statusSuccess)
    insertion.count overflowed64 ≤ insertion.maxCount overflowed64 ∧
      (∃ after, rtlInsertInvertedFunctionTable ⟨10, 0, 19041⟩ insertion protect
          (some overflowed64) = some (statusNoMemory, some after) ∧ insertion.InTable after) ∧
      ¬ insertion.Truthful overflowed64 (rtlInsertInvertedFunctionTable ⟨10, 0, 19041⟩ insertion
        protect (some overflowed64)) := by
  intro insertion protect
  have hrun : rtlInsertInvertedFunctionTable ⟨10, 0, 19041⟩ insertion protect
      (some overflowed64) = some (statusNoMemory, some (rtlpInsertInvertedFunctionTable64
        ⟨10, 0, 19041⟩ (fun base => (base, 12)) overflowed64 0x3000 0x200)) := rfl
  have hcount : insertion.count (rtlpInsertInvertedFunctionTable64 ⟨10, 0, 19041⟩
      (fun base => (base, 12)) overflowed64 0x3000 0x200) = insertion.count overflowed64 + 1 := rfl
  refine ⟨(by decide : 1 ≤ 0x200), ⟨_, hrun, 1, (by decide : 1 < 2), rfl⟩, ?_⟩
  rw [hrun]
  exact Insertion.not_truthful_of_changed (by decide) hcount

end WinPolyfillLoader.InvertedFunctionTable
