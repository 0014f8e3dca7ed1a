import WinPolyfillLoader.InvertedFunctionTable.InsertStatus

/-!
Runs of `RtlInsertInvertedFunctionTable` and `RtlRemoveInvertedFunctionTable` on the 64-bit
table. A caller knows the table by the statuses alone. They tell the truth over a whole run as
long as a protection that was lifted can be restored: the flag of an overflow is set only while
the table is full, so that no insertion finds the flag of an earlier one.
-/

namespace WinPolyfillLoader.InvertedFunctionTable

open CountedArray

/-- `RtlInsertInvertedFunctionTable` on a table that was found. -/
def insertInverted64 (nt : NtVersions) (exceptionDirectory : Nat → Nat × Nat)
    (protect : NtStatus × NtStatus) (imageBase sizeOfImage : Nat) (table : Table64) :
    NtStatus × Table64 :=
  match rtlInsertInvertedFunctionTable nt (insertion64 nt exceptionDirectory imageBase sizeOfImage)
    protect (some table) with
  | some (status, some after) => (status, after)
  | _ => (statusNotSupported, table)

/-- `RtlRemoveInvertedFunctionTable`, which reads the table without a test that there is one. -/
def rtlRemoveInvertedFunctionTable64 (nt : NtVersions) (protect : NtStatus × NtStatus)
    (imageBase : Nat) (table : Table64) : NtStatus × Table64 :=
  if needVirtualProtect nt && !ntSuccess protect.1 then (protect.1, table)
  else
    let table := rtlpRemoveInvertedFunctionTable64 nt table imageBase
    if needVirtualProtect nt && !ntSuccess protect.2 then (protect.2, table)
    else (statusSuccess, table)

/-- The calls, with the statuses of their two changes of the protection. -/
inductive RegistrationOp where
  | insert (imageBase sizeOfImage : Nat) (protect : NtStatus × NtStatus)
  | remove (imageBase : Nat) (protect : NtStatus × NtStatus)

/-- A protection that was lifted can be restored. -/
def Restored (nt : NtVersions) (protect : NtStatus × NtStatus) : Prop :=
  needVirtualProtect nt = true → ntSuccess protect.1 = true → ntSuccess protect.2 = true

instance (nt : NtVersions) (protect : NtStatus × NtStatus) : Decidable (Restored nt protect) :=
  inferInstanceAs (Decidable (_ → _ → _))

def Accepts (nt : NtVersions) (protect : NtStatus × NtStatus) (table : Table64) : Prop :=
  (needVirtualProtect nt = true → ntSuccess protect.1 = true) ∧ table.count ≠ table.maxCount

/-- The table, and the images that the statuses say are in it. -/
structure Told where
  table : Table64
  images : Finset Entry64

def toldStep (nt : NtVersions) (exceptionDirectory : Nat → Nat × Nat) (s : Told) :
    RegistrationOp → Told
  | .insert imageBase sizeOfImage protect =>
      let (status, table) :=
        insertInverted64 nt exceptionDirectory protect imageBase sizeOfImage s.table
      ⟨table, if ntSuccess status then
        insert (newEntry64 exceptionDirectory imageBase sizeOfImage) s.images else s.images⟩
  | .remove imageBase protect =>
      let (status, table) := rtlRemoveInvertedFunctionTable64 nt protect imageBase s.table
      ⟨table, if ntSuccess status then s.images.filter (·.imageBase ≠ imageBase) else s.images⟩

/-- The flag that the last test of an insertion reads. -/
def overflow64 (nt : NtVersions) (table : Table64) : Nat :=
  if isWin8OrGreater nt then table.overflow else table.epoch

/-- A table in order whose flag says that it is full. -/
structure SoundTable (nt : NtVersions) (table : Table64) : Prop extends
    TableInvariant nt table where
  flag : overflow64 nt table ≠ 0 → table.count = table.maxCount

section Steps

variable {nt : NtVersions} {exceptionDirectory : Nat → Nat × Nat} {table : Table64}
variable {protect : NtStatus × NtStatus} {imageBase sizeOfImage : Nat}

theorem insert64_sound (h : SoundTable nt table)
    (hguard : TableGuard nt table (.insert imageBase sizeOfImage)) :
    SoundTable nt
      (rtlpInsertInvertedFunctionTable64 nt exceptionDirectory table imageBase sizeOfImage) := by
  refine ⟨(insert64_refines h.toTableInvariant hguard).1, ?_⟩
  by_cases hfull : table.count = table.maxCount
  · rw [insert64_full imageBase sizeOfImage hfull]
    split <;> exact fun _ => hfull
  · rw [insert64_eq imageBase sizeOfImage hfull h.first]
    exact fun hflag => absurd (h.flag hflag) hfull

theorem remove64_sound (h : SoundTable nt table)
    (hguard : TableGuard nt table (.remove imageBase)) :
    SoundTable nt (rtlpRemoveInvertedFunctionTable64 nt table imageBase) := by
  have hkept : TableInvariant nt (tableStep nt (fun _ => (0, 0)) table (.remove imageBase)) :=
    (remove64_refines h.toTableInvariant hguard).1
  refine ⟨hkept, ?_⟩
  intro hflag
  by_contra hroom
  rw [rtlpRemoveInvertedFunctionTable64, clearOverflow64_count, clearOverflow64_maxCount] at hroom
  rw [rtlpRemoveInvertedFunctionTable64, clearOverflow64, if_pos hroom, overflow64] at hflag
  split at hflag <;> exact hflag rfl

/-- An insertion into a sound table puts the image in its place, or fails and leaves the
images as they are: no insertion finds a flag that is not its own. -/
theorem insertInverted64_cases (exceptionDirectory : Nat → Nat × Nat) (h : SoundTable nt table)
    (hfresh : TableGuard nt table (.insert imageBase sizeOfImage))
    (hrestored : Restored nt protect) :
    (∃ status after,
      insertInverted64 nt exceptionDirectory protect imageBase sizeOfImage table =
        (status, after) ∧ ntSuccess status = false ∧ ¬Accepts nt protect table ∧
        SoundTable nt after ∧ after.count = table.count ∧ after.entries = table.entries) ∨
    (insertInverted64 nt exceptionDirectory protect imageBase sizeOfImage table =
      (statusSuccess,
        rtlpInsertInvertedFunctionTable64 nt exceptionDirectory table imageBase sizeOfImage) ∧
      Accepts nt protect table) := by
  have hsound : SoundTable nt
      (rtlpInsertInvertedFunctionTable64 nt exceptionDirectory table imageBase sizeOfImage) :=
    insert64_sound h hfresh
  rw [insertInverted64, rtlInsertInvertedFunctionTable]
  by_cases hfirst : (needVirtualProtect nt && !ntSuccess protect.1) = true
  · rw [if_pos hfirst]
    obtain ⟨hneed, hfailed⟩ := Bool.and_eq_true_iff.mp hfirst
    have hfailed : ntSuccess protect.1 = false := by simpa using hfailed
    refine Or.inl ⟨protect.1, table, rfl, hfailed, ?_, h, rfl, rfl⟩
    rintro ⟨hlifted, -⟩
    rw [hlifted hneed] at hfailed
    cases hfailed
  · rw [if_neg hfirst]
    have hlifted := Insertion.protected_of_not hfirst
    have hsecond : ¬(needVirtualProtect nt && !ntSuccess protect.2) = true := by
      intro hboth
      obtain ⟨hneed, hfailed⟩ := Bool.and_eq_true_iff.mp hboth
      rw [hrestored hneed (hlifted hneed)] at hfailed
      cases hfailed
    have hreturns : (insertion64 nt exceptionDirectory imageBase
        sizeOfImage).rtlpInsertInvertedFunctionTable table =
          some (rtlpInsertInvertedFunctionTable64 nt exceptionDirectory table imageBase
            sizeOfImage) := rfl
    simp only [hreturns]
    rw [if_neg hsecond]
    by_cases hfull : table.count = table.maxCount
    · -- the insertion only sets the flag
      left
      rw [insert64_full imageBase sizeOfImage hfull] at hsound ⊢
      refine ⟨statusNoMemory, _, ?_, by decide, fun haccepts => haccepts.2 hfull, hsound, ?_⟩
      · rw [if_pos]
        simp only [insertion64]
        split <;> exact Nat.one_ne_zero
      · split <;> exact ⟨rfl, rfl⟩
    · right
      refine ⟨?_, hlifted, hfull⟩
      have hclear : ¬(insertion64 nt exceptionDirectory imageBase sizeOfImage).overflow
          (rtlpInsertInvertedFunctionTable64 nt exceptionDirectory table imageBase
            sizeOfImage) ≠ 0 := by
        intro hflag
        have hroom := hsound.flag hflag
        rw [insert64_eq imageBase sizeOfImage hfull h.first] at hflag
        exact hfull (h.flag hflag)
      rw [if_neg hclear]

theorem remove64_cases (imageBase : Nat) (table : Table64) (hrestored : Restored nt protect) :
    (∃ status, rtlRemoveInvertedFunctionTable64 nt protect imageBase table = (status, table) ∧
      ntSuccess status = false ∧ needVirtualProtect nt = true ∧ ntSuccess protect.1 = false) ∨
    (rtlRemoveInvertedFunctionTable64 nt protect imageBase table =
      (statusSuccess, rtlpRemoveInvertedFunctionTable64 nt table imageBase) ∧
      (needVirtualProtect nt = true → ntSuccess protect.1 = true)) := by
  rw [rtlRemoveInvertedFunctionTable64]
  by_cases hfirst : (needVirtualProtect nt && !ntSuccess protect.1) = true
  · rw [if_pos hfirst]
    obtain ⟨hneed, hfailed⟩ := Bool.and_eq_true_iff.mp hfirst
    have hfailed : ntSuccess protect.1 = false := by simpa using hfailed
    exact Or.inl ⟨protect.1, rfl, hfailed, hneed, hfailed⟩
  · rw [if_neg hfirst]
    have hlifted := Insertion.protected_of_not hfirst
    have hsecond : ¬(needVirtualProtect nt && !ntSuccess protect.2) = true := by
      intro hboth
      obtain ⟨hneed, hfailed⟩ := Bool.and_eq_true_iff.mp hboth
      rw [hrestored hneed (hlifted hneed)] at hfailed
      cases hfailed
    exact Or.inr ⟨if_neg hsecond, hlifted⟩

/-- What the statuses told is what the table holds. -/
structure TellsTruth (nt : NtVersions) (s : Told) : Prop where
  sound : SoundTable nt s.table
  images : ∀ e, e ∈ s.images ↔ e ∈ sortedEntries nt s.table

def ToldGuard (nt : NtVersions) (s : Told) : RegistrationOp → Prop
  | .insert imageBase sizeOfImage protect =>
      TableGuard nt s.table (.insert imageBase sizeOfImage) ∧ Restored nt protect
  | .remove imageBase protect => TableGuard nt s.table (.remove imageBase) ∧ Restored nt protect

instance (nt : NtVersions) (s : Told) : (op : RegistrationOp) → Decidable (ToldGuard nt s op)
  | .insert imageBase sizeOfImage protect => inferInstanceAs (Decidable
      (TableGuard nt s.table (.insert imageBase sizeOfImage) ∧ Restored nt protect))
  | .remove imageBase protect => inferInstanceAs (Decidable
      (TableGuard nt s.table (.remove imageBase) ∧ Restored nt protect))

def toldStart (nt : NtVersions) (table : Table64) : Told :=
  ⟨table, (sortedEntries nt table).toFinset⟩

theorem toldStep_truth {s : Told} (h : TellsTruth nt s) {op : RegistrationOp}
    (hguard : ToldGuard nt s op) :
    TellsTruth nt (toldStep nt exceptionDirectory s op) := by
  cases op with
  | insert imageBase sizeOfImage protect =>
    rcases insertInverted64_cases exceptionDirectory h.sound hguard.1 hguard.2 with
      ⟨status, after, hcall, hfailed, -, hsound, hcount, hentries⟩ | ⟨hcall, hlifted, hroom⟩
    · rw [toldStep, hcall]
      dsimp only
      refine ⟨hsound, fun e => ?_⟩
      have hsame : sortedEntries nt after = sortedEntries nt s.table := by
        rw [sortedEntries, sortedEntries, hcount, hentries]
      rw [if_neg (by rw [hfailed]; decide), h.images, hsame]
    · rw [toldStep, hcall]
      dsimp only
      refine ⟨insert64_sound h.sound hguard.1, fun e => ?_⟩
      rw [if_pos (by rfl), Finset.mem_insert, h.images,
        insert64_sortedEntries exceptionDirectory imageBase sizeOfImage hroom h.sound.first]
      simp
  | remove imageBase protect =>
    obtain ⟨hforeign, hrestored⟩ := hguard
    rcases remove64_cases imageBase s.table hrestored with
      ⟨status, hcall, hfailed, -⟩ | ⟨hcall, -⟩
    · rw [toldStep, hcall]
      dsimp only
      refine ⟨h.sound, fun e => ?_⟩
      rw [if_neg (by rw [hfailed]; decide)]
      exact h.images e
    · rw [toldStep, hcall]
      dsimp only
      refine ⟨remove64_sound h.sound hforeign, fun e => ?_⟩
      rw [if_pos (by rfl), Finset.mem_filter, h.images,
        remove64_sortedEntries h.sound.first hforeign, mem_removeKey _ h.sound.ascending]

end Steps

/-- Over any run, the images in the table are those that the statuses said were inserted and
not removed, and the flag of an overflow says that the table is full. The next insertion
succeeds unless the protection stays or the table is full, the next removal unless the
protection stays. -/
theorem registration_statuses_truthful (nt : NtVersions) (exceptionDirectory : Nat → Nat × Nat)
    (initial : Table64) (hinitial : SoundTable nt initial) (ops : List RegistrationOp)
    (hops : Runs.Admissible (toldStep nt exceptionDirectory) (ToldGuard nt)
      (toldStart nt initial) ops) :
    let final := ops.foldl (toldStep nt exceptionDirectory) (toldStart nt initial)
    (∀ e, e ∈ final.images ↔ e ∈ sortedEntries nt final.table) ∧
      (overflow64 nt final.table ≠ 0 → final.table.count = final.table.maxCount) ∧
      (∀ imageBase sizeOfImage protect,
        ToldGuard nt final (.insert imageBase sizeOfImage protect) →
        (ntSuccess (insertInverted64 nt exceptionDirectory protect imageBase sizeOfImage
            final.table).1 = true ↔ Accepts nt protect final.table)) ∧
      ∀ imageBase protect, ToldGuard nt final (.remove imageBase protect) →
        (ntSuccess (rtlRemoveInvertedFunctionTable64 nt protect imageBase final.table).1 = true ↔
          (needVirtualProtect nt = true → ntSuccess protect.1 = true)) := by
  intro final
  have hstart : TellsTruth nt (toldStart nt initial) := ⟨hinitial, fun _ => List.mem_toFinset⟩
  have hend : TellsTruth nt final :=
    Runs.invariant (I := TellsTruth nt) (fun _ _ h hguard => toldStep_truth h hguard) hstart hops
  refine ⟨hend.images, hend.sound.flag, ?_, ?_⟩
  · intro imageBase sizeOfImage protect hguard
    rcases insertInverted64_cases exceptionDirectory hend.sound hguard.1 hguard.2 with
      ⟨status, after, hcall, hfailed, hrefuses, -⟩ | ⟨hcall, haccepts⟩
    · rw [hcall]
      refine iff_of_false ?_ hrefuses
      rw [hfailed]
      decide
    · rw [hcall]
      exact iff_of_true rfl haccepts
  · intro imageBase protect hguard
    rcases remove64_cases imageBase final.table hguard.2 with
      ⟨status, hcall, hfailed, hneed, hrefused⟩ | ⟨hcall, hlifted⟩
    · rw [hcall]
      refine iff_of_false ?_ fun hlifted => ?_
      · rw [hfailed]
        decide
      · rw [hlifted hneed] at hrefused
        cases hrefused
    · rw [hcall]
      exact iff_of_true rfl hlifted

/-- Windows 10 with room for one image: the second one is refused, and let in when the first
one is gone. -/
theorem registration_statuses_truthful_full :
    let nt : NtVersions := ⟨10, 0, 19041⟩
    let initial : Table64 := ⟨1, 2, 0, 0, fun _ => ⟨0, 0x7ff0, 0x100, 0⟩⟩
    let granted := (statusSuccess, statusSuccess)
    let final := [RegistrationOp.insert 0x3000 0x200 granted, .insert 0x5000 0x200 granted,
      .remove 0x3000 granted, .insert 0x5000 0x200 granted].foldl
        (toldStep nt (fun b => (b + 0x10, 12))) (toldStart nt initial)
    final.images = {⟨0x5010, 0x5000, 0x200, 12⟩} ∧
      ∀ e, e ∈ final.images ↔ e ∈ sortedEntries nt final.table := by
  have hinitial : SoundTable ⟨10, 0, 19041⟩ ⟨1, 2, 0, 0, fun _ => ⟨0, 0x7ff0, 0x100, 0⟩⟩ :=
    ⟨⟨by decide, by decide, by unfold Ascending; decide⟩, by decide⟩
  exact ⟨by decide, (registration_statuses_truthful ⟨10, 0, 19041⟩ (fun b => (b + 0x10, 12)) _
    hinitial _ (by decide)).1⟩

end WinPolyfillLoader.InvertedFunctionTable
