import WinPolyfillLoader.InvertedFunctionTable.StatusRuns
import WinPolyfillLoader.Loader.ListProcess

/-!
The 64-bit inverted function table as the one that loads and unloads work on. Its two functions
obey the laws of the registries where the protection of the table can be changed.
-/

namespace WinPolyfillLoader.Loader

open LdrEntry InvertedFunctionTable

variable {δ ι τ ρ : Type}

/-- The helpers with the 64-bit table; `protect` are the statuses of `RtlProtectMrdata`. -/
def Helpers.withTable64 (H : Helpers δ ι τ ρ) (nt : NtVersions)
    (exceptionDirectory : Nat → Nat × Nat) (protect : NtStatus × NtStatus) :
    Helpers δ Table64 τ ρ where
  rtlIsValidImageBuffer := H.rtlIsValidImageBuffer
  rtlImageNtHeader := H.rtlImageNtHeader
  towlower := H.towlower
  inLoadOrderModuleList := H.inLoadOrderModuleList
  ldrEntryAt := H.ldrEntryAt
  memoryLoadLibrary := H.memoryLoadLibrary
  memoryFreeLibrary := H.memoryFreeLibrary
  ldrMapDllMemory := H.ldrMapDllMemory
  rtlFreeLdrDataTableEntry := H.rtlFreeLdrDataTableEntry
  memoryResolveImportTable := H.memoryResolveImportTable
  memorySetSectionProtection := H.memorySetSectionProtection
  rtlInsertInvertedFunctionTable := fun base size table =>
    insertInverted64 nt exceptionDirectory protect base size.toNat table
  rtlRemoveInvertedFunctionTable := fun base table =>
    rtlRemoveInvertedFunctionTable64 nt protect base table
  mmpHandleTlsData := H.mmpHandleTlsData
  mmpReleaseTlsEntry := H.mmpReleaseTlsEntry
  ldrpExecuteTls := H.ldrpExecuteTls
  ldrpCallInitializers := H.ldrpCallInitializers
  rtlUpdateReferenceCount := H.rtlUpdateReferenceCount
  rtlGetReferenceCount := H.rtlGetReferenceCount

/-- The table is sound and its reserved entry is the one of a system module. -/
structure SystemTable (nt : NtVersions) (systemBases : Set Nat) (table : Table64) : Prop extends
    SoundTable nt table where
  reserved : ∀ k, k < firstSorted nt → (table.entries k).imageBase ∈ systemBases

def Views.withTable64 (V : Views δ ι τ ρ) (nt : NtVersions) : Views δ Table64 τ ρ where
  entries := V.entries
  sound := SystemTable nt V.systemBases
  bases := fun table => {b | b ∉ V.systemBases ∧ ∃ e ∈ sortedEntries nt table, e.imageBase = b}
  tlsEntries := V.tlsEntries
  images := V.images
  systemBases := V.systemBases

section Table64

variable {H : Helpers δ ι τ ρ} {V : Views δ ι τ ρ} {nt : NtVersions}
variable {exceptionDirectory : Nat → Nat × Nat} {protect : NtStatus × NtStatus}
variable {table : Table64} {base : Nat}

theorem SystemTable.insertGuard (h : SystemTable nt V.systemBases table)
    (hforeign : base ∉ V.systemBases) (hfresh : base ∉ (V.withTable64 nt).bases table)
    (size : Nat) : TableGuard nt table (.insert base size) := by
  rintro k hk rfl
  by_cases hreserved : k < firstSorted nt
  · exact hforeign (h.reserved k hreserved)
  · have hmem : table.entries k ∈ sortedEntries nt table :=
      CountedArray.mem_segment.mpr ⟨k, Nat.not_lt.mp hreserved, hk, rfl⟩
    exact hfresh ⟨hforeign, table.entries k, hmem, rfl⟩

theorem SystemTable.removeGuard (h : SystemTable nt V.systemBases table)
    (hforeign : base ∉ V.systemBases) : TableGuard nt table (.remove base) := by
  rintro k hk rfl
  exact hforeign (h.reserved k hk)

theorem Helpers.Registers.withTable64 (laws : H.Registers V)
    (hlifted : needVirtualProtect nt = true → ntSuccess protect.1 = true)
    (hrestored : needVirtualProtect nt = true → ntSuccess protect.2 = true) :
    (H.withTable64 nt exceptionDirectory protect).Registers (V.withTable64 nt) where
  mapDll := laws.mapDll
  freeEntry := laws.freeEntry
  getCount := laws.getCount
  updateCount := laws.updateCount
  null := laws.null
  loadLibrary := laws.loadLibrary
  freeLibrary := laws.freeLibrary
  resolveImports := laws.resolveImports
  setProtection := laws.setProtection
  insertInverted := by
    intro base table h hforeign hfresh size
    have hguard := h.insertGuard hforeign hfresh size.toNat
    rcases insertInverted64_cases exceptionDirectory h.toSoundTable hguard
      (fun hneed _ => hrestored hneed) with
      ⟨status, after, hcall, hfailed, -, hsound, hcount, hentries⟩ | ⟨hcall, -, hroom⟩
    · have hsame : sortedEntries nt after = sortedEntries nt table := by
        rw [sortedEntries, sortedEntries, hcount, hentries]
      have hfails : ¬ntSuccess status = true := by
        rw [hfailed]
        decide
      simp only [Helpers.withTable64, Views.withTable64, hcall, if_neg hfails, hsame]
      refine ⟨⟨hsound, ?_⟩, trivial⟩
      rw [hentries]
      exact h.reserved
    · have hok : ntSuccess statusSuccess = true := rfl
      have hinserted := insert64_sortedEntries exceptionDirectory base size.toNat hroom h.first
      simp only [Helpers.withTable64, Views.withTable64, hcall, if_pos hok, hinserted]
      refine ⟨⟨insert64_sound h.toSoundTable hguard, ?_⟩, ?_⟩
      · intro k hk
        rw [insert64_reserved base size.toNat h.first hk]
        exact h.reserved k hk
      · ext b
        simp only [Set.mem_insert_iff, Set.mem_ofPred_eq, CountedArray.mem_insertAscending]
        constructor
        · rintro ⟨hb, e, rfl | he, rfl⟩
          · exact Or.inl rfl
          · exact Or.inr ⟨hb, e, he, rfl⟩
        · rintro (rfl | ⟨hb, e, he, rfl⟩)
          · exact ⟨hforeign, _, Or.inl rfl, rfl⟩
          · exact ⟨hb, e, Or.inr he, rfl⟩
  removeInverted := by
    intro base table h hmem
    have hguard := h.removeGuard hmem.1
    have hprotect : Restored nt protect := fun hneed _ => hrestored hneed
    rcases remove64_cases base table hprotect with
      ⟨-, -, -, hneed, hrefused⟩ | ⟨hcall, -⟩
    · rw [hlifted hneed] at hrefused
      cases hrefused
    · have hremoved := remove64_sortedEntries h.first hguard
      simp only [Helpers.withTable64, Views.withTable64, hcall, hremoved]
      refine ⟨rfl, ⟨remove64_sound h.toSoundTable hguard, ?_⟩, ?_⟩
      · intro k hk
        rw [remove64_reserved h.first hguard hk]
        exact h.reserved k hk
      · ext b
        simp only [Set.mem_sdiff, Set.mem_singleton_iff, Set.mem_ofPred_eq,
          CountedArray.mem_removeKey _ h.ascending]
        constructor
        · rintro ⟨hb, e, ⟨he, hne⟩, rfl⟩
          exact ⟨⟨hb, e, he, rfl⟩, hne⟩
        · rintro ⟨⟨hb, e, he, rfl⟩, hne⟩
          exact ⟨hb, e, ⟨he, hne⟩, rfl⟩
  handleTls := laws.handleTls
  releaseTls := laws.releaseTls

end Table64

end WinPolyfillLoader.Loader
