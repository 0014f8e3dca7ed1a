import Mathlib.Data.Finset.Card
import WinPolyfillLoader.Version
import WinPolyfillLoader.Library.CountedArray
import WinPolyfillLoader.Library.Runs

/-!
The 64-bit inverted function table of ntdll, as `InvertedFunctionTable.cpp`
edits it. The table maps image bases to unwind data and is kept sorted; from
Windows 8 on entry 0 belongs to ntdll and stays out of the order.
-/

namespace WinPolyfillLoader.InvertedFunctionTable

open CountedArray

structure Entry64 where
  exceptionDirectory : Nat
  imageBase : Nat
  imageSize : Nat
  exceptionDirectorySize : Nat
deriving DecidableEq, Repr

structure Table64 where
  count : Nat
  maxCount : Nat
  epoch : Nat
  overflow : Nat
  entries : Nat → Entry64

/-- The first entry that takes part in the order. -/
def firstSorted (nt : NtVersions) : Nat := if isWin8OrGreater nt then 1 else 0

/-- The search loop of the insertion, entered with `Index = IsWin8OrGreater`. -/
def insertIndex64 (nt : NtVersions) (table : Table64) (imageBase : Nat) : Nat :=
  scan (fun k => decide (imageBase < (table.entries k).imageBase))
    (table.count - firstSorted nt) (firstSorted nt)

/-- The four stores into the free entry. `exceptionDirectory` answers
`RtlImageDirectoryEntryToData` for `IMAGE_DIRECTORY_ENTRY_EXCEPTION` with the
address and the size. -/
def newEntry64 (exceptionDirectory : Nat → Nat × Nat) (imageBase sizeOfImage : Nat) : Entry64 where
  exceptionDirectory := (exceptionDirectory imageBase).1
  imageBase := imageBase
  imageSize := sizeOfImage
  exceptionDirectorySize := (exceptionDirectory imageBase).2

/-- `RtlpInsertInvertedFunctionTable`, `_WIN64` branch. The byte count of the
move is a multiple of the entry size, so it moves whole entries. -/
def rtlpInsertInvertedFunctionTable64 (nt : NtVersions) (exceptionDirectory : Nat → Nat × Nat)
    (table : Table64) (imageBase sizeOfImage : Nat) : Table64 :=
  if table.count ≠ table.maxCount then
    let index := if table.count ≠ 0 then insertIndex64 nt table imageBase else firstSorted nt
    let moved :=
      if table.count ≠ 0 ∧ index ≠ table.count then
        moveRange table.entries (index + 1) index (table.count - index)
      else table.entries
    { table with
      entries := Function.update moved index (newEntry64 exceptionDirectory imageBase sizeOfImage)
      count := table.count + 1 }
  else if isWin8OrGreater nt then { table with overflow := 1 }
  else { table with epoch := 1 }

/-- The search loop of the removal. It starts at 0 on every version. -/
def removeIndex64 (table : Table64) (imageBase : Nat) : Nat :=
  scan (fun k => decide ((table.entries k).imageBase = imageBase)) table.count 0

def dropEntry64 (table : Table64) (index : Nat) : Table64 :=
  if index ≠ table.count then
    { table with
      entries :=
        if table.count ≠ 1 then
          moveRange table.entries index (index + 1) (table.count - index - 1)
        else table.entries
      count := table.count - 1 }
  else table

/-- The end of the removal. Before Windows 8 the flag is cleared through the
32-bit layout, whose `Overflow` lies where this layout has `Epoch`. -/
def clearOverflow64 (nt : NtVersions) (table : Table64) : Table64 :=
  if table.count ≠ table.maxCount then
    if isWin8OrGreater nt then { table with overflow := 0 }
    else { table with epoch := 0 }
  else table

/-- `RtlpRemoveInvertedFunctionTable`, `_WIN64` branch. -/
def rtlpRemoveInvertedFunctionTable64 (nt : NtVersions) (table : Table64) (imageBase : Nat) :
    Table64 :=
  clearOverflow64 nt (dropEntry64 table (removeIndex64 table imageBase))

inductive TableOp where
  | insert (imageBase sizeOfImage : Nat)
  | remove (imageBase : Nat)

def tableStep (nt : NtVersions) (exceptionDirectory : Nat → Nat × Nat) (table : Table64) :
    TableOp → Table64
  | .insert imageBase sizeOfImage =>
      rtlpInsertInvertedFunctionTable64 nt exceptionDirectory table imageBase sizeOfImage
  | .remove imageBase => rtlpRemoveInvertedFunctionTable64 nt table imageBase

/-- An inserted base is not in the table; a removed base is not ntdll's own. -/
def TableGuard (nt : NtVersions) (table : Table64) : TableOp → Prop
  | .insert imageBase _ => ∀ k, k < table.count → (table.entries k).imageBase ≠ imageBase
  | .remove imageBase => ∀ k, k < firstSorted nt → (table.entries k).imageBase ≠ imageBase

instance (nt : NtVersions) (table : Table64) : (op : TableOp) → Decidable (TableGuard nt table op)
  | .insert imageBase _ => inferInstanceAs
      (Decidable (∀ k, k < table.count → (table.entries k).imageBase ≠ imageBase))
  | .remove imageBase => inferInstanceAs
      (Decidable (∀ k, k < firstSorted nt → (table.entries k).imageBase ≠ imageBase))

/-- The entries that the exception dispatcher searches. -/
def sortedEntries (nt : NtVersions) (table : Table64) : List Entry64 :=
  segment table.entries (firstSorted nt) table.count

theorem insertIndex64_bounds {nt : NtVersions} {table : Table64} (imageBase : Nat)
    (hfirst : firstSorted nt ≤ table.count) :
    firstSorted nt ≤ insertIndex64 nt table imageBase ∧
      insertIndex64 nt table imageBase ≤ table.count := by
  have hb := scan_bounds (fun k => decide (imageBase < (table.entries k).imageBase))
    (table.count - firstSorted nt) (firstSorted nt)
  unfold insertIndex64
  omega

/-- An insertion into a table with room is one move and one store at the
searched index: the special cases for an empty table and for the last place
only skip a move of nothing. -/
theorem insert64_eq {nt : NtVersions} {exceptionDirectory : Nat → Nat × Nat} {table : Table64}
    (imageBase sizeOfImage : Nat) (hroom : table.count ≠ table.maxCount)
    (hfirst : firstSorted nt ≤ table.count) :
    rtlpInsertInvertedFunctionTable64 nt exceptionDirectory table imageBase sizeOfImage =
      let index := insertIndex64 nt table imageBase
      { table with
        entries := Function.update
          (moveRange table.entries (index + 1) index (table.count - index)) index
          (newEntry64 exceptionDirectory imageBase sizeOfImage)
        count := table.count + 1 } := by
  have hindex : (if table.count ≠ 0 then insertIndex64 nt table imageBase else firstSorted nt) =
      insertIndex64 nt table imageBase := by
    by_cases hempty : table.count = 0
    · have hb := insertIndex64_bounds imageBase hfirst
      rw [if_neg (by simpa using hempty)]
      omega
    · rw [if_pos hempty]
  have hmoved : (if table.count ≠ 0 ∧ insertIndex64 nt table imageBase ≠ table.count then
      moveRange table.entries (insertIndex64 nt table imageBase + 1)
        (insertIndex64 nt table imageBase) (table.count - insertIndex64 nt table imageBase)
      else table.entries) = moveRange table.entries (insertIndex64 nt table imageBase + 1)
        (insertIndex64 nt table imageBase) (table.count - insertIndex64 nt table imageBase) := by
    split
    · rfl
    · have hb := insertIndex64_bounds imageBase hfirst
      have hnone : table.count - insertIndex64 nt table imageBase = 0 := by omega
      rw [hnone, moveRange_zero]
  simp only [rtlpInsertInvertedFunctionTable64, if_pos hroom, hindex, hmoved]

theorem insert64_full {nt : NtVersions} {exceptionDirectory : Nat → Nat × Nat} {table : Table64}
    (imageBase sizeOfImage : Nat) (hfull : table.count = table.maxCount) :
    rtlpInsertInvertedFunctionTable64 nt exceptionDirectory table imageBase sizeOfImage =
      if isWin8OrGreater nt then { table with overflow := 1 }
      else { table with epoch := 1 } := by
  rw [rtlpInsertInvertedFunctionTable64, if_neg (by simpa using hfull)]

theorem insert64_sortedEntries {nt : NtVersions} (exceptionDirectory : Nat → Nat × Nat)
    {table : Table64} (imageBase sizeOfImage : Nat) (hroom : table.count ≠ table.maxCount)
    (hfirst : firstSorted nt ≤ table.count) :
    sortedEntries nt
        (rtlpInsertInvertedFunctionTable64 nt exceptionDirectory table imageBase sizeOfImage) =
      insertAscending Entry64.imageBase (newEntry64 exceptionDirectory imageBase sizeOfImage)
        (sortedEntries nt table) := by
  rw [insert64_eq imageBase sizeOfImage hroom hfirst]
  exact segment_insert_scan Entry64.imageBase table.entries hfirst
    (newEntry64 exceptionDirectory imageBase sizeOfImage)

theorem insert64_reserved {nt : NtVersions} {exceptionDirectory : Nat → Nat × Nat}
    {table : Table64} (imageBase sizeOfImage : Nat) (hfirst : firstSorted nt ≤ table.count)
    {k : Nat} (hk : k < firstSorted nt) :
    (rtlpInsertInvertedFunctionTable64 nt exceptionDirectory table imageBase sizeOfImage).entries k
      = table.entries k := by
  by_cases hroom : table.count = table.maxCount
  · rw [insert64_full imageBase sizeOfImage hroom]
    split <;> rfl
  · have hb := insertIndex64_bounds imageBase hfirst
    rw [insert64_eq imageBase sizeOfImage hroom hfirst]
    dsimp only
    rw [Function.update_of_ne (by omega), moveRange_below _ (by omega)]

@[simp] theorem clearOverflow64_count (nt : NtVersions) (table : Table64) :
    (clearOverflow64 nt table).count = table.count := by
  unfold clearOverflow64
  split <;> [split; skip] <;> rfl

@[simp] theorem clearOverflow64_maxCount (nt : NtVersions) (table : Table64) :
    (clearOverflow64 nt table).maxCount = table.maxCount := by
  unfold clearOverflow64
  split <;> [split; skip] <;> rfl

@[simp] theorem clearOverflow64_entries (nt : NtVersions) (table : Table64) :
    (clearOverflow64 nt table).entries = table.entries := by
  unfold clearOverflow64
  split <;> [split; skip] <;> rfl

@[simp] theorem dropEntry64_maxCount (table : Table64) (index : Nat) :
    (dropEntry64 table index).maxCount = table.maxCount := by
  unfold dropEntry64
  split <;> rfl

/-- The guard of the removal makes the start at 0 harmless: the reserved
entries never match. -/
theorem removeIndex64_eq {nt : NtVersions} {table : Table64} {imageBase : Nat}
    (hfirst : firstSorted nt ≤ table.count)
    (hguard : ∀ k, k < firstSorted nt → (table.entries k).imageBase ≠ imageBase) :
    removeIndex64 table imageBase =
      scan (fun k => decide ((table.entries k).imageBase = imageBase))
        (table.count - firstSorted nt) (firstSorted nt) := by
  have hskip := scan_skip (p := fun k => decide ((table.entries k).imageBase = imageBase))
    (Nat.zero_le (firstSorted nt)) hfirst
    (fun k _ hk => by simpa using hguard k hk)
  simpa only [removeIndex64, Nat.sub_zero] using hskip

theorem remove64_sortedEntries {nt : NtVersions} {table : Table64} {imageBase : Nat}
    (hfirst : firstSorted nt ≤ table.count)
    (hguard : ∀ k, k < firstSorted nt → (table.entries k).imageBase ≠ imageBase) :
    sortedEntries nt (rtlpRemoveInvertedFunctionTable64 nt table imageBase) =
      removeKey Entry64.imageBase imageBase (sortedEntries nt table) := by
  have hindex := removeIndex64_eq hfirst hguard
  have hb := scan_bounds (fun k => decide ((table.entries k).imageBase = imageBase))
    (table.count - firstSorted nt) (firstSorted nt)
  rw [← hindex] at hb
  simp only [sortedEntries, rtlpRemoveInvertedFunctionTable64, clearOverflow64_entries,
    clearOverflow64_count, dropEntry64]
  by_cases hend : removeIndex64 table imageBase = table.count
  · rw [if_neg (by simpa using hend)]
    exact (removeKey_of_scan_end Entry64.imageBase table.entries imageBase
      (by rw [← hindex, hend])).symm
  · rw [if_pos hend]
    have hfound : removeIndex64 table imageBase < table.count := by omega
    have hshift := segment_remove_scan Entry64.imageBase table.entries imageBase
      (by rw [← hindex]; exact hfound) (Nat.le_of_eq (by rw [← hindex]))
    by_cases hone : table.count = 1
    · -- the last entry: nothing is moved and nothing is left
      rw [← hshift, segment_of_le _ (by dsimp only; omega), segment_of_le _ (by omega)]
    · dsimp only
      rw [if_pos hone, ← hshift, ← hindex]

theorem remove64_count (nt : NtVersions) (table : Table64) (imageBase : Nat) :
    (rtlpRemoveInvertedFunctionTable64 nt table imageBase).count =
      if removeIndex64 table imageBase = table.count then table.count else table.count - 1 := by
  simp only [rtlpRemoveInvertedFunctionTable64, clearOverflow64_count, dropEntry64]
  by_cases hend : removeIndex64 table imageBase = table.count
  · rw [if_neg (by simpa using hend), if_pos hend]
  · rw [if_pos hend, if_neg hend]

theorem remove64_reserved {nt : NtVersions} {table : Table64} {imageBase : Nat}
    (hfirst : firstSorted nt ≤ table.count)
    (hguard : ∀ k, k < firstSorted nt → (table.entries k).imageBase ≠ imageBase)
    {k : Nat} (hk : k < firstSorted nt) :
    (rtlpRemoveInvertedFunctionTable64 nt table imageBase).entries k = table.entries k := by
  have hb := scan_bounds (fun k => decide ((table.entries k).imageBase = imageBase))
    (table.count - firstSorted nt) (firstSorted nt)
  rw [← removeIndex64_eq hfirst hguard] at hb
  simp only [rtlpRemoveInvertedFunctionTable64, clearOverflow64_entries, dropEntry64]
  split
  · dsimp only
    split
    · exact moveRange_below _ (by omega)
    · rfl
  · rfl

/-- What the table is for: the set of images whose unwind data can be found,
of bounded size. -/
structure Registry where
  capacity : Nat
  images : Finset Entry64

def registryStep (exceptionDirectory : Nat → Nat × Nat) (registry : Registry) :
    TableOp → Registry
  | .insert imageBase sizeOfImage =>
      if registry.images.card < registry.capacity then
        { registry with
          images := insert (newEntry64 exceptionDirectory imageBase sizeOfImage) registry.images }
      else registry
  | .remove imageBase =>
      { registry with images := registry.images.filter (fun e => e.imageBase ≠ imageBase) }

def registryOf (nt : NtVersions) (table : Table64) : Registry where
  capacity := table.maxCount - firstSorted nt
  images := (sortedEntries nt table).toFinset

structure TableInvariant (nt : NtVersions) (table : Table64) : Prop where
  first : firstSorted nt ≤ table.count
  within : table.count ≤ table.maxCount
  ascending : Ascending Entry64.imageBase (sortedEntries nt table)

theorem registryOf_card {nt : NtVersions} {table : Table64} (h : TableInvariant nt table) :
    (registryOf nt table).images.card = table.count - firstSorted nt := by
  have hnodup : (sortedEntries nt table).Nodup :=
    h.ascending.imp (fun hlt heq => absurd (congrArg Entry64.imageBase heq) hlt.ne)
  rw [registryOf, List.toFinset_card_of_nodup hnodup, sortedEntries, length_segment]

/-- One insertion keeps the invariant and is the registry's insertion. -/
theorem insert64_refines {nt : NtVersions} {exceptionDirectory : Nat → Nat × Nat}
    {table : Table64} (h : TableInvariant nt table) {imageBase sizeOfImage : Nat}
    (hguard : TableGuard nt table (.insert imageBase sizeOfImage)) :
    let next := tableStep nt exceptionDirectory table (.insert imageBase sizeOfImage)
    TableInvariant nt next ∧
      registryOf nt next = registryStep exceptionDirectory (registryOf nt table)
        (.insert imageBase sizeOfImage) := by
  have hcard := registryOf_card h
  by_cases hfull : table.count = table.maxCount
  · have hno : ¬ (registryOf nt table).images.card < (registryOf nt table).capacity := by
      rw [hcard, hfull]
      exact Nat.lt_irrefl _
    simp only [tableStep, insert64_full imageBase sizeOfImage hfull, registryStep, if_neg hno]
    split
    · exact ⟨⟨h.first, h.within, h.ascending⟩, rfl⟩
    · exact ⟨⟨h.first, h.within, h.ascending⟩, rfl⟩
  · have hroom : (registryOf nt table).images.card < (registryOf nt table).capacity := by
      have hfirst := h.first
      have hwithin := h.within
      rw [hcard]
      simp only [registryOf]
      omega
    have hentries := insert64_sortedEntries exceptionDirectory
      imageBase sizeOfImage hfull h.first
    have hcount : (rtlpInsertInvertedFunctionTable64 nt exceptionDirectory table imageBase
        sizeOfImage).count = table.count + 1 ∧ (rtlpInsertInvertedFunctionTable64 nt
        exceptionDirectory table imageBase sizeOfImage).maxCount = table.maxCount := by
      rw [insert64_eq imageBase sizeOfImage hfull h.first]
      exact ⟨rfl, rfl⟩
    have hfresh : ∀ e ∈ sortedEntries nt table, e.imageBase ≠ imageBase := by
      intro e he
      obtain ⟨k, _, hk, rfl⟩ := mem_segment.mp he
      exact hguard k hk
    simp only [tableStep, registryStep, if_pos hroom]
    refine ⟨⟨?_, ?_, ?_⟩, ?_⟩
    · exact hcount.1 ▸ Nat.le_succ_of_le h.first
    · have hwithin := h.within
      rw [hcount.1, hcount.2]
      omega
    · rw [hentries]
      exact ascending_insertAscending _ h.ascending hfresh
    · have himages : (insertAscending Entry64.imageBase
          (newEntry64 exceptionDirectory imageBase sizeOfImage) (sortedEntries nt table)).toFinset =
          insert (newEntry64 exceptionDirectory imageBase sizeOfImage)
            (sortedEntries nt table).toFinset := by
        ext e
        simp
      simp only [registryOf, hentries, himages, hcount.2]

/-- One removal keeps the invariant and is the registry's removal. -/
theorem remove64_refines {nt : NtVersions} {exceptionDirectory : Nat → Nat × Nat}
    {table : Table64} (h : TableInvariant nt table) {imageBase : Nat}
    (hguard : TableGuard nt table (.remove imageBase)) :
    let next := tableStep nt exceptionDirectory table (.remove imageBase)
    TableInvariant nt next ∧
      registryOf nt next =
        registryStep exceptionDirectory (registryOf nt table) (.remove imageBase) := by
  have hentries := remove64_sortedEntries h.first hguard
  have hcount := remove64_count nt table imageBase
  have hb := scan_bounds (fun k => decide ((table.entries k).imageBase = imageBase))
    (table.count - firstSorted nt) (firstSorted nt)
  rw [← removeIndex64_eq h.first hguard] at hb
  have hfirst := h.first
  have hwithin := h.within
  have hmax : (rtlpRemoveInvertedFunctionTable64 nt table imageBase).maxCount = table.maxCount := by
    simp [rtlpRemoveInvertedFunctionTable64]
  simp only [tableStep, registryStep]
  refine ⟨⟨?_, ?_, ?_⟩, ?_⟩
  · rw [hcount]
    split <;> omega
  · rw [hcount, hmax]
    split <;> omega
  · rw [hentries]
    exact ascending_removeKey _ h.ascending
  · have himages : (removeKey Entry64.imageBase imageBase (sortedEntries nt table)).toFinset =
        (sortedEntries nt table).toFinset.filter (fun e => e.imageBase ≠ imageBase) := by
      ext e
      simp [mem_removeKey _ h.ascending]
    simp only [registryOf, hentries, himages, hmax]

theorem tableStep_refines {nt : NtVersions} {exceptionDirectory : Nat → Nat × Nat}
    {table : Table64} (h : TableInvariant nt table) {op : TableOp}
    (hguard : TableGuard nt table op) :
    TableInvariant nt (tableStep nt exceptionDirectory table op) ∧
      registryOf nt (tableStep nt exceptionDirectory table op) =
        registryStep exceptionDirectory (registryOf nt table) op := by
  cases op with
  | insert imageBase sizeOfImage => exact insert64_refines h hguard
  | remove imageBase => exact remove64_refines h hguard

theorem tableStep_reserved {nt : NtVersions} {exceptionDirectory : Nat → Nat × Nat}
    {table : Table64} (h : TableInvariant nt table) {op : TableOp}
    (hguard : TableGuard nt table op) {k : Nat} (hk : k < firstSorted nt) :
    (tableStep nt exceptionDirectory table op).entries k = table.entries k := by
  cases op with
  | insert imageBase sizeOfImage => exact insert64_reserved imageBase sizeOfImage h.first hk
  | remove imageBase => exact remove64_reserved h.first hguard hk

/-- Over any run of insertions of new images and removals, the table stays
within its capacity and strictly ascending and holds exactly the registered
images; ntdll's own entry is never touched, and a full table only records that
it overflowed. -/
theorem inverted_function_table_sorted_map (nt : NtVersions)
    (exceptionDirectory : Nat → Nat × Nat) (initial : Table64)
    (hinitial : TableInvariant nt initial) (ops : List TableOp)
    (hops : Runs.Admissible (tableStep nt exceptionDirectory) (TableGuard nt) initial ops) :
    let final := ops.foldl (tableStep nt exceptionDirectory) initial
    final.count ≤ final.maxCount ∧
      Ascending Entry64.imageBase (sortedEntries nt final) ∧
      (∀ e, e ∈ sortedEntries nt final ↔
        e ∈ (ops.foldl (registryStep exceptionDirectory) (registryOf nt initial)).images) ∧
      (∀ k, k < firstSorted nt → final.entries k = initial.entries k) ∧
      (final.count = final.maxCount → ∀ imageBase sizeOfImage,
        rtlpInsertInvertedFunctionTable64 nt exceptionDirectory final imageBase sizeOfImage =
          if isWin8OrGreater nt then { final with overflow := 1 }
          else { final with epoch := 1 }) := by
  intro final
  obtain ⟨hinv, hregistry, hreserved⟩ := Runs.simulation (registryStep exceptionDirectory)
    (R := fun table registry => TableInvariant nt table ∧ registryOf nt table = registry ∧
      ∀ k, k < firstSorted nt → table.entries k = initial.entries k)
    (by
      rintro table registry op ⟨hinv, rfl, hreserved⟩ hguard
      obtain ⟨hinv', hregistry⟩ := tableStep_refines hinv hguard
      refine ⟨hinv', hregistry, ?_⟩
      intro k hk
      exact (tableStep_reserved hinv hguard hk).trans (hreserved k hk))
    ⟨hinitial, rfl, fun _ _ => rfl⟩ hops
  refine ⟨hinv.within, hinv.ascending, ?_, hreserved, ?_⟩
  · intro e
    rw [← hregistry, registryOf, List.mem_toFinset]
  · intro hfull imageBase sizeOfImage
    exact insert64_full imageBase sizeOfImage hfull

/-- Windows 10 with ntdll in entry 0: an image is inserted between two others
and one of those is removed again. -/
theorem inverted_function_table_sorted_map_win10 :
    let nt : NtVersions := ⟨10, 0, 19041⟩
    let initial : Table64 :=
      ⟨3, 4, 0, 0, fun k => ⟨0, [0x7ff0, 0x1000, 0x5000].getD k 0, 0x100, 0⟩⟩
    let ops := [TableOp.insert 0x3000 0x200, TableOp.remove 0x1000]
    let final := ops.foldl (tableStep nt (fun b => (b + 0x10, 12))) initial
    Ascending Entry64.imageBase (sortedEntries nt final) := by
  have hinitial : TableInvariant ⟨10, 0, 19041⟩
      ⟨3, 4, 0, 0, fun k => ⟨0, [0x7ff0, 0x1000, 0x5000].getD k 0, 0x100, 0⟩⟩ :=
    ⟨by decide, by decide, by unfold Ascending; decide⟩
  exact (inverted_function_table_sorted_map ⟨10, 0, 19041⟩ (fun b => (b + 0x10, 12)) _ hinitial
    [.insert 0x3000 0x200, .remove 0x1000] (by decide)).2.1

end WinPolyfillLoader.InvertedFunctionTable
