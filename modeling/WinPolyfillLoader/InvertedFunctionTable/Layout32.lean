import WinPolyfillLoader.Version
import WinPolyfillLoader.Library.CountedArray

/-!
The 32-bit inverted function table, edited in place as a sequence of DWORDs.
From Windows 8 on its entries have the 64-bit layout. Before Windows 8 the
code declares the record one field late, so that the encoded handler table of
an entry lies in the record in front of it and that of entry 0 in the header.
-/

namespace WinPolyfillLoader.InvertedFunctionTable

open CountedArray

/-- The table structure, indexed by DWORD. -/
abbrev Table32 := Nat → Nat

def countAt : Nat := 0
def maxCountAt : Nat := 1
/-- `Overflow` of the Windows 7 layout, `Epoch` of the 64-bit one. -/
def overflowAt : Nat := 2
/-- `NextEntrySEHandlerTableEncoded` of the Windows 7 header, `Overflow` of
the 64-bit one. -/
def nextEntryAt : Nat := 3
def entryAt (k : Nat) : Nat := 4 + 4 * k

/-- `sizeof(RTL_INVERTED_FUNCTION_TABLE_ENTRY)` in DWORDs. -/
def entrySize : Nat := 4

/-- What `RtlCaptureImageExceptionValues` reads from the image. The
directories are absent when `RtlImageDirectoryEntryToData` returns null. -/
structure ImageExceptionView where
  noSeh : Bool
  loadConfigDirectorySize : Nat
  /-- `Size`, `SEHandlerTable` and `SEHandlerCount`. -/
  loadConfig : Option (Nat × Nat × Nat)
  corFlags : Option Nat

def rtlCaptureImageExceptionValues (image : ImageExceptionView) : Nat × Nat :=
  if image.noSeh then (0xffffffff, 0xffffffff)
  else
    match image.loadConfig with
    | some (size, seHandlerTable, seHandlerCount) =>
        if image.loadConfigDirectorySize = 0x40 ∧ 0x48 ≤ size ∧ seHandlerTable ≠ 0 ∧
            seHandlerCount ≠ 0 then (seHandlerTable, seHandlerCount)
        else corExceptionValues
    | none => corExceptionValues
where
  corExceptionValues : Nat × Nat :=
    match image.corFlags with
    | some flags => if flags % 2 = 1 then (0xffffffff, 0xffffffff) else (0, 0)
    | none => (0, 0)

/-- Where the image base of record `k` is read. -/
def imageBaseAt (nt : NtVersions) (k : Nat) : Nat :=
  if isWin8OrGreater nt then entryAt k + 1 else entryAt k

def insertIndex32 (nt : NtVersions) (table : Table32) (imageBase : Nat) : Nat :=
  let first := if isWin8OrGreater nt then 1 else 0
  scan (fun k => decide (imageBase < table (imageBaseAt nt k))) (table countAt - first) first

/-- `Index ? &Entries[Index - 1].NextEntrySEHandlerTableEncoded :
&InvertedTable->NextEntrySEHandlerTableEncoded`. -/
def handlerTableAt (index : Nat) : Nat :=
  if index ≠ 0 then entryAt (index - 1) + 3 else nextEntryAt

/-- The stores of the insertion in the Windows 7 layout. -/
def storeRecord (table : Table32) (index seHandlerTable imageBase sizeOfImage seHandlerCount : Nat) :
    Table32 :=
  let handlers := Function.update table (handlerTableAt index) seHandlerTable
  let base := Function.update handlers (entryAt index) imageBase
  let size := Function.update base (entryAt index + 1) sizeOfImage
  Function.update size (entryAt index + 2) seHandlerCount

/-- `RtlpInsertInvertedFunctionTable`, 32-bit branch. -/
def rtlpInsertInvertedFunctionTable32 (nt : NtVersions) (image : Nat → ImageExceptionView)
    (rtlEncodeSystemPointer : Nat → Nat) (table : Table32) (imageBase sizeOfImage : Nat) :
    Table32 :=
  if table countAt = table maxCountAt then
    if isWin8OrGreater nt then Function.update table nextEntryAt 1
    else Function.update table overflowAt 1
  else
    let index := insertIndex32 nt table imageBase
    let captured := rtlCaptureImageExceptionValues (image imageBase)
    let stored :=
      if isWin8OrGreater nt then
        let moved :=
          if index ≠ table countAt then
            moveRange table (entryAt (index + 1)) (entryAt index)
              ((table countAt - index) * entrySize)
          else table
        let directory := Function.update moved (entryAt index) (rtlEncodeSystemPointer captured.1)
        let size := Function.update directory (entryAt index + 3) captured.2
        let base := Function.update size (entryAt index + 1) imageBase
        Function.update base (entryAt index + 2) sizeOfImage
      else
        let moved :=
          if index ≠ table countAt then
            moveRange table (entryAt index + 3) (handlerTableAt index)
              ((table countAt - index) * entrySize)
          else table
        storeRecord moved index (rtlEncodeSystemPointer captured.1) imageBase sizeOfImage captured.2
    Function.update stored countAt (stored countAt + 1)

def removeIndex32 (nt : NtVersions) (table : Table32) (imageBase : Nat) : Nat :=
  scan (fun k => decide (table (imageBaseAt nt k) = imageBase)) (table countAt) 0

/-- The body of the removal after the search. Both moves count one entry more
than the tail has. -/
def dropEntry32 (nt : NtVersions) (table : Table32) (index : Nat) : Table32 :=
  let currentSize := table countAt
  if index ≠ currentSize then
    let moved :=
      if currentSize ≠ 1 then
        if isWin8OrGreater nt then
          moveRange table (entryAt index) (entryAt (index + 1)) ((currentSize - index) * entrySize)
        else
          moveRange table (handlerTableAt index) (entryAt index + 3)
            ((currentSize - index) * entrySize)
      else table
    Function.update moved countAt (moved countAt - 1)
  else table

def clearOverflow32 (nt : NtVersions) (table : Table32) : Table32 :=
  if table countAt ≠ table maxCountAt then
    if isWin8OrGreater nt then Function.update table nextEntryAt 0
    else Function.update table overflowAt 0
  else table

/-- `RtlpRemoveInvertedFunctionTable`, 32-bit branch. -/
def rtlpRemoveInvertedFunctionTable32 (nt : NtVersions) (table : Table32) (imageBase : Nat) :
    Table32 :=
  clearOverflow32 nt (dropEntry32 nt table (removeIndex32 nt table imageBase))

/-- A record of the layout that `InvertedFunctionTable.h` calls the correct
one. -/
structure Entry32 where
  entrySEHandlerTableEncoded : Nat
  imageBase : Nat
  imageSize : Nat
  seHandlerCount : Nat
deriving DecidableEq, Repr

/-- Entry `k` of the logical array: its handler table is in the header for
`k = 0` and in record `k - 1` otherwise. -/
def logicalEntry (table : Table32) (k : Nat) : Entry32 where
  entrySEHandlerTableEncoded := table (handlerTableAt k)
  imageBase := table (entryAt k)
  imageSize := table (entryAt k + 1)
  seHandlerCount := table (entryAt k + 2)

def logicalEntries (table : Table32) : List Entry32 :=
  segment (logicalEntry table) 0 (table countAt)

/-- The logical array is contiguous: it starts at the last DWORD of the
header and entry `k` fills the four DWORDs from `handlerTableAt k`. -/
theorem handlerTableAt_eq (k : Nat) : handlerTableAt k = 3 + 4 * k := by
  unfold handlerTableAt entryAt nextEntryAt
  split <;> omega

theorem logicalEntry_eq (table : Table32) (k : Nat) :
    logicalEntry table k =
      ⟨table (3 + 4 * k), table (4 + 4 * k), table (5 + 4 * k), table (6 + 4 * k)⟩ := by
  have hsize : entryAt k + 1 = 5 + 4 * k := by
    unfold entryAt
    omega
  have hcount : entryAt k + 2 = 6 + 4 * k := by
    unfold entryAt
    omega
  rw [logicalEntry, handlerTableAt_eq, hsize, hcount, entryAt]

theorem logicalEntry_moveRange (table : Table32) (dst src len : Nat) :
    logicalEntry (moveRange table (3 + 4 * dst) (3 + 4 * src) (len * entrySize)) =
      moveRange (logicalEntry table) dst src len := by
  have hword (j k : Nat) (hj : j < 4) :
      moveRange table (3 + 4 * dst) (3 + 4 * src) (len * entrySize) (3 + j + 4 * k) =
        if dst ≤ k ∧ k < dst + len then table (3 + j + 4 * (k - dst + src))
        else table (3 + j + 4 * k) := by
    unfold moveRange entrySize
    by_cases hin : dst ≤ k ∧ k < dst + len
    · rw [if_pos (by omega), if_pos hin]
      congr 1
      omega
    · rw [if_neg (by omega), if_neg hin]
  funext k
  rw [logicalEntry_eq, hword 0 k (by omega), hword 1 k (by omega), hword 2 k (by omega),
    hword 3 k (by omega)]
  unfold moveRange
  split <;> rw [logicalEntry_eq]

theorem storeRecord_below (table : Table32) (index handlers base size count : Nat) {word : Nat}
    (hword : word < 3 + 4 * index) :
    storeRecord table index handlers base size count word = table word := by
  have hfirst := handlerTableAt_eq index
  unfold storeRecord entryAt
  rw [Function.update_of_ne (by omega), Function.update_of_ne (by omega),
    Function.update_of_ne (by omega), Function.update_of_ne (by omega)]

theorem storeRecord_above (table : Table32) (index handlers base size count : Nat) {word : Nat}
    (hword : 3 + 4 * (index + 1) ≤ word) :
    storeRecord table index handlers base size count word = table word := by
  have hfirst := handlerTableAt_eq index
  unfold storeRecord entryAt
  rw [Function.update_of_ne (by omega), Function.update_of_ne (by omega),
    Function.update_of_ne (by omega), Function.update_of_ne (by omega)]

theorem logicalEntry_storeRecord (table : Table32) (index handlers base size count : Nat) :
    logicalEntry (storeRecord table index handlers base size count) =
      Function.update (logicalEntry table) index ⟨handlers, base, size, count⟩ := by
  funext k
  rcases lt_trichotomy k index with hk | rfl | hk
  · rw [Function.update_of_ne hk.ne, logicalEntry_eq, logicalEntry_eq,
      storeRecord_below _ _ _ _ _ _ (by omega), storeRecord_below _ _ _ _ _ _ (by omega),
      storeRecord_below _ _ _ _ _ _ (by omega), storeRecord_below _ _ _ _ _ _ (by omega)]
  · have hhandlers : handlerTableAt k ≠ entryAt k ∧ handlerTableAt k ≠ entryAt k + 1 ∧
        handlerTableAt k ≠ entryAt k + 2 := by
      rw [handlerTableAt_eq, entryAt]
      omega
    rw [Function.update_self]
    simp [logicalEntry, storeRecord, hhandlers]
  · rw [Function.update_of_ne hk.ne', logicalEntry_eq, logicalEntry_eq,
      storeRecord_above _ _ _ _ _ _ (by omega), storeRecord_above _ _ _ _ _ _ (by omega),
      storeRecord_above _ _ _ _ _ _ (by omega), storeRecord_above _ _ _ _ _ _ (by omega)]

/-- The header words in front of the logical array are not part of it. -/
theorem logicalEntry_update_header (table : Table32) {word : Nat} (hword : word < 3) (v : Nat) :
    logicalEntry (Function.update table word v) = logicalEntry table := by
  funext k
  rw [logicalEntry_eq, logicalEntry_eq, Function.update_of_ne (by omega),
    Function.update_of_ne (by omega), Function.update_of_ne (by omega),
    Function.update_of_ne (by omega)]

/-- The layout that the shifted record stands for. -/
@[ext] structure PlainTable32 where
  count : Nat
  maxCount : Nat
  overflow : Nat
  entries : Nat → Entry32

def PlainTable32.live (table : PlainTable32) : List Entry32 := segment table.entries 0 table.count

def plainTableOf (table : Table32) : PlainTable32 where
  count := table countAt
  maxCount := table maxCountAt
  overflow := table overflowAt
  entries := logicalEntry table

def newEntry32 (image : Nat → ImageExceptionView) (rtlEncodeSystemPointer : Nat → Nat)
    (imageBase sizeOfImage : Nat) : Entry32 where
  entrySEHandlerTableEncoded :=
    rtlEncodeSystemPointer (rtlCaptureImageExceptionValues (image imageBase)).1
  imageBase := imageBase
  imageSize := sizeOfImage
  seHandlerCount := (rtlCaptureImageExceptionValues (image imageBase)).2

/-- The insertion that the unshifted layout performs. -/
def plainInsert (image : Nat → ImageExceptionView) (rtlEncodeSystemPointer : Nat → Nat)
    (table : PlainTable32) (imageBase sizeOfImage : Nat) : PlainTable32 :=
  if table.count = table.maxCount then { table with overflow := 1 }
  else
    let index := scan (fun k => decide (imageBase < (table.entries k).imageBase)) table.count 0
    { table with
      entries := Function.update
        (moveRange table.entries (index + 1) index (table.count - index)) index
        (newEntry32 image rtlEncodeSystemPointer imageBase sizeOfImage)
      count := table.count + 1 }

def PlainTable32.drop (table : PlainTable32) (index : Nat) : PlainTable32 :=
  if index ≠ table.count then
    { table with
      entries := moveRange table.entries index (index + 1) (table.count - index - 1)
      count := table.count - 1 }
  else table

def PlainTable32.clearOverflow (table : PlainTable32) : PlainTable32 :=
  if table.count ≠ table.maxCount then { table with overflow := 0 } else table

/-- The deletion that the unshifted layout performs. -/
def plainRemove (table : PlainTable32) (imageBase : Nat) : PlainTable32 :=
  (table.drop (scan (fun k => decide ((table.entries k).imageBase = imageBase))
    table.count 0)).clearOverflow

/-- Two tables with the same header and the same live entries. -/
structure PlainTable32.Same (a b : PlainTable32) : Prop where
  count : a.count = b.count
  maxCount : a.maxCount = b.maxCount
  overflow : a.overflow = b.overflow
  live : a.live = b.live

theorem PlainTable32.Same.clearOverflow {a b : PlainTable32} (h : a.Same b) :
    a.clearOverflow.Same b.clearOverflow := by
  obtain ⟨hcount, hmax, hoverflow, hlive⟩ := h
  unfold PlainTable32.clearOverflow
  by_cases hroom : a.count ≠ a.maxCount
  · rw [if_pos hroom, if_pos (by rwa [← hcount, ← hmax])]
    exact ⟨hcount, hmax, rfl, hlive⟩
  · rw [if_neg hroom, if_neg (by rwa [← hcount, ← hmax])]
    exact ⟨hcount, hmax, hoverflow, hlive⟩

section PreWindows8

variable {nt : NtVersions} (hnt : isWin8OrGreater nt = false)
  {image : Nat → ImageExceptionView} {rtlEncodeSystemPointer : Nat → Nat} (table : Table32)
  (imageBase : Nat)

include hnt

theorem imageBaseAt_eq : imageBaseAt nt = entryAt := by
  funext k
  rw [imageBaseAt, if_neg (by simp [hnt])]

theorem insertIndex32_eq :
    insertIndex32 nt table imageBase =
      scan (fun k => decide (imageBase < (logicalEntry table k).imageBase)) (table countAt) 0 := by
  unfold insertIndex32
  rw [imageBaseAt_eq hnt, if_neg (by simp [hnt])]
  rfl

theorem removeIndex32_eq :
    removeIndex32 nt table imageBase =
      scan (fun k => decide ((logicalEntry table k).imageBase = imageBase)) (table countAt) 0 := by
  unfold removeIndex32
  rw [imageBaseAt_eq hnt]
  rfl

theorem insert32_eq (sizeOfImage : Nat) (hroom : table countAt ≠ table maxCountAt) :
    let index := insertIndex32 nt table imageBase
    rtlpInsertInvertedFunctionTable32 nt image rtlEncodeSystemPointer table imageBase sizeOfImage =
      let moved := moveRange table (3 + 4 * (index + 1)) (3 + 4 * index)
        ((table countAt - index) * entrySize)
      let captured := rtlCaptureImageExceptionValues (image imageBase)
      let stored := storeRecord moved index (rtlEncodeSystemPointer captured.1) imageBase
        sizeOfImage captured.2
      Function.update stored countAt (stored countAt + 1) := by
  intro index
  have hb := scan_bounds (fun k => decide (imageBase < (logicalEntry table k).imageBase))
    (table countAt) 0
  rw [← insertIndex32_eq hnt] at hb
  have hdst : entryAt index + 3 = 3 + 4 * (index + 1) := by
    unfold entryAt
    omega
  have hmoved : (if index ≠ table countAt then
      moveRange table (entryAt index + 3) (handlerTableAt index)
        ((table countAt - index) * entrySize) else table) =
      moveRange table (3 + 4 * (index + 1)) (3 + 4 * index)
        ((table countAt - index) * entrySize) := by
    split
    · rw [hdst, handlerTableAt_eq]
    · rename_i hend
      have hnone : (table countAt - index) * entrySize = 0 := by
        have hzero : table countAt - index = 0 := by omega
        rw [hzero, Nat.zero_mul]
      rw [hnone, moveRange_zero]
  simp only [rtlpInsertInvertedFunctionTable32, if_neg hroom, hnt, Bool.false_eq_true, if_false]
  rw [hmoved]

/-- On the logical array the shifted insertion is the plain one, entry for
entry. -/
theorem insert32_plain (sizeOfImage : Nat) :
    plainTableOf (rtlpInsertInvertedFunctionTable32 nt image rtlEncodeSystemPointer table
        imageBase sizeOfImage) =
      plainInsert image rtlEncodeSystemPointer (plainTableOf table) imageBase sizeOfImage := by
  by_cases hroom : table countAt = table maxCountAt
  · have hfull : (plainTableOf table).count = (plainTableOf table).maxCount := hroom
    simp only [rtlpInsertInvertedFunctionTable32, if_pos hroom, hnt, Bool.false_eq_true, if_false,
      plainInsert, if_pos hfull]
    unfold plainTableOf
    rw [logicalEntry_update_header table (by decide)]
    rfl
  · have hplain : (plainTableOf table).count ≠ (plainTableOf table).maxCount := hroom
    have hindex : scan (fun k => decide (imageBase < ((plainTableOf table).entries k).imageBase))
        (plainTableOf table).count 0 = insertIndex32 nt table imageBase :=
      (insertIndex32_eq hnt table imageBase).symm
    rw [insert32_eq hnt table imageBase sizeOfImage hroom, plainInsert, if_neg hplain, hindex]
    ext1
    · dsimp only [plainTableOf]
      rw [Function.update_self, storeRecord_below _ _ _ _ _ _ (by unfold countAt; omega),
        moveRange_below _ (by unfold countAt; omega)]
    · dsimp only [plainTableOf]
      rw [Function.update_of_ne (by decide),
        storeRecord_below _ _ _ _ _ _ (by unfold maxCountAt; omega),
        moveRange_below _ (by unfold maxCountAt; omega)]
    · dsimp only [plainTableOf]
      rw [Function.update_of_ne (by decide),
        storeRecord_below _ _ _ _ _ _ (by unfold overflowAt; omega),
        moveRange_below _ (by unfold overflowAt; omega)]
    · dsimp only [plainTableOf]
      rw [logicalEntry_update_header _ (by decide), logicalEntry_storeRecord,
        logicalEntry_moveRange]
      rfl

theorem clearOverflow32_plain :
    plainTableOf (clearOverflow32 nt table) = (plainTableOf table).clearOverflow := by
  have hcond : (plainTableOf table).count ≠ (plainTableOf table).maxCount ↔
      table countAt ≠ table maxCountAt := Iff.rfl
  unfold clearOverflow32 PlainTable32.clearOverflow
  by_cases hroom : table countAt ≠ table maxCountAt
  · rw [if_pos hroom, if_neg (by simp [hnt]), if_pos (hcond.mpr hroom)]
    unfold plainTableOf
    rw [logicalEntry_update_header table (by decide)]
    rfl
  · rw [if_neg hroom, if_neg (fun h => hroom (hcond.mp h))]

/-- Up to the dead entry that the longer move drags along, closing the gap in
the shifted layout closes it in the logical array. -/
theorem dropEntry32_plain (index : Nat) (hindex : index ≤ table countAt) :
    (plainTableOf (dropEntry32 nt table index)).Same ((plainTableOf table).drop index) := by
  by_cases hend : index = table countAt
  · have hplain : index = (plainTableOf table).count := hend
    rw [dropEntry32, if_neg (by simpa using hend), PlainTable32.drop,
      if_neg (by simpa using hplain)]
    exact ⟨rfl, rfl, rfl, rfl⟩
  · have hplain : index ≠ (plainTableOf table).count := hend
    have hfound : index < table countAt := by omega
    have hsrc : entryAt index + 3 = 3 + 4 * (index + 1) := by
      unfold entryAt
      omega
    have hlive (len : Nat) (hlen : table countAt - index - 1 ≤ len) :
        segment (moveRange (logicalEntry table) index (index + 1) len) 0 (table countAt - 1) =
          segment (logicalEntry table) 0 index ++
            segment (logicalEntry table) (index + 1) (table countAt) :=
      segment_remove _ (Nat.zero_le index) hfound hlen
    have hdrop : (plainTableOf table).drop index =
        ⟨table countAt - 1, table maxCountAt, table overflowAt,
          moveRange (logicalEntry table) index (index + 1) (table countAt - index - 1)⟩ := by
      rw [PlainTable32.drop, if_pos hplain]
      rfl
    rw [hdrop, dropEntry32, if_pos hend, hnt, hsrc, handlerTableAt_eq]
    by_cases hone : table countAt = 1
    · rw [if_neg (by simpa using hone)]
      refine ⟨?_, ?_, ?_, ?_⟩
      · dsimp only [plainTableOf]
        rw [Function.update_self]
      · dsimp only [plainTableOf]
        rw [Function.update_of_ne (by decide)]
      · dsimp only [plainTableOf]
        rw [Function.update_of_ne (by decide)]
      · unfold PlainTable32.live plainTableOf
        dsimp only
        rw [Function.update_self, hone, segment_of_le _ (by omega), segment_of_le _ (by omega)]
    · rw [if_pos hone, if_neg (by decide)]
      refine ⟨?_, ?_, ?_, ?_⟩
      · dsimp only [plainTableOf]
        rw [Function.update_self, moveRange_below _ (by unfold countAt; omega)]
      · dsimp only [plainTableOf]
        rw [Function.update_of_ne (by decide), moveRange_below _ (by unfold maxCountAt; omega)]
      · dsimp only [plainTableOf]
        rw [Function.update_of_ne (by decide), moveRange_below _ (by unfold overflowAt; omega)]
      · unfold PlainTable32.live plainTableOf
        dsimp only
        rw [Function.update_self, logicalEntry_update_header _ (by decide), logicalEntry_moveRange,
          moveRange_below _ (by unfold countAt; omega), hlive _ (by omega), hlive _ (by omega)]

/-- The shifted deletion leaves the header and the live entries that the plain
one leaves. -/
theorem remove32_plain :
    (plainTableOf (rtlpRemoveInvertedFunctionTable32 nt table imageBase)).Same
      (plainRemove (plainTableOf table) imageBase) := by
  have hindex : scan (fun k => decide (((plainTableOf table).entries k).imageBase = imageBase))
      (plainTableOf table).count 0 = removeIndex32 nt table imageBase :=
    (removeIndex32_eq hnt table imageBase).symm
  have hb := scan_bounds (fun k => decide ((logicalEntry table k).imageBase = imageBase))
    (table countAt) 0
  rw [← removeIndex32_eq hnt] at hb
  rw [plainRemove, hindex, rtlpRemoveInvertedFunctionTable32, clearOverflow32_plain hnt]
  exact (dropEntry32_plain hnt table _ (by omega)).clearOverflow

end PreWindows8

/-- The plain insertion into a table with room is the ordered insertion. -/
theorem plainInsert_live (image : Nat → ImageExceptionView) (rtlEncodeSystemPointer : Nat → Nat)
    (table : PlainTable32) (imageBase sizeOfImage : Nat) (hroom : table.count < table.maxCount) :
    (plainInsert image rtlEncodeSystemPointer table imageBase sizeOfImage).live =
      insertAscending Entry32.imageBase
        (newEntry32 image rtlEncodeSystemPointer imageBase sizeOfImage) table.live := by
  rw [plainInsert, if_neg hroom.ne]
  exact segment_insert_scan Entry32.imageBase table.entries (Nat.zero_le table.count)
    (newEntry32 image rtlEncodeSystemPointer imageBase sizeOfImage)

/-- The plain deletion deletes the entry of the image, if there is one. -/
theorem plainRemove_live (table : PlainTable32) (imageBase : Nat) :
    (plainRemove table imageBase).live = removeKey Entry32.imageBase imageBase table.live := by
  have hb := scan_bounds (fun k => decide ((table.entries k).imageBase = imageBase)) table.count 0
  have hclear (t : PlainTable32) : t.clearOverflow.live = t.live := by
    unfold PlainTable32.clearOverflow
    split <;> rfl
  rw [plainRemove, hclear, PlainTable32.drop]
  split
  · exact segment_remove_scan (s := 0) (n := table.count) Entry32.imageBase table.entries
      imageBase (by rw [Nat.sub_zero]; omega) (by rw [Nat.sub_zero])
  · exact (removeKey_of_scan_end (s := 0) (n := table.count) Entry32.imageBase table.entries
      imageBase (by rw [Nat.sub_zero]; omega)).symm

/-- The shifted 32-bit layout refines the plain one: insertion and deletion
are the plain layout's on the logical array, that is the sorted insertion and
the deletion on its live entries, each with its own handler table. -/
theorem shifted_layout_refines_plain (nt : NtVersions) (hnt : isWin8OrGreater nt = false)
    (image : Nat → ImageExceptionView) (rtlEncodeSystemPointer : Nat → Nat) (table : Table32)
    (hroom : table countAt < table maxCountAt)
    (hascending : Ascending Entry32.imageBase (logicalEntries table)) :
    (∀ imageBase sizeOfImage,
      let inserted := rtlpInsertInvertedFunctionTable32 nt image rtlEncodeSystemPointer table
        imageBase sizeOfImage
      plainTableOf inserted =
          plainInsert image rtlEncodeSystemPointer (plainTableOf table) imageBase sizeOfImage ∧
        logicalEntries inserted = insertAscending Entry32.imageBase
          (newEntry32 image rtlEncodeSystemPointer imageBase sizeOfImage) (logicalEntries table) ∧
        ((∀ e ∈ logicalEntries table, e.imageBase ≠ imageBase) →
          Ascending Entry32.imageBase (logicalEntries inserted))) ∧
    (∀ imageBase,
      let removed := rtlpRemoveInvertedFunctionTable32 nt table imageBase
      (plainTableOf removed).Same (plainRemove (plainTableOf table) imageBase) ∧
        logicalEntries removed =
          removeKey Entry32.imageBase imageBase (logicalEntries table) ∧
        Ascending Entry32.imageBase (logicalEntries removed)) := by
  constructor
  · intro imageBase sizeOfImage inserted
    have hplain : plainTableOf inserted =
        plainInsert image rtlEncodeSystemPointer (plainTableOf table) imageBase sizeOfImage :=
      insert32_plain hnt table imageBase sizeOfImage
    have hlive : logicalEntries inserted = insertAscending Entry32.imageBase
        (newEntry32 image rtlEncodeSystemPointer imageBase sizeOfImage)
        (logicalEntries table) := by
      have h := plainInsert_live image rtlEncodeSystemPointer (plainTableOf table) imageBase
        sizeOfImage hroom
      rw [← hplain] at h
      exact h
    refine ⟨hplain, hlive, ?_⟩
    intro hfresh
    rw [hlive]
    exact ascending_insertAscending _ hascending hfresh
  · intro imageBase removed
    have hsame := remove32_plain hnt table imageBase
    have hlive : logicalEntries removed =
        removeKey Entry32.imageBase imageBase (logicalEntries table) :=
      hsame.live.trans (plainRemove_live (plainTableOf table) imageBase)
    refine ⟨hsame, hlive, ?_⟩
    rw [hlive]
    exact ascending_removeKey _ hascending

/-- Windows 7 with two images: a third goes between them. -/
theorem shifted_layout_refines_plain_win7 :
    let table : Table32 := fun word => [2, 4, 0, 0x71, 0x1000, 0x100, 1, 0x75,
      0x5000, 0x200, 2, 0].getD word 0
    let image : Nat → ImageExceptionView := fun _ => ⟨false, 0x40, some (0x48, 0x73, 3), none⟩
    logicalEntries (rtlpInsertInvertedFunctionTable32 ⟨6, 1, 7601⟩ image id table 0x3000 0x300) =
      [⟨0x71, 0x1000, 0x100, 1⟩, ⟨0x73, 0x3000, 0x300, 3⟩, ⟨0x75, 0x5000, 0x200, 2⟩] := by
  intro table image
  have h := (shifted_layout_refines_plain ⟨6, 1, 7601⟩ (by decide) image id table (by decide)
    (by unfold Ascending; decide)).1 0x3000 0x300
  rw [h.2.1]
  decide

end WinPolyfillLoader.InvertedFunctionTable
