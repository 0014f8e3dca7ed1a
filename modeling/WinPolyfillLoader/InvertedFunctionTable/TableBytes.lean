import WinPolyfillLoader.InvertedFunctionTable.Layout32
import WinPolyfillLoader.InvertedFunctionTable.Layout64
import WinPolyfillLoader.Library.Memory

/-!
The removal from the inverted function table byte by byte, with the ranges it
reads and writes, on the three layouts: the 64-bit one, and the 32-bit one from
Windows 8 on and before. Addresses are relative to the table.
-/

namespace WinPolyfillLoader.InvertedFunctionTable

open ByteMemory CountedArray

/-- The bytes around the table, and the ranges that were read and written. A
range is an offset and a length. -/
structure TableBytes where
  bytes : Bytes
  reads : List (Nat × Nat)
  writes : List (Nat × Nat)

namespace TableBytes

def value (t : TableBytes) (field : Nat × Nat) : Nat := readLE t.bytes field.1 field.2

def read (field : Nat × Nat) (t : TableBytes) : TableBytes :=
  { t with reads := t.reads ++ [field] }

def write (field : Nat × Nat) (v : Nat) (t : TableBytes) : TableBytes :=
  { t with bytes := writeLE t.bytes field.1 field.2 v, writes := t.writes ++ [field] }

/-- `RtlMoveMemory`. -/
def move (dst src length : Nat) (t : TableBytes) : TableBytes where
  bytes := blit t.bytes dst t.bytes src length
  reads := t.reads ++ [(src, length)]
  writes := t.writes ++ [(dst, length)]

end TableBytes

/-- `sizeof(RTL_INVERTED_FUNCTION_TABLE_ENTRY)`; `win64` says whether `_WIN64`
is defined. -/
def sizeofEntry (win64 : Bool) : Nat := if win64 then 24 else 16

/-- `&InvertedTable->Entries[k]`. -/
def entryOffset (win64 : Bool) (k : Nat) : Nat := 16 + k * sizeofEntry win64

/-- `sizeof(RTL_INVERTED_FUNCTION_TABLE)`: the header and `Entries[0x200]`. -/
def sizeofTable (win64 : Bool) : Nat := entryOffset win64 0x200

def countField : Nat × Nat := (0, 4)
def maxCountField : Nat × Nat := (4, 4)

/-- `Overflow` of the 64-bit structure or of the Windows 7 one. -/
def overflowField (nt : NtVersions) : Nat × Nat := if isWin8OrGreater nt then (12, 4) else (8, 4)

/-- `ImageBase` of the 64-bit entry follows a pointer; that of the Windows 7
entry comes first. -/
def imageBaseField (win64 : Bool) (nt : NtVersions) (k : Nat) : Nat × Nat :=
  if win64 then (entryOffset win64 k + 8, 8)
  else if isWin8OrGreater nt then (entryOffset win64 k + 4, 4)
  else (entryOffset win64 k, 4)

/-- The encoded handler table in front of entry `index`. -/
def handlerTableOffset (index : Nat) : Nat :=
  if index ≠ 0 then entryOffset false (index - 1) + 12 else 12

/-- Destination, source and length of the move. -/
def removalMove (win64 : Bool) (nt : NtVersions) (currentSize index : Nat) : Nat × Nat × Nat :=
  if win64 then
    (entryOffset win64 index, entryOffset win64 (index + 1),
      (currentSize - index - 1) * sizeofEntry win64)
  else if isWin8OrGreater nt then
    (entryOffset win64 index, entryOffset win64 (index + 1),
      (currentSize - index) * sizeofEntry win64)
  else
    (handlerTableOffset index, entryOffset win64 index + 12,
      (currentSize - index) * sizeofEntry win64)

/-- The search loop: the index and the run so far. -/
def searchBytes (win64 : Bool) (nt : NtVersions) (imageBase : Nat) :
    Nat → Nat → TableBytes → Nat × TableBytes
  | 0, index, t => (index, t)
  | fuel + 1, index, t =>
    let t' := t.read (imageBaseField win64 nt index)
    if t.value (imageBaseField win64 nt index) = imageBase then (index, t')
    else searchBytes win64 nt imageBase fuel (index + 1) t'

/-- The part of the removal that takes out entry `index`. -/
def dropBytes (win64 : Bool) (nt : NtVersions) (currentSize index : Nat) (t : TableBytes) :
    TableBytes :=
  if index ≠ currentSize then
    let t :=
      if currentSize ≠ 1 then
        match removalMove win64 nt currentSize index with
        | (dst, src, length) => t.move dst src length
      else t
    (t.read countField).write countField (t.value countField - 1)
  else t

def clearOverflowBytes (nt : NtVersions) (t : TableBytes) : TableBytes :=
  let t := (t.read countField).read maxCountField
  if t.value countField ≠ t.value maxCountField then t.write (overflowField nt) 0 else t

/-- `RtlpRemoveInvertedFunctionTable`. -/
def removeBytes (win64 : Bool) (nt : NtVersions) (imageBase : Nat) (t : TableBytes) : TableBytes :=
  let currentSize := t.value countField
  match searchBytes win64 nt imageBase currentSize 0 (t.read countField) with
  | (index, t) => clearOverflowBytes nt (dropBytes win64 nt currentSize index t)

/-- The search reads fields only, and it is the search of the other models. -/
theorem searchBytes_eq (win64 : Bool) (nt : NtVersions) (imageBase fuel index : Nat)
    (t : TableBytes) :
    ∃ visited, searchBytes win64 nt imageBase fuel index t =
        (scan (fun k => decide (t.value (imageBaseField win64 nt k) = imageBase)) fuel index,
          { t with reads := t.reads ++ visited }) ∧
      ∀ r ∈ visited, ∃ k, index ≤ k ∧ k < index + fuel ∧ r = imageBaseField win64 nt k := by
  induction fuel generalizing index t with
  | zero => exact ⟨[], by rw [searchBytes, scan, List.append_nil], fun r hr => by cases hr⟩
  | succ fuel ih =>
    by_cases hmatch : t.value (imageBaseField win64 nt index) = imageBase
    · refine ⟨[imageBaseField win64 nt index], ?_, ?_⟩
      · rw [searchBytes, scan, if_pos hmatch, if_pos (decide_eq_true hmatch)]
        rfl
      · intro r hr
        exact ⟨index, Nat.le_refl _, by omega, List.mem_singleton.mp hr⟩
    · obtain ⟨visited, hrun, hvisited⟩ := ih (index + 1) (t.read (imageBaseField win64 nt index))
      refine ⟨imageBaseField win64 nt index :: visited, ?_, ?_⟩
      · rw [searchBytes, scan, if_neg hmatch, if_neg (by simpa using hmatch), hrun]
        simp only [TableBytes.read, TableBytes.value, List.append_assoc, List.singleton_append]
        rfl
      · intro r hr
        rcases List.mem_cons.mp hr with rfl | hr
        · exact ⟨index, Nat.le_refl _, by omega, rfl⟩
        · obtain ⟨k, hk, hlt, rfl⟩ := hvisited r hr
          exact ⟨k, by omega, by omega, rfl⟩

/-- The index that the search of the removal ends at. -/
def removeIndex (win64 : Bool) (nt : NtVersions) (m : Bytes) (imageBase : Nat) : Nat :=
  scan (fun k => decide (readLE m (imageBaseField win64 nt k).1 (imageBaseField win64 nt k).2 =
    imageBase)) (readLE m 0 4) 0

/-- No entry in use has the base. -/
def Unregistered (win64 : Bool) (nt : NtVersions) (m : Bytes) (imageBase : Nat) : Prop :=
  ∀ k, k < readLE m 0 4 →
    readLE m (imageBaseField win64 nt k).1 (imageBaseField win64 nt k).2 ≠ imageBase

theorem removeIndex_le (win64 : Bool) (nt : NtVersions) (m : Bytes) (imageBase : Nat) :
    removeIndex win64 nt m imageBase ≤ readLE m 0 4 := by
  have hb := scan_bounds (fun k => decide (readLE m (imageBaseField win64 nt k).1
    (imageBaseField win64 nt k).2 = imageBase)) (readLE m 0 4) 0
  unfold removeIndex
  omega

theorem removeIndex_eq_count {win64 : Bool} {nt : NtVersions} {m : Bytes} {imageBase : Nat} :
    removeIndex win64 nt m imageBase = readLE m 0 4 ↔ Unregistered win64 nt m imageBase := by
  have hle := removeIndex_le win64 nt m imageBase
  constructor
  · intro hend k hk
    have hbefore := scan_before (fun k => decide (readLE m (imageBaseField win64 nt k).1
      (imageBaseField win64 nt k).2 = imageBase)) (readLE m 0 4) 0 k (Nat.zero_le k)
      (hend.symm ▸ hk : k < removeIndex win64 nt m imageBase)
    exact of_decide_eq_false hbefore
  · intro hnone
    by_contra hne
    have hlt : removeIndex win64 nt m imageBase < readLE m 0 4 := by omega
    have hstop := scan_stop (fun k => decide (readLE m (imageBaseField win64 nt k).1
      (imageBaseField win64 nt k).2 = imageBase)) (readLE m 0 4) 0
      (Nat.lt_of_lt_of_eq hlt (Nat.zero_add _).symm)
    exact hnone _ hlt (of_decide_eq_true hstop)

/-- The move of the removal, if there is one. -/
def movedRanges (win64 : Bool) (nt : NtVersions) (currentSize index : Nat) :
    List (Nat × Nat × Nat) :=
  if index ≠ currentSize ∧ currentSize ≠ 1 then [removalMove win64 nt currentSize index] else []

theorem dropBytes_ranges (win64 : Bool) (nt : NtVersions) (currentSize index : Nat)
    (t : TableBytes) :
    (dropBytes win64 nt currentSize index t).reads =
        t.reads ++ (movedRanges win64 nt currentSize index).map Prod.snd ++
          (if index ≠ currentSize then [countField] else []) ∧
      (dropBytes win64 nt currentSize index t).writes =
        t.writes ++ (movedRanges win64 nt currentSize index).map (fun mv => (mv.1, mv.2.2)) ++
          (if index ≠ currentSize then [countField] else []) := by
  unfold dropBytes movedRanges
  by_cases hfound : index ≠ currentSize
  · by_cases hone : currentSize ≠ 1
    · rw [if_pos hfound, if_pos hone, if_pos ⟨hfound, hone⟩, if_pos hfound]
      exact ⟨rfl, rfl⟩
    · rw [if_pos hfound, if_neg hone, if_neg (fun h => hone h.2), if_pos hfound]
      simp [TableBytes.read, TableBytes.write]
  · rw [if_neg hfound, if_neg (fun h => hfound h.1), if_neg hfound]
    simp

theorem clearOverflowBytes_ranges (nt : NtVersions) (t : TableBytes) :
    (clearOverflowBytes nt t).reads = t.reads ++ [countField, maxCountField] ∧
      ((clearOverflowBytes nt t).writes = t.writes ∨
        (clearOverflowBytes nt t).writes = t.writes ++ [overflowField nt]) := by
  unfold clearOverflowBytes
  dsimp only
  split
  · exact ⟨by simp [TableBytes.read, TableBytes.write], Or.inr rfl⟩
  · exact ⟨by simp [TableBytes.read], Or.inl rfl⟩

/-- The table of the 64-bit model in these bytes. -/
def table64Of (m : Bytes) : Table64 where
  count := readLE m 0 4
  maxCount := readLE m 4 4
  epoch := readLE m 8 4
  overflow := readLE m 12 4
  entries := fun k =>
    ⟨readLE m (16 + k * 24) 8, readLE m (16 + k * 24 + 8) 8, readLE m (16 + k * 24 + 16) 4,
      readLE m (16 + k * 24 + 20) 4⟩

/-- The table of the 32-bit model in these bytes. -/
def table32Of (m : Bytes) : Table32 := fun word => readLE m (4 * word) 4

theorem readLE_blit_inside (m : Bytes) {dst src length a n : Nat} (ha : dst ≤ a)
    (hn : a + n ≤ dst + length) : readLE (blit m dst m src length) a n =
      readLE m (a - dst + src) n := by
  apply readLE_eq
  intro j hj
  rw [blit_inside m (by omega) (by omega)]
  congr 1
  omega

theorem readLE_blit_outside (m : Bytes) {dst src length a n : Nat}
    (h : a + n ≤ dst ∨ dst + length ≤ a) : readLE (blit m dst m src length) a n = readLE m a n := by
  apply readLE_congr
  intro k hk hkn
  exact blit_outside m (by omega)

theorem table64Of_blit (m : Bytes) (dst src length : Nat) :
    table64Of (blit m (16 + dst * 24) m (16 + src * 24) (length * 24)) =
      { table64Of m with entries := moveRange (table64Of m).entries dst src length } := by
  have hheader : ∀ a n, a + n ≤ 16 →
      readLE (blit m (16 + dst * 24) m (16 + src * 24) (length * 24)) a n = readLE m a n :=
    fun a n h => readLE_blit_outside m (Or.inl (by omega))
  have hfield : ∀ k d n, d + n ≤ 24 →
      readLE (blit m (16 + dst * 24) m (16 + src * 24) (length * 24)) (16 + k * 24 + d) n =
        if dst ≤ k ∧ k < dst + length then readLE m (16 + (k - dst + src) * 24 + d) n
        else readLE m (16 + k * 24 + d) n := by
    intro k d n hd
    by_cases hin : dst ≤ k ∧ k < dst + length
    · rw [if_pos hin, readLE_blit_inside m (by omega) (by omega)]
      congr 1
      omega
    · rw [if_neg hin, readLE_blit_outside m (by omega)]
  have hentries : (table64Of (blit m (16 + dst * 24) m (16 + src * 24) (length * 24))).entries =
      moveRange (table64Of m).entries dst src length := by
    funext k
    have h0 := hfield k 0 8 (by omega)
    have h8 := hfield k 8 8 (by omega)
    have h16 := hfield k 16 4 (by omega)
    have h20 := hfield k 20 4 (by omega)
    simp only [Nat.add_zero] at h0
    simp only [table64Of, moveRange, h0, h8, h16, h20]
    split
    · rfl
    · rfl
  have h0 := hheader 0 4 (by omega)
  have h4 := hheader 4 4 (by omega)
  have h8 := hheader 8 4 (by omega)
  have h12 := hheader 12 4 (by omega)
  rw [← hentries]
  simp only [table64Of, h0, h4, h8, h12]

theorem table32Of_blit (m : Bytes) (dst src length : Nat) :
    table32Of (blit m (4 * dst) m (4 * src) (4 * length)) =
      moveRange (table32Of m) dst src length := by
  funext word
  unfold table32Of moveRange
  by_cases hin : dst ≤ word ∧ word < dst + length
  · rw [if_pos hin, readLE_blit_inside m (by omega) (by omega)]
    congr 1
    omega
  · rw [if_neg hin, readLE_blit_outside m (by omega)]

theorem table32Of_writeLE (m : Bytes) (word v : Nat) :
    table32Of (writeLE m (4 * word) 4 v) = Function.update (table32Of m) word (v % 256 ^ 4) := by
  funext w
  rcases eq_or_ne w word with rfl | hne
  · rw [Function.update_self]
    exact readLE_writeLE m _ _ _
  · rw [Function.update_of_ne hne]
    exact readLE_writeLE_disjoint m (by omega)

theorem table64Of_writeLE (m : Bytes) {a : Nat} (v : Nat) (ha : a + 4 ≤ 16) :
    (table64Of (writeLE m a 4 v)).entries = (table64Of m).entries := by
  funext k
  have hfield : ∀ d n, readLE (writeLE m a 4 v) (16 + k * 24 + d) n =
      readLE m (16 + k * 24 + d) n := fun d n => readLE_writeLE_disjoint m (by omega)
  have h0 := hfield 0 8
  simp only [Nat.add_zero] at h0
  simp only [table64Of, h0, hfield 8 8, hfield 16 4, hfield 20 4]

theorem table64Of_setCount (m : Bytes) (v : Nat) :
    table64Of (writeLE m 0 4 v) = { table64Of m with count := v % 256 ^ 4 } := by
  have hcount : readLE (writeLE m 0 4 v) 0 4 = v % 256 ^ 4 := readLE_writeLE m 0 4 v
  have hmax : readLE (writeLE m 0 4 v) 4 4 = readLE m 4 4 := readLE_writeLE_disjoint m (by omega)
  have hepoch : readLE (writeLE m 0 4 v) 8 4 = readLE m 8 4 := readLE_writeLE_disjoint m (by omega)
  have hover : readLE (writeLE m 0 4 v) 12 4 = readLE m 12 4 := readLE_writeLE_disjoint m (by omega)
  dsimp only
  rw [← table64Of_writeLE m v (by omega : 0 + 4 ≤ 16)]
  simp only [table64Of, hcount, hmax, hepoch, hover]

theorem table64Of_clear (nt : NtVersions) (m : Bytes) :
    table64Of (writeLE m (overflowField nt).1 (overflowField nt).2 0) =
      if isWin8OrGreater nt then { table64Of m with overflow := 0 }
      else { table64Of m with epoch := 0 } := by
  have hzero : ∀ a, readLE (writeLE m a 4 0) a 4 = 0 := fun a => readLE_writeLE m a 4 0
  have hother : ∀ a b, b + 4 ≤ a ∨ a + 4 ≤ b → readLE (writeLE m a 4 0) b 4 = readLE m b 4 :=
    fun a b h => readLE_writeLE_disjoint m h
  unfold overflowField
  dsimp only
  split
  · rw [← table64Of_writeLE m 0 (by omega : 12 + 4 ≤ 16)]
    simp only [table64Of, hzero, hother 12 0 (by omega), hother 12 4 (by omega),
      hother 12 8 (by omega)]
  · rw [← table64Of_writeLE m 0 (by omega : 8 + 4 ≤ 16)]
    simp only [table64Of, hzero, hother 8 0 (by omega), hother 8 4 (by omega),
      hother 8 12 (by omega)]

theorem dropBytes_table64 (nt : NtVersions) (index : Nat) (t : TableBytes) :
    table64Of (dropBytes true nt (readLE t.bytes 0 4) index t).bytes =
      dropEntry64 (table64Of t.bytes) index := by
  have hlt := readLE_lt t.bytes 0 4
  have hcount : (table64Of t.bytes).count = readLE t.bytes 0 4 := rfl
  unfold dropBytes dropEntry64
  rw [hcount]
  by_cases hfound : index ≠ readLE t.bytes 0 4
  · have hdown : (readLE t.bytes 0 4 - 1) % 256 ^ 4 = readLE t.bytes 0 4 - 1 := by omega
    rw [if_pos hfound, if_pos hfound]
    by_cases hone : readLE t.bytes 0 4 ≠ 1
    · have hkept : readLE (blit t.bytes (16 + index * 24) t.bytes (16 + (index + 1) * 24)
          ((readLE t.bytes 0 4 - index - 1) * 24)) 0 4 = readLE t.bytes 0 4 :=
        readLE_blit_outside _ (Or.inl (by omega))
      rw [if_pos hone, if_pos hone]
      change table64Of (writeLE (blit t.bytes (16 + index * 24) t.bytes (16 + (index + 1) * 24)
        ((readLE t.bytes 0 4 - index - 1) * 24)) 0 4 (readLE (blit t.bytes (16 + index * 24) t.bytes
          (16 + (index + 1) * 24) ((readLE t.bytes 0 4 - index - 1) * 24)) 0 4 - 1)) = _
      rw [hkept, table64Of_setCount, table64Of_blit, hdown]
    · rw [if_neg hone, if_neg hone]
      change table64Of (writeLE t.bytes 0 4 (readLE t.bytes 0 4 - 1)) = _
      rw [table64Of_setCount, hdown]
  · rw [if_neg hfound, if_neg hfound]

theorem clearOverflowBytes_table64 (nt : NtVersions) (t : TableBytes) :
    table64Of (clearOverflowBytes nt t).bytes = clearOverflow64 nt (table64Of t.bytes) := by
  unfold clearOverflowBytes clearOverflow64
  have hroom : (((t.read countField).read maxCountField).value countField ≠
      ((t.read countField).read maxCountField).value maxCountField) =
      ((table64Of t.bytes).count ≠ (table64Of t.bytes).maxCount) := rfl
  simp only [hroom]
  by_cases h : (table64Of t.bytes).count ≠ (table64Of t.bytes).maxCount
  · rw [if_pos h, if_pos h]
    exact table64Of_clear nt t.bytes
  · rw [if_neg h, if_neg h]
    rfl

theorem table32Of_setCount (m : Bytes) :
    table32Of (writeLE m 0 4 (readLE m 0 4 - 1)) =
      Function.update (table32Of m) countAt (table32Of m countAt - 1) := by
  have hlt := readLE_lt m 0 4
  have hdown : (readLE m 0 4 - 1) % 256 ^ 4 = readLE m 0 4 - 1 := by omega
  have hwrite := table32Of_writeLE m 0 (readLE m 0 4 - 1)
  rw [hdown] at hwrite
  exact hwrite

theorem entryOffset_words (index : Nat) : entryOffset false index = 4 * entryAt index := by
  unfold entryOffset sizeofEntry entryAt
  simp only [Bool.false_eq_true, if_false]
  omega

theorem handlerTableOffset_words (index : Nat) :
    handlerTableOffset index = 4 * handlerTableAt index := by
  unfold handlerTableOffset entryOffset sizeofEntry handlerTableAt entryAt nextEntryAt
  simp only [Bool.false_eq_true, if_false]
  split <;> omega

theorem sizeofEntry_words (entries : Nat) :
    entries * sizeofEntry false = 4 * (entries * entrySize) := by
  unfold sizeofEntry entrySize
  simp only [Bool.false_eq_true, if_false]
  omega

theorem dropBytes_table32 (nt : NtVersions) (index : Nat) (t : TableBytes) :
    table32Of (dropBytes false nt (readLE t.bytes 0 4) index t).bytes =
      dropEntry32 nt (table32Of t.bytes) index := by
  have hcount : table32Of t.bytes countAt = readLE t.bytes 0 4 := rfl
  unfold dropBytes dropEntry32
  rw [hcount]
  dsimp only
  by_cases hfound : index ≠ readLE t.bytes 0 4
  · rw [if_pos hfound, if_pos hfound]
    by_cases hone : readLE t.bytes 0 4 ≠ 1
    · rw [if_pos hone, if_pos hone]
      cases hnt : isWin8OrGreater nt with
      | true =>
        simp only [removalMove, hnt, Bool.false_eq_true, if_false, if_true, entryOffset_words,
          sizeofEntry_words]
        rw [← table32Of_blit]
        exact table32Of_setCount _
      | false =>
        have hsrc : entryOffset false index + 12 = 4 * (entryAt index + 3) := by
          rw [entryOffset_words]
          omega
        simp only [removalMove, hnt, Bool.false_eq_true, if_false, handlerTableOffset_words, hsrc,
          sizeofEntry_words]
        rw [← table32Of_blit]
        exact table32Of_setCount _
    · rw [if_neg hone, if_neg hone]
      exact table32Of_setCount t.bytes
  · rw [if_neg hfound, if_neg hfound]

theorem clearOverflowBytes_table32 (nt : NtVersions) (t : TableBytes) :
    table32Of (clearOverflowBytes nt t).bytes = clearOverflow32 nt (table32Of t.bytes) := by
  unfold clearOverflowBytes clearOverflow32
  have hroom : (((t.read countField).read maxCountField).value countField ≠
      ((t.read countField).read maxCountField).value maxCountField) =
      (table32Of t.bytes countAt ≠ table32Of t.bytes maxCountAt) := rfl
  simp only [hroom]
  by_cases h : table32Of t.bytes countAt ≠ table32Of t.bytes maxCountAt
  · rw [if_pos h, if_pos h]
    unfold overflowField
    split
    · exact table32Of_writeLE t.bytes nextEntryAt 0
    · exact table32Of_writeLE t.bytes overflowAt 0
  · rw [if_neg h, if_neg h]
    rfl

section Ranges

variable (win64 : Bool) (nt : NtVersions) (m : Bytes) (imageBase : Nat)

/-- The run of the removal on the table. -/
def removal : TableBytes := removeBytes win64 nt imageBase ⟨m, [], []⟩

theorem removal_eq :
    ∃ visited, removal win64 nt m imageBase =
        clearOverflowBytes nt (dropBytes win64 nt (readLE m 0 4) (removeIndex win64 nt m imageBase)
          ⟨m, countField :: visited, []⟩) ∧
      ∀ r ∈ visited, ∃ k, k < readLE m 0 4 ∧ r = imageBaseField win64 nt k := by
  obtain ⟨visited, hrun, hvisited⟩ := searchBytes_eq win64 nt imageBase (readLE m 0 4) 0
    ⟨m, [countField], []⟩
  refine ⟨visited, ?_, ?_⟩
  · rw [removal, removeBytes]
    change (match searchBytes win64 nt imageBase (readLE m 0 4) 0 ⟨m, [countField], []⟩ with
      | (index, t) => clearOverflowBytes nt (dropBytes win64 nt (readLE m 0 4) index t)) = _
    rw [hrun]
    rfl
  · intro r hr
    obtain ⟨k, -, hk, rfl⟩ := hvisited r hr
    exact ⟨k, by omega, rfl⟩

theorem removeIndex_table64 : removeIndex true nt m imageBase =
    removeIndex64 (table64Of m) imageBase := rfl

theorem removeIndex_table32 : removeIndex false nt m imageBase =
    removeIndex32 nt (table32Of m) imageBase := by
  have hfield : ∀ k, readLE m (imageBaseField false nt k).1 (imageBaseField false nt k).2 =
      table32Of m (imageBaseAt nt k) := by
    intro k
    unfold imageBaseField imageBaseAt table32Of entryOffset sizeofEntry entryAt
    simp only [Bool.false_eq_true, if_false]
    split
    · congr 1
      omega
    · congr 1
      omega
  unfold removeIndex removeIndex32
  simp only [hfield]
  rfl

theorem removal_table64 : table64Of (removal true nt m imageBase).bytes =
    rtlpRemoveInvertedFunctionTable64 nt (table64Of m) imageBase := by
  obtain ⟨visited, hrun, -⟩ := removal_eq true nt m imageBase
  have hdrop := dropBytes_table64 nt (removeIndex true nt m imageBase)
    ⟨m, countField :: visited, []⟩
  rw [hrun, clearOverflowBytes_table64, rtlpRemoveInvertedFunctionTable64, ← removeIndex_table64 nt]
  exact congrArg (clearOverflow64 nt) hdrop

theorem removal_table32 : table32Of (removal false nt m imageBase).bytes =
    rtlpRemoveInvertedFunctionTable32 nt (table32Of m) imageBase := by
  obtain ⟨visited, hrun, -⟩ := removal_eq false nt m imageBase
  have hdrop := dropBytes_table32 nt (removeIndex false nt m imageBase)
    ⟨m, countField :: visited, []⟩
  rw [hrun, clearOverflowBytes_table32, rtlpRemoveInvertedFunctionTable32, ← removeIndex_table32]
  exact congrArg (clearOverflow32 nt) hdrop

theorem removal_reads {r : Nat × Nat} (hr : r ∈ (removal win64 nt m imageBase).reads) :
    r = countField ∨ r = maxCountField ∨ (∃ k, k < readLE m 0 4 ∧ r = imageBaseField win64 nt k) ∨
      ∃ mv ∈ movedRanges win64 nt (readLE m 0 4) (removeIndex win64 nt m imageBase), r = mv.2 := by
  obtain ⟨visited, hrun, hvisited⟩ := removal_eq win64 nt m imageBase
  rw [hrun, (clearOverflowBytes_ranges nt _).1, (dropBytes_ranges win64 nt _ _ _).1] at hr
  rcases List.mem_append.mp hr with hr | hr
  · rcases List.mem_append.mp hr with hr | hr
    · rcases List.mem_append.mp hr with hr | hr
      · rcases List.mem_cons.mp hr with rfl | hr
        · exact Or.inl rfl
        · exact Or.inr (Or.inr (Or.inl (hvisited r hr)))
      · obtain ⟨mv, hmv, rfl⟩ := List.mem_map.mp hr
        exact Or.inr (Or.inr (Or.inr ⟨mv, hmv, rfl⟩))
    · split at hr
      · exact Or.inl (List.mem_singleton.mp hr)
      · cases hr
  · exact (List.mem_pair.mp hr).imp_right Or.inl

theorem removal_writes {r : Nat × Nat} (hr : r ∈ (removal win64 nt m imageBase).writes) :
    r = countField ∨ r = overflowField nt ∨
      ∃ mv ∈ movedRanges win64 nt (readLE m 0 4) (removeIndex win64 nt m imageBase),
        r = (mv.1, mv.2.2) := by
  obtain ⟨visited, hrun, -⟩ := removal_eq win64 nt m imageBase
  have hdrop : ∀ r ∈ (dropBytes win64 nt (readLE m 0 4) (removeIndex win64 nt m imageBase)
      ⟨m, countField :: visited, []⟩).writes, r = countField ∨
        ∃ mv ∈ movedRanges win64 nt (readLE m 0 4) (removeIndex win64 nt m imageBase),
          r = (mv.1, mv.2.2) := by
    intro r hr
    rw [(dropBytes_ranges win64 nt _ _ _).2, List.nil_append] at hr
    rcases List.mem_append.mp hr with hr | hr
    · obtain ⟨mv, hmv, rfl⟩ := List.mem_map.mp hr
      exact Or.inr ⟨mv, hmv, rfl⟩
    · split at hr
      · exact Or.inl (List.mem_singleton.mp hr)
      · cases hr
  rw [hrun] at hr
  rcases (clearOverflowBytes_ranges nt _).2 with hsame | hcleared
  · rw [hsame] at hr
    exact (hdrop r hr).imp_right Or.inr
  · rw [hcleared] at hr
    rcases List.mem_append.mp hr with hr | hr
    · exact (hdrop r hr).imp_right Or.inr
    · exact Or.inr (Or.inl (List.mem_singleton.mp hr))

theorem removal_reads_moved {mv : Nat × Nat × Nat}
    (hmv : mv ∈ movedRanges win64 nt (readLE m 0 4) (removeIndex win64 nt m imageBase)) :
    mv.2 ∈ (removal win64 nt m imageBase).reads := by
  obtain ⟨visited, hrun, -⟩ := removal_eq win64 nt m imageBase
  rw [hrun, (clearOverflowBytes_ranges nt _).1, (dropBytes_ranges win64 nt _ _ _).1]
  have hmoved : mv.2 ∈ (movedRanges win64 nt (readLE m 0 4)
      (removeIndex win64 nt m imageBase)).map Prod.snd := List.mem_map_of_mem hmv
  exact List.mem_append_left _ (List.mem_append_left _ (List.mem_append_right _ hmoved))

/-- Every byte that is read or written belongs to the table, and no byte that
is read to an entry that is not in use. -/
structure StaysInside (count : Nat) (t : TableBytes) : Prop where
  inside : ∀ r ∈ t.reads ++ t.writes, ∀ byte, r.1 ≤ byte → byte < r.1 + r.2 →
    byte < sizeofTable win64
  live : ∀ r ∈ t.reads, ∀ byte, r.1 ≤ byte → byte < r.1 + r.2 →
    ∀ k, count ≤ k → ¬ (entryOffset win64 k ≤ byte ∧ byte < entryOffset win64 (k + 1))

end Ranges

/-- A range of the header or of the entries in use. -/
def LiveRange (win64 : Bool) (count : Nat) (r : Nat × Nat) : Prop :=
  r.1 + r.2 ≤ entryOffset win64 count

theorem entryOffset_mono (win64 : Bool) {j k : Nat} (h : j ≤ k) :
    entryOffset win64 j ≤ entryOffset win64 k :=
  Nat.add_le_add_left (Nat.mul_le_mul_right _ h) _

theorem liveRange_header (win64 : Bool) (nt : NtVersions) (count : Nat) :
    LiveRange win64 count countField ∧ LiveRange win64 count maxCountField ∧
      LiveRange win64 count (overflowField nt) := by
  unfold LiveRange countField maxCountField overflowField entryOffset
  refine ⟨by omega, by omega, ?_⟩
  split <;> omega

theorem liveRange_imageBase (win64 : Bool) (nt : NtVersions) {count k : Nat} (hk : k < count) :
    LiveRange win64 count (imageBaseField win64 nt k) := by
  unfold LiveRange imageBaseField entryOffset sizeofEntry
  cases win64 with
  | true =>
    simp only [if_true]
    omega
  | false =>
    simp only [Bool.false_eq_true, if_false]
    split <;> omega

theorem staysInside_of_live {win64 : Bool} {count : Nat} {t : TableBytes} (hcount : count ≤ 0x200)
    (hlive : ∀ r ∈ t.reads ++ t.writes, LiveRange win64 count r) : StaysInside win64 count t := by
  constructor
  · intro r hr byte _ hend
    have hrange : r.1 + r.2 ≤ entryOffset win64 count := hlive r hr
    have hsize : entryOffset win64 count ≤ sizeofTable win64 := entryOffset_mono win64 hcount
    omega
  · intro r hr byte _ hend k hk hentry
    have hrange : r.1 + r.2 ≤ entryOffset win64 count := hlive r (List.mem_append_left _ hr)
    have hk' : entryOffset win64 count ≤ entryOffset win64 k := entryOffset_mono win64 hk
    omega

theorem removalMove_win64 (nt : NtVersions) {currentSize index : Nat} (h : index < currentSize) :
    LiveRange true currentSize (removalMove true nt currentSize index).2 ∧
      LiveRange true currentSize
        ((removalMove true nt currentSize index).1, (removalMove true nt currentSize index).2.2) := by
  have hmove : removalMove true nt currentSize index =
      (entryOffset true index, entryOffset true (index + 1), (currentSize - index - 1) * 24) := rfl
  rw [hmove]
  unfold LiveRange entryOffset sizeofEntry
  simp only [if_true]
  omega

/-- Both 32-bit moves read on into the first entry that is not in use. -/
theorem removalMove_win32 (nt : NtVersions) {currentSize index : Nat} (h : index < currentSize) :
    (removalMove false nt currentSize index).2.1 ≤ entryOffset false currentSize ∧
      entryOffset false currentSize <
        (removalMove false nt currentSize index).2.1 + (removalMove false nt currentSize index).2.2 := by
  unfold removalMove
  rw [if_neg Bool.false_ne_true]
  split
  · dsimp only
    unfold entryOffset sizeofEntry
    simp only [Bool.false_eq_true, if_false]
    omega
  · dsimp only
    unfold entryOffset sizeofEntry
    simp only [Bool.false_eq_true, if_false]
    omega

/-- The removal stays inside the table exactly where it moves nothing or moves
entries of the 64-bit structure. -/
theorem removal_stays_inside_iff (win64 : Bool) (nt : NtVersions) (m : Bytes) (imageBase : Nat)
    (hmax : readLE m 4 4 = 0x200) (hcount : readLE m 0 4 ≤ readLE m 4 4) :
    StaysInside win64 (readLE m 0 4) (removal win64 nt m imageBase) ↔
      win64 = true ∨ readLE m 0 4 = 1 ∨ Unregistered win64 nt m imageBase := by
  have hle := removeIndex_le win64 nt m imageBase
  have hcount : readLE m 0 4 ≤ 0x200 := hmax ▸ hcount
  constructor
  · intro hinside
    by_contra hneither
    obtain ⟨h64, hrest⟩ := not_or.mp hneither
    obtain ⟨hone, hregistered⟩ := not_or.mp hrest
    have h32 : win64 = false := Bool.eq_false_iff.mpr h64
    subst h32
    have hfound : removeIndex false nt m imageBase ≠ readLE m 0 4 :=
      fun heq => hregistered (removeIndex_eq_count.mp heq)
    have hmoved : removalMove false nt (readLE m 0 4) (removeIndex false nt m imageBase) ∈
        movedRanges false nt (readLE m 0 4) (removeIndex false nt m imageBase) := by
      rw [movedRanges, if_pos ⟨hfound, hone⟩]
      exact List.mem_singleton.mpr rfl
    obtain ⟨hstart, hend⟩ := removalMove_win32 nt (Nat.lt_of_le_of_ne hle hfound)
    refine hinside.live _ (removal_reads_moved false nt m imageBase hmoved) _ hstart hend
      (readLE m 0 4) (Nat.le_refl _) ⟨Nat.le_refl _, ?_⟩
    unfold entryOffset sizeofEntry
    simp only [Bool.false_eq_true, if_false]
    omega
  · intro hcase
    obtain ⟨hcountLive, hmaxLive, hoverflowLive⟩ := liveRange_header win64 nt (readLE m 0 4)
    have hmoved : ∀ mv ∈ movedRanges win64 nt (readLE m 0 4) (removeIndex win64 nt m imageBase),
        LiveRange win64 (readLE m 0 4) mv.2 ∧ LiveRange win64 (readLE m 0 4) (mv.1, mv.2.2) := by
      intro mv hmv
      unfold movedRanges at hmv
      split at hmv
      · rename_i hmoves
        obtain ⟨hfound, hone⟩ := hmoves
        rcases hcase with h64 | hone' | hunregistered
        · subst h64
          rw [List.mem_singleton.mp hmv]
          exact removalMove_win64 nt (Nat.lt_of_le_of_ne hle hfound)
        · exact absurd hone' hone
        · exact absurd (removeIndex_eq_count.mpr hunregistered) hfound
      · cases hmv
    apply staysInside_of_live hcount
    intro r hr
    rcases List.mem_append.mp hr with hr | hr
    · rcases removal_reads win64 nt m imageBase hr with rfl | rfl | ⟨k, hk, rfl⟩ | ⟨mv, hmv, rfl⟩
      · exact hcountLive
      · exact hmaxLive
      · exact liveRange_imageBase win64 nt hk
      · exact (hmoved mv hmv).1
    · rcases removal_writes win64 nt m imageBase hr with rfl | rfl | ⟨mv, hmv, rfl⟩
      · exact hcountLive
      · exact hoverflowLive
      · exact (hmoved mv hmv).2

/-- The 32-bit moves leave the structure itself where the table is full. -/
theorem removal_leaves_structure (nt : NtVersions) (m : Bytes) (imageBase : Nat)
    (hfull : readLE m 0 4 = 0x200) (hregistered : ¬ Unregistered false nt m imageBase) :
    ∃ r ∈ (removal false nt m imageBase).reads, r.1 ≤ sizeofTable false ∧
      sizeofTable false < r.1 + r.2 := by
  have hle := removeIndex_le false nt m imageBase
  have hfound : removeIndex false nt m imageBase ≠ readLE m 0 4 :=
    fun heq => hregistered (removeIndex_eq_count.mp heq)
  have hmoved : removalMove false nt (readLE m 0 4) (removeIndex false nt m imageBase) ∈
      movedRanges false nt (readLE m 0 4) (removeIndex false nt m imageBase) := by
    rw [movedRanges, if_pos ⟨hfound, by omega⟩]
    exact List.mem_singleton.mpr rfl
  have hmove := removalMove_win32 nt (Nat.lt_of_le_of_ne hle hfound)
  refine ⟨_, removal_reads_moved false nt m imageBase hmoved, ?_⟩
  rw [sizeofTable, ← hfull]
  exact hmove

/-- A 32-bit table with two images, at `0x1000` and `0x2000`, in the layout of
Windows 7. -/
def twoImages32 : Bytes := fun a =>
  if a = 0 then 2 else if a = 5 then 2 else if a = 17 then 0x10 else if a = 33 then 0x20 else 0

/-- On Windows 7 an image that is not registered is looked for in vain. -/
theorem removal_stays_inside_unregistered :
    StaysInside false 2 (removal false ⟨6, 1, 7601⟩ twoImages32 0x3000) := by
  have hunregistered : Unregistered false ⟨6, 1, 7601⟩ twoImages32 0x3000 := by
    unfold Unregistered
    decide +kernel
  exact (removal_stays_inside_iff false ⟨6, 1, 7601⟩ twoImages32 0x3000 (by decide)
    (by decide)).mpr (Or.inr (Or.inr hunregistered))

/-- Removing the first of two images reads the third entry, which is not in
use. -/
theorem removal_reads_unused_entry :
    readLE twoImages32 0 4 = 2 ∧ readLE twoImages32 4 4 = 0x200 ∧
      ¬ StaysInside false 2 (removal false ⟨6, 1, 7601⟩ twoImages32 0x1000) := by
  refine ⟨by decide, by decide, ?_⟩
  intro hinside
  have hread : (28, 32) ∈ (removal false ⟨6, 1, 7601⟩ twoImages32 0x1000).reads := by
    decide +kernel
  exact hinside.live (28, 32) hread 48 (by omega) (by omega) 2 (Nat.le_refl 2) (by decide)

end WinPolyfillLoader.InvertedFunctionTable
