import WinPolyfillLoader.Library.OnesComplement
import WinPolyfillLoader.MemoryModule.ImageCheck

/-!
`CalcCheckSum` and `CheckSumBufferedFile`. The sum of the words of a file is one with
end-around carry, from which the two words of the stored check sum are taken away again.
What is left is the sum of the other words, except that all of 65535 is lost where a stored
word is not 0.
-/

namespace WinPolyfillLoader.Utils

open ByteMemory MemoryModule OnesComplement

def words (m : Bytes) : Nat → Nat → List Nat
  | _, 0 => []
  | a, n + 1 => readLE m a 2 :: words m (a + 2) n

/-- `Sum` after some rounds of the loop of `CalcCheckSum`. -/
def sumAfter (c : Caller) : Nat → Nat → Nat → Option Nat
  | 0, _, sum => some sum
  | i + 1, ptr, sum => do
    let word ← c.load ptr ⟨0, 2⟩
    let sum := (sum + word) % 2 ^ 32
    sumAfter c i (ptr + 2) (if sum / 2 ^ 16 ≠ 0 then sum % 2 ^ 16 + sum / 2 ^ 16 else sum)

/-- The buffer begins with these words, and they can be read. -/
def HoldsWords (c : Caller) (ws : List Nat) : Prop :=
  words c.source c.data ws.length = ws ∧ accessible c.readable c.data (2 * ws.length) = true

instance (c : Caller) (ws : List Nat) : Decidable (HoldsWords c ws) :=
  inferInstanceAs (Decidable (_ ∧ _))

/-- A `DWORD` of the buffer set to zero. -/
def Caller.cleared (c : Caller) (field : Nat) : Caller :=
  { c with source := writeLE c.source field 4 0 }

/-- The other words of a file add up to a positive multiple of 65535, and the stored check
sum is one that comes out with or without it. -/
def WrapsAround (c : Caller) (field bufferLength hdrSum : Nat) : Prop :=
  let others := (words (Caller.cleared c field).source c.data (bufferLength / 2)).sum
  (others ≠ 0 ∧ others % 65535 = 0) ∧ hdrSum ≠ 0 ∧
    (hdrSum = bufferLength ∨ hdrSum = (bufferLength + 65535) % 2 ^ 32)

instance (c : Caller) (field bufferLength hdrSum : Nat) :
    Decidable (WrapsAround c field bufferLength hdrSum) := inferInstanceAs (Decidable (_ ∧ _))

theorem words_append (m : Bytes) (a n k : Nat) :
    words m a (n + k) = words m a n ++ words m (a + 2 * n) k := by
  induction n generalizing a with
  | zero =>
    rw [Nat.zero_add]
    rfl
  | succ n ih =>
    have hnext : a + 2 * (n + 1) = a + 2 + 2 * n := by omega
    rw [Nat.succ_add, words, words, ih, hnext, List.cons_append]

theorem words_congr {m m' : Bytes} {a n : Nat} (h : ∀ k, a ≤ k → k < a + 2 * n → m k = m' k) :
    words m a n = words m' a n := by
  induction n generalizing a with
  | zero => rfl
  | succ n ih =>
    have hhead : readLE m a 2 = readLE m' a 2 := by
      apply readLE_congr
      exact fun k hk hkn => h k hk (by omega)
    rw [words, words, hhead, ih fun k hk hkn => h k (by omega) (by omega)]

theorem mem_words_lt {m : Bytes} {a n : Nat} : ∀ w ∈ words m a n, w < 2 ^ 16 := by
  induction n generalizing a with
  | zero => exact fun w hw => nomatch hw
  | succ n ih =>
    intro w hw
    rcases List.mem_cons.mp hw with rfl | hw
    · exact readLE_lt m a 2
    · exact ih w hw

theorem calcCheckSum_split (c : Caller) (i wordCount ptr sum : Nat) :
    calcCheckSum c (i + wordCount) ptr sum =
      (sumAfter c i ptr sum).bind (calcCheckSum c wordCount (ptr + 2 * i)) := by
  induction i generalizing ptr sum with
  | zero =>
    rw [Nat.zero_add]
    rfl
  | succ i ih =>
    have hnext : ptr + 2 * (i + 1) = ptr + 2 + 2 * i := by omega
    rw [Nat.succ_add, calcCheckSum, sumAfter, hnext]
    cases c.load ptr ⟨0, 2⟩ with
    | none => rfl
    | some word => exact ih (ptr + 2) _

theorem sumAfter_eq {c : Caller} {i ptr sum : Nat} (hsum : sum < 2 ^ 16)
    (hreadable : accessible c.readable ptr (2 * i) = true) :
    sumAfter c i ptr sum = some ((words c.source ptr i).foldl (addCarry (2 ^ 16)) sum) := by
  induction i generalizing ptr sum with
  | zero => rfl
  | succ i ih =>
    have hsplit : 2 * (i + 1) = 2 + 2 * i := by omega
    rw [hsplit, accessible_add, Bool.and_eq_true] at hreadable
    have hword := readLE_lt c.source ptr 2
    have hload : c.load ptr ⟨0, 2⟩ = some (readLE c.source ptr 2) := if_pos hreadable.1
    have hnoWrap : (sum + readLE c.source ptr 2) % 2 ^ 32 = sum + readLE c.source ptr 2 :=
      Nat.mod_eq_of_lt (by omega)
    have hcarry : (if (sum + readLE c.source ptr 2) / 2 ^ 16 ≠ 0 then
          (sum + readLE c.source ptr 2) % 2 ^ 16 + (sum + readLE c.source ptr 2) / 2 ^ 16
        else sum + readLE c.source ptr 2) = addCarry (2 ^ 16) sum (readLE c.source ptr 2) := by
      unfold addCarry
      split <;> omega
    have hnext : addCarry (2 ^ 16) sum (readLE c.source ptr 2) < 2 ^ 16 := by
      rw [addCarry_eq hsum (by omega)]
      exact normal_lt (by decide) _
    rw [sumAfter, hload]
    simp only [Option.bind_eq_bind, Option.bind_some, hnoWrap, hcarry]
    rw [ih hnext hreadable.2]
    rfl

theorem sumAfter_zero {c : Caller} {i : Nat} (hreadable : accessible c.readable c.data (2 * i)) :
    sumAfter c i c.data 0 = some (normal (2 ^ 16) (words c.source c.data i).sum) := by
  have hfold : (words c.source c.data i).foldl (addCarry (2 ^ 16)) (normal (2 ^ 16) 0) =
      normal (2 ^ 16) (0 + (words c.source c.data i).sum) :=
    foldl_addCarry (by decide) mem_words_lt 0
  rw [sumAfter_eq (by decide) hreadable, ← Nat.zero_add (words _ _ _).sum, ← hfold]
  rfl

theorem calcCheckSum_total {c : Caller} {wordCount : Nat}
    (hreadable : accessible c.readable c.data (2 * wordCount) = true) :
    calcCheckSum c wordCount c.data 0 =
      some (normal (2 ^ 16) (words c.source c.data wordCount).sum) := by
  have hlt := normal_lt (b := 2 ^ 16) (by decide) (words c.source c.data wordCount).sum
  have hwhole : calcCheckSum c wordCount c.data 0 = _ :=
    calcCheckSum_split c wordCount 0 c.data 0
  rw [hwhole, sumAfter_zero hreadable, Option.bind_some, calcCheckSum, Option.some_inj]
  omega

/-- The value depends on the words through their sum alone, and tells sums that are
multiples of 65535 from 0. No step leaves a carry, so that the last truncation drops
nothing. -/
theorem calcCheckSum_onesComplement (c : Caller) (ws : List Nat) (hwords : HoldsWords c ws) :
    calcCheckSum c ws.length c.data 0 =
        some (if ∀ w ∈ ws, w = 0 then 0 else (ws.sum - 1) % 65535 + 1) ∧
      (∀ c' ws', HoldsWords c' ws' → ws'.Perm ws →
        calcCheckSum c' ws'.length c'.data 0 = calcCheckSum c ws.length c.data 0) ∧
      (∀ i ≤ ws.length, ∃ sum, sumAfter c i c.data 0 = some sum ∧ sum ≤ 0xFFFF ∧
        calcCheckSum c ws.length c.data 0 =
          calcCheckSum c (ws.length - i) (c.data + 2 * i) sum) ∧
      calcCheckSum c ws.length c.data 0 = sumAfter c ws.length c.data 0 := by
  have hvalue : ∀ c' ws', HoldsWords c' ws' →
      calcCheckSum c' ws'.length c'.data 0 = some (normal (2 ^ 16) ws'.sum) := by
    intro c' ws' hholds
    rw [calcCheckSum_total hholds.2, hholds.1]
  refine ⟨?_, ?_, ?_, ?_⟩
  · have hzero : (∀ w ∈ ws, w = 0) ↔ ws.sum = 0 := List.sum_eq_zero_iff_forall_eq_nat.symm
    simp only [hvalue c ws hwords, normal, hzero]
    rfl
  · intro c' ws' hholds hperm
    rw [hvalue c' ws' hholds, hvalue c ws hwords, hperm.sum_eq]
  · intro i hi
    obtain ⟨rest, hrest⟩ := Nat.exists_eq_add_of_le hi
    have hfirst : accessible c.readable c.data (2 * i) = true := by
      have hall := hwords.2
      rw [hrest, Nat.mul_add, accessible_add, Bool.and_eq_true] at hall
      exact hall.1
    have hlt := normal_lt (b := 2 ^ 16) (by decide) (words c.source c.data i).sum
    refine ⟨_, sumAfter_zero hfirst, by omega, ?_⟩
    rw [hrest, Nat.add_sub_cancel_left, calcCheckSum_split, sumAfter_zero hfirst, Option.bind_some]
  · rw [hvalue c ws hwords, sumAfter_zero hwords.2, hwords.1]

theorem subtractWord_eq {calcSum word : Nat} (hsum : calcSum < 2 ^ 16) :
    subtractWord calcSum word = subBorrow (2 ^ 16) calcSum word := by
  rw [subtractWord, subBorrow, Nat.mod_eq_of_lt hsum]
  split
  · rfl
  · rename_i hlarger
    rw [Nat.mod_eq_of_lt (by omega)]

/-- The words of the file are those of the cleared file and the two stored ones. -/
theorem sum_words_stored {c : Caller} {offset wordCount : Nat} (heven : offset % 2 = 0)
    (hinside : offset + 4 ≤ 2 * wordCount) :
    (words c.source c.data wordCount).sum =
      (words (Caller.cleared c (c.data + offset)).source c.data wordCount).sum +
        readLE c.source (c.data + offset) 4 % 2 ^ 16 +
        readLE c.source (c.data + offset) 4 / 2 ^ 16 := by
  obtain ⟨before, hbefore⟩ : ∃ before, offset = 2 * before := ⟨offset / 2, by omega⟩
  obtain ⟨after, hafter⟩ : ∃ after, wordCount = before + (2 + after) :=
    ⟨wordCount - before - 2, by omega⟩
  have hfield : ∀ m : Bytes, words m (c.data + 2 * before) 2 =
      [readLE m (c.data + offset) 4 % 2 ^ 16, readLE m (c.data + offset) 4 / 2 ^ 16] := by
    intro m
    have hlow := readLE_lt m (c.data + offset) 2
    have hparts : readLE m (c.data + offset) 4 =
        readLE m (c.data + offset) 2 + 2 ^ 16 * readLE m (c.data + offset + 2) 2 := by
      have htwo : c.data + offset + 1 + 1 = c.data + offset + 2 := rfl
      simp only [readLE, htwo]
      omega
    have hlowWord : readLE m (c.data + offset) 4 % 2 ^ 16 = readLE m (c.data + offset) 2 := by
      omega
    have hhighWord : readLE m (c.data + offset) 4 / 2 ^ 16 = readLE m (c.data + offset + 2) 2 := by
      omega
    rw [hlowWord, hhighWord, ← hbefore]
    rfl
  have hzero : readLE (Caller.cleared c (c.data + offset)).source (c.data + offset) 4 = 0 :=
    readLE_writeLE c.source (c.data + offset) 4 0
  have houtside : ∀ k, k < c.data + offset ∨ c.data + offset + 4 ≤ k →
      c.source k = (Caller.cleared c (c.data + offset)).source k :=
    fun k hk => (writeLE_outside c.source hk).symm
  have hfirst : words c.source c.data before =
      words (Caller.cleared c (c.data + offset)).source c.data before := by
    apply words_congr
    exact fun k _ hk => houtside k (Or.inl (by omega))
  have hlast : words c.source (c.data + 2 * before + 2 * 2) after =
      words (Caller.cleared c (c.data + offset)).source (c.data + 2 * before + 2 * 2) after := by
    apply words_congr
    exact fun k hk _ => houtside k (Or.inr (by omega))
  rw [hafter, words_append, words_append, words_append, words_append, hfield, hfield, hzero, hfirst,
    hlast]
  simp only [List.sum_append, List.sum_cons, List.sum_nil]
  omega

/-- The check passes if the stored sum is the length and what the subtractions leave. -/
theorem checkSumBufferedFile_eq {c : Caller} {offset bufferLength hdrSum : Nat}
    (hlength : bufferLength < 2 ^ 32 - 1) (hevenLength : bufferLength % 2 = 0)
    (hreadable : accessible c.readable c.data bufferLength = true) (heven : offset % 2 = 0)
    (hinside : offset + 4 ≤ bufferLength) (hstored : readLE c.source (c.data + offset) 4 = hdrSum) :
    let others :=
      (words (Caller.cleared c (c.data + offset)).source c.data (bufferLength / 2)).sum
    checkSumBufferedFile c bufferLength hdrSum =
      some (decide (hdrSum = ((if hdrSum = 0 then normal (2 ^ 16) others else others % 65535) +
        bufferLength) % 2 ^ 32)) := by
  intro others
  have hdr : hdrSum < 2 ^ 32 := hstored ▸ readLE_lt c.source (c.data + offset) 4
  have hlow : hdrSum % 2 ^ 16 < 2 ^ 16 := Nat.mod_lt _ (by decide)
  have hhigh : hdrSum / 2 ^ 16 < 2 ^ 16 := by omega
  have hcount : (bufferLength + 1) % 2 ^ 32 / 2 = bufferLength / 2 := by omega
  have htwice : 2 * (bufferLength / 2) = bufferLength := by omega
  have htotal : (words c.source c.data (bufferLength / 2)).sum =
      others + hdrSum % 2 ^ 16 + hdrSum / 2 ^ 16 := by
    rw [← hstored]
    exact sum_words_stored heven (by omega)
  have hsum : calcCheckSum c (bufferLength / 2) c.data 0 =
      some (normal (2 ^ 16) (others + hdrSum % 2 ^ 16 + hdrSum / 2 ^ 16)) := by
    rw [← htotal]
    exact calcCheckSum_total (by rw [htwice]; exact hreadable)
  have hbase : 2 ≤ 2 ^ 16 := by decide
  have hfirst : subBorrow (2 ^ 16)
      (normal (2 ^ 16) (others + hdrSum % 2 ^ 16 + hdrSum / 2 ^ 16)) (hdrSum % 2 ^ 16) < 2 ^ 16 := by
    have hlt := normal_lt hbase (others + hdrSum % 2 ^ 16 + hdrSum / 2 ^ 16)
    unfold subBorrow
    split <;> omega
  have hzero : (hdrSum % 2 ^ 16 = 0 ∧ hdrSum / 2 ^ 16 = 0) ↔ hdrSum = 0 := by omega
  rw [checkSumBufferedFile, hcount, hsum]
  simp only [Option.bind_eq_bind, Option.bind_some, Option.pure_def]
  rw [subtractWord_eq (normal_lt hbase _), subtractWord_eq hfirst, subBorrow_pair hbase hlow hhigh]
  simp only [hzero]
  rfl

/-- The check agrees with the sum over the cleared file, except where that sum is 65535
and the stored one is told apart from it by a multiple of 65535. -/
theorem checkSumBufferedFile_recomputes_iff (c : Caller) (offset bufferLength hdrSum : Nat)
    (hlength : bufferLength < 2 ^ 32 - 1) (hevenLength : bufferLength % 2 = 0)
    (hreadable : accessible c.readable c.data bufferLength = true) (heven : offset % 2 = 0)
    (hinside : offset + 4 ≤ bufferLength) (hstored : readLE c.source (c.data + offset) 4 = hdrSum) :
    ∃ calcSum,
      calcCheckSum (Caller.cleared c (c.data + offset)) (bufferLength / 2) c.data 0 = some calcSum ∧
      ((checkSumBufferedFile c bufferLength hdrSum = some true ↔
          hdrSum = (bufferLength + calcSum) % 2 ^ 32) ↔
        ¬ WrapsAround c (c.data + offset) bufferLength hdrSum) := by
  have hdr : hdrSum < 2 ^ 32 := hstored ▸ readLE_lt c.source (c.data + offset) 4
  have htwice : 2 * (bufferLength / 2) = bufferLength := by omega
  have hrecomputed : calcCheckSum (Caller.cleared c (c.data + offset)) (bufferLength / 2) c.data 0 =
      some (normal (2 ^ 16)
        (words (Caller.cleared c (c.data + offset)).source c.data (bufferLength / 2)).sum) := by
    apply calcCheckSum_total (c := Caller.cleared c (c.data + offset))
    rw [htwice]
    exact hreadable
  refine ⟨_, hrecomputed, ?_⟩
  rw [checkSumBufferedFile_eq hlength hevenLength hreadable heven hinside hstored, Option.some_inj,
    decide_eq_true_iff, WrapsAround, Nat.add_comm bufferLength]
  generalize (words (Caller.cleared c (c.data + offset)).source c.data (bufferLength / 2)).sum =
    others
  rcases Decidable.em (hdrSum = 0) with hnone | hsome
  · rw [if_pos hnone]
    exact iff_of_true Iff.rfl fun h => h.2.1 hnone
  · rw [if_neg hsome]
    rcases Decidable.em (others ≠ 0 ∧ others % 65535 = 0) with ⟨hpositive, hmultiple⟩ | hother
    · rw [hmultiple, normal_of_mod_eq_zero hpositive hmultiple]
      omega
    · have hsame : normal (2 ^ 16) others = others % 65535 :=
        (normal_eq_mod_iff (by decide) others).mpr (by omega)
      rw [hsame]
      exact iff_of_true Iff.rfl fun h => hother h.1

/-- A buffer of 8 bytes at 0x1000: the word 0xFFFF, a word 0 and a check sum. -/
def onesFile (hdrSum : Nat) : Caller where
  host := .amd64
  data := 0x1000
  source := writeLE (writeLE (fun _ => 0) 0x1000 4 0xFFFF) 0x1004 4 hdrSum
  readable := fun a => 0x1000 ≤ a ∧ a < 0x1008
  virtualReserve := fun _ _ _ => 0
  virtualCommit := fun _ _ => false

theorem calcCheckSum_onesComplement_ones :
    calcCheckSum (onesFile 0x10007) 4 0x1000 0 =
        some (if ∀ w ∈ [0xFFFF, 0, 7, 1], w = 0 then 0
          else ([0xFFFF, 0, 7, 1].sum - 1) % 65535 + 1) ∧
      (∀ c' ws', HoldsWords c' ws' → ws'.Perm [0xFFFF, 0, 7, 1] →
        calcCheckSum c' ws'.length c'.data 0 = calcCheckSum (onesFile 0x10007) 4 0x1000 0) ∧
      (∀ i ≤ 4, ∃ sum, sumAfter (onesFile 0x10007) i 0x1000 0 = some sum ∧ sum ≤ 0xFFFF ∧
        calcCheckSum (onesFile 0x10007) 4 0x1000 0 =
          calcCheckSum (onesFile 0x10007) (4 - i) (0x1000 + 2 * i) sum) ∧
      calcCheckSum (onesFile 0x10007) 4 0x1000 0 = sumAfter (onesFile 0x10007) 4 0x1000 0 :=
  calcCheckSum_onesComplement (onesFile 0x10007) [0xFFFF, 0, 7, 1] (by decide)

theorem checkSumBufferedFile_recomputes_iff_ones :
    ∃ calcSum,
      calcCheckSum (Caller.cleared (onesFile 0x1234) 0x1004) 4 0x1000 0 = some calcSum ∧
      ((checkSumBufferedFile (onesFile 0x1234) 8 0x1234 = some true ↔
          0x1234 = (8 + calcSum) % 2 ^ 32) ↔
        ¬ WrapsAround (onesFile 0x1234) 0x1004 8 0x1234) :=
  checkSumBufferedFile_recomputes_iff (onesFile 0x1234) 4 8 0x1234 (by decide) (by decide)
    (by decide) (by decide) (by decide) (by decide)

/-- The check sum that the linker stores is refused. -/
theorem checkSumBufferedFile_refuses_recomputed :
    calcCheckSum (Caller.cleared (onesFile 0x10007) 0x1004) 4 0x1000 0 = some 0xFFFF ∧
      readLE (onesFile 0x10007).source 0x1004 4 = (8 + 0xFFFF) % 2 ^ 32 ∧
      checkSumBufferedFile (onesFile 0x10007) 8 0x10007 = some false := by
  decide

end WinPolyfillLoader.Utils
