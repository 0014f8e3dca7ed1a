import WinPolyfillLoader.LdrEntry.SectionLookup
import WinPolyfillLoader.Library.Lexicographic
import WinPolyfillLoader.Utils.CheckSum

/-!
`RtlCompareUnicodeStrings`. The length of a string becomes a number of bytes in a `USHORT`,
so that of a long string only the first 32767 characters are compared.
-/

namespace WinPolyfillLoader.Utils

open ByteMemory MemoryModule Lexicographic
open LdrEntry (uint16Max)

/-- `UNICODE_STRING`, with its lengths in bytes. -/
structure UnicodeString where
  length : Nat
  maximumLength : Nat
  buffer : Nat
deriving DecidableEq, Repr

/-- `MakeNtString` for wide characters, in `size_t`. -/
def makeNtString (host : Host) (string count : Nat) : UnicodeString :=
  let cbString := count * 2 % host.addresses
  { length := min uint16Max cbString % 2 ^ 16
    maximumLength := min uint16Max ((cbString + 2) % host.addresses) % 2 ^ 16
    buffer := string }

/-- What a comparison calls in ntdll. -/
structure StringServices where
  rtlUpcaseUnicodeChar : Nat → Nat
  rtlCompareUnicodeString : Bytes → UnicodeString → UnicodeString → Bool → Int

/-- The characters as a comparison takes them. -/
def StringServices.folded (services : StringServices) (caseInSensitive : Bool)
    (chars : List Nat) : List Nat :=
  if caseInSensitive then chars.map services.rtlUpcaseUnicodeChar else chars

/-- The result has the sign of the lexicographic order of the characters that the lengths
count. -/
def StringServices.ComparesCounted (services : StringServices) : Prop :=
  ∀ m string1 string2 caseInSensitive,
    compare (services.rtlCompareUnicodeString m string1 string2 caseInSensitive) 0 =
      (services.folded caseInSensitive (words m string1.buffer (string1.length / 2))).compareLex
        compare
        (services.folded caseInSensitive (words m string2.buffer (string2.length / 2)))

def rtlCompareUnicodeStrings (services : StringServices) (host : Host) (m : Bytes)
    (string1 string1Length string2 string2Length : Nat) (caseInSensitive : Bool) : Int :=
  services.rtlCompareUnicodeString m (makeNtString host string1 string1Length)
    (makeNtString host string2 string2Length) caseInSensitive

/-- A string of wide characters that is inside the address space. -/
structure WideString (host : Host) where
  string : Nat
  length : Nat
  inside : string + 2 * length < host.addresses

namespace WideString

variable {host : Host}

def chars (w : WideString host) (m : Bytes) : List Nat := words m w.string w.length

/-- How many characters a `UNICODE_STRING` can have. -/
def countedChars : Nat := 32767

end WideString

theorem words_take (m : Bytes) (a n k : Nat) :
    (words m a n).take k = words m a (min k n) := by
  induction n generalizing a k with
  | zero => rw [Nat.min_zero, words, List.take_nil]
  | succ n ih =>
    cases k with
    | zero => rw [Nat.zero_min, List.take_zero, words]
    | succ k => rw [words, List.take_succ_cons, ih, Nat.succ_min_succ, words]

theorem folded_take (services : StringServices) (caseInSensitive : Bool) (chars : List Nat)
    (n : Nat) :
    (services.folded caseInSensitive chars).take n =
      services.folded caseInSensitive (chars.take n) := by
  cases caseInSensitive with
  | false => rfl
  | true => exact (List.map_take).symm

/-- The characters of the `UNICODE_STRING` that is made of a string. -/
theorem makeNtString_chars {host : Host} (w : WideString host) (m : Bytes) :
    words m (makeNtString host w.string w.length).buffer
        ((makeNtString host w.string w.length).length / 2) =
      (w.chars m).take WideString.countedChars := by
  have hbytes : w.length * 2 % host.addresses = w.length * 2 := by
    apply Nat.mod_eq_of_lt
    have := w.inside
    omega
  have hcount : (makeNtString host w.string w.length).length / 2 =
      min WideString.countedChars w.length := by
    simp only [makeNtString, hbytes, uint16Max, WideString.countedChars]
    omega
  rw [hcount, WideString.chars, words_take]
  rfl

theorem rtlCompareUnicodeStrings_eq {services : StringServices}
    (hcompare : services.ComparesCounted) {host : Host} (m : Bytes)
    (first second : WideString host) (caseInSensitive : Bool) :
    compare (rtlCompareUnicodeStrings services host m first.string first.length second.string
        second.length caseInSensitive) 0 =
      ((services.folded caseInSensitive (first.chars m)).take
        WideString.countedChars).compareLex compare
        ((services.folded caseInSensitive (second.chars m)).take WideString.countedChars) := by
  rw [rtlCompareUnicodeStrings, hcompare, makeNtString_chars, makeNtString_chars, folded_take,
    folded_take]

/-- The result has the sign of the order of the two strings if these are equal wherever
their first 32767 characters are. -/
theorem rtlCompareUnicodeStrings_exact_iff (services : StringServices)
    (hcompare : services.ComparesCounted) (host : Host) (m : Bytes)
    (first second : WideString host) (caseInSensitive : Bool) :
    compare (rtlCompareUnicodeStrings services host m first.string first.length second.string
          second.length caseInSensitive) 0 =
        (services.folded caseInSensitive (first.chars m)).compareLex compare
          (services.folded caseInSensitive (second.chars m)) ↔
      (services.folded caseInSensitive ((first.chars m).take 32767) =
          services.folded caseInSensitive ((second.chars m).take 32767) →
        services.folded caseInSensitive (first.chars m) =
          services.folded caseInSensitive (second.chars m)) := by
  rw [rtlCompareUnicodeStrings_eq hcompare, compareLex_take_iff, folded_take, folded_take]
  rfl

def upcaseAscii (c : Nat) : Nat := if 0x61 ≤ c ∧ c ≤ 0x7A then c - 0x20 else c

/-- The order of the characters as a `LONG`, with ASCII letters folded. -/
def ordinalServices : StringServices where
  rtlUpcaseUnicodeChar := upcaseAscii
  rtlCompareUnicodeString := fun m string1 string2 caseInSensitive =>
    let chars (s : UnicodeString) :=
      let counted := words m s.buffer (s.length / 2)
      if caseInSensitive then counted.map upcaseAscii else counted
    match (chars string1).compareLex compare (chars string2) with
    | .lt => -1
    | .eq => 0
    | .gt => 1

theorem ordinalServices_comparesCounted : ordinalServices.ComparesCounted := by
  intro m string1 string2 caseInSensitive
  have hsign : ∀ o : Ordering,
      compare (match o with | .lt => (-1 : Int) | .eq => 0 | .gt => 1) 0 = o := by
    intro o
    cases o <;> rfl
  exact hsign _

/-- Many times `A`, but for a `B` at 0x1FFFE. -/
def longStrings : Bytes := fun a => if a = 0x1FFFE then 0x42 else if a % 2 = 0 then 0x41 else 0

theorem words_longStrings {a n : Nat} (heven : a % 2 = 0) (h : a + 2 * n ≤ 0x1FFFE ∨ 0x1FFFE < a) :
    words longStrings a n = List.replicate n 0x41 := by
  induction n generalizing a with
  | zero => rfl
  | succ n ih =>
    have hlow : longStrings a = 0x41 := by
      rw [longStrings, if_neg (by omega), if_pos heven]
    have hhigh : longStrings (a + 1) = 0 := by
      rw [longStrings, if_neg (by omega), if_neg (by omega)]
    have hword : readLE longStrings a 2 = 0x41 := by
      simp only [readLE, hlow, hhigh]
      decide
    rw [words, hword, ih (by omega) (by omega), List.replicate_succ]

theorem rtlCompareUnicodeStrings_exact_iff_prefix :
    compare (rtlCompareUnicodeStrings ordinalServices .amd64 longStrings 0x1FFFC 2 0x1FFFE 1 true)
          0 =
        (ordinalServices.folded true (words longStrings 0x1FFFC 2)).compareLex compare
          (ordinalServices.folded true (words longStrings 0x1FFFE 1)) ↔
      (ordinalServices.folded true ((words longStrings 0x1FFFC 2).take 32767) =
          ordinalServices.folded true ((words longStrings 0x1FFFE 1).take 32767) →
        ordinalServices.folded true (words longStrings 0x1FFFC 2) =
          ordinalServices.folded true (words longStrings 0x1FFFE 1)) :=
  rtlCompareUnicodeStrings_exact_iff ordinalServices ordinalServices_comparesCounted .amd64
    longStrings ⟨0x1FFFC, 2, by decide⟩ ⟨0x1FFFE, 1, by decide⟩ true

/-- Two strings of 32768 characters that differ in the last one. -/
theorem rtlCompareUnicodeStrings_truncates :
    ordinalServices.ComparesCounted ∧
      ¬ compare (rtlCompareUnicodeStrings ordinalServices .amd64 longStrings 0x10000 32768 0x20000
            32768 false) 0 =
          (ordinalServices.folded false (words longStrings 0x10000 32768)).compareLex compare
            (ordinalServices.folded false (words longStrings 0x20000 32768)) := by
  refine ⟨ordinalServices_comparesCounted, ?_⟩
  have hfirst : words longStrings 0x10000 (32767 + 1) = List.replicate 32767 0x41 ++ [0x42] := by
    rw [words_append, words_longStrings (by decide) (by decide)]
    rfl
  have hsecond : words longStrings 0x20000 (32767 + 1) = List.replicate 32767 0x41 ++ [0x41] := by
    rw [words_append, words_longStrings (by decide) (by decide)]
    rfl
  have hdiffer : words longStrings 0x10000 32768 ≠ words longStrings 0x20000 32768 := by
    intro h
    have hlast := List.append_cancel_left (hfirst.symm.trans (h.trans hsecond))
    exact absurd hlast (by decide)
  have hsame : (words longStrings 0x10000 32768).take 32767 =
      (words longStrings 0x20000 32768).take 32767 := by
    rw [words_take, words_take, words_longStrings (by decide) (by decide),
      words_longStrings (by decide) (by decide)]
  intro h
  have hcounted := rtlCompareUnicodeStrings_eq ordinalServices_comparesCounted longStrings
    (⟨0x10000, 32768, by decide⟩ : WideString .amd64) ⟨0x20000, 32768, by decide⟩ false
  exact hdiffer ((compareLex_take_iff 32767 _ _).mp (hcounted.symm.trans h) hsame)

end WinPolyfillLoader.Utils
