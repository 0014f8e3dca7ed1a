import Mathlib.Data.List.Find
import WinPolyfillLoader.LdrEntry.HashTable
import WinPolyfillLoader.MmpDotNet.FakeHandles

/-!
`MmpIsMemoryModuleFileName` on the bytes of the process. The names in the loader's list are
counted strings, of which so many characters are compared as their length has bytes: a name
is found only where a NUL follows it, and the comparison can run into what lies behind.
-/

namespace WinPolyfillLoader.MmpDotNet.FileNames

open ByteMemory MemoryModule LdrEntry Walks

/-- Why a call has not returned. -/
inductive Interruption where
  | running
  | accessViolation
deriving DecidableEq, Repr

/-- The argument `LdrEntry`: null, or a variable, which may be one that cannot be written. -/
inductive OutEntry where
  | null
  | unwritable
  | cell (value : Nat)
deriving DecidableEq, Repr

/-- `if (LdrEntry) *LdrEntry = value`; `none` for an exception. -/
def OutEntry.store : OutEntry → Nat → Option OutEntry
  | .null, _ => some .null
  | .unwritable, _ => none
  | .cell _, value => some (.cell value)

/-- What the call returns, and the variable after it. -/
structure NameAnswer where
  result : Bool
  ldrEntry : OutEntry
deriving DecidableEq, Repr

def orViolation {α : Type} : Option α → Except Interruption α
  | some value => .ok value
  | none => .error .accessViolation

/-- Members of `LDR_DATA_TABLE_ENTRY`. -/
def inLoadOrderLinks : Nat := 0
def dllBase (host : Host) : Nat := if host.win64 then 0x30 else 0x18
def fullDllName (host : Host) : Nat := if host.win64 then 0x48 else 0x24

section Source

variable (v : LoaderMemory)

def loadChar (string : Nat) : Except Interruption Wchar :=
  orViolation ((v.load string 2).map (BitVec.ofNat 16))

def wcsncmp : Nat → Nat → Nat → Except Interruption Int
  | 0, _, _ => .ok 0
  | count + 1, string1, string2 => do
    let c1 ← loadChar v string1
    let c2 ← loadChar v string2
    if c1 = c2 ∧ c1 ≠ 0 then wcsncmp count (string1 + 2) (string2 + 2)
    else return (c1.toNat : Int) - c2.toNat

def wcslen : Nat → Nat → Except Interruption Nat
  | 0, _ => .error .running
  | fuel + 1, string => do
    let c ← loadChar v string
    if c = 0 then return 0
    return (← wcslen fuel (string + 2)) + 1

def isFileName (fuel lpFileName curEntry : Nat) : Except Interruption Bool := do
  let buffer ← orViolation
    (v.load (curEntry + fullDllName v.host + unicodeStringBuffer v.host) v.host.pointerSize)
  let length ← orViolation (v.load (curEntry + fullDllName v.host) 2)
  if (← wcsncmp v length buffer lpFileName) ≠ 0 then return false
  return (← wcslen v fuel lpFileName) * 2 % v.host.addresses = length

def searchNames (isValidMemoryModuleHandle : Nat → Bool) (fuel head lpFileName : Nat)
    (ldrEntry : OutEntry) : Nat → Nat → Except Interruption NameAnswer
  | 0, _ => .error .running
  | rounds + 1, entry =>
    if entry = head then .ok ⟨false, ldrEntry⟩
    else do
      let curEntry := v.containingRecord entry inLoadOrderLinks
      if ← isFileName v fuel lpFileName curEntry then
        let base ← orViolation (v.load (curEntry + dllBase v.host) v.host.pointerSize)
        if isValidMemoryModuleHandle base then
          -- an exception here is handled, and the result stays
          return ⟨true, (ldrEntry.store curEntry).getD ldrEntry⟩
        else return ⟨false, ldrEntry⟩
      else
        let next ← orViolation (v.flink entry)
        searchNames isValidMemoryModuleHandle fuel head lpFileName ldrEntry rounds next

/-- `MmpIsMemoryModuleFileName`, with the address of `InLoadOrderModuleList`. -/
def mmpIsMemoryModuleFileName (isValidMemoryModuleHandle : Nat → Bool)
    (fuel head lpFileName : Nat) (ldrEntry : OutEntry) : Except Interruption NameAnswer :=
  match ldrEntry.store 0 with
  | none => .ok ⟨false, ldrEntry⟩
  | some ldrEntry => do
    let entry ← orViolation (v.flink head)
    searchNames v isValidMemoryModuleHandle fuel head lpFileName ldrEntry fuel entry

end Source

/-- An entry of the loader's list, with the characters that its name counts. -/
structure ListedFile where
  link : Nat
  dllBase : Nat
  length : Nat
  buffer : Nat
  chars : List Wchar
deriving DecidableEq, Repr

/-- The memory has these members, and the characters. -/
structure ListedFile.Held (v : LoaderMemory) (f : ListedFile) : Prop where
  dllBase : v.load (f.link + FileNames.dllBase v.host) v.host.pointerSize = some f.dllBase
  length : v.load (f.link + fullDllName v.host) 2 = some f.length
  buffer : v.load (f.link + fullDllName v.host + unicodeStringBuffer v.host)
    v.host.pointerSize = some f.buffer
  chars : v.loadChars (f.length / 2) f.buffer = some f.chars

/-- The loader's list, and a name with a NUL. -/
structure Listed (v : LoaderMemory) (head lpFileName : Nat) (files : List ListedFile)
    (name : List Wchar) : Prop where
  list : Circle v.flink head (files.map ListedFile.link)
  held : ∀ f ∈ files, f.Held v
  terminated : v.loadChars (name.length + 1) lpFileName = some (name ++ [0])
  noNul : 0 ∉ name

/-- The name of the entry is the one that is looked for, with nothing behind its
characters or a NUL. -/
def Delimited (v : LoaderMemory) (name : List Wchar) (f : ListedFile) : Prop :=
  f.length = 2 * name.length ∧ f.chars = name ∧
    (name = [] ∨ loadChar v (f.buffer + 2 * name.length) = .ok 0)

/-- The memory at the name goes on like the name that is looked for, up to a character that
cannot be read. -/
def Overruns (v : LoaderMemory) (name : List Wchar) (f : ListedFile) : Prop :=
  ∃ j < f.length, j ≤ name.length ∧ v.loadChars j f.buffer = some (name.take j) ∧
    v.load (f.buffer + 2 * j) 2 = none

instance (v : LoaderMemory) (name : List Wchar) (f : ListedFile) : Decidable (Delimited v name f) :=
  inferInstanceAs (Decidable (_ ∧ _))

instance (v : LoaderMemory) (name : List Wchar) (f : ListedFile) : Decidable (Overruns v name f) :=
  inferInstanceAs (Decidable (∃ j < _, _))

section Strings

variable {v : LoaderMemory}

@[simp] theorem ok_bind {α β : Type} (a : α) (next : α → Except Interruption β) :
    (Except.ok a >>= next) = next a := rfl

theorem loadChar_cases (v : LoaderMemory) (string : Nat) :
    (v.load string 2 = none ∧ loadChar v string = .error .accessViolation) ∨
      ∃ c, (v.load string 2).isSome = true ∧ loadChar v string = .ok c := by
  unfold loadChar
  cases v.load string 2 with
  | none => exact Or.inl ⟨rfl, rfl⟩
  | some c => exact Or.inr ⟨_, rfl, rfl⟩

/-- The characters of a buffer are its first one and those of the rest. -/
theorem loadChars_succ {n string : Nat} {c : Wchar} {chars : List Wchar} :
    v.loadChars (n + 1) string = some (c :: chars) ↔
      loadChar v string = .ok c ∧ v.loadChars n (string + 2) = some chars := by
  rw [LoaderMemory.loadChars, loadChar]
  cases v.load string 2 with
  | none => simp [orViolation]
  | some word =>
    cases v.loadChars n (string + 2) with
    | none => simp
    | some rest => simp [orViolation]

theorem loadChars_get {n string i : Nat} {c : Wchar} {chars : List Wchar}
    (h : v.loadChars n string = some chars) (hi : chars[i]? = some c) :
    loadChar v (string + 2 * i) = .ok c := by
  induction chars generalizing n string i with
  | nil => cases hi
  | cons d chars ih =>
    cases n with
    | zero => cases h
    | succ n =>
      obtain ⟨hfirst, hrest⟩ := loadChars_succ.mp h
      cases i with
      | zero =>
        cases hi
        exact hfirst
      | succ i =>
        have hnext : string + 2 * (i + 1) = string + 2 + 2 * i := by omega
        rw [hnext]
        exact ih hrest hi

theorem terminated_short {string : Nat} {name : List Wchar}
    (hname : v.loadChars (name.length + 1) string = some (name ++ [0])) (hnoNul : 0 ∉ name) :
    2 * name.length < v.host.addresses := by
  by_contra hlong
  obtain ⟨half, hhalf⟩ : ∃ half, v.host.addresses = 2 * half ∧ 0 < half := by
    cases v.host with
    | arm64 => exact ⟨2 ^ 63, by decide⟩
    | arm => exact ⟨2 ^ 31, by decide⟩
    | amd64 => exact ⟨2 ^ 63, by decide⟩
    | i386 => exact ⟨2 ^ 31, by decide⟩
  have hbefore : name.length - half < name.length := by omega
  have hlast : loadChar v (string + 2 * name.length) = .ok 0 :=
    loadChars_get hname (by simp)
  have hearly : loadChar v (string + 2 * (name.length - half)) =
      .ok name[name.length - half] := by
    apply loadChars_get hname
    rw [List.getElem?_append_left hbefore, List.getElem?_eq_getElem hbefore]
  have hround : string + 2 * name.length =
      string + 2 * (name.length - half) + v.host.addresses := by omega
  have hsame : loadChar v (string + 2 * name.length) =
      loadChar v (string + 2 * (name.length - half)) := by
    rw [hround, loadChar, LoaderMemory.load, Nat.add_mod_right]
    rfl
  rw [hearly, hlast] at hsame
  have hzero : 0 = name[name.length - half] := Except.ok.inj hsame
  exact hnoNul (hzero ▸ List.getElem_mem hbefore)

/-- The comparison of a buffer with a name that a NUL follows. -/
def agrees (v : LoaderMemory) : Nat → Nat → List Wchar → Except Interruption Bool
  | 0, _, _ => .ok true
  | count + 1, string, name => do
    let c ← loadChar v string
    match name with
    | [] => return c = 0
    | d :: name => if c = d then agrees v count (string + 2) name else return false

theorem agrees_fault {count string : Nat} {name : List Wchar}
    (h : loadChar v string = .error .accessViolation) :
    agrees v (count + 1) string name = .error .accessViolation := by
  rw [agrees, h]
  rfl

theorem agrees_nil {count string : Nat} {c : Wchar} (h : loadChar v string = .ok c) :
    agrees v (count + 1) string [] = .ok (decide (c = 0)) := by
  rw [agrees, h]
  rfl

theorem agrees_cons {count string : Nat} {c d : Wchar} {name : List Wchar}
    (h : loadChar v string = .ok c) :
    agrees v (count + 1) string (d :: name) =
      if c = d then agrees v count (string + 2) name else .ok false := by
  rw [agrees, h]
  rfl

theorem wcsncmp_agrees {count string1 string2 : Nat} {name : List Wchar}
    (hname : v.loadChars (name.length + 1) string2 = some (name ++ [0])) (hnoNul : 0 ∉ name) :
    (do return decide ((← wcsncmp v count string1 string2) = 0)) = agrees v count string1 name := by
  have hdifference : ∀ c d : Wchar, (c.toNat : Int) - d.toNat = 0 ↔ c = d := by
    intro c d
    rw [← BitVec.toNat_inj]
    omega
  induction count generalizing string1 string2 name with
  | zero => rfl
  | succ count ih =>
    rw [wcsncmp]
    rcases loadChar_cases v string1 with ⟨-, hfault⟩ | ⟨c, -, hc⟩
    · rw [hfault, agrees_fault hfault]
      rfl
    · cases name with
      | nil =>
        obtain ⟨hd, -⟩ := loadChars_succ.mp hname
        have hstop : ¬(c = 0 ∧ c ≠ 0) := fun h => h.2 h.1
        rw [hc, hd, ok_bind, ok_bind, if_neg hstop, agrees_nil hc]
        exact congrArg Except.ok (decide_eq_decide.mpr (hdifference c 0))
      | cons d name =>
        obtain ⟨hd, hrest⟩ := loadChars_succ.mp hname
        obtain ⟨hne, hnoNul⟩ := not_or.mp (mt List.mem_cons.mpr hnoNul)
        rw [hc, hd, ok_bind, ok_bind, agrees_cons hc]
        by_cases hsame : c = d
        · have hgo : c = d ∧ c ≠ 0 := ⟨hsame, hsame ▸ Ne.symm hne⟩
          rw [if_pos hgo, if_pos hsame]
          exact ih hrest hnoNul
        · have hstop : ¬(c = d ∧ c ≠ 0) := fun h => hsame h.1
          rw [if_neg hstop, if_neg hsame]
          exact congrArg Except.ok (decide_eq_false (mt (hdifference c d).mp hsame))

/-- The comparison faults at the first character that cannot be read, if all before it are
those of the name. -/
theorem agrees_error_iff {count string : Nat} {name : List Wchar} {e : Interruption} :
    agrees v count string name = .error e ↔ e = .accessViolation ∧
      ∃ j < count, j ≤ name.length ∧ v.loadChars j string = some (name.take j) ∧
        v.load (string + 2 * j) 2 = none := by
  induction count generalizing string name with
  | zero => exact iff_of_false (fun h => nomatch h) fun ⟨_, j, hj, _⟩ => Nat.not_lt_zero j hj
  | succ count ih =>
    rcases loadChar_cases v string with ⟨hnone, hfault⟩ | ⟨c, hsome, hc⟩
    · rw [agrees_fault hfault]
      constructor
      · rintro ⟨⟩
        exact ⟨rfl, 0, Nat.succ_pos count, Nat.zero_le _, rfl, hnone⟩
      · rintro ⟨rfl, -⟩
        rfl
    · have hfirst : v.load (string + 2 * 0) 2 ≠ none := by
        intro h
        rw [Nat.mul_zero, Nat.add_zero] at h
        rw [h] at hsome
        cases hsome
      cases name with
      | nil =>
        rw [agrees_nil hc]
        refine iff_of_false (fun h => nomatch h) ?_
        rintro ⟨-, j, -, hj, -, hnone⟩
        rw [Nat.le_zero.mp hj] at hnone
        exact hfirst hnone
      | cons d name =>
        have hstep : ∀ j, v.loadChars (j + 1) string = some (List.take (j + 1) (d :: name)) ↔
            c = d ∧ v.loadChars j (string + 2) = some (name.take j) := by
          intro j
          rw [List.take_succ_cons, loadChars_succ, hc, Except.ok.injEq]
        have hnext : ∀ j, string + 2 * (j + 1) = string + 2 + 2 * j := fun j => by omega
        rw [agrees_cons hc]
        by_cases hsame : c = d
        · rw [if_pos hsame, ih]
          apply and_congr_right
          intro _
          constructor
          · rintro ⟨j, hj, hle, hchars, hnone⟩
            exact ⟨j + 1, Nat.succ_lt_succ hj, Nat.succ_le_succ hle,
              (hstep j).mpr ⟨hsame, hchars⟩, hnext j ▸ hnone⟩
          · rintro ⟨j, hj, hle, hchars, hnone⟩
            cases j with
            | zero => exact absurd hnone hfirst
            | succ j => exact ⟨j, Nat.lt_of_succ_lt_succ hj, Nat.le_of_succ_le_succ hle,
                ((hstep j).mp hchars).2, hnext j ▸ hnone⟩
        · rw [if_neg hsame]
          refine iff_of_false (fun h => nomatch h) ?_
          rintro ⟨-, j, -, -, hchars, hnone⟩
          cases j with
          | zero => exact hfirst hnone
          | succ j => exact hsame ((hstep j).mp hchars).1

/-- The comparison finds no difference if it ends in the name, or if a NUL is behind it. -/
theorem agrees_true_iff {count string : Nat} {name : List Wchar} :
    agrees v count string name = .ok true ↔
      (count ≤ name.length ∧ v.loadChars count string = some (name.take count)) ∨
        (name.length < count ∧ v.loadChars name.length string = some name ∧
          loadChar v (string + 2 * name.length) = .ok 0) := by
  induction count generalizing string name with
  | zero => exact iff_of_true rfl (Or.inl ⟨Nat.zero_le _, rfl⟩)
  | succ count ih =>
    cases name with
    | nil =>
      rw [or_iff_right fun h => Nat.not_succ_le_zero count h.1]
      rcases loadChar_cases v string with ⟨-, hfault⟩ | ⟨c, -, hc⟩
      · simp [agrees_fault hfault, hfault]
      · simp [agrees_nil hc, hc, LoaderMemory.loadChars]
    | cons d name =>
      have hnext : string + 2 * (d :: name).length = string + 2 + 2 * name.length := by
        rw [List.length_cons]
        omega
      rw [List.take_succ_cons, List.length_cons, Nat.succ_le_succ_iff, Nat.succ_lt_succ_iff,
        loadChars_succ, loadChars_succ, ← List.length_cons, hnext]
      rcases loadChar_cases v string with ⟨-, hfault⟩ | ⟨c, -, hc⟩
      · simp [agrees_fault hfault, hfault]
      · rw [agrees_cons hc, hc, Except.ok.injEq]
        by_cases hsame : c = d
        · rw [if_pos hsame, ih]
          simp only [hsame, true_and]
        · rw [if_neg hsame]
          simp [hsame]

theorem wcslen_eq {fuel string : Nat} {name : List Wchar} (hfuel : name.length < fuel)
    (hname : v.loadChars (name.length + 1) string = some (name ++ [0])) (hnoNul : 0 ∉ name) :
    wcslen v fuel string = .ok name.length := by
  induction name generalizing fuel string with
  | nil =>
    obtain ⟨fuel, rfl⟩ := Nat.exists_eq_succ_of_ne_zero (Nat.ne_of_gt hfuel)
    obtain ⟨hc, -⟩ := loadChars_succ.mp hname
    rw [wcslen, hc, ok_bind, if_pos rfl]
    rfl
  | cons c name ih =>
    obtain ⟨fuel, rfl⟩ := Nat.exists_eq_succ_of_ne_zero (Nat.ne_of_gt (Nat.zero_lt_of_lt hfuel))
    obtain ⟨hc, hrest⟩ := loadChars_succ.mp hname
    obtain ⟨hne, hnoNul⟩ := not_or.mp (mt List.mem_cons.mpr hnoNul)
    rw [wcslen, hc, ok_bind, if_neg (Ne.symm hne), ih (Nat.lt_of_succ_lt_succ hfuel) hrest hnoNul]
    rfl

end Strings

section Search

variable {v : LoaderMemory} {lpFileName : Nat} {name : List Wchar}

theorem overruns_iff {f : ListedFile} :
    Overruns v name f ↔ agrees v f.length f.buffer name = .error .accessViolation := by
  rw [agrees_error_iff, and_iff_right rfl]
  rfl

/-- The name is delimited where the comparison and the lengths agree. -/
theorem delimited_iff {f : ListedFile} (hheld : f.Held v) :
    Delimited v name f ↔
      agrees v f.length f.buffer name = .ok true ∧ 2 * name.length = f.length := by
  have hcounted := hheld.chars
  rw [agrees_true_iff, and_comm, Delimited]
  constructor
  · rintro ⟨hlength, rfl, hend⟩
    have hhalf : f.length / 2 = f.chars.length := by omega
    rw [hhalf] at hcounted
    refine ⟨hlength.symm, ?_⟩
    rcases hend with hnil | hnul
    · rw [hnil, List.length_nil] at hlength
      exact Or.inl ⟨by omega, by rw [hlength]; rfl⟩
    · rcases Nat.eq_zero_or_pos f.chars.length with hnone | hsome
      · exact Or.inl ⟨by omega, by rw [hlength, hnone]; rfl⟩
      · exact Or.inr ⟨by omega, hcounted, hnul⟩
  · rintro ⟨hlength, hsame⟩
    have hhalf : f.length / 2 = name.length := by omega
    rw [hhalf] at hcounted
    rcases hsame with ⟨hle, -⟩ | ⟨-, hchars, hnul⟩
    · have hempty : name = [] := List.eq_nil_of_length_eq_zero (by omega)
      rw [hempty] at hcounted hlength ⊢
      exact ⟨hlength.symm, (Option.some_inj.mp hcounted).symm, Or.inl rfl⟩
    · rw [hchars] at hcounted
      exact ⟨hlength.symm, (Option.some_inj.mp hcounted).symm, Or.inr hnul⟩

theorem isFileName_agrees {fuel : Nat} (hfuel : name.length < fuel)
    (hname : v.loadChars (name.length + 1) lpFileName = some (name ++ [0])) (hnoNul : 0 ∉ name)
    {f : ListedFile} (hheld : f.Held v) :
    isFileName v fuel lpFileName f.link =
      (agrees v f.length f.buffer name >>= fun same =>
        .ok (same && decide (2 * name.length = f.length))) := by
  have hbytes : name.length * 2 % v.host.addresses = 2 * name.length := by
    rw [Nat.mul_comm, Nat.mod_eq_of_lt (terminated_short hname hnoNul)]
  rw [← wcsncmp_agrees hname hnoNul]
  unfold isFileName
  rw [hheld.buffer, hheld.length, wcslen_eq hfuel hname hnoNul]
  simp only [orViolation, ok_bind, hbytes]
  cases wcsncmp v f.length f.buffer lpFileName with
  | error e => rfl
  | ok order =>
    by_cases hzero : order = 0
    · simp [hzero, pure, Except.pure]
    · simp [hzero, pure, Except.pure]

theorem isFileName_eq {fuel : Nat} (hfuel : name.length < fuel)
    (hname : v.loadChars (name.length + 1) lpFileName = some (name ++ [0])) (hnoNul : 0 ∉ name)
    {f : ListedFile} (hheld : f.Held v) :
    isFileName v fuel lpFileName f.link =
      if Overruns v name f then .error .accessViolation
      else .ok (decide (Delimited v name f)) := by
  rw [isFileName_agrees hfuel hname hnoNul hheld]
  split
  · rename_i hfault
    rw [overruns_iff.mp hfault]
    rfl
  · rename_i hread
    cases hagrees : agrees v f.length f.buffer name with
    | error e =>
      have hviolation := (agrees_error_iff.mp hagrees).1
      rw [hviolation] at hagrees
      exact absurd (overruns_iff.mpr hagrees) hread
    | ok same =>
      rw [ok_bind, Except.ok.injEq, Bool.and_eq_decide, decide_eq_decide, delimited_iff hheld,
        hagrees, Except.ok.injEq, decide_eq_true_iff]

def stops (v : LoaderMemory) (name : List Wchar) (f : ListedFile) : Bool :=
  decide (Overruns v name f ∨ Delimited v name f)

/-- What the loop does at the first entry that it does not go on from. -/
def answerAt (v : LoaderMemory) (isValidMemoryModuleHandle : Nat → Bool) (ldrEntry : OutEntry)
    (name : List Wchar) : Option ListedFile → Except Interruption NameAnswer
  | none => .ok ⟨false, ldrEntry⟩
  | some f =>
    if Overruns v name f then .error .accessViolation
    else if isValidMemoryModuleHandle f.dllBase then
      .ok ⟨true, (ldrEntry.store f.link).getD ldrEntry⟩
    else .ok ⟨false, ldrEntry⟩

variable {isValidMemoryModuleHandle : Nat → Bool} {head : Nat} {ldrEntry : OutEntry}

/-- The loop goes on to the first entry that has the name or cannot be compared with it. -/
theorem searchNames_eq {fuel : Nat} (hfuel : name.length < fuel)
    (hname : v.loadChars (name.length + 1) lpFileName = some (name ++ [0])) (hnoNul : 0 ∉ name)
    {files : List ListedFile} (hheld : ∀ f ∈ files, f.Held v) {entry : Nat}
    (hentry : entry < v.host.addresses)
    (hwalk : Walk v.flink entry (files.map ListedFile.link) head)
    (hhead : head ∉ files.map ListedFile.link) {rounds : Nat} (hrounds : files.length < rounds) :
    searchNames v isValidMemoryModuleHandle fuel head lpFileName ldrEntry rounds entry =
      answerAt v isValidMemoryModuleHandle ldrEntry name (files.find? (stops v name)) := by
  induction files generalizing entry rounds with
  | nil =>
    obtain ⟨rounds, rfl⟩ := Nat.exists_eq_succ_of_ne_zero (Nat.ne_of_gt hrounds)
    have hdone : entry = head := hwalk
    rw [searchNames, if_pos hdone]
    rfl
  | cons f files ih =>
    obtain ⟨rounds, rfl⟩ :=
      Nat.exists_eq_succ_of_ne_zero (Nat.ne_of_gt (Nat.zero_lt_of_lt hrounds))
    obtain ⟨rfl, next, hnext, hwalk⟩ := hwalk
    obtain ⟨hne, hhead⟩ := not_or.mp (mt List.mem_cons.mpr hhead)
    have hfirst := hheld f List.mem_cons_self
    have hrecord : v.containingRecord f.link inLoadOrderLinks = f.link := by
      rw [LoaderMemory.containingRecord, inLoadOrderLinks, Nat.sub_zero, Nat.add_mod_right,
        Nat.mod_eq_of_lt hentry]
    rw [searchNames, if_neg (Ne.symm hne)]
    simp only [hrecord]
    rw [isFileName_eq hfuel hname hnoNul hfirst]
    by_cases hover : Overruns v name f
    · have hstops : stops v name f = true := decide_eq_true (Or.inl hover)
      rw [if_pos hover, List.find?_cons_of_pos hstops, answerAt, if_pos hover]
      rfl
    · rw [if_neg hover, ok_bind]
      by_cases hhit : Delimited v name f
      · have hstops : stops v name f = true := decide_eq_true (Or.inr hhit)
        rw [if_pos (decide_eq_true hhit), List.find?_cons_of_pos hstops, answerAt, if_neg hover,
          hfirst.dllBase]
        rfl
      · have hpasses : ¬stops v name f = true :=
          fun h => (of_decide_eq_true h).elim hover hhit
        rw [if_neg fun h => hhit (of_decide_eq_true h), List.find?_cons_of_neg hpasses, hnext]
        exact ih (fun g hg => hheld g (List.mem_cons_of_mem f hg)) (flink_lt hnext) hwalk hhead
          (Nat.lt_of_succ_lt_succ hrounds)

/-- The first entry of the name, if it is a memory module. -/
def expected (isValidMemoryModuleHandle : Nat → Bool) (files : List ListedFile)
    (name : List Wchar) : Option ListedFile :=
  (files.find? fun f => f.chars = name).filter fun f => isValidMemoryModuleHandle f.dllBase

/-- `TRUE` with the entry, or `FALSE` with null. -/
def exactAnswer (found : Option ListedFile) : NameAnswer :=
  ⟨found.isSome, .cell ((found.map ListedFile.link).getD 0)⟩

/-- The search comes to no character that cannot be read, and it goes past the first entry
of the name only where neither that entry nor the one that it stops at is a memory module. -/
structure Recognised (v : LoaderMemory) (isValidMemoryModuleHandle : Nat → Bool)
    (files : List ListedFile) (name : List Wchar) : Prop where
  readable : ∀ before f after, files = before ++ f :: after →
    (∀ g ∈ before, ¬Delimited v name g) → ¬Overruns v name f
  first : ∀ f, files.find? (fun f => f.chars = name) = some f → Delimited v name f ∨
    (isValidMemoryModuleHandle f.dllBase = false ∧ ∀ g,
      files.find? (fun g => Delimited v name g) = some g →
        isValidMemoryModuleHandle g.dllBase = false)

/-- Of two places in a list, one is before the other unless they are the same. -/
theorem append_cons_cases {α : Type} {before after before' after' : List α} {a b : α}
    (h : before ++ a :: after = before' ++ b :: after') : a ∈ before' ∨ a = b ∨ b ∈ before := by
  rcases List.append_eq_append_iff.mp h with ⟨more, hbefore, hafter⟩ | ⟨more, hbefore, hafter⟩
  · cases more with
    | nil => exact Or.inr (Or.inl (List.cons.inj hafter).1)
    | cons x more =>
      obtain ⟨rfl, -⟩ := List.cons.inj hafter
      exact Or.inl (hbefore ▸ List.mem_append_cons_self)
  · cases more with
    | nil => exact Or.inr (Or.inl (List.cons.inj hafter).1.symm)
    | cons x more =>
      obtain ⟨rfl, -⟩ := List.cons.inj hafter
      exact Or.inr (Or.inr (hbefore ▸ List.mem_append_cons_self))

theorem expected_eq_none_iff {files : List ListedFile} :
    expected isValidMemoryModuleHandle files name = none ↔
      ∀ f, files.find? (fun f => f.chars = name) = some f →
        isValidMemoryModuleHandle f.dllBase = false := by
  rw [expected]
  cases files.find? (fun f => f.chars = name) with
  | none => simp
  | some f => simp

theorem exactAnswer_eq_false_iff {found : Option ListedFile} :
    (.ok ⟨false, .cell 0⟩ : Except Interruption NameAnswer) = .ok (exactAnswer found) ↔
      found = none := by
  cases found with
  | none => exact iff_of_true rfl rfl
  | some f => exact iff_of_false (fun h => nomatch h) fun h => nomatch h

theorem recognised_of_passes {files : List ListedFile}
    (hpasses : files.find? (stops v name) = none) :
    Recognised v isValidMemoryModuleHandle files name ↔
      expected isValidMemoryModuleHandle files name = none := by
  have hnone : ∀ f ∈ files, ¬(Overruns v name f ∨ Delimited v name f) :=
    fun f hf h => List.find?_eq_none.mp hpasses f hf (decide_eq_true h)
  rw [expected_eq_none_iff]
  constructor
  · intro h f hf
    rcases h.first f hf with hhit | ⟨hinvalid, -⟩
    · exact absurd (Or.inr hhit) (hnone f (List.mem_of_find?_eq_some hf))
    · exact hinvalid
  · intro h
    refine ⟨fun before f after hfiles _ hover => ?_, fun f hf => Or.inr ⟨h f hf, fun g hg => ?_⟩⟩
    · exact hnone f (by rw [hfiles]; exact List.mem_append_cons_self) (Or.inl hover)
    · have hfound := List.find?_some hg
      have hhit : Delimited v name g := of_decide_eq_true hfound
      exact absurd (Or.inr hhit) (hnone g (List.mem_of_find?_eq_some hg))

/-- Where the loop stops at an entry of the name, the first one of the name decides. -/
theorem recognised_iff_first {before after : List ListedFile} {f : ListedFile}
    (hpassed : ∀ g ∈ before, ¬(Overruns v name g ∨ Delimited v name g))
    (hhit : Delimited v name f) (hread : ¬Overruns v name f) :
    Recognised v isValidMemoryModuleHandle (before ++ f :: after) name ↔
      ∀ s, (before ++ f :: after).find? (fun g => g.chars = name) = some s →
        Delimited v name s ∨ (isValidMemoryModuleHandle s.dllBase = false ∧
          isValidMemoryModuleHandle f.dllBase = false) := by
  have hreadable : ∀ before' g after', before ++ f :: after = before' ++ g :: after' →
      (∀ x ∈ before', ¬Delimited v name x) → ¬Overruns v name g := by
    intro before' g after' hsplit hnone hover
    rcases append_cons_cases hsplit with hearlier | rfl | hlater
    · exact hnone f hearlier hhit
    · exact hread hover
    · exact hpassed g hlater (Or.inl hover)
  have hfound : (before ++ f :: after).find? (fun g => Delimited v name g) = some f := by
    rw [List.find?_eq_some_iff_append]
    refine ⟨decide_eq_true hhit, before, after, rfl, fun g hg => ?_⟩
    simpa using fun h => hpassed g hg (Or.inr h)
  constructor
  · intro h s hs
    exact (h.first s hs).imp_right fun ⟨hfirst, hlater⟩ => ⟨hfirst, hlater f hfound⟩
  · intro h
    refine ⟨hreadable, fun s hs => (h s hs).imp_right fun ⟨hfirst, hlater⟩ => ⟨hfirst, ?_⟩⟩
    intro g hg
    rw [hfound] at hg
    cases hg
    exact hlater

theorem recognised_of_stops {before after : List ListedFile} {f : ListedFile}
    (hnodup : ((before ++ f :: after).map ListedFile.link).Nodup)
    (hpassed : ∀ g ∈ before, ¬(Overruns v name g ∨ Delimited v name g))
    (hhit : Delimited v name f) (hread : ¬Overruns v name f) :
    Recognised v isValidMemoryModuleHandle (before ++ f :: after) name ↔
      (if isValidMemoryModuleHandle f.dllBase then
          (.ok ⟨true, .cell f.link⟩ : Except Interruption NameAnswer)
        else .ok ⟨false, .cell 0⟩) =
        .ok (exactAnswer (expected isValidMemoryModuleHandle (before ++ f :: after) name)) := by
  rw [recognised_iff_first hpassed hhit hread]
  obtain ⟨s, hs⟩ : ∃ s, (before ++ f :: after).find? (fun g => g.chars = name) = some s := by
    rw [← Option.isSome_iff_exists, List.find?_isSome]
    exact ⟨f, List.mem_append_cons_self, decide_eq_true hhit.2.1⟩
  have hwhere : f = s ∨ s ∈ before := by
    obtain ⟨-, before', after', hsplit, hnone⟩ := List.find?_eq_some_iff_append.mp hs
    refine (append_cons_cases hsplit).resolve_left fun hearlier => ?_
    have hother := hnone f hearlier
    rw [decide_eq_true hhit.2.1] at hother
    cases hother
  rw [expected, hs, Option.filter_some]
  simp only [Option.some.injEq, forall_eq']
  rcases hwhere with rfl | hpast
  · apply iff_of_true (Or.inl hhit)
    cases isValidMemoryModuleHandle f.dllBase <;> rfl
  · have hmiss : ¬Delimited v name s := fun h => hpassed s hpast (Or.inr h)
    have hlink : f.link ≠ s.link := by
      rw [List.map_append, List.map_cons] at hnodup
      have hapart := (List.nodup_append.mp hnodup).2.2
      exact fun h => hapart s.link (List.mem_map_of_mem hpast) f.link List.mem_cons_self h.symm
    rw [or_iff_right hmiss]
    cases isValidMemoryModuleHandle s.dllBase with
    | true =>
      apply iff_of_false fun h => nomatch h.1
      cases isValidMemoryModuleHandle f.dllBase with
      | true => simpa [exactAnswer] using hlink
      | false => exact fun h => nomatch h
    | false =>
      cases isValidMemoryModuleHandle f.dllBase with
      | true => exact iff_of_false (fun h => nomatch h.2) fun h => nomatch h
      | false => exact iff_of_true ⟨rfl, rfl⟩ rfl

/-- The call over a list, with enough rounds for its entries and the characters. -/
theorem mmpIsMemoryModuleFileName_eq {files : List ListedFile} {cleared : OutEntry}
    (hlisted : Listed v head lpFileName files name) {fuel : Nat}
    (hfuel : files.length + name.length < fuel) (hstore : ldrEntry.store 0 = some cleared) :
    mmpIsMemoryModuleFileName v isValidMemoryModuleHandle fuel head lpFileName ldrEntry =
      answerAt v isValidMemoryModuleHandle cleared name (files.find? (stops v name)) := by
  obtain ⟨first, hfirst, hwalk⟩ := circle_first hlisted.list
  rw [mmpIsMemoryModuleFileName, hstore, hfirst]
  exact searchNames_eq (by omega) hlisted.terminated hlisted.noNul hlisted.held (flink_lt hfirst)
    hwalk (List.nodup_cons.mp hlisted.list.2).1 (by omega)

theorem mmpIsMemoryModuleFileName_null {files : List ListedFile} {old : Nat}
    (hlisted : Listed v head lpFileName files name) {fuel : Nat}
    (hfuel : files.length + name.length < fuel) :
    (mmpIsMemoryModuleFileName v isValidMemoryModuleHandle fuel head lpFileName .null).map
        NameAnswer.result =
      (mmpIsMemoryModuleFileName v isValidMemoryModuleHandle fuel head lpFileName (.cell old)).map
        NameAnswer.result := by
  rw [mmpIsMemoryModuleFileName_eq hlisted hfuel rfl, mmpIsMemoryModuleFileName_eq hlisted hfuel rfl]
  cases files.find? (stops v name) with
  | none => rfl
  | some f =>
    rw [answerAt, answerAt]
    split
    · rfl
    · split <;> rfl

/-- The exact answer is that of the hooks' model, which has the names as lists. -/
theorem expected_eq_hooks {δ ι τ ρ : Type} (D : DotNetHelpers δ ι τ ρ)
    (p : Loader.Process δ ι τ ρ) {files : List ListedFile}
    (hlist : D.inLoadOrderModuleList p.database = files.map ListedFile.link)
    (hname : ∀ f ∈ files, D.fullDllName p.database f.link = f.chars)
    (hmodule : ∀ f ∈ files, isValidMemoryModuleHandle f.dllBase =
      (p.modules (D.ldrEntryAt p.database f.link).dllBase).isSome) :
    MmpDotNet.mmpIsMemoryModuleFileName D name p =
      (expected isValidMemoryModuleHandle files name).map ListedFile.link := by
  have hfind : (files.map ListedFile.link).find?
        (fun e => D.fullDllName p.database e == name) =
      (files.find? fun f => f.chars = name).map ListedFile.link := by
    rw [List.find?_map]
    congr 1
    apply List.find?_congr
    intro f hf
    rw [Function.comp_apply, hname f hf, beq_eq_decide]
  rw [MmpDotNet.mmpIsMemoryModuleFileName, hlist, hfind, expected]
  cases hfound : files.find? (fun f => f.chars = name) with
  | none => rfl
  | some f =>
    simp only [Option.map_some, Option.filter_some, hmodule f (List.mem_of_find?_eq_some hfound)]
    split <;> rfl

end Search

/-- The answer is the exact one if the search is not stopped by a fault, and if the first
entry of the name is followed by a NUL or is as good as one that is not there. -/
theorem mmpIsMemoryModuleFileName_exact_iff (v : LoaderMemory)
    (isValidMemoryModuleHandle : Nat → Bool) (head lpFileName old : Nat)
    (files : List ListedFile) (name : List Wchar) (hlisted : Listed v head lpFileName files name) :
    (∃ enough, ∀ fuel, enough ≤ fuel →
      mmpIsMemoryModuleFileName v isValidMemoryModuleHandle fuel head lpFileName (.cell old) =
        .ok (exactAnswer (expected isValidMemoryModuleHandle files name))) ↔
    Recognised v isValidMemoryModuleHandle files name := by
  have hcall : ∀ fuel, files.length + name.length < fuel →
      mmpIsMemoryModuleFileName v isValidMemoryModuleHandle fuel head lpFileName (.cell old) =
        answerAt v isValidMemoryModuleHandle (.cell 0) name (files.find? (stops v name)) :=
    fun fuel hfuel => mmpIsMemoryModuleFileName_eq hlisted hfuel rfl
  have hsettled : (∃ enough, ∀ fuel, enough ≤ fuel →
      mmpIsMemoryModuleFileName v isValidMemoryModuleHandle fuel head lpFileName (.cell old) =
        .ok (exactAnswer (expected isValidMemoryModuleHandle files name))) ↔
      answerAt v isValidMemoryModuleHandle (.cell 0) name (files.find? (stops v name)) =
        .ok (exactAnswer (expected isValidMemoryModuleHandle files name)) := by
    constructor
    · rintro ⟨enough, h⟩
      rw [← hcall (enough + (files.length + name.length + 1)) (by omega)]
      exact h _ (Nat.le_add_right _ _)
    · intro h
      exact ⟨files.length + name.length + 1, fun fuel hfuel => (hcall fuel (by omega)).trans h⟩
  rw [hsettled]
  cases hstops : files.find? (stops v name) with
  | none => rw [recognised_of_passes hstops, answerAt, exactAnswer_eq_false_iff]
  | some f =>
    obtain ⟨hstop, before, after, rfl, hpassed⟩ := List.find?_eq_some_iff_append.mp hstops
    have hpassed : ∀ g ∈ before, ¬(Overruns v name g ∨ Delimited v name g) :=
      fun g hg => by simpa [stops] using hpassed g hg
    have hlinks := (List.nodup_cons.mp hlisted.list.2).2
    rw [answerAt]
    by_cases hover : Overruns v name f
    · rw [if_pos hover]
      refine iff_of_false (fun h => nomatch h) fun h => ?_
      exact h.readable before f after rfl (fun g hg hhit => hpassed g hg (Or.inr hhit)) hover
    · have hhit := (of_decide_eq_true hstop).resolve_left hover
      rw [if_neg hover]
      exact (recognised_of_stops hlinks hpassed hhit hover).symm

/-- A list of one entry, whose name is one character with `behind` after it; the name at
0x22000 is that character. -/
def oneFile (behind : Nat) : LoaderMemory where
  host := .amd64
  mapped := fun a => 0x10000 ≤ a ∧ a < 0x30000
  bytes :=
    let list := writeLE (writeLE (fun _ => 0) 0x10000 8 0x20000) 0x20000 8 0x10000
    let entry := writeLE (writeLE (writeLE list 0x20030 8 0x400000) 0x20048 2 2) 0x20050 8 0x21000
    writeLE (writeLE (writeLE entry 0x21000 2 0x61) 0x21002 2 behind) 0x22000 2 0x61
  services := plainServices
  globals := ⟨systemWin10Rtm, 0x120, 0⟩

def listedFile : ListedFile := ⟨0x20000, 0x400000, 2, 0x21000, [0x61]⟩

theorem oneFile_terminated : Listed (oneFile 0) 0x10000 0x22000 [listedFile] [0x61] where
  list := ⟨⟨rfl, 0x20000, by decide, rfl, 0x10000, by decide, rfl⟩, by decide⟩
  held := by
    intro f hf
    rw [List.mem_singleton.mp hf]
    exact ⟨by decide, by decide, by decide, by decide⟩
  terminated := by decide
  noNul := by decide

theorem oneFile_unterminated : Listed (oneFile 0x62) 0x10000 0x22000 [listedFile] [0x61] where
  list := ⟨⟨rfl, 0x20000, by decide, rfl, 0x10000, by decide, rfl⟩, by decide⟩
  held := by
    intro f hf
    rw [List.mem_singleton.mp hf]
    exact ⟨by decide, by decide, by decide, by decide⟩
  terminated := by decide
  noNul := by decide

theorem mmpIsMemoryModuleFileName_exact_iff_oneFile :
    (∃ enough, ∀ fuel, enough ≤ fuel →
      mmpIsMemoryModuleFileName (oneFile 0) (· = 0x400000) fuel 0x10000 0x22000 (.cell 7) =
        .ok (exactAnswer (expected (· = 0x400000) [listedFile] [0x61]))) ↔
    Recognised (oneFile 0) (· = 0x400000) [listedFile] [0x61] :=
  mmpIsMemoryModuleFileName_exact_iff (oneFile 0) (· = 0x400000) 0x10000 0x22000 7 [listedFile]
    [0x61] oneFile_terminated

/-- A memory module of the name is not found if its name is not followed by a NUL. -/
theorem mmpIsMemoryModuleFileName_misses :
    Listed (oneFile 0x62) 0x10000 0x22000 [listedFile] [0x61] ∧
      ¬∃ enough, ∀ fuel, enough ≤ fuel →
        mmpIsMemoryModuleFileName (oneFile 0x62) (· = 0x400000) fuel 0x10000 0x22000 (.cell 7) =
          .ok (exactAnswer (expected (· = 0x400000) [listedFile] [0x61])) := by
  refine ⟨oneFile_unterminated, ?_⟩
  rintro ⟨enough, h⟩
  have hstore : (OutEntry.cell 7).store 0 = some (.cell 0) := rfl
  have hrounds : [listedFile].length + [(0x61 : Wchar)].length < enough + 3 := by
    rw [List.length_singleton, List.length_singleton]
    omega
  have hcall := h (enough + 3) (Nat.le_add_right _ _)
  rw [mmpIsMemoryModuleFileName_eq oneFile_unterminated hrounds hstore] at hcall
  exact absurd hcall (by decide)

end WinPolyfillLoader.MmpDotNet.FileNames
