import WinPolyfillLoader.Library.NulStrings
import WinPolyfillLoader.MemoryModule.Machine
import WinPolyfillLoader.Status

/-!
The section that `RtlFindMemoryBlockFromModuleSection` looks for. The names in
the section headers are read as strings with a NUL, so a name that fills its
field goes on into the members behind it.
-/

namespace WinPolyfillLoader.LdrEntry

open ByteMemory MemoryModule

/-- The memory of the process, and ntdll: `RtlImageNtHeader`, null for what is no
image, and `RtlUpperChar`. -/
structure ModuleView where
  host : Host
  mapped : Nat → Bool
  bytes : Bytes
  imageNtHeader : Nat → Option Nat
  upperChar : UInt8 → UInt8

/-- `UINT16_MAX`, at which `StringLength` stops. -/
def uint16Max : Nat := 65535

/-- The characters of `MakeNtString`; `none` for an access violation. -/
def makeNtString (v : ModuleView) (string : Nat) : Option (List UInt8) :=
  loadString v.mapped v.bytes uint16Max string

/-- `RtlCompareString` without regard to case. -/
def rtlCompareString (upperChar : UInt8 → UInt8) : List UInt8 → List UInt8 → Int
  | [], second => -second.length
  | first, [] => first.length
  | a :: first, b :: second =>
    if upperChar a = upperChar b then rtlCompareString upperChar first second
    else (upperChar a).toNat - (upperChar b).toNat

/-- A member of a structure in memory, under the exception handler. -/
def ModuleView.load (v : ModuleView) (pointer : Nat) (field : Field) : Except NtStatus Nat :=
  match ByteMemory.load v.mapped v.bytes (pointer + field.offset) field.size with
  | none => .error statusAccessViolation
  | some value => .ok value

/-- The loop over the section headers, which it does not change. -/
def findSection (v : ModuleView) (sectionName : Nat) : Nat → Nat → Except NtStatus (Option Nat)
  | 0, _ => .ok none
  | remaining + 1, sectionHeader =>
    match makeNtString v sectionName, makeNtString v sectionHeader with
    | some stringA, some stringB =>
      if rtlCompareString v.upperChar stringA stringB = 0 then .ok (some sectionHeader)
      else findSection v sectionName remaining (sectionHeader + sizeOfSectionHeader)
    | _, _ => .error statusAccessViolation

/-- The header of the section with the name, if an image has one. -/
def selectSection (v : ModuleView) (sectionName ntHeaders : Nat) :
    Except NtStatus (Option Nat) := do
  let optionalSize ← v.load ntHeaders sizeOfOptionalHeader
  let count ← v.load ntHeaders numberOfSections
  findSection v sectionName count (ntHeaders + optionalHeader + optionalSize)

theorem rtlCompareString_eq_zero_iff (upperChar : UInt8 → UInt8) (first second : List UInt8) :
    rtlCompareString upperChar first second = 0 ↔
      first.map upperChar = second.map upperChar := by
  induction first generalizing second with
  | nil =>
    cases second with
    | nil => exact iff_of_true rfl rfl
    | cons b second =>
      apply iff_of_false
      · rw [rtlCompareString, List.length_cons]
        omega
      · exact fun h => nomatch h
  | cons a first ih =>
    cases second with
    | nil =>
      apply iff_of_false
      · rw [rtlCompareString, List.length_cons]
        · omega
        · exact fun h => nomatch h
      · exact fun h => nomatch h
    | cons b second =>
      rw [rtlCompareString, List.map_cons, List.map_cons, List.cons.injEq]
      split
      · rename_i heq
        rw [ih, and_iff_right heq]
      · rename_i hne
        apply iff_of_false
        · intro hzero
          apply hne
          apply UInt8.toNat_inj.mp
          omega
        · exact fun h => hne h.1

def imageSizeofShortName : Nat := 8

/-- The field `Name` of the section header is the name, without regard to case. -/
def Wanted (v : ModuleView) (name : List UInt8) (sectionHeader : Nat) : Prop :=
  (fieldString v.bytes imageSizeofShortName sectionHeader).map v.upperChar = name.map v.upperChar

instance (v : ModuleView) (name : List UInt8) (sectionHeader : Nat) :
    Decidable (Wanted v name sectionHeader) := inferInstanceAs (Decidable (_ = _))

/-- The name takes up its whole field. -/
def FillsField (v : ModuleView) (sectionHeader : Nat) : Prop :=
  (fieldString v.bytes imageSizeofShortName sectionHeader).length = imageSizeofShortName

/-- A scan from the address finds a NUL, or enough characters, before memory that
cannot be read. -/
def ScanEnds (v : ModuleView) (a : Nat) : Prop :=
  ∃ k ≤ uint16Max, (∀ j < k, v.mapped (a + j) = true) ∧
    (k < uint16Max → v.mapped (a + k) = true ∧ v.bytes (a + k) = 0)

/-- A name that fills its field is followed by a NUL if it is the one that is
looked for, and else by memory in which the scan ends. -/
def NameDelimited (v : ModuleView) (name : List UInt8) (sectionHeader : Nat) : Prop :=
  FillsField v sectionHeader →
    if Wanted v name sectionHeader then v.bytes (sectionHeader + imageSizeofShortName) = 0
    else ScanEnds v sectionHeader

/-- The first of the section headers whose name is the one looked for. -/
def wantedSection (v : ModuleView) (name : List UInt8) (count sectionHeader : Nat) : Option Nat :=
  (List.range' sectionHeader count sizeOfSectionHeader).find? fun h => decide (Wanted v name h)

variable {v : ModuleView} {name : List UInt8} {sectionHeader : Nat}

/-- What the comparison with the name of a section gives; `none` for an access
violation. -/
def sectionAnswer (v : ModuleView) (name : List UInt8) (sectionHeader : Nat) : Option Bool :=
  (makeNtString v sectionHeader).map fun s => decide (rtlCompareString v.upperChar name s = 0)

theorem scanEnds_iff {a : Nat} : ScanEnds v a ↔ (makeNtString v a).isSome = true :=
  loadString_isSome_iff.symm

theorem compare_ne_zero {s : List UInt8} (h : name.length ≠ s.length) :
    rtlCompareString v.upperChar name s ≠ 0 := by
  rw [ne_eq, rtlCompareString_eq_zero_iff]
  intro heq
  apply h
  rw [← List.length_map v.upperChar, heq, List.length_map]

/-- The scan of the name of a section: it stays in the field, or ends right behind
it, or finds more characters than a name has. -/
theorem makeNtString_cases
    (hmapped : ∀ j < sizeOfSectionHeader, v.mapped (sectionHeader + j) = true) :
    (¬ FillsField v sectionHeader ∨ v.bytes (sectionHeader + imageSizeofShortName) = 0) ∧
      makeNtString v sectionHeader =
        some (fieldString v.bytes imageSizeofShortName sectionHeader) ∨
    FillsField v sectionHeader ∧ v.bytes (sectionHeader + imageSizeofShortName) ≠ 0 ∧
      ∀ s, makeNtString v sectionHeader = some s → imageSizeofShortName < s.length := by
  have hfield : ∀ j < imageSizeofShortName, v.mapped (sectionHeader + j) = true :=
    fun j hj => hmapped j (Nat.lt_trans hj (by decide))
  have hbehind : v.mapped (sectionHeader + imageSizeofShortName) = true :=
    hmapped imageSizeofShortName (by decide)
  have hscan : makeNtString v sectionHeader =
      if (fieldString v.bytes imageSizeofShortName sectionHeader).length < imageSizeofShortName then
        some (fieldString v.bytes imageSizeofShortName sectionHeader)
      else (loadString v.mapped v.bytes (uint16Max - imageSizeofShortName)
        (sectionHeader + imageSizeofShortName)).map
          (fieldString v.bytes imageSizeofShortName sectionHeader ++ ·) :=
    loadString_field (k := uint16Max - imageSizeofShortName) hfield
  have hrest : loadString v.mapped v.bytes (uint16Max - imageSizeofShortName)
      (sectionHeader + imageSizeofShortName) = if _ then _ else _ := if_pos hbehind
  have hle := fieldString_length_le v.bytes imageSizeofShortName sectionHeader
  rcases Nat.lt_or_eq_of_le hle with hshort | hfull
  · refine Or.inl ⟨Or.inl (Nat.ne_of_lt hshort), ?_⟩
    rw [hscan, if_pos hshort]
  · rw [if_neg (Nat.not_lt.mpr (Nat.le_of_eq hfull.symm)), hrest] at hscan
    rcases Decidable.em (v.bytes (sectionHeader + imageSizeofShortName) = 0) with hzero | hne
    · refine Or.inl ⟨Or.inr hzero, ?_⟩
      rw [hscan, if_pos hzero, Option.map_some, List.append_nil]
    · refine Or.inr ⟨hfull, hne, ?_⟩
      intro s hs
      rw [hscan, if_neg hne, Option.map_map] at hs
      obtain ⟨rest, _, rfl⟩ := Option.map_eq_some_iff.mp hs
      simp only [Function.comp_apply, List.length_append, List.length_cons]
      omega

/-- One section: the code finds out whether it is the wanted one exactly if its
name is delimited. -/
theorem sectionAnswer_iff (hlength : name.length ≤ imageSizeofShortName)
    (hmapped : ∀ j < sizeOfSectionHeader, v.mapped (sectionHeader + j) = true) :
    sectionAnswer v name sectionHeader = some (decide (Wanted v name sectionHeader)) ↔
      NameDelimited v name sectionHeader := by
  rcases makeNtString_cases hmapped with ⟨hends, hscan⟩ | ⟨hfills, hne, hlonger⟩
  · -- the characters are those of the field
    apply iff_of_true
    · rw [sectionAnswer, hscan, Option.map_some]
      have hsame : rtlCompareString v.upperChar name
          (fieldString v.bytes imageSizeofShortName sectionHeader) = 0 ↔
            Wanted v name sectionHeader := by
        rw [rtlCompareString_eq_zero_iff, eq_comm]
        rfl
      rw [decide_eq_decide.mpr hsame]
    · intro hfills
      split
      · exact hends.resolve_left (not_not_intro hfills)
      · rw [scanEnds_iff, hscan]
        rfl
  · have hother : ∀ s, makeNtString v sectionHeader = some s →
        rtlCompareString v.upperChar name s ≠ 0 := by
      intro s hs
      apply compare_ne_zero
      have hlt := hlonger s hs
      omega
    rw [NameDelimited, forall_prop_of_true hfills]
    split
    · rename_i hwanted
      apply iff_of_false _ hne
      rw [decide_eq_true hwanted]
      intro htrue
      obtain ⟨s, hs, hzero⟩ := Option.map_eq_some_iff.mp htrue
      exact hother s hs (of_decide_eq_true hzero)
    · rename_i hunwanted
      rw [decide_eq_false hunwanted, scanEnds_iff, Option.isSome_iff_exists]
      constructor
      · intro hfalse
        obtain ⟨s, hs, _⟩ := Option.map_eq_some_iff.mp hfalse
        exact ⟨s, hs⟩
      · rintro ⟨s, hs⟩
        rw [sectionAnswer, hs, Option.map_some, decide_eq_false (hother s hs)]

theorem findSection_ge {sectionName count : Nat} {found : Nat}
    (h : findSection v sectionName count sectionHeader = .ok (some found)) :
    sectionHeader ≤ found := by
  induction count generalizing sectionHeader with
  | zero => cases h
  | succ count ih =>
    rw [findSection] at h
    split at h
    · split at h
      · cases h
        exact Nat.le_refl _
      · exact Nat.le_trans (Nat.le_add_right _ _) (ih h)
    · cases h

theorem findSection_succ {sectionName count : Nat} (hname : makeNtString v sectionName = some name) :
    findSection v sectionName (count + 1) sectionHeader =
      match sectionAnswer v name sectionHeader with
      | none => .error statusAccessViolation
      | some true => .ok (some sectionHeader)
      | some false => findSection v sectionName count (sectionHeader + sizeOfSectionHeader) := by
  rw [findSection, hname, sectionAnswer]
  cases makeNtString v sectionHeader with
  | none => rfl
  | some s =>
    simp only [Option.map_some]
    split
    · rename_i hzero
      rw [decide_eq_true hzero]
    · rename_i hne
      rw [decide_eq_false hne]

theorem wantedSection_succ {count : Nat} : wantedSection v name (count + 1) sectionHeader =
    if Wanted v name sectionHeader then some sectionHeader
    else wantedSection v name count (sectionHeader + sizeOfSectionHeader) := by
  rw [wantedSection, List.range'_succ, List.find?_cons]
  split
  · rename_i hwanted
    rw [if_pos (of_decide_eq_true hwanted)]
  · rename_i hother
    rw [if_neg (of_decide_eq_false hother)]
    rfl

theorem wantedSection_ge {count found : Nat}
    (h : wantedSection v name count sectionHeader = some found) : sectionHeader ≤ found := by
  obtain ⟨i, _, rfl⟩ := List.mem_range'.mp (List.mem_of_find?_eq_some h)
  exact Nat.le_add_right _ _

/-- What holds up to the first of a table: at the head, and behind it unless the head
is that first one. -/
theorem upToFirst_succ {W P : Nat → Prop} {n a k : Nat} :
    (∀ i < n + 1, (∀ j < i, ¬ W (a + j * k)) → P (a + i * k)) ↔
      P a ∧ (¬ W a → ∀ i < n, (∀ j < i, ¬ W (a + k + j * k)) → P (a + k + i * k)) := by
  have hhere : a + 0 * k = a := by omega
  have hstep : ∀ i, a + k + i * k = a + (i + 1) * k := by
    intro i
    rw [Nat.succ_mul]
    omega
  simp only [hstep]
  constructor
  · intro hall
    constructor
    · have hfirst := hall 0 (Nat.succ_pos n) fun j hj => absurd hj (Nat.not_lt_zero j)
      rwa [hhere] at hfirst
    · intro hother i hi hbefore
      apply hall (i + 1) (Nat.succ_lt_succ hi)
      intro j hj
      cases j with
      | zero => rwa [hhere]
      | succ j => exact hbefore j (Nat.lt_of_succ_lt_succ hj)
  · rintro ⟨hfirst, hrest⟩ i hi hbefore
    cases i with
    | zero => rwa [hhere]
    | succ i =>
      have hother := hbefore 0 (Nat.succ_pos i)
      rw [hhere] at hother
      exact hrest hother i (Nat.lt_of_succ_lt_succ hi) fun j hj =>
        hbefore (j + 1) (Nat.succ_lt_succ hj)

/-- The loop finds the first wanted section if and only if the comparison of each
section up to it answers whether it is wanted. -/
theorem findSection_iff {sectionName count : Nat} (hname : makeNtString v sectionName = some name) :
    findSection v sectionName count sectionHeader =
        .ok (wantedSection v name count sectionHeader) ↔
      ∀ i < count, (∀ j < i, ¬ Wanted v name (sectionHeader + j * sizeOfSectionHeader)) →
        sectionAnswer v name (sectionHeader + i * sizeOfSectionHeader) =
          some (decide (Wanted v name (sectionHeader + i * sizeOfSectionHeader))) := by
  induction count generalizing sectionHeader with
  | zero => exact iff_of_true rfl fun i hi => absurd hi (Nat.not_lt_zero i)
  | succ count ih =>
    have hbehind : ¬ sectionHeader + sizeOfSectionHeader ≤ sectionHeader := by
      rw [sizeOfSectionHeader]
      omega
    rw [upToFirst_succ (P := fun h => sectionAnswer v name h = some (decide (Wanted v name h))), ← ih,
      findSection_succ hname, wantedSection_succ]
    rcases Decidable.em (Wanted v name sectionHeader) with hwanted | hother
    · -- no section behind the wanted one counts
      rw [if_pos hwanted, decide_eq_true hwanted, and_iff_left fun hother => absurd hwanted hother]
      constructor
      · intro hfind
        split at hfind
        · cases hfind
        · assumption
        · exact absurd (findSection_ge hfind) hbehind
      · intro hanswer
        rw [hanswer]
    · rw [if_neg hother, decide_eq_false hother, forall_prop_of_true hother]
      constructor
      · intro hfind
        split at hfind
        · cases hfind
        · exact absurd (wantedSection_ge (Except.ok.inj hfind).symm) hbehind
        · exact ⟨by assumption, hfind⟩
      · rintro ⟨hanswer, hfind⟩
        rw [hanswer]
        exact hfind

/-- `NumberOfSections`. -/
def sectionCount (v : ModuleView) (ntHeaders : Nat) : Nat :=
  readLE v.bytes (ntHeaders + numberOfSections.offset) numberOfSections.size

def imageFirstSection (v : ModuleView) (ntHeaders : Nat) : Nat :=
  ntHeaders + optionalHeader +
    readLE v.bytes (ntHeaders + sizeOfOptionalHeader.offset) sizeOfOptionalHeader.size

/-- The members of the NT headers that the lookup needs can be read, and so can the
section table. -/
structure TableReadable (v : ModuleView) (ntHeaders : Nat) : Prop where
  optionalSize : accessible v.mapped (ntHeaders + sizeOfOptionalHeader.offset)
    sizeOfOptionalHeader.size = true
  count : accessible v.mapped (ntHeaders + numberOfSections.offset) numberOfSections.size = true
  sections : ∀ i < sectionCount v ntHeaders, ∀ j < sizeOfSectionHeader,
    v.mapped (imageFirstSection v ntHeaders + i * sizeOfSectionHeader + j) = true

theorem ModuleView.load_accessible {pointer : Nat} {field : Field}
    (h : accessible v.mapped (pointer + field.offset) field.size = true) :
    v.load pointer field = .ok (readLE v.bytes (pointer + field.offset) field.size) := by
  rw [ModuleView.load, ByteMemory.load, if_pos h]

theorem selectSection_eq {sectionName ntHeaders : Nat} (htable : TableReadable v ntHeaders) :
    selectSection v sectionName ntHeaders = findSection v sectionName (sectionCount v ntHeaders)
      (imageFirstSection v ntHeaders) := by
  rw [selectSection, ModuleView.load_accessible htable.optionalSize,
    ModuleView.load_accessible htable.count]
  rfl

/-- The lookup selects the first section whose name is the one looked for, or none,
if and only if the names of the sections up to it are delimited. -/
theorem selectSection_exact_iff {sectionName ntHeaders : Nat}
    (hname : makeNtString v sectionName = some name) (hlength : name.length ≤ imageSizeofShortName)
    (htable : TableReadable v ntHeaders) :
    selectSection v sectionName ntHeaders = .ok (wantedSection v name (sectionCount v ntHeaders)
        (imageFirstSection v ntHeaders)) ↔
      ∀ i < sectionCount v ntHeaders,
        (∀ j < i, ¬ Wanted v name (imageFirstSection v ntHeaders + j * sizeOfSectionHeader)) →
          NameDelimited v name (imageFirstSection v ntHeaders + i * sizeOfSectionHeader) := by
  rw [selectSection_eq htable, findSection_iff hname]
  apply forall_congr'
  intro i
  apply forall_congr'
  intro hi
  exact imp_congr_right fun _ => sectionAnswer_iff hlength (htable.sections i hi)

/-- The headers of an image with one section of the name `.textbss`, which fills
its field, and that name with a NUL. -/
def textbssView (size : Nat) : ModuleView where
  host := .amd64
  mapped := fun _ => true
  bytes := [(0x1006, 2, 1), (0x1018, 8, 0x737362747865742E), (0x1020, 4, size),
    (0x1024, 4, 0x1000), (0x2000, 8, 0x737362747865742E)].foldl
      (fun m field => writeLE m field.1 field.2.1 field.2.2) fun _ => 0
  imageNtHeader := fun _ => some 0x1000
  upperChar := fun b => if 97 ≤ b ∧ b ≤ 122 then b - 32 else b

def textbss : List UInt8 := [0x2E, 0x74, 0x65, 0x78, 0x74, 0x62, 0x73, 0x73]

theorem textbssView_readable (size : Nat) : TableReadable (textbssView size) 0x1000 where
  optionalSize := rfl
  count := rfl
  sections := fun _ _ _ _ => rfl

theorem selectSection_exact_textbss :
    selectSection (textbssView 0x10000) 0x2000 0x1000 = .ok (wantedSection (textbssView 0x10000)
        textbss (sectionCount (textbssView 0x10000) 0x1000)
        (imageFirstSection (textbssView 0x10000) 0x1000)) ↔
      ∀ i < sectionCount (textbssView 0x10000) 0x1000,
        (∀ j < i, ¬ Wanted (textbssView 0x10000) textbss
          (imageFirstSection (textbssView 0x10000) 0x1000 + j * sizeOfSectionHeader)) →
          NameDelimited (textbssView 0x10000) textbss
            (imageFirstSection (textbssView 0x10000) 0x1000 + i * sizeOfSectionHeader) :=
  selectSection_exact_iff (by decide +kernel) (by decide) (textbssView_readable 0x10000)

/-- The section is not found when the low byte of its `VirtualSize` is not 0. -/
theorem selectSection_misses_textbss :
    selectSection (textbssView 0x10001) 0x2000 0x1000 = .ok none ∧
      makeNtString (textbssView 0x10001) 0x2000 = some textbss ∧
      wantedSection (textbssView 0x10001) textbss (sectionCount (textbssView 0x10001) 0x1000)
        (imageFirstSection (textbssView 0x10001) 0x1000) = some 0x1018 := by
  refine ⟨?_, by decide +kernel, by decide +kernel⟩
  have hfind : selectSection (textbssView 0x10001) 0x2000 0x1000 =
      findSection (textbssView 0x10001) 0x2000 _ _ := selectSection_eq (textbssView_readable 0x10001)
  rw [hfind]
  decide +kernel

end WinPolyfillLoader.LdrEntry
