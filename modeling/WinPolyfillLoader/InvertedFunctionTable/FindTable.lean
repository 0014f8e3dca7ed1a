import Mathlib.Order.Bounds.Basic
import WinPolyfillLoader.InvertedFunctionTable.InsertStatus
import WinPolyfillLoader.InvertedFunctionTable.TableBytes
import WinPolyfillLoader.LdrEntry.PatternSearch
import WinPolyfillLoader.Library.Members

/-!
`FindLdrpInvertedFunctionTable64` and `FindLdrpInvertedFunctionTable32`. The table has no
name: the loader looks in ntdll for the entry that a module must have in it, and takes the
first place at which the bytes in front of the entry are those of a table header.
-/

namespace WinPolyfillLoader.InvertedFunctionTable

open ByteMemory LdrEntry MemoryModule Positions

/-- An entry of the module lists of the process, with `DdagNode->State`. -/
structure ListedModule where
  dllBase : Nat
  state : Int
deriving DecidableEq, Repr

def ldrModulesUnloaded : Int := -2

def isModuleUnloaded (nt : NtVersions) (entry : ListedModule) : Bool :=
  if rtlIsWindowsVersionOrGreater nt 6 2 0 then entry.state == ldrModulesUnloaded
  else entry.dllBase == 0

/-- `RTL_VERIFY_FLAGS_MINOR_VERSION`; that of the major version is 0. -/
def rtlVerifyFlagsMinorVersion : Nat := 1

def rtlVerifyFlagsBuildNumbers : Nat := 2

def rtlVerifyVersion (nt : NtVersions) (majorVersion minorVersion buildNumber : Dword)
    (flags : Nat) : Bool :=
  nt.majorVersion == majorVersion &&
    (flags &&& rtlVerifyFlagsMinorVersion == 0 || nt.minorVersion == minorVersion) &&
    (flags &&& rtlVerifyFlagsBuildNumbers == 0 || nt.buildNumber == buildNumber)

/-- The loop for the smallest base of the modules that are not skipped. -/
def smallestBase (skips : ListedModule → Bool) : Nat → List ListedModule → Nat
  | hModule, [] => hModule
  | hModule, entry :: rest =>
    if skips entry then smallestBase skips hModule rest
    else smallestBase skips (if hModule ≠ 0 then min hModule entry.dllBase else entry.dllBase) rest

/-- What the search works with: the memory of the process, ntdll, the addresses of the
local variable `entry` and of the two section names, the modules of the process, and a
bound for the loops. -/
structure TableSearch where
  view : ModuleView
  hNtdll : Nat
  entry : Nat
  data : Nat
  mrdata : Nat
  modules : List ListedModule
  isValidMemoryModuleHandle : Nat → Bool
  fuel : Nat

/-- `MaxCount == 0x200` and no overflow, in one of the two places it can be recorded;
`none` for an access violation. -/
def isInvertedTable (v : ModuleView) (nt : NtVersions) (tab : Nat) : Option Bool := do
  let maxCount ← load v.mapped v.bytes (tab + 4) 4
  if maxCount ≠ 0x200 then return false
  if rtlIsWindowsVersionOrGreater nt 6 2 0 then
    let overflow ← load v.mapped v.bytes (tab + 12) 4
    if overflow = 0 then return true
  let epoch ← load v.mapped v.bytes (tab + 8) 4
  return decide (epoch = 0)

/-- The search loop: a table lies `offset` in front of the hit. `none` for an access
violation or if it still runs. -/
def searchTable (v : ModuleView) (nt : NtVersions) (hNtdll sectionName fuel offset : Nat) :
    Nat → SearchContext → Option Nat
  | 0, _ => none
  | rounds + 1, searchContext =>
    match rtlFindMemoryBlockFromModuleSection v hNtdll sectionName fuel searchContext with
    | none => none
    | some (status, searchContext) =>
      if ntSuccess status then
        let tab := (searchContext.result + v.host.addresses - offset) % v.host.addresses
        match isInvertedTable v nt tab with
        | none => none
        | some true => some tab
        | some false => searchTable v nt hNtdll sectionName fuel offset rounds searchContext
      else some 0

/-- The memory with the local variable `entry` filled in. -/
def TableSearch.viewWith (s : TableSearch) (members : List (Nat × Nat)) : ModuleView :=
  { s.view with bytes := writeMembers s.view.bytes s.entry members }

/-- The part that the two functions share, from the module whose entry is looked for on.
Null if there is no such module or no ntdll. -/
def TableSearch.locate (s : TableSearch) (nt : NtVersions) (hModule sectionName offset : Nat)
    (members : Nat → Option (List (Nat × Nat))) : Option Nat :=
  match s.view.imageNtHeader hModule, s.view.imageNtHeader s.hNtdll with
  | some moduleHeaders, some _ =>
    if hModule = 0 ∨ s.hNtdll = 0 then some 0
    else
      match members moduleHeaders with
      | none => none
      | some members =>
        searchTable (s.viewWith members) nt s.hNtdll sectionName s.fuel offset s.fuel
          ⟨s.entry, sizeOfMembers members, 0, 0⟩
  | _, _ => some 0

/-- `DataDirectory[IMAGE_DIRECTORY_ENTRY_EXCEPTION]` of the 64-bit headers. -/
def exceptionVirtualAddress : Field := ⟨optionalHeader + 112 + 24, 4⟩
def exceptionSize : Field := ⟨optionalHeader + 112 + 28, 4⟩

/-- `RTL_INVERTED_FUNCTION_TABLE_ENTRY_64`. -/
def entry64Members (entry : Entry64) : List (Nat × Nat) :=
  [(8, entry.exceptionDirectory), (8, entry.imageBase), (4, entry.imageSize),
    (4, entry.exceptionDirectorySize)]

def loadMember (v : ModuleView) (pointer : Nat) (field : Field) : Option Nat :=
  load v.mapped v.bytes (pointer + field.offset) field.size

/-- The address of the exception directory, null if it has no size. -/
def findDirectory64 (v : ModuleView) (hModule moduleHeaders size : Nat) : Option Nat :=
  if size ≠ 0 then (loadMember v moduleHeaders exceptionVirtualAddress).map (v.host.offset hModule)
  else some 0

/-- The entry that the table must have for the module. -/
def findEntry64 (v : ModuleView) (hModule moduleHeaders : Nat) : Option Entry64 := do
  let size ← loadMember v moduleHeaders exceptionSize
  let directory ← findDirectory64 v hModule moduleHeaders size
  let imageSize ← loadMember v moduleHeaders sizeOfImage
  return ⟨directory, hModule, imageSize, size⟩

def findLdrpInvertedFunctionTable64 (s : TableSearch) (nt : NtVersions) : Option Nat :=
  let members hModule moduleHeaders :=
    (findEntry64 s.view hModule moduleHeaders).map entry64Members
  if rtlVerifyVersion nt 6 2 0 rtlVerifyFlagsMinorVersion then
    s.locate nt s.hNtdll s.data 0x10 (members s.hNtdll)
  else if rtlIsWindowsVersionOrGreater nt 6 3 0 then
    s.locate nt s.hNtdll s.mrdata 0x10 (members s.hNtdll)
  else
    let hModule := smallestBase (fun entry => s.isValidMemoryModuleHandle entry.dllBase) 0 s.modules
    s.locate nt hModule s.data 0x10 (members hModule)

/-- The four stores of the 32-bit search, in the order of the words of the table. -/
def entry32Members (entry : Entry32) : List (Nat × Nat) :=
  [(4, entry.entrySEHandlerTableEncoded), (4, entry.imageBase), (4, entry.imageSize),
    (4, entry.seHandlerCount)]

/-- The modules that the 32-bit search does not look at. -/
def TableSearch.skips32 (s : TableSearch) (nt : NtVersions) (offset : Nat)
    (entry : ListedModule) : Bool :=
  isModuleUnloaded nt entry || s.isValidMemoryModuleHandle entry.dllBase ||
    entry.dllBase == s.hNtdll && offset == 0x20

def findLdrpInvertedFunctionTable32 (s : TableSearch) (nt : NtVersions)
    (image : Nat → ImageExceptionView) (rtlEncodeSystemPointer : Nat → Nat) : Option Nat :=
  let sectionName := if rtlIsWindowsVersionOrGreater nt 6 3 0 then s.mrdata else s.data
  let offset := if rtlIsWindowsVersionOrGreater nt 6 2 0 then 0x20 else 0xC
  let hModule := smallestBase (s.skips32 nt offset) 0 s.modules
  s.locate nt hModule sectionName offset fun moduleHeaders => do
    let imageSize ← loadMember s.view moduleHeaders sizeOfImage
    return entry32Members (newEntry32 image rtlEncodeSystemPointer hModule imageSize)

/-- The header that the search accepts. -/
def IsInvertedTable (nt : NtVersions) (m : Bytes) (tab : Nat) : Prop :=
  readLE m (tab + 4) 4 = 0x200 ∧
    (isWin8OrGreater nt = true ∧ readLE m (tab + 12) 4 = 0 ∨ readLE m (tab + 8) 4 = 0)

instance (nt : NtVersions) (m : Bytes) (tab : Nat) : Decidable (IsInvertedTable nt m tab) :=
  inferInstanceAs (Decidable (_ ∧ (_ ∨ _)))

/-- The search gives the first of the places it may give, or null if there is none. -/
def Locates (found : Option Nat) (place : Nat → Prop) : Prop :=
  ∃ tab, found = some tab ∧ (IsLeast {t | place t} tab ∨ tab = 0 ∧ ∀ t, ¬ place t)

section Loop

variable {v : ModuleView} {nt : NtVersions} {hNtdll sectionName fuel offset : Nat}
  {x : SearchContext} {start size : Nat}

theorem isInvertedTable_eq {tab : Nat} (hread : accessible v.mapped tab 16 = true) :
    isInvertedTable v nt tab = some (decide (IsInvertedTable nt v.bytes tab)) := by
  have hload (k : Nat) (hk : k + 4 ≤ 16) :
      load v.mapped v.bytes (tab + k) 4 = some (readLE v.bytes (tab + k) 4) :=
    if_pos (accessible_inside hread (Nat.le_add_right tab k) (by omega))
  have hversion : rtlIsWindowsVersionOrGreater nt 6 2 0 = isWin8OrGreater nt := rfl
  rw [isInvertedTable, hload 4 (by omega), hload 8 (by omega), hload 12 (by omega), hversion]
  by_cases hmax : readLE v.bytes (tab + 4) 4 = 0x200
  · by_cases hwin8 : isWin8OrGreater nt = true
    · by_cases hover : readLE v.bytes (tab + 12) 4 = 0
      · simp [IsInvertedTable, hmax, hwin8, hover]
      · simp [IsInvertedTable, hmax, hwin8, hover]
    · simp [IsInvertedTable, hmax, hwin8]
  · simp [IsInvertedTable, hmax]

theorem searchTable_run (h : SectionFound v hNtdll sectionName x start size)
    (hfuel : size + 1 < fuel) (hoffset : offset ≤ start)
    (hheader : 16 ≤ offset + x.patternSize)
    (hread : accessible v.mapped (start - offset) (offset + size) = true)
    {hits : List Nat} {rounds a : Nat} {y : SearchContext} (hle : start ≤ a)
    (hhits : occurrences v x a (start + size) = hits)
    (hcall : rtlFindMemoryBlockFromModuleSection v hNtdll sectionName fuel y =
      some (x.outcome (start + size) hits)) (hrounds : hits.length < rounds) :
    searchTable v nt hNtdll sectionName fuel offset rounds y =
      some (((hits.map (· - offset)).find?
        (fun tab => decide (IsInvertedTable nt v.bytes tab))).getD 0) := by
  induction hits generalizing a y rounds with
  | nil =>
    obtain ⟨rounds, rfl⟩ := Nat.exists_eq_succ_of_ne_zero (Nat.ne_of_gt hrounds)
    rw [searchTable, hcall]
    rfl
  | cons k rest ih =>
    obtain ⟨rounds, rfl⟩ := Nat.exists_eq_succ_of_ne_zero (Nat.ne_of_gt (Nat.zero_lt_of_lt hrounds))
    have hk := (mem_occurrences h).mp (hhits ▸ List.mem_cons_self : k ∈ occurrences v x a _)
    have hpattern := h.patternSize
    have hplaced := h.placed
    have hrest : occurrences v x (k + 1) (start + size) = rest := positions_tail hhits
    have hstart := startSearch_resumed h (by omega : start ≤ k) (by omega)
    have hnext := call_run h hstart (by omega) (by omega) hfuel
    rw [hrest] at hnext
    have htab : (k + v.host.addresses - offset) % v.host.addresses = k - offset := by
      have hsum : k + v.host.addresses - offset = k - offset + v.host.addresses := by omega
      rw [hsum, Nat.add_mod_right, Nat.mod_eq_of_lt (by omega)]
    have hheaderRead : accessible v.mapped (k - offset) 16 = true :=
      accessible_inside hread (by omega) (by omega)
    have hloop := ih (by omega) hrest hnext (Nat.lt_of_succ_lt_succ hrounds)
    rw [searchTable, hcall]
    change (match isInvertedTable v nt ((k + v.host.addresses - offset) % v.host.addresses) with
      | none => none
      | some true => some ((k + v.host.addresses - offset) % v.host.addresses)
      | some false => searchTable v nt hNtdll sectionName fuel offset rounds
          (x.found (start + size) k)) = _
    rw [htab, isInvertedTable_eq hheaderRead, List.map_cons]
    let p := fun tab => decide (IsInvertedTable nt v.bytes tab)
    by_cases htable : IsInvertedTable nt v.bytes (k - offset)
    · rw [decide_eq_true htable, List.find?_cons_of_pos (p := p) (decide_eq_true htable)]
      rfl
    · have hfalse : ¬ decide (IsInvertedTable nt v.bytes (k - offset)) = true :=
        fun hd => htable (of_decide_eq_true hd)
      rw [decide_eq_false htable, List.find?_cons_of_neg (p := p) hfalse]
      exact hloop

end Loop

/-- The entry is in the section, and in front of it is a table. -/
structure TableAt (nt : NtVersions) (m : Bytes) (members : List (Nat × Nat))
    (offset start size tab : Nat) : Prop where
  inside : start ≤ tab + offset ∧ tab + offset + sizeOfMembers members ≤ start + size
  entry : HoldsMembers m (tab + offset) members
  header : IsInvertedTable nt m tab

/-- The section of ntdll is found and can be read, also the header in front of it; the local
variable lies outside of it. -/
structure TableSearch.Searchable (s : TableSearch) (sectionName offset : Nat)
    (members : List (Nat × Nat)) (start size : Nat) : Prop where
  found : SectionFound (s.viewWith members) s.hNtdll sectionName
    ⟨s.entry, sizeOfMembers members, 0, 0⟩ start size
  behind : offset ≤ start
  header : 16 ≤ offset + sizeOfMembers members
  readable : accessible s.view.mapped (start - offset) (offset + size) = true
  apart : s.entry + sizeOfMembers members ≤ start - offset ∨ start + size ≤ s.entry
  bounded : size + 1 < s.fuel

section Locate

variable {s : TableSearch} {nt : NtVersions} {sectionName offset start size : Nat}
  {members : List (Nat × Nat)}

theorem viewWith_bytes (h : s.Searchable sectionName offset members start size) {k : Nat}
    (hk : start - offset ≤ k) (hend : k < start + size) :
    (s.viewWith members).bytes k = s.view.bytes k := by
  have hapart := h.apart
  exact writeMembers_outside s.view.bytes (by omega)

/-- The places that the pattern search comes to, with the header in front of them. -/
theorem tableAt_iff (h : s.Searchable sectionName offset members start size) {tab : Nat} :
    TableAt nt s.view.bytes members offset start size tab ↔
      tab + offset ∈ occurrences (s.viewWith members) ⟨s.entry, sizeOfMembers members, 0, 0⟩ start
        (start + size) ∧ IsInvertedTable nt (s.viewWith members).bytes tab := by
  have hheader := h.header
  have hbehind := h.behind
  have hentry (hinside : start ≤ tab + offset ∧
      tab + offset + sizeOfMembers members ≤ start + size) :
      HoldsMembers s.view.bytes (tab + offset) members ↔
        Occurs (s.viewWith members) ⟨s.entry, sizeOfMembers members, 0, 0⟩ (tab + offset) := by
    rw [← holdsMembers_congr fun k hk hkn =>
      viewWith_bytes h (k := k) (by omega) (by omega)]
    exact holdsMembers_iff (writeMembers_holds s.view.bytes s.entry members)
  have htable (hinside : start ≤ tab + offset ∧
      tab + offset + sizeOfMembers members ≤ start + size) :
      IsInvertedTable nt s.view.bytes tab ↔
        IsInvertedTable nt (s.viewWith members).bytes tab := by
    have hsame (d : Nat) (hd : d + 4 ≤ 16) : readLE (s.viewWith members).bytes (tab + d) 4 =
        readLE s.view.bytes (tab + d) 4 :=
      readLE_congr fun k hk hkn => viewWith_bytes h (by omega) (by omega)
    rw [IsInvertedTable, IsInvertedTable, hsame 4 (by omega), hsame 8 (by omega),
      hsame 12 (by omega)]
  rw [mem_occurrences h.found]
  constructor
  · intro htab
    exact ⟨⟨htab.inside.1, htab.inside.2, (hentry htab.inside).mp htab.entry⟩,
      (htable htab.inside).mp htab.header⟩
  · rintro ⟨⟨hle, hfits, hoccurs⟩, hisTable⟩
    exact ⟨⟨hle, hfits⟩, (hentry ⟨hle, hfits⟩).mpr hoccurs, (htable ⟨hle, hfits⟩).mpr hisTable⟩

theorem searchTable_locates (h : s.Searchable sectionName offset members start size) :
    Locates (searchTable (s.viewWith members) nt s.hNtdll sectionName s.fuel offset s.fuel
        ⟨s.entry, sizeOfMembers members, 0, 0⟩)
      (TableAt nt s.view.bytes members offset start size) := by
  let hits := occurrences (s.viewWith members) ⟨s.entry, sizeOfMembers members, 0, 0⟩ start
    (start + size)
  let q := fun tab => decide (IsInvertedTable nt (s.viewWith members).bytes tab)
  have hbehind := h.behind
  have hge {k : Nat} (hk : k ∈ hits) : start ≤ k := ((mem_occurrences h.found).mp hk).1
  have hcount : hits.length < s.fuel := by
    have hlength : hits.length ≤ start + size + 1 - sizeOfMembers members - start :=
      positions_length_le
    have hbounded := h.bounded
    omega
  have hrun : searchTable (s.viewWith members) nt s.hNtdll sectionName s.fuel offset s.fuel
      ⟨s.entry, sizeOfMembers members, 0, 0⟩ = some (((hits.map (· - offset)).find? q).getD 0) :=
    searchTable_run h.found h.bounded hbehind h.header h.readable (Nat.le_refl start) rfl
      (firstCall_run h.found rfl h.bounded) hcount
  refine ⟨_, hrun, ?_⟩
  have hplace (tab : Nat) : TableAt nt s.view.bytes members offset start size tab ↔
      tab ∈ hits.map (· - offset) ∧ q tab = true := by
    rw [tableAt_iff h, List.mem_map]
    constructor
    · rintro ⟨hmem, htable⟩
      exact ⟨⟨tab + offset, hmem, Nat.add_sub_cancel tab offset⟩, decide_eq_true htable⟩
    · rintro ⟨⟨k, hk, rfl⟩, htable⟩
      have hle := hge hk
      rw [Nat.sub_add_cancel (by omega)]
      exact ⟨hk, of_decide_eq_true htable⟩
  cases hfind : (hits.map (· - offset)).find? q with
  | none =>
    rw [List.find?_eq_none] at hfind
    exact Or.inr ⟨rfl, fun tab htab => hfind tab ((hplace tab).mp htab).1 ((hplace tab).mp htab).2⟩
  | some tab =>
    have hincreasing : (hits.map (· - offset)).Pairwise (· < ·) := by
      rw [List.pairwise_map]
      refine List.Pairwise.imp_of_mem (fun {i j} hi hj hlt => ?_)
        (positions_increasing : hits.Pairwise (· < ·))
      have hlei := hge hi
      omega
    have hset : {t | TableAt nt s.view.bytes members offset start size t} =
        {t | t ∈ hits.map (· - offset) ∧ q t = true} := Set.ext hplace
    rw [hset]
    exact Or.inl (find?_increasing hincreasing hfind)

theorem locate_locates {hModule : Nat} {moduleHeaders ntdllHeaders : Nat}
    {entryMembers : Nat → Option (List (Nat × Nat))} (hmodule : hModule ≠ 0)
    (hntdll : s.hNtdll ≠ 0) (hheaders : s.view.imageNtHeader hModule = some moduleHeaders)
    (hntdllHeaders : s.view.imageNtHeader s.hNtdll = some ntdllHeaders)
    (hmembers : entryMembers moduleHeaders = some members)
    (h : s.Searchable sectionName offset members start size) :
    Locates (s.locate nt hModule sectionName offset entryMembers)
      (TableAt nt s.view.bytes members offset start size) := by
  have hnot : ¬ (hModule = 0 ∨ s.hNtdll = 0) := not_or.mpr ⟨hmodule, hntdll⟩
  rw [TableSearch.locate, hheaders, hntdllHeaders]
  dsimp only
  rw [if_neg hnot, hmembers]
  exact searchTable_locates h

end Locate

section Modules

variable {skips : ListedModule → Bool}

theorem isLeast_insert_min {set : Set Nat} {a b least : Nat}
    (h : IsLeast (insert (min a b) set) least) : IsLeast (insert a (insert b set)) least := by
  obtain ⟨hmem, hlower⟩ := h
  constructor
  · rcases hmem with hmin | hset
    · rcases Nat.le_total a b with hle | hle
      · exact Or.inl (hmin.trans (Nat.min_eq_left hle))
      · exact Or.inr (Or.inl (hmin.trans (Nat.min_eq_right hle)))
    · exact Or.inr (Or.inr hset)
  · have hleast : least ≤ min a b := hlower (Set.mem_insert _ _)
    rintro k (rfl | rfl | hk)
    · omega
    · omega
    · exact hlower (Set.mem_insert_of_mem _ hk)

/-- The bases of the modules that the loop looks at. -/
def basesOf (skips : ListedModule → Bool) (modules : List ListedModule) : Set Nat :=
  {base | ∃ entry ∈ modules, skips entry = false ∧ entry.dllBase = base}

theorem basesOf_nil : basesOf skips [] = ∅ := by
  ext base
  exact iff_of_false (fun ⟨e, he, _⟩ => List.not_mem_nil he) id

theorem basesOf_skip {entry : ListedModule} (modules : List ListedModule)
    (h : skips entry = true) : basesOf skips (entry :: modules) = basesOf skips modules := by
  ext base
  constructor
  · rintro ⟨e, he, hskips, rfl⟩
    rcases List.mem_cons.mp he with rfl | hrest
    · exact absurd (hskips.symm.trans h) Bool.false_ne_true
    · exact ⟨e, hrest, hskips, rfl⟩
  · rintro ⟨e, he, hskips, rfl⟩
    exact ⟨e, List.mem_cons_of_mem entry he, hskips, rfl⟩

theorem basesOf_cons {entry : ListedModule} (modules : List ListedModule)
    (h : skips entry = false) :
    basesOf skips (entry :: modules) = insert entry.dllBase (basesOf skips modules) := by
  ext base
  constructor
  · rintro ⟨e, he, hskips, rfl⟩
    rcases List.mem_cons.mp he with rfl | hrest
    · exact Set.mem_insert _ _
    · exact Set.mem_insert_of_mem _ ⟨e, hrest, hskips, rfl⟩
  · rintro (rfl | ⟨e, he, hskips, rfl⟩)
    · exact ⟨entry, List.mem_cons_self, h, rfl⟩
    · exact ⟨e, List.mem_cons_of_mem entry he, hskips, rfl⟩

/-- From a base on, the loop gives the least of it and those that follow. -/
theorem smallestBase_from {modules : List ListedModule} {hModule : Nat} (hModule_pos : hModule ≠ 0)
    (hbases : 0 ∉ basesOf skips modules) :
    IsLeast (insert hModule (basesOf skips modules)) (smallestBase skips hModule modules) := by
  induction modules generalizing hModule with
  | nil =>
    rw [basesOf_nil, insert_empty_eq]
    exact isLeast_singleton
  | cons entry rest ih =>
    rw [smallestBase]
    cases hskips : skips entry with
    | true =>
      rw [basesOf_skip rest hskips] at hbases ⊢
      exact ih hModule_pos hbases
    | false =>
      rw [basesOf_cons rest hskips] at hbases ⊢
      have hentry : entry.dllBase ≠ 0 := fun hzero => hbases (Or.inl hzero.symm)
      have hmin : min hModule entry.dllBase ≠ 0 := by omega
      have hleast := ih hmin fun hzero => hbases (Or.inr hzero)
      rw [if_neg Bool.false_ne_true, if_pos hModule_pos]
      exact isLeast_insert_min hleast

theorem smallestBase_least {modules : List ListedModule} (hbases : 0 ∉ basesOf skips modules)
    (hsome : (basesOf skips modules).Nonempty) :
    IsLeast (basesOf skips modules) (smallestBase skips 0 modules) := by
  induction modules with
  | nil =>
    obtain ⟨base, e, he, _⟩ := hsome
    exact absurd he List.not_mem_nil
  | cons entry rest ih =>
    rw [smallestBase]
    cases hskips : skips entry with
    | true =>
      rw [basesOf_skip rest hskips] at hbases hsome ⊢
      exact ih hbases hsome
    | false =>
      rw [basesOf_cons rest hskips] at hbases ⊢
      rw [if_neg Bool.false_ne_true, if_neg (not_not_intro rfl)]
      exact smallestBase_from (fun hzero => hbases (Or.inl hzero.symm))
        fun hzero => hbases (Or.inr hzero)

end Modules

def bytesFrom (m : Bytes) (tab : Nat) : Bytes := fun k => m (tab + k)

theorem readLE_from (m : Bytes) (tab a n : Nat) :
    readLE (bytesFrom m tab) a n = readLE m (tab + a) n :=
  readLE_eq_iff.mpr fun j _ => congrArg m (Nat.add_assoc tab a j).symm

/-- A 64-bit table with the entry at its start, which is not marked as full. -/
structure Table64At (s : TableSearch) (nt : NtVersions) (entry : Entry64)
    (start size tab : Nat) : Prop where
  inside : start ≤ tab + 16 ∧ tab + 40 ≤ start + size
  entry : (table64Of (bytesFrom s.view.bytes tab)).entries 0 = entry
  maxCount : (table64Of (bytesFrom s.view.bytes tab)).maxCount = 0x200
  notFull : isWin8OrGreater nt = true ∧ (table64Of (bytesFrom s.view.bytes tab)).overflow = 0 ∨
    (table64Of (bytesFrom s.view.bytes tab)).epoch = 0

/-- `Offset`: where the 32-bit entry lies in the table. -/
def entryOffset32 (nt : NtVersions) : Nat := if isWin8OrGreater nt then 0x20 else 0xC

/-- A 32-bit table with the entry behind that of ntdll, or at its start before Windows 8. -/
structure Table32At (s : TableSearch) (nt : NtVersions) (entry : Entry32)
    (start size tab : Nat) : Prop where
  inside : start ≤ tab + entryOffset32 nt ∧ tab + entryOffset32 nt + 16 ≤ start + size
  entry : entry32 nt (table32Of (bytesFrom s.view.bytes tab)) (firstSorted nt) = entry
  maxCount : table32Of (bytesFrom s.view.bytes tab) maxCountAt = 0x200
  notFull : isWin8OrGreater nt = true ∧ table32Of (bytesFrom s.view.bytes tab) nextEntryAt = 0 ∨
    table32Of (bytesFrom s.view.bytes tab) overflowAt = 0

section Tables

variable {s : TableSearch} {nt : NtVersions} {start size : Nat}

def Fits (members : List (Nat × Nat)) : Prop := ∀ member ∈ members, member.2 < 256 ^ member.1

theorem Fits.head {n value : Nat} {rest : List (Nat × Nat)} (h : Fits ((n, value) :: rest)) :
    value % 256 ^ n = value :=
  Nat.mod_eq_of_lt (h (n, value) List.mem_cons_self)

theorem Fits.tail {member : Nat × Nat} {rest : List (Nat × Nat)} (h : Fits (member :: rest)) :
    Fits rest :=
  fun other hother => h other (List.mem_cons_of_mem member hother)

theorem holds_entry64 {m : Bytes} {tab : Nat} {entry : Entry64}
    (hfits : Fits (entry64Members entry)) :
    HoldsMembers m (tab + 0x10) (entry64Members entry) ↔
      (table64Of (bytesFrom m tab)).entries 0 = entry := by
  obtain ⟨directory, base, size, length⟩ := entry
  have hdirectory := hfits.head
  have hbase := hfits.tail.head
  have hsize := hfits.tail.tail.head
  have hlength := hfits.tail.tail.tail.head
  simp only [table64Of, readLE_from, Entry64.mk.injEq]
  simp only [entry64Members, HoldsMembers, and_true] at hdirectory hbase hsize hlength ⊢
  rw [hdirectory, hbase, hsize, hlength]

theorem holds_entry32 {m : Bytes} {tab : Nat} {entry : Entry32}
    (hfits : Fits (entry32Members entry)) :
    HoldsMembers m (tab + entryOffset32 nt) (entry32Members entry) ↔
      entry32 nt (table32Of (bytesFrom m tab)) (firstSorted nt) = entry := by
  obtain ⟨handlers, base, size, count⟩ := entry
  have hhandlers := hfits.head
  have hbase := hfits.tail.head
  have hsize := hfits.tail.tail.head
  have hcount := hfits.tail.tail.tail.head
  by_cases hwin8 : isWin8OrGreater nt = true
  · rw [entry32, if_pos hwin8, firstSorted, if_pos hwin8, entryOffset32, if_pos hwin8]
    simp only [table32Of, readLE_from, Entry32.mk.injEq]
    simp only [entry32Members, HoldsMembers, and_true] at hhandlers hbase hsize hcount ⊢
    rw [hhandlers, hbase, hsize, hcount]
    rfl
  · rw [entry32, if_neg hwin8, firstSorted, if_neg hwin8, entryOffset32, if_neg hwin8,
      logicalEntry_eq]
    simp only [table32Of, readLE_from, Entry32.mk.injEq]
    simp only [entry32Members, HoldsMembers, and_true] at hhandlers hbase hsize hcount ⊢
    rw [hhandlers, hbase, hsize, hcount]

theorem table64At_iff {entry : Entry64} {tab : Nat} (hfits : Fits (entry64Members entry)) :
    TableAt nt s.view.bytes (entry64Members entry) 0x10 start size tab ↔
      Table64At s nt entry start size tab := by
  constructor
  · rintro ⟨hinside, hholds, hmax, hfull⟩
    refine ⟨hinside, (holds_entry64 hfits).mp hholds, (readLE_from _ tab 4 4).trans hmax, ?_⟩
    simp only [table64Of, readLE_from]
    exact hfull
  · rintro ⟨hinside, hfirst, hmax, hfull⟩
    refine ⟨hinside, (holds_entry64 hfits).mpr hfirst, (readLE_from _ tab 4 4).symm.trans hmax, ?_⟩
    simp only [table64Of, readLE_from] at hfull
    exact hfull

theorem table32At_iff {entry : Entry32} {tab : Nat} (hfits : Fits (entry32Members entry)) :
    TableAt nt s.view.bytes (entry32Members entry) (entryOffset32 nt) start size tab ↔
      Table32At s nt entry start size tab := by
  constructor
  · rintro ⟨hinside, hholds, hmax, hfull⟩
    refine ⟨hinside, (holds_entry32 hfits).mp hholds, (readLE_from _ tab 4 4).trans hmax, ?_⟩
    simp only [table32Of, readLE_from]
    exact hfull
  · rintro ⟨hinside, hfirst, hmax, hfull⟩
    refine ⟨hinside, (holds_entry32 hfits).mpr hfirst, (readLE_from _ tab 4 4).symm.trans hmax, ?_⟩
    simp only [table32Of, readLE_from] at hfull
    exact hfull

end Tables

section Search

variable {s : TableSearch} {nt : NtVersions} {hModule start size : Nat}

theorem rtlVerifyVersion_iff (nt : NtVersions) (majorVersion minorVersion buildNumber : Dword) :
    rtlVerifyVersion nt majorVersion minorVersion buildNumber rtlVerifyFlagsMinorVersion = true ↔
      nt.majorVersion = majorVersion ∧ nt.minorVersion = minorVersion := by
  simp [rtlVerifyVersion, rtlVerifyFlagsMinorVersion, rtlVerifyFlagsBuildNumbers]

/-- The section that the table lies in. -/
def TableSearch.tableSection (s : TableSearch) (nt : NtVersions) : Nat :=
  if needVirtualProtect nt then s.mrdata else s.data

/-- The three cases of the 64-bit search are two modules and two sections. -/
theorem find64_eq (hmodule : if isWin8OrGreater nt then hModule = s.hNtdll
      else hModule = smallestBase (fun entry => s.isValidMemoryModuleHandle entry.dllBase) 0
        s.modules) :
    findLdrpInvertedFunctionTable64 s nt = s.locate nt hModule (s.tableSection nt) 0x10
      fun moduleHeaders => (findEntry64 s.view hModule moduleHeaders).map entry64Members := by
  have hwin8 := rtlIsWindowsVersionOrGreater_iff nt 6 2 0
  have hwin81 := rtlIsWindowsVersionOrGreater_iff nt 6 3 0
  have hversion := rtlVerifyVersion_iff nt 6 2 0
  rw [← BitVec.toNat_inj, ← BitVec.toNat_inj] at hversion
  change isWin8OrGreater nt = true ↔ 6 < nt.majorVersion.toNat ∨ 6 = nt.majorVersion.toNat ∧
    (2 < nt.minorVersion.toNat ∨ 2 = nt.minorVersion.toNat ∧ 0 ≤ nt.buildNumber.toNat) at hwin8
  change needVirtualProtect nt = true ↔ 6 < nt.majorVersion.toNat ∨ 6 = nt.majorVersion.toNat ∧
    (3 < nt.minorVersion.toNat ∨ 3 = nt.minorVersion.toNat ∧ 0 ≤ nt.buildNumber.toNat) at hwin81
  change _ ↔ nt.majorVersion.toNat = 6 ∧ nt.minorVersion.toNat = 2 at hversion
  unfold findLdrpInvertedFunctionTable64 TableSearch.tableSection
  dsimp only
  split
  · rename_i hexact
    have hparts := hversion.mp hexact
    have hdata : ¬ needVirtualProtect nt = true :=
      fun hlater => absurd (hwin81.mp hlater) (by omega)
    rw [if_pos (hwin8.mpr (by omega))] at hmodule
    rw [if_neg hdata, hmodule]
  · rename_i hother
    split
    · rename_i hlater
      have hmrdata : needVirtualProtect nt = true := hlater
      have hparts := hwin81.mp hmrdata
      rw [if_pos (hwin8.mpr (by omega))] at hmodule
      rw [if_pos hmrdata, hmodule]
    · rename_i hearlier
      have hdata : ¬ needVirtualProtect nt = true := hearlier
      have hbefore : ¬ isWin8OrGreater nt = true := by
        intro hwin
        have hparts := hwin8.mp hwin
        have hnotExact : ¬ (nt.majorVersion.toNat = 6 ∧ nt.minorVersion.toNat = 2) :=
          fun hexact => hother (hversion.mpr hexact)
        have hnotLater := mt hwin81.mpr hdata
        omega
      rw [if_neg hbefore] at hmodule
      rw [if_neg hdata, hmodule]

/-- The entry of the module that the 64-bit search looks for: ntdll from Windows 8 on, and
before it the module with the smallest base that is no memory module. -/
structure TableSearch.EntryKnown64 (s : TableSearch) (nt : NtVersions) (hModule : Nat)
    (entry : Entry64) : Prop where
  selected : if isWin8OrGreater nt then hModule = s.hNtdll
    else 0 ∉ basesOf (fun e => s.isValidMemoryModuleHandle e.dllBase) s.modules ∧
      IsLeast (basesOf (fun e => s.isValidMemoryModuleHandle e.dllBase) s.modules) hModule
  pointer : s.view.host.win64 = true ∧ hModule ≠ 0 ∧ hModule < s.view.host.addresses
  headers : ∃ moduleHeaders, s.view.imageNtHeader hModule = some moduleHeaders ∧
    findEntry64 s.view hModule moduleHeaders = some entry
  ntdll : s.hNtdll ≠ 0 ∧ (s.view.imageNtHeader s.hNtdll).isSome = true

/-- The entry of the module that the 32-bit search looks for: the one with the smallest base
that is not skipped. -/
structure TableSearch.EntryKnown32 (s : TableSearch) (nt : NtVersions)
    (image : Nat → ImageExceptionView) (rtlEncodeSystemPointer : Nat → Nat) (hModule : Nat)
    (entry : Entry32) : Prop where
  selected : 0 ∉ basesOf (s.skips32 nt (entryOffset32 nt)) s.modules ∧
    IsLeast (basesOf (s.skips32 nt (entryOffset32 nt)) s.modules) hModule
  headers : ∃ moduleHeaders imageSize, s.view.imageNtHeader hModule = some moduleHeaders ∧
    loadMember s.view moduleHeaders sizeOfImage = some imageSize ∧
    entry = newEntry32 image rtlEncodeSystemPointer hModule imageSize
  fits : Fits (entry32Members entry)
  ntdll : s.hNtdll ≠ 0 ∧ (s.view.imageNtHeader s.hNtdll).isSome = true

theorem loadMember_lt {v : ModuleView} {pointer value : Nat} {field : Field}
    (h : loadMember v pointer field = some value) : value < 256 ^ field.size := by
  unfold loadMember load at h
  split at h
  · cases h
    exact readLE_lt v.bytes (pointer + field.offset) field.size
  · cases h

theorem findEntry64_fits {v : ModuleView} {moduleHeaders : Nat} {entry : Entry64}
    (hhost : v.host.win64 = true) (hpointer : hModule < v.host.addresses)
    (h : findEntry64 v hModule moduleHeaders = some entry) : Fits (entry64Members entry) := by
  have haddresses : v.host.addresses = 256 ^ 8 := by
    rw [Host.addresses, Host.pointerSize, if_pos hhost]
  rw [findEntry64] at h
  simp only [Option.bind_eq_bind, Option.bind_eq_some_iff, Option.pure_def, Option.some.injEq] at h
  obtain ⟨size, hsize, directory, hdirectory, imageSize, himageSize, rfl⟩ := h
  have hplaced : directory < 256 ^ 8 := by
    unfold findDirectory64 at hdirectory
    split at hdirectory
    · rw [Option.map_eq_some_iff] at hdirectory
      obtain ⟨address, _, rfl⟩ := hdirectory
      rw [← haddresses]
      exact Nat.mod_lt _ (haddresses ▸ Nat.pow_pos (by decide))
    · cases hdirectory
      exact Nat.pow_pos (by decide)
  rw [haddresses] at hpointer
  intro member hmember
  simp only [entry64Members, List.mem_cons, List.not_mem_nil, or_false] at hmember
  rcases hmember with rfl | rfl | rfl | rfl
  · exact hplaced
  · exact hpointer
  · exact loadMember_lt himageSize
  · exact loadMember_lt hsize

theorem locates_congr {found : Option Nat} {place place' : Nat → Prop}
    (hsame : ∀ tab, place tab ↔ place' tab) (h : Locates found place) : Locates found place' := by
  have heq : place = place' := funext fun tab => propext (hsame tab)
  exact heq ▸ h

/-- The 64-bit search gives the first table with the entry. -/
theorem findLdrpInvertedFunctionTable64_locates {entry : Entry64}
    (hentry : s.EntryKnown64 nt hModule entry)
    (h : s.Searchable (s.tableSection nt) 0x10 (entry64Members entry) start size) :
    Locates (findLdrpInvertedFunctionTable64 s nt) (Table64At s nt entry start size) := by
  obtain ⟨hselected, ⟨hhost, hnull, hpointer⟩, ⟨moduleHeaders, hheaders, hfind⟩, hntdll, hsome⟩ :=
    hentry
  obtain ⟨ntdllHeaders, hntdllHeaders⟩ := Option.isSome_iff_exists.mp hsome
  have hmodule : if isWin8OrGreater nt then hModule = s.hNtdll
      else hModule = smallestBase (fun e => s.isValidMemoryModuleHandle e.dllBase) 0
        s.modules := by
    by_cases hwin8 : isWin8OrGreater nt = true
    · rw [if_pos hwin8] at hselected ⊢
      exact hselected
    · rw [if_neg hwin8] at hselected ⊢
      exact hselected.2.unique (smallestBase_least hselected.1 ⟨hModule, hselected.2.1⟩)
  have hmembers : (findEntry64 s.view hModule moduleHeaders).map entry64Members =
      some (entry64Members entry) := congrArg (Option.map entry64Members) hfind
  rw [find64_eq hmodule]
  exact locates_congr (fun tab => table64At_iff (findEntry64_fits hhost hpointer hfind))
    (locate_locates hnull hntdll hheaders hntdllHeaders hmembers h)

/-- The 32-bit search gives the first table with the entry. -/
theorem findLdrpInvertedFunctionTable32_locates {image : Nat → ImageExceptionView}
    {rtlEncodeSystemPointer : Nat → Nat} {entry : Entry32}
    (hentry : s.EntryKnown32 nt image rtlEncodeSystemPointer hModule entry)
    (h : s.Searchable (s.tableSection nt) (entryOffset32 nt) (entry32Members entry) start size) :
    Locates (findLdrpInvertedFunctionTable32 s nt image rtlEncodeSystemPointer)
      (Table32At s nt entry start size) := by
  obtain ⟨⟨hnonzero, hleast⟩, ⟨moduleHeaders, imageSize, hheaders, hload, rfl⟩, hfits, hntdll,
    hsome⟩ := hentry
  obtain ⟨ntdllHeaders, hntdllHeaders⟩ := Option.isSome_iff_exists.mp hsome
  have hmodule : smallestBase (s.skips32 nt (entryOffset32 nt)) 0 s.modules = hModule :=
    (smallestBase_least hnonzero ⟨hModule, hleast.1⟩).unique hleast
  have hnull : hModule ≠ 0 := fun hzero => hnonzero (hzero ▸ hleast.1)
  have hfind : findLdrpInvertedFunctionTable32 s nt image rtlEncodeSystemPointer =
      s.locate nt (smallestBase (s.skips32 nt (entryOffset32 nt)) 0 s.modules) (s.tableSection nt)
        (entryOffset32 nt) fun moduleHeaders => do
          let imageSize ← loadMember s.view moduleHeaders sizeOfImage
          return entry32Members (newEntry32 image rtlEncodeSystemPointer
            (smallestBase (s.skips32 nt (entryOffset32 nt)) 0 s.modules) imageSize) := rfl
  rw [hfind, hmodule]
  refine locates_congr (fun tab => table32At_iff hfits)
    (locate_locates hnull hntdll hheaders hntdllHeaders ?_ h)
  rw [hload]
  rfl

end Search

/-- The headers of an image with one section, and further members of the memory. -/
def sampleView (host : Host) (sectionName : Nat) (members : List (Nat × Nat × Nat)) :
    ModuleView where
  host := host
  mapped := fun _ => true
  bytes := ([(0x1006, 2, 1), (0x1018, 8, sectionName), (0x1020, 4, 0x100), (0x1024, 4, 0x1000),
    (0x1050, 4, 0x6000), (0x2000, 8, sectionName)] ++ members).foldl
      (fun (m : Bytes) (field : Nat × Nat × Nat) => writeLE m field.1 field.2.1 field.2.2)
      fun _ => 0
  imageNtHeader := fun _ => some 0x1000
  upperChar := fun b => if 97 ≤ b ∧ b ≤ 122 then b - 32 else b

/-- `.data` and `.mrdata`. -/
def dataName : Nat := 0x617461642E
def mrdataName : Nat := 0x61746164726D2E

/-- An ntdll of Windows 10 with a table that ntdll is in. -/
def sampleSearch64 : TableSearch where
  view := sampleView .amd64 mrdataName
    [(0x1414, 4, 0x200), (0x1428, 8, 0x400), (0x1430, 4, 0x6000)]
  hNtdll := 0x400
  entry := 0x3000
  data := 0x2100
  mrdata := 0x2000
  modules := []
  isValidMemoryModuleHandle := fun _ => false
  fuel := 0x200

def windows10 : NtVersions := ⟨10, 0, 19041⟩

theorem sampleSearch64_searchable : sampleSearch64.Searchable
    (sampleSearch64.tableSection windows10) 0x10 (entry64Members ⟨0, 0x400, 0x6000, 0⟩)
    0x1400 0x100 := by
  have hreadable : ∀ a n, accessible sampleSearch64.view.mapped a n = true :=
    fun _ _ => List.all_eq_true.mpr fun _ _ => rfl
  let v := sampleSearch64.viewWith (entry64Members ⟨0, 0x400, 0x6000, 0⟩)
  have htable : TableReadable v 0x1000 := ⟨rfl, rfl, fun _ _ _ _ => rfl⟩
  have hselect : selectSection v 0x2000 0x1000 = .ok (some 0x1018) := by
    rw [selectSection_eq htable]
    decide +kernel
  refine ⟨⟨⟨0x1000, 0x1018, 0x1000, rfl, hselect, by decide +kernel, by decide +kernel,
    by decide +kernel⟩, by decide, by decide, hreadable _ _, hreadable _ _, by decide,
    by decide +kernel⟩, by decide, by decide, hreadable _ _, Or.inr (by decide), by decide⟩

theorem findLdrpInvertedFunctionTable64_locates_sample :
    Locates (findLdrpInvertedFunctionTable64 sampleSearch64 windows10)
        (Table64At sampleSearch64 windows10 ⟨0, 0x400, 0x6000, 0⟩ 0x1400 0x100) ∧
      Table64At sampleSearch64 windows10 ⟨0, 0x400, 0x6000, 0⟩ 0x1400 0x100 0x1410 := by
  have hentry : sampleSearch64.EntryKnown64 windows10 0x400 ⟨0, 0x400, 0x6000, 0⟩ :=
    ⟨rfl, ⟨rfl, by decide, by decide⟩, ⟨0x1000, rfl, by decide +kernel⟩, by decide, rfl⟩
  refine ⟨findLdrpInvertedFunctionTable64_locates hentry sampleSearch64_searchable, ?_⟩
  exact ⟨by decide, by decide +kernel, by decide +kernel, Or.inl ⟨rfl, by decide +kernel⟩⟩

/-- A program of Windows 7 below ntdll, and a memory module below both. -/
def sampleSearch32 : TableSearch where
  view := sampleView .i386 dataName
    [(0x1414, 4, 0x200), (0x141C, 4, 0x5A), (0x1420, 4, 0x300), (0x1424, 4, 0x6000)]
  hNtdll := 0x400
  entry := 0x3000
  data := 0x2000
  mrdata := 0x2100
  modules := [⟨0x400, 0⟩, ⟨0x200, 0⟩, ⟨0x300, 0⟩]
  isValidMemoryModuleHandle := fun base => base == 0x200
  fuel := 0x200

def windows7 : NtVersions := ⟨6, 1, 7601⟩

def sampleImage : ImageExceptionView := ⟨false, 0, none, none⟩

theorem sampleSearch32_searchable : sampleSearch32.Searchable
    (sampleSearch32.tableSection windows7) (entryOffset32 windows7)
    (entry32Members ⟨0x5A, 0x300, 0x6000, 0⟩) 0x1400 0x100 := by
  have hreadable : ∀ a n, accessible sampleSearch32.view.mapped a n = true :=
    fun _ _ => List.all_eq_true.mpr fun _ _ => rfl
  let v := sampleSearch32.viewWith (entry32Members ⟨0x5A, 0x300, 0x6000, 0⟩)
  have htable : TableReadable v 0x1000 := ⟨rfl, rfl, fun _ _ _ _ => rfl⟩
  have hselect : selectSection v 0x2000 0x1000 = .ok (some 0x1018) := by
    rw [selectSection_eq htable]
    decide +kernel
  refine ⟨⟨⟨0x1000, 0x1018, 0x1000, rfl, hselect, by decide +kernel, by decide +kernel,
    by decide +kernel⟩, by decide, by decide, hreadable _ _, hreadable _ _, by decide,
    by decide +kernel⟩, by decide, by decide, hreadable _ _, Or.inr (by decide), by decide⟩

theorem sampleSearch32_bases :
    basesOf (sampleSearch32.skips32 windows7 (entryOffset32 windows7)) sampleSearch32.modules =
      {0x400, 0x300} := by
  have hmodules : sampleSearch32.modules = [⟨0x400, 0⟩, ⟨0x200, 0⟩, ⟨0x300, 0⟩] := rfl
  rw [hmodules, basesOf_cons _ (by decide), basesOf_skip _ (by decide), basesOf_cons _ (by decide),
    basesOf_nil, insert_empty_eq]

theorem findLdrpInvertedFunctionTable32_locates_sample :
    Locates (findLdrpInvertedFunctionTable32 sampleSearch32 windows7 (fun _ => sampleImage)
          (· + 0x5A))
        (Table32At sampleSearch32 windows7 ⟨0x5A, 0x300, 0x6000, 0⟩ 0x1400 0x100) ∧
      Table32At sampleSearch32 windows7 ⟨0x5A, 0x300, 0x6000, 0⟩ 0x1400 0x100 0x1410 := by
  have hfits : Fits (entry32Members ⟨0x5A, 0x300, 0x6000, 0⟩) := by
    simp [Fits, entry32Members]
  have hselected : 0 ∉ basesOf (sampleSearch32.skips32 windows7 (entryOffset32 windows7))
        sampleSearch32.modules ∧
      IsLeast (basesOf (sampleSearch32.skips32 windows7 (entryOffset32 windows7))
        sampleSearch32.modules) 0x300 := by
    rw [sampleSearch32_bases]
    refine ⟨by simp, Or.inr rfl, ?_⟩
    rintro base (rfl | rfl) <;> decide
  have hentry : sampleSearch32.EntryKnown32 windows7 (fun _ => sampleImage) (· + 0x5A) 0x300
      ⟨0x5A, 0x300, 0x6000, 0⟩ :=
    ⟨hselected, ⟨0x1000, 0x6000, rfl, by decide +kernel, by decide⟩, hfits, by decide, rfl⟩
  refine ⟨findLdrpInvertedFunctionTable32_locates hentry sampleSearch32_searchable, ?_⟩
  exact ⟨by decide, by decide +kernel, by decide +kernel, Or.inr (by decide +kernel)⟩

end WinPolyfillLoader.InvertedFunctionTable
