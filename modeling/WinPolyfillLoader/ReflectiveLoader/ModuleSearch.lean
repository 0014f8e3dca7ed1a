import WinPolyfillLoader.Library.CircularList
import WinPolyfillLoader.ReflectiveLoader.Exports

/-!
Step 1 of `ReflectiveLoader`: the walk over the modules of the process. The list is circular,
and only the four pointers end the walk; its head is taken for a module like the others.
-/

namespace WinPolyfillLoader.ReflectiveLoader

open ByteMemory MemoryModule CircularList

/-- `_PEB` and `PEB_LDR_DATA`. -/
def pebLdr (host : Host) : Field := ⟨3 * host.pointerSize, host.pointerSize⟩
def inMemoryOrderModuleList (host : Host) : Field :=
  ⟨8 + 3 * host.pointerSize, host.pointerSize⟩

/-- `LDR_DATA_TABLE_ENTRY`, from its links in memory order on. -/
def flink (host : Host) : Field := ⟨0, host.pointerSize⟩
def dllBase (host : Host) : Field := ⟨4 * host.pointerSize, host.pointerSize⟩
def baseDllNameLength (host : Host) : Field := ⟨9 * host.pointerSize, 2⟩
def baseDllNameBuffer (host : Host) : Field := ⟨10 * host.pointerSize, host.pointerSize⟩

/-- A byte of a name, in upper case if it is a letter. -/
def upperByte (b : UInt8) : Nat := if 0x61 ≤ b.toNat then b.toNat - 0x20 else b.toNat

/-- `do … while (--usCounter)`. -/
def hashModuleName (host : Host) (m : Bytes) : (usCounter uiValueB : Nat) → Dword → Dword
  | 0, _, uiValueC => uiValueC
  | usCounter + 1, uiValueB, uiValueC =>
    hashModuleName host m usCounter (host.offset uiValueB 1)
      (ror uiValueC + BitVec.ofNat 32 (upperByte (m uiValueB)))

/-- The hash of the name of an entry. The length counts bytes; a length of 0 wraps. -/
def moduleHash (host : Host) (m : Bytes) (uiValueA : Nat) : Dword :=
  let usCounter := member m uiValueA (baseDllNameLength host)
  hashModuleName host m (if usCounter = 0 then 0x10000 else usCounter)
    (member m uiValueA (baseDllNameBuffer host)) 0

def kernel32Procedures : List Procedure := [.loadLibraryA, .getProcAddress, .virtualAlloc]
def ntdllProcedures : List Procedure := [.ntFlushInstructionCache]

/-- One entry. -/
def searchModule (host : Host) (m : Bytes) (fuel uiValueA : Nat) (pointers : Pointers) :
    Option Pointers :=
  let uiValueC := moduleHash host m uiValueA
  if uiValueC = kernel32dllHash then
    searchExports host m kernel32Function fuel 3 (member m uiValueA (dllBase host)) pointers
  else if uiValueC = ntdlldllHash then
    searchExports host m ntdllFunction fuel 1 (member m uiValueA (dllBase host)) pointers
  else some pointers

/-- `pLoadLibraryA && pGetProcAddress && pVirtualAlloc && pNtFlushInstructionCache`. -/
def allFound (pointers : Pointers) : Bool :=
  pointers .loadLibraryA ≠ 0 && pointers .getProcAddress ≠ 0 && pointers .virtualAlloc ≠ 0 &&
    pointers .ntFlushInstructionCache ≠ 0

/-- `DEREF(uiValueA)`. -/
def nextModule (host : Host) (m : Bytes) (uiValueA : Nat) : Nat := member m uiValueA (flink host)

/-- `while (uiValueA)`. -/
def searchModules (host : Host) (m : Bytes) : (fuel uiValueA : Nat) → Pointers → Option Pointers
  | 0, _, _ => none
  | fuel + 1, uiValueA, pointers =>
    if uiValueA ≠ 0 then
      match searchModule host m fuel uiValueA pointers with
      | none => none
      | some pointers =>
        if allFound pointers then some pointers
        else searchModules host m fuel (nextModule host m uiValueA) pointers
    else some pointers

def findFunctions (host : Host) (m : Bytes) (peb fuel : Nat) : Option Pointers :=
  let ldr := member m peb (pebLdr host)
  searchModules host m fuel (member m ldr (inMemoryOrderModuleList host)) fun _ => 0

/-- The hash of the bytes of a name in upper case. -/
def hashUpper (upper : List Nat) : Dword :=
  upper.foldl (fun h b => ror h + BitVec.ofNat 32 b) 0

def wideBytes (name : String) : List UInt8 := name.toList.flatMap fun c => [.ofNat c.toNat, 0]

section Names

variable {host : Host} {m : Bytes}

theorem hashModuleName_run {name : List UInt8} {uiValueB : Nat} {h : Dword}
    (hname : ∀ i (hi : i < name.length), m (uiValueB + i) = name.get ⟨i, hi⟩)
    (hfits : uiValueB + name.length < host.addresses) :
    hashModuleName host m name.length uiValueB h =
      (name.map upperByte).foldl (fun h b => ror h + BitVec.ofNat 32 b) h := by
  induction name generalizing uiValueB h with
  | nil => rfl
  | cons x xs ih =>
    rw [List.length_cons] at hfits
    have hnext : host.offset uiValueB 1 = uiValueB + 1 := offset_eq (by omega)
    have hfirst : m uiValueB = x := hname 0 (Nat.succ_pos _)
    rw [List.length_cons, hashModuleName, hnext, hfirst, List.map_cons, List.foldl_cons]
    apply ih _ (by omega)
    intro i hi
    rw [Nat.add_assoc, Nat.add_comm 1 i]
    exact hname (i + 1) (Nat.succ_lt_succ hi)

/-- The hash of a module depends on its name up to the case of the letters. -/
theorem moduleHash_run {name : List UInt8} {uiValueA : Nat} (hne : name ≠ [])
    (hlength : member m uiValueA (baseDllNameLength host) = name.length)
    (hname : ∀ i (hi : i < name.length),
      m (member m uiValueA (baseDllNameBuffer host) + i) = name.get ⟨i, hi⟩)
    (hfits : member m uiValueA (baseDllNameBuffer host) + name.length < host.addresses) :
    moduleHash host m uiValueA = hashUpper (name.map upperByte) := by
  have hpositive : name.length ≠ 0 := mt List.length_eq_zero_iff.mp hne
  rw [moduleHash]
  simp only [hlength]
  rw [if_neg hpositive, hashModuleName_run hname hfits, hashUpper]

end Names

example : hashUpper ((wideBytes "kernel32.dll").map upperByte) = kernel32dllHash ∧
    hashUpper ((wideBytes "ntdll.dll").map upperByte) = ntdlldllHash := by decide +kernel

example : hashName "LoadLibraryA".toUTF8.toList = loadLibraryAHash ∧
    hashName "GetProcAddress".toUTF8.toList = getProcAddressHash ∧
    hashName "VirtualAlloc".toUTF8.toList = virtualAllocHash ∧
    hashName "NtFlushInstructionCache".toUTF8.toList = ntFlushInstructionCacheHash := by
  decide +kernel

section Search

variable {host : Host} {m : Bytes} {address : Procedure → Nat}

/-- What the modules that the loader takes for `kernel32.dll` and `ntdll.dll` export. -/
structure Exporters (host : Host) (m : Bytes) (address : Procedure → Nat) (entries : List Nat) :
    Prop where
  found : ∀ f, address f ≠ 0
  kernel32 : ∀ a ∈ entries, moduleHash host m a = kernel32dllHash →
    ∃ es, ExportsAll host m kernel32Function kernel32Procedures address
      (member m a (dllBase host)) es
  ntdll : ∀ a ∈ entries, moduleHash host m a = ntdlldllHash →
    ∃ es, ExportsAll host m ntdllFunction ntdllProcedures address
      (member m a (dllBase host)) es

/-- One of the entries is a module that is searched for the function. -/
def SearchedFor (host : Host) (m : Bytes) (entries : List Nat) (f : Procedure) : Prop :=
  (∃ a ∈ entries, moduleHash host m a = kernel32dllHash) ∧ f ∈ kernel32Procedures ∨
    (∃ a ∈ entries, moduleHash host m a = ntdlldllHash) ∧ f ∈ ntdllProcedures

instance (host : Host) (m : Bytes) (entries : List Nat) (f : Procedure) :
    Decidable (SearchedFor host m entries f) := inferInstanceAs (Decidable (_ ∨ _))

/-- The pointers after some entries. -/
def pointersAfter (host : Host) (m : Bytes) (address : Procedure → Nat) (entries : List Nat) :
    Pointers := fun f => if SearchedFor host m entries f then address f else 0

theorem searchedFor_snoc {before : List Nat} {a : Nat} {f : Procedure} :
    SearchedFor host m (before ++ [a]) f ↔ SearchedFor host m before f ∨
      moduleHash host m a = kernel32dllHash ∧ f ∈ kernel32Procedures ∨
        moduleHash host m a = ntdlldllHash ∧ f ∈ ntdllProcedures := by
  have hsnoc : ∀ hash : Dword, (∃ x ∈ before ++ [a], moduleHash host m x = hash) ↔
      (∃ x ∈ before, moduleHash host m x = hash) ∨ moduleHash host m a = hash := by
    intro hash
    simp [or_and_right, exists_or]
  rw [SearchedFor, SearchedFor, hsnoc, hsnoc, or_and_right, or_and_right, or_or_or_comm]

/-- An entry that is searched for some functions gives the pointers of these. -/
theorem pointersAfter_snoc {before : List Nat} {a : Nat} {procedures : List Procedure}
    (h : ∀ f, SearchedFor host m (before ++ [a]) f ↔
      SearchedFor host m before f ∨ f ∈ procedures) :
    pointersAfter host m address (before ++ [a]) = fun f =>
      if f ∈ procedures then address f else pointersAfter host m address before f := by
  funext f
  by_cases hmem : f ∈ procedures
  · rw [if_pos hmem, pointersAfter, if_pos ((h f).mpr (Or.inr hmem))]
  · rw [if_neg hmem, pointersAfter, pointersAfter]
    exact if_congr ((h f).trans (or_iff_left hmem)) rfl rfl

theorem searchModule_run (before : List Nat) {a : Nat} {entries : List Nat}
    (h : Exporters host m address entries) (ha : a ∈ entries) :
    ∃ n, ∀ fuel, n ≤ fuel →
      searchModule host m fuel a (pointersAfter host m address before) =
        some (pointersAfter host m address (before ++ [a])) := by
  have hdistinct : kernel32dllHash ≠ ntdlldllHash := by decide
  by_cases hkernel32 : moduleHash host m a = kernel32dllHash
  · obtain ⟨es, hes⟩ := h.kernel32 a ha hkernel32
    obtain ⟨n, hn⟩ := searchExports_run hes
    refine ⟨n, fun fuel hfuel => ?_⟩
    have hsnoc : pointersAfter host m address (before ++ [a]) = fun f =>
        if f ∈ kernel32Procedures then address f else pointersAfter host m address before f := by
      apply pointersAfter_snoc
      intro f
      rw [searchedFor_snoc, hkernel32]
      simp [hdistinct]
    simp only [searchModule, if_pos hkernel32, hsnoc]
    exact hn fuel hfuel _
  · by_cases hntdll : moduleHash host m a = ntdlldllHash
    · obtain ⟨es, hes⟩ := h.ntdll a ha hntdll
      obtain ⟨n, hn⟩ := searchExports_run hes
      refine ⟨n, fun fuel hfuel => ?_⟩
      have hsnoc : pointersAfter host m address (before ++ [a]) = fun f =>
          if f ∈ ntdllProcedures then address f else pointersAfter host m address before f := by
        apply pointersAfter_snoc
        intro f
        rw [searchedFor_snoc, hntdll]
        simp [hdistinct.symm]
      simp only [searchModule, if_neg hkernel32, if_pos hntdll, hsnoc]
      exact hn fuel hfuel _
    · refine ⟨0, fun fuel _ => ?_⟩
      have hsnoc : pointersAfter host m address (before ++ [a]) = fun f =>
          if f ∈ [] then address f else pointersAfter host m address before f := by
        apply pointersAfter_snoc
        intro f
        rw [searchedFor_snoc]
        simp [hkernel32, hntdll]
      simp only [searchModule, if_neg hkernel32, if_neg hntdll, hsnoc]
      simp

theorem allFound_iff {entries : List Nat} (hfound : ∀ f, address f ≠ 0) :
    allFound (pointersAfter host m address entries) = true ↔
      (∃ a ∈ entries, moduleHash host m a = kernel32dllHash) ∧
        ∃ a ∈ entries, moduleHash host m a = ntdlldllHash := by
  have hpointer : ∀ f, pointersAfter host m address entries f ≠ 0 ↔
      SearchedFor host m entries f := by
    intro f
    rw [pointersAfter]
    split
    · rename_i hsearched
      exact iff_of_true (hfound f) hsearched
    · rename_i hsearched
      exact iff_of_false (fun h => h rfl) hsearched
  simp only [allFound, Bool.and_eq_true, decide_eq_true_eq, hpointer]
  simp [SearchedFor, kernel32Procedures, ntdllProcedures]

theorem pointersAfter_all {entries : List Nat}
    (hkernel32 : ∃ a ∈ entries, moduleHash host m a = kernel32dllHash)
    (hntdll : ∃ a ∈ entries, moduleHash host m a = ntdlldllHash) :
    pointersAfter host m address entries = address := by
  funext f
  apply if_pos
  cases f with
  | loadLibraryA | getProcAddress | virtualAlloc => exact Or.inl ⟨hkernel32, by decide⟩
  | ntFlushInstructionCache => exact Or.inr ⟨hntdll, by decide⟩

theorem searchModule_mono {fuel fuel' a : Nat} {pointers result : Pointers}
    (hle : fuel ≤ fuel') (hrun : searchModule host m fuel a pointers = some result) :
    searchModule host m fuel' a pointers = some result := by
  simp only [searchModule] at hrun ⊢
  split at hrun
  · rename_i hkernel32
    rw [if_pos hkernel32]
    exact searchNames_mono hle hrun
  · rename_i hkernel32
    rw [if_neg hkernel32]
    split at hrun
    · rename_i hntdll
      rw [if_pos hntdll]
      exact searchNames_mono hle hrun
    · rename_i hntdll
      rw [if_neg hntdll]
      exact hrun

/-- The search in an entry that has ended has given its pointers. -/
theorem searchModule_cases (before : List Nat) {entries : List Nat} {a : Nat}
    (h : Exporters host m address entries) (ha : a ∈ entries) (fuel : Nat) :
    searchModule host m fuel a (pointersAfter host m address before) = none ∨
      searchModule host m fuel a (pointersAfter host m address before) =
        some (pointersAfter host m address (before ++ [a])) := by
  cases hrun : searchModule host m fuel a (pointersAfter host m address before) with
  | none => exact Or.inl rfl
  | some result =>
    obtain ⟨n, hn⟩ := searchModule_run before h ha
    have hlater := searchModule_mono (Nat.le_max_left fuel n) hrun
    exact Or.inr (hlater.symm.trans (hn _ (Nat.le_max_right fuel n)))

theorem searchModules_run {before rest entries : List Nat} {stop : Nat}
    (h : Exporters host m address entries)
    (hpath : Path (nextModule host m) rest stop) (hmem : ∀ a ∈ rest, a ∈ entries)
    (hnull : ∀ a ∈ entries, a ≠ 0)
    (hbefore : allFound (pointersAfter host m address before) = false)
    (hall : allFound (pointersAfter host m address (before ++ rest)) = true) :
    ∃ n, ∀ fuel, n ≤ fuel →
      searchModules host m fuel (rest.headD stop) (pointersAfter host m address before) =
        some address := by
  induction rest generalizing before with
  | nil =>
    rw [List.append_nil, hbefore] at hall
    cases hall
  | cons a rest ih =>
    have ha := hmem a List.mem_cons_self
    obtain ⟨hnext, hpath⟩ := hpath
    obtain ⟨n, hn⟩ := searchModule_run before h ha
    cases hafter : allFound (pointersAfter host m address (before ++ [a])) with
    | true =>
      refine ⟨n + 1, fun fuel hfuel => ?_⟩
      obtain ⟨fuel, rfl⟩ := Nat.exists_eq_succ_of_ne_zero (by omega : fuel ≠ 0)
      obtain ⟨hkernel32, hntdll⟩ := (allFound_iff h.found).mp hafter
      rw [List.headD_cons, searchModules, if_pos (hnull a ha), hn fuel (by omega)]
      simp only [hafter, if_true]
      rw [pointersAfter_all hkernel32 hntdll]
    | false =>
      have hsplit : before ++ a :: rest = before ++ [a] ++ rest := by simp
      rw [hsplit] at hall
      obtain ⟨k, hk⟩ := ih hpath (fun x hx => hmem x (List.mem_cons_of_mem a hx)) hafter hall
      refine ⟨max n k + 1, fun fuel hfuel => ?_⟩
      obtain ⟨fuel, rfl⟩ := Nat.exists_eq_succ_of_ne_zero (by omega : fuel ≠ 0)
      rw [List.headD_cons, searchModules, if_pos (hnull a ha), hn fuel (by omega)]
      simp only [hafter, Bool.false_eq_true, if_false, hnext]
      exact hk fuel (by omega)

theorem searchModules_endless {before entries : List Nat} {a : Nat}
    (h : Exporters host m address entries)
    (hring : Ring (nextModule host m) entries) (hnull : ∀ a ∈ entries, a ≠ 0)
    (hmissing : allFound (pointersAfter host m address entries) = false)
    (hbefore : ∀ x ∈ before, x ∈ entries) (ha : a ∈ entries) (fuel : Nat) :
    searchModules host m fuel a (pointersAfter host m address before) = none := by
  induction fuel generalizing before a with
  | zero => rfl
  | succ fuel ih =>
    have hsnoc : ∀ x ∈ before ++ [a], x ∈ entries := by
      intro x hx
      rcases List.mem_append.mp hx with hx | hx
      · exact hbefore x hx
      · exact List.mem_singleton.mp hx ▸ ha
    have hafter : allFound (pointersAfter host m address (before ++ [a])) = false := by
      rw [Bool.eq_false_iff, Ne, allFound_iff h.found] at hmissing ⊢
      rintro ⟨⟨x, hx, hkernel32⟩, y, hy, hntdll⟩
      exact hmissing ⟨⟨x, hsnoc x hx, hkernel32⟩, y, hsnoc y hy, hntdll⟩
    rw [searchModules, if_pos (hnull a ha)]
    rcases searchModule_cases before h ha fuel with hrun | hrun
    · rw [hrun]
    · rw [hrun]
      simp only [hafter, Bool.false_eq_true, if_false]
      have hnext : nextModule host m a ∈ entries := ring_next_mem hring ha
      exact ih hsnoc hnext

end Search

/-- The circular list of the modules, with its head among them, from the first entry on. -/
structure ModuleRing (host : Host) (m : Bytes) (peb : Nat) (entries : List Nat) : Prop where
  first : entries.head? = some (member m (member m peb (pebLdr host))
    (inMemoryOrderModuleList host))
  ring : Ring (nextModule host m) entries
  notNull : ∀ a ∈ entries, a ≠ 0

/-- Modules whose names have the two hashes are in the list; no name is compared. -/
def HasBoth (host : Host) (m : Bytes) (entries : List Nat) : Prop :=
  (∃ a ∈ entries, moduleHash host m a = kernel32dllHash) ∧
    ∃ a ∈ entries, moduleHash host m a = ntdlldllHash

instance (host : Host) (m : Bytes) (entries : List Nat) : Decidable (HasBoth host m entries) :=
  inferInstanceAs (Decidable (_ ∧ _))

section Ring

variable {host : Host} {m : Bytes} {peb : Nat} {address : Procedure → Nat} {entries : List Nat}

theorem pointersAfter_nil : pointersAfter host m address [] = fun _ => 0 := by
  funext f
  exact if_neg (by simp [SearchedFor])

theorem findFunctions_finds (h : Exporters host m address entries)
    (hring : ModuleRing host m peb entries) (hboth : HasBoth host m entries) :
    ∃ n, ∀ fuel, n ≤ fuel → findFunctions host m peb fuel = some address := by
  have hfirst := hring.first
  have hpath := hring.ring
  cases entries with
  | nil => cases hpath
  | cons a rest =>
    have hstart := Option.some_inj.mp hfirst
    have hbefore : allFound (pointersAfter host m address []) = false := by
      rw [pointersAfter_nil]
      rfl
    obtain ⟨n, hn⟩ := searchModules_run h hpath (fun _ hx => hx) hring.notNull hbefore
      ((allFound_iff h.found).mpr hboth)
    refine ⟨n, fun fuel hfuel => ?_⟩
    rw [findFunctions, ← hstart, ← pointersAfter_nil]
    exact hn fuel hfuel

theorem findFunctions_endless (h : Exporters host m address entries)
    (hring : ModuleRing host m peb entries) (hmissing : ¬HasBoth host m entries) (fuel : Nat) :
    findFunctions host m peb fuel = none := by
  have hfirst := hring.first
  have hpath := hring.ring
  cases entries with
  | nil => cases hpath
  | cons a rest =>
    have hstart := Option.some_inj.mp hfirst
    have hfound : allFound (pointersAfter host m address (a :: rest)) = false := by
      rw [Bool.eq_false_iff, Ne, allFound_iff h.found]
      exact hmissing
    rw [findFunctions, ← hstart, ← pointersAfter_nil]
    exact searchModules_endless h hpath hring.notNull hfound
      (fun x hx => absurd hx List.not_mem_nil) List.mem_cons_self fuel

end Ring

/-- Step 1 on the circular list of the modules: with `kernel32.dll` and `ntdll.dll` among them
it ends with the four functions, and without one of them it never ends. -/
theorem findFunctions_iff (host : Host) (m : Bytes) (peb : Nat) (address : Procedure → Nat)
    (entries : List Nat) (h : Exporters host m address entries)
    (hring : ModuleRing host m peb entries) :
    (HasBoth host m entries →
      ∃ n, ∀ fuel, n ≤ fuel → findFunctions host m peb fuel = some address) ∧
    (¬HasBoth host m entries → ∀ fuel, findFunctions host m peb fuel = none) :=
  ⟨fun hboth => findFunctions_finds h hring hboth,
    fun hmissing => findFunctions_endless h hring hmissing⟩

/-- A 32-bit process with the two modules at `0x10000` and `0x20000`, and with an image in a
buffer that has two imports of `k.dll`. -/
def moduleWords : List (Nat × Nat × Nat) :=
  [(0x10c, 4, 0x200), (0x214, 4, 0x300), (0x238, 2, 2), (0x300, 4, 0x400), (0x400, 4, 0x214),
    (0x310, 4, 0x10000), (0x324, 2, 24), (0x328, 4, 0x500),
    (0x410, 4, 0x20000), (0x424, 2, 18), (0x428, 4, 0x600),
    (0x1003c, 4, 0x40), (0x100b8, 4, 0x100), (0x1011c, 4, 0x200), (0x10120, 4, 0x220),
    (0x10124, 4, 0x240), (0x10200, 4, 0x1111), (0x10204, 4, 0x2222), (0x10208, 4, 0x3333),
    (0x10220, 4, 0x300), (0x10224, 4, 0x310), (0x10228, 4, 0x320), (0x1022c, 4, 0x330),
    (0x10240, 2, 2), (0x10242, 2, 0), (0x10244, 2, 0), (0x10246, 2, 1),
    (0x2003c, 4, 0x40), (0x200b8, 4, 0x100), (0x2011c, 4, 0x200), (0x20120, 4, 0x220),
    (0x20124, 4, 0x240), (0x20200, 4, 0x4444), (0x20220, 4, 0x300)]

def sampleNames : List (Nat × List UInt8) :=
  [(0x500, wideBytes "KERNEL32.DLL"), (0x600, wideBytes "ntdll.dll"),
    (0x10300, "GetProcAddress".toUTF8.toList), (0x10310, "LoadLibraryA".toUTF8.toList),
    (0x10320, "Sleep".toUTF8.toList), (0x10330, "VirtualAlloc".toUTF8.toList),
    (0x20300, "NtFlushInstructionCache".toUTF8.toList), (0x40350, "k.dll".toUTF8.toList),
    (0x40362, "Sleep".toUTF8.toList)]

def sampleProcess : Bytes :=
  sampleNames.foldl (fun m name => blit m name.1 (fun k => name.2.getD k 0) 0 name.2.length)
    (storeWords (fun _ => 0) (moduleWords ++ imageWords))

def sampleAddress : Procedure → Nat
  | .loadLibraryA => 0x11111
  | .getProcAddress => 0x13333
  | .virtualAlloc => 0x12222
  | .ntFlushInstructionCache => 0x24444

def sampleKernel32 : List Export :=
  [⟨"GetProcAddress".toUTF8.toList, 2, 0x13333⟩, ⟨"LoadLibraryA".toUTF8.toList, 0, 0x11111⟩,
    ⟨"Sleep".toUTF8.toList, 0, 0x11111⟩, ⟨"VirtualAlloc".toUTF8.toList, 1, 0x12222⟩]

def sampleNtdll : List Export := [⟨"NtFlushInstructionCache".toUTF8.toList, 0, 0x24444⟩]

theorem sample_exporters :
    Exporters .i386 sampleProcess sampleAddress [0x300, 0x400, 0x214] where
  found := by
    intro f
    cases f <;> decide
  kernel32 := by
    intro a ha hash
    have hfirst : a = 0x300 := by
      revert hash
      revert a
      decide +kernel
    rw [hfirst]
    exact ⟨sampleKernel32, by decide +kernel, by decide +kernel, by decide +kernel⟩
  ntdll := by
    intro a ha hash
    have hsecond : a = 0x400 := by
      revert hash
      revert a
      decide +kernel
    rw [hsecond]
    exact ⟨sampleNtdll, by decide +kernel, by decide +kernel, by decide +kernel⟩

theorem sample_ring : ModuleRing .i386 sampleProcess 0x100 [0x300, 0x400, 0x214] where
  first := by decide +kernel
  ring := ⟨by decide +kernel, by decide +kernel, by decide +kernel, trivial⟩
  notNull := by decide

theorem findFunctions_iff_sample :
    HasBoth .i386 sampleProcess [0x300, 0x400, 0x214] ∧
    (HasBoth .i386 sampleProcess [0x300, 0x400, 0x214] →
      ∃ n, ∀ fuel, n ≤ fuel → findFunctions .i386 sampleProcess 0x100 fuel = some sampleAddress) ∧
    (¬HasBoth .i386 sampleProcess [0x300, 0x400, 0x214] →
      ∀ fuel, findFunctions .i386 sampleProcess 0x100 fuel = none) := by
  refine ⟨by decide +kernel, ?_⟩
  exact findFunctions_iff .i386 sampleProcess 0x100 sampleAddress [0x300, 0x400, 0x214]
    sample_exporters sample_ring

end WinPolyfillLoader.ReflectiveLoader
