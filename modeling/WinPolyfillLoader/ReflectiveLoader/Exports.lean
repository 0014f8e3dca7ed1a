import Mathlib.Logic.Function.Basic
import WinPolyfillLoader.Library.NulStrings
import WinPolyfillLoader.ReflectiveLoader.MapImage

/-!
The search of step 1 through the names that a module exports. The names are compared by a
hash, and the search counts the functions that it still needs; the number of names is not
asked for, so without all of them it runs on behind the table.
-/

namespace WinPolyfillLoader.ReflectiveLoader

open ByteMemory MemoryModule

abbrev Dword := BitVec 32

def hashKey : Nat := 13

def ror (d : Dword) : Dword := d.rotateRight hashKey

/-- One character, which is a signed `char`. -/
def hashChar (h : Dword) (c : UInt8) : Dword := ror h + c.toBitVec.signExtend 32

/-- `hash`, or `none` if it still runs. -/
def hash (host : Host) (m : Bytes) : (fuel c : Nat) → Dword → Option Dword
  | 0, _, _ => none
  | fuel + 1, c, h =>
    let h := hashChar h (m c)
    let c := host.offset c 1
    if m c ≠ 0 then hash host m fuel c h else some h

def kernel32dllHash : Dword := 0x6A4ABC5B
def ntdlldllHash : Dword := 0x3CFA685D
def loadLibraryAHash : Dword := 0xEC0E4E8E
def getProcAddressHash : Dword := 0x7C0DFCAA
def virtualAllocHash : Dword := 0x91AFCA54
def ntFlushInstructionCacheHash : Dword := 0x534C0AB8

/-- `DataDirectory[index].VirtualAddress`. -/
def directoryAddress (host : Host) (index : Nat) : Field :=
  ⟨optionalHeader + (if host.win64 then 112 else 96) + 8 * index, 4⟩

def imageDirectoryEntryExport : Nat := 0
def imageDirectoryEntryImport : Nat := 1

/-- `IMAGE_EXPORT_DIRECTORY`. -/
def exportBase : Field := ⟨16, 4⟩
def addressOfFunctions : Field := ⟨28, 4⟩
def addressOfNames : Field := ⟨32, 4⟩
def addressOfNameOrdinals : Field := ⟨36, 4⟩

/-- `uiExportDir` of a module. -/
def exportDirectory (host : Host) (m : Bytes) (image : Nat) : Nat :=
  host.offset image (member m (ntHeaders host m image)
    (directoryAddress host imageDirectoryEntryExport))

inductive Procedure where
  | loadLibraryA
  | getProcAddress
  | virtualAlloc
  | ntFlushInstructionCache
deriving DecidableEq, Repr

/-- The pointers `pLoadLibraryA` and so on, null at first. -/
abbrev Pointers := Procedure → Nat

/-- The comparisons in `kernel32.dll`. -/
def kernel32Function (dwHashValue : Dword) : Option Procedure :=
  if dwHashValue = loadLibraryAHash then some .loadLibraryA
  else if dwHashValue = getProcAddressHash then some .getProcAddress
  else if dwHashValue = virtualAllocHash then some .virtualAlloc
  else none

/-- The comparison in `ntdll.dll`. -/
def ntdllFunction (dwHashValue : Dword) : Option Procedure :=
  if dwHashValue = ntFlushInstructionCacheHash then some .ntFlushInstructionCache else none

/-- The address of the function with an index in the table of addresses. -/
def functionAddress (host : Host) (m : Bytes) (uiBaseAddress index : Nat) : Nat :=
  let uiAddressArray := host.offset uiBaseAddress
    (member m (exportDirectory host m uiBaseAddress) addressOfFunctions)
  host.offset uiBaseAddress (readLE m (host.offset uiAddressArray (index * 4)) 4)

/-- `while (usCounter > 0)`. -/
def searchNames (host : Host) (m : Bytes) (wanted : Dword → Option Procedure)
    (uiBaseAddress : Nat) : (fuel usCounter uiNameArray uiNameOrdinals : Nat) → Pointers →
      Option Pointers
  | _, 0, _, _, pointers => some pointers
  | 0, _ + 1, _, _, _ => none
  | fuel + 1, usCounter + 1, uiNameArray, uiNameOrdinals, pointers =>
    match hash host m fuel (host.offset uiBaseAddress (readLE m uiNameArray 4)) 0 with
    | none => none
    | some dwHashValue =>
      match wanted dwHashValue with
      | some procedure =>
        searchNames host m wanted uiBaseAddress fuel usCounter (host.offset uiNameArray 4)
          (host.offset uiNameOrdinals 2)
          (Function.update pointers procedure
            (functionAddress host m uiBaseAddress (readLE m uiNameOrdinals 2)))
      | none =>
        searchNames host m wanted uiBaseAddress fuel (usCounter + 1) (host.offset uiNameArray 4)
          (host.offset uiNameOrdinals 2) pointers

/-- The search in the module at an address. -/
def searchExports (host : Host) (m : Bytes) (wanted : Dword → Option Procedure)
    (fuel usCounter uiBaseAddress : Nat) (pointers : Pointers) : Option Pointers :=
  let uiExportDir := exportDirectory host m uiBaseAddress
  searchNames host m wanted uiBaseAddress fuel usCounter
    (host.offset uiBaseAddress (member m uiExportDir addressOfNames))
    (host.offset uiBaseAddress (member m uiExportDir addressOfNameOrdinals)) pointers

/-- `hash` of a name that is not empty. -/
def hashName (name : List UInt8) : Dword := name.foldl hashChar 0

/-- An exported name, the index that goes with it, and the address of the function. -/
structure Export where
  name : List UInt8
  index : Nat
  address : Nat
deriving DecidableEq, Repr

/-- The memory holds names at one array and their indices at another. -/
def NamesAt (host : Host) (m : Bytes) (image : Nat) : Nat → Nat → List Export → Prop
  | _, _, [] => True
  | a, b, e :: es =>
    e.name ≠ [] ∧ StringAt m (host.offset image (readLE m a 4)) e.name ∧
      host.offset image (readLE m a 4) + e.name.length < host.addresses ∧
      readLE m b 2 = e.index ∧ functionAddress host m image e.index = e.address ∧
      NamesAt host m image (host.offset a 4) (host.offset b 2) es

instance decidableNamesAt (host : Host) (m : Bytes) (image : Nat) : ∀ (a b : Nat)
    (es : List Export), Decidable (NamesAt host m image a b es)
  | _, _, [] => isTrue trivial
  | a, b, _ :: es =>
    have := decidableNamesAt host m image (host.offset a 4) (host.offset b 2) es
    inferInstanceAs (Decidable (_ ∧ _ ∧ _ ∧ _ ∧ _ ∧ _))

/-- The wanted functions among the exports, in the order of their names. -/
def wantedExports (wanted : Dword → Option Procedure) (es : List Export) : List Procedure :=
  es.filterMap fun e => wanted (hashName e.name)

/-- The module at `image` exports each of the functions under one name, at the addresses
given. -/
structure ExportsAll (host : Host) (m : Bytes) (wanted : Dword → Option Procedure)
    (procedures : List Procedure) (address : Procedure → Nat) (image : Nat) (es : List Export) :
    Prop where
  names : NamesAt host m image
    (host.offset image (member m (exportDirectory host m image) addressOfNames))
    (host.offset image (member m (exportDirectory host m image) addressOfNameOrdinals)) es
  once : (wantedExports wanted es).Perm procedures
  addresses : ∀ e ∈ es, ∀ f ∈ wanted (hashName e.name), e.address = address f

variable {host : Host} {m : Bytes} {image : Nat} {wanted : Dword → Option Procedure}
variable {procedures : List Procedure} {address : Procedure → Nat} {es : List Export}

theorem hash_run {name : List UInt8} {fuel c : Nat} {h : Dword} (hname : StringAt m c name)
    (hne : name ≠ []) (hfits : c + name.length < host.addresses) (hfuel : name.length ≤ fuel) :
    hash host m fuel c h = some (name.foldl hashChar h) := by
  induction name generalizing fuel c h with
  | nil => exact absurd rfl hne
  | cons x xs ih =>
    obtain ⟨hfirst, -, hrest⟩ := hname
    rw [List.length_cons] at hfits hfuel
    obtain ⟨fuel, rfl⟩ := Nat.exists_eq_succ_of_ne_zero (by omega : fuel ≠ 0)
    have hnext : host.offset c 1 = c + 1 := offset_eq (by omega)
    rw [hash]
    simp only [hnext, hfirst, List.foldl_cons]
    cases xs with
    | nil => exact if_neg (not_not.mpr hrest)
    | cons y ys =>
      have hgoes : m (c + 1) ≠ 0 := hrest.1 ▸ hrest.2.1
      rw [if_pos hgoes]
      exact ih hrest (List.cons_ne_nil y ys) (by omega) (by omega)

theorem hash_mono {fuel fuel' c : Nat} {h value : Dword} (hle : fuel ≤ fuel')
    (hrun : hash host m fuel c h = some value) : hash host m fuel' c h = some value := by
  induction fuel generalizing fuel' c h with
  | zero => cases hrun
  | succ fuel ih =>
    obtain ⟨fuel', rfl⟩ := Nat.exists_eq_succ_of_ne_zero (by omega : fuel' ≠ 0)
    rw [hash] at hrun ⊢
    split at hrun
    · rename_i hgoes
      rw [if_pos hgoes]
      exact ih (by omega) hrun
    · rename_i hstops
      rw [if_neg hstops]
      exact hrun

theorem searchNames_mono {pointers result : Pointers}
    {fuel fuel' usCounter uiNameArray uiNameOrdinals : Nat} (hle : fuel ≤ fuel')
    (hrun : searchNames host m wanted image fuel usCounter uiNameArray uiNameOrdinals pointers =
      some result) :
    searchNames host m wanted image fuel' usCounter uiNameArray uiNameOrdinals pointers =
      some result := by
  induction fuel generalizing fuel' usCounter uiNameArray uiNameOrdinals pointers with
  | zero =>
    cases usCounter with
    | zero => exact (searchNames.eq_1 ..).trans ((searchNames.eq_1 ..).symm.trans hrun)
    | succ usCounter => cases hrun
  | succ fuel ih =>
    cases usCounter with
    | zero => exact (searchNames.eq_1 ..).trans ((searchNames.eq_1 ..).symm.trans hrun)
    | succ usCounter =>
      obtain ⟨fuel', rfl⟩ := Nat.exists_eq_succ_of_ne_zero (by omega : fuel' ≠ 0)
      have hle' : fuel ≤ fuel' := Nat.le_of_succ_le_succ hle
      rw [searchNames] at hrun ⊢
      cases hhash : hash host m fuel (host.offset image (readLE m uiNameArray 4)) 0 with
      | none =>
        rw [hhash] at hrun
        cases hrun
      | some value =>
        rw [hhash] at hrun
        rw [hash_mono hle' hhash]
        cases hwanted : wanted value with
        | some f =>
          simp only [hwanted] at hrun ⊢
          exact ih hle' hrun
        | none =>
          simp only [hwanted] at hrun ⊢
          exact ih hle' hrun

/-- The pointers after the names of a list. -/
def takeExports (wanted : Dword → Option Procedure) (pointers : Pointers) (es : List Export) :
    Pointers :=
  es.foldl (fun pointers e =>
    (wanted (hashName e.name)).elim pointers fun f => Function.update pointers f e.address) pointers

theorem takeExports_none {pointers : Pointers} (h : wantedExports wanted es = []) :
    takeExports wanted pointers es = pointers := by
  induction es with
  | nil => rfl
  | cons e es ih =>
    rw [wantedExports, List.filterMap_eq_nil_iff] at h
    have hfirst := h e List.mem_cons_self
    have hrest : wantedExports wanted es = [] :=
      List.filterMap_eq_nil_iff.mpr fun x hx => h x (List.mem_cons_of_mem e hx)
    rw [takeExports, List.foldl_cons, hfirst]
    exact ih hrest

theorem searchNames_run {pointers : Pointers} {fuel uiNameArray uiNameOrdinals : Nat}
    (hnames : NamesAt host m image uiNameArray uiNameOrdinals es)
    (hfuel : ∀ e ∈ es, es.length + e.name.length ≤ fuel) :
    searchNames host m wanted image fuel (wantedExports wanted es).length uiNameArray
      uiNameOrdinals pointers = some (takeExports wanted pointers es) := by
  induction es generalizing fuel uiNameArray uiNameOrdinals pointers with
  | nil => exact searchNames.eq_1 ..
  | cons e es ih =>
    obtain ⟨hne, hstring, hfits, hindex, haddress, hrest⟩ := hnames
    have hfirst := hfuel e List.mem_cons_self
    rw [List.length_cons] at hfuel hfirst
    obtain ⟨fuel, rfl⟩ := Nat.exists_eq_succ_of_ne_zero (by omega : fuel ≠ 0)
    have hfuel' : ∀ x ∈ es, es.length + x.name.length ≤ fuel := by
      intro x hx
      have := hfuel x (List.mem_cons_of_mem e hx)
      omega
    have hhash := hash_run (h := 0) hstring hne hfits (by omega : e.name.length ≤ fuel)
    have hname : e.name.foldl hashChar 0 = hashName e.name := rfl
    rw [hname] at hhash
    cases hwanted : wanted (hashName e.name) with
    | some f =>
      have hcount : wantedExports wanted (e :: es) = f :: wantedExports wanted es :=
        List.filterMap_cons_some hwanted
      rw [hcount, List.length_cons, searchNames]
      simp only [hhash, hwanted, hindex, haddress]
      rw [ih hrest hfuel', takeExports, takeExports, List.foldl_cons, hwanted]
      rfl
    | none =>
      have hcount : wantedExports wanted (e :: es) = wantedExports wanted es :=
        List.filterMap_cons_none hwanted
      have htake : takeExports wanted pointers (e :: es) = takeExports wanted pointers es := by
        rw [takeExports, List.foldl_cons, hwanted]
        rfl
      rw [hcount, htake]
      cases hleft : wantedExports wanted es with
      | nil =>
        rw [takeExports_none hleft]
        exact searchNames.eq_1 ..
      | cons f fs =>
        rw [List.length_cons, searchNames]
        simp only [hhash, hwanted]
        rw [hleft, List.length_cons] at ih
        exact ih hrest hfuel'

theorem takeExports_apply {pointers : Pointers}
    (haddresses : ∀ e ∈ es, ∀ f ∈ wanted (hashName e.name), e.address = address f)
    (f : Procedure) :
    takeExports wanted pointers es f =
      if f ∈ wantedExports wanted es then address f else pointers f := by
  induction es generalizing pointers with
  | nil => rfl
  | cons e es ih =>
    have hrest : ∀ p : Pointers, takeExports wanted p es f =
        if f ∈ wantedExports wanted es then address f else p f :=
      fun p => ih fun x hx => haddresses x (List.mem_cons_of_mem e hx)
    cases hwanted : wanted (hashName e.name) with
    | some g =>
      have hg : e.address = address g := haddresses e List.mem_cons_self g hwanted
      have hsplit : wantedExports wanted (e :: es) = g :: wantedExports wanted es :=
        List.filterMap_cons_some hwanted
      rw [takeExports, List.foldl_cons, hwanted, hsplit]
      refine (hrest _).trans ?_
      by_cases hmem : f ∈ wantedExports wanted es
      · rw [if_pos hmem, if_pos (List.mem_cons_of_mem g hmem)]
      · rw [if_neg hmem]
        by_cases hfg : f = g
        · rw [hfg, if_pos List.mem_cons_self, ← hg]
          exact Function.update_self g e.address pointers
        · rw [if_neg (List.not_mem_cons_of_ne_of_not_mem hfg hmem)]
          exact Function.update_of_ne hfg _ _
    | none =>
      have hsplit : wantedExports wanted (e :: es) = wantedExports wanted es :=
        List.filterMap_cons_none hwanted
      rw [takeExports, List.foldl_cons, hwanted, hsplit]
      exact hrest pointers

/-- The search finds the functions of a module that exports them. -/
theorem searchExports_run (h : ExportsAll host m wanted procedures address image es) :
    ∃ n, ∀ fuel, n ≤ fuel → ∀ pointers,
      searchExports host m wanted fuel procedures.length image pointers =
        some fun f => if f ∈ procedures then address f else pointers f := by
  let lengths := es.map fun e => e.name.length
  refine ⟨es.length + lengths.max?.getD 0, fun fuel hfuel pointers => ?_⟩
  have hlength : procedures.length = (wantedExports wanted es).length := h.once.length_eq.symm
  rw [searchExports, hlength, searchNames_run h.names]
  · congr 1
    funext f
    rw [takeExports_apply h.addresses]
    simp only [h.once.mem_iff]
  · intro e he
    have hmem : e.name.length ∈ lengths := List.mem_map_of_mem (f := fun e => e.name.length) he
    have hle : e.name.length ≤ lengths.max?.getD 0 := List.le_max?_getD_of_mem hmem
    omega

end WinPolyfillLoader.ReflectiveLoader
