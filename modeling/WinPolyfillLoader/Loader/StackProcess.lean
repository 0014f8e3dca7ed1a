import Mathlib.Algebra.Order.BigOperators.Group.List
import Mathlib.Algebra.Order.Group.Nat
import Mathlib.Tactic.Ring
import WinPolyfillLoader.Loader.Process

/-!
Helpers whose parts of the process are stacks: each do helper pushes and its
undo helper pops. They obey the laws, whatever the TLS handler answers.
-/

namespace WinPolyfillLoader.Loader.StackProcess

open LdrEntry

/-- A loader entry: its address, what is read of it and its reference count. -/
structure StackEntry where
  address : Nat
  view : LdrEntryView
  count : Nat
deriving DecidableEq, Repr

def freshAddress (entries : List StackEntry) : Nat := 1 + (entries.map (·.address)).sum

def StackEntry.recount (address : Nat) (flag : Bool) (e : StackEntry) : StackEntry :=
  if e.address = address then { e with count := if flag then e.count + 1 else e.count - 1 } else e

/-- An update of the count of the entries at one address. -/
def recount (address : Nat) (flag : Bool) (entries : List StackEntry) : List StackEntry :=
  entries.map (·.recount address flag)

def countAt (address : Nat) (entries : List StackEntry) : Nat :=
  ((entries.find? (·.address == address)).map (·.count)).getD 0

def viewAt (address : Nat) (entries : List StackEntry) : LdrEntryView :=
  ((entries.find? (·.address == address)).map (·.view)).getD ⟨0, [], 0, false⟩

def newEntry (base : Nat) (headers : ImageHeaders) (name : Option (List Wchar))
    (entries : List StackEntry) : StackEntry :=
  ⟨freshAddress entries, ⟨base, name.getD [], headers.sizeOfImage, true⟩, 1⟩

/-- The helpers of a process that maps the image `image` and whose TLS handler
answers `tls`. -/
def stackHelpers (image : ImageHeaders) (tls : NtStatus) :
    Helpers (List StackEntry) (List Nat) (List Nat) (List Nat) where
  rtlIsValidImageBuffer _ := .ok true
  rtlImageNtHeader _ _ := some image
  towlower c := c
  inLoadOrderModuleList entries := entries.map (·.address)
  ldrEntryAt entries address := viewAt address entries
  memoryLoadLibrary buffer regions :=
    (statusSuccess, 0x10000 * (regions.length + 1), buffer :: regions)
  memoryFreeLibrary _ regions := (true, regions.tail)
  ldrMapDllMemory base headers _ name _ entries :=
    (statusSuccess, freshAddress entries, newEntry base headers name entries :: entries)
  rtlFreeLdrDataTableEntry _ entries := (true, entries.tail)
  memoryResolveImportTable _ regions := (statusSuccess, regions)
  memorySetSectionProtection _ regions := (statusSuccess, regions)
  rtlInsertInvertedFunctionTable base _ table := (statusSuccess, base :: table)
  rtlRemoveInvertedFunctionTable _ table := (statusSuccess, table.tail)
  mmpHandleTlsData entry list := (tls, if ntSuccess tls then entry :: list else list)
  mmpReleaseTlsEntry _ list := (statusSuccess, list.tail)
  ldrpExecuteTls _ := true
  ldrpCallInitializers _ := (true, true)
  rtlUpdateReferenceCount address flag entries := (statusSuccess, recount address flag entries)
  rtlGetReferenceCount address entries := (statusSuccess, countAt address entries)

theorem freshAddress_not_mem (entries : List StackEntry) :
    freshAddress entries ∉ entries.map (·.address) := by
  intro hmem
  have hle := List.single_le_sum (fun _ _ => Nat.zero_le _) _ hmem
  unfold freshAddress at hle
  omega

@[simp] theorem recount_address (e : StackEntry) (address : Nat) (flag : Bool) :
    (e.recount address flag).address = e.address := by
  unfold StackEntry.recount
  split <;> rfl

@[simp] theorem recount_view (e : StackEntry) (address : Nat) (flag : Bool) :
    (e.recount address flag).view = e.view := by
  unfold StackEntry.recount
  split <;> rfl

theorem recount_of_not_mem {address : Nat} {entries : List StackEntry}
    (h : address ∉ entries.map (·.address)) (flag : Bool) :
    recount address flag entries = entries := by
  unfold recount
  conv => rhs; rw [← List.map_id entries]
  apply List.map_congr_left
  intro e he
  have hne : e.address ≠ address := fun heq => h (heq ▸ List.mem_map_of_mem he)
  rw [StackEntry.recount, if_neg hne]
  rfl

theorem find_recount (address key : Nat) (flag : Bool) (entries : List StackEntry) :
    (recount address flag entries).find? (·.address == key) =
      (entries.find? (·.address == key)).map (·.recount address flag) := by
  rw [recount, List.find?_map]
  have hkeep : (fun e : StackEntry => e.address == key) ∘
      (fun e : StackEntry => e.recount address flag) = fun e => e.address == key := by
    funext e
    simp
  rw [hkeep]

/-- A fresh entry stays on top of the stack while only its count changes. -/
theorem recounted_top {image : ImageHeaders} {tls : NtStatus} {address : Nat}
    {view : LdrEntryView} {count : Nat} {rest entries : List StackEntry}
    (hfresh : address ∉ rest.map (·.address))
    (h : (stackHelpers image tls).Recounted address (⟨address, view, count⟩ :: rest) entries) :
    entries.tail = rest := by
  induction h with
  | refl => rfl
  | step flag _ ih =>
    simp only [stackHelpers, recount]
    rw [← List.map_tail, ih]
    exact recount_of_not_mem hfresh flag

theorem imageEdited_eq {image : ImageHeaders} {tls : NtStatus} {base : Nat} {r r' : List Nat}
    (h : (stackHelpers image tls).ImageEdited base r r') : r' = r := by
  induction h with
  | refl => rfl
  | resolve _ ih => exact ih
  | protect _ ih => exact ih

theorem stackHelpers_lawful (image : ImageHeaders) (tls : NtStatus) :
    (stackHelpers image tls).Lawful where
  map_fails := by
    intro _ _ _ _ _ _ _ _ _ h hfails
    cases h
    cases hfails
  map_entry := by
    intro _ _ _ _ _ entries _ _ _ h _
    cases h
    refine ⟨freshAddress_not_mem entries, ?_, ?_, ?_⟩
    · exact List.mem_cons_self
    · simp [stackHelpers, viewAt, newEntry]
    · simp [stackHelpers, countAt, newEntry]
  free_reverses := by
    intro _ _ _ _ _ entries _ _ _ _ h _ hrecount _
    cases h
    have hrest := recounted_top (freshAddress_not_mem entries) hrecount
    exact Prod.ext rfl hrest
  load_reverses := by
    intro _ _ _ _ _ _ h _ hedited
    cases h
    rw [imageEdited_eq hedited]
    rfl
  edit_headers := fun _ => rfl
  insert_fails := by
    intro _ _ _ _ _ h hfails
    cases h
    cases hfails
  remove_reverses := by
    intro _ _ _ _ _ h _
    cases h
    rfl
  tls_fails := by
    intro _ _ _ _ h hfails
    cases h
    rw [if_neg (by rw [hfails]; exact Bool.false_ne_true)]
  release_reverses := by
    intro _ _ _ _ h hok
    cases h
    rw [if_pos hok]
    rfl
  initializers_fail := by
    intro _ _ h
    cases h
  get_succeeds _ _ := rfl
  update_succeeds _ _ _ := rfl
  update_count := by
    intro address entries hmem flag
    obtain ⟨e, he, haddress⟩ := List.mem_map.mp hmem
    cases hfind : entries.find? (·.address == address) with
    | none =>
      have hnone := List.find?_eq_none.mp hfind e he
      simp [haddress] at hnone
    | some found =>
      have hfound : found.address = address := by simpa using List.find?_some hfind
      simp only [stackHelpers, countAt, find_recount, hfind, Option.map_some, Option.getD_some]
      rw [StackEntry.recount, if_pos hfound]
  update_entries := by
    intro address flag entries
    constructor
    · simp [stackHelpers, recount]
    · funext key
      simp only [stackHelpers, viewAt, find_recount, Option.map_map]
      congr 2
      funext e
      exact recount_view e address flag

end WinPolyfillLoader.Loader.StackProcess
