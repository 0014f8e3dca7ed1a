import WinPolyfillLoader.Loader.Registries

/-!
Helpers whose parts of the process are lists, where an undo helper takes out what it is asked
to, wherever it is. They obey the laws of the registries.
-/

namespace WinPolyfillLoader.Loader.ListProcess

open LdrEntry StackProcess

/-- A base above all those in use and those of the system. -/
def freshBase (bases : List Nat) : Nat := 0x8000 + bases.sum

/-- The helpers of a process that maps the image `image`. -/
def listHelpers (image : ImageHeaders) :
    Helpers (List StackEntry) (List Nat) (List Nat) (List Nat) :=
  { stackHelpers image statusSuccess with
    memoryLoadLibrary := fun _ regions =>
      (statusSuccess, freshBase regions, freshBase regions :: regions)
    memoryFreeLibrary := fun base regions => (true, regions.filter (· != base))
    rtlFreeLdrDataTableEntry := fun entry entries => (true, entries.filter (·.address != entry))
    rtlRemoveInvertedFunctionTable := fun base table => (statusSuccess, table.filter (· != base))
    mmpReleaseTlsEntry := fun entry list => (statusSuccess, list.filter (· != entry)) }

/-- The members of the lists. Null is no base. -/
def listViews : Views (List StackEntry) (List Nat) (List Nat) (List Nat) where
  entries := fun entries => {e | e ∈ entries.map (·.address)}
  sound := fun _ => True
  bases := fun table => {b | b ∈ table}
  tlsEntries := fun list => {e | e ∈ list}
  images := fun regions => {b | b ∈ regions ∧ b ≠ 0}
  systemBases := {b | b < 0x8000}

theorem freshBase_not_mem (bases : List Nat) : freshBase bases ∉ bases := by
  intro hmem
  have hle := List.single_le_sum (fun _ _ => Nat.zero_le _) _ hmem
  unfold freshBase at hle
  omega

theorem mem_filter_ne {list : List Nat} {a b : Nat} :
    b ∈ list.filter (· != a) ↔ b ∈ list ∧ b ≠ a := by
  rw [List.mem_filter, bne_iff_ne]

/-- What is found at another address does not change with the entries of one. -/
theorem find_filter_ne (entries : List StackEntry) {a key : Nat} (h : key ≠ a) :
    (entries.filter (·.address != a)).find? (·.address == key) =
      entries.find? (·.address == key) := by
  rw [List.find?_filter]
  congr 1
  funext e
  by_cases hkey : e.address = key
  · simp [hkey, h]
  · simp [hkey]

theorem find_cons_ne (entries : List StackEntry) (e : StackEntry) {key : Nat}
    (h : key ≠ e.address) :
    (e :: entries).find? (·.address == key) = entries.find? (·.address == key) :=
  List.find?_cons_of_neg (by simpa using h.symm)

theorem sameEntries_of_find {image : ImageHeaders} {s : Set Nat} {d d' : List StackEntry}
    (h : ∀ key ∈ s, d'.find? (·.address == key) = d.find? (·.address == key)) :
    (listHelpers image).SameEntries s d d' := by
  intro key hkey
  constructor
  · simp only [listHelpers, stackHelpers, viewAt, h key hkey]
  · simp only [listHelpers, stackHelpers, countAt, h key hkey]

theorem listHelpers_registers (image : ImageHeaders) :
    (listHelpers image).Registers listViews where
  mapDll := by
    intro base headers flags name full entries status entry entries' h
    cases h
    have hfresh := freshAddress_not_mem entries
    refine ⟨sameEntries_of_find fun key hkey => find_cons_ne _ _ ?_, hfresh, ?_, ?_, ?_⟩
    · rintro rfl
      exact hfresh hkey
    · ext e
      exact List.mem_cons
    · simp [listHelpers, stackHelpers, viewAt, newEntry]
    · simp [listHelpers, stackHelpers, countAt, newEntry]
  freeEntry := by
    intro entry entries _
    refine ⟨_, rfl, ?_, sameEntries_of_find fun key hkey => find_filter_ne _ ?_⟩
    · ext e
      simp only [listViews, Set.mem_ofPred_eq, Set.mem_sdiff, Set.mem_singleton_iff, List.mem_map,
        List.mem_filter, bne_iff_ne]
      constructor
      · rintro ⟨x, ⟨hx, hne⟩, rfl⟩
        exact ⟨⟨x, hx, rfl⟩, hne⟩
      · rintro ⟨⟨x, hx, rfl⟩, hne⟩
        exact ⟨x, ⟨hx, hne⟩, rfl⟩
    · rintro rfl
      obtain ⟨x, hx, hkey⟩ := List.mem_map.mp hkey
      have hkept := (List.mem_filter.mp hx).2
      rw [bne_iff_ne] at hkept
      exact hkept hkey
  getCount _ _ := rfl
  updateCount := by
    intro entry entries hmem flag
    have hupdate := stackHelpers_lawful image statusSuccess
    refine ⟨?_, ?_, hupdate.update_count hmem flag, ?_⟩
    · ext e
      change e ∈ (recount entry flag entries).map (·.address) ↔ _
      rw [show (recount entry flag entries).map (·.address) = entries.map (·.address) from
        (hupdate.update_entries entry flag entries).1]
      rfl
    · exact congrFun (hupdate.update_entries entry flag entries).2 entry
    · rintro key ⟨-, hne⟩
      refine ⟨congrFun (hupdate.update_entries entry flag entries).2 key, ?_⟩
      change countAt key (recount entry flag entries) = countAt key entries
      rw [countAt, countAt, find_recount]
      cases hfind : entries.find? (·.address == key) with
      | none => rfl
      | some found =>
        have hfound : found.address = key := by simpa using List.find?_some hfind
        rw [Option.map_some, StackEntry.recount, if_neg (fun heq => hne (hfound.symm.trans heq))]
  null := by
    rintro regions ⟨-, hnull⟩
    exact hnull rfl
  loadLibrary := by
    intro buffer regions status base regions' h
    cases h
    refine ⟨fun _ _ => rfl, fun hmem => freshBase_not_mem regions hmem.1, ?_, ?_, rfl⟩
    · exact Nat.not_lt.mpr (Nat.le_add_right _ _)
    ext b
    simp only [listViews, Set.mem_ofPred_eq, List.mem_cons, Set.mem_insert_iff]
    constructor
    · rintro ⟨rfl | hb, hnull⟩
      · exact Or.inl rfl
      · exact Or.inr ⟨hb, hnull⟩
    · rintro (rfl | ⟨hb, hnull⟩)
      · exact ⟨Or.inl rfl, by unfold freshBase; omega⟩
      · exact ⟨Or.inr hb, hnull⟩
  freeLibrary := by
    intro base regions _
    refine ⟨_, rfl, ?_, fun _ _ => rfl⟩
    ext b
    simp only [listViews, Set.mem_ofPred_eq, Set.mem_sdiff, Set.mem_singleton_iff, mem_filter_ne]
    exact and_right_comm
  resolveImports _ _ := ⟨rfl, fun _ _ => rfl⟩
  setProtection _ _ := ⟨rfl, fun _ _ => rfl⟩
  insertInverted := by
    intro base table _ _ _ size
    refine ⟨trivial, ?_⟩
    ext b
    exact List.mem_cons
  removeInverted := by
    intro base table _ _
    refine ⟨rfl, trivial, ?_⟩
    ext b
    exact mem_filter_ne
  handleTls := by
    intro entry list
    ext e
    exact List.mem_cons
  releaseTls := by
    intro entry list _
    refine ⟨rfl, ?_⟩
    ext e
    exact mem_filter_ne

end WinPolyfillLoader.Loader.ListProcess
