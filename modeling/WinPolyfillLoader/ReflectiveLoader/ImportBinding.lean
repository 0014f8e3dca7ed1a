import WinPolyfillLoader.ReflectiveLoader.Imports

/-!
What step 4 leaves in the slots. The directory is described by its descriptors with their
thunks, and the modules by their answers; a `World` says what memory the answers are good
for, so that the calls may change whatever they like outside of the image.
-/

namespace WinPolyfillLoader.ReflectiveLoader

open ByteMemory MemoryModule

/-- A slot, its entry in the lookup table, and the name that the slot refers to. -/
structure Thunk where
  slot : Nat
  lookup : Nat
  name : List UInt8
deriving DecidableEq, Repr

/-- A descriptor, the name of its module and its thunks before the first empty slot. -/
structure Import where
  originalFirstThunk : Nat
  name : Nat
  firstThunk : Nat
  dllName : List UInt8
  thunks : List Thunk
deriving DecidableEq, Repr

/-- The answers of the modules. -/
structure Answers where
  handle : List UInt8 → Nat
  exported : (handle ordinal : Nat) → Option Nat
  procedure : (handle : Nat) → List UInt8 → Nat

def Answers.address (answers : Answers) (host : Host) (handle : Nat) (t : Thunk) : Option Nat :=
  if byOrdinal host t.lookup then answers.exported handle (t.lookup % 0x10000)
  else some (answers.procedure handle t.name)

/-- The functions answer like this in a world that has loaded some modules. They leave the
image as it is, and what is in the image does not matter to the world. -/
structure Serves (host : Host) (functions : Functions) (pointers : Pointers) (base size : Nat)
    (answers : Answers) (World : List Nat → Bytes → Prop) : Prop where
  outside : ∀ {modules m m'}, World modules m →
    (∀ a, a < base ∨ base + size ≤ a → m' a = m a) → World modules m'
  loadLibraryA : ∀ {modules m p name}, World modules m → StringAt m p name →
    (functions.loadLibraryA (pointers .loadLibraryA) p m).1 = answers.handle name ∧
      World (answers.handle name :: modules)
        (functions.loadLibraryA (pointers .loadLibraryA) p m).2
  loadLibraryA_keeps : ∀ p m a, base ≤ a → a < base + size →
    (functions.loadLibraryA (pointers .loadLibraryA) p m).2 a = m a
  getProcAddress : ∀ {modules m handle p name}, World modules m → handle ∈ modules →
    StringAt m p name →
    (functions.getProcAddress (pointers .getProcAddress) handle p m).1 =
        answers.procedure handle name ∧
      World modules (functions.getProcAddress (pointers .getProcAddress) handle p m).2
  getProcAddress_keeps : ∀ handle p m a, base ≤ a → a < base + size →
    (functions.getProcAddress (pointers .getProcAddress) handle p m).2 a = m a
  exported : ∀ {modules m handle ordinal address}, World modules m → handle ∈ modules →
    answers.exported handle (ordinal % 0x10000) = some address →
      functionByOrdinal host m handle ordinal = address

/-- The memory holds the thunks at two tables, with an empty slot after them. -/
def ThunksAt (host : Host) (m : Bytes) (base : Nat) : Nat → Nat → List Thunk → Prop
  | a, _, [] => readLE m a host.pointerSize = 0
  | a, d, t :: ts => readLE m a host.pointerSize = t.slot ∧ t.slot ≠ 0 ∧
      readLE m d host.pointerSize = t.lookup ∧
      (byOrdinal host t.lookup = false → StringAt m (importName host base t.slot) t.name) ∧
      ThunksAt host m base (a + host.pointerSize) (d + host.pointerSize) ts

instance decidableThunksAt (host : Host) (m : Bytes) (base : Nat) :
    ∀ (a d : Nat) (ts : List Thunk), Decidable (ThunksAt host m base a d ts)
  | a, _, [] => inferInstanceAs (Decidable (readLE m a host.pointerSize = 0))
  | a, d, _ :: ts =>
    have := decidableThunksAt host m base (a + host.pointerSize) (d + host.pointerSize) ts
    inferInstanceAs (Decidable (_ ∧ _ ∧ _ ∧ (_ → _) ∧ _))

/-- The slots hold the addresses. -/
def BoundAt (host : Host) (m : Bytes) (address : Thunk → Option Nat) : Nat → List Thunk → Prop
  | _, [] => True
  | a, t :: ts =>
    (∃ x, address t = some x ∧ readLE m a host.pointerSize = x % host.addresses) ∧
      BoundAt host m address (a + host.pointerSize) ts

/-- The range of a name that is asked for. -/
def nameRanges (host : Host) (base : Nat) (thunks : List Thunk) : List (Nat × Nat) :=
  (thunks.filter fun t => !byOrdinal host t.lookup).map fun t =>
    (importName host base t.slot, t.name.length + 1)

def thunkCalls (host : Host) (pointers : Pointers) (base handle : Nat) (thunks : List Thunk) :
    List Call :=
  (thunks.filter fun t => !byOrdinal host t.lookup).map fun t =>
    .getProcAddress (pointers .getProcAddress) handle (importName host base t.slot)

section Thunks

variable {host : Host} {functions : Functions} {pointers : Pointers} {base size handle : Nat}
variable {answers : Answers} {World : List Nat → Bytes → Prop} {modules : List Nat}
variable {m m' : Bytes} {s : Process}

theorem pointerSize_pos (host : Host) : 0 < host.pointerSize := by
  cases host <;> decide

theorem thunksAt_congr {a d : Nat} {ts : List Thunk} (h : ThunksAt host m base a d ts)
    (hslots : ∀ k, a ≤ k → k < a + host.pointerSize * (ts.length + 1) → m' k = m k)
    (hlookup : ∀ k, d ≤ k → k < d + host.pointerSize * ts.length → m' k = m k)
    (hnames : ∀ r ∈ nameRanges host base ts, ∀ k, r.1 ≤ k → k < r.1 + r.2 → m' k = m k) :
    ThunksAt host m' base a d ts := by
  induction ts generalizing a d with
  | nil =>
    refine (readLE_congr fun k hk hkn => hslots k hk ?_).trans h
    simpa using hkn
  | cons t ts ih =>
    obtain ⟨hslot, hne, hentry, hname, hrest⟩ := h
    rw [List.length_cons, Nat.mul_succ] at hlookup
    rw [List.length_cons, Nat.mul_succ, Nat.mul_succ] at hslots
    refine ⟨?_, hne, ?_, ?_, ?_⟩
    · exact (readLE_congr fun k hk hkn => hslots k hk (by omega)).trans hslot
    · exact (readLE_congr fun k hk hkn => hlookup k hk (by omega)).trans hentry
    · intro hnamed
      apply stringAt_congr (hname hnamed)
      apply hnames (importName host base t.slot, t.name.length + 1)
      exact List.mem_map.mpr ⟨t, List.mem_filter.mpr ⟨List.mem_cons_self, by simp [hnamed]⟩, rfl⟩
    · apply ih hrest
      · intro k hk hkn
        rw [Nat.mul_succ] at hkn
        exact hslots k (by omega) (by omega)
      · exact fun k hk hkn => hlookup k (by omega) (by omega)
      · intro r hr
        obtain ⟨u, hu, rfl⟩ := List.mem_map.mp hr
        obtain ⟨hu, hnamed⟩ := List.mem_filter.mp hu
        exact hnames _ (List.mem_map.mpr
          ⟨u, List.mem_filter.mpr ⟨List.mem_cons_of_mem t hu, hnamed⟩, rfl⟩)

theorem boundAt_congr {address : Thunk → Option Nat} {a : Nat} {ts : List Thunk}
    (h : BoundAt host m address a ts)
    (hsame : ∀ k, a ≤ k → k < a + host.pointerSize * ts.length → m' k = m k) :
    BoundAt host m' address a ts := by
  induction ts generalizing a with
  | nil => trivial
  | cons t ts ih =>
    obtain ⟨⟨x, hx, hread⟩, hrest⟩ := h
    rw [List.length_cons, Nat.mul_succ] at hsame
    refine ⟨⟨x, hx, ?_⟩, ih hrest fun k hk hkn => hsame k (by omega) (by omega)⟩
    exact (readLE_congr fun k hk hkn => hsame k hk (by omega)).trans hread

/-- One slot gets its address, and nothing else in the image is changed. -/
theorem bindThunk_run {t : Thunk} {uiValueA uiValueD address : Nat}
    (hserves : Serves host functions pointers base size answers World)
    (hworld : World modules s.bytes) (hhandle : handle ∈ modules)
    (hslot : readLE s.bytes uiValueA host.pointerSize = t.slot)
    (hlookup : readLE s.bytes uiValueD host.pointerSize = t.lookup) (hnull : uiValueD ≠ 0)
    (hname : byOrdinal host t.lookup = false →
      StringAt s.bytes (importName host base t.slot) t.name)
    (hinside : base ≤ uiValueA ∧ uiValueA + host.pointerSize ≤ base + size)
    (haddress : answers.address host handle t = some address) :
    World modules (bindThunk host functions pointers base handle uiValueA uiValueD s).bytes ∧
      readLE (bindThunk host functions pointers base handle uiValueA uiValueD s).bytes uiValueA
        host.pointerSize = address % host.addresses ∧
      (∀ k, base ≤ k → k < base + size → k < uiValueA ∨ uiValueA + host.pointerSize ≤ k →
        (bindThunk host functions pointers base handle uiValueA uiValueD s).bytes k =
          s.bytes k) ∧
      (bindThunk host functions pointers base handle uiValueA uiValueD s).calls =
        s.calls ++ thunkCalls host pointers base handle [t] := by
  have hkeeps : ∀ (bytes : Bytes) (x : Nat), World modules bytes →
      World modules (writeLE bytes uiValueA host.pointerSize x) := by
    intro bytes x hbytes
    apply hserves.outside hbytes
    exact fun a ha => writeLE_outside bytes (by omega)
  rw [bindThunk]
  simp only [hlookup, hslot]
  cases hordinal : byOrdinal host t.lookup with
  | true =>
    have hexported : answers.exported handle (t.lookup % 0x10000) = some address := by
      rw [Answers.address, if_pos hordinal] at haddress
      exact haddress
    rw [if_pos ⟨hnull, rfl⟩, hserves.exported hworld hhandle hexported]
    refine ⟨hkeeps _ _ hworld, readLE_writeLE _ _ _ _, ?_, ?_⟩
    · exact fun k _ _ hk => writeLE_outside _ hk
    · simp [Process.patch, thunkCalls, hordinal]
  | false =>
    have hprocedure : answers.procedure handle t.name = address := by
      rw [Answers.address, hordinal] at haddress
      exact Option.some_inj.mp haddress
    obtain ⟨hanswer, hworld'⟩ := hserves.getProcAddress hworld hhandle (hname hordinal)
    rw [if_neg (by simp)]
    simp only [Process.getProcAddress, Process.patch, hanswer, hprocedure]
    refine ⟨hkeeps _ _ hworld', readLE_writeLE _ _ _ _, ?_, ?_⟩
    · intro k hlow hhigh hk
      rw [writeLE_outside _ hk, hserves.getProcAddress_keeps _ _ _ k hlow hhigh]
    · simp [thunkCalls, hordinal]

theorem thunkCalls_cons (host : Host) (pointers : Pointers) (base handle : Nat) (t : Thunk)
    (ts : List Thunk) : thunkCalls host pointers base handle (t :: ts) =
      thunkCalls host pointers base handle [t] ++ thunkCalls host pointers base handle ts := by
  rw [thunkCalls, thunkCalls, thunkCalls, ← List.map_append, ← List.filter_append,
    List.singleton_append]

theorem nameRanges_cons {t : Thunk} {ts : List Thunk} {r : Nat × Nat}
    (hr : r ∈ nameRanges host base ts) : r ∈ nameRanges host base (t :: ts) := by
  obtain ⟨u, hu, rfl⟩ := List.mem_map.mp hr
  obtain ⟨hu, hnamed⟩ := List.mem_filter.mp hu
  exact List.mem_map.mpr ⟨u, List.mem_filter.mpr ⟨List.mem_cons_of_mem t hu, hnamed⟩, rfl⟩

/-- A range of the image. -/
def Within (base size : Nat) (r : Nat × Nat) : Prop := base ≤ r.1 ∧ r.1 + r.2 ≤ base + size

instance (base size : Nat) (r : Nat × Nat) : Decidable (Within base size r) :=
  inferInstanceAs (Decidable (_ ∧ _))

theorem bindThunks_run {ts : List Thunk} {fuel uiValueA uiValueD : Nat}
    (hserves : Serves host functions pointers base size answers World)
    (hworld : World modules s.bytes) (hhandle : handle ∈ modules)
    (hbase : 0 < base) (haddresses : base + size < host.addresses)
    (hts : ThunksAt host s.bytes base uiValueA uiValueD ts)
    (hslots : Within base size (uiValueA, host.pointerSize * (ts.length + 1)))
    (hlookup : Within base size (uiValueD, host.pointerSize * ts.length))
    (hapart : uiValueD = uiValueA ∨
      Apart uiValueA (host.pointerSize * ts.length) uiValueD (host.pointerSize * ts.length))
    (hnames : ∀ r ∈ nameRanges host base ts,
      Within base size r ∧ Apart uiValueA (host.pointerSize * ts.length) r.1 r.2)
    (haddress : ∀ t ∈ ts, (answers.address host handle t).isSome = true)
    (hfuel : ts.length < fuel) :
    ∃ s', bindThunks host functions pointers base handle fuel uiValueA uiValueD s = some s' ∧
      World modules s'.bytes ∧ BoundAt host s'.bytes (answers.address host handle) uiValueA ts ∧
      (∀ k, base ≤ k → k < base + size →
        k < uiValueA ∨ uiValueA + host.pointerSize * ts.length ≤ k → s'.bytes k = s.bytes k) ∧
      s'.calls = s.calls ++ thunkCalls host pointers base handle ts := by
  have hpointer := pointerSize_pos host
  unfold Within at hslots hlookup hnames
  unfold Apart at hapart hnames
  induction ts generalizing fuel uiValueA uiValueD s with
  | nil =>
    obtain ⟨fuel, rfl⟩ := Nat.exists_eq_succ_of_ne_zero (Nat.ne_of_gt hfuel)
    have hempty : readLE s.bytes uiValueA host.pointerSize = 0 := hts
    refine ⟨s, ?_, hworld, trivial, fun _ _ _ _ => rfl, (List.append_nil _).symm⟩
    rw [bindThunks, if_neg (not_not.mpr hempty)]
  | cons t ts ih =>
    obtain ⟨fuel, rfl⟩ := Nat.exists_eq_succ_of_ne_zero (Nat.ne_of_gt (Nat.zero_lt_of_lt hfuel))
    obtain ⟨hslot, hne, hentry, hname, hrest⟩ := hts
    simp only [List.length_cons, Nat.mul_succ] at hslots hlookup hapart hnames hfuel ⊢
    obtain ⟨address, hanswer⟩ := Option.isSome_iff_exists.mp (haddress t List.mem_cons_self)
    obtain ⟨hworld₁, hread, hframe₁, hcalls₁⟩ := bindThunk_run hserves hworld hhandle hslot hentry
      (by omega) hname (by omega) hanswer
    have hnextA : host.offset uiValueA host.pointerSize = uiValueA + host.pointerSize :=
      offset_eq (by omega)
    have hnextD : host.offset uiValueD host.pointerSize = uiValueD + host.pointerSize :=
      offset_eq (by omega)
    -- what is read for the other slots is left
    have hrest₁ : ThunksAt host
        (bindThunk host functions pointers base handle uiValueA uiValueD s).bytes base
        (uiValueA + host.pointerSize) (uiValueD + host.pointerSize) ts := by
      apply thunksAt_congr hrest
      · intro k hk hkn
        rw [Nat.mul_succ] at hkn
        exact hframe₁ k (by omega) (by omega) (by omega)
      · exact fun k hk hkn => hframe₁ k (by omega) (by omega) (by omega)
      · intro r hr k hk hkn
        have := hnames r (nameRanges_cons hr)
        exact hframe₁ k (by omega) (by omega) (by omega)
    have hslots₁ : base ≤ uiValueA + host.pointerSize ∧ uiValueA + host.pointerSize +
        host.pointerSize * (ts.length + 1) ≤ base + size := by
      rw [Nat.mul_succ]
      omega
    have hnames₁ : ∀ r ∈ nameRanges host base ts, (base ≤ r.1 ∧ r.1 + r.2 ≤ base + size) ∧
        (uiValueA + host.pointerSize + host.pointerSize * ts.length ≤ r.1 ∨
          r.1 + r.2 ≤ uiValueA + host.pointerSize) := by
      intro r hr
      have := hnames r (nameRanges_cons hr)
      omega
    have hlookupTable : uiValueD ≠ 0 := by omega
    obtain ⟨s', hrun, hworld', hbound, hframe, hcalls⟩ := ih hworld₁ hrest₁ hslots₁ (by omega)
      (by omega) hnames₁ (fun u hu => haddress u (List.mem_cons_of_mem t hu))
      (Nat.lt_of_succ_lt_succ hfuel)
    refine ⟨s', ?_, hworld', ⟨⟨address, hanswer, ?_⟩, hbound⟩, ?_, ?_⟩
    · rw [bindThunks, if_pos (hslot ▸ hne), if_pos hlookupTable, hnextA, hnextD]
      exact hrun
    · rw [← hread]
      exact readLE_congr fun k hk hkn => hframe k (by omega) (by omega) (by omega)
    · intro k hlow hhigh hk
      rw [hframe k hlow hhigh (by omega), hframe₁ k hlow hhigh (by omega)]
    · rw [hcalls, hcalls₁, List.append_assoc, ← thunkCalls_cons]

end Thunks

/-- The table of the slots of a module, and its lookup table. -/
def Import.slots (base : Nat) (d : Import) : Nat := base + d.firstThunk
def Import.lookup (base : Nat) (d : Import) : Nat := base + d.originalFirstThunk

/-- The range of the slots that are written. -/
def Import.size (host : Host) (d : Import) : Nat := host.pointerSize * d.thunks.length

/-- What is read for a descriptor. -/
def Import.reads (host : Host) (base : Nat) (d : Import) : List (Nat × Nat) :=
  (base + d.name, d.dllName.length + 1) :: (d.lookup base, d.size host) ::
    (d.slots base, d.size host + host.pointerSize) :: nameRanges host base d.thunks

/-- The memory holds a descriptor and what it refers to. -/
structure ImportAt (host : Host) (m : Bytes) (base uiValueC : Nat) (d : Import) : Prop where
  name : member m uiValueC descriptorName = d.name
  named : d.name ≠ 0
  dllName : StringAt m (base + d.name) d.dllName
  originalFirstThunk : member m uiValueC originalFirstThunk = d.originalFirstThunk
  firstThunk : member m uiValueC firstThunk = d.firstThunk
  thunks : ThunksAt host m base (d.slots base) (d.lookup base) d.thunks

/-- The memory holds the descriptors, and one without a name after them. -/
def DirectoryAt (host : Host) (m : Bytes) (base : Nat) : Nat → List Import → Prop
  | uiValueC, [] => member m uiValueC descriptorName = 0
  | uiValueC, d :: ds => ImportAt host m base uiValueC d ∧
      DirectoryAt host m base (uiValueC + sizeOfImportDescriptor) ds

/-- The slots of a descriptor are apart from what is read after they are written. -/
def Separate (host : Host) (base : Nat) : Nat → List Import → Prop
  | _, [] => True
  | uiValueC, d :: ds =>
    (d.lookup base = d.slots base ∨
      Apart (d.slots base) (d.size host) (d.lookup base) (d.size host)) ∧
    (∀ r ∈ nameRanges host base d.thunks, Apart (d.slots base) (d.size host) r.1 r.2) ∧
    Apart (d.slots base) (d.size host) (uiValueC + sizeOfImportDescriptor)
      (sizeOfImportDescriptor * (ds.length + 1)) ∧
    (∀ e ∈ ds, ∀ r ∈ e.reads host base, Apart (d.slots base) (d.size host) r.1 r.2) ∧
    Separate host base (uiValueC + sizeOfImportDescriptor) ds

def importCalls (host : Host) (pointers : Pointers) (answers : Answers) (base : Nat)
    (ds : List Import) : List Call :=
  ds.flatMap fun d => .loadLibraryA (pointers .loadLibraryA) (base + d.name) ::
    thunkCalls host pointers base (answers.handle d.dllName) d.thunks

/-- The slots of all modules hold their addresses. -/
def AllBound (host : Host) (answers : Answers) (m : Bytes) (base : Nat) (ds : List Import) :
    Prop :=
  ∀ d ∈ ds, BoundAt host m (answers.address host (answers.handle d.dllName)) (d.slots base)
    d.thunks

/-- The import directory of an image at `base`: all of it is in the image, the slots are apart
from what is read later, and every thunk by ordinal is exported. -/
structure ImportDirectory (host : Host) (answers : Answers) (m : Bytes) (base size uiValueC : Nat)
    (ds : List Import) : Prop where
  directory : DirectoryAt host m base uiValueC ds
  separate : Separate host base uiValueC ds
  table : Within base size (uiValueC, sizeOfImportDescriptor * (ds.length + 1))
  inside : ∀ d ∈ ds, ∀ r ∈ d.reads host base, Within base size r
  answered : ∀ d ∈ ds, ∀ t ∈ d.thunks,
    (answers.address host (answers.handle d.dllName) t).isSome = true

section Directory

variable {host : Host} {functions : Functions} {pointers : Pointers} {base size : Nat}
variable {answers : Answers} {World : List Nat → Bytes → Prop} {modules : List Nat}
variable {m m' : Bytes} {s : Process} {d : Import} {ds : List Import} {uiValueC : Nat}

theorem importAt_congr (h : ImportAt host m base uiValueC d)
    (htable : ∀ k, uiValueC ≤ k → k < uiValueC + sizeOfImportDescriptor → m' k = m k)
    (hreads : ∀ r ∈ d.reads host base, ∀ k, r.1 ≤ k → k < r.1 + r.2 → m' k = m k) :
    ImportAt host m' base uiValueC d := by
  have hfield : ∀ field : Field, field.offset + field.size ≤ sizeOfImportDescriptor →
      member m' uiValueC field = member m uiValueC field := by
    intro field hin
    exact readLE_congr fun k hk hkn => htable k (by omega) (by omega)
  constructor
  · exact (hfield _ (by decide)).trans h.name
  · exact h.named
  · exact stringAt_congr h.dllName (hreads _ List.mem_cons_self)
  · exact (hfield _ (by decide)).trans h.originalFirstThunk
  · exact (hfield _ (by decide)).trans h.firstThunk
  · apply thunksAt_congr h.thunks
    · intro k hk hkn
      rw [Nat.mul_succ] at hkn
      have hmem : (d.slots base, d.size host + host.pointerSize) ∈ d.reads host base := by
        simp [Import.reads]
      exact hreads _ hmem k hk hkn
    · have hmem : (d.lookup base, d.size host) ∈ d.reads host base := by simp [Import.reads]
      exact hreads _ hmem
    · intro r hr
      apply hreads
      simp [Import.reads, hr]

/-- Writes that stay away from the rest of the directory leave it. -/
theorem directoryAt_congr (h : DirectoryAt host m base uiValueC ds)
    (htable : ∀ k, uiValueC ≤ k →
      k < uiValueC + sizeOfImportDescriptor * (ds.length + 1) → m' k = m k)
    (hreads : ∀ d ∈ ds, ∀ r ∈ d.reads host base, ∀ k, r.1 ≤ k → k < r.1 + r.2 → m' k = m k) :
    DirectoryAt host m' base uiValueC ds := by
  rw [sizeOfImportDescriptor] at htable
  induction ds generalizing uiValueC with
  | nil =>
    refine (readLE_congr fun k hk hkn => htable k ?_ ?_).trans h
    · exact Nat.le_trans (Nat.le_add_right _ _) hk
    · simp only [descriptorName] at hk hkn
      simp
      omega
  | cons d ds ih =>
    obtain ⟨hfirst, hrest⟩ := h
    rw [List.length_cons] at htable
    refine ⟨importAt_congr hfirst ?_ (hreads d List.mem_cons_self), ih hrest ?_ ?_⟩
    · intro k hk hkn
      rw [sizeOfImportDescriptor] at hkn
      exact htable k hk (by omega)
    · intro k hk hkn
      rw [sizeOfImportDescriptor] at hk hkn
      exact htable k (by omega) (by omega)
    · exact fun e he => hreads e (List.mem_cons_of_mem d he)

theorem bindImport_run {fuel : Nat}
    (hserves : Serves host functions pointers base size answers World)
    (hworld : World modules s.bytes) (hbase : 0 < base)
    (haddresses : base + size < host.addresses)
    (h : ImportDirectory host answers s.bytes base size uiValueC (d :: ds))
    (hfuel : d.thunks.length < fuel) :
    ∃ s',
      bindImports host functions pointers base (fuel + 1) uiValueC s =
        bindImports host functions pointers base fuel (uiValueC + sizeOfImportDescriptor) s' ∧
      World (answers.handle d.dllName :: modules) s'.bytes ∧
      BoundAt host s'.bytes (answers.address host (answers.handle d.dllName)) (d.slots base)
        d.thunks ∧
      (∀ k, base ≤ k → k < base + size →
        k < d.slots base ∨ d.slots base + d.size host ≤ k → s'.bytes k = s.bytes k) ∧
      s'.calls = s.calls ++ importCalls host pointers answers base [d] := by
  have hfirst := h.directory.1
  obtain ⟨hown, hnames, -, -, -⟩ := h.separate
  have hinside := h.inside d List.mem_cons_self
  have htable := h.table
  have hname := hinside (base + d.name, d.dllName.length + 1) (by simp [Import.reads])
  have hslots := hinside (d.slots base, d.size host + host.pointerSize) (by simp [Import.reads])
  have hlookup := hinside (d.lookup base, d.size host) (by simp [Import.reads])
  have hranges : ∀ r ∈ nameRanges host base d.thunks, Within base size r :=
    fun r hr => hinside r (by simp [Import.reads, hr])
  unfold Within at htable hname hslots hlookup
  simp only [List.length_cons, sizeOfImportDescriptor] at htable hname
  simp only [Import.slots, Import.lookup] at hslots hlookup
  have hnamePlace : host.offset base d.name = base + d.name := offset_eq (by omega)
  have hslotsPlace : host.offset base d.firstThunk = d.slots base := offset_eq (by omega)
  have hlookupPlace : host.offset base d.originalFirstThunk = d.lookup base :=
    offset_eq (by omega)
  have hnext : host.offset uiValueC sizeOfImportDescriptor = uiValueC + sizeOfImportDescriptor := by
    rw [sizeOfImportDescriptor]
    exact offset_eq (by omega)
  obtain ⟨hanswer, hworld₁⟩ := hserves.loadLibraryA hworld hfirst.dllName
  -- the call leaves the directory as it is
  have hkept : ∀ k, base ≤ k → k < base + size →
      (s.loadLibraryA functions pointers (base + d.name)).2.bytes k = s.bytes k :=
    fun k => hserves.loadLibraryA_keeps _ _ k
  have hloaded : ImportAt host (s.loadLibraryA functions pointers (base + d.name)).2.bytes base
      uiValueC d := by
    apply importAt_congr hfirst
    · intro k hk hkn
      rw [sizeOfImportDescriptor] at hkn
      exact hkept k (by omega) (by omega)
    · intro r hr k hk hkn
      have := hinside r hr
      unfold Within at this
      exact hkept k (by omega) (by omega)
  have hslotsRange : Within base size (d.slots base,
      host.pointerSize * (d.thunks.length + 1)) := by
    rw [Nat.mul_succ]
    exact hslots
  obtain ⟨s', hrun, hworld', hbound, hframe, hcalls⟩ := bindThunks_run hserves hworld₁
    List.mem_cons_self hbase haddresses hloaded.thunks hslotsRange hlookup hown
    (fun r hr => ⟨hranges r hr, hnames r hr⟩) (h.answered d List.mem_cons_self) hfuel
  refine ⟨s', ?_, hworld', hbound, ?_, ?_⟩
  · rw [bindImports, if_pos (hfirst.name ▸ hfirst.named)]
    simp only [hfirst.name, hnamePlace, hloaded.firstThunk, hloaded.originalFirstThunk,
      hslotsPlace, hlookupPlace, hnext]
    have hhandle : (s.loadLibraryA functions pointers (base + d.name)).1 =
        answers.handle d.dllName := hanswer
    rw [hhandle, hrun]
  · intro k hlow hhigh hk
    rw [hframe k hlow hhigh hk, hkept k hlow hhigh]
  · rw [hcalls]
    simp [Process.loadLibraryA, importCalls]

theorem importCalls_cons (host : Host) (pointers : Pointers) (answers : Answers) (base : Nat)
    (d : Import) (ds : List Import) : importCalls host pointers answers base (d :: ds) =
      importCalls host pointers answers base [d] ++ importCalls host pointers answers base ds := by
  rw [importCalls, importCalls, importCalls, ← List.flatMap_append, List.singleton_append]

/-- What is left of a directory behind its first descriptor, once the slots of that are
written. -/
theorem ImportDirectory.tail {s' : Process}
    (h : ImportDirectory host answers m base size uiValueC (d :: ds))
    (hframe : ∀ k, base ≤ k → k < base + size →
      k < d.slots base ∨ d.slots base + d.size host ≤ k → s'.bytes k = m k) :
    ImportDirectory host answers s'.bytes base size (uiValueC + sizeOfImportDescriptor) ds := by
  obtain ⟨-, -, htableApart, hlater, hseparate⟩ := h.separate
  have htable := h.table
  unfold Within at htable
  unfold Apart at htableApart hlater
  simp only [List.length_cons, sizeOfImportDescriptor] at htable htableApart
  constructor
  · apply directoryAt_congr h.directory.2
    · intro k hk hkn
      rw [sizeOfImportDescriptor] at hk hkn
      exact hframe k (by omega) (by omega) (by omega)
    · intro e he r hr k hk hkn
      have hin := h.inside e (List.mem_cons_of_mem d he) r hr
      have hapart := hlater e he r hr
      unfold Within at hin
      exact hframe k (by omega) (by omega) (by omega)
  · exact hseparate
  · unfold Within
    simp only [sizeOfImportDescriptor]
    omega
  · exact fun e he => h.inside e (List.mem_cons_of_mem d he)
  · exact fun e he => h.answered e (List.mem_cons_of_mem d he)

theorem bindImports_run {fuel : Nat}
    (hserves : Serves host functions pointers base size answers World)
    (hworld : World modules s.bytes) (hbase : 0 < base)
    (haddresses : base + size < host.addresses)
    (h : ImportDirectory host answers s.bytes base size uiValueC ds)
    (hfuel : ds.length < fuel) (hthunks : ∀ d ∈ ds, ds.length + d.thunks.length < fuel) :
    ∃ s' modules',
      bindImports host functions pointers base fuel uiValueC s = some s' ∧
      World modules' s'.bytes ∧ AllBound host answers s'.bytes base ds ∧
      (∀ k, base ≤ k → k < base + size →
        (∀ d ∈ ds, k < d.slots base ∨ d.slots base + d.size host ≤ k) →
          s'.bytes k = s.bytes k) ∧
      s'.calls = s.calls ++ importCalls host pointers answers base ds := by
  induction ds generalizing fuel uiValueC s modules with
  | nil =>
    obtain ⟨fuel, rfl⟩ := Nat.exists_eq_succ_of_ne_zero (Nat.ne_of_gt hfuel)
    have hstop : member s.bytes uiValueC descriptorName = 0 := h.directory
    refine ⟨s, modules, ?_, hworld, fun d hd => absurd hd List.not_mem_nil, fun _ _ _ _ => rfl,
      (List.append_nil _).symm⟩
    rw [bindImports, if_neg (not_not.mpr hstop)]
  | cons d ds ih =>
    obtain ⟨fuel, rfl⟩ := Nat.exists_eq_succ_of_ne_zero (Nat.ne_of_gt (Nat.zero_lt_of_lt hfuel))
    rw [List.length_cons] at hfuel hthunks
    have hfirst := hthunks d List.mem_cons_self
    obtain ⟨s₁, hrun₁, hworld₁, hbound₁, hframe₁, hcalls₁⟩ :=
      bindImport_run hserves hworld hbase haddresses h (by omega : d.thunks.length < fuel)
    obtain ⟨s', modules', hrun, hworld', hbound, hframe, hcalls⟩ :=
      ih hworld₁ (h.tail hframe₁) (Nat.lt_of_succ_lt_succ hfuel) fun e he => by
        have := hthunks e (List.mem_cons_of_mem d he)
        omega
    refine ⟨s', modules', hrun₁.trans hrun, hworld', ?_, ?_, ?_⟩
    · intro e he
      rcases List.mem_cons.mp he with rfl | he
      · apply boundAt_congr hbound₁
        intro k hk hkn
        have hin := h.inside e List.mem_cons_self (e.slots base, e.size host + host.pointerSize)
          (by simp [Import.reads])
        unfold Within at hin
        simp only [Import.size] at hin
        apply hframe k (by omega) (by omega)
        intro later hlater
        have hapart := h.separate.2.2.2.1 later hlater
          (later.slots base, later.size host + host.pointerSize) (by simp [Import.reads])
        unfold Apart at hapart
        simp only [Import.size] at hapart ⊢
        omega
      · exact hbound e he
    · intro k hlow hhigh hk
      rw [hframe k hlow hhigh fun e he => hk e (List.mem_cons_of_mem d he),
        hframe₁ k hlow hhigh (hk d List.mem_cons_self)]
    · rw [hcalls, hcalls₁, List.append_assoc, ← importCalls_cons]

end Directory

end WinPolyfillLoader.ReflectiveLoader
