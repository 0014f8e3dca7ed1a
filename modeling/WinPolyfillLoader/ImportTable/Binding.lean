import WinPolyfillLoader.ImportTable.Resolve

/-!
What `MemoryResolveImportTable` binds. An import directory is described by the
list of its descriptors with their thunks; `Bound` says that the slots hold the
answers to given queries, and the run lemmas read the loops off that list.
-/

namespace WinPolyfillLoader.ImportTable

open ByteMemory LdrEntry

/-- A thunk, with the name that `IMAGE_IMPORT_BY_NAME` holds if it has one. -/
structure Thunk where
  value : Nat
  name : List UInt8
deriving DecidableEq, Repr

/-- A descriptor, the name of its DLL and its thunks before the first zero. -/
structure Import where
  originalFirstThunk : Nat
  name : Nat
  firstThunk : Nat
  dllName : List UInt8
  thunks : List Thunk
deriving DecidableEq, Repr

/-- The address of the lookup table, which is the table of the slots if there is no other. -/
def Import.lookup (base : Nat) (d : Import) : Nat :=
  base + if d.originalFirstThunk ≠ 0 then d.originalFirstThunk else d.firstThunk

def Import.slots (base : Nat) (d : Import) : Nat := base + d.firstThunk

/-- The pointer that a DLL gives for a procedure. -/
def dllAddress (env : Environment) (handle : Nat) (name : Option (List UInt8)) (number : Nat) :
    Option Nat :=
  match env.helpers.ldrGetProcedureAddress handle name number with
  | (status, address) =>
    let pointer := address % 256 ^ env.target.pointerSize
    if ntSuccess status = true ∧ pointer ≠ 0 then some pointer else none

def dllHandle (env : Environment) (dllName : List UInt8) : Option Nat :=
  match env.helpers.rtlAnsiStringToUnicodeString dllName with
  | (status, dllNameUnicode) =>
    if !ntSuccess status then none
    else
      match env.helpers.ldrGetDllHandle dllNameUnicode with
      | (status, handle) => if ntSuccess status = true ∧ handle ≠ 0 then some handle else none

/-- The address that is right for a thunk. -/
def thunkAddress (env : Environment) (handle : Nat) (t : Thunk) : Option Nat :=
  if imageSnapByOrdinal env.target t.value then
    dllAddress env handle none (imageOrdinal t.value)
  else dllAddress env handle (some t.name) 0

/-- The address that the call of the source asks for. -/
def askedAddress (env : Environment) (procedureNameAnsi : Uninitialized)
    (handle funcRef : Nat) (t : Thunk) : Option Nat :=
  if imageSnapByOrdinal env.target t.value then
    dllAddress env handle none (imageOrdinal t.value)
  else dllAddress env handle (some (procedureNameAnsi handle funcRef)) 0

/-- The memory holds the thunks at `a`, with a zero after them. -/
def ThunksAt (env : Environment) (m : Bytes) : Nat → List Thunk → Prop
  | a, [] => load env.mapped m a env.target.pointerSize = some 0
  | a, t :: ts => load env.mapped m a env.target.pointerSize = some t.value ∧ t.value ≠ 0 ∧
      ThunksAt env m (a + env.target.pointerSize) ts

/-- The slots at `a` hold the addresses that `answer` gives for the thunks. -/
def Bound (env : Environment) (answer : Nat → Thunk → Option Nat) (m : Bytes) :
    Nat → List Thunk → Prop
  | _, [] => True
  | a, t :: ts => answer a t = some (readLE m a env.target.pointerSize) ∧
      Bound env answer m (a + env.target.pointerSize) ts

/-- Each thunk is answered when its slot is asked for. -/
def Answered (env : Environment) (answer : Nat → Thunk → Option Nat) : Nat → List Thunk → Prop
  | _, [] => True
  | a, t :: ts => (answer a t).isSome = true ∧
      Answered env answer (a + env.target.pointerSize) ts

/-- The memory holds a descriptor and what it refers to. -/
structure ImportAt (env : Environment) (m : Bytes) (base importDesc : Nat) (d : Import) :
    Prop where
  name : load env.mapped m (importDesc + 12) 4 = some d.name
  named : d.name ≠ 0
  dllName : rtlInitAnsiString env.mapped m (base + d.name) = some d.dllName
  originalFirstThunk : load env.mapped m importDesc 4 = some d.originalFirstThunk
  firstThunk : load env.mapped m (importDesc + 16) 4 = some d.firstThunk
  thunks : ThunksAt env m (d.lookup base) d.thunks
  slots : accessible env.mapped (d.slots base) (env.target.pointerSize * d.thunks.length) = true

/-- The memory holds the descriptors at `importDesc`, and one without a name after them. -/
def DirectoryAt (env : Environment) (m : Bytes) (base : Nat) : Nat → List Import → Prop
  | importDesc, [] => load env.mapped m (importDesc + 12) 4 = some 0
  | importDesc, d :: ds => ImportAt env m base importDesc d ∧
      DirectoryAt env m base (importDesc + 20) ds

/-- The slots of a descriptor share no byte with what is read or written later. -/
def Separate (env : Environment) (base : Nat) : Nat → List Import → Prop
  | _, [] => True
  | importDesc, d :: ds =>
      let size := env.target.pointerSize * d.thunks.length
      let later := importDesc + 20
      (d.lookup base = d.slots base ∨
        Apart (d.lookup base) (env.target.pointerSize * (d.thunks.length + 1)) (d.slots base) size) ∧
      Apart (d.slots base) size later (20 * (ds.length + 1)) ∧
      (∀ e ∈ ds, Apart (d.slots base) size (base + e.name) (e.dllName.length + 1) ∧
        Apart (d.slots base) size (e.lookup base)
          (env.target.pointerSize * (e.thunks.length + 1)) ∧
        Apart (d.slots base) size (e.slots base) (env.target.pointerSize * e.thunks.length)) ∧
      Separate env base later ds

variable {env : Environment} {procedureNameAnsi : Uninitialized} {m m' : Bytes} {base handle : Nat}

theorem pointerSize_pos (target : Target) : 0 < target.pointerSize := by
  cases target <;> decide

theorem thunksAt_congr {a : Nat} {ts : List Thunk} (h : ThunksAt env m a ts)
    (hsame : ∀ k, a ≤ k → k < a + env.target.pointerSize * (ts.length + 1) → m k = m' k) :
    ThunksAt env m' a ts := by
  induction ts generalizing a with
  | nil =>
    unfold ThunksAt at h ⊢
    rw [← h]
    exact (load_congr fun k hk hkn => hsame k hk (by simpa using hkn)).symm
  | cons t ts ih =>
    obtain ⟨hvalue, hnonzero, hrest⟩ := h
    rw [List.length_cons, Nat.mul_succ, Nat.mul_succ] at hsame
    refine ⟨?_, hnonzero, ?_⟩
    · rw [← hvalue]
      exact (load_congr fun k hk hkn => hsame k hk (by omega)).symm
    · apply ih hrest
      intro k hk hkn
      rw [Nat.mul_succ] at hkn
      exact hsame k (by omega) (by omega)

theorem bound_congr {answer : Nat → Thunk → Option Nat} {a : Nat} {ts : List Thunk}
    (h : Bound env answer m a ts)
    (hsame : ∀ k, a ≤ k → k < a + env.target.pointerSize * ts.length → m k = m' k) :
    Bound env answer m' a ts := by
  induction ts generalizing a with
  | nil => trivial
  | cons t ts ih =>
    obtain ⟨hvalue, hrest⟩ := h
    rw [List.length_cons, Nat.mul_succ] at hsame
    refine ⟨?_, ?_⟩
    · rw [hvalue, readLE_congr fun k hk hkn => hsame k hk (by omega)]
    · apply ih hrest
      intro k hk hkn
      exact hsame k (by omega) (by omega)

theorem askedAddress_eq (t : Thunk) {funcRef address : Nat} {status : NtStatus}
    (h : getProcedureAddress env procedureNameAnsi handle t.value funcRef = (status, address)) :
    askedAddress env procedureNameAnsi handle funcRef t =
      if ntSuccess status = true ∧ address % 256 ^ env.target.pointerSize ≠ 0 then
        some (address % 256 ^ env.target.pointerSize)
      else none := by
  unfold getProcedureAddress at h
  unfold askedAddress dllAddress
  split at h
  · next hordinal => rw [if_pos hordinal, h]
  · next hordinal => rw [if_neg hordinal, h]

theorem resolveThunks_step {t : Thunk} {fuel thunkRef funcRef address : Nat}
    {status code : NtStatus}
    (hvalue : load env.mapped m thunkRef env.target.pointerSize = some t.value)
    (hnonzero : t.value ≠ 0)
    (hslot : accessible env.mapped funcRef env.target.pointerSize = true)
    (hcall : getProcedureAddress env procedureNameAnsi handle t.value funcRef = (code, address)) :
    resolveThunks env procedureNameAnsi handle (fuel + 1) status thunkRef funcRef m =
      if !ntSuccess code then some (code, m)
      else if address % 256 ^ env.target.pointerSize = 0 then
        some (statusEntrypointNotFound, writeLE m funcRef env.target.pointerSize address)
      else
        resolveThunks env procedureNameAnsi handle fuel code (thunkRef + env.target.pointerSize)
          (funcRef + env.target.pointerSize)
          (writeLE m funcRef env.target.pointerSize address) := by
  obtain ⟨n, hn⟩ := Nat.exists_eq_succ_of_ne_zero hnonzero
  rw [hn] at hvalue hcall
  simp only [resolveThunks, hvalue, hcall, store, hslot, if_true, readLE_writeLE]

/-- The thunk loop returns, writes to its slots only, and succeeds exactly if
every thunk is answered; then the slots hold the answers. -/
theorem resolveThunks_run (procedureNameAnsi : Uninitialized) (handle : Nat)
    {ts : List Thunk} {fuel thunkRef funcRef : Nat} {status : NtStatus}
    (hts : ThunksAt env m thunkRef ts)
    (hslots : accessible env.mapped funcRef (env.target.pointerSize * ts.length) = true)
    (hapart : thunkRef = funcRef ∨ Apart thunkRef (env.target.pointerSize * (ts.length + 1))
      funcRef (env.target.pointerSize * ts.length))
    (hok : ntSuccess status = true) (hfuel : ts.length < fuel) :
    ∃ status' m',
      resolveThunks env procedureNameAnsi handle fuel status thunkRef funcRef m =
        some (status', m') ∧
      (∀ k, k < funcRef ∨ funcRef + env.target.pointerSize * ts.length ≤ k → m' k = m k) ∧
      (ntSuccess status' = true →
        Bound env (askedAddress env procedureNameAnsi handle) m' funcRef ts) ∧
      (Answered env (askedAddress env procedureNameAnsi handle) funcRef ts →
        ntSuccess status' = true) := by
  induction ts generalizing fuel status thunkRef funcRef m with
  | nil =>
    cases fuel with
    | zero => omega
    | succ fuel =>
      unfold ThunksAt at hts
      refine ⟨status, m, ?_, fun _ _ => rfl, fun _ => trivial, fun _ => hok⟩
      simp only [resolveThunks, hts]
  | cons t ts ih =>
    cases fuel with
    | zero => omega
    | succ fuel =>
      obtain ⟨hvalue, hnonzero, hrest⟩ := hts
      have hpos := pointerSize_pos env.target
      simp only [List.length_cons, Nat.mul_succ] at hslots hapart hfuel ⊢
      rw [Nat.add_comm, accessible_add, Bool.and_eq_true] at hslots
      obtain ⟨hslot, hslots⟩ := hslots
      rcases hcall : getProcedureAddress env procedureNameAnsi handle t.value funcRef with ⟨code, address⟩
      have hasked := askedAddress_eq t hcall
      rw [resolveThunks_step hvalue hnonzero hslot hcall]
      cases hcode : ntSuccess code with
      | false =>
        refine ⟨code, m, rfl, fun _ _ => rfl, by simp [hcode], ?_⟩
        intro hanswered
        simp [Answered, hasked, hcode] at hanswered
      | true =>
        rw [hcode] at hasked
        have houtside : ∀ k, k < funcRef ∨ funcRef + env.target.pointerSize ≤ k →
            writeLE m funcRef env.target.pointerSize address k = m k :=
          fun k hk => writeLE_outside m hk
        by_cases hzero : address % 256 ^ env.target.pointerSize = 0
        · rw [if_neg (by simp), if_pos hzero]
          refine ⟨_, _, rfl, fun k hk => houtside k (by omega), fun h => absurd h (by decide), ?_⟩
          intro hanswered
          simp [Answered, hasked, hzero] at hanswered
        · rw [if_neg (by simp), if_neg hzero]
          -- the write to this slot leaves the thunks that are still to be read
          have hrest' : ThunksAt env (writeLE m funcRef env.target.pointerSize address)
              (thunkRef + env.target.pointerSize) ts := by
            apply thunksAt_congr hrest
            intro k hk hkn
            rw [Nat.mul_succ] at hkn
            unfold Apart at hapart
            exact (houtside k (by omega)).symm
          have hapart' : thunkRef + env.target.pointerSize = funcRef + env.target.pointerSize ∨
              Apart (thunkRef + env.target.pointerSize) (env.target.pointerSize * (ts.length + 1))
                (funcRef + env.target.pointerSize) (env.target.pointerSize * ts.length) := by
            rw [Nat.mul_succ]
            unfold Apart at hapart ⊢
            omega
          have hfuel' : ts.length < fuel := by omega
          obtain ⟨status', m', hrun, hframe, hbound, hanswered⟩ :=
            ih hrest' hslots hapart' hcode hfuel'
          refine ⟨status', m', hrun, ?_, ?_, fun h => hanswered h.2⟩
          · intro k hk
            rw [hframe k (by omega), houtside k (by omega)]
          · intro hstatus
            have hread : readLE m' funcRef env.target.pointerSize =
                address % 256 ^ env.target.pointerSize := by
              rw [← readLE_writeLE m funcRef env.target.pointerSize address]
              apply readLE_congr
              intro k _ hk
              exact hframe k (Or.inl hk)
            refine ⟨?_, hbound hstatus⟩
            rw [hasked, if_pos ⟨rfl, hzero⟩, hread]

theorem bound_iff {answer : Nat → Thunk → Option Nat} {a : Nat} {ts : List Thunk} :
    Bound env answer m a ts ↔ ∀ i (h : i < ts.length),
      answer (a + env.target.pointerSize * i) (ts.get ⟨i, h⟩) =
        some (readLE m (a + env.target.pointerSize * i) env.target.pointerSize) := by
  induction ts generalizing a with
  | nil => exact ⟨fun _ _ h => absurd h (by simp), fun _ => trivial⟩
  | cons t ts ih =>
    have hshift : ∀ i, a + env.target.pointerSize + env.target.pointerSize * i =
        a + env.target.pointerSize * (i + 1) := by
      intro i
      rw [Nat.mul_succ]
      omega
    rw [Bound, ih]
    constructor
    · rintro ⟨hfirst, hrest⟩ i hi
      cases i with
      | zero => exact hfirst
      | succ i =>
        rw [← hshift]
        exact hrest i (by simpa using hi)
    · intro h
      refine ⟨h 0 (by simp), fun i hi => ?_⟩
      rw [hshift]
      exact h (i + 1) (by simpa using hi)

theorem answered_of_forall {answer : Nat → Thunk → Option Nat} {a : Nat} {ts : List Thunk}
    (h : ∀ t ∈ ts, ∀ b, (answer b t).isSome = true) : Answered env answer a ts := by
  induction ts generalizing a with
  | nil => trivial
  | cons t ts ih =>
    exact ⟨h t (by simp) a, ih fun u hu => h u (by simp [hu])⟩

/-- The look-up of a DLL ends the loop with a failure if it has no handle. -/
theorem findDll_cases {address : Nat} {dllName : List UInt8}
    (hname : rtlInitAnsiString env.mapped m address = some dllName) :
    (∃ status handle, findDll env address m = .ok (status, handle) ∧
      ntSuccess status = true ∧ dllHandle env dllName = some handle) ∨
    (∃ status, findDll env address m = .error status ∧
      ntSuccess status = false ∧ dllHandle env dllName = none) := by
  unfold findDll dllHandle
  rcases hconvert : env.helpers.rtlAnsiStringToUnicodeString dllName with ⟨status, unicode⟩
  cases hstatus : ntSuccess status with
  | false => exact .inr ⟨status, by simp [hname, hconvert, hstatus], hstatus, by simp [hstatus]⟩
  | true =>
    rcases hget : env.helpers.ldrGetDllHandle unicode with ⟨code, handle⟩
    cases hcode : ntSuccess code with
    | false =>
      right
      exact ⟨code, by simp [hname, hconvert, hstatus, hget, hcode], hcode,
        by simp [hstatus, hget, hcode]⟩
    | true =>
      by_cases hzero : handle = 0
      · right
        exact ⟨statusDllNotFound, by simp [hname, hconvert, hstatus, hget, hcode, hzero], rfl,
          by simp [hstatus, hget, hzero]⟩
      · left
        exact ⟨code, handle, by simp [hname, hconvert, hstatus, hget, hcode, hzero], hcode,
          by simp [hstatus, hget, hcode, hzero]⟩

theorem importAt_congr {importDesc : Nat} {d : Import} (h : ImportAt env m base importDesc d)
    (hdescriptor : ∀ k, importDesc ≤ k → k < importDesc + 20 → m k = m' k)
    (hname : ∀ k, base + d.name ≤ k → k < base + d.name + (d.dllName.length + 1) → m k = m' k)
    (hlookup : ∀ k, d.lookup base ≤ k →
      k < d.lookup base + env.target.pointerSize * (d.thunks.length + 1) → m k = m' k) :
    ImportAt env m' base importDesc d where
  name := by
    rw [← h.name]
    exact (load_congr fun k hk hkn => hdescriptor k (by omega) (by omega)).symm
  named := h.named
  dllName := loadString_congr h.dllName hname
  originalFirstThunk := by
    rw [← h.originalFirstThunk]
    exact (load_congr fun k hk hkn => hdescriptor k (by omega) (by omega)).symm
  firstThunk := by
    rw [← h.firstThunk]
    exact (load_congr fun k hk hkn => hdescriptor k (by omega) (by omega)).symm
  thunks := thunksAt_congr h.thunks hlookup
  slots := h.slots

/-- Every DLL is there, and its slots hold what `answer` gives. -/
def AllBound (env : Environment) (answer : Nat → Nat → Thunk → Option Nat) (m : Bytes)
    (base : Nat) (imports : List Import) : Prop :=
  ∀ d ∈ imports, ∃ handle, dllHandle env d.dllName = some handle ∧
    Bound env (answer handle) m (d.slots base) d.thunks

def AllAnswered (env : Environment) (answer : Nat → Nat → Thunk → Option Nat)
    (base : Nat) (imports : List Import) : Prop :=
  ∀ d ∈ imports, ∃ handle, dllHandle env d.dllName = some handle ∧
    Answered env (answer handle) (d.slots base) d.thunks

/-- The writes to the slots of one descriptor leave the rest of the directory. -/
theorem directoryAt_congr {importDesc start size : Nat} {ds : List Import}
    (h : DirectoryAt env m base importDesc ds)
    (hsame : ∀ k, k < start ∨ start + size ≤ k → m' k = m k)
    (htable : Apart start size importDesc (20 * (ds.length + 1)))
    (happart : ∀ e ∈ ds, Apart start size (base + e.name) (e.dllName.length + 1) ∧
      Apart start size (e.lookup base) (env.target.pointerSize * (e.thunks.length + 1))) :
    DirectoryAt env m' base importDesc ds := by
  unfold Apart at htable
  induction ds generalizing importDesc with
  | nil =>
    unfold DirectoryAt at h ⊢
    rw [← h]
    apply load_congr
    intro k hk hkn
    exact hsame k (by rw [List.length_nil] at htable; omega)
  | cons d ds ih =>
    obtain ⟨hfirst, hrest⟩ := h
    obtain ⟨hname, hlookup⟩ := happart d (by simp)
    unfold Apart at hname hlookup
    rw [List.length_cons] at htable
    constructor
    · apply importAt_congr hfirst
      · intro k hk hkn
        exact (hsame k (by omega)).symm
      · intro k hk hkn
        exact (hsame k (by omega)).symm
      · intro k hk hkn
        exact (hsame k (by omega)).symm
    · apply ih hrest
      · omega
      · exact fun e he => happart e (by simp [he])

theorem resolveDescriptors_step {d : Import} {fuel importDesc : Nat} {status : NtStatus}
    (h : ImportAt env m base importDesc d) :
    resolveDescriptors env procedureNameAnsi base (fuel + 1) status importDesc m =
      match findDll env (base + d.name) m with
      | .error status => some (status, m)
      | .ok (status, handle) =>
        match resolveThunks env procedureNameAnsi handle fuel status (d.lookup base)
          (d.slots base) m with
        | none => none
        | some (status, m) =>
          if !ntSuccess status then some (status, m)
          else resolveDescriptors env procedureNameAnsi base fuel status (importDesc + 20) m := by
  have hname := h.name
  obtain ⟨n, hn⟩ := Nat.exists_eq_succ_of_ne_zero h.named
  rw [hn] at hname
  simp only [resolveDescriptors, hname, h.originalFirstThunk, h.firstThunk]
  rw [hn]
  rfl

/-- The descriptor loop returns, writes to the slots only, and succeeds exactly
if every DLL has a handle and every thunk is answered. -/
theorem resolveDescriptors_run (procedureNameAnsi : Uninitialized)
    {ds : List Import} {fuel importDesc : Nat} {status : NtStatus}
    (h : DirectoryAt env m base importDesc ds) (hseparate : Separate env base importDesc ds)
    (hok : ntSuccess status = true) (hfuel : ds.length < fuel)
    (hthunks : ∀ d ∈ ds, ds.length + d.thunks.length < fuel) :
    ∃ status' m',
      resolveDescriptors env procedureNameAnsi base fuel status importDesc m =
        some (status', m') ∧
      (∀ k, (∀ d ∈ ds, k < d.slots base ∨
        d.slots base + env.target.pointerSize * d.thunks.length ≤ k) → m' k = m k) ∧
      (ntSuccess status' = true → AllBound env (askedAddress env procedureNameAnsi) m' base ds) ∧
      (AllAnswered env (askedAddress env procedureNameAnsi) base ds →
        ntSuccess status' = true) := by
  induction ds generalizing fuel status importDesc m with
  | nil =>
    cases fuel with
    | zero => omega
    | succ fuel =>
      unfold DirectoryAt at h
      refine ⟨status, m, ?_, fun _ _ => rfl, fun _ _ hd => absurd hd (by simp), fun _ => hok⟩
      simp only [resolveDescriptors, h]
  | cons d ds ih =>
    cases fuel with
    | zero => omega
    | succ fuel =>
      obtain ⟨hfirst, hrest⟩ := h
      obtain ⟨hown, htable, hlater, hseparate⟩ := hseparate
      rw [List.length_cons] at hfuel
      rw [resolveDescriptors_step hfirst]
      rcases findDll_cases hfirst.dllName with
        ⟨code, handle, hfind, hcode, hhandle⟩ | ⟨code, hfind, hcode, hnone⟩
      · have hfuel' : d.thunks.length < fuel := by
          have := hthunks d (by simp)
          rw [List.length_cons] at this
          omega
        obtain ⟨status₁, m₁, hrun₁, hframe₁, hbound₁, hanswered₁⟩ :=
          resolveThunks_run procedureNameAnsi handle hfirst.thunks hfirst.slots hown hcode hfuel'
        simp only [hfind, hrun₁]
        cases hstatus₁ : ntSuccess status₁ with
        | false =>
          refine ⟨status₁, m₁, by simp, fun k hk => hframe₁ k (hk d (by simp)),
            by simp [hstatus₁], ?_⟩
          intro hanswered
          obtain ⟨handle', hhandle', hfirst'⟩ := hanswered d (by simp)
          cases hhandle.symm.trans hhandle'
          rw [hanswered₁ hfirst'] at hstatus₁
          cases hstatus₁
        | true =>
          have hrest₁ : DirectoryAt env m₁ base (importDesc + 20) ds := by
            apply directoryAt_congr hrest hframe₁ htable
            exact fun e he => ⟨(hlater e he).1, (hlater e he).2.1⟩
          have hthunks₁ : ∀ e ∈ ds, ds.length + e.thunks.length < fuel := by
            intro e he
            have := hthunks e (by simp [he])
            rw [List.length_cons] at this
            omega
          have hfuel₁ : ds.length < fuel := by omega
          obtain ⟨status', m', hrun, hframe, hbound, hanswered⟩ :=
            ih hrest₁ hseparate hstatus₁ hfuel₁ hthunks₁
          refine ⟨status', m', by simpa using hrun, ?_, ?_, ?_⟩
          · intro k hk
            rw [hframe k fun e he => hk e (by simp [he]), hframe₁ k (hk d (by simp))]
          · intro hstatus' e he
            rcases List.mem_cons.mp he with rfl | he
            · refine ⟨handle, hhandle, bound_congr (hbound₁ hstatus₁) ?_⟩
              intro k hk hkn
              apply (hframe k ?_).symm
              intro later hlater'
              have := (hlater later hlater').2.2
              unfold Apart at this
              omega
            · exact hbound hstatus' e he
          · exact fun hall => hanswered fun e he => hall e (by simp [he])
      · refine ⟨code, m, by simp only [hfind], fun _ _ => rfl, by simp [hcode], ?_⟩
        intro hanswered
        obtain ⟨_, hhandle, _⟩ := hanswered d (by simp)
        rw [hnone] at hhandle
        cases hhandle

end WinPolyfillLoader.ImportTable
