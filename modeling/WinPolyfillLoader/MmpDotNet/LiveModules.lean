import WinPolyfillLoader.Loader.LoaderList
import WinPolyfillLoader.MmpDotNet.ClosedHandles

/-!
What the fake handles name. The list keeps the LDR entry of a module that an unload may
free meanwhile, and for an image view its base in place of an LDR entry. An entry for a
view is one whose handle is its value.
-/

namespace WinPolyfillLoader.MmpDotNet

open Loader LdrEntry

variable {δ ι τ ρ : Type}

/-- The argument that a hook looks up to read the LDR entry. -/
def readHandle : Call → Option Nat
  | .getFileInformationByHandle hFile => some hFile
  | .getFileSize hFile => some hFile
  | .getFileSizeEx hFile => some hFile
  | .createFileMapping hFile _ _ _ => some hFile
  | .mapViewOfFile hFileMappingObject _ => some hFileMappingObject
  | _ => none

/-- Every entry that is not for a view names an entry of the loader list. -/
def NamesModules (D : DotNetHelpers δ ι τ ρ) (s : DotNetProcess δ ι τ ρ) : Prop :=
  ∀ x ∈ s.fakeHandleList, x.hObject ≠ x.value →
    x.value ∈ D.inLoadOrderModuleList s.process.database

/-- The hook is not called for a view. -/
def ReadsNoView (s : DotNetProcess δ ι τ ρ) (call : Call) : Prop :=
  ∀ hObject x, readHandle call = some hObject → mmpFindHandleEntry s hObject = some x →
    x.hObject ≠ x.value

/-- An unload frees no LDR entry that a fake handle names. -/
def FreesNoNamed (D : DotNetHelpers δ ι τ ρ) (releasedWith : δ → Nat → List Nat)
    (s : DotNetProcess δ ι τ ρ) (call : Call) : Prop :=
  ∀ base entry, call = .unloadDllMemory base →
    freedEntry D.toHelpers base s.process = some entry →
      ∀ x ∈ s.fakeHandleList, x.hObject ≠ x.value →
        x.value ≠ entry ∧ x.value ∉ releasedWith s.process.database entry

structure LiveGuard (D : DotNetHelpers δ ι τ ρ) (releasedWith : δ → Nat → List Nat)
    (s : DotNetProcess δ ι τ ρ) (call : Call) : Prop where
  returns : (returned D s call).isSome
  reads : ReadsNoView s call
  frees : FreesNoNamed D releasedWith s call

section Steps

variable {D : DotNetHelpers δ ι τ ρ} {releasedWith : δ → Nat → List Nat}
  {s s' : DotNetProcess δ ι τ ρ}

theorem mmpIsMemoryModuleFileName_mem {lpFileName : List Wchar} {p : Process δ ι τ ρ} {entry : Nat}
    (h : mmpIsMemoryModuleFileName D lpFileName p = some entry) :
    entry ∈ D.inLoadOrderModuleList p.database := by
  unfold mmpIsMemoryModuleFileName at h
  split at h
  · cases h
  next hfind =>
    split at h
    · cases h
      exact List.mem_of_find?_eq_some hfind
    · cases h

theorem namesModules_insert (h : NamesModules D s) {entry : FakeHandleEntry}
    (hlist : s'.fakeHandleList = s.fakeHandleList ++ [entry])
    (hdatabase : s'.process.database = s.process.database)
    (hentry : entry.hObject ≠ entry.value →
      entry.value ∈ D.inLoadOrderModuleList s.process.database) : NamesModules D s' := by
  intro x hx hview
  rw [hlist] at hx
  rw [hdatabase]
  rcases List.mem_append.mp hx with hx | hx
  · exact h x hx hview
  · rw [List.mem_singleton.mp hx] at hview ⊢
    exact hentry hview

theorem namesModules_subset (h : NamesModules D s)
    (hlist : ∀ x ∈ s'.fakeHandleList, x ∈ s.fakeHandleList)
    (hdatabase : s'.process.database = s.process.database) : NamesModules D s' := by
  intro x hx hview
  rw [hdatabase]
  exact h x (hlist x hx) hview

theorem mapImageView_database (base : Nat) (p : Process δ ι τ ρ) :
    (mapImageView D base p).2.database = p.database := by
  unfold mapImageView
  dsimp only
  split <;> rfl

theorem hookCreateFileW_names {lpFileName : List Wchar} {hEvent : Nat} {allocated : Bool}
    {answer : Answer Nat} (h : NamesModules D s)
    (hrun : hookCreateFileW D lpFileName hEvent allocated s = some (answer, s')) :
    NamesModules D s' := by
  unfold hookCreateFileW at hrun
  split at hrun
  next entry hname =>
    obtain ⟨s₁, hinsert, heq⟩ := Option.map_eq_some_iff.mp hrun
    cases heq
    rw [mmpInsertHandleEntry_some hinsert]
    exact namesModules_insert h rfl rfl fun _ => mmpIsMemoryModuleFileName_mem hname
  next =>
    cases hrun
    exact h

theorem hookCreateFileMappingW_names {hFile hEvent : Nat} {flProtect : Dword} {allocated : Bool}
    {answer : Answer Nat} (h : NamesModules D s)
    (hread : ∀ x, mmpFindHandleEntry s hFile = some x → x.hObject ≠ x.value)
    (hrun : hookCreateFileMappingW hFile flProtect hEvent allocated s = some (answer, s')) :
    NamesModules D s' := by
  unfold hookCreateFileMappingW at hrun
  split at hrun
  next iter hfind =>
    obtain ⟨s₁, hinsert, heq⟩ := Option.map_eq_some_iff.mp hrun
    cases heq
    rw [mmpInsertHandleEntry_some hinsert]
    have hvalue : iter.value ∈ D.inLoadOrderModuleList s.process.database :=
      h iter (mmpFindHandleEntry_some hfind).1 (hread iter hfind)
    exact namesModules_insert h rfl rfl fun _ => hvalue
  next =>
    cases hrun
    exact h

theorem hookMapViewOfFileEx_names {hFileMappingObject : Nat} {allocated : Bool}
    {answer : Answer Nat} (h : NamesModules D s)
    (hrun : hookMapViewOfFileEx D hFileMappingObject allocated s = some (answer, s')) :
    NamesModules D s' := by
  unfold hookMapViewOfFileEx at hrun
  split at hrun
  next =>
    cases hrun
    exact h
  next iter hfind =>
    split at hrun
    next =>
      cases hrun
      exact h
    next base hmodule =>
      have hdatabase := mapImageView_database (D := D) base s.process
      split at hrun
      next =>
        dsimp only at hrun
        split at hrun
        next hnull =>
          obtain ⟨s₁, hinsert, heq⟩ := Option.map_eq_some_iff.mp hrun
          cases heq
          rw [mmpInsertHandleEntry_some hinsert]
          exact namesModules_insert h rfl hdatabase fun hview => absurd rfl hview
        next =>
          cases hrun
          exact namesModules_subset h (fun _ hx => hx) hdatabase
      next =>
        cases hrun
        exact h

theorem namesModules_step (laws : D.EntryLaws) (keeps : D.KeepsEntries releasedWith) {call : Call}
    (h : NamesModules D s) (hguard : LiveGuard D releasedWith s call) :
    NamesModules D (callStep D s call) := by
  obtain ⟨s', hs'⟩ := Option.isSome_iff_exists.mp hguard.returns
  rw [callStep_returned hs']
  cases call with
  | createFile lpFileName hEvent allocated =>
    obtain ⟨⟨answer, s₁⟩, hrun, rfl⟩ := Option.map_eq_some_iff.mp hs'
    exact hookCreateFileW_names h hrun
  | createFileMapping hFile flProtect hEvent allocated =>
    obtain ⟨⟨answer, s₁⟩, hrun, rfl⟩ := Option.map_eq_some_iff.mp hs'
    exact hookCreateFileMappingW_names h (fun x hfind => hguard.reads hFile x rfl hfind) hrun
  | mapViewOfFile hFileMappingObject allocated =>
    obtain ⟨⟨answer, s₁⟩, hrun, rfl⟩ := Option.map_eq_some_iff.mp hs'
    exact hookMapViewOfFileEx_names h hrun
  | getFileInformationByHandle hFile =>
    obtain ⟨_, -, rfl⟩ := Option.map_eq_some_iff.mp hs'
    exact h
  | getFileSize hFile =>
    obtain ⟨_, -, rfl⟩ := Option.map_eq_some_iff.mp hs'
    exact h
  | getFileSizeEx hFile =>
    obtain ⟨_, -, rfl⟩ := Option.map_eq_some_iff.mp hs'
    exact h
  | unmapViewOfFile lpBaseAddress =>
    cases hs'
    unfold hookUnmapViewOfFile
    split
    next iter hfind =>
      have hdatabase := freeLibrary_database (H := D.toHelpers) lpBaseAddress s.process
      exact namesModules_subset h
        (fun x (hx : x ∈ s.fakeHandleList.erase iter) => List.mem_of_mem_erase hx) hdatabase
    next => exact h
  | closeHandle hObject =>
    cases hs'
    unfold hookCloseHandle
    split
    next iter hfind =>
      exact namesModules_subset h
        (fun x (hx : x ∈ s.fakeHandleList.erase iter) => List.mem_of_mem_erase hx) rfl
    next => exact h
  | loadDllMemory request =>
    rw [returned] at hs'
    split at hs'
    next result hload =>
      cases hs'
      intro x hx hview
      exact ldrLoadDllMemoryExW_keeps laws keeps hload (h x hx hview)
    next => cases hs'
  | unloadDllMemory base =>
    rw [returned] at hs'
    split at hs'
    next status p hunload =>
      cases hs'
      intro x hx hview
      apply ldrUnloadDllMemory_keeps keeps hunload (h x hx hview)
      intro entry hfreed
      exact hguard.frees base entry rfl hfreed x hx hview
    next => cases hs'

end Steps

/-- As long as no hook reads a view and no unload frees what a fake handle names: an entry
that a hook finds for its argument names an entry of the loader list. -/
theorem fakeHandles_name_live_modules (D : DotNetHelpers δ ι τ ρ) (laws : D.EntryLaws)
    {releasedWith : δ → Nat → List Nat} (keeps : D.KeepsEntries releasedWith)
    (start : DotNetProcess δ ι τ ρ) (hstart : NamesModules D start) (calls : List Call)
    (hcalls : Runs.Admissible (callStep D) (LiveGuard D releasedWith) start calls) (call : Call)
    (hcall : ReadsNoView (calls.foldl (callStep D) start) call) (hObject : Nat)
    (x : FakeHandleEntry) (hread : readHandle call = some hObject)
    (hfind : mmpFindHandleEntry (calls.foldl (callStep D) start) hObject = some x) :
    x.value ∈ D.inLoadOrderModuleList (calls.foldl (callStep D) start).process.database := by
  have hstep : ∀ s call, NamesModules D s → LiveGuard D releasedWith s call →
      NamesModules D (callStep D s call) :=
    fun s call h hguard => namesModules_step laws keeps h hguard
  have hnames := Runs.invariant hstep hstart hcalls
  exact hnames x (mmpFindHandleEntry_some hfind).1 (hcall hObject x hread hfind)

/-- In the process of stacks a free takes the entry on top out. -/
def topEntry (entries : List StackProcess.StackEntry) (_ : Nat) : List Nat :=
  (entries.map (·.address)).take 1

theorem stackDotNet_keeps : stackDotNet.KeepsEntries topEntry where
  recount_keeps := fun entry flag d =>
    ((StackProcess.stackHelpers_lawful stackImage statusSuccess).update_entries entry flag d).1
  map_keeps := by
    intro _ _ _ _ _ entries _ _ _ h e he
    cases h
    exact List.mem_cons_of_mem _ he
  free_keeps := by
    intro _ entries _ _ h e he _ hreleased
    cases h
    cases entries with
    | nil => exact he
    | cons top rest =>
      rcases List.mem_cons.mp he with heq | he
      · exact absurd (heq ▸ List.mem_cons_self) hreleased
      · exact he

/-- Another memory module, named `b`. -/
def otherRequest : LoadRequest := ⟨0, 0x8000, 0, some [0x62], some [0x63], 0, 0⟩

/-- The module is opened, another one is loaded and unloaded again, and then the first is mapped
and its size is asked for. -/
theorem fakeHandles_name_live_modules_opened :
    let calls := [Call.createFile [0x61] 0x10 true, .loadDllMemory otherRequest,
      .unloadDllMemory 0x20000, .createFileMapping 0x10 0x02 0x14 true]
    0x100 ∈ stackDotNet.inLoadOrderModuleList
      (calls.foldl (callStep stackDotNet) oneModule).process.database := by
  intro calls
  have hstart : NamesModules stackDotNet oneModule := fun x hx => nomatch hx
  let opened := callStep stackDotNet oneModule (.createFile [0x61] 0x10 true)
  let loaded := callStep stackDotNet opened (.loadDllMemory otherRequest)
  let unloaded := callStep stackDotNet loaded (.unloadDllMemory 0x20000)
  have hfile : LiveGuard stackDotNet topEntry oneModule (.createFile [0x61] 0x10 true) :=
    ⟨rfl, (fun _ _ h => nomatch h), (fun _ _ h => nomatch h)⟩
  have hload : LiveGuard stackDotNet topEntry opened (.loadDllMemory otherRequest) :=
    ⟨by decide +kernel, (fun _ _ h => nomatch h), (fun _ _ h => nomatch h)⟩
  have hunload : LiveGuard stackDotNet topEntry loaded (.unloadDllMemory 0x20000) := by
    have hfree : freedEntry stackDotNet.toHelpers 0x20000 loaded.process = some 0x101 := by
      decide +kernel
    have hlist : loaded.fakeHandleList = [⟨0x10, 0x100, false⟩] := by decide +kernel
    refine ⟨by decide +kernel, (fun _ _ h => nomatch h), ?_⟩
    rintro _ entry ⟨⟩ hfreed x hx -
    rw [hlist, List.mem_singleton] at hx
    rw [hfree] at hfreed
    cases hfreed
    rw [hx]
    decide +kernel
  have hmapping : LiveGuard stackDotNet topEntry unloaded
      (.createFileMapping 0x10 0x02 0x14 true) := by
    refine ⟨by decide +kernel, ?_, (fun _ _ h => nomatch h)⟩
    have hfind : mmpFindHandleEntry unloaded 0x10 = some ⟨0x10, 0x100, false⟩ := by decide +kernel
    rintro _ x ⟨⟩ hx
    rw [hfind] at hx
    cases hx
    decide
  have hfound : mmpFindHandleEntry (calls.foldl (callStep stackDotNet) oneModule) 0x14 =
      some ⟨0x14, 0x100, false⟩ := by decide +kernel
  have hsize : ReadsNoView (calls.foldl (callStep stackDotNet) oneModule) (.getFileSize 0x14) := by
    rintro _ x ⟨⟩ hx
    rw [hfound] at hx
    cases hx
    decide
  exact fakeHandles_name_live_modules stackDotNet
    (StackProcess.stackHelpers_lawful stackImage statusSuccess).toEntryLaws stackDotNet_keeps
    oneModule hstart calls ⟨hfile, hload, hunload, hmapping, trivial⟩ (.getFileSize 0x14) hsize
    0x14 ⟨0x14, 0x100, false⟩ rfl hfound

/-- The module is opened and unloaded: the event still names its LDR entry. -/
theorem fakeHandles_name_dead_module :
    let s := [Call.createFile [0x61] 0x10 true, .unloadDllMemory 0x10000].foldl
      (callStep stackDotNet) oneModule
    mmpFindHandleEntry s 0x10 = some ⟨0x10, 0x100, false⟩ ∧
      0x100 ∉ stackDotNet.inLoadOrderModuleList s.process.database := by
  intro s
  exact ⟨by decide +kernel, by decide +kernel⟩

end WinPolyfillLoader.MmpDotNet
