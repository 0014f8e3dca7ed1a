import WinPolyfillLoader.Loader.Rollback
import WinPolyfillLoader.MmpDotNet.FakeHandles

/-!
What the hooks open and close. A run keeps the values that were returned on a
memory-module branch and not closed since; the list holds an entry for each of them,
behind what it held at the start. The buffer that stands for a view of a mapping that
is not an image has no entry.
-/

namespace WinPolyfillLoader.MmpDotNet

open Loader LdrEntry

variable {δ ι τ ρ : Type}

/-- The value of a memory-module branch, unless it is null. -/
def fakeValue : Option (Answer Nat × DotNetProcess δ ι τ ρ) → Option Nat
  | some (.fake value, _) => if value = 0 then none else some value
  | _ => none

def openedValue (D : DotNetHelpers δ ι τ ρ) (s : DotNetProcess δ ι τ ρ) : Call → Option Nat
  | .createFile lpFileName hEvent allocated =>
      fakeValue (hookCreateFileW D lpFileName hEvent allocated s)
  | .createFileMapping hFile flProtect hEvent allocated =>
      fakeValue (hookCreateFileMappingW hFile flProtect hEvent allocated s)
  | .mapViewOfFile hFileMappingObject allocated =>
      fakeValue (hookMapViewOfFileEx D hFileMappingObject allocated s)
  | _ => none

def closedValue : Call → Option Nat
  | .unmapViewOfFile lpBaseAddress => some lpBaseAddress
  | .closeHandle hObject => some hObject
  | _ => none

/-- A run beside the values that are open: each call that closes a value matches the
call that opened it. -/
structure Tracked (δ ι τ ρ : Type) where
  current : DotNetProcess δ ι τ ρ
  opened : List Nat

def trackedStep (D : DotNetHelpers δ ι τ ρ) (t : Tracked δ ι τ ρ) (call : Call) :
    Tracked δ ι τ ρ where
  current := callStep D t.current call
  opened :=
    match closedValue call with
    | some value => t.opened.erase value
    | none => t.opened ++ (openedValue D t.current call).toList

/-- The event that a call creates on its memory-module branch. -/
def createdEvent (D : DotNetHelpers δ ι τ ρ) (s : DotNetProcess δ ι τ ρ) : Call → Option Nat
  | .createFile lpFileName hEvent _ =>
      (mmpIsMemoryModuleFileName D lpFileName s.process).map fun _ => hEvent
  | .createFileMapping hFile _ hEvent _ => (mmpFindHandleEntry s hFile).map fun _ => hEvent
  | _ => none

/-- The call returns, and an event that it creates is a fresh handle. -/
structure FreshEvents (D : DotNetHelpers δ ι τ ρ) (s : DotNetProcess δ ι τ ρ) (call : Call) :
    Prop where
  returns : (returned D s call).isSome
  created : ∀ hEvent, createdEvent D s call = some hEvent → hEvent ≠ 0 ∧ hEvent ∉ fakeHandles s

/-- The mapping and the module that a call maps a view of. -/
def mappedView (D : DotNetHelpers δ ι τ ρ) (s : DotNetProcess δ ι τ ρ) :
    Call → Option (FakeHandleEntry × Nat)
  | .mapViewOfFile hFileMappingObject _ =>
    match mmpFindHandleEntry s hFileMappingObject with
    | none => none
    | some iter => (mappedModule D iter.value s.process).map fun base => (iter, base)
  | _ => none

/-- Views are of image mappings, and the base of a new view is not in the list. -/
def OnlyImageViews (D : DotNetHelpers δ ι τ ρ) (s : DotNetProcess δ ι τ ρ) (call : Call) : Prop :=
  ∀ iter base, mappedView D s call = some (iter, base) →
    if iter.bImageMapping then (mapImageView D base s.process).1 ∉ fakeHandles s
    else D.lpReserved s.process.regions base = 0

section Steps

variable {D : DotNetHelpers δ ι τ ρ} {s : DotNetProcess δ ι τ ρ} {call : Call}

theorem callStep_returned {s' : DotNetProcess δ ι τ ρ} (h : returned D s call = some s') :
    callStep D s call = s' := by
  rw [callStep, h]
  rfl

theorem callStep_closes {value : Nat} (hcall : closedValue call = some value) :
    (callStep D s call).fakeHandleList =
      match mmpFindHandleEntry s value with
      | some iter => s.fakeHandleList.erase iter
      | none => s.fakeHandleList := by
  cases call with
  | unmapViewOfFile lpBaseAddress =>
    cases hcall
    rw [callStep_returned (by rfl), hookUnmapViewOfFile]
    cases mmpFindHandleEntry s value <;> rfl
  | closeHandle hObject =>
    cases hcall
    rw [callStep_returned (by rfl), hookCloseHandle]
    cases mmpFindHandleEntry s value <;> rfl
  | createFile _ _ _ => cases hcall
  | getFileInformationByHandle _ => cases hcall
  | getFileSize _ => cases hcall
  | getFileSizeEx _ => cases hcall
  | createFileMapping _ _ _ _ => cases hcall
  | mapViewOfFile _ _ => cases hcall
  | loadDllMemory _ => cases hcall
  | unloadDllMemory _ => cases hcall

/-- The list after a call that does not close: it has a new entry for the value that the
call opens. -/
structure Opens (D : DotNetHelpers δ ι τ ρ) (s : DotNetProcess δ ι τ ρ) (call : Call)
    (new : List FakeHandleEntry) : Prop where
  list : (callStep D s call).fakeHandleList = s.fakeHandleList ++ new
  handles : new.map (·.hObject) = (openedValue D s call).toList
  fresh : ∀ value ∈ new.map (·.hObject), value ∉ fakeHandles s

theorem opens_nothing (hlist : (callStep D s call).fakeHandleList = s.fakeHandleList)
    (hopened : openedValue D s call = none) : Opens D s call [] := by
  refine ⟨by rw [hlist, List.append_nil], by rw [hopened]; rfl, ?_⟩
  intro value hvalue
  cases hvalue

theorem opens_one {entry : FakeHandleEntry}
    (hlist : (callStep D s call).fakeHandleList = s.fakeHandleList ++ [entry])
    (hopened : openedValue D s call = some entry.hObject)
    (hfresh : entry.hObject ∉ fakeHandles s) : Opens D s call [entry] := by
  refine ⟨hlist, by rw [hopened]; rfl, ?_⟩
  intro value hvalue
  rw [List.map_singleton, List.mem_singleton] at hvalue
  rw [hvalue]
  exact hfresh

theorem callStep_loader (hcall : (∃ request, call = .loadDllMemory request) ∨
    ∃ base, call = .unloadDllMemory base) :
    (callStep D s call).fakeHandleList = s.fakeHandleList := by
  rcases hcall with ⟨request, rfl⟩ | ⟨base, rfl⟩
  · rw [callStep, returned]
    cases ldrLoadDllMemoryExW D.toHelpers request s.process <;> rfl
  · rw [callStep, returned]
    rcases ldrUnloadDllMemory D.toHelpers base s.process with fault | ⟨status, p⟩ <;> rfl

theorem mapViewOfFile_opens {hFileMappingObject : Nat} {allocated : Bool}
    (hfresh : FreshEvents D s (.mapViewOfFile hFileMappingObject allocated))
    (hviews : OnlyImageViews D s (.mapViewOfFile hFileMappingObject allocated)) :
    ∃ new, Opens D s (.mapViewOfFile hFileMappingObject allocated) new := by
  have hreturns := hfresh.returns
  cases hfind : mmpFindHandleEntry s hFileMappingObject with
  | none =>
    refine ⟨[], opens_nothing ?_ ?_⟩
    · simp [callStep, returned, hookMapViewOfFileEx, hfind]
    · simp [openedValue, hookMapViewOfFileEx, hfind, fakeValue]
  | some iter =>
    cases hmodule : mappedModule D iter.value s.process with
    | none =>
      refine ⟨[], opens_nothing ?_ ?_⟩
      · simp [callStep, returned, hookMapViewOfFileEx, hfind, hmodule]
      · simp [openedValue, hookMapViewOfFileEx, hfind, hmodule, fakeValue]
    | some base =>
      have hview := hviews iter base (by simp [mappedView, hfind, hmodule])
      cases himage : iter.bImageMapping with
      | false =>
        rw [himage] at hview
        have hnull : D.lpReserved s.process.regions base = 0 := hview
        refine ⟨[], opens_nothing ?_ ?_⟩
        · simp [callStep, returned, hookMapViewOfFileEx, hfind, hmodule, himage]
        · simp [openedValue, hookMapViewOfFileEx, hfind, hmodule, himage, fakeValue, hnull]
      | true =>
        rw [himage, if_pos rfl] at hview
        rcases hmap : mapImageView D base s.process with ⟨hModule, p⟩
        rw [hmap] at hview
        rcases eq_or_ne hModule 0 with rfl | hnull
        · refine ⟨[], opens_nothing ?_ ?_⟩
          · simp [callStep, returned, hookMapViewOfFileEx, hfind, hmodule, himage, hmap]
          · simp [openedValue, hookMapViewOfFileEx, hfind, hmodule, himage, hmap, fakeValue]
        · cases allocated with
          | false =>
            simp [returned, hookMapViewOfFileEx, hfind, hmodule, himage, hmap, hnull,
              mmpInsertHandleEntry] at hreturns
          | true =>
            refine ⟨[⟨hModule, hModule, false⟩], opens_one ?_ ?_ hview⟩
            · simp [callStep, returned, hookMapViewOfFileEx, hfind, hmodule, himage, hmap, hnull,
                mmpInsertHandleEntry]
            · simp [openedValue, hookMapViewOfFileEx, hfind, hmodule, himage, hmap, hnull,
                mmpInsertHandleEntry, fakeValue]

theorem callStep_opens (hcall : closedValue call = none) (hfresh : FreshEvents D s call)
    (hviews : OnlyImageViews D s call) : ∃ new, Opens D s call new := by
  have hreturns := hfresh.returns
  cases call with
  | createFile lpFileName hEvent allocated =>
    cases hname : mmpIsMemoryModuleFileName D lpFileName s.process with
    | none =>
      refine ⟨[], opens_nothing ?_ ?_⟩
      · simp [callStep, returned, hookCreateFileW, hname]
      · simp [openedValue, hookCreateFileW, hname, fakeValue]
    | some entry =>
      obtain ⟨hnull, hnew⟩ := hfresh.created hEvent (by rw [createdEvent, hname]; rfl)
      cases allocated with
      | false => simp [returned, hookCreateFileW, hname, mmpInsertHandleEntry] at hreturns
      | true =>
        refine ⟨[⟨hEvent, entry, false⟩], opens_one ?_ ?_ hnew⟩
        · simp [callStep, returned, hookCreateFileW, hname, mmpInsertHandleEntry]
        · simp [openedValue, hookCreateFileW, hname, mmpInsertHandleEntry, fakeValue, hnull]
  | createFileMapping hFile flProtect hEvent allocated =>
    cases hfind : mmpFindHandleEntry s hFile with
    | none =>
      refine ⟨[], opens_nothing ?_ ?_⟩
      · simp [callStep, returned, hookCreateFileMappingW, hfind]
      · simp [openedValue, hookCreateFileMappingW, hfind, fakeValue]
    | some iter =>
      obtain ⟨hnull, hnew⟩ := hfresh.created hEvent (by rw [createdEvent, hfind]; rfl)
      cases allocated with
      | false => simp [returned, hookCreateFileMappingW, hfind, mmpInsertHandleEntry] at hreturns
      | true =>
        refine ⟨[⟨hEvent, iter.value, flProtect &&& secImage != 0⟩], opens_one ?_ ?_ hnew⟩
        · simp [callStep, returned, hookCreateFileMappingW, hfind, mmpInsertHandleEntry]
        · simp [openedValue, hookCreateFileMappingW, hfind, mmpInsertHandleEntry, fakeValue, hnull]
  | mapViewOfFile hFileMappingObject allocated => exact mapViewOfFile_opens hfresh hviews
  | getFileInformationByHandle hFile =>
    refine ⟨[], opens_nothing ?_ rfl⟩
    rw [callStep, returned]
    cases hookGetFileInformationByHandle D hFile s <;> rfl
  | getFileSize hFile =>
    refine ⟨[], opens_nothing ?_ rfl⟩
    rw [callStep, returned]
    cases hookGetFileSize D hFile s <;> rfl
  | getFileSizeEx hFile =>
    refine ⟨[], opens_nothing ?_ rfl⟩
    rw [callStep, returned]
    cases hookGetFileSizeEx D hFile s <;> rfl
  | loadDllMemory request =>
    exact ⟨[], opens_nothing (callStep_loader (Or.inl ⟨request, rfl⟩)) rfl⟩
  | unloadDllMemory base =>
    exact ⟨[], opens_nothing (callStep_loader (Or.inr ⟨base, rfl⟩)) rfl⟩
  | unmapViewOfFile lpBaseAddress => cases hcall
  | closeHandle hObject => cases hcall

end Steps

/-- The list is that of the start, less what was closed of it, and an entry for each value
that is open. -/
structure Tracks (rest : List FakeHandleEntry) (t : Tracked δ ι τ ρ) : Prop where
  entries : ∃ mine, t.current.fakeHandleList = rest ++ mine ∧ mine.map (·.hObject) = t.opened
  nodup : t.opened.Nodup
  apart : ∀ value ∈ t.opened, value ∉ rest.map (·.hObject)

/-- An open value is found, and its entry is the only one with it. -/
theorem Tracks.found {rest : List FakeHandleEntry} {t : Tracked δ ι τ ρ} (h : Tracks rest t)
    {value : Nat} (hvalue : value ∈ t.opened) :
    ∃ before entry after, t.current.fakeHandleList = rest ++ before ++ entry :: after ∧
      entry.hObject = value ∧ mmpFindHandleEntry t.current value = some entry ∧
      t.current.fakeHandleList.erase entry = rest ++ before ++ after ∧
      t.opened.erase value = (before ++ after).map (·.hObject) := by
  obtain ⟨mine, hlist, hhandles⟩ := h.entries
  have hmem : value ∈ mine.map (·.hObject) := hhandles ▸ hvalue
  obtain ⟨entry, hentry, hobject⟩ := List.mem_map.mp hmem
  obtain ⟨before, after, rfl⟩ := List.append_of_mem hentry
  have hnodup := h.nodup
  rw [← hhandles, List.map_append, List.map_cons, hobject] at hnodup
  have hbefore : value ∉ before.map (·.hObject) := by
    intro hmem
    exact (List.nodup_append.mp hnodup).2.2 value hmem value List.mem_cons_self rfl
  have hrest : value ∉ rest.map (·.hObject) := h.apart value hvalue
  have hfront : ∀ x ∈ rest ++ before, x.hObject ≠ value := by
    intro x hx heq
    rcases List.mem_append.mp hx with hx | hx
    · exact hrest (List.mem_map.mpr ⟨x, hx, heq⟩)
    · exact hbefore (List.mem_map.mpr ⟨x, hx, heq⟩)
  have hlist' : t.current.fakeHandleList = rest ++ before ++ entry :: after := by
    rw [hlist, List.append_assoc]
  refine ⟨before, entry, after, hlist', hobject, ?_, ?_, ?_⟩
  · rw [mmpFindHandleEntry, hlist', List.find?_append, List.find?_eq_none.mpr, Option.none_or,
      List.find?_cons_of_pos (by simpa using hobject)]
    intro x hx
    simpa using hfront x hx
  · have hnot : entry ∉ rest ++ before := fun hmem => hfront entry hmem hobject
    rw [hlist', List.erase_append_right _ hnot, List.erase_cons_head]
  · rw [← hhandles, List.map_append, List.map_cons, hobject, List.erase_append_right _ hbefore,
      List.erase_cons_head, List.map_append]

section Runs

variable {D : DotNetHelpers δ ι τ ρ} {rest : List FakeHandleEntry} {t : Tracked δ ι τ ρ} {call : Call}

theorem tracks_opens {new : List FakeHandleEntry} (h : Tracks rest t)
    (hcall : closedValue call = none) (hnew : Opens D t.current call new) :
    Tracks rest (trackedStep D t call) := by
  obtain ⟨mine, hlist, hhandles⟩ := h.entries
  have hopened : (trackedStep D t call).opened = t.opened ++ new.map (·.hObject) := by
    rw [trackedStep, hcall, hnew.handles]
  have hkeys : fakeHandles t.current = rest.map (·.hObject) ++ t.opened := by
    rw [fakeHandles, hlist, List.map_append, hhandles]
  have hfresh : ∀ value ∈ new.map (·.hObject),
      value ∉ rest.map (·.hObject) ∧ value ∉ t.opened := by
    intro value hvalue
    have hout := hnew.fresh value hvalue
    rw [hkeys, List.mem_append, not_or] at hout
    exact hout
  refine ⟨⟨mine ++ new, ?_, ?_⟩, ?_, ?_⟩
  · change (callStep D t.current call).fakeHandleList = _
    rw [hnew.list, hlist, List.append_assoc]
  · rw [hopened, List.map_append, hhandles]
  · rw [hopened]
    refine List.nodup_append.mpr ⟨h.nodup, ?_, ?_⟩
    · rw [hnew.handles]
      cases openedValue D t.current call with
      | none => exact List.nodup_nil
      | some value => exact List.nodup_singleton value
    · rintro a ha b hb rfl
      exact (hfresh a hb).2 ha
  · intro value hvalue
    rw [hopened] at hvalue
    rcases List.mem_append.mp hvalue with hvalue | hvalue
    · exact h.apart value hvalue
    · exact (hfresh value hvalue).1

theorem tracks_closes {value : Nat} (h : Tracks rest t) (hcall : closedValue call = some value) :
    ∃ rest', Tracks rest' (trackedStep D t call) ∧
      (value ∉ rest.map (·.hObject) → rest' = rest) := by
  have hopened : (trackedStep D t call).opened = t.opened.erase value := by
    rw [trackedStep, hcall]
  have hlist' : (trackedStep D t call).current.fakeHandleList =
      match mmpFindHandleEntry t.current value with
      | some iter => t.current.fakeHandleList.erase iter
      | none => t.current.fakeHandleList := callStep_closes hcall
  rcases Classical.em (value ∈ t.opened) with hvalue | hvalue
  · obtain ⟨before, entry, after, -, -, hfind, herase, herased⟩ := h.found hvalue
    rw [hfind] at hlist'
    refine ⟨rest, ⟨⟨before ++ after, ?_, ?_⟩, ?_, ?_⟩, fun _ => rfl⟩
    · rw [hlist', ← List.append_assoc]
      exact herase
    · rw [hopened, herased]
    · rw [hopened]
      exact h.nodup.erase value
    · intro v hv
      rw [hopened] at hv
      exact h.apart v (List.mem_of_mem_erase hv)
  · rw [List.erase_of_not_mem hvalue] at hopened
    obtain ⟨mine, hlist, hhandles⟩ := h.entries
    cases hfind : mmpFindHandleEntry t.current value with
    | none =>
      rw [hfind] at hlist'
      refine ⟨rest, ⟨⟨mine, ?_, ?_⟩, ?_, ?_⟩, fun _ => rfl⟩
      · rw [hlist']
        exact hlist
      · rw [hopened, hhandles]
      · rw [hopened]
        exact h.nodup
      · rw [hopened]
        exact h.apart
    | some iter =>
      rw [hfind] at hlist'
      obtain ⟨hmem, hobject⟩ := mmpFindHandleEntry_some hfind
      rw [hlist] at hmem
      have hnotMine : iter ∉ mine := by
        intro hmem
        exact hvalue (hhandles ▸ List.mem_map.mpr ⟨iter, hmem, hobject⟩)
      have hrest : iter ∈ rest := (List.mem_append.mp hmem).resolve_right hnotMine
      refine ⟨rest.erase iter, ⟨⟨mine, ?_, ?_⟩, ?_, ?_⟩, ?_⟩
      · rw [hlist']
        dsimp only
        rw [hlist, List.erase_append_left _ hrest]
      · rw [hopened, hhandles]
      · rw [hopened]
        exact h.nodup
      · intro v hv hmem
        rw [hopened] at hv
        exact h.apart v hv ((List.erase_sublist.map _).subset hmem)
      · intro hnot
        exact absurd (List.mem_map.mpr ⟨iter, hrest, hobject⟩) hnot

/-- The guard of a call: its events are fresh, as the system gives them, and it maps no view
that the list has no entry for. -/
def HandleGuard (D : DotNetHelpers δ ι τ ρ) (t : Tracked δ ι τ ρ) (call : Call) : Prop :=
  FreshEvents D t.current call ∧ OnlyImageViews D t.current call

theorem tracks_step (h : Tracks rest t) (hguard : HandleGuard D t call) :
    ∃ rest', Tracks rest' (trackedStep D t call) ∧
      ((∀ value, closedValue call = some value → value ∉ rest.map (·.hObject)) → rest' = rest) := by
  cases hcall : closedValue call with
  | none =>
    obtain ⟨new, hnew⟩ := callStep_opens hcall hguard.1 hguard.2
    exact ⟨rest, tracks_opens h hcall hnew, fun _ => rfl⟩
  | some value =>
    obtain ⟨rest', htracks, hrest⟩ := tracks_closes (D := D) h hcall
    exact ⟨rest', htracks, fun hstart => hrest (hstart value rfl)⟩

theorem tracks_start (start : DotNetProcess δ ι τ ρ) :
    Tracks start.fakeHandleList (⟨start, []⟩ : Tracked δ ι τ ρ) := by
  refine ⟨⟨[], (List.append_nil _).symm, rfl⟩, List.nodup_nil, ?_⟩
  intro value hvalue
  cases hvalue

end Runs

/-- The call takes one entry out of the list, that of the value. -/
def RemovesOne (value : Nat) (s s' : DotNetProcess δ ι τ ρ) : Prop :=
  ∃ before entry after, s.fakeHandleList = before ++ entry :: after ∧ entry.hObject = value ∧
    s'.fakeHandleList = before ++ after

/-- In a run without views of mappings that are not images: every value that is open is
found, closing it takes the memory-module branch and removes its entry, and once all is
closed the list is that of the start, unless the run closed what was open there. -/
theorem fakeHandles_closed (D : DotNetHelpers δ ι τ ρ) (start : DotNetProcess δ ι τ ρ)
    (calls : List Call) (hcalls : Runs.Admissible (trackedStep D) (HandleGuard D) ⟨start, []⟩ calls) :
    let t := calls.foldl (trackedStep D) ⟨start, []⟩
    (∀ value ∈ t.opened, (mmpFindHandleEntry t.current value).isSome) ∧
      (∀ value ∈ t.opened,
        RemovesOne value t.current (hookCloseHandle value t.current).2 ∧
        (hookUnmapViewOfFile D value t.current).1 = .fake true ∧
        RemovesOne value t.current (hookUnmapViewOfFile D value t.current).2) ∧
      ((∀ call ∈ calls, ∀ value, closedValue call = some value → value ∉ fakeHandles start) →
        t.opened = [] → t.current.fakeHandleList = start.fakeHandleList) := by
  intro t
  have hstep : ∀ (t : Tracked δ ι τ ρ) (call : Call), (∃ rest, Tracks rest t) →
      HandleGuard D t call → ∃ rest, Tracks rest (trackedStep D t call) := by
    rintro t call ⟨rest, h⟩ hguard
    obtain ⟨rest', h', -⟩ := tracks_step h hguard
    exact ⟨rest', h'⟩
  obtain ⟨rest, h⟩ := Runs.invariant hstep ⟨_, tracks_start start⟩ hcalls
  refine ⟨?_, ?_, ?_⟩
  · intro value hvalue
    obtain ⟨_, entry, _, -, -, hfind, -⟩ := h.found hvalue
    rw [hfind]
    rfl
  · intro value hvalue
    obtain ⟨before, entry, after, hlist, hobject, hfind, herase, -⟩ := h.found hvalue
    refine ⟨⟨rest ++ before, entry, after, hlist, hobject, ?_⟩, ?_,
      rest ++ before, entry, after, hlist, hobject, ?_⟩
    · rw [hookCloseHandle, hfind]
      exact herase
    · rw [hookUnmapViewOfFile, hfind]
    · rw [hookUnmapViewOfFile, hfind]
      exact herase
  · intro hstart hclosed
    have hkeep : ∀ (t : Tracked δ ι τ ρ) (call : Call), Tracks start.fakeHandleList t →
        (HandleGuard D t call ∧ ∀ value, closedValue call = some value →
          value ∉ fakeHandles start) → Tracks start.fakeHandleList (trackedStep D t call) := by
      rintro t call h ⟨hguard, hother⟩
      obtain ⟨rest', h', hrest⟩ := tracks_step h hguard
      rw [← hrest hother]
      exact h'
    have hall : Tracks start.fakeHandleList t :=
      Runs.invariant hkeep (tracks_start start) (Runs.admissible_and hcalls hstart)
    obtain ⟨mine, hlist, hhandles⟩ := hall.entries
    rw [hclosed, List.map_eq_nil_iff] at hhandles
    rw [hlist, hhandles, List.append_nil]

/-- A process with one memory module, named `a`, whose image was mapped from the buffer at
`0x7000`. -/
def oneModule : DotNetProcess (List StackProcess.StackEntry) (List Nat) (List Nat) (List Nat) where
  fakeHandleList := []
  process := { stackStart with
    database := [⟨0x100, ⟨0x10000, [0x61], 0x3000, true⟩, 1⟩]
    regions := [0x7000]
    modules := fun base =>
      if base = 0x10000 then
        some { freshModule base with ldrEntry := 0x100, mappedDll := true, initialized := true }
      else none }

def stackDotNet : DotNetHelpers (List StackProcess.StackEntry) (List Nat) (List Nat) (List Nat) :=
  { StackProcess.stackHelpers stackImage statusSuccess with
    fullDllName := fun _ _ => [0x61]
    lpReserved := fun _ _ => 0x7000
    dwImageFileSize := fun _ _ => 0x220
    assemblyTimes := 0 }

/-- The module is opened, mapped as an image and viewed, and all is closed again. -/
theorem fakeHandles_closed_image :
    let calls := [Call.createFile [0x61] 0x10 true, .createFileMapping 0x10 secImage 0x14 true,
      .mapViewOfFile 0x14 true, .unmapViewOfFile 0x20000, .closeHandle 0x14, .closeHandle 0x10]
    (calls.foldl (trackedStep stackDotNet) ⟨oneModule, []⟩).current.fakeHandleList = [] := by
  intro calls
  have hcalls : Runs.Admissible (trackedStep stackDotNet) (HandleGuard stackDotNet)
      ⟨oneModule, []⟩ calls := by
    refine ⟨⟨⟨by decide +kernel, ?_⟩, ?_⟩, ⟨⟨by decide +kernel, ?_⟩, ?_⟩,
      ⟨⟨by decide +kernel, ?_⟩, ?_⟩, ⟨⟨by decide +kernel, ?_⟩, ?_⟩,
      ⟨⟨by decide +kernel, ?_⟩, ?_⟩, ⟨⟨by decide +kernel, ?_⟩, ?_⟩, trivial⟩
    · rintro _ ⟨⟩
      decide +kernel
    · rintro _ _ ⟨⟩
    · rintro _ ⟨⟩
      decide +kernel
    · rintro _ _ ⟨⟩
    · rintro _ ⟨⟩
    -- the base of the view
    · rintro _ _ ⟨⟩
      decide +kernel
    · rintro _ ⟨⟩
    · rintro _ _ ⟨⟩
    · rintro _ ⟨⟩
    · rintro _ _ ⟨⟩
    · rintro _ ⟨⟩
    · rintro _ _ ⟨⟩
  have hopened : (calls.foldl (trackedStep stackDotNet) ⟨oneModule, []⟩).opened = [] := by
    decide +kernel
  exact (fakeHandles_closed stackDotNet oneModule calls hcalls).2.2
    (fun _ _ _ _ => List.not_mem_nil) hopened

/-- The view of a mapping that is not an image is the buffer of the module: it is not found,
and the call that closes it goes to the original function. -/
theorem fakeHandles_bufferView :
    let calls := [Call.createFile [0x61] 0x10 true, .createFileMapping 0x10 0x02 0x14 true,
      .mapViewOfFile 0x14 true]
    let t := calls.foldl (trackedStep stackDotNet) ⟨oneModule, []⟩
    0x7000 ∈ t.opened ∧ mmpFindHandleEntry t.current 0x7000 = none ∧
      (hookUnmapViewOfFile stackDotNet 0x7000 t.current).1 = .original := by
  intro calls t
  exact ⟨by decide +kernel, by decide +kernel, by decide +kernel⟩

end WinPolyfillLoader.MmpDotNet
