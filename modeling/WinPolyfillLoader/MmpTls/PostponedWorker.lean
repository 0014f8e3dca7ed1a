import WinPolyfillLoader.MmpTls.ProcessRun
import WinPolyfillLoader.Library.ErasingLoop

/-!
One pass of `MmpReleasePostponedTlsWorker`. Whether a thread is gone is read off
the exit code that `GetExitCodeThread` stores, in a variable that lives as long
as the worker: a thread that exits with the code `STILL_ACTIVE` is never
released, and an item whose handle cannot be queried is judged by the code of
the item before it.
-/

namespace WinPolyfillLoader.MmpTls

open ProcessHeap ErasingLoop

inductive ThreadStatus where
  | running
  | terminated (exitCode : Dword)
deriving DecidableEq, Repr

def stillActive : Dword := 259
def infinite : Dword := 0xffffffff

def ThreadStatus.exitCode : ThreadStatus → Dword
  | .running => stillActive
  | .terminated exitCode => exitCode

/-- The code tells whether a thread runs, except for one that exited with it. -/
theorem exitCode_tells_iff (status : ThreadStatus) :
    (status.exitCode = stillActive ↔ status = .running) ↔ status ≠ .terminated stillActive := by
  cases status with
  | running => simp [ThreadStatus.exitCode]
  | terminated exitCode => simp [ThreadStatus.exitCode]

/-- The threads of the handles, and the handles that can be queried; `OpenThread`
is not checked and may have left a null handle. -/
structure ThreadHandles where
  status : Nat → ThreadStatus
  queried : Nat → Bool

/-- `GetExitCodeThread(hThread, &code)`: the new value of `code`. -/
def getExitCodeThread (handles : ThreadHandles) (hThread : Nat) (code : Dword) : Dword :=
  if handles.queried hThread then (handles.status hThread).exitCode else code

/-- What the worker edits besides the list: the globals, its variable `code`, and
the handles that it has closed. -/
structure WorkerState where
  mmp : MmpState
  code : Dword
  closedHandles : List Nat

/-- The body of the inner loop; true when the item is erased. -/
def visitPostponed (handles : ThreadHandles) (state : WorkerState) (item : PostponedTls) :
    Bool × WorkerState :=
  let code := getExitCodeThread handles item.hThread state.code
  if code = stillActive then (false, { state with code := code })
  else
    (true, {
      mmp := releasePostponedTls state.mmp item
      code := code
      closedHandles := state.closedHandles ++ [item.hThread] })

/-- What a pass leaves: the process, the worker's two variables, and the handles
that were closed. -/
structure WorkerPass where
  process : TlsProcess
  code : Dword
  waitTime : Dword
  closedHandles : List Nat

/-- One pass of `MmpReleasePostponedTlsWorker`. Without a list the worker ends. -/
def mmpReleasePostponedTlsPass (handles : ThreadHandles) (code : Dword) (process : TlsProcess) :
    Option WorkerPass :=
  match process.mmpPostponedTlsList with
  | some items =>
    let (kept, state) :=
      erasingLoop (visitPostponed handles) 0 items ⟨process.mmp, code, []⟩
    some {
      process := { process with mmp := state.mmp, mmpPostponedTlsList := some kept }
      code := state.code
      waitTime := if kept.isEmpty then infinite else 1000
      closedHandles := state.closedHandles }
  | none => none

abbrev ThreadHandles.running (handles : ThreadHandles) (item : PostponedTls) : Bool :=
  handles.status item.hThread = .running

/-- What a pass over `items` must do: keep the items of the running threads in
their order, and for each other item close the handle once and free once the
record, the two vectors and the data of the listed modules. -/
structure ReleasesFinished (handles : ThreadHandles) (items : List PostponedTls)
    (before : TlsProcess) (pass : WorkerPass) : Prop where
  kept : pass.process.mmpPostponedTlsList = some (items.filter handles.running)
  closed : pass.closedHandles =
    (items.filter (fun item => !handles.running item)).map PostponedTls.hThread
  freed : ∀ b ≠ 0, pass.process.mmp.heap.frees b = before.mmp.heap.frees b +
    ((items.filter (fun item => !handles.running item)).flatMap
      (releasedBlocks before.mmp)).count b

/-- The code that is stored once `GetExitCodeThread` was called for the items. -/
def storedCode (handles : ThreadHandles) (code : Dword) (items : List PostponedTls) : Dword :=
  items.foldl (fun code item => getExitCodeThread handles item.hThread code) code

/-- At each item the code that is stored then tells whether the item is active. -/
def CodesTell (handles : ThreadHandles) (active : PostponedTls → Bool) (code : Dword)
    (items : List PostponedTls) : Prop :=
  ∀ before item after, items = before ++ item :: after →
    (storedCode handles code (before ++ [item]) = stillActive ↔ active item = true)

section CodesTell

variable {handles : ThreadHandles} {active : PostponedTls → Bool} {items : List PostponedTls}

theorem codesTell_nil (code : Dword) : CodesTell handles active code [] := by
  intro before item after hsplit
  simp at hsplit

theorem codesTell_cons (code : Dword) (item : PostponedTls) (rest : List PostponedTls) :
    CodesTell handles active code (item :: rest) ↔
      (getExitCodeThread handles item.hThread code = stillActive ↔ active item = true) ∧
      CodesTell handles active (getExitCodeThread handles item.hThread code) rest := by
  constructor
  · intro h
    refine ⟨h [] item rest rfl, ?_⟩
    intro before other after hsplit
    exact h (item :: before) other after (by rw [hsplit, List.cons_append])
  · rintro ⟨hfirst, hrest⟩ before other after hsplit
    cases before with
    | nil =>
      cases hsplit
      exact hfirst
    | cons first before =>
      cases hsplit
      exact hrest before other after rfl

/-- Where every handle can be queried, each item is judged by its own code. -/
theorem codesTell_of_queried (code : Dword)
    (h : ∀ item ∈ items, handles.queried item.hThread = true) :
    CodesTell handles active code items ↔ ∀ item ∈ items,
      ((handles.status item.hThread).exitCode = stillActive ↔ active item = true) := by
  induction items generalizing code with
  | nil => simp [codesTell_nil]
  | cons item rest ih =>
    have hcode : getExitCodeThread handles item.hThread code =
        (handles.status item.hThread).exitCode := if_pos (h item List.mem_cons_self)
    rw [codesTell_cons, hcode, List.forall_mem_cons,
      ih _ fun other hother => h other (List.mem_cons_of_mem _ hother)]

/-- The walk where the codes tell: the list, the globals and the handles. -/
theorem erasingWalk_released {state : WorkerState}
    (h : CodesTell handles active state.code items) :
    erasingWalk (visitPostponed handles) items state =
      (items.filter active, {
        mmp := (items.filter (fun item => !active item)).foldl releasePostponedTls state.mmp
        code := storedCode handles state.code items
        closedHandles := state.closedHandles ++
          (items.filter (fun item => !active item)).map PostponedTls.hThread }) := by
  induction items generalizing state with
  | nil => simp [erasingWalk, storedCode]
  | cons item rest ih =>
    obtain ⟨hitem, hrest⟩ := (codesTell_cons state.code item rest).mp h
    cases hactive : active item with
    | true =>
      have hcode := hitem.mpr hactive
      have hvisit : visitPostponed handles state item = (false, { state with
          code := getExitCodeThread handles item.hThread state.code }) := by
        rw [visitPostponed, if_pos hcode]
      simp only [erasingWalk, hvisit]
      rw [ih hrest]
      simp [hactive, storedCode]
    | false =>
      have hcode : getExitCodeThread handles item.hThread state.code ≠ stillActive := by
        intro heq
        rw [hitem.mp heq] at hactive
        cases hactive
      have hvisit : visitPostponed handles state item = (true, {
          mmp := releasePostponedTls state.mmp item
          code := getExitCodeThread handles item.hThread state.code
          closedHandles := state.closedHandles ++ [item.hThread] }) := by
        rw [visitPostponed, if_neg hcode]
      simp only [erasingWalk, hvisit]
      rw [ih hrest]
      simp [hactive, storedCode]

/-- The walk keeps just the active items only where the codes tell. -/
theorem codesTell_of_kept {state : WorkerState}
    (h : (erasingWalk (visitPostponed handles) items state).1 = items.filter active) :
    CodesTell handles active state.code items := by
  induction items generalizing state with
  | nil => exact codesTell_nil state.code
  | cons item rest ih =>
    rw [codesTell_cons]
    rcases Decidable.em (getExitCodeThread handles item.hThread state.code = stillActive) with
      hcode | hcode
    · simp only [erasingWalk, visitPostponed, if_pos hcode] at h
      have hactive : active item = true := by
        have hmem : item ∈ (item :: rest).filter active := h ▸ List.mem_cons_self
        exact (List.mem_filter.mp hmem).2
      rw [List.filter_cons_of_pos hactive] at h
      exact ⟨iff_of_true hcode hactive, ih (List.cons.inj h).2⟩
    · simp only [erasingWalk, visitPostponed, if_neg hcode] at h
      rcases Decidable.em (active item = true) with hactive | hactive
      · -- the item was erased, so the walk left one active item less than there were
        have hsub := erasingWalk_sublist (visitPostponed handles) rest
          { mmp := releasePostponedTls state.mmp item
            code := getExitCodeThread handles item.hThread state.code
            closedHandles := state.closedHandles ++ [item.hThread] }
        have hle := (hsub.filter active).length_le
        rw [h, List.filter_filter, List.filter_cons_of_pos (by simpa using hactive)] at hle
        simp at hle
      · rw [List.filter_cons_of_neg hactive] at h
        exact ⟨iff_of_false hcode hactive, ih h⟩

end CodesTell

theorem mmpReleasePostponedTlsPass_eq {process : TlsProcess} {items : List PostponedTls}
    (hlist : process.mmpPostponedTlsList = some items) (handles : ThreadHandles) (code : Dword) :
    let (kept, state) := erasingWalk (visitPostponed handles) items ⟨process.mmp, code, []⟩
    mmpReleasePostponedTlsPass handles code process = some {
      process := { process with mmp := state.mmp, mmpPostponedTlsList := some kept }
      code := state.code
      waitTime := if kept.isEmpty then infinite else 1000
      closedHandles := state.closedHandles } := by
  simp only [mmpReleasePostponedTlsPass, hlist, erasingLoop_eq]

/-- With handles that can all be queried, the pass is the one that keeps what
`GetExitCodeThread` reports as active. -/
theorem mmpReleasePostponedTlsPass_refines {handles : ThreadHandles} {process : TlsProcess}
    {items : List PostponedTls} {pass : WorkerPass} {code : Dword}
    (hlist : process.mmpPostponedTlsList = some items)
    (hqueried : ∀ item ∈ items, handles.queried item.hThread = true)
    (h : mmpReleasePostponedTlsPass handles code process = some pass) :
    pass.process = mmpReleasePostponedTlsWorker
      (fun item => (handles.status item.hThread).exitCode = stillActive) process := by
  have htell : CodesTell handles
      (fun item => (handles.status item.hThread).exitCode = stillActive) code items := by
    apply (codesTell_of_queried code hqueried).mpr
    simp
  rw [mmpReleasePostponedTlsPass_eq hlist, erasingWalk_released htell] at h
  cases h
  simp only [mmpReleasePostponedTlsWorker, hlist]

/-- A pass releases exactly the items of the finished threads if and only if at
each item the stored code tells whether its thread runs; with handles that can
all be queried, that means that no thread has exited with the code
`STILL_ACTIVE`. -/
theorem mmpReleasePostponedTlsPass_releases_iff (handles : ThreadHandles) (code : Dword)
    (process : TlsProcess) (items : List PostponedTls) :
    ∃ pass, mmpReleasePostponedTlsPass handles code
        { process with mmpPostponedTlsList := some items } = some pass ∧
      (ReleasesFinished handles items process pass ↔
        CodesTell handles handles.running code items) ∧
      ((∀ item ∈ items, handles.queried item.hThread = true) →
        (ReleasesFinished handles items process pass ↔
          ∀ item ∈ items, handles.status item.hThread ≠ .terminated stillActive)) := by
  let listed : TlsProcess := { process with mmpPostponedTlsList := some items }
  have hlisted : listed.mmpPostponedTlsList = some items := rfl
  have hpass := mmpReleasePostponedTlsPass_eq hlisted handles code
  refine ⟨_, hpass, ?_⟩
  have hiff : ∀ pass : WorkerPass, mmpReleasePostponedTlsPass handles code listed = some pass →
      (ReleasesFinished handles items process pass ↔
        CodesTell handles handles.running code items) := by
    intro pass h
    rw [hpass] at h
    cases h
    constructor
    · intro hreleases
      exact codesTell_of_kept (Option.some.inj hreleases.kept)
    · intro htell
      let start : WorkerState := ⟨process.mmp, code, []⟩
      have hstart : CodesTell handles handles.running start.code items := htell
      rw [erasingWalk_released hstart]
      constructor
      · rfl
      · exact List.nil_append _
      · intro b hb
        rw [releasePostponedTls_foldl]
        exact (freeAll_log_count _ _ hb).1
  refine ⟨hiff _ hpass, ?_⟩
  intro hqueried
  rw [hiff _ hpass, codesTell_of_queried code hqueried]
  apply forall₂_congr
  intro item _
  rw [decide_eq_true_eq]
  exact exitCode_tells_iff (handles.status item.hThread)

/-- A thread exits with the code 259, and its item stays in the list. -/
theorem mmpReleasePostponedTlsPass_keeps_finished :
    let handles : ThreadHandles := ⟨fun _ => .terminated 259, fun _ => true⟩
    let item : PostponedTls := ⟨8, ⟨0x4000, 8, 0x1010, 0x2010⟩, 0x3000⟩
    let process := { oneThread [] with mmpPostponedTlsList := some [item] }
    ∃ pass, mmpReleasePostponedTlsPass handles 0 process = some pass ∧
      pass.process.mmpPostponedTlsList = some [item] ∧
      ¬ ReleasesFinished handles [item] process pass := by
  intro handles item process
  have hlist : process.mmpPostponedTlsList = some [item] := rfl
  refine ⟨_, mmpReleasePostponedTlsPass_eq hlist handles 0, rfl, ?_⟩
  intro h
  have hkept := Option.some.inj h.kept
  revert hkept
  decide

end WinPolyfillLoader.MmpTls
