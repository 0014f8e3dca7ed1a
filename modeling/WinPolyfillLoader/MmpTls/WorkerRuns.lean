import WinPolyfillLoader.MmpTls.PostponedWorker

/-!
The worker of `MmpTlsFiber.cpp` beside the threads that exit and the exit of the process. The
list is only touched under its lock, so the parties take turns; the wait for the event lies
outside of it, and a thread may queue an item between the end of a pass and the wait.
-/

namespace WinPolyfillLoader.MmpTls

open ErasingLoop
open scoped List

/-- Where the worker is: in `WaitForSingleObject`, behind it and in front of the lock, or at
its end. -/
inductive WorkerPlace where
  | waiting (waitTime : Dword)
  | woken
  | ended
deriving DecidableEq, Repr

/-- The process with the threads behind the handles, `MmpPostponedTlsEvent`, which is reset
by the wait that it ends, and the worker with its variable and what it has closed. -/
structure FiberSystem where
  process : TlsProcess
  handles : ThreadHandles
  eventSet : Bool
  eventOpen : Bool
  place : WorkerPlace
  code : Dword
  closedHandles : List Nat

/-- The postponed items; none without a list. -/
def FiberSystem.items (s : FiberSystem) : List PostponedTls :=
  s.process.mmpPostponedTlsList.getD []

/-- `MmpTlsFiberInitialize`. The worker's variable starts without a value. -/
def mmpTlsFiberInitialize (process : TlsProcess) (handles : ThreadHandles) (code : Dword) :
    FiberSystem where
  process := { process with mmpPostponedTlsList := some [] }
  handles := handles
  eventSet := false
  eventOpen := true
  place := .waiting infinite
  code := code
  closedHandles := []

/-- `OnExit`. There is no list to destroy a second time. -/
def onExit (s : FiberSystem) : Option FiberSystem :=
  match s.process.mmpPostponedTlsList with
  | some _ => some { s with
      process := { s.process with mmpPostponedTlsList := none }
      eventOpen := false }
  | none => none

/-- Whether the wait can end: by the event, by the time, or as the handle is closed. -/
def FiberSystem.waitEnds (s : FiberSystem) (waitTime : Dword) : Bool :=
  s.eventSet || waitTime != infinite || !s.eventOpen

/-- What the worker does under the lock. -/
def FiberSystem.workerPass (s : FiberSystem) : FiberSystem :=
  match mmpReleasePostponedTlsPass s.handles s.code s.process with
  | some pass => { s with
      process := pass.process
      place := .waiting pass.waitTime
      code := pass.code
      closedHandles := s.closedHandles ++ pass.closedHandles }
  | none => { s with place := .ended }

/-- The threads of the listed items do not come back: their handles are open. -/
def FiberSystem.StayTerminated (s : FiberSystem) (handles : ThreadHandles) : Prop :=
  ∀ item ∈ s.items, s.handles.status item.hThread ≠ .running →
    handles.status item.hThread = s.handles.status item.hThread

instance (s : FiberSystem) (handles : ThreadHandles) : Decidable (s.StayTerminated handles) :=
  inferInstanceAs (Decidable (∀ item ∈ s.items, _))

/-- A thread queues what it leaves, the worker wakes or passes over the list, the process
exits, threads start and end, and the module does something else. -/
inductive FiberAction where
  | queue (clientId : Nat) (record : TlspRecord)
  | wake
  | pass
  | exit
  | threads (handles : ThreadHandles)
  | other (process : TlsProcess)

def fiberStep (s : FiberSystem) : FiberAction → Option FiberSystem
  | .queue clientId record =>
    (mmpQueuePostponedTls clientId record s.process).map fun process => { s with
      process := process
      eventSet := s.eventSet || s.process.mmpPostponedTlsList.isSome }
  | .wake =>
    match s.place with
    | .waiting waitTime =>
      if s.waitEnds waitTime then some { s with place := .woken, eventSet := false } else none
    | _ => none
  | .pass => if s.place = .woken then some s.workerPass else none
  | .exit => onExit s
  | .threads handles =>
    if s.StayTerminated handles then some { s with handles := handles } else none
  | .other process =>
    if process.mmpPostponedTlsList = s.process.mmpPostponedTlsList then
      some { s with process := process }
    else none

/-- The items that a walk over the list erases. -/
def finishedItems (handles : ThreadHandles) : Dword → List PostponedTls → List PostponedTls
  | _, [] => []
  | code, item :: rest =>
    let code := getExitCodeThread handles item.hThread code
    if code = stillActive then finishedItems handles code rest
    else item :: finishedItems handles code rest

def activeItems (handles : ThreadHandles) : Dword → List PostponedTls → List PostponedTls
  | _, [] => []
  | code, item :: rest =>
    let code := getExitCodeThread handles item.hThread code
    if code = stillActive then item :: activeItems handles code rest
    else activeItems handles code rest

/-- What has become of the items: those that were queued, those that the worker has released,
each with what its thread was then, and those that the exit has left. -/
structure FiberHistory where
  queued : List PostponedTls
  released : List (PostponedTls × ThreadStatus)
  dropped : List PostponedTls

def FiberHistory.extend (history : FiberHistory) (s s' : FiberSystem) :
    FiberAction → FiberHistory
  | .queue _ _ => { history with queued := history.queued ++ s'.items.drop s.items.length }
  | .pass => { history with
      released := history.released ++ (finishedItems s.handles s.code s.items).map
        fun item => (item, s.handles.status item.hThread) }
  | .exit => { history with dropped := history.dropped ++ s.items }
  | _ => history

def fiberRun : FiberSystem → FiberHistory → List FiberAction → Option (FiberSystem × FiberHistory)
  | s, history, [] => some (s, history)
  | s, history, action :: rest =>
    match fiberStep s action with
    | none => none
    | some s' => fiberRun s' (history.extend s s' action) rest

def FiberAction.Queried : FiberAction → Prop
  | .threads handles => ∀ hThread, handles.queried hThread = true
  | _ => True

/-- Each item that was queued is in the list, was released once with the handle closed once,
or was left by the exit; only what terminated threads leave is released; and a worker that
waits without a time is about to be woken, if there is an item. -/
structure FiberSafe (s : FiberSystem) (history : FiberHistory) : Prop where
  conserved : history.queued.Perm (history.released.map Prod.fst ++ history.dropped ++ s.items)
  closed : s.closedHandles = history.released.map fun release => release.1.hThread
  terminated : ∀ release ∈ history.released, ∃ exitCode, exitCode ≠ stillActive ∧
    release.2 = .terminated exitCode
  woken : s.place = .waiting infinite → s.items ≠ [] → s.eventSet = true
  event : s.eventOpen = s.process.mmpPostponedTlsList.isSome
  present : s.eventOpen = true → s.place ≠ .ended
  queried : ∀ hThread, s.handles.queried hThread = true

/-- The worker can take its next one or two steps, and they release the item. -/
def ReleasedNext (s : FiberSystem) (history : FiberHistory) (item : PostponedTls)
    (exitCode : Dword) : Prop :=
  ∃ steps s' history', (steps = [.pass] ∨ steps = [.wake, .pass]) ∧
    fiberRun s history steps = some (s', history') ∧ item ∉ s'.items ∧
    (item, .terminated exitCode) ∈ history'.released

variable {s s' : FiberSystem} {history : FiberHistory}

theorem activeItems_perm (handles : ThreadHandles) (code : Dword) (items : List PostponedTls) :
    items.Perm (finishedItems handles code items ++ activeItems handles code items) := by
  induction items generalizing code with
  | nil => exact List.Perm.refl []
  | cons item rest ih =>
    rw [finishedItems, activeItems]
    split
    · exact ((ih _).cons item).trans List.perm_middle.symm
    · exact (ih _).cons item

theorem erasingWalk_visitPostponed {handles : ThreadHandles} (items : List PostponedTls)
    (state : WorkerState) :
    erasingWalk (visitPostponed handles) items state =
      (activeItems handles state.code items, {
        mmp := (finishedItems handles state.code items).foldl releasePostponedTls state.mmp
        code := storedCode handles state.code items
        closedHandles := state.closedHandles ++
          (finishedItems handles state.code items).map PostponedTls.hThread }) := by
  induction items generalizing state with
  | nil => simp [erasingWalk, finishedItems, activeItems, storedCode]
  | cons item rest ih =>
    rcases Decidable.em (getExitCodeThread handles item.hThread state.code = stillActive) with
      hcode | hcode
    · simp only [erasingWalk, visitPostponed, finishedItems, activeItems, if_pos hcode, ih]
      rfl
    · simp only [erasingWalk, visitPostponed, finishedItems, activeItems, if_neg hcode, ih]
      simp [storedCode]

theorem workerPass_list {items : List PostponedTls}
    (hlist : s.process.mmpPostponedTlsList = some items) :
    s.workerPass = { s with
      process := { s.process with
        mmp := (finishedItems s.handles s.code items).foldl releasePostponedTls s.process.mmp
        mmpPostponedTlsList := some (activeItems s.handles s.code items) }
      place := .waiting (if (activeItems s.handles s.code items).isEmpty then infinite else 1000)
      code := storedCode s.handles s.code items
      closedHandles := s.closedHandles ++
        (finishedItems s.handles s.code items).map PostponedTls.hThread } := by
  have hpass := mmpReleasePostponedTlsPass_eq hlist s.handles s.code
  rw [erasingWalk_visitPostponed] at hpass
  rw [FiberSystem.workerPass, hpass]
  rfl

theorem workerPass_none (hlist : s.process.mmpPostponedTlsList = none) :
    s.workerPass = { s with place := .ended } := by
  have hpass : mmpReleasePostponedTlsPass s.handles s.code s.process = none := by
    rw [mmpReleasePostponedTlsPass, hlist]
  rw [FiberSystem.workerPass, hpass]

/-- With handles that can be queried, each item is judged by the code of its thread. -/
theorem finishedItems_queried {handles : ThreadHandles}
    (hqueried : ∀ hThread, handles.queried hThread = true) (code : Dword)
    (items : List PostponedTls) :
    finishedItems handles code items =
        items.filter (fun item => (handles.status item.hThread).exitCode ≠ stillActive) ∧
      activeItems handles code items =
        items.filter (fun item => (handles.status item.hThread).exitCode = stillActive) := by
  induction items generalizing code with
  | nil => exact ⟨rfl, rfl⟩
  | cons item rest ih =>
    have hcode : getExitCodeThread handles item.hThread code =
        (handles.status item.hThread).exitCode := if_pos (hqueried item.hThread)
    obtain ⟨hfinished, hactive⟩ := ih (handles.status item.hThread).exitCode
    rw [finishedItems, activeItems, hcode, hfinished, hactive]
    by_cases h : (handles.status item.hThread).exitCode = stillActive
    · simp [h]
    · simp [h]

theorem finishedItems_terminated {handles : ThreadHandles} {item : PostponedTls}
    (hqueried : ∀ hThread, handles.queried hThread = true) {code : Dword}
    {items : List PostponedTls} (h : item ∈ finishedItems handles code items) :
    ∃ exitCode, exitCode ≠ stillActive ∧ handles.status item.hThread = .terminated exitCode := by
  rw [(finishedItems_queried hqueried code items).1, List.mem_filter, decide_eq_true_eq] at h
  cases hstatus : handles.status item.hThread with
  | running =>
    rw [hstatus] at h
    exact absurd rfl h.2
  | terminated exitCode =>
    rw [hstatus] at h
    exact ⟨exitCode, h.2, rfl⟩

theorem mmpQueuePostponedTls_list {clientId : Nat} {record : TlspRecord}
    {process process' : TlsProcess}
    (h : mmpQueuePostponedTls clientId record process = some process') :
    ∃ item, process'.mmpPostponedTlsList =
      process.mmpPostponedTlsList.map fun items => items ++ [item] := by
  unfold mmpQueuePostponedTls at h
  split at h
  · cases h
  · rename_i tlsVector allocated hne hallocate
    have hlist : allocated.mmpPostponedTlsList = process.mmpPostponedTlsList := by
      unfold mmpAllocateTlsp at hallocate
      split at hallocate
      · cases hallocate
        rfl
      · cases hallocate
        rfl
    rw [← hlist]
    split at h
    · rename_i items hsome
      cases h
      exact ⟨_, by rw [hsome]; rfl⟩
    · rename_i hnone
      cases h
      refine ⟨⟨clientId, record, tlsVector⟩, ?_⟩
      exact hnone.trans (by rw [hnone]; rfl)

theorem items_eq {list : Option (List PostponedTls)} (h : s.process.mmpPostponedTlsList = list) :
    s.items = list.getD [] := by
  rw [FiberSystem.items, h]

theorem fiberSafe_queue (hsafe : FiberSafe s history) {clientId : Nat} {record : TlspRecord}
    (hstep : fiberStep s (.queue clientId record) = some s') :
    FiberSafe s' (history.extend s s' (.queue clientId record)) := by
  obtain ⟨process, hqueue, hs'⟩ := Option.map_eq_some_iff.mp hstep
  obtain ⟨item, hlist⟩ := mmpQueuePostponedTls_list hqueue
  obtain ⟨hconserved, hclosed, hterminated, hwoken, hevent, hpresent, hqueried⟩ := hsafe
  have hprocess : s'.process.mmpPostponedTlsList =
      s.process.mmpPostponedTlsList.map fun items => items ++ [item] := by
    rw [← hs']
    exact hlist
  have hisSome : s.eventOpen = s'.process.mmpPostponedTlsList.isSome := by
    rw [hprocess, Option.isSome_map]
    exact hevent
  cases hbefore : s.process.mmpPostponedTlsList with
  | none =>
    rw [hbefore] at hprocess
    have hitems : s'.items = [] := items_eq hprocess
    have hnone : s.items = [] := items_eq hbefore
    have hextend : history.extend s s' (.queue clientId record) = history := by
      rw [FiberHistory.extend, hitems, hnone]
      exact congrArg (fun queued => { history with queued := queued }) (List.append_nil _)
    rw [hextend]
    rw [hnone, ← hitems] at hconserved
    subst hs'
    exact ⟨hconserved, hclosed, hterminated, fun _ hne => absurd hitems hne, hisSome, hpresent,
      hqueried⟩
  | some items =>
    rw [hbefore] at hprocess
    have hitems : s'.items = items ++ [item] := items_eq hprocess
    have hsome : s.items = items := items_eq hbefore
    have happended := hconserved.append_right [item]
    rw [List.append_assoc _ s.items, hsome, ← hitems] at happended
    have hextend : history.extend s s' (.queue clientId record) =
        { history with queued := history.queued ++ [item] } := by
      rw [FiberHistory.extend, hitems, hsome, List.drop_left]
    have hset : (s.eventSet || s.process.mmpPostponedTlsList.isSome) = true := by
      rw [hbefore]
      exact Bool.or_true s.eventSet
    rw [hextend]
    subst hs'
    exact ⟨happended, hclosed, hterminated, fun _ _ => hset, hisSome, hpresent, hqueried⟩

/-- The released items leave the list and come to the others that were released. -/
theorem perm_release {queued released dropped items finished active : List PostponedTls}
    (h : queued.Perm (released ++ dropped ++ items)) (hsplit : items.Perm (finished ++ active)) :
    queued.Perm (released ++ finished ++ dropped ++ active) := by
  have hmoved : (dropped ++ (finished ++ active)).Perm (finished ++ (dropped ++ active)) := by
    rw [← List.append_assoc, ← List.append_assoc]
    exact List.perm_append_comm.append_right active
  calc queued
    _ ~ released ++ (dropped ++ items) := by rwa [← List.append_assoc]
    _ ~ released ++ (dropped ++ (finished ++ active)) :=
      (hsplit.append_left dropped).append_left released
    _ ~ released ++ (finished ++ (dropped ++ active)) := hmoved.append_left released
    _ = released ++ finished ++ dropped ++ active := by simp only [List.append_assoc]

theorem fiberSafe_pass (hsafe : FiberSafe s history) (hstep : fiberStep s .pass = some s') :
    FiberSafe s' (history.extend s s' .pass) := by
  obtain ⟨hconserved, hclosed, hterminated, hwoken, hevent, hpresent, hqueried⟩ := hsafe
  rw [fiberStep] at hstep
  split at hstep
  · have hs' : s.workerPass = s' := Option.some.inj hstep
    cases hlist : s.process.mmpPostponedTlsList with
    | none =>
      have hnone : s.items = [] := items_eq hlist
      have hextend : history.extend s s' .pass = history := by
        rw [FiberHistory.extend, hnone]
        exact congrArg (fun released => { history with released := released })
          (List.append_nil history.released)
      have hclosedEvent : s.eventOpen = false := hevent.trans (by rw [hlist]; rfl)
      rw [workerPass_none hlist] at hs'
      rw [hextend]
      subst hs'
      exact ⟨hconserved, hclosed, hterminated, nofun, hevent,
        fun hopen => absurd (hclosedEvent.symm.trans hopen) Bool.false_ne_true, hqueried⟩
    | some items =>
      have hsome : s.items = items := items_eq hlist
      have hextend : history.extend s s' .pass = { history with
          released := history.released ++ (finishedItems s.handles s.code items).map
            fun item => (item, s.handles.status item.hThread) } := by
        rw [FiberHistory.extend, hsome]
      rw [workerPass_list hlist] at hs'
      have hitems : s'.items = activeItems s.handles s.code items := by
        rw [← hs']
        rfl
      rw [hextend]
      refine ⟨?_, ?_, ?_, ?_, ?_, ?_, ?_⟩
      · rw [hitems, List.map_append, List.map_map]
        have hfirst : Prod.fst ∘ (fun item => (item, s.handles.status item.hThread)) =
            (id : PostponedTls → PostponedTls) := rfl
        rw [hfirst, List.map_id]
        exact perm_release (hsome ▸ hconserved) (activeItems_perm s.handles s.code items)
      · rw [← hs', List.map_append, List.map_map, ← hclosed]
        rfl
      · intro release hrelease
        rcases List.mem_append.mp hrelease with hold | hnew
        · exact hterminated release hold
        · obtain ⟨item, hitem, rfl⟩ := List.mem_map.mp hnew
          exact finishedItems_terminated hqueried hitem
      · intro hplace hne
        rw [hitems] at hne
        rw [← hs'] at hplace
        have hwait := WorkerPlace.waiting.inj hplace
        rw [if_neg (by rwa [List.isEmpty_iff])] at hwait
        exact absurd hwait (by decide)
      · rw [← hs']
        exact hevent.trans (by rw [hlist]; rfl)
      · intro _
        rw [← hs']
        exact nofun
      · rw [← hs']
        exact hqueried
  · cases hstep

theorem fiberStep_safe {action : FiberAction} (hsafe : FiberSafe s history)
    (haction : action.Queried) (hstep : fiberStep s action = some s') :
    FiberSafe s' (history.extend s s' action) := by
  cases action with
  | queue clientId record => exact fiberSafe_queue hsafe hstep
  | wake =>
    rw [fiberStep] at hstep
    split at hstep
    · split at hstep
      · cases hstep
        exact { hsafe with
          woken := nofun
          present := fun _ => nofun }
      · cases hstep
    · cases hstep
  | pass => exact fiberSafe_pass hsafe hstep
  | exit =>
    rw [fiberStep, onExit] at hstep
    split at hstep
    · rename_i items hlist
      cases hstep
      exact { hsafe with
        conserved := by
          have hperm := hsafe.conserved
          rw [List.append_assoc, ← List.append_nil (history.dropped ++ s.items),
            ← List.append_assoc] at hperm
          exact hperm
        woken := fun _ h => absurd rfl h
        event := rfl
        present := nofun }
    · cases hstep
  | threads handles =>
    rw [fiberStep] at hstep
    split at hstep
    · cases hstep
      exact { hsafe with queried := haction }
    · cases hstep
  | other process =>
    rw [fiberStep] at hstep
    split at hstep
    · rename_i hlist
      cases hstep
      have hitems : FiberSystem.items { s with process := process } = s.items :=
        congrArg (fun list => list.getD []) hlist
      exact { hsafe with
        conserved := hitems.symm ▸ hsafe.conserved
        woken := fun hplace hne => hsafe.woken hplace (hitems ▸ hne)
        event := hsafe.event.trans (congrArg Option.isSome hlist.symm) }
    · cases hstep

theorem fiberRun_safe {actions : List FiberAction} {history' : FiberHistory}
    (hsafe : FiberSafe s history) (hactions : ∀ action ∈ actions, action.Queried)
    (hrun : fiberRun s history actions = some (s', history')) : FiberSafe s' history' := by
  induction actions generalizing s history with
  | nil =>
    cases hrun
    exact hsafe
  | cons action rest ih =>
    rw [fiberRun] at hrun
    cases hstep : fiberStep s action with
    | none =>
      rw [hstep] at hrun
      cases hrun
    | some next =>
      rw [hstep] at hrun
      have haction := hactions action List.mem_cons_self
      have hrest := fun other hother => hactions other (List.mem_cons_of_mem action hother)
      exact ih (fiberStep_safe hsafe haction hstep) hrest hrun

theorem mmpTlsFiberInitialize_safe (process : TlsProcess) {handles : ThreadHandles} (code : Dword)
    (hqueried : ∀ hThread, handles.queried hThread = true) :
    FiberSafe (mmpTlsFiberInitialize process handles code) ⟨[], [], []⟩ where
  conserved := List.Perm.refl []
  closed := rfl
  terminated := nofun
  woken := fun _ hne => absurd rfl hne
  event := rfl
  present := fun _ => nofun
  queried := hqueried

theorem fiberStep_pass (hplace : s.place = .woken) : fiberStep s .pass = some s.workerPass := by
  rw [fiberStep, if_pos hplace]

theorem fiberStep_wake {waitTime : Dword} (hplace : s.place = .waiting waitTime)
    (hends : s.waitEnds waitTime = true) :
    fiberStep s .wake = some { s with place := .woken, eventSet := false } := by
  rw [fiberStep, hplace]
  exact if_pos hends

/-- What a terminated thread has left is released by the next pass. -/
theorem pass_releases (hsafe : FiberSafe s history) {item : PostponedTls} {exitCode : Dword}
    (hitem : item ∈ s.items) (hstatus : s.handles.status item.hThread = .terminated exitCode)
    (hcode : exitCode ≠ stillActive) :
    item ∉ s.workerPass.items ∧
      (item, .terminated exitCode) ∈ (history.extend s s.workerPass .pass).released := by
  have hqueried := hsafe.queried
  have hexit : (s.handles.status item.hThread).exitCode = exitCode := by rw [hstatus]; rfl
  obtain ⟨hfinished, hactive⟩ := finishedItems_queried hqueried s.code s.items
  have hmem : item ∈ finishedItems s.handles s.code s.items := by
    rw [hfinished, List.mem_filter, decide_eq_true_eq, hexit]
    exact ⟨hitem, hcode⟩
  have hgone : item ∉ activeItems s.handles s.code s.items := by
    rw [hactive, List.mem_filter, decide_eq_true_eq, hexit]
    exact fun h => hcode h.2
  cases hlist : s.process.mmpPostponedTlsList with
  | none =>
    rw [items_eq hlist] at hitem
    cases hitem
  | some items =>
    have hsome : s.items = items := items_eq hlist
    rw [hsome] at hgone
    refine ⟨?_, List.mem_append_right _ (List.mem_map.mpr ⟨item, hmem, by rw [hstatus]⟩)⟩
    rw [workerPass_list hlist]
    exact hgone

/-- The worker is not blocked while there is an item that it can release. -/
theorem worker_comes (hsafe : FiberSafe s history) {item : PostponedTls} {exitCode : Dword}
    (hitem : item ∈ s.items) (hstatus : s.handles.status item.hThread = .terminated exitCode)
    (hcode : exitCode ≠ stillActive) :
    ReleasedNext s history item exitCode := by
  have hopen : s.eventOpen = true := by
    rw [hsafe.event]
    cases hlist : s.process.mmpPostponedTlsList with
    | none =>
      rw [items_eq hlist] at hitem
      cases hitem
    | some items => rfl
  cases hplace : s.place with
  | ended => exact absurd hplace (hsafe.present hopen)
  | woken =>
    refine ⟨_, _, _, Or.inl rfl, ?_, pass_releases hsafe hitem hstatus hcode⟩
    rw [fiberRun, fiberStep_pass hplace]
    rfl
  | waiting waitTime =>
    have hends : s.waitEnds waitTime = true := by
      rw [FiberSystem.waitEnds]
      by_cases hwait : waitTime = infinite
      · rw [hsafe.woken (hwait ▸ hplace) (List.ne_nil_of_mem hitem)]
        rfl
      · rw [bne_iff_ne.mpr hwait, Bool.or_true]
        rfl
    let woken : FiberSystem := { s with place := .woken, eventSet := false }
    have hwake : fiberStep s .wake = some woken := fiberStep_wake hplace hends
    have hqueried : FiberAction.wake.Queried := trivial
    have hwoken : FiberSafe woken history := fiberStep_safe hsafe hqueried hwake
    have hpass : fiberStep woken .pass = some woken.workerPass := fiberStep_pass rfl
    have hreleases : item ∉ woken.workerPass.items ∧
        (item, .terminated exitCode) ∈ (history.extend woken woken.workerPass .pass).released :=
      pass_releases hwoken hitem hstatus hcode
    refine ⟨_, _, _, Or.inr rfl, ?_, hreleases⟩
    rw [fiberRun, hwake]
    dsimp only
    rw [fiberRun]
    have hextend : history.extend s woken .wake = history := rfl
    rw [hpass, hextend]
    rfl

/-- Over every interleaving of the exiting threads, the worker and the exit of the process, no
item is lost or released twice or too early, and no wake-up is lost. -/
theorem postponed_worker_protocol {process : TlsProcess} {handles : ThreadHandles} {code : Dword}
    {actions : List FiberAction} (hqueried : ∀ hThread, handles.queried hThread = true)
    (hactions : ∀ action ∈ actions, action.Queried)
    (hrun : fiberRun (mmpTlsFiberInitialize process handles code) ⟨[], [], []⟩ actions =
      some (s, history)) :
    FiberSafe s history ∧
      ∀ item ∈ s.items, ∀ exitCode, s.handles.status item.hThread = .terminated exitCode →
        exitCode ≠ stillActive → ReleasedNext s history item exitCode := by
  have hsafe := fiberRun_safe (mmpTlsFiberInitialize_safe process code hqueried) hactions hrun
  exact ⟨hsafe, fun item hitem exitCode hstatus hcode => worker_comes hsafe hitem hstatus hcode⟩

/-- A thread queues its item, the worker wakes, and then the thread is gone. -/
def sampleActions : List FiberAction :=
  [.queue 8 ⟨0x2000, 8, 0x1010, 0x2010⟩, .wake,
    .threads ⟨fun _ => .terminated 0, fun _ => true⟩]

def sampleHandles : ThreadHandles := ⟨fun _ => .running, fun _ => true⟩

def sampleRun : Option (FiberSystem × FiberHistory) :=
  fiberRun (mmpTlsFiberInitialize (oneThread [some 0x3000]) sampleHandles 0) ⟨[], [], []⟩
    sampleActions

def sampleItem : PostponedTls := ⟨8, ⟨0x2000, 8, 0x1010, 0x2010⟩, 0x3000⟩

theorem postponed_worker_protocol_sample :
    ∃ s history, sampleRun = some (s, history) ∧ s.items = [sampleItem] ∧ FiberSafe s history ∧
      ReleasedNext s history sampleItem 0 := by
  obtain ⟨⟨s, history⟩, hrun⟩ := Option.isSome_iff_exists.mp (rfl : sampleRun.isSome = true)
  have hqueried : ∀ hThread, sampleHandles.queried hThread = true := fun _ => rfl
  have hactions : ∀ action ∈ sampleActions, action.Queried := by
    simp [sampleActions, FiberAction.Queried]
  have hend : sampleRun.map (fun r => (r.1.items, r.1.handles.status 8)) =
      some ([sampleItem], .terminated 0) := rfl
  rw [hrun] at hend
  obtain ⟨hitems, hstatus⟩ := Prod.mk.inj (Option.some.inj hend)
  obtain ⟨hsafe, hcomes⟩ := postponed_worker_protocol hqueried hactions hrun
  refine ⟨s, history, hrun, hitems, hsafe, ?_⟩
  exact hcomes sampleItem (hitems ▸ List.mem_cons_self) 0 hstatus (by decide)

end WinPolyfillLoader.MmpTls
