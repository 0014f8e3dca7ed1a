import WinPolyfillLoader.Library.NestedScopes

/-!
`_except_handler3` of the 32-bit runtime, which serves the `__try` blocks of the loader. Each
function has a frame with a table of its scopes, in which an entry names the scope around it;
the handler finds that name in the first entry of the table, whatever the scope.
-/

namespace WinPolyfillLoader.Win32Crt

open NestedScopes

/-- `SCOPETABLE`; a scope without a filter is a `__finally` block. -/
structure ScopeTableEntry where
  previousTryLevel : Int
  lpfnFilter : Nat
  lpfnHandler : Nat
deriving DecidableEq, Repr

/-- `MSVCRT_EXCEPTION_FRAME`, without the links. -/
structure MsvcrtExceptionFrame where
  scopetable : Int → ScopeTableEntry
  trylevel : Int
  ebp : Nat

def tryLevelEnd : Int := -1

def exceptionContinueExecution : Int := -1
def exceptionExecuteHandler : Int := 1

/-- `_local_unwind2`; `none` if the loop still runs. The filter that it looks at, at the end
that of `scopetable[-1]`, decides nothing, and no `__finally` block is called. -/
def localUnwind2 (trylevel : Int) : Nat → MsvcrtExceptionFrame → Option MsvcrtExceptionFrame
  | 0, _ => none
  | fuel + 1, frame =>
    if frame.trylevel ≠ tryLevelEnd ∧ frame.trylevel ≠ trylevel then
      localUnwind2 trylevel fuel
        { frame with trylevel := (frame.scopetable frame.trylevel).previousTryLevel }
    else some frame

/-- What `_except_handler3` returns, or the level whose handler it calls, which does not
return. -/
inductive Disposition where
  | continueExecution (level : Int)
  | continueSearch
  | handler (level : Int)
deriving DecidableEq, Repr

/-- The loop of `_except_handler3` that hunts for a handler. -/
def huntHandler (callFilter : Nat → Nat → Int) (frame : MsvcrtExceptionFrame) :
    Nat → Int → Option Disposition
  | 0, _ => none
  | fuel + 1, trylevel =>
    if trylevel = tryLevelEnd then some .continueSearch
    else
      let scope := frame.scopetable trylevel
      let next := huntHandler callFilter frame fuel (frame.scopetable 0).previousTryLevel
      if scope.lpfnFilter ≠ 0 then
        let retval := callFilter scope.lpfnFilter frame.ebp
        if retval = exceptionContinueExecution then some (.continueExecution trylevel)
        else if retval = exceptionExecuteHandler then some (.handler trylevel)
        else next
      else next

/-- What becomes of an exception in a thread: which scope of which frame decides, counted from
the innermost, and the frames that are left for the handler. -/
inductive ThreadOutcome where
  | unhandled
  | resumed (depth : Nat) (level : Int)
  | handled (depth : Nat) (level : Int) (frames : List MsvcrtExceptionFrame)

/-- The frames inside of one that handles the exception: `RtlUnwind` calls each handler once
more, with `EH_UNWINDING`. -/
def globalUnwind2 (fuel : Nat) : List MsvcrtExceptionFrame → Option Unit
  | [] => some ()
  | frame :: rest =>
    match localUnwind2 tryLevelEnd fuel frame with
    | none => none
    | some _ => globalUnwind2 fuel rest

/-- The dispatch over the frames of the thread, of which the system calls the handlers in
turn. `passed` are those that went on with the search. -/
def dispatchException (callFilter : Nat → Nat → Int) (fuel : Nat) :
    List MsvcrtExceptionFrame → List MsvcrtExceptionFrame → Option ThreadOutcome
  | _, [] => some .unhandled
  | passed, frame :: outer =>
    match huntHandler callFilter frame fuel frame.trylevel with
    | none => none
    | some (.continueExecution level) => some (.resumed passed.length level)
    | some .continueSearch => dispatchException callFilter fuel (passed ++ [frame]) outer
    | some (.handler level) =>
      match globalUnwind2 fuel passed, localUnwind2 level fuel frame with
      | some _, some unwound =>
        some (.handled passed.length level
          ({ unwound with trylevel := (frame.scopetable 0).previousTryLevel } :: outer))
      | _, _ => none

/-- The scopes around a level, innermost first. -/
def enclosingLevels (table : Int → ScopeTableEntry) : Nat → Int → List Int
  | 0, _ => []
  | fuel + 1, level =>
    if level = tryLevelEnd then []
    else level :: enclosingLevels table fuel (table level).previousTryLevel

/-- The scopes that a frame is in. -/
def MsvcrtExceptionFrame.levels (frame : MsvcrtExceptionFrame) : List Int :=
  enclosingLevels frame.scopetable (frame.trylevel + 1).toNat frame.trylevel

structure Scope where
  depth : Nat
  frame : MsvcrtExceptionFrame
  level : Int

/-- The scopes of the frames, the first of them at this depth. -/
def scopesFrom : Nat → List MsvcrtExceptionFrame → List Scope
  | _, [] => []
  | depth, frame :: outer =>
    frame.levels.map (Scope.mk depth frame) ++ scopesFrom (depth + 1) outer

/-- What the filter of a scope says. -/
def verdictOf (callFilter : Nat → Nat → Int) (scope : Scope) : Option Verdict :=
  let entry := scope.frame.scopetable scope.level
  if entry.lpfnFilter ≠ 0 then
    let retval := callFilter entry.lpfnFilter scope.frame.ebp
    if retval = exceptionContinueExecution then some .continueExecution
    else if retval = exceptionExecuteHandler then some .executeHandler
    else some .continueSearch
  else none

/-- The table of a frame as a compiler writes it: a scope comes behind those around it. -/
structure MsvcrtExceptionFrame.Nested (frame : MsvcrtExceptionFrame) : Prop where
  level : tryLevelEnd ≤ frame.trylevel
  table : ∀ level, 0 ≤ level → level ≤ frame.trylevel →
    tryLevelEnd ≤ (frame.scopetable level).previousTryLevel ∧
      (frame.scopetable level).previousTryLevel < level

/-- The dispatch does what the nested blocks mean: the same scope decides; it runs the
`__finally` blocks, which are none where none is called, and leaves the scopes around the
handler in force. -/
def MeansSame (frames : List MsvcrtExceptionFrame) : ThreadOutcome → Outcome Scope → Prop
  | .unhandled, .unhandled => True
  | .resumed depth level, .resumed scope => depth = scope.depth ∧ level = scope.level
  | .handled depth level left, .handled finallies scope =>
    depth = scope.depth ∧ level = scope.level ∧ finallies = [] ∧
      left = { scope.frame with
          trylevel := (scope.frame.scopetable scope.level).previousTryLevel } ::
        frames.drop (scope.depth + 1)
  | _, _ => False

/-- The scope is the innermost of its frame. -/
def Scope.Innermost (scope : Scope) : Prop := scope.level = scope.frame.trylevel

/-- The exception is one for which the first entry of a table does. -/
def ServedByFirst : Outcome Scope → Prop
  | .unhandled => True
  | .resumed scope => scope.Innermost
  | .handled finallies scope => scope.Innermost ∧ finallies = [] ∧
      (scope.frame.scopetable scope.level).previousTryLevel = tryLevelEnd

def ThreadOutcome.depth : ThreadOutcome → Option Nat
  | .unhandled => none
  | .resumed depth _ => some depth
  | .handled depth _ _ => some depth

section Frame

variable {callFilter : Nat → Nat → Int} {frame : MsvcrtExceptionFrame} {fuel : Nat}

theorem MsvcrtExceptionFrame.Nested.first (h : frame.Nested)
    (hlevel : frame.trylevel ≠ tryLevelEnd) :
    (frame.scopetable 0).previousTryLevel = tryLevelEnd := by
  have hstart := h.level
  unfold tryLevelEnd at hlevel hstart ⊢
  obtain ⟨hlow, hhigh⟩ := h.table 0 (by omega) (by omega)
  unfold tryLevelEnd at hlow
  omega

theorem huntHandler_end : huntHandler callFilter frame (fuel + 1) tryLevelEnd =
    some .continueSearch := by
  rw [huntHandler, if_pos rfl]

/-- The hunt offers the exception to one filter of the frame, the innermost. -/
theorem huntHandler_run (h : frame.Nested) (hlevel : frame.trylevel ≠ tryLevelEnd) (depth : Nat) :
    huntHandler callFilter frame (fuel + 2) frame.trylevel =
      match verdictOf callFilter ⟨depth, frame, frame.trylevel⟩ with
      | some .continueExecution => some (.continueExecution frame.trylevel)
      | some .executeHandler => some (.handler frame.trylevel)
      | _ => some .continueSearch := by
  rw [huntHandler, if_neg hlevel, h.first hlevel, huntHandler_end, verdictOf]
  dsimp only
  split
  · split
    · rfl
    · split
      · rfl
      · rfl
  · rfl

theorem localUnwind2_done (trylevel : Int) (h : frame.trylevel = trylevel) :
    localUnwind2 trylevel (fuel + 1) frame = some frame := by
  rw [localUnwind2, if_neg fun hboth => hboth.2 h]

theorem localUnwind2_end (h : frame.Nested) (hfuel : frame.trylevel + 2 ≤ fuel) :
    ∃ unwound, localUnwind2 tryLevelEnd fuel frame = some unwound := by
  induction fuel generalizing frame with
  | zero =>
    have hstart := h.level
    unfold tryLevelEnd at hstart
    omega
  | succ fuel ih =>
    rw [localUnwind2]
    split
    · rename_i hlevel
      have hstart := h.level
      unfold tryLevelEnd at hlevel hstart
      obtain ⟨hlow, hhigh⟩ := h.table frame.trylevel (by omega) (by omega)
      apply ih
      · exact ⟨hlow, fun level hpos hle => h.table level hpos (by
          dsimp only at hle
          omega)⟩
      · dsimp only
        omega
    · exact ⟨frame, rfl⟩

theorem globalUnwind2_run {frames : List MsvcrtExceptionFrame}
    (h : ∀ frame ∈ frames, frame.Nested ∧ frame.trylevel + 2 ≤ fuel) :
    globalUnwind2 fuel frames = some () := by
  induction frames with
  | nil => rfl
  | cons frame rest ih =>
    obtain ⟨hnested, hfuel⟩ := h frame List.mem_cons_self
    obtain ⟨unwound, hunwound⟩ := localUnwind2_end hnested hfuel
    rw [globalUnwind2, hunwound]
    exact ih fun other hother => h other (List.mem_cons_of_mem frame hother)

theorem enclosingLevels_le {table : Int → ScopeTableEntry} {top level other : Int}
    (h : ∀ level, 0 ≤ level → level ≤ top → tryLevelEnd ≤ (table level).previousTryLevel ∧
      (table level).previousTryLevel < level)
    (hstart : tryLevelEnd ≤ level) (hle : level ≤ top)
    (hother : other ∈ enclosingLevels table fuel level) : other ≤ level := by
  induction fuel generalizing level with
  | zero => cases hother
  | succ fuel ih =>
    rw [enclosingLevels] at hother
    split at hother
    · cases hother
    · rename_i hend
      unfold tryLevelEnd at hstart hend
      rcases List.mem_cons.mp hother with rfl | houter
      · exact Int.le_refl other
      · obtain ⟨hlow, hhigh⟩ := h level (by omega) hle
        have hnext := ih hlow (by omega) houter
        omega

theorem levels_end (h : frame.trylevel = tryLevelEnd) : frame.levels = [] := by
  rw [MsvcrtExceptionFrame.levels, h]
  rfl

theorem levels_cons (h : frame.Nested) (hlevel : frame.trylevel ≠ tryLevelEnd) :
    ∃ outer, frame.levels = frame.trylevel :: outer ∧ ∀ level ∈ outer, level < frame.trylevel := by
  have hstart := h.level
  unfold tryLevelEnd at hstart
  have hend : frame.trylevel ≠ -1 := hlevel
  obtain ⟨fuel, hfuel⟩ : ∃ fuel, (frame.trylevel + 1).toNat = fuel + 1 :=
    ⟨frame.trylevel.toNat, by omega⟩
  obtain ⟨hlow, hhigh⟩ := h.table frame.trylevel (by omega) (Int.le_refl _)
  refine ⟨enclosingLevels frame.scopetable fuel
    (frame.scopetable frame.trylevel).previousTryLevel, ?_, ?_⟩
  · rw [MsvcrtExceptionFrame.levels, hfuel, enclosingLevels, if_neg hlevel]
  · intro level hmem
    have hle := enclosingLevels_le h.table hlow (by omega) hmem
    omega

end Frame

section Dispatch

variable {callFilter : Nat → Nat → Int} {fuel : Nat}

theorem meansSame_inside {frames : List MsvcrtExceptionFrame} {outcome : ThreadOutcome}
    {language : Outcome Scope} (blocks : List Scope)
    (h : MeansSame frames outcome language ↔ ServedByFirst language) :
    MeansSame frames outcome (language.inside blocks) ↔
      ServedByFirst (language.inside blocks) := by
  cases language with
  | unhandled => exact h
  | resumed scope => exact h
  | handled finallies scope =>
    cases blocks with
    | nil => exact h
    | cons block more =>
      apply iff_of_false
      · intro hsame
        cases outcome with
        | unhandled => exact hsame
        | resumed depth level => exact hsame
        | handled depth level left => exact absurd hsame.2.2.1 (List.cons_ne_nil _ _)
      · exact fun hserved => absurd hserved.2.1 (List.cons_ne_nil _ _)

/-- Neither holds where a scope decides that is not the innermost of its frame, and the
dispatch has passed the frame. -/
theorem meansSame_passed {frames : List MsvcrtExceptionFrame} {outcome : ThreadOutcome}
    {language : Outcome Scope} {scope : Scope} (hdecider : language.decider = some scope)
    (hinner : scope.level ≠ scope.frame.trylevel)
    (hdepth : ∀ depth ∈ outcome.depth, scope.depth < depth) :
    MeansSame frames outcome language ↔ ServedByFirst language := by
  apply iff_of_false
  · intro hsame
    cases language with
    | unhandled => cases hdecider
    | resumed decider =>
      cases hdecider
      cases outcome with
      | unhandled => exact hsame
      | resumed depth level => exact absurd hsame.1 (Nat.ne_of_gt (hdepth depth rfl))
      | handled depth level left => exact hsame
    | handled finallies decider =>
      cases hdecider
      cases outcome with
      | unhandled => exact hsame
      | resumed depth level => exact hsame
      | handled depth level left => exact absurd hsame.1 (Nat.ne_of_gt (hdepth depth rfl))
  · intro hserved
    cases language with
    | unhandled => cases hdecider
    | resumed decider =>
      cases hdecider
      exact hinner hserved
    | handled finallies decider =>
      cases hdecider
      exact hinner hserved.1

/-- The scopes of a frame that its innermost scope leaves to those around them. -/
theorem raiseIn_frame {depth : Nat} {frame : MsvcrtExceptionFrame} (outer : List Int)
    (scopes : List Scope)
    (hfirst : verdictOf callFilter ⟨depth, frame, frame.trylevel⟩ = some .continueSearch ∨
      verdictOf callFilter ⟨depth, frame, frame.trylevel⟩ = none) :
    let inner := (frame.trylevel :: outer).map (Scope.mk depth frame)
    (∃ blocks, raiseIn (verdictOf callFilter) (inner ++ scopes) =
        (raiseIn (verdictOf callFilter) scopes).inside blocks) ∨
      ∃ level ∈ outer, (raiseIn (verdictOf callFilter) (inner ++ scopes)).decider =
        some ⟨depth, frame, level⟩ := by
  intro inner
  by_cases hinner : raiseIn (verdictOf callFilter) inner = .unhandled
  · exact Or.inl ⟨_, raiseIn_append_unhandled scopes hinner⟩
  · rw [raiseIn_append_decided scopes hinner]
    right
    have hdecider : (raiseIn (verdictOf callFilter) inner).decider =
        (raiseIn (verdictOf callFilter) (outer.map (Scope.mk depth frame))).decider := by
      change (raiseIn (verdictOf callFilter) (⟨depth, frame, frame.trylevel⟩ ::
        outer.map (Scope.mk depth frame))).decider = _
      rw [raiseIn]
      rcases hfirst with hsearch | hfinally
      · rw [hsearch]
      · rw [hfinally]
        exact inside_decider _ _
    cases hcase : (raiseIn (verdictOf callFilter) inner).decider with
    | none =>
      exfalso
      apply hinner
      cases houtcome : raiseIn (verdictOf callFilter) inner with
      | unhandled => rfl
      | resumed scope => rw [houtcome] at hcase; cases hcase
      | handled finallies scope => rw [houtcome] at hcase; cases hcase
    | some scope =>
      have hmem := mem_of_decider (hdecider.symm.trans hcase)
      obtain ⟨level, hlevel, rfl⟩ := List.mem_map.mp hmem
      exact ⟨level, hlevel, rfl⟩

theorem dispatchException_run (callFilter : Nat → Nat → Int)
    {passed frames : List MsvcrtExceptionFrame}
    (h : ∀ frame ∈ passed ++ frames, frame.Nested ∧ frame.trylevel + 2 ≤ fuel) :
    ∃ outcome, dispatchException callFilter (fuel + 2) passed frames = some outcome ∧
      (∀ depth ∈ outcome.depth, passed.length ≤ depth) ∧
      (MeansSame (passed ++ frames) outcome
          (raiseIn (verdictOf callFilter) (scopesFrom passed.length frames)) ↔
        ServedByFirst (raiseIn (verdictOf callFilter) (scopesFrom passed.length frames))) := by
  induction frames generalizing passed with
  | nil => exact ⟨.unhandled, rfl, nofun, Iff.rfl⟩
  | cons frame outer ih =>
    have hnested := (h frame (List.mem_append_right _ List.mem_cons_self)).1
    have hmoved : passed ++ frame :: outer = passed ++ [frame] ++ outer := by simp
    obtain ⟨outcome, hrun, hdepth, hiff⟩ := ih (hmoved ▸ h)
    rw [← hmoved] at hiff
    rw [List.length_append] at hdepth hiff
    have hdeeper : ∀ depth ∈ outcome.depth, passed.length ≤ depth :=
      fun depth hmem => Nat.le_of_succ_le (hdepth depth hmem)
    by_cases hend : frame.trylevel = tryLevelEnd
    · -- the function is in no `__try` block
      have hscopes : scopesFrom passed.length (frame :: outer) =
          scopesFrom (passed.length + 1) outer := by
        rw [scopesFrom, levels_end hend]
        rfl
      refine ⟨outcome, ?_, hdeeper, hscopes ▸ hiff⟩
      rw [dispatchException, hend, huntHandler_end]
      exact hrun
    · obtain ⟨around, hlevels, hbelow⟩ := levels_cons hnested hend
      have hhunt : huntHandler callFilter frame (fuel + 2) frame.trylevel = _ :=
        huntHandler_run hnested hend passed.length
      have hscopes : scopesFrom passed.length (frame :: outer) =
          ((frame.trylevel :: around).map (Scope.mk passed.length frame)) ++
            scopesFrom (passed.length + 1) outer := by
        rw [scopesFrom, hlevels]
      have hsearches
          (hfirst : verdictOf callFilter ⟨passed.length, frame, frame.trylevel⟩ =
              some .continueSearch ∨
            verdictOf callFilter ⟨passed.length, frame, frame.trylevel⟩ = none) :
          MeansSame (passed ++ frame :: outer) outcome
              (raiseIn (verdictOf callFilter) (scopesFrom passed.length (frame :: outer))) ↔
            ServedByFirst
              (raiseIn (verdictOf callFilter) (scopesFrom passed.length (frame :: outer))) := by
        rw [hscopes]
        rcases raiseIn_frame around (scopesFrom (passed.length + 1) outer) hfirst with
          ⟨blocks, hraise⟩ | ⟨level, hlevel, hdecider⟩
        · rw [hraise]
          exact meansSame_inside blocks hiff
        · refine meansSame_passed hdecider (Int.ne_of_lt (hbelow level hlevel)) ?_
          exact fun depth hmem => Nat.lt_of_succ_le (hdepth depth hmem)
      cases hverdict : verdictOf callFilter ⟨passed.length, frame, frame.trylevel⟩ with
      | none =>
        rw [hverdict] at hhunt
        refine ⟨outcome, ?_, hdeeper, hsearches (Or.inr hverdict)⟩
        rw [dispatchException, hhunt]
        exact hrun
      | some verdict =>
        rw [hverdict] at hhunt
        cases verdict with
        | continueSearch =>
          refine ⟨outcome, ?_, hdeeper, hsearches (Or.inl hverdict)⟩
          rw [dispatchException, hhunt]
          exact hrun
        | continueExecution =>
          refine ⟨.resumed passed.length frame.trylevel, ?_, ?_, ?_⟩
          · rw [dispatchException, hhunt]
          · intro depth hmem
            cases hmem
            exact Nat.le_refl _
          · have hraise : raiseIn (verdictOf callFilter)
                (scopesFrom passed.length (frame :: outer)) =
                .resumed ⟨passed.length, frame, frame.trylevel⟩ := by
              rw [hscopes, List.map_cons, List.cons_append, raiseIn, hverdict]
            rw [hraise]
            exact iff_of_true ⟨rfl, rfl⟩ rfl
        | executeHandler =>
          have hpassed : globalUnwind2 (fuel + 2) passed = some () := by
            apply globalUnwind2_run
            intro other hother
            obtain ⟨hother, hbound⟩ := h other (List.mem_append_left _ hother)
            exact ⟨hother, by omega⟩
          have hlocal : localUnwind2 frame.trylevel (fuel + 2) frame = some frame :=
            localUnwind2_done frame.trylevel rfl
          refine ⟨.handled passed.length frame.trylevel
            ({ frame with trylevel := (frame.scopetable 0).previousTryLevel } :: outer), ?_, ?_, ?_⟩
          · rw [dispatchException, hhunt]
            dsimp only
            rw [hpassed, hlocal]
          · intro depth hmem
            cases hmem
            exact Nat.le_refl _
          · have hraise : raiseIn (verdictOf callFilter)
                (scopesFrom passed.length (frame :: outer)) =
                .handled [] ⟨passed.length, frame, frame.trylevel⟩ := by
              rw [hscopes, List.map_cons, List.cons_append, raiseIn, hverdict]
            have hrest : (passed ++ frame :: outer).drop (passed.length + 1) = outer := by
              rw [hmoved, ← List.length_singleton (a := frame), ← List.length_append,
                List.drop_left]
            rw [hraise, MeansSame, ServedByFirst, hrest, hnested.first hend]
            constructor
            · rintro ⟨_, _, _, hleft⟩
              have hframe := (List.cons.inj hleft).1
              exact ⟨rfl, rfl, (congrArg MsvcrtExceptionFrame.trylevel hframe).symm⟩
            · rintro ⟨_, _, hprevious⟩
              exact ⟨rfl, rfl, rfl, by rw [hprevious]⟩

/-- The dispatch of an exception does what the nested blocks mean if and only if the scope
that decides is the innermost of its function, no `__finally` block lies in front of it, and
none of the blocks of the function lies around a handler. -/
theorem exceptHandler3_means_same_iff {frames : List MsvcrtExceptionFrame}
    (h : ∀ frame ∈ frames, frame.Nested ∧ frame.trylevel + 2 ≤ fuel) :
    ∃ outcome, dispatchException callFilter (fuel + 2) [] frames = some outcome ∧
      (MeansSame frames outcome (raiseIn (verdictOf callFilter) (scopesFrom 0 frames)) ↔
        ServedByFirst (raiseIn (verdictOf callFilter) (scopesFrom 0 frames))) := by
  have hall : ∀ frame ∈ [] ++ frames, frame.Nested ∧ frame.trylevel + 2 ≤ (fuel : Int) := h
  obtain ⟨outcome, hrun, _, hiff⟩ := dispatchException_run callFilter hall
  exact ⟨outcome, hrun, hiff⟩

end Dispatch

/-- A function in a block with a filter that goes on with the search, inside of a block with
one that does not. -/
def nestedFrame : MsvcrtExceptionFrame where
  scopetable := fun level => ⟨level - 1, (0x10 + level).toNat, 0x1000⟩
  trylevel := 1
  ebp := 0x8000

def nestedFilter (lpfnFilter _ : Nat) : Int := if lpfnFilter = 0x10 then 1 else 0

theorem exceptHandler3_means_same_iff_nested :
    ∃ outcome, dispatchException nestedFilter 5 [] [nestedFrame] = some outcome ∧
      (MeansSame [nestedFrame] outcome
          (raiseIn (verdictOf nestedFilter) (scopesFrom 0 [nestedFrame])) ↔
        ServedByFirst (raiseIn (verdictOf nestedFilter) (scopesFrom 0 [nestedFrame]))) := by
  have hnested : nestedFrame.Nested :=
    ⟨by decide, fun level hlow _ => ⟨by change -1 ≤ level - 1; omega, by
      change level - 1 < level
      omega⟩⟩
  apply exceptHandler3_means_same_iff
  intro frame hframe
  rw [List.mem_singleton] at hframe
  subst hframe
  exact ⟨hnested, by decide⟩

/-- The block around is not found. -/
example : raiseIn (verdictOf nestedFilter) (scopesFrom 0 [nestedFrame]) =
      .handled [] ⟨0, nestedFrame, 0⟩ ∧
    dispatchException nestedFilter 5 [] [nestedFrame] = some .unhandled := ⟨rfl, rfl⟩

end WinPolyfillLoader.Win32Crt
