import WinPolyfillLoader.ImportTable.Conversation
import WinPolyfillLoader.ImportTable.UninitializedName

/-!
Where the resolution of an import table stops. Every answer is judged as it comes in, and
the first bad one is the last: its status is returned, and only the name that it was asked
with is still released.
-/

namespace WinPolyfillLoader.ImportTable

open ByteMemory LdrEntry

/-- The status that a bad answer ends the resolution with. -/
def Event.verdict (target : Target) : Event → Option NtStatus
  | .converted _ status _ => if ntSuccess status then none else some status
  | .gotHandle _ status handle =>
    if !ntSuccess status then some status
    else if handle = 0 then some statusDllNotFound
    else none
  | .freed _ => none
  | .gotAddress _ status address =>
    if !ntSuccess status then some status
    else if address % 256 ^ target.pointerSize = 0 then some statusEntrypointNotFound
    else none

def Event.write (target : Target) (m : Bytes) : Event → Bytes
  | .gotAddress funcRef status address =>
    if ntSuccess status then writeLE m funcRef target.pointerSize address else m
  | _ => m

def written (target : Target) (m : Bytes) (log : List Event) : Bytes :=
  log.foldl (Event.write target) m

def AllGood (target : Target) (log : List Event) : Prop := ∀ e ∈ log, e.verdict target = none

/-- The log has one bad answer, with this status, and behind it nothing but releases. -/
def FirstFailure (target : Target) (status : NtStatus) (log : List Event) : Prop :=
  ∃ before e after, log = before ++ e :: after ∧ AllGood target before ∧
    e.verdict target = some status ∧ ∀ x ∈ after, ∃ name, x = .freed name

/-- Each converted name is released once, right after it was used, and nothing else is. -/
inductive Released : List Event → Prop
  | nil : Released []
  | refused {log : List Event} (h : Released log) (importDesc : Nat) {status : NtStatus}
      (hfails : ntSuccess status = false) (name : List Wchar) :
      Released (log ++ [.converted importDesc status name])
  | used {log : List Event} (h : Released log) (importDesc : Nat) {status : NtStatus}
      (hok : ntSuccess status = true) (name : List Wchar) (code : NtStatus) (handle : Nat) :
      Released (log ++
        [.converted importDesc status name, .gotHandle importDesc code handle, .freed name])
  | address {log : List Event} (h : Released log) (funcRef : Nat) (status : NtStatus)
      (address : Nat) : Released (log ++ [.gotAddress funcRef status address])

def Event.convertsTo (name : List Wchar) : Event → Bool
  | .converted _ status text => ntSuccess status && text == name
  | _ => false

/-- A resolution that is under way. -/
structure Going (target : Target) (m : Bytes) (c : Progress) : Prop where
  memory : c.memory = written target m c.log
  released : Released c.log
  good : AllGood target c.log

structure Stopped (target : Target) (m : Bytes) (exit : Exit) (c : Progress) : Prop where
  memory : c.memory = written target m c.log
  released : Released c.log
  verdict : match exit with
    | .left status => (ntSuccess status = true ∧ AllGood target c.log) ∨
        FirstFailure target status c.log
    | .violation => AllGood target c.log

inductive Query where
  | name (importDesc : Nat)
  | handle (importDesc : Nat)
  | procedure (funcRef : Nat)
deriving DecidableEq, Repr

def Event.query : Event → Option Query
  | .converted importDesc _ _ => some (.name importDesc)
  | .gotHandle importDesc _ _ => some (.handle importDesc)
  | .freed _ => none
  | .gotAddress funcRef _ _ => some (.procedure funcRef)

def queries (log : List Event) : List Query := log.filterMap Event.query

/-- The queries for the thunks whose slots begin at an address. -/
def thunkQueries (target : Target) : Nat → List Thunk → List Query
  | _, [] => []
  | funcRef, _ :: ts => .procedure funcRef :: thunkQueries target (funcRef + target.pointerSize) ts

/-- The queries for the descriptors from an address on. -/
def importQueries (target : Target) (base : Nat) : Nat → List Import → List Query
  | _, [] => []
  | importDesc, d :: ds =>
    .name importDesc :: .handle importDesc ::
      (thunkQueries target (d.slots base) d.thunks ++
        importQueries target base (importDesc + 20) ds)

section Verdicts

variable {target : Target} {m : Bytes} {log : List Event}

theorem verdict_fails {e : Event} {status : NtStatus} (h : e.verdict target = some status) :
    ntSuccess status = false := by
  cases e with
  | converted importDesc code name =>
    cases hcode : ntSuccess code with
    | true => simp [Event.verdict, hcode] at h
    | false =>
      simp only [Event.verdict, hcode, Bool.false_eq_true, if_false, Option.some_inj] at h
      exact h ▸ hcode
  | gotHandle importDesc code handle =>
    cases hcode : ntSuccess code with
    | false =>
      simp only [Event.verdict, hcode, Bool.not_false, if_true, Option.some_inj] at h
      exact h ▸ hcode
    | true =>
      rcases eq_or_ne handle 0 with hnull | hnull
      · simp only [Event.verdict, hcode, hnull, Bool.not_true, Bool.false_eq_true, if_false,
          if_true, Option.some_inj] at h
        exact h ▸ rfl
      · simp [Event.verdict, hcode, hnull] at h
  | freed name => cases h
  | gotAddress funcRef code address =>
    cases hcode : ntSuccess code with
    | false =>
      simp only [Event.verdict, hcode, Bool.not_false, if_true, Option.some_inj] at h
      exact h ▸ hcode
    | true =>
      rcases eq_or_ne (address % 256 ^ target.pointerSize) 0 with hnull | hnull
      · simp only [Event.verdict, hcode, hnull, Bool.not_true, Bool.false_eq_true, if_false,
          if_true, Option.some_inj] at h
        exact h ▸ rfl
      · simp [Event.verdict, hcode, hnull] at h

theorem allGood_append {more : List Event} :
    AllGood target (log ++ more) ↔ AllGood target log ∧ AllGood target more := by
  simp only [AllGood, List.forall_mem_append]

theorem firstFailure_snoc {e : Event} {status : NtStatus} (hgood : AllGood target log)
    (h : e.verdict target = some status) : FirstFailure target status (log ++ [e]) :=
  ⟨log, e, [], rfl, hgood, h, fun _ hx => nomatch hx⟩

theorem not_allGood_of_firstFailure {status : NtStatus} (h : FirstFailure target status log) :
    ¬AllGood target log := by
  obtain ⟨before, e, after, rfl, -, hverdict, -⟩ := h
  intro hgood
  rw [hgood e (by simp)] at hverdict
  cases hverdict

theorem firstFailure_fails {status : NtStatus} (h : FirstFailure target status log) :
    ntSuccess status = false := by
  obtain ⟨_, e, _, -, -, hverdict, -⟩ := h
  exact verdict_fails hverdict

theorem written_append (more : List Event) :
    written target m (log ++ more) = written target (written target m log) more :=
  List.foldl_append

theorem count_freed (h : Released log) (name : List Wchar) :
    log.count (.freed name) = log.countP (Event.convertsTo name) := by
  induction h with
  | nil => rfl
  | refused _ importDesc hfails name' ih =>
    rw [List.count_append, List.countP_append, ih]
    simp [Event.convertsTo, hfails]
  | used _ importDesc hok name' code handle ih =>
    rw [List.count_append, List.countP_append, ih]
    rcases eq_or_ne name' name with rfl | hne
    · simp [Event.convertsTo, hok]
    · simp [Event.convertsTo, hok, hne]
  | address _ funcRef status address ih =>
    rw [List.count_append, List.countP_append, ih]
    simp [Event.convertsTo]

theorem stopped_success_iff {status : NtStatus} {c : Progress}
    (h : Stopped target m (.left status) c) :
    ntSuccess status = true ↔ AllGood target c.log := by
  rcases h.verdict with ⟨hok, hgood⟩ | hfailure
  · exact iff_of_true hok hgood
  · refine iff_of_false ?_ (not_allGood_of_firstFailure hfailure)
    rw [firstFailure_fails hfailure]
    exact Bool.false_ne_true

end Verdicts

section Runs

variable {env : Environment} {answers : Answers} {procedureNameAnsi : Uninitialized} {m : Bytes}
  {c c' : Progress} {exit : Exit} {status : NtStatus}

theorem stopped_of_going (h : Going env.target m c) (hok : ntSuccess status = true) :
    Stopped env.target m (.left status) c :=
  ⟨h.memory, h.released, Or.inl ⟨hok, h.good⟩⟩

theorem violation_of_going (h : Going env.target m c) : Stopped env.target m .violation c :=
  ⟨h.memory, h.released, h.good⟩

theorem going_address (h : Going env.target m c) (funcRef : Nat) {address : Nat}
    (hok : ntSuccess status = true) (hnull : address % 256 ^ env.target.pointerSize ≠ 0) :
    Going env.target m ⟨writeLE c.memory funcRef env.target.pointerSize address,
      c.log ++ [.gotAddress funcRef status address]⟩ where
  memory := by
    rw [written_append, ← h.memory]
    simp [written, Event.write, hok]
  released := .address h.released funcRef status address
  good := by
    refine allGood_append.mpr ⟨h.good, ?_⟩
    intro e he
    rw [List.mem_singleton.mp he]
    simp [Event.verdict, hok, hnull]

theorem askThunks_stops {handle fuel thunkRef funcRef : Nat} (hgoing : Going env.target m c)
    (hok : ntSuccess status = true)
    (h : askThunks env answers procedureNameAnsi handle fuel status thunkRef funcRef c =
      some (exit, c')) : Stopped env.target m exit c' := by
  induction fuel generalizing status thunkRef funcRef c with
  | zero => cases h
  | succ fuel ih =>
    cases hthunk : load env.mapped c.memory thunkRef env.target.pointerSize with
    | none =>
      simp only [askThunks, hthunk] at h
      cases h
      exact violation_of_going hgoing
    | some thunk =>
      rcases eq_or_ne thunk 0 with rfl | hnonzero
      · simp only [askThunks, hthunk] at h
        cases h
        exact stopped_of_going hgoing hok
      · rcases hcall : getProcedureAddress (env.after answers c.log) procedureNameAnsi handle thunk
          funcRef with ⟨code, address⟩
        rw [askThunks_turn answers hnonzero hthunk hcall] at h
        cases hcode : ntSuccess code with
        | false =>
          rw [hcode] at h
          cases h
          refine ⟨?_, .address hgoing.released funcRef code address, Or.inr ?_⟩
          · rw [Progress.say, written_append, ← hgoing.memory]
            simp [written, Event.write, hcode]
          · exact firstFailure_snoc hgoing.good (by simp [Event.verdict, hcode])
        | true =>
          rw [hcode, if_neg (by decide), store] at h
          split at h
          · cases h
            exact violation_of_going hgoing
          · rename_i m₁ hstore
            have hm₁ : m₁ = writeLE c.memory funcRef env.target.pointerSize address := by
              split at hstore
              · exact (Option.some_inj.mp hstore).symm
              · cases hstore
            subst hm₁
            rw [readLE_writeLE] at h
            rcases eq_or_ne (address % 256 ^ env.target.pointerSize) 0 with hnull | hnull
            · rw [if_pos hnull] at h
              cases h
              refine ⟨?_, .address hgoing.released funcRef code address, Or.inr ?_⟩
              · rw [Progress.say, written_append, ← hgoing.memory]
                simp [written, Event.write, hcode]
              · exact firstFailure_snoc hgoing.good (by simp [Event.verdict, hcode, hnull])
            · rw [if_neg hnull] at h
              exact ih (going_address hgoing funcRef hcode hnull) hcode h

/-- The log of a query for a handle, with the conversion before it and the release after it. -/
def handleQuery (importDesc : Nat) (code : NtStatus) (name : List Wchar) (answer : NtStatus)
    (handle : Nat) : List Event :=
  [.converted importDesc code name, .gotHandle importDesc answer handle, .freed name]

/-- The ways out of the queries for a DLL, once its name has been read. -/
inductive DllExit (importDesc : Nat) (c : Progress) :
    Except Exit (NtStatus × Nat) × Progress → Prop where
  | refused {code : NtStatus} (hcode : ntSuccess code = false) (name : List Wchar) :
      DllExit importDesc c (.error (.left code),
        ⟨c.memory, c.log ++ [.converted importDesc code name]⟩)
  | failed {code answer : NtStatus} (hcode : ntSuccess code = true) (name : List Wchar)
      (hanswer : ntSuccess answer = false) (handle : Nat) :
      DllExit importDesc c (.error (.left answer),
        ⟨c.memory, c.log ++ handleQuery importDesc code name answer handle⟩)
  | null {code answer : NtStatus} (hcode : ntSuccess code = true) (name : List Wchar)
      (hanswer : ntSuccess answer = true) :
      DllExit importDesc c (.error (.left statusDllNotFound),
        ⟨c.memory, c.log ++ handleQuery importDesc code name answer 0⟩)
  | found {code answer : NtStatus} (hcode : ntSuccess code = true) (name : List Wchar)
      (hanswer : ntSuccess answer = true) {handle : Nat} (hhandle : handle ≠ 0) :
      DllExit importDesc c (.ok (answer, handle),
        ⟨c.memory, c.log ++ handleQuery importDesc code name answer handle⟩)

theorem askDll_exits (answers : Answers) (importDesc : Nat) {nameAddress : Nat}
    {dllName : List UInt8}
    (hname : rtlInitAnsiString env.mapped c.memory nameAddress = some dllName) :
    DllExit importDesc c (askDll env answers importDesc nameAddress c) := by
  unfold askDll
  rw [hname]
  rcases hconvert : (answers c.log).rtlAnsiStringToUnicodeString dllName with ⟨code, name⟩
  cases hcode : ntSuccess code with
  | false =>
    simp only [hconvert, hcode, Bool.not_false, if_true]
    exact .refused hcode name
  | true =>
    rcases hget : (answers (c.say (.converted importDesc code name)).log).ldrGetDllHandle name
      with ⟨answer, handle⟩
    have hlog : ((c.say (.converted importDesc code name)).say
        (.gotHandle importDesc answer handle)).say (.freed name) =
        ⟨c.memory, c.log ++ handleQuery importDesc code name answer handle⟩ := by
      simp [Progress.say, handleQuery]
    simp only [hconvert, hcode, hget, hlog, Bool.not_true, Bool.false_eq_true, if_false]
    cases hanswer : ntSuccess answer with
    | false =>
      simp only [Bool.not_false, if_true]
      exact .failed hcode name hanswer handle
    | true =>
      simp only [Bool.not_true, Bool.false_eq_true, if_false]
      rcases eq_or_ne handle 0 with rfl | hhandle
      · rw [if_pos rfl]
        exact .null hcode name hanswer
      · rw [if_neg hhandle]
        exact .found hcode name hanswer hhandle

section HandleQuery

variable {importDesc : Nat} {code answer : NtStatus} {handle : Nat}

theorem handleQuery_written (hgoing : Going env.target m c) (importDesc : Nat)
    (hcode : ntSuccess code = true) (name : List Wchar) (answer : NtStatus) (handle : Nat) :
    c.memory = written env.target m
        (c.log ++ handleQuery importDesc code name answer handle) ∧
      Released (c.log ++ handleQuery importDesc code name answer handle) := by
  constructor
  · rw [written_append, ← hgoing.memory]
    rfl
  · exact Released.used hgoing.released importDesc hcode name answer handle

/-- A bad answer is followed by the release of the name that it was asked with. -/
theorem handleQuery_stops (hgoing : Going env.target m c) (hcode : ntSuccess code = true)
    (name : List Wchar) {status : NtStatus}
    (h : (Event.gotHandle importDesc answer handle).verdict env.target = some status) :
    Stopped env.target m (.left status)
      ⟨c.memory, c.log ++ handleQuery importDesc code name answer handle⟩ := by
  obtain ⟨hmemory, hreleased⟩ := handleQuery_written hgoing importDesc hcode name answer handle
  refine ⟨hmemory, hreleased, Or.inr ⟨c.log ++ [.converted importDesc code name],
    .gotHandle importDesc answer handle, [.freed name], by simp [handleQuery], ?_, h, by simp⟩⟩
  refine allGood_append.mpr ⟨hgoing.good, ?_⟩
  intro e he
  rw [List.mem_singleton.mp he]
  simp [Event.verdict, hcode]

end HandleQuery

theorem askDll_stops (answers : Answers) (importDesc nameAddress : Nat)
    (hgoing : Going env.target m c) :
    match askDll env answers importDesc nameAddress c with
    | (.error exit, c') => Stopped env.target m exit c'
    | (.ok (status, _), c') => Going env.target m c' ∧ ntSuccess status = true := by
  cases hname : rtlInitAnsiString env.mapped c.memory nameAddress with
  | none =>
    simp only [askDll, hname]
    exact violation_of_going hgoing
  | some dllName =>
    have hexits := askDll_exits answers importDesc hname
    generalize askDll env answers importDesc nameAddress c = result at hexits ⊢
    cases hexits with
    | refused hcode name =>
      refine ⟨?_, .refused hgoing.released importDesc hcode name, Or.inr ?_⟩
      · rw [written_append, ← hgoing.memory]
        rfl
      · exact firstFailure_snoc hgoing.good (by simp [Event.verdict, hcode])
    | failed hcode name hanswer handle =>
      exact handleQuery_stops hgoing hcode name (by simp [Event.verdict, hanswer])
    | null hcode name hanswer =>
      exact handleQuery_stops hgoing hcode name (by simp [Event.verdict, hanswer])
    | found hcode name hanswer hhandle =>
      obtain ⟨hmemory, hreleased⟩ := handleQuery_written hgoing importDesc hcode name _ _
      refine ⟨⟨hmemory, hreleased, allGood_append.mpr ⟨hgoing.good, ?_⟩⟩, hanswer⟩
      simp [AllGood, handleQuery, Event.verdict, hcode, hanswer, hhandle]

theorem askDescriptors_stops {base fuel importDesc : Nat} (hgoing : Going env.target m c)
    (hok : ntSuccess status = true)
    (h : askDescriptors env answers procedureNameAnsi base fuel status importDesc c =
      some (exit, c')) : Stopped env.target m exit c' := by
  induction fuel generalizing status importDesc c with
  | zero => cases h
  | succ fuel ih =>
    rw [askDescriptors] at h
    split at h
    · cases h
      exact violation_of_going hgoing
    · cases h
      exact stopped_of_going hgoing hok
    · rename_i name _ _
      have hdll := askDll_stops answers importDesc (base + name) hgoing
      rcases hask : askDll env answers importDesc (base + name) c with ⟨answer, c₁⟩
      rw [hask] at h hdll
      cases answer with
      | error exit' =>
        cases h
        exact hdll
      | ok found =>
        obtain ⟨code, handle⟩ := found
        obtain ⟨hgoing₁, hcode⟩ := hdll
        dsimp only at h
        split at h
        · split at h
          · cases h
          · rename_i hthunks
            cases h
            exact askThunks_stops hgoing₁ hcode hthunks
          · rename_i status₂ c₂ hthunks
            have hstopped := askThunks_stops hgoing₁ hcode hthunks
            cases hstatus₂ : ntSuccess status₂ with
            | false =>
              rw [hstatus₂] at h
              cases h
              exact hstopped
            | true =>
              rw [hstatus₂, if_neg (by decide)] at h
              have hgood := (stopped_success_iff hstopped).mp hstatus₂
              exact ih ⟨hstopped.memory, hstopped.released, hgood⟩ hstatus₂ h
        · cases h
          exact violation_of_going hgoing₁

theorem askImports_stops {fuel base : Nat} {ntHeaders : NtHeaders}
    (h : askImports env answers procedureNameAnsi fuel base ntHeaders m = some (exit, c)) :
    Stopped env.target m exit c := by
  have hstart : Going env.target m ⟨m, []⟩ := ⟨rfl, .nil, fun _ he => nomatch he⟩
  unfold askImports at h
  split at h
  · dsimp only at h
    split at h
    · exact askDescriptors_stops hstart rfl h
    · cases h
      exact stopped_of_going hstart rfl
  · cases h
    exact stopped_of_going hstart rfl

end Runs

/-- What was asked since is the start of the expected queries, and all of them after a
success. -/
def Covers (expected : List Query) (status : NtStatus) (c c' : Progress) : Prop :=
  ∃ said, c'.log = c.log ++ said ∧ queries said <+: expected ∧
    (ntSuccess status = true → queries said = expected)

section Coverage

variable {env : Environment} {answers : Answers} {m : Bytes} {c c' c₁ : Progress}
  {status : NtStatus} {expected later : List Query}

theorem queries_append (log more : List Event) :
    queries (log ++ more) = queries log ++ queries more :=
  List.filterMap_append

theorem importQueries_cons (target : Target) (base importDesc : Nat) (d : Import)
    (ds : List Import) :
    importQueries target base importDesc (d :: ds) = [.name importDesc, .handle importDesc] ++
      (thunkQueries target (d.slots base) d.thunks ++
        importQueries target base (importDesc + 20) ds) := rfl

theorem covers_nil : Covers [] status c c := ⟨[], by simp, List.nil_prefix, fun _ => rfl⟩

theorem covers_of_failure {said : List Event} (hlog : c'.log = c.log ++ said)
    (hfront : queries said <+: expected) (hfails : ntSuccess status = false) :
    Covers expected status c c' :=
  ⟨said, hlog, hfront, fun hok => by rw [hfails] at hok; cases hok⟩

/-- After queries that have all been asked the later ones follow. -/
theorem covers_append {said : List Event} (hlog : c₁.log = c.log ++ said)
    (hall : queries said = expected) (h : Covers later status c₁ c') :
    Covers (expected ++ later) status c c' := by
  obtain ⟨more, hmore, hfront, hsuccess⟩ := h
  refine ⟨said ++ more, by rw [hmore, hlog, List.append_assoc], ?_, ?_⟩
  · rw [queries_append, hall]
    exact (List.prefix_append_right_inj expected).mpr hfront
  · intro hok
    rw [queries_append, hall, hsuccess hok]

theorem covers_front (h : Covers expected status c c') (hfails : ntSuccess status = false) :
    Covers (expected ++ later) status c c' := by
  obtain ⟨said, hlog, hfront, -⟩ := h
  exact covers_of_failure hlog (hfront.trans (List.prefix_append _ _)) hfails

/-- The thunk loop asks for the thunks one after the other, and leaves the memory outside
their slots. -/
theorem askThunks_covers (answers : Answers) (c : Progress) (procedureNameAnsi : Uninitialized)
    (handle : Nat) {ts : List Thunk} {fuel thunkRef funcRef : Nat}
    (hts : ThunksAt env c.memory thunkRef ts)
    (hslots : accessible env.mapped funcRef (env.target.pointerSize * ts.length) = true)
    (hapart : thunkRef = funcRef ∨ Apart thunkRef (env.target.pointerSize * (ts.length + 1))
      funcRef (env.target.pointerSize * ts.length))
    (hok : ntSuccess status = true) (hfuel : ts.length < fuel) :
    ∃ status' c',
      askThunks env answers procedureNameAnsi handle fuel status thunkRef funcRef c =
        some (.left status', c') ∧
      (∀ k, k < funcRef ∨ funcRef + env.target.pointerSize * ts.length ≤ k →
        c'.memory k = c.memory k) ∧
      Covers (thunkQueries env.target funcRef ts) status' c c' := by
  induction ts generalizing fuel status thunkRef funcRef c with
  | nil =>
    obtain ⟨fuel, rfl⟩ := Nat.exists_eq_succ_of_ne_zero (Nat.ne_of_gt hfuel)
    have hend : load env.mapped c.memory thunkRef env.target.pointerSize = some 0 := hts
    refine ⟨status, c, ?_, fun _ _ => rfl, covers_nil⟩
    simp only [askThunks, hend]
  | cons t ts ih =>
    obtain ⟨fuel, rfl⟩ := Nat.exists_eq_succ_of_ne_zero (n := fuel) (by omega)
    obtain ⟨hvalue, hnonzero, hrest⟩ := hts
    have hpos := pointerSize_pos env.target
    simp only [List.length_cons, Nat.mul_succ] at hslots hapart hfuel ⊢
    rw [Nat.add_comm, accessible_add, Bool.and_eq_true] at hslots
    obtain ⟨hslot, hslots⟩ := hslots
    rcases hcall : getProcedureAddress (env.after answers c.log) procedureNameAnsi handle t.value
      funcRef with ⟨code, address⟩
    have hfirst : queries [.gotAddress funcRef code address] = [.procedure funcRef] := rfl
    rw [askThunks_turn answers hnonzero hvalue hcall]
    cases hcode : ntSuccess code with
    | false =>
      refine ⟨code, _, rfl, fun _ _ => rfl, covers_of_failure rfl ?_ hcode⟩
      rw [hfirst]
      exact List.cons_prefix_cons.mpr ⟨rfl, List.nil_prefix⟩
    | true =>
      rw [if_neg (by decide), store, if_pos hslot]
      dsimp only
      have houtside : ∀ k, k < funcRef ∨ funcRef + env.target.pointerSize ≤ k →
          writeLE c.memory funcRef env.target.pointerSize address k = c.memory k :=
        fun k hk => writeLE_outside c.memory hk
      split
      · refine ⟨_, _, rfl, fun k hk => houtside k (by omega), covers_of_failure rfl ?_ rfl⟩
        rw [hfirst]
        exact List.cons_prefix_cons.mpr ⟨rfl, List.nil_prefix⟩
      · -- the write to this slot leaves the thunks that are still to be read
        have hrest' : ThunksAt env (writeLE c.memory funcRef env.target.pointerSize address)
            (thunkRef + env.target.pointerSize) ts := by
          apply thunksAt_congr hrest
          intro k hk hkn
          rw [Nat.mul_succ] at hkn
          unfold Apart at hapart
          exact (houtside k (by omega)).symm
        have hapart' : thunkRef + env.target.pointerSize = funcRef + env.target.pointerSize ∨
            Apart (thunkRef + env.target.pointerSize) (env.target.pointerSize * (ts.length + 1))
              (funcRef + env.target.pointerSize) (env.target.pointerSize * ts.length) := by
          rw [Nat.mul_succ]
          unfold Apart at hapart ⊢
          omega
        have hfuel' : ts.length < fuel := by omega
        obtain ⟨status', c', hrun, hframe, hcovers⟩ :=
          ih (c := Progress.say { c with
            memory := writeLE c.memory funcRef env.target.pointerSize address }
            (.gotAddress funcRef code address)) hrest' hslots hapart' hcode hfuel'
        refine ⟨status', c', hrun, ?_, covers_append rfl hfirst hcovers⟩
        intro k hk
        rw [hframe k (by omega)]
        exact houtside k (by omega)

/-- The queries for a DLL end with its handle, or after one of them. -/
theorem askDll_covers (answers : Answers) (importDesc : Nat) {nameAddress : Nat}
    {dllName : List UInt8}
    (hname : rtlInitAnsiString env.mapped c.memory nameAddress = some dllName) :
    ∃ said, (askDll env answers importDesc nameAddress c).2 = ⟨c.memory, c.log ++ said⟩ ∧
      match (askDll env answers importDesc nameAddress c).1 with
      | .error exit => ∃ status, exit = .left status ∧ ntSuccess status = false ∧
          queries said <+: [.name importDesc, .handle importDesc]
      | .ok (status, _) => ntSuccess status = true ∧
          queries said = [.name importDesc, .handle importDesc] := by
  have hexits := askDll_exits answers importDesc hname
  generalize askDll env answers importDesc nameAddress c = result at hexits ⊢
  cases hexits with
  | refused hcode name =>
    refine ⟨_, rfl, _, rfl, hcode, ?_⟩
    exact List.cons_prefix_cons.mpr ⟨rfl, List.nil_prefix⟩
  | failed _ _ hanswer => exact ⟨_, rfl, _, rfl, hanswer, List.prefix_rfl⟩
  | null => exact ⟨_, rfl, _, rfl, rfl, List.prefix_rfl⟩
  | found _ _ hanswer => exact ⟨_, rfl, hanswer, rfl⟩

theorem askDescriptors_turn (procedureNameAnsi : Uninitialized) {base fuel importDesc : Nat}
    {d : Import} {said : List Event} {found : Except Exit (NtStatus × Nat)}
    (h : ImportAt env c.memory base importDesc d)
    (hdll : askDll env answers importDesc (base + d.name) c = (found, ⟨c.memory, c.log ++ said⟩)) :
    askDescriptors env answers procedureNameAnsi base (fuel + 1) status importDesc c =
      match found with
      | .error exit => some (exit, ⟨c.memory, c.log ++ said⟩)
      | .ok (status, handle) =>
        match askThunks env answers procedureNameAnsi handle fuel status (d.lookup base)
          (d.slots base) ⟨c.memory, c.log ++ said⟩ with
        | none => none
        | some (.violation, c) => some (.violation, c)
        | some (.left status, c) =>
          if !ntSuccess status then some (.left status, c)
          else
            askDescriptors env answers procedureNameAnsi base fuel status (importDesc + 20) c := by
  have hname := h.name
  obtain ⟨n, hn⟩ := Nat.exists_eq_succ_of_ne_zero h.named
  rw [hn] at hname hdll
  cases found with
  | error exit => simp only [askDescriptors, hname, hdll]
  | ok found =>
    simp only [askDescriptors, hname, hdll, h.originalFirstThunk, h.firstThunk]
    rfl

/-- The descriptor loop asks for the descriptors one after the other. -/
theorem askDescriptors_covers (procedureNameAnsi : Uninitialized) {base : Nat} {ds : List Import}
    {fuel importDesc : Nat} (h : DirectoryAt env c.memory base importDesc ds)
    (hseparate : Separate env base importDesc ds) (hok : ntSuccess status = true)
    (hfuel : ds.length < fuel) (hthunks : ∀ d ∈ ds, ds.length + d.thunks.length < fuel) :
    ∃ status' c',
      askDescriptors env answers procedureNameAnsi base fuel status importDesc c =
        some (.left status', c') ∧
      Covers (importQueries env.target base importDesc ds) status' c c' := by
  induction ds generalizing fuel status importDesc c with
  | nil =>
    obtain ⟨fuel, rfl⟩ := Nat.exists_eq_succ_of_ne_zero (Nat.ne_of_gt hfuel)
    have hend : load env.mapped c.memory (importDesc + 12) 4 = some 0 := h
    refine ⟨status, c, ?_, covers_nil⟩
    simp only [askDescriptors, hend]
  | cons d ds ih =>
    obtain ⟨fuel, rfl⟩ := Nat.exists_eq_succ_of_ne_zero (n := fuel) (by omega)
    obtain ⟨hfirst, hrest⟩ := h
    obtain ⟨hown, htable, hlater, hseparate⟩ := hseparate
    rw [List.length_cons] at hfuel
    obtain ⟨said, hstate, hfound⟩ := askDll_covers answers importDesc hfirst.dllName
    rcases hask : askDll env answers importDesc (base + d.name) c with ⟨found, c₁⟩
    rw [hask] at hstate hfound
    have hstate : c₁ = ⟨c.memory, c.log ++ said⟩ := hstate
    rw [hstate] at hask
    rw [askDescriptors_turn procedureNameAnsi hfirst hask]
    cases found with
    | error exit =>
      obtain ⟨code, rfl, hfails, hfront⟩ := hfound
      exact ⟨code, _, rfl, covers_of_failure rfl (hfront.trans (List.prefix_append _ _)) hfails⟩
    | ok found =>
      obtain ⟨code, handle⟩ := found
      obtain ⟨hcode, hall⟩ := hfound
      have hfuel' : d.thunks.length < fuel := by
        have hbound := hthunks d List.mem_cons_self
        rw [List.length_cons] at hbound
        omega
      obtain ⟨status₁, c₂, hrun₁, hframe₁, hcovers₁⟩ :=
        askThunks_covers answers ⟨c.memory, c.log ++ said⟩ procedureNameAnsi handle
          hfirst.thunks hfirst.slots hown hcode hfuel'
      dsimp only
      rw [hrun₁]
      dsimp only
      cases hstatus₁ : ntSuccess status₁ with
      | false =>
        refine ⟨status₁, c₂, rfl, ?_⟩
        rw [importQueries_cons]
        exact covers_append rfl hall (covers_front hcovers₁ hstatus₁)
      | true =>
        have hrest₁ : DirectoryAt env c₂.memory base (importDesc + 20) ds := by
          apply directoryAt_congr hrest hframe₁ htable
          exact fun e he => ⟨(hlater e he).1, (hlater e he).2.1⟩
        have hthunks₁ : ∀ e ∈ ds, ds.length + e.thunks.length < fuel := by
          intro e he
          have hbound := hthunks e (List.mem_cons_of_mem d he)
          rw [List.length_cons] at hbound
          omega
        have hfuel₁ : ds.length < fuel := by omega
        obtain ⟨status', c', hrun, hcovers⟩ := ih hrest₁ hseparate hstatus₁ hfuel₁ hthunks₁
        obtain ⟨more, hmore, -, hthunksAll⟩ := hcovers₁
        refine ⟨status', c', hrun, ?_⟩
        rw [importQueries_cons]
        exact covers_append rfl hall (covers_append hmore (hthunksAll hstatus₁) hcovers)

end Coverage

end WinPolyfillLoader.ImportTable
