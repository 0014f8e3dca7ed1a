import WinPolyfillLoader.Loader.StackProcess
import WinPolyfillLoader.Loader.Unload

/-!
A load on the mapped path. `firstFailure` names the first helper that fails; the
steps of the path keep a module that is under way, so that a load that ends
with a failure calls the unload in a state whose flags say what was done.
-/

namespace WinPolyfillLoader.Loader

open LdrEntry EarlyExit

variable {δ ι τ ρ : Type}

/-- The flags after the test for `IMAGE_DLLCHARACTERISTICS_NO_SEH`. -/
def effectiveFlags (request : LoadRequest) (headers : ImageHeaders) : Dword :=
  if headers.dllCharacteristics &&& imageDllcharacteristicsNoSeh != 0 then
    request.dwFlags ||| loadFlagsNotAddInvertedFunction
  else request.dwFlags

/-- The request passes the checks and does not ask for an unmapped load. -/
structure Checked (H : Helpers δ ι τ ρ) (request : LoadRequest) : Prop where
  bufferSize : request.bufferSize = 0
  buffer : ntSuccess (checkBuffer H request) = true
  mapDll : hasFlag request.dwFlags loadFlagsNotMapDll = false
  names : hasFlag request.dwFlags loadFlagsUseDllName = true →
    request.dllName.isSome = true ∧ request.dllFullName.isSome = true

/-- The request reaches the mapped path with a new image at `base`. -/
structure MappedLoad (H : Helpers δ ι τ ρ) (request : LoadRequest) (start : Process δ ι τ ρ)
    (base : Nat) (headers : ImageHeaders) (regions : ρ) : Prop where
  checked : Checked H request
  notLoaded : ∀ dllName, request.dllName = some dllName →
    ∃ h1, H.rtlImageNtHeader start.regions request.bufferAddress = some h1 ∧
      scanLoaded H dllName h1 start (H.inLoadOrderModuleList start.database) = none
  library : ∃ status, H.memoryLoadLibrary request.bufferAddress start.regions =
    (status, base, regions) ∧ ntSuccess status = true ∧ status ≠ statusImageMachineTypeMismatch
  image : H.rtlImageNtHeader regions base = some headers

theorem normalizeRequest_mapped {request : LoadRequest}
    (hflag : hasFlag request.dwFlags loadFlagsNotMapDll = false) :
    normalizeRequest request = request := by
  rw [normalizeRequest, hflag]
  rfl

theorem normalizeRequest_unmapped {request : LoadRequest}
    (hflag : hasFlag request.dwFlags loadFlagsNotMapDll = true) :
    normalizeRequest request = { request with
      dwFlags := request.dwFlags &&& loadFlagsNotMapDll, dllName := none, dllFullName := none } := by
  rw [normalizeRequest, if_pos hflag]

theorem hasFlag_normalizeRequest (request : LoadRequest) :
    hasFlag (normalizeRequest request).dwFlags loadFlagsNotMapDll =
      hasFlag request.dwFlags loadFlagsNotMapDll := by
  cases hflag : hasFlag request.dwFlags loadFlagsNotMapDll with
  | true =>
    rw [normalizeRequest_unmapped hflag, ← hflag, hasFlag, BitVec.and_assoc, BitVec.and_self,
      hasFlag]
  | false => rw [normalizeRequest_mapped hflag, hflag]

theorem ldrLoadDllMemoryExW_checked {H : Helpers δ ι τ ρ} {request : LoadRequest}
    {p : Process δ ι τ ρ} (h : Checked H request) :
    ldrLoadDllMemoryExW H request p =
      match request.dllName with
      | none => loadImage H request p
      | some dllName =>
        match H.rtlImageNtHeader p.regions request.bufferAddress with
        | none => .ok ⟨statusInvalidImageFormat, 0, 0, p⟩
        | some h1 =>
          match scanLoaded H dllName h1 p (H.inLoadOrderModuleList p.database) with
          | some (entry, module) => .ok (reuseModule H request entry module p)
          | none => loadImage H request p := by
  have hnormal : normalizeRequest request = request := normalizeRequest_mapped h.mapDll
  have hnames : (hasFlag request.dwFlags loadFlagsUseDllName &&
      (request.dllName.isNone || request.dllFullName.isNone)) = false := by
    cases hflag : hasFlag request.dwFlags loadFlagsUseDllName with
    | false => rfl
    | true =>
      obtain ⟨hname, hfull⟩ := h.names hflag
      simp [hname, hfull]
  simp only [ldrLoadDllMemoryExW, h.bufferSize, h.buffer, hnormal, hnames, Bool.not_true]
  rfl

def freshModule (base : Nat) : MemoryModule :=
  ⟨base, 0, true, false, false, false, false, false, false⟩

def tlsStatus (H : Helpers δ ι τ ρ) (entry : Nat) (start : Process δ ι τ ρ) : NtStatus :=
  (H.mmpHandleTlsData entry start.tlsList).1

/-- The failure of the helper on the mapped path that fails first. -/
def firstFailure (H : Helpers δ ι τ ρ) (request : LoadRequest) (headers : ImageHeaders)
    (base : Nat) (regions : ρ) (start : Process δ ι τ ρ) : Option NtStatus :=
  let dwFlags := effectiveFlags request headers
  let mapped := H.ldrMapDllMemory base headers dwFlags request.dllName request.dllFullName
    start.database
  let resolved := H.memoryResolveImportTable base regions
  failureOf ntSuccess mapped.1 <|> failureOf ntSuccess resolved.1 <|>
    failureOf ntSuccess (H.memorySetSectionProtection base resolved.2).1 <|>
    (if hasFlag dwFlags loadFlagsNotAddInvertedFunction then none
      else failureOf ntSuccess
        (H.rtlInsertInvertedFunctionTable base headers.sizeOfImage start.invertedTable).1) <|>
    (if hasFlag dwFlags loadFlagsNotHandleTls || hasFlag dwFlags loadFlagsNotFailIfHandleTls then
      none
      else failureOf ntSuccess (tlsStatus H mapped.2.1 start)) <|>
    (if H.ldrpExecuteTls base && (H.ldrpCallInitializers base).1 then none
      else some statusDllInitFailed)

/-- The module `m` is under way at `base`, with the image in `regions`. -/
structure Stage (H : Helpers δ ι τ ρ) (base : Nat) (headers : ImageHeaders)
    (start : Process δ ι τ ρ) (m : MemoryModule) (regions : ρ) (p : Process δ ι τ ρ) : Prop where
  loaded : Loaded H base headers 1 start p m
  regions : p.regions = regions
  events : p.events = start.events ++ m.completed.map (.did · base)

/-- What a failed step leaves: a module that was not initialised. -/
def UnderWay (H : Helpers δ ι τ ρ) (base : Nat) (headers : ImageHeaders)
    (start p : Process δ ι τ ρ) : Prop :=
  ∃ m regions, Stage H base headers start m regions p ∧ m.initialized = false

section Steps

variable {H : Helpers δ ι τ ρ} {request : LoadRequest} {dwFlags : Dword}
  {base entry : Nat} {headers : ImageHeaders} {start p : Process δ ι τ ρ} {m : MemoryModule}
  {regions : ρ}

theorem updateModule_eq (h : Loaded H base headers 1 start p m) (f : MemoryModule → MemoryModule)
    (q : Process δ ι τ ρ) (hq : q.modules = p.modules) :
    updateModule base f q =
      { q with modules := Function.update p.modules base (some (f m)) } := by
  simp [updateModule, Process.setModule, hq, h.module]

theorem others_update (h : Loaded H base headers 1 start p m) (m' : MemoryModule) :
    ∀ b ≠ base, Function.update p.modules base (some m') b = start.modules b := by
  intro b hb
  rw [Function.update_of_ne hb]
  exact h.others b hb

theorem mapDllStep_succeeds (laws : H.MapLaws) (hmapped : m.mappedDll = false) :
    Succeeds ntSuccess (mapDllStep H request dwFlags headers base)
      (Stage H base headers start m regions)
      (Stage H base headers start { m with
        mappedDll := true
        ldrEntry := (H.ldrMapDllMemory base headers dwFlags request.dllName
          request.dllFullName start.database).2.1 } regions) := by
  rcases hmap : H.ldrMapDllMemory base headers dwFlags request.dllName request.dllFullName
    start.database with ⟨status, entry, database⟩
  intro _ p h hsuccess
  obtain ⟨hdatabase, hinserted, hhandled⟩ := h.loaded.unmapped hmapped
  have hok : ntSuccess status = true := by
    simp only [mapDllStep, hdatabase, hmap] at hsuccess
    split at hsuccess <;> exact hsuccess
  obtain ⟨_, _, _, hcount⟩ := laws.map_entry hmap hok
  simp only [mapDllStep, hdatabase, hmap, hok, if_true]
  rw [updateModule_eq h.loaded _ _ (by rfl)]
  constructor
  · exact { h.loaded with
      module := by simp [Process.log]
      unmapped := by simp
      mapped := fun _ => ⟨_, _, _, _, _, hmap, hok, .refl _, hcount⟩
      inserted := by simp [hinserted]
      handled := by simp [hhandled]
      others := others_update h.loaded _ }
  · exact h.regions
  · simp [Process.log, h.events, MemoryModule.completed, hmapped, hinserted, hhandled]

theorem mapDllStep_ends (laws : H.Lawful) (hmapped : m.mappedDll = false)
    (hinit : m.initialized = false) :
    Ends ntSuccess (mapDllStep H request dwFlags headers base)
      (Stage H base headers start m regions)
      (failureOf ntSuccess (H.ldrMapDllMemory base headers dwFlags request.dllName
        request.dllFullName start.database).1)
      (Stage H base headers start { m with
        mappedDll := true
        ldrEntry := (H.ldrMapDllMemory base headers dwFlags request.dllName
          request.dllFullName start.database).2.1 } regions)
      (UnderWay H base headers start) := by
  apply Ends.of_status _ (mapDllStep_succeeds laws.toMapLaws hmapped)
  · intro hfails _ p h
    rcases hmap : H.ldrMapDllMemory base headers dwFlags request.dllName request.dllFullName
      start.database with ⟨status, entry, database⟩
    rw [hmap] at hfails
    obtain ⟨hdatabase, _⟩ := h.loaded.unmapped hmapped
    have hsame := laws.map_fails hmap hfails
    simp only [mapDllStep, hdatabase, hmap, hfails, hsame]
    rw [← hdatabase]
    exact ⟨m, regions, h, hinit⟩
  · intro _ p h
    obtain ⟨hdatabase, _⟩ := h.loaded.unmapped hmapped
    simp only [mapDllStep, hdatabase]
    split <;> rfl

/-- The import resolution and the section protection write to the image only. -/
theorem imageStep_stage (laws : H.UndoLaws) (edit : ρ → NtStatus × ρ)
    (hedit : ∀ r r', H.ImageEdited base r r' → H.ImageEdited base r (edit r').2)
    (h : Stage H base headers start m regions p) :
    Stage H base headers start m (edit regions).2 { p with regions := (edit p.regions).2 } := by
  obtain ⟨buffer, status, r, hload, hok, hedited⟩ := h.loaded.regions
  have hedited' := hedit r p.regions hedited
  have himage := h.loaded.imageHeaders
  rw [laws.edit_headers hedited, ← laws.edit_headers hedited'] at himage
  constructor
  · exact { h.loaded with
      imageHeaders := himage
      regions := ⟨buffer, status, r, hload, hok, hedited'⟩ }
  · rw [h.regions]
  · exact h.events

theorem imageStep_ends (laws : H.UndoLaws) (edit : ρ → NtStatus × ρ)
    (hedit : ∀ r r', H.ImageEdited base r r' → H.ImageEdited base r (edit r').2)
    (hinit : m.initialized = false) :
    Ends ntSuccess (fun _ p => ((edit p.regions).1, { p with regions := (edit p.regions).2 }))
      (Stage H base headers start m regions)
      (failureOf ntSuccess (edit regions).1)
      (Stage H base headers start m (edit regions).2)
      (UnderWay H base headers start) := by
  apply Ends.of_status
  · intro _ p h
    rw [h.regions]
  · exact fun _ p h _ => imageStep_stage laws edit hedit h
  · exact fun _ _ p h => ⟨m, _, imageStep_stage laws edit hedit h, hinit⟩

theorem useReferenceCountStep_stage (dwFlags : Dword) (status : NtStatus)
    (h : Stage H base headers start m regions p) :
    (useReferenceCountStep dwFlags base status p).1 = status ∧
      Stage H base headers start
        { m with useReferenceCount :=
            m.useReferenceCount || !hasFlag dwFlags loadFlagsNotUseReferenceCount } regions
        (useReferenceCountStep dwFlags base status p).2 := by
  unfold useReferenceCountStep
  cases hflag : hasFlag dwFlags loadFlagsNotUseReferenceCount with
  | true => simpa using h
  | false =>
    simp only [Bool.not_false, if_true, Bool.or_true]
    rw [updateModule_eq h.loaded _ _ (by rfl)]
    apply And.intro trivial
    refine ⟨?_, h.regions, h.events⟩
    exact { h.loaded with
      module := by simp
      others := others_update h.loaded _ }

theorem useReferenceCountStep_ends (dwFlags : Dword) :
    Ends ntSuccess (useReferenceCountStep dwFlags base)
      (Stage H base headers start m regions) none
      (Stage H base headers start
        { m with useReferenceCount :=
            m.useReferenceCount || !hasFlag dwFlags loadFlagsNotUseReferenceCount } regions)
      (UnderWay H base headers start) :=
  Ends.pass fun status _ h => useReferenceCountStep_stage dwFlags status h

theorem insertInvertedStep_succeeds (hmapped : m.mappedDll = true)
    (hinserted : m.insertInvertedFunctionTableEntry = false) (hhandled : m.tlsHandled = false) :
    Succeeds ntSuccess (insertInvertedStep H dwFlags headers base)
      (Stage H base headers start m regions)
      (Stage H base headers start
        { m with insertInvertedFunctionTableEntry :=
            !hasFlag dwFlags loadFlagsNotAddInvertedFunction } regions) := by
  intro _ p h hsuccess
  cases hflag : hasFlag dwFlags loadFlagsNotAddInvertedFunction with
  | true =>
    have hm : { m with insertInvertedFunctionTableEntry := false } = m := by rw [← hinserted]
    simp only [insertInvertedStep, hflag, Bool.not_true, hm]
    exact h
  | false =>
    rcases hinsert : H.rtlInsertInvertedFunctionTable base headers.sizeOfImage
      start.invertedTable with ⟨status, table⟩
    have hsame := h.loaded.notInserted hinserted
    have hok : ntSuccess status = true := by
      simp only [insertInvertedStep, hflag, hsame, hinsert, Bool.not_false, if_true] at hsuccess
      split at hsuccess <;> exact hsuccess
    simp only [insertInvertedStep, hflag, hsame, hinsert, hok, Bool.not_false, if_true]
    rw [updateModule_eq h.loaded _ _ (by rfl)]
    constructor
    · exact { h.loaded with
        module := by simp [Process.log]
        unmapped := by simp [hmapped]
        notInserted := by simp
        inserted := fun _ => ⟨_, _, hinsert, hok⟩
        others := others_update h.loaded _ }
    · exact h.regions
    · simp [Process.log, h.events, MemoryModule.completed, hinserted, hhandled]

theorem insertInvertedStep_ends (laws : H.Lawful) (hmapped : m.mappedDll = true)
    (hinserted : m.insertInvertedFunctionTableEntry = false)
    (hhandled : m.tlsHandled = false) (hinit : m.initialized = false) :
    Ends ntSuccess (insertInvertedStep H dwFlags headers base)
      (Stage H base headers start m regions)
      (if hasFlag dwFlags loadFlagsNotAddInvertedFunction then none
        else failureOf ntSuccess
          (H.rtlInsertInvertedFunctionTable base headers.sizeOfImage start.invertedTable).1)
      (Stage H base headers start
        { m with insertInvertedFunctionTableEntry :=
            !hasFlag dwFlags loadFlagsNotAddInvertedFunction } regions)
      (UnderWay H base headers start) := by
  have hsucceeds : Succeeds ntSuccess (insertInvertedStep H dwFlags headers base)
      (Stage H base headers start m regions)
      (Stage H base headers start
        { m with insertInvertedFunctionTableEntry :=
            !hasFlag dwFlags loadFlagsNotAddInvertedFunction } regions) :=
    insertInvertedStep_succeeds hmapped hinserted hhandled
  cases hflag : hasFlag dwFlags loadFlagsNotAddInvertedFunction with
  | true =>
    rw [hflag] at hsucceeds
    intro status p hok h
    have hstatus : (insertInvertedStep H dwFlags headers base status p).1 = status := by
      simp [insertInvertedStep, hflag]
    have hok' : ntSuccess (insertInvertedStep H dwFlags headers base status p).1 = true :=
      hstatus.symm ▸ hok
    exact ⟨hok', hsucceeds status p h hok'⟩
  | false =>
    rw [hflag] at hsucceeds
    apply Ends.of_status _ hsucceeds
    · intro hfails _ p h
      rcases hinsert : H.rtlInsertInvertedFunctionTable base headers.sizeOfImage
        start.invertedTable with ⟨status, table⟩
      rw [hinsert] at hfails
      have hsame := h.loaded.notInserted hinserted
      have htable := laws.insert_fails hinsert hfails
      simp only [insertInvertedStep, hflag, hsame, hinsert, hfails, htable, Bool.not_false, if_true]
      rw [← hsame]
      exact ⟨m, regions, h, hinit⟩
    · intro _ p h
      have hsame := h.loaded.notInserted hinserted
      simp only [insertInvertedStep, hflag, hsame, Bool.not_false, if_true]
      split <;> rfl

theorem handleTlsStep_stage (hmapped : m.mappedDll = true) (hhandled : m.tlsHandled = false)
    (hskip : hasFlag dwFlags loadFlagsNotHandleTls = false)
    (hok : ntSuccess (tlsStatus H m.ldrEntry start) = true) (status : NtStatus)
    (h : Stage H base headers start m regions p) :
    ntSuccess (handleTlsStep H dwFlags base m.ldrEntry status p).1 = true ∧
      Stage H base headers start { m with tlsHandled := true } regions
        (handleTlsStep H dwFlags base m.ldrEntry status p).2 := by
  rcases htls : H.mmpHandleTlsData m.ldrEntry start.tlsList with ⟨code, list⟩
  have hok : ntSuccess code = true := by simpa [tlsStatus, htls] using hok
  have hlist := h.loaded.notHandled hhandled
  simp only [handleTlsStep, hskip, hlist, htls, hok, Bool.not_false, if_true]
  rw [updateModule_eq h.loaded _ _ (by rfl)]
  refine ⟨trivial, ?_, h.regions, ?_⟩
  · exact { h.loaded with
      module := by simp [Process.log]
      unmapped := by simp [hmapped]
      notHandled := by simp
      handled := fun _ => ⟨_, htls, hok⟩
      others := others_update h.loaded _ }
  · simp [Process.log, h.events, MemoryModule.completed, hhandled]

/-- A handler that fails may leave something in the TLS list; the module is under way from a
process that has it. -/
def StageAfterTls (H : Helpers δ ι τ ρ) (base : Nat) (headers : ImageHeaders)
    (start : Process δ ι τ ρ) (m : MemoryModule) (regions : ρ) (p : Process δ ι τ ρ) : Prop :=
  ∃ list, Stage H base headers { start with tlsList := list } m regions p

theorem handleTlsStep_succeeds (hmapped : m.mappedDll = true) (hhandled : m.tlsHandled = false) :
    Succeeds ntSuccess (handleTlsStep H dwFlags base m.ldrEntry)
      (Stage H base headers start m regions)
      (StageAfterTls H base headers start
        { m with tlsHandled :=
            !hasFlag dwFlags loadFlagsNotHandleTls &&
              ntSuccess (tlsStatus H m.ldrEntry start) } regions) := by
  intro status p h hsuccess
  have hm : { m with tlsHandled := false } = m := by rw [← hhandled]
  cases hskip : hasFlag dwFlags loadFlagsNotHandleTls with
  | true =>
    simp only [handleTlsStep, hskip, Bool.not_true, Bool.false_and, hm]
    exact ⟨start.tlsList, h⟩
  | false =>
    cases hok : ntSuccess (tlsStatus H m.ldrEntry start) with
    | true => exact ⟨start.tlsList, (handleTlsStep_stage hmapped hhandled hskip hok status h).2⟩
    | false =>
      rcases htls : H.mmpHandleTlsData m.ldrEntry start.tlsList with ⟨code, list⟩
      have hcode : ntSuccess code = false := by simpa [tlsStatus, htls] using hok
      have hlist := h.loaded.notHandled hhandled
      have hforgive : (handleTlsStep H dwFlags base m.ldrEntry status p).2 =
          { p with tlsList := list } := by
        simp only [handleTlsStep, hskip, hlist, htls, hcode, Bool.not_false, if_true,
          Bool.false_eq_true, if_false]
        split <;> rfl
      rw [hforgive]
      simp only [Bool.not_false, Bool.and_false, hm]
      refine ⟨list, ?_, h.regions, h.events⟩
      exact { h.loaded with
        notHandled := fun _ => rfl
        handled := by simp [hhandled] }

theorem handleTlsStep_ends (laws : H.Lawful) (hmapped : m.mappedDll = true)
    (hhandled : m.tlsHandled = false) (hinit : m.initialized = false) :
    Ends ntSuccess (handleTlsStep H dwFlags base m.ldrEntry)
      (Stage H base headers start m regions)
      (if hasFlag dwFlags loadFlagsNotHandleTls || hasFlag dwFlags loadFlagsNotFailIfHandleTls then
        none
        else failureOf ntSuccess (tlsStatus H m.ldrEntry start))
      (Stage H base headers start
        { m with tlsHandled :=
            !hasFlag dwFlags loadFlagsNotHandleTls &&
              ntSuccess (tlsStatus H m.ldrEntry start) } regions)
      (UnderWay H base headers start) := by
  have hm : { m with tlsHandled := false } = m := by rw [← hhandled]
  cases hskip : hasFlag dwFlags loadFlagsNotHandleTls with
  | true =>
    apply Ends.pass
    intro status p h
    simp only [handleTlsStep, hskip, Bool.not_true, Bool.false_and, hm]
    exact ⟨rfl, h⟩
  | false =>
    rcases htls : H.mmpHandleTlsData m.ldrEntry start.tlsList with ⟨status, list⟩
    have hstatus : tlsStatus H m.ldrEntry start = status := by simp [tlsStatus, htls]
    intro prior p _ h
    have hlist := h.loaded.notHandled hhandled
    cases hok : ntSuccess status with
    | true =>
      have hstage := handleTlsStep_stage hmapped hhandled hskip (hstatus ▸ hok) prior h
      simp only [hstatus, hok, failureOf, Bool.not_false, Bool.false_or, Bool.true_and, if_true,
        ite_self]
      exact hstage
    | false =>
      have hsame := laws.tls_fails htls hok
      rw [hsame, ← hlist] at htls
      cases hforgive : hasFlag dwFlags loadFlagsNotFailIfHandleTls with
      | true =>
        simp only [handleTlsStep, hskip, htls, hstatus, hok, hforgive, hm, Bool.not_false,
          Bool.or_true, Bool.true_and, if_true]
        exact ⟨rfl, h⟩
      | false =>
        simp only [handleTlsStep, hskip, htls, hstatus, hok, hforgive, failureOf, Bool.not_false,
          Bool.or_false, if_true]
        exact ⟨rfl, hok, m, regions, h, hinit⟩

theorem stage_initialized (h : Stage H base headers start m regions p) (initialized : Bool) :
    Stage H base headers start { m with initialized := initialized } regions
      (updateModule base (fun m => { m with initialized := initialized }) p) := by
  rw [updateModule_eq h.loaded _ _ (by rfl)]
  refine ⟨?_, h.regions, h.events⟩
  exact { h.loaded with
    module := by simp
    others := others_update h.loaded _ }

theorem initializeStep_succeeds :
    Succeeds ntSuccess (initializeStep H base)
      (Stage H base headers start m regions)
      (Stage H base headers start
        { m with initialized := (H.ldrpCallInitializers base).2 } regions) := by
  intro status p h hsuccess
  unfold initializeStep at hsuccess ⊢
  split at hsuccess
  next => cases hsuccess
  next hexecute =>
    rcases hcall : H.ldrpCallInitializers base with ⟨result, initialized⟩
    rw [if_neg hexecute]
    exact stage_initialized h initialized

theorem initializeStep_ends (laws : H.Lawful) (hinit : m.initialized = false) :
    Ends ntSuccess (initializeStep H base)
      (Stage H base headers start m regions)
      (if H.ldrpExecuteTls base && (H.ldrpCallInitializers base).1 then none
        else some statusDllInitFailed)
      (Stage H base headers start
        { m with initialized := (H.ldrpCallInitializers base).2 } regions)
      (UnderWay H base headers start) := by
  have hfailed : ntSuccess statusDllInitFailed = false := rfl
  intro status p hok h
  cases hexecute : H.ldrpExecuteTls base with
  | false =>
    simp only [initializeStep, hexecute, Bool.not_false, Bool.false_and, if_true]
    exact ⟨rfl, hfailed, m, regions, h, hinit⟩
  | true =>
    rcases hcall : H.ldrpCallInitializers base with ⟨result, initialized⟩
    have hstage := stage_initialized h initialized
    cases result with
    | true =>
      simp only [initializeStep, hexecute, hcall, Bool.not_true, Bool.and_self, if_true]
      exact ⟨hok, hstage⟩
    | false =>
      simp only [initializeStep, hexecute, hcall, Bool.not_true, Bool.and_false]
      exact ⟨rfl, hfailed, _, regions, hstage, laws.initializers_fail hcall⟩

end Steps

def loadedModule (H : Helpers δ ι τ ρ) (request : LoadRequest) (headers : ImageHeaders)
    (base : Nat) (start : Process δ ι τ ρ) : MemoryModule :=
  let dwFlags := effectiveFlags request headers
  let entry := (H.ldrMapDllMemory base headers dwFlags request.dllName request.dllFullName
    start.database).2.1
  { codeBase := base
    ldrEntry := entry
    loadFromLdrLoadDllMemory := true
    mappedDll := true
    useReferenceCount := !hasFlag dwFlags loadFlagsNotUseReferenceCount
    insertInvertedFunctionTableEntry := !hasFlag dwFlags loadFlagsNotAddInvertedFunction
    tlsHandled := !hasFlag dwFlags loadFlagsNotHandleTls && ntSuccess (tlsStatus H entry start)
    underUnload := false
    initialized := (H.ldrpCallInitializers base).2 }

section Path

variable {H : Helpers δ ι τ ρ} {request : LoadRequest}
  {base : Nat} {headers : ImageHeaders} {start : Process δ ι τ ρ} {regions : ρ}

/-- The image after its imports are resolved and its sections protected. -/
def preparedImage (H : Helpers δ ι τ ρ) (base : Nat) (regions : ρ) : ρ :=
  (H.memorySetSectionProtection base (H.memoryResolveImportTable base regions).2).2

theorem mappedPath_ends (laws : H.Lawful) (request : LoadRequest) :
    Ends ntSuccess
      (mappedPath H request (effectiveFlags request headers) headers base
        (loadedModule H request headers base start).ldrEntry)
      (Stage H base headers start (freshModule base) regions)
      (firstFailure H request headers base regions start)
      (Stage H base headers start (loadedModule H request headers base start)
        (preparedImage H base regions))
      (UnderWay H base headers start) := by
  apply (mapDllStep_ends laws rfl rfl).andThen
  apply (imageStep_ends laws.toUndoLaws (H.memoryResolveImportTable base)
    (fun _ _ h => .resolve h) rfl).andThen
  apply (imageStep_ends laws.toUndoLaws (H.memorySetSectionProtection base)
    (fun _ _ h => .protect h) rfl).andThen
  apply (useReferenceCountStep_ends (effectiveFlags request headers)).andThen
  apply (insertInvertedStep_ends laws rfl rfl rfl rfl).andThen
  apply (handleTlsStep_ends laws rfl rfl rfl).andThen
  exact initializeStep_ends laws rfl

theorem mappedPath_succeeds (laws : H.UndoLaws) (request : LoadRequest) :
    Succeeds ntSuccess
      (mappedPath H request (effectiveFlags request headers) headers base
        (loadedModule H request headers base start).ldrEntry)
      (Stage H base headers start (freshModule base) regions)
      (StageAfterTls H base headers start (loadedModule H request headers base start)
        (preparedImage H base regions)) := by
  refine Succeeds.andThen (mapDllStep_succeeds laws.toMapLaws rfl) ?_
  refine Succeeds.andThen (fun _ _ h _ => imageStep_stage laws
    (H.memoryResolveImportTable base) (fun _ _ h => .resolve h) h) ?_
  refine Succeeds.andThen (fun _ _ h _ => imageStep_stage laws
    (H.memorySetSectionProtection base) (fun _ _ h => .protect h) h) ?_
  refine Succeeds.andThen (fun status _ h _ =>
    (useReferenceCountStep_stage (effectiveFlags request headers) status h).2) ?_
  refine Succeeds.andThen (insertInvertedStep_succeeds rfl rfl rfl) ?_
  refine Succeeds.andThen (handleTlsStep_succeeds rfl rfl) ?_
  rintro status p ⟨list, h⟩ hok
  exact ⟨list, initializeStep_succeeds status p h hok⟩

/-- The process when the mapped path starts. -/
def pathStart (start : Process δ ι τ ρ) (base : Nat) (regions : ρ) : Process δ ι τ ρ :=
  ({ start with regions := regions }.setModule base (some (freshModule base))).log
    [.did .loadLibrary base]

theorem stage_pathStart (h : MappedLoad H request start base headers regions) :
    Stage H base headers start (freshModule base) regions (pathStart start base regions) := by
  obtain ⟨status, hlibrary, hok, _⟩ := h.library
  refine ⟨?_, rfl, rfl⟩
  exact {
    module := by simp [pathStart, Process.setModule, Process.log]
    loadFromLdrLoadDllMemory := rfl
    imageHeaders := h.image
    regions := ⟨_, _, _, hlibrary, hok, .refl _⟩
    unmapped := fun _ => ⟨rfl, rfl, rfl⟩
    mapped := by simp [freshModule]
    notInserted := fun _ => rfl
    inserted := by simp [freshModule]
    notHandled := fun _ => rfl
    handled := by simp [freshModule]
    others := fun b hb => by simp [pathStart, Process.setModule, Process.log, hb] }

theorem hasFlag_effectiveFlags {flag : Dword}
    (hflag : loadFlagsNotAddInvertedFunction &&& flag = 0#32) :
    hasFlag (effectiveFlags request headers) flag = hasFlag request.dwFlags flag := by
  unfold effectiveFlags hasFlag
  split
  · rw [BitVec.and_or_distrib_right, hflag, BitVec.or_zero]
  · rfl

/-- The checks and the scan that a load on the mapped path passes. -/
theorem ldrLoadDllMemoryExW_mapped (h : MappedLoad H request start base headers regions) :
    ldrLoadDllMemoryExW H request start = loadImage H request start := by
  rw [ldrLoadDllMemoryExW_checked h.checked]
  cases hname : request.dllName with
  | none => rfl
  | some dllName =>
    obtain ⟨h1, himage, hscan⟩ := h.notLoaded dllName hname
    simp [himage, hscan]

theorem loadImage_mapped (h : MappedLoad H request start base headers regions) :
    ∃ status, ntSuccess status = true ∧ loadImage H request start =
      match mappedPath H request (effectiveFlags request headers) headers base
        (loadedModule H request headers base start).ldrEntry status
        (pathStart start base regions) with
      | (status, p) =>
        if ntSuccess status then
          .ok ⟨status, base, (loadedModule H request headers base start).ldrEntry, p⟩
        else
          match ldrUnloadDllMemory H base p with
          | .error fault => .error fault
          | .ok (_, p) => .ok ⟨status, 0, 0, p⟩ := by
  obtain ⟨status, hlibrary, hok, hmachine⟩ := h.library
  have hflag : hasFlag (effectiveFlags request headers) loadFlagsNotMapDll = false := by
    rw [hasFlag_effectiveFlags (by rfl)]
    exact h.checked.mapDll
  have hreturn : (!ntSuccess status || status == statusImageMachineTypeMismatch) = false := by
    simp [hok, hmachine]
  refine ⟨status, hok, ?_⟩
  simp only [loadImage, hlibrary, hreturn, h.image]
  rw [← effectiveFlags, hflag]
  rfl

/-- A load on the mapped path that succeeds, whatever a failing helper would leave. -/
theorem ldrLoadDllMemoryExW_loaded (laws : H.UndoLaws)
    (h : MappedLoad H request start base headers regions) {result : LoadResult δ ι τ ρ}
    (hload : ldrLoadDllMemoryExW H request start = .ok result)
    (hsuccess : ntSuccess result.status = true) :
    StageAfterTls H base headers start (loadedModule H request headers base start)
      (preparedImage H base regions) result.process := by
  rw [ldrLoadDllMemoryExW_mapped h] at hload
  obtain ⟨status, -, hrun⟩ := loadImage_mapped h
  rw [hrun] at hload
  have hpath := mappedPath_succeeds laws request status _ (stage_pathStart h)
  dsimp only at hload
  split at hload
  next hok =>
    cases hload
    exact hpath hok
  next hfails =>
    split at hload
    next => cases hload
    next =>
      cases hload
      exact absurd hsuccess hfails

theorem ldrLoadDllMemoryExW_succeeds (laws : H.Lawful)
    (h : MappedLoad H request start base headers regions)
    (hnone : firstFailure H request headers base regions start = none) :
    ∃ status p, ntSuccess status = true ∧
      ldrLoadDllMemoryExW H request start =
        .ok ⟨status, base, (loadedModule H request headers base start).ldrEntry, p⟩ ∧
      Stage H base headers start (loadedModule H request headers base start)
        (preparedImage H base regions) p := by
  rw [ldrLoadDllMemoryExW_mapped h]
  obtain ⟨status, hok, hload⟩ := loadImage_mapped h
  have hpath := mappedPath_ends laws request status _ hok (stage_pathStart h)
  simp only [hnone] at hpath
  obtain ⟨hok', hstage⟩ := hpath
  refine ⟨_, _, hok', ?_, hstage⟩
  rw [hload]
  simp only [hok', if_true]

/-- A load on the mapped path that ends with the failure of a helper. -/
theorem ldrLoadDllMemoryExW_fails (laws : H.Lawful)
    (h : MappedLoad H request start base headers regions)
    {code : NtStatus} (hfirst : firstFailure H request headers base regions start = some code) :
    ntSuccess code = false ∧ ∃ m p, m.initialized = false ∧
      p.events = start.events ++ m.completed.map (.did · base) ∧
      ldrLoadDllMemoryExW H request start = .ok ⟨code, 0, 0, unloaded start p base m⟩ := by
  rw [ldrLoadDllMemoryExW_mapped h]
  obtain ⟨status, hok, hload⟩ := loadImage_mapped h
  have hpath := mappedPath_ends laws request status _ hok (stage_pathStart h)
  simp only [hfirst] at hpath
  obtain ⟨hcode, hfails, m, _, hstage, hinit⟩ := hpath
  refine ⟨hfails, m, _, hinit, hstage.events, ?_⟩
  rw [hload]
  simp [hcode, hfails, ldrUnloadDllMemory_loaded laws.toUndoLaws hstage.loaded]

end Path

/-- An image, a request for it and a process without modules. -/
def stackImage : ImageHeaders := ⟨0x200, 0x400, 0x3000, 0⟩

def stackRequest : LoadRequest := ⟨0, 0x7000, 0, some [0x61], some [0x63], 0, 0⟩

def stackStart : Process (List StackProcess.StackEntry) (List Nat) (List Nat) (List Nat) :=
  ⟨[], [], [], [], fun _ => none, []⟩

theorem stack_mappedLoad (tls : NtStatus) :
    MappedLoad (StackProcess.stackHelpers stackImage tls) stackRequest stackStart 0x10000
      stackImage [0x7000] where
  checked := ⟨rfl, rfl, rfl, fun _ => ⟨rfl, rfl⟩⟩
  notLoaded := fun _ _ => ⟨stackImage, rfl, rfl⟩
  library := ⟨statusSuccess, rfl, rfl, by decide⟩
  image := rfl

end WinPolyfillLoader.Loader
