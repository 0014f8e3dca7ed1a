import WinPolyfillLoader.ImportTable.Resolve

/-!
`MemoryResolveImportTable` with a log of what it asks `ntdll` for. The answers may depend
on everything asked before; with answers that do not, the log is all that is new.
-/

namespace WinPolyfillLoader.ImportTable

open ByteMemory LdrEntry

/-- A query with its answer, at its descriptor or its slot, or the release of a converted
name. -/
inductive Event where
  | converted (importDesc : Nat) (status : NtStatus) (dllNameUnicode : List Wchar)
  | gotHandle (importDesc : Nat) (status : NtStatus) (handle : Nat)
  | freed (dllNameUnicode : List Wchar)
  | gotAddress (funcRef : Nat) (status : NtStatus) (address : Nat)
deriving DecidableEq, Repr

/-- The helpers that answer after a log. -/
abbrev Answers := List Event → ImportHelpers

structure Progress where
  memory : Bytes
  log : List Event

def Progress.say (c : Progress) (e : Event) : Progress := { c with log := c.log ++ [e] }

/-- A way out of the loops: `break` or their end with the status so far, or an access
violation. -/
inductive Exit where
  | left (status : NtStatus)
  | violation
deriving DecidableEq, Repr

def Exit.status : Exit → NtStatus
  | .left status => status
  | .violation => statusAccessViolation

def Environment.after (env : Environment) (answers : Answers) (log : List Event) : Environment :=
  { env with helpers := answers log }

/-- `while (*thunkRef)`. -/
def askThunks (env : Environment) (answers : Answers) (procedureNameAnsi : Uninitialized)
    (handle : Nat) : Nat → NtStatus → Nat → Nat → Progress → Option (Exit × Progress)
  | 0, _, _, _, _ => none
  | fuel + 1, status, thunkRef, funcRef, c =>
    match load env.mapped c.memory thunkRef env.target.pointerSize with
    | none => some (.violation, c)
    | some 0 => some (.left status, c)
    | some thunk =>
      match getProcedureAddress (env.after answers c.log) procedureNameAnsi handle thunk funcRef with
      | (status, address) =>
        if !ntSuccess status then some (.left status, c.say (.gotAddress funcRef status address))
        else
          match store env.mapped c.memory funcRef env.target.pointerSize address with
          | none => some (.violation, c)
          | some m =>
            let c := Progress.say { c with memory := m } (.gotAddress funcRef status address)
            if readLE m funcRef env.target.pointerSize = 0 then
              some (.left statusEntrypointNotFound, c)
            else
              askThunks env answers procedureNameAnsi handle fuel status
                (thunkRef + env.target.pointerSize) (funcRef + env.target.pointerSize) c

/-- The queries for the DLL of a descriptor: the status so far with its handle, or the exit. -/
def askDll (env : Environment) (answers : Answers) (importDesc nameAddress : Nat)
    (c : Progress) : Except Exit (NtStatus × Nat) × Progress :=
  match rtlInitAnsiString env.mapped c.memory nameAddress with
  | none => (.error .violation, c)
  | some dllNameAscii =>
    match (answers c.log).rtlAnsiStringToUnicodeString dllNameAscii with
    | (status, dllNameUnicode) =>
      let c := c.say (.converted importDesc status dllNameUnicode)
      if !ntSuccess status then (.error (.left status), c)
      else
        match (answers c.log).ldrGetDllHandle dllNameUnicode with
        | (status, handle) =>
          let c := (c.say (.gotHandle importDesc status handle)).say (.freed dllNameUnicode)
          if !ntSuccess status then (.error (.left status), c)
          else if handle = 0 then (.error (.left statusDllNotFound), c)
          else (.ok (status, handle), c)

/-- `for (; importDesc->Name; ++importDesc)`. -/
def askDescriptors (env : Environment) (answers : Answers) (procedureNameAnsi : Uninitialized)
    (base : Nat) : Nat → NtStatus → Nat → Progress → Option (Exit × Progress)
  | 0, _, _, _ => none
  | fuel + 1, status, importDesc, c =>
    match load env.mapped c.memory (importDesc + 12) 4 with
    | none => some (.violation, c)
    | some 0 => some (.left status, c)
    | some name =>
      match askDll env answers importDesc (base + name) c with
      | (.error exit, c) => some (exit, c)
      | (.ok (status, handle), c) =>
        match load env.mapped c.memory importDesc 4, load env.mapped c.memory (importDesc + 16) 4 with
        | some originalFirstThunk, some firstThunk =>
          let thunks := if originalFirstThunk ≠ 0 then originalFirstThunk else firstThunk
          match askThunks env answers procedureNameAnsi handle fuel status (base + thunks)
            (base + firstThunk) c with
          | none => none
          | some (.violation, c) => some (.violation, c)
          | some (.left status, c) =>
            if !ntSuccess status then some (.left status, c)
            else askDescriptors env answers procedureNameAnsi base fuel status (importDesc + 20) c
        | _, _ => some (.violation, c)

/-- `MemoryResolveImportTable`, with the exit and the log. -/
def askImports (env : Environment) (answers : Answers) (procedureNameAnsi : Uninitialized)
    (fuel base : Nat) (ntHeaders : NtHeaders) (m : Bytes) : Option (Exit × Progress) :=
  if ntHeaders.importSize ≠ 0 then
    let importDesc := ntHeaders.imageBase + ntHeaders.importVirtualAddress
    if importDesc ≠ 0 then
      askDescriptors env answers procedureNameAnsi base fuel statusSuccess importDesc ⟨m, []⟩
    else some (.left statusSuccess, ⟨m, []⟩)
  else some (.left statusSuccess, ⟨m, []⟩)

section Silent

variable {env : Environment} {procedureNameAnsi : Uninitialized}

/-- The status and the memory, without the log. -/
def silent (result : Exit × Progress) : NtStatus × Bytes := (result.1.status, result.2.memory)

theorem askThunks_turn (answers : Answers)
    {handle fuel thunk thunkRef funcRef address : Nat} {status code : NtStatus} {c : Progress}
    (hnonzero : thunk ≠ 0)
    (hthunk : load env.mapped c.memory thunkRef env.target.pointerSize = some thunk)
    (hcall : getProcedureAddress (env.after answers c.log) procedureNameAnsi handle thunk funcRef =
      (code, address)) :
    askThunks env answers procedureNameAnsi handle (fuel + 1) status thunkRef funcRef c =
      if !ntSuccess code then some (.left code, c.say (.gotAddress funcRef code address))
      else
        match store env.mapped c.memory funcRef env.target.pointerSize address with
        | none => some (.violation, c)
        | some m =>
          let c := Progress.say { c with memory := m } (.gotAddress funcRef code address)
          if readLE m funcRef env.target.pointerSize = 0 then
            some (.left statusEntrypointNotFound, c)
          else
            askThunks env answers procedureNameAnsi handle fuel code
              (thunkRef + env.target.pointerSize) (funcRef + env.target.pointerSize) c := by
  obtain ⟨n, rfl⟩ := Nat.exists_eq_succ_of_ne_zero hnonzero
  simp only [askThunks, hthunk, hcall]

theorem askThunks_silent (handle fuel : Nat) (status : NtStatus) (thunkRef funcRef : Nat)
    (c : Progress) :
    (askThunks env (fun _ => env.helpers) procedureNameAnsi handle fuel status thunkRef funcRef
        c).map silent =
      resolveThunks env procedureNameAnsi handle fuel status thunkRef funcRef c.memory := by
  induction fuel generalizing status thunkRef funcRef c with
  | zero => rfl
  | succ fuel ih =>
    cases hthunk : load env.mapped c.memory thunkRef env.target.pointerSize with
    | none =>
      simp only [askThunks, resolveThunks, hthunk]
      rfl
    | some thunk =>
      rcases eq_or_ne thunk 0 with rfl | hnonzero
      · simp only [askThunks, resolveThunks, hthunk]
        rfl
      · rcases hcall : getProcedureAddress env procedureNameAnsi handle thunk funcRef with
          ⟨code, address⟩
        rw [askThunks_turn (fun _ => env.helpers) hnonzero hthunk hcall]
        obtain ⟨n, rfl⟩ := Nat.exists_eq_succ_of_ne_zero hnonzero
        simp only [resolveThunks, hthunk, hcall]
        cases ntSuccess code with
        | false => rfl
        | true =>
          cases store env.mapped c.memory funcRef env.target.pointerSize address with
          | none => rfl
          | some m =>
            simp only [Bool.not_true, Bool.false_eq_true, if_false, Progress.say]
            rcases eq_or_ne (readLE m funcRef env.target.pointerSize) 0 with hnull | hnull
            · rw [if_pos hnull, if_pos hnull]
              rfl
            · rw [if_neg hnull, if_neg hnull]
              exact ih _ _ _ _

theorem askDll_silent (env : Environment) (importDesc nameAddress : Nat) (c : Progress) :
    (askDll env (fun _ => env.helpers) importDesc nameAddress c).2.memory = c.memory ∧
      match (askDll env (fun _ => env.helpers) importDesc nameAddress c).1 with
      | .error exit => findDll env nameAddress c.memory = .error exit.status
      | .ok found => findDll env nameAddress c.memory = .ok found := by
  unfold askDll findDll
  cases rtlInitAnsiString env.mapped c.memory nameAddress with
  | none => exact ⟨rfl, rfl⟩
  | some dllNameAscii =>
    rcases hconvert : env.helpers.rtlAnsiStringToUnicodeString dllNameAscii with ⟨status, name⟩
    cases hstatus : ntSuccess status with
    | false => simp [hconvert, hstatus, Progress.say, Exit.status]
    | true =>
      rcases hget : env.helpers.ldrGetDllHandle name with ⟨code, handle⟩
      cases hcode : ntSuccess code with
      | false => simp [hconvert, hstatus, hget, hcode, Progress.say, Exit.status]
      | true =>
        rcases eq_or_ne handle 0 with hzero | hzero <;>
          simp [hconvert, hstatus, hget, hcode, hzero, Progress.say, Exit.status]

theorem askDescriptors_silent (base fuel : Nat) (status : NtStatus) (importDesc : Nat)
    (c : Progress) :
    (askDescriptors env (fun _ => env.helpers) procedureNameAnsi base fuel status importDesc
        c).map silent =
      resolveDescriptors env procedureNameAnsi base fuel status importDesc c.memory := by
  induction fuel generalizing status importDesc c with
  | zero => rfl
  | succ fuel ih =>
    rw [askDescriptors, resolveDescriptors]
    cases hname : load env.mapped c.memory (importDesc + 12) 4 with
    | none => rfl
    | some name =>
      cases name with
      | zero => rfl
      | succ name =>
        dsimp only
        obtain ⟨hmemory, hfound⟩ := askDll_silent env importDesc (base + (name + 1)) c
        rcases hask : askDll env (fun _ => env.helpers) importDesc (base + (name + 1)) c with
          ⟨answer, c'⟩
        rw [hask] at hmemory hfound
        cases answer with
        | error exit =>
          have hfound : findDll env (base + (name + 1)) c.memory = .error exit.status := hfound
          have hmemory : c'.memory = c.memory := hmemory
          simp only [hask, hfound, Option.map_some, silent, hmemory]
        | ok found =>
          obtain ⟨code, handle⟩ := found
          have hfound : findDll env (base + (name + 1)) c.memory = .ok (code, handle) := hfound
          have hmemory : c'.memory = c.memory := hmemory
          simp only [hask, hfound, hmemory]
          cases load env.mapped c.memory importDesc 4 with
          | none => simp [silent, hmemory, Exit.status]
          | some originalFirstThunk =>
            cases load env.mapped c.memory (importDesc + 16) 4 with
            | none => simp [silent, hmemory, Exit.status]
            | some firstThunk =>
              dsimp only
              rw [← hmemory, ← askThunks_silent]
              cases askThunks env (fun _ => env.helpers) procedureNameAnsi handle fuel code
                (base + if originalFirstThunk ≠ 0 then originalFirstThunk else firstThunk)
                (base + firstThunk) c' with
              | none => rfl
              | some result =>
                obtain ⟨exit, c''⟩ := result
                cases exit with
                | violation => rfl
                | left code =>
                  simp only [Option.map_some, silent, Exit.status]
                  cases ntSuccess code with
                  | false => rfl
                  | true => exact ih _ _ _

/-- With answers that do not depend on the log, the status and the memory are those of
`memoryResolveImportTable`. -/
theorem askImports_silent (fuel base : Nat) (ntHeaders : NtHeaders) (m : Bytes) :
    (askImports env (fun _ => env.helpers) procedureNameAnsi fuel base ntHeaders m).map silent =
      memoryResolveImportTable env procedureNameAnsi fuel base ntHeaders m := by
  unfold askImports memoryResolveImportTable
  split
  · dsimp only
    split
    · exact askDescriptors_silent _ _ _ _ _
    · rfl
  · rfl

end Silent

end WinPolyfillLoader.ImportTable
