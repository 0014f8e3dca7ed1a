import Mathlib.Data.List.Induction
import Mathlib.Logic.Function.Basic

/-!
`MmpPreInitializeHooksForDotNet` and `MmpInitializeHooksForDotNet`, called in any order and any
number of times. A hook hands on what is no memory module's through a pointer that these
functions set up, and which must not lead back to the hook. The Detours package is a parameter,
and `DetoursLaws` is what the two functions rely on.
-/

namespace WinPolyfillLoader.MmpDotNet.HookInstallation

/-- The functions that are hooked: `GetFileVersion` of mscoreei.dll and of mscoree.dll, to
which `OriginGetFileVersion1` and `OriginGetFileVersion2` belong, and those for files. -/
inductive HookedFunction where
  | createFileW
  | getFileInformationByHandle
  | getFileAttributesExW
  | getFileSize
  | getFileSizeEx
  | createFileMappingW
  | mapViewOfFileEx
  | mapViewOfFile
  | unmapViewOfFile
  | closeHandle
  | getFileVersion1
  | getFileVersion2
deriving DecidableEq, Repr

/-- Those of `MmpPreInitializeHooksForDotNet` besides `GetFileVersion`. -/
def fileFunctions : List HookedFunction :=
  [.createFileW, .getFileInformationByHandle, .getFileAttributesExW, .getFileSize, .getFileSizeEx,
    .createFileMappingW, .mapViewOfFileEx, .mapViewOfFile, .unmapViewOfFile, .closeHandle]

/-- Those that `MmpPreInitializeHooksForDotNet` attaches. -/
def preHookedFunctions : List HookedFunction := fileFunctions ++ [.getFileVersion2]

/-- Where a call through a pointer arrives: nowhere, at the library's own code, at the hook of a
function, or in memory that holds none of these. -/
inductive Place where
  | null
  | original (function : HookedFunction)
  | hook (function : HookedFunction)
  | elsewhere
deriving DecidableEq, Repr

/-- The code of the process as its pointers see it: which of them libraries export, and where they
lead in a text. -/
structure Code (π κ : Type) where
  null : π
  exported : HookedFunction → π
  leadsTo : κ → π → Place
  leadsTo_null : ∀ text, leadsTo text null = .null

/-- What a transaction of Detours leaves: the pointers it was handed and the text. -/
structure TransactionResult (π κ : Type) where
  committed : Bool
  origin : HookedFunction → π
  text : κ

/-- `DetourTransactionBegin`, `DetourAttach` of each of these functions and its hook, and
`DetourTransactionCommit`. -/
abbrev DetourTransaction (π κ : Type) :=
  List HookedFunction → (HookedFunction → π) → κ → TransactionResult π κ

/-- The part of `MMP_DOT_NET_DATA` that the two functions edit, and the text that Detours does. -/
structure DotNetHooks (π κ : Type) where
  preHooked : Bool
  initialized : Bool
  origin : HookedFunction → π
  text : κ

/-- What a call finds: whether the library is loaded and exports `GetFileVersion`, and what
Detours does. -/
structure Environment (π κ : Type) where
  loaded : Bool
  found : Bool
  detours : DetourTransaction π κ

inductive InstallCall (π κ : Type) where
  | preInitializeHooks (environment : Environment π κ)
  | initializeHooks (environment : Environment π κ)

def InstallCall.environment {π κ : Type} : InstallCall π κ → Environment π κ
  | .preInitializeHooks environment | .initializeHooks environment => environment

/-- The function whose pointer a hook hands its call on to. -/
def handsOnTo : HookedFunction → HookedFunction
  | .mapViewOfFile => .mapViewOfFileEx
  | .getFileVersion2 => .getFileVersion1
  | function => function

section Model

variable {π κ : Type} (code : Code π κ)

def DotNetHooks.zero (text : κ) : DotNetHooks π κ := ⟨false, false, fun _ => code.null, text⟩

/-- `GetProcAddress`. -/
def Environment.getFileVersion (environment : Environment π κ) (function : HookedFunction) : π :=
  if environment.found then code.exported function else code.null

def DotNetHooks.attach (s : DotNetHooks π κ) (detours : DetourTransaction π κ)
    (functions : List HookedFunction) : DotNetHooks π κ :=
  { s with
    origin := (detours functions s.origin s.text).origin
    text := (detours functions s.origin s.text).text }

/-- `OriginCreateFileW = CreateFileW` and the like. -/
def DotNetHooks.withFileOrigins (s : DotNetHooks π κ) : DotNetHooks π κ :=
  { s with origin := fun function =>
      if function ∈ fileFunctions then code.exported function else s.origin function }

def mmpPreInitializeHooksForDotNet (environment : Environment π κ) (s : DotNetHooks π κ) :
    Bool × DotNetHooks π κ :=
  if s.preHooked || !environment.loaded then (s.preHooked, s)
  else
    let s := { s with
      origin := Function.update s.origin .getFileVersion2
        (environment.getFileVersion code .getFileVersion2) }
    if !environment.found then (s.preHooked, s)
    else
      let s := (s.withFileOrigins code).attach environment.detours preHookedFunctions
      (true, { s with preHooked := true })

def mmpInitializeHooksForDotNet (environment : Environment π κ) (s : DotNetHooks π κ) :
    Bool × DotNetHooks π κ :=
  if !environment.loaded then (false, s)
  else
    let s := { s with
      origin := Function.update s.origin .getFileVersion1
        (environment.getFileVersion code .getFileVersion1) }
    if !environment.found || !s.preHooked then (false, s)
    else if s.initialized then (true, s)
    else
      let s := s.attach environment.detours [.getFileVersion1]
      (true, { s with initialized := true })

def installStep (s : DotNetHooks π κ) : InstallCall π κ → DotNetHooks π κ
  | .preInitializeHooks environment => (mmpPreInitializeHooksForDotNet code environment s).2
  | .initializeHooks environment => (mmpInitializeHooksForDotNet code environment s).2

def installed (text : κ) (calls : List (InstallCall π κ)) : DotNetHooks π κ :=
  calls.foldl (installStep code) (.zero code text)

/-- A call through a pointer with arguments that are no memory module's; `none` if it still
goes from hook to hook. -/
def landing (s : DotNetHooks π κ) : Nat → π → Option Place
  | 0, _ => none
  | fuel + 1, pointer =>
    match code.leadsTo s.text pointer with
    | .hook function => landing s fuel (s.origin (handsOnTo function))
    | place => some place

/-- A call through the pointer ends there. -/
def LandsAt (s : DotNetHooks π κ) (pointer : π) (place : Place) : Prop :=
  ∃ fuel, landing code s fuel pointer = some place

/-- A call through the pointer goes from hook to hook and never ends. -/
def Endless (s : DotNetHooks π κ) (pointer : π) : Prop :=
  ∀ fuel, landing code s fuel pointer = none

/-- The function has been patched to jump to its hook. -/
def DotNetHooks.patched (s : DotNetHooks π κ) (function : HookedFunction) : Bool :=
  code.leadsTo s.text (code.exported function) = .hook function

/-- Whether this `MmpInitializeHooksForDotNet` patches the function of mscoreei.dll. -/
def attaches (environment : Environment π κ) (s : DotNetHooks π κ) : Bool :=
  environment.loaded && environment.found && s.preHooked && !s.initialized &&
    (environment.detours [.getFileVersion1]
      (Function.update s.origin .getFileVersion1 (code.exported .getFileVersion1)) s.text).committed

/-- The functions are attached at their exports, which are not patched. -/
structure Attachable (functions : List HookedFunction) (origin : HookedFunction → π) (text : κ) :
    Prop where
  nodup : functions.Nodup
  exported : ∀ f ∈ functions, origin f = code.exported f
  unpatched : ∀ f ∈ functions, code.leadsTo text (code.exported f) = .original f

/-- The documented behaviour of Detours: a transaction that does not commit has no effect. One
that does takes each function to its hook and leaves a trampoline to the library's own code in
the pointer it was handed. -/
structure DetoursLaws (detours : DetourTransaction π κ) : Prop where
  aborted : ∀ functions origin text, (detours functions origin text).committed = false →
    (detours functions origin text).origin = origin ∧
      ∀ p, code.leadsTo text p ≠ .elsewhere →
        code.leadsTo (detours functions origin text).text p = code.leadsTo text p
  pointers : ∀ functions origin text, ∀ f ∉ functions,
    (detours functions origin text).origin f = origin f
  hooked : ∀ functions origin text, Attachable code functions origin text →
    (detours functions origin text).committed = true → ∀ f ∈ functions,
      code.leadsTo (detours functions origin text).text (code.exported f) = .hook f
  trampoline : ∀ functions origin text, Attachable code functions origin text →
    (detours functions origin text).committed = true → ∀ f ∈ functions,
      code.leadsTo (detours functions origin text).text
        ((detours functions origin text).origin f) = .original f
  others : ∀ functions origin text, Attachable code functions origin text →
    (detours functions origin text).committed = true → ∀ p,
      (∀ f ∈ functions, p ≠ code.exported f) → code.leadsTo text p ≠ .elsewhere →
        code.leadsTo (detours functions origin text).text p = code.leadsTo text p

end Model

section Installation

variable {π κ : Type} {code : Code π κ} {environment : Environment π κ} {s : DotNetHooks π κ}

/-- What the calls keep: a function is patched to its own hook or not at all, those of
`MmpPreInitializeHooksForDotNet` all together, and then their pointers lead to the library. -/
structure HooksSound (code : Code π κ) (s : DotNetHooks π κ) : Prop where
  exports : ∀ f, code.leadsTo s.text (code.exported f) = .original f ∨
    code.leadsTo s.text (code.exported f) = .hook f
  version : code.leadsTo s.text (s.origin .getFileVersion1) = .null ∨
    code.leadsTo s.text (s.origin .getFileVersion1) = .original .getFileVersion1 ∨
    code.leadsTo s.text (s.origin .getFileVersion1) = .hook .getFileVersion1
  before : s.preHooked = false →
    ∀ f ∈ preHookedFunctions, code.leadsTo s.text (code.exported f) = .original f
  uninitialized : s.initialized = false →
    code.leadsTo s.text (code.exported .getFileVersion1) = .original .getFileVersion1
  files : (∀ f ∈ fileFunctions, code.leadsTo s.text (code.exported f) = .original f) ∨
    ∀ f ∈ fileFunctions, code.leadsTo s.text (code.exported f) = .hook f ∧
      code.leadsTo s.text (s.origin f) = .original f

theorem HooksSound.exported_mapped (h : HooksSound code s) (f : HookedFunction) :
    code.leadsTo s.text (code.exported f) ≠ .elsewhere := by
  rcases h.exports f with hplace | hplace
  · simp [hplace]
  · simp [hplace]

/-- A pointer to the code or the hook of one function is not the export of another. -/
theorem HooksSound.ne_exported (h : HooksSound code s) {p : π} {f g : HookedFunction}
    (hp : code.leadsTo s.text p = .original f ∨ code.leadsTo s.text p = .hook f) (hne : f ≠ g) :
    p ≠ code.exported g := by
  rintro rfl
  rcases h.exports g with hplace | hplace
  · rw [hplace] at hp
    simp [Ne.symm hne] at hp
  · rw [hplace] at hp
    simp [Ne.symm hne] at hp

theorem HooksSound.version_ne_exported (h : HooksSound code s) {g : HookedFunction}
    (hne : HookedFunction.getFileVersion1 ≠ g) : s.origin .getFileVersion1 ≠ code.exported g := by
  rcases h.version with hnull | hplace
  · intro heq
    rw [heq] at hnull
    rcases h.exports g with hplace | hplace
    · simp [hplace] at hnull
    · simp [hplace] at hnull
  · exact h.ne_exported hplace hne

theorem HooksSound.version_mapped (h : HooksSound code s) :
    code.leadsTo s.text (s.origin .getFileVersion1) ≠ .elsewhere := by
  rcases h.version with hplace | hplace | hplace
  · simp [hplace]
  · simp [hplace]
  · simp [hplace]

theorem HooksSound.update_version2 (h : HooksSound code s) (pointer : π) :
    HooksSound code { s with origin := Function.update s.origin .getFileVersion2 pointer } := by
  have hne : ∀ f ∈ fileFunctions, f ≠ .getFileVersion2 := by decide
  have hversion : Function.update s.origin .getFileVersion2 pointer .getFileVersion1 =
    s.origin .getFileVersion1 := Function.update_of_ne (by decide) _ _
  refine ⟨h.exports, ?_, h.before, h.uninitialized, h.files.imp_right ?_⟩
  · simp only [hversion]
    exact h.version
  · intro hhooked f hf
    have horigin : Function.update s.origin .getFileVersion2 pointer f = s.origin f :=
      Function.update_of_ne (hne f hf) _ _
    simp only [horigin]
    exact hhooked f hf

/-- The state in which `MmpPreInitializeHooksForDotNet` begins its transaction. -/
def DotNetHooks.prepared (code : Code π κ) (s : DotNetHooks π κ) : DotNetHooks π κ :=
  { s with
    origin := Function.update s.origin .getFileVersion2
      (code.exported .getFileVersion2) }.withFileOrigins code

theorem prepared_exported (code : Code π κ) (s : DotNetHooks π κ) :
    ∀ f ∈ preHookedFunctions, (s.prepared code).origin f = code.exported f := by
  intro f _
  cases f <;> simp_all [DotNetHooks.prepared, DotNetHooks.withFileOrigins, preHookedFunctions,
    fileFunctions]

theorem prepared_version (code : Code π κ) (s : DotNetHooks π κ) :
    (s.prepared code).origin .getFileVersion1 = s.origin .getFileVersion1 := by
  simp [DotNetHooks.prepared, DotNetHooks.withFileOrigins, fileFunctions]

/-- What `MmpPreInitializeHooksForDotNet` does: at most it sets `OriginGetFileVersion2`, or it
hooks before the first time. -/
theorem mmpPreInitializeHooksForDotNet_cases (code : Code π κ) (environment : Environment π κ)
    (s : DotNetHooks π κ) :
    (∃ pointer, (mmpPreInitializeHooksForDotNet code environment s).2 =
        { s with origin := Function.update s.origin .getFileVersion2 pointer }) ∨
      s.preHooked = false ∧ (mmpPreInitializeHooksForDotNet code environment s).2 =
        { (s.prepared code).attach environment.detours preHookedFunctions
            with preHooked := true } := by
  unfold mmpPreInitializeHooksForDotNet
  by_cases hpre : s.preHooked = true
  · refine .inl ⟨s.origin .getFileVersion2, ?_⟩
    rw [if_pos (by simp [hpre]), Function.update_eq_self]
  · have hpre : s.preHooked = false := by simpa using hpre
    by_cases hloaded : environment.loaded = true
    · by_cases hfound : environment.found = true
      · exact .inr ⟨hpre, by simp [hpre, hloaded, hfound, Environment.getFileVersion,
          DotNetHooks.prepared]⟩
      · exact .inl ⟨code.null, by simp [hpre, hloaded, hfound, Environment.getFileVersion]⟩
    · refine .inl ⟨s.origin .getFileVersion2, ?_⟩
      rw [if_pos (by simp [hloaded]), Function.update_eq_self]

theorem HooksSound.prepared_attachable (h : HooksSound code s) (hpre : s.preHooked = false) :
    Attachable code preHookedFunctions (s.prepared code).origin s.text :=
  ⟨by decide, prepared_exported code s, h.before hpre⟩

/-- The first transaction leaves what concerns `GetFileVersion` of mscoreei.dll. -/
theorem HooksSound.attach_version (h : HooksSound code s) (hpre : s.preHooked = false)
    {detours : DetourTransaction π κ} (hdetours : DetoursLaws code detours) :
    let t := (s.prepared code).attach detours preHookedFunctions
    code.leadsTo t.text (t.origin .getFileVersion1) =
        code.leadsTo s.text (s.origin .getFileVersion1) ∧
      code.leadsTo t.text (code.exported .getFileVersion1) =
        code.leadsTo s.text (code.exported .getFileVersion1) := by
  intro t
  have hother : ∀ f ∈ preHookedFunctions, HookedFunction.getFileVersion1 ≠ f := by decide
  have horigin : t.origin .getFileVersion1 = s.origin .getFileVersion1 :=
    (hdetours.pointers preHookedFunctions _ _ _ (fun hmem => hother _ hmem rfl)).trans
      (prepared_version code s)
  rw [horigin]
  cases hcommitted : (detours preHookedFunctions (s.prepared code).origin s.text).committed with
  | false =>
    obtain ⟨-, hplaces⟩ := hdetours.aborted _ _ _ hcommitted
    exact ⟨hplaces _ h.version_mapped, hplaces _ (h.exported_mapped _)⟩
  | true =>
    have hothers := hdetours.others _ _ _ (h.prepared_attachable hpre) hcommitted
    constructor
    · exact hothers _ (fun f hf => h.version_ne_exported (hother f hf)) h.version_mapped
    · exact hothers _ (fun f hf => h.ne_exported (h.exports _) (hother f hf))
        (h.exported_mapped _)

theorem mmpPreInitializeHooksForDotNet_version (hdetours : DetoursLaws code environment.detours)
    (h : HooksSound code s) :
    let t := (mmpPreInitializeHooksForDotNet code environment s).2
    code.leadsTo t.text (t.origin .getFileVersion1) =
        code.leadsTo s.text (s.origin .getFileVersion1) ∧
      code.leadsTo t.text (code.exported .getFileVersion1) =
        code.leadsTo s.text (code.exported .getFileVersion1) ∧
      t.initialized = s.initialized := by
  intro t
  have ht : t = (mmpPreInitializeHooksForDotNet code environment s).2 := rfl
  obtain ⟨pointer, heq⟩ | ⟨hpre, heq⟩ := mmpPreInitializeHooksForDotNet_cases code environment s
  · have horigin : t.origin .getFileVersion1 = s.origin .getFileVersion1 := by simp [ht, heq]
    have htext : t.text = s.text := by rw [ht, heq]
    rw [horigin, htext]
    exact ⟨rfl, rfl, by rw [ht, heq]⟩
  · obtain ⟨hplace, hexport⟩ := h.attach_version hpre hdetours
    rw [ht, heq]
    exact ⟨hplace, hexport, rfl⟩

theorem mmpPreInitializeHooksForDotNet_sound (hdetours : DetoursLaws code environment.detours)
    (h : HooksSound code s) :
    HooksSound code (mmpPreInitializeHooksForDotNet code environment s).2 := by
  obtain ⟨hplace, hexport, hinit⟩ := mmpPreInitializeHooksForDotNet_version hdetours h
  obtain ⟨pointer, heq⟩ | ⟨hpre, heq⟩ := mmpPreInitializeHooksForDotNet_cases code environment s
  · rw [heq]
    exact h.update_version2 pointer
  · have hversion := hplace ▸ h.version
    have huninitialized := fun hfalse => hexport.trans (h.uninitialized (hinit ▸ hfalse))
    have hmem : ∀ f ∈ fileFunctions, f ∈ preHookedFunctions :=
      fun f hf => List.mem_append_left _ hf
    have hattachable := h.prepared_attachable hpre
    rw [heq] at hversion huninitialized ⊢
    cases hcommitted : (environment.detours preHookedFunctions (s.prepared code).origin
        s.text).committed with
    | false =>
      obtain ⟨-, hplaces⟩ := hdetours.aborted _ _ _ hcommitted
      refine ⟨?_, hversion, nofun, huninitialized, .inl ?_⟩
      · intro f
        exact (hplaces _ (h.exported_mapped f)).symm ▸ h.exports f
      · intro f hf
        exact (hplaces _ (h.exported_mapped f)).trans (h.before hpre f (hmem f hf))
    | true =>
      have hhooked := hdetours.hooked _ _ _ hattachable hcommitted
      have htrampoline := hdetours.trampoline _ _ _ hattachable hcommitted
      have hothers := hdetours.others _ _ _ hattachable hcommitted
      refine ⟨?_, hversion, nofun, huninitialized, .inr ?_⟩
      · intro f
        by_cases hf : f ∈ preHookedFunctions
        · exact .inr (hhooked f hf)
        · have hkept := hothers (code.exported f)
            (fun g hg => h.ne_exported (h.exports f) fun hfg => hf (hfg ▸ hg))
            (h.exported_mapped f)
          exact hkept.symm ▸ h.exports f
      · intro f hf
        exact ⟨hhooked f (hmem f hf), htrampoline f (hmem f hf)⟩

theorem mmpInitializeHooksForDotNet_unloaded (hloaded : environment.loaded = false) :
    (mmpInitializeHooksForDotNet code environment s).2 = s := by
  simp [mmpInitializeHooksForDotNet, hloaded]

/-- The state in which `MmpInitializeHooksForDotNet` begins its transaction. -/
def DotNetHooks.fetched (code : Code π κ) (s : DotNetHooks π κ) : DotNetHooks π κ :=
  { s with origin := Function.update s.origin .getFileVersion1 (code.exported .getFileVersion1) }

theorem HooksSound.fetched_attachable (h : HooksSound code s) (hinit : s.initialized = false) :
    Attachable code [.getFileVersion1] (s.fetched code).origin s.text := by
  have honly : ∀ f ∈ [HookedFunction.getFileVersion1], f = .getFileVersion1 :=
    fun f => List.mem_singleton.mp
  refine ⟨by decide, ?_, ?_⟩
  · intro f hf
    rw [honly f hf]
    simp [DotNetHooks.fetched]
  · intro f hf
    rw [honly f hf]
    exact h.uninitialized hinit

theorem mmpInitializeHooksForDotNet_attaches (hattaches : attaches code environment s = true) :
    environment.found = true ∧ s.initialized = false ∧
      (environment.detours [.getFileVersion1] (s.fetched code).origin s.text).committed = true ∧
      (mmpInitializeHooksForDotNet code environment s).2 =
        { (s.fetched code).attach environment.detours [.getFileVersion1]
            with initialized := true } := by
  simp only [attaches, Bool.and_eq_true, Bool.not_eq_true'] at hattaches
  obtain ⟨⟨⟨⟨hloaded, hfound⟩, hpre⟩, hinit⟩, hcommitted⟩ := hattaches
  refine ⟨hfound, hinit, hcommitted, ?_⟩
  simp [mmpInitializeHooksForDotNet, hloaded, hfound, hpre, hinit, Environment.getFileVersion,
    DotNetHooks.fetched]

/-- Otherwise it fetches the pointer anew, whether or not the function was patched before. -/
theorem mmpInitializeHooksForDotNet_fetches (hdetours : DetoursLaws code environment.detours)
    (hloaded : environment.loaded = true) (hattaches : attaches code environment s = false) :
    ∃ initialized text, (mmpInitializeHooksForDotNet code environment s).2 =
        { s with
          initialized := initialized
          origin := Function.update s.origin .getFileVersion1
            (environment.getFileVersion code .getFileVersion1)
          text := text } ∧
      (initialized = false → s.initialized = false) ∧
      ∀ p, code.leadsTo s.text p ≠ .elsewhere →
        code.leadsTo text p = code.leadsTo s.text p := by
  by_cases hready : environment.found = true ∧ s.preHooked = true
  · obtain ⟨hfound, hpre⟩ := hready
    by_cases hinit : s.initialized = true
    · refine ⟨true, s.text, ?_, nofun, fun _ _ => rfl⟩
      simp [mmpInitializeHooksForDotNet, hloaded, hfound, hpre, hinit]
    · have haborted : (environment.detours [.getFileVersion1] (s.fetched code).origin
          s.text).committed = false := by
        simpa [attaches, DotNetHooks.fetched, hloaded, hfound, hpre, hinit] using hattaches
      obtain ⟨horigin, hplaces⟩ := hdetours.aborted _ _ _ haborted
      refine ⟨true, _, ?_, nofun, hplaces⟩
      simp only [DotNetHooks.fetched] at horigin
      simp [mmpInitializeHooksForDotNet, hloaded, hfound, hpre, hinit, DotNetHooks.attach,
        Environment.getFileVersion, horigin, DotNetHooks.fetched]
  · refine ⟨s.initialized, s.text, ?_, id, fun _ _ => rfl⟩
    have hearly : (!environment.found || !s.preHooked) = true := by
      rw [Bool.or_eq_true, Bool.not_eq_true', Bool.not_eq_true']
      by_contra hneither
      exact hready ⟨by grind, by grind⟩
    simp [mmpInitializeHooksForDotNet, hloaded, hearly]

/-- Where the pointer that is fetched leads: to what is exported, patched or not. -/
theorem mmpInitializeHooksForDotNet_version (hdetours : DetoursLaws code environment.detours)
    (hloaded : environment.loaded = true) (h : HooksSound code s) :
    let t := (mmpInitializeHooksForDotNet code environment s).2
    code.leadsTo t.text (t.origin .getFileVersion1) =
      if environment.found then code.leadsTo s.text (code.exported .getFileVersion1)
      else .null := by
  intro t
  have ht : t = (mmpInitializeHooksForDotNet code environment s).2 := rfl
  by_cases hattaches : attaches code environment s = true
  · obtain ⟨hfound, hinit, hcommitted, heq⟩ := mmpInitializeHooksForDotNet_attaches hattaches
    rw [ht, heq, if_pos hfound, h.uninitialized hinit]
    exact hdetours.trampoline _ _ _ (h.fetched_attachable hinit) hcommitted _
      (List.mem_singleton_self _)
  · obtain ⟨initialized, text, heq, -, hplaces⟩ :=
      mmpInitializeHooksForDotNet_fetches hdetours hloaded (by simpa using hattaches)
    have horigin : t.origin .getFileVersion1 =
        environment.getFileVersion code .getFileVersion1 := by simp [ht, heq]
    have htext : t.text = text := by rw [ht, heq]
    rw [horigin, htext, Environment.getFileVersion]
    split
    · exact hplaces _ (h.exported_mapped _)
    · exact code.leadsTo_null text

theorem HooksSound.of_kept {t : DotNetHooks π κ} (h : HooksSound code s)
    (hpre : t.preHooked = s.preHooked)
    (hversion : code.leadsTo t.text (t.origin .getFileVersion1) = .null ∨
      code.leadsTo t.text (t.origin .getFileVersion1) = .original .getFileVersion1 ∨
      code.leadsTo t.text (t.origin .getFileVersion1) = .hook .getFileVersion1)
    (hexport : code.leadsTo t.text (code.exported .getFileVersion1) = .hook .getFileVersion1 ∨
      code.leadsTo t.text (code.exported .getFileVersion1) =
        code.leadsTo s.text (code.exported .getFileVersion1))
    (hinit : t.initialized = false →
      code.leadsTo t.text (code.exported .getFileVersion1) = .original .getFileVersion1)
    (hplaces : ∀ f ≠ .getFileVersion1, ∀ p,
      (code.leadsTo s.text p = .original f ∨ code.leadsTo s.text p = .hook f) →
        code.leadsTo t.text p = code.leadsTo s.text p)
    (horigin : ∀ f ≠ .getFileVersion1, t.origin f = s.origin f) : HooksSound code t := by
  have hother : ∀ f ∈ fileFunctions, f ≠ .getFileVersion1 := by decide
  have hkept : ∀ f ≠ .getFileVersion1,
      code.leadsTo t.text (code.exported f) = code.leadsTo s.text (code.exported f) :=
    fun f hf => hplaces f hf _ (h.exports f)
  refine ⟨?_, hversion, ?_, hinit, h.files.imp ?_ ?_⟩
  · intro f
    by_cases hf : f = .getFileVersion1
    · subst hf
      rcases hexport with hhook | hsame
      · exact .inr hhook
      · exact hsame.symm ▸ h.exports _
    · exact (hkept f hf).symm ▸ h.exports f
  · intro hfalse f hf
    have hne : f ≠ .getFileVersion1 := by
      rintro rfl
      exact absurd hf (by decide)
    exact (hkept f hne).trans (h.before (hpre ▸ hfalse) f hf)
  · exact fun hnone f hf => (hkept f (hother f hf)).trans (hnone f hf)
  · intro hall f hf
    obtain ⟨hhooked, hpointer⟩ := hall f hf
    refine ⟨(hkept f (hother f hf)).trans hhooked, ?_⟩
    rw [horigin f (hother f hf)]
    exact (hplaces f (hother f hf) _ (.inl hpointer)).trans hpointer

theorem mmpInitializeHooksForDotNet_sound (hdetours : DetoursLaws code environment.detours)
    (h : HooksSound code s) :
    HooksSound code (mmpInitializeHooksForDotNet code environment s).2 := by
  by_cases hloaded : environment.loaded = true
  · have hfetched : ∀ place,
        place = (if environment.found then code.leadsTo s.text (code.exported .getFileVersion1)
          else Place.null) →
        place = .null ∨ place = .original .getFileVersion1 ∨ place = .hook .getFileVersion1 := by
      rintro place rfl
      split
      · exact .inr (h.exports _)
      · exact .inl rfl
    have hversion := hfetched _ (mmpInitializeHooksForDotNet_version hdetours hloaded h)
    by_cases hattaches : attaches code environment s = true
    · obtain ⟨-, hinit, hcommitted, heq⟩ := mmpInitializeHooksForDotNet_attaches hattaches
      have hattachable := h.fetched_attachable hinit
      have hothers := hdetours.others _ _ _ hattachable hcommitted
      rw [heq] at hversion ⊢
      refine h.of_kept rfl hversion (.inl ?_) nofun ?_ ?_
      · exact hdetours.hooked _ _ _ hattachable hcommitted _ (List.mem_singleton_self _)
      · intro f hf p hp
        refine hothers p (fun g hg => h.ne_exported hp (List.mem_singleton.mp hg ▸ hf)) ?_
        rcases hp with hp | hp
        · simp [hp]
        · simp [hp]
      · intro f hf
        exact (hdetours.pointers _ _ _ f fun hmem => hf (List.mem_singleton.mp hmem)).trans
          (Function.update_of_ne hf _ _)
    · obtain ⟨initialized, text, heq, hinit, hplaces⟩ :=
        mmpInitializeHooksForDotNet_fetches hdetours hloaded (by simpa using hattaches)
      have hexport := hplaces _ (h.exported_mapped .getFileVersion1)
      rw [heq] at hversion ⊢
      refine h.of_kept rfl hversion (.inr hexport) ?_ ?_ ?_
      · exact fun hfalse => hexport.trans (h.uninitialized (hinit hfalse))
      · intro f hf p hp
        refine hplaces p ?_
        rcases hp with hp | hp
        · simp [hp]
        · simp [hp]
      · exact fun f hf => Function.update_of_ne hf _ _
  · rw [mmpInitializeHooksForDotNet_unloaded (by simpa using hloaded)]
    exact h

theorem mmpInitializeHooksForDotNet_patches (hdetours : DetoursLaws code environment.detours)
    (h : HooksSound code s) :
    (mmpInitializeHooksForDotNet code environment s).2.patched code .getFileVersion1 = true ↔
      s.patched code .getFileVersion1 = true ∨ attaches code environment s = true := by
  by_cases hattaches : attaches code environment s = true
  · obtain ⟨-, hinit, hcommitted, heq⟩ := mmpInitializeHooksForDotNet_attaches hattaches
    have hhooked := hdetours.hooked _ _ _ (h.fetched_attachable hinit) hcommitted _
      (List.mem_singleton_self _)
    rw [heq, DotNetHooks.patched]
    exact iff_of_true (decide_eq_true hhooked) (.inr hattaches)
  · have hsame : (mmpInitializeHooksForDotNet code environment s).2.patched code
        .getFileVersion1 = s.patched code .getFileVersion1 := by
      by_cases hloaded : environment.loaded = true
      · obtain ⟨_, text, heq, -, hplaces⟩ :=
          mmpInitializeHooksForDotNet_fetches hdetours hloaded (by simpa using hattaches)
        rw [heq, DotNetHooks.patched, DotNetHooks.patched, hplaces _ (h.exported_mapped _)]
      · rw [mmpInitializeHooksForDotNet_unloaded (by simpa using hloaded)]
    rw [hsame]
    simp [hattaches]

end Installation

section Runs

variable {π κ : Type} {code : Code π κ} {s : DotNetHooks π κ} {text : κ}

def Unpatched (code : Code π κ) (text : κ) : Prop :=
  ∀ f, code.leadsTo text (code.exported f) = .original f

theorem installStep_sound {call : InstallCall π κ}
    (hdetours : DetoursLaws code call.environment.detours) (h : HooksSound code s) :
    HooksSound code (installStep code s call) := by
  cases call with
  | preInitializeHooks environment => exact mmpPreInitializeHooksForDotNet_sound hdetours h
  | initializeHooks environment => exact mmpInitializeHooksForDotNet_sound hdetours h

theorem installed_sound (hstart : Unpatched code text) {calls : List (InstallCall π κ)}
    (hdetours : ∀ call ∈ calls, DetoursLaws code call.environment.detours) :
    HooksSound code (installed code text calls) := by
  have hzero : HooksSound code (.zero code text) :=
    ⟨fun f => .inl (hstart f), .inl (code.leadsTo_null text), fun _ f _ => hstart f,
      fun _ => hstart _, .inl fun f _ => hstart f⟩
  exact List.foldlRecOn calls (installStep code) hzero
    fun s h call hcall => installStep_sound (hdetours call hcall) h

/-- Whether the call finds mscoreei.dll loaded and so fetches `OriginGetFileVersion1`. -/
def InstallCall.fetches : InstallCall π κ → Bool
  | .preInitializeHooks _ => false
  | .initializeHooks environment => environment.loaded

theorem installStep_version {call : InstallCall π κ} (hfetches : call.fetches = false)
    (hdetours : DetoursLaws code call.environment.detours) (h : HooksSound code s) :
    let t := installStep code s call
    code.leadsTo t.text (t.origin .getFileVersion1) =
      code.leadsTo s.text (s.origin .getFileVersion1) := by
  cases call with
  | preInitializeHooks environment =>
    exact (mmpPreInitializeHooksForDotNet_version hdetours h).1
  | initializeHooks environment =>
    have hunloaded : environment.loaded = false := hfetches
    rw [installStep, mmpInitializeHooksForDotNet_unloaded hunloaded]

theorem foldl_installStep_version {calls : List (InstallCall π κ)}
    (hfetches : ∀ call ∈ calls, call.fetches = false)
    (hdetours : ∀ call ∈ calls, DetoursLaws code call.environment.detours)
    (h : HooksSound code s) :
    let t := calls.foldl (installStep code) s
    code.leadsTo t.text (t.origin .getFileVersion1) =
      code.leadsTo s.text (s.origin .getFileVersion1) := by
  induction calls generalizing s with
  | nil => rfl
  | cons call rest ih =>
    have hcall := hdetours call List.mem_cons_self
    have hstep := installStep_version (hfetches call List.mem_cons_self) hcall h
    have hrest := ih (fun c hc => hfetches c (List.mem_cons_of_mem call hc))
      (fun c hc => hdetours c (List.mem_cons_of_mem call hc)) (installStep_sound hcall h)
    exact hrest.trans hstep

theorem installed_concat (calls : List (InstallCall π κ)) (call : InstallCall π κ) :
    installed code text (calls ++ [call]) = installStep code (installed code text calls) call :=
  List.foldl_append

theorem installStep_patches {call : InstallCall π κ}
    (hdetours : DetoursLaws code call.environment.detours) (h : HooksSound code s) :
    (installStep code s call).patched code .getFileVersion1 = true ↔
      s.patched code .getFileVersion1 = true ∨
        ∃ environment, call = .initializeHooks environment ∧
          attaches code environment s = true := by
  cases call with
  | preInitializeHooks environment =>
    have hcall : DetoursLaws code environment.detours := hdetours
    obtain ⟨-, hexport, -⟩ := mmpPreInitializeHooksForDotNet_version hcall h
    simp [installStep, DotNetHooks.patched, hexport]
  | initializeHooks environment =>
    have hcall : DetoursLaws code environment.detours := hdetours
    rw [installStep, mmpInitializeHooksForDotNet_patches hcall h]
    simp

/-- The function of mscoreei.dll is patched by the first call that attaches. -/
theorem installed_patches (hstart : Unpatched code text) {calls : List (InstallCall π κ)}
    (hdetours : ∀ call ∈ calls, DetoursLaws code call.environment.detours) :
    (installed code text calls).patched code .getFileVersion1 = true ↔
      ∃ before environment after, calls = before ++ .initializeHooks environment :: after ∧
        attaches code environment (installed code text before) = true := by
  induction calls using List.reverseRecOn with
  | nil =>
    have hunpatched : (installed code text []).patched code .getFileVersion1 = false := by
      have hplace := hstart .getFileVersion1
      simp [installed, DotNetHooks.patched, DotNetHooks.zero, hplace]
    simp [hunpatched]
  | append_singleton calls call ih =>
    have hbefore : ∀ c ∈ calls, DetoursLaws code c.environment.detours :=
      fun c hc => hdetours c (List.mem_append_left _ hc)
    have hcall := hdetours call (by simp)
    rw [installed_concat, installStep_patches hcall (installed_sound hstart hbefore), ih hbefore]
    constructor
    · rintro (⟨before, environment, after, rfl, hattaches⟩ | ⟨environment, rfl, hattaches⟩)
      · exact ⟨before, environment, after ++ [call], by simp, hattaches⟩
      · exact ⟨calls, environment, [], rfl, hattaches⟩
    · rintro ⟨before, environment, after, heq, hattaches⟩
      cases after using List.reverseRecOn with
      | nil =>
        obtain ⟨rfl, hlast⟩ := List.append_inj' heq rfl
        exact .inr ⟨environment, (List.cons.inj hlast).1, hattaches⟩
      | append_singleton after last =>
        rw [← List.cons_append, ← List.append_assoc] at heq
        obtain ⟨rfl, -⟩ := List.append_inj' heq rfl
        exact .inl ⟨before, environment, after, rfl, hattaches⟩

end Runs

section Landings

variable {π κ : Type} {code : Code π κ} {s : DotNetHooks π κ} {pointer : π} {place : Place}

theorem landsAt_place (hplace : code.leadsTo s.text pointer = place)
    (hend : ∀ f, place ≠ .hook f) : LandsAt code s pointer place := by
  refine ⟨1, ?_⟩
  cases place with
  | hook f => exact absurd rfl (hend f)
  | null => rw [landing, hplace]
  | original f => rw [landing, hplace]
  | elsewhere => rw [landing, hplace]

theorem landing_hook {f : HookedFunction} (hplace : code.leadsTo s.text pointer = .hook f)
    (fuel : Nat) :
    landing code s (fuel + 1) pointer = landing code s fuel (s.origin (handsOnTo f)) := by
  rw [landing, hplace]

theorem LandsAt.hook {f : HookedFunction} (hplace : code.leadsTo s.text pointer = .hook f)
    (hlands : LandsAt code s (s.origin (handsOnTo f)) place) : LandsAt code s pointer place := by
  obtain ⟨fuel, hfuel⟩ := hlands
  exact ⟨fuel + 1, (landing_hook hplace fuel).trans hfuel⟩

theorem Endless.hook {f : HookedFunction} (hplace : code.leadsTo s.text pointer = .hook f)
    (hendless : Endless code s (s.origin (handsOnTo f))) : Endless code s pointer := by
  intro fuel
  cases fuel with
  | zero => rfl
  | succ fuel => exact (landing_hook hplace fuel).trans (hendless fuel)

theorem endless_of_back {f : HookedFunction} (hself : handsOnTo f = f)
    (hback : code.leadsTo s.text (s.origin f) = .hook f) : Endless code s (s.origin f) := by
  intro fuel
  induction fuel with
  | zero => rfl
  | succ fuel ih =>
    calc landing code s (fuel + 1) (s.origin f)
        = landing code s fuel (s.origin (handsOnTo f)) := landing_hook hback fuel
      _ = landing code s fuel (s.origin f) := by rw [hself]
      _ = none := ih

theorem HooksSound.lands (h : HooksSound code s) {f : HookedFunction} (hf : f ∈ fileFunctions) :
    LandsAt code s (code.exported f)
      (.original (if s.patched code f then handsOnTo f else f)) := by
  rcases h.files with hnone | hall
  · have hunpatched : s.patched code f = false := by simp [DotNetHooks.patched, hnone f hf]
    rw [if_neg (by simp [hunpatched])]
    exact landsAt_place (hnone f hf) nofun
  · have hnext : ∀ f ∈ fileFunctions, handsOnTo f ∈ fileFunctions := by decide
    have hpatched : s.patched code f = true := decide_eq_true (hall f hf).1
    rw [if_pos hpatched]
    exact .hook (hall f hf).1 (landsAt_place (hall _ (hnext f hf)).2 nofun)

theorem HooksSound.unpatched_lands (h : HooksSound code s) {f : HookedFunction}
    (hunpatched : s.patched code f = false) : LandsAt code s (code.exported f) (.original f) := by
  refine landsAt_place ((h.exports f).resolve_right ?_) nofun
  exact of_decide_eq_false hunpatched

end Landings

/-- The pointers of a process in which Detours patches exports: a trampoline has the code that its
function had when it was patched. -/
inductive CodePointer where
  | null
  | exported (function : HookedFunction)
  | trampoline (function : HookedFunction)
deriving DecidableEq, Repr

/-- The text says which exports have been patched. -/
def patchedExports : Code CodePointer (HookedFunction → Bool) where
  null := .null
  exported := .exported
  leadsTo := fun patched pointer =>
    match pointer with
    | .null => .null
    | .exported f => if patched f then .hook f else .original f
    | .trampoline f => .original f
  leadsTo_null := fun _ => rfl

def patchExports (commits : Bool) : DetourTransaction CodePointer (HookedFunction → Bool) :=
  fun functions origin patched =>
    { committed := commits
      origin := fun f => if commits && decide (f ∈ functions) then .trampoline f else origin f
      text := fun f => commits && decide (f ∈ functions) || patched f }

theorem patchExports_lawful (commits : Bool) :
    DetoursLaws patchedExports (patchExports commits) := by
  constructor
  · intro functions origin patched haborted
    have haborted : commits = false := haborted
    simp [patchExports, haborted]
  · intro functions origin patched f hf
    simp [patchExports, hf]
  · intro functions origin patched _ hcommitted f hf
    have hcommitted : commits = true := hcommitted
    simp [patchExports, patchedExports, hcommitted, hf]
  · intro functions origin patched _ hcommitted f hf
    have hcommitted : commits = true := hcommitted
    simp [patchExports, patchedExports, hcommitted, hf]
  · intro functions origin patched _ hcommitted p hother _
    have hcommitted : commits = true := hcommitted
    cases p with
    | null => rfl
    | trampoline f => rfl
    | exported f =>
      have hf : f ∉ functions := fun hmem => hother f hmem rfl
      simp [patchExports, patchedExports, hcommitted, hf]

end WinPolyfillLoader.MmpDotNet.HookInstallation
