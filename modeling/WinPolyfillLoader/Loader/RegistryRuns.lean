import WinPolyfillLoader.Loader.RegistryLoads
import WinPolyfillLoader.Loader.TableRegistry

/-!
Runs of loads and unloads of any modules, in any order. The holders of a module are the loads
that handed it out, less the unloads: while there are some it is registered, and what is
registered without holders is nothing.
-/

namespace WinPolyfillLoader.Loader

open LdrEntry

variable {δ ι τ ρ : Type}

/-- The states that loads and unloads reach, with the holders of each module. -/
inductive Reaches (H : Helpers δ ι τ ρ) (start : Process δ ι τ ρ) :
    (Nat → Nat) → Process δ ι τ ρ → Prop where
  | start : Reaches H start (fun _ => 0) start
  | load {holders : Nat → Nat} {p : Process δ ι τ ρ} {result : LoadResult δ ι τ ρ}
      (request : LoadRequest) (h : Reaches H start holders p)
      (hload : ldrLoadDllMemoryExW H request p = .ok result) :
      Reaches H start (holdersAfterLoad holders result) result.process
  | unload {holders : Nat → Nat} {p q : Process δ ι τ ρ} {status : NtStatus} (base : Nat)
      (h : Reaches H start holders p) (hunload : ldrUnloadDllMemory H base p = .ok (status, q)) :
      Reaches H start (holdersAfterUnload holders base) q

structure Views.Empty (V : Views δ ι τ ρ) (p : Process δ ι τ ρ) : Prop where
  entries : V.entries p.database = ∅
  bases : V.bases p.invertedTable = ∅
  tlsEntries : V.tlsEntries p.tlsList = ∅
  images : V.images p.regions = ∅
  table : V.sound p.invertedTable

section Runs

variable {H : Helpers δ ι τ ρ} {V : Views δ ι τ ρ} {holders : Nat → Nat}
variable {start p : Process δ ι τ ρ}

theorem Views.Empty.agrees (h : V.Empty p) (hnone : ∀ b, p.modules b = none) :
    Agrees H V (fun _ => 0) p where
  module := by
    intro b m hm
    rw [hnone b] at hm
    cases hm
  images := by
    intro b
    rw [h.images, hnone b]
    exact iff_of_false (Set.notMem_empty b) Bool.false_ne_true
  distinct := by
    intro b m _ _ hm
    rw [hnone b] at hm
    cases hm
  entries := by
    intro e he
    rw [h.entries] at he
    exact absurd he (Set.notMem_empty e)
  bases := by
    intro b hb
    rw [h.bases] at hb
    exact absurd hb (Set.notMem_empty b)
  tlsEntries := by
    intro e he
    rw [h.tlsEntries] at he
    exact absurd he (Set.notMem_empty e)
  released := fun b => iff_of_true rfl (hnone b)
  table := h.table
  foreign := by
    intro b hb
    rw [hnone b] at hb
    cases hb

theorem Agrees.empty (h : Agrees H V holders p) (hfree : ∀ b, holders b = 0) : V.Empty p := by
  have hnone : ∀ b, p.modules b = none := fun b => (h.released b).mp (hfree b)
  have hentries : V.entries p.database = ∅ := by
    rw [Set.eq_empty_iff_forall_notMem]
    intro e he
    obtain ⟨b, m, hm, -⟩ := h.entries e he
    rw [hnone b] at hm
    cases hm
  refine ⟨hentries, ?_, ?_, ?_, h.table⟩
  · rw [Set.eq_empty_iff_forall_notMem]
    intro b hb
    have hmodule := h.bases b hb
    rw [hnone b] at hmodule
    cases hmodule
  · rw [Set.eq_empty_iff_forall_notMem]
    intro e he
    have hentry := h.tlsEntries e he
    rw [hentries] at hentry
    exact Set.notMem_empty e hentry
  · rw [Set.eq_empty_iff_forall_notMem]
    intro b hb
    rw [h.images b, hnone b] at hb
    cases hb

theorem reaches_agrees (laws : H.Registers V) (hstart : Agrees H V (fun _ => 0) start)
    (h : Reaches H start holders p) : Agrees H V holders p := by
  induction h with
  | start => exact hstart
  | load request _ hload ih =>
    obtain ⟨result, hresult, hagrees, -⟩ := ldrLoadDllMemoryExW_agrees laws ih request
    cases hload.symm.trans hresult
    exact hagrees
  | unload base _ hunload ih =>
    obtain ⟨status, q, hresult, hagrees, -⟩ := ldrUnloadDllMemory_agrees laws ih base
    cases hunload.symm.trans hresult
    exact hagrees

end Runs

/-- After any loads and unloads the flags of every module say what is registered for it, and a
module is there while it has holders. The next load returns, and leaves all modules if it fails;
the next unload does not fail fast, and takes down its module only from the last holder. When
nothing has holders, nothing is registered. -/
theorem registries_agree {H : Helpers δ ι τ ρ} {V : Views δ ι τ ρ} (laws : H.Registers V)
    {start p : Process δ ι τ ρ} {holders : Nat → Nat} (hempty : V.Empty start)
    (hnone : ∀ b, start.modules b = none) (h : Reaches H start holders p) :
    Agrees H V holders p ∧
      (∀ request, ∃ result, ldrLoadDllMemoryExW H request p = .ok result ∧
        (ntSuccess result.status = false → result.process.modules = p.modules)) ∧
      (∀ base, ∃ status q, ldrUnloadDllMemory H base p = .ok (status, q) ∧ q.modules =
        if holders base ≤ 1 then Function.update p.modules base none else p.modules) ∧
      ((∀ b, holders b = 0) → V.Empty p) := by
  have hagrees := reaches_agrees laws (hempty.agrees hnone) h
  refine ⟨hagrees, ?_, ?_, hagrees.empty⟩
  · intro request
    obtain ⟨result, hload, -, hfails⟩ := ldrLoadDllMemoryExW_agrees laws hagrees request
    exact ⟨result, hload, hfails⟩
  · intro base
    obtain ⟨status, q, hunload, -, hmodules⟩ := ldrUnloadDllMemory_agrees laws hagrees base
    exact ⟨status, q, hunload, hmodules⟩

def otherRequest : LoadRequest := { stackRequest with dllName := some [0x62] }

/-- Windows 10 with ntdll in entry 0 of its table. -/
def tableHelpers : Helpers (List StackProcess.StackEntry) InvertedFunctionTable.Table64 (List Nat)
    (List Nat) :=
  (ListProcess.listHelpers stackImage).withTable64 ⟨10, 0, 19041⟩ (fun base => (base, 12))
    (statusSuccess, statusSuccess)

def tableStart : Process (List StackProcess.StackEntry) InvertedFunctionTable.Table64 (List Nat)
    (List Nat) :=
  ⟨[], ⟨1, 0x200, 0, 0, fun _ => ⟨0, 0x7ff0, 0x100, 0⟩⟩, [], [], fun _ => none, []⟩

theorem tableStart_empty : (ListProcess.listViews.withTable64 ⟨10, 0, 19041⟩).Empty tableStart := by
  have hnone : InvertedFunctionTable.sortedEntries ⟨10, 0, 19041⟩ tableStart.invertedTable = [] :=
    CountedArray.segment_of_le _ (by decide)
  constructor
  · simp [Views.withTable64, ListProcess.listViews, tableStart]
  · rw [Set.eq_empty_iff_forall_notMem]
    rintro b ⟨-, e, he, -⟩
    rw [hnone] at he
    cases he
  · simp [Views.withTable64, ListProcess.listViews, tableStart]
  · simp [Views.withTable64, ListProcess.listViews, tableStart]
  · refine ⟨⟨⟨by decide, by decide, ?_⟩, fun hflag => absurd rfl hflag⟩, ?_⟩
    · rw [hnone]
      exact List.Pairwise.nil
    · intro k _
      change 0x7ff0 < 0x8000
      decide

/-- Two modules are loaded, and the first one once more; two unloads later it is gone. -/
theorem registries_agree_two_modules :
    ∃ holders p, Reaches tableHelpers tableStart holders p ∧
      holders 0x8000 = 1 ∧ holders 0x10000 = 1 ∧ p.invertedTable.count = 3 ∧
      Agrees tableHelpers (ListProcess.listViews.withTable64 ⟨10, 0, 19041⟩) holders p ∧
      ∃ status q, ldrUnloadDllMemory tableHelpers 0x8000 p = .ok (status, q) ∧
        q.modules = Function.update p.modules 0x8000 none := by
  have hload : Reaches tableHelpers tableStart _ _ := .load stackRequest .start rfl
  have hother := Reaches.load otherRequest hload rfl
  have hagain := Reaches.load stackRequest hother rfl
  have hunload := Reaches.unload 0x8000 hagain rfl
  have laws : tableHelpers.Registers (ListProcess.listViews.withTable64 ⟨10, 0, 19041⟩) :=
    (ListProcess.listHelpers_registers stackImage).withTable64 (fun _ => rfl) (fun _ => rfl)
  obtain ⟨hagrees, -, hnext, -⟩ := registries_agree laws tableStart_empty (fun _ => rfl) hunload
  obtain ⟨status, q, hq, hmodules⟩ := hnext 0x8000
  exact ⟨_, _, hunload, rfl, rfl, rfl, hagrees, status, q, hq, hmodules⟩

end WinPolyfillLoader.Loader
