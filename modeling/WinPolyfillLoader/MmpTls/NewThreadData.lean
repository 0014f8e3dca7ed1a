import WinPolyfillLoader.MmpTls.IndexRegistry
import WinPolyfillLoader.MmpTls.Kernel

/-!
The data that a new thread gets for the modules that are listed already. The
loop of `MmpAllocateTlsLockHeld` takes an empty template for a refused request
and stops there, where `MmpHandleTlsData` asks for zero bytes and goes on.
-/

namespace WinPolyfillLoader.MmpTls

open ProcessHeap ByteMemory

/-- The first byte of the template of a list entry. -/
abbrev TlsEntry.start (e : TlsEntry) : Nat := e.tlsDirectory.startAddressOfRawData

theorem storeBlocks_at {vector : Nat} {entries : List TlsEntry} {blocks : List Nat}
    {slots : Slots} (hindices : (entries.map TlsEntry.index).Nodup) {e : TlsEntry} {block : Nat}
    (h : (e, block) ∈ entries.zip blocks) :
    storeBlocks vector entries blocks slots vector e.index = block := by
  induction entries generalizing blocks slots with
  | nil => cases h
  | cons first entries ih =>
    cases blocks with
    | nil => cases h
    | cons b blocks =>
      obtain ⟨hnew, hrest⟩ := List.nodup_cons.mp hindices
      rcases List.mem_cons.mp h with heq | hmem
      · cases heq
        exact (storeBlocks_other (Or.inr hnew)).trans (writeSlot_self slots vector _ _)
      · exact ih hrest hmem

theorem copyTemplates_outside {entries : List TlsEntry} {blocks : List Nat} {memory : Bytes}
    {k : Nat} (h : ∀ p ∈ entries.zip blocks, k < p.2 ∨ p.2 + p.1.length ≤ k) :
    copyTemplates entries blocks memory k = memory k := by
  induction entries generalizing blocks memory with
  | nil => rfl
  | cons e entries ih =>
    cases blocks with
    | nil => rfl
    | cons block blocks =>
      have hrest : ∀ p ∈ entries.zip blocks, k < p.2 ∨ p.2 + p.1.length ≤ k :=
        fun p hp => h p (List.mem_cons_of_mem _ hp)
      exact (ih hrest).trans (blit_outside memory (h (e, block) List.mem_cons_self))

/-- A block for each entry, none of which overlaps another block or a template. -/
structure OwnMemory (entries : List TlsEntry) (blocks : List Nat) : Prop where
  apart : (entries.zip blocks).Pairwise fun p q => Apart p.2 p.1.length q.2 q.1.length
  templates : ∀ e ∈ entries, ∀ p ∈ entries.zip blocks, Apart e.start e.length p.2 p.1.length

theorem OwnMemory.tail {e : TlsEntry} {entries : List TlsEntry} {block : Nat} {blocks : List Nat}
    (h : OwnMemory (e :: entries) (block :: blocks)) : OwnMemory entries blocks where
  apart := (List.pairwise_cons.mp h.apart).2
  templates := fun p hp q hq =>
    h.templates p (List.mem_cons_of_mem _ hp) q (List.mem_cons_of_mem _ hq)

theorem copyTemplates_starts {entries : List TlsEntry} {blocks : List Nat} {memory : Bytes}
    (hown : OwnMemory entries blocks) {e : TlsEntry} {block : Nat}
    (h : (e, block) ∈ entries.zip blocks) {j : Nat} (hj : j < e.length) :
    copyTemplates entries blocks memory (block + j) = memory (e.start + j) := by
  induction entries generalizing blocks memory with
  | nil => cases h
  | cons first entries ih =>
    cases blocks with
    | nil => cases h
    | cons b blocks =>
      rcases List.mem_cons.mp h with heq | hmem
      · cases heq
        have hlater : ∀ p ∈ entries.zip blocks, block + j < p.2 ∨ p.2 + p.1.length ≤ block + j := by
          intro p hp
          have hapart : Apart block e.length p.2 p.1.length :=
            (List.pairwise_cons.mp hown.apart).1 p hp
          unfold Apart at hapart
          omega
        apply (copyTemplates_outside hlater).trans
        apply (blit_inside memory (Nat.le_add_right block j) (by omega)).trans
        rw [Nat.add_sub_cancel_left, Nat.add_comm]
      · refine (ih hown.tail hmem).trans (blit_outside memory ?_)
        have hentry : e ∈ entries := (List.of_mem_zip hmem).1
        have hapart : Apart e.start e.length b first.length :=
          hown.templates e (List.mem_cons_of_mem _ hentry) (first, b) List.mem_cons_self
        unfold Apart at hapart
        omega

/-- `MmpHandleTlsData` fills the blocks of the threads that run already in the same
way, one for each thread, and does so for an empty template too. -/
theorem allocateThreadData_copies (e : TlsEntry) (n : Nat) (blocks : List Nat) (state : MmpState) :
    (allocateThreadData e.tlsDirectory n blocks state).1 = none ∨
    ∃ fresh, (allocateThreadData e.tlsDirectory n blocks state).1 = some (blocks ++ fresh) ∧
      fresh.length = n ∧ (allocateThreadData e.tlsDirectory n blocks state).2.memory =
        copyTemplates (List.replicate n e) fresh state.memory := by
  induction n generalizing blocks state with
  | zero => exact Or.inr ⟨[], by rw [List.append_nil]; rfl, rfl, rfl⟩
  | succ n ih =>
    rcases rtlAllocateHeap_cases state with ⟨heap, halloc, _⟩ | ⟨block, heap, halloc, hblock, _⟩
    · exact Or.inl (by simp only [allocateThreadData, halloc])
    · let memory := blit state.memory block state.memory e.start e.length
      have hunfold : allocateThreadData e.tlsDirectory (n + 1) blocks state =
          allocateThreadData e.tlsDirectory n (blocks ++ [block])
            { state with heap := heap, memory := memory } :=
        allocateThreadData_granted e.tlsDirectory n blocks hblock halloc
      rw [hunfold]
      rcases ih (blocks ++ [block]) { state with heap := heap, memory := memory } with
        hrefused | ⟨fresh, hblocks, hlength, hmemory⟩
      · exact Or.inl hrefused
      · refine Or.inr ⟨block :: fresh, ?_, congrArg Nat.succ hlength, hmemory⟩
        rw [hblocks, List.append_assoc]
        rfl

/-- The blocks that the heap has for the templates of a new thread, behind those
for its record and its vector. -/
def templateBlocks (process : TlsProcess) : List Nat :=
  (process.mmp.heap.next (process.mmp.mmpTlsList.length + 2)).drop 2

/-- The heap serves the start of a thread: every request is granted, and the
blocks for the templates are memory of their own. -/
structure ServesStart (process : TlsProcess) : Prop where
  grants : process.mmp.heap.grants (process.mmp.mmpTlsList.length + 2) = true
  own : OwnMemory process.mmp.mmpTlsList (templateBlocks process)

/-- The block in the thread's slot of a list entry is fresh and starts with the
template. -/
structure HoldsTemplate (before after : MmpState) (vector : Nat) (e : TlsEntry) : Prop where
  block : after.slots vector e.index ≠ 0
  fresh : after.slots vector e.index ∉ before.heap.live
  live : after.slots vector e.index ∈ after.heap.live
  template : ∀ j < e.length,
    after.memory (after.slots vector e.index + j) = before.memory (e.start + j)

/-- The thread starts without an error and has the data of every listed module. -/
def GetsModuleData (clientId : Nat) (process : TlsProcess) : Prop :=
  let result := mmpAllocateTlsLockHeld clientId process
  result.1 = errorSuccess ∧ ∀ e ∈ process.mmp.mmpTlsList,
    HoldsTemplate process.mmp result.2.mmp (threadPointer result.2.threads clientId) e

theorem threadPointer_set {threads : List Teb} {clientId : Nat} (vector : Nat)
    (h : threadPointer threads clientId ≠ 0) :
    threadPointer (setThreadPointer threads clientId vector) clientId = vector := by
  induction threads with
  | nil => exact absurd rfl h
  | cons teb threads ih =>
    rcases Decidable.em (teb.clientId = clientId) with heq | hne
    · simp [threadPointer, setThreadPointer, heq]
    · have hcons : ∀ rest, threadPointer (teb :: rest) clientId = threadPointer rest clientId := by
        intro rest
        have hbeq : (teb.clientId == clientId) = false := by simpa using hne
        simp only [threadPointer, List.find?_cons, hbeq]
      rw [hcons] at h
      have hset : setThreadPointer (teb :: threads) clientId vector =
          teb :: setThreadPointer threads clientId vector := by
        simp only [setThreadPointer, List.map_cons, if_neg hne]
      rw [hset, hcons]
      exact ih h

/-- A new thread that gets a block for every entry gets its template. -/
theorem started_holdsTemplate {clientId record tlsVector : Nat} {blocks : List Nat} {heap : Heap}
    {process : TlsProcess} (hregistry : RegistryDescribes process.mmp)
    (hown : OwnMemory process.mmp.mmpTlsList blocks)
    (hgranted : Granted process.mmp.heap heap ([record, tlsVector] ++ blocks))
    (hlength : blocks.length = process.mmp.mmpTlsList.length) {e : TlsEntry}
    (he : e ∈ process.mmp.mmpTlsList) :
    HoldsTemplate process.mmp (started clientId record tlsVector blocks heap process).mmp
      (moduleTlsData tlsVector) e := by
  obtain ⟨i, hi, hget⟩ := List.getElem_of_mem he
  have hzip : (e, blocks[i]) ∈ process.mmp.mmpTlsList.zip blocks := by
    rw [← hget, ← List.getElem_zip]
    exact List.getElem_mem (by simp [hlength, hi])
  have hblock : blocks[i] ∈ [record, tlsVector] ++ blocks :=
    List.mem_append_right _ (List.getElem_mem _)
  have hslot : (started clientId record tlsVector blocks heap process).mmp.slots
      (moduleTlsData tlsVector) e.index = blocks[i] := storeBlocks_at hregistry.nodup hzip
  obtain ⟨h0, hfresh⟩ := hgranted.fresh _ hblock
  constructor
  · rw [hslot]
    exact h0
  · rw [hslot]
    exact hfresh
  · rw [hslot]
    have hlive : (started clientId record tlsVector blocks heap process).mmp.heap.live =
        ([record, tlsVector] ++ blocks).reverse ++ process.mmp.heap.live := hgranted.live
    rw [hlive]
    exact List.mem_append_left _ (List.mem_reverse.mpr hblock)
  · intro j hj
    rw [hslot]
    exact copyTemplates_starts hown hzip hj

/-- With a heap that serves it, a new thread gets the data of every listed
module exactly when no module is listed, or when it has a vector and no record
yet and no template is empty. -/
theorem newThread_getsModuleData_iff (clientId : Nat) (process : TlsProcess)
    (hregistry : RegistryDescribes process.mmp) (hserves : ServesStart process) :
    GetsModuleData clientId process ↔
      process.mmp.mmpTlsList = [] ∨
        (NeedsVector clientId process ∧ ∀ e ∈ process.mmp.mmpTlsList, e.length ≠ 0) := by
  have hexits := mmpAllocateTlsLockHeld_exits clientId process
  unfold GetsModuleData
  generalize mmpAllocateTlsLockHeld clientId process = result at hexits ⊢
  cases hexits with
  | skipped hskip =>
    constructor
    · rintro ⟨-, hdata⟩
      cases hlist : process.mmp.mmpTlsList with
      | nil => exact Or.inl rfl
      | cons e entries =>
        have hholds := hdata e (hlist ▸ List.mem_cons_self)
        exact absurd hholds.live hholds.fresh
    · rintro (hempty | ⟨hneeds, -⟩)
      · rw [hempty]
        exact ⟨rfl, fun e he => absurd he (List.not_mem_nil)⟩
      · exact absurd hneeds hskip
  | refused _ _ hreason =>
    have hgranted := grants_of_le (Nat.le_add_left 2 process.mmp.mmpTlsList.length) hserves.grants
    rw [hgranted] at hreason
    cases hreason
  | installed hneeds hgranted hnext hle hfull hshort =>
    rename_i record tlsVector blocks heap
    rcases Nat.lt_or_eq_of_le hle with hlt | hlength
    · obtain ⟨e, hget, hempty⟩ := hshort hlt hserves.grants
      have he : e ∈ process.mmp.mmpTlsList := List.mem_of_getElem? hget
      have hne : blocks.length ≠ process.mmp.mmpTlsList.length := Nat.ne_of_lt hlt
      apply iff_of_false
      · rintro ⟨hsuccess, -⟩
        simp only [if_neg hne] at hsuccess
        cases hsuccess
      · rintro (hnil | ⟨-, hall⟩)
        · rw [hnil] at he
          cases he
        · exact hall e he hempty
    · apply iff_of_true
      · have hblocks : templateBlocks process = blocks := by
          rw [templateBlocks, ← hlength, hnext]
          rfl
        have hown : OwnMemory process.mmp.mmpTlsList blocks := hblocks ▸ hserves.own
        refine ⟨if_pos hlength, fun e he => ?_⟩
        have hpointer : threadPointer
            (started clientId record tlsVector blocks heap process).threads clientId =
              moduleTlsData tlsVector := threadPointer_set _ hneeds.1
        rw [hpointer]
        exact started_holdsTemplate hregistry hown hgranted hlength he
      · refine Or.inr ⟨hneeds, fun e he => hfull e ?_⟩
        rw [hlength, List.take_length]
        exact he

/-- A process in which the thread 4 has its record and the thread 8 is about to
start with a vector of ntdll. -/
def secondThread (answers : List (Option Nat)) : TlsProcess where
  mmp := {
    mmpTlsList := []
    mmpTlsBitmap := fun k => k < mmpStartTlsIndex
    mmpThreadLocalStoragePointer := [⟨0x1800, 4, 0x1010, 0x2010⟩]
    mmpActiveThreadCount := 1
    slots := fun _ _ => 0
    memory := fun _ => 0
    heap := ⟨[0x1000, 0x1800, 0x2000, 0x3000], answers, []⟩ }
  threads := [⟨4, 0x2010⟩, ⟨8, 0x3010⟩]
  length := fun _ => 5
  tlspVectors := [0x2010]
  mmpPostponedTlsList := some []

/-- That process after a load with the given template, which the kernel serves
for the thread 4. -/
def secondThreadLoaded (template : Nat × Nat) : NtStatus × TlsProcess :=
  let process := secondThread ([0x4000, 0x5000, 0x6000, 0x7000, 0x8000, 0x8800, 0x9800].map some)
  let kernel := replaceIndexAnswer statusSuccess [⟨⟨4, 0x2010⟩, 0, 1⟩]
  let result := mmpHandleTlsData kernel true (some ⟨template.1, template.2, 0xb000, 0, 0, 0⟩) 0xc000
    process.mmp
  (result.1, { process with mmp := result.2 })

theorem secondThreadLoaded_describes (template : Nat × Nat) :
    RegistryDescribes (secondThreadLoaded template).2.mmp := by
  apply RegistryDescribes.load
  constructor
  · exact fun e he => absurd he List.not_mem_nil
  · exact List.nodup_nil
  · simp [secondThread]

/-- The load accepts an empty template and gives the running thread a block for
it, but the thread that starts then gets an error. -/
theorem newThread_emptyTemplate :
    let loaded := secondThreadLoaded (0xa000, 0xa000)
    ntSuccess loaded.1 = true ∧ loaded.2.mmp.slots 0x2010 0x80 = 0x6000 ∧
      RegistryDescribes loaded.2.mmp ∧ ServesStart loaded.2 ∧ NeedsVector 8 loaded.2 ∧
      ¬ GetsModuleData 8 loaded.2 := by
  intro loaded
  have hfailed : (mmpAllocateTlsLockHeld 8 loaded.2).1 = errorNotEnoughMemory := by decide +kernel
  refine ⟨by decide +kernel, by decide +kernel, secondThreadLoaded_describes _, ?_, ?_, ?_⟩
  · constructor
    · decide +kernel
    · constructor
      · decide +kernel
      · decide +kernel
  · constructor
    · decide +kernel
    · decide +kernel
  · rintro ⟨hsuccess, -⟩
    rw [hfailed] at hsuccess
    cases hsuccess

/-- The same with a template of eight bytes, which the new thread gets. -/
theorem newThread_template :
    GetsModuleData 8 (secondThreadLoaded (0xa000, 0xa008)).2 := by
  apply (newThread_getsModuleData_iff 8 _ (secondThreadLoaded_describes _) ?_).mpr
  · refine Or.inr ⟨?_, by decide +kernel⟩
    constructor
    · decide +kernel
    · decide +kernel
  · constructor
    · decide +kernel
    · constructor
      · decide +kernel
      · decide +kernel

end WinPolyfillLoader.MmpTls
