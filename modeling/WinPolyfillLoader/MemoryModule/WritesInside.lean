import WinPolyfillLoader.MemoryModule.Accesses

/-!
The writes of a run against the reservation `[base, base + SizeOfImage)`. None of
the sizes and addresses that the buffer gives is compared with `SizeOfImage`, so
a run stays inside exactly if the buffer happens to keep to it.
-/

namespace WinPolyfillLoader.MemoryModule

open ByteMemory

/-- The range lies inside the reservation. -/
def InReservation (c : Caller) (address size : Nat) : Prop :=
  c.reservedBase ≤ address ∧ address + size ≤ c.reservedBase + c.member sizeOfImage

/-- Every byte that is written lies inside the reservation. -/
def WritesInside (c : Caller) (trace : List Access) : Prop :=
  ∀ a n, .write a n ∈ trace → ∀ k, a ≤ k → k < a + n →
    c.reservedBase ≤ k ∧ k < c.reservedBase + c.member sizeOfImage

/-- The buffer keeps to its own `SizeOfImage`: the headers, the member `ImageBase`,
the raw data of each section that is copied and the integer of each fixup. -/
structure KeepsToImage (c : Caller) (fuel : Nat) (s : Machine) : Prop where
  headers : c.member sizeOfHeaders ≤ c.member sizeOfImage
  base : InReservation c (c.newHeader c.reservedBase + (imageBase c.host).offset)
    (imageBase c.host).size
  sections : EachCopied c (c.newHeader c.reservedBase)
    (fun imageBase x => InReservation c (x.destination c imageBase) x.sizeOfRawData)
    fuel 0 (sectionTable c s) (headersCopied c s)
  fixups : ∀ s', copySections c (c.newHeader c.reservedBase) fuel 0 (sectionTable c s)
      (headersCopied c s) = (some statusSuccess, s') →
    EachRebased c c.reservedBase (c.newHeader c.reservedBase)
      (fun f => InReservation c (c.host.offset c.reservedBase f.target) f.width) fuel s'

/-- The condition of one access. -/
def WriteInside (c : Caller) : Access → Prop
  | .write a n => ∀ k, a ≤ k → k < a + n →
      c.reservedBase ≤ k ∧ k < c.reservedBase + c.member sizeOfImage
  | _ => True

variable {c : Caller} {s : Machine}

theorem onTransfers_writeInside (c : Caller) : OnTransfers (WriteInside c) where
  read := fun _ _ => trivial
  reserve := fun _ _ => trivial
  commit := fun _ _ => trivial

theorem writesInside_iff_meets (s : Machine) :
    WritesInside c s.trace ↔ Meets (WriteInside c) s := by
  constructor
  · intro h access hmem
    cases access with
    | write a n => exact h a n hmem
    | readBuffer a n => trivial
    | read a n => trivial
    | reserve a n => trivial
    | commit a n => trivial
  · intro h a n hmem
    exact h _ hmem

theorem writeInside_iff {a n : Nat} (hn : n ≠ 0) :
    WriteInside c (.write a n) ↔ InReservation c a n := by
  constructor
  · intro h
    have hfirst := h a (Nat.le_refl a) (by omega)
    have hlast := h (a + n - 1) (by omega) (by omega)
    constructor
    · exact hfirst.1
    · omega
  · rintro ⟨hstart, hend⟩ k hk hkn
    omega

theorem writeInside_headers : WriteInside c (.write c.reservedBase (c.member sizeOfHeaders)) ↔
    c.member sizeOfHeaders ≤ c.member sizeOfImage := by
  rcases Nat.eq_zero_or_pos (c.member sizeOfHeaders) with hzero | hpos
  · rw [hzero]
    refine iff_of_true ?_ (Nat.zero_le _)
    intro k hk hkn
    omega
  · rw [writeInside_iff (Nat.ne_of_gt hpos), InReservation]
    omega

theorem imageBase_size_ne_zero (host : Host) : (imageBase host).size ≠ 0 := by
  cases host
  · exact Nat.succ_ne_zero 7
  · exact Nat.succ_ne_zero 3
  · exact Nat.succ_ne_zero 7
  · exact Nat.succ_ne_zero 3

theorem transfers_writeInside_iff (fuel : Nat) (s : Machine) :
    Transfers c (WriteInside c) fuel s ↔ KeepsToImage c fuel s := by
  have hsections : EachCopied c (c.newHeader c.reservedBase) (TransfersMeet c (WriteInside c))
      fuel 0 (sectionTable c s) (headersCopied c s) ↔
      EachCopied c (c.newHeader c.reservedBase)
        (fun imageBase x => InReservation c (x.destination c imageBase) x.sizeOfRawData)
        fuel 0 (sectionTable c s) (headersCopied c s) := by
    apply eachCopied_congr
    intro imageBase s sectionHeader hraw
    exact (and_iff_right trivial).trans (writeInside_iff hraw)
  have hfixups : ∀ s', EachRebased c c.reservedBase (c.newHeader c.reservedBase)
      (StoreMeets c (WriteInside c) c.reservedBase) fuel s' ↔
      EachRebased c c.reservedBase (c.newHeader c.reservedBase)
        (fun f => InReservation c (c.host.offset c.reservedBase f.target) f.width) fuel s' := by
    intro s'
    apply eachRebased_congr
    intro f hwidth
    exact writeInside_iff hwidth
  have hbase := writeInside_iff (c := c)
    (a := c.newHeader c.reservedBase + (imageBase c.host).offset) (imageBase_size_ne_zero c.host)
  constructor
  · intro h
    exact ⟨writeInside_headers.mp h.headers.2, hbase.mp h.base, hsections.mp h.sections,
      fun s' hend => (hfixups s').mp (h.rebase s' hend).2⟩
  · intro h
    exact ⟨trivial, ⟨trivial, writeInside_headers.mpr h.headers⟩, hbase.mpr h.base,
      hsections.mpr h.sections, fun s' hend => ⟨trivial, (hfixups s').mpr (h.fixups s' hend)⟩⟩

/-- A run over any buffer writes only inside the reservation exactly if the
checks refuse the buffer, there is no reservation, or the buffer keeps to its
`SizeOfImage`. -/
theorem memoryLoadLibrary_writesInside_iff (c : Caller) (fuel : Nat) (s : Machine)
    (hstart : s.trace = []) :
    WritesInside c (memoryLoadLibrary c fuel s).2.trace ↔
      (Accepted c → c.reservedBase ≠ 0 → KeepsToImage c fuel (checked c s)) := by
  have hQ := onTransfers_writeInside c
  rw [writesInside_iff_meets]
  unfold memoryLoadLibrary
  cases hchecks : checkParameters c s with
  | error result =>
    obtain ⟨status, s'⟩ := result
    have huntouched : Untouched s := by
      rw [Untouched, hstart]
      simp
    have hrefused := refusesUntouched_checkParameters huntouched status s' hchecks
    refine iff_of_true ?_ fun haccepted => ?_
    · rw [← writesInside_iff_meets]
      intro a n hmem k hk hkn
      exact absurd ⟨hk, hkn⟩ (hrefused _ hmem k)
    · rw [checkParameters_accepted haccepted] at hchecks
      cases hchecks
  | ok s' =>
    have haccepted := checkParameters_ok hchecks
    rw [checkParameters_accepted haccepted] at hchecks
    obtain rfl : checked c s = s' := Except.ok.inj hchecks
    have hmeets : Meets (WriteInside c) (checked c s) := by
      intro access hmem
      rw [checked, hstart, List.nil_append] at hmem
      unfold checkTrace at hmem
      simp only [List.mem_cons, List.not_mem_nil, or_false] at hmem
      rcases hmem with rfl | rfl | rfl | rfl | rfl | rfl
      all_goals trivial
    have hreserved : Meets (WriteInside c) (reserveImage c (checked c s)).2 :=
      (meets_reserveImage hQ trivial trivial (checked c s)).mpr ⟨hmeets, trivial⟩
    dsimp only
    rw [forall_prop_of_true haccepted, reserveImage_fst]
    split
    · rename_i hnull
      exact iff_of_true hreserved fun hbase => absurd hnull hbase
    · rename_i hbase
      rw [forall_prop_of_true hbase, meets_mapImage hQ, ← transfers_writeInside_iff]
      exact and_iff_right hreserved

theorem memoryLoadLibrary_writesInside_iff_sample :
    WritesInside (sampleCaller 0x1000 0x1000)
        (memoryLoadLibrary (sampleCaller 0x1000 0x1000) 13 blankMachine).2.trace ↔
      (Accepted (sampleCaller 0x1000 0x1000) → (sampleCaller 0x1000 0x1000).reservedBase ≠ 0 →
        KeepsToImage (sampleCaller 0x1000 0x1000) 13
          (checked (sampleCaller 0x1000 0x1000) blankMachine)) :=
  memoryLoadLibrary_writesInside_iff (sampleCaller 0x1000 0x1000) 13 blankMachine rfl

/-- A relocation block whose page is behind the image: its fixups are stored there. -/
theorem memoryLoadLibrary_writes_outside :
    (patchedCaller [(0x210, 4, 0x100000)]).member sizeOfImage = 0x3000 ∧
      ¬ WritesInside (patchedCaller [(0x210, 4, 0x100000)])
        (memoryLoadLibrary (patchedCaller [(0x210, 4, 0x100000)]) 13 blankMachine).2.trace := by
  refine ⟨by decide +kernel, ?_⟩
  intro hinside
  have hwrite : .write 0x110000 8 ∈
      (memoryLoadLibrary (patchedCaller [(0x210, 4, 0x100000)]) 13 blankMachine).2.trace := by
    decide +kernel
  have hend := (hinside 0x110000 8 hwrite 0x110000 (Nat.le_refl _) (by omega)).2
  revert hend
  decide +kernel

end WinPolyfillLoader.MemoryModule
