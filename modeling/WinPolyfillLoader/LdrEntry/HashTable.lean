import WinPolyfillLoader.LdrEntry.MapDllMemory
import WinPolyfillLoader.Library.Walks
import WinPolyfillLoader.MemoryModule.Machine

/-!
`IsValidLdrpHashTable` on the bytes of the process. The walk over a bucket stops at the
head, at an entry that hashes elsewhere and at memory that cannot be read, and goes round
for ever on entries that are linked back to one of them.
-/

namespace WinPolyfillLoader.LdrEntry

open ByteMemory MemoryModule Walks

/-- The memory of the process, and what the names are hashed with. -/
structure LoaderMemory where
  host : Host
  mapped : Nat → Bool
  bytes : Bytes
  services : LdrServices
  globals : LdrGlobals

/-- Members of `LDR_DATA_TABLE_ENTRY`. -/
def inInitializationOrderLinks (host : Host) : Nat := 4 * host.pointerSize
def baseDllName (host : Host) : Nat := if host.win64 then 0x58 else 0x2c
def hashLinks (host : Host) : Nat := if host.win64 then 0x70 else 0x3c

/-- `Buffer` of `UNICODE_STRING`. -/
def unicodeStringBuffer (host : Host) : Nat := host.pointerSize

def sizeOfListEntry (host : Host) : Nat := 2 * host.pointerSize

namespace LoaderMemory

variable (v : LoaderMemory)

/-- A read of `n` bytes; `none` for an access violation. -/
def load (pointer n : Nat) : Option Nat :=
  ByteMemory.load v.mapped v.bytes (pointer % v.host.addresses) n

/-- `Flink` of the `LIST_ENTRY` at an address. -/
def flink (link : Nat) : Option Nat := v.load link v.host.pointerSize

def containingRecord (link offset : Nat) : Nat :=
  (link + v.host.addresses - offset) % v.host.addresses

/-- The first characters of a buffer. -/
def loadChars : Nat → Nat → Option (List Wchar)
  | 0, _ => some []
  | n + 1, buffer => do
    let c ← v.load buffer 2
    let rest ← loadChars n (buffer + 2)
    return BitVec.ofNat 16 c :: rest

/-- The characters of a `UNICODE_STRING` that `LdrHashEntryRaw` looks at: the first one
before Windows 7, whatever the length. -/
def hashedName (string : Nat) : Option (List Wchar) :=
  if v.globals.windowsVersion < systemNt61Rtm then do
    let buffer ← v.load (string + unicodeStringBuffer v.host) v.host.pointerSize
    v.loadChars 1 buffer
  else do
    let length ← v.load string 2
    if length / 2 = 0 then return []
    let buffer ← v.load (string + unicodeStringBuffer v.host) v.host.pointerSize
    v.loadChars (length / 2) buffer

/-- `LdrHashEntry(current->BaseDllName)`. -/
def entryHash (current : Nat) : Option Nat :=
  (v.hashedName (current + baseDllName v.host)).map (LdrEntry.ldrHashEntry v.services v.globals)

/-- The hash of the entry whose `HashLinks` are at an address. -/
def linkHash (entry : Nat) : Option Nat :=
  v.entryHash (v.containingRecord entry (hashLinks v.host))

/-- `&LdrpHashTable[i]`. -/
def bucketHead (table i : Nat) : Nat := (table + i * sizeOfListEntry v.host) % v.host.addresses

/-- The walk over one bucket; `none` if it still runs. -/
def walkBucket (i head : Nat) : Nat → Nat → Option Bool
  | 0, _ => none
  | fuel + 1, entry =>
    if head = entry then some true
    else
      match v.linkHash entry with
      | none => some false
      | some hash =>
        if hash ≠ i then some false
        else
          match v.flink entry with
          | none => some false
          | some next => walkBucket i head fuel next

def validBucket (fuel table i : Nat) : Option Bool :=
  match v.flink (v.bucketHead table i) with
  | none => some false
  | some entry => v.walkBucket i (v.bucketHead table i) fuel entry

/-- The buckets from `i` on. -/
def validFrom (fuel table : Nat) : Nat → Nat → Option Bool
  | 0, _ => some true
  | remaining + 1, i =>
    match v.validBucket fuel table i with
    | some true => validFrom fuel table remaining (i + 1)
    | answer => answer

/-- `IsValidLdrpHashTable`; an access violation is answered with `FALSE`. -/
def isValidLdrpHashTable (fuel table : Nat) : Option Bool :=
  v.validFrom fuel table ldrHashTableEntries.toNat 0

/-- The link of an entry that hashes to its position. -/
def chainStep (i head entry : Nat) : Option Nat :=
  if head = entry then none
  else if v.linkHash entry = some i then v.flink entry
  else none

/-- The position is the head of a circular list of entries that hash to it. -/
def CircularBucket (table i : Nat) : Prop :=
  ∃ first entries, v.flink (v.bucketHead table i) = some first ∧
    Walk (v.chainStep i (v.bucketHead table i)) first entries (v.bucketHead table i)

/-- The chain of entries that hash to the position comes back to one of them. -/
def EntersCycle (table i : Nat) : Prop :=
  ∃ first, v.flink (v.bucketHead table i) = some first ∧
    ComesBack (v.chainStep i (v.bucketHead table i)) first

end LoaderMemory

section Buckets

variable {v : LoaderMemory} {i head table : Nat}

theorem flink_lt {link next : Nat} (h : v.flink link = some next) : next < v.host.addresses := by
  unfold LoaderMemory.flink LoaderMemory.load ByteMemory.load at h
  split at h
  · cases h
    exact readLE_lt _ _ _
  · cases h

theorem chainStep_lt {entry next : Nat} (h : v.chainStep i head entry = some next) :
    next < v.host.addresses := by
  unfold LoaderMemory.chainStep at h
  split at h
  · cases h
  · split at h
    · exact flink_lt h
    · cases h

/-- One round of the walk: it is over at a node without a step, and the answer tells
whether that is the head. -/
theorem walkBucket_succ (fuel entry : Nat) :
    v.walkBucket i head (fuel + 1) entry =
      match v.chainStep i head entry with
      | some next => v.walkBucket i head fuel next
      | none => some (decide (head = entry)) := by
  rw [LoaderMemory.walkBucket, LoaderMemory.chainStep]
  split
  · rename_i hhead
    simp [hhead]
  · rename_i hhead
    cases hhash : v.linkHash entry with
    | none => simp [hhead]
    | some hash =>
      rcases eq_or_ne hash i with rfl | hne
      · cases hnext : v.flink entry with
        | none => simp [hhead]
        | some next => simp
      · simp [hne, hhead]

theorem walkBucket_add {fuel entry : Nat} {answer : Bool}
    (h : v.walkBucket i head fuel entry = some answer) (k : Nat) :
    v.walkBucket i head (fuel + k) entry = some answer := by
  induction fuel generalizing entry with
  | zero => cases h
  | succ fuel ih =>
    rw [Nat.succ_add, walkBucket_succ] at *
    cases hstep : v.chainStep i head entry with
    | none =>
      rw [hstep] at h
      exact h
    | some next =>
      rw [hstep] at h
      exact ih h

theorem walkBucket_ends_iff {entry : Nat} :
    (∃ fuel answer, v.walkBucket i head fuel entry = some answer) ↔
      Ends (v.chainStep i head) entry := by
  constructor
  · rintro ⟨fuel, answer, h⟩
    induction fuel generalizing entry with
    | zero => cases h
    | succ fuel ih =>
      rw [walkBucket_succ] at h
      cases hstep : v.chainStep i head entry with
      | none => exact .stop hstep
      | some next =>
        rw [hstep] at h
        exact .next hstep (ih h)
  · intro hends
    induction hends with
    | @stop entry hstop => exact ⟨1, decide (head = entry), by rw [walkBucket_succ, hstop]⟩
    | next hstep _ ih =>
      obtain ⟨fuel, answer, h⟩ := ih
      exact ⟨fuel + 1, answer, by rw [walkBucket_succ, hstep]; exact h⟩

theorem walkBucket_true {fuel entry : Nat} (h : v.walkBucket i head fuel entry = some true) :
    ∃ entries, Walk (v.chainStep i head) entry entries head := by
  induction fuel generalizing entry with
  | zero => cases h
  | succ fuel ih =>
    rw [walkBucket_succ] at h
    cases hstep : v.chainStep i head entry with
    | none =>
      rw [hstep] at h
      exact ⟨[], (of_decide_eq_true (Option.some_inj.mp h)).symm⟩
    | some next =>
      rw [hstep] at h
      obtain ⟨entries, hwalk⟩ := ih h
      exact ⟨entry :: entries, rfl, next, hstep, hwalk⟩

/-- The walk over a circular list takes a round for each entry and one for the head. -/
theorem walkBucket_circular {fuel entry : Nat} {entries : List Nat}
    (hwalk : Walk (v.chainStep i head) entry entries head) :
    v.walkBucket i head fuel entry = if entries.length < fuel then some true else none := by
  induction entries generalizing fuel entry with
  | nil =>
    have hhead : entry = head := hwalk
    cases fuel with
    | zero => rfl
    | succ fuel =>
      rw [hhead, LoaderMemory.walkBucket, if_pos rfl, List.length_nil, if_pos (Nat.succ_pos fuel)]
  | cons x entries ih =>
    obtain ⟨rfl, next, hstep, hrest⟩ := hwalk
    cases fuel with
    | zero => rfl
    | succ fuel =>
      rw [walkBucket_succ, hstep]
      simp only [List.length_cons, Nat.succ_lt_succ_iff]
      exact ih hrest

theorem validBucket_add {fuel : Nat} {answer : Bool}
    (h : v.validBucket fuel table i = some answer) (k : Nat) :
    v.validBucket (fuel + k) table i = some answer := by
  unfold LoaderMemory.validBucket at h ⊢
  split at h
  · exact h
  · exact walkBucket_add h k

theorem validBucket_true {fuel : Nat} (h : v.validBucket fuel table i = some true) :
    v.CircularBucket table i := by
  unfold LoaderMemory.validBucket at h
  split at h
  · cases h
  · rename_i first hfirst
    obtain ⟨entries, hwalk⟩ := walkBucket_true h
    exact ⟨first, entries, hfirst, hwalk⟩

theorem validBucket_circular (h : v.CircularBucket table i) :
    ∃ fuel, v.validBucket fuel table i = some true := by
  obtain ⟨first, entries, hfirst, hwalk⟩ := h
  refine ⟨entries.length + 1, ?_⟩
  rw [LoaderMemory.validBucket, hfirst]
  exact (walkBucket_circular hwalk).trans (if_pos (Nat.lt_succ_self _))

/-- The check of a bucket is over unless its chain enters a cycle. -/
theorem validBucket_ends_iff :
    (∃ fuel answer, v.validBucket fuel table i = some answer) ↔ ¬v.EntersCycle table i := by
  unfold LoaderMemory.validBucket LoaderMemory.EntersCycle
  cases hfirst : v.flink (v.bucketHead table i) with
  | none => exact iff_of_true ⟨0, false, rfl⟩ fun ⟨_, h, _⟩ => nomatch h
  | some first =>
    have hclosed : ∀ x y, v.chainStep i (v.bucketHead table i) x = some y →
        y ∈ Finset.range v.host.addresses :=
      fun x y hstep => Finset.mem_range.mpr (chainStep_lt hstep)
    refine walkBucket_ends_iff.trans
      ((ends_iff_not_comesBack hclosed (Finset.mem_range.mpr (flink_lt hfirst))).trans ?_)
    refine not_congr ⟨fun h => ⟨first, rfl, h⟩, ?_⟩
    rintro ⟨_, ⟨⟩, h⟩
    exact h

theorem validFrom_add {fuel remaining : Nat} {answer : Bool}
    (h : v.validFrom fuel table remaining i = some answer) (k : Nat) :
    v.validFrom (fuel + k) table remaining i = some answer := by
  induction remaining generalizing i with
  | zero => exact h
  | succ remaining ih =>
    rw [LoaderMemory.validFrom] at h ⊢
    cases hbucket : v.validBucket fuel table i with
    | none =>
      rw [hbucket] at h
      cases h
    | some valid =>
      rw [hbucket] at h
      rw [validBucket_add hbucket k]
      cases valid with
      | true => exact ih h
      | false => exact h

/-- The check of the buckets is over if that of the first is and, where that bucket is
circular, that of the others. -/
theorem validFrom_ends_iff {remaining : Nat} :
    (∃ fuel answer, v.validFrom fuel table remaining i = some answer) ↔
      ∀ k < remaining, (∀ j < k, v.CircularBucket table (i + j)) →
        ¬v.EntersCycle table (i + k) := by
  induction remaining generalizing i with
  | zero => exact iff_of_true ⟨0, true, rfl⟩ fun k hk => absurd hk (Nat.not_lt_zero k)
  | succ remaining ih =>
    constructor
    · rintro ⟨fuel, answer, h⟩ k hk hcircular
      rw [LoaderMemory.validFrom] at h
      cases hbucket : v.validBucket fuel table i with
      | none =>
        rw [hbucket] at h
        cases h
      | some valid =>
        cases k with
        | zero => exact validBucket_ends_iff.mp ⟨fuel, valid, hbucket⟩
        | succ k =>
          obtain ⟨fuel', htrue⟩ := validBucket_circular (hcircular 0 (Nat.succ_pos k))
          have hvalid : valid = true := by
            have hleft := validBucket_add hbucket fuel'
            have hright := validBucket_add htrue fuel
            rw [Nat.add_comm, Nat.add_zero] at hright
            exact Option.some_inj.mp (hleft.symm.trans hright)
          rw [hbucket, hvalid] at h
          have hrest := ih.mp ⟨fuel, answer, h⟩ k (Nat.lt_of_succ_lt_succ hk)
          simp only [Nat.add_assoc, Nat.add_comm 1] at hrest
          exact hrest fun j hj => hcircular (j + 1) (Nat.succ_lt_succ hj)
    · intro h
      obtain ⟨fuel, valid, hbucket⟩ := validBucket_ends_iff.mpr
        (h 0 (Nat.succ_pos remaining) fun j hj => absurd hj (Nat.not_lt_zero j))
      rw [Nat.add_zero] at hbucket
      cases valid with
      | false => exact ⟨fuel, false, by rw [LoaderMemory.validFrom, hbucket]⟩
      | true =>
        have hfirst := validBucket_true hbucket
        have hothers : ∃ fuel answer, v.validFrom fuel table remaining (i + 1) = some answer := by
          apply ih.mpr
          intro k hk hcircular
          rw [Nat.add_assoc, Nat.add_comm 1]
          refine h (k + 1) (Nat.succ_lt_succ hk) fun j hj => ?_
          cases j with
          | zero => exact hfirst
          | succ j =>
            rw [Nat.add_comm j, ← Nat.add_assoc]
            exact hcircular j (Nat.lt_of_succ_lt_succ hj)
        obtain ⟨fuel', answer, hrest⟩ := hothers
        refine ⟨fuel' + fuel, answer, ?_⟩
        rw [LoaderMemory.validFrom, Nat.add_comm, validBucket_add hbucket fuel', Nat.add_comm]
        exact validFrom_add hrest fuel

theorem validFrom_true {fuel remaining : Nat}
    (h : v.validFrom fuel table remaining i = some true) :
    ∀ k < remaining, v.CircularBucket table (i + k) := by
  induction remaining generalizing i with
  | zero => exact fun k hk => absurd hk (Nat.not_lt_zero k)
  | succ remaining ih =>
    intro k hk
    rw [LoaderMemory.validFrom] at h
    split at h
    · rename_i hbucket
      cases k with
      | zero => exact validBucket_true hbucket
      | succ k =>
        have hrest := ih h k (Nat.lt_of_succ_lt_succ hk)
        rw [Nat.add_assoc, Nat.add_comm 1] at hrest
        exact hrest
    · rename_i hother
      exact absurd h hother

end Buckets

/-- The check of a guessed table ends, with `FALSE` unless all positions are heads of
circular lists, if no bucket behind such positions has a chain that enters a cycle. -/
theorem isValidLdrpHashTable_ends_iff (v : LoaderMemory) (table : Nat) :
    (∃ fuel valid, v.isValidLdrpHashTable fuel table = some valid ∧
      (valid = true → ∀ i < 32, v.CircularBucket table i)) ↔
    ∀ i < 32, (∀ j < i, v.CircularBucket table j) → ¬v.EntersCycle table i := by
  have hends : (∃ fuel answer, v.validFrom fuel table 32 0 = some answer) ↔
      ∀ k < 32, (∀ j < k, v.CircularBucket table (0 + j)) → ¬v.EntersCycle table (0 + k) :=
    validFrom_ends_iff
  simp only [Nat.zero_add] at hends
  rw [← hends]
  constructor
  · rintro ⟨fuel, valid, h, -⟩
    exact ⟨fuel, valid, h⟩
  · rintro ⟨fuel, valid, h⟩
    refine ⟨fuel, valid, h, ?_⟩
    rintro rfl
    have hcircular := validFrom_true h
    simp only [Nat.zero_add] at hcircular
    exact hcircular

/-- Windows 10, with a bucket at 0x10000 whose first entry is linked to itself. -/
def selfLinked : LoaderMemory where
  host := .amd64
  mapped := fun a => 0x10000 ≤ a ∧ a < 0x30000
  bytes := writeLE (writeLE (fun _ => 0) 0x10000 8 0x20070) 0x20070 8 0x20070
  services := plainServices
  globals := ⟨systemWin10Rtm, 0x120, 0⟩

theorem isValidLdrpHashTable_hangs :
    ¬∃ fuel valid, selfLinked.isValidLdrpHashTable fuel 0x10000 = some valid := by
  rintro ⟨fuel, valid, hvalid⟩
  have hhead : selfLinked.flink (selfLinked.bucketHead 0x10000 0) = some 0x20070 := by decide
  have hloop : selfLinked.chainStep 0 (selfLinked.bucketHead 0x10000 0) 0x20070 = some 0x20070 := by
    decide
  have hwalk : selfLinked.walkBucket 0 (selfLinked.bucketHead 0x10000 0) fuel 0x20070 = none := by
    clear hvalid
    induction fuel with
    | zero => rfl
    | succ fuel ih => rw [walkBucket_succ, hloop]; exact ih
  have hbucket : selfLinked.validBucket fuel 0x10000 0 = none := by
    rw [LoaderMemory.validBucket, hhead]
    exact hwalk
  change selfLinked.validFrom fuel 0x10000 (31 + 1) 0 = some valid at hvalid
  rw [LoaderMemory.validFrom, hbucket] at hvalid
  cases hvalid

end WinPolyfillLoader.LdrEntry
