import WinPolyfillLoader.LdrEntry.HashTable

/-!
`FindLdrpHashTable`. A module that is alone in its bucket is linked with the head of the
bucket in both directions, and the place of that head in the table is the hash of its name.
-/

namespace WinPolyfillLoader.LdrEntry

open ByteMemory MemoryModule Walks

/-- How far a search for the table has come; null is 0. -/
inductive TableSearch where
  | running
  | accessViolation
  | returned (table : Nat)
deriving DecidableEq, Repr

namespace LoaderMemory

variable (v : LoaderMemory)

/-- `&current->HashLinks`. -/
def hashEntry (current : Nat) : Nat := (current + hashLinks v.host) % v.host.addresses

/-- `hashEntry->Flink != hashEntry && hashEntry->Flink->Flink == hashEntry`. -/
def linkedBack (hashEntry : Nat) : Option Bool := do
  let first ← v.flink hashEntry
  if first = hashEntry then return false
  let second ← v.flink first
  return second = hashEntry

/-- `&hashEntry->Flink[-(LONG)LdrHashEntry(current->BaseDllName)]`. -/
def guessedTable (current : Nat) : Option Nat := do
  let first ← v.flink (v.hashEntry current)
  let hash ← v.entryHash current
  return (first + v.host.addresses - hash * sizeOfListEntry v.host) % v.host.addresses

/-- The search from an entry of the list on. -/
def searchEntries (fuel head : Nat) : Nat → Nat → TableSearch
  | 0, _ => .running
  | rounds + 1, entry =>
    if head = entry then .returned 0
    else
      let current := v.containingRecord entry (inInitializationOrderLinks v.host)
      match v.linkedBack (v.hashEntry current) with
      | none => .accessViolation
      | some true =>
        match v.guessedTable current with
        | none => .accessViolation
        | some table =>
          match v.isValidLdrpHashTable fuel table with
          | none => .running
          | some valid => .returned (if valid then table else 0)
      | some false =>
        match v.flink entry with
        | none => .accessViolation
        | some next => searchEntries fuel head rounds next

/-- `FindLdrpHashTable`, with the address of `InInitializationOrderModuleList`. -/
def findLdrpHashTable (fuel head : Nat) : TableSearch :=
  match v.flink head with
  | none => .accessViolation
  | some entry => v.searchEntries fuel head fuel entry

/-- The `HashLinks` of the entry that is linked at an address of the list. -/
def listedHashEntry (entry : Nat) : Nat :=
  v.hashEntry (v.containingRecord entry (inInitializationOrderLinks v.host))

/-- A table of circular buckets, and a list of modules that are hashed in it or not at
all. -/
structure HashedModules (table : Nat) (buckets : Nat → List Nat) (head : Nat)
    (entries : List Nat) : Prop where
  table_lt : table < v.host.addresses
  bucket : ∀ i < 32, Circle v.flink (v.bucketHead table i) (buckets i)
  hashed : ∀ i < 32, ∀ e ∈ buckets i, v.linkHash e = some i
  list : Circle v.flink head entries
  placed : ∀ e ∈ entries, (∃ i < 32, v.listedHashEntry e ∈ buckets i) ∨
    v.flink (v.listedHashEntry e) = some (v.listedHashEntry e)

/-- Some of the modules is alone in its bucket. -/
def SomeAlone (buckets : Nat → List Nat) (entries : List Nat) : Prop :=
  ∃ e ∈ entries, ∃ i < 32, buckets i = [v.listedHashEntry e]

/-- The search returns an address, and no other however long it runs. -/
def Finds (head answer : Nat) : Prop :=
  (∃ fuel, v.findLdrpHashTable fuel head = .returned answer) ∧
    ∀ fuel, v.findLdrpHashTable fuel head = .running ∨
      v.findLdrpHashTable fuel head = .returned answer

end LoaderMemory

section Search

variable {v : LoaderMemory} {table head : Nat} {buckets : Nat → List Nat} {entries : List Nat}

/-- The distance back from a pointer that a distance was added to. -/
theorem offset_back {addresses pointer distance : Nat} (hpointer : pointer < addresses)
    (hdistance : distance < addresses) :
    ((pointer + distance) % addresses + addresses - distance) % addresses = pointer := by
  rcases Nat.lt_or_ge (pointer + distance) addresses with hlt | hge
  · have hsum : pointer + distance + addresses - distance = pointer + addresses := by omega
    rw [Nat.mod_eq_of_lt hlt, hsum, Nat.add_mod_right, Nat.mod_eq_of_lt hpointer]
  · have hwrap : (pointer + distance - addresses) % addresses = pointer + distance - addresses :=
      Nat.mod_eq_of_lt (by omega)
    have hsum : pointer + distance - addresses + addresses - distance = pointer := by omega
    rw [Nat.mod_eq_sub_mod hge, hwrap, hsum, Nat.mod_eq_of_lt hpointer]

theorem hashLinks_lt (host : Host) : hashLinks host < host.addresses := by
  cases host <;> decide

theorem bucketOffset_lt (host : Host) {i : Nat} (hi : i < 32) :
    i * sizeOfListEntry host < host.addresses := by
  have hsize : 32 * sizeOfListEntry host < host.addresses := by cases host <;> decide
  exact Nat.lt_of_le_of_lt (Nat.mul_le_mul_right _ (Nat.le_of_lt hi)) hsize

theorem containingRecord_lt (link offset : Nat) :
    v.containingRecord link offset < v.host.addresses := by
  apply Nat.mod_lt
  cases v.host <;> decide

theorem entryHash_eq (e : Nat) :
    v.entryHash (v.containingRecord e (inInitializationOrderLinks v.host)) =
      v.linkHash (v.listedHashEntry e) := by
  rw [LoaderMemory.linkHash, LoaderMemory.listedHashEntry, LoaderMemory.hashEntry]
  rw [LoaderMemory.containingRecord.eq_1 v _ (hashLinks v.host),
    offset_back (containingRecord_lt _ _) (hashLinks_lt _)]

theorem circularBucket (h : v.HashedModules table buckets head entries) {i : Nat} (hi : i < 32) :
    v.CircularBucket table i := by
  obtain ⟨first, hfirst, hwalk⟩ := circle_first (h.bucket i hi)
  refine ⟨first, buckets i, hfirst, walk_congr ?_ hwalk⟩
  intro e he
  have hne : v.bucketHead table i ≠ e :=
    fun heq => (List.nodup_cons.mp (h.bucket i hi).2).1 (heq ▸ he)
  rw [LoaderMemory.chainStep, if_neg hne, if_pos (h.hashed i hi e he)]

/-- The table itself is found valid, once the check has come to its end. -/
theorem isValidLdrpHashTable_circular (hcircular : ∀ i < 32, v.CircularBucket table i) :
    (∃ enough, ∀ fuel, enough ≤ fuel → v.isValidLdrpHashTable fuel table = some true) ∧
      ∀ fuel, v.isValidLdrpHashTable fuel table = none ∨
        v.isValidLdrpHashTable fuel table = some true := by
  have hnever : ∀ fuel remaining i, i + remaining = 32 →
      v.validFrom fuel table remaining i ≠ some false := by
    intro fuel remaining
    induction remaining with
    | zero => exact fun i _ h => nomatch h
    | succ remaining ih =>
      intro i hi hfalse
      obtain ⟨fuel', htrue⟩ := validBucket_circular (hcircular i (by omega))
      rw [LoaderMemory.validFrom] at hfalse
      split at hfalse
      · exact ih (i + 1) (by omega) hfalse
      · have hleft := validBucket_add hfalse fuel'
        have hright := validBucket_add htrue fuel
        rw [Nat.add_comm, hleft] at hright
        cases hright
  have hanswer : ∀ fuel, v.isValidLdrpHashTable fuel table = none ∨
      v.isValidLdrpHashTable fuel table = some true := by
    intro fuel
    cases h : v.isValidLdrpHashTable fuel table with
    | none => exact Or.inl rfl
    | some valid =>
      cases valid with
      | true => exact Or.inr rfl
      | false => exact absurd h (hnever fuel 32 0 rfl)
  refine ⟨?_, hanswer⟩
  have hends := (isValidLdrpHashTable_ends_iff v table).mpr fun i hi _ hcycle => by
    obtain ⟨fuel, htrue⟩ := validBucket_circular (hcircular i hi)
    exact validBucket_ends_iff.mp ⟨fuel, true, htrue⟩ hcycle
  obtain ⟨enough, valid, h, -⟩ := hends
  refine ⟨enough, fun fuel hfuel => ?_⟩
  obtain ⟨k, rfl⟩ := Nat.exists_eq_add_of_le hfuel
  have hmore : v.isValidLdrpHashTable (enough + k) table = some valid := validFrom_add h k
  rcases hanswer (enough + k) with hnone | htrue
  · rw [hnone] at hmore
    cases hmore
  · exact htrue

/-- The test for two links holds of the modules that are alone in their bucket. -/
theorem linkedBack_eq (h : v.HashedModules table buckets head entries) {e : Nat}
    (he : e ∈ entries) :
    ((∃ i < 32, buckets i = [v.listedHashEntry e]) ∧
      v.linkedBack (v.listedHashEntry e) = some true) ∨
    (¬(∃ i < 32, buckets i = [v.listedHashEntry e]) ∧
      v.linkedBack (v.listedHashEntry e) = some false) := by
  unfold LoaderMemory.linkedBack
  rcases h.placed e he with ⟨i, hi, hmem⟩ | hself
  · obtain ⟨f, hfirst, hne, hf⟩ := circle_step_ne (h.bucket i hi) hmem
    obtain ⟨second, hsecond⟩ : ∃ second, v.flink f = some second := by
      rcases hf with rfl | hf
      · obtain ⟨first, hstart, -⟩ := circle_first (h.bucket i hi)
        exact ⟨first, hstart⟩
      · obtain ⟨g, hg, -⟩ := circle_step_ne (h.bucket i hi) hf
        exact ⟨g, hg⟩
    simp only [hfirst, hsecond, Option.bind_eq_bind, Option.bind_some, Option.pure_def, if_neg hne]
    rcases eq_or_ne second (v.listedHashEntry e) with rfl | hother
    · left
      obtain ⟨halone, -⟩ := circle_two_steps (h.bucket i hi) hmem hfirst hsecond
      exact ⟨⟨i, hi, halone⟩, by simp⟩
    · right
      refine ⟨?_, by simp [hother]⟩
      rintro ⟨j, hj, halone⟩
      have hmem' : v.listedHashEntry e ∈ buckets j := by simp [halone]
      have hsame : i = j := Option.some_inj.mp
        ((h.hashed i hi _ hmem).symm.trans (h.hashed j hj _ hmem'))
      subst hsame
      obtain ⟨first, hstart, hwalk⟩ := circle_first (h.bucket i hi)
      rw [halone] at hwalk
      obtain ⟨hfirst', next, hnext, hend⟩ := hwalk
      have hhead : f = v.bucketHead table i := by
        have hend : next = v.bucketHead table i := hend
        rw [hfirst, hend] at hnext
        exact Option.some_inj.mp hnext
      rw [hhead, hstart] at hsecond
      exact hother ((Option.some_inj.mp hsecond).symm.trans hfirst')
  · right
    refine ⟨?_, by simp [hself]⟩
    rintro ⟨j, hj, halone⟩
    have hmem : v.listedHashEntry e ∈ buckets j := by simp [halone]
    obtain ⟨f, hfirst, hne, -⟩ := circle_step_ne (h.bucket j hj) hmem
    rw [hself] at hfirst
    exact hne (Option.some_inj.mp hfirst).symm

theorem guessedTable_eq (h : v.HashedModules table buckets head entries) {e i : Nat}
    (hi : i < 32) (halone : buckets i = [v.listedHashEntry e]) :
    v.guessedTable (v.containingRecord e (inInitializationOrderLinks v.host)) = some table := by
  have hmem : v.listedHashEntry e ∈ buckets i := by simp [halone]
  have hcircle := h.bucket i hi
  rw [halone] at hcircle
  have hwalk : Walk v.flink (v.bucketHead table i)
      ([v.bucketHead table i] ++ [v.listedHashEntry e]) (v.bucketHead table i) := hcircle.1
  have hfirst : v.flink (v.listedHashEntry e) = some (v.bucketHead table i) := walk_step hwalk
  have hhash := entryHash_eq (v := v) e
  rw [h.hashed i hi _ hmem] at hhash
  unfold LoaderMemory.guessedTable
  rw [← LoaderMemory.listedHashEntry, hfirst, hhash]
  simp only [Option.bind_eq_bind, Option.bind_some, Option.pure_def]
  rw [LoaderMemory.bucketHead, offset_back h.table_lt (bucketOffset_lt _ hi)]

/-- What a round leaves settles the search from one round earlier. -/
theorem searchEntries_settled {entry answer : Nat} {left : Nat → Nat → TableSearch}
    (hround : ∀ fuel rounds, v.searchEntries fuel head (rounds + 1) entry = left fuel rounds)
    (hfound : ∃ enough, ∀ fuel rounds, enough ≤ fuel → enough ≤ rounds →
      left fuel rounds = .returned answer)
    (hnever : ∀ fuel rounds, left fuel rounds = .running ∨ left fuel rounds = .returned answer) :
    (∃ enough, ∀ fuel rounds, enough ≤ fuel → enough ≤ rounds →
      v.searchEntries fuel head rounds entry = .returned answer) ∧
    ∀ fuel rounds, v.searchEntries fuel head rounds entry = .running ∨
      v.searchEntries fuel head rounds entry = .returned answer := by
  obtain ⟨enough, hfound⟩ := hfound
  refine ⟨⟨enough + 1, fun fuel rounds hfuel hrounds => ?_⟩, fun fuel rounds => ?_⟩
  · obtain ⟨rounds, rfl⟩ := Nat.exists_eq_succ_of_ne_zero (n := rounds) (by omega)
    rw [hround]
    exact hfound fuel rounds (by omega) (by omega)
  · cases rounds with
    | zero => exact Or.inl rfl
    | succ rounds =>
      rw [hround]
      exact hnever fuel rounds

theorem searchEntries_alone (h : v.HashedModules table buckets head entries) {entry i : Nat}
    (hlisted : entry ∈ entries) (hne : head ≠ entry) (hi : i < 32)
    (halone : buckets i = [v.listedHashEntry entry]) (fuel rounds : Nat) :
    v.searchEntries fuel head (rounds + 1) entry =
      match v.isValidLdrpHashTable fuel table with
      | none => .running
      | some valid => .returned (if valid then table else 0) := by
  have hback : v.linkedBack (v.listedHashEntry entry) = some true := by
    rcases linkedBack_eq h hlisted with ⟨-, hback⟩ | ⟨hnot, -⟩
    · exact hback
    · exact absurd ⟨i, hi, halone⟩ hnot
  rw [LoaderMemory.searchEntries, if_neg hne]
  dsimp only
  rw [← LoaderMemory.listedHashEntry, hback, guessedTable_eq h hi halone]

/-- From every other module the search goes on with the next entry. -/
theorem searchEntries_shared (h : v.HashedModules table buckets head entries) {entry next : Nat}
    (hlisted : entry ∈ entries) (hne : head ≠ entry)
    (hnot : ¬∃ i < 32, buckets i = [v.listedHashEntry entry])
    (hnext : v.flink entry = some next) (fuel rounds : Nat) :
    v.searchEntries fuel head (rounds + 1) entry = v.searchEntries fuel head rounds next := by
  have hback : v.linkedBack (v.listedHashEntry entry) = some false := by
    rcases linkedBack_eq h hlisted with ⟨halone, -⟩ | ⟨-, hback⟩
    · exact absurd halone hnot
    · exact hback
  rw [LoaderMemory.searchEntries, if_neg hne]
  dsimp only
  rw [← LoaderMemory.listedHashEntry, hback, hnext]

theorem searchEntries_finds (h : v.HashedModules table buckets head entries) {rest : List Nat}
    (hrest : ∀ e ∈ rest, e ∈ entries) {entry : Nat} (hwalk : Walk v.flink entry rest head)
    {answer : Nat} (hanswer : (v.SomeAlone buckets rest ∧ answer = table) ∨
      (¬v.SomeAlone buckets rest ∧ answer = 0)) :
    (∃ enough, ∀ fuel rounds, enough ≤ fuel → enough ≤ rounds →
      v.searchEntries fuel head rounds entry = .returned answer) ∧
    ∀ fuel rounds, v.searchEntries fuel head rounds entry = .running ∨
      v.searchEntries fuel head rounds entry = .returned answer := by
  induction rest generalizing entry with
  | nil =>
    have hhead : entry = head := hwalk
    have hzero : answer = 0 := hanswer.elim (fun ⟨⟨_, he, _⟩, _⟩ => nomatch he) And.right
    have hround : ∀ fuel rounds,
        v.searchEntries fuel head (rounds + 1) entry = .returned answer := by
      intro fuel rounds
      rw [LoaderMemory.searchEntries, if_pos hhead.symm, hzero]
    exact searchEntries_settled hround ⟨0, fun _ _ _ _ => rfl⟩ fun _ _ => Or.inr rfl
  | cons e rest ih =>
    obtain ⟨rfl, next, hnext, hwalk⟩ := hwalk
    have hlisted := hrest entry List.mem_cons_self
    have hne : head ≠ entry := fun heq => (List.nodup_cons.mp h.list.2).1 (heq ▸ hlisted)
    by_cases halone : ∃ i < 32, buckets i = [v.listedHashEntry entry]
    · obtain ⟨i, hi, halone⟩ := halone
      have htable : answer = table :=
        hanswer.elim And.right fun ⟨hnone, _⟩ =>
          absurd ⟨entry, List.mem_cons_self, i, hi, halone⟩ hnone
      obtain ⟨⟨enough, hvalid⟩, hcheck⟩ :=
        isValidLdrpHashTable_circular fun _ hj => circularBucket h hj
      apply searchEntries_settled (searchEntries_alone h hlisted hne hi halone)
      · refine ⟨enough, fun fuel rounds hfuel _ => ?_⟩
        rw [hvalid fuel hfuel, htable]
        rfl
      · intro fuel rounds
        rcases hcheck fuel with hnone | htrue
        · exact Or.inl (by rw [hnone])
        · exact Or.inr (by rw [htrue, htable]; rfl)
    · have hsame : v.SomeAlone buckets (entry :: rest) ↔ v.SomeAlone buckets rest := by
        unfold LoaderMemory.SomeAlone
        rw [List.exists_mem_cons_iff]
        exact or_iff_right halone
      rw [hsame] at hanswer
      obtain ⟨hfound, hnever⟩ :=
        ih (fun x hx => hrest x (List.mem_cons_of_mem entry hx)) hwalk hanswer
      exact searchEntries_settled (searchEntries_shared h hlisted hne halone hnext) hfound hnever

/-- The search finds the table from a module that is alone in its bucket, and nothing
without one. -/
theorem findLdrpHashTable_recovers (h : v.HashedModules table buckets head entries) :
    (v.SomeAlone buckets entries → v.Finds head table) ∧
      (¬v.SomeAlone buckets entries → v.Finds head 0) := by
  obtain ⟨first, hfirst, hwalk⟩ := circle_first h.list
  have hfinds {answer : Nat} (hanswer : (v.SomeAlone buckets entries ∧ answer = table) ∨
      (¬v.SomeAlone buckets entries ∧ answer = 0)) : v.Finds head answer := by
    obtain ⟨⟨enough, hfound⟩, hnever⟩ := searchEntries_finds h (fun _ he => he) hwalk hanswer
    have hsearch : ∀ fuel,
        v.findLdrpHashTable fuel head = v.searchEntries fuel head fuel first := by
      intro fuel
      rw [LoaderMemory.findLdrpHashTable, hfirst]
    refine ⟨⟨enough, ?_⟩, fun fuel => ?_⟩
    · rw [hsearch]
      exact hfound enough enough (Nat.le_refl _) (Nat.le_refl _)
    · rw [hsearch]
      exact hnever fuel fuel
  exact ⟨fun halone => hfinds (Or.inl ⟨halone, rfl⟩), fun hnone => hfinds (Or.inr ⟨hnone, rfl⟩)⟩

end Search

/-- Windows 10: a table at 0x10000 of heads that are linked to themselves, but for the
first, and a module at 0x20000 in its bucket and on the list at 0x30000. -/
def oneModule : LoaderMemory where
  host := .amd64
  mapped := fun a => 0x10000 ≤ a ∧ a < 0x40000
  bytes :=
    let heads : Bytes := fun a =>
      if a < 0x10200 then UInt8.ofNat ((a - a % 16) / 256 ^ (a % 16)) else 0
    let bucket := writeLE (writeLE heads 0x10000 8 0x20070) 0x20070 8 0x10000
    writeLE (writeLE bucket 0x30000 8 0x20020) 0x20020 8 0x30000
  services := plainServices
  globals := ⟨systemWin10Rtm, 0x120, 0⟩

def firstBucket (i : Nat) : List Nat := if i = 0 then [0x20070] else []

theorem oneModule_hashed :
    oneModule.HashedModules 0x10000 firstBucket 0x30000 [0x20020] where
  table_lt := by decide
  bucket := by
    have hempty : ∀ i < 32, i ≠ 0 →
        oneModule.flink (oneModule.bucketHead 0x10000 i) =
          some (oneModule.bucketHead 0x10000 i) := by decide
    intro i hi
    rcases eq_or_ne i 0 with rfl | hne
    · exact ⟨⟨rfl, 0x20070, by decide, rfl, 0x10000, by decide, rfl⟩, by decide⟩
    · rw [firstBucket, if_neg hne]
      exact ⟨⟨rfl, _, hempty i hi hne, rfl⟩, List.nodup_singleton _⟩
  hashed := by
    intro i _ e he
    rw [firstBucket] at he
    split at he
    · rename_i hzero
      rw [List.mem_singleton.mp he, hzero]
      decide
    · cases he
  list := ⟨⟨rfl, 0x20020, by decide, rfl, 0x30000, by decide, rfl⟩, by decide⟩
  placed := by
    intro e he
    rw [List.mem_singleton.mp he]
    exact Or.inl ⟨0, by decide, by decide⟩

theorem findLdrpHashTable_recovers_oneModule :
    (oneModule.SomeAlone firstBucket [0x20020] → oneModule.Finds 0x30000 0x10000) ∧
      (¬oneModule.SomeAlone firstBucket [0x20020] → oneModule.Finds 0x30000 0) :=
  findLdrpHashTable_recovers oneModule_hashed

end WinPolyfillLoader.LdrEntry
