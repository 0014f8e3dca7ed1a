import WinPolyfillLoader.Library.Heap
import WinPolyfillLoader.Status

/-!
`MmpQuerySystemInformation`. The loop asks for a buffer of twice the length that the last
query has stored, until a query no longer finds its buffer too short. A query that fails for
another reason ends the loop, too, and its buffer is returned with nothing in it.
-/

namespace WinPolyfillLoader.MmpTls

open ProcessHeap

/-- What a round meets: the block that `RtlAllocateHeap` returns where it is called, 0 for
null, and what `NtQuerySystemInformation` returns and stores in `len`. -/
structure QueryRound where
  block : Nat
  status : NtStatus
  len : Dword
deriving DecidableEq, Repr

inductive SystemCall where
  | rtlFreeHeap (block : Nat)
  | rtlAllocateHeap (size : Dword) (block : Nat)
  | ntQuerySystemInformation (buffer : Nat) (length : Dword) (status : NtStatus)
deriving DecidableEq, Repr

structure QueryState where
  buffer : Nat
  len : Dword
  calls : List SystemCall
deriving DecidableEq, Repr

structure QueryResult where
  buffer : Nat
  returnLength : Dword
  calls : List SystemCall
deriving DecidableEq, Repr

/-- The buffer of a round. A request that is refused ends the function. -/
def newBuffer (round : QueryRound) (s : QueryState) : Except QueryResult QueryState :=
  let calls := s.calls ++ [.rtlFreeHeap s.buffer]
  if s.len ≠ 0 then
    let len := s.len * 2
    let calls := calls ++ [.rtlAllocateHeap len round.block]
    if round.block = 0 then .error ⟨0, 0, calls⟩
    else .ok ⟨round.block, len, calls⟩
  else .ok ⟨0, s.len, calls⟩

def query (round : QueryRound) (s : QueryState) : QueryState :=
  { s with
    len := round.len
    calls := s.calls ++ [.ntQuerySystemInformation s.buffer s.len round.status] }

/-- The loop from round `i` on; `none` if it still runs. -/
def queryLoop (rounds : Nat → QueryRound) : Nat → Nat → QueryState → Option QueryResult
  | 0, _, _ => none
  | fuel + 1, i, s =>
    match newBuffer (rounds i) s with
    | .error result => some result
    | .ok s =>
      let s := query (rounds i) s
      if ntSuccess (rounds i).status then some ⟨s.buffer, s.len, s.calls⟩
      else if (rounds i).status = statusInfoLengthMismatch then queryLoop rounds fuel (i + 1) s
      else some ⟨s.buffer, s.len, s.calls⟩

def mmpQuerySystemInformation (rounds : Nat → QueryRound) (fuel : Nat) : Option QueryResult :=
  queryLoop rounds fuel 0 ⟨0, 0, []⟩

/-- What a call is for the heap. A null pointer is none of its blocks. -/
def SystemCall.heapEvent : SystemCall → Option Event
  | .rtlFreeHeap block => if block = 0 then none else some (.free block)
  | .rtlAllocateHeap _ block => if block = 0 then none else some (.alloc block)
  | .ntQuerySystemInformation _ _ _ => none

def heapEvents (calls : List SystemCall) : List Event := calls.filterMap SystemCall.heapEvent

/-- Blocks that are each freed before the next is allocated. -/
def takenInTurn (blocks : List Nat) : List Event := blocks.flatMap fun b => [.alloc b, .free b]

/-- The last query has succeeded on a buffer of the length that it was told, and every
other block has been freed. -/
structure ValidSnapshot (result : QueryResult) : Prop where
  filled : ∃ before size status,
    result.calls = before ++ [.rtlAllocateHeap size result.buffer,
      .ntQuerySystemInformation result.buffer size status] ∧ ntSuccess status = true
  freed : ∃ blocks, heapEvents result.calls = takenInTurn blocks ++ [.alloc result.buffer]

/-- The length that the query before a round has stored. -/
def previousLen (rounds : Nat → QueryRound) : Nat → Dword
  | 0 => 0
  | i + 1 => (rounds i).len

/-- The buffers were too short up to a round that has got one, too, and that fails. -/
def FailsOnBuffer (rounds : Nat → QueryRound) : Prop :=
  ∃ k, (∀ j < k, (rounds j).status = statusInfoLengthMismatch) ∧
    (∀ j ≤ k, previousLen rounds j ≠ 0 → (rounds j).block ≠ 0) ∧ previousLen rounds k ≠ 0 ∧
    ntSuccess (rounds k).status = false ∧ (rounds k).status ≠ statusInfoLengthMismatch

/-- What is allocated in the loop and not freed is its buffer. -/
def HoldsBuffer (s : QueryState) : Prop :=
  ∃ blocks, heapEvents s.calls =
    takenInTurn blocks ++ if s.buffer = 0 then [] else [.alloc s.buffer]

section Rounds

variable {rounds : Nat → QueryRound} {round : QueryRound} {s next : QueryState}

theorem heapEvents_append (first second : List SystemCall) :
    heapEvents (first ++ second) = heapEvents first ++ heapEvents second :=
  List.filterMap_append

theorem takenInTurn_append (first second : List Nat) :
    takenInTurn (first ++ second) = takenInTurn first ++ takenInTurn second :=
  List.flatMap_append

theorem holdsBuffer_freed (h : HoldsBuffer s) :
    ∃ blocks, heapEvents (s.calls ++ [.rtlFreeHeap s.buffer]) = takenInTurn blocks := by
  obtain ⟨blocks, hevents⟩ := h
  rw [heapEvents_append, hevents]
  by_cases hnull : s.buffer = 0
  · refine ⟨blocks, ?_⟩
    simp [heapEvents, SystemCall.heapEvent, hnull]
  · refine ⟨blocks ++ [s.buffer], ?_⟩
    rw [takenInTurn_append, if_neg hnull, List.append_assoc]
    simp [heapEvents, SystemCall.heapEvent, hnull, takenInTurn]

theorem newBuffer_granted (hlen : s.len ≠ 0) (hblock : round.block ≠ 0) :
    newBuffer round s = .ok ⟨round.block, s.len * 2, s.calls ++ [.rtlFreeHeap s.buffer] ++
      [.rtlAllocateHeap (s.len * 2) round.block]⟩ := by
  rw [newBuffer, if_pos hlen]
  exact if_neg hblock

theorem newBuffer_cases (round : QueryRound) (s : QueryState) :
    (s.len = 0 ∧ newBuffer round s = .ok ⟨0, 0, s.calls ++ [.rtlFreeHeap s.buffer]⟩) ∨
    (s.len ≠ 0 ∧ round.block = 0 ∧ ∃ calls, newBuffer round s = .error ⟨0, 0, calls⟩) ∨
    (s.len ≠ 0 ∧ round.block ≠ 0 ∧ newBuffer round s =
      .ok ⟨round.block, s.len * 2, s.calls ++ [.rtlFreeHeap s.buffer] ++
        [.rtlAllocateHeap (s.len * 2) round.block]⟩) := by
  rw [newBuffer]
  by_cases hlen : s.len = 0
  · exact Or.inl ⟨hlen, by simp [hlen]⟩
  · by_cases hblock : round.block = 0
    · rw [if_pos hlen]
      exact Or.inr (Or.inl ⟨hlen, hblock, _, if_pos hblock⟩)
    · exact Or.inr (Or.inr ⟨hlen, hblock, newBuffer_granted hlen hblock⟩)

theorem newBuffer_ok (h : HoldsBuffer s) (hnext : newBuffer round s = .ok next) :
    HoldsBuffer next ∧ (s.len ≠ 0 → round.block ≠ 0) ∧ (next.buffer ≠ 0 ↔ s.len ≠ 0) ∧
      (next.buffer ≠ 0 → ∃ before,
        next.calls = before ++ [.rtlAllocateHeap next.len next.buffer]) := by
  obtain ⟨blocks, hevents⟩ := holdsBuffer_freed h
  rcases newBuffer_cases round s with ⟨hlen, hok⟩ | ⟨-, -, calls, hrefused⟩ | ⟨hlen, hblock, hok⟩
  · rw [hok] at hnext
    cases hnext
    refine ⟨⟨blocks, ?_⟩, fun hne => absurd hlen hne, ?_, fun hne => absurd rfl hne⟩
    · rw [hevents, if_pos rfl, List.append_nil]
    · exact iff_of_false (fun hne => hne rfl) fun hne => hne hlen
  · rw [hrefused] at hnext
    cases hnext
  · rw [hok] at hnext
    cases hnext
    refine ⟨⟨blocks, ?_⟩, fun _ => hblock, iff_of_true hblock hlen, fun _ => ⟨_, rfl⟩⟩
    rw [heapEvents_append, hevents, if_neg hblock]
    simp [heapEvents, SystemCall.heapEvent, hblock]

theorem query_holds (h : HoldsBuffer s) : HoldsBuffer (query round s) := by
  obtain ⟨blocks, hevents⟩ := h
  refine ⟨blocks, ?_⟩
  rw [query, heapEvents_append, hevents]
  exact List.append_nil _

/-- A round of a loop that returns a buffer: its query is made, and finds that buffer too
short or ends the loop. -/
theorem queryLoop_cases {fuel i : Nat} {result : QueryResult}
    (h : queryLoop rounds (fuel + 1) i s = some result) (hbuffer : result.buffer ≠ 0) :
    ∃ next, newBuffer (rounds i) s = .ok next ∧
      (((rounds i).status = statusInfoLengthMismatch ∧
          queryLoop rounds fuel (i + 1) (query (rounds i) next) = some result) ∨
        ((ntSuccess (rounds i).status = true ∨ (rounds i).status ≠ statusInfoLengthMismatch) ∧
          result = ⟨next.buffer, (rounds i).len, (query (rounds i) next).calls⟩)) := by
  rw [queryLoop] at h
  rcases newBuffer_cases (rounds i) s with ⟨-, hok⟩ | ⟨-, -, calls, hrefused⟩ | ⟨-, -, hok⟩
  case inr.inl =>
    rw [hrefused] at h
    cases h
    exact absurd rfl hbuffer
  all_goals
    rw [hok] at h
    dsimp only at h
    refine ⟨_, hok, ?_⟩
    by_cases hsuccess : ntSuccess (rounds i).status = true
    · rw [if_pos hsuccess] at h
      exact Or.inr ⟨Or.inl hsuccess, (Option.some_inj.mp h).symm⟩
    · rw [if_neg hsuccess] at h
      by_cases hmore : (rounds i).status = statusInfoLengthMismatch
      · rw [if_pos hmore] at h
        exact Or.inl ⟨hmore, h⟩
      · rw [if_neg hmore] at h
        exact Or.inr ⟨Or.inr hmore, (Option.some_inj.mp h).symm⟩

theorem queryLoop_returns {fuel i : Nat} {result : QueryResult} (hholds : HoldsBuffer s)
    (hlen : s.len = previousLen rounds i) (h : queryLoop rounds fuel i s = some result)
    (hbuffer : result.buffer ≠ 0) :
    ∃ k, i ≤ k ∧ (∀ j, i ≤ j → j < k → (rounds j).status = statusInfoLengthMismatch) ∧
      (∀ j, i ≤ j → j ≤ k → previousLen rounds j ≠ 0 → (rounds j).block ≠ 0) ∧
      previousLen rounds k ≠ 0 ∧
      (ntSuccess (rounds k).status = true ∨ (rounds k).status ≠ statusInfoLengthMismatch) ∧
      (∃ before size, result.calls = before ++ [.rtlAllocateHeap size result.buffer,
        .ntQuerySystemInformation result.buffer size (rounds k).status]) ∧
      ∃ blocks, heapEvents result.calls = takenInTurn blocks ++ [.alloc result.buffer] := by
  induction fuel generalizing i s with
  | zero => cases h
  | succ fuel ih =>
    obtain ⟨next, hnew, hround⟩ := queryLoop_cases h hbuffer
    obtain ⟨hnext, hgranted, hbuffers, hcalls⟩ := newBuffer_ok hholds hnew
    rw [hlen] at hgranted hbuffers
    rcases hround with ⟨hmore, hrest⟩ | ⟨hends, rfl⟩
    · obtain ⟨k, hik, hshort, hgrants, hrest⟩ := ih (query_holds hnext) rfl hrest
      refine ⟨k, by omega, ?_, ?_, hrest⟩
      · intro j hij hjk
        rcases Nat.eq_or_lt_of_le hij with rfl | hlt
        · exact hmore
        · exact hshort j hlt hjk
      · intro j hij hjk
        rcases Nat.eq_or_lt_of_le hij with rfl | hlt
        · exact hgranted
        · exact hgrants j hlt hjk
    · obtain ⟨before, hbefore⟩ := hcalls hbuffer
      refine ⟨i, Nat.le_refl i, fun j hij hji => absurd hji (by omega), ?_,
        hbuffers.mp hbuffer, hends, ⟨before, next.len, ?_⟩, ?_⟩
      · intro j hij hji
        rw [Nat.le_antisymm hji hij]
        exact hgranted
      · rw [query, hbefore, List.append_assoc]
        rfl
      · have hqueried : HoldsBuffer (query (rounds i) next) := query_holds hnext
        obtain ⟨blocks, hevents⟩ := hqueried
        rw [query, if_neg hbuffer] at hevents
        exact ⟨blocks, hevents⟩

theorem queryLoop_reaches {k : Nat}
    (hshort : ∀ j < k, (rounds j).status = statusInfoLengthMismatch)
    (hgranted : ∀ j < k, previousLen rounds j ≠ 0 → (rounds j).block ≠ 0) :
    ∃ s, HoldsBuffer s ∧ s.len = previousLen rounds k ∧
      ∀ fuel, mmpQuerySystemInformation rounds (k + fuel) = queryLoop rounds fuel k s := by
  have hfailure : ntSuccess statusInfoLengthMismatch = false := by decide
  induction k with
  | zero => exact ⟨⟨0, 0, []⟩, ⟨[], rfl⟩, rfl, fun fuel => by rw [Nat.zero_add]; rfl⟩
  | succ k ih =>
    obtain ⟨s, hholds, hlen, hloop⟩ :=
      ih (fun j hj => hshort j (by omega)) fun j hj => hgranted j (by omega)
    have hround : ∃ next, newBuffer (rounds k) s = .ok next := by
      rcases newBuffer_cases (rounds k) s with ⟨-, hok⟩ | ⟨hne, hnull, -⟩ | ⟨-, -, hok⟩
      · exact ⟨_, hok⟩
      · rw [hlen] at hne
        exact absurd hnull (hgranted k (Nat.lt_succ_self k) hne)
      · exact ⟨_, hok⟩
    obtain ⟨next, hok⟩ := hround
    refine ⟨query (rounds k) next, query_holds (newBuffer_ok hholds hok).1, rfl, fun fuel => ?_⟩
    have hfuel : k + 1 + fuel = k + (fuel + 1) := by omega
    rw [hfuel, hloop, queryLoop, hok]
    dsimp only
    rw [hshort k (Nat.lt_succ_self k), if_neg (by rw [hfailure]; decide), if_pos rfl]

end Rounds

/-- A buffer that is returned is filled, unless a query fails that has a buffer and does
not find it too short. -/
theorem mmpQuerySystemInformation_valid_iff (rounds : Nat → QueryRound) :
    (∀ fuel result, mmpQuerySystemInformation rounds fuel = some result → result.buffer ≠ 0 →
      ValidSnapshot result) ↔ ¬FailsOnBuffer rounds := by
  constructor
  · rintro h ⟨k, hshort, hgranted, hlen, hfails, hother⟩
    obtain ⟨s, hholds, hs, hloop⟩ := queryLoop_reaches hshort fun j hj => hgranted j (by omega)
    rw [← hs] at hlen
    have hblock := hgranted k (Nat.le_refl k) (hs ▸ hlen)
    have hrun := hloop 1
    rw [queryLoop, newBuffer_granted hlen hblock] at hrun
    dsimp only at hrun
    rw [if_neg (by rw [hfails]; decide), if_neg hother] at hrun
    obtain ⟨before, size, status, hcalls, hsuccess⟩ := (h _ _ hrun hblock).filled
    have hlast := congrArg List.getLast? hcalls
    simp only [query, List.getLast?_append, List.getLast?_cons_cons, List.getLast?_singleton,
      Option.some_or, Option.some_inj, SystemCall.ntQuerySystemInformation.injEq] at hlast
    rw [← hlast.2.2, hfails] at hsuccess
    cases hsuccess
  · intro hnever fuel result hresult hbuffer
    obtain ⟨k, -, hshort, hgranted, hlen, hends, ⟨before, size, hcalls⟩, hfreed⟩ :=
      queryLoop_returns (s := ⟨0, 0, []⟩) ⟨[], rfl⟩ rfl hresult hbuffer
    have hsuccess : ntSuccess (rounds k).status = true := by
      by_contra hfails
      rw [Bool.not_eq_true] at hfails
      exact hnever ⟨k, fun j => hshort j (Nat.zero_le j), fun j => hgranted j (Nat.zero_le j), hlen,
        hfails, hends.resolve_left (by rw [hfails]; decide)⟩
    exact ⟨⟨before, size, _, hcalls, hsuccess⟩, hfreed⟩

def outOfMemory (i : Nat) : QueryRound :=
  if i = 0 then ⟨0, statusInfoLengthMismatch, 0x1000⟩
  else ⟨0x5000, statusInsufficientResources, 0x1000⟩

/-- The buffer of the failed query is returned. -/
theorem mmpQuerySystemInformation_unfilled :
    ¬∀ fuel result, mmpQuerySystemInformation outOfMemory fuel = some result →
      result.buffer ≠ 0 → ValidSnapshot result := by
  intro h
  have hrun : mmpQuerySystemInformation outOfMemory 2 = some ⟨0x5000, 0x1000,
      [.rtlFreeHeap 0, .ntQuerySystemInformation 0 0 statusInfoLengthMismatch, .rtlFreeHeap 0,
        .rtlAllocateHeap 0x2000 0x5000,
        .ntQuerySystemInformation 0x5000 0x2000 statusInsufficientResources]⟩ := by
    decide
  obtain ⟨before, size, status, hcalls, hsuccess⟩ := (h 2 _ hrun (by decide)).filled
  have hlast := congrArg List.getLast? hcalls
  rw [List.getLast?_append] at hlast
  cases hlast
  exact absurd hsuccess (by decide)

end WinPolyfillLoader.MmpTls
