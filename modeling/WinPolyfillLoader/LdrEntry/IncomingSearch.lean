import WinPolyfillLoader.LdrEntry.Unlinking

/-!
The do-while loop of `RtlFreeDependencies` that looks for the link of the
module in the incoming list of a dependent. Its exit test compares the cursor
with a pointer that follows one link behind, so on a list of several links the
two never meet: the loop ends only at a link of the module.
-/

namespace WinPolyfillLoader.LdrEntry

open CircularList

def incomingVisits (ddagNode : Nat) : Nat → Nat → Nat → LdrState → List Nat
  | 0, _, _, _ => []
  | fuel + 1, last, entry, state =>
    entry ::
      if untag (state.incoming entry).incomingDdagNode = ddagNode then []
      else
        let last' := if last ≠ entry then nextIncoming state last else last
        let entry' := nextIncoming state entry
        if entry' ≠ last' then incomingVisits ddagNode fuel last' entry' state else []

abbrev RefersTo (ddagNode : Nat) (state : LdrState) (link : Nat) : Prop :=
  untag (state.incoming link).incomingDdagNode = ddagNode

/-- The loop ends, stands on no link twice and leaves a list without a link of
the module as it is. -/
def SearchEnds (ddagNode dependent : Nat) (links : List Nat) (state : LdrState) : Prop :=
  let first := (state.ddagNodes dependent).incomingDependencies
  ∃ fuel after, unlinkIncoming ddagNode dependent fuel first first state = .ok after ∧
    (incomingVisits ddagNode fuel first first state).Nodup ∧
    (∀ l ∈ incomingVisits ddagNode fuel first first state, l ∈ links) ∧
    ((∀ l ∈ links, ¬ RefersTo ddagNode state l) → after = state)

section Rounds

variable {ddagNode : Nat} (dependent : Nat) {state : LdrState}

theorem unlinkIncoming_advance {last entry : Nat} (fuel : Nat)
    (hother : ¬ RefersTo ddagNode state entry) (hlast : nextIncoming state last = entry)
    (hapart : last ≠ entry) (hnext : nextIncoming state entry ≠ entry) :
    unlinkIncoming ddagNode dependent (fuel + 1) last entry state =
        unlinkIncoming ddagNode dependent fuel entry (nextIncoming state entry) state ∧
      incomingVisits ddagNode (fuel + 1) last entry state =
        entry :: incomingVisits ddagNode fuel entry (nextIncoming state entry) state := by
  constructor
  · rw [unlinkIncoming, if_neg hother, if_pos hapart, hlast, if_pos hnext]
  · rw [incomingVisits, if_neg hother, if_pos hapart, hlast, if_pos hnext]

theorem unlinkIncoming_start {entry : Nat} (fuel : Nat)
    (hother : ¬ RefersTo ddagNode state entry) (hnext : nextIncoming state entry ≠ entry) :
    unlinkIncoming ddagNode dependent (fuel + 1) entry entry state =
        unlinkIncoming ddagNode dependent fuel entry (nextIncoming state entry) state ∧
      incomingVisits ddagNode (fuel + 1) entry entry state =
        entry :: incomingVisits ddagNode fuel entry (nextIncoming state entry) state := by
  have hsame : ¬ entry ≠ entry := fun h => h rfl
  constructor
  · rw [unlinkIncoming, if_neg hother, if_neg hsame, if_pos hnext]
  · rw [incomingVisits, if_neg hother, if_neg hsame, if_pos hnext]

end Rounds

theorem unlinkIncoming_spins {ddagNode dependent : Nat} {links : List Nat} {state : LdrState}
    (hmem : ∀ l ∈ links, nextIncoming state l ∈ links)
    (hne : ∀ l ∈ links, nextIncoming state l ≠ l)
    (hothers : ∀ l ∈ links, ¬ RefersTo ddagNode state l) (fuel : Nat) {last : Nat}
    (hlast : last ∈ links) :
    unlinkIncoming ddagNode dependent fuel last (nextIncoming state last) state =
      .error .outOfFuel := by
  induction fuel generalizing last with
  | zero => rfl
  | succ fuel ih =>
    have hentry : nextIncoming state last ∈ links := hmem last hlast
    rw [(unlinkIncoming_advance dependent fuel (hothers _ hentry) rfl (hne last hlast).symm
      (hne _ hentry)).1]
    exact ih hentry

/-- Without a link of the module the loop never ends on several links. -/
theorem unlinkIncoming_hangs {ddagNode dependent first second : Nat} {rest : List Nat}
    {state : LdrState} (hring : Ring (nextIncoming state) (first :: second :: rest))
    (hnodup : (first :: second :: rest).Nodup)
    (hothers : ∀ l ∈ first :: second :: rest, ¬ RefersTo ddagNode state l) (fuel : Nat) :
    unlinkIncoming ddagNode dependent fuel first first state = .error .outOfFuel := by
  have hmem : ∀ l ∈ first :: second :: rest, nextIncoming state l ∈ first :: second :: rest :=
    fun _ hl => ring_next_mem hring hl
  have hne : ∀ l ∈ first :: second :: rest, nextIncoming state l ≠ l :=
    fun _ hl => ring_next_ne hring hnodup hl
  have hfirst : first ∈ first :: second :: rest := List.mem_cons_self
  cases fuel with
  | zero => rfl
  | succ fuel =>
    rw [(unlinkIncoming_start dependent fuel (hothers first hfirst) (hne first hfirst)).1]
    exact unlinkIncoming_spins hmem hne hothers fuel hfirst

theorem incomingVisits_walk {ddagNode own p stop fuel : Nat} {t : List Nat} {state : LdrState}
    (hpath : Path (nextIncoming state) (p :: t ++ [own]) stop) (hnodup : (p :: t ++ [own]).Nodup)
    (hothers : ∀ l ∈ t, ¬ RefersTo ddagNode state l) (hown : RefersTo ddagNode state own)
    (hfuel : t.length < fuel) :
    incomingVisits ddagNode fuel p (t.headD own) state = t ++ [own] := by
  induction t generalizing p fuel with
  | nil =>
    obtain ⟨fuel, rfl⟩ := Nat.exists_eq_add_one_of_ne_zero (Nat.ne_of_gt hfuel)
    rw [List.headD_nil, incomingVisits, if_pos hown]
    rfl
  | cons x t ih =>
    obtain ⟨fuel, rfl⟩ := Nat.exists_eq_add_one_of_ne_zero (Nat.ne_of_gt (Nat.zero_lt_of_lt hfuel))
    obtain ⟨hp, hrest⟩ := hpath
    have hnodup' := List.nodup_cons.mp hnodup
    have hpx : p ≠ x := fun heq => hnodup'.1 (heq ▸ List.mem_cons_self)
    have hentry : nextIncoming state x = t.headD own := by
      rw [hrest.1]
      exact headD_append t [own] stop
    have hne : nextIncoming state x ≠ x := by
      rw [hentry]
      intro heq
      exact (List.nodup_cons.mp hnodup'.2).1 (heq ▸ headD_mem_append t own)
    rw [List.headD_cons, (unlinkIncoming_advance 0 fuel
      (hothers x List.mem_cons_self) hp hpx hne).2, hentry,
      ih hrest hnodup'.2 (fun l hl => hothers l (List.mem_cons_of_mem _ hl))
        (by simpa using hfuel)]
    rfl

theorem unlinkIncoming_head {ddagNode dependent own : Nat} {after : List Nat} {state : LdrState}
    (hhead : (state.ddagNodes dependent).incomingDependencies = own)
    (hring : Ring (nextIncoming state) (own :: after)) (hnodup : (own :: after).Nodup)
    (hown : RefersTo ddagNode state own) :
    ∃ fuel result, unlinkIncoming ddagNode dependent fuel own own state = .ok result ∧
      incomingVisits ddagNode fuel own own state = [own] := by
  have hpath : Path (nextIncoming state) (own :: after) own := hring
  have hvisits : ∀ fuel, incomingVisits ddagNode (fuel + 1) own own state = [own] := by
    intro fuel
    rw [incomingVisits, if_pos hown]
  rcases List.eq_nil_or_concat after with rfl | ⟨pre, q, hafter⟩
  · have hnext : nextIncoming state own = own := hpath.1
    refine ⟨1, setIncomingDependencies dependent 0 state, ?_, hvisits 0⟩
    rw [unlinkIncoming, if_pos hown, unlinkEntry, if_pos hhead.symm, hnext, if_pos hhead.symm]
  · rw [List.concat_eq_append] at hafter
    subst hafter
    have hnext : nextIncoming state own = pre.headD q := by
      rw [hpath.1]
      exact headD_append pre [q] own
    have hnotin : own ∉ pre ++ [q] := (List.nodup_cons.mp hnodup).1
    have hne : ¬ pre.headD q = own := fun heq => hnotin (heq ▸ headD_mem_append pre q)
    have hlast : findLast (nextIncoming state) own (pre.length + 1) (pre.headD q) = .ok q :=
      findLast_eq hpath.2 hnotin (Nat.lt_succ_self _)
    refine ⟨pre.length + 2, setIncomingDependencies dependent (pre.headD q)
      (setNextIncoming q (pre.headD q) state), ?_, hvisits _⟩
    rw [unlinkIncoming, if_pos hown, unlinkEntry, hhead, if_pos rfl, hnext, if_neg hne, hlast]

theorem unlinkIncoming_reaches {ddagNode dependent b own : Nat} {t after : List Nat}
    {state : LdrState} (hhead : (state.ddagNodes dependent).incomingDependencies = b)
    (hring : Ring (nextIncoming state) (b :: t ++ own :: after))
    (hnodup : (b :: t ++ own :: after).Nodup)
    (hothers : ∀ l ∈ b :: t, ¬ RefersTo ddagNode state l) (hown : RefersTo ddagNode state own) :
    ∃ fuel result, unlinkIncoming ddagNode dependent fuel b b state = .ok result ∧
      incomingVisits ddagNode fuel b b state = b :: t ++ [own] := by
  have hsplit : b :: t ++ own :: after = (b :: t ++ [own]) ++ after := by simp
  have hnodup' : (b :: t ++ [own]).Nodup := by
    rw [hsplit] at hnodup
    exact (List.nodup_append.mp hnodup).1
  have hpath : Path (nextIncoming state) (b :: t ++ [own]) (after.headD b) := by
    have hall : Path (nextIncoming state) ((b :: t ++ [own]) ++ after) b := hsplit ▸ hring
    exact ((path_append _ _ _ _).mp hall).1
  have hownb : own ≠ (state.ddagNodes dependent).incomingDependencies := by
    rw [hhead]
    exact fun heq => (List.nodup_cons.mp hnodup').1 (heq ▸ by simp)
  have hnext : nextIncoming state b = t.headD own := by
    rw [hpath.1]
    exact headD_append t [own] _
  have hne : nextIncoming state b ≠ b := by
    rw [hnext]
    intro heq
    exact (List.nodup_cons.mp hnodup').1 (heq ▸ headD_mem_append t own)
  have hothers' : ∀ l ∈ t, ¬ RefersTo ddagNode state l :=
    fun l hl => hothers l (List.mem_cons_of_mem _ hl)
  obtain ⟨hrun, hvisits⟩ := unlinkIncoming_start dependent (t.length + 1)
    (hothers b List.mem_cons_self) hne
  obtain ⟨pre, q, -, hwalk⟩ := unlinkIncoming_walk hpath hnodup' hothers' hown hownb
    (Nat.lt_succ_self _)
  refine ⟨t.length + 2, setNextIncoming q (nextIncoming state own) state, ?_, ?_⟩
  · rw [hrun, hnext, hwalk]
  · rw [hvisits, hnext, incomingVisits_walk hpath hnodup' hothers' hown (Nat.lt_succ_self _)]
    rfl

theorem searchEnds_of_refers {ddagNode dependent : Nat} {links : List Nat} {state : LdrState}
    (hincoming : IncomingIs state dependent links) (hnodup : links.Nodup)
    (hrefers : ∃ l ∈ links, RefersTo ddagNode state l) :
    SearchEnds ddagNode dependent links state := by
  obtain ⟨l, hl, hlrefers⟩ := hrefers
  obtain ⟨own, hfind⟩ := Option.isSome_iff_exists.mp
    (List.find?_isSome (p := fun l => decide (RefersTo ddagNode state l)).mpr
      ⟨l, hl, decide_eq_true hlrefers⟩)
  obtain ⟨hownrefers, before, after, hsplit, hbefore⟩ := List.find?_eq_some_iff_append.mp hfind
  have hownrefers : RefersTo ddagNode state own := of_decide_eq_true hownrefers
  have hothers : ∀ l ∈ before, ¬ RefersTo ddagNode state l := by
    intro l hl
    simpa using hbefore l hl
  obtain ⟨hhead, hring⟩ := hincoming
  have hring : Ring (nextIncoming state) links :=
    hring.resolve_left (List.ne_nil_of_mem hl)
  subst hsplit
  obtain ⟨fuel, result, hrun, hvisits⟩ : ∃ fuel result,
      unlinkIncoming ddagNode dependent fuel (state.ddagNodes dependent).incomingDependencies
          (state.ddagNodes dependent).incomingDependencies state = .ok result ∧
        incomingVisits ddagNode fuel (state.ddagNodes dependent).incomingDependencies
          (state.ddagNodes dependent).incomingDependencies state = before ++ [own] := by
    cases before with
    | nil =>
      have hhead' : (state.ddagNodes dependent).incomingDependencies = own := hhead
      rw [hhead']
      exact unlinkIncoming_head hhead' hring hnodup hownrefers
    | cons b t =>
      have hhead' : (state.ddagNodes dependent).incomingDependencies = b := hhead
      rw [hhead']
      exact unlinkIncoming_reaches hhead' hring hnodup hothers hownrefers
  have hsub : (before ++ [own]).Sublist (before ++ own :: after) :=
    List.Sublist.append_left (List.singleton_sublist.mpr List.mem_cons_self) before
  refine ⟨fuel, result, hrun, ?_, ?_, ?_⟩
  · rw [hvisits]
    exact hnodup.sublist hsub
  · rw [hvisits]
    exact fun l hl => hsub.subset hl
  · intro hnone
    exact absurd hownrefers (hnone own (by simp))

theorem searchEnds_of_single {ddagNode dependent link : Nat} {state : LdrState}
    (hincoming : IncomingIs state dependent [link])
    (hother : ¬ RefersTo ddagNode state link) : SearchEnds ddagNode dependent [link] state := by
  obtain ⟨hhead, hring⟩ := hincoming
  have hhead : (state.ddagNodes dependent).incomingDependencies = link := hhead
  have hnext : nextIncoming state link = link :=
    (hring.resolve_left (List.cons_ne_nil _ _)).1
  have hsame : ¬ link ≠ link := fun h => h rfl
  have hvisits : incomingVisits ddagNode 1 link link state = [link] := by
    rw [incomingVisits, if_neg hother, if_neg hsame, hnext, if_neg hsame]
  refine ⟨1, state, ?_, ?_, ?_, fun _ => rfl⟩
  · rw [hhead, unlinkIncoming, if_neg hother, if_neg hsame, hnext, if_neg hsame]
  · rw [hhead, hvisits]
    exact List.nodup_cons.mpr ⟨List.not_mem_nil, List.nodup_nil⟩
  · rw [hhead, hvisits]
    exact fun _ hl => hl

/-- The search of the incoming list ends exactly on a list of one link or with
a link of the module in it. -/
theorem incoming_search_ends_iff (ddagNode dependent : Nat) (links : List Nat) (state : LdrState)
    (hincoming : IncomingIs state dependent links) (hlength : 1 ≤ links.length)
    (hnodup : links.Nodup) :
    SearchEnds ddagNode dependent links state ↔
      links.length = 1 ∨ ∃ l ∈ links, RefersTo ddagNode state l := by
  constructor
  · rintro ⟨fuel, after, hrun, -⟩
    by_contra hneither
    obtain ⟨hone, hnone⟩ := not_or.mp hneither
    have hothers : ∀ l ∈ links, ¬ RefersTo ddagNode state l :=
      fun l hl hrefers => hnone ⟨l, hl, hrefers⟩
    match links, hlength, hone with
    | [], hlength, _ => exact Nat.not_succ_le_zero 0 hlength
    | [_], _, hone => exact hone rfl
    | first :: second :: rest, _, _ =>
      obtain ⟨hhead, hring⟩ := hincoming
      have hhead : (state.ddagNodes dependent).incomingDependencies = first := hhead
      have hhangs : unlinkIncoming ddagNode dependent fuel first first state =
          .error .outOfFuel :=
        unlinkIncoming_hangs (hring.resolve_left (List.cons_ne_nil _ _)) hnodup hothers fuel
      rw [hhead, hhangs] at hrun
      cases hrun
  · rintro (hone | hrefers)
    · obtain ⟨link, rfl⟩ := List.length_eq_one_iff.mp hone
      cases Decidable.em (RefersTo ddagNode state link) with
      | inl hrefers =>
        exact searchEnds_of_refers hincoming hnodup ⟨link, List.mem_singleton.mpr rfl, hrefers⟩
      | inr hother => exact searchEnds_of_single hincoming hother
    · exact searchEnds_of_refers hincoming hnodup hrefers

theorem incoming_search_ends_second :
    SearchEnds 0x20 0x30 [0x200, 0x210, 0x220] (twoDependents 0) := by
  refine (incoming_search_ends_iff 0x20 0x30 [0x200, 0x210, 0x220] (twoDependents 0)
    ⟨rfl, Or.inr ⟨rfl, rfl, rfl, trivial⟩⟩ (by simp) (by simp)).mpr (Or.inr ⟨0x210, by simp, rfl⟩)

/-- The dependent of a module whose incoming list has two links of others. -/
def linksOfOthers : LdrState :=
  { twoDependents 0 with
    incoming := fun l => if l = 0x200 then ⟨0x210, 0x50⟩ else ⟨0x200, 0x60⟩ }

/-- Two links of other modules: the loop goes round for ever, and with it
`RtlFreeDependencies`. -/
theorem incoming_search_hangs :
    IncomingIs linksOfOthers 0x30 [0x200, 0x210] ∧ [0x200, 0x210].Nodup ∧
      ¬ SearchEnds (linksOfOthers.entries 0x10).ddagNode 0x30 [0x200, 0x210] linksOfOthers ∧
      ∀ globals fuel,
        rtlFreeDependencies globals fuel 0x10 linksOfOthers = .error .outOfFuel := by
  have hincoming : IncomingIs linksOfOthers 0x30 [0x200, 0x210] :=
    ⟨rfl, Or.inr ⟨rfl, rfl, trivial⟩⟩
  have hnodup : [0x200, 0x210].Nodup := by simp
  have hothers : ∀ l ∈ [0x200, 0x210], ¬ RefersTo 0x20 linksOfOthers l := by
    intro l hl
    rcases List.mem_pair.mp hl with rfl | rfl
    · exact (by decide : untag 0x50 ≠ 0x20)
    · exact (by decide : untag 0x60 ≠ 0x20)
  have hhangs : ∀ fuel, unlinkIncoming 0x20 0x30 fuel 0x200 0x200 linksOfOthers =
      .error .outOfFuel :=
    unlinkIncoming_hangs (hincoming.2.resolve_left (List.cons_ne_nil _ _)) hnodup hothers
  refine ⟨hincoming, hnodup, ?_, ?_⟩
  · rintro ⟨fuel, after, hrun, -⟩
    have hrun' : unlinkIncoming 0x20 0x30 fuel 0x200 0x200 linksOfOthers = .ok after := hrun
    rw [hhangs fuel] at hrun'
    cases hrun'
  · intro globals fuel
    cases fuel with
    | zero => rfl
    | succ fuel =>
      have hround : freeDependency globals fuel 0x20 0x100 0x100 linksOfOthers =
          .error .outOfFuel := by
        have hsearch := hhangs fuel
        have hrecord : linksOfOthers.dependents 0x100 = some ⟨0x110, 0x30⟩ := rfl
        have hmodule : dependentModule 0x30 linksOfOthers = .ok 0x31 := rfl
        have hfirst : (linksOfOthers.ddagNodes 0x30).incomingDependencies = 0x200 := rfl
        simp only [freeDependency, hrecord, hmodule, hfirst, hsearch]
      change freeDependencies globals 0x20 0x100 (fuel + 1) 0x100 linksOfOthers =
        .error .outOfFuel
      rw [freeDependencies, hround]

end WinPolyfillLoader.LdrEntry
