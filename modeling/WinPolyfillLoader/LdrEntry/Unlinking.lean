import WinPolyfillLoader.LdrEntry.FreeDependencies

/-!
`RtlFreeDependencies` takes a module out of the dependency graph: on every
graph it ends, each dependent loses exactly the link of the module, and every
record is freed once, after its last use.
-/

namespace WinPolyfillLoader.LdrEntry

open ProcessHeap CircularList

/-- A dependent of a module: its record, its node and module, and the circular
incoming list cut at the link that belongs to the module. -/
structure Dependency where
  record : Nat
  node : Nat
  moduleEntry : Nat
  before : List Nat
  own : Nat
  after : List Nat
deriving DecidableEq, Repr

namespace Dependency

def links (d : Dependency) : List Nat := d.before ++ d.own :: d.after

def remaining (d : Dependency) : List Nat := d.before ++ d.after

end Dependency

/-- The incoming list of a node, from its head on. -/
def IncomingIs (state : LdrState) (node : Nat) (links : List Nat) : Prop :=
  (state.ddagNodes node).incomingDependencies = links.headD 0 ∧
    (links = [] ∨ Ring (nextIncoming state) links)

structure Linked (ddagNode : Nat) (state : LdrState) (d : Dependency) : Prop where
  modules : (state.ddagNodes d.node).modules = [d.moduleEntry]
  owner : (state.entries d.moduleEntry).ddagNode = d.node
  incoming : IncomingIs state d.node d.links
  nodup : d.links.Nodup
  nonnull : 0 ∉ d.links
  own : untag (state.incoming d.own).incomingDdagNode = ddagNode
  others : ∀ l ∈ d.remaining, untag (state.incoming l).incomingDdagNode ≠ ddagNode

theorem nextIncoming_setNextIncoming (link value : Nat) (state : LdrState) :
    nextIncoming (setNextIncoming link value state) =
      Function.update (nextIncoming state) link value := by
  funext l
  rcases eq_or_ne l link with rfl | hne
  · simp [nextIncoming, setNextIncoming]
  · simp [nextIncoming, setNextIncoming, hne]

/-- The search for the last node of a ring whose first node is `entry`. -/
theorem findLast_eq {next : Nat → Nat} {entry q : Nat} {xs : List Nat} {fuel : Nat}
    (hpath : Path next (xs ++ [q]) entry) (hentry : entry ∉ xs ++ [q]) (hfuel : xs.length < fuel) :
    findLast next entry fuel (xs.headD q) = .ok q := by
  induction xs generalizing fuel with
  | nil =>
    obtain ⟨fuel, rfl⟩ := Nat.exists_eq_add_one_of_ne_zero (Nat.ne_of_gt hfuel)
    exact if_pos hpath.1
  | cons x xs ih =>
    obtain ⟨fuel, rfl⟩ := Nat.exists_eq_add_one_of_ne_zero (Nat.ne_of_gt (Nat.zero_lt_of_lt hfuel))
    obtain ⟨hx, hrest⟩ := hpath
    have hnext : next x = xs.headD q := by
      rw [hx]
      exact headD_append xs [q] entry
    have hne : next x ≠ entry := by
      intro heq
      exact hentry (List.mem_cons_of_mem _ (heq ▸ hnext ▸ headD_mem_append xs q))
    rw [List.headD_cons, findLast, if_neg hne, hnext]
    exact ih hrest (fun h => hentry (List.mem_cons_of_mem _ h)) (by simpa using hfuel)

/-- The walk from the second node on, with `_last` at the predecessor `p`. -/
theorem unlinkIncoming_walk {ddagNode dependent own p stop fuel : Nat} {t : List Nat}
    {state : LdrState} (hpath : Path (nextIncoming state) (p :: t ++ [own]) stop)
    (hnodup : (p :: t ++ [own]).Nodup)
    (hothers : ∀ l ∈ t, untag (state.incoming l).incomingDdagNode ≠ ddagNode)
    (hown : untag (state.incoming own).incomingDdagNode = ddagNode)
    (hhead : own ≠ (state.ddagNodes dependent).incomingDependencies) (hfuel : t.length < fuel) :
    ∃ pre q, p :: t = pre ++ [q] ∧
      unlinkIncoming ddagNode dependent fuel p (t.headD own) state =
        .ok (setNextIncoming q (nextIncoming state own) state) := by
  induction t generalizing p fuel with
  | nil =>
    obtain ⟨fuel, rfl⟩ := Nat.exists_eq_add_one_of_ne_zero (Nat.ne_of_gt hfuel)
    refine ⟨[], p, rfl, ?_⟩
    rw [List.headD_nil, unlinkIncoming, if_pos hown, unlinkEntry, if_neg hhead]
  | cons x t ih =>
    obtain ⟨fuel, rfl⟩ := Nat.exists_eq_add_one_of_ne_zero (Nat.ne_of_gt (Nat.zero_lt_of_lt hfuel))
    obtain ⟨hp, hrest⟩ := hpath
    have hnodup' := List.nodup_cons.mp hnodup
    have hpx : p ≠ x := fun heq => hnodup'.1 (heq ▸ List.mem_cons_self)
    have hlast : nextIncoming state p = x := hp
    have hentry : nextIncoming state x = t.headD own := by
      rw [hrest.1]
      exact headD_append t [own] stop
    have hne : t.headD own ≠ x := by
      intro heq
      exact (List.nodup_cons.mp hnodup'.2).1 (heq ▸ headD_mem_append t own)
    obtain ⟨pre, q, hsplit, hrun⟩ := ih hrest hnodup'.2
      (fun l hl => hothers l (List.mem_cons_of_mem _ hl)) (by simpa using hfuel)
    refine ⟨p :: pre, q, by rw [hsplit, List.cons_append], ?_⟩
    rw [List.headD_cons, unlinkIncoming, if_neg (hothers x List.mem_cons_self), if_pos hpx, hlast,
      hentry, if_pos hne]
    exact hrun

/-- The effect of the inner loop: the list loses the link, and only the link
fields of this list and the head pointer of this node differ. -/
structure Unlinked (d : Dependency) (state after : LdrState) : Prop where
  incoming : IncomingIs after d.node d.remaining
  others : ∀ l ∉ d.links, after.incoming l = state.incoming l
  tags : ∀ l, (after.incoming l).incomingDdagNode = (state.incoming l).incomingDdagNode
  node : after.ddagNodes d.node =
    { state.ddagNodes d.node with incomingDependencies := d.remaining.headD 0 }
  nodes : ∀ n ≠ d.node, after.ddagNodes n = state.ddagNodes n
  rest : after = { state with incoming := after.incoming, ddagNodes := after.ddagNodes }

theorem setNextIncoming_tags (link value l : Nat) (state : LdrState) :
    ((setNextIncoming link value state).incoming l).incomingDdagNode =
      (state.incoming l).incomingDdagNode := by
  rcases eq_or_ne l link with rfl | hne
  · simp [setNextIncoming]
  · simp [setNextIncoming, hne]

theorem unlinkIncoming_only {ddagNode : Nat} {state : LdrState} {d : Dependency}
    (h : Linked ddagNode state d) (hbefore : d.before = []) (hafter : d.after = []) (fuel : Nat) :
    unlinkIncoming ddagNode d.node (fuel + 1) d.own d.own state =
        .ok (setIncomingDependencies d.node 0 state) ∧
      Unlinked d state (setIncomingDependencies d.node 0 state) := by
  have hlinks : d.links = [d.own] := by rw [Dependency.links, hbefore, hafter]; rfl
  have hremaining : d.remaining = [] := by rw [Dependency.remaining, hbefore, hafter]; rfl
  obtain ⟨hhead, hring⟩ := h.incoming
  rw [hlinks] at hhead hring
  have hhead : (state.ddagNodes d.node).incomingDependencies = d.own := hhead
  have hnext : nextIncoming state d.own = d.own := by
    rcases hring with habsurd | hring
    · cases habsurd
    · exact hring.1
  refine ⟨?_, ?_, ?_, ?_, ?_, ?_, rfl⟩
  · rw [unlinkIncoming, if_pos h.own, unlinkEntry, if_pos hhead.symm, hnext, if_pos hhead.symm]
  · rw [hremaining]
    exact ⟨by simp [setIncomingDependencies, modifyNode], Or.inl rfl⟩
  · exact fun _ _ => rfl
  · exact fun _ => rfl
  · rw [hremaining]
    simp [setIncomingDependencies, modifyNode]
  · intro n hn
    exact Function.update_of_ne hn _ _

theorem unlinkIncoming_first {ddagNode : Nat} {state : LdrState} {d : Dependency}
    (h : Linked ddagNode state d) (hbefore : d.before = []) {pre : List Nat} {q : Nat}
    (hafter : d.after = pre ++ [q]) {fuel : Nat} (hfuel : pre.length < fuel) :
    ∃ after, unlinkIncoming ddagNode d.node (fuel + 1) d.own d.own state = .ok after ∧
      Unlinked d state after := by
  have hlinks : d.links = d.own :: (pre ++ [q]) := by rw [Dependency.links, hbefore, hafter]; rfl
  have hremaining : d.remaining = pre ++ [q] := by rw [Dependency.remaining, hbefore, hafter]; rfl
  obtain ⟨hhead, hring⟩ := h.incoming
  have hnodup := h.nodup
  rw [hlinks] at hhead hring hnodup
  have hhead : (state.ddagNodes d.node).incomingDependencies = d.own := hhead
  have hring : Ring (nextIncoming state) (d.own :: (pre ++ [q])) :=
    hring.resolve_left (List.cons_ne_nil _ _)
  obtain ⟨hnext, hring'⟩ := ring_unlink_head hring hnodup
  have hnext' : nextIncoming state d.own = pre.headD q := by
    rw [hnext]
    exact headD_append pre [q] d.own
  have hfirst : (pre ++ [q]).headD 0 = pre.headD q := headD_append pre [q] 0
  have hown : d.own ∉ pre ++ [q] := (List.nodup_cons.mp hnodup).1
  have hne : pre.headD q ≠ (state.ddagNodes d.node).incomingDependencies := by
    rw [hhead]
    intro heq
    exact hown (heq ▸ headD_mem_append pre q)
  have hlast : findLast (nextIncoming state) d.own fuel (pre.headD q) = .ok q :=
    findLast_eq hring.2 hown hfuel
  refine ⟨setIncomingDependencies d.node (pre.headD q) (setNextIncoming q (pre.headD q) state),
    ?_, ?_, ?_, ?_, ?_, ?_, rfl⟩
  · rw [unlinkIncoming, if_pos h.own, unlinkEntry, if_pos hhead.symm, hnext', if_neg hne, hlast]
  · rw [hremaining]
    refine ⟨by rw [hfirst]; simp [setIncomingDependencies, modifyNode], Or.inr ?_⟩
    have hsame : nextIncoming (setIncomingDependencies d.node (pre.headD q)
        (setNextIncoming q (pre.headD q) state)) =
        Function.update (nextIncoming state) q (nextIncoming state d.own) := by
      rw [hnext', ← nextIncoming_setNextIncoming]
      rfl
    rw [hsame]
    exact hring'
  · intro l hl
    have hq : l ≠ q := fun heq => hl (hlinks ▸ heq ▸ by simp)
    exact Function.update_of_ne hq _ _
  · exact fun l => setNextIncoming_tags q _ l state
  · rw [hremaining, hfirst]
    simp [setIncomingDependencies, modifyNode, setNextIncoming]
  · intro n hn
    exact Function.update_of_ne hn _ _

theorem unlinkIncoming_later {ddagNode : Nat} {state : LdrState} {d : Dependency}
    (h : Linked ddagNode state d) {b : Nat} {t : List Nat} (hbefore : d.before = b :: t)
    {fuel : Nat} (hfuel : t.length < fuel) :
    ∃ after, unlinkIncoming ddagNode d.node (fuel + 1) b b state = .ok after ∧
      Unlinked d state after := by
  have hlinks : d.links = b :: t ++ d.own :: d.after := by rw [Dependency.links, hbefore]
  have hremaining : d.remaining = b :: t ++ d.after := by rw [Dependency.remaining, hbefore]
  obtain ⟨hhead, hring⟩ := h.incoming
  have hnodup := h.nodup
  rw [hlinks] at hhead hring hnodup
  have hring : Ring (nextIncoming state) (b :: t ++ d.own :: d.after) :=
    hring.resolve_left (List.cons_ne_nil _ _)
  have hothers : ∀ l ∈ b :: t, untag (state.incoming l).incomingDdagNode ≠ ddagNode := by
    intro l hl
    exact h.others l (hremaining ▸ List.mem_append_left _ hl)
  have hsplit : b :: t ++ d.own :: d.after = (b :: t ++ [d.own]) ++ d.after := by simp
  have hnodup' : (b :: t ++ [d.own]).Nodup := by
    rw [hsplit] at hnodup
    exact (List.nodup_append.mp hnodup).1
  have hpath : Path (nextIncoming state) (b :: t ++ [d.own]) (d.after.headD b) := by
    have hall : Path (nextIncoming state) ((b :: t ++ [d.own]) ++ d.after) b := hsplit ▸ hring
    exact ((path_append _ _ _ _).mp hall).1
  have hownb : d.own ≠ b := fun heq => (List.nodup_cons.mp hnodup').1 (heq ▸ by simp)
  have hownhead : d.own ≠ (state.ddagNodes d.node).incomingDependencies := by
    rw [hhead]
    exact hownb
  have hnext : nextIncoming state b = t.headD d.own := by
    rw [hpath.1]
    exact headD_append t [d.own] _
  have hne : t.headD d.own ≠ b := by
    intro heq
    exact (List.nodup_cons.mp hnodup').1 (heq ▸ headD_mem_append t d.own)
  obtain ⟨pre, q, hpre, hrun⟩ := unlinkIncoming_walk hpath hnodup'
    (fun l hl => hothers l (List.mem_cons_of_mem _ hl)) h.own hownhead hfuel
  refine ⟨setNextIncoming q (nextIncoming state d.own) state, ?_, ?_, ?_, ?_, ?_, ?_, rfl⟩
  · have hsame : ¬ b ≠ b := fun hbb => hbb rfl
    rw [unlinkIncoming, if_neg (hothers b List.mem_cons_self), if_neg hsame, hnext, if_pos hne]
    exact hrun
  · rw [hremaining]
    refine ⟨hhead, Or.inr ?_⟩
    rw [nextIncoming_setNextIncoming, hpre]
    rw [hpre] at hring hnodup
    exact ring_unlink hring hnodup
  · intro l hl
    have hq : l ≠ q := by
      intro heq
      refine hl (hlinks ▸ heq ▸ ?_)
      rw [hpre]
      simp
    exact Function.update_of_ne hq _ _
  · exact fun l => setNextIncoming_tags q _ l state
  · rw [hremaining]
    have hsame : (state.ddagNodes d.node).incomingDependencies = (b :: t ++ d.after).headD 0 := hhead
    rw [← hsame]
    rfl
  · exact fun _ _ => rfl

/-- On the list of a dependent the inner loop ends and takes out the link. -/
theorem unlinkIncoming_linked {ddagNode : Nat} {state : LdrState} {d : Dependency}
    (h : Linked ddagNode state d) {fuel : Nat} (hfuel : d.links.length < fuel) :
    ∃ after, unlinkIncoming ddagNode d.node fuel (d.links.headD 0) (d.links.headD 0) state =
        .ok after ∧ Unlinked d state after := by
  obtain ⟨fuel, rfl⟩ := Nat.exists_eq_add_one_of_ne_zero (Nat.ne_of_gt (Nat.zero_lt_of_lt hfuel))
  have hlength : d.before.length + d.after.length + 1 < fuel + 1 := by
    simpa [Dependency.links, Nat.add_assoc] using hfuel
  cases hbefore : d.before with
  | nil =>
    have hfirst : d.links.headD 0 = d.own := by rw [Dependency.links, hbefore]; rfl
    rw [hfirst]
    rcases List.eq_nil_or_concat d.after with hafter | ⟨pre, q, hafter⟩
    · exact ⟨_, unlinkIncoming_only h hbefore hafter fuel⟩
    · have hafter' : d.after = pre ++ [q] := by rw [hafter, List.concat_eq_append]
      rw [hbefore, hafter'] at hlength
      exact unlinkIncoming_first h hbefore hafter' (by simp at hlength; omega)
  | cons b t =>
    have hfirst : d.links.headD 0 = b := by rw [Dependency.links, hbefore]; rfl
    rw [hfirst]
    rw [hbefore] at hlength
    exact unlinkIncoming_later h hbefore (by simp at hlength; omega)

/-- The dependent is unloaded: always, or in the range of Windows 8 only when
nothing else holds it. -/
def unloadDue (globals : LdrGlobals) (node : LdrDdagNode) : Bool :=
  if isWin8Range globals then
    decide (node.loadCount = 0 ∧ node.referenceCount = 1 ∧ node.dependencyCount - 1 = 0)
  else true

/-- The dependent's node when its record is done with. -/
def finishedNode (globals : LdrGlobals) (d : Dependency) (node : LdrDdagNode) : LdrDdagNode :=
  { node with
    incomingDependencies := d.remaining.headD 0
    dependencyCount :=
      if isWin8Range globals then node.dependencyCount - 1 else node.dependencyCount
    loadCount :=
      if isWin8Range globals && unloadDue globals node then 1 else node.loadCount }

/-- The counts that the code insists on. -/
def CountsDependency (globals : LdrGlobals) (state : LdrState) (d : Dependency) : Prop :=
  isWin8Range globals = true → (state.ddagNodes d.node).dependencyCount ≠ 0

/-- The release changes two counts of the dependent's node and the log of
unloaded modules. -/
theorem releaseDependent_eq {globals : LdrGlobals} {d : Dependency} {state : LdrState}
    (howner : (state.entries d.moduleEntry).ddagNode = d.node)
    (hcounts : CountsDependency globals state d) :
    ∃ after, releaseDependent globals d.moduleEntry state = .ok after ∧
      { after.ddagNodes d.node with incomingDependencies := d.remaining.headD 0 } =
        finishedNode globals d (state.ddagNodes d.node) ∧
      (after.ddagNodes d.node).incomingDependencies =
        (state.ddagNodes d.node).incomingDependencies ∧
      (∀ n ≠ d.node, after.ddagNodes n = state.ddagNodes n) ∧
      after = { state with
        ddagNodes := after.ddagNodes
        unloaded := state.unloaded ++
          if unloadDue globals (state.ddagNodes d.node) then
            [(state.entries d.moduleEntry).dllBase] else [] } := by
  cases hrange : isWin8Range globals with
  | false =>
    refine ⟨ldrUnloadDll (state.entries d.moduleEntry).dllBase state, ?_, ?_, rfl, fun _ _ => rfl,
      ?_⟩
    · simp [releaseDependent, hrange]
    · simp [finishedNode, hrange, ldrUnloadDll]
    · simp [unloadDue, hrange, ldrUnloadDll]
  | true =>
    have hpositive := hcounts hrange
    let node := state.ddagNodes d.node
    let counted :=
      modifyNode d.node (fun n => { n with dependencyCount := n.dependencyCount - 1 }) state
    have hcounted : counted.ddagNodes d.node =
        { node with dependencyCount := node.dependencyCount - 1 } := Function.update_self _ _ _
    have hothers : ∀ n ≠ d.node, counted.ddagNodes n = state.ddagNodes n :=
      fun n hn => Function.update_of_ne hn _ _
    have hrun : releaseDependent globals d.moduleEntry state =
        if node.loadCount = 0 ∧ node.referenceCount = 1 ∧ node.dependencyCount - 1 = 0 then
          .ok (ldrUnloadDll (state.entries d.moduleEntry).dllBase
            (modifyNode d.node (fun n => { n with loadCount := 1 }) counted))
        else .ok counted := by
      simp only [releaseDependent, hrange, howner, if_neg hpositive, if_true]
      rw [hcounted]
    rcases Decidable.em (node.loadCount = 0 ∧ node.referenceCount = 1 ∧
        node.dependencyCount - 1 = 0) with hdue | hdue
    · have hunload : unloadDue globals node = true := by
        rw [unloadDue, if_pos hrange]
        exact decide_eq_true hdue
      refine ⟨_, hrun.trans (if_pos hdue), ?_, ?_, ?_, ?_⟩
      · simp [finishedNode, hrange, hunload, ldrUnloadDll, modifyNode, counted, node]
      · simp [ldrUnloadDll, modifyNode, counted]
      · intro n hn
        exact (Function.update_of_ne hn _ _).trans (hothers n hn)
      · rw [if_pos hunload]
        rfl
    · have hunload : unloadDue globals node = false := by
        rw [unloadDue, if_pos hrange]
        exact decide_eq_false hdue
      refine ⟨_, hrun.trans (if_neg hdue), ?_, ?_, hothers, ?_⟩
      · simp [finishedNode, hrange, hunload, hcounted, node]
      · rw [hcounted]
      · rw [hunload, if_neg Bool.false_ne_true, List.append_nil]
        rfl

/-- What the release of a dependent adds to the log of unloaded modules. -/
def unloads (globals : LdrGlobals) (state : LdrState) (d : Dependency) : List Nat :=
  if unloadDue globals (state.ddagNodes d.node) then [(state.entries d.moduleEntry).dllBase] else []

/-- The effect of freeing the dependencies `ds`: each dependent has lost the
link and is released, each record is freed, and the module's own pointer is
`dependencies`. -/
structure Freed (globals : LdrGlobals) (ddagNode dependencies : Nat) (ds : List Dependency)
    (state after : LdrState) : Prop where
  own : after.ddagNodes ddagNode = { state.ddagNodes ddagNode with dependencies := dependencies }
  node : ∀ d ∈ ds, after.ddagNodes d.node = finishedNode globals d (state.ddagNodes d.node)
  nodes : ∀ n ≠ ddagNode, n ∉ ds.map Dependency.node → after.ddagNodes n = state.ddagNodes n
  ring : ∀ d ∈ ds, d.remaining = [] ∨ Ring (nextIncoming after) d.remaining
  links : ∀ l ∉ ds.flatMap Dependency.links, after.incoming l = state.incoming l
  tags : ∀ l, (after.incoming l).incomingDdagNode = (state.incoming l).incomingDdagNode
  rest : after = { state with
    incoming := after.incoming
    ddagNodes := after.ddagNodes
    dependents := fun r => if r ∈ ds.map Dependency.record then none else state.dependents r
    heap := state.heap.freeAll (ds.map Dependency.record)
    unloaded := state.unloaded ++ ds.flatMap (unloads globals state) }

/-- The fields that the frees do not write are as before. -/
structure KeepsFields (state after : LdrState) : Prop where
  entries : after.entries = state.entries
  loadOrder : after.inLoadOrderModuleList = state.inLoadOrderModuleList
  memoryOrder : after.inMemoryOrderModuleList = state.inMemoryOrderModuleList
  initializationOrder :
    after.inInitializationOrderModuleList = state.inInitializationOrderModuleList
  hashTable : after.ldrpHashTable = state.ldrpHashTable
  index : after.ldrpModuleBaseAddressIndex = state.ldrpModuleBaseAddressIndex

theorem KeepsFields.trans {state mid after : LdrState} (hfirst : KeepsFields state mid)
    (hsecond : KeepsFields mid after) : KeepsFields state after where
  entries := hsecond.entries.trans hfirst.entries
  loadOrder := hsecond.loadOrder.trans hfirst.loadOrder
  memoryOrder := hsecond.memoryOrder.trans hfirst.memoryOrder
  initializationOrder := hsecond.initializationOrder.trans hfirst.initializationOrder
  hashTable := hsecond.hashTable.trans hfirst.hashTable
  index := hsecond.index.trans hfirst.index

theorem keepsFields_of_eq {state after : LdrState} {incoming : Nat → LdrpCslistIncoming}
    {ddagNodes : Nat → LdrDdagNode} {dependents : Nat → Option LdrpCslistDependent} {heap : Heap}
    {unloaded : List Nat}
    (h : after = { state with
      incoming := incoming, ddagNodes := ddagNodes, dependents := dependents, heap := heap
      unloaded := unloaded }) : KeepsFields state after := by
  rw [h]
  exact ⟨rfl, rfl, rfl, rfl, rfl, rfl⟩

/-- A state with the fields of another one, but for those that the frees write. -/
theorem KeepsFields.eq {state after : LdrState} (h : KeepsFields state after) :
    after = { state with
      incoming := after.incoming
      ddagNodes := after.ddagNodes
      dependents := after.dependents
      heap := after.heap
      unloaded := after.unloaded } :=
  LdrState.ext h.entries rfl rfl rfl h.loadOrder h.memoryOrder h.initializationOrder h.hashTable
    h.index rfl rfl

theorem dependentModule_linked {ddagNode : Nat} {state : LdrState} {d : Dependency}
    (h : Linked ddagNode state d) : dependentModule d.node state = .ok d.moduleEntry := by
  have hhead : (state.ddagNodes d.node).incomingDependencies ≠ 0 := by
    rw [h.incoming.1]
    intro hzero
    have hmem : d.links.headD 0 ∈ d.links := by
      rw [Dependency.links]
      cases d.before with
      | nil => exact List.mem_cons_self
      | cons b t => exact List.mem_cons_self
    exact h.nonnull (hzero ▸ hmem)
  have howner : ¬ (state.entries d.moduleEntry).ddagNode ≠ d.node := fun hne => hne h.owner
  simp only [dependentModule, h.modules, if_neg howner, if_neg hhead]

theorem freeDependency_freed {globals : LdrGlobals} {ddagNode head next fuel : Nat}
    {d : Dependency} {state : LdrState} (hlinked : Linked ddagNode state d)
    (hcounts : CountsDependency globals state d) (hnode : d.node ≠ ddagNode)
    (hrecord : state.dependents d.record = some ⟨next, d.node⟩)
    (hdependencies : (state.ddagNodes ddagNode).dependencies = d.record)
    (hfuel : d.links.length < fuel) :
    ∃ after, freeDependency globals fuel ddagNode head d.record state = .ok (next, after) ∧
      Freed globals ddagNode (if next = head then 0 else next) [d] state after := by
  obtain ⟨unlinked, hunlink, heffect⟩ := unlinkIncoming_linked hlinked hfuel
  have hentries : unlinked.entries = state.entries := by rw [heffect.rest]
  have howner : (unlinked.entries d.moduleEntry).ddagNode = d.node := by
    rw [hentries]
    exact hlinked.owner
  have hcounts' : CountsDependency globals unlinked d := by
    intro hrange
    rw [heffect.node]
    exact hcounts hrange
  obtain ⟨released, hrelease, hfinished, hpointer, hothers, hrest⟩ :=
    releaseDependent_eq howner hcounts'
  have hmodule := dependentModule_linked hlinked
  have hown : released.ddagNodes ddagNode = state.ddagNodes ddagNode := by
    rw [hothers ddagNode hnode.symm, heffect.nodes ddagNode hnode.symm]
  have hnodeD : released.ddagNodes d.node = finishedNode globals d (state.ddagNodes d.node) := by
    have hsame : finishedNode globals d (unlinked.ddagNodes d.node) =
        finishedNode globals d (state.ddagNodes d.node) := by
      rw [heffect.node]
      rfl
    have hincoming : (released.ddagNodes d.node).incomingDependencies = d.remaining.headD 0 := by
      rw [hpointer, heffect.node]
    rw [← hsame, ← hfinished, ← hincoming]
  have hdue : unloadDue globals (unlinked.ddagNodes d.node) =
      unloadDue globals (state.ddagNodes d.node) := by
    rw [heffect.node]
    rfl
  have hincoming : released.incoming = unlinked.incoming := by rw [hrest]
  let final := modifyNode ddagNode
    (fun n => { n with dependencies := if next = head then 0 else next })
    (freeDependent d.record released)
  refine ⟨final, ?_, ?_, ?_, ?_, ?_, ?_, ?_, ?_⟩
  · simp only [freeDependency, hrecord, hmodule, hlinked.incoming.1, hunlink, hrelease, hown,
      hdependencies]
    rfl
  · simp only [final, modifyNode, freeDependent, Function.update_self, hown]
  · intro e he
    rw [List.mem_singleton.mp he]
    exact (Function.update_of_ne hnode _ _).trans hnodeD
  · intro n hn hnotin
    have hnd : n ≠ d.node := by simpa using hnotin
    exact (Function.update_of_ne hn _ _).trans ((hothers n hnd).trans (heffect.nodes n hnd))
  · intro e he
    rw [List.mem_singleton.mp he]
    refine heffect.incoming.2.imp_right (ring_congr ?_)
    intro l _
    simp only [final, nextIncoming, modifyNode, freeDependent, hincoming]
  · intro l hl
    have hnotin : l ∉ d.links := by simpa using hl
    simp only [final, modifyNode, freeDependent, hincoming]
    exact heffect.others l hnotin
  · intro l
    simp only [final, modifyNode, freeDependent, hincoming]
    exact heffect.tags l
  · have hkeeps : KeepsFields state final :=
      ((keepsFields_of_eq heffect.rest).trans (keepsFields_of_eq hrest)).trans
        ⟨rfl, rfl, rfl, rfl, rfl, rfl⟩
    have hdependents : final.dependents =
        fun r => if r ∈ [d].map Dependency.record then none else state.dependents r := by
      have hsame : released.dependents = state.dependents := by rw [hrest, heffect.rest]
      simp only [final, modifyNode, freeDependent, hsame]
      funext r
      simp [Function.update_apply]
    have hheap : final.heap = state.heap.freeAll ([d].map Dependency.record) := by
      have hsame : released.heap = state.heap := by rw [hrest, heffect.rest]
      simp only [final, modifyNode, freeDependent, hsame]
      rfl
    have hunloaded : final.unloaded = state.unloaded ++ [d].flatMap (unloads globals state) := by
      simp only [final, modifyNode, freeDependent]
      rw [hrest, heffect.rest]
      simp only [List.flatMap_cons, List.flatMap_nil, List.append_nil, unloads, hdue]
    have hfinal := hkeeps.eq
    rw [hdependents, hheap, hunloaded] at hfinal
    exact hfinal

/-- The dependencies of the module at `ddagNode` that are still to be freed. The
records form a chain that ends at `stop`. -/
structure Pending (ddagNode stop : Nat) (ds : List Dependency) (state : LdrState) : Prop where
  linked : ∀ d ∈ ds, Linked ddagNode state d
  apart : ddagNode ∉ ds.map Dependency.node
  nodes : (ds.map Dependency.node).Nodup
  links : (ds.flatMap Dependency.links).Nodup
  records : (ds.map Dependency.record).Nodup
  ends : stop ∉ (ds.map Dependency.record).tail
  chain : ∀ before d after, ds = before ++ d :: after →
    state.dependents d.record = some ⟨(after.map Dependency.record).headD stop, d.node⟩

theorem pending_of_freed {globals : LdrGlobals} {ddagNode dependencies stop : Nat}
    {d : Dependency} {ds : List Dependency} {state mid : LdrState}
    (h : Pending ddagNode stop (d :: ds) state)
    (hfreed : Freed globals ddagNode dependencies [d] state mid) :
    Pending ddagNode stop ds mid ∧
      ∀ e ∈ ds, mid.ddagNodes e.node = state.ddagNodes e.node ∧
        mid.entries e.moduleEntry = state.entries e.moduleEntry := by
  have hentries : mid.entries = state.entries := by rw [hfreed.rest]
  have hdependents : mid.dependents =
      fun r => if r ∈ [d].map Dependency.record then none else state.dependents r := by
    rw [hfreed.rest]
  have hnode : ∀ e ∈ ds, mid.ddagNodes e.node = state.ddagNodes e.node := by
    intro e he
    have hmem : e.node ∈ ds.map Dependency.node := List.mem_map_of_mem he
    refine hfreed.nodes e.node ?_ ?_
    · intro heq
      exact h.apart (List.mem_cons_of_mem _ (heq ▸ hmem))
    · intro heq
      have heq' : e.node = d.node := by simpa using heq
      exact (List.nodup_cons.mp h.nodes).1 (heq' ▸ hmem)
  have hlinks : ∀ e ∈ ds, ∀ l ∈ e.links, mid.incoming l = state.incoming l := by
    intro e he l hl
    apply hfreed.links l
    intro hmem
    have hmem' : l ∈ d.links := by simpa using hmem
    have hnodup := h.links
    rw [List.flatMap_cons, List.nodup_append] at hnodup
    exact hnodup.2.2 l hmem' l (List.mem_flatMap.mpr ⟨e, he, hl⟩) rfl
  refine ⟨⟨?_, ?_, ?_, ?_, ?_, ?_, ?_⟩, fun e he => ⟨hnode e he, by rw [hentries]⟩⟩
  · intro e he
    have hlinked := h.linked e (List.mem_cons_of_mem _ he)
    refine ⟨by rw [hnode e he]; exact hlinked.modules, by rw [hentries]; exact hlinked.owner,
      ⟨by rw [hnode e he]; exact hlinked.incoming.1, ?_⟩, hlinked.nodup, hlinked.nonnull, ?_, ?_⟩
    · refine hlinked.incoming.2.imp_right (ring_congr ?_)
      intro l hl
      rw [nextIncoming, nextIncoming, hlinks e he l hl]
    · rw [hfreed.tags]
      exact hlinked.own
    · intro l hl
      rw [hfreed.tags]
      exact hlinked.others l hl
  · exact fun hmem => h.apart (List.mem_cons_of_mem _ hmem)
  · exact (List.nodup_cons.mp h.nodes).2
  · have hnodup := h.links
    rw [List.flatMap_cons, List.nodup_append] at hnodup
    exact hnodup.2.1
  · exact (List.nodup_cons.mp h.records).2
  · exact fun hmem => h.ends (List.mem_of_mem_tail hmem)
  · intro before e after hsplit
    have hmem : e.record ∈ ds.map Dependency.record :=
      List.mem_map_of_mem (hsplit ▸ List.mem_append_right _ List.mem_cons_self)
    have hne : e.record ∉ [d].map Dependency.record := by
      intro heq
      have heq' : e.record = d.record := by simpa using heq
      exact (List.nodup_cons.mp h.records).1 (heq' ▸ hmem)
    rw [hdependents]
    simp only [if_neg hne]
    exact h.chain (d :: before) e after (by rw [hsplit, List.cons_append])

/-- Freeing one dependency and then the others is freeing them all. -/
theorem freed_cons {globals : LdrGlobals} {ddagNode stop dependencies final : Nat}
    {d : Dependency} {ds : List Dependency} {state mid after : LdrState}
    (h : Pending ddagNode stop (d :: ds) state)
    (hfirst : Freed globals ddagNode dependencies [d] state mid)
    (hrest : Freed globals ddagNode final ds mid after) :
    Freed globals ddagNode final (d :: ds) state after := by
  have hsame := (pending_of_freed h hfirst).2
  have hdnode : d.node ≠ ddagNode := fun heq => h.apart (heq ▸ List.mem_cons_self)
  have hdlinks : ∀ l ∈ d.links, l ∉ ds.flatMap Dependency.links := by
    intro l hl hmem
    have hnodup := h.links
    rw [List.flatMap_cons, List.nodup_append] at hnodup
    exact hnodup.2.2 l hl l hmem rfl
  refine ⟨?_, ?_, ?_, ?_, ?_, ?_, ?_⟩
  · rw [hrest.own, hfirst.own]
  · intro e he
    rcases List.mem_cons.mp he with rfl | he
    · rw [hrest.nodes e.node hdnode (List.nodup_cons.mp h.nodes).1]
      exact hfirst.node e List.mem_cons_self
    · rw [hrest.node e he, (hsame e he).1]
  · intro n hn hnotin
    rw [List.map_cons, List.mem_cons, not_or] at hnotin
    rw [hrest.nodes n hn hnotin.2]
    exact hfirst.nodes n hn (by simpa using hnotin.1)
  · intro e he
    rcases List.mem_cons.mp he with rfl | he
    · refine (hfirst.ring e List.mem_cons_self).imp_right (ring_congr ?_)
      intro l hl
      have hmem : l ∈ e.links := by
        rw [Dependency.remaining, List.mem_append] at hl
        rw [Dependency.links, List.mem_append]
        exact hl.imp_right (List.mem_cons_of_mem _)
      rw [nextIncoming, nextIncoming, hrest.links l (hdlinks l hmem)]
    · exact hrest.ring e he
  · intro l hl
    rw [List.flatMap_cons, List.mem_append, not_or] at hl
    rw [hrest.links l hl.2]
    exact hfirst.links l (by simpa using hl.1)
  · intro l
    rw [hrest.tags, hfirst.tags]
  · have hunloads : ds.flatMap (unloads globals mid) = ds.flatMap (unloads globals state) := by
      apply List.flatMap_congr
      intro e he
      rw [unloads, unloads, (hsame e he).1, (hsame e he).2]
    have hdependents : (fun r => if r ∈ ds.map Dependency.record then none else mid.dependents r) =
        fun r => if r ∈ (d :: ds).map Dependency.record then none else state.dependents r := by
      rw [hfirst.rest]
      funext r
      simp only [List.map_cons, List.map_nil, List.mem_cons, List.not_mem_nil, or_false]
      by_cases hr : r ∈ ds.map Dependency.record
      · rw [if_pos hr, if_pos (Or.inr hr)]
      · rw [if_neg hr]
        simp only [hr, or_false]
    have hkeeps : KeepsFields state after :=
      (keepsFields_of_eq hfirst.rest).trans (keepsFields_of_eq hrest.rest)
    have hdependents' : after.dependents =
        fun r => if r ∈ ds.map Dependency.record then none else mid.dependents r := by
      rw [hrest.rest]
    have hheap : after.heap = state.heap.freeAll ((d :: ds).map Dependency.record) := by
      rw [hrest.rest, hfirst.rest]
      rfl
    have hunloaded : after.unloaded = state.unloaded ++ (d :: ds).flatMap (unloads globals state) := by
      rw [List.flatMap_cons, ← hunloads, ← List.append_assoc]
      rw [hrest.rest, hfirst.rest]
      simp
    have hafter := hkeeps.eq
    rw [hdependents'.trans hdependents, hheap, hunloaded] at hafter
    exact hafter

/-- The outer loop frees every pending dependency, one round each. -/
theorem freeDependencies_freed {globals : LdrGlobals} {ddagNode head fuel : Nat} {d : Dependency}
    {ds : List Dependency} {state : LdrState} (h : Pending ddagNode head (d :: ds) state)
    (hcounts : ∀ e ∈ d :: ds, CountsDependency globals state e)
    (hdependencies : (state.ddagNodes ddagNode).dependencies = d.record)
    (hfuel : (d :: ds).length + ((d :: ds).flatMap Dependency.links).length < fuel) :
    ∃ after, freeDependencies globals ddagNode head fuel d.record state = .ok after ∧
      Freed globals ddagNode 0 (d :: ds) state after := by
  induction ds generalizing d state fuel with
  | nil =>
    obtain ⟨fuel, rfl⟩ := Nat.exists_eq_add_one_of_ne_zero (Nat.ne_of_gt (Nat.zero_lt_of_lt hfuel))
    have hnode : d.node ≠ ddagNode := fun heq => h.apart (heq ▸ List.mem_cons_self)
    have hlinks : d.links.length < fuel := by
      simp only [List.length_cons, List.length_nil, List.flatMap_cons, List.flatMap_nil,
        List.append_nil] at hfuel
      omega
    have hrecord : state.dependents d.record = some ⟨head, d.node⟩ := h.chain [] d [] rfl
    obtain ⟨after, hround, hfreed⟩ := freeDependency_freed (h.linked d List.mem_cons_self)
      (hcounts d List.mem_cons_self) hnode hrecord hdependencies hlinks
    have hdone : ¬ head ≠ head := fun hne => hne rfl
    rw [if_pos rfl] at hfreed
    refine ⟨after, ?_, hfreed⟩
    rw [freeDependencies, hround]
    exact if_neg hdone
  | cons e ds ih =>
    obtain ⟨fuel, rfl⟩ := Nat.exists_eq_add_one_of_ne_zero (Nat.ne_of_gt (Nat.zero_lt_of_lt hfuel))
    have hnode : d.node ≠ ddagNode := fun heq => h.apart (heq ▸ List.mem_cons_self)
    have hlength : (e :: ds).length +
        (d.links.length + ((e :: ds).flatMap Dependency.links).length) < fuel := by
      rw [List.length_cons, List.flatMap_cons, List.length_append] at hfuel
      omega
    have hlinks : d.links.length < fuel := by omega
    have hfuel' : (e :: ds).length + ((e :: ds).flatMap Dependency.links).length < fuel := by omega
    have hrecord : state.dependents d.record = some ⟨e.record, d.node⟩ := h.chain [] d (e :: ds) rfl
    obtain ⟨mid, hround, hfreed⟩ := freeDependency_freed (h.linked d List.mem_cons_self)
      (hcounts d List.mem_cons_self) hnode hrecord hdependencies hlinks
    have hmore : e.record ≠ head := fun heq => h.ends (heq ▸ List.mem_cons_self)
    rw [if_neg hmore] at hfreed
    obtain ⟨hpending, hsame⟩ := pending_of_freed h hfreed
    have hcounts' : ∀ e' ∈ e :: ds, CountsDependency globals mid e' := by
      intro e' he' hrange
      rw [(hsame e' he').1]
      exact hcounts e' (List.mem_cons_of_mem _ he') hrange
    have hdependencies' : (mid.ddagNodes ddagNode).dependencies = e.record := by rw [hfreed.own]
    obtain ⟨after, hrun, hrest⟩ := ih hpending hcounts' hdependencies' hfuel'
    refine ⟨after, ?_, freed_cons h hfreed hrest⟩
    rw [freeDependencies, hround]
    exact (if_pos hmore).trans hrun

theorem unloads_all {globals : LdrGlobals} (hrange : isWin8Range globals = false)
    (state : LdrState) (ds : List Dependency) :
    ds.flatMap (unloads globals state) =
      ds.map (fun e => (state.entries e.moduleEntry).dllBase) := by
  induction ds with
  | nil => rfl
  | cons d ds ih =>
    rw [List.flatMap_cons, List.map_cons, ih]
    simp [unloads, unloadDue, hrange]

theorem unloads_unheld {globals : LdrGlobals} (hrange : isWin8Range globals = true)
    (state : LdrState) (ds : List Dependency) :
    ds.flatMap (unloads globals state) =
      (ds.filter (fun e => (state.ddagNodes e.node).loadCount = 0 ∧
        (state.ddagNodes e.node).referenceCount = 1 ∧
        (state.ddagNodes e.node).dependencyCount - 1 = 0)).map
          (fun e => (state.entries e.moduleEntry).dllBase) := by
  induction ds with
  | nil => rfl
  | cons d ds ih =>
    rw [List.flatMap_cons, List.filter_cons, ih, unloads, unloadDue, if_pos hrange]
    split
    · rfl
    · rfl

/-- A module at `0x10` with two dependents. The link of the module is the second
of three in the first incoming list, with the tag bit set, and the only one in
the other. -/
def twoDependents (dependencyCount : Dword) : LdrState where
  entries := fun e => { LdrDataTableEntry.zero with
    dllBase := e + 0x1000
    ddagNode := if e = 0x10 then 0x20 else if e = 0x31 then 0x30 else 0x40 }
  ddagNodes := fun n =>
    if n = 0x20 then ⟨[0x10], 1, 1, 0, 0x100, 0, 9⟩
    else if n = 0x30 then ⟨[0x31], 0, 1, dependencyCount, 0, 0x200, 9⟩
    else ⟨[0x41], 0, 1, dependencyCount, 0, 0x230, 9⟩
  dependents := fun r =>
    if r = 0x100 then some ⟨0x110, 0x30⟩ else if r = 0x110 then some ⟨0x100, 0x40⟩ else none
  incoming := fun l =>
    if l = 0x200 then ⟨0x210, 0x50⟩ else if l = 0x210 then ⟨0x220, 0x21⟩
    else if l = 0x220 then ⟨0x200, 0x60⟩ else ⟨0x230, 0x20⟩
  inLoadOrderModuleList := [0x10, 0x31, 0x41]
  inMemoryOrderModuleList := [0x10, 0x31, 0x41]
  inInitializationOrderModuleList := [0x10, 0x31, 0x41]
  ldrpHashTable := fun _ => []
  ldrpModuleBaseAddressIndex := none
  heap := ⟨[0x100, 0x110], [], []⟩
  unloaded := []

def firstDependent : Dependency := ⟨0x100, 0x30, 0x31, [0x200], 0x210, [0x220]⟩
def secondDependent : Dependency := ⟨0x110, 0x40, 0x41, [], 0x230, []⟩

theorem twoDependents_pending (dependencyCount : Dword) :
    Pending 0x20 0x100 [firstDependent, secondDependent] (twoDependents dependencyCount) := by
  refine ⟨?_, by decide, by decide, by decide, by decide, by decide, ?_⟩
  · intro d hd
    rcases List.mem_pair.mp hd with rfl | rfl
    · refine ⟨rfl, rfl, ⟨rfl, Or.inr ⟨rfl, rfl, rfl, trivial⟩⟩, by decide, by decide, ?_, ?_⟩
      · simp [untag, twoDependents, firstDependent]
      · simp [untag, twoDependents, firstDependent, Dependency.remaining]
    · refine ⟨rfl, rfl, ⟨rfl, Or.inr ⟨rfl, trivial⟩⟩, by decide, by decide, ?_, ?_⟩
      · simp [untag, twoDependents, secondDependent]
      · simp [secondDependent, Dependency.remaining]
  · intro before d after hsplit
    rcases before with _ | ⟨b, _ | ⟨c, before⟩⟩
    · cases hsplit
      rfl
    · cases hsplit
      rfl
    · simp at hsplit

/-- `RtlFreeDependencies` ends on every graph. The module has no dependencies
left, each record is freed once and in turn, each dependent's incoming list is
the old one without the link of the module, and the dependents are unloaded:
all of them, or in the range of Windows 8 those that nothing else holds, after
their dependency count went down by one. -/
theorem rtlFreeDependencies_unlinks (globals : LdrGlobals) (ldrEntry : Nat) (state : LdrState)
    (d : Dependency) (ds : List Dependency)
    (hpending : Pending (state.entries ldrEntry).ddagNode d.record (d :: ds) state)
    (hhead : (state.ddagNodes (state.entries ldrEntry).ddagNode).dependencies = d.record)
    (hnonnull : ∀ e ∈ d :: ds, e.record ≠ 0)
    (hcounts : ∀ e ∈ d :: ds, CountsDependency globals state e) (fuel : Nat)
    (hfuel : (d :: ds).length + ((d :: ds).flatMap Dependency.links).length < fuel) :
    ∃ after, rtlFreeDependencies globals fuel ldrEntry state = .ok after ∧
      (after.ddagNodes (state.entries ldrEntry).ddagNode).dependencies = 0 ∧
      after.heap.log = state.heap.log ++ (d :: ds).map (fun e => Event.free e.record) ∧
      (∀ e ∈ d :: ds, IncomingIs after e.node e.remaining) ∧
      (isWin8Range globals = false →
        after.unloaded = state.unloaded ++
          (d :: ds).map (fun e => (state.entries e.moduleEntry).dllBase)) ∧
      (isWin8Range globals = true →
        (∀ e ∈ d :: ds, (after.ddagNodes e.node).dependencyCount =
          (state.ddagNodes e.node).dependencyCount - 1) ∧
        after.unloaded = state.unloaded ++
          ((d :: ds).filter (fun e => (state.ddagNodes e.node).loadCount = 0 ∧
            (state.ddagNodes e.node).referenceCount = 1 ∧
            (state.ddagNodes e.node).dependencyCount - 1 = 0)).map
              (fun e => (state.entries e.moduleEntry).dllBase)) := by
  obtain ⟨after, hrun, hfreed⟩ := freeDependencies_freed hpending hcounts hhead hfuel
  have hnull : ¬ d.record = 0 := hnonnull d List.mem_cons_self
  have hrecords : ∀ r ∈ (d :: ds).map Dependency.record, r ≠ 0 := by
    intro r hr
    obtain ⟨e, he, rfl⟩ := List.mem_map.mp hr
    exact hnonnull e he
  have hunloaded : after.unloaded = state.unloaded ++ (d :: ds).flatMap (unloads globals state) := by
    rw [hfreed.rest]
  refine ⟨after, ?_, ?_, ?_, ?_, ?_, ?_⟩
  · simp only [rtlFreeDependencies, hhead, if_neg hnull]
    exact hrun
  · rw [hfreed.own]
  · rw [hfreed.rest]
    simp only [freeAll_log hrecords, List.map_map]
    rfl
  · intro e he
    exact ⟨by rw [hfreed.node e he]; rfl, hfreed.ring e he⟩
  · intro hrange
    rw [hunloaded, unloads_all hrange]
  · intro hrange
    refine ⟨?_, by rw [hunloaded, unloads_unheld hrange]⟩
    intro e he
    rw [hfreed.node e he]
    exact if_pos hrange

/-- Two dependents on Windows 10. -/
theorem rtlFreeDependencies_unlinks_win10 :
    ∃ after, rtlFreeDependencies ⟨systemWin10Rtm, 0x118, 0⟩ 7 0x10 (twoDependents 0) = .ok after ∧
      (after.ddagNodes 0x20).dependencies = 0 ∧
      after.unloaded = [0x1031, 0x1041] := by
  obtain ⟨after, hrun, hown, -, -, hunloaded, -⟩ := rtlFreeDependencies_unlinks
    ⟨systemWin10Rtm, 0x118, 0⟩ 0x10 (twoDependents 0) firstDependent [secondDependent]
    (twoDependents_pending 0) rfl (by decide)
    (fun _ _ hrange => absurd hrange (by decide)) 7 (by decide)
  exact ⟨after, hrun, hown, hunloaded (by decide)⟩

/-- On Windows 8 a dependent whose dependency count is 0 stops the process. -/
theorem rtlFreeDependencies_zero_count :
    Pending 0x20 0x100 [firstDependent, secondDependent] (twoDependents 0) ∧
      rtlFreeDependencies ⟨systemNt62Rtm, 0x110, 0⟩ 7 0x10 (twoDependents 0) = .error .fastFail ∧
      ∀ fuel after,
        rtlFreeDependencies ⟨systemNt62Rtm, 0x110, 0⟩ fuel 0x10 (twoDependents 0) ≠ .ok after := by
  refine ⟨twoDependents_pending 0, rfl, ?_⟩
  intro fuel after hrun
  match fuel, hrun with
  | 0, hrun => cases hrun
  | 1, hrun => cases hrun
  | 2, hrun => cases hrun
  | fuel + 3, hrun => cases hrun

end WinPolyfillLoader.LdrEntry
