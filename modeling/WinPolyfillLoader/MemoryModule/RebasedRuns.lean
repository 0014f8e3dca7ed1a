import WinPolyfillLoader.MemoryModule.RelocationWalk

/-!
What a success of `MemoryLoadLibrary` says about an image that did not get its
preferred base. Without a relocation directory the rebase does nothing, and the
walk ends at the first block whose `VirtualAddress` is 0; both are a success.
-/

namespace WinPolyfillLoader.MemoryModule

open ByteMemory Relation

/-- The machine in which the section loop of a run ends. -/
def sectionsLoaded (c : Caller) (fuel : Nat) (s : Machine) : Machine :=
  (copySections c (c.newHeader c.reservedBase) fuel 0 (sectionTable c (checked c s))
    (headersCopied c (checked c s))).2

/-- The difference of the base and the `ImageBase` in the header of the buffer. -/
def baseDifference (c : Caller) : Nat :=
  (c.reservedBase + c.host.addresses - c.member (imageBase c.host)) % c.host.addresses

/-- Every block of the directory, up to its end, was applied with the difference
of the two bases. -/
structure DirectoryApplied (c : Caller) (s : Machine) : Prop where
  rebases : Rebases c (c.newHeader c.reservedBase) s
  delta : locationDelta c (c.newHeader c.reservedBase) s = baseDifference c
  reachesEnd : ∃ x, Visits c c.reservedBase (c.newHeader c.reservedBase) s x ∧
    x.directoryEnd c c.reservedBase (c.newHeader c.reservedBase) ≤ x.relocation

/-- The image can be used at the base that it was given. -/
def UsableAtBase (c : Caller) (s : Machine) : Prop :=
  c.reservedBase = c.member (imageBase c.host) ∨ DirectoryApplied c s

/-- The image can be rebased: the loaded sections left the base in the header, and
there is a directory without a block for the page 0. -/
structure Rebasable (c : Caller) (s : Machine) : Prop where
  base : s.value (c.newHeader c.reservedBase) (imageBase c.host) = c.reservedBase
  size : s.value (c.newHeader c.reservedBase) (relocSize c.host) ≠ 0
  address : s.value (c.newHeader c.reservedBase) (relocVirtualAddress c.host) ≠ 0
  pages : ∀ x, Visits c c.reservedBase (c.newHeader c.reservedBase) s x →
    x.relocation < x.directoryEnd c c.reservedBase (c.newHeader c.reservedBase) → 0 < x.page

variable {c : Caller} {s s' : Machine} {base newHeader : Nat}

theorem difference_eq {addresses newBase oldBase : Nat} (hnew : newBase < addresses)
    (hold : oldBase < addresses) : (newBase + addresses - oldBase) % addresses =
      if oldBase ≤ newBase then newBase - oldBase else newBase + addresses - oldBase := by
  split
  · have hsum : newBase + addresses - oldBase = newBase - oldBase + addresses := by omega
    rw [hsum, Nat.add_mod_right, Nat.mod_eq_of_lt (by omega)]
  · exact Nat.mod_eq_of_lt (by omega)

theorem difference_injective {addresses newBase newBase' oldBase : Nat}
    (hnew : newBase < addresses) (hnew' : newBase' < addresses) (hold : oldBase < addresses)
    (h : (newBase + addresses - oldBase) % addresses =
      (newBase' + addresses - oldBase) % addresses) : newBase = newBase' := by
  rw [difference_eq hnew hold, difference_eq hnew' hold] at h
  split at h
  · split at h
    · omega
    · omega
  · split at h
    · omega
    · omega

theorem difference_ne_zero {addresses newBase oldBase : Nat} (hnew : newBase < addresses)
    (hold : oldBase < addresses) (hne : newBase ≠ oldBase) :
    (newBase + addresses - oldBase) % addresses ≠ 0 := by
  rw [difference_eq hnew hold]
  split
  · omega
  · omega

theorem reaches_left {delta : Nat} {x y : WalkState} (hleft : ¬ x.Enters c base newHeader)
    (h : ReflTransGen (NextBlock c base newHeader delta) x y) : x = y := by
  rcases ReflTransGen.cases_head h with heq | ⟨_, hnext, _⟩
  · exact heq
  · exact absurd hnext.1 hleft

/-- A walk that gets to the end of the directory enters every block on its way. -/
theorem Visits.enters {x y : WalkState} (hx : Visits c base newHeader s x)
    (hend : x.directoryEnd c base newHeader ≤ x.relocation) (hy : Visits c base newHeader s y)
    (hinside : y.relocation < y.directoryEnd c base newHeader) : 0 < y.page := by
  by_contra hpage
  have hleftx : ¬ x.Enters c base newHeader := fun h => Nat.not_lt.mpr hend h.1
  have hlefty : ¬ y.Enters c base newHeader := fun h => hpage h.2
  have heq : x = y := by
    rcases ReflTransGen.total_of_right_unique nextBlock_unique hx.2 hy.2 with hxy | hyx
    · exact reaches_left hleftx hxy
    · exact (reaches_left hlefty hyx).symm
  rw [heq] at hend
  omega

/-- A walk that returns without a block for the page 0 has got to the end. -/
theorem rebaseImage_reachesEnd {fuel : Nat} (hrebases : Rebases c newHeader s)
    (hrun : rebaseImage c base newHeader fuel s = (some (), s'))
    (hpages : ∀ x, Visits c base newHeader s x →
      x.relocation < x.directoryEnd c base newHeader → 0 < x.page) :
    ∃ x, Visits c base newHeader s x ∧ x.directoryEnd c base newHeader ≤ x.relocation := by
  rw [rebaseImage_walks hrebases] at hrun
  obtain ⟨x, hreaches, hleft⟩ := applyBlocks_stops hrun
  refine ⟨x, ⟨hrebases, hreaches⟩, ?_⟩
  by_contra hinside
  have hlt := Nat.lt_of_not_le hinside
  exact hleft ⟨hlt, hpages x ⟨hrebases, hreaches⟩ hlt⟩

end WinPolyfillLoader.MemoryModule
