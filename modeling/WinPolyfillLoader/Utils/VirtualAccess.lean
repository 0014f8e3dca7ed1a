import WinPolyfillLoader.MemoryModule.ImageCheck
import WinPolyfillLoader.MemoryModule.SectionProtection

/-!
`VirtualAccessCheck` of `Utils.cpp`, behind the `ProbeFor...` macros. The kernel describes
the region of one address; a range may reach into the regions behind it, which nothing
asks for.
-/

namespace WinPolyfillLoader.Utils

open ByteMemory MemoryModule

/-- Consecutive pages with one protection. -/
structure Region where
  firstPage : Nat
  pageCount : Nat
  protect : Nat
deriving DecidableEq, Repr

def Region.Holds (r : Region) (page : Nat) : Prop :=
  r.firstPage ≤ page ∧ page < r.firstPage + r.pageCount

instance (r : Region) (page : Nat) : Decidable (r.Holds page) :=
  inferInstanceAs (Decidable (_ ∧ _))

structure MemoryMap where
  regions : List Region
  apart : regions.Pairwise fun r r' => Apart r.firstPage r.pageCount r'.firstPage r'.pageCount

/-- The page is in a region whose protection is in the mask. -/
def MemoryMap.Allowed (map : MemoryMap) (protect : Nat) (page : Nat) : Prop :=
  ∃ r ∈ map.regions, r.Holds page ∧ r.protect &&& protect ≠ 0

instance (map : MemoryMap) (protect : Nat) (page : Nat) :
    Decidable (map.Allowed protect page) := inferInstanceAs (Decidable (∃ r ∈ map.regions, _))

def Intersects (pBuffer size page : Nat) : Prop :=
  pBuffer / pageSize ≤ page ∧ page * pageSize < pBuffer + size

/-- `NtQueryVirtualMemory`, with the status and `mbi.Protect`: it describes the region of
the address, and refuses an address of no region. -/
structure VirtualMemory (map : MemoryMap) where
  ntQueryVirtualMemory : Nat → NtStatus × Nat
  describes : ∀ pBuffer, ∀ r ∈ map.regions, r.Holds (pBuffer / pageSize) →
    ntSuccess (ntQueryVirtualMemory pBuffer).1 = true ∧
      (ntQueryVirtualMemory pBuffer).2 = r.protect
  refuses : ∀ pBuffer, (∀ r ∈ map.regions, ¬ r.Holds (pBuffer / pageSize)) →
    ntSuccess (ntQueryVirtualMemory pBuffer).1 = false

variable {map : MemoryMap}

def virtualAccessCheckNoException (memory : VirtualMemory map) (pBuffer size : Nat)
    (protect : Nat) : Bool :=
  if size ≠ 0 then
    match memory.ntQueryVirtualMemory pBuffer with
    | (status, mbiProtect) =>
      if !ntSuccess status || !(mbiProtect &&& protect != 0) then false else true
  else true

/-- `VirtualAccessCheck`, with the status that it raises. -/
def virtualAccessCheck (memory : VirtualMemory map) (pBuffer size : Nat) (protect : Nat) :
    Except NtStatus Bool :=
  if !virtualAccessCheckNoException memory pBuffer size protect then .error statusAccessViolation
  else .ok true

/-- The mask of `ProbeForRead`. -/
def probeForReadMask : Nat :=
  pageReadonly ||| pageReadwrite ||| pageExecute ||| pageExecuteRead ||| pageExecuteReadwrite |||
    pageExecuteWritecopy ||| pageWritecopy

theorem virtualAccessCheckNoException_iff (memory : VirtualMemory map) {pBuffer size : Nat}
    (protect : Nat) (hsize : 0 < size) :
    virtualAccessCheckNoException memory pBuffer size protect = true ↔
      map.Allowed protect (pBuffer / pageSize) := by
  have hcheck : virtualAccessCheckNoException memory pBuffer size protect = true ↔
      ntSuccess (memory.ntQueryVirtualMemory pBuffer).1 = true ∧
        (memory.ntQueryVirtualMemory pBuffer).2 &&& protect ≠ 0 := by
    rw [virtualAccessCheckNoException, if_pos (Nat.ne_of_gt hsize)]
    simp
  rw [hcheck]
  constructor
  · rintro ⟨hstatus, hmask⟩
    by_contra hnone
    have hunheld : ∀ r ∈ map.regions, ¬ r.Holds (pBuffer / pageSize) := by
      intro r hr hholds
      rw [(memory.describes pBuffer r hr hholds).2] at hmask
      exact hnone ⟨r, hr, hholds, hmask⟩
    rw [memory.refuses pBuffer hunheld] at hstatus
    cases hstatus
  · rintro ⟨r, hr, hholds, hmask⟩
    obtain ⟨hstatus, hprotect⟩ := memory.describes pBuffer r hr hholds
    exact ⟨hstatus, hprotect ▸ hmask⟩

/-- Where the region of the first address is allowed, so are the pages of the range
behind it. -/
def AllowedBehind (map : MemoryMap) (pBuffer size : Nat) (protect : Nat) : Prop :=
  ∀ r ∈ map.regions, r.Holds (pBuffer / pageSize) → r.protect &&& protect ≠ 0 →
    ∀ page, r.firstPage + r.pageCount ≤ page → page * pageSize < pBuffer + size →
      map.Allowed protect page

/-- A check that passes covers the range exactly if the pages behind the region that it
asks for are allowed too. -/
theorem virtualAccessCheckNoException_covers_iff (memory : VirtualMemory map)
    (pBuffer size : Nat) (protect : Nat) (hsize : 0 < size) :
    (virtualAccessCheckNoException memory pBuffer size protect = true →
      ∀ page, Intersects pBuffer size page → map.Allowed protect page) ↔
      AllowedBehind map pBuffer size protect := by
  rw [virtualAccessCheckNoException_iff memory protect hsize]
  constructor
  · intro hcovers r hr hholds hmask page hbehind hrange
    have hfirst : pBuffer / pageSize ≤ page := by
      have hlt := hholds.2
      omega
    exact hcovers ⟨r, hr, hholds, hmask⟩ page ⟨hfirst, hrange⟩
  · rintro hbehind ⟨r, hr, hholds, hmask⟩ page ⟨hfirst, hrange⟩
    rcases Nat.lt_or_ge page (r.firstPage + r.pageCount) with hinside | houtside
    · exact ⟨r, hr, ⟨Nat.le_trans hholds.1 hfirst, hinside⟩, hmask⟩
    · exact hbehind r hr hholds hmask page houtside hrange

/-- The probe of the image check, on a caller that can read what the map allows. -/
theorem probeForRead_eq (memory : VirtualMemory map) {c : Caller}
    (hreadable : ∀ a, c.readable a = decide (map.Allowed probeForReadMask (a / pageSize)))
    (pointer size : Nat) :
    probeForRead c pointer size =
      virtualAccessCheckNoException memory pointer size probeForReadMask := by
  rcases Nat.eq_zero_or_pos size with rfl | hsize
  · rfl
  · rw [Bool.eq_iff_iff, virtualAccessCheckNoException_iff memory _ hsize, probeForRead,
      hreadable]
    simp [Nat.ne_of_gt hsize]

/-- A kernel that looks the page up in the map. -/
def lookUp (map : MemoryMap) (pBuffer : Nat) : NtStatus × Nat :=
  match map.regions.find? fun r => decide (r.Holds (pBuffer / pageSize)) with
  | none => (statusInvalidParameter, 0)
  | some r => (statusSuccess, r.protect)

/-- The regions are apart, so the one that is found is the only one. -/
theorem lookUp_of_holds {pBuffer : Nat} {r : Region} (hr : r ∈ map.regions)
    (hholds : r.Holds (pBuffer / pageSize)) : lookUp map pBuffer = (statusSuccess, r.protect) := by
  obtain ⟨regions, hapart⟩ := map
  unfold lookUp
  induction regions with
  | nil => cases hr
  | cons first regions ih =>
    obtain ⟨hfirst, hrest⟩ := List.pairwise_cons.mp hapart
    rcases List.mem_cons.mp hr with rfl | hmem
    · simp [hholds]
    · have hother : ¬ first.Holds (pBuffer / pageSize) := by
        have hdisjoint := hfirst r hmem
        unfold Apart at hdisjoint
        unfold Region.Holds at hholds ⊢
        omega
      have hrecursive := ih hrest hmem
      simpa [List.find?_cons, hother] using hrecursive

def lookUpMemory (map : MemoryMap) : VirtualMemory map where
  ntQueryVirtualMemory := lookUp map
  describes := by
    intro pBuffer r hr hholds
    rw [lookUp_of_holds hr hholds]
    exact ⟨rfl, rfl⟩
  refuses := by
    intro pBuffer hunheld
    have hnone : (map.regions.find? fun r => decide (r.Holds (pBuffer / pageSize))) = none := by
      rw [List.find?_eq_none]
      intro r hr
      simpa using hunheld r hr
    unfold lookUp
    rw [hnone]
    rfl

/-- A page of a heap with a guard behind it. -/
def heapAndGuard : MemoryMap where
  regions := [⟨16, 1, pageReadwrite⟩, ⟨17, 1, pageNoaccess⟩]
  apart := by decide

/-- A range that ends in the page. -/
theorem virtualAccessCheckNoException_covers_iff_onePage :
    (virtualAccessCheckNoException (lookUpMemory heapAndGuard) 0x10800 0x800 probeForReadMask =
        true →
      ∀ page, Intersects 0x10800 0x800 page → heapAndGuard.Allowed probeForReadMask page) ↔
      AllowedBehind heapAndGuard 0x10800 0x800 probeForReadMask :=
  virtualAccessCheckNoException_covers_iff (lookUpMemory heapAndGuard) 0x10800 0x800
    probeForReadMask (by decide)

/-- A range that goes on into the guard passes the check. -/
theorem virtualAccessCheckNoException_misses_region :
    virtualAccessCheckNoException (lookUpMemory heapAndGuard) 0x10800 0x1000 probeForReadMask =
        true ∧
      Intersects 0x10800 0x1000 17 ∧ ¬ heapAndGuard.Allowed probeForReadMask 17 := by
  refine ⟨by decide, ⟨by decide, by decide⟩, by decide⟩

end WinPolyfillLoader.Utils
