import Mathlib.Tactic.Ring
import WinPolyfillLoader.Status

/-!
The two ways the loader asks which Windows it runs on: the packed
`WindowsVersion` word of `win-polyfill-version.h`, and the comparison with the
recorded `NtVersions` of `Utils.cpp`.
-/

namespace WinPolyfillLoader

def makeSystemVersionCompact (major minor : Dword) (buildNumber csdVersion : BitVec 16) : Dword :=
  ((major <<< 24) ||| (minor <<< 16) ||| buildNumber.zeroExtend 32) +
    (csdVersion >>> 8).zeroExtend 32

def systemNt50Rtm : Dword := makeSystemVersionCompact 5 0 2195 0x0000
def systemNt60Rtm : Dword := makeSystemVersionCompact 6 0 6000 0x0000
def systemNt61Rtm : Dword := makeSystemVersionCompact 6 1 7600 0x0000
def systemNt62Rtm : Dword := makeSystemVersionCompact 6 2 9200 0x0000
def systemNt63Rtm : Dword := makeSystemVersionCompact 6 3 9600 0x0000
def systemWin10Rtm : Dword := makeSystemVersionCompact 10 0 0 0x0000
def systemWin11_21H2 : Dword := makeSystemVersionCompact 10 0 22000 0x0000

structure NtVersions where
  majorVersion : Dword
  minorVersion : Dword
  buildNumber : Dword
deriving DecidableEq, Repr

def rtlIsWindowsVersionOrGreater (nt : NtVersions)
    (majorVersion minorVersion buildNumber : Dword) : Bool :=
  if nt.majorVersion = majorVersion then
    if nt.minorVersion = minorVersion then decide (buildNumber ≤ nt.buildNumber)
    else decide (minorVersion < nt.minorVersion)
  else decide (majorVersion < nt.majorVersion)

/-- The local `IsWin8OrGreater` of the version-dependent functions. -/
def isWin8OrGreater (nt : NtVersions) : Bool := rtlIsWindowsVersionOrGreater nt 6 2 0

/-- The version fields of the process environment block. -/
structure Peb where
  osMajorVersion : Dword
  osMinorVersion : Dword
  osBuildNumber : BitVec 16
  osCSDVersion : BitVec 16
deriving DecidableEq, Repr

/-- The service pack is shifted here and once more in the packing. -/
def getSystemVersionCompact (peb : Peb) : Dword :=
  makeSystemVersionCompact peb.osMajorVersion peb.osMinorVersion peb.osBuildNumber
    (peb.osCSDVersion >>> 8)

/-- The recorded version of the running system. -/
def ntVersionsOf (peb : Peb) : NtVersions where
  majorVersion := peb.osMajorVersion
  minorVersion := peb.osMinorVersion
  buildNumber := peb.osBuildNumber.zeroExtend 32

theorem servicePack_shifted_twice (csdVersion : BitVec 16) : csdVersion >>> 8 >>> 8 = 0 := by
  apply BitVec.eq_of_toNat_eq
  have hlt := csdVersion.isLt
  simp only [BitVec.toNat_ushiftRight, Nat.shiftRight_eq_div_pow]
  change csdVersion.toNat / 2 ^ 8 / 2 ^ 8 = 0
  omega

theorem getSystemVersionCompact_eq (peb : Peb) :
    getSystemVersionCompact peb =
      makeSystemVersionCompact peb.osMajorVersion peb.osMinorVersion peb.osBuildNumber 0 := by
  unfold getSystemVersionCompact makeSystemVersionCompact
  rw [servicePack_shifted_twice]
  rfl

/-- Without a service pack the packed word has the build, the minor and the
major version as digits, and nothing carries. -/
theorem makeSystemVersionCompact_toNat {major minor : Dword} (buildNumber : BitVec 16)
    (hmajor : major ≤ 255) (hminor : minor ≤ 255) :
    (makeSystemVersionCompact major minor buildNumber 0).toNat =
      major.toNat * 2 ^ 24 + minor.toNat * 2 ^ 16 + buildNumber.toNat := by
  have hmajor : major.toNat ≤ 255 := hmajor
  have hminor : minor.toNat ≤ 255 := hminor
  have hbuild := buildNumber.isLt
  have hhigh : (major <<< 24).toNat = 2 ^ 24 * major.toNat := by
    rw [BitVec.toNat_shiftLeft, Nat.shiftLeft_eq]
    omega
  have hmiddle : (minor <<< 16).toNat = 2 ^ 16 * minor.toNat := by
    rw [BitVec.toNat_shiftLeft, Nat.shiftLeft_eq]
    omega
  have hlow : (buildNumber.zeroExtend 32).toNat = buildNumber.toNat := by
    rw [BitVec.toNat_setWidth]
    omega
  have hpack : 2 ^ 24 * major.toNat ||| 2 ^ 16 * minor.toNat ||| buildNumber.toNat =
      2 ^ 24 * major.toNat + 2 ^ 16 * minor.toNat + buildNumber.toNat := by
    have hsplit : 2 ^ 24 * major.toNat + 2 ^ 16 * minor.toNat =
        2 ^ 16 * (2 ^ 8 * major.toNat + minor.toNat) := by omega
    rw [← Nat.two_pow_add_eq_or_of_lt (by omega : 2 ^ 16 * minor.toNat < 2 ^ 24), hsplit,
      ← Nat.two_pow_add_eq_or_of_lt hbuild]
  have hpacked : ((major <<< 24) ||| (minor <<< 16) ||| buildNumber.zeroExtend 32).toNat =
      2 ^ 24 * major.toNat + 2 ^ 16 * minor.toNat + buildNumber.toNat := by
    rw [BitVec.toNat_or, BitVec.toNat_or, hhigh, hmiddle, hlow, hpack]
  have hnone : (((0 : BitVec 16) >>> 8).zeroExtend 32).toNat = 0 := rfl
  rw [makeSystemVersionCompact, BitVec.toNat_add, hpacked, hnone]
  omega

/-- `RtlIsWindowsVersionOrGreater` compares the versions field by field. -/
theorem rtlIsWindowsVersionOrGreater_iff (nt : NtVersions) (major minor build : Dword) :
    rtlIsWindowsVersionOrGreater nt major minor build = true ↔
      major.toNat < nt.majorVersion.toNat ∨
        major.toNat = nt.majorVersion.toNat ∧ (minor.toNat < nt.minorVersion.toNat ∨
          minor.toNat = nt.minorVersion.toNat ∧ build.toNat ≤ nt.buildNumber.toNat) := by
  unfold rtlIsWindowsVersionOrGreater
  split
  · rename_i hmajor
    split
    · rename_i hminor
      rw [decide_eq_true_iff, BitVec.le_def, hmajor, hminor]
      omega
    · rename_i hminor
      have hne : nt.minorVersion.toNat ≠ minor.toNat := fun h => hminor (BitVec.eq_of_toNat_eq h)
      rw [decide_eq_true_iff, BitVec.lt_def, hmajor]
      omega
  · rename_i hmajor
    have hne : nt.majorVersion.toNat ≠ major.toNat := fun h => hmajor (BitVec.eq_of_toNat_eq h)
    rw [decide_eq_true_iff, BitVec.lt_def]
    omega

/-- The packed words compare like the versions they pack, whatever the service
pack of the running system. -/
theorem getSystemVersionCompact_ge_iff (peb : Peb) (major minor : Dword)
    (buildNumber : BitVec 16) (hosMajor : peb.osMajorVersion ≤ 255)
    (hosMinor : peb.osMinorVersion ≤ 255) (hmajor : major ≤ 255) (hminor : minor ≤ 255) :
    getSystemVersionCompact peb ≥ makeSystemVersionCompact major minor buildNumber 0 ↔
      rtlIsWindowsVersionOrGreater (ntVersionsOf peb) major minor
        (buildNumber.zeroExtend 32) = true := by
  have hbuild := buildNumber.isLt
  have hosBuild := peb.osBuildNumber.isLt
  have hosMinorNat : peb.osMinorVersion.toNat ≤ 255 := hosMinor
  have hminorNat : minor.toNat ≤ 255 := hminor
  have hlow : (buildNumber.zeroExtend 32).toNat = buildNumber.toNat := by
    rw [BitVec.toNat_setWidth]
    omega
  have hosLow : (peb.osBuildNumber.zeroExtend 32).toNat = peb.osBuildNumber.toNat := by
    rw [BitVec.toNat_setWidth]
    omega
  rw [rtlIsWindowsVersionOrGreater_iff, getSystemVersionCompact_eq, ge_iff_le, BitVec.le_def,
    makeSystemVersionCompact_toNat buildNumber hmajor hminor,
    makeSystemVersionCompact_toNat peb.osBuildNumber hosMajor hosMinor]
  simp only [ntVersionsOf, hlow, hosLow]
  omega

/-- Windows 7 with its service pack is not Windows 8. -/
theorem getSystemVersionCompact_ge_iff_win7 :
    getSystemVersionCompact ⟨6, 1, 7601, 0x0100⟩ ≥ makeSystemVersionCompact 6 2 9200 0 ↔
      rtlIsWindowsVersionOrGreater (ntVersionsOf ⟨6, 1, 7601, 0x0100⟩) 6 2
        ((9200 : BitVec 16).zeroExtend 32) = true :=
  getSystemVersionCompact_ge_iff ⟨6, 1, 7601, 0x0100⟩ 6 2 9200 (by decide) (by decide)
    (by decide) (by decide)

/-- The constant `SYSTEM_..._SPn` for the fields of a version record. -/
def Peb.systemVersion (peb : Peb) : Dword :=
  makeSystemVersionCompact peb.osMajorVersion peb.osMinorVersion peb.osBuildNumber peb.osCSDVersion

/-- `OSCSDVersion >> 8`. -/
def Peb.servicePack (peb : Peb) : Nat := (peb.osCSDVersion >>> 8).toNat

/-- The records differ in the service pack at most. -/
def SameBuild (first second : Peb) : Prop :=
  first.osMajorVersion = second.osMajorVersion ∧ first.osMinorVersion = second.osMinorVersion ∧
    first.osBuildNumber = second.osBuildNumber

instance (first second : Peb) : Decidable (SameBuild first second) :=
  inferInstanceAs (Decidable (_ ∧ _ ∧ _))

/-- The lexicographic order of the releases with their service packs. -/
def EarlierRelease (first second : Peb) : Prop :=
  first.osMajorVersion < second.osMajorVersion ∨
    first.osMajorVersion = second.osMajorVersion ∧ (first.osMinorVersion < second.osMinorVersion ∨
      first.osMinorVersion = second.osMinorVersion ∧ (first.osBuildNumber < second.osBuildNumber ∨
        first.osBuildNumber = second.osBuildNumber ∧ first.servicePack < second.servicePack))

instance (first second : Peb) : Decidable (EarlierRelease first second) :=
  inferInstanceAs (Decidable (_ ∨ _))

theorem earlierRelease_iff {first second : Peb} :
    EarlierRelease first second ↔
      first.osMajorVersion.toNat < second.osMajorVersion.toNat ∨
        first.osMajorVersion.toNat = second.osMajorVersion.toNat ∧
          (first.osMinorVersion.toNat < second.osMinorVersion.toNat ∨
            first.osMinorVersion.toNat = second.osMinorVersion.toNat ∧
              (first.osBuildNumber.toNat < second.osBuildNumber.toNat ∨
                first.osBuildNumber.toNat = second.osBuildNumber.toNat ∧
                  first.servicePack < second.servicePack)) := by
  simp only [EarlierRelease, BitVec.lt_def, BitVec.toNat_inj]

theorem sameBuild_iff {first second : Peb} :
    SameBuild first second ↔
      first.osMajorVersion.toNat = second.osMajorVersion.toNat ∧
        first.osMinorVersion.toNat = second.osMinorVersion.toNat ∧
          first.osBuildNumber.toNat = second.osBuildNumber.toNat := by
  simp only [SameBuild, BitVec.toNat_inj]

theorem systemVersion_eq (peb : Peb) :
    peb.systemVersion = getSystemVersionCompact peb + BitVec.ofNat 32 peb.servicePack := by
  have hnone : getSystemVersionCompact peb =
      (peb.osMajorVersion <<< 24) ||| (peb.osMinorVersion <<< 16) |||
        peb.osBuildNumber.zeroExtend 32 := by
    rw [getSystemVersionCompact_eq, makeSystemVersionCompact]
    exact BitVec.add_zero _
  rw [hnone, Peb.systemVersion, makeSystemVersionCompact, Peb.servicePack, BitVec.ofNat_toNat]

theorem servicePack_lt (peb : Peb) : peb.servicePack < 2 ^ 32 := by
  have hlt := (peb.osCSDVersion >>> 8).isLt
  rw [Peb.servicePack]
  omega

/-- A system compares equal to the constant of its release exactly if it has no
service pack. -/
theorem getSystemVersionCompact_eq_systemVersion_iff (peb : Peb) :
    getSystemVersionCompact peb = peb.systemVersion ↔ peb.servicePack = 0 := by
  have hlt := servicePack_lt peb
  rw [systemVersion_eq]
  constructor
  · intro heq
    have hzero : BitVec.ofNat 32 peb.servicePack = 0 := by
      have hself : getSystemVersionCompact peb + 0 = getSystemVersionCompact peb :=
        BitVec.add_zero _
      exact BitVec.add_right_inj _ |>.mp (heq.symm.trans hself.symm)
    have hnat := congrArg BitVec.toNat hzero
    rw [BitVec.toNat_ofNat, Nat.mod_eq_of_lt hlt] at hnat
    exact hnat
  · intro hzero
    rw [hzero]
    exact (BitVec.add_zero _).symm

/-- The packed words keep the order of two releases, and equal the constants of the
file, except for the service packs, of which they keep nothing. -/
theorem getSystemVersionCompact_order_iff (first second : Peb)
    (hfirstMajor : first.osMajorVersion ≤ 255) (hfirstMinor : first.osMinorVersion ≤ 255)
    (hsecondMajor : second.osMajorVersion ≤ 255) (hsecondMinor : second.osMinorVersion ≤ 255) :
    ((EarlierRelease first second →
        getSystemVersionCompact first < getSystemVersionCompact second) ↔
      ¬ (SameBuild first second ∧ first.servicePack < second.servicePack)) ∧
    (getSystemVersionCompact first = first.systemVersion ↔ first.servicePack = 0) := by
  refine ⟨?_, getSystemVersionCompact_eq_systemVersion_iff first⟩
  have hfirstBuild := first.osBuildNumber.isLt
  have hsecondBuild := second.osBuildNumber.isLt
  have hfirstMinorNat : first.osMinorVersion.toNat ≤ 255 := hfirstMinor
  have hsecondMinorNat : second.osMinorVersion.toNat ≤ 255 := hsecondMinor
  rw [earlierRelease_iff, sameBuild_iff, getSystemVersionCompact_eq, getSystemVersionCompact_eq,
    BitVec.lt_def, makeSystemVersionCompact_toNat first.osBuildNumber hfirstMajor hfirstMinor,
    makeSystemVersionCompact_toNat second.osBuildNumber hsecondMajor hsecondMinor]
  omega

/-- Windows XP with its second and with its third service pack. -/
theorem getSystemVersionCompact_order_iff_xp :
    let sp2 : Peb := ⟨5, 1, 2600, 0x0200⟩
    let sp3 : Peb := ⟨5, 1, 2600, 0x0300⟩
    ((EarlierRelease sp2 sp3 → getSystemVersionCompact sp2 < getSystemVersionCompact sp3) ↔
      ¬ (SameBuild sp2 sp3 ∧ sp2.servicePack < sp3.servicePack)) ∧
    (getSystemVersionCompact sp2 = sp2.systemVersion ↔ sp2.servicePack = 0) := by
  intro sp2 sp3
  exact getSystemVersionCompact_order_iff sp2 sp3 (by decide) (by decide) (by decide) (by decide)

/-- The two are packed alike, and neither is its constant. -/
theorem getSystemVersionCompact_drops_servicePack :
    let sp2 : Peb := ⟨5, 1, 2600, 0x0200⟩
    let sp3 : Peb := ⟨5, 1, 2600, 0x0300⟩
    EarlierRelease sp2 sp3 ∧ ¬ getSystemVersionCompact sp2 < getSystemVersionCompact sp3 ∧
      getSystemVersionCompact sp3 ≠ makeSystemVersionCompact 5 1 2600 0x0300 := by
  decide

end WinPolyfillLoader
