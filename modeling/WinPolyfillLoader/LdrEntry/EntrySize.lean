import WinPolyfillLoader.LdrEntry.EntryStores
import WinPolyfillLoader.LdrEntry.MapDllMemory

/-!
The size that LDR entries are allocated with. `InitializeWindowsVersion` keeps the size
that it finds in the shared data; nothing puts it into the variable of `LdrEntry.cpp`.
-/

namespace WinPolyfillLoader.LdrEntry

open ByteMemory MemoryModule Loader StructLayout

/-- The static variables of `LdrEntry.cpp`. -/
structure LdrEntryStatics where
  windowsVersion : Dword
  ldrDataTableEntrySize : Word
deriving DecidableEq, Repr

/-- The statics, and the data of the library. -/
structure Versions where
  statics : LdrEntryStatics
  data : MmpGlobalData

def Versions.initial : Versions := ⟨⟨0, 0⟩, .zero⟩

inductive VersionCall where
  | ldrEntryLibInit
  | initializeWindowsVersion
deriving DecidableEq, Repr

def Versions.call (platform : Platform) (peb : Peb) (versions : Versions) : VersionCall → Versions
  | .ldrEntryLibInit =>
    { versions with
      statics := { versions.statics with windowsVersion := getSystemVersionCompact peb } }
  | .initializeWindowsVersion =>
    { versions with data := storeWindowsVersion platform versions.data }

def Versions.run (platform : Platform) (peb : Peb) (calls : List VersionCall) : Versions :=
  calls.foldl (Versions.call platform peb) .initial

section Versions

variable (platform : Platform) (peb : Peb)

theorem Versions.call_size (versions : Versions) (c : VersionCall) :
    (versions.call platform peb c).statics.ldrDataTableEntrySize =
      versions.statics.ldrDataTableEntrySize := by
  cases c with
  | ldrEntryLibInit => rfl
  | initializeWindowsVersion => rfl

theorem Versions.foldl_size (versions : Versions) (calls : List VersionCall) :
    (calls.foldl (Versions.call platform peb) versions).statics.ldrDataTableEntrySize =
      versions.statics.ldrDataTableEntrySize := by
  induction calls generalizing versions with
  | nil => rfl
  | cons c calls ih =>
    rw [List.foldl_cons, ih]
    exact Versions.call_size platform peb versions c

theorem Versions.run_size (calls : List VersionCall) :
    (Versions.run platform peb calls).statics.ldrDataTableEntrySize = 0 :=
  Versions.foldl_size platform peb .initial calls

theorem Versions.foldl_version {versions : Versions} {calls : List VersionCall}
    (h : versions.statics.windowsVersion = getSystemVersionCompact peb ∨
      .ldrEntryLibInit ∈ calls) :
    (calls.foldl (Versions.call platform peb) versions).statics.windowsVersion =
      getSystemVersionCompact peb := by
  induction calls generalizing versions with
  | nil => exact h.resolve_right List.not_mem_nil
  | cons c calls ih =>
    rw [List.foldl_cons]
    apply ih
    cases c with
    | ldrEntryLibInit => exact Or.inl rfl
    | initializeWindowsVersion =>
      rcases h with h | h
      · exact Or.inl h
      · exact Or.inr (by simpa using h)

theorem Versions.run_version {calls : List VersionCall} (h : .ldrEntryLibInit ∈ calls) :
    (Versions.run platform peb calls).statics.windowsVersion = getSystemVersionCompact peb :=
  Versions.foldl_version platform peb (Or.inr h)

end Versions

theorem not_le_of_not_le {a b n : Dword} (hab : a ≤ b) (h : ¬a ≤ n) : ¬b ≤ n :=
  fun hle => h (BitVec.le_trans hab hle)

theorem knownEntryType_versions {nt : NtVersions} {type : EntryType}
    (h : knownEntryType (windowsVersionOf nt) = some type) :
    (nt.majorVersion = 5 ∧ (nt.minorVersion = 1 ∨ nt.minorVersion = 2) ∧ type = .xp) ∨
    (nt.majorVersion = 6 ∧ nt.minorVersion = 0 ∧ type = .vista) ∨
    (nt.majorVersion = 6 ∧ nt.minorVersion = 1 ∧ type = .win7) ∨
    (nt.majorVersion = 6 ∧ nt.minorVersion = 2 ∧ type = .win8) ∨
    (nt.majorVersion = 6 ∧ nt.minorVersion = 3 ∧ type = .winBlue) ∨
    (nt.majorVersion = 10 ∧ nt.minorVersion = 0 ∧ ¬22000 ≤ nt.buildNumber ∧
      (type = .win10 ∨ type = .win10_1 ∨ type = .win10_2)) ∨
    (nt.majorVersion = 10 ∧ nt.minorVersion = 0 ∧ type = .win11) := by
  unfold windowsVersionOf at h
  split at h
  · rename_i hmajor
    split at h
    · rename_i hminor
      exact Or.inl ⟨hmajor, hminor.imp And.left And.left, (Option.some.inj h).symm⟩
    · cases h
  · refine Or.inr ?_
    split at h
    · rename_i hmajor
      split at h
      · rename_i hminor
        split at h
        · exact Or.inl ⟨hmajor, hminor, (Option.some.inj h).symm⟩
        · cases h
      · refine Or.inr ?_
        split at h
        · rename_i hminor
          split at h
          · exact Or.inl ⟨hmajor, hminor, (Option.some.inj h).symm⟩
          · cases h
        · refine Or.inr ?_
          split at h
          · rename_i hminor
            split at h
            · exact Or.inl ⟨hmajor, hminor, (Option.some.inj h).symm⟩
            · cases h
          · refine Or.inr (Or.inl ?_)
            split at h
            · rename_i hminor
              split at h
              · exact ⟨hmajor, hminor, (Option.some.inj h).symm⟩
              · cases h
            · cases h
    · refine Or.inr (Or.inr (Or.inr (Or.inr ?_)))
      split at h
      · rename_i hmajor
        split at h
        · cases h
        · rename_i hminor
          have hminor := Decidable.not_not.mp hminor
          split at h
          · split at h
            · split at h
              · split at h
                · exact Or.inr ⟨hmajor, hminor, (Option.some.inj h).symm⟩
                · rename_i hbuild
                  exact Or.inl ⟨hmajor, hminor, hbuild,
                    Or.inr (Or.inr (Option.some.inj h).symm)⟩
              · rename_i hbuild
                exact Or.inl ⟨hmajor, hminor, not_le_of_not_le (by decide) hbuild,
                  Or.inr (Or.inl (Option.some.inj h).symm)⟩
            · rename_i hbuild
              exact Or.inl ⟨hmajor, hminor, not_le_of_not_le (by decide) hbuild,
                Or.inl (Option.some.inj h).symm⟩
          · cases h
      · cases h

theorem getSystemVersionCompact_toNat_of_known {peb : Peb} {type : EntryType}
    (h : knownEntryType (windowsVersionOf (ntVersionsOf peb)) = some type) :
    (getSystemVersionCompact peb).toNat = peb.osMajorVersion.toNat * 2 ^ 24 +
      peb.osMinorVersion.toNat * 2 ^ 16 + peb.osBuildNumber.toNat := by
  have hbounds : peb.osMajorVersion ≤ 255 ∧ peb.osMinorVersion ≤ 255 := by
    rcases knownEntryType_versions h with ⟨hmajor, hminor | hminor, _⟩ | ⟨hmajor, hminor, _⟩ |
      ⟨hmajor, hminor, _⟩ | ⟨hmajor, hminor, _⟩ | ⟨hmajor, hminor, _⟩ | ⟨hmajor, hminor, _⟩ |
      ⟨hmajor, hminor, _⟩ <;>
    exact ⟨le_of_eq_of_le hmajor (by decide), le_of_eq_of_le hminor (by decide)⟩
  rw [getSystemVersionCompact_eq, makeSystemVersionCompact_toNat _ hbounds.1 hbounds.2]

/-- What the gates say about the layout of the system. -/
structure LayoutGates (host : Host) (windowsVersion : Dword) (type : EntryType) : Prop where
  common : systemNt50Rtm < windowsVersion
  win8 : systemNt62Rtm ≤ windowsVersion → EntryType.win8.size host ≤ type.size host
  win10 : systemWin10Rtm ≤ windowsVersion → EntryType.win10.size host ≤ type.size host
  win11 : systemWin11_21H2 ≤ windowsVersion → EntryType.win11.size host ≤ type.size host

theorem LayoutGates.of_lt_win8 {host : Host} {windowsVersion : Dword} {type : EntryType}
    (hcommon : systemNt50Rtm.toNat < windowsVersion.toNat)
    (hwin8 : windowsVersion.toNat < systemNt62Rtm.toNat) :
    LayoutGates host windowsVersion type where
  common := BitVec.lt_def.mpr hcommon
  win8 h := absurd (BitVec.le_def.mp h) (Nat.not_le.mpr hwin8)
  win10 h := absurd (BitVec.le_def.mp h) (Nat.not_le.mpr (Nat.lt_trans hwin8 (by decide)))
  win11 h := absurd (BitVec.le_def.mp h) (Nat.not_le.mpr (Nat.lt_trans hwin8 (by decide)))

theorem LayoutGates.of_win8 {host : Host} {windowsVersion : Dword} {type : EntryType}
    (hcommon : systemNt50Rtm.toNat < windowsVersion.toNat)
    (hsize : EntryType.win8.size host ≤ type.size host)
    (hwin10 : windowsVersion.toNat < systemWin10Rtm.toNat ∨
      EntryType.win10.size host ≤ type.size host)
    (hwin11 : windowsVersion.toNat < systemWin11_21H2.toNat ∨
      EntryType.win11.size host ≤ type.size host) :
    LayoutGates host windowsVersion type where
  common := BitVec.lt_def.mpr hcommon
  win8 _ := hsize
  win10 h := hwin10.resolve_left (Nat.not_lt.mpr (BitVec.le_def.mp h))
  win11 h := hwin11.resolve_left (Nat.not_lt.mpr (BitVec.le_def.mp h))

theorem layoutGates_of_known (host : Host) {peb : Peb} {type : EntryType}
    (h : knownEntryType (windowsVersionOf (ntVersionsOf peb)) = some type) :
    LayoutGates host (getSystemVersionCompact peb) type := by
  have hversion := getSystemVersionCompact_toNat_of_known h
  have hbuild := peb.osBuildNumber.isLt
  have h50 : systemNt50Rtm.toNat = 83888275 := by decide
  have h62 : systemNt62Rtm.toNat = 100803568 := by decide
  have h10 : systemWin10Rtm.toNat = 167772160 := by decide
  have h11 : systemWin11_21H2.toNat = 167794160 := by decide
  rcases knownEntryType_versions h with ⟨hmajor, hminor, rfl⟩ | ⟨hmajor, hminor, rfl⟩ |
    ⟨hmajor, hminor, rfl⟩ | ⟨hmajor, hminor, rfl⟩ | ⟨hmajor, hminor, rfl⟩ |
    ⟨hmajor, hminor, hbefore, htype⟩ | ⟨hmajor, hminor, rfl⟩
  · have hmajor : peb.osMajorVersion.toNat = 5 := congrArg BitVec.toNat hmajor
    have hminor : peb.osMinorVersion.toNat = 1 ∨ peb.osMinorVersion.toNat = 2 :=
      hminor.imp (congrArg BitVec.toNat) (congrArg BitVec.toNat)
    exact .of_lt_win8 (by omega) (by omega)
  · have hmajor : peb.osMajorVersion.toNat = 6 := congrArg BitVec.toNat hmajor
    have hminor : peb.osMinorVersion.toNat = 0 := congrArg BitVec.toNat hminor
    exact .of_lt_win8 (by omega) (by omega)
  · have hmajor : peb.osMajorVersion.toNat = 6 := congrArg BitVec.toNat hmajor
    have hminor : peb.osMinorVersion.toNat = 1 := congrArg BitVec.toNat hminor
    exact .of_lt_win8 (by omega) (by omega)
  · have hmajor : peb.osMajorVersion.toNat = 6 := congrArg BitVec.toNat hmajor
    have hminor : peb.osMinorVersion.toNat = 2 := congrArg BitVec.toNat hminor
    exact .of_win8 (by omega) (Nat.le_refl _) (Or.inl (by omega)) (Or.inl (by omega))
  · have hmajor : peb.osMajorVersion.toNat = 6 := congrArg BitVec.toNat hmajor
    have hminor : peb.osMinorVersion.toNat = 3 := congrArg BitVec.toNat hminor
    exact .of_win8 (by omega) (by cases host <;> decide) (Or.inl (by omega)) (Or.inl (by omega))
  · have hmajor : peb.osMajorVersion.toNat = 10 := congrArg BitVec.toNat hmajor
    have hminor : peb.osMinorVersion.toNat = 0 := congrArg BitVec.toNat hminor
    have hbefore : peb.osBuildNumber.toNat < 22000 := by
      have hlow : (peb.osBuildNumber.zeroExtend 32).toNat = peb.osBuildNumber.toNat := by
        rw [BitVec.toNat_setWidth]
        omega
      have hlt := Nat.not_le.mp fun hle => hbefore (BitVec.le_def.mpr hle)
      rw [← hlow]
      exact hlt
    rcases htype with rfl | rfl | rfl <;>
    exact .of_win8 (by omega) (by cases host <;> decide) (Or.inr (by cases host <;> decide))
      (Or.inl (by omega))
  · have hmajor : peb.osMajorVersion.toNat = 10 := congrArg BitVec.toNat hmajor
    have hminor : peb.osMinorVersion.toNat = 0 := congrArg BitVec.toNat hminor
    exact .of_win8 (by omega) (by cases host <;> decide) (Or.inr (by cases host <;> decide))
      (Or.inr (Nat.le_refl _))

namespace InitializeCall

variable {call : InitializeCall} {headers : ImageNtHeaders}

theorem forall_mem_append {ws vs : List Write} {size : Nat} (hws : ∀ w ∈ ws, w.stop ≤ size)
    (hvs : ∀ w ∈ vs, w.stop ≤ size) : ∀ w ∈ ws ++ vs, w.stop ≤ size :=
  List.forall_mem_append.mpr ⟨hws, hvs⟩

theorem forall_mem_nil {size : Nat} : ∀ w ∈ ([] : List Write), w.stop ≤ size :=
  fun _ hw => nomatch hw

theorem earlyStores_inside {type : EntryType}
    (hgates : LayoutGates call.host call.globals.windowsVersion type) :
    ∀ w ∈ call.earlyStores headers, w.stop ≤ type.size call.host := by
  have hstore : ∀ (gate : EntryType) (name : MemberName) (value : Nat),
      gate.size call.host ≤ type.size call.host →
      ∀ w ∈ [gate.store call.host name value], w.stop ≤ type.size call.host := by
    intro gate name value hsize
    have hranges : WritesTo (gate.ranges call.host [name]) [gate.store call.host name value] :=
      EntryType.writesTo_store value List.mem_cons_self
    exact hranges.stop_le (EntryType.ranges_stop_le hsize)
  unfold earlyStores
  apply forall_mem_append
  · split
    · next h => exact hstore _ _ _ (hgates.win11 h)
    · exact forall_mem_nil
  · split
    · next h => exact hstore _ _ _ (hgates.win10 h)
    · exact forall_mem_nil

theorem win7Stores_inside :
    ∀ w ∈ call.win7Stores headers, w.stop ≤ call.globals.ldrDataTableEntrySize := by
  by_cases h : systemNt61Rtm < call.globals.windowsVersion ∧
      call.globals.ldrDataTableEntrySize = EntryType.win7.size call.host
  · exact win7Stores_ranges.stop_le (EntryType.ranges_stop_le (Nat.le_of_eq h.2.symm))
  · rw [win7Stores, if_neg h]
    exact forall_mem_nil

theorem vistaStores_inside :
    ∀ w ∈ call.vistaStores, w.stop ≤ call.globals.ldrDataTableEntrySize := by
  by_cases h : systemNt60Rtm < call.globals.windowsVersion ∧ call.hasForwarderLinks
  · have hsize : EntryType.vista.size call.host ≤ call.globals.ldrDataTableEntrySize := by
      rcases h.2 with hvista | hwin7
      · exact Nat.le_of_eq hvista.symm
      · rw [hwin7]
        cases call.host <;> decide
    exact vistaStores_ranges.stop_le (EntryType.ranges_stop_le hsize)
  · rw [vistaStores, if_neg h]
    exact forall_mem_nil

/-- With the size of the system's own layout every store would end inside. -/
theorem storesInside_of_layout {type : EntryType}
    (hgates : LayoutGates call.host call.globals.windowsVersion type)
    (hsize : call.globals.ldrDataTableEntrySize = type.size call.host) : call.StoresInside := by
  have hcommon : EntryType.common.size call.host ≤ type.size call.host := by
    cases type <;> cases call.host <;> decide
  unfold StoresInside stores
  cases call.headers with
  | none => exact forall_mem_nil
  | some headers =>
    have hlate : ∀ w ∈ call.lateStores headers,
        w.stop ≤ call.globals.ldrDataTableEntrySize := by
      apply forall_mem_append (forall_mem_append win7Stores_inside vistaStores_inside)
      split
      · exact commonStores_ranges.stop_le (EntryType.ranges_stop_le (hsize ▸ hcommon))
      · exact forall_mem_nil
    apply forall_mem_append (hsize ▸ earlyStores_inside hgates)
    split
    · next hwin8 =>
      have hwin8 : EntryType.win8.size call.host ≤ call.globals.ldrDataTableEntrySize :=
        le_of_le_of_eq (hgates.win8 hwin8) hsize.symm
      apply forall_mem_append (win8Stores_ranges.stop_le (EntryType.ranges_stop_le hwin8))
      dsimp only
      split
      · apply forall_mem_append (linkStores_ranges.stop_le (EntryType.ranges_stop_le hwin8))
        split
        · exact forall_mem_nil
        · refine forall_mem_append ?_ hlate
          exact (nodeStores_ranges _).stop_le (EntryType.ranges_stop_le hwin8)
      · exact forall_mem_nil
    · exact hlate

theorem exists_store (hheaders : call.headers = some headers)
    (hcommon : systemNt50Rtm < call.globals.windowsVersion) : ∃ s ∈ call.stores, 0 < s.stop := by
  have hloadTime : ∀ value, 0 < (EntryType.win8.store call.host .loadTime value).stop := by
    intro value
    cases call.host <;> exact Nat.zero_lt_succ _
  have hdllBase : ∀ value, 0 < (EntryType.common.store call.host .dllBase value).stop := by
    intro value
    cases call.host <;> exact Nat.zero_lt_succ _
  unfold stores
  rw [hheaders]
  dsimp only
  split
  · exact ⟨_, List.mem_append_right _ (List.mem_append_left _ List.mem_cons_self),
      hloadTime call.globals.systemTime⟩
  · refine ⟨_, List.mem_append_right _ (List.mem_append_right _ ?_), hdllBase call.baseAddress⟩
    rw [if_pos hcommon]
    exact List.mem_append_left _ (List.mem_append_left _ List.mem_cons_self)

end InitializeCall

/-- A call in the process whose functions have recorded the versions. -/
structure InitializeCall.RunsIn (call : InitializeCall) (versions : Versions) : Prop where
  windowsVersion : call.globals.windowsVersion = versions.statics.windowsVersion
  ldrDataTableEntrySize :
    call.globals.ldrDataTableEntrySize = versions.statics.ldrDataTableEntrySize.toNat

/-- A block that `RtlAllocateDataTableEntry` returns is for an image with headers. -/
theorem headers_of_allocated {headers : Option ImageNtHeaders} {before after : LdrState}
    {ldrEntry : Nat} (hblock : rtlAllocateDataTableEntry headers before = (ldrEntry, after))
    (hentry : ldrEntry ≠ 0) : ∃ h, headers = some h := by
  cases headers with
  | none => exact absurd (congrArg Prod.fst hblock).symm hentry
  | some h => exact ⟨h, rfl⟩

/-- On every system with a known layout the initialisation of an allocated entry stores
outside the block. -/
theorem rtlInitializeLdrDataTableEntry_outside (platform : Platform) {peb : Peb}
    {calls : List VersionCall} (hinit : .ldrEntryLibInit ∈ calls) {type : EntryType}
    (hknown : knownEntryType (windowsVersionOf (ntVersionsOf peb)) = some type)
    {call : InitializeCall} (hruns : call.RunsIn (Versions.run platform peb calls))
    {before after : LdrState}
    (hblock : rtlAllocateDataTableEntry call.headers before = (call.ldrEntry, after))
    (hentry : call.ldrEntry ≠ 0) : ¬call.StoresInside := by
  intro hinside
  obtain ⟨headers, hheaders⟩ := headers_of_allocated hblock hentry
  have hversion : call.globals.windowsVersion = getSystemVersionCompact peb :=
    hruns.windowsVersion.trans (Versions.run_version platform peb hinit)
  have hsize : call.globals.ldrDataTableEntrySize = 0 := by
    rw [hruns.ldrDataTableEntrySize, Versions.run_size]
    rfl
  have hcommon := (layoutGates_of_known call.host hknown).common
  obtain ⟨s, hs, hstop⟩ := InitializeCall.exists_store hheaders (hversion ▸ hcommon)
  have hle := hinside s hs
  omega

/-- The initialisation of an entry at 0x300 in a process that has ntdll's entry alone. -/
def initializeOn (host : Host) (peb : Peb) : InitializeCall where
  host := host
  services := plainServices
  globals := ⟨getSystemVersionCompact peb, 0, 0⟩
  headers := some ⟨0, 0x1000, 0x5000, 0x3000, 0, (0, 0), 0⟩
  ldrEntry := 0x300
  baseAddress := 0x5000
  dllBaseName := ⟨⟨0x400, []⟩, 0⟩
  dllFullName := ⟨⟨0x500, []⟩, 0⟩
  state := ntdllOnly [some 0x600]
  linkedNode := 0x100

/-- A system that reports a version, with the sizes of the layouts. -/
def systemOf (host : Host) (nt : NtVersions) : Platform where
  ntVersions := nt
  ldrDataTableEntrySize version :=
    match knownEntryType version with
    | some type => BitVec.ofNat 32 (type.size host)
    | none => 0

/-- Windows XP. -/
theorem rtlInitializeLdrDataTableEntry_outside_xp :
    ¬(initializeOn .i386 ⟨5, 1, 2600, 0x0300⟩).StoresInside := by
  have hinit : VersionCall.ldrEntryLibInit ∈
      [VersionCall.ldrEntryLibInit, VersionCall.initializeWindowsVersion] := by decide
  have hknown : knownEntryType (windowsVersionOf (ntVersionsOf ⟨5, 1, 2600, 0x0300⟩)) =
      some .xp := by decide
  have hblock : rtlAllocateDataTableEntry (initializeOn .i386 ⟨5, 1, 2600, 0x0300⟩).headers
      (ntdllOnly [some 0x300]) = (0x300, _) := rfl
  exact rtlInitializeLdrDataTableEntry_outside (systemOf .i386 ⟨5, 1, 2600⟩) hinit hknown
    ⟨by decide, by decide⟩ hblock (by decide)

/-- Windows 10 22H2: 288 bytes are known to the shared data, none are allocated, and the
load time goes to the bytes from 256 to 264. -/
theorem rtlInitializeLdrDataTableEntry_outside_win10 :
    let peb : Peb := ⟨10, 0, 19045, 0⟩
    let versions := Versions.run (systemOf .amd64 ⟨10, 0, 19045⟩) peb
      [.initializeWindowsVersion, .ldrEntryLibInit]
    let call := initializeOn .amd64 peb
    versions.data.ldrDataTableEntrySize = 288 ∧ versions.statics.ldrDataTableEntrySize = 0 ∧
      call.RunsIn versions ∧ ⟨256, 8, 0⟩ ∈ call.stores ∧ ¬call.StoresInside := by
  intro peb versions call
  have hstore : ⟨256, 8, 0⟩ ∈ call.stores := by decide +kernel
  refine ⟨by decide, by decide, ⟨by decide, by decide⟩, hstore, ?_⟩
  intro hinside
  exact absurd (hinside _ hstore) (by decide)

end WinPolyfillLoader.LdrEntry
