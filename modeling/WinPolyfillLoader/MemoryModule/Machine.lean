import WinPolyfillLoader.Library.Memory
import WinPolyfillLoader.Status

/-!
The machine that `MemoryLoadLibrary` runs on: the bytes of the process, with a
trace of the accesses to the buffer, to the image and to the page tables, and
the layout of the structures of the PE format on each host.
-/

namespace WinPolyfillLoader.MemoryModule

open ByteMemory

/-- The hosts of the `HOST_MACHINE` chain. -/
inductive Host where
  | arm64
  | arm
  | amd64
  | i386
deriving DecidableEq, Repr

/-- `HOST_MACHINE`. -/
def Host.machine : Host → Nat
  | .arm64 => 0xAA64
  | .arm => 0x01C0
  | .amd64 => 0x8664
  | .i386 => 0x014C

/-- Whether `_WIN64` is defined. -/
def Host.win64 : Host → Bool
  | .arm64 | .amd64 => true
  | .arm | .i386 => false

/-- `sizeof(size_t)`. -/
def Host.pointerSize (host : Host) : Nat := if host.win64 then 8 else 4

def Host.addresses (host : Host) : Nat := 256 ^ host.pointerSize

def Host.offset (host : Host) (pointer distance : Nat) : Nat :=
  (pointer + distance) % host.addresses

/-- A `LONG` as a distance between pointers. -/
def Host.signExtend (host : Host) (value : Nat) : Nat :=
  if value < 2 ^ 31 then value else value + (host.addresses - 2 ^ 32)

/-- A member of a structure. -/
structure Field where
  offset : Nat
  size : Nat
deriving DecidableEq, Repr

/-- `IMAGE_DOS_HEADER`. -/
def eMagic : Field := ⟨0, 2⟩
def eLfanew : Field := ⟨0x3c, 4⟩

/-- `IMAGE_NT_HEADERS`. -/
def ntSignature : Field := ⟨0, 4⟩
def fileMachine : Field := ⟨4, 2⟩
def numberOfSections : Field := ⟨6, 2⟩
def sizeOfOptionalHeader : Field := ⟨20, 2⟩
def fileCharacteristics : Field := ⟨22, 2⟩
def optionalHeader : Nat := 24
def imageBase (host : Host) : Field :=
  ⟨optionalHeader + (if host.win64 then 24 else 28), host.pointerSize⟩
def sectionAlignment : Field := ⟨optionalHeader + 32, 4⟩
def sizeOfImage : Field := ⟨optionalHeader + 56, 4⟩
def sizeOfHeaders : Field := ⟨optionalHeader + 60, 4⟩
def dllCharacteristics : Field := ⟨optionalHeader + 70, 2⟩

/-- `DataDirectory[IMAGE_DIRECTORY_ENTRY_BASERELOC]`. -/
def baseRelocDirectory (host : Host) : Nat :=
  optionalHeader + (if host.win64 then 112 else 96) + 8 * 5

def relocVirtualAddress (host : Host) : Field := ⟨baseRelocDirectory host, 4⟩
def relocSize (host : Host) : Field := ⟨baseRelocDirectory host + 4, 4⟩

/-- `sizeof(IMAGE_NT_HEADERS)`. -/
def sizeOfNtHeaders (host : Host) : Nat :=
  optionalHeader + (if host.win64 then 112 else 96) + 8 * 16

/-- The members of the NT headers that are used beside `ImageBase`. -/
def ntMembers (host : Host) : List Field :=
  [ntSignature, fileMachine, numberOfSections, sizeOfOptionalHeader, fileCharacteristics,
    sectionAlignment, sizeOfImage, sizeOfHeaders, dllCharacteristics, relocVirtualAddress host,
    relocSize host]

theorem imageBase_inside (host : Host) :
    (imageBase host).offset + (imageBase host).size ≤ sizeOfNtHeaders host := by
  cases host <;> decide

theorem ntMembers_inside (host : Host) :
    ∀ field ∈ ntMembers host, field.offset + field.size ≤ sizeOfNtHeaders host := by
  cases host <;> decide

theorem ntMembers_apart (host : Host) : ∀ field ∈ ntMembers host,
    Apart field.offset field.size (imageBase host).offset (imageBase host).size := by
  cases host <;> decide

/-- `IMAGE_SECTION_HEADER`. -/
def virtualSize : Field := ⟨8, 4⟩
def virtualAddress : Field := ⟨12, 4⟩
def sizeOfRawData : Field := ⟨16, 4⟩
def pointerToRawData : Field := ⟨20, 4⟩
def sizeOfSectionHeader : Nat := 40

/-- `IMAGE_BASE_RELOCATION_HEADER`, and where its entries start. -/
def blockVirtualAddress : Field := ⟨0, 4⟩
def sizeOfBlock : Field := ⟨4, 4⟩
def typeOffset : Nat := 8

def imageDosSignature : Nat := 0x5A4D
def imageNtSignature : Nat := 0x00004550
def imageFileDll : Nat := 0x2000
def imageDllcharacteristicsDynamicBase : Nat := 0x0040
def imageRelBasedHighlow : Nat := 3
def imageRelBasedDir64 : Nat := 10

def pageSize : Nat := 0x1000

/-- What a call does to the memory, in order. -/
inductive Access where
  | readBuffer (address size : Nat)
  | read (address size : Nat)
  | write (address size : Nat)
  | reserve (address size : Nat)
  | commit (address size : Nat)
deriving DecidableEq, Repr

structure Machine where
  bytes : Bytes
  trace : List Access

/-- The arguments and what stands around them: the memory with the buffer, which no
store to the image changes, which of it can be read, and the answers of
`VirtualAlloc`: the base of a reservation at an attempt, null if it is refused, and
whether pages are committed. -/
structure Caller where
  host : Host
  data : Nat
  source : Bytes
  readable : Nat → Bool
  virtualReserve : (attempt address size : Nat) → Nat
  virtualCommit : (address size : Nat) → Bool

def Machine.note (s : Machine) (access : Access) : Machine :=
  { s with trace := s.trace ++ [access] }

def Machine.read (s : Machine) (pointer : Nat) (field : Field) : Nat × Machine :=
  (readLE s.bytes (pointer + field.offset) field.size,
    s.note (.read (pointer + field.offset) field.size))

def Machine.write (s : Machine) (pointer : Nat) (field : Field) (value : Nat) : Machine :=
  { bytes := writeLE s.bytes (pointer + field.offset) field.size value
    trace := s.trace ++ [.write (pointer + field.offset) field.size] }

/-- `RtlCopyMemory` from the buffer to the image. -/
def Machine.copy (c : Caller) (s : Machine) (destination source length : Nat) : Machine :=
  { bytes := blit s.bytes destination c.source source length
    trace := s.trace ++ [.readBuffer source length, .write destination length] }

/-- `VirtualAlloc` with `MEM_RESERVE`. -/
def Machine.reserve (c : Caller) (s : Machine) (attempt address size : Nat) : Nat × Machine :=
  match c.virtualReserve attempt address size with
  | 0 => (0, s)
  | base => (base, s.note (.reserve base size))

/-- `VirtualAlloc` with `MEM_COMMIT`: the address of the first page of the range. A commit at
null, for which the system would choose a place, fails. -/
def Machine.commit (c : Caller) (s : Machine) (address size : Nat) : Nat × Machine :=
  if c.virtualCommit address size then
    (address / pageSize * pageSize, s.note (.commit address size))
  else (0, s)

def Machine.value (s : Machine) (pointer : Nat) (field : Field) : Nat :=
  readLE s.bytes (pointer + field.offset) field.size

def Machine.touch (s : Machine) (pointer : Nat) (field : Field) : Machine :=
  s.note (.read (pointer + field.offset) field.size)

variable {c : Caller}

@[simp] theorem touch_bytes (s : Machine) (pointer : Nat) (field : Field) :
    (s.touch pointer field).bytes = s.bytes := rfl

@[simp] theorem touch_value (s : Machine) (pointer pointer' : Nat) (field field' : Field) :
    (s.touch pointer field).value pointer' field' = s.value pointer' field' := rfl

@[simp] theorem touch_trace (s : Machine) (pointer : Nat) (field : Field) :
    (s.touch pointer field).trace =
      s.trace ++ [.read (pointer + field.offset) field.size] := rfl

@[simp] theorem commit_bytes (s : Machine) (address size : Nat) :
    (s.commit c address size).2.bytes = s.bytes := by
  unfold Machine.commit
  split <;> rfl

@[simp] theorem commit_value (s : Machine) (address size pointer : Nat) (field : Field) :
    (s.commit c address size).2.value pointer field = s.value pointer field := by
  rw [Machine.value, commit_bytes]
  rfl

@[simp] theorem note_trace (s : Machine) (access : Access) :
    (s.note access).trace = s.trace ++ [access] := rfl

@[simp] theorem write_trace (s : Machine) (pointer : Nat) (field : Field) (value : Nat) :
    (s.write pointer field value).trace =
      s.trace ++ [.write (pointer + field.offset) field.size] := rfl

@[simp] theorem copy_trace (s : Machine) (destination source length : Nat) :
    (s.copy c destination source length).trace =
      s.trace ++ [.readBuffer source length, .write destination length] := rfl

@[simp] theorem commit_trace (s : Machine) (address size : Nat) :
    (s.commit c address size).2.trace =
      s.trace ++ if c.virtualCommit address size then [.commit address size] else [] := by
  unfold Machine.commit
  split
  · rfl
  · simp

end WinPolyfillLoader.MemoryModule
