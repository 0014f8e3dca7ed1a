import WinPolyfillLoader.Status
import WinPolyfillLoader.Library.Heap
import WinPolyfillLoader.Library.Memory

/-!
The state that `MmpTls.cpp` keeps and edits: the TLS index bitmap, the list of
modules with TLS, one record for each thread, and the vectors of TLS pointers
themselves. `MMP_TLS_DATA` holds the first four, the process memory the rest.
-/

namespace WinPolyfillLoader.MmpTls

open ProcessHeap ByteMemory

def mmpStartTlsIndex : Nat := 0x80
def mmpMaximumTlsIndex : Nat := 0x100

/-- `IMAGE_TLS_DIRECTORY`. The loader keeps the index it assigned in
`Characteristics`. -/
structure ImageTlsDirectory where
  startAddressOfRawData : Nat
  endAddressOfRawData : Nat
  addressOfIndex : Nat
  addressOfCallBacks : Nat
  sizeOfZeroFill : Nat
  characteristics : Nat
deriving DecidableEq, Repr

/-- The number of bytes in the template. An end below the start wraps, in the 64 bits
of `ULONG_PTR`. -/
def ImageTlsDirectory.len (d : ImageTlsDirectory) : Nat :=
  (d.endAddressOfRawData + (2 ^ 64 - d.startAddressOfRawData % 2 ^ 64)) % 2 ^ 64

/-- `TLS_ENTRY`, with the address of the heap block that holds it. -/
structure TlsEntry where
  address : Nat
  tlsDirectory : ImageTlsDirectory
  moduleEntry : Nat
deriving DecidableEq, Repr

/-- `MMP_TLSP_RECORD`. The two blocks are vectors of TLS pointers. -/
structure TlspRecord where
  address : Nat
  uniqueThread : Nat
  tlspLdrBlock : Nat
  tlspMmpBlock : Nat
deriving DecidableEq, Repr

/-- The TLS pointer vectors of the process: slot `k` of the vector at `v`. No two of them overlap
here; `FlatMemory` has them on the bytes of the process, where they may. -/
abbrev Slots := Nat → Nat → Nat

def writeSlot (slots : Slots) (vector index value : Nat) : Slots :=
  fun v k => if v = vector ∧ k = index then value else slots v k

/-- `RtlCopyMemory(dst, src, n * sizeof(PVOID))` between vectors that do not overlap. -/
def copySlots (slots : Slots) (dst src n : Nat) : Slots :=
  fun v k => if v = dst ∧ k < n then slots src k else slots v k

@[simp] theorem writeSlot_self (slots : Slots) (vector index value : Nat) :
    writeSlot slots vector index value vector index = value := if_pos ⟨rfl, rfl⟩

theorem writeSlot_other (slots : Slots) {vector index v k : Nat} (value : Nat)
    (h : ¬ (v = vector ∧ k = index)) : writeSlot slots vector index value v k = slots v k :=
  if_neg h

theorem copySlots_copied (slots : Slots) (dst src : Nat) {n k : Nat} (h : k < n) :
    copySlots slots dst src n dst k = slots src k := if_pos ⟨rfl, h⟩

theorem copySlots_other (slots : Slots) {dst v n k : Nat} (src : Nat) (h : ¬ (v = dst ∧ k < n)) :
    copySlots slots dst src n v k = slots v k := if_neg h

structure MmpState where
  mmpTlsList : List TlsEntry
  mmpTlsBitmap : Nat → Bool
  mmpThreadLocalStoragePointer : List TlspRecord
  mmpActiveThreadCount : Dword
  slots : Slots
  memory : Bytes
  heap : Heap

/-- `RtlAllocateHeap(RtlProcessHeap(), …)`; null is 0. -/
def rtlAllocateHeap (state : MmpState) : Nat × MmpState :=
  match state.heap.allocate with
  | (some block, heap) => (block, { state with heap := heap })
  | (none, heap) => (0, { state with heap := heap })

def rtlFreeHeap (state : MmpState) (block : Nat) : MmpState :=
  { state with heap := state.heap.free block }

/-- One element of the request; `TlsVector` and `TlsModulePointer` are one
field. -/
structure ThreadTlsInformation where
  flags : Dword
  tlsPointer : Nat
  threadId : Nat
deriving DecidableEq, Repr

inductive TlsOperation where
  | processTlsReplaceIndex
  | processTlsReplaceVector
  | maxProcessTlsOperation
deriving DecidableEq, Repr

/-- `PROCESS_TLS_INFORMATION`; `TlsIndex` and `TlsVectorLength` are one field. -/
structure ProcessTlsInformation where
  operationType : TlsOperation
  threadDataCount : Nat
  tlsIndex : Nat
  threadData : Nat → ThreadTlsInformation

def ProcessTlsInformation.setThread (tls : ProcessTlsInformation) (i : Nat)
    (thread : ThreadTlsInformation) : ProcessTlsInformation :=
  { tls with threadData := Function.update tls.threadData i thread }

/-- What the kernel answers to the one request that is passed on: a status
and, when that is a success, what it does to the request and to the vectors. -/
structure KernelAnswer where
  status : NtStatus
  effect : Nat → ProcessTlsInformation → Slots → ProcessTlsInformation × Slots

end WinPolyfillLoader.MmpTls
