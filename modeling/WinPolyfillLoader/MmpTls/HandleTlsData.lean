import WinPolyfillLoader.MmpTls.SetInformationProcess
import WinPolyfillLoader.Library.CountedArray

/-!
`MmpHandleTlsData`: a module with a TLS directory gets an index, a list entry
and, for every thread, a copy of its template, which the kernel swaps into the
threads' vectors. `MmpReleaseTlsEntry` is both the unload path and the cleanup
of the early failures.
-/

namespace WinPolyfillLoader.MmpTls

open ProcessHeap ByteMemory CountedArray

/-- `RtlFindClearBitsAndSet(&MmpTlsBitmap, 1, 0)`: the lowest clear bit. -/
def rtlFindClearBitsAndSet (bitmap : Nat → Bool) : Option (Nat × (Nat → Bool)) :=
  let index := scan (fun k => !bitmap k) mmpMaximumTlsIndex 0
  if index < mmpMaximumTlsIndex then some (index, Function.update bitmap index true) else none

def mmpAcquireTlsIndex (state : MmpState) : Option (Nat × MmpState) :=
  match rtlFindClearBitsAndSet state.mmpTlsBitmap with
  | some (index, bitmap) => some (index, { state with mmpTlsBitmap := bitmap })
  | none => none

/-- `MmpAllocateTlsEntry`. `indexMapped` tells whether `AddressOfIndex` can be
written; if not, the exception handler returns. -/
def mmpAllocateTlsEntry (indexMapped : Bool) (tlsDirectory : ImageTlsDirectory)
    (moduleEntry : Nat) (state : MmpState) : Except NtStatus Nat × MmpState :=
  if !indexMapped then (.error statusAccessViolation, state)
  else
    let state := { state with memory := writeLE state.memory tlsDirectory.addressOfIndex 4 0 }
    match rtlAllocateHeap state with
    | (0, state) => (.error statusNoMemory, state)
    | (entry, state) =>
      match mmpAcquireTlsIndex state with
      | none => (.error statusInsufficientResources, rtlFreeHeap state entry)
      | some (tlsIndex, state) =>
        (.ok tlsIndex, { state with
          memory := writeLE state.memory tlsDirectory.addressOfIndex 4 tlsIndex
          mmpTlsList := state.mmpTlsList ++
            [⟨entry, { tlsDirectory with characteristics := tlsIndex }, moduleEntry⟩] })

/-- `MmpReleaseTlsEntry`: the first entry of the module goes, with its bit. It
always returns `STATUS_SUCCESS`. -/
def mmpReleaseTlsEntry (moduleEntry : Nat) (state : MmpState) : MmpState :=
  match state.mmpTlsList.find? (fun p => p.moduleEntry == moduleEntry) with
  | some p =>
      rtlFreeHeap { state with
        mmpTlsList := state.mmpTlsList.eraseP (fun p => p.moduleEntry == moduleEntry)
        mmpTlsBitmap := Function.update state.mmpTlsBitmap p.tlsDirectory.characteristics false }
        p.address
  | none => state

/-- The template copies, one for each of `n` threads. `blocks` holds the
pointers stored so far; when a request fails they are freed again. -/
def allocateThreadData (tlsDirectory : ImageTlsDirectory) :
    Nat → List Nat → MmpState → Option (List Nat) × MmpState
  | 0, blocks, state => (some blocks, state)
  | n + 1, blocks, state =>
    match rtlAllocateHeap state with
    | (0, state) => (none, { state with heap := state.heap.freeAll blocks })
    | (block, state) =>
      allocateThreadData tlsDirectory n (blocks ++ [block]) { state with
        memory := blit state.memory block state.memory tlsDirectory.startAddressOfRawData
          tlsDirectory.len }

def tlsRequest (tlsIndex threadCount : Nat) (blocks : List Nat) : ProcessTlsInformation where
  operationType := .processTlsReplaceIndex
  threadDataCount := threadCount
  tlsIndex := tlsIndex
  threadData := fun i => ⟨0, blocks.getD i 0, 0⟩

/-- The loop after the call: every pointer left in the request is freed, and
the threads whose `Flags` stayed 0 are counted off, whatever the status. -/
def releaseThreadData (request : ProcessTlsInformation) (state : MmpState) : MmpState :=
  let threads := (List.range request.threadDataCount).map request.threadData
  { state with
    heap := state.heap.freeAll (threads.map ThreadTlsInformation.tlsPointer)
    mmpActiveThreadCount := state.mmpActiveThreadCount -
      BitVec.ofNat 32 (threads.countP (fun thread => thread.flags == 0)) }

/-- `MmpHandleTlsData`. `tlsDirectory` is what `RtlImageDirectoryEntryToData`
finds, if the directory exists and has a size. A request has its elements but not
its length in bytes, which the code cuts to a `DWORD`. -/
def mmpHandleTlsData (kernel : KernelAnswer) (indexMapped : Bool)
    (tlsDirectory : Option ImageTlsDirectory) (moduleEntry : Nat) (state : MmpState) :
    NtStatus × MmpState :=
  match tlsDirectory with
  | none => (statusSuccess, state)
  | some tlsDirectory =>
    match mmpAllocateTlsEntry indexMapped tlsDirectory moduleEntry state with
    | (.error _, state) => (statusInsufficientResources, state)
    | (.ok tlsIndex, state) =>
      let threadCount := state.mmpActiveThreadCount.toNat
      match rtlAllocateHeap state with
      | (0, state) => (statusNoMemory, mmpReleaseTlsEntry moduleEntry state)
      | (buffer, state) =>
        match allocateThreadData tlsDirectory threadCount [] state with
        | (none, state) => (statusNoMemory, mmpReleaseTlsEntry moduleEntry state)
        | (some blocks, state) =>
          match hookNtSetInformationProcess kernel 0
              (tlsRequest tlsIndex threadCount blocks) state with
          | (status, request, state) =>
            (status, rtlFreeHeap (releaseThreadData request state) buffer)

end WinPolyfillLoader.MmpTls
