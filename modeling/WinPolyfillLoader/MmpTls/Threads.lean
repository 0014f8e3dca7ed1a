import WinPolyfillLoader.MmpTls.HandleTlsData

/-!
The life of a thread: `MmpAllocateTlsLockHeld` gives a new thread a vector with
room for the module slots, `HookLdrShutdownThread` queues what an exiting thread
leaves, and the worker of `MmpTlsFiber.cpp` frees it once the thread is gone.
-/

namespace WinPolyfillLoader.MmpTls

open ProcessHeap ByteMemory

/-- The thread identifier and `ThreadLocalStoragePointer` of a `TEB`. -/
structure Teb where
  clientId : Nat
  threadLocalStoragePointer : Nat
deriving DecidableEq, Repr

/-- `MMP_POSTPONED_TLS`. `hThread` is the identifier of the thread that was
opened, `lpOldTlsVector` the address of the `TLS_VECTOR`. -/
structure PostponedTls where
  hThread : Nat
  lpTlsRecord : TlspRecord
  lpOldTlsVector : Nat
deriving DecidableEq, Repr

/-- A process that uses the module. `length` is the field `Length` of the
`TLS_VECTOR` around a vector, which holds a thread identifier instead while the
vector is deferred. `tlspVectors` are the vectors whose block was last
allocated by `MmpAllocateTlsp`. -/
structure TlsProcess where
  mmp : MmpState
  threads : List Teb
  length : Nat → Nat
  tlspVectors : List Nat
  mmpPostponedTlsList : Option (List PostponedTls)

/-- The offset of `ModuleTlsData` in a `TLS_VECTOR`, 64-bit layout. -/
def moduleTlsDataOffset : Nat := 16

def moduleTlsData (tlsVector : Nat) : Nat := tlsVector + moduleTlsDataOffset

/-- `CONTAINING_RECORD(vector, TLS_VECTOR, ModuleTlsData)`. -/
def containingTlsVector (vector : Nat) : Nat := vector - moduleTlsDataOffset

@[simp] theorem containingTlsVector_moduleTlsData (tlsVector : Nat) :
    containingTlsVector (moduleTlsData tlsVector) = tlsVector :=
  Nat.add_sub_cancel tlsVector moduleTlsDataOffset

/-- `MmpAllocateTlsp`: a zeroed `TLS_VECTOR` with 256 slots more. -/
def mmpAllocateTlsp (process : TlsProcess) : Nat × TlsProcess :=
  match rtlAllocateHeap process.mmp with
  | (0, mmp) => (0, { process with mmp := mmp })
  | (tlsVector, mmp) =>
      (tlsVector, { process with
        mmp := { mmp with slots := fun v k =>
          if v = moduleTlsData tlsVector ∧ k ≤ mmpMaximumTlsIndex then 0 else mmp.slots v k }
        length := Function.update process.length (moduleTlsData tlsVector) 0
        tlspVectors := moduleTlsData tlsVector :: process.tlspVectors })

/-- `NtCurrentTeb()->ThreadLocalStoragePointer` in the thread `clientId`. -/
def threadPointer (threads : List Teb) (clientId : Nat) : Nat :=
  match threads.find? (fun teb => teb.clientId == clientId) with
  | some teb => teb.threadLocalStoragePointer
  | none => 0

def setThreadPointer (threads : List Teb) (clientId vector : Nat) : List Teb :=
  threads.map fun teb =>
    if teb.clientId = clientId then { teb with threadLocalStoragePointer := vector } else teb

def mmpFindTlspRecordLockHeld (clientId : Nat) (records : List TlspRecord) : Option TlspRecord :=
  records.find? (fun record => record.uniqueThread == clientId)

/-- The loop over `MmpTlsList` of a new thread. A template without bytes gets
no block, and the loop ends there. -/
def allocateModuleData (vector : Nat) : List TlsEntry → MmpState → Bool × MmpState
  | [], state => (true, state)
  | tls :: rest, state =>
    let len := tls.tlsDirectory.len
    match if len ≠ 0 then rtlAllocateHeap state else (0, state) with
    | (0, state) => (false, state)
    | (data, state) =>
      allocateModuleData vector rest { state with
        memory := blit state.memory data state.memory tls.tlsDirectory.startAddressOfRawData len
        slots := writeSlot state.slots vector tls.tlsDirectory.characteristics data }

def errorSuccess : Dword := 0
def errorNotEnoughMemory : Dword := 8

/-- The record and the vector of a thread whose two blocks were granted: the
slots of ntdll are copied, unless the vector is deferred, and the new vector is
installed. -/
def installTlsp (clientId record tlsVector : Nat) (process : TlsProcess) : TlsProcess :=
  let tlspLdrBlock := threadPointer process.threads clientId
  let tlspMmpBlock := moduleTlsData tlsVector
  let size := process.length tlspLdrBlock
  { process with
    threads := setThreadPointer process.threads clientId tlspMmpBlock
    mmp := { process.mmp with
      slots :=
        if size ≠ clientId then copySlots process.mmp.slots tlspMmpBlock tlspLdrBlock size
        else process.mmp.slots
      mmpThreadLocalStoragePointer := process.mmp.mmpThreadLocalStoragePointer ++
        [⟨record, clientId, tlspLdrBlock, tlspMmpBlock⟩] } }

/-- `MmpAllocateTlsLockHeld` in the thread `clientId`. -/
def mmpAllocateTlsLockHeld (clientId : Nat) (process : TlsProcess) : Dword × TlsProcess :=
  if threadPointer process.threads clientId = 0 then (errorSuccess, process)
  else
    match mmpFindTlspRecordLockHeld clientId process.mmp.mmpThreadLocalStoragePointer with
    | some _ => (errorSuccess, process)
    | none =>
      match rtlAllocateHeap process.mmp with
      | (0, mmp) => (errorNotEnoughMemory, { process with mmp := mmp })
      | (record, mmp) =>
        match mmpAllocateTlsp { process with mmp := mmp } with
        | (0, process) =>
            (errorNotEnoughMemory, { process with mmp := rtlFreeHeap process.mmp record })
        | (tlsVector, process) =>
          let process := installTlsp clientId record tlsVector process
          match allocateModuleData (moduleTlsData tlsVector) process.mmp.mmpTlsList process.mmp with
          | (false, mmp) => (errorNotEnoughMemory, { process with mmp := mmp })
          | (true, mmp) =>
              (errorSuccess, { process with
                mmp := { mmp with mmpActiveThreadCount := mmp.mmpActiveThreadCount + 1 } })

/-- `MmpQueuePostponedTls`: a copy of the vector is queued, as ntdll frees the
vector itself. The copy is not checked, and without one the thread faults. -/
def mmpQueuePostponedTls (clientId : Nat) (record : TlspRecord) (process : TlsProcess) :
    Option TlsProcess :=
  match mmpAllocateTlsp process with
  | (0, _) => none
  | (tlsVector, process) =>
    let mmp := { process.mmp with
      slots := copySlots process.mmp.slots (moduleTlsData tlsVector) record.tlspMmpBlock
        mmpMaximumTlsIndex }
    match process.mmpPostponedTlsList with
    | some items =>
        some { process with
          mmp := mmp
          mmpPostponedTlsList := some (items ++ [⟨clientId, record, tlsVector⟩]) }
    | none => some { process with mmp := rtlFreeHeap mmp tlsVector }

/-- `HookLdrShutdownThread` in the thread `clientId`, up to the call of the
original function. -/
def hookLdrShutdownThread (clientId : Nat) (process : TlsProcess) : Option TlsProcess :=
  match mmpFindTlspRecordLockHeld clientId process.mmp.mmpThreadLocalStoragePointer with
  | some record =>
      mmpQueuePostponedTls clientId record { process with
        mmp := { process.mmp with
          mmpThreadLocalStoragePointer := process.mmp.mmpThreadLocalStoragePointer.eraseP
            (fun record => record.uniqueThread == clientId)
          mmpActiveThreadCount := process.mmp.mmpActiveThreadCount - 1 } }
  | none => some process

/-- The worker on the item of a thread that has terminated: the slots of the
modules that are listed now, the vector of ntdll, the record and the copy. -/
def releasePostponedTls (mmp : MmpState) (item : PostponedTls) : MmpState :=
  let tlspMmpBlock := moduleTlsData item.lpOldTlsVector
  let data := mmp.mmpTlsList.map fun p => mmp.slots tlspMmpBlock p.tlsDirectory.characteristics
  { mmp with
    heap := mmp.heap.freeAll (data ++
      [containingTlsVector item.lpTlsRecord.tlspLdrBlock, item.lpTlsRecord.address,
        item.lpOldTlsVector]) }

/-- One pass of `MmpReleasePostponedTlsWorker`. `active` tells which threads
`GetExitCodeThread` reports as `STILL_ACTIVE`. -/
def mmpReleasePostponedTlsWorker (active : PostponedTls → Bool) (process : TlsProcess) :
    TlsProcess :=
  match process.mmpPostponedTlsList with
  | some items =>
      { process with
        mmp := (items.filter (fun item => !active item)).foldl releasePostponedTls process.mmp
        mmpPostponedTlsList := some (items.filter active) }
  | none => process

end WinPolyfillLoader.MmpTls
