import WinPolyfillLoader.MmpTls.Process

/-!
`HookNtSetInformationProcess` for requests of class `ProcessTlsInformation`.
Requests of ntdll carry a process handle, the module's own carry none. Both
reach the kernel as `ProcessTlsReplaceIndex`; afterwards the caller's request
and the records are brought in line with what the kernel did.
-/

namespace WinPolyfillLoader.MmpTls

open ProcessHeap

/-- The checks and the conversion in front of the call: the request for the
kernel, or the status that refuses it. -/
def convertRequest (processHandle : Nat) (request : ProcessTlsInformation) (slots : Slots) :
    Except NtStatus ProcessTlsInformation :=
  match request.operationType with
  | .processTlsReplaceVector =>
      if processHandle = 0 then .error statusInvalidParameter
      else if mmpStartTlsIndex ≤ request.tlsIndex then .error statusNoMemory
      else .ok { request with
        operationType := .processTlsReplaceIndex
        threadData := fun i =>
          if i < request.threadDataCount then
            { request.threadData i with
              tlsPointer := slots (request.threadData i).tlsPointer request.tlsIndex }
          else request.threadData i }
  | _ =>
      if processHandle ≠ 0 then
        if mmpStartTlsIndex ≤ request.tlsIndex then .error statusNoMemory else .ok request
      else if request.tlsIndex < mmpStartTlsIndex ∨ mmpMaximumTlsIndex ≤ request.tlsIndex then
        .error statusNoMemory
      else .ok request

def isThreadRecord (request : ProcessTlsInformation) (slots : Slots) (i : Nat)
    (record : TlspRecord) : Bool :=
  match request.operationType with
  | .processTlsReplaceVector =>
      slots record.tlspMmpBlock request.tlsIndex =
        slots (request.threadData i).tlsPointer request.tlsIndex
  | _ => slots record.tlspMmpBlock request.tlsIndex = (request.threadData i).tlsPointer

/-- The caller's request, the records and the vectors, which the mapping loop
edits together. -/
structure Mapping where
  request : ProcessTlsInformation
  records : List TlspRecord
  slots : Slots

/-- The body of the inner loop for a record that was found at position `at`. -/
def remapRecord (processHandle : Nat) (tls : ProcessTlsInformation) (i position : Nat)
    (record : TlspRecord) (mapping : Mapping) : Mapping :=
  let request := mapping.request
  let current := request.threadData i
  match request.operationType with
  | .processTlsReplaceVector =>
      { request := request.setThread i { current with tlsPointer := record.tlspLdrBlock }
        records := mapping.records.set position { record with tlspLdrBlock := current.tlsPointer }
        slots := copySlots mapping.slots current.tlsPointer record.tlspMmpBlock request.tlsIndex }
  | _ =>
      { request := request.setThread i { current with tlsPointer := (tls.threadData i).tlsPointer }
        records := mapping.records
        slots :=
          if processHandle ≠ 0 then
            writeSlot mapping.slots record.tlspLdrBlock request.tlsIndex current.tlsPointer
          else mapping.slots }

/-- One element of the mapping loop: the first matching record is remapped,
and `Flags` and `ThreadId` are copied whether or not one was found. -/
def remapThread (processHandle : Nat) (tls : ProcessTlsInformation) (mapping : Mapping)
    (i : Nat) : Mapping :=
  let found := mapping.records.findIdx? (isThreadRecord mapping.request mapping.slots i)
  let mapped :=
    match found with
    | some position =>
        match mapping.records[position]? with
        | some record => remapRecord processHandle tls i position record mapping
        | none => mapping
    | none => mapping
  { mapped with
    request := mapped.request.setThread i
      { mapped.request.threadData i with
        flags := (tls.threadData i).flags
        threadId := (tls.threadData i).threadId } }

def ntCurrentProcess : Nat := 0xffffffffffffffff

/-- `HookNtSetInformationProcess`, class `ProcessTlsInformation`. -/
def hookNtSetInformationProcess (kernel : KernelAnswer) (processHandle : Nat)
    (request : ProcessTlsInformation) (state : MmpState) :
    NtStatus × ProcessTlsInformation × MmpState :=
  match request.operationType with
  | .maxProcessTlsOperation => (statusInvalidParameter, request, state)
  | _ =>
    match rtlAllocateHeap state with
    | (0, state) => (statusNoMemory, request, state)
    | (private_, state) =>
      match convertRequest processHandle request state.slots with
      | .error status => (status, request, rtlFreeHeap state private_)
      | .ok tls =>
        if ntSuccess kernel.status then
          let hProcess := if processHandle ≠ 0 then processHandle else ntCurrentProcess
          let (tls, slots) := kernel.effect hProcess tls state.slots
          let mapping := (List.range tls.threadDataCount).foldl
            (remapThread processHandle tls)
            ⟨request, state.mmpThreadLocalStoragePointer, slots⟩
          (kernel.status, mapping.request, rtlFreeHeap { state with
            mmpThreadLocalStoragePointer := mapping.records
            slots := mapping.slots } private_)
        else (kernel.status, request, rtlFreeHeap state private_)

end WinPolyfillLoader.MmpTls
