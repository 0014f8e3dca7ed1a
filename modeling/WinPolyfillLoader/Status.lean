/-!
`NTSTATUS` values. `NT_SUCCESS` is the signed comparison of the Windows
headers, so informational codes such as `STATUS_IMAGE_MACHINE_TYPE_MISMATCH`
and the loader's own `0x7fffffff` count as successes.
-/

namespace WinPolyfillLoader

abbrev Dword := BitVec 32

abbrev NtStatus := BitVec 32

def ntSuccess (status : NtStatus) : Bool := decide (0 ≤ status.toInt)

def statusSuccess : NtStatus := 0x00000000
def statusImageMachineTypeMismatch : NtStatus := 0x4000000E
def statusUnsuccessful : NtStatus := 0xC0000001
def statusInfoLengthMismatch : NtStatus := 0xC0000004
def statusAccessViolation : NtStatus := 0xC0000005
def statusInvalidHandle : NtStatus := 0xC0000008
def statusInvalidParameter : NtStatus := 0xC000000D
def statusNoMemory : NtStatus := 0xC0000017
def statusInvalidImageFormat : NtStatus := 0xC000007B
def statusNotSupported : NtStatus := 0xC00000BB
def statusInsufficientResources : NtStatus := 0xC000009A
def statusInvalidParameter1 : NtStatus := 0xC00000EF
def statusInvalidParameter3 : NtStatus := 0xC00000F1
def statusInvalidParameter5 : NtStatus := 0xC00000F3
def statusDllNotFound : NtStatus := 0xC0000135
def statusEntrypointNotFound : NtStatus := 0xC0000139
def statusDllInitFailed : NtStatus := 0xC0000142
def statusNotFound : NtStatus := 0xC0000225

end WinPolyfillLoader
