import Mathlib

/-!
# Status codes

The `NTSTATUS` values that the modelled routines return or test.
-/

namespace Ldk

/-- The `NTSTATUS` values the modelled code uses. -/
inductive NtStatus where
  | success
  | alerted
  | timeout
  | deletePending
  | unsuccessful
  | invalidParameter
  | invalidCid
  | insufficientResources
  | noMemory
  | bufferOverflow
  | bufferTooSmall
  | variableNotFound
  | notFound
  | objectNameInvalid
  | nameTooLong
  | notADirectory
  | procedureNotFound
  | ordinalNotFound
  | invalidImageFormat
  | invalidImageNotMz
  | invalidImageWin32
  | dllInitFailed
  deriving DecidableEq, Repr

/-- `NT_SUCCESS`: the severity is not that of a warning or an error. -/
def NtStatus.ntSuccess : NtStatus → Bool
  | .success | .alerted | .timeout => true
  | _ => false

end Ldk
