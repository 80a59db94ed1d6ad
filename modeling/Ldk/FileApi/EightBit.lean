import Ldk.CurrentDirectory.Sequences
import Ldk.FileApi.TempFileName

set_option linter.unusedSectionVars false

/-!
# The 8-bit path functions

`GetFullPathNameA`, `GetTempPathA` and `GetCurrentDirectoryA`, each beside the path of its wide
counterpart.

- A code page is its two conversions. `RtlUnicodeToMultiByteSize` takes the size in the code page
  of ANSI, whichever page `SetFileApisToOEM` and `SetFileApisToANSI` have chosen.
- `lpBuffer` is the list of its bytes. What a conversion that fails leaves in it is not a path.
- `Agrees`: what the functions are to give for the path of the wide function.
-/

namespace Ldk.FileApi

open OutputBuffer
open Ldk.DosPath (backslash isPathSeparator rtlInitUnicodeStringEx rtlGetFullPathNameUstr)
open Ldk.CurrentDirectory (Terminated)

/-! ## Code pages -/

/-- A code page. -/
structure CodePage where
  toWide : List UInt8 → List WCHAR
  toBytes : List WCHAR → List UInt8
  /-- Each character has a byte at least. -/
  toBytes_eq_nil : ∀ text, toBytes text = [] ↔ text = []

/-- The code pages of the system, and the pointers to the conversions of one of them. -/
structure FileApis where
  ansi : CodePage
  oem : CodePage
  /-- `AreFileApisANSI` -/
  areAnsi : Bool

namespace FileApis

/-- `SetFileApisToOEM` -/
def setFileApisToOEM (apis : FileApis) : FileApis := { apis with areAnsi := false }

/-- `SetFileApisToANSI` -/
def setFileApisToANSI (apis : FileApis) : FileApis := { apis with areAnsi := true }

/-- The code page of the pointers. -/
def page (apis : FileApis) : CodePage := if apis.areAnsi then apis.ansi else apis.oem

/-- `RtlUnicodeToMultiByteSize` -/
def rtlUnicodeToMultiByteSize (apis : FileApis) (text : List WCHAR) : Nat :=
  (apis.ansi.toBytes text).length

/-- `LdkUnicodeStringTo8BitString` to a buffer of `maximumLength` bytes: these bytes, or a
status. -/
def unicodeStringTo8BitString (apis : FileApis) (text : List WCHAR) (maximumLength : Nat) :
    Except NtStatus (List UInt8) :=
  let bytes := apis.page.toBytes text
  if 2 ^ 16 ≤ bytes.length + 1 then .error .invalidParameter
  else if maximumLength ≤ bytes.length then .error .bufferOverflow
  else .ok (bytes ++ [0])

end FileApis

/-! ## What is given -/

/-- `SetLastError` or `LdkSetLastNTError` -/
inductive LastError where
  | code (error : BitVec 32)
  | ntStatus (status : NtStatus)
  deriving DecidableEq, Repr

/-- What comes out of a call. -/
structure EightBitReply where
  returned : Nat
  /-- `lpBuffer`, when a path has been put there. -/
  stored : Option (List UInt8) := none
  /-- `*lpFilePart`, when it is set: an index of `lpBuffer`, or `NULL`. -/
  filePart : Option (Option Nat) := none
  lastError : Option LastError := none
  deriving DecidableEq, Repr

/-- What must not happen. -/
inductive EightBitFault where
  /-- In `RtlGetFullPathName_U`. -/
  | fullPath (fault : DosPath.Fault)
  /-- A read of a buffer of the function that no path has been put in. -/
  | uninitialized
  /-- A read behind a block of the heap. -/
  | block (fault : Outside)
  /-- A write outside `lpBuffer`. -/
  | buffer (fault : Outside)
  deriving DecidableEq, Repr

/-- The faults of one kind as faults of the call. -/
def faultOf {ε ε' α : Type} (kind : ε → ε') : Except ε α → Except ε' α
  | .error fault => .error (kind fault)
  | .ok a => .ok a

/-- What a call is to give for the path of the wide function, if there is one: a length below
`nBufferLength` comes with the path in `lpBuffer`, and any other length but 0 is enough for it. -/
structure Agrees (path : Option (List WCHAR)) (convert : List WCHAR → List UInt8)
    (nBufferLength : Nat) (reply : EightBitReply) : Prop where
  size : ∀ buffer ∈ reply.stored, buffer.length = nBufferLength
  holds : (0 < reply.returned ∧ reply.returned < nBufferLength) ↔
    ∃ text ∈ path, ∃ buffer ∈ reply.stored, Holds buffer (convert text ++ [0])
  enough : ¬ (0 < reply.returned ∧ reply.returned < nBufferLength) → reply.returned ≠ 0 →
    ∀ text ∈ path, (convert text).length < reply.returned

/-! ## The current directory -/

/-- The current directory, as the calls leave it behind. -/
structure Directory where
  state : CurrentDirectory.State Nat Nat
  terminated : Terminated state.dosPath

/-- The path `GetCurrentDirectoryW` gives in a buffer with room for it. -/
def Directory.path (d : Directory) : List WCHAR := CurrentDirectory.reported d.state.dosPath

/-! ## GetTempPathA -/

/-- What `LdkpGetTempPathCandidate` asks for. -/
structure TempSources where
  /-- The value of a variable, if there is one. -/
  environmentVariable : List WCHAR → Option (List WCHAR)
  directory : Directory
  /-- `LdkpTempPathExists` -/
  tempPathExists : List WCHAR → Bool

/-- `TMP`, `TEMP` and `USERPROFILE` -/
def directVariables : List (List WCHAR) :=
  [[0x54, 0x4d, 0x50], [0x54, 0x45, 0x4d, 0x50],
    [0x55, 0x53, 0x45, 0x52, 0x50, 0x52, 0x4f, 0x46, 0x49, 0x4c, 0x45]]

/-- `SystemRoot` and `windir` -/
def windowsVariables : List (List WCHAR) :=
  [[0x53, 0x79, 0x73, 0x74, 0x65, 0x6d, 0x52, 0x6f, 0x6f, 0x74],
    [0x77, 0x69, 0x6e, 0x64, 0x69, 0x72]]

/-- `TempComponent` -/
def tempComponent : List WCHAR := [0x54, 0x65, 0x6d, 0x70]

/-- `Temp` behind the path, with a separator between them. -/
def appendTempComponent (path : List WCHAR) (destinationCch : Nat) : Option (List WCHAR) :=
  match path.getLast? with
  | none => none
  | some last =>
    if isPathSeparator last then
      if path.length + (tempComponent.length + 1) > destinationCch then none
      else some (path ++ tempComponent)
    else if destinationCch ≤ path.length + 1 then none
    else if path.length + 1 + (tempComponent.length + 1) > destinationCch then none
    else some (path ++ [backslash] ++ tempComponent)

/-- `LdkpCopyTempPathCandidate` -/
def ldkpCopyTempPathCandidate (w : TempSources) (destinationCch : Nat) (source : List WCHAR)
    (appendTemp : Bool) : Option (List WCHAR) := do
  let path ←
    (if source = [] ∨ destinationCch ≤ source.length then none
    else if appendTemp then appendTempComponent source destinationCch
    else some source)
  match ldkpEnsureTrailingPathSeparator path destinationCch with
  | .error _ => none
  | .ok path => if w.tempPathExists path then some path else none

/-- A value as it is in `Buffer`: none when there is no room for it, or when it is empty. -/
def fetched (value : List WCHAR) : Option (List WCHAR) :=
  if value.length ≠ 0 ∧ value.length < maxPath then some (value.takeWhile (· ≠ 0)) else none

/-- The values that are tried, in their order, and whether `Temp` comes behind them. -/
def tempValues (w : TempSources) : List (Option (List WCHAR) × Bool) :=
  directVariables.map (fun name => (w.environmentVariable name, false)) ++
    windowsVariables.map (fun name => (w.environmentVariable name, true)) ++
    [(some w.directory.path, false)]

/-- `LdkpGetTempPathCandidate`: the first candidate that is there. -/
def ldkpGetTempPathCandidate (w : TempSources) (destinationCch : Nat) : Option (List WCHAR) :=
  (tempValues w).findSome? fun (value, appendTemp) => do
    let source ← fetched (← value)
    ldkpCopyTempPathCandidate w destinationCch source appendTemp

/-- `GetTempPathA` -/
def getTempPathA (apis : FileApis) (w : TempSources) (nBufferLength : Nat)
    (lpBuffer : Option (List UInt8)) : Except EightBitFault EightBitReply :=
  match ldkpGetTempPathCandidate w maxPath with
  | none => .ok { returned := 0, lastError := some (.code errorPathNotFound) }
  | some widePath =>
    let multiByteLength := apis.rtlUnicodeToMultiByteSize widePath
    if nBufferLength = 0 then .ok { returned := multiByteLength + 1 }
    else
      match lpBuffer with
      | none => .ok { returned := 0, lastError := some (.code errorInvalidParameter) }
      | some lpBuffer =>
        if nBufferLength ≤ multiByteLength then .ok { returned := multiByteLength + 1 }
        else
          match apis.unicodeStringTo8BitString widePath (DosPath.toUShort nBufferLength) with
          | .error status => .ok { returned := 0, lastError := some (.ntStatus status) }
          | .ok bytes => faultOf .buffer do
            let buffer ← put lpBuffer 0 bytes
            let buffer ← put buffer (bytes.length - 1) [0]
            return { returned := bytes.length - 1, stored := some buffer }

/-! ## GetCurrentDirectoryA -/

/-- The size of `StaticUnicodeBuffer`, in bytes. -/
def staticUnicodeSize : Nat := 2 * 1024

/-- `nBufferLength` as `GetCurrentDirectoryA` uses it. -/
def clippedLength (nBufferLength : Nat) : Nat :=
  if nBufferLength > 2 ^ 16 - 1 then 2 ^ 16 - 1 - 2 else nBufferLength

/-- `GetCurrentDirectoryA` -/
def getCurrentDirectoryA (apis : FileApis) (d : Directory) (nBufferLength : Nat)
    (lpBuffer : List UInt8) : Except EightBitFault EightBitReply :=
  let nBufferLength := clippedLength nBufferLength
  match (d.state.rtlGetCurrentDirectory staticUnicodeSize).2 with
  | none => .error .uninitialized
  | some unicode =>
    let cbAnsiString := apis.rtlUnicodeToMultiByteSize unicode
    if cbAnsiString < nBufferLength then
      match apis.unicodeStringTo8BitString unicode (DosPath.toUShort (nBufferLength + 1)) with
      | .error status => .ok { returned := 0, lastError := some (.ntStatus status) }
      | .ok bytes => faultOf .buffer do
        let buffer ← put lpBuffer 0 bytes
        return { returned := bytes.length - 1, stored := some buffer }
    else .ok { returned := cbAnsiString + 1 }

/-! ## GetFullPathNameA -/

/-- What `GetFullPathNameA` finds when it is called. -/
structure FullPathContext extends DosPath.Context where
  /-- `Ubuff`, with room for a null behind `MAX_PATH` characters; there may be no memory. -/
  ubuff : Option { buffer : List WCHAR // buffer.length = maxPath + 1 }
  /-- There is memory for `UnicodeString`. -/
  allocatesName : Bool
  /-- There is memory for `AnsiResult`. -/
  allocatesResult : Bool

/-- `RtlGetFullPathName_U` -/
def rtlGetFullPathNameU (c : DosPath.Context) (lpFileName : List WCHAR) (nBufferLength : Nat)
    (lpBuffer : List WCHAR) : Except DosPath.Fault DosPath.Outcome :=
  if rtlInitUnicodeStringEx lpFileName = none then .ok (.returned 0)
  else do
    let full ← rtlGetFullPathNameUstr c lpFileName nBufferLength lpBuffer
    return full.outcome

/-- `Ldk8BitStringToDynamicUnicodeString` -/
def eightBitStringToDynamicUnicodeString (apis : FileApis) (c : FullPathContext)
    (sourceString : List UInt8) : Except NtStatus (List WCHAR) :=
  let text := apis.page.toWide sourceString
  if 2 ^ 16 ≤ 2 * (text.length + 1) then .error .invalidParameter
  else if c.allocatesName = false then .error .noMemory
  else .ok text

/-- The path in `Ubuff`, up to its null. -/
def textOf (o : DosPath.Output) : List WCHAR := o.buffer.takeWhile (· ≠ 0)

/-- From the size of the path in `Ubuff` on; `size` is `UnicodeLength`, which now counts bytes. -/
def convertFullPath (apis : FileApis) (c : FullPathContext) (o : DosPath.Output)
    (part : Option Nat) (nBufferLength : Nat) (lpBuffer : List UInt8) (lpFilePart : Bool) :
    Except EightBitFault EightBitReply :=
  let size := apis.rtlUnicodeToMultiByteSize (o.buffer.take o.dest)
  if size ≠ 0 ∧ size < nBufferLength then
    if c.allocatesResult = false then
      .ok { returned := 0, lastError := some (.ntStatus .noMemory) }
    else
      match apis.unicodeStringTo8BitString (textOf o) (2 ^ 16) with
      | .error status => .ok { returned := 0, lastError := some (.ntStatus status) }
      | .ok bytes => do
        let piece ← faultOf .block (slice bytes 0 (size + 1))
        let buffer ← faultOf .buffer (put lpBuffer 0 piece)
        let prefixLength := part.map fun part =>
          apis.rtlUnicodeToMultiByteSize (o.buffer.take part)
        return {
          returned := size, stored := some buffer
          filePart := if lpFilePart then some prefixLength else none }
  else .ok { returned := if size ≠ 0 then size + 1 else 0 }

/-- `GetFullPathNameA` -/
def getFullPathNameA (apis : FileApis) (c : FullPathContext) (lpFileName : List UInt8)
    (nBufferLength : Nat) (lpBuffer : List UInt8) (lpFilePart : Bool) :
    Except EightBitFault EightBitReply :=
  match eightBitStringToDynamicUnicodeString apis c lpFileName with
  | .error status => .ok { returned := 0, lastError := some (.ntStatus status) }
  | .ok name =>
    match c.ubuff with
    | none => .ok { returned := 0, lastError := some (.ntStatus .noMemory) }
    | some ubuff => do
      match ← faultOf .fullPath (rtlGetFullPathNameU c.toContext name (2 * maxPath) ubuff.val) with
      | .stored o part => convertFullPath apis c o part nBufferLength lpBuffer lpFilePart
      | .returned unicodeLength =>
        -- the size that would be enough is taken for that of a path
        if unicodeLength ≤ 2 * maxPath + 2 then
          if unicodeLength = 0 then return { returned := 0 } else .error .uninitialized
        else return { returned := 0 }

end Ldk.FileApi
