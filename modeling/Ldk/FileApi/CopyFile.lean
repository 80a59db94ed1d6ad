import Mathlib
import Ldk.FileApi.FilePointer

/-!
# CopyFileW and CopyFile2

Two loops copy a file through a buffer of 64 KiB; `CopyFile2` tells a progress routine about
each chunk and looks at a flag that cancels the copy.

- What the file system answers is a parameter: every call may fail, a read may give fewer bytes
  than it was asked for and a write may take fewer than it was given.
- The `goto Exit` of the source is a bracket here: what has been acquired is released on the way
  out, the last first.
- A member of a message that is always the same (the stream number 1 and the two handles) is
  left out.
-/

namespace Ldk.FileApi

abbrev Name := List Char

/-! ## Numbers of the interface -/

def errorAccessDenied : BitVec 32 := 5
def errorNotEnoughMemory : BitVec 32 := 8
def errorWriteFault : BitVec 32 := 29
def errorRequestAborted : BitVec 32 := 1235
def errorRequestPaused : BitVec 32 := 3050

def fileAttributeDirectory : BitVec 32 := 0x10

def copyFileFailIfExists : BitVec 32 := 0x1
def copyFileOpenSourceForWrite : BitVec 32 := 0x4

/-- `LDK_COPY_FILE2_SUPPORTED_FLAGS` -/
def copyFile2SupportedFlags : BitVec 32 :=
  0x1 ||| 0x2 ||| 0x4 ||| 0x8 ||| 0x800 ||| 0x1000 ||| 0x2000 ||| 0x4000 ||| 0x40000 |||
    0x400000 ||| 0x800000 ||| 0x2000000

/-- `sizeof(COPYFILE2_EXTENDED_PARAMETERS)` -/
def sizeofExtendedParameters : Nat := 32

/-- `LDK_COPY_FILE_BUFFER_SIZE` -/
def copyFileBufferSize : Nat := 64 * 1024

/-- `LdkpHresultFromWin32` -/
def hresultFromWin32 (errorCode : BitVec 32) : BitVec 32 :=
  if errorCode.sle 0 then errorCode
  else (errorCode &&& 0x0000ffff#32) ||| (7#32 <<< 16) ||| 0x80000000#32

/-- `LdkpFailedHresult` -/
def failedHresult (result : BitVec 32) : Bool := result.slt 0

/-! ## The progress routine -/

/-- `COPYFILE2_MESSAGE` -/
inductive Message where
  | streamStarted (streamSize totalFileSize : Nat)
  | pollContinue
  | chunkStarted (chunkNumber chunkSize streamSize totalFileSize : Nat)
  | chunkFinished (chunkNumber chunkSize streamSize streamBytesTransferred totalFileSize
      totalBytesTransferred : Nat)
  | streamFinished (streamSize streamBytesTransferred totalFileSize totalBytesTransferred : Nat)
  deriving DecidableEq, Repr

/-- `COPYFILE2_MESSAGE_ACTION`, and the values that are none of its names. -/
inductive Action where
  | continue
  | cancel
  | stop
  | quiet
  | pause
  | other (value : Nat)
  deriving DecidableEq, Repr

/-- A progress routine answers a message by what it has been sent before, the latest first. -/
abbrev ProgressRoutine := List Message → Message → Action

/-- `COPYFILE2_EXTENDED_PARAMETERS`. The flag at `pfCancel` is looked at more than once. -/
structure ExtendedParameters where
  size : Nat
  copyFlags : BitVec 32
  cancel : Nat → Bool
  progressRoutine : Option ProgressRoutine

/-- The values that `CopyFile2` starts with. -/
def ExtendedParameters.default : ExtendedParameters where
  size := sizeofExtendedParameters
  copyFlags := 0
  cancel _ := false
  progressRoutine := none

/-- `FlagOn(CopyFlags, COPY_FILE_OPEN_SOURCE_FOR_WRITE)` -/
def ExtendedParameters.forWrite (p : ExtendedParameters) : Bool :=
  p.copyFlags &&& copyFileOpenSourceForWrite ≠ 0

/-- `FlagOn(CopyFlags, COPY_FILE_FAIL_IF_EXISTS)` -/
def ExtendedParameters.failIfExists (p : ExtendedParameters) : Bool :=
  p.copyFlags &&& copyFileFailIfExists ≠ 0

/-! ## The file system -/

/-- What `WriteFile` does: the bytes that reach the file, and the error if it fails. -/
structure Written where
  count : Nat
  error : Option (BitVec 32)

/-- The file system and the heap. An error is what `GetLastError` gives after the call. -/
structure System where
  content : List UInt8
  getFileAttributes : Name → Except (BitVec 32) (BitVec 32)
  /-- `CreateFileW` of the source, with or without `GENERIC_WRITE`. -/
  openExisting : Name → Bool → Except (BitVec 32) Unit
  /-- `CreateFileW` of the destination, with `CREATE_NEW` or `CREATE_ALWAYS`. -/
  create : Name → Bool → Except (BitVec 32) Unit
  getFileSizeEx : Option (BitVec 64)
  allocates : Bool
  /-- How many bytes a read gives at most, when there are so many left. -/
  read : Nat → Except (BitVec 32) Nat
  /-- The write of what the read has given. -/
  write : Nat → Written

/-- What is acquired on the way and has to be released. -/
inductive Resource where
  | sourceHandle
  | destinationHandle
  | buffer
  deriving DecidableEq, Repr

inductive Event where
  | acquire (resource : Resource)
  | release (resource : Resource)
  deriving DecidableEq, Repr

structure World where
  /-- The file at the new name, if there is one. -/
  destination : Option (List UInt8)
  lastError : BitVec 32
  reads : Nat
  /-- How often the flag at `pfCancel` has been looked at. -/
  checks : Nat
  /-- The messages that the progress routine has been sent, the latest first. -/
  sent : List Message
  quiet : Bool
  /-- Auxiliary: what has been acquired and released. -/
  log : List Event
  deriving DecidableEq

namespace World

variable (w : World)

/-- Before the call, with or without a file at the new name. -/
def initial (destination : Option (List UInt8)) (lastError : BitVec 32) : World :=
  ⟨destination, lastError, 0, 0, [], false, []⟩

/-- `SetLastError` -/
def setLastError (error : BitVec 32) : World := { w with lastError := error }

/-- One more read. -/
def countRead : World := { w with reads := w.reads + 1 }

/-- The file at the new name is empty. -/
def truncate : World := { w with destination := some [] }

/-- The bytes that a write has taken. -/
def append (data : List UInt8) : World :=
  { w with destination := w.destination.map (· ++ data) }

/-- Acquire a resource, go on, and release the resource on the way out. -/
def bracket {α : Type} (resource : Resource) (body : World → α × World) : α × World :=
  let run := body { w with log := w.log ++ [.acquire resource] }
  (run.1, { run.2 with log := run.2.log ++ [.release resource] })

end World

/-- `goto Exit` when the result says that something has failed. -/
def orExit (run : BitVec 32 × World) (next : World → BitVec 32 × World) : BitVec 32 × World :=
  if failedHresult run.1 then run else next run.2

/-! ## CopyFileW -/

/-- The bytes that a read gives. -/
def readFile (source : List UInt8) (size : Nat) : List UInt8 :=
  source.take (min size copyFileBufferSize)

theorem drop_readFile_lt {source : List UInt8} {size : Nat} (h : ¬ readFile source size = []) :
    (source.drop (readFile source size).length).length < source.length := by
  have hdata := List.length_pos_of_ne_nil h
  have hle : (readFile source size).length ≤ source.length := List.length_take_le' _ _
  rw [List.length_drop]
  omega

/-- The loop of `CopyFileW`, with what is left to read. -/
def copyAll (sys : System) (source : List UInt8) (w : World) : Bool × World :=
  match sys.read w.reads with
  | .error error => (false, w.countRead.setLastError error)
  | .ok size =>
    if _h : readFile source size = [] then (true, w.countRead)
    else
      let data := readFile source size
      let written := sys.write w.reads
      let w := w.countRead.append (data.take written.count)
      match written.error with
      | some error => (false, w.setLastError error)
      | none =>
        if min written.count data.length ≠ data.length then
          (false, w.setLastError errorWriteFault)
        else copyAll sys (source.drop data.length) w
termination_by source.length
decreasing_by exact drop_readFile_lt _h

/-- `CopyFileW` once both files are open. -/
def copyBytes (sys : System) (w : World) : Bool × World :=
  if sys.allocates then w.bracket .buffer (copyAll sys sys.content)
  else (false, w.setLastError errorNotEnoughMemory)

/-- `CopyFileW`, but for the access to the source that it asks for. -/
def copyPlainly (sys : System) (existingFileName newFileName : Name) (forWrite failIfExists : Bool)
    (w : World) : Bool × World :=
  match sys.getFileAttributes existingFileName with
  | .error error => (false, w.setLastError error)
  | .ok sourceAttributes =>
    if sourceAttributes &&& fileAttributeDirectory ≠ 0 then
      (false, w.setLastError errorAccessDenied)
    else
      match sys.openExisting existingFileName forWrite with
      | .error error => (false, w.setLastError error)
      | .ok _ =>
        w.bracket .sourceHandle fun w =>
          match sys.create newFileName failIfExists with
          | .error error => (false, w.setLastError error)
          | .ok _ => w.truncate.bracket .destinationHandle (copyBytes sys)

/-- `CopyFileW`, which asks for `GENERIC_READ` alone. -/
def copyFileW (sys : System) (existingFileName newFileName : Name) (failIfExists : Bool)
    (w : World) : Bool × World :=
  copyPlainly sys existingFileName newFileName false failIfExists w

/-! ## CopyFile2 -/

/-- `LdkpCopyFile2CheckCancel` -/
def checkCancel (cancel : Nat → Bool) (w : World) : BitVec 32 × World :=
  let looked := { w with checks := w.checks + 1 }
  if cancel w.checks then (hresultFromWin32 errorRequestAborted, looked) else (0, looked)

/-- `LdkpCopyFile2InvokeProgress` -/
def invokeProgress (progressRoutine : Option ProgressRoutine) (message : Message) (w : World) :
    BitVec 32 × World :=
  match progressRoutine with
  | none => (0, w)
  | some routine =>
    if w.quiet then (0, w)
    else
      let told := { w with sent := message :: w.sent }
      match routine w.sent message with
      | .continue => (0, told)
      | .quiet => (0, { told with quiet := true })
      | .pause => (hresultFromWin32 errorRequestPaused, told)
      | .cancel | .stop | .other _ => (hresultFromWin32 errorRequestAborted, told)

/-- `TotalSize`, which `LdkpCopyFile2SetSize` fills in when the size can be had. -/
def totalSize : Option (BitVec 64) → Nat
  | none => 0
  | some fileSize => if fileSize.slt 0 then 0 else fileSize.toNat

/-- The loop of `CopyFile2` and the last message, with what is left to read, `ChunkNumber` and
`BytesTransferred`. -/
def copyChunks (sys : System) (p : ExtendedParameters) (total : Nat) (source : List UInt8)
    (chunkNumber bytesTransferred : Nat) (w : World) : BitVec 32 × World :=
  orExit (checkCancel p.cancel w) fun w =>
  orExit (invokeProgress p.progressRoutine .pollContinue w) fun w =>
  match sys.read w.reads with
  | .error error => (hresultFromWin32 error, w.countRead.setLastError error)
  | .ok size =>
    if _h : readFile source size = [] then
      invokeProgress p.progressRoutine
        (.streamFinished total bytesTransferred total bytesTransferred) w.countRead
    else
      let data := readFile source size
      let chunkNumber := (chunkNumber + 1) % 2 ^ 64
      let written := sys.write w.reads
      orExit (invokeProgress p.progressRoutine
        (.chunkStarted chunkNumber data.length total total) w.countRead) fun w =>
      let w := w.append (data.take written.count)
      match written.error with
      | some error => (hresultFromWin32 error, w.setLastError error)
      | none =>
        if min written.count data.length ≠ data.length then (hresultFromWin32 errorWriteFault, w)
        else
          let bytesTransferred := (bytesTransferred + data.length) % 2 ^ 64
          orExit (invokeProgress p.progressRoutine
            (.chunkFinished chunkNumber data.length total bytesTransferred total
              bytesTransferred) w) fun w =>
          copyChunks sys p total (source.drop data.length) chunkNumber bytesTransferred w
termination_by source.length
decreasing_by exact drop_readFile_lt _h

/-- `CopyFile2` once both files are open. -/
def copyStream (sys : System) (p : ExtendedParameters) (w : World) : BitVec 32 × World :=
  let total := totalSize sys.getFileSizeEx
  orExit (invokeProgress p.progressRoutine (.streamStarted total total) w) fun w =>
    if sys.allocates then w.bracket .buffer (copyChunks sys p total sys.content 0 0)
    else (hresultFromWin32 errorNotEnoughMemory, w)

/-- `CopyFile2` -/
def copyFile2 (sys : System) (existingFileName newFileName : Option Name)
    (extendedParameters : Option ExtendedParameters) (w : World) : BitVec 32 × World :=
  match existingFileName, newFileName with
  | some existingFileName, some newFileName =>
    let p := extendedParameters.getD .default
    if p.size < sizeofExtendedParameters then (hresultFromWin32 errorInvalidParameter, w)
    else if p.copyFlags &&& ~~~copyFile2SupportedFlags ≠ 0 then
      (hresultFromWin32 errorInvalidParameter, w)
    else
      orExit (checkCancel p.cancel w) fun w =>
      match sys.getFileAttributes existingFileName with
      | .error error => (hresultFromWin32 error, w.setLastError error)
      | .ok sourceAttributes =>
        if sourceAttributes &&& fileAttributeDirectory ≠ 0 then
          (hresultFromWin32 errorAccessDenied, w)
        else
          match sys.openExisting existingFileName p.forWrite with
          | .error error => (hresultFromWin32 error, w.setLastError error)
          | .ok _ =>
            w.bracket .sourceHandle fun w =>
              match sys.create newFileName p.failIfExists with
              | .error error => (hresultFromWin32 error, w.setLastError error)
              | .ok _ => w.truncate.bracket .destinationHandle (copyStream sys p)
  | _, _ => (hresultFromWin32 errorInvalidParameter, w)

end Ldk.FileApi
