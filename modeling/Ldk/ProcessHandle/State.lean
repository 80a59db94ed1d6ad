import Ldk.WaitObject.State
import Ldk.UnicodeString

/-!
# The process handle table

The list of `processhandle.c` with the values of its handles, and the routines that work on the
process through one of them. Each lock section is one step, and so is each use of the PEB.

- One list holds handles of the process and of wait objects; a handle's value is the address of
  its record with the low bit set.
- The value of a closed handle may come back: a record may take any address that none of the list
  has.
- How a mutex is found by its name, and counted, is `Ldk.WaitObject`. Here a call that creates or
  opens one comes by any object, or fails.
-/

namespace Ldk.ProcessHandle

open TransitionSystem
open Ldk.WaitObject (AccessMask hasAccess maximumAllowed mutexModifyState)

/-! ## Handle values -/

/-- `HANDLE` -/
abbrev HandleValue := BitVec 64

/-- `LDK_PROCESS_HANDLE_TAG` -/
def processHandleTag : HandleValue := 1

/-- `LDK_PROCESS_HANDLE_MAGIC` -/
def processHandleMagic : BitVec 32 := 0x6850644C

/-- `ZwCurrentProcess()` -/
def zwCurrentProcess : HandleValue := BitVec.allOnes 64

/-- An address of pool memory, which is aligned. -/
abbrev PoolAddress := { a : HandleValue // a ≠ 0 ∧ a &&& 15 = 0 }

/-- `LdkpIsTaggedProcessHandle` -/
def isTaggedProcessHandle (handle : HandleValue) : Bool :=
  handle != 0 && handle &&& processHandleTag != 0

/-- `LdkpEncodeProcessHandle` -/
def encodeProcessHandle (processHandle : PoolAddress) : HandleValue :=
  processHandle.val ||| processHandleTag

/-- `LdkpDecodeProcessHandle` -/
def decodeProcessHandle (handle : HandleValue) : HandleValue := handle &&& ~~~processHandleTag

/-- `LdkpIsCurrentProcessPseudoHandle` -/
def isCurrentProcessPseudoHandle (handle : HandleValue) : Bool := handle == zwCurrentProcess

/-! ## The records -/

/-- `LDK_PROCESS_HANDLE_TYPE`, with the wait object. -/
inductive HandleType (ω : Type) where
  | currentProcess
  | waitObject (object : ω)
  deriving DecidableEq, Repr

/-- `LDK_PROCESS_HANDLE` -/
structure Record (ω : Type) where
  address : PoolAddress
  magic : BitVec 32
  grantedAccess : AccessMask
  type : HandleType ω
  deriving DecidableEq

variable {κ ω : Type}

/-- The value of the handle. -/
def Record.handle (r : Record ω) : HandleValue := encodeProcessHandle r.address

/-- The record is the one that a handle stands for. -/
def Record.Matches (handle : HandleValue) (r : Record ω) : Bool :=
  r.address.val == decodeProcessHandle handle && r.magic == processHandleMagic

/-- `LdkpLookupProcessHandleLocked` -/
def lookupProcessHandleLocked (handles : List (Record ω)) (handle : HandleValue) :
    Option (Record ω) :=
  if isTaggedProcessHandle handle then handles.find? (Record.Matches handle) else none

/-! ## Replies -/

/-- The errors that the routines set. -/
inductive Error where
  | invalidHandle
  | accessDenied
  | notFound
  | fileNotFound
  | noSystemResources
  /-- What `KeReleaseMutant` raises. -/
  | notOwner
  deriving DecidableEq, Repr

/-- What a routine returns: `TRUE`, `FALSE` with an error, or `FALSE` without `Handled`. -/
inductive Reply (α : Type) where
  | success (value : α)
  | failure (error : Error)
  | notHandled
  deriving DecidableEq, Repr

/-- What a routine returns through its parameters. -/
inductive Value where
  | nothing
  | handle (handle : HandleValue)
  | dword (value : BitVec 32)
  | imageName (name : List WCHAR)
  | nativeImageName (name : List UInt8)
  deriving DecidableEq, Repr

/-! ## The process -/

/-- `STATUS_PENDING` -/
def statusPending : BitVec 32 := 0x103

/-- The fields of the PEB that the routines use. -/
structure Peb where
  processId : BitVec 32
  /-- `ProcessExitStatus` -/
  exitStatus : BitVec 32
  /-- `ProcessExitEvent` is signalled. -/
  exitEvent : Bool
  fullPathName : List UInt8
  /-- `ProcessParameters->ImagePathName` -/
  imagePathName : List WCHAR
  deriving DecidableEq, Repr

/-- `LdkpSetProcessExitCode` -/
def Peb.setProcessExitCode (peb : Peb) (exitCode : BitVec 32) : Peb :=
  if peb.exitStatus = statusPending then
    { peb with exitStatus := exitCode, exitEvent := true }
  else peb

/-- `LdkpGetProcessExitCode` -/
def Peb.getProcessExitCode (peb : Peb) : BitVec 32 := peb.exitStatus

/-! ## The routines on the process

Each is given the mask that its lookup has copied out of the record, if there is one. -/

def processTerminate : AccessMask := 0x0001
def processDupHandle : AccessMask := 0x0040
def processSetInformation : AccessMask := 0x0200
def processQueryInformation : AccessMask := 0x0400
def processQueryLimitedInformation : AccessMask := 0x1000

/-- The test for a query. -/
def hasQueryAccess (granted : AccessMask) : Bool :=
  hasAccess granted processQueryLimitedInformation || hasAccess granted processQueryInformation

/-- The way through each routine: the pseudo handle, a handle of the table, another handle. -/
def throughHandle {α : Type} (permits : AccessMask → Bool) (handle : HandleValue)
    (granted : Option AccessMask) (untagged done : Reply α) : Reply α :=
  if isCurrentProcessPseudoHandle handle then done
  else if isTaggedProcessHandle handle then
    match granted with
    | none => .failure .invalidHandle
    | some mask => if permits mask then done else .failure .accessDenied
  else untagged

/-- `LdkResolveProcessHandleForNativeDuplicate` -/
def resolveProcessHandleForNativeDuplicate (processHandle : HandleValue)
    (granted : Option AccessMask) : Reply Value :=
  throughHandle (hasAccess · processDupHandle) processHandle granted
    (.success (.handle processHandle)) (.success (.handle zwCurrentProcess))

/-- `LdkResolveProcessHandleForNativeQuery` -/
def resolveProcessHandleForNativeQuery (processHandle : HandleValue)
    (granted : Option AccessMask) : Reply Value :=
  throughHandle hasQueryAccess processHandle granted
    (.success (.handle processHandle)) (.success (.handle zwCurrentProcess))

/-- `LdkGetProcessIdHandle` -/
def getProcessIdHandle (peb : Peb) (processHandle : HandleValue)
    (granted : Option AccessMask) : Reply Value :=
  throughHandle hasQueryAccess processHandle granted .notHandled (.success (.dword peb.processId))

/-- `PROCESS_NAME_NATIVE` -/
def processNameNative : BitVec 32 := 1

/-- The last part of `LdkGetProcessImageNameHandle`. -/
def Peb.imageName (peb : Peb) (flags : BitVec 32) : Reply Value :=
  if flags = processNameNative then
    if peb.fullPathName.length = 0 then .failure .notFound
    else .success (.nativeImageName peb.fullPathName)
  else if peb.imagePathName.length = 0 then .failure .notFound
  else .success (.imageName peb.imagePathName)

/-- `LdkGetProcessImageNameHandle` -/
def getProcessImageNameHandle (peb : Peb) (processHandle : HandleValue) (flags : BitVec 32)
    (granted : Option AccessMask) : Reply Value :=
  throughHandle hasQueryAccess processHandle granted .notHandled (peb.imageName flags)

/-- `LdkGetExitCodeProcessHandle` -/
def getExitCodeProcessHandle (peb : Peb) (processHandle : HandleValue)
    (granted : Option AccessMask) : Reply Value :=
  throughHandle hasQueryAccess processHandle granted .notHandled
    (.success (.dword peb.getProcessExitCode))

/-- `LdkValidateProcessHandleForSetInformation` -/
def validateProcessHandleForSetInformation (processHandle : HandleValue)
    (granted : Option AccessMask) : Reply Value :=
  throughHandle (hasAccess · processSetInformation) processHandle granted .notHandled
    (.success .nothing)

/-- `LdkTerminateProcessHandle` -/
def terminateProcessHandle (peb : Peb) (processHandle : HandleValue) (exitCode : BitVec 32)
    (granted : Option AccessMask) : Reply Value × Peb :=
  match throughHandle (hasAccess · processTerminate) processHandle granted .notHandled
    (.success .nothing) with
  | .success value => (.success value, peb.setProcessExitCode exitCode)
  | reply => (reply, peb)

/-- An operation on the process. -/
inductive Operation where
  | resolveForNativeDuplicate
  | resolveForNativeQuery
  | getProcessId
  | getProcessImageName (flags : BitVec 32)
  | getExitCode
  | validateForSetInformation
  | terminate (exitCode : BitVec 32)
  deriving DecidableEq, Repr

namespace Operation

/-- The routine of the operation. -/
def run (peb : Peb) (handle : HandleValue) (granted : Option AccessMask) :
    Operation → Reply Value × Peb
  | resolveForNativeDuplicate => (resolveProcessHandleForNativeDuplicate handle granted, peb)
  | resolveForNativeQuery => (resolveProcessHandleForNativeQuery handle granted, peb)
  | getProcessId => (getProcessIdHandle peb handle granted, peb)
  | getProcessImageName flags => (getProcessImageNameHandle peb handle flags granted, peb)
  | getExitCode => (getExitCodeProcessHandle peb handle granted, peb)
  | validateForSetInformation => (validateProcessHandleForSetInformation handle granted, peb)
  | terminate exitCode => terminateProcessHandle peb handle exitCode granted

/-- The mask has the right that the operation requires. -/
def permits : Operation → AccessMask → Bool
  | resolveForNativeDuplicate => (hasAccess · processDupHandle)
  | resolveForNativeQuery | getProcessId | getProcessImageName _ | getExitCode => hasQueryAccess
  | validateForSetInformation => (hasAccess · processSetInformation)
  | terminate _ => (hasAccess · processTerminate)

/-- The PEB has what the operation is to return: there is an image name. -/
def Available (peb : Peb) : Operation → Prop
  | getProcessImageName flags =>
    if flags = processNameNative then peb.fullPathName ≠ [] else peb.imagePathName ≠ []
  | _ => True

end Operation

/-! ## The routines on the table -/

/-- `DUPLICATE_CLOSE_SOURCE` -/
def duplicateCloseSource : BitVec 32 := 1

/-- `DUPLICATE_SAME_ACCESS` -/
def duplicateSameAccess : BitVec 32 := 2

/-- `FlagOn` -/
def flagOn (options flag : BitVec 32) : Bool := options &&& flag != 0

/-- What a call asks for. -/
inductive Request where
  | createCurrentProcess (access : AccessMask)
  /-- `LdkCreateMutantHandle` or `LdkOpenMutantHandle`. -/
  | createMutant (access : AccessMask)
  | close (handle : HandleValue)
  | duplicate (source : HandleValue) (access : AccessMask) (options : BitVec 32)
  | releaseMutant (handle : HandleValue)
  | process (operation : Operation) (handle : HandleValue)
  deriving DecidableEq, Repr

/-- How far a call has come, with its local variables. -/
inductive Stage (ω : Type) where
  | notCalled
  /-- On the way to the wait object. -/
  | obtaining (access : AccessMask)
  /-- At `LdkpCreateProcessHandle`; the source is to be closed then. -/
  | inserting (access : AccessMask) (type : HandleType ω) (source : Option HandleValue)
  /-- About to remove the handle; a duplicate returns the reply whatever comes of it. -/
  | removing (handle : HandleValue) (reply : Option (Reply Value))
  | lookingUpSource (source : HandleValue) (access : AccessMask) (options : BitVec 32)
  | lookingUpMutant (handle : HandleValue)
  /-- At `KeReleaseMutant`. -/
  | releasing (object : ω)
  | lookingUp (operation : Operation) (handle : HandleValue)
  /-- The lookup is over; of the record it found only the mask is kept. -/
  | answering (operation : Operation) (handle : HandleValue) (found : Option (Record ω))
  | answered (operation : Operation) (handle : HandleValue) (found : Option (Record ω))
    (reply : Reply Value)
  | returned (reply : Reply Value)

/-- A call up to its first lock section. -/
def Request.start : Request → Stage ω
  | createCurrentProcess access => .inserting access .currentProcess none
  | createMutant access => .obtaining access
  | close handle =>
    if isCurrentProcessPseudoHandle handle then .returned (.failure .invalidHandle)
    else if isTaggedProcessHandle handle then .removing handle none
    else .returned .notHandled
  | duplicate source access options =>
    if isCurrentProcessPseudoHandle source then
      .inserting (if flagOn options duplicateSameAccess then maximumAllowed else access)
        .currentProcess none
    else if isTaggedProcessHandle source then .lookingUpSource source access options
    else .returned .notHandled
  | releaseMutant handle =>
    if isTaggedProcessHandle handle then .lookingUpMutant handle else .returned .notHandled
  | process operation handle =>
    if isCurrentProcessPseudoHandle handle then .answering operation handle none
    else if isTaggedProcessHandle handle then .lookingUp operation handle
    else .answering operation handle none

/-- The test of `LdkReleaseMutantHandle` under the lock. -/
def releaseMutantHandle : Option (Record ω) → Except Error ω
  | some ⟨_, _, granted, .waitObject object⟩ =>
    if hasAccess granted mutexModifyState then .ok object else .error .accessDenied
  | _ => .error .invalidHandle

structure State (κ ω : Type) where
  /-- `LdkpProcessHandleListHead` -/
  handles : List (Record ω)
  peb : Peb
  stage : κ → Stage ω

namespace State

variable [DecidableEq κ] (s : State κ ω) (c : κ)

def goto (v : Stage ω) : State κ ω := { s with stage := Function.update s.stage c v }

def setHandles (handles : List (Record ω)) : State κ ω := { s with handles := handles }

/-- `LdkpLookupProcessHandleLocked` -/
def lookup (handle : HandleValue) : Option (Record ω) :=
  lookupProcessHandleLocked s.handles handle

/-- `LdkpCreateProcessHandle`, with the memory the lookaside list gives. -/
def insert (access : AccessMask) (type : HandleType ω) (source : Option HandleValue) :
    Option PoolAddress → State κ ω
  | none => s.goto c (.returned (.failure .noSystemResources))
  | some address =>
    (s.setHandles (s.handles ++ [⟨address, processHandleMagic, access, type⟩])).goto c
      (match source with
        | none => .returned (.success (.handle (encodeProcessHandle address)))
        | some h => .removing h (some (.success (.handle (encodeProcessHandle address)))))

/-- The lock section of `LdkCloseProcessHandle`. -/
def remove (handle : HandleValue) (reply : Option (Reply Value)) : State κ ω :=
  match s.lookup handle with
  | none => s.goto c (.returned (reply.getD (.failure .invalidHandle)))
  | some _ =>
    (s.setHandles (s.handles.eraseP (Record.Matches handle))).goto c
      (.returned (reply.getD (.success .nothing)))

/-- The lock section of `LdkDuplicateProcessHandle`. -/
def lookUpSource (source : HandleValue) (access : AccessMask) (options : BitVec 32) :
    State κ ω :=
  match s.lookup source with
  | none => s.goto c (.returned (.failure .invalidHandle))
  | some r =>
    s.goto c (.inserting (if flagOn options duplicateSameAccess then r.grantedAccess else access)
      r.type (if flagOn options duplicateCloseSource then some source else none))

/-- The lock section of `LdkReleaseMutantHandle`. -/
def lookUpMutant (handle : HandleValue) : State κ ω :=
  match releaseMutantHandle (s.lookup handle) with
  | .error error => s.goto c (.returned (.failure error))
  | .ok object => s.goto c (.releasing object)

/-- What follows the lookup of an operation. -/
def answer (operation : Operation) (handle : HandleValue) (found : Option (Record ω)) :
    State κ ω :=
  let result := operation.run s.peb handle (found.map Record.grantedAccess)
  State.goto { s with peb := result.2 } c (.answered operation handle found result.1)

end State

/-! ## The transition system -/

/-- The atomic steps, with the local variables of the call. -/
inductive Action (κ ω : Type) where
  | begin (c : κ) (request : Request)
  | obtain (c : κ) (access : AccessMask) (object : Except Error ω)
  | insert (c : κ) (access : AccessMask) (type : HandleType ω) (source : Option HandleValue)
    (address : Option PoolAddress)
  | remove (c : κ) (handle : HandleValue) (reply : Option (Reply Value))
  | lookUpSource (c : κ) (source : HandleValue) (access : AccessMask) (options : BitVec 32)
  | lookUpMutant (c : κ) (handle : HandleValue)
  | release (c : κ) (object : ω) (raised : Bool)
  | lookUp (c : κ) (operation : Operation) (handle : HandleValue)
  | answer (c : κ) (operation : Operation) (handle : HandleValue) (found : Option (Record ω))

def Enabled (s : State κ ω) : Action κ ω → Prop
  | .begin c _ => s.stage c = .notCalled
  | .obtain c access _ => s.stage c = .obtaining access
  | .insert c access type source address =>
    s.stage c = .inserting access type source ∧ ∀ a ∈ address, ∀ r ∈ s.handles, r.address ≠ a
  | .remove c handle reply => s.stage c = .removing handle reply
  | .lookUpSource c source access options => s.stage c = .lookingUpSource source access options
  | .lookUpMutant c handle => s.stage c = .lookingUpMutant handle
  | .release c object _ => s.stage c = .releasing object
  | .lookUp c operation handle => s.stage c = .lookingUp operation handle
  | .answer c operation handle found => s.stage c = .answering operation handle found

variable [DecidableEq κ]

def next (s : State κ ω) : Action κ ω → State κ ω
  | .begin c request => s.goto c request.start
  | .obtain c access (.ok object) => s.goto c (.inserting access (.waitObject object) none)
  | .obtain c _ (.error error) => s.goto c (.returned (.failure error))
  | .insert c access type source address => s.insert c access type source address
  | .remove c handle reply => s.remove c handle reply
  | .lookUpSource c source access options => s.lookUpSource c source access options
  | .lookUpMutant c handle => s.lookUpMutant c handle
  | .release c _ raised =>
    s.goto c (.returned (if raised then .failure .notOwner else .success .nothing))
  | .lookUp c operation handle => s.goto c (.answering operation handle (s.lookup handle))
  | .answer c operation handle found => s.answer c operation handle found

/-- Any number of calls on the handles of one process. -/
def processHandles (κ ω : Type) [DecidableEq κ] : System (State κ ω) (Action κ ω) where
  init s := s.handles = [] ∧ ∀ c, s.stage c = .notCalled
  enabled := Enabled
  next := next

end Ldk.ProcessHandle
