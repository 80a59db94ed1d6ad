import Ldk.Lib.Balance
import Ldk.Lib.OutputBuffer
import Ldk.ProcessHandle.State

/-!
# Waits on handles of both kinds

`WaitForSingleObjectEx` and `WaitForMultipleObjectsEx` of `synchapi.c`, with the references of
`processhandle.c` that they take. A call is a log of what it takes and gives back, and of its waits.

- The table of handles may change between two lookups, so there is one for each index.
- A temporary array is the list of its cells. A write outside it is a fault.
- What the kernel answers is a parameter: whether a native handle is good and what it stands for,
  which allocations succeed, and how a wait ends.
-/

namespace Ldk.ProcessHandle

open Balance OutputBuffer
open Ldk.WaitObject (synchronize)

/-! ## Status values -/

/-- `NTSTATUS` -/
abbrev NtStatus := BitVec 32

/-- `NT_SUCCESS` -/
def ntSuccess (status : NtStatus) : Bool := !status.msb

def statusSuccess : NtStatus := 0

def statusAlerted : NtStatus := 0x00000101

def statusInvalidHandle : NtStatus := 0xC0000008

def statusNoMemory : NtStatus := 0xC0000017

def statusAccessDenied : NtStatus := 0xC0000022

def statusObjectTypeMismatch : NtStatus := 0xC0000024

/-- `WAIT_FAILED` -/
def waitFailed : BitVec 32 := 0xFFFFFFFF

def errorInvalidParameter : Nat := 87

/-- What is left as the last error: a code, or a status that is translated. -/
inductive LastError where
  | code (n : Nat)
  | ntStatus (status : NtStatus)
  deriving DecidableEq, Repr

/-! ## Objects -/

/-- `LDK_WAIT_OBJECT_TYPE`, or a value that is none of it. -/
inductive WaitObjectType where
  | mutant
  | other
  deriving DecidableEq, Repr

/-- A pointer to an object. -/
inductive Pointer (ω ν : Type) where
  | null
  /-- `&LdkCurrentPeb()->ProcessExitEvent` -/
  | processExitEvent
  /-- `&WaitObject->Object.Mutant` -/
  | mutant (object : ω)
  /-- The body of a native object. -/
  | body (object : ν)
  /-- A dispatcher object in the body, or elsewhere, that the type of the object names. -/
  | dispatcher (object : ν)
  deriving DecidableEq, Repr

/-- The temporary arrays. -/
inductive TempArray where
  | objects
  | isLdkObject
  | waitBlocks
  | handles
  deriving DecidableEq, Repr

/-- What is taken and given back. -/
inductive Resource (ω ν : Type) where
  | waitObject (object : ω)
  | native (object : ν)
  | array (array : TempArray)
  deriving DecidableEq, Repr

/-- A cell is `none` until it has been written. -/
abbrev Cells (α : Type) := List (Option α)

/-- The calls of the kernel that a log notes. -/
inductive Call (ω ν : Type) where
  | keWaitForSingleObject (object : Pointer ω ν) (alertable : Bool) (timeout : Option Int)
  /-- The cells of the array, and how many wait blocks there are. -/
  | keWaitForMultipleObjects (count : Nat) (objects : Cells (Pointer ω ν)) (waitAll : Bool)
      (alertable : Bool) (timeout : Option Int) (waitBlocks : Nat)
  | zwWaitForSingleObject (handle : HandleValue) (alertable : Bool) (timeout : Option Int)
  | zwWaitForMultipleObjects (handles : List HandleValue) (waitAll : Bool) (alertable : Bool)
      (timeout : Option Int)
  /-- A reference to an object that is none of that kind is given up. -/
  | strayDereference (object : Option (Pointer ω ν))
  deriving DecidableEq, Repr

/-- A log of events. -/
abbrev Log (ω ν : Type) := List (Event (Resource ω ν) (Call ω ν))

/-- What a call finds. -/
structure Environment (ω ν : Type) where
  /-- The list of handles at the lookup of an index. -/
  table : Nat → List (Record ω)
  /-- `WaitObject->Type` -/
  objectType : ω → WaitObjectType
  /-- `ObReferenceObjectByHandle` with `SYNCHRONIZE`, for the handle at an index. -/
  obReferenceObjectByHandle : Nat → HandleValue → Except NtStatus ν
  /-- Whether the memory for an array is there. -/
  allocates : TempArray → Bool
  /-- How many waits are alerted, and how the one behind them ends. -/
  alerts : Nat
  answer : NtStatus
  /-- What is returned without a reference is a failure. -/
  obReference_fails : ∀ index handle status,
    obReferenceObjectByHandle index handle = .error status → ntSuccess status = false
  answer_ne : answer ≠ statusAlerted

variable {ω ν : Type} (env : Environment ω ν)

/-! ## References -/

/-- `LdkpGetWaitObjectDispatcher` -/
def ldkpGetWaitObjectDispatcher (waitObject : ω) : Pointer ω ν :=
  match env.objectType waitObject with
  | .mutant => .mutant waitObject
  | .other => .null

/-- What a routine returns for a handle, and what it leaves at the two parameters. -/
structure Reference (ω ν : Type) where
  status : NtStatus
  object : Pointer ω ν
  isLdkObject : Bool
  log : Log ω ν
  deriving DecidableEq, Repr

/-- `LdkReferenceProcessWaitObject` -/
def ldkReferenceProcessWaitObject (index : Nat) (handle : HandleValue) : Reference ω ν :=
  if isCurrentProcessPseudoHandle handle then ⟨statusSuccess, .processExitEvent, true, []⟩
  else if isTaggedProcessHandle handle = false then ⟨statusObjectTypeMismatch, .null, false, []⟩
  else
    match lookupProcessHandleLocked (env.table index) handle with
    | none => ⟨statusInvalidHandle, .null, false, []⟩
    | some record =>
      if Ldk.WaitObject.hasAccess record.grantedAccess synchronize = false then
        ⟨statusAccessDenied, .null, false, []⟩
      else
        match record.type with
        | .waitObject waitObject =>
          let object := ldkpGetWaitObjectDispatcher env waitObject
          match object with
          | .null =>
            ⟨statusInvalidHandle, .null, false,
              [.take (.waitObject waitObject), .drop (.waitObject waitObject)]⟩
          | object => ⟨statusSuccess, object, true, [.take (.waitObject waitObject)]⟩
        | .currentProcess => ⟨statusSuccess, .processExitEvent, true, []⟩

/-- `LdkpDereferenceWaitObject` of `LdkpGetWaitObjectFromDispatcher` -/
def ldkpDereferenceWaitObject : Pointer ω ν → Log ω ν
  | .mutant waitObject => [.drop (.waitObject waitObject)]
  | object => [.note (.strayDereference (some object))]

/-- `ObDereferenceObject` -/
def obDereferenceObject : Pointer ω ν → Log ω ν
  | .body object => [.drop (.native object)]
  | object => [.note (.strayDereference (some object))]

variable [DecidableEq ω] [DecidableEq ν]

/-- `LdkDereferenceProcessWaitObject` -/
def ldkDereferenceProcessWaitObject (object : Pointer ω ν) (isLdkObject : Bool) : Log ω ν :=
  if isLdkObject = true ∧ object ≠ .null ∧ object ≠ .processExitEvent then
    ldkpDereferenceWaitObject object
  else if isLdkObject = false ∧ object ≠ .null then obDereferenceObject object
  else []

/-! ## Waits -/

/-- `LdkFormatTimeout`; a timeout of `INFINITE` is none. -/
def ldkFormatTimeout (milliseconds : BitVec 32) : Option Int :=
  if milliseconds = 0xFFFFFFFF then none else some (-(milliseconds.toNat * 10000 : Nat))

/-- The end of a round: the status, and the last error if there is one. -/
def afterWait (status : NtStatus) (lastError : Option LastError) : NtStatus × Option LastError :=
  if ntSuccess status then (status, lastError) else (waitFailed, some (.ntStatus status))

/-- The loop around a wait, with the number of times it is still alerted. -/
def waitLoop (answer : NtStatus) (alertable : Bool) (call : Call ω ν) :
    Nat → Option LastError → Log ω ν × NtStatus × Option LastError
  | 0, lastError => ([.note call], afterWait answer lastError)
  | alerts + 1, lastError =>
    let result := afterWait statusAlerted lastError
    if alertable = true ∧ result.1 = statusAlerted then
      let rest := waitLoop answer alertable call alerts result.2
      (.note call :: rest.1, rest.2)
    else ([.note call], result)

/-- What a routine returns, its last error, and its log. -/
structure Outcome (ω ν : Type) where
  result : BitVec 32
  lastError : Option LastError
  log : Log ω ν
  deriving DecidableEq, Repr

/-- A wait of the environment. -/
def wait (alertable : Bool) (call : Call ω ν) : Log ω ν × NtStatus × Option LastError :=
  waitLoop env.answer alertable call env.alerts none

/-- `WaitForSingleObjectEx` -/
def waitForSingleObjectEx (handle : HandleValue) (milliseconds : BitVec 32) (alertable : Bool) :
    Outcome ω ν :=
  let timeout := ldkFormatTimeout milliseconds
  let r := ldkReferenceProcessWaitObject env 0 handle
  if ntSuccess r.status then
    let waited := wait env alertable (.keWaitForSingleObject r.object alertable timeout)
    ⟨waited.2.1, waited.2.2,
      r.log ++ (waited.1 ++ ldkDereferenceProcessWaitObject r.object r.isLdkObject)⟩
  else if r.status ≠ statusObjectTypeMismatch then
    ⟨waitFailed, some (.ntStatus r.status), r.log⟩
  else
    let waited := wait env alertable (.zwWaitForSingleObject handle alertable timeout)
    ⟨waited.2.1, waited.2.2, r.log ++ waited.1⟩

/-! ## The arrays -/

def maximumWaitObjects : Nat := 64

def threadWaitObjects : Nat := 3

/-- The length of `ObjectsTmp`, `IsLdkObjectTmp` and `HandlesTmp`. -/
def tmpLength : Nat := 8

/-- The local variables of `WaitForMultipleObjectsEx`. -/
structure Locals (ω ν : Type) where
  objects : Cells (Pointer ω ν)
  isLdkObject : Cells Bool
  waitBlocks : Nat
  referencedCount : Nat
  log : Log ω ν
  deriving DecidableEq, Repr

/-- The reference to a handle of either kind. -/
def referenceHandle (index : Nat) (handle : HandleValue) : Reference ω ν :=
  let r := ldkReferenceProcessWaitObject env index handle
  if r.status = statusObjectTypeMismatch then
    match env.obReferenceObjectByHandle index handle with
    | .ok object => ⟨statusSuccess, .body object, false, r.log ++ [.take (.native object)]⟩
    | .error status => ⟨status, .null, false, r.log⟩
  else r

/-- The loop over the handles. It ends with the status of a reference that has failed. -/
def referenceHandles : Nat → List HandleValue → Locals ω ν →
    Except Outside (Locals ω ν × Option NtStatus)
  | _, [], x => .ok (x, none)
  | index, handle :: handles, x => do
    let r := referenceHandle env index handle
    let objects ← put x.objects index [some r.object]
    let isLdkObject ← put x.isLdkObject index [some r.isLdkObject]
    let x := { x with objects := objects, isLdkObject := isLdkObject, log := x.log ++ r.log }
    if ntSuccess r.status = false then return (x, some r.status)
    else referenceHandles (index + 1) handles { x with referencedCount := x.referencedCount + 1 }

/-- The loop over what has been referenced. A cell that has not been written is no object. -/
def dereferenceObjects (x : Locals ω ν) : Log ω ν :=
  (List.range x.referencedCount).flatMap fun index =>
    match x.objects[index]?.join, x.isLdkObject[index]?.join with
    | some object, some isLdkObject => ldkDereferenceProcessWaitObject object isLdkObject
    | object, _ => [.note (.strayDereference object)]

/-- `ExFreePoolWithTag` of the arrays that are not on the stack. -/
def freeArrays (count : Nat) : Log ω ν :=
  (if threadWaitObjects < count then [.drop (.array .waitBlocks)] else []) ++
    if tmpLength < count then [.drop (.array .objects), .drop (.array .isLdkObject)] else []

/-- A call that fails with a status. -/
def failedWith (status : NtStatus) (log : Log ω ν) : Outcome ω ν :=
  ⟨waitFailed, some (.ntStatus status), log⟩

/-- An allocation. -/
def allocated (array : TempArray) : Log ω ν :=
  if env.allocates array then [.take (.array array)] else []

/-- The release of an array that has been allocated. -/
def released (array : TempArray) : Log ω ν :=
  if env.allocates array then [.drop (.array array)] else []

/-- The part of `WaitForMultipleObjectsEx` behind the allocations. -/
def waitReferenced (handles : List HandleValue) (waitAll alertable : Bool) (timeout : Option Int)
    (x : Locals ω ν) : Except Outside (Outcome ω ν) := do
  let count := handles.length
  let (x, status) ← referenceHandles env 0 handles x
  match status with
  | some status =>
    return failedWith status (x.log ++ (dereferenceObjects x ++ freeArrays count))
  | none =>
    let waited := wait env alertable
      (.keWaitForMultipleObjects count x.objects waitAll alertable timeout x.waitBlocks)
    return ⟨waited.2.1, waited.2.2,
      x.log ++ (waited.1 ++ (dereferenceObjects x ++ freeArrays count))⟩

/-- The branch of `WaitForMultipleObjectsEx` with a handle of the process. -/
def waitForMixedObjects (handles : List HandleValue) (waitAll alertable : Bool)
    (timeout : Option Int) : Except Outside (Outcome ω ν) :=
  let count := handles.length
  -- `Objects` and `IsLdkObject`
  let large := decide (tmpLength < count)
  let log : Log ω ν :=
    if large then allocated env .objects ++ allocated env .isLdkObject else []
  if large && (!env.allocates .objects || !env.allocates .isLdkObject) then
    .ok (failedWith statusNoMemory (log ++ (released env .objects ++ released env .isLdkObject)))
  else
    let capacity := if large then count else tmpLength
    -- `WaitBlocks`
    if threadWaitObjects < count ∧ env.allocates .waitBlocks = false then
      .ok (failedWith statusNoMemory (log ++
        if large then [.drop (.array .objects), .drop (.array .isLdkObject)] else []))
    else
      let blocks := if threadWaitObjects < count then count else threadWaitObjects
      let log := log ++ if threadWaitObjects < count then allocated env .waitBlocks else []
      waitReferenced env handles waitAll alertable timeout
        ⟨List.replicate capacity none, List.replicate capacity none, blocks, 0, log⟩

/-- The branch of `WaitForMultipleObjectsEx` without one. -/
def waitForNativeObjects (handles : List HandleValue) (waitAll alertable : Bool)
    (timeout : Option Int) : Outcome ω ν :=
  let large := decide (tmpLength < handles.length)
  if large && !env.allocates .handles then failedWith statusNoMemory []
  else
    let waited := wait env alertable (.zwWaitForMultipleObjects handles waitAll alertable timeout)
    ⟨waited.2.1, waited.2.2,
      (if large then [.take (.array .handles)] else []) ++
        (waited.1 ++ if large then [.drop (.array .handles)] else [])⟩

/-- `LdkIsProcessHandleCandidate` -/
def ldkIsProcessHandleCandidate (handle : HandleValue) : Bool :=
  isCurrentProcessPseudoHandle handle || isTaggedProcessHandle handle

/-- `WaitForMultipleObjectsEx` -/
def waitForMultipleObjectsEx (handles : List HandleValue) (waitAll : Bool)
    (milliseconds : BitVec 32) (alertable : Bool) : Except Outside (Outcome ω ν) :=
  if handles.length = 0 ∨ maximumWaitObjects < handles.length then
    .ok ⟨waitFailed, some (.code errorInvalidParameter), []⟩
  else
    let timeout := ldkFormatTimeout milliseconds
    if handles.any ldkIsProcessHandleCandidate then
      waitForMixedObjects env handles waitAll alertable timeout
    else .ok (waitForNativeObjects env handles waitAll alertable timeout)

end Ldk.ProcessHandle
