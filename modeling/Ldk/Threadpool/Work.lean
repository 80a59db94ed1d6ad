import Ldk.Lib.TransitionSystem

/-!
# Threadpool work objects

One `TP_WORK` of `threadpoolapiset.c`, with any number of submissions, worker routines and
waiters that interleave their atomic steps: one interlocked operation, one event operation, one
lookaside allocation, or one part of the callback.

A submission is one call of `SubmitThreadpoolWork` together with the work item it queues, so its
program counter runs on into `LdkpThreadpoolWokerThreadRoutine`. The block of a work object keeps
its contents after it has been returned to its lookaside list.
-/

namespace Ldk.Threadpool.Work

open TransitionSystem

/-! ## Program counters -/

/-- Steps of `SubmitThreadpoolWork` and of the worker routine for the item it queues. -/
inductive SubmissionPc where
  | idle
  | checkFlags
  | reference
  | count
  | resetEvent
  | allocate
  /-- The allocation has failed: the count is taken back. -/
  | uncount
  | undoSet
  | undoDereference
  | queueItem
  /-- The call has returned; the item waits for a worker. -/
  | queued
  /-- `InvokeCallback` is known. -/
  | invoke (invokeCallback : Bool)
  | executing
  /-- `LdkpCompleteThreadpoolWorkItem`. -/
  | complete
  | clearCancel
  | setEvent
  | dereference
  | done
  /-- The call has returned without queueing an item. -/
  | rejected
  deriving DecidableEq, Repr

/-- Steps of `WaitForThreadpoolWorkCallbacks`. -/
inductive WaiterPc where
  | idle
  | reference (fCancelPendingCallbacks : Bool)
  | requestCancel
  | wait (fCancelPendingCallbacks : Bool)
  | clearCancel
  | dereference
  | returned
  /-- Returned with `STATUS_DELETE_PENDING`; the reference is not given back. -/
  | refused
  deriving DecidableEq, Repr

/-- Steps of `CloseThreadpoolWork`. -/
inductive ClosePc where
  | idle
  | requestDelete
  | dereference
  | done
  deriving DecidableEq, Repr

/-- The call of `SubmitThreadpoolWork` has returned. -/
def SubmissionPc.returned : SubmissionPc → Bool
  | .queued | .invoke _ | .executing | .complete | .clearCancel | .setEvent | .dereference
  | .done | .rejected => true
  | _ => false

/-- The callback has run to completion, or has been cancelled, or will never be queued. -/
def SubmissionPc.finished : SubmissionPc → Bool
  | .complete | .clearCancel | .setEvent | .dereference | .done | .rejected => true
  | _ => false

/-! ## The work object -/

/-- `TP_WORK`, over submissions `J` and waiters `W`. -/
structure State (J W : Type) where
  referenceCount : Nat
  /-- `LDK_TP_WORK_FLAGS_DELETE_REQUESTED` -/
  deleteRequested : Bool
  /-- `LDK_TP_WORK_FLAGS_CANCEL_REQUESTED` -/
  cancelRequested : Bool
  outstandingCount : Nat
  event : Bool
  submission : J → SubmissionPc
  waiter : W → WaiterPc
  close : ClosePc
  /-- Auxiliary: the submissions that had returned when the wait was called. -/
  before : W → J → Bool

variable {J W : Type} [DecidableEq J] [DecidableEq W]

namespace State

def submissionTo (s : State J W) (j : J) (p : SubmissionPc) : State J W :=
  { s with submission := Function.update s.submission j p }

def waiterTo (s : State J W) (w : W) (p : WaiterPc) : State J W :=
  { s with waiter := Function.update s.waiter w p }

/-! ## SubmitThreadpoolWork -/

/-- `DELETE_REQUESTED` is tested. -/
def checkFlags (s : State J W) (j : J) : State J W :=
  s.submissionTo j (if s.deleteRequested then .rejected else .reference)

def reference (s : State J W) (j : J) : State J W :=
  { s.submissionTo j .count with referenceCount := s.referenceCount + 1 }

def count (s : State J W) (j : J) : State J W :=
  { s.submissionTo j .resetEvent with outstandingCount := s.outstandingCount + 1 }

def resetEvent (s : State J W) (j : J) : State J W :=
  { s.submissionTo j .allocate with event := false }

/-- `ExAllocateFromNPagedLookasideList` for the work item. -/
def allocate (s : State J W) (j : J) (allocated : Bool) : State J W :=
  s.submissionTo j (if allocated then .queueItem else .uncount)

def uncount (s : State J W) (j : J) : State J W :=
  { s.submissionTo j (if s.outstandingCount - 1 = 0 then .undoSet else .undoDereference) with
    outstandingCount := s.outstandingCount - 1 }

def undoSet (s : State J W) (j : J) : State J W :=
  { s.submissionTo j .undoDereference with event := true }

def undoDereference (s : State J W) (j : J) : State J W :=
  { s.submissionTo j .rejected with referenceCount := s.referenceCount - 1 }

/-! ## LdkpThreadpoolWokerThreadRoutine -/

/-- `CANCEL_REQUESTED` is tested. -/
def readFlags (s : State J W) (j : J) : State J W :=
  s.submissionTo j (.invoke (!s.cancelRequested))

def invoke (s : State J W) (j : J) (invokeCallback : Bool) : State J W :=
  s.submissionTo j (if invokeCallback then .executing else .complete)

/-- The decrement in `LdkpCompleteThreadpoolWorkItem`. -/
def complete (s : State J W) (j : J) : State J W :=
  { s.submissionTo j (if s.outstandingCount - 1 = 0 then .clearCancel else .dereference) with
    outstandingCount := s.outstandingCount - 1 }

def clearCancel (s : State J W) (j : J) : State J W :=
  { s.submissionTo j .setEvent with cancelRequested := false }

def setEvent (s : State J W) (j : J) : State J W :=
  { s.submissionTo j .dereference with event := true }

def dereference (s : State J W) (j : J) : State J W :=
  { s.submissionTo j .done with referenceCount := s.referenceCount - 1 }

/-! ## WaitForThreadpoolWorkCallbacks -/

/-- The wait is called. -/
def callWait (s : State J W) (w : W) (fCancelPendingCallbacks : Bool) : State J W :=
  { s.waiterTo w (.reference fCancelPendingCallbacks) with
    before := Function.update s.before w (fun j => (s.submission j).returned) }

def waitReference (s : State J W) (w : W) (fCancelPendingCallbacks : Bool) : State J W :=
  { s.waiterTo w
      (if s.referenceCount + 1 ≤ 1 then .refused
        else if fCancelPendingCallbacks then .requestCancel else .wait false) with
    referenceCount := s.referenceCount + 1 }

def waitRequestCancel (s : State J W) (w : W) : State J W :=
  { s.waiterTo w (.wait true) with cancelRequested := true }

/-- `KeWaitForSingleObject` on the event is satisfied. -/
def waitSatisfied (s : State J W) (w : W) (fCancelPendingCallbacks : Bool) : State J W :=
  s.waiterTo w (if fCancelPendingCallbacks then .clearCancel else .dereference)

def waitClearCancel (s : State J W) (w : W) : State J W :=
  { s.waiterTo w .dereference with cancelRequested := false }

def waitDereference (s : State J W) (w : W) : State J W :=
  { s.waiterTo w .returned with referenceCount := s.referenceCount - 1 }

end State

/-! ## The transition system -/

/-- The atomic steps. -/
inductive Action (J W : Type) where
  | callSubmit (j : J)
  | checkFlags (j : J)
  | reference (j : J)
  | count (j : J)
  | resetEvent (j : J)
  | allocate (j : J) (allocated : Bool)
  | uncount (j : J)
  | undoSet (j : J)
  | undoDereference (j : J)
  | queueItem (j : J)
  | readFlags (j : J)
  | invoke (j : J) (invokeCallback : Bool)
  | endCallback (j : J)
  | complete (j : J)
  | clearCancel (j : J)
  | setEvent (j : J)
  | dereference (j : J)
  | callWait (w : W) (fCancelPendingCallbacks : Bool)
  | waitReference (w : W) (fCancelPendingCallbacks : Bool)
  | waitRequestCancel (w : W)
  | waitSatisfied (w : W) (fCancelPendingCallbacks : Bool)
  | waitClearCancel (w : W)
  | waitDereference (w : W)
  | callClose
  | closeRequestDelete
  | closeDereference

def Enabled (s : State J W) : Action J W → Prop
  | .callSubmit j => s.submission j = .idle
  | .checkFlags j => s.submission j = .checkFlags
  | .reference j => s.submission j = .reference
  | .count j => s.submission j = .count
  | .resetEvent j => s.submission j = .resetEvent
  | .allocate j _ => s.submission j = .allocate
  | .uncount j => s.submission j = .uncount
  | .undoSet j => s.submission j = .undoSet
  | .undoDereference j => s.submission j = .undoDereference
  | .queueItem j => s.submission j = .queueItem
  | .readFlags j => s.submission j = .queued
  | .invoke j invokeCallback => s.submission j = .invoke invokeCallback
  | .endCallback j => s.submission j = .executing
  | .complete j => s.submission j = .complete
  | .clearCancel j => s.submission j = .clearCancel
  | .setEvent j => s.submission j = .setEvent
  | .dereference j => s.submission j = .dereference
  | .callWait w _ => s.waiter w = .idle
  | .waitReference w fCancel => s.waiter w = .reference fCancel
  | .waitRequestCancel w => s.waiter w = .requestCancel
  | .waitSatisfied w fCancel => s.waiter w = .wait fCancel ∧ s.event = true
  | .waitClearCancel w => s.waiter w = .clearCancel
  | .waitDereference w => s.waiter w = .dereference
  | .callClose => s.close = .idle
  | .closeRequestDelete => s.close = .requestDelete
  | .closeDereference => s.close = .dereference

instance Enabled.decidable (s : State J W) (a : Action J W) : Decidable (Enabled s a) := by
  cases a <;> unfold Enabled <;> infer_instance

def next (s : State J W) : Action J W → State J W
  | .callSubmit j => s.submissionTo j .checkFlags
  | .checkFlags j => s.checkFlags j
  | .reference j => s.reference j
  | .count j => s.count j
  | .resetEvent j => s.resetEvent j
  | .allocate j allocated => s.allocate j allocated
  | .uncount j => s.uncount j
  | .undoSet j => s.undoSet j
  | .undoDereference j => s.undoDereference j
  | .queueItem j => s.submissionTo j .queued
  | .readFlags j => s.readFlags j
  | .invoke j invokeCallback => s.invoke j invokeCallback
  | .endCallback j => s.submissionTo j .complete
  | .complete j => s.complete j
  | .clearCancel j => s.clearCancel j
  | .setEvent j => s.setEvent j
  | .dereference j => s.dereference j
  | .callWait w fCancel => s.callWait w fCancel
  | .waitReference w fCancel => s.waitReference w fCancel
  | .waitRequestCancel w => s.waitRequestCancel w
  | .waitSatisfied w fCancel => s.waitSatisfied w fCancel
  | .waitClearCancel w => s.waitClearCancel w
  | .waitDereference w => s.waitDereference w
  | .callClose => { s with close := .requestDelete }
  | .closeRequestDelete => { s with deleteRequested := true, close := .dereference }
  | .closeDereference => { s with referenceCount := s.referenceCount - 1, close := .done }

/-- The state `CreateThreadpoolWork` leaves behind. -/
def initialState (J W : Type) : State J W where
  referenceCount := 1
  deleteRequested := false
  cancelRequested := false
  outstandingCount := 0
  event := true
  submission _ := .idle
  waiter _ := .idle
  close := .idle
  before _ _ := false

/-- One work object. -/
def work (J W : Type) [DecidableEq J] [DecidableEq W] : System (State J W) (Action J W) where
  init s := s = initialState J W
  enabled := Enabled
  next := next

instance (s : State J W) (a : Action J W) : Decidable ((work J W).enabled s a) :=
  inferInstanceAs (Decidable (Enabled s a))

end Ldk.Threadpool.Work
