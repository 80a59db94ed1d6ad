import Ldk.Threadpool.Timer
import Ldk.Threadpool.Wait

/-!
# Legacy timers and registered waits

`CreateTimerQueueTimer` and `RegisterWaitForSingleObject` put a record of their own around a
`TP_TIMER` or `TP_WAIT`, whose callback is a wrapper that finds the callback of the user in the
record. `DeleteTimerQueueTimer` and `UnregisterWaitEx` disarm the object, wait for its callbacks,
close it and free the record. `Routines` names the places where the two differ.

- The object is that of `Watcher`. Its clients are the routine that creates the record, the
  wrapper, which runs on the object's thread, and the routine that deletes the record.
- The record is deleted in one call, from another thread or from the callback of the user, which
  then goes on when the call has returned.
- `FreeLibrary`, cleanup groups and the other uses of a callback environment are left out: the
  objects are created without one.
-/

namespace Ldk.Threadpool.Legacy

open TransitionSystem

/-! ## Data -/

/-- The clients of the object. -/
inductive Party where
  | creator
  | wrapper
  | deleter
  deriving DecidableEq, Repr

/-- `LDK_LEGACY_TIMER_QUEUE_TIMER` or `LDK_LEGACY_REGISTERED_WAIT`, with what the arguments of the
create routine arm the object with. -/
structure Record (A : Type) where
  /-- `Magic` has the value of the type. -/
  magic : Bool
  arming : A
  /-- `WT_EXECUTEONLYONCE` is among `Flags`. -/
  executeOnlyOnce : Bool
  deleteRequested : Bool
  deriving DecidableEq, Repr

/-- Where the wrapper is. -/
inductive WrapperPc where
  | idle
  /-- `Magic` is right. -/
  | call
  /-- The callback of the user runs. -/
  | user
  /-- `Flags` and `DeleteRequested` are to be tested. -/
  | test
  | rearm
  /-- In `SetThreadpoolWait`. -/
  | rearming
  | done
  deriving DecidableEq, Repr

/-- Where the routine that deletes the record is. -/
inductive DeleterPc where
  | idle
  /-- `Magic` is to be tested. -/
  | check
  /-- `DeleteRequested` is to be set. -/
  | request
  | disarm
  /-- In `SetThreadpoolTimer` or `SetThreadpoolWait`. -/
  | disarming
  /-- In `WaitForThreadpoolTimerCallbacks` or `WaitForThreadpoolWaitCallbacks`. -/
  | waiting
  /-- In `CloseThreadpoolTimer` or `CloseThreadpoolWait`. -/
  | closing
  | free
  | returned
  deriving DecidableEq, Repr

/-- What is particular to the two records. -/
structure Routines (S A : Type) where
  kind : Kind S A
  /-- The settings of a new object. -/
  settings : S
  /-- The wrapper arms the object again, unless `DeleteRequested` is set. -/
  rearms : Bool

structure State (S A : Type) where
  pool : Threadpool.State S A Party
  record : Record A
  /-- The object has been armed by the create routine. -/
  armed : Bool
  wrapper : WrapperPc
  deleter : DeleterPc
  /-- The record is deleted by the callback of the user. -/
  fromCallback : Bool
  /-- Auxiliary: the record has been freed. -/
  freed : Bool
  /-- Auxiliary: a record that has been freed was read, written or freed again. -/
  faulted : Bool
  /-- Auxiliary: the callback of the user was called after the delete routine had returned. -/
  late : Bool

variable {S A : Type} (r : Routines S A)

namespace State

/-- The record is read or written. -/
def touch (s : State S A) : State S A := { s with faulted := s.faulted || s.freed }

/-- A step of the object. -/
def poolStep (s : State S A) (a : Threadpool.Action S A Party) : State S A :=
  { s with pool := Threadpool.next r.kind s.pool a }

/-- The create routine arms the object. -/
def arm (s : State S A) : State S A :=
  { s.touch.poolStep r (.callSet .creator (some s.record.arming)) with armed := true }

/-! ## The wrapper -/

/-- `LdkpLegacyTimerQueueTimerCallback` or `LdkpLegacyRegisteredWaitCallback` begins. -/
def enter (s : State S A) : State S A :=
  { s.touch with wrapper := if s.record.magic then .call else .done }

/-- `Callback` and `Context` are read and the callback is called. -/
def callUser (s : State S A) : State S A :=
  { s.touch with
    wrapper := .user
    late := s.late || s.deleter = .returned }

def userReturns (s : State S A) : State S A :=
  { s with wrapper := if r.rearms then .test else .done }

def test (s : State S A) : State S A :=
  { s.touch with
    wrapper := if s.record.executeOnlyOnce || s.record.deleteRequested then .done else .rearm }

/-- `SetThreadpoolWait` returns at once when the handle is not accepted. -/
def rearm (s : State S A) (accepted : Bool) : State S A :=
  if accepted then
    { s.touch.poolStep r (.callSet .wrapper (some s.record.arming)) with wrapper := .rearming }
  else { s.touch with wrapper := .done }

def rearmed (s : State S A) : State S A := { s with wrapper := .done }

/-- The wrapper returns to the thread of the object. -/
def leave (s : State S A) (status : WaitStatus) : State S A :=
  { s.poolStep r (.endCallback status) with wrapper := .idle }

/-! ## The delete routine -/

/-- `DeleteTimerQueueTimer` or `UnregisterWaitEx` is called. -/
def delete (s : State S A) (fromCallback : Bool) : State S A :=
  { s with
    deleter := .check
    fromCallback := fromCallback }

def check (s : State S A) : State S A :=
  { s.touch with
    deleter := if s.record.magic then (if r.rearms then .request else .disarm) else .returned }

def request (s : State S A) : State S A :=
  { s.touch with
    record := { s.record with deleteRequested := true }
    deleter := .disarm }

def disarm (s : State S A) : State S A :=
  { s.touch.poolStep r (.callSet .deleter none) with deleter := .disarming }

def waitCallbacks (s : State S A) : State S A :=
  { s.touch.poolStep r (.callWait .deleter true) with deleter := .waiting }

def close (s : State S A) : State S A :=
  { s.touch.poolStep r (.callClose .deleter s.fromCallback) with deleter := .closing }

/-- `Magic = 0` -/
def clearMagic (s : State S A) : State S A :=
  { s.touch with
    record := { s.record with magic := false }
    deleter := .free }

/-- `ExFreePoolWithTag` -/
def free (s : State S A) : State S A :=
  { s.touch with
    freed := true
    deleter := .returned }

end State

/-! ## The transition system -/

/-- The steps. -/
inductive Action (S A : Type) where
  /-- A step of the object's thread, or of a routine of the object that has been called. -/
  | pool (a : Threadpool.Action S A Party)
  | arm
  | enter
  | callUser
  | userReturns
  | test
  | rearm (accepted : Bool)
  | rearmed
  | leave (status : WaitStatus)
  | delete (fromCallback : Bool)
  | check
  | request
  | disarm
  | waitCallbacks
  | close
  | clearMagic
  | free

/-- The thread of the object is in the wrapper. -/
def runsCallback : ThreadPc S → Bool
  | .callback _ => true
  | _ => false

/-- Steps that are not calls, nor the return of the wrapper. -/
def isInternal : Threadpool.Action S A Party → Bool
  | .endCallback _ | .callSet _ _ | .callWait _ _ | .callClose _ _ => false
  | _ => true

/-- When an action may be taken. -/
def Enabled (s : State S A) : Action S A → Prop
  | .pool a => isInternal a = true ∧ Threadpool.Enabled r.kind s.pool a
  | .arm => s.armed = false ∧ s.pool.client .creator = .idle
  | .enter => s.wrapper = .idle ∧ runsCallback s.pool.thread = true
  | .callUser => s.wrapper = .call
  | .userReturns => s.wrapper = .user ∧ (s.fromCallback = true → s.deleter = .returned)
  | .test => s.wrapper = .test
  | .rearm _ => s.wrapper = .rearm ∧ s.pool.client .wrapper = .idle
  | .rearmed => s.wrapper = .rearming ∧ s.pool.client .wrapper = .idle
  | .leave status => s.wrapper = .done ∧ s.pool.thread = .callback status
  | .delete fromCallback => s.deleter = .idle ∧ s.armed = true ∧ s.pool.client .creator = .idle ∧
    (fromCallback = true → s.wrapper = .user)
  | .check => s.deleter = .check
  | .request => s.deleter = .request
  | .disarm => s.deleter = .disarm ∧ s.pool.client .deleter = .idle
  | .waitCallbacks => s.deleter = .disarming ∧ s.pool.client .deleter = .idle
  | .close => s.deleter = .waiting ∧ s.pool.client .deleter = .idle
  | .clearMagic => s.deleter = .closing ∧ s.pool.client .deleter = .idle
  | .free => s.deleter = .free

instance Enabled.decidable [DecidableEq S] [DecidableEq A] (s : State S A) (a : Action S A) :
    Decidable (Enabled r s a) := by
  cases a <;> unfold Enabled <;> infer_instance

/-- The state after an action. -/
def next (s : State S A) : Action S A → State S A
  | .pool a => s.poolStep r a
  | .arm => s.arm r
  | .enter => s.enter
  | .callUser => s.callUser
  | .userReturns => s.userReturns r
  | .test => s.test
  | .rearm accepted => s.rearm r accepted
  | .rearmed => s.rearmed
  | .leave status => s.leave r status
  | .delete fromCallback => s.delete fromCallback
  | .check => s.check r
  | .request => s.request
  | .disarm => s.disarm r
  | .waitCallbacks => s.waitCallbacks r
  | .close => s.close r
  | .clearMagic => s.clearMagic
  | .free => s.free

/-- A new record, with a new object. -/
def initialState (arming : A) (executeOnlyOnce : Bool) : State S A where
  pool := Threadpool.initialState A Party r.settings
  record := ⟨true, arming, executeOnlyOnce, false⟩
  armed := false
  wrapper := .idle
  deleter := .idle
  fromCallback := false
  freed := false
  faulted := false
  late := false

def legacy : System (State S A) (Action S A) where
  init s := ∃ arming executeOnlyOnce, s = initialState r arming executeOnlyOnce
  enabled := Enabled r
  next := next r

instance [DecidableEq S] [DecidableEq A] (s : State S A) (a : Action S A) :
    Decidable ((legacy r).enabled s a) :=
  inferInstanceAs (Decidable (Enabled r s a))

/-- `CreateTimerQueueTimer` and `DeleteTimerQueueTimer` -/
def timerQueueTimer : Routines Timer.Settings Timer.Settings where
  kind := Timer.kind
  settings := ⟨0, 0, 0⟩
  rearms := false

/-- `RegisterWaitForSingleObject` and `UnregisterWaitEx` -/
def registeredWait : Routines Wait.Settings Wait.Registration where
  kind := Wait.kind
  settings := ⟨none, 0, false⟩
  rearms := true

end Ldk.Threadpool.Legacy
