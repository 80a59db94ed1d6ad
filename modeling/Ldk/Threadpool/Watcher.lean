import Mathlib
import Ldk.Lib.TransitionSystem

/-!
# Threadpool objects with a watcher thread

`TP_TIMER` and `TP_WAIT` objects have the same shape: a `Flags` word, an outstanding count with
its event, a control event, a spin lock, and a thread of their own that waits for what is due and
runs the callback. `Kind` names the places where the two differ; `Timer` and `Wait` fill them in.

- Interlocked operations on `Flags` are single steps. `SetFlag` and `ClearFlag` are a read step
  and a write step of the whole word.
- Everything else that a routine does under the spin lock touches only fields that the lock
  protects, and goes with the step that takes or releases the lock.
- The watcher thread is one party; the calls of clients, callbacks included, are the others.
- `LockExact`: the lock is owned by the party that is in a section of several steps.
-/

namespace Ldk.Threadpool

open TransitionSystem

/-- The bits of `Flags`; a `TP_WAIT` has no `EXPIRED`. -/
structure Flags where
  deleteRequested : Bool
  cancelRequested : Bool
  set : Bool
  expired : Bool
  deriving DecidableEq, Repr

/-- How the wait for what is due ends. -/
inductive WaitStatus where
  /-- `STATUS_WAIT_0`: the wait object is signalled. -/
  | object
  /-- `STATUS_TIMEOUT` -/
  | timeout
  /-- Any other status but that of the control event. -/
  | other
  deriving DecidableEq, Repr

/-- The parts in which the watched objects differ, over the settings `S` the lock protects and
the arguments `A` that arm the object. -/
structure Kind (S A : Type) where
  /-- The thread has something to wait for, besides the control event. -/
  armed : Flags → S → Bool
  /-- The wait for what is due may end with a status, by the copied settings and the state of
  the control event. -/
  elapses : S → Bool → WaitStatus → Bool
  /-- Statuses after which the thread looks at the object again without expiring it. -/
  ignores : WaitStatus → Bool
  /-- By the copied settings, the expiry changes `Flags`; otherwise it changes the settings. -/
  marks : S → Bool
  mark : Flags → Flags
  /-- The settings after an expiry, from the copied ones and those in place. -/
  reload : S → S → S
  /-- The test right before the callback. -/
  starts : Flags → Bool
  /-- The settings stored when the arming routine has taken the lock. -/
  store : Option A → S → S
  /-- The `ClearFlag` of a disarming call. -/
  disarmFlags : Flags → Flags
  /-- The settings after a disarming call. -/
  disarm : S → S
  /-- The `SetFlag` of an arming call. -/
  armFlags : Flags → Flags
  /-- The `ClearFlag` of an arming call. -/
  freshFlags : Flags → Flags
  /-- The close routine disarms the object after the thread has gone. -/
  unsetsOnClose : Bool
  unset : S → S
  mark_delete : ∀ f, (mark f).deleteRequested = f.deleteRequested
  disarmFlags_delete : ∀ f, (disarmFlags f).deleteRequested = f.deleteRequested
  armFlags_delete : ∀ f, (armFlags f).deleteRequested = f.deleteRequested
  freshFlags_delete : ∀ f, (freshFlags f).deleteRequested = f.deleteRequested
  starts_delete : ∀ f, starts f = true → f.deleteRequested = false
  starts_cancel : ∀ f, starts f = true → f.cancelRequested = false
  disarmFlags_starts : ∀ f, starts (disarmFlags f) = true → starts f = true
  armed_set : ∀ f s, armed f s = true → f.set = true
  disarmFlags_set : ∀ f, (disarmFlags f).set = false

/-! ## Program counters -/

/-- Steps of the watcher thread. The status of the wait is kept for the callback. -/
inductive ThreadPc (S : Type) where
  /-- The section at the top of the loop. -/
  | top
  | waitControl
  | wait (copy : S)
  /-- The section after the wait. -/
  | expire (copy : S) (status : WaitStatus)
  | markRead (status : WaitStatus)
  | markWrite (snapshot : Flags) (status : WaitStatus)
  | test (status : WaitStatus)
  | reference (status : WaitStatus)
  | count (status : WaitStatus)
  | resetEvent (status : WaitStatus)
  /-- The callback runs. -/
  | callback (status : WaitStatus)
  | complete
  | clearCancel
  | setEvent
  | dereference
  | exitDereference
  | exited
  deriving DecidableEq, Repr

/-- The thread waits, and the control event wakes it. -/
def ThreadPc.waits {S : Type} : ThreadPc S → Bool
  | .waitControl | .wait _ => true
  | _ => false

/-- Steps of the client routines. -/
inductive ClientPc (A : Type) where
  | idle
  /-- `SetThreadpoolTimer` or `SetThreadpoolWait`; no argument disarms. -/
  | setLock (arg : Option A)
  | setRead (arg : Option A)
  | setWrite (arg : Option A) (snapshot : Flags)
  | freshRead (arg : A)
  | freshWrite (arg : A) (snapshot : Flags)
  | setSignal (arg : Option A)
  | setRelease (arg : Option A)
  /-- `WaitForThreadpoolTimerCallbacks` or `WaitForThreadpoolWaitCallbacks`. -/
  | waitReference (fCancelPendingCallbacks : Bool)
  | waitCancel
  | waitSignal
  | waitEvent (fCancelPendingCallbacks : Bool)
  | waitClearCancel
  | waitDereference
  /-- `CloseThreadpoolTimer` or `CloseThreadpoolWait`, called from the callback or not. -/
  | closeOr (fromCallback : Bool)
  | closeSignal (previous fromCallback : Bool)
  | closeHandle (previous fromCallback : Bool)
  | closeWait
  | closeZwClose (handle : Bool)
  | closeLock
  | closeRead
  | closeWrite (snapshot : Flags)
  | closeDereference
  deriving DecidableEq, Repr

/-- Who owns the spin lock. -/
inductive Owner (C : Type) where
  | thread
  | client (c : C)
  deriving DecidableEq, Repr

/-! ## The object -/

/-- A watched object, over settings `S`, arming arguments `A` and clients `C`. -/
structure State (S A C : Type) where
  referenceCount : Nat
  flags : Flags
  outstandingCount : Nat
  event : Bool
  controlEvent : Bool
  lock : Option (Owner C)
  /-- `ThreadHandle` is not null. -/
  threadHandle : Bool
  settings : S
  thread : ThreadPc S
  client : C → ClientPc A
  /-- Auxiliary: `DELETE_REQUESTED` has been or-ed into `Flags`. -/
  closeRequested : Bool
  /-- Auxiliary: the arguments of the last set call, once it has completed and while no other has
  taken the lock. -/
  current : Option A
  /-- Auxiliary: the thread has copied the settings since a set call last took the lock. -/
  copied : Bool
  /-- Auxiliary: a wait with those settings has ended. -/
  elapsed : Bool
  /-- Auxiliary: a disarming call has completed and no arming call has begun since. -/
  disarmed : Bool
  /-- Auxiliary: since then a wait for the callbacks has returned. -/
  quiet : Bool

variable {S A C : Type} [DecidableEq C] (k : Kind S A)

namespace State

def threadTo (s : State S A C) (p : ThreadPc S) : State S A C := { s with thread := p }

def clientTo (s : State S A C) (c : C) (p : ClientPc A) : State S A C :=
  { s with client := Function.update s.client c p }

/-! ## The watcher thread -/

/-- `Flags` is read under the lock; the settings are copied when there is something to wait for. -/
def top (s : State S A C) : State S A C :=
  if s.flags.deleteRequested then s.threadTo .exitDereference
  else if k.armed s.flags s.settings = false then s.threadTo .waitControl
  else { s.threadTo (.wait s.settings) with copied := true }

/-- The control event ends a wait. -/
def control (s : State S A C) : State S A C :=
  { s.threadTo .top with controlEvent := false }

/-- The wait for what is due ends otherwise. -/
def elapse (s : State S A C) (copy : S) (status : WaitStatus) : State S A C :=
  { s.threadTo (if k.ignores status then .top else .expire copy status) with
    elapsed := s.elapsed || s.copied }

/-- The lock is taken and `Flags` read; the section ends here unless `Flags` is to be changed. -/
def expire (s : State S A C) (copy : S) (status : WaitStatus) : State S A C :=
  if s.flags.deleteRequested || !s.flags.set then s.threadTo .top
  else if k.marks copy then { s.threadTo (.markRead status) with lock := some .thread }
  else { s.threadTo (.test status) with settings := k.reload copy s.settings }

def markRead (s : State S A C) (status : WaitStatus) : State S A C :=
  s.threadTo (.markWrite s.flags status)

/-- `Flags` is written back and the lock released. -/
def markWrite (s : State S A C) (snapshot : Flags) (status : WaitStatus) : State S A C :=
  { s.threadTo (.test status) with flags := k.mark snapshot, lock := none }

def test (s : State S A C) (status : WaitStatus) : State S A C :=
  s.threadTo (if k.starts s.flags then .reference status else .top)

def reference (s : State S A C) (status : WaitStatus) : State S A C :=
  { s.threadTo (.count status) with referenceCount := s.referenceCount + 1 }

def count (s : State S A C) (status : WaitStatus) : State S A C :=
  { s.threadTo (.resetEvent status) with outstandingCount := s.outstandingCount + 1 }

def resetEvent (s : State S A C) (status : WaitStatus) : State S A C :=
  { s.threadTo (.callback status) with event := false }

/-- The decrement in `LdkpCompleteThreadpoolTimerCallback` or `...WaitCallback`. -/
def complete (s : State S A C) : State S A C :=
  { s.threadTo (if s.outstandingCount - 1 = 0 then .clearCancel else .dereference) with
    outstandingCount := s.outstandingCount - 1 }

def clearCancel (s : State S A C) : State S A C :=
  { s.threadTo .setEvent with flags := { s.flags with cancelRequested := false } }

def setEvent (s : State S A C) : State S A C :=
  { s.threadTo .dereference with event := true }

def dereference (s : State S A C) : State S A C :=
  { s.threadTo .top with referenceCount := s.referenceCount - 1 }

/-- The thread's own reference is given back; then it terminates. -/
def exitDereference (s : State S A C) : State S A C :=
  { s.threadTo .exited with referenceCount := s.referenceCount - 1 }

/-! ## Set -/

def callSet (s : State S A C) (c : C) (arg : Option A) : State S A C :=
  { s.clientTo c (.setLock arg) with
    disarmed := s.disarmed && arg.isNone
    quiet := s.quiet && arg.isNone }

/-- The lock is taken and the arguments stored. -/
def setLock (s : State S A C) (c : C) (arg : Option A) : State S A C :=
  { s.clientTo c (.setRead arg) with
    lock := some (.client c)
    settings := k.store arg s.settings
    current := none
    copied := false
    elapsed := false }

def setRead (s : State S A C) (c : C) (arg : Option A) : State S A C :=
  s.clientTo c (.setWrite arg s.flags)

def setWrite (s : State S A C) (c : C) (arg : Option A) (snapshot : Flags) : State S A C :=
  match arg with
  | none =>
    { s.clientTo c (.setSignal none) with
      flags := k.disarmFlags snapshot
      settings := k.disarm s.settings }
  | some arg => { s.clientTo c (.freshRead arg) with flags := k.armFlags snapshot }

def freshRead (s : State S A C) (c : C) (arg : A) : State S A C :=
  s.clientTo c (.freshWrite arg s.flags)

def freshWrite (s : State S A C) (c : C) (arg : A) (snapshot : Flags) : State S A C :=
  { s.clientTo c (.setSignal (some arg)) with flags := k.freshFlags snapshot }

def setSignal (s : State S A C) (c : C) (arg : Option A) : State S A C :=
  { s.clientTo c (.setRelease arg) with controlEvent := true }

def setRelease (s : State S A C) (c : C) (arg : Option A) : State S A C :=
  { s.clientTo c .idle with
    lock := none
    current := arg
    disarmed := s.disarmed || arg.isNone }

/-! ## WaitFor...Callbacks -/

/-- The increment; the call is refused when nobody else holds a reference. -/
def waitReference (s : State S A C) (c : C) (fCancelPendingCallbacks : Bool) : State S A C :=
  { s.clientTo c
      (if s.referenceCount + 1 ≤ 1 then .idle
        else if fCancelPendingCallbacks then .waitCancel else .waitEvent false) with
    referenceCount := s.referenceCount + 1
    quiet := if s.referenceCount + 1 ≤ 1 then s.disarmed else s.quiet }

def waitCancel (s : State S A C) (c : C) : State S A C :=
  { s.clientTo c .waitSignal with flags := { s.flags with cancelRequested := true } }

def waitSignal (s : State S A C) (c : C) : State S A C :=
  { s.clientTo c (.waitEvent true) with controlEvent := true }

/-- `KeWaitForSingleObject` on the event is satisfied. -/
def waitEvent (s : State S A C) (c : C) (fCancelPendingCallbacks : Bool) : State S A C :=
  s.clientTo c (if fCancelPendingCallbacks then .waitClearCancel else .waitDereference)

def waitClearCancel (s : State S A C) (c : C) : State S A C :=
  { s.clientTo c .waitDereference with flags := { s.flags with cancelRequested := false } }

def waitDereference (s : State S A C) (c : C) : State S A C :=
  { s.clientTo c .idle with
    referenceCount := s.referenceCount - 1
    quiet := s.disarmed }

/-! ## Close -/

/-- `InterlockedOr` of `DELETE_REQUESTED`. -/
def closeOr (s : State S A C) (c : C) (fromCallback : Bool) : State S A C :=
  { s.clientTo c (.closeSignal s.flags.deleteRequested fromCallback) with
    flags := { s.flags with deleteRequested := true }
    closeRequested := true }

def closeSignal (s : State S A C) (c : C) (previous fromCallback : Bool) : State S A C :=
  { s.clientTo c (.closeHandle previous fromCallback) with controlEvent := true }

/-- `ThreadHandle` is read. -/
def closeHandle (s : State S A C) (c : C) (previous fromCallback : Bool) : State S A C :=
  s.clientTo c
    (if !previous && s.threadHandle && !fromCallback then .closeWait
      else .closeZwClose s.threadHandle)

/-- `ZwWaitForSingleObject` on the thread is satisfied. -/
def closeWait (s : State S A C) (c : C) : State S A C := s.clientTo c (.closeZwClose true)

def closeZwClose (s : State S A C) (c : C) (handle : Bool) : State S A C :=
  { s.clientTo c (if k.unsetsOnClose then .closeLock else .closeDereference) with
    threadHandle := s.threadHandle && !handle }

/-- The section of `LdkpCloseThreadpoolWaitInternal` begins. -/
def closeLock (s : State S A C) (c : C) : State S A C :=
  { s.clientTo c .closeRead with
    lock := some (.client c)
    settings := k.unset s.settings }

def closeRead (s : State S A C) (c : C) : State S A C := s.clientTo c (.closeWrite s.flags)

def closeWrite (s : State S A C) (c : C) (snapshot : Flags) : State S A C :=
  { s.clientTo c .closeDereference with
    flags := k.disarmFlags snapshot
    lock := none }

def closeDereference (s : State S A C) (c : C) : State S A C :=
  { s.clientTo c .idle with referenceCount := s.referenceCount - 1 }

end State

/-! ## The transition system -/

/-- The atomic steps. -/
inductive Action (S A C : Type) where
  | top
  | control
  | elapse (copy : S) (status : WaitStatus)
  | expire (copy : S) (status : WaitStatus)
  | markRead (status : WaitStatus)
  | markWrite (snapshot : Flags) (status : WaitStatus)
  | test (status : WaitStatus)
  | reference (status : WaitStatus)
  | count (status : WaitStatus)
  | resetEvent (status : WaitStatus)
  | endCallback (status : WaitStatus)
  | complete
  | clearCancel
  | setEvent
  | dereference
  | exitDereference
  | callSet (c : C) (arg : Option A)
  | setLock (c : C) (arg : Option A)
  | setRead (c : C) (arg : Option A)
  | setWrite (c : C) (arg : Option A) (snapshot : Flags)
  | freshRead (c : C) (arg : A)
  | freshWrite (c : C) (arg : A) (snapshot : Flags)
  | setSignal (c : C) (arg : Option A)
  | setRelease (c : C) (arg : Option A)
  | callWait (c : C) (fCancelPendingCallbacks : Bool)
  | waitReference (c : C) (fCancelPendingCallbacks : Bool)
  | waitCancel (c : C)
  | waitSignal (c : C)
  | waitEvent (c : C) (fCancelPendingCallbacks : Bool)
  | waitClearCancel (c : C)
  | waitDereference (c : C)
  | callClose (c : C) (fromCallback : Bool)
  | closeOr (c : C) (fromCallback : Bool)
  | closeSignal (c : C) (previous fromCallback : Bool)
  | closeHandle (c : C) (previous fromCallback : Bool)
  | closeWait (c : C)
  | closeZwClose (c : C) (handle : Bool)
  | closeLock (c : C)
  | closeRead (c : C)
  | closeWrite (c : C) (snapshot : Flags)
  | closeDereference (c : C)

/-- When an action may be taken. -/
def Enabled (s : State S A C) : Action S A C → Prop
  | .top => s.thread = .top ∧ s.lock = none
  | .control => s.thread.waits = true ∧ s.controlEvent = true
  | .elapse copy status =>
    s.thread = .wait copy ∧ k.elapses copy s.controlEvent status = true
  | .expire copy status => s.thread = .expire copy status ∧ s.lock = none
  | .markRead status => s.thread = .markRead status
  | .markWrite snapshot status => s.thread = .markWrite snapshot status
  | .test status => s.thread = .test status
  | .reference status => s.thread = .reference status
  | .count status => s.thread = .count status
  | .resetEvent status => s.thread = .resetEvent status
  | .endCallback status => s.thread = .callback status
  | .complete => s.thread = .complete
  | .clearCancel => s.thread = .clearCancel
  | .setEvent => s.thread = .setEvent
  | .dereference => s.thread = .dereference
  | .exitDereference => s.thread = .exitDereference
  | .callSet c _ | .callWait c _ | .callClose c _ => s.client c = .idle
  | .setLock c arg => s.client c = .setLock arg ∧ s.lock = none
  | .setRead c arg => s.client c = .setRead arg
  | .setWrite c arg snapshot => s.client c = .setWrite arg snapshot
  | .freshRead c arg => s.client c = .freshRead arg
  | .freshWrite c arg snapshot => s.client c = .freshWrite arg snapshot
  | .setSignal c arg => s.client c = .setSignal arg
  | .setRelease c arg => s.client c = .setRelease arg
  | .waitReference c fCancel => s.client c = .waitReference fCancel
  | .waitCancel c => s.client c = .waitCancel
  | .waitSignal c => s.client c = .waitSignal
  | .waitEvent c fCancel => s.client c = .waitEvent fCancel ∧ s.event = true
  | .waitClearCancel c => s.client c = .waitClearCancel
  | .waitDereference c => s.client c = .waitDereference
  | .closeOr c fromCallback => s.client c = .closeOr fromCallback
  | .closeSignal c previous fromCallback => s.client c = .closeSignal previous fromCallback
  | .closeHandle c previous fromCallback => s.client c = .closeHandle previous fromCallback
  | .closeWait c => s.client c = .closeWait ∧ s.thread = .exited
  | .closeZwClose c handle => s.client c = .closeZwClose handle
  | .closeLock c => s.client c = .closeLock ∧ s.lock = none
  | .closeRead c => s.client c = .closeRead
  | .closeWrite c snapshot => s.client c = .closeWrite snapshot
  | .closeDereference c => s.client c = .closeDereference

instance Enabled.decidable [DecidableEq S] [DecidableEq A] (s : State S A C)
    (a : Action S A C) : Decidable (Enabled k s a) := by
  cases a <;> unfold Enabled <;> infer_instance

/-- The state after an action. -/
def next (s : State S A C) : Action S A C → State S A C
  | .top => s.top k
  | .control => s.control
  | .elapse copy status => s.elapse k copy status
  | .expire copy status => s.expire k copy status
  | .markRead status => s.markRead status
  | .markWrite snapshot status => s.markWrite k snapshot status
  | .test status => s.test k status
  | .reference status => s.reference status
  | .count status => s.count status
  | .resetEvent status => s.resetEvent status
  | .endCallback _ => s.threadTo .complete
  | .complete => s.complete
  | .clearCancel => s.clearCancel
  | .setEvent => s.setEvent
  | .dereference => s.dereference
  | .exitDereference => s.exitDereference
  | .callSet c arg => s.callSet c arg
  | .setLock c arg => s.setLock k c arg
  | .setRead c arg => s.setRead c arg
  | .setWrite c arg snapshot => s.setWrite k c arg snapshot
  | .freshRead c arg => s.freshRead c arg
  | .freshWrite c arg snapshot => s.freshWrite k c arg snapshot
  | .setSignal c arg => s.setSignal c arg
  | .setRelease c arg => s.setRelease c arg
  | .callWait c fCancel => s.clientTo c (.waitReference fCancel)
  | .waitReference c fCancel => s.waitReference c fCancel
  | .waitCancel c => s.waitCancel c
  | .waitSignal c => s.waitSignal c
  | .waitEvent c fCancel => s.waitEvent c fCancel
  | .waitClearCancel c => s.waitClearCancel c
  | .waitDereference c => s.waitDereference c
  | .callClose c fromCallback => s.clientTo c (.closeOr fromCallback)
  | .closeOr c fromCallback => s.closeOr c fromCallback
  | .closeSignal c previous fromCallback => s.closeSignal c previous fromCallback
  | .closeHandle c previous fromCallback => s.closeHandle c previous fromCallback
  | .closeWait c => s.closeWait c
  | .closeZwClose c handle => s.closeZwClose k c handle
  | .closeLock c => s.closeLock k c
  | .closeRead c => s.closeRead c
  | .closeWrite c snapshot => s.closeWrite k c snapshot
  | .closeDereference c => s.closeDereference c

/-- The state the create routines leave behind, with the settings `settings`. -/
def initialState (A C : Type) (settings : S) : State S A C where
  referenceCount := 2
  flags := ⟨false, false, false, false⟩
  outstandingCount := 0
  event := true
  controlEvent := false
  lock := none
  threadHandle := true
  settings := settings
  thread := .top
  client _ := .idle
  closeRequested := false
  current := none
  copied := false
  elapsed := false
  disarmed := false
  quiet := false

/-- One watched object. -/
def watcher (C : Type) [DecidableEq C] (settings : S) : System (State S A C) (Action S A C) where
  init s := s = initialState A C settings
  enabled := Enabled k
  next := next k

instance [DecidableEq S] [DecidableEq A] (settings : S) (s : State S A C) (a : Action S A C) :
    Decidable ((watcher k C settings).enabled s a) :=
  inferInstanceAs (Decidable (Enabled k s a))

/-! ## The spin lock -/

/-- The thread is in a section that spans several steps. -/
def ThreadPc.inSection : ThreadPc S → Bool
  | .markRead _ | .markWrite _ _ => true
  | _ => false

/-- The client is in a section that spans several steps. -/
def ClientPc.inSection : ClientPc A → Bool
  | .setRead _ | .setWrite _ _ | .freshRead _ | .freshWrite _ _ | .setSignal _ | .setRelease _
  | .closeRead | .closeWrite _ => true
  | _ => false

/-- The lock is owned by the party that is in a section. -/
structure LockExact (s : State S A C) : Prop where
  thread : s.lock = some .thread ↔ s.thread.inSection = true
  client : ∀ c, s.lock = some (.client c) ↔ (s.client c).inSection = true

namespace LockExact

variable {s s' : State S A C}

omit [DecidableEq C] in
/-- The thread moves and neither enters nor leaves a section. -/
theorem threadMove (h : LockExact s) (hsection : s'.thread.inSection = s.thread.inSection)
    (hlock : s'.lock = s.lock) (hclient : s'.client = s.client) : LockExact s' :=
  ⟨by rw [hlock, hsection]; exact h.thread, by rw [hlock, hclient]; exact h.client⟩

/-- A client moves and neither enters nor leaves a section. -/
theorem clientMove (h : LockExact s) {c : C} {p q : ClientPc A} (hpc : s.client c = q)
    (hmove : s'.client = Function.update s.client c p) (hsection : p.inSection = q.inSection)
    (hlock : s'.lock = s.lock) (hthread : s'.thread = s.thread) : LockExact s' := by
  refine ⟨by rw [hlock, hthread]; exact h.thread, fun d => ?_⟩
  rw [hlock, hmove]
  by_cases hd : d = c
  · subst hd; rw [Function.update_self, hsection, ← hpc]; exact h.client d
  · rw [Function.update_of_ne hd]; exact h.client d

/-- A client takes the lock. -/
theorem clientAcquire (h : LockExact s) {c : C} {p : ClientPc A} (hfree : s.lock = none)
    (hmove : s'.client = Function.update s.client c p) (hin : p.inSection = true)
    (hlock : s'.lock = some (.client c)) (hthread : s'.thread = s.thread) : LockExact s' := by
  refine ⟨?_, fun d => ?_⟩
  · rw [hlock, hthread, ← h.thread, hfree]; simp
  · rw [hlock, hmove]
    by_cases hd : d = c
    · subst hd; simp [hin]
    · have hout := h.client d
      rw [hfree] at hout
      rw [Function.update_of_ne hd, ← hout]
      simp [Ne.symm hd]

/-- A client releases the lock. -/
theorem clientRelease (h : LockExact s) {c : C} {p q : ClientPc A} (hpc : s.client c = q)
    (hin : q.inSection = true) (hmove : s'.client = Function.update s.client c p)
    (hout : p.inSection = false) (hlock : s'.lock = none) (hthread : s'.thread = s.thread) :
    LockExact s' := by
  have hown : s.lock = some (.client c) := (h.client c).mpr (by rw [hpc]; exact hin)
  refine ⟨?_, fun d => ?_⟩
  · rw [hlock, hthread, ← h.thread, hown]; simp
  · rw [hlock, hmove]
    by_cases hd : d = c
    · subst hd; simp [hout]
    · have hother := h.client d
      rw [hown] at hother
      rw [Function.update_of_ne hd, ← hother]
      simp [Ne.symm hd]

end LockExact

theorem lockExact_step (s : State S A C) (a : Action S A C) (h : LockExact s)
    (hen : Enabled k s a) : LockExact (next k s a) := by
  cases a with
  | top =>
    have hpc : s.thread = .top := hen.1
    refine h.threadMove ?_ ?_ ?_ <;> simp only [next, State.top] <;> split_ifs <;>
      simp [State.threadTo, hpc, ThreadPc.inSection]
  | control =>
    have hpc : s.thread.inSection = false := by
      have hwaits := hen.1
      cases hthread : s.thread <;> simp_all [ThreadPc.waits, ThreadPc.inSection]
    exact h.threadMove hpc.symm rfl rfl
  | elapse copy status =>
    have hpc : s.thread = .wait copy := hen.1
    refine h.threadMove ?_ rfl rfl
    simp only [next, State.elapse, State.threadTo, hpc]
    split <;> rfl
  | expire copy status =>
    have hpc : s.thread = .expire copy status := hen.1
    simp only [next, State.expire]
    split_ifs
    · exact h.threadMove (by simp [State.threadTo, hpc, ThreadPc.inSection]) rfl rfl
    · -- the lock was free, so no client is in a section
      refine ⟨by simp [State.threadTo, ThreadPc.inSection], fun c => ?_⟩
      have hout := h.client c
      rw [hen.2] at hout
      simpa [State.threadTo] using hout
    · exact h.threadMove (by simp [State.threadTo, hpc, ThreadPc.inSection]) rfl rfl
  | markRead status =>
    have hpc : s.thread = .markRead status := hen
    exact h.threadMove (by simp [next, State.markRead, State.threadTo, hpc, ThreadPc.inSection])
      rfl rfl
  | markWrite snapshot status =>
    have hpc : s.thread = .markWrite snapshot status := hen
    -- the thread leaves its section, and the lock is free
    have hown : s.lock = some .thread := h.thread.mpr (by rw [hpc]; rfl)
    refine ⟨by simp [next, State.markWrite, State.threadTo, ThreadPc.inSection], fun c => ?_⟩
    have hout := h.client c
    rw [hown] at hout
    simpa [next, State.markWrite, State.threadTo] using hout
  | test status =>
    have hpc : s.thread = .test status := hen
    refine h.threadMove ?_ rfl rfl
    simp only [next, State.test, State.threadTo, hpc]
    split <;> rfl
  | complete =>
    have hpc : s.thread = .complete := hen
    refine h.threadMove ?_ rfl rfl
    simp only [next, State.complete, State.threadTo, hpc]
    split <;> rfl
  | reference | count | resetEvent | endCallback | clearCancel | setEvent | dereference
  | exitDereference =>
    have hpc : s.thread = _ := hen
    exact h.threadMove (by rw [hpc]; rfl) rfl rfl
  | callSet | setRead | freshRead | freshWrite | setSignal | callWait | waitCancel
  | waitSignal | waitClearCancel | waitDereference | callClose | closeOr | closeSignal
  | closeRead | closeDereference => exact h.clientMove hen rfl rfl rfl rfl
  | setLock c arg | closeLock c => exact h.clientAcquire hen.2 rfl rfl rfl rfl
  | setRelease c arg => exact h.clientRelease hen rfl rfl rfl rfl rfl
  | closeWrite c snapshot => exact h.clientRelease hen rfl rfl rfl rfl rfl
  | setWrite c arg snapshot => cases arg <;> exact h.clientMove hen rfl rfl rfl rfl
  | waitReference c fCancel =>
    exact h.clientMove hen rfl (by split_ifs <;> rfl) rfl rfl
  | waitEvent c fCancel => exact h.clientMove hen.1 rfl (by split <;> rfl) rfl rfl
  | closeHandle c previous fromCallback =>
    exact h.clientMove hen rfl (by split <;> rfl) rfl rfl
  | closeWait c => exact h.clientMove hen.1 rfl rfl rfl rfl
  | closeZwClose c handle => exact h.clientMove hen rfl (by split <;> rfl) rfl rfl

theorem lockExact_of_reachable {settings : S} {guard : State S A C → Action S A C → Prop} :
    ∀ s, (watcher k C settings).Reachable guard s → LockExact s := by
  refine System.Reachable.invariant ?_ (fun s a h hen _ => lockExact_step k s a h hen)
  rintro s rfl
  exact ⟨by simp [initialState, ThreadPc.inSection],
    fun c => by simp [initialState, ClientPc.inSection]⟩

end Ldk.Threadpool
