import Ldk.Lib.TransitionSystem

/-!
# Threads, the startup gate and the drain

The thread contexts of `processthreadsapi.c`, with any number of calls of `CreateThread`,
`SuspendThread`, `ResumeThread` and of shutdowns (`LdkpBeginThreadContextShutdown` followed by
`LdkpWaitForThreadContexts`). Each part under the fast mutex, each call of the system, each set event
and each end of a wait is one step.

- A call of `CreateThread` has a name, and so have its context and its thread.
- The id of a thread is not used again as long as its context refers to the thread object.
-/

namespace Ldk.ThreadContext

open TransitionSystem

/-- `MAXIMUM_SUSPEND_COUNT` -/
def maximumSuspendCount : Nat := 127

/-! ## The state -/

/-- How far a call of `CreateThread` has come. -/
inductive Creator where
  | notCalled
  /-- The context is set up; about to look at `LdkpThreadContextShutdown`. -/
  | checking
  /-- Counted; at `PsCreateSystemThread`. -/
  | creating
  /-- At `PsLookupThreadByThreadId`. -/
  | lookingUp
  /-- About to link the context. -/
  | linking
  /-- The thread has not been found and has been cancelled; at `ZwWaitForSingleObject`. -/
  | waiting
  /-- Has failed; about to complete the creation. -/
  | completing
  /-- Has failed; about to free the context. -/
  | freeing
  | returned (success : Bool)
  deriving DecidableEq, Repr

/-- The call counts in `LdkpThreadContextCreationCount`. -/
def Creator.inProgress : Creator → Prop
  | .creating | .lookingUp | .linking | .waiting | .completing => True
  | _ => False

/-- Where the system thread is. -/
inductive ThreadStage where
  | notCreated
  /-- Reads its context and waits for `StartEvent`. -/
  | gate
  /-- The wait is over; about to read `ShutdownCancelled`. -/
  | released
  /-- Past the gate. -/
  | starting
  /-- In the caller's start routine. -/
  | running
  | terminated
  deriving DecidableEq, Repr

/-- The thread can still read or wait on its context. -/
def ThreadStage.touches : ThreadStage → Bool
  | .gate | .released => true
  | _ => false

/-- `LDK_THREAD_CONTEXT`, with the call that makes it and the thread it is for. -/
structure Context where
  creator : Creator
  thread : ThreadStage
  startupSuspendCount : Nat
  startReleased : Bool
  shutdownCancelled : Bool
  startEvent : Bool
  /-- Auxiliary: the memory has been given back. -/
  freed : Bool
  /-- Auxiliary: how often the start routine has been entered. -/
  entered : Nat
  /-- Auxiliary: `ResumeThread` has brought the suspend count to `0`. -/
  resumed : Bool
  deriving DecidableEq, Repr

/-- How far a shutdown has come. -/
inductive Waiter (γ : Type) where
  | notCalled
  /-- At the head of the loop of `LdkpWaitForThreadContexts`. -/
  | looping
  | waitingThread (c : γ)
  | waitingCreation
  | returned
  deriving DecidableEq, Repr

structure State (γ ω : Type) where
  /-- `LdkpThreadContextListHead` -/
  list : List γ
  creationCount : Nat
  /-- `LdkpThreadContextCreationCompleteEvent` -/
  creationComplete : Bool
  shutdown : Bool
  context : γ → Context
  waiter : ω → Waiter γ

variable {γ ω : Type} [DecidableEq γ] [DecidableEq ω]

namespace State

variable (s : State γ ω) (c : γ)

def setContext (b : Context) : State γ ω := { s with context := Function.update s.context c b }

def gotoCreator (creator : Creator) : State γ ω :=
  s.setContext c { s.context c with creator := creator }

def gotoThread (thread : ThreadStage) : State γ ω :=
  s.setContext c { s.context c with thread := thread }

def gotoWaiter (w : ω) (stage : Waiter γ) : State γ ω :=
  { s with waiter := Function.update s.waiter w stage }

/-- `LdkpReapTerminatedThreadContextsLocked` -/
def reap : State γ ω :=
  { s with
    list := s.list.filter fun c => (s.context c).thread ≠ .terminated
    context := fun c =>
      if c ∈ s.list ∧ (s.context c).thread = .terminated then { s.context c with freed := true }
      else s.context c }

/-- `LdkpCompleteThreadContextCreationLocked` -/
def completeCreation : State γ ω :=
  { s with
    creationCount := s.creationCount - 1
    creationComplete := if s.creationCount - 1 = 0 then true else s.creationComplete }

/-! ## CreateThread -/

/-- The context is allocated and set up. -/
def call (createSuspended allocated : Bool) : State γ ω :=
  if allocated then
    s.setContext c { s.context c with
      creator := .checking
      startupSuspendCount := if createSuspended then 1 else 0 }
  else s.gotoCreator c (.returned false)

/-- The test of `LdkpThreadContextShutdown` under the mutex. -/
def check : State γ ω :=
  let s := s.reap
  if s.shutdown then s.gotoCreator c .freeing
  else
    { s.gotoCreator c .creating with
      creationComplete := if s.creationCount = 0 then false else s.creationComplete
      creationCount := s.creationCount + 1 }

/-- `PsCreateSystemThread` -/
def create (created : Bool) : State γ ω :=
  if created then
    s.setContext c { s.context c with creator := .lookingUp, thread := .gate }
  else s.gotoCreator c .completing

/-- `PsLookupThreadByThreadId`; a thread that is not found is cancelled. -/
def lookUp (found : Bool) : State γ ω :=
  if found then s.gotoCreator c .linking
  else
    s.setContext c { s.context c with
      creator := .waiting
      shutdownCancelled := true
      startReleased := true
      startEvent := true }

/-- The creation is over without a context in the list. -/
def complete : State γ ω := s.completeCreation.gotoCreator c .freeing

def free : State γ ω :=
  s.setContext c { s.context c with creator := .returned false, freed := true }

/-- The context is linked, and the thread released unless it is to start suspended. -/
def link (createSuspended : Bool) : State γ ω :=
  let s := { s.completeCreation with list := s.list ++ [c] }
  let b := { s.context c with creator := .returned true }
  if ! createSuspended ∨ s.shutdown then
    s.setContext c { b with
      shutdownCancelled := if s.shutdown then true else b.shutdownCancelled
      startupSuspendCount := if s.shutdown then 0 else b.startupSuspendCount
      startReleased := true
      startEvent := true }
  else s.setContext c b

/-! ## SuspendThread and ResumeThread -/

def suspend : State γ ω :=
  if c ∉ s.list then s
  else if (s.context c).startReleased ∨ (s.context c).startupSuspendCount = 0 then s
  else if (s.context c).startupSuspendCount ≥ maximumSuspendCount then s
  else
    s.setContext c { s.context c with
      startupSuspendCount := (s.context c).startupSuspendCount + 1 }

def resume : State γ ω :=
  if c ∉ s.list then s
  else if (s.context c).startupSuspendCount = 0 then s
  else if (s.context c).startupSuspendCount - 1 = 0 then
    s.setContext c { s.context c with
      startupSuspendCount := 0, startReleased := true, startEvent := true, resumed := true }
  else
    s.setContext c { s.context c with
      startupSuspendCount := (s.context c).startupSuspendCount - 1 }

/-! ## LdkpThreadStartRoutine -/

/-- The test of `ShutdownCancelled`. -/
def passGate : State γ ω :=
  if (s.context c).shutdownCancelled then s.gotoThread c .terminated
  else s.gotoThread c .starting

/-- The start routine is called, on an expanded stack or directly. -/
def enter : State γ ω :=
  s.setContext c { s.context c with thread := .running, entered := (s.context c).entered + 1 }

/-! ## The shutdown -/

/-- `LdkpBeginThreadContextShutdown` -/
def beginShutdown (w : ω) : State γ ω :=
  let s := { s with shutdown := true }.reap
  { s.gotoWaiter w .looping with
    context := fun c =>
      if c ∈ s.list ∧ (s.context c).startReleased = false then
        { s.context c with
          shutdownCancelled := true, startReleased := true, startupSuspendCount := 0,
          startEvent := true }
      else s.context c }

/-- The part under the mutex of the loop of `LdkpWaitForThreadContexts`. -/
def look (w : ω) : State γ ω :=
  let s := s.reap
  match s.list with
  | c :: _ => s.gotoWaiter w (.waitingThread c)
  | [] => s.gotoWaiter w (if s.creationCount ≠ 0 then .waitingCreation else .returned)

end State

/-! ## The transition system -/

/-- The atomic steps. -/
inductive Action (γ ω : Type) where
  | call (c : γ) (allocated : Bool)
  | check (c : γ)
  | create (c : γ) (created : Bool)
  | lookUp (c : γ) (found : Bool)
  | waitThread (c : γ)
  | complete (c : γ)
  | free (c : γ)
  | link (c : γ)
  | suspend (c : γ)
  | resume (c : γ)
  | openGate (c : γ)
  | passGate (c : γ)
  | enter (c : γ)
  | finish (c : γ)
  | beginShutdown (w : ω)
  | look (w : ω)
  | threadDone (w : ω) (c : γ)
  | creationDone (w : ω)
  /-- The wait of a diagnostics build times out. -/
  | timeOut (w : ω)

def Enabled (s : State γ ω) : Action γ ω → Prop
  | .call c _ => (s.context c).creator = .notCalled
  | .check c => (s.context c).creator = .checking
  | .create c _ => (s.context c).creator = .creating
  | .lookUp c _ => (s.context c).creator = .lookingUp
  | .waitThread c => (s.context c).creator = .waiting ∧ (s.context c).thread = .terminated
  | .complete c => (s.context c).creator = .completing
  | .free c => (s.context c).creator = .freeing
  | .link c => (s.context c).creator = .linking
  | .suspend _ | .resume _ => True
  | .openGate c => (s.context c).thread = .gate ∧ (s.context c).startEvent = true
  | .passGate c => (s.context c).thread = .released
  | .enter c => (s.context c).thread = .starting
  | .finish c => (s.context c).thread = .running
  | .beginShutdown w => s.waiter w = .notCalled
  | .look w => s.waiter w = .looping
  | .threadDone w c => s.waiter w = .waitingThread c ∧ (s.context c).thread = .terminated
  | .creationDone w => s.waiter w = .waitingCreation ∧ s.creationComplete = true
  | .timeOut w => s.waiter w ≠ .notCalled ∧ s.waiter w ≠ .returned

variable (createSuspended : γ → Bool)

def next (s : State γ ω) : Action γ ω → State γ ω
  | .call c allocated => s.call c (createSuspended c) allocated
  | .check c => s.check c
  | .create c created => s.create c created
  | .lookUp c found => s.lookUp c found
  | .waitThread c => s.gotoCreator c .completing
  | .complete c => s.complete c
  | .free c => s.free c
  | .link c => s.link c (createSuspended c)
  | .suspend c => s.suspend c
  | .resume c => s.resume c
  | .openGate c => s.gotoThread c .released
  | .passGate c => s.passGate c
  | .enter c => s.enter c
  | .finish c => s.gotoThread c .terminated
  | .beginShutdown w => s.beginShutdown w
  | .look w => s.look w
  | .threadDone w _ | .creationDone w | .timeOut w => s.gotoWaiter w .looping

/-- The state `LdkpInitializeThreadContexts` leaves behind. -/
def initialState (γ ω : Type) : State γ ω where
  list := []
  creationCount := 0
  creationComplete := true
  shutdown := false
  context _ := ⟨.notCalled, .notCreated, 0, false, false, false, false, 0, false⟩
  waiter _ := .notCalled

/-- The threads of a runtime; `createSuspended` says which calls pass `CREATE_SUSPENDED`. -/
def threadContexts (ω : Type) [DecidableEq ω] (createSuspended : γ → Bool) :
    System (State γ ω) (Action γ ω) where
  init s := s = initialState γ ω
  enabled := Enabled
  next := next createSuspended

instance (s : State γ ω) (a : Action γ ω) :
    Decidable ((threadContexts ω createSuspended).enabled s a) := by
  cases a <;> simp only [threadContexts, Enabled] <;> infer_instance

end Ldk.ThreadContext
