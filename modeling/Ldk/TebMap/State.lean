import Ldk.Lib.TransitionSystem

/-!
# The TEB map

Kernel threads have no user-mode TEB; LDK keeps records of its own and finds them by the address
of the `ETHREAD`. `LdkCurrentTeb` looks at the word at the low end of the current stack first, then
in the map, and creates a record when there is none.

- A TEB stays in the map when its thread exits. TEBs leave it when LDK terminates.
- The word at the low end of a stack may hold anything: stacks are reused, and an expanded stack
  has a low end of its own.
- The kernel may reuse the address of an `ETHREAD` and a thread id once the thread has exited.
- Memory that is no TEB does not pass the check of the cached pointer, and an allocation that
  fails stops the system; neither is modelled.
-/

namespace Ldk.TebMap

open TransitionSystem

/-- The two slot arrays of a TEB. -/
inductive SlotKind where
  | tls
  | fls
  deriving DecidableEq, Repr

/-- `LDK_TLS_SLOTS_SIZE` and `LDK_FLS_SLOTS_SIZE`. -/
def slotsSize : SlotKind → Nat
  | .tls => 1024
  | .fls => 1024

/-- A value in a slot. -/
structure Stored where
  kind : SlotKind
  index : Nat
  value : Nat
  deriving DecidableEq, Repr

/-- A thread that runs. Its `ETHREAD` address is the key under which it is kept. -/
structure Thread where
  threadId : Nat
  /-- Auxiliary: numbers the threads in the order of their creation. -/
  serial : Nat
  /-- Auxiliary: what the thread has stored in slots since it started. -/
  stored : List Stored
  deriving DecidableEq, Repr

/-- `LDK_TEB`. A null pointer is 0. -/
structure Teb where
  /-- Set by `LdkpCreateTeb` to `LdkCurrentPeb()`. -/
  processEnvironmentBlock : Nat
  thread : Nat
  /-- `ClientId.UniqueThread` -/
  uniqueThread : Nat
  slots : SlotKind → Nat → Nat
  /-- `RundownProtect` has been run down. -/
  runDown : Bool
  /-- Auxiliary: the serial number of the thread for which the TEB was initialised. -/
  owner : Nat

/-- The TEB map with the threads, the TEB memory and the stacks around it. -/
structure State where
  /-- `LdkCurrentPeb()` -/
  peb : Nat
  /-- Running threads by `ETHREAD` address. -/
  threads : Nat → Option Thread
  /-- TEB memory by address. -/
  tebs : Nat → Option Teb
  /-- `LdkpTebListHead` -/
  tebList : List Nat
  /-- `LdkpTemporaryTebListHead` -/
  temporaryTebList : List Nat
  /-- TEBs that `LdkpTerminateTebMap` has taken off the two lists. -/
  removed : List Nat
  /-- The words at the low ends of the stacks. -/
  stackSlots : Nat → Nat
  /-- `LDK_SHUTDOWN_IN_PROGRESS` -/
  shutdownInProgress : Bool
  /-- Auxiliary: the serial number of the next thread. -/
  serial : Nat

namespace State

/-! ## TEBs -/

/-- The TEB that `LdkpInitializeTeb` and `LdkpCreateTeb` fill in for a running thread. -/
def createTeb (s : State) (thread : Nat) (t : Thread) : Teb where
  processEnvironmentBlock := s.peb
  thread := thread
  uniqueThread := t.threadId
  slots _ _ := 0
  runDown := false
  owner := t.serial

def setTeb (s : State) (a : Nat) (teb : Teb) : State :=
  { s with tebs := Function.update s.tebs a (some teb) }

/-- `LdkLookTebByThread` -/
def lookTebByThread (s : State) (thread : Nat) : Option Nat :=
  s.tebList.find? fun a => (s.tebs a).any fun teb => teb.thread = thread

/-- `LdkReferenceTebByThread` -/
def referenceTebByThread (s : State) (thread : Nat) : Option Nat :=
  s.tebList.find? fun a => (s.tebs a).any fun teb => teb.thread = thread && !teb.runDown

/-- The pointer cached at the low end of the stack, if it passes the check. -/
def cachedTeb (s : State) (thread : Nat) : Option Nat → Option Nat
  | none => none
  | some low =>
    if s.stackSlots low = 0 then none
    else
      match s.tebs (s.stackSlots low) with
      | none => none
      | some teb =>
        if teb.processEnvironmentBlock = s.peb ∧ teb.thread = thread then some (s.stackSlots low)
        else none

/-- The pointer is cached when there is a place for it. -/
def cacheTeb (s : State) (a : Nat) : Option Nat → State
  | none => s
  | some low => { s with stackSlots := Function.update s.stackSlots low a }

/-- `LdkCurrentTeb` in the thread `t` at the `ETHREAD` address `thread`, on a stack whose low end
is `stack`. A TEB that has to be allocated is at `fresh`. -/
def currentTeb (s : State) (thread : Nat) (t : Thread) (stack : Option Nat) (fresh : Nat) :
    Nat × State :=
  match s.cachedTeb thread stack with
  | some a => (a, s)
  | none =>
    match s.lookTebByThread thread with
    | some a => (a, s.cacheTeb a stack)
    | none =>
      let created := s.setTeb fresh (s.createTeb thread t)
      if s.shutdownInProgress then
        (fresh, { created with temporaryTebList := fresh :: s.temporaryTebList }.cacheTeb fresh
          stack)
      else (fresh, { created with tebList := fresh :: s.tebList }.cacheTeb fresh stack)

/-! ## Slots -/

/-- A slot of a TEB is written. -/
def writeSlot (s : State) (a : Nat) (x : Stored) : State :=
  match s.tebs a with
  | none => s
  | some teb =>
    s.setTeb a { teb with
      slots := Function.update teb.slots x.kind
        (Function.update (teb.slots x.kind) x.index x.value) }

/-- The thread has stored a value. -/
def record (s : State) (thread : Nat) (t : Thread) (x : Stored) : State :=
  { s with threads := Function.update s.threads thread (some { t with stored := x :: t.stored }) }

/-- `TlsSetValue` and `FlsSetValue`. -/
def setValue (s : State) (thread : Nat) (t : Thread) (stack : Option Nat) (fresh : Nat)
    (x : Stored) : State :=
  if slotsSize x.kind ≤ x.index then s
  else
    let (a, s') := s.currentTeb thread t stack fresh
    (s'.writeSlot a x).record thread t x

/-- `LdkpInitializeStaticTlsForTeb` on the current TEB, with the block that has been allocated. -/
def initializeStaticTls (s : State) (thread : Nat) (t : Thread) (stack : Option Nat) (fresh : Nat)
    (tlsIndex block : Nat) : State :=
  if slotsSize .tls ≤ tlsIndex then s
  else
    let (a, s') := s.currentTeb thread t stack fresh
    match s'.tebs a with
    | none => s'
    | some teb =>
      if teb.slots .tls tlsIndex = 0 then
        (s'.writeSlot a ⟨.tls, tlsIndex, block⟩).record thread t ⟨.tls, tlsIndex, block⟩
      else s'

/-- A slot is exchanged for a null pointer: by `TlsAlloc`, `TlsFree`, `FlsAlloc`, `FlsFree`,
`LdkpFreeStaticTlsForTeb` and `LdkpInvokeFlsCallback`, in the TEB of any thread. -/
def clearSlot (s : State) (a : Nat) (kind : SlotKind) (index : Nat) : State :=
  s.writeSlot a ⟨kind, index, 0⟩

/-! ## Termination -/

/-- `LdkpTerminateTebMap` moves the map to a local list. -/
def moveTebList (s : State) : State :=
  { s with tebList := [], removed := s.removed ++ s.tebList }

/-- `LdkpTerminateTebMap` takes a TEB off the temporary list. -/
def popTemporaryTeb (s : State) : State :=
  { s with
    temporaryTebList := s.temporaryTebList.tail
    removed := s.removed ++ s.temporaryTebList.head?.toList }

/-- `LdkpTerminateTeb` -/
def terminateTeb (s : State) (a : Nat) : State :=
  match s.tebs a with
  | none => s
  | some teb => s.setTeb a { teb with slots := fun _ _ => 0, thread := 0, runDown := true }

/-- `LdkDeleteTeb` frees the memory. -/
def freeTeb (s : State) (a : Nat) : State :=
  { s with
    tebs := Function.update s.tebs a none
    removed := s.removed.erase a }

/-- `LdkpInitializeTebMap`, when LDK is initialised again. -/
def initializeTebMap (s : State) : State :=
  { s with tebList := [], temporaryTebList := [], shutdownInProgress := false }

/-! ## Threads -/

def createThread (s : State) (thread threadId : Nat) : State :=
  { s with
    threads := Function.update s.threads thread (some ⟨threadId, s.serial, []⟩)
    serial := s.serial + 1 }

/-- `PsTerminateSystemThread`. Nothing is done about the TEB. -/
def exitThread (s : State) (thread : Nat) : State :=
  { s with threads := Function.update s.threads thread none }

end State

/-! ## The transition system -/

/-- The steps. A thread that runs is given with its address. -/
inductive Action where
  | createThread (thread threadId : Nat)
  | exitThread (thread : Nat)
  | currentTeb (thread : Nat) (t : Thread) (stack : Option Nat) (fresh : Nat)
  | setValue (thread : Nat) (t : Thread) (stack : Option Nat) (fresh : Nat) (x : Stored)
  | initializeStaticTls (thread : Nat) (t : Thread) (stack : Option Nat)
    (fresh tlsIndex block : Nat)
  | clearSlot (a : Nat) (kind : SlotKind) (index : Nat)
  /-- The word at the low end of a stack changes. -/
  | writeStack (low word : Nat)
  /-- `LdkTerminate` sets `LDK_SHUTDOWN_IN_PROGRESS`. -/
  | beginShutdown
  | moveTebList
  | popTemporaryTeb
  | terminateTeb (a : Nat)
  | freeTeb (a : Nat)
  | initializeTebMap

/-- The allocator hands out memory that is not in use. -/
def Fresh (s : State) (a : Nat) : Prop := a ≠ 0 ∧ s.tebs a = none

instance (s : State) (a : Nat) : Decidable (Fresh s a) :=
  inferInstanceAs (Decidable (a ≠ 0 ∧ s.tebs a = none))

/-- When an action may be taken. -/
def Enabled (s : State) : Action → Prop
  | .createThread thread _ => thread ≠ 0 ∧ s.threads thread = none
  | .exitThread thread => s.threads thread ≠ none
  | .currentTeb thread t _ fresh | .setValue thread t _ fresh _
  | .initializeStaticTls thread t _ fresh _ _ => s.threads thread = some t ∧ Fresh s fresh
  | .clearSlot _ kind index => index < slotsSize kind
  | .writeStack _ _ | .beginShutdown | .moveTebList | .popTemporaryTeb => True
  | .terminateTeb a => a ∈ s.removed
  | .freeTeb a => a ∈ s.removed ∧ (s.tebs a).all (·.runDown) = true
  | .initializeTebMap => s.removed = []

instance (s : State) (a : Action) : Decidable (Enabled s a) := by
  cases a <;> unfold Enabled <;> infer_instance

/-- The state after an action. -/
def next (s : State) : Action → State
  | .createThread thread threadId => s.createThread thread threadId
  | .exitThread thread => s.exitThread thread
  | .currentTeb thread t stack fresh => (s.currentTeb thread t stack fresh).2
  | .setValue thread t stack fresh x => s.setValue thread t stack fresh x
  | .initializeStaticTls thread t stack fresh tlsIndex block =>
    s.initializeStaticTls thread t stack fresh tlsIndex block
  | .clearSlot a kind index => s.clearSlot a kind index
  | .writeStack low word => { s with stackSlots := Function.update s.stackSlots low word }
  | .beginShutdown => { s with shutdownInProgress := true }
  | .moveTebList => s.moveTebList
  | .popTemporaryTeb => s.popTemporaryTeb
  | .terminateTeb a => s.terminateTeb a
  | .freeTeb a => s.freeTeb a
  | .initializeTebMap => s.initializeTebMap

/-- The state after `LdkpInitializeTebMap`, with no thread yet. -/
def initialState (peb : Nat) : State where
  peb := peb
  threads _ := none
  tebs _ := none
  tebList := []
  temporaryTebList := []
  removed := []
  stackSlots _ := 0
  shutdownInProgress := false
  serial := 0

/-- The TEB map of one LDK instance. -/
def tebMap (peb : Nat) : System State Action where
  init s := s = initialState peb
  enabled := Enabled
  next := next

instance (peb : Nat) (s : State) (a : Action) : Decidable ((tebMap peb).enabled s a) :=
  inferInstanceAs (Decidable (Enabled s a))

end Ldk.TebMap
