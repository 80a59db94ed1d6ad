import Ldk.NtStatus
import Ldk.Lib.TransitionSystem

/-!
# State of the wait-on-address layers

The shared state of `waitonaddress.c` and `alert.c` and the program counters of the threads
that run in them.

- Each layer has a spin lock, a wait count, a drained event and a shutting-down flag (`WaitGate`).
- Address entries, alert entries and alert events live on the stack of the waiting thread, so
  they are keyed by that thread. A thread object also stands for its thread id.
- A program counter names the next atomic step: one spin-lock section, one interlocked
  operation, one event operation, one wait, or one lookaside allocation. The section in which a
  wait is registered is split further, because other threads count down while it runs.
-/

namespace Ldk.WaitOnAddress

/-- `LDK_WAIT_ON_ADDRESS_WAKE_BATCH` and `LDK_ALERT_BY_THREAD_ID_WAKE_BATCH`. -/
abbrev wakeBatch : Nat := 64

/-! ## Memory and the compared value -/

/-- Memory by bytes; the null address is `0`. -/
abbrev Memory := Nat → UInt8

/-- The parameters of `RtlWaitOnAddress`; `timeout` says whether `Timeout` is given. -/
structure WaitRequest where
  address : Nat
  compareAddress : Nat
  addressSize : Nat
  timeout : Bool
  deriving DecidableEq, Repr

/-- The argument check of `RtlWaitOnAddress`. -/
def WaitRequest.accepted (r : WaitRequest) : Bool :=
  r.address ≠ 0 && r.compareAddress ≠ 0 && [1, 2, 4, 8].contains r.addressSize

/-- `LdkpWaitOnAddressValuesMatch`. -/
def ldkpWaitOnAddressValuesMatch (mem : Memory) (r : WaitRequest) : Bool :=
  if [1, 2, 4, 8].contains r.addressSize then
    (List.range r.addressSize).all fun i =>
      mem (r.address + i) == mem (r.compareAddress + i)
  else
    false

/-! ## Entries and gates -/

/-- The two wait layers. -/
inductive Layer where
  /-- `waitonaddress.c` -/
  | address
  /-- `alert.c` -/
  | alert
  deriving DecidableEq, Repr

/-- `LDK_WAIT_ON_ADDRESS_ENTRY`, on the stack of `ThreadId`. -/
structure AddressEntry where
  address : Nat
  inList : Bool
  woken : Bool
  deriving DecidableEq, Repr

/-- `LDK_ALERT_BY_THREAD_ID_ENTRY`, on the stack of `Thread`. -/
structure AlertEntry where
  inList : Bool
  woken : Bool
  deriving DecidableEq, Repr

/-- The list lock, wait count, drained event and shutting-down flag of one layer. -/
structure WaitGate (T : Type) where
  /-- The thread inside a list-lock section that spans several steps. -/
  lock : Option T
  waitCount : Nat
  drained : Bool
  shuttingDown : Bool

/-! ## Program counters -/

/-- Steps of `RtlWaitOnAddress` outside its calls of `NtWaitForAlertByThreadId`. -/
inductive RtlWaitPc where
  | check
  | lock
  | reference
  | clear
  | insert
  | unlink (status : NtStatus)
  | dereference (status : NtStatus)
  | setDrained (status : NtStatus)
  deriving DecidableEq, Repr

/-- The caller of `NtWaitForAlertByThreadId`. -/
inductive NtWaitReturn where
  /-- A client; the field says whether `Timeout` is given. -/
  | direct (timeout : Bool)
  /-- The first call in `RtlWaitOnAddress`, with the caller's `Timeout`. -/
  | first
  /-- The second call in `RtlWaitOnAddress`, without `Timeout`. -/
  | second
  deriving DecidableEq, Repr

/-- Steps of `NtWaitForAlertByThreadId`. -/
inductive NtWaitPc where
  | lock
  | reference
  | clear
  | pending
  | block
  | unlink (status : NtStatus)
  | blockWoken
  | dereference (status : NtStatus)
  | setDrained (status : NtStatus)
  deriving DecidableEq, Repr

/-- Who runs the collect-and-alert loop over the address list. -/
inductive Collector where
  /-- `RtlWakeAddressSingle` -/
  | single (address : Nat)
  /-- `RtlWakeAddressAll` -/
  | all (address : Nat)
  /-- `LdkpTerminateWaitOnAddressList` -/
  | terminate
  deriving DecidableEq, Repr

/-- The caller of `NtAlertThreadByThreadId`. -/
inductive AlertReturn (T : Type) where
  /-- A client. -/
  | direct
  /-- `LdkpAlertThreadIds`, with the ids still to alert and whether the batch was full. -/
  | batch (collector : Collector) (rest : List T) (full : Bool)
  deriving DecidableEq, Repr

/-- Steps of `NtAlertThreadByThreadId`. -/
inductive NtAlertPc where
  | lookup
  | remove
  | allocate
  | recheck
  | insert
  | setEvent
  deriving DecidableEq, Repr

/-- Steps of the terminate routines outside the collect-and-alert loop. -/
inductive TerminatePc (T : Type) where
  | shutDown
  | collectEvents
  | setEvents (events : List T) (full : Bool)
  | drain
  | clearPending
  deriving DecidableEq, Repr

/-- The next atomic step of a thread. -/
inductive Pc (T : Type) where
  | idle
  | rtlWait (pc : RtlWaitPc)
  | ntWait (ret : NtWaitReturn) (pc : NtWaitPc)
  | collect (collector : Collector)
  | alertIds (collector : Collector) (ids : List T) (full : Bool)
  | ntAlert (ret : AlertReturn T) (target : T) (pc : NtAlertPc)
  | terminate (layer : Layer) (pc : TerminatePc T)
  deriving DecidableEq, Repr

/-! ## The state -/

/-- The shared state and the threads. -/
structure State (T : Type) where
  mem : Memory
  /-- `LDK_IS_SHUTDOWN_IN_PROGRESS` -/
  shutdownInProgress : Bool
  gate : Layer → WaitGate T
  /-- `LdkpWaitOnAddressListHead` -/
  addressList : List T
  addressEntry : T → AddressEntry
  /-- `LdkpAlertByThreadIdListHead` -/
  alertList : List T
  alertEntry : T → AlertEntry
  /-- The synchronization event of the thread's alert entry. -/
  event : T → Bool
  /-- `LdkpAlertByThreadIdPendingListHead` -/
  pendingList : List T
  /-- `Teb->AlertByThreadIdPending` -/
  alertByThreadIdPending : T → Bool
  pc : T → Pc T
  request : T → WaitRequest
  /-- The status returned by the thread's last finished call. -/
  result : T → NtStatus
  /-- Auxiliary: how many calls the thread has begun. -/
  calls : T → Nat
  /-- Auxiliary: the wake call that set `Woken` in the thread's current address entry. -/
  wokenBy : T → Option (T × Nat)
  /-- Auxiliary: the drain wait of the layer's terminate routine has been passed. -/
  terminated : Layer → Bool

variable {T : Type} [DecidableEq T]

namespace State

/-- Move a thread to a program counter. -/
def goto (s : State T) (t : T) (p : Pc T) : State T :=
  { s with pc := Function.update s.pc t p }

/-- Return from a client's call. -/
def finish (s : State T) (t : T) (status : NtStatus) : State T :=
  { s.goto t .idle with result := Function.update s.result t status }

/-- Change one layer's gate. -/
def onGate (s : State T) (l : Layer) (f : WaitGate T → WaitGate T) : State T :=
  { s with gate := Function.update s.gate l (f (s.gate l)) }

/-- No thread is inside a list-lock section of the layer. -/
def LockFree (s : State T) (l : Layer) : Prop := (s.gate l).lock = none

instance (s : State T) (l : Layer) : Decidable (s.LockFree l) :=
  inferInstanceAs (Decidable ((s.gate l).lock = none))

/-- `ShuttingDown || LDK_IS_SHUTDOWN_IN_PROGRESS`, as both wait routines test it. -/
def rejectsWaits (s : State T) (l : Layer) : Bool :=
  (s.gate l).shuttingDown || s.shutdownInProgress

end State

/-! ## Reference and dereference

The wait count is interlocked; the drained event follows in a separate step. -/

/-- `InterlockedIncrement` of the wait count. -/
def WaitGate.increment (g : WaitGate T) : WaitGate T := { g with waitCount := g.waitCount + 1 }

/-- `InterlockedDecrement` of the wait count. -/
def WaitGate.decrement (g : WaitGate T) : WaitGate T := { g with waitCount := g.waitCount - 1 }

/-- `KeClearEvent` on the drained event. -/
def WaitGate.clear (g : WaitGate T) : WaitGate T := { g with drained := false }

/-- `KeSetEvent` on the drained event. -/
def WaitGate.set (g : WaitGate T) : WaitGate T := { g with drained := true }

def WaitGate.acquire (g : WaitGate T) (t : T) : WaitGate T := { g with lock := some t }

def WaitGate.release (g : WaitGate T) : WaitGate T := { g with lock := none }

/-! ## Lists -/

/-- `RemoveEntryList` of the entry of thread `t`. -/
def removeEntryList (l : List T) (t : T) : List T := l.filter (· ≠ t)

/-- The walk of `LdkpCollectWaitOnAddressThreadIds`: the thread ids taken and the entries
that stay linked. At most `limit` entries are taken, and only one unless `wakeAll`. -/
def collectEntries (takes : T → Bool) (wakeAll : Bool) : Nat → List T → List T × List T
  | _, [] => ([], [])
  | 0, l => ([], l)
  | n + 1, t :: l =>
    if takes t then
      if wakeAll then
        ((t :: (collectEntries takes wakeAll n l).1), (collectEntries takes wakeAll n l).2)
      else
        ([t], l)
    else
      ((collectEntries takes wakeAll (n + 1) l).1,
        t :: (collectEntries takes wakeAll (n + 1) l).2)

end Ldk.WaitOnAddress
