import Ldk.Lib.TransitionSystem

/-!
# Keyed events

The wait list of `keyedevent.c`, with any number of threads that wait for and release keys on any
number of keyed-event handles. Each part under the spin lock, each pulse, each release of a
semaphore and each end of a wait is one step.

- A keyed-event handle is a notification event that is never set, only pulsed: a pulse ends the
  waits of the threads that are blocked on it, and leaves nothing behind.
- A thread waits on the semaphore of its TEB, whose limit is one.
- `LdkpTerminateKeyedEventList` is called at most once; no call is made after it.
-/

namespace Ldk.KeyedEvent

open TransitionSystem

/-- The limit of `KeyedWaitSemaphore`. -/
def semaphoreLimit : Nat := 1

/-- `LDK_KEYED_EVENT_WAIT_ENTRY` -/
structure WaitEntry (τ η κ : Type) where
  key : κ
  /-- The thread of the TEB. -/
  teb : τ
  /-- Auxiliary: the handle of the wait. -/
  handle : η
  deriving DecidableEq, Repr

/-- Where a thread is. -/
inductive Pc (τ η κ : Type) where
  /-- Outside the routines. -/
  | idle
  /-- In `NtWaitForKeyedEvent`, queued, at `ZwPulseEvent`. -/
  | pulsing (handle : η) (key : κ)
  /-- In `NtWaitForKeyedEvent`, at `KeWaitForSingleObject`. -/
  | waiting (handle : η) (key : κ)
  /-- At the head of the loop of `NtReleaseKeyedEvent`. -/
  | searching (handle : η) (key : κ)
  /-- Has found nothing, at `ZwWaitForSingleObject`. -/
  | blocking (handle : η) (key : κ)
  /-- Blocked on the event. -/
  | blocked (handle : η) (key : κ)
  /-- Has found a waiter, at `KeReleaseSemaphore`. -/
  | releasing (handle : η) (found : τ)
  /-- At the last `ZwPulseEvent`. -/
  | pulsingBack (handle : η)
  deriving DecidableEq, Repr

structure State (τ η κ : Type) where
  waitList : List (WaitEntry τ η κ)
  pc : τ → Pc τ η κ
  /-- The count of `KeyedWaitSemaphore`. -/
  semaphore : τ → Nat
  terminated : Bool
  /-- `STATUS_SEMAPHORE_LIMIT_EXCEEDED` has been raised. -/
  raised : Bool
  /-- Auxiliary: an entry of the thread has been taken, and the count that goes with it has not
  been waited for. -/
  due : τ → Bool
  /-- Auxiliary: the handle of each release that has found an entry, and that of the entry. -/
  matched : List (η × η)

variable {τ η κ : Type} [DecidableEq τ] [DecidableEq η] [DecidableEq κ]

namespace State

variable (s : State τ η κ)

def goto (t : τ) (p : Pc τ η κ) : State τ η κ := { s with pc := Function.update s.pc t p }

/-- `KeReleaseSemaphore`; it raises at the limit. -/
def releaseSemaphore (t : τ) : State τ η κ :=
  if s.semaphore t = semaphoreLimit then { s with raised := true }
  else { s with semaphore := Function.update s.semaphore t (s.semaphore t + 1) }

/-- `ZwPulseEvent`: whoever is blocked on the event goes round the loop again. -/
def pulse (handle : η) : State τ η κ :=
  { s with
    pc := fun t =>
      match s.pc t with
      | .blocked h key => if h = handle then .searching h key else .blocked h key
      | p => p }

/-! ## NtWaitForKeyedEvent -/

/-- The entry is queued. -/
def callWait (t : τ) (handle : η) (key : κ) : State τ η κ :=
  { s.goto t (.pulsing handle key) with waitList := s.waitList ++ [⟨key, t, handle⟩] }

/-- The wait is satisfied. -/
def satisfy (t : τ) : State τ η κ :=
  { s.goto t .idle with
    semaphore := Function.update s.semaphore t (s.semaphore t - 1)
    due := Function.update s.due t false }

/-! ## NtReleaseKeyedEvent -/

/-- The first entry with the key is taken. -/
def search (t : τ) (handle : η) (key : κ) : State τ η κ :=
  match s.waitList.find? fun entry => entry.key = key with
  | some entry =>
    { s.goto t (.releasing handle entry.teb) with
      waitList := s.waitList.erase entry
      due := Function.update s.due entry.teb true
      matched := s.matched ++ [(handle, entry.handle)] }
  | none => s.goto t (.blocking handle key)

/-! ## LdkpTerminateKeyedEventList -/

/-- The semaphores of the entries are released one after the other. -/
def releaseEntries : List (WaitEntry τ η κ) → State τ η κ → State τ η κ
  | [], s => s
  | entry :: rest, s =>
    if s.semaphore entry.teb = semaphoreLimit then { s with raised := true }
    else releaseEntries rest
      { s.releaseSemaphore entry.teb with
        waitList := s.waitList.erase entry
        due := Function.update s.due entry.teb true }

def terminate : State τ η κ := releaseEntries s.waitList { s with terminated := true }

end State

/-! ## The transition system -/

/-- The atomic steps. -/
inductive Action (τ η κ : Type) where
  | callWait (t : τ) (handle : η) (key : κ)
  | pulse (t : τ) (handle : η) (key : κ)
  | satisfy (t : τ) (handle : η) (key : κ)
  /-- The wait times out, or is alerted. -/
  | timeOut (t : τ) (handle : η) (key : κ)
  | callRelease (t : τ) (handle : η) (key : κ)
  | search (t : τ) (handle : η) (key : κ)
  | block (t : τ) (handle : η) (key : κ)
  /-- The wait of a release times out or is alerted; these are success statuses. -/
  | unblock (t : τ) (handle : η) (key : κ)
  | release (t : τ) (handle : η) (found : τ)
  | pulseBack (t : τ) (handle : η)
  | terminate

def Enabled (s : State τ η κ) : Action τ η κ → Prop
  | .callWait t _ _ => s.pc t = .idle ∧ s.terminated = false
  | .pulse t handle key => s.pc t = .pulsing handle key
  | .satisfy t handle key => s.pc t = .waiting handle key ∧ s.semaphore t ≠ 0
  | .timeOut t handle key => s.pc t = .waiting handle key ∧ s.semaphore t = 0
  | .callRelease t _ _ => s.pc t = .idle ∧ s.terminated = false
  | .search t handle key => s.pc t = .searching handle key
  | .block t handle key => s.pc t = .blocking handle key
  | .unblock t handle key => s.pc t = .blocked handle key
  | .release t handle found => s.pc t = .releasing handle found
  | .pulseBack t handle => s.pc t = .pulsingBack handle
  | .terminate => s.terminated = false

def next (s : State τ η κ) : Action τ η κ → State τ η κ
  | .callWait t handle key => s.callWait t handle key
  | .pulse t handle key => (s.goto t (.waiting handle key)).pulse handle
  | .satisfy t _ _ => s.satisfy t
  | .timeOut t _ _ => s.goto t .idle
  | .callRelease t handle key => s.goto t (.searching handle key)
  | .search t handle key => s.search t handle key
  | .block t handle key => s.goto t (.blocked handle key)
  | .unblock t handle key => s.goto t (.searching handle key)
  | .release t handle found =>
    -- An exception leaves the routine.
    if s.semaphore found = semaphoreLimit then (s.releaseSemaphore found).goto t .idle
    else (s.releaseSemaphore found).goto t (.pulsingBack handle)
  | .pulseBack t handle => (s.goto t .idle).pulse handle
  | .terminate => s.terminate

/-- The state `LdkpInitializeKeyedEventList` and `LdkpInitializeTeb` leave behind. -/
def initialState (τ η κ : Type) : State τ η κ where
  waitList := []
  pc _ := .idle
  semaphore _ := 0
  terminated := false
  raised := false
  due _ := false
  matched := []

/-- The keyed events. -/
def keyedEvents (τ η κ : Type) [DecidableEq τ] [DecidableEq η] [DecidableEq κ] :
    System (State τ η κ) (Action τ η κ) where
  init s := s = initialState τ η κ
  enabled := Enabled
  next := next

instance (s : State τ η κ) (a : Action τ η κ) : Decidable ((keyedEvents τ η κ).enabled s a) := by
  cases a <;> simp only [keyedEvents, Enabled] <;> infer_instance

end Ldk.KeyedEvent
