import Ldk.Lib.TransitionSystem

/-!
# Critical sections

One initialised `RTL_CRITICAL_SECTION` of `resource.c` and any number of threads that enter, try to
enter and leave it. Each part under the fast mutex, each interlocked operation, each signal and the
end of each wait is one step.

- The wait list is a record of its own that the first thread to find the section owned allocates
  outside the fast mutex. It stays until the section is deleted.
- A thread is its owner id; its wait block is on its stack.
- The counters are of type `LONG` and wrap around.
-/

namespace Ldk.CriticalSection

open TransitionSystem

/-! ## Counters -/

/-- `MAXLONG` -/
def maxLong : Int := 2147483647

/-- `InterlockedIncrement` and `++` on a `LONG`. -/
def increment (n : Int) : Int := Int.bmod (n + 1) (2 ^ 32)

/-- `--` on a `LONG`. -/
def decrement (n : Int) : Int := Int.bmod (n - 1) (2 ^ 32)

/-! ## Program counters -/

/-- Where a thread is. -/
inductive Pc (τ : Type) where
  /-- Outside the routines. -/
  | idle
  /-- At the head of the loop of `RtlEnterCriticalSection`. -/
  | entering
  /-- In `LdkpEnsureCriticalSectionState`. -/
  | ensuring
  /-- With a wait-list record that it has allocated. -/
  | installing
  /-- In `KeWaitForSingleObject` on its wait block. -/
  | waiting
  /-- `EnterCriticalSection` is about to return; the status of `RtlEnterCriticalSection` has been
  discarded. -/
  | returning
  /-- In `RtlLeaveCriticalSection`, about to signal the wait block of the new owner. -/
  | signalling (waiter : τ)
  deriving DecidableEq, Repr

/-- The critical section and the threads at it. -/
structure State (τ : Type) where
  lockCount : Int
  recursionCount : Int
  owningThread : Option τ
  /-- `LockSemaphore` points to a wait-list record. -/
  lockSemaphore : Bool
  waitList : List τ
  pc : τ → Pc τ
  /-- The events of the wait blocks. -/
  event : τ → Bool
  /-- Auxiliary: the enters of each thread that have succeeded, or have returned from
  `EnterCriticalSection`, and have not been left. -/
  unmatched : τ → Nat
  /-- Auxiliary: the threads that have queued, in that order. -/
  queued : List τ
  /-- Auxiliary: the threads that ownership has been handed to, in that order. -/
  handed : List τ

variable {τ : Type} [DecidableEq τ]

namespace State

def goto (s : State τ) (t : τ) (p : Pc τ) : State τ := { s with pc := Function.update s.pc t p }

/-- One more enter of the thread counts. -/
def matched (s : State τ) (t : τ) (n : Nat) : State τ :=
  { s with unmatched := Function.update s.unmatched t n }

/-- The thread becomes the owner of a free section. -/
def acquire (s : State τ) (t : τ) : State τ :=
  { s with owningThread := some t, lockCount := 0, recursionCount := 1 }

/-! ## RtlEnterCriticalSection -/

/-- The wait block is set up. -/
def callEnter (s : State τ) (t : τ) : State τ :=
  { s.goto t .entering with event := Function.update s.event t false }

/-- The part under the fast mutex. -/
def enter (s : State τ) (t : τ) : State τ :=
  if s.owningThread = none then
    ((s.acquire t).goto t .returning).matched t (s.unmatched t + 1)
  else if s.owningThread = some t then
    ({ s.goto t .returning with recursionCount := increment s.recursionCount }).matched t
      (s.unmatched t + 1)
  else if ! s.lockSemaphore then s.goto t .ensuring
  else
    { s.goto t .waiting with
      lockCount := increment s.lockCount
      waitList := s.waitList ++ [t]
      queued := s.queued ++ [t] }

/-- The test and the allocation in `LdkpEnsureCriticalSectionState`. When the allocation fails,
`EnterCriticalSection` returns all the same. -/
def ensure (s : State τ) (t : τ) (allocated : Bool) : State τ :=
  if s.lockSemaphore then s.goto t .entering
  else if allocated then s.goto t .installing
  else (s.goto t .returning).matched t (s.unmatched t + 1)

/-- `InterlockedCompareExchangePointer`: a record that is there already is kept. -/
def install (s : State τ) (t : τ) : State τ :=
  { s.goto t .entering with lockSemaphore := true }

/-- The wait is over. -/
def wake (s : State τ) (t : τ) : State τ :=
  ({ s.goto t .returning with event := Function.update s.event t false }).matched t
    (s.unmatched t + 1)

/-! ## RtlTryEnterCriticalSection and RtlLeaveCriticalSection -/

def tryEnter (s : State τ) (t : τ) : State τ :=
  if s.owningThread = some t then
    ({ s with recursionCount := increment s.recursionCount }).matched t (s.unmatched t + 1)
  else if s.owningThread = none then (s.acquire t).matched t (s.unmatched t + 1)
  else s

/-- The section is given to the first waiter, or is free. -/
def handOver (s : State τ) (t : τ) : State τ :=
  match s.lockSemaphore, s.waitList with
  | true, w :: rest =>
    { s.goto t (.signalling w) with
      waitList := rest
      owningThread := some w
      recursionCount := 1
      lockCount := decrement s.lockCount
      handed := s.handed ++ [w] }
  | _, _ => { s with owningThread := none, lockCount := -1, recursionCount := 0 }

/-- The part under the fast mutex. A thread that is not the owner gets an exception. -/
def leave (s : State τ) (t : τ) : State τ :=
  if s.owningThread ≠ some t ∨ s.recursionCount ≤ 0 then s
  else
    let s := s.matched t (s.unmatched t - 1)
    if decrement s.recursionCount = 0 then s.handOver t
    else { s with recursionCount := decrement s.recursionCount }

/-- `KeSetEvent` -/
def signal (s : State τ) (t w : τ) : State τ :=
  { s.goto t .idle with event := Function.update s.event w true }

end State

/-! ## The transition system -/

/-- The atomic steps. -/
inductive Action (τ : Type) where
  | callEnter (t : τ)
  | enter (t : τ)
  | ensure (t : τ) (allocated : Bool)
  | install (t : τ)
  | wake (t : τ)
  | return (t : τ)
  | tryEnter (t : τ)
  | leave (t : τ)
  | signal (t w : τ)

def Enabled (s : State τ) : Action τ → Prop
  | .callEnter t => s.pc t = .idle
  | .enter t => s.pc t = .entering
  | .ensure t _ => s.pc t = .ensuring
  | .install t => s.pc t = .installing
  | .wake t => s.pc t = .waiting ∧ s.event t = true
  | .return t => s.pc t = .returning
  | .tryEnter t => s.pc t = .idle
  | .leave t => s.pc t = .idle
  | .signal t w => s.pc t = .signalling w

instance Enabled.decidable (s : State τ) (a : Action τ) : Decidable (Enabled s a) := by
  cases a <;> unfold Enabled <;> infer_instance

def next (s : State τ) : Action τ → State τ
  | .callEnter t => s.callEnter t
  | .enter t => s.enter t
  | .ensure t allocated => s.ensure t allocated
  | .install t => s.install t
  | .wake t => s.wake t
  | .return t => s.goto t .idle
  | .tryEnter t => s.tryEnter t
  | .leave t => s.leave t
  | .signal t w => s.signal t w

/-- The state `RtlInitializeCriticalSection` leaves behind. -/
def initialState (τ : Type) : State τ where
  lockCount := -1
  recursionCount := 0
  owningThread := none
  lockSemaphore := false
  waitList := []
  pc _ := .idle
  event _ := false
  unmatched _ := 0
  queued := []
  handed := []

/-- One critical section. -/
def criticalSection (τ : Type) [DecidableEq τ] : System (State τ) (Action τ) where
  init s := s = initialState τ
  enabled := Enabled
  next := next

instance (s : State τ) (a : Action τ) : Decidable ((criticalSection τ).enabled s a) :=
  inferInstanceAs (Decidable (Enabled s a))

end Ldk.CriticalSection
