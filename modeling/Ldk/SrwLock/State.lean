import Ldk.Lib.TransitionSystem

/-!
# SRW locks

One `RTL_SRWLOCK` of `srwlock.c` and any number of threads that acquire, try to acquire and release
it. Each read and each interlocked operation on the lock word is one step.

- The word is a `LONG_PTR`: `0`, `-1`, or a count of holders, which are never so many that it
  overflows.
- `RtlWaitOnAddress` compares and goes to sleep in one step; `RtlWakeAddressAll` wakes everybody
  who sleeps. A wait may also end by itself.
- A thread releases what it holds, in the mode in which it holds it.
-/

namespace Ldk.SrwLock

open TransitionSystem

/-- `LDK_SRWLOCK_EXCLUSIVE` -/
def exclusive : Int := -1

/-- The mode in which a lock is acquired. -/
inductive Mode where
  | shared
  | exclusive
  deriving DecidableEq, Repr

/-- The routines. -/
inductive Routine where
  | acquire (mode : Mode)
  | tryAcquire (mode : Mode)
  | release (mode : Mode)
  deriving DecidableEq, Repr

/-- Where a thread is. -/
inductive Pc where
  /-- Outside the routines. -/
  | idle
  /-- At the head of the loop, or of the body, of the routine. -/
  | start (routine : Routine)
  /-- In a shared routine that has read the word, before the compare-exchange. -/
  | read (routine : Routine) (state : Int)
  /-- At the call of `LdkpWaitForSRWLockChange`. -/
  | waiting (mode : Mode) (compareValue : Int)
  /-- Asleep in `LdkpWaitForSRWLockChange`. -/
  | asleep (mode : Mode)
  /-- In a release, at the call of `RtlWakeAddressAll`. -/
  | waking
  /-- `STATUS_RESOURCE_NOT_OWNED` has been raised. -/
  | raised
  deriving DecidableEq, Repr

/-- In a release routine. -/
def Pc.releasing : Pc → Prop
  | .start (.release _) | .read (.release _) _ | .waking => True
  | _ => False

/-- In a routine, and not asleep. -/
def Pc.running : Pc → Prop
  | .idle | .asleep _ | .raised => False
  | _ => True

/-- The lock and the threads at it. -/
structure State (τ : Type) where
  word : Int
  pc : τ → Pc
  /-- A wake has been delivered to the sleeping thread. -/
  woken : τ → Bool
  /-- Auxiliary: the shared holders, a thread once for each of its holds. -/
  readers : List τ
  /-- Auxiliary: the exclusive holders. -/
  writers : List τ

variable {τ : Type} [DecidableEq τ]

namespace State

def goto (s : State τ) (t : τ) (p : Pc) : State τ := { s with pc := Function.update s.pc t p }

/-- The routine returns with the lock held. -/
def hold (s : State τ) (t : τ) : Mode → State τ
  | .shared => { s.goto t .idle with word := s.word + 1, readers := t :: s.readers }
  | .exclusive => { s.goto t .idle with word := SrwLock.exclusive, writers := t :: s.writers }

/-! ## The routines -/

/-- The compare-exchange of `RtlAcquireSRWLockExclusive`. -/
def acquireExclusive (s : State τ) (t : τ) : State τ :=
  if s.word = 0 then s.hold t .exclusive else s.goto t (.waiting .exclusive s.word)

/-- `RtlTryAcquireSRWLockExclusive` -/
def tryAcquireExclusive (s : State τ) (t : τ) : State τ :=
  if s.word = 0 then s.hold t .exclusive else s.goto t .idle

/-- The read of `RtlAcquireSRWLockShared`. -/
def acquireShared (s : State τ) (t : τ) : State τ :=
  if 0 ≤ s.word then s.goto t (.read (.acquire .shared) s.word)
  else s.goto t (.waiting .shared s.word)

/-- The compare-exchange of `RtlAcquireSRWLockShared`. -/
def acquireSharedFrom (s : State τ) (t : τ) (state : Int) : State τ :=
  if s.word = state then s.hold t .shared
  else if 0 ≤ s.word then s.goto t (.start (.acquire .shared))
  else s.goto t (.waiting .shared s.word)

/-- The test of the loop of `RtlTryAcquireSRWLockShared`, after a read. -/
def tryAcquireShared (s : State τ) (t : τ) : State τ :=
  if 0 ≤ s.word then s.goto t (.read (.tryAcquire .shared) s.word) else s.goto t .idle

/-- The compare-exchange of `RtlTryAcquireSRWLockShared`. -/
def tryAcquireSharedFrom (s : State τ) (t : τ) (state : Int) : State τ :=
  if s.word = state then s.hold t .shared else s.goto t (.start (.tryAcquire .shared))

/-- The compare-exchange of `RtlReleaseSRWLockExclusive`. -/
def releaseExclusive (s : State τ) (t : τ) : State τ :=
  if s.word = SrwLock.exclusive then
    { s.goto t .waking with word := 0, writers := s.writers.erase t }
  else s.goto t .raised

/-- The read of `RtlReleaseSRWLockShared`. -/
def releaseShared (s : State τ) (t : τ) : State τ :=
  if s.word ≤ 0 then s.goto t .raised else s.goto t (.read (.release .shared) s.word)

/-- The compare-exchange of `RtlReleaseSRWLockShared`; only the last holder wakes. -/
def releaseSharedFrom (s : State τ) (t : τ) (state : Int) : State τ :=
  if s.word = state then
    { s.goto t (if state - 1 = 0 then .waking else .idle) with
      word := state - 1
      readers := s.readers.erase t }
  else s.goto t (.start (.release .shared))

/-- `RtlWaitOnAddress` compares and goes to sleep. -/
def waitForChange (s : State τ) (t : τ) (mode : Mode) (compareValue : Int) : State τ :=
  if s.word = compareValue then
    { s.goto t (.asleep mode) with woken := Function.update s.woken t false }
  else s.goto t (.start (.acquire mode))

/-- `RtlWakeAddressAll` -/
def wakeAll (s : State τ) (t : τ) : State τ := { s.goto t .idle with woken := fun _ => true }

/-- The next step of a thread in a routine. -/
def advance (s : State τ) (t : τ) : State τ :=
  match s.pc t with
  | .start (.acquire .exclusive) => s.acquireExclusive t
  | .start (.acquire .shared) => s.acquireShared t
  | .start (.tryAcquire .exclusive) => s.tryAcquireExclusive t
  | .start (.tryAcquire .shared) => s.tryAcquireShared t
  | .start (.release .exclusive) => s.releaseExclusive t
  | .start (.release .shared) => s.releaseShared t
  | .read (.acquire _) state => s.acquireSharedFrom t state
  | .read (.tryAcquire _) state => s.tryAcquireSharedFrom t state
  | .read (.release _) state => s.releaseSharedFrom t state
  | .waiting mode compareValue => s.waitForChange t mode compareValue
  | .waking => s.wakeAll t
  | .idle | .asleep _ | .raised => s

end State

/-! ## The transition system -/

/-- The atomic steps. -/
inductive Action (τ : Type) where
  | call (t : τ) (routine : Routine)
  | advance (t : τ)
  /-- The wait ends. -/
  | wake (t : τ) (mode : Mode)

/-- A well-behaved caller holds what it releases. -/
def MayCall (s : State τ) (t : τ) : Routine → Prop
  | .release .shared => t ∈ s.readers
  | .release .exclusive => t ∈ s.writers
  | _ => True

def Enabled (s : State τ) : Action τ → Prop
  | .call t routine => s.pc t = .idle ∧ MayCall s t routine
  | .advance t => (s.pc t).running
  | .wake t mode => s.pc t = .asleep mode

instance MayCall.decidable (s : State τ) (t : τ) (routine : Routine) :
    Decidable (MayCall s t routine) := by
  unfold MayCall
  split <;> infer_instance

instance Pc.running.decidable (p : Pc) : Decidable p.running := by
  unfold Pc.running
  split <;> infer_instance

def next (s : State τ) : Action τ → State τ
  | .call t routine => s.goto t (.start routine)
  | .advance t => s.advance t
  | .wake t mode => s.goto t (.start (.acquire mode))

/-- The state `RtlInitializeSRWLock` leaves behind. -/
def initialState (τ : Type) : State τ where
  word := 0
  pc _ := .idle
  woken _ := false
  readers := []
  writers := []

/-- One SRW lock. -/
def srwLock (τ : Type) [DecidableEq τ] : System (State τ) (Action τ) where
  init s := s = initialState τ
  enabled := Enabled
  next := next

instance (s : State τ) (a : Action τ) : Decidable ((srwLock τ).enabled s a) := by
  cases a <;> simp only [srwLock, Enabled] <;> infer_instance

end Ldk.SrwLock
