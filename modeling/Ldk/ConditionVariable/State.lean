import Ldk.Lib.TransitionSystem
import Ldk.NtStatus

/-!
# Condition variables

The list of wait blocks of `cond.c`, shared by all condition variables, with any number of sleeps
(`SleepConditionVariableCS`, `SleepConditionVariableSRW`) and of wakes. Each part under the spin
lock, each signal, the end of each wait and each call of a lock routine is one step.

- Every call has a name. The wait block of a sleep is on the stack of the call.
- When a lock is granted is left open; `RtlEnterCriticalSection` may also fail, and its status is
  not looked at.
-/

namespace Ldk.ConditionVariable

open TransitionSystem

/-! ## The calls -/

/-- `LDK_CONDITION_VARIABLE_WAKE_BATCH` -/
def wakeBatch : Nat := 64

/-- `RTL_CONDITION_VARIABLE_LOCKMODE_SHARED` -/
def lockmodeShared : BitVec 32 := 1

/-- The lock that a sleep is called with. -/
inductive Lock where
  | criticalSection
  | srwLock (flags : BitVec 32)
  deriving DecidableEq, Repr

/-- How a lock is held. -/
inductive Mode where
  | owned
  | shared
  | exclusive
  deriving DecidableEq, Repr

/-- The mode in which the lock is left and entered again. -/
def Lock.mode : Lock → Mode
  | .criticalSection => .owned
  | .srwLock flags => if flags &&& lockmodeShared ≠ 0 then .shared else .exclusive

/-- The arguments of the sleeps `σ` and the wakes `ω` on variables `κ`. -/
structure Calls (σ ω κ : Type) where
  /-- The variable of a sleep. -/
  sleepsOn : σ → κ
  lock : σ → Lock
  /-- The timeout is not `INFINITE`. -/
  timeOut : σ → Bool
  /-- The variable of a wake. -/
  wakes : ω → κ
  /-- `RtlWakeAllConditionVariable` -/
  wakeAll : ω → Bool

/-! ## The state -/

/-- How far a sleep has come. -/
inductive Stage where
  | notCalled
  /-- In the list, about to release the lock. -/
  | unlocking
  /-- In the first `KeWaitForSingleObject`. -/
  | waiting
  /-- The first wait has ended. -/
  | waited (status : NtStatus)
  /-- In the second `KeWaitForSingleObject`. -/
  | waitingAgain
  /-- About to acquire the lock. -/
  | locking (status : NtStatus)
  /-- `RtlSleepConditionVariable*` has returned. -/
  | returning (status : NtStatus)
  /-- The Kernel32 function has returned; a status it has set the last error from. -/
  | returned (status : NtStatus) (result : Bool) (lastStatus : Option NtStatus)
  deriving DecidableEq, Repr

/-- A sleep and its wait block. -/
structure Sleep where
  stage : Stage
  inList : Bool
  woken : Bool
  event : Bool
  /-- How the caller holds its lock. -/
  held : Option Mode
  deriving DecidableEq, Repr

/-- How far a wake has come. -/
inductive WakeStage (σ : Type) where
  | notCalled
  /-- At `LdkpCollectConditionVariableWaiters`. -/
  | collecting
  /-- In `LdkpWakeConditionVariableWaiters`; the array was filled. -/
  | signalling (waiters : List σ) (full : Bool)
  | returned
  deriving DecidableEq, Repr

structure State (σ ω : Type) where
  waitList : List σ
  sleep : σ → Sleep
  wake : ω → WakeStage σ
  /-- Auxiliary: the waiters of the variable when the wake was called, the oldest first. -/
  owed : ω → List σ
  /-- Auxiliary: the waiters the wake has collected. -/
  taken : ω → List σ

variable {σ ω κ : Type} [DecidableEq σ] [DecidableEq ω] [DecidableEq κ]

namespace Calls

variable (calls : Calls σ ω κ)

/-- The waiters of a variable. -/
def waitersOf (v : κ) (list : List σ) : List σ := list.filter fun w => calls.sleepsOn w = v

/-- `LdkpCollectConditionVariableWaiters`: the waiters that are collected into an array with room
for `count` of them, and what stays in the list. -/
def collect (v : κ) (all : Bool) : Nat → List σ → List σ × List σ
  | count + 1, w :: rest =>
    if calls.sleepsOn w = v then
      if all then (w :: (collect v all count rest).1, (collect v all count rest).2)
      else ([w], rest)
    else ((collect v all (count + 1) rest).1, w :: (collect v all (count + 1) rest).2)
  | _, list => ([], list)

/-- The length of the array of a wake. -/
def limit (k : ω) : Nat := if calls.wakeAll k then wakeBatch else 1

end Calls

namespace State

variable (calls : Calls σ ω κ) (s : State σ ω)

def setSleep (w : σ) (sleep : Sleep) : State σ ω :=
  { s with sleep := Function.update s.sleep w sleep }

def goto (w : σ) (stage : Stage) : State σ ω := s.setSleep w { s.sleep w with stage := stage }

def gotoWake (k : ω) (stage : WakeStage σ) : State σ ω :=
  { s with wake := Function.update s.wake k stage }

/-! ## LdkpSleepConditionVariable -/

/-- The wait block is set up and put at the end of the list. -/
def callSleep (w : σ) : State σ ω :=
  { s.setSleep w { s.sleep w with
      stage := .unlocking, inList := true, woken := false, event := false } with
    waitList := s.waitList ++ [w] }

/-- The lock is released. -/
def unlock (w : σ) : State σ ω := s.setSleep w { s.sleep w with stage := .waiting, held := none }

/-- The wait is satisfied. -/
def satisfy (w : σ) : State σ ω :=
  s.setSleep w { s.sleep w with stage := .waited .success, event := false }

/-- The part under the spin lock after the wait, and the test of `Woken`. -/
def leaveList (w : σ) (status : NtStatus) : State σ ω :=
  let stage :=
    if (s.sleep w).woken ∧ status ≠ .success then .waitingAgain else .locking status
  { s.setSleep w { s.sleep w with stage := stage, inList := false } with
    waitList := if (s.sleep w).inList then s.waitList.erase w else s.waitList }

/-- The second wait is satisfied. -/
def satisfyAgain (w : σ) : State σ ω :=
  s.setSleep w { s.sleep w with stage := .locking .success, event := false }

/-- The lock is acquired; `RtlEnterCriticalSection` can fail. -/
def relock (w : σ) (status : NtStatus) (granted : Bool) : State σ ω :=
  let held :=
    if calls.lock w = .criticalSection ∧ ! granted then none else some (calls.lock w).mode
  s.setSleep w { s.sleep w with stage := .returning status, held := held }

/-- `SleepConditionVariableCS` and `SleepConditionVariableSRW` after the call. -/
def returnSleep (w : σ) (status : NtStatus) : State σ ω :=
  if status.ntSuccess then s.goto w (.returned status true none)
  else s.goto w (.returned status false (some status))

/-! ## RtlWakeConditionVariable and RtlWakeAllConditionVariable -/

def callWake (k : ω) : State σ ω :=
  { s.gotoWake k .collecting with
    owed := Function.update s.owed k (calls.waitersOf (calls.wakes k) s.waitList) }

def collect (k : ω) : State σ ω :=
  let result := calls.collect (calls.wakes k) (calls.wakeAll k) (calls.limit k) s.waitList
  { s.gotoWake k (.signalling result.1 (result.1.length = calls.limit k)) with
    waitList := result.2
    sleep := fun w =>
      if w ∈ result.1 then { s.sleep w with inList := false, woken := true } else s.sleep w
    taken := Function.update s.taken k (s.taken k ++ result.1) }

/-- The next waiter of the array is signalled; after the last one, a wake of all waiters goes on if
the array was full. -/
def signal (k : ω) (waiters : List σ) (full : Bool) : State σ ω :=
  match waiters with
  | w :: rest =>
    (s.setSleep w { s.sleep w with event := true }).gotoWake k (.signalling rest full)
  | [] => s.gotoWake k (if calls.wakeAll k ∧ full then .collecting else .returned)

end State

/-! ## The transition system -/

/-- The atomic steps. -/
inductive Action (σ ω : Type) where
  | callSleep (w : σ)
  | unlock (w : σ)
  | satisfy (w : σ)
  | timeOut (w : σ)
  | leaveList (w : σ) (status : NtStatus)
  | satisfyAgain (w : σ)
  | relock (w : σ) (status : NtStatus) (granted : Bool)
  | returnSleep (w : σ) (status : NtStatus)
  | callWake (k : ω)
  | collect (k : ω)
  | signal (k : ω) (waiters : List σ) (full : Bool)

variable (calls : Calls σ ω κ)

def Enabled (s : State σ ω) : Action σ ω → Prop
  | .callSleep w => (s.sleep w).stage = .notCalled
  | .unlock w => (s.sleep w).stage = .unlocking
  | .satisfy w => (s.sleep w).stage = .waiting ∧ (s.sleep w).event = true
  | .timeOut w =>
    (s.sleep w).stage = .waiting ∧ (s.sleep w).event = false ∧ calls.timeOut w = true
  | .leaveList w status => (s.sleep w).stage = .waited status
  | .satisfyAgain w => (s.sleep w).stage = .waitingAgain ∧ (s.sleep w).event = true
  | .relock w status _ => (s.sleep w).stage = .locking status
  | .returnSleep w status => (s.sleep w).stage = .returning status
  | .callWake k => s.wake k = .notCalled
  | .collect k => s.wake k = .collecting
  | .signal k waiters full => s.wake k = .signalling waiters full

def next (s : State σ ω) : Action σ ω → State σ ω
  | .callSleep w => s.callSleep w
  | .unlock w => s.unlock w
  | .satisfy w => s.satisfy w
  | .timeOut w => s.goto w (.waited .timeout)
  | .leaveList w status => s.leaveList w status
  | .satisfyAgain w => s.satisfyAgain w
  | .relock w status granted => s.relock calls w status granted
  | .returnSleep w status => s.returnSleep w status
  | .callWake k => s.callWake calls k
  | .collect k => s.collect calls k
  | .signal k waiters full => s.signal calls k waiters full

/-- Nothing has been called; whoever is to sleep holds its lock. -/
def initialState : State σ ω where
  waitList := []
  sleep w := ⟨.notCalled, false, false, false, some (calls.lock w).mode⟩
  wake _ := .notCalled
  owed _ := []
  taken _ := []

/-- The condition variables. -/
def conditionVariables : System (State σ ω) (Action σ ω) where
  init s := s = initialState calls
  enabled := Enabled calls
  next := next calls

instance (s : State σ ω) (a : Action σ ω) :
    Decidable ((conditionVariables calls).enabled s a) := by
  cases a <;> simp only [conditionVariables, Enabled] <;> infer_instance

end Ldk.ConditionVariable
