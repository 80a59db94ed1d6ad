import Ldk.Threadpool.Watcher

/-!
# Threadpool timers

`TP_TIMER`: what `LdkpThreadpoolTimerThreadRoutine`, `SetThreadpoolTimer` and
`LdkpCloseThreadpoolTimerInternal` do in the places where watched objects differ.
-/

namespace Ldk.Threadpool.Timer

open TransitionSystem

/-- The fields of `TP_TIMER` that the lock protects, and the arguments of an arming
`SetThreadpoolTimer`. -/
structure Settings where
  dueTime : Int
  period : Nat
  windowLength : Nat
  deriving DecidableEq, Repr

/-- What is particular to timers. -/
def kind : Kind Settings Settings where
  armed f _ := f.set && !f.expired
  -- a signalled control event ends the wait before the time does
  elapses _ control status := status = .timeout && !control
  ignores status := status ≠ .timeout
  marks copy := copy.period = 0
  mark f := { f with expired := true }
  reload copy settings := { settings with dueTime := -((copy.period : Int) * 10000) }
  starts f := f.set && !(f.deleteRequested || f.cancelRequested)
  store arg settings := arg.getD settings
  disarmFlags f := { f with set := false, expired := false }
  disarm settings := { settings with period := 0, windowLength := 0 }
  armFlags f := { f with set := true }
  freshFlags f := { f with cancelRequested := false, expired := false }
  unsetsOnClose := false
  unset := id
  mark_delete _ := rfl
  disarmFlags_delete _ := rfl
  armFlags_delete _ := rfl
  freshFlags_delete _ := rfl
  starts_delete f h := by
    cases hdelete : f.deleteRequested <;> simp_all
  starts_cancel f h := by
    cases hcancel : f.cancelRequested <;> simp_all
  disarmFlags_starts f h := by simp at h
  armed_set f _ h := by
    cases hset : f.set <;> simp_all
  disarmFlags_set _ := rfl

/-- A timer as `CreateThreadpoolTimer` leaves it, with its thread and its clients. -/
def timer (C : Type) [DecidableEq C] :
    System (State Settings Settings C) (Action Settings Settings C) :=
  watcher kind C ⟨0, 0, 0⟩

instance {C : Type} [DecidableEq C] (s : State Settings Settings C) (a : Action Settings Settings C) :
    Decidable ((timer C).enabled s a) :=
  inferInstanceAs (Decidable (Enabled kind s a))

end Ldk.Threadpool.Timer
