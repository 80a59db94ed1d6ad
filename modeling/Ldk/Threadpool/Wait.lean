import Ldk.Threadpool.Watcher

/-!
# Threadpool wait objects

`TP_WAIT`: what `LdkpThreadpoolWaitThreadRoutine`, `SetThreadpoolWait` and
`LdkpCloseThreadpoolWaitInternal` do in the places where watched objects differ. A
`SetThreadpoolWait` whose handle is rejected returns before it touches the object and is left
out.
-/

namespace Ldk.Threadpool.Wait

open TransitionSystem

/-- The arguments of an arming `SetThreadpoolWait`: the object of the handle and the timeout. -/
structure Registration where
  waitObject : Nat
  timeout : Option Int
  deriving DecidableEq, Repr

/-- The fields of `TP_WAIT` that the lock protects. -/
structure Settings where
  waitObject : Option Nat
  timeout : Int
  hasTimeout : Bool
  deriving DecidableEq, Repr

/-- The fields stored by `SetThreadpoolWait`. -/
def store : Option Registration → Settings
  | none => ⟨none, 0, false⟩
  | some r => ⟨some r.waitObject, r.timeout.getD 0, r.timeout.isSome⟩

theorem unsetFlag_delete (f : Flags) :
    ({ f with set := false } : Flags).deleteRequested = f.deleteRequested := rfl

theorem setFlag_delete (f : Flags) :
    ({ f with set := true } : Flags).deleteRequested = f.deleteRequested := rfl

/-- What is particular to wait objects. -/
def kind : Kind Settings Registration where
  armed f settings := f.set && settings.waitObject.isSome
  -- the wait object is the first one, so it ends the wait before the control event does
  elapses copy control status :=
    match status with
    | .object => true
    | .timeout => copy.hasTimeout && !control
    | .other => true
  ignores status := status = .other
  marks _ := true
  mark f := { f with set := false }
  reload _ settings := settings
  starts f := !(f.deleteRequested || f.cancelRequested)
  store arg _ := store arg
  disarmFlags f := { f with set := false }
  disarm := id
  armFlags f := { f with set := true }
  freshFlags f := { f with cancelRequested := false }
  unsetsOnClose := true
  unset settings := { settings with waitObject := none }
  mark_delete := unsetFlag_delete
  disarmFlags_delete := unsetFlag_delete
  armFlags_delete := setFlag_delete
  freshFlags_delete _ := rfl
  starts_delete f h := by
    cases hdelete : f.deleteRequested <;> simp_all
  starts_cancel f h := by
    cases hcancel : f.cancelRequested <;> simp_all
  disarmFlags_starts _ h := h
  armed_set f _ h := by
    cases hset : f.set <;> simp_all
  disarmFlags_set _ := rfl

/-- A wait object as `CreateThreadpoolWait` leaves it, with its thread and its clients. -/
def wait (C : Type) [DecidableEq C] :
    System (State Settings Registration C) (Action Settings Registration C) :=
  watcher kind C ⟨none, 0, false⟩

instance {C : Type} [DecidableEq C] (s : State Settings Registration C) (a : Action Settings Registration C) :
    Decidable ((wait C).enabled s a) :=
  inferInstanceAs (Decidable (Enabled kind s a))

end Ldk.Threadpool.Wait
