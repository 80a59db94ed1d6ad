import Mathlib
import Ldk.Lib.TransitionSystem

/-!
# Exception dispatch

`RtlRaiseException` and `RtlDispatchException` of `except.c` (AMD64), with any number of
activations on any number of threads, and the teardown of `teb.c`. An activation runs on its
thread alone, except for the list of records, which is under a spin lock; each part of it between
two points where its thread may do something else, and each such part with the lock, is one step.

- An activation has a name, and its record goes by that name.
- Which handlers there are for an exception, and where its search of the stack ends, is left open.
- A handler may return any disposition, raise further exceptions first, or unwind: then its
  activation and those inside it are gone. So are all activations of a thread that ends.
- A TEB is deleted, and the runtime torn down, when no activation runs on the thread any more.
-/

namespace Ldk.Except

open TransitionSystem

/-- `EXCEPTION_DISPOSITION` -/
inductive Disposition where
  | continueExecution
  | continueSearch
  | nestedException
  | collidedUnwind
  /-- Any other value. -/
  | invalid
  deriving DecidableEq, Repr

/-- `LDK_DISPATCH_EXCEPTION_STACK_VARIABLES` -/
structure StackVariables where
  /-- `EXCEPTION_NONCONTINUABLE` of `ExceptionFlags`. -/
  noncontinuable : Bool
  /-- Auxiliary: the memory has been taken. -/
  allocated : Bool
  /-- Auxiliary: how often the memory has been given back. -/
  freed : Nat
  /-- Auxiliary: the record has been read, written or unlinked after that. -/
  touched : Bool
  /-- Auxiliary: another exception has been dispatched on the thread while the handler ran. -/
  nested : Bool
  deriving DecidableEq, Repr

/-- How far an activation has come. -/
inductive Stage where
  | notCalled
  /-- The old record is dealt with. -/
  | allocating
  /-- About to insert its record in the list. -/
  | linking
  /-- In the search for a handler. -/
  | searching
  /-- A language handler runs. -/
  | inHandler
  /-- At `DispatchExit`. -/
  | exiting (completion : Bool)
  /-- Has called `ExRaiseStatus`, which does not return. -/
  | raised
  | returned (completion : Bool)
  | unwound
  deriving DecidableEq, Repr

/-- Other code of the thread may run inside the activation. -/
def Stage.outside : Stage → Bool
  | .inHandler | .raised => true
  | _ => false

/-- The TEB of a thread. -/
inductive Teb where
  | absent
  | active
  | deleted
  deriving DecidableEq, Repr

structure State (κ τ : Type) where
  /-- `Teb->OldDispatchExceptionStackVariables` -/
  oldVariables : τ → Option κ
  /-- `LdkpDispatchExceptionStackVariablesListHead` -/
  list : List κ
  record : κ → StackVariables
  stage : κ → Stage
  /-- The activations under way on a thread, the innermost first. -/
  stack : τ → List κ
  teb : τ → Teb
  /-- `LdkpTerminateDispatchExceptionStackVariables` has run. -/
  swept : Bool

variable {κ τ : Type} [DecidableEq κ] [DecidableEq τ]

namespace State

variable (s : State κ τ) (a : κ) (t : τ)

def setRecord (v : StackVariables) : State κ τ :=
  { s with record := Function.update s.record a v }

def goto (stage : Stage) : State κ τ := { s with stage := Function.update s.stage a stage }

def setOldVariables (r : Option κ) : State κ τ :=
  { s with oldVariables := Function.update s.oldVariables t r }

/-- The record is read or written. -/
def touch : State κ τ :=
  s.setRecord a { s.record a with
    touched := (s.record a).touched || decide (0 < (s.record a).freed) }

/-- `LdkFreeDispatchExceptionStackVariables` -/
def free : State κ τ :=
  { s.setRecord a { s.record a with
      touched := (s.record a).touched || decide (0 < (s.record a).freed)
      freed := (s.record a).freed + 1 } with
    list := s.list.erase a }

/-- The record in the TEB, if there is one, is freed and forgotten. -/
def freeOldVariables : State κ τ :=
  match s.oldVariables t with
  | some r => (s.free r).setOldVariables t none
  | none => s

/-! ## RtlDispatchException -/

def enter (noncontinuable : Bool) : State κ τ :=
  let s := s.freeOldVariables t
  { s.goto a .allocating with
    record := fun b =>
      if b = a then { s.record a with noncontinuable := noncontinuable }
      else if b ∈ s.stack t then { s.record b with nested := true }
      else s.record b
    stack := Function.update s.stack t (a :: s.stack t)
    teb := Function.update s.teb t .active }

def allocate (ok : Bool) : State κ τ :=
  if ok then
    ((s.setRecord a { s.record a with allocated := true }).setOldVariables t (some a)).goto a
      .linking
  else s.goto a .raised

def link : State κ τ := { (s.touch a).goto a .searching with list := a :: s.list }

/-- The walk up the stack, to the next handler or to its end. -/
def search (found : Bool) : State κ τ :=
  (s.touch a).goto a (if found then .inHandler else .exiting false)

/-- The handler has returned, and may have made the exception noncontinuable. -/
def handlerReturn (noncontinuable : Bool) (disposition : Disposition) : State κ τ :=
  let s := s.touch a
  let noncontinuable := (s.record a).noncontinuable || noncontinuable
  let s := s.setRecord a { s.record a with noncontinuable := noncontinuable }
  match disposition with
  | .continueExecution =>
    if noncontinuable then (s.free a).goto a .raised else s.goto a (.exiting true)
  | .continueSearch | .nestedException => s.goto a .searching
  -- the handler of the other frame is called in turn
  | .collidedUnwind => s.goto a .inHandler
  | .invalid => (s.free a).goto a .raised

/-- `DispatchExit` -/
def exit (completion : Bool) : State κ τ :=
  { ((s.setOldVariables t none).free a).goto a (.returned completion) with
    stack := Function.update s.stack t (s.stack t).tail }

/-- The frames of the activation and of those inside it are unwound. -/
def unwind : State κ τ :=
  { s with
    stage := fun b =>
      if b ∈ (s.stack t).takeWhile (· ≠ a) ∨ b = a then .unwound else s.stage b
    stack := Function.update s.stack t ((s.stack t).dropWhile (· ≠ a)).tail }

/-! ## The teardown -/

/-- `LdkpTerminateTeb` -/
def deleteTeb : State κ τ :=
  { s.freeOldVariables t with teb := Function.update s.teb t .deleted }

/-- `LdkpTerminateDispatchExceptionStackVariables` -/
def sweep : State κ τ :=
  { s with
    list := []
    record := fun b =>
      if b ∈ s.list then { s.record b with
        touched := (s.record b).touched || decide (0 < (s.record b).freed)
        freed := (s.record b).freed + 1 }
      else s.record b
    swept := true }

end State

/-! ## The transition system -/

/-- The atomic steps. -/
inductive Action (κ τ : Type) where
  | enter (a : κ) (noncontinuable : Bool)
  | allocate (a : κ) (ok : Bool)
  | link (a : κ)
  | search (a : κ) (found : Bool)
  | handlerReturn (a : κ) (noncontinuable : Bool) (disposition : Disposition)
  | exit (a : κ) (completion : Bool)
  | unwind (a : κ)
  | deleteTeb (t : τ)
  | sweep
  deriving DecidableEq, Repr

variable (thread : κ → τ)

def Enabled (s : State κ τ) : Action κ τ → Prop
  | .enter a _ =>
    s.stage a = .notCalled ∧ s.teb (thread a) ≠ .deleted ∧ s.swept = false ∧
      ∀ b ∈ (s.stack (thread a)).head?, (s.stage b).outside = true
  | .allocate a _ => s.stage a = .allocating
  | .link a => s.stage a = .linking
  | .search a _ => s.stage a = .searching
  | .handlerReturn a _ _ =>
    s.stage a = .inHandler ∧ (s.stack (thread a)).head? = some a
  | .exit a completion => s.stage a = .exiting completion
  | .unwind a =>
    a ∈ s.stack (thread a) ∧ ∀ b ∈ (s.stack (thread a)).head?, (s.stage b).outside = true
  | .deleteTeb t => s.teb t = .active ∧ s.stack t = []
  | .sweep => s.swept = false ∧ ∀ t, s.stack t = [] ∧ s.teb t ≠ .active

def next (s : State κ τ) : Action κ τ → State κ τ
  | .enter a noncontinuable => s.enter a (thread a) noncontinuable
  | .allocate a ok => s.allocate a (thread a) ok
  | .link a => s.link a
  | .search a found => s.search a found
  | .handlerReturn a noncontinuable disposition => s.handlerReturn a noncontinuable disposition
  | .exit a completion => s.exit a (thread a) completion
  | .unwind a => s.unwind a (thread a)
  | .deleteTeb t => s.deleteTeb t
  | .sweep => s.sweep

/-- The state `LdkpInitializeDispatchExceptionStackVariables` leaves behind. -/
def initialState (κ τ : Type) : State κ τ where
  oldVariables _ := none
  list := []
  record _ := ⟨false, false, 0, false, false⟩
  stage _ := .notCalled
  stack _ := []
  teb _ := .absent
  swept := false

/-- The activations, each on its thread. -/
def dispatch : System (State κ τ) (Action κ τ) where
  init s := s = initialState κ τ
  enabled := Enabled thread
  next := next thread

instance [Fintype τ] (s : State κ τ) (a : Action κ τ) :
    Decidable ((dispatch thread).enabled s a) := by
  cases a <;> simp only [dispatch, Enabled] <;> infer_instance

end Ldk.Except
