import Ldk.TebMap.State
import Ldk.Tls.Ownership

/-!
# The slots of threads

`TlsAlloc`, `FlsAlloc` and their companions hand out indices and keep a value for each thread and
index. The two kinds differ in the callback an FLS index may have, which is given the values that
are left when a thread exits, the index is freed, or the TEB map is taken down.

- The threads have their TEBs already, and a thread is named by its TEB.
- `TlsFree`, `FlsFree` and `LdkpInvokeFlsCallback` are calls in flight and take their steps one by
  one between those of the others. What a callback does is a call of its own thread.
- The PEB lock may be taken again by the thread that has it. A call has it while it sweeps the
  TEBs and until it has cleared the bit of its index.
- Nothing else is called once the TEB map is being taken down.
-/

namespace Ldk.LocalStorage

open TransitionSystem TebMap
open Tls (findClearBit)

/-! ## Data -/

/-- A pointer in `FlsCallbacks`. The allocation it was registered for is auxiliary. -/
structure Callback where
  function : Nat
  allocation : Nat
  deriving DecidableEq, Repr

/-- Auxiliary: for whom an index is allocated. -/
structure Owner where
  allocation : Nat
  callback : Option Callback
  deriving DecidableEq, Repr

/-- A value in a slot. Its number, and whose index it was stored under, are auxiliary. -/
structure Stored where
  value : Nat
  number : Nat
  owner : Option Owner
  deriving DecidableEq, Repr

/-- Auxiliary: a value has been taken from a slot and passed to the callback, if there is one. -/
structure Taken where
  stored : Stored
  callback : Option Callback
  deriving DecidableEq, Repr

/-- Where a call is. -/
inductive Stage where
  /-- `TlsFree` or `FlsFree`, at a TEB whose slot it has cleared or not. -/
  | sweeping (kind : SlotKind) (index : Nat) (callback : Option Callback) (initialTeb teb : Nat)
      (cleared : Bool)
  /-- The bit of the index is to be cleared. -/
  | clearing (kind : SlotKind) (index : Nat)
  /-- `LdkpInvokeFlsCallback`, for a thread that exits, or with the TEBs that
  `LdkpTerminateTebMap` has still before it. It may have read the callback of the index. -/
  | invoking (teb index : Nat) (read : Option (Option Callback)) (rest : Option (List Nat))
  /-- `FlsFree` has followed a null pointer. -/
  | astray
  deriving DecidableEq, Repr

/-- A call of the thread with this TEB. -/
structure Call where
  teb : Nat
  stage : Stage
  deriving DecidableEq, Repr

structure State where
  /-- `TlsSlots` and `FlsSlots` of each TEB. -/
  slots : Nat → SlotKind → Nat → Option Stored
  /-- `RundownProtect` has been run down. -/
  runDown : Nat → Bool
  /-- `LdkpTebListHead` -/
  tebList : List Nat
  /-- `TlsBitmap` and `FlsBitmap` -/
  bitmaps : SlotKind → Nat → Bool
  flsCallbacks : Nat → Option Callback
  calls : Nat → Option Call
  /-- `LdkpTerminateTebMap` has been called. -/
  terminating : Bool
  /-- Auxiliary: the threads that have exited. -/
  exited : List Nat
  /-- Auxiliary: for whom the indices are allocated that nobody has begun to free. -/
  owners : SlotKind → Nat → Option Owner
  /-- Auxiliary: the values stored in FLS slots, and those another one was stored over. -/
  stores : List Stored
  overwritten : List Stored
  /-- Auxiliary: the values taken from FLS slots. -/
  taken : List Taken
  /-- Auxiliary: numbers allocations and stores. -/
  number : Nat

namespace State

variable (s : State)

def setSlot (a : Nat) (kind : SlotKind) (index : Nat) (x : Option Stored) : State :=
  { s with slots := fun b k j => if b = a ∧ k = kind ∧ j = index then x else s.slots b k j }

def setBit (kind : SlotKind) (index : Nat) (value : Bool) : State :=
  { s with bitmaps := fun k j => if k = kind ∧ j = index then value else s.bitmaps k j }

def setOwner (kind : SlotKind) (index : Nat) (owner : Option Owner) : State :=
  { s with owners := fun k j => if k = kind ∧ j = index then owner else s.owners k j }

def setCallback (index : Nat) (callback : Option Callback) : State :=
  { s with flsCallbacks := Function.update s.flsCallbacks index callback }

def setCall (p : Nat) (call : Option Call) : State :=
  { s with calls := Function.update s.calls p call }

/-- A call goes on to another stage. -/
def goto (p : Nat) (stage : Stage) : State :=
  match s.calls p with
  | none => s
  | some call => s.setCall p (some { call with stage := stage })

/-- An FLS slot is exchanged for a null pointer, and what it held is passed to a callback. -/
def take (a index : Nat) (callback : Option Callback) : State :=
  { s.setSlot a .fls index none with
    taken := ((s.slots a .fls index).map fun x => ⟨x, callback⟩).toList ++ s.taken }

/-! ## Indices -/

/-- An index is found and its slot in the current TEB is cleared. -/
def alloc (a : Nat) (kind : SlotKind) (function : Option Nat) : State :=
  match findClearBit (s.bitmaps kind) with
  | none => s
  | some index =>
    let callback : Option Callback := function.map fun f => ⟨f, s.number⟩
    let allocated := (s.setBit kind index true).setOwner kind index (some ⟨s.number, callback⟩)
    let registered := match kind with
      | .tls => allocated
      | .fls => allocated.setCallback index callback
    { registered.setSlot a kind index none with number := s.number + 1 }

/-- `TlsAlloc` -/
def tlsAlloc (a : Nat) : State := s.alloc a .tls none

/-- `FlsAlloc` -/
def flsAlloc (a : Nat) (lpCallback : Option Nat) : State := s.alloc a .fls lpCallback

/-- `TlsSetValue`. The value 0 is a null pointer. -/
def tlsSetValue (a index value : Nat) : State :=
  if slotsSize .tls ≤ index then s
  else s.setSlot a .tls index (if value = 0 then none else some ⟨value, 0, s.owners .tls index⟩)

/-- `FlsSetValue`. The value 0 is a null pointer. -/
def flsSetValue (a index value : Nat) : State :=
  if slotsSize .fls ≤ index then s
  else
    let x : Option Stored :=
      if value = 0 then none else some ⟨value, s.number, s.owners .fls index⟩
    { s.setSlot a .fls index x with
      stores := x.toList ++ s.stores
      overwritten := (s.slots a .fls index).toList ++ s.overwritten
      number := s.number + 1 }

/-- The beginning of `TlsFree`. -/
def tlsFree (p a index : Nat) : State :=
  if slotsSize .tls ≤ index then s
  else if s.bitmaps .tls index then
    if s.runDown a then s
    else (s.setOwner .tls index none).setCall p (some ⟨a, .sweeping .tls index none a a false⟩)
  else s

/-- The beginning of `FlsFree`: without a callback no slot is cleared. -/
def flsFree (p a index : Nat) : State :=
  if slotsSize .fls ≤ index then s
  else if s.bitmaps .fls index then
    let s' := (s.setCallback index none).setOwner .fls index none
    match s.flsCallbacks index with
    | none => s'.setCall p (some ⟨a, .clearing .fls index⟩)
    | some callback =>
      if s.runDown a then s'
      else s'.setCall p (some ⟨a, .sweeping .fls index (some callback) a a false⟩)
  else s

/-- The exchange in the sweep, after which `FlsFree` calls the callback. -/
def clear (p : Nat) : State :=
  match s.calls p with
  | some ⟨_, .sweeping .tls index callback initialTeb teb false⟩ =>
    (s.setSlot teb .tls index none).goto p (.sweeping .tls index callback initialTeb teb true)
  | some ⟨_, .sweeping .fls index callback initialTeb teb false⟩ =>
    (s.take teb index callback).goto p (.sweeping .fls index callback initialTeb teb true)
  | _ => s

/-- `LdkGetNextTebRundownProtection`. When it gives none, `TlsFree` ends its sweep, and `FlsFree`
does not look. -/
def hop (p : Nat) : State :=
  match s.calls p with
  | some ⟨_, .sweeping kind index callback initialTeb teb true⟩ =>
    let next := CircularSweep.next s.tebList teb
    if s.runDown next then
      match kind with
      | .tls => s.goto p (.clearing .tls index)
      | .fls => s.goto p .astray
    else if next = initialTeb then s.goto p (.clearing kind index)
    else s.goto p (.sweeping kind index callback initialTeb next false)
  | _ => s

/-- The bit is cleared and the PEB lock is released. -/
def clearBits (p : Nat) : State :=
  match s.calls p with
  | some ⟨_, .clearing kind index⟩ => (s.setBit kind index false).setCall p none
  | _ => s

/-! ## Exits -/

/-- `LdkpInvokeFlsCallback` begins with the first index, unless the TEB has been run down. -/
def invoke (p thread teb : Nat) (rest : Option (List Nat)) : State :=
  s.setCall p (some ⟨thread, .invoking teb (if s.runDown teb then slotsSize .fls else 0) none rest⟩)

/-- `Callback = NtCurrentPeb()->FlsCallbacks[i]` -/
def readCallback (p : Nat) : State :=
  match s.calls p with
  | some ⟨_, .invoking teb index none rest⟩ =>
    s.goto p (.invoking teb index (some (s.flsCallbacks index)) rest)
  | _ => s

/-- The exchange of the slot, after which the callback that was read is called. -/
def takeSlot (p : Nat) : State :=
  match s.calls p with
  | some ⟨_, .invoking teb index (some callback) rest⟩ =>
    (s.take teb index callback).goto p (.invoking teb (index + 1) none rest)
  | _ => s

/-- `LdkDeleteTeb` -/
def deleteTeb (a : Nat) : State :=
  { s with
    runDown := Function.update s.runDown a true
    slots := fun b => if b = a then fun _ _ => none else s.slots b }

/-- The loop is over. `LdkpTerminateTebMap` deletes the TEB and goes on with the next. -/
def finish (p : Nat) : State :=
  match s.calls p with
  | some ⟨_, .invoking teb _ none none⟩ =>
    { s.setCall p none with exited := teb :: s.exited }
  | some ⟨_, .invoking teb _ none (some [])⟩ => (s.deleteTeb teb).setCall p none
  | some ⟨thread, .invoking teb _ none (some (next :: rest))⟩ =>
    (s.deleteTeb teb).invoke p thread next (some rest)
  | _ => s

/-- `LdkpTerminateTebMap` takes the TEBs off the list. -/
def terminateTebMap (p a : Nat) : State :=
  let s' := { s with terminating := true, tebList := [] }
  match s.tebList with
  | [] => s'
  | teb :: rest => s'.invoke p a teb (some rest)

end State

/-! ## The transition system -/

/-- The steps. A new call is given with its number, and `a` is the TEB of its thread. -/
inductive Action where
  | tlsAlloc (a : Nat)
  | flsAlloc (a : Nat) (lpCallback : Option Nat)
  | tlsSetValue (a index value : Nat)
  | flsSetValue (a index value : Nat)
  | tlsFree (p a index : Nat)
  | flsFree (p a index : Nat)
  | clear (p : Nat)
  | hop (p : Nat)
  | clearBits (p : Nat)
  | exitThread (p a : Nat)
  | readCallback (p : Nat)
  | takeSlot (p : Nat)
  | finish (p : Nat)
  | terminateTebMap (p a : Nat)

/-- The call may be in a callback, from which its thread calls again. -/
def Stage.Calling : Stage → Prop
  | .sweeping kind _ _ _ _ cleared => kind = .fls ∧ cleared = true
  | .invoking _ _ read _ => read = none
  | _ => False

/-- The call has the PEB lock. -/
def Stage.Locked : Stage → Prop
  | .sweeping .. | .clearing .. => True
  | _ => False

/-- The thread runs code of its own. -/
structure State.Runs (s : State) (a : Nat) : Prop where
  listed : a ∈ s.tebList
  stays : a ∉ s.exited
  serving : s.terminating = false
  calling : ∀ p stage, s.calls p = some ⟨a, stage⟩ → stage.Calling

/-- The thread may take the PEB lock. -/
def State.LockFree (s : State) (a : Nat) : Prop :=
  ∀ p call, s.calls p = some call → call.stage.Locked → call.teb = a

/-- When an action may be taken. -/
def Enabled (s : State) : Action → Prop
  | .tlsAlloc a | .flsAlloc a _ => s.Runs a ∧ s.LockFree a
  | .tlsSetValue a _ _ | .flsSetValue a _ _ => s.Runs a
  | .tlsFree p a _ | .flsFree p a _ => s.calls p = none ∧ s.Runs a ∧ s.LockFree a
  | .clear p => ∃ thread kind index callback initialTeb teb,
    s.calls p = some ⟨thread, .sweeping kind index callback initialTeb teb false⟩
  | .hop p => ∃ thread kind index callback initialTeb teb,
    s.calls p = some ⟨thread, .sweeping kind index callback initialTeb teb true⟩
  | .clearBits p => ∃ thread kind index, s.calls p = some ⟨thread, .clearing kind index⟩
  | .exitThread p a => s.calls p = none ∧ s.Runs a
  | .readCallback p => ∃ thread teb index rest,
    s.calls p = some ⟨thread, .invoking teb index none rest⟩ ∧ index < slotsSize .fls
  | .takeSlot p => ∃ thread teb index callback rest,
    s.calls p = some ⟨thread, .invoking teb index (some callback) rest⟩
  | .finish p => ∃ thread teb index rest,
    s.calls p = some ⟨thread, .invoking teb index none rest⟩ ∧ slotsSize .fls ≤ index
  | .terminateTebMap _ _ => s.terminating = false ∧ ∀ q, s.calls q = none

/-- The state after an action. -/
def next (s : State) : Action → State
  | .tlsAlloc a => s.tlsAlloc a
  | .flsAlloc a lpCallback => s.flsAlloc a lpCallback
  | .tlsSetValue a index value => s.tlsSetValue a index value
  | .flsSetValue a index value => s.flsSetValue a index value
  | .tlsFree p a index => s.tlsFree p a index
  | .flsFree p a index => s.flsFree p a index
  | .clear p => s.clear p
  | .hop p => s.hop p
  | .clearBits p => s.clearBits p
  | .exitThread p a => s.invoke p a a none
  | .readCallback p => s.readCallback p
  | .takeSlot p => s.takeSlot p
  | .finish p => s.finish p
  | .terminateTebMap p a => s.terminateTebMap p a

/-- No index in use, with these TEBs. -/
def initialState (tebs : List Nat) : State where
  slots _ _ _ := none
  runDown _ := false
  tebList := tebs
  bitmaps _ _ := false
  flsCallbacks _ := none
  calls _ := none
  terminating := false
  exited := []
  owners _ _ := none
  stores := []
  overwritten := []
  taken := []
  number := 0

def localStorage : System State Action where
  init s := ∃ tebs : List Nat, tebs.Nodup ∧ s = initialState tebs
  enabled := Enabled
  next := next

end Ldk.LocalStorage
