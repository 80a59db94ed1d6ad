import Mathlib
import Ldk.Lib.CircularSweep
import Ldk.Lib.TransitionSystem

/-!
# Static and dynamic thread local storage

Modules with a TLS directory and the clients of `TlsAlloc` share one bitmap of indices and the
slots of the TEBs.

- Every routine is a call in flight, in a thread; a thread may be in several, as the entry point of
  a module may call LDK again. A call takes its steps one by one between those of the others.
- A module is unloaded when the last reference to it is dropped. References are held by the calls
  that load it and by the snapshots of thread notifications, and the unload waits for these.
- `LdkCurrentTeb` may create a TEB (`createTeb`): for the TEB list, or, while LDK shuts down, for
  the temporary list, and on that list a TEB has no links.
- No step runs down the protection of a TEB; that is done when the TEB map is taken down.
-/

namespace Ldk.Tls

open TransitionSystem

/-! ## Data -/

/-- `LDK_TLS_SLOTS_SIZE` -/
def slotsSize : Nat := 1024

/-- `MAXULONG` -/
def maxUlong : Nat := 0xffffffff

/-- `IMAGE_TLS_DIRECTORY`, with the bytes between the two addresses of the raw data. -/
structure TlsDirectory where
  startAddressOfRawData : BitVec 64
  endAddressOfRawData : BitVec 64
  addressOfIndex : BitVec 64
  sizeOfZeroFill : BitVec 32
  rawData : List UInt8
  rawData_length : startAddressOfRawData ≤ endAddressOfRawData →
    rawData.length = (endAddressOfRawData - startAddressOfRawData).toNat

/-- What a slot holds: a null pointer, a block for a module, or what a client has stored. The
module a block was made for is auxiliary. -/
inductive Slot where
  | null
  | block (module : Nat) (contents : List UInt8)
  | data (value : Nat)
  deriving DecidableEq, Repr

/-- `LDK_TEB` -/
structure Teb where
  thread : Nat
  tlsSlots : Nat → Slot
  /-- `RundownProtect` has been run down. -/
  runDown : Bool

/-- `LDK_MODULE`. No index is `LDK_TLS_OUT_OF_INDEXES`. -/
structure Module where
  tlsIndex : Option Nat
  tlsRawData : List UInt8
  tlsDataSize : Nat
  /-- `LDK_MODULE_FLAG_PROCESS_ATTACHED` -/
  processAttached : Bool
  deriving DecidableEq, Repr

/-- `DLL_THREAD_ATTACH` and `DLL_THREAD_DETACH` -/
inductive Reason where
  | threadAttach
  | threadDetach
  deriving DecidableEq, Repr

/-- Where a call is. The index that is swept is given up by a module, or by a client. -/
inductive Stage where
  /-- `LdkpInitializeModuleTls` has taken an index for the module. -/
  | loading (module : Nat)
  /-- `LdkpInitializeModuleTls` could not allocate a block. -/
  | failing (module : Nat)
  /-- `LdkpCallThreadNotifications`, with the modules to come and those it is done with. -/
  | notifying (reason : Reason) (todo done : List Nat)
  /-- `LdkpUnregisterModule` -/
  | unregistering (module : Nat)
  /-- `LdkpFreeStaticTlsForAllTebs` or `TlsFree`, at a TEB whose slot it has cleared or not. -/
  | sweeping (index : Nat) (module : Option Nat) (initialTeb teb : Nat) (cleared : Bool)
  /-- The bit of the index is to be cleared. -/
  | clearing (index : Nat) (module : Option Nat)
  /-- The links of a TEB in no list have been followed. -/
  | astray
  deriving DecidableEq, Repr

structure Call where
  thread : Nat
  stage : Stage
  deriving DecidableEq, Repr

structure State where
  tebs : Nat → Option Teb
  /-- `LdkpTebListHead` -/
  tebList : List Nat
  /-- `LdkpTemporaryTebListHead` -/
  temporaryTebList : List Nat
  /-- `LDK_SHUTDOWN_IN_PROGRESS` -/
  shutdownInProgress : Bool
  /-- `NtCurrentPeb()->TlsBitmap` -/
  tlsBitmap : Nat → Bool
  /-- The call that keeps the PEB lock over several steps. -/
  pebLock : Option Nat
  modules : Nat → Option Module
  moduleList : List Nat
  calls : Nat → Option Call
  /-- Auxiliary: the indices that clients have from `TlsAlloc`. -/
  allocated : List Nat

/-! ## Modules -/

/-- The sizes that `LdkpInitializeModuleTls` computes, if it accepts the directory. -/
def TlsDirectory.sizes (directory : TlsDirectory) : Option (Nat × Nat) :=
  let start := directory.startAddressOfRawData
  let stop := directory.endAddressOfRawData
  if directory.addressOfIndex = 0 then none
  else if stop < start ∨ maxUlong < (stop - start).toNat ∨
      maxUlong - ((stop - start).setWidth 32).toNat < directory.sizeOfZeroFill.toNat then none
  else
    let rawDataSize := (stop - start).setWidth 32
    some (rawDataSize.toNat, (rawDataSize + directory.sizeOfZeroFill).toNat)

/-- The block `LdkpInitializeStaticTlsForTeb` makes for a module: zeros with the raw data in front.
There is none when the size is zero. -/
def Module.block (md : Module) (m : Nat) : Slot :=
  if md.tlsDataSize = 0 then .null
  else .block m (md.tlsRawData ++ List.replicate (md.tlsDataSize - md.tlsRawData.length) 0)

/-- The first clear one of so many bits from some bit on. -/
def findClearBitFrom (bitmap : Nat → Bool) : Nat → Nat → Option Nat
  | _, 0 => none
  | i, count + 1 => if bitmap i then findClearBitFrom bitmap (i + 1) count else some i

/-- `RtlFindClearBitsAndSet` of one bit, without a hint. -/
def findClearBit (bitmap : Nat → Bool) : Option Nat := findClearBitFrom bitmap 0 slotsSize

namespace State

variable (s : State)

def setTeb (a : Nat) (teb : Teb) : State :=
  { s with tebs := Function.update s.tebs a (some teb) }

/-- A slot of a TEB is exchanged. -/
def setSlot (a index : Nat) (value : Slot) : State :=
  match s.tebs a with
  | none => s
  | some teb => s.setTeb a { teb with tlsSlots := Function.update teb.tlsSlots index value }

def slot (a index : Nat) : Slot :=
  match s.tebs a with
  | none => .null
  | some teb => teb.tlsSlots index

def setModule (m : Nat) (md : Option Module) : State :=
  { s with modules := Function.update s.modules m md }

def setModuleList (modules : List Nat) : State := { s with moduleList := modules }

def setBit (index : Nat) (value : Bool) : State :=
  { s with tlsBitmap := Function.update s.tlsBitmap index value }

def setCall (p : Nat) (call : Option Call) : State :=
  { s with calls := Function.update s.calls p call }

/-- A call goes on to another stage. -/
def goto (p : Nat) (stage : Stage) : State :=
  match s.calls p with
  | none => s
  | some call => s.setCall p (some { call with stage := stage })

/-! ## TEBs -/

/-- `LdkCreateTeb`, or `LdkpCreateTeb` for the temporary list. -/
def createTeb (thread a : Nat) : State :=
  let s := s.setTeb a ⟨thread, fun _ => .null, false⟩
  if s.shutdownInProgress then { s with temporaryTebList := a :: s.temporaryTebList }
  else { s with tebList := a :: s.tebList }

/-! ## Static TLS -/

/-- `LdkpInitializeStaticTlsForTeb`. The pool may fail. -/
def initializeStaticTlsForTeb (m a : Nat) (poolFails : Bool) : Bool × State :=
  match s.modules m with
  | none => (true, s)
  | some md =>
    match md.tlsIndex with
    | none => (true, s)
    | some index =>
      if s.slot a index ≠ .null then (true, s)
      else if md.tlsDataSize ≠ 0 ∧ poolFails then (false, s)
      else (true, s.setSlot a index (md.block m))

/-- `LdkpFreeStaticTlsForTeb` -/
def freeStaticTlsForTeb (m a : Nat) : State :=
  match s.modules m with
  | none => s
  | some md =>
    match md.tlsIndex with
    | none => s
    | some index => s.setSlot a index .null

/-- `LdkRegisterModule` and `LdkpInitializeModuleTls` up to the slot of the current thread. A module
whose directory is refused, or for which there is no index, is unloaded at once. -/
def load (p thread m : Nat) (directory : Option TlsDirectory) : State :=
  let attached : Module := ⟨none, [], 0, true⟩
  match directory with
  | none =>
    (s.setModule m (some attached)).setModuleList (m :: s.moduleList)
  | some directory =>
    match directory.sizes with
    | none => s
    | some (rawDataSize, dataSize) =>
      match findClearBit s.tlsBitmap with
      | none => s
      | some index =>
        let md : Module := ⟨some index, directory.rawData.take rawDataSize, dataSize, false⟩
        (((s.setBit index true).setModule m (some md)).setModuleList (m :: s.moduleList)).setCall p
          (some ⟨thread, .loading m⟩)

/-- `LDK_MODULE_FLAG_PROCESS_ATTACHED` is set. -/
def attach (m : Nat) : State :=
  s.setModule m ((s.modules m).map fun md => { md with processAttached := true })

/-- The rest of `LdkpInitializeModuleTls`, on the current TEB. -/
def initializeModuleTls (p m a : Nat) (poolFails : Bool) : State :=
  let (initialized, s) := s.initializeStaticTlsForTeb m a poolFails
  if initialized then (s.attach m).setCall p none else s.goto p (.failing m)

/-- The failure path of `LdkpInitializeModuleTls`. `LdkUnloadDll` comes after it. -/
def fail (p m : Nat) : State :=
  match s.modules m with
  | none => s
  | some md =>
    let s := match md.tlsIndex with
      | none => s
      | some index => s.setBit index false
    (s.setModule m (some { md with tlsIndex := none, tlsRawData := [], tlsDataSize := 0 })).setCall
      p none

/-! ## Notifications -/

/-- `LdkpReferenceProcessAttachedModuleSnapshot` -/
def snapshot : List Nat :=
  s.moduleList.filter fun m => (s.modules m).any (·.processAttached)

/-- A module of the snapshot is notified. -/
def visit (p a : Nat) (poolFails : Bool) : State :=
  match s.calls p with
  | some ⟨_, .notifying .threadAttach (m :: todo) done⟩ =>
    (s.initializeStaticTlsForTeb m a poolFails).2.goto p (.notifying .threadAttach todo (m :: done))
  | some ⟨_, .notifying .threadDetach (m :: todo) done⟩ =>
    (s.freeStaticTlsForTeb m a).goto p (.notifying .threadDetach todo (m :: done))
  | _ => s

/-- `LdkpReleaseProcessAttachedModuleSnapshot` drops one reference, and the call is over after the
last one. -/
def release (p : Nat) : State :=
  match s.calls p with
  | some ⟨_, .notifying reason [] (_ :: done)⟩ => s.goto p (.notifying reason [] done)
  | some ⟨_, .notifying _ [] []⟩ => s.setCall p none
  | _ => s

/-! ## Giving up an index -/

/-- `LdkUnloadDll` takes a module off the list. -/
def unload (p thread m : Nat) : State :=
  (s.setModuleList (s.moduleList.filter (· ≠ m))).setCall p (some ⟨thread, .unregistering m⟩)

/-- The beginning of `LdkpUninitializeModuleTls`, with the current TEB. -/
def startSweep (p m a : Nat) : State :=
  match (s.modules m).bind (·.tlsIndex) with
  | none => (s.setModule m none).setCall p none
  | some index =>
    if (s.tebs a).any (·.runDown) then s.goto p (.clearing index (some m))
    else s.goto p (.sweeping index (some m) a a false)

/-- `LdkpFreeStaticTlsForTeb` in the sweep, and the exchange in `TlsFree`. -/
def clear (p : Nat) : State :=
  match s.calls p with
  | some ⟨_, .sweeping index m initialTeb teb false⟩ =>
    (s.setSlot teb index .null).goto p (.sweeping index m initialTeb teb true)
  | _ => s

/-- `LdkGetNextTebRundownProtection` -/
def hop (p : Nat) : State :=
  match s.calls p with
  | some ⟨_, .sweeping index m initialTeb teb true⟩ =>
    if teb ∈ s.tebList then
      let next := CircularSweep.next s.tebList teb
      if (s.tebs next).any (·.runDown) then s.goto p (.clearing index m)
      else if next = initialTeb then s.goto p (.clearing index m)
      else s.goto p (.sweeping index m initialTeb next false)
    else s.goto p .astray
  | _ => s

/-- The bit is cleared, and a module is freed. `TlsFree` gives back the PEB lock. -/
def clearBits (p : Nat) : State :=
  match s.calls p with
  | some ⟨_, .clearing index (some m)⟩ => ((s.setBit index false).setModule m none).setCall p none
  | some ⟨_, .clearing index none⟩ => { s.setBit index false with pebLock := none }.setCall p none
  | _ => s

/-! ## Dynamic TLS -/

/-- `TlsAlloc` -/
def tlsAlloc (a : Nat) : State :=
  match findClearBit s.tlsBitmap with
  | none => s
  | some index =>
    { (s.setBit index true).setSlot a index .null with allocated := index :: s.allocated }

/-- `TlsSetValue`. The value 0 is a null pointer. -/
def tlsSetValue (a index value : Nat) : State :=
  if slotsSize ≤ index then s
  else s.setSlot a index (if value = 0 then .null else .data value)

/-- The beginning of `TlsFree`. -/
def tlsFree (p thread a index : Nat) : State :=
  if slotsSize ≤ index then s
  else if s.tlsBitmap index then
    if (s.tebs a).any (·.runDown) then s
    else
      { s with allocated := s.allocated.erase index, pebLock := some p }.setCall p
        (some ⟨thread, .sweeping index none a a false⟩)
  else s

end State

/-! ## The transition system -/

/-- The steps. A new call is given with its number and thread, and `a` is the current TEB. -/
inductive Action where
  | createTeb (thread a : Nat)
  | beginShutdown
  | load (p thread m : Nat) (directory : Option TlsDirectory)
  | initializeModuleTls (p m a : Nat) (poolFails : Bool)
  | fail (p m : Nat)
  | notify (p thread : Nat) (reason : Reason)
  | visit (p a : Nat) (poolFails : Bool)
  | release (p : Nat)
  | unload (p thread m : Nat)
  | startSweep (p m a : Nat)
  | clear (p : Nat)
  | hop (p : Nat)
  | clearBits (p : Nat)
  | tlsAlloc (thread a : Nat)
  | tlsSetValue (thread a index value : Nat)
  | tlsFree (p thread a index : Nat)

/-- The modules a call holds a reference to. -/
def Stage.held : Stage → List Nat
  | .loading m | .failing m => [m]
  | .notifying _ todo done => todo ++ done
  | _ => []

/-- Some call holds a reference to the module. -/
def State.Held (s : State) (m : Nat) : Prop :=
  ∃ p call, s.calls p = some call ∧ m ∈ call.stage.held

/-- `LdkCurrentTeb` returns the TEB. -/
def State.CurrentTeb (s : State) (thread a : Nat) : Prop :=
  (∃ teb, s.tebs a = some teb ∧ teb.thread = thread) ∧ (a ∈ s.tebList ∨ a ∈ s.temporaryTebList)

/-- A call is at a stage, and `a` is the current TEB of its thread. -/
def State.At (s : State) (p a : Nat) (stage : Stage) : Prop :=
  ∃ thread, s.calls p = some ⟨thread, stage⟩ ∧ s.CurrentTeb thread a

/-- When an action may be taken. What changes bits waits for the PEB lock, except for the call that
has it. A client frees and sets only indices it has. -/
def Enabled (s : State) : Action → Prop
  | .createTeb thread a =>
    s.tebs a = none ∧ ∀ b ∈ s.tebList, ∀ teb, s.tebs b = some teb → teb.thread ≠ thread
  | .beginShutdown => True
  | .load p _ m _ => s.calls p = none ∧ s.modules m = none ∧ s.pebLock = none
  | .initializeModuleTls p m a _ => s.At p a (.loading m)
  | .fail p m => (∃ thread, s.calls p = some ⟨thread, .failing m⟩) ∧ s.pebLock = none
  | .notify p _ _ => s.calls p = none
  | .visit p a _ => ∃ reason todo done, s.At p a (.notifying reason todo done)
  | .release p => ∃ thread reason done, s.calls p = some ⟨thread, .notifying reason [] done⟩
  | .unload p _ m => s.calls p = none ∧ m ∈ s.moduleList ∧ ¬ s.Held m
  | .startSweep p m a => s.At p a (.unregistering m)
  | .clear p => ∃ thread index m initialTeb teb,
    s.calls p = some ⟨thread, .sweeping index m initialTeb teb false⟩
  | .hop p => ∃ thread index m initialTeb teb,
    s.calls p = some ⟨thread, .sweeping index m initialTeb teb true⟩
  | .clearBits p => ∃ thread index m, s.calls p = some ⟨thread, .clearing index m⟩ ∧
    (m = none ∨ s.pebLock = none)
  | .tlsAlloc thread a => s.CurrentTeb thread a ∧ s.pebLock = none
  | .tlsSetValue thread a index _ => s.CurrentTeb thread a ∧ index ∈ s.allocated
  | .tlsFree p thread a index => s.calls p = none ∧ s.CurrentTeb thread a ∧
    index ∈ s.allocated ∧ s.pebLock = none

/-- The state after an action. -/
def next (s : State) : Action → State
  | .createTeb thread a => s.createTeb thread a
  | .beginShutdown => { s with shutdownInProgress := true }
  | .load p thread m directory => s.load p thread m directory
  | .initializeModuleTls p m a poolFails => s.initializeModuleTls p m a poolFails
  | .fail p m => s.fail p m
  | .notify p thread reason => s.setCall p (some ⟨thread, .notifying reason s.snapshot []⟩)
  | .visit p a poolFails => s.visit p a poolFails
  | .release p => s.release p
  | .unload p thread m => s.unload p thread m
  | .startSweep p m a => s.startSweep p m a
  | .clear p => s.clear p
  | .hop p => s.hop p
  | .clearBits p => s.clearBits p
  | .tlsAlloc _ a => s.tlsAlloc a
  | .tlsSetValue _ a index value => s.tlsSetValue a index value
  | .tlsFree p thread a index => s.tlsFree p thread a index

/-- No TEB, no module and no index in use. -/
def initialState : State where
  tebs _ := none
  tebList := []
  temporaryTebList := []
  shutdownInProgress := false
  tlsBitmap _ := false
  pebLock := none
  modules _ := none
  moduleList := []
  calls _ := none
  allocated := []

def threadLocalStorage : System State Action where
  init s := s = initialState
  enabled := Enabled
  next := next

end Ldk.Tls
