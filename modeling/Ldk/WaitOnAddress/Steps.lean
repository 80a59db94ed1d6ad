import Ldk.WaitOnAddress.State

/-!
# Atomic steps of the wait-on-address layers

One definition per atomic step of `RtlWaitOnAddress`, `RtlWakeAddressSingle/All`,
`NtWaitForAlertByThreadId`, `NtAlertThreadByThreadId` and the terminate routines, and the
transition system `waitOnAddress` that interleaves them over any set of threads.

Each action names the thread that steps and the program counter it steps from, so an action is
enabled in at most one way.
-/

namespace Ldk.WaitOnAddress

open TransitionSystem

variable {T : Type} [DecidableEq T]

namespace State

/-! ## RtlWaitOnAddress -/

/-- The statuses `RtlWaitOnAddress` returns for those of the alert layer. -/
def rtlStatus (status : NtStatus) : NtStatus :=
  if status = .alerted then .success else status

/-- The argument check, the first comparison, and the initialisation of the entry. -/
def rtlCheck (s : State T) (t : T) : State T :=
  if (s.request t).accepted = false then s.finish t .invalidParameter
  else if ldkpWaitOnAddressValuesMatch s.mem (s.request t) = false then s.finish t .success
  else
    { s.goto t (.rtlWait .lock) with
      addressEntry := Function.update s.addressEntry t
        ⟨(s.request t).address, true, false⟩ }

/-- The list lock is taken; shutdown and the second comparison release it at once. -/
def rtlLock (s : State T) (t : T) : State T :=
  if s.rejectsWaits .address then s.finish t .deletePending
  else if ldkpWaitOnAddressValuesMatch s.mem (s.request t) = false then
    { s.finish t .success with
      addressEntry := Function.update s.addressEntry t
        { s.addressEntry t with inList := false } }
  else
    (s.onGate .address (·.acquire t)).goto t (.rtlWait .reference)

/-- The increment in `LdkpReferenceWaitOnAddressWait`. -/
def rtlReference (s : State T) (t : T) : State T :=
  (s.onGate .address WaitGate.increment).goto t
    (.rtlWait (if (s.gate .address).waitCount + 1 = 1 then .clear else .insert))

/-- The event part of `LdkpReferenceWaitOnAddressWait`. -/
def rtlClear (s : State T) (t : T) : State T :=
  (s.onGate .address WaitGate.clear).goto t (.rtlWait .insert)

/-- The entry is linked and, unless the third comparison fails, stays linked. -/
def rtlInsert (s : State T) (t : T) : State T :=
  if ldkpWaitOnAddressValuesMatch s.mem (s.request t) then
    { (s.onGate .address WaitGate.release).goto t (.ntWait .first .lock) with
      addressList := s.addressList ++ [t] }
  else
    { (s.onGate .address WaitGate.release).goto t (.rtlWait (.dereference .success)) with
      addressEntry := Function.update s.addressEntry t
        { s.addressEntry t with inList := false } }

/-- The lock section after the first alert wait, and the decision to wait again. -/
def rtlUnlink (s : State T) (t : T) (status : NtStatus) : State T :=
  let next : Pc T :=
    if (s.addressEntry t).woken ∧ status ≠ .alerted ∧ status ≠ .success then
      .ntWait .second .lock
    else
      .rtlWait (.dereference (rtlStatus status))
  if (s.addressEntry t).inList then
    { s.goto t next with
      addressEntry := Function.update s.addressEntry t
        { s.addressEntry t with inList := false }
      addressList := removeEntryList s.addressList t }
  else
    s.goto t next

/-- The decrement in `LdkpDereferenceWaitOnAddressWait`. -/
def rtlDereference (s : State T) (t : T) (status : NtStatus) : State T :=
  if (s.gate .address).waitCount - 1 = 0 then
    (s.onGate .address WaitGate.decrement).goto t (.rtlWait (.setDrained status))
  else
    (s.onGate .address WaitGate.decrement).finish t status

/-- The event part of `LdkpDereferenceWaitOnAddressWait`. -/
def rtlSetDrained (s : State T) (t : T) (status : NtStatus) : State T :=
  (s.onGate .address WaitGate.set).finish t status

/-! ## NtWaitForAlertByThreadId -/

/-- Whether the running call of `NtWaitForAlertByThreadId` was given a `Timeout`. -/
def hasTimeout (s : State T) (t : T) : NtWaitReturn → Bool
  | .direct timeout => timeout
  | .first => (s.request t).timeout
  | .second => false

/-- Return from `NtWaitForAlertByThreadId`. -/
def ntReturn (s : State T) (t : T) (ret : NtWaitReturn) (status : NtStatus) : State T :=
  match ret with
  | .direct _ => s.finish t status
  | .first => s.goto t (.rtlWait (.unlink status))
  | .second => s.goto t (.rtlWait (.dereference (rtlStatus status)))

/-- The event and the entry are initialised and the list lock is taken. -/
def ntLock (s : State T) (t : T) (ret : NtWaitReturn) : State T :=
  let s' : State T :=
    { s with
      event := Function.update s.event t false
      alertEntry := Function.update s.alertEntry t ⟨true, false⟩ }
  if s.rejectsWaits .alert then s'.ntReturn t ret .deletePending
  else (s'.onGate .alert (·.acquire t)).goto t (.ntWait ret .reference)

/-- The increment in `LdkpReferenceAlertByThreadIdWait`. -/
def ntReference (s : State T) (t : T) (ret : NtWaitReturn) : State T :=
  (s.onGate .alert WaitGate.increment).goto t
    (.ntWait ret (if (s.gate .alert).waitCount + 1 = 1 then .clear else .pending))

/-- The event part of `LdkpReferenceAlertByThreadIdWait`. -/
def ntClear (s : State T) (t : T) (ret : NtWaitReturn) : State T :=
  (s.onGate .alert WaitGate.clear).goto t (.ntWait ret .pending)

/-- A pending alert is consumed, or the entry is linked; either releases the list lock. -/
def ntPending (s : State T) (t : T) (ret : NtWaitReturn) : State T :=
  if t ∈ s.pendingList ∨ s.alertByThreadIdPending t then
    { (s.onGate .alert WaitGate.release).goto t (.ntWait ret (.dereference .alerted)) with
      pendingList := s.pendingList.erase t
      alertByThreadIdPending := Function.update s.alertByThreadIdPending t false }
  else
    { (s.onGate .alert WaitGate.release).goto t (.ntWait ret .block) with
      alertList := s.alertList ++ [t] }

/-- `KeWaitForSingleObject` on the alert event is satisfied. -/
def ntSatisfied (s : State T) (t : T) (ret : NtWaitReturn) : State T :=
  { s.goto t (.ntWait ret (.unlink .success)) with event := Function.update s.event t false }

/-- `KeWaitForSingleObject` on the alert event times out. -/
def ntTimeout (s : State T) (t : T) (ret : NtWaitReturn) : State T :=
  s.goto t (.ntWait ret (.unlink .timeout))

/-- The lock section after the wait, and the decision to wait for the event again. -/
def ntUnlink (s : State T) (t : T) (ret : NtWaitReturn) (status : NtStatus) : State T :=
  let next : NtWaitPc :=
    if (s.alertEntry t).woken ∧ status ≠ .success then .blockWoken
    else .dereference (if status = .success then .alerted else status)
  if (s.alertEntry t).inList then
    { s.goto t (.ntWait ret next) with
      alertEntry := Function.update s.alertEntry t { s.alertEntry t with inList := false }
      alertList := removeEntryList s.alertList t }
  else
    s.goto t (.ntWait ret next)

/-- The second `KeWaitForSingleObject`, without timeout, is satisfied. -/
def ntSatisfiedWoken (s : State T) (t : T) (ret : NtWaitReturn) : State T :=
  { s.goto t (.ntWait ret (.dereference .alerted)) with
    event := Function.update s.event t false }

/-- The decrement in `LdkpDereferenceAlertByThreadIdWait`. -/
def ntDereference (s : State T) (t : T) (ret : NtWaitReturn) (status : NtStatus) : State T :=
  if (s.gate .alert).waitCount - 1 = 0 then
    (s.onGate .alert WaitGate.decrement).goto t (.ntWait ret (.setDrained status))
  else
    (s.onGate .alert WaitGate.decrement).ntReturn t ret status

/-- The event part of `LdkpDereferenceAlertByThreadIdWait`. -/
def ntSetDrained (s : State T) (t : T) (ret : NtWaitReturn) (status : NtStatus) : State T :=
  (s.onGate .alert WaitGate.set).ntReturn t ret status

/-! ## Wakes -/

/-- Whether `LdkpCollectWaitOnAddressThreadIds` takes the entry; `terminate` passes no address. -/
def collects (s : State T) (c : Collector) (t : T) : Bool :=
  match c with
  | .single a | .all a => (s.addressEntry t).address == a
  | .terminate => true

/-- `WakeAll` of the collector. -/
def Collector.wakesAll : Collector → Bool
  | .single _ => false
  | .all _ | .terminate => true

/-- `ThreadIdCount` of the collector. -/
def Collector.limit : Collector → Nat
  | .single _ => 1
  | .all _ | .terminate => wakeBatch

/-- The thread ids taken by one collect section, and the entries left. -/
def collected (s : State T) (c : Collector) : List T × List T :=
  collectEntries (s.collects c) (Collector.wakesAll c) (Collector.limit c) s.addressList

/-- `LdkpCollectWaitOnAddressThreadIds`. -/
def collectIds (s : State T) (t : T) (c : Collector) : State T :=
  let ids := (s.collected c).1
  { s.goto t (.alertIds c ids (ids.length == Collector.limit c)) with
    addressList := (s.collected c).2
    addressEntry := fun u =>
      if u ∈ ids then { s.addressEntry u with inList := false, woken := true }
      else s.addressEntry u
    wokenBy := fun u => if u ∈ ids then some (t, s.calls t) else s.wokenBy u }

/-- The loop of `LdkpAlertThreadIds`, and after it the loop of the caller. -/
def alertNext (s : State T) (t : T) (c : Collector) (ids : List T) (full : Bool) : State T :=
  match ids with
  | id :: rest => s.goto t (.ntAlert (.batch c rest full) id .lookup)
  | [] =>
    match c with
    | .single _ => s.finish t .success
    | .all _ => if full then s.goto t (.collect c) else s.finish t .success
    | .terminate =>
      if full then s.goto t (.collect c) else s.goto t (.terminate .address .collectEvents)

/-! ## NtAlertThreadByThreadId -/

/-- Return from `NtAlertThreadByThreadId`. -/
def alertReturn (s : State T) (t : T) (ret : AlertReturn T) (status : NtStatus) : State T :=
  match ret with
  | .direct => s.finish t status
  | .batch c rest full => s.goto t (.alertIds c rest full)

/-- `LdkpRemoveAlertByThreadIdWaiterLocked` when it finds the target. -/
def removeWaiter (s : State T) (target : T) : State T :=
  { s with
    alertEntry := Function.update s.alertEntry target ⟨false, true⟩
    alertList := removeEntryList s.alertList target }

/-- `PsLookupThreadByThreadId`. -/
def alertLookup (s : State T) (t : T) (ret : AlertReturn T) (target : T) (found : Bool) :
    State T :=
  if found then s.goto t (.ntAlert ret target .remove) else s.alertReturn t ret .invalidCid

/-- The first lock section. -/
def alertRemove (s : State T) (t : T) (ret : AlertReturn T) (target : T) : State T :=
  if target ∈ s.alertList then (s.removeWaiter target).goto t (.ntAlert ret target .setEvent)
  else s.goto t (.ntAlert ret target .allocate)

/-- `ExAllocateFromNPagedLookasideList` for the pending record. -/
def alertAllocate (s : State T) (t : T) (ret : AlertReturn T) (target : T)
    (allocated : Bool) : State T :=
  s.goto t (.ntAlert ret target (if allocated then .insert else .recheck))

/-- The lock section after a failed allocation. -/
def alertRecheck (s : State T) (t : T) (ret : AlertReturn T) (target : T) : State T :=
  if target ∈ s.alertList then (s.removeWaiter target).goto t (.ntAlert ret target .setEvent)
  else s.alertReturn t ret .insufficientResources

/-- The lock section with a pending record in hand. -/
def alertInsert (s : State T) (t : T) (ret : AlertReturn T) (target : T) : State T :=
  if target ∈ s.alertList then (s.removeWaiter target).goto t (.ntAlert ret target .setEvent)
  else if target ∈ s.pendingList then s.alertReturn t ret .success
  else { s.alertReturn t ret .success with pendingList := s.pendingList ++ [target] }

/-- `KeSetEvent` on the target's alert event. -/
def alertSetEvent (s : State T) (t : T) (ret : AlertReturn T) (target : T) : State T :=
  { s.alertReturn t ret .success with event := Function.update s.event target true }

/-! ## Terminate routines -/

/-- The shutting-down flag is set under the list lock. -/
def terminateShutDown (s : State T) (t : T) (l : Layer) : State T :=
  (s.onGate l (fun g => { g with shuttingDown := true })).goto t
    (match l with
     | .address => .collect .terminate
     | .alert => .terminate .alert .collectEvents)

/-- `LdkpCollectAlertByThreadIdEvents`. -/
def terminateCollectEvents (s : State T) (t : T) (l : Layer) : State T :=
  let events := s.alertList.take wakeBatch
  { s.goto t (.terminate l (.setEvents events (events.length == wakeBatch))) with
    alertList := s.alertList.drop wakeBatch
    alertEntry := fun u => if u ∈ events then ⟨false, true⟩ else s.alertEntry u }

/-- The loop of `LdkpSetAlertByThreadIdEvents`, and after it the loop of
`LdkpWakeAllAlertByThreadIdWaiters`. -/
def terminateSetEvent (s : State T) (t : T) (l : Layer) (events : List T) (full : Bool) :
    State T :=
  match events with
  | u :: rest =>
    { s.goto t (.terminate l (.setEvents rest full)) with event := Function.update s.event u true }
  | [] => s.goto t (.terminate l (if full then .collectEvents else .drain))

/-- The wait on the drained event is satisfied. -/
def terminateDrain (s : State T) (t : T) (l : Layer) : State T :=
  let s' : State T := { s with terminated := Function.update s.terminated l true }
  match l with
  | .address => s'.finish t .success
  | .alert => s'.goto t (.terminate .alert .clearPending)

/-- One turn of `LdkpClearPendingAlertByThreadIdList`. -/
def terminateClearPending (s : State T) (t : T) : State T :=
  match s.pendingList with
  | [] => s.finish t .success
  | _ :: rest => { s with pendingList := rest }

/-! ## Calls -/

/-- A client's thread begins a call at the program counter `p`. -/
def begin (s : State T) (t : T) (p : Pc T) : State T :=
  { s.goto t p with calls := Function.update s.calls t (s.calls t + 1) }

/-- `RtlWaitOnAddress` is called. -/
def callWaitOnAddress (s : State T) (t : T) (r : WaitRequest) : State T :=
  { s.begin t (.rtlWait .check) with
    request := Function.update s.request t r
    wokenBy := Function.update s.wokenBy t none }

/-- `RtlWakeAddressSingle` or `RtlWakeAddressAll` is called; a null address returns at once. -/
def callWake (s : State T) (t : T) (address : Nat) (all : Bool) : State T :=
  if address = 0 then s.finish t .success
  else s.begin t (.collect (if all then .all address else .single address))

end State

/-! ## The transition system -/

/-- The atomic steps. -/
inductive Action (T : Type) where
  | callWaitOnAddress (t : T) (r : WaitRequest)
  | callWake (t : T) (address : Nat) (all : Bool)
  | callNtWait (t : T) (timeout : Bool)
  | callNtAlert (t : T) (target : T)
  | callTerminate (t : T) (l : Layer)
  | rtlCheck (t : T)
  | rtlLock (t : T)
  | rtlReference (t : T)
  | rtlClear (t : T)
  | rtlInsert (t : T)
  | rtlUnlink (t : T) (status : NtStatus)
  | rtlDereference (t : T) (status : NtStatus)
  | rtlSetDrained (t : T) (status : NtStatus)
  | ntLock (t : T) (ret : NtWaitReturn)
  | ntReference (t : T) (ret : NtWaitReturn)
  | ntClear (t : T) (ret : NtWaitReturn)
  | ntPending (t : T) (ret : NtWaitReturn)
  | ntSatisfied (t : T) (ret : NtWaitReturn)
  | ntTimeout (t : T) (ret : NtWaitReturn)
  | ntUnlink (t : T) (ret : NtWaitReturn) (status : NtStatus)
  | ntSatisfiedWoken (t : T) (ret : NtWaitReturn)
  | ntDereference (t : T) (ret : NtWaitReturn) (status : NtStatus)
  | ntSetDrained (t : T) (ret : NtWaitReturn) (status : NtStatus)
  | collectIds (t : T) (c : Collector)
  | alertNext (t : T) (c : Collector) (ids : List T) (full : Bool)
  | alertLookup (t : T) (ret : AlertReturn T) (target : T) (found : Bool)
  | alertRemove (t : T) (ret : AlertReturn T) (target : T)
  | alertAllocate (t : T) (ret : AlertReturn T) (target : T) (allocated : Bool)
  | alertRecheck (t : T) (ret : AlertReturn T) (target : T)
  | alertInsert (t : T) (ret : AlertReturn T) (target : T)
  | alertSetEvent (t : T) (ret : AlertReturn T) (target : T)
  | terminateShutDown (t : T) (l : Layer)
  | terminateCollectEvents (t : T) (l : Layer)
  | terminateSetEvent (t : T) (l : Layer) (events : List T) (full : Bool)
  | terminateDrain (t : T) (l : Layer)
  | terminateClearPending (t : T)
  /-- Threads store to memory. -/
  | store (mem : Memory)
  /-- `LDK_SHUTDOWN_IN_PROGRESS` is set. -/
  | beginShutdown

/-- When an action may be taken. A lookup may fail only for a thread that is not in a call,
since only such a thread may have exited. -/
def Enabled (s : State T) : Action T → Prop
  | .callWaitOnAddress t _ | .callWake t _ _ | .callNtWait t _ | .callNtAlert t _
  | .callTerminate t _ => s.pc t = .idle
  | .rtlCheck t => s.pc t = .rtlWait .check
  | .rtlLock t => s.pc t = .rtlWait .lock ∧ s.LockFree .address
  | .rtlReference t => s.pc t = .rtlWait .reference
  | .rtlClear t => s.pc t = .rtlWait .clear
  | .rtlInsert t => s.pc t = .rtlWait .insert
  | .rtlUnlink t st => s.pc t = .rtlWait (.unlink st) ∧ s.LockFree .address
  | .rtlDereference t st => s.pc t = .rtlWait (.dereference st)
  | .rtlSetDrained t st => s.pc t = .rtlWait (.setDrained st)
  | .ntLock t ret => s.pc t = .ntWait ret .lock ∧ s.LockFree .alert
  | .ntReference t ret => s.pc t = .ntWait ret .reference
  | .ntClear t ret => s.pc t = .ntWait ret .clear
  | .ntPending t ret => s.pc t = .ntWait ret .pending
  | .ntSatisfied t ret => s.pc t = .ntWait ret .block ∧ s.event t = true
  | .ntTimeout t ret =>
    s.pc t = .ntWait ret .block ∧ s.hasTimeout t ret = true ∧ s.event t = false
  | .ntUnlink t ret st => s.pc t = .ntWait ret (.unlink st) ∧ s.LockFree .alert
  | .ntSatisfiedWoken t ret => s.pc t = .ntWait ret .blockWoken ∧ s.event t = true
  | .ntDereference t ret st => s.pc t = .ntWait ret (.dereference st)
  | .ntSetDrained t ret st => s.pc t = .ntWait ret (.setDrained st)
  | .collectIds t c => s.pc t = .collect c ∧ s.LockFree .address
  | .alertNext t c ids full => s.pc t = .alertIds c ids full
  | .alertLookup t ret target found =>
    s.pc t = .ntAlert ret target .lookup ∧ (found = true ∨ s.pc target = .idle)
  | .alertRemove t ret target => s.pc t = .ntAlert ret target .remove ∧ s.LockFree .alert
  | .alertAllocate t ret target _ => s.pc t = .ntAlert ret target .allocate
  | .alertRecheck t ret target => s.pc t = .ntAlert ret target .recheck ∧ s.LockFree .alert
  | .alertInsert t ret target => s.pc t = .ntAlert ret target .insert ∧ s.LockFree .alert
  | .alertSetEvent t ret target => s.pc t = .ntAlert ret target .setEvent
  | .terminateShutDown t l => s.pc t = .terminate l .shutDown ∧ s.LockFree l
  | .terminateCollectEvents t l => s.pc t = .terminate l .collectEvents ∧ s.LockFree .alert
  | .terminateSetEvent t l events full => s.pc t = .terminate l (.setEvents events full)
  | .terminateDrain t l => s.pc t = .terminate l .drain ∧ (s.gate l).drained = true
  | .terminateClearPending t => s.pc t = .terminate .alert .clearPending ∧ s.LockFree .alert
  | .store _ | .beginShutdown => True

instance Enabled.decidable (s : State T) (a : Action T) : Decidable (Enabled s a) := by
  cases a <;> unfold Enabled <;> infer_instance

/-- The state after an action. -/
def next (s : State T) : Action T → State T
  | .callWaitOnAddress t r => s.callWaitOnAddress t r
  | .callWake t address all => s.callWake t address all
  | .callNtWait t timeout => s.begin t (.ntWait (.direct timeout) .lock)
  | .callNtAlert t target => s.begin t (.ntAlert .direct target .lookup)
  | .callTerminate t l => s.begin t (.terminate l .shutDown)
  | .rtlCheck t => s.rtlCheck t
  | .rtlLock t => s.rtlLock t
  | .rtlReference t => s.rtlReference t
  | .rtlClear t => s.rtlClear t
  | .rtlInsert t => s.rtlInsert t
  | .rtlUnlink t st => s.rtlUnlink t st
  | .rtlDereference t st => s.rtlDereference t st
  | .rtlSetDrained t st => s.rtlSetDrained t st
  | .ntLock t ret => s.ntLock t ret
  | .ntReference t ret => s.ntReference t ret
  | .ntClear t ret => s.ntClear t ret
  | .ntPending t ret => s.ntPending t ret
  | .ntSatisfied t ret => s.ntSatisfied t ret
  | .ntTimeout t ret => s.ntTimeout t ret
  | .ntUnlink t ret st => s.ntUnlink t ret st
  | .ntSatisfiedWoken t ret => s.ntSatisfiedWoken t ret
  | .ntDereference t ret st => s.ntDereference t ret st
  | .ntSetDrained t ret st => s.ntSetDrained t ret st
  | .collectIds t c => s.collectIds t c
  | .alertNext t c ids full => s.alertNext t c ids full
  | .alertLookup t ret target found => s.alertLookup t ret target found
  | .alertRemove t ret target => s.alertRemove t ret target
  | .alertAllocate t ret target allocated => s.alertAllocate t ret target allocated
  | .alertRecheck t ret target => s.alertRecheck t ret target
  | .alertInsert t ret target => s.alertInsert t ret target
  | .alertSetEvent t ret target => s.alertSetEvent t ret target
  | .terminateShutDown t l => s.terminateShutDown t l
  | .terminateCollectEvents t l => s.terminateCollectEvents t l
  | .terminateSetEvent t l events full => s.terminateSetEvent t l events full
  | .terminateDrain t l => s.terminateDrain t l
  | .terminateClearPending t => s.terminateClearPending t
  | .store mem => { s with mem := mem }
  | .beginShutdown => { s with shutdownInProgress := true }

/-- `LdkpInitializeWaitOnAddressList` and `LdkpInitializeAlertByThreadIdList`, with every
thread outside the layers. -/
def initialState (T : Type) (mem : Memory) : State T where
  mem := mem
  shutdownInProgress := false
  gate _ := ⟨none, 0, true, false⟩
  addressList := []
  addressEntry _ := ⟨0, false, false⟩
  alertList := []
  alertEntry _ := ⟨false, false⟩
  event _ := false
  pendingList := []
  alertByThreadIdPending _ := false
  pc _ := .idle
  request _ := ⟨0, 0, 0, false⟩
  result _ := .success
  calls _ := 0
  wokenBy _ := none
  terminated _ := false

/-- The wait-on-address layers, interleaved over the threads `T`. -/
def waitOnAddress (T : Type) [DecidableEq T] : System (State T) (Action T) where
  init s := ∃ mem, s = initialState T mem
  enabled := Enabled
  next := next

instance (s : State T) (a : Action T) : Decidable ((waitOnAddress T).enabled s a) :=
  inferInstanceAs (Decidable (Enabled s a))

end Ldk.WaitOnAddress
