import Mathlib
import Ldk.Lib.DrainGate
import Ldk.WaitOnAddress.Steps

/-!
# The teardown barrier of the wait layers

`LdkpTerminateWaitOnAddressList` and `LdkpTerminateAlertByThreadIdList` wait for the drained
event of their layer and then let the layer's lists be torn down. The wait is a barrier when no
thread is then between `Reference...Wait` and `Dereference...Wait`.

- `place` reads a thread's place in that pair off its program counter, and `GateEvent` lists
  what one step can do to a layer's gate.
- `gateSimulation`: under `PromptDrain` each layer runs a counted drain gate without late sets.
- `Closing`: once the shutting-down flag is set nobody enters the layer.
- `terminate_is_barrier`: without late `KeSetEvent` steps the terminate routines are barriers.
- `late_drain_breaks_barrier`: the last leaver of an earlier wait sets the event after a new
  waiter has cleared it, and the terminate routine returns over that waiter.
-/

namespace Ldk.WaitOnAddress

open TransitionSystem

variable {T : Type} [DecidableEq T]

/-! ## Places -/

/-- Where a thread is with respect to a layer's reference/dereference pair. -/
inductive Place where
  | outside
  /-- In the section that registers a wait, about to increment. -/
  | locked
  /-- Incremented, about to clear the drained event. -/
  | raised
  /-- Referenced, and still in the section that registers the wait. -/
  | registering
  /-- Between `Reference...Wait` and `Dereference...Wait`, past that section. -/
  | inside
  /-- Decremented to zero, about to set the drained event. -/
  | lowered
  /-- In the terminate routine, past the section that sets the shutting-down flag. -/
  | terminating
  deriving DecidableEq, Repr

/-- The place of a program counter in a layer. -/
def place : Layer → Pc T → Place
  | .address, .rtlWait .reference => .locked
  | .address, .rtlWait .clear => .raised
  | .address, .rtlWait .insert => .registering
  | .address, .rtlWait (.unlink _) => .inside
  | .address, .rtlWait (.dereference _) => .inside
  | .address, .rtlWait (.setDrained _) => .lowered
  | .address, .ntWait .first _ => .inside
  | .address, .ntWait .second _ => .inside
  | .address, .collect .terminate => .terminating
  | .address, .alertIds .terminate _ _ => .terminating
  | .address, .ntAlert (.batch .terminate _ _) _ _ => .terminating
  | .alert, .ntWait _ .reference => .locked
  | .alert, .ntWait _ .clear => .raised
  | .alert, .ntWait _ .pending => .registering
  | .alert, .ntWait _ .block => .inside
  | .alert, .ntWait _ (.unlink _) => .inside
  | .alert, .ntWait _ .blockWoken => .inside
  | .alert, .ntWait _ (.dereference _) => .inside
  | .alert, .ntWait _ (.setDrained _) => .lowered
  | l, .terminate l' pc => if l = l' ∧ pc ≠ .shutDown then .terminating else .outside
  | _, _ => .outside

namespace Place

/-- The phase of a place in the layer's drain gate. -/
def phase : Place → DrainGate.Phase
  | .outside | .locked | .terminating => .out
  | .raised => .raised
  | .registering | .inside => .inside
  | .lowered => .lowered

/-- The section that registers a wait: it is carried out under the list lock. -/
def InSection : Place → Prop
  | .locked | .raised | .registering => True
  | .outside | .inside | .lowered | .terminating => False

/-- The thread has returned from `Reference...Wait` and has not yet decremented in
`Dereference...Wait`. -/
def BetweenReferences : Place → Prop
  | .registering | .inside => True
  | .outside | .locked | .raised | .lowered | .terminating => False

instance : DecidablePred BetweenReferences := fun p => by
  cases p <;> unfold BetweenReferences <;> infer_instance

theorem betweenReferences_iff (p : Place) : p.BetweenReferences ↔ p.phase = .inside := by
  cases p <;> simp [BetweenReferences, phase]

end Place

/-- No thread is between `Reference...Wait` and `Dereference...Wait` of the layer. -/
def NobodyBetween (l : Layer) (s : State T) : Prop :=
  ∀ t, ¬ (place l (s.pc t)).BetweenReferences

/-- The layer whose drained event an action sets in `Dereference...Wait`. -/
def Action.setsDrained : Action T → Option Layer
  | .rtlSetDrained _ _ => some .address
  | .ntSetDrained _ _ _ => some .alert
  | _ => none

/-- `Dereference...Wait` sets the drained event of a layer only while no thread is between
`Reference...Wait` and `Dereference...Wait` of that layer. -/
def PromptDrain (s : State T) (a : Action T) : Prop :=
  ∀ l, a.setsDrained = some l → NobodyBetween l s

instance [Fintype T] (l : Layer) (s : State T) : Decidable (NobodyBetween l s) :=
  inferInstanceAs (Decidable (∀ _, ¬ _))

instance [Fintype T] (s : State T) (a : Action T) : Decidable (PromptDrain s a) :=
  decidable_of_iff ((a.setsDrained = some .address → NobodyBetween .address s) ∧
      (a.setsDrained = some .alert → NobodyBetween .alert s))
    ⟨fun h l => match l with
      | .address => h.1
      | .alert => h.2,
      fun h => ⟨h _, h _⟩⟩

/-! ## What a step does to a layer's gate -/

/-- What one step can do to a layer's gate. -/
inductive GateEvent (l : Layer) (s : State T) (a : Action T) (s' : State T) : Prop where
  /-- Nothing, except that a thread may return from the terminate routine. -/
  | quiet (hgate : s'.gate l = s.gate l) (hterminated : s'.terminated l = s.terminated l)
      (hplace : ∀ u, place l (s'.pc u) = place l (s.pc u) ∨
        place l (s.pc u) = .terminating ∧ place l (s'.pc u) = .outside)
  /-- The shutting-down flag is set. -/
  | shutDown (t : T) (p : Pc T) (hpc : s'.pc = Function.update s.pc t p)
      (hfrom : place l (s.pc t) = .outside) (hto : place l p = .terminating)
      (hfree : s.LockFree l)
      (hgate : s'.gate l = { s.gate l with shuttingDown := true })
      (hterminated : s'.terminated l = s.terminated l)
  /-- The drain wait of the terminate routine is passed. -/
  | drain (t : T) (p : Pc T) (hpc : s'.pc = Function.update s.pc t p)
      (hfrom : place l (s.pc t) = .terminating)
      (hto : place l p = .outside ∨ place l p = .terminating)
      (hdrained : (s.gate l).drained = true)
      (hgate : s'.gate l = s.gate l)
  /-- A wait enters the section that registers it. -/
  | acquire (t : T) (p : Pc T) (hpc : s'.pc = Function.update s.pc t p)
      (hfrom : place l (s.pc t) = .outside) (hto : place l p = .locked)
      (hfree : s.LockFree l) (hopen : (s.gate l).shuttingDown = false)
      (hgate : s'.gate l = (s.gate l).acquire t)
      (hterminated : s'.terminated l = s.terminated l)
  /-- `Reference...Wait` increments. -/
  | reference (t : T) (p : Pc T) (hpc : s'.pc = Function.update s.pc t p)
      (hfrom : place l (s.pc t) = .locked)
      (hto : place l p = if (s.gate l).waitCount + 1 = 1 then .raised else .registering)
      (hgate : s'.gate l = (s.gate l).increment)
      (hterminated : s'.terminated l = s.terminated l)
  /-- `Reference...Wait` clears the drained event. -/
  | clear (t : T) (p : Pc T) (hpc : s'.pc = Function.update s.pc t p)
      (hfrom : place l (s.pc t) = .raised) (hto : place l p = .registering)
      (hgate : s'.gate l = (s.gate l).clear)
      (hterminated : s'.terminated l = s.terminated l)
  /-- The section that registers a wait ends. -/
  | register (t : T) (p : Pc T) (hpc : s'.pc = Function.update s.pc t p)
      (hfrom : place l (s.pc t) = .registering) (hto : place l p = .inside)
      (hgate : s'.gate l = (s.gate l).release)
      (hterminated : s'.terminated l = s.terminated l)
  /-- `Dereference...Wait` decrements. -/
  | dereference (t : T) (p : Pc T) (hpc : s'.pc = Function.update s.pc t p)
      (hfrom : place l (s.pc t) = .inside)
      (hto : place l p = if (s.gate l).waitCount - 1 = 0 then .lowered else .outside)
      (hgate : s'.gate l = (s.gate l).decrement)
      (hterminated : s'.terminated l = s.terminated l)
  /-- `Dereference...Wait` sets the drained event. -/
  | setDrained (t : T) (p : Pc T) (hpc : s'.pc = Function.update s.pc t p)
      (hfrom : place l (s.pc t) = .lowered) (hto : place l p = .outside)
      (hset : a.setsDrained = some l) (hgate : s'.gate l = (s.gate l).set)
      (hterminated : s'.terminated l = s.terminated l)

/-- A move of one thread that keeps its place. -/
theorem GateEvent.move {l : Layer} {s s' : State T} {a : Action T} (t : T) (p : Pc T)
    (hpc : s'.pc = Function.update s.pc t p) (hgate : s'.gate l = s.gate l)
    (hterminated : s'.terminated l = s.terminated l)
    (hplace : place l p = place l (s.pc t)) : GateEvent l s a s' := by
  refine .quiet hgate hterminated (fun u => Or.inl ?_)
  rw [hpc]
  by_cases hu : u = t
  · subst hu; simpa using hplace
  · simp [Function.update_of_ne hu]

/-- The whole of `NtWaitForAlertByThreadId` is one place in the address layer. -/
theorem place_address_ntWait (ret : NtWaitReturn) (pc pc' : NtWaitPc) :
    place .address (.ntWait ret pc : Pc T) = place .address (.ntWait ret pc' : Pc T) := by
  cases ret <;> rfl

/-- Alerting is one place of its caller in either layer. -/
theorem place_ntAlert (l : Layer) (ret : AlertReturn T) (target target' : T) (pc pc' : NtAlertPc) :
    place l (.ntAlert ret target pc) = place l (.ntAlert ret target' pc') := by
  cases l <;> cases ret with
  | direct => rfl
  | batch c _ _ => cases c <;> rfl

/-- Returning from `NtAlertThreadByThreadId` keeps the caller's place. -/
theorem gateEvent_alertReturn {l : Layer} {s s' : State T} {a : Action T} {t target : T}
    {ret : AlertReturn T} {pc : NtAlertPc} (status : NtStatus)
    (hpc : s.pc t = .ntAlert ret target pc)
    (heq : s'.pc = (s.alertReturn t ret status).pc) (hgate : s'.gate = s.gate)
    (hterminated : s'.terminated = s.terminated) : GateEvent l s a s' := by
  cases ret with
  | direct =>
    exact GateEvent.move t _ heq (by rw [hgate]) (by rw [hterminated])
      (by cases l <;> simp [hpc, place])
  | batch c rest full =>
    refine GateEvent.move t _ heq (by rw [hgate]) (by rw [hterminated]) ?_
    cases l <;> cases c <;> simp [hpc, place]

/-- Every step of the layers is one of the gate's events. -/
theorem gateEvent_of_step (l : Layer) (s : State T) (a : Action T) (hen : Enabled s a) :
    GateEvent l s a (next s a) := by
  cases a with
  | callWaitOnAddress t _ | callNtWait t _ | callNtAlert t _ | callTerminate t _ =>
    have hpc : s.pc t = .idle := hen
    exact GateEvent.move t _ rfl rfl rfl (by cases l <;> simp [hpc, place])
  | callWake t address all =>
    have hpc : s.pc t = .idle := hen
    simp only [next, State.callWake]
    split
    · exact GateEvent.move t _ rfl rfl rfl (by cases l <;> simp [hpc, place])
    · refine GateEvent.move t _ rfl rfl rfl ?_
      cases l <;> cases all <;> simp [hpc, place]
  | rtlCheck t =>
    have hpc : s.pc t = .rtlWait .check := hen
    simp only [next, State.rtlCheck]
    split_ifs <;> exact GateEvent.move t _ rfl rfl rfl (by cases l <;> simp [hpc, place])
  | rtlLock t =>
    have hpc : s.pc t = .rtlWait .lock := hen.1
    simp only [next, State.rtlLock]
    split_ifs with hreject hmatch
    · exact GateEvent.move t _ rfl rfl rfl (by cases l <;> simp [hpc, place])
    · exact GateEvent.move t _ rfl rfl rfl (by cases l <;> simp [hpc, place])
    -- the gate of addresses is entered, that of alerts is passed by
    · cases l with
      | address =>
        have hopen : (s.gate .address).shuttingDown = false := by
          simp only [State.rejectsWaits, Bool.or_eq_true, not_or] at hreject
          simpa using hreject.1
        exact GateEvent.acquire t _ rfl (by simp [hpc, place]) (by simp [place]) hen.2 hopen
          rfl rfl
      | alert => exact GateEvent.move t _ rfl rfl rfl (by simp [hpc, place])
  | rtlReference t =>
    have hpc : s.pc t = .rtlWait .reference := hen
    cases l with
    | address =>
      refine GateEvent.reference t _ rfl (by simp [hpc, place]) ?_ rfl rfl
      split <;> rfl
    | alert =>
      refine GateEvent.move t _ rfl rfl rfl ?_
      split <;> simp [hpc, place]
  | rtlClear t =>
    have hpc : s.pc t = .rtlWait .clear := hen
    cases l with
    | address => exact GateEvent.clear t _ rfl (by simp [hpc, place]) rfl rfl rfl
    | alert => exact GateEvent.move t _ rfl rfl rfl (by simp [hpc, place])
  | rtlInsert t =>
    have hpc : s.pc t = .rtlWait .insert := hen
    simp only [next, State.rtlInsert]
    split <;> cases l with
    | address => exact GateEvent.register t _ rfl (by simp [hpc, place]) rfl rfl rfl
    | alert => exact GateEvent.move t _ rfl rfl rfl (by simp [hpc, place])
  | rtlUnlink t st =>
    have hpc : s.pc t = .rtlWait (.unlink st) := hen.1
    simp only [next, State.rtlUnlink]
    split <;> split <;> exact GateEvent.move t _ rfl rfl rfl (by cases l <;> simp [hpc, place])
  | rtlDereference t st =>
    have hpc : s.pc t = .rtlWait (.dereference st) := hen
    simp only [next, State.rtlDereference]
    cases l with
    | address =>
      -- the last reference has the event still to set
      split <;> rename_i hcount <;>
        exact GateEvent.dereference t _ rfl (by simp [hpc, place]) (by simp [hcount, place])
          rfl rfl
    | alert => split <;> exact GateEvent.move t _ rfl rfl rfl (by simp [hpc, place])
  | rtlSetDrained t st =>
    have hpc : s.pc t = .rtlWait (.setDrained st) := hen
    cases l with
    | address => exact GateEvent.setDrained t _ rfl (by simp [hpc, place]) rfl rfl rfl rfl
    | alert => exact GateEvent.move t _ rfl rfl rfl (by simp [hpc, place])
  | ntLock t ret =>
    have hpc : s.pc t = .ntWait ret .lock := hen.1
    simp only [next, State.ntLock]
    split_ifs with hreject
    · cases l <;> cases ret <;>
        exact GateEvent.move t _ rfl rfl rfl (by simp [hpc, place])
    · cases l with
      | address =>
        refine GateEvent.move t _ rfl rfl rfl ?_
        rw [hpc]; exact place_address_ntWait ret _ _
      | alert =>
        have hopen : (s.gate .alert).shuttingDown = false := by
          simp only [State.rejectsWaits, Bool.or_eq_true, not_or] at hreject
          simpa using hreject.1
        exact GateEvent.acquire t _ rfl (by simp [hpc, place]) rfl hen.2 hopen rfl rfl
  | ntReference t ret =>
    have hpc : s.pc t = .ntWait ret .reference := hen
    cases l with
    | address =>
      refine GateEvent.move t _ rfl rfl rfl ?_
      rw [hpc]; exact place_address_ntWait ret _ _
    | alert =>
      refine GateEvent.reference t _ rfl (by simp [hpc, place]) ?_ rfl rfl
      split <;> rfl
  | ntClear t ret =>
    have hpc : s.pc t = .ntWait ret .clear := hen
    cases l with
    | address =>
      refine GateEvent.move t _ rfl rfl rfl ?_
      rw [hpc]; exact place_address_ntWait ret _ _
    | alert => exact GateEvent.clear t _ rfl (by simp [hpc, place]) rfl rfl rfl
  | ntPending t ret =>
    have hpc : s.pc t = .ntWait ret .pending := hen
    simp only [next, State.ntPending]
    split <;> cases l with
    | address =>
      refine GateEvent.move t _ rfl rfl rfl ?_
      rw [hpc]; exact place_address_ntWait ret _ _
    | alert => exact GateEvent.register t _ rfl (by simp [hpc, place]) rfl rfl rfl
  | ntSatisfied t ret | ntTimeout t ret =>
    have hpc : s.pc t = .ntWait ret .block := hen.1
    refine GateEvent.move t _ rfl rfl rfl ?_
    cases l with
    | address => rw [hpc]; exact place_address_ntWait ret _ _
    | alert => simp [hpc, place]
  | ntUnlink t ret st =>
    have hpc : s.pc t = .ntWait ret (.unlink st) := hen.1
    simp only [next, State.ntUnlink]
    split <;> refine GateEvent.move t _ rfl rfl rfl ?_ <;> cases l with
    | address => rw [hpc]; exact place_address_ntWait ret _ _
    | alert => split <;> simp [hpc, place]
  | ntSatisfiedWoken t ret =>
    have hpc : s.pc t = .ntWait ret .blockWoken := hen.1
    refine GateEvent.move t _ rfl rfl rfl ?_
    cases l with
    | address => rw [hpc]; exact place_address_ntWait ret _ _
    | alert => simp [hpc, place]
  | ntDereference t ret st =>
    have hpc : s.pc t = .ntWait ret (.dereference st) := hen
    simp only [next, State.ntDereference]
    split <;> rename_i hcount <;> cases l with
    | address =>
      cases ret <;> exact GateEvent.move t _ rfl rfl rfl (by simp [hpc, place])
    | alert =>
      cases ret <;> exact GateEvent.dereference t _ rfl (by simp [hpc, place])
        (by simp [hcount, place]) rfl rfl
  | ntSetDrained t ret st =>
    have hpc : s.pc t = .ntWait ret (.setDrained st) := hen
    cases l <;> cases ret <;> first
      | exact GateEvent.move t _ rfl rfl rfl (by simp [hpc, place])
      | exact GateEvent.setDrained t _ rfl (by simp [hpc, place]) rfl rfl rfl rfl
  | collectIds t c =>
    have hpc : s.pc t = .collect c := hen.1
    refine GateEvent.move t _ rfl rfl rfl ?_
    cases l <;> cases c <;> simp [hpc, place]
  | alertNext t c ids full =>
    have hpc : s.pc t = .alertIds c ids full := hen
    simp only [next, State.alertNext]
    cases ids with
    | cons id rest =>
      refine GateEvent.move t _ rfl rfl rfl ?_
      cases l <;> cases c <;> simp [hpc, place]
    | nil =>
      cases c with
      | single address =>
        exact GateEvent.move t _ rfl rfl rfl (by cases l <;> simp [hpc, place])
      | all address =>
        dsimp only
        split <;> exact GateEvent.move t _ rfl rfl rfl (by cases l <;> simp [hpc, place])
      | terminate =>
        dsimp only
        split <;> exact GateEvent.move t _ rfl rfl rfl (by cases l <;> simp [hpc, place])
  | alertLookup t ret target found =>
    have hpc : s.pc t = .ntAlert ret target .lookup := hen.1
    simp only [next, State.alertLookup]
    split
    · exact GateEvent.move t _ rfl rfl rfl (by rw [hpc]; exact place_ntAlert l ret _ _ _ _)
    · exact gateEvent_alertReturn _ hpc rfl (by cases ret <;> rfl) (by cases ret <;> rfl)
  | alertRemove t ret target =>
    have hpc : s.pc t = .ntAlert ret target .remove := hen.1
    simp only [next, State.alertRemove]
    split <;>
      exact GateEvent.move t _ rfl rfl rfl (by rw [hpc]; exact place_ntAlert l ret _ _ _ _)
  | alertAllocate t ret target allocated =>
    have hpc : s.pc t = .ntAlert ret target .allocate := hen
    exact GateEvent.move t _ rfl rfl rfl (by rw [hpc]; exact place_ntAlert l ret _ _ _ _)
  | alertRecheck t ret target =>
    have hpc : s.pc t = .ntAlert ret target .recheck := hen.1
    simp only [next, State.alertRecheck]
    split
    · exact GateEvent.move t _ rfl rfl rfl (by rw [hpc]; exact place_ntAlert l ret _ _ _ _)
    · exact gateEvent_alertReturn _ hpc rfl (by cases ret <;> rfl) (by cases ret <;> rfl)
  | alertInsert t ret target =>
    have hpc : s.pc t = .ntAlert ret target .insert := hen.1
    simp only [next, State.alertInsert]
    split_ifs
    · exact GateEvent.move t _ rfl rfl rfl (by rw [hpc]; exact place_ntAlert l ret _ _ _ _)
    · exact gateEvent_alertReturn _ hpc rfl (by cases ret <;> rfl) (by cases ret <;> rfl)
    · exact gateEvent_alertReturn _ hpc rfl (by cases ret <;> rfl)
        (by cases ret <;> rfl)
  | alertSetEvent t ret target =>
    have hpc : s.pc t = .ntAlert ret target .setEvent := hen
    exact gateEvent_alertReturn _ hpc rfl (by cases ret <;> rfl)
      (by cases ret <;> rfl)
  | terminateShutDown t l' =>
    have hpc : s.pc t = .terminate l' .shutDown := hen.1
    -- each layer is shut down by itself
    by_cases hl : l = l'
    · subst hl
      refine GateEvent.shutDown t _ rfl (by cases l <;> simp [hpc, place]) ?_ hen.2 ?_ rfl
      · cases l <;> simp [place]
      · simp [next, State.terminateShutDown, State.onGate, State.goto]
    · refine GateEvent.move t _ rfl ?_ rfl ?_
      · simp [next, State.terminateShutDown, State.onGate, State.goto, hl]
      · cases l <;> cases l' <;> simp_all [place]
  | terminateCollectEvents t l' =>
    have hpc : s.pc t = .terminate l' .collectEvents := hen.1
    refine GateEvent.move t _ rfl rfl rfl ?_
    cases l <;> cases l' <;> simp [hpc, place]
  | terminateSetEvent t l' events full =>
    have hpc : s.pc t = .terminate l' (.setEvents events full) := hen
    simp only [next, State.terminateSetEvent]
    split
    · exact GateEvent.move t _ rfl rfl rfl (by cases l <;> cases l' <;> simp [hpc, place])
    · refine GateEvent.move t _ rfl rfl rfl ?_
      split <;> cases l <;> cases l' <;> simp [hpc, place]
  | terminateDrain t l' =>
    have hpc : s.pc t = .terminate l' .drain := hen.1
    -- only the layer that is drained comes to its end
    by_cases hl : l = l'
    · subst hl
      cases l with
      | address =>
        exact GateEvent.drain t _ rfl (by simp [hpc, place]) (Or.inl rfl) hen.2 rfl
      | alert =>
        exact GateEvent.drain t _ rfl (by simp [hpc, place]) (Or.inr (by simp [place])) hen.2 rfl
    · cases l <;> cases l' <;> first
        | exact absurd rfl hl
        | exact GateEvent.move t _ rfl rfl rfl (by simp [hpc, place])
  | terminateClearPending t =>
    have hpc : s.pc t = .terminate .alert .clearPending := hen.1
    simp only [next, State.terminateClearPending]
    split
    · cases l with
      | address => exact GateEvent.move t _ rfl rfl rfl (by simp [hpc, place])
      | alert =>
        refine .quiet rfl rfl (fun u => ?_)
        by_cases hu : u = t
        · subst hu; right; simp [hpc, place, State.finish, State.goto]
        · left; simp [State.finish, State.goto, Function.update_of_ne hu]
    · exact .quiet rfl rfl (fun u => Or.inl rfl)
  | store mem | beginShutdown => exact .quiet rfl rfl (fun u => Or.inl rfl)

/-! ## The list lock -/

/-- A thread inside the section that registers a wait owns the list lock. -/
def LockOwned (l : Layer) (s : State T) : Prop :=
  ∀ t, (place l (s.pc t)).InSection → (s.gate l).lock = some t

theorem lockOwned_of_event {l : Layer} {s s' : State T} {a : Action T}
    (hevent : GateEvent l s a s')
    (h : LockOwned l s) : LockOwned l s' := by
  intro u hsection
  -- a section is entered with the lock, and the lock is given up where it ends
  cases hevent with
  | quiet hgate _ hplace =>
    rw [hgate]
    rcases hplace u with hsame | ⟨-, hout⟩
    · exact h u (hsame ▸ hsection)
    · simp [hout, Place.InSection] at hsection
  | shutDown t p hpc _ hto _ hgate _ =>
    rw [hgate]
    rw [hpc] at hsection
    by_cases hu : u = t
    · subst hu; simp [hto, Place.InSection] at hsection
    · exact h u (by simpa [Function.update_of_ne hu] using hsection)
  | drain t p hpc _ hto _ hgate =>
    rw [hgate]
    rw [hpc] at hsection
    by_cases hu : u = t
    · subst hu; rcases hto with hto | hto <;> simp [hto, Place.InSection] at hsection
    · exact h u (by simpa [Function.update_of_ne hu] using hsection)
  | acquire t p hpc _ _ hfree _ hgate _ =>
    rw [hgate]
    rw [hpc] at hsection
    by_cases hu : u = t
    · subst hu; rfl
    · have hown := h u (by simpa [Function.update_of_ne hu] using hsection)
      rw [hfree] at hown
      cases hown
  | reference t p hpc hfrom _ hgate _ | clear t p hpc hfrom _ hgate _ =>
    rw [hgate]
    rw [hpc] at hsection
    by_cases hu : u = t
    · subst hu; exact h u (by simp [hfrom, Place.InSection])
    · exact h u (by simpa [Function.update_of_ne hu] using hsection)
  | register t p hpc hfrom hto _ _ =>
    rw [hpc] at hsection
    by_cases hu : u = t
    · subst hu; simp [hto, Place.InSection] at hsection
    · -- another thread in the section would own the same lock
      have hown := h u (by simpa [Function.update_of_ne hu] using hsection)
      have hmine := h t (by simp [hfrom, Place.InSection])
      rw [hmine] at hown
      exact absurd (Option.some.inj hown).symm hu
  | dereference t p hpc _ hto hgate _ =>
    rw [hgate]
    rw [hpc] at hsection
    by_cases hu : u = t
    · subst hu; rw [Function.update_self, hto] at hsection; split at hsection <;> cases hsection
    · exact h u (by simpa [Function.update_of_ne hu] using hsection)
  | setDrained t p hpc _ hto _ hgate _ =>
    rw [hgate]
    rw [hpc] at hsection
    by_cases hu : u = t
    · subst hu; simp [hto, Place.InSection] at hsection
    · exact h u (by simpa [Function.update_of_ne hu] using hsection)

theorem lockOwned_of_reachable {guard : State T → Action T → Prop} (l : Layer) :
    ∀ s, (waitOnAddress T).Reachable guard s → LockOwned l s := by
  refine System.Reachable.invariant ?_ ?_
  · rintro s ⟨mem, rfl⟩ t hsection
    cases l <;> simp [initialState, place, Place.InSection] at hsection
  · intro s a h hen _
    exact lockOwned_of_event (gateEvent_of_step l s a hen) h

/-! ## The layers run the drain gate -/

/-- The drain gate of a layer. -/
def drainGate (l : Layer) (s : State T) : DrainGate.Gate T where
  phase t := (place l (s.pc t)).phase
  count := (s.gate l).waitCount
  signalled := (s.gate l).drained

theorem drainGate_nobodyInside (l : Layer) (s : State T) :
    DrainGate.NobodyInside (drainGate l s) ↔ NobodyBetween l s := by
  simp [DrainGate.NobodyInside, NobodyBetween, drainGate, Place.betweenReferences_iff]

/-- The phases after a move of one thread. -/
theorem drainGate_phase {l : Layer} {s s' : State T} {t : T} {p : Pc T}
    (hpc : s'.pc = Function.update s.pc t p) :
    (drainGate l s').phase =
      Function.update (drainGate l s).phase t (place l p).phase := by
  funext u
  by_cases hu : u = t
  · subst hu; simp [drainGate, hpc]
  · simp [drainGate, hpc, Function.update_of_ne hu]

/-- A move that keeps its phase and the gate cannot be seen. -/
theorem drainGate_same {l : Layer} {s s' : State T} {t : T} {p : Pc T}
    (hpc : s'.pc = Function.update s.pc t p)
    (hphase : (place l p).phase = (place l (s.pc t)).phase)
    (hcount : (s'.gate l).waitCount = (s.gate l).waitCount)
    (hdrained : (s'.gate l).drained = (s.gate l).drained) : drainGate l s' = drainGate l s := by
  refine DrainGate.Gate.ext ?_ hcount hdrained
  rw [drainGate_phase hpc, hphase]
  exact Function.update_eq_self t _

/-- An event of the layer is a step of its drain gate or cannot be seen there. -/
theorem drainGate_of_event {l : Layer} {s s' : State T} {a : Action T} (hlock : LockOwned l s)
    (hprompt : PromptDrain s a) (hevent : GateEvent l s a s') :
    drainGate l s' = drainGate l s ∨
      ∃ b, DrainGate.Enabled (drainGate l s) b ∧ DrainGate.PromptSet (drainGate l s) b ∧
        drainGate l s' = DrainGate.next (drainGate l s) b := by
  have hphase (t : T) : (drainGate l s).phase t = (place l (s.pc t)).phase := rfl
  cases hevent with
  | quiet hgate _ hplace =>
    refine Or.inl (DrainGate.Gate.ext (funext fun u => ?_) (by simp only [drainGate, hgate])
      (by simp only [drainGate, hgate]))
    rcases hplace u with hsame | ⟨hfrom, hto⟩
    · simp only [drainGate, hsame]
    · simp only [drainGate, hfrom, hto, Place.phase]
  | shutDown t p hpc hfrom hto _ hgate _ =>
    exact Or.inl (drainGate_same hpc (by rw [hfrom, hto]; rfl) (by rw [hgate]) (by rw [hgate]))
  | drain t p hpc hfrom hto _ hgate =>
    refine Or.inl (drainGate_same hpc ?_ (by rw [hgate]) (by rw [hgate]))
    rcases hto with hto | hto
    · rw [hfrom, hto]; rfl
    · rw [hfrom, hto]
  | acquire t p hpc hfrom hto _ _ hgate _ | register t p hpc hfrom hto hgate _ =>
    exact Or.inl (drainGate_same hpc (by rw [hfrom, hto]; rfl) (by rw [hgate]; rfl)
      (by rw [hgate]; rfl))
  | reference t p hpc hfrom hto hgate _ =>
    right
    -- the first to arrive has the event to clear
    by_cases hfirst : (s.gate l).waitCount + 1 = 1
    · refine ⟨.enter t, by rw [DrainGate.Enabled, hphase, hfrom]; rfl, trivial,
        DrainGate.Gate.ext ?_ ?_ ?_⟩
      · rw [drainGate_phase hpc, hto, if_pos hfirst]; rfl
      · simp only [drainGate, hgate]; rfl
      · simp only [drainGate, hgate]; rfl
    · refine ⟨.join t, ⟨by rw [hphase, hfrom]; rfl, ?_, fun u hu => ?_⟩, trivial,
        DrainGate.Gate.ext ?_ ?_ ?_⟩
      · show (s.gate l).waitCount ≠ 0
        omega
      · -- the clearing of another arrival happens under the lock this thread owns
        have hraised : place l (s.pc u) = .raised := by
          rw [hphase] at hu
          cases hplace : place l (s.pc u) <;> rw [hplace] at hu
          all_goals first | rfl | cases hu
        have hown := hlock u (by rw [hraised]; trivial)
        rw [hlock t (by rw [hfrom]; trivial)] at hown
        obtain rfl := Option.some.inj hown
        rw [hfrom] at hraised
        cases hraised
      · rw [drainGate_phase hpc, hto, if_neg hfirst]; rfl
      · simp only [drainGate, hgate]; rfl
      · simp only [drainGate, hgate]; rfl
  | clear t p hpc hfrom hto hgate _ =>
    refine Or.inr ⟨.clear t, by rw [DrainGate.Enabled, hphase, hfrom]; rfl, trivial,
      DrainGate.Gate.ext ?_ ?_ ?_⟩
    · rw [drainGate_phase hpc, hto]; rfl
    · simp only [drainGate, hgate]; rfl
    · simp only [drainGate, hgate]; rfl
  | dereference t p hpc hfrom hto hgate _ =>
    refine Or.inr ⟨.lower t, by rw [DrainGate.Enabled, hphase, hfrom]; rfl, trivial,
      DrainGate.Gate.ext ?_ ?_ ?_⟩
    · rw [drainGate_phase hpc, hto, apply_ite Place.phase]; rfl
    · simp only [drainGate, hgate]; rfl
    · simp only [drainGate, hgate]; rfl
  | setDrained t p hpc hfrom hto hset hgate _ =>
    refine Or.inr ⟨.set t, by rw [DrainGate.Enabled, hphase, hfrom]; rfl,
      (drainGate_nobodyInside l s).mpr (hprompt l hset), DrainGate.Gate.ext ?_ ?_ ?_⟩
    · rw [drainGate_phase hpc, hto]; rfl
    · simp only [drainGate, hgate]; rfl
    · simp only [drainGate, hgate]; rfl

/-- Under `PromptDrain` a layer runs the drain gate without late sets. -/
def gateSimulation (l : Layer) : Simulation (waitOnAddress T) PromptDrain
    (DrainGate.gateSystem T) DrainGate.PromptSet where
  abs := drainGate l
  init := by
    rintro s ⟨mem, rfl⟩
    exact ⟨fun t => by cases l <;> rfl, rfl, rfl⟩
  step s a hreach hen hprompt :=
    drainGate_of_event (lockOwned_of_reachable l s hreach) hprompt (gateEvent_of_step l s a hen)

/-! ## Shutting down -/

/-- The place of a thread after a move of one thread. -/
theorem place_update {l : Layer} {s s' : State T} {t : T} {p : Pc T}
    (hpc : s'.pc = Function.update s.pc t p) (u : T) :
    u = t ∧ place l (s'.pc u) = place l p ∨ place l (s'.pc u) = place l (s.pc u) := by
  rw [hpc]
  by_cases hu : u = t
  · subst hu; exact Or.inl ⟨rfl, by simp⟩
  · exact Or.inr (by simp [Function.update_of_ne hu])

/-- The shutting-down flag is never cleared, and it is set outside the registering sections. -/
theorem GateEvent.shuttingDown {l : Layer} {s s' : State T} {a : Action T}
    (hevent : GateEvent l s a s') :
    (s'.gate l).shuttingDown = (s.gate l).shuttingDown ∨
      (s'.gate l).shuttingDown = true ∧ s.LockFree l := by
  cases hevent with
  | shutDown t p _ _ _ hfree hgate _ => exact Or.inr ⟨by rw [hgate], hfree⟩
  | quiet hgate | drain _ _ _ _ _ _ hgate | acquire _ _ _ _ _ _ _ hgate
  | reference _ _ _ _ _ hgate | clear _ _ _ _ _ hgate | register _ _ _ _ _ hgate
  | dereference _ _ _ _ _ hgate | setDrained _ _ _ _ _ _ hgate =>
    exact Or.inl ((congrArg WaitGate.shuttingDown hgate).trans rfl)

/-- A registering section is entered only while the layer is not shutting down. -/
theorem GateEvent.inSection {l : Layer} {s s' : State T} {a : Action T}
    (hevent : GateEvent l s a s') {u : T} (h : (place l (s'.pc u)).InSection) :
    (place l (s.pc u)).InSection ∨ (s'.gate l).shuttingDown = false := by
  cases hevent with
  | quiet _ _ hplace =>
    rcases hplace u with hsame | ⟨-, hto⟩
    · exact Or.inl (hsame ▸ h)
    · rw [hto] at h; cases h
  | shutDown t p hpc _ hto | register t p hpc _ hto | setDrained t p hpc _ hto =>
    rcases place_update hpc u with ⟨-, hu⟩ | hu <;> rw [hu] at h
    · rw [hto] at h; cases h
    · exact Or.inl h
  | drain t p hpc _ hto =>
    rcases place_update hpc u with ⟨-, hu⟩ | hu <;> rw [hu] at h
    · rcases hto with hto | hto <;> rw [hto] at h <;> cases h
    · exact Or.inl h
  | acquire _ _ _ _ _ _ hopen hgate => exact Or.inr (by rw [hgate]; exact hopen)
  | reference t p hpc hfrom | clear t p hpc hfrom =>
    rcases place_update hpc u with ⟨rfl, -⟩ | hu
    · left; rw [hfrom]; trivial
    · rw [hu] at h; exact Or.inl h
  | dereference t p hpc _ hto =>
    rcases place_update hpc u with ⟨-, hu⟩ | hu <;> rw [hu] at h
    · rw [hto] at h; split at h <;> cases h
    · exact Or.inl h

/-- The terminate routine passes the flag's section only by setting the flag. -/
theorem GateEvent.terminating {l : Layer} {s s' : State T} {a : Action T}
    (hevent : GateEvent l s a s') {u : T} (h : place l (s'.pc u) = .terminating) :
    place l (s.pc u) = .terminating ∨ (s'.gate l).shuttingDown = true := by
  cases hevent with
  | quiet _ _ hplace =>
    rcases hplace u with hsame | ⟨hfrom, -⟩
    · exact Or.inl (hsame ▸ h)
    · exact Or.inl hfrom
  | shutDown _ _ _ _ _ _ hgate => exact Or.inr (by rw [hgate])
  | drain t p hpc hfrom =>
    rcases place_update hpc u with ⟨rfl, -⟩ | hu
    · exact Or.inl hfrom
    · exact Or.inl (hu ▸ h)
  | acquire t p hpc _ hto | clear t p hpc _ hto | register t p hpc _ hto
  | setDrained t p hpc _ hto =>
    rcases place_update hpc u with ⟨-, hu⟩ | hu <;> rw [hu] at h
    · rw [hto] at h; cases h
    · exact Or.inl h
  | reference t p hpc _ hto | dereference t p hpc _ hto =>
    rcases place_update hpc u with ⟨-, hu⟩ | hu <;> rw [hu] at h
    · rw [hto] at h; split at h <;> cases h
    · exact Or.inl h

/-- The drain wait is passed by a thread in the terminate routine, over a signalled event. -/
theorem GateEvent.terminated {l : Layer} {s s' : State T} {a : Action T}
    (hevent : GateEvent l s a s') :
    s'.terminated l = s.terminated l ∨
      (s.gate l).drained = true ∧ s'.gate l = s.gate l ∧
        ∃ t, place l (s.pc t) = .terminating := by
  cases hevent with
  | drain t _ _ hfrom _ hdrained hgate => exact Or.inr ⟨hdrained, hgate, t, hfrom⟩
  | quiet _ h | shutDown _ _ _ _ _ _ _ h | acquire _ _ _ _ _ _ _ _ h | reference _ _ _ _ _ _ h
  | clear _ _ _ _ _ _ h | register _ _ _ _ _ _ h | dereference _ _ _ _ _ _ h
  | setDrained _ _ _ _ _ _ _ h =>
    exact Or.inl h

/-- A thread comes between its references out of a registering section. -/
theorem GateEvent.betweenReferences {l : Layer} {s s' : State T} {a : Action T}
    (hevent : GateEvent l s a s') {u : T} (h : (place l (s'.pc u)).BetweenReferences) :
    (place l (s.pc u)).BetweenReferences ∨ (place l (s.pc u)).InSection := by
  cases hevent with
  | quiet _ _ hplace =>
    rcases hplace u with hsame | ⟨-, hto⟩
    · exact Or.inl (hsame ▸ h)
    · rw [hto] at h; cases h
  | shutDown t p hpc _ hto | acquire t p hpc _ hto | setDrained t p hpc _ hto =>
    rcases place_update hpc u with ⟨-, hu⟩ | hu <;> rw [hu] at h
    · rw [hto] at h; cases h
    · exact Or.inl h
  | drain t p hpc _ hto =>
    rcases place_update hpc u with ⟨-, hu⟩ | hu <;> rw [hu] at h
    · rcases hto with hto | hto <;> rw [hto] at h <;> cases h
    · exact Or.inl h
  | reference t p hpc hfrom | clear t p hpc hfrom | register t p hpc hfrom =>
    rcases place_update hpc u with ⟨rfl, -⟩ | hu
    · right; rw [hfrom]; trivial
    · rw [hu] at h; exact Or.inl h
  | dereference t p hpc hfrom =>
    rcases place_update hpc u with ⟨rfl, -⟩ | hu
    · left; rw [hfrom]; trivial
    · rw [hu] at h; exact Or.inl h

/-- Once a layer is shutting down no thread is in a registering section. A thread past the
flag's section, or a passed drain wait, means that the flag is set. -/
structure Closing (l : Layer) (s : State T) : Prop where
  section_empty : (s.gate l).shuttingDown = true → ∀ t, ¬ (place l (s.pc t)).InSection
  terminating : ∀ t, place l (s.pc t) = .terminating → (s.gate l).shuttingDown = true
  terminated : s.terminated l = true → (s.gate l).shuttingDown = true

theorem closing_of_event {l : Layer} {s s' : State T} {a : Action T} (hlock : LockOwned l s)
    (hevent : GateEvent l s a s') (h : Closing l s) : Closing l s' := by
  have hkeeps : (s.gate l).shuttingDown = true → (s'.gate l).shuttingDown = true := by
    intro hdown
    rcases hevent.shuttingDown with hsame | ⟨hset, -⟩
    · rw [hsame, hdown]
    · exact hset
  refine ⟨fun hdown u hsection => ?_, fun u hterm => ?_, fun hterm => ?_⟩
  · rcases hevent.inSection hsection with hbefore | hopen
    · rcases hevent.shuttingDown with hsame | ⟨-, hfree⟩
      · exact h.section_empty (hsame ▸ hdown) u hbefore
      · have hown := hlock u hbefore
        rw [hfree] at hown
        cases hown
    · rw [hdown] at hopen
      cases hopen
  · rcases hevent.terminating hterm with hbefore | hset
    · exact hkeeps (h.terminating u hbefore)
    · exact hset
  · rcases hevent.terminated with hsame | ⟨-, -, t, hbefore⟩
    · exact hkeeps (h.terminated (hsame ▸ hterm))
    · exact hkeeps (h.terminating t hbefore)

theorem closing_of_reachable {guard : State T → Action T → Prop} (l : Layer) :
    ∀ s, (waitOnAddress T).Reachable guard s → Closing l s := by
  refine System.Reachable.invariantUnder (J := LockOwned l) (lockOwned_of_reachable l) ?_ ?_
  · rintro s ⟨mem, rfl⟩
    constructor <;> cases l <;> simp [initialState, place]
  · intro s a hlock h hen _
    exact closing_of_event hlock (gateEvent_of_step l s a hen) h

/-! ## The barrier -/

/-- Under `PromptDrain` a signalled drained event means that nobody is between its references. -/
theorem nobodyBetween_of_drained {l : Layer} {s : State T}
    (h : (waitOnAddress T).Reachable PromptDrain s) (hdrained : (s.gate l).drained = true) :
    NobodyBetween l s :=
  (drainGate_nobodyInside l s).mp
    (DrainGate.signalled_nobody_inside _ ((gateSimulation l).reachable s h) hdrained)

/-- After the drain wait nobody is between its references any more. -/
theorem nobodyBetween_of_terminated (l : Layer) :
    ∀ s, (waitOnAddress T).Reachable PromptDrain s → s.terminated l = true →
      NobodyBetween l s := by
  refine System.Reachable.invariantUnder
    (J := fun s => Closing l s ∧ ((s.gate l).drained = true → NobodyBetween l s))
    (fun s h => ⟨closing_of_reachable l s h, nobodyBetween_of_drained h⟩) ?_ ?_
  · rintro s ⟨mem, rfl⟩ hterm
    simp [initialState] at hterm
  · rintro s a ⟨hclosing, hgate⟩ ih hen - hterm u hbetween
    have hevent := gateEvent_of_step l s a hen
    have hdown : (s.gate l).shuttingDown = true ∧ NobodyBetween l s := by
      rcases hevent.terminated with hsame | ⟨hdrained, -, t, hbefore⟩
      · have hbefore : s.terminated l = true := hsame ▸ hterm
        exact ⟨hclosing.terminated hbefore, ih hbefore⟩
      · exact ⟨hclosing.terminating t hbefore, hgate hdrained⟩
    rcases hevent.betweenReferences hbetween with hbefore | hsection
    · exact hdown.2 u hbefore
    · exact hclosing.section_empty hdown.1 u hsection

/-- The terminate routines are barriers: in every run without late sets, once the drain wait
has been passed no thread is between `Reference...Wait` and `Dereference...Wait`, nor about to
be; and a drained event that is signalled over a positive wait count is about to be cleared. -/
theorem terminate_is_barrier {s : State T} (h : (waitOnAddress T).Reachable PromptDrain s)
    (l : Layer) :
    (s.terminated l = true →
      ∀ t, ¬ (place l (s.pc t)).BetweenReferences ∧ ¬ (place l (s.pc t)).InSection) ∧
    ((s.gate l).drained = true → 0 < (s.gate l).waitCount →
      ∃ t, place l (s.pc t) = .raised) := by
  refine ⟨fun hterm t => ⟨nobodyBetween_of_terminated l s h hterm t, ?_⟩,
    fun hdrained hpos => ?_⟩
  · have hclosing := closing_of_reachable l s h
    exact hclosing.section_empty (hclosing.terminated hterm) t
  · by_contra hnone
    push Not at hnone
    -- a signalled gate with nobody arriving is an empty one
    have hgate := (gateSimulation l).reachable s h
    have hzero := DrainGate.SignalledEmpty.count_eq_zero
      (DrainGate.countExact_of_reachable _ hgate) (DrainGate.signalled_nobody_inside _ hgate)
      hdrained (fun t hraised => hnone t ?_)
    · exact absurd hzero (Nat.pos_iff_ne_zero.mp hpos)
    · change (place l (s.pc t)).phase = .raised at hraised
      cases hplace : place l (s.pc t) <;> rw [hplace] at hraised
      all_goals first | rfl | cases hraised

/-- Every late set breaks the barrier at once: it leaves the event signalled over a thread that
is between its references. -/
theorem drained_over_waiter_of_late_set {s : State T} {a : Action T} (hen : Enabled s a)
    (hlate : ¬ PromptDrain s a) :
    ∃ l, ((next s a).gate l).drained = true ∧ ¬ NobodyBetween l (next s a) := by
  unfold PromptDrain at hlate
  push Not at hlate
  obtain ⟨l, hset, hbetween⟩ := hlate
  refine ⟨l, ?_⟩
  obtain ⟨t, p, hpc, hfrom, hdrained⟩ : ∃ t p, (next s a).pc = Function.update s.pc t p ∧
      place l (s.pc t) = .lowered ∧ ((next s a).gate l).drained = true := by
    cases a with
    | rtlSetDrained t st =>
      obtain rfl := Option.some.inj hset
      have hpc : s.pc t = .rtlWait (.setDrained st) := hen
      exact ⟨t, _, rfl, by rw [hpc]; rfl, rfl⟩
    | ntSetDrained t ret st =>
      obtain rfl := Option.some.inj hset
      have hpc : s.pc t = .ntWait ret (.setDrained st) := hen
      cases ret <;> exact ⟨t, _, rfl, by rw [hpc]; rfl, rfl⟩
    | _ => cases hset
  refine ⟨hdrained, fun hnobody => hbetween fun u hu => ?_⟩
  rcases place_update (l := l) hpc u with ⟨rfl, -⟩ | hsame
  · rw [hfrom] at hu; cases hu
  · exact hnobody u (hsame ▸ hu)

/-- The request of the runs below. -/
def sampleRequest (timeout : Bool) : WaitRequest := ⟨1, 2, 1, timeout⟩

/-- Thread `0` waits for a moment and counts down to zero, thread `1` registers a wait and
clears the event, and only then thread `0` sets it. -/
def lateDrain : List (Action (Fin 3)) :=
  [.callWaitOnAddress 0 (sampleRequest true), .rtlCheck 0, .rtlLock 0, .rtlReference 0,
    .rtlClear 0, .rtlInsert 0, .ntLock 0 .first, .ntReference 0 .first, .ntClear 0 .first,
    .ntPending 0 .first, .ntTimeout 0 .first, .ntUnlink 0 .first .timeout,
    .ntDereference 0 .first .timeout, .ntSetDrained 0 .first .timeout, .rtlUnlink 0 .timeout,
    .rtlDereference 0 .timeout,
    .callWaitOnAddress 1 (sampleRequest false), .rtlCheck 1, .rtlLock 1, .rtlReference 1,
    .rtlClear 1, .rtlInsert 1,
    .rtlSetDrained 0 .timeout]

/-- Thread `2` then runs `LdkpTerminateWaitOnAddressList` to its end. -/
def terminateOver : List (Action (Fin 3)) :=
  [.callTerminate 2 .address, .terminateShutDown 2 .address, .collectIds 2 .terminate,
    .alertNext 2 .terminate [1] false, .alertLookup 2 (.batch .terminate [] false) 1 true,
    .alertRemove 2 (.batch .terminate [] false) 1,
    .alertAllocate 2 (.batch .terminate [] false) 1 true,
    .alertInsert 2 (.batch .terminate [] false) 1, .alertNext 2 .terminate [] false,
    .terminateCollectEvents 2 .address, .terminateSetEvent 2 .address [] false,
    .terminateDrain 2 .address]

/-- The terminate routine returns while thread `1` is between its references. -/
theorem late_drain_breaks_barrier :
    ∃ s : State (Fin 3), (waitOnAddress (Fin 3)).Reachable Always s ∧
      s.terminated .address = true ∧ (place .address (s.pc 1)).BetweenReferences ∧
      (s.gate .address).drained = true ∧ 0 < (s.gate .address).waitCount ∧
      ∀ t, place .address (s.pc t) ≠ .raised ∧ place .address (s.pc t) ≠ .lowered :=
  ⟨_, System.reachable_exec (initialState (Fin 3) fun _ => 0) (lateDrain ++ terminateOver)
    ⟨_, rfl⟩ (by decide), by decide, by decide, by decide, by decide, by decide⟩

/-- Thread `0` registers a wait, thread `1` terminates the layer, and thread `0` leaves first. -/
def promptDrain : List (Action (Fin 2)) :=
  [.callWaitOnAddress 0 (sampleRequest false), .rtlCheck 0, .rtlLock 0, .rtlReference 0,
    .rtlClear 0, .rtlInsert 0,
    .callTerminate 1 .address, .terminateShutDown 1 .address, .collectIds 1 .terminate,
    .alertNext 1 .terminate [0] false, .alertLookup 1 (.batch .terminate [] false) 0 true,
    .alertRemove 1 (.batch .terminate [] false) 0,
    .alertAllocate 1 (.batch .terminate [] false) 0 true,
    .alertInsert 1 (.batch .terminate [] false) 0, .alertNext 1 .terminate [] false,
    .terminateCollectEvents 1 .address, .terminateSetEvent 1 .address [] false,
    .ntLock 0 .first, .ntReference 0 .first, .ntClear 0 .first, .ntPending 0 .first,
    .ntDereference 0 .first .alerted, .ntSetDrained 0 .first .alerted, .rtlUnlink 0 .alerted,
    .rtlDereference 0 .success, .rtlSetDrained 0 .success,
    .terminateDrain 1 .address]

/-- In that run the terminate routine waits for thread `0`. -/
theorem prompt_drain_is_barrier :
    let s := (waitOnAddress (Fin 2)).exec (initialState (Fin 2) fun _ => 0) promptDrain
    s.terminated .address = true ∧
      ∀ t, ¬ (place .address (s.pc t)).BetweenReferences ∧
        ¬ (place .address (s.pc t)).InSection :=
  ⟨by decide, (terminate_is_barrier
    (System.reachable_exec _ promptDrain ⟨_, rfl⟩ (by decide)) .address).1 (by decide)⟩

end Ldk.WaitOnAddress
