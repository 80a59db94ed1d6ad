import Mathlib
import Ldk.WaitOnAddress.Steps

/-!
# The alert layer without its callers

What `NtWaitForAlertByThreadId` and `NtAlertThreadByThreadId` do to the alert list, the pending
list and the alert events, with the callers forgotten.

- `AlertPlace`: where a thread is with respect to its own alert entry, or to the event it is
  about to set.
- `AlertCore`: the alert state, and its atomic steps as a transition system.
- `AlertCore.Inv`: an entry in the list has not been woken; a waiter that is no longer in the
  list has a signalled event or one thread about to signal it.
- `coreSimulation`: the layers run this system as long as no terminate routine runs.
-/

namespace Ldk.WaitOnAddress

open TransitionSystem

variable {T : Type} [DecidableEq T]

/-! ## The core -/

/-- A thread's place with respect to the alert entries. -/
inductive AlertPlace (T : Type) where
  | elsewhere
  /-- The entry is initialised; the section that links it is under way. -/
  | registering
  /-- In the first `KeWaitForSingleObject`. -/
  | blocked
  /-- The first wait has timed out; the entry is still to be unlinked. -/
  | timedOut
  /-- In the second `KeWaitForSingleObject`. -/
  | blockedWoken
  /-- About to set the alert event of `target`. -/
  | setting (target : T)
  deriving DecidableEq, Repr

/-- The thread's entry may be referred to by an alerter. -/
def AlertPlace.Waits : AlertPlace T → Prop
  | .blocked | .timedOut | .blockedWoken => True
  | .elsewhere | .registering | .setting _ => False

/-- The alert state. -/
@[ext] structure AlertCore (T : Type) where
  place : T → AlertPlace T
  list : List T
  entry : T → AlertEntry
  event : T → Bool
  pending : List T

namespace AlertCore

/-- The atomic steps of the alert layer. -/
inductive Action (T : Type) where
  /-- A wait initialises its event and entry, and is rejected or goes on. -/
  | start (t : T) (rejected : Bool)
  /-- A pending alert is consumed. -/
  | consume (t : T)
  /-- The entry is linked. -/
  | link (t : T)
  /-- The event satisfies a wait. -/
  | satisfied (t : T)
  /-- The first wait times out. -/
  | timeOut (t : T)
  /-- The section after the first wait. -/
  | unlink (t : T)
  /-- An alerter unlinks the target's entry. -/
  | remove (w target : T)
  /-- An alerter leaves a pending record. -/
  | insert (target : T)
  /-- An alerter sets the target's event. -/
  | setEvent (w target : T)

def Enabled (c : AlertCore T) : Action T → Prop
  | .start t _ => c.place t = .elsewhere
  | .consume t => c.place t = .registering
  | .link t => c.place t = .registering ∧ t ∉ c.pending
  | .satisfied t => (c.place t = .blocked ∨ c.place t = .blockedWoken) ∧ c.event t = true
  | .timeOut t => c.place t = .blocked ∧ c.event t = false
  | .unlink t => c.place t = .timedOut ∨ c.place t = .elsewhere
  | .remove w target => c.place w = .elsewhere ∧ target ∈ c.list
  | .insert target => target ∉ c.list
  | .setEvent w target => c.place w = .setting target

/-- Where the section after the first wait leads. -/
def afterUnlink (c : AlertCore T) (t : T) : AlertPlace T :=
  if c.place t = .timedOut ∧ (c.entry t).woken = true then .blockedWoken else .elsewhere

def next (c : AlertCore T) : Action T → AlertCore T
  | .start t rejected =>
    { c with
      place := Function.update c.place t (if rejected then .elsewhere else .registering)
      entry := Function.update c.entry t ⟨true, false⟩
      event := Function.update c.event t false }
  | .consume t =>
    { c with place := Function.update c.place t .elsewhere, pending := c.pending.erase t }
  | .link t =>
    { c with place := Function.update c.place t .blocked, list := c.list ++ [t] }
  | .satisfied t =>
    { c with
      place := Function.update c.place t .elsewhere
      event := Function.update c.event t false }
  | .timeOut t => { c with place := Function.update c.place t .timedOut }
  | .unlink t =>
    if (c.entry t).inList then
      { c with
        place := Function.update c.place t (c.afterUnlink t)
        entry := Function.update c.entry t { c.entry t with inList := false }
        list := removeEntryList c.list t }
    else
      { c with place := Function.update c.place t (c.afterUnlink t) }
  | .remove w target =>
    { c with
      place := Function.update c.place w (.setting target)
      entry := Function.update c.entry target ⟨false, true⟩
      list := removeEntryList c.list target }
  | .insert target => { c with pending := c.pending ++ [target] }
  | .setEvent w target =>
    { c with
      place := Function.update c.place w .elsewhere
      event := Function.update c.event target true }

/-- The alert layer as a transition system; it starts empty. -/
def alertSystem (T : Type) [DecidableEq T] : System (AlertCore T) (Action T) where
  init c := (∀ t, c.place t = .elsewhere) ∧ c.list = [] ∧ (∀ t, c.event t = false) ∧ c.pending = []
  enabled := Enabled
  next := next

/-! ## The invariant -/

/-- The relation between entries, events and those about to set them. -/
structure Inv (c : AlertCore T) : Prop where
  /-- While its entry is being registered nobody refers to it. -/
  registering : ∀ t, c.place t = .registering → c.entry t = ⟨true, false⟩ ∧ c.event t = false
  /-- A linked entry belongs to a thread in or just past its first wait, unwoken. -/
  linked : ∀ t ∈ c.list, (c.place t = .blocked ∨ c.place t = .timedOut) ∧
    c.entry t = ⟨true, false⟩ ∧ c.event t = false ∧ t ∉ c.pending
  /-- A waiter whose entry is unlinked has been woken, and its event is or will be set. -/
  unlinked : ∀ t, (c.place t).Waits → t ∉ c.list →
    c.entry t = ⟨false, true⟩ ∧ (c.event t = true ∨ ∃ w, c.place w = .setting t)
  /-- A signalled event belongs to a waiter whose entry is unlinked. -/
  signalled : ∀ t, c.event t = true → (c.place t).Waits ∧ t ∉ c.list
  /-- An event about to be set belongs to such a waiter, and one thread is about to set it. -/
  setting : ∀ w t, c.place w = .setting t →
    (c.place t).Waits ∧ t ∉ c.list ∧ c.event t = false ∧ ∀ w', c.place w' = .setting t → w' = w

theorem mem_removeEntryList {l : List T} {t u : T} :
    u ∈ removeEntryList l t ↔ u ∈ l ∧ u ≠ t := by
  simp [removeEntryList]

attribute [local grind] AlertPlace.Waits
attribute [local grind =] mem_removeEntryList

theorem inv_start {c : AlertCore T} {t : T} (h : Inv c) (hplace : c.place t = .elsewhere)
    (rejected : Bool) : Inv (next c (.start t rejected)) := by
  obtain ⟨hregistering, hlinked, hunlinked, hsignalled, hsetting⟩ := h
  constructor <;> simp only [next, Function.update_apply] <;> grind

theorem inv_consume {c : AlertCore T} {t : T} (h : Inv c) (hplace : c.place t = .registering) :
    Inv (next c (.consume t)) := by
  obtain ⟨hregistering, hlinked, hunlinked, hsignalled, hsetting⟩ := h
  constructor <;> simp only [next, Function.update_apply] <;> grind

theorem inv_link {c : AlertCore T} {t : T} (h : Inv c) (hplace : c.place t = .registering)
    (hpending : t ∉ c.pending) : Inv (next c (.link t)) := by
  obtain ⟨hregistering, hlinked, hunlinked, hsignalled, hsetting⟩ := h
  constructor <;> simp only [next, Function.update_apply] <;> grind

theorem inv_satisfied {c : AlertCore T} {t : T} (h : Inv c)
    (hplace : c.place t = .blocked ∨ c.place t = .blockedWoken) (hevent : c.event t = true) :
    Inv (next c (.satisfied t)) := by
  obtain ⟨hregistering, hlinked, hunlinked, hsignalled, hsetting⟩ := h
  constructor <;> simp only [next, Function.update_apply] <;> grind

theorem inv_timeOut {c : AlertCore T} {t : T} (h : Inv c) (hplace : c.place t = .blocked)
    (hevent : c.event t = false) : Inv (next c (.timeOut t)) := by
  obtain ⟨hregistering, hlinked, hunlinked, hsignalled, hsetting⟩ := h
  constructor <;> simp only [next, Function.update_apply] <;> grind

/-- A timed-out thread takes its own entry out of the list. -/
theorem inv_unlink_linked {c : AlertCore T} {t : T} (h : Inv c) (hlisted : t ∈ c.list) :
    Inv (next c (.unlink t)) := by
  obtain ⟨hregistering, hlinked, hunlinked, hsignalled, hsetting⟩ := h
  have hentry : c.entry t = ⟨true, false⟩ := (hlinked t hlisted).2.1
  have hafter : c.afterUnlink t = .elsewhere := by simp [afterUnlink, hentry]
  simp only [next, hafter, hentry, if_true]
  constructor <;> simp only [Function.update_apply] <;> grind

/-- An alerter has taken the entry out of the list: the thread waits for its event. -/
theorem inv_unlink_woken {c : AlertCore T} {t : T} (h : Inv c) (hplace : c.place t = .timedOut)
    (hunlisted : t ∉ c.list) : Inv (next c (.unlink t)) := by
  obtain ⟨hregistering, hlinked, hunlinked, hsignalled, hsetting⟩ := h
  have hentry : c.entry t = ⟨false, true⟩ :=
    (hunlinked t (by simp [hplace, AlertPlace.Waits]) hunlisted).1
  have hafter : c.afterUnlink t = .blockedWoken := by simp [afterUnlink, hplace, hentry]
  simp only [next, hafter, hentry, Bool.false_eq_true, if_false]
  constructor <;> simp only [Function.update_apply] <;> grind

/-- After a satisfied wait the section changes nothing but the entry. -/
theorem inv_unlink_elsewhere {c : AlertCore T} {t : T} (h : Inv c)
    (hplace : c.place t = .elsewhere) : Inv (next c (.unlink t)) := by
  obtain ⟨hregistering, hlinked, hunlinked, hsignalled, hsetting⟩ := h
  have hafter : c.afterUnlink t = .elsewhere := by simp [afterUnlink, hplace]
  have hplaces : Function.update c.place t .elsewhere = c.place := by
    rw [← hplace]; exact Function.update_eq_self t _
  simp only [next, hafter, hplaces]
  split <;> constructor <;> simp only [Function.update_apply] <;> grind

theorem inv_unlink {c : AlertCore T} {t : T} (h : Inv c)
    (hplace : c.place t = .timedOut ∨ c.place t = .elsewhere) : Inv (next c (.unlink t)) := by
  rcases hplace with htimedOut | helsewhere
  · by_cases hlisted : t ∈ c.list
    · exact inv_unlink_linked h hlisted
    · exact inv_unlink_woken h htimedOut hlisted
  · exact inv_unlink_elsewhere h helsewhere

theorem inv_remove {c : AlertCore T} {w target : T} (h : Inv c) (hplace : c.place w = .elsewhere)
    (hlisted : target ∈ c.list) : Inv (next c (.remove w target)) := by
  obtain ⟨hregistering, hlinked, hunlinked, hsignalled, hsetting⟩ := h
  constructor <;> simp only [next, Function.update_apply] <;> grind

theorem inv_insert {c : AlertCore T} {target : T} (h : Inv c) (hunlisted : target ∉ c.list) :
    Inv (next c (.insert target)) := by
  obtain ⟨hregistering, hlinked, hunlinked, hsignalled, hsetting⟩ := h
  constructor <;> simp only [next] <;> grind

theorem inv_setEvent {c : AlertCore T} {w target : T} (h : Inv c)
    (hplace : c.place w = .setting target) : Inv (next c (.setEvent w target)) := by
  obtain ⟨hregistering, hlinked, hunlinked, hsignalled, hsetting⟩ := h
  constructor <;> simp only [next, Function.update_apply] <;> grind

/-- Every step of the alert layer keeps the relation. -/
theorem inv_step (c : AlertCore T) (a : Action T) (h : Inv c) (hen : Enabled c a) :
    Inv (next c a) := by
  cases a with
  | start t rejected => exact inv_start h hen rejected
  | consume t => exact inv_consume h hen
  | link t => exact inv_link h hen.1 hen.2
  | satisfied t => exact inv_satisfied h hen.1 hen.2
  | timeOut t => exact inv_timeOut h hen.1 hen.2
  | unlink t => exact inv_unlink h hen
  | remove w target => exact inv_remove h hen.1 hen.2
  | insert target => exact inv_insert h hen
  | setEvent w target => exact inv_setEvent h hen

theorem inv_of_reachable : ∀ c, (alertSystem T).Reachable Always c → Inv c := by
  refine System.Reachable.invariant ?_ (fun c a h hen _ => inv_step c a h hen)
  rintro c ⟨hplace, hlist, hevent, -⟩
  constructor <;> simp [hplace, hlist, hevent, AlertPlace.Waits]

end AlertCore

/-! ## The layers run the core -/

/-- The place of a program counter. -/
def alertPlace : Pc T → AlertPlace T
  | .ntWait _ .reference => .registering
  | .ntWait _ .clear => .registering
  | .ntWait _ .pending => .registering
  | .ntWait _ .block => .blocked
  | .ntWait _ (.unlink st) => if st = .success then .elsewhere else .timedOut
  | .ntWait _ .blockWoken => .blockedWoken
  | .ntAlert _ target .setEvent => .setting target
  | _ => .elsewhere

/-- The alert state of the layers. -/
def alertCore (s : State T) : AlertCore T where
  place t := alertPlace (s.pc t)
  list := s.alertList
  entry := s.alertEntry
  event := s.event
  pending := s.pendingList

/-- Steps of the terminate routines. -/
def Action.terminates : Action T → Bool
  | .callTerminate _ _ | .terminateShutDown _ _ | .terminateCollectEvents _ _
  | .terminateSetEvent _ _ _ _ | .terminateDrain _ _ | .terminateClearPending _ => true
  | _ => false

/-- A run in which no terminate routine takes a step. -/
def InService (_ : State T) (a : Action T) : Prop := a.terminates = false

instance (s : State T) (a : Action T) : Decidable (InService s a) :=
  inferInstanceAs (Decidable (_ = _))

theorem alertPlace_update {s s' : State T} {t : T} {p : Pc T}
    (hpc : s'.pc = Function.update s.pc t p) :
    (alertCore s').place = Function.update (alertCore s).place t (alertPlace p) := by
  funext u
  by_cases hu : u = t
  · subst hu; simp [alertCore, hpc]
  · simp [alertCore, hpc, Function.update_of_ne hu]

/-- A move of one thread that keeps its place and the alert state. -/
theorem alertCore_move {s s' : State T} {t : T} {p q : Pc T} (hpc : s.pc t = q)
    (hmove : s'.pc = Function.update s.pc t p) (hplace : alertPlace p = alertPlace q)
    (hlist : s'.alertList = s.alertList)
    (hentry : s'.alertEntry = s.alertEntry) (hevent : s'.event = s.event)
    (hpending : s'.pendingList = s.pendingList) : alertCore s' = alertCore s := by
  refine AlertCore.ext ?_ hlist hentry hevent hpending
  rw [alertPlace_update hmove, hplace, ← hpc]
  exact Function.update_eq_self t _

/-- A move of one thread that the core follows. -/
theorem alertCore_next {s s' : State T} {b : AlertCore.Action T} {t : T} {p : Pc T}
    (hmove : s'.pc = Function.update s.pc t p)
    (hplace : (AlertCore.next (alertCore s) b).place =
      Function.update (alertCore s).place t (alertPlace p))
    (hlist : s'.alertList = (AlertCore.next (alertCore s) b).list)
    (hentry : s'.alertEntry = (AlertCore.next (alertCore s) b).entry)
    (hevent : s'.event = (AlertCore.next (alertCore s) b).event)
    (hpending : s'.pendingList = (AlertCore.next (alertCore s) b).pending) :
    alertCore s' = AlertCore.next (alertCore s) b :=
  AlertCore.ext ((alertPlace_update hmove).trans hplace.symm) hlist hentry hevent hpending

/-- Every step of the layers is a step of the core or cannot be seen there. -/
theorem alertCore_step (s : State T) (a : Action T) (hen : Enabled s a) (hservice : InService s a) :
    alertCore (next s a) = alertCore s ∨
      ∃ b, AlertCore.Enabled (alertCore s) b ∧
        alertCore (next s a) = AlertCore.next (alertCore s) b := by
  -- a step is one of the core, or changes nothing that the core is about
  cases a with
  | callWaitOnAddress t _ | callNtWait t _ | callNtAlert t _ =>
    have hpc : s.pc t = .idle := hen
    exact Or.inl (alertCore_move hpc rfl rfl rfl rfl rfl rfl)
  | callWake t address all =>
    have hpc : s.pc t = .idle := hen
    simp only [next, State.callWake]
    split <;> exact Or.inl (alertCore_move hpc rfl rfl rfl rfl rfl rfl)
  | rtlCheck t =>
    have hpc : s.pc t = .rtlWait .check := hen
    simp only [next, State.rtlCheck]
    split_ifs <;> exact Or.inl (alertCore_move hpc rfl rfl rfl rfl rfl rfl)
  | rtlLock t =>
    have hpc : s.pc t = .rtlWait .lock := hen.1
    simp only [next, State.rtlLock]
    split_ifs <;> exact Or.inl (alertCore_move hpc rfl rfl rfl rfl rfl rfl)
  | rtlReference t =>
    have hpc : s.pc t = .rtlWait .reference := hen
    exact Or.inl (alertCore_move hpc rfl rfl rfl rfl rfl rfl)
  | rtlClear t =>
    have hpc : s.pc t = .rtlWait .clear := hen
    exact Or.inl (alertCore_move hpc rfl rfl rfl rfl rfl rfl)
  | rtlInsert t =>
    have hpc : s.pc t = .rtlWait .insert := hen
    simp only [next, State.rtlInsert]
    split <;> exact Or.inl (alertCore_move hpc rfl rfl rfl rfl rfl rfl)
  | rtlUnlink t st =>
    have hpc : s.pc t = .rtlWait (.unlink st) := hen.1
    simp only [next, State.rtlUnlink]
    split <;> split <;> exact Or.inl (alertCore_move hpc rfl rfl rfl rfl rfl rfl)
  | rtlDereference t st =>
    have hpc : s.pc t = .rtlWait (.dereference st) := hen
    simp only [next, State.rtlDereference]
    split <;> exact Or.inl (alertCore_move hpc rfl rfl rfl rfl rfl rfl)
  | rtlSetDrained t st =>
    have hpc : s.pc t = .rtlWait (.setDrained st) := hen
    exact Or.inl (alertCore_move hpc rfl rfl rfl rfl rfl rfl)
  | ntLock t ret =>
    have hpc : s.pc t = .ntWait ret .lock := hen.1
    simp only [next, State.ntLock]
    split_ifs
    · refine Or.inr ⟨.start t true, by simp [AlertCore.Enabled, alertCore, hpc, alertPlace], ?_⟩
      cases ret <;> exact alertCore_next rfl rfl rfl rfl rfl rfl
    · refine Or.inr ⟨.start t false, by simp [AlertCore.Enabled, alertCore, hpc, alertPlace], ?_⟩
      exact alertCore_next rfl rfl rfl rfl rfl rfl
  | ntReference t ret =>
    have hpc : s.pc t = .ntWait ret .reference := hen
    exact Or.inl (alertCore_move hpc rfl (by split <;> rfl) rfl rfl rfl rfl)
  | ntClear t ret =>
    have hpc : s.pc t = .ntWait ret .clear := hen
    exact Or.inl (alertCore_move hpc rfl rfl rfl rfl rfl rfl)
  | ntPending t ret =>
    have hpc : s.pc t = .ntWait ret .pending := hen
    simp only [next, State.ntPending]
    split_ifs with hpending
    · refine Or.inr ⟨.consume t, by simp [AlertCore.Enabled, alertCore, hpc, alertPlace], ?_⟩
      exact alertCore_next rfl rfl rfl rfl rfl rfl
    · push Not at hpending
      refine Or.inr ⟨.link t, ⟨by simp [alertCore, hpc, alertPlace], hpending.1⟩, ?_⟩
      exact alertCore_next rfl rfl rfl rfl rfl rfl
  | ntSatisfied t ret =>
    have hpc : s.pc t = .ntWait ret .block := hen.1
    refine Or.inr ⟨.satisfied t, ⟨Or.inl (by simp [alertCore, hpc, alertPlace]), hen.2⟩, ?_⟩
    exact alertCore_next rfl rfl rfl rfl rfl rfl
  | ntTimeout t ret =>
    have hpc : s.pc t = .ntWait ret .block := hen.1
    refine Or.inr ⟨.timeOut t, ⟨by simp [alertCore, hpc, alertPlace], hen.2.2⟩, ?_⟩
    exact alertCore_next rfl rfl rfl rfl rfl rfl
  | ntUnlink t ret st =>
    have hpc : s.pc t = .ntWait ret (.unlink st) := hen.1
    have hplace : (alertCore s).place t = if st = .success then .elsewhere else .timedOut := by
      simp [alertCore, hpc, alertPlace]
    refine Or.inr ⟨.unlink t, ?_, ?_⟩
    · by_cases hst : st = .success
      · exact Or.inr (by rw [hplace, if_pos hst])
      · exact Or.inl (by rw [hplace, if_neg hst])
    · have hafter : alertPlace (.ntWait ret (if (s.alertEntry t).woken ∧ st ≠ .success then
            .blockWoken else .dereference (if st = .success then .alerted else st)) : Pc T) =
          (alertCore s).afterUnlink t := by
        rw [AlertCore.afterUnlink, hplace]
        by_cases hst : st = .success <;> by_cases hwoken : (s.alertEntry t).woken = true <;>
          simp [hst, hwoken, alertPlace, alertCore]
      by_cases hin : (s.alertEntry t).inList = true
      · rw [show next s (.ntUnlink t ret st) = _ from if_pos hin,
          show AlertCore.next (alertCore s) (.unlink t) = _ from if_pos hin, ← hafter]
        exact AlertCore.ext (alertPlace_update rfl) rfl rfl rfl rfl
      · rw [show next s (.ntUnlink t ret st) = _ from if_neg hin,
          show AlertCore.next (alertCore s) (.unlink t) = _ from if_neg hin, ← hafter]
        exact AlertCore.ext (alertPlace_update rfl) rfl rfl rfl rfl
  | ntSatisfiedWoken t ret =>
    have hpc : s.pc t = .ntWait ret .blockWoken := hen.1
    refine Or.inr ⟨.satisfied t, ⟨Or.inr (by simp [alertCore, hpc, alertPlace]), hen.2⟩, ?_⟩
    exact alertCore_next rfl rfl rfl rfl rfl rfl
  | ntDereference t ret st =>
    have hpc : s.pc t = .ntWait ret (.dereference st) := hen
    simp only [next, State.ntDereference]
    split
    · exact Or.inl (alertCore_move hpc rfl rfl rfl rfl rfl rfl)
    · cases ret <;> exact Or.inl (alertCore_move hpc rfl rfl rfl rfl rfl rfl)
  | ntSetDrained t ret st =>
    have hpc : s.pc t = .ntWait ret (.setDrained st) := hen
    cases ret <;> exact Or.inl (alertCore_move hpc rfl rfl rfl rfl rfl rfl)
  | collectIds t c =>
    have hpc : s.pc t = .collect c := hen.1
    exact Or.inl (alertCore_move hpc rfl rfl rfl rfl rfl rfl)
  | alertNext t c ids full =>
    have hpc : s.pc t = .alertIds c ids full := hen
    simp only [next, State.alertNext]
    cases ids with
    | cons id rest => exact Or.inl (alertCore_move hpc rfl rfl rfl rfl rfl rfl)
    | nil =>
      cases c <;> dsimp only <;> (try split) <;>
        exact Or.inl (alertCore_move hpc rfl rfl rfl rfl rfl rfl)
  | alertLookup t ret target found =>
    have hpc : s.pc t = .ntAlert ret target .lookup := hen.1
    simp only [next, State.alertLookup]
    split
    · exact Or.inl (alertCore_move hpc rfl rfl rfl rfl rfl rfl)
    · cases ret <;> exact Or.inl (alertCore_move hpc rfl rfl rfl rfl rfl rfl)
  | alertRemove t ret target =>
    have hpc : s.pc t = .ntAlert ret target .remove := hen.1
    simp only [next, State.alertRemove]
    split_ifs with hlisted
    · refine Or.inr ⟨.remove t target, ⟨by simp [alertCore, hpc, alertPlace], hlisted⟩, ?_⟩
      exact alertCore_next rfl rfl rfl rfl rfl rfl
    · exact Or.inl (alertCore_move hpc rfl rfl rfl rfl rfl rfl)
  | alertAllocate t ret target allocated =>
    have hpc : s.pc t = .ntAlert ret target .allocate := hen
    exact Or.inl (alertCore_move hpc rfl (by cases allocated <;> rfl) rfl rfl rfl rfl)
  | alertRecheck t ret target =>
    have hpc : s.pc t = .ntAlert ret target .recheck := hen.1
    simp only [next, State.alertRecheck]
    split_ifs with hlisted
    · refine Or.inr ⟨.remove t target, ⟨by simp [alertCore, hpc, alertPlace], hlisted⟩, ?_⟩
      exact alertCore_next rfl rfl rfl rfl rfl rfl
    · cases ret <;> exact Or.inl (alertCore_move hpc rfl rfl rfl rfl rfl rfl)
  | alertInsert t ret target =>
    have hpc : s.pc t = .ntAlert ret target .insert := hen.1
    have hplace : (alertCore s).place t = .elsewhere := by simp [alertCore, hpc, alertPlace]
    simp only [next, State.alertInsert]
    -- the thread may have begun to wait while memory was allocated
    split_ifs with hlisted hpending
    · refine Or.inr ⟨.remove t target, ⟨hplace, hlisted⟩, ?_⟩
      exact alertCore_next rfl rfl rfl rfl rfl rfl
    · cases ret <;> exact Or.inl (alertCore_move hpc rfl rfl rfl rfl rfl rfl)
    -- nobody waits, and the alert is left behind as a pending one
    · refine Or.inr ⟨.insert target, hlisted, ?_⟩
      have hkeep : (alertCore s).place = Function.update (alertCore s).place t .elsewhere := by
        rw [← hplace]; exact (Function.update_eq_self t _).symm
      cases ret <;> exact alertCore_next rfl hkeep rfl rfl rfl rfl
  | alertSetEvent t ret target =>
    have hpc : s.pc t = .ntAlert ret target .setEvent := hen
    refine Or.inr ⟨.setEvent t target, by simp [AlertCore.Enabled, alertCore, hpc, alertPlace], ?_⟩
    cases ret <;> exact alertCore_next rfl rfl rfl rfl rfl rfl
  | callTerminate | terminateShutDown | terminateCollectEvents | terminateSetEvent
  | terminateDrain | terminateClearPending => cases hservice
  | store mem | beginShutdown => exact Or.inl rfl

/-- While no terminate routine runs, the layers run the alert layer. -/
def coreSimulation : Simulation (waitOnAddress T) InService (AlertCore.alertSystem T) Always where
  abs := alertCore
  init := by
    rintro s ⟨mem, rfl⟩
    exact ⟨fun _ => rfl, rfl, fun _ => rfl, rfl⟩
  step s a _ hen hservice := by
    rcases alertCore_step s a hen hservice with hsame | ⟨b, hb, heq⟩
    · exact Or.inl hsame
    · exact Or.inr ⟨b, hb, trivial, heq⟩

/-- The relation between entries, events and alerters holds while the layers are in service. -/
theorem alertInv_of_reachable (s : State T) (h : (waitOnAddress T).Reachable InService s) :
    (alertCore s).Inv :=
  AlertCore.inv_of_reachable _ (coreSimulation.reachable s h)

end Ldk.WaitOnAddress
