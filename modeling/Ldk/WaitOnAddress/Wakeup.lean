import Ldk.WaitOnAddress.AlertCore

/-!
# Delivery of wakes

A wake takes a waiter's entry out of the address list and then alerts the waiter's thread. The
waiter may at that time be anywhere between the address list and the alert list, so the alert is
delivered to its event, or left behind as a pending record.

- `Left`: the thread is not in `RtlWaitOnAddress`, or is past its waits there.
- `Delivered`: the wake has reached the waiter.
- `burden`: the threads a waker has taken and has still to alert.
- `woken_waiter_not_blocked`: once all steps of the wake call are done the waiter is not blocked
  for ever, in every run in which no allocation of a pending record fails for a waiter that
  nothing else has reached.
- `failed_allocation_loses_wake`: a run in which that allocation fails.
-/

namespace Ldk.WaitOnAddress

open TransitionSystem

variable {T : Type} [DecidableEq T]

/-! ## Delivery -/

/-- Statuses of the alert wait with which `RtlWaitOnAddress` does not wait again. -/
def endsWait : NtStatus → Bool
  | .alerted | .success => true
  | _ => false

/-- The thread may still come to a `KeWaitForSingleObject` in its `RtlWaitOnAddress`. -/
def mayWait : Pc T → Bool
  | .rtlWait .check | .rtlWait .lock | .rtlWait .reference | .rtlWait .clear
  | .rtlWait .insert => true
  | .rtlWait (.unlink st) => !endsWait st
  | .ntWait .first pc | .ntWait .second pc =>
    match pc with
    | .unlink st => st ≠ .success
    | .dereference st | .setDrained st => st ≠ .alerted
    | _ => true
  | _ => false

/-- The thread is not in `RtlWaitOnAddress`, or is past its waits there. -/
def Left (p : Pc T) : Prop := mayWait p = false

instance (p : Pc T) : Decidable (Left p) := inferInstanceAs (Decidable (_ = _))

/-- A wake has reached the thread. -/
def Delivered (s : State T) (t : T) : Prop :=
  Left (s.pc t) ∨ s.event t = true ∨ t ∈ s.pendingList

instance (s : State T) (t : T) : Decidable (Delivered s t) :=
  inferInstanceAs (Decidable (_ ∨ _ ∨ _))

/-- The thread has left the wait, or its alert event is signalled, or a pending record exists
for it; and it is in a wait for its event only while somebody is about to set that event. -/
def NotBlockedForever (s : State T) (t : T) : Prop :=
  Left (s.pc t) ∨ s.event t = true ∨
    t ∈ s.pendingList ∧
      ((alertPlace (s.pc t)).Waits → ∃ w, alertPlace (s.pc w) = .setting t)

/-- The threads that a waker has collected and has still to alert. -/
def burden : Pc T → List T
  | .alertIds _ ids _ => ids
  | .ntAlert (.batch _ rest _) target _ => target :: rest
  | _ => []

/-- All steps of the `n`-th call of thread `w` have been taken. -/
def CallCompleted (s : State T) (w : T) (n : Nat) : Prop := s.calls w ≠ n ∨ s.pc w = .idle

instance (s : State T) (w : T) (n : Nat) : Decidable (CallCompleted s w n) :=
  inferInstanceAs (Decidable (_ ∨ _))

/-- No terminate routine runs, and when the allocation of a pending record has failed in a wake,
the target is linked in the alert list at the second look or has been reached otherwise. -/
def AlertsDeliverable (s : State T) : Action T → Prop
  | .alertRecheck _ (.batch _ _ _) target => target ∈ s.alertList ∨ Delivered s target
  | a => a.terminates = false

instance (s : State T) (a : Action T) : Decidable (AlertsDeliverable s a) := by
  -- where `LdkWakeByAddress` returns to is an argument of one of the actions
  rcases a <;> first
    | (unfold AlertsDeliverable; infer_instance)
    | (rename_i ret _; rcases ret <;> unfold AlertsDeliverable <;> infer_instance)

omit [DecidableEq T] in
theorem AlertsDeliverable.inService {s : State T} {a : Action T} (h : AlertsDeliverable s a) :
    InService s a := by
  unfold AlertsDeliverable at h
  split at h
  · rfl
  · exact h

/-! ## What a step leaves alone -/

/-- The thread that takes a step. -/
def Action.actor : Action T → Option T
  | .callWaitOnAddress t _ | .callWake t _ _ | .callNtWait t _ | .callNtAlert t _
  | .callTerminate t _ | .rtlCheck t | .rtlLock t | .rtlReference t | .rtlClear t | .rtlInsert t
  | .rtlUnlink t _ | .rtlDereference t _ | .rtlSetDrained t _ | .ntLock t _ | .ntReference t _
  | .ntClear t _ | .ntPending t _ | .ntSatisfied t _ | .ntTimeout t _ | .ntUnlink t _ _
  | .ntSatisfiedWoken t _ | .ntDereference t _ _ | .ntSetDrained t _ _ | .collectIds t _
  | .alertNext t _ _ _ | .alertLookup t _ _ _ | .alertRemove t _ _ | .alertAllocate t _ _ _
  | .alertRecheck t _ _ | .alertInsert t _ _ | .alertSetEvent t _ _ | .terminateShutDown t _
  | .terminateCollectEvents t _ | .terminateSetEvent t _ _ _ | .terminateDrain t _
  | .terminateClearPending t => some t
  | .store _ | .beginShutdown => none

attribute [local simp] next State.callWaitOnAddress State.callWake State.begin State.rtlCheck
  State.rtlLock State.rtlReference State.rtlClear State.rtlInsert State.rtlUnlink
  State.rtlDereference State.rtlSetDrained State.ntLock State.ntReturn State.ntReference
  State.ntClear State.ntPending State.ntSatisfied State.ntTimeout State.ntUnlink
  State.ntSatisfiedWoken State.ntDereference State.ntSetDrained State.collectIds
  State.alertNext State.alertReturn State.removeWaiter State.alertLookup
  State.alertRemove State.alertAllocate State.alertRecheck State.alertInsert
  State.alertSetEvent State.terminateShutDown State.terminateCollectEvents
  State.terminateSetEvent State.terminateDrain State.terminateClearPending State.finish State.goto
  State.onGate

/-- Only the thread that takes a step moves. -/
theorem next_pc_of_ne {s : State T} {a : Action T} {u : T} (hu : a.actor ≠ some u) :
    (next s a).pc u = s.pc u := by
  cases a <;> simp only [Action.actor, ne_eq, Option.some.injEq] at hu
  case store | beginShutdown => rfl
  all_goals
    dsimp
    repeat' split
    all_goals first | rfl | exact Function.update_of_ne (Ne.symm hu) _ _

theorem next_calls {s : State T} {a : Action T} (hen : Enabled s a) (u : T) :
    (next s a).calls u = s.calls u ∨ s.pc u = .idle := by
  cases a
  case callWaitOnAddress t _ | callNtWait t _ | callNtAlert t _ | callTerminate t _ =>
    by_cases hu : u = t
    · subst hu; exact Or.inr hen
    · exact Or.inl (Function.update_of_ne hu _ _)
  case callWake t address all =>
    by_cases hu : u = t
    · subst hu; exact Or.inr hen
    · left; dsimp; split
      · rfl
      · exact Function.update_of_ne hu _ _
  all_goals
    left; dsimp
    repeat' split
    all_goals rfl

/-! ## What a step does for a waiter -/

/-- A waiter is marked as woken by the collector that takes it on. -/
theorem wokenBy_step {s : State T} {a : Action T} (hen : Enabled s a) {t w : T} {n : Nat}
    (h : (next s a).wokenBy t = some (w, n)) :
    s.wokenBy t = some (w, n) ∨
      (next s a).calls w = n ∧ t ∈ burden ((next s a).pc w) := by
  cases a
  case callWaitOnAddress u r =>
    left
    by_cases hu : t = u
    · subst hu; simp at h
    · simpa [Function.update_of_ne hu] using h
  case collectIds u c =>
    by_cases hmem : t ∈ (s.collected c).1
    · right
      obtain ⟨rfl, rfl⟩ : u = w ∧ s.calls u = n := by simpa [hmem] using h
      exact ⟨rfl, by simpa [burden] using hmem⟩
    · left; simpa [hmem] using h
  all_goals
    left; revert h; dsimp
    repeat' split
    all_goals exact id

/-- A signalled event stays signalled until its waiter is through. -/
theorem event_step {s : State T} {a : Action T} (hen : Enabled s a) (hservice : InService s a)
    (hinv : (alertCore s).Inv) {t : T} (h : s.event t = true) :
    (next s a).event t = true ∨ Left ((next s a).pc t) := by
  cases a
  case ntLock u ret =>
    left
    -- a thread with a signalled event is not at the start of another wait
    have hne : t ≠ u := by
      rintro rfl
      have hwaits := (hinv.signalled t h).1
      rw [show (alertCore s).place t = alertPlace (s.pc t) from rfl, hen.1] at hwaits
      exact hwaits
    dsimp
    repeat' split
    all_goals simpa [Function.update_of_ne hne] using h
  case ntSatisfied u ret | ntSatisfiedWoken u ret =>
    by_cases hu : t = u
    · subst hu; right; cases ret <;> simp [Left, mayWait]
    · left; simpa [Function.update_of_ne hu] using h
  case alertSetEvent u ret target =>
    left
    cases ret <;> simp [Function.update_apply, h]
  case terminateSetEvent | terminateCollectEvents => cases hservice
  all_goals
    left; dsimp
    repeat' split
    all_goals exact h

/-- A pending record stays until its waiter consumes it and is through. -/
theorem pending_step {s : State T} {a : Action T} (hservice : InService s a)
    {t : T} (h : t ∈ s.pendingList) :
    t ∈ (next s a).pendingList ∨ Left ((next s a).pc t) := by
  cases a
  case ntPending u ret =>
    by_cases hu : t = u
    · subst hu; right; cases ret <;> simp [Left, mayWait, h]
    · left; dsimp
      split
      · exact (List.mem_erase_of_ne hu).mpr h
      · exact h
  case alertInsert u ret target =>
    left; dsimp
    repeat' split
    all_goals first | exact h | exact List.mem_append_left _ h
  case terminateClearPending => cases hservice
  all_goals
    left; dsimp
    repeat' split
    all_goals exact h

/-- A thread that has left its wait comes back only with another call. -/
theorem left_step {s : State T} {a : Action T} (hen : Enabled s a) {t : T} (h : Left (s.pc t)) :
    Left ((next s a).pc t) ∨ (next s a).wokenBy t = none := by
  by_cases hother : a.actor ≠ some t
  · left; rw [next_pc_of_ne hother]; exact h
  have hactor : a.actor = some t := not_ne_iff.mp hother
  cases a <;> simp only [Action.actor, Option.some.injEq, reduceCtorEq] at hactor <;>
    subst hactor <;> simp only [Enabled] at hen
  -- a new wait begins without a wake
  case callWaitOnAddress u r => right; simp
  case rtlCheck u | rtlReference u | rtlClear u | rtlInsert u =>
    rw [hen] at h; cases h
  case rtlLock u => rw [hen.1] at h; cases h
  case ntReference u ret | ntClear u ret | ntPending u ret =>
    rw [hen] at h
    cases ret with
    | direct => left; dsimp; repeat' split
                all_goals simp [Left, mayWait]
    | first | second => cases h
  case ntLock u ret | ntSatisfied u ret | ntTimeout u ret | ntSatisfiedWoken u ret =>
    rw [hen.1] at h
    cases ret with
    | direct => left; dsimp; repeat' split
                all_goals simp [Left, mayWait]
    | first | second => cases h
  case rtlUnlink u st =>
    rw [hen.1] at h
    left
    -- the status is one with which the routine does not wait again
    have hst : st = .alerted ∨ st = .success := by
      cases st <;> first | exact Or.inl rfl | exact Or.inr rfl | cases h
    rcases hst with rfl | rfl <;> dsimp <;> split <;> simp [Left, mayWait]
  case ntUnlink u ret st =>
    rw [hen.1] at h
    left
    cases ret with
    | direct => dsimp; repeat' split
                all_goals simp [Left, mayWait]
    | first | second =>
      have hst : st = .success := by simpa [Left, mayWait] using h
      subst hst
      dsimp
      split <;> simp [Left, mayWait]
  case ntDereference u ret st | ntSetDrained u ret st =>
    rw [hen] at h
    left
    cases ret with
    | direct => dsimp; repeat' split
                all_goals simp [Left, mayWait]
    | first | second =>
      have hst : st = .alerted := by simpa [Left, mayWait] using h
      subst hst
      dsimp
      repeat' split
      all_goals simp [Left, mayWait, endsWait]
  all_goals
    left; dsimp
    repeat' split
    all_goals simp_all [Left, mayWait]

/-- An alerter goes on carrying the threads it has taken until each is reached. -/
theorem burden_step {s : State T} {a : Action T} (hen : Enabled s a)
    (hdeliverable : AlertsDeliverable s a) {t w : T} (h : t ∈ burden (s.pc w)) :
    t ∈ burden ((next s a).pc w) ∨ Delivered (next s a) t := by
  by_cases hother : a.actor ≠ some w
  · left; rw [next_pc_of_ne hother]; exact h
  have hactor : a.actor = some w := not_ne_iff.mp hother
  cases a <;> simp only [Action.actor, Option.some.injEq, reduceCtorEq] at hactor <;>
    subst hactor <;> simp only [Enabled] at hen
  -- only the thread whose burden it is can change it
  case alertNext u c ids full =>
    rw [hen] at h
    cases ids with
    | nil => cases h
    | cons id rest => left; simpa [burden] using h
  case alertLookup u ret target found =>
    rw [hen.1] at h
    cases ret with
    | direct => cases h
    | batch c rest full =>
      rcases hen.2 with hfound | hidle
      · left; simpa [burden, hfound] using h
      · -- a thread that cannot be looked up is not in a call
        rcases List.mem_cons.mp h with rfl | hrest
        · have hne : t ≠ u := by
            rintro rfl
            rw [hen.1] at hidle
            cases hidle
          cases found
          · right; left
            simp [Function.update_of_ne hne, hidle, Left, mayWait]
          · left; simp [burden]
        · left
          cases found <;> simp [burden, hrest]
  case alertRemove u ret target =>
    rw [hen.1] at h
    cases ret with
    | direct => cases h
    | batch c rest full =>
      left; dsimp
      split <;> simpa [burden] using h
  case alertAllocate u ret target allocated =>
    rw [hen] at h
    cases ret with
    | direct => cases h
    | batch c rest full => left; simpa [burden] using h
  case alertRecheck u ret target =>
    rw [hen.1] at h
    cases ret with
    | direct => cases h
    | batch c rest full =>
      by_cases hlisted : target ∈ s.alertList
      · left; simpa [hlisted, burden] using h
      · rcases List.mem_cons.mp h with rfl | hrest
        · -- the allocation has failed, so something else has reached the target
          right
          rcases hdeliverable with hlisted' | hleft | hevent | hpending
          · exact absurd hlisted' hlisted
          · left
            by_cases hne : t = u
            · subst hne; simp [hlisted, Left, mayWait]
            · simpa [hlisted, Function.update_of_ne hne] using hleft
          · right; left; simpa [hlisted] using hevent
          · right; right; simpa [hlisted] using hpending
        · left; simp [hlisted, burden, hrest]
  case alertInsert u ret target =>
    rw [hen.1] at h
    cases ret with
    | direct => cases h
    | batch c rest full =>
      rcases List.mem_cons.mp h with rfl | hrest
      · dsimp
        split_ifs with hlisted hpending
        · left; simp [burden]
        · exact Or.inr (Or.inr (Or.inr hpending))
        · exact Or.inr (Or.inr (Or.inr (by simp)))
      · left; dsimp; split_ifs <;> simp [burden, hrest]
  case alertSetEvent u ret target =>
    rw [hen] at h
    cases ret with
    | direct => cases h
    | batch c rest full =>
      rcases List.mem_cons.mp h with rfl | hrest
      · exact Or.inr (Or.inr (Or.inl (by simp)))
      · left; simpa [burden] using hrest
  all_goals
    first
      | (rw [hen] at h; cases h)
      | (rw [hen.1] at h; cases h)

/-- What has reached a waiter keeps its effect until the waiter's next call. -/
theorem delivered_step {s : State T} {a : Action T} (hen : Enabled s a) (hservice : InService s a)
    (hinv : (alertCore s).Inv) {t : T} (h : Delivered s t) :
    Delivered (next s a) t ∨ (next s a).wokenBy t = none := by
  rcases h with hleft | hevent | hpending
  · exact (left_step hen hleft).imp_left Or.inl
  · left
    exact (event_step hen hservice hinv hevent).elim (fun h => Or.inr (Or.inl h)) Or.inl
  · left
    exact (pending_step hservice hpending).elim (fun h => Or.inr (Or.inr h)) Or.inl

/-! ## No lost wake -/

/-- A woken waiter has been reached, or the waker still carries it. -/
def WakesCarried (s : State T) : Prop :=
  ∀ t w n, s.wokenBy t = some (w, n) →
    Delivered s t ∨ s.calls w = n ∧ t ∈ burden (s.pc w)

theorem wakesCarried_step {s : State T} {a : Action T} (hinv : (alertCore s).Inv)
    (h : WakesCarried s) (hen : Enabled s a) (hdeliverable : AlertsDeliverable s a) :
    WakesCarried (next s a) := by
  intro t w n hwoken
  rcases wokenBy_step hen hwoken with hbefore | ⟨hcalls, hburden⟩
  · rcases h t w n hbefore with hdelivered | ⟨hcalls, hburden⟩
    · rcases delivered_step hen hdeliverable.inService hinv hdelivered with hafter | hnone
      · exact Or.inl hafter
      · rw [hnone] at hwoken; cases hwoken
    · rcases burden_step hen hdeliverable hburden with hafter | hdelivered
      · refine Or.inr ⟨?_, hafter⟩
        -- a thread that carries anybody is in a call, so its call number stands still
        rcases next_calls hen w with hsame | hidle
        · rw [hsame, hcalls]
        · rw [hidle] at hburden; cases hburden
      · exact Or.inl hdelivered
  · exact Or.inr ⟨hcalls, hburden⟩

theorem wakesCarried_of_reachable :
    ∀ s, (waitOnAddress T).Reachable AlertsDeliverable s → WakesCarried s := by
  refine System.Reachable.invariantUnder (J := fun s => (alertCore s).Inv)
    (fun s h => alertInv_of_reachable s (h.mono fun _ _ hg => hg.inService)) ?_ ?_
  · rintro s ⟨mem, rfl⟩ t w n hwoken
    simp [initialState] at hwoken
  · intro s a hinv h hen hdeliverable
    exact wakesCarried_step hinv h hen hdeliverable

omit [DecidableEq T] in
/-- A thread that a pending record waits for, and that is in a wait for its event, is about to
have the event set. -/
theorem setter_of_pending {s : State T} (hinv : (alertCore s).Inv) {t : T}
    (hpending : t ∈ s.pendingList) (hevent : s.event t = false)
    (hwaits : (alertPlace (s.pc t)).Waits) : ∃ w, alertPlace (s.pc w) = .setting t := by
  have hunlisted : t ∉ s.alertList := fun hlisted =>
    (hinv.linked t hlisted).2.2.2 hpending
  rcases (hinv.unlinked t hwaits hunlisted).2 with hset | hsetter
  · have hset : s.event t = true := hset
    rw [hevent] at hset
    cases hset
  · exact hsetter

/-- No wake is lost: once all steps of a wake call are done, every waiter it has taken out of the
address list has left its wait, or has its event signalled, or has a pending record. -/
theorem woken_waiter_not_blocked {s : State T}
    (h : (waitOnAddress T).Reachable AlertsDeliverable s) {t w : T} {n : Nat}
    (hwoken : s.wokenBy t = some (w, n)) (hdone : CallCompleted s w n) :
    NotBlockedForever s t := by
  rcases wakesCarried_of_reachable s h t w n hwoken with hdelivered | ⟨hcalls, hburden⟩
  · rcases hdelivered with hleft | hevent | hpending
    · exact Or.inl hleft
    · exact Or.inr (Or.inl hevent)
    · have hinv := alertInv_of_reachable s (h.mono fun _ _ hg => hg.inService)
      cases hevent : s.event t with
      | true => exact Or.inr (Or.inl hevent)
      | false =>
        -- the alert is pending, and who left it behind has the event still to set
        exact Or.inr (Or.inr ⟨hpending, setter_of_pending hinv hpending hevent⟩)
  -- a call that is over has no burden left
  · rcases hdone with hother | hidle
    · exact absurd hcalls hother
    · rw [hidle] at hburden; cases hburden

/-- Thread `0` has registered its wait and is on the way to the alert list when thread `1` wakes
it. -/
def wakeBetweenLists : List (Action (Fin 2)) :=
  [.callWaitOnAddress 0 ⟨1, 2, 1, false⟩, .rtlCheck 0, .rtlLock 0, .rtlReference 0, .rtlClear 0,
    .rtlInsert 0,
    .callWake 1 1 false, .collectIds 1 (.single 1), .alertNext 1 (.single 1) [0] true,
    .alertLookup 1 (.batch (.single 1) [] true) 0 true,
    .alertRemove 1 (.batch (.single 1) [] true) 0]

/-- The allocation of the pending record fails, and thread `0` goes on to its wait. -/
def failedAllocation : List (Action (Fin 2)) :=
  wakeBetweenLists ++
    [.alertAllocate 1 (.batch (.single 1) [] true) 0 false,
      .alertRecheck 1 (.batch (.single 1) [] true) 0, .alertNext 1 (.single 1) [] true,
      .ntLock 0 .first, .ntReference 0 .first, .ntClear 0 .first, .ntPending 0 .first]

/-- `NtAlertThreadByThreadId` fails, `LdkpAlertThreadIds` ignores it, and the waiter sleeps
without a timeout, without a signalled event and without a pending record. -/
theorem failed_allocation_loses_wake :
    ∃ s : State (Fin 2), (waitOnAddress (Fin 2)).Reachable InService s ∧
      s.wokenBy 0 = some (1, 1) ∧ CallCompleted s 1 1 ∧
      s.pc 0 = .ntWait .first .block ∧ s.hasTimeout 0 .first = false ∧
      ¬ NotBlockedForever s 0 := by
  refine ⟨_, System.reachable_exec (initialState (Fin 2) fun _ => 0) failedAllocation
    ⟨_, rfl⟩ (by decide), by decide, by decide, by decide, by decide, ?_⟩
  rintro (hleft | hevent | ⟨hpending, -⟩)
  · revert hleft; decide
  · revert hevent; decide
  · revert hpending; decide

/-- The allocation succeeds. -/
def successfulAllocation : List (Action (Fin 2)) :=
  wakeBetweenLists ++
    [.alertAllocate 1 (.batch (.single 1) [] true) 0 true,
      .alertInsert 1 (.batch (.single 1) [] true) 0, .alertNext 1 (.single 1) [] true]

/-- Then the waiter is not blocked for ever: it will find the pending record. -/
theorem successful_allocation_keeps_wake :
    NotBlockedForever ((waitOnAddress (Fin 2)).exec (initialState (Fin 2) fun _ => 0)
      successfulAllocation) 0 :=
  woken_waiter_not_blocked (w := 1) (n := 1)
    (System.reachable_exec _ successfulAllocation ⟨_, rfl⟩ (by decide)) (by decide) (by decide)

end Ldk.WaitOnAddress
