import Ldk.ConditionVariable.Collect

/-!
# Sleeps and wakes of condition variables

- `Sound`: the invariant of every run. A waiter is in the list or has been collected; a waiter that
  has been collected waits for one signal, which is still to come from one wake or has come.
-/

namespace Ldk.ConditionVariable

open TransitionSystem

variable {σ ω κ : Type}

/-! ## One sleep -/

/-- The sleep may still need its signal. -/
def Stage.awaits : Stage → Bool
  | .unlocking | .waiting | .waited .timeout | .waitingAgain => true
  | _ => false

/-- What the wait block says at each stage of the sleep. -/
def Sleep.Consistent (b : Sleep) : Prop :=
  match b.stage with
  | .notCalled => b.inList = false ∧ b.woken = false ∧ b.event = false
  | .unlocking | .waiting | .waited .timeout => b.inList = !b.woken ∧ (b.event = true → b.woken = true)
  | .waited status => status = .success ∧ b.inList = false ∧ b.woken = true ∧ b.event = false
  | .waitingAgain => b.inList = false ∧ b.woken = true
  | .locking status | .returning status =>
    b.inList = false ∧ b.event = false ∧ status = if b.woken then .success else .timeout
  | .returned status result lastStatus =>
    b.inList = false ∧ b.event = false ∧ (status = if b.woken then .success else .timeout) ∧
      result = true ∧ lastStatus = none

/-! ## The invariant -/

variable [DecidableEq κ]

/-- The wake has not collected, or will collect again. -/
def WakeStage.more : WakeStage σ → Prop
  | .notCalled | .collecting => True
  | .signalling _ full => full = true
  | .returned => False

structure Sound (calls : Calls σ ω κ) (s : State σ ω) : Prop where
  sleeps : ∀ w, (s.sleep w).Consistent
  nodup : s.waitList.Nodup
  listed : ∀ w, w ∈ s.waitList ↔ (s.sleep w).inList = true
  /-- Whoever is to be signalled has been collected and has not been signalled. -/
  pending : ∀ k ws full, s.wake k = .signalling ws full → ws.Nodup ∧ ∀ w ∈ ws,
    (s.sleep w).woken = true ∧ (s.sleep w).event = false ∧ (s.sleep w).stage.awaits = true ∧
      w ∈ s.taken k
  /-- Whoever has been collected is signalled. -/
  reached : ∀ w, (s.sleep w).woken = true → (s.sleep w).stage.awaits = true →
    (s.sleep w).event = true ∨ ∃ k ws full, s.wake k = .signalling ws full ∧ w ∈ ws
  taken_nodup : ∀ k, (s.taken k).Nodup
  taken_woken : ∀ k, ∀ w ∈ s.taken k, (s.sleep w).woken = true ∧ calls.sleepsOn w = calls.wakes k
  woken_taken : ∀ w, (s.sleep w).woken = true → ∃ k, w ∈ s.taken k
  taken_once : ∀ k k' w, w ∈ s.taken k → w ∈ s.taken k' → k = k'
  taken_one : ∀ k, calls.wakeAll k = false → (s.taken k).length ≤ 1
  taken_none : ∀ k, s.wake k = .notCalled ∨ calls.wakeAll k = false ∧ s.wake k = .collecting →
    s.taken k = []
  owed_called : ∀ k, ∀ w ∈ s.owed k, (s.sleep w).stage ≠ .notCalled ∧
    calls.sleepsOn w = calls.wakes k
  owed_none : ∀ k, s.wake k = .notCalled → s.owed k = []
  /-- A wake of all waiters leaves none of them in the list. -/
  owed_all : ∀ k, calls.wakeAll k = true → ¬ (s.wake k).more →
    ∀ w ∈ s.owed k, (s.sleep w).inList = false
  /-- Until a wake collects, the oldest waiter stays the oldest. -/
  oldest : ∀ k w, s.wake k = .collecting → calls.wakeAll k = false → (s.owed k).head? = some w →
    (s.sleep w).inList = true → (calls.waitersOf (calls.wakes k) s.waitList).head? = some w
  owed_oldest : ∀ k w, calls.wakeAll k = false → s.wake k ≠ .notCalled → s.wake k ≠ .collecting →
    (s.owed k).head? = some w → (s.sleep w).inList = false

variable {calls : Calls σ ω κ}

theorem sound_initial : Sound calls (initialState calls) := by
  constructor <;> simp [initialState, Sleep.Consistent, WakeStage.more]

namespace Sound

variable {s : State σ ω} [DecidableEq σ]

/-- A sleep goes on, and its waiter is neither put into the list nor taken out of it. -/
theorem advance {w : σ} {b : Sleep} (h : Sound calls s) (hb : b.Consistent)
    (hlist : b.inList = (s.sleep w).inList) (hwoken : b.woken = (s.sleep w).woken)
    (hcalled : b.stage ≠ .notCalled)
    (hpending : (s.sleep w).event = false → (s.sleep w).stage.awaits = true →
      b.woken = true → b.event = false ∧ b.stage.awaits = true)
    (hawaits : b.woken = true → b.stage.awaits = true → b.event = true ∨
      (s.sleep w).stage.awaits = true ∧ (s.sleep w).event = false) :
    Sound calls (s.setSleep w b) := by
  have hself : (s.setSleep w b).sleep w = b := Function.update_self _ _ _
  have hother : ∀ u, u ≠ w → (s.setSleep w b).sleep u = s.sleep u :=
    fun u hu => Function.update_of_ne hu _ _
  -- the list and the mark of the wake are changed by others
  have hkept : ∀ u, ((s.setSleep w b).sleep u).inList = (s.sleep u).inList ∧
      ((s.setSleep w b).sleep u).woken = (s.sleep u).woken := by
    intro u
    by_cases hu : u = w
    · rw [hu, hself]
      exact ⟨hlist, hwoken⟩
    · rw [hother u hu]
      exact ⟨rfl, rfl⟩
  constructor
  case sleeps =>
    intro u
    by_cases hu : u = w
    · rw [hu, hself]
      exact hb
    · rw [hother u hu]
      exact h.sleeps u
  case nodup => exact h.nodup
  case listed =>
    intro u
    rw [(hkept u).1]
    exact h.listed u
  case pending =>
    intro k ws full hk
    obtain ⟨hnodup, hall⟩ := h.pending k ws full hk
    refine ⟨hnodup, fun u hin => ?_⟩
    obtain ⟨hwok, hevent, hstage, htaken⟩ := hall u hin
    by_cases hu : u = w
    · subst hu
      rw [hself]
      have hnew := hpending hevent hstage (hwoken.trans hwok)
      exact ⟨hwoken.trans hwok, hnew.1, hnew.2, htaken⟩
    · rw [hother u hu]
      exact ⟨hwok, hevent, hstage, htaken⟩
  case reached =>
    intro u hwok hstage
    by_cases hu : u = w
    · subst hu
      rw [hself] at hwok hstage ⊢
      rcases hawaits hwok hstage with hset | ⟨hold, hclear⟩
      · exact .inl hset
      · rcases h.reached u (hwoken ▸ hwok) hold with hset | hk
        · simp [hclear] at hset
        · exact .inr hk
    · rw [hother u hu] at hwok hstage ⊢
      exact h.reached u hwok hstage
  case taken_nodup => exact h.taken_nodup
  case taken_woken =>
    intro k u hin
    rw [(hkept u).2]
    exact h.taken_woken k u hin
  case woken_taken =>
    intro u hwok
    exact h.woken_taken u ((hkept u).2.symm.trans hwok)
  case taken_once => exact h.taken_once
  case taken_one => exact h.taken_one
  case taken_none => exact h.taken_none
  case owed_called =>
    intro k u hin
    by_cases hu : u = w
    · rw [hu, hself]
      exact ⟨hcalled, (h.owed_called k w (hu ▸ hin)).2⟩
    · rw [hother u hu]
      exact h.owed_called k u hin
  case owed_none => exact h.owed_none
  case owed_all =>
    intro k hall hmore u hin
    rw [(hkept u).1]
    exact h.owed_all k hall hmore u hin
  case oldest =>
    intro k u hk hone hhead hin
    exact h.oldest k u hk hone hhead ((hkept u).1.symm.trans hin)
  case owed_oldest =>
    intro k u hone hcalled' hcollected hhead
    rw [(hkept u).1]
    exact h.owed_oldest k u hone hcalled' hcollected hhead

/-- A waiter joins the list. -/
theorem callSleep {w : σ} (h : Sound calls s) (hstage : (s.sleep w).stage = .notCalled) :
    Sound calls (s.callSleep w) := by
  have hfresh : (s.sleep w).inList = false ∧ (s.sleep w).woken = false ∧
      (s.sleep w).event = false := by
    have hcons := h.sleeps w
    rwa [Sleep.Consistent, hstage] at hcons
  have hself : (s.callSleep w).sleep w =
      { s.sleep w with stage := .unlocking, inList := true, woken := false, event := false } :=
    Function.update_self _ _ _
  have hother : ∀ u, u ≠ w → (s.callSleep w).sleep u = s.sleep u :=
    fun u hu => Function.update_of_ne hu _ _
  -- who begins to sleep is in no list, array or debt of a wake
  have hnew : w ∉ s.waitList := by
    rw [h.listed, hfresh.1]
    exact Bool.false_ne_true
  have howed : ∀ k, w ∉ s.owed k := fun k hin => (h.owed_called k w hin).1 hstage
  have hwoken : ∀ u, (s.sleep u).woken = true → u ≠ w := by
    intro u hwok heq
    rw [heq, hfresh.2.1] at hwok
    cases hwok
  constructor
  case sleeps =>
    intro u
    by_cases hu : u = w
    · rw [hu, hself]
      exact ⟨rfl, nofun⟩
    · rw [hother u hu]
      exact h.sleeps u
  case nodup =>
    simpa [State.callSleep, List.nodup_append] using
      ⟨h.nodup, fun u hu heq => hnew (heq ▸ hu)⟩
  case listed =>
    intro u
    by_cases hu : u = w
    · rw [hu, hself]
      simp [State.callSleep]
    · rw [hother u hu, ← h.listed]
      simp [State.callSleep, hu]
  case pending =>
    intro k ws full hk
    obtain ⟨hnodup, hall⟩ := h.pending k ws full hk
    refine ⟨hnodup, fun u hin => ?_⟩
    rw [hother u (hwoken u (hall u hin).1)]
    exact hall u hin
  case reached =>
    intro u hwok hawaits
    by_cases hu : u = w
    · rw [hu, hself] at hwok
      cases hwok
    · rw [hother u hu] at hwok hawaits ⊢
      exact h.reached u hwok hawaits
  case taken_nodup => exact h.taken_nodup
  case taken_woken =>
    intro k u hin
    have hold := h.taken_woken k u hin
    rw [hother u (hwoken u hold.1)]
    exact hold
  case woken_taken =>
    intro u hwok
    by_cases hu : u = w
    · rw [hu, hself] at hwok
      cases hwok
    · rw [hother u hu] at hwok
      exact h.woken_taken u hwok
  case taken_once => exact h.taken_once
  case taken_one => exact h.taken_one
  case taken_none => exact h.taken_none
  case owed_called =>
    intro k u hin
    have hu : u ≠ w := fun heq => howed k (heq ▸ hin)
    rw [hother u hu]
    exact h.owed_called k u hin
  case owed_none => exact h.owed_none
  case owed_all =>
    intro k hall hmore u hin
    have hu : u ≠ w := fun heq => howed k (heq ▸ hin)
    rw [hother u hu]
    exact h.owed_all k hall hmore u hin
  case oldest =>
    intro k u hk hone hhead hin
    have hu : u ≠ w := fun heq => howed k (heq ▸ List.mem_of_mem_head? hhead)
    rw [hother u hu] at hin
    -- a new waiter is behind the oldest one
    exact calls.waitersOf_head_append _ (h.oldest k u hk hone hhead hin)
  case owed_oldest =>
    intro k u hone hcalled hcollected hhead
    have hu : u ≠ w := fun heq => howed k (heq ▸ List.mem_of_mem_head? hhead)
    rw [hother u hu]
    exact h.owed_oldest k u hone hcalled hcollected hhead

/-- A waiter whose time is up leaves the list. -/
theorem leave {w : σ} (h : Sound calls s) (hin : (s.sleep w).inList = true)
    (hstage : (s.sleep w).stage = .waited .timeout) :
    Sound calls { s.setSleep w { s.sleep w with stage := .locking .timeout, inList := false } with
      waitList := s.waitList.erase w } := by
  -- no wake has collected a waiter that is still in the list
  have hcons : (s.sleep w).woken = false ∧ (s.sleep w).event = false := by
    have hcons := h.sleeps w
    rw [Sleep.Consistent, hstage] at hcons
    grind
  generalize hs' : ({ s.setSleep w { s.sleep w with
    stage := .locking .timeout, inList := false } with
    waitList := s.waitList.erase w } : State σ ω) = s'
  have hself : s'.sleep w =
      { s.sleep w with stage := .locking .timeout, inList := false } := by
    rw [← hs']
    exact Function.update_self _ _ _
  have hother : ∀ u, u ≠ w → s'.sleep u = s.sleep u := by
    intro u hu
    rw [← hs']
    exact Function.update_of_ne hu _ _
  have hlist : s'.waitList = s.waitList.erase w := by rw [← hs']
  have hrest : s'.wake = s.wake ∧ s'.owed = s.owed ∧ s'.taken = s.taken := by
    rw [← hs']
    exact ⟨rfl, rfl, rfl⟩
  obtain ⟨hwake, howed, htaken⟩ := hrest
  have hmem : ∀ u, u ∈ s'.waitList ↔ u ≠ w ∧ u ∈ s.waitList := by
    intro u
    rw [hlist, h.nodup.mem_erase_iff]
  have hoff : ∀ u, (s.sleep u).inList = false → (s'.sleep u).inList = false := by
    intro u hu
    by_cases hw : u = w
    · rw [hw, hself]
    · rw [hother u hw]
      exact hu
  constructor
  case sleeps =>
    intro u
    by_cases hu : u = w
    · rw [hu, hself]
      exact ⟨rfl, hcons.2, by simp [hcons.1]⟩
    · rw [hother u hu]
      exact h.sleeps u
  case nodup => exact hlist ▸ h.nodup.erase w
  case listed =>
    intro u
    by_cases hu : u = w
    · rw [hu, hself, hmem]
      simp
    · rw [hother u hu, hmem, ← h.listed]
      simp [hu]
  case pending =>
    intro k ws full hk
    obtain ⟨hnodup, hall⟩ := h.pending k ws full (hwake ▸ hk)
    refine ⟨hnodup, fun u hin' => ?_⟩
    have hold := hall u hin'
    have hu : u ≠ w := by
      rintro rfl
      simp [hcons.1] at hold
    rw [hother u hu, htaken]
    exact hold
  case reached =>
    intro u hwok hawaits
    by_cases hu : u = w
    · rw [hu, hself] at hawaits
      cases hawaits
    · rw [hother u hu] at hwok hawaits ⊢
      rw [hwake]
      exact h.reached u hwok hawaits
  case taken_nodup => exact htaken ▸ h.taken_nodup
  case taken_woken =>
    intro k u hin'
    have hold := h.taken_woken k u (htaken ▸ hin')
    have hu : u ≠ w := by
      rintro rfl
      simp [hcons.1] at hold
    rw [hother u hu]
    exact hold
  case woken_taken =>
    intro u hwok
    by_cases hu : u = w
    · rw [hu, hself, hcons.1] at hwok
      cases hwok
    · rw [hother u hu] at hwok
      rw [htaken]
      exact h.woken_taken u hwok
  case taken_once => exact htaken ▸ h.taken_once
  case taken_one => exact htaken ▸ h.taken_one
  case taken_none =>
    rw [hwake, htaken]
    exact h.taken_none
  case owed_called =>
    intro k u hin'
    have hold := h.owed_called k u (howed ▸ hin')
    by_cases hu : u = w
    · rw [hu, hself]
      exact ⟨nofun, hu ▸ hold.2⟩
    · rw [hother u hu]
      exact hold
  case owed_none =>
    rw [hwake, howed]
    exact h.owed_none
  case owed_all =>
    intro k hall hmore u hin'
    exact hoff u (h.owed_all k hall (hwake ▸ hmore) u (howed ▸ hin'))
  case oldest =>
    intro k u hk hone hhead hin'
    have hu : u ≠ w := by
      rintro rfl
      simp [hself] at hin'
    rw [hother u hu] at hin'
    have hold := h.oldest k u (hwake ▸ hk) hone (howed ▸ hhead) hin'
    rw [hlist]
    -- the oldest of the others stays the oldest
    apply calls.waitersOf_head_sublist _ h.nodup List.erase_sublist _ hold
    exact (List.mem_erase_of_ne hu).mpr ((h.listed u).mpr hin')
  case owed_oldest =>
    intro k u hone hcalled hcollected hhead
    exact hoff u (h.owed_oldest k u hone (hwake ▸ hcalled) (hwake ▸ hcollected) (howed ▸ hhead))

variable [DecidableEq ω]

omit [DecidableEq σ] in
/-- A wake is called: its waiters are those in the list. -/
theorem callWake {k : ω} (h : Sound calls s) (hk : s.wake k = .notCalled) :
    Sound calls (s.callWake calls k) := by
  have hself : (s.callWake calls k).wake k = .collecting := Function.update_self _ _ _
  have hother : ∀ j, j ≠ k → (s.callWake calls k).wake j = s.wake j :=
    fun j hj => Function.update_of_ne hj _ _
  have howed : (s.callWake calls k).owed k = calls.waitersOf (calls.wakes k) s.waitList :=
    Function.update_self _ _ _
  have howed' : ∀ j, j ≠ k → (s.callWake calls k).owed j = s.owed j :=
    fun j hj => Function.update_of_ne hj _ _
  constructor
  case sleeps => exact h.sleeps
  case nodup => exact h.nodup
  case listed => exact h.listed
  case pending =>
    intro j ws full hj
    have hne : j ≠ k := by
      rintro rfl
      simp [hself] at hj
    rw [hother j hne] at hj
    exact h.pending j ws full hj
  case reached =>
    intro w hwok hawaits
    rcases h.reached w hwok hawaits with hevent | ⟨j, ws, full, hj, hin⟩
    · exact .inl hevent
    · have hne : j ≠ k := by
        rintro rfl
        simp [hk] at hj
      exact .inr ⟨j, ws, full, (hother j hne).trans hj, hin⟩
  case taken_nodup => exact h.taken_nodup
  case taken_woken => exact h.taken_woken
  case woken_taken => exact h.woken_taken
  case taken_once => exact h.taken_once
  case taken_one => exact h.taken_one
  case taken_none =>
    intro j hj
    by_cases hne : j = k
    · exact hne ▸ h.taken_none k (.inl hk)
    · rw [hother j hne] at hj
      exact h.taken_none j hj
  -- what is owed from here on is what sleeps on the variable now
  case owed_called =>
    intro j w hin
    by_cases hne : j = k
    · rw [hne, howed, calls.mem_waitersOf, h.listed] at hin
      refine ⟨fun hstage => ?_, hne ▸ hin.2⟩
      have hcons := h.sleeps w
      rw [Sleep.Consistent, show (s.sleep w).stage = .notCalled from hstage] at hcons
      simp [hcons.1] at hin
    · rw [howed' j hne] at hin
      exact h.owed_called j w hin
  case owed_none =>
    intro j hj
    by_cases hne : j = k
    · rw [hne, hself] at hj
      cases hj
    · rw [hother j hne] at hj
      rw [howed' j hne]
      exact h.owed_none j hj
  case owed_all =>
    intro j hall hmore w hin
    by_cases hne : j = k
    · rw [hne, hself] at hmore
      exact absurd trivial hmore
    · rw [hother j hne] at hmore
      rw [howed' j hne] at hin
      exact h.owed_all j hall hmore w hin
  -- the first that is owed is the oldest at this moment
  case oldest =>
    intro j w hj hone hhead hin
    by_cases hne : j = k
    · rw [hne, howed] at hhead
      exact hne ▸ hhead
    · rw [hother j hne] at hj
      rw [howed' j hne] at hhead
      exact h.oldest j w hj hone hhead hin
  case owed_oldest =>
    intro j w hone hcalled hcollected hhead
    by_cases hne : j = k
    · exact absurd (hne ▸ hself) hcollected
    · rw [hother j hne] at hcalled hcollected
      rw [howed' j hne] at hhead
      exact h.owed_oldest j w hone hcalled hcollected hhead

/-- A waiter is signalled. -/
theorem signalOne {k : ω} {w : σ} {rest : List σ} {full : Bool} (h : Sound calls s)
    (hk : s.wake k = .signalling (w :: rest) full) :
    Sound calls (s.signal calls k (w :: rest) full) := by
  obtain ⟨hnodup, hall⟩ := h.pending k _ full hk
  rw [List.nodup_cons] at hnodup
  obtain ⟨hwok, hclear, hawaits, htaken⟩ := hall w (by simp)
  generalize hs' : s.signal calls k (w :: rest) full = s'
  have hself : s'.sleep w = { s.sleep w with event := true } := by
    rw [← hs']
    exact Function.update_self _ _ _
  have hother : ∀ u, u ≠ w → s'.sleep u = s.sleep u := by
    intro u hu
    rw [← hs']
    exact Function.update_of_ne hu _ _
  have hwake : s'.wake k = .signalling rest full := by
    rw [← hs']
    exact Function.update_self _ _ _
  have hwake' : ∀ j, j ≠ k → s'.wake j = s.wake j := by
    intro j hj
    rw [← hs']
    exact Function.update_of_ne hj _ _
  have hrest : s'.waitList = s.waitList ∧ s'.owed = s.owed ∧ s'.taken = s.taken := by
    rw [← hs']
    exact ⟨rfl, rfl, rfl⟩
  obtain ⟨hlist, howed, htaken'⟩ := hrest
  -- only the event of the waiter changes
  have hkept : ∀ u, (s'.sleep u).stage = (s.sleep u).stage ∧
      (s'.sleep u).inList = (s.sleep u).inList ∧ (s'.sleep u).woken = (s.sleep u).woken := by
    intro u
    by_cases hu : u = w
    · rw [hu, hself]
      exact ⟨rfl, rfl, rfl⟩
    · rw [hother u hu]
      exact ⟨rfl, rfl, rfl⟩
  -- Whether a wake has collected, and whether it goes on, is as before.
  have hstage : ∀ j, ((s'.wake j).more ↔ (s.wake j).more) ∧
      (s'.wake j = .notCalled ↔ s.wake j = .notCalled) ∧
      (s'.wake j = .collecting ↔ s.wake j = .collecting) := by
    intro j
    by_cases hj : j = k
    · rw [hj, hwake, hk]
      simp [WakeStage.more]
    · rw [hwake' j hj]
      simp
  constructor
  case sleeps =>
    intro u
    by_cases hu : u = w
    · have hcons := h.sleeps w
      rw [hu, hself]
      unfold Sleep.Consistent at hcons ⊢
      unfold Stage.awaits at hawaits
      grind
    · rw [hother u hu]
      exact h.sleeps u
  case nodup => exact hlist ▸ h.nodup
  case listed =>
    intro u
    rw [hlist, (hkept u).2.1]
    exact h.listed u
  case pending =>
    intro j ws full' hj
    by_cases hne : j = k
    · rw [hne, hwake, WakeStage.signalling.injEq] at hj
      obtain ⟨rfl, rfl⟩ := hj
      refine ⟨hnodup.2, fun u hin => ?_⟩
      -- no waiter is twice in one array
      have hu : u ≠ w := fun heq => hnodup.1 (heq ▸ hin)
      rw [hother u hu, htaken', hne]
      exact hall u (List.mem_cons_of_mem w hin)
    · rw [hwake' j hne] at hj
      obtain ⟨hnodup', hall'⟩ := h.pending j ws full' hj
      refine ⟨hnodup', fun u hin => ?_⟩
      -- nor in the arrays of two wakes
      have hu : u ≠ w := fun heq => hne (h.taken_once j k w (heq ▸ (hall' u hin).2.2.2) htaken)
      rw [hother u hu, htaken']
      exact hall' u hin
  case reached =>
    intro u hwok' hawaits'
    by_cases hu : u = w
    · rw [hu, hself]
      exact .inl rfl
    · rw [hother u hu] at hwok' hawaits' ⊢
      rcases h.reached u hwok' hawaits' with hevent | ⟨j, ws, full', hj, hin⟩
      · exact .inl hevent
      · by_cases hne : j = k
        · rw [hne, hk, WakeStage.signalling.injEq] at hj
          obtain ⟨rfl, rfl⟩ := hj
          exact .inr ⟨k, rest, full, hwake, (List.mem_cons.mp hin).resolve_left hu⟩
        · exact .inr ⟨j, ws, full', (hwake' j hne).trans hj, hin⟩
  case taken_nodup => exact htaken' ▸ h.taken_nodup
  case taken_woken =>
    intro j u hin
    rw [(hkept u).2.2]
    exact h.taken_woken j u (htaken' ▸ hin)
  case woken_taken =>
    intro u hwok'
    rw [htaken']
    exact h.woken_taken u ((hkept u).2.2.symm.trans hwok')
  case taken_once => exact htaken' ▸ h.taken_once
  case taken_one => exact htaken' ▸ h.taken_one
  case taken_none =>
    intro j hj
    rw [(hstage j).2.1, (hstage j).2.2] at hj
    rw [htaken']
    exact h.taken_none j hj
  case owed_called =>
    intro j u hin
    rw [(hkept u).1]
    exact h.owed_called j u (howed ▸ hin)
  case owed_none =>
    intro j hj
    rw [howed]
    exact h.owed_none j ((hstage j).2.1.mp hj)
  case owed_all =>
    intro j hall' hmore u hin
    rw [(hkept u).2.1]
    exact h.owed_all j hall' (fun hold => hmore ((hstage j).1.mpr hold)) u (howed ▸ hin)
  case oldest =>
    intro j u hj hone hhead hin
    rw [hlist]
    exact h.oldest j u ((hstage j).2.2.mp hj) hone (howed ▸ hhead) ((hkept u).2.1.symm.trans hin)
  case owed_oldest =>
    intro j u hone hcalled hcollected hhead
    rw [(hkept u).2.1]
    exact h.owed_oldest j u hone (fun hold => hcalled ((hstage j).2.1.mpr hold))
      (fun hold => hcollected ((hstage j).2.2.mpr hold)) (howed ▸ hhead)

/-- The array has been gone through. -/
theorem signalNone {k : ω} {full : Bool} (h : Sound calls s)
    (hk : s.wake k = .signalling [] full) : Sound calls (s.signal calls k [] full) := by
  have hself : (s.signal calls k [] full).wake k =
      if calls.wakeAll k ∧ full then .collecting else .returned := Function.update_self _ _ _
  have hother : ∀ j, j ≠ k → (s.signal calls k [] full).wake j = s.wake j :=
    fun j hj => Function.update_of_ne hj _ _
  constructor
  case sleeps => exact h.sleeps
  case nodup => exact h.nodup
  case listed => exact h.listed
  case pending =>
    intro j ws full' hj
    have hne : j ≠ k := by
      rintro rfl
      rw [hself] at hj
      split at hj <;> cases hj
    rw [hother j hne] at hj
    exact h.pending j ws full' hj
  case reached =>
    intro w hwok hawaits
    rcases h.reached w hwok hawaits with hevent | ⟨j, ws, full', hj, hin⟩
    · exact .inl hevent
    · have hne : j ≠ k := by
        rintro rfl
        rw [hk, WakeStage.signalling.injEq] at hj
        simp [← hj.1] at hin
      exact .inr ⟨j, ws, full', (hother j hne).trans hj, hin⟩
  case taken_nodup => exact h.taken_nodup
  case taken_woken => exact h.taken_woken
  case woken_taken => exact h.woken_taken
  case taken_once => exact h.taken_once
  case taken_one => exact h.taken_one
  case taken_none =>
    intro j hj
    by_cases hne : j = k
    · rw [hne, hself] at hj
      split at hj <;> simp_all
    · rw [hother j hne] at hj
      exact h.taken_none j hj
  case owed_called => exact h.owed_called
  case owed_none =>
    intro j hj
    by_cases hne : j = k
    · rw [hne, hself] at hj
      split at hj <;> cases hj
    · rw [hother j hne] at hj
      exact h.owed_none j hj
  case owed_all =>
    intro j hall hmore w hin
    apply h.owed_all j hall _ w hin
    by_cases hne : j = k
    · rw [hne, hself, ← hne, hall] at hmore
      rw [hne, hk]
      split at hmore
      · exact absurd trivial hmore
      · rename_i hfull
        -- the array was filled, so the wake collects once more
        exact fun hold => hfull ⟨rfl, hold⟩
    · rwa [hother j hne] at hmore
  case oldest =>
    intro j w hj hone hhead hin
    by_cases hne : j = k
    · rw [hne, hself, ← hne, hone] at hj
      simp at hj
    · rw [hother j hne] at hj
      exact h.oldest j w hj hone hhead hin
  case owed_oldest =>
    intro j w hone hcalled hcollected hhead
    by_cases hne : j = k
    · exact h.owed_oldest j w hone (by simp [hne, hk]) (by simp [hne, hk]) hhead
    · rw [hother j hne] at hcalled hcollected
      exact h.owed_oldest j w hone hcalled hcollected hhead

omit [DecidableEq κ] [DecidableEq σ] [DecidableEq ω] in
theorem unwoken_of_listed {w : σ} (hcons : (s.sleep w).Consistent)
    (hin : (s.sleep w).inList = true) : (s.sleep w).woken = false ∧ (s.sleep w).event = false ∧
      ((s.sleep w).stage = .unlocking ∨ (s.sleep w).stage = .waiting ∨
        (s.sleep w).stage = .waited .timeout) := by
  unfold Sleep.Consistent at hcons
  split at hcons <;> grind

/-- The waiters that are collected leave the list. -/
theorem collect {k : ω} (h : Sound calls s) (hk : s.wake k = .collecting) :
    Sound calls (s.collect calls k) := by
  generalize hc : calls.collect (calls.wakes k) (calls.wakeAll k) (calls.limit k) s.waitList =
    result
  have hperm : (result.1 ++ result.2).Perm s.waitList := hc ▸ calls.collect_perm _ _ _ _
  have hsub : result.2.Sublist s.waitList := hc ▸ calls.collect_sublist _ _ _ _
  have hnodup : (result.1 ++ result.2).Nodup := hperm.nodup_iff.mpr h.nodup
  obtain ⟨hnodup₁, hnodup₂, hapart⟩ := List.nodup_append.mp hnodup
  have hvariable : ∀ w ∈ result.1, calls.sleepsOn w = calls.wakes k :=
    hc ▸ calls.collect_variable _ _ _ _
  have hfound : ∀ w ∈ result.1, (s.sleep w).inList = true := fun w hin =>
    (h.listed w).mp (hperm.mem_iff.mp (List.mem_append_left _ hin))
  -- who is still in the list has been taken by no wake
  have hfresh : ∀ w ∈ result.1, ∀ j, w ∉ s.taken j := by
    intro w hin j hin'
    have hwok := (h.taken_woken j w hin').1
    rw [(unwoken_of_listed (h.sleeps w) (hfound w hin)).1] at hwok
    cases hwok
  generalize hs' : s.collect calls k = s'
  have hself : ∀ w ∈ result.1, s'.sleep w = { s.sleep w with inList := false, woken := true } := by
    intro w hin
    rw [← hs', State.collect, hc]
    exact if_pos hin
  have hother : ∀ w, w ∉ result.1 → s'.sleep w = s.sleep w := by
    intro w hout
    rw [← hs', State.collect, hc]
    exact if_neg hout
  have hlist : s'.waitList = result.2 := by rw [← hs', State.collect, hc]
  have howed : s'.owed = s.owed := by
    rw [← hs']
    rfl
  have hwake : s'.wake k = .signalling result.1 (result.1.length = calls.limit k) := by
    rw [← hs', State.collect, hc]
    exact Function.update_self _ _ _
  have hwake' : ∀ j, j ≠ k → s'.wake j = s.wake j := by
    intro j hj
    rw [← hs']
    exact Function.update_of_ne hj _ _
  have htaken : s'.taken k = s.taken k ++ result.1 := by
    rw [← hs', State.collect, hc]
    exact Function.update_self _ _ _
  have htaken' : ∀ j, j ≠ k → s'.taken j = s.taken j := by
    intro j hj
    rw [← hs']
    exact Function.update_of_ne hj _ _
  -- taken only grows, and nothing else of a waiter changes but its two marks
  have hgrow : ∀ j, ∀ w ∈ s.taken j, w ∈ s'.taken j := by
    intro j w hin
    by_cases hj : j = k
    · rw [hj, htaken]
      exact List.mem_append_left _ (hj ▸ hin)
    · rwa [htaken' j hj]
  have hkept : ∀ w, (s'.sleep w).stage = (s.sleep w).stage ∧
      (s'.sleep w).event = (s.sleep w).event ∧
      ((s'.sleep w).inList = true ↔ (s.sleep w).inList = true ∧ w ∉ result.1) ∧
      ((s'.sleep w).woken = true ↔ (s.sleep w).woken = true ∨ w ∈ result.1) := by
    intro w
    by_cases hin : w ∈ result.1
    · simp [hself w hin, hin]
    · simp [hother w hin, hin]
  have hoff : ∀ w, (s.sleep w).inList = false → (s'.sleep w).inList = false := by
    intro w hw
    have hiff := (hkept w).2.2.1
    simpa [hw] using hiff
  constructor
  case sleeps =>
    intro w
    by_cases hin : w ∈ result.1
    · obtain ⟨hwok, hevent, hstage⟩ := unwoken_of_listed (h.sleeps w) (hfound w hin)
      rw [hself w hin]
      rcases hstage with hstage | hstage | hstage <;> simp [Sleep.Consistent, hstage]
    · rw [hother w hin]
      exact h.sleeps w
  case nodup => exact hlist ▸ hnodup₂
  case listed =>
    intro w
    rw [(hkept w).2.2.1, ← h.listed, hlist, ← hperm.mem_iff, List.mem_append]
    constructor
    · intro hin
      exact ⟨.inr hin, fun hin' => hapart w hin' w hin rfl⟩
    · rintro ⟨hin | hin, hout⟩
      · exact absurd hin hout
      · exact hin
  case pending =>
    intro j ws full hj
    by_cases hne : j = k
    · rw [hne, hwake, WakeStage.signalling.injEq] at hj
      obtain ⟨rfl, -⟩ := hj
      refine ⟨hnodup₁, fun w hin => ?_⟩
      obtain ⟨_, hevent, hstage⟩ := unwoken_of_listed (h.sleeps w) (hfound w hin)
      refine ⟨by simp [hself w hin], by simp [hself w hin, hevent], ?_, ?_⟩
      · rw [(hkept w).1]
        rcases hstage with hstage | hstage | hstage <;> simp [hstage, Stage.awaits]
      · rw [hne, htaken]
        exact List.mem_append_right _ hin
    · rw [hwake' j hne] at hj
      obtain ⟨hnodup', hall⟩ := h.pending j ws full hj
      refine ⟨hnodup', fun w hin => ?_⟩
      have hout : w ∉ result.1 := fun hin' => hfresh w hin' j (hall w hin).2.2.2
      rw [hother w hout, htaken' j hne]
      exact hall w hin
  case reached =>
    intro w hwok hawaits
    by_cases hin : w ∈ result.1
    -- who has just been collected is in the array of this wake
    · exact .inr ⟨k, result.1, _, hwake, hin⟩
    · rw [hother w hin] at hwok hawaits ⊢
      rcases h.reached w hwok hawaits with hevent | ⟨j, ws, full, hj, hin'⟩
      · exact .inl hevent
      · have hne : j ≠ k := by
          rintro rfl
          simp [hk] at hj
        exact .inr ⟨j, ws, full, (hwake' j hne).trans hj, hin'⟩
  case taken_nodup =>
    intro j
    by_cases hj : j = k
    · rw [hj, htaken, List.nodup_append]
      exact ⟨h.taken_nodup k, hnodup₁, fun w hin u hin' heq => hfresh u hin' k (heq ▸ hin)⟩
    · rw [htaken' j hj]
      exact h.taken_nodup j
  case taken_woken =>
    intro j w hin
    rw [(hkept w).2.2.2]
    by_cases hj : j = k
    · rw [hj, htaken, List.mem_append] at hin
      rcases hin with hin | hin
      · exact ⟨.inl (h.taken_woken k w hin).1, hj ▸ (h.taken_woken k w hin).2⟩
      · exact ⟨.inr hin, hj ▸ hvariable w hin⟩
    · rw [htaken' j hj] at hin
      exact ⟨.inl (h.taken_woken j w hin).1, (h.taken_woken j w hin).2⟩
  case woken_taken =>
    intro w hwok
    rcases (hkept w).2.2.2.mp hwok with hold | hin
    · obtain ⟨j, hin⟩ := h.woken_taken w hold
      exact ⟨j, hgrow j w hin⟩
    · exact ⟨k, htaken ▸ List.mem_append_right _ hin⟩
  case taken_once =>
    have hold : ∀ j w, w ∈ s'.taken j → w ∈ s.taken j ∨ j = k ∧ w ∈ result.1 := by
      intro j w hin
      by_cases hj : j = k
      · rw [hj, htaken, List.mem_append] at hin
        exact hin.imp (fun hin => hj ▸ hin) (fun hin => ⟨hj, hin⟩)
      · exact .inl (htaken' j hj ▸ hin)
    intro j j' w hin hin'
    -- a waiter that is new to a wake was in the list until now
    rcases hold j w hin with hin | ⟨hj, hin⟩ <;> rcases hold j' w hin' with hin' | ⟨hj', hin'⟩
    · exact h.taken_once j j' w hin hin'
    · exact absurd hin (hfresh w hin' j)
    · exact absurd hin' (hfresh w hin j')
    · exact hj.trans hj'.symm
  case taken_one =>
    intro j hone
    by_cases hj : j = k
    -- a wake of one waiter had taken none before
    · have hlength : result.1.length ≤ calls.limit k := hc ▸ calls.collect_length _ _ _ _
      rw [hj] at hone
      rw [hj, htaken, h.taken_none k (.inr ⟨hone, hk⟩), List.nil_append]
      simpa [Calls.limit, hone] using hlength
    · rw [htaken' j hj]
      exact h.taken_one j hone
  case taken_none =>
    intro j hj
    by_cases hne : j = k
    · rw [hne, hwake] at hj
      simp at hj
    · rw [hwake' j hne] at hj
      rw [htaken' j hne]
      exact h.taken_none j hj
  case owed_called =>
    intro j w hin
    rw [(hkept w).1]
    exact h.owed_called j w (howed ▸ hin)
  case owed_none =>
    intro j hj
    by_cases hne : j = k
    · rw [hne, hwake] at hj
      cases hj
    · rw [hwake' j hne] at hj
      rw [howed]
      exact h.owed_none j hj
  case owed_all =>
    intro j hall hmore w hin
    rw [howed] at hin
    by_cases hne : j = k
    · -- The array was not filled, so no waiter of the variable is left.
      subst hne
      rw [hwake] at hmore
      simp only [WakeStage.more, decide_eq_true_eq] at hmore
      by_contra hlisted
      obtain ⟨hold, hout⟩ := (hkept w).2.2.1.mp (by simpa using hlisted)
      have hstays : w ∈ result.2 := by
        have hin' := hperm.mem_iff.mpr ((h.listed w).mpr hold)
        exact (List.mem_append.mp hin').resolve_left hout
      have hlength : result.1.length ≤ calls.limit j := hc ▸ calls.collect_length _ _ _ _
      rw [hall] at hc
      have hnone := calls.collect_exhausts (calls.wakes j) (calls.limit j) s.waitList
        (by rw [hc]; omega) w (by rwa [hc])
      exact hnone (h.owed_called j w hin).2
    · rw [hwake' j hne] at hmore
      exact hoff w (h.owed_all j hall hmore w hin)
  case oldest =>
    intro j w hj hone hhead hin
    have hne : j ≠ k := by
      rintro rfl
      simp [hwake] at hj
    rw [hwake' j hne] at hj
    obtain ⟨hold, hout⟩ := (hkept w).2.2.1.mp hin
    have hstays : w ∈ result.2 := by
      have hin' := hperm.mem_iff.mpr ((h.listed w).mpr hold)
      exact (List.mem_append.mp hin').resolve_left hout
    rw [hlist]
    exact calls.waitersOf_head_sublist _ h.nodup hsub hstays
      (h.oldest j w hj hone (howed ▸ hhead) hold)
  case owed_oldest =>
    intro j w hone hcalled hcollected hhead
    rw [howed] at hhead
    by_cases hne : j = k
    · subst hne
      by_contra hlisted
      obtain ⟨hold, hout⟩ := (hkept w).2.2.1.mp (by simpa using hlisted)
      -- the oldest waiter is the first that is collected
      have hpos : 0 < calls.limit j := by simp [Calls.limit, hone]
      have hin := calls.collect_oldest _ (calls.wakeAll j) _ _ hpos
        (h.oldest j w hk hone hhead hold)
      exact hout (hc ▸ hin)
    · rw [hwake' j hne] at hcalled hcollected
      exact hoff w (h.owed_oldest j w hone hcalled hcollected hhead)

/-- Every step keeps the invariant. -/
theorem step {a : Action σ ω} (h : Sound calls s) (hen : Enabled calls s a) :
    Sound calls (next calls s a) := by
  cases a with
  | callSleep w => exact h.callSleep hen
  | unlock w =>
    have hstage : (s.sleep w).stage = .unlocking := hen
    have hcons := h.sleeps w
    simp only [Sleep.Consistent, hstage] at hcons
    apply h.advance
    · exact hcons
    all_goals simp [hstage, Stage.awaits]
    exact fun hevent _ => hevent
  | satisfy w =>
    obtain ⟨hstage, hevent⟩ := hen
    have hcons := h.sleeps w
    simp only [Sleep.Consistent, hstage, hevent] at hcons
    apply h.advance
    -- the event is set for a waiter that was collected
    · have hwok := hcons.2 trivial
      exact ⟨rfl, by simpa [hwok] using hcons.1, hwok, rfl⟩
    all_goals simp [hevent, Stage.awaits]
  | timeOut w =>
    obtain ⟨hstage, hevent, _⟩ := hen
    have hcons := h.sleeps w
    simp only [Sleep.Consistent, hstage] at hcons
    apply h.advance
    · exact hcons
    all_goals simp [hstage, hevent, Stage.awaits]
  | leaveList w status =>
    have hstage : (s.sleep w).stage = .waited status := hen
    have hcons := h.sleeps w
    simp only [next, State.leaveList]
    cases hin : (s.sleep w).inList with
    | true =>
      -- still in the list, so the wait has ended by its timeout
      obtain ⟨hwok, _, hrest⟩ := unwoken_of_listed hcons hin
      obtain rfl : status = .timeout := by simpa [hstage] using hrest
      simpa [hwok] using h.leave hin hstage
    | false =>
      simp only [Bool.false_eq_true, if_false]
      -- it was collected in the meantime, and waits for the event that is on its way
      apply h.advance
      · unfold Sleep.Consistent at hcons ⊢
        rw [hstage] at hcons
        grind
      all_goals grind [Sleep.Consistent, Stage.awaits]
  | satisfyAgain w =>
    obtain ⟨hstage, hevent⟩ := hen
    have hcons := h.sleeps w
    simp only [Sleep.Consistent, hstage] at hcons
    apply h.advance
    · exact ⟨hcons.1, rfl, by simp [hcons.2]⟩
    all_goals simp [hevent, Stage.awaits]
  | relock w status granted =>
    have hstage : (s.sleep w).stage = .locking status := hen
    have hcons := h.sleeps w
    simp only [Sleep.Consistent, hstage] at hcons
    apply h.advance
    · exact hcons
    all_goals simp [hstage, Stage.awaits]
  | returnSleep w status =>
    have hstage : (s.sleep w).stage = .returning status := hen
    have hcons := h.sleeps w
    simp only [Sleep.Consistent, hstage] at hcons
    have hsuccess : status.ntSuccess = true := by
      rw [hcons.2.2]
      split <;> rfl
    simp only [next, State.returnSleep, hsuccess, if_true]
    apply h.advance
    · exact ⟨hcons.1, hcons.2.1, hcons.2.2, rfl, rfl⟩
    all_goals simp [hstage, Stage.awaits]
  | callWake k => exact h.callWake hen
  | collect k => exact h.collect hen
  | signal k waiters full =>
    cases waiters with
    | nil => exact h.signalNone hen
    | cons w rest => exact h.signalOne hen

end Sound

theorem sound_of_reachable [DecidableEq σ] [DecidableEq ω] :
    ∀ s, (conditionVariables calls).Reachable Always s → Sound calls s := by
  apply System.Reachable.invariant
  · intro s hinit
    rw [show s = initialState calls from hinit]
    exact sound_initial
  · intro s a h hen _
    exact h.step hen

end Ldk.ConditionVariable
