import Ldk.ThreadContext.State
import Ldk.Lib.DrainGate

/-!
# What the gate and the drain of threads guarantee

- `Context.Consistent`: what the fields of a context say at each point of the call that makes it.
- `Sound`: the invariant of every run. The count is that of the calls in progress, and once a
  shutdown has returned there are neither contexts nor calls in progress.
- `threads_are_drained`: the drain, the event, the gate and the lifetime of contexts.
-/

set_option linter.unusedSectionVars false

namespace Ldk.ThreadContext

open TransitionSystem Occupancy

variable {γ ω : Type}

/-! ## One context -/

/-- The thread does not exist yet, or does not exist any more. -/
def ThreadStage.gone (t : ThreadStage) : Prop := t = .notCreated ∨ t = .terminated

/-- Nobody has released the thread. -/
def Context.Unreleased (b : Context) : Prop :=
  b.startReleased = false ∧ b.shutdownCancelled = false ∧ b.startEvent = false ∧ b.entered = 0 ∧
    b.freed = false

/-- The context of a thread that `CreateThread` has returned. -/
structure Context.Returned (suspended : Bool) (listed : Prop) (b : Context) : Prop where
  listed : listed ∧ b.freed = false ∨ ¬ listed ∧ b.thread = .terminated
  event : b.startEvent = b.startReleased
  closed : b.startReleased = false → b.thread = .gate ∧ b.shutdownCancelled = false
  count : b.startReleased = true → b.startupSuspendCount = 0
  reason : b.startReleased = true → b.shutdownCancelled = false →
    b.resumed = true ∨ suspended = false
  past : b.thread = .starting ∨ b.thread = .running ∨ b.entered ≠ 0 →
    b.startReleased = true ∧ b.shutdownCancelled = false
  once : b.entered ≤ 1 ∧ (b.thread = .gate ∨ b.thread = .released ∨ b.thread = .starting →
    b.entered = 0)
  created : b.thread ≠ .notCreated

/-- What a context says, in or out of the list. -/
def Context.Consistent (suspended : Bool) (listed : Prop) (b : Context) : Prop :=
  match b.creator with
  | .notCalled => ¬ listed ∧ b.Unreleased ∧ b.thread = .notCreated
  | .checking | .creating =>
    ¬ listed ∧ b.Unreleased ∧ b.thread = .notCreated ∧
      b.startupSuspendCount = if suspended then 1 else 0
  | .lookingUp | .linking =>
    ¬ listed ∧ b.Unreleased ∧ b.thread = .gate ∧
      b.startupSuspendCount = if suspended then 1 else 0
  | .waiting =>
    ¬ listed ∧ b.shutdownCancelled = true ∧ b.entered = 0 ∧ b.freed = false ∧
      (b.thread = .gate ∨ b.thread = .released ∨ b.thread = .terminated)
  | .completing | .freeing => ¬ listed ∧ b.thread.gone ∧ b.entered = 0 ∧ b.freed = false
  | .returned false => ¬ listed ∧ b.thread.gone ∧ b.entered = 0
  | .returned true => b.Returned suspended listed

/-! ## The invariant -/

/-- How far the calls have come. -/
def State.creators (s : State γ ω) (c : γ) : Creator := (s.context c).creator

structure Sound (createSuspended : γ → Bool) (s : State γ ω) : Prop where
  contexts : ∀ c, (s.context c).Consistent (createSuspended c) (c ∈ s.list)
  count : (s.creationCount : ℕ∞) = occupancy Creator.inProgress s.creators
  complete : s.creationComplete = true ↔ s.creationCount = 0
  begun : ∀ w, s.waiter w ≠ .notCalled → s.shutdown = true
  /-- After a shutdown has returned nothing is left. -/
  drained : ∀ w, s.waiter w = .returned → s.list = [] ∧ s.creationCount = 0

variable {createSuspended : γ → Bool}

theorem sound_initial : Sound createSuspended (initialState γ ω) := by
  constructor
  case contexts =>
    intro c
    exact ⟨by simp [initialState], by simp [Context.Unreleased, initialState], rfl⟩
  case count =>
    rw [eq_comm, show ((initialState γ ω).creationCount : ℕ∞) = 0 from rfl, occupancy_eq_zero]
    exact fun _ h => h
  case complete => simp [initialState]
  case begun => exact fun w h => absurd rfl h
  case drained => exact nofun

variable [DecidableEq γ] [DecidableEq ω]

namespace Sound

variable {s s' : State γ ω} {c : γ} {b : Context}

/-- While a call is in progress, the count is positive and no shutdown has returned. -/
theorem count_pos (h : Sound createSuspended s) (hc : (s.creators c).inProgress) :
    s.creationCount ≠ 0 ∧ ∀ w, s.waiter w ≠ .returned := by
  have hpos : s.creationCount ≠ 0 := by
    intro hzero
    have hcount := h.count
    rw [hzero, eq_comm, Nat.cast_zero, occupancy_eq_zero] at hcount
    exact hcount c hc
  exact ⟨hpos, fun w hw => hpos (h.drained w hw).2⟩

/-- One context changes. -/
theorem change (h : Sound createSuspended s) (hcontext : s'.context = Function.update s.context c b)
    (hlist : ∀ d, d ≠ c → (d ∈ s'.list ↔ d ∈ s.list))
    (hb : b.Consistent (createSuspended c) (c ∈ s'.list))
    (hcount : (s'.creationCount : ℕ∞) =
      occupancy Creator.inProgress (Function.update s.creators c b.creator))
    (hcomplete : s'.creationComplete = true ↔ s'.creationCount = 0)
    (hshutdown : s'.shutdown = s.shutdown) (hwaiter : s'.waiter = s.waiter)
    (hdrained : ∀ w, s.waiter w = .returned → s'.list = [] ∧ s'.creationCount = 0) :
    Sound createSuspended s' := by
  constructor
  case contexts =>
    intro d
    rw [hcontext]
    by_cases hd : d = c
    · subst hd
      rw [Function.update_self]
      exact hb
    · rw [Function.update_of_ne hd, hlist d hd]
      exact h.contexts d
  case count =>
    have hcreators : s'.creators = Function.update s.creators c b.creator := by
      funext d
      by_cases hd : d = c
      · subst hd
        simp [State.creators, hcontext]
      · simp [State.creators, hcontext, Function.update_of_ne hd]
    rw [hcreators]
    exact hcount
  case complete => exact hcomplete
  case begun =>
    rw [hshutdown, hwaiter]
    exact h.begun
  case drained =>
    rw [hwaiter]
    exact hdrained

/-- One context changes, and the call that makes it goes on or has not begun. -/
theorem setContext (h : Sound createSuspended s)
    (hb : b.Consistent (createSuspended c) (c ∈ s.list))
    (hprogress : (s.creators c).inProgress ↔ b.creator.inProgress) :
    Sound createSuspended (s.setContext c b) := by
  refine h.change rfl (fun _ _ => Iff.rfl) hb ?_ h.complete rfl rfl h.drained
  rw [occupancy_same hprogress]
  exact h.count

/-- Terminated threads are reaped. -/
theorem reap (h : Sound createSuspended s) : Sound createSuspended s.reap := by
  have hcreator : s.reap.creators = s.creators := by
    funext c
    simp only [State.creators, State.reap]
    split <;> rfl
  constructor
  case contexts =>
    intro c
    have hc := h.contexts c
    have hmem : c ∈ s.reap.list ↔ c ∈ s.list ∧ (s.context c).thread ≠ .terminated := by
      simp [State.reap]
    by_cases hreaped : c ∈ s.list ∧ (s.context c).thread = .terminated
    · -- A linked context is one that has been returned.
      have hreturned : (s.context c).creator = .returned true := by
        unfold Context.Consistent at hc
        split at hc <;> simp_all
      have hnew : s.reap.context c = { s.context c with freed := true } := if_pos hreaped
      rw [hnew]
      simp only [Context.Consistent, hreturned] at hc ⊢
      exact { hc with listed := .inr ⟨by simp [hmem, hreaped.2], hreaped.2⟩ }
    · have hsame : s.reap.context c = s.context c := if_neg hreaped
      rw [hsame, hmem]
      have hlisted : (c ∈ s.list ∧ (s.context c).thread ≠ .terminated) ↔ c ∈ s.list := by
        constructor
        · exact fun hin => hin.1
        · exact fun hin => ⟨hin, fun hdone => hreaped ⟨hin, hdone⟩⟩
      rw [hlisted]
      exact hc
  case count =>
    rw [hcreator]
    exact h.count
  case complete => exact h.complete
  case begun => exact h.begun
  case drained =>
    intro w hw
    obtain ⟨hnil, hcount⟩ := h.drained w hw
    exact ⟨by simp [State.reap, hnil], hcount⟩

/-- A shutdown goes on. -/
theorem gotoWaiter {w : ω} {v : Waiter γ} (h : Sound createSuspended s)
    (hshutdown : s.shutdown = true)
    (hreturned : v = .returned → s.list = [] ∧ s.creationCount = 0) :
    Sound createSuspended (s.gotoWaiter w v) := by
  refine { h with begun := fun _ _ => hshutdown, drained := fun u hu => ?_ }
  simp only [State.gotoWaiter] at hu
  by_cases hw : u = w
  · rw [hw, Function.update_self] at hu
    exact hreturned hu
  · rw [Function.update_of_ne hw] at hu
    exact h.drained u hu

omit [DecidableEq γ] in
@[simp] theorem completeCreation_context : s.completeCreation.context = s.context := rfl

omit [DecidableEq γ] in
@[simp] theorem completeCreation_shutdown : s.completeCreation.shutdown = s.shutdown := rfl

/-- One call leaves the count. -/
theorem completeCreation (h : Sound createSuspended s) (hc : (s.creators c).inProgress)
    (hb : ¬ b.creator.inProgress) :
    ((s.completeCreation.creationCount : ℕ∞) =
        occupancy Creator.inProgress (Function.update s.creators c b.creator)) ∧
      (s.completeCreation.creationComplete = true ↔ s.completeCreation.creationCount = 0) := by
  have hpos := (h.count_pos hc).1
  constructor
  · apply cast_pred
    rw [occupancy_leave hc hb]
    exact h.count
  · simp only [State.completeCreation]
    split
    · rename_i hlast
      simp [hlast]
    · rename_i hmore
      rw [h.complete]
      exact ⟨fun hzero => absurd hzero hpos, fun hzero => absurd hzero hmore⟩

theorem check (h : Sound createSuspended s) (hc : (s.context c).creator = .checking) :
    Sound createSuspended (s.check c) := by
  have hcons := h.contexts c
  simp only [Context.Consistent, hc] at hcons
  have hr := h.reap
  have hsame : s.reap.context c = s.context c := if_neg fun hin => hcons.1 hin.1
  have hout : c ∉ s.reap.list := fun hin => hcons.1 (List.mem_of_mem_filter hin)
  unfold State.check
  dsimp only
  split
  · apply hr.setContext
    · exact ⟨hout, by simp [ThreadStage.gone, hsame, hcons.2.2.1], by simp [hsame, hcons.2.1.2.2.2.1],
        by simp [hsame, hcons.2.1.2.2.2.2]⟩
    · simp [State.creators, hsame, hc, Creator.inProgress]
  · rename_i hnot
    refine hr.change rfl (fun _ _ => Iff.rfl) ?_ ?_ ?_ rfl rfl ?_
    · rw [hsame]
      exact ⟨hout, hcons.2.1, hcons.2.2.1, hcons.2.2.2⟩
    · rw [occupancy_enter (by simp [State.creators, hsame, hc, Creator.inProgress]) (by trivial),
        ← hr.count]
      rfl
    · have hcomplete := hr.complete
      simp only [Nat.add_eq_zero_iff, one_ne_zero, and_false, iff_false]
      split
      · simp
      · rename_i hmore
        rwa [hcomplete]
    · intro w hw
      exact absurd (hr.begun w (by simp [hw])) hnot

theorem link (h : Sound createSuspended s) (hc : (s.context c).creator = .linking) :
    Sound createSuspended (s.link c (createSuspended c)) := by
  have hprogress : (s.creators c).inProgress := by
    rw [State.creators, hc]
    trivial
  obtain ⟨_, hnone⟩ := h.count_pos hprogress
  have hcons := h.contexts c
  simp only [Context.Consistent, hc] at hcons
  obtain ⟨_, ⟨hreleased, hcancelled, hevent, hentered, hfreed⟩, hthread, hsuspend⟩ := hcons
  have hlist : ∀ d, d ≠ c → (d ∈ s.list ++ [c] ↔ d ∈ s.list) := by
    intro d hd
    simp [hd]
  unfold State.link
  dsimp only
  split
  -- the thread is let go at once, with the shutdown as with the flag
  · rename_i hrelease
    have hrelease' : createSuspended c = false ∨ s.shutdown = true := by simpa using hrelease
    obtain ⟨hcount, hcomplete⟩ := h.completeCreation hprogress
      (b := { s.context c with creator := .returned true }) (by simp [Creator.inProgress])
    refine h.change rfl hlist ?_ hcount hcomplete rfl rfl fun w hw => absurd hw (hnone w)
    constructor
    case listed => exact .inl ⟨by simp [State.setContext], hfreed⟩
    case event => rfl
    case closed => exact nofun
    case count =>
      intro _
      dsimp only
      split
      · rfl
      · rename_i hgoing
        have hsuspended := hrelease'.resolve_right hgoing
        simpa [hsuspended] using hsuspend
    case reason =>
      intro _ hkept
      right
      dsimp only at hkept
      split at hkept
      · cases hkept
      · rename_i hgoing
        exact hrelease'.resolve_right hgoing
    case past =>
      simp [hthread, hentered]
    case once => exact ⟨by simp [hentered], fun _ => hentered⟩
    case created => simp [hthread]
  -- the thread stays behind its gate until it is resumed
  · rename_i hheld
    obtain ⟨hcount, hcomplete⟩ := h.completeCreation hprogress
      (b := { s.context c with creator := .returned true }) (by simp [Creator.inProgress])
    refine h.change rfl hlist ?_ hcount hcomplete rfl rfl fun w hw => absurd hw (hnone w)
    constructor
    case listed => exact .inl ⟨by simp [State.setContext], hfreed⟩
    case event => simp [hevent, hreleased]
    case closed => exact fun _ => ⟨hthread, hcancelled⟩
    case count => simp [hreleased]
    case reason => simp [hreleased]
    case past => simp [hthread, hentered]
    case once => exact ⟨by simp [hentered], fun _ => hentered⟩
    case created => simp [hthread]

/-- Whoever is in the list has been returned by its call. -/
theorem returned (h : Sound createSuspended s) (hin : c ∈ s.list) :
    (s.context c).creator = .returned true ∧
      (s.context c).Returned (createSuspended c) (c ∈ s.list) := by
  have hc := h.contexts c
  unfold Context.Consistent at hc
  split at hc <;> simp_all

/-- A shutdown begins: the threads that nobody has released are cancelled. -/
theorem beginShutdown {w : ω} (h : Sound createSuspended s) :
    Sound createSuspended (s.beginShutdown w) := by
  have hbegun : Sound createSuspended { s with shutdown := true } :=
    { h with begun := fun _ _ => rfl }
  have hr := hbegun.reap
  have hw := hr.gotoWaiter (w := w) (v := .looping) rfl nofun
  unfold State.beginShutdown
  generalize ({ s with shutdown := true } : State γ ω).reap = r at hr hw
  refine { hw with contexts := fun c => ?_, count := ?_ }
  · dsimp only
    split
    · rename_i hheld
      obtain ⟨hcreator, hret⟩ := hr.returned hheld.1
      obtain ⟨hthread, hcancelled⟩ := hret.closed hheld.2
      have hentered := hret.once.2 (.inl hthread)
      simp only [Context.Consistent, hcreator]
      constructor
      case listed => exact hret.listed
      case event => rfl
      case closed => exact nofun
      case count => exact fun _ => rfl
      case reason => exact nofun
      case past => simp [hthread, hentered]
      case once => exact hret.once
      case created => exact hret.created
    · exact hr.contexts c
  · have hcreators : ∀ r' : State γ ω, (∀ c, (r'.context c).creator = (r.context c).creator) →
        r'.creators = r.creators := fun r' hr' => funext hr'
    rw [hcreators _ fun c => by dsimp only; split <;> rfl]
    exact hr.count

/-- A shutdown looks whether anything is left. -/
theorem look {w : ω} (h : Sound createSuspended s) (hw : s.waiter w = .looping) :
    Sound createSuspended (s.look w) := by
  have hr := h.reap
  have hshutdown : s.reap.shutdown = true := h.begun w (by simp [hw])
  unfold State.look
  dsimp only
  split
  · exact hr.gotoWaiter hshutdown nofun
  · rename_i hnil
    apply hr.gotoWaiter hshutdown
    split
    · exact nofun
    · rename_i hzero
      exact fun _ => ⟨hnil, by simpa using hzero⟩

theorem suspend (h : Sound createSuspended s) : Sound createSuspended (s.suspend c) := by
  unfold State.suspend
  split
  · exact h
  · rename_i hin
    obtain ⟨hcreator, hret⟩ := h.returned (not_not.mp hin)
    split
    · exact h
    · rename_i hheld
      split
      · exact h
      · refine h.setContext ?_ Iff.rfl
        simp only [Context.Consistent, hcreator]
        exact { hret with count := fun hreleased => absurd (.inl hreleased) hheld }

theorem resume (h : Sound createSuspended s) : Sound createSuspended (s.resume c) := by
  unfold State.resume
  split
  · exact h
  · rename_i hin
    obtain ⟨hcreator, hret⟩ := h.returned (not_not.mp hin)
    split
    · exact h
    · rename_i hcount
      -- A thread that has been released has no suspend count.
      have hheld : (s.context c).startReleased = false :=
        Bool.eq_false_iff.mpr fun hreleased => hcount (hret.count hreleased)
      obtain ⟨hthread, hcancelled⟩ := hret.closed hheld
      have hentered := hret.once.2 (.inl hthread)
      split
      · refine h.setContext ?_ Iff.rfl
        simp only [Context.Consistent, hcreator]
        exact
          { listed := hret.listed
            event := rfl
            closed := nofun
            count := fun _ => rfl
            reason := fun _ _ => .inl rfl
            past := fun _ => ⟨rfl, hcancelled⟩
            once := hret.once
            created := hret.created }
      · refine h.setContext ?_ Iff.rfl
        simp only [Context.Consistent, hcreator]
        exact { hret with count := fun hreleased => by simp [hheld] at hreleased }

/-- The thread has seen its start event. -/
theorem openGate (h : Sound createSuspended s) (hthread : (s.context c).thread = .gate)
    (hevent : (s.context c).startEvent = true) :
    Sound createSuspended (s.gotoThread c .released) := by
  have hcons := h.contexts c
  refine h.setContext ?_ Iff.rfl
  unfold Context.Consistent at hcons
  split at hcons <;> rename_i hcreator <;> simp only [Context.Consistent, hcreator]
  case h_4 | h_5 => simp [Context.Unreleased, hevent] at hcons
  case h_6 => exact ⟨hcons.1, hcons.2.1, hcons.2.2.1, hcons.2.2.2.1, .inr (.inl trivial)⟩
  case h_10 =>
    have hreleased : (s.context c).startReleased = true := hcons.event ▸ hevent
    have hentered := hcons.once.2 (.inl hthread)
    constructor
    case listed => exact hcons.listed.imp id fun hdone => by simp [hthread] at hdone
    case event => exact hcons.event
    case closed => simp [hreleased]
    case count => exact hcons.count
    case reason => exact hcons.reason
    case past => simp [hentered]
    case once => exact ⟨by simp [hentered], fun _ => hentered⟩
    case created => exact nofun
  all_goals simp [ThreadStage.gone, hthread] at hcons

/-- The thread ends at the gate if it has been cancelled. -/
theorem passGate (h : Sound createSuspended s) (hthread : (s.context c).thread = .released) :
    Sound createSuspended (s.passGate c) := by
  have hcons := h.contexts c
  unfold State.passGate
  split
  · rename_i hcancelled
    refine h.setContext ?_ Iff.rfl
    unfold Context.Consistent at hcons
    split at hcons <;> rename_i hcreator <;> simp only [Context.Consistent, hcreator]
    case h_6 => exact ⟨hcons.1, hcons.2.1, hcons.2.2.1, hcons.2.2.2.1, .inr (.inr trivial)⟩
    case h_10 =>
      have hentered := hcons.once.2 (.inr (.inl hthread))
      constructor
      case listed => exact hcons.listed.imp id fun hdone => by simp [hthread] at hdone
      case event => exact hcons.event
      case closed =>
        intro hheld
        have hgate := (hcons.closed hheld).1
        simp [hthread] at hgate
      case count => exact hcons.count
      case reason => exact hcons.reason
      case past => simp [hentered]
      case once => exact ⟨by simp [hentered], fun _ => hentered⟩
      case created => exact nofun
    all_goals simp [ThreadStage.gone, hthread] at hcons
  · rename_i hkept
    refine h.setContext ?_ Iff.rfl
    unfold Context.Consistent at hcons
    split at hcons <;> rename_i hcreator <;> simp only [Context.Consistent, hcreator]
    case h_6 => exact absurd hcons.2.1 hkept
    case h_10 =>
      have hentered := hcons.once.2 (.inr (.inl hthread))
      have hreleased : (s.context c).startReleased = true := by
        by_contra hheld
        have hgate := (hcons.closed (by simpa using hheld)).1
        simp [hthread] at hgate
      constructor
      case listed => exact hcons.listed.imp id fun hdone => by simp [hthread] at hdone
      case event => exact hcons.event
      case closed => simp [hreleased]
      case count => exact hcons.count
      case reason => exact hcons.reason
      case past => exact fun _ => ⟨hreleased, by simpa using hkept⟩
      case once => exact ⟨by simp [hentered], fun _ => hentered⟩
      case created => exact nofun
    all_goals simp [ThreadStage.gone, hthread] at hcons

/-- Only a thread of a returned call is past the gate. -/
theorem past (h : Sound createSuspended s)
    (hthread : (s.context c).thread = .starting ∨ (s.context c).thread = .running) :
    (s.context c).creator = .returned true ∧
      (s.context c).Returned (createSuspended c) (c ∈ s.list) := by
  have hcons := h.contexts c
  unfold Context.Consistent at hcons
  split at hcons <;> rename_i hcreator
  case h_10 => exact ⟨hcreator, hcons⟩
  all_goals
    rcases hthread with hthread | hthread <;> simp [ThreadStage.gone, hthread] at hcons

theorem enter (h : Sound createSuspended s) (hthread : (s.context c).thread = .starting) :
    Sound createSuspended (s.enter c) := by
  obtain ⟨hcreator, hret⟩ := h.past (.inl hthread)
  have hentered := hret.once.2 (.inr (.inr hthread))
  obtain ⟨hreleased, hkept⟩ := hret.past (.inl hthread)
  refine h.setContext ?_ Iff.rfl
  simp only [Context.Consistent, hcreator]
  constructor
  case listed => exact hret.listed.imp id fun hdone => by simp [hthread] at hdone
  case event => exact hret.event
  case closed => simp [hreleased]
  case count => exact hret.count
  case reason => exact hret.reason
  case past => exact fun _ => ⟨hreleased, hkept⟩
  case once => exact ⟨by simp [hentered], by simp⟩
  case created => exact nofun

theorem finish (h : Sound createSuspended s) (hthread : (s.context c).thread = .running) :
    Sound createSuspended (s.gotoThread c .terminated) := by
  obtain ⟨hcreator, hret⟩ := h.past (.inr hthread)
  obtain ⟨hreleased, hkept⟩ := hret.past (.inr (.inl hthread))
  refine h.setContext ?_ Iff.rfl
  simp only [Context.Consistent, hcreator]
  constructor
  case listed => exact hret.listed.imp id fun hdone => by simp [hthread] at hdone
  case event => exact hret.event
  case closed => simp [hreleased]
  case count => exact hret.count
  case reason => exact hret.reason
  case past => exact fun _ => ⟨hreleased, hkept⟩
  case once => exact ⟨hret.once.1, by simp⟩
  case created => exact nofun

/-- Every step keeps the invariant. -/
theorem step {a : Action γ ω} (h : Sound createSuspended s) (hen : Enabled s a) :
    Sound createSuspended (next createSuspended s a) := by
  -- the creator is one that counts before and after, or it leaves the count with its step
  cases a with
  | call c allocated =>
    have hcreator : (s.context c).creator = .notCalled := hen
    have hcons := h.contexts c
    simp only [Context.Consistent, hcreator] at hcons
    simp only [next, State.call]
    split
    · refine h.setContext ⟨hcons.1, hcons.2.1, hcons.2.2, rfl⟩ ?_
      simp [State.creators, hcreator, Creator.inProgress]
    · refine h.setContext ⟨hcons.1, .inl hcons.2.2, hcons.2.1.2.2.2.1⟩ ?_
      simp [State.creators, hcreator, Creator.inProgress]
  | check c => exact h.check hen
  | create c created =>
    have hcreator : (s.context c).creator = .creating := hen
    have hcons := h.contexts c
    simp only [Context.Consistent, hcreator] at hcons
    simp only [next, State.create]
    split
    · refine h.setContext ⟨hcons.1, hcons.2.1, rfl, hcons.2.2.2⟩ ?_
      simp [State.creators, hcreator, Creator.inProgress]
    · refine h.setContext ⟨hcons.1, .inl hcons.2.2.1, hcons.2.1.2.2.2.1, hcons.2.1.2.2.2.2⟩ ?_
      simp [State.creators, hcreator, Creator.inProgress]
  | lookUp c found =>
    have hcreator : (s.context c).creator = .lookingUp := hen
    have hcons := h.contexts c
    simp only [Context.Consistent, hcreator] at hcons
    simp only [next, State.lookUp]
    split
    · refine h.setContext hcons ?_
      simp [State.creators, hcreator, Creator.inProgress]
    · refine h.setContext
        ⟨hcons.1, rfl, hcons.2.1.2.2.2.1, hcons.2.1.2.2.2.2, .inl hcons.2.2.1⟩ ?_
      simp [State.creators, hcreator, Creator.inProgress]
  | waitThread c =>
    obtain ⟨hcreator, hdone⟩ := hen
    have hcons := h.contexts c
    simp only [Context.Consistent, hcreator] at hcons
    refine h.setContext ⟨hcons.1, .inr hdone, hcons.2.2.1, hcons.2.2.2.1⟩ ?_
    simp [State.creators, hcreator, Creator.inProgress]
  | complete c =>
    have hcreator : (s.context c).creator = .completing := hen
    have hprogress : (s.creators c).inProgress := by
      rw [State.creators, hcreator]
      trivial
    have hcons := h.contexts c
    simp only [Context.Consistent, hcreator] at hcons
    obtain ⟨hcount, hcomplete⟩ := h.completeCreation hprogress
      (b := { s.context c with creator := .freeing }) (by simp [Creator.inProgress])
    have hnone := (h.count_pos hprogress).2
    exact h.change rfl (fun _ _ => Iff.rfl) hcons hcount hcomplete rfl rfl
      fun w hw => absurd hw (hnone w)
  | free c =>
    have hcreator : (s.context c).creator = .freeing := hen
    have hcons := h.contexts c
    simp only [Context.Consistent, hcreator] at hcons
    refine h.setContext ⟨hcons.1, hcons.2.1, hcons.2.2.1⟩ ?_
    simp [State.creators, hcreator, Creator.inProgress]
  | link c => exact h.link hen
  | suspend c => exact h.suspend
  | resume c => exact h.resume
  | openGate c => exact h.openGate hen.1 hen.2
  | passGate c => exact h.passGate hen
  | enter c => exact h.enter hen
  | finish c => exact h.finish hen
  | beginShutdown w => exact h.beginShutdown
  | look w => exact h.look hen
  | threadDone w c => exact h.gotoWaiter (h.begun w (by simp [hen.1])) (by simp)
  | creationDone w => exact h.gotoWaiter (h.begun w (by simp [hen.1])) (by simp)
  | timeOut w => exact h.gotoWaiter (h.begun w hen.1) (by simp)

end Sound

theorem sound_of_reachable :
    ∀ s, (threadContexts ω createSuspended).Reachable Always s → Sound createSuspended s := by
  apply System.Reachable.invariant
  · intro s hinit
    rw [show s = initialState γ ω from hinit]
    exact sound_initial
  · intro s a h hen _
    exact h.step hen

/-! ## The drain -/

/-- A thread that does not exist when a shutdown has returned is not created by the next step. -/
theorem stays_uncreated {s : State γ ω} {a : Action γ ω} {w : ω} (h : Sound createSuspended s)
    (hw : s.waiter w = .returned) (hen : Enabled s a) :
    (next createSuspended s a).waiter w = .returned ∧
      ∀ c, (s.context c).thread = .notCreated →
        ((next createSuspended s a).context c).thread = .notCreated := by
  have hset : ∀ d b, ((s.context d).thread = .notCreated → b.thread = .notCreated) →
      (s.setContext d b).waiter w = .returned ∧
        ∀ c, (s.context c).thread = .notCreated →
          ((s.setContext d b).context c).thread = .notCreated := by
    intro d b hb
    refine ⟨hw, fun c hc => ?_⟩
    by_cases hd : c = d
    · subst hd
      simpa [State.setContext] using hb hc
    · simpa [State.setContext, Function.update_of_ne hd] using hc
  -- reaping frees contexts, and creates no thread
  have hreap : ∀ r : State γ ω, ∀ c, (r.context c).thread = .notCreated →
      (r.reap.context c).thread = .notCreated := by
    intro r c hc
    simp only [State.reap]
    split <;> exact hc
  -- the waiter that has returned takes no step
  have hother : ∀ u stage, s.waiter u ≠ .returned →
      Function.update s.waiter u stage w = .returned := by
    intro u stage hu
    have hne : w ≠ u := by
      rintro rfl
      exact hu hw
    rw [Function.update_of_ne hne, hw]
  cases a with
  | call c allocated =>
    simp only [next, State.call]
    split <;> exact hset c _ id
  | check c =>
    simp only [next, State.check]
    split
    all_goals
      refine ⟨hw, fun d hd => ?_⟩
      have hd := hreap s d hd
      by_cases hc : d = c
      · subst hc
        simpa [State.gotoCreator, State.setContext] using hd
      · simpa [State.gotoCreator, State.setContext, Function.update_of_ne hc] using hd
  | create c created =>
    -- There is no call in progress any more.
    have hprogress : (s.creators c).inProgress := by
      rw [State.creators, show (s.context c).creator = .creating from hen]
      trivial
    exact absurd hw ((h.count_pos hprogress).2 w)
  | lookUp c found =>
    simp only [next, State.lookUp]
    split <;> exact hset c _ id
  | waitThread c => exact hset c _ id
  | complete c => exact hset c _ id
  | free c => exact hset c _ id
  | link c =>
    simp only [next, State.link]
    split <;> exact hset c _ id
  | suspend c =>
    simp only [next, State.suspend]
    split
    · exact ⟨hw, fun _ => id⟩
    · split
      · exact ⟨hw, fun _ => id⟩
      · split
        · exact ⟨hw, fun _ => id⟩
        · exact hset c _ id
  | resume c =>
    simp only [next, State.resume]
    split
    · exact ⟨hw, fun _ => id⟩
    · split
      · exact ⟨hw, fun _ => id⟩
      · split <;> exact hset c _ id
  | openGate c => exact hset c _ fun hc => by simp [hen.1] at hc
  | passGate c =>
    have hthread : (s.context c).thread = .released := hen
    simp only [next, State.passGate]
    split <;> exact hset c _ fun hc => by simp [hthread] at hc
  | enter c => exact hset c _ fun hc => by simp [show (s.context c).thread = .starting from hen] at hc
  | finish c => exact hset c _ fun hc => by simp [show (s.context c).thread = .running from hen] at hc
  | beginShutdown u =>
    refine ⟨hother u _ (by simp [show s.waiter u = .notCalled from hen]), fun c hc => ?_⟩
    have hc := hreap { s with shutdown := true } c hc
    simp only [next, State.beginShutdown]
    split <;> exact hc
  | look u =>
    have hu : s.waiter u ≠ .returned := by simp [show s.waiter u = .looping from hen]
    simp only [next, State.look]
    split <;> exact ⟨hother u _ hu, hreap s⟩
  | threadDone u c => exact ⟨hother u _ (by simp [hen.1]), fun _ => id⟩
  | creationDone u => exact ⟨hother u _ (by simp [hen.1]), fun _ => id⟩
  | timeOut u => exact ⟨hother u _ hen.2, fun _ => id⟩

/-- After a shutdown has returned no thread is created. -/
theorem nothing_starts {s s' : State γ ω} {w : ω}
    (hs : (threadContexts ω createSuspended).Reachable Always s) (hw : s.waiter w = .returned)
    (hpath : (threadContexts ω createSuspended).Path Always s s') :
    s'.waiter w = .returned ∧
      ∀ c, (s.context c).thread = .notCreated → (s'.context c).thread = .notCreated := by
  induction hpath with
  | refl => exact ⟨hw, fun _ => id⟩
  | tail hprev hlast ih =>
    obtain ⟨a, hen, _, rfl⟩ := hlast
    obtain ⟨hw', hold⟩ := ih
    obtain ⟨hw'', hnew⟩ := stays_uncreated (sound_of_reachable _ (hs.path hprev)) hw' hen
    exact ⟨hw'', fun c hc => hnew c (hold c hc)⟩

/-- What the gate and the drain guarantee. -/
structure Guaranteed (createSuspended : γ → Bool) (s : State γ ω) : Prop where
  /-- When a shutdown has returned, every thread that was created has terminated. -/
  drained : ∀ w, s.waiter w = .returned → ∀ c,
    (s.context c).thread = .notCreated ∨ (s.context c).thread = .terminated
  /-- None is created later. -/
  later : ∀ w, s.waiter w = .returned → ∀ s',
    (threadContexts ω createSuspended).Path Always s s' →
      ∀ c, (s.context c).thread = .notCreated → (s'.context c).thread = .notCreated
  complete : s.creationComplete = true ↔ s.creationCount = 0
  atMostOnce : ∀ c, (s.context c).entered ≤ 1
  gated : ∀ c, (s.context c).entered ≠ 0 →
    (s.context c).resumed = true ∨ createSuspended c = false
  cancelled : ∀ c, (s.context c).shutdownCancelled = true → (s.context c).entered = 0
  /-- A thread does not exist, or does not exist any more, when its context has been freed. -/
  kept : ∀ c, (s.context c).freed = true →
    (s.context c).thread = .notCreated ∨ (s.context c).thread = .terminated

/-- In every run, the drain waits for every thread, the event follows the count, the gate lets a
thread in once and for a reason, and contexts outlive the threads that use them. -/
theorem threads_are_drained (s : State γ ω)
    (hs : (threadContexts ω createSuspended).Reachable Always s) :
    Guaranteed createSuspended s := by
  have h := sound_of_reachable s hs
  have hentered : ∀ c, (s.context c).entered = 0 ∨
      (s.context c).Returned (createSuspended c) (c ∈ s.list) := by
    intro c
    have hcons := h.contexts c
    unfold Context.Consistent at hcons
    split at hcons
    case h_1 => exact .inl hcons.2.1.2.2.2.1
    case h_2 | h_3 => exact .inl hcons.2.1.2.2.2.1
    case h_4 | h_5 => exact .inl hcons.2.1.2.2.2.1
    case h_6 => exact .inl hcons.2.2.1
    case h_7 | h_8 => exact .inl hcons.2.2.1
    case h_9 => exact .inl hcons.2.2
    case h_10 => exact .inr hcons
  constructor
  case drained =>
    intro w hw c
    -- the list is empty and no creation is in progress, so the call is over or was never begun
    have hnil := (h.drained w hw).1
    have hnone : ¬ (s.creators c).inProgress := fun hprogress => (h.count_pos hprogress).2 w hw
    have hcons := h.contexts c
    unfold Context.Consistent at hcons
    split at hcons <;> rename_i hcreator
    case h_1 | h_2 => exact .inl (by simp_all)
    case h_8 => exact hcons.2.1
    case h_9 => exact hcons.2.1
    case h_10 =>
      rcases hcons.listed with ⟨hin, _⟩ | ⟨_, hdone⟩
      · simp [hnil] at hin
      · exact .inr hdone
    all_goals exact absurd (by rw [State.creators, hcreator]; trivial) hnone
  case later => exact fun w hw s' hpath => (nothing_starts hs hw hpath).2
  case complete => exact h.complete
  case atMostOnce =>
    intro c
    rcases hentered c with hzero | hret
    · omega
    · exact hret.once.1
  case gated =>
    intro c hne
    -- a thread that has entered was created by a call that returned
    have hret := (hentered c).resolve_left hne
    obtain ⟨hreleased, hkept⟩ := hret.past (.inr (.inr hne))
    exact hret.reason hreleased hkept
  case cancelled =>
    intro c hcancelled
    by_contra hne
    have hret := (hentered c).resolve_left hne
    have hkept := (hret.past (.inr (.inr hne))).2
    simp [hcancelled] at hkept
  case kept =>
    intro c hfreed
    have hcons := h.contexts c
    unfold Context.Consistent at hcons
    split at hcons
    case h_9 => exact hcons.2.1
    case h_10 =>
      rcases hcons.listed with ⟨_, hheld⟩ | ⟨_, hdone⟩
      · simp [hfreed] at hheld
      · exact .inr hdone
    all_goals simp [Context.Unreleased, hfreed] at hcons

/-- Call `0` creates a suspended thread that is resumed and runs, call `1` one that is cancelled by
the shutdown, and call `2` is still in progress when the shutdown begins. -/
def busyShutdown : List (Action Nat Nat) :=
  [.call 0 true, .check 0, .create 0 true, .lookUp 0 true, .link 0, .suspend 0, .resume 0, .resume 0,
    .call 1 true, .check 1, .create 1 true, .lookUp 1 true, .link 1, .call 2 true, .check 2,
    .create 2 true, .openGate 0, .beginShutdown 0, .passGate 0, .enter 0, .look 0, .finish 0,
    .openGate 1, .passGate 1, .threadDone 0 0, .look 0, .lookUp 2 false, .openGate 2, .passGate 2,
    .waitThread 2, .complete 2, .creationDone 0, .look 0, .free 2]

theorem busy_shutdown_drains :
    ((threadContexts Nat fun c : Nat => c < 2).exec (initialState Nat Nat) busyShutdown).waiter 0 =
        .returned ∧
      Guaranteed (fun c : Nat => c < 2)
        ((threadContexts Nat fun c : Nat => c < 2).exec (initialState Nat Nat) busyShutdown) := by
  have hrun : (threadContexts Nat fun c : Nat => c < 2).Reachable Always
      ((threadContexts Nat fun c : Nat => c < 2).exec (initialState Nat Nat) busyShutdown) :=
    System.reachable_exec _ busyShutdown rfl (by decide +kernel)
  exact ⟨by decide +kernel, threads_are_drained _ hrun⟩

end Ldk.ThreadContext
