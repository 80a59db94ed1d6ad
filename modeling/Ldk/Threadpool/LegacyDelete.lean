import Ldk.Threadpool.LegacyObject

/-!
# Deletion of legacy timers and registered waits

The wait for the callbacks may miss one that is about to begin, and the wrapper may arm the object
again behind the delete request. Neither matters, for the close routine waits for the thread of the
object, unless it is called on it. A callback that deletes its own record does not come so far: it
waits for itself.

- `Safe`: what is asked of records and callbacks.
- `Inv`: how far the wrapper and the delete routine have come.
- `callback_ends`: a callback may end while the delete routine waits.
- `records_are_released`: runs in which the callback does not delete its own record are safe, and
  a state is not safe just when the callback waits for itself.
- `callback_waits_for_itself`: runs in which it does.
-/

namespace Ldk.Threadpool.Legacy

open TransitionSystem

variable {S A : Type} {r : Routines S A} {p p' : Threadpool.State S A Party} {k : Kind S A}

/-! ## The property -/

/-- The delete routine waits, for the event or for the thread. -/
def State.Waits (s : State S A) : Prop :=
  (∃ fCancel, s.pool.client .deleter = .waitEvent fCancel ∧ s.pool.event = false) ∨
    s.pool.client .deleter = .closeWait ∧ s.pool.thread ≠ .exited

/-- The callback that runs can end after the delete routine has returned, and not before. -/
def EndsAfterReturn (r : Routines S A) (s : State S A) : Prop :=
  runsCallback s.pool.thread = true ∧
    ∀ s', (legacy r).Path Always s s' → runsCallback s'.pool.thread = false → s'.deleter = .returned

/-- What is asked of records and callbacks. -/
structure Safe (r : Routines S A) (s : State S A) : Prop where
  waits : ¬ (s.Waits ∧ EndsAfterReturn r s)
  /-- No callback was called after the delete routine had returned. -/
  prompt : s.late = false
  /-- The record was not touched after it was freed. -/
  sound : s.faulted = false

/-- The callback does not delete its own record. -/
def External (_ : State S A) : Action S A → Prop
  | .delete fromCallback => fromCallback = false
  | _ => True

instance (s : State S A) (a : Action S A) : Decidable (External s a) := by
  rcases a <;> unfold External <;> infer_instance

/-! ## The wrapper and the delete routine -/

/-- What the delete routine has its client of the object do. -/
def Stage (s : State S A) : Prop :=
  match s.deleter with
  | .idle | .check | .request | .disarm =>
    s.pool.client .deleter = .idle ∧ s.pool.closeRequested = false
  | .disarming => sets (s.pool.client .deleter) = true ∧ s.pool.closeRequested = false
  | .waiting => inWait (s.pool.client .deleter) = true ∧ s.pool.closeRequested = false
  | .closing => Closes s.pool (s.pool.client .deleter)
  | .free | .returned => s.pool.client .deleter = .idle ∧ s.pool.thread = .exited

/-- The delete routine has not come past the wait. -/
def Held (s : State S A) : Prop :=
  match s.deleter with
  | .check | .request | .disarm | .disarming => True
  | .waiting => awaits (s.pool.client .deleter) = true
  | _ => False

structure Inv (s : State S A) : Prop where
  running : s.wrapper ≠ .idle → runsCallback s.pool.thread = true
  wrapper : s.wrapper ≠ .rearming → s.pool.client .wrapper = .idle
  creator : s.deleter ≠ .idle → s.armed = true ∧ s.pool.client .creator = .idle
  called : s.deleter = .idle → s.fromCallback = false
  stage : Stage s
  /-- A callback that deletes its own record is held by the wait. -/
  held : s.fromCallback = true → s.wrapper = .user ∧ Held s
  magic : s.deleter ≠ .free → s.deleter ≠ .returned → s.record.magic = true
  freed : s.freed = true → s.deleter = .returned
  sound : s.faulted = false
  prompt : s.late = false

variable {s s' : State S A}

theorem Closes.frame {q : ClientPc A} (h : Closes p q)
    (hclose : p'.closeRequested = p.closeRequested) (hhandle : p'.threadHandle = p.threadHandle)
    (hthread : p.thread = .exited → p'.thread = .exited) : Closes p' q := by
  cases q with
  | closeOr fromCallback => exact ⟨h.1, hclose.trans h.2⟩
  | closeSignal | closeHandle => exact ⟨h.1, h.2.1, hhandle.trans h.2.2⟩
  | closeWait => trivial
  | closeZwClose | closeLock | closeRead | closeWrite | closeDereference | idle => exact hthread h
  | _ => exact h.elim

/-- The others do not matter to the delete routine. -/
theorem Stage.frame (h : Stage s) (hdeleter : s'.deleter = s.deleter)
    (hclient : s'.pool.client .deleter = s.pool.client .deleter)
    (hclose : s'.pool.closeRequested = s.pool.closeRequested)
    (hhandle : s'.pool.threadHandle = s.pool.threadHandle)
    (hthread : s.pool.thread = .exited → s'.pool.thread = .exited) : Stage s' := by
  unfold Stage at h ⊢
  rw [hdeleter, hclient, hclose]
  cases hd : s.deleter with
  | closing =>
    rw [hd] at h
    exact h.frame hclose hhandle hthread
  | free | returned =>
    rw [hd] at h
    exact ⟨h.1, hthread h.2⟩
  | _ =>
    rw [hd] at h
    exact h

namespace Inv

/-- Who has returned has seen the thread go. -/
theorem exited (h : Inv s) (hret : s.deleter = .returned) : s.pool.thread = .exited := by
  have hstage := h.stage
  unfold Stage at hstage
  rw [hret] at hstage
  exact hstage.2

/-- While the callback runs the delete routine has not returned. -/
theorem not_returned (h : Inv s) (hrun : runsCallback s.pool.thread = true) :
    s.deleter ≠ .returned := by
  intro hret
  rw [h.exited hret] at hrun
  cases hrun

theorem not_freed (h : Inv s) (hret : s.deleter ≠ .returned) : s.freed = false := by
  cases hfreed : s.freed with
  | false => rfl
  | true => exact absurd (h.freed hfreed) hret

/-- A record that has not been freed may be touched. -/
theorem touch (h : Inv s) (hret : s.deleter ≠ .returned) : s.touch = s := by
  have hsame : (s.faulted || s.freed) = s.faulted := by
    rw [h.not_freed hret, Bool.or_false]
  unfold State.touch
  rw [hsame]

/-- The wrapper goes on. -/
theorem wrapperMove (h : Inv s) {w : WrapperPc} (hrun : runsCallback s.pool.thread = true)
    (hclient : s.pool.client .wrapper = .idle) (hown : s.fromCallback = false) :
    Inv { s with wrapper := w } where
  running _ := hrun
  wrapper _ := hclient
  creator := h.creator
  called := h.called
  stage := h.stage
  held heq := by
    rw [hown] at heq
    cases heq
  magic := h.magic
  freed := h.freed
  sound := h.sound
  prompt := h.prompt

/-- The callback that deletes its own record does nothing else. -/
theorem not_own (h : Inv s) (hw : s.wrapper ≠ .user) : s.fromCallback = false := by
  cases hown : s.fromCallback with
  | false => rfl
  | true => exact absurd (h.held hown).1 hw

/-- The object takes a step of a thread or of a client. -/
theorem pool (h : Inv s) (hok : ObjectOk s.pool) {a : Threadpool.Action S A Party}
    (hint : isInternal a = true) (hen : Threadpool.Enabled r.kind s.pool a) :
    Inv (s.poolStep r a) := by
  cases hthread : a.byThread with
  | true =>
    -- a step of the thread leaves the clients where they are, and is outside the callback
    obtain ⟨hnot, hstays⟩ := thread_of_internal hint hen hthread
    have hclient : (Threadpool.next r.kind s.pool a).client = s.pool.client :=
      client_eq_of_thread s.pool a hthread
    obtain ⟨hclose, hhandle⟩ := close_eq_of_thread (k := r.kind) (p := s.pool) hthread
    have hidle : s.wrapper = .idle := by
      by_contra hbusy
      rw [h.running hbusy] at hnot
      cases hnot
    refine ⟨fun hbusy => absurd hidle hbusy, ?_, ?_, h.called, ?_, ?_, h.magic, h.freed, h.sound,
      h.prompt⟩
    · intro hw
      show (Threadpool.next r.kind s.pool a).client .wrapper = .idle
      rw [hclient]
      exact h.wrapper hw
    · intro hdeleter
      refine ⟨(h.creator hdeleter).1, ?_⟩
      show (Threadpool.next r.kind s.pool a).client .creator = .idle
      rw [hclient]
      exact (h.creator hdeleter).2
    · exact h.stage.frame rfl (congrFun hclient _) hclose hhandle fun hexited =>
        absurd hexited hstays
    · intro hown
      rw [(h.held hown).1] at hidle
      cases hidle
  | false =>
    -- a step of a client leaves the thread and the other clients where they are
    obtain ⟨c, q', hactor, hm⟩ := moves_of_client hint hen hthread
    have hother {d : Party} (hd : d ≠ c) :
        (Threadpool.next r.kind s.pool a).client d = s.pool.client d := by
      rw [hm.client, Function.update_of_ne hd]
    have hidle {d : Party} (hd : s.pool.client d = .idle) :
        (Threadpool.next r.kind s.pool a).client d = .idle := by
      rw [hother]
      · exact hd
      · rintro rfl
        exact hm.busy hd
    refine ⟨?_, fun hw => hidle (h.wrapper hw), ?_, h.called, ?_, ?_, h.magic, h.freed, h.sound,
      h.prompt⟩
    · intro hw
      show runsCallback (Threadpool.next r.kind s.pool a).thread = true
      rw [hm.thread]
      exact h.running hw
    · exact fun hdeleter => ⟨(h.creator hdeleter).1, hidle (h.creator hdeleter).2⟩
    -- each stage of the delete is where its call of the pool is
    · by_cases hc : c = .deleter
      · subst hc
        have hstage := h.stage
        have hbusy := hm.busy
        unfold Stage at hstage ⊢
        simp only [State.poolStep]
        cases hd : s.deleter with
        | idle | check | request | disarm | free | returned =>
          rw [hd] at hstage
          exact absurd hstage.1 hbusy
        | disarming =>
          rw [hd] at hstage
          obtain ⟨hsets, hclose, -⟩ := hm.sets hstage.1
          simp only
          rw [hm.client, Function.update_self]
          exact ⟨hsets, hclose.trans hstage.2⟩
        | waiting =>
          rw [hd] at hstage
          obtain ⟨hwaits, hclose⟩ := hm.waits hstage.1
          simp only
          rw [hm.client, Function.update_self]
          exact ⟨hwaits, hclose.trans hstage.2⟩
        | closing =>
          rw [hd] at hstage
          exact closes_step hstage hok.unclosed hactor hint hen
      · -- others only set the object
        obtain ⟨-, hclose, hhandle⟩ := hm.sets (hok.roles c hc)
        exact h.stage.frame rfl (hother (Ne.symm hc)) hclose hhandle hm.thread.trans
    · intro hown
      obtain ⟨huser, hheld⟩ := h.held hown
      refine ⟨huser, ?_⟩
      unfold Held at hheld ⊢
      simp only [State.poolStep]
      cases hd : s.deleter with
      | waiting =>
        rw [hd] at hheld
        simp only at hheld ⊢
        by_cases hc : c = .deleter
        · subst hc
          have hrun := h.running (by rw [huser]; nofun)
          have hstage := h.stage
          unfold Stage at hstage
          rw [hd] at hstage
          exact awaits_step hheld (hok.unclosed hstage.2) (hok.event hrun) hactor hint hen
        · rw [hother (Ne.symm hc)]
          exact hheld
      | _ =>
        rw [hd] at hheld
        exact hheld

end Inv

/-! ## Their steps -/

namespace Inv

/-- The delete routine goes on. -/
theorem deleterMove (h : Inv s) (hcalled : s.deleter ≠ .idle) (hcalls : s'.deleter ≠ .idle)
    (hwrapper : s'.wrapper = s.wrapper) (hthread : s'.pool.thread = s.pool.thread)
    (hothers : ∀ c, c ≠ .deleter → s'.pool.client c = s.pool.client c)
    (harmed : s'.armed = s.armed) (hfrom : s'.fromCallback = s.fromCallback)
    (hstage : Stage s') (hheld : s.fromCallback = true → Held s')
    (hmagic : s'.deleter ≠ .free → s'.deleter ≠ .returned → s'.record.magic = true)
    (hfreed : s'.freed = true → s'.deleter = .returned) (hsound : s'.faulted = s.faulted)
    (hprompt : s'.late = s.late) : Inv s' where
  running hw := by
    rw [hwrapper] at hw
    rw [hthread]
    exact h.running hw
  wrapper hw := by
    rw [hwrapper] at hw
    rw [hothers .wrapper nofun]
    exact h.wrapper hw
  creator _ := by
    rw [harmed, hothers .creator nofun]
    exact h.creator hcalled
  called heq := absurd heq hcalls
  stage := hstage
  held hown := by
    rw [hfrom] at hown
    rw [hwrapper]
    exact ⟨(h.held hown).1, hheld hown⟩
  magic := hmagic
  freed := hfreed
  sound := hsound.trans h.sound
  prompt := hprompt.trans h.prompt

/-- The call of a set routine moves its client alone. -/
theorem callSet_client (k : Kind S A) (p : Threadpool.State S A Party) (c : Party)
    (arg : Option A) (d : Party) (hd : d ≠ c) :
    (Threadpool.next k p (.callSet c arg)).client d = p.client d :=
  Function.update_of_ne hd _ _

theorem arm (h : Inv s) (harmed : s.armed = false) : Inv (s.arm r) := by
  have hidle : s.deleter = .idle := by
    by_contra hcalled
    rw [(h.creator hcalled).1] at harmed
    cases harmed
  unfold State.arm
  rw [h.touch (by rw [hidle]; nofun)]
  refine ⟨h.running, ?_, fun hcalled => absurd hidle hcalled, h.called, ?_, ?_, h.magic, h.freed,
    h.sound, h.prompt⟩
  · exact fun hw => (callSet_client r.kind s.pool .creator _ .wrapper nofun).trans (h.wrapper hw)
  · exact h.stage.frame rfl (callSet_client r.kind s.pool .creator _ .deleter nofun) rfl rfl id
  · intro hown
    rw [show (s.poolStep r _).fromCallback = s.fromCallback from rfl, h.called hidle] at hown
    cases hown

theorem enter (h : Inv s) (hen : Enabled r s .enter) : Inv s.enter := by
  obtain ⟨hidle, hrun⟩ := hen
  unfold State.enter
  rw [h.touch (h.not_returned hrun)]
  exact h.wrapperMove hrun (h.wrapper (by rw [hidle]; nofun)) (h.not_own (by rw [hidle]; nofun))

theorem callUser (h : Inv s) (hw : s.wrapper = .call) : Inv s.callUser := by
  have hrun := h.running (by rw [hw]; nofun)
  have hlate : (s.late || decide (s.deleter = .returned)) = s.late := by
    rw [decide_eq_false (h.not_returned hrun), Bool.or_false]
  unfold State.callUser
  rw [h.touch (h.not_returned hrun), hlate]
  exact h.wrapperMove hrun (h.wrapper (by rw [hw]; nofun)) (h.not_own (by rw [hw]; nofun))

theorem userReturns (h : Inv s) (hen : Enabled r s .userReturns) : Inv (s.userReturns r) := by
  obtain ⟨hw, hreturned⟩ := hen
  have hrun := h.running (by rw [hw]; nofun)
  apply h.wrapperMove hrun (h.wrapper (by rw [hw]; nofun))
  cases hown : s.fromCallback with
  | false => rfl
  | true => exact absurd (hreturned hown) (h.not_returned hrun)

theorem test (h : Inv s) (hw : s.wrapper = .test) : Inv s.test := by
  have hrun := h.running (by rw [hw]; nofun)
  unfold State.test
  rw [h.touch (h.not_returned hrun)]
  exact h.wrapperMove hrun (h.wrapper (by rw [hw]; nofun)) (h.not_own (by rw [hw]; nofun))

theorem rearm (h : Inv s) (hw : s.wrapper = .rearm) (accepted : Bool) :
    Inv (s.rearm r accepted) := by
  have hrun := h.running (by rw [hw]; nofun)
  have hown := h.not_own (by rw [hw]; nofun)
  unfold State.rearm
  rw [h.touch (h.not_returned hrun)]
  cases accepted with
  | true =>
    refine ⟨fun _ => hrun, fun hne => absurd rfl hne, ?_, h.called, ?_, ?_, h.magic, h.freed,
      h.sound, h.prompt⟩
    · intro hcalled
      exact ⟨(h.creator hcalled).1,
        (callSet_client r.kind s.pool .wrapper _ .creator nofun).trans (h.creator hcalled).2⟩
    · exact h.stage.frame rfl (callSet_client r.kind s.pool .wrapper _ .deleter nofun) rfl rfl id
    · intro heq
      cases hown.symm.trans heq
  | false => exact h.wrapperMove hrun (h.wrapper (by rw [hw]; nofun)) hown

theorem rearmed (h : Inv s) (hen : Enabled r s .rearmed) : Inv s.rearmed := by
  obtain ⟨hw, hclient⟩ := hen
  exact h.wrapperMove (h.running (by rw [hw]; nofun)) hclient (h.not_own (by rw [hw]; nofun))

theorem leave (h : Inv s) {status : WaitStatus} (hen : Enabled r s (.leave status)) :
    Inv (s.leave r status) := by
  obtain ⟨hw, hpc⟩ := hen
  have hown := h.not_own (by rw [hw]; nofun)
  refine ⟨fun hne => absurd rfl hne, ?_, h.creator, h.called, ?_, ?_, h.magic, h.freed, h.sound,
    h.prompt⟩
  · exact fun _ => h.wrapper (by rw [hw]; nofun)
  · refine h.stage.frame rfl rfl rfl rfl fun hexited => ?_
    cases hpc.symm.trans hexited
  · intro heq
    cases hown.symm.trans heq

theorem delete (h : Inv s) {fromCallback : Bool} (hen : Enabled r s (.delete fromCallback)) :
    Inv (s.delete fromCallback) := by
  obtain ⟨hidle, harmed, hcreator, hcaller⟩ := hen
  have hstage := h.stage
  unfold Stage at hstage
  rw [hidle] at hstage
  refine ⟨h.running, h.wrapper, fun _ => ⟨harmed, hcreator⟩, nofun, hstage, ?_, ?_, ?_, h.sound,
    h.prompt⟩
  · exact fun hown => ⟨hcaller hown, trivial⟩
  · exact fun _ _ => h.magic (by rw [hidle]; nofun) (by rw [hidle]; nofun)
  · intro hfreed
    cases hidle.symm.trans (h.freed hfreed)

/-- The record has not been freed yet. -/
theorem freed_of_ne (h : Inv s) (hret : s.deleter ≠ .returned) {d : DeleterPc}
    (hfreed : s.freed = true) : d = .returned := by
  rw [h.not_freed hret] at hfreed
  cases hfreed

theorem check (h : Inv s) (hd : s.deleter = .check) : Inv (s.check r) := by
  have hret : s.deleter ≠ .returned := by rw [hd]; nofun
  have hmagic := h.magic (by rw [hd]; nofun) hret
  have hstage := h.stage
  unfold Stage at hstage
  rw [hd] at hstage
  unfold State.check
  rw [h.touch hret, if_pos hmagic]
  cases r.rearms with
  | true =>
    exact h.deleterMove (by rw [hd]; nofun) nofun rfl rfl (fun _ _ => rfl) rfl rfl hstage
      (fun _ => trivial) (fun _ _ => hmagic) (h.freed_of_ne hret) rfl rfl
  | false =>
    exact h.deleterMove (by rw [hd]; nofun) nofun rfl rfl (fun _ _ => rfl) rfl rfl hstage
      (fun _ => trivial) (fun _ _ => hmagic) (h.freed_of_ne hret) rfl rfl

theorem request (h : Inv s) (hd : s.deleter = .request) : Inv s.request := by
  have hret : s.deleter ≠ .returned := by rw [hd]; nofun
  have hstage := h.stage
  unfold Stage at hstage
  rw [hd] at hstage
  unfold State.request
  rw [h.touch hret]
  exact h.deleterMove (by rw [hd]; nofun) nofun rfl rfl (fun _ _ => rfl) rfl rfl hstage
    (fun _ => trivial) (fun _ _ => h.magic (by rw [hd]; nofun) hret) (h.freed_of_ne hret) rfl rfl

theorem disarm (h : Inv s) (hd : s.deleter = .disarm) : Inv (s.disarm r) := by
  have hret : s.deleter ≠ .returned := by rw [hd]; nofun
  have hstage := h.stage
  unfold Stage at hstage
  rw [hd] at hstage
  unfold State.disarm
  rw [h.touch hret]
  refine h.deleterMove (by rw [hd]; nofun) nofun rfl rfl (callSet_client r.kind s.pool _ _)
    rfl rfl ?_
    (fun _ => trivial) (fun _ _ => h.magic (by rw [hd]; nofun) hret) (h.freed_of_ne hret) rfl rfl
  refine ⟨?_, hstage.2⟩
  show sets (Function.update s.pool.client .deleter (.setLock none) .deleter) = true
  rw [Function.update_self]
  rfl

theorem waitCallbacks (h : Inv s) (hd : s.deleter = .disarming) : Inv (s.waitCallbacks r) := by
  have hret : s.deleter ≠ .returned := by simp [hd]
  have hstage := h.stage
  unfold Stage at hstage
  rw [hd] at hstage
  unfold State.waitCallbacks
  rw [h.touch hret]
  have hpc : (Threadpool.next r.kind s.pool (.callWait .deleter true)).client .deleter =
      .waitReference true := by
    simp only [Threadpool.next, State.clientTo, Function.update_self]
  refine h.deleterMove (by simp [hd]) (by simp) rfl rfl
    (fun _ hc => Function.update_of_ne hc _ _) rfl rfl ⟨?_, hstage.2⟩ (fun _ => ?_)
    (fun _ _ => h.magic (by simp [hd]) hret) (h.freed_of_ne hret) rfl rfl
  · show inWait ((Threadpool.next r.kind s.pool (.callWait .deleter true)).client .deleter) = true
    rw [hpc]
    rfl
  · show awaits ((Threadpool.next r.kind s.pool (.callWait .deleter true)).client .deleter) = true
    rw [hpc]
    rfl

/-- A callback that deletes its own record does not come here. -/
theorem close (h : Inv s) (hen : Enabled r s .close) : Inv (s.close r) := by
  obtain ⟨hd, hclient⟩ := hen
  have hret : s.deleter ≠ .returned := by rw [hd]; nofun
  have hown : s.fromCallback = false := by
    cases hown : s.fromCallback with
    | false => rfl
    | true =>
      have hheld := (h.held hown).2
      unfold Held at hheld
      rw [hd] at hheld
      simp only [hclient] at hheld
      cases hheld
  have hstage := h.stage
  unfold Stage at hstage
  rw [hd] at hstage
  unfold State.close
  rw [h.touch hret]
  refine h.deleterMove (by rw [hd]; nofun) nofun rfl rfl (fun _ hc => Function.update_of_ne hc _ _)
    rfl rfl ?_ (fun heq => ?_) (fun _ _ => h.magic (by rw [hd]; nofun) hret) (h.freed_of_ne hret)
    rfl rfl
  · show Closes _ ((Threadpool.next r.kind s.pool (.callClose .deleter _)).client .deleter)
    rw [show (Threadpool.next r.kind s.pool (.callClose .deleter s.fromCallback)).client .deleter =
      .closeOr s.fromCallback by simp only [Threadpool.next, State.clientTo, Function.update_self]]
    exact ⟨hown, hstage.2⟩
  · cases hown.symm.trans heq

/-- When the object is closed its thread has gone. -/
theorem clearMagic (h : Inv s) (hen : Enabled r s .clearMagic) : Inv s.clearMagic := by
  obtain ⟨hd, hclient⟩ := hen
  have hret : s.deleter ≠ .returned := by rw [hd]; nofun
  have hstage := h.stage
  unfold Stage at hstage
  rw [hd] at hstage
  simp only [hclient] at hstage
  unfold State.clearMagic
  rw [h.touch hret]
  refine h.deleterMove (by rw [hd]; nofun) nofun rfl rfl (fun _ _ => rfl) rfl rfl
    ⟨hclient, hstage⟩ (fun heq => ?_) (fun hne => absurd rfl hne) (h.freed_of_ne hret) rfl rfl
  have hheld := (h.held heq).2
  unfold Held at hheld
  rw [hd] at hheld
  exact hheld.elim

theorem free (h : Inv s) (hd : s.deleter = .free) : Inv s.free := by
  have hret : s.deleter ≠ .returned := by rw [hd]; nofun
  have hstage := h.stage
  unfold Stage at hstage
  rw [hd] at hstage
  unfold State.free
  rw [h.touch hret]
  refine h.deleterMove (by rw [hd]; nofun) nofun rfl rfl (fun _ _ => rfl) rfl rfl hstage
    (fun heq => ?_) (fun _ hne => absurd rfl hne) (fun _ => rfl) rfl rfl
  have hheld := (h.held heq).2
  unfold Held at hheld
  rw [hd] at hheld
  exact hheld.elim

/-- Every step keeps the invariant. -/
theorem step (h : Inv s) (hok : ObjectOk s.pool) {a : Action S A} (hen : Enabled r s a) :
    Inv (next r s a) := by
  cases a with
  | pool a => exact h.pool hok hen.1 hen.2
  | arm => exact h.arm hen.1
  | enter => exact h.enter hen
  | callUser => exact h.callUser hen
  | userReturns => exact h.userReturns hen
  | test => exact h.test hen
  | rearm accepted => exact h.rearm hen.1 accepted
  | rearmed => exact h.rearmed hen
  | leave status => exact h.leave hen
  | delete fromCallback => exact h.delete hen
  | check => exact h.check hen
  | request => exact h.request hen
  | disarm => exact h.disarm hen.1
  | waitCallbacks => exact h.waitCallbacks hen.1
  | close => exact h.close hen
  | clearMagic => exact h.clearMagic hen
  | free => exact h.free hen

end Inv

/-- The pool object of a reachable record is reachable. -/
theorem pool_reachable (hreach : (legacy r).Reachable Always s) :
    (watcher r.kind Party r.settings).Reachable Roles s.pool :=
  (poolRuns r).reachable s hreach

theorem inv_of_reachable : ∀ s, (legacy r).Reachable Always s → Inv s := by
  refine System.Reachable.invariantUnder (J := fun s => ObjectOk s.pool)
    (fun s hreach => objectOk_of_reachable s.pool (pool_reachable hreach)) ?_ ?_
  · rintro s ⟨arming, executeOnlyOnce, rfl⟩
    exact {
      running := fun hne => absurd rfl hne
      wrapper := fun _ => rfl
      creator := fun hne => absurd rfl hne
      called := fun _ => rfl
      stage := ⟨rfl, rfl⟩
      held := nofun
      magic := fun _ _ => rfl
      freed := nofun
      sound := rfl
      prompt := rfl }
  · intro s a hok h hen _
    exact h.step hok hen

/-! ## The callback ends -/

/-- The client is at a wait of the routine that it is in. -/
def blocked : ClientPc A → Bool
  | .waitEvent _ | .closeWait => true
  | _ => false

theorem State.Waits.blocked (h : s.Waits) : blocked (s.pool.client .deleter) = true := by
  rcases h with ⟨fCancel, hpc, -⟩ | ⟨hpc, -⟩
  · rw [hpc]
    rfl
  · rw [hpc]
    rfl

/-- Who waits has been called and has not returned. -/
theorem Inv.waiting (h : Inv s) (hblocked : blocked (s.pool.client .deleter) = true) :
    s.deleter ≠ .idle ∧ s.deleter ≠ .returned := by
  have hstage := h.stage
  unfold Stage at hstage
  constructor
  · intro hd
    rw [hd] at hstage
    rw [hstage.1] at hblocked
    cases hblocked
  · intro hd
    rw [hd] at hstage
    rw [hstage.1] at hblocked
    cases hblocked

/-- How many steps a set routine still has. -/
def setRank : ClientPc A → Nat
  | .setLock _ => 7
  | q => q.sectionRank

/-- How many steps the wrapper still has. -/
def wrapperRank (s : State S A) : Nat :=
  if runsCallback s.pool.thread = true then
    match s.wrapper with
    | .idle => 18
    | .call => 17
    | .user => 16
    | .test => 15
    | .rearm => 14
    | .rearming => 2 + setRank (s.pool.client .wrapper)
    | .done => 1
  else 0

/-- A step of the wrapper brings it closer to its end, and leaves the delete routine alone. -/
structure Advances (r : Routines S A) (s : State S A) (a : Action S A) : Prop where
  enabled : Enabled r s a
  fromCallback : (next r s a).fromCallback = s.fromCallback
  deleter : (next r s a).pool.client .deleter = s.pool.client .deleter
  rank : wrapperRank (next r s a) < wrapperRank s

/-- While the delete routine waits the lock is free for the wrapper. -/
theorem lock_free (h : Inv s) (hlock : LockExact s.pool) (hrun : runsCallback s.pool.thread = true)
    (hblocked : blocked (s.pool.client .deleter) = true)
    (hwrapper : (s.pool.client .wrapper).inSection = false) : s.pool.lock = none := by
  cases howner : s.pool.lock with
  | none => rfl
  | some o =>
    cases o with
    | thread =>
      have hin := hlock.thread.1 howner
      cases hpc : s.pool.thread <;> simp_all [ThreadPc.inSection, runsCallback]
    | client c =>
      have hin := (hlock.client c).1 howner
      cases c with
      | creator =>
        rw [(h.creator (h.waiting hblocked).1).2] at hin
        cases hin
      | wrapper =>
        rw [hwrapper] at hin
        cases hin
      | deleter =>
        cases hpc : s.pool.client .deleter <;> simp_all [ClientPc.inSection, blocked]

/-- A step of the wrapper in `SetThreadpoolWait`. -/
theorem rearming_advances (h : Inv s) (hlock : LockExact s.pool)
    (hsets : sets (s.pool.client .wrapper) = true) (hrun : runsCallback s.pool.thread = true)
    (hblocked : blocked (s.pool.client .deleter) = true) (hw : s.wrapper = .rearming) :
    ∃ a, Advances r s a := by
  have hrank : wrapperRank s = 2 + setRank (s.pool.client .wrapper) := by
    unfold wrapperRank
    rw [if_pos hrun, hw]
  -- a step of the set routine that has fewer steps behind it
  have hstep {a : Threadpool.Action S A Party} {q : ClientPc A}
      (hen : Enabled r s (.pool a))
      (hmove : (Threadpool.next r.kind s.pool a).client =
        Function.update s.pool.client .wrapper q)
      (hthread : (Threadpool.next r.kind s.pool a).thread = s.pool.thread)
      (hlt : setRank q < setRank (s.pool.client .wrapper)) : ∃ a, Advances r s a := by
    refine ⟨.pool a, hen, rfl, ?_, ?_⟩
    · show (Threadpool.next r.kind s.pool a).client .deleter = _
      rw [hmove]
      exact Function.update_of_ne (show Party.deleter ≠ Party.wrapper from nofun) _ _
    · have hnext : wrapperRank (next r s (.pool a)) = 2 + setRank q := by
        show wrapperRank (s.poolStep r a) = _
        unfold wrapperRank State.poolStep
        simp only [hthread, hw, hmove, Function.update_self]
        rw [if_pos hrun]
      rw [hnext, hrank]
      omega
  cases hpc : s.pool.client .wrapper with
  | idle =>
    refine ⟨.rearmed, ⟨hw, hpc⟩, rfl, rfl, ?_⟩
    have hnext : wrapperRank (next r s .rearmed) = 1 := if_pos hrun
    rw [hnext, hrank]
    omega
  | setLock arg =>
    -- the others are blocked or outside their sections, so the lock is free
    have hfree : s.pool.lock = none := lock_free h hlock hrun hblocked (by rw [hpc]; rfl)
    apply hstep (a := .setLock .wrapper arg) (q := .setRead arg) ⟨rfl, hpc, hfree⟩ rfl rfl
    rw [hpc]
    exact Nat.lt_succ_self _
  | setRead arg =>
    apply hstep (a := .setRead .wrapper arg) (q := .setWrite arg s.pool.flags) ⟨rfl, hpc⟩ rfl rfl
    rw [hpc]
    exact Nat.lt_succ_self _
  | setWrite arg snapshot =>
    cases arg with
    | none =>
      apply hstep (a := .setWrite .wrapper none snapshot) (q := .setSignal none) ⟨rfl, hpc⟩ rfl rfl
      rw [hpc]
      simp [setRank, ClientPc.sectionRank]
    | some arg =>
      apply hstep (a := .setWrite .wrapper (some arg) snapshot) (q := .freshRead arg) ⟨rfl, hpc⟩
        rfl rfl
      rw [hpc]
      exact Nat.lt_succ_self _
  | freshRead arg =>
    apply hstep (a := .freshRead .wrapper arg) (q := .freshWrite arg s.pool.flags) ⟨rfl, hpc⟩
      rfl rfl
    rw [hpc]
    exact Nat.lt_succ_self _
  | freshWrite arg snapshot =>
    apply hstep (a := .freshWrite .wrapper arg snapshot) (q := .setSignal (some arg)) ⟨rfl, hpc⟩
      rfl rfl
    rw [hpc]
    exact Nat.lt_succ_self _
  | setSignal arg =>
    apply hstep (a := .setSignal .wrapper arg) (q := .setRelease arg) ⟨rfl, hpc⟩ rfl rfl
    rw [hpc]
    exact Nat.lt_succ_self _
  | setRelease arg =>
    apply hstep (a := .setRelease .wrapper arg) (q := .idle) ⟨rfl, hpc⟩ rfl rfl
    rw [hpc]
    exact Nat.lt_succ_self _
  | _ =>
    rw [hpc] at hsets
    cases hsets

/-- While it runs the wrapper has a step. -/
theorem wrapper_advances (h : Inv s) (hlock : LockExact s.pool)
    (hsets : sets (s.pool.client .wrapper) = true) (hrun : runsCallback s.pool.thread = true)
    (hblocked : blocked (s.pool.client .deleter) = true) (hown : s.fromCallback = false) :
    ∃ a, Advances r s a := by
  cases hw : s.wrapper with
  | idle =>
    refine ⟨.enter, ⟨hw, hrun⟩, rfl, rfl, ?_⟩
    simp only [next, State.enter, State.touch, wrapperRank, hrun, hw, if_true]
    cases s.record.magic <;> simp
  | call =>
    refine ⟨.callUser, hw, rfl, rfl, ?_⟩
    simp [next, State.callUser, State.touch, wrapperRank, hrun, hw]
  | user =>
    refine ⟨.userReturns, ⟨hw, fun heq => ?_⟩, rfl, rfl, ?_⟩
    · cases hown.symm.trans heq
    · simp only [next, State.userReturns, wrapperRank, hrun, hw, if_true]
      cases r.rearms <;> simp
  | test =>
    refine ⟨.test, hw, rfl, rfl, ?_⟩
    simp only [next, State.test, State.touch, wrapperRank, hrun, hw, if_true]
    cases s.record.executeOnlyOnce || s.record.deleteRequested <;> simp
  | rearm =>
    refine ⟨.rearm false, ⟨hw, h.wrapper (by rw [hw]; nofun)⟩, rfl, rfl, ?_⟩
    simp [next, State.rearm, State.touch, wrapperRank, hrun, hw]
  | rearming => exact rearming_advances h hlock hsets hrun hblocked hw
  | done =>
    cases hpc : s.pool.thread with
    | callback status =>
      refine ⟨.leave status, ⟨hw, hpc⟩, rfl, rfl, ?_⟩
      simp [next, State.leave, State.poolStep, Threadpool.next, State.threadTo, wrapperRank, hw,
        runsCallback, hpc]
    | _ =>
      rw [hpc] at hrun
      cases hrun

/-- The delete routine is called from another thread, and waits. -/
structure WaitsOutside (r : Routines S A) (s : State S A) : Prop where
  reachable : (legacy r).Reachable Always s
  outside : s.fromCallback = false
  blocked : blocked (s.pool.client .deleter) = true

/-- The callback may end while it waits. -/
theorem callback_ends (h : WaitsOutside r s) :
    ∃ s', (legacy r).Path Always s s' ∧ WaitsOutside r s' ∧
      runsCallback s'.pool.thread = false := by
  apply System.exists_path_of_rank wrapperRank _ h
  intro s h hrun
  have hrun : runsCallback s.pool.thread = true := by simpa using hrun
  have hpool := pool_reachable h.reachable
  obtain ⟨a, ha⟩ := wrapper_advances (r := r) (inv_of_reachable s h.reachable)
    (lockExact_of_reachable r.kind s.pool hpool)
    ((objectOk_of_reachable s.pool hpool).roles .wrapper nofun) hrun h.blocked h.outside
  refine ⟨a, ha.enabled, trivial, ⟨h.reachable.step ha.enabled trivial, ?_, ?_⟩, ha.rank⟩
  · exact ha.fromCallback.trans h.outside
  · rw [show ((legacy r).next s a).pool.client .deleter = s.pool.client .deleter from ha.deleter]
    exact h.blocked

/-! ## Who waits for itself -/

/-- The record is deleted once. -/
theorem fromCallback_step (h : Inv s) {a : Action S A} (hen : Enabled r s a)
    (hown : s.fromCallback = true) : (next r s a).fromCallback = true := by
  cases a with
  | delete fromCallback => cases (h.called hen.1).symm.trans hown
  | rearm accepted =>
    simp only [next, State.rearm]
    split
    · exact hown
    · exact hown
  | _ => exact hown

theorem fromCallback_path (hreach : (legacy r).Reachable Always s) (hown : s.fromCallback = true)
    (hpath : (legacy r).Path Always s s') : s'.fromCallback = true := by
  induction hpath with
  | refl => exact hown
  | tail hprev hlast ih =>
    obtain ⟨a, hen, -, rfl⟩ := hlast
    exact fromCallback_step (inv_of_reachable _ (hreach.path hprev)) hen ih

/-- A callback that waits for itself runs for ever. -/
theorem endsAfterReturn_of_own (hreach : (legacy r).Reachable Always s)
    (hown : s.fromCallback = true) : EndsAfterReturn r s := by
  have hrun {s' : State S A} (hpath : (legacy r).Path Always s s') :
      runsCallback s'.pool.thread = true := by
    have hinv := inv_of_reachable s' (hreach.path hpath)
    apply hinv.running
    rw [(hinv.held (fromCallback_path hreach hown hpath)).1]
    nofun
  refine ⟨hrun Relation.ReflTransGen.refl, fun s' hpath hends => ?_⟩
  rw [hrun hpath] at hends
  cases hends

/-- A state is safe unless the callback deletes its own record and waits. -/
theorem safe_iff (hreach : (legacy r).Reachable Always s) :
    Safe r s ↔ ¬ (s.fromCallback = true ∧ s.Waits) := by
  have hinv := inv_of_reachable s hreach
  constructor
  · rintro hsafe ⟨hown, hwaits⟩
    exact hsafe.waits ⟨hwaits, endsAfterReturn_of_own hreach hown⟩
  · intro hnot
    refine ⟨?_, hinv.prompt, hinv.sound⟩
    rintro ⟨hwaits, -, hends⟩
    have houtside : s.fromCallback = false := by
      cases hown : s.fromCallback with
      | false => rfl
      | true => exact absurd ⟨hown, hwaits⟩ hnot
    obtain ⟨s', hpath, hw, hstops⟩ := callback_ends ⟨hreach, houtside, hwaits.blocked⟩
    exact ((inv_of_reachable s' hw.reachable).waiting hw.blocked).2 (hends s' hpath hstops)

/-- The callback deletes no record in these runs. -/
theorem outside_of_reachable : ∀ s, (legacy r).Reachable External s → s.fromCallback = false := by
  apply System.Reachable.invariant
  · rintro s ⟨arming, executeOnlyOnce, rfl⟩
    rfl
  · intro s a h hen hg
    cases a with
    | delete fromCallback => exact hg
    | rearm accepted =>
      show (s.rearm r accepted).fromCallback = false
      unfold State.rearm
      split
      · exact h
      · exact h
    | _ => exact h

theorem safe_of_external (hreach : (legacy r).Reachable External s) : Safe r s := by
  rw [safe_iff (hreach.mono fun _ _ _ => trivial)]
  rintro ⟨hown, -⟩
  rw [outside_of_reachable s hreach] at hown
  cases hown

/-! ## Timers and waits -/

/-- Of the records of both kinds: in runs in which the callback does not delete its own record
every state is safe. In all runs a state is safe unless the callback has begun to delete its own
record and waits. -/
theorem records_are_released (r : Routines S A) (s : State S A)
    (hreach : (legacy r).Reachable Always s) :
    ((legacy r).Reachable External s → Safe r s) ∧
      (Safe r s ↔ ¬ (s.fromCallback = true ∧ s.Waits)) :=
  ⟨safe_of_external, safe_iff hreach⟩

/-- Steps of the object. -/
def poolSteps (as : List (Threadpool.Action S A Party)) : List (Action S A) := as.map .pool

/-- The object is armed by the create routine. -/
def createRun (arming : A) : List (Action S A) :=
  .arm :: poolSteps (armRun Party.creator arming ⟨false, false, false, false⟩
    ⟨false, false, true, false⟩).tail

/-- The delete routine, up to the wait for the event. The object's flags are `word`. -/
def deleteRun (r : Routines S A) (fromCallback : Bool) (word : Flags) : List (Action S A) :=
  .delete fromCallback :: .check :: (if r.rearms then [.request] else []) ++
    .disarm :: poolSteps [.setLock .deleter none, .setRead .deleter none,
      .setWrite .deleter none word, .setSignal .deleter none, .setRelease .deleter none] ++
    .waitCallbacks :: poolSteps [.waitReference .deleter true, .waitCancel .deleter,
      .waitSignal .deleter]

/-- The rest of it. The thread, which has not begun, terminates. -/
def closeRun (r : Routines S A) : List (Action S A) :=
  poolSteps [.waitEvent .deleter true, .waitClearCancel .deleter, .waitDereference .deleter] ++
    .close :: poolSteps [.closeOr .deleter false, .closeSignal .deleter false false,
      .closeHandle .deleter false false, .top, .exitDereference, .closeWait .deleter,
      .closeZwClose .deleter true] ++
    poolSteps (if r.kind.unsetsOnClose then [.closeLock .deleter, .closeRead .deleter,
      .closeWrite .deleter ⟨true, false, false, false⟩] else []) ++
    [.pool (.closeDereference .deleter), .clearMagic, .free]

/-- A timer and a wait are deleted from another thread. -/
def outsideRun (r : Routines S A) (arming : A) : List (Action S A) :=
  createRun arming ++ deleteRun r false ⟨false, false, true, false⟩ ++ closeRun r

/-- The state it ends in. -/
def outsideEnd (r : Routines S A) (arming : A) : State S A :=
  (legacy r).exec (initialState r arming false) (outsideRun r arming)

theorem deleted_records_are_safe :
    ((outsideEnd timerQueueTimer ⟨-10000, 0, 0⟩).deleter = .returned ∧
      Safe timerQueueTimer (outsideEnd timerQueueTimer ⟨-10000, 0, 0⟩)) ∧
    (outsideEnd registeredWait ⟨0, none⟩).deleter = .returned ∧
      Safe registeredWait (outsideEnd registeredWait ⟨0, none⟩) := by
  have htimer : (legacy timerQueueTimer).Admits External
      (initialState timerQueueTimer ⟨-10000, 0, 0⟩ false)
      (outsideRun timerQueueTimer ⟨-10000, 0, 0⟩) := by decide +kernel
  have hwait : (legacy registeredWait).Admits External
      (initialState registeredWait ⟨0, none⟩ false) (outsideRun registeredWait ⟨0, none⟩) := by
    decide +kernel
  have hreach : (legacy timerQueueTimer).Reachable External _ :=
    System.reachable_exec _ _ ⟨_, _, rfl⟩ htimer
  have hreach' : (legacy registeredWait).Reachable External _ :=
    System.reachable_exec _ _ ⟨_, _, rfl⟩ hwait
  refine ⟨⟨by decide +kernel, ?_⟩, by decide +kernel, ?_⟩
  · exact (records_are_released _ _ (hreach.mono fun _ _ _ => trivial)).1 hreach
  · exact (records_are_released _ _ (hreach'.mono fun _ _ _ => trivial)).1 hreach'

/-- What the object waits for is due, and the callback of the user runs. -/
def dueRun (copy : S) (status : WaitStatus) : List (Action S A) :=
  poolSteps [.top, .control, .top, .elapse copy status, .expire copy status, .markRead status,
    .markWrite ⟨false, false, true, false⟩ status, .test status, .reference status, .count status,
    .resetEvent status] ++ [.enter, .callUser]

/-- The callback deletes its own record. -/
def ownRun (r : Routines S A) (arming : A) (copy : S) (status : WaitStatus) (word : Flags) :
    List (Action S A) :=
  createRun arming ++ dueRun copy status ++ deleteRun r true word

/-- The callback of a timer, or of a wait, that deletes its own record waits for itself. -/
theorem callback_waits_for_itself :
    (¬ ∀ s, (legacy timerQueueTimer).Reachable Always s → Safe timerQueueTimer s) ∧
    ¬ ∀ s, (legacy registeredWait).Reachable Always s → Safe registeredWait s := by
  constructor
  · intro hall
    have hadmits : (legacy timerQueueTimer).Admits Always
        (initialState timerQueueTimer ⟨-10000, 0, 0⟩ false)
        (ownRun timerQueueTimer ⟨-10000, 0, 0⟩ ⟨-10000, 0, 0⟩ .timeout
          ⟨false, false, true, true⟩) := by decide +kernel
    have hreach : (legacy timerQueueTimer).Reachable Always _ :=
      System.reachable_exec _ _ ⟨_, _, rfl⟩ hadmits
    exact (safe_iff hreach).1 (hall _ hreach) ⟨by decide +kernel, .inl ⟨true, by decide +kernel, by decide +kernel⟩⟩
  · intro hall
    have hadmits : (legacy registeredWait).Admits Always
        (initialState registeredWait ⟨0, none⟩ false)
        (ownRun registeredWait ⟨0, none⟩ ⟨some 0, 0, false⟩ .object
          ⟨false, false, false, false⟩) := by decide +kernel
    have hreach : (legacy registeredWait).Reachable Always _ :=
      System.reachable_exec _ _ ⟨_, _, rfl⟩ hadmits
    exact (safe_iff hreach).1 (hall _ hreach) ⟨by decide +kernel, .inl ⟨true, by decide +kernel, by decide +kernel⟩⟩

end Ldk.Threadpool.Legacy
