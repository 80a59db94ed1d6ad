import Ldk.Threadpool.Disarm

/-!
# Re-arming timers

The thread of a timer copies `DueTime` and `Period` under the lock, waits without it, and after a
timeout takes the lock again and acts on the copies. A `SetThreadpoolTimer` that comes in between
is overwritten by the expiry of the setting before it.

- `TimelySet`: no arming call takes the lock between a timeout and the expiry section, and no wait
  times out while an arming call is on its way to its `KeSetEvent`.
- `Installed`: what the caller of `SetThreadpoolTimer` relies on.
- `rearm_is_kept`: then a setting stays in place until a wait for it has timed out.
- `lost_rearm`: runs in which the expiry of an earlier setting expires or overwrites the new one.
-/

namespace Ldk.Threadpool.Timer

open TransitionSystem

variable {C : Type} [DecidableEq C]

/-- The expiry that the thread is about to carry out, if any, would put `DueTime` to what it is
already. -/
def Agrees (dueTime : Int) : ThreadPc Settings → Prop
  | .expire copy _ => copy.period ≠ 0 ∧ -((copy.period : Int) * 10000) = dueTime
  | _ => True

instance (dueTime : Int) (p : ThreadPc Settings) : Decidable (Agrees dueTime p) := by
  cases p <;> unfold Agrees <;> infer_instance

/-- The lock is held by an arming call. -/
def ArmingOwner (s : State Settings Settings C) : Prop :=
  match s.lock with
  | some (.client c) => (s.client c).arming = true
  | _ => False

instance (s : State Settings Settings C) : Decidable (ArmingOwner s) := by
  unfold ArmingOwner; split <;> infer_instance

/-- An arming call does not take the lock between a timeout and its expiry section, and no wait
times out while an arming call holds the lock, unless the expiry is that of a periodic setting
whose period is the new due time. -/
def TimelySet (s : State Settings Settings C) : Action Settings Settings C → Prop
  | .setLock _ (some arg) => Agrees arg.dueTime s.thread
  | .elapse copy status => ArmingOwner s → Agrees s.settings.dueTime (.expire copy status)
  | _ => True

instance (s : State Settings Settings C) (a : Action Settings Settings C) :
    Decidable (TimelySet s a) := by
  unfold TimelySet; split <;> infer_instance

/-! ## A setting in place -/

/-- The setting is in place: stored, set and not expired. -/
def Installed (s : State Settings Settings C) (arg : Settings) : Prop :=
  s.settings = arg ∧ s.flags.set = true ∧ s.flags.expired = false

/-- A wait with the settings from before is about to be woken. -/
def Woken (s : State Settings Settings C) : Prop :=
  ∀ copy, s.thread = .wait copy → s.copied = false → s.controlEvent = true

/-- What an arming call that holds the lock has achieved. -/
def Achieved (s : State Settings Settings C) : ClientPc Settings → Prop
  | .setRead (some arg) | .setWrite (some arg) _ => s.settings = arg ∧ Agrees arg.dueTime s.thread
  | .freshRead arg => (s.settings = arg ∧ Agrees arg.dueTime s.thread) ∧ s.flags.set = true
  | .freshWrite arg snapshot =>
    (s.settings = arg ∧ Agrees arg.dueTime s.thread) ∧ snapshot.set = true
  | .setSignal (some arg) => Installed s arg ∧ Agrees arg.dueTime s.thread
  | .setRelease (some arg) => Installed s arg ∧ Agrees arg.dueTime s.thread ∧ Woken s
  | _ => True

/-- The section of `LdkpCloseThreadpoolWaitInternal`, which timers do not have. -/
def unsetting : ClientPc Settings → Bool
  | .closeLock | .closeRead | .closeWrite _ => true
  | _ => false

/-- The last setting stays in place until a wait for it has ended. -/
structure Kept (s : State Settings Settings C) : Prop where
  owner : ∀ c, s.lock = some (.client c) → Achieved s (s.client c) ∧ s.current = none
  current : ∀ arg, s.current = some arg → s.elapsed = false →
    Installed s arg ∧ Agrees arg.dueTime s.thread ∧ Woken s ∧ s.thread.inSection = false
  unsets : ∀ c, unsetting (s.client c) = false

/-- A step leaves the setting alone and wakes whom the step before would have woken. -/
structure Frame (s s' : State Settings Settings C) : Prop where
  settings : s'.settings = s.settings
  set : s'.flags.set = s.flags.set
  expired : s'.flags.expired = s.flags.expired
  lock : s'.lock = s.lock
  current : s'.current = s.current
  elapsed : s'.elapsed = s.elapsed
  woken : Woken s → Woken s'

section Frames

variable {s s' : State Settings Settings C}

omit [DecidableEq C] in
theorem Frame.installed (h : Frame s s') {arg : Settings} (hin : Installed s arg) :
    Installed s' arg :=
  ⟨h.settings.trans hin.1, h.set.trans hin.2.1, h.expired.trans hin.2.2⟩

omit [DecidableEq C] in
theorem Frame.achieved (h : Frame s s') {p : ClientPc Settings} (hp : Achieved s p)
    (hagrees : p.arming = true → Agrees s.settings.dueTime s.thread →
      Agrees s.settings.dueTime s'.thread) : Achieved s' p := by
  cases p with
  | setRead arg | setWrite arg snapshot =>
    cases arg with
    | none => trivial
    | some arg =>
      obtain ⟨rfl, hbefore⟩ := hp
      exact ⟨h.settings, hagrees rfl hbefore⟩
  | freshRead arg =>
    obtain ⟨⟨rfl, hbefore⟩, hset⟩ := hp
    exact ⟨⟨h.settings, hagrees rfl hbefore⟩, h.set.trans hset⟩
  | freshWrite arg snapshot =>
    obtain ⟨⟨rfl, hbefore⟩, hset⟩ := hp
    exact ⟨⟨h.settings, hagrees rfl hbefore⟩, hset⟩
  | setSignal arg =>
    cases arg with
    | none => trivial
    | some arg =>
      obtain ⟨hin, hbefore⟩ := hp
      obtain rfl := hin.1
      exact ⟨h.installed hin, hagrees rfl hbefore⟩
  | setRelease arg =>
    cases arg with
    | none => trivial
    | some arg =>
      obtain ⟨hin, hbefore, hwoken⟩ := hp
      obtain rfl := hin.1
      exact ⟨h.installed hin, hagrees rfl hbefore, h.woken hwoken⟩
  | _ => trivial

omit [DecidableEq C] in
/-- A thread step outside the sections of the thread that ends no wait. -/
theorem Kept.threadMove (h : Kept s) (hframe : Frame s s') (hclient : s'.client = s.client)
    (hagrees : ∀ dueTime, Agrees dueTime s'.thread) (hsection : s'.thread.inSection = false) :
    Kept s' := by
  refine ⟨fun c hown => ?_, fun arg hcurrent helapsed => ?_, fun c => ?_⟩
  · obtain ⟨hachieved, hnone⟩ := h.owner c (hframe.lock ▸ hown)
    rw [hclient]
    exact ⟨hframe.achieved hachieved (fun _ _ => hagrees _), hframe.current.trans hnone⟩
  · obtain ⟨hin, -, hwoken, -⟩ := h.current arg (hframe.current ▸ hcurrent)
      (hframe.elapsed ▸ helapsed)
    exact ⟨hframe.installed hin, hagrees _, hframe.woken hwoken, hsection⟩
  · rw [hclient]; exact h.unsets c

/-- A client step outside the lock. -/
theorem Kept.clientMove (h : Kept s) (hlock : LockExact s) (hframe : Frame s s') {c : C}
    {p q : ClientPc Settings} (hpc : s.client c = q) (hout : q.inSection = false)
    (hmove : s'.client = Function.update s.client c p) (hunset : unsetting p = false)
    (hthread : s'.thread = s.thread) : Kept s' := by
  refine ⟨fun d hown => ?_, fun arg hcurrent helapsed => ?_, fun d => ?_⟩
  · rw [hframe.lock] at hown
    have hd : d ≠ c := by
      rintro rfl
      have hin := (hlock.client d).mp hown
      rw [hpc, hout] at hin; cases hin
    obtain ⟨hachieved, hnone⟩ := h.owner d hown
    rw [hmove, Function.update_of_ne hd]
    exact ⟨hframe.achieved hachieved (fun _ => by rw [hthread]; exact id),
      hframe.current.trans hnone⟩
  · obtain ⟨hin, hbefore, hwoken, hsection⟩ := h.current arg (hframe.current ▸ hcurrent)
      (hframe.elapsed ▸ helapsed)
    rw [hthread]
    exact ⟨hframe.installed hin, hbefore, hframe.woken hwoken, hsection⟩
  · rw [hmove]
    by_cases hd : d = c
    · subst hd; rw [Function.update_self]; exact hunset
    · rw [Function.update_of_ne hd]; exact h.unsets d

/-- A step of an arming or disarming call that holds the lock afterwards. -/
theorem Kept.ownerMove (h : Kept s) {c : C} {p : ClientPc Settings}
    (hmove : s'.client = Function.update s.client c p) (hown : s'.lock = some (.client c))
    (hachieved : Achieved s' p) (hnone : s'.current = none) (hunset : unsetting p = false) :
    Kept s' := by
  refine ⟨fun d hd => ?_, fun arg hcurrent => ?_, fun d => ?_⟩
  · obtain rfl : c = d := by
      rw [hown] at hd
      exact Owner.client.inj (Option.some.inj hd)
    rw [hmove, Function.update_self]
    exact ⟨hachieved, hnone⟩
  · rw [hnone] at hcurrent; cases hcurrent
  · rw [hmove]
    by_cases hd : d = c
    · subst hd; rw [Function.update_self]; exact hunset
    · rw [Function.update_of_ne hd]; exact h.unsets d

omit [DecidableEq C] in
/-- A client in a section owns the lock. -/
theorem Kept.of_section (h : Kept s) (hlock : LockExact s) {c : C} {p : ClientPc Settings}
    (hpc : s.client c = p) (hin : p.inSection = true) :
    s.lock = some (.client c) ∧ Achieved s p ∧ s.current = none := by
  have hown : s.lock = some (.client c) := (hlock.client c).mpr (by rw [hpc]; exact hin)
  exact ⟨hown, hpc ▸ (h.owner c hown).1, (h.owner c hown).2⟩

end Frames

/-- An expiry that agrees with the settings is that of a periodic setting. -/
theorem not_marks_of_agrees {dueTime : Int} {copy : Settings} {status : WaitStatus}
    (h : Agrees dueTime (.expire copy status)) : kind.marks copy = false :=
  decide_eq_false h.1

/-- An expiry that agrees with the settings stores the due time that is there. -/
theorem reload_of_agrees {settings copy : Settings} {status : WaitStatus}
    (h : Agrees settings.dueTime (.expire copy status)) : kind.reload copy settings = settings := by
  show ({ settings with dueTime := -((copy.period : Int) * 10000) } : Settings) = settings
  rw [h.2]

/-! ## Steps -/

theorem kept_step (s : State Settings Settings C) (a : Action Settings Settings C)
    (hlock : LockExact s) (h : Kept s) (hen : Enabled kind s a) (htimely : TimelySet s a) :
    Kept (next kind s a) := by
  cases a with
  | top =>
    have hfree : s.lock = none := hen.2
    simp only [next, State.top]
    split_ifs
    · exact h.threadMove ⟨rfl, rfl, rfl, rfl, rfl, rfl, fun _ _ => (by rintro ⟨⟩)⟩ rfl
        (fun _ => trivial) rfl
    · exact h.threadMove ⟨rfl, rfl, rfl, rfl, rfl, rfl, fun _ _ => (by rintro ⟨⟩)⟩ rfl
        (fun _ => trivial) rfl
    · -- the wait that begins is one for the settings in place
      exact h.threadMove ⟨rfl, rfl, rfl, rfl, rfl, rfl, fun _ _ _ => (by simp)⟩ rfl
        (fun _ => trivial) rfl
  | elapse copy status =>
    obtain ⟨hpc, helapses⟩ := hen
    obtain ⟨rfl, hcontrol⟩ : status = .timeout ∧ s.controlEvent = false := by
      simpa [kind] using helapses
    refine ⟨fun c hown => ?_, fun arg hcurrent helapsed => ?_, h.unsets⟩
    · obtain ⟨hachieved, hnone⟩ := h.owner c hown
      have hframe : Frame s { s with thread := .expire copy .timeout } :=
        ⟨rfl, rfl, rfl, rfl, rfl, rfl, fun _ _ => (by simp)⟩
      refine ⟨hframe.achieved hachieved (fun harming _ => htimely ?_), hnone⟩
      have hown' : s.lock = some (.client c) := hown
      simp only [ArmingOwner, hown']
      exact harming
    · -- a wait for settings from before would have been woken
      have hfresh : s.elapsed = false ∧ s.copied = false := by
        simpa [next, State.elapse] using helapsed
      obtain ⟨-, -, hwoken, -⟩ := h.current arg hcurrent hfresh.1
      rw [hwoken copy hpc hfresh.2] at hcontrol
      cases hcontrol
  | expire copy status =>
    obtain ⟨hpc, hfree⟩ := hen
    simp only [next, State.expire]
    split_ifs with hgone hmarks
    · exact h.threadMove ⟨rfl, rfl, rfl, rfl, rfl, rfl, fun _ _ => (by rintro ⟨⟩)⟩ rfl
        (fun _ => trivial) rfl
    · -- a one-shot setting from before does not get here
      refine ⟨by simp, fun arg hcurrent helapsed => ?_, h.unsets⟩
      obtain ⟨-, hbefore, -, -⟩ := h.current arg hcurrent helapsed
      rw [hpc] at hbefore
      rw [not_marks_of_agrees hbefore] at hmarks
      cases hmarks
    · -- a periodic setting from before stores the due time that is there
      refine ⟨fun c hown => ?_, fun arg hcurrent helapsed => ?_, h.unsets⟩
      · have hown' : s.lock = some (.client c) := hown
        rw [hfree] at hown'; cases hown'
      · obtain ⟨hin, hbefore, -, -⟩ := h.current arg hcurrent helapsed
        rw [hpc] at hbefore
        obtain rfl := hin.1
        exact ⟨⟨reload_of_agrees hbefore, hin.2⟩, trivial, fun _ => (by rintro ⟨⟩), rfl⟩
  | control | reference | count | resetEvent | endCallback | clearCancel | setEvent | dereference
  | exitDereference =>
    exact h.threadMove ⟨rfl, rfl, rfl, rfl, rfl, rfl, fun _ _ hc => by cases hc⟩ rfl
      (fun _ => trivial) rfl
  | test status =>
    simp only [next, State.test]
    split <;> exact h.threadMove ⟨rfl, rfl, rfl, rfl, rfl,
      rfl, fun _ _ => (by intros; contradiction)⟩ rfl (fun _ => trivial) rfl
  | complete =>
    simp only [next, State.complete]
    split <;> exact h.threadMove ⟨rfl, rfl, rfl, rfl, rfl,
      rfl, fun _ _ => (by intros; contradiction)⟩ rfl (fun _ => trivial) rfl
  | markRead status =>
    have hpc : s.thread = .markRead status := hen
    -- the thread is in its section, so no client owns the lock
    have hin : s.thread.inSection = true := by rw [hpc]; rfl
    refine ⟨fun c hown => ?_, fun arg hcurrent helapsed => ?_, h.unsets⟩
    · have hown' : s.lock = some (.client c) := hown
      rw [hlock.thread.mpr hin] at hown'; cases hown'
    · have hout := (h.current arg hcurrent helapsed).2.2.2
      rw [hin] at hout; cases hout
  | markWrite snapshot status =>
    have hpc : s.thread = .markWrite snapshot status := hen
    refine ⟨by intros; contradiction, fun arg hcurrent helapsed => ?_, h.unsets⟩
    have hout := (h.current arg hcurrent helapsed).2.2.2
    rw [hpc] at hout; cases hout
  | callSet | callWait | callClose | waitCancel | waitClearCancel | waitDereference | closeOr
  | closeDereference =>
    exact h.clientMove hlock ⟨rfl, rfl, rfl, rfl, rfl, rfl, id⟩ hen rfl rfl rfl rfl
  | waitSignal | closeSignal =>
    exact h.clientMove hlock ⟨rfl, rfl, rfl, rfl, rfl, rfl, fun _ _ _ _ => rfl⟩ hen rfl rfl rfl rfl
  | waitReference c fCancel =>
    refine h.clientMove (p := if s.referenceCount + 1 ≤ 1 then .idle
      else if fCancel then .waitCancel else .waitEvent false) hlock
      ⟨rfl, rfl, rfl, rfl, rfl, rfl, id⟩ hen rfl rfl ?_ rfl
    split_ifs <;> rfl
  | waitEvent c fCancel =>
    refine h.clientMove (p := if fCancel then .waitClearCancel else .waitDereference) hlock
      ⟨rfl, rfl, rfl, rfl, rfl, rfl, id⟩ hen.1 rfl rfl ?_ rfl
    split <;> rfl
  | closeHandle c previous fromCallback =>
    refine h.clientMove (p := if !previous && s.threadHandle && !fromCallback then .closeWait
      else .closeZwClose s.threadHandle) hlock ⟨rfl, rfl, rfl, rfl, rfl, rfl, id⟩ hen rfl rfl ?_ rfl
    split <;> rfl
  | closeWait c =>
    exact h.clientMove hlock ⟨rfl, rfl, rfl, rfl, rfl, rfl, id⟩ hen.1 rfl rfl rfl rfl
  | closeZwClose c handle =>
    exact h.clientMove hlock ⟨rfl, rfl, rfl, rfl, rfl, rfl, id⟩ hen rfl rfl rfl rfl
  | setLock c arg =>
    refine h.ownerMove rfl rfl ?_ rfl rfl
    cases arg with
    | none => trivial
    | some arg => exact ⟨rfl, htimely⟩
  | setRead c arg =>
    obtain ⟨hown, hachieved, hnone⟩ := h.of_section hlock hen rfl
    refine h.ownerMove rfl hown ?_ hnone rfl
    cases arg with
    | none => trivial
    | some arg => exact hachieved
  | setWrite c arg snapshot =>
    obtain ⟨hown, hachieved, hnone⟩ := h.of_section hlock hen rfl
    cases arg with
    | none => exact h.ownerMove rfl hown trivial hnone rfl
    | some arg => exact h.ownerMove rfl hown ⟨hachieved, rfl⟩ hnone rfl
  | freshRead c arg =>
    obtain ⟨hown, hachieved, hnone⟩ := h.of_section hlock hen rfl
    exact h.ownerMove rfl hown hachieved hnone rfl
  | freshWrite c arg snapshot =>
    obtain ⟨hown, hachieved, hnone⟩ := h.of_section hlock hen rfl
    obtain ⟨⟨hsettings, hbefore⟩, hset⟩ := hachieved
    exact h.ownerMove rfl hown ⟨⟨hsettings, hset, rfl⟩, hbefore⟩ hnone rfl
  | setSignal c arg =>
    obtain ⟨hown, hachieved, hnone⟩ := h.of_section hlock hen rfl
    refine h.ownerMove rfl hown ?_ hnone rfl
    cases arg with
    | none => trivial
    | some arg => exact ⟨hachieved.1, hachieved.2, fun _ _ _ => rfl⟩
  | setRelease c arg =>
    obtain ⟨hown, hachieved, -⟩ := h.of_section hlock hen rfl
    refine ⟨by intros; contradiction, fun arg' hcurrent _ => ?_, fun d => ?_⟩
    · obtain rfl : arg = some arg' := hcurrent
      obtain ⟨hin, hbefore, hwoken⟩ := hachieved
      refine ⟨hin, hbefore, hwoken, ?_⟩
      -- the thread did not own the lock
      by_contra hsection
      have hthread : s.thread.inSection = true := Bool.of_not_eq_false hsection
      rw [hlock.thread.mpr hthread] at hown; cases hown
    · show unsetting (Function.update s.client c .idle d) = false
      by_cases hd : d = c
      · subst hd; rw [Function.update_self]; rfl
      · rw [Function.update_of_ne hd]; exact h.unsets d
  | closeLock c | closeRead c | closeWrite c =>
    -- no section of a close is entered while the object is unset
    have hunset := h.unsets c
    first
      | rw [(hen : s.client c = _)] at hunset; cases hunset
      | rw [hen.1] at hunset; cases hunset

theorem kept_of_reachable :
    ∀ s, (timer C).Reachable TimelySet s → Kept s := by
  refine System.Reachable.invariantUnder (lockExact_of_reachable kind) ?_
    (fun s a hlock h hen htimely => kept_step s a hlock h hen htimely)
  rintro s rfl
  exact ⟨nofun, nofun, fun _ => rfl⟩

/-! ## No setting is lost -/

/-- When arming calls do not overlap a timeout of the setting before, a setting stays in place
until a wait for it has timed out, and an expiry section entered before that changes nothing. -/
theorem rearm_is_kept (C : Type) [DecidableEq C] (s : State Settings Settings C)
    (hreach : (timer C).Reachable TimelySet s) (arg : Settings) (hcurrent : s.current = some arg)
    (helapsed : s.elapsed = false) :
    (s.settings = arg ∧ s.flags.set = true ∧ s.flags.expired = false) ∧
      ∀ copy status, (timer C).enabled s (.expire copy status) →
        ((timer C).next s (.expire copy status)).settings = s.settings ∧
          ((timer C).next s (.expire copy status)).flags = s.flags := by
  obtain ⟨hin, hbefore, -, -⟩ := (kept_of_reachable s hreach).current arg hcurrent helapsed
  refine ⟨hin, fun copy status hen => ?_⟩
  rw [hen.1, ← hin.1] at hbefore
  show (s.expire kind copy status).settings = s.settings ∧
    (s.expire kind copy status).flags = s.flags
  -- a timeout from before neither marks the flags nor stores settings
  simp only [State.expire, not_marks_of_agrees hbefore, reload_of_agrees hbefore]
  split_ifs <;> exact ⟨rfl, rfl⟩

/-! ## Runs -/

/-- `SetThreadpoolTimer` with a due time, from its first step to its last, over the words it
reads. -/
def rearmRun (arg : Settings) (word : Flags) : List (Action Settings Settings Unit) :=
  armRun () arg word { word with set := true }

/-- A timer is armed, its wait times out, and it is armed again before the thread has the lock. -/
def staleRun (arg rearm : Settings) : List (Action Settings Settings Unit) :=
  rearmRun arg ⟨false, false, false, false⟩ ++
    [.top, .control, .top, .elapse arg .timeout] ++
    rearmRun rearm ⟨false, false, true, false⟩

/-- The expiry of an earlier setting expires the new one, which then never comes due, or
overwrites its due time. -/
theorem lost_rearm :
    (∃ s, (timer Unit).Reachable Always s ∧ s.current = some ⟨-20000, 0, 0⟩ ∧ s.elapsed = false ∧
      s.flags.expired = true ∧ s.thread = .waitControl ∧ s.controlEvent = false) ∧
    ∃ s, (timer Unit).Reachable Always s ∧ s.current = some ⟨-20000, 0, 0⟩ ∧ s.elapsed = false ∧
      s.settings.dueTime = -50000 := by
  constructor
  · let run : List (Action Settings Settings Unit) :=
      staleRun ⟨-10000, 0, 0⟩ ⟨-20000, 0, 0⟩ ++
        [.expire ⟨-10000, 0, 0⟩ .timeout, .markRead .timeout,
          .markWrite ⟨false, false, true, false⟩ .timeout] ++
        callbackRun .timeout ++ [.top, .control, .top]
    refine ⟨(timer Unit).exec (initialState _ _ ⟨0, 0, 0⟩) run,
      System.reachable_exec _ run rfl (by decide), ?_⟩
    decide
  · let run : List (Action Settings Settings Unit) :=
      staleRun ⟨-10000, 5, 0⟩ ⟨-20000, 0, 0⟩ ++ [.expire ⟨-10000, 5, 0⟩ .timeout]
    refine ⟨(timer Unit).exec (initialState _ _ ⟨0, 0, 0⟩) run,
      System.reachable_exec _ run rfl (by decide), ?_⟩
    decide

/-- A timer is armed again while the thread waits, and the thread waits for the new setting. -/
def timelyRun : List (Action Settings Settings Unit) :=
  rearmRun ⟨-10000, 0, 0⟩ ⟨false, false, false, false⟩ ++ [.top, .control, .top] ++
    rearmRun ⟨-20000, 5, 0⟩ ⟨false, false, true, false⟩ ++ [.control, .top]

/-- The condition is met by such a run, and the new setting is in place. -/
theorem timely_rearm_is_kept :
    ((timer Unit).exec (initialState _ _ ⟨0, 0, 0⟩) timelyRun).settings = ⟨-20000, 5, 0⟩ := by
  have hadmits : (timer Unit).Admits TimelySet (initialState _ _ ⟨0, 0, 0⟩) timelyRun := by decide
  exact (rearm_is_kept Unit _ (System.reachable_exec _ _ rfl hadmits) ⟨-20000, 5, 0⟩ (by decide)
    (by decide)).1.1

end Ldk.Threadpool.Timer
