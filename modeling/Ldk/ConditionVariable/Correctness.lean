import Ldk.ConditionVariable.Wakes

/-!
# What a sleep on a condition variable returns

- `Consumes`: no sleep leaves the list because its time is up, and `RtlEnterCriticalSection` does
  not fail when a sleep calls it.
- `sleeps_match_wakes`: in every such run, wakes consume the waiters they owe a wake, these return
  `STATUS_SUCCESS`, `TRUE` is returned for them only, and the lock is held as before.
- `timed_out_sleep_returns_true`: `STATUS_TIMEOUT` is a success status, and a sleep that has timed
  out returns `TRUE`.
-/

namespace Ldk.ConditionVariable

open TransitionSystem

variable {σ ω κ : Type} [DecidableEq σ] [DecidableEq ω] [DecidableEq κ] {calls : Calls σ ω κ}

/-- A sleep whose wait has timed out has been collected by a wake; a critical section is entered
without a failure. -/
def Consumes (calls : Calls σ ω κ) (s : State σ ω) : Action σ ω → Prop
  | .leaveList w status => status = .timeout → (s.sleep w).woken = true
  | .relock w _ granted => calls.lock w = .criticalSection → granted = true
  | _ => True

instance Consumes.decidable (s : State σ ω) (a : Action σ ω) : Decidable (Consumes calls s a) := by
  rcases a <;> simp only [Consumes] <;> infer_instance

/-! ## What holds of the sleeps -/

/-- A sleep that has been called is in the list or has been woken; it returns with its lock. -/
structure Served (calls : Calls σ ω κ) (w : σ) (b : Sleep) : Prop where
  listed : b.stage ≠ .notCalled → b.inList = true ∨ b.woken = true
  returning : ∀ status, b.stage = .returning status → b.held = some (calls.lock w).mode
  returned : ∀ status result lastStatus, b.stage = .returned status result lastStatus →
    b.held = some (calls.lock w).mode

theorem served_step {s : State σ ω} {a : Action σ ω} (hsound : Sound calls s)
    (h : ∀ w, Served calls w (s.sleep w)) (hen : Enabled calls s a) (hguard : Consumes calls s a) :
    ∀ w, Served calls w ((next calls s a).sleep w) := by
  -- One sleep changes, and the new block is as good as the old one.
  have hone : ∀ {s' : State σ ω} {w b}, s'.sleep = Function.update s.sleep w b →
      Served calls w b → ∀ u, Served calls u (s'.sleep u) := by
    intro s' w b hs' hb u
    rw [hs']
    by_cases hu : u = w
    · rw [hu, Function.update_self]
      exact hb
    · rw [Function.update_of_ne hu]
      exact h u
  cases a with
  | callSleep w => exact hone rfl ⟨fun _ => .inl rfl, by simp, by simp⟩
  | unlock w =>
    have hlisted := (h w).listed (by simp [show (s.sleep w).stage = .unlocking from hen])
    exact hone rfl ⟨fun _ => hlisted, by simp, by simp⟩
  | satisfy w =>
    have hlisted := (h w).listed (by simp [hen.1])
    exact hone rfl ⟨fun _ => hlisted, by simp, by simp⟩
  | timeOut w =>
    have hlisted := (h w).listed (by simp [hen.1])
    exact hone rfl ⟨fun _ => hlisted, by simp, by simp⟩
  | leaveList w status =>
    have hstage : (s.sleep w).stage = .waited status := hen
    have hwoken : (s.sleep w).woken = true := by
      have hcons := hsound.sleeps w
      rw [Sleep.Consistent, hstage] at hcons
      cases status with
      | timeout => exact hguard rfl
      | success => exact hcons.2.2.1
      | _ => exact absurd hcons.1 (by simp)
    refine hone rfl ⟨fun _ => .inr hwoken, ?_, ?_⟩
    all_goals
      dsimp only
      split <;> simp
  | satisfyAgain w =>
    have hlisted := (h w).listed (by simp [hen.1])
    exact hone rfl ⟨fun _ => hlisted, by simp, by simp⟩
  | relock w status granted =>
    have hlisted := (h w).listed (by simp [show (s.sleep w).stage = .locking status from hen])
    have hgranted : ¬ (calls.lock w = .criticalSection ∧ ! granted) := by
      rintro ⟨hcs, hno⟩
      simp [hguard hcs] at hno
    refine hone rfl ⟨fun _ => hlisted, fun _ _ => if_neg hgranted, by simp⟩
  | returnSleep w status =>
    have hstage : (s.sleep w).stage = .returning status := hen
    have hlisted := (h w).listed (by simp [hstage])
    have hheld := (h w).returning status hstage
    simp only [next, State.returnSleep]
    split <;> exact hone rfl ⟨fun _ => hlisted, by simp, fun _ _ _ _ => hheld⟩
  | callWake k => exact h
  | collect k =>
    intro w
    simp only [next, State.collect]
    split
    · exact ⟨fun _ => .inr rfl, (h w).returning, (h w).returned⟩
    · exact h w
  | signal k waiters full =>
    cases waiters with
    | nil => exact h
    | cons w rest =>
      exact hone rfl ⟨(h w).listed, (h w).returning, (h w).returned⟩

theorem served_of_reachable :
    ∀ s, (conditionVariables calls).Reachable (Consumes calls) s →
      ∀ w, Served calls w (s.sleep w) := by
  apply System.Reachable.invariantUnder
  · intro s hs
    exact sound_of_reachable s (hs.mono fun _ _ _ => trivial)
  · intro s hinit w
    rw [show s = initialState calls from hinit]
    refine ⟨fun hcalled => absurd rfl hcalled, ?_, ?_⟩ <;> intros <;> contradiction
  · intro s a hsound h hen hguard
    exact served_step hsound h hen hguard

/-! ## A sleep that has been woken returns -/

/-- The signal of a waiter that has been collected comes. -/
theorem signal_path {s : State σ ω} {k : ω} {ws : List σ} {full : Bool} {w : σ}
    (hsound : Sound calls s) (hk : s.wake k = .signalling ws full) (hw : w ∈ ws) :
    ∃ s', (conditionVariables calls).Path (Consumes calls) s s' ∧ Sound calls s' ∧
      (s'.sleep w).woken = true ∧ (s'.sleep w).event = true := by
  induction ws generalizing s with
  | nil => cases hw
  | cons u rest ih =>
    have hnext : Sound calls (s.signal calls k (u :: rest) full) := hsound.signalOne hk
    have hpath : (conditionVariables calls).Path (Consumes calls) s
        (s.signal calls k (u :: rest) full) :=
      System.path_single (M := conditionVariables calls) (a := .signal k (u :: rest) full) hk
        trivial
    by_cases hu : w = u
    · subst hu
      refine ⟨_, hpath, hnext, ?_, ?_⟩
      · have hwok := ((hsound.pending k _ full hk).2 w (by simp)).1
        simpa [State.signal, State.gotoWake, State.setSleep] using hwok
      · simp [State.signal, State.gotoWake, State.setSleep]
    · obtain ⟨s', hrest, hs', hwok⟩ := ih hnext (Function.update_self _ _ _)
        ((List.mem_cons.mp hw).resolve_left hu)
      exact ⟨s', Relation.ReflTransGen.trans hpath hrest, hs', hwok⟩

/-- The steps a sleep still has to take. -/
def Stage.rank : Stage → Nat
  | .notCalled => 7
  | .unlocking => 6
  | .waiting => 5
  | .waited _ => 4
  | .waitingAgain => 3
  | .locking _ => 2
  | .returning _ => 1
  | .returned _ _ _ => 0

/-- The sleep has been woken, and signalled where it needs its signal. -/
structure Signalled (calls : Calls σ ω κ) (w : σ) (s : State σ ω) : Prop where
  sound : Sound calls s
  woken : (s.sleep w).woken = true
  event : (s.sleep w).stage.awaits = true → (s.sleep w).event = true

/-- A sleep that has been signalled takes its next step. -/
theorem Signalled.advance {w : σ} {s : State σ ω} (h : Signalled calls w s)
    (hstage : ∀ status result lastStatus, (s.sleep w).stage ≠ .returned status result lastStatus) :
    ∃ a, Enabled calls s a ∧ Consumes calls s a ∧ Signalled calls w (next calls s a) ∧
      ((next calls s a).sleep w).stage.rank < (s.sleep w).stage.rank := by
  have hcons := h.sound.sleeps w
  have hwok := h.woken
  have hevent := h.event
  -- It is enough that the step of the sleep is allowed and changes its block as it should.
  have hstep : ∀ a b, Enabled calls s a → Consumes calls s a → (next calls s a).sleep w = b →
      b.woken = true → (b.stage.awaits = true → b.event = true) →
      b.stage.rank < (s.sleep w).stage.rank →
      ∃ a, Enabled calls s a ∧ Consumes calls s a ∧ Signalled calls w (next calls s a) ∧
        ((next calls s a).sleep w).stage.rank < (s.sleep w).stage.rank := by
    rintro a b hen hguard rfl hwok' hevent' hrank
    exact ⟨a, hen, hguard, ⟨h.sound.step hen, hwok', hevent'⟩, hrank⟩
  unfold Sleep.Consistent at hcons
  obtain ⟨stage, hs⟩ : ∃ stage, (s.sleep w).stage = stage := ⟨_, rfl⟩
  cases stage with
  | notCalled => simp [hs, hwok] at hcons
  | unlocking =>
    apply hstep (.unlock w) _ hs trivial (Function.update_self _ _ _) hwok
    · exact fun _ => hevent (by rw [hs]; rfl)
    · simp [hs, Stage.rank]
  | waiting =>
    have hset := hevent (by rw [hs]; rfl)
    apply hstep (.satisfy w) _ ⟨hs, hset⟩ trivial (Function.update_self _ _ _) hwok
    · rintro ⟨⟩
    · simp [hs, Stage.rank]
  | waited status =>
    apply hstep (.leaveList w status) _ hs (fun _ => hwok) (Function.update_self _ _ _) hwok
    · dsimp only
      split
      · rename_i hagain
        intro _
        apply hevent
        rw [hs] at hcons ⊢
        cases status <;> simp_all [Stage.awaits]
      · rintro ⟨⟩
    · dsimp only
      split <;> simp [hs, Stage.rank]
  | waitingAgain =>
    have hset := hevent (by rw [hs]; rfl)
    apply hstep (.satisfyAgain w) _ ⟨hs, hset⟩ trivial (Function.update_self _ _ _) hwok
    · rintro ⟨⟩
    · simp [hs, Stage.rank]
  | locking status =>
    apply hstep (.relock w status true) _ hs (fun _ => rfl) (Function.update_self _ _ _) hwok
    · rintro ⟨⟩
    · simp [hs, Stage.rank]
  | returning status =>
    have hsuccess : status.ntSuccess = true := by
      simp only [hs, hwok, if_true] at hcons
      rw [hcons.2.2]
      rfl
    apply hstep (.returnSleep w status) { s.sleep w with stage := .returned status true none } hs
      trivial _ hwok
    · rintro ⟨⟩
    · simp [hs, Stage.rank]
    · simp only [next, State.returnSleep, hsuccess, if_true]
      exact Function.update_self _ _ _
  | returned status result lastStatus => exact absurd hs (hstage status result lastStatus)

/-- From wherever it is, a sleep that has been woken can return, and returns success. -/
theorem woken_sleep_returns {s : State σ ω} {w : σ} (hsound : Sound calls s)
    (hwoken : (s.sleep w).woken = true) :
    ∃ s', (conditionVariables calls).Path (Consumes calls) s s' ∧
      (s'.sleep w).stage = .returned .success true none := by
  have hsignalled : ∃ s', (conditionVariables calls).Path (Consumes calls) s s' ∧
      Signalled calls w s' := by
    by_cases hneeds : (s.sleep w).stage.awaits = true ∧ (s.sleep w).event = false
    · rcases hsound.reached w hwoken hneeds.1 with hevent | ⟨k, ws, full, hk, hin⟩
      · simp [hneeds.2] at hevent
      · obtain ⟨s', hpath, hs', hwok, hevent⟩ := signal_path hsound hk hin
        exact ⟨s', hpath, hs', hwok, fun _ => hevent⟩
    · refine ⟨s, Relation.ReflTransGen.refl, hsound, hwoken, fun hawaits => ?_⟩
      simpa [hawaits] using hneeds
  obtain ⟨s', hpath, hs'⟩ := hsignalled
  obtain ⟨s'', hpath', hs'', hend⟩ := @System.exists_path_of_rank _ _ (conditionVariables calls)
    (Consumes calls) (Signalled calls w)
    (fun s => ∃ status result lastStatus,
      (s.sleep w).stage = .returned status result lastStatus)
    (fun s => (s.sleep w).stage.rank)
    (fun s h hnot => h.advance fun status result lastStatus heq =>
      hnot ⟨status, result, lastStatus, heq⟩) s' hs'
  obtain ⟨status, result, lastStatus, hstage⟩ := hend
  refine ⟨s'', Relation.ReflTransGen.trans hpath hpath', ?_⟩
  have hcons := hs''.sound.sleeps w
  rw [Sleep.Consistent, hstage] at hcons
  obtain ⟨_, _, hstatus, rfl, rfl⟩ := hcons
  rw [hstage, hstatus, hs''.woken, if_pos rfl]

/-- In every run, a sleep returns what it should exactly when a wake has consumed it. -/
theorem result_matches_iff_woken {s : State σ ω} {w : σ} {status : NtStatus} {result : Bool}
    {lastStatus : Option NtStatus} (hs : (conditionVariables calls).Reachable Always s)
    (hstage : (s.sleep w).stage = .returned status result lastStatus) :
    (result = true ↔ (s.sleep w).woken = true) ↔ (s.sleep w).woken = true := by
  have hcons := (sound_of_reachable s hs).sleeps w
  rw [Sleep.Consistent, hstage] at hcons
  obtain ⟨_, _, _, rfl, _⟩ := hcons
  simp

/-! ## Sleeps and wakes -/

/-- What sleeps and wakes promise. -/
structure Matched (calls : Calls σ ω κ) (s : State σ ω) : Prop where
  /-- A wake of all waiters wakes those that were in the list when it was called. -/
  wakeAll : ∀ k, calls.wakeAll k = true → s.wake k = .returned → ∀ w ∈ s.owed k,
    (s.sleep w).woken = true ∧ w ∉ s.waitList
  /-- A wake wakes the oldest one. -/
  wakeOne : ∀ k, calls.wakeAll k = false → s.wake k = .returned → ∀ w,
    (s.owed k).head? = some w → (s.sleep w).woken = true ∧ w ∉ s.waitList
  success : ∀ w status result lastStatus, (s.sleep w).woken = true →
    (s.sleep w).stage = .returned status result lastStatus → status = .success
  woken_iff : ∀ w, (s.sleep w).woken = true ↔ ∃ k, w ∈ s.taken k
  ownVariable : ∀ k, ∀ w ∈ s.taken k, calls.sleepsOn w = calls.wakes k
  atMostOne : ∀ k, calls.wakeAll k = false → (s.taken k).length ≤ 1
  result_iff : ∀ w status result lastStatus,
    (s.sleep w).stage = .returned status result lastStatus →
      (result = true ↔ (s.sleep w).woken = true) ∧
        (result = false → lastStatus = some .timeout)
  relocked : ∀ w status result lastStatus,
    (s.sleep w).stage = .returned status result lastStatus →
      (s.sleep w).held = some (calls.lock w).mode

/-- As long as no sleep leaves the list because its time is up, and no critical section fails to be
entered, sleeps and wakes match; and a sleep that has been woken can return, with success. -/
theorem sleeps_match_wakes (s : State σ ω)
    (hs : (conditionVariables calls).Reachable (Consumes calls) s) :
    Matched calls s ∧ ∀ w, (s.sleep w).woken = true →
      ∃ s', (conditionVariables calls).Path (Consumes calls) s s' ∧
        (s'.sleep w).stage = .returned .success true none := by
  have h := sound_of_reachable s (hs.mono fun _ _ _ => trivial)
  have hserved := served_of_reachable s hs
  have hreturned : ∀ w status result lastStatus,
      (s.sleep w).stage = .returned status result lastStatus →
        (s.sleep w).woken = true ∧ status = .success ∧ result = true := by
    intro w status result lastStatus hstage
    have hcons := h.sleeps w
    rw [Sleep.Consistent, hstage] at hcons
    obtain ⟨hout, _, hstatus, hresult, _⟩ := hcons
    -- a sleep that is over has left the list, and only a wake takes it off
    have hwoken := (hserved w).listed (by simp [hstage])
    rw [hout] at hwoken
    have hwoken := hwoken.resolve_left Bool.false_ne_true
    exact ⟨hwoken, by rw [hstatus, hwoken, if_pos rfl], hresult⟩
  have hfound : ∀ k w, w ∈ s.owed k → (s.sleep w).inList = false →
      (s.sleep w).woken = true ∧ w ∉ s.waitList := by
    intro k w hin hout
    have hwoken := (hserved w).listed (h.owed_called k w hin).1
    rw [h.listed, hout] at *
    simpa using hwoken
  refine ⟨?_, fun w hwoken => woken_sleep_returns h hwoken⟩
  constructor
  case wakeAll =>
    intro k hall hk w hin
    exact hfound k w hin (h.owed_all k hall (by simp [hk, WakeStage.more]) w hin)
  case wakeOne =>
    intro k hone hk w hhead
    apply hfound k w (List.mem_of_mem_head? hhead)
    exact h.owed_oldest k w hone (by simp [hk]) (by simp [hk]) hhead
  case success =>
    intro w status result lastStatus _ hstage
    exact (hreturned w status result lastStatus hstage).2.1
  case woken_iff =>
    intro w
    exact ⟨h.woken_taken w, by
      rintro ⟨k, hin⟩
      exact (h.taken_woken k w hin).1⟩
  case ownVariable => exact fun k w hin => (h.taken_woken k w hin).2
  case atMostOne => exact h.taken_one
  case result_iff =>
    intro w status result lastStatus hstage
    obtain ⟨hwoken, _, rfl⟩ := hreturned w status result lastStatus hstage
    exact ⟨by simp [hwoken], by simp⟩
  case relocked =>
    intro w status result lastStatus hstage
    exact (hserved w).returned status result lastStatus hstage

/-- Sleeps `0` and `1` on variable `7` and `2` on variable `8`, all with a timeout; wake `0` wakes
one waiter of `7`, wake `1` all of them. -/
def fewCalls : Calls Nat Nat Nat where
  sleepsOn w := if w = 2 then 8 else 7
  lock w := if w = 0 then .criticalSection else .srwLock 1
  timeOut _ := true
  wakes _ := 7
  wakeAll k := k = 1

/-- The time of sleep `0` is up while wake `0` has collected it and not signalled it. -/
def raceWithTimeOut : List (Action Nat Nat) :=
  [.callSleep 2, .callSleep 0, .unlock 0, .callSleep 1, .callWake 0, .callWake 1, .collect 0,
    .timeOut 0, .leaveList 0 .timeout, .collect 1, .signal 0 [0] true, .signal 0 [] true,
    .satisfyAgain 0, .relock 0 .success true, .returnSleep 0 .success, .signal 1 [1] false,
    .signal 1 [] false]

theorem race_with_time_out_matches :
    (((conditionVariables fewCalls).exec (initialState fewCalls) raceWithTimeOut).sleep 0).stage =
        .returned .success true none ∧
      Matched fewCalls
        ((conditionVariables fewCalls).exec (initialState fewCalls) raceWithTimeOut) := by
  have hrun : (conditionVariables fewCalls).Reachable (Consumes fewCalls)
      ((conditionVariables fewCalls).exec (initialState fewCalls) raceWithTimeOut) :=
    System.reachable_exec _ raceWithTimeOut rfl (by decide +kernel)
  exact ⟨by decide +kernel, (sleeps_match_wakes _ hrun).1⟩

/-- Nobody wakes sleep `0`. -/
def timedOut : List (Action Nat Nat) :=
  [.callSleep 0, .unlock 0, .timeOut 0, .leaveList 0 .timeout, .relock 0 .timeout true,
    .returnSleep 0 .timeout]

/-- A sleep that no wake has consumed returns `TRUE`. -/
theorem timed_out_sleep_returns_true :
    ¬ ∀ s, (conditionVariables fewCalls).Reachable Always s → Matched fewCalls s := by
  intro hall
  have hrun : (conditionVariables fewCalls).Reachable Always
      ((conditionVariables fewCalls).exec (initialState fewCalls) timedOut) :=
    System.reachable_exec _ timedOut rfl (by decide +kernel)
  have hsleep : ((conditionVariables fewCalls).exec (initialState fewCalls) timedOut).sleep 0 =
      ⟨.returned .timeout true none, false, false, false, some .owned⟩ := by decide +kernel
  have hstage := congrArg Sleep.stage hsleep
  have hwoken := congrArg Sleep.woken hsleep
  have hresult := ((hall _ hrun).result_iff 0 _ _ _ hstage).1
  simp [hwoken] at hresult

end Ldk.ConditionVariable
