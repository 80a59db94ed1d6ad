import Mathlib
import Ldk.Lib.DrainGate
import Ldk.Threadpool.Work

/-!
# The completion barrier of work objects

`WaitForThreadpoolWorkCallbacks` waits for the event of a work object. `SubmitThreadpoolWork`
counts itself and resets the event in two steps, and the last completion counts down and sets the
event in two steps.

- `drainGate` and `gateSimulation`: the outstanding count and the event are a drain gate, with
  the submissions as its participants.
- `ReferencesExact`: the reference count is the number of those who hold a reference, so a wait
  that is refused finds no submission under way.
- `wait_is_completion_barrier`: without late `KeSetEvent` steps the wait is a barrier.
- `late_set_breaks_completion_barrier`: a completion sets the event after a new submission has
  reset it, and a wait returns over the queued callback.
-/

namespace Ldk.Threadpool.Work

open TransitionSystem

variable {J W : Type} [DecidableEq J] [DecidableEq W]

/-! ## The drain gate of the outstanding count -/

/-- The phase of a submission in the gate of the outstanding count and the event. -/
def SubmissionPc.phase : SubmissionPc → DrainGate.Phase
  | .resetEvent => .raised
  | .allocate | .uncount | .queueItem | .queued | .invoke _ | .executing | .complete => .inside
  | .undoSet | .clearCancel | .setEvent => .lowered
  | _ => .out

/-- The drain gate of a work object. -/
def drainGate (s : State J W) : DrainGate.Gate J where
  phase := SubmissionPc.phase ∘ s.submission
  count := s.outstandingCount
  signalled := s.event

/-- `KeSetEvent` is carried out only while no submission is counted and past its
`KeResetEvent`. -/
def PromptSet (s : State J W) : Action J W → Prop
  | .undoSet _ | .setEvent _ => ∀ k, (s.submission k).phase ≠ .inside
  | _ => True

instance [Fintype J] (s : State J W) (a : Action J W) : Decidable (PromptSet s a) := by
  rcases a <;> unfold PromptSet <;> infer_instance

omit [DecidableEq W] in
/-- A move of one submission that the gate cannot see. -/
theorem drainGate_same {s s' : State J W} {j : J} {p : SubmissionPc}
    (hmove : s'.submission = Function.update s.submission j p)
    (hphase : p.phase = (s.submission j).phase)
    (hcount : s'.outstandingCount = s.outstandingCount) (hevent : s'.event = s.event) :
    drainGate s' = drainGate s := by
  refine DrainGate.Gate.ext ?_ hcount hevent
  simp only [drainGate, hmove, Function.comp_update, hphase]
  exact Function.update_eq_self j _

omit [DecidableEq W] in
/-- A move of one submission that the gate follows. -/
theorem drainGate_next {s s' : State J W} {b : DrainGate.Action J} {j : J} {p : SubmissionPc}
    (hmove : s'.submission = Function.update s.submission j p)
    (hphase : (DrainGate.next (drainGate s) b).phase =
      Function.update (drainGate s).phase j p.phase)
    (hcount : s'.outstandingCount = (DrainGate.next (drainGate s) b).count)
    (hevent : s'.event = (DrainGate.next (drainGate s) b).signalled) :
    drainGate s' = DrainGate.next (drainGate s) b := by
  refine DrainGate.Gate.ext ?_ hcount hevent
  rw [hphase]
  simp only [drainGate, hmove, Function.comp_update]

/-- Every step is a step of the gate or cannot be seen there. -/
theorem drainGate_step (s : State J W) (a : Action J W) (hen : Enabled s a)
    (hprompt : PromptSet s a) :
    drainGate (next s a) = drainGate s ∨
      ∃ b, DrainGate.Enabled (drainGate s) b ∧ DrainGate.PromptSet (drainGate s) b ∧
        drainGate (next s a) = DrainGate.next (drainGate s) b := by
  have hphase (j : J) {p : SubmissionPc} (hpc : s.submission j = p) :
      (drainGate s).phase j = p.phase := congrArg SubmissionPc.phase hpc
  cases a with
  | callSubmit j | reference j | queueItem j | endCallback j | readFlags j
  | undoDereference j | clearCancel j | dereference j =>
    have hpc := hphase j hen
    exact Or.inl (drainGate_same rfl hpc.symm rfl rfl)
  | checkFlags j =>
    have hpc := hphase j hen
    refine Or.inl (drainGate_same rfl (Eq.trans ?_ hpc.symm) rfl rfl)
    split <;> rfl
  | allocate j allocated | invoke j allocated =>
    have hpc := hphase j hen
    cases allocated <;> exact Or.inl (drainGate_same rfl hpc.symm rfl rfl)
  | count j =>
    exact Or.inr ⟨.enter j, hphase j hen, trivial, drainGate_next rfl rfl rfl rfl⟩
  | resetEvent j =>
    exact Or.inr ⟨.clear j, hphase j hen, trivial, drainGate_next rfl rfl rfl rfl⟩
  | uncount j | complete j =>
    refine Or.inr ⟨.lower j, hphase j hen, trivial, drainGate_next rfl ?_ rfl rfl⟩
    rw [apply_ite SubmissionPc.phase]; rfl
  | undoSet j | setEvent j =>
    exact Or.inr ⟨.set j, hphase j hen, hprompt, drainGate_next rfl rfl rfl rfl⟩
  | callWait | waitReference | waitRequestCancel | waitSatisfied | waitClearCancel
  | waitDereference | callClose | closeRequestDelete | closeDereference => exact Or.inl rfl

/-- Without late sets a work object runs the drain gate. -/
def gateSimulation : Simulation (work J W) PromptSet (DrainGate.gateSystem J)
    DrainGate.PromptSet where
  abs := drainGate
  init := by
    rintro s rfl
    exact ⟨fun _ => rfl, rfl, rfl⟩
  step s a _ hen hprompt := drainGate_step s a hen hprompt

/-! ## The reference count -/

/-- The submission holds a reference to the work object. -/
def SubmissionPc.holds : SubmissionPc → Prop
  | .idle | .checkFlags | .reference | .done | .rejected => False
  | _ => True

/-- The waiter holds a reference to the work object. -/
def WaiterPc.holds : WaiterPc → Prop
  | .idle | .reference _ | .returned => False
  | _ => True

/-- The reference of the creator. -/
def ClosePc.held : ClosePc → ℕ∞
  | .idle | .requestDelete | .dereference => 1
  | .done => 0

/-- The reference count is the number of those who hold a reference. -/
def ReferencesExact (s : State J W) : Prop :=
  (s.referenceCount : ℕ∞) = Occupancy.occupancy SubmissionPc.holds s.submission +
    Occupancy.occupancy WaiterPc.holds s.waiter + s.close.held

namespace ReferencesExact

variable {s s' : State J W}

omit [DecidableEq W] in
/-- A submission moves and keeps what it holds. -/
theorem keep (h : ReferencesExact s) {j : J} {p q : SubmissionPc} (hpc : s.submission j = q)
    (hmove : s'.submission = Function.update s.submission j p) (hholds : q.holds ↔ p.holds)
    (hwaiter : s'.waiter = s.waiter) (hclose : s'.close = s.close)
    (hcount : s'.referenceCount = s.referenceCount) : ReferencesExact s' := by
  unfold ReferencesExact at *
  rw [hmove, hwaiter, hclose, hcount, Occupancy.occupancy_same (by rw [hpc]; exact hholds)]
  exact h

omit [DecidableEq W] in
/-- A submission takes a reference. -/
theorem take (h : ReferencesExact s) {j : J} {p q : SubmissionPc} (hpc : s.submission j = q)
    (hmove : s'.submission = Function.update s.submission j p) (hout : ¬ q.holds) (hin : p.holds)
    (hwaiter : s'.waiter = s.waiter) (hclose : s'.close = s.close)
    (hcount : s'.referenceCount = s.referenceCount + 1) : ReferencesExact s' := by
  unfold ReferencesExact at *
  rw [hmove, hwaiter, hclose, hcount, Occupancy.occupancy_enter (by rw [hpc]; exact hout) hin,
    Nat.cast_add, h]
  ring

omit [DecidableEq W] in
/-- A submission gives its reference back. -/
theorem give (h : ReferencesExact s) {j : J} {p q : SubmissionPc} (hpc : s.submission j = q)
    (hmove : s'.submission = Function.update s.submission j p) (hin : q.holds) (hout : ¬ p.holds)
    (hwaiter : s'.waiter = s.waiter) (hclose : s'.close = s.close)
    (hcount : s'.referenceCount = s.referenceCount - 1) : ReferencesExact s' := by
  unfold ReferencesExact at *
  rw [hmove, hwaiter, hclose, hcount]
  refine Occupancy.cast_pred (h.trans ?_)
  rw [← Occupancy.occupancy_leave (by rw [hpc]; exact hin) hout]
  ring

omit [DecidableEq J] in
/-- A waiter moves and keeps what it holds. -/
theorem waiterKeep (h : ReferencesExact s) {w : W} {p q : WaiterPc} (hpc : s.waiter w = q)
    (hmove : s'.waiter = Function.update s.waiter w p) (hholds : q.holds ↔ p.holds)
    (hsubmission : s'.submission = s.submission) (hclose : s'.close = s.close)
    (hcount : s'.referenceCount = s.referenceCount) : ReferencesExact s' := by
  unfold ReferencesExact at *
  rw [hmove, hsubmission, hclose, hcount, Occupancy.occupancy_same (by rw [hpc]; exact hholds)]
  exact h

end ReferencesExact

theorem referencesExact_step (s : State J W) (a : Action J W) (h : ReferencesExact s)
    (hen : Enabled s a) : ReferencesExact (next s a) := by
  cases a with
  | callSubmit j | count j | resetEvent j | undoSet j | queueItem j | readFlags j | endCallback j
  | clearCancel j | setEvent j =>
    exact h.keep hen rfl (by simp [SubmissionPc.holds]) rfl rfl rfl
  | checkFlags j | uncount j | complete j =>
    exact h.keep hen rfl (by split <;> simp [SubmissionPc.holds]) rfl rfl rfl
  | allocate j b | invoke j b =>
    exact h.keep hen rfl (by cases b <;> simp [SubmissionPc.holds]) rfl rfl rfl
  | reference j => exact h.take hen rfl (fun h => h) trivial rfl rfl rfl
  | undoDereference j | dereference j => exact h.give hen rfl trivial (fun h => h) rfl rfl rfl
  | callWait w fCancel =>
    exact h.waiterKeep hen rfl (by simp [WaiterPc.holds]) rfl rfl rfl
  | waitSatisfied w fCancel =>
    exact h.waiterKeep hen.1 rfl (by split <;> simp [WaiterPc.holds]) rfl rfl rfl
  | waitRequestCancel w | waitClearCancel w =>
    exact h.waiterKeep hen rfl (by simp [WaiterPc.holds]) rfl rfl rfl
  | waitReference w fCancel =>
    have hen : s.waiter w = .reference fCancel := hen
    unfold ReferencesExact at *
    simp only [next, State.waitReference, State.waiterTo]
    rw [Occupancy.occupancy_enter (by rw [hen]; exact fun h => h) (by split_ifs <;> trivial),
      Nat.cast_add, h]
    ring
  | waitDereference w =>
    have hen : s.waiter w = .dereference := hen
    unfold ReferencesExact at *
    simp only [next, State.waitDereference, State.waiterTo]
    refine Occupancy.cast_pred (h.trans ?_)
    have hleave : Occupancy.occupancy WaiterPc.holds (Function.update s.waiter w .returned) + 1 =
        Occupancy.occupancy WaiterPc.holds s.waiter :=
      Occupancy.occupancy_leave (by rw [hen]; trivial) (fun h => h)
    rw [← hleave]
    ring
  | callClose | closeRequestDelete =>
    have hen : s.close = _ := hen
    unfold ReferencesExact at *
    rw [hen] at h
    exact h
  | closeDereference =>
    have hen : s.close = .dereference := hen
    unfold ReferencesExact at *
    rw [hen] at h
    exact Occupancy.cast_pred (h.trans (by simp [next, ClosePc.held]))

theorem referencesExact_of_reachable {guard : State J W → Action J W → Prop} :
    ∀ s, (work J W).Reachable guard s → ReferencesExact s := by
  refine System.Reachable.invariant ?_ (fun s a h hen _ => referencesExact_step s a h hen)
  rintro s rfl
  have hnosubmission : Occupancy.occupancy SubmissionPc.holds (initialState J W).submission = 0 :=
    Occupancy.occupancy_eq_zero.mpr (fun _ h => h)
  have hnowaiter : Occupancy.occupancy WaiterPc.holds (initialState J W).waiter = 0 :=
    Occupancy.occupancy_eq_zero.mpr (fun _ h => h)
  rw [ReferencesExact, hnosubmission, hnowaiter]
  simp [initialState, ClosePc.held]

omit [DecidableEq J] [DecidableEq W] in
/-- With the reference count at zero no submission holds a reference. -/
theorem ReferencesExact.not_holds {s : State J W} (h : ReferencesExact s)
    (hzero : s.referenceCount = 0) (j : J) : ¬ (s.submission j).holds := by
  rw [ReferencesExact, hzero, Nat.cast_zero] at h
  have hnone : Occupancy.occupancy SubmissionPc.holds s.submission = 0 := by
    have hsum := h.symm
    simp only [add_eq_zero] at hsum
    exact hsum.1.1
  exact Occupancy.occupancy_eq_zero.mp hnone j

/-! ## The completion barrier -/

/-- Program counters of a wait that has been satisfied or refused. -/
def WaiterPc.passed : WaiterPc → Prop
  | .clearCancel | .dereference | .returned | .refused => True
  | _ => False

theorem SubmissionPc.finished_of_returned {p : SubmissionPc} (hreturned : p.returned = true)
    (hinside : p.phase ≠ .inside) : p.finished = true := by
  cases p <;> first | rfl | exact absurd rfl hinside | cases hreturned

theorem SubmissionPc.finished_of_not_holds {p : SubmissionPc} (hreturned : p.returned = true)
    (hout : ¬ p.holds) : p.finished = true := by
  cases p <;> first | rfl | exact absurd trivial hout | cases hreturned

/-- `p` may follow `q`: neither a return nor a completion is taken back. -/
def SubmissionPc.Advances (q p : SubmissionPc) : Prop :=
  (q.returned = true → p.returned = true) ∧ (q.finished = true → p.finished = true)

theorem SubmissionPc.Advances.refl (p : SubmissionPc) : p.Advances p := ⟨id, id⟩

/-- A submission only advances. -/
theorem submission_advances {s : State J W} {a : Action J W} (hen : Enabled s a) (k : J) :
    (s.submission k).Advances ((next s a).submission k) := by
  have hmove {j : J} {q p : SubmissionPc} (hpc : s.submission j = q) (hadv : q.Advances p) :
      (s.submission k).Advances (Function.update s.submission j p k) := by
    by_cases hk : k = j
    · subst hk; rw [Function.update_self, hpc]; exact hadv
    · rw [Function.update_of_ne hk]; exact .refl _
  cases a with
  | callSubmit j | reference j | count j | resetEvent j | undoSet j | undoDereference j
  | queueItem j | readFlags j | endCallback j | clearCancel j | setEvent j | dereference j =>
    exact hmove hen (by constructor <;> intro h <;> first | rfl | cases h)
  | checkFlags j | uncount j | complete j =>
    exact hmove hen (by split <;> constructor <;> intro h <;> first | rfl | cases h)
  | allocate j b | invoke j b =>
    exact hmove hen (by cases b <;> constructor <;> intro h <;> first | rfl | cases h)
  | callWait | waitReference | waitRequestCancel | waitSatisfied | waitClearCancel
  | waitDereference | callClose | closeRequestDelete | closeDereference => exact .refl _

/-- The submissions a wait has to wait for have returned, and once the wait has passed they
have finished. -/
structure Awaited (s : State J W) : Prop where
  returned : ∀ w j, s.before w j = true → (s.submission j).returned = true
  finished : ∀ w, (s.waiter w).passed → ∀ j, s.before w j = true →
    (s.submission j).finished = true

omit [DecidableEq J] in
/-- A step of a waiter: what it makes of the submissions the waiter has to wait for. -/
theorem Awaited.waiterMove {s s' : State J W} (h : Awaited s) {w : W} {p : WaiterPc}
    (hmove : s'.waiter = Function.update s.waiter w p) (hsubmission : s'.submission = s.submission)
    (hbefore : s'.before = s.before)
    (hpassed : p.passed → ∀ j, s.before w j = true → (s.submission j).finished = true) :
    Awaited s' := by
  refine ⟨fun v j hv => ?_, fun v hv j hj => ?_⟩
  · rw [hbefore] at hv
    rw [hsubmission]
    exact h.returned v j hv
  · rw [hmove] at hv
    rw [hbefore] at hj
    rw [hsubmission]
    by_cases hvw : v = w
    · subst hvw
      exact hpassed (by simpa using hv) j hj
    · exact h.finished v (by simpa [Function.update_of_ne hvw] using hv) j hj

omit [DecidableEq J] [DecidableEq W] in
/-- A step of anybody else. -/
theorem Awaited.advance {s s' : State J W} (h : Awaited s)
    (hadvances : ∀ k, (s.submission k).Advances (s'.submission k)) (hwaiter : s'.waiter = s.waiter)
    (hbefore : s'.before = s.before) : Awaited s' := by
  refine ⟨fun w j hj => ?_, fun w hw j hj => ?_⟩
  · rw [hbefore] at hj
    exact (hadvances j).1 (h.returned w j hj)
  · rw [hbefore] at hj
    rw [hwaiter] at hw
    exact (hadvances j).2 (h.finished w hw j hj)

theorem awaited_step {s : State J W} {a : Action J W} (hexact : ReferencesExact s)
    (hgate : DrainGate.SignalledEmpty (drainGate s)) (h : Awaited s) (hen : Enabled s a) :
    Awaited (next s a) := by
  cases a with
  | callWait w fCancel =>
    have hen : s.waiter w = .idle := hen
    refine ⟨fun v j hv => ?_, fun v hv j hj => ?_⟩
    · by_cases hvw : v = w
      · subst hvw
        simpa [next, State.callWait, State.waiterTo] using hv
      · exact h.returned v j (by
          simpa [next, State.callWait, State.waiterTo, Function.update_of_ne hvw] using hv)
    · by_cases hvw : v = w
      · subst hvw
        simp [next, State.callWait, State.waiterTo, WaiterPc.passed] at hv
      · exact h.finished v
          (by simpa [next, State.callWait, State.waiterTo, Function.update_of_ne hvw] using hv) j
          (by simpa [next, State.callWait, State.waiterTo, Function.update_of_ne hvw] using hj)
  | waitReference w fCancel =>
    refine h.waiterMove rfl rfl rfl (fun hpassed j hj => ?_)
    -- a refused wait has found the reference count at zero
    have hzero : s.referenceCount = 0 := by
      by_contra hne
      rw [if_neg (by omega)] at hpassed
      split at hpassed <;> exact hpassed
    exact SubmissionPc.finished_of_not_holds (h.returned w j hj) (hexact.not_holds hzero j)
  | waitSatisfied w fCancel =>
    obtain ⟨hpc, hevent⟩ : s.waiter w = .wait fCancel ∧ s.event = true := hen
    refine h.waiterMove rfl rfl rfl (fun _ j hj => ?_)
    -- the event is signalled, so no submission is counted any more
    exact SubmissionPc.finished_of_returned (h.returned w j hj) (hgate hevent j)
  | waitRequestCancel w => exact h.waiterMove rfl rfl rfl (fun hpassed => hpassed.elim)
  | waitClearCancel w =>
    have hen : s.waiter w = .clearCancel := hen
    exact h.waiterMove rfl rfl rfl (fun _ => h.finished w (by rw [hen]; trivial))
  | waitDereference w =>
    have hen : s.waiter w = .dereference := hen
    exact h.waiterMove rfl rfl rfl (fun _ => h.finished w (by rw [hen]; trivial))
  | _ => exact h.advance (submission_advances hen) rfl rfl

theorem awaited_of_reachable :
    ∀ s, (work J W).Reachable PromptSet s → Awaited s := by
  refine System.Reachable.invariantUnder
    (J := fun s => ReferencesExact s ∧ DrainGate.SignalledEmpty (drainGate s))
    (fun s h => ⟨referencesExact_of_reachable s h,
      DrainGate.signalled_nobody_inside _ (gateSimulation.reachable s h)⟩) ?_ ?_
  · rintro s rfl
    exact ⟨fun _ _ h => absurd h Bool.false_ne_true, fun _ h => h.elim⟩
  · rintro s a ⟨hexact, hgate⟩ h hen -
    exact awaited_step hexact hgate h hen

/-- `WaitForThreadpoolWorkCallbacks` is a completion barrier: in every run without late sets,
when it has returned, every `SubmitThreadpoolWork` that had returned before it was called has
finished. -/
theorem wait_is_completion_barrier {s : State J W} (h : (work J W).Reachable PromptSet s) {w : W}
    (hreturned : s.waiter w = .returned ∨ s.waiter w = .refused) {j : J}
    (hbefore : s.before w j = true) : (s.submission j).finished = true := by
  refine (awaited_of_reachable s h).finished w ?_ j hbefore
  rcases hreturned with hreturned | hrefused
  · rw [hreturned]; trivial
  · rw [hrefused]; trivial

/-- Submission `0` is submitted and completed up to its `KeSetEvent`; submission `1` is submitted
and its call returns; then the event is set. -/
def lateSet : List (Action (Fin 2) Unit) :=
  [.callSubmit 0, .checkFlags 0, .reference 0, .count 0, .resetEvent 0, .allocate 0 true,
    .queueItem 0, .readFlags 0, .invoke 0 true, .endCallback 0, .complete 0, .clearCancel 0,
    .callSubmit 1, .checkFlags 1, .reference 1, .count 1, .resetEvent 1, .allocate 1 true,
    .queueItem 1,
    .setEvent 0]

/-- A whole wait. -/
def waitThrough : List (Action (Fin 2) Unit) :=
  [.callWait () false, .waitReference () false, .waitSatisfied () false, .waitDereference ()]

/-- After a late set a wait returns while a submission that returned before it is still queued:
its callback will run. -/
theorem late_set_breaks_completion_barrier :
    ∃ s : State (Fin 2) Unit, (work (Fin 2) Unit).Reachable Always s ∧
      s.waiter () = .returned ∧ s.before () 1 = true ∧ s.submission 1 = .queued ∧
      s.cancelRequested = false :=
  ⟨_, System.reachable_exec _ (lateSet ++ waitThrough) rfl (by decide), by decide, by decide,
    by decide, by decide⟩

/-- The submissions of `lateSet` one after the other. -/
def promptSet : List (Action (Fin 2) Unit) :=
  [.callSubmit 0, .checkFlags 0, .reference 0, .count 0, .resetEvent 0, .allocate 0 true,
    .queueItem 0, .readFlags 0, .invoke 0 true, .endCallback 0, .complete 0, .clearCancel 0,
    .setEvent 0]

theorem prompt_set_completes :
    (((work (Fin 2) Unit).exec (initialState (Fin 2) Unit) (promptSet ++ waitThrough)).submission
      0).finished = true :=
  wait_is_completion_barrier (w := ())
    (System.reachable_exec _ (promptSet ++ waitThrough) rfl (by decide)) (Or.inl (by decide))
    (by decide)

end Ldk.Threadpool.Work
