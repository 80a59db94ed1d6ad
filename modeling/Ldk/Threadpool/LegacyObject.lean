import Ldk.Threadpool.Disarm
import Ldk.Threadpool.Legacy

/-!
# The pool object of a legacy record

The object takes the steps of any other pool object, and only the delete routine waits for its
callbacks and closes it.

- `poolRuns`: the runs of a record are runs of its object.
- `ObjectOk`: what is known of the object, as long as it has not been closed.
- `Moves`: what a step of a client changes.
- `closes_step`: the close routine, called from another thread, waits for the thread of the object.
- `awaits_step`: the wait routine does not come past the event while the callback runs.
-/

namespace Ldk.Threadpool.Legacy

open TransitionSystem

variable {S A : Type} {r : Routines S A} {p p' : Threadpool.State S A Party} {k : Kind S A}

/-! ## The runs of the pool object -/

/-- Only the delete routine waits for callbacks and closes the object. -/
def Roles (_ : Threadpool.State S A Party) : Threadpool.Action S A Party → Prop
  | .callWait c _ | .callClose c _ => c = .deleter
  | _ => True

/-- An internal step is no call. -/
theorem roles_of_internal {a : Threadpool.Action S A Party} (h : isInternal a = true) :
    Roles p a := by
  cases a with
  | callWait | callClose => cases h
  | _ => trivial

/-- The pool object of a record runs as any pool object does. -/
def poolRuns (r : Routines S A) :
    Simulation (legacy r) Always (watcher r.kind Party r.settings) Roles where
  abs := State.pool
  init := by
    rintro s ⟨arming, executeOnlyOnce, rfl⟩
    rfl
  step := by
    intro s a _ hen _
    cases a with
    | pool a => exact .inr ⟨a, hen.2, roles_of_internal hen.1, rfl⟩
    | arm => exact .inr ⟨.callSet .creator _, hen.2, trivial, rfl⟩
    | rearm accepted =>
      cases accepted with
      | true => exact .inr ⟨.callSet .wrapper _, hen.2, trivial, rfl⟩
      | false => exact .inl rfl
    | leave status => exact .inr ⟨.endCallback status, hen.2, trivial, rfl⟩
    | disarm => exact .inr ⟨.callSet .deleter none, hen.2, trivial, rfl⟩
    | waitCallbacks => exact .inr ⟨.callWait .deleter true, hen.2, rfl, rfl⟩
    | close => exact .inr ⟨.callClose .deleter s.fromCallback, hen.2, rfl, rfl⟩
    | _ => exact .inl rfl

/-! ## The pool object -/

/-- The client is in a set routine, or in none. -/
def sets : ClientPc A → Bool
  | .idle | .setLock _ | .setRead _ | .setWrite _ _ | .freshRead _ | .freshWrite _ _ | .setSignal _
  | .setRelease _ => true
  | _ => false

/-- The thread is about to terminate. -/
def leaves : ThreadPc S → Bool
  | .exitDereference | .exited => true
  | _ => false

/-- What is known of an object that is not closed. -/
structure Unclosed (p : Threadpool.State S A Party) : Prop where
  flags : p.flags.deleteRequested = false
  snapshot : ∀ f, p.thread.snapshot = some f → f.deleteRequested = false
  snapshots : ∀ c f, (p.client c).snapshot = some f → f.deleteRequested = false
  handle : p.threadHandle = true
  stays : leaves p.thread = false
  closing : ∀ c, (p.client c).closing = false
  count : p.referenceCount = 1 + p.thread.references + (p.client .deleter).references

structure ObjectOk (p : Threadpool.State S A Party) : Prop where
  event : runsCallback p.thread = true → p.event = false
  roles : ∀ c, c ≠ .deleter → sets (p.client c) = true
  unclosed : p.closeRequested = false → Unclosed p

namespace Unclosed

/-- A step of the thread. -/
theorem threadMove (h : Unclosed p) (hclient : p'.client = p.client)
    (hflags : p'.flags.deleteRequested = false)
    (hsnapshot : ∀ f, p'.thread.snapshot = some f → f.deleteRequested = false)
    (hhandle : p'.threadHandle = p.threadHandle) (hstays : leaves p'.thread = false)
    (hcount : p'.referenceCount + p.thread.references =
      p.referenceCount + p'.thread.references) : Unclosed p' where
  flags := hflags
  snapshot := hsnapshot
  snapshots := by
    rw [hclient]
    exact h.snapshots
  handle := hhandle.trans h.handle
  stays := hstays
  closing := by
    rw [hclient]
    exact h.closing
  count := by
    have hexact := h.count
    rw [hclient]
    omega

/-- A step of a client that does not close the object. -/
theorem clientMove (h : Unclosed p) {c : Party} {q u : ClientPc A} (hpc : p.client c = q)
    (hmove : p'.client = Function.update p.client c u)
    (hflags : p'.flags.deleteRequested = false)
    (hsnapshot : ∀ f, u.snapshot = some f → f.deleteRequested = false)
    (hhandle : p'.threadHandle = p.threadHandle) (hclosing : u.closing = false)
    (hcount : p'.referenceCount + q.references = p.referenceCount + u.references)
    (hother : c ≠ .deleter → q.references = u.references)
    (hthread : p'.thread = p.thread) : Unclosed p' where
  flags := hflags
  snapshot := by
    rw [hthread]
    exact h.snapshot
  snapshots d f hf := by
    rw [hmove, Function.update_apply] at hf
    split at hf
    · exact hsnapshot f hf
    · exact h.snapshots d f hf
  handle := hhandle.trans h.handle
  stays := by
    rw [hthread]
    exact h.stays
  closing d := by
    rw [hmove, Function.update_apply]
    split
    · exact hclosing
    · exact h.closing d
  count := by
    have hexact := h.count
    rw [hmove, hthread, Function.update_apply]
    by_cases hd : Party.deleter = c
    · subst hd
      rw [if_pos rfl]
      rw [hpc] at hexact
      omega
    · rw [if_neg hd]
      have hsame := hother (Ne.symm hd)
      omega

end Unclosed

/-- A step of the thread keeps what is known of an object that is not closed. -/
theorem unclosed_thread (h : Unclosed p) {a : Threadpool.Action S A Party}
    (hen : Threadpool.Enabled k p a) (hthread : a.byThread = true) :
    Unclosed (Threadpool.next k p a) := by
  have hcount := h.count
  cases a with
  | top =>
    have hpc : p.thread = .top := hen.1
    -- nobody has closed the object, so the thread does not end
    have hopen : ¬ p.flags.deleteRequested = true := by
      rw [h.flags]
      exact Bool.false_ne_true
    simp only [Threadpool.next, State.top, if_neg hopen]
    split
    · exact h.threadMove rfl h.flags (by intros; contradiction) rfl rfl (by rw [hpc]; rfl)
    · exact h.threadMove rfl h.flags (by intros; contradiction) rfl rfl (by rw [hpc]; rfl)
  | control =>
    have hone : p.thread.references = 1 := by
      have hwaits := hen.1
      cases hpc : p.thread <;> simp_all [ThreadPc.waits, ThreadPc.references]
    exact h.threadMove rfl h.flags (by intros; contradiction) rfl rfl (by rw [hone]; rfl)
  | elapse copy status =>
    have hpc : p.thread = .wait copy := hen.1
    simp only [Threadpool.next, State.elapse]
    split
    · exact h.threadMove rfl h.flags (by intros; contradiction) rfl rfl (by rw [hpc]; rfl)
    · exact h.threadMove rfl h.flags (by intros; contradiction) rfl rfl (by rw [hpc]; rfl)
  | expire copy status =>
    have hpc : p.thread = .expire copy status := hen.1
    simp only [Threadpool.next, State.expire]
    split_ifs
    · exact h.threadMove rfl h.flags (by intros; contradiction) rfl rfl (by rw [hpc]; rfl)
    · exact h.threadMove rfl h.flags (by intros; contradiction) rfl rfl (by rw [hpc]; rfl)
    · exact h.threadMove rfl h.flags (by intros; contradiction) rfl rfl (by rw [hpc]; rfl)
  | markRead status =>
    have hpc : p.thread = .markRead status := hen
    refine h.threadMove rfl h.flags ?_ rfl rfl (by rw [hpc]; rfl)
    intro f hf
    obtain rfl := Option.some.inj hf
    exact h.flags
  | markWrite snapshot status =>
    have hpc : p.thread = .markWrite snapshot status := hen
    refine h.threadMove rfl ?_ (by intros; contradiction) rfl rfl (by rw [hpc]; rfl)
    exact (k.mark_delete snapshot).trans (h.snapshot snapshot (by rw [hpc]; rfl))
  | test status =>
    have hpc : p.thread = .test status := hen
    simp only [Threadpool.next, Threadpool.State.test]
    split
    · exact h.threadMove rfl h.flags (by intros; contradiction) rfl rfl (by rw [hpc]; rfl)
    · exact h.threadMove rfl h.flags (by intros; contradiction) rfl rfl (by rw [hpc]; rfl)
  | complete =>
    have hpc : p.thread = .complete := hen
    simp only [Threadpool.next, State.complete]
    split
    · exact h.threadMove rfl h.flags (by intros; contradiction) rfl rfl (by rw [hpc]; rfl)
    · exact h.threadMove rfl h.flags (by intros; contradiction) rfl rfl (by rw [hpc]; rfl)
  | count | resetEvent | endCallback | clearCancel | setEvent =>
    have hpc : p.thread = _ := hen
    exact h.threadMove rfl h.flags (fun _ hf => by cases hf) rfl rfl (by rw [hpc]; rfl)
  | reference status =>
    have hpc : p.thread = .reference status := hen
    exact h.threadMove rfl h.flags (by intros; contradiction) rfl rfl (by rw [hpc]; rfl)
  | dereference =>
    have hpc : p.thread = .dereference := hen
    refine h.threadMove rfl h.flags (by intros; contradiction) rfl rfl ?_
    rw [hpc] at hcount ⊢
    simp only [Threadpool.next, State.dereference, State.threadTo, ThreadPc.references] at hcount ⊢
    omega
  | exitDereference =>
    have hpc : p.thread = .exitDereference := hen
    have hstays := h.stays
    rw [hpc] at hstays
    cases hstays
  | _ => cases hthread

/-- A step of a client that is no close request keeps it too. -/
theorem unclosed_client (h : Unclosed p) (hroles : ∀ c, c ≠ .deleter → sets (p.client c) = true)
    {a : Threadpool.Action S A Party} (hen : Threadpool.Enabled k p a)
    (hg : Roles p a) (hclient : a.byThread = false) (hclose : ∀ c o, a ≠ .closeOr c o) :
    Unclosed (Threadpool.next k p a) := by
  have hcount := h.count
  -- only the delete routine is in a wait
  have hdeleter {c : Party} {q : ClientPc A} (hpc : p.client c = q) (hq : sets q = false) :
      c = .deleter := by
    by_contra hne
    have hsets := hroles c hne
    rw [hpc, hq] at hsets
    cases hsets
  -- nobody is in a close routine behind the request
  have hopen {c : Party} {q : ClientPc A} (hpc : p.client c = q) (hq : q.closing = true) :
      False := by
    have hclosing := h.closing c
    rw [hpc, hq] at hclosing
    cases hclosing
  cases a with
  | callSet c arg | setSignal c arg | setRelease c arg =>
    exact h.clientMove hen rfl h.flags (fun _ h => by cases h) rfl rfl rfl (fun _ => rfl) rfl
  | setLock c arg =>
    exact h.clientMove hen.1 rfl h.flags (by intros; contradiction) rfl rfl rfl (fun _ => rfl) rfl
  | setRead c arg =>
    refine h.clientMove hen rfl h.flags ?_ rfl rfl rfl (fun _ => rfl) rfl
    intro f hf
    obtain rfl := Option.some.inj hf
    exact h.flags
  | freshRead c arg =>
    refine h.clientMove hen rfl h.flags ?_ rfl rfl rfl (fun _ => rfl) rfl
    intro f hf
    obtain rfl := Option.some.inj hf
    exact h.flags
  | setWrite c arg snapshot =>
    have hpc : p.client c = .setWrite arg snapshot := hen
    have hread := h.snapshots c snapshot (by rw [hpc]; rfl)
    cases arg with
    | none =>
      exact h.clientMove hpc rfl ((k.disarmFlags_delete snapshot).trans hread)
        (by intros; contradiction) rfl rfl rfl (fun _ => rfl) rfl
    | some arg =>
      exact h.clientMove hpc rfl ((k.armFlags_delete snapshot).trans hread)
        (by intros; contradiction) rfl rfl rfl (fun _ => rfl) rfl
  | freshWrite c arg snapshot =>
    have hpc : p.client c = .freshWrite arg snapshot := hen
    have hread := h.snapshots c snapshot (by rw [hpc]; rfl)
    exact h.clientMove hpc rfl ((k.freshFlags_delete snapshot).trans hread)
      (by intros; contradiction) rfl rfl rfl (fun _ => rfl) rfl
  | callWait c fCancel | callClose c fromCallback | waitCancel c | waitSignal c
  | waitClearCancel c =>
    exact h.clientMove hen rfl h.flags (fun _ hf => by cases hf) rfl rfl rfl (fun _ => rfl) rfl
  | waitReference c fCancel =>
    have hpc : p.client c = .waitReference fCancel := hen
    have hadmitted : ¬ p.referenceCount + 1 ≤ 1 := by omega
    refine h.clientMove (u := if fCancel then .waitCancel else .waitEvent false) hpc ?_ h.flags ?_
      rfl ?_ ?_ ?_ rfl
    · simp only [Threadpool.next, State.waitReference, State.clientTo, if_neg hadmitted]
    · cases fCancel <;> exact (by intros; contradiction)
    · cases fCancel <;> rfl
    · cases fCancel <;> rfl
    · intro hne
      exact absurd (hdeleter hpc rfl) hne
  | waitEvent c fCancel =>
    refine h.clientMove (u := if fCancel then .waitClearCancel else .waitDereference) hen.1 rfl
      h.flags ?_ rfl ?_ ?_ ?_ rfl
    · cases fCancel <;> exact (by intros; contradiction)
    · cases fCancel <;> rfl
    · cases fCancel <;> rfl
    · cases fCancel <;> exact fun _ => rfl
  | waitDereference c =>
    have hpc : p.client c = .waitDereference := hen
    obtain rfl := hdeleter hpc rfl
    refine h.clientMove hpc rfl h.flags
      (by intros; contradiction) rfl rfl ?_ (fun hne => absurd rfl hne) rfl
    rw [hpc] at hcount
    simp only [Threadpool.next, State.waitDereference, ClientPc.references] at hcount ⊢
    omega
  | closeOr c o => exact absurd rfl (hclose c o)
  | closeSignal c previous fromCallback | closeHandle c previous fromCallback
  | closeZwClose c handle | closeRead c | closeWrite c snapshot | closeDereference c =>
    exact (hopen hen rfl).elim
  | closeWait c | closeLock c => exact (hopen hen.1 rfl).elim
  | _ => cases hclient

/-- Before a step that leaves the object open it was open. -/
theorem open_before {a : Threadpool.Action S A Party}
    (h : (Threadpool.next k p a).closeRequested = false) :
    p.closeRequested = false ∧ ∀ c o, a ≠ .closeOr c o := by
  constructor
  · cases hclosed : p.closeRequested with
    | false => rfl
    | true =>
      rw [closeRequested_next p a hclosed] at h
      cases h
  · rintro c o rfl
    cases h

/-- Only the delete routine goes on to anything but a set routine. -/
theorem roles_step (h : ∀ c, c ≠ .deleter → sets (p.client c) = true)
    {a : Threadpool.Action S A Party} (hen : Threadpool.Enabled k p a) (hg : Roles p a) :
    ∀ c, c ≠ .deleter → sets ((Threadpool.next k p a).client c) = true := by
  intro d hd
  have hmove {c : Party} {q q' : ClientPc A} (hpc : p.client c = q)
      (hkeeps : sets q = true → sets q' = true) :
      sets (Function.update p.client c q' d) = true := by
    rw [Function.update_apply]
    split
    · next heq =>
      subst heq
      have hsets := h d hd
      rw [hpc] at hsets
      exact hkeeps hsets
    · exact h d hd
  by_cases hthread : a.byThread = true
  · rw [client_eq_of_thread p a hthread]
    exact h d hd
  · cases a with
    | callSet c arg | setRead c arg | freshRead c arg | freshWrite c arg snapshot
    | setSignal c arg | setRelease c arg => exact hmove hen fun _ => rfl
    | setLock c arg => exact hmove hen.1 fun _ => rfl
    | setWrite c arg snapshot =>
      cases arg with
      | none => exact hmove hen fun _ => rfl
      | some arg => exact hmove hen fun _ => rfl
    | callWait c fCancel | callClose c fromCallback =>
      have hne : d ≠ c := by
        rintro rfl
        exact hd hg
      show sets (Function.update p.client c _ d) = true
      rw [Function.update_of_ne hne]
      exact h d hd
    | waitReference c fCancel | waitCancel c | waitSignal c | waitClearCancel c
    | waitDereference c | closeOr c fromCallback | closeSignal c previous fromCallback
    | closeHandle c previous fromCallback | closeZwClose c handle | closeRead c
    | closeWrite c snapshot | closeDereference c => exact hmove hen nofun
    | waitEvent c fCancel | closeWait c | closeLock c => exact hmove hen.1 nofun
    | _ => exact absurd rfl hthread

/-- The event is clear while the callback runs. -/
theorem event_step (h : runsCallback p.thread = true → p.event = false)
    {a : Threadpool.Action S A Party} (hen : Threadpool.Enabled k p a) :
    runsCallback (Threadpool.next k p a).thread = true →
      (Threadpool.next k p a).event = false := by
  cases a with
  | top | expire =>
    simp only [Threadpool.next, State.top, State.expire]
    split_ifs <;> intro hruns <;> cases hruns
  | elapse copy status | test status =>
    simp only [Threadpool.next, Threadpool.State.elapse, Threadpool.State.test,
      Threadpool.State.threadTo]
    split <;> exact fun h => by cases h
  | complete =>
    simp only [Threadpool.next, State.complete, State.threadTo]
    split <;> exact (by intros; contradiction)
  | resetEvent status => exact fun _ => rfl
  | control | markRead | markWrite | reference | count | endCallback | clearCancel | setEvent
  | dereference | exitDereference =>
    intro hruns
    cases hruns
  | setWrite c arg snapshot =>
    cases arg with
    | none => exact h
    | some arg => exact h
  | _ => exact h

theorem objectOk_step (h : ObjectOk p) {a : Threadpool.Action S A Party}
    (hen : Threadpool.Enabled k p a) (hg : Roles p a) : ObjectOk (Threadpool.next k p a) where
  event := event_step h.event hen
  roles := roles_step h.roles hen hg
  unclosed hopen := by
    obtain ⟨hbefore, hclose⟩ := open_before hopen
    cases hthread : a.byThread with
    | true => exact unclosed_thread (h.unclosed hbefore) hen hthread
    | false => exact unclosed_client (h.unclosed hbefore) h.roles hen hg hthread hclose

theorem objectOk_of_reachable {settings : S} :
    ∀ p, (watcher k Party settings).Reachable Roles p → ObjectOk p := by
  apply System.Reachable.invariant
  · rintro p rfl
    exact {
      event := nofun
      roles := fun _ _ => rfl
      unclosed := fun _ => ⟨rfl, nofun, nofun, rfl, rfl, fun _ => rfl, rfl⟩ }
  · intro p a h hen hg
    exact objectOk_step h hen hg

/-! ## Steps of clients -/

/-- The client that takes a step. -/
def actor : Threadpool.Action S A Party → Option Party
  | .callSet c _ | .setLock c _ | .setRead c _ | .setWrite c _ _ | .freshRead c _
  | .freshWrite c _ _ | .setSignal c _ | .setRelease c _ | .callWait c _ | .waitReference c _ | .waitCancel c
  | .waitSignal c | .waitEvent c _ | .waitClearCancel c | .waitDereference c | .callClose c _
  | .closeOr c _ | .closeSignal c _ _ | .closeHandle c _ _ | .closeWait c | .closeZwClose c _
  | .closeLock c | .closeRead c | .closeWrite c _ | .closeDereference c => some c
  | _ => none

/-- The client is in a wait routine, or in none. -/
def inWait : ClientPc A → Bool
  | .idle | .waitReference _ | .waitCancel | .waitSignal | .waitEvent _ | .waitClearCancel
  | .waitDereference => true
  | _ => false

/-- A client goes on in its routine. -/
structure Moves (p p' : Threadpool.State S A Party) (c : Party) (q' : ClientPc A) : Prop where
  busy : p.client c ≠ .idle
  client : p'.client = Function.update p.client c q'
  thread : p'.thread = p.thread
  sets : sets (p.client c) = true → sets q' = true ∧ p'.closeRequested = p.closeRequested ∧
    p'.threadHandle = p.threadHandle
  waits : inWait (p.client c) = true → inWait q' = true ∧ p'.closeRequested = p.closeRequested

namespace Moves

variable {c : Party} {q q' : ClientPc A}

/-- A step of a set routine. -/
theorem ofSet (hpc : p.client c = q) (hbusy : q ≠ .idle) (hq : inWait q = false)
    (hmove : p'.client = Function.update p.client c q') (hthread : p'.thread = p.thread)
    (hq' : Legacy.sets q' = true) (hclose : p'.closeRequested = p.closeRequested)
    (hhandle : p'.threadHandle = p.threadHandle) : Moves p p' c q' where
  busy := hpc ▸ hbusy
  client := hmove
  thread := hthread
  sets _ := ⟨hq', hclose, hhandle⟩
  waits h := by
    rw [hpc, hq] at h
    cases h

/-- A step of a wait routine. -/
theorem ofWait (hpc : p.client c = q) (hbusy : q ≠ .idle) (hq : Legacy.sets q = false)
    (hmove : p'.client = Function.update p.client c q') (hthread : p'.thread = p.thread)
    (hq' : inWait q' = true) (hclose : p'.closeRequested = p.closeRequested) :
    Moves p p' c q' where
  busy := hpc ▸ hbusy
  client := hmove
  thread := hthread
  sets h := by
    rw [hpc, hq] at h
    cases h
  waits _ := ⟨hq', hclose⟩

/-- A step of a close routine. -/
theorem ofClose (hpc : p.client c = q) (hbusy : q ≠ .idle) (hqs : Legacy.sets q = false)
    (hqw : inWait q = false) (hmove : p'.client = Function.update p.client c q')
    (hthread : p'.thread = p.thread) : Moves p p' c q' where
  busy := hpc ▸ hbusy
  client := hmove
  thread := hthread
  sets h := by
    rw [hpc, hqs] at h
    cases h
  waits h := by
    rw [hpc, hqw] at h
    cases h

end Moves

/-- A client that takes a step goes on in its routine. -/
theorem moves_of_client {a : Threadpool.Action S A Party} (hint : isInternal a = true)
    (hen : Threadpool.Enabled k p a) (hthread : a.byThread = false) :
    ∃ c q', actor a = some c ∧ Moves p (Threadpool.next k p a) c q' := by
  cases a with
  | setRead c arg | freshRead c arg | freshWrite c arg snapshot | setSignal c arg
  | setRelease c arg => exact ⟨c, _, rfl, Moves.ofSet hen nofun rfl rfl rfl rfl rfl rfl⟩
  | setLock c arg => exact ⟨c, _, rfl, Moves.ofSet hen.1 nofun rfl rfl rfl rfl rfl rfl⟩
  | setWrite c arg snapshot =>
    cases arg with
    | none => exact ⟨c, _, rfl, Moves.ofSet hen nofun rfl rfl rfl rfl rfl rfl⟩
    | some arg => exact ⟨c, _, rfl, Moves.ofSet hen nofun rfl rfl rfl rfl rfl rfl⟩
  | waitReference c fCancel =>
    refine ⟨c, _, rfl, Moves.ofWait hen nofun rfl rfl rfl ?_ rfl⟩
    split_ifs <;> rfl
  | waitCancel c | waitSignal c | waitClearCancel c | waitDereference c =>
    exact ⟨c, _, rfl, Moves.ofWait hen nofun rfl rfl rfl rfl rfl⟩
  | waitEvent c fCancel =>
    refine ⟨c, _, rfl, Moves.ofWait hen.1 nofun rfl rfl rfl ?_ rfl⟩
    split <;> rfl
  | closeOr c fromCallback | closeSignal c previous fromCallback
  | closeHandle c previous fromCallback | closeZwClose c handle | closeRead c
  | closeWrite c snapshot | closeDereference c =>
    exact ⟨c, _, rfl, Moves.ofClose hen nofun rfl rfl rfl rfl⟩
  | closeWait c | closeLock c => exact ⟨c, _, rfl, Moves.ofClose hen.1 nofun rfl rfl rfl rfl⟩
  | callSet | callWait | callClose => cases hint
  | _ => cases hthread

/-- How far the delete routine has come in the close routine of the object. -/
def Closes (p : Threadpool.State S A Party) : ClientPc A → Prop
  | .closeOr fromCallback => fromCallback = false ∧ p.closeRequested = false
  | .closeSignal previous fromCallback | .closeHandle previous fromCallback =>
    previous = false ∧ fromCallback = false ∧ p.threadHandle = true
  | .closeWait => True
  | .closeZwClose _ | .closeLock | .closeRead | .closeWrite _ | .closeDereference | .idle =>
    p.thread = .exited
  | _ => False

/-- The close routine waits for the thread, unless it is called on it. -/
theorem closes_step (h : Closes p (p.client .deleter))
    (hunclosed : p.closeRequested = false → Unclosed p) {a : Threadpool.Action S A Party}
    (hactor : actor a = some .deleter) (hint : isInternal a = true)
    (hen : Threadpool.Enabled k p a) :
    Closes (Threadpool.next k p a) ((Threadpool.next k p a).client .deleter) := by
  -- the close goes on, or the step is not one of the delete
  have hself (q : ClientPc A) (p' : Threadpool.State S A Party)
      (hmove : p'.client = Function.update p.client .deleter q) (hq : Closes p' q) :
      Closes p' (p'.client .deleter) := by
    rw [hmove, Function.update_self]
    exact hq
  have hnot {q : ClientPc A} (hpc : p.client .deleter = q) (hq : ¬ Closes p q) : False := by
    rw [hpc] at h
    exact hq h
  cases a with
  | closeOr c fromCallback =>
    obtain rfl := Option.some.inj hactor
    have hpc : p.client .deleter = .closeOr fromCallback := hen
    rw [hpc] at h
    obtain ⟨hcaller, hopen⟩ := h
    exact hself _ _ rfl ⟨(hunclosed hopen).flags, hcaller, (hunclosed hopen).handle⟩
  | closeSignal c previous fromCallback =>
    obtain rfl := Option.some.inj hactor
    have hpc : p.client .deleter = .closeSignal previous fromCallback := hen
    rw [hpc] at h
    exact hself _ _ rfl h
  | closeHandle c previous fromCallback =>
    obtain rfl := Option.some.inj hactor
    have hpc : p.client .deleter = .closeHandle previous fromCallback := hen
    rw [hpc] at h
    obtain ⟨rfl, rfl, hhandle⟩ := h
    refine hself .closeWait _ ?_ trivial
    simp only [Threadpool.next, State.closeHandle, State.clientTo, hhandle]
    rfl
  | closeWait c =>
    obtain rfl := Option.some.inj hactor
    exact hself _ _ rfl hen.2
  | closeZwClose c handle =>
    obtain rfl := Option.some.inj hactor
    have hpc : p.client .deleter = .closeZwClose handle := hen
    rw [hpc] at h
    refine hself (if k.unsetsOnClose then .closeLock else .closeDereference) _ rfl ?_
    split
    · exact h
    · exact h
  | closeRead c | closeWrite c snapshot | closeDereference c =>
    obtain rfl := Option.some.inj hactor
    have hpc : p.client .deleter = _ := hen
    rw [hpc] at h
    exact hself _ _ rfl h
  | closeLock c =>
    obtain rfl := Option.some.inj hactor
    have hpc : p.client .deleter = .closeLock := hen.1
    rw [hpc] at h
    exact hself _ _ rfl h
  | setRead | freshRead | freshWrite | setSignal | setRelease | setWrite | waitReference
  | waitCancel | waitSignal | waitClearCancel | waitDereference =>
    obtain rfl := Option.some.inj hactor
    exact (hnot hen fun hc => hc).elim
  | setLock | waitEvent =>
    obtain rfl := Option.some.inj hactor
    exact (hnot hen.1 (fun h => by cases h)).elim
  | callSet | callWait | callClose => cases hint
  | _ => cases hactor

/-- The client waits for the event, or will. -/
def awaits : ClientPc A → Bool
  | .waitReference fCancel | .waitEvent fCancel => fCancel
  | .waitCancel | .waitSignal => true
  | _ => false

/-- While the callback runs the wait does not end. -/
theorem awaits_step (h : awaits (p.client .deleter) = true) (hunclosed : Unclosed p)
    (hevent : p.event = false) {a : Threadpool.Action S A Party}
    (hactor : actor a = some .deleter) (hint : isInternal a = true)
    (hen : Threadpool.Enabled k p a) :
    awaits ((Threadpool.next k p a).client .deleter) = true := by
  have hself (q : ClientPc A) (p' : Threadpool.State S A Party)
      (hmove : p'.client = Function.update p.client .deleter q) (hq : awaits q = true) :
      awaits (p'.client .deleter) = true := by
    rw [hmove, Function.update_self]
    exact hq
  have hnot {q : ClientPc A} (hpc : p.client .deleter = q) (hq : awaits q = false) : False := by
    rw [hpc, hq] at h
    cases h
  cases a with
  | waitReference c fCancel =>
    obtain rfl := Option.some.inj hactor
    have hpc : p.client .deleter = .waitReference fCancel := hen
    rw [hpc] at h
    obtain rfl : fCancel = true := h
    -- the references of the object and of its thread are there
    have hadmitted : ¬ p.referenceCount + 1 ≤ 1 := by
      have hcount := hunclosed.count
      omega
    refine hself .waitCancel _ ?_ rfl
    simp only [Threadpool.next, State.waitReference, State.clientTo, if_neg hadmitted]
    rfl
  | waitCancel c | waitSignal c =>
    obtain rfl := Option.some.inj hactor
    exact hself _ _ rfl rfl
  | waitEvent c fCancel =>
    have hset := hen.2
    rw [hevent] at hset
    cases hset
  | setRead | freshRead | freshWrite | setSignal | setRelease | setWrite | waitClearCancel
  | waitDereference | closeOr | closeSignal | closeHandle | closeZwClose | closeRead | closeWrite
  | closeDereference =>
    obtain rfl := Option.some.inj hactor
    exact (hnot hen rfl).elim
  | setLock | closeWait | closeLock =>
    obtain rfl := Option.some.inj hactor
    exact (hnot hen.1 rfl).elim
  | callSet | callWait | callClose => cases hint
  | _ => cases hactor

/-- A thread that takes an internal step is not in the wrapper, and has not terminated. -/
theorem thread_of_internal {a : Threadpool.Action S A Party} (hint : isInternal a = true)
    (hen : Threadpool.Enabled k p a) (hthread : a.byThread = true) :
    runsCallback p.thread = false ∧ p.thread ≠ .exited := by
  cases a with
  | control =>
    have hwaits := hen.1
    cases hpc : p.thread with
    | waitControl | wait => exact ⟨rfl, nofun⟩
    | _ =>
      rw [hpc] at hwaits
      cases hwaits
  | top | elapse copy status | expire copy status =>
    have hpc : p.thread = _ := hen.1
    rw [hpc]
    exact ⟨rfl, nofun⟩
  | markRead | markWrite | test | reference | count | resetEvent | complete | clearCancel
  | setEvent | dereference | exitDereference =>
    have hpc : p.thread = _ := hen
    rw [hpc]
    exact ⟨rfl, nofun⟩
  | endCallback => cases hint
  | _ => cases hthread

/-- The thread closes nothing. -/
theorem close_eq_of_thread {a : Threadpool.Action S A Party} (hthread : a.byThread = true) :
    (Threadpool.next k p a).closeRequested = p.closeRequested ∧
      (Threadpool.next k p a).threadHandle = p.threadHandle := by
  cases a with
  | top | expire =>
    simp only [Threadpool.next, State.top, State.expire]
    split_ifs <;> exact ⟨rfl, rfl⟩
  | _ => first | exact ⟨rfl, rfl⟩ | cases hthread

end Ldk.Threadpool.Legacy
