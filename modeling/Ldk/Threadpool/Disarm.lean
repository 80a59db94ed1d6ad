import Ldk.Threadpool.Close

/-!
# Disarming watched objects

A client that disarms a timer or a wait object and then waits for its callbacks expects none to
run until it arms the object again. The thread tests `Flags`, counts its callback and resets the
event in separate steps, so a wait that falls in between finds the event signalled.

- `SettledWait`: when the wait on the event of a disarmed object is satisfied, and when the wait
  takes back its cancel request, the thread is not on its way from the test to `KeResetEvent`.
- `Counted`, `Unset`, `EventClear`: what the references, a disarmed object and the event promise.
- `disarm_is_barrier`: then no callback runs once the wait has returned.
- `disarm_misses_callback`: runs in which one does.

There is one client, which makes no call after it has closed the object.
-/

namespace Ldk.Threadpool

open TransitionSystem

variable {S A : Type} {k : Kind S A}

/-! ## The window of the thread -/

/-- With these `Flags` the thread is on its way to a callback, and the event still stands from
before. -/
def ThreadPc.starting (k : Kind S A) (f : Flags) : ThreadPc S → Bool
  | .test _ => k.starts f
  | .reference _ | .count _ | .resetEvent _ => true
  | _ => false

/-- A callback runs or has not been completed. -/
def ThreadPc.running : ThreadPc S → Bool
  | .callback _ | .complete | .clearCancel | .setEvent => true
  | _ => false

/-- No callback is under way. -/
def Settled (k : Kind S A) (s : State S A Unit) : Prop :=
  s.thread.starting k s.flags = false ∧ s.thread.running = false

/-- The client makes no call after a close, and its waits on a disarmed object do not fall between
the thread's test and its `KeResetEvent`. -/
def SettledWait (k : Kind S A) (s : State S A Unit) : Action S A Unit → Prop
  | .callSet _ _ | .callWait _ _ | .callClose _ _ => s.closeRequested = false
  | .waitEvent _ _ => s.disarmed = true → s.thread.starting k s.flags = false
  | .waitClearCancel _ =>
    s.disarmed = true →
      s.thread.starting k { s.flags with cancelRequested := false } = false
  | _ => True

instance (s : State S A Unit) (a : Action S A Unit) : Decidable (SettledWait k s a) := by
  cases a <;> unfold SettledWait <;> infer_instance

/-! ## References -/

/-- References held by the thread. -/
def ThreadPc.references : ThreadPc S → Nat
  | .exited => 0
  | .count _ | .resetEvent _ | .callback _ | .complete | .clearCancel | .setEvent
  | .dereference => 2
  | _ => 1

/-- References held by a wait of the client. -/
def ClientPc.references : ClientPc A → Nat
  | .waitCancel | .waitSignal | .waitEvent _ | .waitClearCancel | .waitDereference => 1
  | _ => 0

/-- The client has made its close request and is about to give its own reference back. -/
def ClientPc.closing : ClientPc A → Bool
  | .closeSignal _ _ | .closeHandle _ _ | .closeWait | .closeZwClose _ | .closeLock | .closeRead
  | .closeWrite _ | .closeDereference => true
  | _ => false

/-- Until the close request the client's own reference is there, beside those of the thread and of
the wait. -/
structure Counted (s : State S A Unit) : Prop where
  count : s.closeRequested = false →
    s.referenceCount = 1 + s.thread.references + (s.client ()).references
  closing : s.closeRequested = false → (s.client ()).closing = false
  closed : s.closeRequested = true → s.client () = .idle ∨ (s.client ()).closing = true

/-- In the middle of a set or a wait the object has not been closed. -/
theorem Counted.open_of_not_closing {s : State S A Unit} (h : Counted s) {p : ClientPc A}
    (hpc : s.client () = p) (hbusy : p ≠ .idle) (hout : p.closing = false) :
    s.closeRequested = false := by
  by_contra hclosed
  rcases h.closed (by simpa using hclosed) with hidle | hclosing
  · exact hbusy (hpc ▸ hidle)
  · rw [hpc, hout] at hclosing
    cases hclosing

/-- A thread step that changes the count by what the thread holds. -/
theorem Counted.threadMove {s s' : State S A Unit} (h : Counted s)
    (hcount : 0 < s.referenceCount →
      s'.referenceCount + s.thread.references = s.referenceCount + s'.thread.references)
    (hclient : s'.client = s.client) (hclose : s'.closeRequested = s.closeRequested) :
    Counted s' := by
  constructor
  · intro hopen
    have hexact := h.count (hclose ▸ hopen)
    have hmoved := hcount (by omega)
    rw [hclient]
    omega
  · rw [hclose, hclient]; exact h.closing
  · rw [hclose, hclient]; exact h.closed

/-- A step of an open object's client that changes the count by what its wait holds. -/
theorem Counted.clientMove {s s' : State S A Unit} (h : Counted s) {p q : ClientPc A}
    (hpc : s.client () = q) (hmove : s'.client = Function.update s.client () p)
    (hidle : q ≠ .idle ∨ s.closeRequested = false)
    (hout : q.closing = false) (hopen : p.closing = false)
    (hcount : s.closeRequested = false →
      s'.referenceCount + q.references = s.referenceCount + p.references)
    (hthread : s'.thread = s.thread) (hclose : s'.closeRequested = s.closeRequested) :
    Counted s' := by
  have hp : s'.client () = p := by rw [hmove, Function.update_self]
  have hrequested : s.closeRequested = false := by
    rcases hidle with hbusy | hopen
    · exact h.open_of_not_closing hpc hbusy hout
    · exact hopen
  constructor
  · intro _
    have hexact := h.count hrequested
    have hmoved := hcount hrequested
    rw [hpc] at hexact
    rw [hp, hthread]
    omega
  · intro _
    rw [hp]; exact hopen
  · intro hclosed
    rw [hclose, hrequested] at hclosed; cases hclosed

/-- A step of a close after its request. -/
theorem Counted.closeMove {s s' : State S A Unit} (h : Counted s) {p q : ClientPc A}
    (hpc : s.client () = q) (hmove : s'.client = Function.update s.client () p)
    (hin : q.closing = true) (hstays : p = .idle ∨ p.closing = true)
    (hclose : s'.closeRequested = s.closeRequested) : Counted s' := by
  have hp : s'.client () = p := by rw [hmove, Function.update_self]
  have hrequested : s.closeRequested = true := by
    by_contra hclosed
    have hnot := h.closing (by simpa using hclosed)
    rw [hpc, hin] at hnot; cases hnot
  refine ⟨fun hopen => ?_, fun hopen => ?_, fun _ => ?_⟩
  · rw [hclose, hrequested] at hopen; cases hopen
  · rw [hclose, hrequested] at hopen; cases hopen
  · rw [hp]; exact hstays

/-- While the client waits or sets, its own reference is there, so no wait is refused. -/
theorem Counted.not_refused {s : State S A Unit} (h : Counted s) {fCancel : Bool}
    (hpc : s.client () = .waitReference fCancel) : ¬ s.referenceCount + 1 ≤ 1 := by
  have hcount := h.count (h.open_of_not_closing hpc nofun rfl)
  omega

theorem counted_step (s : State S A Unit) (a : Action S A Unit) (h : Counted s)
    (hen : Enabled k s a) (hguard : SettledWait k s a) : Counted (next k s a) := by
  cases a with
  | top =>
    have hpc : s.thread = .top := hen.1
    refine h.threadMove ?_ ?_ ?_ <;> simp only [next, State.top] <;> split_ifs <;>
      simp [State.threadTo, hpc, ThreadPc.references]
  | control =>
    have hone : s.thread.references = 1 := by
      have hwaits := hen.1
      cases hpc : s.thread <;> simp_all [ThreadPc.waits, ThreadPc.references]
    exact h.threadMove (fun _ => by rw [hone]; rfl) rfl rfl
  | elapse copy status =>
    have hpc : s.thread = .wait copy := hen.1
    refine h.threadMove (fun _ => ?_) rfl rfl
    simp only [next, State.elapse, State.threadTo, hpc]
    split <;> rfl
  | expire copy status =>
    have hpc : s.thread = .expire copy status := hen.1
    refine h.threadMove ?_ ?_ ?_ <;> simp only [next, State.expire] <;> split_ifs <;>
      simp [State.threadTo, hpc, ThreadPc.references]
  | test status =>
    have hpc : s.thread = .test status := hen
    refine h.threadMove (fun _ => ?_) rfl rfl
    simp only [next, State.test, State.threadTo, hpc]
    split <;> rfl
  | complete =>
    have hpc : s.thread = .complete := hen
    refine h.threadMove (fun _ => ?_) rfl rfl
    simp only [next, State.complete, State.threadTo, hpc]
    split <;> rfl
  | markRead | markWrite | count | resetEvent | endCallback | clearCancel | setEvent =>
    have hpc : s.thread = _ := hen
    exact h.threadMove (fun _ => by rw [hpc]; rfl) rfl rfl
  | reference status =>
    have hpc : s.thread = .reference status := hen
    refine h.threadMove (fun _ => ?_) rfl rfl
    simp [next, State.reference, State.threadTo, hpc, ThreadPc.references]
  | dereference | exitDereference =>
    have hpc : s.thread = _ := hen
    refine h.threadMove (fun hheld => ?_) rfl rfl
    simp only [next, State.dereference, State.exitDereference, State.threadTo, hpc,
      ThreadPc.references]
    omega
  | callSet | callWait | callClose =>
    exact h.clientMove hen rfl (Or.inr hguard) rfl rfl (fun _ => rfl) rfl rfl
  | setRead | freshRead | freshWrite | setSignal | setRelease | waitCancel | waitSignal
  | waitClearCancel =>
    exact h.clientMove hen rfl (Or.inl (by simp)) rfl rfl (fun _ => rfl) rfl rfl
  | setLock => exact h.clientMove hen.1 rfl (Or.inl (by simp)) rfl rfl (fun _ => rfl) rfl rfl
  | setWrite c arg snapshot =>
    cases arg <;> exact h.clientMove hen rfl (Or.inl (by simp)) rfl rfl (fun _ => rfl) rfl rfl
  | waitReference c fCancel =>
    have hadmitted : ¬ s.referenceCount + 1 ≤ 1 := h.not_refused hen
    refine h.clientMove (p := if fCancel then .waitCancel else .waitEvent false) hen ?_
      (Or.inl (by simp)) rfl ?_ (fun _ => ?_) rfl rfl
    · simp only [next, State.waitReference, State.clientTo, if_neg hadmitted]
    · cases fCancel <;> rfl
    · cases fCancel <;> simp [next, State.waitReference, ClientPc.references]
  | waitEvent c fCancel =>
    refine h.clientMove (p := if fCancel then .waitClearCancel else .waitDereference) hen.1 rfl
      (Or.inl (by simp)) rfl ?_ (fun _ => ?_) rfl rfl
    · cases fCancel <;> rfl
    · cases fCancel <;> rfl
  | waitDereference c =>
    have hpc : s.client () = .waitDereference := hen
    refine h.clientMove hpc rfl (Or.inl (by simp)) rfl rfl (fun hopen => ?_) rfl rfl
    have hcount := h.count hopen
    rw [hpc] at hcount
    simp only [next, State.waitDereference, ClientPc.references] at hcount ⊢
    omega
  | closeOr c fromCallback =>
    have hp : (next k s (.closeOr c fromCallback)).client () =
        .closeSignal s.flags.deleteRequested fromCallback := by
      simp only [next, State.closeOr, State.clientTo, Function.update_self]
    exact ⟨by rintro ⟨⟩, by rintro ⟨⟩, fun _ => Or.inr (by rw [hp]; rfl)⟩
  | closeSignal | closeRead | closeWrite | closeDereference =>
    exact h.closeMove hen rfl rfl (by first | exact Or.inl rfl | exact Or.inr rfl) rfl
  | closeWait | closeLock => exact h.closeMove hen.1 rfl rfl (Or.inr rfl) rfl
  | closeHandle c previous fromCallback =>
    refine h.closeMove (p := if !previous && s.threadHandle && !fromCallback then .closeWait
      else .closeZwClose s.threadHandle) hen rfl rfl (Or.inr ?_) rfl
    split <;> rfl
  | closeZwClose c handle =>
    refine h.closeMove (p := if k.unsetsOnClose then .closeLock else .closeDereference) hen rfl rfl
      (Or.inr ?_) rfl
    split <;> rfl

theorem counted_of_reachable {settings : S} :
    ∀ s, (watcher k Unit settings).Reachable (SettledWait k) s → Counted s := by
  refine System.Reachable.invariant ?_ (fun s a h hen hguard => counted_step s a h hen hguard)
  rintro s rfl
  exact ⟨fun _ => rfl, fun _ => rfl, nofun⟩

/-! ## A disarmed object -/

/-- The client is arming the object. -/
def ClientPc.arming : ClientPc A → Bool
  | .setLock (some _) | .setRead (some _) | .setWrite (some _) _ | .freshRead _ | .freshWrite _ _
  | .setSignal (some _) | .setRelease (some _) => true
  | _ => false

/-- A disarming call has written `Flags`. -/
def ClientPc.unset : ClientPc A → Bool
  | .setSignal none | .setRelease none => true
  | _ => false

/-- A disarmed object is not set, and neither party is about to write a word in which it is. -/
structure Unset (s : State S A Unit) : Prop where
  clear : s.disarmed = true → s.flags.set = false
  thread : s.disarmed = true → s.thread.inSection = false
  client : s.disarmed = true → (s.client ()).arming = false
  written : (s.client ()).unset = true → s.flags.set = false

/-- A thread step that neither writes `SET` nor begins to write `Flags` of an object without it. -/
theorem Unset.threadMove {s s' : State S A Unit} (h : Unset s)
    (hflags : s.flags.set = false → s'.flags.set = false)
    (hsection : s.flags.set = false → s.thread.inSection = false → s'.thread.inSection = false)
    (hclient : s'.client = s.client) (hdisarmed : s'.disarmed = s.disarmed) : Unset s' := by
  refine ⟨fun hd => ?_, fun hd => ?_, fun hd => ?_, fun hu => ?_⟩
  · exact hflags (h.clear (hdisarmed ▸ hd))
  · exact hsection (h.clear (hdisarmed ▸ hd)) (h.thread (hdisarmed ▸ hd))
  · rw [hclient]; exact h.client (hdisarmed ▸ hd)
  · exact hflags (h.written (hclient ▸ hu))

/-- A client step outside the arming and disarming of the object. -/
theorem Unset.clientMove {s s' : State S A Unit} (h : Unset s) {p : ClientPc A}
    (hmove : s'.client = Function.update s.client () p)
    (harming : s'.disarmed = true → s.disarmed = true ∧ p.arming = false) (hunset : p.unset = false)
    (hflags : s.flags.set = false → s'.flags.set = false) (hthread : s'.thread = s.thread) :
    Unset s' := by
  have hp : s'.client () = p := by rw [hmove, Function.update_self]
  refine ⟨fun hd => ?_, fun hd => ?_, fun hd => ?_, fun hu => ?_⟩
  · exact hflags (h.clear (harming hd).1)
  · rw [hthread]; exact h.thread (harming hd).1
  · rw [hp]; exact (harming hd).2
  · rw [hp, hunset] at hu; cases hu

theorem unset_step (s : State S A Unit) (a : Action S A Unit) (hlock : LockExact s) (h : Unset s)
    (hen : Enabled k s a) : Unset (next k s a) := by
  cases a with
  | top =>
    refine h.threadMove ?_ ?_ ?_ ?_ <;> simp only [next, State.top] <;> split_ifs <;>
      simp [State.threadTo, ThreadPc.inSection]
  | elapse copy status | test status =>
    refine h.threadMove id (fun _ _ => ?_) rfl rfl
    simp only [next, State.elapse, State.test, State.threadTo]
    split <;> rfl
  | expire copy status =>
    -- only an object that is set goes on to the change of `Flags`
    refine h.threadMove ?_ (fun hset _ => ?_) ?_ ?_ <;> simp only [next, State.expire]
    · split_ifs <;> exact id
    · simp [hset, State.threadTo, ThreadPc.inSection]
    · split_ifs <;> rfl
    · split_ifs <;> rfl
  | complete =>
    refine h.threadMove id (fun _ _ => ?_) rfl rfl
    simp only [next, State.complete, State.threadTo]
    split <;> rfl
  | control | reference | count | resetEvent | endCallback | clearCancel | setEvent | dereference
  | exitDereference => exact h.threadMove id (fun _ _ => rfl) rfl rfl
  | markRead status =>
    have hpc : s.thread = .markRead status := hen
    refine h.threadMove id (fun _ hout => ?_) rfl rfl
    rw [hpc] at hout; cases hout
  | markWrite snapshot status =>
    have hpc : s.thread = .markWrite snapshot status := hen
    have hin : s.thread.inSection = true := by rw [hpc]; rfl
    refine ⟨fun hd => ?_, fun _ => rfl, h.client, fun hu => ?_⟩
    · rw [h.thread hd] at hin; cases hin
    · -- a client that has just disarmed the object holds the lock
      have hown : s.lock = some (.client ()) := by
        refine (hlock.client ()).mpr ?_
        have hu' : (s.client ()).unset = true := hu
        revert hu'
        cases s.client () <;> simp [ClientPc.unset, ClientPc.inSection]
      rw [hlock.thread.mpr hin] at hown
      cases hown
  | callSet c arg =>
    refine h.clientMove rfl (fun hd => ?_) rfl id rfl
    simp only [next, State.callSet, Bool.and_eq_true] at hd
    cases arg with
    | none => exact ⟨hd.1, rfl⟩
    | some arg => cases hd.2
  | setLock c arg =>
    refine h.clientMove rfl (fun hd => ⟨hd, ?_⟩) rfl id rfl
    have harming := h.client hd
    rw [hen.1] at harming
    cases arg with
    | none => rfl
    | some arg => cases harming
  | setRead c arg =>
    refine h.clientMove rfl (fun hd => ⟨hd, ?_⟩) rfl id rfl
    have hpc : s.client () = .setRead arg := hen
    have harming := h.client hd
    rw [hpc] at harming
    cases arg with
    | none => rfl
    | some arg => cases harming
  | setWrite c arg snapshot =>
    have hpc : s.client () = .setWrite arg snapshot := hen
    cases arg with
    | none =>
      -- what is stored says that the object is not set, whatever was read
      have hset : (k.disarmFlags snapshot).set = false := k.disarmFlags_set snapshot
      have hp : (next k s (.setWrite c none snapshot)).client () = .setSignal none := by
        simp only [next, State.setWrite, State.clientTo, Function.update_self]
      exact ⟨fun _ => hset, h.thread, fun _ => by rw [hp]; rfl, fun _ => hset⟩
    | some arg =>
      -- a client that arms the object has not disarmed it
      have hnot : ¬ s.disarmed = true := fun hd => by
        have harming := h.client hd
        rw [hpc] at harming; cases harming
      have hp : (next k s (.setWrite c (some arg) snapshot)).client () = .freshRead arg := by
        simp only [next, State.setWrite, State.clientTo, Function.update_self]
      exact ⟨fun hd => absurd hd hnot, h.thread, fun hd => absurd hd hnot,
        fun hu => by rw [hp] at hu; cases hu⟩
  | freshRead c arg =>
    have hpc : s.client () = .freshRead arg := hen
    refine h.clientMove rfl (fun hd => ?_) rfl id rfl
    have harming := h.client hd
    rw [hpc] at harming; cases harming
  | freshWrite c arg snapshot =>
    have hpc : s.client () = .freshWrite arg snapshot := hen
    have hnot : ¬ s.disarmed = true := fun hd => by
      have harming := h.client hd
      rw [hpc] at harming; cases harming
    have hp : (next k s (.freshWrite c arg snapshot)).client () = .setSignal (some arg) := by
      simp only [next, State.freshWrite, State.clientTo, Function.update_self]
    exact ⟨fun hd => absurd hd hnot, h.thread, fun hd => absurd hd hnot,
      fun hu => by rw [hp] at hu; cases hu⟩
  | setSignal c arg =>
    have hpc : s.client () = .setSignal arg := hen
    have hp : (next k s (.setSignal c arg)).client () = .setRelease arg := by
      simp only [next, State.setSignal, State.clientTo, Function.update_self]
    refine ⟨h.clear, h.thread, fun hd => ?_, fun hu => ?_⟩
    · have harming := h.client hd
      rw [hpc] at harming
      rw [hp]
      cases arg with
      | none => rfl
      | some arg => cases harming
    · rw [hp] at hu
      cases arg with
      | none => exact h.written (by rw [hpc]; rfl)
      | some arg => cases hu
  | setRelease c arg =>
    have hpc : s.client () = .setRelease arg := hen
    have hp : (next k s (.setRelease c arg)).client () = .idle := by
      simp only [next, State.setRelease, State.clientTo, Function.update_self]
    -- the client held the lock until now
    have hown : s.lock = some (.client ()) := (hlock.client ()).mpr (by rw [hpc]; rfl)
    have hout : s.thread.inSection = false := by
      by_contra hin
      rw [hlock.thread.mpr (by simpa using hin)] at hown
      cases hown
    refine ⟨fun hd => ?_, fun _ => hout, fun _ => by rw [hp]; rfl,
      fun hu => by rw [hp] at hu; cases hu⟩
    cases arg with
    | none => exact h.written (by rw [hpc]; rfl)
    | some arg => exact h.clear (by simpa [next, State.setRelease] using hd)
  | closeWrite c snapshot =>
    exact h.clientMove rfl (fun hd => ⟨hd, rfl⟩) rfl (fun _ => k.disarmFlags_set snapshot) rfl
  | waitReference c fCancel =>
    refine h.clientMove (p := if s.referenceCount + 1 ≤ 1 then .idle
      else if fCancel then .waitCancel else .waitEvent false) rfl (fun hd => ⟨hd, ?_⟩) ?_ id rfl <;>
      split_ifs <;> rfl
  | waitEvent c fCancel =>
    refine h.clientMove (p := if fCancel then .waitClearCancel else .waitDereference) rfl
      (fun hd => ⟨hd, ?_⟩) ?_ id rfl <;> split <;> rfl
  | closeHandle c previous fromCallback =>
    refine h.clientMove (p := if !previous && s.threadHandle && !fromCallback then .closeWait
      else .closeZwClose s.threadHandle) rfl (fun hd => ⟨hd, ?_⟩) ?_ id rfl <;> split <;> rfl
  | closeZwClose c handle =>
    refine h.clientMove (p := if k.unsetsOnClose then .closeLock else .closeDereference) rfl
      (fun hd => ⟨hd, ?_⟩) ?_ id rfl <;> split <;> rfl
  | callWait | waitCancel | waitSignal | waitClearCancel | waitDereference | callClose | closeOr
  | closeSignal | closeWait | closeRead | closeLock | closeDereference =>
    exact h.clientMove rfl (fun hd => ⟨hd, rfl⟩) rfl id rfl

theorem unset_of_reachable {settings : S} {guard : State S A Unit → Action S A Unit → Prop} :
    ∀ s, (watcher k Unit settings).Reachable guard s → Unset s := by
  refine System.Reachable.invariantUnder (lockExact_of_reachable k) ?_
    (fun s a hlock h hen _ => unset_step s a hlock h hen)
  rintro s rfl
  exact ⟨nofun, nofun, nofun, nofun⟩

/-! ## The event -/

/-- While a callback is under way the event is clear. -/
def EventClear (s : State S A Unit) : Prop := s.thread.running = true → s.event = false

/-- A step that leaves the event alone and begins no callback. -/
theorem EventClear.move {s s' : State S A Unit} (h : EventClear s)
    (hrunning : s'.thread.running = true → s.thread.running = true) (hevent : s'.event = s.event) :
    EventClear s' := fun hrun => by rw [hevent]; exact h (hrunning hrun)

theorem eventClear_step (s : State S A Unit) (a : Action S A Unit) (h : EventClear s)
    (hen : Enabled k s a) : EventClear (next k s a) := by
  cases a with
  | top | expire =>
    refine h.move ?_ ?_ <;> simp only [next, State.top, State.expire] <;> split_ifs <;>
      simp [State.threadTo, ThreadPc.running]
  | elapse copy status | test status =>
    refine h.move ?_ rfl
    simp only [next, State.elapse, State.test, State.threadTo]
    split <;> exact fun h => by cases h
  | complete =>
    have hpc : s.thread = .complete := hen
    exact h.move (fun _ => by rw [hpc]; rfl) rfl
  | endCallback | clearCancel =>
    have hpc : s.thread = _ := hen
    exact h.move (fun _ => by rw [hpc]; rfl) rfl
  | resetEvent => exact fun _ => rfl
  | control | markRead | markWrite | reference | count | setEvent | dereference
  | exitDereference =>
    intro hruns
    cases hruns
  | setWrite c arg snapshot => cases arg <;> exact h.move id rfl
  | _ => exact h.move id rfl

theorem eventClear_of_reachable {settings : S} {guard : State S A Unit → Action S A Unit → Prop} :
    ∀ s, (watcher k Unit settings).Reachable guard s → EventClear s := by
  refine System.Reachable.invariant ?_ (fun s a h hen _ => eventClear_step s a h hen)
  rintro s rfl
  exact nofun

/-! ## After the wait -/

/-- Once the wait has seen the event of a disarmed object nothing is under way, and this lasts
after it has returned. -/
structure Quiet (k : Kind S A) (s : State S A Unit) : Prop where
  waited : s.disarmed = true → s.client () = .waitClearCancel ∨ s.client () = .waitDereference →
    Settled k s
  quiet : s.quiet = true → s.disarmed = true ∧ Settled k s
  /-- A word read since then starts no callback that `Flags` would not start. -/
  read : s.quiet = true → ∀ f, (s.client ()).snapshot = some f → k.starts f = true →
    k.starts s.flags = true

/-- The thread of an object that is not set stays settled and leaves `Flags` alone. -/
theorem settled_thread (s : State S A Unit) (a : Action S A Unit) (hset : s.flags.set = false)
    (hsection : s.thread.inSection = false) (h : Settled k s) (hen : Enabled k s a)
    (hthread : a.byThread = true) : Settled k (next k s a) ∧ (next k s a).flags = s.flags := by
  obtain ⟨hstarting, hrunning⟩ := h
  cases a with
  | top =>
    simp only [next, State.top]
    split_ifs <;> exact ⟨⟨rfl, rfl⟩, rfl⟩
  | elapse copy status =>
    refine ⟨⟨?_, ?_⟩, rfl⟩ <;> simp only [next, State.elapse, State.threadTo] <;> split <;> rfl
  | expire copy status =>
    simp only [next, State.expire, hset, Bool.not_false, Bool.or_true, if_true]
    exact ⟨⟨rfl, rfl⟩, rfl⟩
  | test status =>
    have hpc : s.thread = .test status := hen
    rw [hpc] at hstarting
    have hnot : k.starts s.flags = false := hstarting
    simp only [next, State.test, hnot, Bool.false_eq_true, if_false]
    exact ⟨⟨rfl, rfl⟩, rfl⟩
  | control | dereference | exitDereference => exact ⟨⟨rfl, rfl⟩, rfl⟩
  | markRead | markWrite =>
    have hpc : s.thread = _ := hen
    rw [hpc] at hsection; cases hsection
  | reference | count | resetEvent =>
    have hpc : s.thread = _ := hen
    rw [hpc] at hstarting; cases hstarting
  | endCallback | complete | clearCancel | setEvent =>
    have hpc : s.thread = _ := hen
    rw [hpc] at hrunning; cases hrunning
  | _ => cases hthread

/-- A client step after which `Flags` starts no callback that it did not start before. -/
theorem Settled.of_flags {s s' : State S A Unit} (h : Settled k s) (hthread : s'.thread = s.thread)
    (hflags : k.starts s'.flags = true → k.starts s.flags = true) : Settled k s' := by
  obtain ⟨hstarting, hrunning⟩ := h
  refine ⟨?_, by rw [hthread]; exact hrunning⟩
  rw [hthread]
  cases hpc : s.thread with
  | test status =>
    rw [hpc] at hstarting
    by_contra hstarts
    have hbefore : k.starts s.flags = true := hflags (by simpa [ThreadPc.starting] using hstarts)
    exact absurd hstarting (by simp [ThreadPc.starting, hbefore])
  | _ => rw [hpc] at hstarting; exact hstarting

/-- A client step that does not go on to the end of a wait. -/
theorem Quiet.clientMove {s s' : State S A Unit} (h : Quiet k s) {p : ClientPc A}
    (hmove : s'.client = Function.update s.client () p)
    (hwait : p ≠ .waitClearCancel ∧ p ≠ .waitDereference)
    (hquiet : s'.quiet = true → s.quiet = true ∧ (s.disarmed = true → s'.disarmed = true))
    (hflags : s.quiet = true → k.starts s'.flags = true → k.starts s.flags = true)
    (hread : ∀ f, p.snapshot = some f → f = s'.flags) (hthread : s'.thread = s.thread) :
    Quiet k s' := by
  have hp : s'.client () = p := by rw [hmove, Function.update_self]
  refine ⟨fun _ hw => ?_, fun hq => ?_, fun _ f hf hstarts => ?_⟩
  · rw [hp] at hw
    rcases hw with hw | hw
    · exact absurd hw hwait.1
    · exact absurd hw hwait.2
  · obtain ⟨hbefore, hstays⟩ := hquiet hq
    obtain ⟨hdisarmed, hsettled⟩ := h.quiet hbefore
    exact ⟨hstays hdisarmed, hsettled.of_flags hthread (hflags hbefore)⟩
  · rw [hp] at hf
    exact hread f hf ▸ hstarts

theorem quiet_step (s : State S A Unit) (a : Action S A Unit) (hcounted : Counted s)
    (hunset : Unset s) (hevent : EventClear s) (h : Quiet k s) (hen : Enabled k s a)
    (hguard : SettledWait k s a) : Quiet k (next k s a) := by
  by_cases hthread : a.byThread = true
  · -- the thread stays settled, and the client and its waits are where they were
    have hclient := client_eq_of_thread s a (k := k) hthread
    have hghosts : (next k s a).disarmed = s.disarmed ∧ (next k s a).quiet = s.quiet := by
      cases a with
      | top | expire => simp only [next, State.top, State.expire]; split_ifs <;> exact ⟨rfl, rfl⟩
      | _ => first | exact ⟨rfl, rfl⟩ | cases hthread
    have hkeep : s.disarmed = true → Settled k s →
        Settled k (next k s a) ∧ (next k s a).flags = s.flags := fun hd hsettled =>
      settled_thread s a (hunset.clear hd) (hunset.thread hd) hsettled hen hthread
    refine ⟨fun hd hw => ?_, fun hq => ?_, fun hq f hf hstarts => ?_⟩
    · rw [hghosts.1] at hd
      rw [hclient] at hw
      exact (hkeep hd (h.waited hd hw)).1
    · rw [hghosts.2] at hq
      obtain ⟨hd, hsettled⟩ := h.quiet hq
      exact ⟨hghosts.1 ▸ hd, (hkeep hd hsettled).1⟩
    · rw [hghosts.2] at hq
      obtain ⟨hd, hsettled⟩ := h.quiet hq
      rw [(hkeep hd hsettled).2]
      exact h.read hq f (hclient ▸ hf) hstarts
  cases a with
  | callSet c arg =>
    refine h.clientMove rfl ⟨by simp, by simp⟩ (fun hq => ?_) (fun _ => id)
      (by intros; contradiction) rfl
    simp only [next, State.callSet, Bool.and_eq_true] at hq ⊢
    exact ⟨hq.1, fun hd => ⟨hd, hq.2⟩⟩
  | setRelease c arg =>
    refine h.clientMove rfl ⟨by simp, by simp⟩ (fun hq => ⟨hq, fun hd => ?_⟩) (fun _ => id)
      (by intros; contradiction) rfl
    simp only [next, State.setRelease, hd, Bool.true_or]
  | setRead | freshRead | closeRead =>
    exact h.clientMove rfl ⟨by simp, by simp⟩ (fun hq => ⟨hq, id⟩) (fun _ => id)
      (fun f hf => (Option.some.inj hf).symm) rfl
  | setWrite c arg snapshot =>
    have hpc : s.client () = .setWrite arg snapshot := hen
    cases arg with
    | none =>
      refine h.clientMove rfl ⟨by simp, by simp⟩ (fun hq => ⟨hq, id⟩) (fun hq hstarts => ?_)
        (by intros; contradiction) rfl
      exact h.read hq snapshot (by rw [hpc]; rfl) (k.disarmFlags_starts snapshot hstarts)
    | some arg =>
      refine h.clientMove rfl ⟨by simp, by simp⟩ (fun hq => ⟨hq, id⟩) (fun hq _ => ?_)
        (by intros; contradiction) rfl
      have harming := hunset.client (h.quiet hq).1
      rw [hpc] at harming; cases harming
  | freshWrite c arg snapshot =>
    have hpc : s.client () = .freshWrite arg snapshot := hen
    refine h.clientMove rfl ⟨by simp, by simp⟩ (fun hq => ⟨hq, id⟩) (fun hq _ => ?_)
      (by intros; contradiction) rfl
    have harming := hunset.client (h.quiet hq).1
    rw [hpc] at harming; cases harming
  | closeWrite c snapshot =>
    have hpc : s.client () = .closeWrite snapshot := hen
    refine h.clientMove rfl ⟨by simp, by simp⟩ (fun hq => ⟨hq, id⟩) (fun hq hstarts => ?_)
      (by intros; contradiction) rfl
    exact h.read hq snapshot (by rw [hpc]; rfl) (k.disarmFlags_starts snapshot hstarts)
  | waitReference c fCancel =>
    -- the reference is not refused, for the object is still counted
    have hadmitted := hcounted.not_refused (hen : s.client () = .waitReference fCancel)
    refine h.clientMove (p := if fCancel then .waitCancel else .waitEvent false) ?_ ?_
      (fun hq => ?_) (fun _ => id) ?_ rfl
    · simp only [next, State.waitReference, State.clientTo, if_neg hadmitted]
    · cases fCancel <;> exact ⟨by simp, by simp⟩
    · simp only [next, State.waitReference, if_neg hadmitted] at hq
      exact ⟨hq, id⟩
    · cases fCancel <;> exact (by intros; contradiction)
  | waitCancel c =>
    refine h.clientMove rfl ⟨by simp, by simp⟩ (fun hq => ⟨hq, id⟩) (fun _ hstarts => ?_)
      (by intros; contradiction) rfl
    -- cancelling starts no callback
    exact absurd (k.starts_cancel _ hstarts) (by rintro ⟨⟩)
  | closeOr c fromCallback =>
    refine h.clientMove rfl ⟨by simp, by simp⟩ (fun hq => ⟨hq, id⟩) (fun _ hstarts => ?_)
      (by intros; contradiction) rfl
    -- nor does deleting
    exact absurd (k.starts_delete _ hstarts) (by rintro ⟨⟩)
  | waitEvent c fCancel =>
    -- a callback under way would have cleared the event
    have hrunning : s.thread.running = false := by
      by_contra hrun
      have hclear := hevent (by simpa using hrun)
      rw [hen.2] at hclear; cases hclear
    refine ⟨fun hd _ => ⟨hguard hd, hrunning⟩, h.quiet, fun _ f hf => ?_⟩
    have hp : (next k s (.waitEvent c fCancel)).client () =
        if fCancel then .waitClearCancel else .waitDereference := by
      simp only [next, State.waitEvent, State.clientTo, Function.update_self]
    rw [hp] at hf
    cases fCancel <;> cases hf
  | waitClearCancel c =>
    have hpc : s.client () = .waitClearCancel := hen
    have hp : (next k s (.waitClearCancel c)).client () = .waitDereference := by
      simp only [next, State.waitClearCancel, State.clientTo, Function.update_self]
    -- what the wait has found stays as it was
    have hsettled : s.disarmed = true → Settled k (next k s (.waitClearCancel c)) := fun hd =>
      ⟨hguard hd, (h.waited hd (Or.inl hpc)).2⟩
    refine ⟨fun hd _ => hsettled hd, fun hq => ?_, fun _ f hf => ?_⟩
    · exact ⟨(h.quiet hq).1, hsettled (h.quiet hq).1⟩
    · rw [hp] at hf; cases hf
  | waitDereference c =>
    have hpc : s.client () = .waitDereference := hen
    have hp : (next k s (.waitDereference c)).client () = .idle := by
      simp only [next, State.waitDereference, State.clientTo, Function.update_self]
    refine ⟨fun _ hw => ?_, fun hd => ⟨hd, h.waited hd (Or.inr hpc)⟩, fun _ f hf => ?_⟩
    · rw [hp] at hw
      rcases hw with hw | hw <;> cases hw
    · rw [hp] at hf; cases hf
  | closeHandle c previous fromCallback =>
    refine h.clientMove (p := if !previous && s.threadHandle && !fromCallback then .closeWait
      else .closeZwClose s.threadHandle) rfl ?_ (fun hq => ⟨hq, id⟩) (fun _ => id) ?_ rfl
    · split <;> exact ⟨by simp, by simp⟩
    · split <;> exact (by intros; contradiction)
  | closeZwClose c handle =>
    refine h.clientMove (p := if k.unsetsOnClose then .closeLock else .closeDereference) rfl ?_
      (fun hq => ⟨hq, id⟩) (fun _ => id) ?_ rfl
    · split <;> exact ⟨by simp, by simp⟩
    · split <;> exact (by intros; contradiction)
  | setLock | setSignal | callWait | waitSignal | callClose | closeSignal | closeWait | closeLock
  | closeDereference =>
    exact h.clientMove rfl ⟨by simp, by simp⟩ (fun hq => ⟨hq, id⟩) (fun _ => id)
      (fun _ hf => by cases hf) rfl
  | _ => exact absurd rfl hthread

theorem quiet_of_reachable {settings : S} :
    ∀ s, (watcher k Unit settings).Reachable (SettledWait k) s → Quiet k s := by
  refine System.Reachable.invariantUnder
    (J := fun s => Counted s ∧ Unset s ∧ EventClear s)
    (fun s hs => ⟨counted_of_reachable s hs, unset_of_reachable s hs, eventClear_of_reachable s hs⟩)
    ?_ (fun s a hJ h hen hguard => quiet_step s a hJ.1 hJ.2.1 hJ.2.2 h hen hguard)
  rintro s rfl
  exact ⟨nofun, nofun, nofun⟩

/-! ## The barrier -/

/-- When no wait of a disarmed object falls into the thread's window, no callback runs from the
return of the wait until the object is armed again, for timers and for wait objects. -/
theorem disarm_is_barrier (status : WaitStatus) :
    (∀ s, (Timer.timer Unit).Reachable (SettledWait Timer.kind) s → s.quiet = true →
      s.thread ≠ .callback status) ∧
    ∀ s, (Wait.wait Unit).Reachable (SettledWait Wait.kind) s → s.quiet = true →
      s.thread ≠ .callback status := by
  constructor
  · intro s hreach hquiet hpc
    have hrunning := ((quiet_of_reachable s hreach).quiet hquiet).2.2
    rw [hpc] at hrunning; cases hrunning
  · intro s hreach hquiet hpc
    have hrunning := ((quiet_of_reachable s hreach).quiet hquiet).2.2
    rw [hpc] at hrunning; cases hrunning

/-! ## Runs -/

/-- From the window the thread comes to a callback on its own. -/
theorem starting_reaches_callback (settings : S) (s : State S A Unit)
    (hstarting : s.thread.starting k s.flags = true) :
    ∃ s', (watcher k Unit settings).Path Always s s' ∧ s'.quiet = s.quiet ∧
      ∃ status, s'.thread = .callback status := by
  have hreset : ∀ t : State S A Unit, ∀ status, t.thread = .resetEvent status →
      ∃ s', (watcher k Unit settings).Path Always t s' ∧ s'.quiet = t.quiet ∧
        ∃ status, s'.thread = .callback status := fun t status hpc =>
    ⟨t.resetEvent status, System.path_single (M := watcher k Unit settings)
      (a := .resetEvent status) hpc trivial, rfl, status, rfl⟩
  have hcount : ∀ t : State S A Unit, ∀ status, t.thread = .count status →
      ∃ s', (watcher k Unit settings).Path Always t s' ∧ s'.quiet = t.quiet ∧
        ∃ status, s'.thread = .callback status := fun t status hpc => by
    obtain ⟨s', hpath, hquiet, hcallback⟩ := hreset (t.count status) status rfl
    exact ⟨s', System.path_head (a := .count status) hpc trivial hpath, hquiet, hcallback⟩
  have hreference : ∀ t : State S A Unit, ∀ status, t.thread = .reference status →
      ∃ s', (watcher k Unit settings).Path Always t s' ∧ s'.quiet = t.quiet ∧
        ∃ status, s'.thread = .callback status := fun t status hpc => by
    obtain ⟨s', hpath, hquiet, hcallback⟩ := hcount (t.reference status) status rfl
    exact ⟨s', System.path_head (a := .reference status) hpc trivial hpath, hquiet, hcallback⟩
  cases hpc : s.thread with
  | test status =>
    have hstarts : k.starts s.flags = true := by rw [hpc] at hstarting; exact hstarting
    have hnext : (s.test k status).thread = .reference status := by
      simp only [State.test, State.threadTo, hstarts, if_true]
    obtain ⟨s', hpath, hquiet, hcallback⟩ := hreference (s.test k status) status hnext
    exact ⟨s', System.path_head (a := .test status) hpc trivial hpath, hquiet, hcallback⟩
  | reference status => exact hreference s status hpc
  | count status => exact hcount s status hpc
  | resetEvent status => exact hreset s status hpc
  | _ => rw [hpc] at hstarting; cases hstarting

/-- Taking back a cancel request keeps the thread in its window. -/
theorem starting_of_clear {f : Flags} {p : ThreadPc S} (h : p.starting k f = true) :
    p.starting k { f with cancelRequested := false } = true := by
  cases p with
  | test status =>
    have hcancel : f.cancelRequested = false := k.starts_cancel f h
    have hsame : ({ f with cancelRequested := false } : Flags) = f := by
      rw [← hcancel]
    rw [hsame]; exact h
  | _ => exact h

/-- A wait that falls into the window can return with a callback to come. -/
theorem unsettled_wait_reaches_callback {settings : S} (s : State S A Unit) (a : Action S A Unit)
    (hdisarmed : s.disarmed = true) (hen : Enabled k s a)
    (hwait : (∃ fCancel, a = .waitEvent () fCancel) ∨ a = .waitClearCancel ())
    (hguard : ¬ SettledWait k s a) :
    ∃ s', (watcher k Unit settings).Path Always s s' ∧ s'.quiet = true ∧
      ∃ status, s'.thread = .callback status := by
  have hreturn : ∀ t : State S A Unit, t.client () = .waitDereference → t.disarmed = true →
      t.thread.starting k t.flags = true →
      ∃ s', (watcher k Unit settings).Path Always t s' ∧ s'.quiet = true ∧
        ∃ status, s'.thread = .callback status := fun t hpc hd hstarting => by
    obtain ⟨s', hpath, hquiet, hcallback⟩ :=
      starting_reaches_callback settings (t.waitDereference ()) hstarting
    exact ⟨s', System.path_head (a := .waitDereference ()) hpc trivial hpath,
      hquiet.trans hd, hcallback⟩
  have hclear : ∀ t : State S A Unit, t.client () = .waitClearCancel → t.disarmed = true →
      t.thread.starting k { t.flags with cancelRequested := false } = true →
      ∃ s', (watcher k Unit settings).Path Always t s' ∧ s'.quiet = true ∧
        ∃ status, s'.thread = .callback status := fun t hpc hd hstarting => by
    have hp : (t.waitClearCancel ()).client () = .waitDereference := by
      simp only [State.waitClearCancel, State.clientTo, Function.update_self]
    obtain ⟨s', hpath, hquiet⟩ := hreturn (t.waitClearCancel ()) hp hd hstarting
    exact ⟨s', System.path_head (a := .waitClearCancel ()) hpc trivial hpath, hquiet⟩
  rcases hwait with ⟨fCancel, rfl⟩ | rfl
  · have hstarting : s.thread.starting k s.flags = true := by
      simpa [SettledWait, hdisarmed] using hguard
    have hp : (s.waitEvent () fCancel).client () =
        if fCancel then .waitClearCancel else .waitDereference := by
      simp only [State.waitEvent, State.clientTo, Function.update_self]
    obtain ⟨s', hpath, hquiet⟩ : ∃ s', (watcher k Unit settings).Path Always
        (s.waitEvent () fCancel) s' ∧ s'.quiet = true ∧ ∃ status, s'.thread = .callback status := by
      cases fCancel with
      | false => exact hreturn _ hp hdisarmed hstarting
      | true => exact hclear _ hp hdisarmed (starting_of_clear hstarting)
    exact ⟨s', System.path_head (a := .waitEvent () fCancel) hen trivial hpath, hquiet⟩
  · have hstarting : s.thread.starting k { s.flags with cancelRequested := false } = true := by
      simpa [SettledWait, hdisarmed] using hguard
    exact hclear s hen hdisarmed hstarting

/-- The run up to the wait: the object is armed, what it waits for is due, and the thread has
passed its test when the client disarms it. The words are those that the two set calls and the
thread read. -/
def windowRun (arg : A) (copy : S) (status : WaitStatus) (disarmWord : Flags) :
    List (Action S A Unit) :=
  armRun () arg ⟨false, false, false, false⟩ ⟨false, false, true, false⟩ ++
    [.top, .control, .top, .elapse copy status, .expire copy status] ++
    [.markRead status, .markWrite ⟨false, false, true, false⟩ status, .test status,
      .callSet () none, .setLock () none, .setRead () none, .setWrite () none disarmWord,
      .setSignal () none, .setRelease () none]

/-- A wait for the callbacks. -/
def waitRun : List (Action S A Unit) :=
  [.callWait () false, .waitReference () false, .waitEvent () false, .waitDereference ()]

/-- A callback of a disarmed object runs after the wait has returned, for timers and for wait
objects. -/
theorem disarm_misses_callback :
    (∃ s, (Timer.timer Unit).Reachable Always s ∧ s.closeRequested = false ∧ s.quiet = true ∧
      s.thread = .callback .timeout) ∧
    ∃ s, (Wait.wait Unit).Reachable Always s ∧ s.closeRequested = false ∧ s.quiet = true ∧
      s.thread = .callback .object := by
  constructor
  · let run : List (Action Timer.Settings Timer.Settings Unit) :=
      windowRun ⟨-10000, 0, 0⟩ ⟨-10000, 0, 0⟩ .timeout ⟨false, false, true, true⟩ ++ waitRun ++
        [.reference .timeout, .count .timeout, .resetEvent .timeout]
    refine ⟨(Timer.timer Unit).exec (initialState _ _ ⟨0, 0, 0⟩) run,
      System.reachable_exec _ run rfl (by decide), ?_⟩
    decide
  · let run : List (Action Wait.Settings Wait.Registration Unit) :=
      windowRun ⟨0, none⟩ ⟨some 0, 0, false⟩ .object ⟨false, false, false, false⟩ ++ waitRun ++
        [.reference .object, .count .object, .resetEvent .object]
    refine ⟨(Wait.wait Unit).exec (initialState _ _ ⟨none, 0, false⟩) run,
      System.reachable_exec _ run rfl (by decide), ?_⟩
    decide

/-- The rest of the callback, from the count on. -/
def completeRun (status : WaitStatus) : List (Action S A Unit) :=
  [.reference status, .count status, .resetEvent status, .endCallback status, .complete,
    .clearCancel, .setEvent, .dereference]

/-- The condition is met by a timer and a wait object whose callback has been completed before the
wait, and the wait is a barrier for them. -/
theorem settled_disarm_is_barrier :
    ((Timer.timer Unit).exec (initialState _ _ ⟨0, 0, 0⟩)
      (windowRun ⟨-10000, 0, 0⟩ ⟨-10000, 0, 0⟩ .timeout ⟨false, false, true, true⟩ ++
        completeRun .timeout ++ waitRun)).thread ≠ .callback .timeout ∧
    ((Wait.wait Unit).exec (initialState _ _ ⟨none, 0, false⟩)
      (windowRun ⟨0, none⟩ ⟨some 0, 0, false⟩ .object ⟨false, false, false, false⟩ ++
        completeRun .object ++ waitRun)).thread ≠ .callback .object := by
  constructor
  · have hadmits : (Timer.timer Unit).Admits (SettledWait Timer.kind) (initialState _ _ ⟨0, 0, 0⟩)
        (windowRun ⟨-10000, 0, 0⟩ ⟨-10000, 0, 0⟩ .timeout ⟨false, false, true, true⟩ ++
          completeRun .timeout ++ waitRun) := by decide
    exact (disarm_is_barrier _).1 _ (System.reachable_exec _ _ rfl hadmits) (by decide)
  · have hadmits : (Wait.wait Unit).Admits (SettledWait Wait.kind)
        (initialState _ _ ⟨none, 0, false⟩)
        (windowRun ⟨0, none⟩ ⟨some 0, 0, false⟩ .object ⟨false, false, false, false⟩ ++
          completeRun .object ++ waitRun) := by decide
    exact (disarm_is_barrier _).2 _ (System.reachable_exec _ _ rfl hadmits) (by decide)

end Ldk.Threadpool
