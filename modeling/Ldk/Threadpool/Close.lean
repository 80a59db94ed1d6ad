import Mathlib
import Ldk.Threadpool.Timer
import Ldk.Threadpool.Wait

/-!
# Close requests of watched objects

The close routines or `DELETE_REQUESTED` into `Flags` with an interlocked operation, outside the
spin lock. `SetFlag` and `ClearFlag` read and write the whole word under the lock, so one that has
read the word before the request writes it back without the request.

- `PromptDelete`: the request is not made between such a read and its write.
- `Deleted`: then the request stays in `Flags` and in every word read since.
- `ControlPending`: a thread that waits after the request is woken by the control event.
- `close_request_is_kept`: the request stays, every step of the thread brings it closer to its
  end, and the thread can get there, for timers and for wait objects.
- `lost_delete_request`: runs in which the request is overwritten.
-/

namespace Ldk.Threadpool

open TransitionSystem

variable {S A C : Type} [DecidableEq C] {k : Kind S A}

/-! ## Open read-modify-write operations -/

/-- The word that an open read-modify-write of the thread has read. -/
def ThreadPc.snapshot : ThreadPc S → Option Flags
  | .markWrite snapshot _ => some snapshot
  | _ => none

/-- The word that an open read-modify-write of a client has read. -/
def ClientPc.snapshot : ClientPc A → Option Flags
  | .setWrite _ snapshot | .freshWrite _ snapshot | .closeWrite snapshot => some snapshot
  | _ => none

/-- Every open read-modify-write of `Flags` has read `DELETE_REQUESTED`. -/
def SnapshotsDeleted (s : State S A C) : Prop :=
  (∀ f, s.thread.snapshot = some f → f.deleteRequested = true) ∧
    ∀ c f, (s.client c).snapshot = some f → f.deleteRequested = true

/-- `DELETE_REQUESTED` is or-ed into `Flags` only while no `SetFlag` or `ClearFlag` is between its
read and its write, unless the bit was there already when it read. -/
def PromptDelete (s : State S A C) : Action S A C → Prop
  | .closeOr _ _ => SnapshotsDeleted s
  | _ => True

instance [Fintype C] (s : State S A C) : Decidable (SnapshotsDeleted s) :=
  inferInstanceAs (Decidable ((∀ f ∈ s.thread.snapshot, f.deleteRequested = true) ∧
    ∀ c, ∀ f ∈ (s.client c).snapshot, f.deleteRequested = true))

instance [Fintype C] (s : State S A C) (a : Action S A C) : Decidable (PromptDelete s a) := by
  rcases a <;> unfold PromptDelete <;> infer_instance

/-- The request, once made, is in `Flags` and in every word read since. -/
def Deleted (s : State S A C) : Prop :=
  s.closeRequested = true → s.flags.deleteRequested = true ∧ SnapshotsDeleted s

/-! ## The request stays -/

omit [DecidableEq C] in
/-- A thread step that leaves `Flags` alone and has read nothing. -/
theorem Deleted.threadMove {s s' : State S A C} (h : Deleted s)
    (hnone : s'.thread.snapshot = none) (hclient : s'.client = s.client)
    (hflags : s'.flags.deleteRequested = s.flags.deleteRequested)
    (hclose : s'.closeRequested = s.closeRequested) : Deleted s' := by
  intro hrequested
  obtain ⟨hflag, -, hsnapshots⟩ := h (hclose ▸ hrequested)
  refine ⟨by rw [hflags, hflag], fun f hf => ?_, by rw [hclient]; exact hsnapshots⟩
  rw [hnone] at hf; cases hf

/-- A client step that leaves the bit alone and has read `Flags` or nothing. -/
theorem Deleted.clientMove {s s' : State S A C} (h : Deleted s) {c : C} {p : ClientPc A}
    (hmove : s'.client = Function.update s.client c p)
    (hsnapshot : p.snapshot = none ∨ p.snapshot = some s.flags) (hthread : s'.thread = s.thread)
    (hflags : s.flags.deleteRequested = true → s'.flags.deleteRequested = true)
    (hclose : s'.closeRequested = s.closeRequested) : Deleted s' := by
  intro hrequested
  obtain ⟨hflag, hthreadSnapshot, hsnapshots⟩ := h (hclose ▸ hrequested)
  refine ⟨hflags hflag, by rw [hthread]; exact hthreadSnapshot, fun d f hf => ?_⟩
  rw [hmove] at hf
  by_cases hd : d = c
  · subst hd
    rw [Function.update_self] at hf
    rcases hsnapshot with hnone | hread
    · rw [hnone] at hf; cases hf
    · rw [hread] at hf; obtain rfl := Option.some.inj hf; exact hflag
  · rw [Function.update_of_ne hd] at hf
    exact hsnapshots d f hf

/-- A client step that writes back the word it has read. -/
theorem Deleted.clientWrite {s s' : State S A C} (h : Deleted s) {c : C} {p q : ClientPc A}
    {f : Flags} {g : Flags → Flags} (hpc : s.client c = q) (hread : q.snapshot = some f)
    (hmove : s'.client = Function.update s.client c p) (hnone : p.snapshot = none)
    (hthread : s'.thread = s.thread) (hwrite : s'.flags = g f)
    (hkeeps : ∀ f, (g f).deleteRequested = f.deleteRequested)
    (hclose : s'.closeRequested = s.closeRequested) : Deleted s' := by
  intro hrequested
  obtain ⟨-, hthreadSnapshot, hsnapshots⟩ := h (hclose ▸ hrequested)
  refine ⟨?_, by rw [hthread]; exact hthreadSnapshot, fun d f' hf => ?_⟩
  · rw [hwrite, hkeeps]
    exact hsnapshots c f (by rw [hpc]; exact hread)
  · rw [hmove] at hf
    by_cases hd : d = c
    · subst hd; rw [Function.update_self, hnone] at hf; cases hf
    · rw [Function.update_of_ne hd] at hf
      exact hsnapshots d f' hf

theorem deleted_step (s : State S A C) (a : Action S A C) (h : Deleted s) (hen : Enabled k s a)
    (hprompt : PromptDelete s a) : Deleted (next k s a) := by
  cases a with
  | top =>
    refine h.threadMove ?_ ?_ ?_ ?_ <;> simp only [next, State.top] <;> split_ifs <;> rfl
  | elapse copy status | test status =>
    refine h.threadMove ?_ rfl rfl rfl
    simp only [next, State.elapse, State.test, State.threadTo]
    split <;> rfl
  | expire copy status =>
    refine h.threadMove ?_ ?_ ?_ ?_ <;> simp only [next, State.expire] <;> split_ifs <;> rfl
  | complete =>
    refine h.threadMove ?_ rfl rfl rfl
    simp only [next, State.complete, State.threadTo]
    split <;> rfl
  | control | reference | count | resetEvent | endCallback | clearCancel | setEvent | dereference
  | exitDereference => exact h.threadMove rfl rfl rfl rfl
  | markRead status =>
    intro hrequested
    obtain ⟨hflag, -, hsnapshots⟩ := h hrequested
    refine ⟨hflag, fun f hf => ?_, hsnapshots⟩
    obtain rfl := Option.some.inj hf
    exact hflag
  | markWrite snapshot status =>
    intro hrequested
    obtain ⟨-, hsnapshot, hsnapshots⟩ := h hrequested
    have hpc : s.thread = .markWrite snapshot status := hen
    have hflag : (k.mark snapshot).deleteRequested = true :=
      (k.mark_delete snapshot).trans (hsnapshot snapshot (by rw [hpc]; rfl))
    exact ⟨hflag, ⟨fun f hf => (by cases hf), hsnapshots⟩⟩
  | callSet | setLock | freshRead | setRead | setSignal | setRelease | callWait | waitCancel
  | waitSignal | waitClearCancel | waitDereference | callClose | closeSignal | closeWait
  | closeRead | closeLock | closeDereference =>
    exact h.clientMove rfl (by first | exact Or.inl rfl | exact Or.inr rfl) rfl id rfl
  | waitReference c fCancel =>
    exact h.clientMove rfl (Or.inl (by split_ifs <;> rfl)) rfl id rfl
  | waitEvent c fCancel => exact h.clientMove rfl (Or.inl (by split <;> rfl)) rfl id rfl
  | closeHandle c previous fromCallback =>
    exact h.clientMove rfl (Or.inl (by split <;> rfl)) rfl id rfl
  | closeZwClose c handle => exact h.clientMove rfl (Or.inl (by split <;> rfl)) rfl id rfl
  | setWrite c arg snapshot =>
    cases arg with
    | none => exact h.clientWrite hen rfl rfl rfl rfl rfl k.disarmFlags_delete rfl
    | some arg => exact h.clientWrite hen rfl rfl rfl rfl rfl k.armFlags_delete rfl
  | freshWrite c arg snapshot =>
    exact h.clientWrite hen rfl rfl rfl rfl rfl k.freshFlags_delete rfl
  | closeWrite c snapshot =>
    exact h.clientWrite hen rfl rfl rfl rfl rfl k.disarmFlags_delete rfl
  | closeOr c fromCallback =>
    -- the request is made: no open operation has read the word without it
    intro _
    obtain ⟨hthread, hclients⟩ : SnapshotsDeleted s := hprompt
    refine ⟨rfl, hthread, fun d f hf => ?_⟩
    by_cases hd : d = c
    · subst hd
      simp [next, State.closeOr, State.clientTo, ClientPc.snapshot] at hf
    · exact hclients d f (by
        simpa [next, State.closeOr, State.clientTo, Function.update_of_ne hd] using hf)

theorem deleted_of_reachable {settings : S} :
    ∀ s, (watcher k C settings).Reachable PromptDelete s → Deleted s := by
  refine System.Reachable.invariant ?_ (fun s a h hen hprompt => deleted_step s a h hen hprompt)
  rintro s rfl hrequested
  cases hrequested

/-! ## The wakeup -/

/-- A thread that waits after the request has its control event signalled, or will have it
signalled by a closer on its way. -/
def ControlPending (s : State S A C) : Prop :=
  s.closeRequested = true → s.thread.waits = true →
    s.controlEvent = true ∨ ∃ c previous fromCallback,
      s.client c = .closeSignal previous fromCallback

omit [DecidableEq C] in
/-- A thread step that does not end in a wait. -/
theorem ControlPending.threadMove {s' : State S A C} (hwaits : s'.thread.waits = false) :
    ControlPending s' := by
  intro _ h
  rw [hwaits] at h
  cases h

/-- A client step from anywhere but right before the signal. -/
theorem ControlPending.clientMove {s s' : State S A C} (h : ControlPending s) {c : C}
    {p q : ClientPc A} (hpc : s.client c = q) (hsignal : ∀ b o, q ≠ .closeSignal b o)
    (hmove : s'.client = Function.update s.client c p) (hthread : s'.thread = s.thread)
    (hcontrol : s.controlEvent = true → s'.controlEvent = true)
    (hclose : s'.closeRequested = s.closeRequested) : ControlPending s' := by
  intro hrequested hwaits
  rcases h (hclose ▸ hrequested) (hthread ▸ hwaits) with hset | ⟨d, b, o, hd⟩
  · exact Or.inl (hcontrol hset)
  · refine Or.inr ⟨d, b, o, ?_⟩
    rw [hmove, Function.update_of_ne, hd]
    rintro rfl
    exact hsignal b o (hpc ▸ hd)

theorem controlPending_step (s : State S A C) (a : Action S A C) (hdeleted : Deleted s)
    (h : ControlPending s) (hen : Enabled k s a) : ControlPending (next k s a) := by
  cases a with
  | top =>
    simp only [next, State.top]
    split_ifs with hdelete harmed
    · exact ControlPending.threadMove rfl
    all_goals
      intro hrequested
      exact absurd (hdeleted hrequested).1 hdelete
  | elapse copy status | test status =>
    refine ControlPending.threadMove ?_
    simp only [next, State.elapse, State.test, State.threadTo]
    split <;> rfl
  | expire copy status =>
    simp only [next, State.expire]
    split_ifs <;> exact ControlPending.threadMove rfl
  | complete =>
    refine ControlPending.threadMove ?_
    simp only [next, State.complete, State.threadTo]
    split <;> rfl
  | control | reference | count | resetEvent | endCallback | clearCancel | setEvent | dereference
  | exitDereference | markRead | markWrite => exact ControlPending.threadMove rfl
  | callSet | setRead | freshRead | freshWrite | setRelease | callWait | waitCancel
  | waitClearCancel | waitDereference | callClose | closeRead | closeWrite | closeDereference
  | waitReference | closeHandle | closeZwClose =>
    exact h.clientMove hen (fun _ _ => (by simp)) rfl rfl id rfl
  | setLock | closeLock | waitEvent | closeWait =>
    exact h.clientMove hen.1 (fun _ _ => (by simp)) rfl rfl id rfl
  | setWrite c arg snapshot =>
    cases arg <;> exact h.clientMove hen (fun _ _ => (by simp)) rfl rfl id rfl
  | setSignal | waitSignal | closeSignal => exact fun _ _ => Or.inl rfl
  | closeOr c fromCallback =>
    exact fun _ _ => Or.inr ⟨c, s.flags.deleteRequested, fromCallback, by
      simp only [next, State.closeOr, State.clientTo, Function.update_self]⟩

theorem controlPending_of_reachable {settings : S} :
    ∀ s, (watcher k C settings).Reachable PromptDelete s → ControlPending s := by
  refine System.Reachable.invariantUnder deleted_of_reachable ?_
    (fun s a hdeleted h hen _ => controlPending_step s a hdeleted h hen)
  rintro s rfl hrequested
  cases hrequested

/-! ## The thread comes to its end -/

/-- How many steps the thread may still take once it has been asked to go. -/
def ThreadPc.rank : ThreadPc S → Nat
  | .exited => 0
  | .exitDereference => 1
  | .top => 2
  | .waitControl | .dereference => 3
  | .setEvent => 4
  | .clearCancel => 5
  | .complete => 6
  | .callback _ => 7
  | .resetEvent _ => 8
  | .count _ => 9
  | .reference _ => 10
  | .test _ => 11
  | .markWrite _ _ => 12
  | .markRead _ => 13
  | .expire _ _ => 14
  | .wait _ => 15

/-- How many steps a client is away from releasing the lock. -/
def ClientPc.sectionRank : ClientPc A → Nat
  | .setRead _ => 6
  | .setWrite _ _ => 5
  | .freshRead _ => 4
  | .freshWrite _ _ => 3
  | .setSignal _ | .closeRead => 2
  | .setRelease _ | .closeWrite _ => 1
  | _ => 0

/-- The steps of the watcher thread. -/
def Action.byThread : Action S A C → Bool
  | .top | .control | .elapse _ _ | .expire _ _ | .markRead _ | .markWrite _ _ | .test _
  | .reference _ | .count _ | .resetEvent _ | .endCallback _ | .complete | .clearCancel | .setEvent
  | .dereference | .exitDereference => true
  | _ => false

/-- Once the request is in `Flags`, every step of the thread brings it closer to its end. -/
theorem thread_rank_lt (s : State S A C) (a : Action S A C) (hen : Enabled k s a)
    (hdelete : s.flags.deleteRequested = true) (hthread : a.byThread = true) :
    (next k s a).thread.rank < s.thread.rank := by
  cases a with
  | top => simp [next, State.top, State.threadTo, hdelete, hen.1, ThreadPc.rank]
  | control =>
    have hwaits := hen.1
    simp only [next, State.control, State.threadTo]
    cases hpc : s.thread <;> simp_all [ThreadPc.waits, ThreadPc.rank]
  | elapse copy status =>
    have hpc : s.thread = .wait copy := hen.1
    simp only [next, State.elapse, State.threadTo, hpc]
    split <;> simp [ThreadPc.rank]
  | expire copy status =>
    simp [next, State.expire, State.threadTo, hdelete, hen.1, ThreadPc.rank]
  | test status =>
    have hpc : s.thread = .test status := hen
    simp only [next, State.test, State.threadTo, hpc]
    split <;> simp [ThreadPc.rank]
  | complete =>
    have hpc : s.thread = .complete := hen
    simp only [next, State.complete, State.threadTo, hpc]
    split <;> simp [ThreadPc.rank]
  | markRead | markWrite | reference | count | resetEvent | endCallback | clearCancel | setEvent
  | dereference | exitDereference =>
    have hpc : s.thread = _ := hen
    rw [hpc]
    exact Nat.lt_succ_self _
  | _ => cases hthread

/-- The other parties do not move the thread. -/
theorem thread_eq_of_client (s : State S A C) (a : Action S A C) (hclient : a.byThread = false) :
    (next k s a).thread = s.thread := by
  cases a with
  | setWrite c arg snapshot => cases arg <;> rfl
  | _ => first | rfl | cases hclient

/-- The rank of the thread first, then what the thread may have to wait for. -/
def exitRank (s : State S A C) : Nat :=
  32 * s.thread.rank + (if s.controlEvent then 0 else 1) +
    match s.lock with
    | some (.client c) => (s.client c).sectionRank
    | _ => 0

theorem ClientPc.sectionRank_le (p : ClientPc A) : p.sectionRank ≤ 6 := by
  cases p <;> simp [ClientPc.sectionRank]

omit [DecidableEq C] in
/-- A lower rank of the thread is a lower rank. -/
theorem exitRank_lt {s s' : State S A C} (h : s'.thread.rank < s.thread.rank) :
    exitRank s' < exitRank s := by
  have hsection : ∀ o : Option (Owner C), ∀ f : C → ClientPc A,
      (match o with | some (.client c) => (f c).sectionRank | _ => 0) ≤ 6 := by
    intro o f
    match o with
    | none => exact Nat.zero_le _
    | some .thread => exact Nat.zero_le _
    | some (.client c) => exact (f c).sectionRank_le
  have hle := hsection s'.lock s'.client
  have hbit : (if s'.controlEvent then 0 else 1) ≤ 1 := by split <;> omega
  simp only [exitRank]
  omega

/-- The owner of the lock has a step that brings it closer to the release. -/
theorem owner_step (s : State S A C) {c : C} (hlock : s.lock = some (.client c))
    (hsection : (s.client c).inSection = true) :
    ∃ a, Enabled k s a ∧ (∀ d o, a ≠ .closeOr d o) ∧ exitRank (next k s a) < exitRank s ∧
      ∃ p, (next k s a).client = Function.update s.client c p := by
  cases hpc : s.client c with
  | setRead arg =>
    refine ⟨.setRead c arg, hpc, fun _ _ => (by simp), ?_, _, rfl⟩
    simp [exitRank, next, State.setRead, State.clientTo, hlock, hpc, ClientPc.sectionRank]
  | setWrite arg snapshot =>
    refine ⟨.setWrite c arg snapshot, hpc, fun _ _ => (by simp), ?_, ?_⟩
    · cases arg <;>
        simp [exitRank, next, State.setWrite, State.clientTo, hlock, hpc, ClientPc.sectionRank]
    · cases arg <;> exact ⟨_, rfl⟩
  | freshRead arg =>
    refine ⟨.freshRead c arg, hpc, fun _ _ => (by simp), ?_, _, rfl⟩
    simp [exitRank, next, State.freshRead, State.clientTo, hlock, hpc, ClientPc.sectionRank]
  | freshWrite arg snapshot =>
    refine ⟨.freshWrite c arg snapshot, hpc, fun _ _ => (by simp), ?_, _, rfl⟩
    simp [exitRank, next, State.freshWrite, State.clientTo, hlock, hpc, ClientPc.sectionRank]
  | setSignal arg =>
    refine ⟨.setSignal c arg, hpc, fun _ _ => (by simp), ?_, _, rfl⟩
    simp only [exitRank, next, State.setSignal, State.clientTo, hlock, hpc, ClientPc.sectionRank,
      Function.update_self, ↓reduceIte]
    omega
  | setRelease arg =>
    refine ⟨.setRelease c arg, hpc, fun _ _ => (by simp), ?_, _, rfl⟩
    simp [exitRank, next, State.setRelease, State.clientTo, hlock, hpc, ClientPc.sectionRank]
  | closeRead =>
    refine ⟨.closeRead c, hpc, fun _ _ => (by simp), ?_, _, rfl⟩
    simp [exitRank, next, State.closeRead, State.clientTo, hlock, hpc, ClientPc.sectionRank]
  | closeWrite snapshot =>
    refine ⟨.closeWrite c snapshot, hpc, fun _ _ => (by simp), ?_, _, rfl⟩
    simp [exitRank, next, State.closeWrite, State.clientTo, hlock, hpc, ClientPc.sectionRank]
  | _ => simp [hpc, ClientPc.inSection] at hsection

omit [DecidableEq C] in
/-- A thread that has not gone yet, has the lock free if it wants it and is woken if it waits,
has a step. -/
theorem thread_step (s : State S A C) (hgone : s.thread ≠ .exited) (hlock : s.lock = none ∨
      s.thread.inSection = true)
    (hcontrol : s.thread.waits = true → s.controlEvent = true) :
    ∃ a, Enabled k s a ∧ a.byThread = true := by
  cases hpc : s.thread with
  | top => exact ⟨.top, ⟨hpc, by simpa [hpc, ThreadPc.inSection] using hlock⟩, rfl⟩
  | waitControl | wait copy =>
    have hwaits : s.thread.waits = true := by rw [hpc]; rfl
    exact ⟨.control, ⟨hwaits, hcontrol hwaits⟩, rfl⟩
  | expire copy status =>
    exact ⟨.expire copy status, ⟨hpc, by simpa [hpc, ThreadPc.inSection] using hlock⟩, rfl⟩
  | markRead status => exact ⟨.markRead status, hpc, rfl⟩
  | markWrite snapshot status => exact ⟨.markWrite snapshot status, hpc, rfl⟩
  | test status => exact ⟨.test status, hpc, rfl⟩
  | reference status => exact ⟨.reference status, hpc, rfl⟩
  | count status => exact ⟨.count status, hpc, rfl⟩
  | resetEvent status => exact ⟨.resetEvent status, hpc, rfl⟩
  | callback status => exact ⟨.endCallback status, hpc, rfl⟩
  | complete => exact ⟨.complete, hpc, rfl⟩
  | clearCancel => exact ⟨.clearCancel, hpc, rfl⟩
  | setEvent => exact ⟨.setEvent, hpc, rfl⟩
  | dereference => exact ⟨.dereference, hpc, rfl⟩
  | exitDereference => exact ⟨.exitDereference, hpc, rfl⟩
  | exited => exact absurd hpc hgone

/-- What a step is allowed to do to the clients that wait for the thread. -/
def KeepsWaiting (s s' : State S A C) : Prop :=
  ∀ c, s.client c = .closeWait → s'.client c = .closeWait

theorem KeepsWaiting.of_update {s s' : State S A C} {c : C} {p : ClientPc A}
    (hpc : s.client c ≠ .closeWait) (hmove : s'.client = Function.update s.client c p) :
    KeepsWaiting s s' := by
  intro d hd
  rw [hmove, Function.update_of_ne, hd]
  rintro rfl
  exact hpc hd

/-- The thread does not move the other parties. -/
theorem client_eq_of_thread (s : State S A C) (a : Action S A C) (hthread : a.byThread = true) :
    (next k s a).client = s.client := by
  cases a with
  | top | expire =>
    simp only [next, State.top, State.expire]
    split_ifs <;> rfl
  | _ => first | rfl | cases hthread

/-- A request is never taken back. -/
theorem closeRequested_next (s : State S A C) (a : Action S A C)
    (hrequested : s.closeRequested = true) : (next k s a).closeRequested = true := by
  cases a with
  | setWrite c arg snapshot => cases arg <;> exact hrequested
  | top | expire =>
    simp only [next, State.top, State.expire]
    split_ifs <;> exact hrequested
  | closeOr => rfl
  | _ => exact hrequested

omit [DecidableEq C] in
theorem promptDelete_of_ne {s : State S A C} {a : Action S A C} (ha : ∀ c o, a ≠ .closeOr c o) :
    PromptDelete s a := by
  cases a with
  | closeOr c o => exact absurd rfl (ha c o)
  | _ => trivial

/-- While the thread is there, some step that is no close request lowers the rank. -/
theorem exit_step (s : State S A C) (hrequested : s.closeRequested = true) (hdeleted : Deleted s)
    (hlock : LockExact s) (hcontrol : ControlPending s) (hgone : s.thread ≠ .exited) :
    ∃ a, Enabled k s a ∧ PromptDelete s a ∧ exitRank (next k s a) < exitRank s ∧
      KeepsWaiting s (next k s a) := by
  by_cases hwoken : s.thread.waits = true → s.controlEvent = true
  · by_cases hown : ∃ c, s.lock = some (.client c)
    · obtain ⟨c, hown⟩ := hown
      have hsection := (hlock.client c).mp hown
      obtain ⟨a, hen, hclose, hlt, p, hmove⟩ := owner_step (k := k) s hown hsection
      exact ⟨a, hen, promptDelete_of_ne hclose, hlt,
        KeepsWaiting.of_update (fun hpc => by rw [hpc] at hsection; cases hsection) hmove⟩
    · -- no client stands in the way of the thread
      have hfree : s.lock = none ∨ s.thread.inSection = true := by
        match howner : s.lock with
        | none => exact Or.inl rfl
        | some .thread => exact Or.inr (hlock.thread.mp howner)
        | some (.client c) => exact absurd ⟨c, howner⟩ hown
      obtain ⟨a, hen, hthread⟩ := thread_step (k := k) s hgone hfree hwoken
      refine ⟨a, hen, promptDelete_of_ne ?_, ?_, ?_⟩
      · rintro c o rfl
        cases hthread
      · exact exitRank_lt (thread_rank_lt s a hen (hdeleted hrequested).1 hthread)
      · intro c hc
        rw [client_eq_of_thread s a hthread]
        exact hc
  · -- the thread waits and the closer has yet to signal the control event
    obtain ⟨hwaits, hclear⟩ := Classical.not_imp.mp hwoken
    obtain ⟨c, previous, fromCallback, hpc⟩ := (hcontrol hrequested hwaits).resolve_left hclear
    refine ⟨.closeSignal c previous fromCallback, hpc, trivial, ?_,
      KeepsWaiting.of_update (by rw [hpc]; nofun) rfl⟩
    have hsame : ∀ d, (Function.update s.client c (.closeHandle previous fromCallback) d).sectionRank
        = (s.client d).sectionRank := by
      intro d
      by_cases hd : d = c
      · subst hd
        rw [Function.update_self, hpc]
        rfl
      · rw [Function.update_of_ne hd]
    simp only [exitRank, next, State.closeSignal, State.clientTo, hclear, hsame]
    simp only [Bool.false_eq_true, if_true, if_false]
    omega

/-! ## Nothing is lost -/

/-- What becomes of a close request: it stays in `Flags`, every step of the thread brings the
thread closer to its end and no other step moves it, and some run from here ends the thread, where
whoever waits for it may go on. -/
structure CloseKept (M : System (State S A C) (Action S A C)) (s : State S A C) : Prop where
  flag : s.flags.deleteRequested = true
  leaves : ∀ a, M.enabled s a → a.byThread = true → (M.next s a).thread.rank < s.thread.rank
  stays : ∀ a, M.enabled s a → a.byThread = false → (M.next s a).thread = s.thread
  exits : ∃ s', M.Path PromptDelete s s' ∧ s'.thread = .exited ∧
    ∀ c, s.client c = .closeWait → M.enabled s' (.closeWait c)

/-- With the request in `Flags`, some run ends the thread and leaves its waiters waiting. -/
theorem path_to_exit {settings : S} {s : State S A C}
    (hreach : (watcher k C settings).Reachable PromptDelete s)
    (hrequested : s.closeRequested = true) :
    ∃ s', (watcher k C settings).Path PromptDelete s s' ∧ s'.thread = .exited ∧
      KeepsWaiting s s' := by
  let P := fun t : State S A C => (watcher k C settings).Reachable PromptDelete t ∧
    t.closeRequested = true ∧ KeepsWaiting s t
  have hstep : ∀ t, P t → ¬ t.thread = .exited → ∃ a, (watcher k C settings).enabled t a ∧
      PromptDelete t a ∧ P ((watcher k C settings).next t a) ∧
      exitRank ((watcher k C settings).next t a) < exitRank t := by
    rintro t ⟨ht, htrequested, hkept⟩ hgone
    obtain ⟨a, hen, hprompt, hlt, hwaiting⟩ := exit_step (k := k) t htrequested
      (deleted_of_reachable t ht) (lockExact_of_reachable k t ht)
      (controlPending_of_reachable t ht) hgone
    exact ⟨a, hen, hprompt, ⟨ht.step hen hprompt, closeRequested_next t a htrequested,
      fun c hc => hwaiting c (hkept c hc)⟩, hlt⟩
  obtain ⟨s', hpath, ⟨-, -, hkept⟩, hexited⟩ :=
    System.exists_path_of_rank exitRank hstep ⟨hreach, hrequested, fun _ hc => hc⟩
  exact ⟨s', hpath, hexited, hkept⟩

theorem closeKept_of_reachable {settings : S} {s : State S A C}
    (hreach : (watcher k C settings).Reachable PromptDelete s)
    (hrequested : s.closeRequested = true) : CloseKept (watcher k C settings) s := by
  have hflag := (deleted_of_reachable s hreach hrequested).1
  obtain ⟨s', hpath, hexited, hkept⟩ := path_to_exit hreach hrequested
  exact ⟨hflag, fun a hen hthread => thread_rank_lt s a hen hflag hthread,
    fun a _ hclient => thread_eq_of_client s a hclient,
    s', hpath, hexited, fun c hc => ⟨hkept c hc, hexited⟩⟩

/-- In every run in which no close request falls between the read and the write of a `SetFlag` or
`ClearFlag`, close requests of timers and of wait objects are never lost. -/
theorem close_request_is_kept (C : Type) [DecidableEq C] :
    (∀ s, (Timer.timer C).Reachable PromptDelete s → s.closeRequested = true →
      CloseKept (Timer.timer C) s) ∧
    ∀ s, (Wait.wait C).Reachable PromptDelete s → s.closeRequested = true →
      CloseKept (Wait.wait C) s :=
  ⟨fun _ hreach hrequested => closeKept_of_reachable hreach hrequested,
    fun _ hreach hrequested => closeKept_of_reachable hreach hrequested⟩

/-! ## Runs -/

/-- Arming the object: `SetThreadpoolTimer` or `SetThreadpoolWait` from its first step to its
last, with the two words it reads. -/
def armRun (c : C) (arg : A) (read reread : Flags) : List (Action S A C) :=
  [.callSet c (some arg), .setLock c (some arg), .setRead c (some arg),
    .setWrite c (some arg) read, .freshRead c arg, .freshWrite c arg reread,
    .setSignal c (some arg), .setRelease c (some arg)]

/-- A close while the thread waits for what is due. -/
def promptCloseRun (arg : A) : List (Action S A Unit) :=
  armRun () arg ⟨false, false, false, false⟩ ⟨false, false, true, false⟩ ++
    [.top, .control, .top, .callClose () false, .closeOr () false, .closeSignal () false false,
      .closeHandle () false false]

/-- The condition is met by a timer and a wait object that are armed and closed, and their closers
can go on. -/
theorem prompt_close_is_kept :
    CloseKept (Timer.timer Unit)
      ((Timer.timer Unit).exec (initialState _ _ ⟨0, 0, 0⟩) (promptCloseRun ⟨-10000, 0, 0⟩)) ∧
    CloseKept (Wait.wait Unit)
      ((Wait.wait Unit).exec (initialState _ _ ⟨none, 0, false⟩) (promptCloseRun ⟨0, none⟩)) := by
  constructor
  · have hadmits : (Timer.timer Unit).Admits PromptDelete (initialState _ _ ⟨0, 0, 0⟩)
        (promptCloseRun ⟨-10000, 0, 0⟩) := by decide
    exact (close_request_is_kept Unit).1 _ (System.reachable_exec _ _ rfl hadmits) (by decide)
  · have hadmits : (Wait.wait Unit).Admits PromptDelete (initialState _ _ ⟨none, 0, false⟩)
        (promptCloseRun ⟨0, none⟩) := by decide
    exact (close_request_is_kept Unit).2 _ (System.reachable_exec _ _ rfl hadmits) (by decide)

/-- The callback after an expiry, from the test on. -/
def callbackRun (status : WaitStatus) : List (Action S A C) :=
  [.test status, .reference status, .count status, .resetEvent status, .endCallback status,
    .complete, .clearCancel, .setEvent, .dereference]

/-- A close that falls between the read and the write of the expiry: the thread writes the word
back without the request, runs the callback and waits again, and the closer waits for the thread. -/
def lateCloseRun (arg : A) (copy : S) (status : WaitStatus) : List (Action S A Unit) :=
  armRun () arg ⟨false, false, false, false⟩ ⟨false, false, true, false⟩ ++
    [.top, .control, .top, .elapse copy status, .expire copy status, .markRead status,
      .callClose () false, .closeOr () false, .closeSignal () false false,
      .closeHandle () false false, .markWrite ⟨false, false, true, false⟩ status] ++
    callbackRun status ++ [.top, .control, .top]

/-- A close request is lost when the expiry has read `Flags` before it and writes it after, and
thread and closer then wait for ever, for timers and for wait objects. -/
theorem lost_delete_request :
    (∃ s, (Timer.timer Unit).Reachable Always s ∧ s.closeRequested = true ∧
      s.flags.deleteRequested = false ∧ s.client () = .closeWait ∧ s.thread = .waitControl ∧
      s.controlEvent = false) ∧
    ∃ s, (Wait.wait Unit).Reachable Always s ∧ s.closeRequested = true ∧
      s.flags.deleteRequested = false ∧ s.client () = .closeWait ∧ s.thread = .waitControl ∧
      s.controlEvent = false := by
  constructor
  · let run : List (Action Timer.Settings Timer.Settings Unit) :=
      lateCloseRun ⟨-10000, 0, 0⟩ ⟨-10000, 0, 0⟩ .timeout
    refine ⟨(Timer.timer Unit).exec (initialState _ _ ⟨0, 0, 0⟩) run,
      System.reachable_exec _ run rfl (by decide), ?_⟩
    decide
  · let run : List (Action Wait.Settings Wait.Registration Unit) :=
      lateCloseRun ⟨0, none⟩ ⟨some 0, 0, false⟩ .object
    refine ⟨(Wait.wait Unit).exec (initialState _ _ ⟨none, 0, false⟩) run,
      System.reachable_exec _ run rfl (by decide), ?_⟩
    decide

end Ldk.Threadpool
