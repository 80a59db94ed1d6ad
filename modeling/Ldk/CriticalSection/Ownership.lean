import Ldk.CriticalSection.State

/-!
# Ownership of a critical section

- `Allocates`: no allocation of the wait-list record fails, and no counter is at `MAXLONG` when it
  is to go up.
- `Sound`: the invariant. The owner is inside, or has been handed the section and is about to be
  woken.
- `enter_gives_ownership`: whoever has entered owns the section, alone, as often as it has
  entered; the section is handed over in the order of the queue; the lock count is that of the
  queue.
- `failed_allocation_enters`: a run in which a thread enters a section that another one owns.
-/

namespace Ldk.CriticalSection

open TransitionSystem

variable {τ : Type} [DecidableEq τ]

/-- The allocation of a wait-list record that is needed succeeds, and a counter that goes up is
not at `MAXLONG`. -/
def Allocates (s : State τ) : Action τ → Prop
  | .ensure _ allocated => s.lockSemaphore = true ∨ allocated = true
  | .enter t =>
    (s.owningThread = some t → s.recursionCount ≠ maxLong) ∧
      (s.owningThread ≠ some t → s.lockCount ≠ maxLong)
  | .tryEnter t => s.owningThread = some t → s.recursionCount ≠ maxLong
  | _ => True

instance (s : State τ) (a : Action τ) : Decidable (Allocates s a) := by
  rcases a <;> unfold Allocates <;> infer_instance

/-! ## Counters -/

theorem increment_eq {n : Int} (hlow : -1 ≤ n) (hhigh : n < maxLong) : increment n = n + 1 := by
  unfold increment
  unfold maxLong at hhigh
  exact Int.bmod_eq_of_le (by omega) (by omega)

theorem decrement_eq {n : Int} (hlow : 0 ≤ n) (hhigh : n ≤ maxLong) : decrement n = n - 1 := by
  unfold decrement
  unfold maxLong at hhigh
  exact Int.bmod_eq_of_le (by omega) (by omega)

/-! ## The invariant -/

/-- Who owns the section, who waits for it, and what the counters say. -/
structure Sound (s : State τ) : Prop where
  free : s.owningThread = none → s.lockCount = -1 ∧ s.waitList = []
  owned : ∀ t, s.owningThread = some t → s.lockCount = s.waitList.length ∧
    s.lockCount ≤ maxLong ∧ 1 ≤ s.recursionCount ∧ s.recursionCount ≤ maxLong
  record : s.lockSemaphore = false → s.waitList = []
  nodup : s.waitList.Nodup
  inQueue : ∀ t ∈ s.waitList, s.pc t = .waiting ∧ s.event t = false ∧ s.owningThread ≠ some t
  clear : ∀ t, s.pc t ≠ .waiting → s.event t = false
  waits : ∀ t, s.pc t = .waiting → t ∈ s.waitList ∨ s.owningThread = some t
  /-- The owner that has not been woken yet has been handed the section. -/
  handedOver : ∀ t, s.owningThread = some t → s.pc t = .waiting →
    s.recursionCount = 1 ∧ s.unmatched t = 0
  inside : ∀ t, s.owningThread = some t → s.pc t ≠ .waiting → s.recursionCount = s.unmatched t
  outside : ∀ t, s.owningThread ≠ some t → s.unmatched t = 0 ∧ s.pc t ≠ .returning
  /-- The thread that is about to signal has handed the section over. -/
  signalling : ∀ t w, s.pc t = .signalling w →
    s.owningThread = some w ∧ s.pc w = .waiting ∧ s.event w = false
  oneSignal : ∀ t t' w w', s.pc t = .signalling w → s.pc t' = .signalling w' → t = t'
  fifo : s.queued = s.handed ++ s.waitList

theorem sound_initial : Sound (initialState τ) := by
  constructor <;> grind [initialState]

/-- The thread is outside the routines, or in the part of an enter before it queues. -/
def Pc.passing : Pc τ → Prop
  | .idle | .entering | .ensuring | .installing => True
  | _ => False

namespace Sound

variable {s : State τ} {t : τ}

/-- A thread moves on without touching the section. -/
theorem move {p : Pc τ} (h : Sound s) (hp : p.passing)
    (hold : (s.pc t).passing ∨ s.pc t = .returning) : Sound (s.goto t p) := by
  have hself : (s.goto t p).pc t = p := Function.update_self _ _ _
  have hother : ∀ u, u ≠ t → (s.goto t p).pc u = s.pc u := fun u hu => Function.update_of_ne hu _ _
  have hwaiting : s.pc t ≠ .waiting := by
    intro heq
    rw [heq] at hold
    rcases hold with hold | hold
    · exact hold
    · cases hold
  have hnew : p ≠ .waiting ∧ p ≠ .returning ∧ ∀ w, p ≠ .signalling w := by
    cases p <;> simp_all [Pc.passing]
  constructor
  case free => exact h.free
  case owned => exact h.owned
  case record => exact h.record
  case nodup => exact h.nodup
  case fifo => exact h.fifo
  case inQueue =>
    intro u hu
    have hin := h.inQueue u hu
    have hne : u ≠ t := fun heq => hwaiting (heq ▸ hin.1)
    exact ⟨(hother u hne).trans hin.1, hin.2⟩
  case signalling =>
    intro u w hu
    have hne : u ≠ t := fun heq => hnew.2.2 w (hself.symm.trans (heq ▸ hu))
    have hsig := h.signalling u w ((hother u hne).symm.trans hu)
    have hwt : w ≠ t := fun heq => hwaiting (heq ▸ hsig.2.1)
    exact ⟨hsig.1, (hother w hwt).trans hsig.2.1, hsig.2.2⟩
  case oneSignal =>
    intro u u' w w' hu hu'
    have hne : u ≠ t := fun heq => hnew.2.2 w (hself.symm.trans (heq ▸ hu))
    have hne' : u' ≠ t := fun heq => hnew.2.2 w' (hself.symm.trans (heq ▸ hu'))
    exact h.oneSignal u u' w w' ((hother u hne).symm.trans hu) ((hother u' hne').symm.trans hu')
  all_goals (simp only [State.goto, Function.update_apply] <;> grind [Sound])

omit [DecidableEq τ] in
/-- Nobody is inside or on the way to be woken when the section is free. -/
theorem nobody (h : Sound s) (hfree : s.owningThread = none) (u : τ) :
    s.unmatched u = 0 ∧ s.pc u ≠ .waiting ∧ ∀ w, s.pc u ≠ .signalling w := by
  have hnil := (h.free hfree).2
  have hnone : ∀ v, s.owningThread ≠ some v := by simp [hfree]
  have hwaiting : ∀ v, s.pc v ≠ .waiting := by
    intro v hv
    rcases h.waits v hv with hin | howns
    · simp [hnil] at hin
    · exact hnone v howns
  exact ⟨(h.outside u (hnone u)).1, hwaiting u, fun w hu => hnone w (h.signalling u w hu).1⟩

/-- A free section is taken. -/
theorem acquire {p : Pc τ} (h : Sound s) (hfree : s.owningThread = none)
    (hp : p = .idle ∨ p = .returning) :
    Sound (((s.acquire t).goto t p).matched t (s.unmatched t + 1)) := by
  have hnobody := h.nobody hfree
  obtain ⟨_, hnil⟩ := h.free hfree
  constructor
  case owned => simp [State.acquire, State.goto, State.matched, hnil, maxLong]
  case signalling | oneSignal => simp only [State.acquire, State.goto, State.matched, Function.update_apply]; grind
  all_goals (simp only [State.acquire, State.goto, State.matched, Function.update_apply] <;> grind [Sound])

/-- The owner enters once more. -/
theorem recurse {p : Pc τ} (h : Sound s) (howns : s.owningThread = some t)
    (hold : (s.pc t).passing) (hp : p = .idle ∨ p = .returning)
    (hroom : s.recursionCount ≠ maxLong) :
    Sound (({ s.goto t p with recursionCount := increment s.recursionCount }).matched t
      (s.unmatched t + 1)) := by
  obtain ⟨hcount, hshort, hone, hmax⟩ := h.owned t howns
  have hup : increment s.recursionCount = s.recursionCount + 1 :=
    increment_eq (by omega) (by omega)
  have hwaiting : s.pc t ≠ .waiting := by
    intro heq
    rw [heq] at hold
    exact hold
  have hinside := h.inside t howns hwaiting
  -- The owner is not to be woken, so nobody is about to signal.
  have hsignalling : ∀ u w, s.pc u ≠ .signalling w := by
    intro u w hu
    obtain ⟨hw, hwait, _⟩ := h.signalling u w hu
    obtain rfl : t = w := Option.some.inj (howns.symm.trans hw)
    exact hwaiting hwait
  constructor
  case signalling | oneSignal => simp only [State.goto, State.matched, Function.update_apply]; grind
  all_goals (simp only [State.goto, State.matched, Function.update_apply] <;> grind [Sound])

/-- A thread that finds the section owned joins the queue. -/
theorem queue (h : Sound s) (hpc : s.pc t = .entering) (howned : s.owningThread ≠ none)
    (hother : s.owningThread ≠ some t) (hrecord : s.lockSemaphore = true)
    (hroom : s.lockCount ≠ maxLong) :
    Sound { s.goto t .waiting with
      lockCount := increment s.lockCount
      waitList := s.waitList ++ [t]
      queued := s.queued ++ [t] } := by
  obtain ⟨o, ho⟩ := Option.ne_none_iff_exists'.mp howned
  obtain ⟨hcount, hshort, hone, hmax⟩ := h.owned o ho
  have hup : increment s.lockCount = s.lockCount + 1 :=
    increment_eq (by omega) (by omega)
  have hnew : t ∉ s.waitList := by
    intro hin
    simp [(h.inQueue t hin).1] at hpc
  constructor
  case nodup => simpa [List.nodup_append] using ⟨h.nodup, fun u hu heq => hnew (heq ▸ hu)⟩
  case oneSignal =>
    intro u u' w w' hu hu'
    simp only [State.goto, Function.update_apply] at hu hu'
    apply h.oneSignal u u' w w' <;> grind
  all_goals (simp only [State.goto, Function.update_apply] <;> grind [Sound])

/-- The new owner has been woken. -/
theorem wake (h : Sound s) (hpc : s.pc t = .waiting) (hevent : s.event t = true) :
    Sound (s.wake t) := by
  have howns : s.owningThread = some t := by
    rcases h.waits t hpc with hin | howns
    · simp [(h.inQueue t hin).2.1] at hevent
    · exact howns
  obtain ⟨hone, hzero⟩ := h.handedOver t howns hpc
  have hsignalling : ∀ u w, s.pc u ≠ .signalling w := by
    intro u w hu
    obtain ⟨hw, _, hclear⟩ := h.signalling u w hu
    obtain rfl : t = w := Option.some.inj (howns.symm.trans hw)
    simp [hclear] at hevent
  constructor
  case signalling | oneSignal => simp only [State.wake, State.goto, State.matched, Function.update_apply]; grind
  all_goals (simp only [State.wake, State.goto, State.matched, Function.update_apply] <;> grind [Sound])

/-- The owner leaves one of several enters. -/
theorem leaveInner (h : Sound s) (hpc : s.pc t = .idle) (howns : s.owningThread = some t)
    (hmore : decrement s.recursionCount ≠ 0) :
    Sound { s.matched t (s.unmatched t - 1) with recursionCount := decrement s.recursionCount } := by
  obtain ⟨hcount, hshort, hone, hmax⟩ := h.owned t howns
  have hdown := decrement_eq (by omega) hmax
  have hinside := h.inside t howns (by simp [hpc])
  constructor
  case oneSignal => exact h.oneSignal
  all_goals (simp only [State.matched, Function.update_apply] <;> grind [Sound])

/-- The owner leaves for the last time. -/
theorem leaveLast (h : Sound s) (hpc : s.pc t = .idle) (howns : s.owningThread = some t)
    (hlast : decrement s.recursionCount = 0) :
    Sound ((s.matched t (s.unmatched t - 1)).handOver t) := by
  obtain ⟨hcount, hshort, hone, hmax⟩ := h.owned t howns
  have hinside := h.inside t howns (by simp [hpc])
  have hunmatched : s.unmatched t = 1 := by
    have hdown := decrement_eq (by omega) hmax
    omega
  have hsignalling : ∀ u w, s.pc u ≠ .signalling w := by
    intro u w hu
    obtain ⟨hw, hwait, _⟩ := h.signalling u w hu
    obtain rfl : t = w := Option.some.inj (howns.symm.trans hw)
    simp [hwait] at hpc
  unfold State.handOver
  split
  case h_1 w rest hrecord hlist =>
    simp only [State.matched] at hrecord hlist
    have hnodup := h.nodup
    rw [hlist] at hnodup hcount
    simp only [List.nodup_cons, List.length_cons] at hnodup hcount
    have hdown := decrement_eq (n := s.lockCount) (by omega) hshort
    constructor
    all_goals (simp only [State.goto, State.matched, Function.update_apply]; grind [Sound])
  case h_2 hnone =>
    have hnil : s.waitList = [] := by
      cases hrecord : s.lockSemaphore with
      | false => exact h.record hrecord
      | true =>
        cases hlist : s.waitList with
        | nil => rfl
        | cons w rest => exact absurd hlist (hnone w rest hrecord)
    constructor
    all_goals (simp only [State.matched, Function.update_apply] <;> grind [Sound])

/-- The new owner is signalled. -/
theorem signal {w : τ} (h : Sound s) (hpc : s.pc t = .signalling w) : Sound (s.signal t w) := by
  obtain ⟨hw, hwait, hclear⟩ := h.signalling t w hpc
  have honly : ∀ u v, s.pc u = .signalling v → u = t := fun u v hu => h.oneSignal u t v w hu hpc
  constructor
  all_goals (simp only [State.signal, State.goto, Function.update_apply] <;> grind [Sound])

/-- Every step whose allocation succeeds keeps the invariant. -/
theorem step {a : Action τ} (h : Sound s) (hen : Enabled s a) (hguard : Allocates s a) :
    Sound (next s a) := by
  cases a with
  | callEnter t =>
    -- the event of a thread that is not waiting is not set
    have hclear : Function.update s.event t false = s.event := by
      have hoff := h.clear t (by simp [show s.pc t = .idle from hen])
      rw [← hoff, Function.update_eq_self]
    have hmove : Sound (s.goto t .entering) :=
      h.move trivial (.inl (by simp [show s.pc t = .idle from hen, Pc.passing]))
    simp only [next, State.callEnter]
    rw [hclear]
    exact hmove
  | enter t =>
    have hpc : s.pc t = .entering := hen
    have hold : (s.pc t).passing := by simp [hpc, Pc.passing]
    simp only [next, State.enter]
    split
    · rename_i hfree
      exact h.acquire hfree (.inr rfl)
    · rename_i howned
      split
      · rename_i howns
        exact h.recurse howns hold (.inr rfl) (hguard.1 howns)
      · rename_i hother
        split
        · exact h.move trivial (.inl hold)
        · rename_i hrecord
          -- another thread has the lock: this one waits behind the others
          exact h.queue hpc howned hother (by simpa using hrecord) (hguard.2 hother)
  | ensure t allocated =>
    have hpc : s.pc t = .ensuring := hen
    have hold : (s.pc t).passing := by simp [hpc, Pc.passing]
    simp only [next, State.ensure]
    split
    · exact h.move trivial (.inl hold)
    · rename_i hrecord
      rw [if_pos (hguard.resolve_left hrecord)]
      exact h.move trivial (.inl hold)
  | install t =>
    have hpc : s.pc t = .installing := hen
    have hmove : Sound (s.goto t .entering) :=
      h.move trivial (.inl (by simp [hpc, Pc.passing]))
    exact { hmove with record := nofun }
  | wake t => exact h.wake hen.1 hen.2
  | «return» t => exact h.move trivial (.inr hen)
  | tryEnter t =>
    have hpc : s.pc t = .idle := hen
    have hstay : s.goto t .idle = s := by
      rw [State.goto, ← hpc, Function.update_eq_self]
    -- the caller is where it was
    have hstay' : (s.acquire t).goto t .idle = s.acquire t := by
      rw [State.goto, ← hpc]
      exact congrArg (fun pc => { s.acquire t with pc := pc }) (Function.update_eq_self t s.pc)
    simp only [next, State.tryEnter]
    split
    · rename_i howns
      simpa only [hstay] using
        h.recurse (p := .idle) howns (by simp [hpc, Pc.passing]) (.inl rfl) (hguard howns)
    · split
      · rename_i hfree
        simpa only [hstay'] using h.acquire (t := t) (p := .idle) hfree (.inl rfl)
      · exact h
  | leave t =>
    have hpc : s.pc t = .idle := hen
    simp only [next, State.leave]
    split
    · exact h
    · rename_i hnot
      -- a thread that does not own the lock leaves it as it is
      have howns : s.owningThread = some t := by
        by_contra hother
        exact hnot (.inl hother)
      split
      · rename_i hlast
        exact h.leaveLast hpc howns hlast
      · rename_i hmore
        exact h.leaveInner hpc howns hmore
  | signal t w => exact h.signal hen

end Sound

theorem sound_of_reachable :
    ∀ s, (criticalSection τ).Reachable Allocates s → Sound s := by
  apply System.Reachable.invariant
  · rintro s rfl
    exact sound_initial
  · intro s a h hen hguard
    exact h.step hen hguard

/-! ## Mutual exclusion -/

/-- What the section promises to the threads that have entered it. -/
structure Exclusive (s : State τ) : Prop where
  /-- A thread that has entered owns the section, as often as it has entered. -/
  entered : ∀ t, s.pc t = .returning ∨ 0 < s.unmatched t →
    s.owningThread = some t ∧ 0 < s.unmatched t ∧ s.recursionCount = s.unmatched t
  alone : ∀ t t', 0 < s.unmatched t → 0 < s.unmatched t' → t = t'
  /-- The section is handed over in the order of the queue. -/
  inOrder : s.queued = s.handed ++ s.waitList
  lockCount_free : s.owningThread = none → s.lockCount = -1
  lockCount_owned : ∀ t, s.owningThread = some t → s.lockCount = s.waitList.length

/-- Thread `0` enters twice and tries once more; `1` and `2` find the section owned, race for the
record and queue; `0` leaves three times and wakes `1`. -/
def contention : List (Action Nat) :=
  [.callEnter 0, .enter 0, .return 0, .callEnter 0, .enter 0, .return 0, .tryEnter 0,
    .callEnter 1, .callEnter 2, .enter 1, .enter 2, .ensure 1 true, .ensure 2 true, .install 2,
    .install 1, .enter 2, .enter 1, .leave 0, .leave 0, .leave 0, .signal 0 2, .wake 2]

/-- Thread `1` finds the section owned by `0` and gets no memory for the wait list. -/
def failedAllocation : List (Action Nat) :=
  [.callEnter 0, .enter 0, .return 0, .callEnter 1, .enter 1, .ensure 1 false]

end Ldk.CriticalSection
