import Mathlib
import Ldk.KeyedEvent.State

/-!
# Rendezvous at keyed events

- `Orderly`: a release finds an entry of its own handle first, and does not block when a waiter of
  its handle and key has pulsed already; no wait is over before its entry is taken, and no thread
  waits again before the count of its last wait has been used up.
- `Matched`: no release is blocked next to an entry for it; releases take entries of their own
  handle; whoever has an entry waits.
- `orderly_rendezvous`: every orderly run is matched.
-/

set_option linter.unusedSectionVars false

namespace Ldk.KeyedEvent

open TransitionSystem

variable {τ η κ : Type} [DecidableEq τ] [DecidableEq η] [DecidableEq κ]

/-- The conditions under which waits and releases meet. -/
def Orderly (s : State τ η κ) : Action τ η κ → Prop
  | .callWait t _ _ => s.due t = false
  | .timeOut t _ _ => ∀ entry ∈ s.waitList, entry.teb ≠ t
  | .search _ handle key =>
    ∀ entry ∈ s.waitList.find? fun entry => entry.key = key, entry.handle = handle
  | .block _ handle key =>
    ∀ entry ∈ s.waitList, entry.handle = handle → entry.key = key →
      s.pc entry.teb = .pulsing handle key
  | _ => True

instance Orderly.decidable (s : State τ η κ) (a : Action τ η κ) : Decidable (Orderly s a) := by
  rcases a <;> simp only [Orderly] <;> infer_instance

/-! ## The invariant -/

structure Sound (s : State τ η κ) : Prop where
  /-- Whoever has an entry is in its wait. -/
  entries : ∀ entry ∈ s.waitList, s.pc entry.teb = .pulsing entry.handle entry.key ∨
    s.pc entry.teb = .waiting entry.handle entry.key
  nodup : (s.waitList.map WaitEntry.teb).Nodup
  fresh : ∀ entry ∈ s.waitList, s.due entry.teb = false
  /-- One release has the thread, and its semaphore has not been released. -/
  releasing : ∀ u handle t, s.pc u = .releasing handle t → s.due t = true ∧ s.semaphore t = 0
  once : ∀ u u' handle handle' t, s.pc u = .releasing handle t → s.pc u' = .releasing handle' t →
    u = u'
  semaphore : ∀ t, s.semaphore t ≠ 0 → s.due t = true ∧ s.semaphore t = semaphoreLimit
  /-- A release is blocked only next to entries that are about to wake it. -/
  blocked : ∀ u handle key, s.pc u = .blocked handle key → ∀ entry ∈ s.waitList,
    entry.handle = handle → entry.key = key → s.pc entry.teb = .pulsing handle key
  matched : ∀ pair ∈ s.matched, pair.1 = pair.2
  quiet : s.raised = false

theorem sound_initial : Sound (initialState τ η κ) := by
  constructor <;> simp [initialState]

/-- Neither in a wait, nor blocked, nor about to release a semaphore. -/
def Pc.passing : Pc τ η κ → Prop
  | .idle | .searching _ _ | .blocking _ _ | .pulsingBack _ => True
  | _ => False

/-- An entry is taken off the list. -/
def State.take (s : State τ η κ) (entry : WaitEntry τ η κ) : State τ η κ :=
  { s with waitList := s.waitList.erase entry, due := Function.update s.due entry.teb true }

namespace Sound

variable {s : State τ η κ} {t : τ}

/-- What a pulse does to a program counter. -/
theorem pulse_pc (handle : η) (u : τ) :
    (s.pulse handle).pc u = s.pc u ∨
      ∃ key, s.pc u = .blocked handle key ∧ (s.pulse handle).pc u = .searching handle key := by
  cases hu : s.pc u with
  | blocked h key =>
    by_cases hh : h = handle
    · subst hh
      exact .inr ⟨key, rfl, by simp [State.pulse, hu]⟩
    · exact .inl (by simp [State.pulse, hu, hh])
  | _ => exact .inl (by simp [State.pulse, hu])

/-- A thread moves on to a program counter that promises nothing. -/
theorem move {p : Pc τ η κ} (h : Sound s) (hp : p.passing)
    (hentry : ∀ entry ∈ s.waitList, entry.teb ≠ t) : Sound (s.goto t p) := by
  have hself : (s.goto t p).pc t = p := Function.update_self _ _ _
  have hother : ∀ u, u ≠ t → (s.goto t p).pc u = s.pc u := fun u hu => Function.update_of_ne hu _ _
  have hmine : ∀ u, (s.goto t p).pc u = s.pc u ∨ (u = t ∧ ((s.goto t p).pc u).passing) := by
    intro u
    by_cases hu : u = t
    · exact .inr ⟨hu, by rw [hu, hself]; exact hp⟩
    · exact .inl (hother u hu)
  have hreleasing : ∀ u handle v, (s.goto t p).pc u = .releasing handle v →
      s.pc u = .releasing handle v := by
    intro u handle v hu
    rcases hmine u with hsame | ⟨_, hpass⟩
    · exact hsame ▸ hu
    · rw [hu] at hpass
      exact absurd hpass id
  constructor
  case entries =>
    intro entry hin
    rw [hother _ (hentry entry hin)]
    exact h.entries entry hin
  case nodup => exact h.nodup
  case fresh => exact h.fresh
  case releasing => exact fun u handle v hu => h.releasing u handle v (hreleasing u handle v hu)
  case once =>
    intro u u' handle handle' v hu hu'
    exact h.once u u' handle handle' v (hreleasing u handle v hu) (hreleasing u' handle' v hu')
  case semaphore => exact h.semaphore
  case blocked =>
    intro u handle key hu entry hin
    rw [hother _ (hentry entry hin)]
    rcases hmine u with hsame | ⟨_, hpass⟩
    · exact h.blocked u handle key (hsame ▸ hu) entry hin
    · rw [hu] at hpass
      exact absurd hpass id
  case matched => exact h.matched
  case quiet => exact h.quiet

/-- Whoever is not in a wait has no entry. -/
theorem noEntry (h : Sound s) (hpulsing : ∀ handle key, s.pc t ≠ .pulsing handle key)
    (hwaiting : ∀ handle key, s.pc t ≠ .waiting handle key) :
    ∀ entry ∈ s.waitList, entry.teb ≠ t := by
  rintro entry hin rfl
  rcases h.entries entry hin with hpc | hpc
  · exact hpulsing _ _ hpc
  · exact hwaiting _ _ hpc

/-- An entry is queued. -/
theorem callWait {handle : η} {key : κ} (h : Sound s) (hpc : s.pc t = .idle)
    (hdue : s.due t = false) : Sound (s.callWait t handle key) := by
  have hentry := h.noEntry (t := t) (by simp [hpc]) (by simp [hpc])
  have hself : (s.callWait t handle key).pc t = .pulsing handle key := Function.update_self _ _ _
  have hother : ∀ u, u ≠ t → (s.callWait t handle key).pc u = s.pc u :=
    fun u hu => Function.update_of_ne hu _ _
  have hreleasing : ∀ u handle' v, (s.callWait t handle key).pc u = .releasing handle' v →
      s.pc u = .releasing handle' v := by
    intro u handle' v hu
    have hne : u ≠ t := by
      rintro rfl
      simp [hself] at hu
    exact hother u hne ▸ hu
  have hmem : ∀ entry ∈ (s.callWait t handle key).waitList,
      entry ∈ s.waitList ∨ entry = ⟨key, t, handle⟩ := by
    intro entry hin
    simpa [State.callWait] using hin
  constructor
  case entries =>
    intro entry hin
    rcases hmem entry hin with hold | rfl
    · rw [hother _ (hentry entry hold)]
      exact h.entries entry hold
    · exact .inl hself
  case nodup =>
    -- a thread that is idle has no entry in the list
    have hnew : t ∉ s.waitList.map WaitEntry.teb := by
      intro hin
      obtain ⟨entry, hin, heq⟩ := List.mem_map.mp hin
      exact hentry entry hin heq
    simp only [State.callWait, List.map_append, List.nodup_append]
    exact ⟨h.nodup, by simp, by simpa using fun entry hin heq => hentry entry hin heq⟩
  case fresh =>
    intro entry hin
    rcases hmem entry hin with hold | rfl
    · exact h.fresh entry hold
    · exact hdue
  case releasing => exact fun u handle' v hu => h.releasing u handle' v (hreleasing u handle' v hu)
  case once =>
    intro u u' handle₁ handle₂ v hu hu'
    exact h.once u u' handle₁ handle₂ v (hreleasing u handle₁ v hu) (hreleasing u' handle₂ v hu')
  case semaphore => exact h.semaphore
  case blocked =>
    intro u handle' key' hu entry hin hhandle hkey
    have hne : u ≠ t := by
      rintro rfl
      simp [hself] at hu
    rcases hmem entry hin with hold | rfl
    · rw [hother _ (hentry entry hold)]
      exact h.blocked u handle' key' (hother u hne ▸ hu) entry hold hhandle hkey
    · obtain rfl : handle = handle' := hhandle
      obtain rfl : key = key' := hkey
      exact hself
  case matched => exact h.matched
  case quiet => exact h.quiet

theorem pulse {handle : η} (h : Sound s) : Sound (s.pulse handle) := by
  have hstay : ∀ {u}, (∀ key, s.pc u ≠ .blocked handle key) → (s.pulse handle).pc u = s.pc u := by
    intro u hu
    exact (pulse_pc (s := s) handle u).resolve_right fun ⟨key, hblocked, _⟩ => hu key hblocked
  have hback : ∀ {u p}, (s.pulse handle).pc u = p → (∀ key, p ≠ .searching handle key) →
      s.pc u = p := by
    intro u p hu hp
    rcases pulse_pc (s := s) handle u with hsame | ⟨key, _, hnew⟩
    · exact hsame ▸ hu
    · exact absurd (hu.symm.trans hnew) (hp key)
  have hentry : ∀ entry ∈ s.waitList, (s.pulse handle).pc entry.teb = s.pc entry.teb := by
    intro entry hin
    apply hstay
    intro key hblocked
    rcases h.entries entry hin with hpc | hpc <;> simp [hblocked] at hpc
  constructor
  case entries =>
    intro entry hin
    rw [hentry entry hin]
    exact h.entries entry hin
  case nodup => exact h.nodup
  case fresh => exact h.fresh
  case releasing => exact fun u handle' v hu => h.releasing u handle' v (hback hu nofun)
  case once =>
    intro u u' handle₁ handle₂ v hu hu'
    exact h.once u u' handle₁ handle₂ v (hback hu nofun) (hback hu' nofun)
  case semaphore => exact h.semaphore
  case blocked =>
    intro u handle' key hu entry hin
    rw [hentry entry hin]
    exact h.blocked u handle' key (hback hu nofun) entry hin
  case matched => exact h.matched
  case quiet => exact h.quiet

/-- After the pulse nobody is blocked on the event. -/
theorem pulse_frees (handle : η) (u : τ) (key : κ) : (s.pulse handle).pc u ≠ .blocked handle key := by
  intro hu
  rcases pulse_pc (s := s) handle u with hsame | ⟨key', _, hnew⟩
  · have hold := hsame.symm.trans hu
    simp [State.pulse, hold] at hu
  · simp [hnew] at hu

/-- The pulse of a thread that is not blocked itself can be looked at first. -/
theorem goto_pulse {p : Pc τ η κ} (handle : η) (hp : ∀ key, p ≠ .blocked handle key) :
    (s.goto t p).pulse handle = (s.pulse handle).goto t p := by
  have hpc : ((s.goto t p).pulse handle).pc = ((s.pulse handle).goto t p).pc := by
    funext u
    by_cases hu : u = t
    · subst hu
      cases p <;> simp_all [State.pulse, State.goto]
    · simp [State.pulse, State.goto, Function.update_of_ne hu]
  unfold State.pulse State.goto at hpc ⊢
  simpa using hpc

/-- A waiter has pulsed, and waits. -/
theorem startWait {handle : η} {key : κ} (h : Sound s) (hpc : s.pc t = .pulsing handle key)
    (hfree : ∀ u key, s.pc u ≠ .blocked handle key) : Sound (s.goto t (.waiting handle key)) := by
  have hself : (s.goto t (.waiting handle key)).pc t = .waiting handle key :=
    Function.update_self _ _ _
  have hother : ∀ u, u ≠ t → (s.goto t (.waiting handle key)).pc u = s.pc u :=
    fun u hu => Function.update_of_ne hu _ _
  have hback : ∀ {u p}, (s.goto t (.waiting handle key)).pc u = p → p ≠ .waiting handle key →
      s.pc u = p := by
    intro u p hu hp
    have hne : u ≠ t := by
      rintro rfl
      exact hp (hu.symm.trans hself)
    exact hother u hne ▸ hu
  constructor
  case entries =>
    intro entry hin
    by_cases hu : entry.teb = t
    · have hold := h.entries entry hin
      rw [hu, hpc] at hold
      rw [hu, hself]
      simpa using hold
    · rw [hother _ hu]
      exact h.entries entry hin
  case nodup => exact h.nodup
  case fresh => exact h.fresh
  case releasing => exact fun u handle' v hu => h.releasing u handle' v (hback hu nofun)
  case once =>
    intro u u' handle₁ handle₂ v hu hu'
    exact h.once u u' handle₁ handle₂ v (hback hu nofun) (hback hu' nofun)
  case semaphore => exact h.semaphore
  case blocked =>
    -- Whoever is still blocked is blocked on another event.
    intro u handle' key' hu entry hin hhandle hkey
    have hblocked := hback hu nofun
    have hold := h.blocked u handle' key' hblocked entry hin hhandle hkey
    have hne : entry.teb ≠ t := by
      intro heq
      rw [heq, hpc, Pc.pulsing.injEq] at hold
      exact hfree u key' (hold.1 ▸ hblocked)
    rw [hother _ hne]
    exact hold
  case matched => exact h.matched
  case quiet => exact h.quiet

/-- The semaphore count is used up. -/
theorem satisfy (h : Sound s) (hsemaphore : s.semaphore t ≠ 0) : Sound (s.satisfy t) := by
  obtain ⟨hdue, hlimit⟩ := h.semaphore t hsemaphore
  have hentry : ∀ entry ∈ s.waitList, entry.teb ≠ t := by
    rintro entry hin rfl
    simp [h.fresh entry hin] at hdue
  have hmove : Sound (s.goto t .idle) := h.move trivial hentry
  have hcount : ∀ v, (s.satisfy t).semaphore v = if v = t then 0 else s.semaphore v := by
    intro v
    simp [State.satisfy, Function.update_apply, hlimit, semaphoreLimit]
  have hdue' : ∀ v, (s.satisfy t).due v = if v = t then false else s.due v := by
    intro v
    simp [State.satisfy, Function.update_apply]
  constructor
  case entries => exact hmove.entries
  case nodup => exact hmove.nodup
  case fresh =>
    intro entry hin
    rw [hdue', if_neg (hentry entry hin)]
    exact h.fresh entry hin
  case releasing =>
    intro u handle v hu
    have hold := hmove.releasing u handle v hu
    have hne : v ≠ t := fun heq => hsemaphore (heq ▸ hold.2)
    rw [hdue', hcount, if_neg hne, if_neg hne]
    exact hold
  case once => exact hmove.once
  case semaphore =>
    intro v hv
    have hne : v ≠ t := fun heq => hv (by rw [hcount, if_pos heq])
    rw [hcount, if_neg hne] at hv
    rw [hdue', hcount, if_neg hne, if_neg hne]
    exact h.semaphore v hv
  case blocked => exact hmove.blocked
  case matched => exact h.matched
  case quiet => exact h.quiet

/-- A semaphore is released, of a thread that no release has any more. -/
theorem releaseSemaphore (h : Sound s) (hdue : s.due t = true) (hcount : s.semaphore t = 0)
    (hnone : ∀ u handle, s.pc u ≠ .releasing handle t) : Sound (s.releaseSemaphore t) := by
  have hbelow : s.semaphore t ≠ semaphoreLimit := by simp [hcount, semaphoreLimit]
  rw [State.releaseSemaphore, if_neg hbelow]
  constructor
  case entries => exact h.entries
  case nodup => exact h.nodup
  case fresh => exact h.fresh
  case releasing =>
    intro u handle v hu
    have hne : v ≠ t := by
      rintro rfl
      exact hnone u handle hu
    simpa [Function.update_of_ne hne] using h.releasing u handle v hu
  case once => exact h.once
  case semaphore =>
    intro v hv
    by_cases hne : v = t
    · subst hne
      simp [hdue, hcount, semaphoreLimit]
    · simp only [Function.update_of_ne hne] at hv ⊢
      exact h.semaphore v hv
  case blocked => exact h.blocked
  case matched => exact h.matched
  case quiet => exact h.quiet

/-- What holds of a thread with an entry. -/
theorem of_entry {entry : WaitEntry τ η κ} (h : Sound s) (hin : entry ∈ s.waitList) :
    s.semaphore entry.teb = 0 ∧ ∀ u handle, s.pc u ≠ .releasing handle entry.teb := by
  have hfresh := h.fresh entry hin
  constructor
  · by_contra hcount
    have hdue := (h.semaphore entry.teb hcount).1
    simp [hfresh] at hdue
  · intro u handle hu
    have hdue := (h.releasing u handle entry.teb hu).1
    simp [hfresh] at hdue

theorem take {entry : WaitEntry τ η κ} (h : Sound s) (hin : entry ∈ s.waitList) :
    Sound (s.take entry) := by
  have hsub : (s.waitList.erase entry).Sublist s.waitList := List.erase_sublist
  have hother : ∀ e ∈ s.waitList.erase entry, e.teb ≠ entry.teb := by
    intro e he heq
    have hsame := List.inj_on_of_nodup_map h.nodup (hsub.subset he) hin heq
    exact (h.nodup.of_map WaitEntry.teb).not_mem_erase (hsame ▸ he)
  obtain ⟨hcount, hnone⟩ := h.of_entry hin
  have hdue : ∀ v, s.due v = true → (s.take entry).due v = true := by
    intro v hv
    by_cases hne : v = entry.teb <;> simp [State.take, hne, hv]
  constructor
  case entries => exact fun e he => h.entries e (hsub.subset he)
  case nodup => exact h.nodup.sublist (hsub.map _)
  case fresh =>
    intro e he
    have hne := hother e he
    simpa [State.take, hne] using h.fresh e (hsub.subset he)
  case releasing =>
    intro u handle v hu
    have hold := h.releasing u handle v hu
    exact ⟨hdue v hold.1, hold.2⟩
  case once => exact h.once
  case semaphore =>
    intro v hv
    have hold := h.semaphore v hv
    exact ⟨hdue v hold.1, hold.2⟩
  case blocked => exact fun u handle key hu e he => h.blocked u handle key hu e (hsub.subset he)
  case matched => exact h.matched
  case quiet => exact h.quiet

/-- A release has a waiter. -/
theorem startRelease {handle : η} {v : τ} {pairs : List (η × η)} (h : Sound s)
    (hentry : ∀ entry ∈ s.waitList, entry.teb ≠ t) (hdue : s.due v = true)
    (hcount : s.semaphore v = 0) (hnone : ∀ u handle, s.pc u ≠ .releasing handle v)
    (hpairs : ∀ pair ∈ pairs, pair.1 = pair.2) :
    Sound { s.goto t (.releasing handle v) with matched := s.matched ++ pairs } := by
  have hself : (s.goto t (.releasing handle v)).pc t = .releasing handle v :=
    Function.update_self _ _ _
  have hother : ∀ u, u ≠ t → (s.goto t (.releasing handle v)).pc u = s.pc u :=
    fun u hu => Function.update_of_ne hu _ _
  constructor
  case entries =>
    intro entry hin
    simpa only [hother _ (hentry entry hin)] using h.entries entry hin
  case nodup => exact h.nodup
  case fresh => exact h.fresh
  case releasing =>
    intro u handle' w hu
    by_cases hne : u = t
    · simp only [hne, hself, Pc.releasing.injEq] at hu
      rw [← hu.2]
      exact ⟨hdue, hcount⟩
    · simp only [hother u hne] at hu
      exact h.releasing u handle' w hu
  -- nobody else was about to release the same waiter
  case once =>
    intro u u' handle₁ handle₂ w hu hu'
    by_cases hne : u = t <;> by_cases hne' : u' = t
    · exact hne.trans hne'.symm
    · simp only [hne, hself, Pc.releasing.injEq] at hu
      simp only [hother u' hne', ← hu.2] at hu'
      exact absurd hu' (hnone u' handle₂)
    · simp only [hne', hself, Pc.releasing.injEq] at hu'
      simp only [hother u hne, ← hu'.2] at hu
      exact absurd hu (hnone u handle₁)
    · simp only [hother u hne] at hu
      simp only [hother u' hne'] at hu'
      exact h.once u u' handle₁ handle₂ w hu hu'
  case semaphore => exact h.semaphore
  case blocked =>
    intro u handle' key hu entry hin
    have hne : u ≠ t := by
      rintro rfl
      simp [hself] at hu
    simp only [hother _ (hentry entry hin)]
    simp only [hother u hne] at hu
    exact h.blocked u handle' key hu entry hin
  case matched =>
    intro pair hin
    rcases List.mem_append.mp hin with hin | hin
    · exact h.matched pair hin
    · exact hpairs pair hin
  case quiet => exact h.quiet

theorem search {handle : η} {key : κ} (h : Sound s) (hpc : s.pc t = .searching handle key)
    (hguard : ∀ entry ∈ s.waitList.find? fun entry => entry.key = key, entry.handle = handle) :
    Sound (s.search t handle key) := by
  have hentry := h.noEntry (t := t) (by simp [hpc]) (by simp [hpc])
  unfold State.search
  split
  case h_1 entry hfind =>
    have hin := List.mem_of_find?_eq_some hfind
    obtain ⟨hcount, hnone⟩ := h.of_entry hin
    have htaken := h.take hin
    apply htaken.startRelease
    · exact fun e he => hentry e (List.erase_sublist.subset he)
    · simp [State.take]
    · exact hcount
    · exact hnone
    · simpa using (hguard entry hfind).symm
  case h_2 => exact h.move trivial hentry

theorem block {handle : η} {key : κ} (h : Sound s) (hpc : s.pc t = .blocking handle key)
    (hguard : ∀ entry ∈ s.waitList, entry.handle = handle → entry.key = key →
      s.pc entry.teb = .pulsing handle key) : Sound (s.goto t (.blocked handle key)) := by
  have hentry := h.noEntry (t := t) (by simp [hpc]) (by simp [hpc])
  have hmove : Sound (s.goto t .idle) := h.move trivial hentry
  have hself : (s.goto t (.blocked handle key)).pc t = .blocked handle key :=
    Function.update_self _ _ _
  have hother : ∀ u, u ≠ t → (s.goto t (.blocked handle key)).pc u = s.pc u :=
    fun u hu => Function.update_of_ne hu _ _
  have hback : ∀ {u handle' v}, (s.goto t (.blocked handle key)).pc u = .releasing handle' v →
      s.pc u = .releasing handle' v := by
    intro u handle' v hu
    have hne : u ≠ t := by
      rintro rfl
      simp [hself] at hu
    exact hother u hne ▸ hu
  constructor
  case entries =>
    intro entry hin
    rw [hother _ (hentry entry hin)]
    exact h.entries entry hin
  case nodup => exact h.nodup
  case fresh => exact h.fresh
  case releasing => exact fun u handle' v hu => h.releasing u handle' v (hback hu)
  case once =>
    intro u u' handle₁ handle₂ v hu hu'
    exact h.once u u' handle₁ handle₂ v (hback hu) (hback hu')
  case semaphore => exact h.semaphore
  case blocked =>
    intro u handle' key' hu entry hin hhandle hkey
    rw [hother _ (hentry entry hin)]
    by_cases hne : u = t
    · rw [hne, hself, Pc.blocked.injEq] at hu
      obtain ⟨rfl, rfl⟩ := hu
      exact hguard entry hin hhandle hkey
    · rw [hother u hne] at hu
      exact h.blocked u handle' key' hu entry hin hhandle hkey
  case matched => exact h.matched
  case quiet => exact h.quiet

/-- Every entry that is left is given its count. -/
theorem releaseEntries (entries : List (WaitEntry τ η κ)) (h : Sound s)
    (hentries : s.waitList = entries) : Sound (State.releaseEntries entries s) := by
  induction entries generalizing s with
  | nil => exact h
  | cons entry rest ih =>
    have hin : entry ∈ s.waitList := by simp [hentries]
    obtain ⟨hcount, hnone⟩ := h.of_entry hin
    have hbelow : s.semaphore entry.teb ≠ semaphoreLimit := by simp [hcount, semaphoreLimit]
    have hreleased := (h.take hin).releaseSemaphore (t := entry.teb) (by simp [State.take]) hcount
      hnone
    rw [State.releaseEntries, if_neg hbelow]
    apply ih
    · simpa [State.take, State.releaseSemaphore, hbelow] using hreleased
    · simp [hentries]

/-- Every orderly step keeps the invariant. -/
theorem step {a : Action τ η κ} (h : Sound s) (hen : Enabled s a) (hguard : Orderly s a) :
    Sound (next s a) := by
  cases a with
  | callWait t handle key => exact h.callWait hen.1 hguard
  | pulse t handle key =>
    have hpc : s.pc t = .pulsing handle key := hen
    simp only [next]
    rw [goto_pulse handle (by simp)]
    apply h.pulse.startWait
    · simp [State.pulse, hpc]
    · exact pulse_frees handle
  | satisfy t handle key => exact h.satisfy hen.2
  | timeOut t handle key => exact h.move trivial hguard
  | callRelease t handle key =>
    exact h.move trivial (h.noEntry (by simp [hen.1]) (by simp [hen.1]))
  | search t handle key => exact h.search hen hguard
  | block t handle key => exact h.block hen hguard
  | unblock t handle key =>
    have hpc : s.pc t = .blocked handle key := hen
    exact h.move trivial (h.noEntry (by simp [hpc]) (by simp [hpc]))
  | release t handle found =>
    have hpc : s.pc t = .releasing handle found := hen
    obtain ⟨hdue, hcount⟩ := h.releasing t handle found hpc
    have hmove : Sound (s.goto t (.pulsingBack handle)) :=
      h.move trivial (h.noEntry (by simp [hpc]) (by simp [hpc]))
    have hbelow : s.semaphore found ≠ semaphoreLimit := by simp [hcount, semaphoreLimit]
    have hreleased := hmove.releaseSemaphore hdue hcount (by
      intro u handle' hu
      by_cases hne : u = t
      · simp [State.goto, hne] at hu
      · simp only [State.goto, Function.update_of_ne hne] at hu
        exact hne (h.once u t handle' handle found hu hpc))
    simp only [next, if_neg hbelow]
    simpa [State.releaseSemaphore, State.goto, hbelow] using hreleased
  | pulseBack t handle =>
    have hpc : s.pc t = .pulsingBack handle := hen
    have hmove : Sound (s.goto t .idle) :=
      h.move trivial (h.noEntry (by simp [hpc]) (by simp [hpc]))
    exact hmove.pulse
  | terminate =>
    have hterminated : Sound { s with terminated := true } := { h with }
    exact hterminated.releaseEntries _ rfl

end Sound

theorem sound_of_reachable : ∀ s, (keyedEvents τ η κ).Reachable Orderly s → Sound s := by
  apply System.Reachable.invariant
  · intro s hinit
    rw [show s = initialState τ η κ from hinit]
    exact sound_initial
  · intro s a h hen hguard
    exact h.step hen hguard

/-! ## Rendezvous -/

/-- A release is blocked next to an entry for it only while the waiter is about to pulse. -/
def NoneStranded (s : State τ η κ) : Prop :=
  ∀ u handle key, s.pc u = .blocked handle key → ∀ entry ∈ s.waitList,
    entry.handle = handle → entry.key = key → s.pc entry.teb = .pulsing handle key

/-- Releases have taken entries of their own handle. -/
def OwnHandle (s : State τ η κ) : Prop :=
  ∀ pair ∈ s.matched, pair.1 = pair.2

/-- Whoever has an entry is in the wait that has queued it. -/
def EntriesWait (s : State τ η κ) : Prop :=
  ∀ entry ∈ s.waitList, s.pc entry.teb = .pulsing entry.handle entry.key ∨
    s.pc entry.teb = .waiting entry.handle entry.key

/-- In an orderly run no release is stranded, releases take entries of their own handle, and every
entry belongs to a thread that waits. -/
theorem orderly_rendezvous (s : State τ η κ) (hs : (keyedEvents τ η κ).Reachable Orderly s) :
    NoneStranded s ∧ OwnHandle s ∧ EntriesWait s := by
  have h := sound_of_reachable s hs
  exact ⟨h.blocked, h.matched, h.entries⟩

/-- Thread `0` releases key `5` of handle `7`, finds nothing and blocks; `1` and `2` wait for it on
`7` and on `8`, and `0` takes the entry of `1`. -/
def meeting : List (Action Nat Nat Nat) :=
  [.callRelease 0 7 5, .search 0 7 5, .callWait 1 7 5, .block 0 7 5, .callWait 2 8 5, .pulse 2 8 5,
    .pulse 1 7 5, .search 0 7 5, .release 0 7 1, .satisfy 1 7 5, .pulseBack 0 7]

theorem meeting_is_rendezvous :
    ((keyedEvents Nat Nat Nat).exec (initialState Nat Nat Nat) meeting).matched = [(7, 7)] ∧
      NoneStranded ((keyedEvents Nat Nat Nat).exec (initialState Nat Nat Nat) meeting) ∧
      OwnHandle ((keyedEvents Nat Nat Nat).exec (initialState Nat Nat Nat) meeting) ∧
      EntriesWait ((keyedEvents Nat Nat Nat).exec (initialState Nat Nat Nat) meeting) := by
  have hrun : (keyedEvents Nat Nat Nat).Reachable Orderly
      ((keyedEvents Nat Nat Nat).exec (initialState Nat Nat Nat) meeting) :=
    System.reachable_exec _ meeting rfl (by decide +kernel)
  exact ⟨by decide +kernel, orderly_rendezvous _ hrun⟩

/-- The waiter queues and pulses between the search of the release and its wait. -/
def lostPulse : List (Action Nat Nat Nat) :=
  [.callRelease 0 7 5, .search 0 7 5, .callWait 1 7 5, .pulse 1 7 5, .block 0 7 5]

/-- Thread `1` waits on handle `7`, `0` releases the same key on handle `8`. -/
def foreignHandle : List (Action Nat Nat Nat) :=
  [.callWait 1 7 5, .pulse 1 7 5, .callRelease 0 8 5, .search 0 8 5]

/-- The time of the wait is up. -/
def waitTimesOut : List (Action Nat Nat Nat) :=
  [.callWait 1 7 5, .pulse 1 7 5, .timeOut 1 7 5]

/-- A pulse that nobody waits for yet is lost; the handle of an entry is not looked at; a wait whose
time is up leaves its entry behind. -/
theorem disorderly_rendezvous_fails :
    (¬ ∀ s, (keyedEvents Nat Nat Nat).Reachable Always s → NoneStranded s) ∧
      (¬ ∀ s, (keyedEvents Nat Nat Nat).Reachable Always s → OwnHandle s) ∧
      ¬ ∀ s, (keyedEvents Nat Nat Nat).Reachable Always s → EntriesWait s := by
  have hlost : (keyedEvents Nat Nat Nat).Reachable Always
      ((keyedEvents Nat Nat Nat).exec (initialState Nat Nat Nat) lostPulse) :=
    System.reachable_exec _ lostPulse rfl (by decide +kernel)
  have hforeign : (keyedEvents Nat Nat Nat).Reachable Always
      ((keyedEvents Nat Nat Nat).exec (initialState Nat Nat Nat) foreignHandle) :=
    System.reachable_exec _ foreignHandle rfl (by decide +kernel)
  have htimesOut : (keyedEvents Nat Nat Nat).Reachable Always
      ((keyedEvents Nat Nat Nat).exec (initialState Nat Nat Nat) waitTimesOut) :=
    System.reachable_exec _ waitTimesOut rfl (by decide +kernel)
  refine ⟨fun hall => ?_, fun hall => ?_, fun hall => ?_⟩
  · have hstranded := hall _ hlost 0 7 5 (by decide +kernel) ⟨5, 1, 7⟩ (by decide +kernel) rfl rfl
    revert hstranded
    decide +kernel
  · have hown := hall _ hforeign (8, 7) (by decide +kernel)
    revert hown
    decide
  · have hwaits := hall _ htimesOut ⟨5, 1, 7⟩ (by decide +kernel)
    revert hwaits
    decide +kernel

end Ldk.KeyedEvent
