import Ldk.SrwLock.State

/-!
# Exclusion and wakes of an SRW lock

- `Sound`: the invariant. The word encodes the holders; nobody sleeps on the word `0`; when the word
  is `0` and a thread sleeps unwoken, some release is about to wake it.
- `srw_lock_is_exclusive`: the word is `0`, `-1` or the number of shared holders, an exclusive holder
  is alone, and no thread is left asleep by the last release.
-/

namespace Ldk.SrwLock

open TransitionSystem

variable {τ : Type}

/-! ## The invariant -/

/-- What a thread at a program counter may rely on. -/
def Holds (readers writers : List τ) (t : τ) : Pc → Prop
  | .start (.release .exclusive) => t ∈ writers
  | .start (.release .shared) | .read (.release _) _ => t ∈ readers
  | .read (.acquire _) state | .read (.tryAcquire _) state => 0 ≤ state
  | .waiting _ compareValue => compareValue ≠ 0
  | .raised => False
  | _ => True

theorem Holds.mono {readers readers' writers writers' : List τ} {t : τ} {p : Pc}
    (hr : t ∈ readers → t ∈ readers') (hw : t ∈ writers → t ∈ writers')
    (h : Holds readers writers t p) : Holds readers' writers' t p := by
  rcases p with _ | (_ | _ | (_ | _)) | ⟨_ | _ | _, _⟩ | _ | _ | _ | _
  case start.release.shared => exact hr h
  case start.release.exclusive => exact hw h
  case read.release => exact hr h
  all_goals exact h

/-- The word encodes the holders. -/
def Encoded (s : State τ) : Prop :=
  (s.writers = [] ∧ s.word = s.readers.length) ∨
    (∃ t, s.writers = [t]) ∧ s.readers = [] ∧ s.word = exclusive

/-- A sleeper has been woken, or a release is about to wake it. -/
def NoneStranded (s : State τ) : Prop :=
  s.word = 0 → (∃ u, s.pc u = .waking) ∨ ∀ t mode, s.pc t = .asleep mode → s.woken t = true

structure Sound (s : State τ) : Prop where
  encoded : Encoded s
  holds : ∀ t, Holds s.readers s.writers t (s.pc t)
  noneStranded : NoneStranded s

theorem sound_initial : Sound (initialState τ) where
  encoded := .inl ⟨rfl, rfl⟩
  holds _ := trivial
  noneStranded _ := .inr nofun

namespace Sound

variable {s s' : State τ} {t : τ}

theorem writer (h : Sound s) (hw : t ∈ s.writers) :
    s.writers = [t] ∧ s.readers = [] ∧ s.word = exclusive := by
  rcases h.encoded with ⟨hnone, _⟩ | ⟨⟨u, hone⟩, hrest⟩
  · simp [hnone] at hw
  · rw [hone, List.mem_singleton] at hw
    exact ⟨hw ▸ hone, hrest⟩

theorem reader (h : Sound s) (hr : t ∈ s.readers) :
    s.writers = [] ∧ s.word = s.readers.length ∧ 0 < s.word := by
  rcases h.encoded with ⟨hnone, hword⟩ | ⟨_, hempty, _⟩
  · have hpos := List.length_pos_of_mem hr
    exact ⟨hnone, hword, by omega⟩
  · simp [hempty] at hr

theorem nonnegative (h : Sound s) (hword : 0 ≤ s.word) :
    s.writers = [] ∧ s.word = s.readers.length := by
  rcases h.encoded with hfree | ⟨_, _, hword'⟩
  · exact hfree
  · simp [hword', exclusive] at hword

variable [DecidableEq τ]

/-! ## Steps -/

/-- One thread changes its program counter, and perhaps the holders. -/
theorem change {p : Pc} (h : Sound s) (hpc : s'.pc = Function.update s.pc t p)
    (hkeep : ∀ u q, u ≠ t → Holds s.readers s.writers u q → Holds s'.readers s'.writers u q)
    (hp : Holds s'.readers s'.writers t p) (hencoded : Encoded s')
    (hstranded : NoneStranded s') : Sound s' where
  encoded := hencoded
  holds u := by
    rw [hpc]
    by_cases hu : u = t
    · rw [hu, Function.update_self]
      exact hp
    · rw [Function.update_of_ne hu]
      exact hkeep u _ hu (h.holds u)
  noneStranded := hstranded

/-- A thread moves on within its routine: it does not fall asleep and leaves no wake undone. -/
theorem move {p : Pc} (h : Sound s) (hp : Holds s.readers s.writers t p)
    (hasleep : ∀ mode, p ≠ .asleep mode) (hwaking : s.pc t ≠ .waking) : Sound (s.goto t p) := by
  have hother : ∀ u, u ≠ t → (s.goto t p).pc u = s.pc u := fun u hu => Function.update_of_ne hu _ _
  have hself : (s.goto t p).pc t = p := Function.update_self _ _ _
  refine h.change rfl (fun _ _ _ hq => hq) hp h.encoded ?_
  intro hword
  rcases h.noneStranded hword with ⟨u, hu⟩ | hall
  · have hne : u ≠ t := fun heq => hwaking (heq ▸ hu)
    exact .inl ⟨u, (hother u hne).trans hu⟩
  · apply Or.inr
    intro u mode hu
    have hne : u ≠ t := fun heq => hasleep mode (hself.symm.trans (heq ▸ hu))
    exact hall u mode ((hother u hne).symm.trans hu)

/-- One more shared holder. -/
theorem holdShared (h : Sound s) (hword : 0 ≤ s.word) : Sound (s.hold t .shared) := by
  obtain ⟨hnone, hcount⟩ := h.nonnegative hword
  refine h.change (p := .idle) rfl ?_ trivial ?_ ?_
  · intro u q _ hq
    exact hq.mono (List.mem_cons_of_mem t) id
  · refine .inl ⟨hnone, ?_⟩
    simp [State.hold, hcount]
  · intro hzero
    simp only [State.hold] at hzero
    omega

/-- The first exclusive holder. -/
theorem holdExclusive (h : Sound s) (hword : s.word = 0) : Sound (s.hold t .exclusive) := by
  obtain ⟨hnone, hcount⟩ := h.nonnegative (by omega)
  have hempty : s.readers = [] := List.length_eq_zero_iff.mp (by omega)
  refine h.change (p := .idle) rfl ?_ trivial ?_ ?_
  · intro u q _ hq
    exact hq.mono id (List.mem_cons_of_mem t)
  · exact .inr ⟨⟨t, by simp [State.hold, hnone]⟩, hempty, rfl⟩
  · exact nofun

theorem releaseExclusive (h : Sound s) (hw : t ∈ s.writers) : Sound (s.releaseExclusive t) := by
  obtain ⟨hone, hempty, hword⟩ := h.writer hw
  rw [State.releaseExclusive, if_pos hword]
  refine h.change (p := .waking) rfl ?_ trivial ?_ ?_
  · intro u q hu hq
    exact hq.mono id (List.mem_erase_of_ne hu).mpr
  · exact .inl ⟨by simp [hone], by simp [State.goto, hempty]⟩
  · exact fun _ => .inl ⟨t, Function.update_self _ _ _⟩

theorem releaseShared (h : Sound s) (hr : t ∈ s.readers) (hwaking : s.pc t ≠ .waking) :
    Sound (s.releaseShared t) := by
  have hpos := (h.reader hr).2.2
  rw [State.releaseShared, if_neg (by omega)]
  exact h.move hr nofun hwaking

theorem releaseSharedFrom {state : Int} (h : Sound s) (hr : t ∈ s.readers)
    (hwaking : s.pc t ≠ .waking) : Sound (s.releaseSharedFrom t state) := by
  obtain ⟨hnone, hcount, hpos⟩ := h.reader hr
  unfold State.releaseSharedFrom
  split
  · rename_i hsame
    refine h.change rfl ?_ ?_ ?_ ?_
    · intro u q hu hq
      exact hq.mono (List.mem_erase_of_ne hu).mpr id
    · split <;> trivial
    · have hlength := List.length_erase_of_mem hr
      exact .inl ⟨hnone, by simp only [hlength]; omega⟩
    · -- The word can only be `0` when this thread was the last holder.
      intro hzero
      exact .inl ⟨t, by simpa [State.goto] using hzero⟩
  · exact h.move hr nofun hwaking

theorem waitForChange {mode : Mode} {compareValue : Int} (h : Sound s) (hne : compareValue ≠ 0)
    (hwaking : s.pc t ≠ .waking) : Sound (s.waitForChange t mode compareValue) := by
  unfold State.waitForChange
  split
  · rename_i hsame
    refine h.change (p := .asleep mode) rfl (fun _ _ _ hq => hq) trivial h.encoded ?_
    intro hzero
    exact absurd (hsame.symm.trans hzero) hne
  · exact h.move trivial nofun hwaking

theorem wakeAll (h : Sound s) : Sound (s.wakeAll t) :=
  h.change (p := .idle) rfl (fun _ _ _ hq => hq) trivial h.encoded fun _ => .inr fun _ _ _ => rfl

theorem acquireSharedFrom {state : Int} (h : Sound s) (hstate : 0 ≤ state)
    (hwaking : s.pc t ≠ .waking) : Sound (s.acquireSharedFrom t state) := by
  unfold State.acquireSharedFrom
  split
  · exact h.holdShared (by omega)
  · split
    · exact h.move trivial nofun hwaking
    · exact h.move (show s.word ≠ 0 by omega) nofun hwaking

theorem advance (h : Sound s) : Sound (s.advance t) := by
  have hholds := h.holds t
  unfold State.advance
  split <;> rename_i hpc <;> rw [hpc] at hholds
  case h_1 =>
    unfold State.acquireExclusive
    split
    · rename_i hfree
      exact h.holdExclusive hfree
    · rename_i hheld
      exact h.move hheld nofun (by simp [hpc])
  case h_2 =>
    unfold State.acquireShared
    split
    · rename_i hcount
      exact h.move hcount nofun (by simp [hpc])
    · exact h.move (show s.word ≠ 0 by omega) nofun (by simp [hpc])
  case h_3 =>
    unfold State.tryAcquireExclusive
    split
    · rename_i hfree
      exact h.holdExclusive hfree
    · exact h.move trivial nofun (by simp [hpc])
  case h_4 =>
    unfold State.tryAcquireShared
    split
    · rename_i hcount
      exact h.move hcount nofun (by simp [hpc])
    · exact h.move trivial nofun (by simp [hpc])
  case h_5 => exact h.releaseExclusive hholds
  case h_6 => exact h.releaseShared hholds (by simp [hpc])
  case h_7 => exact h.acquireSharedFrom hholds (by simp [hpc])
  case h_8 =>
    unfold State.tryAcquireSharedFrom
    split
    · rename_i hsame
      have hstate : 0 ≤ s.word := hsame ▸ hholds
      exact h.holdShared hstate
    · exact h.move trivial nofun (by simp [hpc])
  case h_9 => exact h.releaseSharedFrom hholds (by simp [hpc])
  case h_10 => exact h.waitForChange hholds (by simp [hpc])
  case h_11 => exact h.wakeAll
  case h_12 | h_13 | h_14 => exact h

theorem step {a : Action τ} (h : Sound s) (hen : Enabled s a) : Sound (next s a) := by
  cases a with
  | call t routine =>
    refine h.move ?_ nofun (by simp [hen.1])
    rcases routine with mode | mode | mode
    · trivial
    · trivial
    · cases mode with
      | shared => exact hen.2
      | exclusive => exact hen.2
  | advance t => exact h.advance
  | wake t mode => exact h.move trivial nofun (by simp [show s.pc t = .asleep mode from hen])

end Sound

variable [DecidableEq τ]

theorem sound_of_reachable : ∀ s, (srwLock τ).Reachable Always s → Sound s := by
  apply System.Reachable.invariant
  · intro s hinit
    rw [show s = initialState τ from hinit]
    exact sound_initial
  · intro s a h hen _
    exact h.step hen

/-- In every run, the lock word encodes the holders, an exclusive holder excludes every other one,
and a thread that sleeps while the lock is free and nobody is releasing it has been woken. -/
theorem srw_lock_is_exclusive (s : State τ) (hs : (srwLock τ).Reachable Always s) :
    (s.word = 0 ∨ s.word = -1 ∨ s.word = s.readers.length) ∧
      (s.word = -1 ↔ s.writers ≠ []) ∧
      (s.writers = [] → s.word = s.readers.length) ∧
      (∀ t ∈ s.writers, s.writers = [t] ∧ s.readers = []) ∧
      (s.word = 0 → (∀ u, ¬ (s.pc u).releasing) →
        ∀ t mode, s.pc t = .asleep mode → s.woken t = true) := by
  have h := sound_of_reachable s hs
  refine ⟨?_, ?_, ?_, ?_, ?_⟩
  · rcases h.encoded with ⟨_, hword⟩ | ⟨_, _, hword⟩
    · exact .inr (.inr hword)
    · exact .inr (.inl hword)
  · rcases h.encoded with ⟨hnone, hword⟩ | ⟨⟨t, hone⟩, _, hword⟩
    · simp [hnone, hword]
    · simp [hone, hword, exclusive]
  · intro hnone
    rcases h.encoded with ⟨_, hword⟩ | ⟨⟨t, hone⟩, _⟩
    · exact hword
    · simp [hnone] at hone
  · intro t hw
    obtain ⟨hone, hempty, _⟩ := h.writer hw
    exact ⟨hone, hempty⟩
  · intro hword hnot
    rcases h.noneStranded hword with ⟨u, hu⟩ | hall
    · exact absurd (show (s.pc u).releasing by simp [hu, Pc.releasing]) (hnot u)
    · exact hall

/-- Threads `0` and `1` hold the lock in shared mode, `2` reads the count of one and goes to sleep
on the count of two at its second try; both holders leave. -/
def sleeper : List (Action Nat) :=
  [.call 0 (.acquire .shared), .advance 0, .advance 0,
    .call 2 (.acquire .exclusive), .advance 2,
    .call 1 (.acquire .shared), .advance 1, .advance 1,
    .advance 2, .advance 2, .advance 2,
    .call 0 (.release .shared), .advance 0, .advance 0,
    .call 1 (.release .shared), .advance 1, .advance 1, .advance 1]

theorem sleeper_is_woken :
    ((srwLock Nat).exec (initialState Nat) sleeper).pc 2 = .asleep .exclusive ∧
      ((srwLock Nat).exec (initialState Nat) sleeper).woken 2 = true ∧
      (((srwLock Nat).exec (initialState Nat) sleeper).word = -1 ↔
        ((srwLock Nat).exec (initialState Nat) sleeper).writers ≠ []) := by
  have hrun : (srwLock Nat).Reachable Always ((srwLock Nat).exec (initialState Nat) sleeper) :=
    System.reachable_exec _ sleeper rfl (by decide +kernel)
  have hsafe := srw_lock_is_exclusive _ hrun
  exact ⟨by decide +kernel, by decide +kernel, hsafe.2.1⟩

end Ldk.SrwLock
