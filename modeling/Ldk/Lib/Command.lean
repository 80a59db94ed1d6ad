import Mathlib

/-!
# Commands that may fail

A small library for sequential code that changes a state, may fail with a status, and may not
return within the fuel it is given.

- `Command`: a state to nothing, or to an outcome and the next state.
- `Command.attempt`: carry on after a failure, with the outcome as a value.
- `Command.zoom`: code over a part of the state.
- `Ensures`: what holds of every outcome, with one rule for each way to build a command.
- `Returns`: the same of a command that returns.

A failure keeps the changes made before it: undoing them is up to the code.
-/

universe u v w x

/-- Code over states `σ` that fails with an `ε` or returns an `α`. -/
def Command (σ : Type u) (ε : Type v) (α : Type w) : Type (max u v w) :=
  σ → Option (Except ε α × σ)

namespace Command

variable {σ : Type u} {ε : Type v} {α β : Type w}

protected def pure (a : α) : Command σ ε α := fun s => some (.ok a, s)

/-- One command after another; a failure of the first is the failure of both. -/
protected def bind (c : Command σ ε α) (f : α → Command σ ε β) : Command σ ε β := fun s =>
  match c s with
  | none => none
  | some (.error e, s') => some (.error e, s')
  | some (.ok a, s') => f a s'

instance : Monad (Command σ ε) where
  pure := Command.pure
  bind := Command.bind

def fail (e : ε) : Command σ ε α := fun s => some (.error e, s)

/-- Never fails: the outcome is returned. -/
def attempt (c : Command σ ε α) : Command σ ε (Except ε α) := fun s =>
  (c s).map fun p => (.ok p.1, p.2)

/-- Read the state. -/
def read (f : σ → α) : Command σ ε α := fun s => some (.ok (f s), s)

/-- Change the state. -/
def change (f : σ → σ) : Command σ ε PUnit := fun s => some (.ok ⟨⟩, f s)

/-- What has been computed without the state. -/
def ofExcept (r : Except ε α) : Command σ ε α := fun s => some (r, s)

/-- Never returns. -/
def diverge : Command σ ε α := fun _ => none

/-- Run code over a part of the state. -/
def zoom {τ : Type x} (get : σ → τ) (set : τ → σ → σ) (c : Command τ ε α) : Command σ ε α :=
  fun s => (c (get s)).map fun p => (p.1, set p.2 s)

/-! ## Outcomes -/

/-- Every outcome of the command from the state satisfies `Q`. -/
def Ensures (c : Command σ ε α) (s : σ) (Q : Except ε α → σ → Prop) : Prop :=
  ∀ r s', c s = some (r, s') → Q r s'

namespace Ensures

variable {c : Command σ ε α} {f : α → Command σ ε β} {s : σ}
  {Q R : Except ε α → σ → Prop} {T : Except ε β → σ → Prop}

/-- A weaker postcondition. -/
theorem mono (h : Ensures c s Q) (hle : ∀ r s', Q r s' → R r s') : Ensures c s R :=
  fun r s' hrun => hle r s' (h r s' hrun)

theorem pure {a : α} (h : Q (.ok a) s) : Ensures (Pure.pure a : Command σ ε α) s Q := by
  rintro r s' hrun
  cases hrun
  exact h

theorem fail {e : ε} (h : Q (.error e) s) : Ensures (Command.fail e) s Q := by
  rintro r s' hrun
  cases hrun
  exact h

theorem read {g : σ → α} (h : Q (.ok (g s)) s) : Ensures (Command.read g) s Q := by
  rintro r s' hrun
  cases hrun
  exact h

theorem change {g : σ → σ} {Q : Except ε PUnit → σ → Prop} (h : Q (.ok ⟨⟩) (g s)) :
    Ensures (Command.change g) s Q := by
  rintro r s' hrun
  cases hrun
  exact h

theorem diverge : Ensures (Command.diverge : Command σ ε α) s Q := nofun

/-- The rule of composition: the second command starts where the first has returned. -/
theorem bind (hc : Ensures c s Q) (hok : ∀ a s', Q (.ok a) s' → Ensures (f a) s' T)
    (herror : ∀ e s', Q (.error e) s' → T (.error e) s') : Ensures (c >>= f) s T := by
  intro r s' hrun
  change Command.bind c f s = _ at hrun
  unfold Command.bind at hrun
  split at hrun
  · cases hrun
  · next e t heq =>
    cases hrun
    exact herror e _ (hc _ _ heq)
  · next a t heq => exact hok a t (hc _ _ heq) r s' hrun

theorem attempt {Q : Except ε (Except ε α) → σ → Prop}
    (h : Ensures c s (fun r s' => Q (.ok r) s')) : Ensures (Command.attempt c) s Q := by
  intro r s' hrun
  unfold Command.attempt at hrun
  obtain ⟨⟨r', t⟩, heq, hpair⟩ := Option.map_eq_some_iff.mp hrun
  cases hpair
  exact h _ _ heq

/-- Go on with what has been read. -/
theorem read_bind {g : σ → α} (h : Ensures (f (g s)) s T) :
    Ensures (Command.read g >>= f) s T := h

/-- Go on in the state that has been changed. -/
theorem change_bind {g : σ → σ} {f : PUnit → Command σ ε β} (h : Ensures (f ⟨⟩) (g s) T) :
    Ensures (Command.change g >>= f) s T := h

/-- Go on after an attempt with whatever outcome it had. -/
theorem attempt_bind {ε α β : Type w} {c : Command σ ε α} {f : Except ε α → Command σ ε β}
    {Q : Except ε α → σ → Prop} {T : Except ε β → σ → Prop} (hc : Ensures c s Q)
    (hnext : ∀ r s', Q r s' → Ensures (f r) s' T) : Ensures (Command.attempt c >>= f) s T := by
  have hattempt : Ensures (Command.attempt c) s (fun r s' => ∃ r', r = .ok r' ∧ Q r' s') :=
    .attempt (hc.mono fun r s' h => ⟨r, rfl, h⟩)
  refine hattempt.bind ?_ ?_
  · rintro r s' ⟨_, heq, h⟩
    cases heq
    exact hnext r s' h
  · rintro e s' ⟨_, heq, _⟩
    cases heq

theorem zoom {τ : Type x} {get : σ → τ} {set : τ → σ → σ} {c : Command τ ε α}
    (h : Ensures c (get s) (fun r t => Q r (set t s))) : Ensures (Command.zoom get set c) s Q := by
  intro r s' hrun
  unfold Command.zoom at hrun
  obtain ⟨⟨r', t⟩, heq, hpair⟩ := Option.map_eq_some_iff.mp hrun
  cases hpair
  exact h _ _ heq

/-- The two commands of a choice. -/
theorem ite {p : Prop} [Decidable p] {d : Command σ ε α} (hc : p → Ensures c s Q)
    (hd : ¬ p → Ensures d s Q) : Ensures (if p then c else d) s Q := by
  split
  · next hp => exact hc hp
  · next hp => exact hd hp

end Ensures

/-! ## Commands that return -/

/-- The command returns from the state, and the outcome satisfies `Q`. -/
def Returns (c : Command σ ε α) (s : σ) (Q : Except ε α → σ → Prop) : Prop :=
  ∃ r s', c s = some (r, s') ∧ Q r s'

namespace Returns

variable {c : Command σ ε α} {f : α → Command σ ε β} {s : σ}
  {Q R : Except ε α → σ → Prop} {T : Except ε β → σ → Prop}

/-- A command has one outcome. -/
theorem ensures (h : Returns c s Q) : Ensures c s Q := by
  obtain ⟨r, s', hrun, hQ⟩ := h
  intro r₂ s₂ hrun₂
  obtain ⟨rfl, rfl⟩ := Prod.mk.inj (Option.some.inj (hrun.symm.trans hrun₂))
  exact hQ

theorem mono (h : Returns c s Q) (hle : ∀ r s', Q r s' → R r s') : Returns c s R := by
  obtain ⟨r, s', hrun, hQ⟩ := h
  exact ⟨r, s', hrun, hle r s' hQ⟩

theorem pure {a : α} (h : Q (.ok a) s) : Returns (Pure.pure a : Command σ ε α) s Q :=
  ⟨_, _, rfl, h⟩

theorem fail {e : ε} (h : Q (.error e) s) : Returns (Command.fail e) s Q := ⟨_, _, rfl, h⟩

/-- The rule of composition. -/
theorem bind (hc : Returns c s Q) (hok : ∀ a s', Q (.ok a) s' → Returns (f a) s' T)
    (herror : ∀ e s', Q (.error e) s' → T (.error e) s') : Returns (c >>= f) s T := by
  obtain ⟨r, s', hrun, hQ⟩ := hc
  change ∃ r t, Command.bind c f s = some (r, t) ∧ T r t
  unfold Command.bind
  rw [hrun]
  cases r with
  | error e => exact ⟨.error e, s', rfl, herror e s' hQ⟩
  | ok a => exact hok a s' hQ

/-- Go on with what has been read. -/
theorem read_bind {g : σ → α} (h : Returns (f (g s)) s T) :
    Returns (Command.read g >>= f) s T := h

/-- Go on in the state that has been changed. -/
theorem change_bind {g : σ → σ} {f : PUnit → Command σ ε β} (h : Returns (f ⟨⟩) (g s) T) :
    Returns (Command.change g >>= f) s T := h

/-- Go on after an attempt with whatever outcome it had. -/
theorem attempt_bind {ε α β : Type w} {c : Command σ ε α} {f : Except ε α → Command σ ε β}
    {Q : Except ε α → σ → Prop} {T : Except ε β → σ → Prop} (hc : Returns c s Q)
    (hnext : ∀ r s', Q r s' → Returns (f r) s' T) : Returns (Command.attempt c >>= f) s T := by
  obtain ⟨r, s', hrun, hQ⟩ := hc
  change ∃ r t, Command.bind (Command.attempt c) f s = some (r, t) ∧ T r t
  unfold Command.bind Command.attempt
  rw [hrun]
  exact hnext r s' hQ

end Returns

end Command
