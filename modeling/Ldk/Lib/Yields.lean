import Mathlib

/-!
# Programs that yield a value

A program that may fault is an `Except`. `Yields x P` says that `x` does not fault and that what
it gives has the property `P`. The rules follow the shape of a program: a value, a sequence, a
choice. A specification of a function is a statement of this form, which its callers use by name.
`Ensures x P` says of the value alone that it has the property, if there is one; `Faults x` that
there is none.
-/

/-- The program does not fault, and its value has the property. -/
def Yields {ε α : Type} (x : Except ε α) (P : α → Prop) : Prop := ∃ a, x = .ok a ∧ P a

namespace Yields

variable {ε α β : Type} {x : Except ε α} {f : α → Except ε β} {P Q : α → Prop} {R : β → Prop}

theorem ok {a : α} (h : P a) : Yields (.ok a : Except ε α) P := ⟨a, rfl, h⟩

theorem ok_bind (a : α) (f : α → Except ε β) : (Except.ok a >>= f) = f a := rfl

/-- A weaker property. -/
theorem mono (hx : Yields x P) (h : ∀ a, P a → Q a) : Yields x Q := by
  obtain ⟨a, rfl, ha⟩ := hx
  exact ⟨a, rfl, h a ha⟩

/-- One program after another. -/
theorem bind (hx : Yields x P) (h : ∀ a, P a → Yields (f a) R) : Yields (x >>= f) R := by
  obtain ⟨a, rfl, ha⟩ := hx
  exact h a ha

/-- A choice. -/
theorem ite {c : Prop} [Decidable c] {y : Except ε α} (hx : c → Yields x P)
    (hy : ¬ c → Yields y P) : Yields (if c then x else y) P := by
  split
  · exact hx ‹c›
  · exact hy ‹¬ c›

end Yields

/-- What the program gives has the property, if it does not fault. -/
structure Ensures {ε α : Type} (x : Except ε α) (P : α → Prop) : Prop where
  holds : ∀ a, x = .ok a → P a

namespace Ensures

variable {ε α β : Type} {x : Except ε α} {f : α → Except ε β} {P : α → Prop} {R : β → Prop}

theorem ok {a : α} (h : P a) : Ensures (.ok a : Except ε α) P := by
  constructor
  intro b hb
  obtain rfl := Except.ok.inj hb
  exact h

theorem error (e : ε) (P : α → Prop) : Ensures (.error e : Except ε α) P := ⟨nofun⟩

/-- One program after another. -/
theorem bind (hx : Ensures x P) (h : ∀ a, P a → Ensures (f a) R) : Ensures (x >>= f) R := by
  cases x with
  | error e => exact .error e R
  | ok a => exact h a (hx.holds a rfl)

/-- A sequence that does not fault is made of two programs that do not. -/
theorem ok_of_bind {b : β} (h : x >>= f = .ok b) : ∃ a, x = .ok a ∧ f a = .ok b := by
  cases x with
  | error e => cases h
  | ok a => exact ⟨a, rfl, h⟩

/-- A choice. -/
theorem ite {c : Prop} [Decidable c] {y : Except ε α} (hx : c → Ensures x P)
    (hy : ¬ c → Ensures y P) : Ensures (if c then x else y) P := by
  split
  · exact hx ‹c›
  · exact hy ‹¬ c›

end Ensures

/-- The program faults. -/
def Faults {ε α : Type} (x : Except ε α) : Prop := ∃ e, x = .error e

namespace Faults

variable {ε α β : Type} {x : Except ε α} {f : α → Except ε β} {P : α → Prop}

theorem not_yields (h : Faults x) : ¬ Yields x P := by
  obtain ⟨e, rfl⟩ := h
  rintro ⟨a, hok, -⟩
  cases hok

/-- What comes behind a fault is not reached. -/
theorem bind (h : Faults x) (f : α → Except ε β) : Faults (x >>= f) := by
  obtain ⟨e, rfl⟩ := h
  exact ⟨e, rfl⟩

/-- A fault behind a program that yields a value. -/
theorem of_yields (hx : Yields x P) (h : ∀ a, P a → Faults (f a)) : Faults (x >>= f) := by
  obtain ⟨a, rfl, ha⟩ := hx
  exact h a ha

end Faults
