import Mathlib

/-!
# Texts of bounded length

A text is made of pieces, one behind the other, in a room of fixed size; a piece may be missing.

- `outcome`: all of the text, the first piece that does not fit, or the first that is missing.
- `outcome_eq_missing_iff`, `outcome_eq_text_iff`: which pieces lead to which.
- `outcome_split`: a piece may be given in two parts.
-/

namespace BoundedText

variable {α : Type}

/-- What becomes of the pieces. -/
inductive Outcome (α : Type) where
  | missing
  | full
  | text (written : List α)

/-- The pieces behind what is written, in a room of which one element stays free. -/
def outcome (room : Nat) : List α → List (Option (List α)) → Outcome α
  | written, [] => .text written
  | _, none :: _ => .missing
  | written, some piece :: rest =>
    if written.length + piece.length < room then outcome room (written ++ piece) rest else .full

variable {room : Nat} {written piece : List α} {pieces rest : List (Option (List α))}

theorem outcome_fits (h : written.length + piece.length < room) :
    outcome room written (some piece :: rest) = outcome room (written ++ piece) rest := if_pos h

theorem outcome_full (h : ¬ written.length + piece.length < room) :
    outcome room written (some piece :: rest) = .full := if_neg h

/-- A piece in two parts. -/
theorem outcome_split (first second : List α) :
    outcome room written (some (first ++ second) :: rest) =
      outcome room written (some first :: some second :: rest) := by
  simp only [outcome, List.length_append, List.append_assoc]
  by_cases hfirst : written.length + first.length < room
  · rw [if_pos hfirst]
    simp only [Nat.add_assoc]
  · rw [if_neg hfirst, if_neg (by omega)]

/-- A piece is missing, and what is before it fits. -/
theorem outcome_eq_missing_iff (hwritten : written.length < room) :
    outcome room written pieces = .missing ↔
      ∃ (before : List (List α)) (after : List (Option (List α))),
      pieces = before.map some ++ none :: after ∧
        written.length + before.flatten.length < room := by
  induction pieces generalizing written with
  | nil => simp [outcome]
  | cons piece rest ih =>
    cases piece with
    | none =>
      refine iff_of_true rfl ⟨[], rest, rfl, ?_⟩
      rw [List.flatten_nil, List.length_nil]
      exact hwritten
    | some piece =>
      by_cases hfits : written.length + piece.length < room
      · rw [outcome_fits hfits, ih (by rw [List.length_append]; exact hfits)]
        constructor
        · rintro ⟨before, after, rfl, hlength⟩
          refine ⟨piece :: before, after, rfl, ?_⟩
          rw [List.flatten_cons, List.length_append]
          rw [List.length_append] at hlength
          omega
        · rintro ⟨before, after, heq, hlength⟩
          cases before with
          | nil => cases heq
          | cons first before =>
            rw [List.map_cons, List.cons_append, List.cons.injEq, Option.some.injEq] at heq
            obtain ⟨rfl, rfl⟩ := heq
            refine ⟨before, after, rfl, ?_⟩
            rw [List.flatten_cons, List.length_append] at hlength
            rw [List.length_append]
            omega
      · rw [outcome_full hfits]
        refine iff_of_false nofun ?_
        rintro ⟨before, after, heq, hlength⟩
        cases before with
        | nil => cases heq
        | cons first before =>
          rw [List.map_cons, List.cons_append, List.cons.injEq, Option.some.injEq] at heq
          obtain ⟨rfl, -⟩ := heq
          rw [List.flatten_cons, List.length_append] at hlength
          omega

/-- No piece is missing, and all of them fit. -/
theorem outcome_eq_text_iff (hwritten : written.length < room) {text : List α} :
    outcome room written pieces = .text text ↔
      ∃ texts : List (List α), pieces = texts.map some ∧
      text = written ++ texts.flatten ∧ text.length < room := by
  induction pieces generalizing written with
  | nil =>
    constructor
    · intro h
      obtain rfl := Outcome.text.inj h
      exact ⟨[], rfl, by simp, hwritten⟩
    · rintro ⟨texts, heq, rfl, -⟩
      obtain rfl := List.map_eq_nil_iff.mp heq.symm
      simp [outcome]
  | cons piece rest ih =>
    cases piece with
    | none =>
      refine iff_of_false nofun ?_
      rintro ⟨texts, heq, -⟩
      cases texts with
      | nil => cases heq
      | cons first texts => cases heq
    | some piece =>
      by_cases hfits : written.length + piece.length < room
      · rw [outcome_fits hfits, ih (by rw [List.length_append]; exact hfits)]
        constructor
        · rintro ⟨texts, rfl, rfl, hlength⟩
          refine ⟨piece :: texts, rfl, ?_, hlength⟩
          rw [List.flatten_cons, List.append_assoc]
        · rintro ⟨texts, heq, rfl, hlength⟩
          cases texts with
          | nil => cases heq
          | cons first texts =>
            rw [List.map_cons, List.cons.injEq, Option.some.injEq] at heq
            obtain ⟨rfl, rfl⟩ := heq
            refine ⟨texts, rfl, ?_, hlength⟩
            rw [List.flatten_cons, List.append_assoc]
      · rw [outcome_full hfits]
        refine iff_of_false nofun ?_
        rintro ⟨texts, heq, rfl, hlength⟩
        cases texts with
        | nil => cases heq
        | cons first texts =>
          rw [List.map_cons, List.cons.injEq, Option.some.injEq] at heq
          obtain ⟨rfl, -⟩ := heq
          rw [List.flatten_cons, List.length_append, List.length_append] at hlength
          omega

end BoundedText
