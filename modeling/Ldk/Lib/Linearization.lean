import Mathlib

/-!
# Operations that take effect one after the other

A sequential object and a log of its operations. `Explains` says that a state which several parties
have changed is what the object is after the log, and that each party whose operation has taken
effect has the result that the object gives at its place in the log.

- `Object.after`, `Object.resultAt`: the object after a log, and the result at a place.
- `Explains.commit`: an operation takes effect, as the last one of the log.
- `Explains.place_lt`: the places that are taken are before the end of the log.
- `Extends`: how log and effects go on; `Explains.before` is the order of real time that follows.
-/

namespace Linearization

universe u v w x

variable {σ : Type u} {ω : Type v} {ρ : Type w} {κ : Type x}

/-- An object whose operations are taken one after the other. -/
structure Object (σ : Type u) (ω : Type v) (ρ : Type w) where
  init : σ
  apply : σ → ω → ρ × σ

namespace Object

variable (O : Object σ ω ρ)

/-- The object after the operations of a log. -/
def after (log : List ω) : σ := log.foldl (fun s operation => (O.apply s operation).2) O.init

/-- The result of the operation at a place in the log. -/
def resultAt (log : List ω) (place : Nat) : Option ρ :=
  log[place]?.map fun operation => (O.apply (O.after (log.take place)) operation).1

@[simp] theorem after_nil : O.after [] = O.init := rfl

@[simp] theorem after_concat (log : List ω) (operation : ω) :
    O.after (log ++ [operation]) = (O.apply (O.after log) operation).2 := by
  simp [after]

/-- The result of the last operation. -/
theorem resultAt_concat (log : List ω) (operation : ω) :
    O.resultAt (log ++ [operation]) log.length = some (O.apply (O.after log) operation).1 := by
  simp [resultAt]

/-- Later operations do not change a result. -/
theorem resultAt_append {log : List ω} (later : List ω) {place : Nat} (h : place < log.length) :
    O.resultAt (log ++ later) place = O.resultAt log place := by
  unfold resultAt
  rw [List.getElem?_append_left h, List.take_append_of_le_length (Nat.le_of_lt h)]

end Object

/-- An operation that has taken effect, with its result and its place in the log. -/
structure Effect (ω : Type v) (ρ : Type w) where
  operation : ω
  result : ρ
  place : Nat

/-- The state is what the log makes of the object, the places in the log belong to the parties whose
operations have taken effect, each to one, and each of these has the result at its place. -/
structure Explains (O : Object σ ω ρ) (log : List ω) (state : σ)
    (effects : κ → Option (Effect ω ρ)) : Prop where
  state_eq : state = O.after log
  operation : ∀ c e, effects c = some e → log[e.place]? = some e.operation
  result : ∀ c e, effects c = some e → O.resultAt log e.place = some e.result
  distinct : ∀ c c' e e', effects c = some e → effects c' = some e' → e.place = e'.place → c = c'
  every : ∀ place < log.length, ∃ c e, effects c = some e ∧ e.place = place

variable {O : Object σ ω ρ} {log : List ω} {state : σ} {effects : κ → Option (Effect ω ρ)}

namespace Explains

theorem nothing (heffects : ∀ c, effects c = none) : Explains O [] O.init effects where
  state_eq := rfl
  operation c e he := by rw [heffects c] at he; cases he
  result c e he := by rw [heffects c] at he; cases he
  distinct c _ e _ he := by rw [heffects c] at he; cases he
  every place h := absurd h (Nat.not_lt_zero place)

theorem place_lt (h : Explains O log state effects) {c : κ} {e : Effect ω ρ}
    (he : effects c = some e) : e.place < log.length := by
  have hsome := h.operation c e he
  by_contra hnot
  rw [List.getElem?_eq_none (Nat.le_of_not_lt hnot)] at hsome
  cases hsome

/-- An operation takes effect, as the last one of the log. -/
theorem commit [DecidableEq κ] (h : Explains O log state effects) {c : κ} (hc : effects c = none)
    (operation : ω) :
    Explains O (log ++ [operation]) (O.apply state operation).2
      (Function.update effects c
        (some ⟨operation, (O.apply state operation).1, log.length⟩)) := by
  have hself : Function.update effects c
      (some ⟨operation, (O.apply state operation).1, log.length⟩) c =
      some ⟨operation, (O.apply state operation).1, log.length⟩ := by simp
  have hother (c' : κ) (hne : c' ≠ c) : Function.update effects c
      (some ⟨operation, (O.apply state operation).1, log.length⟩) c' = effects c' :=
    Function.update_of_ne hne _ _
  refine ⟨?_, ?_, ?_, ?_, ?_⟩
  · rw [O.after_concat, ← h.state_eq]
  · intro c' e he
    by_cases hne : c' = c
    · rw [hne, hself, Option.some.injEq] at he
      subst he
      simp
    · rw [hother c' hne] at he
      rw [List.getElem?_append_left (h.place_lt he)]
      exact h.operation c' e he
  · intro c' e he
    by_cases hne : c' = c
    · rw [hne, hself, Option.some.injEq] at he
      subst he
      rw [O.resultAt_concat, ← h.state_eq]
    · rw [hother c' hne] at he
      rw [O.resultAt_append _ (h.place_lt he)]
      exact h.result c' e he
  · intro c' c'' e' e'' he' he'' hplace
    by_cases hne' : c' = c <;> by_cases hne'' : c'' = c
    · rw [hne', hne'']
    · rw [hne', hself, Option.some.injEq] at he'
      rw [hother c'' hne''] at he''
      subst he'
      exact absurd hplace.symm (Nat.ne_of_lt (h.place_lt he''))
    · rw [hne'', hself, Option.some.injEq] at he''
      rw [hother c' hne'] at he'
      subst he''
      exact absurd hplace (Nat.ne_of_lt (h.place_lt he'))
    · rw [hother c' hne'] at he'
      rw [hother c'' hne''] at he''
      exact h.distinct c' c'' e' e'' he' he'' hplace
  · intro place hplace
    rw [List.length_append, List.length_singleton] at hplace
    by_cases hlast : place = log.length
    · exact ⟨c, _, hself, hlast.symm⟩
    · obtain ⟨c', e, he, heq⟩ := h.every place (by omega)
      have hne : c' ≠ c := by
        rintro rfl
        rw [hc] at he
        cases he
      exact ⟨c', e, (hother c' hne).trans he, heq⟩

end Explains

/-! ## How it goes on -/

variable {log' log'' : List ω} {effects' effects'' : κ → Option (Effect ω ρ)}

/-- Operations have been added to the log, and the effects of parties that had none. -/
structure Extends (log : List ω) (effects : κ → Option (Effect ω ρ)) (log' : List ω)
    (effects' : κ → Option (Effect ω ρ)) : Prop where
  logged : log <+: log'
  kept : ∀ c e, effects c = some e → effects' c = some e
  added : ∀ c e, effects c = none → effects' c = some e → log.length ≤ e.place

namespace Extends

theorem refl : Extends log effects log effects where
  logged := List.prefix_refl log
  kept _ _ he := he
  added c e hnone he := by rw [hnone] at he; cases he

theorem trans (h : Extends log effects log' effects') (h' : Extends log' effects' log'' effects'') :
    Extends log effects log'' effects'' where
  logged := h.logged.trans h'.logged
  kept c e he := h'.kept c e (h.kept c e he)
  added c e hnone he := by
    cases hmiddle : effects' c with
    | none => exact h.logged.length_le.trans (h'.added c e hmiddle he)
    | some e' =>
      rw [h'.kept c e' hmiddle, Option.some.injEq] at he
      subst he
      exact h.added c e' hnone hmiddle

theorem commit [DecidableEq κ] {c : κ} (hc : effects c = none) (operation : ω) (result : ρ) :
    Extends log effects (log ++ [operation])
      (Function.update effects c (some ⟨operation, result, log.length⟩)) where
  logged := List.prefix_append _ _
  kept c' e he := by
    have hne : c' ≠ c := by
      rintro rfl
      rw [hc] at he
      cases he
    rw [Function.update_of_ne hne, he]
  added c' e hnone he := by
    by_cases hne : c' = c
    · rw [hne, Function.update_self, Option.some.injEq] at he
      subst he
      rfl
    · rw [Function.update_of_ne hne, hnone] at he
      cases he

end Extends

/-- What has taken effect comes before what takes effect later. -/
theorem Explains.before (h : Explains O log state effects)
    (hlater : Extends log effects log' effects') {c c' : κ} {e e' : Effect ω ρ}
    (he : effects c = some e) (hnone : effects c' = none) (he' : effects' c' = some e') :
    e.place < e'.place :=
  Nat.lt_of_lt_of_le (h.place_lt he) (hlater.added c' e' hnone he')

end Linearization
