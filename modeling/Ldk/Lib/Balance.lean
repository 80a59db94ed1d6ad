import Mathlib

/-!
# What is taken and given back

A log of events: something is taken, something is given back, or something else happens.

- `run`: what is held after a log. Nothing can be given back that is not held.
- `Balanced`: a log leaves what was held before it, whatever that was.
- `balanced_bracket`: what is taken in front of a balanced log and given back behind it, in any
  order, is balanced again.
-/

namespace Balance

/-- An event: a resource is taken or given back, or there is something to note. -/
inductive Event (ρ ω : Type) where
  | take (r : ρ)
  | drop (r : ρ)
  | note (w : ω)
  deriving DecidableEq, Repr

/-- The notes of a log are replaced. -/
def Event.mapNote {ρ ω ω' : Type} (f : ω → ω') : Event ρ ω → Event ρ ω'
  | .take r => .take r
  | .drop r => .drop r
  | .note w => .note (f w)

variable {ρ ω : Type} [DecidableEq ρ]

/-- What is held after a log. -/
def run : Multiset ρ → List (Event ρ ω) → Option (Multiset ρ)
  | held, [] => some held
  | held, .take r :: log => run (r ::ₘ held) log
  | held, .drop r :: log => if r ∈ held then run (held.erase r) log else none
  | held, .note _ :: log => run held log

/-- What is taken is given back, once and not before. -/
def Balanced (log : List (Event ρ ω)) : Prop := ∀ held, run held log = some held

variable {held : Multiset ρ} {log log' : List (Event ρ ω)}

theorem run_append (held : Multiset ρ) (log log' : List (Event ρ ω)) :
    run held (log ++ log') = (run held log).bind (run · log') := by
  induction log generalizing held with
  | nil => rfl
  | cons event log ih =>
    rw [List.cons_append]
    cases event with
    | take r => exact ih _
    | drop r =>
      rw [run, run]
      split
      · exact ih _
      · rfl
    | note w => exact ih _

theorem run_takes (held : Multiset ρ) (rs : List ρ) :
    run held (rs.map (Event.take (ω := ω))) = some ((rs : Multiset ρ) + held) := by
  induction rs generalizing held with
  | nil => simp [run]
  | cons r rs ih =>
    rw [List.map_cons, run, ih, Multiset.add_cons, ← Multiset.cons_add, Multiset.cons_coe]

theorem run_drops (held : Multiset ρ) (rs : List ρ) :
    run ((rs : Multiset ρ) + held) (rs.map (Event.drop (ω := ω))) = some held := by
  induction rs with
  | nil => simp [run]
  | cons r rs ih =>
    rw [List.map_cons, run, if_pos (by simp), ← Multiset.cons_coe, Multiset.cons_add,
      Multiset.erase_cons_head, ih]

theorem Balanced.nil : Balanced ([] : List (Event ρ ω)) := fun _ => rfl

theorem Balanced.append (h : Balanced log) (h' : Balanced log') : Balanced (log ++ log') := by
  intro held
  rw [run_append, h held, Option.bind_some, h' held]

/-- Notes take nothing. -/
theorem Balanced.notes (ws : List ω) : Balanced (ws.map (Event.note (ρ := ρ))) := by
  intro held
  induction ws with
  | nil => rfl
  | cons w ws ih => exact ih

/-- What a log has taken is given back behind another, in any order. -/
theorem Balanced.around {taken : List (Event ρ ω)} {rs rs' : List ρ}
    (htaken : ∀ held, run held taken = some ((rs : Multiset ρ) + held)) (hperm : rs.Perm rs')
    (h : Balanced log) : Balanced (taken ++ (log ++ rs'.map Event.drop)) := by
  intro held
  have hsame : (rs : Multiset ρ) = rs' := Multiset.coe_eq_coe.2 hperm
  rw [run_append, htaken, Option.bind_some, run_append, h, Option.bind_some, hsame, run_drops]

/-- The same when they are taken one after another. -/
theorem Balanced.bracket {rs rs' : List ρ} (hperm : rs.Perm rs') (h : Balanced log) :
    Balanced (rs.map Event.take ++ (log ++ rs'.map Event.drop)) :=
  h.around (fun held => run_takes held rs) hperm

end Balance
