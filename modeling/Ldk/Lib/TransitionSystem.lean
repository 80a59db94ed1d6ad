import Mathlib

/-!
# Transition systems and guarded runs

A small library for state machines whose steps are named by actions.

- `System`: initial states, an enabling condition, and a next-state function.
- `System.Path`: finite runs in which every step meets a side condition.
- `System.Reachable`: states reached from an initial state along such a run.
- `Reachable.invariant`: the induction rule; `Reachable.invariantUnder` is the same rule
  with facts already known about reachable states.
- `Simulation`: a projection to another system, under which every step is either a step of
  that system or invisible.

The side condition of a run is called its guard. Safety statements about all runs use the
guard `Always`; a statement that only holds while some race is avoided names the race there.
-/

namespace TransitionSystem

universe u v w x

/-- A system of named steps over states `σ`. -/
structure System (σ : Type u) (α : Type v) where
  /-- Initial states. -/
  init : σ → Prop
  /-- Whether an action may be taken in a state. -/
  enabled : σ → α → Prop
  /-- The state after the action. -/
  next : σ → α → σ

/-- The guard of an unrestricted run. -/
def Always {σ : Type u} {α : Type v} : σ → α → Prop := fun _ _ => True

/-! The parties of a sample run are the numerals of `Fin 2` or of `Fin 3`. -/

instance neZero_two : NeZero 2 := ⟨by decide⟩

instance neZero_three : NeZero 3 := ⟨by decide⟩

namespace System

variable {σ : Type u} {α : Type v} (M : System σ α)

/-- One step whose action is enabled and meets the guard. -/
def Step (guard : σ → α → Prop) (s s' : σ) : Prop :=
  ∃ a, M.enabled s a ∧ guard s a ∧ s' = M.next s a

/-- Finite runs all of whose steps meet the guard. -/
def Path (guard : σ → α → Prop) : σ → σ → Prop :=
  Relation.ReflTransGen (M.Step guard)

/-- States reached from an initial state by a run whose steps all meet the guard. -/
def Reachable (guard : σ → α → Prop) (s : σ) : Prop :=
  ∃ s₀, M.init s₀ ∧ M.Path guard s₀ s

/-- Carry out a list of actions, enabled or not. -/
def exec (s : σ) (as : List α) : σ := as.foldl M.next s

/-- Every action of the list is enabled and meets the guard when its turn comes. -/
def Admits (guard : σ → α → Prop) (s : σ) : List α → Prop
  | [] => True
  | a :: as => (M.enabled s a ∧ guard s a) ∧ Admits guard (M.next s a) as

instance Admits.decidable (guard : σ → α → Prop)
    [∀ s a, Decidable (M.enabled s a)] [∀ s a, Decidable (guard s a)] :
    ∀ (s : σ) (as : List α), Decidable (M.Admits guard s as)
  | _, [] => inferInstanceAs (Decidable True)
  | s, a :: as =>
    haveI := Admits.decidable guard (M.next s a) as
    inferInstanceAs (Decidable ((M.enabled s a ∧ guard s a) ∧ M.Admits guard (M.next s a) as))

instance decidableAlways (s : σ) (a : α) : Decidable (Always s a) :=
  inferInstanceAs (Decidable True)

end System

variable {σ : Type u} {α : Type v} {M : System σ α} {guard guard' : σ → α → Prop}

/-! ## Runs -/

/-- An admitted list of actions is a run. -/
theorem System.path_exec (s : σ) (as : List α) (h : M.Admits guard s as) :
    M.Path guard s (M.exec s as) := by
  induction as generalizing s with
  | nil => exact Relation.ReflTransGen.refl
  | cons a as ih =>
    obtain ⟨⟨hen, hg⟩, hrest⟩ := h
    exact Relation.ReflTransGen.head ⟨a, hen, hg, rfl⟩ (ih _ hrest)

theorem System.reachable_exec (s : σ) (as : List α) (hinit : M.init s)
    (h : M.Admits guard s as) : M.Reachable guard (M.exec s as) :=
  ⟨s, hinit, System.path_exec s as h⟩

theorem System.path_single {s : σ} {a : α} (hen : M.enabled s a) (hg : guard s a) :
    M.Path guard s (M.next s a) :=
  Relation.ReflTransGen.single ⟨a, hen, hg, rfl⟩

/-- Begin a run with one more step. -/
theorem System.path_head {s s' : σ} {a : α} (hen : M.enabled s a) (hg : guard s a)
    (hrest : M.Path guard (M.next s a) s') : M.Path guard s s' :=
  Relation.ReflTransGen.head ⟨a, hen, hg, rfl⟩ hrest

namespace System.Reachable

/-- An initial state is reachable. -/
theorem start {s : σ} (h : M.init s) : M.Reachable guard s :=
  ⟨s, h, Relation.ReflTransGen.refl⟩

/-- One more guarded step stays reachable. -/
theorem step {s : σ} {a : α} (h : M.Reachable guard s) (hen : M.enabled s a)
    (hg : guard s a) : M.Reachable guard (M.next s a) := by
  obtain ⟨s₀, hinit, hpath⟩ := h
  exact ⟨s₀, hinit, Relation.ReflTransGen.tail hpath ⟨a, hen, hg, rfl⟩⟩

/-- A run from a reachable state stays reachable. -/
theorem path {s s' : σ} (h : M.Reachable guard s) (hpath : M.Path guard s s') :
    M.Reachable guard s' := by
  obtain ⟨s₀, hinit, hpath₀⟩ := h
  exact ⟨s₀, hinit, Relation.ReflTransGen.trans hpath₀ hpath⟩

/-- A weaker guard reaches at least as much. -/
theorem mono (hle : ∀ s a, guard s a → guard' s a) {s : σ}
    (h : M.Reachable guard s) : M.Reachable guard' s := by
  obtain ⟨s₀, hinit, hpath⟩ := h
  refine ⟨s₀, hinit, Relation.ReflTransGen.mono ?_ _ _ hpath⟩
  rintro s s' ⟨a, hen, hg, rfl⟩
  exact ⟨a, hen, hle s a hg, rfl⟩

/-- The induction rule, with facts `J` already known of every reachable state. -/
theorem invariantUnder {J I : σ → Prop} (hJ : ∀ s, M.Reachable guard s → J s)
    (hinit : ∀ s, M.init s → I s)
    (hstep : ∀ s a, J s → I s → M.enabled s a → guard s a → I (M.next s a)) :
    ∀ s, M.Reachable guard s → I s := by
  rintro s ⟨s₀, hs₀, hpath⟩
  induction hpath with
  | refl => exact hinit s₀ hs₀
  | tail hprev hlast ih =>
    obtain ⟨a, hen, hg, rfl⟩ := hlast
    exact hstep _ a (hJ _ ⟨s₀, hs₀, hprev⟩) ih hen hg

/-- The induction rule: what holds initially and is kept by every guarded step holds of
every reachable state. -/
theorem invariant {I : σ → Prop} (hinit : ∀ s, M.init s → I s)
    (hstep : ∀ s a, I s → M.enabled s a → guard s a → I (M.next s a)) :
    ∀ s, M.Reachable guard s → I s :=
  invariantUnder (J := fun _ => True) (fun _ _ => trivial) hinit
    (fun s a _ => hstep s a)

end System.Reachable

/-! ## Runs with their history -/

/-- The induction rule for what depends on the actions so far: each guarded step carries it from
the actions before the step to those with the step. -/
theorem System.history_invariant {I : List α → σ → Prop}
    (hstep : ∀ done s a, I done s → M.enabled s a → guard s a → I (done ++ [a]) (M.next s a))
    (s : σ) (as : List α) (h : M.Admits guard s as) (hinit : I [] s) : I as (M.exec s as) := by
  suffices hall : ∀ done, I done s → I (done ++ as) (M.exec s as) from hall [] hinit
  clear hinit
  induction as generalizing s with
  | nil =>
    intro done hdone
    rw [List.append_nil]
    exact hdone
  | cons a as ih =>
    intro done hdone
    obtain ⟨⟨hen, hg⟩, hrest⟩ := h
    have hnext := ih (M.next s a) hrest (done ++ [a]) (hstep done s a hdone hen hg)
    rw [List.append_assoc] at hnext
    exact hnext

/-! ## Runs that come to an end -/

/-- When every state of `P` short of the goal has a guarded step that keeps `P` and lowers the
rank, some run reaches the goal within `P`. -/
theorem System.exists_path_of_rank {P goal : σ → Prop} (rank : σ → Nat)
    (hstep : ∀ s, P s → ¬ goal s →
      ∃ a, M.enabled s a ∧ guard s a ∧ P (M.next s a) ∧ rank (M.next s a) < rank s)
    {s : σ} (h : P s) : ∃ s', M.Path guard s s' ∧ P s' ∧ goal s' := by
  induction hn : rank s using Nat.strongRecOn generalizing s with
  | _ n ih =>
    by_cases hgoal : goal s
    · exact ⟨s, Relation.ReflTransGen.refl, h, hgoal⟩
    · obtain ⟨a, hen, hg, hP, hlt⟩ := hstep s h hgoal
      obtain ⟨s', hpath, hP', hgoal'⟩ := ih _ (hn ▸ hlt) hP rfl
      exact ⟨s', System.path_head hen hg hpath, hP', hgoal'⟩

/-! ## Simulations -/

/-- A projection `abs` under which each guarded step of `M` is a guarded step of `N` or
changes nothing `N` can see. -/
structure Simulation {τ : Type w} {β : Type x} (M : System σ α) (guard : σ → α → Prop)
    (N : System τ β) (guardN : τ → β → Prop) where
  /-- The projection. -/
  abs : σ → τ
  init : ∀ s, M.init s → N.init (abs s)
  step : ∀ s a, M.Reachable guard s → M.enabled s a → guard s a →
    abs (M.next s a) = abs s ∨
      ∃ b, N.enabled (abs s) b ∧ guardN (abs s) b ∧ abs (M.next s a) = N.next (abs s) b

/-- A simulation carries reachable states to reachable states. -/
theorem Simulation.reachable {τ : Type w} {β : Type x} {N : System τ β}
    {guardN : τ → β → Prop} (S : Simulation M guard N guardN) :
    ∀ s, M.Reachable guard s → N.Reachable guardN (S.abs s) := by
  refine System.Reachable.invariantUnder (J := M.Reachable guard) (fun _ h => h)
    (fun s h => System.Reachable.start (S.init s h)) ?_
  intro s a hr ih hen hg
  rcases S.step s a hr hen hg with hsame | ⟨b, henb, hgb, heq⟩
  · rw [hsame]; exact ih
  · rw [heq]; exact ih.step henb hgb

end TransitionSystem
