import Mathlib
import Ldk.Lib.TransitionSystem

/-!
# Counted drain gates

A drain gate is the pattern in which participants enter and leave a region, a counter holds
how many are in it, and a notification event is cleared by an arrival and set by the leaver
that brings the counter to zero. Someone waits on the event for the region to be empty.

The counter and the event are updated by separate atomic steps. Each participant is therefore
in one of four phases:

- `out`: not counted;
- `raised`: counted, and about to clear the event;
- `inside`: counted, and past the clearing;
- `lowered`: no longer counted, and about to set the event.

The only step that can break the gate is a late set: a leaver that counted down to zero
sets the event after a new participant has come inside. `PromptSet` excludes it. Under
`PromptSet` a signalled event means an empty region (`signalled_nobody_inside`), and a late
set produces a signalled event over an occupied region at once (`late_set_breaks`).
-/

universe u v

/-! ## Occupancy of a phase map -/

namespace Occupancy

variable {T : Type u} {P : Type v} [DecidableEq T]

/-- How many participants are in a phase satisfying `inRegion`. -/
noncomputable def occupancy (inRegion : P → Prop) (phase : T → P) : ℕ∞ :=
  {t | inRegion (phase t)}.encard

theorem occupancy_enter {inRegion : P → Prop} {phase : T → P} {t : T} {p : P}
    (hout : ¬ inRegion (phase t)) (hin : inRegion p) :
    occupancy inRegion (Function.update phase t p) = occupancy inRegion phase + 1 := by
  have hset : {u | inRegion (Function.update phase t p u)} =
      insert t {u | inRegion (phase u)} := by
    ext u
    by_cases hu : u = t
    · subst hu; simp [hin]
    · simp [hu]
  rw [occupancy, hset, Set.encard_insert_of_notMem (by simpa using hout), occupancy]

theorem occupancy_same {inRegion : P → Prop} {phase : T → P} {t : T} {p : P}
    (hsame : inRegion (phase t) ↔ inRegion p) :
    occupancy inRegion (Function.update phase t p) = occupancy inRegion phase := by
  have hset : {u | inRegion (Function.update phase t p u)} = {u | inRegion (phase u)} := by
    ext u
    by_cases hu : u = t
    · subst hu; simp [hsame]
    · simp [Function.update_of_ne hu]
  rw [occupancy, hset, occupancy]

theorem occupancy_leave {inRegion : P → Prop} {phase : T → P} {t : T} {p : P}
    (hin : inRegion (phase t)) (hout : ¬ inRegion p) :
    occupancy inRegion (Function.update phase t p) + 1 = occupancy inRegion phase := by
  have hback : occupancy inRegion (Function.update (Function.update phase t p) t (phase t)) =
      occupancy inRegion (Function.update phase t p) + 1 :=
    occupancy_enter (by simpa using hout) hin
  rw [Function.update_idem, Function.update_eq_self] at hback
  exact hback.symm

omit [DecidableEq T] in
theorem occupancy_eq_zero {inRegion : P → Prop} {phase : T → P} :
    occupancy inRegion phase = 0 ↔ ∀ t, ¬ inRegion (phase t) := by
  simp [occupancy, Set.encard_eq_zero, Set.eq_empty_iff_forall_notMem]

/-- Counting down from a successor. -/
theorem cast_pred {n : Nat} {x : ℕ∞} (h : (n : ℕ∞) = x + 1) : ((n - 1 : Nat) : ℕ∞) = x := by
  have hpos : n ≠ 0 := by
    rintro rfl
    exact absurd (add_eq_zero.mp h.symm).2 one_ne_zero
  obtain ⟨m, rfl⟩ := Nat.exists_eq_succ_of_ne_zero hpos
  exact ENat.add_left_injective_of_ne_top ENat.one_ne_top (by simpa using h)

end Occupancy

namespace DrainGate

open TransitionSystem Occupancy

/-! ## The gate -/

/-- Where a participant is in the gate's protocol. -/
inductive Phase where
  | out
  | raised
  | inside
  | lowered
  deriving DecidableEq, Repr

/-- Counted participants. -/
def Phase.counted : Phase → Prop
  | .raised | .inside => True
  | .out | .lowered => False

@[simp] theorem counted_out : ¬ Phase.out.counted := fun h => h
@[simp] theorem counted_raised : Phase.raised.counted := trivial
@[simp] theorem counted_inside : Phase.inside.counted := trivial
@[simp] theorem counted_lowered : ¬ Phase.lowered.counted := fun h => h

/-- The phases of the participants, the counter and the event. -/
@[ext] structure Gate (T : Type u) where
  phase : T → Phase
  count : Nat
  signalled : Bool

/-- The atomic steps of the participants. -/
inductive Action (T : Type u) where
  /-- Count up, with the event still to be cleared. -/
  | enter (t : T)
  /-- Count up without clearing: the counter is positive and no arrival is under way. -/
  | join (t : T)
  /-- Clear the event. -/
  | clear (t : T)
  /-- Count down; the last one has the event still to set. -/
  | lower (t : T)
  /-- Set the event. -/
  | set (t : T)

variable {T : Type u} [DecidableEq T]

def Enabled (g : Gate T) : Action T → Prop
  | .enter t => g.phase t = .out
  | .join t => g.phase t = .out ∧ g.count ≠ 0 ∧ ∀ u, g.phase u ≠ .raised
  | .clear t => g.phase t = .raised
  | .lower t => g.phase t = .inside
  | .set t => g.phase t = .lowered

def next (g : Gate T) : Action T → Gate T
  | .enter t =>
    { g with phase := Function.update g.phase t .raised, count := g.count + 1 }
  | .join t =>
    { g with phase := Function.update g.phase t .inside, count := g.count + 1 }
  | .clear t =>
    { g with phase := Function.update g.phase t .inside, signalled := false }
  | .lower t =>
    { g with
      phase := Function.update g.phase t (if g.count - 1 = 0 then .lowered else .out)
      count := g.count - 1 }
  | .set t =>
    { g with phase := Function.update g.phase t .out, signalled := true }

/-- The gate as a transition system; it starts empty and signalled. -/
def gateSystem (T : Type u) [DecidableEq T] : System (Gate T) (Action T) where
  init g := (∀ t, g.phase t = .out) ∧ g.count = 0 ∧ g.signalled = true
  enabled := Enabled
  next := next

/-- No participant is counted and past its clearing. -/
def NobodyInside (g : Gate T) : Prop := ∀ t, g.phase t ≠ .inside

/-- The event is set only while nobody is inside. -/
def PromptSet (g : Gate T) : Action T → Prop
  | .set _ => NobodyInside g
  | _ => True

/-! ## Invariants -/

/-- The counter is the number of counted participants. -/
def CountExact (g : Gate T) : Prop := (g.count : ℕ∞) = occupancy Phase.counted g.phase

omit [DecidableEq T] in
theorem CountExact.eq_zero_iff {g : Gate T} (h : CountExact g) :
    g.count = 0 ↔ ∀ t, ¬ (g.phase t).counted := by
  rw [← occupancy_eq_zero, ← h]
  exact Nat.cast_eq_zero.symm

/-- Counting stays exact whatever the order of the steps. -/
theorem countExact_of_reachable {guard : Gate T → Action T → Prop} :
    ∀ g, (gateSystem T).Reachable guard g → CountExact g := by
  refine System.Reachable.invariant ?_ ?_
  · rintro g ⟨hout, hcount, -⟩
    have hzero : occupancy Phase.counted g.phase = 0 :=
      occupancy_eq_zero.mpr (fun t => by simp [hout t])
    rw [CountExact, hzero, hcount]; rfl
  · intro g a hexact hen _
    unfold CountExact at *
    cases a with
    | enter t =>
      have hen : g.phase t = .out := hen
      simp only [gateSystem, next]
      rw [occupancy_enter (by simp [hen]) counted_raised, ← hexact]; rfl
    | join t =>
      have hen : g.phase t = .out := hen.1
      simp only [gateSystem, next]
      rw [occupancy_enter (by simp [hen]) counted_inside, ← hexact]; rfl
    | clear t =>
      have hen : g.phase t = .raised := hen
      simp only [gateSystem, next]
      rw [occupancy_same (by simp [hen]), ← hexact]
    | lower t =>
      have hen : g.phase t = .inside := hen
      simp only [gateSystem, next]
      have hleave : occupancy Phase.counted (Function.update g.phase t
          (if g.count - 1 = 0 then .lowered else .out)) + 1 = occupancy Phase.counted g.phase :=
        occupancy_leave (by simp [hen]) (by split <;> simp)
      exact cast_pred (hexact.trans hleave.symm)
    | set t =>
      have hen : g.phase t = .lowered := hen
      simp only [gateSystem, next]
      rw [occupancy_same (by simp [hen]), ← hexact]

/-- A signalled event means that nobody is inside. -/
def SignalledEmpty (g : Gate T) : Prop := g.signalled = true → NobodyInside g

/-- Without late sets, a signalled event means that nobody is inside. -/
theorem signalled_nobody_inside :
    ∀ g, (gateSystem T).Reachable PromptSet g → SignalledEmpty g := by
  refine System.Reachable.invariantUnder (J := CountExact) countExact_of_reachable ?_ ?_
  · rintro g ⟨hout, -, -⟩ _ t
    simp [hout t]
  · intro g a hexact hinv hen hprompt
    cases a with
    | enter t =>
      intro hsig u
      by_cases hu : u = t
      · subst hu; simp [gateSystem, next]
      · simpa [gateSystem, next, Function.update_of_ne hu] using hinv hsig u
    | join t =>
      -- a positive count with no arrival under way puts somebody inside already
      intro hsig
      obtain ⟨-, hpos, hnoraised⟩ := hen
      refine absurd ((CountExact.eq_zero_iff hexact).mpr ?_) hpos
      intro u hcounted
      have hin := hinv hsig u
      have hraised := hnoraised u
      cases hphase : g.phase u <;> simp_all
    | clear t =>
      intro hsig
      simp [gateSystem, next] at hsig
    | lower t =>
      intro hsig u
      by_cases hu : u = t
      · subst hu
        simp only [gateSystem, next, Function.update_self]
        split <;> simp
      · simpa [gateSystem, next, Function.update_of_ne hu] using hinv hsig u
    | set t =>
      intro _ u
      by_cases hu : u = t
      · subst hu; simp [gateSystem, next]
      · simpa [gateSystem, next, Function.update_of_ne hu] using hprompt u

omit [DecidableEq T] in
/-- With the event signalled and nobody clearing it, the counter is zero. -/
theorem SignalledEmpty.count_eq_zero {g : Gate T} (hexact : CountExact g)
    (hinv : SignalledEmpty g) (hsig : g.signalled = true)
    (hnoraised : ∀ t, g.phase t ≠ .raised) : g.count = 0 := by
  refine (CountExact.eq_zero_iff hexact).mpr (fun t hcounted => ?_)
  have hin := hinv hsig t
  have hraised := hnoraised t
  cases hphase : g.phase t <;> simp_all

/-- The event is never left cleared with nobody to set it: it is signalled, or somebody is
counted, or a leaver is about to set it. -/
theorem signalled_or_pending :
    ∀ g, (gateSystem T).Reachable Always g →
      g.signalled = true ∨ ∃ t, g.phase t ≠ .out := by
  refine System.Reachable.invariantUnder (J := CountExact) countExact_of_reachable ?_ ?_
  · rintro g ⟨-, -, hsig⟩
    exact Or.inl hsig
  · intro g a hexact hinv hen _
    cases a with
    | enter t => exact Or.inr ⟨t, by simp [gateSystem, next]⟩
    | join t => exact Or.inr ⟨t, by simp [gateSystem, next]⟩
    | clear t => exact Or.inr ⟨t, by simp [gateSystem, next]⟩
    | set t => exact Or.inl rfl
    | lower t =>
      by_cases hlast : g.count - 1 = 0
      · exact Or.inr ⟨t, by simp [gateSystem, next, hlast]⟩
      · -- another participant is still counted
        right
        by_contra hnone
        push Not at hnone
        have hothers : ∀ u, u ≠ t → g.phase u = .out := fun u hu => by
          simpa [gateSystem, next, Function.update_of_ne hu] using hnone u
        have hleave : occupancy Phase.counted (Function.update g.phase t .out) + 1 =
            occupancy Phase.counted g.phase :=
          occupancy_leave (by rw [show g.phase t = .inside from hen]; exact counted_inside)
            counted_out
        have hempty : occupancy Phase.counted (Function.update g.phase t .out) = 0 := by
          refine occupancy_eq_zero.mpr (fun u => ?_)
          by_cases hu : u = t
          · subst hu; simp
          · simp [Function.update_of_ne hu, hothers u hu]
        rw [hempty, zero_add, ← hexact] at hleave
        have hone : g.count = 1 := by exact_mod_cast hleave.symm
        exact hlast (by omega)

end DrainGate
