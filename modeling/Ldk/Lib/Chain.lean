import Mathlib

/-!
# Chains

A small library for following a partial step until it stops.

- `Chain.after`: where the chain is after so many steps.
- `Chain.Ends`: the chain stops, after so many steps.
- `Chain.Labelled`: finitely many labels decide where a step leads.
- `Labelled.ends_iff`: a chain ends, after no more steps than there are labels, exactly when it does
  not come to a label twice.
-/

namespace Chain

universe u v

variable {α : Type u} {β : Type v}

section Steps

variable (step : α → Option α)

/-- Where the chain is after so many steps, if it is that long. -/
def after : Nat → α → Option α
  | 0, a => some a
  | n + 1, a => (step a).bind (after n)

/-- The chain stops at `b` after `n` steps. -/
inductive Ends : Nat → α → α → Prop where
  | here {a : α} : step a = none → Ends 0 a a
  | step {n : Nat} {a b c : α} : step a = some b → Ends n b c → Ends (n + 1) a c

end Steps

variable {step : α → Option α} {a b c : α} {n m : Nat}

theorem after_succ_of_step (h : step a = some b) : after step (n + 1) a = after step n b := by
  rw [after, h]
  rfl

/-- A chain ends within so many steps, or is longer. -/
theorem ends_or_after (step : α → Option α) (n : Nat) (a : α) :
    (∃ k ≤ n, ∃ b, Ends step k a b) ∨ ∃ b, after step (n + 1) a = some b := by
  induction n generalizing a with
  | zero =>
    cases h : step a with
    | none => exact .inl ⟨0, Nat.le_refl 0, a, .here h⟩
    | some b => exact .inr ⟨b, after_succ_of_step h⟩
  | succ n ih =>
    cases h : step a with
    | none => exact .inl ⟨0, Nat.zero_le _, a, .here h⟩
    | some b =>
      rcases ih b with ⟨k, hk, c, hc⟩ | ⟨c, hc⟩
      · exact .inl ⟨k + 1, Nat.succ_le_succ hk, c, .step h hc⟩
      · exact .inr ⟨c, (after_succ_of_step h).trans hc⟩

/-- A longer chain passes all earlier places, and goes on from there. -/
theorem exists_after_of_le (h : after step m a = some c) (hle : n ≤ m) :
    ∃ b, after step n a = some b ∧ after step (m - n) b = some c := by
  induction n generalizing m a with
  | zero => exact ⟨a, rfl, h⟩
  | succ n ih =>
    obtain ⟨m, rfl⟩ : ∃ m', m = m' + 1 := ⟨m - 1, by omega⟩
    obtain ⟨d, hstep, hd⟩ := Option.bind_eq_some_iff.1 h
    obtain ⟨b, hb, hc⟩ := ih hd (Nat.le_of_succ_le_succ hle)
    refine ⟨b, (after_succ_of_step hstep).trans hb, ?_⟩
    rw [Nat.add_sub_add_right]
    exact hc

namespace Ends

/-- The rest of a chain that ends. -/
theorem of_after (h : Ends step n a c) (hb : after step m a = some b) :
    m ≤ n ∧ Ends step (n - m) b c := by
  induction m generalizing n a with
  | zero =>
    obtain rfl := Option.some.inj hb
    exact ⟨Nat.zero_le n, h⟩
  | succ m ih =>
    obtain ⟨d, hstep, hd⟩ := Option.bind_eq_some_iff.1 hb
    cases h with
    | here hnone =>
      rw [hnone] at hstep
      cases hstep
    | step hstep' hrest =>
      rw [hstep'] at hstep
      obtain rfl := Option.some.inj hstep
      obtain ⟨hle, hends⟩ := ih hrest hd
      rw [Nat.add_sub_add_right]
      exact ⟨Nat.succ_le_succ hle, hends⟩

/-- A chain has one length. -/
theorem length_unique {b' : α} (h : Ends step n a b) (h' : Ends step m a b') : n = m := by
  induction h generalizing m with
  | here hnone =>
    cases h' with
    | here => rfl
    | step hstep => rw [hnone] at hstep; cases hstep
  | step hstep _ ih =>
    cases h' with
    | here hnone => rw [hnone] at hstep; cases hstep
    | step hstep' hrest =>
      rw [hstep] at hstep'
      obtain rfl := Option.some.inj hstep'
      rw [ih hrest]

/-- Two places from which the step leads to the same place are equally far from the end. -/
theorem length_congr {b' c' : α} (h : Ends step n b c) (h' : Ends step m b' c')
    (heq : step b = step b') : n = m := by
  cases h with
  | here hnone =>
    cases h' with
    | here => rfl
    | step hstep => rw [← heq, hnone] at hstep; cases hstep
  | step hstep hrest =>
    cases h' with
    | here hnone => rw [heq, hnone] at hstep; cases hstep
    | step hstep' hrest' =>
      rw [heq, hstep'] at hstep
      obtain rfl := Option.some.inj hstep
      rw [hrest.length_unique hrest']

end Ends

/-! ## Labels -/

/-- The chain comes to a label twice. -/
def Repeats (step : α → Option α) (label : α → Option β) (a : α) : Prop :=
  ∃ i j b c l, i < j ∧ after step i a = some b ∧ after step j a = some c ∧
    label b = some l ∧ label c = some l

/-- Places from which there is a step have labels, and a label tells where the step leads. -/
structure Labelled (step : α → Option α) (label : α → Option β) (labels : Finset β) : Prop where
  exists_label : ∀ a b, step a = some b → ∃ l ∈ labels, label a = some l
  step_congr : ∀ a b l, label a = some l → label b = some l → step a = step b

namespace Labelled

variable {label : α → Option β} {labels : Finset β}

/-- A chain that comes to a label twice does not end. -/
theorem not_ends_of_repeats (h : Labelled step label labels) (hrepeats : Repeats step label a) :
    ¬ Ends step n a b := by
  intro hends
  obtain ⟨i, j, c, d, l, hlt, hc, hd, hlc, hld⟩ := hrepeats
  obtain ⟨hi, hendsc⟩ := hends.of_after hc
  obtain ⟨hj, hendsd⟩ := hends.of_after hd
  have hsame := hendsc.length_congr hendsd (h.step_congr c d l hlc hld)
  omega

theorem after_of_repeats (h : Labelled step label labels) (hrepeats : Repeats step label a)
    (n : Nat) : ∃ b, after step n a = some b := by
  cases n with
  | zero => exact ⟨a, rfl⟩
  | succ n =>
    rcases ends_or_after step n a with ⟨k, -, b, hends⟩ | hafter
    · exact absurd hends (h.not_ends_of_repeats hrepeats)
    · exact hafter

/-- A chain that is longer than there are labels comes to one of them twice. -/
theorem repeats_of_after (h : Labelled step label labels)
    (hafter : after step (labels.card + 1) a = some b) : Repeats step label a := by
  have hlabel : ∀ i, ∃ l, i ∈ Finset.range (labels.card + 1) →
      l ∈ labels ∧ ∃ c, after step i a = some c ∧ label c = some l := by
    intro i
    by_cases hi : i ∈ Finset.range (labels.card + 1)
    · have hlt := Finset.mem_range.1 hi
      obtain ⟨c, hc, hrest⟩ := exists_after_of_le hafter (Nat.le_of_lt hlt)
      obtain ⟨m, hm⟩ : ∃ m, labels.card + 1 - i = m + 1 := ⟨labels.card - i, by omega⟩
      rw [hm] at hrest
      obtain ⟨d, hstep, -⟩ := Option.bind_eq_some_iff.1 hrest
      obtain ⟨l, hmem, hl⟩ := h.exists_label c d hstep
      exact ⟨l, fun _ => ⟨hmem, c, hc, hl⟩⟩
    · obtain ⟨d, hstep, -⟩ := Option.bind_eq_some_iff.1 hafter
      obtain ⟨l, -, -⟩ := h.exists_label a d hstep
      exact ⟨l, fun hmem => absurd hmem hi⟩
  choose f hf using hlabel
  have hcard : labels.card < (Finset.range (labels.card + 1)).card := by
    rw [Finset.card_range]
    exact Nat.lt_succ_self _
  obtain ⟨i, hi, j, hj, hne, heq⟩ :=
    Finset.exists_ne_map_eq_of_card_lt_of_maps_to hcard fun i hi => (hf i hi).1
  obtain ⟨-, c, hc, hlc⟩ := hf i hi
  obtain ⟨-, d, hd, hld⟩ := hf j hj
  rcases Nat.lt_or_gt_of_ne hne with hlt | hlt
  · exact ⟨i, j, c, d, f i, hlt, hc, hd, hlc, heq ▸ hld⟩
  · exact ⟨j, i, d, c, f i, hlt, hd, hc, heq ▸ hld, hlc⟩

/-- A chain ends, after no more steps than there are labels, exactly when it does not come to a
label twice. -/
theorem ends_iff (h : Labelled step label labels) :
    (∃ n ≤ labels.card, ∃ b, Ends step n a b) ↔ ¬ Repeats step label a := by
  constructor
  · rintro ⟨n, -, b, hends⟩ hrepeats
    exact h.not_ends_of_repeats hrepeats hends
  · intro hno
    rcases ends_or_after step labels.card a with hends | ⟨b, hafter⟩
    · exact hends
    · exact absurd (h.repeats_of_after hafter) hno

end Labelled

end Chain
