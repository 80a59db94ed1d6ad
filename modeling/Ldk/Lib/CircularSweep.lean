import Mathlib

/-!
# Sweeps around a list that grows

A sweep begins at an element of a list and goes from each to the next, from the last one to the
first, until it is back where it began. Elements may be put in front of the list meanwhile.

- `Ahead`: what a sweep still comes to.
- `Ahead.next`: a step leaves the element behind and nothing else.
- `Ahead.last`: before the step back to the beginning nothing else is ahead.
- `Ahead.cons`: what is put in front takes nothing away.
-/

universe u

namespace CircularSweep

variable {α : Type u} [DecidableEq α]

/-- The element after one, which is the first after the last. -/
def next (xs : List α) (a : α) : α :=
  match xs[xs.idxOf a + 1]? with
  | some b => b
  | none => xs.headD a

/-- A sweep from `initial` that is at `a` has `b` before it; the element it is at counts. -/
def Ahead (xs : List α) (initial a b : α) : Prop :=
  b ∈ xs ∧
    if xs.idxOf initial ≤ xs.idxOf a then
      xs.idxOf a ≤ xs.idxOf b ∨ xs.idxOf b < xs.idxOf initial
    else xs.idxOf a ≤ xs.idxOf b ∧ xs.idxOf b < xs.idxOf initial

variable {xs : List α} {initial a b x : α}

theorem next_mem (ha : a ∈ xs) : next xs a ∈ xs := by
  unfold next
  split
  · next b hb => exact List.mem_of_getElem? hb
  · cases xs with
    | nil => cases ha
    | cons y ys => exact List.mem_cons_self

/-- The place of the next element. -/
theorem idxOf_next (hnodup : xs.Nodup) (ha : a ∈ xs) :
    xs.idxOf (next xs a) = if xs.idxOf a + 1 < xs.length then xs.idxOf a + 1 else 0 := by
  unfold next
  split_ifs with hlast
  · rw [List.getElem?_eq_getElem hlast]
    exact hnodup.idxOf_getElem _ hlast
  · rw [List.getElem?_eq_none (Nat.le_of_not_lt hlast)]
    cases xs with
    | nil => cases ha
    | cons y ys => exact List.idxOf_cons_self

/-- At the beginning everything is ahead. -/
theorem ahead_start (h : b ∈ xs) : Ahead xs a a b := by
  refine ⟨h, ?_⟩
  rw [if_pos (Nat.le_refl _)]
  omega

namespace Ahead

theorem next (hnodup : xs.Nodup) (ha : a ∈ xs) (hinitial : initial ∈ xs)
    (hne : next xs a ≠ initial) (h : Ahead xs initial a b) (hb : b ≠ a) :
    Ahead xs initial (next xs a) b := by
  obtain ⟨hmem, hahead⟩ := h
  have hplace := idxOf_next hnodup ha
  have hne' : xs.idxOf (CircularSweep.next xs a) ≠ xs.idxOf initial :=
    fun heq => hne ((List.idxOf_inj (next_mem ha)).mp heq)
  have hb' : xs.idxOf b ≠ xs.idxOf a := fun heq => hb ((List.idxOf_inj hmem).mp heq)
  have hlength := List.idxOf_lt_length_of_mem ha
  have hbound := List.idxOf_lt_length_of_mem hmem
  have hinside := List.idxOf_lt_length_of_mem hinitial
  refine ⟨hmem, ?_⟩
  rw [hplace] at hne' ⊢
  split_ifs at hahead hne' ⊢ <;> omega

theorem last (hnodup : xs.Nodup) (ha : a ∈ xs)
    (heq : CircularSweep.next xs a = initial) (h : Ahead xs initial a b) : b = a := by
  obtain ⟨hmem, hahead⟩ := h
  have hplace := idxOf_next hnodup ha
  rw [heq] at hplace
  have hlength := List.idxOf_lt_length_of_mem ha
  have hbound := List.idxOf_lt_length_of_mem hmem
  apply (List.idxOf_inj hmem).mp
  split_ifs at hahead hplace <;> omega

theorem cons (hx : x ∉ xs) (ha : a ∈ xs) (hinitial : initial ∈ xs) (h : Ahead xs initial a b) :
    Ahead (x :: xs) initial a b := by
  have hplace : ∀ y ∈ xs, (x :: xs).idxOf y = xs.idxOf y + 1 := by
    intro y hy
    exact List.idxOf_cons_ne _ (ne_of_mem_of_not_mem hy hx).symm
  obtain ⟨hmem, hahead⟩ := h
  refine ⟨List.mem_cons_of_mem x hmem, ?_⟩
  rw [hplace a ha, hplace b hmem, hplace initial hinitial]
  split_ifs at hahead ⊢ <;> omega

end Ahead

end CircularSweep
