import Mathlib

/-!
# The lexicographic order of texts

Lists over an ordered alphabet are compared by the order that `compare` has for lists. When the
characters are replaced, or a terminator is put behind them, the order may stay the same.

- `firstDifference`: the first two characters, at one place, that are not the same.
- `compare_map`: a replacement that keeps the order of these two keeps that of the texts.
- `compare_terminated`: a terminator that is below all characters changes nothing.
- `IsTotalPreorder`: what a comparison with three results is expected to be.
-/

namespace Lexicographic

variable {α β : Type}

/-! ## Total preorders -/

/-- The three results of a comparison, as a relation between the compared and the result. -/
structure IsTotalPreorder (cmp : α → α → Ordering → Prop) : Prop where
  total : ∀ a b, ∃ o, cmp a b o
  functional : ∀ a b o o', cmp a b o → cmp a b o' → o = o'
  refl : ∀ a, cmp a a .eq
  antisymm : ∀ a b o, cmp a b o → cmp b a o.swap
  trans : ∀ a b c o o', cmp a b o → cmp b c o' → o.isLE → o'.isLE →
    ∃ o'', cmp a c o'' ∧ o''.isLE

/-- A comparison of the images under some function. -/
theorem isTotalPreorder_compare [Ord β] [Std.TransOrd β] (f : α → β) :
    IsTotalPreorder fun a b o => compare (f a) (f b) = o where
  total a b := ⟨_, rfl⟩
  functional a b o o' h h' := h.symm.trans h'
  refl a := Std.ReflCmp.compare_self
  antisymm a b o h := by
    rw [← h]
    exact Std.OrientedCmp.eq_swap
  trans a b c o o' h h' hle hle' := by
    subst h h'
    exact ⟨_, rfl, Std.TransCmp.isLE_trans hle hle'⟩

/-! ## Replacements -/

section Order

variable [Ord α] [Std.LawfulEqOrd α] [Ord β]

/-- The first two characters, at one place, that are not the same. -/
def firstDifference [DecidableEq α] : List α → List α → Option (α × α)
  | a :: s, b :: t => if a = b then firstDifference s t else some (a, b)
  | _, _ => none

/-- A difference decides. -/
theorem then_of_ne {o o' : Ordering} (h : o ≠ .eq) : o.then o' = o := by
  cases o with
  | lt => rfl
  | eq => exact absurd rfl h
  | gt => rfl

/-- The order depends on the first difference. -/
theorem compare_map [DecidableEq α] [Std.LawfulEqOrd β] {f : α → β} {s t : List α}
    (h : ∀ p ∈ firstDifference s t, compare (f p.1) (f p.2) = compare p.1 p.2) :
    compare (s.map f) (t.map f) = compare s t := by
  induction s generalizing t with
  | nil =>
    cases t with
    | nil => rfl
    | cons b t => rfl
  | cons a s ih =>
    cases t with
    | nil => rfl
    | cons b t =>
      rw [firstDifference] at h
      rw [List.map_cons, List.map_cons, List.compare_cons_cons, List.compare_cons_cons]
      by_cases hab : a = b
      · subst hab
        rw [if_pos rfl] at h
        have hself : compare a a = .eq := Std.ReflCmp.compare_self
        have himage : compare (f a) (f a) = .eq := Std.ReflCmp.compare_self
        rw [hself, himage, ih h]
      · rw [if_neg hab] at h
        have hne : compare a b ≠ .eq := fun heq => hab (Std.LawfulEqCmp.eq_of_compare heq)
        rw [h (a, b) rfl, then_of_ne hne, then_of_ne hne]

/-- A terminator below all characters. -/
theorem compare_terminated [Std.OrientedOrd α] {z : α} (hz : ∀ a, (compare z a).isLE)
    (s t : List α) : compare (s ++ [z]) (t ++ [z]) = compare s t := by
  -- behind the end of one text, the other goes on
  have hend (b : α) (t : List α) : compare [z] (b :: (t ++ [z])) = .lt := by
    have hrest : compare [] (t ++ [z]) = .lt := by
      cases t with
      | nil => rfl
      | cons c t => rfl
    rw [List.compare_cons_cons, hrest]
    have hb := hz b
    cases hzb : compare z b with
    | lt => rfl
    | eq => rfl
    | gt =>
      rw [hzb] at hb
      exact absurd hb Bool.false_ne_true
  induction s generalizing t with
  | nil =>
    cases t with
    | nil => exact Std.ReflCmp.compare_self
    | cons b t => exact hend b t
  | cons a s ih =>
    cases t with
    | nil =>
      have hswap : compare (a :: (s ++ [z])) [z] = (compare [z] (a :: (s ++ [z]))).swap :=
        Std.OrientedCmp.eq_swap
      rw [hend] at hswap
      exact hswap
    | cons b t =>
      rw [List.cons_append, List.cons_append, List.compare_cons_cons, List.compare_cons_cons, ih]

end Order

end Lexicographic
