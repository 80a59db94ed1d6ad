import Mathlib

/-!
# Sorted entries

A map kept as a list of entries in strictly ascending order of their keys: what replacing,
inserting and removing one entry do to the order and to what is found under a key.
-/

namespace SortedEntries

universe u v

variable {α : Type u} {β : Type v} [LinearOrder β] {key : α → β}

/-- The keys are in strictly ascending order. -/
def Sorted (key : α → β) (es : List α) : Prop := es.Pairwise fun a b => key a < key b

/-- The entry of a key. -/
def find (key : α → β) (k : β) (es : List α) : Option α := es.find? fun e => decide (key e = k)

@[simp] theorem find_nil (k : β) : find key k [] = none := rfl

theorem find_cons (k : β) (e : α) (es : List α) :
    find key k (e :: es) = if key e = k then some e else find key k es := by
  unfold find
  rw [List.find?_cons]
  by_cases h : key e = k
  · rw [if_pos h, decide_eq_true h]
  · rw [if_neg h, decide_eq_false h]

theorem find_append (k : β) (es fs : List α) :
    find key k (es ++ fs) = (find key k es).or (find key k fs) := by
  unfold find
  exact List.find?_append

/-- Nothing is found under a key no entry has. -/
theorem find_eq_none {k : β} {es : List α} (h : ∀ e ∈ es, key e ≠ k) : find key k es = none := by
  unfold find
  rw [List.find?_eq_none]
  intro e he
  simpa using h e he

/-! ## Order -/

theorem Sorted.nil : Sorted key ([] : List α) := List.Pairwise.nil

/-- An entry may be replaced by another of the same key. -/
theorem Sorted.replace {before after : List α} {e e' : α} (h : Sorted key (before ++ e :: after))
    (hkey : key e' = key e) : Sorted key (before ++ e' :: after) := by
  obtain ⟨hbefore, hafter, hcross⟩ := List.pairwise_append.mp h
  obtain ⟨hhead, htail⟩ := List.pairwise_cons.mp hafter
  apply List.pairwise_append.mpr
  refine ⟨hbefore, List.pairwise_cons.mpr ⟨fun a ha => hkey ▸ hhead a ha, htail⟩, ?_⟩
  intro a ha b hb
  rcases List.mem_cons.mp hb with rfl | hb
  · rw [hkey]
    exact hcross a ha e List.mem_cons_self
  · exact hcross a ha b (List.mem_cons_of_mem _ hb)

theorem Sorted.remove {before after : List α} {e : α} (h : Sorted key (before ++ e :: after)) :
    Sorted key (before ++ after) :=
  h.sublist ((List.sublist_cons_self e after).append_left before)

/-- An entry goes between the smaller and the greater keys. -/
theorem Sorted.insert {before after : List α} {e : α} (h : Sorted key (before ++ after))
    (hbefore : ∀ a ∈ before, key a < key e) (hafter : ∀ a ∈ after, key e < key a) :
    Sorted key (before ++ e :: after) := by
  obtain ⟨hb, ha, hcross⟩ := List.pairwise_append.mp h
  apply List.pairwise_append.mpr
  refine ⟨hb, List.pairwise_cons.mpr ⟨hafter, ha⟩, ?_⟩
  intro a hmem b hb'
  rcases List.mem_cons.mp hb' with rfl | hb'
  · exact hbefore a hmem
  · exact hcross a hmem b hb'

/-- Where an entry of a key that is not there belongs. -/
theorem Sorted.exists_split {k : β} {es : List α} (h : Sorted key es)
    (hne : ∀ e ∈ es, key e ≠ k) : ∃ before after, es = before ++ after ∧
      (∀ a ∈ before, key a < k) ∧ ∀ a ∈ after, k < key a := by
  induction es with
  | nil => exact ⟨[], [], rfl, nofun, nofun⟩
  | cons e es ih =>
    obtain ⟨hhead, htail⟩ := List.pairwise_cons.mp h
    rcases lt_or_gt_of_ne (hne e List.mem_cons_self) with hlt | hgt
    · obtain ⟨before, after, rfl, hbefore, hafter⟩ :=
        ih htail fun a ha => hne a (List.mem_cons_of_mem _ ha)
      refine ⟨e :: before, after, rfl, fun a ha => ?_, hafter⟩
      rcases List.mem_cons.mp ha with rfl | ha
      · exact hlt
      · exact hbefore a ha
    · refine ⟨[], e :: es, rfl, nofun, fun a ha => ?_⟩
      rcases List.mem_cons.mp ha with rfl | ha
      · exact hgt
      · exact lt_trans hgt (hhead a ha)

/-! ## What is found -/

/-- An entry of a sorted list is the one that is found, and the others are found as before. -/
theorem Sorted.find_split {before after : List α} {e : α} (h : Sorted key (before ++ e :: after))
    (k : β) : find key k (before ++ e :: after) =
      if key e = k then some e else find key k (before ++ after) := by
  rw [find_append, find_cons, find_append]
  split
  · rename_i hk
    -- no smaller key is this one
    have hnone : find key k before = none := by
      apply find_eq_none
      intro a ha heq
      have hlt := (List.pairwise_append.mp h).2.2 a ha e List.mem_cons_self
      rw [heq, hk] at hlt
      exact lt_irrefl k hlt
    rw [hnone, Option.none_or]
  · rfl

theorem Sorted.find_remove {before after : List α} {e : α} (h : Sorted key (before ++ e :: after))
    (k : β) : find key k (before ++ after) =
      if key e = k then none else find key k (before ++ e :: after) := by
  rw [h.find_split k]
  split
  · rename_i hk
    apply find_eq_none
    intro a ha heq
    obtain ⟨-, hafter, hcross⟩ := List.pairwise_append.mp h
    rcases List.mem_append.mp ha with ha | ha
    · have hlt := hcross a ha e List.mem_cons_self
      rw [heq, hk] at hlt
      exact lt_irrefl k hlt
    · have hlt := (List.pairwise_cons.mp hafter).1 a ha
      rw [heq, hk] at hlt
      exact lt_irrefl k hlt
  · rfl

/-- Replacing an entry changes what is found under its key only. -/
theorem Sorted.find_replace {before after : List α} {e e' : α}
    (h : Sorted key (before ++ e :: after)) (hkey : key e' = key e) (k : β) :
    find key k (before ++ e' :: after) =
      if key e' = k then some e' else find key k (before ++ e :: after) := by
  rw [(h.replace hkey).find_split k, h.find_split k, hkey]
  split <;> rfl

/-- A member is the entry of its key. -/
theorem Sorted.exists_split_of_find {k : β} {e : α} {es : List α} (h : find key k es = some e) :
    key e = k ∧ ∃ before after, es = before ++ e :: after ∧ ∀ a ∈ before, key a ≠ k := by
  unfold find at h
  obtain ⟨hk, before, after, hes, hbefore⟩ := List.find?_eq_some_iff_append.mp h
  refine ⟨of_decide_eq_true hk, before, after, hes, fun a ha => ?_⟩
  have := hbefore a ha
  simpa using this

end SortedEntries
