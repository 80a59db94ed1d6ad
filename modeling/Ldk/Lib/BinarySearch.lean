import Mathlib

/-!
# Halving search

A table of keys and values is sorted by a comparison, each key once. `search` looks at the middle
of what is left and goes on in one half. It finds a value exactly when the key has it in the table
(`search_eq_some_iff`), given one round for each entry.
-/

namespace BinarySearch

open Std

universe u v

variable {κ : Type u} {β : Type v} (cmp : κ → κ → Ordering)

/-- The keys come in order, and none comes twice. -/
def Sorted (table : List (κ × β)) : Prop := table.Pairwise fun a b => cmp a.1 b.1 = .lt

/-- Search in so many rounds. -/
def search (key : κ) : Nat → List (κ × β) → Option β
  | 0, _ => none
  | rounds + 1, table =>
    match table[table.length / 2]? with
    | none => none
    | some (k, value) =>
      match cmp key k with
      | .eq => some value
      | .lt => search key rounds (table.take (table.length / 2))
      | .gt => search key rounds (table.drop (table.length / 2 + 1))

variable {cmp} {key : κ} {value : β} {table : List (κ × β)}

/-- The table around its middle. -/
theorem split_at {i : Nat} {entry : κ × β} (h : table[i]? = some entry) :
    table = table.take i ++ entry :: table.drop (i + 1) := by
  obtain ⟨hi, rfl⟩ := List.getElem?_eq_some_iff.mp h
  rw [← List.drop_eq_getElem_cons hi, List.take_append_drop]

variable [TransCmp cmp] [LawfulEqCmp cmp]

/-- An entry with a key before that of the middle is in front of it, and so on. -/
theorem mem_iff_of_sorted {before after : List (κ × β)} {k : κ} {w : β}
    (hsorted : Sorted cmp (before ++ (k, w) :: after)) :
    (key, value) ∈ before ++ (k, w) :: after ↔
      match cmp key k with
      | .eq => value = w
      | .lt => (key, value) ∈ before
      | .gt => (key, value) ∈ after := by
  obtain ⟨-, hafter, hbefore⟩ := List.pairwise_append.mp hsorted
  have hlt : (key, value) ∈ before → cmp key k = .lt :=
    fun h => hbefore _ h (k, w) List.mem_cons_self
  have hgt : (key, value) ∈ after → cmp key k = .gt :=
    fun h => OrientedCmp.gt_iff_lt.mpr ((List.pairwise_cons.mp hafter).1 _ h)
  rw [List.mem_append, List.mem_cons, Prod.mk.injEq]
  cases hcmp : cmp key k with
  | eq =>
    rw [hcmp] at hlt hgt
    constructor
    · rintro (h | ⟨-, h⟩ | h)
      · cases hlt h
      · exact h
      · cases hgt h
    · exact fun h => .inr (.inl ⟨LawfulEqCmp.eq_of_compare hcmp, h⟩)
  | lt =>
    rw [hcmp] at hgt
    constructor
    · rintro (h | ⟨rfl, -⟩ | h)
      · exact h
      · cases ReflCmp.compare_self.symm.trans hcmp
      · cases hgt h
    · exact .inl
  | gt =>
    rw [hcmp] at hlt
    constructor
    · rintro (h | ⟨rfl, -⟩ | h)
      · cases hlt h
      · cases ReflCmp.compare_self.symm.trans hcmp
      · exact h
    · exact fun h => .inr (.inr h)

/-- The search finds what is in the table, and nothing else. -/
theorem search_eq_some_iff {rounds : Nat} (hsorted : Sorted cmp table)
    (hrounds : table.length ≤ rounds) :
    search cmp key rounds table = some value ↔ (key, value) ∈ table := by
  induction rounds generalizing table with
  | zero =>
    obtain rfl := List.length_eq_zero_iff.mp (Nat.le_zero.mp hrounds)
    exact iff_of_false nofun List.not_mem_nil
  | succ rounds ih =>
    unfold search
    cases hmiddle : table[table.length / 2]? with
    | none =>
      -- only an empty table has no middle
      have hle := List.getElem?_eq_none_iff.mp hmiddle
      obtain rfl : table = [] := List.length_eq_zero_iff.mp (by omega)
      exact iff_of_false nofun List.not_mem_nil
    | some entry =>
      obtain ⟨k, w⟩ := entry
      obtain ⟨hlt, -⟩ := List.getElem?_eq_some_iff.mp hmiddle
      have hsplit := split_at hmiddle
      generalize table.length / 2 = i at hlt hsplit ⊢
      have hparts : Sorted cmp (table.take i ++ (k, w) :: table.drop (i + 1)) := hsplit ▸ hsorted
      have hmem : (key, value) ∈ table ↔
          (key, value) ∈ table.take i ++ (k, w) :: table.drop (i + 1) := by rw [← hsplit]
      rw [hmem, mem_iff_of_sorted hparts]
      dsimp only
      cases cmp key k with
      | eq =>
        dsimp only
        rw [Option.some.injEq]
        exact eq_comm
      | lt => exact ih (hsorted.sublist (List.take_sublist _ _)) (by rw [List.length_take]; omega)
      | gt => exact ih (hsorted.sublist (List.drop_sublist _ _)) (by rw [List.length_drop]; omega)

/-- Nothing is found when no entry has the key. -/
theorem search_eq_none {rounds : Nat} (hsorted : Sorted cmp table)
    (hrounds : table.length ≤ rounds) (habsent : ∀ value, (key, value) ∉ table) :
    search cmp key rounds table = none := by
  cases hfound : search cmp key rounds table with
  | none => rfl
  | some value => exact absurd ((search_eq_some_iff hsorted hrounds).mp hfound) (habsent value)

end BinarySearch
