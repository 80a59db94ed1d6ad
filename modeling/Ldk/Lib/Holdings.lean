import Mathlib

/-!
# Counting what is held

Parties come one after another and each holds a list of items at any time. `total` says how
often an item is held over all parties. A reference count that is kept by hand is right when
it agrees with such a total, and each step of a party changes the total by the difference of
what the party holds after and before (`total_update`).
-/

namespace Holdings

universe u v w

variable {π : Type u} {β : Type v} {σ : Type w} [DecidableEq π] [DecidableEq β]

/-- How often the parties hold an item, all together. -/
def total (parties : List π) (held : π → List β) (b : β) : Nat :=
  (parties.map fun p => (held p).count b).sum

omit [DecidableEq π] in
@[simp] theorem total_nil (held : π → List β) (b : β) : total [] held b = 0 := rfl

omit [DecidableEq π] in
@[simp] theorem total_cons (p : π) (parties : List π) (held : π → List β) (b : β) :
    total (p :: parties) held b = (held p).count b + total parties held b := by
  simp [total]

omit [DecidableEq π] in
theorem total_congr {parties : List π} {held held' : π → List β} {b : β}
    (h : ∀ p ∈ parties, (held p).count b = (held' p).count b) :
    total parties held b = total parties held' b := by
  unfold total
  rw [List.map_congr_left h]

omit [DecidableEq π] in
/-- Nobody holds more than all. -/
theorem count_le_total {parties : List π} {p : π} (h : p ∈ parties) (held : π → List β) (b : β) :
    (held p).count b ≤ total parties held b := by
  induction parties with
  | nil => simp at h
  | cons q parties ih =>
    rw [total_cons]
    rcases List.mem_cons.mp h with rfl | hmem
    · exact Nat.le_add_right _ _
    · exact Nat.le_add_left_of_le (ih hmem)

omit [DecidableEq π] in
/-- Two parties do not hold more than all. -/
theorem count_add_count_le_total {parties : List π} {p q : π} (hp : p ∈ parties)
    (hq : q ∈ parties) (hne : p ≠ q) (held : π → List β) (b : β) :
    (held p).count b + (held q).count b ≤ total parties held b := by
  induction parties with
  | nil => simp at hp
  | cons r parties ih =>
    rw [total_cons]
    rcases List.mem_cons.mp hp with rfl | hp'
    · have hq' := (List.mem_cons.mp hq).resolve_left (Ne.symm hne)
      exact Nat.add_le_add_left (count_le_total hq' held b) _
    · rcases List.mem_cons.mp hq with rfl | hq'
      · rw [Nat.add_comm]
        exact Nat.add_le_add_left (count_le_total hp' held b) _
      · exact Nat.le_add_left_of_le (ih hp' hq')

omit [DecidableEq π] in
/-- What is held is held by someone. -/
theorem exists_mem_of_total_ne_zero {parties : List π} {held : π → List β} {b : β}
    (h : total parties held b ≠ 0) : ∃ p ∈ parties, b ∈ held p := by
  induction parties with
  | nil => exact absurd rfl h
  | cons q parties ih =>
    by_cases hq : b ∈ held q
    · exact ⟨q, by simp, hq⟩
    · rw [total_cons, List.count_eq_zero_of_not_mem hq, Nat.zero_add] at h
      obtain ⟨p, hp, hmem⟩ := ih h
      exact ⟨p, by simp [hp], hmem⟩

/-- A step of one party, whose holdings are read off its stage. -/
theorem total_update {parties : List π} {p : π} (hnodup : parties.Nodup) (hmem : p ∈ parties)
    (held : σ → List β) (stage : π → σ) (v : σ) (b : β) :
    total parties (fun q => held (Function.update stage p v q)) b + (held (stage p)).count b =
      total parties (fun q => held (stage q)) b + (held v).count b := by
  induction parties with
  | nil => simp at hmem
  | cons q parties ih =>
    obtain ⟨hq, hnodup⟩ := List.nodup_cons.mp hnodup
    rw [total_cons, total_cons]
    rcases List.mem_cons.mp hmem with rfl | hmem
    · rw [Function.update_self]
      -- nobody else moves
      have hrest : total parties (fun q => held (Function.update stage p v q)) b =
          total parties (fun q => held (stage q)) b := by
        apply total_congr
        intro r hr
        rw [Function.update_of_ne (ne_of_mem_of_not_mem hr hq)]
      omega
    · rw [Function.update_of_ne (ne_of_mem_of_not_mem hmem hq).symm]
      have := ih hnodup hmem
      omega

end Holdings
