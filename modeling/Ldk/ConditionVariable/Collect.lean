import Ldk.ConditionVariable.State

/-!
# Collecting waiters

What `LdkpCollectConditionVariableWaiters` takes out of the list: waiters of the variable only, the
oldest first, one unless all are to be woken, and every one when the array has room to spare.
-/

namespace Ldk.ConditionVariable.Calls

variable {σ ω κ : Type} [DecidableEq κ] (calls : Calls σ ω κ) (v : κ) (all : Bool)

theorem mem_waitersOf {list : List σ} {w : σ} :
    w ∈ calls.waitersOf v list ↔ w ∈ list ∧ calls.sleepsOn w = v := by
  simp [waitersOf]

/-- When others leave the list, the oldest waiter stays the oldest. -/
theorem waitersOf_head_sublist {list list' : List σ} {w : σ} (hnodup : list.Nodup)
    (hsub : list'.Sublist list) (hin : w ∈ list')
    (hw : (calls.waitersOf v list).head? = some w) : (calls.waitersOf v list').head? = some w := by
  have hsub' : (calls.waitersOf v list').Sublist (calls.waitersOf v list) := hsub.filter _
  have hnodup' : (calls.waitersOf v list).Nodup := hnodup.filter _
  have hmem : w ∈ calls.waitersOf v list' := by
    have hv := (calls.mem_waitersOf v).mp (List.mem_of_mem_head? hw)
    exact (calls.mem_waitersOf v).mpr ⟨hin, hv.2⟩
  cases hlist : calls.waitersOf v list with
  | nil => simp [hlist] at hw
  | cons u rest =>
    obtain rfl : u = w := by simpa [hlist] using hw
    rw [hlist] at hsub' hnodup'
    generalize calls.waitersOf v list' = found at hsub' hmem
    cases hsub' with
    | cons _ hrest => exact absurd (hrest.subset hmem) (List.nodup_cons.mp hnodup').1
    | cons_cons _ hrest => rfl

theorem waitersOf_head_append {list : List σ} {w u : σ}
    (hw : (calls.waitersOf v list).head? = some w) :
    (calls.waitersOf v (list ++ [u])).head? = some w := by
  simp only [waitersOf, List.filter_append, List.head?_append] at hw ⊢
  rw [hw, Option.some_or]

/-- Nobody is lost or doubled. -/
theorem collect_perm (count : Nat) (list : List σ) :
    ((calls.collect v all count list).1 ++ (calls.collect v all count list).2).Perm list := by
  fun_induction collect calls v all count list with
  | case1 count w rest hv hall ih => simpa using ih
  | case2 count w rest hv hall => simp
  | case3 count w rest hv ih => exact (List.perm_middle).trans (ih.cons w)
  | case4 => simp

theorem collect_sublist (count : Nat) (list : List σ) :
    (calls.collect v all count list).2.Sublist list := by
  fun_induction collect calls v all count list with
  | case1 count w rest hv hall ih => exact ih.cons w
  | case2 count w rest hv hall => simp
  | case3 count w rest hv ih => exact ih.cons_cons w
  | case4 => simp

/-- Only waiters of the variable are collected. -/
theorem collect_variable (count : Nat) (list : List σ) :
    ∀ w ∈ (calls.collect v all count list).1, calls.sleepsOn w = v := by
  fun_induction collect calls v all count list with
  | case1 count w rest hv hall ih => simpa [hv] using ih
  | case2 count w rest hv hall => simp [hv]
  | case3 count w rest hv ih => exact ih
  | case4 => simp

theorem collect_length (count : Nat) (list : List σ) :
    (calls.collect v all count list).1.length ≤ count := by
  fun_induction collect calls v all count list with
  | case1 count w rest hv hall ih => simpa using ih
  | case2 count w rest hv hall => simp
  | case3 count w rest hv ih => exact ih
  | case4 => simp

/-- An array that is not filled has all of them. -/
theorem collect_exhausts (count : Nat) (list : List σ)
    (hroom : (calls.collect v true count list).1.length < count) :
    ∀ w ∈ (calls.collect v true count list).2, calls.sleepsOn w ≠ v := by
  induction list generalizing count with
  | nil => cases count <;> simp [collect]
  | cons w rest ih =>
    cases count with
    | zero => simp at hroom
    | succ count =>
      by_cases hv : calls.sleepsOn w = v
      · simp only [collect, hv, if_true, List.length_cons] at hroom ⊢
        exact ih count (by omega)
      · simp only [collect, hv, if_false] at hroom ⊢
        simpa [hv] using ih (count + 1) hroom

/-- The oldest waiter is collected. -/
theorem collect_oldest (count : Nat) (list : List σ) (hcount : 0 < count) {w : σ}
    (hw : (calls.waitersOf v list).head? = some w) : w ∈ (calls.collect v all count list).1 := by
  obtain ⟨count, rfl⟩ := Nat.exists_eq_add_one.mpr hcount
  induction list with
  | nil => simp [waitersOf] at hw
  | cons u rest ih =>
    by_cases hv : calls.sleepsOn u = v
    · obtain rfl : u = w := by simpa [waitersOf, hv] using hw
      cases all <;> simp [collect, hv]
    · have hrest : (calls.waitersOf v rest).head? = some w := by
        simpa [waitersOf, hv] using hw
      simpa [collect, hv] using ih hrest

end Ldk.ConditionVariable.Calls
