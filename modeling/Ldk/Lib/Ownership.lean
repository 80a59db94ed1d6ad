import Mathlib

/-!
# Who owns a block

Holders, each with a list of blocks. `Owned live held` says that the blocks that are live are those
that are held, and that each is held by one holder, once. It is what remains of "nothing leaks and
nothing is freed twice" when the steps of several parties are interleaved.

- `Owned.acquire`: a holder gets blocks that have not been live.
- `Owned.release`: blocks of a holder are live no longer.
- `Owned.redistribute`, `Owned.transfer`: blocks go from one holder to another.
- `Owned.unchanged`: what a step of one holder leaves alone.
- `Owned.congr`: nothing changes but the order.
-/

namespace Ownership

universe u v

variable {ι : Type u} {β : Type v} {live live' : β → Prop} {held held' : ι → List β}

/-- The live blocks are those that are held, each by one holder and once. -/
structure Owned (live : β → Prop) (held : ι → List β) : Prop where
  once : ∀ i, (held i).Nodup
  exclusive : ∀ i j b, b ∈ held i → b ∈ held j → i = j
  live_iff : ∀ b, live b ↔ ∃ i, b ∈ held i

namespace Owned

theorem live_of_mem (h : Owned live held) {i : ι} {b : β} (hb : b ∈ held i) : live b :=
  (h.live_iff b).mpr ⟨i, hb⟩

/-- What is not live is held by nobody. -/
theorem notMem (h : Owned live held) {b : β} (hb : ¬ live b) (i : ι) : b ∉ held i := fun hmem =>
  hb (h.live_of_mem hmem)

/-- Nobody holds anything, and nothing is live. -/
theorem empty (hlive : ∀ b, ¬ live b) (hheld : ∀ i, held i = []) : Owned live held where
  once i := by simp [hheld i]
  exclusive i j b hi := by simp [hheld i] at hi
  live_iff b := by simp [hlive b, hheld]

/-- The holders hold what they held. -/
theorem congr (h : Owned live held) (hheld : ∀ i, (held' i).Perm (held i))
    (hlive : ∀ b, live' b ↔ live b) : Owned live' held' where
  once i := (hheld i).nodup_iff.mpr (h.once i)
  exclusive i j b hi hj := h.exclusive i j b ((hheld i).mem_iff.mp hi) ((hheld j).mem_iff.mp hj)
  live_iff b := by
    rw [hlive, h.live_iff]
    exact exists_congr fun i => (hheld i).mem_iff.symm

/-- A holder gets blocks that have not been live. -/
theorem acquire (h : Owned live held) {i : ι} {blocks : List β} (hnodup : blocks.Nodup)
    (hfresh : ∀ b ∈ blocks, ¬ live b) (hself : (held' i).Perm (blocks ++ held i))
    (hother : ∀ j, j ≠ i → held' j = held j)
    (hlive : ∀ b, live' b ↔ b ∈ blocks ∨ live b) : Owned live' held' := by
  have hmem (j : ι) (b : β) : b ∈ held' j ↔ (j = i ∧ b ∈ blocks) ∨ b ∈ held j := by
    by_cases hj : j = i
    · subst hj
      simp [hself.mem_iff]
    · simp [hother j hj, hj]
  refine ⟨?_, ?_, ?_⟩
  · intro j
    by_cases hj : j = i
    · rw [hj, hself.nodup_iff]
      exact hnodup.append (h.once i) fun b hb hheld => hfresh b hb (h.live_of_mem hheld)
    · rw [hother j hj]
      exact h.once j
  · intro j k b hj hk
    rcases (hmem j b).mp hj with ⟨rfl, hb⟩ | hj <;> rcases (hmem k b).mp hk with ⟨rfl, hb'⟩ | hk
    · rfl
    · exact absurd (h.live_of_mem hk) (hfresh b hb)
    · exact absurd (h.live_of_mem hj) (hfresh b hb')
    · exact h.exclusive j k b hj hk
  · intro b
    rw [hlive, h.live_iff]
    constructor
    · rintro (hb | ⟨j, hj⟩)
      · exact ⟨i, (hmem i b).mpr (.inl ⟨rfl, hb⟩)⟩
      · exact ⟨j, (hmem j b).mpr (.inr hj)⟩
    · rintro ⟨j, hj⟩
      rcases (hmem j b).mp hj with ⟨-, hb⟩ | hj
      · exact .inl hb
      · exact .inr ⟨j, hj⟩

/-- Blocks of a holder are live no longer. -/
theorem release (h : Owned live held) {i : ι} {blocks : List β}
    (hself : (held i).Perm (blocks ++ held' i)) (hother : ∀ j, j ≠ i → held' j = held j)
    (hlive : ∀ b, live' b ↔ b ∉ blocks ∧ live b) : Owned live' held' := by
  have hnodup : (blocks ++ held' i).Nodup := hself.nodup_iff.mp (h.once i)
  have hdisjoint : blocks.Disjoint (held' i) := List.disjoint_of_nodup_append hnodup
  have hblocks (b : β) (hb : b ∈ blocks) : b ∈ held i :=
    hself.mem_iff.mpr (List.mem_append_left _ hb)
  have hmem (j : ι) (b : β) : b ∈ held' j ↔ b ∉ blocks ∧ b ∈ held j := by
    by_cases hj : j = i
    · subst hj
      rw [hself.mem_iff, List.mem_append]
      constructor
      · exact fun hb => ⟨fun hblock => hdisjoint hblock hb, .inr hb⟩
      · rintro ⟨hnot, hb | hb⟩
        · exact absurd hb hnot
        · exact hb
    · rw [hother j hj]
      constructor
      · exact fun hb => ⟨fun hblock => hj (h.exclusive j i b hb (hblocks b hblock)), hb⟩
      · exact And.right
  refine ⟨?_, ?_, ?_⟩
  · intro j
    by_cases hj : j = i
    · rw [hj]
      exact (List.nodup_append.mp hnodup).2.1
    · rw [hother j hj]
      exact h.once j
  · intro j k b hj hk
    exact h.exclusive j k b ((hmem j b).mp hj).2 ((hmem k b).mp hk).2
  · intro b
    rw [hlive, h.live_iff]
    constructor
    · rintro ⟨hnot, j, hj⟩
      exact ⟨j, (hmem j b).mpr ⟨hnot, hj⟩⟩
    · rintro ⟨j, hj⟩
      exact ⟨((hmem j b).mp hj).1, j, ((hmem j b).mp hj).2⟩

/-- Two holders have the same blocks as before between them. -/
theorem redistribute (h : Owned live held) {i j : ι} (hne : i ≠ j)
    (hboth : (held' i ++ held' j).Perm (held i ++ held j))
    (hother : ∀ k, k ≠ i → k ≠ j → held' k = held k)
    (hlive : ∀ b, live' b ↔ live b) : Owned live' held' := by
  have hnodup : (held' i ++ held' j).Nodup := by
    rw [hboth.nodup_iff]
    exact (h.once i).append (h.once j) fun b hi hj => hne (h.exclusive i j b hi hj)
  have hdisjoint : (held' i).Disjoint (held' j) := List.disjoint_of_nodup_append hnodup
  have hpair (b : β) : b ∈ held' i ∨ b ∈ held' j ↔ b ∈ held i ∨ b ∈ held j := by
    rw [← List.mem_append, hboth.mem_iff, List.mem_append]
  -- whoever else holds a block holds none of theirs
  have hapart (k : ι) (hki : k ≠ i) (hkj : k ≠ j) (b : β) (hk : b ∈ held' k) :
      ¬ (b ∈ held' i ∨ b ∈ held' j) := by
    rw [hother k hki hkj] at hk
    rw [hpair]
    rintro (hb | hb)
    · exact hki (h.exclusive k i b hk hb)
    · exact hkj (h.exclusive k j b hk hb)
  have hamong (f : ι → List β) {k : ι} {b : β} (hk : k = i ∨ k = j) (hb : b ∈ f k) :
      b ∈ f i ∨ b ∈ f j := by
    rcases hk with rfl | rfl
    · exact .inl hb
    · exact .inr hb
  refine ⟨?_, ?_, ?_⟩
  · intro k
    by_cases hki : k = i
    · rw [hki]
      exact (List.nodup_append.mp hnodup).1
    · by_cases hkj : k = j
      · rw [hkj]
        exact (List.nodup_append.mp hnodup).2.1
      · rw [hother k hki hkj]
        exact h.once k
  · intro k l b hk hl
    by_cases hkpair : k = i ∨ k = j <;> by_cases hlpair : l = i ∨ l = j
    · rcases hkpair with rfl | rfl <;> rcases hlpair with rfl | rfl
      · rfl
      · exact absurd hl (hdisjoint hk)
      · exact absurd hk (hdisjoint hl)
      · rfl
    · rw [not_or] at hlpair
      exact absurd (hamong held' hkpair hk) (hapart l hlpair.1 hlpair.2 b hl)
    · rw [not_or] at hkpair
      exact absurd (hamong held' hlpair hl) (hapart k hkpair.1 hkpair.2 b hk)
    · rw [not_or] at hkpair hlpair
      rw [hother k hkpair.1 hkpair.2] at hk
      rw [hother l hlpair.1 hlpair.2] at hl
      exact h.exclusive k l b hk hl
  · intro b
    rw [hlive, h.live_iff]
    constructor
    · rintro ⟨k, hk⟩
      by_cases hkpair : k = i ∨ k = j
      · rcases (hpair b).mpr (hamong held hkpair hk) with hb | hb
        · exact ⟨i, hb⟩
        · exact ⟨j, hb⟩
      · rw [not_or] at hkpair
        exact ⟨k, (hother k hkpair.1 hkpair.2).symm ▸ hk⟩
    · rintro ⟨k, hk⟩
      by_cases hkpair : k = i ∨ k = j
      · rcases (hpair b).mp (hamong held' hkpair hk) with hb | hb
        · exact ⟨i, hb⟩
        · exact ⟨j, hb⟩
      · rw [not_or] at hkpair
        exact ⟨k, hother k hkpair.1 hkpair.2 ▸ hk⟩

/-- Blocks go from one holder to another. -/
theorem transfer (h : Owned live held) {i j : ι} (hne : i ≠ j) {blocks : List β}
    (hfrom : (held i).Perm (blocks ++ held' i)) (hto : (held' j).Perm (blocks ++ held j))
    (hother : ∀ k, k ≠ i → k ≠ j → held' k = held k)
    (hlive : ∀ b, live' b ↔ live b) : Owned live' held' := by
  apply h.redistribute hne _ hother hlive
  calc (held' i ++ held' j).Perm (held' i ++ (blocks ++ held j)) := hto.append_left _
    _ = (held' i ++ blocks) ++ held j := (List.append_assoc _ _ _).symm
    _ |>.Perm ((blocks ++ held' i) ++ held j) := List.perm_append_comm.append_right _
    _ |>.Perm (held i ++ held j) := hfrom.symm.append_right _

/-- A step that changes what is at the blocks of one holder, or where nothing was, leaves the
blocks of the others as they are. -/
theorem unchanged {α : Type v} {heap heap' : β → Option α}
    (h : Owned (fun b => heap b ≠ none) held) {i : ι}
    (hframe : ∀ b, b ∉ held i → heap b ≠ none → heap' b = heap b) {j : ι} (hne : j ≠ i) :
    ∀ b ∈ held j, heap' b = heap b := by
  intro b hb
  apply hframe b
  · intro hmem
    exact hne (h.exclusive j i b hb hmem)
  · exact h.live_of_mem hb

end Owned

end Ownership
