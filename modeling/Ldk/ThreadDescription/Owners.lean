import Ldk.ThreadDescription.State

set_option linter.unusedSectionVars false

/-!
# Who the blocks of descriptions belong to

A block that gets into the table stays there until another one takes its place, and then the call
that has put that one there has the old one to free.

- `State.setEntry`: what the section of `SetThreadDescription` makes of the table.
- `State.Holds`: what the entry of an id, or a call, holds.
- `Owned`: each block has one holder, and that the moves of a call keep it so.
-/

namespace Ldk.ThreadDescription

open TransitionSystem

variable {τ κ : Type} [DecidableEq τ] [DecidableEq κ] {s : State τ κ} {c : κ} {a : Nat}
  {stage : Stage τ} {block : List WCHAR} {change : Entry → Entry}

/-! ## The table -/

theorem find?_changeEntry (change : Entry → Entry)
    (hchange : ∀ e, (change e).threadId = e.threadId) (id id' : Nat) (list : List Entry) :
    (changeEntry id change list).find? (fun e => e.threadId = id') =
      if id' = id then (list.find? fun e => e.threadId = id').map change
      else list.find? fun e => e.threadId = id' := by
  induction list with
  | nil => simp [changeEntry]
  | cons e list ih =>
    unfold changeEntry
    by_cases he : e.threadId = id
    · rw [if_pos he]
      by_cases hid : id' = id
      · subst hid
        simp [he, hchange]
      · have hne : ¬ e.threadId = id' := fun h => hid (h.symm.trans he)
        simp [hne, hid, hchange]
    · rw [if_neg he]
      by_cases hid : e.threadId = id'
      · have hne : ¬ id' = id := fun h => he (hid.trans h)
        simp [hid, hne]
      · rw [List.find?_cons_of_neg (by simpa using hid), ih,
          List.find?_cons_of_neg (by simpa using hid)]

theorem map_changeEntry (change : Entry → Entry)
    (hchange : ∀ e, (change e).threadId = e.threadId) (id : Nat) (list : List Entry) :
    (changeEntry id change list).map Entry.threadId = list.map Entry.threadId := by
  induction list with
  | nil => rfl
  | cons e list ih =>
    unfold changeEntry
    split
    · rw [List.map_cons, List.map_cons, hchange]
    · rw [List.map_cons, List.map_cons, ih]

/-- No entry has an id that is not found. -/
theorem State.notMem_of_entry {id : Nat} (h : s.entry id = none) :
    id ∉ s.list.map Entry.threadId := by
  intro hmem
  obtain ⟨e, he, hid⟩ := List.mem_map.1 hmem
  have hnot := List.find?_eq_none.1 h e he
  simp [hid] at hnot

/-- What the section under the mutex makes of the table. -/
def State.setEntry (s : State τ κ) (id newDescription descriptionBytes : Nat) : List Entry :=
  let change := Entry.setDescription newDescription descriptionBytes
  match s.entry id with
  | none => s.list ++ [change ⟨id, none, 0⟩]
  | some _ => changeEntry id change s.list

/-- The table has the new entry, and the others as they were. -/
theorem State.find?_setEntry (s : State τ κ) (id new bytes id' : Nat) :
    (s.setEntry id new bytes).find? (fun e => e.threadId = id') =
      if id' = id then some ⟨id, some new, bytes⟩ else s.entry id' := by
  unfold State.setEntry
  dsimp only
  cases hfound : s.entry id with
  | none =>
    dsimp only
    rw [List.find?_append]
    by_cases hid : id' = id
    · subst hid
      have hnone : s.list.find? (fun e => e.threadId = id') = none := hfound
      rw [hnone, if_pos rfl]
      simp [Entry.setDescription]
    · rw [if_neg hid]
      have hne : ¬ id = id' := fun h => hid h.symm
      unfold State.entry
      simp [hne, Entry.setDescription]
  | some e =>
    dsimp only
    rw [find?_changeEntry (Entry.setDescription new bytes) fun _ => rfl]
    by_cases hid : id' = id
    · subst hid
      have hsome : s.list.find? (fun e => e.threadId = id') = some e := hfound
      have he : e.threadId = id' := by simpa using List.find?_some hsome
      rw [if_pos rfl, if_pos rfl, hsome, ← he]
      rfl
    · rw [if_neg hid, if_neg hid]
      rfl

theorem State.nodup_setEntry (h : (s.list.map Entry.threadId).Nodup) (id new bytes : Nat) :
    ((s.setEntry id new bytes).map Entry.threadId).Nodup := by
  unfold State.setEntry
  dsimp only
  cases hfound : s.entry id with
  | none =>
    dsimp only
    rw [List.map_append, List.map_singleton]
    apply List.Nodup.append h (List.nodup_singleton _)
    rw [List.disjoint_singleton]
    exact State.notMem_of_entry hfound
  | some e =>
    dsimp only
    rw [map_changeEntry (Entry.setDescription new bytes) fun _ => rfl]
    exact h

/-- The section of `SetThreadDescription`. -/
theorem State.setLocked_eq {thread : τ} {id new : Nat} {text : List WCHAR}
    (h : s.stage c = .setting thread id text new) :
    s.setLocked c = State.goto
      { s with
        last := Function.update s.last thread text
        writers := c :: s.writers
        list := s.setEntry id new (2 * (descriptionString text).length + 2) } c
      (.freeing ((s.entry id).bind Entry.description).toList) := by
  unfold State.setLocked
  rw [h]
  dsimp only
  unfold State.setEntry
  have hentry : State.entry { s with
      last := Function.update s.last thread text, writers := c :: s.writers } id =
      s.entry id := rfl
  rw [hentry]
  cases s.entry id with
  | none => rfl
  | some e =>
    dsimp only
    rw [Option.toList_none, List.append_nil]
    rfl

/-! ## Owners -/

/-- The blocks that a call holds. -/
def Stage.blocks : Stage τ → List Nat
  | .allocatingEntry _ _ _ a | .setting _ _ _ a | .copying _ _ _ a | .discarding _ _ a
  | .described _ a _ => [a]
  | .freeing blocks => blocks
  | _ => []

/-- The entry of an id, or a call, holds a block. -/
def State.Holds (s : State τ κ) (holder : Nat ⊕ κ) (a : Nat) : Prop :=
  match holder with
  | .inl id => (s.entry id).bind Entry.description = some a
  | .inr c => a ∈ (s.stage c).blocks

/-- Each block has one holder. -/
structure Owned (s : State τ κ) : Prop where
  ids : (s.list.map Entry.threadId).Nodup
  exclusive : ∀ holder holder' a, s.Holds holder a → s.Holds holder' a → holder = holder'
  once : ∀ c, (s.stage c).blocks.Nodup
  held : ∀ a, s.heap a ≠ none ↔ ∃ holder, s.Holds holder a

/-- What a call holds after it, or another one, has moved. -/
theorem State.holds_goto (s : State τ κ) (c : κ) (stage : Stage τ) (holder : Nat ⊕ κ) (a : Nat) :
    (s.goto c stage).Holds holder a ↔
      if holder = .inr c then a ∈ stage.blocks else s.Holds holder a := by
  cases holder with
  | inl id =>
    rw [if_neg nofun]
    rfl
  | inr c' =>
    change a ∈ (Function.update s.stage c stage c').blocks ↔ _
    rw [Function.update_apply]
    by_cases hc : c' = c
    · rw [if_pos hc, if_pos (congrArg Sum.inr hc)]
    · rw [if_neg hc, if_neg (fun h => hc (Sum.inr.inj h))]
      rfl

theorem State.once_goto (h : ∀ c, (s.stage c).blocks.Nodup) (hstage : stage.blocks.Nodup) (c' : κ) :
    ((s.goto c stage).stage c').blocks.Nodup := by
  change (Function.update s.stage c stage c').blocks.Nodup
  rw [Function.update_apply]
  split
  · exact hstage
  · exact h c'

namespace Owned

/-- A call moves and holds what it held. -/
theorem goto (h : Owned s) (hblocks : stage.blocks = (s.stage c).blocks) :
    Owned (s.goto c stage) := by
  have hholds : ∀ holder a, (s.goto c stage).Holds holder a ↔ s.Holds holder a := by
    intro holder a
    rw [s.holds_goto]
    split
    · rename_i hc
      rw [hc, hblocks]
      rfl
    · exact Iff.rfl
  refine ⟨h.ids, ?_, State.once_goto h.once (hblocks ▸ h.once c), ?_⟩
  · intro holder holder' a hheld hheld'
    exact h.exclusive holder holder' a ((hholds _ _).1 hheld) ((hholds _ _).1 hheld')
  · intro a
    exact (h.held a).trans (exists_congr fun holder => (hholds holder a).symm)

/-- A call allocates a block. -/
theorem allocate (h : Owned s) (ha : s.heap a = none) (block : List WCHAR)
    (hblocks : stage.blocks = a :: (s.stage c).blocks) :
    Owned ((s.allocate a block).goto c stage) := by
  have hfree : ∀ holder, ¬ s.Holds holder a := fun holder hheld =>
    (h.held a).2 ⟨holder, hheld⟩ ha
  have hholds : ∀ holder b, ((s.allocate a block).goto c stage).Holds holder b ↔
      (b = a ∧ holder = .inr c) ∨ s.Holds holder b := by
    intro holder b
    rw [State.holds_goto]
    by_cases hc : holder = .inr c
    · rw [if_pos hc, hblocks, List.mem_cons, hc]
      simp only [and_true]
      rfl
    · rw [if_neg hc]
      simp only [hc, and_false, false_or]
      rfl
  refine ⟨h.ids, ?_, State.once_goto h.once ?_, ?_⟩
  · intro holder holder' b hheld hheld'
    rw [hholds] at hheld hheld'
    rcases hheld with ⟨rfl, hc⟩ | hheld <;> rcases hheld' with ⟨hb, hc'⟩ | hheld'
    · exact hc.trans hc'.symm
    · exact absurd hheld' (hfree _)
    · exact absurd (hb ▸ hheld) (hfree _)
    · exact h.exclusive _ _ _ hheld hheld'
  · rw [hblocks]
    exact List.nodup_cons.2 ⟨hfree (.inr c), h.once c⟩
  · intro b
    simp only [hholds]
    change Function.update s.heap a (some block) b ≠ none ↔ _
    rw [Function.update_apply]
    by_cases hb : b = a
    · rw [if_pos hb]
      exact iff_of_true (Option.some_ne_none _) ⟨.inr c, .inl ⟨hb, rfl⟩⟩
    · rw [if_neg hb, h.held b]
      simp [hb]

/-- A call writes to a block it holds. -/
theorem write (h : Owned s) (ha : a ∈ (s.stage c).blocks) (block : List WCHAR)
    (hblocks : stage.blocks = (s.stage c).blocks) :
    Owned ((s.allocate a block).goto c stage) := by
  have hwritten : Owned (s.allocate a block) := by
    refine ⟨h.ids, h.exclusive, h.once, fun b => ?_⟩
    change Function.update s.heap a (some block) b ≠ none ↔ ∃ holder, s.Holds holder b
    rw [Function.update_apply]
    by_cases hb : b = a
    · rw [if_pos hb, hb]
      exact iff_of_true (Option.some_ne_none _) ⟨.inr c, ha⟩
    · rw [if_neg hb]
      exact h.held b
  exact hwritten.goto hblocks

/-- A call frees the first block it holds. -/
theorem free (h : Owned s) (hblocks : (s.stage c).blocks = a :: stage.blocks) :
    Owned ((s.free a).goto c stage) := by
  have honce := h.once c
  rw [hblocks, List.nodup_cons] at honce
  have hmem : s.Holds (.inr c) a := by
    change a ∈ (s.stage c).blocks
    rw [hblocks]
    exact List.mem_cons_self
  have hholds : ∀ holder b, ((s.free a).goto c stage).Holds holder b ↔
      b ≠ a ∧ s.Holds holder b := by
    intro holder b
    rw [State.holds_goto]
    by_cases hc : holder = .inr c
    · rw [if_pos hc, hc]
      change _ ↔ b ≠ a ∧ b ∈ (s.stage c).blocks
      rw [hblocks, List.mem_cons]
      constructor
      · intro hb
        exact ⟨fun hba => honce.1 (hba ▸ hb), .inr hb⟩
      · rintro ⟨hne, hba | hb⟩
        · exact absurd hba hne
        · exact hb
    · rw [if_neg hc]
      constructor
      · intro hheld
        refine ⟨fun hba => hc ?_, hheld⟩
        exact h.exclusive _ _ a (hba ▸ hheld) hmem
      · exact fun hheld => hheld.2
  refine ⟨h.ids, ?_, State.once_goto h.once honce.2, ?_⟩
  · intro holder holder' b hheld hheld'
    exact h.exclusive _ _ b ((hholds _ _).1 hheld).2 ((hholds _ _).1 hheld').2
  · intro b
    simp only [hholds]
    change Function.update s.heap a none b ≠ none ↔ _
    rw [Function.update_apply]
    by_cases hb : b = a
    · simp [hb]
    · rw [if_neg hb, h.held b]
      simp [hb]

/-- The block that a call holds goes into the table, and the call holds the one that was there. -/
theorem set (h : Owned s) {id new bytes : Nat} (hblocks : (s.stage c).blocks = [new])
    (hstage : stage.blocks = ((s.entry id).bind Entry.description).toList) :
    Owned (State.goto { s with list := s.setEntry id new bytes } c stage) := by
  have hmem : s.Holds (.inr c) new := by
    change new ∈ (s.stage c).blocks
    rw [hblocks]
    exact List.mem_singleton_self new
  -- the call and the entry have changed places
  let back (holder : Nat ⊕ κ) : Nat ⊕ κ :=
    if holder = .inr c then .inl id else if holder = .inl id then .inr c else holder
  have hback : ∀ holder holder', back holder = back holder' → holder = holder' := by
    intro holder holder' heq
    simp only [back] at heq
    split_ifs at heq <;> simp_all
  have hholds : ∀ holder b,
      (State.goto { s with list := s.setEntry id new bytes } c stage).Holds holder b ↔
        s.Holds (back holder) b := by
    intro holder b
    rw [State.holds_goto]
    by_cases hc : holder = .inr c
    · simp only [back, if_pos hc]
      rw [hstage, Option.mem_toList]
      rfl
    · simp only [back, if_neg hc]
      by_cases hid : holder = .inl id
      · rw [if_pos hid, hid]
        change ((s.setEntry id new bytes).find? fun e => e.threadId = id).bind
          Entry.description = some b ↔ b ∈ (s.stage c).blocks
        rw [State.find?_setEntry, if_pos rfl, hblocks, List.mem_singleton]
        exact ⟨fun heq => (Option.some.inj heq).symm, fun heq => congrArg some heq.symm⟩
      · rw [if_neg hid]
        cases holder with
        | inl id' =>
          have hne : id' ≠ id := fun heq => hid (congrArg Sum.inl heq)
          change ((s.setEntry id new bytes).find? fun e => e.threadId = id').bind
            Entry.description = some b ↔ _
          rw [State.find?_setEntry, if_neg hne]
          rfl
        | inr c' => exact Iff.rfl
  refine ⟨State.nodup_setEntry h.ids _ _ _, ?_, State.once_goto h.once ?_, ?_⟩
  · intro holder holder' b hheld hheld'
    exact hback _ _ (h.exclusive _ _ b ((hholds _ _).1 hheld) ((hholds _ _).1 hheld'))
  · rw [hstage]
    cases (s.entry id).bind Entry.description with
    | none => exact List.nodup_nil
    | some a => exact List.nodup_singleton a
  · intro b
    change s.heap b ≠ none ↔ _
    rw [h.held b]
    have hinvolution : ∀ holder, back (back holder) = holder := by
      intro holder
      simp only [back]
      split_ifs <;> simp_all
    constructor
    · rintro ⟨holder, hheld⟩
      exact ⟨back holder, (hholds _ _).2 ((hinvolution holder).symm ▸ hheld)⟩
    · rintro ⟨holder, hheld⟩
      exact ⟨back holder, (hholds _ _).1 hheld⟩

end Owned

end Ldk.ThreadDescription
