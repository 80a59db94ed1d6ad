import Ldk.LocalStorage.Owners

/-!
# What becomes of the values in slots

Every value that was stored in an FLS slot is still there, or another one was stored over it, or it
was taken and given to the callback it was stored for.

- `Sound`: what holds of slots and values.
- `Leaving`: what is known of threads that exit and of TEBs that are deleted.
- `Accounted`: the accounts of the values.
- `slots_are_disciplined`: in runs whose steps are `Disciplined`, every state is sound.
- `freed_index_keeps_values`: a run in which an index is freed and keeps a value.
-/

namespace Ldk.LocalStorage

open TransitionSystem TebMap

/-! ## The property -/

/-- What holds of slots and values. -/
structure Sound (s : State) : Prop where
  /-- Since the index was allocated, no thread holds anything but what it has stored. -/
  fresh : ∀ a kind i x o, s.slots a kind i = some x → s.owners kind i = some o → x.owner = some o
  /-- An index that is free holds nothing. -/
  free : ∀ a kind i, s.bitmaps kind i = false → s.slots a kind i = none
  /-- A value that has been taken was passed to the callback it was stored for, if there is one. -/
  passed : ∀ t ∈ s.taken, ∃ o, t.stored.owner = some o ∧ t.callback = o.callback
  once : (s.taken.map fun t => t.stored.number).Nodup
  /-- A value is in its slot until it is taken or another one is stored over it. -/
  kept : ∀ x ∈ s.stores,
    x ∈ s.overwritten ∨ (∃ t ∈ s.taken, t.stored = x) ∨ ∃ a i, s.slots a .fls i = some x
  left : ∀ t ∈ s.taken, ∀ a i x, s.slots a .fls i = some x → x.number ≠ t.stored.number
  /-- A thread that has exited leaves nothing, and neither does a TEB that is deleted. -/
  exited : ∀ a ∈ s.exited, ∀ i, s.slots a .fls i = none
  deleted : ∀ a, s.runDown a = true → ∀ kind i, s.slots a kind i = none
  steady : ∀ p thread, s.calls p ≠ some ⟨thread, .astray⟩

/-! ## The invariants -/

/-- What is known of the exits. -/
structure Leaving (s : State) : Prop where
  bounded : ∀ a i x, s.slots a .fls i = some x → i < slotsSize .fls
  own : ∀ p thread teb i read, s.calls p = some ⟨thread, .invoking teb i read none⟩ → teb = thread
  terminating : ∀ p thread teb i read rest,
    s.calls p = some ⟨thread, .invoking teb i read (some rest)⟩ → s.terminating = true
  unlisted : s.terminating = true → s.tebList = []
  past : ∀ p thread teb i read rest, s.calls p = some ⟨thread, .invoking teb i read rest⟩ →
    ∀ j < i, s.slots teb .fls j = none
  read : ∀ p thread teb i callback rest x,
    s.calls p = some ⟨thread, .invoking teb i (some callback) rest⟩ →
      s.slots teb .fls i = some x → ∃ o, x.owner = some o ∧ callback = o.callback
  exited : ∀ a ∈ s.exited, ∀ i, s.slots a .fls i = none
  deleted : ∀ a, s.runDown a = true → ∀ kind i, s.slots a kind i = none

/-- Every value that was stored is accounted for. -/
structure Accounted (s : State) : Prop where
  below : ∀ x ∈ s.stores, x.number < s.number
  place : ∀ a i x, s.slots a .fls i = some x → x ∈ s.stores
  apart : ∀ a i b j x y, s.slots a .fls i = some x → s.slots b .fls j = some y →
    x.number = y.number → a = b ∧ i = j
  settled : ∀ t ∈ s.taken, t.stored ∈ s.stores
  left : ∀ t ∈ s.taken, ∀ a i x, s.slots a .fls i = some x → x.number ≠ t.stored.number
  once : (s.taken.map fun t => t.stored.number).Nodup
  passed : ∀ t ∈ s.taken, ∃ o, t.stored.owner = some o ∧ t.callback = o.callback
  kept : ∀ x ∈ s.stores,
    x ∈ s.overwritten ∨ (∃ t ∈ s.taken, t.stored = x) ∨ ∃ a i, s.slots a .fls i = some x

variable {s s' : State} {p a teb thread index : Nat} {kind : SlotKind} {stage : Stage}
  {callback : Option Callback}

/-! ## Exits -/

namespace Leaving

/-- Slots are cleared and calls that do not leave move, and nothing else changes that matters. -/
theorem shrink (h : Leaving s)
    (hslots : ∀ b k j x, s'.slots b k j = some x → s.slots b k j = some x)
    (hcalls : ∀ q thread teb i read rest, s'.calls q = some ⟨thread, .invoking teb i read rest⟩ →
      s.calls q = some ⟨thread, .invoking teb i read rest⟩)
    (hterminating : s'.terminating = s.terminating) (htebs : s'.tebList = s.tebList)
    (hexited : s'.exited = s.exited) (hrunDown : s'.runDown = s.runDown) : Leaving s' := by
  have hnone {b j : Nat} {k : SlotKind} (hold : s.slots b k j = none) : s'.slots b k j = none := by
    cases hx : s'.slots b k j with
    | none => rfl
    | some x => cases hold.symm.trans (hslots b k j x hx)
  refine ⟨?_, ?_, ?_, ?_, ?_, ?_, ?_, ?_⟩
  · exact fun b i x hx => h.bounded b i x (hslots b .fls i x hx)
  · exact fun q thread teb i read hq => h.own q thread teb i read (hcalls _ _ _ _ _ _ hq)
  · intro q thread teb i read rest hq
    rw [hterminating]
    exact h.terminating q thread teb i read rest (hcalls _ _ _ _ _ _ hq)
  · rw [hterminating, htebs]
    exact h.unlisted
  · exact fun q thread teb i read rest hq j hj =>
      hnone (h.past q thread teb i read rest (hcalls _ _ _ _ _ _ hq) j hj)
  · exact fun q thread teb i callback rest x hq hx =>
      h.read q thread teb i callback rest x (hcalls _ _ _ _ _ _ hq) (hslots _ _ _ _ hx)
  · rw [hexited]
    exact fun b hb i => hnone (h.exited b hb i)
  · rw [hrunDown]
    exact fun b hb k i => hnone (h.deleted b hb k i)

/-- A call that does not leave moves. -/
theorem setCall (h : Leaving s) {call : Option Call} (hnew : ∀ thread teb i read rest,
      call ≠ some ⟨thread, .invoking teb i read rest⟩) : Leaving (s.setCall p call) := by
  have hcalls (q thread teb i : Nat) (read : Option (Option Callback)) (rest : Option (List Nat))
      (hq : (s.setCall p call).calls q = some ⟨thread, .invoking teb i read rest⟩) :
      s.calls q = some ⟨thread, .invoking teb i read rest⟩ := by
    rw [s.calls_setCall] at hq
    split at hq
    · exact absurd hq (hnew thread teb i read rest)
    · exact hq
  exact h.shrink (fun _ _ _ _ hx => hx) hcalls rfl rfl rfl rfl

theorem allocates (h : Leaving s) {o : Owner} (he : s.Allocates s' a kind index o) :
    Leaving s' := by
  apply h.shrink _ _ he.terminating he.tebList he.exited he.runDown
  · intro b k j x hx
    rw [he.slots] at hx
    split at hx
    · cases hx
    · exact hx
  · intro q thread teb i read rest hq
    rwa [he.calls] at hq

theorem releases (h : Leaving s) {o : Owner} {stage : Stage}
    (he : s.Releases s' p a kind index o stage) : Leaving s' := by
  apply h.shrink _ _ he.terminating he.tebList he.exited he.runDown
  · intro b k j x hx
    rwa [he.slots] at hx
  · intro q thread teb i read rest hq
    rw [he.calls, Function.update_apply] at hq
    split at hq
    · obtain ⟨-, hstage⟩ := Call.mk.inj (Option.some.inj hq)
      have hfrees := he.frees
      rw [hstage] at hfrees
      cases hfrees
    · exact hq

theorem setSlot_none (h : Leaving s) (a : Nat) (kind : SlotKind) (index : Nat) :
    Leaving (s.setSlot a kind index none) :=
  h.shrink (fun _ _ _ _ => State.slots_setSlot_none) (fun _ _ _ _ _ _ hq => hq) rfl rfl rfl rfl

theorem take (h : Leaving s) (a index : Nat) (callback : Option Callback) :
    Leaving (s.take a index callback) :=
  h.shrink (fun _ _ _ _ => State.slots_setSlot_none) (fun _ _ _ _ _ _ hq => hq) rfl rfl rfl rfl

theorem clear (h : Leaving s) (p : Nat) : Leaving (s.clear p) := by
  unfold State.clear
  split
  · next thread index callback initialTeb teb hcall =>
    have hcall' : (s.setSlot teb .tls index none).calls p =
        some ⟨thread, .sweeping .tls index callback initialTeb teb false⟩ := hcall
    rw [State.goto_eq hcall']
    exact (h.setSlot_none teb .tls index).setCall nofun
  · next thread index callback initialTeb teb hcall =>
    have hcall' : (s.take teb index callback).calls p =
        some ⟨thread, .sweeping .fls index callback initialTeb teb false⟩ := hcall
    rw [State.goto_eq hcall']
    exact (h.take teb index callback).setCall nofun
  · exact h

theorem goto (h : Leaving s) {stage : Stage}
    (hstage : ∀ teb i read rest, stage ≠ .invoking teb i read rest) : Leaving (s.goto p stage) := by
  unfold State.goto
  split
  · exact h
  · apply h.setCall
    intro thread teb i read rest heq
    exact hstage teb i read rest (Call.mk.inj (Option.some.inj heq)).2

theorem hop (h : Leaving s) (p : Nat) : Leaving (s.hop p) := by
  unfold State.hop
  split
  · dsimp only
    split
    · split
      · exact h.goto nofun
      · exact h.goto nofun
    · split
      · exact h.goto nofun
      · exact h.goto nofun
  · exact h

theorem clearBits (h : Leaving s) (p : Nat) : Leaving (s.clearBits p) := by
  unfold State.clearBits
  split
  · next thread kind index hcall =>
    have hbit : Leaving (s.setBit kind index false) :=
      h.shrink (fun _ _ _ _ hx => hx) (fun _ _ _ _ _ _ hq => hq) rfl rfl rfl rfl
    exact hbit.setCall nofun
  · exact h

/-- A thread that has not exited stores a value where its exit has not been. -/
theorem store (h : Leaving s) (howned : Owned s) {x : Option Stored} (hruns : s.Runs a)
    (hlt : kind = .fls → index < slotsSize .fls)
    (hpast : ∀ y, x = some y → kind = .fls → ∀ p next read rest,
      s.calls p = some ⟨a, .invoking a next read rest⟩ → next ≤ index) :
    Leaving (s.setSlot a kind index x) := by
  have hslots {b j : Nat} {k : SlotKind} {y : Stored}
      (hy : (s.setSlot a kind index x).slots b k j = some y) :
      (b = a ∧ k = kind ∧ j = index ∧ x = some y) ∨ s.slots b k j = some y := by
    change (if b = a ∧ k = kind ∧ j = index then x else s.slots b k j) = some y at hy
    split at hy
    · next heq => exact .inl ⟨heq.1, heq.2.1, heq.2.2, hy⟩
    · exact .inr hy
  have hnone {b j : Nat} {k : SlotKind} (hold : s.slots b k j = none)
      (hother : ∀ y, ¬ (b = a ∧ k = kind ∧ j = index ∧ x = some y)) :
      (s.setSlot a kind index x).slots b k j = none := by
    cases hy : (s.setSlot a kind index x).slots b k j with
    | none => rfl
    | some y =>
      rcases hslots hy with heq | hy
      · exact absurd heq (hother y)
      · cases hold.symm.trans hy
  -- an exit that goes over the thread's slots is its own
  have hthread {q thread i : Nat} {read : Option (Option Callback)} {rest : Option (List Nat)}
      (hq : s.calls q = some ⟨thread, .invoking a i read rest⟩) : thread = a := by
    cases rest with
    | none => exact (h.own q thread a i read hq).symm
    | some rest =>
      have hterminating := h.terminating q thread a i read rest hq
      rw [hruns.serving] at hterminating
      cases hterminating
  refine ⟨?_, h.own, h.terminating, h.unlisted, ?_, ?_, ?_, ?_⟩
  · intro b i y hy
    rcases hslots hy with ⟨-, hkind, rfl, -⟩ | hold
    · exact hlt hkind.symm
    · exact h.bounded b i y hold
  · intro q thread teb i read rest hq j hj
    apply hnone (h.past q thread teb i read rest hq j hj)
    rintro y ⟨rfl, hkind, rfl, hy⟩
    obtain rfl := hthread hq
    exact absurd hj (Nat.not_lt_of_le (hpast y hy hkind.symm q i read rest hq))
  · intro q thread teb i callback rest y hq hy
    rcases hslots hy with ⟨rfl, -, -, -⟩ | hold
    · obtain rfl := hthread hq
      cases hruns.calling q _ hq
    · exact h.read q thread teb i callback rest y hq hold
  · intro b hb i
    apply hnone (h.exited b hb i)
    rintro y ⟨rfl, -⟩
    exact hruns.stays hb
  · intro b hb k i
    apply hnone (h.deleted b hb k i)
    rintro y ⟨rfl, -⟩
    have hdown : s.runDown b = true := hb
    cases (howned.alive b hruns.listed).symm.trans hdown

theorem tlsSetValue (h : Leaving s) (howned : Owned s) (hruns : s.Runs a) (index value : Nat) :
    Leaving (s.tlsSetValue a index value) := by
  unfold State.tlsSetValue
  split
  · exact h
  · exact h.store howned hruns nofun fun _ _ hkind => SlotKind.noConfusion hkind

theorem flsSetValue (h : Leaving s) (howned : Owned s) (hruns : s.Runs a) {value : Nat}
    (hg : Disciplined s (.flsSetValue a index value)) :
    Leaving (s.flsSetValue a index value) := by
  unfold State.flsSetValue
  split
  · exact h
  · next hlt =>
    have hpast : ∀ y, (if value = 0 then none else
        some (⟨value, s.number, s.owners .fls index⟩ : Stored)) = some y → SlotKind.fls = .fls →
          ∀ p next read rest, s.calls p = some ⟨a, .invoking a next read rest⟩ → next ≤ index := by
      intro y hy _
      split at hy
      · cases hy
      · next hvalue => exact (hg hvalue (Nat.lt_of_not_le hlt)).2
    exact (h.store howned hruns (fun _ => Nat.lt_of_not_le hlt) hpast).shrink
      (fun _ _ _ _ hx => hx) (fun _ _ _ _ _ _ hq => hq) rfl rfl rfl rfl

/-- A call begins to go over the slots of a TEB. -/
theorem invoke (h : Leaving s) (p thread : Nat) {teb : Nat} {rest : Option (List Nat)}
    (hown : rest = none → teb = thread) (hterminating : rest ≠ none → s.terminating = true) :
    Leaving (s.invoke p thread teb rest) := by
  have hcalls {q thread' teb' i : Nat} {read : Option (Option Callback)}
      {rest' : Option (List Nat)} (hq : (s.invoke p thread teb rest).calls q =
        some ⟨thread', .invoking teb' i read rest'⟩) :
      (thread' = thread ∧ teb' = teb ∧ i = (if s.runDown teb then slotsSize .fls else 0) ∧
        read = none ∧ rest' = rest) ∨
        s.calls q = some ⟨thread', .invoking teb' i read rest'⟩ := by
    unfold State.invoke at hq
    rw [s.calls_setCall] at hq
    split at hq
    · obtain ⟨rfl, hstage⟩ := Call.mk.inj (Option.some.inj hq)
      obtain ⟨rfl, rfl, rfl, rfl⟩ := Stage.invoking.inj hstage
      exact .inl ⟨rfl, rfl, rfl, rfl, rfl⟩
    · exact .inr hq
  refine ⟨h.bounded, ?_, ?_, h.unlisted, ?_, ?_, h.exited, h.deleted⟩
  · intro q thread' teb' i read hq
    rcases hcalls hq with ⟨rfl, rfl, -, -, hrest⟩ | hq
    · exact hown hrest.symm
    · exact h.own q thread' teb' i read hq
  · intro q thread' teb' i read rest' hq
    rcases hcalls hq with ⟨-, -, -, -, hrest⟩ | hq
    · exact hterminating (by rw [← hrest]; nofun)
    · exact h.terminating q thread' teb' i read rest' hq
  · intro q thread' teb' i read rest' hq j hj
    rcases hcalls hq with ⟨-, rfl, rfl, -, -⟩ | hq
    · split at hj
      · next hdown => exact h.deleted _ hdown .fls j
      · exact absurd hj (Nat.not_lt_zero j)
    · exact h.past q thread' teb' i read rest' hq j hj
  · intro q thread' teb' i callback rest' x hq hx
    rcases hcalls hq with ⟨-, -, -, hread, -⟩ | hq
    · cases hread
    · exact h.read q thread' teb' i callback rest' x hq hx

/-- A call that goes over the slots of a TEB moves on. -/
theorem move (h : Leaving s) {i i' : Nat} {read read' : Option (Option Callback)}
    {rest : Option (List Nat)} (hcall : s.calls p = some ⟨thread, .invoking teb i read rest⟩)
    (hpast : ∀ j < i', s.slots teb .fls j = none)
    (hread : ∀ callback x, read' = some callback → s.slots teb .fls i' = some x →
      ∃ o, x.owner = some o ∧ callback = o.callback) :
    Leaving (s.setCall p (some ⟨thread, .invoking teb i' read' rest⟩)) := by
  have hcalls {q thread' teb' j : Nat} {r : Option (Option Callback)}
      {rest' : Option (List Nat)}
      (hq : (s.setCall p (some ⟨thread, .invoking teb i' read' rest⟩)).calls q =
        some ⟨thread', .invoking teb' j r rest'⟩) :
      (thread' = thread ∧ teb' = teb ∧ j = i' ∧ r = read' ∧ rest' = rest) ∨
        s.calls q = some ⟨thread', .invoking teb' j r rest'⟩ := by
    rw [s.calls_setCall] at hq
    split at hq
    · obtain ⟨rfl, hstage⟩ := Call.mk.inj (Option.some.inj hq)
      obtain ⟨rfl, rfl, rfl, rfl⟩ := Stage.invoking.inj hstage
      exact .inl ⟨rfl, rfl, rfl, rfl, rfl⟩
    · exact .inr hq
  refine ⟨h.bounded, ?_, ?_, h.unlisted, ?_, ?_, h.exited, h.deleted⟩
  · intro q thread' teb' j r hq
    rcases hcalls hq with ⟨rfl, rfl, -, -, rfl⟩ | hq
    · exact h.own p _ _ i read hcall
    · exact h.own q thread' teb' j r hq
  · intro q thread' teb' j r rest' hq
    rcases hcalls hq with ⟨rfl, rfl, -, -, rfl⟩ | hq
    · exact h.terminating p _ _ i read rest' hcall
    · exact h.terminating q thread' teb' j r rest' hq
  · intro q thread' teb' j r rest' hq
    rcases hcalls hq with ⟨-, rfl, rfl, -, -⟩ | hq
    · exact hpast
    · exact h.past q thread' teb' j r rest' hq
  · intro q thread' teb' j callback rest' x hq hx
    rcases hcalls hq with ⟨-, rfl, rfl, hr, -⟩ | hq
    · exact hread callback x hr.symm hx
    · exact h.read q thread' teb' j callback rest' x hq hx

/-- The callback that is read is that of the values in the slot. -/
theorem readCallback (h : Leaving s) (howned : Owned s) (hg : Disciplined s (.readCallback p)) :
    Leaving (s.readCallback p) := by
  unfold State.readCallback
  split
  · next thread teb index rest hcall =>
    rw [State.goto_eq hcall]
    apply h.move hcall
    · exact h.past p thread teb index none rest hcall
    · intro callback x hread hx
      obtain rfl := Option.some.inj hread
      have hsome := hg thread teb index rest hcall (by rw [hx]; nofun)
      obtain ⟨o, ho, howner⟩ := howned.owner hx (howned.not_frees hsome)
      refine ⟨o, ho, ?_⟩
      rw [howned.callbacks, howner]
      rfl
  · exact h

theorem takeSlot (h : Leaving s) (p : Nat) : Leaving (s.takeSlot p) := by
  unfold State.takeSlot
  split
  · next thread teb index callback rest hcall =>
    have hcall' : (s.take teb index callback).calls p =
        some ⟨thread, .invoking teb index (some callback) rest⟩ := hcall
    have htaken := h.take teb index callback
    rw [State.goto_eq hcall']
    apply htaken.move hcall'
    · intro j hj
      rcases Nat.lt_succ_iff_lt_or_eq.1 hj with hlt | rfl
      · exact htaken.past p thread teb index _ rest hcall' j hlt
      · exact if_pos ⟨rfl, rfl, rfl⟩
    · exact nofun
  · exact h

/-- At the end of the loop nothing is left in the slots. -/
theorem null_of_end (h : Leaving s) {i : Nat} {read : Option (Option Callback)}
    {rest : Option (List Nat)} (hcall : s.calls p = some ⟨thread, .invoking teb i read rest⟩)
    (hend : slotsSize .fls ≤ i) (j : Nat) : s.slots teb .fls j = none := by
  by_cases hj : j < i
  · exact h.past p thread teb i read rest hcall j hj
  · cases hx : s.slots teb .fls j with
    | none => rfl
    | some x => exact absurd (Nat.lt_of_lt_of_le (h.bounded teb j x hx) hend) hj

theorem deleteTeb (h : Leaving s) (a : Nat) : Leaving (s.deleteTeb a) := by
  have hslots {b j : Nat} {k : SlotKind} {x : Stored}
      (hx : (s.deleteTeb a).slots b k j = some x) : s.slots b k j = some x := by
    change (if b = a then fun _ _ => none else s.slots b) k j = some x at hx
    split at hx
    · cases hx
    · exact hx
  have hnone {b j : Nat} {k : SlotKind} (hold : s.slots b k j = none) :
      (s.deleteTeb a).slots b k j = none := by
    cases hx : (s.deleteTeb a).slots b k j with
    | none => rfl
    | some x => cases hold.symm.trans (hslots hx)
  refine ⟨?_, h.own, h.terminating, h.unlisted, ?_, ?_, ?_, ?_⟩
  · exact fun b i x hx => h.bounded b i x (hslots hx)
  · exact fun q thread teb i read rest hq j hj => hnone (h.past q thread teb i read rest hq j hj)
  · exact fun q thread teb i callback rest x hq hx =>
      h.read q thread teb i callback rest x hq (hslots hx)
  · exact fun b hb i => hnone (h.exited b hb i)
  · intro b hb k i
    change Function.update s.runDown a true b = true at hb
    rw [Function.update_apply] at hb
    split at hb
    · next heq =>
      show (if b = a then fun _ _ => none else s.slots b) k i = none
      rw [if_pos heq]
    · exact hnone (h.deleted b hb k i)

theorem finish (h : Leaving s) (hen : Enabled s (.finish p)) : Leaving (s.finish p) := by
  obtain ⟨thread, teb, index, rest, hcall, hend⟩ := hen
  unfold State.finish
  rw [hcall]
  cases rest with
  | none =>
    have hgone : Leaving (s.setCall p none) := h.setCall nofun
    refine { hgone with exited := ?_ }
    intro b hb i
    rcases List.mem_cons.1 hb with rfl | hb
    · exact h.null_of_end hcall hend i
    · exact h.exited b hb i
  | some rest =>
    cases rest with
    | nil => exact (h.deleteTeb teb).setCall nofun
    | cons next rest =>
      apply (h.deleteTeb teb).invoke
      · exact nofun
      · exact fun _ => h.terminating p thread teb index none _ hcall

theorem terminateTebMap (h : Leaving s) (p a : Nat) :
    Leaving (s.terminateTebMap p a) := by
  have hoff : Leaving { s with terminating := true, tebList := [] } := {
    bounded := h.bounded
    own := h.own
    terminating := fun _ _ _ _ _ _ _ => rfl
    unlisted := fun _ => rfl
    past := h.past
    read := h.read
    exited := h.exited
    deleted := h.deleted }
  unfold State.terminateTebMap
  dsimp only
  cases s.tebList with
  | nil => exact hoff
  | cons teb rest =>
    apply hoff.invoke
    · exact nofun
    · exact fun _ => rfl

end Leaving

/-! ## Accounts -/

namespace Accounted

/-- Nothing happens to the values. -/
theorem congr (h : Accounted s) (hslots : ∀ a i, s'.slots a .fls i = s.slots a .fls i)
    (hstores : s'.stores = s.stores) (hover : s'.overwritten = s.overwritten)
    (htaken : s'.taken = s.taken) (hnumber : s.number ≤ s'.number) : Accounted s' where
  below x hx := by
    rw [hstores] at hx
    exact Nat.lt_of_lt_of_le (h.below x hx) hnumber
  place a i x hx := by
    rw [hslots] at hx
    rw [hstores]
    exact h.place a i x hx
  apart a i b j x y hx hy hnumbers := by
    rw [hslots] at hx hy
    exact h.apart a i b j x y hx hy hnumbers
  settled t ht := by
    rw [htaken] at ht
    rw [hstores]
    exact h.settled t ht
  left t ht a i x hx := by
    rw [htaken] at ht
    rw [hslots] at hx
    exact h.left t ht a i x hx
  once := by
    rw [htaken]
    exact h.once
  passed t ht := by
    rw [htaken] at ht
    exact h.passed t ht
  kept x hx := by
    rw [hstores] at hx
    rw [hover, htaken]
    simp only [hslots]
    exact h.kept x hx

/-- A value is taken from a slot and passed to its callback. -/
theorem take (h : Accounted s) (hpassed : ∀ x, s.slots a .fls index = some x →
    ∃ o, x.owner = some o ∧ callback = o.callback) : Accounted (s.take a index callback) := by
  cases hslot : s.slots a .fls index with
  | none =>
    apply h.congr
    · intro b j
      show (if b = a ∧ SlotKind.fls = SlotKind.fls ∧ j = index then none else s.slots b .fls j) = _
      split
      · next heq =>
        obtain ⟨rfl, -, rfl⟩ := heq
        exact hslot.symm
      · rfl
    · rfl
    · rfl
    · show ((s.slots a .fls index).map _).toList ++ s.taken = s.taken
      rw [hslot]
      rfl
    · exact Nat.le_refl _
  | some x =>
    have hslots (b j : Nat) (y : Stored) (hy : (s.take a index callback).slots b .fls j = some y) :
        s.slots b .fls j = some y ∧ ¬ (b = a ∧ j = index) := by
      change (if b = a ∧ SlotKind.fls = SlotKind.fls ∧ j = index then none else s.slots b .fls j) =
        some y at hy
      split at hy
      · cases hy
      · next hne => exact ⟨hy, fun heq => hne ⟨heq.1, rfl, heq.2⟩⟩
    -- what was in the slot is handed on, once
    have htaken : (s.take a index callback).taken = ⟨x, callback⟩ :: s.taken := by
      show ((s.slots a .fls index).map _).toList ++ s.taken = _
      rw [hslot]
      rfl
    refine ⟨h.below, ?_, ?_, ?_, ?_, ?_, ?_, ?_⟩
    · exact fun b j y hy => h.place b j y (hslots b j y hy).1
    · exact fun b i c j y z hy hz => h.apart b i c j y z (hslots b i y hy).1 (hslots c j z hz).1
    · intro t ht
      rw [htaken] at ht
      rcases List.mem_cons.1 ht with rfl | ht
      · exact h.place a index x hslot
      · exact h.settled t ht
    · intro t ht b j y hy
      obtain ⟨hy, hne⟩ := hslots b j y hy
      rw [htaken] at ht
      rcases List.mem_cons.1 ht with rfl | ht
      · exact fun hnumber => hne (h.apart b j a index y x hy hslot hnumber)
      · exact h.left t ht b j y hy
    · rw [htaken]
      refine List.nodup_cons.2 ⟨fun hmem => ?_, h.once⟩
      obtain ⟨t, ht, hnumber⟩ := List.mem_map.1 hmem
      exact h.left t ht a index x hslot hnumber.symm
    · intro t ht
      rw [htaken] at ht
      rcases List.mem_cons.1 ht with rfl | ht
      · exact hpassed x hslot
      · exact h.passed t ht
    · intro y hy
      rw [htaken]
      rcases h.kept y hy with hover | ⟨t, ht, rfl⟩ | ⟨b, j, hplace⟩
      · exact .inl hover
      · exact .inr (.inl ⟨t, List.mem_cons_of_mem _ ht, rfl⟩)
      · by_cases hsame : b = a ∧ j = index
        · obtain ⟨rfl, rfl⟩ := hsame
          obtain rfl := Option.some.inj (hslot.symm.trans hplace)
          exact .inr (.inl ⟨_, List.mem_cons_self, rfl⟩)
        · refine .inr (.inr ⟨b, j, ?_⟩)
          show (if b = a ∧ SlotKind.fls = SlotKind.fls ∧ j = index then none else _) = _
          rw [if_neg fun heq => hsame ⟨heq.1, heq.2.2⟩]
          exact hplace

/-- A value is stored, over the one that was there. -/
theorem flsSetValue (h : Accounted s) (a index value : Nat) :
    Accounted (s.flsSetValue a index value) := by
  unfold State.flsSetValue
  split
  · exact h
  · have hfresh (x : Stored) (hx : (if value = 0 then none else
        some (⟨value, s.number, s.owners .fls index⟩ : Stored)) = some x) : x.number = s.number := by
      split at hx
      · cases hx
      · obtain rfl := Option.some.inj hx
        rfl
    dsimp only
    generalize (if value = 0 then none else
      some (⟨value, s.number, s.owners .fls index⟩ : Stored)) = new at hfresh ⊢
    -- a slot has the new value, or that of before
    have hslots (b j : Nat) (y : Stored)
        (hy : (s.setSlot a .fls index new).slots b .fls j = some y) :
        (b = a ∧ j = index ∧ new = some y) ∨ s.slots b .fls j = some y ∧ ¬ (b = a ∧ j = index) := by
      change (if b = a ∧ SlotKind.fls = SlotKind.fls ∧ j = index then new else s.slots b .fls j) =
        some y at hy
      split at hy
      · next heq => exact .inl ⟨heq.1, heq.2.2, hy⟩
      · next hne => exact .inr ⟨hy, fun heq => hne ⟨heq.1, rfl, heq.2⟩⟩
    have hold (b j : Nat) (y : Stored) (hy : s.slots b .fls j = some y) : y.number < s.number :=
      h.below y (h.place b j y hy)
    have hmem (y : Stored) : y ∈ new.toList ++ s.stores ↔ new = some y ∨ y ∈ s.stores := by
      exact List.mem_append.trans (or_congr_left Option.mem_toList)
    refine ⟨?_, ?_, ?_, ?_, ?_, h.once, h.passed, ?_⟩
    · intro y hy
      show y.number < s.number + 1
      rcases (hmem y).1 hy with hnew | hy
      · rw [hfresh y hnew]
        exact Nat.lt_succ_self _
      · exact Nat.lt_succ_of_lt (h.below y hy)
    · intro b j y hy
      rcases hslots b j y hy with ⟨-, -, hnew⟩ | ⟨hy, -⟩
      · exact (hmem y).2 (.inl hnew)
      · exact (hmem y).2 (.inr (h.place b j y hy))
    · intro b i c j y z hy hz hnumber
      rcases hslots b i y hy with ⟨rfl, rfl, hnew⟩ | ⟨hyold, -⟩
      · rcases hslots c j z hz with ⟨rfl, rfl, -⟩ | ⟨hzold, -⟩
        · exact ⟨rfl, rfl⟩
        · have hlt := hold c j z hzold
          rw [← hnumber, hfresh y hnew] at hlt
          exact absurd hlt (Nat.lt_irrefl _)
      · rcases hslots c j z hz with ⟨rfl, rfl, hnew⟩ | ⟨hzold, -⟩
        · have hlt := hold b i y hyold
          rw [hnumber, hfresh z hnew] at hlt
          exact absurd hlt (Nat.lt_irrefl _)
        · exact h.apart b i c j y z hyold hzold hnumber
    · exact fun t ht => (hmem _).2 (.inr (h.settled t ht))
    · intro t ht b j y hy
      rcases hslots b j y hy with ⟨-, -, hnew⟩ | ⟨hy, -⟩
      · rw [hfresh y hnew]
        exact (Nat.ne_of_lt (h.below _ (h.settled t ht))).symm
      · exact h.left t ht b j y hy
    · intro y hy
      -- what was in the slot is overwritten, and all else is where it was
      have hplace (hnew : new = some y) : (s.setSlot a .fls index new).slots a .fls index =
          some y := (if_pos ⟨rfl, rfl, rfl⟩).trans hnew
      rcases (hmem y).1 hy with hnew | hy
      · exact .inr (.inr ⟨a, index, hplace hnew⟩)
      · rcases h.kept y hy with hover | htaken | ⟨b, j, hplaced⟩
        · exact .inl (List.mem_append_right _ hover)
        · exact .inr (.inl htaken)
        · by_cases hsame : b = a ∧ j = index
          · obtain ⟨rfl, rfl⟩ := hsame
            exact .inl (List.mem_append_left _ (Option.mem_toList.2 hplaced))
          · refine .inr (.inr ⟨b, j, ?_⟩)
            exact (if_neg fun heq => hsame ⟨heq.1, heq.2.2⟩).trans hplaced

end Accounted

/-! ## Accounts of the steps -/

namespace Accounted

theorem allocates (h : Accounted s) (howned : Owned s) {o : Owner}
    (he : s.Allocates s' a kind index o) : Accounted s' := by
  obtain ⟨hstores, hover, htaken, hnumber⟩ := he.accounts
  apply h.congr _ hstores hover htaken hnumber
  intro b j
  rw [he.slots]
  split
  · -- the slot that is cleared was empty
    next heq =>
    obtain ⟨-, rfl, rfl⟩ := heq
    exact (howned.null_of_clear he.clear b).symm
  · rfl

theorem releases (h : Accounted s) {o : Owner} {stage : Stage}
    (he : s.Releases s' p a kind index o stage) : Accounted s' := by
  obtain ⟨hstores, hover, htaken, hnumber⟩ := he.accounts
  apply h.congr _ hstores hover htaken hnumber
  intro b j
  rw [he.slots]

theorem setCall (h : Accounted s) (p : Nat) (call : Option Call) : Accounted (s.setCall p call) :=
  h.congr (fun _ _ => rfl) rfl rfl rfl (Nat.le_refl _)

theorem goto (h : Accounted s) (p : Nat) (stage : Stage) : Accounted (s.goto p stage) := by
  unfold State.goto
  split
  · exact h
  · exact h.setCall p _

/-- The slots of `TlsSetValue` are none of those that are accounted for. -/
theorem setSlot_tls (h : Accounted s) (a index : Nat) (x : Option Stored) :
    Accounted (s.setSlot a .tls index x) := by
  have hslots (b j : Nat) : (s.setSlot a .tls index x).slots b .fls j = s.slots b .fls j :=
    if_neg fun heq => SlotKind.noConfusion heq.2.1
  exact h.congr hslots rfl rfl rfl (Nat.le_refl _)

theorem tlsSetValue (h : Accounted s) (a index value : Nat) :
    Accounted (s.tlsSetValue a index value) := by
  unfold State.tlsSetValue
  split
  · exact h
  · exact h.setSlot_tls a index _

/-- A sweep finds values of those whose callback it has. -/
theorem clear (h : Accounted s) (howned : Owned s) (p : Nat) : Accounted (s.clear p) := by
  unfold State.clear
  split
  · exact (h.setSlot_tls _ _ _).goto p _
  · next thread index callback initialTeb teb hcall =>
    have hfrees : s.Frees p .fls index := ⟨_, hcall, rfl⟩
    apply (h.take _).goto p
    intro x hx
    obtain ⟨o, ho, howner | ⟨q, thread', c, initialTeb', teb', cleared', hq, hc, -⟩⟩ :=
      howned.slots teb .fls index x hx
    · rw [(howned.freeing p .fls index hfrees).2] at howner
      cases howner
    · obtain rfl := howned.unique p q .fls index hfrees ⟨_, hq, rfl⟩
      obtain ⟨-, hstage⟩ := Call.mk.inj (Option.some.inj (hcall.symm.trans hq))
      cases hstage
      exact ⟨o, ho, hc rfl⟩
  · exact h

theorem hop (h : Accounted s) (p : Nat) : Accounted (s.hop p) := by
  unfold State.hop
  split
  · dsimp only
    split
    · split
      · exact h.goto p _
      · exact h.goto p _
    · split
      · exact h.goto p _
      · exact h.goto p _
  · exact h

theorem clearBits (h : Accounted s) (p : Nat) : Accounted (s.clearBits p) := by
  unfold State.clearBits
  split
  · exact h.congr (fun _ _ => rfl) rfl rfl rfl (Nat.le_refl _)
  · exact h

theorem readCallback (h : Accounted s) (p : Nat) : Accounted (s.readCallback p) := by
  unfold State.readCallback
  split
  · exact h.goto p _
  · exact h

theorem takeSlot (h : Accounted s) (hleaving : Leaving s) (p : Nat) : Accounted (s.takeSlot p) := by
  unfold State.takeSlot
  split
  · next thread teb index callback rest hcall =>
    apply (h.take _).goto p
    intro x hx
    exact hleaving.read p thread teb index callback rest x hcall hx
  · exact h

/-- The slots of a TEB that is deleted are empty. -/
theorem deleteTeb (h : Accounted s) (hempty : ∀ i, s.slots a .fls i = none) :
    Accounted (s.deleteTeb a) := by
  have hslots (b j : Nat) : (s.deleteTeb a).slots b .fls j = s.slots b .fls j := by
    show (if b = a then fun _ _ => none else s.slots b) .fls j = _
    split
    · next heq =>
      rw [heq]
      exact (hempty j).symm
    · rfl
  exact h.congr hslots rfl rfl rfl (Nat.le_refl _)

theorem finish (h : Accounted s) (hleaving : Leaving s) (hen : Enabled s (.finish p)) :
    Accounted (s.finish p) := by
  obtain ⟨thread, teb, index, rest, hcall, hend⟩ := hen
  have hempty := hleaving.null_of_end hcall hend
  unfold State.finish
  rw [hcall]
  cases rest with
  | none => exact h.congr (fun _ _ => rfl) rfl rfl rfl (Nat.le_refl _)
  | some rest =>
    cases rest with
    | nil => exact (h.deleteTeb hempty).setCall p none
    | cons next rest => exact (h.deleteTeb hempty).setCall p _

theorem terminateTebMap (h : Accounted s) (p a : Nat) : Accounted (s.terminateTebMap p a) := by
  have hoff : Accounted { s with terminating := true, tebList := [] } :=
    h.congr (fun _ _ => rfl) rfl rfl rfl (Nat.le_refl _)
  unfold State.terminateTebMap
  dsimp only
  cases s.tebList with
  | nil => exact hoff
  | cons teb rest => exact hoff.setCall p _

end Accounted

/-! ## All steps -/

structure Inv (s : State) : Prop where
  owned : Owned s
  leaving : Leaving s
  accounted : Accounted s

namespace Inv

theorem alloc (h : Inv s) (a : Nat) (kind : SlotKind) (function : Option Nat) :
    Inv (s.alloc a kind function) := by
  rcases s.alloc_cases a kind function with heq | ⟨index, o, he⟩
  · rw [heq]
    exact h
  · exact ⟨h.owned.allocates he, h.leaving.allocates he, h.accounted.allocates h.owned he⟩

theorem releases (h : Inv s) {o : Owner} {stage : Stage}
    (he : s.Releases s' p a kind index o stage) (hp : s.calls p = none) (hruns : s.Runs a) :
    Inv s' :=
  ⟨h.owned.releases he hp hruns, h.leaving.releases he, h.accounted.releases he⟩

theorem tlsFree (h : Inv s) (hen : Enabled s (.tlsFree p a index)) :
    Inv (s.tlsFree p a index) := by
  obtain ⟨hp, hruns, hlock⟩ := hen
  rcases State.tlsFree_cases (h.owned.alive a hruns.listed) (h.owned.owned_of_tls hruns hlock)
    with heq | ⟨o, stage, he⟩
  · rw [heq]
    exact h
  · exact h.releases he hp hruns

theorem flsFree (h : Inv s) (hen : Enabled s (.flsFree p a index))
    (hg : Disciplined s (.flsFree p a index)) : Inv (s.flsFree p a index) := by
  obtain ⟨hp, hruns, -⟩ := hen
  rcases State.flsFree_cases (h.owned.callbacks index) (h.owned.alive a hruns.listed) hg with
    heq | ⟨o, stage, he⟩
  · rw [heq]
    exact h
  · exact h.releases he hp hruns

/-- A call that has no number yet frees nothing. -/
theorem exitThread (h : Inv s) (hp : s.calls p = none) (a : Nat) : Inv (s.invoke p a a none) := by
  refine ⟨h.owned.invoke ?_ a a none, h.leaving.invoke p a (fun _ => rfl) ?_,
    h.accounted.setCall p _⟩
  · rintro kind i ⟨call, hcall, -⟩
    cases hp.symm.trans hcall
  · intro hrest
    exact absurd rfl hrest

theorem finish (h : Inv s) (hen : Enabled s (.finish p)) : Inv (s.finish p) := by
  refine ⟨h.owned.finish p ?_, h.leaving.finish hen, h.accounted.finish h.leaving hen⟩
  intro thread teb i read rest hcall
  exact h.leaving.unlisted (h.leaving.terminating p thread teb i read rest hcall)

/-- Every step that is disciplined keeps the invariant. -/
theorem step (h : Inv s) (action : Action) (hen : Enabled s action)
    (hg : Disciplined s action) : Inv (localStorage.next s action) := by
  cases action with
  | tlsAlloc a => exact h.alloc a .tls none
  | flsAlloc a lpCallback => exact h.alloc a .fls lpCallback
  | tlsSetValue a index value =>
    exact ⟨h.owned.tlsSetValue hen hg, h.leaving.tlsSetValue h.owned hen index value,
      h.accounted.tlsSetValue a index value⟩
  | flsSetValue a index value =>
    exact ⟨h.owned.flsSetValue hen hg, h.leaving.flsSetValue h.owned hen hg,
      h.accounted.flsSetValue a index value⟩
  | tlsFree p a index => exact h.tlsFree hen
  | flsFree p a index => exact h.flsFree hen hg
  | clear p => exact ⟨h.owned.clear p, h.leaving.clear p, h.accounted.clear h.owned p⟩
  | hop p => exact ⟨h.owned.hop p, h.leaving.hop p, h.accounted.hop p⟩
  | clearBits p => exact ⟨h.owned.clearBits p, h.leaving.clearBits p, h.accounted.clearBits p⟩
  | exitThread p a => exact h.exitThread hen.1 a
  | readCallback p =>
    exact ⟨h.owned.readCallback p, h.leaving.readCallback h.owned hg, h.accounted.readCallback p⟩
  | takeSlot p =>
    exact ⟨h.owned.takeSlot p, h.leaving.takeSlot p, h.accounted.takeSlot h.leaving p⟩
  | finish p => exact h.finish hen
  | terminateTebMap p a =>
    exact ⟨h.owned.terminateTebMap hen.2 p a, h.leaving.terminateTebMap p a,
      h.accounted.terminateTebMap p a⟩

theorem init {tebs : List Nat} (hnodup : tebs.Nodup) : Inv (initialState tebs) where
  owned := {
    nodup := hnodup
    alive := fun _ _ => rfl
    bits := nofun
    freeing := by
      rintro p kind i ⟨call, hcall, -⟩
      cases hcall
    held := nofun
    unique := by
      rintro p q kind i ⟨call, hcall, -⟩
      cases hcall
    callbacks := fun _ => rfl
    slots := nofun
    sweeping := nofun
    steady := nofun
    listed := nofun }
  leaving := {
    bounded := nofun
    own := nofun
    terminating := nofun
    unlisted := nofun
    past := nofun
    read := nofun
    exited := nofun
    deleted := nofun }
  accounted := {
    below := nofun
    place := nofun
    apart := nofun
    settled := nofun
    left := nofun
    once := List.nodup_nil
    passed := nofun
    kept := nofun }

/-- What holds of slots and values follows. -/
theorem sound (h : Inv s) : Sound s where
  fresh a kind i x o hx ho := by
    have hsome : (s.owners kind i).isSome := by
      rw [ho]
      rfl
    obtain ⟨o', ho', howner⟩ := h.owned.owner hx (h.owned.not_frees hsome)
    rw [ho', ← howner, ho]
  free a kind i hbit := h.owned.null_of_clear hbit a
  passed := h.accounted.passed
  once := h.accounted.once
  kept := h.accounted.kept
  left := h.accounted.left
  exited := h.leaving.exited
  deleted := h.leaving.deleted
  steady := h.owned.steady

end Inv

theorem inv_of_reachable : ∀ s, localStorage.Reachable Disciplined s → Inv s := by
  apply System.Reachable.invariant
  · rintro s ⟨tebs, hnodup, rfl⟩
    exact Inv.init hnodup
  · intro s action h hen hg
    exact h.step action hen hg

/-- In every run whose steps are disciplined the slots of an index that is allocated hold what was
stored since, and the values that are left go to the callbacks of those they were stored for. -/
theorem slots_are_disciplined (hreach : localStorage.Reachable Disciplined s) : Sound s :=
  (inv_of_reachable s hreach).sound

/-- While nothing is in flight every thread runs, and may take the lock. -/
theorem State.runs_of_quiet (hcalls : ∀ q, s.calls q = none) (hlisted : a ∈ s.tebList)
    (hstays : a ∉ s.exited) (hserving : s.terminating = false) : s.Runs a ∧ s.LockFree a := by
  refine ⟨⟨hlisted, hstays, hserving, ?_⟩, ?_⟩
  · intro q stage hq
    cases (hcalls q).symm.trans hq
  · intro q call hq
    cases (hcalls q).symm.trans hq

/-- A thread allocates an FLS index with a callback, and another one stores a value under it. -/
def storingRun : List Action := [.flsAlloc 1 (some 7), .flsSetValue 2 0 5]

theorem stored_value_is_sound :
    (localStorage.exec (initialState [1, 2]) storingRun).slots 2 .fls 0 =
      some ⟨5, 1, some ⟨0, some ⟨7, 0⟩⟩⟩ ∧
    Sound (localStorage.exec (initialState [1, 2]) storingRun) := by
  have hadmits : localStorage.Admits Disciplined (initialState [1, 2]) storingRun := by
    refine ⟨⟨?_, trivial⟩, ⟨?_, ?_⟩, trivial⟩
    · exact State.runs_of_quiet (fun _ => rfl) (by decide) (by decide) rfl
    · exact (State.runs_of_quiet (fun _ => rfl) (by decide) (by decide) rfl).1
    · intro _ _
      exact ⟨rfl, fun p next read rest hcall => nomatch hcall⟩
  refine ⟨rfl, slots_are_disciplined ?_⟩
  exact System.reachable_exec _ _ ⟨[1, 2], by decide, rfl⟩ hadmits

/-- An FLS index without a callback is freed while a thread holds a value in it, and is allocated
again. -/
def reusingRun : List Action :=
  [.flsAlloc 1 none, .flsSetValue 2 0 5, .flsFree 0 1 0, .clearBits 0, .flsAlloc 1 (some 7)]

/-- `FlsFree` clears no slot of an index without a callback, and the next owner finds the value. -/
theorem freed_index_keeps_values :
    ¬ ∀ s, localStorage.Reachable Always s → Sound s := by
  intro hall
  have hadmits : localStorage.Admits Always (initialState [1, 2]) reusingRun := by
    refine ⟨⟨?_, trivial⟩, ⟨?_, trivial⟩, ⟨?_, trivial⟩, ⟨?_, trivial⟩, ⟨?_, trivial⟩, trivial⟩
    · exact State.runs_of_quiet (fun _ => rfl) (by decide) (by decide) rfl
    · exact (State.runs_of_quiet (fun _ => rfl) (by decide) (by decide) rfl).1
    · exact ⟨rfl, State.runs_of_quiet (fun _ => rfl) (by decide) (by decide) rfl⟩
    · exact ⟨1, .fls, 0, rfl⟩
    · apply State.runs_of_quiet
      · intro q
        by_cases hq : q = 0
        · rw [hq]
          rfl
        · show Function.update (Function.update (fun _ => none) 0 _) 0 none q = none
          rw [Function.update_of_ne hq, Function.update_of_ne hq]
      · decide
      · decide
      · rfl
  have hsound := hall _ (System.reachable_exec _ _ ⟨[1, 2], by decide, rfl⟩ hadmits)
  have hfresh := hsound.fresh 2 .fls 0 ⟨5, 1, some ⟨0, none⟩⟩ ⟨2, some ⟨7, 2⟩⟩ rfl rfl
  cases hfresh

end Ldk.LocalStorage
