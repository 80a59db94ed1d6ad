import Ldk.LocalStorage.State

/-!
# Who the values in slots belong to

A value in a slot was stored for whoever the index is allocated for, or else a sweep is on its way
to it, with the callback it was stored for.

- `Disciplined`: the condition on the steps.
- `Owned`: the invariant, and that every disciplined step keeps it.
- `State.alloc_cases`, `State.tlsFree_cases`, `State.flsFree_cases`: what it is to allocate an index
  and to begin to free one.
-/

namespace Ldk.LocalStorage

open TransitionSystem TebMap CircularSweep
open Tls (findClearBit)

/-! ## Discipline -/

/-- The condition on the steps. -/
def Disciplined (s : State) : Action → Prop
  | .tlsSetValue _ index value =>
    value ≠ 0 → index < slotsSize .tls → (s.owners .tls index).isSome
  | .flsSetValue a index value => value ≠ 0 → index < slotsSize .fls →
    (s.owners .fls index).isSome ∧
      -- the exit of the thread has not gone past the index
      ∀ p next read rest, s.calls p = some ⟨a, .invoking a next read rest⟩ → next ≤ index
  | .flsFree _ _ index => s.bitmaps .fls index = true → (s.owners .fls index).isSome ∧
    (s.flsCallbacks index = none → ∀ b, s.slots b .fls index = none)
  | .readCallback p => ∀ thread teb index rest,
    s.calls p = some ⟨thread, .invoking teb index none rest⟩ →
      s.slots teb .fls index ≠ none → (s.owners .fls index).isSome
  | _ => True

/-! ## The invariant -/

/-- The index that a call frees. -/
def Stage.frees : Stage → Option (SlotKind × Nat)
  | .sweeping kind index _ _ _ _ | .clearing kind index => some (kind, index)
  | _ => none

def State.Frees (s : State) (p : Nat) (kind : SlotKind) (i : Nat) : Prop :=
  ∃ call, s.calls p = some call ∧ call.stage.frees = some (kind, i)

/-- A sweep for the owner is still to come to the slot. -/
def State.Sweeps (s : State) (a : Nat) (kind : SlotKind) (i : Nat) (o : Owner) : Prop :=
  ∃ p thread callback initialTeb teb cleared,
    s.calls p = some ⟨thread, .sweeping kind i callback initialTeb teb cleared⟩ ∧
      (kind = .fls → callback = o.callback) ∧ Ahead s.tebList initialTeb teb a ∧
      (cleared = true → a ≠ teb)

/-- What is known of indices, sweeps and the values in slots. -/
structure Owned (s : State) : Prop where
  nodup : s.tebList.Nodup
  alive : ∀ a ∈ s.tebList, s.runDown a = false
  bits : ∀ kind i o, s.owners kind i = some o → s.bitmaps kind i = true
  freeing : ∀ p kind i, s.Frees p kind i → s.bitmaps kind i = true ∧ s.owners kind i = none
  held : ∀ kind i, s.bitmaps kind i = true →
    (s.owners kind i).isSome ∨ ∃ p, s.Frees p kind i
  unique : ∀ p q kind i, s.Frees p kind i → s.Frees q kind i → p = q
  callbacks : ∀ i, s.flsCallbacks i = (s.owners .fls i).bind Owner.callback
  slots : ∀ a kind i x, s.slots a kind i = some x →
    ∃ o, x.owner = some o ∧ (s.owners kind i = some o ∨ s.Sweeps a kind i o)
  sweeping : ∀ p thread kind i callback initialTeb teb cleared,
    s.calls p = some ⟨thread, .sweeping kind i callback initialTeb teb cleared⟩ →
      initialTeb ∈ s.tebList ∧ teb ∈ s.tebList
  steady : ∀ p thread, s.calls p ≠ some ⟨thread, .astray⟩
  listed : s.terminating = false → ∀ a kind i x, s.slots a kind i = some x → a ∈ s.tebList

variable {s s' : State} {p a teb thread index : Nat} {kind : SlotKind} {stage : Stage}
  {callback : Option Callback}

/-! ## Calls -/

theorem State.goto_eq {call : Call} (h : s.calls p = some call) (stage : Stage) :
    s.goto p stage = s.setCall p (some ⟨call.teb, stage⟩) := by
  unfold State.goto
  rw [h]

theorem State.calls_setCall (s : State) (p q : Nat) (call : Option Call) :
    (s.setCall p call).calls q = if q = p then call else s.calls q := by
  unfold State.setCall
  exact Function.update_apply _ _ _ _

/-- The call of another number stays. -/
theorem State.calls_of_ne {q : Nat} {call : Option Call} (hne : q ≠ p) :
    (s.setCall p call).calls q = s.calls q := by
  rw [s.calls_setCall, if_neg hne]

theorem State.calls_self (s : State) (p : Nat) (call : Option Call) :
    (s.setCall p call).calls p = call := by
  rw [s.calls_setCall, if_pos rfl]

/-- What is freed after a call has moved. -/
theorem State.frees_setCall {q i : Nat} {call : Option Call}
    (h : (s.setCall p call).Frees q kind i) :
    (q = p ∧ ∃ c, call = some c ∧ c.stage.frees = some (kind, i)) ∨ q ≠ p ∧ s.Frees q kind i := by
  obtain ⟨c, hc, hfrees⟩ := h
  by_cases hq : q = p
  · subst hq
    rw [s.calls_self] at hc
    exact .inl ⟨rfl, c, hc, hfrees⟩
  · rw [State.calls_of_ne hq] at hc
    exact .inr ⟨hq, c, hc, hfrees⟩

/-- The call of another number frees what it freed. -/
theorem State.Frees.setCall {q i : Nat} {call : Option Call} (h : s.Frees q kind i) (hne : q ≠ p) :
    (s.setCall p call).Frees q kind i := by
  obtain ⟨c, hc, hfrees⟩ := h
  exact ⟨c, (State.calls_of_ne hne).trans hc, hfrees⟩

/-- A sweep frees its index. -/
theorem State.Sweeps.frees {i : Nat} {o : Owner} (h : s.Sweeps a kind i o) :
    ∃ p, s.Frees p kind i := by
  obtain ⟨p, thread, callback, initialTeb, teb, cleared, hcall, -⟩ := h
  exact ⟨p, _, hcall, rfl⟩

/-- The sweep of another call goes on. -/
theorem State.Sweeps.setCall {i : Nat} {o : Owner} {call : Option Call} (h : s.Sweeps a kind i o)
    (hp : ¬ s.Frees p kind i) : (s.setCall p call).Sweeps a kind i o := by
  obtain ⟨q, thread, callback, initialTeb, teb, cleared, hcall, hrest⟩ := h
  refine ⟨q, thread, callback, initialTeb, teb, cleared, ?_, hrest⟩
  rw [State.calls_of_ne]
  · exact hcall
  · rintro rfl
    exact hp ⟨_, hcall, rfl⟩

/-! ## Who has an index -/

namespace Owned

/-- A value under an index that is not being freed belongs to whoever has the index. -/
theorem owner (h : Owned s) {i : Nat} {x : Stored} (hx : s.slots a kind i = some x)
    (hfree : ∀ p, ¬ s.Frees p kind i) : ∃ o, x.owner = some o ∧ s.owners kind i = some o := by
  obtain ⟨o, ho, howner | hsweeps⟩ := h.slots a kind i x hx
  · exact ⟨o, ho, howner⟩
  · obtain ⟨p, hp⟩ := hsweeps.frees
    exact absurd hp (hfree p)

theorem not_frees (h : Owned s) {i : Nat} (howner : (s.owners kind i).isSome) (p : Nat) :
    ¬ s.Frees p kind i := by
  intro hfrees
  rw [(h.freeing p kind i hfrees).2] at howner
  cases howner

/-- A thread that takes the lock finds no TLS index that is being freed. -/
theorem owned_of_tls (h : Owned s) (hruns : s.Runs a) (hlock : s.LockFree a)
    (hbit : s.bitmaps .tls index = true) : (s.owners .tls index).isSome := by
  rcases h.held .tls index hbit with howner | ⟨q, ⟨thread, stage⟩, hcall, hfrees⟩
  · exact howner
  · cases stage with
    | sweeping kind i callback initialTeb teb cleared =>
      obtain rfl : thread = a := hlock q _ hcall trivial
      obtain ⟨rfl, -⟩ := hruns.calling q _ hcall
      cases hfrees
    | clearing kind i =>
      obtain rfl : thread = a := hlock q _ hcall trivial
      exact (hruns.calling q _ hcall).elim
    | invoking | astray => cases hfrees

/-- An index whose bit is clear has no values. -/
theorem null_of_clear (h : Owned s) {i : Nat} (hbit : s.bitmaps kind i = false) (a : Nat) :
    s.slots a kind i = none := by
  cases hx : s.slots a kind i with
  | none => rfl
  | some x =>
    have hset : s.bitmaps kind i = true := by
      obtain ⟨o, -, howner | hsweeps⟩ := h.slots a kind i x hx
      · exact h.bits kind i o howner
      · obtain ⟨p, hp⟩ := hsweeps.frees
        exact (h.freeing p kind i hp).1
    rw [hbit] at hset
    cases hset

/-- A call that frees nothing moves. -/
theorem setCall (h : Owned s) {call : Option Call} (hold : ∀ kind i, ¬ s.Frees p kind i)
    (hnew : ∀ c, call = some c → c.stage.frees = none ∧ c.stage ≠ .astray) :
    Owned (s.setCall p call) where
  nodup := h.nodup
  alive := h.alive
  bits := h.bits
  freeing q kind i hq := by
    rcases State.frees_setCall hq with ⟨-, c, hc, hfrees⟩ | ⟨-, hq⟩
    · rw [(hnew c hc).1] at hfrees
      cases hfrees
    · exact h.freeing q kind i hq
  held kind i hbit := by
    rcases h.held kind i hbit with howner | ⟨q, hq⟩
    · exact .inl howner
    · refine .inr ⟨q, hq.setCall ?_⟩
      rintro rfl
      exact hold kind i hq
  unique q r kind i hq hr := by
    rcases State.frees_setCall hq with ⟨-, c, hc, hfrees⟩ | ⟨-, hq⟩
    · rw [(hnew c hc).1] at hfrees
      cases hfrees
    · rcases State.frees_setCall hr with ⟨-, c, hc, hfrees⟩ | ⟨-, hr⟩
      · rw [(hnew c hc).1] at hfrees
        cases hfrees
      · exact h.unique q r kind i hq hr
  callbacks := h.callbacks
  slots a kind i x hx := by
    obtain ⟨o, ho, howner | hsweeps⟩ := h.slots a kind i x hx
    · exact ⟨o, ho, .inl howner⟩
    · exact ⟨o, ho, .inr (hsweeps.setCall (hold kind i))⟩
  sweeping q thread kind i callback initialTeb teb cleared hcall := by
    rw [s.calls_setCall] at hcall
    split at hcall
    · have hfrees := (hnew _ hcall).1
      cases hfrees
    · exact h.sweeping q thread kind i callback initialTeb teb cleared hcall
  steady q thread hcall := by
    rw [s.calls_setCall] at hcall
    split at hcall
    · exact (hnew _ hcall).2 rfl
    · exact h.steady q thread hcall
  listed := h.listed

/-- Some slots are cleared, and nothing else changes that matters. -/
theorem shrink (h : Owned s) (hslots : ∀ a kind i x, s'.slots a kind i = some x →
      s.slots a kind i = some x)
    (htebs : s'.tebList = s.tebList) (halive : ∀ a ∈ s.tebList, s'.runDown a = false)
    (hbits : s'.bitmaps = s.bitmaps) (hcallbacks : s'.flsCallbacks = s.flsCallbacks)
    (hcalls : s'.calls = s.calls) (howners : s'.owners = s.owners)
    (hterminating : s'.terminating = s.terminating) : Owned s' where
  nodup := htebs ▸ h.nodup
  alive a ha := halive a (htebs ▸ ha)
  bits := by
    rw [howners, hbits]
    exact h.bits
  freeing p kind i hp := by
    unfold State.Frees at hp
    rw [hcalls] at hp
    rw [howners, hbits]
    exact h.freeing p kind i hp
  held kind i hbit := by
    rw [hbits] at hbit
    unfold State.Frees
    rw [howners, hcalls]
    exact h.held kind i hbit
  unique p q kind i hp hq := by
    unfold State.Frees at hp hq
    rw [hcalls] at hp hq
    exact h.unique p q kind i hp hq
  callbacks := by
    rw [hcallbacks, howners]
    exact h.callbacks
  slots a kind i x hx := by
    unfold State.Sweeps
    rw [howners, hcalls, htebs]
    exact h.slots a kind i x (hslots a kind i x hx)
  sweeping := by
    rw [hcalls, htebs]
    exact h.sweeping
  steady := by
    rw [hcalls]
    exact h.steady
  listed hserving a kind i x hx := by
    rw [hterminating] at hserving
    rw [htebs]
    exact h.listed hserving a kind i x (hslots a kind i x hx)

end Owned

/-! ## What the steps do -/

/-- An index is allocated. -/
structure State.Allocates (s s' : State) (a : Nat) (kind : SlotKind) (index : Nat) (o : Owner) :
    Prop where
  clear : s.bitmaps kind index = false
  slots : ∀ b k j, s'.slots b k j =
    if b = a ∧ k = kind ∧ j = index then none else s.slots b k j
  bitmaps : ∀ k j, s'.bitmaps k j = if k = kind ∧ j = index then true else s.bitmaps k j
  owners : ∀ k j, s'.owners k j = if k = kind ∧ j = index then some o else s.owners k j
  callbacks : ∀ j, s'.flsCallbacks j =
    if kind = .fls ∧ j = index then o.callback else s.flsCallbacks j
  runDown : s'.runDown = s.runDown
  tebList : s'.tebList = s.tebList
  calls : s'.calls = s.calls
  terminating : s'.terminating = s.terminating
  exited : s'.exited = s.exited
  accounts : s'.stores = s.stores ∧ s'.overwritten = s.overwritten ∧ s'.taken = s.taken ∧
    s.number ≤ s'.number

/-- A call begins to free an index. -/
structure State.Releases (s s' : State) (p a : Nat) (kind : SlotKind) (index : Nat) (o : Owner)
    (stage : Stage) : Prop where
  owner : s.owners kind index = some o
  frees : stage.frees = some (kind, index)
  /-- It sweeps the TEBs, or there is nothing to sweep. -/
  sweeps : (∃ callback, stage = .sweeping kind index callback a a false ∧
      (kind = .fls → callback = o.callback)) ∨
    stage = .clearing kind index ∧ ∀ b, s.slots b kind index = none
  slots : s'.slots = s.slots
  bitmaps : s'.bitmaps = s.bitmaps
  owners : ∀ k j, s'.owners k j = if k = kind ∧ j = index then none else s.owners k j
  callbacks : ∀ j, s'.flsCallbacks j =
    if kind = .fls ∧ j = index then none else s.flsCallbacks j
  runDown : s'.runDown = s.runDown
  tebList : s'.tebList = s.tebList
  calls : s'.calls = Function.update s.calls p (some ⟨a, stage⟩)
  terminating : s'.terminating = s.terminating
  exited : s'.exited = s.exited
  accounts : s'.stores = s.stores ∧ s'.overwritten = s.overwritten ∧ s'.taken = s.taken ∧
    s.number ≤ s'.number

theorem State.alloc_cases (s : State) (a : Nat) (kind : SlotKind) (function : Option Nat) :
    s.alloc a kind function = s ∨
      ∃ index o, s.Allocates (s.alloc a kind function) a kind index o := by
  unfold State.alloc
  cases hfind : findClearBit (s.bitmaps kind) with
  | none => exact .inl rfl
  | some index =>
    refine .inr ⟨index, ⟨s.number, function.map fun f => ⟨f, s.number⟩⟩, ?_⟩
    cases kind with
    | tls =>
      exact {
        clear := (Tls.findClearBit_some hfind).2
        slots := fun _ _ _ => rfl
        bitmaps := fun _ _ => rfl
        owners := fun _ _ => rfl
        callbacks := fun j => (if_neg fun h => SlotKind.noConfusion h.1).symm
        runDown := rfl
        tebList := rfl
        calls := rfl
        terminating := rfl
        exited := rfl
        accounts := ⟨rfl, rfl, rfl, Nat.le_succ _⟩ }
    | fls =>
      exact {
        clear := (Tls.findClearBit_some hfind).2
        slots := fun _ _ _ => rfl
        bitmaps := fun _ _ => rfl
        owners := fun _ _ => rfl
        callbacks := fun j => by
          show Function.update s.flsCallbacks index _ j = _
          rw [Function.update_apply]
          by_cases hj : j = index
          · rw [if_pos hj, if_pos ⟨rfl, hj⟩]
          · rw [if_neg hj, if_neg fun h => hj h.2]
        runDown := rfl
        tebList := rfl
        calls := rfl
        terminating := rfl
        exited := rfl
        accounts := ⟨rfl, rfl, rfl, Nat.le_succ _⟩ }

theorem State.tlsFree_cases (halive : s.runDown a = false)
    (howned : s.bitmaps .tls index = true → (s.owners .tls index).isSome) :
    s.tlsFree p a index = s ∨
      ∃ o stage, s.Releases (s.tlsFree p a index) p a .tls index o stage := by
  unfold State.tlsFree
  split
  · exact .inl rfl
  · split
    · next hbit =>
      obtain ⟨o, howner⟩ := Option.isSome_iff_exists.1 (howned hbit)
      rw [if_neg (by rw [halive]; exact Bool.false_ne_true)]
      refine .inr ⟨o, .sweeping .tls index none a a false, ?_⟩
      exact {
        owner := howner
        frees := rfl
        sweeps := .inl ⟨none, rfl, nofun⟩
        slots := rfl
        bitmaps := rfl
        owners := fun _ _ => rfl
        callbacks := fun j => (if_neg fun h => SlotKind.noConfusion h.1).symm
        runDown := rfl
        tebList := rfl
        calls := rfl
        terminating := rfl
        exited := rfl
        accounts := ⟨rfl, rfl, rfl, Nat.le_refl _⟩ }
    · exact .inl rfl

theorem State.flsFree_cases (hcallbacks : s.flsCallbacks index =
      (s.owners .fls index).bind Owner.callback) (halive : s.runDown a = false)
    (hg : Disciplined s (.flsFree p a index)) :
    s.flsFree p a index = s ∨
      ∃ o stage, s.Releases (s.flsFree p a index) p a .fls index o stage := by
  unfold State.flsFree
  split
  · exact .inl rfl
  · split
    · next hbit =>
      obtain ⟨hsome, hempty⟩ := hg hbit
      obtain ⟨o, howner⟩ := Option.isSome_iff_exists.1 hsome
      have hnone (j : Nat) : Function.update s.flsCallbacks index none j =
          if SlotKind.fls = .fls ∧ j = index then none else s.flsCallbacks j := by
        rw [Function.update_apply]
        by_cases hj : j = index
        · rw [if_pos hj, if_pos ⟨rfl, hj⟩]
        · rw [if_neg hj, if_neg fun h => hj h.2]
      rw [howner] at hcallbacks
      cases hcallback : s.flsCallbacks index with
      | none =>
        refine .inr ⟨o, .clearing .fls index, ?_⟩
        exact {
          owner := howner
          frees := rfl
          sweeps := .inr ⟨rfl, hempty hcallback⟩
          slots := rfl
          bitmaps := rfl
          owners := fun _ _ => rfl
          callbacks := hnone
          runDown := rfl
          tebList := rfl
          calls := rfl
          terminating := rfl
          exited := rfl
          accounts := ⟨rfl, rfl, rfl, Nat.le_refl _⟩ }
      | some callback =>
        dsimp only
        rw [if_neg (by rw [halive]; exact Bool.false_ne_true)]
        refine .inr ⟨o, .sweeping .fls index (some callback) a a false, ?_⟩
        exact {
          owner := howner
          frees := rfl
          sweeps := .inl ⟨some callback, rfl, fun _ => hcallback.symm.trans hcallbacks⟩
          slots := rfl
          bitmaps := rfl
          owners := fun _ _ => rfl
          callbacks := hnone
          runDown := rfl
          tebList := rfl
          calls := rfl
          terminating := rfl
          exited := rfl
          accounts := ⟨rfl, rfl, rfl, Nat.le_refl _⟩ }
    · exact .inl rfl

namespace Owned

/-- The index belongs to whom it was found for, and holds nothing. -/
theorem allocates (h : Owned s) {o : Owner} (he : s.Allocates s' a kind index o) : Owned s' := by
  have hbit := he.clear
  have hslots {b j : Nat} {k : SlotKind} {x : Stored} (hx : s'.slots b k j = some x) :
      s.slots b k j = some x := by
    rw [he.slots] at hx
    split at hx
    · cases hx
    · exact hx
  have hfrees {q j : Nat} {k : SlotKind} (hq : s'.Frees q k j) : s.Frees q k j := by
    unfold State.Frees at hq
    rwa [he.calls] at hq
  have hne {q j : Nat} {k : SlotKind} (hq : s.Frees q k j) : ¬ (k = kind ∧ j = index) := by
    rintro ⟨rfl, rfl⟩
    rw [(h.freeing q k j hq).1] at hbit
    cases hbit
  refine ⟨he.tebList ▸ h.nodup, ?_, ?_, ?_, ?_, ?_, ?_, ?_, ?_, ?_, ?_⟩
  · rw [he.tebList, he.runDown]
    exact h.alive
  · intro k j o' ho
    rw [he.owners] at ho
    rw [he.bitmaps]
    split
    · rfl
    · next hother =>
      rw [if_neg hother] at ho
      exact h.bits k j o' ho
  · intro q k j hq
    have hold := hfrees hq
    rw [he.owners, he.bitmaps, if_neg (hne hold), if_neg (hne hold)]
    exact h.freeing q k j hold
  · intro k j hset
    rw [he.bitmaps] at hset
    unfold State.Frees
    rw [he.owners, he.calls]
    split at hset
    · next heq =>
      rw [if_pos heq]
      exact .inl rfl
    · next hother =>
      rw [if_neg hother]
      exact h.held k j hset
  · exact fun q r k j hq hr => h.unique q r k j (hfrees hq) (hfrees hr)
  · intro j
    rw [he.callbacks, he.owners]
    by_cases hnew : SlotKind.fls = kind ∧ j = index
    · rw [if_pos hnew, if_pos ⟨hnew.1.symm, hnew.2⟩]
      rfl
    · rw [if_neg hnew, if_neg fun heq => hnew ⟨heq.1.symm, heq.2⟩]
      exact h.callbacks j
  · intro b k j x hx
    have hold := hslots hx
    have hother : ¬ (k = kind ∧ j = index) := by
      rintro ⟨rfl, rfl⟩
      rw [h.null_of_clear hbit b] at hold
      cases hold
    unfold State.Sweeps
    rw [he.owners, if_neg hother, he.calls, he.tebList]
    exact h.slots b k j x hold
  · rw [he.calls, he.tebList]
    exact h.sweeping
  · rw [he.calls]
    exact h.steady
  · intro hserving b k j x hx
    rw [he.terminating] at hserving
    rw [he.tebList]
    exact h.listed hserving b k j x (hslots hx)

/-- What is held under the index is to be swept. -/
theorem releases (h : Owned s) {o : Owner} {stage : Stage}
    (he : s.Releases s' p a kind index o stage) (hp : s.calls p = none) (hruns : s.Runs a) :
    Owned s' := by
  have hbit := h.bits kind index o he.owner
  have hcalls (q : Nat) : s'.calls q = if q = p then some ⟨a, stage⟩ else s.calls q := by
    rw [he.calls]
    exact Function.update_apply _ _ _ _
  -- the slot is freed by this call, and by no other one
  have hfrees {q j : Nat} {k : SlotKind} (hq : s'.Frees q k j) :
      (q = p ∧ k = kind ∧ j = index) ∨ s.Frees q k j := by
    obtain ⟨c, hc, hfrees⟩ := hq
    rw [hcalls] at hc
    split at hc
    · next heq =>
      obtain rfl := Option.some.inj hc
      obtain ⟨hk, hj⟩ := Prod.mk.inj (Option.some.inj (he.frees.symm.trans hfrees))
      exact .inl ⟨heq, hk.symm, hj.symm⟩
    · exact .inr ⟨c, hc, hfrees⟩
  have hnone (q : Nat) : ¬ s.Frees q kind index := h.not_frees (by rw [he.owner]; rfl) q
  refine ⟨he.tebList ▸ h.nodup, ?_, ?_, ?_, ?_, ?_, ?_, ?_, ?_, ?_, ?_⟩
  · rw [he.tebList, he.runDown]
    exact h.alive
  · intro k j o' ho
    rw [he.owners] at ho
    rw [he.bitmaps]
    split at ho
    · cases ho
    · exact h.bits k j o' ho
  · intro q k j hq
    rw [he.owners, he.bitmaps]
    rcases hfrees hq with ⟨-, rfl, rfl⟩ | hold
    · exact ⟨hbit, if_pos ⟨rfl, rfl⟩⟩
    · refine ⟨(h.freeing q k j hold).1, ?_⟩
      split
      · rfl
      · exact (h.freeing q k j hold).2
  · intro k j hset
    rw [he.bitmaps] at hset
    rw [he.owners]
    by_cases hsame : k = kind ∧ j = index
    · obtain ⟨rfl, rfl⟩ := hsame
      exact .inr ⟨p, ⟨a, stage⟩, by rw [hcalls, if_pos rfl], he.frees⟩
    · rw [if_neg hsame]
      rcases h.held k j hset with howner | ⟨q, c, hc, hfrees⟩
      · exact .inl howner
      · refine .inr ⟨q, c, ?_, hfrees⟩
        rw [hcalls, if_neg]
        · exact hc
        · rintro rfl
          cases hp.symm.trans hc
  · intro q r k j hq hr
    rcases hfrees hq with ⟨rfl, rfl, rfl⟩ | hq
    · rcases hfrees hr with ⟨rfl, -, -⟩ | hr
      · rfl
      · exact absurd hr (hnone r)
    · rcases hfrees hr with ⟨rfl, rfl, rfl⟩ | hr
      · exact absurd hq (hnone q)
      · exact h.unique q r k j hq hr
  · intro j
    rw [he.callbacks, he.owners]
    by_cases hold : SlotKind.fls = kind ∧ j = index
    · rw [if_pos hold, if_pos ⟨hold.1.symm, hold.2⟩]
      rfl
    · rw [if_neg hold, if_neg fun heq => hold ⟨heq.1.symm, heq.2⟩]
      exact h.callbacks j
  · intro b k j x hx
    rw [he.slots] at hx
    obtain ⟨o', ho, howner | ⟨q, thread, callback, initialTeb, teb, cleared, hcall, hrest⟩⟩ :=
      h.slots b k j x hx
    · by_cases hsame : k = kind ∧ j = index
      · obtain ⟨rfl, rfl⟩ := hsame
        obtain rfl := Option.some.inj (he.owner.symm.trans howner)
        rcases he.sweeps with ⟨callback, rfl, hcallback⟩ | ⟨-, hempty⟩
        · refine ⟨o, ho, .inr ⟨p, a, callback, a, a, false, ?_, hcallback, ?_, nofun⟩⟩
          · rw [hcalls, if_pos rfl]
          · rw [he.tebList]
            exact ahead_start (h.listed hruns.serving b k j x hx)
        · rw [hempty b] at hx
          cases hx
      · refine ⟨o', ho, .inl ?_⟩
        rw [he.owners, if_neg hsame]
        exact howner
    · refine ⟨o', ho, .inr ⟨q, thread, callback, initialTeb, teb, cleared, ?_, ?_⟩⟩
      · rw [hcalls, if_neg]
        · exact hcall
        · rintro rfl
          rw [hp] at hcall
          cases hcall
      · rw [he.tebList]
        exact hrest
  · intro q thread k j callback initialTeb teb cleared hcall
    rw [hcalls] at hcall
    rw [he.tebList]
    split at hcall
    · obtain ⟨-, hstage⟩ := Call.mk.inj (Option.some.inj hcall)
      rcases he.sweeps with ⟨callback', heq, -⟩ | ⟨heq, -⟩
      · rw [heq] at hstage
        cases hstage
        exact ⟨hruns.listed, hruns.listed⟩
      · rw [heq] at hstage
        cases hstage
    · exact h.sweeping q thread k j callback initialTeb teb cleared hcall
  · intro q thread hcall
    rw [hcalls] at hcall
    split at hcall
    · obtain ⟨-, hstage⟩ := Call.mk.inj (Option.some.inj hcall)
      have hfrees := he.frees
      rw [hstage] at hfrees
      cases hfrees
    · exact h.steady q thread hcall
  · intro hserving b k j x hx
    rw [he.terminating] at hserving
    rw [he.slots] at hx
    rw [he.tebList]
    exact h.listed hserving b k j x hx

end Owned

/-! ## Steps of a sweep -/

namespace Owned

/-- A sweep goes on to a stage that still comes to all it was to come to. -/
theorem advance (h : Owned s) {initialTeb : Nat} {cleared : Bool}
    (hcall : s.calls p = some ⟨thread, .sweeping kind index callback initialTeb teb cleared⟩)
    {stage : Stage} (hfrees : stage.frees = some (kind, index))
    (hlisted : ∀ k j c initialTeb' teb' cleared',
      stage = .sweeping k j c initialTeb' teb' cleared' →
        initialTeb' ∈ s.tebList ∧ teb' ∈ s.tebList)
    (hslots : ∀ b, s.slots b kind index ≠ none → Ahead s.tebList initialTeb teb b →
      (cleared = true → b ≠ teb) → ∃ initialTeb' teb' cleared',
        stage = .sweeping kind index callback initialTeb' teb' cleared' ∧
          Ahead s.tebList initialTeb' teb' b ∧ (cleared' = true → b ≠ teb')) :
    Owned (s.setCall p (some ⟨thread, stage⟩)) := by
  have hold : s.Frees p kind index := ⟨_, hcall, rfl⟩
  -- the sweep still frees the slot
  have hback {q j : Nat} {k : SlotKind}
      (hq : (s.setCall p (some ⟨thread, stage⟩)).Frees q k j) : s.Frees q k j := by
    rcases State.frees_setCall hq with ⟨rfl, c, hc, hkind⟩ | ⟨-, hq⟩
    · obtain rfl := Option.some.inj hc
      obtain ⟨rfl, rfl⟩ := Prod.mk.inj (Option.some.inj (hfrees.symm.trans hkind))
      exact hold
    · exact hq
  refine ⟨h.nodup, h.alive, h.bits, ?_, ?_, ?_, h.callbacks, ?_, ?_, ?_, h.listed⟩
  · exact fun q k j hq => h.freeing q k j (hback hq)
  · intro k j hset
    rcases h.held k j hset with howner | ⟨q, hq⟩
    · exact .inl howner
    · by_cases hqp : q = p
      · subst hqp
        obtain ⟨c, hc, hkind⟩ := hq
        obtain rfl := Option.some.inj (hcall.symm.trans hc)
        exact .inr ⟨q, ⟨thread, stage⟩, s.calls_self q _, hfrees.trans hkind⟩
      · exact .inr ⟨q, hq.setCall hqp⟩
  · exact fun q r k j hq hr => h.unique q r k j (hback hq) (hback hr)
  · intro b k j x hx
    obtain ⟨o, ho, howner | hsweeps⟩ := h.slots b k j x hx
    · exact ⟨o, ho, .inl howner⟩
    · obtain ⟨q, thread', c, initialTeb', teb', cleared', hq, hc, hahead, hne⟩ := hsweeps
      by_cases hqp : q = p
      · subst hqp
        obtain ⟨-, hstage⟩ := Call.mk.inj (Option.some.inj (hcall.symm.trans hq))
        cases hstage
        obtain ⟨initialTeb', teb', cleared', rfl, hahead', hne'⟩ :=
          hslots b (by change s.slots b kind index = some x at hx; rw [hx]; nofun) hahead hne
        exact ⟨o, ho, .inr ⟨q, thread, callback, initialTeb', teb', cleared', s.calls_self q _, hc,
          hahead', hne'⟩⟩
      · refine ⟨o, ho, .inr ⟨q, thread', c, initialTeb', teb', cleared', ?_, hc, hahead, hne⟩⟩
        rw [State.calls_of_ne hqp]
        exact hq
  · intro q thread' k j c initialTeb' teb' cleared' hq
    rw [s.calls_setCall] at hq
    split at hq
    · obtain ⟨-, hstage⟩ := Call.mk.inj (Option.some.inj hq)
      exact hlisted k j c initialTeb' teb' cleared' hstage
    · exact h.sweeping q thread' k j c initialTeb' teb' cleared' hq
  · intro q thread' hq
    rw [s.calls_setCall] at hq
    split at hq
    · obtain ⟨-, hstage⟩ := Call.mk.inj (Option.some.inj hq)
      rw [hstage] at hfrees
      cases hfrees
    · exact h.steady q thread' hq

/-- The slot the sweep is at has been cleared. -/
theorem cleared (h : Owned s) {initialTeb : Nat}
    (hcall : s.calls p = some ⟨thread, .sweeping kind index callback initialTeb teb false⟩)
    (hempty : s.slots teb kind index = none) :
    Owned (s.setCall p (some ⟨thread, .sweeping kind index callback initialTeb teb true⟩)) := by
  apply h.advance hcall rfl
  · rintro k j c initialTeb' teb' cleared' hstage
    cases hstage
    exact h.sweeping p thread kind index callback initialTeb teb false hcall
  · intro b hb hahead _
    refine ⟨initialTeb, teb, true, rfl, hahead, fun _ => ?_⟩
    rintro rfl
    exact hb hempty

/-- The sweep goes on to the next TEB, or it has been around. -/
theorem hop (h : Owned s) (p : Nat) : Owned (s.hop p) := by
  unfold State.hop
  split
  · next thread kind index callback initialTeb teb hcall =>
    obtain ⟨hinitial, hteb⟩ := h.sweeping p _ _ _ _ _ _ _ hcall
    have hnext := next_mem hteb
    dsimp only
    rw [if_neg (by rw [h.alive _ hnext]; exact Bool.false_ne_true)]
    split
    · next heq =>
      rw [State.goto_eq hcall]
      apply h.advance hcall rfl
      · rintro k j c initialTeb' teb' cleared' hstage
        cases hstage
      · -- nothing is ahead but the TEB that has been cleared
        intro b _ hahead hne
        exact absurd (hahead.last h.nodup hteb heq) (hne rfl)
    · next hne =>
      rw [State.goto_eq hcall]
      apply h.advance hcall rfl
      · rintro k j c initialTeb' teb' cleared' hstage
        cases hstage
        exact ⟨hinitial, hnext⟩
      · intro b _ hahead hb
        exact ⟨initialTeb, _, false, rfl, hahead.next h.nodup hteb hinitial hne (hb rfl), nofun⟩
  · exact h

/-- The bit of an index that has been swept is cleared. -/
theorem clearBits (h : Owned s) (p : Nat) : Owned (s.clearBits p) := by
  unfold State.clearBits
  split
  · next thread kind index hcall =>
    have hfrees : s.Frees p kind index := ⟨_, hcall, rfl⟩
    have howner := (h.freeing p kind index hfrees).2
    have hbits (k : SlotKind) (j : Nat) (hne : ¬ (k = kind ∧ j = index)) :
        ((s.setBit kind index false).setCall p none).bitmaps k j = s.bitmaps k j := if_neg hne
    have hback {q j : Nat} {k : SlotKind}
        (hq : ((s.setBit kind index false).setCall p none).Frees q k j) :
        q ≠ p ∧ s.Frees q k j := by
      rcases State.frees_setCall hq with ⟨-, c, hc, -⟩ | hq
      · cases hc
      · exact hq
    -- no other call frees the same slot
    have hother {q j : Nat} {k : SlotKind} (hne : q ≠ p) (hq : s.Frees q k j) :
        ¬ (k = kind ∧ j = index) := by
      rintro ⟨rfl, rfl⟩
      exact hne (h.unique q p k j hq hfrees)
    have hcalls {q : Nat} {c : Call}
        (hq : ((s.setBit kind index false).setCall p none).calls q = some c) :
        s.calls q = some c := by
      rw [State.calls_setCall] at hq
      split at hq
      · cases hq
      · exact hq
    refine ⟨h.nodup, h.alive, ?_, ?_, ?_, ?_, h.callbacks, ?_, ?_, ?_, h.listed⟩
    · intro k j o ho
      rw [hbits]
      · exact h.bits k j o ho
      · rintro ⟨rfl, rfl⟩
        cases howner.symm.trans ho
    · intro q k j hq
      obtain ⟨hne, hq⟩ := hback hq
      rw [hbits k j (hother hne hq)]
      exact h.freeing q k j hq
    · intro k j hset
      change (if k = kind ∧ j = index then false else s.bitmaps k j) = true at hset
      split at hset
      · cases hset
      · next hsame =>
        -- the bit of another slot is held by who held it
        rcases h.held k j hset with howner | ⟨q, hq⟩
        · exact .inl howner
        · have hq' : (s.setBit kind index false).Frees q k j := hq
          refine .inr ⟨q, hq'.setCall ?_⟩
          rintro rfl
          obtain ⟨c, hc, hkind⟩ := hq
          obtain rfl := Option.some.inj (hcall.symm.trans hc)
          obtain ⟨rfl, rfl⟩ := Prod.mk.inj (Option.some.inj hkind)
          exact hsame ⟨rfl, rfl⟩
    · exact fun q r k j hq hr => h.unique q r k j (hback hq).2 (hback hr).2
    · intro b k j x hx
      obtain ⟨o, ho, howner | hsweeps⟩ := h.slots b k j x hx
      · exact ⟨o, ho, .inl howner⟩
      · obtain ⟨q, thread', c, initialTeb, teb, cleared, hq, hrest⟩ := hsweeps
        refine ⟨o, ho, .inr ⟨q, thread', c, initialTeb, teb, cleared, ?_, hrest⟩⟩
        rw [State.calls_of_ne]
        · exact hq
        · rintro rfl
          rw [hcall] at hq
          cases hq
    · exact fun q thread' k j c initialTeb teb cleared hq =>
        h.sweeping q thread' k j c initialTeb teb cleared (hcalls hq)
    · exact fun q thread' hq => h.steady q thread' (hcalls hq)
  · exact h

end Owned

/-! ## Steps on slots -/

theorem State.slots_setSlot_none {b j : Nat} {k : SlotKind} {x : Stored}
    (h : (s.setSlot a kind index none).slots b k j = some x) : s.slots b k j = some x := by
  change (if b = a ∧ k = kind ∧ j = index then none else s.slots b k j) = some x at h
  split at h
  · cases h
  · exact h

namespace Owned

theorem setSlot_none (h : Owned s) (a : Nat) (kind : SlotKind) (index : Nat) :
    Owned (s.setSlot a kind index none) :=
  h.shrink (fun _ _ _ _ => State.slots_setSlot_none) rfl h.alive rfl rfl rfl rfl rfl

theorem take (h : Owned s) (a index : Nat) (callback : Option Callback) :
    Owned (s.take a index callback) :=
  h.shrink (fun _ _ _ _ => State.slots_setSlot_none) rfl h.alive rfl rfl rfl rfl rfl

theorem clear (h : Owned s) (p : Nat) : Owned (s.clear p) := by
  unfold State.clear
  split
  · next thread index callback initialTeb teb hcall =>
    have hcall' : (s.setSlot teb .tls index none).calls p =
        some ⟨thread, .sweeping .tls index callback initialTeb teb false⟩ := hcall
    rw [State.goto_eq hcall']
    exact (h.setSlot_none teb .tls index).cleared hcall' (if_pos ⟨rfl, rfl, rfl⟩)
  · next thread index callback initialTeb teb hcall =>
    have hcall' : (s.take teb index callback).calls p =
        some ⟨thread, .sweeping .fls index callback initialTeb teb false⟩ := hcall
    rw [State.goto_eq hcall']
    exact (h.take teb index callback).cleared hcall' (if_pos ⟨rfl, rfl, rfl⟩)
  · exact h

/-- A thread stores a value under an index that somebody has. -/
theorem store (h : Owned s) {x : Option Stored} (hruns : s.Runs a)
    (hx : ∀ y, x = some y → ∃ o, y.owner = some o ∧ s.owners kind index = some o) :
    Owned (s.setSlot a kind index x) := by
  have hslots {b j : Nat} {k : SlotKind} {y : Stored}
      (hy : (s.setSlot a kind index x).slots b k j = some y) :
      (b = a ∧ k = kind ∧ j = index ∧ x = some y) ∨ s.slots b k j = some y := by
    change (if b = a ∧ k = kind ∧ j = index then x else s.slots b k j) = some y at hy
    split at hy
    · next heq => exact .inl ⟨heq.1, heq.2.1, heq.2.2, hy⟩
    · exact .inr hy
  refine ⟨h.nodup, h.alive, h.bits, h.freeing, h.held, h.unique, h.callbacks, ?_, h.sweeping,
    h.steady, ?_⟩
  · intro b k j y hy
    rcases hslots hy with ⟨rfl, rfl, rfl, hnew⟩ | hold
    · obtain ⟨o, ho, howner⟩ := hx y hnew
      exact ⟨o, ho, .inl howner⟩
    · exact h.slots b k j y hold
  · intro hserving b k j y hy
    rcases hslots hy with ⟨rfl, -⟩ | hold
    · exact hruns.listed
    · exact h.listed hserving b k j y hold

theorem tlsSetValue (h : Owned s) (hruns : s.Runs a) {value : Nat}
    (hg : Disciplined s (.tlsSetValue a index value)) : Owned (s.tlsSetValue a index value) := by
  unfold State.tlsSetValue
  split
  · exact h
  · next hlt =>
    apply h.store hruns
    intro y hy
    split at hy
    · cases hy
    · next hvalue =>
      obtain rfl := Option.some.inj hy
      obtain ⟨o, ho⟩ := Option.isSome_iff_exists.1 (hg hvalue (Nat.lt_of_not_le hlt))
      exact ⟨o, ho, ho⟩

theorem flsSetValue (h : Owned s) (hruns : s.Runs a) {value : Nat}
    (hg : Disciplined s (.flsSetValue a index value)) : Owned (s.flsSetValue a index value) := by
  unfold State.flsSetValue
  split
  · exact h
  · next hlt =>
    have hstored : ∀ y, (if value = 0 then none else
        some (⟨value, s.number, s.owners .fls index⟩ : Stored)) = some y →
        ∃ o, y.owner = some o ∧ s.owners .fls index = some o := by
      intro y hy
      split at hy
      · cases hy
      · next hvalue =>
        obtain rfl := Option.some.inj hy
        obtain ⟨o, ho⟩ := Option.isSome_iff_exists.1 (hg hvalue (Nat.lt_of_not_le hlt)).1
        exact ⟨o, ho, ho⟩
    exact (h.store hruns hstored).shrink (fun _ _ _ _ hy => hy) rfl h.alive rfl rfl rfl rfl rfl

end Owned

/-! ## Steps of those who leave -/

namespace Owned

theorem invoke (h : Owned s) (hp : ∀ kind i, ¬ s.Frees p kind i) (thread teb : Nat)
    (rest : Option (List Nat)) : Owned (s.invoke p thread teb rest) := by
  apply h.setCall hp
  intro c hc
  obtain rfl := Option.some.inj hc
  exact ⟨rfl, nofun⟩

theorem not_frees_of_invoking {i : Nat} {read : Option (Option Callback)}
    {rest : Option (List Nat)} (hcall : s.calls p = some ⟨thread, .invoking teb i read rest⟩)
    (kind : SlotKind) (j : Nat) : ¬ s.Frees p kind j := by
  rintro ⟨c, hc, hfrees⟩
  obtain rfl := Option.some.inj (hcall.symm.trans hc)
  cases hfrees

theorem readCallback (h : Owned s) (p : Nat) : Owned (s.readCallback p) := by
  unfold State.readCallback
  split
  · next hcall =>
    rw [State.goto_eq hcall]
    apply h.setCall (not_frees_of_invoking hcall)
    intro c hc
    obtain rfl := Option.some.inj hc
    exact ⟨rfl, nofun⟩
  · exact h

theorem takeSlot (h : Owned s) (p : Nat) : Owned (s.takeSlot p) := by
  unfold State.takeSlot
  split
  · next thread teb index callback rest hcall =>
    have hcall' : (s.take teb index callback).calls p =
        some ⟨thread, .invoking teb index (some callback) rest⟩ := hcall
    rw [State.goto_eq hcall']
    apply (h.take teb index callback).setCall (not_frees_of_invoking hcall')
    intro c hc
    obtain rfl := Option.some.inj hc
    exact ⟨rfl, nofun⟩
  · exact h

/-- A TEB that is not listed is deleted. -/
theorem deleteTeb (h : Owned s) (hlist : s.tebList = []) (a : Nat) : Owned (s.deleteTeb a) := by
  apply h.shrink
  · intro b k j x hx
    change (if b = a then fun _ _ => none else s.slots b) k j = some x at hx
    split at hx
    · cases hx
    · exact hx
  · rfl
  · intro b hb
    rw [hlist] at hb
    cases hb
  · rfl
  · rfl
  · rfl
  · rfl
  · rfl

theorem finish (h : Owned s) (p : Nat) (hlist : ∀ thread teb i read rest,
      s.calls p = some ⟨thread, .invoking teb i read (some rest)⟩ → s.tebList = []) :
    Owned (s.finish p) := by
  unfold State.finish
  split
  · next hcall =>
    have hgone : Owned (s.setCall p none) := h.setCall (not_frees_of_invoking hcall) nofun
    exact hgone.shrink (fun _ _ _ _ hx => hx) rfl h.alive rfl rfl rfl rfl rfl
  · next thread teb index hcall =>
    exact (h.deleteTeb (hlist _ _ _ _ _ hcall) teb).setCall (not_frees_of_invoking hcall) nofun
  · next thread teb index next rest hcall =>
    exact (h.deleteTeb (hlist _ _ _ _ _ hcall) teb).invoke (not_frees_of_invoking hcall) _ _ _
  · exact h

/-- Without calls the TEBs may be taken off the list. -/
theorem terminateTebMap (h : Owned s) (hcalls : ∀ q, s.calls q = none) (p a : Nat) :
    Owned (s.terminateTebMap p a) := by
  have hnone (q : Nat) (kind : SlotKind) (i : Nat) : ¬ s.Frees q kind i := by
    rintro ⟨c, hc, -⟩
    cases (hcalls q).symm.trans hc
  have hoff : Owned { s with terminating := true, tebList := [] } := {
    nodup := List.nodup_nil
    alive := nofun
    bits := h.bits
    freeing := h.freeing
    held := h.held
    unique := h.unique
    callbacks := h.callbacks
    slots := fun b k j x hx => by
      obtain ⟨o, ho, howner⟩ := h.owner hx fun q => hnone q k j
      exact ⟨o, ho, .inl howner⟩
    sweeping := fun q _ _ _ _ _ _ _ hq => by cases (hcalls q).symm.trans hq
    steady := h.steady
    listed := nofun }
  unfold State.terminateTebMap
  dsimp only
  cases s.tebList with
  | nil => exact hoff
  | cons teb rest => exact hoff.invoke (hnone p) a teb _

end Owned

end Ldk.LocalStorage
