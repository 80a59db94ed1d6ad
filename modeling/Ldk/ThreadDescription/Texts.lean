import Ldk.ThreadDescription.Owners

set_option linter.unusedSectionVars false

/-!
# The descriptions that are given

A description is copied under the mutex from a block that the table holds. What it says is the text
of an id; so it is that of a thread unless the id has been given to another thread meanwhile.

- `Filled`: what is in the blocks.
- `Fits`, `Belongs`: runs in which no id that is still known is given to a new thread, and what the
  table and the calls tell of threads in these runs.
- `descriptions_belong_to_threads`: what holds in all runs, and what in those.
-/

namespace Ldk.ThreadDescription

open TransitionSystem

variable {τ κ : Type} [DecidableEq τ] [DecidableEq κ] {s s' : State τ κ} {c : κ} {a : Nat}
  {stage before : Stage τ}

/-! ## What is in the blocks -/

/-- What is known of the block of a call. -/
def Stage.Filled (heap : Nat → Option (List WCHAR)) : Stage τ → Prop
  | .describing _ _ text => text.length ≤ 2 ^ 15 - 2
  | .allocatingEntry _ _ text a | .setting _ _ text a =>
    text.length ≤ 2 ^ 15 - 2 ∧ heap a = some (text ++ [0])
  | .copying _ _ bytes a => ∃ block, heap a = some block ∧ 2 * block.length = bytes
  | _ => True

/-- What is known of the block of an entry. -/
def Entry.Filled (heap : Nat → Option (List WCHAR)) (e : Entry) : Prop :=
  ∃ a text, e.description = some a ∧ heap a = some (text ++ [0]) ∧
    e.descriptionBytes = 2 * text.length + 2

/-- The blocks hold what they are to hold, and none has been missed. -/
structure Filled (s : State τ κ) : Prop where
  entries : ∀ id e, s.entry id = some e → e.Filled s.heap
  calls : ∀ c, (s.stage c).Filled s.heap
  /-- A call that has changed the table does not fail. -/
  writers : ∀ c ∈ s.writers, (∃ blocks, s.stage c = .freeing blocks) ∨ s.stage c = .returned .ok
  unfaulted : s.faulted = false

theorem Stage.Filled.congr {heap heap' : Nat → Option (List WCHAR)} (h : stage.Filled heap)
    (hsame : ∀ b ∈ stage.blocks, heap' b = heap b) : stage.Filled heap' := by
  cases stage with
  | allocatingEntry thread id text a | setting thread id text a =>
    exact ⟨h.1, (hsame a List.mem_cons_self).trans h.2⟩
  | copying thread id bytes a =>
    obtain ⟨block, hblock, hlength⟩ := h
    exact ⟨block, (hsame a List.mem_cons_self).trans hblock, hlength⟩
  | _ => exact h

theorem Entry.Filled.congr {heap heap' : Nat → Option (List WCHAR)} {e : Entry} (h : e.Filled heap)
    (hsame : ∀ b, e.description = some b → heap' b = heap b) : e.Filled heap' := by
  obtain ⟨a, text, ha, hblock, hbytes⟩ := h
  exact ⟨a, text, ha, (hsame a ha).trans hblock, hbytes⟩

/-- A call moves, and the blocks of the others stay. -/
theorem Filled.move (h : Filled s) (hlist : s'.list = s.list)
    (hwriters : s'.writers = s.writers) (hfaulted : s'.faulted = false)
    (hstage : s'.stage = Function.update s.stage c stage)
    (hsame : ∀ holder b, holder ≠ .inr c → s.Holds holder b → s'.heap b = s.heap b)
    (hfilled : stage.Filled s'.heap)
    (hwriter : c ∈ s.writers → (∃ blocks, stage = .freeing blocks) ∨ stage = .returned .ok) :
    Filled s' := by
  constructor
  case entries =>
    intro id e he
    have he' : s.entry id = some e := by
      unfold State.entry at he ⊢
      rwa [hlist] at he
    apply (h.entries id e he').congr
    intro b hb
    refine hsame (.inl id) b nofun ?_
    change (s.entry id).bind Entry.description = some b
    rw [he']
    exact hb
  case calls =>
    intro c'
    rw [hstage, Function.update_apply]
    split
    · exact hfilled
    · rename_i hne
      exact (h.calls c').congr fun b hb => hsame (.inr c') b (fun heq => hne (Sum.inr.inj heq)) hb
  case writers =>
    intro c' hc'
    rw [hwriters] at hc'
    rw [hstage, Function.update_apply]
    split
    · rename_i heq
      exact hwriter (heq ▸ hc')
    · exact h.writers c' hc'
  case unfaulted => exact hfaulted

/-- The call is not behind the section that changes the table. -/
def Stage.IsOpen : Stage τ → Prop
  | .freeing _ | .returned _ => False
  | _ => True

/-- Such a call is none of those that have changed the table. -/
theorem Filled.notWriter (h : Filled s) (hcall : s.stage c = before) (hopen : before.IsOpen) :
    c ∉ s.writers := by
  intro hc
  rcases h.writers c hc with ⟨blocks, hblocks⟩ | hreturned
  · rw [← hcall, hblocks] at hopen
    exact hopen
  · rw [← hcall, hreturned] at hopen
    exact hopen

/-! ## Where the calls are -/

theorem enabled_allocateDescription {address : Option Nat}
    (h : enabled s (.allocateDescription c address)) :
    (∃ thread id text, s.stage c = .describing thread id text) ∧
      ∀ a ∈ address, s.heap a = none := by
  obtain ⟨hcall, hfree⟩ := h
  refine ⟨?_, hfree⟩
  split at hcall
  · exact ⟨_, _, _, ‹_›⟩
  · exact hcall.elim

theorem enabled_allocateEntry {success : Bool} (h : enabled s (.allocateEntry c success)) :
    ∃ thread id text a, s.stage c = .allocatingEntry thread id text a := by
  simp only [enabled] at h
  split at h
  · exact ⟨_, _, _, _, ‹_›⟩
  · exact h.elim

theorem enabled_setLocked (h : enabled s (.setLocked c)) :
    ∃ thread id text a, s.stage c = .setting thread id text a := by
  simp only [enabled] at h
  split at h
  · exact ⟨_, _, _, _, ‹_›⟩
  · exact h.elim

theorem enabled_freeNext (h : enabled s (.freeNext c)) :
    ∃ blocks, s.stage c = .freeing blocks := by
  simp only [enabled] at h
  split at h
  · exact ⟨_, ‹_›⟩
  · exact h.elim

theorem enabled_measure (h : enabled s (.measure c)) :
    ∃ thread id, s.stage c = .measuring thread id := by
  simp only [enabled] at h
  split at h
  · exact ⟨_, _, ‹_›⟩
  · exact h.elim

theorem enabled_localAlloc {address : Option (Nat × List WCHAR)}
    (h : enabled s (.localAlloc c address)) :
    ∃ thread id bytes, s.stage c = .allocating thread id bytes ∧
      ∀ x ∈ address, s.heap x.1 = none ∧ 2 * x.2.length = bytes := by
  simp only [enabled] at h
  split at h
  · exact ⟨_, _, _, ‹_›, h⟩
  · exact h.elim

theorem enabled_copyLocked (h : enabled s (.copyLocked c)) :
    ∃ thread id bytes a, s.stage c = .copying thread id bytes a := by
  simp only [enabled] at h
  split at h
  · exact ⟨_, _, _, _, ‹_›⟩
  · exact h.elim

theorem enabled_retry (h : enabled s (.retry c)) :
    ∃ thread id a, s.stage c = .discarding thread id a := by
  simp only [enabled] at h
  split at h
  · exact ⟨_, _, _, ‹_›⟩
  · exact h.elim

/-! ## Every step -/

/-- What the table says of an id. -/
def State.Describes (s : State τ κ) (id : Nat) (block : List WCHAR) : Prop :=
  match s.entry id with
  | some e => e.description.bind s.heap = some block
  | none => block = [0]

/-- The section that copies the description. -/
theorem copyLocked_cases (hfilled : Filled s) {thread : τ} {id bytes : Nat}
    (h : s.stage c = .copying thread id bytes a) :
    s.copyLocked c = s.goto c (.discarding thread id a) ∨
      ∃ block, s.Describes id block ∧ s.copyLocked c =
        (s.allocate a block).goto c (.described thread a (s.last thread)) := by
  obtain ⟨buffer, hbuffer, hlength⟩ : ∃ block, s.heap a = some block ∧ 2 * block.length = bytes := by
    have hc := hfilled.calls c
    rw [h] at hc
    exact hc
  unfold State.copyLocked State.currentBytes State.Describes
  rw [h]
  dsimp only
  cases hentry : s.entry id with
  | none =>
    dsimp only
    split
    · rename_i hbytes
      obtain ⟨ch, rfl⟩ := List.length_eq_one_iff.1 (by omega : buffer.length = 1)
      rw [hbuffer]
      exact .inr ⟨[0], rfl, rfl⟩
    · exact .inl rfl
  | some e =>
    obtain ⟨b, text, hdescription, hblock, hsize⟩ := hfilled.entries id e hentry
    dsimp only
    split
    · rename_i hbytes
      right
      have hcount : bytes / 2 = (text ++ [(0 : WCHAR)]).length := by
        rw [List.length_append, List.length_singleton]
        omega
      have hroom : (text ++ [(0 : WCHAR)]).length ≤ buffer.length := by omega
      have hcopied : s.copyBlock e.description a (bytes / 2) = some (text ++ [0]) := by
        unfold State.copyBlock
        rw [hdescription, Option.bind_some, hblock, hbuffer, hcount]
        dsimp only
        rw [if_pos ⟨Nat.le_refl _, hroom⟩, List.take_length, List.drop_eq_nil_of_le (by omega),
          List.append_nil]
      refine ⟨text ++ [0], ?_, ?_⟩
      · rw [hdescription, Option.bind_some, hblock]
      · rw [hcopied]
    · exact .inl rfl

/-- The invariant of all runs. -/
structure Inv (s : State τ κ) : Prop where
  owned : Owned s
  filled : Filled s

namespace Inv

/-- A call moves without the heap. -/
theorem goto (h : Inv s) (hcall : s.stage c = before) (hopen : before.IsOpen)
    (hblocks : stage.blocks = before.blocks) (hfilled : stage.Filled s.heap) :
    Inv (s.goto c stage) :=
  ⟨h.owned.goto (hcall.symm ▸ hblocks),
    h.filled.move rfl rfl h.filled.unfaulted rfl (fun _ _ _ _ => rfl) hfilled
      fun hc => absurd hc (h.filled.notWriter hcall hopen)⟩

/-- A block that a call holds, or that is new, is written to. -/
theorem update_of_holder (h : Inv s) {x : Option (List WCHAR)}
    (ha : s.heap a = none ∨ a ∈ (s.stage c).blocks) {holder : Nat ⊕ κ} {b : Nat}
    (hne : holder ≠ .inr c) (hheld : s.Holds holder b) :
    Function.update s.heap a x b = s.heap b := by
  rw [Function.update_apply, if_neg]
  rintro rfl
  rcases ha with hfree | hmine
  · exact (h.owned.held b).2 ⟨holder, hheld⟩ hfree
  · exact hne (h.owned.exclusive holder (.inr c) b hheld hmine)

theorem allocate (h : Inv s) (hcall : s.stage c = before) (hopen : before.IsOpen)
    (ha : s.heap a = none) (block : List WCHAR) (hblocks : stage.blocks = a :: before.blocks)
    (hfilled : stage.Filled (Function.update s.heap a (some block))) :
    Inv ((s.allocate a block).goto c stage) :=
  ⟨h.owned.allocate ha block (hcall.symm ▸ hblocks),
    h.filled.move rfl rfl h.filled.unfaulted rfl
      (fun _ _ hne hheld => h.update_of_holder (.inl ha) hne hheld) hfilled
      fun hc => absurd hc (h.filled.notWriter hcall hopen)⟩

theorem write (h : Inv s) (hcall : s.stage c = before) (hopen : before.IsOpen)
    (ha : a ∈ before.blocks) (block : List WCHAR) (hblocks : stage.blocks = before.blocks)
    (hfilled : stage.Filled (Function.update s.heap a (some block))) :
    Inv ((s.allocate a block).goto c stage) := by
  subst hcall
  exact ⟨h.owned.write ha block hblocks,
    h.filled.move rfl rfl h.filled.unfaulted rfl
      (fun _ _ hne hheld => h.update_of_holder (.inr ha) hne hheld) hfilled
      fun hc => absurd hc (h.filled.notWriter rfl hopen)⟩

theorem free (h : Inv s) (hcall : s.stage c = before) (hblocks : before.blocks = a :: stage.blocks)
    (hfilled : stage.Filled (Function.update s.heap a none))
    (hwriter : before.IsOpen ∨ (∃ blocks, stage = .freeing blocks)) :
    Inv ((s.free a).goto c stage) := by
  have ha : a ∈ (s.stage c).blocks := by
    rw [hcall, hblocks]
    exact List.mem_cons_self
  refine ⟨h.owned.free (hcall.symm ▸ hblocks), h.filled.move rfl rfl ?_ rfl
    (fun _ _ hne hheld => h.update_of_holder (.inr ha) hne hheld) hfilled ?_⟩
  · have hlive := (h.owned.held a).2 ⟨.inr c, ha⟩
    change (s.faulted || (s.heap a).isNone) = false
    rw [h.filled.unfaulted, Bool.false_or, Option.isNone_eq_false_iff, Option.isSome_iff_ne_none]
    exact hlive
  · intro hc
    rcases hwriter with hopen | hfreeing
    · exact absurd hc (h.filled.notWriter hcall hopen)
    · exact .inl hfreeing

/-- The section of `SetThreadDescription`. -/
theorem setLocked (h : Inv s) {thread : τ} {id new : Nat} {text : List WCHAR}
    (hstage : s.stage c = .setting thread id text new) : Inv (s.setLocked c) := by
  obtain ⟨hlength, hnew⟩ : text.length ≤ 2 ^ 15 - 2 ∧ s.heap new = some (text ++ [0]) := by
    have hc := h.filled.calls c
    rw [hstage] at hc
    exact hc
  have htext : descriptionString text = text := List.take_of_length_le hlength
  rw [State.setLocked_eq hstage]
  constructor
  · let list := s.setEntry id new (2 * (descriptionString text).length + 2)
    have howned : Owned (State.goto { s with list := list } c
        (.freeing ((s.entry id).bind Entry.description).toList)) :=
      h.owned.set (by rw [hstage]; rfl) rfl
    exact ⟨howned.ids, howned.exclusive, howned.once, howned.held⟩
  · constructor
    case entries =>
      intro id' e he
      change (s.setEntry id new _).find? (fun e => e.threadId = id') = some e at he
      rw [State.find?_setEntry] at he
      split at he
      · obtain rfl := Option.some.inj he
        exact ⟨new, text, rfl, hnew, by rw [htext]⟩
      · exact h.filled.entries id' e he
    case calls =>
      intro c'
      change (Function.update s.stage c _ c').Filled s.heap
      rw [Function.update_apply]
      split
      · trivial
      · exact h.filled.calls c'
    case writers =>
      intro c' hc'
      change (∃ blocks, Function.update s.stage c _ c' = _) ∨ Function.update s.stage c _ c' = _
      rw [Function.update_apply]
      split
      · exact .inl ⟨_, rfl⟩
      · rename_i hne
        rcases List.mem_cons.1 hc' with heq | hmem
        · exact absurd heq hne
        · exact h.filled.writers c' hmem
    case unfaulted => exact h.filled.unfaulted

theorem next (h : Inv s) (x : Action τ κ) (hen : enabled s x) :
    Inv (ThreadDescription.next s x) := by
  cases x with
  | createThread t id | exitThread t =>
    exact ⟨⟨h.owned.ids, h.owned.exclusive, h.owned.once, h.owned.held⟩,
      ⟨h.filled.entries, h.filled.calls, h.filled.writers, h.filled.unfaulted⟩⟩
  | setThreadDescription c hThread text =>
    obtain ⟨hcall, hthread, hlength⟩ := hen
    change Inv (s.setThreadDescription c hThread text)
    unfold State.setThreadDescription
    cases text with
    | none => exact h.goto hcall trivial rfl trivial
    | some text =>
      cases hThread with
      | error status => exact h.goto hcall trivial rfl trivial
      | ok t =>
        dsimp only
        cases s.threads t with
        | none => exact h
        | some x => exact h.goto hcall trivial rfl (hlength text rfl)
  | allocateDescription c address =>
    obtain ⟨⟨thread, id, text, hcall⟩, hfree⟩ := enabled_allocateDescription hen
    have hlength := h.filled.calls c
    change Inv (s.allocateDescription c address)
    unfold State.allocateDescription
    rw [hcall] at hlength ⊢
    cases address with
    | none => exact h.goto hcall trivial rfl trivial
    | some a =>
      -- the text was checked for its length
      have htext : descriptionString text = text := List.take_of_length_le hlength
      apply h.allocate hcall trivial (hfree a rfl) _ rfl
      exact ⟨hlength, by rw [Function.update_self, htext]⟩
  | allocateEntry c success =>
    obtain ⟨thread, id, text, new, hcall⟩ := enabled_allocateEntry hen
    have hfilled := h.filled.calls c
    change Inv (s.allocateEntry c success)
    unfold State.allocateEntry
    rw [hcall] at hfilled ⊢
    cases success with
    | true => exact h.goto hcall trivial rfl hfilled
    | false => exact h.free hcall rfl trivial (.inl trivial)
  | setLocked c =>
    obtain ⟨thread, id, text, new, hcall⟩ := enabled_setLocked hen
    exact h.setLocked hcall
  | freeNext c =>
    obtain ⟨blocks, hcall⟩ := enabled_freeNext hen
    change Inv (s.freeNext c)
    unfold State.freeNext
    rw [hcall]
    cases blocks with
    | nil =>
      refine ⟨h.owned.goto (hcall.symm ▸ rfl), ?_⟩
      exact h.filled.move rfl rfl h.filled.unfaulted rfl (fun _ _ _ _ => rfl) trivial
        fun _ => .inr rfl
    | cons a blocks => exact h.free hcall rfl trivial (.inr ⟨blocks, rfl⟩)
  | getThreadDescription c hThread given =>
    obtain ⟨hcall, hthread⟩ := hen
    change Inv (s.getThreadDescription c hThread given)
    unfold State.getThreadDescription
    split
    · cases hThread with
      | error status => exact h.goto hcall trivial rfl trivial
      | ok t =>
        dsimp only
        cases s.threads t with
        | none => exact h
        | some x => exact h.goto hcall trivial rfl trivial
    · exact h.goto hcall trivial rfl trivial
  | measure c =>
    obtain ⟨thread, id, hcall⟩ := enabled_measure hen
    change Inv (s.measure c)
    unfold State.measure
    rw [hcall]
    exact h.goto hcall trivial rfl trivial
  | localAlloc c address =>
    obtain ⟨thread, id, bytes, hcall, hfree⟩ := enabled_localAlloc hen
    change Inv (s.localAlloc c address)
    unfold State.localAlloc
    rw [hcall]
    cases address with
    | none => exact h.goto hcall trivial rfl trivial
    | some x =>
      obtain ⟨hnone, hlength⟩ := hfree x rfl
      exact h.allocate hcall trivial hnone _ rfl ⟨x.2, Function.update_self _ _ _, hlength⟩
  | copyLocked c =>
    obtain ⟨thread, id, bytes, a, hcall⟩ := enabled_copyLocked hen
    change Inv (s.copyLocked c)
    rcases copyLocked_cases h.filled hcall with heq | ⟨block, -, heq⟩
    · rw [heq]
      exact h.goto hcall trivial rfl trivial
    · rw [heq]
      exact h.write hcall trivial (List.mem_singleton_self a) _ rfl trivial
  | retry c =>
    obtain ⟨thread, id, a, hcall⟩ := enabled_retry hen
    change Inv (s.retry c)
    unfold State.retry
    rw [hcall]
    exact h.free hcall rfl trivial (.inl trivial)

end Inv

theorem inv_of_reachable : ∀ s : State τ κ, (descriptions τ κ).Reachable Always s → Inv s := by
  apply System.Reachable.invariant
  · rintro s rfl
    refine ⟨⟨List.nodup_nil, ?_, fun _ => List.nodup_nil, ?_⟩,
      ⟨nofun, fun _ => trivial, nofun, rfl⟩⟩
    · rintro (id | c) holder' a hheld
      · exact nomatch hheld
      · exact nomatch hheld
    · intro a
      refine ⟨fun hne => absurd rfl hne, ?_⟩
      rintro ⟨id | c, hheld⟩
      · exact nomatch hheld
      · exact nomatch hheld
  · intro s x h hen _
    exact h.next x hen

/-! ## Whose description it is -/

/-- The thread and the id that a call works for. -/
def Stage.target : Stage τ → Option (τ × Nat)
  | .describing t id _ | .allocatingEntry t id _ _ | .setting t id _ _ | .measuring t id
  | .allocating t id _ | .copying t id _ _ | .discarding t id _ => some (t, id)
  | _ => none

/-- The condition on the steps: a new thread does not get an id that is in the table, or that a
call works with; and a handle is not used when the id of its thread has been given away. -/
def Fits (s : State τ κ) : Action τ κ → Prop
  | .createThread _ id => s.entry id = none ∧ ∀ c t, (s.stage c).target ≠ some (t, id)
  | .setThreadDescription _ hThread _ | .getThreadDescription _ hThread _ =>
    match hThread with
    | .ok t => ∀ x ∈ s.threads t, s.holder x.id = some t
    | .error _ => True
  | _ => True

/-- The table and the calls tell of threads. -/
structure Belongs (s : State τ κ) : Prop where
  /-- What the table says of the id of a thread is what was set last for the thread. -/
  current : ∀ id t, s.holder id = some t → s.Describes id (s.last t ++ [0])
  /-- A buffer that is returned holds the description that was set last for the thread. -/
  described : ∀ c t a expected, s.stage c = .described t a expected →
    s.heap a = some (expected ++ [0])

/-- What the condition is for. -/
structure Known (s : State τ κ) : Prop where
  current : ∀ id t, s.holder id = some t → s.Describes id (s.last t ++ [0])
  described : ∀ c t a expected, s.stage c = .described t a expected →
    s.heap a = some (expected ++ [0])
  held : ∀ id t, s.holder id = some t → ∃ x, s.threads t = some x ∧ x.id = id
  unset : ∀ t, s.threads t = none → s.last t = []
  working : ∀ c t id, (s.stage c).target = some (t, id) → s.holder id = some t

/-- The table says the same, as long as no block of it is written to. -/
theorem State.Describes.congr {id : Nat} {block : List WCHAR} (h : s.Describes id block)
    (hlist : s'.list = s.list)
    (hsame : ∀ b, s.Holds (.inl id) b → s'.heap b = s.heap b) : s'.Describes id block := by
  have hentry : s'.entry id = s.entry id := congrArg _ hlist
  unfold State.Describes at h ⊢
  rw [hentry]
  cases hfound : s.entry id with
  | none =>
    rw [hfound] at h
    exact h
  | some e =>
    rw [hfound] at h
    dsimp only at h ⊢
    cases hdescription : e.description with
    | none =>
      rw [hdescription] at h
      exact h
    | some b =>
      rw [hdescription] at h
      refine (hsame b ?_).trans h
      change (s.entry id).bind Entry.description = some b
      rw [hfound]
      exact hdescription

/-- What the table says is one text. -/
theorem State.Describes.unique {id : Nat} {block block' : List WCHAR} (h : s.Describes id block)
    (h' : s.Describes id block') : block = block' := by
  unfold State.Describes at h h'
  cases hfound : s.entry id with
  | none =>
    rw [hfound] at h h'
    exact h.trans h'.symm
  | some e =>
    rw [hfound] at h h'
    exact Option.some.inj (h.symm.trans h')

namespace Known

/-- A call moves, and the blocks of the others stay. -/
theorem move (h : Known s) (hcall : s.stage c = before) (hlist : s'.list = s.list)
    (hthreads : s'.threads = s.threads) (hlast : s'.last = s.last) (hholder : s'.holder = s.holder)
    (hstage : s'.stage = Function.update s.stage c stage)
    (hsame : ∀ holder b, holder ≠ .inr c → s.Holds holder b → s'.heap b = s.heap b)
    (htarget : stage.target = none ∨ stage.target = before.target)
    (hnew : ∀ t a expected, stage = .described t a expected → s'.heap a = some (expected ++ [0])) :
    Known s' := by
  constructor
  case current =>
    intro id t hid
    rw [hholder] at hid
    rw [hlast]
    exact (h.current id t hid).congr hlist fun b hb => hsame (.inl id) b nofun hb
  case described =>
    intro c' t a expected hc'
    rw [hstage, Function.update_apply] at hc'
    split at hc'
    · exact hnew t a expected hc'
    · rename_i hne
      rw [hsame (.inr c') a (fun heq => hne (Sum.inr.inj heq))]
      · exact h.described c' t a expected hc'
      · change a ∈ (s.stage c').blocks
        rw [hc']
        exact List.mem_singleton_self a
  case held =>
    rw [hholder, hthreads]
    exact h.held
  case unset =>
    rw [hthreads, hlast]
    exact h.unset
  case working =>
    intro c' t id hc'
    rw [hholder]
    rw [hstage, Function.update_apply] at hc'
    split at hc'
    · rcases htarget with hnone | heq
      · exact nomatch hnone.symm.trans hc'
      · apply h.working c
        rw [hcall, ← heq]
        exact hc'
    · exact h.working c' t id hc'

/-- A call begins. -/
theorem begin (h : Known s) (hstage : stage.blocks = [])
    (hworking : ∀ t id, stage.target = some (t, id) → s.holder id = some t) :
    Known (s.goto c stage) := by
  constructor
  case current => exact h.current
  case described =>
    intro c' t a expected hc'
    change Function.update s.stage c stage c' = _ at hc'
    rw [Function.update_apply] at hc'
    split at hc'
    · rw [hc'] at hstage
      cases hstage
    · exact h.described c' t a expected hc'
  case held => exact h.held
  case unset => exact h.unset
  case working =>
    intro c' t id hc'
    change (Function.update s.stage c stage c').target = _ at hc'
    rw [Function.update_apply] at hc'
    split at hc'
    · exact hworking t id hc'
    · exact h.working c' t id hc'

/-- The section of `SetThreadDescription`. -/
theorem setLocked (h : Known s) (hinv : Inv s) {t : τ} {id new : Nat} {text : List WCHAR}
    (hcall : s.stage c = .setting t id text new) : Known (s.setLocked c) := by
  obtain ⟨hlength, hnew⟩ : text.length ≤ 2 ^ 15 - 2 ∧ s.heap new = some (text ++ [0]) := by
    have hc := hinv.filled.calls c
    rw [hcall] at hc
    exact hc
  have hmine : s.holder id = some t := h.working c t id (by rw [hcall]; rfl)
  rw [State.setLocked_eq hcall]
  constructor
  case current =>
    intro id' t' hid'
    unfold State.Describes
    change (match (s.setEntry id new _).find? (fun e => e.threadId = id') with
      | some e => e.description.bind s.heap = some (Function.update s.last t text t' ++ [0])
      | none => Function.update s.last t text t' ++ [0] = [0])
    rw [State.find?_setEntry]
    by_cases hid : id' = id
    · subst hid
      obtain rfl : t = t' := Option.some.inj (hmine.symm.trans hid')
      rw [if_pos rfl, Function.update_self]
      exact hnew
    · -- another thread, with an id of its own
      rw [if_neg hid, Function.update_of_ne]
      · exact h.current id' t' hid'
      · rintro rfl
        obtain ⟨x, hx, rfl⟩ := h.held id' t' hid'
        obtain ⟨y, hy, rfl⟩ := h.held id t' hmine
        obtain rfl := Option.some.inj (hx.symm.trans hy)
        exact hid rfl
  case described =>
    intro c' t' a expected hc'
    change Function.update s.stage c _ c' = _ at hc'
    rw [Function.update_apply] at hc'
    split at hc'
    · cases hc'
    · exact h.described c' t' a expected hc'
  case held => exact h.held
  case unset =>
    intro t' ht'
    obtain ⟨x, hx, -⟩ := h.held id t hmine
    change Function.update s.last t text t' = []
    rw [Function.update_of_ne]
    · exact h.unset t' ht'
    · rintro rfl
      exact nomatch hx.symm.trans ht'
  case working =>
    intro c' t' id' hc'
    change (Function.update s.stage c _ c').target = _ at hc'
    rw [Function.update_apply] at hc'
    split at hc'
    · cases hc'
    · exact h.working c' t' id' hc'

theorem createThread (h : Known s) {t : τ} {id : Nat} (hen : enabled s (.createThread t id))
    (hfits : Fits s (.createThread t id)) : Known (s.createThread t id) := by
  obtain ⟨hfresh, -⟩ := hen
  obtain ⟨hentry, hworking⟩ := hfits
  constructor
  case current =>
    intro id' t' hid'
    change Function.update s.holder id (some t) id' = some t' at hid'
    rw [Function.update_apply] at hid'
    split at hid'
    · rename_i heq
      subst heq
      obtain rfl := Option.some.inj hid'
      change s.Describes id' (s.last t ++ [0])
      rw [h.unset t hfresh]
      unfold State.Describes
      rw [hentry]
      rfl
    · exact h.current id' t' hid'
  case described => exact h.described
  case held =>
    intro id' t' hid'
    change ∃ x, Function.update s.threads t (some ⟨id, false⟩) t' = some x ∧ x.id = id'
    change Function.update s.holder id (some t) id' = some t' at hid'
    rw [Function.update_apply] at hid'
    split at hid'
    · rename_i heq
      obtain rfl := Option.some.inj hid'
      exact ⟨_, Function.update_self _ _ _, heq.symm⟩
    · obtain ⟨x, hx, hid⟩ := h.held id' t' hid'
      refine ⟨x, ?_, hid⟩
      rw [Function.update_of_ne, hx]
      rintro rfl
      exact nomatch hfresh.symm.trans hx
  case unset =>
    intro t' ht'
    change Function.update s.threads t (some ⟨id, false⟩) t' = none at ht'
    rw [Function.update_apply] at ht'
    split at ht'
    · cases ht'
    · exact h.unset t' ht'
  case working =>
    intro c t' id' hc
    change Function.update s.holder id (some t) id' = some t'
    rw [Function.update_of_ne]
    · exact h.working c t' id' hc
    · rintro rfl
      exact hworking c t' hc

theorem exitThread (h : Known s) (t : τ) : Known (s.exitThread t) := by
  refine ⟨h.current, h.described, ?_, ?_, h.working⟩
  · intro id t' hid
    obtain ⟨x, hx, rfl⟩ := h.held id t' hid
    change ∃ y, Function.update s.threads t _ t' = some y ∧ y.id = x.id
    rw [Function.update_apply]
    split
    · rename_i heq
      subst heq
      rw [hx]
      exact ⟨⟨x.id, true⟩, rfl, rfl⟩
    · exact ⟨x, hx, rfl⟩
  · intro t' ht'
    change Function.update s.threads t _ t' = none at ht'
    rw [Function.update_apply] at ht'
    split at ht'
    · rename_i heq
      subst heq
      exact h.unset t' (Option.map_eq_none_iff.1 ht')
    · exact h.unset t' ht'

theorem next (h : Known s) (hinv : Inv s) (x : Action τ κ) (hen : enabled s x) (hfits : Fits s x) :
    Known (ThreadDescription.next s x) := by
  cases x with
  | createThread t id => exact h.createThread hen hfits
  | exitThread t => exact h.exitThread t
  | setThreadDescription c hThread text =>
    change Known (s.setThreadDescription c hThread text)
    unfold State.setThreadDescription
    cases text with
    | none => exact h.begin rfl nofun
    | some text =>
      cases hThread with
      | error status => exact h.begin rfl nofun
      | ok t =>
        dsimp only
        cases hthread : s.threads t with
        | none => exact h
        | some x =>
          apply h.begin rfl
          -- the thread is there, with the id that the table is searched for
          rintro t' id' heq
          obtain ⟨rfl, rfl⟩ := Prod.mk.inj (Option.some.inj heq)
          exact hfits x hthread
  | allocateDescription c address =>
    obtain ⟨⟨t, id, text, hcall⟩, hfree⟩ := enabled_allocateDescription hen
    change Known (s.allocateDescription c address)
    unfold State.allocateDescription
    rw [hcall]
    cases address with
    | none => exact h.move hcall rfl rfl rfl rfl rfl (fun _ _ _ _ => rfl) (.inl rfl) nofun
    | some a =>
      exact h.move hcall rfl rfl rfl rfl rfl
        (fun _ _ hne hheld => hinv.update_of_holder (.inl (hfree a rfl)) hne hheld) (.inr rfl) nofun
  | allocateEntry c success =>
    obtain ⟨t, id, text, new, hcall⟩ := enabled_allocateEntry hen
    change Known (s.allocateEntry c success)
    unfold State.allocateEntry
    rw [hcall]
    cases success with
    | true => exact h.move hcall rfl rfl rfl rfl rfl (fun _ _ _ _ => rfl) (.inr rfl) nofun
    | false =>
      -- the block was the call's own, so no entry of the table is at it
      have hmine : new ∈ (s.stage c).blocks := hcall.symm ▸ List.mem_singleton_self new
      exact h.move hcall rfl rfl rfl rfl rfl
        (fun _ _ hne hheld => hinv.update_of_holder (.inr hmine) hne hheld) (.inl rfl) nofun
  | setLocked c =>
    obtain ⟨t, id, text, new, hcall⟩ := enabled_setLocked hen
    exact h.setLocked hinv hcall
  | freeNext c =>
    obtain ⟨blocks, hcall⟩ := enabled_freeNext hen
    change Known (s.freeNext c)
    unfold State.freeNext
    rw [hcall]
    cases blocks with
    | nil => exact h.move hcall rfl rfl rfl rfl rfl (fun _ _ _ _ => rfl) (.inl rfl) nofun
    | cons a blocks =>
      have hmine : a ∈ (s.stage c).blocks := hcall.symm ▸ List.mem_cons_self
      exact h.move hcall rfl rfl rfl rfl rfl
        (fun _ _ hne hheld => hinv.update_of_holder (.inr hmine) hne hheld) (.inl rfl) nofun
  | getThreadDescription c hThread given =>
    change Known (s.getThreadDescription c hThread given)
    unfold State.getThreadDescription
    split
    · cases hThread with
      | error status => exact h.begin rfl nofun
      | ok t =>
        dsimp only
        cases hthread : s.threads t with
        | none => exact h
        | some x =>
          apply h.begin rfl
          rintro t' id' heq
          obtain ⟨rfl, rfl⟩ := Prod.mk.inj (Option.some.inj heq)
          exact hfits x hthread
    · exact h.begin rfl nofun
  | measure c =>
    obtain ⟨t, id, hcall⟩ := enabled_measure hen
    change Known (s.measure c)
    unfold State.measure
    rw [hcall]
    exact h.move hcall rfl rfl rfl rfl rfl (fun _ _ _ _ => rfl) (.inr rfl) nofun
  | localAlloc c address =>
    obtain ⟨t, id, bytes, hcall, hfree⟩ := enabled_localAlloc hen
    change Known (s.localAlloc c address)
    unfold State.localAlloc
    rw [hcall]
    cases address with
    | none => exact h.move hcall rfl rfl rfl rfl rfl (fun _ _ _ _ => rfl) (.inl rfl) nofun
    | some x =>
      exact h.move hcall rfl rfl rfl rfl rfl
        (fun _ _ hne hheld => hinv.update_of_holder (.inl (hfree x rfl).1) hne hheld) (.inr rfl)
        nofun
  | copyLocked c =>
    obtain ⟨t, id, bytes, a, hcall⟩ := enabled_copyLocked hen
    change Known (s.copyLocked c)
    rcases copyLocked_cases hinv.filled hcall with heq | ⟨block, hblock, heq⟩
    · rw [heq]
      exact h.move hcall rfl rfl rfl rfl rfl (fun _ _ _ _ => rfl) (.inr rfl) nofun
    · -- what is copied is what the table says of the id, and so of the thread
      have hmine : a ∈ (s.stage c).blocks := hcall.symm ▸ List.mem_singleton_self a
      have hlast := hblock.unique (h.current id t (h.working c t id (hcall.symm ▸ rfl)))
      rw [heq]
      refine h.move hcall rfl rfl rfl rfl rfl
        (fun _ _ hne hheld => hinv.update_of_holder (.inr hmine) hne hheld) (.inl rfl) ?_
      intro t' a' expected hdescribed
      obtain ⟨rfl, rfl, rfl⟩ := Stage.described.inj hdescribed
      exact (Function.update_self _ _ _).trans (congrArg some hlast)
  | retry c =>
    obtain ⟨t, id, a, hcall⟩ := enabled_retry hen
    change Known (s.retry c)
    unfold State.retry
    rw [hcall]
    have hmine : a ∈ (s.stage c).blocks := hcall.symm ▸ List.mem_singleton_self a
    exact h.move hcall rfl rfl rfl rfl rfl
      (fun _ _ hne hheld => hinv.update_of_holder (.inr hmine) hne hheld) (.inr rfl) nofun

end Known

theorem known_of_reachable : ∀ s : State τ κ, (descriptions τ κ).Reachable Fits s → Known s := by
  refine System.Reachable.invariantUnder
    (fun s (h : (descriptions τ κ).Reachable Fits s) =>
      inv_of_reachable s (h.mono fun _ _ _ => trivial)) ?_ ?_
  · rintro s rfl
    exact ⟨nofun, nofun, nofun, fun _ _ => rfl, nofun⟩
  · intro s x hinv h hen hfits
    exact h.next hinv x hen hfits

/-! ## All runs -/

/-- What is asked of the table and of memory, besides. -/
structure Sound (s : State τ κ) : Prop where
  /-- There is one entry for an id, at most. -/
  ids : (s.list.map Entry.threadId).Nodup
  /-- A call that has failed is none of those that have changed the table. -/
  failed : ∀ c result, s.stage c = .returned result → result ≠ .ok → c ∉ s.writers
  /-- No other step changes it. -/
  steady : ∀ x, (∀ c, x ≠ .setLocked c) → (next s x).list = s.list ∧ (next s x).last = s.last ∧
    (next s x).writers = s.writers
  /-- Each block is in the table, or a call has it; one that has failed has none. -/
  accounted : ∀ a, s.heap a ≠ none → ∃ holder, s.Holds holder a
  /-- A buffer that is returned is nobody else's. -/
  fresh : ∀ c t a expected, s.stage c = .described t a expected →
    ∀ holder, s.Holds holder a → holder = .inr c
  /-- No block was read or freed that was not there. -/
  unfaulted : s.faulted = false

/-- The steps that leave the table as it is. -/
theorem next_steady (s : State τ κ) (x : Action τ κ) (hx : ∀ c, x ≠ .setLocked c) :
    (next s x).list = s.list ∧ (next s x).last = s.last ∧ (next s x).writers = s.writers := by
  cases x with
  | setLocked c => exact absurd rfl (hx c)
  | createThread | exitThread => exact ⟨rfl, rfl, rfl⟩
  | _ =>
    simp only [next, State.setThreadDescription, State.allocateDescription, State.allocateEntry,
      State.freeNext, State.getThreadDescription, State.measure, State.localAlloc,
      State.copyLocked, State.retry]
    repeat' split
    all_goals exact ⟨rfl, rfl, rfl⟩

theorem Inv.sound (h : Inv s) : Sound s where
  ids := h.owned.ids
  failed c result hreturned hresult hc := by
    rcases h.filled.writers c hc with ⟨blocks, hfreeing⟩ | hok
    · exact nomatch hfreeing.symm.trans hreturned
    · exact hresult (Stage.returned.inj (hreturned.symm.trans hok))
  steady := next_steady s
  accounted a := (h.owned.held a).1
  fresh c t a expected hc holder hheld := by
    apply h.owned.exclusive holder (.inr c) a hheld
    change a ∈ (s.stage c).blocks
    rw [hc]
    exact List.mem_singleton_self a
  unfaulted := h.filled.unfaulted

/-- In all runs the table and memory are sound. In runs in which no id that is still known is given
to a new thread the descriptions are those of the threads. -/
theorem descriptions_belong_to_threads (s : State τ κ)
    (hreach : (descriptions τ κ).Reachable Always s) :
    Sound s ∧ ((descriptions τ κ).Reachable Fits s → Belongs s) := by
  constructor
  · exact (inv_of_reachable s hreach).sound
  · intro hfits
    have hknown := known_of_reachable s hfits
    exact ⟨hknown.current, hknown.described⟩

instance [Fintype τ] (s : State τ κ) (x : Action τ κ) : Decidable (enabled s x) := by
  cases x with
  | createThread | exitThread => unfold enabled; infer_instance
  | setThreadDescription c hThread | getThreadDescription c hThread =>
    cases hThread <;> unfold enabled State.HandleOf <;> infer_instance
  | allocateDescription c =>
    unfold enabled; dsimp only; cases s.stage c <;> infer_instance
  | allocateEntry c | setLocked c | freeNext c | measure c | localAlloc c | copyLocked c | retry c =>
    unfold enabled; dsimp only; cases s.stage c <;> infer_instance

instance [Fintype τ] (s : State τ κ) (x : Action τ κ) :
    Decidable ((descriptions τ κ).enabled s x) :=
  inferInstanceAs (Decidable (enabled s x))

instance [Fintype τ] [Fintype κ] (s : State τ κ) (x : Action τ κ) : Decidable (Fits s x) := by
  cases x with
  | setThreadDescription c hThread | getThreadDescription c hThread =>
    cases hThread <;> unfold Fits <;> infer_instance
  | _ => unfold Fits; infer_instance

/-- A thread gets an id and a description. -/
def setRun (t : Bool) (id : Nat) (c : Fin 2) (text : List WCHAR) : List (Action Bool (Fin 2)) :=
  [.createThread t id, .setThreadDescription c (.ok t) (some text), .allocateDescription c (some 0),
    .allocateEntry c true, .setLocked c, .freeNext c]

/-- The description of a thread is asked for; it takes so many characters. -/
def getRun (t : Bool) (c : Fin 2) (size : Nat) : List (Action Bool (Fin 2)) :=
  [.getThreadDescription c (.ok t) true, .measure c,
    .localAlloc c (some (1, List.replicate size 0)), .copyLocked c]

/-- The description that has been set is given. -/
theorem description_is_given :
    let s := (descriptions Bool (Fin 2)).exec initialState (setRun true 5 0 [0x61] ++ getRun true 1 2)
    (Sound s ∧ Belongs s) ∧ s.stage 1 = .described true 1 [0x61] ∧ s.heap 1 = some [0x61, 0] := by
  have hadmits : (descriptions Bool (Fin 2)).Admits Fits initialState
      (setRun true 5 0 [0x61] ++ getRun true 1 2) := by decide +kernel
  have hfits : (descriptions Bool (Fin 2)).Reachable Fits _ :=
    System.reachable_exec _ _ rfl hadmits
  obtain ⟨hsound, hbelongs⟩ :=
    descriptions_belong_to_threads _ (hfits.mono fun _ _ _ => trivial)
  exact ⟨⟨hsound, hbelongs hfits⟩, by decide +kernel, by decide +kernel⟩

/-- A thread is given the id of one that has exited, and with it the description. -/
theorem description_outlives_thread :
    ¬ ∀ s, (descriptions Bool (Fin 2)).Reachable Always s → Sound s ∧ Belongs s := by
  intro hall
  have hadmits : (descriptions Bool (Fin 2)).Admits Always initialState
      (setRun true 5 0 [0x61] ++ [.exitThread true, .createThread false 5] ++ getRun false 1 2) := by
    decide +kernel
  have hreach := System.reachable_exec _ _ rfl hadmits
  have hstage := (hall _ hreach).2.described 1 false 1 [] (by decide +kernel)
  revert hstage
  decide +kernel

end Ldk.ThreadDescription
