import Mathlib
import Ldk.Lib.Command
import Ldk.Lib.Yields

/-!
# Blocks of a heap

Commands that allocate and release blocks. What matters of a heap here is which blocks are live;
whether a request succeeds is up to an oracle.

- `allocate`, `reallocate`, `release`: the requests.
- `within`: what one command has acquired is released behind another, whatever its outcome.
- `Adds`: the command returns, and has added some blocks to those that were live before.
- `Turns`: the same of a command that owns a block.
- `Adds.within`: nothing that is acquired for a scope stays behind.
-/

/-- The requests that have been made, and the blocks that are live. -/
structure Allocations where
  requests : Nat
  live : List Nat
  fresh : ∀ block ∈ live, block < requests
  nodup : live.Nodup

namespace Allocations

/-- The next request succeeds. -/
def grant (h : Allocations) : Allocations where
  requests := h.requests + 1
  live := h.requests :: h.live
  fresh block hblock := by
    rcases List.mem_cons.mp hblock with rfl | hlive
    · exact Nat.lt_succ_self _
    · exact Nat.lt_succ_of_lt (h.fresh block hlive)
  nodup := List.nodup_cons.mpr ⟨fun hlive => Nat.lt_irrefl _ (h.fresh _ hlive), h.nodup⟩

/-- The next request fails. -/
def refuse (h : Allocations) : Allocations where
  requests := h.requests + 1
  live := h.live
  fresh block hlive := Nat.lt_succ_of_lt (h.fresh block hlive)
  nodup := h.nodup

/-- A block is given back. -/
def drop (block : Nat) (h : Allocations) : Allocations where
  requests := h.requests
  live := h.live.erase block
  fresh _ hlive := h.fresh _ (List.mem_of_mem_erase hlive)
  nodup := h.nodup.erase block

theorem drop_live {block : Nat} {new rest : List Nat} {h : Allocations}
    (hlive : h.live = new ++ block :: rest) : (h.drop block).live = new ++ rest := by
  have hnodup := h.nodup
  rw [hlive] at hnodup
  have hnot : block ∉ new := by
    intro hmem
    exact List.disjoint_of_nodup_append hnodup hmem List.mem_cons_self
  show h.live.erase block = new ++ rest
  rw [hlive, List.erase_append_right _ hnot, List.erase_cons_head]

/-! ## Requests -/

variable {ε α β : Type}

/-- A request: the oracle says which of them succeed. -/
def allocate (succeeds : Nat → Bool) (e : ε) : Command Allocations ε Nat := fun h =>
  if succeeds h.requests then some (.ok h.requests, h.grant) else some (.error e, h.refuse)

/-- A request for a block in the place of another, which stays when the request fails. -/
def reallocate (succeeds : Nat → Bool) (e : ε) (block : Nat) : Command Allocations ε Nat := fun h =>
  if succeeds h.requests then some (.ok h.requests, h.grant.drop block)
  else some (.error e, h.refuse)

/-- A block is released, if there is one. -/
def release (block : Option Nat) : Command Allocations ε PUnit :=
  match block with
  | none => pure ⟨⟩
  | some block => Command.change (drop block)

/-- The second command uses what the first has acquired, and then its block is released. -/
def within (block : α → Option Nat) (acquire : Command Allocations ε α)
    (use : α → Command Allocations ε β) : Command Allocations ε β := do
  let a ← acquire
  match ← Command.attempt (use a) with
  | .ok b => do
    release (block a)
    return b
  | .error e => do
    release (block a)
    Command.fail e

/-! ## What is added -/

/-- The blocks behind an outcome: a failure leaves none. -/
def addedBy (added : β → List Nat) : Except ε β → List Nat
  | .ok b => added b
  | .error _ => []

/-- The command returns with an outcome, and what it adds to the live blocks. -/
def Adds (added : β → List Nat) (c : Command Allocations ε β) (P : Except ε β → Prop) : Prop :=
  ∀ h, Command.Returns c h fun r h' => P r ∧ h'.live = addedBy added r ++ h.live

/-- The command returns, and what it adds takes the place of a block. -/
def Turns (block : Nat) (added : β → List Nat) (c : Command Allocations ε β)
    (P : Except ε β → Prop) : Prop :=
  ∀ h rest, h.live = block :: rest →
    Command.Returns c h fun r h' => P r ∧ h'.live = addedBy added r ++ rest

variable {added : β → List Nat} {P Q : Except ε β → Prop} {c : Command Allocations ε β}
  {f : Nat → Command Allocations ε β} {block : Nat} {b : β} {e : ε} {succeeds : Nat → Bool}

namespace Adds

theorem mono (h : Adds added c P) (hle : ∀ r, P r → Q r) : Adds added c Q := fun s =>
  (h s).mono fun r _ hr => ⟨hle r hr.1, hr.2⟩

theorem pure (hP : P (.ok b)) (hadded : added b = []) :
    Adds added (Pure.pure b : Command Allocations ε β) P := by
  intro h
  apply Command.Returns.pure
  refine ⟨hP, ?_⟩
  show h.live = added b ++ h.live
  rw [hadded, List.nil_append]

theorem fail (hP : P (.error e)) : Adds added (Command.fail e) P := fun _ =>
  Command.Returns.fail ⟨hP, rfl⟩

end Adds

/-- What is made of a new block. -/
theorem Adds.allocate_bind {f : Nat → Command Allocations ε β}
    (herror : ∀ n, succeeds n = false → P (.error e))
    (hok : ∀ block, Turns block added (f block) P) :
    Adds added (allocate succeeds e >>= f) P := by
  intro h
  by_cases hgranted : succeeds h.requests = true
  · have hrun : (allocate succeeds e : Command Allocations ε Nat) h =
        some (.ok h.requests, h.grant) := if_pos hgranted
    obtain ⟨r, h', hnext, hpost⟩ := hok h.requests h.grant h.live rfl
    refine ⟨r, h', ?_, hpost⟩
    show Command.bind _ f h = _
    unfold Command.bind
    rw [hrun]
    exact hnext
  · have hrun : (allocate succeeds e : Command Allocations ε Nat) h =
        some (.error e, h.refuse) := if_neg hgranted
    refine ⟨.error e, h.refuse, ?_, herror _ (eq_false_of_ne_true hgranted), rfl⟩
    show Command.bind _ f h = _
    unfold Command.bind
    rw [hrun]

namespace Turns

theorem pure (hP : P (.ok b)) (hadded : added b = [block]) :
    Turns block added (Pure.pure b : Command Allocations ε β) P := by
  intro h rest hlive
  apply Command.Returns.pure
  refine ⟨hP, ?_⟩
  show h.live = added b ++ rest
  rw [hadded, hlive]
  rfl

/-- The block is released on the way to a failure. -/
theorem release_fail (hP : P (.error e)) :
    Turns block added (do release (some block); Command.fail e) P := by
  intro h rest hlive
  apply Command.Returns.change_bind
  apply Command.Returns.fail
  refine ⟨hP, ?_⟩
  have hdrop : h.live = [] ++ block :: rest := hlive
  exact drop_live hdrop

/-- A computation that needs no heap yields a value. -/
theorem yields_bind {x : Except ε α} {R : α → Prop} {rest : α → Command Allocations ε β}
    (hx : Yields x R) (hok : ∀ a, R a → Turns block added (rest a) P) :
    Turns block added (Command.ofExcept x >>= rest) P := by
  obtain ⟨a, rfl, ha⟩ := hx
  exact hok a ha

/-- Its outcome, whatever it is. -/
theorem attempt_bind {r : Except ε α} {rest : Except ε α → Command Allocations ε β}
    (h : Turns block added (rest r) P) :
    Turns block added (Command.attempt (Command.ofExcept r) >>= rest) P := h

/-- Another block takes the place of the one that is owned, or else it stays. -/
theorem reallocate_bind {f : Except ε Nat → Command Allocations ε β}
    (hok : ∀ block', Turns block' added (f (.ok block')) P)
    (herror : ∀ n, succeeds n = false → Turns block added (f (.error e)) P) :
    Turns block added (Command.attempt (reallocate succeeds e block) >>= f) P := by
  intro h rest hlive
  by_cases hgranted : succeeds h.requests = true
  · have hrun : (reallocate succeeds e block : Command Allocations ε Nat) h =
        some (.ok h.requests, h.grant.drop block) := if_pos hgranted
    have hlive' : (h.grant.drop block).live = h.requests :: rest := by
      have hgrant : h.grant.live = [h.requests] ++ block :: rest :=
        congrArg (List.cons h.requests) hlive
      exact drop_live hgrant
    obtain ⟨r, h', hnext, hpost⟩ := hok h.requests _ rest hlive'
    refine ⟨r, h', ?_, hpost⟩
    show Command.bind _ f h = _
    unfold Command.bind Command.attempt
    rw [hrun]
    exact hnext
  · have hrun : (reallocate succeeds e block : Command Allocations ε Nat) h =
        some (.error e, h.refuse) := if_neg hgranted
    obtain ⟨r, h', hnext, hpost⟩ := herror _ (eq_false_of_ne_true hgranted) h.refuse rest hlive
    refine ⟨r, h', ?_, hpost⟩
    show Command.bind _ f h = _
    unfold Command.bind Command.attempt
    rw [hrun]
    exact hnext

end Turns

/-- A block behind others is released. -/
theorem release_returns {new rest : List Nat} {block : Option Nat} {h : Allocations}
    (hlive : h.live = new ++ (block.toList ++ rest)) :
    Command.Returns (release block : Command Allocations ε PUnit) h fun r h' =>
      r = .ok ⟨⟩ ∧ h'.live = new ++ rest := by
  cases block with
  | none => exact Command.Returns.pure ⟨rfl, hlive⟩
  | some block => exact ⟨_, _, rfl, rfl, drop_live hlive⟩

/-- The block that is acquired for a scope does not stay behind. -/
theorem Adds.within {block : α → Option Nat} {acquire : Command Allocations ε α}
    {use : α → Command Allocations ε β} {R : Except ε α → Prop}
    (hacquire : Adds (fun a => (block a).toList) acquire R)
    (huse : ∀ a, R (.ok a) → Adds added (use a) P) (herror : ∀ e, R (.error e) → P (.error e)) :
    Adds added (within block acquire use) P := by
  intro h
  apply (hacquire h).bind
  · rintro a h' ⟨ha, hlive⟩
    apply (huse a ha h').attempt_bind
    rintro r h'' ⟨hr, hlive'⟩
    have hall : h''.live = addedBy added r ++ ((block a).toList ++ h.live) := by
      rw [hlive']
      exact congrArg _ hlive
    cases r with
    | ok b =>
      apply (release_returns hall).bind
      · rintro _ h₃ ⟨-, hlive₃⟩
        exact Command.Returns.pure ⟨hr, hlive₃⟩
      · rintro e _ ⟨he, -⟩
        cases he
    | error e =>
      apply (release_returns hall).bind
      · rintro _ h₃ ⟨-, hlive₃⟩
        exact Command.Returns.fail ⟨hr, hlive₃⟩
      · rintro e _ ⟨he, -⟩
        cases he
  · rintro e h' ⟨he, hlive⟩
    exact ⟨herror e he, hlive⟩

/-! ## Outcomes without regard to the blocks -/

/-- The outcome of a scope is that of its use, or the failure of its request. -/
theorem within_ensures {block : α → Option Nat} {acquire : Command Allocations ε α}
    {use : α → Command Allocations ε β} {h : Allocations} {R : Except ε α → Prop}
    (hacquire : Command.Ensures acquire h fun r _ => R r)
    (huse : ∀ a h', R (.ok a) → Command.Ensures (use a) h' fun r _ => P r)
    (herror : ∀ e, R (.error e) → P (.error e)) :
    Command.Ensures (within block acquire use) h fun r _ => P r := by
  have hrelease (a : α) (h' : Allocations) : Command.Ensures
      (release (block a) : Command Allocations ε PUnit) h' fun r _ => r = .ok ⟨⟩ := by
    cases block a with
    | none => exact .pure rfl
    | some block => exact .change rfl
  unfold within
  refine hacquire.bind ?_ ?_
  · intro a h' ha
    refine (huse a h' ha).attempt_bind ?_
    intro r h'' hr
    cases r with
    | ok b =>
      refine (hrelease a h'').bind ?_ ?_
      · exact fun _ _ _ => .pure hr
      · rintro e _ he
        cases he
    | error e =>
      refine (hrelease a h'').bind ?_ ?_
      · exact fun _ _ _ => .fail hr
      · rintro e _ he
        cases he
  · exact fun e _ he => herror e he

end Allocations
