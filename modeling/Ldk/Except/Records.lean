import Mathlib
import Ldk.Except.State

set_option linter.unusedSectionVars false

/-!
# The records of exception dispatch

While no handler returns to its dispatch after further exceptions have been dispatched on its
thread, and none ends the dispatch with a raised status, every record is given back once and is
not used after that, and the TEB points to a record that is still there
(`records_are_given_back_once`). A handler that raises and finishes another exception returns to
a dispatch whose record the inner one has freed (`nested_dispatch_uses_freed_record`).
-/

namespace Ldk.Except

open TransitionSystem

variable {κ τ : Type} [DecidableEq κ] [DecidableEq τ]

/-! ## The condition -/

/-- No handler returns to its dispatch when another exception has been dispatched on the thread
while it ran; none continues a noncontinuable exception or returns an invalid disposition. -/
def Orderly (s : State κ τ) : Action κ τ → Prop
  | .handlerReturn a noncontinuable disposition =>
    (s.record a).nested = false ∧ disposition ≠ .invalid ∧
      (disposition = .continueExecution →
        (s.record a).noncontinuable = false ∧ noncontinuable = false)
  | _ => True

instance (s : State κ τ) (a : Action κ τ) : Decidable (Orderly s a) := by
  rcases a <;> simp only [Orderly] <;> infer_instance

/-! ## What is promised -/

structure RecordsKept (thread : κ → τ) (s : State κ τ) : Prop where
  /-- A record is given back at most once, and is then out of the list. -/
  once : ∀ a, (s.record a).freed = 0 ∨ (s.record a).freed = 1 ∧ a ∉ s.list
  linked : s.list.Nodup ∧ ∀ a ∈ s.list, (s.record a).allocated = true
  returned : ∀ a completion, s.stage a = .returned completion → (s.record a).freed = 1
  /-- A record is not used after it has been given back. -/
  untouched : ∀ a, (s.record a).touched = false
  old : ∀ t a, s.oldVariables t = some a →
    thread a = t ∧ (s.record a).allocated = true ∧ (s.record a).freed = 0
  deleted : ∀ t, s.teb t = .deleted →
    ∀ a, thread a = t → (s.record a).allocated = true → (s.record a).freed = 1
  swept : s.swept = true → ∀ a, (s.record a).allocated = true → (s.record a).freed = 1

/-! ## The invariant -/

/-- There is no record. -/
structure Blank (v : StackVariables) (linked current : Prop) : Prop where
  allocated : v.allocated = false
  freed : v.freed = 0
  linked : ¬ linked
  current : ¬ current

/-- The record is in use; `linked` says whether it is in the list. -/
structure Kept (v : StackVariables) (linked current : Prop) : Prop where
  allocated : v.allocated = true
  freed : v.freed = 0
  linked : linked
  current : current

/-- The record has been given back. -/
structure Gone (v : StackVariables) (linked current : Prop) : Prop where
  allocated : v.allocated = true
  freed : v.freed = 1
  linked : ¬ linked
  current : ¬ current

/-- What the stage of an activation says about its record: whether it is in the list and whether
it is the one the TEB points to. -/
def Matches (v : StackVariables) (linked current : Prop) : Stage → Prop
  | .notCalled | .allocating => Blank v linked current ∧ v.nested = false
  | .raised => Blank v linked current
  | .linking => Kept v (¬ linked) current ∧ v.nested = false
  | .searching | .exiting _ => Kept v linked current ∧ v.nested = false
  | .inHandler =>
    Kept v linked current ∧ v.nested = false ∨ Gone v linked current ∧ v.nested = true
  | .returned _ => Gone v linked current
  | .unwound => Blank v linked current ∨ Kept v linked current ∨ Gone v linked current

/-- The activation is on its thread's stack. -/
def Stage.active : Stage → Bool
  | .notCalled | .returned _ | .unwound => false
  | _ => true

structure Sound (thread : κ → τ) (s : State κ τ) : Prop where
  nodup : s.list.Nodup
  old : ∀ t a, s.oldVariables t = some a → thread a = t
  record : ∀ a, Matches (s.record a) (a ∈ s.list) (s.oldVariables (thread a) = some a) (s.stage a)
  untouched : ∀ a, (s.record a).touched = false
  stackNodup : ∀ t, (s.stack t).Nodup
  stack : ∀ t a, a ∈ s.stack t ↔ thread a = t ∧ (s.stage a).active = true
  /-- All activations but the innermost are in their handlers. -/
  outside : ∀ t, ∀ a ∈ (s.stack t).tail, (s.stage a).outside = true
  allocating : ∀ a, s.stage a = .allocating → s.oldVariables (thread a) = none
  absent : ∀ t, s.teb t = .absent → ∀ a, thread a = t → s.stage a = .notCalled
  deleted : ∀ t, s.teb t = .deleted → s.stack t = [] ∧ s.oldVariables t = none
  swept : s.swept = true → ∀ t, s.stack t = [] ∧ s.teb t ≠ .active

/-! ## Reading and freeing a record that is there -/

namespace State

variable {s : State κ τ} {a : κ} {t : τ}

theorem touch_eq (hfreed : (s.record a).freed = 0) : s.touch a = s := by
  unfold touch setRecord
  have hsame : ({ s.record a with
      touched := (s.record a).touched || decide (0 < (s.record a).freed) } : StackVariables) =
      s.record a := by
    rw [hfreed]
    simp
  rw [hsame, Function.update_eq_self]

theorem free_record (hfreed : (s.record a).freed = 0) (b : κ) :
    (s.free a).record b = if b = a then { s.record a with freed := 1 } else s.record b := by
  show Function.update s.record a _ b = _
  rw [Function.update_apply, hfreed]
  simp

end State

namespace Sound

variable {thread : κ → τ} {s : State κ τ} {a b : κ} {t : τ}

/-- The record the TEB points to is there. -/
theorem current_freed (h : Sound thread s) (hcurrent : s.oldVariables t = some a) :
    (s.record a).allocated = true ∧ (s.record a).freed = 0 := by
  have hthread := h.old t a hcurrent
  have hmatches := h.record a
  have hcurrent' : s.oldVariables (thread a) = some a := hthread ▸ hcurrent
  cases hstage : s.stage a <;> rw [hstage] at hmatches
  case notCalled => exact absurd hcurrent' hmatches.1.current
  case allocating => exact absurd hcurrent' hmatches.1.current
  case linking => exact ⟨hmatches.1.allocated, hmatches.1.freed⟩
  case searching => exact ⟨hmatches.1.allocated, hmatches.1.freed⟩
  case inHandler =>
    rcases hmatches with ⟨hkept, -⟩ | ⟨hgone, -⟩
    · exact ⟨hkept.allocated, hkept.freed⟩
    · exact absurd hcurrent' hgone.current
  case exiting => exact ⟨hmatches.1.allocated, hmatches.1.freed⟩
  case raised => exact absurd hcurrent' hmatches.current
  case returned => exact absurd hcurrent' hmatches.current
  case unwound =>
    rcases hmatches with hblank | hkept | hgone
    · exact absurd hcurrent' hblank.current
    · exact ⟨hkept.allocated, hkept.freed⟩
    · exact absurd hcurrent' hgone.current

/-- An activation that runs itself is the innermost of its thread. -/
theorem head_of_inside (h : Sound thread s) (hactive : (s.stage a).active = true)
    (hinside : (s.stage a).outside = false) :
    ∃ rest, s.stack (thread a) = a :: rest := by
  have hmem := (h.stack (thread a) a).mpr ⟨rfl, hactive⟩
  obtain ⟨b, rest, hstack⟩ := List.exists_cons_of_ne_nil (List.ne_nil_of_mem hmem)
  rw [hstack] at hmem
  rcases List.mem_cons.mp hmem with rfl | hmem
  · exact ⟨rest, hstack⟩
  · have houtside := h.outside (thread a) a (by rw [hstack]; exact hmem)
    rw [hinside] at houtside
    exact absurd houtside (by decide)

/-- Two activations that run themselves are on different threads. -/
theorem inside_unique (h : Sound thread s) (ha : (s.stage a).active = true)
    (ha' : (s.stage a).outside = false) (hb : (s.stage b).active = true)
    (hb' : (s.stage b).outside = false) (hthread : thread a = thread b) : a = b := by
  obtain ⟨rest, hstack⟩ := h.head_of_inside ha ha'
  obtain ⟨rest', hstack'⟩ := h.head_of_inside hb hb'
  rw [hthread, hstack'] at hstack
  exact (List.cons.inj hstack).1.symm

/-! ## The old record -/

/-- The record the TEB points to is given back; the others stay as they are. -/
theorem freeOldVariables_spec (h : Sound thread s) (t : τ) :
    (s.freeOldVariables t).stage = s.stage ∧ (s.freeOldVariables t).stack = s.stack ∧
      (s.freeOldVariables t).teb = s.teb ∧ (s.freeOldVariables t).swept = s.swept ∧
      (∀ u, (s.freeOldVariables t).oldVariables u = if u = t then none else s.oldVariables u) ∧
      (s.freeOldVariables t).list.Nodup ∧
      ∀ b,
        s.oldVariables t = some b ∧
            (s.freeOldVariables t).record b = { s.record b with freed := 1 } ∧
            b ∉ (s.freeOldVariables t).list ∨
          s.oldVariables t ≠ some b ∧ (s.freeOldVariables t).record b = s.record b ∧
            (b ∈ (s.freeOldVariables t).list ↔ b ∈ s.list) := by
  unfold State.freeOldVariables
  split
  case h_1 r hcurrent =>
    obtain ⟨-, hfreed⟩ := h.current_freed hcurrent
    refine ⟨rfl, rfl, rfl, rfl, ?_, h.nodup.erase r, ?_⟩
    · intro u
      exact Function.update_apply s.oldVariables t none u
    · intro b
      by_cases hb : b = r
      · subst hb
        refine .inl ⟨hcurrent, ?_, fun hmem => (h.nodup.mem_erase_iff.mp hmem).1 rfl⟩
        exact (State.free_record hfreed b).trans (if_pos rfl)
      · refine .inr ⟨?_, (State.free_record hfreed b).trans (if_neg hb), ?_⟩
        · intro hcurrent'
          rw [hcurrent] at hcurrent'
          exact hb (Option.some.inj hcurrent').symm
        · exact List.mem_erase_of_ne hb
  case h_2 hnone =>
    refine ⟨rfl, rfl, rfl, rfl, ?_, h.nodup, ?_⟩
    · intro u
      split_ifs with hu
      · rw [hu, hnone]
      · rfl
    · intro b
      exact .inr ⟨by rw [hnone]; nofun, rfl, Iff.rfl⟩

/-- When all activations of the thread are in their handlers, freeing the old record leaves each
of them without a record; `nested` is set for them. -/
theorem freeOldVariables_matches (h : Sound thread s)
    (hidle : ∀ b ∈ s.stack t, (s.stage b).outside = true) (b : κ) :
    Matches
      (if b ∈ s.stack t then { (s.freeOldVariables t).record b with nested := true }
        else (s.freeOldVariables t).record b)
      (b ∈ (s.freeOldVariables t).list)
      ((s.freeOldVariables t).oldVariables (thread b) = some b) (s.stage b) := by
  obtain ⟨-, -, -, -, hold, -, hspec⟩ := h.freeOldVariables_spec t
  have hmatches := h.record b
  by_cases hthread : thread b = t
  · -- the pointer is cleared
    have hnone : (s.freeOldVariables t).oldVariables (thread b) = none := by
      rw [hold, if_pos hthread]
    have hcurrent' : ¬ (s.freeOldVariables t).oldVariables (thread b) = some b := by
      rw [hnone]; nofun
    rw [hthread] at hmatches
    -- a record that the pointer does not lead to stays as it is
    have hblank : Blank (s.record b) (b ∈ s.list) (s.oldVariables t = some b) →
        Blank ((s.freeOldVariables t).record b) (b ∈ (s.freeOldVariables t).list)
          ((s.freeOldVariables t).oldVariables (thread b) = some b) := by
      intro hblank
      obtain ⟨-, hrecord, hlist⟩ := (hspec b).resolve_left fun hleft => hblank.current hleft.1
      rw [hrecord]
      exact ⟨hblank.allocated, hblank.freed, hlist.not.mpr hblank.linked, hcurrent'⟩
    have hgone : Gone (s.record b) (b ∈ s.list) (s.oldVariables t = some b) →
        Gone ((s.freeOldVariables t).record b) (b ∈ (s.freeOldVariables t).list)
          ((s.freeOldVariables t).oldVariables (thread b) = some b) := by
      intro hgone
      obtain ⟨-, hrecord, hlist⟩ := (hspec b).resolve_left fun hleft => hgone.current hleft.1
      rw [hrecord]
      exact ⟨hgone.allocated, hgone.freed, hlist.not.mpr hgone.linked, hcurrent'⟩
    -- the one that it leads to is freed
    have hkept : Kept (s.record b) (b ∈ s.list) (s.oldVariables t = some b) →
        Gone ((s.freeOldVariables t).record b) (b ∈ (s.freeOldVariables t).list)
          ((s.freeOldVariables t).oldVariables (thread b) = some b) := by
      intro hkept
      obtain ⟨-, hrecord, hlist⟩ := (hspec b).resolve_right fun hright => hright.1 hkept.current
      rw [hrecord]
      exact ⟨hkept.allocated, rfl, hlist, hcurrent'⟩
    have hnested : s.oldVariables t ≠ some b →
        ((s.freeOldVariables t).record b).nested = (s.record b).nested := by
      intro hcurrent
      rw [((hspec b).resolve_left fun hleft => hcurrent hleft.1).2.1]
    have hactive : (s.stage b).active = true → b ∈ s.stack t :=
      fun hactive => (h.stack t b).mpr ⟨hthread, hactive⟩
    have hinactive : (s.stage b).active = false → b ∉ s.stack t := by
      intro hinactive hmem
      rw [((h.stack t b).mp hmem).2] at hinactive
      exact absurd hinactive (by decide)
    have houtside : (s.stage b).active = true → (s.stage b).outside = true :=
      fun h => hidle b (hactive h)
    cases hstage : s.stage b <;> rw [hstage] at hmatches hactive hinactive houtside
    case notCalled =>
      rw [if_neg (hinactive rfl)]
      exact ⟨hblank hmatches.1, (hnested hmatches.1.current).trans hmatches.2⟩
    -- no dispatch of the thread is under way but in a handler
    case allocating => exact absurd (houtside rfl) nofun
    case linking => exact absurd (houtside rfl) nofun
    case searching => exact absurd (houtside rfl) nofun
    case exiting => exact absurd (houtside rfl) nofun
    case inHandler =>
      rw [if_pos (hactive rfl)]
      have hgone : Gone ((s.freeOldVariables t).record b) (b ∈ (s.freeOldVariables t).list)
          ((s.freeOldVariables t).oldVariables (thread b) = some b) := by
        rcases hmatches with ⟨hmine, -⟩ | ⟨hmine, -⟩
        · exact hkept hmine
        · exact hgone hmine
      exact .inr ⟨⟨hgone.allocated, hgone.freed, hgone.linked, hgone.current⟩, rfl⟩
    case raised =>
      rw [if_pos (hactive rfl)]
      have hblank := hblank hmatches
      exact ⟨hblank.allocated, hblank.freed, hblank.linked, hblank.current⟩
    case returned =>
      rw [if_neg (hinactive rfl)]
      exact hgone hmatches
    case unwound =>
      rw [if_neg (hinactive rfl)]
      rcases hmatches with hmine | hmine | hmine
      · exact .inl (hblank hmine)
      · exact .inr (.inr (hkept hmine))
      · exact .inr (.inr (hgone hmine))
  -- the records of other threads are left alone
  · have hcurrent : s.oldVariables t ≠ some b := fun hcurrent => hthread (h.old t b hcurrent)
    obtain ⟨-, hrecord, hlist⟩ := (hspec b).resolve_left fun hleft => hcurrent hleft.1
    have hmem : b ∉ s.stack t := fun hmem => hthread ((h.stack t b).mp hmem).1
    rw [if_neg hmem, hrecord, hold, if_neg hthread]
    simpa only [hlist] using hmatches

/-! ## The steps -/

theorem mem_stack (h : Sound thread s) (hhead : (s.stack (thread a)).head? = some a) :
    (s.stage a).active = true :=
  ((h.stack (thread a) a).mp (List.mem_of_head? hhead)).2

theorem not_mem_tail (h : Sound thread s) (hhead : (s.stack (thread a)).head? = some a) (t : τ) :
    a ∉ (s.stack t).tail := by
  intro hmem
  obtain rfl : thread a = t := ((h.stack t a).mp (List.mem_of_mem_tail hmem)).1
  have hnodup := h.stackNodup (thread a)
  rw [List.eq_cons_of_mem_head? hhead] at hnodup
  exact (List.nodup_cons.mp hnodup).1 hmem

/-- The innermost activation of a thread goes on. It may change its record, put it in the list,
or have the TEB point to it. -/
theorem goOn {s' : State κ τ} (h : Sound thread s) (stage : Stage)
    (hhead : (s.stack (thread a)).head? = some a) (hactive : stage.active = true)
    (hstage : stage ≠ .allocating)
    (hnext : s'.stage = Function.update s.stage a stage ∧ s'.stack = s.stack ∧ s'.teb = s.teb ∧
      s'.swept = s.swept)
    (hold : ∀ u, s'.oldVariables u = s.oldVariables u ∨
      u = thread a ∧ s.stage a = .allocating ∧ s'.oldVariables u = some a)
    (hnodup : s'.list.Nodup)
    (hother : ∀ b, b ≠ a → s'.record b = s.record b ∧ (b ∈ s'.list ↔ b ∈ s.list))
    (hself : Matches (s'.record a) (a ∈ s'.list) (s'.oldVariables (thread a) = some a) stage)
    (huntouched : (s'.record a).touched = false) : Sound thread s' := by
  obtain ⟨hstage', hstack, hteb, hswept⟩ := hnext
  have hself' : s'.stage a = stage := by rw [hstage', Function.update_self]
  have hother' : ∀ b, b ≠ a → s'.stage b = s.stage b := by
    intro b hb
    rw [hstage', Function.update_of_ne hb]
  have hhere := h.mem_stack hhead
  refine ⟨hnodup, ?old, ?record, ?untouched, ?stackNodup, ?stack, ?outside, ?allocating, ?absent,
    ?deleted, ?swept⟩
  case old =>
    intro u b hb
    rcases hold u with hsame | ⟨rfl, -, hmine⟩
    · exact h.old u b (hsame ▸ hb)
    · rw [hmine] at hb
      rw [Option.some.inj hb]
  case record =>
    intro b
    by_cases hb : b = a
    · subst hb
      rw [hself']
      exact hself
    · have hmatches := h.record b
      have hcurrent : s'.oldVariables (thread b) = some b ↔ s.oldVariables (thread b) = some b := by
        rcases hold (thread b) with hsame | ⟨hthread, halloc, hmine⟩
        · rw [hsame]
        · rw [hmine, hthread, h.allocating a halloc]
          simp [Ne.symm hb]
      obtain ⟨hrecord, hlist⟩ := hother b hb
      rw [hother' b hb, hrecord]
      simpa only [hcurrent, hlist] using hmatches
  case untouched =>
    intro b
    by_cases hb : b = a
    · exact hb ▸ huntouched
    · rw [(hother b hb).1]
      exact h.untouched b
  case stackNodup => rw [hstack]; exact h.stackNodup
  case stack =>
    intro t b
    rw [hstack, h.stack t b]
    by_cases hb : b = a
    · subst hb
      rw [hself', hactive, hhere]
    · rw [hother' b hb]
  case outside =>
    intro t b hb
    rw [hstack] at hb
    -- the dispatch that goes on is at the top
    have hba : b ≠ a := fun hba => h.not_mem_tail hhead t (hba ▸ hb)
    rw [hother' b hba]
    exact h.outside t b hb
  case allocating =>
    intro b hb
    have hba : b ≠ a := by
      rintro rfl
      exact hstage (hself'.symm.trans hb)
    rw [hother' b hba] at hb
    rcases hold (thread b) with hsame | ⟨hthread, halloc, -⟩
    · rw [hsame]
      exact h.allocating b hb
    -- a thread is in one dispatch at a time
    · exact absurd (h.inside_unique (by rw [hb]; rfl) (by rw [hb]; rfl) (by rw [halloc]; rfl)
        (by rw [halloc]; rfl) hthread) hba
  case absent =>
    intro t ht b hb
    rw [hteb] at ht
    have hnone := h.absent t ht
    have hba : b ≠ a := by
      rintro rfl
      rw [hnone b hb] at hhere
      exact absurd hhere (by decide)
    rw [hother' b hba]
    exact hnone b hb
  case deleted =>
    intro t ht
    rw [hteb] at ht
    obtain ⟨hempty, hnone⟩ := h.deleted t ht
    rw [hstack]
    refine ⟨hempty, ?_⟩
    rcases hold t with hsame | ⟨rfl, -⟩
    · rw [hsame, hnone]
    · rw [hempty] at hhead
      exact absurd hhead nofun
  case swept =>
    rw [hswept, hstack, hteb]
    exact h.swept

theorem head?_of_inside (h : Sound thread s) (hactive : (s.stage a).active = true)
    (hinside : (s.stage a).outside = false) : (s.stack (thread a)).head? = some a := by
  obtain ⟨rest, hstack⟩ := h.head_of_inside hactive hinside
  rw [hstack]
  rfl

theorem allocate (h : Sound thread s) (hen : s.stage a = .allocating) (ok : Bool) :
    Sound thread (s.allocate a (thread a) ok) := by
  have hhead := h.head?_of_inside (by rw [hen]; rfl) (by rw [hen]; rfl)
  have hmatches := h.record a
  rw [hen] at hmatches
  obtain ⟨hblank, hnested⟩ := hmatches
  cases ok with
  | true =>
    refine h.goOn .linking hhead rfl nofun ⟨rfl, rfl, rfl, rfl⟩ ?hold h.nodup ?hother
      ?hself ?huntouched
    case hold =>
      intro u
      by_cases hu : u = thread a
      · exact .inr ⟨hu, hen, by rw [hu]; exact Function.update_self ..⟩
      · exact .inl (Function.update_of_ne hu ..)
    case hother => exact fun b hb => ⟨Function.update_of_ne hb .., Iff.rfl⟩
    case hself =>
      have hrecord : (s.allocate a (thread a) true).record a =
        { s.record a with allocated := true } := Function.update_self ..
      rw [hrecord]
      exact ⟨⟨rfl, hblank.freed, hblank.linked, Function.update_self ..⟩, hnested⟩
    case huntouched =>
      have hrecord : (s.allocate a (thread a) true).record a =
        { s.record a with allocated := true } := Function.update_self ..
      rw [hrecord]
      exact h.untouched a
  | false =>
    exact h.goOn .raised hhead rfl nofun ⟨rfl, rfl, rfl, rfl⟩ (fun _ => .inl rfl)
      h.nodup (fun _ _ => ⟨rfl, Iff.rfl⟩) hblank (h.untouched a)

theorem link (h : Sound thread s) (hen : s.stage a = .linking) : Sound thread (s.link a) := by
  have hhead := h.head?_of_inside (by rw [hen]; rfl) (by rw [hen]; rfl)
  have hmatches := h.record a
  rw [hen] at hmatches
  obtain ⟨hkept, hnested⟩ := hmatches
  unfold State.link
  rw [State.touch_eq hkept.freed]
  refine h.goOn .searching hhead rfl nofun ⟨rfl, rfl, rfl, rfl⟩ (fun _ => .inl rfl)
    (List.nodup_cons.mpr ⟨hkept.linked, h.nodup⟩) ?hother ?hself (h.untouched a)
  case hother => exact fun b hb => ⟨rfl, by simp [hb]⟩
  case hself =>
    exact ⟨⟨hkept.allocated, hkept.freed, List.mem_cons_self, hkept.current⟩, hnested⟩

theorem search (h : Sound thread s) (hen : s.stage a = .searching) (found : Bool) :
    Sound thread (s.search a found) := by
  have hhead := h.head?_of_inside (by rw [hen]; rfl) (by rw [hen]; rfl)
  have hmatches := h.record a
  rw [hen] at hmatches
  obtain ⟨hkept, hnested⟩ := hmatches
  unfold State.search
  rw [State.touch_eq hkept.freed]
  cases found with
  | true =>
    exact h.goOn .inHandler hhead rfl nofun ⟨rfl, rfl, rfl, rfl⟩ (fun _ => .inl rfl)
      h.nodup (fun _ _ => ⟨rfl, Iff.rfl⟩) (.inl ⟨hkept, hnested⟩) (h.untouched a)
  | false =>
    exact h.goOn (.exiting false) hhead rfl nofun ⟨rfl, rfl, rfl, rfl⟩
      (fun _ => .inl rfl) h.nodup (fun _ _ => ⟨rfl, Iff.rfl⟩) ⟨hkept, hnested⟩ (h.untouched a)

/-- A handler returns to a dispatch that still has its record. -/
theorem handlerReturn {noncontinuable : Bool} {disposition : Disposition} (h : Sound thread s)
    (hen : s.stage a = .inHandler) (hhead : (s.stack (thread a)).head? = some a)
    (hguard : (s.record a).nested = false ∧ disposition ≠ .invalid ∧
      (disposition = .continueExecution →
        (s.record a).noncontinuable = false ∧ noncontinuable = false)) :
    Sound thread (s.handlerReturn a noncontinuable disposition) := by
  obtain ⟨hnested, hvalid, hcontinue⟩ := hguard
  have hmatches := h.record a
  rw [hen] at hmatches
  have hkept : Kept (s.record a) (a ∈ s.list) (s.oldVariables (thread a) = some a) := by
    rcases hmatches with ⟨hkept, -⟩ | ⟨-, hnested'⟩
    · exact hkept
    · rw [hnested] at hnested'
      exact absurd hnested' (by decide)
  -- wherever the dispatch goes on, only a flag of the record has changed
  have hgoOn : ∀ stage : Stage, stage.active = true → stage ≠ .allocating →
      (∀ v linked current, Kept v linked current → v.nested = false →
        Matches v linked current stage) →
      Sound thread ((s.setRecord a { s.record a with
        noncontinuable := (s.record a).noncontinuable || noncontinuable }).goto a stage) := by
    intro stage hactive hstage hstays
    have hrecord : ((s.setRecord a { s.record a with
        noncontinuable := (s.record a).noncontinuable || noncontinuable }).goto a stage).record a =
        { s.record a with noncontinuable := (s.record a).noncontinuable || noncontinuable } :=
      Function.update_self ..
    refine h.goOn stage hhead hactive hstage ⟨rfl, rfl, rfl, rfl⟩ (fun _ => .inl rfl)
      h.nodup (fun b hb => ⟨Function.update_of_ne hb .., Iff.rfl⟩) ?hself ?huntouched
    case hself =>
      rw [hrecord]
      exact hstays _ _ _ ⟨hkept.allocated, hkept.freed, hkept.linked, hkept.current⟩ hnested
    case huntouched =>
      rw [hrecord]
      exact h.untouched a
  unfold State.handlerReturn
  rw [State.touch_eq hkept.freed]
  cases disposition with
  | continueExecution =>
    obtain ⟨hflag, rfl⟩ := hcontinue rfl
    dsimp only
    rw [if_neg (by rw [hflag]; decide)]
    exact hgoOn (.exiting true) rfl nofun fun _ _ _ hkept hnested => ⟨hkept, hnested⟩
  | continueSearch => exact hgoOn .searching rfl nofun fun _ _ _ hkept hnested => ⟨hkept, hnested⟩
  | nestedException =>
    exact hgoOn .searching rfl nofun fun _ _ _ hkept hnested => ⟨hkept, hnested⟩
  | collidedUnwind =>
    exact hgoOn .inHandler rfl nofun fun _ _ _ hkept hnested => .inl ⟨hkept, hnested⟩
  | invalid => exact absurd rfl hvalid

/-- The stack below the activations that leave it. -/
theorem leave {s' : State κ τ} (h : Sound thread s) (t : τ) (gone : κ → Prop)
    [DecidablePred gone] (stage : κ → Stage)
    (hnext : s'.stage = (fun b => if gone b then stage b else s.stage b) ∧ s'.teb = s.teb ∧
      s'.swept = s.swept)
    (hgone : ∀ b, gone b → (stage b).active = false ∧ stage b ≠ .notCalled ∧ b ∈ s.stack t)
    (hstack : s'.stack = Function.update s.stack t ((s.stack t).filter fun b => ¬ gone b))
    (hsuffix : (s.stack t).filter (fun b => ¬ gone b) <:+ (s.stack t))
    (hold : ∀ u, s'.oldVariables u = s.oldVariables u ∨ s'.oldVariables u = none)
    (hnodup : s'.list.Nodup)
    (hrecord : ∀ b, Matches (s'.record b) (b ∈ s'.list) (s'.oldVariables (thread b) = some b)
      (s'.stage b))
    (huntouched : ∀ b, (s'.record b).touched = false) : Sound thread s' := by
  obtain ⟨hstage, hteb, hswept⟩ := hnext
  have hstays : ∀ b, ¬ gone b → s'.stage b = s.stage b := fun b hb => by
    rw [hstage]; exact if_neg hb
  have hgoes : ∀ b, gone b → s'.stage b = stage b := fun b hb => by
    rw [hstage]; exact if_pos hb
  have hstack' : ∀ u b, b ∈ s'.stack u ↔ b ∈ s.stack u ∧ ¬ gone b := by
    intro u b
    rw [hstack]
    by_cases hu : u = t
    · subst hu
      simp
    · rw [Function.update_of_ne hu]
      -- a dispatch is on the stack of its own thread alone
      refine (and_iff_left_of_imp fun hmem hb => hu ?_).symm
      have := ((h.stack t b).mp (hgone b hb).2.2).1
      rw [← ((h.stack u b).mp hmem).1, this]
  have hsub : ∀ u, s'.stack u <:+ s.stack u := by
    intro u
    rw [hstack]
    by_cases hu : u = t
    · rw [hu, Function.update_self]
      exact hsuffix
    · rw [Function.update_of_ne hu]
  refine ⟨hnodup, ?old, hrecord, huntouched, ?stackNodup, ?stack, ?outside, ?allocating, ?absent,
    ?deleted, ?swept⟩
  case old =>
    intro u b hb
    rcases hold u with hsame | hnone
    · exact h.old u b (hsame ▸ hb)
    · rw [hnone] at hb
      exact absurd hb nofun
  case stackNodup => exact fun u => (hsub u).sublist.nodup (h.stackNodup u)
  case stack =>
    intro u b
    rw [hstack', h.stack u b]
    by_cases hb : gone b
    · rw [hgoes b hb, (hgone b hb).1]
      simp [hb]
    · rw [hstays b hb]
      simp [hb]
  case outside =>
    intro u b hb
    have hmem := ((hstack' u b).mp (List.mem_of_mem_tail hb)).2
    rw [hstays b hmem]
    -- what is below the top was below the top before
    obtain ⟨above, habove⟩ := hsub u
    apply h.outside u b
    rw [← habove]
    cases above with
    | nil => exact hb
    | cons c above => exact List.mem_append_right _ (List.mem_of_mem_tail hb)
  case allocating =>
    intro b hb
    have hbg : ¬ gone b := by
      intro hbg
      rw [hgoes b hbg] at hb
      have := (hgone b hbg).1
      rw [hb] at this
      exact absurd this (by decide)
    rw [hstays b hbg] at hb
    rcases hold (thread b) with hsame | hnone
    · rw [hsame]
      exact h.allocating b hb
    · exact hnone
  case absent =>
    intro u hu b hb
    rw [hteb] at hu
    have hnone := h.absent u hu b hb
    have hbg : ¬ gone b := by
      intro hbg
      have hactive := ((h.stack t b).mp (hgone b hbg).2.2).2
      rw [hnone] at hactive
      exact absurd hactive (by decide)
    rw [hstays b hbg, hnone]
  case deleted =>
    intro u hu
    rw [hteb] at hu
    obtain ⟨hempty, hnone⟩ := h.deleted u hu
    refine ⟨List.suffix_nil.mp (hempty ▸ hsub u), ?_⟩
    rcases hold u with hsame | hnone'
    · rw [hsame, hnone]
    · exact hnone'
  case swept =>
    intro hdone u
    rw [hswept] at hdone
    obtain ⟨hempty, hactive⟩ := h.swept hdone u
    exact ⟨List.suffix_nil.mp (hempty ▸ hsub u), hteb ▸ hactive⟩

/-- All activations of a thread are in their handlers if the innermost is. -/
theorem outside_of_head (h : Sound thread s)
    (hhead : ∀ b ∈ (s.stack t).head?, (s.stage b).outside = true) :
    ∀ b ∈ s.stack t, (s.stage b).outside = true := by
  intro b hb
  have htail := h.outside t b
  cases hstack : s.stack t with
  | nil => rw [hstack] at hb; exact absurd hb List.not_mem_nil
  | cons c below =>
    rw [hstack] at hb htail hhead
    rcases List.mem_cons.mp hb with rfl | hb
    · exact hhead b rfl
    · exact htail hb

/-- At `DispatchExit` the record goes and the TEB points to none. -/
theorem exit {completion : Bool} (h : Sound thread s) (hen : s.stage a = .exiting completion) :
    Sound thread (s.exit a (thread a) completion) := by
  obtain ⟨rest, hrest⟩ := h.head_of_inside (a := a) (by rw [hen]; rfl) (by rw [hen]; rfl)
  have hnodup := h.stackNodup (thread a)
  rw [hrest] at hnodup
  have hnot : a ∉ rest := (List.nodup_cons.mp hnodup).1
  have hmatches := h.record a
  rw [hen] at hmatches
  obtain ⟨hkept, -⟩ := hmatches
  have hrecord : ∀ b, (s.exit a (thread a) completion).record b =
      if b = a then { s.record a with freed := 1 } else s.record b :=
    State.free_record (s := s.setOldVariables (thread a) none) hkept.freed
  have hlist : ∀ b, b ∈ (s.exit a (thread a) completion).list ↔ b ∈ s.list ∧ b ≠ a := by
    intro b
    show b ∈ s.list.erase a ↔ _
    rw [h.nodup.mem_erase_iff, and_comm]
  have hold : ∀ u, (s.exit a (thread a) completion).oldVariables u =
      if u = thread a then none else s.oldVariables u :=
    fun u => Function.update_apply s.oldVariables (thread a) none u
  -- the dispatch leaves the top of the stack, and those below stay
  have hfilter : (s.stack (thread a)).filter (fun b => ¬ b = a) = rest := by
    rw [hrest, List.filter_cons_of_neg (by simp), List.filter_eq_self]
    intro b hb
    simpa using ne_of_mem_of_not_mem hb hnot
  refine h.leave (thread a) (· = a) (fun _ => .returned completion)
    ⟨?hstage, rfl, rfl⟩ ?hgone ?hstack ?hsuffix ?hold (h.nodup.erase a) ?hmatches ?huntouched
  case hstage => exact funext fun b => Function.update_apply s.stage a _ b
  case hgone =>
    rintro b rfl
    exact ⟨rfl, nofun, by rw [hrest]; exact List.mem_cons_self⟩
  case hstack =>
    rw [hfilter]
    show Function.update s.stack (thread a) (s.stack (thread a)).tail = _
    rw [hrest]
    rfl
  case hsuffix =>
    rw [hfilter, hrest]
    exact List.suffix_cons a rest
  case hold =>
    intro u
    rw [hold]
    split_ifs
    · exact .inr rfl
    · exact .inl rfl
  case hmatches =>
    intro b
    rw [hrecord, hold]
    simp only [hlist]
    by_cases hb : b = a
    · subst hb
      have hstage : (s.exit b (thread b) completion).stage b = .returned completion :=
        Function.update_self ..
      rw [hstage, if_pos rfl, if_pos rfl]
      exact ⟨hkept.allocated, rfl, fun hmem => hmem.2 rfl, nofun⟩
    · have hstage : (s.exit a (thread a) completion).stage b = s.stage b :=
        Function.update_of_ne hb ..
      -- the pointer led to this record, so to no other one
      have hcurrent : (if thread b = thread a then none else s.oldVariables (thread b)) = some b ↔
          s.oldVariables (thread b) = some b := by
        split_ifs with hthread
        · rw [hthread, hkept.current]
          simp [Ne.symm hb]
        · rfl
      rw [hstage, if_neg hb]
      simpa only [hcurrent, ne_eq, hb, not_false_eq_true, and_true] using h.record b
  case huntouched =>
    intro b
    rw [hrecord]
    split_ifs
    · exact h.untouched a
    · exact h.untouched b

/-- The frames that are unwound were all in their handlers; their records stay. -/
theorem unwind (h : Sound thread s) (hmem : a ∈ s.stack (thread a))
    (hhead : ∀ b ∈ (s.stack (thread a)).head?, (s.stage b).outside = true) :
    Sound thread (s.unwind a (thread a)) := by
  obtain ⟨above, rest, hsplit, habove⟩ : ∃ above rest, s.stack (thread a) = above ++ a :: rest ∧
      a ∉ above := List.eq_append_cons_of_mem hmem
  have hnodup := h.stackNodup (thread a)
  rw [hsplit] at hnodup
  have htake : (s.stack (thread a)).takeWhile (· ≠ a) = above := by
    rw [hsplit, List.takeWhile_append_of_pos, List.takeWhile_cons_of_neg (by simp),
      List.append_nil]
    intro b hb
    simpa using ne_of_mem_of_not_mem hb habove
  have hdrop : (s.stack (thread a)).dropWhile (· ≠ a) = a :: rest := by
    rw [hsplit, List.dropWhile_append_of_pos, List.dropWhile_cons_of_neg (by simp)]
    intro b hb
    simpa using ne_of_mem_of_not_mem hb habove
  have houtside := h.outside_of_head hhead
  have hgone : ∀ b, (b ∈ above ∨ b = a) → b ∈ s.stack (thread a) := by
    rintro b (hb | rfl)
    · rw [hsplit]
      exact List.mem_append_left _ hb
    · exact hmem
  -- the dispatch goes with all that are above it
  have hfilter : (s.stack (thread a)).filter (fun b => ¬ (b ∈ above ∨ b = a)) = rest := by
    obtain ⟨-, hrest, hdisjoint⟩ := List.nodup_append.mp hnodup
    rw [hsplit, List.filter_append, List.filter_cons_of_neg (by simp)]
    have hnil : above.filter (fun b => ¬ (b ∈ above ∨ b = a)) = [] := by
      rw [List.filter_eq_nil_iff]
      intro b hb
      simp [hb]
    have hall : rest.filter (fun b => ¬ (b ∈ above ∨ b = a)) = rest := by
      rw [List.filter_eq_self]
      intro b hb
      have hnotabove : b ∉ above :=
        fun hab => hdisjoint b hab b (List.mem_cons_of_mem a hb) rfl
      have hnota : b ≠ a := ne_of_mem_of_not_mem hb (List.nodup_cons.mp hrest).1
      simp [hnotabove, hnota]
    rw [hnil, hall, List.nil_append]
  have hstage : (s.unwind a (thread a)).stage =
      fun b => if b ∈ above ∨ b = a then .unwound else s.stage b := by
    unfold State.unwind
    simp only [htake]
  refine h.leave (thread a) (fun b => b ∈ above ∨ b = a) (fun _ => .unwound)
    ⟨hstage, rfl, rfl⟩ (fun b hb => ⟨rfl, nofun, hgone b hb⟩) ?hstack ?hsuffix
    (fun _ => .inl rfl) h.nodup ?hmatches h.untouched
  case hstack =>
    rw [hfilter]
    show Function.update s.stack (thread a) ((s.stack (thread a)).dropWhile (· ≠ a)).tail = _
    rw [hdrop]
    rfl
  case hsuffix =>
    rw [hfilter, hsplit]
    exact (List.suffix_cons a rest).trans (List.suffix_append above _)
  case hmatches =>
    intro b
    rw [hstage]
    dsimp only
    have hmatches := h.record b
    split_ifs with hb
    · have hout := houtside b (hgone b hb)
      cases hstage : s.stage b <;> rw [hstage] at hmatches hout
      case inHandler =>
        rcases hmatches with ⟨hkept, -⟩ | ⟨hgone, -⟩
        · exact .inr (.inl hkept)
        · exact .inr (.inr hgone)
      case raised => exact .inl hmatches
      -- no dispatch inside its own code is unwound
      all_goals exact absurd hout nofun
    · exact hmatches

theorem freeOldVariables_untouched (h : Sound thread s) (b : κ) :
    ((s.freeOldVariables t).record b).touched = false := by
  obtain ⟨-, -, -, -, -, -, hspec⟩ := h.freeOldVariables_spec t
  rcases hspec b with ⟨-, hrecord, -⟩ | ⟨-, hrecord, -⟩
  · rw [hrecord]
    exact h.untouched b
  · rw [hrecord]
    exact h.untouched b

/-- A new activation gives back the record that is left over, of a dispatch that was unwound or
of the one whose handler raises the exception. -/
theorem enter (h : Sound thread s) (hen : s.stage a = .notCalled)
    (hteb : s.teb (thread a) ≠ .deleted)
    (hdone : s.swept = false)
    (hhead : ∀ b ∈ (s.stack (thread a)).head?, (s.stage b).outside = true)
    (noncontinuable : Bool) : Sound thread (s.enter a (thread a) noncontinuable) := by
  have hidle := h.outside_of_head hhead
  obtain ⟨hstage₁, hstack₁, hteb₁, hswept₁, hold, hnodup, -⟩ := h.freeOldVariables_spec (thread a)
  have hmatches := h.freeOldVariables_matches hidle
  have huntouched := h.freeOldVariables_untouched (t := thread a)
  unfold State.enter
  generalize s.freeOldVariables (thread a) = s₁ at *
  -- a dispatch that is about to begin is on no stack
  have hnot : a ∉ s.stack (thread a) := by
    intro hmem
    have := ((h.stack _ a).mp hmem).2
    rw [hen] at this
    exact absurd this (by decide)
  have hstage : ∀ b, Function.update s₁.stage a Stage.allocating b =
      if b = a then .allocating else s.stage b := by
    intro b
    rw [Function.update_apply, hstage₁]
  have hstack : ∀ u, Function.update s₁.stack (thread a) (a :: s₁.stack (thread a)) u =
      if u = thread a then a :: s.stack (thread a) else s.stack u := by
    intro u
    rw [Function.update_apply, hstack₁]
  refine ⟨hnodup, ?old, ?record, ?untouched, ?stackNodup, ?stack, ?outside, ?allocating, ?absent,
    ?deleted, ?swept⟩
  case old =>
    intro u b hb
    change s₁.oldVariables u = some b at hb
    rw [hold] at hb
    split_ifs at hb
    exact h.old u b hb
  case record =>
    intro b
    have hb' := hmatches b
    dsimp only [State.goto]
    rw [hstage, hstack₁]
    by_cases hb : b = a
    · subst hb
      rw [if_neg hnot, hen] at hb'
      rw [if_pos rfl, if_pos rfl]
      obtain ⟨hblank, hnested⟩ := hb'
      exact ⟨⟨hblank.allocated, hblank.freed, hblank.linked, hblank.current⟩, hnested⟩
    · rw [if_neg hb, if_neg hb]
      exact hb'
  case untouched =>
    intro b
    dsimp only
    split_ifs
    · exact huntouched a
    · exact huntouched b
    · exact huntouched b
  case stackNodup =>
    intro u
    show (Function.update s₁.stack (thread a) _ u).Nodup
    rw [hstack]
    split_ifs
    · exact List.nodup_cons.mpr ⟨hnot, h.stackNodup _⟩
    · exact h.stackNodup u
  case stack =>
    intro u b
    show b ∈ Function.update s₁.stack (thread a) _ u ↔ _ ∧ (Function.update s₁.stage a _ b).active = _
    rw [hstack, hstage]
    by_cases hb : b = a
    · subst hb
      rw [if_pos rfl]
      split_ifs with hu
      · simp [hu, Stage.active]
      · have hmem : b ∉ s.stack u := fun hmem => hu ((h.stack u b).mp hmem).1.symm
        simp [hmem, Ne.symm hu]
    · rw [if_neg hb]
      split_ifs with hu
      · rw [List.mem_cons, or_iff_right hb, hu, h.stack (thread a) b]
      · exact h.stack u b
  case outside =>
    intro u b hb
    show (Function.update s₁.stage a Stage.allocating b).outside = true
    change b ∈ (Function.update s₁.stack (thread a) _ u).tail at hb
    rw [hstack] at hb
    have hmem : b ∈ s.stack u ∧ (s.stage b).outside = true := by
      split_ifs at hb with hu
      · exact ⟨hu ▸ hb, hidle b hb⟩
      · exact ⟨List.mem_of_mem_tail hb, h.outside u b hb⟩
    -- below the new dispatch there are those that wait in a handler
    have hba : b ≠ a := by
      rintro rfl
      have := hmem.2
      rw [hen] at this
      exact absurd this (by decide)
    rw [hstage, if_neg hba]
    exact hmem.2
  case allocating =>
    intro b hb
    change Function.update s₁.stage a Stage.allocating b = _ at hb
    show s₁.oldVariables (thread b) = none
    rw [hold]
    by_cases hba : b = a
    · rw [if_pos (congrArg thread hba)]
    · rw [hstage, if_neg hba] at hb
      split_ifs
      · rfl
      · exact h.allocating b hb
  case absent =>
    intro u hu b hb
    change Function.update s₁.teb (thread a) .active u = _ at hu
    rw [Function.update_apply, hteb₁] at hu
    split_ifs at hu with hua
    have hba : b ≠ a := by
      rintro rfl
      exact hua hb.symm
    show Function.update s₁.stage a Stage.allocating b = _
    rw [hstage, if_neg hba]
    exact h.absent u hu b hb
  case deleted =>
    intro u hu
    change Function.update s₁.teb (thread a) .active u = _ at hu
    rw [Function.update_apply, hteb₁] at hu
    split_ifs at hu with hua
    obtain ⟨hempty, hnone⟩ := h.deleted u hu
    refine ⟨?_, ?_⟩
    · show Function.update s₁.stack (thread a) _ u = []
      rw [hstack, if_neg hua]
      exact hempty
    · show s₁.oldVariables u = none
      rw [hold, if_neg hua]
      exact hnone
  case swept =>
    intro hswept
    change s₁.swept = true at hswept
    rw [hswept₁, hdone] at hswept
    exact absurd hswept (by decide)

/-- With the TEB goes the record of a dispatch that was unwound. -/
theorem deleteTeb (h : Sound thread s) (hempty : s.stack t = []) :
    Sound thread (s.deleteTeb t) := by
  obtain ⟨hstage₁, hstack₁, -, hswept₁, hold, hnodup, -⟩ := h.freeOldVariables_spec t
  -- the thread has no dispatch left
  have hmatches := h.freeOldVariables_matches (t := t) (by rw [hempty]; exact nofun)
  have huntouched := h.freeOldVariables_untouched (t := t)
  unfold State.deleteTeb
  generalize s.freeOldVariables t = s₁ at *
  have hteb : ∀ u, Function.update s.teb t Teb.deleted u = if u = t then .deleted else s.teb u :=
    fun u => Function.update_apply s.teb t .deleted u
  refine ⟨hnodup, ?old, ?record, huntouched, ?stackNodup, ?stack, ?outside, ?allocating, ?absent,
    ?deleted, ?swept⟩
  case old =>
    intro u b hb
    change s₁.oldVariables u = some b at hb
    rw [hold] at hb
    split_ifs at hb
    exact h.old u b hb
  case record =>
    intro b
    have hb := hmatches b
    rw [hempty, if_neg List.not_mem_nil, ← hstage₁] at hb
    exact hb
  case stackNodup => exact hstack₁ ▸ h.stackNodup
  case stack => exact hstack₁ ▸ hstage₁ ▸ h.stack
  case outside => exact hstack₁ ▸ hstage₁ ▸ h.outside
  case allocating =>
    intro b hb
    change s₁.stage b = _ at hb
    show s₁.oldVariables (thread b) = none
    rw [hold]
    split_ifs
    · rfl
    · exact h.allocating b (hstage₁ ▸ hb)
  case absent =>
    intro u hu b hb
    change Function.update s.teb t Teb.deleted u = _ at hu
    rw [hteb] at hu
    split_ifs at hu
    show s₁.stage b = _
    rw [hstage₁]
    exact h.absent u hu b hb
  case deleted =>
    intro u hu
    change Function.update s.teb t Teb.deleted u = _ at hu
    show s₁.stack u = [] ∧ s₁.oldVariables u = none
    rw [hteb] at hu
    rw [hstack₁, hold]
    split_ifs at hu ⊢ with hut
    · exact ⟨hut ▸ hempty, rfl⟩
    · exact h.deleted u hu
  case swept =>
    intro hswept u
    obtain ⟨hempty, hinactive⟩ := h.swept (hswept₁ ▸ hswept) u
    refine ⟨hstack₁ ▸ hempty, ?_⟩
    show Function.update s.teb t Teb.deleted u ≠ _
    rw [hteb]
    split_ifs
    · exact nofun
    · exact hinactive

/-- No record is left when all TEBs are gone. -/
theorem list_eq_nil (h : Sound thread s)
    (hdone : ∀ t, s.stack t = [] ∧ s.teb t ≠ .active) : s.list = [] := by
  rw [List.eq_nil_iff_forall_not_mem]
  intro b hb
  obtain ⟨hempty, hinactive⟩ := hdone (thread b)
  have hmatches := h.record b
  have hcases : s.stage b = .notCalled ∨ s.oldVariables (thread b) = none := by
    cases hteb : s.teb (thread b) with
    | absent => exact .inl (h.absent _ hteb b rfl)
    | active => exact absurd hteb hinactive
    | deleted => exact .inr (h.deleted _ hteb).2
  have hidle : (s.stage b).active = false := by
    by_contra hactive
    have := (h.stack (thread b) b).mpr ⟨rfl, by simpa using hactive⟩
    rw [hempty] at this
    exact absurd this List.not_mem_nil
  rcases hcases with hstage | hnone
  · rw [hstage] at hmatches
    exact hmatches.1.linked hb
  · cases hstage : s.stage b <;> rw [hstage] at hmatches hidle
    case notCalled => exact hmatches.1.linked hb
    case returned => exact hmatches.linked hb
    case unwound =>
      rcases hmatches with hblank | hkept | hgone
      · exact hblank.linked hb
      · have := hkept.current
        rw [hnone] at this
        exact absurd this nofun
      · exact hgone.linked hb
    all_goals exact absurd hidle nofun

theorem sweep (h : Sound thread s) (hdone : ∀ t, s.stack t = [] ∧ s.teb t ≠ .active) :
    Sound thread s.sweep := by
  have hnil := h.list_eq_nil hdone
  have hsame : s.sweep = { s with swept := true } := by
    unfold State.sweep
    simp only [hnil, List.not_mem_nil, if_false]
  rw [hsame]
  exact { h with swept := fun _ => hdone }

theorem next (h : Sound thread s) (c : Action κ τ) (hen : (dispatch thread).enabled s c)
    (hguard : Orderly s c) : Sound thread ((dispatch thread).next s c) := by
  cases c with
  | enter a noncontinuable => exact h.enter hen.1 hen.2.1 hen.2.2.1 hen.2.2.2 noncontinuable
  | allocate a ok => exact h.allocate hen ok
  | link a => exact h.link hen
  | search a found => exact h.search hen found
  | handlerReturn a noncontinuable disposition => exact h.handlerReturn hen.1 hen.2 hguard
  | exit a completion => exact h.exit hen
  | unwind a => exact h.unwind hen.1 hen.2
  | deleteTeb t => exact h.deleteTeb hen.2
  | sweep => exact h.sweep hen.2

end Sound

/-! ## Every orderly run -/

variable {thread : κ → τ}

theorem sound_of_orderly :
    ∀ s, (dispatch thread).Reachable Orderly s → Sound thread s := by
  apply System.Reachable.invariant
  · intro s hinit
    rw [show s = initialState κ τ from hinit]
    exact ⟨List.nodup_nil, nofun, fun _ => ⟨⟨rfl, rfl, List.not_mem_nil, nofun⟩, rfl⟩,
      fun _ => rfl, fun _ => List.nodup_nil, fun _ _ => by simp [initialState, Stage.active],
      fun _ _ hb => absurd hb List.not_mem_nil, nofun, fun _ _ _ _ => rfl, nofun, nofun⟩
  · exact fun s c h hen hg => h.next c hen hg

/-- Every record is given back once, by its own activation, by the next one of its thread, or
with the TEB, and nobody uses it afterwards. -/
theorem records_are_given_back_once {s : State κ τ}
    (hreach : (dispatch thread).Reachable Orderly s) : RecordsKept thread s := by
  have h := sound_of_orderly s hreach
  -- an activation has no record, or one that is in use, or one that has been given back
  have hcases : ∀ a,
      ((s.record a).allocated = false ∧ (s.record a).freed = 0 ∧ a ∉ s.list) ∨
        ((s.record a).allocated = true ∧ (s.record a).freed = 0 ∧
          s.oldVariables (thread a) = some a) ∨
        ((s.record a).allocated = true ∧ (s.record a).freed = 1 ∧ a ∉ s.list) := by
    intro a
    have hmatches := h.record a
    cases hstage : s.stage a <;> rw [hstage] at hmatches
    case notCalled => exact .inl ⟨hmatches.1.allocated, hmatches.1.freed, hmatches.1.linked⟩
    case allocating => exact .inl ⟨hmatches.1.allocated, hmatches.1.freed, hmatches.1.linked⟩
    case raised => exact .inl ⟨hmatches.allocated, hmatches.freed, hmatches.linked⟩
    case linking =>
      exact .inr (.inl ⟨hmatches.1.allocated, hmatches.1.freed, hmatches.1.current⟩)
    case searching =>
      exact .inr (.inl ⟨hmatches.1.allocated, hmatches.1.freed, hmatches.1.current⟩)
    case exiting =>
      exact .inr (.inl ⟨hmatches.1.allocated, hmatches.1.freed, hmatches.1.current⟩)
    case inHandler =>
      rcases hmatches with ⟨hkept, -⟩ | ⟨hgone, -⟩
      · exact .inr (.inl ⟨hkept.allocated, hkept.freed, hkept.current⟩)
      · exact .inr (.inr ⟨hgone.allocated, hgone.freed, hgone.linked⟩)
    case returned =>
      exact .inr (.inr ⟨hmatches.allocated, hmatches.freed, hmatches.linked⟩)
    case unwound =>
      rcases hmatches with hblank | hkept | hgone
      · exact .inl ⟨hblank.allocated, hblank.freed, hblank.linked⟩
      · exact .inr (.inl ⟨hkept.allocated, hkept.freed, hkept.current⟩)
      · exact .inr (.inr ⟨hgone.allocated, hgone.freed, hgone.linked⟩)
  have hfreed : ∀ a, s.oldVariables (thread a) = none → (s.record a).allocated = true →
      (s.record a).freed = 1 := by
    intro a hnone hallocated
    rcases hcases a with ⟨hblank, -⟩ | ⟨-, -, hcurrent⟩ | ⟨-, hgone, -⟩
    · rw [hallocated] at hblank
      exact absurd hblank (by decide)
    · rw [hnone] at hcurrent
      exact absurd hcurrent nofun
    · exact hgone
  refine ⟨?once, ⟨h.nodup, ?linked⟩, ?returned, h.untouched, ?old, ?deleted, ?swept⟩
  case once =>
    intro a
    rcases hcases a with ⟨-, hzero, -⟩ | ⟨-, hzero, -⟩ | ⟨-, hone, hlist⟩
    · exact .inl hzero
    · exact .inl hzero
    · exact .inr ⟨hone, hlist⟩
  case linked =>
    intro a ha
    rcases hcases a with ⟨-, -, hlist⟩ | ⟨hallocated, -⟩ | ⟨-, -, hlist⟩
    · exact absurd ha hlist
    · exact hallocated
    · exact absurd ha hlist
  case returned =>
    intro a completion hstage
    have hmatches := h.record a
    rw [hstage] at hmatches
    exact hmatches.freed
  case old =>
    intro t a hcurrent
    exact ⟨h.old t a hcurrent, h.current_freed hcurrent⟩
  case deleted =>
    rintro t ht a rfl hallocated
    exact hfreed a (h.deleted _ ht).2 hallocated
  case swept =>
    intro hdone a hallocated
    obtain ⟨-, hinactive⟩ := h.swept hdone (thread a)
    cases hteb : s.teb (thread a) with
    | active => exact absurd hteb hinactive
    | deleted => exact hfreed a (h.deleted _ hteb).2 hallocated
    | absent =>
      have hmatches := h.record a
      rw [h.absent _ hteb a rfl] at hmatches
      rw [hmatches.1.allocated] at hallocated
      exact absurd hallocated (by decide)

/-- On thread `false` a dispatch ends after two handlers. On thread `true` the handler of another
raises an exception, whose own handler unwinds both; the next exception of the thread is unwound
as well, and the runtime is torn down. -/
theorem unwound_records_are_given_back :
    RecordsKept ![false, true, true, true]
      ((dispatch (κ := Fin 4) (τ := Bool) ![false, true, true, true]).exec (initialState _ _)
        [.enter 0 false, .enter 1 true, .allocate 1 true, .allocate 0 true, .link 0, .link 1,
          .search 0 true, .search 1 true, .handlerReturn 0 false .continueSearch, .enter 2 false,
          .allocate 2 true, .search 0 true, .link 2, .search 2 true, .unwind 1,
          .handlerReturn 0 false .continueExecution, .exit 0 true, .enter 3 false,
          .allocate 3 true, .link 3, .search 3 true, .unwind 3, .deleteTeb true,
          .deleteTeb false, .sweep]) :=
  records_are_given_back_once (System.reachable_exec _ _ rfl (by decide +kernel))

/-- A handler raises an exception, whose dispatch frees the record of the outer one, and returns
when that has been continued. -/
theorem nested_dispatch_uses_freed_record :
    ¬ ∀ s, (dispatch (κ := Fin 2) (τ := Unit) fun _ => ()).Reachable Always s →
      RecordsKept (fun _ => ()) s := by
  intro h
  have hs := h _ (System.reachable_exec (initialState _ _)
    [.enter 0 false, .allocate 0 true, .link 0, .search 0 true,
      .enter 1 false, .allocate 1 true, .link 1, .search 1 true,
      .handlerReturn 1 false .continueExecution, .exit 1 true,
      .handlerReturn 0 false .continueSearch] rfl (by decide +kernel))
  exact absurd (hs.untouched 0) (by decide +kernel)

end Ldk.Except
