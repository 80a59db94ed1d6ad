import Mathlib
import Ldk.WaitObject.Steps

set_option linter.unusedSectionVars false

/-!
# The handle table of named mutexes

While no handle of a mutex is duplicated and no search by name comes upon an object without
handles, the counts are those of the open handles and of the calls under way, and all handles of
one name denote one mutex (`handle_table_is_consistent`). A duplicated handle is not counted, and
closing the first handle then takes the name away from the second (`duplicate_splits_the_name`).
-/

namespace Ldk.WaitObject

open TransitionSystem

variable {κ ν τ : Type} [DecidableEq κ] [DecidableEq ν] [DecidableEq τ]

/-! ## The condition -/

/-- `LdkDuplicateProcessHandle` finds no handle of a wait object, and a search by name no object
whose `HandleCount` is `0`. -/
def CountsHandles (s : State κ ν τ) : Action κ ν → Prop
  | .find _ name _ | .openNamed _ name | .register _ _ name =>
    ∀ o ∈ s.findNamed name, (s.object o).handleCount ≠ 0
  | .lookUpSource _ h => ∀ hd ∈ s.lookupHandle h, hd.object = none
  | _ => True

instance (s : State κ ν τ) (a : Action κ ν) : Decidable (CountsHandles s a) := by
  rcases a <;> simp only [CountsHandles] <;> infer_instance

/-! ## Consistency -/

structure Consistent (s : State κ ν τ) : Prop where
  /-- The open handles, and those that calls are opening or closing. -/
  handleCount : ∀ o, (s.object o).opened = true →
    (s.object o).handleCount = s.handlesOf o + s.held Stage.handleReferences o
  referenceCount : ∀ o, (s.object o).opened = true →
    (s.object o).referenceCount = (s.object o).handleCount + s.held Stage.references o
  freedOnce : ∀ o, (s.object o).freed ≤ 1
  freedLast : ∀ o, (s.object o).opened = true →
    ((s.object o).freed = 1 ↔ (s.object o).handleCount = 0 ∧ (s.object o).referenceCount = 0)
  alive : ∀ hd ∈ s.handles, ∀ o, hd.object = some o →
    (s.object o).opened = true ∧ (s.object o).freed = 0 ∧
      ((s.object o).name ≠ none → o ∈ s.nameList)
  /-- Two open handles of one name denote one mutex. -/
  unique : ∀ hd ∈ s.handles, ∀ hd' ∈ s.handles, ∀ o o', hd.object = some o →
    hd'.object = some o' → (s.object o).name ≠ none → (s.object o).name = (s.object o').name →
    o = o'

/-! ## The invariant -/

/-- A handle is open, or about to be opened. -/
def State.InUse (s : State κ ν τ) (o : κ) : Prop :=
  (∃ hd ∈ s.handles, hd.object = some o) ∨ ∃ c, o ∈ (s.stage c).opening

structure Listed (s : State κ ν τ) : Prop where
  unnaming : ∀ c o next, s.stage c = .unnaming o next → (s.object o).handleCount = 0
  listed : ∀ o, (s.object o).name ≠ none → s.InUse o → o ∈ s.nameList
  opened : ∀ hd ∈ s.handles, ∀ o, hd.object = some o → (s.object o).opened = true

theorem Stage.mem_handleReferences {v : Stage κ ν} {o : κ} (h : o ∈ v.opening) :
    o ∈ v.handleReferences := by
  cases v <;> simp_all [opening, handleReferences]

namespace Sound

variable {s : State κ ν τ} {c o : κ}

theorem seen_of_inUse (huse : s.InUse o) : ∃ c, s.Seen c o := by
  rcases huse with hopen | ⟨c, hmem⟩
  · exact ⟨o, .inr (.inl hopen)⟩
  · exact ⟨c, .inr (.inr (List.mem_append_left _ (Stage.mem_handleReferences hmem)))⟩

/-- The handle count of an object that a call sees. -/
theorem handleCount_eq (h : Sound True s) (hseen : s.Seen c o) :
    (s.object o).handleCount = s.handlesOf o + s.held Stage.handleReferences o :=
  (h.counted o (.inl ((h.lives o).freed_eq_zero (h.seen_pos hseen)))).2 trivial

/-- An object in use is counted. -/
theorem handleCount_pos (h : Sound True s) (huse : s.InUse o) :
    1 ≤ (s.object o).handleCount := by
  obtain ⟨c, hseen⟩ := seen_of_inUse huse
  have hcount := h.handleCount_eq hseen
  rcases huse with ⟨hd, hmem, hobject⟩ | ⟨c, hmem⟩
  · have := handlesOf_pos hmem hobject
    omega
  · have := h.held_pos (f := Stage.handleReferences) rfl (Stage.mem_handleReferences hmem)
    omega

end Sound

namespace Listed

variable {s s' : State κ ν τ} {c o : κ} {v : Stage κ ν}

/-- What a step has to show. -/
theorem change (h : Listed s) (hstage : s'.stage = Function.update s.stage c v)
    (huse : ∀ p, (s'.object p).name ≠ none → s'.InUse p →
      s.InUse p ∧ (s.object p).name ≠ none ∧ (p ∈ s.nameList → p ∈ s'.nameList) ∨
        p ∈ s'.nameList)
    (hunnaming : ∀ p next, v = .unnaming p next → (s'.object p).handleCount = 0)
    (hcount : ∀ p, s.BeingUnnamed p → (s'.object p).handleCount = (s.object p).handleCount)
    (hopened : ∀ hd ∈ s'.handles, ∀ p, hd.object = some p → (s'.object p).opened = true) :
    Listed s' where
  unnaming d p next hd := by
    by_cases hdc : d = c
    · rw [hdc, hstage, Function.update_self] at hd
      exact hunnaming p next hd
    · rw [hstage, Function.update_of_ne hdc] at hd
      rw [hcount p ⟨d, next, hd⟩]
      exact h.unnaming d p next hd
  listed p hname hp := by
    rcases huse p hname hp with ⟨huse, hname, hkeep⟩ | hmem
    · exact hkeep (h.listed p hname huse)
    · exact hmem
  opened := hopened

/-- The uses after a step: what was in use, or what the call has come to open. -/
theorem inUse_cases {p : κ} (hstage : s'.stage = Function.update s.stage c v)
    (hhandles : ∀ hd ∈ s'.handles, hd.object = some p → s.InUse p)
    (huse : s'.InUse p) : s.InUse p ∨ p ∈ v.opening := by
  rcases huse with ⟨hd, hmem, hobject⟩ | ⟨d, hmem⟩
  · exact .inl (hhandles hd hmem hobject)
  · rw [hstage] at hmem
    by_cases hdc : d = c
    · rw [hdc, Function.update_self] at hmem
      exact .inr hmem
    · rw [Function.update_of_ne hdc] at hmem
      exact .inl (.inr ⟨d, hmem⟩)

/-- A step that leaves names, counts and the name list alone and opens nothing new. -/
theorem quiet (h : Listed s) (hstage : s'.stage = Function.update s.stage c v)
    (hnameList : s'.nameList = s.nameList)
    (hobject : ∀ p, (s'.object p).name = (s.object p).name ∧
      (s'.object p).handleCount = (s.object p).handleCount ∧
      ((s.object p).opened = true → (s'.object p).opened = true))
    (hhandles : ∀ hd ∈ s'.handles, hd ∈ s.handles)
    (hopening : ∀ p ∈ v.opening, p ∈ (s.stage c).opening)
    (hunnaming : ∀ p next, v ≠ .unnaming p next) : Listed s' := by
  apply h.change hstage
  case huse =>
    intro p hname hp
    rw [(hobject p).1] at hname
    refine .inl ⟨?_, hname, fun hmem => hnameList ▸ hmem⟩
    rcases inUse_cases hstage (fun hd hmem hob => .inl ⟨hd, hhandles hd hmem, hob⟩) hp with
      huse | hmem
    · exact huse
    · exact .inr ⟨c, hopening p hmem⟩
  case hunnaming => exact fun p next hv => absurd hv (hunnaming p next)
  case hcount => exact fun p _ => (hobject p).2.1
  case hopened => exact fun hd hmem p hp => (hobject p).2.2 (h.opened hd (hhandles hd hmem) p hp)

/-- A search that has come upon a counted object. -/
theorem found {name : ν} (h : Listed s) (hfound : s.findNamed name = some o)
    (hpos : (s.object o).handleCount ≠ 0)
    (hopening : ∀ p ∈ v.opening, p = o) (hunnaming : ∀ p next, v ≠ .unnaming p next) :
    Listed ((s.referenceHandle o).goto c v) := by
  have hobject : ∀ p, ((s.referenceHandle o).goto c v).object p =
      if p = o then { s.object o with
        handleCount := (s.object o).handleCount + 1
        referenceCount := (s.object o).referenceCount + 1 } else s.object p :=
    fun p => Function.update_apply s.object o _ p
  have hmem : o ∈ s.nameList := List.mem_of_find?_eq_some hfound
  refine h.change (c := c) (v := v) rfl ?huse ?hunnaming ?hcount ?hopened
  case huse =>
    intro p hname hp
    have hcases := inUse_cases (s := s) (c := c) (v := v) rfl ?_ hp
    · rcases hcases with huse | hp
      · refine .inl ⟨huse, ?_, fun hmem => hmem⟩
        rw [hobject, apply_ite Object.name] at hname
        split_ifs at hname with hpo
        · exact hpo ▸ hname
        · exact hname
      · exact .inr (hopening p hp ▸ hmem)
    · exact fun hd hmem hob => .inl ⟨hd, hmem, hob⟩
  case hunnaming => exact fun p next hv => absurd hv (hunnaming p next)
  case hcount =>
    rintro p ⟨d, next, hd⟩
    have hpo : p ≠ o := by
      rintro rfl
      exact hpos (h.unnaming d p next hd)
    rw [hobject, if_neg hpo]
  case hopened =>
    intro hd hmem p hp
    rw [hobject, apply_ite Object.opened]
    split_ifs with hpo
    · exact h.opened hd hmem o (hpo ▸ hp)
    · exact h.opened hd hmem p hp

/-- A handle is made of an object the call has to open, or of none. -/
theorem createHandle {object : Option κ} {access : AccessMask} (h : Listed s)
    (hopening : ∀ p, object = some p → p ∈ (s.stage c).opening)
    (hidle : v.opening = []) (hunnaming : ∀ p next, v ≠ .unnaming p next) :
    Listed ((s.createHandle c object access).goto c v) := by
  have hobject : ∀ p, ((s.createHandle c object access).goto c v).object p =
      if object = some p then { s.object p with opened := true } else s.object p := fun _ => rfl
  have hhandles : ∀ hd ∈ ((s.createHandle c object access).goto c v).handles,
      hd ∈ s.handles ∨ hd.object = object := by
    intro hd hmem
    rcases List.mem_append.mp hmem with hmem | hmem
    · exact .inl hmem
    · rw [List.mem_singleton.mp hmem]
      exact .inr rfl
  refine h.change (c := c) (v := v) rfl ?huse ?hunnaming ?hcount ?hopened
  case huse =>
    intro p hname hp
    rw [hobject, apply_ite Object.name, ite_self] at hname
    refine .inl ⟨?_, hname, fun hmem => hmem⟩
    have hcases := inUse_cases (s := s) (c := c) (v := v) rfl ?_ hp
    · rw [hidle] at hcases
      exact hcases.resolve_right List.not_mem_nil
    · intro hd hmem hob
      rcases hhandles hd hmem with hmem | hnew
      · exact .inl ⟨hd, hmem, hob⟩
      · exact .inr ⟨c, hopening p (hnew.symm.trans hob)⟩
  case hunnaming => exact fun p next hv => absurd hv (hunnaming p next)
  case hcount =>
    intro p _
    rw [hobject, apply_ite Object.handleCount, ite_self]
  case hopened =>
    intro hd hmem p hp
    rw [hobject, apply_ite Object.opened]
    split_ifs with hpo
    · rfl
    · rcases hhandles hd hmem with hmem | hnew
      · exact h.opened hd hmem p hp
      · exact absurd (hnew.symm.trans hp) hpo

/-- A step that changes nothing of a call but its stage. -/
theorem move (h : Listed s) (hopening : ∀ p ∈ v.opening, p ∈ (s.stage c).opening)
    (hunnaming : ∀ p next, v ≠ .unnaming p next) : Listed (s.goto c v) :=
  h.quiet (c := c) (v := v) rfl rfl (fun _ => ⟨rfl, rfl, fun hp => hp⟩) (fun _ hmem => hmem)
    hopening hunnaming

/-- A step that changes one object, but not its name or its handles. -/
theorem touch {b : Object ν τ} (h : Listed s) (hname : b.name = (s.object o).name)
    (hcount : b.handleCount = (s.object o).handleCount) (hopened : b.opened = (s.object o).opened)
    (hopening : ∀ p ∈ v.opening, p ∈ (s.stage c).opening)
    (hunnaming : ∀ p next, v ≠ .unnaming p next) : Listed ((s.setObject o b).goto c v) := by
  refine h.quiet (c := c) (v := v) rfl rfl ?_ (fun _ hmem => hmem) hopening hunnaming
  intro p
  have hobject : ((s.setObject o b).goto c v).object p = if p = o then b else s.object p :=
    Function.update_apply s.object o b p
  rw [hobject]
  split_ifs with hp
  · subst hp
    exact ⟨hname, hcount, fun hp => hopened ▸ hp⟩
  · exact ⟨rfl, rfl, fun hp => hp⟩

/-! ## The steps -/

theorem find {name : ν} {initialOwner : Bool} (h : Listed s)
    (hguard : ∀ p ∈ s.findNamed name, (s.object p).handleCount ≠ 0) :
    Listed (s.find c name initialOwner) := by
  unfold State.find
  split
  case h_1 p hfound =>
    apply h.found hfound (hguard p hfound)
    case hopening => simp [Stage.opening]
    case hunnaming => exact fun _ _ => nofun
  case h_2 => exact h.move nofun (fun _ _ => nofun)

theorem openNamed {name : ν} (h : Listed s)
    (hguard : ∀ p ∈ s.findNamed name, (s.object p).handleCount ≠ 0) :
    Listed (s.openNamed c name) := by
  unfold State.openNamed
  split
  case h_1 p hfound =>
    apply h.found hfound (hguard p hfound)
    case hopening => simp [Stage.opening]
    case hunnaming => exact fun _ _ => nofun
  case h_2 => exact h.move nofun (fun _ _ => nofun)

/-- The object of a call that has still to make it is not in use. -/
theorem not_inUse_of_blank (hs : Sound True s) (hblank : s.object c = .blank ν τ) :
    ¬ s.InUse c := by
  intro huse
  obtain ⟨d, hseen⟩ := Sound.seen_of_inUse huse
  have hpos := hs.seen_pos hseen
  rw [hblank] at hpos
  exact absurd hpos (by simp [Object.blank])

theorem setUp {b : Object ν τ} (h : Listed s) (hs : Sound True s)
    (hblank : s.object c = .blank ν τ) (hopening : b.name ≠ none → v.opening = [])
    (hopening' : ∀ p ∈ v.opening, p = c) (hunnaming : ∀ p next, v ≠ .unnaming p next) :
    Listed ((s.setObject c b).goto c v) := by
  have hobject : ∀ p, ((s.setObject c b).goto c v).object p = if p = c then b else s.object p :=
    fun p => Function.update_apply s.object c b p
  have hunused := not_inUse_of_blank hs hblank
  refine h.change (c := c) (v := v) rfl ?huse ?hunnaming ?hcount ?hopened
  case huse =>
    intro p hname hp
    have hcases := inUse_cases (s := s) (c := c) (v := v) rfl ?_ hp
    · rw [hobject] at hname
      split_ifs at hname with hpc
      · rw [hopening hname, hpc] at hcases
        exact absurd (hcases.resolve_right List.not_mem_nil) hunused
      · refine .inl ⟨hcases.resolve_right ?_, hname, fun hmem => hmem⟩
        exact fun hmem => hpc (hopening' p hmem)
    · exact fun hd hmem hob => .inl ⟨hd, hmem, hob⟩
  case hunnaming => exact fun p next hv => absurd hv (hunnaming p next)
  case hcount =>
    rintro p ⟨d, next, hd⟩
    have hpc : p ≠ c := by
      rintro rfl
      have hseen : s.Seen d p := .inr (.inr (by
        rw [hd]; simp [Stage.allReferences, Stage.references]))
      have hpos := hs.seen_pos hseen
      rw [hblank] at hpos
      exact absurd hpos (by simp [Object.blank])
    rw [hobject, if_neg hpc]
  case hopened =>
    intro hd hmem p hp
    have hpc : p ≠ c := by
      rintro rfl
      exact hunused (.inl ⟨hd, hmem, hp⟩)
    rw [hobject, if_neg hpc]
    exact h.opened hd hmem p hp

theorem allocate {name : Option ν} {initialOwner : Bool} (h : Listed s) (hs : Sound True s)
    (t : τ) (hen : s.stage c = .allocating name initialOwner) (allocation : Allocation) :
    Listed (s.allocate c t name initialOwner allocation) := by
  have hblank : s.object c = .blank ν τ := hs.fresh c (by rw [hen]; rfl)
  cases allocation with
  | noMemory => exact h.move nofun (fun _ _ => nofun)
  | noName =>
    exact h.setUp hs hblank (fun hname => absurd rfl hname) nofun (fun _ _ => nofun)
  | success =>
    unfold State.allocate
    apply h.setUp hs hblank
    case hopening =>
      intro hname
      cases name with
      | none => exact absurd rfl hname
      | some n => rfl
    case hopening' => cases name <;> simp [Stage.opening]
    case hunnaming => cases name <;> exact fun _ _ => nofun

theorem register {own : κ} {name : ν} (h : Listed s)
    (hguard : ∀ p ∈ s.findNamed name, (s.object p).handleCount ≠ 0) :
    Listed (s.register c own name) := by
  unfold State.register
  split
  case h_1 p hfound =>
    apply h.found hfound (hguard p hfound)
    case hopening => simp [Stage.opening]
    case hunnaming => exact fun _ _ => nofun
  case h_2 =>
    obtain ⟨s', hs'⟩ : ∃ s', s' = (({ s.setObject own { s.object own with named := true } with
      nameList := s.nameList ++ [own] } : State κ ν τ).goto c (.inserting own)) := ⟨_, rfl⟩
    have hobject : ∀ p, s'.object p =
        if p = own then { s.object own with named := true } else s.object p := by
      intro p
      rw [hs']
      exact Function.update_apply s.object own _ p
    have hlist : s'.nameList = s.nameList ++ [own] := by rw [hs']; rfl
    rw [← hs']
    refine h.change (c := c) (v := .inserting own) (by rw [hs']; rfl) ?huse nofun ?hcount ?hopened
    case huse =>
      intro p hname hp
      by_cases hpo : p = own
      · exact .inr (by rw [hlist, hpo]; simp)
      · rw [hobject, if_neg hpo] at hname
        have hcases := inUse_cases (s := s) (c := c) (v := .inserting own) (by rw [hs']; rfl) ?_ hp
        · refine .inl ⟨hcases.resolve_right ?_, hname, fun hmem => by rw [hlist]; simp [hmem]⟩
          simpa [Stage.opening] using hpo
        · rw [hs']
          exact fun hd hmem hob => .inl ⟨hd, hmem, hob⟩
    case hcount =>
      intro p _
      rw [hobject]
      split_ifs with hpo
      · rw [hpo]
      · rfl
    case hopened =>
      intro hd hmem p hp
      rw [hs'] at hmem
      have hopened := h.opened hd hmem p hp
      rw [hobject]
      split_ifs with hpo
      · exact hpo ▸ hopened
      · exact hopened

theorem insert {access : AccessMask} (h : Listed s) (hen : s.stage c = .inserting o) (ok : Bool) :
    Listed (s.insert c o access ok) := by
  unfold State.insert
  split
  case isTrue =>
    apply h.createHandle
    case hopening =>
      rintro p ⟨⟩
      rw [hen]
      simp [Stage.opening]
    case hidle => rfl
    case hunnaming => exact fun _ _ => nofun
  case isFalse => exact h.move nofun (fun _ _ => nofun)

theorem insertCopy {object : Option κ} {sourceAccess : AccessMask} (h : Listed s)
    (hs : Sound True s) (hen : s.stage c = .copying object sourceAccess) (ok : Bool)
    (r : Request κ ν) : Listed (s.insertCopy c object sourceAccess ok r) := by
  obtain rfl : object = none := by
    cases object with
    | none => rfl
    | some p => exact absurd hen (hs.copying trivial c p sourceAccess)
  unfold State.insertCopy
  split
  case h_2 => exact h
  case h_1 source access sameAccess closeSource =>
    split
    case isTrue =>
      apply h.createHandle
      case hopening => exact nofun
      case hidle => split <;> rfl
      case hunnaming => split <;> exact fun _ _ => nofun
    case isFalse => exact h.move nofun (fun _ _ => nofun)

theorem remove {k : κ} (h : Listed s) : Listed (s.remove c k) := by
  unfold State.remove
  split
  case h_1 => exact h.move nofun (fun _ _ => nofun)
  case h_2 hd hfound =>
    refine h.quiet (c := c) (v := .close hd.object) rfl rfl (fun _ => ⟨rfl, rfl, fun hp => hp⟩)
      ?hhandles ?hopening ?hunnaming
    case hhandles => exact fun _ hmem => List.mem_of_mem_eraseP hmem
    case hopening => simp
    case hunnaming => cases hd.object <;> exact fun _ _ => nofun

/-- The handle count reaches zero with the last handle, and so while nothing is in use. -/
theorem decrement {next : Option κ} (h : Listed s) (hs : Sound True s)
    (hen : s.stage c = .closing o next) : Listed (s.decrement c o next) := by
  have hseen : s.Seen c o := .inr (.inr (by
    rw [hen]; simp [Stage.allReferences, Stage.handleReferences]))
  -- the count is that of the handles, and of those who are about to close one
  have hcount := hs.handleCount_eq hseen
  have hheld := hs.held_pos (c := c) (o := o) (f := Stage.handleReferences) rfl (by
    rw [hen]; simp [Stage.handleReferences])
  unfold State.decrement
  obtain ⟨v, hv⟩ : ∃ v : Stage κ ν,
      v = if (s.object o).handleCount - 1 = 0 ∧ (s.object o).named then .unnaming o next
        else .dropping [o] next := ⟨_, rfl⟩
  rw [← hv]
  have hobject : ∀ p, ((s.setObject o { s.object o with
      handleCount := (s.object o).handleCount - 1 }).goto c v).object p =
      if p = o then { s.object o with handleCount := (s.object o).handleCount - 1 }
        else s.object p := fun p => Function.update_apply s.object o _ p
  -- closing a handle opens none
  have hopening : v.opening = (s.stage c).opening := by
    rw [hv, hen]
    split_ifs <;> rfl
  refine h.change (c := c) (v := v) rfl ?huse ?hunnaming ?hcount ?hopened
  case huse =>
    intro p hname hp
    rw [hobject, apply_ite Object.name] at hname
    have hcases := inUse_cases (s := s) (c := c) (v := v) rfl ?_ hp
    · refine .inl ⟨?_, ?_, fun hmem => hmem⟩
      · rcases hcases with huse | hmem
        · exact huse
        · exact .inr ⟨c, hopening ▸ hmem⟩
      · split_ifs at hname with hpo
        · exact hpo ▸ hname
        · exact hname
    · exact fun hd hmem hob => .inl ⟨hd, hmem, hob⟩
  case hunnaming =>
    intro p next' hp
    rw [hv] at hp
    split_ifs at hp with hlast
    obtain ⟨rfl, -⟩ := Stage.unnaming.inj hp
    rw [hobject, if_pos rfl]
    exact hlast.1
  case hcount =>
    rintro p ⟨d, next', hd⟩
    have hpo : p ≠ o := by
      rintro rfl
      have hzero := h.unnaming d p next' hd
      omega
    rw [hobject, if_neg hpo]
  case hopened =>
    intro hd hmem p hp
    have hopened := h.opened hd hmem p hp
    rw [hobject]
    split_ifs with hpo
    · exact hpo ▸ hopened
    · exact hopened

theorem unname {next : Option κ} (h : Listed s) (hs : Sound True s)
    (hen : s.stage c = .unnaming o next) : Listed (s.unname c o next) := by
  rw [hs.unname_eq]
  have hobject : ∀ p, (({ s.setObject o { s.object o with named := false } with
      nameList := s.nameList.filter (· ≠ o) } : State κ ν τ).goto c (.dropping [o] next)).object p =
      if p = o then { s.object o with named := false } else s.object p :=
    fun p => Function.update_apply s.object o _ p
  refine h.change (c := c) (v := .dropping [o] next) rfl ?huse nofun ?hcount ?hopened
  case huse =>
    intro p hname hp
    have hcases := inUse_cases (s := s) (c := c) (v := .dropping [o] next) rfl ?_ hp
    · have huse : s.InUse p := by
        rcases hcases with huse | hmem
        · exact huse
        · exact .inr ⟨c, by rw [hen]; exact hmem⟩
      -- the object has no handle, so it is another one that is in use
      have hpo : p ≠ o := by
        rintro rfl
        have hpos := hs.handleCount_pos huse
        have hzero := h.unnaming c p next hen
        omega
      rw [hobject, if_neg hpo] at hname
      exact .inl ⟨huse, hname, fun hmem => by simp [State.goto, hmem, hpo]⟩
    · exact fun hd hmem hob => .inl ⟨hd, hmem, hob⟩
  case hcount =>
    intro p _
    rw [hobject]
    split_ifs with hpo
    · rw [hpo]
    · rfl
  case hopened =>
    intro hd hmem p hp
    have hopened := h.opened hd hmem p hp
    rw [hobject]
    split_ifs with hpo
    · exact hpo ▸ hopened
    · exact hopened

theorem drop {rest : List κ} {next : Option κ} (h : Listed s)
    (hen : s.stage c = .dropping (o :: rest) next) : Listed (s.drop c o rest next) := by
  unfold State.drop State.dereference
  refine h.touch (o := o) rfl rfl rfl ?hopening ?hunnaming
  case hopening => rw [hen, Stage.opening_drop]; exact fun _ hmem => hmem
  case hunnaming => cases rest <;> cases next <;> exact fun _ _ => nofun

theorem lookUpSource {k : κ} (h : Listed s) : Listed (s.lookUpSource c k) := by
  unfold State.lookUpSource
  split
  case h_2 id p access hfound => exact h.touch (o := p) rfl rfl rfl nofun (fun _ _ => nofun)
  all_goals exact h.move nofun (fun _ _ => nofun)

theorem lookUpMutant {k : κ} (h : Listed s) : Listed (s.lookUpMutant c k) := by
  unfold State.lookUpMutant
  split
  case h_1 id p access hfound =>
    split
    · exact h.touch (o := p) rfl rfl rfl nofun (fun _ _ => nofun)
    · exact h.move nofun (fun _ _ => nofun)
  case h_2 => exact h.move nofun (fun _ _ => nofun)

theorem referenceNext {k : Option κ} {rest : List (Option κ)} {held : List κ} (h : Listed s)
    (ok : Bool) : Listed (s.referenceNext c k rest held ok) := by
  have hdrop : ∀ p next, (Stage.drop held none : Stage κ ν) ≠ .unnaming p next := by
    cases held <;> exact fun _ _ => nofun
  have hreference : ∀ held p next, (Stage.reference rest held : Stage κ ν) ≠ .unnaming p next := by
    cases rest <;> exact fun _ _ _ => nofun
  have hgoOn : Listed (s.goto c (.reference rest held)) := h.move (by simp) (hreference held)
  have hgiveUp : Listed (s.goto c (.drop held none)) := h.move (by simp) hdrop
  unfold State.referenceNext
  split
  case h_1 =>
    split
    · exact hgoOn
    · exact hgiveUp
  case h_2 => exact hgiveUp
  case h_3 hd hfound =>
    split
    case isFalse => exact hgiveUp
    case isTrue =>
      split
      case h_1 p hobject => exact h.touch (o := p) rfl rfl rfl (by simp) (hreference _)
      case h_2 => exact hgoOn

theorem acquire {held objects : List κ} (h : Listed s) (t : τ) :
    Listed (s.acquire c t held objects) := by
  obtain ⟨hhandles, hnameList, hstage, -, hobject⟩ := s.acquireAll_spec t objects
  unfold State.acquire
  generalize s.acquireAll t objects = s₁ at *
  refine h.quiet (c := c) (v := .drop held none) (by rw [← hstage]; rfl) hnameList ?hobject
    ?hhandles (by simp) ?hunnaming
  case hobject =>
    intro p
    obtain ⟨m, hm, -⟩ := hobject p
    rw [show (s₁.goto c _).object p = _ from hm]
    exact ⟨rfl, rfl, fun hp => hp⟩
  case hhandles =>
    intro hd hmem
    rw [← hhandles]
    exact hmem
  case hunnaming => cases held <;> exact fun _ _ => nofun

theorem begin (h : Listed s) (r : Request κ ν) : Listed (s.begin c r) := by
  have hopening : r.start.opening = [] ∧ ∀ p next, r.start ≠ .unnaming p next := by
    cases r with
    | createMutex _ _ name => cases name <;> exact ⟨rfl, fun _ _ h => by cases h⟩
    | duplicateHandle source => cases source <;> exact ⟨rfl, fun _ _ h => by cases h⟩
    | wait handles =>
      simp only [Request.start]
      split_ifs <;> exact ⟨rfl, by simp⟩
    | _ => exact ⟨rfl, fun _ _ h => by cases h⟩
  refine h.quiet (c := c) (v := r.start) rfl rfl (fun _ => ⟨rfl, rfl, fun hp => hp⟩)
    (fun _ hmem => hmem) ?_ hopening.2
  rw [hopening.1]
  simp

variable {request : κ → Request κ ν} {thread : κ → τ}

theorem next (h : Listed s) (hs : Sound True s) (a : Action κ ν)
    (hen : (mutexHandles request thread).enabled s a) (hguard : CountsHandles s a) :
    Listed ((mutexHandles request thread).next s a) := by
  cases a with
  | begin c => exact h.begin _
  | find c name initialOwner => exact h.find hguard
  | openNamed c name => exact h.openNamed hguard
  | allocate c name initialOwner allocation => exact h.allocate hs _ hen.1 allocation
  | register c own name => exact h.register hguard
  | insert c o ok => exact h.insert hen ok
  | remove c hd => exact h.remove
  | decrement c o next => exact h.decrement hs hen
  | unname c o next => exact h.unname hs hen
  | drop c o rest next => exact h.drop hen
  | lookUpSource c hd => exact h.lookUpSource
  | insertCopy c object sourceAccess ok => exact h.insertCopy hs hen ok _
  | lookUpMutant c hd => exact h.lookUpMutant
  | releaseMutant c o => exact h.touch (o := o) rfl rfl rfl nofun (fun _ _ => nofun)
  | referenceNext c hd rest held ok => exact h.referenceNext ok
  | acquire c held objects => exact h.acquire _
  | endWait c held =>
    apply h.move
    case hopening => simp
    case hunnaming => cases held <;> exact fun _ _ => nofun

end Listed

/-! ## Every guarded run -/

variable {request : κ → Request κ ν} {thread : κ → τ}

theorem CountsHandles.duplicatesNone {s : State κ ν τ} {a : Action κ ν}
    (h : CountsHandles s a) : DuplicatesNone s a := by
  cases a with
  | lookUpSource c hd => exact h
  | _ => trivial

theorem sound_of_countsHandles {s : State κ ν τ}
    (hreach : (mutexHandles request thread).Reachable CountsHandles s) : Sound True s :=
  sound_of_reachable (fun _ _ _ h => h.duplicatesNone) s hreach

theorem listed_of_countsHandles :
    ∀ s, (mutexHandles request thread).Reachable CountsHandles s → Listed s := by
  refine System.Reachable.invariantUnder (J := Sound True) ?_ ?_ ?_
  · exact fun s => sound_of_countsHandles
  · intro s hinit
    rw [show s = initialState κ ν τ from hinit]
    exact ⟨nofun, fun _ hname => absurd rfl hname, nofun⟩
  · exact fun s a hs h hen hg => h.next hs a hen hg

/-! ## The handle table -/

/-- While the handles are counted, the counts, the name list and the names agree with the open
handles in every state. -/
theorem handle_table_is_consistent {s : State κ ν τ}
    (hreach : (mutexHandles request thread).Reachable CountsHandles s) : Consistent s := by
  have hs := sound_of_countsHandles hreach
  have hl := listed_of_countsHandles s hreach
  have hcount : ∀ o, (s.object o).opened = true →
      (s.object o).handleCount = s.handlesOf o + s.held Stage.handleReferences o :=
    fun o hopened => (hs.counted o (.inr (.inr hopened))).2 trivial
  have hrefs : ∀ o, (s.object o).opened = true →
      (s.object o).referenceCount = (s.object o).handleCount + s.held Stage.references o := by
    intro o hopened
    -- the references are those of the handles and those of the calls
    have hall : s.held Stage.allReferences o =
      s.held Stage.handleReferences o + s.held Stage.references o := Sound.total_append _ _
    have := hs.referenced o
    have := hcount o hopened
    omega
  have hopen : ∀ hd ∈ s.handles, ∀ o, hd.object = some o →
      (s.object o).opened = true ∧ (s.object o).freed = 0 ∧
        ((s.object o).name ≠ none → o ∈ s.nameList) := by
    intro hd hmem o hobject
    have hseen : s.Seen o o := .inr (.inl ⟨hd, hmem, hobject⟩)
    exact ⟨hl.opened hd hmem o hobject, (hs.lives o).freed_eq_zero (hs.seen_pos hseen),
      fun hname => hl.listed o hname (.inl ⟨hd, hmem, hobject⟩)⟩
  refine ⟨hcount, hrefs, fun o => hs.freed_le_one, ?freedLast, hopen, ?unique⟩
  case freedLast =>
    intro o hopened
    have hlives : (s.object o).freed = if (s.object o).referenceCount = 0 then 1 else 0 := by
      rcases hs.lives o with hblank | ⟨-, hlives⟩
      · rw [hblank] at hopened
        exact absurd hopened (by simp [Object.blank])
      · exact hlives
    rw [hlives]
    have := hcount o hopened
    have := hrefs o hopened
    split_ifs with hzero
    · exact iff_of_true rfl ⟨by omega, hzero⟩
    · exact iff_of_false (by decide) fun hboth => hzero hboth.2
  case unique =>
    intro hd hmem hd' hmem' o o' hobject hobject' hname hsame
    -- both objects are in the list, where a name is found once
    have hlist := (hopen hd hmem o hobject).2.2 hname
    have hlist' := (hopen hd' hmem' o' hobject').2.2 (hsame ▸ hname)
    exact hs.distinct o hlist o' hlist' hsame

/-- Two calls create a mutex of the same name at once and one of them opens the other's; both
handles are closed again. -/
theorem shared_name_is_consistent :
    Consistent ((mutexHandles (κ := Fin 4) (ν := Unit) (τ := Unit)
      ![.createMutex 0 false (some ()), .createMutex 0 false (some ()), .closeHandle 0,
        .closeHandle 1] fun _ => ()).exec (initialState _ _ _)
      [.begin 0, .begin 1, .find 0 () false, .find 1 () false,
        .allocate 0 (some ()) false .success, .allocate 1 (some ()) false .success,
        .register 0 0 (), .register 1 1 (), .decrement 1 1 (some 0), .drop 1 1 [] (some 0),
        .insert 0 0 true, .insert 1 0 true, .begin 2, .begin 3, .remove 2 0, .remove 3 1,
        .decrement 2 0 none, .decrement 3 0 none, .unname 3 0 none, .drop 3 0 [] none,
        .drop 2 0 [] none]) :=
  handle_table_is_consistent (System.reachable_exec _ _ rfl (by decide +kernel))

/-- A handle of a named mutex is duplicated and the first handle is closed. The mutex loses its
name, and the next creation makes a second mutex of that name beside the duplicated handle. -/
theorem duplicate_splits_the_name :
    ¬ ∀ s, (mutexHandles (κ := Fin 4) (ν := Unit) (τ := Unit)
      ![.createMutex 0 false (some ()), .duplicateHandle (some 0) 0 true false, .closeHandle 0,
        .createMutex 0 false (some ())] fun _ => ()).Reachable Always s → Consistent s := by
  intro h
  have hs := h _ (System.reachable_exec (initialState _ _ _)
    [.begin 0, .find 0 () false, .allocate 0 (some ()) false .success, .register 0 0 (),
      .insert 0 0 true, .begin 1, .lookUpSource 1 0, .insertCopy 1 (some 0) 0 true,
      .begin 2, .remove 2 0, .decrement 2 0 none, .unname 2 0 none, .drop 2 0 [] none,
      .begin 3, .find 3 () false, .allocate 3 (some ()) false .success, .register 3 3 (),
      .insert 3 3 true] rfl (by decide +kernel))
  have hsame := hs.unique ⟨1, some 0, 0⟩ (by decide +kernel) ⟨3, some 3, 0⟩ (by decide +kernel)
    0 3 rfl rfl (by decide +kernel) (by decide +kernel)
  exact absurd hsame (by decide)

end Ldk.WaitObject
