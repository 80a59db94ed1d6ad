import Mathlib
import Ldk.WaitObject.Steps

set_option linter.unusedSectionVars false

/-!
# Ownership and the memory of a mutex

A wait object goes with its last reference, whether or not a thread owns its mutant. As long as
an owned mutex keeps a handle, or its owner's last release is under way, the memory outlives the
ownership (`freed_mutex_is_free`). A creation with an initial owner that loses the race for the
name gives back an owned mutant (`lost_race_frees_owned`).
-/

namespace Ldk.WaitObject

open TransitionSystem

variable {κ ν τ : Type} [DecidableEq κ] [DecidableEq ν] [DecidableEq τ]

/-! ## The condition -/

/-- The objects a call has opened a handle to or is about to. -/
def Stage.keeping : Stage κ ν → List κ
  | .registering own _ => [own]
  | .inserting o => [o]
  | .closing _ next | .unnaming _ next | .dropping _ next => next.toList
  | .copying object _ => object.toList
  | _ => []

namespace State

variable (s : State κ ν τ) (thread : κ → τ)

/-- Among these handles there is one of the object, or a call other than `c` is about to make
one. -/
def KeptBesides (handles : List (Handle κ)) (c o : κ) : Prop :=
  (∃ hd ∈ handles, hd.object = some o) ∨ ∃ d, d ≠ c ∧ o ∈ (s.stage d).keeping

/-- A handle of the object is open or about to be. -/
def Kept (o : κ) : Prop :=
  (∃ hd ∈ s.handles, hd.object = some o) ∨ ∃ d, o ∈ (s.stage d).keeping

/-- The owner is at its last `KeReleaseMutant`. -/
def LastRelease (o : κ) : Prop :=
  ∃ d, s.stage d = .releasing o ∧ (s.object o).mutant.owner = some (thread d) ∧
    (s.object o).mutant.recursion = 1

/-- Call `c` may give up its handle of the object and leave these handles. -/
def MayLetGo (handles : List (Handle κ)) (c o : κ) : Prop :=
  (s.object o).mutant.owner = none ∨ s.KeptBesides handles c o ∨ s.LastRelease thread o

end State

/-- An owned mutex keeps a handle until its owner's last release is under way: this is so of the
handle that is closed, that cannot be made, or that is given up for another object of the name.
A wait acquires a mutex only while that has a handle. -/
def KeepsHandle (thread : κ → τ) (s : State κ ν τ) : Action κ ν → Prop
  | .remove c h =>
    ∀ hd ∈ s.lookupHandle h, ∀ o ∈ hd.object,
      s.MayLetGo thread (s.handles.eraseP fun hd => hd.id = h) c o
  | .insert c o false => s.MayLetGo thread s.handles c o
  | .insertCopy c object _ false => ∀ o ∈ object, s.MayLetGo thread s.handles c o
  | .register c own name => s.findNamed name ≠ none → s.MayLetGo thread s.handles c own
  | .acquire _ _ objects => ∀ o ∈ objects, s.Kept o
  | _ => True

section Decidable

variable [Fintype κ] (s : State κ ν τ) (thread : κ → τ)

instance (handles : List (Handle κ)) (c o : κ) : Decidable (s.KeptBesides handles c o) :=
  inferInstanceAs (Decidable (_ ∨ _))

instance (o : κ) : Decidable (s.Kept o) := inferInstanceAs (Decidable (_ ∨ _))

instance (o : κ) : Decidable (s.LastRelease thread o) := inferInstanceAs (Decidable (∃ _, _))

instance (handles : List (Handle κ)) (c o : κ) : Decidable (s.MayLetGo thread handles c o) :=
  inferInstanceAs (Decidable (_ ∨ _))

instance (a : Action κ ν) : Decidable (KeepsHandle thread s a) := by
  -- two of the actions carry whether the handle was made
  rcases a <;> first
    | (unfold KeepsHandle; infer_instance)
    | (rename_i ok; rcases ok <;> unfold KeepsHandle <;> infer_instance)

end Decidable

/-! ## The invariant -/

/-- Every owned mutex is kept, or its last release is under way. -/
def Owned (thread : κ → τ) (s : State κ ν τ) : Prop :=
  ∀ o t, (s.object o).mutant.owner = some t → s.Kept o ∨ s.LastRelease thread o

namespace Owned

variable {thread : κ → τ} {s s' : State κ ν τ} {c o : κ} {v : Stage κ ν}

/-- What a step has to show, of a call that is not at a release. -/
theorem change (h : Owned thread s) (hstage : s'.stage = Function.update s.stage c v)
    (hreleasing : ∀ p, s.stage c ≠ .releasing p)
    (hmutant : ∀ p, (s'.object p).mutant = (s.object p).mutant ∨ s'.Kept p)
    (hkept : ∀ p, (s.object p).mutant.owner ≠ none → s.Kept p →
      s'.Kept p ∨ s.LastRelease thread p) : Owned thread s' := by
  intro p t hp
  rcases hmutant p with hsame | hkept'
  · have howner : (s.object p).mutant.owner = some t := hsame ▸ hp
    have hcases : s'.Kept p ∨ s.LastRelease thread p := by
      rcases h p t howner with hbefore | hlast
      · exact hkept p (by rw [howner]; nofun) hbefore
      · exact .inr hlast
    rcases hcases with hkept' | ⟨d, hd, hlast⟩
    · exact .inl hkept'
    · -- the call at the release has not moved
      have hdc : d ≠ c := by
        rintro rfl
        exact hreleasing p hd
      refine .inr ⟨d, ?_, ?_⟩
      · rw [hstage, Function.update_of_ne hdc, hd]
      · rw [hsame]
        exact hlast
  · exact .inl hkept'

/-- What is kept by handles or by another call stays kept. -/
theorem kept_cases {r : State κ ν τ} {p : κ} (hstage : r.stage = Function.update s.stage c v)
    (hhandles : ∀ hd ∈ s.handles, hd.object = some p → r.Kept p) (hkept : s.Kept p) :
    r.Kept p ∨ p ∈ (s.stage c).keeping := by
  rcases hkept with ⟨hd, hmem, hobject⟩ | ⟨d, hmem⟩
  · exact .inl (hhandles hd hmem hobject)
  · by_cases hdc : d = c
    · exact .inr (hdc ▸ hmem)
    · refine .inl (.inr ⟨d, ?_⟩)
      rw [hstage, Function.update_of_ne hdc]
      exact hmem

/-- A step that loses no handle and changes no mutant. -/
theorem quiet (h : Owned thread s) (hstage : s'.stage = Function.update s.stage c v)
    (hreleasing : ∀ p, s.stage c ≠ .releasing p)
    (hmutant : ∀ p, (s'.object p).mutant = (s.object p).mutant)
    (hhandles : ∀ hd ∈ s.handles, hd ∈ s'.handles)
    (hkeeping : ∀ p ∈ (s.stage c).keeping,
      p ∈ v.keeping ∨ ∃ hd ∈ s'.handles, hd.object = some p) : Owned thread s' := by
  apply h.change hstage hreleasing
  case hmutant => exact fun p => .inl (hmutant p)
  case hkept =>
    intro p _ hkept
    have hcases := kept_cases hstage (fun hd hmem hob => .inl ⟨hd, hhandles hd hmem, hob⟩) hkept
    refine .inl (hcases.elim (fun hkept => hkept) fun hmem => ?_)
    rcases hkeeping p hmem with hmem | hopen
    · exact .inr ⟨c, by rw [hstage, Function.update_self]; exact hmem⟩
    · exact .inl hopen

/-- A step that gives up a handle of the object `o`, as it may. -/
theorem letGo (h : Owned thread s) (hstage : s'.stage = Function.update s.stage c v)
    (hreleasing : ∀ p, s.stage c ≠ .releasing p)
    (hmutant : ∀ p, (s'.object p).mutant = (s.object p).mutant)
    (hhandles : ∀ hd ∈ s.handles, hd ∈ s'.handles ∨ hd.object = some o)
    (hkeeping : ∀ p ∈ (s.stage c).keeping, p = o)
    (hmay : s.MayLetGo thread s'.handles c o) : Owned thread s' := by
  apply h.change hstage hreleasing
  case hmutant => exact fun p => .inl (hmutant p)
  case hkept =>
    intro p howner hkept
    by_cases hpo : p = o
    · subst hpo
      rcases hmay with hfree | ⟨hopen | ⟨d, hdc, hmem⟩⟩ | hlast
      · exact absurd hfree howner
      · exact .inl (.inl hopen)
      · exact .inl (.inr ⟨d, by rw [hstage, Function.update_of_ne hdc]; exact hmem⟩)
      · exact .inr hlast
    · have hcases := kept_cases hstage ?_ hkept
      · exact .inl (hcases.resolve_right fun hmem => hpo (hkeeping p hmem))
      · intro hd hmem hob
        rcases hhandles hd hmem with hmem | hob'
        · exact .inl ⟨hd, hmem, hob⟩
        · exact absurd (Option.some.inj (hob.symm.trans hob')) hpo

/-- A step that changes nothing of a call but its stage. -/
theorem move (h : Owned thread s) (hreleasing : ∀ p, s.stage c ≠ .releasing p)
    (hkeeping : ∀ p ∈ (s.stage c).keeping, p ∈ v.keeping) : Owned thread (s.goto c v) :=
  h.quiet (c := c) (v := v) rfl hreleasing (fun _ => rfl) (fun _ hmem => hmem)
    fun p hmem => .inl (hkeeping p hmem)

/-- A step that changes one object, but not its mutant. -/
theorem touch {b : Object ν τ} (h : Owned thread s) (hreleasing : ∀ p, s.stage c ≠ .releasing p)
    (hmutant : b.mutant = (s.object o).mutant)
    (hkeeping : ∀ p ∈ (s.stage c).keeping, p ∈ v.keeping) :
    Owned thread ((s.setObject o b).goto c v) := by
  refine h.quiet (c := c) (v := v) rfl hreleasing ?_ (fun _ hmem => hmem)
    fun p hmem => .inl (hkeeping p hmem)
  intro p
  have hobject : ((s.setObject o b).goto c v).object p = if p = o then b else s.object p :=
    Function.update_apply s.object o b p
  rw [hobject]
  split_ifs with hp
  · rw [hmutant, hp]
  · rfl

/-! ## The steps -/

theorem find {name : ν} {initialOwner : Bool} (h : Owned thread s)
    (hen : s.stage c = .finding name initialOwner) : Owned thread (s.find c name initialOwner) := by
  unfold State.find
  split
  · exact h.touch (by simp [hen]) rfl (by rw [hen]; exact nofun)
  · exact h.move (by simp [hen]) (by rw [hen]; exact nofun)

theorem openNamed {name : ν} (h : Owned thread s) (hen : s.stage c = .openingName name) :
    Owned thread (s.openNamed c name) := by
  unfold State.openNamed
  split
  · exact h.touch (by simp [hen]) rfl (by rw [hen]; exact nofun)
  · exact h.move (by simp [hen]) (by rw [hen]; exact nofun)

/-- The new mutant may be owned at once; its object is about to have a handle. -/
theorem setUp {b : Object ν τ} (h : Owned thread s) (hreleasing : ∀ p, s.stage c ≠ .releasing p)
    (hidle : (s.stage c).keeping = []) (hkeeping : c ∈ v.keeping) :
    Owned thread ((s.setObject c b).goto c v) := by
  refine h.change (c := c) (v := v) rfl hreleasing ?hmutant ?hkept
  case hmutant =>
    intro p
    by_cases hp : p = c
    · exact .inr (.inr ⟨c, by rw [hp]; simpa [State.goto] using hkeeping⟩)
    · exact .inl (by simp [State.goto, State.setObject, Function.update_of_ne hp])
  case hkept =>
    intro p _ hkept
    have hcases := kept_cases (r := (s.setObject c b).goto c v) (s := s) (c := c) (v := v) rfl ?_ hkept
    · rw [hidle] at hcases
      exact .inl (hcases.resolve_right List.not_mem_nil)
    · exact fun hd hmem hob => .inl ⟨hd, hmem, hob⟩

theorem allocate {name : Option ν} {initialOwner : Bool} (h : Owned thread s)
    (hblank : s.object c = .blank ν τ) (t : τ) (hen : s.stage c = .allocating name initialOwner)
    (allocation : Allocation) : Owned thread (s.allocate c t name initialOwner allocation) := by
  cases allocation with
  | noMemory => exact h.move (by simp [hen]) (by rw [hen]; exact nofun)
  | noName => exact h.touch (by simp [hen]) (by rw [hblank]) (by rw [hen]; exact nofun)
  | success =>
    apply h.setUp (by simp [hen]) (by rw [hen]; rfl)
    cases name <;> simp [Stage.keeping]

theorem register {own : κ} {name : ν} (h : Owned thread s)
    (hen : s.stage c = .registering own name)
    (hguard : s.findNamed name ≠ none → s.MayLetGo thread s.handles c own) :
    Owned thread (s.register c own name) := by
  have hmutant : ∀ (b : Object ν τ) (q p : κ), b.mutant = (s.object q).mutant →
      (Function.update s.object q b p).mutant = (s.object p).mutant := by
    intro b q p hb
    by_cases hp : p = q
    · rw [hp, Function.update_self, hb]
    · rw [Function.update_of_ne hp]
  unfold State.register
  split
  case h_1 p hfound =>
    refine h.letGo (c := c) (v := .closing own (some p)) rfl (by simp [hen]) ?_
      (fun _ hmem => .inl hmem) ?_ (hguard (by rw [hfound]; nofun))
    · exact fun q => hmutant _ p q rfl
    · rw [hen]
      simp [Stage.keeping]
  case h_2 =>
    refine h.quiet (c := c) (v := .inserting own) rfl (by simp [hen]) ?_ (fun _ hmem => hmem) ?_
    · exact fun q => hmutant _ own q rfl
    · rw [hen]
      exact fun p hp => .inl hp

theorem insert {access : AccessMask} (h : Owned thread s) (hen : s.stage c = .inserting o)
    (ok : Bool) (hguard : ok = false → s.MayLetGo thread s.handles c o) :
    Owned thread (s.insert c o access ok) := by
  cases ok with
  | true =>
    refine h.quiet (c := c) (v := .returned) rfl (by simp [hen]) ?_
      (fun _ hmem => List.mem_append_left _ hmem) ?_
    · intro p
      show (if some o = some p then { s.object p with opened := true } else s.object p).mutant = _
      rw [apply_ite Object.mutant, ite_self]
    · intro p hp
      rw [hen] at hp
      exact .inr ⟨_, List.mem_append_right _ (List.mem_singleton_self _),
        by rw [List.mem_singleton.mp hp]⟩
  | false =>
    refine h.letGo (c := c) (v := .closing o none) rfl (by simp [hen]) (fun _ => rfl)
      (fun _ hmem => .inl hmem) ?_ (hguard rfl)
    rw [hen]
    exact fun p hp => List.mem_singleton.mp hp

theorem insertCopy {object : Option κ} {sourceAccess : AccessMask} (h : Owned thread s)
    (hen : s.stage c = .copying object sourceAccess) (ok : Bool) (r : Request κ ν)
    (hguard : ok = false → ∀ p ∈ object, s.MayLetGo thread s.handles c p) :
    Owned thread (s.insertCopy c object sourceAccess ok r) := by
  unfold State.insertCopy
  split
  case h_2 => exact h
  case h_1 source access sameAccess closeSource =>
    cases ok with
    | true =>
      refine h.quiet (c := c) rfl (by simp [hen]) ?_
        (fun _ hmem => List.mem_append_left _ hmem) ?_
      · intro p
        show (if object = some p then { s.object p with opened := true } else s.object p).mutant = _
        rw [apply_ite Object.mutant, ite_self]
      · intro p hp
        rw [hen] at hp
        exact .inr ⟨_, List.mem_append_right _ (List.mem_singleton_self _),
          Option.mem_toList.mp hp⟩
    | false =>
      cases object with
      | none => exact h.move (by simp [hen]) (by rw [hen]; exact nofun)
      | some p =>
        refine h.letGo (c := c) (v := .closing p none) rfl (by simp [hen]) (fun _ => rfl)
          (fun _ hmem => .inl hmem) ?_ (hguard rfl p rfl)
        rw [hen]
        exact fun q hq => List.mem_singleton.mp hq

theorem remove {k : κ} (h : Owned thread s) (hen : s.stage c = .removing k)
    (hguard : ∀ hd ∈ s.lookupHandle k, ∀ p ∈ hd.object,
      s.MayLetGo thread (s.handles.eraseP fun hd => hd.id = k) c p) :
    Owned thread (s.remove c k) := by
  unfold State.remove
  split
  case h_1 => exact h.move (by simp [hen]) (by rw [hen]; exact nofun)
  case h_2 hd hfound =>
    -- every handle but the one that is found stays
    have hstays : ∀ hd' ∈ s.handles,
        hd' ∈ (s.handles.eraseP fun hd => hd.id = k) ∨ hd' = hd := by
      obtain ⟨hid, before, after, happend, hbefore⟩ := List.find?_eq_some_iff_append.mp hfound
      intro hd' hmem
      rw [happend, List.eraseP_append_right _ (by simpa using hbefore), List.eraseP_cons, hid,
        cond_true]
      rw [happend] at hmem
      simp only [List.mem_append, List.mem_cons] at hmem ⊢
      tauto
    obtain ⟨object, hobject⟩ : ∃ object, hd.object = object := ⟨_, rfl⟩
    cases object with
    | none =>
      refine h.change (c := c) (v := .close hd.object) rfl (by simp [hen]) (fun _ => .inl rfl) ?_
      rintro p _ (⟨hd', hmem, hob⟩ | ⟨d, hmem⟩)
      · rcases hstays hd' hmem with hmem | rfl
        · exact .inl (.inl ⟨hd', hmem, hob⟩)
        · exact absurd (hobject.symm.trans hob) nofun
      · have hdc : d ≠ c := by
          rintro rfl
          rw [hen] at hmem
          exact absurd hmem List.not_mem_nil
        exact .inl (.inr ⟨d, by simpa [State.goto, Function.update_of_ne hdc] using hmem⟩)
    | some p =>
      refine h.letGo (c := c) (o := p) (v := .close hd.object) rfl (by simp [hen]) (fun _ => rfl)
        ?_ (by rw [hen]; exact nofun) (hguard hd hfound p hobject)
      intro hd' hmem
      rcases hstays hd' hmem with hmem | rfl
      · exact .inl hmem
      · exact .inr hobject

theorem decrement {next : Option κ} (h : Owned thread s) (hen : s.stage c = .closing o next) :
    Owned thread (s.decrement c o next) := by
  unfold State.decrement
  refine h.touch (o := o) (by simp [hen]) rfl ?_
  rw [hen]
  split_ifs <;> exact fun _ hp => hp

theorem unname {next : Option κ} (h : Owned thread s) (hen : s.stage c = .unnaming o next) :
    Owned thread (s.unname c o next) := by
  unfold State.unname
  split
  · refine h.quiet (c := c) (v := .dropping [o] next) rfl (by simp [hen]) ?_ (fun _ hmem => hmem) ?_
    · intro p
      show (Function.update s.object o _ p).mutant = _
      by_cases hp : p = o
      · rw [hp, Function.update_self]
      · rw [Function.update_of_ne hp]
    · rw [hen]
      exact fun p hp => .inl hp
  · exact h.move (by simp [hen]) (by rw [hen]; exact fun _ hp => hp)

theorem drop {rest : List κ} {next : Option κ} (h : Owned thread s)
    (hen : s.stage c = .dropping (o :: rest) next) : Owned thread (s.drop c o rest next) := by
  unfold State.drop State.dereference
  refine h.touch (o := o) (by simp [hen]) rfl ?_
  rw [hen]
  cases rest <;> cases next <;> exact fun _ hp => hp

theorem lookUpSource {k : κ} (h : Owned thread s) (hen : s.stage c = .lookingUpSource k) :
    Owned thread (s.lookUpSource c k) := by
  unfold State.lookUpSource
  split
  case h_2 => exact h.touch (by simp [hen]) rfl (by rw [hen]; exact nofun)
  all_goals exact h.move (by simp [hen]) (by rw [hen]; exact nofun)

theorem lookUpMutant {k : κ} (h : Owned thread s) (hen : s.stage c = .lookingUpMutant k) :
    Owned thread (s.lookUpMutant c k) := by
  unfold State.lookUpMutant
  split
  case h_1 =>
    split
    · exact h.touch (by simp [hen]) rfl (by rw [hen]; exact nofun)
    · exact h.move (by simp [hen]) (by rw [hen]; exact nofun)
  case h_2 => exact h.move (by simp [hen]) (by rw [hen]; exact nofun)

theorem referenceNext {k : Option κ} {rest : List (Option κ)} {held : List κ}
    (h : Owned thread s) (hen : s.stage c = .referencing (k :: rest) held) (ok : Bool) :
    Owned thread (s.referenceNext c k rest held ok) := by
  have hmove : ∀ v : Stage κ ν, Owned thread (s.goto c v) :=
    fun v => h.move (by simp [hen]) (by rw [hen]; exact nofun)
  unfold State.referenceNext
  split
  case h_1 => exact hmove _
  case h_2 => exact hmove _
  case h_3 =>
    split
    case isTrue =>
      split
      · exact h.touch (by simp [hen]) rfl (by rw [hen]; exact nofun)
      · exact hmove _
    case isFalse => exact hmove _

/-- A release by the owner takes one from the recursion count. At the last one the mutant is
free; before that no last release is under way, so the mutex is kept. -/
theorem releaseMutant (h : Owned thread s) (hen : s.stage c = .releasing o) :
    Owned thread (s.releaseMutant c o (thread c)) := by
  have hobject : ∀ p, (s.releaseMutant c o (thread c)).object p =
      if p = o then { s.object o with
        mutant := (s.object o).mutant.keReleaseMutant (thread c) } else s.object p :=
    fun p => Function.update_apply s.object o _ p
  have hstage : ∀ d, d ≠ c → (s.releaseMutant c o (thread c)).stage d = s.stage d :=
    fun d hd => Function.update_of_ne hd ..
  have hkept : ∀ p, s.Kept p → (s.releaseMutant c o (thread c)).Kept p := by
    intro p hp
    have hcases := kept_cases (r := s.releaseMutant c o (thread c)) (s := s) (c := c)
      (v := .dropping [o] none) rfl (fun hd hmem hob => .inl ⟨hd, hmem, hob⟩) hp
    rw [hen] at hcases
    exact hcases.resolve_right List.not_mem_nil
  intro p t hp
  rw [hobject] at hp
  split_ifs at hp with hpo
  · subst hpo
    dsimp only at hp
    unfold Mutant.keReleaseMutant at hp
    split_ifs at hp with howner hlast
    · rcases h p _ howner with hbefore | ⟨d, -, -, hone⟩
      · exact .inl (hkept p hbefore)
      · exact absurd hone hlast
    · rcases h p t hp with hbefore | ⟨d, hd, hdowner, hone⟩
      · exact .inl (hkept p hbefore)
      · have hdc : d ≠ c := by
          rintro rfl
          exact howner hdowner
        refine .inr ⟨d, (hstage d hdc).trans hd, ?_⟩
        rw [hobject, if_pos rfl]
        unfold Mutant.keReleaseMutant
        rw [if_neg howner]
        exact ⟨hdowner, hone⟩
  · rcases h p t hp with hbefore | ⟨d, hd, hlast⟩
    · exact .inl (hkept p hbefore)
    · have hdc : d ≠ c := by
        rintro rfl
        rw [hen] at hd
        exact hpo (Stage.releasing.inj hd).symm
      refine .inr ⟨d, (hstage d hdc).trans hd, ?_⟩
      rw [hobject, if_neg hpo]
      exact hlast

/-- What a wait acquires has a handle. -/
theorem acquire {held objects : List κ} (h : Owned thread s) (hen : s.stage c = .waiting held)
    (t : τ) (hguard : ∀ p ∈ objects, s.Kept p) : Owned thread (s.acquire c t held objects) := by
  obtain ⟨hhandles, hnameList, hstage, -, hobject⟩ := s.acquireAll_spec t objects
  unfold State.acquire
  generalize s.acquireAll t objects = s₁ at *
  have hkept : ∀ p, s.Kept p → (s₁.goto c (.drop held none)).Kept p := by
    intro p hp
    have hcases := kept_cases (r := s₁.goto c (.drop held none)) (s := s) (c := c)
      (v := .drop held none) (by rw [← hstage]; rfl) ?_ hp
    · rw [hen] at hcases
      exact hcases.resolve_right List.not_mem_nil
    · intro hd hmem hob
      rw [← hhandles] at hmem
      exact .inl ⟨hd, hmem, hob⟩
  refine h.change (c := c) (v := .drop held none) (by rw [← hstage]; rfl) (by simp [hen]) ?_ ?_
  · intro p
    by_cases hp : p ∈ objects
    · exact .inr (hkept p (hguard p hp))
    · obtain ⟨m, hm, hsame⟩ := hobject p
      refine .inl ?_
      show (s₁.object p).mutant = _
      rw [hm, hsame hp]
  · exact fun p _ hp => .inl (hkept p hp)

theorem begin (h : Owned thread s) (hen : s.stage c = .notCalled) (r : Request κ ν) :
    Owned thread (s.begin c r) :=
  h.quiet (c := c) (v := r.start) rfl (by simp [hen]) (fun _ => rfl) (fun _ hmem => hmem)
    (by rw [hen]; exact nofun)

variable {request : κ → Request κ ν}

theorem next (h : Owned thread s) (hs : Sound False s) (a : Action κ ν)
    (hen : (mutexHandles request thread).enabled s a) (hguard : KeepsHandle thread s a) :
    Owned thread ((mutexHandles request thread).next s a) := by
  cases a with
  | begin c => exact h.begin hen _
  | find c name initialOwner => exact h.find hen
  | openNamed c name => exact h.openNamed hen
  | allocate c name initialOwner allocation =>
    have hblank := hs.fresh c (by rw [hen.1]; rfl)
    exact h.allocate hblank _ hen.1 allocation
  | register c own name => exact h.register hen hguard
  | insert c o ok => exact h.insert hen ok (by rintro rfl; exact hguard)
  | remove c hd => exact h.remove hen hguard
  | decrement c o next => exact h.decrement hen
  | unname c o next => exact h.unname hen
  | drop c o rest next => exact h.drop hen
  | lookUpSource c hd => exact h.lookUpSource hen
  | insertCopy c object sourceAccess ok => exact h.insertCopy hen ok _ (by rintro rfl; exact hguard)
  | lookUpMutant c hd => exact h.lookUpMutant hen
  | releaseMutant c o => exact h.releaseMutant hen
  | referenceNext c hd rest held ok => exact h.referenceNext hen ok
  | acquire c held objects => exact h.acquire hen.1 _ hguard
  | endWait c held =>
    have hen : s.stage c = .waiting held := hen
    exact h.move (by simp [hen]) (by rw [hen]; exact nofun)

end Owned

/-! ## Every guarded run -/

variable {request : κ → Request κ ν} {thread : κ → τ}

theorem owned_of_keepsHandle :
    ∀ s, (mutexHandles request thread).Reachable (KeepsHandle thread) s → Owned thread s := by
  refine System.Reachable.invariantUnder (J := Sound False) ?_ ?_ ?_
  · exact fun s hreach => sound_of_reachable nofun s hreach
  · intro s hinit
    rw [show s = initialState κ ν τ from hinit]
    exact fun o t => nofun
  · exact fun s a hs h hen hg => h.next hs a hen hg

theorem Stage.mem_allReferences_of_keeping {v : Stage κ ν} {o : κ} (h : o ∈ v.keeping) :
    o ∈ v.allReferences := by
  cases v <;> simp_all [keeping, allReferences, handleReferences, references]

end Ldk.WaitObject
