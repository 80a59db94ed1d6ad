import Ldk.WaitObject.State

set_option linter.unusedSectionVars false

/-!
# The reference counts of wait objects

What holds in every run, whatever the calls do.

- A reference count is the number of handles and of references that calls hold
  (`Sound.referenced`), so an object is given back once, with its last reference.
- A handle count is never more than the number of handles and of handle references
  (`Sound.counted`). It can be less: a duplicated handle is not counted.
- An object in the name list has not been given back (`Sound.listed_pos`).
-/

namespace Ldk.WaitObject

open TransitionSystem

variable {κ ν τ : Type} [DecidableEq κ] [DecidableEq ν] [DecidableEq τ]

/-! ## What a call holds -/

namespace Stage

/-- The object a handle is about to be made of, registered already. -/
def opening : Stage κ ν → List κ
  | .inserting o => [o]
  | .closing _ next | .unnaming _ next | .dropping _ next => next.toList
  | _ => []

/-- The references that count in `HandleCount` and `ReferenceCount`. -/
def handleReferences : Stage κ ν → List κ
  | .registering own _ => [own]
  | .inserting o => [o]
  | .closing o next => o :: next.toList
  | .unnaming _ next | .dropping _ next => next.toList
  | _ => []

/-- The references that count in `ReferenceCount` alone. -/
def references : Stage κ ν → List κ
  | .unnaming o _ => [o]
  | .dropping objects _ => objects
  | .copying object _ => object.toList
  | .releasing o => [o]
  | .referencing _ held | .waiting held => held
  | _ => []

def allReferences (v : Stage κ ν) : List κ := v.handleReferences ++ v.references

/-- The call has not made its object. -/
def early : Stage κ ν → Bool
  | .notCalled | .finding _ _ | .openingName _ | .allocating _ _ => true
  | _ => false

@[simp] theorem opening_drop (objects : List κ) (next : Option κ) :
    (drop objects next : Stage κ ν).opening = next.toList := by
  cases objects <;> cases next <;> rfl

@[simp] theorem handleReferences_drop (objects : List κ) (next : Option κ) :
    (drop objects next : Stage κ ν).handleReferences = next.toList := by
  cases objects <;> cases next <;> rfl

@[simp] theorem references_drop (objects : List κ) (next : Option κ) :
    (drop objects next : Stage κ ν).references = objects := by
  cases objects <;> cases next <;> rfl

@[simp] theorem allReferences_drop (objects : List κ) (next : Option κ) :
    (drop objects next : Stage κ ν).allReferences = next.toList ++ objects := by
  cases objects <;> cases next <;> rfl

@[simp] theorem early_drop (objects : List κ) (next : Option κ) :
    (drop objects next : Stage κ ν).early = false := by
  cases objects <;> cases next <;> rfl

@[simp] theorem drop_ne_copying (objects : List κ) (next : Option κ) (o : Option κ) (access : AccessMask) :
    (drop objects next : Stage κ ν) ≠ .copying o access := by
  cases objects <;> cases next <;> exact nofun

@[simp] theorem drop_ne_registering (objects : List κ) (next : Option κ) (own : κ) (name : ν) :
    drop objects next ≠ .registering own name := by
  cases objects <;> cases next <;> exact nofun

@[simp] theorem opening_close (object : Option κ) :
    (close object : Stage κ ν).opening = [] := by
  cases object <;> rfl

@[simp] theorem handleReferences_close (object : Option κ) :
    (close object : Stage κ ν).handleReferences = object.toList := by
  cases object <;> rfl

@[simp] theorem references_close (object : Option κ) :
    (close object : Stage κ ν).references = [] := by
  cases object <;> rfl

@[simp] theorem allReferences_close (object : Option κ) :
    (close object : Stage κ ν).allReferences = object.toList := by
  cases object <;> rfl

@[simp] theorem early_close (object : Option κ) : (close object : Stage κ ν).early = false := by
  cases object <;> rfl

@[simp] theorem close_ne_copying (object : Option κ) (o : Option κ) (access : AccessMask) :
    (close object : Stage κ ν) ≠ .copying o access := by
  cases object <;> exact nofun

@[simp] theorem close_ne_registering (object : Option κ) (own : κ) (name : ν) :
    close object ≠ .registering own name := by
  cases object <;> exact nofun

@[simp] theorem opening_reference (handles : List (Option κ)) (held : List κ) :
    (reference handles held : Stage κ ν).opening = [] := by
  cases handles <;> rfl

@[simp] theorem handleReferences_reference (handles : List (Option κ)) (held : List κ) :
    (reference handles held : Stage κ ν).handleReferences = [] := by
  cases handles <;> rfl

@[simp] theorem references_reference (handles : List (Option κ)) (held : List κ) :
    (reference handles held : Stage κ ν).references = held := by
  cases handles <;> rfl

@[simp] theorem allReferences_reference (handles : List (Option κ)) (held : List κ) :
    (reference handles held : Stage κ ν).allReferences = held := by
  cases handles <;> rfl

@[simp] theorem early_reference (handles : List (Option κ)) (held : List κ) :
    (reference handles held : Stage κ ν).early = false := by
  cases handles <;> rfl

@[simp] theorem reference_ne_copying (handles : List (Option κ)) (held : List κ) (o : Option κ)
    (access : AccessMask) :
    (reference handles held : Stage κ ν) ≠ .copying o access := by
  cases handles <;> exact nofun

@[simp] theorem reference_ne_registering (handles : List (Option κ)) (held : List κ) (own : κ)
    (name : ν) : reference handles held ≠ .registering own name := by
  cases handles <;> exact nofun

end Stage

namespace State

variable (s : State κ ν τ)

/-- The open handles of an object. -/
def handlesOf (o : κ) : Nat := s.handles.countP fun hd => hd.object = some o

/-- The references of a kind that the calls hold of an object. -/
def held (f : Stage κ ν → List κ) (o : κ) : Nat :=
  Holdings.total s.calls (fun c => f (s.stage c)) o

end State

/-! ## The invariant -/

/-- Memory that has been taken is given back once, when nothing refers to the object. -/
def Object.Lives (b : Object ν τ) : Prop :=
  b = .blank ν τ ∨ b.allocated = true ∧ b.freed = if b.referenceCount = 0 then 1 else 0

/-- An object set up by the call that holds the only reference to it. -/
structure Object.Private (b : Object ν τ) (name : ν) : Prop where
  referenceCount : b.referenceCount = 1
  handleCount : b.handleCount = 1
  named : b.named = false
  name : b.name = some name

/-- The handle count is kept: not so of an object that is given back for want of a name. -/
def Object.Counted (b : Object ν τ) : Prop := b.freed = 0 ∨ b.named = true ∨ b.opened = true

/-- The object's last handle has been closed, and a call is about to unlink it. -/
def State.BeingUnnamed (s : State κ ν τ) (o : κ) : Prop := ∃ c next, s.stage c = .unnaming o next

/-- No more, and as much if `exact` is asked for. -/
def AtMost (exact : Prop) (a b : Int) : Prop := a ≤ b ∧ (exact → a = b)

theorem AtMost.of_eq {exact : Prop} {a b : Int} (h : a = b) : AtMost exact a b :=
  ⟨Int.le_of_eq h, fun _ => h⟩

/-- The accounts. `exact` is asked for where no handle of a wait object is duplicated. -/
structure Sound (exact : Prop) (s : State κ ν τ) : Prop where
  nodup : s.calls.Nodup
  called : ∀ c, c ∈ s.calls ↔ s.stage c ≠ .notCalled
  fresh : ∀ c, (s.stage c).early = true → s.object c = .blank ν τ
  registering : ∀ c own name, s.stage c = .registering own name → (s.object own).Private name
  referenced : ∀ o, (s.object o).referenceCount = s.handlesOf o + s.held Stage.allReferences o
  lives : ∀ o, (s.object o).Lives
  counted : ∀ o, (s.object o).Counted →
    AtMost exact (s.object o).handleCount (s.handlesOf o + s.held Stage.handleReferences o)
  copying : exact → ∀ c o access, s.stage c ≠ .copying (some o) access
  linked : ∀ o, o ∈ s.nameList ↔ (s.object o).named = true
  listed : ∀ o ∈ s.nameList, 1 ≤ (s.object o).handleCount ∨ s.BeingUnnamed o
  distinct : ∀ o ∈ s.nameList, ∀ p ∈ s.nameList, (s.object o).name = (s.object p).name → o = p

/-- A call comes upon an object in the name list, in a handle, or among its own references. -/
def State.Seen (s : State κ ν τ) (c o : κ) : Prop :=
  o ∈ s.nameList ∨ (∃ hd ∈ s.handles, hd.object = some o) ∨ o ∈ (s.stage c).allReferences

/-! ## What a call sees is alive -/

namespace Sound

variable {exact : Prop} {s : State κ ν τ} {c o : κ}

theorem held_le (h : Sound exact s) (f : Stage κ ν → List κ) (hc : s.stage c ≠ .notCalled) :
    (f (s.stage c)).count o ≤ s.held f o :=
  Holdings.count_le_total ((h.called c).mpr hc) (fun c => f (s.stage c)) o

theorem handlesOf_pos {hd : Handle κ} (hmem : hd ∈ s.handles) (hobject : hd.object = some o) :
    1 ≤ s.handlesOf o :=
  List.countP_pos_iff.mpr ⟨hd, hmem, by simpa using hobject⟩

theorem called_of_mem {f : Stage κ ν → List κ} (hf : f .notCalled = [])
    (hmem : o ∈ f (s.stage c)) : s.stage c ≠ .notCalled := by
  intro hc
  rw [hc, hf] at hmem
  simp at hmem

theorem held_pos (h : Sound exact s) {f : Stage κ ν → List κ} (hf : f .notCalled = [])
    (hmem : o ∈ f (s.stage c)) : 1 ≤ s.held f o :=
  Nat.le_trans (List.count_pos_iff.mpr hmem) (h.held_le f (called_of_mem hf hmem))

theorem total_append (f g : Stage κ ν → List κ) :
    s.held (fun v => f v ++ g v) o = s.held f o + s.held g o := by
  unfold State.held
  induction s.calls with
  | nil => rfl
  | cons c calls ih =>
    rw [Holdings.total_cons, Holdings.total_cons, Holdings.total_cons, ih, List.count_append]
    omega

theorem handleReferences_le : s.held Stage.handleReferences o ≤ s.held Stage.allReferences o := by
  unfold Stage.allReferences
  rw [total_append]
  exact Nat.le_add_right _ _

/-- An object in the name list is still referred to. -/
theorem listed_pos (h : Sound exact s) (hmem : o ∈ s.nameList) : 1 ≤ (s.object o).referenceCount := by
  have hreferenced := h.referenced o
  rcases h.listed o hmem with hcount | ⟨c, next, hstage⟩
  · have hcounted := (h.counted o (.inr (.inl ((h.linked o).mp hmem)))).1
    have hle := handleReferences_le (s := s) (o := o)
    omega
  · have hheld := h.held_pos (c := c) (f := Stage.allReferences) (o := o) rfl (by
      rw [hstage]; simp [Stage.allReferences, Stage.references])
    omega

theorem seen_pos (h : Sound exact s) (hseen : s.Seen c o) : 1 ≤ (s.object o).referenceCount := by
  have hreferenced := h.referenced o
  rcases hseen with hmem | ⟨hd, hmem, hobject⟩ | hmem
  · exact h.listed_pos hmem
  · have := handlesOf_pos hmem hobject
    omega
  · have := h.held_pos (f := Stage.allReferences) rfl hmem
    omega

/-- Nobody else sees an object that is still to be registered. -/
theorem not_seen (h : Sound exact s) {d own : κ} {name : ν} (hd : s.stage d = .registering own name)
    (hne : c ≠ d) : ¬ s.Seen c own := by
  intro hseen
  have hprivate := h.registering d own name hd
  have hreferenced := h.referenced own
  have hown : own ∈ (s.stage d).allReferences := by
    rw [hd]; simp [Stage.allReferences, Stage.handleReferences]
  have hheld := h.held_pos (f := Stage.allReferences) rfl hown
  have hcount := hprivate.referenceCount
  rcases hseen with hmem | ⟨hd, hmem, hobject⟩ | hmem
  · have hnamed := (h.linked own).mp hmem
    rw [hprivate.named] at hnamed
    exact absurd hnamed (by decide)
  · have := handlesOf_pos hmem hobject
    omega
  · have hc := (h.called c).mpr (called_of_mem rfl hmem)
    have hd := (h.called d).mpr (called_of_mem rfl hown)
    have hboth := Holdings.count_add_count_le_total hc hd hne
      (fun c => (s.stage c).allReferences) own
    have hone := List.count_pos_iff.mpr hmem
    have htwo := List.count_pos_iff.mpr hown
    have htotal : s.held Stage.allReferences own =
      Holdings.total s.calls (fun c => (s.stage c).allReferences) own := rfl
    omega

/-! ## How a step keeps the accounts -/

theorem held_update (h : Sound exact s) (hc : s.stage c ≠ .notCalled) {s' : State κ ν τ} {v : Stage κ ν}
    (hcalls : s'.calls = s.calls) (hstage : s'.stage = Function.update s.stage c v)
    (f : Stage κ ν → List κ) (o : κ) :
    s'.held f o + (f (s.stage c)).count o = s.held f o + (f v).count o := by
  unfold State.held
  rw [hcalls, hstage]
  exact Holdings.total_update h.nodup ((h.called c).mpr hc) f s.stage v o

/-- A call goes on to another stage. What it holds, the handles and the counts change by the
same amount, and so do the objects the call sees. -/
theorem change {s' : State κ ν τ} {v : Stage κ ν} (h : Sound exact s) (hc : s.stage c ≠ .notCalled)
    (hv : v ≠ .notCalled)
    (hcalls : s'.calls = s.calls) (hstage : s'.stage = Function.update s.stage c v)
    (hother : ∀ p, s'.object p = s.object p ∨ s.Seen c p ∨ p = c ∧ s.object c = .blank ν τ)
    (hfresh : v.early = true → s'.object c = .blank ν τ)
    (hregistering : ∀ own name, v = .registering own name → (s'.object own).Private name)
    (hbalance : ∀ p, (s'.object p).referenceCount + s.handlesOf p +
      (s.stage c).allReferences.count p =
      (s.object p).referenceCount + s'.handlesOf p + v.allReferences.count p)
    (hlives : ∀ p, (s'.object p).Lives)
    (hcounted : ∀ p, (s'.object p).Counted → (s.object p).Counted ∧ AtMost exact
      ((s'.object p).handleCount + s.handlesOf p + (s.stage c).handleReferences.count p)
      ((s.object p).handleCount + s'.handlesOf p + v.handleReferences.count p))
    (hcopying : exact → ∀ p access, v ≠ .copying (some p) access)
    (hlinked : ∀ p, p ∈ s'.nameList ↔ (s'.object p).named = true)
    (hlisted : ∀ p ∈ s'.nameList, 1 ≤ (s'.object p).handleCount ∨ s'.BeingUnnamed p)
    (hdistinct : ∀ p ∈ s'.nameList, ∀ q ∈ s'.nameList,
      (s'.object p).name = (s'.object q).name → p = q) : Sound exact s' where
  nodup := hcalls ▸ h.nodup
  called d := by
    rw [hcalls, hstage]
    by_cases hdc : d = c
    · rw [hdc, Function.update_self]
      exact iff_of_true ((h.called c).mpr hc) hv
    · rw [Function.update_of_ne hdc]
      exact h.called d
  fresh d hd := by
    by_cases hdc : d = c
    · rw [hdc, hstage, Function.update_self] at hd
      exact hdc ▸ hfresh hd
    · rw [hstage, Function.update_of_ne hdc] at hd
      have hblank := h.fresh d hd
      rcases hother d with hsame | hseen | ⟨hdc', -⟩
      · rw [hsame, hblank]
      · have hpos := h.seen_pos hseen
        rw [hblank] at hpos
        exact absurd hpos (by simp [Object.blank])
      · exact absurd hdc' hdc
  registering d own name hd := by
    by_cases hdc : d = c
    · rw [hdc, hstage, Function.update_self] at hd
      exact hregistering own name hd
    · rw [hstage, Function.update_of_ne hdc] at hd
      -- an object that is about to be registered is seen by its own call alone
      rcases hother own with hsame | hseen | ⟨rfl, hblank⟩
      · exact hsame ▸ h.registering d own name hd
      · exact absurd hseen (h.not_seen hd (Ne.symm hdc))
      · have hcount := (h.registering d own name hd).referenceCount
        rw [hblank] at hcount
        exact absurd hcount (by simp [Object.blank])
  -- what the step adds to the object it takes from the calls or the handles
  referenced p := by
    have hbefore := h.referenced p
    have hheld := h.held_update hc hcalls hstage Stage.allReferences p
    have hstep := hbalance p
    omega
  lives := hlives
  counted p hp := by
    obtain ⟨hp, hle, heq⟩ := hcounted p hp
    obtain ⟨hbefore, hbefore'⟩ := h.counted p hp
    have hheld := h.held_update hc hcalls hstage Stage.handleReferences p
    refine ⟨by omega, fun hexact => ?_⟩
    have := heq hexact
    have := hbefore' hexact
    omega
  copying hexact d p access hd := by
    by_cases hdc : d = c
    · rw [hdc, hstage, Function.update_self] at hd
      exact hcopying hexact p access hd
    · rw [hstage, Function.update_of_ne hdc] at hd
      exact h.copying hexact d p access hd
  linked := hlinked
  listed := hlisted
  distinct := hdistinct

/-- A step that leaves the name list alone. -/
theorem changeCounts {s' : State κ ν τ} {v : Stage κ ν} (h : Sound exact s)
    (hc : s.stage c ≠ .notCalled) (hv : v ≠ .notCalled)
    (hcalls : s'.calls = s.calls) (hstage : s'.stage = Function.update s.stage c v)
    (hnameList : s'.nameList = s.nameList)
    (hother : ∀ p, s'.object p = s.object p ∨ s.Seen c p ∨ p = c ∧ s.object c = .blank ν τ)
    (hfresh : v.early = true → s'.object c = .blank ν τ)
    (hregistering : ∀ own name, v = .registering own name → (s'.object own).Private name)
    (hbalance : ∀ p, (s'.object p).referenceCount + s.handlesOf p +
      (s.stage c).allReferences.count p =
      (s.object p).referenceCount + s'.handlesOf p + v.allReferences.count p)
    (hlives : ∀ p, (s'.object p).Lives)
    (hcounted : ∀ p, (s'.object p).Counted → (s.object p).Counted ∧ AtMost exact
      ((s'.object p).handleCount + s.handlesOf p + (s.stage c).handleReferences.count p)
      ((s.object p).handleCount + s'.handlesOf p + v.handleReferences.count p))
    (hcopying : exact → ∀ p access, v ≠ .copying (some p) access)
    (hnamed : ∀ p, (s'.object p).named = (s.object p).named)
    (hname : ∀ p ∈ s.nameList, (s'.object p).name = (s.object p).name)
    (hlisted : ∀ p ∈ s.nameList, 1 ≤ (s.object p).handleCount →
      1 ≤ (s'.object p).handleCount ∨ ∃ next, v = .unnaming p next)
    (hunnaming : ∀ p next, s.stage c ≠ .unnaming p next) : Sound exact s' := by
  apply h.change hc hv hcalls hstage hother hfresh hregistering hbalance hlives hcounted hcopying
  · intro p
    rw [hnameList, hnamed]
    exact h.linked p
  · intro p hp
    rw [hnameList] at hp
    rcases h.listed p hp with hcount | ⟨d, next, hd⟩
    · rcases hlisted p hp hcount with hcount' | ⟨next, rfl⟩
      · exact .inl hcount'
      · exact .inr ⟨c, next, by rw [hstage, Function.update_self]⟩
    · have hdc : d ≠ c := fun hdc => hunnaming p next (hdc ▸ hd)
      exact .inr ⟨d, next, by rw [hstage, Function.update_of_ne hdc, hd]⟩
  · intro p hp q hq hpq
    rw [hnameList] at hp hq
    rw [hname p hp, hname q hq] at hpq
    exact h.distinct p hp q hq hpq

/-- A step of a call that changes nothing but its stage. -/
theorem move {u v : Stage κ ν} (h : Sound exact s) (hen : s.stage c = u) (hc : u ≠ .notCalled)
    (hv : v ≠ .notCalled) (hearly : v.early = true → u.early = true)
    (hregistering : ∀ own name, v ≠ .registering own name)
    (hrefs : u.allReferences = v.allReferences)
    (hhandles : ∀ p, AtMost exact (u.handleReferences.count p) (v.handleReferences.count p))
    (hcopying : exact → ∀ p access, v ≠ .copying (some p) access)
    (hunnaming : ∀ p next, u ≠ .unnaming p next) : Sound exact (s.goto c v) := by
  subst hen
  refine h.changeCounts (v := v) hc hv rfl rfl rfl ?hother ?hfresh ?hregistering ?hbalance ?hlives
    ?hcounted hcopying ?hnamed ?hname ?hlisted ?hunnaming
  case hother => exact fun p => .inl rfl
  case hfresh => exact fun he => h.fresh c (hearly he)
  case hregistering => exact fun own name hv => absurd hv (hregistering own name)
  case hbalance =>
    intro p
    rw [hrefs]
    rfl
  case hlives => exact h.lives
  case hcounted =>
    intro p hp
    obtain ⟨hle, heq⟩ := hhandles p
    refine ⟨hp, Int.add_le_add_left hle _, fun hexact => ?_⟩
    rw [heq hexact]
    rfl
  case hnamed => exact fun p => rfl
  case hname => exact fun p _ => rfl
  case hlisted => exact fun p _ hcount => .inl hcount
  case hunnaming => exact hunnaming

/-- A step of a call that changes one object it sees, and its stage. -/
theorem touch {b : Object ν τ} {v : Stage κ ν} (h : Sound exact s) (hseen : s.Seen c o)
    (hc : s.stage c ≠ .notCalled)
    (hearly : v.early = false) (hregistering : ∀ own name, v ≠ .registering own name)
    (hcopying : exact → ∀ p access, v ≠ .copying (some p) access)
    (hbalance : ∀ p, (if p = o then b.referenceCount else (s.object p).referenceCount) +
      (s.stage c).allReferences.count p =
      (s.object p).referenceCount + v.allReferences.count p)
    (hlives : 1 ≤ (s.object o).referenceCount → (s.object o).Lives → b.Lives)
    (hcounted : b.Counted → (s.object o).Counted)
    (hhandles : ∀ p, (if p = o then b.handleCount else (s.object p).handleCount) +
      (s.stage c).handleReferences.count p =
      (s.object p).handleCount + v.handleReferences.count p)
    (hnamed : b.named = (s.object o).named) (hname : b.name = (s.object o).name)
    (hlisted : o ∈ s.nameList → 1 ≤ (s.object o).handleCount →
      1 ≤ b.handleCount ∨ ∃ next, v = .unnaming o next)
    (hunnaming : ∀ p next, s.stage c ≠ .unnaming p next) :
    Sound exact ((s.setObject o b).goto c v) := by
  have hobject : ∀ p, ((s.setObject o b).goto c v).object p = if p = o then b else s.object p :=
    fun p => Function.update_apply s.object o b p
  have hv : v ≠ .notCalled := by
    rintro rfl
    exact absurd hearly (by simp [Stage.early])
  refine h.changeCounts (v := v) hc hv rfl rfl rfl ?hother ?hfresh ?hregistering ?hbalance ?hlives
    ?hcounted hcopying ?hnamed ?hname ?hlisted ?hunnaming
  case hother =>
    intro p
    by_cases hp : p = o
    · exact .inr (.inl (hp ▸ hseen))
    · exact .inl (by rw [hobject, if_neg hp])
  case hfresh => exact fun he => absurd he (by rw [hearly]; decide)
  case hregistering => exact fun own name hv => absurd hv (hregistering own name)
  -- the count of the object changes with the references of the call
  case hbalance =>
    intro p
    have := hbalance p
    rw [hobject, apply_ite Object.referenceCount]
    show _ + (s.handlesOf p : Int) + _ = _ + (s.handlesOf p : Int) + _
    omega
  case hlives =>
    intro p
    rw [hobject]
    split
    case isTrue => exact hlives (h.seen_pos hseen) (h.lives o)
    case isFalse => exact h.lives p
  case hcounted =>
    intro p hp
    have heq := hhandles p
    rw [hobject] at hp ⊢
    rw [apply_ite Object.handleCount]
    constructor
    · split at hp
      case isTrue hpo => exact hpo ▸ hcounted hp
      case isFalse => exact hp
    · apply AtMost.of_eq
      show _ + (s.handlesOf p : Int) + _ = _ + (s.handlesOf p : Int) + _
      omega
  case hnamed =>
    intro p
    rw [hobject]
    split
    case isTrue hpo => rw [hnamed, hpo]
    case isFalse => rfl
  case hname =>
    intro p _
    rw [hobject]
    split
    case isTrue hpo => rw [hname, hpo]
    case isFalse => rfl
  case hlisted =>
    intro p hp hcount
    rw [hobject]
    split
    case isTrue hpo =>
      subst hpo
      exact hlisted hp hcount
    case isFalse => exact .inl hcount
  case hunnaming => exact hunnaming

end Sound

end Ldk.WaitObject
