import Ldk.WaitObject.Accounts

set_option linter.unusedSectionVars false

/-!
# Every step keeps the accounts

One lemma for each step of `processhandle.c` and of the waits, and from them the accounts of
every reachable state.
-/

namespace Ldk.WaitObject

open TransitionSystem

variable {κ ν τ : Type} [DecidableEq κ] [DecidableEq ν] [DecidableEq τ]

/-! ## The steps -/

namespace Object

variable {b : Object ν τ}

theorem Lives.freed_eq_zero (h : b.Lives) (hpos : 1 ≤ b.referenceCount) : b.freed = 0 := by
  rcases h with rfl | ⟨-, hfreed⟩
  · rfl
  · rw [hfreed, if_neg (by omega)]

theorem Lives.allocated (h : b.Lives) (hpos : 1 ≤ b.referenceCount) : b.allocated = true := by
  rcases h with rfl | ⟨hallocated, -⟩
  · exact absurd hpos (by simp [blank])
  · exact hallocated

/-- An object that stays referred to stays alive. -/
theorem Lives.stays {b' : Object ν τ} (h : b.Lives) (hpos : 1 ≤ b.referenceCount)
    (hpos' : 1 ≤ b'.referenceCount) (hallocated : b'.allocated = b.allocated)
    (hfreed : b'.freed = b.freed) : b'.Lives := by
  refine .inr ⟨hallocated.trans (h.allocated hpos), ?_⟩
  rw [hfreed, h.freed_eq_zero hpos, if_neg (by omega)]

end Object

namespace Sound

variable {exact : Prop} {s : State κ ν τ} {c o : κ}

theorem seen_of_lookupHandle {h : κ} {hd : Handle κ} (hfound : s.lookupHandle h = some hd)
    (hobject : hd.object = some o) : s.Seen c o :=
  .inr (.inl ⟨hd, List.mem_of_find?_eq_some hfound, hobject⟩)

theorem seen_of_findNamed {name : ν} (hfound : s.findNamed name = some o) : s.Seen c o :=
  .inl (List.mem_of_find?_eq_some hfound)

theorem count_single (p q : κ) : [p].count q = [].count q + if q = p then 1 else 0 := by
  by_cases hq : q = p
  · simp [hq]
  · simp [hq, Ne.symm hq]

/-- A call takes a reference to an object it has found. -/
theorem reference {v : Stage κ ν} (h : Sound exact s) (hseen : s.Seen c o) (hc : s.stage c ≠ .notCalled)
    (hearly : v.early = false) (hregistering : ∀ own name, v ≠ .registering own name)
    (hcopying : exact → ∀ p access, v ≠ .copying (some p) access)
    (hrefs : ∀ p, v.references.count p =
      (s.stage c).references.count p + if p = o then 1 else 0)
    (hhandles : v.handleReferences = []) (hhandles' : (s.stage c).handleReferences = [])
    (hunnaming : ∀ p next, s.stage c ≠ .unnaming p next) :
    Sound exact ((s.reference o).goto c v) := by
  apply h.touch hseen hc hearly hregistering hcopying
  case hbalance =>
    intro p
    have := hrefs p
    simp only [Stage.allReferences, hhandles, hhandles', List.nil_append]
    split_ifs at this ⊢ with hp
    · subst hp; omega
    · omega
  case hlives =>
    exact fun hpos hlives => hlives.stays hpos (by dsimp only; omega) rfl rfl
  case hcounted => exact fun hb => hb
  case hhandles =>
    intro p
    rw [hhandles, hhandles']
    split_ifs with hp
    · subst hp; simp
    · simp
  case hnamed => rfl
  case hname => rfl
  case hlisted => exact fun _ hcount => .inl hcount
  case hunnaming => exact hunnaming

/-- A call finds a registered object and takes a handle reference. -/
theorem referenceHandle {v : Stage κ ν} (h : Sound exact s) (hseen : s.Seen c o)
    (hc : s.stage c ≠ .notCalled)
    (hearly : v.early = false) (hregistering : ∀ own name, v ≠ .registering own name)
    (hcopying : exact → ∀ p access, v ≠ .copying (some p) access)
    (hrefs : v.references = (s.stage c).references)
    (hhandles : ∀ p, v.handleReferences.count p =
      (s.stage c).handleReferences.count p + if p = o then 1 else 0)
    (hunnaming : ∀ p next, s.stage c ≠ .unnaming p next) :
    Sound exact ((s.referenceHandle o).goto c v) := by
  apply h.touch hseen hc hearly hregistering hcopying
  case hbalance =>
    intro p
    have := hhandles p
    simp only [Stage.allReferences, hrefs, List.count_append]
    split_ifs at this ⊢ with hp
    · subst hp; omega
    · omega
  case hlives =>
    exact fun hpos hlives => hlives.stays hpos (by dsimp only; omega) rfl rfl
  case hcounted => exact fun hb => hb
  case hhandles =>
    intro p
    have := hhandles p
    split_ifs at this ⊢ with hp
    · subst hp; dsimp only; omega
    · omega
  case hnamed => rfl
  case hname => rfl
  case hlisted => exact fun _ hcount => .inl (by dsimp only; omega)
  case hunnaming => exact hunnaming

theorem start_idle (r : Request κ ν) :
    r.start.allReferences = [] ∧ r.start.handleReferences = [] ∧ r.start ≠ .notCalled ∧
      (∀ own name, r.start ≠ .registering own name) ∧
      ∀ p access, r.start ≠ .copying (some p) access := by
  cases r with
  | createMutex _ _ name =>
    cases name <;> exact ⟨rfl, rfl, nofun, fun _ _ => nofun, fun _ _ => nofun⟩
  | duplicateHandle source =>
    cases source <;> exact ⟨rfl, rfl, nofun, fun _ _ => nofun, fun _ _ => nofun⟩
  | wait handles =>
    simp only [Request.start]
    split_ifs <;> exact ⟨rfl, rfl, nofun, fun _ _ => nofun, fun _ _ => nofun⟩
  | _ => exact ⟨rfl, rfl, nofun, fun _ _ => nofun, fun _ _ => nofun⟩

/-- A new call holds nothing. -/
theorem held_begin (h : Sound exact s) (hen : s.stage c = .notCalled) (r : Request κ ν)
    (f : Stage κ ν → List κ) (hf : f r.start = []) : (s.begin c r).held f o = s.held f o := by
  have hnew : c ∉ s.calls := fun hmem => (h.called c).mp hmem hen
  show Holdings.total (c :: s.calls) (fun d => f (Function.update s.stage c r.start d)) o = _
  rw [Holdings.total_cons, Function.update_self, hf, List.count_nil, Nat.zero_add]
  apply Holdings.total_congr
  intro d hd
  rw [Function.update_of_ne (ne_of_mem_of_not_mem hd hnew)]

theorem begin (h : Sound exact s) (hen : s.stage c = .notCalled) (r : Request κ ν) :
    Sound exact (s.begin c r) := by
  obtain ⟨hall, hhandles, hstart, hregistering, hcopying⟩ := start_idle r
  have hself : (s.begin c r).stage c = r.start := Function.update_self ..
  have hother : ∀ d, d ≠ c → (s.begin c r).stage d = s.stage d :=
    fun d hd => Function.update_of_ne hd ..
  refine { h with nodup := ?nodup, called := ?called, fresh := ?fresh, registering := ?registering
                  referenced := ?referenced, counted := ?counted, copying := ?copying
                  listed := ?listed }
  case nodup => exact List.nodup_cons.mpr ⟨fun hmem => (h.called c).mp hmem hen, h.nodup⟩
  case called =>
    intro d
    show d ∈ c :: s.calls ↔ _
    rw [List.mem_cons]
    by_cases hdc : d = c
    · simp [hdc, hself, hstart]
    · simp [hdc, hother d hdc, h.called d]
  case fresh =>
    intro d hd
    by_cases hdc : d = c
    · exact hdc ▸ h.fresh c (by rw [hen]; rfl)
    · exact h.fresh d (hother d hdc ▸ hd)
  case registering =>
    intro d own name hd
    by_cases hdc : d = c
    · rw [hdc, hself] at hd
      exact absurd hd (hregistering own name)
    · exact h.registering d own name (hother d hdc ▸ hd)
  case referenced =>
    intro p
    rw [h.held_begin hen r _ hall]
    exact h.referenced p
  case counted =>
    intro p
    rw [h.held_begin hen r _ hhandles]
    exact h.counted p
  case copying =>
    intro hexact d p access hd
    by_cases hdc : d = c
    · rw [hdc, hself] at hd
      exact absurd hd (hcopying p access)
    · exact h.copying hexact d p access (hother d hdc ▸ hd)
  case listed =>
    intro p hp
    refine (h.listed p hp).imp_right ?_
    rintro ⟨d, next, hd⟩
    have hdc : d ≠ c := by rintro rfl; simp [hen] at hd
    exact ⟨d, next, (hother d hdc).trans hd⟩

theorem find {name : ν} {initialOwner : Bool} (h : Sound exact s)
    (hen : s.stage c = .finding name initialOwner) : Sound exact (s.find c name initialOwner) := by
  unfold State.find
  split
  case h_1 p hfound =>
    apply h.referenceHandle (seen_of_findNamed hfound) (by simp [hen]) rfl
    case hregistering => exact fun _ _ => nofun
    case hcopying => exact fun _ _ _ => nofun
    case hrefs => rw [hen]; rfl
    case hhandles => rw [hen]; exact count_single p
    case hunnaming => simp [hen]
  case h_2 =>
    exact h.move hen nofun nofun (fun _ => rfl) (fun _ _ => nofun) rfl (fun _ => .of_eq rfl)
      (fun _ _ _ => nofun) (fun _ _ => nofun)

theorem openNamed {name : ν} (h : Sound exact s) (hen : s.stage c = .openingName name) :
    Sound exact (s.openNamed c name) := by
  unfold State.openNamed
  split
  case h_1 p hfound =>
    apply h.referenceHandle (seen_of_findNamed hfound) (by simp [hen]) rfl
    case hregistering => exact fun _ _ => nofun
    case hcopying => exact fun _ _ _ => nofun
    case hrefs => rw [hen]; rfl
    case hhandles => rw [hen]; exact count_single p
    case hunnaming => simp [hen]
  case h_2 =>
    exact h.move hen nofun nofun nofun (fun _ _ => nofun) rfl (fun _ => .of_eq rfl)
      (fun _ _ _ => nofun) (fun _ _ => nofun)

/-- A call sets up its own object, which nothing refers to before. -/
theorem setUp {u v : Stage κ ν} {b : Object ν τ} (h : Sound exact s) (hen : s.stage c = u)
    (hu : u.early = true) (hcalled : u ≠ .notCalled) (hidle : u.allReferences = [])
    (hearly : v.early = false)
    (hregistering : ∀ own name, v = .registering own name → own = c ∧ b.Private name)
    (hcopying : exact → ∀ p access, v ≠ .copying (some p) access)
    (hrefs : ∀ p, (v.allReferences.count p : Int) = if p = c then b.referenceCount else 0)
    (hlives : b.Lives) (hnamed : b.named = false)
    (hhandles : b.Counted → b.handleCount = v.handleReferences.count c) :
    Sound exact ((s.setObject c b).goto c v) := by
  subst hen
  have hv : v ≠ .notCalled := by
    rintro rfl
    exact absurd hearly (by simp [Stage.early])
  -- the object is the call's own, and nobody has seen it
  have hblank : s.object c = .blank ν τ := h.fresh c hu
  have hobject : ∀ p, ((s.setObject c b).goto c v).object p = if p = c then b else s.object p :=
    fun p => Function.update_apply s.object c b p
  have hhandles' : (s.stage c).handleReferences = [] :=
    (List.append_eq_nil_iff.mp hidle).1
  refine h.changeCounts (v := v) hcalled hv rfl rfl rfl ?hother ?hfresh ?hregistering ?hbalance
    ?hlives ?hcounted hcopying ?hnamed ?hname ?hlisted ?hunnaming
  case hother =>
    intro p
    by_cases hp : p = c
    · exact .inr (.inr ⟨hp, hblank⟩)
    · exact .inl (by rw [hobject, if_neg hp])
  case hfresh => exact fun he => absurd he (by rw [hearly]; decide)
  case hregistering =>
    intro own name hown
    obtain ⟨rfl, hprivate⟩ := hregistering own name hown
    rw [hobject, if_pos rfl]
    exact hprivate
  case hbalance =>
    intro p
    have := hrefs p
    rw [hobject, hidle, apply_ite Object.referenceCount]
    show _ + (s.handlesOf p : Int) + _ = _ + (s.handlesOf p : Int) + _
    split_ifs at this ⊢ with hp
    · rw [hp, hblank] at *
      simp only [Object.blank, List.count_nil]
      omega
    · simp only [List.count_nil]
      omega
  case hlives =>
    intro p
    rw [hobject]
    split
    case isTrue => exact hlives
    case isFalse => exact h.lives p
  case hcounted =>
    intro p hp
    rw [hobject] at hp ⊢
    rw [hhandles', List.count_nil]
    show _ ∧ AtMost exact (_ + (s.handlesOf p : Int) + _) (_ + (s.handlesOf p : Int) + _)
    split_ifs at hp ⊢ with hpc
    · have := hhandles hp
      subst hpc
      rw [hblank]
      refine ⟨.inl rfl, .of_eq ?_⟩
      simp only [Object.blank]
      omega
    · have hmine : v.handleReferences.count p = 0 := by
        have := hrefs p
        rw [if_neg hpc, Stage.allReferences, List.count_append] at this
        omega
      rw [hmine]
      exact ⟨hp, .of_eq rfl⟩
  case hnamed =>
    intro p
    rw [hobject]
    split
    case isTrue hp => rw [hnamed, hp, hblank]; rfl
    case isFalse => rfl
  case hname =>
    intro p hp
    have hpc : p ≠ c := by
      rintro rfl
      rw [h.linked, hblank] at hp
      simp [Object.blank] at hp
    rw [hobject, if_neg hpc]
  case hlisted =>
    intro p hp hcount
    have hpc : p ≠ c := by
      rintro rfl
      rw [hblank] at hcount
      simp [Object.blank] at hcount
    exact .inl (by rwa [hobject, if_neg hpc])
  case hunnaming =>
    intro p next hp
    rw [hp] at hu
    simp [Stage.early] at hu

theorem allocate {name : Option ν} {initialOwner : Bool} (h : Sound exact s) (t : τ)
    (hen : s.stage c = .allocating name initialOwner) (allocation : Allocation) :
    Sound exact (s.allocate c t name initialOwner allocation) := by
  cases allocation with
  | noMemory =>
    exact h.move hen (by simp) (by simp) (by rintro ⟨⟩) (fun _ _ => (by simp)) rfl
      (fun _ => .of_eq rfl) (fun _ _ _ => (by simp)) (fun _ _ => (by simp))
  | noName =>
    apply h.setUp hen rfl (by simp) rfl rfl
    case hregistering => exact fun _ _ => (by simp)
    case hcopying => exact fun _ _ _ => (by simp)
    case hrefs =>
      intro p
      simp [Stage.allReferences, Stage.handleReferences, Stage.references, Object.blank]
    case hlives => exact .inr ⟨rfl, by simp [Object.blank]⟩
    case hnamed => rfl
    case hhandles => simp [Object.Counted, Object.blank]
  | success =>
    unfold State.allocate
    apply h.setUp hen rfl (by simp) rfl
    case hearly => cases name <;> rfl
    case hregistering =>
      intro own n hv
      cases name with
      | none => exact absurd hv (by simp)
      | some m =>
        cases hv
        exact ⟨rfl, rfl, rfl, rfl, rfl⟩
    case hcopying => cases name <;> exact fun _ _ _ => (by simp)
    case hrefs =>
      intro p
      cases name <;>
        simp only [Stage.allReferences, Stage.handleReferences, Stage.references, List.append_nil,
          count_single] <;> split_ifs <;> simp
    case hlives => exact .inr ⟨rfl, by simp [Object.blank]⟩
    case hnamed => rfl
    case hhandles => cases name <;> simp [Stage.handleReferences]

/-- A handle is made of an object the call has a reference to. -/
theorem createHandle {u v : Stage κ ν} {object : Option κ} {access : AccessMask} (h : Sound exact s)
    (hen : s.stage c = u) (hcalled : u ≠ .notCalled) (hearly : v.early = false)
    (hregistering : ∀ own name, v ≠ .registering own name)
    (hrefs : u.allReferences = object.toList) (hidle : v.allReferences = [])
    (hcounts : exact → u.handleReferences = object.toList)
    (hcopying : exact → ∀ p access, v ≠ .copying (some p) access)
    (hunnaming : ∀ p next, u ≠ .unnaming p next) :
    Sound exact ((s.createHandle c object access).goto c v) := by
  subst hen
  have hv : v ≠ .notCalled := by
    rintro rfl
    exact absurd hearly (by simp [Stage.early])
  have hobject : ∀ p, ((s.createHandle c object access).goto c v).object p =
      if object = some p then { s.object p with opened := true } else s.object p := fun _ => rfl
  -- the reference of the call becomes that of the handle
  have hhandles : ∀ p, ((s.createHandle c object access).goto c v).handlesOf p =
      s.handlesOf p + (s.stage c).allReferences.count p := by
    intro p
    show List.countP _ (s.handles ++ [_]) = List.countP _ s.handles + _
    rw [List.countP_append, hrefs, List.countP_singleton]
    cases object with
    | none => simp
    | some q => by_cases hq : q = p <;> simp [hq]
  have hle : ∀ p, (s.stage c).handleReferences.count p ≤ (s.stage c).allReferences.count p := by
    intro p
    unfold Stage.allReferences
    rw [List.count_append]
    exact Nat.le_add_right _ _
  refine h.changeCounts (v := v) hcalled hv rfl rfl rfl ?hother ?hfresh ?hregistering ?hbalance
    ?hlives ?hcounted hcopying ?hnamed ?hname ?hlisted ?hunnaming
  case hother =>
    intro p
    by_cases hp : object = some p
    · exact .inr (.inl (.inr (.inr (by rw [hrefs, hp]; simp))))
    · exact .inl (by rw [hobject, if_neg hp])
  case hfresh => exact fun he => absurd he (by rw [hearly]; decide)
  case hregistering => exact fun own name hown => absurd hown (hregistering own name)
  case hbalance =>
    intro p
    rw [hobject, hhandles, hidle, apply_ite Object.referenceCount, ite_self, List.count_nil]
    dsimp only
    omega
  case hlives =>
    intro p
    rw [hobject]
    split
    case isTrue hp =>
      have hpos := h.seen_pos (c := c) (o := p) (.inr (.inr (by rw [hrefs, hp]; simp)))
      exact (h.lives p).stays hpos hpos rfl rfl
    case isFalse => exact h.lives p
  case hcounted =>
    intro p hp
    have hcount := hle p
    have hmine : v.handleReferences = [] := (List.append_eq_nil_iff.mp hidle).1
    rw [hhandles, hobject, hmine, apply_ite Object.handleCount, ite_self, List.count_nil]
    refine ⟨?_, by dsimp only; omega, fun hexact => ?exact⟩
    case exact =>
      rw [hcounts hexact, hrefs]
      dsimp only
      omega
    rw [hobject] at hp
    split_ifs at hp with hpo
    · have hpos := h.seen_pos (c := c) (o := p) (.inr (.inr (by rw [hrefs, hpo]; simp)))
      exact .inl ((h.lives p).freed_eq_zero hpos)
    · exact hp
  case hnamed =>
    intro p
    rw [hobject, apply_ite Object.named, ite_self]
  case hname =>
    intro p _
    rw [hobject, apply_ite Object.name, ite_self]
  case hlisted =>
    intro p _ hcount
    rw [hobject, apply_ite Object.handleCount, ite_self]
    exact .inl hcount
  case hunnaming => exact hunnaming

theorem insert {access : AccessMask} (h : Sound exact s) (hen : s.stage c = .inserting o) (ok : Bool) :
    Sound exact (s.insert c o access ok) := by
  unfold State.insert
  split
  case isTrue =>
    exact h.createHandle hen nofun rfl (fun _ _ => nofun) rfl rfl (fun _ => rfl)
      (fun _ _ _ => nofun) (fun _ _ => nofun)
  case isFalse =>
    exact h.move hen nofun nofun nofun (fun _ _ => nofun) rfl (fun _ => .of_eq rfl)
      (fun _ _ _ => nofun) (fun _ _ => nofun)

theorem insertCopy {object : Option κ} {sourceAccess : AccessMask} (h : Sound exact s)
    (hen : s.stage c = .copying object sourceAccess) (ok : Bool) (r : Request κ ν) :
    Sound exact (s.insertCopy c object sourceAccess ok r) := by
  have hnone : exact → object.toList = [] := by
    intro hexact
    cases object with
    | none => rfl
    | some p => exact absurd hen (h.copying hexact c p sourceAccess)
  unfold State.insertCopy
  split
  case h_2 => exact h
  case h_1 source access sameAccess closeSource =>
    split
    case isTrue =>
      apply h.createHandle hen nofun
      case hearly => split <;> rfl
      case hregistering => split <;> exact fun _ _ => nofun
      case hcopying => split <;> exact fun _ _ _ => nofun
      case hrefs => rfl
      case hidle => split <;> rfl
      case hcounts => exact fun hexact => (hnone hexact).symm
      case hunnaming => exact fun _ _ => nofun
    case isFalse =>
      apply h.move hen nofun
      case hv => cases object <;> exact nofun
      case hearly => simp
      case hregistering => simp
      case hcopying => simp
      case hrefs => exact (Stage.allReferences_close object).symm
      case hhandles =>
        intro p
        refine ⟨Int.natCast_nonneg _, fun hexact => ?_⟩
        rw [Stage.handleReferences_close, hnone hexact]
        rfl
      case hunnaming => exact fun _ _ => nofun

/-- A found handle is taken out of the table. -/
theorem countP_eraseP {h : κ} {hd : Handle κ} (hfound : s.lookupHandle h = some hd) (p : κ) :
    (s.handles.eraseP fun hd => hd.id = h).countP (fun hd => hd.object = some p) +
      hd.object.toList.count p = s.handlesOf p := by
  obtain ⟨hid, before, after, happend, hbefore⟩ := List.find?_eq_some_iff_append.mp hfound
  unfold State.handlesOf
  rw [happend, List.eraseP_append_right _ (by simpa using hbefore), List.eraseP_cons, hid,
    cond_true, List.countP_append, List.countP_append, List.countP_cons]
  cases hd.object with
  | none => simp
  | some q => by_cases hq : q = p <;> simp [hq, Nat.add_assoc]

theorem remove {h : κ} (hs : Sound exact s) (hen : s.stage c = .removing h) : Sound exact (s.remove c h) := by
  unfold State.remove
  split
  case h_1 =>
    exact hs.move hen nofun nofun nofun (fun _ _ => nofun) rfl (fun _ => .of_eq rfl)
      (fun _ _ _ => nofun) (fun _ _ => nofun)
  case h_2 hd hfound =>
    refine hs.changeCounts (v := .close hd.object) (by simp [hen]) ?hv rfl rfl rfl
      (fun _ => .inl rfl) (by simp) (by simp) ?hbalance hs.lives ?hcounted (by simp) (fun _ => rfl)
      (fun _ _ => rfl) (fun _ _ hcount => .inl hcount) (by simp [hen])
    case hv => cases hd.object <;> exact nofun
    case hbalance =>
      intro p
      have := countP_eraseP hfound p
      rw [hen, Stage.allReferences_close]
      show (s.object p).referenceCount + s.handlesOf p + (0 : Nat) =
        (s.object p).referenceCount +
          ((s.handles.eraseP fun hd => hd.id = h).countP fun hd => hd.object = some p : Nat) + _
      omega
    case hcounted =>
      intro p hp
      have := countP_eraseP hfound p
      refine ⟨hp, .of_eq ?_⟩
      rw [hen, Stage.handleReferences_close]
      show (s.object p).handleCount + s.handlesOf p + (0 : Nat) =
        (s.object p).handleCount +
          ((s.handles.eraseP fun hd => hd.id = h).countP fun hd => hd.object = some p : Nat) + _
      omega

theorem decrement {next : Option κ} (h : Sound exact s) (hen : s.stage c = .closing o next) :
    Sound exact (s.decrement c o next) := by
  have hseen : s.Seen c o := .inr (.inr (by
    rw [hen]; simp [Stage.allReferences, Stage.handleReferences]))
  obtain ⟨v, hv⟩ : ∃ v : Stage κ ν,
      v = if (s.object o).handleCount - 1 = 0 ∧ (s.object o).named then .unnaming o next
        else .dropping [o] next := ⟨_, rfl⟩
  unfold State.decrement
  rw [← hv]
  -- either way the reference of the handle is still held
  have hrefs : ∀ p, v.allReferences.count p = (o :: next.toList).count p := by
    intro p
    rw [hv]
    split_ifs <;>
      simp [Stage.allReferences, Stage.handleReferences, Stage.references, List.count_cons]
  have hhandles : v.handleReferences = next.toList := by
    rw [hv]; split_ifs <;> rfl
  apply h.touch hseen (by simp [hen])
  case hearly => rw [hv]; split_ifs <;> rfl
  case hregistering => rw [hv]; split_ifs <;> exact fun _ _ => (by simp)
  case hcopying => rw [hv]; split_ifs <;> exact fun _ _ _ => (by simp)
  case hbalance =>
    intro p
    rw [hen, hrefs]
    have hhere : (Stage.closing o next : Stage κ ν).allReferences = o :: next.toList := by
      simp [Stage.allReferences, Stage.handleReferences, Stage.references]
    rw [hhere]
    split_ifs with hp
    · subst hp; rfl
    · rfl
  case hlives => exact fun hpos hlives => hlives.stays hpos hpos rfl rfl
  case hcounted => exact fun hb => hb
  case hhandles =>
    intro p
    rw [hen, hhandles]
    simp only [Stage.handleReferences, List.count_cons, beq_iff_eq]
    split_ifs with hp hpo hpo
    · subst hp; omega
    · exact absurd hp.symm hpo
    · exact absurd hpo.symm hp
    · omega
  case hnamed => rfl
  case hname => rfl
  case hlisted =>
    intro hmem hcount
    have hnamed := (h.linked o).mp hmem
    by_cases hlast : (s.object o).handleCount - 1 = 0
    · exact .inr ⟨next, by rw [hv, if_pos ⟨hlast, hnamed⟩]⟩
    · exact .inl (by dsimp only; omega)
  case hunnaming => simp [hen]

theorem drop {rest : List κ} {next : Option κ} (h : Sound exact s)
    (hen : s.stage c = .dropping (o :: rest) next) : Sound exact (s.drop c o rest next) := by
  have hseen : s.Seen c o := .inr (.inr (by
    rw [hen]; simp [Stage.allReferences, Stage.references]))
  unfold State.drop State.dereference
  apply h.touch hseen (by simp [hen]) (by simp) (by simp) (by simp)
  case hbalance =>
    intro p
    have hhere : (Stage.dropping (o :: rest) next : Stage κ ν).allReferences =
      next.toList ++ o :: rest := rfl
    rw [hen, hhere, Stage.allReferences_drop, List.count_append, List.count_append]
    simp only [List.count_cons, beq_iff_eq]
    split_ifs with hp hpo hpo
    · subst hp; omega
    · exact absurd hp.symm hpo
    · exact absurd hpo.symm hp
    · omega
  case hlives =>
    intro hpos hlives
    refine .inr ⟨hlives.allocated hpos, ?_⟩
    dsimp only
    rw [hlives.freed_eq_zero hpos]
  case hcounted =>
    rintro (hfreed | hnamed | hopened)
    · refine .inl ?_
      dsimp only at hfreed
      split_ifs at hfreed
      exact hfreed
    · exact .inr (.inl hnamed)
    · exact .inr (.inr hopened)
  case hhandles =>
    intro p
    rw [hen, Stage.handleReferences_drop]
    simp only [Stage.handleReferences]
    split_ifs with hp
    · subst hp; rfl
    · rfl
  case hnamed => rfl
  case hname => rfl
  case hlisted => exact fun _ hcount => .inl hcount
  case hunnaming => simp [hen]

/-- Unlinking an object, whether or not another call has done so before. -/
theorem unname_eq {next : Option κ} (h : Sound exact s) :
    s.unname c o next =
      ({ s.setObject o { s.object o with named := false } with
        nameList := s.nameList.filter (· ≠ o) } : State κ ν τ).goto c (.dropping [o] next) := by
  unfold State.unname
  split
  case isTrue => rfl
  case isFalse hnamed =>
    have hnamed : (s.object o).named = false := by simpa using hnamed
    have hmem : o ∉ s.nameList := by rw [h.linked, hnamed]; decide
    have hlist : s.nameList.filter (· ≠ o) = s.nameList := by
      rw [List.filter_eq_self]
      intro p hp
      simpa using ne_of_mem_of_not_mem hp hmem
    have hobject : ({ s.object o with named := false } : Object ν τ) = s.object o := by
      rw [← hnamed]
    rw [hlist, hobject]
    unfold State.setObject
    rw [Function.update_eq_self]

theorem unname {next : Option κ} (h : Sound exact s) (hen : s.stage c = .unnaming o next) :
    Sound exact (s.unname c o next) := by
  have hseen : s.Seen c o := .inr (.inr (by
    rw [hen]; simp [Stage.allReferences, Stage.references]))
  rw [h.unname_eq]
  obtain ⟨s', hs'⟩ : ∃ s', s' = (({ s.setObject o { s.object o with named := false } with
    nameList := s.nameList.filter (· ≠ o) } : State κ ν τ).goto c (.dropping [o] next)) := ⟨_, rfl⟩
  have hobject : ∀ p, s'.object p =
      if p = o then { s.object o with named := false } else s.object p := by
    intro p
    rw [hs']
    exact Function.update_apply s.object o _ p
  have hlist : ∀ p, p ∈ s'.nameList ↔ p ∈ s.nameList ∧ p ≠ o := by
    intro p
    rw [hs']
    simp [State.goto]
  have hsame : ∀ p, p ≠ o → s'.object p = s.object p := fun p hp => by rw [hobject, if_neg hp]
  rw [← hs']
  refine h.change (c := c) (v := .dropping [o] next) (by simp [hen]) (by simp) (by rw [hs']; rfl)
    (by rw [hs']; rfl) ?hother (by rintro ⟨⟩) (fun _ _ => (by simp)) ?hbalance ?hlives ?hcounted
    (fun _ _ _ => (by simp)) ?hlinked ?hlisted ?hdistinct
  case hother =>
    intro p
    by_cases hp : p = o
    · exact .inr (.inl (hp ▸ hseen))
    · exact .inl (hsame p hp)
  case hbalance =>
    intro p
    have hhandles : s'.handlesOf p = s.handlesOf p := by rw [hs']; rfl
    rw [hen, hobject, hhandles, apply_ite Object.referenceCount]
    split_ifs with hp
    · subst hp; rfl
    · rfl
  case hlives =>
    intro p
    rw [hobject]
    split_ifs
    · have hpos := h.seen_pos hseen
      exact (h.lives o).stays hpos hpos rfl rfl
    · exact h.lives p
  case hcounted =>
    intro p hp
    have hhandles : s'.handlesOf p = s.handlesOf p := by rw [hs']; rfl
    rw [hen, hobject, hhandles, apply_ite Object.handleCount]
    rw [hobject] at hp
    split_ifs at hp ⊢ with hpo
    · subst hpo
      exact ⟨hp.imp_right (.imp_left (by simp)), .of_eq rfl⟩
    · exact ⟨hp, .of_eq rfl⟩
  -- the object leaves the list and loses its mark in one step
  case hlinked =>
    intro p
    rw [hlist, hobject, h.linked]
    split_ifs with hp <;> simp [hp]
  case hlisted =>
    intro p hp
    obtain ⟨hmem, hpo⟩ := (hlist p).mp hp
    rw [hsame p hpo]
    refine (h.listed p hmem).imp_right ?_
    -- another call is about to unname another object
    rintro ⟨d, next', hd⟩
    have hdc : d ≠ c := by
      rintro rfl
      rw [hen] at hd
      cases hd
      exact hpo rfl
    exact ⟨d, next', by rw [hs']; exact (Function.update_of_ne hdc ..).trans hd⟩
  case hdistinct =>
    intro p hp q hq hpq
    obtain ⟨hp, hpo⟩ := (hlist p).mp hp
    obtain ⟨hq, hqo⟩ := (hlist q).mp hq
    rw [hsame p hpo, hsame q hqo] at hpq
    exact h.distinct p hp q hq hpq

theorem register {own : κ} {name : ν} (h : Sound exact s) (hen : s.stage c = .registering own name) :
    Sound exact (s.register c own name) := by
  have hprivate := h.registering c own name hen
  unfold State.register
  split
  case h_1 p hfound =>
    apply h.referenceHandle (seen_of_findNamed hfound) (by simp [hen]) rfl
    case hregistering => exact fun _ _ => (by simp)
    case hcopying => exact fun _ _ _ => (by simp)
    case hrefs => rw [hen]; rfl
    case hhandles =>
      intro q
      rw [hen]
      show ([own] ++ [p]).count q = [own].count q + _
      rw [List.count_append, count_single p, List.count_nil, Nat.zero_add]
    case hunnaming => simp [hen]
  case h_2 hnone =>
    have hseen : s.Seen c own := .inr (.inr (by
      rw [hen]; simp [Stage.allReferences, Stage.handleReferences]))
    obtain ⟨s', hs'⟩ : ∃ s', s' = (({ s.setObject own { s.object own with named := true } with
      nameList := s.nameList ++ [own] } : State κ ν τ).goto c (.inserting own)) := ⟨_, rfl⟩
    have hobject : ∀ p, s'.object p =
        if p = own then { s.object own with named := true } else s.object p := by
      intro p
      rw [hs']
      exact Function.update_apply s.object own _ p
    have hlist : ∀ p, p ∈ s'.nameList ↔ p ∈ s.nameList ∨ p = own := by
      intro p
      rw [hs']
      simp [State.goto]
    have hunlisted : own ∉ s.nameList := by
      rw [h.linked, hprivate.named]
      decide
    -- nobody in the list has the name
    have hfree : ∀ p ∈ s.nameList, (s.object p).name ≠ some name := by
      intro p hp
      simpa using List.find?_eq_none.mp hnone p hp
    have hsame : ∀ p ∈ s.nameList, s'.object p = s.object p := by
      intro p hp
      rw [hobject, if_neg (ne_of_mem_of_not_mem hp hunlisted)]
    rw [← hs']
    refine h.change (c := c) (v := .inserting own) (by simp [hen]) (by simp) (by rw [hs']; rfl)
      (by rw [hs']; rfl) ?hother (by rintro ⟨⟩) (fun _ _ => (by simp)) ?hbalance ?hlives ?hcounted
      (fun _ _ _ => (by simp)) ?hlinked ?hlisted ?hdistinct
    case hother =>
      intro p
      by_cases hp : p = own
      · exact .inr (.inl (hp ▸ hseen))
      · exact .inl (by rw [hobject, if_neg hp])
    case hbalance =>
      intro p
      have hhandles : s'.handlesOf p = s.handlesOf p := by rw [hs']; rfl
      rw [hen, hobject, hhandles]
      split_ifs with hp
      · subst hp; rfl
      · rfl
    case hlives =>
      intro p
      rw [hobject]
      split_ifs
      · have hpos := h.seen_pos hseen
        exact (h.lives own).stays hpos hpos rfl rfl
      · exact h.lives p
    case hcounted =>
      intro p hp
      have hhandles : s'.handlesOf p = s.handlesOf p := by rw [hs']; rfl
      rw [hen, hobject, hhandles]
      rw [hobject] at hp
      split_ifs at hp ⊢ with hpo
      · subst hpo
        exact ⟨.inl ((h.lives p).freed_eq_zero (h.seen_pos hseen)), .of_eq rfl⟩
      · exact ⟨hp, .of_eq rfl⟩
    case hlinked =>
      intro p
      rw [hlist, hobject, h.linked]
      split_ifs with hp <;> simp [hp]
    case hlisted =>
      intro p hp
      rcases (hlist p).mp hp with hmem | rfl
      · rw [hsame p hmem]
        refine (h.listed p hmem).imp_right ?_
        rintro ⟨d, next, hd⟩
        have hdc : d ≠ c := by
          rintro rfl
          simp [hen] at hd
        exact ⟨d, next, by rw [hs']; exact (Function.update_of_ne hdc ..).trans hd⟩
      · rw [hobject, if_pos rfl]
        exact .inl (Int.le_of_eq hprivate.handleCount.symm)
    -- nothing in the list has the name that is added
    case hdistinct =>
      have hown : (s'.object own).name = some name := by
        rw [hobject, if_pos rfl]
        exact hprivate.name
      intro p hp q hq hpq
      rcases (hlist p).mp hp with hp | rfl <;> rcases (hlist q).mp hq with hq | rfl
      · rw [hsame p hp, hsame q hq] at hpq
        exact h.distinct p hp q hq hpq
      · rw [hsame p hp, hown] at hpq
        exact absurd hpq (hfree p hp)
      · rw [hsame q hq, hown] at hpq
        exact absurd hpq.symm (hfree q hq)
      · rfl

theorem lookUpSource {h : κ} (hs : Sound exact s) (hen : s.stage c = .lookingUpSource h)
    (hguard : exact → ∀ hd, s.lookupHandle h = some hd → hd.object = none) :
    Sound exact (s.lookUpSource c h) := by
  unfold State.lookUpSource
  split
  case h_2 id p access hfound =>
    apply hs.reference (seen_of_lookupHandle hfound rfl) (by simp [hen]) rfl
    case hregistering => exact fun _ _ => nofun
    case hcopying => exact fun hexact => absurd (hguard hexact _ hfound) nofun
    case hrefs => rw [hen]; exact count_single p
    case hhandles => rfl
    case hhandles' => rw [hen]; rfl
    case hunnaming => simp [hen]
  all_goals
    exact hs.move hen nofun nofun nofun (fun _ _ => nofun) rfl (fun _ => .of_eq rfl)
      (fun _ _ _ => nofun) (fun _ _ => nofun)

theorem lookUpMutant {h : κ} (hs : Sound exact s) (hen : s.stage c = .lookingUpMutant h) :
    Sound exact (s.lookUpMutant c h) := by
  have hmove : Sound exact (s.goto c .returned) :=
    hs.move hen nofun nofun nofun (fun _ _ => nofun) rfl (fun _ => .of_eq rfl)
      (fun _ _ _ => nofun) (fun _ _ => nofun)
  unfold State.lookUpMutant
  split
  case h_1 id p access hfound =>
    split
    case isTrue =>
      apply hs.reference (seen_of_lookupHandle hfound rfl) (by simp [hen]) rfl
      case hregistering => exact fun _ _ => nofun
      case hcopying => exact fun _ _ _ => nofun
      case hrefs => rw [hen]; exact count_single p
      case hhandles => rfl
      case hhandles' => rw [hen]; rfl
      case hunnaming => simp [hen]
    case isFalse => exact hmove
  case h_2 => exact hmove

theorem referenceNext {h : Option κ} {rest : List (Option κ)} {held : List κ} (hs : Sound exact s)
    (hen : s.stage c = .referencing (h :: rest) held) (ok : Bool) :
    Sound exact (s.referenceNext c h rest held ok) := by
  have hgoOn : Sound exact (s.goto c (.reference rest held)) := by
    apply hs.move hen nofun
    case hv => cases rest <;> exact nofun
    case hearly => simp
    case hregistering => simp
    case hrefs => exact (Stage.allReferences_reference rest held).symm
    case hhandles => intro p; rw [Stage.handleReferences_reference]; exact .of_eq rfl
    case hcopying => simp
    case hunnaming => exact fun _ _ => nofun
  have hgiveUp : Sound exact (s.goto c (.drop held none)) := by
    apply hs.move hen nofun
    case hv => cases held <;> exact nofun
    case hearly => simp
    case hregistering => simp
    case hrefs => exact (Stage.allReferences_drop held none).symm
    case hhandles => intro p; rw [Stage.handleReferences_drop]; exact .of_eq rfl
    case hcopying => simp
    case hunnaming => exact fun _ _ => nofun
  unfold State.referenceNext
  split
  case h_1 =>
    split
    · exact hgoOn
    · exact hgiveUp
  case h_2 => exact hgiveUp
  case h_3 hd hfound =>
    split
    case isFalse => exact hgiveUp
    case isTrue =>
      split
      case h_2 => exact hgoOn
      case h_1 p hobject =>
        obtain ⟨k, -, hk⟩ := Option.map_eq_some_iff.mp hfound
        apply hs.reference (seen_of_lookupHandle hk hobject) (by simp [hen]) (by simp) (by simp)
          (by simp)
        case hrefs =>
          intro q
          rw [hen, Stage.references_reference, List.count_append, count_single, List.count_nil,
            Nat.zero_add]
          rfl
        case hhandles => exact Stage.handleReferences_reference ..
        case hhandles' => rw [hen]; rfl
        case hunnaming => simp [hen]

theorem releaseMutant (h : Sound exact s) (hen : s.stage c = .releasing o) (t : τ) :
    Sound exact (s.releaseMutant c o t) := by
  have hseen : s.Seen c o := .inr (.inr (by
    rw [hen]; simp [Stage.allReferences, Stage.references]))
  unfold State.releaseMutant
  apply h.touch hseen (by simp [hen]) rfl
  case hregistering => exact fun _ _ => (by simp)
  case hcopying => exact fun _ _ _ => (by simp)
  case hbalance =>
    intro p
    rw [hen]
    split_ifs with hp
    · subst hp; rfl
    · rfl
  case hlives => exact fun hpos hlives => hlives.stays hpos hpos rfl rfl
  case hcounted => exact fun hb => hb
  case hhandles =>
    intro p
    rw [hen]
    split_ifs with hp
    · subst hp; rfl
    · rfl
  case hnamed => rfl
  case hname => rfl
  case hlisted => exact fun _ hcount => .inl hcount
  case hunnaming => simp [hen]

theorem endWait {held : List κ} (h : Sound exact s) (hen : s.stage c = .waiting held) :
    Sound exact (s.goto c (.drop held none)) := by
  apply h.move hen nofun
  case hv => cases held <;> exact nofun
  case hearly => simp
  case hregistering => simp
  case hrefs => exact (Stage.allReferences_drop held none).symm
  case hhandles => intro p; rw [Stage.handleReferences_drop]; exact .of_eq rfl
  case hcopying => simp
  case hunnaming => exact fun _ _ => nofun

end Sound

/-! ### Acquiring several mutants -/

/-- Acquiring changes the mutants of the list and nothing else. -/
theorem State.acquireAll_spec (s : State κ ν τ) (t : τ) (objects : List κ) :
    (s.acquireAll t objects).handles = s.handles ∧
      (s.acquireAll t objects).nameList = s.nameList ∧
      (s.acquireAll t objects).stage = s.stage ∧ (s.acquireAll t objects).calls = s.calls ∧
      ∀ p, ∃ m, (s.acquireAll t objects).object p = { s.object p with mutant := m } ∧
        (p ∉ objects → m = (s.object p).mutant) := by
  induction objects generalizing s with
  | nil => exact ⟨rfl, rfl, rfl, rfl, fun p => ⟨(s.object p).mutant, rfl, fun _ => rfl⟩⟩
  | cons q objects ih =>
    obtain ⟨hhandles, hnameList, hstage, hcalls, hobject⟩ :=
      ih (s.setObject q { s.object q with mutant := (s.object q).mutant.acquire t })
    refine ⟨hhandles, hnameList, hstage, hcalls, ?_⟩
    intro p
    obtain ⟨m, hm, hkeep⟩ := hobject p
    have hupdate := Function.update_apply s.object q
      { s.object q with mutant := (s.object q).mutant.acquire t } p
    refine ⟨m, ?_, ?_⟩
    · refine hm.trans ?_
      simp only [State.setObject, hupdate]
      split_ifs with hp
      · rw [hp]
      · rfl
    · intro hmem
      obtain ⟨hpq, hmem⟩ := not_or.mp (mt List.mem_cons.mpr hmem)
      rw [hkeep hmem]
      simp only [State.setObject, hupdate, if_neg hpq]

theorem Request.Satisfies.subset {r : Request κ ν} {held objects : List κ}
    (h : r.Satisfies held objects) : objects ⊆ held := by
  cases r with
  | wait _ waitAll =>
    cases waitAll with
    | true => exact h ▸ List.Subset.refl _
    | false => exact h.2
  | _ => exact h.elim

namespace Sound

variable {exact : Prop} {s : State κ ν τ} {c o : κ}

theorem acquire {held objects : List κ} (h : Sound exact s) (hen : s.stage c = .waiting held)
    (hsubset : objects ⊆ held) (t : τ) : Sound exact (s.acquire c t held objects) := by
  obtain ⟨hhandles, hnameList, hstage, hcalls, hobject⟩ := s.acquireAll_spec t objects
  unfold State.acquire
  generalize s.acquireAll t objects = s₁ at *
  have hhandlesOf : ∀ p, (s₁.goto c (.drop held none)).handlesOf p = s.handlesOf p := by
    intro p
    unfold State.handlesOf
    rw [← hhandles]
    rfl
  refine h.changeCounts (c := c) (v := .drop held none) (by simp [hen]) ?hv hcalls
    (by rw [← hstage]; rfl) hnameList ?hother (by simp) (by simp) ?hbalance ?hlives ?hcounted (by simp)
    ?hnamed ?hname ?hlisted (by simp [hen])
  case hv => cases held <;> exact nofun
  case hother =>
    intro p
    obtain ⟨m, hm, hkeep⟩ := hobject p
    by_cases hp : p ∈ objects
    · refine .inr (.inl (.inr (.inr ?_)))
      rw [hen]
      exact hsubset hp
    · refine .inl (hm.trans ?_)
      rw [hkeep hp]
  case hbalance =>
    intro p
    obtain ⟨m, hm, -⟩ := hobject p
    rw [hen, Stage.allReferences_drop, hhandlesOf, show (s₁.goto c _).object p = _ from hm]
    rfl
  -- acquiring changes what the dispatcher knows of an object, and no count
  case hlives =>
    intro p
    obtain ⟨m, hm, hkeep⟩ := hobject p
    show (s₁.object p).Lives
    rw [hm]
    rcases h.lives p with hblank | hlives
    · have hp : p ∉ objects := by
        intro hp
        have hpos := h.seen_pos (c := c) (o := p) (.inr (.inr (by rw [hen]; exact hsubset hp)))
        rw [hblank] at hpos
        exact absurd hpos (by simp [Object.blank])
      rw [hkeep hp]
      exact .inl hblank
    · exact .inr hlives
  case hcounted =>
    intro p hp
    obtain ⟨m, hm, -⟩ := hobject p
    rw [show (s₁.goto c _).object p = _ from hm] at hp ⊢
    rw [hen, Stage.handleReferences_drop, hhandlesOf]
    exact ⟨hp, .of_eq rfl⟩
  case hnamed =>
    intro p
    obtain ⟨m, hm, -⟩ := hobject p
    rw [show (s₁.goto c _).object p = _ from hm]
  case hname =>
    intro p _
    obtain ⟨m, hm, -⟩ := hobject p
    rw [show (s₁.goto c _).object p = _ from hm]
  case hlisted =>
    intro p _ hcount
    obtain ⟨m, hm, -⟩ := hobject p
    rw [show (s₁.goto c _).object p = _ from hm]
    exact .inl hcount

end Sound

/-! ## Every run -/

variable {request : κ → Request κ ν} {thread : κ → τ}

/-- No handle of a wait object is duplicated by the step. -/
def DuplicatesNone (s : State κ ν τ) : Action κ ν → Prop
  | .lookUpSource _ h => ∀ hd, s.lookupHandle h = some hd → hd.object = none
  | _ => True

theorem sound_initialState {exact : Prop} : Sound exact (initialState κ ν τ) where
  nodup := List.nodup_nil
  called c := by simp [initialState]
  fresh _ _ := rfl
  registering _ _ _ := nofun
  referenced _ := rfl
  lives _ := .inl rfl
  counted _ _ := .of_eq rfl
  copying _ _ _ _ := nofun
  linked o := by simp [initialState, Object.blank]
  listed _ := nofun
  distinct _ := nofun

theorem Sound.next {exact : Prop} {s : State κ ν τ} (h : Sound exact s) (a : Action κ ν)
    (hen : (mutexHandles request thread).enabled s a) (hguard : exact → DuplicatesNone s a) :
    Sound exact ((mutexHandles request thread).next s a) := by
  cases a with
  | begin c => exact h.begin hen _
  | find c name initialOwner => exact h.find hen
  | openNamed c name => exact h.openNamed hen
  | allocate c name initialOwner allocation => exact h.allocate _ hen.1 allocation
  | register c own name => exact h.register hen
  | insert c o ok => exact h.insert hen ok
  | remove c hd => exact h.remove hen
  | decrement c o next => exact h.decrement hen
  | unname c o next => exact h.unname hen
  | drop c o rest next => exact h.drop hen
  | lookUpSource c hd => exact h.lookUpSource hen hguard
  | insertCopy c object sourceAccess ok => exact h.insertCopy hen ok _
  | lookUpMutant c hd => exact h.lookUpMutant hen
  | releaseMutant c o => exact h.releaseMutant hen _
  | referenceNext c hd rest held ok => exact h.referenceNext hen ok
  | acquire c held objects => exact h.acquire hen.1 hen.2.1.subset _
  | endWait c held => exact h.endWait hen

theorem sound_of_reachable {exact : Prop} {guard : State κ ν τ → Action κ ν → Prop}
    (hguard : exact → ∀ s a, guard s a → DuplicatesNone s a) :
    ∀ s, (mutexHandles request thread).Reachable guard s → Sound exact s := by
  apply System.Reachable.invariant
  · intro s hinit
    rw [show s = initialState κ ν τ from hinit]
    exact sound_initialState
  · exact fun s a h hen hg => h.next a hen fun hexact => hguard hexact s a hg

/-! ## What has been given back -/

namespace Sound

variable {exact : Prop} {s : State κ ν τ} {o : κ}

/-- Nothing refers to an object that has been given back. -/
theorem unreferenced (h : Sound exact s) (hfreed : 0 < (s.object o).freed) :
    (s.object o).referenceCount = 0 ∧ (∀ hd ∈ s.handles, hd.object ≠ some o) ∧
      ∀ c, o ∉ (s.stage c).allReferences := by
  have hzero : (s.object o).referenceCount = 0 := by
    rcases h.lives o with hblank | ⟨-, hlives⟩
    · rw [hblank]; rfl
    · by_contra hne
      rw [hlives, if_neg hne] at hfreed
      exact absurd hfreed (by decide)
  have hunseen : ∀ c, ¬ s.Seen c o := by
    intro c hseen
    have := h.seen_pos hseen
    omega
  refine ⟨hzero, ?_, ?_⟩
  · intro hd hmem hobject
    exact hunseen o (.inr (.inl ⟨hd, hmem, hobject⟩))
  · intro c hmem
    exact hunseen c (.inr (.inr hmem))

theorem freed_le_one (h : Sound exact s) : (s.object o).freed ≤ 1 := by
  rcases h.lives o with hblank | ⟨-, hlives⟩
  · rw [hblank]; exact Nat.zero_le _
  · rw [hlives]
    split_ifs
    · exact Nat.le_refl _
    · exact Nat.zero_le _

end Sound

end Ldk.WaitObject
