import Ldk.Tls.Ownership

/-!
# What the slots hold

A slot of a module's index holds that module's block or nothing, and an index that is given up is
cleared in every TEB before. The sweep that clears it goes around the TEB list; a TEB on the
temporary list, which LDK makes while it shuts down, is not on its way.

- `Slotted`: the invariant on slots and sweeps.
- `OnTebList`: a sweep begins in a thread whose TEB is listed, and no TEB on the temporary list
  holds anything at the index.
- `tls_lifecycle`: in runs that keep to it, every state is sound.
- `temporary_teb_keeps_block`: a run that does not.
-/

namespace Ldk.Tls

open TransitionSystem CircularSweep

/-! ## The property -/

/-- No index is shared, a module's slots are its own, and no TEB holds a block of a module that
does not have the index any more. -/
structure Sound (s : State) : Prop where
  clients : s.allocated.Nodup
  modules : ∀ m m' i, s.index m = some i → s.index m' = some i → m = m'
  shared : ∀ m i, s.index m = some i → i ∉ s.allocated
  slots : ∀ m md i, s.modules m = some md → md.tlsIndex = some i →
    ∀ a teb, s.tebs a = some teb → teb.tlsSlots i = .null ∨ teb.tlsSlots i = md.block m
  released : ∀ a teb i m contents, s.tebs a = some teb → teb.tlsSlots i = .block m contents →
    s.index m = some i
  steady : ∀ p, s.stage p ≠ some .astray

/-- A sweep of an index that begins at a TEB can come to all that hold anything. -/
structure State.Sweepable (s : State) (a index : Nat) : Prop where
  current : a ∈ s.tebList
  temporary : ∀ b ∈ s.temporaryTebList, s.slot b index = .null

/-- The condition: sweeps begin where they can come to everything. -/
def OnTebList (s : State) : Action → Prop
  | .startSweep _ m a => ∀ index, s.index m = some index → s.Sweepable a index
  | .tlsFree _ _ a index => s.Sweepable a index
  | _ => True

/-! ## Slots -/

/-- The index whose slots a call clears. -/
def Stage.clears : Stage → Option Nat
  | .sweeping index _ _ _ _ | .clearing index _ => some index
  | _ => none

/-- Somebody accounts for what a slot holds. -/
def Explained (s : State) (i : Nat) : Slot → Prop
  | .null => True
  | .block m contents =>
    ∃ md, s.modules m = some md ∧ md.tlsIndex = some i ∧ md.block m = .block m contents
  | .data _ => i ∈ s.allocated ∨ ∃ p, (s.stage p).bind Stage.frees = some i

structure Slotted (s : State) : Prop where
  nodup : s.tebList.Nodup
  listed : ∀ a ∈ s.tebList, s.tebs a ≠ none
  known : ∀ a, s.tebs a ≠ none → a ∈ s.tebList ∨ a ∈ s.temporaryTebList
  rundown : ∀ a teb, s.tebs a = some teb → teb.runDown = false
  explained : ∀ a i, Explained s i (s.slot a i)
  sweeping : ∀ p i m initialTeb teb cleared,
    s.stage p = some (.sweeping i m initialTeb teb cleared) →
    initialTeb ∈ s.tebList ∧ teb ∈ s.tebList ∧ ∀ a, s.slot a i ≠ .null →
      Ahead s.tebList initialTeb teb a ∧ (cleared = true → a ≠ teb)
  clearing : ∀ p i m, s.stage p = some (.clearing i m) → ∀ a, s.slot a i = .null
  pending : ∀ p m i, (s.stage p).bind Stage.pending = some m → s.index m = some i →
    ∀ a, s.slot a i = .null
  steady : ∀ p, s.stage p ≠ some .astray

section Lemmas

variable {s : State}

theorem State.slot_of_teb {a : Nat} {teb : Teb} (hteb : s.tebs a = some teb) (i : Nat) :
    s.slot a i = teb.tlsSlots i := by
  unfold State.slot
  rw [hteb]

theorem State.exists_of_slot {a i : Nat} (h : s.slot a i ≠ .null) : s.tebs a ≠ none := by
  intro hnone
  apply h
  unfold State.slot
  rw [hnone]

/-- A slot is exchanged where there is a TEB. -/
theorem State.slot_setSlot (s : State) (a b i j : Nat) (value : Slot) :
    (s.setSlot a i value).slot b j =
      if b = a ∧ j = i ∧ s.tebs a ≠ none then value else s.slot b j := by
  unfold State.setSlot
  cases hteb : s.tebs a with
  | none => simp
  | some teb =>
    simp only [State.slot, State.setTeb, Function.update_apply]
    by_cases hb : b = a
    · subst hb
      by_cases hj : j = i
      · simp [hj]
      · simp [hj, hteb]
    · simp [hb]

/-- Where nobody has the index, nothing is held. -/
theorem Slotted.null_of_unowned (h : Slotted s) {i : Nat} (hun : Unowned s i) (a : Nat) :
    s.slot a i = .null := by
  have hexplained := h.explained a i
  cases hslot : s.slot a i with
  | null => rfl
  | block m contents =>
    rw [hslot] at hexplained
    obtain ⟨md, hmd, hindex, -⟩ := hexplained
    refine absurd ?_ (hun.module m)
    unfold State.index
    rw [hmd]
    exact hindex
  | data value =>
    rw [hslot] at hexplained
    rcases hexplained with hclient | ⟨p, hp⟩
    · exact absurd hclient hun.client
    · exact absurd hp (hun.call p)

/-- Only the module with the index has a block there. -/
theorem Slotted.index_of_block (h : Slotted s) {a i m : Nat} {contents : List UInt8}
    (hslot : s.slot a i = .block m contents) : s.index m = some i := by
  have hexplained := h.explained a i
  rw [hslot] at hexplained
  obtain ⟨md, hmd, hindex, -⟩ := hexplained
  unfold State.index
  rw [hmd]
  exact hindex

/-- What clears an index gives it up, for a client or for a module. -/
theorem Stage.clears_cases {stage : Stage} {i : Nat} (h : stage.clears = some i) :
    stage.frees = some i ∨ ∃ m, stage.releases = some (m, i) ∧ stage.unregisters = some m := by
  cases stage with
  | sweeping index m initialTeb teb cleared =>
    obtain rfl := Option.some.inj h
    cases m with
    | none => exact .inl rfl
    | some m => exact .inr ⟨m, rfl, rfl⟩
  | clearing index m =>
    obtain rfl := Option.some.inj h
    cases m with
    | none => exact .inl rfl
    | some m => exact .inr ⟨m, rfl, rfl⟩
  | _ => cases h

end Lemmas

/-! ## Changing slots -/

/-- No call relies on the slots of an index to be empty. -/
structure Quiet (s : State) (i : Nat) : Prop where
  clears : ∀ p, (s.stage p).bind Stage.clears ≠ some i
  pending : ∀ p m, (s.stage p).bind Stage.pending = some m → s.index m ≠ some i

/-- A slot is exchanged for a null pointer, or for something of the owner of a quiet index. -/
theorem Slotted.setSlot {s : State} (h : Slotted s) {a i : Nat} {value : Slot}
    (hvalue : value = .null ∨ (Explained s i value ∧ Quiet s i)) :
    Slotted (s.setSlot a i value) := by
  have hsame := SameOwners.setSlot s a i value
  have hstage : (s.setSlot a i value).stage = s.stage := by
    funext p
    unfold State.stage
    rw [hsame.calls]
  have hindex : (s.setSlot a i value).index = s.index := by
    funext m
    unfold State.index
    rw [hsame.modules]
  have htebList : (s.setSlot a i value).tebList = s.tebList := by
    unfold State.setSlot
    split <;> rfl
  have htemporary : (s.setSlot a i value).temporaryTebList = s.temporaryTebList := by
    unfold State.setSlot
    split <;> rfl
  have htebs : ∀ b teb', (s.setSlot a i value).tebs b = some teb' →
      ∃ teb, s.tebs b = some teb ∧ teb'.runDown = teb.runDown := by
    intro b teb' hteb'
    unfold State.setSlot at hteb'
    split at hteb'
    · exact ⟨teb', hteb', rfl⟩
    · next teb hteb =>
      simp only [State.setTeb, Function.update_apply] at hteb'
      split_ifs at hteb' with heq
      · obtain rfl := Option.some.inj hteb'
        exact ⟨teb, heq ▸ hteb, rfl⟩
      · exact ⟨teb', hteb', rfl⟩
  have hexists : ∀ b, s.tebs b ≠ none → (s.setSlot a i value).tebs b ≠ none := by
    intro b hb
    unfold State.setSlot
    split
    · exact hb
    · simp only [State.setTeb, Function.update_apply]
      split_ifs
      · exact Option.some_ne_none _
      · exact hb
  -- what was empty stays empty, unless the index is quiet
  have hnull : ∀ b j, s.slot b j = .null → (j = i → ¬ Quiet s i) →
      (s.setSlot a i value).slot b j = .null := by
    intro b j hslot hquiet
    rw [State.slot_setSlot]
    split_ifs with hat
    · rcases hvalue with hvalue | ⟨-, hq⟩
      · exact hvalue
      · exact absurd hq (hquiet hat.2.1)
    · exact hslot
  have hnonnull : ∀ b j, (s.setSlot a i value).slot b j ≠ .null → (j = i → ¬ Quiet s i) →
      s.slot b j ≠ .null := fun b j hslot hquiet hempty => hslot (hnull b j hempty hquiet)
  have hclears : ∀ p stage j, s.stage p = some stage → stage.clears = some j → j = i →
      ¬ Quiet s i := by
    rintro p stage j hp hj rfl hquiet
    exact hquiet.clears p (by rw [hp]; exact hj)
  constructor
  case nodup => rw [htebList]; exact h.nodup
  case listed => rw [htebList]; exact fun b hb => hexists b (h.listed b hb)
  case known =>
    rw [htebList, htemporary]
    intro b hb
    obtain ⟨teb', hteb'⟩ := Option.ne_none_iff_exists'.mp hb
    obtain ⟨teb, hteb, -⟩ := htebs b teb' hteb'
    exact h.known b (by rw [hteb]; exact Option.some_ne_none _)
  case rundown =>
    intro b teb' hteb'
    obtain ⟨teb, hteb, hrun⟩ := htebs b teb' hteb'
    rw [hrun]
    exact h.rundown b teb hteb
  case explained =>
    have hcarry : ∀ j slot, Explained s j slot → Explained (s.setSlot a i value) j slot := by
      intro j slot
      unfold Explained
      rw [hsame.modules, hsame.allocated, hstage]
      exact id
    intro b j
    rw [State.slot_setSlot]
    split_ifs with hat
    · rcases hvalue with rfl | ⟨hexplained, -⟩
      · trivial
      · exact hcarry j value (hat.2.1 ▸ hexplained)
    · exact hcarry j _ (h.explained b j)
  case sweeping =>
    rw [hstage, htebList]
    intro p j m initialTeb teb cleared hp
    obtain ⟨hinitial, hteb, hahead⟩ := h.sweeping p j m initialTeb teb cleared hp
    exact ⟨hinitial, hteb, fun b hb => hahead b (hnonnull b j hb (hclears p _ j hp rfl))⟩
  case clearing =>
    rw [hstage]
    exact fun p j m hp b => hnull b j (h.clearing p j m hp b) (hclears p _ j hp rfl)
  case pending =>
    rw [hstage, hindex]
    intro p m j hp hj b
    refine hnull b j (h.pending p m j hp hj b) ?_
    rintro rfl hquiet
    exact hquiet.pending p m hp hj
  case steady =>
    rw [hstage]
    exact h.steady

/-! ## Changing calls and modules -/

/-- What `Slotted` reads, but for modules, calls and clients. -/
structure SameTebs (s s' : State) : Prop where
  tebs : s'.tebs = s.tebs
  tebList : s'.tebList = s.tebList
  temporaryTebList : s'.temporaryTebList = s.temporaryTebList

theorem SameTebs.slot {s s' : State} (h : SameTebs s s') : s'.slot = s.slot := by
  funext a i
  unfold State.slot
  rw [h.tebs]

/-- Nothing that matters changes. -/
theorem Slotted.congr {s : State} (h : Slotted s) {s' : State} (htebs : SameTebs s s')
    (hmodules : s'.modules = s.modules) (hcalls : s'.calls = s.calls)
    (hallocated : ∀ i ∈ s.allocated, i ∈ s'.allocated ∨ ∃ p, (s.stage p).bind Stage.frees = some i) :
    Slotted s' := by
  have hslot := htebs.slot
  have hstage : s'.stage = s.stage := by
    funext p
    unfold State.stage
    rw [hcalls]
  have hindex : s'.index = s.index := by
    funext m
    unfold State.index
    rw [hmodules]
  constructor
  case nodup => exact htebs.tebList ▸ h.nodup
  case listed => exact htebs.tebList ▸ htebs.tebs ▸ h.listed
  case known => exact htebs.tebList ▸ htebs.temporaryTebList ▸ htebs.tebs ▸ h.known
  case rundown => exact htebs.tebs ▸ h.rundown
  case explained =>
    intro a i
    have hexplained := h.explained a i
    rw [hslot]
    generalize s.slot a i = value at hexplained
    cases value with
    | null => trivial
    | block m contents =>
      unfold Explained
      rw [hmodules]
      exact hexplained
    | data value =>
      unfold Explained
      rw [hstage]
      rcases hexplained with hclient | hcall
      · exact hallocated i hclient
      · exact .inr hcall
  case sweeping => rw [hstage, hslot, htebs.tebList]; exact h.sweeping
  case clearing => rw [hstage, hslot]; exact h.clearing
  case pending => rw [hstage, hslot, hindex]; exact h.pending
  case steady => rw [hstage]; exact h.steady

/-- A call begins, goes on or ends. -/
theorem Slotted.setCall {s : State} (h : Slotted s) {p : Nat} {call : Option Call}
    (hfrees : ∀ i, (s.stage p).bind Stage.frees = some i →
      (call.map Call.stage).bind Stage.frees = some i ∨ ∀ a, s.slot a i = .null)
    (hsweeping : ∀ i m initialTeb teb cleared,
      call.map Call.stage = some (.sweeping i m initialTeb teb cleared) →
      initialTeb ∈ s.tebList ∧ teb ∈ s.tebList ∧ ∀ a, s.slot a i ≠ .null →
        Ahead s.tebList initialTeb teb a ∧ (cleared = true → a ≠ teb))
    (hclearing : ∀ i m, call.map Call.stage = some (.clearing i m) → ∀ a, s.slot a i = .null)
    (hpending : ∀ m i, (call.map Call.stage).bind Stage.pending = some m → s.index m = some i →
      ∀ a, s.slot a i = .null)
    (hsteady : call.map Call.stage ≠ some .astray) : Slotted (s.setCall p call) := by
  have hstage := fun q => s.stage_setCall p q call
  constructor
  case nodup => exact h.nodup
  case listed => exact h.listed
  case known => exact h.known
  case rundown => exact h.rundown
  case explained =>
    intro a i
    show Explained (s.setCall p call) i (s.slot a i)
    have hexplained := h.explained a i
    cases hslot : s.slot a i with
    | null => trivial
    | block m contents =>
      rw [hslot] at hexplained
      exact hexplained
    | data value =>
      rw [hslot] at hexplained
      rcases hexplained with hclient | ⟨q, hq⟩
      · exact .inl hclient
      -- the call that was clearing the slot goes on with it, or the slot is clear
      · by_cases hqp : q = p
        · subst hqp
          rcases hfrees i hq with hnew | hnull
          · exact .inr ⟨q, by rw [hstage, if_pos rfl]; exact hnew⟩
          · rw [hnull a] at hslot
            cases hslot
        · exact .inr ⟨q, by rw [hstage, if_neg hqp]; exact hq⟩
  case sweeping =>
    intro q i m initialTeb teb cleared hq
    rw [hstage] at hq
    split_ifs at hq
    · exact hsweeping i m initialTeb teb cleared hq
    · exact h.sweeping q i m initialTeb teb cleared hq
  case clearing =>
    intro q i m hq
    rw [hstage] at hq
    split_ifs at hq
    · exact hclearing i m hq
    · exact h.clearing q i m hq
  case pending =>
    intro q m i hq
    rw [hstage] at hq
    split_ifs at hq
    · exact hpending m i hq
    · exact h.pending q m i hq
  case steady =>
    intro q hq
    rw [hstage] at hq
    split_ifs at hq
    · exact hsteady hq
    · exact h.steady q hq

/-- A call that gives up no index ends. -/
theorem Slotted.endCall {s : State} (h : Slotted s) {p : Nat}
    (hfrees : ∀ i, (s.stage p).bind Stage.frees = some i → ∀ a, s.slot a i = .null) :
    Slotted (s.setCall p none) :=
  h.setCall (fun i hi => .inr (hfrees i hi)) (fun _ _ _ _ _ h => nomatch h)
    (fun _ _ h => nomatch h) (fun _ _ h => nomatch h) (fun h => nomatch h)

/-- A call that gives up no index goes on to a stage that relies on nothing. -/
theorem Slotted.goto {s : State} (h : Slotted s) {p : Nat} {call : Call}
    (hcall : s.calls p = some call) {stage : Stage} (hfrees : call.stage.frees = none)
    (hclears : stage.clears = none)
    (hpending : ∀ m, stage.pending = some m → call.stage.pending = some m)
    (hsteady : stage ≠ .astray) : Slotted (s.goto p stage) := by
  have hstage := State.stage_eq hcall
  rw [State.goto_eq hcall]
  apply h.setCall
  · intro i hi
    rw [hstage] at hi
    exact absurd (hfrees.symm.trans hi) (Option.some_ne_none i).symm
  · intro i m initialTeb teb cleared heq
    have heq' : stage = _ := Option.some.inj heq
    rw [heq'] at hclears
    cases hclears
  · intro i m heq
    have heq' : stage = _ := Option.some.inj heq
    rw [heq'] at hclears
    cases hclears
  · intro m i hm
    exact h.pending p m i (by rw [hstage]; exact hpending m hm)
  · exact fun heq => hsteady (Option.some.inj heq)

/-- A module changes that has no block in a slot, or keeps its index and its block. -/
theorem Slotted.setModule {s : State} (h : Slotted s) (m : Nat) (md : Option Module)
    (hblock : ∀ a i contents, s.slot a i = .block m contents →
      ∃ md' ∈ md, md'.tlsIndex = some i ∧ md'.block m = .block m contents)
    (hpending : ∀ p i, (s.stage p).bind Stage.pending = some m →
      md.bind Module.tlsIndex = some i → ∀ a, s.slot a i = .null) :
    Slotted (s.setModule m md) := by
  constructor
  case nodup => exact h.nodup
  case listed => exact h.listed
  case known => exact h.known
  case rundown => exact h.rundown
  case explained =>
    intro a i
    show Explained (s.setModule m md) i (s.slot a i)
    have hexplained := h.explained a i
    cases hslot : s.slot a i with
    | null => trivial
    | block m' contents =>
      rw [hslot] at hexplained
      unfold Explained
      simp only [State.setModule, Function.update_apply]
      split_ifs with heq
      · subst heq
        exact hblock a i contents hslot
      · exact hexplained
    | data value =>
      rw [hslot] at hexplained
      exact hexplained
  case sweeping => exact h.sweeping
  case clearing => exact h.clearing
  case pending =>
    intro p m' i hp hi
    rw [State.index_setModule] at hi
    split_ifs at hi with heq
    · exact hpending p i (heq ▸ hp) hi
    · exact h.pending p m' i hp hi
  case steady => exact h.steady

/-! ## Steps -/

namespace Slotted

variable {s : State}

theorem createTeb (h : Slotted s) {thread a : Nat} (hfresh : s.tebs a = none) :
    Slotted (s.createTeb thread a) := by
  have hnew : a ∉ s.tebList := fun hmem => h.listed a hmem hfresh
  have hslot : (s.setTeb a ⟨thread, fun _ => .null, false⟩).slot = s.slot := by
    funext b i
    simp only [State.slot, State.setTeb, Function.update_apply]
    split_ifs with heq
    · rw [heq, hfresh]
    · rfl
  have htebs : ∀ b, (s.setTeb a ⟨thread, fun _ => .null, false⟩).tebs b =
      if b = a then some ⟨thread, fun _ => .null, false⟩ else s.tebs b := by
    intro b
    simp only [State.setTeb, Function.update_apply]
  have hexists : ∀ b, s.tebs b ≠ none →
      (s.setTeb a ⟨thread, fun _ => .null, false⟩).tebs b ≠ none := by
    intro b hb
    rw [htebs]
    split_ifs
    · exact Option.some_ne_none _
    · exact hb
  have hbefore : ∀ b, (s.setTeb a ⟨thread, fun _ => .null, false⟩).tebs b ≠ none →
      b = a ∨ s.tebs b ≠ none := by
    intro b hb
    rw [htebs] at hb
    split_ifs at hb with heq
    · exact .inl heq
    · exact .inr hb
  -- all slots of the new TEB are empty, as if it had always been there
  have hrundown : ∀ b teb, (s.setTeb a ⟨thread, fun _ => .null, false⟩).tebs b = some teb →
      teb.runDown = false := by
    intro b teb hteb
    rw [htebs] at hteb
    split_ifs at hteb
    · obtain rfl := Option.some.inj hteb
      rfl
    · exact h.rundown b teb hteb
  unfold State.createTeb
  dsimp only
  split_ifs
  · -- for the temporary list
    exact {
      nodup := h.nodup
      listed := fun b hb => hexists b (h.listed b hb)
      known := by
        intro b hb
        rcases hbefore b hb with rfl | hb
        · exact .inr List.mem_cons_self
        · exact (h.known b hb).imp_right (List.mem_cons_of_mem a)
      rundown := hrundown
      explained := fun b i => (congrFun (congrFun hslot b) i).symm ▸ h.explained b i
      sweeping := fun p i m initialTeb teb cleared hp => by
        obtain ⟨hinitial, hteb, hahead⟩ := h.sweeping p i m initialTeb teb cleared hp
        exact ⟨hinitial, hteb, fun b hb => hahead b ((congrFun (congrFun hslot b) i) ▸ hb)⟩
      clearing := fun p i m hp b =>
        (congrFun (congrFun hslot b) i).trans (h.clearing p i m hp b)
      pending := fun p m i hp hi b =>
        (congrFun (congrFun hslot b) i).trans (h.pending p m i hp hi b)
      steady := h.steady }
  · -- for the TEB list, in front of all others
    exact {
      nodup := List.nodup_cons.mpr ⟨hnew, h.nodup⟩
      listed := by
        intro b hb
        rcases List.mem_cons.mp hb with rfl | hb
        · show (s.setTeb b ⟨thread, fun _ => .null, false⟩).tebs b ≠ none
          rw [htebs, if_pos rfl]
          exact Option.some_ne_none _
        · exact hexists b (h.listed b hb)
      known := by
        intro b hb
        rcases hbefore b hb with rfl | hb
        · exact .inl List.mem_cons_self
        · exact (h.known b hb).imp_left (List.mem_cons_of_mem a)
      rundown := hrundown
      explained := fun b i => (congrFun (congrFun hslot b) i).symm ▸ h.explained b i
      sweeping := fun p i m initialTeb teb cleared hp => by
        obtain ⟨hinitial, hteb, hahead⟩ := h.sweeping p i m initialTeb teb cleared hp
        refine ⟨List.mem_cons_of_mem a hinitial, List.mem_cons_of_mem a hteb, fun b hb => ?_⟩
        -- the new TEB is before all that a sweep has still to visit
        obtain ⟨hb', hne⟩ := hahead b ((congrFun (congrFun hslot b) i) ▸ hb)
        exact ⟨hb'.cons hnew hteb hinitial, hne⟩
      clearing := fun p i m hp b =>
        (congrFun (congrFun hslot b) i).trans (h.clearing p i m hp b)
      pending := fun p m i hp hi b =>
        (congrFun (congrFun hslot b) i).trans (h.pending p m i hp hi b)
      steady := h.steady }

/-- The module a call holds is being unregistered by nobody. -/
theorem quiet_of_held (hown : Owned s) {m i : Nat} (hindex : s.index m = some i)
    (hlisted : m ∈ s.moduleList) (hpending : ∀ p, (s.stage p).bind Stage.pending ≠ some m) :
    Quiet s i where
  clears p hp := by
    obtain ⟨stage, hstage, hclears⟩ := Option.bind_eq_some_iff.mp hp
    rcases Stage.clears_cases hclears with hfrees | ⟨m', hreleases, hunregisters⟩
    · have hp' := Option.bind_eq_some_iff.mpr ⟨stage, hstage, hfrees⟩
      exact (hown.freed_bit p i hp').2.2 m hindex
    · have hindex' := hown.releases p m' i (Option.bind_eq_some_iff.mpr ⟨stage, hstage, hreleases⟩)
      obtain rfl := hown.module_unique m' m i hindex' hindex
      have hp' := Option.bind_eq_some_iff.mpr ⟨stage, hstage, hunregisters⟩
      exact (hown.leaving p m' hp').1 hlisted
  pending p m' hp hindex' := by
    obtain rfl := hown.module_unique m' m i hindex' hindex
    exact hpending p hp

/-- The block of a module is put in its slot, or nothing changes. -/
theorem initializeStaticTlsForTeb (h : Slotted s) (hown : Owned s) {m a : Nat} {poolFails : Bool}
    (hlisted : m ∈ s.moduleList) (hpending : ∀ p, (s.stage p).bind Stage.pending ≠ some m) :
    Slotted (s.initializeStaticTlsForTeb m a poolFails).2 := by
  unfold State.initializeStaticTlsForTeb
  cases hmd : s.modules m with
  | none => exact h
  | some md =>
    dsimp only
    cases hindex : md.tlsIndex with
    | none => exact h
    | some index =>
      dsimp only
      have hm : s.index m = some index := by
        unfold State.index
        rw [hmd]
        exact hindex
      split_ifs
      · exact h
      · exact h
      · apply h.setSlot
        by_cases hsize : md.tlsDataSize = 0
        · exact .inl (if_pos hsize)
        · refine .inr ⟨?_, quiet_of_held hown hm hlisted hpending⟩
          rw [Module.block, if_neg hsize]
          exact ⟨md, hmd, hindex, if_neg hsize⟩

theorem load (h : Slotted s) (hown : Owned s) {p thread m : Nat}
    {directory : Option TlsDirectory} (hp : s.calls p = none) (hm : s.modules m = none) :
    Slotted (s.load p thread m directory) := by
  have hnoBlock : ∀ a i contents, s.slot a i ≠ .block m contents := by
    intro a i contents hslot
    have hindex := h.index_of_block hslot
    unfold State.index at hindex
    rw [hm] at hindex
    cases hindex
  have hstage : s.stage p = none := by
    unfold State.stage
    rw [hp]
    rfl
  have hnew : ∀ md, Slotted (s.setModule m (some md)) := by
    intro md
    apply h.setModule
    · exact fun a i contents hslot => absurd hslot (hnoBlock a i contents)
    · exact fun q i hq => absurd hq (hown.noCall hm q).2.2
  unfold State.load
  cases directory with
  | none => exact (hnew _).congr ⟨rfl, rfl, rfl⟩ rfl rfl (fun i hi => .inl hi)
  | some directory =>
    dsimp only
    cases directory.sizes with
    | none => exact h
    | some sizes =>
      dsimp only
      cases hfind : findClearBit s.tlsBitmap with
      | none => exact h
      | some index =>
        have hun := hown.unowned (findClearBit_some hfind).2
        have hmodule : Slotted (((s.setBit index true).setModule m
            (some ⟨some index, directory.rawData.take sizes.1, sizes.2, false⟩)).setModuleList
              (m :: s.moduleList)) :=
          (hnew _).congr ⟨rfl, rfl, rfl⟩ rfl rfl (fun i hi => .inl hi)
        apply hmodule.setCall
        · intro i hi
          have hi' : (s.stage p).bind Stage.frees = some i := hi
          rw [hstage] at hi'
          cases hi'
        · exact fun i m' initialTeb teb cleared heq => nomatch heq
        · exact fun i m' heq => nomatch heq
        · -- nothing is held at a new index
          intro m' i hm' hi a
          obtain rfl := Option.some.inj hm'
          have hi' : (s.setModule m _).index m = some i := hi
          rw [State.index_setModule, if_pos rfl] at hi'
          obtain rfl := Option.some.inj hi'
          exact h.null_of_unowned hun a
        · exact fun heq => nomatch heq

theorem setSlot_setCall (p a i : Nat) (call : Option Call) (value : Slot) :
    (s.setSlot a i value).setCall p call = (s.setCall p call).setSlot a i value := by
  unfold State.setSlot State.setCall
  cases s.tebs a <;> rfl

/-- Ending a call and putting a block in a slot are independent of each other. -/
theorem initializeStaticTlsForTeb_setCall (p m a : Nat) (poolFails : Bool) :
    (s.initializeStaticTlsForTeb m a poolFails).2.setCall p none =
      ((s.setCall p none).initializeStaticTlsForTeb m a poolFails).2 := by
  have hmodules : (s.setCall p none).modules = s.modules := rfl
  have hslot : (s.setCall p none).slot = s.slot := rfl
  unfold State.initializeStaticTlsForTeb
  rw [hmodules, hslot]
  cases s.modules m with
  | none => rfl
  | some md =>
    dsimp only
    cases md.tlsIndex with
    | none => rfl
    | some index =>
      dsimp only
      split_ifs
      · rfl
      · rfl
      · exact setSlot_setCall p a index none _

theorem initializeModuleTls (h : Slotted s) (hown : Owned s) {p m a thread : Nat}
    {poolFails : Bool} (hcall : s.calls p = some ⟨thread, .loading m⟩) :
    Slotted (s.initializeModuleTls p m a poolFails) := by
  have hstage := State.stage_eq hcall
  have hlisted : m ∈ s.moduleList := hown.held p _ hstage m (List.mem_singleton_self _)
  have hsame := SameOwners.initializeStaticTlsForTeb s m a poolFails
  have hdone : Slotted ((s.initializeStaticTlsForTeb m a poolFails).2.setCall p none) := by
    rw [initializeStaticTlsForTeb_setCall]
    -- a call that loads frees no index, so it may as well be over
    have hended : Slotted (s.setCall p none) := by
      apply h.endCall
      intro i hi
      rw [hstage] at hi
      cases hi
    apply hended.initializeStaticTlsForTeb (hown.endCall p) hlisted
    intro q hq
    rw [State.stage_setCall] at hq
    split_ifs at hq with hqp
    · cases hq
    · exact hqp (hown.pending_unique q p m hq (by rw [hstage]; rfl))
  unfold State.initializeModuleTls
  generalize hresult : s.initializeStaticTlsForTeb m a poolFails = result at hdone hsame
  obtain ⟨initialized, s'⟩ := result
  dsimp only at hdone hsame ⊢
  split_ifs with hinitialized
  · -- setting the flag changes neither the index nor the block
    apply hdone.setModule m
      ((s'.modules m).map fun md => { md with processAttached := true })
    · intro b i contents hslot
      have hexplained := hdone.explained b i
      rw [hslot] at hexplained
      obtain ⟨md, hmd, hindex, hblock⟩ := hexplained
      have hmd' : s'.modules m = some md := hmd
      refine ⟨{ md with processAttached := true }, ?_, hindex, hblock⟩
      rw [hmd']
      rfl
    · intro q i hq
      have hq' : ((s.setCall p none).stage q).bind Stage.pending = some m := by
        unfold State.stage State.setCall at hq ⊢
        dsimp only at hq ⊢
        rwa [hsame.calls] at hq
      rw [State.stage_setCall] at hq'
      split_ifs at hq' with hqp
      · cases hq'
      · exact absurd (hown.pending_unique q p m hq' (by rw [hstage]; rfl)) hqp
  · -- no block could be allocated, so no slot has changed
    have hsameState : s' = s := by
      unfold State.initializeStaticTlsForTeb at hresult
      split at hresult
      · exact absurd (congrArg Prod.fst hresult).symm hinitialized
      · split at hresult
        · exact absurd (congrArg Prod.fst hresult).symm hinitialized
        · split_ifs at hresult
          · exact absurd (congrArg Prod.fst hresult).symm hinitialized
          · exact (congrArg Prod.snd hresult).symm
          · exact absurd (congrArg Prod.fst hresult).symm hinitialized
    rw [hsameState]
    exact h.goto hcall rfl rfl (fun _ h => h) (fun heq => nomatch heq)

/-- A module is freed that has a block in no slot. -/
theorem freeModule (h : Slotted s) {m : Nat}
    (hnull : ∀ i, s.index m = some i → ∀ a, s.slot a i = .null) : Slotted (s.setModule m none) := by
  apply h.setModule
  · intro a i contents hslot
    have hempty := hnull i (h.index_of_block hslot) a
    rw [hslot] at hempty
    cases hempty
  · exact fun p i _ hi => nomatch hi

theorem fail (h : Slotted s) {p m thread : Nat}
    (hcall : s.calls p = some ⟨thread, .failing m⟩) : Slotted (s.fail p m) := by
  have hstage := State.stage_eq hcall
  have hnull : ∀ i, s.index m = some i → ∀ a, s.slot a i = .null :=
    fun i hi => h.pending p m i (by rw [hstage]; rfl) hi
  unfold State.fail
  cases hmd : s.modules m with
  | none => exact h
  | some md =>
    dsimp only
    have hreset : Slotted (s.setModule m
        (some { md with tlsIndex := none, tlsRawData := [], tlsDataSize := 0 })) := by
      apply h.setModule
      · intro a i contents hslot
        have hempty := hnull i (h.index_of_block hslot) a
        rw [hslot] at hempty
        cases hempty
      · exact fun q i _ hi => nomatch hi
    have hend : ∀ s' : State, Slotted s' → s'.stage p = s.stage p →
        Slotted (s'.setCall p none) := by
      intro s' hs' hsame
      apply hs'.endCall
      intro i hi
      rw [hsame, hstage] at hi
      cases hi
    cases md.tlsIndex with
    | none => exact hend _ hreset rfl
    | some index =>
      have hcleared : Slotted ((s.setBit index false).setModule m
          (some { md with tlsIndex := none, tlsRawData := [], tlsDataSize := 0 })) :=
        hreset.congr ⟨rfl, rfl, rfl⟩ rfl rfl (fun i hi => .inl hi)
      exact hend _ hcleared rfl

theorem notify (h : Slotted s) {p thread : Nat} {reason : Reason} (hp : s.calls p = none) :
    Slotted (s.setCall p (some ⟨thread, .notifying reason s.snapshot []⟩)) := by
  apply h.setCall
  · intro i hi
    unfold State.stage at hi
    rw [hp] at hi
    cases hi
  · exact fun i m initialTeb teb cleared heq => nomatch heq
  · exact fun i m heq => nomatch heq
  · exact fun m i hm => nomatch hm
  · exact fun heq => nomatch heq

theorem visit (h : Slotted s) (hown : Owned s) {p a : Nat} {poolFails : Bool} {thread : Nat}
    {reason : Reason} {todo done : List Nat}
    (hcall : s.calls p = some ⟨thread, .notifying reason todo done⟩) :
    Slotted (s.visit p a poolFails) := by
  have hstage := State.stage_eq hcall
  unfold State.visit
  rw [hcall]
  cases todo with
  | nil => cases reason <;> exact h
  | cons m todo =>
    have hlisted : m ∈ s.moduleList := hown.held p _ hstage m List.mem_cons_self
    -- a module that is notified is attached, and so its own load is over
    have hpending : ∀ q, (s.stage q).bind Stage.pending ≠ some m := by
      intro q hq
      obtain ⟨md, hmd⟩ := Option.ne_none_iff_exists'.mp (hown.listed m hlisted)
      have hattached := hown.notified p _ hstage m List.mem_cons_self md hmd
      rw [hown.pending q m md hq hmd] at hattached
      cases hattached
    cases reason with
    | threadAttach =>
      have hsame := SameOwners.initializeStaticTlsForTeb s m a poolFails
      have hcall' : (s.initializeStaticTlsForTeb m a poolFails).2.calls p =
          some ⟨thread, .notifying .threadAttach (m :: todo) done⟩ := hsame.calls ▸ hcall
      exact (h.initializeStaticTlsForTeb hown hlisted hpending).goto hcall' rfl rfl
        (fun _ h => nomatch h) (fun heq => nomatch heq)
    | threadDetach =>
      have hsame := SameOwners.freeStaticTlsForTeb s m a
      have hcall' : (s.freeStaticTlsForTeb m a).calls p =
          some ⟨thread, .notifying .threadDetach (m :: todo) done⟩ := hsame.calls ▸ hcall
      have hfreed : Slotted (s.freeStaticTlsForTeb m a) := by
        unfold State.freeStaticTlsForTeb
        split
        · exact h
        · split
          · exact h
          · exact h.setSlot (.inl rfl)
      exact hfreed.goto hcall' rfl rfl (fun _ h => nomatch h) (fun heq => nomatch heq)

theorem release (h : Slotted s) {p thread : Nat} {reason : Reason} {done : List Nat}
    (hcall : s.calls p = some ⟨thread, .notifying reason [] done⟩) : Slotted (s.release p) := by
  unfold State.release
  rw [hcall]
  cases done with
  | nil =>
    apply h.endCall
    intro i hi
    rw [State.stage_eq hcall] at hi
    cases hi
  | cons m done => exact h.goto hcall rfl rfl (fun _ h => nomatch h) (fun heq => nomatch heq)

theorem unload (h : Slotted s) {p thread m : Nat} (hp : s.calls p = none) :
    Slotted (s.unload p thread m) := by
  have hremoved : Slotted (s.setModuleList (s.moduleList.filter (· ≠ m))) :=
    h.congr ⟨rfl, rfl, rfl⟩ rfl rfl (fun i hi => .inl hi)
  apply hremoved.setCall
  · intro i hi
    have hi' : (s.stage p).bind Stage.frees = some i := hi
    unfold State.stage at hi'
    rw [hp] at hi'
    cases hi'
  · exact fun i m initialTeb teb cleared heq => nomatch heq
  · exact fun i m heq => nomatch heq
  · exact fun m i hm => nomatch hm
  · exact fun heq => nomatch heq

/-- At its beginning a sweep has everything before it. -/
theorem ahead_of_sweepable (h : Slotted s) {a index : Nat} (hsweep : s.Sweepable a index) {b : Nat}
    (hb : s.slot b index ≠ .null) : Ahead s.tebList a a b := by
  rcases h.known b (State.exists_of_slot hb) with hlisted | htemporary
  · exact ahead_start hlisted
  · exact absurd (hsweep.temporary b htemporary) hb

theorem startSweep (h : Slotted s) {p m a thread : Nat}
    (hcall : s.calls p = some ⟨thread, .unregistering m⟩)
    (hguard : ∀ index, s.index m = some index → s.Sweepable a index) :
    Slotted (s.startSweep p m a) := by
  have hstage := State.stage_eq hcall
  unfold State.startSweep
  cases hindex : (s.modules m).bind (·.tlsIndex) with
  | none =>
    have hfreed : Slotted (s.setModule m none) := by
      apply h.freeModule
      intro i hi
      exact absurd (hindex.symm.trans hi) (Option.some_ne_none i).symm
    apply hfreed.endCall
    intro i hi
    have hi' : (s.stage p).bind Stage.frees = some i := hi
    rw [hstage] at hi'
    cases hi'
  | some index =>
    have hsweep := hguard index hindex
    obtain ⟨teb, hteb⟩ := Option.ne_none_iff_exists'.mp (h.listed a hsweep.current)
    have hrunning : (s.tebs a).any (·.runDown) = false := by
      rw [hteb]
      exact h.rundown a teb hteb
    simp only [hrunning, Bool.false_eq_true, if_false]
    rw [State.goto_eq hcall]
    apply h.setCall
    · intro i hi
      rw [hstage] at hi
      cases hi
    · intro i m' initialTeb teb' cleared heq
      cases heq
      exact ⟨hsweep.current, hsweep.current, fun b hb =>
        ⟨h.ahead_of_sweepable hsweep hb, fun hfalse => nomatch hfalse⟩⟩
    · exact fun i m' heq => nomatch heq
    · exact fun m' i hm' => nomatch hm'
    · exact fun heq => nomatch heq

/-- A call that sweeps goes on to another stage of it. -/
theorem sweep (h : Slotted s) {p thread index : Nat} {m : Option Nat} {initialTeb teb : Nat}
    {cleared : Bool} (hcall : s.calls p = some ⟨thread, .sweeping index m initialTeb teb cleared⟩)
    {stage : Stage}
    (hstage : (∃ teb' cleared', stage = .sweeping index m initialTeb teb' cleared' ∧
        teb' ∈ s.tebList ∧ ∀ a, s.slot a index ≠ .null →
          Ahead s.tebList initialTeb teb' a ∧ (cleared' = true → a ≠ teb')) ∨
      (stage = .clearing index m ∧ ∀ a, s.slot a index = .null)) : Slotted (s.goto p stage) := by
  have hp := State.stage_eq hcall
  obtain ⟨hinitial, -, -⟩ := h.sweeping p index m initialTeb teb cleared hp
  rw [State.goto_eq hcall]
  apply h.setCall
  · intro i hi
    rw [hp] at hi
    left
    rcases hstage with ⟨teb', cleared', rfl, -⟩ | ⟨rfl, -⟩
    · cases m with
      | none => exact hi
      | some m => cases hi
    · cases m with
      | none => exact hi
      | some m => cases hi
  · intro i m' initialTeb' teb'' cleared'' heq
    rcases hstage with ⟨teb', cleared', rfl, hteb', hahead⟩ | ⟨rfl, -⟩
    · cases heq
      exact ⟨hinitial, hteb', hahead⟩
    · cases heq
  · intro i m' heq
    rcases hstage with ⟨teb', cleared', rfl, -, -⟩ | ⟨rfl, hnull⟩
    · cases heq
    · cases heq
      exact hnull
  · intro m' i hm'
    rcases hstage with ⟨teb', cleared', rfl, -, -⟩ | ⟨rfl, -⟩ <;> cases hm'
  · intro heq
    rcases hstage with ⟨teb', cleared', rfl, -, -⟩ | ⟨rfl, -⟩ <;> cases heq

theorem clear (h : Slotted s) {p thread index : Nat} {m : Option Nat} {initialTeb teb : Nat}
    (hcall : s.calls p = some ⟨thread, .sweeping index m initialTeb teb false⟩) :
    Slotted (s.clear p) := by
  have hsame := SameOwners.setSlot s teb index .null
  have hcall' : (s.setSlot teb index .null).calls p =
      some ⟨thread, .sweeping index m initialTeb teb false⟩ := hsame.calls ▸ hcall
  have hcleared : Slotted (s.setSlot teb index .null) := h.setSlot (.inl rfl)
  unfold State.clear
  rw [hcall]
  apply hcleared.sweep hcall'
  obtain ⟨-, hteb, hahead⟩ :=
    hcleared.sweeping p index m initialTeb teb false (State.stage_eq hcall')
  refine .inl ⟨teb, true, rfl, hteb, fun b hb => ⟨(hahead b hb).1, ?_⟩⟩
  -- the slot that has just been exchanged holds nothing
  rintro - rfl
  rw [State.slot_setSlot] at hb
  split_ifs at hb with hexists
  · exact hb rfl
  · have hnone : s.tebs b = none := by
      by_contra hsome
      exact hexists ⟨rfl, rfl, hsome⟩
    exact State.exists_of_slot hb hnone

theorem hop (h : Slotted s) {p thread index : Nat} {m : Option Nat} {initialTeb teb : Nat}
    (hcall : s.calls p = some ⟨thread, .sweeping index m initialTeb teb true⟩) :
    Slotted (s.hop p) := by
  obtain ⟨hinitial, hteb, hahead⟩ :=
    h.sweeping p index m initialTeb teb true (State.stage_eq hcall)
  have hnext : CircularSweep.next s.tebList teb ∈ s.tebList := next_mem hteb
  obtain ⟨teb', hteb'⟩ := Option.ne_none_iff_exists'.mp (h.listed _ hnext)
  have hrunning : (s.tebs (CircularSweep.next s.tebList teb)).any (·.runDown) = false := by
    rw [hteb']
    exact h.rundown _ teb' hteb'
  unfold State.hop
  rw [hcall]
  simp only [hteb, if_true, hrunning, Bool.false_eq_true, if_false]
  split_ifs with hlast
  · -- back at the beginning, nothing is left
    apply h.sweep hcall
    refine .inr ⟨rfl, fun b => ?_⟩
    by_contra hb
    obtain ⟨hb', hne⟩ := hahead b hb
    exact hne rfl (hb'.last h.nodup hteb hlast)
  · apply h.sweep hcall
    refine .inl ⟨_, false, rfl, hnext, fun b hb => ?_⟩
    obtain ⟨hb', hne⟩ := hahead b hb
    exact ⟨hb'.next h.nodup hteb hinitial hlast (hne rfl), fun hfalse => nomatch hfalse⟩

theorem clearBits (h : Slotted s) (hown : Owned s) {p thread index : Nat} {m : Option Nat}
    (hcall : s.calls p = some ⟨thread, .clearing index m⟩) : Slotted (s.clearBits p) := by
  have hstage := State.stage_eq hcall
  have hnull := h.clearing p index m hstage
  have hset : Slotted (s.setBit index false) :=
    h.congr ⟨rfl, rfl, rfl⟩ rfl rfl (fun i hi => .inl hi)
  unfold State.clearBits
  rw [hcall]
  cases m with
  | some m =>
    have hfreed : Slotted ((s.setBit index false).setModule m none) := by
      apply hset.freeModule
      intro i hi a
      have hindex : s.index m = some index := hown.releases p m index (by rw [hstage]; rfl)
      obtain rfl := Option.some.inj (hindex.symm.trans hi)
      exact hnull a
    apply hfreed.endCall
    intro i hi
    have hi' : (s.stage p).bind Stage.frees = some i := hi
    rw [hstage] at hi'
    cases hi'
  | none =>
    have hunlocked : Slotted { s.setBit index false with pebLock := none } :=
      hset.congr ⟨rfl, rfl, rfl⟩ rfl rfl (fun i hi => .inl hi)
    apply hunlocked.endCall
    intro i hi
    have hi' : (s.stage p).bind Stage.frees = some i := hi
    rw [hstage] at hi'
    obtain rfl := Option.some.inj hi'
    exact hnull

theorem tlsAlloc (h : Slotted s) (a : Nat) : Slotted (s.tlsAlloc a) := by
  unfold State.tlsAlloc
  cases findClearBit s.tlsBitmap with
  | none => exact h
  | some index =>
    have hset : Slotted (s.setBit index true) :=
      h.congr ⟨rfl, rfl, rfl⟩ rfl rfl (fun i hi => .inl hi)
    have hslot : Slotted ((s.setBit index true).setSlot a index .null) := hset.setSlot (.inl rfl)
    have hkept : ∀ i ∈ ((s.setBit index true).setSlot a index .null).allocated,
        i ∈ index :: s.allocated := by
      intro i hi
      rw [State.setSlot_allocated] at hi
      exact List.mem_cons_of_mem index hi
    have hgiven : Slotted { (s.setBit index true).setSlot a index .null with
        allocated := index :: s.allocated } :=
      hslot.congr ⟨rfl, rfl, rfl⟩ rfl rfl (fun i hi => .inl (hkept i hi))
    exact hgiven

/-- The index of a client is quiet. -/
theorem quiet_of_client (hown : Owned s) {i : Nat} (hi : i ∈ s.allocated) : Quiet s i where
  clears p hp := by
    obtain ⟨stage, hstage, hclears⟩ := Option.bind_eq_some_iff.mp hp
    rcases Stage.clears_cases hclears with hfrees | ⟨m, hreleases, -⟩
    · exact (hown.freed_bit p i (Option.bind_eq_some_iff.mpr ⟨stage, hstage, hfrees⟩)).2.1 hi
    · have hindex := hown.releases p m i (Option.bind_eq_some_iff.mpr ⟨stage, hstage, hreleases⟩)
      exact (hown.module_bit m i hindex).2 hi
  pending p m _ hindex := (hown.module_bit m i hindex).2 hi

theorem tlsSetValue (h : Slotted s) (hown : Owned s) {a index value : Nat}
    (hi : index ∈ s.allocated) : Slotted (s.tlsSetValue a index value) := by
  unfold State.tlsSetValue
  split_ifs
  · exact h
  · exact h.setSlot (.inl rfl)
  · exact h.setSlot (.inr ⟨.inl hi, quiet_of_client hown hi⟩)

theorem tlsFree (h : Slotted s) {p thread a index : Nat} (hp : s.calls p = none)
    (hsweep : s.Sweepable a index) : Slotted (s.tlsFree p thread a index) := by
  have hstage : s.stage p = none := by
    unfold State.stage
    rw [hp]
    rfl
  unfold State.tlsFree
  split_ifs with hsize hbit hrun
  · exact h
  · exact h
  · have hcalled : Slotted (s.setCall p (some ⟨thread, .sweeping index none a a false⟩)) := by
      apply h.setCall
      · intro i hi
        rw [hstage] at hi
        cases hi
      · intro i m initialTeb teb cleared heq
        cases heq
        exact ⟨hsweep.current, hsweep.current, fun b hb =>
          ⟨h.ahead_of_sweepable hsweep hb, fun hfalse => nomatch hfalse⟩⟩
      · exact fun i m heq => nomatch heq
      · exact fun m i hm => nomatch hm
      · exact fun heq => nomatch heq
    -- what was the client's is now the call's
    have hkept : ∀ i ∈ s.allocated, i ∈ s.allocated.erase index ∨
        ∃ q, ((s.setCall p (some ⟨thread, .sweeping index none a a false⟩)).stage q).bind
          Stage.frees = some i := by
      intro i hi
      by_cases heq : i = index
      · subst heq
        refine .inr ⟨p, ?_⟩
        rw [State.stage_setCall, if_pos rfl]
        rfl
      · exact .inl ((List.mem_erase_of_ne heq).mpr hi)
    have hgiven : Slotted
        ({ s with allocated := s.allocated.erase index, pebLock := some p }.setCall p
          (some ⟨thread, .sweeping index none a a false⟩)) :=
      hcalled.congr ⟨rfl, rfl, rfl⟩ rfl rfl hkept
    exact hgiven
  · exact h

end Slotted

/-- A step that keeps to the condition keeps the invariant. -/
theorem slotted_step (s : State) (a : Action) (hown : Owned s) (h : Slotted s) (hen : Enabled s a)
    (hguard : OnTebList s a) : Slotted (next s a) := by
  cases a with
  | createTeb thread a => exact h.createTeb hen.1
  | beginShutdown =>
    have hsame : SameTebs s { s with shutdownInProgress := true } := ⟨rfl, rfl, rfl⟩
    exact h.congr hsame rfl rfl (fun i hi => .inl hi)
  | load p thread m directory =>
    have hload : Slotted (s.load p thread m directory) := h.load hown hen.1 hen.2.1
    exact hload
  | initializeModuleTls p m a poolFails =>
    obtain ⟨thread, hcall, -⟩ := hen
    exact h.initializeModuleTls hown hcall
  | fail p m =>
    obtain ⟨⟨thread, hcall⟩, -⟩ := hen
    exact h.fail hcall
  | notify p thread reason => exact h.notify hen
  | visit p a poolFails =>
    obtain ⟨reason, todo, done, thread, hcall, -⟩ := hen
    exact h.visit hown hcall
  | release p =>
    obtain ⟨thread, reason, done, hcall⟩ := hen
    exact h.release hcall
  | unload p thread m => exact h.unload hen.1
  | startSweep p m a =>
    obtain ⟨thread, hcall, -⟩ := hen
    exact h.startSweep hcall hguard
  | clear p =>
    obtain ⟨thread, index, m, initialTeb, teb, hcall⟩ := hen
    exact h.clear hcall
  | hop p =>
    obtain ⟨thread, index, m, initialTeb, teb, hcall⟩ := hen
    exact h.hop hcall
  | clearBits p =>
    obtain ⟨thread, index, m, hcall, -⟩ := hen
    exact h.clearBits hown hcall
  | tlsAlloc thread a => exact h.tlsAlloc a
  | tlsSetValue thread a index value => exact h.tlsSetValue hown hen.2
  | tlsFree p thread a index => exact h.tlsFree hen.1 hguard

theorem slotted_initialState : Slotted initialState where
  nodup := List.nodup_nil
  listed _ h := nomatch h
  known _ h := absurd rfl h
  rundown _ _ h := nomatch h
  explained _ _ := trivial
  sweeping _ _ _ _ _ _ h := nomatch h
  clearing _ _ _ _ _ := rfl
  pending _ _ _ _ _ _ := rfl
  steady _ h := nomatch h

theorem slotted_of_reachable :
    ∀ s, threadLocalStorage.Reachable OnTebList s → Slotted s := by
  refine System.Reachable.invariantUnder (J := Owned) owned_of_reachable ?_ ?_
  · rintro s rfl
    exact slotted_initialState
  · exact slotted_step

/-- What the two invariants come to. -/
theorem Slotted.sound {s : State} (h : Slotted s) (hown : Owned s) : Sound s where
  clients := hown.client_unique
  modules := hown.module_unique
  shared m i hm := (hown.module_bit m i hm).2
  slots m md i hmd hindex a teb hteb := by
    have hm : s.index m = some i := by
      unfold State.index
      rw [hmd]
      exact hindex
    have hexplained := h.explained a i
    rw [State.slot_of_teb hteb] at hexplained
    cases hslot : teb.tlsSlots i with
    | null => exact .inl rfl
    | block m' contents =>
      right
      rw [hslot] at hexplained
      obtain ⟨md', hmd', hindex', hblock⟩ := hexplained
      have hm' : s.index m' = some i := by
        unfold State.index
        rw [hmd']
        exact hindex'
      obtain rfl := hown.module_unique m' m i hm' hm
      obtain rfl := Option.some.inj (hmd.symm.trans hmd')
      exact hblock.symm
    | data value =>
      rw [hslot] at hexplained
      rcases hexplained with hclient | ⟨p, hp⟩
      · exact absurd hclient (hown.module_bit m i hm).2
      · exact absurd hm ((hown.freed_bit p i hp).2.2 m)
  released a teb i m contents hteb hslot := by
    rw [← State.slot_of_teb hteb] at hslot
    exact h.index_of_block hslot
  steady := h.steady

/-- In a run whose sweeps begin on the TEB list, every state is sound. -/
theorem tls_lifecycle {s : State} (hreach : threadLocalStorage.Reachable OnTebList s) : Sound s :=
  (slotted_of_reachable s hreach).sound (owned_of_reachable s hreach)

/-! ## Runs -/

/-- Two bytes of raw data and two bytes of zeros. -/
def directory : TlsDirectory where
  startAddressOfRawData := 0x1000
  endAddressOfRawData := 0x1002
  addressOfIndex := 0x2000
  sizeOfZeroFill := 2
  rawData := [1, 2]
  rawData_length _ := rfl

/-- A module is loaded and unloaded by a thread whose TEB is listed. -/
def lifecycleRun : List Action :=
  [.createTeb 1 100, .load 1 1 7 (some directory), .initializeModuleTls 1 7 100 false,
    .unload 2 1 7, .startSweep 2 7 100, .clear 2, .hop 2, .clearBits 2]

theorem lifecycleRun_admits : threadLocalStorage.Admits OnTebList initialState lifecycleRun := by
  refine ⟨⟨⟨rfl, fun _ h => nomatch h⟩, trivial⟩, ⟨⟨rfl, rfl, rfl⟩, trivial⟩,
    ⟨⟨1, rfl, ⟨_, rfl, rfl⟩, .inl List.mem_cons_self⟩, trivial⟩,
    ⟨⟨rfl, List.mem_cons_self, ?_⟩, trivial⟩,
    ⟨⟨1, rfl, ⟨_, rfl, rfl⟩, .inl List.mem_cons_self⟩, ?_⟩,
    ⟨⟨1, 0, some 7, 100, 100, rfl⟩, trivial⟩, ⟨⟨1, 0, some 7, 100, 100, rfl⟩, trivial⟩,
    ⟨⟨1, 0, some 7, rfl, .inr rfl⟩, trivial⟩, trivial⟩
  · -- the call that loaded the module is over
    rintro ⟨p, call, hcall, -⟩
    rcases p with _ | _ | p <;> cases hcall
  · exact fun _ _ => ⟨List.mem_cons_self, fun _ h => nomatch h⟩

theorem lifecycleRun_sound :
    Sound (threadLocalStorage.exec initialState lifecycleRun) :=
  tls_lifecycle (System.reachable_exec initialState lifecycleRun rfl lifecycleRun_admits)

/-- While LDK shuts down, a thread without a TEB loads a module, and another thread unloads it. -/
def temporaryRun : List Action :=
  [.createTeb 2 200, .beginShutdown, .createTeb 1 100, .load 1 1 7 (some directory),
    .initializeModuleTls 1 7 100 false, .unload 2 2 7, .startSweep 2 7 200, .clear 2, .hop 2,
    .clearBits 2]

/-- The thread without a TEB unloads the module itself. -/
def astrayRun : List Action :=
  [.beginShutdown, .createTeb 1 100, .load 1 1 7 (some directory),
    .initializeModuleTls 1 7 100 false, .unload 2 1 7, .startSweep 2 7 100, .clear 2, .hop 2]

theorem temporaryRun_admits : threadLocalStorage.Admits Always initialState temporaryRun := by
  refine ⟨⟨⟨rfl, fun _ h => nomatch h⟩, trivial⟩, ⟨trivial, trivial⟩, ⟨⟨rfl, ?_⟩, trivial⟩,
    ⟨⟨rfl, rfl, rfl⟩, trivial⟩,
    ⟨⟨1, rfl, ⟨_, rfl, rfl⟩, .inr List.mem_cons_self⟩, trivial⟩,
    ⟨⟨rfl, List.mem_cons_self, ?_⟩, trivial⟩,
    ⟨⟨2, rfl, ⟨_, rfl, rfl⟩, .inl List.mem_cons_self⟩, trivial⟩,
    ⟨⟨2, 0, some 7, 200, 200, rfl⟩, trivial⟩, ⟨⟨2, 0, some 7, 200, 200, rfl⟩, trivial⟩,
    ⟨⟨2, 0, some 7, rfl, .inr rfl⟩, trivial⟩, trivial⟩
  · intro b hb teb hteb
    obtain rfl := List.mem_singleton.mp hb
    obtain rfl := Option.some.inj hteb
    decide
  · rintro ⟨p, call, hcall, -⟩
    rcases p with _ | _ | p <;> cases hcall

theorem astrayRun_admits : threadLocalStorage.Admits Always initialState astrayRun := by
  refine ⟨⟨trivial, trivial⟩, ⟨⟨rfl, fun _ h => nomatch h⟩, trivial⟩, ⟨⟨rfl, rfl, rfl⟩, trivial⟩,
    ⟨⟨1, rfl, ⟨_, rfl, rfl⟩, .inr List.mem_cons_self⟩, trivial⟩,
    ⟨⟨rfl, List.mem_cons_self, ?_⟩, trivial⟩,
    ⟨⟨1, rfl, ⟨_, rfl, rfl⟩, .inr List.mem_cons_self⟩, trivial⟩,
    ⟨⟨1, 0, some 7, 100, 100, rfl⟩, trivial⟩, ⟨⟨1, 0, some 7, 100, 100, rfl⟩, trivial⟩, trivial⟩
  rintro ⟨p, call, hcall, -⟩
  rcases p with _ | _ | p <;> cases hcall

/-- Not every run is sound: a TEB on the temporary list keeps the block of a module that is gone,
and a sweep that begins there goes astray. -/
theorem temporary_teb_is_not_swept :
    (¬ ∀ s, threadLocalStorage.Reachable Always s → Sound s) ∧
      (∃ s, threadLocalStorage.Reachable Always s ∧ s.slot 100 0 = .block 7 [1, 2, 0, 0] ∧
        s.index 7 = none) ∧
      ∃ s, threadLocalStorage.Reachable Always s ∧ s.stage 2 = some .astray := by
  have htemporary := System.reachable_exec initialState temporaryRun rfl temporaryRun_admits
  have hastray := System.reachable_exec initialState astrayRun rfl astrayRun_admits
  refine ⟨?_, ⟨_, htemporary, rfl, rfl⟩, ⟨_, hastray, rfl⟩⟩
  intro hall
  have hindex : none = some 0 := (hall _ htemporary).released 100 _ 0 7 [1, 2, 0, 0] rfl rfl
  cases hindex

end Ldk.Tls
