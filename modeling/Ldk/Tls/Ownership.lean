import Ldk.Tls.State

/-!
# Who has an index

Every index whose bit is set belongs to one module, to one client, or to the call that is giving it
up, and a module that is being unregistered is out of reach of everybody else.

- `Owned`: the invariant on the bitmap, the modules and the calls. Slots do not matter for it.
- `owned_of_reachable`: it holds in every run.
-/

namespace Ldk.Tls

open TransitionSystem

/-! ## Reading a state -/

/-- The index that a call gives up for a client. -/
def Stage.frees : Stage → Option Nat
  | .sweeping index none _ _ _ | .clearing index none => some index
  | _ => none

/-- The module that a call unregisters. -/
def Stage.unregisters : Stage → Option Nat
  | .unregistering m => some m
  | .sweeping _ m _ _ _ | .clearing _ m => m
  | _ => none

/-- The index that a call gives up for a module. -/
def Stage.releases : Stage → Option (Nat × Nat)
  | .sweeping index (some m) _ _ _ | .clearing index (some m) => some (m, index)
  | _ => none

/-- The module whose TLS a call is to initialise or has failed to. -/
def Stage.pending : Stage → Option Nat
  | .loading m | .failing m => some m
  | _ => none

/-- The modules a call is to notify. -/
def Stage.todo : Stage → List Nat
  | .notifying _ todo _ => todo
  | _ => []

namespace State

variable (s : State)

def stage (p : Nat) : Option Stage := (s.calls p).map Call.stage

def index (m : Nat) : Option Nat := (s.modules m).bind Module.tlsIndex

@[simp] theorem setSlot_modules (a index : Nat) (value : Slot) :
    (s.setSlot a index value).modules = s.modules := by
  unfold setSlot
  split <;> rfl

@[simp] theorem setSlot_moduleList (a index : Nat) (value : Slot) :
    (s.setSlot a index value).moduleList = s.moduleList := by
  unfold setSlot
  split <;> rfl

@[simp] theorem setSlot_calls (a index : Nat) (value : Slot) :
    (s.setSlot a index value).calls = s.calls := by
  unfold setSlot
  split <;> rfl

@[simp] theorem setSlot_allocated (a index : Nat) (value : Slot) :
    (s.setSlot a index value).allocated = s.allocated := by
  unfold setSlot
  split <;> rfl

@[simp] theorem setSlot_tlsBitmap (a index : Nat) (value : Slot) :
    (s.setSlot a index value).tlsBitmap = s.tlsBitmap := by
  unfold setSlot
  split <;> rfl

@[simp] theorem stage_setCall (p q : Nat) (call : Option Call) :
    (s.setCall p call).stage q = if q = p then call.map Call.stage else s.stage q := by
  simp only [stage, setCall, Function.update_apply]
  split <;> rfl

@[simp] theorem index_setModule (m m' : Nat) (md : Option Module) :
    (s.setModule m md).index m' = if m' = m then md.bind Module.tlsIndex else s.index m' := by
  simp only [index, setModule, Function.update_apply]
  split <;> rfl

end State

/-! ## The invariant -/

structure Owned (s : State) : Prop where
  module_bit : ∀ m i, s.index m = some i → s.tlsBitmap i = true ∧ i ∉ s.allocated
  module_unique : ∀ m m' i, s.index m = some i → s.index m' = some i → m = m'
  client_bit : ∀ i ∈ s.allocated, s.tlsBitmap i = true
  client_unique : s.allocated.Nodup
  freed_bit : ∀ p i, (s.stage p).bind Stage.frees = some i →
    s.tlsBitmap i = true ∧ i ∉ s.allocated ∧ ∀ m, s.index m ≠ some i
  freed_unique : ∀ p q i, (s.stage p).bind Stage.frees = some i →
    (s.stage q).bind Stage.frees = some i → p = q
  listed : ∀ m ∈ s.moduleList, s.modules m ≠ none
  held : ∀ p stage, s.stage p = some stage → ∀ m ∈ stage.held, m ∈ s.moduleList
  leaving : ∀ p m, (s.stage p).bind Stage.unregisters = some m →
    m ∉ s.moduleList ∧ s.modules m ≠ none
  leaving_unique : ∀ p q m, (s.stage p).bind Stage.unregisters = some m →
    (s.stage q).bind Stage.unregisters = some m → p = q
  releases : ∀ p m i, (s.stage p).bind Stage.releases = some (m, i) → s.index m = some i
  pending : ∀ p m md, (s.stage p).bind Stage.pending = some m → s.modules m = some md →
    md.processAttached = false
  pending_unique : ∀ p q m, (s.stage p).bind Stage.pending = some m →
    (s.stage q).bind Stage.pending = some m → p = q
  notified : ∀ p stage, s.stage p = some stage → ∀ m ∈ stage.todo, ∀ md, s.modules m = some md →
    md.processAttached = true

/-- What `Owned` reads. -/
structure SameOwners (s s' : State) : Prop where
  tlsBitmap : s'.tlsBitmap = s.tlsBitmap
  modules : s'.modules = s.modules
  moduleList : s'.moduleList = s.moduleList
  calls : s'.calls = s.calls
  allocated : s'.allocated = s.allocated

theorem Owned.congr {s s' : State} (h : Owned s) (hsame : SameOwners s s') : Owned s' := by
  have hstage : s'.stage = s.stage := by
    funext p
    unfold State.stage
    rw [hsame.calls]
  have hindex : s'.index = s.index := by
    funext m
    unfold State.index
    rw [hsame.modules]
  obtain ⟨h1, h2, h3, h4, h5, h6, h7, h8, h9, h10, h11, h12, h13, h14⟩ := h
  constructor <;>
    simp only [hstage, hindex, hsame.tlsBitmap, hsame.modules, hsame.moduleList,
      hsame.allocated] <;> assumption

theorem SameOwners.setSlot (s : State) (a index : Nat) (value : Slot) :
    SameOwners s (s.setSlot a index value) :=
  ⟨s.setSlot_tlsBitmap a index value, s.setSlot_modules a index value,
    s.setSlot_moduleList a index value, s.setSlot_calls a index value,
    s.setSlot_allocated a index value⟩

theorem SameOwners.initializeStaticTlsForTeb (s : State) (m a : Nat) (poolFails : Bool) :
    SameOwners s (s.initializeStaticTlsForTeb m a poolFails).2 := by
  unfold State.initializeStaticTlsForTeb
  split
  · exact ⟨rfl, rfl, rfl, rfl, rfl⟩
  · split
    · exact ⟨rfl, rfl, rfl, rfl, rfl⟩
    · split_ifs
      · exact ⟨rfl, rfl, rfl, rfl, rfl⟩
      · exact ⟨rfl, rfl, rfl, rfl, rfl⟩
      · exact SameOwners.setSlot _ _ _ _

theorem SameOwners.freeStaticTlsForTeb (s : State) (m a : Nat) :
    SameOwners s (s.freeStaticTlsForTeb m a) := by
  unfold State.freeStaticTlsForTeb
  split
  · exact ⟨rfl, rfl, rfl, rfl, rfl⟩
  · split
    · exact ⟨rfl, rfl, rfl, rfl, rfl⟩
    · exact SameOwners.setSlot _ _ _ _

/-- The bit that is found is clear. -/
theorem findClearBitFrom_some {bitmap : Nat → Bool} {i first count : Nat}
    (h : findClearBitFrom bitmap first count = some i) :
    i < first + count ∧ bitmap i = false := by
  induction count generalizing first with
  | zero => cases h
  | succ count ih =>
    rw [findClearBitFrom] at h
    split_ifs at h with hbit
    · have hrest := ih h
      exact ⟨by omega, hrest.2⟩
    · obtain rfl := Option.some.inj h
      exact ⟨by omega, Bool.eq_false_of_not_eq_true hbit⟩

theorem findClearBit_some {bitmap : Nat → Bool} {i : Nat} (h : findClearBit bitmap = some i) :
    i < slotsSize ∧ bitmap i = false := by
  have hfound := findClearBitFrom_some h
  rwa [Nat.zero_add] at hfound

/-! ## Steps of a call -/

/-- Nobody has the index. -/
structure Unowned (s : State) (i : Nat) : Prop where
  client : i ∉ s.allocated
  module : ∀ m, s.index m ≠ some i
  call : ∀ p, (s.stage p).bind Stage.frees ≠ some i

/-- A call begins, goes on or ends. What its new stage gives up, unregisters or initialises is what
the old stage did, or it is nobody's yet. -/
theorem Owned.setCall {s : State} (h : Owned s) {p : Nat} {call : Option Call}
    (hheld : ∀ stage ∈ call.map Call.stage, ∀ m ∈ stage.held, m ∈ s.moduleList)
    (hfrees : ∀ i, (call.map Call.stage).bind Stage.frees = some i →
      (s.stage p).bind Stage.frees = some i ∨ (s.tlsBitmap i = true ∧ Unowned s i))
    (hunregisters : ∀ m, (call.map Call.stage).bind Stage.unregisters = some m →
      (s.stage p).bind Stage.unregisters = some m ∨
        ((m ∉ s.moduleList ∧ s.modules m ≠ none) ∧
          ∀ q, (s.stage q).bind Stage.unregisters ≠ some m))
    (hreleases : ∀ m i, (call.map Call.stage).bind Stage.releases = some (m, i) →
      s.index m = some i)
    (hpending : ∀ m, (call.map Call.stage).bind Stage.pending = some m →
      (s.stage p).bind Stage.pending = some m ∨
        ((∀ md, s.modules m = some md → md.processAttached = false) ∧
          ∀ q, (s.stage q).bind Stage.pending ≠ some m))
    (htodo : ∀ stage ∈ call.map Call.stage, ∀ m ∈ stage.todo, ∀ md, s.modules m = some md →
      md.processAttached = true) : Owned (s.setCall p call) := by
  have hstage := fun q => s.stage_setCall p q call
  -- what a call has after the step, it had before, or it is new and the call is this one
  have hold : ∀ {β : Type} {f : Stage → Option β} {b : β} {New : Prop},
      ((call.map Call.stage).bind f = some b → (s.stage p).bind f = some b ∨ New) →
      ∀ q, ((s.setCall p call).stage q).bind f = some b →
        (s.stage q).bind f = some b ∨ (q = p ∧ New) := by
    intro β f b New hnew q hq
    rw [hstage] at hq
    split_ifs at hq with hqp
    · rw [hqp]
      exact (hnew hq).imp_right fun h => ⟨rfl, h⟩
    · exact .inl hq
  -- and what is new is had by no other call
  have hunique : ∀ {β : Type} {f : Stage → Option β} {b : β} {New : Prop},
      ((call.map Call.stage).bind f = some b →
        (s.stage p).bind f = some b ∨ (New ∧ ∀ q, (s.stage q).bind f ≠ some b)) →
      (∀ q r, (s.stage q).bind f = some b → (s.stage r).bind f = some b → q = r) →
      ∀ q r, ((s.setCall p call).stage q).bind f = some b →
        ((s.setCall p call).stage r).bind f = some b → q = r := by
    intro β f b New hnew hbefore q r hq hr
    rcases hold hnew q hq with hq' | ⟨heq, -, hnone⟩
    · rcases hold hnew r hr with hr' | ⟨-, -, hnone⟩
      · exact hbefore q r hq' hr'
      · exact absurd hq' (hnone q)
    · rcases hold hnew r hr with hr' | ⟨heq', -, -⟩
      · exact absurd hr' (hnone r)
      · rw [heq, heq']
  constructor
  case module_bit => exact h.module_bit
  case module_unique => exact h.module_unique
  case client_bit => exact h.client_bit
  case client_unique => exact h.client_unique
  case listed => exact h.listed
  case freed_bit =>
    intro q i hq
    rcases hold (hfrees i) q hq with hq | ⟨-, hbit, hnew⟩
    · exact h.freed_bit q i hq
    · exact ⟨hbit, hnew.client, hnew.module⟩
  case freed_unique =>
    intro q r i
    exact hunique (fun hnew => (hfrees i hnew).imp_right fun h => ⟨h.1, h.2.call⟩)
      (fun q r => h.freed_unique q r i) q r
  case leaving =>
    intro q m hq
    rcases hold (hunregisters m) q hq with hq | ⟨-, hnew, -⟩
    · exact h.leaving q m hq
    · exact hnew
  case leaving_unique =>
    exact fun q r m => hunique (hunregisters m) (fun q r => h.leaving_unique q r m) q r
  case pending =>
    intro q m md hq
    rcases hold (hpending m) q hq with hq | ⟨-, hnew, -⟩
    · exact h.pending q m md hq
    · exact hnew md
  case pending_unique =>
    exact fun q r m => hunique (hpending m) (fun q r => h.pending_unique q r m) q r
  case held =>
    intro q stage hq
    rw [hstage] at hq
    split_ifs at hq
    · exact hheld stage hq
    · exact h.held q stage hq
  case notified =>
    intro q stage hq
    rw [hstage] at hq
    split_ifs at hq
    · exact htodo stage hq
    · exact h.notified q stage hq
  case releases =>
    intro q m i hq
    rw [hstage] at hq
    split_ifs at hq
    · exact hreleases m i hq
    · exact h.releases q m i hq

/-- A call ends. -/
theorem Owned.endCall {s : State} (h : Owned s) (p : Nat) : Owned (s.setCall p none) :=
  h.setCall (fun _ h => nomatch h) (fun _ h => nomatch h) (fun _ h => nomatch h)
    (fun _ _ h => nomatch h) (fun _ h => nomatch h) (fun _ h => nomatch h)

theorem State.goto_eq {s : State} {p : Nat} {call : Call} (hcall : s.calls p = some call)
    (stage : Stage) : s.goto p stage = s.setCall p (some { call with stage := stage }) := by
  unfold State.goto
  rw [hcall]

theorem State.stage_eq {s : State} {p : Nat} {call : Call} (hcall : s.calls p = some call) :
    s.stage p = some call.stage := by
  unfold State.stage
  rw [hcall]
  rfl

/-! ## Steps of modules -/

/-- A module that no call is concerned with changes or goes, and it gives up its index or keeps
it. -/
theorem Owned.setModule {s : State} (h : Owned s) (m : Nat) (md : Option Module)
    (hindex : ∀ i, md.bind Module.tlsIndex = some i → s.index m = some i)
    (hlisted : md = none → m ∉ s.moduleList)
    (hleaving : ∀ p, (s.stage p).bind Stage.unregisters = some m → md ≠ none)
    (hreleases : ∀ p i, (s.stage p).bind Stage.releases = some (m, i) →
      md.bind Module.tlsIndex = some i)
    (hpending : ∀ p, (s.stage p).bind Stage.pending = some m → ∀ md' ∈ md,
      md'.processAttached = false)
    (hnotified : ∀ p stage, s.stage p = some stage → m ∈ stage.todo → ∀ md' ∈ md,
      md'.processAttached = true) : Owned (s.setModule m md) := by
  have hindexes := fun m' => s.index_setModule m m' md
  have hmodules : ∀ m', (s.setModule m md).modules m' = if m' = m then md else s.modules m' := by
    intro m'
    simp only [State.setModule, Function.update_apply]
  -- an index after the step was one before it
  have hold : ∀ m' i, (s.setModule m md).index m' = some i → s.index m' = some i := by
    intro m' i hm'
    rw [hindexes] at hm'
    split_ifs at hm' with heq
    · rw [heq]
      exact hindex i hm'
    · exact hm'
  constructor
  case module_bit => exact fun m' i hm' => h.module_bit m' i (hold m' i hm')
  case module_unique =>
    exact fun m' m'' i hm' hm'' => h.module_unique m' m'' i (hold m' i hm') (hold m'' i hm'')
  case client_bit => exact h.client_bit
  case client_unique => exact h.client_unique
  case freed_bit =>
    intro p i hp
    obtain ⟨hbit, hclient, hmodule⟩ := h.freed_bit p i hp
    exact ⟨hbit, hclient, fun m' hm' => hmodule m' (hold m' i hm')⟩
  case freed_unique => exact h.freed_unique
  case listed =>
    intro m' hm'
    rw [hmodules]
    split_ifs with heq
    · exact fun hnone => hlisted hnone (heq ▸ hm')
    · exact h.listed m' hm'
  case held => exact h.held
  case leaving =>
    intro p m' hp
    refine ⟨(h.leaving p m' hp).1, ?_⟩
    rw [hmodules]
    split_ifs with heq
    · exact hleaving p (heq ▸ hp)
    · exact (h.leaving p m' hp).2
  case leaving_unique => exact h.leaving_unique
  case releases =>
    intro p m' i hp
    rw [hindexes]
    split_ifs with heq
    · exact hreleases p i (heq ▸ hp)
    · exact h.releases p m' i hp
  case pending =>
    intro p m' md' hp hmd'
    rw [hmodules] at hmd'
    split_ifs at hmd' with heq
    · exact hpending p (heq ▸ hp) md' hmd'
    · exact h.pending p m' md' hp hmd'
  case pending_unique => exact h.pending_unique
  case notified =>
    intro p stage hp m' hm' md' hmd'
    rw [hmodules] at hmd'
    split_ifs at hmd' with heq
    · exact hnotified p stage hp (heq ▸ hm') md' hmd'
    · exact h.notified p stage hp m' hm' md' hmd'

/-- An index whose bit is clear is nobody's. -/
theorem Owned.unowned {s : State} (h : Owned s) {i : Nat} (hclear : s.tlsBitmap i = false) :
    Unowned s i where
  client hmem := by
    rw [h.client_bit i hmem] at hclear
    cases hclear
  module m hm := by
    rw [(h.module_bit m i hm).1] at hclear
    cases hclear
  call p hp := by
    rw [(h.freed_bit p i hp).1] at hclear
    cases hclear

/-- A bit is set, or the bit of an index that is nobody's is cleared. -/
theorem Owned.setBit {s : State} (h : Owned s) (i : Nat) (value : Bool)
    (hvalue : value = false → Unowned s i) : Owned (s.setBit i value) := by
  have hbit : ∀ j, s.tlsBitmap j = true → (i = j → ¬ Unowned s i) →
      (s.setBit i value).tlsBitmap j = true := by
    intro j hj hne
    simp only [State.setBit, Function.update_apply]
    split_ifs with heq
    · cases value with
      | true => rfl
      | false => exact absurd (hvalue rfl) (hne heq.symm)
    · exact hj
  constructor
  case module_bit =>
    intro m j hm
    obtain ⟨hj, hclient⟩ := h.module_bit m j hm
    exact ⟨hbit j hj fun heq hun => hun.module m (heq ▸ hm), hclient⟩
  case client_bit =>
    intro j hj
    exact hbit j (h.client_bit j hj) fun heq hun => hun.client (heq ▸ hj)
  case freed_bit =>
    intro p j hp
    obtain ⟨hj, hrest⟩ := h.freed_bit p j hp
    exact ⟨hbit j hj fun heq hun => hun.call p (heq ▸ hp), hrest⟩
  case module_unique => exact h.module_unique
  case client_unique => exact h.client_unique
  case freed_unique => exact h.freed_unique
  case listed => exact h.listed
  case held => exact h.held
  case leaving => exact h.leaving
  case leaving_unique => exact h.leaving_unique
  case releases => exact h.releases
  case pending => exact h.pending
  case pending_unique => exact h.pending_unique
  case notified => exact h.notified

/-- What is said of calls about a module is said of one that exists. -/
theorem Owned.noCall {s : State} (h : Owned s) {m : Nat} (hm : s.modules m = none) (p : Nat) :
    (∀ stage, s.stage p = some stage → m ∉ stage.held) ∧
      (s.stage p).bind Stage.unregisters ≠ some m ∧ (s.stage p).bind Stage.pending ≠ some m := by
  have hheld : ∀ stage, s.stage p = some stage → m ∉ stage.held := fun stage hp hmem =>
    h.listed m (h.held p stage hp m hmem) hm
  refine ⟨hheld, fun hp => (h.leaving p m hp).2 hm, fun hp => ?_⟩
  obtain ⟨stage, hstage, hpending⟩ := Option.bind_eq_some_iff.mp hp
  apply hheld stage hstage
  cases stage with
  | loading | failing =>
    cases hpending
    exact List.mem_singleton_self _
  | _ => cases hpending

theorem Stage.todo_subset_held {stage : Stage} {m : Nat} (h : m ∈ stage.todo) :
    m ∈ stage.held := by
  cases stage with
  | notifying reason todo done => exact List.mem_append_left _ h
  | _ => cases h

theorem Stage.unregisters_of_releases {stage : Stage} {m i : Nat}
    (h : stage.releases = some (m, i)) : stage.unregisters = some m := by
  unfold Stage.releases at h
  split at h <;> cases h <;> rfl

/-- A module is registered, with an index that is nobody's or with none. -/
theorem Owned.newModule {s : State} (h : Owned s) {m : Nat} (hm : s.modules m = none)
    (md : Module) (hindex : ∀ i, md.tlsIndex = some i → s.tlsBitmap i = true ∧ Unowned s i) :
    Owned ((s.setModule m (some md)).setModuleList (m :: s.moduleList)) := by
  have hindexes := fun m' => s.index_setModule m m' (some md)
  have hmodules : ∀ m', (s.setModule m (some md)).modules m' =
      if m' = m then some md else s.modules m' := by
    intro m'
    simp only [State.setModule, Function.update_apply]
  have hother : ∀ m', s.modules m' ≠ none → m' ≠ m := fun m' hm' heq => hm' (heq ▸ hm)
  -- an index is that of a module of before, or the new one, which nobody owned
  have hold : ∀ m' i, (s.setModule m (some md)).index m' = some i →
      s.index m' = some i ∨ (m' = m ∧ s.tlsBitmap i = true ∧ Unowned s i) := by
    intro m' i hm'
    rw [hindexes] at hm'
    split_ifs at hm' with heq
    · exact .inr ⟨heq, hindex i hm'⟩
    · exact .inl hm'
  constructor
  case module_bit =>
    intro m' i hm'
    rcases hold m' i hm' with hm' | ⟨-, hbit, hnew⟩
    · exact h.module_bit m' i hm'
    · exact ⟨hbit, hnew.client⟩
  case module_unique =>
    intro m' m'' i hm' hm''
    rcases hold m' i hm' with hbefore | ⟨heq, -, hnew⟩
    · rcases hold m'' i hm'' with hbefore' | ⟨-, -, hnew⟩
      · exact h.module_unique m' m'' i hbefore hbefore'
      · exact absurd hbefore (hnew.module m')
    · rcases hold m'' i hm'' with hbefore' | ⟨heq', -, -⟩
      · exact absurd hbefore' (hnew.module m'')
      · rw [heq, heq']
  case client_bit => exact h.client_bit
  case client_unique => exact h.client_unique
  case freed_bit =>
    intro p i hp
    obtain ⟨hbit, hclient, hmodule⟩ := h.freed_bit p i hp
    refine ⟨hbit, hclient, fun m' hm' => ?_⟩
    rcases hold m' i hm' with hm' | ⟨-, -, hnew⟩
    · exact hmodule m' hm'
    · exact hnew.call p hp
  case freed_unique => exact h.freed_unique
  case listed =>
    intro m' hm'
    show (s.setModule m (some md)).modules m' ≠ none
    rw [hmodules]
    rcases List.mem_cons.mp hm' with rfl | hm'
    · rw [if_pos rfl]
      exact Option.some_ne_none md
    · rw [if_neg (hother m' (h.listed m' hm'))]
      exact h.listed m' hm'
  case held => exact fun p stage hp m' hm' => List.mem_cons_of_mem m (h.held p stage hp m' hm')
  case leaving =>
    intro p m' hp
    obtain ⟨hlist, hexists⟩ := h.leaving p m' hp
    refine ⟨?_, ?_⟩
    · exact fun hmem => hlist ((List.mem_cons.mp hmem).resolve_left (hother m' hexists))
    · show (s.setModule m (some md)).modules m' ≠ none
      rw [hmodules, if_neg (hother m' hexists)]
      exact hexists
  case leaving_unique => exact h.leaving_unique
  case releases =>
    intro p m' i hp
    have hindex' := h.releases p m' i hp
    show (s.setModule m (some md)).index m' = some i
    rw [hindexes, if_neg]
    · exact hindex'
    · rintro rfl
      unfold State.index at hindex'
      rw [hm] at hindex'
      cases hindex'
  case pending =>
    intro p m' md' hp hmd'
    -- no call is about a module that was not there
    have hmd'' : (s.setModule m (some md)).modules m' = some md' := hmd'
    rw [hmodules] at hmd''
    split_ifs at hmd'' with heq
    · exact absurd (heq ▸ hp) (h.noCall hm p).2.2
    · exact h.pending p m' md' hp hmd''
  case pending_unique => exact h.pending_unique
  case notified =>
    intro p stage hp m' hm' md' hmd'
    have hmd'' : (s.setModule m (some md)).modules m' = some md' := hmd'
    rw [hmodules] at hmd''
    split_ifs at hmd'' with heq
    · exact absurd (Stage.todo_subset_held (heq ▸ hm')) ((h.noCall hm p).1 stage hp)
    · exact h.notified p stage hp m' hm' md' hmd''

/-- A module that no call refers to is taken off the list. -/
theorem Owned.removeModule {s : State} (h : Owned s) {m : Nat} (hm : ¬ s.Held m) :
    Owned (s.setModuleList (s.moduleList.filter (· ≠ m))) := by
  have hsub : ∀ m' ∈ s.moduleList.filter (· ≠ m), m' ∈ s.moduleList :=
    fun m' hm' => List.mem_of_mem_filter hm'
  constructor
  case listed => exact fun m' hm' => h.listed m' (hsub m' hm')
  case held =>
    intro p stage hp m' hm'
    obtain ⟨call, hcall, rfl⟩ := Option.map_eq_some_iff.mp hp
    apply List.mem_filter.mpr
    refine ⟨h.held p call.stage hp m' hm', decide_eq_true ?_⟩
    rintro rfl
    exact hm ⟨p, call, hcall, hm'⟩
  case leaving =>
    intro p m' hp
    exact ⟨fun hmem => (h.leaving p m' hp).1 (hsub m' hmem), (h.leaving p m' hp).2⟩
  case module_bit => exact h.module_bit
  case module_unique => exact h.module_unique
  case client_bit => exact h.client_bit
  case client_unique => exact h.client_unique
  case freed_bit => exact h.freed_bit
  case freed_unique => exact h.freed_unique
  case leaving_unique => exact h.leaving_unique
  case releases => exact h.releases
  case pending => exact h.pending
  case pending_unique => exact h.pending_unique
  case notified => exact h.notified

/-- The indices of clients change: those added are nobody's. -/
theorem Owned.setAllocated {s : State} (h : Owned s) (s' : State) (hbitmap : s'.tlsBitmap = s.tlsBitmap)
    (hmodules : s'.modules = s.modules) (hmoduleList : s'.moduleList = s.moduleList)
    (hcalls : s'.calls = s.calls) (hnodup : s'.allocated.Nodup)
    (hnew : ∀ i ∈ s'.allocated, i ∈ s.allocated ∨ (s.tlsBitmap i = true ∧ Unowned s i)) :
    Owned s' := by
  have hbase : Owned { s' with allocated := s.allocated } :=
    h.congr ⟨hbitmap, hmodules, hmoduleList, hcalls, rfl⟩
  have hindex : s'.index = s.index := by
    funext m
    unfold State.index
    rw [hmodules]
  have hstage : s'.stage = s.stage := by
    funext p
    unfold State.stage
    rw [hcalls]
  constructor
  case client_unique => exact hnodup
  case module_bit =>
    intro m i hm
    obtain ⟨hbit, hclient⟩ := hbase.module_bit m i hm
    refine ⟨hbit, fun hmem => ?_⟩
    rcases hnew i hmem with hold | ⟨-, hun⟩
    · exact hclient hold
    · exact hun.module m (hindex ▸ hm)
  case client_bit =>
    intro i hi
    rw [hbitmap]
    rcases hnew i hi with hold | ⟨hbit, -⟩
    · exact h.client_bit i hold
    · exact hbit
  case freed_bit =>
    intro p i hp
    obtain ⟨hbit, hclient, hmodule⟩ := hbase.freed_bit p i hp
    refine ⟨hbit, fun hmem => ?_, hmodule⟩
    rcases hnew i hmem with hold | ⟨-, hun⟩
    · exact hclient hold
    · exact hun.call p (hstage ▸ hp)
  case module_unique => exact hbase.module_unique
  case freed_unique => exact hbase.freed_unique
  case listed => exact hbase.listed
  case held => exact hbase.held
  case leaving => exact hbase.leaving
  case leaving_unique => exact hbase.leaving_unique
  case releases => exact hbase.releases
  case pending => exact hbase.pending
  case pending_unique => exact hbase.pending_unique
  case notified => exact hbase.notified

/-- A call goes on with what it had. -/
theorem Owned.goto {s : State} (h : Owned s) {p : Nat} {call : Call} (hcall : s.calls p = some call)
    {stage : Stage} (hheld : ∀ m ∈ stage.held, m ∈ call.stage.held)
    (hfrees : ∀ i, stage.frees = some i → call.stage.frees = some i)
    (hunregisters : ∀ m, stage.unregisters = some m → call.stage.unregisters = some m)
    (hreleases : ∀ m i, stage.releases = some (m, i) → s.index m = some i)
    (hpending : ∀ m, stage.pending = some m → call.stage.pending = some m)
    (htodo : ∀ m ∈ stage.todo, m ∈ call.stage.todo) : Owned (s.goto p stage) := by
  have hstage := State.stage_eq hcall
  rw [State.goto_eq hcall]
  apply h.setCall
  · intro _ heq m hm
    obtain rfl := Option.some.inj heq
    exact h.held p _ hstage m (hheld m hm)
  · intro i hi
    rw [hstage]
    exact .inl (hfrees i hi)
  · intro m hm
    rw [hstage]
    exact .inl (hunregisters m hm)
  · exact hreleases
  · intro m hm
    rw [hstage]
    exact .inl (hpending m hm)
  · intro _ heq m hm
    obtain rfl := Option.some.inj heq
    exact h.notified p _ hstage m (htodo m hm)

/-! ## Steps -/

namespace Owned

variable {s : State}

theorem createTeb (h : Owned s) (thread a : Nat) : Owned (s.createTeb thread a) := by
  unfold State.createTeb
  dsimp only
  split <;> exact h.congr ⟨rfl, rfl, rfl, rfl, rfl⟩

theorem load (h : Owned s) {p thread m : Nat} {directory : Option TlsDirectory}
    (hm : s.modules m = none) : Owned (s.load p thread m directory) := by
  unfold State.load
  cases directory with
  | none => exact h.newModule hm _ (fun i hi => nomatch hi)
  | some directory =>
    dsimp only
    cases directory.sizes with
    | none => exact h
    | some sizes =>
      dsimp only
      cases hfind : findClearBit s.tlsBitmap with
      | none => exact h
      | some index =>
        have hun := h.unowned (findClearBit_some hfind).2
        have hset := h.setBit index true (fun heq => nomatch heq)
        have hun' : Unowned (s.setBit index true) index := ⟨hun.client, hun.module, hun.call⟩
        have hbit : (s.setBit index true).tlsBitmap index = true := Function.update_self _ _ _
        have hnew := hset.newModule (m := m) hm
          ⟨some index, directory.rawData.take sizes.1, sizes.2, false⟩
          (by rintro i hi
              obtain rfl := Option.some.inj hi
              exact ⟨hbit, hun'⟩)
        apply hnew.setCall
        · rintro stage hstage m' hm'
          obtain rfl := Option.some.inj hstage
          rw [List.mem_singleton.mp hm']
          exact List.mem_cons_self
        · exact fun i hi => nomatch hi
        · exact fun m' hm' => nomatch hm'
        · exact fun m' i hi => nomatch hi
        · -- nobody but this call initialises the module
          intro m' hm'
          obtain rfl := Option.some.inj hm'
          refine .inr ⟨?_, fun q => (h.noCall hm q).2.2⟩
          intro md hmd
          have hmd' : Function.update s.modules m _ m = some md := hmd
          rw [Function.update_self] at hmd'
          obtain rfl := Option.some.inj hmd'
          rfl
        · rintro stage hstage m' hm'
          obtain rfl := Option.some.inj hstage
          cases hm'

theorem initializeModuleTls (h : Owned s) {p m a thread : Nat} {poolFails : Bool}
    (hcall : s.calls p = some ⟨thread, .loading m⟩) :
    Owned (s.initializeModuleTls p m a poolFails) := by
  have hsame := SameOwners.initializeStaticTlsForTeb s m a poolFails
  have h' := h.congr hsame
  have hcall' : (s.initializeStaticTlsForTeb m a poolFails).2.calls p =
      some ⟨thread, .loading m⟩ := hsame.calls ▸ hcall
  unfold State.initializeModuleTls
  generalize s.initializeStaticTlsForTeb m a poolFails = result at h' hcall'
  obtain ⟨initialized, s'⟩ := result
  dsimp only at h' hcall' ⊢
  split_ifs
  · -- the call is over before the module counts as attached
    have hother : ∀ q, ((s'.setCall p none).stage q).bind Stage.pending ≠ some m := by
      intro q hq
      have hne : q ≠ p := by
        rintro rfl
        rw [State.stage_setCall, if_pos rfl] at hq
        cases hq
      rw [State.stage_setCall, if_neg hne] at hq
      exact hne (h'.pending_unique q p m hq (by rw [State.stage_eq hcall']; rfl))
    apply (h'.endCall p).setModule m
      ((s'.modules m).map fun md => { md with processAttached := true })
    · intro i hi
      rw [Option.bind_map] at hi
      exact hi
    · intro hnone hmem
      exact h'.listed m hmem (Option.map_eq_none_iff.mp hnone)
    · intro q hq hnone
      exact ((h'.endCall p).leaving q m hq).2 (Option.map_eq_none_iff.mp hnone)
    · intro q i hq
      rw [Option.bind_map]
      exact (h'.endCall p).releases q m i hq
    · exact fun q hq => absurd hq (hother q)
    · intro q stage _ _ md' hmd'
      obtain ⟨md, -, rfl⟩ := Option.map_eq_some_iff.mp hmd'
      rfl
  · exact h'.goto hcall' (fun _ h => h) (fun _ h => nomatch h) (fun _ h => nomatch h)
      (fun _ _ h => nomatch h) (fun _ h => h) (fun _ h => nomatch h)

/-- A module that leaves, or whose TLS could not be set up, gives up its index. -/
theorem unowned_of_setModule (h : Owned s) {m index : Nat} (md : Option Module)
    (hindex : s.index m = some index) (hnone : md.bind Module.tlsIndex = none) :
    Unowned (s.setModule m md) index where
  client := (h.module_bit m index hindex).2
  module m' hm' := by
    rw [State.index_setModule] at hm'
    split_ifs at hm' with heq
    · rw [hnone] at hm'
      cases hm'
    · exact heq (h.module_unique m' m index hm' hindex)
  call p hp := (h.freed_bit p index hp).2.2 m hindex

theorem fail (h : Owned s) {p thread m : Nat}
    (hcall : s.calls p = some ⟨thread, .failing m⟩) : Owned (s.fail p m) := by
  have hstage := State.stage_eq hcall
  have hlisted : m ∈ s.moduleList := h.held p _ hstage m (List.mem_singleton_self _)
  unfold State.fail
  cases hmd : s.modules m with
  | none => exact h
  | some md =>
    dsimp only
    have hreset : Owned (s.setModule m
        (some { md with tlsIndex := none, tlsRawData := [], tlsDataSize := 0 })) := by
      apply h.setModule
      · exact fun i hi => nomatch hi
      · exact fun hnone => nomatch hnone
      · exact fun q _ hnone => nomatch hnone
      · intro q i hq
        obtain ⟨stage, hq', hreleases⟩ := Option.bind_eq_some_iff.mp hq
        have hleaves : (s.stage q).bind Stage.unregisters = some m :=
          Option.bind_eq_some_iff.mpr ⟨stage, hq', Stage.unregisters_of_releases hreleases⟩
        exact absurd hlisted (h.leaving q m hleaves).1
      · intro q hq md' hmd'
        obtain rfl := Option.some.inj hmd'
        exact h.pending q m md hq hmd
      · intro q stage hq hm md' hmd'
        obtain rfl := Option.some.inj hmd'
        exact h.notified q stage hq m hm md hmd
    cases hindex : md.tlsIndex with
    | none => exact hreset.endCall p
    | some index =>
      have hm : s.index m = some index := by
        unfold State.index
        rw [hmd]
        exact hindex
      have hclear := hreset.setBit index false
        (fun _ => h.unowned_of_setModule _ hm rfl)
      exact hclear.endCall p

theorem notify (h : Owned s) (p thread : Nat) (reason : Reason) :
    Owned (s.setCall p (some ⟨thread, .notifying reason s.snapshot []⟩)) := by
  apply h.setCall
  · intro stage hstage m hm
    obtain rfl := Option.some.inj hstage
    rw [Stage.held, List.append_nil] at hm
    exact List.mem_of_mem_filter hm
  · exact fun i hi => nomatch hi
  · exact fun m hm => nomatch hm
  · exact fun m i hi => nomatch hi
  · exact fun m hm => nomatch hm
  · intro stage hstage m hm md hmd
    obtain rfl := Option.some.inj hstage
    have hattached := (List.mem_filter.mp hm).2
    rw [hmd] at hattached
    exact hattached

theorem visit (h : Owned s) {p a : Nat} {poolFails : Bool} {thread : Nat} {reason : Reason}
    {todo done : List Nat} (hcall : s.calls p = some ⟨thread, .notifying reason todo done⟩) :
    Owned (s.visit p a poolFails) := by
  unfold State.visit
  rw [hcall]
  cases todo with
  | nil => cases reason <;> exact h
  | cons m todo =>
    -- the module goes from the one list of the call to the other
    have hheld : ∀ m', m' ∈ todo ++ m :: done → m' ∈ m :: todo ++ done := by
      intro m' hm'
      exact List.perm_middle.mem_iff.mp hm'
    cases reason with
    | threadAttach =>
      have hsame := SameOwners.initializeStaticTlsForTeb s m a poolFails
      have hcall' : (s.initializeStaticTlsForTeb m a poolFails).2.calls p =
          some ⟨thread, .notifying .threadAttach (m :: todo) done⟩ := hsame.calls ▸ hcall
      exact (h.congr hsame).goto hcall' hheld (fun _ h => nomatch h)
        (fun _ h => nomatch h) (fun _ _ h => nomatch h) (fun _ h => nomatch h)
        (fun _ hm => List.mem_cons_of_mem m hm)
    | threadDetach =>
      have hsame := SameOwners.freeStaticTlsForTeb s m a
      have hcall' : (s.freeStaticTlsForTeb m a).calls p =
          some ⟨thread, .notifying .threadDetach (m :: todo) done⟩ := hsame.calls ▸ hcall
      exact (h.congr hsame).goto hcall' hheld (fun _ h => nomatch h)
        (fun _ h => nomatch h) (fun _ _ h => nomatch h) (fun _ h => nomatch h)
        (fun _ hm => List.mem_cons_of_mem m hm)

theorem release (h : Owned s) {p thread : Nat} {reason : Reason} {done : List Nat}
    (hcall : s.calls p = some ⟨thread, .notifying reason [] done⟩) : Owned (s.release p) := by
  unfold State.release
  rw [hcall]
  cases done with
  | nil => exact h.endCall p
  | cons m done =>
    exact h.goto hcall (fun _ hm => List.mem_cons_of_mem m hm) (fun _ h => nomatch h)
      (fun _ h => nomatch h) (fun _ _ h => nomatch h) (fun _ h => nomatch h)
      (fun _ h => nomatch h)

theorem unload (h : Owned s) {p thread m : Nat} (hm : m ∈ s.moduleList)
    (hheld : ¬ s.Held m) : Owned (s.unload p thread m) := by
  have hremoved := h.removeModule hheld
  apply hremoved.setCall
  · intro stage hstage m' hm'
    obtain rfl := Option.some.inj hstage
    cases hm'
  · exact fun i hi => nomatch hi
  · intro m' hm'
    obtain rfl := Option.some.inj hm'
    refine .inr ⟨⟨?_, h.listed m hm⟩, fun q hq => (h.leaving q m hq).1 hm⟩
    intro hmem
    simpa using List.of_mem_filter hmem
  · exact fun m' i hi => nomatch hi
  · exact fun m' hm' => nomatch hm'
  · intro stage hstage m' hm'
    obtain rfl := Option.some.inj hstage
    cases hm'

/-- A module that a call has unregistered is freed as the call ends. -/
theorem freeModule (h : Owned s) {p m : Nat}
    (hp : (s.stage p).bind Stage.unregisters = some m) :
    Owned ((s.setModule m none).setCall p none) := by
  have hother : ∀ q, ((s.setCall p none).stage q).bind Stage.unregisters ≠ some m := by
    intro q hq
    have hne : q ≠ p := by
      rintro rfl
      rw [State.stage_setCall, if_pos rfl] at hq
      cases hq
    rw [State.stage_setCall, if_neg hne] at hq
    exact hne (h.leaving_unique q p m hq hp)
  apply (h.endCall p).setModule m none
  · exact fun i hi => nomatch hi
  · exact fun _ => (h.leaving p m hp).1
  · exact fun q hq => absurd hq (hother q)
  · intro q i hq
    obtain ⟨stage, hq', hreleases⟩ := Option.bind_eq_some_iff.mp hq
    exact absurd (Option.bind_eq_some_iff.mpr ⟨stage, hq',
      Stage.unregisters_of_releases hreleases⟩) (hother q)
  · exact fun q _ md' hmd' => nomatch hmd'
  · exact fun q stage _ _ md' hmd' => nomatch hmd'

theorem startSweep (h : Owned s) {p m a thread : Nat}
    (hcall : s.calls p = some ⟨thread, .unregistering m⟩) : Owned (s.startSweep p m a) := by
  have hp : (s.stage p).bind Stage.unregisters = some m := by
    rw [State.stage_eq hcall]
    rfl
  unfold State.startSweep
  cases hindex : (s.modules m).bind (·.tlsIndex) with
  | none => exact h.freeModule hp
  | some index =>
    dsimp only
    have hreleases : ∀ m' i, some (m, index) = some (m', i) → s.index m' = some i := by
      intro m' i heq
      cases heq
      exact hindex
    split_ifs
    · exact h.goto hcall (fun _ h => nomatch h) (fun _ h => nomatch h) (fun _ h => h) hreleases
        (fun _ h => nomatch h) (fun _ h => nomatch h)
    · exact h.goto hcall (fun _ h => nomatch h) (fun _ h => nomatch h) (fun _ h => h) hreleases
        (fun _ h => nomatch h) (fun _ h => nomatch h)

/-- A sweep goes on, or it comes to its end. -/
theorem sweep (h : Owned s) {p thread index : Nat} {m : Option Nat} {initialTeb teb : Nat}
    {cleared : Bool} (hcall : s.calls p = some ⟨thread, .sweeping index m initialTeb teb cleared⟩)
    {stage : Stage}
    (hstage : (∃ teb' cleared', stage = .sweeping index m initialTeb teb' cleared') ∨
      stage = .clearing index m ∨ stage = .astray) : Owned (s.goto p stage) := by
  have hp := State.stage_eq hcall
  have hreleases : ∀ m' i, (Stage.clearing index m).releases = some (m', i) →
      s.index m' = some i := by
    intro m' i hi
    apply h.releases p m' i
    rw [hp]
    cases m with
    | none => cases hi
    | some m => exact hi
  rcases hstage with ⟨teb', cleared', rfl⟩ | rfl | rfl
  · cases m with
    | none =>
      exact h.goto hcall (fun _ h => nomatch h) (fun _ h => h) (fun _ h => nomatch h) hreleases
        (fun _ h => nomatch h) (fun _ h => nomatch h)
    | some m =>
      exact h.goto hcall (fun _ h => nomatch h) (fun _ h => nomatch h) (fun _ h => h) hreleases
        (fun _ h => nomatch h) (fun _ h => nomatch h)
  · cases m with
    | none =>
      exact h.goto hcall (fun _ h => nomatch h) (fun _ h => h) (fun _ h => nomatch h) hreleases
        (fun _ h => nomatch h) (fun _ h => nomatch h)
    | some m =>
      exact h.goto hcall (fun _ h => nomatch h) (fun _ h => nomatch h) (fun _ h => h) hreleases
        (fun _ h => nomatch h) (fun _ h => nomatch h)
  · exact h.goto hcall (fun _ h => nomatch h) (fun _ h => nomatch h) (fun _ h => nomatch h)
      (fun _ _ h => nomatch h) (fun _ h => nomatch h) (fun _ h => nomatch h)

theorem clear (h : Owned s) {p thread index : Nat} {m : Option Nat} {initialTeb teb : Nat}
    (hcall : s.calls p = some ⟨thread, .sweeping index m initialTeb teb false⟩) :
    Owned (s.clear p) := by
  unfold State.clear
  rw [hcall]
  exact (h.congr (SameOwners.setSlot s teb index .null)).sweep
    ((SameOwners.setSlot s teb index .null).calls ▸ hcall) (.inl ⟨teb, true, rfl⟩)

theorem hop (h : Owned s) {p thread index : Nat} {m : Option Nat} {initialTeb teb : Nat}
    (hcall : s.calls p = some ⟨thread, .sweeping index m initialTeb teb true⟩) :
    Owned (s.hop p) := by
  unfold State.hop
  rw [hcall]
  dsimp only
  split_ifs
  · exact h.sweep hcall (.inr (.inl rfl))
  · exact h.sweep hcall (.inr (.inl rfl))
  · exact h.sweep hcall (.inl ⟨_, _, rfl⟩)
  · exact h.sweep hcall (.inr (.inr rfl))

theorem clearBits (h : Owned s) {p thread index : Nat} {m : Option Nat}
    (hcall : s.calls p = some ⟨thread, .clearing index m⟩) : Owned (s.clearBits p) := by
  have hp := State.stage_eq hcall
  unfold State.clearBits
  rw [hcall]
  cases m with
  | some m =>
    dsimp only
    have hfreed := h.freeModule (p := p) (m := m) (by rw [hp]; rfl)
    have hindex : s.index m = some index := h.releases p m index (by rw [hp]; rfl)
    have hun := h.unowned_of_setModule none hindex rfl
    have hun' : Unowned ((s.setModule m none).setCall p none) index := by
      refine ⟨hun.client, hun.module, ?_⟩
      intro q hq
      rw [State.stage_setCall] at hq
      split_ifs at hq
      · cases hq
      · exact hun.call q hq
    exact hfreed.setBit index false (fun _ => hun')
  | none =>
    dsimp only
    have hfrees : (s.stage p).bind Stage.frees = some index := by
      rw [hp]
      rfl
    obtain ⟨-, hclient, hmodule⟩ := h.freed_bit p index hfrees
    have hun : Unowned (s.setCall p none) index := by
      refine ⟨hclient, hmodule, ?_⟩
      intro q hq
      rw [State.stage_setCall] at hq
      split_ifs at hq with hqp
      · cases hq
      · exact hqp (h.freed_unique q p index hq hfrees)
    have hclear := (h.endCall p).setBit index false (fun _ => hun)
    exact hclear.congr ⟨rfl, rfl, rfl, rfl, rfl⟩

theorem tlsAlloc (h : Owned s) (a : Nat) : Owned (s.tlsAlloc a) := by
  unfold State.tlsAlloc
  cases hfind : findClearBit s.tlsBitmap with
  | none => exact h
  | some index =>
    dsimp only
    have hun := h.unowned (findClearBit_some hfind).2
    have hset := h.setBit index true (fun heq => nomatch heq)
    have hsame := SameOwners.setSlot (s.setBit index true) a index .null
    have hslot := hset.congr hsame
    apply hslot.setAllocated { (s.setBit index true).setSlot a index .null with
      allocated := index :: s.allocated } rfl rfl rfl rfl
    · exact List.nodup_cons.mpr ⟨hun.client, h.client_unique⟩
    · intro i hi
      rcases List.mem_cons.mp hi with rfl | hi
      · right
        constructor
        · rw [hsame.tlsBitmap]
          exact Function.update_self _ _ _
        · constructor
          · rw [hsame.allocated]
            exact hun.client
          · intro m hm
            apply hun.module m
            unfold State.index at hm ⊢
            rwa [hsame.modules] at hm
          · intro q hq
            apply hun.call q
            unfold State.stage at hq ⊢
            rwa [hsame.calls] at hq
      · left
        rw [hsame.allocated]
        exact hi

theorem tlsSetValue (h : Owned s) (a index value : Nat) : Owned (s.tlsSetValue a index value) := by
  unfold State.tlsSetValue
  split_ifs
  · exact h
  · exact h.congr (SameOwners.setSlot s a index _)
  · exact h.congr (SameOwners.setSlot s a index _)

theorem tlsFree (h : Owned s) {p thread a index : Nat}
    (hindex : index ∈ s.allocated) : Owned (s.tlsFree p thread a index) := by
  unfold State.tlsFree
  split_ifs with hsize hbit hrun
  · exact h
  · exact h
  · have hgiven : Owned { s with allocated := s.allocated.erase index, pebLock := some p } := by
      apply h.setAllocated { s with allocated := s.allocated.erase index, pebLock := some p }
        rfl rfl rfl rfl
      · exact h.client_unique.erase index
      · exact fun i hi => .inl (List.mem_of_mem_erase hi)
    apply hgiven.setCall
    · intro stage hstage m hm
      obtain rfl := Option.some.inj hstage
      cases hm
    · intro i hi
      obtain rfl := Option.some.inj hi
      refine .inr ⟨hbit, ⟨?_, ?_, ?_⟩⟩
      · exact h.client_unique.not_mem_erase
      · exact fun m hm => (h.module_bit m index hm).2 hindex
      · exact fun q hq => (h.freed_bit q index hq).2.1 hindex
    · exact fun m hm => nomatch hm
    · exact fun m i hi => nomatch hi
    · exact fun m hm => nomatch hm
    · intro stage hstage m hm
      obtain rfl := Option.some.inj hstage
      cases hm
  · exact h

end Owned

/-- A step keeps the invariant. -/
theorem owned_step (s : State) (a : Action) (h : Owned s) (hen : Enabled s a) :
    Owned (next s a) := by
  cases a with
  | createTeb thread a => exact h.createTeb thread a
  | beginShutdown =>
    have hsame : SameOwners s { s with shutdownInProgress := true } := ⟨rfl, rfl, rfl, rfl, rfl⟩
    exact h.congr hsame
  | load p thread m directory =>
    have hload : Owned (s.load p thread m directory) := h.load hen.2.1
    exact hload
  | initializeModuleTls p m a poolFails =>
    obtain ⟨thread, hcall, -⟩ := hen
    exact h.initializeModuleTls hcall
  | fail p m =>
    obtain ⟨⟨thread, hcall⟩, -⟩ := hen
    exact h.fail hcall
  | notify p thread reason => exact h.notify p thread reason
  | visit p a poolFails =>
    obtain ⟨reason, todo, done, thread, hcall, -⟩ := hen
    exact h.visit hcall
  | release p =>
    obtain ⟨thread, reason, done, hcall⟩ := hen
    exact h.release hcall
  | unload p thread m => exact h.unload hen.2.1 hen.2.2
  | startSweep p m a =>
    obtain ⟨thread, hcall, -⟩ := hen
    exact h.startSweep hcall
  | clear p =>
    obtain ⟨thread, index, m, initialTeb, teb, hcall⟩ := hen
    exact h.clear hcall
  | hop p =>
    obtain ⟨thread, index, m, initialTeb, teb, hcall⟩ := hen
    exact h.hop hcall
  | clearBits p =>
    obtain ⟨thread, index, m, hcall, -⟩ := hen
    exact h.clearBits hcall
  | tlsAlloc thread a => exact h.tlsAlloc a
  | tlsSetValue thread a index value => exact h.tlsSetValue a index value
  | tlsFree p thread a index => exact h.tlsFree hen.2.2.1

theorem owned_initialState : Owned initialState where
  module_bit _ _ h := nomatch h
  module_unique _ _ _ h := nomatch h
  client_bit _ h := nomatch h
  client_unique := List.nodup_nil
  freed_bit _ _ h := nomatch h
  freed_unique _ _ _ h := nomatch h
  listed _ h := nomatch h
  held _ _ h := nomatch h
  leaving _ _ h := nomatch h
  leaving_unique _ _ _ h := nomatch h
  releases _ _ _ h := nomatch h
  pending _ _ _ h := nomatch h
  pending_unique _ _ _ h := nomatch h
  notified _ _ h := nomatch h

/-- It holds in every run, whatever the guard. -/
theorem owned_of_reachable {guard : State → Action → Prop} :
    ∀ s, threadLocalStorage.Reachable guard s → Owned s := by
  apply System.Reachable.invariant
  · rintro s rfl
    exact owned_initialState
  · exact fun s a h hen _ => owned_step s a h hen

end Ldk.Tls
