import Mathlib
import Ldk.Loader.State

/-!
# The reference ledger

Where the counted references of a module are, and that taking and dropping references keeps the
books.

- `State.WellFormed`: what holds of the module list of every loader.
- `Account`: what a call finds when it begins: references that are not its own, TLS indexes that
  belong to no module, and the modules there are.
- `Accounted`: every reference to a counted module is found, held by the caller, recorded as a
  dependency or left behind; what is not counted has been missed.
- A module that is not on the list is owed no more references than have been missed.
-/

namespace Ldk.Loader

/-- The record apart from the load count, if that is kept up. -/
def Module.sansCount (m : Module) : Module := if m.counted then { m with loadCount := 0 } else m

@[simp] theorem Module.sansCount_id (m : Module) : m.sansCount.id = m.id := by
  unfold Module.sansCount
  split <;> rfl

@[simp] theorem Module.sansCount_dependencyList (m : Module) :
    m.sansCount.dependencyList = m.dependencyList := by
  unfold Module.sansCount
  split <;> rfl

@[simp] theorem Module.sansCount_tlsIndex (m : Module) : m.sansCount.tlsIndex = m.tlsIndex := by
  unfold Module.sansCount
  split <;> rfl

@[simp] theorem Module.sansCount_image (m : Module) : m.sansCount.image = m.image := by
  unfold Module.sansCount
  split <;> rfl

@[simp] theorem Module.sansCount_moduleName (m : Module) :
    m.sansCount.moduleName = m.moduleName := by
  unfold Module.sansCount
  split <;> rfl

@[simp] theorem Module.sansCount_resourceOnly (m : Module) :
    m.sansCount.resourceOnly = m.resourceOnly := by
  unfold Module.sansCount
  split <;> rfl

@[simp] theorem Module.sansCount_counted (m : Module) : m.sansCount.counted = m.counted := by
  unfold Module.sansCount
  split <;> rfl

/-- Records that differ in their load counts only are one when these agree. -/
theorem Module.eq_of_sansCount {m n : Module} (h : m.sansCount = n.sansCount)
    (hcount : m.counted = true → m.loadCount = n.loadCount) : m = n := by
  have hcounted : m.counted = n.counted := by
    rw [← m.sansCount_counted, h, n.sansCount_counted]
  unfold Module.sansCount at h
  rw [← hcounted] at h
  split at h
  · next hm =>
    have hloadCount := hcount hm
    cases m
    cases n
    simp_all
  · exact h

namespace State

/-- The ids of the modules on the list. -/
def ids (s : State) : List Nat := s.modules.map (·.id)

/-- All recorded dependencies. -/
def dependencies (s : State) : List Nat := s.modules.flatMap (·.dependencyList)

/-- The TLS indexes of the modules. -/
def tlsIndexes (s : State) : List Nat := s.modules.filterMap (·.tlsIndex)

/-- The modules on the list apart from their load counts. -/
def shape (s : State) : List Module := s.modules.map Module.sansCount

theorem ids_eq_shape (s : State) : s.ids = s.shape.map (·.id) := by
  simp only [ids, shape, List.map_map, Function.comp_def, Module.sansCount_id]

theorem dependencies_eq_shape (s : State) :
    s.dependencies = s.shape.flatMap (·.dependencyList) := by
  simp only [dependencies, shape, List.flatMap_map, Module.sansCount_dependencyList]

theorem tlsIndexes_eq_shape (s : State) : s.tlsIndexes = s.shape.filterMap (·.tlsIndex) := by
  simp only [tlsIndexes, shape, List.filterMap_map, Function.comp_def, Module.sansCount_tlsIndex]

/-- The module list is in order. -/
structure WellFormed (s : State) : Prop where
  nodup : (s.ids ++ s.unregistered).Nodup
  /-- What has been allocated is on the list or has been unregistered. -/
  issued : ∀ id, id ∈ s.ids ++ s.unregistered ↔ id < s.nextId
  /-- A dependency has been registered before the module that has it. -/
  earlier : ∀ m ∈ s.modules, m.dependencyList.Nodup ∧ ∀ d ∈ m.dependencyList, d < m.id
  referenced : ∀ m ∈ s.modules, m.counted = true → 1 ≤ m.loadCount
  logged : ∀ id ∈ s.kept ++ s.missed, id < s.nextId
  tlsNodup : s.tlsIndexes.Nodup
  tlsSet : ∀ index ∈ s.tlsIndexes, index ∈ s.tlsBitmap
  tlsImage : ∀ m ∈ s.modules, m.tlsIndex.isSome → m.image.isSome

variable {s : State}

theorem mem_ids {id : Nat} : id ∈ s.ids ↔ ∃ m ∈ s.modules, m.id = id := List.mem_map

namespace WellFormed

theorem ids_nodup (h : s.WellFormed) : s.ids.Nodup := (List.nodup_append.mp h.nodup).1

theorem id_lt (h : s.WellFormed) {m : Module} (hm : m ∈ s.modules) : m.id < s.nextId :=
  (h.issued m.id).mp (List.mem_append_left _ (mem_ids.mpr ⟨m, hm, rfl⟩))

/-- Modules on the list are told apart by their ids. -/
theorem eq_of_id (h : s.WellFormed) {m n : Module} (hm : m ∈ s.modules) (hn : n ∈ s.modules)
    (hid : m.id = n.id) : m = n :=
  List.inj_on_of_nodup_map h.ids_nodup hm hn hid

theorem get_of_mem (h : s.WellFormed) {m : Module} (hm : m ∈ s.modules) : s.get m.id = some m := by
  unfold get
  cases hfind : s.modules.find? (·.id == m.id) with
  | none =>
    have hno := List.find?_eq_none.mp hfind m hm
    simp at hno
  | some n =>
    have hn : n.id = m.id := by simpa using List.find?_some hfind
    rw [h.eq_of_id (List.mem_of_find?_eq_some hfind) hm hn]

end WellFormed

theorem get_none {id : Nat} (h : s.get id = none) : id ∉ s.ids := by
  rintro hmem
  obtain ⟨m, hm, hid⟩ := mem_ids.mp hmem
  have hno := List.find?_eq_none.mp h m hm
  simp [hid] at hno

/-! ### Built-in modules -/

theorem mem_initial {builtIn : List BuiltIn} {m : Module} (h : m ∈ (initial builtIn).modules) :
    ∃ b id, m = BuiltIn.module b id := by
  obtain ⟨id, hid, rfl⟩ := List.mem_mapIdx.mp h
  exact ⟨_, id, rfl⟩

theorem ids_initial (builtIn : List BuiltIn) :
    (initial builtIn).ids = List.range builtIn.length := by
  refine List.ext_getElem (by simp [ids, initial]) fun i hi _ => ?_
  simp [ids, initial, BuiltIn.module]

/-- The list is in order from the beginning. -/
theorem initial_wellFormed (builtIn : List BuiltIn) : (initial builtIn).WellFormed := by
  have hindexes : (initial builtIn).tlsIndexes = [] := by
    refine List.filterMap_eq_nil_iff.mpr fun m hm => ?_
    obtain ⟨b, id, rfl⟩ := mem_initial hm
    rfl
  refine
    { nodup := ?_, issued := ?_, earlier := ?_, referenced := ?_, logged := nofun
      tlsNodup := hindexes ▸ List.nodup_nil, tlsSet := by rw [hindexes]; nofun, tlsImage := ?_ }
  · rw [ids_initial]
    exact (List.append_nil _).symm ▸ List.nodup_range
  · intro id
    rw [ids_initial]
    exact (List.append_nil (List.range builtIn.length)).symm ▸ List.mem_range
  · intro m hm
    obtain ⟨b, id, rfl⟩ := mem_initial hm
    exact ⟨List.nodup_nil, nofun⟩
  · intro m hm hcounted
    obtain ⟨b, id, rfl⟩ := mem_initial hm
    cases hcounted
  · intro m hm hindex
    obtain ⟨b, id, rfl⟩ := mem_initial hm
    cases hindex

end State

/-! ## Accounts -/

/-- What a call finds when it begins. -/
structure Account where
  /-- References that the call does not account for. -/
  base : Nat → Int
  /-- TLS indexes that belong to no module. -/
  tls : Finset Nat
  /-- The modules on the list. -/
  original : List Module
  /-- Modules that are registered later bear this id or a later one. -/
  firstNew : Nat

/-- The references that are out. -/
def Account.owed (a : Account) (s : State) (held : List Nat) (id : Nat) : Int :=
  a.base id + s.dependencies.count id + s.kept.count id + held.count id

theorem Account.owed_cons (a : Account) (s : State) (held : List Nat)
    (i id : Nat) : a.owed s (i :: held) id = a.owed s held id + if i = id then 1 else 0 := by
  simp only [Account.owed, List.count_cons, beq_iff_eq]
  split
  · push_cast; omega
  · push_cast; omega

/-- The books are in order while the references of `held` are in hand. -/
structure Accounted (a : Account) (s : State) (held : List Nat) : Prop where
  wf : s.WellFormed
  exact : ∀ m ∈ s.modules, m.counted = true →
    m.loadCount + s.missed.count m.id = a.owed s held m.id
  absent : ∀ id, id ∉ s.ids → a.owed s held id ≤ s.missed.count id
  held : ∀ id ∈ held, id < s.nextId
  base : ∀ id, s.nextId ≤ id → a.base id = 0
  tls : ∀ index, index ∈ s.tlsBitmap ↔ index ∈ a.tls ∨ index ∈ s.tlsIndexes
  tlsFree : ∀ index ∈ s.tlsIndexes, index ∉ a.tls
  /-- Of the modules there were, those still on the list differ in their load counts only. -/
  original : ((s.shape.filter (·.id < a.firstNew)).Sublist (a.original.map Module.sansCount))
  firstNew : a.firstNew ≤ s.nextId
  new : ∀ m ∈ s.modules, a.firstNew ≤ m.id → m.counted = true

namespace Accounted

variable {a : Account} {s : State} {held held' : List Nat}

/-- Only the number of references in hand counts. -/
theorem perm (h : Accounted a s held) (hperm : held.Perm held') : Accounted a s held' := by
  have howed : a.owed s held = a.owed s held' := by
    funext id
    simp only [Account.owed, hperm.count_eq]
  exact { h with
    exact := howed ▸ h.exact
    absent := howed ▸ h.absent
    held := fun id hid => h.held id (hperm.mem_iff.mpr hid) }

/-- Load counts change, and the log of missed references. -/
theorem recount {s' : State} (h : Accounted a s held) (hshape : s'.shape = s.shape)
    (htls : s'.tlsBitmap = s.tlsBitmap) (hnext : s'.nextId = s.nextId)
    (hunregistered : s'.unregistered = s.unregistered) (hkept : s'.kept = s.kept)
    (hlogged : ∀ id ∈ s'.missed, id < s.nextId) (hheld : ∀ id ∈ held', id < s.nextId)
    (hexact : ∀ m ∈ s'.modules, m.counted = true →
      1 ≤ m.loadCount ∧ m.loadCount + s'.missed.count m.id = a.owed s held' m.id)
    (habsent : ∀ id, id ∉ s.ids → a.owed s held' id ≤ s'.missed.count id) :
    Accounted a s' held' := by
  have hids : s'.ids = s.ids := by rw [State.ids_eq_shape, State.ids_eq_shape, hshape]
  have hdependencies : s'.dependencies = s.dependencies := by
    rw [State.dependencies_eq_shape, State.dependencies_eq_shape, hshape]
  have hindexes : s'.tlsIndexes = s.tlsIndexes := by
    rw [State.tlsIndexes_eq_shape, State.tlsIndexes_eq_shape, hshape]
  have howed : a.owed s' held' = a.owed s held' := by
    funext id
    simp only [Account.owed, hdependencies, hkept]
  -- modules that differ in their counts alone
  have hrecord : ∀ m ∈ s'.modules, ∃ n ∈ s.modules, n.sansCount = m.sansCount := by
    intro m hm
    have hmem : m.sansCount ∈ s.shape := hshape ▸ List.mem_map_of_mem hm
    exact List.mem_map.mp hmem
  have hsame : ∀ {m n : Module}, n.sansCount = m.sansCount → n.id = m.id ∧
      n.dependencyList = m.dependencyList ∧ n.tlsIndex = m.tlsIndex ∧ n.image = m.image ∧
      n.counted = m.counted := by
    intro m n h
    refine ⟨?_, ?_, ?_, ?_, ?_⟩
    · rw [← n.sansCount_id, h, m.sansCount_id]
    · rw [← n.sansCount_dependencyList, h, m.sansCount_dependencyList]
    · rw [← n.sansCount_tlsIndex, h, m.sansCount_tlsIndex]
    · rw [← n.sansCount_image, h, m.sansCount_image]
    · rw [← n.sansCount_counted, h, m.sansCount_counted]
  refine
    { wf :=
        { nodup := by rw [hids, hunregistered]; exact h.wf.nodup
          issued := by rw [hids, hunregistered, hnext]; exact h.wf.issued
          earlier := ?_
          referenced := fun m hm hcounted => (hexact m hm hcounted).1
          logged := ?_
          tlsNodup := hindexes ▸ h.wf.tlsNodup
          tlsSet := by rw [hindexes, htls]; exact h.wf.tlsSet
          tlsImage := ?_ }
      exact := fun m hm hcounted => by rw [howed]; exact (hexact m hm hcounted).2
      absent := by rw [hids, howed]; exact habsent
      held := by rw [hnext]; exact hheld
      base := by rw [hnext]; exact h.base
      tls := by rw [hindexes, htls]; exact h.tls
      tlsFree := by rw [hindexes]; exact h.tlsFree
      original := by rw [hshape]; exact h.original
      firstNew := by rw [hnext]; exact h.firstNew
      new := ?_ }
  · intro m hm
    obtain ⟨n, hn, heq⟩ := hrecord m hm
    obtain ⟨hid, hlist, -, -, -⟩ := hsame heq
    rw [← hid, ← hlist]
    exact h.wf.earlier n hn
  · intro id hid
    rw [hnext]
    rcases List.mem_append.mp hid with hid | hid
    · exact h.wf.logged id (List.mem_append_left _ (hkept ▸ hid))
    · exact hlogged id hid
  · intro m hm
    obtain ⟨n, hn, heq⟩ := hrecord m hm
    obtain ⟨-, -, htlsIndex, himage, -⟩ := hsame heq
    rw [← htlsIndex, ← himage]
    exact h.wf.tlsImage n hn
  · intro m hm hnew
    obtain ⟨n, hn, heq⟩ := hrecord m hm
    obtain ⟨hid, -, -, -, hcounted⟩ := hsame heq
    rw [← hcounted]
    exact h.new n hn (by rw [hid]; exact hnew)

end Accounted

/-! ## Taking a reference -/

/-- Only a load count that is kept up changes. -/
theorem Module.reference_sansCount (m : Module) (incrementLoadCount : Bool) :
    (m.reference false incrementLoadCount).sansCount = m.sansCount := by
  simp only [Module.reference, Bool.false_eq_true, if_false]
  split
  · rfl
  · next hdynamic =>
    split
    · next hcount =>
      have hcounted : m.counted = true := by
        simp only [Bool.and_eq_true] at hcount
        simp only [Module.counted, Bool.and_eq_true]
        exact ⟨by simpa using hdynamic, hcount.1.2⟩
      simp only [Module.sansCount, Module.counted, Module.hasUnregistrable] at hcounted ⊢
      simp only [hcounted, if_true]
    · rfl

/-- The load count goes up by one unless it is at `MAXLONG`. -/
theorem Module.reference_loadCount {m : Module} (h : m.counted = true) :
    (m.reference false true).loadCount = m.loadCount + if m.saturated then 0 else 1 := by
  obtain ⟨hdynamic, hpinned⟩ := Bool.and_eq_true_iff.mp h
  simp only [Bool.not_eq_true'] at hpinned
  simp only [Module.reference, Module.saturated, h, hdynamic]
  by_cases hlt : m.loadCount < maxLong
  · simp [hlt, hpinned]
  · simp [hlt]

theorem State.shape_update {s : State} (id : Nat) {f : Module → Module}
    (hf : ∀ m ∈ s.modules, m.id = id → (f m).sansCount = m.sansCount) :
    (s.update id f).shape = s.shape := by
  simp only [State.shape, State.update, List.map_map]
  refine List.map_congr_left fun m hm => ?_
  simp only [Function.comp_apply]
  split
  · next hid => exact hf m hm hid
  · rfl

/-- A record after the change of one record. -/
theorem State.mem_update {s : State} {id : Nat} {f : Module → Module} {m : Module}
    (h : m ∈ (s.update id f).modules) :
    ∃ n ∈ s.modules, m = if n.id = id then f n else n := by
  obtain ⟨n, hn, rfl⟩ := List.mem_map.mp h
  exact ⟨n, hn, rfl⟩

namespace Accounted

variable {a : Account} {s : State} {held : List Nat}

/-- The reference that has been taken is in hand. -/
theorem reference (h : Accounted a s held) {m : Module} (hm : m ∈ s.modules) :
    Accounted a (s.referenceModuleLocked m.id false true) (m.id :: held) := by
  have hget : s.get m.id = some m := h.wf.get_of_mem hm
  have hmissed : (s.referenceModuleLocked m.id false true).missed =
      if m.saturated then m.id :: s.missed else s.missed := by
    simp only [State.referenceModuleLocked, hget, Option.any_some, Bool.not_false, Bool.true_and]
  have hlt : m.id < s.nextId := h.wf.id_lt hm
  refine h.recount (State.shape_update m.id fun n _ _ => n.reference_sansCount true) rfl rfl rfl rfl
    ?_ ?_ ?_ ?_
  · intro id hid
    rw [hmissed] at hid
    split at hid
    · rcases List.mem_cons.mp hid with rfl | hid
      · exact hlt
      · exact h.wf.logged id (List.mem_append_right _ hid)
    · exact h.wf.logged id (List.mem_append_right _ hid)
  · intro id hid
    rcases List.mem_cons.mp hid with rfl | hid
    · exact hlt
    · exact h.held id hid
  · intro n' hn' hcounted
    obtain ⟨n, hn, rfl⟩ := State.mem_update hn'
    rw [hmissed, a.owed_cons]
    by_cases hid : n.id = m.id
    · obtain rfl := h.wf.eq_of_id hn hm hid
      rw [if_pos rfl] at hcounted ⊢
      have hsame := n.reference_sansCount true
      have hcounted' : n.counted = true := by
        rw [← Module.sansCount_counted, ← hsame, Module.sansCount_counted]; exact hcounted
      have hid' : (n.reference false true).id = n.id := by
        rw [← Module.sansCount_id, hsame, Module.sansCount_id]
      have hexact := h.exact n hn hcounted'
      have hone := h.wf.referenced n hn hcounted'
      rw [hid', Module.reference_loadCount hcounted', if_pos rfl]
      split
      · simp only [List.count_cons_self]; omega
      · omega
    · rw [if_neg hid] at hcounted ⊢
      have hexact := h.exact n hn hcounted
      have hone := h.wf.referenced n hn hcounted
      rw [if_neg (Ne.symm hid)]
      split
      · rw [List.count_cons_of_ne (Ne.symm hid)]; omega
      · omega
  · intro id hid
    have hne : m.id ≠ id := fun heq => hid (State.mem_ids.mpr ⟨m, hm, heq⟩)
    have hle := h.absent id hid
    rw [hmissed, a.owed_cons, if_neg hne]
    split
    · rw [List.count_cons_of_ne hne]; omega
    · omega

end Accounted

/-! ## Dropping a reference -/

namespace State

variable {s : State} {m : Module}

/-- The list with the module in front of what is left without it. -/
theorem WellFormed.perm_remove (h : s.WellFormed) (hm : m ∈ s.modules) :
    s.modules.Perm (m :: (s.remove m.id).modules) := by
  have hnodup : s.modules.Nodup := h.ids_nodup.of_map _
  have herase : (s.remove m.id).modules = s.modules.erase m := by
    rw [hnodup.erase_eq_filter]
    refine List.filter_congr fun n hn => ?_
    by_cases heq : n = m
    · subst heq; simp
    · have hid : n.id ≠ m.id := fun hid => heq (h.eq_of_id hn hm hid)
      simp [heq, hid]
  rw [herase]
  exact List.perm_cons_erase hm

@[simp] theorem freeImage_modules : (s.freeImage m).modules = s.modules := by
  unfold freeImage uninitializeModuleTls
  split
  · split <;> rfl
  · rfl

@[simp] theorem freeImage_nextId : (s.freeImage m).nextId = s.nextId := by
  unfold freeImage uninitializeModuleTls
  split
  · split <;> rfl
  · rfl

@[simp] theorem freeImage_unregistered : (s.freeImage m).unregistered = s.unregistered := by
  unfold freeImage uninitializeModuleTls
  split
  · split <;> rfl
  · rfl

@[simp] theorem freeImage_kept : (s.freeImage m).kept = s.kept := by
  unfold freeImage uninitializeModuleTls
  split
  · split <;> rfl
  · rfl

@[simp] theorem freeImage_missed : (s.freeImage m).missed = s.missed := by
  unfold freeImage uninitializeModuleTls
  split
  · split <;> rfl
  · rfl

/-- The index of the module is free again. -/
theorem freeImage_tlsBitmap (himage : m.tlsIndex.isSome → m.image.isSome) (index : Nat) :
    index ∈ (s.freeImage m).tlsBitmap ↔ index ∈ s.tlsBitmap ∧ m.tlsIndex ≠ some index := by
  unfold freeImage uninitializeModuleTls
  cases hindex : m.tlsIndex with
  | none => simp
  | some i =>
    rw [hindex] at himage
    rw [if_pos (himage rfl)]
    simp only [Finset.mem_erase, ne_eq, Option.some.injEq]
    exact ⟨fun h => ⟨h.2, Ne.symm h.1⟩, fun h => ⟨Ne.symm h.2, h.1⟩⟩

end State

namespace Accounted

variable {a : Account} {s : State} {held : List Nat} {m : Module}

/-- A reference to a module that is not counted, or not there any more, is dropped for nothing. -/
theorem forget {id : Nat} (h : Accounted a s (id :: held))
    (hno : ∀ m ∈ s.modules, m.id = id → m.counted = false) : Accounted a s held := by
  refine { h with exact := ?_, absent := ?_, held := ?_ }
  · intro m hm hcounted
    have hne : id ≠ m.id := by
      rintro rfl
      rw [hno m hm rfl] at hcounted
      exact Bool.false_ne_true hcounted
    have hexact := h.exact m hm hcounted
    rw [Account.owed_cons, if_neg hne] at hexact
    omega
  · intro i hi
    have hle := h.absent i hi
    rw [Account.owed_cons] at hle
    split at hle <;> omega
  · exact fun i hi => h.held i (List.mem_cons_of_mem _ hi)

/-- One of several references is dropped. -/
theorem dereference (h : Accounted a s (m.id :: held)) (hm : m ∈ s.modules)
    (hcounted : m.counted = true) (hmany : m.loadCount > 1) :
    Accounted a (s.update m.id fun m => { m with loadCount := m.loadCount - 1 }) held := by
  have hshape : (s.update m.id fun m => { m with loadCount := m.loadCount - 1 }).shape = s.shape := by
    refine State.shape_update m.id fun n hn hid => ?_
    rw [h.wf.eq_of_id hn hm hid]
    simp only [Module.sansCount, Module.counted, Module.hasUnregistrable] at hcounted ⊢
    simp only [hcounted, if_true]
  refine h.recount hshape rfl rfl rfl rfl
    (fun id hid => h.wf.logged id (List.mem_append_right _ hid))
    (fun id hid => h.held id (List.mem_cons_of_mem _ hid)) ?_ ?_
  · intro n' hn' hcounted'
    obtain ⟨n, hn, rfl⟩ := State.mem_update hn'
    by_cases hid : n.id = m.id
    · obtain rfl := h.wf.eq_of_id hn hm hid
      have hexact := h.exact n hn hcounted
      rw [Account.owed_cons, if_pos rfl] at hexact
      rw [if_pos rfl]
      show 1 ≤ n.loadCount - 1 ∧ n.loadCount - 1 + s.missed.count n.id = a.owed s held n.id
      omega
    · rw [if_neg hid] at hcounted' ⊢
      have hexact := h.exact n hn hcounted'
      have hone := h.wf.referenced n hn hcounted'
      rw [Account.owed_cons, if_neg (Ne.symm hid)] at hexact
      exact ⟨hone, by
        show n.loadCount + s.missed.count n.id = a.owed s held n.id
        omega⟩
  · intro id hid
    have hle := h.absent id hid
    rw [Account.owed_cons] at hle
    show a.owed s held id ≤ s.missed.count id
    split at hle <;> omega

/-- With its last reference a module leaves the list, and its dependencies are in hand. -/
theorem retire (h : Accounted a s (m.id :: held)) (hm : m ∈ s.modules)
    (hcounted : m.counted = true) (hlast : ¬ m.loadCount > 1) :
    Accounted a ((s.remove m.id).freeImage m) (m.dependencyList ++ held) := by
  have hperm := h.wf.perm_remove hm
  have hids : s.ids.Perm (m.id :: (s.remove m.id).ids) := hperm.map _
  have hdependencies : s.dependencies.Perm (m.dependencyList ++ (s.remove m.id).dependencies) :=
    hperm.flatMap_right _
  have htls : s.tlsIndexes.Perm (m.tlsIndex.toList ++ (s.remove m.id).tlsIndexes) := by
    refine (hperm.filterMap _).trans (List.Perm.of_eq ?_)
    simp only [State.tlsIndexes, List.filterMap_cons]
    cases m.tlsIndex <;> rfl
  have hmem : ∀ n, n ∈ (s.remove m.id).modules → n ∈ s.modules ∧ n.id ≠ m.id := by
    intro n hn
    have hn' := List.mem_filter.mp hn
    exact ⟨hn'.1, by simpa using hn'.2⟩
  have hone := h.wf.referenced m hm hcounted
  have hexact := h.exact m hm hcounted
  -- What the module refers to is in hand now instead of recorded.
  have howed : ∀ id, a.owed ((s.remove m.id).freeImage m) (m.dependencyList ++ held) id =
      a.owed s held id := by
    intro id
    have hcount := hdependencies.count_eq id
    rw [List.count_append] at hcount
    simp only [Account.owed, State.dependencies, State.freeImage_modules, State.freeImage_kept,
      List.count_append] at hcount ⊢
    simp only [State.remove] at hcount ⊢
    omega
  -- the number goes over to those that have been unregistered
  have hall : (s.ids ++ s.unregistered).Perm
      ((s.remove m.id).ids ++ m.id :: s.unregistered) :=
    (hids.append_right _).trans List.perm_middle.symm
  have hindex : ∀ index, index ∈ s.tlsIndexes ↔
      m.tlsIndex = some index ∨ index ∈ (s.remove m.id).tlsIndexes := by
    intro index
    rw [htls.mem_iff, List.mem_append, Option.mem_toList]
  have hown : ∀ index, index ∈ (s.remove m.id).tlsIndexes → m.tlsIndex ≠ some index := by
    intro index hin heq
    have hnodup := htls.nodup_iff.mp h.wf.tlsNodup
    exact (List.nodup_append.mp hnodup).2.2 index (by simp [heq]) index hin rfl
  have hbitmap := fun index => State.freeImage_tlsBitmap (s := s.remove m.id)
    (h.wf.tlsImage m hm) index
  have hids' : ((s.remove m.id).freeImage m).ids = (s.remove m.id).ids := by
    simp only [State.ids, State.freeImage_modules]
  have hindexes' : ((s.remove m.id).freeImage m).tlsIndexes = (s.remove m.id).tlsIndexes := by
    simp only [State.tlsIndexes, State.freeImage_modules]
  refine
    { wf :=
        { nodup := ?_, issued := ?_, earlier := ?_, referenced := ?_, logged := ?_
          tlsNodup := ?_, tlsSet := ?_, tlsImage := ?_ }
      exact := ?_, absent := ?_, held := ?_, base := ?_, tls := ?_, tlsFree := ?_
      original := ?_, firstNew := ?_, new := ?_ }
  · rw [hids', State.freeImage_unregistered]
    exact hall.nodup_iff.mp h.wf.nodup
  · intro id
    rw [hids', State.freeImage_unregistered, State.freeImage_nextId]
    exact hall.mem_iff.symm.trans (h.wf.issued id)
  · rw [State.freeImage_modules]
    exact fun n hn => h.wf.earlier n (hmem n hn).1
  · rw [State.freeImage_modules]
    exact fun n hn => h.wf.referenced n (hmem n hn).1
  · rw [State.freeImage_kept, State.freeImage_missed, State.freeImage_nextId]
    exact h.wf.logged
  · rw [hindexes']
    exact (List.nodup_append.mp (htls.nodup_iff.mp h.wf.tlsNodup)).2.1
  · intro index hin
    rw [hindexes'] at hin
    exact (hbitmap index).mpr ⟨h.wf.tlsSet index ((hindex index).mpr (.inr hin)), hown index hin⟩
  · rw [State.freeImage_modules]
    exact fun n hn => h.wf.tlsImage n (hmem n hn).1
  · intro n hn hn'
    rw [State.freeImage_modules] at hn
    obtain ⟨hns, hne⟩ := hmem n hn
    have hexact' := h.exact n hns hn'
    rw [Account.owed_cons, if_neg (Ne.symm hne), Int.add_zero] at hexact'
    rw [howed, State.freeImage_missed]
    exact hexact'
  · intro id hid
    rw [howed, State.freeImage_missed]
    show a.owed s held id ≤ s.missed.count id
    rw [hids'] at hid
    by_cases heq : m.id = id
    · subst heq
      -- The last reference was the one in hand.
      rw [Account.owed_cons, if_pos rfl] at hexact
      omega
    · have hle := h.absent id fun hin => by
        rcases List.mem_cons.mp (hids.mem_iff.mp hin) with heq' | hin
        · exact heq heq'.symm
        · exact hid hin
      rw [Account.owed_cons, if_neg heq] at hle
      omega
  · intro id hid
    rw [State.freeImage_nextId]
    show id < s.nextId
    rcases List.mem_append.mp hid with hid | hid
    · exact lt_trans ((h.wf.earlier m hm).2 id hid) (h.wf.id_lt hm)
    · exact h.held id (List.mem_cons_of_mem _ hid)
  · rw [State.freeImage_nextId]
    exact h.base
  · intro index
    rw [hbitmap index, hindexes']
    show index ∈ s.tlsBitmap ∧ _ ↔ _
    rw [h.tls index, hindex index]
    constructor
    · rintro ⟨hfixed | hmine | hother, hne⟩
      · exact .inl hfixed
      · exact absurd hmine hne
      · exact .inr hother
    · rintro (hfixed | hother)
      · refine ⟨.inl hfixed, fun hmine => ?_⟩
        exact h.tlsFree index ((hindex index).mpr (.inl hmine)) hfixed
      · exact ⟨.inr (.inr hother), hown index hother⟩
  · rw [hindexes']
    exact fun index hin => h.tlsFree index ((hindex index).mpr (.inr hin))
  · refine List.Sublist.trans (List.Sublist.filter _ ?_) h.original
    simp only [State.shape, State.freeImage_modules, State.remove]
    exact List.filter_sublist.map _
  · rw [State.freeImage_nextId]
    exact h.firstNew
  · rw [State.freeImage_modules]
    exact fun n hn => h.new n (hmem n hn).1

end Accounted

/-! ## Unloading -/

namespace State

variable {s : State}

theorem length_remove_lt {m : Module} (hm : m ∈ s.modules) :
    (s.remove m.id).modules.length < s.modules.length := by
  refine List.length_filter_lt_length_iff_exists.mpr ⟨m, hm, ?_⟩
  simp

theorem length_update (id : Nat) (f : Module → Module) :
    (s.update id f).modules.length = s.modules.length := List.length_map _

theorem mem_of_handle {handle : Handle} {m : Module} (h : s.getModuleByHandle handle = some m) :
    m ∈ s.modules ∧ handle = .module m.id := by
  cases handle with
  | imageBase => cases h
  | module id =>
    obtain ⟨hm, rfl⟩ := get_some h
    exact ⟨hm, rfl⟩

/-- Unloading puts nothing on the list. -/
theorem length_unloadWithin (n : Nat) (s : State) (handle : Handle) :
    (unloadWithin n s handle).modules.length ≤ s.modules.length := by
  induction n generalizing s handle with
  | zero => exact le_rfl
  | succ n ih =>
    have hfold : ∀ (l : List Nat) (s : State),
        (l.foldr (fun id s => unloadWithin n s (.module id)) s).modules.length ≤
          s.modules.length := by
      intro l s
      induction l with
      | nil => exact le_rfl
      | cons id l ihl => exact (ih _ _).trans ihl
    unfold unloadWithin
    split
    · exact le_rfl
    · next m hm =>
      split
      · split
        · exact (length_update _ _).le
        · refine (hfold _ _).trans ?_
          rw [freeImage_modules]
          exact (length_remove_lt (mem_of_handle hm).1).le
      · exact le_rfl

theorem unloadWithin_nil (n : Nat) (handle : Handle) (h : s.modules.length ≤ 0) :
    unloadWithin n s handle = s := by
  have hnil : s.modules = [] := List.eq_nil_of_length_eq_zero (Nat.le_zero.mp h)
  have hnone : s.getModuleByHandle handle = none := by
    cases handle with
    | imageBase => rfl
    | module id => simp only [getModuleByHandle, get, hnil, List.find?_nil]
  cases n with
  | zero => rfl
  | succ n => simp only [unloadWithin, hnone]

/-- The depth allowed does not matter once it is the length of the list. -/
theorem unloadWithin_congr (n k : Nat) (s : State) (handle : Handle) (hn : s.modules.length ≤ n)
    (hk : s.modules.length ≤ k) : unloadWithin n s handle = unloadWithin k s handle := by
  induction n generalizing k s handle with
  | zero => rw [unloadWithin_nil k handle hn]; rfl
  | succ n ih =>
    cases k with
    | zero => rw [unloadWithin_nil (n + 1) handle hk]; rfl
    | succ k =>
      have hfold : ∀ (l : List Nat) (s : State), s.modules.length ≤ n → s.modules.length ≤ k →
          l.foldr (fun id s => unloadWithin n s (.module id)) s =
            l.foldr (fun id s => unloadWithin k s (.module id)) s ∧
          (l.foldr (fun id s => unloadWithin k s (.module id)) s).modules.length ≤
            s.modules.length := by
        intro l s hn hk
        induction l with
        | nil => exact ⟨rfl, le_rfl⟩
        | cons id l ihl =>
          obtain ⟨heq, hlen⟩ := ihl
          constructor
          · simp only [List.foldr_cons, heq]
            exact ih k _ _ (hlen.trans hn) (hlen.trans hk)
          · exact (length_unloadWithin _ _ _).trans hlen
      unfold unloadWithin
      split
      · rfl
      · next m hm =>
        have hlt := length_remove_lt (mem_of_handle hm).1
        split
        · split
          · rfl
          · refine (hfold _ _ ?_ ?_).1
            · rw [freeImage_modules]; omega
            · rw [freeImage_modules]; omega
        · rfl

theorem length_unloadDll (s : State) (handle : Handle) :
    (s.unloadDll handle).modules.length ≤ s.modules.length := length_unloadWithin _ _ _

/-- Within a list that is long enough the release of the dependencies is that of the code. -/
theorem foldr_unloadWithin (n : Nat) (dependencyList : List Nat) (hn : s.modules.length ≤ n) :
    dependencyList.foldr (fun id s => unloadWithin n s (.module id)) s =
        s.releaseModuleDependencies dependencyList ∧
      (s.releaseModuleDependencies dependencyList).modules.length ≤ s.modules.length := by
  induction dependencyList with
  | nil => exact ⟨rfl, le_rfl⟩
  | cons id l ih =>
    obtain ⟨heq, hlen⟩ := ih
    constructor
    · simp only [List.foldr_cons, releaseModuleDependencies] at heq ⊢
      rw [heq]
      exact unloadWithin_congr _ _ _ _ (hlen.trans hn) le_rfl
    · exact (length_unloadDll _ _).trans hlen

/-- `LdkUnloadDll` as it calls itself. -/
theorem unloadDll_eq (s : State) (handle : Handle) :
    s.unloadDll handle =
      match s.getModuleByHandle handle with
      | none => s
      | some m =>
        if m.counted then
          if m.loadCount > 1 then
            s.update m.id fun m => { m with loadCount := m.loadCount - 1 }
          else ((s.remove m.id).freeImage m).releaseModuleDependencies m.dependencyList
        else s := by
  rw [unloadDll, unloadWithin_congr s.modules.length (s.modules.length + 1) s handle le_rfl
    (Nat.le_succ _)]
  unfold unloadWithin
  cases hm : s.getModuleByHandle handle with
  | none => rfl
  | some m =>
    have hlt := length_remove_lt (mem_of_handle hm).1
    refine if_congr Iff.rfl (if_congr Iff.rfl rfl (foldr_unloadWithin _ _ ?_).1) rfl
    rw [freeImage_modules]
    exact hlt.le

end State

namespace Accounted

variable {a : Account} {s : State} {held : List Nat}

/-- References that are in hand are released one by one. -/
theorem releaseAll {n : Nat}
    (ih : ∀ (s : State) (held : List Nat) (id : Nat), s.modules.length ≤ n →
      Accounted a s (id :: held) → Accounted a (s.unloadDll (.module id)) held)
    (dependencyList : List Nat) (hn : s.modules.length ≤ n)
    (h : Accounted a s (dependencyList ++ held)) :
    Accounted a (s.releaseModuleDependencies dependencyList) held := by
  induction dependencyList generalizing held with
  | nil => exact h
  | cons id l ihl =>
    have hlen := (State.foldr_unloadWithin n l hn).2
    exact ih _ _ _ (hlen.trans hn) (ihl (h.perm List.perm_middle.symm))

/-- `LdkUnloadDll` drops the reference in hand. -/
theorem unloadDll {id : Nat} (h : Accounted a s (id :: held)) :
    Accounted a (s.unloadDll (.module id)) held := by
  induction hlen : s.modules.length using Nat.strongRecOn generalizing s held id with
  | _ n ih =>
    rw [State.unloadDll_eq]
    cases hget : s.getModuleByHandle (.module id) with
    | none =>
      refine h.forget fun m hm hid => ?_
      exact absurd (State.mem_ids.mpr ⟨m, hm, hid⟩) (State.get_none hget)
    | some m =>
      obtain ⟨hm, rfl⟩ := State.get_some hget
      show Accounted a (if m.counted then _ else _) held
      split
      · next hcounted =>
        split
        · next hmany => exact h.dereference hm hcounted hmany
        · next hlast =>
          have hlt : ((s.remove m.id).freeImage m).modules.length < n := by
            rw [State.freeImage_modules, ← hlen]
            exact State.length_remove_lt hm
          exact releaseAll (fun s' held' id' hle h' => ih _ (lt_of_le_of_lt hle hlt) h' rfl)
            _ le_rfl (h.retire hm hcounted hlast)
      · next hcounted =>
        refine h.forget fun n hn hid => ?_
        rw [h.wf.eq_of_id hn hm hid]
        exact Bool.not_eq_true _ ▸ hcounted

/-- `LdkpReleaseModuleDependencies` drops all the references it is given. -/
theorem releaseModuleDependencies (dependencyList : List Nat)
    (h : Accounted a s (dependencyList ++ held)) :
    Accounted a (s.releaseModuleDependencies dependencyList) held :=
  releaseAll (fun _ _ _ _ h' => h'.unloadDll) dependencyList le_rfl h

end Accounted

/-! ## Registering a module -/

namespace State

variable {s : State}

/-- A change of the record that has been inserted last. -/
theorem update_insert (h : s.WellFormed) {m : Module} (hm : m.id = s.nextId)
    (f : Module → Module) : (s.insert m).update m.id f = s.insert (f m) := by
  have hold : s.modules.map (fun n => if n.id = m.id then f n else n) = s.modules := by
    refine (List.map_congr_left fun n hn => ?_).trans (List.map_id _)
    have hlt := h.id_lt hn
    rw [if_neg (by omega)]
    rfl
  simp only [insert, update, List.map_append, hold, List.map_cons, List.map_nil, if_pos]

end State

namespace Accounted

variable {a : Account} {s : State} {held : List Nat}

/-- A module is registered: its record takes over the references to its dependencies, and its one
reference is in hand. -/
theorem insert {m : Module} {tlsBitmap : Finset Nat} (h : Accounted a s (m.dependencyList ++ held))
    (hid : m.id = s.nextId) (hcounted : m.counted = true) (hcount : m.loadCount = 1)
    (hnodup : m.dependencyList.Nodup) (himage : m.image.isSome)
    (hset : ∀ index, index ∈ tlsBitmap ↔ m.tlsIndex = some index ∨ index ∈ s.tlsBitmap)
    (hfree : ∀ index, m.tlsIndex = some index → index ∉ s.tlsBitmap) :
    Accounted a { s.insert m with tlsBitmap := tlsBitmap } (m.id :: held) := by
  have hids : ({ s.insert m with tlsBitmap := tlsBitmap } : State).ids = s.ids ++ [m.id] := by
    simp only [State.ids, State.insert, List.map_append, List.map_cons, List.map_nil]
  have hdependencies : ({ s.insert m with tlsBitmap := tlsBitmap } : State).dependencies =
      s.dependencies ++ m.dependencyList := by
    simp only [State.dependencies, State.insert, List.flatMap_append, List.flatMap_cons,
      List.flatMap_nil, List.append_nil]
  have hindexes : ∀ index, index ∈ ({ s.insert m with tlsBitmap := tlsBitmap } : State).tlsIndexes ↔
      index ∈ s.tlsIndexes ∨ m.tlsIndex = some index := by
    intro index
    simp only [State.tlsIndexes, State.insert, List.filterMap_append, List.mem_append,
      List.mem_filterMap, List.mem_singleton, exists_eq_left]
  have howed : ∀ id, a.owed { s.insert m with tlsBitmap := tlsBitmap } (m.id :: held) id =
      a.owed s (m.dependencyList ++ held) id + if m.id = id then 1 else 0 := by
    intro id
    rw [Account.owed_cons]
    simp only [Account.owed, hdependencies, List.count_append]
    show a.base id + _ + (s.kept.count id : Int) + _ + _ = _
    push_cast
    omega
  -- numbers are given out once
  have hnew : m.id ∉ s.ids ++ s.unregistered := by
    rw [h.wf.issued, hid]
    exact lt_irrefl _
  -- Nothing refers to the new module yet.
  have hnone : a.owed s (m.dependencyList ++ held) m.id = 0 ∧ s.missed.count m.id = 0 := by
    have hcount_zero : ∀ l : List Nat, (∀ i ∈ l, i < s.nextId) → l.count m.id = 0 := by
      intro l hl
      refine List.count_eq_zero.mpr fun hin => ?_
      have hlt := hl _ hin
      omega
    have hdep : s.dependencies.count m.id = 0 := by
      refine hcount_zero _ fun i hi => ?_
      obtain ⟨n, hn, hin⟩ := List.mem_flatMap.mp hi
      exact lt_trans ((h.wf.earlier n hn).2 i hin) (h.wf.id_lt hn)
    have hkept := hcount_zero _ fun i hi => h.wf.logged i (List.mem_append_left _ hi)
    have hmissed := hcount_zero _ fun i hi => h.wf.logged i (List.mem_append_right _ hi)
    have hheld := hcount_zero _ h.held
    have hbase := h.base m.id hid.ge
    refine ⟨?_, hmissed⟩
    simp only [Account.owed, hdep, hkept, hheld, hbase]
    rfl
  have hmem : ∀ n, n ∈ ({ s.insert m with tlsBitmap := tlsBitmap } : State).modules →
      n ∈ s.modules ∨ n = m := fun n hn => by simpa [State.insert] using hn
  refine
    { wf :=
        { nodup := ?_, issued := ?_, earlier := ?_, referenced := ?_, logged := ?_
          tlsNodup := ?_, tlsSet := ?_, tlsImage := ?_ }
      exact := ?_, absent := ?_, held := ?_, base := ?_, tls := ?_, tlsFree := ?_
      original := ?_, firstNew := ?_, new := ?_ }
  · rw [hids]
    show (s.ids ++ [m.id] ++ s.unregistered).Nodup
    rw [List.append_assoc]
    exact (List.perm_middle.nodup_iff).mpr (List.nodup_cons.mpr ⟨hnew, h.wf.nodup⟩)
  · intro id
    rw [hids]
    show id ∈ s.ids ++ [m.id] ++ s.unregistered ↔ id < s.nextId + 1
    have hissued := h.wf.issued id
    rw [List.mem_append] at hissued
    rw [List.mem_append, List.mem_append, List.mem_singleton, hid]
    have hsplit : id < s.nextId + 1 ↔ id < s.nextId ∨ id = s.nextId := Nat.lt_succ_iff_lt_or_eq
    rw [hsplit, ← hissued]
    tauto
  · intro n hn
    rcases hmem n hn with hn | rfl
    · exact h.wf.earlier n hn
    · exact ⟨hnodup, fun d hd => hid ▸ h.held d (List.mem_append_left _ hd)⟩
  · intro n hn hncounted
    rcases hmem n hn with hn | rfl
    · exact h.wf.referenced n hn hncounted
    · exact hcount.ge
  · exact fun id hin => Nat.lt_succ_of_lt (h.wf.logged id hin)
  · have hold := h.wf.tlsNodup
    show ((s.modules ++ [m]).filterMap (·.tlsIndex)).Nodup
    rw [List.filterMap_append]
    refine List.nodup_append.mpr ⟨hold, ?_, ?_⟩
    · cases hindex : m.tlsIndex <;> simp [hindex]
    · rintro i hi j hj rfl
      have hmine : m.tlsIndex = some i := by simpa using hj
      exact hfree i hmine (h.wf.tlsSet i hi)
  · intro index hin
    rcases (hindexes index).mp hin with hin | hmine
    · exact (hset index).mpr (.inr (h.wf.tlsSet index hin))
    · exact (hset index).mpr (.inl hmine)
  · intro n hn hindex
    rcases hmem n hn with hn | rfl
    · exact h.wf.tlsImage n hn hindex
    · exact himage
  · intro n hn hncounted
    rw [howed]
    rcases hmem n hn with hn | rfl
    -- the modules of before have earlier numbers
    · have hne : m.id ≠ n.id := by
        have hlt := h.wf.id_lt hn
        omega
      rw [if_neg hne, Int.add_zero]
      exact h.exact n hn hncounted
    · show n.loadCount + (s.missed.count n.id : Int) = _
      rw [if_pos rfl, hnone.1, hnone.2, hcount]
      rfl
  · intro id hid'
    rw [hids, List.mem_append, List.mem_singleton, not_or] at hid'
    rw [howed, if_neg (Ne.symm hid'.2), Int.add_zero]
    exact h.absent id hid'.1
  · intro id hin
    show id < s.nextId + 1
    rcases List.mem_cons.mp hin with rfl | hin
    · omega
    · exact Nat.lt_succ_of_lt (h.held id (List.mem_append_right _ hin))
  · exact fun id hle => h.base id (Nat.le_of_succ_le hle)
  · intro index
    have hold := h.tls index
    rw [hindexes index]
    show index ∈ tlsBitmap ↔ _
    rw [hset index, hold]
    tauto
  · intro index hin hfixed
    rcases (hindexes index).mp hin with hin | hmine
    · exact h.tlsFree index hin hfixed
    · exact hfree index hmine ((h.tls index).mpr (.inl hfixed))
  · show (((s.modules ++ [m]).map Module.sansCount).filter _).Sublist _
    have hnot : ¬ m.id < a.firstNew := by
      have hle := h.firstNew
      omega
    have hlast : ([m].map Module.sansCount).filter (·.id < a.firstNew) = [] := by simp [hnot]
    rw [List.map_append, List.filter_append, hlast, List.append_nil]
    exact h.original
  · exact Nat.le_succ_of_le h.firstNew
  · intro n hn hnew'
    rcases hmem n hn with hn | rfl
    · exact h.new n hn hnew'
    · exact hcounted

/-- The number of requests so far is not in the books. -/
theorem setTick (h : Accounted a s held) (tick : Nat) : Accounted a { s with tick := tick } held :=
  { wf :=
      { nodup := h.wf.nodup, issued := h.wf.issued, earlier := h.wf.earlier
        referenced := h.wf.referenced, logged := h.wf.logged, tlsNodup := h.wf.tlsNodup
        tlsSet := h.wf.tlsSet, tlsImage := h.wf.tlsImage }
    exact := h.exact, absent := h.absent, held := h.held, base := h.base, tls := h.tls
    tlsFree := h.tlsFree, original := h.original, firstNew := h.firstNew, new := h.new }

end Accounted

end Ldk.Loader
