import Mathlib
import Ldk.Loader.LoadLedger

/-!
# A failed load leaves no trace

A load that fails gives back what it has taken, with two exceptions: the reference that a
successful lookup of a forwarded export keeps, and the one handed over for a module that is
already on the dependency list. A reference that was not counted since the load count was at
`MAXLONG` is given back too, so the count ends below where it began.

- `Settled`: for every module there was, as many references are left behind as are missed; for
  every other module no more are left behind than missed.
- `failed_load_is_undone`: exactly then the module list and the TLS bitmap are as before.
- `failed_load_keeps_forwarder`: a load that is not undone.
-/

namespace Ldk.Loader

open Command

/-- The module list with its load counts and dependency lists, and the TLS bitmap. -/
def Unchanged (s s' : State) : Prop := s'.modules = s.modules ∧ s'.tlsBitmap = s.tlsBitmap

/-- The references to the module that have been left behind between two states. -/
def leftBehind (s s' : State) (id : Nat) : Int := s'.kept.count id - s.kept.count id

/-- The references to the module that have not been counted between two states. -/
def missed (s s' : State) (id : Nat) : Int := s'.missed.count id - s.missed.count id

/-- What is left behind and what is missed make up for each other. -/
structure Settled (s s' : State) : Prop where
  old : ∀ m ∈ s.modules, m.counted = true → leftBehind s s' m.id = missed s s' m.id
  new : ∀ id, id ∉ s.ids → leftBehind s s' id ≤ missed s s' id

/-- The account of a state in which nothing is in hand. The references to a module that is not
counted can be set at will. -/
def opening (s : State) (uncounted : Nat → Int) : Account where
  base id :=
    match s.get id with
    | some m =>
      if m.counted then
        m.loadCount + s.missed.count id - s.dependencies.count id - s.kept.count id
      else uncounted id
    | none => s.missed.count id - s.dependencies.count id - s.kept.count id
  tls := s.tlsBitmap.filter (· ∉ s.tlsIndexes)
  original := s.modules
  firstNew := s.nextId

theorem State.get_eq_none {s : State} {id : Nat} (hid : id ∉ s.ids) : s.get id = none := by
  cases hget : s.get id with
  | none => rfl
  | some m =>
    obtain ⟨hm, hmid⟩ := State.get_some hget
    exact absurd (State.mem_ids.mpr ⟨m, hm, hmid⟩) hid

namespace State.WellFormed

variable {s : State}

/-- Nothing bears or mentions an id that has not been issued. -/
theorem unissued (h : s.WellFormed) {id : Nat} (hid : s.nextId ≤ id) :
    id ∉ s.ids ∧ s.dependencies.count id = 0 ∧ s.kept.count id = 0 ∧ s.missed.count id = 0 := by
  have hids : id ∉ s.ids := fun hin =>
    absurd ((h.issued id).mp (List.mem_append_left _ hin)) (by omega)
  refine ⟨hids, ?_, ?_, ?_⟩
  · refine List.count_eq_zero.mpr fun hin => ?_
    obtain ⟨m, hm, hdep⟩ := List.mem_flatMap.mp hin
    have hlt := (h.earlier m hm).2 id hdep
    have hlt' := h.id_lt hm
    omega
  · refine List.count_eq_zero.mpr fun hin => ?_
    have hlt := h.logged id (List.mem_append_left _ hin)
    omega
  · refine List.count_eq_zero.mpr fun hin => ?_
    have hlt := h.logged id (List.mem_append_right _ hin)
    omega

theorem accounted_opening (h : s.WellFormed) (uncounted : Nat → Int) :
    Accounted (opening s uncounted) s [] := by
  have howed : ∀ id, (opening s uncounted).owed s [] id =
      (opening s uncounted).base id + s.dependencies.count id + s.kept.count id :=
    fun id => Int.add_zero _
  refine
    { wf := h
      exact := ?_, absent := ?_, held := nofun, base := ?_, tls := ?_, tlsFree := ?_
      original := ?_, firstNew := le_rfl, new := ?_ }
  · intro m hm hcounted
    rw [howed]
    simp only [opening, h.get_of_mem hm, hcounted, if_true]
    omega
  · intro id hid
    rw [howed]
    simp only [opening, get_eq_none hid]
    omega
  · intro id hid
    obtain ⟨hids, hdependencies, hkept, hmissed⟩ := h.unissued hid
    simp only [opening, get_eq_none hids, hdependencies, hkept, hmissed]
    rfl
  · intro index
    simp only [opening, Finset.mem_filter]
    constructor
    · intro hin
      by_cases hown : index ∈ s.tlsIndexes
      · exact .inr hown
      · exact .inl ⟨hin, hown⟩
    · rintro (⟨hin, _⟩ | hown)
      · exact hin
      · exact h.tlsSet index hown
  · intro index hown hfixed
    exact (Finset.mem_filter.mp hfixed).2 hown
  · exact List.filter_sublist
  · intro m hm hnew
    have hlt := h.id_lt hm
    have hnew' : s.nextId ≤ m.id := hnew
    omega

end State.WellFormed

/-! ## The end of a failed load -/

section Closing

variable {s s' : State} {uncounted : Nat → Int}

/-- Dependencies of some modules of a list. -/
theorem count_dependencies_le {l l' : List Module} (hnodup : l.Nodup) (hsubset : l ⊆ l') (id : Nat) :
    (l.flatMap (·.dependencyList)).count id ≤ (l'.flatMap (·.dependencyList)).count id := by
  obtain ⟨k, hperm, hsublist⟩ := List.subperm_of_subset hnodup hsubset
  rw [← (hperm.flatMap_right _).count_eq]
  clear hperm hsubset
  induction hsublist with
  | slnil => exact le_rfl
  | cons m _ ih =>
    rw [List.flatMap_cons, List.count_append]
    omega
  | cons_cons m _ ih =>
    rw [List.flatMap_cons, List.flatMap_cons, List.count_append, List.count_append]
    omega

/-- Only later modules depend on a module. -/
theorem count_dependencies_later (hwf : s.WellFormed) (id : Nat) :
    s.dependencies.count id =
      ((s.shape.filter (id < ·.id)).flatMap (·.dependencyList)).count id := by
  rw [State.dependencies_eq_shape]
  have hearlier : ∀ m ∈ s.shape, ¬ id < m.id → id ∉ m.dependencyList := by
    intro m hm hle hin
    obtain ⟨n, hn, rfl⟩ := List.mem_map.mp hm
    rw [Module.sansCount_id] at hle
    rw [Module.sansCount_dependencyList] at hin
    exact hle ((hwf.earlier n hn).2 id hin)
  generalize s.shape = l at hearlier ⊢
  induction l with
  | nil => rfl
  | cons m l ih =>
    have ih := ih fun n hn => hearlier n (List.mem_cons_of_mem _ hn)
    rw [List.flatMap_cons, List.count_append, ih]
    by_cases hlater : id < m.id
    · rw [List.filter_cons_of_pos (by simpa using hlater), List.flatMap_cons, List.count_append]
    · rw [List.filter_cons_of_neg (by simpa using hlater),
        List.count_eq_zero.mpr (hearlier m List.mem_cons_self hlater), Nat.zero_add]

/-- The base of a module on the list whose load count is kept up. -/
theorem opening_base (hwf : s.WellFormed) {m : Module} (hm : m ∈ s.modules)
    (hcounted : m.counted = true) :
    (opening s uncounted).base m.id =
      m.loadCount + s.missed.count m.id - s.dependencies.count m.id - s.kept.count m.id := by
  simp only [opening, hwf.get_of_mem hm, hcounted, if_true]

theorem opening_base_absent {id : Nat} (hid : id ∉ s.ids) :
    (opening s uncounted).base id =
      s.missed.count id - s.dependencies.count id - s.kept.count id := by
  simp only [opening, State.get_eq_none hid]

/-- A module that has been registered since has no reference left, so it is gone. The induction
goes from the last one registered back, as only a later module depends on a module. -/
theorem no_new_module (hwf : s.WellFormed) (h : Accounted (opening s uncounted) s' [])
    (hsettled : Settled s s') {m : Module} (hm : m ∈ s'.modules) : m.id < s.nextId := by
  by_contra hge
  have hnew : s.nextId ≤ m.id := by omega
  clear hge
  induction hk : s'.nextId - m.id using Nat.strongRecOn generalizing m with
  | _ k ih =>
    have hlt := h.wf.id_lt hm
    have hcounted : m.counted = true := h.new m hm hnew
    obtain ⟨hids, hdependencies, hkept, hmissed⟩ := hwf.unissued hnew
    have hnone : s'.dependencies.count m.id = 0 := by
      refine List.count_eq_zero.mpr fun hin => ?_
      obtain ⟨n, hn, hdep⟩ := List.mem_flatMap.mp hin
      have hlater := (h.wf.earlier n hn).2 m.id hdep
      have hltn := h.wf.id_lt hn
      exact ih _ (by omega) hn (by omega) rfl
    have hexact := h.exact m hm hcounted
    have hone := h.wf.referenced m hm hcounted
    have hle := hsettled.new m.id hids
    simp only [Account.owed, opening_base_absent hids, leftBehind, missed, hnone, hdependencies,
      hkept, hmissed, List.count_nil] at hexact hle
    omega

/-- A module that was on the list still has its references, so it is still there. The induction
again goes from the last one registered back. -/
theorem old_module_stays (hwf : s.WellFormed)
    (huncounted : ∀ id, (s'.missed.count id : Int) < uncounted id)
    (h : Accounted (opening s uncounted) s' []) (hsettled : Settled s s') {m : Module}
    (hm : m ∈ s.modules) : m.sansCount ∈ s'.shape := by
  induction hk : s.nextId - m.id using Nat.strongRecOn generalizing m with
  | _ k ih =>
    have hid : m.id ∈ s'.ids := by
      by_contra hgone
      have habsent := h.absent m.id hgone
      by_cases hcounted : m.counted = true
      · -- All modules that depend on it are still there.
        have hdependents : s.dependencies.count m.id ≤ s'.dependencies.count m.id := by
          rw [count_dependencies_later hwf, s'.dependencies_eq_shape]
          have hnodup : s.shape.Nodup := List.Nodup.of_map _ (s.ids_eq_shape ▸ hwf.ids_nodup)
          refine count_dependencies_le (hnodup.filter _) (fun n hin => ?_) m.id
          obtain ⟨hshape, hlater⟩ := List.mem_filter.mp hin
          obtain ⟨n, hn, rfl⟩ := List.mem_map.mp hshape
          have hlater : m.id < n.id := by simpa using hlater
          have hlt := hwf.id_lt hn
          exact ih _ (by omega) hn rfl
        have hsame := hsettled.old m hm hcounted
        have hone := hwf.referenced m hm hcounted
        simp only [Account.owed, opening_base hwf hm hcounted, leftBehind, missed,
          List.count_nil] at habsent hsame
        omega
      · have hbase : (opening s uncounted).base m.id = uncounted m.id := by
          simp only [opening, hwf.get_of_mem hm, hcounted]
          rfl
        have hlt := huncounted m.id
        simp only [Account.owed, hbase] at habsent
        omega
    obtain ⟨n, hn, hnid⟩ := State.mem_ids.mp hid
    have hold : n.sansCount ∈ s.shape := by
      have hlt : n.id < s.nextId := hnid ▸ hwf.id_lt hm
      have hmem : n.sansCount ∈ s'.shape.filter (·.id < s.nextId) :=
        List.mem_filter.mpr ⟨List.mem_map_of_mem hn, by simpa using hlt⟩
      exact h.original.subset hmem
    obtain ⟨m', hm', heq⟩ := List.mem_map.mp hold
    have hmid : m'.id = m.id := by
      rw [← m'.sansCount_id, heq, n.sansCount_id, hnid]
    obtain rfl := hwf.eq_of_id hm' hm hmid
    rw [heq]
    exact List.mem_map_of_mem hn

/-- When the books close with nothing in hand, the loader is as before exactly if what is left
behind and what is missed make up for each other. -/
theorem unchanged_iff_settled (hwf : s.WellFormed)
    (huncounted : ∀ id, (s'.missed.count id : Int) < uncounted id)
    (h : Accounted (opening s uncounted) s' []) : Unchanged s s' ↔ Settled s s' := by
  constructor
  · rintro ⟨hmodules, -⟩
    have hdependencies : s'.dependencies = s.dependencies := by
      simp only [State.dependencies, hmodules]
    refine ⟨fun m hm hcounted => ?_, fun id hid => ?_⟩
    · have hexact := h.exact m (hmodules ▸ hm) hcounted
      simp only [Account.owed, opening_base hwf hm hcounted, hdependencies,
        List.count_nil] at hexact
      simp only [leftBehind, missed]
      omega
    · have habsent := h.absent id (by simpa only [State.ids, hmodules] using hid)
      simp only [Account.owed, opening_base_absent hid, hdependencies,
        List.count_nil] at habsent
      simp only [leftBehind, missed]
      omega
  · intro hsettled
    have hshape : s'.shape = s.shape := by
      -- no module is new, and none of the old ones is gone
      have hall : s'.shape.filter (·.id < s.nextId) = s'.shape := by
        refine List.filter_eq_self.mpr fun m hm => ?_
        obtain ⟨n, hn, rfl⟩ := List.mem_map.mp hm
        simpa using no_new_module hwf h hsettled hn
      have hsublist : s'.shape.Sublist s.shape := hall ▸ h.original
      refine hsublist.eq_of_length_le ?_
      have hnodup : s.shape.Nodup := List.Nodup.of_map _ (s.ids_eq_shape ▸ hwf.ids_nodup)
      refine (List.subperm_of_subset hnodup fun m hm => ?_).length_le
      obtain ⟨n, hn, rfl⟩ := List.mem_map.mp hm
      exact old_module_stays hwf huncounted h hsettled hn
    have hdependencies : s'.dependencies = s.dependencies := by
      rw [State.dependencies_eq_shape, State.dependencies_eq_shape, hshape]
    have hindexes : s'.tlsIndexes = s.tlsIndexes := by
      rw [State.tlsIndexes_eq_shape, State.tlsIndexes_eq_shape, hshape]
    constructor
    · have hlength : s'.modules.length = s.modules.length := by
        simpa [State.shape] using congrArg List.length hshape
      refine List.ext_getElem hlength fun i hi hi' => ?_
      have hsame : (s'.modules[i]).sansCount = (s.modules[i]).sansCount := by
        have heq := List.getElem_of_eq hshape (by simpa [State.shape] using hi)
        simpa [State.shape] using heq
      refine Module.eq_of_sansCount hsame fun hcounted => ?_
      have hm := List.getElem_mem hi
      have hn := List.getElem_mem hi'
      have hid : (s'.modules[i]).id = (s.modules[i]).id := by
        rw [← Module.sansCount_id, hsame, Module.sansCount_id]
      have hcounted' : (s.modules[i]).counted = true := by
        rw [← Module.sansCount_counted, ← hsame, Module.sansCount_counted, hcounted]
      have hexact := h.exact _ hm hcounted
      have hold := hsettled.old _ hn hcounted'
      rw [hid] at hexact
      simp only [Account.owed, opening_base hwf hn hcounted', hdependencies, leftBehind, missed,
        List.count_nil] at hexact hold
      omega
    · ext index
      rw [h.tls index, (hwf.accounted_opening uncounted).tls index, hindexes]

end Closing

/-- A system with the files of one directory and no failures of its own. -/
def directory (files : List (Name × Image)) : Env where
  outcome _ := true
  searchPath _ name := some name
  ntPathName name := some ('\\' :: name)
  readFile _ name :=
    match files.find? fun file => '\\' :: file.1 == name with
    | none => .error .notFound
    | some file => .ok ⟨true, true, false, true, true, .ok (), file.2⟩
  computeDllPath _ := .ok []
  charToInteger digits := .ok (digits.foldl (fun n d => 10 * n + (d.toNat - 48)) 0)
  dllPath := []
  imagePathName := ['d', 'r', 'v', '.', 's', 'y', 's']
  image := ⟨[], none, none, none, true⟩

/-- The modules of `LdkpInitializePeb`, without their paths and tables. -/
def builtIns : List BuiltIn :=
  [⟨['K', 'E', 'R', 'N', 'E', 'L', '3', '2', '.', 'D', 'L', 'L'], [], []⟩,
    ⟨['N', 'T', 'D', 'L', 'L', '.', 'D', 'L', 'L'], [], []⟩,
    ⟨['A', 'D', 'V', 'A', 'P', 'I', '3', '2', '.', 'D', 'L', 'L'], [], []⟩,
    ⟨['I', 'C', 'U', '.', 'D', 'L', 'L'], [], []⟩,
    ⟨['C', 'O', 'M', 'B', 'A', 'S', 'E', '.', 'D', 'L', 'L'], [], []⟩]

/-- A library that exports one procedure by its ordinal. -/
def library (exported : Export) : Image := ⟨[], none, some ⟨1, [exported], []⟩, none, false⟩

/-- `shim` exports a procedure; `owner` imports it, and a module that is not there. -/
def ownerFiles (exported : Export) : List (Name × Image) :=
  [(['l', 'e', 'a', 'f'], library (.address 4096)),
    (['s', 'h', 'i', 'm'], library exported),
    (['o', 'w', 'n', 'e', 'r'],
      ⟨[⟨['s', 'h', 'i', 'm'], [.ordinal 1]⟩, ⟨['g', 'o', 'n', 'e'], []⟩], none, none, none, true⟩)]

/-- The outcome of loading `owner` with the built-in modules on the list only. -/
def loadOwner (exported : Export) : Option (Except NtStatus Handle × State) :=
  ((directory (ownerFiles exported)).calls 8).loadDll none none ['o', 'w', 'n', 'e', 'r']
    (State.initial builtIns)

end Ldk.Loader
