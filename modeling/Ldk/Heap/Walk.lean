import Ldk.Heap.Store

/-!
# The readers of the heap list

Walking the blocks of a heap and tearing the list down, over any state that keeps the invariant.

- `World.Inv.visits`: from `NULL`, one call of `LdkWalkHeap` after another returns the live
  buffers of the heap in the order of their allocation, and then that there are no more.
- `World.Inv.terminates`: `LdkpTerminateHeapList` frees each header once.
-/

namespace Ldk.Heap

variable {env : Env} {w : World}

/-! ## Walking -/

/-- A walk from some entry on returns `entries` one by one and comes to its end. -/
inductive Visits (env : Env) (s : State) (rounds : Nat) (heapHandle : BitVec 64) :
    Option Nat → List WalkEntry → Prop where
  | finished {previousData : Option Nat}
      (h : s.walkHeap env.addressValid rounds heapHandle previousData = some .noMoreEntries) :
      Visits env s rounds heapHandle previousData []
  | visited {previousData : Option Nat} {entry : WalkEntry} {entries : List WalkEntry}
      (h : s.walkHeap env.addressValid rounds heapHandle previousData = some (.success entry))
      (hrest : Visits env s rounds heapHandle (some entry.data) entries) :
      Visits env s rounds heapHandle previousData (entry :: entries)

/-- A walk goes on from valid addresses only. -/
theorem Visits.valid {s : State} {rounds : Nat} {heapHandle : BitVec 64}
    {previousData : Option Nat} {entries : List WalkEntry}
    (h : Visits env s rounds heapHandle previousData entries) :
    (∀ data ∈ previousData, env.addressValid data = true) ∧
      ∀ entry ∈ entries, env.addressValid entry.data = true := by
  have hpointer : ∀ {previousData result},
      s.walkHeap env.addressValid rounds heapHandle previousData = some result →
      result ≠ .invalidParameter → ∀ data ∈ previousData, env.addressValid data = true := by
    intro previousData result hwalk hresult data hdata
    obtain rfl := hdata
    by_contra hinvalid
    apply hresult
    unfold State.walkHeap at hwalk
    split_ifs at hwalk with hnull
    · exact (Option.some.inj hwalk).symm
    · rw [Bool.not_eq_true] at hinvalid
      simp only [hinvalid, Bool.not_false, if_true] at hwalk
      exact (Option.some.inj hwalk).symm
  induction h with
  | finished h => exact ⟨hpointer h (by simp), by simp⟩
  | visited h _ ih =>
    refine ⟨hpointer h (by simp), ?_⟩
    intro entry hentry
    rcases List.mem_cons.mp hentry with rfl | hmem
    · exact ih.1 _ rfl
    · exact ih.2 entry hmem

/-- The entry of a buffer, as the caller knows the buffer. -/
def Buffer.entry (b : Buffer) : WalkEntry where
  data := b.address
  size := b.asked
  overhead := sizeofHeader.setWidth 8
  regionIndex := 0

/-- The buffers of a heap. -/
def World.ofHeap (w : World) (heapHandle : BitVec 64) : List Buffer :=
  w.live.filter fun b => b.heapHandle == heapHandle

/-- The node a part of the list begins with. -/
def firstNode (after : List Buffer) : Node :=
  match after with
  | [] => .listHead
  | b :: _ => b.node

theorem Buffer.Kept.walkEntry_eq {s : State} {b : Buffer} (h : b.Kept env s) :
    s.walkEntry (getHeader b.address) = b.entry := by
  rw [State.walkEntry, Buffer.entry, h.address, h.size]

namespace World.Inv

/-- The links of a live buffer lead to the next one. -/
theorem flink_node (h : w.Inv env) {before after : List Buffer} {b : Buffer}
    (hlive : w.live = before ++ b :: after) : w.store.links.flink b.node = firstNode after := by
  have hlisted := h.listed
  rw [hlive, List.map_append, List.map_cons] at hlisted
  rw [hlisted.flink_eq]
  cases after with
  | nil => rfl
  | cons b' after => rfl

theorem flink_listHead (h : w.Inv env) : w.store.links.flink .listHead = firstNode w.live := by
  rw [h.listed.flink_head]
  cases w.live with
  | nil => rfl
  | cons b after => rfl

/-- From a live buffer of the heap the walk goes on behind it. -/
theorem walkHeap_some (h : w.Inv env) {before after : List Buffer} {b : Buffer}
    (hlive : w.live = before ++ b :: after) (hheap : b.heapHandle ≠ 0) (rounds : Nat) :
    w.store.walkHeap env.addressValid rounds b.heapHandle (some b.address) =
      w.store.walkFrom b.heapHandle rounds (firstNode after) := by
  have hkept := h.kept b (hlive ▸ List.mem_append_right _ List.mem_cons_self)
  rw [State.walkHeap, if_neg hheap]
  simp only [hkept.valid hheap, hkept.header_valid, hkept.heapHandle, Bool.not_true,
    Bool.false_or, bne_self_eq_false, if_neg Bool.false_ne_true]
  exact congrArg _ (h.flink_node hlive)

/-- The walk of a heap from behind some part of the list. -/
theorem visits_from (h : w.Inv env) {heapHandle : BitVec 64} (hheap : heapHandle ≠ 0)
    {rounds turns : Nat} (hrounds : w.live.length < rounds) {before after : List Buffer}
    (hlive : w.live = before ++ after) (hturns : after.length < turns) {previousData : Option Nat}
    (hprevious : w.store.walkHeap env.addressValid rounds heapHandle previousData =
      w.store.walkFrom heapHandle turns (firstNode after)) :
    Visits env w.store rounds heapHandle previousData
      ((after.filter fun b => b.heapHandle == heapHandle).map Buffer.entry) := by
  induction after generalizing before turns previousData with
  | nil =>
    obtain ⟨turns, rfl⟩ := Nat.exists_eq_succ_of_ne_zero (Nat.ne_of_gt hturns)
    exact .finished hprevious
  | cons b after ih =>
    obtain ⟨turns, rfl⟩ := Nat.exists_eq_succ_of_ne_zero (Nat.ne_zero_of_lt hturns)
    have hnext : w.live = (before ++ [b]) ++ after := by
      rw [hlive, List.append_assoc]
      rfl
    have hkept := h.kept b (hlive ▸ List.mem_append_right _ List.mem_cons_self)
    rw [firstNode, Buffer.node, State.walkFrom, hkept.heapHandle] at hprevious
    by_cases hsame : b.heapHandle = heapHandle
    · -- the entry is returned, and the next call begins behind it
      subst hsame
      rw [if_neg (not_not.mpr rfl), hkept.walkEntry_eq] at hprevious
      simp only [List.filter_cons, beq_self_eq_true, if_true, List.map_cons]
      apply Visits.visited hprevious
      have hlength : after.length < rounds := by
        rw [hlive, List.length_append, List.length_cons] at hrounds
        omega
      exact ih hnext hlength (h.walkHeap_some hlive hheap rounds)
    · -- the loop passes over it
      rw [if_pos hsame] at hprevious
      rw [List.filter_cons_of_neg (by simpa using hsame)]
      apply ih hnext (Nat.lt_of_succ_lt_succ hturns)
      rw [hprevious]
      exact congrArg _ (h.flink_node hlive)

/-- From `NULL` the walk returns each live buffer of the heap. -/
theorem visits (h : w.Inv env) {heapHandle : BitVec 64} (hheap : heapHandle ≠ 0) {rounds : Nat}
    (hrounds : w.live.length < rounds) :
    Visits env w.store rounds heapHandle none ((w.ofHeap heapHandle).map Buffer.entry) := by
  have hall : w.live = [] ++ w.live := rfl
  apply h.visits_from hheap hrounds hall hrounds
  rw [State.walkHeap, if_neg hheap, h.flink_listHead]

end World.Inv

/-! ## Tearing the list down -/

/-- The loop frees the header in hand and all that are still in the list. -/
theorem terminateFrom_eq {s : State} {bases : List Nat} {base rounds : Nat} {freed : List Nat}
    (h : s.links.Represents .listHead (bases.map .header)) (hrounds : bases.length + 1 < rounds) :
    ∃ s', State.terminateFrom rounds (.header base) freed s = some (freed ++ base :: bases, s') ∧
      s'.links.Represents .listHead [] := by
  obtain ⟨rounds, rfl⟩ := Nat.exists_eq_succ_of_ne_zero (Nat.ne_zero_of_lt hrounds)
  induction bases generalizing base freed s rounds with
  | nil =>
    obtain ⟨rounds, rfl⟩ := Nat.exists_eq_succ_of_ne_zero (Nat.ne_zero_of_lt
      (Nat.lt_of_succ_lt_succ hrounds))
    obtain ⟨hentry, hempty⟩ := h.removeHead_nil
    refine ⟨(s.setLinks (s.links.removeHead .listHead).2).freePool base, ?_, hempty⟩
    simp only [State.terminateFrom, hentry]
  | cons next bases ih =>
    obtain ⟨rounds, rfl⟩ := Nat.exists_eq_succ_of_ne_zero (Nat.ne_zero_of_lt
      (Nat.lt_of_succ_lt_succ hrounds))
    obtain ⟨hentry, hrest⟩ := h.removeHead
    obtain ⟨s', hrun, hempty⟩ := @ih
      ((s.setLinks (s.links.removeHead .listHead).2).freePool base) next
      (freed ++ [base]) hrest rounds (Nat.lt_of_succ_lt_succ hrounds)
    refine ⟨s', ?_, hempty⟩
    simp only [State.terminateFrom, hentry, hrun, List.append_assoc, List.singleton_append]

/-- Each header is freed once, and the list is empty after it. -/
theorem World.Inv.terminates (h : w.Inv env) {rounds : Nat} (hrounds : w.live.length < rounds) :
    ∃ freed s', w.store.terminateHeapList rounds = some (freed, s') ∧
      freed.Perm (w.live.map fun b => getHeader b.address) ∧
      s'.links.Represents .listHead [] := by
  have hlisted := h.listed
  rcases List.eq_nil_or_concat w.live with hnil | ⟨others, last, hlast⟩
  · rw [hnil] at hlisted hrounds ⊢
    obtain ⟨rounds, rfl⟩ := Nat.exists_eq_succ_of_ne_zero (Nat.ne_of_gt hrounds)
    obtain ⟨hentry, hempty⟩ := hlisted.removeTail_nil
    refine ⟨[], w.store.setLinks (w.store.links.removeTail .listHead).2, ?_, .nil, hempty⟩
    simp only [State.terminateHeapList, hentry]
    rfl
  · rw [List.concat_eq_append] at hlast
    rw [hlast, List.map_append, List.map_singleton] at hlisted
    rw [hlast, List.length_append, List.length_singleton] at hrounds
    obtain ⟨hentry, hrest⟩ := hlisted.removeTail
    have hbases : others.map Buffer.node =
        (others.map fun b => getHeader b.address).map Node.header := by
      rw [List.map_map]
      rfl
    rw [hbases] at hrest
    obtain ⟨s', hrun, hempty⟩ := @terminateFrom_eq
      (w.store.setLinks (w.store.links.removeTail .listHead).2) _
      (getHeader last.address) rounds [] hrest (by rwa [List.length_map])
    refine ⟨getHeader last.address :: others.map fun b => getHeader b.address, s', ?_, ?_, hempty⟩
    · simp only [State.terminateHeapList, hentry]
      exact hrun
    · rw [hlast, List.map_append, List.map_singleton]
      exact (List.perm_append_singleton _ _).symm

end Ldk.Heap
