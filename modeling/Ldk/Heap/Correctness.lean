import Ldk.Heap.Walk

/-!
# Live buffers over runs of calls

What callers rely on, for every run of calls, and when it holds.

- `Sound`: every live buffer has room for what was asked, no two share a byte, the list has the
  live buffers, and the readers of the list see each of them once.
- `StepHolds`: a reallocation keeps what was in the old buffer, or keeps the old buffer.
- `heap_store_holds`: a run is sound all along exactly when each request that is granted a block
  fits. A sum with the size of a header that wraps, or the cast to `DWORD` in `LocalAlloc` and
  `LocalReAlloc`, gives a caller fewer bytes than it asked for.
-/

namespace Ldk.Heap

open TransitionSystem

variable {env : Env} {w : World}

/-! ## The property -/

/-- What holds between two calls. -/
structure Sound (env : Env) (w : World) : Prop where
  /-- A live buffer lies in a block of its own, with room for what was asked and for what the
  header says. -/
  usable : ∀ b ∈ w.live, ∃ block ∈ w.store.pool, block.base = getHeader b.address ∧
    getBuffer block.base = b.address ∧
    b.address + b.asked.toNat ≤ block.base + block.length ∧
    b.address + (w.store.headers block.base).size.toNat ≤ block.base + block.length
  /-- Live buffers and their headers have no byte in common. -/
  disjoint : w.live.Pairwise fun b b' => b.block.Apart b'.block
  sized : ∀ b ∈ w.live, w.store.sizeHeap b.heapHandle (some b.address) = b.asked
  listed : w.store.links.Represents .listHead (w.live.map Buffer.node)
  walks : ∀ heapHandle rounds, heapHandle ≠ 0 → w.live.length < rounds →
    Visits env w.store rounds heapHandle none ((w.ofHeap heapHandle).map Buffer.entry)
  terminates : ∀ rounds, w.live.length < rounds →
    ∃ freed s', w.store.terminateHeapList rounds = some (freed, s') ∧
      freed.Perm (w.live.map fun b => getHeader b.address) ∧ s'.links.Represents .listHead []

/-- What a reallocation of a live buffer comes to. -/
def Reallocates (w : World) (flags : BitVec 32) (asked : BitVec 64) (baseAddress : Option Nat)
    (result : Option Nat × State) : Prop :=
  ∀ address ∈ baseAddress, ∀ b ∈ w.live, b.address = address →
    match result.1 with
    | none => result.2 = w.store
    | some newBuffer =>
      (∀ i < min b.asked.toNat asked.toNat,
        result.2.bytes (newBuffer + i) = w.store.bytes (address + i)) ∧
      (flagOn flags heapZeroMemory = true → ∀ i, b.asked.toNat ≤ i → i < asked.toNat →
        result.2.bytes (newBuffer + i) = 0)

/-- What holds of a call. -/
def StepHolds (env : Env) (w : World) : Call → Prop
  | .reAllocateHeap heapHandle flags baseAddress size granted =>
    Reallocates w flags size baseAddress
      (w.store.reAllocateHeap granted heapHandle flags baseAddress size)
  | .localReAlloc hMem uBytes uFlags granted =>
    Reallocates w (heapFlags uFlags) uBytes hMem
      (w.store.localReAlloc granted env.processHeap hMem uBytes uFlags)
  | _ => True

/-- The property of a run: it is sound before, between and after the calls, and each call does
what it should. -/
def RunHolds (env : Env) : World → List Call → Prop
  | w, [] => Sound env w
  | w, c :: calls => Sound env w ∧ StepHolds env w c ∧ RunHolds env (w.next env c) calls

/-! ## The condition -/

/-- The header at an address is that of a heap. -/
def State.HeaderOf (s : State) (heapHandle : BitVec 64) (baseAddress : Option Nat) : Prop :=
  ∃ address ∈ baseAddress, (s.headers (getHeader address)).heapHandle = heapHandle

/-- A call gets as far as asking the pool: a reallocation looks at the old header first. -/
def World.Reaches (env : Env) (w : World) : Call → Prop
  | .reAllocateHeap heapHandle _ baseAddress _ _ => w.store.HeaderOf heapHandle baseAddress
  | .localReAlloc hMem _ _ _ => w.store.HeaderOf env.processHeap hMem
  | _ => True

/-- A request that is granted a block fits. -/
def Fits (env : Env) (w : World) (c : Call) : Prop :=
  ∀ r ∈ c.request env, ∀ base ∈ r.granted, tagOf r.heapHandle ≠ none → w.Reaches env c →
    r.Fits env base

theorem asDword_toNat (uBytes : BitVec 64) : (asDword uBytes).toNat = uBytes.toNat % 2 ^ 32 := by
  unfold asDword
  rw [BitVec.toNat_setWidth, BitVec.toNat_setWidth]
  omega

/-- What the heap is asked for is never more than what the caller asks for. -/
theorem request_whole {c : Call} {r : Request} (h : c.request env = some r)
    (hle : r.asked.toNat ≤ r.size.toNat) : r.size = r.asked := by
  have hcut : ∀ uBytes : BitVec 64, uBytes.toNat ≤ (asDword uBytes).toNat →
      asDword uBytes = uBytes := by
    intro uBytes hle
    apply BitVec.eq_of_toNat_eq
    rw [asDword_toNat] at hle ⊢
    omega
  cases c with
  | allocateHeap | reAllocateHeap =>
    obtain rfl := Option.some.inj h
    rfl
  | localAlloc | localReAlloc =>
    obtain rfl := Option.some.inj h
    exact hcut _ hle
  | freeHeap | localFree | write => cases h

/-! ## Contents -/

section Contents

variable {s : State} {flags : BitVec 32} {newBuffer address i : Nat} {oldSize size : BitVec 64}

theorem moveContents_kept (s : State) (flags : BitVec 32) (newBuffer address : Nat)
    (oldSize size : BitVec 64) :
    (s.moveContents flags newBuffer address oldSize size).pool = s.pool ∧
      (s.moveContents flags newBuffer address oldSize size).headers = s.headers ∧
      (s.moveContents flags newBuffer address oldSize size).links = s.links := by
  unfold State.moveContents
  dsimp only
  split_ifs <;> exact ⟨rfl, rfl, rfl⟩

theorem zeroMemory_outside {length : Nat} (h : i < address ∨ address + length ≤ i) :
    (s.zeroMemory address length).bytes i = s.bytes i :=
  if_neg (by omega)

theorem copyMemory_outside {length : Nat} (h : i < newBuffer ∨ newBuffer + length ≤ i) :
    (s.copyMemory newBuffer address length).bytes i = s.bytes i :=
  if_neg (by omega)

theorem copyMemory_inside {length : Nat} (h : i < length) :
    (s.copyMemory newBuffer address length).bytes (newBuffer + i) = s.bytes (address + i) := by
  refine (if_pos (by omega)).trans ?_
  rw [Nat.add_sub_cancel_left]

/-- The new buffer alone is written. -/
theorem moveContents_outside (h : i < newBuffer ∨ newBuffer + size.toNat ≤ i) :
    (s.moveContents flags newBuffer address oldSize size).bytes i = s.bytes i := by
  unfold State.moveContents
  split_ifs with hless
  · exact copyMemory_outside h
  · have hle : oldSize.toNat ≤ size.toNat := Nat.le_of_not_lt hless
    have hrest := BitVec.toNat_sub_of_le (x := size) (y := oldSize) hle
    rw [zeroMemory_outside (by omega)]
    exact copyMemory_outside (by omega)
  · have hle : oldSize.toNat ≤ size.toNat := Nat.le_of_not_lt hless
    exact copyMemory_outside (by omega)

/-- As much of the old buffer as there is room for is copied. -/
theorem moveContents_copied (h : i < min oldSize.toNat size.toNat) :
    (s.moveContents flags newBuffer address oldSize size).bytes (newBuffer + i) =
      s.bytes (address + i) := by
  unfold State.moveContents
  split_ifs
  · exact copyMemory_inside (by omega)
  · rw [zeroMemory_outside (by omega)]
    exact copyMemory_inside (by omega)
  · exact copyMemory_inside (by omega)

theorem moveContents_zeroed (hzero : flagOn flags heapZeroMemory = true) (hlow : oldSize.toNat ≤ i)
    (hhigh : i < size.toNat) :
    (s.moveContents flags newBuffer address oldSize size).bytes (newBuffer + i) = 0 := by
  unfold State.moveContents
  have hnot : ¬ size < oldSize := fun hless => by
    have hless' : size.toNat < oldSize.toNat := hless
    omega
  have hrest := BitVec.toNat_sub_of_le (x := size) (y := oldSize) (Nat.le_of_not_lt hnot)
  rw [if_neg hnot, if_pos hzero]
  exact if_pos (by omega)

end Contents

/-! ## What a reallocation does -/

/-- `LdkReAllocateHeap` leaves everything alone, or it allocates, moves the contents and frees the
old buffer. -/
theorem reAllocateHeap_cases (s : State) (granted : Option Nat) (heapHandle : BitVec 64)
    (flags : BitVec 32) (baseAddress : Option Nat) (size : BitVec 64) :
    (s.reAllocateHeap granted heapHandle flags baseAddress size = (none, s) ∧
      (¬ s.HeaderOf heapHandle baseAddress ∨ tagOf heapHandle = none ∨ granted = none)) ∨
    ∃ address base tag s', baseAddress = some address ∧
      (s.headers (getHeader address)).heapHandle = heapHandle ∧ granted = some base ∧
      tagOf heapHandle = some tag ∧ s.SetUp s' base flags ⟨heapHandle, tag, size⟩ ∧
      s.reAllocateHeap granted heapHandle flags baseAddress size =
        (some (getBuffer base), (s'.moveContents flags (getBuffer base) address
          (s'.headers (getHeader address)).size size).freeHeap (some address)) := by
  cases baseAddress with
  | none => exact .inl ⟨rfl, .inl (by rintro ⟨address, hnone, -⟩; cases hnone)⟩
  | some address =>
    by_cases hheap : (s.headers (getHeader address)).heapHandle = heapHandle
    · rcases allocateHeap_cases s granted heapHandle flags size with
        ⟨hnone, hwhy⟩ | ⟨base, tag, s', hgranted, htag, hsome, hset⟩
      · refine .inl ⟨?_, .inr hwhy⟩
        simp only [State.reAllocateHeap, if_neg (not_not.mpr hheap), hnone]
      · refine .inr ⟨address, base, tag, s', rfl, hheap, hgranted, htag, hset, ?_⟩
        simp only [State.reAllocateHeap, if_neg (not_not.mpr hheap), hsome]
    · refine .inl ⟨?_, .inl ?_⟩
      · simp only [State.reAllocateHeap, if_pos hheap]
      · rintro ⟨address', haddress, hheap'⟩
        obtain rfl := Option.some.inj haddress
        exact hheap hheap'

namespace World.Inv

/-- Setting up a block changes no byte of a live buffer. -/
theorem setUp_bytes (h : w.Inv env) {s : State} {base : Nat} {flags : BitVec 32} {header : Header}
    (hset : w.store.SetUp s base flags header)
    (hfresh : Fresh env w.store ⟨base, (header.size + headerSize).toNat⟩)
    (hsum : header.size.toNat + headerSize.toNat < 2 ^ 64) {b : Buffer} (hb : b ∈ w.live) {i : Nat}
    (hi : i < b.asked.toNat) :
    (b.address + i < getBuffer base ∨ getBuffer base + header.size.toNat ≤ b.address + i) ∧
      s.bytes (b.address + i) = w.store.bytes (b.address + i) := by
  have hkept := h.kept b hb
  have hoff : b.address + i < getBuffer base ∨
      getBuffer base + header.size.toNat ≤ b.address + i := by
    have hapart := (hfresh.apart _ hkept.block).2
    have haddress := hkept.address
    rw [BitVec.toNat_add_of_lt hsum] at hapart
    unfold getBuffer at haddress ⊢
    simp only [Buffer.block] at hapart
    omega
  refine ⟨hoff, ?_⟩
  rw [hset.bytes]
  split_ifs
  · exact zeroMemory_outside hoff
  · rfl

/-- The header of a live buffer stays as it is when a block is set up. -/
theorem setUp_header (h : w.Inv env) {s : State} {base : Nat} {flags : BitVec 32} {header : Header}
    (hset : w.store.SetUp s base flags header) {length : Nat}
    (hfresh : Fresh env w.store ⟨base, length⟩) {b : Buffer} (hb : b ∈ w.live) :
    s.headers (getHeader b.address) = w.store.headers (getHeader b.address) := by
  rw [hset.headers]
  exact Function.update_of_ne (h.fresh_ne hfresh hb) _ _

end World.Inv

/-! ## One call -/

/-- A request for which the call gets as far as the pool, with what is promised of the block. -/
structure Served (env : Env) (w : World) (r : Request) (reaches : Prop) : Prop where
  fresh : ∀ base ∈ r.granted, Fresh env w.store ⟨base, (r.size + headerSize).toNat⟩
  fits : ∀ base ∈ r.granted, tagOf r.heapHandle ≠ none → reaches → r.Fits env base

namespace World.Inv

theorem allocated (h : w.Inv env) {r : Request} (hserved : Served env w r True)
    (flags : BitVec 32) :
    (w.allocated r.heapHandle r.asked
      (w.store.allocateHeap r.granted r.heapHandle flags r.size)).Inv env := by
  rcases allocateHeap_cases w.store r.granted r.heapHandle flags r.size with
    ⟨hnone, -⟩ | ⟨base, tag, s', hgranted, htag, hsome, hset⟩
  · rw [hnone]
    exact h
  · rw [hsome]
    exact h.allocate hset (hserved.fresh base hgranted)
      (hserved.fits base hgranted (htag ▸ Option.some_ne_none tag) trivial)

/-- A reallocation is an allocation, the move of the contents and the release of the old buffer. -/
theorem reallocated (h : w.Inv env) {r : Request} {baseAddress : Option Nat}
    (hpointer : ∀ address ∈ baseAddress, ∃ b ∈ w.live, b.address = address)
    (hserved : Served env w r (w.store.HeaderOf r.heapHandle baseAddress)) (flags : BitVec 32) :
    (w.reallocated r.heapHandle r.asked baseAddress
      (w.store.reAllocateHeap r.granted r.heapHandle flags baseAddress r.size)).Inv env := by
  rcases reAllocateHeap_cases w.store r.granted r.heapHandle flags baseAddress r.size with
    ⟨hnone, -⟩ | ⟨address, base, tag, s', rfl, hheap, hgranted, htag, hset, hsome⟩
  · rw [hnone]
    exact h
  · have hfresh := hserved.fresh base hgranted
    have hfits := hserved.fits base hgranted (htag ▸ Option.some_ne_none tag)
      ⟨address, rfl, hheap⟩
    obtain ⟨b, hb, rfl⟩ := hpointer address rfl
    obtain ⟨hpool, hheaders, hlinks⟩ := moveContents_kept s' flags (getBuffer base) b.address
      (s'.headers (getHeader b.address)).size r.size
    have hmoved := (h.allocate hset hfresh hfits).of_bytes hpool hheaders hlinks
    have hfreed := hmoved.free (List.mem_append_left _ hb)
    have hnew : (some (getBuffer base) != some b.address) = true := by
      rw [bne_iff_ne]
      intro heq
      apply h.fresh_ne hfresh hb
      rw [← Option.some.inj heq, getHeader_getBuffer]
    have hlive : ∀ s, World.without ⟨s, w.live ++ [⟨getBuffer base, r.heapHandle, r.asked⟩]⟩
        (some b.address) =
          w.without (some b.address) ++ [⟨getBuffer base, r.heapHandle, r.asked⟩] := by
      intro s
      simp only [World.without, List.filter_append, List.filter_cons, hnew, if_true,
        List.filter_nil]
    rw [hsome]
    rw [hlive] at hfreed
    exact hfreed

/-- What was in the old buffer is in the new one, or the old one is as it was. -/
theorem reallocates (h : w.Inv env) {r : Request} {baseAddress : Option Nat}
    (hserved : Served env w r (w.store.HeaderOf r.heapHandle baseAddress)) (flags : BitVec 32) :
    Reallocates w flags r.asked baseAddress
      (w.store.reAllocateHeap r.granted r.heapHandle flags baseAddress r.size) := by
  intro address haddress b hb heq
  rcases reAllocateHeap_cases w.store r.granted r.heapHandle flags baseAddress r.size with
    ⟨hnone, -⟩ | ⟨address', base, tag, s', rfl, hheap, hgranted, htag, hset, hsome⟩
  · rw [hnone]
  · obtain rfl := Option.some.inj haddress
    subst heq
    have hfresh := hserved.fresh base hgranted
    have hfits := hserved.fits base hgranted (htag ▸ Option.some_ne_none tag)
      ⟨b.address, rfl, hheap⟩
    have hold : (s'.headers (getHeader b.address)).size = b.asked := by
      rw [h.setUp_header hset hfresh hb]
      exact (h.kept b hb).size
    rw [hsome, hold, ← hfits.whole]
    constructor
    · intro i hi
      have hsame := (h.setUp_bytes hset hfresh hfits.sum hb (i := i) (by omega)).2
      exact (moveContents_copied hi).trans hsame
    · intro hzero i hlow hhigh
      exact moveContents_zeroed hzero hlow hhigh

end World.Inv

/-- The promises of the pool and the condition, for the request of a call. -/
theorem served {c : Call} {r : Request} (henabled : Enabled env w c) (hfits : Fits env w c)
    (hr : c.request env = some r) : Served env w r (w.Reaches env c) where
  fresh := henabled.fresh r hr
  fits base hbase htag hreaches := hfits r hr base hbase htag hreaches

/-- A call whose request fits keeps the invariant. -/
theorem World.Inv.next (h : w.Inv env) {c : Call} (henabled : Enabled env w c)
    (hfits : Fits env w c) : (w.next env c).Inv env := by
  cases c with
  | allocateHeap heapHandle flags size granted =>
    exact h.allocated (r := ⟨heapHandle, size, size, granted⟩) (served henabled hfits rfl) flags
  | localAlloc uFlags uBytes granted =>
    exact h.allocated (r := ⟨env.processHeap, uBytes, asDword uBytes, granted⟩)
      (served henabled hfits rfl) (heapFlags uFlags)
  | reAllocateHeap heapHandle flags baseAddress size granted =>
    exact h.reallocated (r := ⟨heapHandle, size, size, granted⟩) henabled.pointer
      (served henabled hfits rfl) flags
  | localReAlloc hMem uBytes uFlags granted =>
    exact h.reallocated (r := ⟨env.processHeap, uBytes, asDword uBytes, granted⟩)
      henabled.pointer (served henabled hfits rfl) (heapFlags uFlags)
  | freeHeap heapHandle flags baseAddress => exact h.free_pointer henabled.pointer
  | localFree hMem => exact h.free_pointer henabled.pointer
  | write address value => exact h.of_bytes rfl rfl rfl

theorem World.Inv.stepHolds (h : w.Inv env) {c : Call} (henabled : Enabled env w c)
    (hfits : Fits env w c) : StepHolds env w c := by
  cases c with
  | reAllocateHeap heapHandle flags baseAddress size granted =>
    exact h.reallocates (r := ⟨heapHandle, size, size, granted⟩)
      (served henabled hfits rfl) flags
  | localReAlloc hMem uBytes uFlags granted =>
    exact h.reallocates (r := ⟨env.processHeap, uBytes, asDword uBytes, granted⟩)
      (served henabled hfits rfl) (heapFlags uFlags)
  | allocateHeap | localAlloc | freeHeap | localFree | write => trivial

/-! ## Soundness -/

theorem World.Inv.sound (h : w.Inv env) : Sound env w where
  usable b hb := by
    have hkept := h.kept b hb
    refine ⟨b.block, hkept.block, rfl, hkept.address, ?_, ?_⟩
    · have haddress := hkept.address
      simp only [Buffer.block, getBuffer] at haddress ⊢
      omega
    · have haddress := hkept.address
      have hsize := hkept.size
      simp only [Buffer.block, getBuffer] at haddress ⊢
      rw [hsize]
      omega
  disjoint := by
    have hnodes : w.live.Pairwise fun b b' => b.node ≠ b'.node :=
      List.pairwise_map.mp (List.nodup_cons.mp h.listed.nodup).2
    apply hnodes.imp_of_mem
    intro b b' hb hb' hne
    have hblocks : b.block ≠ b'.block := fun heq => hne (congrArg (Node.header ∘ Block.base) heq)
    exact h.apart.forall (h.kept b hb).block (h.kept b' hb').block hblocks
  sized b hb := by
    have hkept := h.kept b hb
    simp only [State.sizeHeap, if_neg (not_not.mpr hkept.heapHandle), hkept.size]
  listed := h.listed
  walks _ _ hheap hrounds := h.visits hheap hrounds
  terminates _ hrounds := h.terminates hrounds

/-- A sound world with a buffer just given out: its request fitted. -/
theorem Sound.fits {w' : World} (h : Sound env w') {r : Request} {base : Nat}
    (tag : BitVec 32) (hnew : (⟨getBuffer base, r.heapHandle, r.asked⟩ : Buffer) ∈ w'.live)
    (hblock : ∀ block ∈ w'.store.pool, block.base = base →
      block.length = (r.size + headerSize).toNat)
    (hheader : w'.store.headers base = ⟨r.heapHandle, tag, r.size⟩)
    (hwhole : r.asked.toNat ≤ r.size.toNat → r.size = r.asked) : r.Fits env base := by
  obtain ⟨block, hmem, hbase, -, hasked, hsize⟩ := h.usable _ hnew
  rw [getHeader_getBuffer] at hbase
  subst hbase
  rw [hblock block hmem rfl, BitVec.toNat_add] at hasked hsize
  rw [hheader] at hsize
  simp only [getBuffer, headerSize_toNat] at hasked hsize
  have hlt := r.size.isLt
  refine ⟨hwhole (by omega), by rw [headerSize_toNat]; omega, ?_⟩
  intro _ hheap
  apply (h.walks r.heapHandle _ hheap (Nat.lt_succ_self _)).valid.2
    (Buffer.entry ⟨getBuffer block.base, r.heapHandle, r.asked⟩)
  exact List.mem_map_of_mem (List.mem_filter.mpr ⟨hnew, beq_self_eq_true _⟩)

/-- The block that was granted is the one with its base address. -/
theorem length_of_base {s : State} {base : Nat} {flags : BitVec 32} {header : Header}
    (hset : w.store.SetUp s base flags header) {length : Nat}
    (hfresh : Fresh env w.store ⟨base, length⟩) :
    ∀ block ∈ s.pool, block.base = base → block.length = (header.size + headerSize).toNat := by
  intro block hblock hbase
  rw [hset.pool] at hblock
  rcases List.mem_append.mp hblock with hold | hnew
  · exact absurd hbase (hfresh.apart block hold).1
  · rw [List.mem_singleton.mp hnew]

theorem fits_allocated {r : Request} (flags : BitVec 32)
    (hfresh : ∀ base ∈ r.granted, Fresh env w.store ⟨base, (r.size + headerSize).toNat⟩)
    (hwhole : r.asked.toNat ≤ r.size.toNat → r.size = r.asked)
    (hsound : Sound env (w.allocated r.heapHandle r.asked
      (w.store.allocateHeap r.granted r.heapHandle flags r.size))) :
    ∀ base ∈ r.granted, tagOf r.heapHandle ≠ none → r.Fits env base := by
  intro base hbase htag
  rcases allocateHeap_cases w.store r.granted r.heapHandle flags r.size with
    ⟨-, hnot⟩ | ⟨base', tag, s', hgranted, -, hsome, hset⟩
  · rcases hnot with hnot | hnot
    · exact absurd hnot htag
    · rw [hnot] at hbase
      cases hbase
  · obtain rfl := Option.some.inj (hgranted.symm.trans hbase)
    rw [hsome] at hsound
    apply hsound.fits tag
    · exact List.mem_append_right _ (List.mem_singleton_self _)
    · exact length_of_base hset (hfresh base' hbase)
    · exact (congrFun hset.headers base').trans (Function.update_self _ _ _)
    · exact hwhole

theorem fits_reallocated {r : Request} (flags : BitVec 32) {baseAddress : Option Nat}
    (hfresh : ∀ base ∈ r.granted, Fresh env w.store ⟨base, (r.size + headerSize).toNat⟩)
    (hwhole : r.asked.toNat ≤ r.size.toNat → r.size = r.asked)
    (hsound : Sound env (w.reallocated r.heapHandle r.asked baseAddress
      (w.store.reAllocateHeap r.granted r.heapHandle flags baseAddress r.size))) :
    ∀ base ∈ r.granted, tagOf r.heapHandle ≠ none → w.store.HeaderOf r.heapHandle baseAddress →
      r.Fits env base := by
  intro base hbase htag hheap
  rcases reAllocateHeap_cases w.store r.granted r.heapHandle flags baseAddress r.size with
    ⟨-, hnot⟩ | ⟨address, base', tag, s', rfl, -, hgranted, -, hset, hsome⟩
  · rcases hnot with hnot | hnot | hnot
    · exact absurd hheap hnot
    · exact absurd hnot htag
    · rw [hnot] at hbase
      cases hbase
  · obtain rfl := Option.some.inj (hgranted.symm.trans hbase)
    obtain ⟨hpool, hheaders, -⟩ := moveContents_kept s' flags (getBuffer base') address
      (s'.headers (getHeader address)).size r.size
    rw [hsome] at hsound
    apply hsound.fits tag
    · exact List.mem_append_right _ (List.mem_singleton_self _)
    · intro block hblock
      apply length_of_base hset (hfresh base' hbase)
      rw [← hpool]
      exact List.mem_of_mem_filter hblock
    · exact (congrFun (hheaders.trans hset.headers) base').trans (Function.update_self _ _ _)
    · exact hwhole

/-- Where a call leaves a sound world, its request fitted. -/
theorem fits_of_sound {c : Call} (henabled : Enabled env w c) (hsound : Sound env (w.next env c)) :
    Fits env w c := by
  intro r hr base hbase htag hreaches
  have hfresh := henabled.fresh r hr
  have hwhole := request_whole hr
  cases c with
  | allocateHeap heapHandle flags size granted =>
    obtain rfl := Option.some.inj hr
    exact fits_allocated flags hfresh hwhole hsound base hbase htag
  | localAlloc uFlags uBytes granted =>
    obtain rfl := Option.some.inj hr
    exact fits_allocated (heapFlags uFlags) hfresh hwhole hsound base hbase htag
  | reAllocateHeap heapHandle flags baseAddress size granted =>
    obtain rfl := Option.some.inj hr
    exact fits_reallocated flags hfresh hwhole hsound base hbase htag hreaches
  | localReAlloc hMem uBytes uFlags granted =>
    obtain rfl := Option.some.inj hr
    exact fits_reallocated (heapFlags uFlags) hfresh hwhole hsound base hbase htag
      hreaches
  | freeHeap | localFree | write => cases hr

/-! ## Runs -/

/-- From a world that keeps the invariant. -/
theorem World.Inv.runHolds_iff (h : w.Inv env) (calls : List Call)
    (hrun : (heapCalls env).Admits Always w calls) :
    RunHolds env w calls ↔ (heapCalls env).Admits (Fits env) w calls := by
  induction calls generalizing w with
  | nil => exact iff_of_true h.sound trivial
  | cons c calls ih =>
    obtain ⟨⟨henabled, -⟩, hrest⟩ := hrun
    constructor
    · intro hholds
      obtain ⟨-, -, hnext⟩ := hholds
      have hsound : Sound env (w.next env c) := by
        cases calls with
        | nil => exact hnext
        | cons => exact hnext.1
      have hfits := fits_of_sound henabled hsound
      exact ⟨⟨henabled, hfits⟩, (ih (h.next henabled hfits) hrest).mp hnext⟩
    · intro hadmits
      obtain ⟨⟨-, hfits⟩, hadmits⟩ := hadmits
      exact ⟨h.sound, h.stepHolds henabled hfits,
        (ih (h.next henabled hfits) hrest).mpr hadmits⟩

/-- A run of calls keeps every buffer sound exactly when each request that is granted a block
fits. -/
theorem heap_store_holds (env : Env) (w : World) (calls : List Call)
    (hinit : (heapCalls env).init w) (hrun : (heapCalls env).Admits Always w calls) :
    RunHolds env w calls ↔ (heapCalls env).Admits (Fits env) w calls :=
  (World.Inv.start hinit).runHolds_iff calls hrun

/-! ## Runs of one request -/

/-- No heap block has been allocated, and the pool is empty. -/
def noBlocks : World where
  store := ⟨[], fun _ => 0, fun _ => ⟨0, 0, 0⟩, ⟨fun _ => .listHead, fun _ => .listHead⟩⟩
  live := []

/-- A machine with two pages of memory behind the first, whose process heap is the first one. -/
def twoPages : Env := ⟨1, fun address => 4096 ≤ address && address < 12288⟩

theorem noBlocks_init (env : Env) : (heapCalls env).init noBlocks :=
  ⟨rfl, List.Pairwise.nil, List.nodup_singleton _, List.isChain_pair.mpr ⟨rfl, rfl⟩⟩

/-- A first request is granted a block of the two pages. -/
theorem noBlocks_admits {c : Call} {r : Request} (hr : c.request twoPages = some r)
    (hpointer : c.pointer = none)
    (hinside : ∀ base ∈ r.granted,
      4096 ≤ base ∧ base + (r.size + headerSize).toNat ≤ 12288) :
    (heapCalls twoPages).Admits Always noBlocks [c] := by
  refine ⟨⟨⟨?_, ?_, ?_⟩, trivial⟩, trivial⟩
  · rw [hpointer]
    intro address haddress
    cases haddress
  · rintro address value rfl
    cases hr
  · intro r' hr' base hbase
    obtain rfl := Option.some.inj (hr.symm.trans hr')
    have hblock := hinside base hbase
    refine ⟨(fun _ h => nomatch h), ?_, ?_⟩
    · show 0 < base ∧ base + (r.size + headerSize).toNat ≤ 2 ^ 64
      omega
    · intro i hi
      have hi' : i < (r.size + headerSize).toNat := hi
      simp only [twoPages, Bool.and_eq_true, decide_eq_true_eq]
      omega

/-- A request of 16 bytes is served soundly. -/
theorem small_request_is_sound :
    RunHolds twoPages noBlocks [.allocateHeap 1 heapZeroMemory 16 (some 4096)] := by
  have hrun : (heapCalls twoPages).Admits Always noBlocks
      [.allocateHeap 1 heapZeroMemory 16 (some 4096)] := by
    apply noBlocks_admits rfl rfl
    intro base hbase
    obtain rfl := Option.some.inj hbase
    decide
  refine (heap_store_holds twoPages noBlocks _ (noBlocks_init twoPages) hrun).mpr ?_
  refine ⟨⟨hrun.1.1, ?_⟩, trivial⟩
  intro r hr base hbase _ _
  obtain rfl := Option.some.inj hr
  obtain rfl := Option.some.inj hbase
  exact ⟨rfl, by decide, fun hempty => absurd hempty (by decide)⟩

/-- A call whose request does not fit spoils the run. -/
theorem not_runHolds (c : Call) (base : Nat) {r : Request} (hr : c.request twoPages = some r)
    (hpointer : c.pointer = none) (hgranted : r.granted = some base)
    (hinside : 4096 ≤ base ∧ base + (r.size + headerSize).toNat ≤ 12288)
    (htag : tagOf r.heapHandle ≠ none) (hreaches : noBlocks.Reaches twoPages c)
    (hfits : ¬ r.Fits twoPages base) :
    (heapCalls twoPages).Admits Always noBlocks [c] ∧ ¬ RunHolds twoPages noBlocks [c] := by
  have hrun : (heapCalls twoPages).Admits Always noBlocks [c] := by
    apply noBlocks_admits hr hpointer
    intro base' hbase'
    obtain rfl := Option.some.inj (hgranted.symm.trans hbase')
    exact hinside
  refine ⟨hrun, ?_⟩
  intro hholds
  obtain ⟨⟨-, hall⟩, -⟩ :=
    ((World.Inv.start (noBlocks_init twoPages)).runHolds_iff [c] hrun).mp hholds
  exact hfits (hall r hr base hgranted htag hreaches)

/-- Not every run keeps its buffers sound: a sum that wraps leaves a buffer without a byte,
`LocalAlloc` cuts off a size, and behind an empty buffer the walk may find no valid address. -/
theorem requests_that_do_not_fit :
    (¬ ∀ env w calls, (heapCalls env).init w → (heapCalls env).Admits Always w calls →
      RunHolds env w calls) ∧
    ¬ RunHolds twoPages noBlocks [.allocateHeap 1 0 (-40) (some 4096)] ∧
    ¬ RunHolds twoPages noBlocks [.localAlloc 0 0x100000010 (some 4096)] ∧
    ¬ RunHolds twoPages noBlocks [.allocateHeap 1 0 0 (some 12240)] := by
  have hwraps := not_runHolds (.allocateHeap 1 0 (-40) (some 4096)) 4096 rfl rfl rfl
    (by decide) (by decide) trivial (fun hfits => absurd hfits.sum (by decide))
  have hcut := not_runHolds (.localAlloc 0 0x100000010 (some 4096)) 4096 rfl rfl rfl
    (by decide) (by decide) trivial (fun hfits => absurd hfits.whole (by decide))
  have hempty := not_runHolds (.allocateHeap 1 0 0 (some 12240)) 12240 rfl rfl rfl
    (by decide) (by decide) trivial
    (fun hfits => absurd (hfits.valid rfl (by decide)) (by decide))
  refine ⟨?_, hwraps.2, hcut.2, hempty.2⟩
  intro hall
  exact hwraps.2 (hall twoPages noBlocks _ (noBlocks_init twoPages) hwraps.1)

end Ldk.Heap
