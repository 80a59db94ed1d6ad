import Ldk.Heap.State
import Ldk.Lib.TransitionSystem

/-!
# Callers of the heaps

A world is the state of the heaps together with what the callers hold: the buffers they have been
given and not freed, each with the size they asked for.

- `Call`: the calls, with the answer of the pool to each request.
- `World.Inv`: the list stands for the live buffers, and each has a pool block of its own.
- `World.Inv.allocate`, `World.Inv.free`: an allocation whose size is not cut off keeps it, and so
  does the release of a live buffer. A reallocation is one after the other.
-/

namespace Ldk.Heap

open TransitionSystem

/-- What does not change: `NtCurrentPeb()->ProcessHeap` and `MmIsAddressValid`. -/
structure Env where
  processHeap : BitVec 64
  addressValid : Nat → Bool

/-! ## Worlds -/

/-- A buffer that a caller holds, and how many bytes it asked for. -/
structure Buffer where
  address : Nat
  heapHandle : BitVec 64
  asked : BitVec 64
  deriving DecidableEq, Repr

structure World where
  store : State
  /-- Auxiliary: what the callers hold, in the order of the calls. -/
  live : List Buffer

inductive Call where
  | allocateHeap (heapHandle : BitVec 64) (flags : BitVec 32) (size : BitVec 64)
      (granted : Option Nat)
  | reAllocateHeap (heapHandle : BitVec 64) (flags : BitVec 32) (baseAddress : Option Nat)
      (size : BitVec 64) (granted : Option Nat)
  | freeHeap (heapHandle : BitVec 64) (flags : BitVec 32) (baseAddress : Option Nat)
  | localAlloc (uFlags : BitVec 32) (uBytes : BitVec 64) (granted : Option Nat)
  | localReAlloc (hMem : Option Nat) (uBytes : BitVec 64) (uFlags : BitVec 32)
      (granted : Option Nat)
  | localFree (hMem : Option Nat)
  /-- A caller writes a byte. -/
  | write (address : Nat) (value : UInt8)
  deriving DecidableEq, Repr

namespace World

variable (w : World)

/-- What is held without the buffer at an address. -/
def without (address : Option Nat) : List Buffer :=
  w.live.filter fun b => some b.address != address

def allocated (heapHandle asked : BitVec 64) : Option Nat × State → World
  | (none, s) => { w with store := s }
  | (some address, s) => ⟨s, w.live ++ [⟨address, heapHandle, asked⟩]⟩

def reallocated (heapHandle asked : BitVec 64) (old : Option Nat) : Option Nat × State → World
  | (none, s) => { w with store := s }
  | (some address, s) => ⟨s, w.without old ++ [⟨address, heapHandle, asked⟩]⟩

/-- The world after a call. -/
def next (env : Env) : Call → World
  | .allocateHeap heapHandle flags size granted =>
    w.allocated heapHandle size (w.store.allocateHeap granted heapHandle flags size)
  | .reAllocateHeap heapHandle flags baseAddress size granted =>
    w.reallocated heapHandle size baseAddress
      (w.store.reAllocateHeap granted heapHandle flags baseAddress size)
  | .freeHeap _ _ baseAddress => ⟨w.store.freeHeap baseAddress, w.without baseAddress⟩
  | .localAlloc uFlags uBytes granted =>
    w.allocated env.processHeap uBytes (w.store.localAlloc granted env.processHeap uFlags uBytes)
  | .localReAlloc hMem uBytes uFlags granted =>
    w.reallocated env.processHeap uBytes hMem
      (w.store.localReAlloc granted env.processHeap hMem uBytes uFlags)
  | .localFree hMem => ⟨(w.store.localFree hMem).2, w.without hMem⟩
  | .write address value =>
    { w with store := { w.store with bytes := Function.update w.store.bytes address value } }

end World

/-! ## Requests -/

/-- A request for memory: what the caller asks for and what the heap is asked for. -/
structure Request where
  heapHandle : BitVec 64
  asked : BitVec 64
  size : BitVec 64
  granted : Option Nat

/-- The request a call makes. -/
def Call.request (env : Env) : Call → Option Request
  | .allocateHeap heapHandle _ size granted => some ⟨heapHandle, size, size, granted⟩
  | .reAllocateHeap heapHandle _ _ size granted => some ⟨heapHandle, size, size, granted⟩
  | .localAlloc _ uBytes granted => some ⟨env.processHeap, uBytes, asDword uBytes, granted⟩
  | .localReAlloc _ uBytes _ granted => some ⟨env.processHeap, uBytes, asDword uBytes, granted⟩
  | _ => none

/-- The pointer to a buffer that a call is given. -/
def Call.pointer : Call → Option Nat
  | .reAllocateHeap _ _ baseAddress _ _ => baseAddress
  | .freeHeap _ _ baseAddress => baseAddress
  | .localReAlloc hMem _ _ _ => hMem
  | .localFree hMem => hMem
  | _ => none

/-- Two allocations have no byte in common. -/
def Block.Apart (b b' : Block) : Prop :=
  b.base ≠ b'.base ∧ (b.base + b.length ≤ b'.base ∨ b'.base + b'.length ≤ b.base)

instance (b b' : Block) : Decidable (b.Apart b') := inferInstanceAs (Decidable (_ ∧ _))

instance : Std.Symm Block.Apart := ⟨fun _ _ h => ⟨h.1.symm, h.2.symm⟩⟩

/-- What the pool promises of a block it grants. -/
structure Fresh (env : Env) (s : State) (block : Block) : Prop where
  apart : ∀ block' ∈ s.pool, block'.Apart block
  inside : 0 < block.base ∧ block.base + block.length ≤ 2 ^ 64
  valid : ∀ i < block.length, env.addressValid (block.base + i) = true

/-- What callers and the pool keep to: pointers are `NULL` or to a live buffer, a caller writes to
what it has asked for, and the pool grants fresh blocks of the requested length. -/
structure Enabled (env : Env) (w : World) (c : Call) : Prop where
  pointer : ∀ address ∈ c.pointer, ∃ b ∈ w.live, b.address = address
  write : ∀ address value, c = .write address value →
    ∃ b ∈ w.live, b.address ≤ address ∧ address < b.address + b.asked.toNat
  fresh : ∀ r ∈ c.request env, ∀ base ∈ r.granted,
    Fresh env w.store ⟨base, (r.size + headerSize).toNat⟩

/-- The heaps and their callers, from an empty list of headers. -/
def heapCalls (env : Env) : System World Call where
  init w := w.live = [] ∧ w.store.pool.Pairwise Block.Apart ∧
    w.store.links.Represents .listHead []
  enabled := Enabled env
  next w c := w.next env c

/-! ## What the routines do -/

/-- The state after a block has been set up for a buffer. -/
structure State.SetUp (s s' : State) (base : Nat) (flags : BitVec 32) (header : Header) : Prop where
  pool : s'.pool = s.pool ++ [⟨base, (header.size + headerSize).toNat⟩]
  headers : s'.headers = Function.update s.headers base header
  links : s'.links = s.links.insertTail .listHead (.header base)
  bytes : s'.bytes = if flagOn flags heapZeroMemory then
    (s.zeroMemory (getBuffer base) header.size.toNat).bytes else s.bytes

/-- `LdkAllocateHeap` leaves everything alone or sets up the block it is granted. -/
theorem allocateHeap_cases (s : State) (granted : Option Nat) (heapHandle : BitVec 64)
    (flags : BitVec 32) (size : BitVec 64) :
    (s.allocateHeap granted heapHandle flags size = (none, s) ∧
      (tagOf heapHandle = none ∨ granted = none)) ∨
    ∃ base tag s', granted = some base ∧ tagOf heapHandle = some tag ∧
      s.allocateHeap granted heapHandle flags size = (some (getBuffer base), s') ∧
      s.SetUp s' base flags ⟨heapHandle, tag, size⟩ := by
  unfold State.allocateHeap
  cases htag : tagOf heapHandle with
  | none => exact .inl ⟨rfl, .inl rfl⟩
  | some tag =>
    cases granted with
    | none => exact .inl ⟨rfl, .inr rfl⟩
    | some base =>
      refine .inr ⟨base, tag, _, rfl, rfl, rfl, ?_⟩
      by_cases hzero : flagOn flags heapZeroMemory = true
      · simp only [hzero, if_true]
        exact ⟨rfl, rfl, rfl, (if_pos hzero).symm⟩
      · simp only [hzero]
        exact ⟨rfl, rfl, rfl, (if_neg hzero).symm⟩

/-! ## The invariant -/

/-- The list entry of a buffer. -/
def Buffer.node (b : Buffer) : Node := .header (getHeader b.address)

/-- The header and the bytes the caller asked for. -/
def Buffer.block (b : Buffer) : Block := ⟨getHeader b.address, headerSize.toNat + b.asked.toNat⟩

/-- A live buffer as its header and the pool know it. -/
structure Buffer.Kept (env : Env) (s : State) (b : Buffer) : Prop where
  address : getBuffer (getHeader b.address) = b.address
  heapHandle : (s.headers (getHeader b.address)).heapHandle = b.heapHandle
  size : (s.headers (getHeader b.address)).size = b.asked
  block : b.block ∈ s.pool
  header_valid : env.addressValid (getHeader b.address) = true
  valid : b.heapHandle ≠ 0 → env.addressValid b.address = true

structure World.Inv (env : Env) (w : World) : Prop where
  listed : w.store.links.Represents .listHead (w.live.map Buffer.node)
  kept : ∀ b ∈ w.live, b.Kept env w.store
  apart : w.store.pool.Pairwise Block.Apart

theorem getHeader_getBuffer (base : Nat) : getHeader (getBuffer base) = base :=
  Nat.add_sub_cancel _ _

namespace World.Inv

variable {env : Env} {w : World}

theorem start (h : (heapCalls env).init w) : w.Inv env := by
  obtain ⟨hlive, hpool, hlinks⟩ := h
  refine ⟨?_, ?_, hpool⟩
  · rw [hlive]
    exact hlinks
  · intro b hb
    rw [hlive] at hb
    cases hb

/-- What buffers contain does not matter. -/
theorem of_bytes (h : w.Inv env) {s : State} (hpool : s.pool = w.store.pool)
    (hheaders : s.headers = w.store.headers) (hlinks : s.links = w.store.links) :
    World.Inv env ⟨s, w.live⟩ where
  listed := hlinks ▸ h.listed
  kept b hb := by
    have hkept := h.kept b hb
    exact ⟨hkept.address, hheaders ▸ hkept.heapHandle, hheaders ▸ hkept.size, hpool ▸ hkept.block,
      hkept.header_valid, hkept.valid⟩
  apart := hpool ▸ h.apart

/-- A granted block is that of no live buffer. -/
theorem fresh_ne (h : w.Inv env) {block : Block} (hfresh : Fresh env w.store block) {b : Buffer}
    (hb : b ∈ w.live) : getHeader b.address ≠ block.base :=
  (hfresh.apart _ (h.kept b hb).block).1

end World.Inv

/-- What a request has to be like when a block is granted to it: the heap is asked for what the
caller asks for, the sum with the size of a header does not wrap, and behind the header of an
empty buffer there is an address the walk takes for valid. -/
structure Request.Fits (env : Env) (r : Request) (base : Nat) : Prop where
  whole : r.size = r.asked
  sum : r.size.toNat + headerSize.toNat < 2 ^ 64
  valid : r.size = 0 → r.heapHandle ≠ 0 → env.addressValid (getBuffer base) = true

namespace World.Inv

variable {env : Env} {w : World}

/-- A block that is set up for a request makes one more live buffer. -/
theorem allocate (h : w.Inv env) {s : State} {base : Nat} {flags : BitVec 32} {tag : BitVec 32}
    {r : Request} (hset : w.store.SetUp s base flags ⟨r.heapHandle, tag, r.size⟩)
    (hfresh : Fresh env w.store ⟨base, (r.size + headerSize).toNat⟩) (hfits : r.Fits env base) :
    World.Inv env ⟨s, w.live ++ [⟨getBuffer base, r.heapHandle, r.asked⟩]⟩ := by
  have hlength : (r.size + headerSize).toNat = headerSize.toNat + r.asked.toNat := by
    rw [BitVec.toNat_add_of_lt hfits.sum, hfits.whole, Nat.add_comm]
  constructor
  · rw [List.map_append, hset.links]
    have hnode : [(⟨getBuffer base, r.heapHandle, r.asked⟩ : Buffer)].map Buffer.node =
        [.header base] := by
      rw [List.map_singleton, Buffer.node, getHeader_getBuffer]
    rw [hnode]
    apply h.listed.insertTail
    -- the header of the new block is in no list
    intro hmem
    rcases List.mem_cons.mp hmem with heq | hmem
    · cases heq
    · obtain ⟨b, hb, hnode⟩ := List.mem_map.mp hmem
      exact h.fresh_ne hfresh hb (Node.header.inj hnode)
  · intro b hb
    rcases List.mem_append.mp hb with hold | hnew
    · -- the headers of the others are where they were
      have hkept := h.kept b hold
      have hheader : s.headers (getHeader b.address) = w.store.headers (getHeader b.address) := by
        rw [hset.headers]
        exact Function.update_of_ne (h.fresh_ne hfresh hold) _ _
      refine ⟨hkept.address, ?_, ?_, ?_, hkept.header_valid, hkept.valid⟩
      · rw [hheader]
        exact hkept.heapHandle
      · rw [hheader]
        exact hkept.size
      · rw [hset.pool]
        exact List.mem_append_left _ hkept.block
    · obtain rfl := List.mem_singleton.mp hnew
      have hheader : s.headers base = ⟨r.heapHandle, tag, r.size⟩ := by
        rw [hset.headers]
        exact Function.update_self _ _ _
      refine ⟨?_, ?_, ?_, ?_, ?_, ?_⟩
      · rw [getHeader_getBuffer]
      · rw [getHeader_getBuffer, hheader]
      · rw [getHeader_getBuffer, hheader]
        exact hfits.whole
      · rw [hset.pool, Buffer.block, getHeader_getBuffer, hlength]
        exact List.mem_append_right _ (List.mem_singleton_self _)
      · rw [getHeader_getBuffer]
        have hpos : 0 < (r.size + headerSize).toNat := by
          rw [hlength, headerSize_toNat]
          omega
        exact hfresh.valid 0 hpos
      · intro hheap
        -- the buffer of no bytes is at the end of its block
        by_cases hempty : r.size = 0
        · exact hfits.valid hempty hheap
        · apply hfresh.valid
          have hpos : 0 < r.asked.toNat := by
            rw [← hfits.whole]
            exact Nat.pos_of_ne_zero fun hzero => hempty (BitVec.eq_of_toNat_eq hzero)
          show headerSize.toNat < (r.size + headerSize).toNat
          omega
  · rw [hset.pool, List.pairwise_append]
    refine ⟨h.apart, List.pairwise_singleton _ _, ?_⟩
    intro block hblock block' hblock'
    rw [List.mem_singleton.mp hblock']
    exact hfresh.apart block hblock

/-- The addresses of the live buffers are different, and so are those of their headers. -/
theorem getHeader_ne (h : w.Inv env) {before after : List Buffer} {b : Buffer}
    (hlive : w.live = before ++ b :: after) {b' : Buffer} (hb' : b' ∈ before ++ after) :
    getHeader b'.address ≠ getHeader b.address := by
  intro heq
  have hnodup := (List.nodup_cons.mp h.listed.nodup).2
  rw [hlive, List.map_append, List.map_cons, List.nodup_middle, ← List.map_append] at hnodup
  apply (List.nodup_cons.mp hnodup).1
  rw [Buffer.node, ← heq]
  exact List.mem_map_of_mem hb'

/-- What is held without a live buffer. -/
theorem without_eq (h : w.Inv env) {before after : List Buffer} {b : Buffer}
    (hlive : w.live = before ++ b :: after) : w.without (some b.address) = before ++ after := by
  have hne : ∀ b' ∈ before ++ after, (some b'.address != some b.address) = true := by
    intro b' hb'
    have hheader := h.getHeader_ne hlive hb'
    simp only [bne_iff_ne, ne_eq, Option.some.injEq]
    exact fun heq => hheader (heq ▸ rfl)
  have hself : (some b.address != some b.address) = false := bne_self_eq_false _
  rw [World.without, hlive, List.filter_append, List.filter_cons, hself, if_neg Bool.false_ne_true,
    ← List.filter_append]
  exact List.filter_eq_self.mpr hne

/-- Freeing a live buffer takes it and its block away. -/
theorem free (h : w.Inv env) {b : Buffer} (hb : b ∈ w.live) :
    World.Inv env ⟨w.store.freeHeap (some b.address), w.without (some b.address)⟩ := by
  obtain ⟨before, after, hlive⟩ := List.append_of_mem hb
  rw [h.without_eq hlive]
  constructor
  · have hlisted := h.listed
    rw [hlive, List.map_append, List.map_cons] at hlisted
    rw [List.map_append]
    exact hlisted.removeEntry
  · intro b' hb'
    have hmem : b' ∈ w.live := by
      rw [hlive]
      exact List.mem_append.mpr ((List.mem_append.mp hb').imp_right (List.mem_cons_of_mem _))
    have hkept := h.kept b' hmem
    refine ⟨hkept.address, hkept.heapHandle, hkept.size, ?_, hkept.header_valid, hkept.valid⟩
    apply List.mem_filter.mpr
    exact ⟨hkept.block, bne_iff_ne.mpr (h.getHeader_ne hlive hb')⟩
  · exact h.apart.filter _

theorem free_pointer (h : w.Inv env) {pointer : Option Nat}
    (hpointer : ∀ address ∈ pointer, ∃ b ∈ w.live, b.address = address) :
    World.Inv env ⟨w.store.freeHeap pointer, w.without pointer⟩ := by
  cases pointer with
  | none =>
    have hall : w.without none = w.live := List.filter_eq_self.mpr fun _ _ => rfl
    rw [hall]
    exact h
  | some address =>
    obtain ⟨b, hb, rfl⟩ := hpointer address rfl
    exact h.free hb

end World.Inv

end Ldk.Heap
