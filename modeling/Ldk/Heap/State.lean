import Mathlib
import Ldk.Lib.LinkRing

/-!
# Heaps in the nonpaged pool

Each heap block is a pool allocation: a header and behind it the buffer of the caller. The
headers of all heaps are linked in one list.

- The pool answers each request with a base address or with failure; `State.pool` records what
  it has given away.
- Headers and the bytes of buffers are kept apart here; that no buffer reaches into a header is
  a result about their addresses.
- Addresses are natural numbers and `none` is `NULL`. Sizes are machine words.

The routines are those of a 64-bit build without stack traces.
-/

namespace Ldk.Heap

/-! ## Constants -/

/-- `sizeof(LDK_HEAP_HEADER)` -/
def sizeofHeader : BitVec 64 := 40

/-- `MEMORY_ALLOCATION_ALIGNMENT` -/
def memoryAllocationAlignment : BitVec 64 := 16

/-- `LDK_HEAP_HEADER_SIZE` -/
def headerSize : BitVec 64 :=
  (sizeofHeader + memoryAllocationAlignment - 1) &&& ~~~(memoryAllocationAlignment - 1)

/-- `HEAP_ZERO_MEMORY` and `LMEM_ZEROINIT` -/
def heapZeroMemory : BitVec 32 := 0x8
def lmemZeroInit : BitVec 32 := 0x40

/-- `FlagOn` -/
def flagOn (flags flag : BitVec 32) : Bool := flags &&& flag != 0

@[simp] theorem headerSize_toNat : headerSize.toNat = 48 := rfl

/-! ## Memory -/

/-- An allocation in the pool. -/
structure Block where
  base : Nat
  length : Nat
  deriving DecidableEq, Repr

/-- `LDK_HEAP_HEADER`, but for the links. -/
structure Header where
  heapHandle : BitVec 64
  tag : BitVec 32
  size : BitVec 64
  deriving DecidableEq, Repr

/-- What the list entries are part of: `LdkpHeapListHead`, or the header at a base address. -/
inductive Node where
  | listHead
  | header (base : Nat)
  deriving DecidableEq, Repr

structure State where
  pool : List Block
  bytes : Nat → UInt8
  headers : Nat → Header
  /-- `Links` of the headers and `LdkpHeapListHead` -/
  links : LinkRing Node

/-- `LDK_HEAP_IMP_GET_HEADER` -/
def getHeader (address : Nat) : Nat := address - headerSize.toNat

/-- `LDK_HEAP_IMP_GET_BUFFER` -/
def getBuffer (base : Nat) : Nat := base + headerSize.toNat

namespace State

variable (s : State)

/-- `ExAllocatePoolWithTag`, when it succeeds. -/
def allocatePool (base : Nat) (length : BitVec 64) : State :=
  { s with pool := s.pool ++ [⟨base, length.toNat⟩] }

/-- `ExFreePoolWithTag` -/
def freePool (base : Nat) : State :=
  { s with pool := s.pool.filter fun block => block.base != base }

def setHeader (base : Nat) (header : Header) : State :=
  { s with headers := Function.update s.headers base header }

def setLinks (links : LinkRing Node) : State := { s with links := links }

/-- `RtlZeroMemory` -/
def zeroMemory (address length : Nat) : State :=
  { s with bytes := fun i => if address ≤ i ∧ i < address + length then 0 else s.bytes i }

/-- `RtlCopyMemory` -/
def copyMemory (destination source length : Nat) : State :=
  { s with
    bytes := fun i =>
      if destination ≤ i ∧ i < destination + length then s.bytes (source + (i - destination))
      else s.bytes i }

end State

/-! ## Tags -/

/-- `TAG_CHAR_RANGE` -/
def tagCharRange : BitVec 8 := 61

/-- The loop over a part of the tag that is too large for a character: it carries over to the next
part. -/
def carry : Nat → BitVec 8 × BitVec 8 → BitVec 8 × BitVec 8
  | 0, parts => parts
  | turns + 1, (value, next) =>
    if tagCharRange < value then carry turns (value - tagCharRange, next + 1) else (value, next)

/-- The tag that stands for a heap, if one does. -/
def tagOf (heapHandle : BitVec 64) : Option (BitVec 32) :=
  let (value0, value1) := carry 4 (heapHandle.extractLsb' 0 8, heapHandle.extractLsb' 8 8)
  let (value1, value2) := carry 4 (value1, heapHandle.extractLsb' 16 8)
  let (value2, value3) := carry 4 (value2, heapHandle.extractLsb' 24 8)
  if tagCharRange < value3 then none
  else
    let letter : BitVec 8 := 0x41
    some ((value3 + letter) ++ (value2 + letter) ++ (value1 + letter) ++ (value0 + letter))

/-- The loops come to their end: four turns are enough for a part of eight bits. -/
theorem carry_le (turns : Nat) (value next : BitVec 8) (h : value.toNat ≤ 61 * (turns + 1)) :
    (carry turns (value, next)).1.toNat ≤ 61 := by
  induction turns generalizing value next with
  | zero => exact h
  | succ turns ih =>
    rw [carry]
    split_ifs with hlarge
    · have hlarge' : 61 < value.toNat := hlarge
      apply ih
      have hsub : (value - tagCharRange).toNat = value.toNat - 61 :=
        BitVec.toNat_sub_of_le (Nat.le_of_lt hlarge)
      omega
    · exact Nat.le_of_not_lt hlarge

/-! ## The routines of a heap -/

/-- `LdkAllocateHeap`. The pool answers the request with `granted`. -/
def State.allocateHeap (s : State) (granted : Option Nat) (heapHandle : BitVec 64)
    (flags : BitVec 32) (size : BitVec 64) : Option Nat × State :=
  match tagOf heapHandle with
  | none => (none, s)
  | some tag =>
    match granted with
    | none => (none, s)
    | some base =>
      let s := s.allocatePool base (size + headerSize)
      let s := s.setHeader base ⟨heapHandle, tag, size⟩
      let s := if flagOn flags heapZeroMemory then s.zeroMemory (getBuffer base) size.toNat else s
      (some (getBuffer base), s.setLinks (s.links.insertTail .listHead (.header base)))

/-- `LdkFreeHeap`, which returns `TRUE` in any case. -/
def State.freeHeap (s : State) (baseAddress : Option Nat) : State :=
  match baseAddress with
  | none => s
  | some address =>
    let s := s.setLinks (s.links.removeEntry (.header (getHeader address)))
    s.freePool (getHeader address)

/-- What `LdkReAllocateHeap` does to the contents of the new buffer. -/
def State.moveContents (s : State) (flags : BitVec 32) (newBuffer address : Nat)
    (oldSize size : BitVec 64) : State :=
  if size < oldSize then s.copyMemory newBuffer address size.toNat
  else
    let s := s.copyMemory newBuffer address oldSize.toNat
    if flagOn flags heapZeroMemory then
      s.zeroMemory (newBuffer + oldSize.toNat) (size - oldSize).toNat
    else s

/-- `LdkReAllocateHeap` -/
def State.reAllocateHeap (s : State) (granted : Option Nat) (heapHandle : BitVec 64)
    (flags : BitVec 32) (baseAddress : Option Nat) (size : BitVec 64) : Option Nat × State :=
  match baseAddress with
  | none => (none, s)
  | some address =>
    if (s.headers (getHeader address)).heapHandle ≠ heapHandle then (none, s)
    else
      match s.allocateHeap granted heapHandle flags size with
      | (none, s) => (none, s)
      | (some newBuffer, s) =>
        let oldSize := (s.headers (getHeader address)).size
        let s := s.moveContents flags newBuffer address oldSize size
        (some newBuffer, s.freeHeap (some address))

/-- `LdkSizeHeap` -/
def State.sizeHeap (s : State) (heapHandle : BitVec 64) (baseAddress : Option Nat) : BitVec 64 :=
  match baseAddress with
  | none => -1
  | some address =>
    let header := s.headers (getHeader address)
    if header.heapHandle ≠ heapHandle then -1 else header.size

/-! ## Walking and tearing down the list -/

/-- `LDK_HEAP_WALK_ENTRY` -/
structure WalkEntry where
  data : Nat
  size : BitVec 64
  overhead : BitVec 8
  regionIndex : BitVec 8
  deriving DecidableEq, Repr

/-- What `LdkWalkHeap` returns. -/
inductive WalkResult where
  | invalidParameter
  | noMoreEntries
  | success (entry : WalkEntry)
  deriving DecidableEq, Repr

def State.walkEntry (s : State) (base : Nat) : WalkEntry where
  data := getBuffer base
  size := (s.headers base).size
  overhead := sizeofHeader.setWidth 8
  regionIndex := 0

/-- The loop of `LdkWalkHeap`, of at most so many rounds. -/
def State.walkFrom (s : State) (heapHandle : BitVec 64) : Nat → Node → Option WalkResult
  | 0, _ => none
  | _ + 1, .listHead => some .noMoreEntries
  | rounds + 1, .header base =>
    if (s.headers base).heapHandle ≠ heapHandle then
      s.walkFrom heapHandle rounds (s.links.flink (.header base))
    else some (.success (s.walkEntry base))

/-- `LdkWalkHeap`. `addressValid` is `MmIsAddressValid`. -/
def State.walkHeap (s : State) (addressValid : Nat → Bool) (rounds : Nat)
    (heapHandle : BitVec 64) (previousData : Option Nat) : Option WalkResult :=
  if heapHandle = 0 then some .invalidParameter
  else
    match previousData with
    | some data =>
      if !addressValid data then some .invalidParameter
      else if !addressValid (getHeader data) ||
          (s.headers (getHeader data)).heapHandle != heapHandle then some .invalidParameter
      else s.walkFrom heapHandle rounds (s.links.flink (.header (getHeader data)))
    | none => s.walkFrom heapHandle rounds (s.links.flink .listHead)

/-- The loop of `LdkpTerminateHeapList`, with the headers it has freed so far. -/
def State.terminateFrom : Nat → Node → List Nat → State → Option (List Nat × State)
  | 0, _, _, _ => none
  | _ + 1, .listHead, freed, s => some (freed, s)
  | rounds + 1, .header base, freed, s =>
    let removed := s.links.removeHead .listHead
    State.terminateFrom rounds removed.1 (freed ++ [base])
      ((s.setLinks removed.2).freePool base)

/-- `LdkpTerminateHeapList` -/
def State.terminateHeapList (s : State) (rounds : Nat) : Option (List Nat × State) :=
  let removed := s.links.removeTail .listHead
  State.terminateFrom rounds removed.1 [] (s.setLinks removed.2)

/-! ## Local memory -/

/-- The flags of the heap for those of local memory. -/
def heapFlags (uFlags : BitVec 32) : BitVec 32 :=
  if flagOn uFlags lmemZeroInit then heapZeroMemory else 0

/-- `(DWORD)uBytes`, as a size again. -/
def asDword (uBytes : BitVec 64) : BitVec 64 := (uBytes.setWidth 32).setWidth 64

/-- `LocalAlloc` -/
def State.localAlloc (s : State) (granted : Option Nat) (processHeap : BitVec 64)
    (uFlags : BitVec 32) (uBytes : BitVec 64) : Option Nat × State :=
  s.allocateHeap granted processHeap (heapFlags uFlags) (asDword uBytes)

/-- `LocalReAlloc` -/
def State.localReAlloc (s : State) (granted : Option Nat) (processHeap : BitVec 64)
    (hMem : Option Nat) (uBytes : BitVec 64) (uFlags : BitVec 32) : Option Nat × State :=
  s.reAllocateHeap granted processHeap (heapFlags uFlags) hMem (asDword uBytes)

/-- `LocalFree`, which returns `NULL` as the heap has freed in any case. -/
def State.localFree (s : State) (hMem : Option Nat) : Option Nat × State :=
  (none, s.freeHeap hMem)

end Ldk.Heap
