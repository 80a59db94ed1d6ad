import Mathlib
import Ldk.Lib.Yields

/-!
# Blocks of bytes

A block of memory has a size and bytes at the offsets below it. A program reads and writes
little-endian numbers of some width; outside of the block it faults.

- `readLE`, `writeLE`: numbers at an offset, whatever the size of the block.
- `read`, `write`: the same with the check.
- `agrees_read`: what is read depends on the bytes it is read from alone.
- `write_other`: a write changes the bytes it is made to alone.
- `copyFrom`, `window`: bytes of one block in another, and a part of a block by itself.
-/

/-- What goes wrong. -/
inductive ByteBlock.Fault where
  /-- An access of some length at an offset is not inside the block. -/
  | outside (offset length : Nat)
  /-- The rounds granted to a loop are used up. -/
  | endless
  deriving DecidableEq, Repr

/-- Bytes at offsets; those from the size on do not belong to the block. -/
structure ByteBlock where
  size : Nat
  bytes : Nat → UInt8

namespace ByteBlock

variable (b b' : ByteBlock) (offset length : Nat)

/-! ## Numbers -/

/-- The number in the bytes at an offset, the least byte first. -/
def readLE : Nat → Nat → Nat
  | _, 0 => 0
  | offset, length + 1 => (b.bytes offset).toNat + 256 * readLE (offset + 1) length

/-- The bytes of a number put at an offset. -/
def writeLE (value : Nat) : ByteBlock where
  size := b.size
  bytes i :=
    if offset ≤ i ∧ i < offset + length then UInt8.ofNat (value / 256 ^ (i - offset))
    else b.bytes i

/-- The access is inside the block. -/
def Holds : Prop := offset + length ≤ b.size

instance : Decidable (b.Holds offset length) := inferInstanceAs (Decidable (_ ≤ _))

def read : Except Fault Nat :=
  if b.Holds offset length then .ok (b.readLE offset length) else .error (.outside offset length)

def write (value : Nat) : Except Fault ByteBlock :=
  if b.Holds offset length then .ok (b.writeLE offset length value)
  else .error (.outside offset length)

/-! ## Reading -/

variable {b b' offset length}

theorem readLE_lt : b.readLE offset length < 256 ^ length := by
  induction length generalizing offset with
  | zero => exact Nat.one_pos
  | succ length ih =>
    have hbyte := (b.bytes offset).toNat_lt
    have hrest := @ih (offset + 1)
    rw [readLE, pow_succ]
    omega

theorem read_eq (h : b.Holds offset length) : b.read offset length = .ok (b.readLE offset length) :=
  if_pos h

theorem read_faults (h : ¬ b.Holds offset length) : Faults (b.read offset length) :=
  ⟨_, if_neg h⟩

/-- What has been read was inside the block. -/
theorem of_read {value : Nat} (h : b.read offset length = .ok value) :
    b.Holds offset length ∧ value = b.readLE offset length := by
  unfold read at h
  split at h
  · exact ⟨‹_›, (Except.ok.inj h).symm⟩
  · cases h

theorem of_write {value : Nat} (h : b.write offset length value = .ok b') :
    b.Holds offset length ∧ b' = b.writeLE offset length value := by
  unfold write at h
  split at h
  · exact ⟨‹_›, (Except.ok.inj h).symm⟩
  · cases h

theorem write_eq (h : b.Holds offset length) (value : Nat) :
    b.write offset length value = .ok (b.writeLE offset length value) :=
  if_pos h

/-- Two blocks have the same bytes in a range. -/
def Agrees (b b' : ByteBlock) (offset length : Nat) : Prop :=
  ∀ i, offset ≤ i → i < offset + length → b'.bytes i = b.bytes i

namespace Agrees

variable {b'' : ByteBlock} {offset' length' : Nat}

theorem refl (b : ByteBlock) (offset length : Nat) : Agrees b b offset length := fun _ _ _ => rfl

theorem trans (h : Agrees b b' offset length) (h' : Agrees b' b'' offset length) :
    Agrees b b'' offset length :=
  fun i hlow hhigh => (h' i hlow hhigh).trans (h i hlow hhigh)

theorem mono (h : Agrees b b' offset length) (hlow : offset ≤ offset')
    (hhigh : offset' + length' ≤ offset + length) : Agrees b b' offset' length' :=
  fun i hi hi' => h i (Nat.le_trans hlow hi) (Nat.lt_of_lt_of_le hi' hhigh)

/-- The same number is read. -/
theorem readLE (h : Agrees b b' offset length) :
    b'.readLE offset length = b.readLE offset length := by
  induction length generalizing offset with
  | zero => rfl
  | succ length ih =>
    have hfirst := h offset (Nat.le_refl _) (by omega)
    have hrest := ih (h.mono (Nat.le_succ offset) (by omega))
    rw [ByteBlock.readLE, ByteBlock.readLE, hfirst, hrest]

end Agrees

/-! ## Writing -/

theorem writeLE_size (value : Nat) : (b.writeLE offset length value).size = b.size := rfl

/-- A write leaves the bytes beside it alone. -/
theorem agrees_writeLE {offset' length' : Nat} (value : Nat)
    (h : offset' + length' ≤ offset ∨ offset + length ≤ offset') :
    Agrees b (b.writeLE offset length value) offset' length' := by
  intro i hlow hhigh
  exact if_neg (by omega)

/-- The bytes of a number make the number. -/
theorem readLE_of_bytes {n : Nat}
    (h : ∀ i, i < length → b'.bytes (offset + i) = UInt8.ofNat (n / 256 ^ i)) :
    b'.readLE offset length = n % 256 ^ length := by
  induction length generalizing offset n with
  | zero => rw [pow_zero, Nat.mod_one]; rfl
  | succ length ih =>
    have hfirst : (b'.bytes offset).toNat = n % 256 := by
      have hbyte := h 0 (Nat.succ_pos _)
      rw [Nat.add_zero, pow_zero, Nat.div_one] at hbyte
      rw [hbyte]
      exact UInt8.toNat_ofNat'
    have hrest : b'.readLE (offset + 1) length = n / 256 % 256 ^ length := by
      apply ih
      intro i hi
      have hbyte := h (i + 1) (Nat.succ_lt_succ hi)
      rw [Nat.add_right_comm, Nat.add_assoc, hbyte, Nat.div_div_eq_div_mul, pow_succ']
    rw [ByteBlock.readLE, hfirst, hrest, pow_succ', Nat.mod_mul]

/-- What is written is read back, as far as it has room. -/
theorem readLE_writeLE (value : Nat) :
    (b.writeLE offset length value).readLE offset length = value % 256 ^ length := by
  apply readLE_of_bytes
  intro i hi
  have hbyte : (b.writeLE offset length value).bytes (offset + i) =
      UInt8.ofNat (value / 256 ^ (offset + i - offset)) := if_pos (by omega)
  rw [hbyte, Nat.add_sub_cancel_left]

/-! ## Parts of blocks -/

/-- Bytes that are copied from one block to another. -/
def copyFrom (b source : ByteBlock) (target start length : Nat) : Except Fault ByteBlock :=
  if length = 0 then .ok b
  else if ¬ source.Holds start length then .error (.outside start length)
  else if ¬ b.Holds target length then .error (.outside target length)
  else
    .ok { b with bytes := fun i =>
      if target ≤ i ∧ i < target + length then source.bytes (start + (i - target)) else b.bytes i }

/-- A part of a block, as a block of its own. -/
def window (b : ByteBlock) (start length : Nat) : ByteBlock where
  size := length
  bytes i := if i < length then b.bytes (start + i) else 0

theorem copyFrom_spec {source : ByteBlock} {target start : Nat}
    (hsource : source.Holds start length) (hb : b.Holds target length) :
    Yields (b.copyFrom source target start length) fun b' =>
      b'.size = b.size ∧ (∀ i, i < length → b'.bytes (target + i) = source.bytes (start + i)) ∧
        ∀ i, (i < target ∨ target + length ≤ i) → b'.bytes i = b.bytes i := by
  unfold copyFrom
  apply Yields.ite
  · rintro rfl
    exact Yields.ok ⟨rfl, nofun, fun _ _ => rfl⟩
  · intro _
    rw [if_neg (not_not.mpr hsource), if_neg (not_not.mpr hb)]
    apply Yields.ok
    refine ⟨rfl, ?_, ?_⟩
    · intro i hi
      dsimp only
      rw [if_pos (by omega), Nat.add_sub_cancel_left]
    · intro i hi
      exact if_neg (by omega)

/-- The same number is in two places whose bytes are the same. -/
theorem readLE_same {offset' : Nat}
    (h : ∀ i, i < length → b'.bytes (offset' + i) = b.bytes (offset + i)) :
    b'.readLE offset' length = b.readLE offset length := by
  induction length generalizing offset offset' with
  | zero => rfl
  | succ length ih =>
    have hrest : b'.readLE (offset' + 1) length = b.readLE (offset + 1) length := by
      apply ih
      intro i hi
      rw [Nat.add_right_comm, Nat.add_right_comm offset]
      exact h (i + 1) (Nat.succ_lt_succ hi)
    rw [ByteBlock.readLE, ByteBlock.readLE, hrest]
    congr 2
    exact h 0 (Nat.succ_pos _)

theorem readLE_window {start size : Nat} (h : offset + length ≤ size) :
    (b.window start size).readLE offset length = b.readLE (start + offset) length := by
  apply readLE_same
  intro i hi
  rw [Nat.add_assoc]
  exact if_pos (by omega)

/-- A read inside a window is a read of the block. -/
theorem read_window {start size : Nat} (hsize : b.Holds start size) (h : offset + length ≤ size) :
    (b.window start size).read offset length = b.read (start + offset) length := by
  have hin : (b.window start size).Holds offset length := h
  have hout : b.Holds (start + offset) length := by
    unfold Holds at hsize ⊢
    omega
  rw [read_eq hin, read_eq hout, readLE_window h]

/-- Two windows with the same bytes. -/
theorem window_eq {start start' size : Nat}
    (h : ∀ i, i < size → b'.bytes (start' + i) = b.bytes (start + i)) :
    b'.window start' size = b.window start size := by
  unfold window
  congr 1
  funext i
  split
  · exact h i ‹_›
  · rfl

end ByteBlock
