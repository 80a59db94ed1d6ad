import Mathlib
import Ldk.Lib.OutputBuffer

/-!
# Records that tell their size

Numbers in bytes, and records that lie one behind another. Each record tells its size, so that a
walk from one to the next finds them again.

- `littleEndian`, `number`: the bytes of a number, and the number in the bytes.
- `field`: the number at an offset of a record. It is found behind what lies before it
  (`field_skip`).
- `walk`: the records, as far as each tells a size that is not zero and not too large.
- `walk_flatten`: the walk finds the records that have been put together.
- `put_append`: a record is put behind what has been written.
-/

namespace Records

/-! ## Numbers -/

/-- The bytes of a number, the least one first. -/
def littleEndian : Nat → Nat → List UInt8
  | 0, _ => []
  | width + 1, n => UInt8.ofNat n :: littleEndian width (n / 256)

/-- The number in the bytes. -/
def number : List UInt8 → Nat
  | [] => 0
  | byte :: bytes => byte.toNat + 256 * number bytes

/-- The number at an offset. -/
def field (bytes : List UInt8) (offset width : Nat) : Nat :=
  number ((bytes.drop offset).take width)

@[simp] theorem length_littleEndian (width n : Nat) : (littleEndian width n).length = width := by
  induction width generalizing n with
  | zero => rfl
  | succ width ih => rw [littleEndian, List.length_cons, ih]

theorem number_littleEndian (width n : Nat) : number (littleEndian width n) = n % 256 ^ width := by
  induction width generalizing n with
  | zero => rw [pow_zero, Nat.mod_one]; rfl
  | succ width ih =>
    have hbyte : (UInt8.ofNat n).toNat = n % 256 := UInt8.toNat_ofNat'
    rw [littleEndian, number, ih, hbyte, pow_succ', Nat.mod_mul]

/-- What lies behind some bytes. -/
theorem field_skip {front : List UInt8} {length : Nat} (hfront : front.length = length)
    (bytes : List UInt8) (offset width : Nat) :
    field (front ++ bytes) (length + offset) width = field bytes offset width := by
  unfold field
  rw [← hfront, ← List.drop_drop, List.drop_left]

/-- A number at the start. -/
theorem field_zero (width n : Nat) (rest : List UInt8) :
    field (littleEndian width n ++ rest) 0 width = n % 256 ^ width := by
  unfold field
  rw [List.drop_zero, List.take_append_of_le_length (by rw [length_littleEndian]),
    List.take_of_length_le (by rw [length_littleEndian]), number_littleEndian]

/-! ## The walk -/

variable {α : Type}

/-- The records from one to the next, until there are no bytes left. -/
def walk (sizeOf : List α → Nat) : Nat → List α → Option (List (List α))
  | _, [] => some []
  | 0, _ :: _ => none
  | rounds + 1, a :: bytes =>
    let size := sizeOf (a :: bytes)
    if 0 < size ∧ size ≤ (a :: bytes).length then
      (walk sizeOf rounds ((a :: bytes).drop size)).map (((a :: bytes).take size) :: ·)
    else none

/-- A record tells its size, whatever lies behind it. -/
def TellsSize (sizeOf : List α → Nat) (record : List α) : Prop :=
  0 < record.length ∧ ∀ rest, sizeOf (record ++ rest) = record.length

variable {sizeOf : List α → Nat}

theorem walk_append {record : List α} (h : TellsSize sizeOf record) (rounds : Nat)
    (rest : List α) : walk sizeOf (rounds + 1) (record ++ rest) =
      (walk sizeOf rounds rest).map (record :: ·) := by
  obtain ⟨hpos, hsize⟩ := h
  have hsize' := hsize rest
  obtain ⟨a, record', rfl⟩ := List.exists_cons_of_ne_nil (List.ne_nil_of_length_pos hpos)
  rw [List.cons_append] at hsize' ⊢
  have hlength : (a :: (record' ++ rest)).length = (a :: record').length + rest.length := by
    rw [← List.cons_append, List.length_append]
  rw [walk, hsize', if_pos ⟨hpos, by rw [hlength]; exact Nat.le_add_right _ _⟩, ← List.cons_append,
    List.drop_left, List.take_left]

/-- The walk finds the records. -/
theorem walk_flatten {records : List (List α)} (h : ∀ record ∈ records, TellsSize sizeOf record)
    {rounds : Nat} (hrounds : records.length ≤ rounds) :
    walk sizeOf rounds records.flatten = some records := by
  induction records generalizing rounds with
  | nil =>
    cases rounds with
    | zero => rfl
    | succ rounds => rfl
  | cons record records ih =>
    cases rounds with
    | zero => exact absurd hrounds (by simp)
    | succ rounds =>
      rw [List.flatten_cons, walk_append (h record List.mem_cons_self),
        ih (fun r hr => h r (List.mem_cons_of_mem _ hr)) (Nat.le_of_succ_le_succ hrounds)]
      rfl

/-- There are no more records than bytes. -/
theorem length_le_flatten {records : List (List α)} (h : ∀ record ∈ records, 0 < record.length) :
    records.length ≤ records.flatten.length := by
  induction records with
  | nil => exact Nat.le_refl 0
  | cons record records ih =>
    have hrecord := h record List.mem_cons_self
    have hrest := ih fun r hr => h r (List.mem_cons_of_mem _ hr)
    rw [List.flatten_cons, List.length_append, List.length_cons]
    omega

/-! ## Writing -/

/-- A record behind what has been written. -/
theorem put_append {done rest record : List α} (hroom : record.length ≤ rest.length) :
    OutputBuffer.put (done ++ rest) done.length record =
      .ok (done ++ record ++ rest.drop record.length) := by
  unfold OutputBuffer.put
  rw [if_pos (by rw [List.length_append]; omega), List.take_left, ← List.drop_drop, List.drop_left]

end Records
