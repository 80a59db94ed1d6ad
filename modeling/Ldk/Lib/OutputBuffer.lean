import Mathlib
import Ldk.Lib.Yields

/-!
# Output buffers

A caller's buffer is the list of its elements, and a text is written to it piece by piece.

- `slice`, `put`, `copy`: a read and a write of a piece, which fault outside the list.
- `Written`: the first elements of a text are those of the buffer. A piece that continues the text
  writes more of it (`Written.put`).
- `Holds`: the buffer begins with the text. A buffer that is too short does not
  (`Holds.length_le`).
- `putConverted`: elements that are converted one by one, with a zero behind them.
-/

namespace OutputBuffer

variable {α : Type}

/-- A piece that is not inside the list. -/
structure Outside where
  start : Nat
  length : Nat
  deriving DecidableEq, Repr

/-- A piece of a list. -/
def slice (source : List α) (start length : Nat) : Except Outside (List α) :=
  if start + length ≤ source.length then .ok ((source.drop start).take length)
  else .error ⟨start, length⟩

/-- A piece is put at an index. -/
def put (buffer : List α) (start : Nat) (piece : List α) : Except Outside (List α) :=
  if start + piece.length ≤ buffer.length then
    .ok (buffer.take start ++ piece ++ buffer.drop (start + piece.length))
  else .error ⟨start, piece.length⟩

/-- A piece of one list is put into another. -/
def copy (buffer : List α) (start : Nat) (source : List α) (sourceStart length : Nat) :
    Except Outside (List α) := do
  let piece ← slice source sourceStart length
  put buffer start piece

/-- The buffer begins with the text. -/
def Holds (buffer text : List α) : Prop := buffer.take text.length = text

instance [DecidableEq α] (buffer text : List α) : Decidable (Holds buffer text) :=
  inferInstanceAs (Decidable (_ = _))

/-- The first elements of a text are in a buffer of some size. -/
structure Written (n : Nat) (text : List α) (count : Nat) (buffer : List α) : Prop where
  size : buffer.length = n
  count_le : count ≤ n
  taken : buffer.take count = text.take count

variable {buffer text source piece : List α} {n count start length sourceStart : Nat}

theorem slice_spec (h : start + length ≤ source.length) :
    Yields (slice source start length) fun piece => piece = (source.drop start).take length := by
  unfold slice
  rw [if_pos h]
  exact .ok rfl

theorem put_spec (h : start + piece.length ≤ buffer.length) :
    Yields (put buffer start piece) fun buffer' => buffer'.length = buffer.length ∧
      buffer'.take (start + piece.length) = buffer.take start ++ piece := by
  unfold put
  rw [if_pos h]
  apply Yields.ok
  have hlength : (buffer.take start ++ piece).length = start + piece.length := by
    rw [List.length_append, List.length_take_of_le (by omega)]
  constructor
  · rw [List.length_append, hlength, List.length_drop]
    omega
  · rw [← hlength]
    exact List.take_left

theorem put_faults (h : buffer.length < start + piece.length) : Faults (put buffer start piece) :=
  ⟨_, if_neg (Nat.not_le_of_lt h)⟩

theorem slice_faults (h : source.length < start + length) : Faults (slice source start length) :=
  ⟨_, if_neg (Nat.not_le_of_lt h)⟩

/-- Nothing has been written. -/
theorem Written.nothing (buffer text : List α) : Written buffer.length text 0 buffer :=
  ⟨rfl, Nat.zero_le _, rfl⟩

/-- A piece that continues the text. -/
theorem Written.put (h : Written n text count buffer)
    (hpiece : piece = (text.drop count).take piece.length) (hroom : count + piece.length ≤ n) :
    Yields (put buffer count piece) (Written n text (count + piece.length)) := by
  apply (put_spec (h.size.symm ▸ hroom)).mono
  rintro buffer' ⟨hsize, htaken⟩
  refine ⟨hsize.trans h.size, hroom, ?_⟩
  rw [htaken, h.taken, List.take_add, ← hpiece]

/-- A piece of another list that continues the text. -/
theorem Written.copy (h : Written n text count buffer)
    (hsource : sourceStart + length ≤ source.length)
    (hpiece : (source.drop sourceStart).take length = (text.drop count).take length)
    (hroom : count + length ≤ n) :
    Yields (copy buffer count source sourceStart length) (Written n text (count + length)) := by
  apply (slice_spec hsource).bind
  rintro piece rfl
  have hlength : ((source.drop sourceStart).take length).length = length := by
    rw [List.length_take_of_le]
    rw [List.length_drop]
    omega
  have hput := h.put (by rw [hlength]; exact hpiece) (by rw [hlength]; exact hroom)
  rwa [hlength] at hput

/-- All of the text has been written. -/
theorem Written.holds (h : Written n text text.length buffer) : Holds buffer text := by
  unfold Holds
  rw [h.taken, List.take_length]

theorem Holds.length_le (h : Holds buffer text) : text.length ≤ buffer.length := by
  have hlength := congrArg List.length h
  rw [List.length_take] at hlength
  omega

/-- The first part of what the buffer holds. -/
theorem Holds.left (h : Holds buffer (text ++ piece)) : Holds buffer text := by
  have hle : text.length ≤ (text ++ piece).length := by
    rw [List.length_append]
    exact Nat.le_add_right _ _
  unfold Holds at h ⊢
  rw [← Nat.min_eq_left hle, ← List.take_take, h, List.take_left]

/-- More text behind all of it. -/
theorem Holds.append (h : Holds buffer text) (hsize : buffer.length = n)
    (hroom : text.length + piece.length ≤ n) :
    Yields (OutputBuffer.put buffer text.length piece) fun buffer' =>
      buffer'.length = n ∧ Holds buffer' (text ++ piece) := by
  have hlonger : Written n (text ++ piece) text.length buffer :=
    ⟨hsize, Nat.le_of_add_right_le hroom, by rw [h, List.take_left]⟩
  apply (hlonger.put (by rw [List.drop_left, List.take_length]) hroom).mono
  intro buffer' hwritten
  rw [← List.length_append] at hwritten
  exact ⟨hwritten.size, hwritten.holds⟩

/-- The text before the sign that ends it. -/
theorem Holds.takeWhile {p : α → Bool} {a : α} (h : Holds buffer (text ++ [a]))
    (htext : ∀ x ∈ text, p x = true) (ha : p a = false) : buffer.takeWhile p = text := by
  have hbuffer : buffer = text ++ a :: buffer.drop (text ++ [a]).length := by
    calc buffer = buffer.take (text ++ [a]).length ++ buffer.drop (text ++ [a]).length :=
          (List.take_append_drop _ _).symm
      _ = text ++ a :: buffer.drop (text ++ [a]).length := by
          rw [h, List.append_assoc, List.singleton_append]
  rw [hbuffer, List.takeWhile_append_of_pos htext,
    List.takeWhile_cons_of_neg (by rw [ha]; exact Bool.false_ne_true), List.append_nil]

/-! ## Conversions -/

section Conversions

variable {β : Type} [Zero α] {convert : β → α} {message : List β}

/-- Elements from an index on, each converted, and a zero behind them. -/
def putConverted (convert : β → α) : List β → Nat → List α → Except Outside (List α)
  | [], start, buffer => put buffer start [0]
  | c :: message, start, buffer => do
    let buffer ← put buffer start [convert c]
    putConverted convert message (start + 1) buffer

theorem putConverted_holds (h : Holds buffer text)
    (hroom : text.length + message.length < buffer.length) :
    Yields (putConverted convert message text.length buffer) fun buffer' =>
      buffer'.length = buffer.length ∧ Holds buffer' (text ++ message.map convert ++ [0]) := by
  induction message generalizing buffer text with
  | nil =>
    rw [List.map_nil, List.append_nil]
    exact h.append rfl hroom
  | cons c message ih =>
    rw [List.length_cons] at hroom
    have hfirst : Yields (put buffer text.length [convert c]) _ :=
      h.append rfl (show text.length + 1 ≤ buffer.length by omega)
    apply hfirst.bind
    rintro next ⟨hsize, hnext⟩
    have hlength : (text ++ [convert c]).length = text.length + 1 := List.length_append
    have hrest := ih hnext (by omega)
    rw [hlength, List.append_assoc text, List.singleton_append, hsize] at hrest
    exact hrest

theorem putConverted_faults (hstart : start ≤ buffer.length)
    (h : buffer.length ≤ start + message.length) :
    Faults (putConverted convert message start buffer) := by
  induction message generalizing buffer start with
  | nil => exact put_faults (Nat.lt_succ_of_le h)
  | cons c message ih =>
    rw [List.length_cons] at h
    by_cases hroom : start + 1 ≤ buffer.length
    · apply Faults.of_yields
        (put_spec (show start + [convert c].length ≤ buffer.length from hroom))
      rintro next ⟨hsize, -⟩
      exact ih (by omega) (by omega)
    · have houtside : buffer.length < start + [convert c].length := Nat.lt_of_not_le hroom
      exact (put_faults houtside).bind _

end Conversions

end OutputBuffer
