import Ldk.FormatMessage.State

/-!
# What a formatter does

A text is delivered as a whole, with a zero behind it, or nothing of it is and the function returns 0.

- `Delivers`: a buffer or a block is there, and the text has room in it.
- `Formatted`: the two outcomes, for the characters a formatter is given.
- `ldkpFormatCounted_spec`, `ldkpFormatString_spec`: what the functions do with a text whose length
  is a `DWORD`, and that of its block.
- `ldkpFormatString_faults`: no other text is formatted.
-/

namespace Ldk.FormatMessage

open OutputBuffer (Outside put putConverted putConverted_holds putConverted_faults)

variable {α β : Type} [Zero α] {memory : Memory α} {allocateBuffer : Prop}
  [Decidable allocateBuffer] {nSize rounds : Nat}

/-! ## Outcomes -/

namespace State

variable (s : State α)

/-- Where a text is stored. -/
def target (allocateBuffer : Prop) [Decidable allocateBuffer] : Option (List α) :=
  if allocateBuffer then s.block else s.buffer

/-- The text is stored, with a zero behind it. -/
def Stores (allocateBuffer : Prop) [Decidable allocateBuffer] (text : List α) : Prop :=
  ∃ stored ∈ s.target allocateBuffer, OutputBuffer.Holds stored (text ++ [0])

/-- No text is stored, or the empty one. -/
def Blank (allocateBuffer : Prop) [Decidable allocateBuffer] : Prop :=
  ∀ stored ∈ s.target allocateBuffer, stored = [] ∨ OutputBuffer.Holds stored [0]

end State

/-- A text of some length has room; a block is as large as it has to be. -/
def Fits (allocateBuffer : Prop) (nSize : Nat) (s : State α) (length : Nat) : Prop :=
  allocateBuffer ∨ s.buffer.isSome ∧ length < nSize

/-- A text of some length is delivered. -/
def Delivers (memory : Memory α) (allocateBuffer : Prop) (nSize : Nat) (s : State α)
    (length : Nat) : Prop :=
  s.buffer.isSome ∧ (allocateBuffer ∧ (memory s.allocations).isSome ∨
    ¬ allocateBuffer ∧ length < nSize)

instance (s : State α) (length : Nat) :
    Decidable (Delivers memory allocateBuffer nSize s length) :=
  inferInstanceAs (Decidable (_ ∧ (_ ∧ _ ∨ _ ∧ _)))

/-- What a formatter leaves: the buffer is as large as it was. -/
structure Frame (allocateBuffer : Prop) [Decidable allocateBuffer] (s s' : State α) : Prop where
  buffer : s'.buffer.map List.length = s.buffer.map List.length
  allocations : s'.allocations =
    if allocateBuffer ∧ s.buffer.isSome then s.allocations + 1 else s.allocations

/-- What a formatter does with a text. -/
inductive Formatted (memory : Memory α) (allocateBuffer : Prop) [Decidable allocateBuffer]
    (nSize : Nat) (s : State α) (text : List α) : Nat × State α → Prop where
  | delivered (s' : State α) (hframe : Frame allocateBuffer s s')
      (hdelivers : Delivers memory allocateBuffer nSize s text.length)
      (hstores : s'.Stores allocateBuffer text) :
      Formatted memory allocateBuffer nSize s text (text.length, s')
  | failed (s' : State α) (hframe : Frame allocateBuffer s s')
      (hdelivers : ¬ Delivers memory allocateBuffer nSize s text.length)
      (hblank : (allocateBuffer → s.Blank allocateBuffer) → s'.Blank allocateBuffer)
      (herror : ¬ Fits allocateBuffer nSize s text.length →
        s'.lastError = some .insufficientBuffer) :
      Formatted memory allocateBuffer nSize s text (0, s')

omit [Zero α] [Decidable allocateBuffer] in
/-- What has room is not too long for what it is part of. -/
theorem Fits.of_le {s : State α} {length length' : Nat}
    (h : Fits allocateBuffer nSize s length) (hle : length' ≤ length) :
    Fits allocateBuffer nSize s length' :=
  h.imp_right fun ⟨hbuffer, hlt⟩ => ⟨hbuffer, Nat.lt_of_le_of_lt hle hlt⟩

omit [Zero α] [Decidable allocateBuffer] in
theorem Delivers.fits {s : State α} {length : Nat}
    (h : Delivers memory allocateBuffer nSize s length) : Fits allocateBuffer nSize s length := by
  rcases h with ⟨hbuffer, ⟨hallocate, -⟩ | ⟨-, hlt⟩⟩
  · exact .inl hallocate
  · exact .inr ⟨hbuffer, hlt⟩

/-! ## Texts of some length -/

theorem checked_spec {γ : Type} {x : Except Outside γ} {P : γ → Prop} (h : Yields x P) :
    Yields (checked x) P := by
  obtain ⟨a, rfl, ha⟩ := h
  exact Yields.ok ha

theorem checked_faults {γ : Type} {x : Except Outside γ} (h : Faults x) : Faults (checked x) := by
  obtain ⟨piece, rfl⟩ := h
  exact ⟨.outside piece, rfl⟩

/-- With `FORMAT_MESSAGE_ALLOCATE_BUFFER` a text is put in a block. -/
theorem ldkpFormatCounted_block (hallocate : allocateBuffer) {convert : β → α} {message : List β}
    {s : State α} (hlength : Delivers memory allocateBuffer nSize s message.length →
      message.length + 1 < 2 ^ 32) :
    Yields (ldkpFormatCounted memory allocateBuffer nSize convert message s)
      (Formatted memory allocateBuffer nSize s (message.map convert)) := by
  obtain ⟨buffer, block, allocations, lastError⟩ := s
  have hmap : (message.map convert).length = message.length := List.length_map _
  unfold ldkpFormatCounted
  rw [if_pos hallocate]
  cases buffer with
  | none =>
    apply Yields.ok
    apply Formatted.failed
    · exact ⟨rfl, (if_neg fun h => Bool.false_ne_true h.2).symm⟩
    · exact fun h => Bool.false_ne_true h.1
    · exact fun h => h hallocate
    · exact fun h => absurd (.inl hallocate) h
  | some buffer =>
    have hcount : allocations + 1 = if allocateBuffer ∧ (some buffer).isSome then allocations + 1
        else allocations := (if_pos ⟨hallocate, rfl⟩).symm
    dsimp only
    cases hmemory : memory allocations with
    | none =>
      apply Yields.ok
      apply Formatted.failed
      · exact ⟨rfl, hcount⟩
      · rintro ⟨-, ⟨-, hsome⟩ | ⟨hnot, -⟩⟩
        · rw [hmemory] at hsome
          exact Bool.false_ne_true hsome
        · exact hnot hallocate
      · intro h
        have hblank := h hallocate
        unfold State.Blank State.target at hblank ⊢
        rw [if_pos hallocate] at hblank ⊢
        exact hblank
      · exact fun h => absurd (.inl hallocate) h
    | some contents =>
      have hdelivers : Delivers memory allocateBuffer nSize
          ⟨some buffer, block, allocations, lastError⟩ message.length :=
        ⟨rfl, .inl ⟨hallocate, by rw [hmemory]; rfl⟩⟩
      -- the block has room for the message and its null
      have hroom : ((List.range ((message.length + 1) % 2 ^ 32)).map contents).length =
          message.length + 1 := by
        rw [List.length_map, List.length_range, Nat.mod_eq_of_lt (hlength hdelivers)]
      have hput : Yields (putConverted convert message ([] : List α).length _) _ :=
        putConverted_holds (rfl : OutputBuffer.Holds _ [])
          (show 0 + message.length < _ by rw [hroom]; omega)
      apply (checked_spec hput).bind
      rintro target ⟨-, hholds⟩
      rw [← hmap] at hdelivers
      apply Yields.ok
      rw [← hmap]
      exact .delivered _ ⟨rfl, hcount⟩ hdelivers ⟨target, if_pos hallocate, hholds⟩

/-- Without it the text is put in the caller's buffer. -/
theorem ldkpFormatCounted_buffer (hallocate : ¬ allocateBuffer) {convert : β → α}
    {message : List β} {s : State α} (hsize : ∀ buffer ∈ s.buffer, buffer.length = nSize) :
    Yields (ldkpFormatCounted memory allocateBuffer nSize convert message s)
      (Formatted memory allocateBuffer nSize s (message.map convert)) := by
  obtain ⟨buffer, block, allocations, lastError⟩ := s
  have hmap : (message.map convert).length = message.length := List.length_map _
  have hcount : allocations = if allocateBuffer ∧ buffer.isSome then allocations + 1
      else allocations := (if_neg fun h => hallocate h.1).symm
  unfold ldkpFormatCounted
  rw [if_neg hallocate]
  cases buffer with
  | none =>
    apply Yields.ok
    apply Formatted.failed
    · exact ⟨rfl, hcount⟩
    · exact fun h => Bool.false_ne_true h.1
    · intro _ stored hstored
      rw [State.target, if_neg hallocate] at hstored
      cases hstored
    · exact fun _ => rfl
  | some buffer =>
    have hsize : buffer.length = nSize := hsize buffer rfl
    have hdelivers : ∀ length, Delivers memory allocateBuffer nSize
        ⟨some buffer, block, allocations, lastError⟩ length ↔ length < nSize :=
      fun length => ⟨fun h => (h.2.resolve_left fun h => hallocate h.1).2,
        fun h => ⟨rfl, .inr ⟨hallocate, h⟩⟩⟩
    dsimp only
    apply Yields.ite
    · rintro rfl
      apply Yields.ok
      apply Formatted.failed
      · exact ⟨rfl, hcount⟩
      · rw [hdelivers]
        exact Nat.not_lt_zero _
      · intro _ stored hstored
        rw [State.target, if_neg hallocate] at hstored
        obtain rfl := Option.some.inj hstored
        exact .inl (List.eq_nil_of_length_eq_zero hsize)
      · exact fun _ => rfl
    -- a buffer that is too small gets a null, and the message is not delivered
    intro hpositive
    apply Yields.ite
    · intro hsmall
      have hput : Yields (put buffer ([] : List α).length [0]) _ :=
        OutputBuffer.Holds.append (rfl : OutputBuffer.Holds buffer []) hsize
          (show 0 + 1 ≤ nSize by omega)
      apply (checked_spec hput).bind
      rintro next ⟨hnext, hholds⟩
      apply Yields.ok
      apply Formatted.failed
      · exact ⟨congrArg some (hnext.trans hsize.symm), hcount⟩
      · rw [hdelivers, hmap]
        exact Nat.not_lt_of_le hsmall
      · intro _ stored hstored
        rw [State.target, if_neg hallocate] at hstored
        obtain rfl := Option.some.inj hstored
        exact .inr hholds
      · exact fun _ => rfl
    · intro hlarge
      have hput : Yields (putConverted convert message ([] : List α).length _) _ :=
        putConverted_holds (rfl : OutputBuffer.Holds buffer [])
          (show 0 + message.length < buffer.length by omega)
      apply (checked_spec hput).bind
      rintro target ⟨htarget, hholds⟩
      apply Yields.ok
      rw [← hmap]
      refine .delivered _ ⟨congrArg some htarget, hcount⟩ ?_ ⟨target, if_neg hallocate, hholds⟩
      rw [hdelivers, hmap]
      exact Nat.lt_of_not_le hlarge

theorem ldkpFormatCounted_spec {convert : β → α} {message : List β} {s : State α}
    (hsize : ∀ buffer ∈ s.buffer, buffer.length = nSize)
    (hlength : allocateBuffer → Delivers memory allocateBuffer nSize s message.length →
      message.length + 1 < 2 ^ 32) :
    Yields (ldkpFormatCounted memory allocateBuffer nSize convert message s)
      (Formatted memory allocateBuffer nSize s (message.map convert)) := by
  by_cases hallocate : allocateBuffer
  · exact ldkpFormatCounted_block hallocate (hlength hallocate)
  · exact ldkpFormatCounted_buffer hallocate hsize

/-- The terminator of a text of `2 ^ 32 - 1` characters is put outside of the block. -/
theorem ldkpFormatCounted_faults {convert : β → α} {message : List β} {s : State α}
    (hallocate : allocateBuffer)
    (hdelivers : Delivers memory allocateBuffer nSize s message.length)
    (hlength : message.length + 1 = 2 ^ 32) :
    Faults (ldkpFormatCounted memory allocateBuffer nSize convert message s) := by
  obtain ⟨buffer, hbuffer⟩ := Option.isSome_iff_exists.mp hdelivers.1
  obtain ⟨contents, hmemory⟩ := Option.isSome_iff_exists.mp
    (hdelivers.2.resolve_right fun h => h.1 hallocate).2
  unfold ldkpFormatCounted
  rw [if_pos hallocate, hbuffer]
  dsimp only
  rw [hmemory, hlength, Nat.mod_self]
  dsimp only
  have hput : Faults (putConverted convert message 0 ((List.range 0).map contents)) :=
    putConverted_faults (Nat.zero_le _) (Nat.zero_le _)
  exact (checked_faults hput).bind _

/-! ## Strings -/

/-- The loop ends at the zero. -/
theorem stringLengthFrom_eq {string : List β} (hstring : string.length < 2 ^ 32) {length : Nat}
    (hlength : length ≤ string.length) (hrounds : string.length - length < rounds) :
    stringLengthFrom string rounds length = .ok string.length := by
  induction rounds generalizing length with
  | zero => exact absurd hrounds (Nat.not_lt_zero _)
  | succ rounds ih =>
    unfold stringLengthFrom
    by_cases hmore : length < string.length
    · rw [if_pos hmore, Nat.mod_eq_of_lt (by omega)]
      exact ih hmore (by omega)
    · rw [if_neg hmore, Nat.le_antisymm hlength (Nat.le_of_not_lt hmore)]

/-- The loop does not get to a zero that is behind `2 ^ 32` characters. -/
theorem stringLengthFrom_endless {string : List β} (hstring : 2 ^ 32 ≤ string.length)
    {length : Nat} (hlength : length < 2 ^ 32) : Faults (stringLengthFrom string rounds length) := by
  induction rounds generalizing length with
  | zero => exact ⟨_, rfl⟩
  | succ rounds ih =>
    unfold stringLengthFrom
    rw [if_pos (Nat.lt_of_lt_of_le hlength hstring)]
    exact ih (Nat.mod_lt _ (by omega))

theorem ldkpFormatString_spec {convert : β → α} {message : List β} {s : State α}
    (hrounds : 2 ^ 32 ≤ rounds) (hsize : ∀ buffer ∈ s.buffer, buffer.length = nSize)
    (hstring : message.length < 2 ^ 32)
    (hlength : allocateBuffer → Delivers memory allocateBuffer nSize s message.length →
      message.length + 1 < 2 ^ 32) :
    Yields (ldkpFormatString memory allocateBuffer nSize rounds convert message s)
      (Formatted memory allocateBuffer nSize s (message.map convert)) := by
  unfold ldkpFormatString
  rw [stringLengthFrom_eq hstring (Nat.zero_le _) (by omega), Yields.ok_bind, List.take_length]
  exact ldkpFormatCounted_spec hsize hlength

theorem ldkpFormatString_faults {convert : β → α} {message : List β} {s : State α}
    (hrounds : 2 ^ 32 ≤ rounds)
    (h : ¬ (message.length < 2 ^ 32 ∧
      (allocateBuffer → Delivers memory allocateBuffer nSize s message.length →
        message.length + 1 < 2 ^ 32))) :
    Faults (ldkpFormatString memory allocateBuffer nSize rounds convert message s) := by
  unfold ldkpFormatString
  by_cases hstring : message.length < 2 ^ 32
  · have hlast : allocateBuffer ∧ Delivers memory allocateBuffer nSize s message.length ∧
        ¬ message.length + 1 < 2 ^ 32 := by
      by_contra hnot
      exact h ⟨hstring, fun hallocate hdelivers =>
        by_contra fun hlong => hnot ⟨hallocate, hdelivers, hlong⟩⟩
    obtain ⟨hallocate, hdelivers, hlong⟩ := hlast
    rw [stringLengthFrom_eq hstring (Nat.zero_le _) (by omega), Yields.ok_bind, List.take_length]
    exact ldkpFormatCounted_faults hallocate hdelivers (by omega)
  · exact (stringLengthFrom_endless (Nat.le_of_not_lt hstring) (by omega)).bind _

end Ldk.FormatMessage
