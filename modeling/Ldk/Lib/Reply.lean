import Ldk.Lib.OutputBuffer

/-!
# Texts in a caller's buffer

A routine puts a text and a null into a caller's buffer and returns the length of the text. When
the buffer is too small it returns a size instead, and a second call with a buffer of that size is
to deliver the text.

- `Reply.Delivers`: the text is in the buffer, with a null behind it, and its length is returned.
- `Reply.Right`: the value that is returned tells whether the text has been delivered.
- `Answers`: so it is for every buffer of some size.
-/

open OutputBuffer

/-- What a routine returns, leaves in the buffer and reports about a failure. -/
structure Reply (α ι : Type) where
  returned : Nat
  buffer : List α
  error : Option ι
  deriving DecidableEq, Repr

variable {α ε ι : Type} [Zero α]

/-- All of a text is delivered. -/
structure Reply.Delivers (reply : Reply α ι) (text : List α) : Prop where
  holds : Holds reply.buffer (text ++ [0])
  returned : reply.returned = text.length

/-- A reply to a call for a text, if there is one, with a buffer of some size. -/
structure Reply.Right (call : List α → Except ε (Reply α ι)) (value : Option (List α)) (n : Nat)
    (reply : Reply α ι) : Prop where
  size : reply.buffer.length = n
  stored : 0 < reply.returned ∧ reply.returned < n ↔
    ∃ text, value = some text ∧ reply.Delivers text
  /-- The size that is asked for is larger, and a second call with it succeeds. -/
  tooSmall : 0 < reply.returned → n ≤ reply.returned → n < reply.returned ∧
    ∀ buffer : List α, buffer.length = reply.returned → Yields (call buffer) fun reply' =>
      0 < reply'.returned ∧ ∃ text, value = some text ∧ reply'.Delivers text

/-- The replies are right for every buffer of a size. -/
def Answers (call : List α → Except ε (Reply α ι)) (value : Option (List α)) (n : Nat) : Prop :=
  ∀ buffer : List α, buffer.length = n → Yields (call buffer) (Reply.Right call value n)

variable {call : List α → Except ε (Reply α ι)} {value : Option (List α)} {n : Nat}
  {reply : Reply α ι} {text : List α}

theorem Reply.Delivers.length_lt (h : reply.Delivers text) :
    text.length < reply.buffer.length := by
  have hlength := h.holds.length_le
  rwa [List.length_append, List.length_singleton] at hlength

namespace Reply.Right

/-- The text has been delivered. -/
theorem of_delivers (hsize : reply.buffer.length = n) (hvalue : value = some text)
    (hdelivers : reply.Delivers text) (hne : text ≠ []) : Reply.Right call value n reply := by
  have hlt := hdelivers.length_lt
  rw [hsize] at hlt
  have hpos := List.length_pos_of_ne_nil hne
  rw [← hdelivers.returned] at hlt hpos
  exact ⟨hsize, iff_of_true ⟨hpos, hlt⟩ ⟨text, hvalue, hdelivers⟩,
    fun _ hle => absurd hlt (Nat.not_lt_of_le hle)⟩

/-- Nothing is returned, for a text that is not empty. -/
theorem of_zero (hsize : reply.buffer.length = n) (hzero : reply.returned = 0)
    (hvalue : ∀ text, value = some text → text ≠ [] ∨ n = 0) : Reply.Right call value n reply := by
  refine ⟨hsize, iff_of_false (fun h => Nat.ne_of_gt h.1 hzero) ?_,
    fun hpos => absurd hzero (Nat.ne_of_gt hpos)⟩
  rintro ⟨text, htext, hdelivers⟩
  rcases hvalue text htext with hne | hn
  · exact hne (List.eq_nil_of_length_eq_zero (hdelivers.returned.symm.trans hzero))
  · have hlt := hdelivers.length_lt
    omega

/-- A larger size is returned, and a buffer of that size is large enough. -/
theorem of_tooSmall (hsize : reply.buffer.length = n) (hlt : n < reply.returned)
    (hagain : ∀ buffer : List α, buffer.length = reply.returned → Yields (call buffer)
      fun reply' => 0 < reply'.returned ∧ ∃ text, value = some text ∧ reply'.Delivers text) :
    Reply.Right call value n reply := by
  refine ⟨hsize, iff_of_false (fun h => Nat.lt_asymm hlt h.2) ?_, fun _ _ => ⟨hlt, hagain⟩⟩
  rintro ⟨text, -, hdelivers⟩
  have hshort := hdelivers.length_lt
  rw [hsize, ← hdelivers.returned] at hshort
  exact Nat.lt_asymm hlt hshort

/-- An empty text that has been delivered looks like a failure. -/
theorem ne_nil (h : Reply.Right call value n reply) (hvalue : value = some text)
    (hdelivers : reply.Delivers text) : text ≠ [] := by
  rintro rfl
  have hpos := (h.stored.2 ⟨[], hvalue, hdelivers⟩).1
  rw [hdelivers.returned] at hpos
  exact Nat.lt_irrefl 0 hpos

/-- A length that is returned is that of the text. -/
theorem returned_eq (h : Reply.Right call value n reply) (hpos : 0 < reply.returned)
    (hlt : reply.returned < n) : ∃ text, value = some text ∧ reply.returned = text.length := by
  obtain ⟨text, hvalue, hdelivers⟩ := h.stored.1 ⟨hpos, hlt⟩
  exact ⟨text, hvalue, hdelivers.returned⟩

end Reply.Right

/-- Replies that return something, and never the length of the text, are not right. -/
theorem not_answers_of_returned (n : Nat) (h : ∀ buffer : List α, Yields (call buffer) fun reply =>
    (buffer.length = n → 0 < reply.returned) ∧
      ∀ text, value = some text → reply.returned ≠ text.length) : ¬ Answers call value n := by
  intro hanswers
  obtain ⟨reply, hreply, hright⟩ := hanswers (List.replicate n 0) List.length_replicate
  obtain ⟨reply', hreply', hreturns, hne⟩ := h (List.replicate n 0)
  obtain rfl : reply' = reply := Except.ok.inj (hreply'.symm.trans hreply)
  have hpos := hreturns List.length_replicate
  by_cases hlt : reply'.returned < n
  · obtain ⟨text, hvalue, heq⟩ := hright.returned_eq hpos hlt
    exact hne text hvalue heq
  · -- the second call is no better than the first
    obtain ⟨-, hagain⟩ := hright.tooSmall hpos (Nat.le_of_not_lt hlt)
    obtain ⟨second, hsecond, -, text, hvalue, hdelivers⟩ :=
      hagain (List.replicate reply'.returned 0) List.length_replicate
    obtain ⟨second', hsecond', -, hne'⟩ := h (List.replicate reply'.returned 0)
    obtain rfl : second' = second := Except.ok.inj (hsecond'.symm.trans hsecond)
    exact hne' text hvalue hdelivers.returned

/-- An empty text that is delivered is not answered as it should be. -/
theorem not_answers_of_empty (hvalue : value = some [])
    (h : ∀ buffer : List α, buffer.length = n →
      Yields (call buffer) fun reply => reply.Delivers []) : ¬ Answers call value n := by
  intro hanswers
  obtain ⟨reply, hreply, hright⟩ := hanswers (List.replicate n 0) List.length_replicate
  obtain ⟨reply', hreply', hdelivers⟩ := h (List.replicate n 0) List.length_replicate
  obtain rfl : reply' = reply := Except.ok.inj (hreply'.symm.trans hreply)
  exact hright.ne_nil hvalue hdelivers rfl
