import Ldk.Environment.Query
import Ldk.Lib.Reply

set_option linter.unusedSectionVars false

/-!
# GetEnvironmentVariableW and GetEnvironmentVariableA

Both routines query the block of the process and put the value into the caller's buffer. The size
of the buffer is cut to what a `USHORT` of bytes can say, the last character of it is kept for a
null, and the value of 8 bits is made from a copy of the wide one in the heap.

- A pseudo variable that does not fit is queried with success. Then a null is written where the
  value would end, or the conversion reads behind the copy.
- A value of 32765 characters or more never fits, whatever the size of the buffer.
- An empty value is stored, and 0 is returned for it.
- `environment_variables_are_delivered`: for which values and sizes the replies are right.

The size of the buffer is the length of the list. A heap block may hold anything.
-/

namespace Ldk.Environment

open OutputBuffer

variable {π : Type} [DecidableEq π]

/-! ## The two routines -/

/-- `MAXUSHORT` -/
def maxUShort : Nat := 2 ^ 16 - 1

/-- `RtlInitUnicodeString`: the characters of the name that are looked at. -/
def nameOf (lpName : Option (List WCHAR)) : List WCHAR := (lpName.getD []).take (2 ^ 15 - 2)

/-- `iSize` -/
def clampSize (nSize : Nat) : Nat :=
  if nSize > maxUShort / 2 - 2 then maxUShort / 2 - 2 else nSize

/-- `MaximumLength` of the string that is queried. -/
def queryLength (nSize : Nat) : Nat :=
  let iSize := clampSize nSize
  toUShort (toUShort (if iSize ≠ 0 then iSize - 1 else iSize) * 2)

/-- What `RtlQueryEnvironmentVariable_U` writes to `Value->Buffer`. -/
def storeAnswer (answer : Answer) (maximumLength : Nat) (buffer : List WCHAR) :
    Except Outside (List WCHAR) :=
  match answer.copied with
  | some text => do
    let buffer ← put buffer 0 text
    if 2 * text.length < maximumLength then put buffer text.length [0] else .ok buffer
  | none => .ok buffer

/-- The status, with a buffer of no size not being enough for an empty value. -/
def finalStatus (status : NtStatus) (nSize : Nat) : NtStatus :=
  if status.ntSuccess = true ∧ nSize = 0 then .bufferOverflow else status

/-- The value of a variable, for some `MaximumLength`. -/
abbrev Query := Nat → Answer

/-- `GetEnvironmentVariableW`, for the variable that is queried. -/
def getEnvironmentVariableW (query : Query) (lpBuffer : List WCHAR) :
    Except Outside (Reply WCHAR NtStatus) := do
  let nSize := lpBuffer.length
  let maximumLength := queryLength nSize
  let answer := query maximumLength
  let length := answer.length.getD 0
  let buffer ← storeAnswer answer maximumLength lpBuffer
  let status := finalStatus answer.status nSize
  if status.ntSuccess then do
    let buffer ← put buffer (length / 2) [0]
    return ⟨length / 2, buffer, none⟩
  else if status = .bufferTooSmall then return ⟨length / 2 + 1, buffer, none⟩
  else return ⟨0, buffer, some status⟩

/-- The bytes of each character in the code page: one, or two in a page of double bytes. -/
structure AnsiTable where
  bytes : WCHAR → List UInt8
  ne_nil : ∀ ch, bytes ch ≠ []
  length_le : ∀ ch, (bytes ch).length ≤ 2

/-- `RtlUnicodeToMultiByteN` -/
def AnsiTable.convert (table : AnsiTable) (text : List WCHAR) : List UInt8 :=
  text.flatMap table.bytes

/-- `RtlAllocateHeap` and `RtlReAllocateHeap`, for a block of some characters. -/
abbrev Heap := (n : Nat) → Option { block : List WCHAR // block.length = n }

/-- `LdkUnicodeStringToAnsiString` to the caller's buffer: the bytes are put there as far as
`iSize` allows for. -/
def storeAnsi (ansi : List UInt8) (iSize : Nat) (lpBuffer : List UInt8) :
    Except Outside (Reply UInt8 NtStatus) :=
  if iSize ≤ ansi.length then do
    let buffer ← put lpBuffer 0 (ansi.take (iSize - 1))
    return ⟨0, buffer, some .bufferOverflow⟩
  else do
    let buffer ← put lpBuffer 0 ansi
    let buffer ← put buffer ansi.length [0]
    return ⟨ansi.length, buffer, none⟩

/-- The query with a block of the heap, and the characters `ValueW` says it has. -/
def queryBlock (answer : Answer) (maximumLength : Nat) (block : List WCHAR) :
    Except Outside (List WCHAR) := do
  let valueW ← storeAnswer answer maximumLength block
  slice valueW 0 (answer.length.getD 0 / 2)

/-- The size of a value that has not fitted. -/
def ansiSize (table : AnsiTable) (heap : Heap) (query : Query) (length : Nat)
    (lpBuffer : List UInt8) : Except Outside (Reply UInt8 NtStatus) :=
  let maximumLength := toUShort (length + 2)
  match heap (maximumLength / 2) with
  | none => .ok ⟨0, lpBuffer, some .noMemory⟩
  | some block =>
    let answer := query maximumLength
    if answer.status.ntSuccess then do
      let text ← queryBlock answer maximumLength block.val
      return ⟨(table.convert text).length + 1, lpBuffer, none⟩
    else .ok ⟨0, lpBuffer, none⟩

/-- `GetEnvironmentVariableA`, for a name that can be converted. -/
def getEnvironmentVariableA (table : AnsiTable) (heap : Heap) (query : Query)
    (lpBuffer : List UInt8) : Except Outside (Reply UInt8 NtStatus) :=
  let nSize := lpBuffer.length
  let maximumLength := queryLength nSize
  match heap (maximumLength / 2) with
  | none => .ok ⟨0, lpBuffer, some .noMemory⟩
  | some block =>
    let answer := query maximumLength
    let status := finalStatus answer.status nSize
    if status.ntSuccess then do
      let text ← queryBlock answer maximumLength block.val
      storeAnsi (table.convert text) (if nSize > maxUShort - 2 then maxUShort - 2 else nSize)
        lpBuffer
    else if status = .bufferTooSmall then
      ansiSize table heap query (answer.length.getD 0) lpBuffer
    else .ok ⟨0, lpBuffer, some status⟩

/-! ## The values -/

/-- Where a value comes from. -/
inductive Found where
  | nowhere
  | block (text : List WCHAR)
  | pseudo (text : List WCHAR)
  deriving DecidableEq

namespace Found

/-- The value. -/
def value : Found → Option (List WCHAR)
  | nowhere => none
  | block text => some text
  | pseudo text => some text

/-- What a query answers. -/
def answer : Found → Query
  | nowhere, _ => .notFound
  | block text, maximumLength => .value (shortened text) maximumLength
  | pseudo text, maximumLength => .pseudo text maximumLength

/-- The values that are delivered as they should be in `n` wide characters. -/
def FitsW (n : Nat) : Found → Prop
  | nowhere => True
  | block text =>
    if text.length < 2 ^ 15 then
      text = [] ∧ n = 0 ∨ text ≠ [] ∧ text.length < maxUShort / 2 - 2
    else shortened text = []
  | pseudo text => n = 0 ∨ text ≠ [] ∧ text.length < clampSize n

/-- The values that are delivered as they should be in `n` bytes. -/
def FitsA (table : AnsiTable) (n : Nat) : Found → Prop
  | nowhere => True
  | block text =>
    if text.length < 2 ^ 15 then
      text = [] ∧ n = 0 ∨ text ≠ [] ∧ text.length < maxUShort / 2 - 2 ∨
        text.length = maxUShort / 2
    else
      shortened text = [] ∨ (shortened text).length = maxUShort / 2 ∨
        (shortened text).length < clampSize n ∧ n ≤ (table.convert (shortened text)).length
  | pseudo text => n = 0 ∨ text ≠ [] ∧ text.length < clampSize n

end Found

/-- What is found for a name. -/
def State.found (upcase : WCHAR → WCHAR) (s : State π) (name : List WCHAR) : Found :=
  match s.scanned upcase none name with
  | some text => .block text
  | none =>
    match s.pseudoValue upcase name with
    | some text => .pseudo text
    | none => .nowhere

theorem State.found_value (upcase : WCHAR → WCHAR) (s : State π) (name : List WCHAR) :
    (s.found upcase name).value = s.valueOf upcase none name := by
  have hempty : s.isEmpty none = false := rfl
  unfold found valueOf
  rw [hempty]
  cases s.scanned upcase none name with
  | some text => rfl
  | none =>
    dsimp only
    rw [if_neg Bool.false_ne_true]
    cases s.pseudoValue upcase name with
    | some text => rfl
    | none => rfl

/-- With a coherent cache the query answers for what is found. -/
theorem Coherent.found_answer {upcase : WCHAR → WCHAR} {s : State π} (h : Coherent upcase s)
    (name : List WCHAR) (maximumLength : Nat) :
    (s.rtlQueryEnvironmentVariable upcase none name maximumLength).2 =
      (s.found upcase name).answer maximumLength := by
  rw [h.answer, State.searchedAnswer_eq, State.pseudoVariable_eq]
  have hscanned : s.scanned upcase none name =
      scanBlock upcase name ((s.block (s.queried none)).getD []) := rfl
  have hempty : s.isEmpty none = false := rfl
  unfold State.found
  rw [← hscanned, hempty, if_neg Bool.false_ne_true]
  cases s.scanned upcase none name with
  | some text => rfl
  | none =>
    dsimp only
    cases s.pseudoValue upcase name with
    | some text => rfl
    | none => rfl

/-- A query of the process leaves the state as it is. -/
theorem State.query_state (upcase : WCHAR → WCHAR) (s : State π) (name : List WCHAR)
    (maximumLength : Nat) :
    (s.rtlQueryEnvironmentVariable upcase none name maximumLength).1 = s := by
  unfold rtlQueryEnvironmentVariable
  rw [Option.filter_none]
  dsimp only
  cases s.cachedValue upcase name with
  | some text => rfl
  | none =>
    dsimp only
    unfold searchBlock
    dsimp only
    cases findValue upcase name ((s.block .process).getD [])
        ((s.block .process).getD []).length 0 with
    | none => rfl
    | some pair =>
      dsimp only
      rw [if_neg]
      rintro ⟨hfill, -⟩
      exact Bool.false_ne_true hfill

/-! ## The wide routine -/

variable {answer : Answer} {text : List WCHAR} {n : Nat}

theorem clampSize_le (n : Nat) :
    clampSize n ≤ n ∧ clampSize n ≤ 32765 ∧ (n ≠ 0 → clampSize n ≠ 0) := by
  unfold clampSize maxUShort
  split
  · omega
  · omega

theorem queryLength_eq (n : Nat) : queryLength n = 2 * (clampSize n - 1) := by
  obtain ⟨-, hle, -⟩ := clampSize_le n
  have hsize : (if clampSize n ≠ 0 then clampSize n - 1 else clampSize n) = clampSize n - 1 := by
    split <;> omega
  unfold queryLength
  dsimp only
  rw [hsize]
  unfold toUShort
  omega

/-- A value that is copied is in the buffer, as long as that is. -/
theorem storeAnswer_copied {maximumLength : Nat} {buffer : List WCHAR}
    (hcopied : answer.copied = some text) (hfits : 2 * text.length ≤ maximumLength)
    (hroom : maximumLength ≤ 2 * buffer.length) :
    Yields (storeAnswer answer maximumLength buffer) fun buffer' =>
      buffer'.length = buffer.length ∧ OutputBuffer.Holds buffer' text := by
  have hnothing : OutputBuffer.Holds buffer ([] : List WCHAR) := rfl
  unfold storeAnswer
  rw [hcopied]
  apply (hnothing.append rfl (by rw [List.length_nil]; omega)).bind
  rintro buffer' ⟨hsize, hholds⟩
  rw [List.nil_append] at hholds
  apply Yields.ite
  · intro hnull
    apply (hholds.append hsize (by rw [List.length_singleton]; omega)).mono
    rintro buffer'' ⟨hsize', hholds'⟩
    exact ⟨hsize', hholds'.left⟩
  · intro _
    exact .ok ⟨hsize, hholds⟩

/-- A value that fits is delivered. -/
theorem getEnvironmentVariableW_delivers {query : Query} {buffer : List WCHAR}
    (hquery : query (queryLength buffer.length) = ⟨.success, some (2 * text.length), some text⟩)
    (hfits : text.length < clampSize buffer.length) :
    Yields (getEnvironmentVariableW query buffer) fun reply =>
      reply.buffer.length = buffer.length ∧ reply.Delivers text := by
  obtain ⟨hle, -, -⟩ := clampSize_le buffer.length
  have hlength := queryLength_eq buffer.length
  have hstatus : finalStatus .success buffer.length = .success := if_neg fun h => by omega
  unfold getEnvironmentVariableW
  dsimp only
  rw [hquery, hstatus]
  apply (storeAnswer_copied rfl (by omega) (by omega)).bind
  rintro buffer' ⟨hsize, hholds⟩
  dsimp only [Option.getD_some]
  rw [if_pos (by rfl : NtStatus.success.ntSuccess = true),
    Nat.mul_div_cancel_left _ (by decide : 0 < 2)]
  apply (hholds.append hsize (by rw [List.length_singleton]; omega)).bind
  rintro buffer'' ⟨hsize', hholds'⟩
  exact .ok ⟨hsize', hholds', rfl⟩

/-- Without a value that is copied the buffer stays. -/
theorem storeAnswer_none {maximumLength : Nat} {buffer : List WCHAR}
    (hcopied : answer.copied = none) : storeAnswer answer maximumLength buffer = .ok buffer := by
  unfold storeAnswer
  rw [hcopied]

/-- A value that does not fit. -/
theorem getEnvironmentVariableW_tooSmall {query : Query} {buffer : List WCHAR}
    (hquery : query (queryLength buffer.length) = ⟨.bufferTooSmall, some (2 * text.length), none⟩) :
    getEnvironmentVariableW query buffer = .ok ⟨text.length + 1, buffer, none⟩ := by
  unfold getEnvironmentVariableW
  dsimp only
  rw [hquery, storeAnswer_none rfl, Yields.ok_bind]
  dsimp only [Option.getD_some]
  rw [Nat.mul_div_cancel_left _ (by decide : 0 < 2)]
  rfl

/-- A buffer of no size is not enough for an empty value. -/
theorem getEnvironmentVariableW_zero {query : Query} {buffer : List WCHAR}
    (hzero : buffer.length = 0)
    (hstatus : (query (queryLength buffer.length)).status = .success)
    (hcopied : ∀ text ∈ (query (queryLength buffer.length)).copied, text = []) :
    Yields (getEnvironmentVariableW query buffer) fun reply =>
      reply.buffer.length = buffer.length ∧ reply.returned = 0 := by
  have hlength : queryLength buffer.length = 0 := by
    rw [queryLength_eq]
    have := (clampSize_le buffer.length).1
    omega
  have hfinal : finalStatus .success buffer.length = .bufferOverflow := if_pos ⟨rfl, hzero⟩
  unfold getEnvironmentVariableW
  dsimp only
  rw [hstatus, hfinal]
  have hstored : Yields (storeAnswer (query (queryLength buffer.length))
      (queryLength buffer.length) buffer) fun buffer' => buffer'.length = buffer.length := by
    cases hvalue : (query (queryLength buffer.length)).copied with
    | none => exact ⟨buffer, storeAnswer_none hvalue, rfl⟩
    | some text =>
      obtain rfl := hcopied text hvalue
      exact (storeAnswer_copied hvalue (Nat.zero_le _) (by omega)).mono fun _ h => h.1
  apply hstored.bind
  intro buffer' hsize
  exact .ok ⟨hsize, rfl⟩

/-- The answer for a value of a block. -/
theorem answer_value (text : List WCHAR) (n : Nat) :
    Answer.value text (queryLength n) =
      if text.length < clampSize n ∨ text = [] then ⟨.success, some (2 * text.length), some text⟩
      else ⟨.bufferTooSmall, some (2 * text.length), none⟩ := by
  obtain ⟨-, -, hzero⟩ := clampSize_le n
  have hlength := queryLength_eq n
  unfold Answer.value
  by_cases hfits : text.length < clampSize n ∨ text = []
  · rw [if_pos hfits, if_pos]
    rcases hfits with hlt | rfl
    · omega
    · exact Nat.zero_le _
  · rw [if_neg hfits, if_neg]
    rw [not_or] at hfits
    have hpos := List.length_pos_of_ne_nil hfits.2
    omega

/-- A value of the block, as it is delivered or asked room for. -/
theorem getEnvironmentVariableW_block (text buffer : List WCHAR) :
    Yields (getEnvironmentVariableW (Answer.value text) buffer) fun reply =>
      reply.buffer.length = buffer.length ∧
        (text.length < clampSize buffer.length ∧ reply.Delivers text ∨
          text = [] ∧ buffer.length = 0 ∧ reply.returned = 0 ∨
          text ≠ [] ∧ clampSize buffer.length ≤ text.length ∧
            reply.returned = text.length + 1) := by
  obtain ⟨hle, -, hzero⟩ := clampSize_le buffer.length
  have hanswer := answer_value text buffer.length
  by_cases hfits : text.length < clampSize buffer.length
  · rw [if_pos (.inl hfits)] at hanswer
    exact (getEnvironmentVariableW_delivers hanswer hfits).mono fun reply h =>
      ⟨h.1, .inl ⟨hfits, h.2⟩⟩
  · by_cases hnil : text = []
    · rw [if_pos (.inr hnil)] at hanswer
      have hempty : buffer.length = 0 := by
        by_contra hne
        have := hzero hne
        rw [hnil, List.length_nil] at hfits
        omega
      apply (getEnvironmentVariableW_zero hempty (by rw [hanswer]) ?_).mono
      · intro reply h
        exact ⟨h.1, .inr (.inl ⟨hnil, hempty, h.2⟩)⟩
      · rw [hanswer]
        intro text' htext
        exact (Option.some.inj htext).symm.trans hnil
    · rw [if_neg (not_or.2 ⟨hfits, hnil⟩)] at hanswer
      exact ⟨_, getEnvironmentVariableW_tooSmall hanswer, rfl,
        .inr (.inr ⟨hnil, Nat.le_of_not_lt hfits, rfl⟩)⟩

/-- The shortened value has the length modulo that of a `USHORT`. -/
theorem length_shortened_eq (text : List WCHAR) :
    (shortened text).length = text.length % 2 ^ 15 := by
  have hlength := length_shortened text
  unfold toUShort at hlength
  omega

/-- A value of the block whose length fits in a `USHORT`. -/
theorem answersW_short (hsmall : text.length < 2 ^ 15) (n : Nat) :
    Answers (getEnvironmentVariableW (Found.block text).answer) (some text) n ↔
      text = [] ∧ n = 0 ∨ text ≠ [] ∧ text.length < maxUShort / 2 - 2 := by
  have hrun := getEnvironmentVariableW_block (shortened text)
  have htext : shortened text = text := shortened_eq (by omega)
  change Answers (getEnvironmentVariableW (Answer.value (shortened text))) _ _ ↔ _
  rw [htext] at hrun ⊢
  constructor
  · intro hanswers
    by_contra hno
    rw [not_or, not_and, not_and] at hno
    by_cases hnil : text = []
    · -- an empty value is stored when there is room for the null
      apply not_answers_of_empty (congrArg some hnil) _ hanswers
      intro buffer hbuffer
      apply (hrun buffer).mono
      rintro reply ⟨-, ⟨-, hdelivers⟩ | ⟨-, hzero, -⟩ | ⟨hne, -⟩⟩
      · rwa [hnil] at hdelivers
      · exact absurd (hbuffer.symm.trans hzero) (hno.1 hnil)
      · exact absurd hnil hne
    · -- a long value never fits
      have hlong := hno.2 hnil
      apply not_answers_of_returned n _ hanswers
      intro buffer
      obtain ⟨-, hmax', -⟩ := clampSize_le buffer.length
      apply (hrun buffer).mono
      rintro reply ⟨-, ⟨hlt, -⟩ | ⟨hnil', -⟩ | ⟨-, -, hreturned⟩⟩
      · unfold maxUShort at hlong
        omega
      · exact absurd hnil' hnil
      · refine ⟨fun _ => by omega, fun text' htext' => ?_⟩
        obtain rfl := Option.some.inj htext'
        omega
  · intro hfits buffer hbuffer
    rw [← hbuffer] at hfits ⊢
    apply (hrun buffer).mono
    rintro reply ⟨hsize, ⟨hlt, hdelivers⟩ | ⟨hnil, hzero, hreturned⟩ | ⟨hne, hge, hreturned⟩⟩
    · rcases hfits with ⟨-, hzero⟩ | ⟨hne, -⟩
      · have := (clampSize_le buffer.length).1
        omega
      · exact .of_delivers hsize rfl hdelivers hne
    · exact .of_zero hsize hreturned fun _ _ => .inr hzero
    · obtain ⟨-, hlong⟩ := hfits.resolve_left fun h => hne h.1
      have hclamped (m : Nat) (hm : m ≤ maxUShort / 2 - 2) : clampSize m = m :=
        if_neg (Nat.not_lt_of_le hm)
      have hall : ¬ buffer.length > maxUShort / 2 - 2 := by
        intro hgt
        have heq : clampSize buffer.length = maxUShort / 2 - 2 := if_pos hgt
        omega
      rw [hclamped _ (Nat.le_of_not_lt hall)] at hge
      refine .of_tooSmall hsize (by omega) fun buffer' hbuffer' => ?_
      -- the second call has one character more than the value
      have hroom : text.length < clampSize buffer'.length := by
        rw [hclamped _ (by omega)]
        omega
      apply (hrun buffer').mono
      rintro reply' ⟨-, ⟨-, hdelivers⟩ | ⟨hnil, -⟩ | ⟨-, hfull, -⟩⟩
      · rw [hdelivers.returned]
        exact ⟨List.length_pos_of_ne_nil hne, text, rfl, hdelivers⟩
      · exact absurd hnil hne
      · exact absurd hroom (Nat.not_lt_of_le hfull)

/-- A value whose length does not. -/
theorem answersW_long (hlong : ¬ text.length < 2 ^ 15) (n : Nat) :
    Answers (getEnvironmentVariableW (Found.block text).answer) (some text) n ↔
      shortened text = [] := by
  have hrun := getEnvironmentVariableW_block (shortened text)
  have hshort := length_shortened_eq text
  change Answers (getEnvironmentVariableW (Answer.value (shortened text))) _ _ ↔ _
  have hne : text ≠ [] := by
    rintro rfl
    exact hlong (by decide)
  constructor
  · intro hanswers
    by_contra hshortened
    apply not_answers_of_returned n _ hanswers
    intro buffer
    have hlength := List.length_pos_of_ne_nil hshortened
    apply (hrun buffer).mono
    rintro reply ⟨-, ⟨-, hdelivers⟩ | ⟨hnil, -⟩ | ⟨-, -, hreturned⟩⟩
    · refine ⟨fun _ => by rw [hdelivers.returned]; exact hlength, fun text' htext' => ?_⟩
      obtain rfl := Option.some.inj htext'
      rw [hdelivers.returned]
      omega
    · exact absurd hnil hshortened
    · refine ⟨fun _ => by omega, fun text' htext' => ?_⟩
      obtain rfl := Option.some.inj htext'
      omega
  · intro hshortened buffer hbuffer
    rw [← hbuffer]
    apply (hrun buffer).mono
    have hzero : (shortened text).length = 0 := by rw [hshortened]; rfl
    rintro reply ⟨hsize, ⟨-, hdelivers⟩ | ⟨-, -, hreturned⟩ | ⟨hno, -⟩⟩
    · refine .of_zero hsize (hdelivers.returned.trans hzero) fun text' htext' => ?_
      obtain rfl := Option.some.inj htext'
      exact .inl hne
    · refine .of_zero hsize hreturned fun text' htext' => ?_
      obtain rfl := Option.some.inj htext'
      exact .inl hne
    · exact absurd hshortened hno

theorem answersW_block (text : List WCHAR) (n : Nat) :
    Answers (getEnvironmentVariableW (Found.block text).answer) (some text) n ↔
      (Found.block text).FitsW n := by
  change _ ↔ if text.length < 2 ^ 15 then
    text = [] ∧ n = 0 ∨ text ≠ [] ∧ text.length < maxUShort / 2 - 2 else shortened text = []
  split
  · exact answersW_short ‹_› n
  · exact answersW_long ‹_› n

/-- The answer for a pseudo variable that fits, and for one that does not. -/
theorem answer_pseudo (text : List WCHAR) (n : Nat) :
    Answer.pseudo text (queryLength n) = ⟨.success, some (2 * text.length),
      if text.length < clampSize n ∨ text = [] then some text else none⟩ := by
  obtain ⟨-, -, hzero⟩ := clampSize_le n
  have hlength := queryLength_eq n
  unfold Answer.pseudo
  congr 1
  by_cases hfits : text.length < clampSize n ∨ text = []
  · rw [if_pos hfits, if_pos]
    rcases hfits with hlt | rfl
    · omega
    · exact Nat.zero_le _
  · rw [if_neg hfits, if_neg]
    rw [not_or] at hfits
    have hpos := List.length_pos_of_ne_nil hfits.2
    omega

/-- A pseudo variable that does not fit: the null is written where the value would end. -/
theorem getEnvironmentVariableW_pseudo {buffer : List WCHAR} (hne : text ≠ [])
    (hzero : buffer.length ≠ 0) (hlong : clampSize buffer.length ≤ text.length) :
    getEnvironmentVariableW (Answer.pseudo text) buffer = do
      let buffer ← put buffer text.length [0]
      return ⟨text.length, buffer, none⟩ := by
  have hanswer := answer_pseudo text buffer.length
  rw [if_neg (not_or.2 ⟨Nat.not_lt_of_le hlong, hne⟩)] at hanswer
  have hstatus : finalStatus .success buffer.length = .success := if_neg fun h => hzero h.2
  unfold getEnvironmentVariableW
  dsimp only
  rw [hanswer, storeAnswer_none rfl, Yields.ok_bind, hstatus]
  dsimp only [Option.getD_some]
  rw [if_pos (by rfl : NtStatus.success.ntSuccess = true),
    Nat.mul_div_cancel_left _ (by decide : 0 < 2)]

theorem answersW_pseudo (text : List WCHAR) (n : Nat) :
    Answers (getEnvironmentVariableW (Found.pseudo text).answer) (some text) n ↔
      (Found.pseudo text).FitsW n := by
  change Answers (getEnvironmentVariableW (Answer.pseudo text)) _ _ ↔
    n = 0 ∨ text ≠ [] ∧ text.length < clampSize n
  obtain ⟨hclamp, -, hpos⟩ := clampSize_le n
  have hdelivers (hlt : text.length < clampSize n) {buffer : List WCHAR}
      (hbuffer : buffer.length = n) :
      Yields (getEnvironmentVariableW (Answer.pseudo text) buffer) fun reply =>
        reply.buffer.length = n ∧ reply.Delivers text := by
    have hanswer := answer_pseudo text n
    rw [if_pos (.inl hlt)] at hanswer
    subst hbuffer
    exact getEnvironmentVariableW_delivers hanswer hlt
  constructor
  · intro hanswers
    by_contra hno
    rw [not_or] at hno
    by_cases hnil : text = []
    · apply not_answers_of_empty (congrArg some hnil) _ hanswers
      intro buffer hbuffer
      have hlt : text.length < clampSize n := by
        have := hpos hno.1
        rw [hnil, List.length_nil]
        omega
      apply (hdelivers hlt hbuffer).mono
      rintro reply ⟨-, hdone⟩
      rwa [hnil] at hdone
    · have hlong : clampSize n ≤ text.length := Nat.le_of_not_lt fun h => hno.2 ⟨hnil, h⟩
      -- a buffer in which the value is not there before the call
      obtain ⟨ch, rest, rfl⟩ := List.exists_cons_of_ne_nil hnil
      have hbuffer : (List.replicate n (ch + 1)).length = n := List.length_replicate
      obtain ⟨reply, hreply, hright⟩ := hanswers (List.replicate n (ch + 1)) hbuffer
      rw [getEnvironmentVariableW_pseudo hnil (by rw [hbuffer]; exact hno.1)
        (by rw [hbuffer]; exact hlong)] at hreply
      by_cases hinside : (ch :: rest).length < n
      · have hput : Yields (put (List.replicate n (ch + 1)) (ch :: rest).length [0]) fun buffer =>
            buffer.length = (List.replicate n (ch + 1)).length ∧
              buffer.take ((ch :: rest).length + 1) =
                (List.replicate n (ch + 1)).take (ch :: rest).length ++ [0] :=
          put_spec (by rw [hbuffer]; exact hinside)
        obtain ⟨buffer, hput, -, htake⟩ := hput
        rw [hput] at hreply
        obtain rfl := Except.ok.inj hreply
        obtain ⟨text, htext, hdone⟩ := hright.stored.1 ⟨Nat.succ_pos _, hinside⟩
        obtain rfl := Option.some.inj htext
        have hholds := hdone.holds
        unfold OutputBuffer.Holds at hholds
        rw [List.length_append, List.length_singleton, htake, List.append_cancel_right_eq,
          List.take_replicate] at hholds
        have hhead := congrArg List.head? hholds
        rw [List.head?_replicate, List.head?_cons,
          if_neg (by rw [List.length_cons]; omega)] at hhead
        have hsame : ch + 1 = ch := Option.some.inj hhead
        exact absurd (congrArg UInt16.toNat hsame) (by
          rw [UInt16.toNat_add]
          have := ch.toNat_lt
          change (ch.toNat + 1) % 2 ^ 16 ≠ ch.toNat
          omega)
      · have hfault : Faults (put (List.replicate n (ch + 1)) (ch :: rest).length [0]) := by
          apply put_faults
          rw [hbuffer, List.length_singleton]
          omega
        exact (hfault.bind _).not_yields ⟨reply, hreply, hright⟩
  · rintro (hzero | ⟨hne, hlt⟩) buffer hbuffer
    · have hanswer := answer_pseudo text n
      subst hbuffer
      have hcopied : ∀ text' ∈ (Answer.pseudo text (queryLength buffer.length)).copied,
          text' = [] := by
        intro text' htext'
        rw [hanswer] at htext'
        by_cases hfits : text.length < clampSize buffer.length ∨ text = []
        · rw [if_pos hfits] at htext'
          obtain rfl := Option.some.inj htext'
          exact hfits.resolve_left fun h => by omega
        · rw [if_neg hfits] at htext'
          cases htext'
      apply (getEnvironmentVariableW_zero hzero rfl hcopied).mono
      rintro reply ⟨hsize, hreturned⟩
      exact .of_zero hsize hreturned fun _ _ => .inr hzero
    · apply (hdelivers hlt hbuffer).mono
      rintro reply ⟨hsize, hdone⟩
      exact .of_delivers hsize rfl hdone hne

/-- The wide routine answers as it should exactly for the values that fit. -/
theorem answersW_iff (found : Found) (n : Nat) :
    Answers (getEnvironmentVariableW found.answer) found.value n ↔ found.FitsW n := by
  cases found with
  | nowhere =>
    refine iff_of_true (fun buffer hbuffer => ?_) trivial
    exact .ok (.of_zero hbuffer rfl nofun)
  | block text => exact answersW_block text n
  | pseudo text => exact answersW_pseudo text n

/-! ## The routine of 8 bits -/

namespace AnsiTable

variable (table : AnsiTable)

theorem convert_append (text text' : List WCHAR) :
    table.convert (text ++ text') = table.convert text ++ table.convert text' :=
  List.flatMap_append

/-- A character takes one byte or two. -/
theorem length_convert (text : List WCHAR) :
    text.length ≤ (table.convert text).length ∧ (table.convert text).length ≤ 2 * text.length := by
  induction text with
  | nil => exact ⟨Nat.le_refl 0, Nat.le_refl 0⟩
  | cons ch text ih =>
    have hone := List.length_pos_of_ne_nil (table.ne_nil ch)
    have htwo := table.length_le ch
    have hcons : table.convert (ch :: text) = table.bytes ch ++ table.convert text :=
      List.flatMap_cons
    rw [hcons, List.length_append, List.length_cons]
    omega

theorem convert_ne_nil (hne : text ≠ []) : table.convert text ≠ [] := by
  intro hnil
  have hlength := (table.length_convert text).1
  rw [hnil] at hlength
  exact hne (List.eq_nil_of_length_eq_zero (Nat.eq_zero_of_le_zero hlength))

end AnsiTable

variable {table : AnsiTable} {heap : Heap} {ansi lpBuffer : List UInt8}

theorem storeAnsi_spec {iSize : Nat} (hsize : iSize ≤ lpBuffer.length) :
    Yields (storeAnsi ansi iSize lpBuffer) fun reply => reply.buffer.length = lpBuffer.length ∧
      (ansi.length < iSize ∧ reply.Delivers ansi ∨ iSize ≤ ansi.length ∧ reply.returned = 0) := by
  have hnothing : OutputBuffer.Holds lpBuffer ([] : List UInt8) := rfl
  unfold storeAnsi
  apply Yields.ite
  · intro hlong
    apply (put_spec (by rw [List.length_take]; omega)).bind
    rintro buffer ⟨hlength, -⟩
    exact .ok ⟨hlength, .inr ⟨hlong, rfl⟩⟩
  · intro hshort
    apply (hnothing.append rfl (by rw [List.length_nil]; omega)).bind
    rintro buffer ⟨hlength, hholds⟩
    rw [List.nil_append] at hholds
    apply (hholds.append hlength (by rw [List.length_singleton]; omega)).bind
    rintro buffer' ⟨hlength', hholds'⟩
    exact .ok ⟨hlength', .inl ⟨Nat.lt_of_not_le hshort, hholds', rfl⟩⟩

/-- The copy of a value that fits is the value. -/
theorem queryBlock_copied {maximumLength : Nat} {block : List WCHAR}
    (hfits : 2 * text.length ≤ maximumLength) (hroom : maximumLength ≤ 2 * block.length) :
    Yields (queryBlock ⟨.success, some (2 * text.length), some text⟩ maximumLength block)
      fun text' => text' = text := by
  unfold queryBlock
  apply (storeAnswer_copied rfl hfits hroom).bind
  rintro block' ⟨hsize, hholds⟩
  rw [Option.getD_some, Nat.mul_div_cancel_left _ (by decide : 0 < 2)]
  apply (slice_spec (by omega)).mono
  rintro text' rfl
  exact hholds

/-- Behind a query that has succeeded, for a value that fits in the copy. -/
theorem getEnvironmentVariableA_fits {query : Query} (hheap : ∀ n, (heap n).isSome)
    (hquery : query (queryLength lpBuffer.length) = ⟨.success, some (2 * text.length), some text⟩)
    (hfits : text.length < clampSize lpBuffer.length) :
    Yields (getEnvironmentVariableA table heap query lpBuffer) fun reply =>
      reply.buffer.length = lpBuffer.length ∧
        ((table.convert text).length < lpBuffer.length ∧ reply.Delivers (table.convert text) ∨
          lpBuffer.length ≤ (table.convert text).length ∧ reply.returned = 0) := by
  obtain ⟨hclamp, hmax, -⟩ := clampSize_le lpBuffer.length
  have hlength := queryLength_eq lpBuffer.length
  have hstatus : finalStatus .success lpBuffer.length = .success := if_neg fun h => by omega
  have hbytes := (table.length_convert text).2
  obtain ⟨block, hblock⟩ := Option.isSome_iff_exists.1
    (hheap (queryLength lpBuffer.length / 2))
  have hsize := block.property
  unfold getEnvironmentVariableA
  dsimp only
  rw [hblock]
  dsimp only
  rw [hquery, hstatus]
  apply (queryBlock_copied (by omega) (by omega)).bind
  rintro text' rfl
  have hroom : (if lpBuffer.length > maxUShort - 2 then maxUShort - 2 else lpBuffer.length) ≤
      lpBuffer.length := by
    split <;> omega
  apply (storeAnsi_spec hroom).mono
  rintro reply ⟨hreply, ⟨hlt, hdone⟩ | ⟨hge, hzero⟩⟩
  · exact ⟨hreply, .inl ⟨Nat.lt_of_lt_of_le hlt hroom, hdone⟩⟩
  · refine ⟨hreply, .inr ⟨?_, hzero⟩⟩
    -- the clamp of the bytes is above what the wide value can take
    unfold maxUShort at hge
    split at hge
    · omega
    · exact hge

/-- The size of a value that has not fitted, unless its length has no room for a null. -/
theorem ansiSize_spec (hheap : ∀ n, (heap n).isSome) (hlength : text.length < 2 ^ 15) :
    Yields (ansiSize table heap (Answer.value text) (2 * text.length) lpBuffer) fun reply =>
      reply.buffer.length = lpBuffer.length ∧
        (text.length < maxUShort / 2 ∧ reply.returned = (table.convert text).length + 1 ∨
          text.length = maxUShort / 2 ∧ reply.returned = 0) := by
  obtain ⟨block, hblock⟩ := Option.isSome_iff_exists.1
    (hheap (toUShort (2 * text.length + 2) / 2))
  have hsize := block.property
  unfold ansiSize
  dsimp only
  rw [hblock]
  dsimp only
  unfold maxUShort
  by_cases hlast : text.length < 2 ^ 15 - 1
  · have hroom : toUShort (2 * text.length + 2) = 2 * text.length + 2 := by
      unfold toUShort
      omega
    have hanswer : Answer.value text (toUShort (2 * text.length + 2)) =
        ⟨.success, some (2 * text.length), some text⟩ := if_pos (by omega)
    rw [hanswer]
    apply (queryBlock_copied (by omega) (by omega)).bind
    rintro text' rfl
    exact .ok ⟨rfl, .inl ⟨by omega, rfl⟩⟩
  · have hroom : toUShort (2 * text.length + 2) = 0 := by
      unfold toUShort
      omega
    have hanswer : Answer.value text (toUShort (2 * text.length + 2)) =
        ⟨.bufferTooSmall, some (2 * text.length), none⟩ := if_neg (by omega)
    rw [hanswer]
    exact .ok ⟨rfl, .inr ⟨by omega, rfl⟩⟩

/-- A buffer of no size is not enough for an empty value. -/
theorem getEnvironmentVariableA_zero {query : Query} (hheap : ∀ n, (heap n).isSome)
    (hzero : lpBuffer.length = 0)
    (hstatus : (query (queryLength lpBuffer.length)).status = .success) :
    Yields (getEnvironmentVariableA table heap query lpBuffer) fun reply =>
      reply.buffer.length = lpBuffer.length ∧ reply.returned = 0 := by
  have hfinal : finalStatus .success lpBuffer.length = .bufferOverflow := if_pos ⟨rfl, hzero⟩
  obtain ⟨block, hblock⟩ := Option.isSome_iff_exists.1
    (hheap (queryLength lpBuffer.length / 2))
  unfold getEnvironmentVariableA
  dsimp only
  rw [hblock]
  dsimp only
  rw [hstatus, hfinal]
  exact .ok ⟨rfl, rfl⟩

/-- A value of the block, as it is delivered or asked room for. -/
theorem getEnvironmentVariableA_block (hheap : ∀ n, (heap n).isSome)
    (hlength : text.length < 2 ^ 15) (lpBuffer : List UInt8) :
    Yields (getEnvironmentVariableA table heap (Answer.value text) lpBuffer) fun reply =>
      reply.buffer.length = lpBuffer.length ∧
        (text.length < clampSize lpBuffer.length ∧
            (table.convert text).length < lpBuffer.length ∧ reply.Delivers (table.convert text) ∨
          text.length < clampSize lpBuffer.length ∧
            lpBuffer.length ≤ (table.convert text).length ∧ reply.returned = 0 ∨
          text = [] ∧ lpBuffer.length = 0 ∧ reply.returned = 0 ∨
          text ≠ [] ∧ clampSize lpBuffer.length ≤ text.length ∧
            (text.length < maxUShort / 2 ∧ reply.returned = (table.convert text).length + 1 ∨
              text.length = maxUShort / 2 ∧ reply.returned = 0)) := by
  obtain ⟨hle, -, hzero⟩ := clampSize_le lpBuffer.length
  have hanswer := answer_value text lpBuffer.length
  by_cases hfits : text.length < clampSize lpBuffer.length
  · rw [if_pos (.inl hfits)] at hanswer
    apply (getEnvironmentVariableA_fits hheap hanswer hfits).mono
    rintro reply ⟨hsize, ⟨hlt, hdone⟩ | ⟨hge, hnothing⟩⟩
    · exact ⟨hsize, .inl ⟨hfits, hlt, hdone⟩⟩
    · exact ⟨hsize, .inr (.inl ⟨hfits, hge, hnothing⟩)⟩
  · by_cases hnil : text = []
    · rw [if_pos (.inr hnil)] at hanswer
      have hempty : lpBuffer.length = 0 := by
        by_contra hne
        have := hzero hne
        rw [hnil, List.length_nil] at hfits
        omega
      apply (getEnvironmentVariableA_zero hheap hempty (by rw [hanswer])).mono
      rintro reply ⟨hsize, hreturned⟩
      exact ⟨hsize, .inr (.inr (.inl ⟨hnil, hempty, hreturned⟩))⟩
    · rw [if_neg (not_or.2 ⟨hfits, hnil⟩)] at hanswer
      have hfinal : finalStatus .bufferTooSmall lpBuffer.length = .bufferTooSmall :=
        if_neg fun h => nomatch h.1
      obtain ⟨block, hblock⟩ := Option.isSome_iff_exists.1
        (hheap (queryLength lpBuffer.length / 2))
      unfold getEnvironmentVariableA
      dsimp only
      rw [hblock]
      dsimp only
      rw [hanswer, hfinal]
      apply (ansiSize_spec hheap hlength).mono
      rintro reply ⟨hsize, hreply⟩
      exact ⟨hsize, .inr (.inr (.inr ⟨hnil, Nat.le_of_not_lt hfits, hreply⟩))⟩

/-- A value of the block whose length fits in a `USHORT`. -/
theorem answersA_short (hheap : ∀ n, (heap n).isSome) (hsmall : text.length < 2 ^ 15) (n : Nat) :
    Answers (getEnvironmentVariableA table heap (Found.block text).answer)
        (some (table.convert text)) n ↔
      text = [] ∧ n = 0 ∨ text ≠ [] ∧ text.length < maxUShort / 2 - 2 ∨
        text.length = maxUShort / 2 := by
  have htext : shortened text = text := shortened_eq (by omega)
  have hrun := @getEnvironmentVariableA_block text table heap hheap hsmall
  obtain ⟨hlow, hhigh⟩ := table.length_convert text
  change Answers (getEnvironmentVariableA table heap (Answer.value (shortened text))) _ _ ↔ _
  rw [htext]
  constructor
  · intro hanswers
    by_contra hno
    rw [not_or, not_or, not_and, not_and] at hno
    obtain ⟨hempty, hlong, hlast⟩ := hno
    by_cases hnil : text = []
    · subst hnil
      -- the result 0 of an empty value says that there is no variable
      apply not_answers_of_empty rfl _ hanswers
      intro buffer hbuffer
      obtain ⟨-, -, hpos⟩ := clampSize_le buffer.length
      have hroom := hpos (by rw [hbuffer]; exact hempty rfl)
      apply (hrun buffer).mono
      rintro reply ⟨-, ⟨-, -, hdone⟩ | ⟨-, hge, -⟩ | ⟨-, hzero, -⟩ | ⟨hne, -⟩⟩
      · exact hdone
      · exact absurd (hbuffer.symm.trans (Nat.eq_zero_of_le_zero hge)) (hempty rfl)
      · exact absurd (hbuffer.symm.trans hzero) (hempty rfl)
      · exact absurd rfl hne
    · have hlong' := hlong hnil
      unfold maxUShort at hlong' hlast
      apply not_answers_of_returned n _ hanswers
      intro buffer
      obtain ⟨-, hmax, -⟩ := clampSize_le buffer.length
      apply (hrun buffer).mono
      rintro reply ⟨-, ⟨hlt, -⟩ | ⟨hlt, -⟩ | ⟨hnil', -⟩ | ⟨-, -, ⟨-, hreturned⟩ | ⟨heq, -⟩⟩⟩
      · omega
      · omega
      · exact absurd hnil' hnil
      · refine ⟨fun _ => by omega, fun ansi hansi => ?_⟩
        obtain rfl := Option.some.inj hansi
        omega
      · exact absurd heq hlast
  · intro hfits buffer hbuffer
    rw [← hbuffer] at hfits ⊢
    have hvalue (hne : text ≠ []) : ∀ ansi, some (table.convert text) = some ansi →
        ansi ≠ [] ∨ buffer.length = 0 := by
      intro ansi hansi
      obtain rfl := Option.some.inj hansi
      exact .inl (table.convert_ne_nil hne)
    have hne (hlt : text.length < clampSize buffer.length) : text ≠ [] := by
      have := (clampSize_le buffer.length).1
      rcases hfits with ⟨-, hzero⟩ | ⟨hne, -⟩ | heq
      · omega
      · exact hne
      · rintro rfl
        exact absurd heq (by decide)
    apply (hrun buffer).mono
    rintro reply ⟨hsize, ⟨hlt, -, hdone⟩ | ⟨hlt, -, hzero⟩ | ⟨-, hempty, hzero⟩ |
      ⟨hnil, hge, ⟨hlast, hreturned⟩ | ⟨-, hzero⟩⟩⟩
    · exact .of_delivers hsize rfl hdone (table.convert_ne_nil (hne hlt))
    · exact .of_zero hsize hzero (hvalue (hne hlt))
    · exact .of_zero hsize hzero fun _ _ => .inr hempty
    · have hlong : text.length < maxUShort / 2 - 2 := by
        rcases hfits with ⟨hempty, -⟩ | ⟨-, hlong⟩ | heq
        · exact absurd hempty hnil
        · exact hlong
        · omega
      unfold clampSize at hge
      have hall : ¬ buffer.length > maxUShort / 2 - 2 := by
        intro hgt
        rw [if_pos hgt] at hge
        omega
      rw [if_neg hall] at hge
      refine .of_tooSmall hsize (by omega) fun buffer' hbuffer' => ?_
      -- the second call has one byte more than the value
      have hroom : text.length < clampSize buffer'.length := by
        unfold clampSize
        split
        · exact hlong
        · omega
      apply (hrun buffer').mono
      rintro reply' ⟨-, ⟨-, -, hdone⟩ | ⟨-, hfull, -⟩ | ⟨hempty, -⟩ | ⟨-, hfull, -⟩⟩
      · rw [hdone.returned]
        exact ⟨List.length_pos_of_ne_nil (table.convert_ne_nil hnil), _, rfl, hdone⟩
      · omega
      · exact absurd hempty hnil
      · exact absurd hroom (Nat.not_lt_of_le hfull)
    · exact .of_zero hsize hzero (hvalue hnil)

/-- What is left of a long value has far fewer bytes. -/
theorem length_convert_shortened (table : AnsiTable) (hlong : ¬ text.length < 2 ^ 15) :
    (table.convert (shortened text)).length + 2 ^ 15 ≤ (table.convert text).length := by
  have hshort := length_shortened_eq text
  have hdouble := length_shortened text
  have htext : shortened text ++ text.drop (toUShort (2 * text.length) / 2) = text :=
    List.take_append_drop _ _
  have hbytes := (table.length_convert (text.drop (toUShort (2 * text.length) / 2))).1
  rw [List.length_drop] at hbytes
  have happend := congrArg List.length (table.convert_append (shortened text)
    (text.drop (toUShort (2 * text.length) / 2)))
  rw [htext, List.length_append] at happend
  omega

/-- A value whose length does not fit. -/
theorem answersA_long (hheap : ∀ n, (heap n).isSome) (hlong : ¬ text.length < 2 ^ 15) (n : Nat) :
    Answers (getEnvironmentVariableA table heap (Found.block text).answer)
        (some (table.convert text)) n ↔
      shortened text = [] ∨ (shortened text).length = maxUShort / 2 ∨
        (shortened text).length < clampSize n ∧
          n ≤ (table.convert (shortened text)).length := by
  have hshort := length_shortened_eq text
  have hrun := @getEnvironmentVariableA_block (shortened text) table heap hheap
    (by rw [hshort]; exact Nat.mod_lt _ (by decide))
  have hmore := length_convert_shortened table hlong
  have hlow := (table.length_convert (shortened text)).1
  change Answers (getEnvironmentVariableA table heap (Answer.value (shortened text))) _ _ ↔ _
  constructor
  · intro hanswers
    by_contra hno
    rw [not_or, not_or, not_and] at hno
    obtain ⟨hnil, hlast, hfull⟩ := hno
    have hpos := List.length_pos_of_ne_nil hnil
    -- what is returned is the length of what is left of the value
    apply not_answers_of_returned n _ hanswers
    intro buffer
    apply (hrun buffer).mono
    rintro reply ⟨-, ⟨-, -, hdone⟩ | ⟨hlt, hge, hzero⟩ | ⟨hempty, -⟩ |
      ⟨-, -, ⟨-, hreturned⟩ | ⟨heq, -⟩⟩⟩
    · refine ⟨fun _ => by rw [hdone.returned]; omega, fun ansi hansi => ?_⟩
      obtain rfl := Option.some.inj hansi
      rw [hdone.returned]
      omega
    · refine ⟨fun hbuffer => ?_, fun ansi hansi => ?_⟩
      · rw [hbuffer] at hlt hge
        exact absurd hge (hfull hlt)
      · obtain rfl := Option.some.inj hansi
        omega
    · exact absurd hempty hnil
    · refine ⟨fun _ => by omega, fun ansi hansi => ?_⟩
      obtain rfl := Option.some.inj hansi
      omega
    · exact absurd heq hlast
  · intro hfits buffer hbuffer
    rw [← hbuffer] at hfits ⊢
    have hne : ∀ ansi, some (table.convert text) = some ansi → ansi ≠ [] ∨ buffer.length = 0 := by
      rintro ansi hansi
      obtain rfl := Option.some.inj hansi
      refine .inl fun hnil => ?_
      rw [hnil, List.length_nil] at hmore
      omega
    apply (hrun buffer).mono
    rintro reply ⟨hsize, ⟨hlt, hroom, hdone⟩ | ⟨-, -, hzero⟩ | ⟨-, -, hzero⟩ |
      ⟨hnil, hge, ⟨hlast, -⟩ | ⟨-, hzero⟩⟩⟩
    · rcases hfits with hnil | heq | ⟨-, hfull⟩
      · -- nothing is left of the value
        rw [hnil] at hdone
        exact .of_zero hsize hdone.returned hne
      · have := (clampSize_le buffer.length).2.1
        unfold maxUShort at heq
        omega
      · exact absurd hroom (Nat.not_lt_of_le hfull)
    · exact .of_zero hsize hzero hne
    · exact .of_zero hsize hzero hne
    · rcases hfits with hempty | heq | ⟨hlt, -⟩
      · exact absurd hempty hnil
      · omega
      · exact absurd hlt (Nat.not_lt_of_le hge)
    · exact .of_zero hsize hzero hne

theorem answersA_pseudo (hheap : ∀ n, (heap n).isSome) (text : List WCHAR) (n : Nat) :
    Answers (getEnvironmentVariableA table heap (Found.pseudo text).answer)
        (some (table.convert text)) n ↔
      n = 0 ∨ text ≠ [] ∧ text.length < clampSize n := by
  change Answers (getEnvironmentVariableA table heap (Answer.pseudo text)) _ _ ↔ _
  have hfits {buffer : List UInt8} (hlt : text.length < clampSize buffer.length) :
      Yields (getEnvironmentVariableA table heap (Answer.pseudo text) buffer) fun reply =>
        reply.buffer.length = buffer.length ∧
          ((table.convert text).length < buffer.length ∧ reply.Delivers (table.convert text) ∨
            buffer.length ≤ (table.convert text).length ∧ reply.returned = 0) := by
    have hanswer := answer_pseudo text buffer.length
    rw [if_pos (.inl hlt)] at hanswer
    exact getEnvironmentVariableA_fits hheap hanswer hlt
  constructor
  · intro hanswers
    by_contra hno
    rw [not_or] at hno
    obtain ⟨hzero, hfull⟩ := hno
    by_cases hnil : text = []
    · subst hnil
      -- the result 0 of an empty value says that there is no variable
      apply not_answers_of_empty rfl _ hanswers
      intro buffer hbuffer
      have hpos := (clampSize_le buffer.length).2.2 (by rw [hbuffer]; exact hzero)
      apply (hfits (Nat.pos_of_ne_zero hpos)).mono
      rintro reply ⟨-, ⟨-, hdone⟩ | ⟨hge, -⟩⟩
      · exact hdone
      · exact absurd (hbuffer.symm.trans (Nat.eq_zero_of_le_zero hge)) hzero
    · -- the conversion reads behind the copy
      have hlong : clampSize n ≤ text.length := Nat.le_of_not_lt fun h => hfull ⟨hnil, h⟩
      obtain ⟨buffer, hbuffer⟩ : ∃ buffer : List UInt8, buffer.length = n :=
        ⟨List.replicate n 0, List.length_replicate⟩
      have hrun := hanswers buffer hbuffer
      subst hbuffer
      have hanswer := answer_pseudo text buffer.length
      rw [if_neg (not_or.2 ⟨Nat.not_lt_of_le hlong, hnil⟩)] at hanswer
      have hstatus : finalStatus .success buffer.length = .success := if_neg fun h => hzero h.2
      have hlength := queryLength_eq buffer.length
      have hpos := (clampSize_le buffer.length).2.2 hzero
      obtain ⟨block, hblock⟩ := Option.isSome_iff_exists.1
        (hheap (queryLength buffer.length / 2))
      have hsize := block.property
      have hfault : Faults (queryBlock (Answer.pseudo text (queryLength buffer.length))
          (queryLength buffer.length) block.val) := by
        unfold queryBlock
        rw [hanswer, storeAnswer_none rfl, Yields.ok_bind, Option.getD_some,
          Nat.mul_div_cancel_left _ (by decide : 0 < 2)]
        exact slice_faults (by omega)
      unfold getEnvironmentVariableA at hrun
      dsimp only at hrun
      rw [hblock] at hrun
      dsimp only at hrun
      have hok : (finalStatus (Answer.pseudo text (queryLength buffer.length)).status
          buffer.length).ntSuccess = true := by
        rw [hanswer, hstatus]
        rfl
      rw [if_pos hok] at hrun
      exact (hfault.bind _).not_yields hrun
  · rintro (hzero | ⟨hne, hlt⟩) buffer hbuffer
    · apply (getEnvironmentVariableA_zero hheap (hbuffer.trans hzero) rfl).mono
      rintro reply ⟨hsize, hreturned⟩
      exact .of_zero (hsize.trans hbuffer) hreturned fun _ _ => .inr hzero
    · subst hbuffer
      apply (hfits hlt).mono
      rintro reply ⟨hsize, ⟨-, hdone⟩ | ⟨-, hzero⟩⟩
      · exact .of_delivers hsize rfl hdone (table.convert_ne_nil hne)
      · refine .of_zero hsize hzero fun ansi hansi => ?_
        obtain rfl := Option.some.inj hansi
        exact .inl (table.convert_ne_nil hne)

/-- The routine of 8 bits answers as it should exactly for the values that fit. -/
theorem answersA_iff (hheap : ∀ n, (heap n).isSome) (found : Found) (n : Nat) :
    Answers (getEnvironmentVariableA table heap found.answer) (found.value.map table.convert) n ↔
      found.FitsA table n := by
  cases found with
  | nowhere =>
    refine iff_of_true (fun buffer hbuffer => ?_) trivial
    obtain ⟨block, hblock⟩ := Option.isSome_iff_exists.1 (hheap (queryLength buffer.length / 2))
    unfold getEnvironmentVariableA
    dsimp only
    rw [hblock]
    exact .ok (.of_zero hbuffer rfl nofun)
  | block text =>
    change _ ↔ if text.length < 2 ^ 15 then
      text = [] ∧ n = 0 ∨ text ≠ [] ∧ text.length < maxUShort / 2 - 2 ∨ text.length = maxUShort / 2
      else shortened text = [] ∨ (shortened text).length = maxUShort / 2 ∨
        (shortened text).length < clampSize n ∧ n ≤ (table.convert (shortened text)).length
    split
    · exact answersA_short hheap ‹_› n
    · exact answersA_long hheap ‹_› n
  | pseudo text => exact answersA_pseudo hheap text n

/-! ## Variables of the process -/

/-- A code page of single bytes. -/
def lowBytes : AnsiTable where
  bytes ch := [ch.toUInt8]
  ne_nil _ := List.cons_ne_nil _ _
  length_le _ := Nat.le_succ 1

/-- There is always memory. -/
def zeroHeap : Heap := fun n => some ⟨List.replicate n 0, length_nulls n⟩

theorem coherent_oneVariable : Coherent upcaseAscii oneVariable.toState := fun _ h => nomatch h

end Ldk.Environment
