import Mathlib
import Ldk.Lib.Yields
import Ldk.NtStatus
import Ldk.UnicodeString

/-!
# Characters of a set in a string

`RtlFindCharInUnicodeString` of `nls.c`. The string is searched from its start or from its end, for
a character that is in a set or not in it, with regard to case or without.

- There are four loops: for a small set, whose characters are downcased once to the stack, for a
  larger one, for a single character, and for the other sets.
- A loop counts the characters left down, and the answer comes from that count.
- `find_char_is_plain`: the answer tells of the first place of such a character, or the last one.

The table behind `RtlDowncaseUnicodeChar` belongs to the kernel, so it is a parameter. A read
outside the string is a fault.
-/

namespace Ldk.FindChar

/-! ## The function -/

/-- `RTL_FIND_CHAR_IN_UNICODE_STRING_START_AT_END` -/
def startAtEnd : BitVec 32 := 1

/-- `RTL_FIND_CHAR_IN_UNICODE_STRING_COMPLEMENT_CHAR_SET` -/
def complementCharSet : BitVec 32 := 2

/-- `RTL_FIND_CHAR_IN_UNICODE_STRING_CASE_INSENSITIVE` -/
def caseInsensitive : BitVec 32 := 4

def hasFlag (flags flag : BitVec 32) : Bool := flags &&& flag != 0

/-- `RtlValidateUnicodeString` -/
def rtlValidateUnicodeString (s : UnicodeString) : NtStatus :=
  if s.length % 2 = 0 ∧ (s.length = 0 ∨ s.buffer.isSome = true) then .success
  else .invalidParameter

/-- `*Cursor`; a fault gives the index. -/
def readAt (buffer : List WCHAR) (cursor : Int) : Except Int WCHAR :=
  match cursor with
  | .ofNat k =>
    match buffer[k]? with
    | some ch => .ok ch
    | none => .error cursor
  | .negSucc _ => .error cursor

/-- The loops over the string: what is left of `CharsToSearch`. -/
def searchLoop (stop : WCHAR → Bool) (buffer : List WCHAR) (movementDirection : Int) :
    Nat → Int → Except Int Nat
  | 0, _ => .ok 0
  | charsToSearch + 1, cursor => do
    let wch ← readAt buffer cursor
    if stop wch then return charsToSearch + 1
    else searchLoop stop buffer movementDirection charsToSearch (cursor + movementDirection)

/-- The test of `i` behind the loop over the set. -/
def stopAt (complement : Bool) (i charSetChars : Nat) : Bool :=
  if complement then i == charSetChars else i != charSetChars

/-- The loop for a set whose characters have been downcased to `CharSetStackBuffer`. -/
def smallSetLoop (downcase : WCHAR → WCHAR) (complement : Bool) (set : List WCHAR) :=
  let charSetStackBuffer := set.map downcase
  searchLoop fun ch =>
    stopAt complement (charSetStackBuffer.findIdx fun c => downcase ch == c) set.length

/-- The loop for a set that the stack does not hold. -/
def largeSetLoop (downcase : WCHAR → WCHAR) (complement : Bool) (set : List WCHAR) :=
  searchLoop fun ch =>
    stopAt complement (set.findIdx fun c => downcase ch == downcase c) set.length

/-- The loop for a single character. -/
def singleCharLoop (complement : Bool) (wchSearchChar : WCHAR) :=
  searchLoop fun ch => if complement then ch != wchSearchChar else ch == wchSearchChar

/-- The loop for a set, with regard to case. -/
def generalLoop (complement : Bool) (set : List WCHAR) :=
  searchLoop fun ch => stopAt complement (set.findIdx fun c => ch == c) set.length

/-- `RtlFindCharInUnicodeString`: the status, and what is written to `*NonInclusivePrefixLength`
if that is not null. -/
def rtlFindCharInUnicodeString (downcase : WCHAR → WCHAR) (flags : BitVec 32)
    (stringToSearch charSet : UnicodeString) (nonInclusivePrefixLength : Bool) :
    Except Int (NtStatus × Option Nat) :=
  let zero : Option Nat := if nonInclusivePrefixLength then some 0 else none
  if flags &&& ~~~(startAtEnd ||| complementCharSet ||| caseInsensitive) ≠ 0 ∨
      nonInclusivePrefixLength = false then
    .ok (.invalidParameter, zero)
  else if rtlValidateUnicodeString stringToSearch ≠ .success then
    .ok (rtlValidateUnicodeString stringToSearch, zero)
  else if rtlValidateUnicodeString charSet ≠ .success then
    .ok (rtlValidateUnicodeString charSet, zero)
  else do
    let charsToSearch := stringToSearch.length / 2
    let set := charSet.chars
    let complement := hasFlag flags complementCharSet
    let loop :=
      if hasFlag flags caseInsensitive then
        if set.length ≤ 32 then smallSetLoop downcase complement set
        else largeSetLoop downcase complement set
      else
        match set with
        | [wchSearchChar] => singleCharLoop complement wchSearchChar
        | _ => generalLoop complement set
    let buffer := stringToSearch.buffer.getD []
    let charsToSearch ←
      if hasFlag flags startAtEnd then loop buffer (-1) charsToSearch (charsToSearch - 1)
      else loop buffer 1 charsToSearch 0
    if charsToSearch = 0 then return (.notFound, zero)
    else
      let charsToSearch := charsToSearch - 1
      let prefixLengthFound :=
        if hasFlag flags startAtEnd then charsToSearch * 2 % 2 ^ 16
        else (stringToSearch.length - charsToSearch * 2) % 2 ^ 16
      return (.success, some prefixLengthFound)

/-! ## The plain definition -/

/-- A character that is looked for. -/
def IsSought (downcase : WCHAR → WCHAR) (flags : BitVec 32) (set : List WCHAR) (ch : WCHAR) :
    Prop :=
  let fold := if hasFlag flags caseInsensitive then downcase else id
  hasFlag flags complementCharSet = true ↔ fold ch ∉ set.map fold

/-- The places of such characters. -/
def places (sought : WCHAR → Prop) (chars : List WCHAR) : Set Nat :=
  {i | ∃ ch, chars[i]? = some ch ∧ sought ch}

/-- What a search for one of some places is to answer. -/
inductive Finds (places : Set Nat) (atEnd : Bool) : NtStatus × Option Nat → Prop where
  | notFound (hnone : places = ∅) : Finds places atEnd (.notFound, some 0)
  | first (i : Nat) (hstart : atEnd = false) (hleast : IsLeast places i) :
      Finds places atEnd (.success, some (2 * (i + 1)))
  | last (i : Nat) (hend : atEnd = true) (hgreatest : IsGreatest places i) :
      Finds places atEnd (.success, some (2 * i))

/-! ## The tests -/

variable {downcase : WCHAR → WCHAR} {complement : Bool} {set chars buffer : List WCHAR}
  {flags : BitVec 32} {ch : WCHAR}

/-- The loop over the set has come to its end just when the character is not there. -/
theorem stopAt_iff {p : WCHAR → Bool} :
    stopAt complement (set.findIdx p) set.length = true ↔
      (complement = true ↔ ∀ c ∈ set, p c = false) := by
  have hend : set.findIdx p = set.length ↔ ∀ c ∈ set, p c = false := List.findIdx_eq_length
  unfold stopAt
  cases complement with
  | true =>
    rw [if_pos rfl, beq_iff_eq, hend]
    simp
  | false =>
    rw [if_neg Bool.false_ne_true, bne_iff_ne, ne_eq, hend]
    simp

theorem smallSetLoop_eq (downcase : WCHAR → WCHAR) (complement : Bool) (set : List WCHAR) :
    smallSetLoop downcase complement set = largeSetLoop downcase complement set := by
  unfold smallSetLoop largeSetLoop
  dsimp only
  congr 1
  funext ch
  rw [List.findIdx_map]
  rfl

theorem singleCharLoop_eq (complement : Bool) (c : WCHAR) :
    singleCharLoop complement c = generalLoop complement [c] := by
  unfold singleCharLoop generalLoop
  congr 1
  funext ch
  rw [Bool.eq_iff_iff, stopAt_iff]
  cases complement <;> simp

theorem notMem_map_iff {fold : WCHAR → WCHAR} :
    fold ch ∉ set.map fold ↔ ∀ c ∈ set, (fold ch == fold c) = false := by
  rw [List.mem_map, not_exists]
  apply forall_congr'
  intro c
  rw [not_and, beq_eq_false_iff_ne, ne_comm]

/-- The loop that is taken stops at the characters that are looked for. -/
theorem exists_stop (downcase : WCHAR → WCHAR) (flags : BitVec 32) (set : List WCHAR) :
    ∃ stop : WCHAR → Bool, (∀ ch, stop ch = true ↔ IsSought downcase flags set ch) ∧
      (if hasFlag flags caseInsensitive then
        if set.length ≤ 32 then smallSetLoop downcase (hasFlag flags complementCharSet) set
        else largeSetLoop downcase (hasFlag flags complementCharSet) set
      else
        match set with
        | [wchSearchChar] => singleCharLoop (hasFlag flags complementCharSet) wchSearchChar
        | _ => generalLoop (hasFlag flags complementCharSet) set) = searchLoop stop := by
  unfold IsSought
  dsimp only
  by_cases hcase : hasFlag flags caseInsensitive = true
  · refine ⟨fun ch => stopAt (hasFlag flags complementCharSet)
      (set.findIdx fun c => downcase ch == downcase c) set.length, ?_, ?_⟩
    · intro ch
      rw [stopAt_iff, if_pos hcase, notMem_map_iff]
    · rw [if_pos hcase, smallSetLoop_eq, ite_self]
      rfl
  · refine ⟨fun ch => stopAt (hasFlag flags complementCharSet)
      (set.findIdx fun c => ch == c) set.length, ?_, ?_⟩
    · intro ch
      rw [stopAt_iff, if_neg hcase, notMem_map_iff]
      rfl
    · rw [if_neg hcase]
      split
      · exact singleCharLoop_eq _ _
      · rfl

/-! ## The loops -/

theorem readAt_spec {k : Nat} (hk : k < buffer.length) :
    Yields (readAt buffer k) fun ch => buffer[k]? = some ch := by
  have hget : buffer[k]? = some buffer[k] := List.getElem?_eq_getElem hk
  refine ⟨buffer[k], ?_, hget⟩
  change (match buffer[k]? with | some ch => Except.ok ch | none => .error _) = _
  rw [hget]

/-- A place of the string. -/
def StopsAt (stop : WCHAR → Bool) (buffer : List WCHAR) (i : Nat) : Prop :=
  ∃ ch, buffer[i]? = some ch ∧ stop ch = true

/-- From the start: the place comes from the count that is left. -/
theorem searchLoop_forward {stop : WCHAR → Bool} {n : Nat} (hn : n ≤ buffer.length) (left : Nat) :
    ∀ cursor, cursor + left = n → Yields (searchLoop stop buffer 1 left cursor) fun r =>
      (r = 0 ∧ ∀ i, cursor ≤ i → i < n → ¬ StopsAt stop buffer i) ∨
        ∃ i, cursor ≤ i ∧ i + r = n ∧ 0 < r ∧ StopsAt stop buffer i ∧
          ∀ j, cursor ≤ j → j < i → ¬ StopsAt stop buffer j := by
  induction left with
  | zero =>
    intro cursor hcursor
    exact .ok (.inl ⟨rfl, fun i hle hlt => absurd hlt (by omega)⟩)
  | succ left ih =>
    intro cursor hcursor
    unfold searchLoop
    apply (readAt_spec (by omega : cursor < buffer.length)).bind
    intro ch hch
    apply Yields.ite
    · intro hstop
      exact .ok (.inr ⟨cursor, Nat.le_refl _, by omega, by omega, ⟨ch, hch, hstop⟩,
        fun j hle hlt => absurd hlt (Nat.not_lt_of_le hle)⟩)
    · intro hgo
      -- the character at the cursor is none of those
      have hhere : ¬ StopsAt stop buffer cursor := by
        rintro ⟨ch', hch', hstop⟩
        obtain rfl := Option.some.inj (hch.symm.trans hch')
        exact hgo hstop
      have hbehind : ∀ i, cursor ≤ i → ¬ cursor + 1 ≤ i → ¬ StopsAt stop buffer i := by
        intro i hle hnext
        obtain rfl : i = cursor := by omega
        exact hhere
      apply (ih (cursor + 1) (by omega)).mono
      rintro r (⟨hr, hnone⟩ | ⟨i, hle, hsum, hpos, hi, hfirst⟩)
      · refine .inl ⟨hr, fun i hle hlt => ?_⟩
        by_cases hnext : cursor + 1 ≤ i
        · exact hnone i hnext hlt
        · exact hbehind i hle hnext
      · refine .inr ⟨i, by omega, hsum, hpos, hi, fun j hle hlt => ?_⟩
        by_cases hnext : cursor + 1 ≤ j
        · exact hfirst j hnext hlt
        · exact hbehind j hle hnext

/-- From the end: the count that is left ends at the place. -/
theorem searchLoop_backward {stop : WCHAR → Bool} (left : Nat) (hleft : left ≤ buffer.length) :
    Yields (searchLoop stop buffer (-1) left (left - 1)) fun r =>
      (r = 0 ∧ ∀ i < left, ¬ StopsAt stop buffer i) ∨
        ∃ i, r = i + 1 ∧ i < left ∧ StopsAt stop buffer i ∧
          ∀ j, i < j → j < left → ¬ StopsAt stop buffer j := by
  induction left with
  | zero => exact .ok (.inl ⟨rfl, fun i hlt => absurd hlt (Nat.not_lt_zero i)⟩)
  | succ left ih =>
    have hcursor : ((left + 1 : Nat) : Int) - 1 = (left : Int) := by omega
    unfold searchLoop
    rw [hcursor]
    apply (readAt_spec (by omega : left < buffer.length)).bind
    intro ch hch
    apply Yields.ite
    · intro hstop
      exact .ok (.inr ⟨left, rfl, Nat.lt_succ_self _, ⟨ch, hch, hstop⟩,
        fun j hlt hlt' => absurd hlt (by omega)⟩)
    · intro hgo
      have hhere : ¬ StopsAt stop buffer left := by
        rintro ⟨ch', hch', hstop⟩
        obtain rfl := Option.some.inj (hch.symm.trans hch')
        exact hgo hstop
      apply (ih (by omega)).mono
      rintro r (⟨hr, hnone⟩ | ⟨i, hr, hlt, hi, hlast⟩)
      · refine .inl ⟨hr, fun i hlt => ?_⟩
        rcases Nat.lt_succ_iff_lt_or_eq.1 hlt with hless | rfl
        · exact hnone i hless
        · exact hhere
      · refine .inr ⟨i, hr, by omega, hi, fun j hij hlt' => ?_⟩
        rcases Nat.lt_succ_iff_lt_or_eq.1 hlt' with hless | rfl
        · exact hlast j hij hless
        · exact hhere

/-! ## The answer -/

/-- A string that is valid: its characters are in the buffer. -/
theorem chars_of_valid {s : UnicodeString} (h : rtlValidateUnicodeString s = .success) :
    s.length = 2 * (s.length / 2) ∧ s.length / 2 ≤ (s.buffer.getD []).length ∧
      s.chars.length = s.length / 2 := by
  unfold rtlValidateUnicodeString at h
  split at h
  · rename_i hvalid
    have hchars := s.length_chars hvalid.2
    refine ⟨by omega, ?_, hchars⟩
    unfold UnicodeString.chars at hchars
    rw [List.length_take] at hchars
    omega
  · cases h

/-- The places in the buffer, as far as the string goes. -/
theorem mem_places_iff {s : UnicodeString} {stop : WCHAR → Bool} {sought : WCHAR → Prop}
    (hstop : ∀ ch, stop ch = true ↔ sought ch) {i : Nat}
    (hlength : s.chars.length = s.length / 2) :
    i ∈ places sought s.chars ↔ i < s.length / 2 ∧ StopsAt stop (s.buffer.getD []) i := by
  have hget (hlt : i < s.length / 2) : s.chars[i]? = (s.buffer.getD [])[i]? :=
    List.getElem?_take_of_lt hlt
  constructor
  · rintro ⟨ch, hch, hsought⟩
    have hlt : i < s.length / 2 := hlength ▸ (List.getElem?_eq_some_iff.1 hch).1
    exact ⟨hlt, ch, (hget hlt).symm.trans hch, (hstop ch).2 hsought⟩
  · rintro ⟨hlt, ch, hch, hstops⟩
    exact ⟨ch, (hget hlt).trans hch, (hstop ch).1 hstops⟩

/-- The answer is that of the plain definition, for each set of flags and for each string and set
that are valid; and the loop for a small set, or for a single character, does what the loop that
stands for it would do. -/
theorem find_char_is_plain (downcase : WCHAR → WCHAR) (flags : BitVec 32)
    (stringToSearch charSet : UnicodeString)
    (hflags : flags &&& ~~~(startAtEnd ||| complementCharSet ||| caseInsensitive) = 0)
    (hstring : rtlValidateUnicodeString stringToSearch = .success)
    (hset : rtlValidateUnicodeString charSet = .success) :
    Yields (rtlFindCharInUnicodeString downcase flags stringToSearch charSet true)
        (Finds (places (IsSought downcase flags charSet.chars) stringToSearch.chars)
          (hasFlag flags startAtEnd)) ∧
      (∀ complement, smallSetLoop downcase complement charSet.chars =
        largeSetLoop downcase complement charSet.chars) ∧
      ∀ complement wchSearchChar, charSet.chars = [wchSearchChar] →
        singleCharLoop complement wchSearchChar = generalLoop complement charSet.chars := by
  refine ⟨?_, fun complement => smallSetLoop_eq _ _ _, ?_⟩
  swap
  · intro complement c hone
    rw [hone]
    exact singleCharLoop_eq complement c
  -- the loop that is chosen stops at the places that are sought
  obtain ⟨stop, hstop, hloop⟩ := exists_stop downcase flags charSet.chars
  obtain ⟨heven, hbuffer, hlength⟩ := chars_of_valid hstring
  have hplaces := fun i => mem_places_iff (i := i) hstop hlength
  have hsmall := stringToSearch.length_lt
  unfold rtlFindCharInUnicodeString
  dsimp only
  rw [if_neg (by rw [hflags]; simp), if_neg (by rw [hstring]; simp), if_neg (by rw [hset]; simp),
    hloop]
  cases hend : hasFlag flags startAtEnd with
  | true =>
    rw [if_pos rfl]
    apply (searchLoop_backward (stringToSearch.length / 2) hbuffer).bind
    rintro r (⟨rfl, hnone⟩ | ⟨i, rfl, hlt, hi, hlast⟩)
    · apply Yields.ok
      refine .notFound (Set.eq_empty_of_forall_notMem fun i hi => ?_)
      obtain ⟨hlt, hstops⟩ := (hplaces i).1 hi
      exact hnone i hlt hstops
    · rw [if_neg (Nat.succ_ne_zero i)]
      -- the position is in bytes, and does not overflow
      have hvalue : i * 2 % 2 ^ 16 = 2 * i := by omega
      apply Yields.ok
      rw [if_pos rfl, Nat.add_sub_cancel, hvalue]
      refine .last i rfl ⟨(hplaces i).2 ⟨hlt, hi⟩, fun j hj => ?_⟩
      obtain ⟨hlt', hstops⟩ := (hplaces j).1 hj
      exact Nat.le_of_not_lt fun hij => hlast j hij hlt' hstops
  | false =>
    rw [if_neg Bool.false_ne_true]
    apply (searchLoop_forward hbuffer (stringToSearch.length / 2) 0 (Nat.zero_add _)).bind
    rintro r (⟨rfl, hnone⟩ | ⟨i, -, hsum, hpos, hi, hfirst⟩)
    · apply Yields.ok
      refine .notFound (Set.eq_empty_of_forall_notMem fun i hi => ?_)
      obtain ⟨hlt, hstops⟩ := (hplaces i).1 hi
      exact hnone i (Nat.zero_le i) hlt hstops
    · rw [if_neg (Nat.ne_of_gt hpos)]
      have hvalue : (stringToSearch.length - (r - 1) * 2) % 2 ^ 16 = 2 * (i + 1) := by omega
      apply Yields.ok
      rw [if_neg Bool.false_ne_true, hvalue]
      refine .first i rfl ⟨(hplaces i).2 ⟨by omega, hi⟩, fun j hj => ?_⟩
      obtain ⟨hlt', hstops⟩ := (hplaces j).1 hj
      exact Nat.le_of_not_lt fun hij => hfirst j (Nat.zero_le j) hij hstops

/-- The last backslash of `C:\a\b`, with regard to case and without. -/
theorem last_backslash_is_found :
    let s := UnicodeString.ofChars [0x43, 0x3a, 0x5c, 0x61, 0x5c, 0x62] (by decide)
    let set := UnicodeString.ofChars [0x5c, 0x2f] (by decide)
    Yields (rtlFindCharInUnicodeString upcaseAscii startAtEnd s set true)
        (Finds (places (IsSought upcaseAscii startAtEnd set.chars) s.chars) true) ∧
      rtlFindCharInUnicodeString upcaseAscii startAtEnd s set true = .ok (.success, some 8) ∧
      rtlFindCharInUnicodeString upcaseAscii (startAtEnd ||| caseInsensitive) s set true =
        .ok (.success, some 8) :=
  ⟨(find_char_is_plain upcaseAscii startAtEnd _ _ (by decide) (by decide) (by decide)).1,
    by decide, by decide⟩

end Ldk.FindChar
