import Mathlib
import Ldk.Lib.BoundedText
import Ldk.Nls.DateTime

/-!
# The text of a picture

What `GetDateFormatW` and `GetTimeFormatW` are for: a picture is a list of pieces, each piece has a
text, and the text of the picture is made of theirs.

- `pieces`: quoted texts and runs of one letter.
- `dateText`, `timeText`: the text of a run, in the decimal digits of `Nat.toDigits`.
- `Agrees`: what an append gives is what becomes of the texts in a room of bounded length.
- `appendFormat_agrees`: a loop over a picture gives what becomes of the texts of its pieces, with
  the lengths of the runs as the 32 bits of `Count` have them.
-/

set_option linter.unusedSectionVars false

namespace Ldk.Nls

open OutputBuffer BoundedText

/-! ## Pieces and their texts -/

inductive Piece where
  | quoted (text : List WCHAR)
  | run (token : WCHAR) (count : Nat)

/-- The pieces of a picture. -/
def pieces : List WCHAR → List Piece
  | [] => []
  | token :: format =>
    if token = quoteSign then
      .quoted (format.takeWhile (· ≠ quoteSign)) :: pieces (behindQuoted format)
    else
      .run token (1 + (format.takeWhile (· = token)).length) ::
        pieces (format.dropWhile (· = token))
termination_by format => format.length
decreasing_by
  · exact Nat.lt_succ_of_le (behindQuoted_length format)
  · exact Nat.lt_succ_of_le (behindRun_length token format)

/-- The decimal digits of a number. -/
def decimal (number : Nat) : List WCHAR := (Nat.toDigits 10 number).map letter

/-- The decimal digits, with zeros before them. -/
def padded (width number : Nat) : List WCHAR := (decimal number).leftpad width (letter '0')

/-- A number, in two digits for two letters. -/
def fieldText (count number : Nat) : List WCHAR :=
  if count = 2 then padded 2 number else decimal number

variable (localeName : Nat → Option (List WCHAR))

/-- The text of a run of letters in the picture of a date. -/
def dateText (locale : Nat) (date : SystemTime) (token : WCHAR) (count : Nat) :
    Option (List WCHAR) :=
  if token = letter 'y' then
    some (if count ≤ 2 then padded 2 (date.wYear.toNat % 100) else padded 4 date.wYear.toNat)
  else if token = letter 'M' then
    if 3 ≤ count then
      (ldkpGetSystemTimeMonthName localeName locale date.wMonth (count = 3)).map stringAt
    else some (fieldText count date.wMonth.toNat)
  else if token = letter 'd' then
    if 3 ≤ count then
      (ldkpGetSystemTimeDayName localeName locale date.wDayOfWeek (count = 3)).map stringAt
    else some (fieldText count date.wDay.toNat)
  else some (List.replicate count token)

/-- The text of a run of letters in the picture of a time. -/
def timeText (locale : Nat) (time : SystemTime) (flags : Flags) (token : WCHAR) (count : Nat) :
    Option (List WCHAR) :=
  if token = letter 'H' then some (fieldText count time.wHour.toNat)
  else if token = letter 'h' then
    some (fieldText count
      (if flags &&& timeForce24HourFormat ≠ 0 then time.wHour.toNat
        else ldkpGetTwelveHour time.wHour))
  else if token = letter 'm' then
    some (if flags &&& timeNoMinutesOrSeconds ≠ 0 then [] else fieldText count time.wMinute.toNat)
  else if token = letter 's' then
    some (if flags &&& (timeNoMinutesOrSeconds ||| timeNoSeconds) ≠ 0 then []
      else fieldText count time.wSecond.toNat)
  else if token = letter 't' then
    if flags &&& (timeNoTimeMarker ||| timeForce24HourFormat) ≠ 0 then some []
    else
      (ldkpGetLocaleString localeName locale
        (if time.wHour < 12 then localeSAm else localeSPm)).map stringAt
  else some (List.replicate count token)

/-- The text of a piece. -/
def Piece.text (texts : WCHAR → Nat → Option (List WCHAR)) : Piece → Option (List WCHAR)
  | .quoted text => some text
  | .run token count => texts token count

/-- The text of a picture, if all of its pieces have one. -/
def render (texts : WCHAR → Nat → Option (List WCHAR)) (picture : List WCHAR) :
    Option (List WCHAR) :=
  ((pieces picture).mapM (Piece.text texts)).map List.flatten

/-- The texts of the pieces, for the lengths of runs in 32 bits. -/
def countedTexts (texts : WCHAR → Nat → Option (List WCHAR)) (picture : List WCHAR) :
    List (Option (List WCHAR)) :=
  (pieces picture).map (Piece.text fun token count => texts token (count % 2 ^ 32))

/-! ## The output -/

/-- The array begins with a text, and the cursor is behind it. -/
structure Holding (size : Nat) (text : List WCHAR) (o : Output) : Prop where
  length : o.buffer.length = size
  holds : Holds o.buffer text
  cursor : o.cursor = text.length
  remaining : text.length + o.remaining = size
  room : text.length < size
  clean : 0 ∉ text

/-- The array begins with a string. -/
structure Ended (size : Nat) (text : List WCHAR) (o : Output) : Prop extends
    Holding size text o where
  ended : Holds o.buffer (text ++ [0])

/-- What an append gives is what becomes of the texts. -/
def Agrees (size : Nat) (x : Except Fault (Bool × Output)) : Outcome WCHAR → Prop
  | .missing => x = .error .nullString
  | .full => Yields x fun r => r.1 = false
  | .text written => Yields x fun r => r.1 = true ∧ Ended size written r.2

variable {size : Nat} {text cs : List WCHAR} {o : Output}

theorem inside_spec {α : Type} {access : Except Outside α} {P : α → Prop}
    (h : Yields access P) : Yields (inside access) P := by
  obtain ⟨a, rfl, ha⟩ := h
  exact ⟨a, rfl, ha⟩

theorem append_spec {c : WCHAR} (h : Holding size text o) (hroom : 1 < o.remaining)
    (hc : c ≠ 0) : Yields (o.append c) (Holding size (text ++ [c])) := by
  have hremaining := h.remaining
  unfold Output.append
  have hput : Yields (put o.buffer text.length [c]) fun buffer =>
      buffer.length = size ∧ Holds buffer (text ++ [c]) := by
    apply h.holds.append h.length
    rw [List.length_singleton]
    omega
  rw [← h.cursor] at hput
  apply (inside_spec hput).bind
  rintro buffer ⟨hsize, hholds⟩
  apply Yields.ok
  refine ⟨hsize, hholds, ?_, ?_, ?_, ?_⟩
  · rw [List.length_append, ← h.cursor, List.length_singleton]
  · rw [List.length_append, List.length_singleton]
    dsimp only
    omega
  · rw [List.length_append, List.length_singleton]
    omega
  · simp only [List.mem_append, List.mem_singleton, not_or]
    exact ⟨h.clean, hc.symm⟩

theorem appendAll_spec (h : Holding size text o) (hroom : cs.length < o.remaining)
    (hcs : 0 ∉ cs) : Yields (o.appendAll cs) fun o' => Holding size (text ++ cs) o' := by
  induction cs generalizing text o with
  | nil =>
    rw [List.append_nil]
    exact Yields.ok h
  | cons c rest ih =>
    rw [List.mem_cons, not_or] at hcs
    rw [List.length_cons] at hroom
    apply (append_spec h (by omega) (Ne.symm hcs.1)).bind
    intro o' ho'
    have hleft := ho'.remaining
    have hright := h.remaining
    rw [List.length_append, List.length_singleton] at hleft
    rw [List.append_cons]
    exact ih ho' (by omega) hcs.2

theorem terminate_spec (h : Holding size text o) : Yields o.terminate (Ended size text) := by
  unfold Output.terminate
  have hput : Yields (put o.buffer text.length [0]) fun buffer =>
      buffer.length = size ∧ Holds buffer (text ++ [0]) := by
    apply h.holds.append h.length
    rw [List.length_singleton]
    exact h.room
  rw [← h.cursor] at hput
  apply (inside_spec hput).bind
  rintro buffer ⟨hsize, hholds⟩
  apply Yields.ok
  exact ⟨⟨hsize, hholds.left, h.cursor, h.remaining, h.room, h.clean⟩, hholds⟩

/-- Characters that fit are all appended. -/
theorem appendCharacters_agrees (h : Holding size text o) (hcs : 0 ∉ cs) :
    Agrees size (appendCharacters o cs) (outcome size text [some cs]) := by
  induction cs generalizing text o with
  | nil =>
    rw [outcome_fits (by exact h.room), List.append_nil]
    apply (terminate_spec h).bind
    intro o' ho'
    exact Yields.ok ⟨rfl, ho'⟩
  | cons c rest ih =>
    have hremaining := h.remaining
    rw [List.mem_cons, not_or] at hcs
    unfold appendCharacters
    by_cases hroom : o.remaining ≤ 1
    · rw [if_pos hroom, outcome_full (by rw [List.length_cons]; omega)]
      exact Yields.ok rfl
    · have hsplit : c :: rest = [c] ++ rest := rfl
      rw [if_neg hroom, hsplit, outcome_split,
        outcome_fits (by rw [List.length_singleton]; omega)]
      obtain ⟨o', happend, ho'⟩ := append_spec h (by omega) (Ne.symm hcs.1)
      rw [happend]
      exact ih ho' hcs.2

theorem stringAt_clean (memory : List WCHAR) : 0 ∉ stringAt memory := by
  intro hmem
  simpa using List.mem_takeWhile_imp hmem

/-- A string that fits is appended, and that of `NULL` is missing. -/
theorem ldkpAppendString_agrees (h : Holding size text o) (string : Option (List WCHAR)) :
    Agrees size (ldkpAppendString o string) (outcome size text [string.map stringAt]) := by
  cases string with
  | none => rfl
  | some memory => exact appendCharacters_agrees h (stringAt_clean memory)

/-! ## Numbers -/

theorem letter_digitChar {digit : Nat} (h : digit < 10) :
    letter digit.digitChar = digitCharacter digit := by
  interval_cases digit <;> rfl

theorem digitCharacter_ne_zero {digit : Nat} (h : digit < 10) : digitCharacter digit ≠ 0 := by
  interval_cases digit <;> decide

theorem decimal_eq (number : Nat) :
    decimal number =
      if number / 10 = 0 then [digitCharacter (number % 10)]
      else decimal (number / 10) ++ [digitCharacter (number % 10)] := by
  have hlast : letter (number % 10).digitChar = digitCharacter (number % 10) :=
    letter_digitChar (Nat.mod_lt _ (by omega))
  unfold decimal
  rw [Nat.toDigits_eq_if (by omega)]
  by_cases hsmall : number < 10
  · rw [if_pos hsmall, if_pos (by omega)]
    rw [Nat.mod_eq_of_lt hsmall] at hlast ⊢
    rw [List.map_singleton, hlast]
  · rw [if_neg hsmall, if_neg (by omega), List.map_append, List.map_singleton, hlast]

theorem decimal_clean (number : Nat) : 0 ∉ decimal number := by
  induction number using Nat.strong_induction_on with
  | _ number ih =>
    have hlast := digitCharacter_ne_zero (Nat.mod_lt number (show 10 > 0 by omega))
    rw [decimal_eq]
    split
    · rw [List.mem_singleton]
      exact hlast.symm
    · rw [List.mem_append, List.mem_singleton, not_or]
      exact ⟨ih (number / 10) (by omega), hlast.symm⟩

/-- The digits of a number that has no more of them than there are elements. -/
theorem fillDigits_spec {room number : Nat} (hroom : 0 < room) (h : number < 10 ^ room) :
    Yields (fillDigits room number) fun digits => digits.reverse = decimal number := by
  induction room generalizing number with
  | zero => omega
  | succ room ih =>
    rw [decimal_eq]
    unfold fillDigits
    by_cases hlast : number / 10 = 0
    · rw [if_pos hlast, if_pos hlast]
      exact Yields.ok rfl
    · rw [if_neg hlast, if_neg hlast]
      rw [Nat.pow_succ] at h
      have hpositive : 0 < room := by
        apply Nat.pos_of_ne_zero
        rintro rfl
        omega
      apply (ih hpositive (by omega)).bind
      intro digits hdigits
      apply Yields.ok
      rw [List.reverse_cons, hdigits]

/-- A number below the tenth power of ten fits in its array of digits. -/
theorem ldkpAppendNumber_agrees (h : Holding size text o) {number : Nat}
    (hnumber : number < 10 ^ 10) :
    Agrees size (ldkpAppendNumber o number) (outcome size text [some (decimal number)]) := by
  have hremaining := h.remaining
  obtain ⟨digits, hfill, hdigits⟩ := fillDigits_spec (by omega) hnumber
  have hlength : digits.length = (decimal number).length := by
    rw [← hdigits, List.length_reverse]
  have hclean := decimal_clean number
  unfold ldkpAppendNumber
  rw [hfill]
  change Agrees size (if o.remaining ≤ digits.length then .ok (false, o) else _) _
  by_cases hroom : o.remaining ≤ digits.length
  · rw [if_pos hroom, outcome_full (by omega)]
    exact Yields.ok rfl
  · rw [if_neg hroom, outcome_fits (by omega)]
    rw [hdigits]
    apply (appendAll_spec h (by omega) hclean).bind
    intro o' ho'
    apply (terminate_spec ho').bind
    intro o'' ho''
    exact Yields.ok ⟨rfl, ho''⟩

theorem padded_clean (width number : Nat) : 0 ∉ padded width number := by
  unfold padded List.leftpad
  rw [List.mem_append, not_or]
  constructor
  · intro hmem
    exact absurd (List.eq_of_mem_replicate hmem) (by decide)
  · exact decimal_clean number

theorem ldkpAppendPaddedNumber_agrees (h : Holding size text o) {number : Nat} (width : Nat)
    (hnumber : number < 10 ^ 10) :
    Agrees size (ldkpAppendPaddedNumber o number width)
      (outcome size text [some (padded width number)]) := by
  have hremaining := h.remaining
  obtain ⟨digits, hfill, hdigits⟩ := fillDigits_spec (by omega) hnumber
  have hlength : digits.length = (decimal number).length := by
    rw [← hdigits, List.length_reverse]
  have hclean := padded_clean width number
  have hpadded : (padded width number).length =
      if width < digits.length then digits.length else width := by
    unfold padded
    rw [List.length_leftpad, hlength]
    split <;> omega
  unfold ldkpAppendPaddedNumber
  rw [hfill]
  change Agrees size
    (if o.remaining ≤ (if width < digits.length then digits.length else width) then .ok (false, o)
      else _) _
  rw [← hpadded]
  by_cases hroom : o.remaining ≤ (padded width number).length
  · rw [if_pos hroom, outcome_full (by omega)]
    exact Yields.ok rfl
  · rw [if_neg hroom, outcome_fits (by omega)]
    have hzeros : padded width number =
        List.replicate ((padded width number).length - digits.length) 0x30 ++ digits.reverse := by
      rw [hdigits, hlength]
      unfold padded
      rw [List.length_leftpad]
      unfold List.leftpad
      congr 2
      omega
    have htotal := congrArg List.length hzeros
    rw [List.length_append, List.length_reverse] at htotal
    rw [hzeros, List.mem_append, not_or] at hclean
    apply (appendAll_spec h (by omega) hclean.1).bind
    intro zeros hzerosHeld
    have hleft := hzerosHeld.remaining
    rw [List.length_append] at hleft
    apply (appendAll_spec hzerosHeld (by rw [List.length_reverse]; omega) hclean.2).bind
    intro all hall
    rw [List.append_assoc, ← hzeros] at hall
    apply (terminate_spec hall).bind
    intro final hfinal
    exact Yields.ok ⟨rfl, hfinal⟩

/-! ## Tokens -/

theorem Agrees.bind {x : Except Fault (Bool × Output)}
    {f : Output → Except Fault (Bool × Output)} {piece : Option (List WCHAR)}
    {rest : List (Option (List WCHAR))} (hx : Agrees size x (outcome size text [piece]))
    (hf : ∀ o' written, Ended size written o' →
      Agrees size (f o') (outcome size written rest)) :
    Agrees size (do
      let (appended, o) ← x
      if appended then f o else return (false, o)) (outcome size text (piece :: rest)) := by
  cases piece with
  | none =>
    have hmissing : x = .error .nullString := hx
    rw [hmissing]
    rfl
  | some piece =>
    by_cases hfits : text.length + piece.length < size
    · rw [outcome_fits hfits] at hx ⊢
      obtain ⟨⟨appended, o'⟩, hok, happended, ho'⟩ := hx
      dsimp only at happended
      rw [hok, happended]
      exact hf o' _ ho'
    · rw [outcome_full hfits] at hx ⊢
      obtain ⟨⟨appended, o'⟩, hok, happended⟩ := hx
      dsimp only at happended
      rw [hok, happended]
      exact Yields.ok rfl

/-- Nothing is appended. -/
theorem nothing_agrees (h : Ended size text o) :
    Agrees size (.ok (true, o)) (outcome size text [some []]) := by
  rw [outcome_fits (by exact h.room), List.append_nil]
  exact Yields.ok ⟨rfl, h⟩

theorem appendField_agrees (h : Holding size text o) (count : Nat) {number : Nat}
    (hnumber : number < 10 ^ 10) :
    Agrees size (appendField o count number)
      (outcome size text [some (fieldText count number)]) := by
  unfold appendField fieldText
  split
  · exact ldkpAppendPaddedNumber_agrees h 2 hnumber
  · exact ldkpAppendNumber_agrees h hnumber

theorem toNat_lt_digits (field : UInt16) : field.toNat < 10 ^ 10 := by
  have hfield := field.toNat_lt
  omega

theorem repeated_agrees (h : Holding size text o) {token : WCHAR} (htoken : token ≠ 0)
    (count : Nat) :
    Agrees size (appendCharacters o (List.replicate count token))
      (outcome size text [some (List.replicate count token)]) := by
  apply appendCharacters_agrees h
  intro hmem
  exact htoken (List.eq_of_mem_replicate hmem).symm

/-- A name for three letters or more, and a number for fewer. -/
theorem nameOrField_agrees (h : Holding size text o) (name : Bool → Option (List WCHAR))
    (count : Nat) (field : UInt16) :
    Agrees size
      (if 4 ≤ count then ldkpAppendString o (name false)
        else if count = 3 then ldkpAppendString o (name true)
        else appendField o count field.toNat)
      (outcome size text
        [if 3 ≤ count then (name (count = 3)).map stringAt
          else some (fieldText count field.toNat)]) := by
  by_cases hlong : 4 ≤ count
  · rw [if_pos hlong, if_pos (by omega), decide_eq_false (by omega)]
    exact ldkpAppendString_agrees h _
  rw [if_neg hlong]
  by_cases hshort : count = 3
  · rw [if_pos hshort, if_pos (by omega), decide_eq_true hshort]
    exact ldkpAppendString_agrees h _
  · rw [if_neg hshort, if_neg (by omega)]
    exact appendField_agrees h count (toNat_lt_digits _)

variable {localeName}

/-- Each token of a date appends its text. -/
theorem ldkpAppendDateFormatToken_agrees (h : Holding size text o) (locale : Nat)
    (date : SystemTime) {token : WCHAR} (htoken : token ≠ 0) (count : Nat) :
    Agrees size (ldkpAppendDateFormatToken localeName locale date o token count)
      (outcome size text [dateText localeName locale date token count]) := by
  unfold ldkpAppendDateFormatToken dateText
  by_cases hy : token = letter 'y'
  · rw [if_pos hy, if_pos hy]
    split
    · exact ldkpAppendPaddedNumber_agrees h 2 (by omega)
    · exact ldkpAppendPaddedNumber_agrees h 4 (toNat_lt_digits _)
  rw [if_neg hy, if_neg hy]
  by_cases hM : token = letter 'M'
  · rw [if_pos hM, if_pos hM]
    exact nameOrField_agrees h (ldkpGetSystemTimeMonthName localeName locale date.wMonth) count _
  rw [if_neg hM, if_neg hM]
  by_cases hd : token = letter 'd'
  · rw [if_pos hd, if_pos hd]
    exact nameOrField_agrees h (ldkpGetSystemTimeDayName localeName locale date.wDayOfWeek) count _
  · rw [if_neg hd, if_neg hd]
    exact repeated_agrees h htoken count

theorem ldkpGetTwelveHour_lt (hour : UInt16) : ldkpGetTwelveHour hour < 10 ^ 10 := by
  unfold ldkpGetTwelveHour
  dsimp only
  split <;> omega

/-- Each token of a time appends its text. -/
theorem ldkpAppendTimeFormatToken_agrees (h : Ended size text o) (locale : Nat)
    (time : SystemTime) (flags : Flags) {token : WCHAR} (htoken : token ≠ 0) (count : Nat) :
    Agrees size (ldkpAppendTimeFormatToken localeName locale time flags o token count)
      (outcome size text [timeText localeName locale time flags token count]) := by
  unfold ldkpAppendTimeFormatToken timeText
  by_cases hH : token = letter 'H'
  · rw [if_pos hH, if_pos hH]
    exact appendField_agrees h.toHolding count (toNat_lt_digits _)
  rw [if_neg hH, if_neg hH]
  by_cases hh : token = letter 'h'
  · rw [if_pos hh, if_pos hh]
    split
    · exact appendField_agrees h.toHolding count (toNat_lt_digits _)
    · exact appendField_agrees h.toHolding count (ldkpGetTwelveHour_lt _)
  rw [if_neg hh, if_neg hh]
  by_cases hm : token = letter 'm'
  · rw [if_pos hm, if_pos hm]
    split
    · exact nothing_agrees h
    · exact appendField_agrees h.toHolding count (toNat_lt_digits _)
  rw [if_neg hm, if_neg hm]
  by_cases hs : token = letter 's'
  · rw [if_pos hs, if_pos hs]
    split
    · exact nothing_agrees h
    · exact appendField_agrees h.toHolding count (toNat_lt_digits _)
  rw [if_neg hs, if_neg hs]
  by_cases ht : token = letter 't'
  · rw [if_pos ht, if_pos ht]
    split
    · exact nothing_agrees h
    · exact ldkpAppendString_agrees h.toHolding _
  · rw [if_neg ht, if_neg ht]
    exact repeated_agrees h.toHolding htoken count

/-! ## Pictures -/

theorem appendQuoted_agrees (h : Ended size text o) (hcs : 0 ∉ cs) :
    Agrees size (appendQuoted o cs) (outcome size text [some cs]) := by
  induction cs generalizing text o with
  | nil => exact nothing_agrees h
  | cons c rest ih =>
    rw [List.mem_cons, not_or] at hcs
    have hstring : stringAt [c, 0] = [c] := by
      unfold stringAt
      rw [List.takeWhile_cons_of_pos (by simpa using Ne.symm hcs.1)]
      rfl
    have hsplit : c :: rest = [c] ++ rest := rfl
    have hone := ldkpAppendString_agrees h.toHolding (some [c, 0])
    rw [Option.map_some, hstring] at hone
    rw [hsplit, outcome_split]
    exact hone.bind fun o' written ho' => ih ho' hcs.2

/-- The loop over a picture, for what agrees with the texts of the tokens. -/
theorem appendFormat_agrees
    {appendToken : Output → WCHAR → Nat → Except Fault (Bool × Output)}
    {texts : WCHAR → Nat → Option (List WCHAR)}
    (hToken : ∀ o written token count, Ended size written o → token ≠ 0 →
      Agrees size (appendToken o token count) (outcome size written [texts token count]))
    (h : Ended size text o) {format : List WCHAR} (hformat : 0 ∉ format) :
    Agrees size (appendFormat appendToken o format)
      (outcome size text (countedTexts texts format)) := by
  unfold countedTexts
  induction o, format using appendFormat.induct generalizing text with
  | case1 o =>
    rw [appendFormat, pieces]
    exact Yields.ok ⟨rfl, h⟩
  | case2 o format ih =>
    rw [List.mem_cons, not_or] at hformat
    have hquoted : 0 ∉ format.takeWhile (· ≠ quoteSign) := fun hmem =>
      hformat.2 ((List.takeWhile_sublist _).subset hmem)
    have hbehind : 0 ∉ behindQuoted format := fun hmem =>
      hformat.2 ((List.dropWhile_sublist _).subset (List.mem_of_mem_drop hmem))
    rw [appendFormat, pieces, if_pos rfl, if_pos rfl, List.map_cons]
    exact (appendQuoted_agrees h hquoted).bind fun o' written ho' => ih o' ho' hbehind
  | case3 o token format hne ih =>
    rw [List.mem_cons, not_or] at hformat
    have hbehind : 0 ∉ format.dropWhile (· = token) := fun hmem =>
      hformat.2 ((List.dropWhile_sublist _).subset hmem)
    rw [appendFormat, pieces, if_neg hne, if_neg hne, List.map_cons]
    exact (hToken o text token _ h (Ne.symm hformat.1)).bind fun o' written ho' =>
      ih o' ho' hbehind

end Ldk.Nls
