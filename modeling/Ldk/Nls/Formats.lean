import Ldk.Nls.Rendering

/-!
# Formats of dates and times

What a caller of `GetDateFormatW` and of `GetTimeFormatW` is promised, and when the promise is kept:
a call reads no string at `NULL` and writes in no array more than it has room for, and what it
returns is 0, or is one more than the length of the text of the picture, which the caller's buffer
then holds if it is large enough.

- `AsRendered`: the promise, for all buffers of a caller.
- `NamesPresent`: a text that is missing is not reached, because what is before it does not fit.
- `CountsKept`: the lengths of the runs mean the same in 32 bits.
- `formats_are_exact`: the promise is kept exactly then. The texts of a time are never missing; in
  a date the name of a day may be (`dateText_eq_none`), since `LdkpGetSystemTimeDayName` does not
  check the day as `LdkpGetSystemTimeMonthName` checks the month.
-/

namespace Ldk.Nls

open OutputBuffer BoundedText

/-! ## The promise -/

/-- The buffer of a caller has as many characters as the caller says. -/
def CallerBuffer (string : Option (List WCHAR)) (cch : Int) : Prop :=
  ∀ memory, string = some memory → cch ≤ memory.length

/-- A call gives 0 or the text, whatever the caller's buffer is. -/
def AsRendered (rendered : Option (List WCHAR))
    (call : Option (List WCHAR) → Int → Except Fault Formatted) : Prop :=
  ∀ string cch, CallerBuffer string cch → Yields (call string cch) fun answer =>
    answer.result = 0 ∨ ∃ text, rendered = some text ∧ answer.result = text.length + 1 ∧
      ∀ memory, string = some memory → (text.length : Int) + 1 ≤ cch →
        ∃ after, answer.string = some after ∧ Holds after (text ++ [0])

/-- What is before a missing text does not fit. -/
def NamesPresent (size : Nat) (texts : List (Option (List WCHAR))) : Prop :=
  ∀ (before : List (List WCHAR)) (after : List (Option (List WCHAR))),
    texts = before.map some ++ none :: after → size ≤ before.flatten.length

/-- The texts for the counted runs are the text of the picture, or they do not fit. -/
def CountsKept (size : Nat) (texts : List (Option (List WCHAR)))
    (rendered : Option (List WCHAR)) : Prop :=
  ∀ pieces : List (List WCHAR), texts = pieces.map some → pieces.flatten.length < size →
    rendered = some pieces.flatten

/-! ## The caller's buffer -/

variable {size : Nat} {text picture stack : List WCHAR} {o : Output}

theorem lengthOf_ended (h : Ended size text o) : lengthOf o.buffer = .ok text.length := by
  have htake : o.buffer.takeWhile (· ≠ 0) = text :=
    h.ended.takeWhile (fun x hx => decide_eq_true fun hzero => h.clean (hzero ▸ hx)) (by simp)
  have hmem : (0 : WCHAR) ∈ o.buffer := by
    apply List.mem_of_mem_take (i := (text ++ [0]).length)
    rw [h.ended]
    simp
  unfold lengthOf Environment.wcslen
  rw [if_pos hmem, htake]

/-- The text is copied to a buffer that is large enough. -/
theorem ldkpCopyLocaleString_spec (h : Ended size text o) (hsize : size < 2 ^ 31)
    {string : Option (List WCHAR)} {cch : Int} (hcaller : CallerBuffer string cch) :
    Yields (ldkpCopyLocaleString o.buffer string cch) fun answer =>
      (answer.result = 0 ∧ cch < text.length + 1) ∨ answer.result = text.length + 1 ∧
        ∀ memory, string = some memory → (text.length : Int) + 1 ≤ cch →
          ∃ after, answer.string = some after ∧ Holds after (text ++ [0]) := by
  have hroom := h.room
  have hrequired : toInt (toInt (text.length : Int) + 1) = text.length + 1 := by
    rw [toInt_eq (n := text.length) (by omega) (by omega)]
    exact toInt_eq (by omega) (by omega)
  unfold ldkpCopyLocaleString
  rw [lengthOf_ended h]
  cases string with
  | none =>
    change Yields (.ok (⟨toInt (toInt (text.length : Int) + 1), none, none⟩ : Formatted)) _
    rw [hrequired]
    exact Yields.ok (Or.inr ⟨rfl, by simp⟩)
  | some memory =>
    have hmemory := hcaller memory rfl
    change Yields (if cch = 0 then _ else _) _
    rw [hrequired]
    by_cases hquery : cch = 0
    · rw [if_pos hquery]
      refine Yields.ok (Or.inr ⟨rfl, ?_⟩)
      intro _ _ hlarge
      omega
    rw [if_neg hquery]
    by_cases hshort : cch < (text.length : Int) + 1
    · rw [if_pos hshort]
      exact Yields.ok (Or.inl ⟨rfl, hshort⟩)
    rw [if_neg hshort]
    -- the buffer is large enough for the text and its null
    have hended : o.buffer.take (text.length + 1) = text ++ [0] := by
      have hholds := h.ended
      unfold Holds at hholds
      rwa [List.length_append, List.length_singleton] at hholds
    have hcopied : Yields (copy memory 0 o.buffer 0 (text.length + 1))
        (Written memory.length (text ++ [0]) (0 + (text.length + 1))) := by
      apply (Written.nothing memory (text ++ [0])).copy
      · rw [h.length]
        omega
      · rw [List.drop_zero, List.drop_zero, hended]
        simp
      · omega
    apply (inside_spec hcopied).bind
    intro after hafter
    refine Yields.ok (Or.inr ⟨rfl, ?_⟩)
    intro _ _ _
    refine ⟨after, rfl, ?_⟩
    apply Written.holds (n := memory.length)
    rw [List.length_append, List.length_singleton, ← Nat.zero_add (text.length + 1)]
    exact hafter

/-! ## The outcome of a call -/

/-- The array of a call holds the empty string at first. -/
theorem first_ended (hstack : stack.length = size) (hsize : 0 < size) :
    ∃ buffer, inside (put stack 0 [0]) = .ok buffer ∧
      Ended size [] ⟨buffer, 0, buffer.length⟩ := by
  have hempty : Holds stack [] := rfl
  have hnul : Yields (put stack 0 [0]) fun buffer => buffer.length = size ∧ Holds buffer [0] :=
    hempty.append hstack (Nat.succ_le_of_lt hsize)
  obtain ⟨buffer, hput, hlength, hholds⟩ := inside_spec hnul
  refine ⟨buffer, hput, ⟨hlength, rfl, rfl, ?_, hsize, List.not_mem_nil⟩, hholds⟩
  rw [hlength]
  exact Nat.zero_add size

/-- A call that comes to a string that is missing. -/
theorem formatInto_missing (hstack : stack.length = size) (hpositive : 0 < size)
    {append : Output → List WCHAR → Except Fault (Bool × Output)}
    (happend : ∀ o, Ended size [] o → Agrees size (append o picture) .missing)
    (string : Option (List WCHAR)) (cch : Int) :
    formatInto stack append (some picture) string cch = .error .nullString := by
  obtain ⟨buffer, hfirst, hempty⟩ := first_ended hstack hpositive
  have hmissing : append ⟨buffer, 0, buffer.length⟩ picture = .error .nullString :=
    happend _ hempty
  unfold formatInto
  rw [hfirst]
  change (append ⟨buffer, 0, buffer.length⟩ picture >>= _) = _
  rw [hmissing]
  rfl

/-- The promise is kept exactly if no string is missing and the text is that of the picture. -/
theorem formatInto_asRendered_iff (hstack : stack.length = size) (hpositive : 0 < size)
    (hsize : size < 2 ^ 31) {append : Output → List WCHAR → Except Fault (Bool × Output)}
    {out : Outcome WCHAR} (happend : ∀ o, Ended size [] o → Agrees size (append o picture) out)
    (rendered : Option (List WCHAR)) :
    AsRendered rendered (formatInto stack append (some picture)) ↔
      out ≠ .missing ∧ ∀ text, out = .text text → rendered = some text := by
  obtain ⟨buffer, hfirst, hempty⟩ := first_ended hstack hpositive
  have hagrees := happend _ hempty
  have hcall : ∀ string cch, formatInto stack append (some picture) string cch =
      append ⟨buffer, 0, buffer.length⟩ picture >>= fun r =>
        if r.1 then ldkpCopyLocaleString r.2.buffer string cch
        else .ok ⟨0, string, some errorInsufficientBuffer⟩ := by
    intro string cch
    unfold formatInto
    rw [hfirst]
    rfl
  -- a result of 0 says nothing of a text, so only a picture with a missing part can go wrong
  cases out with
  | missing =>
    refine iff_of_false (fun hkept => ?_) (fun h => h.1 rfl)
    obtain ⟨answer, hok, -⟩ := hkept none 0 nofun
    rw [formatInto_missing hstack hpositive happend] at hok
    cases hok
  | full =>
    obtain ⟨⟨appended, o⟩, hok, happended⟩ := hagrees
    dsimp only at happended
    refine iff_of_true (fun string cch _ => ?_) ⟨nofun, nofun⟩
    rw [hcall, hok, happended]
    exact Yields.ok (Or.inl rfl)
  | text text =>
    obtain ⟨⟨appended, o⟩, hok, happended, hended⟩ := hagrees
    dsimp only at happended hended
    have hcopied : ∀ string cch, formatInto stack append (some picture) string cch =
        ldkpCopyLocaleString o.buffer string cch := by
      intro string cch
      rw [hcall, hok, happended]
      rfl
    constructor
    · -- a buffer that is just large enough shows which text it is
      intro hkept
      refine ⟨nofun, ?_⟩
      intro _ htext
      obtain rfl := Outcome.text.inj htext
      have hcaller :
          CallerBuffer (some (List.replicate (text.length + 1) 0)) (text.length + 1) := by
        intro memory hmemory
        obtain rfl := Option.some.inj hmemory
        rw [List.length_replicate]
        exact Int.le_refl _
      obtain ⟨answer, hanswer, hspec⟩ := ldkpCopyLocaleString_spec hended hsize hcaller
      obtain ⟨answer', hanswer', hkept'⟩ := hkept _ _ hcaller
      rw [hcopied, hanswer] at hanswer'
      obtain rfl := Except.ok.inj hanswer'
      rcases hspec with ⟨-, hshort⟩ | ⟨hresult, hholds⟩
      · exact absurd hshort (Int.lt_irrefl _)
      rcases hkept' with hzero | ⟨text', hrendered, hresult', hholds'⟩
      · omega
      have hlength : text'.length = text.length := by omega
      obtain ⟨after, hafter, hsame⟩ := hholds _ rfl (Int.le_refl _)
      obtain ⟨after', hafter', hsame'⟩ := hholds' _ rfl (by omega)
      rw [hafter] at hafter'
      obtain rfl := Option.some.inj hafter'
      unfold Holds at hsame hsame'
      rw [List.length_append, List.length_singleton] at hsame hsame'
      rw [hlength, hsame] at hsame'
      rw [hrendered, List.append_cancel_right hsame']
    · intro h string cch hcaller
      rw [hcopied]
      apply (ldkpCopyLocaleString_spec hended hsize hcaller).mono
      rintro answer (⟨hzero, -⟩ | ⟨hresult, hholds⟩)
      · exact Or.inl hzero
      · exact Or.inr ⟨text, h.2 text rfl, hresult, hholds⟩

/-- A call for a picture without the sign that ends a string. -/
theorem formatInto_exact (hstack : stack.length = size) (hpositive : 0 < size)
    (hsize : size < 2 ^ 31)
    {appendToken : Output → WCHAR → Nat → Except Fault (Bool × Output)}
    {texts : WCHAR → Nat → Option (List WCHAR)}
    (hToken : ∀ o written token count, Ended size written o → token ≠ 0 →
      Agrees size (appendToken o token count) (outcome size written [texts token count]))
    (hpicture : 0 ∉ picture) (rendered : Option (List WCHAR)) :
    AsRendered rendered (formatInto stack (appendFormat appendToken) (some picture)) ↔
      NamesPresent size (countedTexts texts picture) ∧
        CountsKept size (countedTexts texts picture) rendered := by
  have hroom : ([] : List WCHAR).length < size := hpositive
  rw [formatInto_asRendered_iff hstack hpositive hsize
    (fun o h => appendFormat_agrees hToken h hpicture)]
  apply and_congr
  · rw [ne_eq, outcome_eq_missing_iff hroom]
    simp only [NamesPresent, List.length_nil, Nat.zero_add, not_exists, not_and, Nat.not_lt]
  · simp only [outcome_eq_text_iff hroom, List.nil_append, CountsKept]
    constructor
    · intro h pieces hpieces hfits
      exact h _ ⟨pieces, hpieces, rfl, hfits⟩
    · rintro h _ ⟨pieces, hpieces, rfl, hfits⟩
      exact h pieces hpieces hfits

/-! ## Pictures and texts -/

variable (localeName : Nat → Option (List WCHAR)) (locale : Nat)

/-- Each locale has its own pictures. -/
theorem ldkpGetLocaleString_date (dwFlags : Flags) :
    (ldkpGetLocaleString localeName locale (dateFormatType dwFlags)).isSome := by
  unfold dateFormatType
  split
  · rfl
  split
  · rfl
  split <;> rfl

theorem ldkpGetLocaleString_time (dwFlags : Flags) :
    (ldkpGetLocaleString localeName locale (timeFormatType dwFlags)).isSome := by
  unfold timeFormatType
  split <;> rfl

/-- The name of a month is never missing. -/
theorem ldkpGetSystemTimeMonthName_isSome (month : UInt16) (abbreviated : Bool) :
    (ldkpGetSystemTimeMonthName localeName locale month abbreviated).isSome := by
  unfold ldkpGetSystemTimeMonthName
  by_cases hmonth : month < 1 ∨ 12 < month
  · rw [if_pos hmonth]
    rfl
  · rw [if_neg hmonth]
    rw [not_or, UInt16.not_lt, UInt16.not_lt, UInt16.le_iff_toNat_le, UInt16.le_iff_toNat_le]
      at hmonth
    change 1 ≤ month.toNat ∧ month.toNat ≤ 12 at hmonth
    cases abbreviated with
    | false =>
      apply ldkpGetLocaleString_month
      all_goals
        simp only [localeSMonthName1, localeSAbbrevMonthName12, Bool.false_eq_true, if_false]
      all_goals omega
    | true =>
      apply ldkpGetLocaleString_month
      all_goals
        simp only [localeSMonthName1, localeSAbbrevMonthName1, localeSAbbrevMonthName12, if_true]
      all_goals omega

variable {localeName} {locale}

/-- The picture of a call is there, and is a string. -/
theorem pictureOf_spec {formatType : Nat}
    (htype : (ldkpGetLocaleString localeName locale formatType).isSome)
    (lpFormat : Option (List WCHAR)) :
    ∃ picture, pictureOf localeName locale formatType lpFormat = some picture ∧
      0 ∉ picture := by
  unfold pictureOf
  cases lpFormat with
  | some memory => exact ⟨stringAt memory, rfl, stringAt_clean memory⟩
  | none =>
    obtain ⟨memory, hmemory⟩ := Option.isSome_iff_exists.mp htype
    rw [hmemory]
    exact ⟨stringAt memory, rfl, stringAt_clean memory⟩

/-- The texts of a time are never missing. -/
theorem timeText_isSome (time : SystemTime) (flags : Flags) (token : WCHAR) (count : Nat) :
    (timeText localeName locale time flags token count).isSome := by
  unfold timeText
  split_ifs <;> rfl

/-- What is missing in a date is the name of the day. -/
theorem dateText_eq_none {date : SystemTime} {token : WCHAR} {count : Nat}
    (h : dateText localeName locale date token count = none) :
    token = letter 'd' ∧ 3 ≤ count ∧
      ldkpGetSystemTimeDayName localeName locale date.wDayOfWeek (count = 3) = none := by
  unfold dateText at h
  by_cases hy : token = letter 'y'
  · rw [if_pos hy] at h
    cases h
  rw [if_neg hy] at h
  by_cases hM : token = letter 'M'
  · rw [if_pos hM] at h
    split at h
    · have hname := ldkpGetSystemTimeMonthName_isSome localeName locale date.wMonth (count = 3)
      rw [Option.map_eq_none_iff.mp h] at hname
      cases hname
    · cases h
  rw [if_neg hM] at h
  by_cases hd : token = letter 'd'
  · rw [if_pos hd] at h
    split at h
    · exact ⟨hd, ‹3 ≤ count›, Option.map_eq_none_iff.mp h⟩
    · cases h
  · rw [if_neg hd] at h
    cases h

/-- Where each run has a text, none is missing. -/
theorem names_present (size : Nat) (picture : List WCHAR)
    {texts : WCHAR → Nat → Option (List WCHAR)}
    (h : ∀ token count, (texts token count).isSome) :
    NamesPresent size (countedTexts texts picture) := by
  intro before after heq
  have hmem : none ∈ countedTexts texts picture := by
    rw [heq]
    simp
  obtain ⟨piece, -, hpiece⟩ := List.mem_map.mp hmem
  cases piece with
  | quoted text => cases hpiece
  | run token count =>
    have hsome := h token (count % 2 ^ 32)
    change texts token (count % 2 ^ 32) = none at hpiece
    rw [hpiece] at hsome
    cases hsome

/-- No run is longer than its picture. -/
theorem run_length_le {token : WCHAR} {count : Nat} (h : .run token count ∈ pieces picture) :
    count ≤ picture.length := by
  induction picture using pieces.induct with
  | case1 => simp [pieces] at h
  | case2 format ih =>
    rw [pieces, if_pos rfl, List.mem_cons] at h
    have hbehind := behindQuoted_length format
    rcases h with h | h
    · cases h
    · have hcount := ih h
      rw [List.length_cons]
      omega
  | case3 first format hne ih =>
    rw [pieces, if_neg hne, List.mem_cons] at h
    have hbehind := behindRun_length first format
    have hrun := (List.takeWhile_sublist (· = first) (l := format)).length_le
    rw [List.length_cons]
    rcases h with h | h
    · cases h
      omega
    · have hcount := ih h
      omega

/-- The texts of the pieces, if none is missing. -/
theorem render_eq {texts : WCHAR → Nat → Option (List WCHAR)} {written : List (List WCHAR)}
    (h : (pieces picture).map (Piece.text texts) = written.map some) :
    render texts picture = some written.flatten := by
  have hall : ∀ (list : List Piece) (written : List (List WCHAR)),
      list.map (Piece.text texts) = written.map some →
        list.mapM (Piece.text texts) = some written := by
    intro list
    induction list with
    | nil =>
      intro written h
      obtain rfl := List.map_eq_nil_iff.mp h.symm
      rfl
    | cons piece rest ih =>
      intro written h
      cases written with
      | nil => cases h
      | cons first written =>
        rw [List.map_cons, List.map_cons, List.cons.injEq] at h
        rw [List.mapM_cons, h.1, ih written h.2]
        rfl
  unfold render
  rw [hall _ _ h]
  rfl

/-- In a picture of fewer than `2 ^ 32` characters the counts are the lengths. -/
theorem counts_kept (texts : WCHAR → Nat → Option (List WCHAR)) (h : picture.length < 2 ^ 32)
    (size : Nat) : CountsKept size (countedTexts texts picture) (render texts picture) := by
  have hsame : countedTexts texts picture = (pieces picture).map (Piece.text texts) := by
    unfold countedTexts
    apply List.map_congr_left
    intro piece hpiece
    cases piece with
    | quoted text => rfl
    | run token count =>
      have hcount := run_length_le hpiece
      change texts token (count % 2 ^ 32) = texts token count
      rw [Nat.mod_eq_of_lt (by omega)]
  intro written hwritten _
  exact render_eq (hsame.symm.trans hwritten)

/-! ## The routines -/

variable (localeName) (localTime : SystemTime) (locale : Nat) (dwFlags : Flags)

/-- The picture of a date. -/
def datePicture (lpFormat : Option (List WCHAR)) : List WCHAR :=
  (pictureOf localeName locale (dateFormatType dwFlags) lpFormat).getD []

/-- The picture of a time. -/
def timePicture (lpFormat : Option (List WCHAR)) : List WCHAR :=
  (pictureOf localeName locale (timeFormatType dwFlags) lpFormat).getD []

/-- The promise of `GetDateFormatW` is kept exactly if the names of the days that it needs are
there and the counts are kept; that of `GetTimeFormatW` exactly if the counts are kept. -/
theorem formats_are_exact (dateStack : Vector WCHAR 160) (timeStack : Vector WCHAR 96)
    (hlocale : isValidLocale localeName locale = true) (lpTime : Option SystemTime)
    (lpFormat : Option (List WCHAR)) :
    (AsRendered
        (render (dateText localeName locale (lpTime.getD localTime))
          (datePicture localeName locale dwFlags lpFormat))
        (getDateFormatW localeName localTime dateStack locale dwFlags lpTime lpFormat) ↔
      NamesPresent 160
          (countedTexts (dateText localeName locale (lpTime.getD localTime))
            (datePicture localeName locale dwFlags lpFormat)) ∧
        CountsKept 160
          (countedTexts (dateText localeName locale (lpTime.getD localTime))
            (datePicture localeName locale dwFlags lpFormat))
          (render (dateText localeName locale (lpTime.getD localTime))
            (datePicture localeName locale dwFlags lpFormat))) ∧
    (AsRendered
        (render (timeText localeName locale (lpTime.getD localTime) dwFlags)
          (timePicture localeName locale dwFlags lpFormat))
        (getTimeFormatW localeName localTime timeStack locale dwFlags lpTime lpFormat) ↔
      CountsKept 96
        (countedTexts (timeText localeName locale (lpTime.getD localTime) dwFlags)
          (timePicture localeName locale dwFlags lpFormat))
        (render (timeText localeName locale (lpTime.getD localTime) dwFlags)
          (timePicture localeName locale dwFlags lpFormat))) := by
  constructor
  · obtain ⟨picture, hpicture, hclean⟩ :=
      pictureOf_spec (ldkpGetLocaleString_date localeName locale dwFlags) lpFormat
    unfold datePicture getDateFormatW
    rw [hpicture, hlocale]
    exact formatInto_exact Vector.length_toList (by omega) (by omega)
      (fun o written token count h htoken => ldkpAppendDateFormatToken_agrees h.toHolding locale
        (lpTime.getD localTime) htoken count) hclean _
  · obtain ⟨picture, hpicture, hclean⟩ :=
      pictureOf_spec (ldkpGetLocaleString_time localeName locale dwFlags) lpFormat
    -- each part of a time has a text
    have hpresent : NamesPresent 96
        (countedTexts (timeText localeName locale (lpTime.getD localTime) dwFlags) picture) :=
      names_present _ _ (timeText_isSome _ _)
    unfold timePicture getTimeFormatW
    rw [hpicture, hlocale]
    refine Iff.trans ?_ (and_iff_right hpresent)
    exact formatInto_exact Vector.length_toList (by omega) (by omega)
      (fun o written token count h htoken => ldkpAppendTimeFormatToken_agrees h locale
        (lpTime.getD localTime) dwFlags htoken count) hclean _

/-! ## Two calls -/

/-- A table of names that has one locale. -/
def englishName (locale : Nat) : Option (List WCHAR) :=
  if locale = 0x0409 then some (wide "en-US") else none

/-- A time on the first day of 2024, with some day of the week. -/
def newYear (dayOfWeek : UInt16) : SystemTime := ⟨2024, 1, dayOfWeek, 1, 9, 5, 0⟩

/-- The picture of an abbreviated day. -/
def shortDay : List WCHAR := [letter 'd', letter 'd', letter 'd']

theorem pieces_shortDay : pieces shortDay = [.run (letter 'd') 3] := by
  have hrest : [letter 'd', letter 'd'].dropWhile (· = letter 'd') = [] := rfl
  unfold shortDay
  rw [pieces, if_neg (by decide), hrest, pieces]
  rfl

theorem datePicture_shortDay (dwFlags : Flags) :
    datePicture englishName 0x0409 dwFlags (some shortDay) = shortDay := rfl

/-- On a Monday the texts are as they should be. -/
theorem monday_is_rendered :
    AsRendered (render (dateText englishName 0x0409 (newYear 1)) shortDay)
      (getDateFormatW englishName (newYear 1) (Vector.replicate 160 0) 0x0409 0 none
        (some shortDay)) := by
  have hexact := (formats_are_exact englishName (newYear 1) 0x0409 0 (Vector.replicate 160 0)
    (Vector.replicate 96 0) (by decide) none (some shortDay)).1
  rw [datePicture_shortDay] at hexact
  apply hexact.mpr
  constructor
  · intro before after heq
    unfold countedTexts at heq
    rw [pieces_shortDay] at heq
    have hmem : (none : Option (List WCHAR)) ∈ before.map some ++ none :: after := by simp
    rw [← heq, List.map_singleton, List.mem_singleton] at hmem
    cases hmem
  · exact counts_kept _ (by decide) 160

/-- A day of the week that is out of range: the abbreviated name of the day is read at `NULL`. -/
theorem day_name_is_null :
    isValidLocale englishName 0x0409 = true ∧
      getDateFormatW englishName (newYear 1) (Vector.replicate 160 0) 0x0409 0
        (some (newYear 0xffff)) (some shortDay) none 0 = .error .nullString ∧
      ¬ AsRendered (render (dateText englishName 0x0409 (newYear 0xffff)) shortDay)
        (getDateFormatW englishName (newYear 1) (Vector.replicate 160 0) 0x0409 0
          (some (newYear 0xffff)) (some shortDay)) := by
  have hnull : getDateFormatW englishName (newYear 1) (Vector.replicate 160 0) 0x0409 0
      (some (newYear 0xffff)) (some shortDay) none 0 = .error .nullString := by
    have hclean : (0 : WCHAR) ∉ shortDay := by decide
    have hmissing : countedTexts (dateText englishName 0x0409 (newYear 0xffff)) shortDay =
        [none] := by
      unfold countedTexts
      rw [pieces_shortDay]
      rfl
    have hstack : (Vector.replicate 160 (0 : WCHAR)).toList.length = 160 := Vector.length_toList
    apply formatInto_missing hstack (by omega)
    intro o h
    have hagrees : Agrees 160
        (appendFormat (ldkpAppendDateFormatToken englishName 0x0409 (newYear 0xffff)) o shortDay)
        (outcome 160 []
          (countedTexts (dateText englishName 0x0409 (newYear 0xffff)) shortDay)) :=
      appendFormat_agrees (fun o written token count h htoken =>
        ldkpAppendDateFormatToken_agrees h.toHolding 0x0409 (newYear 0xffff) htoken count) h hclean
    rw [hmissing] at hagrees
    exact hagrees
  refine ⟨by decide, hnull, fun hkept => ?_⟩
  obtain ⟨answer, hok, -⟩ := hkept none 0 nofun
  rw [hnull] at hok
  cases hok

end Ldk.Nls
