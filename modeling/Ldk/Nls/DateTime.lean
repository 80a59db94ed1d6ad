import Ldk.Nls.Compare
import Ldk.Nls.LocaleStrings

/-!
# Dates and times

`GetDateFormatW` and `GetTimeFormatW` of `winnls.c`: a picture is read token by token, and what
each token stands for is appended to an array on the stack, from which the caller has its copy.

- `Output`: the array with the cursor and the room that remains, which all appends share. A write
  outside the array is a fault, and so is a read of the characters of `NULL`.
- A routine that returns `FALSE` gives `false`, and the output as it is then.
- The two loops over a picture differ in what they append for a token (`appendFormat`).
- `Count` is a `ULONG`.
-/

namespace Ldk.Nls

open OutputBuffer

/-! ## The output -/

inductive Fault where
  /-- The characters of `NULL` are read. -/
  | nullString
  | outside (piece : Outside)
  deriving DecidableEq, Repr

/-- An access that is inside its array. -/
def inside {α : Type} (access : Except Outside α) : Except Fault α := access.mapError .outside

/-- `Cursor`, as an index of the array, and `Remaining`. -/
structure Output where
  buffer : List WCHAR
  cursor : Nat
  remaining : Nat
  deriving DecidableEq, Repr

/-- `**Cursor = c`, and the cursor moves on. -/
def Output.append (o : Output) (c : WCHAR) : Except Fault Output := do
  let buffer ← inside (put o.buffer o.cursor [c])
  return ⟨buffer, o.cursor + 1, o.remaining - 1⟩

/-- Characters for which there is room. -/
def Output.appendAll : Output → List WCHAR → Except Fault Output
  | o, [] => .ok o
  | o, c :: rest => do
    let o ← o.append c
    o.appendAll rest

/-- `**Cursor = UNICODE_NULL` -/
def Output.terminate (o : Output) : Except Fault Output := do
  let buffer ← inside (put o.buffer o.cursor [0])
  return { o with buffer }

/-- The loop of `LdkpAppendString`; that of a token that stands for itself is the same, over
`Count` copies of it. -/
def appendCharacters : Output → List WCHAR → Except Fault (Bool × Output)
  | o, [] => do return (true, ← o.terminate)
  | o, c :: rest =>
    if o.remaining ≤ 1 then .ok (false, o)
    else do
      let o ← o.append c
      appendCharacters o rest

/-- The string at a pointer that is not `NULL`. -/
def stringAt (memory : List WCHAR) : List WCHAR := memory.takeWhile (· ≠ 0)

/-- `LdkpAppendString` -/
def ldkpAppendString (o : Output) : Option (List WCHAR) → Except Fault (Bool × Output)
  | none => .error .nullString
  | some string => appendCharacters o (stringAt string)

/-- The character `'0' + digit`. -/
def digitCharacter (digit : Nat) : WCHAR := 0x30 + UInt16.ofNat digit

/-- The loop that fills `Digits` with those of a number, the last one first; the argument before
the number says how many elements are left. -/
def fillDigits : Nat → Nat → Except Fault (List WCHAR)
  | 0, _ => .error (.outside ⟨10, 1⟩)
  | room + 1, number =>
    if number / 10 = 0 then .ok [digitCharacter (number % 10)]
    else do
      let digits ← fillDigits room (number / 10)
      return digitCharacter (number % 10) :: digits

/-- `LdkpAppendNumber` -/
def ldkpAppendNumber (o : Output) (number : Nat) : Except Fault (Bool × Output) := do
  let digits ← fillDigits 10 number
  if o.remaining ≤ digits.length then return (false, o)
  else
    let o ← o.appendAll digits.reverse
    return (true, ← o.terminate)

/-- `LdkpAppendPaddedNumber` -/
def ldkpAppendPaddedNumber (o : Output) (number width : Nat) : Except Fault (Bool × Output) := do
  let digits ← fillDigits 10 number
  let width := if width < digits.length then digits.length else width
  if o.remaining ≤ width then return (false, o)
  else
    let o ← o.appendAll (List.replicate (width - digits.length) 0x30)
    let o ← o.appendAll digits.reverse
    return (true, ← o.terminate)

/-! ## Tokens -/

/-- `SYSTEMTIME`, without its milliseconds. -/
structure SystemTime where
  wYear : UInt16
  wMonth : UInt16
  wDayOfWeek : UInt16
  wDay : UInt16
  wHour : UInt16
  wMinute : UInt16
  wSecond : UInt16
  deriving DecidableEq, Repr

def dateLongDate : Flags := 0x00000002#32

def dateYearMonth : Flags := 0x00000008#32

def dateMonthDay : Flags := 0x00000080#32

def timeNoMinutesOrSeconds : Flags := 0x00000001#32

def timeNoSeconds : Flags := 0x00000002#32

def timeNoTimeMarker : Flags := 0x00000004#32

def timeForce24HourFormat : Flags := 0x00000008#32

/-- A literal of one wide character. -/
def letter (c : Char) : WCHAR := UInt16.ofNat c.toNat

-- `LdkpGetLocaleName`
variable (localeName : Nat → Option (List WCHAR))

/-- `LdkpGetSystemTimeDayName` -/
def ldkpGetSystemTimeDayName (locale : Nat) (dayOfWeek : UInt16) (abbreviated : Bool) :
    Option (List WCHAR) :=
  let mondayBased : UInt16 := if dayOfWeek = 0 then 6 else dayOfWeek - 1
  let baseType := if abbreviated then localeSAbbrevDayName1 else localeSDayName1
  ldkpGetLocaleString localeName locale (baseType + mondayBased.toNat)

/-- `LdkpGetSystemTimeMonthName` -/
def ldkpGetSystemTimeMonthName (locale : Nat) (month : UInt16) (abbreviated : Bool) :
    Option (List WCHAR) :=
  if month < 1 ∨ 12 < month then some []
  else
    let baseType := if abbreviated then localeSAbbrevMonthName1 else localeSMonthName1
    ldkpGetLocaleString localeName locale (baseType + month.toNat - 1)

/-- A number that is padded for two letters. -/
def appendField (o : Output) (count number : Nat) : Except Fault (Bool × Output) :=
  if count = 2 then ldkpAppendPaddedNumber o number 2 else ldkpAppendNumber o number

/-- `LdkpAppendDateFormatToken` -/
def ldkpAppendDateFormatToken (locale : Nat) (date : SystemTime) (o : Output) (token : WCHAR)
    (count : Nat) : Except Fault (Bool × Output) :=
  if token = letter 'y' then
    if count ≤ 2 then ldkpAppendPaddedNumber o (date.wYear.toNat % 100) 2
    else ldkpAppendPaddedNumber o date.wYear.toNat 4
  else if token = letter 'M' then
    if 4 ≤ count then
      ldkpAppendString o (ldkpGetSystemTimeMonthName localeName locale date.wMonth false)
    else if count = 3 then
      ldkpAppendString o (ldkpGetSystemTimeMonthName localeName locale date.wMonth true)
    else appendField o count date.wMonth.toNat
  else if token = letter 'd' then
    if 4 ≤ count then
      ldkpAppendString o (ldkpGetSystemTimeDayName localeName locale date.wDayOfWeek false)
    else if count = 3 then
      ldkpAppendString o (ldkpGetSystemTimeDayName localeName locale date.wDayOfWeek true)
    else appendField o count date.wDay.toNat
  else appendCharacters o (List.replicate count token)

/-- `LdkpGetTwelveHour` -/
def ldkpGetTwelveHour (hour : UInt16) : Nat :=
  let twelveHour := hour.toNat % 12
  if twelveHour = 0 then 12 else twelveHour

/-- `LdkpAppendTimeFormatToken` -/
def ldkpAppendTimeFormatToken (locale : Nat) (time : SystemTime) (flags : Flags) (o : Output)
    (token : WCHAR) (count : Nat) : Except Fault (Bool × Output) :=
  if token = letter 'H' then appendField o count time.wHour.toNat
  else if token = letter 'h' then
    if flags &&& timeForce24HourFormat ≠ 0 then appendField o count time.wHour.toNat
    else appendField o count (ldkpGetTwelveHour time.wHour)
  else if token = letter 'm' then
    if flags &&& timeNoMinutesOrSeconds ≠ 0 then .ok (true, o)
    else appendField o count time.wMinute.toNat
  else if token = letter 's' then
    if flags &&& (timeNoMinutesOrSeconds ||| timeNoSeconds) ≠ 0 then .ok (true, o)
    else appendField o count time.wSecond.toNat
  else if token = letter 't' then
    if flags &&& (timeNoTimeMarker ||| timeForce24HourFormat) ≠ 0 then .ok (true, o)
    else
      ldkpAppendString o (ldkpGetLocaleString localeName locale
        (if time.wHour < 12 then localeSAm else localeSPm))
  else appendCharacters o (List.replicate count token)

/-! ## Pictures -/

/-- The sign around a text that is taken as it is. -/
def quoteSign : WCHAR := 0x27

/-- What is behind a quoted text, and behind the sign that ends it. -/
def behindQuoted (format : List WCHAR) : List WCHAR := (format.dropWhile (· ≠ quoteSign)).drop 1

theorem behindQuoted_length (format : List WCHAR) :
    (behindQuoted format).length ≤ format.length := by
  have hle := (List.dropWhile_sublist (· ≠ quoteSign) (l := format)).length_le
  unfold behindQuoted
  rw [List.length_drop]
  omega

theorem behindRun_length (token : WCHAR) (format : List WCHAR) :
    (format.dropWhile (· = token)).length ≤ format.length :=
  (List.dropWhile_sublist _).length_le

/-- The literals of a quoted text, one by one. -/
def appendQuoted : Output → List WCHAR → Except Fault (Bool × Output)
  | o, [] => .ok (true, o)
  | o, c :: rest => do
    let (appended, o) ← ldkpAppendString o (some [c, 0])
    if appended then appendQuoted o rest else return (false, o)

/-- The loop over a picture, with what is appended for a token. -/
def appendFormat (appendToken : Output → WCHAR → Nat → Except Fault (Bool × Output))
    (o : Output) : List WCHAR → Except Fault (Bool × Output)
  | [] => .ok (true, o)
  | token :: format =>
    if token = quoteSign then do
      let (appended, o) ← appendQuoted o (format.takeWhile (· ≠ quoteSign))
      if appended then appendFormat appendToken o (behindQuoted format) else return (false, o)
    else do
      let count := (1 + (format.takeWhile (· = token)).length) % 2 ^ 32
      let (appended, o) ← appendToken o token count
      if appended then appendFormat appendToken o (format.dropWhile (· = token))
      else return (false, o)
termination_by format => format.length
decreasing_by
  · exact Nat.lt_succ_of_le (behindQuoted_length format)
  · exact Nat.lt_succ_of_le (behindRun_length token format)

/-- `LdkpAppendDateFormat` -/
def ldkpAppendDateFormat (o : Output) (locale : Nat) (date : SystemTime) (format : List WCHAR) :
    Except Fault (Bool × Output) :=
  appendFormat (ldkpAppendDateFormatToken localeName locale date) o format

/-- `LdkpAppendTimeFormat` -/
def ldkpAppendTimeFormat (o : Output) (locale : Nat) (time : SystemTime) (flags : Flags)
    (format : List WCHAR) : Except Fault (Bool × Output) :=
  appendFormat (ldkpAppendTimeFormatToken localeName locale time flags) o format

/-! ## The routines -/

/-- What a routine returns, leaves in the caller's buffer, and the last error. -/
structure Formatted where
  result : Int
  string : Option (List WCHAR)
  lastError : Option Nat
  deriving DecidableEq, Repr

/-- `LdkpCopyLocaleString` -/
def ldkpCopyLocaleString (value : List WCHAR) (lpLCData : Option (List WCHAR)) (cchData : Int) :
    Except Fault Formatted := do
  let length ← inside (lengthOf value)
  let required := toInt (toInt length + 1)
  match lpLCData with
  | none => return ⟨required, none, none⟩
  | some memory =>
    if cchData = 0 then return ⟨required, some memory, none⟩
    else if cchData < required then return ⟨0, some memory, some errorInsufficientBuffer⟩
    else
      -- `wcscpy_s`
      let memory ← inside (copy memory 0 value 0 (length + 1))
      return ⟨required, some memory, none⟩

/-- What both routines do with a picture, in an array with the elements of the stack. -/
def formatInto (buffer : List WCHAR)
    (append : Output → List WCHAR → Except Fault (Bool × Output))
    (format string : Option (List WCHAR)) (cch : Int) : Except Fault Formatted := do
  let buffer ← inside (put buffer 0 [0])
  match format with
  | none => .error .nullString
  | some picture =>
    let (appended, o) ← append ⟨buffer, 0, buffer.length⟩ picture
    if appended then ldkpCopyLocaleString o.buffer string cch
    else return ⟨0, string, some errorInsufficientBuffer⟩

/-- The type of the picture that stands for `NULL` in `GetDateFormatW`. -/
def dateFormatType (dwFlags : Flags) : Nat :=
  if dwFlags &&& dateLongDate ≠ 0 then localeSLongDate
  else if dwFlags &&& dateYearMonth ≠ 0 then localeSYearMonth
  else if dwFlags &&& dateMonthDay ≠ 0 then localeSMonthDay
  else localeSShortDate

/-- The type of the picture that stands for `NULL` in `GetTimeFormatW`. -/
def timeFormatType (dwFlags : Flags) : Nat :=
  if dwFlags &&& timeNoSeconds ≠ 0 then localeSShortTime else localeSTimeFormat

/-- The picture of a call. -/
def pictureOf (locale formatType : Nat) (lpFormat : Option (List WCHAR)) : Option (List WCHAR) :=
  (lpFormat <|> ldkpGetLocaleString localeName locale formatType).map stringAt

-- `GetLocalTime`
variable (localTime : SystemTime)

/-- `GetDateFormatW`; the stack is what its array holds at first. -/
def getDateFormatW (stack : Vector WCHAR 160) (locale : Nat) (dwFlags : Flags)
    (lpDate : Option SystemTime) (lpFormat lpDateStr : Option (List WCHAR)) (cchDate : Int) :
    Except Fault Formatted :=
  if isValidLocale localeName locale = false then
    .ok ⟨0, lpDateStr, some errorInvalidParameter⟩
  else
    let date := lpDate.getD localTime
    let format := pictureOf localeName locale (dateFormatType dwFlags) lpFormat
    formatInto stack.toList (fun o => ldkpAppendDateFormat localeName o locale date) format
      lpDateStr cchDate

/-- `GetTimeFormatW`; the stack is what its array holds at first. -/
def getTimeFormatW (stack : Vector WCHAR 96) (locale : Nat) (dwFlags : Flags)
    (lpTime : Option SystemTime) (lpFormat lpTimeStr : Option (List WCHAR)) (cchTime : Int) :
    Except Fault Formatted :=
  if isValidLocale localeName locale = false then
    .ok ⟨0, lpTimeStr, some errorInvalidParameter⟩
  else
    let time := lpTime.getD localTime
    let format := pictureOf localeName locale (timeFormatType dwFlags) lpFormat
    formatInto stack.toList (fun o => ldkpAppendTimeFormat localeName o locale time dwFlags) format
      lpTimeStr cchTime

end Ldk.Nls
