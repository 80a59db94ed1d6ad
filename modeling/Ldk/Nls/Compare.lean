import Ldk.Environment.State
import Ldk.Lib.Lexicographic
import Ldk.Lib.Records

/-!
# Comparison and mapping of texts

`CompareStringEx` and `LCMapStringEx` of `winnls.c`, with the sort keys that it makes.

- The memory behind a string pointer is the list of its characters. A read outside it is a fault.
- A loop over the characters of a string is one over the list of those that are left.
- A destination is the list of its bytes.
- What the kernel and the tables of locales answer are parameters.
-/

namespace Ldk.Nls

open OutputBuffer

/-! ## Flags and errors -/

/-- A `DWORD` of flags. -/
abbrev Flags := BitVec 32

def normIgnoreCase : Flags := 0x00000001#32

def normIgnoreSymbols : Flags := 0x00000004#32

def linguisticIgnoreCase : Flags := 0x00000010#32

def normLinguisticCasing : Flags := 0x08000000#32

def sortStringSort : Flags := 0x00001000#32

def lcmapLowercase : Flags := 0x00000100#32

def lcmapUppercase : Flags := 0x00000200#32

def lcmapTitlecase : Flags := 0x00000300#32

def lcmapSortKey : Flags := 0x00000400#32

def lcmapByteRev : Flags := 0x00000800#32

def lcmapLinguisticCasing : Flags := 0x01000000#32

def errorInvalidParameter : Nat := 87

def errorInsufficientBuffer : Nat := 122

def errorInvalidFlags : Nat := 1004

/-- The conversion to `int`. -/
def toInt (n : Int) : Int := n.bmod (2 ^ 32)

theorem toInt_eq {n : Int} (hlow : 0 ≤ n) (hhigh : n < 2 ^ 31) : toInt n = n := by
  unfold toInt
  rw [Int.bmod_def]
  omega

/-! ## Locales -/

/-- What the kernel and the tables say of locales. -/
structure Locales where
  /-- `GetUserDefaultLCID` -/
  userDefaultLcid : Nat
  /-- `LdkpSystemLocale` -/
  ldkpSystemLocale : Nat
  /-- `LocaleNameToLCID` -/
  localeNameToLcid : List WCHAR → Nat
  /-- `IsValidLocale` with `LCID_SUPPORTED` -/
  isValidLocale : Nat → Bool

/-- `LOCALE_NAME_SYSTEM_DEFAULT` -/
def localeNameSystemDefault : List WCHAR := "!x-sys-default-locale".toList.map fun c =>
  UInt16.ofNat c.toNat

/-- `_wcsicmp`, as a test -/
def wcsicmpEqual (s t : List WCHAR) : Bool := s.map upcaseAscii == t.map upcaseAscii

variable (l : Locales)

/-- `LdkpResolveLocaleNameForNls`; without a locale, the last error is
`ERROR_INVALID_PARAMETER`. -/
def ldkpResolveLocaleNameForNls (localeName : Option (List WCHAR)) : Option Nat :=
  let locale :=
    match localeName with
    | none => l.userDefaultLcid
    | some name =>
      if wcsicmpEqual name localeNameSystemDefault then
        if l.ldkpSystemLocale ≠ 0 then l.ldkpSystemLocale else 0x0409
      else if name = [] then 0x0409
      else l.localeNameToLcid name
  if locale = 0 ∨ l.isValidLocale locale = false then none else some locale

/-! ## Lengths -/

/-- `wcslen` of the memory at a pointer. -/
def lengthOf (memory : List WCHAR) : Except Outside Nat :=
  if 0 ∈ memory then .ok (Environment.wcslen memory) else .error ⟨memory.length, 1⟩

/-- `LdkpGetNlsCompareLength` -/
def ldkpGetNlsCompareLength (string : Option (List WCHAR)) (cchString : Int) :
    Except Outside (Option Int) :=
  match string with
  | none => .ok none
  | some memory =>
    if cchString < -1 then .ok none
    else if cchString = -1 then (lengthOf memory).map fun n => some (toInt n)
    else .ok (some cchString)

/-- `LdkpGetNlsMapLength` -/
def ldkpGetNlsMapLength (string : Option (List WCHAR)) (cchString : Int) :
    Except Outside (Option Int) :=
  match string with
  | none => .ok none
  | some memory =>
    if cchString < -1 then .ok none
    else if cchString = -1 then (lengthOf memory).map fun n => some (toInt (toInt n + 1))
    else .ok (some cchString)

/-- The characters below a length; there are none below a length that is not positive. -/
def counted (memory : List WCHAR) (length : Int) : Except Outside (List WCHAR) :=
  slice memory 0 length.toNat

/-! ## Characters -/

/-- `LdkpDowncaseUnicodeCharForNls` -/
def ldkpDowncaseUnicodeCharForNls (ch : WCHAR) : WCHAR :=
  if 0x41 ≤ ch ∧ ch ≤ 0x5a then ch + 0x20
  else if 0x0410 ≤ ch ∧ ch ≤ 0x042f then ch + 0x20
  else if ch = 0x0401 then 0x0451
  else ch

-- `RtlUpcaseUnicodeChar`
variable (upcase : WCHAR → WCHAR)

/-- `LdkpFoldUnicodeCharForNls` -/
def ldkpFoldUnicodeCharForNls (ch : WCHAR) (flags : Flags) : WCHAR :=
  if flags &&& (normIgnoreCase ||| linguisticIgnoreCase ||| normLinguisticCasing) ≠ 0 then upcase ch
  else ch

/-- `LdkpIsIgnorableSymbolForNls` -/
def ldkpIsIgnorableSymbolForNls (ch : WCHAR) (flags : Flags) : Bool :=
  if flags &&& normIgnoreSymbols = 0 then false
  else if 0x7f < ch then false
  else if (0x30 ≤ ch ∧ ch ≤ 0x39) ∨ (0x41 ≤ ch ∧ ch ≤ 0x5a) ∨ (0x61 ≤ ch ∧ ch ≤ 0x7a) then false
  else decide (ch ≠ 0x20 ∧ ch ≠ 0x09 ∧ ch ≠ 0x0d ∧ ch ≠ 0x0a)

/-! ## Comparison -/

def cstrLessThan : Int := 1

def cstrEqual : Int := 2

def cstrGreaterThan : Int := 3

/-- `LdkpCompareResultFromDifference` -/
def ldkpCompareResultFromDifference (difference : Int) : Int :=
  if difference < 0 then cstrLessThan else if 0 < difference then cstrGreaterThan else cstrEqual

/-- `LdkpValidateCompareFlags` -/
def ldkpValidateCompareFlags (flags : Flags) : Bool :=
  flags &&& ~~~(normIgnoreCase ||| linguisticIgnoreCase ||| normLinguisticCasing |||
    normIgnoreSymbols ||| sortStringSort) = 0

/-- `Index < Length` in a difference -/
def hasRest (rest : List WCHAR) : Int := if rest.isEmpty then 0 else 1

theorem length_next {p : WCHAR → Bool} {string next : List WCHAR} {char : WCHAR}
    (h : string.dropWhile p = char :: next) : next.length < string.length := by
  have hle := (List.dropWhile_sublist p (l := string)).length_le
  rw [h, List.length_cons] at hle
  exact hle

/-- `LdkpCompareStringOrdinalWorker`, with the characters behind the two indices. -/
def ldkpCompareStringOrdinalWorker (string1 string2 : List WCHAR) (flags : Flags) : Int :=
  if string1 = [] ∧ string2 = [] then cstrEqual
  else
    match h1 : string1.dropWhile (ldkpIsIgnorableSymbolForNls · flags),
      h2 : string2.dropWhile (ldkpIsIgnorableSymbolForNls · flags) with
    | char1 :: next1, char2 :: next2 =>
      let ch1 := ldkpFoldUnicodeCharForNls upcase char1 flags
      let ch2 := ldkpFoldUnicodeCharForNls upcase char2 flags
      if ch1 ≠ ch2 then ldkpCompareResultFromDifference (if ch1 < ch2 then -1 else 1)
      else ldkpCompareStringOrdinalWorker next1 next2 flags
    | rest1, rest2 => ldkpCompareResultFromDifference (hasRest rest1 - hasRest rest2)
termination_by string1.length
decreasing_by exact length_next h1

/-- What a routine returns, leaves in the destination, and the last error. -/
structure Answer where
  result : Int
  destination : Option (List UInt8)
  lastError : Option Nat
  deriving DecidableEq, Repr

/-- A call that fails. -/
def failed (destination : Option (List UInt8)) (error : Nat) : Except Outside Answer :=
  .ok ⟨0, destination, some error⟩

/-- `CompareStringEx` -/
def compareStringEx (localeName : Option (List WCHAR)) (cmpFlags : Flags)
    (string1 : Option (List WCHAR)) (cchCount1 : Int) (string2 : Option (List WCHAR))
    (cchCount2 : Int) (reserved : Nat) (lParam : Int) : Except Outside Answer :=
  if reserved ≠ 0 ∨ lParam ≠ 0 then failed none errorInvalidParameter
  else if ldkpValidateCompareFlags cmpFlags = false then failed none errorInvalidFlags
  else if ldkpResolveLocaleNameForNls l localeName = none then failed none errorInvalidParameter
  else do
    match ← ldkpGetNlsCompareLength string1 cchCount1 with
    | none => failed none errorInvalidParameter
    | some length1 =>
      match ← ldkpGetNlsCompareLength string2 cchCount2 with
      | none => failed none errorInvalidParameter
      | some length2 =>
        let text1 ← counted (string1.getD []) length1
        let text2 ← counted (string2.getD []) length2
        return ⟨ldkpCompareStringOrdinalWorker upcase text1 text2 cmpFlags, none, none⟩

/-! ## Mapping -/

/-- `LdkpValidateMapFlags` -/
def ldkpValidateMapFlags (flags : Flags) : Bool :=
  if flags &&& lcmapSortKey ≠ 0 then
    flags &&& ~~~(lcmapSortKey ||| normIgnoreCase ||| linguisticIgnoreCase |||
      normLinguisticCasing ||| normIgnoreSymbols ||| sortStringSort) = 0
  else
    let caseFlags := flags &&& lcmapTitlecase
    if caseFlags ≠ 0 ∧ caseFlags ≠ lcmapLowercase ∧ caseFlags ≠ lcmapUppercase ∧
        caseFlags ≠ lcmapTitlecase then false
    else flags &&& ~~~(lcmapTitlecase ||| lcmapByteRev ||| lcmapLinguisticCasing) = 0

/-- `LdkpMapUnicodeCharForNls` -/
def ldkpMapUnicodeCharForNls (ch : WCHAR) (flags : Flags) (wordStart : Bool) : WCHAR :=
  let caseFlags := flags &&& lcmapTitlecase
  let ch :=
    if caseFlags = lcmapUppercase then upcase ch
    else if caseFlags = lcmapLowercase then ldkpDowncaseUnicodeCharForNls ch
    else if caseFlags = lcmapTitlecase then
      if wordStart then upcase ch else ldkpDowncaseUnicodeCharForNls ch
    else ch
  if flags &&& lcmapByteRev ≠ 0 then ((ch &&& 0x00ff) <<< 8) ||| ((ch &&& 0xff00) >>> 8) else ch

/-- The loop over the characters that are mapped. -/
def mapText (flags : Flags) : Bool → List WCHAR → List WCHAR
  | _, [] => []
  | wordStart, source :: rest =>
    ldkpMapUnicodeCharForNls upcase source flags wordStart ::
      mapText flags (source = 0x20 ∨ source = 0x09 ∨ source = 0x0d ∨ source = 0x0a ∨
        source = 0x2d ∨ source = 0x5f) rest

/-- The byte of a character in a sort key. -/
def sortKeyByte (ch : WCHAR) : UInt8 := if ch ≤ 0xff then ch.toUInt8 else 0x3f

/-- `LdkpMapSortKeyForNls` -/
def ldkpMapSortKeyForNls (source : List WCHAR) (flags : Flags) (destination : Option (List UInt8))
    (destinationLength : Int) : Except Outside Answer :=
  let required :=
    toInt (1 + source.countP fun ch => !ldkpIsIgnorableSymbolForNls ch flags)
  match destination with
  | none => .ok ⟨required, none, none⟩
  | some bytes =>
    if destinationLength = 0 then .ok ⟨required, destination, none⟩
    else if destinationLength < required then failed destination errorInsufficientBuffer
    else do
      let key := (source.filter fun ch => !ldkpIsIgnorableSymbolForNls ch flags).map fun ch =>
        sortKeyByte (ldkpFoldUnicodeCharForNls upcase ch flags)
      let bytes ← put bytes 0 (key ++ [0])
      return ⟨toInt (key ++ [0]).length, some bytes, none⟩

/-- The bytes of a text. -/
def textBytes (text : List WCHAR) : List UInt8 :=
  text.flatMap fun ch => Records.littleEndian 2 ch.toNat

/-- `LCMapStringEx` -/
def lcMapStringEx (localeName : Option (List WCHAR)) (mapFlags : Flags)
    (srcStr : Option (List WCHAR)) (cchSrc : Int) (destStr : Option (List UInt8)) (cchDest : Int)
    (reserved : Nat) (sortHandle : Int) : Except Outside Answer :=
  if reserved ≠ 0 ∨ sortHandle ≠ 0 ∨ cchDest < 0 ∨ (destStr = none ∧ cchDest ≠ 0) then
    failed destStr errorInvalidParameter
  else if ldkpValidateMapFlags mapFlags = false then failed destStr errorInvalidFlags
  else if ldkpResolveLocaleNameForNls l localeName = none then
    failed destStr errorInvalidParameter
  else do
    match ← ldkpGetNlsMapLength srcStr cchSrc with
    | none => failed destStr errorInvalidParameter
    | some sourceLength =>
      if mapFlags &&& lcmapSortKey ≠ 0 then
        let source ← counted (srcStr.getD [])
          (if cchSrc = -1 ∧ 0 < sourceLength then sourceLength - 1 else sourceLength)
        ldkpMapSortKeyForNls upcase source mapFlags destStr cchDest
      else if destStr = none ∨ cchDest = 0 then return ⟨sourceLength, destStr, none⟩
      else if cchDest < sourceLength then failed destStr errorInsufficientBuffer
      else
        let source ← counted (srcStr.getD []) sourceLength
        let bytes ← put (destStr.getD []) 0 (textBytes (mapText upcase mapFlags true source))
        return ⟨sourceLength, some bytes, none⟩

end Ldk.Nls
