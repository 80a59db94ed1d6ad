import Mathlib
import Ldk.UnicodeString

/-!
# Kinds of DOS paths

The characters that matter in a path, and `RtlDetermineDosPathNameType_Ustr` with its sibling for
strings that end with a null. A string is the list of its characters; what is read behind the last
of them counts as the null that ends it.
-/

namespace Ldk.DosPath

/-! ## Characters -/

/-- `L'\\'` -/
def backslash : WCHAR := 0x5c

/-- `L'/'` -/
def slash : WCHAR := 0x2f

/-- `L'.'` -/
def dot : WCHAR := 0x2e

/-- `L':'` -/
def colon : WCHAR := 0x3a

/-- `L' '` -/
def space : WCHAR := 0x20

/-- `L'?'` -/
def questionMark : WCHAR := 0x3f

/-- `IS_PATH_SEPARATOR_U` -/
def isPathSeparator (ch : WCHAR) : Bool := ch == backslash || ch == slash

/-- `IS_DRIVE_LETTER` -/
def isDriveLetter (ch : WCHAR) : Bool := (0x61 ≤ ch && ch ≤ 0x7a) || (0x41 ≤ ch && ch ≤ 0x5a)

/-- The character at an index. -/
def charAt (s : List WCHAR) (i : Nat) : WCHAR := s[i]?.getD 0

theorem charAt_append_right (s t : List WCHAR) (i : Nat) :
    charAt (s ++ t) (s.length + i) = charAt t i := by
  unfold charAt
  rw [List.getElem?_append_right (Nat.le_add_right _ _), Nat.add_sub_cancel_left]

theorem charAt_append_left {s : List WCHAR} {i : Nat} (h : i < s.length) (t : List WCHAR) :
    charAt (s ++ t) i = charAt s i := by
  unfold charAt
  rw [List.getElem?_append_left h]

/-! ## Path types -/

/-- `RTL_PATH_TYPE` -/
inductive RtlPathType where
  | unknown
  | uncAbsolute
  | driveAbsolute
  | driveRelative
  | rooted
  | relative
  | localDevice
  | rootLocalDevice
  deriving DecidableEq, Repr

/-- `RtlDetermineDosPathNameType_Ustr` -/
def rtlDetermineDosPathNameTypeUstr (s : List WCHAR) : RtlPathType :=
  if 1 ≤ s.length ∧ isPathSeparator (charAt s 0) then
    if 2 ≤ s.length ∧ isPathSeparator (charAt s 1) then
      if 3 ≤ s.length ∧ (charAt s 2 = dot ∨ charAt s 2 = questionMark) then
        if 4 ≤ s.length ∧ isPathSeparator (charAt s 3) then .localDevice
        else if s.length = 3 then .rootLocalDevice
        else .uncAbsolute
      else .uncAbsolute
    else .rooted
  else if 2 ≤ s.length ∧ charAt s 0 ≠ 0 ∧ charAt s 1 = colon then
    if 3 ≤ s.length ∧ isPathSeparator (charAt s 2) then .driveAbsolute else .driveRelative
  else .relative

/-- `RtlDetermineDosPathNameType_U` -/
def rtlDetermineDosPathNameTypeU (s : List WCHAR) : RtlPathType :=
  if isPathSeparator (charAt s 0) then
    if isPathSeparator (charAt s 1) then
      if charAt s 2 = dot ∨ charAt s 2 = questionMark then
        if isPathSeparator (charAt s 3) then .localDevice
        else if charAt s 3 = 0 then .rootLocalDevice
        else .uncAbsolute
      else .uncAbsolute
    else .rooted
  else if charAt s 0 ≠ 0 ∧ charAt s 1 = colon then
    if isPathSeparator (charAt s 2) then .driveAbsolute else .driveRelative
  else .relative

end Ldk.DosPath
