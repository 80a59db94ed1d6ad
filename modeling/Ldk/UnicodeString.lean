import Mathlib

/-!
# Counted strings

`UNICODE_STRING` and its comparisons. A string whose characters are all that matters is the list
of them. The table behind `RtlUpcaseUnicodeChar` belongs to the kernel, so it is a parameter
where case matters.
-/

namespace Ldk

/-- `WCHAR` -/
abbrev WCHAR := UInt16

theorem length_nulls (n : Nat) : (List.replicate n (0 : WCHAR)).length = n :=
  List.length_replicate

/-- `UNICODE_STRING`, with its `Length` in bytes; `Buffer` may be `NULL`. -/
structure UnicodeString where
  length : Nat
  buffer : Option (List WCHAR)
  /-- `Length` is a `USHORT`. -/
  length_lt : length < 2 ^ 16
  /-- The buffer is as long as `Length` says. -/
  length_le : ∀ b ∈ buffer, length ≤ 2 * b.length
  deriving DecidableEq

/-- The characters of a string. -/
def UnicodeString.chars (s : UnicodeString) : List WCHAR :=
  (s.buffer.getD []).take (s.length / 2)

theorem UnicodeString.length_chars (s : UnicodeString) (h : s.length = 0 ∨ s.buffer.isSome) :
    s.chars.length = s.length / 2 := by
  unfold UnicodeString.chars
  rw [List.length_take]
  cases hbuffer : s.buffer with
  | none =>
    rw [hbuffer] at h
    have hzero := h.resolve_right nofun
    rw [hzero]
    rfl
  | some b =>
    have := s.length_le b hbuffer
    rw [Option.getD_some]
    omega

/-- A string of these characters. -/
def UnicodeString.ofChars (s : List WCHAR) (h : 2 * s.length < 2 ^ 16) : UnicodeString where
  length := 2 * s.length
  buffer := some s
  length_lt := h
  length_le b hb := by
    obtain rfl := Option.some.inj hb
    exact Nat.le_refl _

/-- `RtlUpcaseUnicodeChar` of a character of ASCII. -/
def upcaseAscii (c : WCHAR) : WCHAR := if 0x61 ≤ c ∧ c ≤ 0x7a then c - 0x20 else c

/-- `RtlEqualUnicodeString` -/
def rtlEqualUnicodeString (upcase : WCHAR → WCHAR) (s t : List WCHAR)
    (caseInSensitive : Bool) : Bool :=
  if caseInSensitive then s.map upcase == t.map upcase else s == t

/-- `RtlCompareUnicodeString`, without regard to case: the difference of the first characters
that differ, or else of the lengths. -/
def rtlCompareUnicodeString (upcase : WCHAR → WCHAR) : List WCHAR → List WCHAR → Int
  | [], t => -(2 * t.length)
  | s, [] => 2 * s.length
  | a :: s, b :: t =>
    if upcase a = upcase b then rtlCompareUnicodeString upcase s t
    else (upcase a).toNat - (upcase b).toNat

/-! ## The order of names -/

/-- What a comparison without regard to case looks at. -/
def foldCase (upcase : WCHAR → WCHAR) (s : List WCHAR) : List Nat :=
  s.map fun c => (upcase c).toNat

@[simp] theorem length_foldCase (upcase : WCHAR → WCHAR) (s : List WCHAR) :
    (foldCase upcase s).length = s.length := List.length_map _

theorem rtlEqualUnicodeString_iff (upcase : WCHAR → WCHAR) (s t : List WCHAR) :
    rtlEqualUnicodeString upcase s t true = true ↔ foldCase upcase s = foldCase upcase t := by
  have hfold : ∀ s, foldCase upcase s = (s.map upcase).map UInt16.toNat := by
    intro s
    simp [foldCase]
  unfold rtlEqualUnicodeString
  rw [if_pos rfl, beq_iff_eq, hfold, hfold]
  exact ((List.map_injective_iff.mpr fun _ _ => UInt16.toNat_inj.mp).eq_iff).symm

theorem rtlCompareUnicodeString_eq_zero (upcase : WCHAR → WCHAR) (s t : List WCHAR) :
    rtlCompareUnicodeString upcase s t = 0 ↔ foldCase upcase s = foldCase upcase t := by
  induction s generalizing t with
  | nil => cases t <;> simp [rtlCompareUnicodeString, foldCase]; omega
  | cons a s ih =>
    cases t with
    | nil => simp [rtlCompareUnicodeString, foldCase]; omega
    | cons b t =>
      unfold rtlCompareUnicodeString
      split
      · rename_i heq
        rw [ih]
        simp [foldCase, heq]
      · rename_i hne
        have hne' : (upcase a).toNat ≠ (upcase b).toNat := fun h => hne (UInt16.toNat_inj.mp h)
        simp only [foldCase, List.map_cons, List.cons.injEq, hne', false_and, iff_false]
        omega

/-- The comparison is the lexicographic one. -/
theorem rtlCompareUnicodeString_neg (upcase : WCHAR → WCHAR) (s t : List WCHAR) :
    rtlCompareUnicodeString upcase s t < 0 ↔ foldCase upcase s < foldCase upcase t := by
  induction s generalizing t with
  | nil =>
    cases t with
    | nil => simp [rtlCompareUnicodeString, foldCase]
    | cons b t =>
      apply iff_of_true
      · unfold rtlCompareUnicodeString
        rw [List.length_cons]
        omega
      · exact List.nil_lt_cons _ _
  | cons a s ih =>
    cases t with
    | nil =>
      apply iff_of_false
      · unfold rtlCompareUnicodeString
        omega
      · exact List.not_lt_nil _
    | cons b t =>
      unfold rtlCompareUnicodeString
      split
      · rename_i heq
        rw [ih]
        simp [foldCase, heq]
      · rename_i hne
        have hne' : (upcase a).toNat ≠ (upcase b).toNat := fun h => hne (UInt16.toNat_inj.mp h)
        simp only [foldCase, List.map_cons, List.cons_lt_cons_iff, hne', false_and, or_false]
        omega

end Ldk
