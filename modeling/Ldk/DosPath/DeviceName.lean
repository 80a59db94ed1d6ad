import Ldk.DosPath.PathType

/-!
# DOS device names

`RtlIsDosDeviceName_Ustr` trims a path from its end, looks for the start of its last component,
and takes from there what comes before the first dot or colon. The grammar says the same of the
component alone (`device_name_grammar`).

- The loops over characters are operations on lists.
- `ColonBias` counts all characters that have been trimmed, not only the colon.
- `RtlUpcaseUnicodeChar` belongs to the kernel. The code looks at the first letter of a name with
  `| 0x20` before it compares without regard to case, so the two have to agree (`FoldsLetters`).
-/

namespace Ldk.DosPath

/-! ## RtlIsDosDeviceName_Ustr -/

/-- `RtlpDosLPTDevice` -/
def lptDevice : List WCHAR := [0x4c, 0x50, 0x54]

/-- `RtlpDosCOMDevice` -/
def comDevice : List WCHAR := [0x43, 0x4f, 0x4d]

/-- `RtlpDosPRNDevice` -/
def prnDevice : List WCHAR := [0x50, 0x52, 0x4e]

/-- `RtlpDosAUXDevice` -/
def auxDevice : List WCHAR := [0x41, 0x55, 0x58]

/-- `RtlpDosNULDevice` -/
def nulDevice : List WCHAR := [0x4e, 0x55, 0x4c]

/-- `RtlpDosCONDevice` -/
def conDevice : List WCHAR := [0x43, 0x4f, 0x4e]

/-- `RtlpDosSlashCONDevice` -/
def slashCONDevice : List WCHAR :=
  [backslash, backslash, dot, backslash] ++ conDevice

/-- `iswdigit` -/
def iswdigit (ch : WCHAR) : Bool := 0x30 ≤ ch && ch ≤ 0x39

/-- The test of a first letter: `l`, `c`, `p`, `a` or `n`. -/
def isDeviceInitial (ch : WCHAR) : Bool :=
  let wch := ch ||| 0x20
  wch == 0x6c || wch == 0x63 || wch == 0x70 || wch == 0x61 || wch == 0x6e

/-- The difference of two values of type `USHORT`. -/
def subUShort (a b : Nat) : Nat := (a + 2 ^ 16 - b) % 2 ^ 16

def isDotOrSpace (ch : WCHAR) : Bool := ch == dot || ch == space

/-- `NumberOfCharacters`, and `ColonBias`, before the trailing dots and spaces are trimmed. -/
def withoutColon (s : List WCHAR) : Nat × Nat :=
  if s.getLast? = some colon then (s.length - 1, 1) else (s.length, 0)

/-- The scan for a separator, or the colon of a drive, below an index: what comes behind it. -/
def findComponent (s : List WCHAR) : Nat → Option Nat
  | 0 => none
  | p + 1 =>
    if charAt s p = backslash ∨ charAt s p = slash ∨ (charAt s p = colon ∧ p = 1) then some (p + 1)
    else findComponent s p

/-- Where the last component starts, and its `NumberOfCharacters`; none when the code returns. -/
def selectComponent (s : List WCHAR) (numberOfCharacters colonBias : Nat) : Option (Nat × Nat) :=
  if numberOfCharacters = 0 then some (0, 0)
  else
    match findComponent s numberOfCharacters with
    | some p =>
      if s.length ≤ p then none
      else if isDeviceInitial (charAt s p) then
        some (p, subUShort (subUShort (2 * s.length) (2 * p) / 2) colonBias)
      else none
    | none => if isDeviceInitial (charAt s 0) then some (0, numberOfCharacters) else none

/-- A component up to its first dot or colon, without the spaces before that. -/
def stemOf (component : List WCHAR) : List WCHAR :=
  (component.takeWhile fun ch => ch ≠ dot ∧ ch ≠ colon).rdropWhile (· == space)

variable (upcase : WCHAR → WCHAR)

/-- `ReturnLength` for a name, or zero. -/
def deviceLength (name : List WCHAR) : Nat :=
  if name.length = 4 ∧ iswdigit (charAt name 3) then
    if charAt name 3 = 0x30 then 0
    else if rtlEqualUnicodeString upcase (name.take 3) lptDevice true ||
        rtlEqualUnicodeString upcase (name.take 3) comDevice true then 8
    else 0
  else if name.length ≠ 3 then 0
  else if rtlEqualUnicodeString upcase name prnDevice true then 6
  else if rtlEqualUnicodeString upcase name auxDevice true then 6
  else if rtlEqualUnicodeString upcase name nulDevice true then 6
  else if rtlEqualUnicodeString upcase name conDevice true then 6
  else 0

/-- The part of `RtlIsDosDeviceName_Ustr` behind its switch. -/
def deviceOfComponent (s : List WCHAR) : Nat :=
  let (numberOfCharacters, colonBias) := withoutColon s
  if numberOfCharacters = 0 then 0
  else
    let trimmed := ((s.take numberOfCharacters).rdropWhile isDotOrSpace).length
    match selectComponent s trimmed (colonBias + (numberOfCharacters - trimmed)) with
    | none => 0
    | some (p, n) =>
      let returnLength := deviceLength upcase (stemOf ((s.drop p).take n))
      if returnLength = 0 then 0 else returnLength ||| ((2 * p) <<< 16)

/-- `RtlIsDosDeviceName_Ustr` -/
def rtlIsDosDeviceNameUstr (s : List WCHAR) : Nat :=
  match rtlDetermineDosPathNameTypeUstr s with
  | .localDevice => if rtlEqualUnicodeString upcase s slashCONDevice true then 0x00080006 else 0
  | .uncAbsolute | .unknown => 0
  | _ => deviceOfComponent upcase s

/-! ## The grammar -/

/-- The last component of a path: it comes behind the last separator, or the colon in second
place. -/
structure LastComponent (s dir comp : List WCHAR) : Prop where
  eq : s = dir ++ comp
  start : dir = [] ∨ (∃ front ch, dir = front ++ [ch] ∧ isPathSeparator ch = true) ∨
    ∃ ch, dir = [ch, colon]
  noSeparator : ∀ ch ∈ comp, isPathSeparator ch = false
  drive : s[1]? = some colon → 2 ≤ dir.length

/-- PRN, AUX, NUL, CON, or LPT or COM with a digit other than 0. -/
inductive IsDevice (name : List WCHAR) : Prop where
  | plain (device : List WCHAR) (hmem : device ∈ [prnDevice, auxDevice, nulDevice, conDevice])
    (hname : rtlEqualUnicodeString upcase name device true = true)
  | numbered (front device : List WCHAR) (digit : WCHAR)
    (hmem : device ∈ [lptDevice, comDevice]) (hname : name = front ++ [digit])
    (hfront : rtlEqualUnicodeString upcase front device true = true)
    (hdigit : iswdigit digit = true ∧ digit ≠ 0x30)

/-- A component without one trailing colon, and then without trailing dots and spaces. -/
def trimComponent (comp : List WCHAR) : List WCHAR :=
  (if comp.getLast? = some colon then comp.dropLast else comp).rdropWhile isDotOrSpace

/-- The device name at an offset of a path, with its length. -/
inductive DeviceAt (s : List WCHAR) (offset length : Nat) : Prop where
  | slashCON (htype : rtlDetermineDosPathNameTypeUstr s = .localDevice)
    (hname : rtlEqualUnicodeString upcase s slashCONDevice true = true)
    (hoffset : offset = 4) (hlength : length = 3)
  | component (dir comp : List WCHAR) (hlast : LastComponent s dir comp)
    (htype : rtlDetermineDosPathNameTypeUstr s ≠ .localDevice ∧
      rtlDetermineDosPathNameTypeUstr s ≠ .uncAbsolute)
    (hname : IsDevice upcase (stemOf (trimComponent comp)))
    (hoffset : offset = dir.length) (hlength : length = (stemOf (trimComponent comp)).length)

/-- A character that is equal to a letter without regard to case differs from it in the case bit
at most. -/
def FoldsLetters : Prop :=
  ∀ ch letter : WCHAR, 0x41 ≤ letter → letter ≤ 0x5a → upcase ch = upcase letter →
    ch ||| 0x20 = letter ||| 0x20

/-! ## Device names -/

variable {upcase} {s dir comp name : List WCHAR}

theorem length_eq_of_equal {s t : List WCHAR} (h : rtlEqualUnicodeString upcase s t true = true) :
    s.length = t.length := by
  rw [rtlEqualUnicodeString_iff] at h
  rw [← length_foldCase upcase s, h, length_foldCase]

/-- `ReturnLength` is the length of a device name, in bytes. -/
theorem deviceLength_of_isDevice (h : IsDevice upcase name) :
    deviceLength upcase name = 2 * name.length := by
  cases h with
  | plain device hmem hname =>
    have hthree : name.length = 3 := by
      rw [length_eq_of_equal hname]
      simp only [List.mem_cons, List.not_mem_nil, or_false] at hmem
      rcases hmem with rfl | rfl | rfl | rfl <;> rfl
    unfold deviceLength
    rw [if_neg (fun hfour => by omega), if_neg (fun hne => hne hthree), hthree]
    simp only [List.mem_cons, List.not_mem_nil, or_false] at hmem
    rcases hmem with rfl | rfl | rfl | rfl
    all_goals
      rw [hname]
      simp
  | numbered front device digit hmem hname hfront hdigit =>
    have hthree : front.length = 3 := by
      rw [length_eq_of_equal hfront]
      simp only [List.mem_cons, List.not_mem_nil, or_false] at hmem
      rcases hmem with rfl | rfl <;> rfl
    have hlast : charAt name 3 = digit := by
      rw [hname, ← hthree]
      exact charAt_append_right front [digit] 0
    have htake : name.take 3 = front := by
      rw [hname, ← hthree, List.take_left]
    have hfour : name.length = 4 := by
      rw [hname, List.length_append, hthree]
      rfl
    unfold deviceLength
    rw [hlast, htake, if_pos ⟨hfour, hdigit.1⟩, if_neg hdigit.2, hfour, if_pos]
    simp only [List.mem_cons, List.not_mem_nil, or_false] at hmem
    rcases hmem with rfl | rfl
    · rw [hfront, Bool.true_or]
    · rw [hfront, Bool.or_true]

theorem isDevice_of_deviceLength (h : deviceLength upcase name ≠ 0) : IsDevice upcase name := by
  unfold deviceLength at h
  split at h
  · rename_i hfour
    split at h
    · exact absurd rfl h
    · rename_i hzero
      split at h
      · rename_i hfront
        have hsplit : name = name.take 3 ++ [charAt name 3] := by
          obtain ⟨a, b, c, d, rfl⟩ : ∃ a b c d, name = [a, b, c, d] := by
            match name, hfour.1 with
            | [a, b, c, d], _ => exact ⟨a, b, c, d, rfl⟩
          rfl
        rcases (Bool.or_eq_true _ _).mp hfront with hlpt | hcom
        · exact .numbered (name.take 3) lptDevice _ (by simp) hsplit hlpt ⟨hfour.2, hzero⟩
        · exact .numbered (name.take 3) comDevice _ (by simp) hsplit hcom ⟨hfour.2, hzero⟩
      · exact absurd rfl h
  · split at h
    · exact absurd rfl h
    · split at h
      · rename_i hname
        exact .plain prnDevice (by simp) hname
      split at h
      · rename_i hname
        exact .plain auxDevice (by simp) hname
      split at h
      · rename_i hname
        exact .plain nulDevice (by simp) hname
      split at h
      · rename_i hname
        exact .plain conDevice (by simp) hname
      · exact absurd rfl h

/-- The names begin with one of the letters that the code looks for. -/
theorem isDeviceInitial_of_equal (hupcase : FoldsLetters upcase) {device : List WCHAR}
    (hmem : device ∈ [prnDevice, auxDevice, nulDevice, conDevice, lptDevice, comDevice])
    (hname : rtlEqualUnicodeString upcase name device true = true) :
    isDeviceInitial (charAt name 0) = true := by
  have hletter : ∃ letter rest, device = letter :: rest ∧ 0x41 ≤ letter ∧ letter ≤ 0x5a ∧
      isDeviceInitial letter = true := by
    simp only [List.mem_cons, List.not_mem_nil, or_false] at hmem
    rcases hmem with rfl | rfl | rfl | rfl | rfl | rfl
    all_goals exact ⟨_, _, rfl, by decide, by decide, by decide⟩
  obtain ⟨letter, rest, rfl, hlow, hhigh, hinitial⟩ := hletter
  rw [rtlEqualUnicodeString_iff] at hname
  cases name with
  | nil => exact absurd hname nofun
  | cons ch name =>
    obtain ⟨hhead, -⟩ := List.cons.inj hname
    have hsame := hupcase ch letter hlow hhigh (UInt16.toNat_inj.mp hhead)
    unfold isDeviceInitial at hinitial ⊢
    rw [← hsame] at hinitial
    exact hinitial

theorem isDeviceInitial_of_isDevice (hupcase : FoldsLetters upcase) (h : IsDevice upcase name) :
    isDeviceInitial (charAt name 0) = true := by
  cases h with
  | plain device hmem hname =>
    apply isDeviceInitial_of_equal hupcase _ hname
    simp only [List.mem_cons, List.not_mem_nil, or_false] at hmem ⊢
    tauto
  | numbered front device digit hmem hname hfront hdigit =>
    have hhead : charAt name 0 = charAt front 0 := by
      rw [hname]
      apply charAt_append_left
      rw [length_eq_of_equal hfront]
      simp only [List.mem_cons, List.not_mem_nil, or_false] at hmem
      rcases hmem with rfl | rfl <;> decide
    rw [hhead]
    apply isDeviceInitial_of_equal hupcase _ hfront
    simp only [List.mem_cons, List.not_mem_nil, or_false] at hmem ⊢
    tauto

/-! ## The scans -/

theorem subUShort_eq {a b : Nat} (hle : b ≤ a) (hlt : a < 2 ^ 16) : subUShort a b = a - b := by
  unfold subUShort
  omega

/-- What ends the scan for the start of a component. -/
def EndsScan (s : List WCHAR) (p : Nat) : Prop :=
  charAt s p = backslash ∨ charAt s p = slash ∨ (charAt s p = colon ∧ p = 1)

theorem findComponent_of_none {n : Nat} (h : ∀ p < n, ¬ EndsScan s p) :
    findComponent s n = none := by
  induction n with
  | zero => rfl
  | succ p ih =>
    unfold findComponent
    have hstep := ih fun q hq => h q (Nat.lt_succ_of_lt hq)
    exact (if_neg (h p (Nat.lt_succ_self p))).trans hstep

theorem findComponent_of_ends {n p : Nat} (hp : p < n) (hends : EndsScan s p)
    (h : ∀ q, p < q → q < n → ¬ EndsScan s q) : findComponent s n = some (p + 1) := by
  induction n with
  | zero => exact absurd hp (Nat.not_lt_zero p)
  | succ n ih =>
    unfold findComponent
    rcases Nat.lt_or_eq_of_le (Nat.le_of_lt_succ hp) with hlt | rfl
    · have hstep := ih hlt fun q hpq hq => h q hpq (Nat.lt_succ_of_lt hq)
      exact (if_neg (h n hlt (Nat.lt_succ_self n))).trans hstep
    · exact if_pos hends

theorem findComponent_le {n p : Nat} (h : findComponent s n = some p) : p ≤ n := by
  induction n with
  | zero => cases h
  | succ n ih =>
    unfold findComponent at h
    split at h
    · exact Nat.le_of_eq (Option.some.inj h).symm
    · exact Nat.le_succ_of_le (ih h)

/-- A separator ends the scan, and so does the colon in second place. -/
theorem endsScan_iff {p : Nat} :
    EndsScan s p ↔ isPathSeparator (charAt s p) = true ∨ (charAt s p = colon ∧ p = 1) := by
  unfold EndsScan isPathSeparator
  rw [Bool.or_eq_true, beq_iff_eq, beq_iff_eq, or_assoc]

/-- Within the last component nothing ends the scan. -/
theorem LastComponent.not_endsScan (h : LastComponent s dir comp) {p : Nat} (hp : dir.length ≤ p)
    (hlt : p < s.length) : ¬ EndsScan s p := by
  rw [endsScan_iff]
  obtain ⟨k, rfl⟩ := Nat.exists_eq_add_of_le hp
  rintro (hseparator | ⟨hcolon, hone⟩)
  · rw [h.eq, charAt_append_right] at hseparator
    have hk : k < comp.length := by
      rw [h.eq, List.length_append] at hlt
      omega
    have hmem : charAt comp k ∈ comp := by
      unfold charAt
      rw [List.getElem?_eq_getElem hk]
      exact List.getElem_mem hk
    rw [h.noSeparator _ hmem] at hseparator
    cases hseparator
  · have hsecond : s[1]? = some colon := by
      rw [hone] at hcolon hlt
      unfold charAt at hcolon
      rw [List.getElem?_eq_getElem hlt] at hcolon ⊢
      exact congrArg some hcolon
    have := h.drive hsecond
    omega

/-- The character before the last component ends the scan. -/
theorem LastComponent.endsScan (h : LastComponent s dir comp) (hne : dir ≠ []) :
    EndsScan s (dir.length - 1) := by
  rw [endsScan_iff]
  rcases h.start with hnil | ⟨front, ch, rfl, hch⟩ | ⟨ch, rfl⟩
  · exact absurd hnil hne
  · left
    have hlast : charAt s front.length = ch := by
      rw [h.eq, List.append_assoc]
      exact charAt_append_right front _ 0
    rw [List.length_append, List.length_singleton, Nat.add_sub_cancel, hlast]
    exact hch
  · right
    rw [h.eq]
    exact ⟨rfl, rfl⟩

theorem rdropWhile_append_of_nil {p : WCHAR → Bool} {b : List WCHAR} (a : List WCHAR)
    (hb : b.rdropWhile p = []) : (a ++ b).rdropWhile p = a.rdropWhile p := by
  unfold List.rdropWhile at hb ⊢
  have hnil := List.reverse_eq_nil_iff.mp hb
  rw [List.reverse_append, List.dropWhile_append, hnil]
  rfl

theorem rdropWhile_append_of_ne_nil {p : WCHAR → Bool} {b : List WCHAR} (a : List WCHAR)
    (hb : b.rdropWhile p ≠ []) : (a ++ b).rdropWhile p = a ++ b.rdropWhile p := by
  unfold List.rdropWhile at hb ⊢
  have hne : (b.reverse.dropWhile p).isEmpty = false := by
    rw [List.isEmpty_eq_false_iff]
    exact fun hnil => hb (List.reverse_eq_nil_iff.mpr hnil)
  rw [List.reverse_append, List.dropWhile_append, hne, if_neg Bool.false_ne_true,
    List.reverse_append, List.reverse_reverse]

/-! ## The last component -/

/-- What is left of a path after its colon and its trailing dots and spaces. -/
def trimPath (s : List WCHAR) : List WCHAR := (s.take (withoutColon s).1).rdropWhile isDotOrSpace

theorem take_withoutColon (s : List WCHAR) :
    s.take (withoutColon s).1 = if s.getLast? = some colon then s.dropLast else s := by
  unfold withoutColon
  split
  · rw [List.dropLast_eq_take]
  · exact List.take_length

theorem trimPath_eq (s : List WCHAR) : trimPath s = trimComponent s := by
  unfold trimPath trimComponent
  rw [take_withoutColon]

/-- Trimming a path trims its last component, if anything is left of that. -/
theorem trimComponent_append (hcomp : trimComponent comp ≠ []) :
    trimComponent (dir ++ comp) = dir ++ trimComponent comp := by
  have hne : comp ≠ [] := by
    rintro rfl
    exact hcomp rfl
  unfold trimComponent at hcomp ⊢
  rw [List.getLast?_append_of_ne_nil _ hne]
  split
  · rename_i hcolon
    rw [if_pos hcolon] at hcomp
    rw [List.dropLast_append_of_ne_nil hne, rdropWhile_append_of_ne_nil _ hcomp]
  · rename_i hcolon
    rw [if_neg hcolon] at hcomp
    rw [rdropWhile_append_of_ne_nil _ hcomp]

/-- When nothing is left of the component, the path ends before it. -/
theorem length_trimComponent_le (hcomp : trimComponent comp = []) :
    (trimComponent (dir ++ comp)).length ≤ dir.length := by
  cases hsplit : comp with
  | nil =>
    rw [List.append_nil]
    unfold trimComponent
    apply Nat.le_trans (List.rdropWhile_prefix _ _).length_le
    split
    · rw [List.length_dropLast]
      exact Nat.sub_le _ _
    · exact Nat.le_refl _
  | cons ch rest =>
    have hne : comp ≠ [] := by
      rw [hsplit]
      exact List.cons_ne_nil ch rest
    rw [← hsplit]
    unfold trimComponent at hcomp ⊢
    rw [List.getLast?_append_of_ne_nil _ hne]
    have hdir : (dir.rdropWhile isDotOrSpace).length ≤ dir.length :=
      (List.rdropWhile_prefix _ _).length_le
    split
    · rename_i hcolon
      rw [if_pos hcolon] at hcomp
      rw [List.dropLast_append_of_ne_nil hne, rdropWhile_append_of_nil _ hcomp]
      exact hdir
    · rename_i hcolon
      rw [if_neg hcolon] at hcomp
      rw [rdropWhile_append_of_nil _ hcomp]
      exact hdir

theorem trimComponent_isPrefix (comp : List WCHAR) : trimComponent comp <+: comp := by
  unfold trimComponent
  apply (List.rdropWhile_prefix _ _).trans
  split
  · exact List.dropLast_prefix comp
  · exact List.prefix_refl comp

theorem stemOf_isPrefix (comp : List WCHAR) : stemOf comp <+: comp :=
  (List.rdropWhile_prefix _ _).trans (List.takeWhile_prefix _)

/-- A separator is not trimmed. -/
theorem length_le_trimComponent {front : List WCHAR} {ch : WCHAR}
    (hch : isPathSeparator ch = true) (comp : List WCHAR) :
    (front ++ [ch]).length ≤ (trimComponent (front ++ [ch] ++ comp)).length := by
  have hstop : isDotOrSpace ch = false ∧ ch ≠ colon := by
    unfold isPathSeparator at hch
    rcases (Bool.or_eq_true _ _).mp hch with h | h
    · rw [beq_iff_eq.mp h]
      decide
    · rw [beq_iff_eq.mp h]
      decide
  obtain ⟨rest, hrest⟩ : ∃ rest,
      (if (front ++ [ch] ++ comp).getLast? = some colon then (front ++ [ch] ++ comp).dropLast
        else front ++ [ch] ++ comp) = front ++ [ch] ++ rest := by
    split
    · rename_i hcolon
      cases comp with
      | nil =>
        rw [List.append_nil, List.getLast?_append] at hcolon
        exact absurd (Option.some.inj hcolon) hstop.2
      | cons c comp => exact ⟨_, List.dropLast_append_of_ne_nil (List.cons_ne_nil c comp)⟩
    · exact ⟨comp, rfl⟩
  unfold trimComponent
  rw [hrest]
  cases hnil : rest.rdropWhile isDotOrSpace with
  | nil =>
    rw [rdropWhile_append_of_nil _ hnil, List.rdropWhile_concat_neg]
    rw [hstop.1]
    exact Bool.false_ne_true
  | cons c cs =>
    rw [rdropWhile_append_of_ne_nil _ (hnil ▸ List.cons_ne_nil c cs)]
    exact (List.prefix_append _ _).length_le

/-- The names have three or four characters. -/
theorem deviceLength_of_short (h : name.length < 3) : deviceLength upcase name = 0 := by
  unfold deviceLength
  rw [if_neg (fun hfour => by omega), if_pos (by omega)]

/-- The whole of the trimming, with its count. -/
theorem deviceOfComponent_eq (s : List WCHAR) :
    deviceOfComponent upcase s =
      match selectComponent s (trimComponent s).length (s.length - (trimComponent s).length) with
      | none => 0
      | some (p, n) =>
        if deviceLength upcase (stemOf ((s.drop p).take n)) = 0 then 0
        else deviceLength upcase (stemOf ((s.drop p).take n)) ||| ((2 * p) <<< 16) := by
  have hle : (trimComponent s).length ≤ (withoutColon s).1 := by
    rw [← trimPath_eq]
    apply Nat.le_trans (List.rdropWhile_prefix _ _).length_le
    rw [List.length_take]
    exact Nat.min_le_left _ _
  have hbias : (withoutColon s).2 + ((withoutColon s).1 - (trimComponent s).length) =
      s.length - (trimComponent s).length := by
    unfold withoutColon at hle ⊢
    split
    · rename_i hcolon
      have hpos : 0 < s.length := List.length_pos_of_mem (List.mem_of_getLast? hcolon)
      rw [if_pos hcolon] at hle
      dsimp only at hle ⊢
      omega
    · dsimp only
      omega
  have htrim : ((s.take (withoutColon s).1).rdropWhile isDotOrSpace).length =
      (trimComponent s).length := congrArg List.length (trimPath_eq s)
  unfold deviceOfComponent
  dsimp only
  split
  · rename_i hzero
    have hnone : (trimComponent s).length = 0 := by omega
    rw [hnone]
    rfl
  · rw [htrim, hbias]

/-- The number of characters that are left, behind the start of the component. -/
theorem selectComponent_of_some {m p : Nat} (hlen : 2 * s.length < 2 ^ 16) (hm : m ≤ s.length)
    (hpos : m ≠ 0) (hfind : findComponent s m = some p) :
    selectComponent s m (s.length - m) =
      if s.length ≤ p then none
      else if isDeviceInitial (charAt s p) = true then some (p, m - p) else none := by
  have hp := findComponent_le hfind
  unfold selectComponent
  rw [if_neg hpos, hfind]
  dsimp only
  rw [subUShort_eq (by omega) hlen, subUShort_eq (by omega) (by omega)]
  have hcount : (2 * s.length - 2 * p) / 2 - (s.length - m) = m - p := by omega
  rw [hcount]

/-- When nothing is left of the component, no name is long enough. -/
theorem LastComponent.no_device (h : LastComponent s dir comp) (hlen : 2 * s.length < 2 ^ 16)
    (hcomp : trimComponent comp = []) : deviceOfComponent upcase s = 0 := by
  have hm : (trimComponent s).length ≤ s.length := (trimComponent_isPrefix s).length_le
  have hdir : (trimComponent s).length ≤ dir.length := by
    rw [h.eq]
    exact length_trimComponent_le hcomp
  have hshort : ∀ p n, n ≤ 2 →
      deviceLength upcase (stemOf ((s.drop p).take n)) = 0 := by
    intro p n hn
    apply deviceLength_of_short
    have hstem := (stemOf_isPrefix ((s.drop p).take n)).length_le
    rw [List.length_take] at hstem
    omega
  have hnone : (trimComponent s).length = 0 → deviceOfComponent upcase s = 0 := by
    intro hzero
    rw [deviceOfComponent_eq, hzero]
    unfold selectComponent
    rw [if_pos rfl]
    exact if_pos (hshort 0 0 (Nat.zero_le 2))
  by_cases hzero : (trimComponent s).length = 0
  · exact hnone hzero
  have hne : dir ≠ [] := by
    rintro rfl
    exact hzero (Nat.le_zero.mp hdir)
  -- behind the start of the component there are two characters at most
  obtain ⟨p, ⟨hfind, hcount⟩ | ⟨hfind, hcount⟩⟩ : ∃ p,
      (findComponent s (trimComponent s).length = some p ∧ (trimComponent s).length - p ≤ 2) ∨
        (findComponent s (trimComponent s).length = none ∧ (trimComponent s).length ≤ 2) := by
    rcases h.start with hnil | ⟨front, ch, hfront, hch⟩ | ⟨ch, hdrive⟩
    · exact absurd hnil hne
    · have hge : dir.length ≤ (trimComponent s).length := by
        rw [h.eq, hfront]
        exact length_le_trimComponent hch comp
      have heq := Nat.le_antisymm hdir hge
      have hpos := List.length_pos_of_ne_nil hne
      refine ⟨dir.length, .inl ⟨?_, by omega⟩⟩
      have hfind := findComponent_of_ends (n := (trimComponent s).length)
        (p := dir.length - 1) (by omega) (h.endsScan hne) (fun q hq hlt => absurd hq (by omega))
      rw [hfind]
      exact congrArg some (by omega)
    · have htwo : dir.length = 2 := congrArg List.length hdrive
      cases hfind : findComponent s (trimComponent s).length with
      | none => exact ⟨0, .inr ⟨rfl, by omega⟩⟩
      | some p => exact ⟨p, .inl ⟨rfl, by omega⟩⟩
  · rw [deviceOfComponent_eq, selectComponent_of_some hlen hm hzero hfind]
    split
    · rfl
    · rename_i hselect
      split at hselect
      · cases hselect
      · split at hselect
        · obtain ⟨rfl, rfl⟩ := Prod.mk.inj (Option.some.inj hselect)
          exact if_pos (hshort _ _ hcount)
        · cases hselect
  · rw [deviceOfComponent_eq]
    unfold selectComponent
    rw [if_neg hzero, hfind]
    dsimp only
    split
    · rfl
    · rename_i hselect
      split at hselect
      · obtain ⟨rfl, rfl⟩ := Prod.mk.inj (Option.some.inj hselect)
        exact if_pos (hshort _ _ hcount)
      · cases hselect

/-- When something is left of the component, its stem is looked at. -/
theorem LastComponent.device (hupcase : FoldsLetters upcase) (h : LastComponent s dir comp)
    (hlen : 2 * s.length < 2 ^ 16) (hcomp : trimComponent comp ≠ []) :
    deviceOfComponent upcase s =
      if deviceLength upcase (stemOf (trimComponent comp)) = 0 then 0
      else deviceLength upcase (stemOf (trimComponent comp)) ||| ((2 * dir.length) <<< 16) := by
  have htrim : trimComponent s = dir ++ trimComponent comp := by
    rw [h.eq]
    exact trimComponent_append hcomp
  have hpos := List.length_pos_of_ne_nil hcomp
  have hm : (trimComponent s).length ≤ s.length := (trimComponent_isPrefix s).length_le
  have hcount : (trimComponent s).length = dir.length + (trimComponent comp).length := by
    rw [htrim, List.length_append]
  have hdrop : (s.drop dir.length).take (trimComponent comp).length = trimComponent comp := by
    rw [h.eq, List.drop_left]
    exact (List.prefix_iff_eq_take.mp (trimComponent_isPrefix comp)).symm
  have hfirst : charAt s dir.length = charAt (trimComponent comp) 0 := by
    obtain ⟨rest, hrest⟩ := trimComponent_isPrefix comp
    have hsame : charAt comp 0 = charAt (trimComponent comp) 0 := by
      conv_lhs => rw [← hrest]
      exact charAt_append_left hpos rest
    rw [h.eq, ← hsame]
    exact charAt_append_right dir comp 0
  -- a device name begins with a letter that the code looks for
  have hinitial : isDeviceInitial (charAt s dir.length) = false →
      deviceLength upcase (stemOf (trimComponent comp)) = 0 := by
    intro hfalse
    by_contra hne
    have hdevice := isDevice_of_deviceLength hne
    have hstem : 0 < (stemOf (trimComponent comp)).length := by
      by_contra hnil
      exact hne (deviceLength_of_short (by omega))
    obtain ⟨rest, hrest⟩ := stemOf_isPrefix (trimComponent comp)
    have hletter := isDeviceInitial_of_isDevice hupcase hdevice
    rw [← charAt_append_left hstem rest, hrest, ← hfirst, hfalse] at hletter
    cases hletter
  have hselect : selectComponent s (trimComponent s).length
      (s.length - (trimComponent s).length) =
        if isDeviceInitial (charAt s dir.length) = true then
          some (dir.length, (trimComponent comp).length)
        else none := by
    have hscan : ∀ q, dir.length ≤ q → q < (trimComponent s).length → ¬ EndsScan s q :=
      fun q hq hlt => h.not_endsScan hq (Nat.lt_of_lt_of_le hlt hm)
    by_cases hdir : dir = []
    · subst hdir
      unfold selectComponent
      rw [if_neg (by omega), findComponent_of_none fun q hq => hscan q (Nat.zero_le q) hq]
      have hzero : (trimComponent s).length = (trimComponent comp).length := by
        rw [hcount, List.length_nil, Nat.zero_add]
      rw [hzero]
      rfl
    · have hdirPos := List.length_pos_of_ne_nil hdir
      have hfind : findComponent s (trimComponent s).length = some (dir.length - 1 + 1) :=
        findComponent_of_ends (by omega) (h.endsScan hdir)
          fun q hq hlt => hscan q (by omega) hlt
      rw [Nat.sub_add_cancel hdirPos] at hfind
      rw [selectComponent_of_some hlen hm (by omega) hfind, if_neg (by omega), hcount,
        Nat.add_sub_cancel_left]
  rw [deviceOfComponent_eq, hselect]
  cases hfalse : isDeviceInitial (charAt s dir.length) with
  | true =>
    rw [if_pos rfl]
    dsimp only
    rw [hdrop]
  | false =>
    rw [if_neg Bool.false_ne_true]
    dsimp only
    rw [if_pos (hinitial hfalse)]

/-- The length is in the lower half of the result, and the offset in the upper. -/
theorem packed_eq {length offset : Nat} (h : length < 2 ^ 16) :
    length ||| (offset <<< 16) = 2 ^ 16 * offset + length := by
  rw [Nat.shiftLeft_eq, Nat.mul_comm offset, Nat.or_comm, Nat.two_pow_add_eq_or_of_lt h]

theorem LastComponent.device_iff (hupcase : FoldsLetters upcase) (h : LastComponent s dir comp)
    (hlen : 2 * s.length < 2 ^ 16) :
    (IsDevice upcase (stemOf (trimComponent comp)) ∧ deviceOfComponent upcase s =
        2 ^ 16 * (2 * dir.length) + 2 * (stemOf (trimComponent comp)).length) ∨
      (¬ IsDevice upcase (stemOf (trimComponent comp)) ∧ deviceOfComponent upcase s = 0) := by
  by_cases hcomp : trimComponent comp = []
  · right
    refine ⟨fun hdevice => ?_, h.no_device hlen hcomp⟩
    have hletter := isDeviceInitial_of_isDevice hupcase hdevice
    rw [hcomp] at hletter
    exact absurd hletter (by decide)
  · by_cases hdevice : IsDevice upcase (stemOf (trimComponent comp))
    · left
      have hlength := deviceLength_of_isDevice hdevice
      have hbound : (stemOf (trimComponent comp)).length ≤ s.length := by
        apply Nat.le_trans ((stemOf_isPrefix _).trans (trimComponent_isPrefix comp)).length_le
        rw [h.eq, List.length_append]
        exact Nat.le_add_left _ _
      have hne : 2 * (stemOf (trimComponent comp)).length ≠ 0 := by
        intro hzero
        have hletter := isDeviceInitial_of_isDevice hupcase hdevice
        have hnil : stemOf (trimComponent comp) = [] :=
          List.eq_nil_of_length_eq_zero (by omega)
        rw [hnil] at hletter
        exact absurd hletter (by decide)
      refine ⟨hdevice, ?_⟩
      rw [h.device hupcase hlen hcomp, hlength, if_neg hne]
      exact packed_eq (by omega)
    · right
      refine ⟨hdevice, ?_⟩
      rw [h.device hupcase hlen hcomp, if_pos]
      by_contra hne
      exact hdevice (isDevice_of_deviceLength hne)

/-- Every path has a last component. -/
theorem exists_lastComponent (s : List WCHAR) : ∃ dir comp, LastComponent s dir comp := by
  -- the last separator, if there is one
  have hsplit : ∃ front comp, s = front ++ comp ∧ (∀ ch ∈ comp, isPathSeparator ch = false) ∧
      (front = [] ∨ ∃ rest ch, front = rest ++ [ch] ∧ isPathSeparator ch = true) := by
    induction s using List.reverseRecOn with
    | nil => exact ⟨[], [], rfl, nofun, .inl rfl⟩
    | append_singleton s ch ih =>
      cases hch : isPathSeparator ch with
      | true => exact ⟨s ++ [ch], [], by simp, nofun, .inr ⟨s, ch, rfl, hch⟩⟩
      | false =>
        obtain ⟨front, comp, rfl, hcomp, hfront⟩ := ih
        refine ⟨front, comp ++ [ch], by simp, ?_, hfront⟩
        intro c hc
        rcases List.mem_append.mp hc with hc | hc
        · exact hcomp c hc
        · rw [List.mem_singleton.mp hc]
          exact hch
  obtain ⟨front, comp, rfl, hcomp, hfront⟩ := hsplit
  have hstart : front = [] ∨ (∃ rest ch, front = rest ++ [ch] ∧ isPathSeparator ch = true) ∨
      ∃ ch, front = [ch, colon] := by
    rcases hfront with h | h
    · exact .inl h
    · exact .inr (.inl h)
  by_cases hcolon : (front ++ comp)[1]? = some colon ∧ front.length < 2
  · -- a colon in second place goes to the directory
    obtain ⟨a, b, rest, hchars⟩ : ∃ a b rest, front ++ comp = a :: b :: rest := by
      match h : front ++ comp with
      | [] => exact absurd hcolon.1 (by rw [h]; nofun)
      | [_] => exact absurd hcolon.1 (by rw [h]; nofun)
      | a :: b :: rest => exact ⟨a, b, rest, rfl⟩
    obtain rfl : b = colon := by
      have hsecond := hcolon.1
      rw [hchars] at hsecond
      exact Option.some.inj hsecond
    have hrest : ∀ ch ∈ rest, ch ∈ comp := by
      intro ch hch
      match front, hcolon.2, hchars with
      | [], _, hchars =>
        rw [List.nil_append] at hchars
        rw [hchars]
        exact List.mem_cons_of_mem _ (List.mem_cons_of_mem _ hch)
      | [_], _, hchars =>
        have htail : comp = colon :: rest := (List.cons.inj hchars).2
        rw [htail]
        exact List.mem_cons_of_mem _ hch
    refine ⟨[a, colon], rest, hchars, .inr (.inr ⟨a, rfl⟩), fun ch hch => hcomp ch (hrest ch hch),
      fun _ => Nat.le_refl 2⟩
  · refine ⟨front, comp, rfl, hstart, hcomp, fun hsecond => ?_⟩
    by_contra hlt
    exact hcolon ⟨hsecond, Nat.lt_of_not_le hlt⟩

/-- The offset and the length select the device name. -/
theorem DeviceAt.selects {offset length : Nat} (h : DeviceAt upcase s offset length) :
    IsDevice upcase ((s.drop offset).take length) := by
  cases h with
  | slashCON htype hname hoffset hlength =>
    subst hoffset hlength
    apply IsDevice.plain conDevice (by simp)
    rw [rtlEqualUnicodeString_iff] at hname ⊢
    unfold foldCase at hname ⊢
    rw [List.map_take, List.map_drop, hname]
    rfl
  | component dir comp hlast htype hname hoffset hlength =>
    have hselect : (s.drop offset).take length = stemOf (trimComponent comp) := by
      rw [hoffset, hlength, hlast.eq, List.drop_left]
      exact (List.prefix_iff_eq_take.mp ((stemOf_isPrefix _).trans (trimComponent_isPrefix comp))).symm
    rw [hselect]
    exact hname

/-- The result is non-zero exactly for the device names of the grammar, and then it is the offset
and the length of the name, in bytes, which select the name in the path. -/
theorem device_name_grammar (upcase : WCHAR → WCHAR) (hupcase : FoldsLetters upcase)
    (s : List WCHAR) (hlen : 2 * s.length < 2 ^ 16) :
    (rtlIsDosDeviceNameUstr upcase s ≠ 0 ↔ ∃ offset length, DeviceAt upcase s offset length) ∧
      ∀ offset length, DeviceAt upcase s offset length →
        rtlIsDosDeviceNameUstr upcase s / 2 ^ 16 = 2 * offset ∧
          rtlIsDosDeviceNameUstr upcase s % 2 ^ 16 = 2 * length ∧
            IsDevice upcase ((s.drop offset).take length) := by
  have hvalue : ∀ offset length, DeviceAt upcase s offset length →
      rtlIsDosDeviceNameUstr upcase s = 2 ^ 16 * (2 * offset) + 2 * length ∧ 0 < length ∧
        length ≤ s.length := by
    intro offset length h
    cases h with
    | slashCON htype hname hoffset hlength =>
      unfold rtlIsDosDeviceNameUstr
      rw [htype, hoffset, hlength]
      have hseven := length_eq_of_equal hname
      refine ⟨if_pos hname, by decide, ?_⟩
      rw [hseven]
      decide
    | component dir comp hlast htype hname hoffset hlength =>
      -- the last component decides
      have hother : rtlIsDosDeviceNameUstr upcase s = deviceOfComponent upcase s := by
        unfold rtlIsDosDeviceNameUstr
        split
        · exact absurd ‹_› htype.1
        · exact absurd ‹_› htype.2
        · rename_i hunknown
          exact absurd hunknown (by unfold rtlDetermineDosPathNameTypeUstr; split_ifs <;> nofun)
        · rfl
      have hletter := isDeviceInitial_of_isDevice hupcase hname
      -- a device has a first letter, so the length is not 0
      have hpos : 0 < (stemOf (trimComponent comp)).length := by
        apply List.length_pos_of_ne_nil
        intro hnil
        rw [hnil] at hletter
        exact absurd hletter (by decide)
      have hbound : (stemOf (trimComponent comp)).length ≤ s.length := by
        apply Nat.le_trans ((stemOf_isPrefix _).trans (trimComponent_isPrefix comp)).length_le
        rw [hlast.eq, List.length_append]
        exact Nat.le_add_left _ _
      rcases hlast.device_iff hupcase hlen with ⟨-, hresult⟩ | ⟨hnot, -⟩
      · rw [hother, hresult, hoffset, hlength]
        exact ⟨rfl, hpos, hbound⟩
      · exact absurd hname hnot
  constructor
  · constructor
    · intro hne
      unfold rtlIsDosDeviceNameUstr at hne
      split at hne
      · rename_i htype
        split at hne
        · rename_i hname
          exact ⟨4, 3, .slashCON htype hname rfl rfl⟩
        · exact absurd rfl hne
      · exact absurd rfl hne
      · exact absurd rfl hne
      · rename_i hlocal hunc _
        obtain ⟨dir, comp, hlast⟩ := exists_lastComponent s
        rcases hlast.device_iff hupcase hlen with ⟨hdevice, -⟩ | ⟨-, hzero⟩
        · exact ⟨_, _, .component dir comp hlast ⟨hlocal, hunc⟩ hdevice rfl rfl⟩
        · exact absurd hzero hne
    · rintro ⟨offset, length, h⟩ hzero
      obtain ⟨hresult, hpos, -⟩ := hvalue offset length h
      omega
  · intro offset length h
    obtain ⟨hresult, hpos, hbound⟩ := hvalue offset length h
    exact ⟨by omega, by omega, h.selects⟩

theorem foldsLetters_upcaseAscii : FoldsLetters upcaseAscii := by
  intro ch letter hlow hhigh h
  have hletter : upcaseAscii letter = letter := by
    unfold upcaseAscii
    rw [if_neg]
    rintro ⟨hge, -⟩
    exact absurd (UInt16.le_trans hge hhigh) (by decide)
  have hcase : ∀ k : Fin 26, (0x41 + UInt16.ofNat k + 0x20) ||| 0x20 =
      (0x41 + UInt16.ofNat k) ||| 0x20 := by decide
  rw [hletter] at h
  unfold upcaseAscii at h
  split at h
  · -- a small letter
    have hk : letter.toNat - 0x41 < 26 := by
      have := UInt16.le_iff_toNat_le.mp hhigh
      simp at this
      omega
    have hsum : letter = 0x41 + UInt16.ofNat (letter.toNat - 0x41) := by
      have hge := UInt16.le_iff_toNat_le.mp hlow
      apply UInt16.toNat_inj.mp
      rw [UInt16.toNat_add]
      simp at hge ⊢
      omega
    have hch : ch = letter + 0x20 := by
      rw [← h]
      simp
    have := hcase ⟨_, hk⟩
    rw [hch, hsum]
    exact this
  · rw [h]

/-- `C:\lpt1 .txt` -/
def printerPath : List WCHAR :=
  [0x43, 0x3a, 0x5c, 0x6c, 0x70, 0x74, 0x31, 0x20, 0x2e, 0x74, 0x78, 0x74]

theorem printerPath_is_device :
    (rtlIsDosDeviceNameUstr upcaseAscii printerPath ≠ 0 ↔
        ∃ offset length, DeviceAt upcaseAscii printerPath offset length) ∧
      rtlIsDosDeviceNameUstr upcaseAscii printerPath = 0x00060008 :=
  ⟨(device_name_grammar upcaseAscii foldsLetters_upcaseAscii printerPath (by decide)).1,
    by decide +kernel⟩

end Ldk.DosPath
