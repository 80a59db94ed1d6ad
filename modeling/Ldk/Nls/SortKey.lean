import Ldk.Nls.Compare

/-!
# Sort keys and comparison

Two texts are compared without the characters that are ignored, and with the others folded. A sort
key is made of the same characters, but each of them becomes one byte.

- `essence`: the characters that are compared.
- `worker_eq`: the loop with two indices finds the lexicographic order.
- `TextArgument`: a string with its length, or with a terminator.
- `IsSortKey`: what a call leaves in a buffer.
- `sort_keys_order_the_bytes`: the order of two sort keys is that of the bytes of the characters. It
  is that of the texts when their first difference is below `0x100`.
-/

namespace Ldk.Nls

open OutputBuffer Lexicographic

variable (l : Locales) (upcase : WCHAR → WCHAR)

/-! ## The order of the characters that are compared -/

/-- The characters that are not ignored, folded. -/
def essence (flags : Flags) (text : List WCHAR) : List WCHAR :=
  (text.filter fun ch => !ldkpIsIgnorableSymbolForNls ch flags).map fun ch =>
    ldkpFoldUnicodeCharForNls upcase ch flags

/-- The result for an order. -/
def cstrOf : Ordering → Int
  | .lt => cstrLessThan
  | .eq => cstrEqual
  | .gt => cstrGreaterThan

theorem cstrOf_inj {o o' : Ordering} (h : cstrOf o = cstrOf o') : o = o' := by
  revert o o'
  decide

/-- The characters that are ignored at the start of a text. -/
theorem essence_dropWhile (flags : Flags) (text : List WCHAR) :
    essence upcase flags (text.dropWhile (ldkpIsIgnorableSymbolForNls · flags)) =
      essence upcase flags text := by
  induction text with
  | nil => rfl
  | cons ch text ih =>
    rw [List.dropWhile_cons]
    split
    · rename_i hignored
      rw [ih]
      unfold essence
      rw [List.filter_cons_of_neg (by rw [hignored]; exact Bool.false_ne_true)]
    · rfl

/-- The character behind those. -/
theorem essence_cons {flags : Flags} {text next : List WCHAR} {ch : WCHAR}
    (h : text.dropWhile (ldkpIsIgnorableSymbolForNls · flags) = ch :: next) :
    essence upcase flags text =
      ldkpFoldUnicodeCharForNls upcase ch flags :: essence upcase flags next := by
  have hkept : ldkpIsIgnorableSymbolForNls ch flags = false := by
    have hhead := List.head?_dropWhile_not (ldkpIsIgnorableSymbolForNls · flags) text
    rw [h] at hhead
    simpa using hhead
  rw [← essence_dropWhile, h]
  unfold essence
  rw [List.filter_cons_of_pos (by rw [hkept]; rfl), List.map_cons]

theorem essence_nil {flags : Flags} {text : List WCHAR}
    (h : text.dropWhile (ldkpIsIgnorableSymbolForNls · flags) = []) :
    essence upcase flags text = [] := by
  rw [← essence_dropWhile, h]
  rfl

/-- Two characters that are not the same. -/
theorem compare_of_ne {a b : WCHAR} (h : a ≠ b) :
    ldkpCompareResultFromDifference (if a < b then -1 else 1) = cstrOf (compare a b) := by
  have horder : compare a b = if a < b then .lt else if a = b then .eq else .gt := rfl
  rw [horder, if_neg h]
  split
  · rfl
  · rfl

/-- The loop finds the lexicographic order. -/
theorem worker_eq (text1 text2 : List WCHAR) (flags : Flags) :
    ldkpCompareStringOrdinalWorker upcase text1 text2 flags =
      cstrOf (compare (essence upcase flags text1) (essence upcase flags text2)) := by
  fun_induction ldkpCompareStringOrdinalWorker upcase text1 text2 flags with
  | case1 text1 text2 h =>
    obtain ⟨rfl, rfl⟩ := h
    rfl
  | case2 text1 text2 h char1 next1 char2 next2 h1 h2 ch1 ch2 hne =>
    have hdiffer : compare ch1 ch2 ≠ .eq := fun heq => hne (Std.LawfulEqCmp.eq_of_compare heq)
    rw [essence_cons upcase h1, essence_cons upcase h2, List.compare_cons_cons,
      then_of_ne hdiffer]
    exact compare_of_ne hne
  | case3 text1 text2 h char1 next1 char2 next2 h1 h2 ch1 ch2 heq ih =>
    have hsame : compare ch1 ch2 = .eq := by
      rw [not_not.1 heq]
      exact Std.ReflCmp.compare_self
    rw [ih, essence_cons upcase h1, essence_cons upcase h2, List.compare_cons_cons, hsame]
    rfl
  | case4 text1 text2 h hend =>
    -- at the end of one text, or of both
    cases h1 : text1.dropWhile (ldkpIsIgnorableSymbolForNls · flags) with
    | nil =>
      rw [essence_nil upcase h1]
      cases h2 : text2.dropWhile (ldkpIsIgnorableSymbolForNls · flags) with
      | nil =>
        rw [essence_nil upcase h2]
        rfl
      | cons char2 next2 =>
        rw [essence_cons upcase h2]
        rfl
    | cons char1 next1 =>
      cases h2 : text2.dropWhile (ldkpIsIgnorableSymbolForNls · flags) with
      | nil =>
        rw [essence_cons upcase h1, essence_nil upcase h2]
        rfl
      | cons char2 next2 => exact absurd h2 (hend char1 next1 char2 next2 h1)

/-! ## The arguments -/

/-- A string with its length, or with a terminator: the length is an `int`, and the terminator is
counted in one. -/
structure TextArgument where
  memory : List WCHAR
  cch : Int
  valid : (cch = -1 ∧ 0 ∈ memory ∧ (Environment.wcslen memory : Int) + 1 < 2 ^ 31) ∨
    (0 ≤ cch ∧ cch < 2 ^ 31 ∧ cch ≤ memory.length)

/-- The characters of an argument. -/
def TextArgument.text (a : TextArgument) : List WCHAR :=
  if a.cch = -1 then a.memory.takeWhile (· ≠ 0) else a.memory.take a.cch.toNat

/-- The characters below a length that the memory has. -/
theorem counted_eq {memory : List WCHAR} {n : Int} (h : n ≤ memory.length) :
    counted memory n = .ok (memory.take n.toNat) := by
  unfold counted slice
  rw [if_pos (by omega), List.drop_zero]

/-- The characters in front of the terminator. -/
theorem counted_wcslen (memory : List WCHAR) :
    counted memory (Environment.wcslen memory : Int) = .ok (memory.takeWhile (· ≠ 0)) := by
  have hprefix := List.takeWhile_prefix (p := fun ch : WCHAR => decide (ch ≠ 0)) (l := memory)
  have hlength : (Environment.wcslen memory : Int) ≤ memory.length :=
    Int.ofNat_le.2 hprefix.length_le
  rw [counted_eq hlength, Int.toNat_natCast]
  exact congrArg Except.ok (List.prefix_iff_eq_take.1 hprefix).symm

/-- The length and the characters that a comparison reads. -/
theorem TextArgument.compare_spec (a : TextArgument) : ∃ n,
    ldkpGetNlsCompareLength (some a.memory) a.cch = .ok (some n) ∧
      counted a.memory n = .ok a.text := by
  unfold ldkpGetNlsCompareLength TextArgument.text
  dsimp only
  rcases a.valid with ⟨hcch, hzero, hlength⟩ | ⟨hlow, hhigh, hlength⟩
  · refine ⟨(Environment.wcslen a.memory : Int), ?_, ?_⟩
    · rw [if_neg (by omega), if_pos hcch]
      unfold lengthOf
      rw [if_pos hzero]
      change Except.ok (some (toInt (Environment.wcslen a.memory : Int))) = _
      rw [toInt_eq (by omega) (by omega)]
    · rw [if_pos hcch, counted_wcslen]
  · refine ⟨a.cch, ?_, ?_⟩
    · rw [if_neg (by omega), if_neg (by omega)]
    · rw [if_neg (by omega), counted_eq hlength]

/-- The length that a map reads, without the terminator, is the same. -/
theorem TextArgument.map_spec (a : TextArgument) : ∃ n,
    ldkpGetNlsMapLength (some a.memory) a.cch = .ok (some n) ∧
      counted a.memory (if a.cch = -1 ∧ 0 < n then n - 1 else n) = .ok a.text := by
  unfold ldkpGetNlsMapLength TextArgument.text
  dsimp only
  rcases a.valid with ⟨hcch, hzero, hlength⟩ | ⟨hlow, hhigh, hlength⟩
  · refine ⟨(Environment.wcslen a.memory : Int) + 1, ?_, ?_⟩
    · have hwide : toInt (Environment.wcslen a.memory : Int) = Environment.wcslen a.memory :=
        toInt_eq (by omega) (by omega)
      rw [if_neg (by omega), if_pos hcch]
      unfold lengthOf
      rw [if_pos hzero]
      change Except.ok (some (toInt (toInt (Environment.wcslen a.memory : Int) + 1))) = _
      rw [hwide, toInt_eq (by omega) (by omega)]
    · have hshort : (if a.cch = -1 ∧ 0 < (Environment.wcslen a.memory : Int) + 1 then
          (Environment.wcslen a.memory : Int) + 1 - 1 else Environment.wcslen a.memory + 1) =
            Environment.wcslen a.memory := by
        rw [if_pos ⟨hcch, by omega⟩, Int.add_sub_cancel]
      rw [hshort, if_pos hcch, counted_wcslen]
  · refine ⟨a.cch, ?_, ?_⟩
    · rw [if_neg (by omega), if_neg (by omega)]
    · have hsame : (if a.cch = -1 ∧ 0 < a.cch then a.cch - 1 else a.cch) = a.cch :=
        if_neg (by omega)
      rw [hsame, if_neg (by omega), counted_eq hlength]

/-! ## The calls -/

/-- The flags that are valid for both routines. -/
def validFlags : Flags :=
  normIgnoreCase ||| linguisticIgnoreCase ||| normLinguisticCasing ||| normIgnoreSymbols |||
    sortStringSort

variable {l upcase} {localeName : Option (List WCHAR)} {flags : Flags}

/-- A comparison of two arguments. -/
def compareArguments (l : Locales) (upcase : WCHAR → WCHAR) (localeName : Option (List WCHAR))
    (flags : Flags) (a b : TextArgument) : Except Outside Answer :=
  compareStringEx l upcase localeName flags (some a.memory) a.cch (some b.memory) b.cch 0 0

/-- A call for a sort key. -/
def sortKeyOf (l : Locales) (upcase : WCHAR → WCHAR) (localeName : Option (List WCHAR))
    (flags : Flags) (a : TextArgument) (buffer : Option (List UInt8)) (cchDest : Int) :
    Except Outside Answer :=
  lcMapStringEx l upcase localeName (flags ||| lcmapSortKey) (some a.memory) a.cch buffer cchDest
    0 0

theorem compareArguments_eq (hflags : flags &&& ~~~validFlags = 0)
    (hlocale : ldkpResolveLocaleNameForNls l localeName ≠ none) (a b : TextArgument) :
    compareArguments l upcase localeName flags a b =
      .ok ⟨cstrOf (compare (essence upcase flags a.text) (essence upcase flags b.text)), none,
        none⟩ := by
  obtain ⟨n, hlength, htext⟩ := a.compare_spec
  obtain ⟨m, hlength', htext'⟩ := b.compare_spec
  have hvalid : ldkpValidateCompareFlags flags = true := decide_eq_true hflags
  unfold compareArguments compareStringEx
  rw [if_neg (by simp), if_neg (by rw [hvalid]; exact Bool.noConfusion), if_neg hlocale, hlength,
    hlength']
  change (do
    let text1 ← counted a.memory n
    let text2 ← counted b.memory m
    Except.ok (Answer.mk (ldkpCompareStringOrdinalWorker upcase text1 text2 flags) none none)) = _
  rw [htext, htext', ← worker_eq]
  rfl

/-! ## The sort keys -/

/-- The bytes of the characters that are compared, and the terminator. -/
def keyOf (upcase : WCHAR → WCHAR) (flags : Flags) (text : List WCHAR) : List UInt8 :=
  (essence upcase flags text).map sortKeyByte ++ [0]

/-- A mask without the flag for a sort key. -/
theorem sortKey_and {mask : Flags} (hmask : lcmapSortKey &&& mask = 0) (flags : Flags) :
    (flags ||| lcmapSortKey) &&& mask = flags &&& mask := by
  rw [BitVec.and_comm, BitVec.and_or_distrib_left, BitVec.and_comm mask lcmapSortKey, hmask,
    BitVec.and_comm mask flags]
  exact BitVec.or_zero

/-- The flag does not change which characters are ignored, and how the others are folded. -/
theorem ignorable_sortKey (ch : WCHAR) (flags : Flags) :
    ldkpIsIgnorableSymbolForNls ch (flags ||| lcmapSortKey) =
      ldkpIsIgnorableSymbolForNls ch flags := by
  unfold ldkpIsIgnorableSymbolForNls
  rw [sortKey_and (by decide)]

theorem fold_sortKey (ch : WCHAR) (flags : Flags) :
    ldkpFoldUnicodeCharForNls upcase ch (flags ||| lcmapSortKey) =
      ldkpFoldUnicodeCharForNls upcase ch flags := by
  unfold ldkpFoldUnicodeCharForNls
  rw [sortKey_and (by decide)]

theorem sortKey_ne_zero (flags : Flags) : (flags ||| lcmapSortKey) &&& lcmapSortKey ≠ 0 := by
  intro hzero
  have hbit := congrArg (fun mask : Flags => mask.getLsbD 10) hzero
  simp [lcmapSortKey] at hbit

theorem validateMapFlags_sortKey (hflags : flags &&& ~~~validFlags = 0) :
    ldkpValidateMapFlags (flags ||| lcmapSortKey) = true := by
  have hmask : ~~~(lcmapSortKey ||| normIgnoreCase ||| linguisticIgnoreCase |||
      normLinguisticCasing ||| normIgnoreSymbols ||| sortStringSort) =
        ~~~validFlags &&& ~~~lcmapSortKey := by decide
  unfold ldkpValidateMapFlags
  rw [if_pos (sortKey_ne_zero flags), hmask, sortKey_and (by decide), ← BitVec.and_assoc, hflags]
  rfl

/-- The call with a destination. -/
theorem sortKeyOf_eq (hflags : flags &&& ~~~validFlags = 0)
    (hlocale : ldkpResolveLocaleNameForNls l localeName ≠ none) (a : TextArgument)
    (buffer : Option (List UInt8)) {cch : Int} (hcch : 0 ≤ cch)
    (hbuffer : buffer = none → cch = 0) :
    sortKeyOf l upcase localeName flags a buffer cch =
      ldkpMapSortKeyForNls upcase a.text (flags ||| lcmapSortKey) buffer cch := by
  obtain ⟨n, hlength, htext⟩ := a.map_spec
  have hvalid := validateMapFlags_sortKey hflags
  have hpassed : ¬ ((0 : Nat) ≠ 0 ∨ (0 : Int) ≠ 0 ∨ cch < 0 ∨ (buffer = none ∧ cch ≠ 0)) := by
    rintro (h | h | h | ⟨hnone, hne⟩)
    · exact h rfl
    · exact h rfl
    · exact absurd hcch (Int.not_le.2 h)
    · exact hne (hbuffer hnone)
  unfold sortKeyOf lcMapStringEx
  rw [if_neg hpassed, if_neg (by rw [hvalid]; exact Bool.noConfusion), if_neg hlocale, hlength]
  change (if (flags ||| lcmapSortKey) &&& lcmapSortKey ≠ 0 then (do
    let source ← counted a.memory (if a.cch = -1 ∧ 0 < n then n - 1 else n)
    ldkpMapSortKeyForNls upcase source (flags ||| lcmapSortKey) buffer cch) else _) = _
  rw [if_pos (sortKey_ne_zero flags), htext]
  rfl

/-- The length that is counted is that of the key. -/
theorem length_keyOf (upcase : WCHAR → WCHAR) (flags : Flags) (text : List WCHAR) :
    ((keyOf upcase flags text).length : Int) =
      1 + (text.countP fun ch => !ldkpIsIgnorableSymbolForNls ch flags : Nat) := by
  unfold keyOf essence
  rw [List.length_append, List.length_map, List.length_map, List.countP_eq_length_filter,
    List.length_singleton]
  omega

theorem ldkpMapSortKeyForNls_eq {text : List WCHAR} {buffer : List UInt8} {cch : Int}
    (hpos : 0 < cch) :
    ldkpMapSortKeyForNls upcase text (flags ||| lcmapSortKey) (some buffer) cch =
      if cch < toInt (keyOf upcase flags text).length then
        failed (some buffer) errorInsufficientBuffer
      else do
        let bytes ← put buffer 0 (keyOf upcase flags text)
        return ⟨toInt (keyOf upcase flags text).length, some bytes, none⟩ := by
  have hkey : keyOf upcase flags text =
      ((text.filter fun ch => !ldkpIsIgnorableSymbolForNls ch flags).map fun ch =>
        sortKeyByte (ldkpFoldUnicodeCharForNls upcase ch flags)) ++ [0] := by
    unfold keyOf essence
    rw [List.map_map]
    rfl
  unfold ldkpMapSortKeyForNls
  simp only [ignorable_sortKey, fold_sortKey, ← length_keyOf upcase, ← hkey]
  rw [if_neg (Int.ne_of_gt hpos)]

theorem TextArgument.length_text (a : TextArgument) : a.text.length < 2 ^ 31 := by
  unfold TextArgument.text
  rcases a.valid with ⟨hcch, hzero, hlength⟩ | ⟨hlow, hhigh, hlength⟩
  · rw [if_pos hcch]
    change Environment.wcslen a.memory < 2 ^ 31
    omega
  · rw [if_neg (by omega), List.length_take]
    omega

theorem length_keyOf_le (upcase : WCHAR → WCHAR) (flags : Flags) (text : List WCHAR) :
    (keyOf upcase flags text).length ≤ text.length + 1 := by
  have hle := List.countP_le_length (p := fun ch => !ldkpIsIgnorableSymbolForNls ch flags)
    (l := text)
  have hlength := length_keyOf upcase flags text
  omega

/-- These bytes are what a call has left in a buffer. -/
def IsSortKey (l : Locales) (upcase : WCHAR → WCHAR) (localeName : Option (List WCHAR))
    (flags : Flags) (a : TextArgument) (key : List UInt8) : Prop :=
  ∃ (buffer : List UInt8) (cch : Int), 0 < cch ∧ cch ≤ buffer.length ∧
    sortKeyOf l upcase localeName flags a (some buffer) cch =
      .ok ⟨key.length, some (key ++ buffer.drop key.length), none⟩

/-- There is no other. -/
theorem IsSortKey.eq (hflags : flags &&& ~~~validFlags = 0)
    (hlocale : ldkpResolveLocaleNameForNls l localeName ≠ none) {a : TextArgument}
    {key : List UInt8} (h : IsSortKey l upcase localeName flags a key) :
    key = keyOf upcase flags a.text := by
  obtain ⟨buffer, cch, hpos, hbuffer, hcall⟩ := h
  have hlength := length_keyOf_le upcase flags a.text
  have htext := a.length_text
  rw [sortKeyOf_eq hflags hlocale a (some buffer) (by omega) nofun, ldkpMapSortKeyForNls_eq hpos]
    at hcall
  have hsize : 0 < (keyOf upcase flags a.text).length := by
    unfold keyOf
    rw [List.length_append, List.length_singleton]
    exact Nat.succ_pos _
  split at hcall
  · unfold failed at hcall
    rw [Except.ok.injEq, Answer.mk.injEq] at hcall
    exact absurd hcall.2.2 nofun
  · unfold put at hcall
    split at hcall
    · change Except.ok (Answer.mk _ _ _) = _ at hcall
      rw [Except.ok.injEq, Answer.mk.injEq, Option.some_inj] at hcall
      obtain ⟨hresult, hbytes, -⟩ := hcall
      -- a length that is no `int` would not be the result
      have hsame : (keyOf upcase flags a.text).length = key.length := by
        unfold toInt at hresult
        rw [Int.bmod_def] at hresult
        omega
      rw [List.take_zero, List.nil_append] at hbytes
      exact (List.append_inj_left hbytes hsame).symm
    · cases hcall

/-- A buffer that is long enough gets the key, and a call without one tells its length. -/
theorem isSortKey_keyOf (upcase : WCHAR → WCHAR) (hflags : flags &&& ~~~validFlags = 0)
    (hlocale : ldkpResolveLocaleNameForNls l localeName ≠ none) (a : TextArgument)
    (hlength : (keyOf upcase flags a.text).length < 2 ^ 31) :
    sortKeyOf l upcase localeName flags a none 0 =
        .ok ⟨(keyOf upcase flags a.text).length, none, none⟩ ∧
      ∀ (buffer : List UInt8) (cch : Int), (keyOf upcase flags a.text).length ≤ cch →
        cch ≤ buffer.length → sortKeyOf l upcase localeName flags a (some buffer) cch =
          .ok ⟨(keyOf upcase flags a.text).length, some (keyOf upcase flags a.text ++
            buffer.drop (keyOf upcase flags a.text).length), none⟩ := by
  have hint : toInt (keyOf upcase flags a.text).length = (keyOf upcase flags a.text).length :=
    toInt_eq (by omega) (by omega)
  have hsize : 0 < (keyOf upcase flags a.text).length := by
    unfold keyOf
    rw [List.length_append, List.length_singleton]
    exact Nat.succ_pos _
  constructor
  · rw [sortKeyOf_eq hflags hlocale a none (Int.le_refl 0) fun _ => rfl]
    unfold ldkpMapSortKeyForNls
    simp only [ignorable_sortKey, ← length_keyOf upcase, hint]
  · intro buffer cch hlow hhigh
    rw [sortKeyOf_eq hflags hlocale a (some buffer) (by omega) nofun,
      ldkpMapSortKeyForNls_eq (by omega), hint, if_neg (by omega)]
    unfold put
    rw [if_pos (by omega), List.take_zero, List.nil_append, Nat.zero_add]
    rfl

theorem isSortKey (upcase : WCHAR → WCHAR) (hflags : flags &&& ~~~validFlags = 0)
    (hlocale : ldkpResolveLocaleNameForNls l localeName ≠ none) (a : TextArgument)
    (hlength : a.text.length + 1 < 2 ^ 31) :
    IsSortKey l upcase localeName flags a (keyOf upcase flags a.text) ∧
      sortKeyOf l upcase localeName flags a none 0 =
        .ok ⟨(keyOf upcase flags a.text).length, none, none⟩ := by
  have hle := length_keyOf_le upcase flags a.text
  have hsize := length_keyOf upcase flags a.text
  obtain ⟨hquery, hkey⟩ := isSortKey_keyOf upcase hflags hlocale a (by omega)
  refine ⟨⟨List.replicate (keyOf upcase flags a.text).length 0,
    (keyOf upcase flags a.text).length, by omega, ?_, ?_⟩, hquery⟩
  · rw [List.length_replicate]
  · apply hkey
    · exact Int.le_refl _
    · rw [List.length_replicate]

/-! ## The order of sort keys -/

/-- The order of bytes that are those of characters below `0x100`. -/
theorem compare_sortKeyByte {c d : WCHAR} (hc : c ≤ 0xff) (hd : d ≤ 0xff) :
    compare (sortKeyByte c) (sortKeyByte d) = compare c d := by
  have hbyte {e : WCHAR} (he : e ≤ 0xff) : (sortKeyByte e).toNat = e.toNat := by
    unfold sortKeyByte
    rw [if_pos he, UInt16.toNat_toUInt8]
    exact Nat.mod_eq_of_lt (Nat.lt_succ_of_le (UInt16.le_iff_toNat_le.1 he))
  have hlt : sortKeyByte c < sortKeyByte d ↔ c < d := by
    rw [UInt8.lt_iff_toNat_lt, UInt16.lt_iff_toNat_lt, hbyte hc, hbyte hd]
  have heq : sortKeyByte c = sortKeyByte d ↔ c = d := by
    rw [← UInt8.toNat_inj, ← UInt16.toNat_inj, hbyte hc, hbyte hd]
  change (if sortKeyByte c < sortKeyByte d then Ordering.lt
    else if sortKeyByte c = sortKeyByte d then .eq else .gt) =
      if c < d then .lt else if c = d then .eq else .gt
  simp only [hlt, heq]

/-- The order of two keys. -/
theorem compare_keyOf (flags : Flags) (s t : List WCHAR) :
    compare (keyOf upcase flags s) (keyOf upcase flags t) =
      compare ((essence upcase flags s).map sortKeyByte)
        ((essence upcase flags t).map sortKeyByte) := by
  apply compare_terminated
  intro b
  rw [Std.isLE_compare]
  exact UInt8.le_iff_toNat_le.2 (Nat.zero_le _)

/-- Two arguments are compared by what is left of them. -/
theorem isTotalPreorder_compareArguments (hflags : flags &&& ~~~validFlags = 0)
    (hlocale : ldkpResolveLocaleNameForNls l localeName ≠ none) :
    IsTotalPreorder fun a b o =>
      compareArguments l upcase localeName flags a b = .ok ⟨cstrOf o, none, none⟩ := by
  have hcmp : (fun a b o => compareArguments l upcase localeName flags a b =
      .ok ⟨cstrOf o, none, none⟩) =
        fun a b o => compare (essence upcase flags a.text) (essence upcase flags b.text) = o := by
    funext a b o
    rw [compareArguments_eq hflags hlocale, Except.ok.injEq, Answer.mk.injEq]
    apply propext
    constructor
    · exact fun h => cstrOf_inj h.1
    · rintro rfl
      exact ⟨rfl, rfl, rfl⟩
  rw [hcmp]
  exact isTotalPreorder_compare fun a : TextArgument => essence upcase flags a.text

/-- **Sort keys and comparison.** A comparison is a total preorder, and that of the characters
which are not ignored, folded. Every text that is short enough has a sort key, and the order of two
keys is that of these characters when those above `0xff` are replaced by a question mark. It is the
order of the comparison if the first difference is between characters that are not above it. -/
theorem sort_keys_order_the_bytes (l : Locales) (upcase : WCHAR → WCHAR)
    (localeName : Option (List WCHAR)) (flags : Flags) (hflags : flags &&& ~~~validFlags = 0)
    (hlocale : ldkpResolveLocaleNameForNls l localeName ≠ none) :
    (∀ a b, compareArguments l upcase localeName flags a b =
        .ok ⟨cstrOf (compare (essence upcase flags a.text) (essence upcase flags b.text)), none,
          none⟩) ∧
      IsTotalPreorder (fun a b o =>
        compareArguments l upcase localeName flags a b = .ok ⟨cstrOf o, none, none⟩) ∧
      (∀ a : TextArgument, a.text.length + 1 < 2 ^ 31 →
        ∃ key : List UInt8, IsSortKey l upcase localeName flags a key ∧
          sortKeyOf l upcase localeName flags a none 0 = .ok ⟨key.length, none, none⟩) ∧
      ∀ a b ka kb, IsSortKey l upcase localeName flags a ka →
        IsSortKey l upcase localeName flags b kb →
          compare ka kb = compare ((essence upcase flags a.text).map sortKeyByte)
            ((essence upcase flags b.text).map sortKeyByte) ∧
          ((∀ p ∈ firstDifference (essence upcase flags a.text) (essence upcase flags b.text),
              p.1 ≤ 0xff ∧ p.2 ≤ 0xff) →
            compareArguments l upcase localeName flags a b =
              .ok ⟨cstrOf (compare ka kb), none, none⟩) := by
  refine ⟨compareArguments_eq hflags hlocale, isTotalPreorder_compareArguments hflags hlocale,
    fun a ha => ?_, fun a b ka kb hka hkb => ?_⟩
  · exact ⟨_, isSortKey upcase hflags hlocale a ha⟩
  · obtain rfl := hka.eq hflags hlocale
    obtain rfl := hkb.eq hflags hlocale
    refine ⟨compare_keyOf flags a.text b.text, fun hfirst => ?_⟩
    -- where the first characters that differ are in the first page, their bytes differ alike
    have horder := compare_map (f := sortKeyByte) fun p hp =>
      compare_sortKeyByte (hfirst p hp).1 (hfirst p hp).2
    rw [compareArguments_eq hflags hlocale, compare_keyOf, horder]

/-- One locale, with its name. -/
def americanEnglish : Locales where
  userDefaultLcid := 0x0409
  ldkpSystemLocale := 0x0409
  localeNameToLcid name := if name = [0x65, 0x6e, 0x2d, 0x55, 0x53] then 0x0409 else 0
  isValidLocale lcid := lcid == 0x0409

/-- `L"a-b"`, counted, and `L"AC"` with a terminator. -/
def countedText : TextArgument := ⟨[0x61, 0x2d, 0x62], 3, by decide⟩

def terminatedText : TextArgument := ⟨[0x41, 0x43, 0], -1, by decide⟩

/-- The hyphen is ignored, and so is the case: `AB` is less than `AC`. -/
theorem hyphen_is_ignored :
    compareArguments americanEnglish upcaseAscii none (normIgnoreCase ||| normIgnoreSymbols)
        countedText terminatedText = .ok ⟨cstrLessThan, none, none⟩ ∧
      ∃ key : List UInt8, IsSortKey americanEnglish upcaseAscii none
        (normIgnoreCase ||| normIgnoreSymbols) countedText key := by
  have h := sort_keys_order_the_bytes americanEnglish upcaseAscii none
    (normIgnoreCase ||| normIgnoreSymbols) (by decide) (by decide)
  refine ⟨(h.1 countedText terminatedText).trans ?_, ?_⟩
  · rfl
  · obtain ⟨key, hkey, -⟩ := h.2.2.1 countedText (by decide)
    exact ⟨key, hkey⟩

/-- The first two capital letters of the Cyrillic alphabet. -/
def cyrillicA : TextArgument := ⟨[0x0410], 1, by decide⟩

def cyrillicBe : TextArgument := ⟨[0x0411], 1, by decide⟩

/-- They are told apart by a comparison, but not by their sort keys. -/
theorem cyrillic_keys_are_the_same : ∃ ka kb,
    IsSortKey americanEnglish upcaseAscii none 0 cyrillicA ka ∧
      IsSortKey americanEnglish upcaseAscii none 0 cyrillicBe kb ∧ compare ka kb = .eq ∧
        compareArguments americanEnglish upcaseAscii none 0 cyrillicA cyrillicBe =
          .ok ⟨cstrLessThan, none, none⟩ := by
  have hlocale : ldkpResolveLocaleNameForNls americanEnglish none ≠ none := by decide
  have hkey (a : TextArgument) (ha : a.text.length + 1 < 2 ^ 31) :=
    isSortKey upcaseAscii (show (0 : Flags) &&& ~~~validFlags = 0 by decide) hlocale a ha
  refine ⟨_, _, (hkey cyrillicA (by decide)).1, (hkey cyrillicBe (by decide)).1, ?_, ?_⟩
  · decide
  · rw [compareArguments_eq (by decide) hlocale]
    rfl

end Ldk.Nls
