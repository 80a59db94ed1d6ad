import Ldk.Environment.State
import Ldk.Lib.SortedEntries

set_option linter.unusedSectionVars false

/-!
# Packed entries

A block is the packed form of a list of entries, followed by a null. The loops of the code, which
go over characters, do on a packed block what the operations on sorted entries do on the list:
`findEntry` finds the entry of a name or the place for it, `editBlock` replaces, inserts or
removes one entry, and `findValue` finds the entry as well, although it looks for the end of a
name in another way.
-/

namespace Ldk.Environment

open SortedEntries

/-! ## Entries -/

/-- A variable: its name and its value. -/
structure Entry where
  name : List WCHAR
  value : List WCHAR
  deriving DecidableEq, Repr

namespace Entry

/-- The string of an entry. -/
def text (e : Entry) : List WCHAR := e.name ++ equalsSign :: e.value

/-- The entry in memory. -/
def packed (e : Entry) : List WCHAR := e.text ++ [0]

/-- What the checks of `RtlSetEnvironmentVariable` let through, without nulls. -/
structure Valid (e : Entry) : Prop where
  name_ne_nil : e.name ≠ []
  name_tail : equalsSign ∉ e.name.tail
  name_null : (0 : WCHAR) ∉ e.name
  name_length : 2 * e.name.length < 2 ^ 16
  value_null : (0 : WCHAR) ∉ e.value
  value_length : 2 * e.value.length < 2 ^ 16

end Entry

/-- The entries, one after another. -/
def pack (es : List Entry) : List WCHAR := es.flatMap Entry.packed

@[simp] theorem pack_nil : pack [] = [] := rfl

@[simp] theorem pack_cons (e : Entry) (es : List Entry) : pack (e :: es) = e.packed ++ pack es :=
  rfl

@[simp] theorem pack_append (es fs : List Entry) : pack (es ++ fs) = pack es ++ pack fs :=
  List.flatMap_append

variable {e : Entry} {es before after : List Entry}

namespace Entry

theorem length_packed (e : Entry) : e.packed.length = e.text.length + 1 := by
  simp [packed]

theorem length_text (e : Entry) : e.text.length = e.name.length + 1 + e.value.length := by
  simp [text]
  omega

theorem Valid.null_notMem_text (he : e.Valid) : (0 : WCHAR) ∉ e.text := by
  unfold text
  intro hmem
  rcases List.mem_append.mp hmem with hname | hvalue
  · exact he.name_null hname
  · rcases List.mem_cons.mp hvalue with hsign | hvalue
    · exact absurd hsign (by decide)
    · exact he.value_null hvalue

end Entry

/-- Each entry takes up some room. -/
theorem length_le_pack (es : List Entry) : es.length ≤ (pack es).length := by
  induction es with
  | nil => exact Nat.le_refl 0
  | cons e es ih =>
    rw [pack_cons, List.length_append, Entry.length_packed, List.length_cons]
    omega

/-! ## Reading one entry -/

/-- A run of characters up to the first that fails the test. -/
theorem takeWhile_append_cons {p : WCHAR → Bool} {s rest : List WCHAR} {c : WCHAR}
    (hs : ∀ x ∈ s, p x = true) (hc : p c = false) : (s ++ c :: rest).takeWhile p = s := by
  rw [List.takeWhile_append_of_pos hs, List.takeWhile_cons, hc]
  simp

theorem wcslen_packed (he : e.Valid) (rest : List WCHAR) :
    wcslen (e.packed ++ rest) = e.text.length := by
  unfold wcslen Entry.packed
  rw [List.append_assoc, List.singleton_append, takeWhile_append_cons]
  · intro x hx
    exact decide_eq_true fun h : x = 0 => he.null_notMem_text (h ▸ hx)
  · decide

theorem wcslen_packed_ne_zero (he : e.Valid) (rest : List WCHAR) :
    wcslen (e.packed ++ rest) ≠ 0 := by
  rw [wcslen_packed he, Entry.length_text]
  omega

theorem wcslen_null {tail : List WCHAR} (htail : tail.headD 0 = 0) : wcslen tail = 0 := by
  cases tail with
  | nil => rfl
  | cons c tail =>
    obtain rfl : c = 0 := htail
    rfl

theorem headD_packed (he : e.Valid) (rest : List WCHAR) : (e.packed ++ rest).headD 0 ≠ 0 := by
  obtain ⟨c, name, hname⟩ := List.exists_cons_of_ne_nil he.name_ne_nil
  have hnull := he.name_null
  unfold Entry.packed Entry.text
  rw [hname] at hnull ⊢
  exact fun h : c = 0 => hnull (h ▸ List.mem_cons_self)

theorem packed_append (e : Entry) (rest : List WCHAR) :
    e.packed ++ rest = e.text ++ 0 :: rest := by
  unfold Entry.packed
  rw [List.append_assoc, List.singleton_append]

/-- The first equals sign after the first character is the one that ends the name. -/
theorem takeWhile_name (he : e.Valid) (rest : List WCHAR) :
    ((e.text ++ rest).drop 1).takeWhile (fun x => x ≠ 0 ∧ x ≠ equalsSign) = e.name.tail := by
  obtain ⟨c, name, hname⟩ := List.exists_cons_of_ne_nil he.name_ne_nil
  have hnull := he.name_null
  have htail := he.name_tail
  unfold Entry.text
  rw [hname] at hnull htail ⊢
  simp only [List.cons_append, List.append_assoc, List.drop_succ_cons, List.drop_zero,
    List.tail_cons] at htail ⊢
  apply takeWhile_append_cons
  · intro x hx
    apply decide_eq_true
    exact ⟨fun h => hnull (h ▸ List.mem_cons_of_mem _ hx), fun h => htail (h ▸ hx)⟩
  · decide

theorem delimiter_text (he : e.Valid) (rest : List WCHAR) :
    delimiter (e.text ++ rest) = e.name.length := by
  have hpos := List.length_pos_of_ne_nil he.name_ne_nil
  unfold delimiter
  rw [takeWhile_name he, List.length_tail]
  omega

theorem getElem?_delimiter (e : Entry) (rest : List WCHAR) :
    (e.text ++ rest)[e.name.length]? = some equalsSign := by
  unfold Entry.text
  simp

theorem take_name (e : Entry) (rest : List WCHAR) :
    (e.text ++ rest).take e.name.length = e.name := by
  unfold Entry.text
  simp

theorem take_value (e : Entry) (rest : List WCHAR) :
    ((e.packed ++ rest).drop (e.name.length + 1)).take e.value.length = e.value := by
  have hsplit : e.packed ++ rest = (e.name ++ [equalsSign]) ++ (e.value ++ 0 :: rest) := by
    simp [Entry.packed, Entry.text]
  have hlength : e.name.length + 1 = (e.name ++ [equalsSign]).length := by simp
  rw [hsplit, hlength, List.drop_left, List.take_left]

theorem drop_packed (e : Entry) (rest : List WCHAR) :
    (e.packed ++ rest).drop (e.text.length + 1) = rest := by
  rw [← Entry.length_packed]
  exact List.drop_left

/-! ## The loops on a packed block -/

/-- The key of an entry: its name without regard to case. -/
def entryKey (upcase : WCHAR → WCHAR) (e : Entry) : List Nat := foldCase upcase e.name

variable {upcase : WCHAR → WCHAR} {name block tail : List WCHAR} {rounds scan : Nat}
  {insertBefore : Option Nat}

/-- One round of the first loop. -/
theorem findEntry_cons (he : e.Valid) {rest : List WCHAR}
    (hblock : block.drop scan = e.packed ++ rest) :
    findEntry upcase name block (rounds + 1) scan insertBefore =
      if foldCase upcase name = entryKey upcase e then
        ⟨true, scan, scan + e.packed.length, insertBefore, scan + e.packed.length⟩
      else
        findEntry upcase name block rounds (scan + e.packed.length)
          (if foldCase upcase name < entryKey upcase e ∧ insertBefore = none then some scan
          else insertBefore) := by
  have hlength : toUShort (2 * e.name.length) / 2 = e.name.length := by
    unfold toUShort
    rw [Nat.mod_eq_of_lt he.name_length]
    omega
  conv_lhs => unfold findEntry
  rw [hblock]
  dsimp only
  rw [if_neg (headD_packed he rest), wcslen_packed he, packed_append, delimiter_text he,
    getElem?_delimiter, if_pos rfl, hlength, take_name, Nat.add_assoc, ← Entry.length_packed]
  simp only [rtlCompareUnicodeString_eq_zero, rtlCompareUnicodeString_neg]
  rfl

/-- The loop stops at the null that ends the block. -/
theorem findEntry_end (hblock : (block.drop scan).headD 0 = 0) :
    findEntry upcase name block rounds scan insertBefore = ⟨false, 0, 0, insertBefore, scan⟩ := by
  cases rounds with
  | zero => rfl
  | succ rounds =>
    unfold findEntry
    dsimp only
    rw [if_pos hblock]

theorem drop_after {rest : List WCHAR} (hblock : block.drop scan = e.packed ++ rest) :
    block.drop (scan + e.packed.length) = rest := by
  rw [← List.drop_drop, hblock, List.drop_left]

/-- The entry of the name is found where it is. -/
theorem findEntry_found (hvalid : ∀ x ∈ before, x.Valid) (he : e.Valid)
    (hbefore : ∀ x ∈ before, entryKey upcase x ≠ foldCase upcase name)
    (hkey : entryKey upcase e = foldCase upcase name) (hrounds : before.length < rounds)
    (hblock : block.drop scan = pack before ++ (e.packed ++ tail)) :
    ∃ i, findEntry upcase name block rounds scan insertBefore =
      ⟨true, scan + (pack before).length, scan + (pack before).length + e.packed.length, i,
        scan + (pack before).length + e.packed.length⟩ := by
  induction before generalizing rounds scan insertBefore with
  | nil =>
    obtain ⟨rounds, rfl⟩ := Nat.exists_eq_succ_of_ne_zero (Nat.ne_of_gt hrounds)
    refine ⟨insertBefore, ?_⟩
    rw [Nat.succ_eq_add_one, findEntry_cons he hblock, if_pos hkey.symm]
    simp
  | cons x before ih =>
    obtain ⟨rounds, rfl⟩ := Nat.exists_eq_succ_of_ne_zero (Nat.ne_of_gt (Nat.zero_lt_of_lt hrounds))
    have hx := hvalid x List.mem_cons_self
    rw [pack_cons, List.append_assoc] at hblock
    rw [Nat.succ_eq_add_one, findEntry_cons hx hblock,
      if_neg (fun h => hbefore x List.mem_cons_self h.symm)]
    obtain ⟨i, hi⟩ := ih (fun y hy => hvalid y (List.mem_cons_of_mem _ hy))
      (fun y hy => hbefore y (List.mem_cons_of_mem _ hy))
      (Nat.lt_of_succ_lt_succ hrounds) (drop_after hblock)
    refine ⟨i, ?_⟩
    rw [hi, pack_cons, List.length_append, Nat.add_assoc scan]

/-- Past the place for the name, the loop only looks for its end. -/
theorem findEntry_after (hvalid : ∀ x ∈ after, x.Valid)
    (hafter : ∀ x ∈ after, entryKey upcase x ≠ foldCase upcase name) (hrounds : after.length ≤ rounds)
    (hblock : block.drop scan = pack after ++ tail) (htail : tail.headD 0 = 0) {i : Nat} :
    findEntry upcase name block rounds scan (some i) =
      ⟨false, 0, 0, some i, scan + (pack after).length⟩ := by
  induction after generalizing rounds scan with
  | nil =>
    rw [pack_nil, List.nil_append] at hblock
    rw [findEntry_end (by rw [hblock]; exact htail)]
    rfl
  | cons x after ih =>
    obtain ⟨rounds, rfl⟩ := Nat.exists_eq_succ_of_ne_zero (Nat.ne_of_gt (Nat.zero_lt_of_lt hrounds))
    rw [pack_cons, List.append_assoc] at hblock
    rw [Nat.succ_eq_add_one, findEntry_cons (hvalid x List.mem_cons_self) hblock,
      if_neg (fun h => hafter x List.mem_cons_self h.symm), if_neg (fun h => nomatch h.2),
      ih (fun y hy => hvalid y (List.mem_cons_of_mem _ hy))
        (fun y hy => hafter y (List.mem_cons_of_mem _ hy))
        (Nat.le_of_succ_le_succ hrounds) (drop_after hblock),
      pack_cons, List.length_append, Nat.add_assoc scan]

/-- A name that is not there belongs before the first greater one, or at the end. -/
theorem findEntry_notFound (hvalid : ∀ x ∈ before ++ after, x.Valid)
    (hbefore : ∀ x ∈ before, entryKey upcase x < foldCase upcase name)
    (hafter : ∀ x ∈ after, foldCase upcase name < entryKey upcase x)
    (hrounds : (before ++ after).length ≤ rounds)
    (hblock : block.drop scan = pack (before ++ after) ++ tail) (htail : tail.headD 0 = 0) :
    ∃ i, findEntry upcase name block rounds scan none =
        ⟨false, 0, 0, i, scan + (pack (before ++ after)).length⟩ ∧
      i.getD (scan + (pack (before ++ after)).length) = scan + (pack before).length := by
  induction before generalizing rounds scan with
  | nil =>
    rw [List.nil_append] at hvalid hrounds hblock ⊢
    cases after with
    | nil =>
      rw [pack_nil, List.nil_append] at hblock
      refine ⟨none, ?_, rfl⟩
      rw [findEntry_end (by rw [hblock]; exact htail)]
      rfl
    | cons x after =>
      obtain ⟨rounds, rfl⟩ :=
        Nat.exists_eq_succ_of_ne_zero (Nat.ne_of_gt (Nat.zero_lt_of_lt hrounds))
      have hlt := hafter x List.mem_cons_self
      rw [pack_cons, List.append_assoc] at hblock
      refine ⟨some scan, ?_, rfl⟩
      rw [Nat.succ_eq_add_one, findEntry_cons (hvalid x List.mem_cons_self) hblock,
        if_neg (ne_of_lt hlt), if_pos ⟨hlt, rfl⟩,
        findEntry_after (fun y hy => hvalid y (List.mem_cons_of_mem _ hy))
          (fun y hy => ne_of_gt (hafter y (List.mem_cons_of_mem _ hy)))
          (Nat.le_of_succ_le_succ hrounds) (drop_after hblock) htail,
        pack_cons, List.length_append, Nat.add_assoc scan]
  | cons x before ih =>
    obtain ⟨rounds, rfl⟩ := Nat.exists_eq_succ_of_ne_zero (Nat.ne_of_gt (Nat.zero_lt_of_lt hrounds))
    have hlt := hbefore x List.mem_cons_self
    rw [List.cons_append, pack_cons, List.append_assoc] at hblock
    obtain ⟨i, hi, hplace⟩ := ih (fun y hy => hvalid y (List.mem_cons_of_mem _ hy))
      (fun y hy => hbefore y (List.mem_cons_of_mem _ hy)) (Nat.le_of_succ_le_succ hrounds)
      (drop_after hblock)
    refine ⟨i, ?_, ?_⟩
    · rw [Nat.succ_eq_add_one, findEntry_cons (hvalid x List.mem_cons_self) hblock,
        if_neg (ne_of_gt hlt), if_neg (fun h => lt_asymm hlt h.1), hi, List.cons_append, pack_cons,
        List.length_append, Nat.add_assoc scan]
    · rw [List.cons_append, pack_cons, pack_cons, List.length_append, List.length_append,
        ← Nat.add_assoc, hplace, Nat.add_assoc scan]

/-- The second loop goes to the null that ends the block. -/
theorem skipEntries_packed (hvalid : ∀ x ∈ es, x.Valid) (hrounds : es.length ≤ rounds)
    (hblock : block.drop scan = pack es ++ tail) (htail : tail.headD 0 = 0) :
    skipEntries block rounds scan = scan + (pack es).length := by
  induction es generalizing rounds scan with
  | nil =>
    rw [pack_nil, List.nil_append] at hblock
    cases rounds with
    | zero => rfl
    | succ rounds =>
      unfold skipEntries
      dsimp only
      rw [hblock, if_pos htail]
      rfl
  | cons x es ih =>
    obtain ⟨rounds, rfl⟩ := Nat.exists_eq_succ_of_ne_zero (Nat.ne_of_gt (Nat.zero_lt_of_lt hrounds))
    have hx := hvalid x List.mem_cons_self
    rw [pack_cons, List.append_assoc] at hblock
    rw [Nat.succ_eq_add_one]
    unfold skipEntries
    dsimp only
    rw [hblock, if_neg (headD_packed hx _), wcslen_packed hx, Nat.add_assoc, ← Entry.length_packed,
      ih (fun y hy => hvalid y (List.mem_cons_of_mem _ hy)) (Nat.le_of_succ_le_succ hrounds)
        (drop_after hblock),
      pack_cons, List.length_append, Nat.add_assoc]

/-! ## Editing a packed block -/

/-- The entry a call sets. -/
def setEntry (name value : UnicodeString) : Entry := ⟨name.chars, value.chars⟩

/-- The entries a call puts in the place of the old one. -/
def newEntries (name : UnicodeString) : Option UnicodeString → List Entry
  | some value => [setEntry name value]
  | none => []

/-- The byte left over of a value with an odd `Length`. -/
def oddByte : Option UnicodeString → Nat
  | some value => value.length % 2
  | none => 0

theorem newEntry_eq (name : UnicodeString) (value : Option UnicodeString) :
    newEntry name value = pack (newEntries name value) := by
  cases value with
  | none => rfl
  | some value => simp [newEntry, newEntries, setEntry, Entry.packed, Entry.text]

/-- `NewEntrySize` is the size of the entry, and of the byte that is left over. -/
theorem newEntrySize_eq {name : UnicodeString} {value : Option UnicodeString}
    (hname : nameAccepted (some name) = true) (hvalue : valueAccepted value = true) :
    newEntrySize name value = 2 * (pack (newEntries name value)).length + oddByte value := by
  cases value with
  | none => rfl
  | some value =>
    simp only [nameAccepted, valueAccepted, Bool.and_eq_true, decide_eq_true_eq,
      Bool.or_eq_true] at hname hvalue
    have hnameLength := name.length_chars (.inr hname.1.1.1)
    have hvalueLength := value.length_chars hvalue
    simp only [newEntrySize, newEntries, pack_cons, pack_nil, List.append_nil,
      Entry.length_packed, Entry.length_text, setEntry, oddByte]
    omega

/-- The prefix, the new entry, the suffix and the cleared memory make up the new block. -/
theorem assemble {front mid back new out : List WCHAR} {size : Nat}
    (hblock : block = front ++ mid ++ back ++ tail) (htail : tail.headD 0 = 0)
    (hsize : size / 2 = front.length + new.length + back.length + 1)
    (hout : out = block.take front.length ++ new ++
      (block.drop (front.length + mid.length)).take
        (front.length + mid.length + back.length - (front.length + mid.length) + 1)) :
    out ++ List.replicate (size / 2 - out.length) 0 = front ++ new ++ back ++ [0] := by
  have hfront : block.take front.length = front := by
    rw [hblock, List.append_assoc, List.append_assoc, List.take_left]
  have hback : block.drop (front.length + mid.length) = back ++ tail := by
    rw [hblock, ← List.length_append, List.append_assoc (front ++ mid), List.drop_left]
  have hcount : front.length + mid.length + back.length - (front.length + mid.length) + 1 =
      back.length + 1 := by omega
  have htake : (back ++ tail).take (back.length + 1) = back ++ tail.take 1 :=
    List.take_length_add_append 1
  rw [hfront, hback, hcount, htake, ← List.append_assoc] at hout
  have hlength : (front ++ new ++ back).length = front.length + new.length + back.length := by
    simp only [List.length_append]
  rw [hsize, hout, List.length_append, hlength]
  cases tail with
  | nil =>
    have hone : front.length + new.length + back.length + 1 -
        (front.length + new.length + back.length + 0) = 1 := by omega
    rw [List.take_nil, List.append_nil, List.length_nil, hone]
    rfl
  | cons c tail =>
    obtain rfl : c = 0 := htail
    rw [List.take_succ_cons, List.take_zero, List.length_singleton, Nat.sub_self,
      List.replicate_zero, List.append_nil]

theorem editBlock_of_search {old : Option (List WCHAR)} {name : UnicodeString}
    {value : Option UnicodeString} (mid : List Entry) {r : Search}
    (hname : nameAccepted (some name) = true) (hvalue : valueAccepted value = true)
    (hblock : old.getD [] = pack (before ++ mid ++ after) ++ tail) (htail : tail.headD 0 = 0)
    (hsearch : findEntry upcase name.chars (old.getD []) (old.getD []).length 0 none = r)
    (hscan : skipEntries (old.getD []) (old.getD []).length r.scan =
      (pack (before ++ mid ++ after)).length)
    (hstart : (if r.found then r.editStart else r.insertBefore.getD
      (pack (before ++ mid ++ after)).length) = (pack before).length)
    (hend : (if r.found then r.editEnd else (pack before).length) =
      (pack before).length + (pack mid).length)
    (hdo : ¬ (value = none ∧ r.found = false)) :
    editBlock upcase old name value =
      some (2 * ((pack (before ++ newEntries name value ++ after)).length + 1) + oddByte value,
        pack (before ++ newEntries name value ++ after) ++ [0]) := by
  have hlength : (pack (before ++ mid ++ after)).length =
      (pack before).length + (pack mid).length + (pack after).length := by
    simp only [pack_append, List.length_append]
  unfold editBlock
  dsimp only
  rw [hsearch, if_neg hdo, hscan, hstart, hend, newEntrySize_eq hname hvalue, newEntry_eq]
  have hsize : max (((pack (before ++ mid ++ after)).length + 1) * 2 -
        ((pack before).length + (pack mid).length - (pack before).length) * 2 +
          (2 * (pack (newEntries name value)).length + oddByte value)) 2 =
      2 * ((pack (before ++ newEntries name value ++ after)).length + 1) + oddByte value := by
    simp only [pack_append, List.length_append]
    omega
  rw [hsize]
  have hodd : oddByte value < 2 := by
    cases value with
    | none => exact Nat.zero_lt_two
    | some value => exact Nat.mod_lt _ Nat.zero_lt_two
  obtain ⟨out, hout⟩ : ∃ out, out = (old.getD []).take (pack before).length ++
      pack (newEntries name value) ++
        ((old.getD []).drop ((pack before).length + (pack mid).length)).take
          ((pack before).length + (pack mid).length + (pack after).length -
            ((pack before).length + (pack mid).length) + 1) := ⟨_, rfl⟩
  have hhalf : (2 * ((pack (before ++ newEntries name value ++ after)).length + 1) +
      oddByte value) / 2 =
        (pack before).length + (pack (newEntries name value)).length + (pack after).length + 1 := by
    simp only [pack_append, List.length_append]
    omega
  rw [pack_append, pack_append] at hblock
  have hnew := assemble hblock htail hhalf hout
  rw [hlength, ← hout, hnew, pack_append, pack_append]

/-- The entry of the name is replaced, or removed. -/
theorem editBlock_found {old : Option (List WCHAR)} {name : UnicodeString}
    {value : Option UnicodeString} (hname : nameAccepted (some name) = true)
    (hvalue : valueAccepted value = true) (hvalid : ∀ x ∈ before ++ e :: after, x.Valid)
    (hbefore : ∀ x ∈ before, entryKey upcase x ≠ foldCase upcase name.chars)
    (hkey : entryKey upcase e = foldCase upcase name.chars)
    (hblock : old.getD [] = pack (before ++ e :: after) ++ tail) (htail : tail.headD 0 = 0) :
    editBlock upcase old name value =
      some (2 * ((pack (before ++ newEntries name value ++ after)).length + 1) + oddByte value,
        pack (before ++ newEntries name value ++ after) ++ [0]) := by
  have hsame : before ++ [e] ++ after = before ++ e :: after := by simp
  have hlength : (pack (before ++ e :: after)).length ≤ (old.getD []).length := by
    rw [hblock, List.length_append]
    exact Nat.le_add_right _ _
  have hrounds : (before ++ e :: after).length ≤ (old.getD []).length :=
    Nat.le_trans (length_le_pack _) hlength
  rw [List.length_append, List.length_cons] at hrounds
  have hdrop : (old.getD []).drop 0 = pack before ++ (e.packed ++ (pack after ++ tail)) := by
    rw [List.drop_zero, hblock]
    simp
  have hbeforeRounds : before.length < (old.getD []).length := by omega
  have hafterRounds : after.length ≤ (old.getD []).length := by omega
  have hafterValid : ∀ x ∈ after, x.Valid := fun x hx =>
    hvalid x (List.mem_append_right _ (List.mem_cons_of_mem _ hx))
  obtain ⟨i, hi⟩ : ∃ i, findEntry upcase name.chars (old.getD []) (old.getD []).length 0 none =
      ⟨true, 0 + (pack before).length, 0 + (pack before).length + e.packed.length, i,
        0 + (pack before).length + e.packed.length⟩ :=
    findEntry_found (fun x hx => hvalid x (List.mem_append_left _ hx))
      (hvalid e (List.mem_append_right _ List.mem_cons_self)) hbefore hkey hbeforeRounds hdrop
  -- the second loop goes on behind the entry
  have hscan : skipEntries (old.getD []) (old.getD []).length
      (0 + (pack before).length + e.packed.length) = (pack (before ++ [e] ++ after)).length := by
    rw [skipEntries_packed hafterValid hafterRounds _ htail]
    · simp
      omega
    · exact drop_after (by rw [← List.drop_drop, hdrop, List.drop_left])
  exact editBlock_of_search [e] hname hvalue (by rw [hsame]; exact hblock) htail hi hscan
    (by simp) (by simp) (fun h => nomatch h.2)

/-- A new name goes to its place. -/
theorem editBlock_insert {old : Option (List WCHAR)} {name value : UnicodeString}
    (hname : nameAccepted (some name) = true) (hvalue : valueAccepted (some value) = true)
    (hvalid : ∀ x ∈ before ++ after, x.Valid)
    (hbefore : ∀ x ∈ before, entryKey upcase x < foldCase upcase name.chars)
    (hafter : ∀ x ∈ after, foldCase upcase name.chars < entryKey upcase x)
    (hblock : old.getD [] = pack (before ++ after) ++ tail) (htail : tail.headD 0 = 0) :
    editBlock upcase old name (some value) =
      some (2 * ((pack (before ++ setEntry name value :: after)).length + 1) + value.length % 2,
        pack (before ++ setEntry name value :: after) ++ [0]) := by
  have hsame : before ++ [] ++ after = before ++ after := by simp
  have hlength : (pack (before ++ after)).length ≤ (old.getD []).length := by
    rw [hblock, List.length_append]
    exact Nat.le_add_right _ _
  have hrounds := Nat.le_trans (length_le_pack (before ++ after)) hlength
  have hdrop : (old.getD []).drop 0 = pack (before ++ after) ++ tail := hblock
  obtain ⟨i, hi, hplace⟩ := findEntry_notFound hvalid hbefore hafter hrounds hdrop htail
  rw [Nat.zero_add] at hi hplace
  have hnone : ∀ x ∈ ([] : List Entry), x.Valid := nofun
  have hscan : skipEntries (old.getD []) (old.getD []).length (pack (before ++ after)).length =
      (pack (before ++ [] ++ after)).length := by
    rw [hsame, skipEntries_packed hnone (Nat.zero_le _) _ htail]
    · rfl
    · rw [hblock, List.drop_left]
      rfl
  have hedit := editBlock_of_search [] hname hvalue (by rw [hsame]; exact hblock) htail hi hscan
    (by rw [hsame]; simpa using hplace) (by simp) (fun h => nomatch h.1)
  rw [hedit]
  simp [newEntries, oddByte]

/-- There is nothing to delete. -/
theorem editBlock_missing {old : Option (List WCHAR)} {name : UnicodeString}
    (hvalid : ∀ x ∈ before ++ after, x.Valid)
    (hbefore : ∀ x ∈ before, entryKey upcase x < foldCase upcase name.chars)
    (hafter : ∀ x ∈ after, foldCase upcase name.chars < entryKey upcase x)
    (hblock : old.getD [] = pack (before ++ after) ++ tail) (htail : tail.headD 0 = 0) :
    editBlock upcase old name none = none := by
  have hlength : (pack (before ++ after)).length ≤ (old.getD []).length := by
    rw [hblock, List.length_append]
    exact Nat.le_add_right _ _
  have hrounds := Nat.le_trans (length_le_pack (before ++ after)) hlength
  have hdrop : (old.getD []).drop 0 = pack (before ++ after) ++ tail := hblock
  obtain ⟨i, hi, -⟩ := findEntry_notFound hvalid hbefore hafter hrounds hdrop htail
  unfold editBlock
  dsimp only
  rw [hi, if_pos ⟨rfl, rfl⟩]

/-! ## Querying a packed block -/

/-- The test of the query: its own way to look for the end of a name comes to the same. -/
theorem findValue_test (he : e.Valid) (rest : List WCHAR) :
    (name.length < wcslen (e.packed ++ rest) ∧
      (e.packed ++ rest)[name.length]? = some equalsSign ∧
        rtlEqualUnicodeString upcase name ((e.packed ++ rest).take name.length) true = true ∧
          (wcschr ((e.packed ++ rest).drop 1) equalsSign).map (· + 1) = some name.length) ↔
      entryKey upcase e = foldCase upcase name := by
  have hpos := List.length_pos_of_ne_nil he.name_ne_nil
  have hsign : wcschr ((e.packed ++ rest).drop 1) equalsSign = some e.name.tail.length := by
    unfold wcschr
    rw [packed_append, takeWhile_name he]
    dsimp only
    rw [List.getElem?_drop, List.length_tail, Nat.add_sub_cancel' hpos,
      getElem?_delimiter, if_pos rfl]
  have hend : e.name.tail.length + 1 = e.name.length := by
    rw [List.length_tail]
    omega
  rw [hsign, Option.map_some, hend, Option.some_inj, rtlEqualUnicodeString_iff]
  unfold entryKey
  constructor
  · rintro ⟨-, -, hequal, hlength⟩
    rw [← hlength, packed_append, take_name] at hequal
    exact hequal.symm
  · intro hkey
    have hlength : e.name.length = name.length := by
      rw [← length_foldCase upcase e.name, hkey, length_foldCase]
    rw [← hlength, wcslen_packed he, packed_append, take_name, Entry.length_text]
    exact ⟨by omega, getElem?_delimiter e _, hkey.symm, rfl⟩

/-- The query finds the entry of the name. -/
theorem findValue_packed (hvalid : ∀ x ∈ es, x.Valid) (hrounds : es.length ≤ rounds)
    (hblock : block.drop scan = pack es ++ tail) (htail : tail.headD 0 = 0) :
    findValue upcase name block rounds scan =
      (find (entryKey upcase) (foldCase upcase name) es).map fun e => (e.name, e.value) := by
  induction es generalizing rounds scan with
  | nil =>
    cases rounds with
    | zero => rfl
    | succ rounds =>
      rw [pack_nil, List.nil_append] at hblock
      unfold findValue
      dsimp only
      rw [hblock, if_pos (wcslen_null htail)]
      rfl
  | cons e es ih =>
    obtain ⟨rounds, rfl⟩ := Nat.exists_eq_succ_of_ne_zero (Nat.ne_of_gt (Nat.zero_lt_of_lt hrounds))
    have he := hvalid e List.mem_cons_self
    rw [pack_cons, List.append_assoc] at hblock
    rw [Nat.succ_eq_add_one, find_cons]
    unfold findValue
    dsimp only
    rw [hblock, if_neg (wcslen_packed_ne_zero he _)]
    simp only [findValue_test he]
    split
    · rename_i hkey
      have hlength : name.length = e.name.length := by
        rw [← length_foldCase upcase e.name, ← length_foldCase upcase name]
        exact congrArg List.length hkey.symm
      have hvalue : toUShort ((e.text.length - 1) * 2 - 2 * e.name.length) / 2 =
          e.value.length := by
        unfold toUShort
        have := he.value_length
        rw [Entry.length_text, Nat.mod_eq_of_lt (by omega)]
        omega
      rw [hlength, wcslen_packed he, hvalue, take_value, packed_append, take_name]
      rfl
    · rw [wcslen_packed he, Nat.add_assoc, ← Entry.length_packed]
      exact ih (fun y hy => hvalid y (List.mem_cons_of_mem _ hy)) (Nat.le_of_succ_le_succ hrounds)
        (drop_after hblock)

end Ldk.Environment
