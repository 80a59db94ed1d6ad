import Ldk.Environment.Block

set_option linter.unusedSectionVars false

/-!
# The environment as a map

A sequence of calls from an empty environment leaves a block that is the packed form of what the
calls have set: sorted, with no name twice, and a query gives the value last set. That part holds
of every sequence. The doubled null at the end and the recorded size also need that no call
deletes the last variable, that the process block is not set through a pointer, that no value has
an odd `Length`, and that the block stays below 4 GiB (`environment_is_faithful`).
-/

namespace Ldk.Environment

open TransitionSystem SortedEntries

variable {π : Type} [DecidableEq π] (upcase : WCHAR → WCHAR)

/-! ## What the calls set -/

/-- What a call makes of the value of a name. -/
def Call.assign (place : Place π) (name : List WCHAR) (old : Option (List WCHAR)) :
    Call π → Option (List WCHAR)
  | .set environment (some n) value allocated =>
    if environment.getD .process = place ∧ nameAccepted (some n) = true ∧
        valueAccepted value = true ∧ allocated = true ∧
          rtlEqualUnicodeString upcase n.chars name true = true then
      value.map UnicodeString.chars
    else old
  | _ => old

/-- The value last set and not deleted since, by calls that are neither rejected nor fail. -/
def lastSet (place : Place π) (calls : List (Call π)) (name : List WCHAR) :
    Option (List WCHAR) :=
  calls.foldl (fun old call => call.assign upcase place name old) none

/-- The strings of the call have no nulls. -/
def Call.WithoutNulls : Call π → Prop
  | .set _ name value _ => (∀ n ∈ name, 0 ∉ n.chars) ∧ ∀ v ∈ value, 0 ∉ v.chars
  | .query _ _ _ => True

instance : (call : Call π) → Decidable call.WithoutNulls
  | .set _ name value _ =>
    inferInstanceAs (Decidable ((∀ n ∈ name, 0 ∉ n.chars) ∧ ∀ v ∈ value, 0 ∉ v.chars))
  | .query _ _ _ => inferInstanceAs (Decidable True)

/-! ## The condition -/

/-- The strings of a block. -/
def strings (block : List WCHAR) : Nat → Nat → List (List WCHAR)
  | 0, _ => []
  | rounds + 1, scan =>
    let p := block.drop scan
    if wcslen p = 0 then [] else p.take (wcslen p) :: strings block rounds (scan + wcslen p + 1)

/-- Those of other names. -/
def otherStrings (block name : List WCHAR) : List (List WCHAR) :=
  (strings block block.length 0).filter fun t =>
    !rtlEqualUnicodeString upcase name (t.take (delimiter t)) true

/-- The block that a call sets a variable in. -/
def State.current (s : State π) (environment : Option (Place π)) : List WCHAR :=
  (s.block (environment.getD .process)).getD []

/-- What a call must meet that replaces a block, of which it leaves the strings `others`: it does
not delete the last variable, it does not set the process block through a pointer, and for the
process the value has an even `Length` and the block stays below 4 GiB. -/
def KeepsBlock (environment : Option (Place π)) (name : UnicodeString)
    (value : Option UnicodeString) (others : List (List WCHAR)) : Prop :=
  (value = none → others ≠ []) ∧ environment ≠ some .process ∧
    (environment = none → oddByte value = 0 ∧
      2 * ((others.map (·.length + 1)).sum + (newEntry name value).length + 1) < 2 ^ 32)

/-- The call meets the condition, unless it is rejected, fails or has nothing to delete. -/
def Keeps (s : State π) : Call π → Prop
  | .set environment (some name) value allocated =>
    nameAccepted (some name) = true → valueAccepted value = true → allocated = true →
      (value = none → otherStrings upcase (s.current environment) name.chars ≠
        strings (s.current environment) (s.current environment).length 0) →
      KeepsBlock environment name value
        (otherStrings upcase (s.current environment) name.chars)
  | _ => True

instance (environment : Option (Place π)) (name : UnicodeString) (value : Option UnicodeString)
    (others : List (List WCHAR)) : Decidable (KeepsBlock environment name value others) :=
  inferInstanceAs (Decidable (_ ∧ _))

instance (s : State π) : (call : Call π) → Decidable (Keeps upcase s call)
  | .set _ (some _) _ _ => inferInstanceAs (Decidable (_ → _))
  | .set _ none _ _ => inferInstanceAs (Decidable True)
  | .query _ _ _ => inferInstanceAs (Decidable True)

/-- The calls that are looked at, when they meet the condition. -/
def Proper (s : State π) (call : Call π) : Prop := call.WithoutNulls ∧ Keeps upcase s call

instance (s : State π) (call : Call π) : Decidable (Proper upcase s call) :=
  inferInstanceAs (Decidable (_ ∧ _))

/-! ## Well-formed blocks and queries -/

/-- Entries of the form `name=value` that end with a null, in strictly ascending order of their
names, so that no name occurs twice, and then one more null. -/
structure WellFormed (block : List WCHAR) : Prop where
  entries : ∃ es : List Entry, block = pack es ++ [0] ∧ (∀ e ∈ es, e.Valid) ∧
    es.Pairwise fun a b => rtlCompareUnicodeString upcase a.name b.name < 0
  doubleNull : ∃ front, block = front ++ [0, 0]

/-- What a query for a name answers that has this value. -/
def Answer.ofValue (value : Option (List WCHAR)) (maximumLength : Nat) : Answer :=
  match value with
  | some text => .value text maximumLength
  | none => .notFound

/-- The block a query is about. -/
def State.queried (s : State π) (environment : Option (Place π)) : Place π :=
  (environment.filter fun place => (s.block place).isSome).getD .process

/-- What holds of a place after some calls. -/
structure Faithful (calls : List (Call π)) (s : State π) (place : Place π) : Prop where
  wellFormed : s.edited place = true → ∃ block, s.block place = some block ∧ WellFormed upcase block
  /-- The recorded size is that of the block, in bytes. -/
  recorded : place = .process → s.edited place = true →
    s.environmentSize = 2 * ((s.block place).getD []).length
  query : ∀ environment name maximumLength, s.queried environment = place →
    ¬ IsPseudo upcase name →
      (s.rtlQueryEnvironmentVariable upcase environment name maximumLength).2 =
        .ofValue (lastSet upcase place calls name) maximumLength

/-- A set that is rejected or fails leaves the blocks, the recorded size and the map unchanged. -/
def FailuresKeep (calls : List (Call π)) (s : State π) : Prop :=
  ∀ environment name value allocated,
    (s.rtlSetEnvironmentVariable upcase environment name value allocated).2.ntSuccess = false →
      (s.rtlSetEnvironmentVariable upcase environment name value allocated).1.block = s.block ∧
      (s.rtlSetEnvironmentVariable upcase environment name value allocated).1.environmentSize =
        s.environmentSize ∧
      ∀ place n, lastSet upcase place (calls ++ [.set environment name value allocated]) n =
        lastSet upcase place calls n

/-! ## The invariant -/

variable {upcase}

/-- The block of a place is the packed form of these entries, which are what the calls have set. -/
structure Holds (upcase : WCHAR → WCHAR) (calls : List (Call π)) (s : State π) (place : Place π)
    (es : List Entry) (tail : List WCHAR) : Prop where
  block : (s.block place).getD [] = pack es ++ tail
  null : tail.headD 0 = 0
  valid : ∀ e ∈ es, e.Valid
  sorted : Sorted (entryKey upcase) es
  found : ∀ name, (find (entryKey upcase) (foldCase upcase name) es).map Entry.value =
    lastSet upcase place calls name

/-- What the condition adds. -/
structure Kept (s : State π) (place : Place π) (es : List Entry) : Prop where
  nonempty : es ≠ []
  recorded : place = .process → s.environmentSize = 2 * ((pack es).length + 1)

/-- The invariant; `kept` when the calls meet the condition. -/
structure Sound (upcase : WCHAR → WCHAR) (kept : Prop) (calls : List (Call π)) (s : State π) :
    Prop where
  blocks : ∀ place, ∃ es tail, Holds upcase calls s place es tail ∧
    (s.edited place = true → tail = [0] ∧ (kept → Kept s place es))
  cache : ∀ name text, s.cache = some (name, text) →
    lastSet upcase .process calls name = some text

/-! ## The strings of a packed block -/

variable {es before after : List Entry} {e : Entry} {name block tail : List WCHAR}
  {rounds scan : Nat}

theorem strings_packed (hvalid : ∀ x ∈ es, x.Valid) (hrounds : es.length ≤ rounds)
    (hblock : block.drop scan = pack es ++ tail) (htail : tail.headD 0 = 0) :
    strings block rounds scan = es.map Entry.text := by
  induction es generalizing rounds scan with
  | nil =>
    cases rounds with
    | zero => rfl
    | succ rounds =>
      rw [pack_nil, List.nil_append] at hblock
      unfold strings
      dsimp only
      rw [hblock, if_pos (wcslen_null htail)]
      rfl
  | cons x es ih =>
    obtain ⟨rounds, rfl⟩ := Nat.exists_eq_succ_of_ne_zero (Nat.ne_of_gt (Nat.zero_lt_of_lt hrounds))
    have hx := hvalid x List.mem_cons_self
    rw [pack_cons, List.append_assoc] at hblock
    rw [Nat.succ_eq_add_one]
    unfold strings
    dsimp only
    rw [hblock, if_neg (wcslen_packed_ne_zero hx _), wcslen_packed hx, Nat.add_assoc,
      ← Entry.length_packed, packed_append, List.take_left,
      ih (fun y hy => hvalid y (List.mem_cons_of_mem _ hy)) (Nat.le_of_succ_le_succ hrounds)
        (drop_after hblock)]
    rfl

/-- The strings of other names are those of the entries with another key. -/
theorem otherStrings_packed (upcase : WCHAR → WCHAR) (name : List WCHAR)
    (hvalid : ∀ x ∈ es, x.Valid) (hblock : block = pack es ++ tail) (htail : tail.headD 0 = 0) :
    strings block block.length 0 = es.map Entry.text ∧
      otherStrings upcase block name =
        (es.filter fun x => decide (entryKey upcase x ≠ foldCase upcase name)).map Entry.text := by
  have hdrop : block.drop 0 = pack es ++ tail := hblock
  have hrounds : es.length ≤ block.length := by
    rw [hblock, List.length_append]
    exact Nat.le_trans (length_le_pack es) (Nat.le_add_right _ _)
  have hstrings := strings_packed hvalid hrounds hdrop htail
  refine ⟨hstrings, ?_⟩
  unfold otherStrings
  rw [hstrings, List.filter_map]
  congr 1
  apply List.filter_congr
  intro x hx
  have hname : x.text.take (delimiter x.text) = x.name := by
    have hdelimiter := delimiter_text (hvalid x hx) []
    have htake := take_name x []
    rw [List.append_nil] at hdelimiter htake
    rw [hdelimiter, htake]
  rw [Function.comp_apply, hname, Bool.eq_iff_iff, Bool.not_eq_true', decide_eq_true_eq,
    ← Bool.not_eq_true, rtlEqualUnicodeString_iff]
  exact not_congr eq_comm

/-- The room the entries take up. -/
theorem length_pack (es : List Entry) :
    (pack es).length = ((es.map Entry.text).map (·.length + 1)).sum := by
  induction es with
  | nil => rfl
  | cons e es ih =>
    rw [pack_cons, List.length_append, ih, Entry.length_packed]
    rfl

/-! ## What an edit does -/

/-- The entries after an edit, and the size of the block. -/
structure Edited (upcase : WCHAR → WCHAR) (block : List WCHAR) (name : UnicodeString)
    (value : Option UnicodeString) (es es' : List Entry) : Prop where
  valid : ∀ e ∈ es', e.Valid
  sorted : Sorted (entryKey upcase) es'
  found : ∀ n, (find (entryKey upcase) (foldCase upcase n) es').map Entry.value =
    if foldCase upcase name.chars = foldCase upcase n then value.map UnicodeString.chars
    else (find (entryKey upcase) (foldCase upcase n) es).map Entry.value
  others : (value = none → otherStrings upcase block name.chars ≠ []) → es' ≠ []
  changed : value = none →
    otherStrings upcase block name.chars ≠ strings block block.length 0
  size : (pack es').length =
    ((otherStrings upcase block name.chars).map (·.length + 1)).sum + (newEntry name value).length

/-- A name that passes the checks and has no nulls makes a valid entry. -/
theorem setEntry_valid {name value : UnicodeString} (hname : nameAccepted (some name) = true)
    (hvalue : valueAccepted (some value) = true) (hnameNull : 0 ∉ name.chars)
    (hvalueNull : 0 ∉ value.chars) : (setEntry name value).Valid := by
  simp only [nameAccepted, valueAccepted, Bool.and_eq_true, decide_eq_true_eq,
    Bool.or_eq_true] at hname hvalue
  have hnameLength := name.length_chars (.inr hname.1.1.1)
  have hvalueLength := value.length_chars hvalue
  have hnameLt := name.length_lt
  have hvalueLt := value.length_lt
  constructor
  case name_ne_nil =>
    apply List.ne_nil_of_length_pos
    change 0 < name.chars.length
    omega
  case name_tail => exact hname.2
  case name_null => exact hnameNull
  case name_length =>
    change 2 * name.chars.length < 2 ^ 16
    omega
  case value_null => exact hvalueNull
  case value_length =>
    change 2 * value.chars.length < 2 ^ 16
    omega

/-- An entry is alone in having its key. -/
theorem filter_split {k : List Nat} (hsorted : Sorted (entryKey upcase) (before ++ e :: after))
    (hkey : entryKey upcase e = k) :
    (before ++ e :: after).filter (fun x => decide (entryKey upcase x ≠ k)) = before ++ after := by
  obtain ⟨-, hafter, hcross⟩ := List.pairwise_append.mp hsorted
  have hbefore : before.filter (fun x => decide (entryKey upcase x ≠ k)) = before := by
    apply List.filter_eq_self.mpr
    intro x hx
    exact decide_eq_true (hkey ▸ ne_of_lt (hcross x hx e List.mem_cons_self))
  have hrest : after.filter (fun x => decide (entryKey upcase x ≠ k)) = after := by
    apply List.filter_eq_self.mpr
    intro x hx
    exact decide_eq_true (hkey ▸ ne_of_gt ((List.pairwise_cons.mp hafter).1 x hx))
  rw [List.filter_append, hbefore, List.filter_cons, if_neg (by simpa using hkey), hrest]

/-- An edit sets or deletes the one name, and leaves the other entries as they are. -/
theorem exists_edit {old : Option (List WCHAR)} {name : UnicodeString}
    {value : Option UnicodeString} (hname : nameAccepted (some name) = true)
    (hvalue : valueAccepted value = true) (hnameNull : 0 ∉ name.chars)
    (hvalueNull : ∀ v ∈ value, 0 ∉ v.chars) (hvalid : ∀ x ∈ es, x.Valid)
    (hsorted : Sorted (entryKey upcase) es) (hblock : old.getD [] = pack es ++ tail)
    (htail : tail.headD 0 = 0) :
    (editBlock upcase old name value = none ∧ value = none ∧
      find (entryKey upcase) (foldCase upcase name.chars) es = none) ∨
    ∃ es', editBlock upcase old name value =
        some (2 * ((pack es').length + 1) + oddByte value, pack es' ++ [0]) ∧
      Edited upcase (old.getD []) name value es es' := by
  obtain ⟨hstrings, hothers⟩ :=
    otherStrings_packed upcase name.chars hvalid hblock htail
  -- the entry of the name is replaced or removed, or a new one is inserted where it sorts
  cases hfind : find (entryKey upcase) (foldCase upcase name.chars) es with
  | some e =>
    obtain ⟨hkey, before, after, rfl, hbefore⟩ := Sorted.exists_split_of_find hfind
    right
    refine ⟨before ++ newEntries name value ++ after,
      editBlock_found hname hvalue hvalid hbefore hkey hblock htail, ?_⟩
    rw [filter_split hsorted hkey] at hothers
    cases value with
    | none =>
      rw [newEntries, List.append_nil]
      constructor
      case valid =>
        intro x hx
        apply hvalid
        rcases List.mem_append.mp hx with hx | hx
        · exact List.mem_append_left _ hx
        · exact List.mem_append_right _ (List.mem_cons_of_mem _ hx)
      case sorted => exact hsorted.remove
      case found =>
        intro n
        rw [hsorted.find_remove, hkey]
        split <;> rfl
      case others =>
        intro hne hnil
        apply hne rfl
        rw [hothers, hnil]
        rfl
      case changed =>
        intro _ heq
        rw [hothers, hstrings] at heq
        have := congrArg List.length heq
        simp at this
      case size =>
        rw [hothers, ← length_pack]
        rfl
    | some value =>
      have hentry := setEntry_valid hname hvalue hnameNull (hvalueNull value rfl)
      have hsame : before ++ newEntries name (some value) ++ after =
          before ++ setEntry name value :: after := by simp [newEntries]
      have hsetKey : entryKey upcase (setEntry name value) = entryKey upcase e := hkey.symm
      rw [hsame]
      constructor
      case valid =>
        intro x hx
        rcases List.mem_append.mp hx with hx | hx
        · exact hvalid x (List.mem_append_left _ hx)
        rcases List.mem_cons.mp hx with rfl | hx
        · exact hentry
        · exact hvalid x (List.mem_append_right _ (List.mem_cons_of_mem _ hx))
      case sorted => exact hsorted.replace hkey.symm
      case found =>
        intro n
        rw [hsorted.find_replace hsetKey, hsetKey, hkey]
        split <;> rfl
      case others => exact fun _ => by simp
      case changed => simp
      case size =>
        rw [hothers, ← length_pack, newEntry_eq]
        simp [newEntries]
        omega
  | none =>
    -- no entry has the name
    have hne : ∀ x ∈ es, entryKey upcase x ≠ foldCase upcase name.chars := by
      intro x hx
      unfold find at hfind
      simpa using List.find?_eq_none.mp hfind x hx
    have hall : es.filter (fun x => decide (entryKey upcase x ≠ foldCase upcase name.chars)) = es :=
      List.filter_eq_self.mpr fun x hx => decide_eq_true (hne x hx)
    obtain ⟨before, after, rfl, hbefore, hafter⟩ := hsorted.exists_split hne
    cases value with
    | none =>
      exact .inl ⟨editBlock_missing hvalid hbefore hafter hblock htail, rfl, rfl⟩
    | some value =>
      have hentry := setEntry_valid hname hvalue hnameNull (hvalueNull value rfl)
      have hnew : Sorted (entryKey upcase) (before ++ setEntry name value :: after) :=
        hsorted.insert hbefore hafter
      right
      refine ⟨before ++ setEntry name value :: after,
        editBlock_insert hname hvalue hvalid hbefore hafter hblock htail, ?_⟩
      constructor
      case valid =>
        intro x hx
        rcases List.mem_append.mp hx with hx | hx
        · exact hvalid x (List.mem_append_left _ hx)
        rcases List.mem_cons.mp hx with rfl | hx
        · exact hentry
        · exact hvalid x (List.mem_append_right _ hx)
      case sorted => exact hnew
      case found =>
        intro n
        have hsetKey : entryKey upcase (setEntry name value) = foldCase upcase name.chars := rfl
        rw [hnew.find_split, hsetKey]
        split <;> rfl
      case others => exact fun _ => by simp
      case changed => simp
      case size =>
        rw [hothers, hall, ← length_pack, newEntry_eq]
        simp [newEntries]
        omega

/-! ## Calls that change nothing -/

variable {kept : Prop} {cs : List (Call π)} {s s' : State π} {call : Call π} {place : Place π}
  {environment : Option (Place π)} {value : Option UnicodeString} {allocated : Bool}

theorem lastSet_append (cs : List (Call π)) (call : Call π) (place : Place π) (n : List WCHAR) :
    lastSet upcase place (cs ++ [call]) n =
      call.assign upcase place n (lastSet upcase place cs n) := by
  unfold lastSet
  rw [List.foldl_append]
  rfl

/-- A call that is rejected or fails sets nothing. -/
theorem assign_failed {old : Option (List WCHAR)} {name : Option UnicodeString} {n : List WCHAR}
    (hfail : ¬ (nameAccepted name = true ∧ valueAccepted value = true ∧ allocated = true)) :
    Call.assign upcase place n old (.set environment name value allocated) = old := by
  cases name with
  | none => rfl
  | some name =>
    unfold Call.assign
    dsimp only
    rw [if_neg (fun h => hfail ⟨h.2.1, h.2.2.1, h.2.2.2.1⟩)]

theorem Holds.congr {cs' : List (Call π)} {tail : List WCHAR} (h : Holds upcase cs s place es tail)
    (hblock : s'.block place = s.block place)
    (hlast : ∀ n, lastSet upcase place cs' n = lastSet upcase place cs n) :
    Holds upcase cs' s' place es tail where
  block := by rw [hblock]; exact h.block
  null := h.null
  valid := h.valid
  sorted := h.sorted
  found := fun n => by rw [hlast]; exact h.found n

/-- The value last set depends on the name without regard to case. -/
theorem Sound.lastSet_congr (hs : Sound upcase kept cs s) {n m : List WCHAR}
    (hsame : foldCase upcase n = foldCase upcase m) :
    lastSet upcase place cs n = lastSet upcase place cs m := by
  obtain ⟨es, tail, h, -⟩ := hs.blocks place
  rw [← h.found n, ← h.found m, hsame]

/-- Nothing is set, and at most the cache changes. -/
theorem Sound.skip (hs : Sound upcase kept cs s)
    (hlast : ∀ place n, lastSet upcase place (cs ++ [call]) n = lastSet upcase place cs n)
    (hblock : s'.block = s.block) (hsize : s'.environmentSize = s.environmentSize)
    (hedited : s'.edited = s.edited)
    (hcache : ∀ n text, s'.cache = some (n, text) → lastSet upcase .process cs n = some text) :
    Sound upcase kept (cs ++ [call]) s' where
  blocks place := by
    obtain ⟨es, tail, h, hedit⟩ := hs.blocks place
    refine ⟨es, tail, h.congr (congrFun hblock place) (hlast place), ?_⟩
    rw [hedited]
    intro he
    obtain ⟨hnull, hkept⟩ := hedit he
    refine ⟨hnull, fun hk => ?_⟩
    obtain ⟨hne, hrecorded⟩ := hkept hk
    exact ⟨hne, fun hp => hsize.trans (hrecorded hp)⟩
  cache n text h := by rw [hlast]; exact hcache n text h

/-! ## Setting -/

/-- The block of a place is replaced. -/
theorem Sound.replace (hs : Sound upcase kept cs s) {name : UnicodeString} {es es' : List Entry}
    {tail : List WCHAR} {size : Nat}
    (hholds : Holds upcase cs s (environment.getD .process) es tail)
    (hedit : Edited upcase ((s.block (environment.getD .process)).getD []) name value es es')
    (hname : nameAccepted (some name) = true) (hvalue : valueAccepted value = true)
    (hkeeps : kept → Keeps upcase s (.set environment (some name) value true))
    (hsize : size = 2 * ((pack es').length + 1) + oddByte value) :
    Sound upcase kept (cs ++ [.set environment (some name) value true])
      { s with
        cache := none
        block := Function.update s.block (environment.getD .process) (some (pack es' ++ [0]))
        environmentSize := if environment = none then toULong size else s.environmentSize
        edited := Function.update s.edited (environment.getD .process) true } := by
  have hlast : ∀ place n,
      lastSet upcase place (cs ++ [.set environment (some name) value true]) n =
        if environment.getD .process = place ∧ foldCase upcase name.chars = foldCase upcase n then
          value.map UnicodeString.chars
        else lastSet upcase place cs n := by
    intro place n
    rw [lastSet_append]
    unfold Call.assign
    simp only [hname, hvalue, true_and, rtlEqualUnicodeString_iff]
  constructor
  case cache => exact nofun
  case blocks =>
    intro place
    by_cases hplace : environment.getD .process = place
    · subst hplace
      refine ⟨es', [0], ?_, fun _ => ⟨rfl, fun hk => ?_⟩⟩
      · constructor
        case block =>
          change (Function.update s.block _ _ _).getD [] = _
          rw [Function.update_self]
          rfl
        case null => rfl
        case valid => exact hedit.valid
        case sorted => exact hedit.sorted
        case found =>
          intro n
          rw [hedit.found, hholds.found, hlast]
          simp only [true_and]
      · -- the condition says what the new block is like
        obtain ⟨hothers, hprocess, hnull⟩ := hkeeps hk hname hvalue rfl hedit.changed
        refine ⟨hedit.others hothers, fun hp => ?_⟩
        have hnone : environment = none := by
          cases environment with
          | none => rfl
          | some p => exact absurd (congrArg some hp) hprocess
        obtain ⟨hodd, hlt⟩ := hnull hnone
        change (if environment = none then toULong size else s.environmentSize) = _
        rw [if_pos hnone, hsize, hodd]
        unfold toULong
        rw [hedit.size]
        exact Nat.mod_eq_of_lt hlt
    · obtain ⟨es, tail, h, hedited⟩ := hs.blocks place
      have hne : place ≠ environment.getD .process := fun heq => hplace heq.symm
      refine ⟨es, tail, h.congr (Function.update_of_ne hne _ _) ?_, ?_⟩
      · intro n
        rw [hlast, if_neg (fun h => hplace h.1)]
      · intro he
        change Function.update s.edited _ true place = true at he
        rw [Function.update_of_ne hne] at he
        obtain ⟨hnull, hkept⟩ := hedited he
        refine ⟨hnull, fun hk => ?_⟩
        obtain ⟨hnonempty, hrecorded⟩ := hkept hk
        refine ⟨hnonempty, fun hp => ?_⟩
        -- the size is not recorded for another place
        have hsome : environment ≠ none := by
          rintro rfl
          exact hplace hp.symm
        change (if environment = none then toULong size else s.environmentSize) = _
        rw [if_neg hsome]
        exact hrecorded hp

theorem Sound.set (hs : Sound upcase kept cs s) {name : Option UnicodeString}
    (hclean : Call.WithoutNulls (π := π) (.set environment name value allocated))
    (hkeeps : kept → Keeps upcase s (.set environment name value allocated)) :
    Sound upcase kept (cs ++ [.set environment name value allocated])
      (s.rtlSetEnvironmentVariable upcase environment name value allocated).1 := by
  have hfail : ∀ hno : ¬ (nameAccepted name = true ∧ valueAccepted value = true ∧ allocated = true),
      ∀ place n, lastSet upcase place (cs ++ [.set environment name value allocated]) n =
        lastSet upcase place cs n := by
    intro hno place n
    rw [lastSet_append, assign_failed hno]
  unfold State.rtlSetEnvironmentVariable
  cases name with
  | none => exact hs.skip (hfail (fun h => nomatch h.1)) rfl rfl rfl hs.cache
  | some name =>
    dsimp only
    split
    · rename_i hno
      apply hs.skip (hfail _) rfl rfl rfl hs.cache
      rintro ⟨hn, hv, -⟩
      rcases hno with h | h
      · rw [hn] at h
        exact absurd h nofun
      · rw [hv] at h
        exact absurd h nofun
    · rename_i haccepted
      have hname : nameAccepted (some name) = true := by
        by_contra h
        exact haccepted (.inl (Bool.eq_false_iff.mpr h))
      have hvalue : valueAccepted value = true := by
        by_contra h
        exact haccepted (.inr (Bool.eq_false_iff.mpr h))
      obtain ⟨es, tail, hholds, -⟩ := hs.blocks (environment.getD .process)
      rcases exists_edit hname hvalue (hclean.1 name rfl) hclean.2 hholds.valid hholds.sorted
        hholds.block hholds.null with ⟨hedit, rfl, hnone⟩ | ⟨es', hedit, hedited⟩
      · rw [hedit]
        refine hs.skip ?_ rfl rfl rfl nofun
        -- what was not set is not set now
        intro place n
        rw [lastSet_append]
        unfold Call.assign
        dsimp only
        split
        · rename_i hcond
          obtain ⟨rfl, -, -, -, hequal⟩ := hcond
          rw [rtlEqualUnicodeString_iff] at hequal
          rw [← hs.lastSet_congr hequal, ← hholds.found, hnone]
          rfl
        · rfl
      · rw [hedit]
        dsimp only
        split
        · rename_i hno
          refine hs.skip (hfail ?_) rfl rfl rfl nofun
          rintro ⟨-, -, h⟩
          rw [hno] at h
          exact absurd h nofun
        · rename_i hyes
          obtain rfl : allocated = true := by
            by_contra h
            exact hyes (Bool.eq_false_iff.mpr h)
          exact hs.replace hholds hedited hname hvalue hkeeps rfl

/-! ## Querying -/

/-- The query finds the entry in the block of a place. -/
theorem Holds.findValue_eq (h : Holds upcase cs s place es tail) (name : List WCHAR) :
    findValue upcase name ((s.block place).getD []) ((s.block place).getD []).length 0 =
      (find (entryKey upcase) (foldCase upcase name) es).map fun e => (e.name, e.value) := by
  have hrounds : es.length ≤ ((s.block place).getD []).length := by
    rw [h.block, List.length_append]
    exact Nat.le_trans (length_le_pack es) (Nat.le_add_right _ _)
  have hdrop : ((s.block place).getD []).drop 0 = pack es ++ tail := h.block
  exact findValue_packed h.valid hrounds hdrop h.null

/-- The search answers with the value last set. -/
theorem Sound.searchBlock_answer (hs : Sound upcase kept cs s) (place : Place π) (fill : Bool)
    (maximumLength : Nat) (hname : ¬ IsPseudo upcase name) :
    (s.searchBlock upcase place fill name maximumLength).2 =
      .ofValue (lastSet upcase place cs name) maximumLength := by
  obtain ⟨es, tail, h, -⟩ := hs.blocks place
  unfold State.searchBlock
  dsimp only
  rw [h.findValue_eq, ← h.found]
  cases find (entryKey upcase) (foldCase upcase name) es with
  | some e =>
    dsimp only [Option.map_some]
    split <;> rfl
  | none =>
    unfold State.pseudoVariable
    dsimp only [Option.map_none]
    rw [if_neg (fun hp => hname (.inl hp)), if_neg (fun hp => hname (.inr hp))]
    rfl

/-- What the cache answers is what the process block would. -/
theorem Sound.cachedValue_eq (hs : Sound upcase kept cs s) {text : List WCHAR}
    (hcached : s.cachedValue upcase name = some text) :
    lastSet upcase .process cs name = some text := by
  unfold State.cachedValue at hcached
  cases hcache : s.cache with
  | none =>
    rw [hcache] at hcached
    cases hcached
  | some pair =>
    obtain ⟨cacheName, cacheValue⟩ := pair
    rw [hcache] at hcached
    dsimp only at hcached
    split at hcached
    · rename_i hequal
      obtain rfl := Option.some.inj hcached
      rw [rtlEqualUnicodeString_iff] at hequal
      rw [hs.lastSet_congr hequal]
      exact hs.cache _ _ hcache
    · cases hcached

theorem Sound.cached_or_searched (hs : Sound upcase kept cs s) (fill : Bool)
    (maximumLength : Nat) (hname : ¬ IsPseudo upcase name) :
    (match s.cachedValue upcase name with
      | some text => (s, Answer.value text maximumLength)
      | none => s.searchBlock upcase .process fill name maximumLength).2 =
        .ofValue (lastSet upcase .process cs name) maximumLength := by
  cases hcached : s.cachedValue upcase name with
  | some text =>
    rw [hs.cachedValue_eq hcached]
    rfl
  | none => exact hs.searchBlock_answer .process fill maximumLength hname

/-- A query of a name that is no pseudo variable answers with the value last set. -/
theorem Sound.query_answer (hs : Sound upcase kept cs s) (environment : Option (Place π))
    (maximumLength : Nat) (hname : ¬ IsPseudo upcase name) :
    (s.rtlQueryEnvironmentVariable upcase environment name maximumLength).2 =
      .ofValue (lastSet upcase (s.queried environment) cs name) maximumLength := by
  unfold State.rtlQueryEnvironmentVariable State.queried
  cases environment.filter fun place => (s.block place).isSome with
  | none => exact hs.cached_or_searched false maximumLength hname
  | some place =>
    dsimp only [Option.getD_some]
    split
    · -- an empty block holds no entry
      rename_i hnull
      obtain ⟨es, tail, h, -⟩ := hs.blocks place
      cases es with
      | nil =>
        rw [← h.found]
        rfl
      | cons e es =>
        rw [h.block, pack_cons, List.append_assoc] at hnull
        exact absurd hnull (headD_packed (h.valid e List.mem_cons_self) _)
    · split
      · rename_i hplace
        rw [hplace]
        exact hs.cached_or_searched true maximumLength hname
      · exact hs.searchBlock_answer place false maximumLength hname

theorem Sound.searchBlock (hs : Sound upcase kept cs s) {fill : Bool} {maximumLength : Nat}
    (hfill : fill = true → place = .process) (hlast : ∀ place n,
      lastSet upcase place (cs ++ [call]) n = lastSet upcase place cs n) :
    Sound upcase kept (cs ++ [call])
      (s.searchBlock upcase place fill name maximumLength).1 := by
  obtain ⟨es, tail, h, -⟩ := hs.blocks place
  unfold State.searchBlock
  dsimp only
  rw [h.findValue_eq]
  cases hentry : find (entryKey upcase) (foldCase upcase name) es with
  | none => exact hs.skip hlast rfl rfl rfl hs.cache
  | some e =>
    dsimp only [Option.map_some]
    split
    · rename_i hcond
      obtain rfl := hfill hcond.1
      refine hs.skip hlast rfl rfl rfl ?_
      -- the name in the block may differ in case from the one asked for
      intro n text hcache
      obtain ⟨rfl, rfl⟩ := Prod.mk.inj (Option.some.inj hcache)
      obtain ⟨hkey, -⟩ := Sorted.exists_split_of_find hentry
      unfold entryKey at hkey
      rw [hs.lastSet_congr hkey, ← h.found, hentry]
      rfl
    · exact hs.skip hlast rfl rfl rfl hs.cache

theorem Sound.query (hs : Sound upcase kept cs s) (environment : Option (Place π))
    (name : List WCHAR) (maximumLength : Nat) :
    Sound upcase kept (cs ++ [.query environment name maximumLength])
      (s.rtlQueryEnvironmentVariable upcase environment name maximumLength).1 := by
  have hlast : ∀ place n, lastSet upcase place (cs ++ [.query environment name maximumLength]) n =
      lastSet upcase place cs n := fun place n => lastSet_append cs _ place n
  have hkeep := hs.skip hlast rfl rfl rfl hs.cache
  unfold State.rtlQueryEnvironmentVariable
  split
  · split
    · exact hkeep
    · split
      · split
        · exact hkeep
        · exact hs.searchBlock (fun _ => rfl) hlast
      · exact hs.searchBlock nofun hlast
  · split
    · exact hkeep
    · exact hs.searchBlock (fun _ => rfl) hlast

/-! ## Runs -/

/-- An empty environment holds nothing. -/
theorem Sound.initial (hinit : Initial s) : Sound upcase kept [] s where
  blocks place := by
    refine ⟨[], (s.block place).getD [], ?_, ?_⟩
    · constructor
      case block => rfl
      case null => exact hinit.empty place
      case valid => exact nofun
      case sorted => exact Sorted.nil
      case found => exact fun _ => rfl
    · intro hedited
      rw [hinit.edited] at hedited
      cases hedited
  cache n text h := by
    rw [hinit.cache] at h
    cases h

theorem Sound.next (hs : Sound upcase kept cs s) (hclean : call.WithoutNulls)
    (hkeeps : kept → Keeps upcase s call) :
    Sound upcase kept (cs ++ [call]) (next upcase s call) := by
  cases call with
  | set environment name value allocated => exact hs.set hclean hkeeps
  | query environment name maximumLength => exact hs.query environment name maximumLength

/-- Of any calls without nulls, up to the end of the block and the recorded size. -/
theorem sound_of_withoutNulls (hinit : Initial s)
    (hcs : (calls upcase).Admits (fun _ call => call.WithoutNulls) s cs) :
    Sound upcase False cs ((calls upcase).exec s cs) := by
  apply System.history_invariant _ s cs hcs (Sound.initial hinit)
  intro done s call hs _ hclean
  exact hs.next hclean False.elim

theorem sound_of_proper (hinit : Initial s) (hcs : (calls upcase).Admits (Proper upcase) s cs) :
    Sound upcase True cs ((calls upcase).exec s cs) := by
  apply System.history_invariant _ s cs hcs (Sound.initial hinit)
  intro done s call hs _ hproper
  exact hs.next hproper.1 fun _ => hproper.2

/-! ## The block and the map -/

/-- Of any calls without nulls: the block that has been replaced is made of entries in strictly
ascending order, and a null. -/
theorem Sound.entries (hs : Sound upcase kept cs s) (hedited : s.edited place = true) :
    ∃ es : List Entry, s.block place = some (pack es ++ [0]) ∧ (∀ e ∈ es, e.Valid) ∧
      (es.Pairwise fun a b => rtlCompareUnicodeString upcase a.name b.name < 0) ∧
      (kept → Kept s place es) := by
  obtain ⟨es, tail, h, hrest⟩ := hs.blocks place
  obtain ⟨rfl, hkept⟩ := hrest hedited
  refine ⟨es, ?_, h.valid, ?_, hkept⟩
  · have hblock := h.block
    cases hsome : s.block place with
    | none =>
      rw [hsome] at hblock
      exact absurd (congrArg List.length hblock) (by simp)
    | some block =>
      rw [hsome] at hblock
      exact congrArg some hblock
  · apply List.Pairwise.imp _ h.sorted
    intro a b hlt
    exact (rtlCompareUnicodeString_neg upcase a.name b.name).mpr hlt

/-- The last entry ends with a null, and the block with another. -/
theorem pack_doubleNull (hne : es ≠ []) : ∃ front, pack es ++ [0] = front ++ [0, 0] := by
  obtain ⟨front, last, rfl⟩ := List.eq_nil_or_concat es |>.resolve_left hne
  refine ⟨pack front ++ last.text, ?_⟩
  rw [List.concat_eq_append, pack_append, pack_cons, pack_nil, List.append_nil, Entry.packed]
  simp

theorem Sound.faithful (hs : Sound upcase True cs s) (place : Place π) :
    Faithful upcase cs s place where
  wellFormed hedited := by
    obtain ⟨es, hblock, hvalid, hsorted, hkept⟩ := hs.entries hedited
    exact ⟨_, hblock, ⟨es, rfl, hvalid, hsorted⟩, pack_doubleNull (hkept trivial).nonempty⟩
  recorded hplace hedited := by
    obtain ⟨es, hblock, -, -, hkept⟩ := hs.entries hedited
    rw [hblock, (hkept trivial).recorded hplace]
    simp
  query environment name maximumLength hplace hname := by
    rw [← hplace]
    exact hs.query_answer environment maximumLength hname

/-- A rejected or failed set changes at most the cache. -/
theorem failures_keep (upcase : WCHAR → WCHAR) (cs : List (Call π)) (s : State π) :
    FailuresKeep upcase cs s := by
  intro environment name value allocated hfail
  have hlast : ∀ hno : ¬ (nameAccepted name = true ∧ valueAccepted value = true ∧ allocated = true),
      ∀ place n, lastSet upcase place (cs ++ [.set environment name value allocated]) n =
        lastSet upcase place cs n := by
    intro hno place n
    rw [lastSet_append, assign_failed hno]
  unfold State.rtlSetEnvironmentVariable at hfail ⊢
  cases name with
  | none => exact ⟨rfl, rfl, hlast (fun h => nomatch h.1)⟩
  | some name =>
    dsimp only at hfail ⊢
    split at hfail
    · rename_i hno
      rw [if_pos hno]
      refine ⟨rfl, rfl, hlast ?_⟩
      rintro ⟨hn, hv, -⟩
      rw [hn, hv] at hno
      simp at hno
    · rename_i haccepted
      rw [if_neg haccepted]
      cases hedit : editBlock upcase (s.block (environment.getD .process)) name value with
      | none =>
        rw [hedit] at hfail
        cases hfail
      | some new =>
        rw [hedit] at hfail
        dsimp only at hfail ⊢
        split at hfail
        · rename_i hno
          rw [if_pos hno]
          refine ⟨rfl, rfl, hlast ?_⟩
          rintro ⟨-, -, h⟩
          rw [hno] at h
          cases h
        · cases hfail

/-- A query answers with the value last set, whatever has been deleted and wherever the block is:
this part needs no more than that the strings have no nulls. -/
theorem query_is_last_set (s₀ : State π) (hinit : Initial s₀) (cs : List (Call π))
    (hcs : (calls upcase).Admits (fun _ call => call.WithoutNulls) s₀ cs)
    (environment : Option (Place π)) (name : List WCHAR) (maximumLength : Nat)
    (hname : ¬ IsPseudo upcase name) :
    (((calls upcase).exec s₀ cs).rtlQueryEnvironmentVariable upcase environment name
        maximumLength).2 =
      .ofValue (lastSet upcase (((calls upcase).exec s₀ cs).queried environment) cs name)
        maximumLength :=
  (sound_of_withoutNulls hinit hcs).query_answer environment maximumLength hname

/-- The environment is an ordered map, in every sequence of calls that meet the condition. -/
theorem environment_is_faithful (upcase : WCHAR → WCHAR) (s₀ : State π) (hinit : Initial s₀)
    (cs : List (Call π)) (hcs : (calls upcase).Admits (Proper upcase) s₀ cs) :
    (∀ place, Faithful upcase cs ((calls upcase).exec s₀ cs) place) ∧
      FailuresKeep upcase cs ((calls upcase).exec s₀ cs) := by
  constructor
  · intro place
    exact (sound_of_proper hinit hcs).faithful place
  · exact failures_keep upcase cs ((calls upcase).exec s₀ cs)

/-- An environment that is `NULL`. -/
def noEnvironment : State Unit where
  block _ := none
  environmentSize := 0
  cache := none
  dosPath := []
  imagePathName := []
  edited _ := false

theorem initial_noEnvironment : Initial noEnvironment where
  empty _ := rfl
  cache := rfl
  edited _ := rfl

def variableA : UnicodeString := .ofChars [0x61] (by decide)

def variableB : UnicodeString := .ofChars [0x42] (by decide)

def valueOne : UnicodeString := .ofChars [0x31] (by decide)

/-- One character and the half of another. -/
def oddValue : UnicodeString where
  length := 3
  buffer := some [0x31, 0x32]
  length_lt := by decide
  length_le b hb := by
    obtain rfl := Option.some.inj hb
    decide

/-- Two variables are set and asked for, and one of them is deleted. -/
def setAndDelete : List (Call Unit) :=
  [.set none variableB valueOne true, .set none variableA valueOne true, .query none [0x41] 2,
    .set none variableA none true]

theorem deleted_variable_is_faithful :
    ((calls upcaseAscii).exec noEnvironment setAndDelete).block .process =
        some [0x42, 0x3d, 0x31, 0, 0] ∧
      Faithful upcaseAscii setAndDelete ((calls upcaseAscii).exec noEnvironment setAndDelete)
        .process := by
  refine ⟨by decide +kernel, ?_⟩
  have hadmits : (calls upcaseAscii).Admits (Proper upcaseAscii) noEnvironment setAndDelete := by
    decide +kernel
  exact (environment_is_faithful upcaseAscii noEnvironment initial_noEnvironment setAndDelete
    hadmits).1 .process

/-- The only variable is deleted. -/
def setAndEmpty : List (Call Unit) :=
  [.set none variableA valueOne true, .set none variableA none true]

/-- The process block is set through a pointer to it. -/
def setThroughPointer : List (Call Unit) := [.set (some .process) variableA valueOne true]

/-- The value has an odd `Length`. -/
def setOddValue : List (Call Unit) := [.set none variableA oddValue true]

/-- Without the condition: the empty block has one null only, and the recorded size is that of
another block or one byte too large. -/
theorem unrestricted_sets_are_not_faithful :
    ((calls upcaseAscii).Admits (fun _ call => call.WithoutNulls) noEnvironment setAndEmpty ∧
      ¬ Faithful upcaseAscii setAndEmpty ((calls upcaseAscii).exec noEnvironment setAndEmpty)
        .process) ∧
    ((calls upcaseAscii).Admits (fun _ call => call.WithoutNulls) noEnvironment
        setThroughPointer ∧
      ¬ Faithful upcaseAscii setThroughPointer
        ((calls upcaseAscii).exec noEnvironment setThroughPointer) .process) ∧
    ((calls upcaseAscii).Admits (fun _ call => call.WithoutNulls) noEnvironment setOddValue ∧
      ¬ Faithful upcaseAscii setOddValue ((calls upcaseAscii).exec noEnvironment setOddValue)
        .process) := by
  refine ⟨⟨by decide +kernel, ?_⟩, ⟨by decide +kernel, ?_⟩, ⟨by decide +kernel, ?_⟩⟩
  · intro h
    obtain ⟨block, hblock, hformed⟩ := h.wellFormed (by decide +kernel)
    have hnull : ((calls upcaseAscii).exec noEnvironment setAndEmpty).block .process =
        some [0] := by decide +kernel
    obtain rfl := Option.some.inj (hnull.symm.trans hblock)
    obtain ⟨front, hfront⟩ := hformed.doubleNull
    have hlength := congrArg List.length hfront
    rw [List.length_append, List.length_singleton] at hlength
    exact absurd hlength (by simp)
  · intro h
    exact absurd (h.recorded rfl (by decide +kernel)) (by decide +kernel)
  · intro h
    exact absurd (h.recorded rfl (by decide +kernel)) (by decide +kernel)

end Ldk.Environment
