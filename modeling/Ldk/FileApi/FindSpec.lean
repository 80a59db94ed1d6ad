import Ldk.DosPath.Places
import Ldk.Lib.OutputBuffer

/-!
# LdkpSplitFindSpec

A find specification is split at its last separator: what comes behind is the pattern, and what
comes before the directory to open. A root keeps its separator, everything else loses it.

- The specification is the list of its characters, none of which is a null; the buffers are lists.
- Lengths are converted to `ULONG`.
- `find_spec_is_split`: both copies stay in their buffers, and the directory is the one that the
  specification is for, where its separator makes no difference. It does behind a device of `\\?\`
  (`device_root_is_lost`), in `\\name`, and where dots or spaces come before it; and the drive of
  `X:name` is neither opened nor taken from the pattern.
-/

namespace Ldk.FileApi

open OutputBuffer
open Ldk.DosPath (Context isPathSeparator charAt dot colon names directoryPath NamesDevice IsVerbatim
  IsTrimmed ended rtlDetermineDosPathNameTypeUstr deviceOfComponent names_eq_iff)

/-! ## The routine -/

/-- The last error of a failure. -/
inductive FindError where
  | invalidParameter
  | invalidName
  deriving DecidableEq, Repr

/-- `Directory` and `Pattern`. -/
structure FindSplit where
  directory : List WCHAR
  pattern : List WCHAR
  deriving DecidableEq, Repr

/-- The conversion to `ULONG`. -/
def toULong (n : Nat) : Nat := n % 2 ^ 32

/-- `LdkpCopyWideString` -/
def ldkpCopyWideString (destination source : List WCHAR) (sourceCch : Nat) :
    Except Outside (Except FindError (List WCHAR)) :=
  if destination.length = 0 ∨ destination.length ≤ sourceCch then .ok (.error .invalidName)
  else do
    let destination ← copy destination 0 source 0 sourceCch
    let destination ← put destination sourceCch [0]
    return .ok destination

/-- The loop over the characters, from the `i`-th on. -/
def findLastSeparator : List WCHAR → Nat → Option Nat → Option Nat
  | [], _, lastSeparator => lastSeparator
  | ch :: rest, i, lastSeparator =>
    findLastSeparator rest (i + 1) (if isPathSeparator ch then some i else lastSeparator)

/-- `DirectoryLength` -/
def directoryLength (findSpec : List WCHAR) (lastSeparator : Nat) : Nat :=
  if lastSeparator = 0 then 1
  else if lastSeparator = 2 ∧ charAt findSpec 1 = colon then 3
  else toULong lastSeparator

/-- The copies at the end: `DirectoryLength` characters of a source, and the pattern. -/
def copyBoth (source : List WCHAR) (sourceCch : Nat) (patternStart directory pattern : List WCHAR) :
    Except Outside (Except FindError FindSplit) := do
  match ← ldkpCopyWideString directory source sourceCch with
  | .error lastError => return .error lastError
  | .ok directory =>
    match ← ldkpCopyWideString pattern patternStart (toULong patternStart.length) with
    | .error lastError => return .error lastError
    | .ok pattern => return .ok ⟨directory, pattern⟩

/-- `LdkpSplitFindSpec` -/
def ldkpSplitFindSpec (findSpec directory pattern : List WCHAR) :
    Except Outside (Except FindError FindSplit) :=
  if findSpec = [] then .ok (.error .invalidParameter)
  else
    match findLastSeparator findSpec 0 none with
    | none => copyBoth [dot] 1 findSpec directory pattern
    | some lastSeparator =>
      let patternStart := findSpec.drop (lastSeparator + 1)
      if patternStart = [] then .ok (.error .invalidName)
      else
        copyBoth findSpec (directoryLength findSpec lastSeparator) patternStart directory pattern

/-! ## What a specification is for -/

/-- The specification up to its last separator. -/
def upToSeparator (s : List WCHAR) : List WCHAR := s.rdropWhile fun ch => !isPathSeparator ch

/-- What comes behind the last separator. -/
def behindSeparator (s : List WCHAR) : List WCHAR := s.rtakeWhile fun ch => !isPathSeparator ch

/-- `X:name` -/
def IsDriveName (s : List WCHAR) : Prop :=
  upToSeparator s = [] ∧ rtlDetermineDosPathNameTypeUstr s = .driveRelative

instance (s : List WCHAR) : Decidable (IsDriveName s) := inferInstanceAs (Decidable (_ ∧ _))

/-- The specification with its last component removed. -/
def withoutLastComponent (s : List WCHAR) : List WCHAR :=
  if IsDriveName s then s.take 2 else upToSeparator s

def lastComponent (s : List WCHAR) : List WCHAR :=
  if IsDriveName s then s.drop 2 else behindSeparator s

/-- The buffers hold the last component and a name of the directory the specification is for. -/
def FindSplit.Right (x : FindSplit) (c : Context) (s : List WCHAR) : Prop :=
  Holds x.pattern (lastComponent s ++ [0]) ∧
    ∃ directory, Holds x.directory (directory ++ [0]) ∧ (∀ ch ∈ directory, ch ≠ 0) ∧
      names c directory = .directory (directoryPath c (withoutLastComponent s))

/-- No buffer is overrun, and what comes out is right unless it fails. -/
def SplitsAsSpecified (c : Context) (s directory pattern : List WCHAR) : Prop :=
  Yields (ldkpSplitFindSpec s directory pattern) fun result =>
    ∀ x, result = .ok x → x.Right c s

/-! ## When it does -/

/-- The root keeps its separator. -/
def IsRoot (front : List WCHAR) : Prop :=
  front.length = 1 ∨ front.length = 3 ∧ charAt front 1 = colon

instance (front : List WCHAR) : Decidable (IsRoot front) := inferInstanceAs (Decidable (_ ∨ _))

/-- What is kept of the specification for the directory. -/
def directoryText (s : List WCHAR) : List WCHAR :=
  if upToSeparator s = [] then [dot]
  else if IsRoot (upToSeparator s) then upToSeparator s
  else (upToSeparator s).dropLast

/-- One of the buffers has no room. -/
def TooLong (s directory pattern : List WCHAR) : Prop :=
  directory.length ≤ (directoryText s).length ∨ pattern.length ≤ (behindSeparator s).length

/-- The directory is the same with and without its separator. -/
def KeepsDirectory (c : Context) (s : List WCHAR) : Prop :=
  let front := upToSeparator s
  if front = [] then ¬ IsDriveName s ∧ ¬ IsTrimmed (directoryPath c [])
  else if IsRoot front then True
  else if front.length = 2 ∧ isPathSeparator (charAt front 0) = true then
    -- the root of the current drive, and that of all shares
    directoryPath c (front.take 1) = directoryPath c front
  else
    ¬ NamesDevice c front.dropLast ∧
      (ended front.dropLast = true ∨ IsVerbatim front.dropLast ∨ ¬ IsTrimmed (directoryPath c front))

/-! ## The split -/

variable {c : Context} {s directory pattern source : List WCHAR}

theorem upToSeparator_append (s : List WCHAR) : upToSeparator s ++ behindSeparator s = s :=
  List.rdropWhile_append_rtakeWhile

theorem behindSeparator_plain (s : List WCHAR) :
    ∀ ch ∈ behindSeparator s, isPathSeparator ch = false := by
  intro ch hch
  have hnot := List.mem_rtakeWhile_imp hch
  simpa using hnot

/-- There is no separator, or one at the end. -/
theorem upToSeparator_cases (s : List WCHAR) : upToSeparator s = [] ∨
    ∃ front sep, upToSeparator s = front ++ [sep] ∧ isPathSeparator sep = true := by
  by_cases hne : upToSeparator s = []
  · exact .inl hne
  · right
    have hlast := List.rdropWhile_last_not (fun ch => !isPathSeparator ch) s hne
    rw [Bool.not_eq_true, Bool.not_eq_false'] at hlast
    exact ⟨_, _, (List.dropLast_append_getLast hne).symm, hlast⟩

theorem findLastSeparator_append (front rest : List WCHAR) (i : Nat) (last : Option Nat) :
    findLastSeparator (front ++ rest) i last =
      findLastSeparator rest (i + front.length) (findLastSeparator front i last) := by
  induction front generalizing i last with
  | nil => rfl
  | cons ch front ih =>
    rw [List.cons_append, findLastSeparator, findLastSeparator, ih, List.length_cons]
    rw [show i + 1 + front.length = i + (front.length + 1) by omega]

theorem findLastSeparator_plain {rest : List WCHAR} (h : ∀ ch ∈ rest, isPathSeparator ch = false)
    (i : Nat) (last : Option Nat) : findLastSeparator rest i last = last := by
  induction rest generalizing i with
  | nil => rfl
  | cons ch rest ih =>
    rw [findLastSeparator, h ch List.mem_cons_self, if_neg Bool.false_ne_true]
    exact ih (fun ch' hch' => h ch' (List.mem_cons_of_mem _ hch')) _

/-- The loop stops behind the last separator. -/
theorem findLastSeparator_spec (s : List WCHAR) : findLastSeparator s 0 none =
    if upToSeparator s = [] then none else some ((upToSeparator s).length - 1) := by
  have hwhole := upToSeparator_append s
  have hplain := behindSeparator_plain s
  rcases upToSeparator_cases s with hnone | ⟨front, sep, hfront, hsep⟩
  · rw [hnone, List.nil_append] at hwhole
    rw [if_pos hnone, ← hwhole]
    exact findLastSeparator_plain hplain _ _
  · have hne : upToSeparator s ≠ [] := by rw [hfront]; simp
    rw [if_neg hne]
    conv_lhs => rw [← hwhole, hfront]
    rw [findLastSeparator_append, findLastSeparator_plain hplain, findLastSeparator_append,
      hfront, List.length_append]
    simp [findLastSeparator, hsep]

/-- A copy fails, or the buffer holds the text with its null. -/
theorem ldkpCopyWideString_spec {sourceCch : Nat} (hsource : sourceCch ≤ source.length) :
    Yields (ldkpCopyWideString directory source sourceCch) fun result =>
      (directory.length ≤ sourceCch → ∃ e, result = .error e) ∧
      (sourceCch < directory.length → ∃ destination, result = .ok destination ∧
        Holds destination (source.take sourceCch ++ [0])) := by
  unfold ldkpCopyWideString
  apply Yields.ite
  · intro hfull
    apply Yields.ok
    exact ⟨fun _ => ⟨_, rfl⟩, fun hroom => absurd hfull (by omega)⟩
  · intro hroom
    have hlength : (source.take sourceCch).length = sourceCch := List.length_take_of_le hsource
    have hnothing := Written.nothing directory (source.take sourceCch)
    apply (hnothing.copy (by omega) (by rw [List.drop_zero, List.drop_zero, List.take_take,
      Nat.min_self]) (by omega)).bind
    intro destination hwritten
    rw [Nat.zero_add] at hwritten
    have hholds : Holds destination (source.take sourceCch) := by
      apply Written.holds (n := directory.length)
      rwa [hlength]
    have hlast : Yields (put destination (source.take sourceCch).length [0]) fun destination' =>
        destination'.length = directory.length ∧
          Holds destination' (source.take sourceCch ++ [0]) := by
      apply hholds.append hwritten.size
      rw [hlength, List.length_singleton]
      omega
    rw [hlength] at hlast
    apply hlast.bind
    rintro destination' ⟨-, hended⟩
    exact .ok ⟨fun hfull => absurd hfull (by omega), fun _ => ⟨_, rfl, hended⟩⟩

/-- What the split leaves in the buffers, when both have room. -/
structure FindSplit.Copied (x : FindSplit) (s : List WCHAR) : Prop where
  directory : Holds x.directory (directoryText s ++ [0])
  pattern : Holds x.pattern (behindSeparator s ++ [0])

theorem copyBoth_spec {sourceCch : Nat} {findSpec patternStart : List WCHAR}
    (hsource : sourceCch ≤ source.length) (hlength : patternStart.length < 2 ^ 32)
    (htext : source.take sourceCch = directoryText findSpec)
    (hstart : patternStart = behindSeparator findSpec) :
    Yields (copyBoth source sourceCch patternStart directory pattern) fun result =>
      (TooLong findSpec directory pattern → ∃ e, result = .error e) ∧
      (¬ TooLong findSpec directory pattern → ∃ x, result = .ok x ∧ x.Copied findSpec) := by
  have hcch : sourceCch = (directoryText findSpec).length := by
    rw [← htext, List.length_take_of_le hsource]
  have hulong : toULong patternStart.length = patternStart.length := Nat.mod_eq_of_lt hlength
  unfold copyBoth TooLong
  rw [hulong]
  apply (ldkpCopyWideString_spec hsource).bind
  rintro first ⟨hfull, hroom⟩
  rw [htext, hcch] at hroom
  rw [hcch] at hfull
  cases first with
  | error e =>
    apply Yields.ok
    refine ⟨fun _ => ⟨e, rfl⟩, fun hnot => ?_⟩
    obtain ⟨d, hd, -⟩ := hroom (Nat.lt_of_not_le fun h => hnot (.inl h))
    cases hd
  | ok destination =>
    -- the directory fits, so the pattern decides
    have hdirectory : (directoryText findSpec).length < directory.length := by
      by_contra hnot
      obtain ⟨e, he⟩ := hfull (Nat.le_of_not_lt hnot)
      cases he
    obtain ⟨d, hd, hheld⟩ := hroom hdirectory
    obtain rfl := Except.ok.inj hd
    have hcopy : Yields (ldkpCopyWideString pattern patternStart patternStart.length) _ :=
      ldkpCopyWideString_spec (Nat.le_refl _)
    apply hcopy.bind
    rintro second ⟨hfull', hroom'⟩
    rw [List.take_length, hstart] at hroom'
    rw [hstart] at hfull'
    cases second with
    | error e =>
      apply Yields.ok
      refine ⟨fun _ => ⟨e, rfl⟩, fun hnot => ?_⟩
      obtain ⟨d, hd, -⟩ := hroom' (Nat.lt_of_not_le fun h => hnot (.inr h))
      cases hd
    | ok text =>
      apply Yields.ok
      constructor
      · rintro (hlong | hlong)
        · exact absurd hdirectory (Nat.not_lt_of_le hlong)
        · obtain ⟨e, he⟩ := hfull' hlong
          cases he
      · intro hnot
        obtain ⟨d, hd, hheld'⟩ := hroom' (Nat.lt_of_not_le fun h => hnot (.inr h))
        obtain rfl := Except.ok.inj hd
        exact ⟨_, rfl, hheld, hheld'⟩

/-- The length that is copied for the directory, when it is the whole of it. -/
theorem take_directoryLength (hlength : s.length < 2 ^ 32) (hne : upToSeparator s ≠ []) :
    directoryLength s ((upToSeparator s).length - 1) ≤ s.length ∧
      s.take (directoryLength s ((upToSeparator s).length - 1)) = directoryText s := by
  have hle : (upToSeparator s).length ≤ s.length := (List.rdropWhile_prefix _ s).length_le
  have hpos : 0 < (upToSeparator s).length := List.length_pos_of_ne_nil hne
  have htake : ∀ n, n ≤ (upToSeparator s).length → s.take n = (upToSeparator s).take n := by
    intro n hn
    conv_lhs => rw [← upToSeparator_append s]
    exact List.take_append_of_le_length hn
  unfold directoryLength directoryText
  rw [if_neg hne]
  by_cases hone : (upToSeparator s).length - 1 = 0
  · rw [if_pos hone, if_pos (.inl (by omega))]
    exact ⟨by omega, by rw [htake 1 (by omega)]; exact List.take_of_length_le (by omega)⟩
  rw [if_neg hone]
  by_cases hthree : (upToSeparator s).length - 1 = 2
  · have hsecond : charAt s 1 = charAt (upToSeparator s) 1 := by
      conv_lhs => rw [← upToSeparator_append s]
      exact Ldk.DosPath.charAt_append_left (by omega) _
    rw [hsecond]
    by_cases hcolon : charAt (upToSeparator s) 1 = colon
    · rw [if_pos ⟨hthree, hcolon⟩, if_pos (.inr ⟨by omega, hcolon⟩)]
      exact ⟨by omega, by rw [htake 3 (by omega)]; exact List.take_of_length_le (by omega)⟩
    · have hroot : ¬ IsRoot (upToSeparator s) := by
        rintro (h | h)
        · omega
        · exact hcolon h.2
      have hulong : toULong ((upToSeparator s).length - 1) = (upToSeparator s).length - 1 :=
        Nat.mod_eq_of_lt (by omega)
      rw [if_neg (fun h => hcolon h.2), if_neg hroot, hulong, htake _ (Nat.sub_le _ _),
        List.dropLast_eq_take]
      exact ⟨by omega, rfl⟩
  · have hroot : ¬ IsRoot (upToSeparator s) := by
      rintro (h | h)
      · omega
      · omega
    have hulong : toULong ((upToSeparator s).length - 1) = (upToSeparator s).length - 1 :=
      Nat.mod_eq_of_lt (by omega)
    rw [if_neg (fun h => hthree h.1), if_neg hroot, hulong, htake _ (Nat.sub_le _ _),
      List.dropLast_eq_take]
    exact ⟨by omega, rfl⟩

/-- The split of a specification with something behind its last separator. -/
theorem ldkpSplitFindSpec_spec (hlength : s.length < 2 ^ 32) (hname : behindSeparator s ≠ []) :
    Yields (ldkpSplitFindSpec s directory pattern) fun result =>
      (TooLong s directory pattern → ∃ e, result = .error e) ∧
      (¬ TooLong s directory pattern → ∃ x, result = .ok x ∧ x.Copied s) := by
  have hwhole := upToSeparator_append s
  have hs : s ≠ [] := by
    intro hnil
    rw [hnil] at hname
    exact hname rfl
  unfold ldkpSplitFindSpec
  rw [if_neg hs, findLastSeparator_spec]
  by_cases hnone : upToSeparator s = []
  · rw [if_pos hnone]
    rw [hnone, List.nil_append] at hwhole
    have htext : [dot].take 1 = directoryText s := by
      unfold directoryText
      rw [if_pos hnone]
      rfl
    exact copyBoth_spec (Nat.le_refl 1) hlength htext hwhole.symm
  · rw [if_neg hnone]
    have hpos : 0 < (upToSeparator s).length := List.length_pos_of_ne_nil hnone
    have hstart : s.drop ((upToSeparator s).length - 1 + 1) = behindSeparator s := by
      have hdrop : (upToSeparator s ++ behindSeparator s).drop (upToSeparator s).length =
          behindSeparator s := List.drop_left
      rwa [hwhole, ← Nat.sub_add_cancel hpos] at hdrop
    dsimp only
    rw [hstart, if_neg hname]
    obtain ⟨hle, htext⟩ := take_directoryLength hlength hnone
    have hshort : (behindSeparator s).length ≤ s.length :=
      (List.rtakeWhile_suffix _ s).length_le
    exact copyBoth_spec hle (by omega) htext rfl

/-! ## The directory -/

theorem directoryText_ne_zero (hnull : ∀ ch ∈ s, ch ≠ 0) : ∀ ch ∈ directoryText s, ch ≠ 0 := by
  have hfront : ∀ ch ∈ upToSeparator s, ch ≠ 0 :=
    fun ch hch => hnull ch ((List.rdropWhile_prefix _ s).subset hch)
  unfold directoryText
  by_cases hnone : upToSeparator s = []
  · rw [if_pos hnone]
    intro ch hch
    rw [List.mem_singleton.mp hch]
    decide
  rw [if_neg hnone]
  by_cases hroot : IsRoot (upToSeparator s)
  · rw [if_pos hroot]
    exact hfront
  · rw [if_neg hroot]
    exact fun ch hch => hfront ch (List.dropLast_subset _ hch)

/-- A buffer holds one text alone. -/
theorem text_unique {buffer text text' : List WCHAR} (h : Holds buffer (text ++ [0]))
    (h' : Holds buffer (text' ++ [0])) (htext : ∀ ch ∈ text, ch ≠ 0)
    (htext' : ∀ ch ∈ text', ch ≠ 0) : text = text' := by
  have hfirst : buffer.takeWhile (· ≠ 0) = text :=
    h.takeWhile (fun ch hch => decide_eq_true (htext ch hch)) rfl
  have hsecond : buffer.takeWhile (· ≠ 0) = text' :=
    h'.takeWhile (fun ch hch => decide_eq_true (htext' ch hch)) rfl
  exact hfirst.symm.trans hsecond

/-- What the split leaves is right when the directory is, and the drive is not in the pattern. -/
theorem FindSplit.Copied.right_iff {x : FindSplit} (h : x.Copied s) (hnull : ∀ ch ∈ s, ch ≠ 0)
    (hlast : lastComponent s ≠ []) : x.Right c s ↔ ¬ IsDriveName s ∧
      names c (directoryText s) = .directory (directoryPath c (withoutLastComponent s)) := by
  have hbehind : ∀ ch ∈ behindSeparator s, ch ≠ 0 :=
    fun ch hch => hnull ch ((List.rtakeWhile_suffix _ s).subset hch)
  have htext := directoryText_ne_zero hnull
  constructor
  · rintro ⟨hpattern, directory, hdirectory, hplain, hnames⟩
    constructor
    · intro hdrive
      have hwhole := upToSeparator_append s
      rw [hdrive.1, List.nil_append] at hwhole
      unfold lastComponent at hpattern hlast
      rw [if_pos hdrive] at hpattern hlast
      have hsame := text_unique hpattern h.pattern
        (fun ch hch => hnull ch (List.mem_of_mem_drop hch)) hbehind
      rw [hwhole] at hsame
      have hlength := congrArg List.length hsame
      have hpos := List.length_pos_of_ne_nil hlast
      rw [List.length_drop] at hlength hpos
      omega
    · rw [text_unique h.directory hdirectory htext hplain]
      exact hnames
  · rintro ⟨hdrive, hnames⟩
    refine ⟨?_, directoryText s, h.directory, htext, hnames⟩
    unfold lastComponent
    rw [if_neg hdrive]
    exact h.pattern

/-- The directory is named by what is kept of the specification. -/
theorem names_directoryText_iff (c : Context) (s : List WCHAR) :
    (¬ IsDriveName s ∧
      names c (directoryText s) = .directory (directoryPath c (withoutLastComponent s))) ↔
      KeepsDirectory c s := by
  unfold directoryText withoutLastComponent KeepsDirectory
  dsimp only
  -- without a separator the directory is the current one
  rcases upToSeparator_cases s with hnone | ⟨front, sep, hfront, hsep⟩
  · rw [if_pos hnone, if_pos hnone]
    apply and_congr_right
    intro hdrive
    rw [if_neg hdrive, hnone, Ldk.DosPath.names_dot, Ldk.DosPath.Named.directory.injEq]
    exact not_not.symm
  · have hne : upToSeparator s ≠ [] := by rw [hfront]; simp
    have hdrive : ¬ IsDriveName s := fun h => hne h.1
    have hlength : (front ++ [sep]).length = front.length + 1 := by
      rw [List.length_append, List.length_singleton]
    rw [if_neg hne, if_neg hne, if_neg hdrive, hfront]
    -- a root keeps its separator, and other directories lose theirs
    by_cases hroot : IsRoot (front ++ [sep])
    · rw [if_pos hroot, if_pos hroot]
      refine iff_of_true ⟨hdrive, ?_⟩ trivial
      apply Ldk.DosPath.names_root hsep
      · rcases hroot with h | h
        · omega
        · omega
      · intro hkind
        obtain ⟨hthree, hcolon⟩ := Ldk.DosPath.rootLocalDevice_facts hkind
        rcases hroot with h | h
        · omega
        · exact hcolon h.2
    · rw [if_neg hroot, if_neg hroot, List.dropLast_concat]
      have hempty : front ≠ [] := by
        rintro rfl
        exact hroot (.inl rfl)
      by_cases htwo : (front ++ [sep]).length = 2 ∧ isPathSeparator (charAt (front ++ [sep]) 0) = true
      · obtain ⟨first, rfl⟩ := List.length_eq_one_iff.mp (show front.length = 1 by omega)
        have hfirst : isPathSeparator first = true := htwo.2
        have hself : names c ([] ++ [first]) = .directory (directoryPath c ([] ++ [first])) := by
          have hshort : ([] ++ [first]).length < 4 := show 1 < 4 by decide
          apply Ldk.DosPath.names_root hfirst hshort
          intro hkind
          have hthree : 1 = 3 := (Ldk.DosPath.rootLocalDevice_facts hkind).1
          exact absurd hthree (by decide)
        rw [if_pos htwo]
        rw [List.nil_append] at hself
        rw [hself, Ldk.DosPath.Named.directory.injEq]
        exact and_iff_right hdrive
      · rw [if_neg htwo, and_iff_right hdrive]
        apply names_eq_iff hsep hempty
        · rintro ch rfl
          by_contra hch
          exact htwo ⟨rfl, by simpa [charAt] using hch⟩
        · rintro ⟨hlong, hcolon⟩
          apply hroot
          refine .inr ⟨by omega, ?_⟩
          rw [Ldk.DosPath.charAt_append_left (by omega)]
          exact hcolon

/-- The copies read and write inside, whatever the lengths. -/
theorem copyBoth_inside {sourceCch : Nat} {patternStart : List WCHAR}
    (hsource : sourceCch ≤ source.length) :
    Yields (copyBoth source sourceCch patternStart directory pattern) fun _ => True := by
  apply (ldkpCopyWideString_spec hsource).bind
  intro first _
  cases first with
  | error e => exact Yields.ok trivial
  | ok destination =>
    have hcopy : Yields (ldkpCopyWideString pattern patternStart (toULong patternStart.length)) _ :=
      ldkpCopyWideString_spec (Nat.mod_le _ _)
    apply hcopy.bind
    intro second _
    cases second with
    | error e => exact Yields.ok trivial
    | ok text => exact Yields.ok trivial

theorem ldkpSplitFindSpec_inside (s directory pattern : List WCHAR) :
    Yields (ldkpSplitFindSpec s directory pattern) fun _ => True := by
  unfold ldkpSplitFindSpec
  apply Yields.ite
  · exact fun _ => Yields.ok trivial
  intro _
  rw [findLastSeparator_spec]
  by_cases hnone : upToSeparator s = []
  · rw [if_pos hnone]
    exact copyBoth_inside (Nat.le_refl 1)
  · rw [if_neg hnone]
    apply Yields.ite
    · exact fun _ => Yields.ok trivial
    · intro _
      have hle : (upToSeparator s).length ≤ s.length := (List.rdropWhile_prefix _ s).length_le
      have hpos : 0 < (upToSeparator s).length := List.length_pos_of_ne_nil hnone
      apply copyBoth_inside
      unfold directoryLength
      by_cases hone : (upToSeparator s).length - 1 = 0
      · rw [if_pos hone]
        omega
      rw [if_neg hone]
      by_cases hthree : (upToSeparator s).length - 1 = 2 ∧ charAt s 1 = colon
      · rw [if_pos hthree]
        omega
      · rw [if_neg hthree]
        exact Nat.le_trans (Nat.mod_le _ _) (Nat.le_trans (Nat.sub_le _ _) hle)

/-- The split is right exactly when it fails or the directory is the same without its separator. -/
theorem splitsAsSpecified_iff (hnull : ∀ ch ∈ s, ch ≠ 0) (hlast : lastComponent s ≠ [])
    (hlength : s.length < 2 ^ 32) :
    SplitsAsSpecified c s directory pattern ↔
      TooLong s directory pattern ∨ KeepsDirectory c s := by
  have hname : behindSeparator s ≠ [] := by
    by_cases hdrive : IsDriveName s
    · intro hnil
      have hwhole := upToSeparator_append s
      rw [hdrive.1, hnil] at hwhole
      rw [← hwhole] at hlast
      exact hlast (by decide)
    · unfold lastComponent at hlast
      rwa [if_neg hdrive] at hlast
  obtain ⟨result, hresult, hfails, hcopies⟩ :=
    @ldkpSplitFindSpec_spec s directory pattern hlength hname
  rw [← names_directoryText_iff]
  constructor
  · rintro ⟨result', hresult', hright⟩
    rw [hresult] at hresult'
    obtain rfl := Except.ok.inj hresult'
    by_cases hlong : TooLong s directory pattern
    · exact .inl hlong
    · right
      obtain ⟨x, rfl, hcopied⟩ := hcopies hlong
      exact (hcopied.right_iff hnull hlast).mp (hright x rfl)
  · intro hcondition
    refine ⟨result, hresult, ?_⟩
    intro x hx
    have hshort : ¬ TooLong s directory pattern := by
      intro hlong
      obtain ⟨e, he⟩ := hfails hlong
      rw [he] at hx
      cases hx
    obtain ⟨x', hx', hcopied⟩ := hcopies hshort
    rw [hx'] at hx
    obtain rfl := Except.ok.inj hx
    exact (hcopied.right_iff hnull hlast).mpr (hcondition.resolve_left hshort)

/-- A specification is split without overrunning a buffer; and it is split as specified exactly when
there is no room, or the directory is the same without its separator. -/
theorem find_spec_is_split (c : Context) (s directory pattern : List WCHAR)
    (hnull : ∀ ch ∈ s, ch ≠ 0) (hlast : lastComponent s ≠ []) :
    (Yields (ldkpSplitFindSpec s directory pattern) fun _ => True) ∧
      (s.length < 2 ^ 32 → (SplitsAsSpecified c s directory pattern ↔
        TooLong s directory pattern ∨ KeepsDirectory c s)) :=
  ⟨ldkpSplitFindSpec_inside s directory pattern, splitsAsSpecified_iff hnull hlast⟩

/-- `C:\a\*` -/
def plainSpec : List WCHAR :=
  [0x43, colon, Ldk.DosPath.backslash, 0x61, Ldk.DosPath.backslash, 0x2a]

/-- The current directory is `C:\`. -/
def driveContext : Context where
  upcase ch := ch
  dosPath := [0x43, colon, Ldk.DosPath.backslash]
  validDosPath := [0x43, colon, Ldk.DosPath.backslash]
  driveValue _ := none
  deviceRejected := false

theorem ne_zero_of_all {s : List WCHAR} (h : s.all (· != 0) = true) : ∀ ch ∈ s, ch ≠ 0 := by
  intro ch hch
  have hne := List.all_eq_true.mp h ch hch
  simpa using hne

theorem plain_spec_is_split :
    SplitsAsSpecified driveContext plainSpec (List.replicate 260 0) (List.replicate 260 0) ∧
      ldkpSplitFindSpec plainSpec (List.replicate 5 0) (List.replicate 2 0) =
        .ok (.ok ⟨[0x43, colon, Ldk.DosPath.backslash, 0x61, 0], [0x2a, 0]⟩) := by
  have hkeeps : KeepsDirectory driveContext plainSpec := by
    unfold KeepsDirectory
    decide +kernel
  have hsplit := find_spec_is_split driveContext plainSpec (List.replicate 260 0)
    (List.replicate 260 0) (ne_zero_of_all (by decide)) (by decide +kernel)
  exact ⟨(hsplit.2 (by decide)).mpr (.inr hkeeps), by decide +kernel⟩

/-- `\\?\C:\*` -/
def deviceSpec : List WCHAR :=
  Ldk.DosPath.verbatimPrefix ++ [0x43, colon, Ldk.DosPath.backslash, 0x2a]

/-- The root of the volume is split to the volume. -/
theorem device_root_is_lost :
    ¬ SplitsAsSpecified driveContext deviceSpec (List.replicate 260 0) (List.replicate 260 0) := by
  intro hsplits
  have hcondition := (splitsAsSpecified_iff (ne_zero_of_all (by decide)) (by decide +kernel)
    (by decide)).mp hsplits
  have hshort : ¬ TooLong deviceSpec (List.replicate 260 0) (List.replicate 260 0) := by
    unfold TooLong
    decide +kernel
  have hlost : ¬ KeepsDirectory driveContext deviceSpec := by
    unfold KeepsDirectory
    decide +kernel
  rcases hcondition with hlong | hkeeps
  · exact hshort hlong
  · exact hlost hkeeps

end Ldk.FileApi
