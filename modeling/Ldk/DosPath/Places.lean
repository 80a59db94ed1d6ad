import Ldk.DosPath.Normalize

/-!
# What a path names

A reference for the translation of paths, without its buffers: a path of any kind is taken apart
into a root and components, and names a directory (or a file) below the root, or else a device.

- `anchored`: the root and the components, those of the current directory among them.
- `directoryPath`: what a path names when a separator comes behind it.
- `names`: what a path names as it is. Without a separator behind it trailing dots and spaces go,
  and what is left may be a device: one of DOS, or the object of `\\?\` itself and not its root.
- `names_eq_iff`: when a separator behind the path makes no difference.
-/

namespace Ldk.DosPath

/-! ## The reference -/

/-- The components between the separators. -/
def splitPath (s : List WCHAR) : List (List WCHAR) := s.splitOnP isPathSeparator

/-- Each component behind a backslash. -/
def pathText (root : List WCHAR) (dirs : List (List WCHAR)) : List WCHAR :=
  root ++ dirs.flatMap (backslash :: ·)

/-- The server and the share, as far as they are there. -/
def uncRoot (comps : List (List WCHAR)) : List WCHAR :=
  pathText [backslash] ((comps.take 2).filter (· ≠ []))

/-- The root and the components of a path with a share or a drive. -/
def rooted (s : List WCHAR) : List WCHAR × List (List WCHAR) :=
  if rtlDetermineDosPathNameTypeUstr s = .uncAbsolute then
    (uncRoot (splitPath (s.drop 2)), (splitPath (s.drop 2)).drop 2)
  else (s.take 2, splitPath (s.drop 3))

/-- The current directory of a drive: that of the process, or the value of `=X:`, or its root. -/
def driveDirectory (c : Context) (letter : WCHAR) : List WCHAR :=
  if driveOf c.upcase (charAt c.dosPath 0) = driveOf c.upcase letter then c.validDosPath
  else (c.driveValue (driveOf c.upcase letter)).getD (rootAt (driveOf c.upcase letter))

/-- The root and the components of any path. -/
def anchored (c : Context) (s : List WCHAR) : List WCHAR × List (List WCHAR) :=
  match rtlDetermineDosPathNameTypeUstr s with
  | .uncAbsolute | .driveAbsolute => rooted s
  | .localDevice | .rootLocalDevice => (backslash :: backslash :: [charAt s 2], splitPath (s.drop 4))
  | .rooted => ((rooted c.dosPath).1, splitPath (s.drop 1))
  | .driveRelative =>
    let base := rooted (driveDirectory c (charAt s 0))
    (base.1, base.2 ++ splitPath (s.drop 2))
  | .relative | .unknown =>
    let base := rooted c.validDosPath
    (base.1, base.2 ++ splitPath s)

/-- The components that are left when a separator comes behind each. -/
def descendAll (comps : List (List WCHAR)) : List (List WCHAR) :=
  comps.foldl (fun dirs comp => descend dirs comp (withoutDot comp)) []

/-- `\\?\` -/
def verbatimPrefix : List WCHAR := [backslash, backslash, questionMark, backslash]

/-- The path is passed on as it is. -/
def IsVerbatim (s : List WCHAR) : Prop := s.take 4 = verbatimPrefix

instance (s : List WCHAR) : Decidable (IsVerbatim s) := inferInstanceAs (Decidable (_ = _))

/-- The components behind `\\?\` -/
def verbatimNames (s : List WCHAR) : List (List WCHAR) := (splitPath (s.drop 4)).filter (· ≠ [])

/-- What a path names with a separator behind it. -/
def directoryPath (c : Context) (s : List WCHAR) : List WCHAR :=
  if IsVerbatim s then pathText verbatimPrefix (verbatimNames s)
  else pathText (anchored c s).1 (descendAll (anchored c s).2)

/-- What a path names that does not end with a separator. -/
def lastPath (c : Context) (s : List WCHAR) : List WCHAR :=
  (pathText (anchored c s).1 (resolve [] (anchored c s).2)).rdropWhile isDotOrSpace

/-- The path is that of a device. -/
def NamesDevice (c : Context) (s : List WCHAR) : Prop :=
  if IsVerbatim s then ended s = false ∧ (verbatimNames s).length < 2
  else
    match rtlDetermineDosPathNameTypeUstr s with
    | .rootLocalDevice => True
    | .localDevice => ended s = false ∧ (resolve [] (anchored c s).2).length < 2
    | _ => rtlIsDosDeviceNameUstr c.upcase s ≠ 0

instance (c : Context) (s : List WCHAR) : Decidable (NamesDevice c s) := by
  unfold NamesDevice
  split
  · infer_instance
  · split <;> infer_instance

inductive Named where
  | device (path : List WCHAR)
  | directory (path : List WCHAR)
  deriving DecidableEq, Repr

/-- What a path names. -/
def names (c : Context) (s : List WCHAR) : Named :=
  if NamesDevice c s then .device s
  else if ended s = true ∨ IsVerbatim s then .directory (directoryPath c s)
  else .directory (lastPath c s)

/-- A path that would lose its end if no separator came behind it. -/
def IsTrimmed (path : List WCHAR) : Prop := path.rdropWhile isDotOrSpace ≠ path

instance (path : List WCHAR) : Decidable (IsTrimmed path) := inferInstanceAs (Decidable (_ ≠ _))

/-! ## Components -/

variable {c : Context} {s : List WCHAR} {sep : WCHAR}

theorem splitPath_ne_nil (s : List WCHAR) : splitPath s ≠ [] := List.splitOnP_ne_nil _ _

theorem splitPath_concat (s : List WCHAR) (hsep : isPathSeparator sep = true) :
    splitPath (s ++ [sep]) = splitPath s ++ [[]] :=
  List.splitOnP_append_cons s [] hsep

/-- The last component is empty where the path is or ends with a separator. -/
theorem getLast_splitPath (h : s = [] ∨ ended s = true) : (splitPath s).getLast? = some [] := by
  have hfront : ended [backslash] = true := by decide
  rcases h with rfl | h
  · rfl
  · apply (getLast_components s hfront).mpr
    obtain ⟨init, ch, rfl⟩ := (List.eq_nil_or_concat' s).resolve_left (by rintro rfl; cases h)
    rw [ended_concat] at h
    rwa [← List.append_assoc, ended_concat]

theorem ended_drop {k : Nat} (hk : k ≤ s.length) (h : ended s = true) :
    s.drop k = [] ∨ ended (s.drop k) = true := by
  by_cases hlt : k < s.length
  · right
    unfold ended charAt at h ⊢
    rw [List.length_drop, List.getElem?_drop, show k + (s.length - k - 1) = s.length - 1 by omega]
    exact h
  · left
    exact List.drop_eq_nil_of_le (by omega)

theorem descendAll_concat (comps : List (List WCHAR)) (comp : List WCHAR) :
    descendAll (comps ++ [comp]) = descend (descendAll comps) comp (withoutDot comp) :=
  List.foldl_concat _ _ _ _

theorem descendAll_concat_nil (comps : List (List WCHAR)) :
    descendAll (comps ++ [[]]) = descendAll comps := by
  rw [descendAll_concat]
  exact if_pos (.inl rfl)

/-- The last component is kept as it is. -/
theorem resolve_concat (dirs : List (List WCHAR)) (comps : List (List WCHAR)) (comp : List WCHAR) :
    resolve dirs (comps ++ [comp]) =
      descend (comps.foldl (fun dirs comp => descend dirs comp (withoutDot comp)) dirs) comp comp := by
  induction comps generalizing dirs with
  | nil => rfl
  | cons first rest ih =>
    rw [List.cons_append, resolve_cons dirs first (by simp), ih]
    rfl

/-- Nothing comes behind the last separator. -/
theorem resolve_of_getLast {comps : List (List WCHAR)} (h : comps = [] ∨ comps.getLast? = some []) :
    resolve [] comps = descendAll comps := by
  rcases h with rfl | h
  · rfl
  · obtain ⟨init, rfl⟩ := List.getLast?_eq_some_iff.mp h
    rw [resolve_concat, descendAll_concat]
    rfl

/-- The last component loses at most a dot, which is trimmed in any case. -/
theorem rdropWhile_resolve (root : List WCHAR) (comps : List (List WCHAR)) :
    (pathText root (resolve [] comps)).rdropWhile isDotOrSpace =
      (pathText root (descendAll comps)).rdropWhile isDotOrSpace := by
  rcases List.eq_nil_or_concat' comps with rfl | ⟨init, comp, rfl⟩
  · rfl
  · rw [resolve_concat, descendAll_concat]
    change (pathText root (descend (descendAll init) comp comp)).rdropWhile isDotOrSpace = _
    unfold descend
    by_cases hstay : comp = [] ∨ comp = [dot]
    · rw [if_pos hstay, if_pos hstay]
    rw [if_neg hstay, if_neg hstay]
    by_cases hup : comp = [dot, dot]
    · rw [if_pos hup, if_pos hup]
    rw [if_neg hup, if_neg hup]
    unfold withoutDot
    by_cases hdot : comp.getLast? = some dot
    · obtain ⟨stem, rfl⟩ := List.getLast?_eq_some_iff.mp hdot
      have hisDot : isDotOrSpace dot = true := by decide
      have htext : pathText root (descendAll init ++ [stem ++ [dot]]) =
          pathText root (descendAll init ++ [stem]) ++ [dot] := by
        unfold pathText
        simp
      rw [if_pos hdot, List.dropLast_concat, htext, List.rdropWhile_concat_pos _ _ _ hisDot]
    · rw [if_neg hdot]

/-! ## A separator behind a path -/

/-- The kinds of paths do not depend on a separator at the end, but for a single separator, a drive
and `\\.`. -/
theorem pathType_concat (hsep : isPathSeparator sep = true) (hne : s ≠ [])
    (hroot : ∀ ch, s = [ch] → isPathSeparator ch = false)
    (hdrive : ¬ (s.length = 2 ∧ charAt s 1 = colon))
    (hdevice : rtlDetermineDosPathNameTypeUstr s ≠ .rootLocalDevice) :
    rtlDetermineDosPathNameTypeUstr (s ++ [sep]) = rtlDetermineDosPathNameTypeUstr s := by
  have hcolon : sep ≠ colon := by
    rintro rfl
    exact absurd hsep (by decide)
  match s, hne with
  | [a], _ =>
    have ha := hroot a rfl
    simp [rtlDetermineDosPathNameTypeUstr, charAt, ha, hcolon]
  | [a, b], _ =>
    have hb : b ≠ colon := fun h => hdrive ⟨rfl, h⟩
    have hdot : sep ≠ dot := by
      rintro rfl
      exact absurd hsep (by decide)
    have hquestion : sep ≠ questionMark := by
      rintro rfl
      exact absurd hsep (by decide)
    simp [rtlDetermineDosPathNameTypeUstr, charAt, hb, hdot, hquestion]
  | [a, b, d], _ =>
    by_cases hlocal : isPathSeparator a = true ∧ isPathSeparator b = true ∧
        (d = dot ∨ d = questionMark)
    · -- `\\.` becomes a path of a device
      exact absurd (by simp [rtlDetermineDosPathNameTypeUstr, charAt, hlocal]) hdevice
    · have hother : isPathSeparator a = true → isPathSeparator b = true →
          ¬ (d = dot ∨ d = questionMark) := fun ha hb hd => hlocal ⟨ha, hb, hd⟩
      by_cases ha : isPathSeparator a = true <;> by_cases hb : isPathSeparator b = true <;>
        simp_all [rtlDetermineDosPathNameTypeUstr, charAt]
  | a :: b :: d :: e :: rest, _ =>
    simp [rtlDetermineDosPathNameTypeUstr, charAt]

theorem uncRoot_concat (comps : List (List WCHAR)) : uncRoot (comps ++ [[]]) = uncRoot comps := by
  have hempty : ∀ n, (([[]] : List (List WCHAR)).take n).filter (· ≠ []) = [] := by
    intro n
    cases n <;> simp
  unfold uncRoot
  rw [List.take_append, List.filter_append, hempty, List.append_nil]

theorem descendAll_drop (comps : List (List WCHAR)) (n : Nat) :
    descendAll ((comps ++ [[]]).drop n) = descendAll (comps.drop n) := by
  rw [List.drop_append]
  cases n - comps.length with
  | zero => exact descendAll_concat_nil _
  | succ k => rw [List.drop_succ_cons, List.drop_nil, List.append_nil]

theorem descendAll_append_concat (base comps : List (List WCHAR)) :
    descendAll (base ++ (comps ++ [[]])) = descendAll (base ++ comps) := by
  rw [← List.append_assoc, descendAll_concat_nil]

/-- How long a path of a kind is at least. -/
def leastLength : RtlPathType → Nat
  | .uncAbsolute | .driveRelative => 2
  | .driveAbsolute | .rootLocalDevice => 3
  | .localDevice => 4
  | .rooted => 1
  | .relative | .unknown => 0

theorem leastLength_le (s : List WCHAR) : leastLength (rtlDetermineDosPathNameTypeUstr s) ≤ s.length := by
  unfold rtlDetermineDosPathNameTypeUstr
  split_ifs <;> simp only [leastLength] <;> omega

/-- A separator behind a path changes neither its root nor the components that are left. -/
theorem anchored_concat (hsep : isPathSeparator sep = true)
    (hdevice : rtlDetermineDosPathNameTypeUstr s ≠ .rootLocalDevice)
    (htype : rtlDetermineDosPathNameTypeUstr (s ++ [sep]) = rtlDetermineDosPathNameTypeUstr s) :
    (anchored c (s ++ [sep])).1 = (anchored c s).1 ∧
      descendAll (anchored c (s ++ [sep])).2 = descendAll (anchored c s).2 := by
  have hlength := leastLength_le s
  have hsplit : ∀ k, k ≤ s.length →
      splitPath ((s ++ [sep]).drop k) = splitPath (s.drop k) ++ [[]] := by
    intro k hk
    rw [List.drop_append_of_le_length hk, splitPath_concat _ hsep]
  unfold anchored
  rw [htype]
  cases hkind : rtlDetermineDosPathNameTypeUstr s with
  | unknown | relative =>
    rw [hkind] at hlength
    exact ⟨rfl, by rw [splitPath_concat _ hsep, descendAll_append_concat]⟩
  | uncAbsolute =>
    rw [hkind] at hlength
    unfold rooted
    rw [htype, if_pos hkind, if_pos hkind, hsplit 2 hlength]
    exact ⟨uncRoot_concat _, descendAll_drop _ 2⟩
  | driveAbsolute =>
    rw [hkind] at hlength
    have hother : rtlDetermineDosPathNameTypeUstr s ≠ .uncAbsolute := by rw [hkind]; nofun
    unfold rooted
    rw [htype, if_neg hother, if_neg hother, hsplit 3 hlength]
    constructor
    · exact List.take_append_of_le_length (Nat.le_of_succ_le hlength)
    · exact descendAll_concat_nil _
  | driveRelative =>
    rw [hkind] at hlength
    have hletter : charAt (s ++ [sep]) 0 = charAt s 0 :=
      charAt_append_left (Nat.lt_of_lt_of_le Nat.two_pos hlength) _
    dsimp only
    rw [hletter, hsplit 2 hlength, descendAll_append_concat]
    exact ⟨rfl, rfl⟩
  | rooted =>
    rw [hkind] at hlength
    dsimp only
    rw [hsplit 1 hlength, descendAll_concat_nil]
    exact ⟨rfl, rfl⟩
  | localDevice =>
    rw [hkind] at hlength
    have hthird : charAt (s ++ [sep]) 2 = charAt s 2 :=
      charAt_append_left (Nat.lt_of_lt_of_le (by decide) hlength) _
    dsimp only
    rw [hthird, hsplit 4 hlength, descendAll_concat_nil]
    exact ⟨rfl, rfl⟩
  | rootLocalDevice => exact absurd hkind hdevice

/-- No component is left open at the end. -/
theorem resolve_anchored (hended : ended s = true)
    (hdevice : rtlDetermineDosPathNameTypeUstr s ≠ .rootLocalDevice) :
    resolve [] (anchored c s).2 = descendAll (anchored c s).2 := by
  have hlength := leastLength_le s
  have hlast : ∀ k, k ≤ s.length → (splitPath (s.drop k)).getLast? = some [] :=
    fun k hk => getLast_splitPath (ended_drop hk hended)
  have happend : ∀ (base : List (List WCHAR)) k, k ≤ s.length →
      (base ++ splitPath (s.drop k)).getLast? = some [] := by
    intro base k hk
    rw [List.getLast?_append_of_ne_nil _ (splitPath_ne_nil _), hlast k hk]
  apply resolve_of_getLast
  unfold anchored
  cases hkind : rtlDetermineDosPathNameTypeUstr s with
  | unknown | relative => exact .inr (happend _ 0 (Nat.zero_le _))
  | uncAbsolute =>
    rw [hkind] at hlength
    unfold rooted
    rw [if_pos hkind]
    dsimp only
    by_cases hshort : (splitPath (s.drop 2)).length ≤ 2
    · exact .inl (List.drop_eq_nil_of_le hshort)
    · right
      rw [List.getLast?_drop, if_neg hshort]
      exact hlast 2 hlength
  | driveAbsolute =>
    rw [hkind] at hlength
    have hother : rtlDetermineDosPathNameTypeUstr s ≠ .uncAbsolute := by rw [hkind]; nofun
    unfold rooted
    rw [if_neg hother]
    exact .inr (hlast 3 hlength)
  | driveRelative =>
    rw [hkind] at hlength
    exact .inr (happend _ 2 hlength)
  | rooted =>
    rw [hkind] at hlength
    exact .inr (hlast 1 hlength)
  | localDevice =>
    rw [hkind] at hlength
    exact .inr (hlast 4 hlength)
  | rootLocalDevice => exact absurd hkind hdevice

/-! ## Paths with a drive and a root -/

theorem dirText_rootAt (letter : WCHAR) (dirs : List (List WCHAR)) :
    dirText (rootAt letter) dirs = pathText [letter, colon] dirs ++ [backslash] := by
  have hmove : backslash :: dirs.flatMap (· ++ [backslash]) =
      dirs.flatMap (backslash :: ·) ++ [backslash] := by
    induction dirs with
    | nil => rfl
    | cons dir rest ih =>
      rw [List.flatMap_cons, List.flatMap_cons, List.append_assoc, List.singleton_append, ih]
      simp
  unfold dirText pathText rootAt
  rw [List.append_assoc, ← hmove]
  rfl

theorem driveAbsolute_facts (hkind : rtlDetermineDosPathNameTypeUstr s = .driveAbsolute) :
    isPathSeparator (charAt s 0) = false ∧ charAt s 1 = colon := by
  have hlength := leastLength_le s
  rw [hkind] at hlength
  have hfirst : isPathSeparator (charAt s 0) = false := by
    by_contra hsep
    rw [Bool.not_eq_false] at hsep
    unfold rtlDetermineDosPathNameTypeUstr at hkind
    rw [if_pos ⟨Nat.le_trans (by decide) hlength, hsep⟩] at hkind
    split_ifs at hkind
  refine ⟨hfirst, ?_⟩
  by_contra hcolon
  unfold rtlDetermineDosPathNameTypeUstr at hkind
  rw [if_neg (by simp [hfirst]), if_neg (fun h => hcolon h.2.2)] at hkind
  cases hkind

theorem anchored_of_drive (hkind : rtlDetermineDosPathNameTypeUstr s = .driveAbsolute) :
    anchored c s = ([charAt s 0, colon], components s) := by
  have hlength := leastLength_le s
  rw [hkind] at hlength
  have hcolon := (driveAbsolute_facts hkind).2
  unfold anchored rooted
  rw [hkind]
  dsimp only
  rw [if_neg nofun]
  match s, hlength with
  | a :: b :: d :: rest, _ =>
    obtain rfl : b = colon := hcolon
    rfl

theorem not_verbatim_of_drive (hkind : rtlDetermineDosPathNameTypeUstr s = .driveAbsolute) :
    ¬ IsVerbatim s := by
  intro hverbatim
  have hfirst := (driveAbsolute_facts hkind).1
  have hhead : charAt s 0 = backslash := by
    have htake : charAt (s.take 4) 0 = backslash := by rw [hverbatim]; rfl
    unfold charAt at htake ⊢
    rwa [List.getElem?_take_of_lt (by decide)] at htake
  rw [hhead] at hfirst
  exact absurd hfirst (by decide)

/-- With a separator behind it, the normal path is the one that is named. -/
theorem normalize_of_ended (hkind : rtlDetermineDosPathNameTypeUstr s = .driveAbsolute)
    (hended : ended s = true) : normalize s = directoryPath c s ++ [backslash] := by
  have hdevice : rtlDetermineDosPathNameTypeUstr s ≠ .rootLocalDevice := by rw [hkind]; nofun
  have hresolve := resolve_anchored (c := c) hended hdevice
  have hlast : (components s).getLast? = some [] := by
    have hlength := leastLength_le s
    rw [hkind] at hlength
    exact getLast_splitPath (ended_drop hlength hended)
  rw [anchored_of_drive hkind] at hresolve
  have htext : (spell (rootAt (charAt s 0)) (descendAll (components s)) ++
      if (components s).getLast? = some [] ∧ descendAll (components s) ≠ [] then [backslash]
      else []) = dirText (rootAt (charAt s 0)) (descendAll (components s)) := by
    by_cases hdirs : descendAll (components s) = []
    · rw [if_neg (fun h => h.2 hdirs), hdirs]
      rfl
    · rw [if_pos ⟨hlast, hdirs⟩, dirText_eq_spell hdirs]
  unfold normalize normalPath directoryPath
  dsimp only
  dsimp only at hresolve
  rw [if_neg (not_verbatim_of_drive hkind), anchored_of_drive hkind, hresolve, htext,
    dirText_rootAt, List.rdropWhile_concat_neg _ _ _ (by decide)]

/-- Without one, it is the one named as well. -/
theorem normalize_of_not_ended (hkind : rtlDetermineDosPathNameTypeUstr s = .driveAbsolute)
    (hended : (components s).getLast? ≠ some []) (hdirs : resolve [] (components s) ≠ []) :
    normalize s = lastPath c s := by
  have htext : spell (rootAt (charAt s 0)) (resolve [] (components s)) =
      pathText [charAt s 0, colon] (resolve [] (components s)) := by
    have hslash := dirText_rootAt (charAt s 0) (resolve [] (components s))
    rw [dirText_eq_spell hdirs] at hslash
    exact List.append_cancel_right hslash
  unfold normalize normalPath lastPath
  dsimp only
  rw [if_neg (fun h => hended h.1), List.append_nil, htext, anchored_of_drive hkind]

/-! ## When a separator makes no difference -/

theorem verbatim_concat (hverbatim : IsVerbatim s) (hsep : isPathSeparator sep = true) :
    IsVerbatim (s ++ [sep]) ∧ verbatimNames (s ++ [sep]) = verbatimNames s := by
  have hlength : 4 ≤ s.length := by
    have htake : (s.take 4).length = 4 := by rw [hverbatim]; rfl
    rw [List.length_take] at htake
    omega
  constructor
  · exact (List.take_append_of_le_length hlength).trans hverbatim
  · unfold verbatimNames
    rw [List.drop_append_of_le_length hlength, splitPath_concat _ hsep, List.filter_append]
    simp

theorem verbatim_of_concat (hverbatim : IsVerbatim (s ++ [sep]))
    (hdevice : rtlDetermineDosPathNameTypeUstr s ≠ .rootLocalDevice) : IsVerbatim s := by
  have htake : ((s ++ [sep]).take 4).length = 4 := by rw [hverbatim]; rfl
  rw [List.length_take, List.length_append, List.length_singleton] at htake
  by_cases hlength : 4 ≤ s.length
  · exact (List.take_append_of_le_length hlength).symm.trans hverbatim
  · -- what is left of `\\?\` is no path to a directory
    have hthree : s.length = 3 := by omega
    have hwhole : s ++ [sep] = [backslash, backslash, questionMark] ++ [backslash] := by
      have hall : (s ++ [sep]).take 4 = s ++ [sep] :=
        List.take_of_length_le (by rw [List.length_append, hthree]; rfl)
      rw [← hall]
      exact hverbatim
    obtain ⟨rfl, -⟩ := List.append_inj hwhole hthree
    exact absurd (by decide) hdevice

theorem directoryPath_concat (hsep : isPathSeparator sep = true) (hne : s ≠ [])
    (hroot : ∀ ch, s = [ch] → isPathSeparator ch = false)
    (hdrive : ¬ (s.length = 2 ∧ charAt s 1 = colon)) (hnot : ¬ NamesDevice c s) :
    directoryPath c (s ++ [sep]) = directoryPath c s := by
  unfold directoryPath
  by_cases hverbatim : IsVerbatim s
  · obtain ⟨hboth, hnames⟩ := verbatim_concat hverbatim hsep
    rw [if_pos hboth, if_pos hverbatim, hnames]
  · have hdevice : rtlDetermineDosPathNameTypeUstr s ≠ .rootLocalDevice := by
      intro hkind
      apply hnot
      unfold NamesDevice
      rw [if_neg hverbatim, hkind]
      trivial
    have hneither : ¬ IsVerbatim (s ++ [sep]) :=
      fun h => hverbatim (verbatim_of_concat h hdevice)
    have htype := pathType_concat hsep hne hroot hdrive hdevice
    obtain ⟨hfirst, hsecond⟩ := anchored_concat (c := c) hsep hdevice htype
    rw [if_neg hneither, if_neg hverbatim, hfirst, hsecond]

/-- A path names the directory that it names with a separator behind it exactly when it is not that
of a device, and nothing is trimmed from its end. -/
theorem names_eq_iff (hsep : isPathSeparator sep = true) (hne : s ≠ [])
    (hroot : ∀ ch, s = [ch] → isPathSeparator ch = false)
    (hdrive : ¬ (s.length = 2 ∧ charAt s 1 = colon)) :
    names c s = .directory (directoryPath c (s ++ [sep])) ↔
      ¬ NamesDevice c s ∧
        (ended s = true ∨ IsVerbatim s ∨ ¬ IsTrimmed (directoryPath c (s ++ [sep]))) := by
  unfold names
  by_cases hdevice : NamesDevice c s
  · rw [if_pos hdevice]
    exact ⟨nofun, fun h => absurd hdevice h.1⟩
  rw [if_neg hdevice, directoryPath_concat hsep hne hroot hdrive hdevice]
  by_cases hkeeps : ended s = true ∨ IsVerbatim s
  · rw [if_pos hkeeps]
    exact ⟨fun _ => ⟨hdevice, or_assoc.mp (.inl hkeeps)⟩, fun _ => rfl⟩
  · have hverbatim : ¬ IsVerbatim s := fun h => hkeeps (.inr h)
    have hpath : directoryPath c s = pathText (anchored c s).1 (descendAll (anchored c s).2) :=
      if_neg hverbatim
    have hlast : lastPath c s = (directoryPath c s).rdropWhile isDotOrSpace := by
      rw [hpath]
      exact rdropWhile_resolve _ _
    rw [if_neg hkeeps, hlast, Named.directory.injEq]
    unfold IsTrimmed
    rw [not_not]
    constructor
    · exact fun h => ⟨hdevice, .inr (.inr h)⟩
    · rintro ⟨-, hended | h | h⟩
      · exact absurd (.inl hended) hkeeps
      · exact absurd h hverbatim
      · exact h

/-! ## Roots -/

theorem isPathSeparator_cases (hsep : isPathSeparator sep = true) :
    sep = backslash ∨ sep = slash := by
  unfold isPathSeparator at hsep
  simpa using hsep

/-- A path that ends with a separator has no last component to be a device. -/
theorem deviceOfComponent_concat (upcase : WCHAR → WCHAR) (t : List WCHAR)
    (hsep : isPathSeparator sep = true) : deviceOfComponent upcase (t ++ [sep]) = 0 := by
  have hcolon : sep ≠ colon := by
    rintro rfl
    exact absurd hsep (by decide)
  have hplain : isDotOrSpace sep = false := by
    rcases isPathSeparator_cases hsep with rfl | rfl
    · rfl
    · rfl
  have hcut : withoutColon (t ++ [sep]) = ((t ++ [sep]).length, 0) := by
    unfold withoutColon
    rw [List.getLast?_concat, if_neg (fun h => hcolon (Option.some.inj h))]
  have hlength : (t ++ [sep]).length = t.length + 1 := by
    rw [List.length_append, List.length_singleton]
  have hend : charAt (t ++ [sep]) t.length = sep := by
    have hcharAt := charAt_append_right t [sep] 0
    rwa [Nat.add_zero] at hcharAt
  have hfind : findComponent (t ++ [sep]) (t.length + 1) = some (t.length + 1) := by
    have hscan : charAt (t ++ [sep]) t.length = backslash ∨
        charAt (t ++ [sep]) t.length = slash ∨
        charAt (t ++ [sep]) t.length = colon ∧ t.length = 1 := by
      rw [hend]
      rcases isPathSeparator_cases hsep with h | h
      · exact .inl h
      · exact .inr (.inl h)
    unfold findComponent
    rw [if_pos hscan]
  unfold deviceOfComponent
  rw [hcut]
  dsimp only
  rw [if_neg (by omega), List.take_length, List.rdropWhile_concat_neg _ _ _ (by simp [hplain])]
  unfold selectComponent
  rw [hlength, if_neg (Nat.succ_ne_zero _), hfind]
  dsimp only
  rw [if_pos (Nat.le_refl _)]

/-- A root names itself. -/
theorem names_root {front : List WCHAR} (hsep : isPathSeparator sep = true)
    (hshort : (front ++ [sep]).length < 4)
    (hkind : rtlDetermineDosPathNameTypeUstr (front ++ [sep]) ≠ .rootLocalDevice) :
    names c (front ++ [sep]) = .directory (directoryPath c (front ++ [sep])) := by
  have hended : ended (front ++ [sep]) = true := by
    rw [ended_concat]
    exact hsep
  have hverbatim : ¬ IsVerbatim (front ++ [sep]) := by
    intro h
    have htake := congrArg List.length (show (front ++ [sep]).take 4 = _ from h)
    rw [List.length_take, Nat.min_eq_right (Nat.le_of_lt hshort)] at htake
    exact absurd hshort (by rw [htake]; decide)
  have hdevice : ¬ NamesDevice c (front ++ [sep]) := by
    have hlocal : rtlDetermineDosPathNameTypeUstr (front ++ [sep]) ≠ .localDevice := by
      intro h
      have hleast := leastLength_le (front ++ [sep])
      rw [h] at hleast
      exact absurd hleast (Nat.not_le_of_lt hshort)
    have hname : rtlIsDosDeviceNameUstr c.upcase (front ++ [sep]) = 0 := by
      unfold rtlIsDosDeviceNameUstr
      cases h : rtlDetermineDosPathNameTypeUstr (front ++ [sep]) with
      | localDevice => exact absurd h hlocal
      | uncAbsolute | unknown => rfl
      | _ => exact deviceOfComponent_concat _ front hsep
    unfold NamesDevice
    rw [if_neg hverbatim]
    cases h : rtlDetermineDosPathNameTypeUstr (front ++ [sep]) with
    | rootLocalDevice => exact absurd h hkind
    | localDevice => exact absurd h hlocal
    | _ => exact not_not.mpr hname
  unfold names
  rw [if_neg hdevice, if_pos (.inl hended)]

theorem rootLocalDevice_facts (hkind : rtlDetermineDosPathNameTypeUstr s = .rootLocalDevice) :
    s.length = 3 ∧ charAt s 1 ≠ colon := by
  unfold rtlDetermineDosPathNameTypeUstr at hkind
  by_cases hfirst : 1 ≤ s.length ∧ isPathSeparator (charAt s 0) = true
  · rw [if_pos hfirst] at hkind
    by_cases hsecond : 2 ≤ s.length ∧ isPathSeparator (charAt s 1) = true
    · rw [if_pos hsecond] at hkind
      have hthree : s.length = 3 := by
        split_ifs at hkind with hdot hfourth hlength
        exact hlength
      refine ⟨hthree, fun hcolon => ?_⟩
      rw [hcolon] at hsecond
      exact absurd hsecond.2 (by decide)
    · rw [if_neg hsecond] at hkind
      cases hkind
  · rw [if_neg hfirst] at hkind
    split_ifs at hkind

/-- The current directory. -/
theorem names_dot (c : Context) :
    names c [dot] = .directory ((directoryPath c []).rdropWhile isDotOrSpace) := by
  have hverbatim : ¬ IsVerbatim [dot] := by decide
  have hempty : ¬ IsVerbatim [] := by decide
  have hdevice : ¬ NamesDevice c [dot] := by
    have hname : rtlIsDosDeviceNameUstr c.upcase [dot] = 0 := rfl
    unfold NamesDevice
    rw [if_neg hverbatim]
    exact not_not.mpr hname
  have hsplit : splitPath [dot] = [[dot]] := by decide +kernel
  have hdirs : descendAll ((rooted c.validDosPath).2 ++ splitPath [dot]) =
      descendAll ((rooted c.validDosPath).2 ++ splitPath []) := by
    rw [hsplit, descendAll_concat]
    exact (descendAll_concat_nil _).symm
  have hpath : pathText (anchored c [dot]).1 (descendAll (anchored c [dot]).2) =
      directoryPath c [] := by
    unfold directoryPath
    rw [if_neg hempty]
    exact congrArg (pathText (rooted c.validDosPath).1) hdirs
  unfold names lastPath
  rw [if_neg hdevice, if_neg (by decide), rdropWhile_resolve, hpath]

end Ldk.DosPath
