import Ldk.DosPath.Bounds

/-!
# The path that comes out

What `RtlGetFullPathName_Ustr` makes of a path with a drive and a root. The reference takes the
path apart at its separators, and puts it together again without what `.` and `..` take away
(`normalize`). The loop does the same one component after another, on what the output shows
(`walk_components`), but it has no branch for a component that only begins with a dot: there it
stops, and what comes from there on is lost (`full_path_is_normalized`).
-/

namespace Ldk.DosPath

/-! ## The reference -/

/-- A separator comes behind the component: a trailing dot goes. -/
def withoutDot (comp : List WCHAR) : List WCHAR :=
  if comp.getLast? = some dot then comp.dropLast else comp

/-- One component more, which is kept as `kept`. -/
def descend (dirs : List (List WCHAR)) (comp kept : List WCHAR) : List (List WCHAR) :=
  if comp = [] ∨ comp = [dot] then dirs
  else if comp = [dot, dot] then dirs.dropLast
  else dirs ++ [kept]

/-- The components that are left. -/
def resolve (dirs : List (List WCHAR)) : List (List WCHAR) → List (List WCHAR)
  | [] => dirs
  | [comp] => descend dirs comp comp
  | comp :: next :: rest => resolve (descend dirs comp (withoutDot comp)) (next :: rest)

/-- The root with each component behind a backslash. -/
def spell (root : List WCHAR) (dirs : List (List WCHAR)) : List WCHAR :=
  root ++ [backslash].intercalate dirs

/-- The components in a path; a separator at the end stays as one backslash, and trailing dots and
spaces go. -/
def normalPath (root : List WCHAR) (comps : List (List WCHAR)) : List WCHAR :=
  let dirs := resolve [] comps
  (spell root dirs ++ if comps.getLast? = some [] ∧ dirs ≠ [] then [backslash] else []).rdropWhile
    isDotOrSpace

/-- The components of what comes behind the root. -/
def components (s : List WCHAR) : List (List WCHAR) := (s.drop 3).splitOnP isPathSeparator

/-- `X:\` -/
def rootAt (letter : WCHAR) : List WCHAR := [letter, colon, backslash]

/-- The reference for a path with a drive and a root. -/
def normalize (s : List WCHAR) : List WCHAR := normalPath (rootAt (charAt s 0)) (components s)

/-! ## Names with a dot in front -/

/-- A component that begins with a dot, other than `.` and `..`. -/
def isDotName (comp : List WCHAR) : Bool :=
  comp.head? == some dot && comp != [dot] && comp != [dot, dot]

/-- What the loop makes of the components: the first of those names counts as `.`, or as `..` when
it begins with two dots, and the rest is lost. -/
def cut : List (List WCHAR) → List (List WCHAR)
  | [] => []
  | comp :: rest =>
    if isDotName comp then
      if charAt comp 1 = dot then [[dot, dot]]
      else if (comp :: rest).getLast? = some [] then [[dot], []]
      else [[dot]]
    else comp :: cut rest

theorem cut_eq_self {comps : List (List WCHAR)} (h : ∀ comp ∈ comps, isDotName comp = false) :
    cut comps = comps := by
  induction comps with
  | nil => rfl
  | cons comp comps ih =>
    unfold cut
    rw [h comp List.mem_cons_self, if_neg Bool.false_ne_true,
      ih fun next hnext => h next (List.mem_cons_of_mem _ hnext)]

/-! ## What the output shows -/

/-- The text before the cursor; behind it there are zeros, up to `cap` characters. -/
def shown (cap : Nat) (junk text : List WCHAR) : Output :=
  ⟨text ++ List.replicate (cap - text.length) 0 ++ junk, text.length⟩

variable {cap : Nat} {junk text : List WCHAR} {ch : WCHAR}

theorem shown_push (h : text.length < cap) :
    (shown cap junk text).push ch = .ok (shown cap junk (text ++ [ch])) := by
  obtain ⟨k, hk⟩ := Nat.exists_eq_add_of_lt h
  have hlt : (shown cap junk text).dest < (shown cap junk text).buffer.length := by
    unfold shown
    simp only [List.length_append, List.length_replicate]
    omega
  have hzeros : cap - text.length = k + 1 := by omega
  have hrest : cap - (text ++ [ch]).length = k := by
    rw [List.length_append, List.length_singleton]
    omega
  rw [Output.push_eq hlt]
  unfold shown
  rw [hzeros, hrest, List.replicate_succ, List.append_assoc, List.set_append_right _ _ (Nat.le_refl _),
    Nat.sub_self]
  simp

theorem shown_previous :
    (shown cap junk (text ++ [ch])).previous = .ok ch := by
  have hlen : (text ++ [ch]).length = text.length + 1 := by simp
  unfold Output.previous shown
  dsimp only
  rw [hlen, if_neg (Nat.succ_ne_zero _), Nat.add_sub_cancel, List.append_assoc, List.append_assoc,
    List.getElem?_append_right (Nat.le_refl _), Nat.sub_self]
  rfl

/-! ## Directories -/

/-- The components with a backslash behind each. -/
def dirText (root : List WCHAR) (dirs : List (List WCHAR)) : List WCHAR :=
  root ++ dirs.flatMap (· ++ [backslash])

variable {root : List WCHAR} {dirs : List (List WCHAR)} {comp : List WCHAR}

theorem dirText_concat (root : List WCHAR) (dirs : List (List WCHAR)) (comp : List WCHAR) :
    dirText root (dirs ++ [comp]) = dirText root dirs ++ comp ++ [backslash] := by
  unfold dirText
  rw [List.flatMap_append, List.append_assoc, List.append_assoc]
  simp

theorem spell_concat (root : List WCHAR) (dirs : List (List WCHAR)) (comp : List WCHAR) :
    spell root (dirs ++ [comp]) = dirText root dirs ++ comp := by
  have hjoin : [backslash].intercalate (dirs ++ [comp]) =
      dirs.flatMap (· ++ [backslash]) ++ comp := by
    induction dirs with
    | nil => simp
    | cons dir dirs ih =>
      rw [List.cons_append, List.intercalate_cons_of_ne_nil (by simp), ih, List.flatMap_cons]
      simp only [List.append_assoc]
  unfold spell dirText
  rw [hjoin, List.append_assoc]

/-- The text of a directory is its path with a backslash. -/
theorem dirText_eq_spell (hdirs : dirs ≠ []) :
    dirText root dirs = spell root dirs ++ [backslash] := by
  obtain ⟨front, last, rfl⟩ := (List.eq_nil_or_concat' dirs).resolve_left hdirs
  rw [dirText_concat, spell_concat]

/-! ## Going back -/

theorem eraseToSeparator_stop {buffer : List WCHAR} {dest : Nat}
    (h : buffer[dest]? = some backslash) : eraseToSeparator buffer dest = .ok ⟨buffer, dest⟩ := by
  cases dest with
  | zero =>
    unfold eraseToSeparator
    rw [h]
    rfl
  | succ dest =>
    unfold eraseToSeparator
    rw [h]
    exact if_pos rfl

/-- Behind a backslash the first loop goes back by one. -/
theorem eraseToSeparator_shown (cap : Nat) (junk front : List WCHAR)
    (hcap : front.length + 1 < cap) :
    eraseToSeparator (shown cap junk (front ++ [backslash])).buffer (front.length + 1) =
      .ok ⟨(shown cap junk (front ++ [backslash])).buffer, front.length⟩ := by
  obtain ⟨k, hk⟩ := Nat.exists_eq_add_of_lt hcap
  have hbuffer : (shown cap junk (front ++ [backslash])).buffer =
      front ++ backslash :: 0 :: (List.replicate k 0 ++ junk) := by
    have hzeros : cap - (front ++ [backslash]).length = k + 1 := by
      rw [List.length_append, List.length_singleton]
      omega
    unfold shown
    rw [hzeros, List.replicate_succ]
    simp
  have hzero : (front ++ backslash :: 0 :: (List.replicate k 0 ++ junk))[front.length + 1]? =
      some 0 := by
    rw [List.getElem?_append_right (Nat.le_add_right _ 1), Nat.add_sub_cancel_left]
    rfl
  have hset : (front ++ backslash :: 0 :: (List.replicate k 0 ++ junk)).set (front.length + 1) 0 =
      front ++ backslash :: 0 :: (List.replicate k 0 ++ junk) := by
    rw [List.set_append_right _ _ (Nat.le_add_right _ 1), Nat.add_sub_cancel_left]
    rfl
  rw [hbuffer]
  unfold eraseToSeparator
  rw [hzero]
  dsimp only
  rw [if_neg (by decide), hset]
  apply eraseToSeparator_stop
  rw [List.getElem?_append_right (Nat.le_refl _), Nat.sub_self]
  rfl

theorem set_append_cons (front rest : List WCHAR) (ch ch' : WCHAR) :
    (front ++ ch :: rest).set front.length ch' = front ++ ch' :: rest := by
  rw [List.set_append_right _ _ (Nat.le_refl _), Nat.sub_self]
  rfl

theorem charAt_append_cons (front rest : List WCHAR) (ch : WCHAR) :
    charAt (front ++ ch :: rest) front.length = ch := charAt_append_right front (ch :: rest) 0

/-- One step of the second loop. -/
theorem eraseToParent_step {floor : Nat} (front rest : List WCHAR) (last ch : WCHAR)
    (hfloor : floor ≤ front.length) :
    eraseToParent floor (front ++ last :: ch :: rest) (front.length + 1) =
      if last = backslash then .ok ⟨front ++ last :: 0 :: rest, front.length⟩
      else eraseToParent floor (front ++ last :: 0 :: rest) front.length := by
  have hset : (front ++ last :: ch :: rest).set (front.length + 1) 0 =
      front ++ last :: 0 :: rest := by
    have hsplit := set_append_cons (front ++ [last]) rest ch 0
    rw [List.append_assoc, List.append_assoc, List.length_append] at hsplit
    exact hsplit
  rw [eraseToParent, if_neg (by omega), if_neg (by simp), hset]
  dsimp only
  rw [charAt_append_cons]

/-- The second loop takes a component away. -/
theorem eraseToParent_eq {floor : Nat} (front rest : List WCHAR) (ch : WCHAR)
    (hcomp : backslash ∉ comp) (hfloor : floor ≤ front.length) :
    eraseToParent floor (front ++ backslash :: (comp ++ ch :: rest))
        (front.length + 1 + comp.length) =
      .ok ⟨front ++ backslash :: (List.replicate (comp.length + 1) 0 ++ rest), front.length⟩ := by
  induction comp using List.reverseRecOn generalizing ch rest with
  | nil =>
    have hstep := eraseToParent_step front rest backslash ch hfloor
    rw [if_pos rfl] at hstep
    exact hstep
  | append_singleton comp last ih =>
    have hlast : last ≠ backslash := by
      rintro rfl
      exact hcomp (by simp)
    have hstep := eraseToParent_step (front ++ backslash :: comp) rest last ch
      (Nat.le_trans hfloor (by simp))
    have hlen : (front ++ backslash :: comp).length = front.length + 1 + comp.length := by
      rw [List.length_append, List.length_cons]
      omega
    rw [if_neg hlast, hlen] at hstep
    have hnext := ih (0 :: rest) last fun h => hcomp (List.mem_append_left _ h)
    have hsplit : front ++ backslash :: (comp ++ [last] ++ ch :: rest) =
        front ++ backslash :: comp ++ last :: ch :: rest := by simp
    have hsplit' : front ++ backslash :: comp ++ last :: 0 :: rest =
        front ++ backslash :: (comp ++ last :: 0 :: rest) := by simp
    have hzeros : List.replicate (comp.length + 1) (0 : WCHAR) ++ 0 :: rest =
        List.replicate (comp.length + 1 + 1) 0 ++ rest := by
      rw [List.replicate_succ' (n := comp.length + 1), List.append_assoc]
      rfl
    rw [List.length_append, List.length_singleton, ← Nat.add_assoc, hsplit, hstep, hsplit', hnext,
      hzeros]

/-- Where `..` leaves the cursor: on the backslash, but behind the one of the root. -/
def closed (cap : Nat) (junk root : List WCHAR) (dirs : List (List WCHAR)) : Output :=
  if dirs = [] then shown cap junk root
  else ⟨(shown cap junk (dirText root dirs)).buffer, (spell root dirs).length⟩

/-- The components that are kept are names. -/
def AreNames (dirs : List (List WCHAR)) : Prop := ∀ dir ∈ dirs, dir ≠ [] ∧ backslash ∉ dir

variable {letter : WCHAR}

/-- The text before the last backslash. -/
theorem dirText_split (letter : WCHAR) (dirs : List (List WCHAR)) : ∃ front,
    dirText (rootAt letter) dirs = front ++ [backslash] ∧ 2 ≤ front.length ∧
      (dirs = [] → front.length = 2) ∧
      (dirs ≠ [] → front = spell (rootAt letter) dirs ∧ 3 ≤ front.length) := by
  by_cases hdirs : dirs = []
  · subst hdirs
    exact ⟨[letter, colon], rfl, Nat.le_refl 2, fun _ => rfl, fun h => absurd rfl h⟩
  · have hlong : 3 ≤ (spell (rootAt letter) dirs).length := by
      unfold spell
      rw [List.length_append]
      exact Nat.le_add_right 3 _
    exact ⟨_, dirText_eq_spell hdirs, Nat.le_of_succ_le hlong, fun h => absurd h hdirs,
      fun _ => ⟨rfl, hlong⟩⟩

theorem buffer_shown_append (cap : Nat) (junk front tail : List WCHAR)
    (hcap : (front ++ tail).length ≤ cap) :
    front ++ (List.replicate tail.length 0 ++ (List.replicate (cap - (front ++ tail).length) 0 ++
      junk)) = (shown cap junk front).buffer := by
  rw [List.length_append] at hcap ⊢
  obtain ⟨k, rfl⟩ := Nat.exists_eq_add_of_le hcap
  have hone : front.length + tail.length + k - (front.length + tail.length) = k := by omega
  have htwo : front.length + tail.length + k - front.length = tail.length + k := by omega
  unfold shown
  rw [hone, htwo, List.replicate_add]
  simp only [List.append_assoc]

/-- `..` takes the last component away, if there is one. -/
theorem dotDot_shown (hdirs : AreNames dirs)
    (hcap : (dirText (rootAt letter) dirs).length < cap) :
    dotDot 3 (shown cap junk (dirText (rootAt letter) dirs)) =
      .ok (closed cap junk (rootAt letter) dirs.dropLast) := by
  obtain ⟨front, hfront, htwo, hnil, hcons⟩ := dirText_split letter dirs
  have hlen : (dirText (rootAt letter) dirs).length = front.length + 1 := by
    rw [hfront, List.length_append, List.length_singleton]
  have hfirst := eraseToSeparator_shown cap junk front (hlen ▸ hcap)
  rw [← hfront] at hfirst
  have hdest : (shown cap junk (dirText (rootAt letter) dirs)).dest = front.length + 1 := hlen
  unfold dotDot
  rw [hdest, hfirst, Yields.ok_bind]
  dsimp only
  by_cases hempty : dirs = []
  · have hstop : eraseToParent (3 - 1) (shown cap junk (dirText (rootAt letter) dirs)).buffer
        front.length = .ok ⟨(shown cap junk (dirText (rootAt letter) dirs)).buffer, 2⟩ := by
      rw [hnil hempty]
      rfl
    rw [hstop, Yields.ok_bind, if_pos rfl]
    subst hempty
    rfl
  · obtain ⟨rest, last, rfl⟩ := (List.eq_nil_or_concat' dirs).resolve_left hempty
    obtain ⟨front', hfront', htwo', hnil', hcons'⟩ := dirText_split letter rest
    have hlast := hdirs last (by simp)
    have htext : dirText (rootAt letter) (rest ++ [last]) =
        dirText (rootAt letter) rest ++ (last ++ [backslash]) := by
      rw [dirText_concat, List.append_assoc]
    have hsame : front = front' ++ backslash :: last := by
      rw [htext, hfront', ← List.append_assoc] at hfront
      rw [← List.append_cancel_right hfront]
      simp
    have hbuffer : (shown cap junk (dirText (rootAt letter) (rest ++ [last]))).buffer =
        front' ++ backslash :: (last ++ backslash :: (List.replicate
          (cap - (dirText (rootAt letter) (rest ++ [last])).length) 0 ++ junk)) := by
      unfold shown
      dsimp only
      rw [htext, hfront']
      simp
    have hzeros := buffer_shown_append cap junk (dirText (rootAt letter) rest)
      (last ++ [backslash]) (by rw [← htext]; exact Nat.le_of_lt hcap)
    rw [← htext, hfront', List.length_append, List.length_singleton, List.append_assoc] at hzeros
    have hlength : front.length = front'.length + 1 + last.length := by
      rw [hsame, List.length_append, List.length_cons]
      omega
    have hsecond := eraseToParent_eq front' (List.replicate
      (cap - (dirText (rootAt letter) (rest ++ [last])).length) 0 ++ junk) backslash hlast.2 htwo'
    rw [hbuffer, hlength, hsecond, Yields.ok_bind, List.dropLast_concat]
    dsimp only
    have hresult : front' ++ backslash :: (List.replicate (last.length + 1) 0 ++
        (List.replicate (cap - (dirText (rootAt letter) (rest ++ [last])).length) 0 ++ junk)) =
          (shown cap junk (dirText (rootAt letter) rest)).buffer := by
      rw [hfront']
      exact hzeros
    rw [hresult]
    unfold closed
    by_cases hrest : rest = []
    · rw [if_pos (hnil' hrest), if_pos hrest, hnil' hrest]
      subst hrest
      rfl
    · obtain ⟨hspell, hthree⟩ := hcons' hrest
      rw [if_neg (by omega), if_neg hrest, ← hspell]
      rfl

/-- What the output shows of a directory, behind `..`. -/
theorem closed_text (dirs : List (List WCHAR)) :
    (closed cap junk (rootAt letter) dirs).buffer.take
        (closed cap junk (rootAt letter) dirs).dest = spell (rootAt letter) dirs := by
  unfold closed
  split
  · rename_i hdirs
    subst hdirs
    unfold shown
    rw [List.append_assoc, List.take_left]
    rfl
  · rename_i hdirs
    unfold shown
    dsimp only
    rw [dirText_eq_spell hdirs, List.append_assoc, List.append_assoc, List.take_left]

/-- Behind a backslash a separator stores nothing. -/
theorem separator_shown (front : List WCHAR) :
    separator (shown cap junk (front ++ [backslash])) =
      .ok (shown cap junk (front ++ [backslash])) := by
  unfold separator
  rw [shown_previous, Yields.ok_bind, if_pos rfl]
  rfl

/-- Behind another character it stores a backslash. -/
theorem separator_push (base rest : List WCHAR) {last : WCHAR} (ch : WCHAR)
    (hlast : last ≠ backslash) :
    separator ⟨base ++ last :: ch :: rest, base.length + 1⟩ =
      .ok ⟨base ++ last :: backslash :: rest, base.length + 2⟩ := by
  have hprevious : (Output.mk (base ++ last :: ch :: rest) (base.length + 1)).previous =
      .ok last := by
    rw [Output.previous_eq (Nat.succ_pos _)
      (by simp only [List.length_append, List.length_cons]; omega)]
    dsimp only
    rw [Nat.add_sub_cancel, charAt_append_cons]
  have hset : (base ++ last :: ch :: rest).set (base.length + 1) backslash =
      base ++ last :: backslash :: rest := by
    have hsplit := set_append_cons (base ++ [last]) rest ch backslash
    rw [List.append_assoc, List.append_assoc, List.length_append] at hsplit
    exact hsplit
  unfold separator
  rw [hprevious, Yields.ok_bind, if_neg hlast, Output.push_eq (by simp)]
  dsimp only
  rw [hset]

/-- Behind `..` a separator is the backslash the cursor is on. -/
theorem separator_closed (hdirs : AreNames dirs) :
    separator (closed cap junk (rootAt letter) dirs) =
      .ok (shown cap junk (dirText (rootAt letter) dirs)) := by
  by_cases hempty : dirs = []
  · subst hempty
    exact separator_shown [letter, colon]
  obtain ⟨rest, name, rfl⟩ := (List.eq_nil_or_concat' dirs).resolve_left hempty
  obtain ⟨hname, hchars⟩ := hdirs name (by simp)
  obtain ⟨init, last, rfl⟩ := (List.eq_nil_or_concat' name).resolve_left hname
  have hlast : last ≠ backslash := by
    rintro rfl
    exact hchars (by simp)
  have hspell : spell (rootAt letter) (rest ++ [init ++ [last]]) =
      dirText (rootAt letter) rest ++ init ++ [last] := by
    rw [spell_concat, List.append_assoc]
  have hpush := separator_push (dirText (rootAt letter) rest ++ init)
    (List.replicate (cap - (dirText (rootAt letter) rest ++ init ++ [last] ++
      [backslash]).length) 0 ++ junk) backslash hlast
  unfold closed shown
  rw [if_neg hempty, dirText_eq_spell hempty, hspell]
  simpa [Nat.add_assoc] using hpush

/-! ## One component -/

variable {s front tail : List WCHAR}

/-- What is left of the name begins with a separator, or there is nothing left. -/
def Ends (tail : List WCHAR) : Prop := tail = [] ∨ isPathSeparator (charAt tail 0) = true

theorem copyComponent_shown (hname : ∀ ch ∈ comp, isPathSeparator ch = false) (hends : Ends tail)
    (hcap : (text ++ comp).length < cap) :
    copyComponent (front ++ comp ++ tail) (comp ++ tail).length front.length
        (shown cap junk text) =
      .ok ((front ++ comp).length, shown cap junk (text ++ comp)) := by
  induction comp generalizing front text with
  | nil =>
    rw [List.append_nil, List.append_nil, List.nil_append]
    cases tail with
    | nil => rfl
    | cons ch tail =>
      have htail : isPathSeparator ch = true := hends.resolve_left (by simp)
      rw [List.length_cons]
      unfold copyComponent
      rw [charAt_append_cons, if_pos htail]
  | cons ch comp ih =>
    have hfirst := hname ch List.mem_cons_self
    have hpush : (shown cap junk text).push ch = .ok (shown cap junk (text ++ [ch])) :=
      shown_push (by rw [List.length_append, List.length_cons] at hcap; omega)
    have hnext : copyComponent (front ++ [ch] ++ comp ++ tail) (comp ++ tail).length
        (front ++ [ch]).length (shown cap junk (text ++ [ch])) =
          .ok ((front ++ [ch] ++ comp).length, shown cap junk (text ++ [ch] ++ comp)) :=
      ih (fun c hc => hname c (List.mem_cons_of_mem _ hc)) (by simpa using hcap)
    have hsplit : front ++ (ch :: comp) ++ tail = front ++ [ch] ++ comp ++ tail := by simp
    have hchar : charAt (front ++ [ch] ++ comp ++ tail) front.length = ch := by
      rw [← hsplit, List.append_assoc, List.cons_append, charAt_append_cons]
    have hlen : (front ++ [ch]).length = front.length + 1 := by simp
    rw [hlen] at hnext
    rw [List.cons_append, List.length_cons, hsplit]
    unfold copyComponent
    rw [hchar, hfirst, if_neg Bool.false_ne_true, hpush, Yields.ok_bind, hnext]
    simp

theorem walk_separator (front tail : List WCHAR) (hch : isPathSeparator ch = true) (rounds : Nat)
    (o : Output) :
    walk (front ++ ch :: tail) 3 (rounds + 1) front.length front.length o =
      separator o >>= walk (front ++ ch :: tail) 3 rounds (front.length + 1)
        (front.length + 1) := by
  have hlt : ¬ (front ++ ch :: tail).length ≤ front.length := by simp
  rw [walk, if_neg hlt, charAt_append_cons, if_pos hch]

theorem isPathSeparator_dot : isPathSeparator dot = false := by decide

theorem charAt_second (front tail : List WCHAR) (ch ch' : WCHAR) :
    charAt (front ++ ch :: ch' :: tail) (front.length + 1) = ch' :=
  charAt_append_right front (ch :: ch' :: tail) 1

/-- `.` goes, with the separator behind it. -/
theorem walk_skip (front tail : List WCHAR) (hch : isPathSeparator ch = true) (rounds : Nat)
    (o : Output) :
    walk (front ++ dot :: ch :: tail) 3 (rounds + 1) front.length front.length o =
      walk (front ++ dot :: ch :: tail) 3 rounds (front.length + 2) (front.length + 2) o := by
  have hlen : (front ++ dot :: ch :: tail).length = front.length + 2 + tail.length := by
    rw [List.length_append, List.length_cons, List.length_cons]
    omega
  have hdot : isDotUstr (front ++ dot :: ch :: tail) front.length
      ((front ++ dot :: ch :: tail).length - front.length) = true := by
    unfold isDotUstr
    rw [charAt_append_cons, charAt_second, hch, hlen, decide_eq_true (by omega), Bool.or_true]
    rfl
  rw [walk, if_neg (by omega), charAt_append_cons, isPathSeparator_dot, if_neg Bool.false_ne_true,
    if_pos rfl, if_pos hdot, charAt_second, if_pos ⟨by omega, hch⟩]

/-- `.` at the end. -/
theorem walk_last_dot (front : List WCHAR) (rounds : Nat) (o : Output) :
    walk (front ++ [dot]) 3 rounds front.length front.length o = .ok o := by
  cases rounds with
  | zero => rfl
  | succ rounds =>
    have hlen : (front ++ [dot]).length = front.length + 1 := by simp
    have hdot : isDotUstr (front ++ [dot]) front.length ((front ++ [dot]).length - front.length) =
        true := by
      unfold isDotUstr
      rw [charAt_append_cons, hlen, Nat.add_sub_cancel_left]
      rfl
    rw [walk, if_neg (by omega), charAt_append_cons, isPathSeparator_dot,
      if_neg Bool.false_ne_true, if_pos rfl, if_pos hdot, if_neg (by omega)]
    exact walk_end _ _ _ (by omega)

/-- `..` -/
theorem walk_up (front : List WCHAR) (hends : Ends tail) (rounds : Nat) (o : Output) :
    walk (front ++ dot :: dot :: tail) 3 (rounds + 1) front.length front.length o =
      dotDot 3 o >>= walk (front ++ dot :: dot :: tail) 3 rounds (front.length + 2)
        (front.length + 2) := by
  have hlen : (front ++ dot :: dot :: tail).length = front.length + 2 + tail.length := by
    rw [List.length_append, List.length_cons, List.length_cons]
    omega
  have hthird : charAt (front ++ dot :: dot :: tail) (front.length + 1 + 1) = charAt tail 0 :=
    charAt_append_right front (dot :: dot :: tail) 2
  have hone : isDotUstr (front ++ dot :: dot :: tail) front.length
      ((front ++ dot :: dot :: tail).length - front.length) = false := by
    apply not_isDotUstr (by omega)
    rw [charAt_second]
    exact isPathSeparator_dot
  have hup : isDotDotUstr (front ++ dot :: dot :: tail) front.length
      ((front ++ dot :: dot :: tail).length - front.length) = true := by
    unfold isDotDotUstr isDotUstr
    rw [charAt_append_cons, charAt_second, hthird, decide_eq_true (by omega),
      decide_eq_true (by omega)]
    rcases hends with rfl | hends
    · rw [hlen]
      simp
    · rw [hends, Bool.or_true]
      rfl
  rw [walk, if_neg (by omega), charAt_append_cons, isPathSeparator_dot, if_neg Bool.false_ne_true,
    if_pos rfl, hone, if_neg Bool.false_ne_true, if_pos hup]

/-- A component that is copied. -/
theorem walk_name (hname : ∀ c ∈ comp, isPathSeparator c = false) (hhead : comp ≠ [])
    (hdot : charAt comp 0 ≠ dot) (hends : Ends tail) (hcap : (text ++ comp).length < cap)
    (rounds : Nat) :
    walk (front ++ comp ++ tail) 3 (rounds + 1) front.length front.length (shown cap junk text) =
      dropDot (front ++ comp ++ tail) (front ++ comp).length (shown cap junk (text ++ comp)) >>=
        walk (front ++ comp ++ tail) 3 rounds (front ++ comp).length (front ++ comp).length := by
  obtain ⟨ch, rest, rfl⟩ := List.exists_cons_of_ne_nil hhead
  change ch ≠ dot at hdot
  have hfirst : charAt (front ++ ch :: rest ++ tail) front.length = ch := by
    rw [List.append_assoc, List.cons_append, charAt_append_cons]
  have hlen : (front ++ ch :: rest ++ tail).length - front.length = (ch :: rest ++ tail).length := by
    rw [List.append_assoc, List.length_append, Nat.add_sub_cancel_left]
  have hcopy := @copyComponent_shown cap junk text (ch :: rest) front tail hname hends hcap
  have hlt : ¬ (front ++ ch :: rest ++ tail).length ≤ front.length := by simp
  have hnext : front.length + ((front ++ ch :: rest).length - front.length) =
      (front ++ ch :: rest).length := by
    rw [List.length_append]
    omega
  rw [walk, if_neg hlt, hfirst, hname ch List.mem_cons_self, if_neg Bool.false_ne_true,
    if_neg hdot, hlen, hcopy, Yields.ok_bind]
  dsimp only
  rw [hnext]

/-- A name: it is not empty, it has no separator, and no dot in front. -/
structure IsName (comp : List WCHAR) : Prop where
  ne_nil : comp ≠ []
  noSeparator : ∀ ch ∈ comp, isPathSeparator ch = false
  first : charAt comp 0 ≠ dot

namespace IsName

theorem ne_backslash (h : IsName comp) (hch : ch ∈ comp) : ch ≠ backslash := by
  rintro rfl
  exact absurd (h.noSeparator _ hch) (by decide)

/-- Without its trailing dot it is still a name. -/
theorem withoutDot (h : IsName comp) : withoutDot comp ≠ [] ∧ backslash ∉ withoutDot comp := by
  unfold DosPath.withoutDot
  split
  · rename_i hlast
    obtain ⟨init, rfl⟩ := List.getLast?_eq_some_iff.mp hlast
    rw [List.dropLast_concat]
    refine ⟨?_, fun hmem => h.ne_backslash (List.mem_append_left _ hmem) rfl⟩
    rintro rfl
    exact h.first rfl
  · exact ⟨h.ne_nil, fun hmem => h.ne_backslash hmem rfl⟩

end IsName

/-- The separator behind a name. -/
theorem dropDot_separator {next : Nat} (hcomp : IsName comp)
    (hch : isPathSeparator (charAt s next) = true) (hcap : (text ++ comp).length < cap) :
    (dropDot s next (shown cap junk (text ++ comp)) >>= fun o => separator o) =
      .ok (shown cap junk (text ++ withoutDot comp ++ [backslash])) := by
  obtain ⟨k, hk⟩ := Nat.exists_eq_add_of_lt hcap
  have hzeros : cap - (text ++ comp).length = k + 1 := by omega
  obtain ⟨init, last, rfl⟩ := (List.eq_nil_or_concat' comp).resolve_left hcomp.ne_nil
  have hprevious : (shown cap junk (text ++ (init ++ [last]))).previous = .ok last := by
    rw [← List.append_assoc]
    exact shown_previous
  unfold dropDot
  rw [if_pos hch, hprevious, Yields.ok_bind]
  by_cases hlast : last = dot
  · subst hlast
    obtain ⟨front, ch, rfl⟩ : ∃ front ch, init = front ++ [ch] := by
      refine (List.eq_nil_or_concat' init).resolve_left ?_
      rintro rfl
      exact hcomp.first rfl
    have hkept : withoutDot (front ++ [ch] ++ [dot]) = front ++ [ch] := by
      unfold withoutDot
      rw [List.getLast?_concat, if_pos rfl, List.dropLast_concat]
    have hne : ch ≠ backslash := hcomp.ne_backslash (by simp)
    -- the dot is still there, behind the cursor
    have hback : (shown cap junk (text ++ (front ++ [ch] ++ [dot]))).back =
        .ok ⟨text ++ front ++ ch :: dot :: (List.replicate (k + 1) 0 ++ junk),
          (text ++ front).length + 1⟩ := by
      rw [Output.back_eq (by
        unfold shown
        simp only [List.length_append, List.length_cons]
        omega)]
      unfold shown
      rw [hzeros]
      simp
      omega
    have hfill : cap - (text ++ (front ++ [ch]) ++ [backslash]).length = k + 1 := by
      simp only [List.length_append, List.length_singleton] at hk ⊢
      omega
    rw [if_pos rfl, hback, Yields.ok_bind, separator_push _ _ _ hne, hkept]
    unfold shown
    rw [hfill]
    simp
    omega
  · have hkept : withoutDot (init ++ [last]) = init ++ [last] := by
      unfold withoutDot
      rw [List.getLast?_concat, if_neg (by simpa using hlast)]
    have hne : last ≠ backslash := hcomp.ne_backslash (by simp)
    have hshown : shown cap junk (text ++ (init ++ [last])) =
        ⟨text ++ init ++ last :: 0 :: (List.replicate k 0 ++ junk), (text ++ init).length + 1⟩ := by
      unfold shown
      rw [hzeros, List.replicate_succ]
      simp
      omega
    have hfill : cap - (text ++ (init ++ [last]) ++ [backslash]).length = k := by
      simp only [List.length_append, List.length_singleton] at hk ⊢
      omega
    rw [if_neg hlast, hkept]
    change separator (shown cap junk (text ++ (init ++ [last]))) = _
    rw [hshown, separator_push _ _ _ hne]
    unfold shown
    rw [hfill]
    simp
    omega

/-- Two dots before another character stop the loop too, but the last two characters of the name
count as `..`. -/
theorem walk_stay_up {B i source rounds : Nat} (hdot : charAt s source = dot)
    (hone : charAt s (source + 1) = dot)
    (htwo : isPathSeparator (charAt s (source + 2)) = false) (hi : i + 2 ≤ s.length)
    (hrounds : s.length - i ≤ rounds + 1) (o : Output) :
    walk s B rounds i source o = dotDot B o := by
  have hseparator : isPathSeparator (charAt s source) = false := by
    rw [hdot]
    exact isPathSeparator_dot
  have hnot : isDotUstr s source (s.length - i) = false := by
    apply not_isDotUstr (by omega)
    rw [hone]
    exact isPathSeparator_dot
  induction rounds generalizing i with
  | zero => omega
  | succ rounds ih =>
    rw [walk, if_neg (by omega), hseparator, if_neg Bool.false_ne_true, if_pos hdot, hnot,
      if_neg Bool.false_ne_true]
    have hup : isDotDotUstr s source (s.length - i) = decide (s.length - i = 2) := by
      unfold isDotDotUstr isDotUstr
      rw [hdot, hone, htwo, decide_eq_true (by omega), decide_eq_true (by omega), Bool.or_false]
      simp only [beq_self_eq_true, Bool.true_and]
      congr 1
      exact propext (by omega)
    rw [hup]
    by_cases hlast : s.length - i = 2
    · rw [decide_eq_true hlast, if_pos rfl]
      have hend : (fun o => walk s B rounds (i + 2) (source + 2) o) = Except.ok := by
        funext o
        exact walk_end _ _ _ (by omega)
      rw [hend]
      exact bind_pure _
    · rw [decide_eq_false hlast, if_neg Bool.false_ne_true]
      apply ih (by omega) (by omega)
      apply not_isDotUstr (by omega)
      rw [hone]
      exact isPathSeparator_dot

/-! ## The components of a name -/

/-- Induction on the components of a name: there is one component, or one before a separator. -/
@[elab_as_elim]
theorem component_induction {motive : List WCHAR → Prop}
    (last : ∀ comp, (∀ ch ∈ comp, isPathSeparator ch = false) → motive comp)
    (step : ∀ comp ch rest, (∀ ch ∈ comp, isPathSeparator ch = false) →
      isPathSeparator ch = true → motive rest → motive (comp ++ ch :: rest))
    (body : List WCHAR) : motive body := by
  -- the characters before the first separator are collected in front
  have hcollect : ∀ front, (∀ ch ∈ front, isPathSeparator ch = false) → motive (front ++ body) := by
    induction body with
    | nil =>
      intro front hfront
      rw [List.append_nil]
      exact last front hfront
    | cons ch body ih =>
      intro front hfront
      cases hch : isPathSeparator ch with
      | true => exact step front ch body hfront hch (ih [] nofun)
      | false =>
        have hnext := ih (front ++ [ch]) fun c hc => by
          rcases List.mem_append.mp hc with hmem | hmem
          · exact hfront c hmem
          · rw [List.mem_singleton.mp hmem]
            exact hch
        rw [List.append_assoc] at hnext
        exact hnext
  exact hcollect [] nofun

/-- The kinds of components. -/
theorem component_cases (hname : ∀ ch ∈ comp, isPathSeparator ch = false) :
    comp = [] ∨ comp = [dot] ∨ comp = [dot, dot] ∨ isDotName comp = true ∨ IsName comp := by
  by_cases hnil : comp = []
  · exact .inl hnil
  by_cases hone : comp = [dot]
  · exact .inr (.inl hone)
  by_cases htwo : comp = [dot, dot]
  · exact .inr (.inr (.inl htwo))
  right; right; right
  obtain ⟨ch, rest, rfl⟩ := List.exists_cons_of_ne_nil hnil
  by_cases hch : ch = dot
  · left
    unfold isDotName
    rw [hch] at hone htwo ⊢
    simp [hone, htwo]
  · right
    exact ⟨hnil, hname, hch⟩

theorem isDotName_of_isName (h : IsName comp) : isDotName comp = false := by
  obtain ⟨ch, rest, rfl⟩ := List.exists_cons_of_ne_nil h.ne_nil
  have hch : ch ≠ dot := h.first
  unfold isDotName
  simp [hch]

/-- The name ends with a separator. -/
def ended (s : List WCHAR) : Bool := isPathSeparator (charAt s (s.length - 1))

theorem ended_concat (s : List WCHAR) (ch : WCHAR) : ended (s ++ [ch]) = isPathSeparator ch := by
  unfold ended
  rw [List.length_append, List.length_singleton, Nat.add_sub_cancel, charAt_append_cons]

/-- The last component is empty when the name ends with a separator. -/
theorem getLast_components (body : List WCHAR) (hfront : ended front = true) :
    (body.splitOnP isPathSeparator).getLast? = some [] ↔ ended (front ++ body) = true := by
  induction body using component_induction generalizing front with
  | last comp hcomp =>
    rw [List.splitOnP_eq_singleton hcomp, List.getLast?_singleton, Option.some_inj]
    constructor
    · rintro rfl
      rw [List.append_nil]
      exact hfront
    · intro hended
      by_contra hne
      obtain ⟨init, ch, rfl⟩ := (List.eq_nil_or_concat' comp).resolve_left hne
      rw [← List.append_assoc, ended_concat, hcomp ch (by simp)] at hended
      cases hended
  | step comp ch rest hcomp hch ih =>
    have hended : ended (front ++ comp ++ [ch]) = true := by
      rw [ended_concat]
      exact hch
    have hnext := ih hended
    rw [List.splitOnP_append_cons_of_forall_mem hcomp ch hch,
      List.getLast?_cons_of_ne_nil (List.splitOnP_ne_nil _ _), hnext]
    simp

theorem cut_ne_nil {comps : List (List WCHAR)} (h : comps ≠ []) : cut comps ≠ [] := by
  obtain ⟨comp, rest, rfl⟩ := List.exists_cons_of_ne_nil h
  unfold cut
  split_ifs <;> nofun

theorem resolve_cons {comps : List (List WCHAR)} (dirs : List (List WCHAR)) (comp : List WCHAR)
    (h : comps ≠ []) :
    resolve dirs (comp :: comps) = resolve (descend dirs comp (withoutDot comp)) comps := by
  obtain ⟨next, rest, rfl⟩ := List.exists_cons_of_ne_nil h
  rfl

/-- What the loop leaves; `slash` says that a separator at the end stays. -/
structure Walked (s : List WCHAR) (letter : WCHAR) (dirs : List (List WCHAR)) (slash : Prop)
    (o : Output) : Prop where
  names : AreNames dirs
  room : o.dest < o.buffer.length
  text : (o.buffer.take o.dest = spell (rootAt letter) dirs ∧ ¬ slash) ∨
    (o.buffer.take o.dest = dirText (rootAt letter) dirs ∧ (slash ↔ ended s = true))

theorem AreNames.dropLast (h : AreNames dirs) : AreNames dirs.dropLast :=
  fun dir hdir => h dir (List.dropLast_subset _ hdir)

theorem AreNames.concat (h : AreNames dirs) (hcomp : comp ≠ [] ∧ backslash ∉ comp) :
    AreNames (dirs ++ [comp]) := by
  intro dir hdir
  rcases List.mem_append.mp hdir with hmem | hmem
  · exact h dir hmem
  · rw [List.mem_singleton.mp hmem]
    exact hcomp

theorem length_dirText_dropLast (root : List WCHAR) (dirs : List (List WCHAR)) :
    (dirText root dirs.dropLast).length ≤ (dirText root dirs).length := by
  rcases List.eq_nil_or_concat' dirs with rfl | ⟨rest, last, rfl⟩
  · exact Nat.le_refl _
  · rw [List.dropLast_concat, dirText_concat, List.append_assoc, List.length_append]
    exact Nat.le_add_right _ _

theorem shown_room (htext : text.length < cap) :
    (shown cap junk text).dest < (shown cap junk text).buffer.length := by
  unfold shown
  simp only [List.length_append, List.length_replicate]
  omega

theorem shown_text (text : List WCHAR) :
    (shown cap junk text).buffer.take (shown cap junk text).dest = text := by
  unfold shown
  rw [List.append_assoc, List.take_left]

theorem closed_room (hcap : (dirText (rootAt letter) dirs).length < cap) :
    (closed cap junk (rootAt letter) dirs).dest <
      (closed cap junk (rootAt letter) dirs).buffer.length := by
  unfold closed
  split
  · rename_i hdirs
    subst hdirs
    exact shown_room hcap
  · rename_i hdirs
    have hroom := @shown_room cap junk _ hcap
    have hlen : (shown cap junk (dirText (rootAt letter) dirs)).dest =
        (spell (rootAt letter) dirs).length + 1 := by
      unfold shown
      dsimp only
      rw [dirText_eq_spell hdirs, List.length_append, List.length_singleton]
    rw [hlen] at hroom
    exact Nat.lt_of_succ_lt hroom

/-- A directory stays as it is, whether or not the name ends with a separator. -/
theorem Walked.of_dir (hdirs : AreNames dirs) (hcap : (dirText (rootAt letter) dirs).length < cap)
    {slash : Prop} (hslash : slash ↔ ended s = true) :
    Walked s letter dirs slash (shown cap junk (dirText (rootAt letter) dirs)) :=
  ⟨hdirs, shown_room hcap, .inr ⟨shown_text _, hslash⟩⟩

theorem Walked.of_closed (hdirs : AreNames dirs)
    (hcap : (dirText (rootAt letter) dirs).length < cap) {slash : Prop} (hslash : ¬ slash) :
    Walked s letter dirs slash (closed cap junk (rootAt letter) dirs) :=
  ⟨hdirs, closed_room hcap, .inl ⟨closed_text dirs, hslash⟩⟩

/-- A name that begins with a dot stops the loop. -/
theorem walk_dotName {rounds : Nat} (hname : ∀ ch ∈ comp, isPathSeparator ch = false)
    (hdots : isDotName comp = true) (hdirs : AreNames dirs)
    (hcap : (dirText (rootAt letter) dirs).length < cap)
    (hrounds : (comp ++ tail).length ≤ rounds) {comps : List (List WCHAR)}
    (hlast : (comp :: comps).getLast? = some [] ↔ ended (front ++ (comp ++ tail)) = true) :
    Yields (walk (front ++ (comp ++ tail)) 3 rounds front.length front.length
        (shown cap junk (dirText (rootAt letter) dirs)))
      (Walked (front ++ (comp ++ tail)) letter (resolve dirs (cut (comp :: comps)))
        ((cut (comp :: comps)).getLast? = some [])) := by
  have hlen : (front ++ (comp ++ tail)).length = front.length + (comp ++ tail).length :=
    List.length_append
  have hat (k : Nat) : charAt (front ++ (comp ++ tail)) (front.length + k) =
      charAt (comp ++ tail) k := charAt_append_right front (comp ++ tail) k
  unfold cut
  rw [if_pos hdots]
  match comp, hname, hdots with
  | [], _, hdots => exact absurd hdots (by decide)
  | [a], _, hdots =>
    unfold isDotName at hdots
    simp only [List.head?_cons, Bool.and_eq_true, beq_iff_eq, Option.some.injEq,
      bne_iff_ne, ne_eq, List.cons.injEq, and_true] at hdots
    exact absurd hdots.1.1 hdots.1.2
  | a :: b :: more, hname, hdots =>
    unfold isDotName at hdots
    simp only [List.head?_cons, Bool.and_eq_true, beq_iff_eq, Option.some.injEq,
      bne_iff_ne, ne_eq] at hdots
    obtain ⟨⟨rfl, -⟩, htwo⟩ := hdots
    have hfirst := hat 0
    have hsecond := hat 1
    rw [Nat.add_zero] at hfirst
    change charAt _ front.length = dot at hfirst
    change charAt _ (front.length + 1) = b at hsecond
    have hb := hname b (by simp)
    -- two dots go one up and a single one does not; either way the walk comes no further
    by_cases hdot : b = dot
    · subst hdot
      obtain ⟨c, rest, rfl⟩ := List.exists_cons_of_ne_nil (l := more) (by rintro rfl; exact htwo rfl)
      have hthird := hat 2
      change charAt _ (front.length + 2) = c at hthird
      have hc := hname c (by simp)
      have heq : charAt (dot :: dot :: c :: rest) 1 = dot := rfl
      rw [if_pos heq, walk_stay_up hfirst hsecond (by rw [hthird]; exact hc) (by simp)
        (by rw [hlen]; omega), dotDot_shown hdirs hcap]
      have hshort := length_dirText_dropLast (rootAt letter) dirs
      exact .ok (Walked.of_closed hdirs.dropLast (Nat.lt_of_le_of_lt hshort hcap) (by simp))
    · have hne : ¬ charAt (dot :: b :: more) 1 = dot := hdot
      rw [if_neg hne, walk_stay hfirst (by rw [hsecond]; exact hb) (by rw [hsecond]; exact hdot)]
      apply Yields.ok
      split
      · rename_i hslash
        exact Walked.of_dir hdirs hcap ⟨fun _ => hlast.mp hslash, fun _ => rfl⟩
      · rename_i hslash
        refine Walked.of_dir hdirs hcap ⟨fun h => ?_, fun h => absurd (hlast.mpr h) hslash⟩
        simp at h

/-- A separator behind what has been passed over. -/
theorem walk_next (hch : isPathSeparator ch = true) {rounds : Nat} (hrounds : 0 < rounds)
    (o : Output) (front tail : List WCHAR) {next : Nat} (hnext : front.length = next) :
    walk (front ++ ch :: tail) 3 rounds next next o =
      separator o >>= walk (front ++ [ch] ++ tail) 3 (rounds - 1) (front ++ [ch]).length
        (front ++ [ch]).length := by
  obtain ⟨r, rfl⟩ := Nat.exists_eq_succ_of_ne_zero (Nat.ne_of_gt hrounds)
  subst hnext
  rw [walk_separator front tail hch, List.append_assoc, List.length_append]
  rfl

theorem descend_name (h : IsName comp) (kept : List WCHAR) :
    descend dirs comp kept = dirs ++ [kept] := by
  have hne : ∀ rest, comp ≠ dot :: rest := by
    rintro rest rfl
    exact h.first rfl
  unfold descend
  rw [if_neg (by rintro (hnil | hone); exacts [h.ne_nil hnil, hne _ hone]), if_neg (hne _)]

/-- A component before a separator. -/
theorem walk_component {rounds : Nat} {rest : List WCHAR}
    (hname : ∀ ch ∈ comp, isPathSeparator ch = false) (hdots : isDotName comp = false)
    (hch : isPathSeparator ch = true) (hdirs : AreNames dirs)
    (hlong : (dirText (rootAt letter) dirs).length ≤ front.length)
    (hcap : (front ++ (comp ++ ch :: rest)).length < cap)
    (hrounds : (comp ++ ch :: rest).length ≤ rounds) :
    AreNames (descend dirs comp (withoutDot comp)) ∧
      (dirText (rootAt letter) (descend dirs comp (withoutDot comp))).length ≤
        (front ++ comp ++ [ch]).length ∧
      ∃ rounds', rest.length ≤ rounds' ∧
        walk (front ++ (comp ++ ch :: rest)) 3 rounds front.length front.length
            (shown cap junk (dirText (rootAt letter) dirs)) =
          walk (front ++ comp ++ [ch] ++ rest) 3 rounds' (front ++ comp ++ [ch]).length
            (front ++ comp ++ [ch]).length
            (shown cap junk (dirText (rootAt letter) (descend dirs comp (withoutDot comp)))) := by
  simp only [List.length_append, List.length_cons] at hcap hrounds
  obtain ⟨r, rfl⟩ := Nat.exists_eq_succ_of_ne_zero (by omega : rounds ≠ 0)
  have hroom : (dirText (rootAt letter) dirs).length < cap := by omega
  rcases component_cases hname with rfl | rfl | rfl | hdot | hcomp
  -- two separators in a row: the second one adds nothing
  · obtain ⟨base, hbase, -⟩ := dirText_split letter dirs
    refine ⟨hdirs, by simp [descend]; omega, r, by simp at hrounds; omega, ?_⟩
    rw [List.nil_append, walk_next hch (Nat.succ_pos r) _ front rest rfl]
    change separator (shown cap junk (dirText (rootAt letter) dirs)) >>= _ =
      walk _ _ _ _ _ (shown cap junk (dirText (rootAt letter) dirs))
    rw [hbase, separator_shown, Yields.ok_bind]
    simp
  · refine ⟨hdirs, ?_, r, ?_, ?_⟩
    · change (dirText (rootAt letter) dirs).length ≤ _
      simp only [List.length_append, List.length_singleton]
      omega
    · simp only [List.length_singleton] at hrounds
      omega
    · rw [List.singleton_append, walk_skip front rest hch]
      change walk _ _ _ _ _ _ =
        walk _ _ _ _ _ (shown cap junk (dirText (rootAt letter) dirs))
      simp
  · have hshort := length_dirText_dropLast (rootAt letter) dirs
    simp only [List.length_cons, List.length_nil] at hrounds
    refine ⟨hdirs.dropLast, ?_, r - 1, by omega, ?_⟩
    · change (dirText (rootAt letter) dirs.dropLast).length ≤ _
      simp only [List.length_append, List.length_singleton]
      omega
    · have htwo : (front ++ [dot, dot]).length = front.length + 2 := List.length_append
      have hpos : 0 < r := by omega
      have hnext (o : Output) := walk_next hch hpos o (front ++ [dot, dot]) rest htwo
      have hsplit : front ++ dot :: dot :: ch :: rest = front ++ [dot, dot] ++ ch :: rest := by simp
      have hup := walk_up front (.inr hch : Ends (ch :: rest)) r
        (shown cap junk (dirText (rootAt letter) dirs))
      change walk (front ++ dot :: dot :: ch :: rest) _ _ _ _ _ =
        walk _ _ _ _ _ (shown cap junk (dirText (rootAt letter) dirs.dropLast))
      rw [hup, dotDot_shown hdirs hroom, Yields.ok_bind, hsplit, hnext,
        separator_closed hdirs.dropLast, Yields.ok_bind]
  -- names of dots were excluded
  · rw [hdot] at hdots
    cases hdots
  · obtain ⟨hkept, hchars⟩ := hcomp.withoutDot
    have hpos := List.length_pos_of_ne_nil hcomp.ne_nil
    have hle : (withoutDot comp).length ≤ comp.length := by
      unfold withoutDot
      split
      · rw [List.length_dropLast]
        exact Nat.sub_le _ _
      · exact Nat.le_refl _
    have hlen : (dirText (rootAt letter) dirs ++ comp).length < cap := by
      rw [List.length_append]
      omega
    rw [descend_name hcomp, dirText_concat]
    refine ⟨hdirs.concat ⟨hkept, hchars⟩, ?_, r - 1, by omega, ?_⟩
    · simp only [List.length_append, List.length_singleton]
      omega
    · have hnext : walk (front ++ comp ++ ch :: rest) 3 r (front ++ comp).length
          (front ++ comp).length = fun o => separator o >>=
            walk (front ++ comp ++ [ch] ++ rest) 3 (r - 1) (front ++ comp ++ [ch]).length
              (front ++ comp ++ [ch]).length := by
        funext o
        exact walk_next hch (by omega) o (front ++ comp) rest rfl
      have hseparator : isPathSeparator
          (charAt (front ++ comp ++ ch :: rest) (front ++ comp).length) = true := by
        rw [charAt_append_cons]
        exact hch
      rw [← List.append_assoc, walk_name hname hcomp.ne_nil hcomp.first
        (.inr hch : Ends (ch :: rest)) hlen, hnext,
        ← bind_assoc, dropDot_separator hcomp hseparator hlen, Yields.ok_bind]

/-- The loop does what the reference does, with the components as they are cut. -/
theorem walk_components {body : List WCHAR} {rounds : Nat} (hfront : ended front = true)
    (hdirs : AreNames dirs) (hlong : (dirText (rootAt letter) dirs).length ≤ front.length)
    (hcap : (front ++ body).length < cap) (hrounds : body.length ≤ rounds) :
    Yields (walk (front ++ body) 3 rounds front.length front.length
        (shown cap junk (dirText (rootAt letter) dirs)))
      (Walked (front ++ body) letter (resolve dirs (cut (body.splitOnP isPathSeparator)))
        ((cut (body.splitOnP isPathSeparator)).getLast? = some [])) := by
  have hlast := getLast_components body hfront
  induction body using component_induction generalizing front dirs rounds with
  | last comp hname =>
    rw [List.splitOnP_eq_singleton hname] at hlast ⊢
    have hroom : (dirText (rootAt letter) dirs).length < cap := by
      rw [List.length_append] at hcap
      omega
    have hcut (h : isDotName comp = false) : cut [comp] = [comp] :=
      cut_eq_self fun c hc => by rw [List.mem_singleton.mp hc]; exact h
    rcases component_cases hname with rfl | rfl | rfl | hdots | hcomp
    · rw [hcut (by decide), walk_end _ _ _ (by simp)]
      exact .ok (Walked.of_dir hdirs hroom hlast)
    · rw [hcut (by decide), walk_last_dot]
      exact .ok (Walked.of_dir hdirs hroom hlast)
    · obtain ⟨r, rfl⟩ := Nat.exists_eq_succ_of_ne_zero (Nat.ne_of_gt (Nat.lt_of_lt_of_le
        (by decide : 0 < [dot, dot].length) hrounds))
      have hshort := length_dirText_dropLast (rootAt letter) dirs
      rw [hcut (by decide), walk_up front (.inl rfl), dotDot_shown hdirs hroom, Yields.ok_bind,
        walk_end _ _ _ (by simp)]
      exact .ok (Walked.of_closed hdirs.dropLast (Nat.lt_of_le_of_lt hshort hroom) (by simp))
    · rw [← List.append_nil comp] at hrounds
      have hwalk := @walk_dotName cap junk dirs comp letter front [] rounds hname hdots hdirs
        hroom hrounds [] (by rw [List.append_nil]; exact hlast)
      rw [List.append_nil] at hwalk
      exact hwalk
    · have hlen : (dirText (rootAt letter) dirs ++ comp).length < cap := by
        rw [List.length_append] at hcap ⊢
        omega
      have hpos := List.length_pos_of_ne_nil hcomp.ne_nil
      obtain ⟨r, rfl⟩ := Nat.exists_eq_succ_of_ne_zero (Nat.ne_of_gt (Nat.lt_of_lt_of_le hpos
        hrounds))
      have hwalk := @walk_name cap junk (dirText (rootAt letter) dirs) comp front [] hname
        hcomp.ne_nil hcomp.first (.inl rfl) hlen r
      -- there is no separator behind it
      have hend : isPathSeparator (charAt (front ++ comp) (front ++ comp).length) = false := by
        unfold charAt
        rw [List.getElem?_eq_none (Nat.le_refl _)]
        decide
      have hdrop : dropDot (front ++ comp) (front ++ comp).length
          (shown cap junk (dirText (rootAt letter) dirs ++ comp)) =
            .ok (shown cap junk (dirText (rootAt letter) dirs ++ comp)) := by
        unfold dropDot
        rw [hend]
        rfl
      rw [List.append_nil, hdrop, Yields.ok_bind, walk_end _ _ _ (Nat.le_refl _)] at hwalk
      rw [hwalk, hcut (isDotName_of_isName hcomp)]
      apply Yields.ok
      constructor
      case names =>
        change AreNames (descend dirs comp comp)
        rw [descend_name hcomp]
        exact hdirs.concat ⟨hcomp.ne_nil, fun hmem => hcomp.ne_backslash hmem rfl⟩
      case room => exact shown_room hlen
      case text =>
        left
        refine ⟨?_, by simpa using hcomp.ne_nil⟩
        change _ = spell _ (descend dirs comp comp)
        rw [descend_name hcomp, shown_text, spell_concat]
  | step comp ch rest hname hch ih =>
    rw [List.splitOnP_append_cons_of_forall_mem hname ch hch] at hlast ⊢
    cases hdots : isDotName comp with
    | true =>
      have hroom : (dirText (rootAt letter) dirs).length < cap := by
        rw [List.length_append] at hcap
        omega
      exact walk_dotName hname hdots hdirs hroom hrounds hlast
    | false =>
      obtain ⟨hdirs', hlong', rounds', hrounds', hwalk⟩ :=
        @walk_component cap junk ch dirs comp letter front rounds rest hname hdots hch hdirs hlong
          hcap hrounds
      have hended : ended (front ++ comp ++ [ch]) = true := by
        rw [ended_concat]
        exact hch
      have hsplit : front ++ (comp ++ ch :: rest) = front ++ comp ++ [ch] ++ rest := by simp
      have hne := cut_ne_nil (List.splitOnP_ne_nil isPathSeparator rest)
      have hcut : cut (comp :: rest.splitOnP isPathSeparator) =
          comp :: cut (rest.splitOnP isPathSeparator) := by
        rw [cut, hdots, if_neg Bool.false_ne_true]
      rw [hwalk, hcut, resolve_cons _ _ hne, List.getLast?_cons_of_ne_nil hne, hsplit]
      exact ih hended hdirs' hlong' (by rw [← hsplit]; exact hcap) hrounds'
        (getLast_components rest hended)

/-! ## Behind the loop -/

theorem take_succ_charAt {buffer : List WCHAR} {k : Nat} (hk : k < buffer.length) :
    buffer.take (k + 1) = buffer.take k ++ [charAt buffer k] := by
  rw [List.take_add_one, charAt_of_lt hk]
  rfl

theorem trimEnd_take {buffer : List WCHAR} {dest : Nat} (hdest : dest ≤ buffer.length) :
    (trimEnd buffer dest).buffer.take (trimEnd buffer dest).dest =
      (buffer.take dest).rdropWhile isDotOrSpace := by
  induction dest generalizing buffer with
  | zero => rfl
  | succ dest ih =>
    unfold trimEnd
    rw [take_succ_charAt hdest, List.rdropWhile_concat]
    split
    · rw [ih (by rw [List.length_set]; exact Nat.le_of_succ_le hdest),
        List.take_set_of_le (Nat.le_refl dest)]
    · exact take_succ_charAt hdest

theorem getLast_spell_ne (hdirs : AreNames dirs) (hne : dirs ≠ []) :
    ∃ front ch, spell (rootAt letter) dirs = front ++ [ch] ∧ ch ≠ backslash := by
  obtain ⟨rest, name, rfl⟩ := (List.eq_nil_or_concat' dirs).resolve_left hne
  obtain ⟨hname, hchars⟩ := hdirs name (by simp)
  obtain ⟨init, last, rfl⟩ := (List.eq_nil_or_concat' name).resolve_left hname
  refine ⟨dirText (rootAt letter) rest ++ init, last, ?_, ?_⟩
  · rw [spell_concat, List.append_assoc]
  · rintro rfl
    exact hchars (by simp)

/-- The slash at the end of the output follows that of the name. -/
theorem stripSlash_walked {slash : Prop} [Decidable slash] {o : Output}
    (h : Walked s letter dirs slash o) :
    Yields (stripSlash s 3 o) fun o' => o'.dest ≤ o'.buffer.length ∧
      o'.buffer.take o'.dest =
        spell (rootAt letter) dirs ++ if slash ∧ dirs ≠ [] then [backslash] else [] := by
  have hroom := h.room
  have hlen : (o.buffer.take o.dest).length = o.dest :=
    List.length_take_of_le (Nat.le_of_lt hroom)
  have hkeep : ¬ (stripTrailingSlash s = true ∧ 3 < o.dest ∧
      charAt o.buffer (o.dest - 1) = backslash) → ∀ {text : List WCHAR},
        o.buffer.take o.dest = text → Yields (stripSlash s 3 o) fun o' =>
          o'.dest ≤ o'.buffer.length ∧ o'.buffer.take o'.dest = text := by
    intro hnot text htext
    unfold stripSlash
    rw [if_neg hnot]
    exact .ok ⟨Nat.le_of_lt hroom, htext⟩
  by_cases hdirs : dirs = []
  · -- there is only the root
    have hroot : o.buffer.take o.dest = spell (rootAt letter) dirs := by
      subst hdirs
      rcases h.text with ⟨htext, -⟩ | ⟨htext, -⟩
      · exact htext
      · exact htext
    have hthree : o.dest = 3 := by
      rw [← hlen, hroot, hdirs]
      rfl
    rw [if_neg (fun hslash => hslash.2 hdirs), List.append_nil]
    exact hkeep (by omega) hroot
  rcases h.text with ⟨htext, hslash⟩ | ⟨htext, hslash⟩
  -- the text ends in the last name, so there is nothing to strip
  · obtain ⟨front, ch, hspell, hch⟩ := @getLast_spell_ne _ letter h.names hdirs
    have hlast : charAt o.buffer (o.dest - 1) = ch := by
      have hdest : o.dest = front.length + 1 := by
        rw [← hlen, htext, hspell, List.length_append, List.length_singleton]
      rw [← charAt_take (Nat.sub_lt (by omega) Nat.zero_lt_one), htext, hspell, hdest,
        Nat.add_sub_cancel, charAt_append_cons]
    rw [if_neg (fun hboth => hslash hboth.1), List.append_nil]
    exact hkeep (fun hstrip => hch (hlast ▸ hstrip.2.2)) htext
  · rw [dirText_eq_spell hdirs] at htext
    have hdest : o.dest = (spell (rootAt letter) dirs).length + 1 := by
      rw [← hlen, htext, List.length_append, List.length_singleton]
    -- the text ends in a separator, which stays if the name ends in one
    cases hended : ended s with
    | true =>
      rw [if_pos ⟨hslash.mpr hended, hdirs⟩]
      apply hkeep _ htext
      rintro ⟨hstrip, -⟩
      unfold stripTrailingSlash at hstrip
      unfold ended at hended
      rw [hended] at hstrip
      cases hstrip
    | false =>
      have hnot : ¬ slash := by
        intro h
        rw [hslash.mp h] at hended
        cases hended
      have hthree : (rootAt letter).length ≤ (spell (rootAt letter) dirs).length := by
        unfold spell
        rw [List.length_append]
        exact Nat.le_add_right _ _
      change 3 ≤ _ at hthree
      have hlast : charAt o.buffer (o.dest - 1) = backslash := by
        rw [← charAt_take (Nat.sub_lt (by omega) Nat.zero_lt_one), htext, hdest,
          Nat.add_sub_cancel, charAt_append_cons]
      have hstrip : stripTrailingSlash s = true := by
        unfold stripTrailingSlash
        unfold ended at hended
        rw [hended]
        rfl
      have hshort : o.buffer.take (o.dest - 1) = spell (rootAt letter) dirs := by
        have htake := congrArg (List.take (o.dest - 1)) htext
        rw [List.take_take, Nat.min_eq_left (Nat.sub_le _ _)] at htake
        rw [htake, hdest, Nat.add_sub_cancel, List.take_left]
      rw [if_neg (fun hboth => hnot hboth.1), List.append_nil]
      unfold stripSlash
      rw [if_pos ⟨hstrip, by omega, hlast⟩, Output.store_eq (by dsimp only; omega)]
      refine .ok ⟨?_, ?_⟩
      · dsimp only
        rw [List.length_set]
        omega
      · dsimp only
        rw [List.take_set_of_le (Nat.le_refl _), hshort]

theorem finish_walked {slash : Prop} [Decidable slash] {o : Output}
    (h : Walked s letter dirs slash o) :
    Yields (finish s 3 o) fun o' => o'.buffer.take o'.dest =
      (spell (rootAt letter) dirs ++
        if slash ∧ dirs ≠ [] then [backslash] else []).rdropWhile isDotOrSpace := by
  have hstored : Walked s letter dirs slash { o with buffer := o.buffer.set o.dest 0 } := by
    refine ⟨h.names, ?_, ?_⟩
    · dsimp only
      rw [List.length_set]
      exact h.room
    · dsimp only
      rw [List.take_set_of_le (Nat.le_refl _)]
      exact h.text
  unfold finish
  rw [Output.store_eq h.room, Yields.ok_bind]
  apply (stripSlash_walked hstored).bind
  rintro o' ⟨hdest, htext⟩
  apply Yields.ok
  rw [trimEnd_take hdest, htext]

/-! ## The function -/

variable {c : Context} {lpBuffer body : List WCHAR} {sep : WCHAR}

/-- Nothing is copied in front of a path with a drive and a root. -/
theorem putPrefix_nil (s buffer : List WCHAR) (n : Nat) :
    putPrefix s ⟨0, 0, [], false, 3, n, buffer⟩ = .ok ⟨buffer, 0⟩ := by
  have hcopy : copyPrefix buffer 0 [] = .ok buffer := by
    unfold copyPrefix
    rw [rtlCopyMemory_eq (Nat.zero_le _)]
    rfl
  unfold putPrefix
  dsimp only
  rw [if_pos (.inr rfl), List.take_zero, hcopy, Yields.ok_bind, hcopy]
  rfl

theorem ne_of_isDriveLetter (hletter : isDriveLetter letter = true)
    (hch : isDriveLetter ch = false) : letter ≠ ch := by
  rintro rfl
  rw [hletter] at hch
  cases hch

theorem isPathSeparator_of_isDriveLetter (hletter : isDriveLetter letter = true) :
    isPathSeparator letter = false := by
  have hback : letter ≠ backslash := ne_of_isDriveLetter hletter (by decide)
  have hslash : letter ≠ slash := ne_of_isDriveLetter hletter (by decide)
  unfold isPathSeparator
  rw [beq_false_of_ne hback, beq_false_of_ne hslash]
  rfl

/-- The drive, its colon and the separator behind them. -/
theorem walk_drive (hletter : isDriveLetter letter = true) (hsep : isPathSeparator sep = true)
    (body : List WCHAR) (hcap : 3 ≤ cap) :
    walk (letter :: colon :: sep :: body) 3 (body.length + 3) 0 0 (shown cap junk []) =
      walk ([letter, colon, sep] ++ body) 3 (body.length + 1) 3 3
        (shown cap junk (dirText (rootAt letter) [])) := by
  have hname : IsName [letter, colon] := by
    refine ⟨nofun, fun ch hch => ?_, ne_of_isDriveLetter hletter (by decide)⟩
    rcases List.mem_pair.mp hch with rfl | rfl
    · exact isPathSeparator_of_isDriveLetter hletter
    · decide
  have hlen : ([] ++ [letter, colon]).length < cap := hcap
  have hwalk := @walk_name cap junk [] [letter, colon] [] (sep :: body) hname.noSeparator
    hname.ne_nil hname.first (.inr hsep) hlen (body.length + 2)
  have hnext : walk ([] ++ [letter, colon] ++ sep :: body) 3 (body.length + 2)
      ([] ++ [letter, colon]).length ([] ++ [letter, colon]).length = fun o => separator o >>=
        walk ([letter, colon] ++ [sep] ++ body) 3 (body.length + 1) 3 3 := by
    funext o
    exact walk_next hsep (Nat.succ_pos _) o [letter, colon] body rfl
  have hkept : withoutDot [letter, colon] = [letter, colon] := by
    unfold withoutDot
    exact if_neg (by simp; decide)
  have hseparator : isPathSeparator (charAt ([] ++ [letter, colon] ++ sep :: body)
      ([] ++ [letter, colon]).length) = true := hsep
  rw [hnext, ← bind_assoc, dropDot_separator hname hseparator hlen, Yields.ok_bind, hkept] at hwalk
  exact hwalk

/-- The path that comes out is the reference of the components as they are cut. -/
theorem fullPath_text (hs : s = letter :: colon :: sep :: body)
    (hletter : isDriveLetter letter = true) (hsep : isPathSeparator sep = true)
    (hdevice : rtlIsDosDeviceNameUstr c.upcase s = 0)
    (hroom : 2 * s.length + 2 ≤ usedLength (2 * lpBuffer.length)) :
    Yields (rtlGetFullPathNameUstr c s (2 * lpBuffer.length) lpBuffer) fun p => ∃ o part, p.outcome = .stored o part ∧
      o.buffer.take o.dest = normalPath (rootAt letter) (cut (components s)) := by
  have hfirst : charAt s 0 = letter := by rw [hs]; rfl
  have hletterSep := isPathSeparator_of_isDriveLetter hletter
  have hordinary : Ordinary c s := by
    constructor
    case first =>
      rw [hfirst]
      exact ne_of_isDriveLetter hletter (by decide)
    case notBlank =>
      intro hblank
      have hspace := List.rdropWhile_eq_nil_iff.mp hblank letter (by rw [hs]; simp)
      exact ne_of_isDriveLetter hletter (by decide) (beq_iff_eq.mp hspace)
    case device => exact hdevice
  have hlen : s.length = body.length + 3 := by
    rw [hs]
    rfl
  have htype : rtlDetermineDosPathNameTypeUstr s = .driveAbsolute := by
    unfold rtlDetermineDosPathNameTypeUstr
    rw [hfirst, hletterSep, if_neg (by simp), if_pos, if_pos]
    · exact ⟨by omega, by rw [hs]; exact hsep⟩
    · exact ⟨by omega, hordinary.first ∘ fun h => hfirst.trans h, by rw [hs]; rfl⟩
  obtain ⟨cap, hcap⟩ : ∃ cap, cap = usedLength (2 * lpBuffer.length) / 2 := ⟨_, rfl⟩
  have hzeroed : zeroed (2 * lpBuffer.length) lpBuffer = (shown cap (lpBuffer.drop cap) []).buffer := by
    unfold zeroed shown
    rw [hcap]
    rfl
  have hstore : (shown cap (lpBuffer.drop cap) []).store 0 =
      .ok (shown cap (lpBuffer.drop cap) []) := by
    obtain ⟨k, hk⟩ := Nat.exists_eq_succ_of_ne_zero (by omega : cap ≠ 0)
    rw [Output.store_eq (shown_room (by rw [hk]; exact Nat.succ_pos k))]
    unfold shown
    rw [hk]
    rfl
  have hwalk : Yields (walk s 3 s.length 0 0 (shown cap (lpBuffer.drop cap) []))
      (Walked s letter (resolve [] (cut (components s)))
        ((cut (components s)).getLast? = some [])) := by
    have hended : ended [letter, colon, sep] = true := hsep
    have hnames : AreNames [] := nofun
    have hcomponents := @walk_components cap (lpBuffer.drop cap) [] letter [letter, colon, sep]
      body (body.length + 1) hended hnames (Nat.le_refl 3) (by
        rw [List.length_append]
        change 3 + body.length < cap
        omega) (Nat.le_succ _)
    have hdrive := @walk_drive cap (lpBuffer.drop cap) letter sep hletter hsep body (by omega)
    rw [hlen, hs, hdrive]
    exact hcomponents
  rw [hordinary.fullPath_eq (Nat.le_refl _), htype]
  unfold switchPathType
  dsimp only
  rw [Yields.ok_bind]
  unfold behindSwitch build
  dsimp only [List.length_nil]
  rw [if_neg (by omega), putPrefix_nil, Yields.ok_bind, hzeroed]
  change Yields (skipit s .driveAbsolute _ (shown cap (lpBuffer.drop cap) []) >>= _) _
  unfold skipit
  rw [hstore, Yields.ok_bind]
  dsimp only [Nat.sub_zero]
  obtain ⟨o, ho, hwalked⟩ := hwalk
  obtain ⟨o', ho', htext⟩ := finish_walked hwalked
  rw [ho, Yields.ok_bind, ho', Yields.ok_bind]
  exact .ok ⟨o', _, rfl, htext⟩

/-- The path that comes out is the normal one exactly when the components that are lost behind a
name with a dot in front make no difference; there are none when no component is such a name. -/
theorem full_path_is_normalized (c : Context) (s lpBuffer : List WCHAR) (letter sep : WCHAR)
    (body : List WCHAR) (hs : s = letter :: colon :: sep :: body)
    (hletter : isDriveLetter letter = true) (hsep : isPathSeparator sep = true)
    (hdevice : rtlIsDosDeviceNameUstr c.upcase s = 0)
    (hroom : 2 * s.length + 2 ≤ usedLength (2 * lpBuffer.length)) :
    ((Yields (rtlGetFullPathNameUstr c s (2 * lpBuffer.length) lpBuffer) fun p => ∃ o part, p.outcome = .stored o part ∧
        o.buffer.take o.dest = normalize s) ↔
      normalPath (rootAt letter) (cut (components s)) = normalize s) ∧
    ((∀ comp ∈ components s, isDotName comp = false) →
      Yields (rtlGetFullPathNameUstr c s (2 * lpBuffer.length) lpBuffer) fun p => ∃ o part, p.outcome = .stored o part ∧
        o.buffer.take o.dest = normalize s) := by
  have htext := fullPath_text hs hletter hsep hdevice hroom
  have hfirst : charAt s 0 = letter := by rw [hs]; rfl
  constructor
  · constructor
    · rintro ⟨p, hp, o, part, hstored, hnormal⟩
      obtain ⟨p', hp', o', part', hstored', hcut⟩ := htext
      rw [hp] at hp'
      -- there is one result, and its text is that of the components
      obtain rfl := Except.ok.inj hp'
      rw [hstored] at hstored'
      obtain ⟨rfl, -⟩ := Outcome.stored.inj hstored'
      rw [← hcut, hnormal]
    · intro hsame
      apply htext.mono
      rintro p ⟨o, part, hstored, hcut⟩
      exact ⟨o, part, hstored, hcut.trans hsame⟩
  · intro hplain
    apply htext.mono
    rintro p ⟨o, part, hstored, hcut⟩
    refine ⟨o, part, hstored, hcut.trans ?_⟩
    unfold normalize
    rw [cut_eq_self hplain, hfirst]

/-- `C:/a//./b./..` -/
def plainPath : List WCHAR :=
  [0x43, colon, slash, 0x61, slash, slash, dot, slash, 0x62, dot, slash, dot, dot]

theorem plainPath_is_normalized :
    Yields (rtlGetFullPathNameUstr rootContext plainPath 32 (List.replicate 16 0)) fun p =>
      ∃ o part, p.outcome = .stored o part ∧ o.buffer.take o.dest = normalize plainPath := by
  apply (full_path_is_normalized rootContext plainPath (List.replicate 16 0) 0x43 slash
    (plainPath.drop 3) rfl (by decide) (by decide) (by decide +kernel) (by decide)).2
  decide +kernel

/-- `C:\.git` -/
def gitPath : List WCHAR := [0x43, colon, backslash, dot, 0x67, 0x69, 0x74]

/-- The name of `C:\.git` is lost. -/
theorem gitPath_is_not_normalized :
    ¬ ∀ (c : Context) (s lpBuffer : List WCHAR) (letter sep : WCHAR) (body : List WCHAR),
      s = letter :: colon :: sep :: body → isDriveLetter letter = true →
        isPathSeparator sep = true → rtlIsDosDeviceNameUstr c.upcase s = 0 →
          2 * s.length + 2 ≤ usedLength (2 * lpBuffer.length) →
            Yields (rtlGetFullPathNameUstr c s (2 * lpBuffer.length) lpBuffer) fun p => ∃ o part,
              p.outcome = .stored o part ∧ o.buffer.take o.dest = normalize s := by
  intro h
  have hdevice : rtlIsDosDeviceNameUstr rootContext.upcase gitPath = 0 := by decide +kernel
  obtain ⟨p, hp, o, part, hstored, htext⟩ := h rootContext gitPath (List.replicate 16 0) 0x43
    backslash (gitPath.drop 3) rfl (by decide) (by decide) hdevice (by decide)
  obtain ⟨p', hp', o', part', hstored', hcut⟩ := @fullPath_text 0x43 gitPath rootContext
    (List.replicate 16 0) (gitPath.drop 3) backslash rfl (by decide) (by decide) hdevice (by decide)
  rw [hp] at hp'
  obtain rfl := Except.ok.inj hp'
  rw [hstored] at hstored'
  obtain ⟨rfl, -⟩ := Outcome.stored.inj hstored'
  rw [htext] at hcut
  exact absurd hcut (by decide +kernel)

end Ldk.DosPath
