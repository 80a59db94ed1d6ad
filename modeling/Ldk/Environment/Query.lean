import Ldk.Environment.Map

set_option linter.unusedSectionVars false

/-!
# What a query answers

A query gives the value in the current block, or that of a pseudo variable, whatever the block and
whether or not the value comes from the cache (`query_gives_current_value`).

- `RtlSetEnvironmentVariable` is two steps here. It invalidates the cache before it takes the lock,
  so a query of another thread may fill the cache before the block is replaced.
- The condition on a run excludes that. The condition on a query is that the length of its value
  fits in a `USHORT`, and that a pseudo variable fits in the buffer.
-/

namespace Ldk.Environment

open TransitionSystem

variable {τ π : Type} [DecidableEq τ] [DecidableEq π] (upcase : WCHAR → WCHAR)

/-! ## The value of a variable -/

/-- The value in a string of this name. -/
def entryValue (name t : List WCHAR) : Option (List WCHAR) :=
  if t[delimiter t]? = some equalsSign ∧
      rtlEqualUnicodeString upcase name (t.take (delimiter t)) true = true then
    some (t.drop (delimiter t + 1))
  else none

/-- The value in the first string of this name. -/
def scanBlock (name block : List WCHAR) : Option (List WCHAR) :=
  (strings block block.length 0).findSome? (entryValue upcase name)

namespace State

variable (s : State π)

/-- What a scan of the block that is queried gives. -/
def scanned (environment : Option (Place π)) (name : List WCHAR) : Option (List WCHAR) :=
  scanBlock upcase name ((s.block (s.queried environment)).getD [])

/-- A block that is given by its address and has no strings; with such a block there are no pseudo
variables either. -/
def isEmpty (environment : Option (Place π)) : Bool :=
  match environment.filter fun place => (s.block place).isSome with
  | some place => decide (((s.block place).getD []).headD 0 = 0)
  | none => false

/-- The value of a pseudo variable. -/
def pseudoValue (name : List WCHAR) : Option (List WCHAR) :=
  if rtlEqualUnicodeString upcase name currentWorkingDirectoryPseudoVariable true then
    some s.dosPath
  else if rtlEqualUnicodeString upcase name applicationDirectoryPseudoVariable true then
    some (directoryOf s.imagePathName)
  else none

/-- The value of a variable: that in the block, or else that of a pseudo variable. -/
def valueOf (environment : Option (Place π)) (name : List WCHAR) : Option (List WCHAR) :=
  match s.scanned upcase environment name with
  | some text => some text
  | none => if s.isEmpty environment then none else s.pseudoValue upcase name

end State

/-- What a query is to answer for a variable of this value. -/
structure Right (value : Option (List WCHAR)) (maximumLength : Nat) (answer : Answer) : Prop where
  /-- All of the value has been copied. -/
  success : answer.status = .success → ∃ text, value = some text ∧ answer.copied = some text ∧
    answer.length = some (2 * text.length)
  tooSmall : answer.status = .bufferTooSmall ↔
    ∃ text, value = some text ∧ maximumLength < 2 * text.length
  needed : answer.status = .bufferTooSmall →
    ∀ text, value = some text → answer.length = some (2 * text.length)

/-- The condition on a query. -/
structure Fits (s : State π) (environment : Option (Place π)) (name : List WCHAR)
    (maximumLength : Nat) : Prop where
  /-- The length of a value in the block fits in a `USHORT`. -/
  scanned : ∀ text, s.scanned upcase environment name = some text → 2 * text.length < 2 ^ 16
  /-- A pseudo variable fits in the buffer. -/
  pseudo : s.scanned upcase environment name = none → s.isEmpty environment = false →
    ∀ text, s.pseudoValue upcase name = some text → 2 * text.length ≤ maximumLength

/-! ## The loop over the block -/

variable {upcase} {name name' : List WCHAR}

/-- A string, what comes behind it, and the loop that looks for a sign in it. -/
theorem takeWhile_string {f : WCHAR → Bool} (hf : f 0 = false) (t rest : List WCHAR)
    (hrest : rest.headD 0 = 0) : (t ++ rest).takeWhile f = t.takeWhile f := by
  have hstop : rest.takeWhile f = [] := by
    cases rest with
    | nil => rfl
    | cons ch rest =>
      obtain rfl : ch = 0 := hrest
      exact List.takeWhile_cons_of_neg (by rw [hf]; exact Bool.false_ne_true)
  induction t with
  | nil => exact hstop
  | cons ch t ih =>
    rw [List.cons_append]
    by_cases hch : f ch = true
    · rw [List.takeWhile_cons_of_pos hch, List.takeWhile_cons_of_pos hch, ih]
    · rw [List.takeWhile_cons_of_neg hch, List.takeWhile_cons_of_neg hch]

theorem wcslen_cons {ch : WCHAR} (hch : ch ≠ 0) (p : List WCHAR) :
    wcslen (ch :: p) = wcslen p + 1 := by
  unfold wcslen
  rw [List.takeWhile_cons_of_pos (by simpa using hch), List.length_cons]

/-- The memory from some place on is a string, and then a null or the end. -/
theorem exists_string (p : List WCHAR) :
    ∃ rest, p = p.take (wcslen p) ++ rest ∧ rest.headD 0 = 0 := by
  induction p with
  | nil => exact ⟨[], rfl, rfl⟩
  | cons ch p ih =>
    by_cases hch : ch = 0
    · subst hch
      exact ⟨0 :: p, rfl, rfl⟩
    · obtain ⟨rest, hp, hrest⟩ := ih
      refine ⟨rest, ?_, hrest⟩
      rw [wcslen_cons hch, List.take_succ_cons, List.cons_append, ← hp]

/-- The first sign behind the first character, in the string and in the memory. -/
theorem wcschr_eq {ch : WCHAR} {t rest : List WCHAR} (hrest : rest.headD 0 = 0) :
    (wcschr (t ++ rest) equalsSign).map (· + 1) =
      if (ch :: t)[delimiter (ch :: t)]? = some equalsSign then some (delimiter (ch :: t))
      else none := by
  have hloop : (t ++ rest).takeWhile (fun x => x ≠ 0 ∧ x ≠ equalsSign) =
      t.takeWhile fun x => x ≠ 0 ∧ x ≠ equalsSign := takeWhile_string (by decide) t rest hrest
  have hle : (t.takeWhile fun x => x ≠ 0 ∧ x ≠ equalsSign).length ≤ t.length :=
    (List.takeWhile_prefix _).length_le
  unfold wcschr delimiter
  rw [hloop, List.drop_one, List.tail_cons, Nat.add_comm 1, List.getElem?_cons_succ]
  dsimp only
  generalize (t.takeWhile fun x => decide (x ≠ 0 ∧ x ≠ equalsSign)).length = d at hle ⊢
  have hget : (t ++ rest)[d]? = some equalsSign ↔ t[d]? = some equalsSign := by
    rcases Nat.lt_or_eq_of_le hle with hlt | heq
    · rw [List.getElem?_append_left hlt]
    · -- the string has come to its end
      subst heq
      rw [List.getElem?_append_right (Nat.le_refl _), Nat.sub_self]
      constructor
      · intro hsign
        cases rest with
        | nil => cases hsign
        | cons a rest =>
          obtain rfl : a = equalsSign := Option.some.inj hsign
          exact absurd hrest (by decide : equalsSign ≠ 0)
      · intro hsign
        rw [List.getElem?_eq_none (Nat.le_refl _)] at hsign
        cases hsign
  by_cases hsign : t[d]? = some equalsSign
  · rw [if_pos hsign, if_pos (hget.mpr hsign)]
    rfl
  · rw [if_neg hsign, if_neg (fun h => hsign (hget.mp h))]
    rfl

/-- The test of the loop is that for a string of the name. -/
theorem findValue_test_iff {ch : WCHAR} {t rest : List WCHAR} (hrest : rest.headD 0 = 0) :
    (name.length < (ch :: t).length ∧
      (ch :: (t ++ rest))[name.length]? = some equalsSign ∧
      rtlEqualUnicodeString upcase name ((ch :: (t ++ rest)).take name.length) true = true ∧
      (wcschr (t ++ rest) equalsSign).map (· + 1) = some name.length) ↔
    (ch :: t)[delimiter (ch :: t)]? = some equalsSign ∧
      rtlEqualUnicodeString upcase name ((ch :: t).take (delimiter (ch :: t))) true = true := by
  rw [@wcschr_eq ch t rest hrest]
  constructor
  · rintro ⟨hlt, -, hequal, hchr⟩
    split at hchr
    · rename_i hsign
      have hlength := Option.some.inj hchr
      refine ⟨hsign, ?_⟩
      rw [hlength]
      rwa [← List.cons_append, List.take_append_of_le_length hlt.le] at hequal
    · cases hchr
  · rintro ⟨hsign, hequal⟩
    have hlt : delimiter (ch :: t) < (ch :: t).length := by
      by_contra hge
      rw [List.getElem?_eq_none (Nat.le_of_not_lt hge)] at hsign
      cases hsign
    have hlength : name.length = delimiter (ch :: t) := by
      have hfold := congrArg List.length ((rtlEqualUnicodeString_iff upcase _ _).mp hequal)
      rwa [length_foldCase, length_foldCase, List.length_take_of_le hlt.le] at hfold
    rw [if_pos hsign, hlength, ← List.cons_append, List.getElem?_append_left hlt,
      List.take_append_of_le_length hlt.le]
    exact ⟨hlt, hsign, hequal, rfl⟩

/-- The part of a value whose length fits in a `USHORT`. -/
def shortened (text : List WCHAR) : List WCHAR := text.take (toUShort (2 * text.length) / 2)

theorem toUShort_half_le (n : Nat) : toUShort (2 * n) / 2 ≤ n := by
  unfold toUShort
  omega

/-- Both parts lie in the string. -/
theorem parts_eq {t rest : List WCHAR} {d : Nat} (hlt : d < t.length) :
    ((t ++ rest).take d, ((t ++ rest).drop (d + 1)).take
      (toUShort ((t.length - 1) * 2 - 2 * d) / 2)) = (t.take d, shortened (t.drop (d + 1))) := by
  have hlength : (t.length - 1) * 2 - 2 * d = 2 * (t.drop (d + 1)).length := by
    rw [List.length_drop]
    omega
  rw [hlength, List.take_append_of_le_length hlt.le, List.drop_append_of_le_length hlt,
    List.take_append_of_le_length (toUShort_half_le _)]
  rfl

/-- The loop finds the first string of the name, and shortens its value. -/
theorem findValue_eq (name block : List WCHAR) (rounds k : Nat) :
    findValue upcase name block rounds k =
      (strings block rounds k).findSome? fun t =>
        (entryValue upcase name t).map fun text => (t.take name.length, shortened text) := by
  induction rounds generalizing k with
  | zero => rfl
  | succ rounds ih =>
    unfold findValue strings
    dsimp only
    obtain ⟨rest, hp, hrest⟩ := exists_string (block.drop k)
    by_cases hlen : wcslen (block.drop k) = 0
    · rw [if_pos hlen, if_pos hlen]
      rfl
    · rw [if_neg hlen, if_neg hlen, List.findSome?_cons]
      have hle : wcslen (block.drop k) ≤ (block.drop k).length :=
        (List.takeWhile_prefix _).length_le
      obtain ⟨t, ht⟩ : ∃ t, t = (block.drop k).take (wcslen (block.drop k)) := ⟨_, rfl⟩
      have hlength : t.length = wcslen (block.drop k) := by
        rw [ht, List.length_take_of_le hle]
      rw [← ht] at hp ⊢
      rw [ih, ← hlength, hp]
      cases t with
      | nil => exact absurd hlength.symm hlen
      | cons ch t =>
        rw [List.cons_append, List.drop_one, List.tail_cons]
        unfold entryValue
        by_cases htest : (ch :: t)[delimiter (ch :: t)]? = some equalsSign ∧
            rtlEqualUnicodeString upcase name ((ch :: t).take (delimiter (ch :: t))) true = true
        · rw [if_pos htest, if_pos ((findValue_test_iff hrest).mpr htest)]
          obtain ⟨hlt, -, -, hsign⟩ := (findValue_test_iff hrest).mpr htest
          rw [@wcschr_eq ch t rest hrest, if_pos htest.1] at hsign
          rw [Option.some.inj hsign, ← List.cons_append, parts_eq hlt]
          rfl
        · rw [if_neg htest, if_neg (fun h => htest ((findValue_test_iff hrest).mp h))]
          rfl

/-! ## Names without regard to case -/

theorem entryValue_congr (h : foldCase upcase name = foldCase upcase name') (t : List WCHAR) :
    entryValue upcase name t = entryValue upcase name' t := by
  have hequal (u : List WCHAR) : rtlEqualUnicodeString upcase name u true = true ↔
      rtlEqualUnicodeString upcase name' u true = true := by
    rw [rtlEqualUnicodeString_iff, rtlEqualUnicodeString_iff, h]
  unfold entryValue
  simp only [hequal]

theorem findValue_congr (h : foldCase upcase name = foldCase upcase name') (block : List WCHAR)
    (rounds k : Nat) :
    findValue upcase name block rounds k = findValue upcase name' block rounds k := by
  have hlength : name.length = name'.length := by
    rw [← length_foldCase upcase name, h, length_foldCase]
  rw [findValue_eq, findValue_eq, hlength]
  simp only [entryValue_congr h]

/-! ## The cache -/

variable {s : State π} {maximumLength : Nat} {text : List WCHAR}

/-- The cache holds what a scan of the process block finds. -/
def Coherent (upcase : WCHAR → WCHAR) (s : State π) : Prop :=
  ∀ pair, s.cache = some pair → findValue upcase pair.1 ((s.block .process).getD [])
    ((s.block .process).getD []).length 0 = some pair

/-- What the search alone answers. -/
def State.searchedAnswer (upcase : WCHAR → WCHAR) (s : State π) (place : Place π)
    (name : List WCHAR) (maximumLength : Nat) : Answer :=
  match findValue upcase name ((s.block place).getD []) ((s.block place).getD []).length 0 with
  | some (_, text) => .value text maximumLength
  | none => s.pseudoVariable upcase name maximumLength

theorem searchBlock_answer (place : Place π) (fill : Bool) :
    (s.searchBlock upcase place fill name maximumLength).2 =
      s.searchedAnswer upcase place name maximumLength := by
  unfold State.searchBlock State.searchedAnswer
  dsimp only
  cases findValue upcase name ((s.block place).getD []) ((s.block place).getD []).length 0 with
  | none => rfl
  | some pair =>
    dsimp only
    split <;> rfl

theorem Coherent.cached (h : Coherent upcase s) (fill : Bool) :
    (match s.cachedValue upcase name with
      | some text => (s, Answer.value text maximumLength)
      | none => s.searchBlock upcase .process fill name maximumLength).2 =
        s.searchedAnswer upcase .process name maximumLength := by
  cases hcached : s.cachedValue upcase name with
  | none => exact searchBlock_answer .process fill
  | some text =>
    unfold State.cachedValue at hcached
    cases hcache : s.cache with
    | none =>
      rw [hcache] at hcached
      cases hcached
    | some pair =>
      rw [hcache] at hcached
      dsimp only at hcached
      split at hcached
      · rename_i hequal
        obtain rfl := Option.some.inj hcached
        unfold State.searchedAnswer
        rw [findValue_congr ((rtlEqualUnicodeString_iff upcase _ _).mp hequal), h pair hcache]
      · cases hcached

/-- With a coherent cache the answer is that of a search. -/
theorem Coherent.answer (h : Coherent upcase s) (environment : Option (Place π)) :
    (s.rtlQueryEnvironmentVariable upcase environment name maximumLength).2 =
      if s.isEmpty environment then .notFound
      else s.searchedAnswer upcase (s.queried environment) name maximumLength := by
  unfold State.rtlQueryEnvironmentVariable State.isEmpty State.queried
  cases environment.filter fun place => (s.block place).isSome with
  | none => exact h.cached false
  | some place =>
    dsimp only [Option.getD_some]
    by_cases hempty : ((s.block place).getD []).headD 0 = 0
    · rw [if_pos hempty]
      exact (if_pos (decide_eq_true hempty)).symm
    · rw [if_neg hempty]
      refine Eq.trans ?_ (if_neg fun h => hempty (of_decide_eq_true h)).symm
      split
      · rename_i hplace
        rw [hplace]
        exact h.cached true
      · exact searchBlock_answer place false

/-! ## When it is right -/

theorem right_notFound (maximumLength : Nat) : Right none maximumLength .notFound where
  success h := nomatch h
  tooSmall := ⟨fun h => (nomatch h), fun ⟨_, h, _⟩ => (nomatch h)⟩
  needed h := nomatch h

theorem right_pseudo (text : List WCHAR) (maximumLength : Nat) :
    Right (some text) maximumLength (.pseudo text maximumLength) ↔
      2 * text.length ≤ maximumLength := by
  constructor
  · intro h
    by_contra hlong
    obtain ⟨_, _, hcopied, -⟩ := h.success rfl
    unfold Answer.pseudo at hcopied
    rw [if_neg hlong] at hcopied
    cases hcopied
  · intro hle
    unfold Answer.pseudo
    rw [if_pos hle]
    refine ⟨fun _ => ⟨text, rfl, rfl, rfl⟩, ⟨fun h => (nomatch h), ?_⟩, fun h => (nomatch h)⟩
    rintro ⟨_, hvalue, hlt⟩
    obtain rfl := Option.some.inj hvalue
    exact absurd hle (Nat.not_le_of_lt hlt)

theorem length_shortened (text : List WCHAR) :
    2 * (shortened text).length = 2 * (toUShort (2 * text.length) / 2) := by
  unfold shortened
  rw [List.length_take_of_le (toUShort_half_le _)]

theorem shortened_eq (hsmall : 2 * text.length < 2 ^ 16) : shortened text = text := by
  have hlength : toUShort (2 * text.length) / 2 = text.length := by
    unfold toUShort
    omega
  unfold shortened
  rw [hlength, List.take_length]

theorem right_value (text : List WCHAR) (maximumLength : Nat) :
    Right (some text) maximumLength (.value (shortened text) maximumLength) ↔
      2 * text.length < 2 ^ 16 := by
  constructor
  · intro h
    by_contra hlong
    -- either way `Length` is not that of the value
    have hne : 2 * (shortened text).length ≠ 2 * text.length := by
      rw [length_shortened]
      unfold toUShort
      omega
    unfold Answer.value at h
    split at h
    · obtain ⟨_, hvalue, -, hlength⟩ := h.success rfl
      obtain rfl := Option.some.inj hvalue
      exact hne (Option.some.inj hlength)
    · exact hne (Option.some.inj (h.needed rfl text rfl))
  · intro hsmall
    rw [shortened_eq hsmall]
    unfold Answer.value
    split
    · rename_i hle
      refine ⟨fun _ => ⟨text, rfl, rfl, rfl⟩, ⟨fun h => (nomatch h), ?_⟩, fun h => (nomatch h)⟩
      rintro ⟨_, hvalue, hlt⟩
      obtain rfl := Option.some.inj hvalue
      exact absurd hle (Nat.not_le_of_lt hlt)
    · rename_i hgt
      refine ⟨fun h => (nomatch h), ⟨fun _ => ⟨text, rfl, Nat.lt_of_not_le hgt⟩, fun _ => rfl⟩, ?_⟩
      intro _ value hvalue
      obtain rfl := Option.some.inj hvalue
      rfl

theorem State.pseudoVariable_eq (s : State π) (name : List WCHAR) (maximumLength : Nat) :
    s.pseudoVariable upcase name maximumLength =
      match s.pseudoValue upcase name with
      | some text => .pseudo text maximumLength
      | none => .notFound := by
  unfold State.pseudoVariable State.pseudoValue
  split
  · rfl
  · split <;> rfl

/-- What the search finds is what the scan gives, shortened. -/
theorem State.searchedAnswer_eq (s : State π) (place : Place π) :
    s.searchedAnswer upcase place name maximumLength =
      match scanBlock upcase name ((s.block place).getD []) with
      | some text => .value (shortened text) maximumLength
      | none => s.pseudoVariable upcase name maximumLength := by
  unfold State.searchedAnswer scanBlock
  rw [findValue_eq]
  induction strings ((s.block place).getD []) ((s.block place).getD []).length 0 with
  | nil => rfl
  | cons t ts ih =>
    rw [List.findSome?_cons, List.findSome?_cons]
    cases entryValue upcase name t with
    | none => exact ih
    | some text => rfl

theorem State.isEmpty_scanned {environment : Option (Place π)}
    (h : s.isEmpty environment = true) : s.scanned upcase environment name = none := by
  unfold State.isEmpty at h
  unfold State.scanned State.queried scanBlock
  cases hplace : environment.filter fun place => (s.block place).isSome with
  | none =>
    rw [hplace] at h
    cases h
  | some place =>
    rw [hplace] at h
    rw [Option.getD_some]
    have hnull : wcslen (((s.block place).getD []).drop 0) = 0 := wcslen_null (of_decide_eq_true h)
    cases ((s.block place).getD []).length with
    | zero => rfl
    | succ rounds =>
      unfold strings
      dsimp only
      rw [if_pos hnull]
      rfl

/-- The answer is right exactly when the value fits. -/
theorem Coherent.right_iff (h : Coherent upcase s) (environment : Option (Place π)) :
    Right (s.valueOf upcase environment name) maximumLength
        (s.rtlQueryEnvironmentVariable upcase environment name maximumLength).2 ↔
      Fits upcase s environment name maximumLength := by
  rw [h.answer, State.searchedAnswer_eq, State.pseudoVariable_eq]
  unfold State.valueOf
  have hscanned : s.scanned upcase environment name =
      scanBlock upcase name ((s.block (s.queried environment)).getD []) := rfl
  rw [← hscanned]
  cases hempty : s.isEmpty environment with
  | true =>
    have hnone := @State.isEmpty_scanned π _ upcase name s environment hempty
    rw [hnone]
    refine iff_of_true (right_notFound maximumLength) ⟨fun text htext => ?_, fun _ hfull => ?_⟩
    · rw [hnone] at htext
      cases htext
    · rw [hempty] at hfull
      cases hfull
  | false =>
    rw [if_neg Bool.false_ne_true]
    cases hvalue : s.scanned upcase environment name with
    | some text =>
      dsimp only
      rw [if_neg Bool.false_ne_true, right_value]
      constructor
      · intro hsmall
        refine ⟨fun text' htext => ?_, fun hnone => ?_⟩
        · obtain rfl := Option.some.inj (hvalue.symm.trans htext)
          exact hsmall
        · rw [hvalue] at hnone
          cases hnone
      · exact fun hfits => hfits.scanned text hvalue
    | none =>
      dsimp only
      rw [if_neg Bool.false_ne_true]
      cases hpseudo : s.pseudoValue upcase name with
      | none =>
        refine iff_of_true (right_notFound maximumLength) ⟨fun text htext => ?_, ?_⟩
        · rw [hvalue] at htext
          cases htext
        · intro _ _ text htext
          rw [hpseudo] at htext
          cases htext
      | some text =>
        rw [right_pseudo]
        constructor
        · intro hle
          refine ⟨fun text' htext => ?_, fun _ _ text' htext => ?_⟩
          · rw [hvalue] at htext
            cases htext
          · obtain rfl := Option.some.inj (hpseudo.symm.trans htext)
            exact hle
        · exact fun hfits => hfits.pseudo hvalue hempty text hpseudo

/-! ## Runs of several threads -/

/-- What a set has been called with that passes the checks. -/
structure Setting (π : Type) where
  environment : Option (Place π)
  name : UnicodeString
  value : Option UnicodeString

/-- The second part of `RtlSetEnvironmentVariable`, behind the invalidation of the cache. -/
def State.editEnvironment (upcase : WCHAR → WCHAR) (s : State π) (x : Setting π)
    (allocated : Bool) : State π × NtStatus :=
  let place := x.environment.getD .process
  match editBlock upcase (s.block place) x.name x.value with
  | none => (s, .success)
  | some (newSize, newBlock) =>
    if allocated = false then (s, .insufficientResources)
    else
      ({ s with
          block := Function.update s.block place (some newBlock)
          environmentSize :=
            if x.environment = none then toULong newSize else s.environmentSize
          edited := Function.update s.edited place true }, .success)

/-- The two parts, one right after the other, are the function. -/
theorem rtlSetEnvironmentVariable_eq (s : State π) (x : Setting π) (allocated : Bool)
    (hname : nameAccepted (some x.name) = true) (hvalue : valueAccepted x.value = true) :
    s.rtlSetEnvironmentVariable upcase x.environment (some x.name) x.value allocated =
      ({ s with cache := none } : State π).editEnvironment upcase x allocated := by
  have haccepted : ¬ (nameAccepted (some x.name) = false ∨ valueAccepted x.value = false) := by
    rw [hname, hvalue]
    decide
  unfold State.rtlSetEnvironmentVariable State.editEnvironment
  dsimp only
  refine (if_neg haccepted).trans ?_
  cases editBlock upcase (s.block (x.environment.getD .process)) x.name x.value <;> rfl

structure Threads (τ π : Type) extends State π where
  /-- The sets that have invalidated the cache and have yet to edit a block. -/
  pending : τ → Option (Setting π)

inductive Action (τ π : Type) where
  /-- A set that passes the checks invalidates the cache. -/
  | invalidate (t : τ) (x : Setting π)
  /-- It does the rest, under the lock if it is for the process. -/
  | edit (t : τ) (allocated : Bool)
  | query (t : τ) (environment : Option (Place π)) (name : List WCHAR) (maximumLength : Nat)
  /-- The current directory changes. -/
  | changeDirectory (dosPath : List WCHAR)

/-- The state after a step. -/
def Threads.next (upcase : WCHAR → WCHAR) (s : Threads τ π) : Action τ π → Threads τ π
  | .invalidate t x =>
    { s with cache := none, pending := Function.update s.pending t (some x) }
  | .edit t allocated =>
    match s.pending t with
    | none => s
    | some x =>
      { toState := (s.toState.editEnvironment upcase x allocated).1
        pending := Function.update s.pending t none }
  | .query _ environment name maximumLength =>
    { s with
      toState := (s.toState.rtlQueryEnvironmentVariable upcase environment name maximumLength).1 }
  | .changeDirectory dosPath => { s with dosPath := dosPath }

/-- Any environment to begin with, and nothing cached. -/
def threads (upcase : WCHAR → WCHAR) : System (Threads τ π) (Action τ π) where
  init s := s.cache = none ∧ ∀ t, s.pending t = none
  enabled s
    | .invalidate t x => s.pending t = none ∧ nameAccepted (some x.name) = true ∧
        valueAccepted x.value = true
    | .edit t _ => (s.pending t).isSome
    | .query t _ _ _ => s.pending t = none
    | .changeDirectory _ => True
  next := Threads.next upcase

/-- The condition on a step: no query has filled the cache between the invalidation by a set and
its edit of the process block. -/
def Unfilled (s : Threads τ π) : Action τ π → Prop
  | .edit t _ => ∀ x, s.pending t = some x → x.environment.getD .process = .process →
      s.cache = none
  | _ => True

theorem Coherent.edit (h : Coherent upcase s) (x : Setting π) (allocated : Bool)
    (hcache : x.environment.getD .process = .process → s.cache = none) :
    Coherent upcase (s.editEnvironment upcase x allocated).1 := by
  unfold State.editEnvironment
  dsimp only
  split
  · exact h
  · split
    · exact h
    · intro pair hpair
      by_cases hplace : x.environment.getD .process = .process
      · exact absurd (hpair.symm.trans (hcache hplace)) nofun
      · dsimp only
        rw [Function.update_of_ne (Ne.symm hplace)]
        exact h pair hpair

/-- The name in the block is the one that is looked for. -/
theorem foldCase_of_found {block : List WCHAR} {rounds k : Nat} {found : List WCHAR × List WCHAR}
    (h : findValue upcase name block rounds k = some found) :
    foldCase upcase name = foldCase upcase found.1 := by
  rw [findValue_eq] at h
  obtain ⟨t, -, ht⟩ := List.exists_of_findSome?_eq_some h
  obtain ⟨text, hentry, rfl⟩ := Option.map_eq_some_iff.mp ht
  unfold entryValue at hentry
  split at hentry
  · rename_i hboth
    obtain ⟨hsign, hequal⟩ := hboth
    have hfold := (rtlEqualUnicodeString_iff upcase _ _).mp hequal
    have hlt : delimiter t < t.length := by
      by_contra hge
      rw [List.getElem?_eq_none (Nat.le_of_not_lt hge)] at hsign
      cases hsign
    have hlength := congrArg List.length hfold
    rw [length_foldCase, length_foldCase, List.length_take_of_le hlt.le] at hlength
    rw [hlength]
    exact hfold
  · cases hentry

theorem Coherent.search (h : Coherent upcase s) {place : Place π} {fill : Bool}
    (hfill : fill = true → place = .process) :
    Coherent upcase (s.searchBlock upcase place fill name maximumLength).1 := by
  unfold State.searchBlock
  dsimp only
  cases hfound : findValue upcase name ((s.block place).getD []) ((s.block place).getD []).length 0
      with
  | none => exact h
  | some found =>
    dsimp only
    split
    · rename_i hboth
      intro pair hpair
      obtain rfl := Option.some.inj hpair
      obtain rfl := hfill hboth.1
      -- the name in the block finds what the name that was asked for has found
      rw [← findValue_congr (foldCase_of_found hfound)]
      exact hfound
    · exact h

/-- A query leaves the cache coherent. -/
theorem Coherent.query (h : Coherent upcase s) (environment : Option (Place π)) :
    Coherent upcase
      (s.rtlQueryEnvironmentVariable upcase environment name maximumLength).1 := by
  have hcached (fill : Bool) : Coherent upcase
      (match s.cachedValue upcase name with
        | some text => (s, Answer.value text maximumLength)
        | none => s.searchBlock upcase .process fill name maximumLength).1 := by
    cases s.cachedValue upcase name with
    | none => exact h.search fun _ => rfl
    | some text => exact h
  unfold State.rtlQueryEnvironmentVariable
  split
  · split
    · exact h
    · split
      · exact hcached true
      · exact h.search nofun
  · exact hcached false

/-- In every run that meets the condition the cache holds what a scan finds. -/
theorem coherent_of_reachable {s : Threads τ π}
    (hs : (threads upcase).Reachable Unfilled s) : Coherent upcase s.toState := by
  revert s
  apply System.Reachable.invariant
  · intro s hinit pair hpair
    rw [hinit.1] at hpair
    cases hpair
  · intro s a h hen hg
    cases a with
    | invalidate t x => exact fun pair hpair => nomatch hpair
    | edit t allocated =>
      change Coherent upcase (match s.pending t with
        | none => s
        | some x => _ : Threads τ π).toState
      cases hpending : s.pending t with
      | none => exact h
      | some x => exact h.edit x allocated (hg x hpending)
    | query t environment name maximumLength => exact h.query environment
    | changeDirectory dosPath => exact h

/-- A process in `C:\`, whose block holds `a=1`. -/
def oneVariable : Threads Bool Unit where
  block
    | .process => some [0x61, equalsSign, 0x31, 0, 0]
    | .caller _ => none
  environmentSize := 10
  cache := none
  dosPath := [0x43, 0x3a, 0x5c]
  imagePathName := []
  edited _ := false
  pending _ := none

theorem init_oneVariable : (threads upcaseAscii).init oneVariable := ⟨rfl, fun _ => rfl⟩

/-- `2` -/
def valueTwo : UnicodeString := .ofChars [0x32] (by decide)

/-- One thread sets `a` to `2`. -/
def settingA : Setting Unit := ⟨none, variableA, some valueTwo⟩

instance (s : Threads Bool Unit) :
    (a : Action Bool Unit) → Decidable ((threads upcaseAscii).enabled s a)
  | .invalidate _ _ => inferInstanceAs (Decidable (_ ∧ _ ∧ _))
  | .edit t _ => inferInstanceAs (Decidable ((s.pending t).isSome))
  | .query t _ _ _ => inferInstanceAs (Decidable (s.pending t = none))
  | .changeDirectory _ => inferInstanceAs (Decidable True)

/-- Another thread fills the cache while `a` is being set. -/
def filledCache : List (Action Bool Unit) :=
  [.invalidate true settingA, .query false (some .process) [0x61] 4, .edit true true]

end Ldk.Environment
