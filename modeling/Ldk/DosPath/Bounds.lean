import Ldk.DosPath.Loop

/-!
# The bounds of a full path

Where `RtlGetFullPathName_Ustr` writes. Each path type provides what the loop needs (`Provided`),
with three exceptions: a root local device, whose prefix is longer than the length that is tested;
a value of `=X:` that fills the buffer, which a backslash is added to; and a value of `=X:` that is
not a path, where `..` finds no backslash to stop at (`full_path_is_contained`).
-/

namespace Ldk.DosPath

variable {o : Output} {ch : WCHAR} {s buffer : List WCHAR} {B lo i source : Nat}

/-! ## One path type after another -/

/-- The frame of the loop, with `n` for `nBufferLength`. -/
def Start.frame (s : List WCHAR) (n : Nat) (x : Start) (hroot : 1 ≤ x.backupIndex)
    (hsize : n ≤ 2 * x.buffer.length) : Frame where
  name := s
  allowed := backslash :: (s ++ x.pathPrefix)
  backupIndex := x.backupIndex
  lo := x.prefixSource + x.pathPrefix.length
  size := x.buffer.length
  limit := n / 2
  limit_le := by omega
  root_pos := hroot
  backslash_mem := List.mem_cons_self
  name_subset _ hch := List.mem_cons_of_mem _ (List.mem_append_left _ hch)

theorem charAt_mem {k : Nat} (hk : k < s.length) : charAt s k ∈ s := by
  unfold charAt
  rw [List.getElem?_eq_getElem hk]
  exact List.getElem_mem hk

theorem toBackslash_mem {l : List WCHAR} (h : ch ∈ l) : toBackslash ch ∈ backslash :: l := by
  unfold toBackslash
  split
  · exact List.mem_cons_self
  · exact List.mem_cons_of_mem _ h

variable {x : Start} {n : Nat}

theorem Placed.text (h : Placed s x o) (hroot : 1 ≤ x.backupIndex)
    (hsize : n ≤ 2 * x.buffer.length) (hsource : x.prefixSource ≤ s.length)
    (hplace : x.inPlace = true → x.prefixSource = 0 ∧
      ∀ k < x.pathPrefix.length, charAt x.buffer k = charAt x.pathPrefix k) :
    Text (x.frame s n hroot hsize) o where
  size := h.size
  chars k hk := by
    change charAt o.buffer k ∈ backslash :: (s ++ x.pathPrefix)
    rw [h.dest] at hk
    by_cases hfirst : k < x.prefixSource
    · rw [h.source k hfirst]
      exact toBackslash_mem (List.mem_append_left _ (charAt_mem (by omega)))
    · obtain ⟨m, rfl⟩ := Nat.exists_eq_add_of_le (Nat.le_of_not_lt hfirst)
      have hm : m < x.pathPrefix.length := by omega
      have hmem : charAt x.pathPrefix m ∈ s ++ x.pathPrefix :=
        List.mem_append_right _ (charAt_mem hm)
      cases hin : x.inPlace with
      | false =>
        rw [h.pathPrefix hin m hm]
        exact toBackslash_mem hmem
      | true =>
        obtain ⟨hzero, hchars⟩ := hplace hin
        rw [h.inPlace hin hzero, hzero, Nat.zero_add, hchars m hm]
        exact List.mem_cons_of_mem _ hmem
  single k hlo hk := by
    rw [h.dest] at hk
    exact absurd hk (Nat.not_lt_of_le hlo)

/-- What the switch sets up for the rest of the function. -/
structure Provided (s : List WCHAR) (n : Nat) (x : Start) : Prop where
  root_pos : 1 ≤ x.backupIndex
  size : n ≤ 2 * x.buffer.length
  even : x.pathNameLength % 2 = 0
  prefixSource_le : x.prefixSource ≤ s.length
  inPlace : x.inPlace = true → x.prefixSource = 0 ∧
    ∀ k < x.pathPrefix.length, charAt x.buffer k = charAt x.pathPrefix k
  /-- When the test of the size is passed, there is room for the prefix. -/
  room : x.pathNameLength + 2 * x.pathPrefix.length + 2 ≤ n →
    2 * (x.prefixSource + x.pathPrefix.length) + 2 ≤ n
  walks : x.pathNameLength + 2 * x.pathPrefix.length + 2 ≤ n → ∀ o, Placed s x o →
    ∀ o₁, Shortened o o₁ → o₁.dest = o.dest →
      Yields (walk s x.backupIndex (s.length - x.source) x.source x.source o₁) fun o' =>
        Text (x.frame s n root_pos size) o' ∧ o'.dest < n / 2
  /-- The only name the test of the size lets through. -/
  single : s = [dot] → x.source = 0 ∧ x.prefixSource = 0 ∧ x.inPlace = false ∧
    x.pathNameLength = 2 ∧ 0 < x.pathPrefix.length ∧ 2 * x.pathPrefix.length < 2 ^ 16

/-- What the function gives when it has come to its end. -/
structure Finished (f : Frame) (pathType : RtlPathType) (o : Output) (part : Option Nat) : Prop where
  text : Text f o
  dest_lt : o.dest < f.limit
  null : charAt o.buffer o.dest = 0
  part : part = filePart pathType f.backupIndex o

theorem store_zero (hlt : o.dest < o.buffer.length) :
    Yields (o.store 0) fun o' => Shortened o o' ∧ o'.dest = o.dest := by
  rw [Output.store_eq hlt]
  exact .ok ⟨⟨List.length_set, Nat.le_refl _, fun k hk => charAt_set_ne (Nat.ne_of_gt hk)⟩, rfl⟩

/-- From the loop to the end. -/
theorem skipit_spec {pathType : RtlPathType} (f : Frame) (hx : x.backupIndex = f.backupIndex)
    (hlt : o.dest < o.buffer.length)
    (hwalk : ∀ o₁, Shortened o o₁ → o₁.dest = o.dest →
      Yields (walk s x.backupIndex (s.length - x.source) x.source x.source o₁) fun o' =>
        Text f o' ∧ o'.dest < f.limit) :
    Yields (skipit s pathType x o) fun out => ∃ o' part, out = .stored o' part ∧
      Finished f pathType o' part := by
  unfold skipit
  apply (store_zero hlt).bind
  rintro o₁ ⟨hshort, hdest⟩
  apply (hwalk o₁ hshort hdest).bind
  rintro o₂ ⟨htext, hlimit⟩
  have hlt₂ : o₂.dest < o₂.buffer.length := by
    have := htext.size
    have := f.limit_le
    omega
  apply (finish_spec hlt₂).bind
  rintro o₃ ⟨hshort₃, hnull⟩
  refine .ok ⟨o₃, _, rfl, htext.shorten hshort₃, ?_, hnull, ?_⟩
  · exact Nat.lt_of_le_of_lt hshort₃.dest hlimit
  · rw [hx]

/-- The loop, where the prefix and the name leave room and a place to stop. -/
theorem walks_of_place (hroot : 1 ≤ x.backupIndex) (hsize : n ≤ 2 * x.buffer.length)
    (hsource : x.prefixSource ≤ s.length)
    (hplace : x.inPlace = true → x.prefixSource = 0 ∧
      ∀ k < x.pathPrefix.length, charAt x.buffer k = charAt x.pathPrefix k)
    (hroom : 2 * (x.prefixSource + x.pathPrefix.length + (s.length - x.source)) + 2 ≤ n)
    (hstart : Anchored x.backupIndex o ∨ (0 < o.dest ∧ Flat s) ∨
      (Boundary s x.source x.source ∧ Ready x.backupIndex o))
    (ho : Placed s x o) {o₁ : Output} (hshort : Shortened o o₁) (hdest : o₁.dest = o.dest) :
    Yields (walk s x.backupIndex (s.length - x.source) x.source x.source o₁) fun o' =>
      Text (x.frame s n hroot hsize) o' ∧ o'.dest < n / 2 := by
  have hinside : Inside (x.frame s n hroot hsize) x.source x.source o₁ := by
    constructor
    case text => exact (ho.text hroot hsize hsource hplace).shorten hshort
    case room =>
      change o₁.dest + (s.length - x.source) < n / 2
      rw [hdest, ho.dest]
      omega
    case source_le => exact Nat.le_refl _
    case place =>
      rcases hstart with ⟨q, hq, hlt, hch⟩ | ⟨hpos, hflat⟩ | ⟨hboundary, hready⟩
      · left; left
        refine ⟨q, hq, hdest ▸ hlt, ?_⟩
        rw [hshort.text q (hdest ▸ hlt)]
        exact hch
      · exact .inl (.inr ⟨hdest ▸ hpos, hflat⟩)
      · right
        refine ⟨hboundary, ?_⟩
        rcases hready with hready | ⟨hdest', hpos, hch⟩
        · exact .inl (hdest.symm ▸ hready)
        · refine .inr ⟨hdest.symm ▸ hdest', hdest.symm ▸ hpos, ?_⟩
          rw [hdest, hshort.text _ (by omega)]
          exact hch
  exact walk_spec hinside

/-- The lengths that the function uses, when `nBufferLength` is `m`. -/
structure Sizes (m n : Nat) : Prop where
  even : n % 2 = 0
  cases : n = m ∨ (n = 2 ^ 16 - 2 ∧ 2 ^ 16 - 2 < m)

theorem sizes_usedLength {m : Nat} (heven : m % 2 = 0) : Sizes m (usedLength m) := by
  unfold usedLength
  split
  · exact ⟨rfl, .inr ⟨rfl, by omega⟩⟩
  · exact ⟨heven, .inl rfl⟩

/-- A length that is needed is not below that of the buffer, unless it is too long for a string. -/
theorem Sizes.needed {m k : Nat} (h : Sizes m n) (heven : k % 2 = 0) (hlt : n < k) :
    (neededLength k = 0 ∧ 2 ^ 16 ≤ k) ∨ (m ≤ neededLength k ∧ n < neededLength k) := by
  have := h.even
  have := h.cases
  unfold neededLength
  split
  · exact .inl ⟨rfl, by omega⟩
  · right
    omega

/-- What the function comes to, when `need` bytes are needed. -/
def Finishes (f : Frame) (m n need : Nat) (pathType : RtlPathType) (out : Outcome) : Prop :=
  (∃ k, out = .returned k ∧ ((k = 0 ∧ 2 ^ 16 ≤ need) ∨ (m ≤ k ∧ n < k))) ∨
    ∃ o part, out = .stored o part ∧ Finished f pathType o part

theorem eq_dot (h : ¬ (s.length > 1 ∨ charAt s 0 ≠ dot)) : s = [dot] := by
  match s, h with
  | [], h => exact absurd (Or.inr (by decide)) h
  | [ch], h =>
    by_contra hne
    exact h (.inr fun hch => hne (congrArg (fun c => [c]) hch))
  | _ :: _ :: _, h => exact absurd (Or.inl (by simp)) h

/-- The path of a single dot. -/
theorem skipit_dot {pathType : RtlPathType} (hx : Provided [dot] n x) (ho : Placed [dot] x o)
    {o₁ : Output} (hshort : Shortened o o₁) (hlt : o₁.dest < n / 2) :
    Yields (skipit [dot] pathType x o₁) fun out => ∃ o' part, out = .stored o' part ∧
      Finished (x.frame [dot] n hx.root_pos hx.size) pathType o' part := by
  obtain ⟨hsource, -, -, -⟩ := hx.single rfl
  have htext := ho.text hx.root_pos hx.size hx.prefixSource_le hx.inPlace
  have hsize : o₁.dest < o₁.buffer.length := by
    have := hshort.length
    have := ho.size
    have := hx.size
    omega
  apply skipit_spec _ rfl hsize
  intro o₂ hshort₂ hdest₂
  rw [hsource, walk_dot]
  refine .ok ⟨htext.shorten (hshort.trans hshort₂), ?_⟩
  rw [hdest₂]
  exact hlt

theorem build_spec {m : Nat} {pathType : RtlPathType} (hsizes : Sizes m n)
    (hx : Provided s n x) :
    Yields (build s n pathType x) (Finishes (x.frame s n hx.root_pos hx.size) m n
      (x.pathNameLength + 2 * x.pathPrefix.length + 2) pathType) := by
  have heven := hx.even
  have hneven := hsizes.even
  have hsize := hx.size
  unfold build
  dsimp only
  apply Yields.ite
  · intro hsmall
    apply Yields.ite
    · intro _
      exact .ok (.inl ⟨_, rfl, hsizes.needed (by omega) hsmall⟩)
    intro hname
    obtain rfl := eq_dot hname
    obtain ⟨-, hzero, hin, hlength, hpos, hbound⟩ := hx.single rfl
    have hput (hroom : x.pathPrefix.length ≤ x.buffer.length) : Yields (putPrefix [dot] x)
        (Placed [dot] x) := putPrefix_spec hx.prefixSource_le (by omega)
    apply Yields.ite
    · intro hsix
      apply Yields.ite
      · intro hle
        have := hsizes.cases
        exact .ok (.inl ⟨_, rfl, .inr ⟨by omega, by omega⟩⟩)
      · intro hgt
        apply (hput (by omega)).bind
        intro o ho
        apply (skipit_dot hx ho (.refl o) (by rw [ho.dest]; omega)).mono
        exact fun out hout => .inr hout
    · intro hsix
      apply Yields.ite
      · intro hlt
        have := hsizes.cases
        exact .ok (.inl ⟨_, rfl, .inr ⟨by omega, by omega⟩⟩)
      · intro hge
        obtain ⟨o, hput', ho⟩ := hput (by omega)
        -- the directory is copied as another prefix is
        have hcopy : copyPrefix x.buffer 0 x.pathPrefix = .ok o.buffer := by
          have hnone : copyPrefix x.buffer 0 ([dot].take x.prefixSource) = .ok x.buffer := by
            rw [hzero]
            unfold copyPrefix
            rw [rtlCopyMemory_eq (Nat.zero_le _)]
            simp
          unfold putPrefix at hput'
          rw [if_pos (.inr hin), hnone, hzero] at hput'
          change (copyPrefix x.buffer 0 x.pathPrefix >>= fun buffer =>
            Except.ok (Output.mk buffer (0 + x.pathPrefix.length))) = Except.ok o at hput'
          cases hcopied : copyPrefix x.buffer 0 x.pathPrefix with
          | error fault =>
            rw [hcopied] at hput'
            cases hput'
          | ok buffer =>
            rw [hcopied] at hput'
            obtain rfl := Except.ok.inj hput'
            rfl
        rw [hcopy, Yields.ok_bind]
        have hdest : subUShort (2 * x.pathPrefix.length) 2 / 2 = x.pathPrefix.length - 1 := by
          rw [subUShort_eq (by omega) hbound]
          omega
        rw [hdest]
        have hshort : Shortened o ⟨o.buffer, x.pathPrefix.length - 1⟩ := by
          refine ⟨rfl, ?_, fun _ _ => rfl⟩
          change x.pathPrefix.length - 1 ≤ o.dest
          rw [ho.dest]
          omega
        have hlt : x.pathPrefix.length - 1 < n / 2 := by omega
        apply (skipit_dot hx ho hshort hlt).mono
        exact fun out hout => .inr hout
  · intro hlarge
    have hroom := Nat.le_of_not_lt hlarge
    have hpre := hx.room hroom
    apply (putPrefix_spec hx.prefixSource_le (by omega)).bind
    intro o ho
    have hlt : o.dest < o.buffer.length := by
      rw [ho.dest, ho.size]
      omega
    apply (skipit_spec _ rfl hlt (hx.walks hroom o ho)).mono
    exact fun out hout => .inr hout

/-! ## The current directory -/

/-- A directory on a drive, or on a server. -/
inductive IsDirectory (dosPath : List WCHAR) : Prop where
  | drive (ch : WCHAR) (rest : List WCHAR) (hpath : dosPath = ch :: colon :: backslash :: rest)
    (hletter : isDriveLetter ch = true) (hlast : dosPath.getLast? = some backslash)
    (hlength : 2 * dosPath.length < 2 ^ 16)
  | unc (ch : WCHAR) (rest : List WCHAR) (hpath : dosPath = backslash :: backslash :: ch :: rest)
    (htype : rtlDetermineDosPathNameTypeU dosPath = .uncAbsolute)
    (hserver : isPathSeparator ch = false) (hnull : 0 ∉ dosPath)
    (hlast : dosPath.getLast? = some backslash) (hlength : 2 * dosPath.length < 2 ^ 16)

variable {dosPath : List WCHAR}

namespace IsDirectory

theorem last (h : IsDirectory dosPath) : dosPath.getLast? = some backslash := by
  cases h <;> assumption

theorem length_lt (h : IsDirectory dosPath) : 2 * dosPath.length < 2 ^ 16 := by
  cases h <;> assumption

theorem three_le (h : IsDirectory dosPath) : 3 ≤ dosPath.length := by
  cases h with
  | drive ch rest hpath =>
    rw [hpath]
    exact Nat.le_add_left 3 _
  | unc ch rest hpath =>
    rw [hpath]
    exact Nat.le_add_left 3 _

/-- The directory ends with a backslash. -/
theorem charAt_last (h : IsDirectory dosPath) :
    charAt dosPath (dosPath.length - 1) = backslash := by
  have hlast := h.last
  rw [List.getLast?_eq_getElem?] at hlast
  unfold charAt
  rw [hlast]
  rfl

end IsDirectory

theorem toSecondSeparator_le (l : List WCHAR) (count : Nat) :
    toSecondSeparator l count ≤ l.length := by
  induction l generalizing count with
  | nil => exact Nat.le_refl 0
  | cons ch l ih =>
    unfold toSecondSeparator
    rw [List.length_cons]
    split
    · split
      · exact Nat.zero_le _
      · have := ih (count + 1)
        omega
    · have := ih count
      omega

/-- The scan stops at a separator or at the end. -/
theorem toSecondSeparator_stops (l : List WCHAR) (count : Nat) :
    toSecondSeparator l count = l.length ∨
      isPathSeparator (charAt l (toSecondSeparator l count)) = true := by
  have hcons : ∀ (ch : WCHAR) (l : List WCHAR) (k : Nat), k = l.length ∨
      isPathSeparator (charAt l k) = true → 1 + k = (ch :: l).length ∨
        isPathSeparator (charAt (ch :: l) (1 + k)) = true := by
    intro ch l k h
    rw [Nat.add_comm 1 k]
    rcases h with h | h
    · exact .inl (congrArg (· + 1) h)
    · exact .inr h
  induction l generalizing count with
  | nil => exact .inl rfl
  | cons ch l ih =>
    unfold toSecondSeparator
    split
    · rename_i hch
      split
      · exact .inr hch
      · exact hcons ch l _ (ih (count + 1))
    · exact hcons ch l _ (ih count)

/-- There is a server, and something behind it. -/
theorem two_le_toSecondSeparator {l : List WCHAR} (hch : isPathSeparator ch = false)
    (hne : l ≠ []) : 2 ≤ toSecondSeparator (ch :: l) 0 := by
  obtain ⟨c, l, rfl⟩ := List.exists_cons_of_ne_nil hne
  have hnext : 1 ≤ toSecondSeparator (c :: l) 0 := by
    unfold toSecondSeparator
    split
    · rw [if_neg (by decide)]
      exact Nat.le_add_right 1 _
    · exact Nat.le_add_right 1 _
  unfold toSecondSeparator
  rw [hch, if_neg Bool.false_ne_true]
  omega

/-- The root of the directory lies within it, and tells a drive from a server. -/
theorem IsDirectory.backupIndex (h : IsDirectory dosPath) :
    (rtlpComputeBackupIndex dosPath = 3 ∧ charAt dosPath 1 = colon) ∨
      (4 ≤ rtlpComputeBackupIndex dosPath ∧ rtlpComputeBackupIndex dosPath ≤ dosPath.length) := by
  cases h with
  | drive ch rest hpath hletter =>
    left
    have hch : isPathSeparator ch = false := by
      cases hseparator : isPathSeparator ch with
      | false => rfl
      | true =>
        unfold isPathSeparator at hseparator
        rcases (Bool.or_eq_true _ _).mp hseparator with hone | hone
        · rw [beq_iff_eq.mp hone] at hletter
          exact absurd hletter (by decide)
        · rw [beq_iff_eq.mp hone] at hletter
          exact absurd hletter (by decide)
    have htype : rtlDetermineDosPathNameTypeU dosPath ≠ .uncAbsolute := by
      unfold rtlDetermineDosPathNameTypeU
      rw [hpath]
      change (if isPathSeparator ch = true then _ else _) ≠ _
      rw [hch, if_neg Bool.false_ne_true]
      split_ifs <;> nofun
    unfold rtlpComputeBackupIndex
    rw [if_neg htype, hpath]
    exact ⟨rfl, rfl⟩
  | unc ch rest hpath htype hserver hnull hlast =>
    right
    have hne : rest ≠ [] := by
      rintro rfl
      rw [hpath] at hlast
      have heq : ch = backslash := Option.some.inj hlast
      rw [heq] at hserver
      exact absurd hserver (by decide)
    have htail : (dosPath.drop 2).takeWhile (· ≠ 0) = ch :: rest := by
      have hdrop : dosPath.drop 2 = ch :: rest := by
        rw [hpath]
        rfl
      rw [hdrop]
      apply List.takeWhile_eq_self_iff.mpr
      intro c hc
      apply decide_eq_true
      rintro rfl
      apply hnull
      rw [hpath]
      exact List.mem_cons_of_mem _ (List.mem_cons_of_mem _ hc)
    unfold rtlpComputeBackupIndex
    rw [if_pos htype, htail]
    -- the server and the share behind it are never left
    have hge := two_le_toSecondSeparator hserver hne
    have hle := toSecondSeparator_le (ch :: rest) 0
    rw [hpath]
    simp only [List.length_cons] at hle ⊢
    omega

theorem IsDirectory.backupIndex_le (h : IsDirectory dosPath) :
    3 ≤ rtlpComputeBackupIndex dosPath ∧ rtlpComputeBackupIndex dosPath ≤ dosPath.length := by
  have := h.three_le
  rcases h.backupIndex with ⟨hthree, -⟩ | ⟨hge, hle⟩
  · omega
  · omega

/-! ## Each path type -/

/-- What the code has looked at when it has found the type. -/
def TypeFacts (s : List WCHAR) : RtlPathType → Prop
  | .unknown => False
  | .uncAbsolute => 2 ≤ s.length
  | .driveAbsolute => 3 ≤ s.length ∧ isPathSeparator (charAt s 0) = false ∧
      charAt s 1 = colon ∧ isPathSeparator (charAt s 2) = true
  | .driveRelative => 2 ≤ s.length
  | .rooted => 1 ≤ s.length ∧ isPathSeparator (charAt s 0) = true
  | .relative => True
  | .localDevice => 4 ≤ s.length ∧ isPathSeparator (charAt s 3) = true
  | .rootLocalDevice => s.length = 3 ∧ isPathSeparator (charAt s 0) = true ∧
      isPathSeparator (charAt s 1) = true ∧ (charAt s 2 = dot ∨ charAt s 2 = questionMark)

theorem typeFacts (s : List WCHAR) : TypeFacts s (rtlDetermineDosPathNameTypeUstr s) := by
  unfold rtlDetermineDosPathNameTypeUstr
  split
  · rename_i hfirst
    split
    · rename_i hsecond
      split
      · rename_i hthird
        split
        · rename_i hfourth
          exact hfourth
        · split
          · rename_i hthree
            exact ⟨hthree, hfirst.2, hsecond.2, hthird.2⟩
          · exact hsecond.1
      · exact hsecond.1
    · exact hfirst
  · rename_i hfirst
    split
    · rename_i hdrive
      split
      · rename_i hthird
        refine ⟨hthird.1, ?_, hdrive.2.2, hthird.2⟩
        cases hch : isPathSeparator (charAt s 0) with
        | false => rfl
        | true => exact absurd ⟨Nat.le_of_succ_le hdrive.1, hch⟩ hfirst
      · exact hdrive.1
    · trivial

/-- Room and a place to stop are enough. -/
theorem Provided.of_place (hroot : 1 ≤ x.backupIndex) (hsize : n ≤ 2 * x.buffer.length)
    (heven : x.pathNameLength % 2 = 0) (hsource : x.prefixSource ≤ s.length)
    (hin : x.inPlace = true → x.prefixSource = 0 ∧
      ∀ k < x.pathPrefix.length, charAt x.buffer k = charAt x.pathPrefix k)
    (hroom : x.pathNameLength + 2 * x.pathPrefix.length + 2 ≤ n →
      2 * (x.prefixSource + x.pathPrefix.length + (s.length - x.source)) + 2 ≤ n)
    (hplace : ∀ o, Placed s x o → Anchored x.backupIndex o ∨ (0 < o.dest ∧ Flat s) ∨
      (Boundary s x.source x.source ∧ Ready x.backupIndex o))
    (hdot : s = [dot] → x.source = 0 ∧ x.prefixSource = 0 ∧ x.inPlace = false ∧
      x.pathNameLength = 2 ∧ 0 < x.pathPrefix.length ∧ 2 * x.pathPrefix.length < 2 ^ 16) :
    Provided s n x where
  root_pos := hroot
  size := hsize
  even := heven
  prefixSource_le := hsource
  inPlace := hin
  room h := by
    have := hroom h
    omega
  walks h _ ho _ hshort hdest :=
    walks_of_place hroot hsize hsource hin (hroom h) (hplace _ ho) ho hshort hdest
  single := hdot

/-- A prefix that ends with a backslash at the root or behind it is an anchor. -/
theorem Placed.anchored (ho : Placed s x o) (hzero : x.prefixSource = 0)
    (hin : x.inPlace = true → x.prefixSource = 0 ∧
      ∀ k < x.pathPrefix.length, charAt x.buffer k = charAt x.pathPrefix k)
    (hroot : x.backupIndex ≤ x.pathPrefix.length) (hpos : 0 < x.pathPrefix.length)
    (hlast : charAt x.pathPrefix (x.pathPrefix.length - 1) = backslash) :
    Anchored x.backupIndex o := by
  refine ⟨x.pathPrefix.length - 1, by omega, ?_, ?_⟩
  · rw [ho.dest]
    omega
  · cases hplace : x.inPlace with
    | true =>
      rw [ho.inPlace hplace hzero, (hin hplace).2 _ (by omega)]
      exact hlast
    | false =>
      have hchar := ho.pathPrefix hplace (x.pathPrefix.length - 1) (by omega)
      rw [hzero, Nat.zero_add] at hchar
      rw [hchar, hlast]
      rfl

variable {c : Context}

theorem ne_dot_of_two_le (h : 2 ≤ s.length) : s ≠ [dot] := by
  rintro rfl
  exact absurd h (by decide)

/-- A path on a server. -/
theorem provided_unc (hlen : 2 ≤ s.length) (hsize : n ≤ 2 * buffer.length) :
    Provided s n ⟨2 + toSecondSeparator (s.drop 2) 0, 2 + toSecondSeparator (s.drop 2) 0, [],
      false, 2 + toSecondSeparator (s.drop 2) 0, 2 * s.length, buffer⟩ := by
  have hle := toSecondSeparator_le (s.drop 2) 0
  rw [List.length_drop] at hle
  apply Provided.of_place
  case hroot => exact Nat.le_trans (by decide) (Nat.le_add_right 2 _)
  case hsize => exact hsize
  case heven => exact Nat.mul_mod_right 2 _
  case hsource =>
    change 2 + toSecondSeparator (s.drop 2) 0 ≤ s.length
    omega
  case hin => exact nofun
  case hroom =>
    dsimp only [List.length_nil]
    omega
  case hplace =>
    intro o ho
    right; right
    constructor
    · rcases toSecondSeparator_stops (s.drop 2) 0 with hstop | hstop
      · left
        rw [hstop, List.length_drop]
        change s.length ≤ 2 + (s.length - 2)
        omega
      · right
        change isPathSeparator (charAt s (2 + toSecondSeparator (s.drop 2) 0)) = true
        have hsplit := charAt_append_right (s.take 2) (s.drop 2) (toSecondSeparator (s.drop 2) 0)
        rw [List.take_append_drop, List.length_take_of_le hlen] at hsplit
        rw [hsplit]
        exact hstop
    · left
      exact Nat.le_of_eq ho.dest.symm
  case hdot => exact fun h => absurd h (ne_dot_of_two_le hlen)

/-- A local device. -/
theorem provided_localDevice (hlen : 4 ≤ s.length) (hch : isPathSeparator (charAt s 3) = true)
    (hsize : n ≤ 2 * buffer.length) :
    Provided s n ⟨4, 4, [], false, 4, 2 * s.length, buffer⟩ := by
  apply Provided.of_place
  case hroot => exact Nat.le_add_left 1 3
  case hsize => exact hsize
  case heven => exact Nat.mul_mod_right 2 _
  case hsource => exact hlen
  case hin => exact nofun
  case hroom =>
    dsimp only [List.length_nil]
    omega
  case hplace =>
    intro o ho
    left
    refine ⟨3, Nat.le_refl 4, ?_, ?_⟩
    · rw [ho.dest]
      exact Nat.lt_succ_self 3
    · rw [ho.source 3 (Nat.lt_succ_self 3)]
      exact toBackslash_of_separator hch
  case hdot => exact fun h => absurd h (ne_dot_of_two_le (by omega))

/-- The root local device, in a buffer that the test of the size is right about. -/
theorem provided_rootLocalDevice (hlen : s.length = 3) (hsize : n ≤ 2 * buffer.length)
    (hbuffer : n < 6 ∨ 12 ≤ n) :
    Provided s n ⟨3, 3, slashSlashDot.take 2, false, 3, 2 * s.length - 6, buffer⟩ := by
  have htwo : (slashSlashDot.take 2).length = 2 := rfl
  apply Provided.of_place
  case hroot => exact Nat.le_add_left 1 2
  case hsize => exact hsize
  case heven =>
    change (2 * s.length - 6) % 2 = 0
    omega
  case hsource => exact Nat.le_of_eq hlen.symm
  case hin => exact nofun
  case hroom =>
    dsimp only
    rw [htwo, hlen]
    omega
  case hplace =>
    intro o ho
    right; right
    refine ⟨.inl (Nat.le_of_eq hlen), .inl ?_⟩
    rw [ho.dest]
    exact Nat.le_add_right 3 _
  case hdot => exact fun h => absurd h (ne_dot_of_two_le (by omega))

/-- A path relative to a drive, behind a prefix with a root, or without `..`. -/
theorem provided_driveRelative {pathPrefix : List WCHAR} {inPlace : Bool} (hlen : 2 ≤ s.length)
    (hsize : n ≤ 2 * buffer.length)
    (hpre : (3 ≤ pathPrefix.length ∧ charAt pathPrefix (pathPrefix.length - 1) = backslash) ∨
      (0 < pathPrefix.length ∧ Flat s))
    (hin : inPlace = true → ∀ k < pathPrefix.length, charAt buffer k = charAt pathPrefix k) :
    Provided s n ⟨2, 0, pathPrefix, inPlace, 3, 2 * s.length - 4, buffer⟩ := by
  apply Provided.of_place
  case hroot => exact Nat.le_add_left 1 2
  case hsize => exact hsize
  case heven =>
    change (2 * s.length - 4) % 2 = 0
    omega
  case hsource => exact Nat.zero_le _
  case hin => exact fun h => ⟨rfl, hin h⟩
  case hroom =>
    dsimp only
    omega
  case hplace =>
    intro o ho
    rcases hpre with ⟨hthree, hlast⟩ | ⟨hpos, hflat⟩
    · left
      exact ho.anchored rfl (fun h => ⟨rfl, hin h⟩) hthree (Nat.lt_of_lt_of_le (by decide) hthree)
        hlast
    · right; left
      refine ⟨?_, hflat⟩
      rw [ho.dest]
      exact Nat.lt_of_lt_of_le hpos (Nat.le_add_left _ _)
  case hdot => exact fun h => absurd h (ne_dot_of_two_le hlen)

/-- A path relative to the root of the current directory. -/
theorem provided_rooted (hdir : IsDirectory dosPath) (hch : isPathSeparator (charAt s 0) = true)
    (hsize : n ≤ 2 * buffer.length) :
    Provided s n ⟨0, 0, dosPath.take (if rtlpComputeBackupIndex dosPath = 3 then 2
      else rtlpComputeBackupIndex dosPath), false, rtlpComputeBackupIndex dosPath, 2 * s.length,
        buffer⟩ := by
  have hroot := hdir.backupIndex_le
  have hthree := hdir.three_le
  apply Provided.of_place
  case hroot => exact Nat.le_trans (by decide) hroot.1
  case hsize => exact hsize
  case heven => exact Nat.mul_mod_right 2 _
  case hsource => exact Nat.zero_le _
  case hin => exact nofun
  case hroom =>
    dsimp only
    omega
  case hplace =>
    intro o ho
    right; right
    refine ⟨.inr hch, ?_⟩
    have hdest := ho.dest
    rcases hdir.backupIndex with ⟨hdrive, hcolon⟩ | ⟨hge, hle⟩
    · -- the separator comes behind the colon of the drive
      right
      dsimp only at hdest ⊢
      rw [hdrive, if_pos rfl, List.length_take_of_le (by omega)] at hdest
      refine ⟨by omega, by omega, ?_⟩
      have hone := ho.pathPrefix rfl 1
      dsimp only at hone
      rw [hdrive, if_pos rfl, List.length_take_of_le (by omega)] at hone
      rw [hdest]
      have hcolon' : charAt (dosPath.take 2) 1 = colon := by
        unfold charAt at hcolon ⊢
        rw [List.getElem?_take_of_lt (by decide)]
        exact hcolon
      rw [hone (by decide), hcolon']
      decide
    · left
      dsimp only at hdest ⊢
      rw [if_neg (by omega), List.length_take_of_le hle] at hdest
      omega
  case hdot =>
    rintro rfl
    exact absurd hch (by decide)

/-- A path relative to the current directory. -/
theorem provided_relative (hdir : IsDirectory dosPath) (hsize : n ≤ 2 * buffer.length) :
    Provided s n ⟨0, 0, dosPath, false, rtlpComputeBackupIndex dosPath, 2 * s.length, buffer⟩ := by
  have hroot := hdir.backupIndex_le
  have hthree := hdir.three_le
  apply Provided.of_place
  case hroot => exact Nat.le_trans (by decide) hroot.1
  case hsize => exact hsize
  case heven => exact Nat.mul_mod_right 2 _
  case hsource => exact Nat.zero_le _
  case hin => exact nofun
  case hroom =>
    dsimp only
    omega
  case hplace =>
    intro o ho
    left
    exact ho.anchored rfl nofun hroot.2 (Nat.lt_of_lt_of_le (by decide) hthree) hdir.charAt_last
  case hdot =>
    rintro rfl
    exact ⟨rfl, rfl, rfl, rfl, Nat.lt_of_lt_of_le (by decide) hthree, hdir.length_lt⟩

/-- The drive and its colon are the first component. -/
theorem copyComponent_drive {j : Nat} (hfirst : isPathSeparator (charAt s 0) = false)
    (hcolon : charAt s 1 = colon) (hthird : isPathSeparator (charAt s 2) = true)
    (hlt : o.dest + 1 < o.buffer.length) :
    copyComponent s (j + 3) 0 o =
      .ok (2, ⟨(o.buffer.set o.dest (charAt s 0)).set (o.dest + 1) colon, o.dest + 2⟩) := by
  have hsecond : isPathSeparator (charAt s 1) = false := by
    rw [hcolon]
    decide
  have hset : o.dest + 1 < (o.buffer.set o.dest (charAt s 0)).length := by
    rw [List.length_set]
    exact hlt
  unfold copyComponent
  rw [hfirst, if_neg Bool.false_ne_true, Output.push_eq (Nat.lt_of_succ_lt hlt), Yields.ok_bind]
  unfold copyComponent
  rw [hsecond, if_neg Bool.false_ne_true, Output.push_eq hset, Yields.ok_bind, hcolon]
  unfold copyComponent
  rw [hthird, if_pos rfl]

theorem walk_driveAbsolute (f : Frame) (hname : f.name = s) (hroot : f.backupIndex = 3)
    (hfacts : TypeFacts s .driveAbsolute) (hroom : s.length < f.limit) (htext : Text f o)
    (hdest : o.dest = 0) :
    Yields (walk s 3 s.length 0 0 o) fun o' => Text f o' ∧ o'.dest < f.limit := by
  obtain ⟨hlen, hfirst, hcolon, hthird⟩ := hfacts
  have hzero : o.dest < f.limit := by omega
  by_cases hdot : charAt s 0 = dot
  · have hnext : isPathSeparator (charAt s (0 + 1)) = false := by
      rw [hcolon]
      decide
    have hone : charAt s (0 + 1) ≠ dot := by
      rw [hcolon]
      decide
    rw [walk_stay hdot hnext hone]
    exact .ok ⟨htext, hzero⟩
  obtain ⟨rounds, hrounds⟩ := Nat.exists_eq_succ_of_ne_zero (by omega : s.length ≠ 0)
  obtain ⟨j, hj⟩ := Nat.exists_eq_add_of_le' hlen
  have hlt : o.dest + 1 < o.buffer.length := by
    have := htext.size
    have := f.limit_le
    omega
  have hlt' : o.dest + 1 < (o.buffer.set o.dest (charAt s 0)).length := by
    rw [List.length_set]
    exact hlt
  rw [hrounds]
  unfold walk
  rw [if_neg (by omega), hfirst, if_neg Bool.false_ne_true, if_neg hdot, Nat.sub_zero, hj,
    copyComponent_drive hfirst hcolon hthird hlt, Yields.ok_bind]
  -- nothing is dropped behind the colon
  obtain ⟨o₁, ho₁⟩ : ∃ o₁ : Output,
      o₁ = ⟨(o.buffer.set o.dest (charAt s 0)).set (o.dest + 1) colon, o.dest + 2⟩ := ⟨_, rfl⟩
  have hlast : charAt o₁.buffer 1 = colon := by
    rw [ho₁, hdest]
    apply charAt_set_self
    rw [List.length_set]
    omega
  have hmem : ∀ k < s.length, charAt s k ∈ f.allowed := by
    intro k hk
    apply f.name_subset
    rw [hname]
    exact charAt_mem hk
  have hcolonMem : colon ∈ f.allowed := by
    rw [← hcolon]
    exact hmem 1 (by omega)
  have hletter : charAt s 0 ≠ backslash := by
    intro h
    rw [h] at hfirst
    exact absurd hfirst (by decide)
  have htext₁ : Text f o₁ := by
    rw [ho₁]
    have hpush := htext.push (hmem 0 (by omega)) (Nat.lt_of_succ_lt hlt)
      fun h => absurd h hletter
    exact hpush.push hcolonMem hlt' fun h => absurd h (by decide)
  have hdest₁ : o₁.dest = 2 := by
    rw [ho₁, hdest]
  have hdrop : dropDot s 2 o₁ = .ok o₁ := by
    have hsize : o₁.dest ≤ o₁.buffer.length := by
      have := htext₁.size
      have := f.limit_le
      omega
    have hprevious := Output.previous_eq (by omega) hsize
    unfold dropDot
    rw [hthird, if_pos rfl, hprevious, Yields.ok_bind, hdest₁, hlast, if_neg (by decide)]
    rfl
  rw [← ho₁]
  dsimp only
  rw [hdrop, Yields.ok_bind, ← hname, ← hroot]
  apply walk_spec
  constructor
  case text => exact htext₁
  case room =>
    rw [hname, hdest₁]
    omega
  case source_le => exact Nat.le_refl 2
  case place =>
    right
    refine ⟨.inr (hname ▸ hthird), .inr ⟨?_, ?_, ?_⟩⟩
    · rw [hdest₁, hroot]
    · rw [hdest₁]
      exact Nat.zero_lt_two
    · rw [hdest₁, hlast]
      decide

theorem provided_driveAbsolute (hfacts : TypeFacts s .driveAbsolute)
    (hsize : n ≤ 2 * buffer.length) :
    Provided s n ⟨0, 0, [], false, 3, 2 * s.length, buffer⟩ where
  root_pos := Nat.le_add_left 1 2
  size := hsize
  even := Nat.mul_mod_right 2 _
  prefixSource_le := Nat.zero_le _
  inPlace := nofun
  room h := by
    dsimp only [List.length_nil] at h ⊢
    omega
  walks h o ho o₁ hshort hdest := by
    have htext := (ho.text (Nat.le_add_left 1 2) hsize (Nat.zero_le _) nofun).shorten hshort
    apply walk_driveAbsolute _ rfl rfl hfacts _ htext (hdest.trans ho.dest)
    change s.length < n / 2
    dsimp only [List.length_nil] at h
    omega
  single h := absurd h (ne_dot_of_two_le (Nat.le_of_succ_le hfacts.1))

/-! ## Containment and its condition -/

/-- A value of `=X:` that may be used as a prefix, in a buffer of `size` characters: there is room
for a backslash behind it; or it is a root with one already, or not empty with no `..` behind it. -/
def FitsPrefix (s : List WCHAR) (size : Nat) (value : List WCHAR) : Prop :=
  (3 < value.length ∧ value.length < size ∧ 2 * value.length + 2 < 2 ^ 16) ∨
    (value.length ≤ 3 ∧ (charAt value 2 = backslash ∨ (value ≠ [] ∧ Flat s)))

/-- The condition: a root local device does not meet a buffer that is just too small for it, and
the value of `=X:` of another drive than the current one is one that may be used. -/
structure Contained (c : Context) (s : List WCHAR) (n size : Nat) : Prop where
  rootLocal : rtlDetermineDosPathNameTypeUstr s = .rootLocalDevice → n < 6 ∨ 12 ≤ n
  driveValue : rtlDetermineDosPathNameTypeUstr s = .driveRelative →
    driveOf c.upcase (charAt c.dosPath 0) ≠ driveOf c.upcase (charAt s 0) →
      ∀ value ∈ c.driveValue (driveOf c.upcase (charAt s 0)), 2 * value.length ≤ n →
        FitsPrefix s size value

/-- What a prefix can be, in characters. -/
def longestPrefix (c : Context) (s : List WCHAR) : Nat :=
  c.dosPath.length + c.validDosPath.length +
    ((c.driveValue (driveOf c.upcase (charAt s 0))).getD []).length + 3

/-- What the switch comes to, with prefixes of `longest` characters at most. -/
def SwitchSpec (s buffer : List WCHAR) (m n longest : Nat) (r : Switched) : Prop :=
  (∃ k, r = .leave k ∧ ((k = 0 ∧ 2 ^ 16 ≤ 2 * (s.length + longest) + 2) ∨ (m ≤ k ∧ n < k))) ∨
    ∃ x, r = .go x ∧ Provided s n x ∧ x.buffer.length = buffer.length ∧
      x.pathNameLength + 2 * x.pathPrefix.length ≤ 2 * (s.length + longest)

theorem charAt_take {l : List WCHAR} {k m : Nat} (hk : k < m) :
    charAt (l.take m) k = charAt l k := by
  unfold charAt
  rw [List.getElem?_take_of_lt hk]

theorem otherDrive_spec {m : Nat} (hsizes : Sizes m n) (hlen : 2 ≤ s.length)
    (hsize : n ≤ 2 * buffer.length)
    (hvalue : ∀ value ∈ c.driveValue (driveOf c.upcase (charAt s 0)), 2 * value.length ≤ n →
      FitsPrefix s buffer.length value) :
    Yields (otherDrive c s n buffer) (SwitchSpec s buffer m n (longestPrefix c s)) := by
  have heven := hsizes.even
  unfold otherDrive longestPrefix
  dsimp only
  cases hfind : c.driveValue (driveOf c.upcase (charAt s 0)) with
  | none =>
    dsimp only
    refine .ok (.inr ⟨_, rfl, provided_driveRelative hlen hsize (.inl ⟨Nat.le_refl 3, rfl⟩) nofun,
      rfl, ?_⟩)
    change 2 * s.length - 4 + 2 * 3 ≤ _
    omega
  | some value =>
    dsimp only
    apply Yields.ite
    · intro hlong
      refine .ok (.inl ⟨_, rfl, ?_⟩)
      rw [Option.getD_some]
      rcases hsizes.needed (k := 2 * value.length + 2 * s.length + 2) (by omega) (by omega)
        with ⟨hzero, hlarge⟩ | hge
      · exact .inl ⟨hzero, by omega⟩
      · exact .inr hge
    intro hshort
    have hle := Nat.le_of_not_lt hshort
    have hfits := hvalue value hfind hle
    -- what `RtlQueryEnvironmentVariable_U` writes
    obtain ⟨written, hwrites⟩ : ∃ written,
        written = if 2 * value.length < n then value ++ [0] else value := ⟨_, rfl⟩
    have hvalue : value.length ≤ written.length ∧ 0 + written.length ≤ buffer.length ∧
        ∀ k < value.length, charAt written k = charAt value k := by
      rw [hwrites]
      split
      · rw [List.length_append, List.length_singleton]
        exact ⟨by omega, by omega, fun k hk => charAt_append_left hk _⟩
      · exact ⟨Nat.le_refl _, by omega, fun _ _ => rfl⟩
    obtain ⟨hlonger, hwritten, hsame⟩ := hvalue
    rw [← hwrites, rtlCopyMemory_eq hwritten, Yields.ok_bind]
    obtain ⟨copied, hcopied⟩ : ∃ copied, copied = buffer.take 0 ++ written ++
        buffer.drop (0 + written.length) := ⟨_, rfl⟩
    have hlength := length_copied hwritten
    have hchars : ∀ k < value.length, charAt copied k = charAt value k := by
      intro k hk
      rw [hcopied, charAt_copied hwritten, if_neg (Nat.not_lt_zero k), if_pos (by omega),
        Nat.sub_zero, hsame k hk]
    rw [← hcopied] at hlength ⊢
    apply Yields.ite
    · intro hfour
      have hnext : value.length < buffer.length ∧ 2 * value.length + 2 < 2 ^ 16 := by
        rcases hfits with ⟨-, hnext⟩ | ⟨hthree, -⟩
        · exact hnext
        · exact absurd hthree (Nat.not_le_of_lt hfour)
      have hroom : value.length + [backslash].length ≤ copied.length := by
        rw [List.length_singleton, hlength]
        omega
      have htwo : toUShort (2 * value.length + 2) / 2 = value.length + 1 := by
        unfold toUShort
        omega
      have hpre : (value ++ [backslash]).take (value.length + 1) = value ++ [backslash] :=
        List.take_of_length_le (by simp)
      have hsum : (value ++ [backslash]).length = value.length + 1 := by simp
      rw [rtlCopyMemory_eq hroom, Yields.ok_bind, htwo, hpre]
      refine .ok (.inr ⟨_, rfl, provided_driveRelative hlen ?_ (.inl ⟨?_, ?_⟩) ?_,
        (length_copied hroom).trans hlength, ?_⟩)
      · rw [length_copied hroom, hlength]
        exact hsize
      · rw [hsum]
        omega
      · rw [hsum, Nat.add_sub_cancel]
        exact charAt_append_right value [backslash] 0
      · intro _ k hk
        rw [hsum] at hk
        rw [charAt_copied hroom]
        split
        · rename_i hlt
          rw [hchars k hlt, charAt_append_left hlt]
        · rename_i hge
          obtain rfl : k = value.length := by omega
          rw [if_pos (by rw [List.length_singleton]; omega), Nat.sub_self]
          exact (charAt_append_right value [backslash] 0).symm
      · dsimp only
        rw [hsum, Option.getD_some]
        omega
    · intro hthree
      have hsize' : n ≤ 2 * copied.length := by
        rw [hlength]
        exact hsize
      refine .ok (.inr ⟨_, rfl, provided_driveRelative hlen hsize' ?_ (fun _ => hchars), hlength,
        ?_⟩)
      swap
      · dsimp only
        rw [Option.getD_some]
        omega
      rcases hfits with ⟨hfour, -⟩ | ⟨-, hroot | ⟨hne, hflat⟩⟩
      · exact absurd hfour hthree
      · left
        have hlong : 3 ≤ value.length := by
          by_contra hlt
          unfold charAt at hroot
          rw [List.getElem?_eq_none (by omega)] at hroot
          exact absurd hroot (by decide)
        have heq : value.length = 3 := by omega
        refine ⟨hlong, ?_⟩
        rw [heq]
        exact hroot
      · exact .inr ⟨List.length_pos_of_ne_nil hne, hflat⟩

theorem switch_spec {m : Nat} (hsizes : Sizes m n) (hdir : IsDirectory c.dosPath) (hvalid : IsDirectory c.validDosPath)
    (hcontained : Contained c s n buffer.length) (hsize : n ≤ 2 * buffer.length) :
    Yields (switchPathType c s n buffer (rtlDetermineDosPathNameTypeUstr s))
      (SwitchSpec s buffer m n (longestPrefix c s)) := by
  have hfacts := typeFacts s
  have hlongest : c.dosPath.length + c.validDosPath.length + 3 ≤ longestPrefix c s := by
    unfold longestPrefix
    omega
  unfold switchPathType
  dsimp only
  -- each type of path has a prefix of its own, which the buffer has room for
  cases htype : rtlDetermineDosPathNameTypeUstr s with
  | unknown =>
    rw [htype] at hfacts
    exact hfacts.elim
  | uncAbsolute =>
    rw [htype] at hfacts
    refine .ok (.inr ⟨_, rfl, provided_unc hfacts hsize, rfl, ?_⟩)
    change 2 * s.length + 2 * 0 ≤ _
    omega
  | driveAbsolute =>
    rw [htype] at hfacts
    refine .ok (.inr ⟨_, rfl, provided_driveAbsolute hfacts hsize, rfl, ?_⟩)
    change 2 * s.length + 2 * 0 ≤ _
    omega
  | driveRelative =>
    rw [htype] at hfacts
    apply Yields.ite
    · intro _
      refine .ok (.inr ⟨_, rfl, provided_driveRelative hfacts hsize
        (.inl ⟨hvalid.three_le, hvalid.charAt_last⟩) nofun, rfl, ?_⟩)
      dsimp only
      omega
    · intro hother
      exact otherDrive_spec hsizes hfacts hsize (hcontained.driveValue htype hother)
  | rooted =>
    rw [htype] at hfacts
    refine .ok (.inr ⟨_, rfl, provided_rooted hdir hfacts.2 hsize, rfl, ?_⟩)
    have hle := List.length_take_le (if rtlpComputeBackupIndex c.dosPath = 3 then 2
      else rtlpComputeBackupIndex c.dosPath) c.dosPath
    have hle' := List.length_take_le' (if rtlpComputeBackupIndex c.dosPath = 3 then 2
      else rtlpComputeBackupIndex c.dosPath) c.dosPath
    dsimp only
    omega
  | relative =>
    refine .ok (.inr ⟨_, rfl, provided_relative hvalid hsize, rfl, ?_⟩)
    dsimp only
    omega
  | localDevice =>
    rw [htype] at hfacts
    refine .ok (.inr ⟨_, rfl, provided_localDevice hfacts.1 hfacts.2 hsize, rfl, ?_⟩)
    change 2 * s.length + 2 * 0 ≤ _
    omega
  | rootLocalDevice =>
    rw [htype] at hfacts
    refine .ok (.inr ⟨_, rfl, provided_rootLocalDevice hfacts.1 hsize (hcontained.rootLocal htype),
      rfl, ?_⟩)
    change 2 * s.length - 6 + 2 * 2 ≤ _
    omega

/-! ## The path of a device -/

theorem deviceLength_small (upcase : WCHAR → WCHAR) (name : List WCHAR) :
    deviceLength upcase name % 2 = 0 ∧ deviceLength upcase name ≤ 8 := by
  unfold deviceLength
  split_ifs <;> decide

/-- The length of a device name is a small number of characters. -/
theorem rtlIsDosDeviceNameUstr_small (upcase : WCHAR → WCHAR) (s : List WCHAR) :
    rtlIsDosDeviceNameUstr upcase s % 2 ^ 16 % 2 = 0 ∧
      rtlIsDosDeviceNameUstr upcase s % 2 ^ 16 ≤ 8 := by
  unfold rtlIsDosDeviceNameUstr
  split
  · split <;> decide
  · decide
  · decide
  · unfold deviceOfComponent
    dsimp only
    split
    · decide
    · split
      · decide
      · rename_i p n _
        obtain ⟨heven, hle⟩ := deviceLength_small upcase (stemOf ((s.drop p).take n))
        split
        · decide
        · rw [packed_eq (by omega)]
          omega

theorem devicePath_spec {m offset length : Nat} (hsizes : Sizes m n) (hn : n < 2 ^ 16)
    (hsize : n ≤ 2 * buffer.length) (heven : length % 2 = 0) (hle : length ≤ 8) :
    Yields (devicePath s n buffer offset length) fun out =>
      (∃ k, out = .returned k ∧ m ≤ k ∧ n < k) ∨
        ∃ o, out = .stored o none ∧ o.buffer.length = buffer.length ∧ 2 * o.dest < n ∧
          charAt o.buffer o.dest = 0 := by
  have hneven := hsizes.even
  have hfour : slashSlashDot.length = 4 := rfl
  unfold devicePath
  rw [hfour]
  dsimp only
  apply Yields.ite
  · intro hlt
    obtain ⟨name, hname⟩ : ∃ name, name = (s.drop (offset / 2)).take (length / 2) := ⟨_, rfl⟩
    have hshort : name.length ≤ length / 2 := by
      rw [hname]
      exact List.length_take_le _ _
    rw [← hname]
    have hone : 0 + slashSlashDot.length ≤ buffer.length := by
      rw [hfour]
      omega
    rw [rtlCopyMemory_eq hone, Yields.ok_bind]
    obtain ⟨first, hfirst⟩ : ∃ first, first = buffer.take 0 ++ slashSlashDot ++
        buffer.drop (0 + slashSlashDot.length) := ⟨_, rfl⟩
    have hlen₁ := length_copied hone
    rw [← hfirst] at hlen₁ ⊢
    have htwo : 4 + name.length ≤ first.length := by omega
    rw [rtlCopyMemory_eq htwo, Yields.ok_bind]
    obtain ⟨second, hsecond⟩ : ∃ second, second = first.take 4 ++ name ++
        first.drop (4 + name.length) := ⟨_, rfl⟩
    have hlen₂ := length_copied htwo
    rw [← hsecond] at hlen₂ ⊢
    have hthree : 4 + length / 2 + [(0 : WCHAR)].length ≤ second.length := by
      rw [List.length_singleton]
      omega
    rw [rtlCopyMemory_eq hthree, Yields.ok_bind]
    refine .ok (.inr ⟨_, rfl, ?_, ?_, ?_⟩)
    · rw [length_copied hthree, hlen₂, hlen₁]
    · dsimp only
      omega
    · have hdest : (length + 2 * 4) / 2 = 4 + length / 2 := by omega
      dsimp only
      rw [hdest, charAt_copied hthree, if_neg (Nat.lt_irrefl _), Nat.sub_self,
        if_pos (by rw [List.length_singleton]; omega)]
      rfl
  · intro hge
    rcases hsizes.needed (k := length + 2 * 4 + 2) (by omega) (by omega) with ⟨-, hlarge⟩ | hge
    · omega
    · exact .ok (.inl ⟨_, rfl, hge⟩)

/-! ## The function -/

/-- The function fails: there is no name, the device may not be used, or the path is too long for
a string. -/
def Fails (c : Context) (s : List WCHAR) : Prop :=
  charAt s 0 = 0 ∨ s.rdropWhile (· == space) = [] ∨
    (rtlIsDosDeviceNameUstr c.upcase s / 2 ^ 16 ≠ 0 ∧ c.deviceRejected = true) ∨
      2 ^ 16 ≤ 2 * (s.length + longestPrefix c s) + 2

/-- The value tells whether the path has been stored, with a null behind it; `m` is
`nBufferLength`. A failure is 0. -/
def Reports (m : Nat) (lpBuffer : List WCHAR) (failed : Prop) : Outcome → Prop
  | .returned k => (m ≤ k ∧ usedLength m < k) ∨ (k = 0 ∧ failed)
  | .stored o part => (Outcome.stored o part).pathLength = 2 * o.dest ∧ 2 * o.dest < m ∧
      o.buffer.length = lpBuffer.length ∧ charAt o.buffer o.dest = 0

/-- A name that is not a device. -/
structure Ordinary (c : Context) (s : List WCHAR) : Prop where
  first : charAt s 0 ≠ 0
  notBlank : s.rdropWhile (· == space) ≠ []
  device : rtlIsDosDeviceNameUstr c.upcase s = 0

/-- The buffer after `RtlZeroMemory`. -/
def zeroed (m : Nat) (lpBuffer : List WCHAR) : List WCHAR :=
  List.replicate (usedLength m / 2) 0 ++ lpBuffer.drop (usedLength m / 2)

variable {m : Nat} {lpBuffer : List WCHAR}

theorem usedLength_le (m : Nat) : usedLength m ≤ m ∧ usedLength m < 2 ^ 16 := by
  unfold usedLength
  split
  · omega
  · omega

theorem length_zeroed (hm : m ≤ 2 * lpBuffer.length) :
    (zeroed m lpBuffer).length = lpBuffer.length := by
  have := usedLength_le m
  unfold zeroed
  rw [List.length_append, List.length_replicate, List.length_drop]
  omega

/-- How the function goes on behind its switch. -/
def behindSwitch (s : List WCHAR) (n : Nat) (pathType : RtlPathType) :
    Switched → Except Fault FullPath
  | .leave pathLength => return ⟨pathType, .returned pathLength⟩
  | .go start => return ⟨pathType, ← build s n pathType start⟩

/-- The function, for a name that is not a device. -/
theorem Ordinary.fullPath_eq (h : Ordinary c s) (hm : m ≤ 2 * lpBuffer.length) :
    rtlGetFullPathNameUstr c s m lpBuffer =
      switchPathType c s (usedLength m) (zeroed m lpBuffer)
          (rtlDetermineDosPathNameTypeUstr s) >>=
        behindSwitch s (usedLength m) (rtlDetermineDosPathNameTypeUstr s) := by
  have hname : ¬ (s = [] ∨ charAt s 0 = 0) := by
    rintro (rfl | hnull)
    · exact h.first rfl
    · exact h.first hnull
  have hused := usedLength_le m
  have hzero : rtlCopyMemory lpBuffer 0 (List.replicate (usedLength m / 2) 0) =
      .ok (zeroed m lpBuffer) := by
    rw [rtlCopyMemory_eq (by rw [List.length_replicate]; omega), List.length_replicate,
      Nat.zero_add]
    rfl
  unfold rtlGetFullPathNameUstr
  dsimp only
  rw [if_neg hname, if_neg h.notBlank, h.device, if_neg (by simp), hzero, Yields.ok_bind]
  apply bind_congr
  rintro (k | x)
  · rfl
  · rfl

theorem Ordinary.fullPath_spec (h : Ordinary c s) (hdir : IsDirectory c.dosPath)
    (hvalid : IsDirectory c.validDosPath) (heven : m % 2 = 0) (hm : m ≤ 2 * lpBuffer.length)
    (hcontained : Contained c s (usedLength m) lpBuffer.length) :
    Yields (rtlGetFullPathNameUstr c s m lpBuffer) fun p =>
      Reports m lpBuffer (Fails c s) p.outcome := by
  have hsizes := sizes_usedLength heven
  have hsize := length_zeroed hm
  obtain ⟨hle, hn⟩ := usedLength_le m
  rw [← hsize] at hcontained
  rw [h.fullPath_eq hm]
  apply (switch_spec hsizes hdir hvalid hcontained (by omega)).bind
  rintro r (⟨k, rfl, hk⟩ | ⟨x, rfl, hx, hsame, hlength⟩)
  · apply Yields.ok
    rcases hk with ⟨hzero, hlarge⟩ | hge
    · exact .inr ⟨hzero, .inr (.inr (.inr hlarge))⟩
    · exact .inl hge
  · apply (build_spec hsizes hx).bind
    rintro out (⟨k, rfl, hk⟩ | ⟨o, part, rfl, hfinished⟩)
    · apply Yields.ok
      rcases hk with ⟨hzero, hlarge⟩ | hge
      · exact .inr ⟨hzero, .inr (.inr (.inr (by omega)))⟩
      · exact .inl hge
    · have hdest : o.dest < usedLength m / 2 := hfinished.dest_lt
      have hlen : o.buffer.length = x.buffer.length := hfinished.text.size
      apply Yields.ok
      refine ⟨Nat.mod_eq_of_lt (by omega), by omega, ?_, hfinished.null⟩
      rw [hlen, hsame, hsize]

theorem fullPath_spec (hdir : IsDirectory c.dosPath) (hvalid : IsDirectory c.validDosPath)
    (heven : m % 2 = 0) (hm : m ≤ 2 * lpBuffer.length)
    (hcontained : Contained c s (usedLength m) lpBuffer.length) :
    Yields (rtlGetFullPathNameUstr c s m lpBuffer) fun p =>
      Reports m lpBuffer (Fails c s) p.outcome := by
  by_cases hordinary : Ordinary c s
  · exact hordinary.fullPath_spec hdir hvalid heven hm hcontained
  unfold rtlGetFullPathNameUstr
  dsimp only
  apply Yields.ite
  · intro hname
    have hnull : charAt s 0 = 0 := by
      rcases hname with rfl | hnull
      · rfl
      · exact hnull
    exact .ok (.inr ⟨rfl, .inl hnull⟩)
  intro hname
  apply Yields.ite
  · intro hblank
    exact .ok (.inr ⟨rfl, .inr (.inl hblank)⟩)
  intro hblank
  apply Yields.ite
  · intro hdevice
    apply Yields.ite
    · intro hrejected
      exact .ok (.inr ⟨rfl, .inr (.inr (.inl hrejected))⟩)
    · intro _
      obtain ⟨hle, hn⟩ := usedLength_le m
      obtain ⟨hname', hsmall⟩ := rtlIsDosDeviceNameUstr_small c.upcase s
      have hbuffer : usedLength m ≤ 2 * lpBuffer.length := by omega
      apply (devicePath_spec (sizes_usedLength heven) hn hbuffer hname' hsmall).bind
      rintro out (⟨k, rfl, hge⟩ | ⟨o, rfl, hlen, hdest, hnull⟩)
      · exact .ok (.inl hge)
      · exact .ok ⟨Nat.mod_eq_of_lt (by omega), by omega, hlen, hnull⟩
  · intro hdevice
    exact absurd ⟨fun h => hname (.inr h), hblank, not_not.mp hdevice⟩ hordinary

/-! ## The overruns -/

/-- The value of `=X:`, for a name that is relative to another drive than the current one. -/
structure OtherDrive (c : Context) (s value : List WCHAR) : Prop where
  type : rtlDetermineDosPathNameTypeUstr s = .driveRelative
  other : driveOf c.upcase (charAt c.dosPath 0) ≠ driveOf c.upcase (charAt s 0)
  value : c.driveValue (driveOf c.upcase (charAt s 0)) = some value

/-- What the condition leaves out. -/
inductive Overruns (c : Context) (s lpBuffer : List WCHAR) : Prop where
  /-- The name and the prefix of a root local device take five characters, the test asks for two. -/
  | rootLocal (htype : rtlDetermineDosPathNameTypeUstr s = .rootLocalDevice)
    (hlength : lpBuffer.length = 3 ∨ lpBuffer.length = 4 ∨ lpBuffer.length = 5)
  /-- The value fills the buffer, and a backslash is stored behind it. -/
  | full (hname : Ordinary c s) (value : List WCHAR) (hvalue : OtherDrive c s value)
    (hlong : 3 < value.length) (hlength : value.length = lpBuffer.length)
    (hstring : 2 * value.length < 2 ^ 16)
  /-- There is no backslash for `..` to stop at. -/
  | climbs (hname : Ordinary c s) (value : List WCHAR) (hvalue : OtherDrive c s value)
    (hshort : value.length ≤ 3) (hroot : backslash ∉ value) (ch : WCHAR) (rest : List WCHAR)
    (hdots : s = [ch, colon, dot, dot] ++ rest)
    (hrest : rest = [] ∨ isPathSeparator (charAt rest 0) = true)
    (hlength : 2 * (s.length + value.length) ≤ usedLength (2 * lpBuffer.length) + 2)

theorem rtlCopyMemory_faults {start : Nat} {source' : List WCHAR}
    (h : buffer.length < start + source'.length) : Faults (rtlCopyMemory buffer start source') :=
  ⟨.outside, if_neg (Nat.not_le_of_lt h)⟩

/-- A prefix that does not leave room for a null. -/
theorem build_faults {pathType : RtlPathType} (hsource : x.prefixSource ≤ s.length)
    (hin : x.inPlace = false) (hroom : x.pathNameLength + 2 * x.pathPrefix.length + 2 ≤ n)
    (hlength : x.buffer.length ≤ x.prefixSource + x.pathPrefix.length) :
    Faults (build s n pathType x) := by
  unfold build
  dsimp only
  rw [if_neg (Nat.not_lt_of_le hroom)]
  by_cases hfits : x.prefixSource + x.pathPrefix.length ≤ x.buffer.length
  · apply Faults.of_yields (putPrefix_spec hsource hfits)
    intro o ho
    have hstore : Faults (o.store 0) := by
      refine ⟨.outside, if_neg ?_⟩
      rw [ho.dest, ho.size]
      exact Nat.not_lt_of_le hlength
    unfold skipit
    exact hstore.bind _
  · apply Faults.bind
    have htake : ((s.take x.prefixSource).map
        fun ch => if isPathSeparator ch then backslash else ch).length = x.prefixSource := by
      rw [List.length_map, List.length_take_of_le hsource]
    unfold putPrefix copyPrefix
    dsimp only
    rw [if_pos (.inr hin)]
    by_cases hone : 0 + ((s.take x.prefixSource).map
        fun ch => if isPathSeparator ch then backslash else ch).length ≤ x.buffer.length
    · rw [rtlCopyMemory_eq hone, Yields.ok_bind]
      apply Faults.bind
      apply rtlCopyMemory_faults
      rw [length_copied hone, List.length_map]
      exact Nat.lt_of_not_le hfits
    · exact (rtlCopyMemory_faults (Nat.lt_of_not_le hone)).bind _

/-- The last component of a root local device is a dot or a question mark. -/
theorem ordinary_of_rootLocal (c : Context)
    (htype : rtlDetermineDosPathNameTypeUstr s = .rootLocalDevice) : Ordinary c s := by
  have hfacts := typeFacts s
  rw [htype] at hfacts
  match s, hfacts with
  | [a, b, d], ⟨_, ha, hb, hd⟩ =>
    change isPathSeparator a = true at ha
    change isPathSeparator b = true at hb
    change d = dot ∨ d = questionMark at hd
    have ha' : a ≠ 0 ∧ a ≠ space := by
      constructor
      · rintro rfl
        exact absurd ha (by decide)
      · rintro rfl
        exact absurd ha (by decide)
    constructor
    case first => exact ha'.1
    case notBlank =>
      intro hblank
      have hall := List.rdropWhile_eq_nil_iff.mp hblank a List.mem_cons_self
      exact ha'.2 (beq_iff_eq.mp hall)
    case device =>
      have hother : rtlIsDosDeviceNameUstr c.upcase [a, b, d] =
          deviceOfComponent c.upcase [a, b, d] := by
        unfold rtlIsDosDeviceNameUstr
        rw [htype]
      rw [hother]
      have hlast : LastComponent [a, b, d] [a, b] [d] := by
        refine ⟨rfl, .inr (.inl ⟨[a], b, rfl, hb⟩), fun ch hch => ?_, fun _ => Nat.le_refl 2⟩
        rw [List.mem_singleton.mp hch]
        rcases hd with rfl | rfl <;> rfl
      have hthree (d : WCHAR) : [a, b, d].length = 3 := rfl
      rcases hd with rfl | rfl
      · exact hlast.no_device (by rw [hthree]; decide) (by decide)
      · have htrim : trimComponent [a, b, questionMark] = [a, b, questionMark] := by
          unfold trimComponent
          rw [if_neg (by simp; decide), List.rdropWhile_eq_self_iff]
          intro _
          change ¬ isDotOrSpace questionMark = true
          decide
        have hends : EndsScan [a, b, questionMark] 1 := endsScan_iff.mpr (.inl hb)
        have hfind := findComponent_of_ends (n := 3) (by decide) hends fun q hq hlt => by
          obtain rfl : q = 2 := by omega
          exact hlast.not_endsScan (Nat.le_refl 2) (Nat.lt_succ_self 2)
        have hselect := selectComponent_of_some (s := [a, b, questionMark]) (m := 3)
          (by rw [hthree]; decide) (Nat.le_refl 3) (by decide) hfind
        have hletter : isDeviceInitial (charAt [a, b, questionMark] (1 + 1)) = false := by
          change isDeviceInitial questionMark = false
          decide
        rw [hletter, if_neg Bool.false_ne_true, ite_self, hthree, Nat.sub_self] at hselect
        rw [deviceOfComponent_eq, htrim, hthree, Nat.sub_self, hselect]

theorem rootLocal_faults (htype : rtlDetermineDosPathNameTypeUstr s = .rootLocalDevice)
    (hlength : lpBuffer.length = 3 ∨ lpBuffer.length = 4 ∨ lpBuffer.length = 5) :
    Faults (rtlGetFullPathNameUstr c s (2 * lpBuffer.length) lpBuffer) := by
  have hlen : s.length = 3 := by
    have hfacts := typeFacts s
    rw [htype] at hfacts
    exact hfacts.1
  have hused : usedLength (2 * lpBuffer.length) = 2 * lpBuffer.length := if_neg (by omega)
  have hsize := length_zeroed (Nat.le_refl (2 * lpBuffer.length))
  have htwo : (slashSlashDot.take 2).length = 2 := rfl
  rw [(ordinary_of_rootLocal c htype).fullPath_eq (Nat.le_refl _), htype]
  unfold switchPathType
  dsimp only
  rw [Yields.ok_bind]
  unfold behindSwitch
  apply Faults.bind
  apply build_faults
  · exact Nat.le_of_eq hlen.symm
  · rfl
  · dsimp only
    omega
  · dsimp only
    omega

/-- The buffer is full before the backslash is stored. -/
theorem full_faults (hname : Ordinary c s) {value : List WCHAR} (hvalue : OtherDrive c s value)
    (hlong : 3 < value.length) (hlength : value.length = lpBuffer.length)
    (hstring : 2 * value.length < 2 ^ 16) : Faults (rtlGetFullPathNameUstr c s (2 * lpBuffer.length) lpBuffer) := by
  have hused : usedLength (2 * lpBuffer.length) = 2 * lpBuffer.length := if_neg (by omega)
  have hsize := length_zeroed (Nat.le_refl (2 * lpBuffer.length))
  have hwritten : 0 + value.length ≤ (zeroed (2 * lpBuffer.length) lpBuffer).length := by omega
  rw [hname.fullPath_eq (Nat.le_refl _), hvalue.type]
  apply Faults.bind
  unfold switchPathType
  dsimp only
  rw [if_neg hvalue.other]
  unfold otherDrive
  dsimp only
  rw [hvalue.value, hused]
  dsimp only
  rw [if_neg (by omega), if_neg (by omega), rtlCopyMemory_eq hwritten, Yields.ok_bind,
    if_pos hlong]
  apply Faults.bind
  apply rtlCopyMemory_faults
  rw [length_copied hwritten, List.length_singleton]
  omega

/-- Without a backslash the loop runs below the start of the buffer. -/
theorem eraseToSeparator_faults {dest : Nat} (h : ∀ k ≤ dest, charAt buffer k ≠ backslash) :
    Faults (eraseToSeparator buffer dest) := by
  induction dest generalizing buffer with
  | zero =>
    have hzero := h 0 (Nat.le_refl 0)
    unfold eraseToSeparator
    unfold charAt at hzero
    cases hch : buffer[0]? with
    | none => exact ⟨_, rfl⟩
    | some ch =>
      rw [hch] at hzero
      exact ⟨.below, if_neg hzero⟩
  | succ dest ih =>
    have hlast := h (dest + 1) (Nat.le_refl _)
    unfold eraseToSeparator
    unfold charAt at hlast
    cases hch : buffer[dest + 1]? with
    | none => exact ⟨_, rfl⟩
    | some ch =>
      rw [hch, Option.getD_some] at hlast
      dsimp only
      rw [if_neg hlast]
      apply ih
      intro k hk
      rw [charAt_set_ne (by omega)]
      exact h k (Nat.le_succ_of_le hk)

/-- The loop meets `..` before it has stored a backslash. -/
theorem climbs_faults (hname : Ordinary c s) {value : List WCHAR} (hvalue : OtherDrive c s value)
    (hshort : value.length ≤ 3) (hroot : backslash ∉ value) {rest : List WCHAR}
    (hdots : s = [ch, colon, dot, dot] ++ rest)
    (hrest : rest = [] ∨ isPathSeparator (charAt rest 0) = true)
    (hlength : 2 * (s.length + value.length) ≤ usedLength (2 * lpBuffer.length) + 2) :
    Faults (rtlGetFullPathNameUstr c s (2 * lpBuffer.length) lpBuffer) := by
  have hused := usedLength_le (2 * lpBuffer.length)
  have hsize := length_zeroed (Nat.le_refl (2 * lpBuffer.length))
  have hlen : s.length = rest.length + 4 := by
    rw [hdots, List.length_append]
    exact Nat.add_comm _ _
  have hwritten : 0 + (value ++ [(0 : WCHAR)]).length ≤ (zeroed (2 * lpBuffer.length) lpBuffer).length := by
    rw [List.length_append, List.length_singleton]
    omega
  rw [hname.fullPath_eq (Nat.le_refl _), hvalue.type]
  unfold switchPathType
  dsimp only
  rw [if_neg hvalue.other]
  unfold otherDrive
  dsimp only
  rw [hvalue.value]
  dsimp only
  rw [if_neg (by omega), if_pos (by omega), rtlCopyMemory_eq hwritten, Yields.ok_bind,
    if_neg (Nat.not_lt_of_le hshort)]
  obtain ⟨copied, hcopied⟩ : ∃ copied, copied = (zeroed (2 * lpBuffer.length) lpBuffer).take 0 ++ (value ++ [0]) ++
      (zeroed (2 * lpBuffer.length) lpBuffer).drop (0 + (value ++ [0]).length) := ⟨_, rfl⟩
  have hsame := length_copied hwritten
  have hchars : ∀ k ≤ value.length, charAt copied k ≠ backslash := by
    intro k hk
    rw [hcopied, charAt_copied hwritten, if_neg (Nat.not_lt_zero k), Nat.sub_zero, if_pos (by simp; omega)]
    rcases Nat.lt_or_eq_of_le hk with hlt | rfl
    · rw [charAt_append_left hlt]
      intro heq
      exact hroot (heq ▸ charAt_mem hlt)
    · rw [show charAt (value ++ [0]) value.length = 0 from charAt_append_right value [0] 0]
      decide
  rw [← hcopied] at hsame ⊢
  change Faults (Except.ok (Switched.go _) >>= behindSwitch s _ _)
  rw [Yields.ok_bind]
  unfold behindSwitch
  apply Faults.bind
  unfold build
  dsimp only
  rw [if_neg (by omega)]
  unfold putPrefix
  dsimp only
  rw [if_neg (by simp)]
  change Faults (skipit s .driveRelative _ ⟨copied, 0 + value.length⟩)
  unfold skipit
  rw [Output.store_eq (by dsimp only; omega), Yields.ok_bind]
  apply Faults.bind
  obtain ⟨rounds, hrounds⟩ := Nat.exists_eq_succ_of_ne_zero (by omega : s.length - 2 ≠ 0)
  have htwo : charAt s 2 = dot ∧ charAt s 3 = dot := by
    rw [hdots]
    exact ⟨rfl, rfl⟩
  have hfour : charAt s 4 = charAt rest 0 := by
    rw [hdots]
    exact charAt_append_right [ch, colon, dot, dot] rest 0
  have hseparator : isPathSeparator (charAt s 2) = false := by
    rw [htwo.1]
    decide
  have hone : isDotUstr s 2 (s.length - 2) = false := by
    apply not_isDotUstr (by omega)
    rw [htwo.2]
    decide
  have hup : isDotDotUstr s 2 (s.length - 2) = true := by
    unfold isDotDotUstr isDotUstr
    rw [htwo.1, htwo.2, hfour, decide_eq_true (by omega), decide_eq_true (by omega)]
    rcases hrest with rfl | hrest
    · rw [hlen]
      rfl
    · rw [hrest, Bool.or_true]
      rfl
  dsimp only
  rw [hrounds]
  unfold walk
  rw [if_neg (by omega), hseparator, if_neg Bool.false_ne_true, if_pos htwo.1, hone,
    if_neg Bool.false_ne_true, if_pos hup]
  apply Faults.bind
  unfold dotDot
  apply Faults.bind
  apply eraseToSeparator_faults
  intro k hk
  dsimp only at hk ⊢
  rw [Nat.zero_add] at hk ⊢
  rcases Nat.lt_or_eq_of_le hk with hlt | rfl
  · rw [charAt_set_ne (Nat.ne_of_gt hlt)]
    exact hchars k hk
  · rw [charAt_set_self (by omega)]
    decide

/-- `C:\` -/
def driveRoot : List WCHAR := [0x43, colon, backslash]

theorem isDirectory_driveRoot : IsDirectory driveRoot :=
  .drive 0x43 [] rfl (by decide) rfl (by decide)

/-- A process in `C:\`, without values for the drives. -/
def rootContext : Context where
  upcase := upcaseAscii
  dosPath := driveRoot
  validDosPath := driveRoot
  driveValue _ := none
  deviceRejected := false

end Ldk.DosPath
