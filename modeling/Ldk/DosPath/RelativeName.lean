import Ldk.DosPath.NtPath

/-!
# Relative names

What `RtlpDosPathNameToRelativeNtPathName_Ustr` gives for a path relative to the current directory:
a name to be opened in the directory, which is the end of the NT path. What comes before it is the
NT form of the directory, but for the case of its letters (`relative_name_continues_directory`).

The comparison without regard to case goes by `RtlUpcaseUnicodeChar`, a function of the kernel. The
characters that tell path types apart have no other case (`KeepsPunctuation`).
-/

namespace Ldk.DosPath

/-! ## The full path of a relative name -/

variable {c : Context} {s lpBuffer buffer : List WCHAR} {m : Nat} {full : Output}
  {part : Option Nat}

/-- The type that comes out is that of a name that is not a device. -/
theorem ordinary_of_relative {out : Outcome}
    (h : rtlGetFullPathNameUstr c s m lpBuffer = .ok ⟨.relative, out⟩) : Ordinary c s := by
  by_contra hnot
  unfold rtlGetFullPathNameUstr at h
  dsimp only at h
  by_cases hname : s = [] ∨ charAt s 0 = 0
  · rw [if_pos hname] at h
    cases h
  rw [if_neg hname] at h
  by_cases hblank : s.rdropWhile (· == space) = []
  · rw [if_pos hblank] at h
    cases h
  rw [if_neg hblank] at h
  by_cases hdevice : rtlIsDosDeviceNameUstr c.upcase s ≠ 0
  · rw [if_pos hdevice] at h
    split at h
    · cases h
    · cases hpath : devicePath s (usedLength m) lpBuffer (rtlIsDosDeviceNameUstr c.upcase s / 2 ^ 16)
          (rtlIsDosDeviceNameUstr c.upcase s % 2 ^ 16) with
      | error fault =>
        rw [hpath] at h
        cases h
      | ok out' =>
        rw [hpath] at h
        cases h
  · exact hnot ⟨fun hnull => hname (.inr hnull), hblank, not_not.mp hdevice⟩

theorem behindSwitch_type (n : Nat) (pathType : RtlPathType) (r : Switched) :
    Ensures (behindSwitch s n pathType r) fun p => p.inputPathType = pathType := by
  cases r with
  | leave pathLength => exact .ok rfl
  | go start =>
    have hbuild : Ensures (build s n pathType start) fun _ => True := ⟨fun _ _ => trivial⟩
    apply hbuild.bind
    exact fun _ _ => .ok rfl

/-- The loop has come to its end behind the current directory. -/
theorem relative_finished (hvalid : IsDirectory c.validDosPath) (heven : m % 2 = 0)
    (hm : m ≤ 2 * lpBuffer.length)
    (h : rtlGetFullPathNameUstr c s m lpBuffer = .ok ⟨.relative, .stored full part⟩) :
    ∃ f : Frame, f.allowed = backslash :: (s ++ c.validDosPath) ∧
      f.lo = c.validDosPath.length ∧ f.size = lpBuffer.length ∧
        Finished f .relative full part := by
  have hordinary := ordinary_of_relative h
  have hsize := length_zeroed hm
  have hused := usedLength_le m
  have hroom : usedLength m ≤ 2 * (zeroed m lpBuffer).length := by omega
  have hprovided := @provided_relative s (zeroed m lpBuffer) (usedLength m) _ hvalid hroom
  rw [hordinary.fullPath_eq hm] at h
  have htype : rtlDetermineDosPathNameTypeUstr s = .relative := by
    have hswitch : Ensures (switchPathType c s (usedLength m) (zeroed m lpBuffer)
        (rtlDetermineDosPathNameTypeUstr s)) fun _ => True := ⟨fun _ _ => trivial⟩
    exact ((hswitch.bind fun r _ => behindSwitch_type _ _ r).holds _ h).symm
  obtain ⟨out, hout, hfinishes⟩ :=
    @build_spec s _ _ m .relative (sizes_usedLength heven) hprovided
  rw [htype] at h
  unfold switchPathType at h
  dsimp only at h
  rw [Yields.ok_bind] at h
  unfold behindSwitch at h
  dsimp only at h
  rw [hout] at h
  cases h
  rcases hfinishes with ⟨k, hk, -⟩ | ⟨o, part', ho, hfinished⟩
  · cases hk
  · cases ho
    exact ⟨_, rfl, Nat.zero_add _, hsize, hfinished⟩

/-- It has no null in it, and no two backslashes behind the directory. -/
structure Path (c : Context) (full : Output) (part : Option Nat) : Prop where
  dest_lt : full.dest < full.buffer.length
  null : charAt full.buffer full.dest = 0
  chars : ∀ k < full.dest, charAt full.buffer k ≠ 0
  single : ∀ k, c.validDosPath.length = k + 1 → k + 1 < full.dest →
    charAt full.buffer (k + 1) = backslash → charAt full.buffer k ≠ backslash
  part : ∃ backupIndex, part = filePart .relative backupIndex full

theorem relative_path (hvalid : IsDirectory c.validDosPath) (heven : m % 2 = 0)
    (hm : m ≤ 2 * lpBuffer.length) (hname : 0 ∉ s) (hnull : 0 ∉ c.validDosPath)
    (h : rtlGetFullPathNameUstr c s m lpBuffer = .ok ⟨.relative, .stored full part⟩) :
    Path c full part := by
  obtain ⟨f, hallowed, hlo, hsize, hfinished⟩ := relative_finished hvalid heven hm h
  have htext := hfinished.text
  refine ⟨?_, hfinished.null, fun k hk hzero => ?_, fun k hD hk => ?_, ⟨_, hfinished.part⟩⟩
  · rw [htext.size]
    exact Nat.lt_of_lt_of_le hfinished.dest_lt f.limit_le
  · have hmem := htext.chars k hk
    rw [hzero, hallowed, List.mem_cons, List.mem_append] at hmem
    rcases hmem with hmem | hmem | hmem
    · exact absurd hmem (by decide)
    · exact hname hmem
    · exact hnull hmem
  · exact htext.single k (by rw [hlo, hD]) hk

/-! ## The NT path -/

theorem ensures_writeBlock {block : List WCHAR} {start : Nat} {source : List WCHAR} :
    Ensures (writeBlock block start source) fun block' =>
      start ≤ block.length ∧ block'.length = block.length ∧
        block'.take (start + source.length) = block.take start ++ source := by
  unfold writeBlock
  apply Ensures.ite
  · intro hroom
    apply Ensures.ok
    refine ⟨by omega, length_copied hroom, ?_⟩
    have hlength : (block.take start ++ source).length = start + source.length := by
      rw [List.length_append, List.length_take_of_le (by omega)]
    rw [← hlength]
    exact List.take_left
  · exact fun _ => .error _ _

/-- The path of a `UNICODE_STRING` -/
def NtPath.path (p : NtPath) : List WCHAR := p.buffer.take (p.length / 2)

/-- What the output parameters are for a full path. -/
structure Translated (c : NtContext) (captureRelativeName filePart : Bool) (inputPathType : RtlPathType)
    (full : Output) (part : Option Nat) (ntPrefix : List WCHAR) (offset : Nat) (p : NtPath) :
    Prop where
  path : p.path = ntPrefix ++ (full.buffer.take full.dest).drop offset
  length : p.length = 2 * (ntPrefix.length + (full.dest - offset))
  null : charAt p.buffer (p.length / 2) = 0
  filePart : p.filePart = if filePart then
    part.map fun q => ntPrefix.length + (full.dest - offset) - stringLength full.buffer q else none
  relativeName : p.relativeName =
    relativeNameOf c captureRelativeName inputPathType full (2 * full.dest)
      (ntPrefix.length - offset + c.validDosPath.length) p.buffer

/-- A list that begins with some characters and one more. -/
theorem take_concat {l block : List WCHAR} {ch : WCHAR} {n : Nat} (hlength : l.length = n)
    (h : block.take (n + 1) = l ++ [ch]) : block.take n = l ∧ charAt block n = ch := by
  subst hlength
  constructor
  · calc block.take l.length = (block.take (l.length + 1)).take l.length := by
          rw [List.take_take, Nat.min_eq_left (Nat.le_succ _)]
      _ = l := by rw [h, List.take_left]
  · calc charAt block l.length = charAt (block.take (l.length + 1)) (l.length + 0) :=
          (charAt_take (Nat.lt_succ_self _)).symm
      _ = ch := by
          rw [h, charAt_append_right]
          rfl

theorem fullNtPath_translated {c : NtContext} {captureRelativeName filePart : Bool}
    {inputPathType : RtlPathType} {block : List WCHAR} {p : NtPath}
    (hsize : full.buffer.length = dosMaxPathLength + 1)
    (hdest : full.dest < full.buffer.length) (hnull : charAt full.buffer full.dest = 0)
    (h : fullNtPath c captureRelativeName filePart true inputPathType full part block =
      .ok (some p)) :
    Translated c captureRelativeName filePart inputPathType full part
      (prefixOf (rtlDetermineDosPathNameTypeU full.buffer)).1
      (prefixOf (rtlDetermineDosPathNameTypeU full.buffer)).2 p := by
  have hoffset := prefixOf_offset_le hnull
  have hpre := prefixOf_length_le (rtlDetermineDosPathNameTypeU full.buffer)
  have hmax : dosMaxPathLength = 260 := rfl
  have hfull : toUShort (2 * full.dest) = 2 * full.dest := Nat.mod_eq_of_lt (by omega)
  unfold fullNtPath at h
  rw [hfull] at h
  dsimp only at h
  split at h
  · cases h
  · generalize prefixOf (rtlDetermineDosPathNameTypeU full.buffer) = selected
      at h hoffset hpre ⊢
    obtain ⟨ntPrefix, offset⟩ := selected
    dsimp only at h hoffset hpre ⊢
    have hrest : subULong (2 * full.dest) (2 * offset) = 2 * (full.dest - offset) := by
      unfold subULong
      omega
    have hlength : toUShort (toUShort (2 * (full.dest - offset)) + 2 * ntPrefix.length) =
        2 * (ntPrefix.length + (full.dest - offset)) := by
      unfold toUShort
      omega
    have hhalf (n : Nat) : 2 * n / 2 = n := Nat.mul_div_cancel_left n Nat.zero_lt_two
    have hread : readFull full.buffer offset (full.dest - offset) =
        .ok ((full.buffer.drop offset).take (full.dest - offset)) := if_pos (by omega)
    rw [hrest, hlength, hhalf, hhalf, hread,
      ← List.drop_take] at h
    have hcount : ((full.buffer.take full.dest).drop offset).length = full.dest - offset := by
      rw [List.length_drop, List.length_take_of_le hdest.le]
    obtain ⟨rest, htail⟩ : ∃ rest, rest = (full.buffer.take full.dest).drop offset := ⟨_, rfl⟩
    rw [← htail] at h hcount
    -- the prefix, the rest of the full path and the null are written one behind the other
    cases hone : writeBlock block 0 ntPrefix with
    | error fault =>
      rw [hone] at h
      cases h
    | ok first =>
      obtain ⟨-, -, htake₁⟩ := ensures_writeBlock.holds _ hone
      rw [hone, Yields.ok_bind, Yields.ok_bind] at h
      cases htwo : writeBlock first ntPrefix.length rest with
      | error fault =>
        rw [htwo] at h
        cases h
      | ok second =>
        obtain ⟨-, -, htake₂⟩ := ensures_writeBlock.holds _ htwo
        rw [htwo, Yields.ok_bind] at h
        cases hthree : writeBlock second (ntPrefix.length + (full.dest - offset)) [0] with
        | error fault =>
          rw [hthree] at h
          cases h
        | ok third =>
          obtain ⟨hle, -, htake₃⟩ := ensures_writeBlock.holds _ hthree
          rw [hthree, Yields.ok_bind] at h
          obtain rfl := Option.some.inj (Except.ok.inj h)
          have htext : second.take (ntPrefix.length + (full.dest - offset)) =
              ntPrefix ++ rest := by
            rw [← hcount, htake₂, ← Nat.zero_add ntPrefix.length, htake₁, List.take_zero,
              List.nil_append]
          rw [htext, List.length_singleton] at htake₃
          have hpath : (ntPrefix ++ rest).length = ntPrefix.length + (full.dest - offset) := by
            rw [List.length_append, hcount]
          obtain ⟨htake, hend⟩ := take_concat hpath htake₃
          refine ⟨?_, rfl, ?_, rfl, rfl⟩
          · unfold NtPath.path
            dsimp only
            rw [hhalf, htake, htail]
          · dsimp only
            rw [hhalf, hend]

/-! ## The comparison without regard to case -/

/-- The characters that tell path types apart. -/
def punctuation : List WCHAR := [backslash, slash, dot, colon, questionMark]

/-- These have no other case. -/
def KeepsPunctuation (upcase : WCHAR → WCHAR) : Prop :=
  ∀ p ∈ punctuation, ∀ ch, upcase ch = upcase p → ch = p

/-- Two characters that a path type does not tell apart. -/
structure Alike (a b : WCHAR) : Prop where
  punctuation : ∀ p ∈ punctuation, a = p ↔ b = p
  null : a = 0 ↔ b = 0

variable {a b : WCHAR}

theorem KeepsPunctuation.alike {upcase : WCHAR → WCHAR} (h : KeepsPunctuation upcase)
    (heq : upcase a = upcase b) (ha : a ≠ 0) (hb : b ≠ 0) : Alike a b where
  punctuation p hp := by
    constructor
    · intro hap
      exact h p hp b (by rw [← hap, heq])
    · intro hbp
      exact h p hp a (by rw [← hbp, heq])
  null := iff_of_false ha hb

theorem Alike.isPathSeparator_eq (h : Alike a b) : isPathSeparator a = isPathSeparator b := by
  have hback := h.punctuation backslash (by decide)
  have hslash := h.punctuation slash (by decide)
  apply Bool.eq_iff_iff.mpr
  unfold isPathSeparator
  rw [Bool.or_eq_true, Bool.or_eq_true, beq_iff_eq, beq_iff_eq, beq_iff_eq, beq_iff_eq, hback,
    hslash]

/-- The type is told by four characters, the last of them only behind `.` or `?`. -/
theorem typeU_congr {t u : List WCHAR} (hfirst : ∀ k < 3, Alike (charAt t k) (charAt u k))
    (hfourth : charAt t 2 = dot ∨ charAt t 2 = questionMark → Alike (charAt t 3) (charAt u 3)) :
    rtlDetermineDosPathNameTypeU t = rtlDetermineDosPathNameTypeU u := by
  have h₀ := hfirst 0 (by decide)
  have h₁ := hfirst 1 (by decide)
  have h₂ := hfirst 2 (by decide)
  have hdot := h₂.punctuation dot (by decide)
  have hquestion := h₂.punctuation questionMark (by decide)
  have hcolon := h₁.punctuation colon (by decide)
  unfold rtlDetermineDosPathNameTypeU
  simp only [h₀.isPathSeparator_eq, h₁.isPathSeparator_eq, h₂.isPathSeparator_eq, ne_eq, h₀.null,
    hcolon]
  by_cases hdevice : charAt t 2 = dot ∨ charAt t 2 = questionMark
  · have h₃ := hfourth hdevice
    have hdevice' : charAt u 2 = dot ∨ charAt u 2 = questionMark := by rwa [← hdot, ← hquestion]
    simp only [if_pos hdevice, if_pos hdevice', h₃.isPathSeparator_eq, h₃.null]
  · have hdevice' : ¬ (charAt u 2 = dot ∨ charAt u 2 = questionMark) := by
      rwa [← hdot, ← hquestion]
    simp only [if_neg hdevice, if_neg hdevice']

/-- The part of a directory that its prefix stands for. -/
theorem IsDirectory.offset_le {dosPath : List WCHAR} (h : IsDirectory dosPath) :
    (prefixOf (rtlDetermineDosPathNameTypeU dosPath)).2 ≤ 2 := by
  cases h with
  | drive ch rest hpath hletter =>
    have htype : rtlDetermineDosPathNameTypeU dosPath = .driveAbsolute := by
      have hseparator : isPathSeparator (charAt dosPath 0) = false := by
        rw [hpath]
        exact isPathSeparator_of_isDriveLetter hletter
      have hnull : charAt dosPath 0 ≠ 0 := by
        rw [hpath]
        exact ne_of_isDriveLetter hletter (by decide)
      have hcolon : charAt dosPath 1 = colon := by
        rw [hpath]
        rfl
      have hback : charAt dosPath 2 = backslash := by
        rw [hpath]
        rfl
      unfold rtlDetermineDosPathNameTypeU
      rw [hseparator, hcolon, hback, if_neg Bool.false_ne_true, if_pos ⟨hnull, rfl⟩]
      rfl
    rw [htype]
    exact Nat.zero_le _
  | unc ch rest hpath htype =>
    rw [htype]
    exact Nat.le_refl _

/-- What the full path shares with the directory it begins with, whatever the case. -/
structure Begins (upcase : WCHAR → WCHAR) (dosPath : List WCHAR) (full : Output) : Prop where
  length_le : dosPath.length ≤ full.dest
  equal : rtlEqualUnicodeString upcase dosPath (full.buffer.take dosPath.length) true = true

theorem Begins.alike {upcase : WCHAR → WCHAR} {dosPath : List WCHAR}
    (h : Begins upcase dosPath full) (hkeeps : KeepsPunctuation upcase) (hnull : 0 ∉ dosPath)
    (hchars : ∀ k < full.dest, charAt full.buffer k ≠ 0) {k : Nat} (hk : k < dosPath.length) :
    Alike (charAt dosPath k) (charAt full.buffer k) := by
  have hequal := h.equal
  unfold rtlEqualUnicodeString at hequal
  rw [if_pos rfl, beq_iff_eq] at hequal
  have hle := h.length_le
  apply hkeeps.alike
  · have hget : (dosPath.map upcase)[k]? =
        ((full.buffer.take dosPath.length).map upcase)[k]? := by rw [hequal]
    rw [List.getElem?_map, List.getElem?_map, List.getElem?_take_of_lt hk] at hget
    unfold charAt
    cases hfull : full.buffer[k]? with
    | none =>
      rw [hfull, List.getElem?_eq_getElem hk] at hget
      cases hget
    | some ch =>
      rw [hfull, List.getElem?_eq_getElem hk] at hget
      rw [List.getElem?_eq_getElem hk]
      exact Option.some.inj hget
  · intro hzero
    exact hnull (hzero ▸ charAt_mem hk)
  · exact hchars k (Nat.lt_of_lt_of_le hk hle)

/-- So it gets the same prefix. -/
theorem Begins.type_eq {upcase : WCHAR → WCHAR} {dosPath : List WCHAR}
    (h : Begins upcase dosPath full) (hdir : IsDirectory dosPath)
    (hkeeps : KeepsPunctuation upcase) (hnull : 0 ∉ dosPath)
    (hchars : ∀ k < full.dest, charAt full.buffer k ≠ 0) :
    rtlDetermineDosPathNameTypeU dosPath = rtlDetermineDosPathNameTypeU full.buffer := by
  have hthree := hdir.three_le
  apply typeU_congr
  · exact fun k hk => h.alike hkeeps hnull hchars (Nat.lt_of_lt_of_le hk hthree)
  · intro hdevice
    apply h.alike hkeeps hnull hchars
    -- a directory of three characters has a backslash there
    by_contra hshort
    have hlength : dosPath.length - 1 = 2 := by omega
    have hlast := hdir.charAt_last
    rw [hlength] at hlast
    rw [hlast] at hdevice
    exact absurd hdevice (by decide)

/-! ## The name that follows the directory -/

/-- The NT path a path stands for. -/
def ntForm (dosPath : List WCHAR) : List WCHAR :=
  (prefixOf (rtlDetermineDosPathNameTypeU dosPath)).1 ++
    dosPath.drop (prefixOf (rtlDetermineDosPathNameTypeU dosPath)).2

/-- The path is the directory, but for the case of its letters, with the relative name behind it. -/
structure Continues (c : NtContext) (captureRelativeName filePart : Bool) (p : NtPath) :
    Prop where
  relativeName : ∃ handle directory rest, c.handle = some handle ∧ p.path = directory ++ rest ∧
    rtlEqualUnicodeString c.upcase (ntForm c.validDosPath) directory true ∧
      p.relativeName = ⟨some directory.length, 2 * rest.length, 2 * rest.length, some handle,
        captureRelativeName⟩
  /-- What comes behind the last backslash, if there is something. -/
  filePart : ∃ front last, p.path = front ++ backslash :: last ∧ backslash ∉ last ∧
    p.filePart = if filePart = true ∧ last ≠ [] then some (front.length + 1) else none

/-- A name that is not empty says that the path begins with the directory. -/
theorem begins_of_relativeName {c : NtContext} {captureRelativeName : Bool}
    {inputPathType : RtlPathType} {fullLength start : Nat} {block : List WCHAR}
    (h : (relativeNameOf c captureRelativeName inputPathType full fullLength start block).length ≠
      0) :
    inputPathType = .relative ∧ ∃ handle, c.handle = some handle ∧
      c.validDosPath.length ≤ stringLength full.buffer 0 ∧
      rtlEqualUnicodeString c.upcase c.validDosPath (full.buffer.take c.validDosPath.length)
        true = true := by
  unfold relativeNameOf at h
  split at h
  · rename_i htype
    cases hhandle : c.handle with
    | none =>
      rw [hhandle] at h
      exact absurd rfl h
    | some handle =>
      rw [hhandle] at h
      dsimp only at h
      split at h
      · rename_i hbegins
        exact ⟨htype, handle, rfl, hbegins.1, hbegins.2⟩
      · exact absurd rfl h
  · exact absurd rfl h

/-- The length of what comes before the null. -/
theorem stringLength_eq {buffer : List WCHAR} {dest start : Nat} (hdest : dest < buffer.length)
    (hnull : charAt buffer dest = 0) (hchars : ∀ k < dest, charAt buffer k ≠ 0)
    (hstart : start ≤ dest) : stringLength buffer start = dest - start := by
  obtain ⟨n, rfl⟩ := Nat.exists_eq_add_of_le hstart
  rw [Nat.add_sub_cancel_left]
  unfold stringLength
  induction n generalizing start with
  | zero =>
    rw [Nat.add_zero] at hdest hnull
    rw [List.drop_eq_getElem_cons hdest, List.takeWhile_cons_of_neg]
    · rfl
    · rw [← hnull]
      unfold charAt
      rw [List.getElem?_eq_getElem hdest]
      simp
  | succ n ih =>
    have hlt : start < buffer.length := by omega
    have hne : buffer[start] ≠ 0 := by
      have hchar := hchars start (by omega)
      unfold charAt at hchar
      rw [List.getElem?_eq_getElem hlt] at hchar
      exact hchar
    rw [List.drop_eq_getElem_cons hlt, List.takeWhile_cons_of_pos (by simpa using hne),
      List.length_cons]
    have hnext : start + (n + 1) = start + 1 + n := by omega
    rw [ih (hnext ▸ hdest) (hnext ▸ hnull) (hnext ▸ hchars) (Nat.le_add_right _ _)]

/-- The scan finds the last backslash before the null. -/
theorem behindLastBackslash_eq {buffer : List WCHAR} {source : Nat} {q : Nat} (hq : 0 < q)
    (hqs : q ≤ source) (hch : charAt buffer q = backslash) (hlt : source < buffer.length) :
    ∃ front last, buffer.take (source + 1) = front ++ backslash :: last ∧ backslash ∉ last ∧
      q ≤ front.length ∧ behindLastBackslash buffer source = some (front.length + 1) := by
  induction source with
  | zero => omega
  | succ source ih =>
    have htake : buffer.take (source + 1 + 1) =
        buffer.take (source + 1) ++ [charAt buffer (source + 1)] := by
      rw [take_succ_charAt hlt]
    have hlength : (buffer.take (source + 1)).length = source + 1 :=
      List.length_take_of_le hlt.le
    unfold behindLastBackslash
    by_cases hback : charAt buffer (source + 1) = backslash
    · rw [if_pos hback]
      refine ⟨buffer.take (source + 1), [], ?_, nofun, ?_, ?_⟩
      · rw [htake, hback]
      · rw [hlength]
        exact hqs
      · rw [hlength]
    · rw [if_neg hback]
      have hne : q ≠ source + 1 := by
        rintro rfl
        exact hback hch
      obtain ⟨front, last, hpath, hlast, hle, hfound⟩ := ih (by omega) (by omega)
      refine ⟨front, last ++ [charAt buffer (source + 1)], ?_, ?_, hle, hfound⟩
      · rw [htake, hpath, List.append_assoc]
        rfl
      · rw [List.mem_append, List.mem_singleton]
        rintro (hmem | hmem)
        · exact hlast hmem
        · exact hback hmem.symm

theorem ensures_win32NtPath (c : NtContext) (filePart : Bool) :
    Ensures (win32NtPath c filePart s) fun r =>
      ∀ p, r = some p → p.relativeName = noRelativeName := by
  unfold win32NtPath
  dsimp only
  apply Ensures.ite
  · exact fun _ => .ok nofun
  · intro _
    split
    · exact .ok nofun
    · apply ensures_writeBlock.bind
      intro _ _
      apply ensures_writeBlock.bind
      intro _ _
      apply ensures_writeBlock.bind
      intro _ _
      apply Ensures.ok
      intro p hp
      obtain rfl := Option.some.inj hp
      rfl

/-- The relative name of a path that begins with the directory. -/
theorem relativeName_of_begins {c : NtContext} {captureRelativeName filePart : Bool}
    {ntPrefix : List WCHAR} {offset handle : Nat} {p : NtPath} (hpath : Path c.toContext full part)
    (hsize : full.buffer.length = dosMaxPathLength + 1) (hdir : IsDirectory c.validDosPath)
    (hkeeps : KeepsPunctuation c.upcase) (hnull : 0 ∉ c.validDosPath)
    (hbegins : Begins c.upcase c.validDosPath full) (hhandle : c.handle = some handle)
    (hoffset : offset ≤ c.validDosPath.length) (hpre : offset ≤ ntPrefix.length)
    (h : Translated c captureRelativeName filePart .relative full part ntPrefix offset p) :
    p.relativeName = ⟨some (ntPrefix.length + (c.validDosPath.length - offset)),
      2 * (full.dest - c.validDosPath.length), 2 * (full.dest - c.validDosPath.length),
      some handle, captureRelativeName⟩ := by
  have hle := hbegins.length_le
  have hpos := hdir.three_le
  have hdest := hpath.dest_lt
  have hmax : dosMaxPathLength = 260 := rfl
  have hstring : stringLength full.buffer 0 = full.dest :=
    stringLength_eq hdest hpath.null hpath.chars (Nat.zero_le _)
  have hstart : ntPrefix.length - offset + c.validDosPath.length =
      ntPrefix.length + (c.validDosPath.length - offset) := by omega
  have hlength : subUShort (2 * full.dest) (2 * c.validDosPath.length) =
      2 * (full.dest - c.validDosPath.length) := by
    unfold subUShort
    omega
  -- the directory ends with a backslash, and there is no other behind it
  have hnext : charAt p.buffer (ntPrefix.length + (c.validDosPath.length - offset)) ≠
      backslash := by
    have hwhole : (ntPrefix ++ (full.buffer.take full.dest).drop offset).length =
        ntPrefix.length + (full.dest - offset) := by
      rw [List.length_append, List.length_drop, List.length_take_of_le hdest.le]
    rcases Nat.eq_or_lt_of_le hle with heq | hlt
    · have hend := h.null
      rw [h.length, Nat.mul_div_cancel_left _ Nat.zero_lt_two] at hend
      rw [heq, hend]
      decide
    · have hchar : charAt p.buffer (ntPrefix.length + (c.validDosPath.length - offset)) =
          charAt full.buffer c.validDosPath.length := by
        have hp : charAt p.path (ntPrefix.length + (c.validDosPath.length - offset)) =
            charAt p.buffer (ntPrefix.length + (c.validDosPath.length - offset)) := by
          apply charAt_take
          rw [h.length, Nat.mul_div_cancel_left _ Nat.zero_lt_two]
          omega
        rw [← hp, h.path, charAt_append_right]
        unfold charAt
        rw [List.getElem?_drop, Nat.add_sub_of_le hoffset, List.getElem?_take_of_lt hlt]
      have hlast := (hbegins.alike hkeeps hnull hpath.chars
        (Nat.sub_lt (Nat.zero_lt_of_lt hpos) Nat.one_pos)).punctuation backslash
        (by decide)
      have hback := hlast.mp hdir.charAt_last
      have hsucc : c.validDosPath.length = c.validDosPath.length - 1 + 1 := by omega
      rw [hchar, hsucc]
      intro hsecond
      exact hpath.single (c.validDosPath.length - 1) hsucc (by omega) hsecond hback
  rw [h.relativeName]
  unfold relativeNameOf
  rw [if_pos rfl, hhandle, hstring, hstart, hlength]
  dsimp only
  rw [if_pos ⟨hle, hbegins.equal⟩, if_neg hnext]

/-- The file part of a path that begins with the directory. -/
theorem filePart_of_begins {c : NtContext} {captureRelativeName filePart : Bool}
    {inputPathType : RtlPathType} {ntPrefix : List WCHAR} {offset : Nat} {p : NtPath}
    (hpath : Path c.toContext full part) (hdir : IsDirectory c.validDosPath)
    (hkeeps : KeepsPunctuation c.upcase) (hnull : 0 ∉ c.validDosPath)
    (hbegins : Begins c.upcase c.validDosPath full) (hoffset : offset ≤ 2)
    (h : Translated c captureRelativeName filePart inputPathType full part ntPrefix offset p) :
    ∃ front last, p.path = front ++ backslash :: last ∧ backslash ∉ last ∧
      p.filePart = if filePart = true ∧ last ≠ [] then some (front.length + 1) else none := by
  have hle := hbegins.length_le
  have hpos := hdir.three_le
  have hdest := hpath.dest_lt
  have hback : charAt full.buffer (c.validDosPath.length - 1) = backslash :=
    ((hbegins.alike hkeeps hnull hpath.chars (Nat.sub_lt (Nat.zero_lt_of_lt hpos)
      Nat.one_pos)).punctuation backslash (by decide)).mp hdir.charAt_last
  obtain ⟨front, last, htake, hlast, hfront, hfound⟩ :=
    @behindLastBackslash_eq full.buffer (full.dest - 1) _ (by omega) (by omega) hback (by omega)
  have hsucc : full.dest - 1 + 1 = full.dest := by omega
  rw [hsucc] at htake
  have hlength : full.dest = front.length + (last.length + 1) := by
    rw [← List.length_cons (a := backslash), ← List.length_append, ← htake,
      List.length_take_of_le hdest.le]
  refine ⟨ntPrefix ++ front.drop offset, last, ?_, hlast, ?_⟩
  · rw [h.path, htake, List.drop_append_of_le_length (by omega), List.append_assoc]
  · obtain ⟨backupIndex, hpart⟩ := hpath.part
    unfold DosPath.filePart at hpart
    rw [hfound] at hpart
    dsimp only at hpart
    rw [h.filePart, hpart]
    by_cases hempty : last = []
    · have hend : charAt full.buffer (front.length + 1) = 0 := by
        rw [hempty, List.length_nil] at hlength
        rw [← hlength]
        exact hpath.null
      rw [if_pos hend, Option.map_none, ite_self, if_neg]
      exact fun hboth => hboth.2 hempty
    · have hmore : 0 < last.length := List.length_pos_of_ne_nil hempty
      have hchar : charAt full.buffer (front.length + 1) ≠ 0 := hpath.chars _ (by omega)
      have hindex : ntPrefix.length + (full.dest - offset) - (full.dest - (front.length + 1)) =
          (ntPrefix ++ front.drop offset).length + 1 := by
        rw [List.length_append, List.length_drop]
        omega
      have hrelative :
          ¬ (RtlPathType.relative = .uncAbsolute ∧ front.length + 1 < backupIndex) :=
        fun hboth => nomatch hboth.1
      rw [if_neg hchar, if_neg hrelative, Option.map_some,
        stringLength_eq hdest hpath.null hpath.chars (by omega), hindex]
      cases filePart with
      | false => rfl
      | true => rw [if_pos rfl, if_pos ⟨rfl, hempty⟩]

/-- The directory, but for the case of its letters, and the rest of the path. -/
theorem path_of_begins {c : NtContext} {captureRelativeName filePart : Bool}
    {inputPathType : RtlPathType} {ntPrefix : List WCHAR} {offset : Nat} {p : NtPath}
    (hbegins : Begins c.upcase c.validDosPath full) (hoffset : offset ≤ c.validDosPath.length)
    (hdest : full.dest < full.buffer.length)
    (h : Translated c captureRelativeName filePart inputPathType full part ntPrefix offset p) :
    ∃ directory rest, p.path = directory ++ rest ∧
      directory.length = ntPrefix.length + (c.validDosPath.length - offset) ∧
      rest.length = full.dest - c.validDosPath.length ∧
      rtlEqualUnicodeString c.upcase (ntPrefix ++ c.validDosPath.drop offset) directory true =
        true := by
  have hle := hbegins.length_le
  have hshort : (full.buffer.take c.validDosPath.length).length = c.validDosPath.length :=
    List.length_take_of_le (by omega)
  refine ⟨ntPrefix ++ (full.buffer.take c.validDosPath.length).drop offset,
    (full.buffer.take full.dest).drop c.validDosPath.length, ?_, ?_, ?_, ?_⟩
  · have hsplit : full.buffer.take full.dest = full.buffer.take c.validDosPath.length ++
        (full.buffer.take full.dest).drop c.validDosPath.length := by
      conv_lhs => rw [← List.take_append_drop c.validDosPath.length (full.buffer.take full.dest)]
      rw [List.take_take, Nat.min_eq_left hle]
    have hdrop : (full.buffer.take full.dest).drop offset =
        (full.buffer.take c.validDosPath.length).drop offset ++
          (full.buffer.take full.dest).drop c.validDosPath.length := by
      conv_lhs => rw [hsplit]
      rw [List.drop_append_of_le_length (by rw [hshort]; exact hoffset)]
    rw [h.path, hdrop, List.append_assoc]
  · rw [List.length_append, List.length_drop, hshort]
  · rw [List.length_drop, List.length_take_of_le hdest.le]
  · have hequal := hbegins.equal
    unfold rtlEqualUnicodeString at hequal ⊢
    rw [if_pos rfl, beq_iff_eq] at hequal ⊢
    rw [List.map_append, List.map_append, List.map_drop, List.map_drop, hequal]

/-- A relative name that is not empty is the end of the NT path, behind the NT form of the current
directory, whatever the case of its letters; the file part is what comes behind the last
backslash. -/
theorem relative_name_continues_directory (c : NtContext) (captureRelativeName filePart : Bool)
    (s : List WCHAR) (hkeeps : KeepsPunctuation c.upcase) (hdir : IsDirectory c.validDosPath)
    (hnull : 0 ∉ c.validDosPath) (hname : 0 ∉ s) (p : NtPath)
    (h : rtlpDosPathNameToRelativeNtPathNameUstr c captureRelativeName filePart true s =
      .ok (some p))
    (hrelative : p.relativeName.length ≠ 0) : Continues c captureRelativeName filePart p := by
  unfold rtlpDosPathNameToRelativeNtPathNameUstr at h
  cases hwin32 : isWin32Name s with
  | true =>
    rw [hwin32, if_pos rfl] at h
    -- a Win32 name has no relative part
    have hnone := (ensures_win32NtPath c filePart).holds _ h p rfl
    rw [hnone] at hrelative
    exact absurd rfl hrelative
  | false =>
    rw [hwin32, if_neg Bool.false_ne_true] at h
    cases hheap : c.heap (dosMaxPathLength + 1) with
    | none =>
      rw [hheap] at h
      cases h
    | some block =>
      rw [hheap] at h
      dsimp only at h
      have hstored := (stored_path c.toContext s (2 * dosMaxPathLength)
        c.staticDosBuffer.val).holds
      cases hfull : rtlGetFullPathNameUstr c.toContext s (2 * dosMaxPathLength)
          c.staticDosBuffer.val with
      | error fault =>
        rw [hfull] at h
        cases h
      | ok r =>
        obtain ⟨inputPathType, out⟩ := r
        have hcomplete := hstored _ hfull
        rw [c.staticDosBuffer.property] at hcomplete
        rw [hfull] at h
        cases out with
        | returned k => cases h
        | stored full part =>
          obtain ⟨hsize, hdest, hend⟩ := hcomplete
          dsimp only at hsize hdest hend h
          have hlt : full.dest < full.buffer.length := Nat.lt_of_lt_of_eq hdest hsize.symm
          -- the NT path is a prefix and the full path, which begins with the directory
          have htranslated := fullNtPath_translated hsize hlt hend h
          rw [htranslated.relativeName] at hrelative
          obtain ⟨rfl, handle, hhandle, hlong, hequal⟩ := begins_of_relativeName hrelative
          have hroom : 2 * dosMaxPathLength ≤ 2 * c.staticDosBuffer.val.length := by
            rw [c.staticDosBuffer.property]
            omega
          have hpath := relative_path hdir (by decide) hroom hname hnull hfull
          have hbegins : Begins c.upcase c.validDosPath full := by
            refine ⟨?_, hequal⟩
            rwa [stringLength_eq hlt hend hpath.chars (Nat.zero_le _)] at hlong
          have hthree := hdir.three_le
          have hoffset := hdir.offset_le
          have hpre := prefixOf_length_le (rtlDetermineDosPathNameTypeU c.validDosPath)
          have hshort := Nat.le_trans hoffset (Nat.le_of_lt hthree)
          rw [← hbegins.type_eq hdir hkeeps hnull hpath.chars] at htranslated
          obtain ⟨directory, rest, happend, hdirectory, hrest, hsame⟩ :=
            path_of_begins hbegins (by omega) hlt htranslated
          constructor
          · refine ⟨handle, directory, rest, hhandle, happend, hsame, ?_⟩
            rw [relativeName_of_begins hpath hsize hdir hkeeps hnull hbegins hhandle (by omega)
              (by omega) htranslated, hdirectory, hrest]
          · exact filePart_of_begins hpath hdir hkeeps hnull hbegins hoffset htranslated

theorem keepsPunctuation_upcaseAscii : KeepsPunctuation upcaseAscii := by
  intro p hp ch h
  have hsame : (punctuation.all fun p =>
      decide (upcaseAscii p = p) && (decide (p < 0x41) || decide (0x5a < p))) = true := by
    decide +kernel
  have hthis := List.all_eq_true.mp hsame p hp
  rw [Bool.and_eq_true, Bool.or_eq_true, decide_eq_true_eq, decide_eq_true_eq,
    decide_eq_true_eq] at hthis
  obtain ⟨hkept, hrange⟩ := hthis
  rw [hkept] at h
  unfold upcaseAscii at h
  split at h
  · -- the capital of a letter is no punctuation
    rename_i hletter
    exfalso
    obtain ⟨hlow, hhigh⟩ := hletter
    rw [UInt16.le_iff_toNat_le] at hlow hhigh
    rw [UInt16.lt_iff_toNat_lt, UInt16.lt_iff_toNat_lt, ← h, UInt16.toNat_sub] at hrange
    simp only [UInt16.reduceToNat] at hlow hhigh hrange
    omega
  · exact h

/-- `C:\a\` -/
def smallDirectory : List WCHAR := driveRoot ++ [0x61, backslash]

theorem isDirectory_smallDirectory : IsDirectory smallDirectory :=
  .drive 0x43 [0x61, backslash] rfl (by decide) rfl (by decide)

/-- A process in that directory. -/
def smallNtContext : NtContext where
  toContext := { rootContext with dosPath := smallDirectory, validDosPath := smallDirectory }
  handle := some 4
  heap n := some ⟨List.replicate n 0, length_nulls n⟩
  staticDosBuffer := ⟨List.replicate (dosMaxPathLength + 1) 0, length_staticDosBuffer⟩

/-- What the caller sees. -/
def seen (r : Except NtFault (Option NtPath)) :
    Option (List WCHAR × RelativeName × Option Nat) :=
  r.toOption.join.map fun p => (p.path, p.relativeName, p.filePart)

theorem of_seen {r : Except NtFault (Option NtPath)}
    {values : List WCHAR × RelativeName × Option Nat} (h : seen r = some values) :
    ∃ p, r = .ok (some p) ∧ (p.path, p.relativeName, p.filePart) = values := by
  unfold seen at h
  match r, h with
  | .ok (some p), h => exact ⟨p, rfl, Option.some.inj h⟩

/-- `..\A\x` is found in `C:\a\`, as `C:\A\x`. -/
def throughParent : List WCHAR := [dot, dot, backslash, 0x41, backslash, 0x78]

theorem seen_throughParent :
    seen (rtlpDosPathNameToRelativeNtPathNameUstr smallNtContext true true true throughParent) =
      some (dosDevicesPrefix ++ driveRoot ++ [0x41, backslash, 0x78],
        ⟨some 9, 2, 2, some 4, true⟩, some 9) := by decide +kernel

theorem throughParent_continues :
    ∃ p, rtlpDosPathNameToRelativeNtPathNameUstr smallNtContext true true true throughParent =
      .ok (some p) ∧ Continues smallNtContext true true p := by
  obtain ⟨p, hp, hvalues⟩ := of_seen seen_throughParent
  refine ⟨p, hp, relative_name_continues_directory smallNtContext true true throughParent
    keepsPunctuation_upcaseAscii isDirectory_smallDirectory (by decide) (by decide) p hp ?_⟩
  injection hvalues with hpath hrest
  injection hrest with hrelative hpart
  rw [hrelative]
  decide

/-- The directory in the NT path has the letters of the name. -/
theorem case_of_directory_is_not_kept :
    ¬ ∀ (c : NtContext) (captureRelativeName filePart : Bool) (s : List WCHAR),
      KeepsPunctuation c.upcase → IsDirectory c.validDosPath → 0 ∉ c.validDosPath → 0 ∉ s →
      ∀ p, rtlpDosPathNameToRelativeNtPathNameUstr c captureRelativeName filePart true s =
        .ok (some p) → p.relativeName.length ≠ 0 →
          ∃ rest, p.path = ntForm c.validDosPath ++ rest := by
  intro h
  obtain ⟨p, hp, hvalues⟩ := of_seen seen_throughParent
  injection hvalues with hpath hrest
  injection hrest with hrelative hpart
  obtain ⟨rest, happend⟩ := h smallNtContext true true throughParent keepsPunctuation_upcaseAscii
    isDirectory_smallDirectory (by decide) (by decide) p hp (by rw [hrelative]; decide)
  have hpre : ntForm smallDirectory <+:
      dosDevicesPrefix ++ driveRoot ++ [0x41, backslash, 0x78] :=
    ⟨rest, by rw [← hpath]; exact happend.symm⟩
  exact absurd hpre (by decide)

end Ldk.DosPath
