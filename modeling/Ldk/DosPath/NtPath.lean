import Ldk.DosPath.Stored

/-!
# NT paths

`RtlpDosPathNameToRelativeNtPathName_Ustr` of `curdir.c`. The heap block is allocated before the
full path is known, for a path of the length of `StaticDosBuffer`, and the prefix comes on top of
that. So the block is too small for the longest paths (`nt_path_fits_block`).

- Lengths are in characters, but for those of a `UNICODE_STRING`, which are in bytes.
- A fault of `RtlGetFullPathName_Ustr`, or a read outside of what it has given, is kept apart from
  a write outside the heap block.
- `CurDirRef` says whether the reference of the current directory has been taken.
-/

namespace Ldk.DosPath

/-! ## RtlpDosPathNameToRelativeNtPathName_Ustr -/

/-- `DOS_MAX_PATH_LENGTH` -/
def dosMaxPathLength : Nat := 260

/-- `RtlpDosDevicesPrefix` -/
def dosDevicesPrefix : List WCHAR := [backslash, questionMark, questionMark, backslash]

/-- `RtlpDosDevicesUncPrefix` -/
def dosDevicesUncPrefix : List WCHAR := dosDevicesPrefix ++ [0x55, 0x4e, 0x43, backslash]

/-- What must not happen. -/
inductive NtFault where
  /-- In `RtlGetFullPathName_Ustr` and its buffer. -/
  | fullPath (fault : Fault)
  /-- A write outside `FullNtPathName`. -/
  | heap
  deriving DecidableEq, Repr

/-- What the function finds when it is called. -/
structure NtContext extends Context where
  /-- `CurrentDirectory.Handle` -/
  handle : Option Nat
  /-- `RtlAllocateHeap`, for a block of some characters. -/
  heap : (n : Nat) → Option { block : List WCHAR // block.length = n }
  /-- `StaticDosBuffer`, before it is written. -/
  staticDosBuffer : { buffer : List WCHAR // buffer.length = dosMaxPathLength + 1 }

/-- `RTL_RELATIVE_NAME_U`; the buffer is an index of `FullNtPathName`. -/
structure RelativeName where
  buffer : Option Nat
  length : Nat
  maximumLength : Nat
  containingDirectory : Option Nat
  curDirRef : Bool
  deriving DecidableEq, Repr

/-- The relative name of a path that has none. -/
def noRelativeName : RelativeName := ⟨none, 0, 0, none, false⟩

/-- `NtFileName`, `*FilePart` and `*RelativeName`. -/
structure NtPath where
  /-- `FullNtPathName` -/
  buffer : List WCHAR
  length : Nat
  maximumLength : Nat
  filePart : Option Nat
  relativeName : RelativeName
  deriving DecidableEq, Repr

/-- A write to `FullNtPathName`. -/
def writeBlock (block : List WCHAR) (start : Nat) (source : List WCHAR) :
    Except NtFault (List WCHAR) :=
  if start + source.length ≤ block.length then
    .ok (block.take start ++ source ++ block.drop (start + source.length))
  else .error .heap

/-- A read of `FullDosPathName`. -/
def readFull (buffer : List WCHAR) (start n : Nat) : Except NtFault (List WCHAR) :=
  if start + n ≤ buffer.length then .ok ((buffer.drop start).take n)
  else .error (.fullPath .outside)

/-- The difference of two values of type `ULONG`. -/
def subULong (a b : Nat) : Nat := (a + 2 ^ 32 - b) % 2 ^ 32

/-- The length of a string that ends with a null. -/
def stringLength (buffer : List WCHAR) (start : Nat) : Nat :=
  ((buffer.drop start).takeWhile (· ≠ 0)).length

/-- The test for `\\?\` with something behind it. -/
def isWin32Name (s : List WCHAR) : Bool :=
  4 < s.length && s.take 4 == [backslash, backslash, questionMark, backslash]

/-- `Prefix` and `DosPathNameOffset`; an assertion fails for a root local device. -/
def prefixOf : RtlPathType → List WCHAR × Nat
  | .uncAbsolute => (dosDevicesUncPrefix, 2)
  | .localDevice => (dosDevicesPrefix, 4)
  | _ => (dosDevicesPrefix, 0)

/-- The branch for `\\?\` -/
def win32NtPath (c : NtContext) (filePart : Bool) (s : List WCHAR) :
    Except NtFault (Option NtPath) := do
  let ntFileLength := 2 * s.length - 8 + 2 * dosDevicesPrefix.length
  if ntFileLength > 2 ^ 16 - 1 - 2 then return none
  else
    match c.heap ((ntFileLength + 2) / 2) with
    | none => return none
    | some block =>
      let block ← writeBlock block 0 dosDevicesPrefix
      let block ← writeBlock block dosDevicesPrefix.length (s.drop 4)
      let block ← writeBlock block (ntFileLength / 2) [0]
      return some
        { buffer := block, length := ntFileLength, maximumLength := ntFileLength + 2
          filePart :=
            if filePart then
              (behindLastBackslash block ((ntFileLength - 1) / 2)).filter (charAt block · ≠ 0)
            else none
          relativeName := noRelativeName }

/-- `*RelativeName` for a path relative to the current directory; `start` is where the path that
follows the directory begins in `FullNtPathName`. -/
def relativeNameOf (c : NtContext) (captureRelativeName : Bool) (inputPathType : RtlPathType)
    (full : Output) (fullLength start : Nat) (block : List WCHAR) : RelativeName :=
  if inputPathType = .relative then
    match c.handle with
    | none => noRelativeName
    | some handle =>
      if c.validDosPath.length ≤ stringLength full.buffer 0 ∧
          rtlEqualUnicodeString c.upcase c.validDosPath
            (full.buffer.take c.validDosPath.length) true then
        let length := subUShort fullLength (2 * c.validDosPath.length)
        if charAt block start = backslash then
          ⟨some (start + 1), subUShort length 2, subUShort length 2, some handle,
            captureRelativeName⟩
        else ⟨some start, length, length, some handle, captureRelativeName⟩
      else noRelativeName
  else noRelativeName

/-- The NT path of a full path. -/
def fullNtPath (c : NtContext) (captureRelativeName filePart relativeName : Bool)
    (inputPathType : RtlPathType) (full : Output) (part : Option Nat) (block : List WCHAR) :
    Except NtFault (Option NtPath) := do
  let fullLength := toUShort (2 * full.dest)
  if fullLength = 0 ∨ fullLength > 2 * dosMaxPathLength then return none
  else
    let (ntPrefix, offset) := prefixOf (rtlDetermineDosPathNameTypeU full.buffer)
    let block ← writeBlock block 0 ntPrefix
    let rest ← readFull full.buffer offset (subULong fullLength (2 * offset) / 2)
    let block ← writeBlock block ntPrefix.length rest
    let length := toUShort (toUShort (subULong fullLength (2 * offset)) + 2 * ntPrefix.length)
    let block ← writeBlock block (length / 2) [0]
    return some
      { buffer := block, length := length
        -- `BufferLength`, to which the longest prefix has been added
        maximumLength := 2 * (dosMaxPathLength + 1) + 2 * dosDevicesUncPrefix.length
        filePart :=
          if filePart then part.map fun p => length / 2 - stringLength full.buffer p else none
        relativeName :=
          if relativeName then
            relativeNameOf c captureRelativeName inputPathType full fullLength
              (ntPrefix.length - offset + c.validDosPath.length) block
          else noRelativeName }

/-- `RtlpDosPathNameToRelativeNtPathName_Ustr`; there is no path when it returns `FALSE`. -/
def rtlpDosPathNameToRelativeNtPathNameUstr (c : NtContext)
    (captureRelativeName filePart relativeName : Bool) (s : List WCHAR) :
    Except NtFault (Option NtPath) :=
  if isWin32Name s then win32NtPath c filePart s
  else
    match c.heap (dosMaxPathLength + 1) with
    | none => .ok none
    | some block =>
      match rtlGetFullPathNameUstr c.toContext s (2 * dosMaxPathLength) c.staticDosBuffer with
      | .error fault => .error (.fullPath fault)
      | .ok ⟨inputPathType, .stored full part⟩ =>
        fullNtPath c captureRelativeName filePart relativeName inputPathType full part block
      -- without a path the value is 0 or above `DosPathLength`
      | .ok ⟨_, .returned _⟩ => .ok none

/-! ## The size of the block -/

/-- Every write has been in the block, and the block has room for the name and its null. -/
def HeapSafe (r : Except NtFault (Option NtPath)) : Prop :=
  r ≠ .error .heap ∧ ∀ p, r = .ok (some p) → p.length + 2 ≤ 2 * p.buffer.length

/-- The full path leaves room for the prefix. -/
def FitsBlock (full : Output) : Prop :=
  match rtlDetermineDosPathNameTypeU full.buffer with
  | .uncAbsolute => full.dest ≤ 254
  | .localDevice => True
  | _ => full.dest ≤ 256

/-- The condition: a name behind `\\?\` gets a block of its own size; any other has a full path that
leaves room for the prefix. -/
def Fits (c : NtContext) (s : List WCHAR) : Prop :=
  isWin32Name s = true ∨ c.heap (dosMaxPathLength + 1) = none ∨
    ∀ p full part, rtlGetFullPathNameUstr c.toContext s (2 * dosMaxPathLength) c.staticDosBuffer =
      .ok p → p.outcome = .stored full part → FitsBlock full

variable {c : NtContext} {captureRelativeName filePart relativeName : Bool} {s block : List WCHAR}
  {start : Nat} {source : List WCHAR}

theorem writeBlock_eq (h : start + source.length ≤ block.length) :
    writeBlock block start source =
      .ok (block.take start ++ source ++ block.drop (start + source.length)) := if_pos h

theorem writeBlock_overflow (h : block.length < start + source.length) :
    writeBlock block start source = .error .heap := if_neg (Nat.not_le_of_lt h)

theorem HeapSafe.none : HeapSafe (.ok none) := ⟨nofun, nofun⟩

theorem win32NtPath_safe (c : NtContext) (filePart : Bool) (hlong : 4 < s.length) :
    HeapSafe (win32NtPath c filePart s) := by
  have hfour : dosDevicesPrefix.length = 4 := rfl
  unfold win32NtPath
  rw [hfour]
  dsimp only
  split
  · exact .none
  · split
    · exact .none
    · rename_i block _
      have hblock := block.property
      have hone : 0 + dosDevicesPrefix.length ≤ block.val.length := by omega
      rw [writeBlock_eq hone, Yields.ok_bind]
      have hlen₁ := length_copied hone
      obtain ⟨first, hfirst⟩ : ∃ first, first = block.val.take 0 ++ dosDevicesPrefix ++
          block.val.drop (0 + dosDevicesPrefix.length) := ⟨_, rfl⟩
      rw [← hfirst] at hlen₁ ⊢
      have htwo : 4 + (s.drop 4).length ≤ first.length := by
        rw [List.length_drop]
        omega
      rw [writeBlock_eq htwo, Yields.ok_bind]
      have hlen₂ := length_copied htwo
      obtain ⟨second, hsecond⟩ : ∃ second, second = first.take 4 ++ s.drop 4 ++
          first.drop (4 + (s.drop 4).length) := ⟨_, rfl⟩
      rw [← hsecond] at hlen₂ ⊢
      have hthree : (2 * s.length - 8 + 2 * 4) / 2 + [(0 : WCHAR)].length ≤ second.length := by
        rw [List.length_singleton]
        omega
      rw [writeBlock_eq hthree, Yields.ok_bind]
      refine ⟨nofun, fun p hp => ?_⟩
      obtain rfl := Option.some.inj (Except.ok.inj hp)
      dsimp only
      rw [length_copied hthree]
      omega

/-- What has been looked at when the type says that a part of the path is left out. -/
theorem typeU_facts (buffer : List WCHAR) :
    (rtlDetermineDosPathNameTypeU buffer = .uncAbsolute →
      isPathSeparator (charAt buffer 0) = true ∧ isPathSeparator (charAt buffer 1) = true) ∧
    (rtlDetermineDosPathNameTypeU buffer = .localDevice →
      isPathSeparator (charAt buffer 0) = true ∧ isPathSeparator (charAt buffer 1) = true ∧
        (charAt buffer 2 = dot ∨ charAt buffer 2 = questionMark) ∧
          isPathSeparator (charAt buffer 3) = true) := by
  unfold rtlDetermineDosPathNameTypeU
  split_ifs with h₀ h₁ h₂ h₃
  all_goals refine ⟨fun h => ?_, fun h => ?_⟩
  all_goals first
    | exact ⟨h₀, h₁⟩
    | exact ⟨h₀, h₁, h₂, h₃⟩
    | cases h

/-- It lies before the null of the path. -/
theorem prefixOf_offset_le {full : Output} (hnull : charAt full.buffer full.dest = 0) :
    (prefixOf (rtlDetermineDosPathNameTypeU full.buffer)).2 ≤ full.dest := by
  have hseparator {k : Nat} (hk : isPathSeparator (charAt full.buffer k) = true) :
      full.dest ≠ k := by
    rintro rfl
    rw [hnull] at hk
    exact absurd hk (by decide)
  obtain ⟨hunc, hlocal⟩ := typeU_facts full.buffer
  cases htype : rtlDetermineDosPathNameTypeU full.buffer with
  | uncAbsolute =>
    obtain ⟨h₀, h₁⟩ := hunc htype
    have := hseparator h₀
    have := hseparator h₁
    change 2 ≤ full.dest
    omega
  | localDevice =>
    obtain ⟨h₀, h₁, h₂, h₃⟩ := hlocal htype
    have := hseparator h₀
    have := hseparator h₁
    have := hseparator h₃
    have hthird : full.dest ≠ 2 := by
      intro hdest
      rw [hdest] at hnull
      rcases h₂ with h₂ | h₂
      · rw [h₂] at hnull
        exact absurd hnull (by decide)
      · rw [h₂] at hnull
        exact absurd hnull (by decide)
    change 4 ≤ full.dest
    omega
  | _ => exact Nat.zero_le _

theorem prefixOf_length_le (pathType : RtlPathType) :
    4 ≤ (prefixOf pathType).1.length ∧ (prefixOf pathType).1.length ≤ 8 := by
  cases pathType <;> decide

theorem fitsBlock_iff (full : Output) (hdest : full.dest ≤ dosMaxPathLength) :
    FitsBlock full ↔ (prefixOf (rtlDetermineDosPathNameTypeU full.buffer)).1.length + full.dest ≤
      dosMaxPathLength + (prefixOf (rtlDetermineDosPathNameTypeU full.buffer)).2 := by
  change full.dest ≤ 260 at hdest
  unfold FitsBlock
  cases rtlDetermineDosPathNameTypeU full.buffer with
  | uncAbsolute =>
    change full.dest ≤ 254 ↔ 8 + full.dest ≤ 260 + 2
    omega
  | localDevice =>
    change True ↔ 4 + full.dest ≤ 260 + 4
    exact iff_of_true trivial (by omega)
  | _ =>
    change full.dest ≤ 256 ↔ 4 + full.dest ≤ 260 + 0
    omega

/-- The prefix, the rest of the path and the null are written in the block exactly when there is
room for all of them. -/
theorem fullNtPath_safe {full : Output} {inputPathType : RtlPathType} {part : Option Nat}
    (hsize : full.buffer.length = dosMaxPathLength + 1) (hdest : full.dest < dosMaxPathLength + 1)
    (hnull : charAt full.buffer full.dest = 0) (hblock : block.length = dosMaxPathLength + 1) :
    HeapSafe (fullNtPath c captureRelativeName filePart relativeName inputPathType full part
      block) ↔ FitsBlock full := by
  have hoffset := prefixOf_offset_le hnull
  have hpre := prefixOf_length_le (rtlDetermineDosPathNameTypeU full.buffer)
  have hmax : dosMaxPathLength = 260 := rfl
  have hfull : toUShort (2 * full.dest) = 2 * full.dest := Nat.mod_eq_of_lt (by omega)
  rw [fitsBlock_iff full (Nat.le_of_lt_succ hdest)]
  unfold fullNtPath
  rw [hfull]
  dsimp only
  split
  · exact ⟨fun _ => by omega, fun _ => .none⟩
  · generalize prefixOf (rtlDetermineDosPathNameTypeU full.buffer) = selected at hoffset hpre ⊢
    obtain ⟨ntPrefix, offset⟩ := selected
    dsimp only at hoffset hpre ⊢
    have hrest : subULong (2 * full.dest) (2 * offset) = 2 * (full.dest - offset) := by
      unfold subULong
      omega
    have hlength : toUShort (toUShort (2 * (full.dest - offset)) + 2 * ntPrefix.length) =
        2 * (ntPrefix.length + (full.dest - offset)) := by
      unfold toUShort
      omega
    have hhalf (n : Nat) : 2 * n / 2 = n := Nat.mul_div_cancel_left n Nat.zero_lt_two
    have hone : 0 + ntPrefix.length ≤ block.length := by omega
    rw [hrest, hlength, hhalf, hhalf, writeBlock_eq hone, Yields.ok_bind]
    have hlen₁ := length_copied hone
    obtain ⟨first, hfirst⟩ : ∃ first, first = block.take 0 ++ ntPrefix ++
        block.drop (0 + ntPrefix.length) := ⟨_, rfl⟩
    rw [← hfirst] at hlen₁ ⊢
    -- what is read is inside the buffer, so only the writes decide
    have hread : readFull full.buffer offset (full.dest - offset) =
        .ok ((full.buffer.drop offset).take (full.dest - offset)) := if_pos (by omega)
    rw [hread, Yields.ok_bind]
    obtain ⟨rest, hrest⟩ : ∃ rest, rest = (full.buffer.drop offset).take (full.dest - offset) :=
      ⟨_, rfl⟩
    have hcount : rest.length = full.dest - offset := by
      rw [hrest, List.length_take_of_le]
      rw [List.length_drop]
      omega
    rw [← hrest]
    -- the path is written behind the prefix, and then the null
    by_cases htwo : ntPrefix.length + rest.length ≤ first.length
    · rw [writeBlock_eq htwo, Yields.ok_bind]
      have hlen₂ := length_copied htwo
      obtain ⟨second, hsecond⟩ : ∃ second, second = first.take ntPrefix.length ++ rest ++
          first.drop (ntPrefix.length + rest.length) := ⟨_, rfl⟩
      rw [← hsecond] at hlen₂ ⊢
      by_cases hthree : ntPrefix.length + (full.dest - offset) + [(0 : WCHAR)].length ≤
          second.length
      · rw [writeBlock_eq hthree, Yields.ok_bind]
        have hlen₃ := length_copied hthree
        rw [List.length_singleton] at hthree
        refine ⟨fun _ => by omega, fun _ => ⟨nofun, fun p hp => ?_⟩⟩
        obtain rfl := Option.some.inj (Except.ok.inj hp)
        dsimp only
        omega
      · rw [writeBlock_overflow (Nat.lt_of_not_le hthree)]
        rw [List.length_singleton] at hthree
        exact ⟨fun hsafe => absurd rfl hsafe.1, fun hfits => absurd hfits (by omega)⟩
    · rw [writeBlock_overflow (Nat.lt_of_not_le htwo)]
      exact ⟨fun hsafe => absurd rfl hsafe.1, fun hfits => absurd hfits (by omega)⟩

/-- The writes stay in the block, which has room for the name and its null, exactly for the names
whose full path leaves room for the prefix. -/
theorem nt_path_fits_block (c : NtContext) (captureRelativeName filePart relativeName : Bool)
    (s : List WCHAR) :
    HeapSafe (rtlpDosPathNameToRelativeNtPathNameUstr c captureRelativeName filePart relativeName
      s) ↔ Fits c s := by
  unfold rtlpDosPathNameToRelativeNtPathNameUstr Fits
  cases hwin32 : isWin32Name s with
  | true =>
    have hlong : 4 < s.length := by
      unfold isWin32Name at hwin32
      exact of_decide_eq_true (Bool.and_eq_true_iff.mp hwin32).1
    exact ⟨fun _ => .inl rfl, fun _ => win32NtPath_safe c filePart hlong⟩
  | false =>
    rw [if_neg Bool.false_ne_true]
    cases hheap : c.heap (dosMaxPathLength + 1) with
    | none => exact ⟨fun _ => .inr (.inl rfl), fun _ => .none⟩
    | some block =>
      dsimp only
      have hstored := (stored_path c.toContext s (2 * dosMaxPathLength)
        c.staticDosBuffer.val).holds
      cases hfull : rtlGetFullPathNameUstr c.toContext s (2 * dosMaxPathLength)
          c.staticDosBuffer.val with
      | error fault =>
        -- nothing has been written to the block yet
        refine ⟨fun _ => .inr (.inr nofun), fun _ => ⟨nofun, nofun⟩⟩
      | ok p =>
        obtain ⟨inputPathType, out⟩ := p
        have hcomplete := hstored _ hfull
        rw [c.staticDosBuffer.property] at hcomplete
        cases out with
        | returned k =>
          refine ⟨fun _ => .inr (.inr fun p full part hp hout => ?_), fun _ => .none⟩
          obtain rfl := Except.ok.inj hp
          cases hout
        | stored full part =>
          obtain ⟨hsize, hdest, hnull⟩ := hcomplete
          -- the full path is stored, and its length decides
          have hsafe := @fullNtPath_safe c captureRelativeName filePart relativeName block.val full
            inputPathType part hsize hdest hnull block.property
          dsimp only
          rw [hsafe]
          constructor
          · intro hfits
            refine .inr (.inr fun p full' part' hp hout => ?_)
            obtain rfl := Except.ok.inj hp
            obtain ⟨rfl, -⟩ := Outcome.stored.inj hout
            exact hfits
          · rintro (h | h | hall)
            · cases h
            · cases h
            · exact hall _ full part rfl rfl

/-- `C:\aaa…\`, of 256 characters -/
def longDirectory : List WCHAR := driveRoot ++ List.replicate 252 0x61 ++ [backslash]

theorem length_staticDosBuffer :
    (List.replicate (dosMaxPathLength + 1) (0 : WCHAR)).length = dosMaxPathLength + 1 :=
  length_nulls _

/-- A process in that directory, whose heap has room. -/
def longNtContext : NtContext where
  toContext := { rootContext with dosPath := longDirectory, validDosPath := longDirectory }
  handle := some 4
  heap n := some ⟨List.replicate n 0, length_nulls n⟩
  staticDosBuffer := ⟨List.replicate (dosMaxPathLength + 1) 0, length_staticDosBuffer⟩

/-- The null behind a path of 257 characters is written outside the block. -/
theorem long_path_does_not_fit :
    ¬ ∀ (c : NtContext) (captureRelativeName filePart relativeName : Bool) (s : List WCHAR),
      HeapSafe (rtlpDosPathNameToRelativeNtPathNameUstr c captureRelativeName filePart
        relativeName s) := by
  intro h
  have hoverflow : rtlpDosPathNameToRelativeNtPathNameUstr longNtContext false false false
      [0x62] = .error .heap := by decide +kernel
  exact (h longNtContext false false false [0x62]).1 hoverflow

end Ldk.DosPath
