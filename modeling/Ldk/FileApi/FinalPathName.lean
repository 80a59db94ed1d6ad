import Ldk.DosPath.PathType
import Ldk.FileApi.FilePointer
import Ldk.Lib.OutputBuffer

/-!
# GetFinalPathNameByHandleW

The kernel gives the DOS name of a file in one of several forms, and the path is that name with
the prefix of its form replaced by `\\?\`. It is cut to the caller's buffer, and ended with a null
when there is room for one.

- The routine returns the length of the path without the null, whether or not there is room. So
  the size it asks for is one too small, and a second call with that size fails like the first.
- A name of none of the forms gets no prefix.
- `final_path_name_fits`: in every other case what is returned is right.

Lengths are in characters.
-/

namespace Ldk.FileApi

open OutputBuffer
open Ldk.DosPath (backslash questionMark colon charAt)

/-! ## The routine -/

def errorInvalidHandle : BitVec 32 := 6

/-- The flags of the name; `VOLUME_NAME_DOS` is none of them. -/
def volumeNameGuid : BitVec 32 := 1
def volumeNameNt : BitVec 32 := 2
def volumeNameNone : BitVec 32 := 4
def fileNameOpened : BitVec 32 := 8

/-- `DosDevicesPrefix`, which is `\DosDevices\`. -/
def dosDevicesPrefix : List WCHAR :=
  [backslash, 0x44, 0x6f, 0x73, 0x44, 0x65, 0x76, 0x69, 0x63, 0x65, 0x73, backslash]

/-- `NtDosDevicesPrefix` -/
def ntDosDevicesPrefix : List WCHAR := [backslash, questionMark, questionMark, backslash]

/-- `Win32DosDevicesPrefix` -/
def win32DosDevicesPrefix : List WCHAR := [backslash, backslash, questionMark, backslash]

/-- `PrefixBuffer` -/
def prefixBuffer : List WCHAR := [backslash, backslash, questionMark, backslash]

/-- What the kernel answers: a name or a status. -/
structure NameNative where
  /-- `ObReferenceObjectByHandle` and `IoQueryFileDosDeviceName` -/
  dosDeviceName : Except (BitVec 32) (List WCHAR)
  /-- `RtlAllocateHeap` and `ZwQueryInformationFile` of `FileNameInformation` -/
  fileName : Except (BitVec 32) (List WCHAR)
  ntStatusToDosError : BitVec 32 → BitVec 32

/-- What the routine returns, leaves in the buffer and sets as the last error. -/
structure FinalPath where
  returned : Nat
  buffer : List WCHAR
  lastError : Option (BitVec 32)
  deriving DecidableEq, Repr

/-- `RawLength` and `RtlCompareMemory` -/
def startsWith (name text : List WCHAR) : Bool :=
  decide (text.length ≤ name.length) && name.take text.length == text

/-- `SourceNameOffset` and `PrefixLength` -/
def nameForm (name : List WCHAR) : Nat × Nat :=
  if startsWith name dosDevicesPrefix then (dosDevicesPrefix.length, prefixBuffer.length)
  else if startsWith name ntDosDevicesPrefix then (ntDosDevicesPrefix.length, prefixBuffer.length)
  else if startsWith name win32DosDevicesPrefix then (0, 0)
  else if 3 ≤ name.length ∧ charAt name 1 = colon ∧ charAt name 2 = backslash then
    (0, prefixBuffer.length)
  else (0, 0)

/-- The prefix: the buffer and `SourceOffset`. -/
def copyPrefix (buffer : List WCHAR) (prefixLength remainingLength : Nat) :
    Except Outside (List WCHAR × Nat) :=
  if prefixLength ≠ 0 ∧ remainingLength ≠ 0 then do
    let prefixCopyLength := if prefixLength < remainingLength then prefixLength else remainingLength
    let buffer ← copy buffer 0 prefixBuffer 0 prefixCopyLength
    return (buffer, prefixCopyLength)
  else .ok (buffer, 0)

/-- The name behind the prefix. -/
def copyRemaining (buffer name : List WCHAR) (prefixOffset sourceOffset remainingLength : Nat) :
    Except Outside (List WCHAR) :=
  if remainingLength ≠ 0 then copy buffer sourceOffset name prefixOffset remainingLength
  else .ok buffer

/-- The path is put into the buffer; without a prefix, this is how it is put there for the other
flags too. -/
def copyName (name : List WCHAR) (sourceNameOffset prefixLength : Nat) (buffer : List WCHAR) :
    Except Outside (List WCHAR) :=
  let requiredLength := prefixLength + name.length - sourceNameOffset
  let cchFilePath := buffer.length
  if cchFilePath ≠ 0 then do
    let copyLength := if requiredLength < cchFilePath then requiredLength else cchFilePath
    let (buffer, sourceOffset) ← copyPrefix buffer prefixLength copyLength
    let prefixOffset := sourceNameOffset + sourceOffset - prefixLength
    let buffer ← copyRemaining buffer name prefixOffset sourceOffset (copyLength - sourceOffset)
    if requiredLength < cchFilePath then put buffer requiredLength [0] else .ok buffer
  else .ok buffer

/-- `GetFinalPathNameByHandleW`; the buffer is as long as `cchFilePath` says, unless it is
`NULL`. -/
def getFinalPathNameByHandleW (native : NameNative) (hFile : BitVec 64)
    (lpszFilePath : Option (List WCHAR)) (cchFilePath : Nat) (dwFlags : BitVec 32) :
    Except Outside FinalPath := do
  let buffer := lpszFilePath.getD []
  let fails (error : BitVec 32) : Except Outside FinalPath := .ok ⟨0, buffer, some error⟩
  let volumeFlags := volumeNameGuid ||| volumeNameNt ||| volumeNameNone
  if hFile = 0 ∨ hFile = -1 then fails errorInvalidHandle
  else if cchFilePath ≠ 0 ∧ lpszFilePath = none then fails errorInvalidParameter
  else if dwFlags &&& ~~~(volumeFlags ||| fileNameOpened) ≠ 0 then fails errorInvalidParameter
  else if dwFlags &&& volumeFlags = 0 then
    match native.dosDeviceName with
    | .error status => fails (native.ntStatusToDosError status)
    | .ok name =>
      let (sourceNameOffset, prefixLength) := nameForm name
      let buffer ← copyName name sourceNameOffset prefixLength buffer
      return ⟨prefixLength + name.length - sourceNameOffset, buffer, none⟩
  else if dwFlags &&& volumeFlags = volumeNameNt ∨ dwFlags &&& volumeFlags = volumeNameNone then
    match native.fileName with
    | .error status => fails (native.ntStatusToDosError status)
    | .ok name =>
      let buffer ← copyName name 0 0 buffer
      return ⟨name.length, buffer, none⟩
  else fails errorInvalidParameter

/-! ## The path that is asked for -/

/-- A name of one of the four forms. -/
def HasForm (name : List WCHAR) : Prop :=
  startsWith name dosDevicesPrefix = true ∨ startsWith name ntDosDevicesPrefix = true ∨
    startsWith name win32DosDevicesPrefix = true ∨
      3 ≤ name.length ∧ charAt name 1 = colon ∧ charAt name 2 = backslash

/-- The name without the prefix of its form. -/
def bareName (name : List WCHAR) : List WCHAR :=
  if startsWith name dosDevicesPrefix then name.drop dosDevicesPrefix.length
  else if startsWith name ntDosDevicesPrefix then name.drop ntDosDevicesPrefix.length
  else if startsWith name win32DosDevicesPrefix then name.drop win32DosDevicesPrefix.length
  else name

/-- The path with its one prefix. -/
def wholePath (name : List WCHAR) : List WCHAR := prefixBuffer ++ bareName name

/-- A call for the DOS name of a file. -/
structure DosCall (native : NameNative) (hFile : BitVec 64) (dwFlags : BitVec 32)
    (name : List WCHAR) : Prop where
  name : native.dosDeviceName = .ok name
  hFile : hFile ≠ 0 ∧ hFile ≠ -1
  dwFlags : dwFlags = 0 ∨ dwFlags = fileNameOpened

/-- What is returned is right for a name of the kernel. -/
structure RightPath (native : NameNative) (hFile : BitVec 64) (dwFlags : BitVec 32)
    (name : List WCHAR) (cchFilePath : Nat) (final : FinalPath) : Prop where
  /-- The path is stored exactly when its length says so. -/
  stored : 0 < final.returned ∧ final.returned < cchFilePath ↔
    Holds final.buffer (wholePath name ++ [0])
  /-- A buffer of the size that is asked for is large enough. -/
  again : 0 < final.returned → cchFilePath ≤ final.returned →
    ∀ buffer : List WCHAR, buffer.length = final.returned →
      Yields (getFinalPathNameByHandleW native hFile (some buffer) buffer.length dwFlags)
        fun final' => 0 < final'.returned ∧ final'.returned < buffer.length

/-! ## What the routine stores -/

/-- The path as the routine puts it together. -/
def finalPath (name : List WCHAR) : List WCHAR :=
  prefixBuffer.take (nameForm name).2 ++ name.drop (nameForm name).1

variable {native : NameNative} {hFile : BitVec 64} {dwFlags : BitVec 32}
  {name text buffer : List WCHAR}

theorem startsWith_iff :
    startsWith name text = true ↔ text.length ≤ name.length ∧ name.take text.length = text := by
  unfold startsWith
  rw [Bool.and_eq_true, decide_eq_true_iff, beq_iff_eq]

theorem startsWith_append (h : startsWith name text = true) :
    text ++ name.drop text.length = name := by
  have htake := (startsWith_iff.1 h).2
  conv_rhs => rw [← List.take_append_drop text.length name, htake]

/-- The prefix that is replaced lies in the name, and the one that is put in `PrefixBuffer`. -/
theorem nameForm_le (name : List WCHAR) :
    (nameForm name).1 ≤ name.length ∧ (nameForm name).2 ≤ prefixBuffer.length := by
  unfold nameForm
  split
  · exact ⟨(startsWith_iff.1 ‹_›).1, Nat.le_refl _⟩
  · split
    · exact ⟨(startsWith_iff.1 ‹_›).1, Nat.le_refl _⟩
    · split
      · exact ⟨Nat.zero_le _, Nat.zero_le _⟩
      · split
        · exact ⟨Nat.zero_le _, Nat.le_refl _⟩
        · exact ⟨Nat.zero_le _, Nat.zero_le _⟩

theorem finalPath_of_form (h : HasForm name) : finalPath name = wholePath name := by
  unfold finalPath wholePath nameForm bareName
  by_cases hdos : startsWith name dosDevicesPrefix = true
  · rw [if_pos hdos, if_pos hdos, List.take_length]
  · rw [if_neg hdos, if_neg hdos]
    by_cases hnt : startsWith name ntDosDevicesPrefix = true
    · rw [if_pos hnt, if_pos hnt, List.take_length]
    · rw [if_neg hnt, if_neg hnt]
      by_cases hwin32 : startsWith name win32DosDevicesPrefix = true
      · -- the prefix of the name is the one that is to be put before it
        rw [if_pos hwin32, if_pos hwin32]
        exact (startsWith_append hwin32).symm
      · have hdrive := ((h.resolve_left hdos).resolve_left hnt).resolve_left hwin32
        rw [if_neg hwin32, if_neg hwin32, if_pos hdrive]
        rfl

theorem finalPath_of_no_form (h : ¬ HasForm name) :
    finalPath name = name ∧ wholePath name = prefixBuffer ++ name := by
  unfold HasForm at h
  push Not at h
  obtain ⟨hdos, hnt, hwin32, hdrive⟩ := h
  have hdrive' : ¬ (3 ≤ name.length ∧ charAt name 1 = colon ∧ charAt name 2 = backslash) :=
    fun ⟨hlength, hcolon, hbackslash⟩ => hdrive hlength hcolon hbackslash
  unfold finalPath wholePath nameForm bareName
  rw [if_neg hdos, if_neg hdos, if_neg hnt, if_neg hnt, if_neg hwin32, if_neg hwin32,
    if_neg hdrive']
  exact ⟨rfl, rfl⟩

theorem length_finalPath (name : List WCHAR) :
    (finalPath name).length = (nameForm name).2 + name.length - (nameForm name).1 := by
  obtain ⟨hoffset, hpre⟩ := nameForm_le name
  unfold finalPath
  rw [List.length_append, List.length_take_of_le hpre, List.length_drop]
  omega

/-- The prefix is written as far as the path is to be. -/
theorem copyPrefix_spec {prefixLength length : Nat} (hpre : prefixLength ≤ prefixBuffer.length)
    (hlength : length ≤ buffer.length) (rest : List WCHAR) :
    Yields (copyPrefix buffer prefixLength length) fun copied =>
      copied.2 = min prefixLength length ∧
        OutputBuffer.Written buffer.length (prefixBuffer.take prefixLength ++ rest) copied.2 copied.1 := by
  have hnothing := OutputBuffer.Written.nothing buffer (prefixBuffer.take prefixLength ++ rest)
  unfold copyPrefix
  apply Yields.ite
  · intro _
    dsimp only
    have hmin : (if prefixLength < length then prefixLength else length) =
        min prefixLength length := by
      split_ifs <;> omega
    rw [hmin]
    apply (hnothing.copy (by omega) ?_ (by omega)).bind
    · intro buffer' hwritten
      rw [Nat.zero_add] at hwritten
      exact .ok ⟨rfl, hwritten⟩
    · rw [List.drop_zero, List.drop_zero, List.take_append_of_le_length, List.take_take,
        Nat.min_eq_left (Nat.min_le_left _ _)]
      rw [List.length_take_of_le hpre]
      exact Nat.min_le_left _ _
  · intro hzero
    apply Yields.ok
    refine ⟨?_, hnothing⟩
    change 0 = min prefixLength length
    omega

/-- The name is written behind the prefix. -/
theorem copyRemaining_spec {pre : List WCHAR} {n offset copied length : Nat}
    (hoffset : offset ≤ name.length) (hcopied : copied = min pre.length length)
    (hlength : length ≤ (pre ++ name.drop offset).length) (hroom : length ≤ n)
    (h : OutputBuffer.Written n (pre ++ name.drop offset) copied buffer) :
    Yields (copyRemaining buffer name (offset + copied - pre.length) copied (length - copied))
      (OutputBuffer.Written n (pre ++ name.drop offset) length) := by
  rw [List.length_append, List.length_drop] at hlength
  unfold copyRemaining
  apply Yields.ite
  · intro hne
    have hpre : copied = pre.length := by omega
    subst hpre
    have hend : pre.length + (length - pre.length) = length := by omega
    rw [Nat.add_sub_cancel]
    apply (h.copy (by omega) ?_ (by omega)).mono
    · intro buffer' hwritten
      rwa [hend] at hwritten
    · rw [List.drop_left]
  · intro hzero
    apply Yields.ok
    obtain rfl : copied = length := by omega
    exact h

/-- As much of the path as fits is written, and the null behind it when there is room. -/
theorem copyName_spec (name buffer : List WCHAR) :
    Yields (copyName name (nameForm name).1 (nameForm name).2 buffer) fun buffer' =>
      buffer'.length = buffer.length ∧
        ((finalPath name).length < buffer.length → Holds buffer' (finalPath name ++ [0])) := by
  obtain ⟨hoffset, hfits⟩ := nameForm_le name
  have hlength := length_finalPath name
  have hpre : (prefixBuffer.take (nameForm name).2).length = (nameForm name).2 :=
    List.length_take_of_le hfits
  unfold copyName
  rw [← hlength]
  apply Yields.ite
  · intro _
    dsimp only
    have hmin : (if (finalPath name).length < buffer.length then (finalPath name).length
        else buffer.length) = min (finalPath name).length buffer.length := by
      split_ifs <;> omega
    rw [hmin]
    apply (copyPrefix_spec hfits (by omega) (name.drop (nameForm name).1)).bind
    rintro ⟨buffer', copied⟩ ⟨hcopied, hwritten⟩
    dsimp only at hcopied hwritten ⊢
    have hremaining := copyRemaining_spec hoffset (by rw [hpre]; exact hcopied)
      (Nat.min_le_left (finalPath name).length buffer.length) (Nat.min_le_right _ _) hwritten
    rw [hpre] at hremaining
    apply hremaining.bind
    intro buffer'' hall
    apply Yields.ite
    · intro hroom
      rw [Nat.min_eq_left (Nat.le_of_lt hroom)] at hall
      have hput : Yields (put buffer'' (finalPath name).length [0]) fun buffer' =>
          buffer'.length = buffer.length ∧ Holds buffer' (finalPath name ++ [0]) :=
        Holds.append hall.holds hall.size hroom
      exact hput.mono fun _ h => ⟨h.1, fun _ => h.2⟩
    · intro hno
      exact .ok ⟨hall.size, fun hroom => absurd hroom hno⟩
  · intro hzero
    exact .ok ⟨rfl, fun hroom => by omega⟩

/-! ## What it returns -/

/-- A call for the DOS name copies the name the kernel gives. -/
theorem DosCall.run (h : DosCall native hFile dwFlags name) (buffer : List WCHAR) :
    Yields (getFinalPathNameByHandleW native hFile (some buffer) buffer.length dwFlags)
      fun final => final.returned = (finalPath name).length ∧
        final.buffer.length = buffer.length ∧
          ((finalPath name).length < buffer.length →
            Holds final.buffer (finalPath name ++ [0])) := by
  have hflags :
      dwFlags &&& ~~~(volumeNameGuid ||| volumeNameNt ||| volumeNameNone ||| fileNameOpened) = 0 ∧
        dwFlags &&& (volumeNameGuid ||| volumeNameNt ||| volumeNameNone) = 0 := by
    obtain rfl | rfl := h.dwFlags
    · decide
    · decide
  unfold getFinalPathNameByHandleW
  dsimp only [Option.getD_some]
  rw [if_neg (fun hno => hno.elim h.hFile.1 h.hFile.2), if_neg (fun hno => nomatch hno.2),
    if_neg (fun hno => hno hflags.1), if_pos hflags.2, h.name]
  apply (copyName_spec name buffer).bind
  intro buffer' hcopied
  exact .ok ⟨(length_finalPath name).symm, hcopied⟩

/-- A buffer does not begin with the path when it begins with a name of none of the forms. -/
theorem not_holds_wholePath (h : ¬ HasForm name) (hholds : Holds buffer (name ++ [0])) :
    ¬ Holds buffer (wholePath name ++ [0]) := by
  intro hwhole
  rw [(finalPath_of_no_form h).2] at hwhole
  have heq : name ++ [0] = (prefixBuffer ++ (name ++ [0])).take (name.length + 1) := by
    have hlength : (name ++ [0]).length = name.length + 1 := List.length_append
    rw [← List.append_assoc, ← hwhole, List.take_take, Nat.min_eq_left, ← hlength]
    · exact hholds.symm
    · rw [List.length_append, List.length_append]
      exact Nat.add_le_add_right (Nat.le_add_left _ _) 1
  by_cases hlong : prefixBuffer.length ≤ name.length
  · -- the name itself begins with `\\?\`
    have htake := congrArg (List.take prefixBuffer.length) heq
    rw [List.take_append_of_le_length hlong, List.take_take, Nat.min_eq_left (by omega),
      List.take_left] at htake
    exact h (.inr (.inr (.inl (startsWith_iff.2 ⟨hlong, htake⟩))))
  · -- the null is where `\\?\` has a character
    have hnull := congrArg (·[name.length]?) heq
    rw [List.getElem?_append_right (Nat.le_refl _), Nat.sub_self,
      List.getElem?_take_of_lt (Nat.lt_succ_self _),
      List.getElem?_append_left (Nat.lt_of_not_le hlong)] at hnull
    have hmem : (0 : WCHAR) ∈ prefixBuffer := List.mem_of_getElem? hnull.symm
    exact absurd hmem (by decide)

theorem finalPath_ne_nil (h : HasForm name) : 0 < (finalPath name).length := by
  rw [finalPath_of_form h]
  unfold wholePath
  rw [List.length_append]
  exact Nat.lt_of_lt_of_le (by decide : 0 < prefixBuffer.length) (Nat.le_add_right _ _)

theorem length_finalPath_eq_zero : (finalPath name).length = 0 ↔ name = [] := by
  constructor
  · intro hzero
    have hno : ¬ HasForm name := fun hform => Nat.ne_of_gt (finalPath_ne_nil hform) hzero
    rw [(finalPath_of_no_form hno).1] at hzero
    exact List.eq_nil_of_length_eq_zero hzero
  · rintro rfl
    rfl

/-- A second call with the size that has been returned has no room for the null. -/
theorem DosCall.not_again (h : DosCall native hFile dwFlags name)
    (hlength : buffer.length = (finalPath name).length) :
    ¬ Yields (getFinalPathNameByHandleW native hFile (some buffer) buffer.length dwFlags)
      fun final => 0 < final.returned ∧ final.returned < buffer.length := by
  rintro ⟨final, hrun, -, hlt⟩
  obtain ⟨final', hrun', hreturned, -⟩ := h.run buffer
  obtain rfl : final' = final := Except.ok.inj (hrun'.symm.trans hrun)
  omega

/-- What is returned is right exactly when there is nothing to return, or the name has one of the
forms and there is room for the path and a null. -/
theorem final_path_name_fits (native : NameNative) (hFile : BitVec 64) (dwFlags : BitVec 32)
    (name buffer : List WCHAR) (h : DosCall native hFile dwFlags name) :
    Yields (getFinalPathNameByHandleW native hFile (some buffer) buffer.length dwFlags)
      fun final => final.buffer.length = buffer.length ∧
        (RightPath native hFile dwFlags name buffer.length final ↔
          name = [] ∨ HasForm name ∧ (wholePath name).length < buffer.length) := by
  apply (h.run buffer).mono
  rintro final ⟨hreturned, hsize, hstores⟩
  refine ⟨hsize, ?_⟩
  have hzero : final.returned = 0 ↔ name = [] := by rw [hreturned, length_finalPath_eq_zero]
  rw [← hreturned] at hstores
  constructor
  · intro hright
    by_cases hnil : name = []
    · exact .inl hnil
    have hpos : 0 < final.returned := Nat.pos_of_ne_zero fun h => hnil (hzero.1 h)
    have hroom : final.returned < buffer.length := by
      by_contra hno
      have hlength : (List.replicate final.returned (0 : WCHAR)).length = final.returned :=
        List.length_replicate
      -- a buffer of the size that was asked for is too small again
      exact h.not_again (hlength.trans hreturned)
        (hright.again hpos (Nat.le_of_not_lt hno) _ hlength)
    have hform : HasForm name := by
      by_contra hno
      -- a name without a drive letter or a share is cut where the form would begin
      have hholds := hstores hroom
      rw [(finalPath_of_no_form hno).1] at hholds
      exact not_holds_wholePath hno hholds (hright.stored.1 ⟨hpos, hroom⟩)
    rw [hreturned, finalPath_of_form hform] at hroom
    exact .inr ⟨hform, hroom⟩
  · rintro (hnil | ⟨hform, hroom⟩)
    · have hreturns : final.returned = 0 := hzero.2 hnil
      have hno : ¬ HasForm name := fun hform =>
        Nat.ne_of_gt (finalPath_ne_nil hform) (hreturned.symm.trans hreturns)
      refine ⟨iff_of_false (fun hlt => Nat.ne_of_gt hlt.1 hreturns) fun hholds => ?_,
        fun hpos => absurd hreturns (Nat.ne_of_gt hpos)⟩
      -- a buffer that has room for the path has room for the null alone
      have hroom : final.returned < buffer.length := by
        have hlength := hholds.length_le
        rw [List.length_append, List.length_singleton] at hlength
        omega
      have hnull := hstores hroom
      rw [(finalPath_of_no_form hno).1] at hnull
      exact not_holds_wholePath hno hnull hholds
    · rw [← finalPath_of_form hform, ← hreturned] at hroom
      have hholds := hstores hroom
      rw [finalPath_of_form hform] at hholds
      have hpos : 0 < final.returned := by
        rw [hreturned]
        exact finalPath_ne_nil hform
      exact ⟨iff_of_true ⟨hpos, hroom⟩ hholds, fun _ hle => absurd hroom (Nat.not_lt_of_le hle)⟩

/-- `\DosDevices\C:\a` -/
def plainName : List WCHAR := dosDevicesPrefix ++ [0x43, colon, backslash, 0x61]

/-- A kernel that gives this name. -/
def naming (name : List WCHAR) : NameNative := ⟨.ok name, .ok name, fun _ => 0⟩

theorem plain_name_fits :
    Yields (getFinalPathNameByHandleW (naming plainName) 4 (some (List.replicate 9 0)) 9 0)
      fun final => final.buffer.length = 9 ∧
        (RightPath (naming plainName) 4 0 plainName 9 final ↔
          plainName = [] ∨ HasForm plainName ∧ (wholePath plainName).length < 9) :=
  final_path_name_fits (naming plainName) 4 0 plainName (List.replicate 9 0)
    ⟨rfl, by decide, .inl rfl⟩

/-- For `\\?\C:\a` a buffer of six characters is too small, and so is one of the eight that are
asked for. -/
theorem size_is_one_too_small :
    ¬ ∀ buffer : List WCHAR,
      Yields (getFinalPathNameByHandleW (naming plainName) 4 (some buffer) buffer.length 0)
        (RightPath (naming plainName) 4 0 plainName buffer.length) := by
  intro h
  have hcall : DosCall (naming plainName) 4 0 plainName := ⟨rfl, by decide, .inl rfl⟩
  obtain ⟨final, hrun, hright⟩ := h (List.replicate 6 0)
  obtain ⟨final', hrun', hreturned, -⟩ := hcall.run (List.replicate 6 0)
  obtain rfl : final' = final := Except.ok.inj (hrun'.symm.trans hrun)
  have height : (finalPath plainName).length = 8 := by decide
  rw [height] at hreturned
  have hagain := hright.again (by rw [hreturned]; decide) (by rw [hreturned]; decide)
    (List.replicate 8 0) hreturned.symm
  exact hcall.not_again (List.length_replicate.trans height.symm) hagain

end Ldk.FileApi
