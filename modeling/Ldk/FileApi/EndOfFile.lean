import Ldk.FileApi.FilePointer

/-!
# SetEndOfFile and FileEndOfFileInfo

`SetFileInformationByHandle` with `FileEndOfFileInfo` moves the file to the size it is asked for
and calls `SetEndOfFile`, which ends the file at its position and then sets the allocation.

- The file stays where it has been moved to, and the calls before one that fails have taken effect.
- The change is exact and leaves all else alone when the file is not moved and the allocation does
  not fail after a change of the size (`end_of_file_is_framed`).

A native call that fails changes nothing.
-/

namespace Ldk.FileApi

/-! ## The native calls -/

/-- A file with the space that is allocated for it. -/
structure SizedFile where
  file : State
  allocationSize : BitVec 64
  deriving DecidableEq, Repr

/-- What `ZwSetInformationFile` returns for `FileEndOfFileInformation` and
`FileAllocationInformation`. -/
structure SizeNative extends Native where
  endOfFileStatus : BitVec 32
  allocationStatus : BitVec 32

namespace SizedFile

variable (f : SizedFile)

/-- `LdkSetLastNTError` -/
def setLastNTError (native : Native) (status : BitVec 32) : SizedFile :=
  { f with file := f.file.setLastNTError native status }

/-- `SetLastError` -/
def setLastError (error : BitVec 32) : SizedFile := { f with file := f.file.setLastError error }

/-- `ZwSetInformationFile` of `FileEndOfFileInformation`, when it succeeds. -/
def setEnd (endOfFile : BitVec 64) : SizedFile :=
  { f with file := { f.file with endOfFile := endOfFile } }

/-- `ZwSetInformationFile` of `FileAllocationInformation`, when it succeeds. A file does not reach
beyond its allocation. -/
def setAllocation (allocationSize : BitVec 64) : SizedFile where
  file := { f.file with
    endOfFile := if allocationSize.slt f.file.endOfFile then allocationSize else f.file.endOfFile }
  allocationSize := allocationSize

end SizedFile

/-! ## The two routines -/

def errorInsufficientBuffer : BitVec 32 := 122

/-- `sizeof(FILE_END_OF_FILE_INFO)` -/
def sizeofEndOfFileInfo : BitVec 32 := 8

/-- `SetEndOfFile` -/
def setEndOfFile (native : SizeNative) (f : SizedFile) : BitVec 32 × SizedFile :=
  if ! ntSuccess native.queryStatus then (0, f.setLastNTError native.toNative native.queryStatus)
  else
    let currentByteOffset := f.file.position
    if ! ntSuccess native.endOfFileStatus then
      (0, f.setLastNTError native.toNative native.endOfFileStatus)
    else
      let f := f.setEnd currentByteOffset
      if ntSuccess native.allocationStatus then (1, f.setAllocation currentByteOffset)
      else (0, f.setLastNTError native.toNative native.allocationStatus)

/-- `SetFileInformationByHandle` with `FileEndOfFileInfo` -/
def setEndOfFileInfo (native : SizeNative) (f : SizedFile) (endOfFile : BitVec 64)
    (bufferSize : BitVec 32) : BitVec 32 × SizedFile :=
  if bufferSize < sizeofEndOfFileInfo then (0, f.setLastError errorInsufficientBuffer)
  else
    let moved := setFilePointerEx native.toNative f.file endOfFile fileBegin
    if moved.1.returned = 0 then (0, { f with file := moved.2 })
    else setEndOfFile native { f with file := moved.2 }

/-! ## The frame and the conditions -/

/-- Neither the size nor the position is another. -/
def SameExtent (f f' : SizedFile) : Prop :=
  f'.file.endOfFile = f.file.endOfFile ∧ f'.file.position = f.file.position

/-- A routine that fails has changed nothing. -/
def FailsCleanly (f : SizedFile) (run : BitVec 32 × SizedFile) : Prop :=
  run.1 = 0 → SameExtent f run.2

/-- The end of the file is where it was asked for, and the position where it was. -/
def EndsExactly (f : SizedFile) (endOfFile : BitVec 64) (run : BitVec 32 × SizedFile) : Prop :=
  run.1 ≠ 0 → run.2.file.endOfFile = endOfFile ∧ run.2.file.position = f.file.position

/-- The allocation fails after the size has been set to another. -/
def AllocationFailsLate (native : SizeNative) (f : SizedFile) (endOfFile : BitVec 64) : Prop :=
  ntSuccess native.queryStatus = true ∧ ntSuccess native.endOfFileStatus = true ∧
    ntSuccess native.allocationStatus = false ∧ f.file.endOfFile ≠ endOfFile

/-- The file is moved to where its end is to be. -/
def MovesTo (native : SizeNative) (endOfFile : BitVec 64) (bufferSize : BitVec 32) : Prop :=
  ¬ bufferSize < sizeofEndOfFileInfo ∧ ¬ endOfFile.slt 0 ∧ ntSuccess native.setStatus = true

/-! ## SetEndOfFile -/

section Routines

variable {native : SizeNative} {f : SizedFile}

/-- Whatever fails, the position stays. -/
theorem setEndOfFile_position (native : SizeNative) (f : SizedFile) :
    (setEndOfFile native f).2.file.position = f.file.position := by
  unfold setEndOfFile
  split_ifs <;> rfl

theorem setEndOfFile_success (h : (setEndOfFile native f).1 ≠ 0) :
    (setEndOfFile native f).2.file.endOfFile = f.file.position := by
  unfold setEndOfFile at h ⊢
  split_ifs at h ⊢
  case pos => exact absurd rfl h
  case pos => exact absurd rfl h
  case pos =>
    -- the allocation is as large as the file, and cuts nothing off
    change (if f.file.position.slt f.file.position then _ else _) = _
    split_ifs <;> rfl
  case neg => exact absurd rfl h

/-- The size is another after a failure only when the last of the calls has failed. -/
theorem setEndOfFile_failure (h : (setEndOfFile native f).1 = 0) :
    (setEndOfFile native f).2.file.endOfFile = f.file.endOfFile ↔
      ¬ AllocationFailsLate native f f.file.position := by
  unfold AllocationFailsLate
  unfold setEndOfFile at h ⊢
  split_ifs at h ⊢ with hquery hend hallocation
  case pos =>
    refine iff_of_true rfl fun hlate => ?_
    rw [hlate.1] at hquery
    cases hquery
  case pos =>
    refine iff_of_true rfl fun hlate => ?_
    rw [hlate.2.1] at hend
    cases hend
  case pos => cases h
  case neg =>
    rw [Bool.not_eq_true, Bool.not_eq_false'] at hquery hend
    rw [Bool.not_eq_true] at hallocation
    change f.file.position = f.file.endOfFile ↔ _
    constructor
    · intro heq hlate
      exact hlate.2.2.2 heq.symm
    · intro hno
      by_contra hne
      exact hno ⟨hquery, hend, hallocation, fun heq => hne heq.symm⟩

theorem setEndOfFile_failsCleanly_iff :
    FailsCleanly f (setEndOfFile native f) ↔ ¬ AllocationFailsLate native f f.file.position := by
  constructor
  · intro hclean hlate
    have hzero : (setEndOfFile native f).1 = 0 := by
      unfold setEndOfFile
      rw [hlate.1, hlate.2.1, hlate.2.2.1]
      rfl
    exact (setEndOfFile_failure hzero).1 (hclean hzero).1 hlate
  · intro hno hzero
    exact ⟨(setEndOfFile_failure hzero).2 hno, setEndOfFile_position native f⟩

/-! ## FileEndOfFileInfo -/

variable {endOfFile : BitVec 64} {bufferSize : BitVec 32}

/-- A move from the start of the file. -/
theorem setFilePointerEx_begin (native : Native) (s : State) (position : BitVec 64) :
    let run := setFilePointerEx native s position fileBegin
    run.2.endOfFile = s.endOfFile ∧
      (if ¬ position.slt 0 ∧ ntSuccess native.setStatus = true then
        run.1.returned = 1 ∧ run.2.position = position
      else run.1.returned = 0 ∧ run.2.position = s.position) := by
  have horigin : native.origin s fileBegin = .offset 0 := if_pos rfl
  have hzero : position + 0 = position := by simp
  unfold setFilePointerEx
  rw [horigin]
  dsimp only
  rw [hzero]
  by_cases hmoves : ¬ position.slt 0 = true ∧ ntSuccess native.setStatus = true
  · rw [if_pos hmoves, if_neg hmoves.1, if_pos hmoves.2]
    split_ifs
    · exact ⟨rfl, rfl, rfl⟩
    · exact ⟨rfl, rfl, rfl⟩
  · rw [if_neg hmoves]
    by_cases hnegative : position.slt 0 = true
    · rw [if_pos hnegative]
      exact ⟨rfl, rfl, rfl⟩
    · have hset : ¬ ntSuccess native.setStatus = true := fun hset => hmoves ⟨hnegative, hset⟩
      rw [if_neg hnegative, if_neg hset]
      exact ⟨rfl, rfl, rfl⟩

/-- The file is not moved, and nothing else is done. -/
theorem setEndOfFileInfo_of_not_movesTo (h : ¬ MovesTo native endOfFile bufferSize) :
    (setEndOfFileInfo native f endOfFile bufferSize).1 = 0 ∧
      SameExtent f (setEndOfFileInfo native f endOfFile bufferSize).2 := by
  unfold setEndOfFileInfo
  by_cases hsize : bufferSize < sizeofEndOfFileInfo
  · rw [if_pos hsize]
    exact ⟨rfl, rfl, rfl⟩
  · obtain ⟨hsame, hmove⟩ := setFilePointerEx_begin native.toNative f.file endOfFile
    rw [if_neg fun hmoves => h ⟨hsize, hmoves⟩] at hmove
    rw [if_neg hsize]
    dsimp only
    rw [if_pos hmove.1]
    exact ⟨rfl, hsame, hmove.2⟩

/-- The file is moved, and ends where it has been moved to. -/
theorem setEndOfFileInfo_of_movesTo (h : MovesTo native endOfFile bufferSize) :
    ∃ moved : SizedFile, setEndOfFileInfo native f endOfFile bufferSize =
        setEndOfFile native moved ∧
      moved.file.position = endOfFile ∧ moved.file.endOfFile = f.file.endOfFile := by
  obtain ⟨hsize, hmoves⟩ := h
  obtain ⟨hsame, hmove⟩ := setFilePointerEx_begin native.toNative f.file endOfFile
  rw [if_pos hmoves] at hmove
  refine ⟨{ f with file := (setFilePointerEx native.toNative f.file endOfFile fileBegin).2 }, ?_,
    hmove.2, hsame⟩
  unfold setEndOfFileInfo
  rw [if_neg hsize]
  dsimp only
  rw [if_neg]
  rw [hmove.1]
  decide

/-- The change is exact and framed when the file is where its end is to be, or is not moved, and no
call fails too late. -/
theorem setEndOfFileInfo_iff :
    (EndsExactly f endOfFile (setEndOfFileInfo native f endOfFile bufferSize) ∧
        FailsCleanly f (setEndOfFileInfo native f endOfFile bufferSize)) ↔
      (MovesTo native endOfFile bufferSize →
        f.file.position = endOfFile ∧ ¬ AllocationFailsLate native f endOfFile) := by
  by_cases hmoves : MovesTo native endOfFile bufferSize
  case neg =>
    obtain ⟨hzero, hsame⟩ :=
      @setEndOfFileInfo_of_not_movesTo native f endOfFile bufferSize hmoves
    refine iff_of_true ⟨fun hne => absurd hzero hne, fun _ => hsame⟩ fun h => absurd h hmoves
  case pos =>
    obtain ⟨moved, hrun, hposition, hend⟩ :=
      @setEndOfFileInfo_of_movesTo native f endOfFile bufferSize hmoves
    have hstays := setEndOfFile_position native moved
    rw [hposition] at hstays
    rw [hrun, forall_prop_of_true hmoves]
    constructor
    · rintro ⟨hexact, hclean⟩
      have hsame : f.file.position = endOfFile := by
        by_cases hzero : (setEndOfFile native moved).1 = 0
        · exact (hclean hzero).2.symm.trans hstays
        · exact (hexact hzero).2.symm.trans hstays
      refine ⟨hsame, fun hlate => ?_⟩
      have hmoved : AllocationFailsLate native moved moved.file.position := by
        unfold AllocationFailsLate at hlate ⊢
        rw [hposition, hend]
        exact hlate
      apply setEndOfFile_failsCleanly_iff.1 ?_ hmoved
      intro hzero
      exact ⟨(hclean hzero).1.trans hend.symm, setEndOfFile_position native moved⟩
    · rintro ⟨hsame, hlate⟩
      constructor
      · intro hne
        exact ⟨(setEndOfFile_success hne).trans hposition, hstays.trans hsame.symm⟩
      · intro hzero
        refine ⟨((setEndOfFile_failure hzero).2 ?_).trans hend, hstays.trans hsame.symm⟩
        unfold AllocationFailsLate at hlate ⊢
        rw [hposition, hend]
        exact hlate

end Routines

/-- `FileEndOfFileInfo` is exact and framed exactly when it does not move the file and no call fails
too late; `SetEndOfFile` fails cleanly exactly when no call fails too late. -/
theorem end_of_file_is_framed (native : SizeNative) (f : SizedFile) :
    (∀ endOfFile bufferSize,
      (EndsExactly f endOfFile (setEndOfFileInfo native f endOfFile bufferSize) ∧
          FailsCleanly f (setEndOfFileInfo native f endOfFile bufferSize)) ↔
        (MovesTo native endOfFile bufferSize →
          f.file.position = endOfFile ∧ ¬ AllocationFailsLate native f endOfFile)) ∧
      (FailsCleanly f (setEndOfFile native f) ↔
        ¬ AllocationFailsLate native f f.file.position) :=
  ⟨fun _ _ => setEndOfFileInfo_iff, setEndOfFile_failsCleanly_iff⟩

/-- A file system whose calls all succeed. -/
def sizing : SizeNative := ⟨answering, 0, 0⟩

/-- The file is to end at 80 and is left at 80, where it was at 40. -/
theorem end_of_file_info_moves_the_file :
    (setEndOfFileInfo sizing ⟨shortFile, 100⟩ 80 8).1 ≠ 0 ∧
      ¬ EndsExactly ⟨shortFile, 100⟩ 80 (setEndOfFileInfo sizing ⟨shortFile, 100⟩ 80 8) := by
  refine ⟨by decide, fun h => ?_⟩
  have hposition := (h (by decide)).2
  revert hposition
  decide

end Ldk.FileApi
