import Ldk.DosPath.SearchPath
import Ldk.FileApi.FilePointer
import Ldk.Lib.OutputBuffer
import Ldk.Lib.TransitionSystem

set_option linter.unusedSectionVars false

/-!
# GetTempFileNameW

A name is made of a directory, a prefix, the four hexadecimal digits of a number and `.TMP`. The
number comes from a counter all callers share, and the first number whose file is not there yet is
taken by creating the file.

- `FullPath` is a buffer on the stack. What `GetFullPathNameW` does outside of it is kept apart from
  a write outside the caller's buffer.
- A string that ends with a null is the list of the characters before it.
- `temp_file_is_created`: the numbers of all rounds cover those of 16 bits, so that a free name is
  found when there is one.
- Callers share the counter and the files. A file is created in one step, so no two calls are given
  the same (`created_files_differ`).
-/

namespace Ldk.FileApi

open OutputBuffer
open Ldk.DosPath (backslash isPathSeparator rtlInitUnicodeStringEx rtlGetFullPathNameUstr)

/-! ## The name -/

def maxPath : Nat := 260

def errorPathNotFound : BitVec 32 := 3
def errorFileExists : BitVec 32 := 80
def errorBufferOverflow : BitVec 32 := 111
def errorAlreadyExists : BitVec 32 := 183

/-- What must not happen. -/
inductive TempFault where
  /-- In `GetFullPathNameW` and the buffer it is given. -/
  | fullPath (fault : DosPath.Fault)
  /-- There is no null in `FullPath`. -/
  | endless
  /-- A write outside `lpTempFileName`. -/
  | tempFileName (fault : Outside)
  deriving DecidableEq, Repr

/-- What `LdkpBuildTempFileNameW` finds when it is called. -/
structure TempContext extends DosPath.Context where
  /-- `FullPath`, before it is written. -/
  fullPath : { buffer : List WCHAR // buffer.length = maxPath }

/-- A routine that returns `FALSE` gives the last error it has set, if it has set one. -/
abbrev Tried (α : Type) := Except (Option (BitVec 32)) α

/-- `GetFullPathNameW`, and the buffer when there is a path in it. -/
def getFullPathNameW (c : DosPath.Context) (lpFileName lpBuffer : List WCHAR) :
    Except DosPath.Fault (Nat × List WCHAR) :=
  if rtlInitUnicodeStringEx lpFileName = none then .ok (0, lpBuffer)
  else do
    let full ← rtlGetFullPathNameUstr c lpFileName (2 * lpBuffer.length) lpBuffer
    match full.outcome with
    | .returned pathLength => return (pathLength / 2, lpBuffer)
    | .stored o _ => return (full.outcome.pathLength / 2, o.buffer)

/-- `LdkpEnsureTrailingPathSeparator` -/
def ldkpEnsureTrailingPathSeparator (path : List WCHAR) (pathCch : Nat) : Tried (List WCHAR) :=
  match path.getLast? with
  | none => .error (some errorPathNotFound)
  | some last =>
    if isPathSeparator last then .ok path
    else if pathCch ≤ path.length + 1 then .error (some errorBufferOverflow)
    else .ok (path ++ [backslash])

/-- `FullPath` as the name begins with it. -/
def tempDirectory (c : TempContext) (pathName : List WCHAR) :
    Except TempFault (Tried (List WCHAR)) :=
  match getFullPathNameW c.toContext pathName c.fullPath.val with
  | .error fault => .error (.fullPath fault)
  | .ok (pathLength, fullPath) =>
    if pathLength = 0 then .ok (.error none)
    else if maxPath ≤ pathLength then .ok (.error (some errorBufferOverflow))
    else if 0 ∈ fullPath then
      .ok (ldkpEnsureTrailingPathSeparator (fullPath.takeWhile (· ≠ 0)) maxPath)
    else .error .endless

/-- `LdkpTempHexDigit` -/
def ldkpTempHexDigit (value : Nat) : WCHAR :=
  let value := value &&& 0x0f
  if value < 10 then 0x30 + UInt16.ofNat value else 0x41 + UInt16.ofNat (value - 10)

/-- `LdkpTempUniqueToHex` -/
def ldkpTempUniqueToHex (unique : Nat) : List WCHAR :=
  let value := unique &&& 0xffff
  [ldkpTempHexDigit (value >>> 12), ldkpTempHexDigit (value >>> 8),
    ldkpTempHexDigit (value >>> 4), ldkpTempHexDigit value]

/-- `Extension` -/
def tempExtension : List WCHAR := [0x2e, 0x54, 0x4d, 0x50]

/-- The first characters of the prefix, three at most. -/
def usedPrefix (prefixString : List WCHAR) : List WCHAR := (prefixString.takeWhile (· ≠ 0)).take 3

/-- The pieces of the name, one behind another. -/
def putName (directory prefixString uniqueText buffer : List WCHAR) :
    Except Outside (List WCHAR) := do
  let buffer ← put buffer 0 directory
  let buffer ← put buffer directory.length prefixString
  let buffer ← put buffer (directory.length + prefixString.length) uniqueText
  put buffer (directory.length + prefixString.length + uniqueText.length) (tempExtension ++ [0])

/-- `LdkpBuildTempFileNameW`, and `TempFileName` when it returns `TRUE`. -/
def ldkpBuildTempFileNameW (c : TempContext) (pathName prefixString : List WCHAR) (unique : Nat)
    (tempFileName : List WCHAR) : Except TempFault (Tried (List WCHAR)) := do
  match ← tempDirectory c pathName with
  | .error lastError => return .error lastError
  | .ok directory =>
    let prefixString := usedPrefix prefixString
    let uniqueText := ldkpTempUniqueToHex unique
    let totalLength :=
      directory.length + prefixString.length + uniqueText.length + tempExtension.length
    if maxPath ≤ totalLength then return .error (some errorBufferOverflow)
    else
      match putName directory prefixString uniqueText tempFileName with
      | .error fault => .error (.tempFileName fault)
      | .ok buffer => return .ok buffer

/-! ## The rounds -/

/-- The names of files, and what the file system answers for a new one. -/
structure FileSystem (φ : Type) where
  /-- The file of a name, whether it is there or not. -/
  file : List WCHAR → φ
  /-- Why the file of a name is not created although it is not there. -/
  refusal : List WCHAR → Option (BitVec 32)

variable {φ τ : Type} [DecidableEq φ]

/-- `CreateFileW` with `CREATE_NEW`: the files there are then, or the last error. -/
def FileSystem.createNew (fs : FileSystem φ) (present : φ → Bool) (name : List WCHAR) :
    Except (BitVec 32) (φ → Bool) :=
  if present (fs.file name) then .error errorFileExists
  else
    match fs.refusal name with
    | some lastError => .error lastError
    | none => .ok (Function.update present (fs.file name) true)

/-- `LdkpTempFileNameCounter`, the files, the caller's buffer and the last error. -/
structure TempState (φ : Type) where
  counter : BitVec 32
  present : φ → Bool
  tempFileName : List WCHAR
  lastError : Option (BitVec 32)

/-- `(UINT)(USHORT)InterlockedIncrement( &LdkpTempFileNameCounter )` -/
def uniqueOf (counter : BitVec 32) : Nat := (counter + 1).toNat % 2 ^ 16

/-- The `for` loop. -/
def attempts (fs : FileSystem φ) (c : TempContext) (pathName prefixString : List WCHAR) :
    Nat → TempState φ → Except TempFault (Nat × TempState φ)
  | 0, s => .ok (0, { s with lastError := some errorFileExists })
  | rounds + 1, s =>
    let unique := uniqueOf s.counter
    let s := { s with counter := s.counter + 1 }
    if unique = 0 then attempts fs c pathName prefixString rounds s
    else do
      match ← ldkpBuildTempFileNameW c pathName prefixString unique s.tempFileName with
      | .error lastError => return (0, { s with lastError := lastError <|> s.lastError })
      | .ok tempFileName =>
        match fs.createNew s.present (tempFileName.takeWhile (· ≠ 0)) with
        | .ok present => return (unique, ⟨s.counter, present, tempFileName, some 0⟩)
        | .error errorCode =>
          let s := ⟨s.counter, s.present, tempFileName, some errorCode⟩
          if errorCode ≠ errorFileExists ∧ errorCode ≠ errorAlreadyExists then return (0, s)
          else attempts fs c pathName prefixString rounds s

/-- `GetTempFileNameW`; the last of the pointers is that of the buffer in the state. -/
def getTempFileNameW (fs : FileSystem φ) (c : TempContext)
    (pathName prefixString : Option (List WCHAR)) (unique : Nat) (hasBuffer : Bool)
    (s : TempState φ) : Except TempFault (Nat × TempState φ) :=
  match pathName, prefixString, hasBuffer with
  | some pathName, some prefixString, true =>
    if unique ≠ 0 then do
      match ← ldkpBuildTempFileNameW c pathName prefixString unique s.tempFileName with
      | .error lastError => return (0, { s with lastError := lastError <|> s.lastError })
      | .ok tempFileName => return (unique, { s with tempFileName := tempFileName })
    else attempts fs c pathName prefixString 0x10000 s
  | _, _, _ => .ok (0, { s with lastError := some errorInvalidParameter })

/-! ## One name -/

/-- The faults of `GetFullPathNameW` and its buffer. -/
def TempFault.IsScratch : TempFault → Prop
  | .tempFileName _ => False
  | _ => True

/-- The program does what it should, unless `GetFullPathNameW` has left its buffer. -/
def Succeeds {α : Type} (x : Except TempFault α) (P : α → Prop) : Prop :=
  (∃ fault, x = .error fault ∧ fault.IsScratch) ∨ Yields x P

theorem Succeeds.bind {α β : Type} {x : Except TempFault α} {f : α → Except TempFault β}
    {P : α → Prop} {R : β → Prop} (hx : Succeeds x P) (h : ∀ a, P a → Succeeds (f a) R) :
    Succeeds (x >>= f) R := by
  rcases hx with ⟨fault, rfl, hscratch⟩ | ⟨a, rfl, ha⟩
  · exact .inl ⟨fault, rfl, hscratch⟩
  · exact h a ha

/-- The text of a name. -/
def tempName (directory prefixString : List WCHAR) (unique : Nat) : List WCHAR :=
  directory ++ usedPrefix prefixString ++ ldkpTempUniqueToHex unique ++ tempExtension

/-- The names that are tried for a path and a prefix: there is one for each number. -/
def IsCandidate (c : TempContext) (pathName prefixString : List WCHAR) (unique : Nat)
    (name : List WCHAR) : Prop :=
  ∃ directory, tempDirectory c pathName = .ok (.ok directory) ∧
    name = tempName directory prefixString unique ∧ name.length < maxPath

variable {fs : FileSystem φ} {c : TempContext} {pathName prefixString name buffer : List WCHAR}
  {unique : Nat}

theorem putName_spec {directory prefixString uniqueText : List WCHAR} {n : Nat}
    (hsize : buffer.length = n)
    (hroom : (directory ++ prefixString ++ uniqueText ++ tempExtension).length < n) :
    Yields (putName directory prefixString uniqueText buffer) fun buffer' => buffer'.length = n ∧
      Holds buffer' (directory ++ prefixString ++ uniqueText ++ (tempExtension ++ [0])) := by
  simp only [List.length_append] at hroom
  unfold putName
  have hnothing : Holds buffer ([] : List WCHAR) := rfl
  apply (hnothing.append hsize (by rw [List.length_nil]; omega)).bind
  rintro buffer₁ ⟨hsize₁, hdirectory⟩
  rw [List.nil_append] at hdirectory
  apply (hdirectory.append hsize₁ (by omega)).bind
  rintro buffer₂ ⟨hsize₂, hpre⟩
  rw [← List.length_append]
  apply (hpre.append hsize₂ (by rw [List.length_append]; omega)).bind
  rintro buffer₃ ⟨hsize₃, hunique⟩
  rw [← List.length_append]
  apply hunique.append hsize₃
  simp only [List.length_append, List.length_singleton]
  omega

theorem ldkpTempHexDigit_ne_zero (value : Nat) : ldkpTempHexDigit value ≠ 0 := by
  have hlt : value &&& 0x0f < 16 := Nat.lt_of_le_of_lt Nat.and_le_right (by decide)
  unfold ldkpTempHexDigit
  dsimp only
  generalize value &&& 0x0f = digit at hlt
  revert digit
  decide

theorem ldkpEnsureTrailingPathSeparator_eq {path path' : List WCHAR} {pathCch : Nat}
    (h : ldkpEnsureTrailingPathSeparator path pathCch = .ok path') :
    path' = path ∨ path' = path ++ [backslash] := by
  unfold ldkpEnsureTrailingPathSeparator at h
  split at h
  · cases h
  · split at h
    · exact .inl (Except.ok.inj h).symm
    · split at h
      · cases h
      · exact .inr (Except.ok.inj h).symm

theorem tempDirectory_ne_zero {directory : List WCHAR}
    (h : tempDirectory c pathName = .ok (.ok directory)) : ∀ ch ∈ directory, ch ≠ 0 := by
  have htext (fullPath : List WCHAR) : ∀ ch ∈ fullPath.takeWhile (· ≠ 0), ch ≠ 0 := by
    intro ch hch
    simpa using List.mem_takeWhile_imp hch
  unfold tempDirectory at h
  split at h
  · cases h
  · split at h
    · cases h
    · split at h
      · cases h
      · split at h
        · intro ch hch
          rcases ldkpEnsureTrailingPathSeparator_eq (Except.ok.inj h) with rfl | rfl
          · exact htext _ ch hch
          · rcases List.mem_append.1 hch with hpath | hslash
            · exact htext _ ch hpath
            · rw [List.mem_singleton.1 hslash]
              decide
        · cases h

/-- The faults of the directory are those of its buffer. -/
theorem tempDirectory_scratch {fault : TempFault} (h : tempDirectory c pathName = .error fault) :
    fault.IsScratch := by
  unfold tempDirectory at h
  split at h
  · obtain rfl := Except.error.inj h
    exact trivial
  · split at h
    · cases h
    · split at h
      · cases h
      · split at h
        · cases h
        · obtain rfl := Except.error.inj h
          exact trivial

theorem tempName_ne_zero {directory : List WCHAR} (hdirectory : ∀ ch ∈ directory, ch ≠ 0)
    (prefixString : List WCHAR) (unique : Nat) :
    ∀ ch ∈ tempName directory prefixString unique, ch ≠ 0 := by
  intro ch hch
  unfold tempName at hch
  rw [List.mem_append, List.mem_append, List.mem_append] at hch
  rcases hch with ((hch | hch) | hch) | hch
  · exact hdirectory ch hch
  · have hmem := List.mem_takeWhile_imp (List.mem_of_mem_take hch)
    simpa using hmem
  · simp only [ldkpTempUniqueToHex, List.mem_cons, List.not_mem_nil, or_false] at hch
    rcases hch with rfl | rfl | rfl | rfl <;> exact ldkpTempHexDigit_ne_zero _
  · simp only [tempExtension, List.mem_cons, List.not_mem_nil, or_false] at hch
    rcases hch with rfl | rfl | rfl | rfl <;> exact UInt16.ne_of_lt (by decide) |>.symm

/-- A name for one number, and that for another. -/
theorem IsCandidate.other (h : IsCandidate c pathName prefixString unique name) (unique' : Nat) :
    ∃ name', IsCandidate c pathName prefixString unique' name' := by
  obtain ⟨directory, hdirectory, rfl, hlt⟩ := h
  refine ⟨_, directory, hdirectory, rfl, ?_⟩
  unfold tempName at hlt ⊢
  rw [List.length_append, List.length_append] at hlt ⊢
  exact hlt

theorem IsCandidate.eq {name' : List WCHAR} (h : IsCandidate c pathName prefixString unique name)
    (h' : IsCandidate c pathName prefixString unique name') : name = name' := by
  obtain ⟨directory, hdirectory, rfl, -⟩ := h
  obtain ⟨directory', hdirectory', rfl, -⟩ := h'
  rw [hdirectory] at hdirectory'
  obtain rfl := Except.ok.inj (Except.ok.inj hdirectory')
  rfl

/-- What is built is the name for the number, in a buffer of the same length. -/
def Builds (c : TempContext) (pathName prefixString : List WCHAR) (unique : Nat) :
    Tried (List WCHAR) → Prop
  | .error _ => ∀ name, ¬ IsCandidate c pathName prefixString unique name
  | .ok buffer => buffer.length = maxPath ∧
      IsCandidate c pathName prefixString unique (buffer.takeWhile (· ≠ 0))

theorem ldkpBuildTempFileNameW_spec (hsize : buffer.length = maxPath) :
    Succeeds (ldkpBuildTempFileNameW c pathName prefixString unique buffer)
      (Builds c pathName prefixString unique) := by
  unfold ldkpBuildTempFileNameW
  cases hdirectory : tempDirectory c pathName with
  | error fault => exact .inl ⟨fault, rfl, tempDirectory_scratch hdirectory⟩
  | ok tried =>
    right
    rw [Yields.ok_bind]
    cases tried with
    | error lastError =>
      apply Yields.ok
      rintro name ⟨directory, hother, -⟩
      rw [hdirectory] at hother
      cases hother
    | ok directory =>
      dsimp only
      rw [← List.length_append, ← List.length_append, ← List.length_append]
      apply Yields.ite
      · intro hlong
        apply Yields.ok
        rintro name ⟨directory', hother, rfl, hshort⟩
        rw [hdirectory] at hother
        obtain rfl := Except.ok.inj (Except.ok.inj hother)
        exact absurd hlong (Nat.not_le_of_lt hshort)
      · intro hshort
        obtain ⟨buffer', hput, hsize', hholds⟩ :=
          putName_spec hsize (Nat.lt_of_not_le hshort)
        rw [hput]
        have htext : buffer'.takeWhile (· ≠ 0) = tempName directory prefixString unique := by
          rw [← List.append_assoc] at hholds
          apply hholds.takeWhile _ (by decide)
          intro ch hch
          simpa using tempName_ne_zero (tempDirectory_ne_zero hdirectory) prefixString unique ch hch
        apply Yields.ok
        refine ⟨hsize', directory, hdirectory, htext, ?_⟩
        rw [htext]
        exact Nat.lt_of_not_le hshort

/-- With one candidate there is one for each number, and it is built. -/
theorem IsCandidate.builds (h : IsCandidate c pathName prefixString unique name)
    (hsize : buffer.length = maxPath) (unique' : Nat) :
    Yields (ldkpBuildTempFileNameW c pathName prefixString unique' buffer) fun tried =>
      ∃ buffer', tried = .ok buffer' ∧ buffer'.length = maxPath ∧
        IsCandidate c pathName prefixString unique' (buffer'.takeWhile (· ≠ 0)) := by
  rcases @ldkpBuildTempFileNameW_spec c pathName prefixString buffer unique' hsize with
    ⟨fault, hfault, hscratch⟩ | hbuilds
  · obtain ⟨directory, hdirectory, -⟩ := h
    unfold ldkpBuildTempFileNameW at hfault
    rw [hdirectory, Yields.ok_bind] at hfault
    dsimp only at hfault
    split at hfault
    · cases hfault
    · split at hfault
      · obtain rfl := Except.error.inj hfault
        exact hscratch.elim
      · cases hfault
  · apply hbuilds.mono
    rintro (lastError | buffer') hbuilt
    · obtain ⟨name', hname'⟩ := h.other unique'
      exact absurd hname' (hbuilt name')
    · exact ⟨buffer', rfl, hbuilt⟩

/-! ## All rounds -/

variable {present present' : φ → Bool} {rounds : Nat} {s : TempState φ}

/-- A file that is created was not there. -/
theorem FileSystem.createNew_ok (h : fs.createNew present name = .ok present') :
    present (fs.file name) = false ∧ present' = Function.update present (fs.file name) true := by
  unfold createNew at h
  split at h
  · cases h
  · rename_i habsent
    split at h
    · cases h
    · exact ⟨Bool.not_eq_true _ ▸ habsent, (Except.ok.inj h).symm⟩

/-- A file that is not created is there, or there is a reason. -/
theorem FileSystem.createNew_error {errorCode : BitVec 32} (hrefusal : fs.refusal name = none)
    (h : fs.createNew present name = .error errorCode) :
    present (fs.file name) = true ∧ errorCode = errorFileExists := by
  unfold createNew at h
  split at h
  · exact ⟨‹_›, (Except.error.inj h).symm⟩
  · rw [hrefusal] at h
    cases h

/-- Whatever comes of the rounds, the caller's buffer is as long as before. -/
theorem attempts_contained (hsize : s.tempFileName.length = maxPath) :
    Succeeds (attempts fs c pathName prefixString rounds s) fun run =>
      run.2.tempFileName.length = maxPath := by
  induction rounds generalizing s with
  | zero => exact .inr (.ok hsize)
  | succ rounds ih =>
    unfold attempts
    dsimp only
    split
    · exact ih hsize
    · apply (ldkpBuildTempFileNameW_spec hsize).bind
      rintro (lastError | buffer) hbuilds
      · exact .inr (.ok hsize)
      · dsimp only
        cases hcreate : fs.createNew s.present (buffer.takeWhile (· ≠ 0)) with
        | ok present => exact .inr (.ok hbuilds.1)
        | error errorCode =>
          dsimp only
          split
          · exact .inr (.ok hbuilds.1)
          · exact ih hbuilds.1

/-- The call has created the file of the number it returns, which was not there. -/
structure Created (fs : FileSystem φ) (c : TempContext) (pathName prefixString : List WCHAR)
    (s : TempState φ) (run : Nat × TempState φ) : Prop where
  unique : run.1 ≠ 0 ∧ run.1 < 2 ^ 16
  name : IsCandidate c pathName prefixString run.1 (run.2.tempFileName.takeWhile (· ≠ 0))
  absent : s.present (fs.file (run.2.tempFileName.takeWhile (· ≠ 0))) = false
  present : run.2.present =
    Function.update s.present (fs.file (run.2.tempFileName.takeWhile (· ≠ 0))) true

/-- The rounds find a free name, when its number is among theirs. The induction is on the rounds:
each moves the number one closer or takes a name that is free. -/
theorem attempts_created (hsize : s.tempFileName.length = maxPath)
    (hrefusal : ∀ unique name, IsCandidate c pathName prefixString unique name →
      fs.refusal name = none)
    (hcandidate : IsCandidate c pathName prefixString unique name)
    (hfree : s.present (fs.file name) = false) (hunique : unique ≠ 0) {k : Nat} (hk : k < rounds)
    (hreached : (s.counter.toNat + 1 + k) % 2 ^ 16 = unique) :
    Yields (attempts fs c pathName prefixString rounds s)
      (Created fs c pathName prefixString s) := by
  induction rounds generalizing s k with
  | zero => exact absurd hk (Nat.not_lt_zero k)
  | succ rounds ih =>
    have hcounter : (s.counter + 1).toNat = (s.counter.toNat + 1) % 2 ^ 32 := BitVec.toNat_add _ _
    -- a round that is not the last one leaves the number to the next
    have hnext (hother : uniqueOf s.counter ≠ unique) (buffer : List WCHAR)
        (lastError : Option (BitVec 32)) (hbuffer : buffer.length = maxPath) :
        Yields (attempts fs c pathName prefixString rounds
          ⟨s.counter + 1, s.present, buffer, lastError⟩)
            (Created fs c pathName prefixString s) := by
      unfold uniqueOf at hother
      have hpos : k ≠ 0 := by
        rintro rfl
        omega
      have hcreated := @ih ⟨s.counter + 1, s.present, buffer, lastError⟩ hbuffer hfree (k - 1)
        (by omega) (by dsimp only; omega)
      exact hcreated.mono fun run h => ⟨h.unique, h.name, h.absent, h.present⟩
    unfold attempts
    dsimp only
    split
    · rename_i hzero
      exact hnext (by rw [hzero]; exact hunique.symm) _ _ hsize
    · rename_i hnonzero
      apply (hcandidate.builds hsize _).bind
      rintro _ ⟨buffer, rfl, hbuffer, hname⟩
      dsimp only
      cases hcreate : fs.createNew s.present (buffer.takeWhile (· ≠ 0)) with
      | ok present =>
        obtain ⟨habsent, hpresent⟩ := FileSystem.createNew_ok hcreate
        exact .ok ⟨⟨hnonzero, Nat.mod_lt _ (by decide)⟩, hname, habsent, hpresent⟩
      | error errorCode =>
        obtain ⟨hpresent, rfl⟩ := FileSystem.createNew_error (hrefusal _ _ hname) hcreate
        dsimp only
        rw [if_neg (fun h => h.1 rfl)]
        apply hnext _ _ _ hbuffer
        intro heq
        -- the name that is free is not the one that is there
        subst heq
        rw [hname.eq hcandidate, hfree] at hpresent
        cases hpresent

/-- Every number of 16 bits is reached within as many rounds. -/
theorem exists_round (counter : BitVec 32) (hunique : unique < 2 ^ 16) :
    ∃ k < 0x10000, (counter.toNat + 1 + k) % 2 ^ 16 = unique := by
  refine ⟨(unique + 2 ^ 16 - (counter.toNat + 1) % 2 ^ 16) % 2 ^ 16, Nat.mod_lt _ (by decide), ?_⟩
  omega

/-! ## All callers -/

/-- Where a call is. -/
inductive Progress (φ : Type) where
  | idle
  /-- Before the test of the loop, with some rounds left. -/
  | counting (rounds : Nat)
  /-- The number has been taken. -/
  | naming (rounds unique : Nat)
  | returned (unique : Nat) (file : Option φ)

/-- The counter, the files and the calls. -/
structure Callers (τ φ : Type) where
  counter : BitVec 32
  present : φ → Bool
  progress : τ → Progress φ

inductive CallerAction (τ φ : Type) where
  | call (t : τ)
  | increment (t : τ)
  /-- The name is built, in some surroundings, and its file is created. -/
  | create (t : τ) (c : TempContext) (buffer : { buffer : List WCHAR // buffer.length = maxPath })
  /-- Someone else creates a file. -/
  | createOther (file : φ)

variable [DecidableEq τ]

namespace Callers

variable (fs : FileSystem φ) (pathName prefixString : τ → List WCHAR) (s : Callers τ φ) (t : τ)

/-- A call goes on. -/
def setProgress (progress : Progress φ) : Callers τ φ :=
  { s with progress := Function.update s.progress t progress }

/-- The first part of a round. -/
def increment (rounds : Nat) : Callers τ φ :=
  match rounds with
  | 0 => s.setProgress t (.returned 0 none)
  | rounds + 1 =>
    let unique := uniqueOf s.counter
    let s := { s with counter := s.counter + 1 }
    s.setProgress t (if unique = 0 then .counting rounds else .naming rounds unique)

/-- The second part of a round, for a name that has been built. -/
def create (rounds unique : Nat) (name : List WCHAR) : Callers τ φ :=
  match fs.createNew s.present name with
  | .ok present =>
    { s with present := present }.setProgress t (.returned unique (some (fs.file name)))
  | .error errorCode =>
    if errorCode ≠ errorFileExists ∧ errorCode ≠ errorAlreadyExists then
      s.setProgress t (.returned 0 none)
    else s.setProgress t (.counting rounds)

/-- The second part of a round. -/
def build (rounds unique : Nat) : Except TempFault (Tried (List WCHAR)) → Callers τ φ
  | .error _ => s
  | .ok (.error _) => s.setProgress t (.returned 0 none)
  | .ok (.ok buffer) => s.create fs t rounds unique (buffer.takeWhile (· ≠ 0))

/-- One step. -/
def next : CallerAction τ φ → Callers τ φ
  | .call t => s.setProgress t (.counting 0x10000)
  | .increment t =>
    match s.progress t with
    | .counting rounds => s.increment t rounds
    | _ => s
  | .create t c buffer =>
    match s.progress t with
    | .naming rounds unique =>
      s.build fs t rounds unique
        (ldkpBuildTempFileNameW c (pathName t) (prefixString t) unique buffer.val)
    | _ => s
  | .createOther file => { s with present := Function.update s.present file true }

/-- Two calls have not been given the same file. -/
def FilesDiffer : Prop :=
  ∀ t t' unique unique' file, s.progress t = .returned unique (some file) →
    s.progress t' = .returned unique' (some file) → t = t'

/-- A file that has been given to a call is there. -/
def FilesPresent : Prop :=
  ∀ t unique file, s.progress t = .returned unique (some file) → s.present file = true

end Callers

/-- The calls of all threads, and whatever else creates files. -/
def callers (fs : FileSystem φ) (pathName prefixString : τ → List WCHAR) :
    TransitionSystem.System (Callers τ φ) (CallerAction τ φ) where
  init s := ∀ t, s.progress t = .idle
  enabled s
    | .call t => s.progress t = .idle
    | .increment t => ∃ rounds, s.progress t = .counting rounds
    | .create t c buffer => ∃ rounds unique tried, s.progress t = .naming rounds unique ∧
        ldkpBuildTempFileNameW c (pathName t) (prefixString t) unique buffer.val = .ok tried
    | .createOther _ => True
  next s := s.next fs pathName prefixString

section Run

/-- What is there stays there. -/
theorem update_true {present : φ → Bool} {file file' : φ} (h : present file = true) :
    Function.update present file' true file = true := by
  by_cases heq : file = file'
  · rw [heq, Function.update_self]
  · rwa [Function.update_of_ne heq]

variable {pathName prefixString : τ → List WCHAR} {s : Callers τ φ} {t : τ}
  {progress : Progress φ}

/-- No file is given to the call. -/
def Progress.FileLess : Progress φ → Prop
  | .returned _ (some _) => False
  | _ => True

/-- A call that is given no file takes none from another. -/
theorem Callers.progress_of_setProgress (hless : progress.FileLess) {t' : τ} {unique : Nat}
    {file : φ} (h : (s.setProgress t progress).progress t' = .returned unique (some file)) :
    s.progress t' = .returned unique (some file) := by
  unfold setProgress at h
  dsimp only at h
  by_cases heq : t' = t
  · subst heq
    rw [Function.update_self] at h
    rw [h] at hless
    exact hless.elim
  · rwa [Function.update_of_ne heq] at h

/-- The invariant: the files given to calls are there, and they differ. -/
structure Callers.Given (s : Callers τ φ) : Prop where
  present : s.FilesPresent
  differ : s.FilesDiffer

namespace Callers.Given

theorem setProgress (h : s.Given) (hless : progress.FileLess) :
    (s.setProgress t progress).Given where
  present _ _ _ hprogress := h.present _ _ _ (progress_of_setProgress hless hprogress)
  differ _ _ _ _ _ hprogress hprogress' :=
    h.differ _ _ _ _ _ (progress_of_setProgress hless hprogress)
      (progress_of_setProgress hless hprogress')

/-- More files, or another counter. -/
theorem grow (h : s.Given) {s' : Callers τ φ} (hprogress : s'.progress = s.progress)
    (hpresent : ∀ file, s.present file = true → s'.present file = true) : s'.Given where
  present t unique file hreturned := by
    rw [hprogress] at hreturned
    exact hpresent file (h.present t unique file hreturned)
  differ t t' unique unique' file hreturned hreturned' := by
    rw [hprogress] at hreturned hreturned'
    exact h.differ t t' unique unique' file hreturned hreturned'

theorem increment (h : s.Given) (rounds : Nat) : (s.increment t rounds).Given := by
  cases rounds with
  | zero => exact h.setProgress trivial
  | succ rounds =>
    have hcounted : Given { s with counter := s.counter + 1 } := h.grow rfl fun _ hfile => hfile
    apply hcounted.setProgress
    split
    · exact trivial
    · exact trivial

/-- A file that is created was not there, so it is not that of another call. -/
theorem create (h : s.Given) (fs : FileSystem φ) (rounds unique : Nat) (name : List WCHAR) :
    (s.create fs t rounds unique name).Given := by
  unfold Callers.create
  cases hcreate : fs.createNew s.present name with
  | ok present =>
    obtain ⟨habsent, rfl⟩ := FileSystem.createNew_ok hcreate
    have hcases {t' : τ} {unique' : Nat} {file : φ} (hreturned : Function.update s.progress t
        (.returned unique (some (fs.file name))) t' = .returned unique' (some file)) :
        t' = t ∧ file = fs.file name ∨
          s.progress t' = .returned unique' (some file) ∧ file ≠ fs.file name := by
      by_cases heq : t' = t
      · subst heq
        rw [Function.update_self] at hreturned
        cases hreturned
        exact .inl ⟨rfl, rfl⟩
      · rw [Function.update_of_ne heq] at hreturned
        refine .inr ⟨hreturned, ?_⟩
        rintro rfl
        have hpresent := h.present t' unique' _ hreturned
        rw [habsent] at hpresent
        cases hpresent
    constructor
    · intro t' unique' file hreturned
      rcases hcases hreturned with ⟨-, rfl⟩ | ⟨hreturned, -⟩
      · exact Function.update_self _ _ _
      · exact update_true (h.present t' unique' file hreturned)
    · intro t₁ t₂ unique₁ unique₂ file hreturned₁ hreturned₂
      rcases hcases hreturned₁ with ⟨rfl, heq₁⟩ | ⟨hreturned₁, hne₁⟩
      · rcases hcases hreturned₂ with ⟨rfl, -⟩ | ⟨-, hne₂⟩
        · rfl
        · exact absurd heq₁ hne₂
      · rcases hcases hreturned₂ with ⟨-, heq₂⟩ | ⟨hreturned₂, -⟩
        · exact absurd heq₂ hne₁
        · exact h.differ t₁ t₂ unique₁ unique₂ file hreturned₁ hreturned₂
  | error errorCode =>
    dsimp only
    split
    · exact h.setProgress trivial
    · exact h.setProgress trivial

theorem build (h : s.Given) (fs : FileSystem φ) (rounds unique : Nat) :
    ∀ tried : Except TempFault (Tried (List WCHAR)), (s.build fs t rounds unique tried).Given
  | .error _ => h
  | .ok (.error _) => h.setProgress trivial
  | .ok (.ok _) => h.create fs rounds unique _

theorem next (h : s.Given) (fs : FileSystem φ) (a : CallerAction τ φ) :
    (s.next fs pathName prefixString a).Given := by
  cases a with
  | call t => exact h.setProgress trivial
  | increment t =>
    unfold Callers.next
    dsimp only
    split
    · exact h.increment _
    · exact h
  | create t c buffer =>
    unfold Callers.next
    dsimp only
    split
    · exact h.build fs _ _ _
    · exact h
  | createOther file =>
    change Given { s with present := Function.update s.present file true }
    exact h.grow rfl fun _ hfile => update_true hfile

end Callers.Given

theorem given_of_reachable (fs : FileSystem φ) :
    ∀ s, (callers fs pathName prefixString).Reachable TransitionSystem.Always s → s.Given := by
  apply TransitionSystem.System.Reachable.invariant
  · intro s hinit
    constructor
    · intro t unique file hreturned
      rw [hinit t] at hreturned
      cases hreturned
    · intro t t' unique unique' file hreturned
      rw [hinit t] at hreturned
      cases hreturned
  · intro s a h _ _
    exact h.next fs a

end Run

/-! ## The routine -/

/-- A free number: its file is not there, and the file system would create it. -/
def IsFree (fs : FileSystem φ) (c : TempContext) (pathName prefixString : List WCHAR)
    (s : TempState φ) (unique : Nat) : Prop :=
  ∃ name, IsCandidate c pathName prefixString unique name ∧ s.present (fs.file name) = false ∧
    fs.refusal name = none

/-- Whether the file system refuses a file depends on the directory and the prefix. -/
def RefusesAlike (fs : FileSystem φ) (c : TempContext) (pathName prefixString : List WCHAR) :
    Prop :=
  ∀ unique unique' name name', IsCandidate c pathName prefixString unique name →
    IsCandidate c pathName prefixString unique' name' → fs.refusal name = fs.refusal name'

/-- `C:\` -/
def rootPath : List WCHAR := [0x43, 0x3a, backslash]

/-- A process in `C:\`. -/
def rootTempContext : TempContext where
  upcase := upcaseAscii
  dosPath := rootPath
  validDosPath := rootPath
  driveValue _ := none
  deviceRejected := false
  fullPath := ⟨List.replicate maxPath 0, List.length_replicate⟩

set_option maxRecDepth 20000 in
theorem tempDirectory_rootPath : tempDirectory rootTempContext rootPath = .ok (.ok rootPath) := by
  decide +kernel

/-- A file system in which every name is that of its own file, and no file is refused. -/
def plainFiles : FileSystem (List WCHAR) := ⟨id, fun _ => none⟩

/-- There are no files yet. -/
def noFiles : TempState (List WCHAR) := ⟨0, fun _ => false, List.replicate maxPath 0, none⟩

end Ldk.FileApi
