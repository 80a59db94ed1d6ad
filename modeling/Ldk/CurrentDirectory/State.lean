import Mathlib
import Ldk.Lib.TransitionSystem
import Ldk.Lib.Holdings
import Ldk.NtStatus
import Ldk.UnicodeString

/-!
# The current directory

`RtlSetCurrentDirectory_U`, `RtlpValidateCurrentDirectory` and the translation of relative names
in `curdir.c`, with the file calls of `fileapi.c` that translate a name and hand it to a native
call later. Each section under the PEB lock is one step, and so is each native call and each
handle or reference that is given back after the lock has been left.

- A call has a name; there may be any number of calls at a time.
- What the native calls and the heap answer, and what full path a name has, is left open.
- `RtlpValidateCurrentDirectory` runs in the section of any full path, so it may be a step of its
  own just before that section.
- The branches for a handle tagged `RTL_USER_PROC_CURDIR_CLOSE` or `RTL_USER_PROC_CURDIR_INHERIT`
  are left out; no handle of the current directory carries these tags (`handle_is_not_inherited`).
-/

namespace Ldk.CurrentDirectory

open TransitionSystem

/-! ## Data -/

/-- `HANDLE` of a directory: what the kernel looks at, and `OBJ_HANDLE_TAGBITS`, which it ignores. -/
structure Handle where
  index : Nat
  tag : Nat
  deriving DecidableEq, Repr

/-- `RTLP_CURDIR_REF` -/
structure CurDirRef where
  refCount : Nat
  directoryHandle : Handle
  deriving DecidableEq, Repr

/-- `RTL_RELATIVE_NAME_U` -/
structure RelativeName (δ : Type) where
  relativeName : List WCHAR
  containingDirectory : Option Handle
  curDirRef : Option Nat
  /-- Auxiliary: the directory that was current when the name was translated. -/
  directory : Option δ
  deriving DecidableEq, Repr

/-- The `RootDirectory` a caller passes on: none when there is no relative name. -/
def RelativeName.rootDirectory {δ : Type} (n : RelativeName δ) : Option Handle :=
  if n.relativeName = [] then none else n.containingDirectory

/-- What a file call does with names. -/
inductive Operation where
  /-- A name is translated; `required` when the call returns if that fails. -/
  | translate (capture required : Bool)
  /-- The last name goes to a native call, which may be made again that often. -/
  | native (retries : Nat)
  /-- `RtlReleaseRelativeName` -/
  | release
  deriving DecidableEq, Repr

/-- What is given back after the lock section of a directory change. -/
inductive Cleanup where
  | close (h : Handle)
  | dereference (r : Nat)
  deriving DecidableEq, Repr

inductive Stage (δ : Type) where
  | notCalled
  /-- A file call with what it has still to do and the names it has yet to use, the last first. -/
  | calling (operations : List Operation) (names : List (RelativeName δ))
  /-- `RtlSetCurrentDirectory_U` after its lock section. -/
  | cleaning (todo : List Cleanup)
  deriving DecidableEq, Repr

/-! ## The file calls -/

def createFileW : List Operation := [.translate false true, .native 0]

def createDirectoryW : List Operation := [.translate false false, .native 0]

/-- `LdkpQueryFullFileAttributes`, behind `GetFileAttributesW` and `GetFileAttributesExW`. -/
def queryFullFileAttributes : List Operation := [.translate false false, .native 0]

def removeDirectoryW : List Operation := [.translate false true, .native 0]

def deleteFileW : List Operation := [.translate false true, .native 2]

/-- `SetFileInformationByHandle` with `FileRenameInfo`. -/
def setFileInformationByHandle : List Operation := [.translate false true, .native 0]

/-- The new name is translated first; it is used after the existing file has been opened. -/
def moveFileExW : List Operation := .translate false true :: createFileW ++ [.native 0]

def createHardLinkW : List Operation :=
  queryFullFileAttributes ++ .translate false true :: createFileW ++ [.native 0]

/-- `RtlDoesFileExists_UstrEx` -/
def rtlDoesFileExists : List Operation := [.translate true true, .native 0, .release]

inductive FileCall where
  | createFileW
  | createDirectoryW
  | queryFullFileAttributes
  | removeDirectoryW
  | deleteFileW
  | setFileInformationByHandle
  | moveFileExW
  | createHardLinkW
  | rtlDoesFileExists
  deriving DecidableEq, Repr

def FileCall.operations : FileCall → List Operation
  | .createFileW => CurrentDirectory.createFileW
  | .createDirectoryW => CurrentDirectory.createDirectoryW
  | .queryFullFileAttributes => CurrentDirectory.queryFullFileAttributes
  | .removeDirectoryW => CurrentDirectory.removeDirectoryW
  | .deleteFileW => CurrentDirectory.deleteFileW
  | .setFileInformationByHandle => CurrentDirectory.setFileInformationByHandle
  | .moveFileExW => CurrentDirectory.moveFileExW
  | .createHardLinkW => CurrentDirectory.createHardLinkW
  | .rtlDoesFileExists => CurrentDirectory.rtlDoesFileExists

/-! ## The shared state -/

structure State (κ δ : Type) where
  /-- The open directory handles, and what they denote. -/
  handles : Nat → Option δ
  /-- `Handle` and `DosPath` of `CURDIR`. -/
  curDirHandle : Option Handle
  dosPath : List WCHAR
  /-- `RtlpCurDirRef` -/
  curDirRef : Option Nat
  /-- The `RTLP_CURDIR_REF` records in the heap. -/
  refs : Nat → Option CurDirRef
  /-- `RtlpSavedDismountCount` -/
  savedDismountCount : Nat
  /-- Auxiliary: the directory the last successful change has made current. -/
  current : Option δ
  /-- Auxiliary: the calls made so far. -/
  calls : List κ
  stage : κ → Stage δ

/-- `MaximumLength` of `DosPath`, in characters: `DOS_MAX_PATH_LENGTH`. -/
def dosPathMaximum : Nat := 260

def backslash : WCHAR := 0x5c

/-- `RTL_USER_PROC_CURDIR_CLOSE` -/
def curDirClose : Nat := 2

/-- `RTL_USER_PROC_CURDIR_INHERIT` -/
def curDirInherit : Nat := 3

/-- What `RtlSetCurrentDirectory_U` meets in its lock section. -/
structure Change (δ : Type) where
  /-- `RtlIsDosDeviceName_Ustr` -/
  isDevice : Bool
  /-- There is memory for `DosDir`. -/
  allocated : Bool
  /-- The full path of the new directory, empty for an invalid name. -/
  dosDir : List WCHAR
  /-- `RtlDosPathNameToNtPathName_U` -/
  translated : Bool
  /-- `ZwOpenFile`: the handle, when that is free, and the directory. -/
  opened : Option (Nat × δ)
  /-- `ZwQueryVolumeInformationFile`: whether the device has `FILE_REMOVABLE_MEDIA`. -/
  removable : Option Bool
  /-- Memory for a new `RTLP_CURDIR_REF`, when that is free. -/
  newRef : Option Nat
  deriving DecidableEq, Repr

/-- What `RtlpValidateCurrentDirectory` meets. -/
structure Validation (δ : Type) where
  /-- `USER_SHARED_DATA->DismountCount` -/
  dismountCount : Nat
  /-- `FSCTL_IS_VOLUME_MOUNTED` fails for the volume. -/
  wrongVolume : Bool
  /-- The attempt to set the same directory again. -/
  same : Change δ
  /-- The attempt to set the root directory, after that. -/
  root : Change δ
  deriving DecidableEq, Repr

/-- What the translation of a name meets. -/
structure Translation where
  /-- The name has a full path, and there is memory. -/
  valid : Bool
  /-- `InputDosPathType == RtlPathTypeRelative` -/
  relative : Bool
  fullDosPathName : List WCHAR
  deriving DecidableEq, Repr

variable {κ δ : Type} [DecidableEq κ] [DecidableEq δ]

/-- What the lock section of `RtlSetCurrentDirectory_U` comes to. -/
structure Section (κ δ : Type) where
  state : State κ δ
  status : NtStatus
  todo : List Cleanup

namespace State

variable (s : State κ δ) (c : κ)

def goto (stage : Stage δ) : State κ δ := { s with stage := Function.update s.stage c stage }

def setRef (r : Nat) (v : Option CurDirRef) : State κ δ :=
  { s with refs := Function.update s.refs r v }

/-- `ZwOpenFile` of a directory. -/
def openFile (k : Nat) (d : δ) : State κ δ :=
  { s with handles := Function.update s.handles k (some d) }

/-- `ZwClose` of a directory handle. -/
def close (h : Handle) : State κ δ := { s with handles := Function.update s.handles h.index none }

/-- `RtlpDereferenceCurDirRef` -/
def dereference (r : Nat) : State κ δ :=
  match s.refs r with
  | some v =>
    if v.refCount = 1 then (s.close v.directoryHandle).setRef r none
    else s.setRef r (some { v with refCount := v.refCount - 1 })
  | none => s

/-- `RtlpReferenceCurDirRef` -/
def reference (r : Nat) : State κ δ :=
  match s.refs r with
  | some v => s.setRef r (some { v with refCount := v.refCount + 1 })
  | none => s

def cleanup : Cleanup → State κ δ
  | .close h => s.close h
  | .dereference r => s.dereference r

/-! ## RtlSetCurrentDirectory_U -/

/-- The open directory becomes the current one. -/
def install (h : Handle) (d : δ) (dosDir : List WCHAR) (r : Nat) (v : CurDirRef) : State κ δ :=
  { s.setRef r (some v) with
    curDirHandle := some h, dosPath := dosDir, curDirRef := some r, current := some d }

/-- The record is changed in place when nobody else has a reference to it. -/
def replaceDirectory (h : Handle) (d : δ) (dosDir : List WCHAR) (newRef : Option Nat) :
    Section κ δ :=
  match s.curDirRef.bind fun r => (s.refs r).map (r, ·) with
  | some (r, v) =>
    if v.refCount = 1 then
      ⟨s.install h d dosDir r { v with directoryHandle := h }, .success,
        [.close v.directoryHandle]⟩
    else
      match newRef.filter fun r => (s.refs r).isNone with
      | some r' => ⟨s.install h d dosDir r' ⟨1, h⟩, .success, [.dereference r]⟩
      | none => ⟨s, .noMemory, [.close h]⟩
  | none =>
    match newRef.filter fun r => (s.refs r).isNone with
    | some r' => ⟨s.install h d dosDir r' ⟨1, h⟩, .success, []⟩
    | none => ⟨s, .noMemory, [.close h]⟩

/-- The lock section. A native call that fails is `unsuccessful`, whatever its status is. -/
def rtlSetCurrentDirectory (e : Change δ) : Section κ δ :=
  if e.isDevice then ⟨s, .notADirectory, []⟩
  else if e.allocated = false then ⟨s, .noMemory, []⟩
  else if e.dosDir = [] then ⟨s, .objectNameInvalid, []⟩
  else if dosPathMaximum < e.dosDir.length then ⟨s, .nameTooLong, []⟩
  else if e.translated = false then ⟨s, .objectNameInvalid, []⟩
  else
    match e.opened.filter fun p => (s.handles p.1).isNone with
    | none => ⟨s, .unsuccessful, []⟩
    | some (k, d) =>
      let s := s.openFile k d
      match e.removable with
      | none => ⟨s, .unsuccessful, [.close ⟨k, 0⟩]⟩
      | some removable =>
        let h : Handle := ⟨k, if removable then 1 else 0⟩
        if e.dosDir.getLast? = some backslash then s.replaceDirectory h d e.dosDir e.newRef
        else if dosPathMaximum < e.dosDir.length + 2 then ⟨s, .nameTooLong, [.close h]⟩
        else s.replaceDirectory h d (e.dosDir ++ [backslash]) e.newRef

/-- The whole call, when nothing comes between its lock section and the rest. -/
def rtlSetCurrentDirectoryAtOnce (e : Change δ) : State κ δ × NtStatus :=
  let r := s.rtlSetCurrentDirectory e
  (r.todo.foldl cleanup r.state, r.status)

/-! ## RtlpValidateCurrentDirectory -/

/-- The volume of the current directory is looked at again. -/
def Stale (dismountCount : Nat) (h : Handle) : Prop :=
  h.tag % 2 = 1 ∨ dismountCount ≠ s.savedDismountCount

instance (dismountCount : Nat) (h : Handle) : Decidable (s.Stale dismountCount h) :=
  inferInstanceAs (Decidable (_ ∨ _))

/-- There is no handle of a current directory any more. -/
def forget : State κ δ := { s with curDirRef := none, curDirHandle := none, current := none }

/-- `RtlpCurDirRef` is dereferenced and forgotten. -/
def dropCurDirRef : State κ δ :=
  match s.curDirRef with
  | some r => (s.dereference r).forget
  | none => s.forget

def rtlpValidateCurrentDirectory (e : Validation δ) : State κ δ :=
  match s.curDirHandle with
  | none => s
  | some h =>
    if s.Stale e.dismountCount h then
      let s := { s with savedDismountCount := e.dismountCount }
      if e.wrongVolume then
        let (s, status) := s.dropCurDirRef.rtlSetCurrentDirectoryAtOnce e.same
        if status.ntSuccess then s else (s.rtlSetCurrentDirectoryAtOnce e.root).1
      else s
    else s

/-! ## RtlpDosPathNameToRelativeNtPathName_Ustr -/

/-- The relative name in a full path that begins with the current directory. -/
def relativeName (upcase : WCHAR → WCHAR) (full : List WCHAR) : Option (List WCHAR) :=
  if s.dosPath.length ≤ full.length ∧
      rtlEqualUnicodeString upcase s.dosPath (full.take s.dosPath.length) true then
    let rest := full.drop s.dosPath.length
    some (if rest.head? = some backslash then rest.tail else rest)
  else none

def translateName (upcase : WCHAR → WCHAR) (capture : Bool) (e : Translation) :
    RelativeName δ :=
  if e.valid ∧ e.relative then
    match s.curDirHandle, s.relativeName upcase e.fullDosPathName with
    | some h, some name => ⟨name, some h, if capture then s.curDirRef else none, s.current⟩
    | _, _ => ⟨[], none, none, s.current⟩
  else ⟨[], none, none, s.current⟩

/-- `RtlpReferenceCurDirRef`, for a name that is captured. -/
def referenceName (n : RelativeName δ) : State κ δ :=
  match n.curDirRef with
  | some r => s.reference r
  | none => s

/-- `RtlReleaseRelativeName` -/
def rtlReleaseRelativeName (n : RelativeName δ) : State κ δ :=
  match n.curDirRef with
  | some r => s.dereference r
  | none => s

/-- The lock section of the translation. -/
def translate (upcase : WCHAR → WCHAR) (capture : Bool) (e : Translation)
    (operations : List Operation) (names : List (RelativeName δ)) : State κ δ :=
  let n := s.translateName upcase capture e
  (s.referenceName n).goto c (.calling operations (n :: names))

end State

/-! ## The transition system -/

/-- The atomic steps. -/
inductive Action (κ δ : Type) where
  | call (c : κ) (f : FileCall)
  | translate (c : κ) (e : Translation)
  | native (c : κ) (again : Bool)
  | release (c : κ)
  /-- The translation, an allocation or a native call has failed. -/
  | leave (c : κ)
  | setCurrentDirectory (c : κ) (e : Change δ)
  | cleanup (c : κ)
  | validate (e : Validation δ)
  deriving DecidableEq, Repr

def Enabled (s : State κ δ) : Action κ δ → Prop
  | .call c _ => s.stage c = .notCalled
  | .translate c e =>
    match s.stage c with
    | .calling (.translate _ required :: _) _ => required = true → e.valid = true
    | _ => False
  | .native c again =>
    match s.stage c with
    | .calling (.native retries :: _) (_ :: _) => again = true → 0 < retries
    | _ => False
  | .release c =>
    match s.stage c with
    | .calling (.release :: _) (_ :: _) => True
    | _ => False
  | .leave c =>
    match s.stage c with
    | .calling (_ :: _) names => ∀ n ∈ names, n.curDirRef = none
    | _ => False
  | .setCurrentDirectory c _ => s.stage c = .notCalled
  | .cleanup c =>
    match s.stage c with
    | .cleaning (_ :: _) => True
    | _ => False
  | .validate _ => True

/-- A native call leaves a name that holds no reference behind, unless it is made again. -/
def State.native (s : State κ δ) (c : κ) (again : Bool) (retries : Nat)
    (operations : List Operation) (n : RelativeName δ) (names : List (RelativeName δ)) :
    State κ δ :=
  if again then s.goto c (.calling (.native (retries - 1) :: operations) (n :: names))
  else if n.curDirRef = none then s.goto c (.calling operations names)
  else s.goto c (.calling operations (n :: names))

def next (upcase : WCHAR → WCHAR) (s : State κ δ) : Action κ δ → State κ δ
  | .call c f => { s.goto c (.calling f.operations []) with calls := c :: s.calls }
  | .translate c e =>
    match s.stage c with
    | .calling (.translate capture _ :: operations) names =>
      s.translate c upcase capture e operations names
    | _ => s
  | .native c again =>
    match s.stage c with
    | .calling (.native retries :: operations) (n :: names) =>
      s.native c again retries operations n names
    | _ => s
  | .release c =>
    match s.stage c with
    | .calling (.release :: operations) (n :: names) =>
      (s.rtlReleaseRelativeName n).goto c (.calling operations names)
    | _ => s
  | .leave c => s.goto c (.calling [] [])
  | .setCurrentDirectory c e =>
    let r := s.rtlSetCurrentDirectory e
    { r.state.goto c (.cleaning r.todo) with calls := c :: s.calls }
  | .cleanup c =>
    match s.stage c with
    | .cleaning (x :: todo) => (s.cleanup x).goto c (.cleaning todo)
    | _ => s
  | .validate e => s.rtlpValidateCurrentDirectory e

/-- The state `LdkpInitializePeb` leaves behind: a path, but no handle yet. -/
def initialState (κ δ : Type) (dosPath : List WCHAR) : State κ δ where
  handles _ := none
  curDirHandle := none
  dosPath := dosPath
  curDirRef := none
  refs _ := none
  savedDismountCount := 2 ^ 32 - 1
  current := none
  calls := []
  stage _ := .notCalled

/-- The calls, with the current directory between them. -/
def fileCalls (upcase : WCHAR → WCHAR) : System (State κ δ) (Action κ δ) where
  init s := ∃ dosPath, s = initialState κ δ dosPath
  enabled := Enabled
  next := next upcase

instance (upcase : WCHAR → WCHAR) (s : State κ δ) (a : Action κ δ) :
    Decidable ((fileCalls upcase).enabled s a) := by
  cases a <;> simp only [fileCalls, Enabled] <;>
    first | infer_instance | (split <;> infer_instance)

end Ldk.CurrentDirectory
