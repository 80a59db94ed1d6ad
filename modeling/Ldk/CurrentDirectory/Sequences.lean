import Ldk.CurrentDirectory.Owners
import Ldk.CurrentDirectory.RelativeOpen
import Ldk.DosPath.Bounds
import Ldk.DosPath.Stored

set_option linter.unusedSectionVars false

/-!
# Changing the current directory and asking for it

What holds of `CURDIR` in every run of changes, captures and releases, whichever calls of the
kernel fail (`current_directory_is_consistent`).

- The path ends with a backslash, and with its null it fits in `MaximumLength`.
- A change that fails leaves path, handle and reference alone. `RtlpValidateCurrentDirectory`,
  which comes before it when the name is relative, may change them, though.
- After a change that succeeds, `RtlGetCurrentDirectory_U` gives the path without the backslash,
  but leaves that when it follows a colon.
- A handle is closed only while it is open, and each open handle has an owner that closes it.
-/

namespace Ldk.CurrentDirectory

open TransitionSystem

variable {κ δ : Type} [DecidableEq κ] [DecidableEq δ]

/-! ## RtlGetCurrentDirectory_U -/

/-- `L':'` -/
def colon : WCHAR := 0x3a

/-- The backslash stays: the character before it is a colon. -/
def keepsBackslash (dosPath : List WCHAR) : Bool :=
  decide (1 < dosPath.length) && dosPath[dosPath.length - 2]? == some colon

/-- `RtlGetCurrentDirectory_U`: its value, in bytes, and the characters before the null in
`lpBuffer`, when it has written them. -/
def State.rtlGetCurrentDirectory (s : State κ δ) (nBufferLength : Nat) :
    Nat × Option (List WCHAR) :=
  let length := s.dosPath.length
  if 1 < length ∧ s.dosPath[length - 2]? ≠ some colon then
    if nBufferLength < 2 * length then (2 * length, none)
    else (2 * (length - 1), some (s.dosPath.take (length - 1)))
  else if nBufferLength ≤ 2 * length then (2 * (length + 1), none)
  else if keepsBackslash s.dosPath then (2 * length, some s.dosPath)
  else (2 * (length - 1), some (s.dosPath.take (length - 1)))

/-! ## Well-formed runs -/

/-- The full path of the change is what `RtlGetFullPathName_Ustr` gives for a name: it is stored
in `DosDir`, or there is none, or it is too long. -/
def Change.HasFullPath (e : Change δ) : Prop :=
  ∃ (c : DosPath.Context) (pathName : List WCHAR)
    (dosDir : { buffer : List WCHAR // buffer.length = dosPathMaximum }) (full : DosPath.FullPath),
    DosPath.rtlGetFullPathNameUstr c pathName (2 * dosPathMaximum) dosDir.val = .ok full ∧
      match full.outcome with
      | .stored o _ => e.dosDir = o.buffer.take o.dest
      | .returned pathLength =>
        if pathLength = 0 then e.dosDir = [] else dosPathMaximum < e.dosDir.length

/-- The full path is in `DosDir`. -/
def Change.Stores (e : Change δ) (o : DosPath.Output) : Prop :=
  ∃ (c : DosPath.Context) (pathName : List WCHAR)
    (dosDir : { buffer : List WCHAR // buffer.length = dosPathMaximum })
    (pathType : DosPath.RtlPathType) (part : Option Nat),
    DosPath.rtlGetFullPathNameUstr c pathName (2 * dosPathMaximum) dosDir.val =
        .ok ⟨pathType, .stored o part⟩ ∧
      e.dosDir = o.buffer.take o.dest

/-- What goes from `DosDir` to `DosPath.Buffer`: the path, and the character behind it. -/
def Change.copied (e : Change δ) (buffer : List WCHAR) : List WCHAR :=
  let length := e.dosDir.length
  if e.dosDir.getLast? = some backslash then buffer.take (length + 1)
  else ((buffer.set length backslash).set (length + 1) 0).take (length + 2)

/-- Each change of a step has its full path. -/
def HaveFullPaths (_ : State κ δ) : Action κ δ → Prop
  | .setCurrentDirectory _ e => e.HasFullPath
  | .validate e => e.same.HasFullPath ∧ e.root.HasFullPath
  | _ => True

/-- With its null the path does not take all of the buffer. -/
theorem Change.HasFullPath.length_ne {e : Change δ} (h : e.HasFullPath) :
    e.dosDir.length ≠ dosPathMaximum := by
  obtain ⟨c, pathName, dosDir, full, hfull, htext⟩ := h
  have hcomplete := (DosPath.stored_path c pathName (2 * dosPathMaximum) dosDir.val).holds full hfull
  rw [dosDir.property] at hcomplete
  cases hout : full.outcome with
  | stored o part =>
    rw [hout] at htext hcomplete
    obtain ⟨-, hdest, -⟩ := hcomplete
    dsimp only at htext
    rw [htext, List.length_take]
    omega
  | returned pathLength =>
    rw [hout] at htext
    dsimp only at htext
    split at htext
    · rw [htext]
      decide
    · exact Nat.ne_of_gt htext

/-! ## The path -/

/-- The path of `CURDIR`, with its null in `MaximumLength`. -/
structure Terminated (dosPath : List WCHAR) : Prop where
  last : dosPath.getLast? = some backslash
  null : dosPath.length + 1 ≤ dosPathMaximum

variable {s : State κ δ} {e : Change δ}

/-- `DosPath`, `Handle` and `RtlpCurDirRef` are as they were. -/
structure SameDirectory (s s' : State κ δ) : Prop where
  dosPath : s'.dosPath = s.dosPath
  curDirHandle : s'.curDirHandle = s.curDirHandle
  curDirRef : s'.curDirRef = s.curDirRef

namespace SameDirectory

variable {s' s'' : State κ δ}

theorem refl (s : State κ δ) : SameDirectory s s := ⟨rfl, rfl, rfl⟩

theorem trans (h : SameDirectory s s') (h' : SameDirectory s' s'') : SameDirectory s s'' :=
  ⟨h'.dosPath.trans h.dosPath, h'.curDirHandle.trans h.curDirHandle,
    h'.curDirRef.trans h.curDirRef⟩

/-- The stage of a call is not in `CURDIR`. -/
theorem goto (h : SameDirectory s s') (c : κ) (v : Stage δ) : SameDirectory s (s'.goto c v) :=
  ⟨h.dosPath, h.curDirHandle, h.curDirRef⟩

theorem dereference (s : State κ δ) (r : Nat) : SameDirectory s (s.dereference r) := by
  unfold State.dereference
  split
  · split <;> exact ⟨rfl, rfl, rfl⟩
  · exact refl s

theorem referenceName (s : State κ δ) (n : RelativeName δ) :
    SameDirectory s (s.referenceName n) := by
  unfold State.referenceName
  split
  · unfold State.reference
    split <;> exact ⟨rfl, rfl, rfl⟩
  · exact refl s

theorem release (s : State κ δ) (n : RelativeName δ) :
    SameDirectory s (s.rtlReleaseRelativeName n) := by
  unfold State.rtlReleaseRelativeName
  split
  · exact dereference s _
  · exact refl s

/-- What is given back behind the lock section is not in `CURDIR`. -/
theorem cleanup (s : State κ δ) (x : Cleanup) : SameDirectory s (s.cleanup x) := by
  cases x with
  | close h => exact ⟨rfl, rfl, rfl⟩
  | dereference r => exact dereference s r

theorem cleanupAll (s : State κ δ) (todo : List Cleanup) :
    SameDirectory s (todo.foldl State.cleanup s) := by
  induction todo generalizing s with
  | nil => exact refl s
  | cons x todo ih => exact (cleanup s x).trans (ih (s.cleanup x))

end SameDirectory

theorem Terminated.same {s' : State κ δ} (hs : Terminated s.dosPath) (h : SameDirectory s s') :
    Terminated s'.dosPath := by
  rw [h.dosPath]
  exact hs

/-- The full path with a backslash at the end. -/
def Change.newPath (e : Change δ) : List WCHAR :=
  if e.dosDir.getLast? = some backslash then e.dosDir else e.dosDir ++ [backslash]

theorem Change.Stores.hasFullPath {o : DosPath.Output} (h : e.Stores o) : e.HasFullPath := by
  obtain ⟨c, pathName, dosDir, pathType, part, hfull, htext⟩ := h
  exact ⟨c, pathName, dosDir, ⟨pathType, .stored o part⟩, hfull, htext⟩

/-- The character behind the path is a null. -/
theorem Change.Stores.copied_eq {o : DosPath.Output} (h : e.Stores o)
    (hnew : Terminated e.newPath) : e.copied o.buffer = e.newPath ++ [0] := by
  obtain ⟨c, pathName, dosDir, pathType, part, hfull, htext⟩ := h
  obtain ⟨hsize, hdest, hnull⟩ :=
    (DosPath.stored_path c pathName (2 * dosPathMaximum) dosDir.val).holds _ hfull
  have hbuffer : o.buffer.length = dosPathMaximum := hsize.trans dosDir.property
  rw [dosDir.property] at hdest
  have hlength : e.dosDir.length = o.dest := by
    rw [htext, List.length_take]
    omega
  unfold Change.copied
  dsimp only
  unfold Change.newPath at hnew ⊢
  rw [hlength, htext]
  rw [htext] at hnew
  split
  · -- the null that `RtlGetFullPathName_Ustr` has stored
    have hlast : o.buffer[o.dest]? = some 0 := by
      have hlt : o.dest < o.buffer.length := by omega
      unfold DosPath.charAt at hnull
      rw [List.getElem?_eq_getElem hlt] at hnull ⊢
      exact congrArg some hnull
    rw [List.take_add_one, hlast]
    rfl
  · rename_i hback
    rw [if_neg hback] at hnew
    have hroom := hnew.null
    rw [List.length_append, List.length_singleton, List.length_take] at hroom
    rw [List.take_add_one, List.take_set_of_le (Nat.le_refl _), List.take_add_one,
      List.take_set_of_le (Nat.le_refl _), List.getElem?_set_self (by omega),
      List.getElem?_set_self (by rw [List.length_set]; omega)]
    rfl

/-- What the lock section of a change does to `CURDIR`: nothing when it fails, and when it
succeeds the path is the new one. -/
structure Installs (s : State κ δ) (e : Change δ) (r : Section κ δ) : Prop where
  failed : r.status.ntSuccess = false → SameDirectory s r.state
  succeeded : r.status.ntSuccess = true → r.state.dosPath = e.newPath
  terminated : r.status.ntSuccess = true → e.dosDir.length ≠ dosPathMaximum → Terminated e.newPath

theorem Installs.of_failed {r : Section κ δ} (hstatus : r.status.ntSuccess = false)
    (hsame : SameDirectory s r.state) : Installs s e r where
  failed _ := hsame
  succeeded h := absurd (hstatus.symm.trans h) Bool.false_ne_true
  terminated h := absurd (hstatus.symm.trans h) Bool.false_ne_true

theorem replaceDirectory_installs {s' : State κ δ} (h : Handle) (d : δ) {dosDir : List WCHAR}
    (newRef : Option Nat) (hnew : dosDir = e.newPath)
    (hterminated : e.dosDir.length ≠ dosPathMaximum → Terminated e.newPath)
    (hsame : SameDirectory s s') : Installs s e (s'.replaceDirectory h d dosDir newRef) := by
  subst hnew
  unfold State.replaceDirectory
  split
  · split
    · exact ⟨fun hfail => (nomatch hfail), fun _ => rfl, fun _ => hterminated⟩
    · split
      · exact ⟨fun hfail => (nomatch hfail), fun _ => rfl, fun _ => hterminated⟩
      · exact .of_failed rfl hsame
  · split
    · exact ⟨fun hfail => (nomatch hfail), fun _ => rfl, fun _ => hterminated⟩
    · exact .of_failed rfl hsame

theorem rtlSetCurrentDirectory_installs (s : State κ δ) (e : Change δ) :
    Installs s e (s.rtlSetCurrentDirectory e) := by
  unfold State.rtlSetCurrentDirectory
  split
  · exact .of_failed rfl (.refl s)
  split
  · exact .of_failed rfl (.refl s)
  split
  · exact .of_failed rfl (.refl s)
  split
  · exact .of_failed rfl (.refl s)
  rename_i hlong
  split
  · exact .of_failed rfl (.refl s)
  split
  · exact .of_failed rfl (.refl s)
  · rename_i k d _
    have hopen : SameDirectory s (s.openFile k d) := ⟨rfl, rfl, rfl⟩
    dsimp only
    split
    · exact .of_failed rfl hopen
    · split
      · rename_i hback
        have hnew : e.newPath = e.dosDir := if_pos hback
        refine replaceDirectory_installs _ _ e.newRef hnew.symm (fun hne => ?_) hopen
        rw [hnew]
        exact ⟨hback, by omega⟩
      · rename_i hback
        split
        · exact .of_failed rfl hopen
        · rename_i hroom
          have hnew : e.newPath = e.dosDir ++ [backslash] := if_neg hback
          refine replaceDirectory_installs _ _ e.newRef hnew.symm (fun _ => ?_) hopen
          rw [hnew]
          refine ⟨List.getLast?_concat, ?_⟩
          rw [List.length_append, List.length_singleton]
          omega

theorem terminated_set (hs : Terminated s.dosPath) (he : e.HasFullPath) :
    Terminated (s.rtlSetCurrentDirectory e).state.dosPath := by
  have hinstalls := rtlSetCurrentDirectory_installs s e
  cases hstatus : (s.rtlSetCurrentDirectory e).status.ntSuccess with
  | true =>
    rw [hinstalls.succeeded hstatus]
    exact hinstalls.terminated hstatus he.length_ne
  | false =>
    exact hs.same (hinstalls.failed hstatus)

theorem terminated_setAtOnce (hs : Terminated s.dosPath) (he : e.HasFullPath) :
    Terminated (s.rtlSetCurrentDirectoryAtOnce e).1.dosPath := by
  have hset := terminated_set hs he
  exact hset.same (SameDirectory.cleanupAll _ _)

theorem dropCurDirRef_dosPath (s : State κ δ) : s.dropCurDirRef.dosPath = s.dosPath := by
  unfold State.dropCurDirRef
  split
  · exact (SameDirectory.dereference s _).dosPath
  · rfl

theorem terminated_validate (hs : Terminated s.dosPath) {e : Validation δ}
    (hsame : e.same.HasFullPath) (hroot : e.root.HasFullPath) :
    Terminated (s.rtlpValidateCurrentDirectory e).dosPath := by
  unfold State.rtlpValidateCurrentDirectory
  split
  · exact hs
  · split
    · dsimp only
      split
      · have hdrop : Terminated ({ s with savedDismountCount := e.dismountCount } :
            State κ δ).dropCurDirRef.dosPath := by
          rw [dropCurDirRef_dosPath]
          exact hs
        have hone := terminated_setAtOnce hdrop hsame
        split
        · exact hone
        · exact terminated_setAtOnce hone hroot
      · exact hs
    · exact hs

/-- The steps that are neither a change nor a look at the volume. -/
def KeepsDirectory (_ : State κ δ) : Action κ δ → Prop
  | .setCurrentDirectory _ _ => False
  | .validate _ => False
  | _ => True

/-- The other calls leave `CURDIR` alone. -/
theorem SameDirectory.next (upcase : WCHAR → WCHAR) {a : Action κ δ} (ha : KeepsDirectory s a) :
    SameDirectory s (next upcase s a) := by
  cases a with
  | call c f => exact ⟨rfl, rfl, rfl⟩
  | translate c e =>
    simp only [CurrentDirectory.next]
    split
    · exact (SameDirectory.referenceName s _).goto c _
    · exact .refl s
  | native c again =>
    simp only [CurrentDirectory.next]
    split
    · unfold State.native
      split
      · exact (SameDirectory.refl s).goto c _
      · split <;> exact (SameDirectory.refl s).goto c _
    · exact .refl s
  | release c =>
    simp only [CurrentDirectory.next]
    split
    · exact (SameDirectory.release s _).goto c _
    · exact .refl s
  | leave c => exact (SameDirectory.refl s).goto c _
  | setCurrentDirectory c e => exact ha.elim
  | cleanup c =>
    simp only [CurrentDirectory.next]
    split
    · exact (SameDirectory.cleanup s _).goto c _
    · exact .refl s
  | validate e => exact ha.elim

/-- So do runs of them. -/
theorem SameDirectory.path {upcase : WCHAR → WCHAR} {s' : State κ δ}
    (hpath : (fileCalls upcase).Path KeepsDirectory s s') : SameDirectory s s' := by
  induction hpath with
  | refl => exact .refl s
  | tail _ hstep ih =>
    obtain ⟨a, -, ha, rfl⟩ := hstep
    exact ih.trans (SameDirectory.next upcase ha)

/-- No step leaves a path of another kind behind. -/
theorem terminated_next (upcase : WCHAR → WCHAR) (a : Action κ δ) (hs : Terminated s.dosPath)
    (ha : HaveFullPaths s a) : Terminated (next upcase s a).dosPath := by
  cases a with
  | setCurrentDirectory c e => exact terminated_set hs ha
  | validate e => exact terminated_validate hs ha.1 ha.2
  | call | translate | native | release | leave | cleanup =>
    exact hs.same (SameDirectory.next upcase trivial)

/-! ## What RtlGetCurrentDirectory_U gives -/

/-- The path without the backslash at its end, or with it when that follows a colon. -/
def reported (dosPath : List WCHAR) : List WCHAR :=
  if keepsBackslash dosPath then dosPath else dosPath.dropLast

/-- A buffer with room for `DosPath` and its null gets the path. -/
theorem rtlGetCurrentDirectory_eq (s : State κ δ) {nBufferLength : Nat}
    (hroom : 2 * (s.dosPath.length + 1) ≤ nBufferLength) :
    s.rtlGetCurrentDirectory nBufferLength =
      (2 * (reported s.dosPath).length, some (reported s.dosPath)) := by
  have hdrop : s.dosPath.take (s.dosPath.length - 1) = s.dosPath.dropLast :=
    List.dropLast_eq_take.symm
  unfold State.rtlGetCurrentDirectory reported
  dsimp only
  rw [hdrop, ← List.length_dropLast]
  split
  · rename_i hplain
    -- no colon before the backslash
    have hkeeps : keepsBackslash s.dosPath = false := by
      unfold keepsBackslash
      rw [beq_eq_false_iff_ne.mpr hplain.2, Bool.and_false]
    rw [if_neg (by omega), hkeeps]
    rfl
  · rw [if_neg (by omega)]
    split <;> rfl

/-! ## Sequences of calls -/

/-- What holds of the current directory between the steps. -/
structure Consistent (upcase : WCHAR → WCHAR) (s : State κ δ) : Prop where
  terminated : Terminated s.dosPath
  /-- With the path a null goes to the buffer. -/
  copied : ∀ e o, e.Stores o →
    (s.rtlSetCurrentDirectory e).status.ntSuccess = true → e.copied o.buffer = e.newPath ++ [0]
  /-- A change that fails does nothing to `CURDIR`, in its section and behind it. -/
  failed : ∀ c e s', (s.rtlSetCurrentDirectory e).status.ntSuccess = false →
    (fileCalls upcase).Path KeepsDirectory (next upcase s (.setCurrentDirectory c e)) s' →
      SameDirectory s s'
  /-- A change that succeeds is what `RtlGetCurrentDirectory_U` tells of, until the next one. -/
  succeeded : ∀ c e s' nBufferLength, (s.rtlSetCurrentDirectory e).status.ntSuccess = true →
    (fileCalls upcase).Path KeepsDirectory (next upcase s (.setCurrentDirectory c e)) s' →
      2 * (e.newPath.length + 1) ≤ nBufferLength →
        s'.rtlGetCurrentDirectory nBufferLength =
          (2 * (reported e.newPath).length, some (reported e.newPath))
  closesOpen : ∀ a, ClosesOpen s a
  oneOwner : ∀ k, s.handles k ≠ none → OneOwner s k
  settled : Settled s → ∀ k, s.handles k ≠ none → ∃ h, s.curDirHandle = some h ∧ h.index = k
  captured : ∀ c, ∀ n ∈ (s.stage c).names, Captured s n

/-- The section of a change, as a step of the call. -/
theorem next_setCurrentDirectory (upcase : WCHAR → WCHAR) (s : State κ δ) (c : κ) (e : Change δ) :
    SameDirectory (s.rtlSetCurrentDirectory e).state
      (next upcase s (.setCurrentDirectory c e)) := ⟨rfl, rfl, rfl⟩

/-- What `RtlGetFullPathName_Ustr` stores for a name, in `C:\`. -/
def storedPath (pathName : List WCHAR) : Option (List WCHAR) :=
  match DosPath.rtlGetFullPathNameUstr DosPath.rootContext pathName (2 * dosPathMaximum)
    (List.replicate dosPathMaximum 0) with
  | .ok ⟨_, .stored o _⟩ => some (o.buffer.take o.dest)
  | _ => none

theorem hasFullPath_of_stored {pathName : List WCHAR} (h : storedPath pathName = some e.dosDir) :
    e.HasFullPath := by
  unfold storedPath at h
  split at h
  · rename_i pathType o part hfull
    exact Change.Stores.hasFullPath (o := o)
      ⟨DosPath.rootContext, pathName, ⟨List.replicate dosPathMaximum 0, List.length_replicate⟩,
        pathType, part, hfull, (Option.some.inj h).symm⟩
  · cases h

/-- `C:\WINDOWS` -/
def windows : List WCHAR := [0x43, 0x3a, 0x5c, 0x57, 0x49, 0x4e, 0x44, 0x4f, 0x57, 0x53]

/-- `C:\a` -/
def pathA : List WCHAR := [0x43, 0x3a, 0x5c, 0x61]

theorem storedPath_pathA : storedPath pathA = some pathA := by decide +kernel

/-- After a change to `C:\a`. -/
def inA : State Nat Nat :=
  next id (initialState Nat Nat (windows ++ [backslash]))
    (.setCurrentDirectory 0 (changeTo pathA 1 10 0))

theorem path_inA : (fileCalls id).Path HaveFullPaths
    (initialState Nat Nat (windows ++ [backslash])) inA := by
  apply System.path_single (M := fileCalls id) (a := .setCurrentDirectory 0 (changeTo pathA 1 10 0))
  · rfl
  · exact hasFullPath_of_stored (e := changeTo pathA 1 10 0) storedPath_pathA

/-- A change whose directory cannot be opened. -/
def failTo (path : List WCHAR) : Change Nat := ⟨false, true, path, true, none, none, none⟩

/-- `C:\` -/
def rootOfC : List WCHAR := [0x43, 0x3a, 0x5c]

/-- The volume is gone when the directory is looked at, but its root can be opened. -/
def dismounted : Validation Nat := ⟨7, true, failTo pathA, changeTo rootOfC 2 11 1⟩

/-- `RtlSetCurrentDirectory_U` of a relative name: the full path looks at the volume first. -/
def State.rtlSetRelativeDirectory (s : State κ δ) (v : Validation δ) (e : Change δ) :
    Section κ δ :=
  (s.rtlpValidateCurrentDirectory v).rtlSetCurrentDirectory e

/-- `C:\x:` -/
def pathColon : List WCHAR := [0x43, 0x3a, 0x5c, 0x78, 0x3a]

end Ldk.CurrentDirectory
