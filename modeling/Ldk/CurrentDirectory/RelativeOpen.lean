import Ldk.CurrentDirectory.Sections

set_option linter.unusedSectionVars false

/-!
# Relative opens and directory changes

The file calls translate a relative name without a reference to the directory it is relative to.
While no directory handle is closed that such a name still has, each native call gets a handle
that is open and denotes the directory that was current when the name was translated
(`root_directory_is_open`). When the directory is changed twice between the two, the handle has
been closed, and may even denote a third directory (`open_in_another_directory`).
-/

namespace Ldk.CurrentDirectory

open TransitionSystem

variable {κ δ : Type} [DecidableEq κ] [DecidableEq δ]

/-! ## The condition -/

/-- The handle that goes with the last reference. -/
def State.lastReference (s : State κ δ) (r : Nat) : Option Handle :=
  (s.refs r).bind fun v => if v.refCount = 1 then some v.directoryHandle else none

/-- The handle a step closes, of those that were open before. -/
def closes (s : State κ δ) : Action κ δ → Option Handle
  | .release c =>
    match s.stage c with
    | .calling (.release :: _) (n :: _) => n.curDirRef.bind s.lastReference
    | _ => none
  | .cleanup c =>
    match s.stage c with
    | .cleaning (.close h :: _) => some h
    | .cleaning (.dereference r :: _) => s.lastReference r
    | _ => none
  | .validate e =>
    if e.wrongVolume ∧ ∀ h ∈ s.curDirHandle, s.Stale e.dismountCount h then
      s.curDirRef.bind s.lastReference
    else none
  | _ => none

/-- No call that has yet to use a name has the handle without a reference. -/
def Unused (s : State κ δ) (h : Handle) : Prop :=
  ∀ c ∈ s.calls, ∀ n ∈ (s.stage c).names, n.curDirRef = none →
    ∀ root ∈ n.rootDirectory, root.index ≠ h.index

instance (s : State κ δ) (h : Handle) : Decidable (Unused s h) := by
  unfold Unused
  infer_instance

/-- A step closes no handle that a name in use has without a reference. -/
def ClosesUnused (s : State κ δ) (a : Action κ δ) : Prop := ∀ h ∈ closes s a, Unused s h

instance (s : State κ δ) (a : Action κ δ) : Decidable (ClosesUnused s a) := by
  unfold ClosesUnused
  infer_instance

/-! ## What a relative open relies on -/

/-- The `RootDirectory` of a name is open and denotes the directory that was current when the
name was translated. -/
def RelativeName.Valid (s : State κ δ) (n : RelativeName δ) : Prop :=
  ∀ h, n.rootDirectory = some h → ∃ d, n.directory = some d ∧ s.handles h.index = some d

/-- Each native call about to be made gets such a handle. -/
def ActsAsTranslated (s : State κ δ) : Prop :=
  ∀ c retries operations n names,
    s.stage c = .calling (.native retries :: operations) (n :: names) → n.Valid s

/-! ## The handles a step leaves alone -/

variable {s : State κ δ} {c : κ} {k r : Nat} {d : δ}

theorem RelativeName.containingDirectory_of_root {n : RelativeName δ} {h : Handle}
    (hroot : n.rootDirectory = some h) : n.containingDirectory = some h := by
  unfold RelativeName.rootDirectory at hroot
  split at hroot
  · exact absurd hroot nofun
  · exact hroot

theorem referenceName_handles (s : State κ δ) (n : RelativeName δ) :
    (s.referenceName n).handles = s.handles := by
  unfold State.referenceName State.reference
  split
  · split <;> rfl
  · rfl

theorem close_handles {h : Handle} (hk : s.handles k = some d) (hne : h.index ≠ k) :
    (s.close h).handles k = some d :=
  (Function.update_of_ne (Ne.symm hne) _ _).trans hk

theorem dereference_handles (hk : s.handles k = some d)
    (hlast : ∀ h ∈ s.lastReference r, h.index ≠ k) : (s.dereference r).handles k = some d := by
  unfold State.dereference
  cases href : s.refs r with
  | none => exact hk
  | some v =>
    dsimp only
    split
    · rename_i hone
      apply close_handles hk
      apply hlast
      unfold State.lastReference
      rw [href, Option.bind_some, if_pos hone]
      rfl
    · exact hk

theorem openFile_handles {i : Nat} (d' : δ) (hk : s.handles k = some d)
    (hfree : s.handles i = none) : (s.openFile i d').handles k = some d ∧ i ≠ k := by
  have hne : i ≠ k := by
    rintro rfl
    rw [hfree] at hk
    exact Option.some_ne_none d hk.symm
  exact ⟨(Function.update_of_ne (Ne.symm hne) _ _).trans hk, hne⟩

theorem replaceDirectory_handles (s : State κ δ) (h : Handle) (d : δ) (dosDir : List WCHAR)
    (newRef : Option Nat) : (s.replaceDirectory h d dosDir newRef).state.handles = s.handles := by
  unfold State.replaceDirectory
  split
  · split
    · rfl
    · split <;> rfl
  · split <;> rfl

/-- The section of a directory change closes nothing itself. -/
theorem rtlSetCurrentDirectory_handles (hk : s.handles k = some d) (e : Change δ) :
    (s.rtlSetCurrentDirectory e).state.handles k = some d := by
  unfold State.rtlSetCurrentDirectory
  split
  · exact hk
  split
  · exact hk
  split
  · exact hk
  split
  · exact hk
  split
  · exact hk
  split
  · exact hk
  rename_i i d' hopened
  have hfree := Option.isNone_iff_eq_none.mp (Option.filter_eq_some_iff.mp hopened).2
  have hopen := (openFile_handles d' hk hfree).1
  dsimp only
  split
  · exact hopen
  split
  · rw [replaceDirectory_handles]
    exact hopen
  split
  · exact hopen
  · rw [replaceDirectory_handles]
    exact hopen

/-- The list only closes handles other than this one. -/
def ClosesOthers (k : Nat) (todo : List Cleanup) : Prop :=
  ∀ x ∈ todo, ∃ h : Handle, x = .close h ∧ h.index ≠ k

theorem closesOthers_nil (k : Nat) : ClosesOthers k [] := fun _ hx => absurd hx List.not_mem_nil

theorem closesOthers_singleton {h : Handle} (hne : h.index ≠ k) : ClosesOthers k [.close h] := by
  intro x hx
  exact ⟨h, List.mem_singleton.mp hx, hne⟩

theorem cleanupAll_handles {todo : List Cleanup} (hothers : ClosesOthers k todo)
    (hk : s.handles k = some d) :
    (todo.foldl State.cleanup s).handles k = some d ∧
      (todo.foldl State.cleanup s).curDirRef = s.curDirRef := by
  induction todo generalizing s with
  | nil => exact ⟨hk, rfl⟩
  | cons x todo ih =>
    obtain ⟨h, rfl, hne⟩ := hothers x List.mem_cons_self
    exact ih (fun y hy => hothers y (List.mem_cons_of_mem _ hy)) (close_handles hk hne)

/-- Without a current directory, the section only closes what it has opened, and when it fails
there is still no current directory. -/
theorem replaceDirectory_todo {h : Handle} {d' : δ} {dosDir : List WCHAR} {newRef : Option Nat}
    (hnone : s.curDirRef = none) (hne : h.index ≠ k) :
    ClosesOthers k (s.replaceDirectory h d' dosDir newRef).todo ∧
      ((s.replaceDirectory h d' dosDir newRef).status.ntSuccess = false →
        (s.replaceDirectory h d' dosDir newRef).state.curDirRef = none) := by
  unfold State.replaceDirectory
  rw [hnone, Option.bind_none]
  dsimp only
  split
  · exact ⟨closesOthers_nil k, fun hfail : true = false => absurd hfail nofun⟩
  · exact ⟨closesOthers_singleton hne, fun _ => hnone⟩

theorem rtlSetCurrentDirectory_todo (hnone : s.curDirRef = none) (hk : s.handles k = some d)
    (e : Change δ) :
    ClosesOthers k (s.rtlSetCurrentDirectory e).todo ∧
      ((s.rtlSetCurrentDirectory e).status.ntSuccess = false →
        (s.rtlSetCurrentDirectory e).state.curDirRef = none) := by
  unfold State.rtlSetCurrentDirectory
  split
  · exact ⟨closesOthers_nil k, fun _ => hnone⟩
  split
  · exact ⟨closesOthers_nil k, fun _ => hnone⟩
  split
  · exact ⟨closesOthers_nil k, fun _ => hnone⟩
  split
  · exact ⟨closesOthers_nil k, fun _ => hnone⟩
  split
  · exact ⟨closesOthers_nil k, fun _ => hnone⟩
  split
  · exact ⟨closesOthers_nil k, fun _ => hnone⟩
  rename_i i d' hopened
  have hfree := Option.isNone_iff_eq_none.mp (Option.filter_eq_some_iff.mp hopened).2
  have hne := (openFile_handles d' hk hfree).2
  dsimp only
  split
  · exact ⟨closesOthers_singleton hne, fun _ => hnone⟩
  split
  · exact replaceDirectory_todo hnone hne
  split
  · exact ⟨closesOthers_singleton hne, fun _ => hnone⟩
  · exact replaceDirectory_todo hnone hne

theorem rtlSetCurrentDirectoryAtOnce_handles (hnone : s.curDirRef = none)
    (hk : s.handles k = some d) (e : Change δ) :
    (s.rtlSetCurrentDirectoryAtOnce e).1.handles k = some d ∧
      ((s.rtlSetCurrentDirectoryAtOnce e).2.ntSuccess = false →
        (s.rtlSetCurrentDirectoryAtOnce e).1.curDirRef = none) := by
  obtain ⟨hothers, hfail⟩ := rtlSetCurrentDirectory_todo hnone hk e
  obtain ⟨hkept, hcurDirRef⟩ :=
    cleanupAll_handles hothers (rtlSetCurrentDirectory_handles hk e)
  exact ⟨hkept, fun h => hcurDirRef.trans (hfail h)⟩

theorem dropCurDirRef_handles (hk : s.handles k = some d)
    (hlast : ∀ h ∈ s.curDirRef.bind s.lastReference, h.index ≠ k) :
    s.dropCurDirRef.handles k = some d ∧ s.dropCurDirRef.curDirRef = none := by
  unfold State.dropCurDirRef
  cases hr : s.curDirRef with
  | none => exact ⟨hk, rfl⟩
  | some r =>
    rw [hr] at hlast
    exact ⟨dereference_handles hk hlast, rfl⟩

theorem rtlpValidateCurrentDirectory_handles {e : Validation δ} (hk : s.handles k = some d)
    (hcloses : ∀ h ∈ closes (κ := κ) s (.validate e), h.index ≠ k) :
    (s.rtlpValidateCurrentDirectory e).handles k = some d := by
  unfold State.rtlpValidateCurrentDirectory
  split
  · exact hk
  rename_i h hh
  split
  · rename_i hstale
    dsimp only
    split
    · rename_i hwrong
      -- the old handle goes, and the attempts to set a directory only open new ones
      have hlast : ∀ h ∈ s.curDirRef.bind s.lastReference, h.index ≠ k := by
        have hcond : e.wrongVolume = true ∧ ∀ h ∈ s.curDirHandle, s.Stale e.dismountCount h := by
          refine ⟨hwrong, fun h' hh' => ?_⟩
          obtain rfl := Option.some.inj (hh.symm.trans hh')
          exact hstale
        unfold closes at hcloses
        dsimp only at hcloses
        rwa [if_pos hcond] at hcloses
      obtain ⟨hdrop, hnone⟩ := dropCurDirRef_handles
        (s := { s with savedDismountCount := e.dismountCount }) hk hlast
      obtain ⟨hsame, hfail⟩ := rtlSetCurrentDirectoryAtOnce_handles hnone hdrop e.same
      split
      · exact hsame
      · rename_i hno
        exact (rtlSetCurrentDirectoryAtOnce_handles
          (hfail (Bool.eq_false_of_not_eq_true hno)) hsame e.root).1
    · exact hk
  · exact hk

/-- A step leaves the handles alone that it does not close. -/
theorem next_handles (upcase : WCHAR → WCHAR) (a : Action κ δ) (hk : s.handles k = some d)
    (hcloses : ∀ h ∈ closes s a, h.index ≠ k) : (next upcase s a).handles k = some d := by
  cases a with
  | call c f => exact hk
  | translate c e =>
    simp only [next]
    split
    · unfold State.translate
      change (s.referenceName _).handles k = some d
      rw [referenceName_handles]
      exact hk
    · exact hk
  | native c again =>
    simp only [next]
    split
    · unfold State.native
      split
      · exact hk
      · split <;> exact hk
    · exact hk
  | release c =>
    simp only [next]
    split
    · rename_i operations n names hc
      unfold closes at hcloses
      dsimp only at hcloses
      rw [hc] at hcloses
      unfold State.rtlReleaseRelativeName
      cases hr : n.curDirRef with
      | none => exact hk
      | some r =>
        dsimp only at hcloses
        rw [hr] at hcloses
        exact dereference_handles hk hcloses
    · exact hk
  | leave c => exact hk
  | setCurrentDirectory c e => exact rtlSetCurrentDirectory_handles hk e
  | cleanup c =>
    simp only [next]
    split
    · rename_i x todo hc
      unfold closes at hcloses
      dsimp only at hcloses
      rw [hc] at hcloses
      cases x with
      | close h => exact close_handles hk (hcloses h rfl)
      | dereference r => exact dereference_handles hk hcloses
    · exact hk
  | validate e => exact rtlpValidateCurrentDirectory_handles hk hcloses

/-! ## The names after a step -/

theorem referenceName_stage (s : State κ δ) (n : RelativeName δ) :
    (s.referenceName n).stage = s.stage := by
  unfold State.referenceName State.reference
  split
  · split <;> rfl
  · rfl

theorem dereference_stage (s : State κ δ) (r : Nat) : (s.dereference r).stage = s.stage := by
  unfold State.dereference
  split
  · split <;> rfl
  · rfl

theorem rtlReleaseRelativeName_stage (s : State κ δ) (n : RelativeName δ) :
    (s.rtlReleaseRelativeName n).stage = s.stage := by
  unfold State.rtlReleaseRelativeName
  split
  · exact dereference_stage s _
  · rfl

theorem cleanup_stage (s : State κ δ) (x : Cleanup) : (s.cleanup x).stage = s.stage := by
  cases x with
  | close h => rfl
  | dereference r => exact dereference_stage s r

theorem cleanupAll_stage (s : State κ δ) (todo : List Cleanup) :
    (todo.foldl State.cleanup s).stage = s.stage := by
  induction todo generalizing s with
  | nil => rfl
  | cons x todo ih => exact (ih _).trans (cleanup_stage s x)

theorem rtlpValidateCurrentDirectory_stage (s : State κ δ) (e : Validation δ) :
    (s.rtlpValidateCurrentDirectory e).stage = s.stage := by
  have hatOnce : ∀ (s : State κ δ) (e : Change δ),
      (s.rtlSetCurrentDirectoryAtOnce e).1.stage = s.stage := fun s e =>
    (cleanupAll_stage _ _).trans (Sound.rtlSetCurrentDirectory_calls s e).2
  have hdrop : ∀ s : State κ δ, s.dropCurDirRef.stage = s.stage := by
    intro s
    unfold State.dropCurDirRef
    split
    · exact dereference_stage s _
    · rfl
  unfold State.rtlpValidateCurrentDirectory
  split
  · rfl
  split
  · dsimp only
    split
    · split
      · rw [hatOnce, hdrop]
      · rw [hatOnce, hatOnce, hdrop]
    · rfl
  · rfl

/-- A step takes one call to another stage. -/
theorem names_goto {s' : State κ δ} {v : Stage δ} {x : κ} {n : RelativeName δ} {P : Prop}
    (hstage : s'.stage = s.stage) (hn : n ∈ ((s'.goto c v).stage x).names)
    (hself : n ∈ v.names → n ∈ (s.stage c).names ∨ P) : n ∈ (s.stage x).names ∨ P := by
  change n ∈ (Function.update s'.stage c v x).names at hn
  rw [hstage] at hn
  by_cases hx : x = c
  · rw [hx, Function.update_self] at hn
    rw [hx]
    exact hself hn
  · rw [Function.update_of_ne hx] at hn
    exact .inl hn

/-- A name in use has been so before, or has just been translated. -/
theorem names_next (upcase : WCHAR → WCHAR) (a : Action κ δ) {x : κ} {n : RelativeName δ}
    (hn : n ∈ ((next upcase s a).stage x).names) :
    n ∈ (s.stage x).names ∨
      ∃ c e capture, a = .translate c e ∧ s.translateName upcase capture e = n := by
  cases a with
  | call c f => exact names_goto rfl hn (fun h => absurd h List.not_mem_nil)
  | translate c e =>
    simp only [next] at hn
    split at hn
    · rename_i capture required operations names hc
      apply names_goto (referenceName_stage s _) hn
      intro hself
      rcases List.mem_cons.mp hself with rfl | hold
      · exact .inr ⟨c, e, capture, rfl, rfl⟩
      · exact .inl (by rw [hc]; exact hold)
    · exact .inl hn
  | native c again =>
    simp only [next] at hn
    split at hn
    · rename_i retries operations m names hc
      unfold State.native at hn
      split at hn
      · exact names_goto rfl hn (fun h => .inl (by rw [hc]; exact h))
      split at hn
      · exact names_goto rfl hn (fun h => .inl (by rw [hc]; exact List.mem_cons_of_mem _ h))
      · exact names_goto rfl hn (fun h => .inl (by rw [hc]; exact h))
    · exact .inl hn
  | release c =>
    simp only [next] at hn
    split at hn
    · rename_i operations m names hc
      exact names_goto (rtlReleaseRelativeName_stage s m) hn
        (fun h => .inl (by rw [hc]; exact List.mem_cons_of_mem _ h))
    · exact .inl hn
  | leave c => exact names_goto rfl hn (fun h => absurd h List.not_mem_nil)
  | setCurrentDirectory c e =>
    exact names_goto (Sound.rtlSetCurrentDirectory_calls s e).2 hn
      (fun h => absurd h List.not_mem_nil)
  | cleanup c =>
    simp only [next] at hn
    split at hn
    · exact names_goto (cleanup_stage s _) hn (fun h => absurd h List.not_mem_nil)
    · exact .inl hn
  | validate e =>
    simp only [next] at hn
    rw [rtlpValidateCurrentDirectory_stage] at hn
    exact .inl hn

/-! ## Every name in use is valid -/

/-- A captured name is valid whatever is closed. -/
theorem Sound.valid_of_captured (hs : Sound [] s) {n : RelativeName δ}
    (hn : n ∈ (s.stage c).names) (hr : n.curDirRef = some r) : n.Valid s := by
  intro h hroot
  obtain ⟨v, d, -, hdir, hd, hopen⟩ := hs.captured c n hn r hr
  obtain rfl := Option.some.inj (hdir.symm.trans (RelativeName.containingDirectory_of_root hroot))
  exact ⟨d, hd, hopen⟩

/-- A name is valid when it is translated. -/
theorem Sound.valid_translateName (hs : Sound [] s) (upcase : WCHAR → WCHAR) (capture : Bool)
    (e : Translation) : (s.translateName upcase capture e).Valid s := by
  intro h hroot
  have hdir := RelativeName.containingDirectory_of_root hroot
  obtain ⟨hcurrent, ⟨hnone, -⟩ | ⟨hhandle, -⟩⟩ :=
    Sound.translateName_root (n := s.translateName upcase capture e) rfl
  · rw [hnone] at hdir
    exact absurd hdir nofun
  · obtain ⟨r, v, d, hcur⟩ := hs.current h (hhandle.symm.trans hdir)
    exact ⟨d, hcurrent.trans hcur.directory, hcur.opened⟩

theorem valid_next (upcase : WCHAR → WCHAR) (a : Action κ δ) (hs : Sound [] s)
    (hs' : Sound [] (next upcase s a)) (hguard : ClosesUnused s a)
    (hvalid : ∀ c, ∀ n ∈ (s.stage c).names, n.Valid s) :
    ∀ c, ∀ n ∈ ((next upcase s a).stage c).names, n.Valid (next upcase s a) := by
  intro c n hn
  cases hr : n.curDirRef with
  | some r => exact hs'.valid_of_captured hn hr
  | none =>
    intro h hroot
    rcases names_next upcase a hn with hold | ⟨c', e, capture, rfl, hnew⟩
    · -- an old name: no step closes its handle
      obtain ⟨d, hd, hopen⟩ := hvalid c n hold h hroot
      have hcalled := (hs.called c).mpr (Sound.called_of_names hold)
      exact ⟨d, hd, next_handles upcase a hopen
        (fun h' hh' heq => hguard h' hh' c hcalled n hold hr h hroot heq.symm)⟩
    · -- a new name: a translation closes nothing
      subst hnew
      obtain ⟨d, hd, hopen⟩ := hs.valid_translateName upcase capture e h hroot
      exact ⟨d, hd, next_handles upcase _ hopen (fun h' hh' => absurd hh' nofun)⟩

/-- While no handle is closed that a translated name still needs, each native call acts on the
object named relative to the directory that was current at the translation. -/
theorem root_directory_is_open (upcase : WCHAR → WCHAR) :
    ∀ s : State κ δ, (fileCalls upcase).Reachable ClosesUnused s → ActsAsTranslated s := by
  have hall : ∀ s : State κ δ, (fileCalls upcase).Reachable ClosesUnused s →
      ∀ c, ∀ n ∈ (s.stage c).names, n.Valid s := by
    -- what is captured stays valid as long as the counts are right
    refine System.Reachable.invariantUnder (J := Sound []) (sound upcase) ?_ ?_
    · intro s hinit c n hn
      obtain ⟨dosPath, rfl⟩ := hinit
      exact absurd hn List.not_mem_nil
    · intro s a hs hvalid hen hguard
      exact valid_next upcase a hs (hs.next upcase a hen) hguard hvalid
  intro s hr c retries operations n names hc
  exact hall s hr c n (by rw [hc]; exact List.mem_cons_self)

/-! ## A change between the translation and the open -/

/-- A directory change that succeeds. -/
def changeTo (path : List WCHAR) (k d r : Nat) : Change Nat :=
  ⟨false, true, path, true, some (k, d), some false, some r⟩

/-- `C:` and a directory of one letter. -/
def pathOf (letter : WCHAR) : List WCHAR := [0x43, 0x3a, 0x5c, letter, 0x5c]

/-- The directory is changed while a file is about to be opened; the old handle is still to be
closed. -/
def changing : List (Action Nat Nat) :=
  [.setCurrentDirectory 0 (changeTo (pathOf 0x61) 1 10 0),
    .call 1 .createFileW, .translate 1 ⟨true, true, pathOf 0x61 ++ [0x78]⟩,
    .setCurrentDirectory 2 (changeTo (pathOf 0x62) 2 11 1)]

theorem changing_root_is_open :
    ((fileCalls id).exec (initialState Nat Nat []) changing).curDirHandle = some ⟨2, 0⟩ ∧
      ActsAsTranslated ((fileCalls id).exec (initialState Nat Nat []) changing) :=
  ⟨by decide +kernel,
    root_directory_is_open id _
      (System.reachable_exec _ changing ⟨[], rfl⟩ (by decide +kernel))⟩

/-- The handle is closed, and a second change gets one with the same value. -/
def changingTwice : List (Action Nat Nat) :=
  changing ++ [.cleanup 2, .setCurrentDirectory 3 (changeTo (pathOf 0x63) 1 12 2)]

/-- The file is then opened in a directory that was not current before its name was translated. -/
theorem open_in_another_directory :
    ¬ ∀ s : State Nat Nat, (fileCalls id).Reachable Always s → ActsAsTranslated s := by
  intro hall
  have hvalid := hall _ (System.reachable_exec _ changingTwice ⟨[], rfl⟩ (by decide +kernel)) 1 0
    [] ⟨[0x78], some ⟨1, 0⟩, none, some 10⟩ [] (by decide +kernel)
  obtain ⟨d, hd, hopen⟩ := hvalid ⟨1, 0⟩ rfl
  have hother : ((fileCalls id).exec (initialState Nat Nat []) changingTwice).handles 1 =
      some 12 := by decide +kernel
  exact absurd (hd.trans (hopen.symm.trans hother)) (by decide)

end Ldk.CurrentDirectory
