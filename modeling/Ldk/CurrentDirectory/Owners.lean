import Ldk.CurrentDirectory.Sections

set_option linter.unusedSectionVars false

/-!
# Each open directory handle has an owner

`Sound` says that nothing closes a handle that is not open. Here is the other half: a handle that
is open is that of a record, or some section or call is still going to close it. So no section
forgets one, whichever call of the kernel fails in it.
-/

namespace Ldk.CurrentDirectory

open TransitionSystem

variable {κ δ : Type} [DecidableEq κ] [DecidableEq δ] {s : State κ δ}

/-- An open handle is that of a record, or it is about to be closed. -/
def HandlesOwned (todo : List Cleanup) (s : State κ δ) : Prop :=
  ∀ k, s.handles k ≠ none →
    (∃ r v, s.refs r = some v ∧ v.directoryHandle.index = k) ∨ 0 < s.closings todo k

/-! ## The pieces of a section -/

namespace HandlesOwned

variable {todo todo' : List Cleanup} {c : κ} {h : Handle} {d : δ} {r k : Nat}

theorem openFile (hs : HandlesOwned todo s) (k t : Nat) (d : δ) :
    HandlesOwned (.close ⟨k, t⟩ :: todo) (s.openFile k d) := by
  intro i hi
  have hclosings : (s.openFile k d).closings (.close ⟨k, t⟩ :: todo) i =
      s.closings todo i + if k = i then 1 else 0 := State.closings_close_cons _ _ _ _
  rw [hclosings]
  by_cases hki : k = i
  · right
    rw [if_pos hki]
    exact Nat.succ_pos _
  · have hold : s.handles i ≠ none := by
      change Function.update s.handles k (some d) i ≠ none at hi
      rwa [Function.update_of_ne (Ne.symm hki)] at hi
    rcases hs i hold with howner | hpos
    · exact .inl howner
    · exact .inr (Nat.lt_of_lt_of_le hpos (Nat.le_add_right _ _))

theorem close (hs : HandlesOwned (.close h :: todo) s) : HandlesOwned todo (s.close h) := by
  intro i hi
  change Function.update s.handles h.index none i ≠ none at hi
  by_cases hindex : h.index = i
  · rw [hindex, Function.update_self] at hi
    exact absurd rfl hi
  · rw [Function.update_of_ne (Ne.symm hindex)] at hi
    rcases hs i hi with howner | hpos
    · exact .inl howner
    · rw [State.closings_close_cons, if_neg hindex] at hpos
      exact .inr hpos

/-- The record goes together with its handle. -/
theorem dereference (hs : HandlesOwned (.dereference r :: todo) s) :
    HandlesOwned todo (s.dereference r) := by
  have hsame : ∀ k, s.closings (.dereference r :: todo) k = s.closings todo k :=
    fun k => State.closings_dereference_cons _ _ _ _
  unfold State.dereference
  cases hr : s.refs r with
  | none =>
    intro k hk
    rw [← hsame]
    exact hs k hk
  | some v =>
    dsimp only
    split
    · intro k hk
      change Function.update s.handles v.directoryHandle.index none k ≠ none at hk
      by_cases hindex : v.directoryHandle.index = k
      · rw [hindex, Function.update_self] at hk
        exact absurd rfl hk
      · rw [Function.update_of_ne (Ne.symm hindex)] at hk
        rcases hs k hk with ⟨r', v', hr', hv'⟩ | hpos
        · have hne : r' ≠ r := by
            rintro rfl
            rw [hr] at hr'
            obtain rfl := Option.some.inj hr'
            exact hindex hv'
          exact .inl ⟨r', v', (Function.update_of_ne hne _ _).trans hr', hv'⟩
        · rw [hsame] at hpos
          exact .inr hpos
    · intro k hk
      rcases hs k hk with ⟨r', v', hr', hv'⟩ | hpos
      · by_cases hne : r' = r
        · subst hne
          rw [hr] at hr'
          obtain rfl := Option.some.inj hr'
          exact .inl ⟨r', _, Function.update_self _ _ _, hv'⟩
        · exact .inl ⟨r', v', (Function.update_of_ne hne _ _).trans hr', hv'⟩
      · rw [hsame] at hpos
        exact .inr hpos

theorem cleanup {x : Cleanup} (hs : HandlesOwned (x :: todo) s) :
    HandlesOwned todo (s.cleanup x) := by
  cases x with
  | close h => exact hs.close
  | dereference r => exact hs.dereference

theorem cleanupAll (hs : HandlesOwned todo s) : HandlesOwned [] (todo.foldl State.cleanup s) := by
  induction todo generalizing s with
  | nil => exact hs
  | cons x todo ih => exact ih hs.cleanup

/-- A step that leaves handles, records and closings alone. -/
theorem transfer {s' : State κ δ} (hs : HandlesOwned todo s) (hhandles : s'.handles = s.handles)
    (hrefs : s'.refs = s.refs) (hclosings : ∀ k, s'.closings todo' k = s.closings todo k) :
    HandlesOwned todo' s' := by
  intro k hk
  rw [hhandles] at hk
  rw [hrefs, hclosings]
  exact hs k hk

theorem dropCurDirRef (hs : HandlesOwned [] s) : HandlesOwned [] s.dropCurDirRef := by
  unfold State.dropCurDirRef
  split
  · rename_i r _
    have hpending : HandlesOwned [.dereference r] s :=
      hs.transfer rfl rfl fun k => State.closings_dereference_cons _ _ _ _
    exact hpending.dereference.transfer rfl rfl fun _ => rfl
  · exact hs.transfer rfl rfl fun _ => rfl

/-- The new handle belongs to a new record, and whatever the old one has stays with it. -/
theorem installNew (hs : HandlesOwned (.close h :: todo) s) (hr : s.refs r = none)
    (dosDir : List WCHAR) : HandlesOwned todo (s.install h d dosDir r ⟨1, h⟩) := by
  intro k hk
  by_cases hindex : h.index = k
  · exact .inl ⟨r, ⟨1, h⟩, Function.update_self _ _ _, hindex⟩
  · rcases hs k hk with ⟨r', v', hr', hv'⟩ | hpos
    · have hne : r' ≠ r := by
        rintro rfl
        rw [hr] at hr'
        cases hr'
      exact .inl ⟨r', v', (Function.update_of_ne hne _ _).trans hr', hv'⟩
    · rw [State.closings_close_cons, if_neg hindex] at hpos
      exact .inr hpos

/-- The handle of a record that is changed in place is about to be closed. -/
theorem installInPlace {v : CurDirRef} (hs : HandlesOwned [.close h] s) (hr : s.refs r = some v)
    (dosDir : List WCHAR) :
    HandlesOwned [.close v.directoryHandle]
      (s.install h d dosDir r { v with directoryHandle := h }) := by
  intro k hk
  have hclosings : (s.install h d dosDir r { v with directoryHandle := h }).closings
      [.close v.directoryHandle] k = s.closings [] k +
        if v.directoryHandle.index = k then 1 else 0 := State.closings_close_cons _ _ _ _
  rw [hclosings]
  by_cases hindex : h.index = k
  · exact .inl ⟨r, _, Function.update_self _ _ _, hindex⟩
  · rcases hs k hk with ⟨r', v', hr', hv'⟩ | hpos
    · by_cases hne : r' = r
      · subst hne
        rw [hr] at hr'
        obtain rfl := Option.some.inj hr'
        rw [if_pos hv']
        exact .inr (Nat.succ_pos _)
      · exact .inl ⟨r', v', (Function.update_of_ne hne _ _).trans hr', hv'⟩
    · rw [State.closings_close_cons, if_neg hindex] at hpos
      exact .inr (Nat.lt_of_lt_of_le hpos (Nat.le_add_right _ _))

theorem replaceDirectory (hs : HandlesOwned [.close h] s) (dosDir : List WCHAR)
    (newRef : Option Nat) :
    HandlesOwned (s.replaceDirectory h d dosDir newRef).todo
      (s.replaceDirectory h d dosDir newRef).state := by
  unfold State.replaceDirectory
  split
  · rename_i r v hboth
    obtain ⟨r', hr', hmap⟩ := Option.bind_eq_some_iff.mp hboth
    obtain ⟨v', hv', heq⟩ := Option.map_eq_some_iff.mp hmap
    obtain ⟨rfl, rfl⟩ := Prod.mk.inj heq
    split
    · exact hs.installInPlace hv' dosDir
    · split
      · rename_i hnew
        have hinstall := @installNew κ δ _ _ s [] h d _ hs (Sound.newRef_free hnew) dosDir
        exact hinstall.transfer rfl rfl fun k => State.closings_dereference_cons _ _ _ _
      · exact hs
  · split
    · rename_i hnew
      exact hs.installNew (Sound.newRef_free hnew) dosDir
    · exact hs

/-! ## The sections -/

theorem rtlSetCurrentDirectory (hs : HandlesOwned [] s) (e : Change δ) :
    HandlesOwned (s.rtlSetCurrentDirectory e).todo (s.rtlSetCurrentDirectory e).state := by
  unfold State.rtlSetCurrentDirectory
  split
  · exact hs
  split
  · exact hs
  split
  · exact hs
  split
  · exact hs
  split
  · exact hs
  split
  · exact hs
  · rename_i k d _
    dsimp only
    split
    · exact hs.openFile k 0 d
    · rename_i removable _
      have hopen := hs.openFile k (if removable then 1 else 0) d
      split
      · exact hopen.replaceDirectory _ _
      · split
        · exact hopen
        · exact hopen.replaceDirectory _ _

theorem rtlSetCurrentDirectoryAtOnce (hs : HandlesOwned [] s) (e : Change δ) :
    HandlesOwned [] (s.rtlSetCurrentDirectoryAtOnce e).1 :=
  (hs.rtlSetCurrentDirectory e).cleanupAll

theorem rtlpValidateCurrentDirectory (hs : HandlesOwned [] s) (e : Validation δ) :
    HandlesOwned [] (s.rtlpValidateCurrentDirectory e) := by
  unfold State.rtlpValidateCurrentDirectory
  split
  · exact hs
  · split
    · have hsaved : HandlesOwned [] { s with savedDismountCount := e.dismountCount } :=
        hs.transfer rfl rfl fun _ => rfl
      dsimp only
      split
      · have hone := hsaved.dropCurDirRef.rtlSetCurrentDirectoryAtOnce e.same
        split
        · exact hone
        · exact hone.rtlSetCurrentDirectoryAtOnce e.root
      · exact hsaved
    · exact hs

/-- A call goes on to another stage and takes the closings the section no longer owes. -/
theorem move {v : Stage δ} (hs : HandlesOwned todo s) (hsound : Sound [] s)
    (hc : s.stage c ≠ .notCalled)
    (hindex : ∀ k, (s.stage c).indices.count k + (todo.flatMap Cleanup.indices).count k =
      v.indices.count k + (todo'.flatMap Cleanup.indices).count k) :
    HandlesOwned todo' (s.goto c v) := by
  refine hs.transfer ?_ ?_ fun k => ?_
  · rfl
  · rfl
  have htotal := Holdings.total_update hsound.nodup ((hsound.called c).mpr hc) Stage.indices
    s.stage v k
  have := hindex k
  unfold State.closings
  change Holdings.total s.calls (fun x => (Function.update s.stage c v x).indices) k + _ = _
  omega

/-- A file call goes on. -/
theorem proceed {operations operations' : List Operation} {names names' : List (RelativeName δ)}
    (hs : HandlesOwned [] s) (hsound : Sound [] s)
    (hc : s.stage c = .calling operations names) :
    HandlesOwned [] (s.goto c (.calling operations' names')) := by
  apply hs.move hsound
  · rw [hc]
    exact nofun
  · intro k
    rw [hc, Stage.indices_calling, Stage.indices_calling]

/-- A call begins with what its section owes. -/
theorem start {v : Stage δ} (hs : HandlesOwned todo s) (hsound : c ∉ s.calls)
    (hindex : v.indices = todo.flatMap Cleanup.indices) :
    HandlesOwned [] { s.goto c v with calls := c :: s.calls } := by
  refine hs.transfer ?_ ?_ fun k => ?_
  · rfl
  · rfl
  have hrest : Holdings.total s.calls (fun x => (Function.update s.stage c v x).indices) k =
      Holdings.total s.calls (fun x => (s.stage x).indices) k := by
    apply Holdings.total_congr
    intro x hx
    rw [Function.update_of_ne]
    rintro rfl
    exact hsound hx
  unfold State.closings
  change Holdings.total (c :: s.calls) (fun x => (Function.update s.stage c v x).indices) k + _ = _
  rw [Holdings.total_cons, Function.update_self, hrest, hindex, List.flatMap_nil, List.count_nil]
  omega

theorem referenceName {n : RelativeName δ} (hs : HandlesOwned [] s) :
    HandlesOwned [] (s.referenceName n) := by
  unfold State.referenceName
  split
  · rename_i r _
    unfold State.reference
    split
    · rename_i v hr
      intro k hk
      rcases hs k hk with ⟨r', v', hr', hv'⟩ | hpos
      · by_cases hne : r' = r
        · subst hne
          rw [hr] at hr'
          obtain rfl := Option.some.inj hr'
          exact .inl ⟨r', _, Function.update_self _ _ _, hv'⟩
        · exact .inl ⟨r', v', (Function.update_of_ne hne _ _).trans hr', hv'⟩
      · exact .inr hpos
    · exact hs
  · exact hs

theorem release {n : RelativeName δ} (hs : HandlesOwned [] s) :
    HandlesOwned [] (s.rtlReleaseRelativeName n) := by
  unfold State.rtlReleaseRelativeName
  split
  · rename_i r _
    have hpending : HandlesOwned [.dereference r] s :=
      hs.transfer rfl rfl fun k => State.closings_dereference_cons _ _ _ _
    exact hpending.dereference
  · exact hs

theorem goto_reference (s : State κ δ) (c : κ) (v : Stage δ) (r : Nat) :
    (s.reference r).goto c v = (s.goto c v).reference r := by
  unfold State.reference
  have hrefs : (s.goto c v).refs r = s.refs r := rfl
  rw [hrefs]
  cases s.refs r <;> rfl

theorem goto_referenceName (s : State κ δ) (c : κ) (v : Stage δ) (n : RelativeName δ) :
    (s.referenceName n).goto c v = (s.goto c v).referenceName n := by
  unfold State.referenceName
  cases n.curDirRef with
  | none => rfl
  | some r => exact goto_reference s c v r

theorem goto_release (s : State κ δ) (c : κ) (v : Stage δ) (n : RelativeName δ) :
    (s.rtlReleaseRelativeName n).goto c v = (s.goto c v).rtlReleaseRelativeName n := by
  unfold State.rtlReleaseRelativeName
  cases n.curDirRef with
  | none => rfl
  | some r => exact Sound.goto_dereference s c v r

/-- Every step keeps an owner for each open handle. -/
theorem next (upcase : WCHAR → WCHAR) (a : Action κ δ) (hs : HandlesOwned [] s)
    (hsound : Sound [] s) (hen : Enabled s a) : HandlesOwned [] (next upcase s a) := by
  cases a with
  | call c f =>
    exact hs.start (fun hmem => (hsound.called c).mp hmem hen) (by simp)
  | translate c e =>
    simp only [CurrentDirectory.next]
    split
    · rename_i hc
      unfold State.translate
      dsimp only
      rw [goto_referenceName]
      exact (hs.proceed hsound hc).referenceName
    · exact hs
  | native c again =>
    simp only [CurrentDirectory.next]
    split
    · rename_i hc
      unfold State.native
      split
      · exact hs.proceed hsound hc
      · split <;> exact hs.proceed hsound hc
    · exact hs
  | release c =>
    simp only [CurrentDirectory.next]
    split
    · rename_i hc
      rw [goto_release]
      exact (hs.proceed hsound hc).release
    · exact hs
  | leave c =>
    simp only [Enabled] at hen
    split at hen
    · rename_i hc
      exact hs.proceed hsound hc
    · exact hen.elim
  | setCurrentDirectory c e =>
    obtain ⟨hcalls, hstage⟩ := Sound.rtlSetCurrentDirectory_calls s e
    have hfree : c ∉ (s.rtlSetCurrentDirectory e).state.calls := by
      rw [hcalls]
      exact fun hmem => (hsound.called c).mp hmem hen
    have hstart := (hs.rtlSetCurrentDirectory e).start hfree
      (Stage.indices_cleaning (δ := δ) (s.rtlSetCurrentDirectory e).todo)
    rw [hcalls] at hstart
    exact hstart
  | cleanup c =>
    simp only [CurrentDirectory.next]
    split
    · rename_i x todo hc
      rw [Sound.goto_cleanup]
      -- what is cleaned up next is taken from the call first
      have hmoved : HandlesOwned [x] (s.goto c (.cleaning todo)) := by
        apply hs.move hsound
        · rw [hc]
          simp
        · intro k
          rw [hc, Stage.indices_cleaning, Stage.indices_cleaning, List.flatMap_cons,
            List.count_append, List.flatMap_singleton, List.flatMap_nil, List.count_nil]
          omega
      exact hmoved.cleanup
    · exact hs
  | validate e => exact hs.rtlpValidateCurrentDirectory e

end HandlesOwned

/-- In every state each open handle has an owner. -/
theorem handlesOwned (upcase : WCHAR → WCHAR) {guard : State κ δ → Action κ δ → Prop} :
    ∀ s, (fileCalls upcase).Reachable guard s → HandlesOwned [] s := by
  refine System.Reachable.invariantUnder (J := Sound []) (sound upcase) ?_ ?_
  · intro s hinit k hk
    obtain ⟨dosPath, rfl⟩ := hinit
    exact absurd rfl hk
  · exact fun s a hsound hs hen _ => hs.next upcase a hsound hen

/-! ## Each ZwClose -/

variable {todo : List Cleanup} {c : κ} {h : Handle} {r k : Nat}

/-- A handle that `ZwClose` may get: it is open, and no captured name has it. -/
structure MayClose (s : State κ δ) (h : Handle) : Prop where
  opened : s.handles h.index ≠ none
  uncaptured : ∀ c, ∀ n ∈ (s.stage c).names, n.curDirRef ≠ none →
    ∀ h', n.containingDirectory = some h' → h'.index ≠ h.index

/-- So it is with what a section gives back, and with the handle of a record when the last
reference goes. -/
def CanClean (s : State κ δ) : Cleanup → Prop
  | .close h => MayClose s h
  | .dereference r => ∃ v, s.refs r = some v ∧ (v.refCount = 1 → MayClose s v.directoryHandle)

/-- All that a section gives back, one after the other. -/
def CanCleanAll : State κ δ → List Cleanup → Prop
  | _, [] => True
  | s, x :: todo => CanClean s x ∧ CanCleanAll (s.cleanup x) todo

/-- The same, of a whole change. -/
def CanSet (s : State κ δ) (e : Change δ) : Prop :=
  CanCleanAll (s.rtlSetCurrentDirectory e).state (s.rtlSetCurrentDirectory e).todo

/-- The same, of `RtlpValidateCurrentDirectory`: of the reference it drops, and of the one or two
changes after that. -/
def CanValidate (s : State κ δ) (e : Validation δ) : Prop :=
  (∀ r, s.curDirRef = some r → CanClean s (.dereference r)) ∧
    CanSet s.dropCurDirRef e.same ∧
    CanSet (s.dropCurDirRef.rtlSetCurrentDirectoryAtOnce e.same).1 e.root

/-- Each `ZwClose` of a step. A name that is released is not in use any more. -/
def ClosesOpen (s : State κ δ) : Action κ δ → Prop
  | .release c =>
    match s.stage c with
    | .calling (.release :: operations) (n :: names) =>
      ∀ r, n.curDirRef = some r → CanClean (s.goto c (.calling operations names)) (.dereference r)
    | _ => True
  | .cleanup c =>
    match s.stage c with
    | .cleaning (x :: todo) => CanClean (s.goto c (.cleaning todo)) x
    | _ => True
  | .validate e => CanValidate { s with savedDismountCount := e.dismountCount } e
  | _ => True

namespace Sound

/-- A captured name has another handle than those about to be closed. -/
theorem mayClose (hs : Sound todo s) (hpos : 0 < s.closings todo h.index) : MayClose s h where
  opened hnone := absurd ((hs.closing h.index).2 hnone) (Nat.ne_of_gt hpos)
  uncaptured c n hn hcaptured h' hdir hindex := by
    obtain ⟨r, hr⟩ := Option.ne_none_iff_exists'.mp hcaptured
    obtain ⟨v, d, href, hdir', -, -⟩ := hs.captured c n hn r hr
    obtain rfl := Option.some.inj (hdir'.symm.trans hdir)
    have hzero := (hs.opened r v href).2
    rw [hindex] at hzero
    exact absurd hzero (Nat.ne_of_gt hpos)

/-- The last reference to a record is not that of a name. -/
theorem mayClose_last {v : CurDirRef} (hs : Sound (.dereference r :: todo) s)
    (hr : s.refs r = some v) (hone : v.refCount = 1) : MayClose s v.directoryHandle where
  opened := (hs.opened r v hr).1
  uncaptured c n hn hcaptured h' hdir hindex := by
    obtain ⟨r', hr'⟩ := Option.ne_none_iff_exists'.mp hcaptured
    obtain ⟨v', d, href, hdir', -, -⟩ := hs.captured c n hn r' hr'
    obtain rfl := Option.some.inj (hdir'.symm.trans hdir)
    obtain rfl := hs.apart _ _ _ _ href hr hindex
    have hheld := hs.held_pos hn hr' todo
    have hcount := (hs.counted r' v hr).1
    rw [State.held_dereference_cons, if_pos rfl] at hcount
    omega

theorem canClean {x : Cleanup} (hs : Sound (x :: todo) s) : CanClean s x := by
  cases x with
  | close h =>
    apply hs.mayClose
    rw [State.closings_close_cons, if_pos rfl]
    exact Nat.succ_pos _
  | dereference r =>
    have hheld : 0 < s.held (.dereference r :: todo) r := by
      rw [State.held_dereference_cons, if_pos rfl]
      exact Nat.succ_pos _
    obtain ⟨v, hr⟩ := hs.exists_ref hheld
    exact ⟨v, hr, hs.mayClose_last hr⟩

theorem canCleanAll (hs : Sound todo s) : CanCleanAll s todo := by
  induction todo generalizing s with
  | nil => trivial
  | cons x todo ih => exact ⟨hs.canClean, ih hs.cleanup⟩

theorem canSet (hs : Sound [] s) (e : Change δ) : CanSet s e :=
  (hs.rtlSetCurrentDirectory e).canCleanAll

theorem canValidate (hs : Sound [] s) (e : Validation δ) : CanValidate s e := by
  refine ⟨fun r hr => ?_, hs.dropCurDirRef.canSet e.same, ?_⟩
  · -- the record is forgotten and dereferenced, in whichever order
    obtain ⟨v, hv, hclose⟩ := (hs.forget hr).canClean
    exact ⟨v, hv, fun hone => ⟨(hclose hone).opened, (hclose hone).uncaptured⟩⟩
  · exact (hs.dropCurDirRef.rtlSetCurrentDirectoryAtOnce e.same).canSet e.root

/-- No step closes a handle twice, nor one that a captured name has. -/
theorem closesOpen (hs : Sound [] s) (a : Action κ δ) : ClosesOpen s a := by
  cases a with
  | call | translate | native | leave | setCurrentDirectory => trivial
  | release c =>
    simp only [ClosesOpen]
    split
    · rename_i operations n names hc
      intro r hr
      apply @canClean κ δ _ _ _ []
      apply hs.proceed hc
      case href =>
        intro i
        simp only [List.flatMap_cons, List.count_append, hr, Option.toList_some,
          Cleanup.references, List.flatMap_nil, List.append_nil, List.count_nil]
        omega
      case hindex => rfl
      case hnames =>
        exact fun m hm => hs.captured c m (by rw [hc]; exact List.mem_cons_of_mem _ hm)
    · trivial
  | cleanup c =>
    simp only [ClosesOpen]
    split
    · rename_i x todo hc
      apply @canClean κ δ _ _ _ []
      apply hs.move
      case hc => rw [hc]; simp
      case hv => simp
      case href => intro r; simp [hc, Nat.add_comm]
      case hindex => intro k; simp [hc, Nat.add_comm]
      case hnames => exact fun n hn => absurd hn List.not_mem_nil
    · trivial
  | validate e =>
    have hsaved : Sound [] { s with savedDismountCount := e.dismountCount } :=
      hs.transfer hs.nodup hs.called ⟨rfl, rfl, rfl, rfl, rfl⟩ (fun _ => rfl) (fun _ => rfl)
        hs.captured
    exact hsaved.canValidate e

end Sound

/-! ## Each open handle -/

/-- An open handle has one owner: a record, or a call that is going to close it. -/
def OneOwner (s : State κ δ) (k : Nat) : Prop :=
  (∃ r v, s.refs r = some v ∧ v.directoryHandle.index = k ∧ s.closings [] k = 0 ∧
      ∀ r' v', s.refs r' = some v' → v'.directoryHandle.index = k → r' = r) ∨
    (s.closings [] k = 1 ∧ ∀ r v, s.refs r = some v → v.directoryHandle.index ≠ k)

theorem HandlesOwned.oneOwner (hs : HandlesOwned [] s) (hsound : Sound [] s)
    (hk : s.handles k ≠ none) : OneOwner s k := by
  rcases hs k hk with ⟨r, v, hr, hindex⟩ | hpos
  · left
    refine ⟨r, v, hr, hindex, ?_, fun r' v' hr' hindex' => ?_⟩
    · rw [← hindex]
      exact (hsound.opened r v hr).2
    · exact hsound.apart _ _ _ _ hr' hr (hindex'.trans hindex.symm)
  · right
    refine ⟨Nat.le_antisymm (hsound.closing k).1 hpos, fun r v hr hindex => ?_⟩
    have hzero := (hsound.opened r v hr).2
    rw [hindex] at hzero
    exact absurd hzero (Nat.ne_of_gt hpos)

/-- No call has anything to close or to release. -/
def Settled (s : State κ δ) : Prop := ∀ c, (s.stage c).names = [] ∧ (s.stage c).todo = []

/-- Then every handle but that of the current directory has been closed. -/
theorem HandlesOwned.settled (hs : HandlesOwned [] s) (hsound : Sound [] s) (hsettled : Settled s)
    (hk : s.handles k ≠ none) : ∃ h, s.curDirHandle = some h ∧ h.index = k := by
  have hreferences : ∀ c, (s.stage c).references = [] := by
    intro c
    obtain ⟨hnames, htodo⟩ := hsettled c
    unfold Stage.references
    rw [hnames, htodo]
    rfl
  have hindices : ∀ c, (s.stage c).indices = [] := by
    intro c
    unfold Stage.indices
    rw [(hsettled c).2]
    rfl
  have hheld : ∀ r, s.held [] r = 0 := by
    intro r
    unfold State.held
    simp [hreferences, Holdings.total]
  have hclosings : s.closings [] k = 0 := by
    unfold State.closings
    simp [hindices, Holdings.total]
  rcases hs k hk with ⟨r, v, hr, hindex⟩ | hpos
  · obtain ⟨hcount, hpos⟩ := hsound.counted r v hr
    rw [hheld] at hcount
    have howned : s.curDirRef = some r := by
      by_contra hne
      unfold State.owned at hcount
      rw [if_neg hne] at hcount
      omega
    cases hh : s.curDirHandle with
    | none =>
      have hnone := hsound.noDirectory hh
      rw [howned] at hnone
      cases hnone
    | some h =>
      obtain ⟨r', v', d, hcur⟩ := hsound.current h hh
      obtain rfl := Option.some.inj (howned.symm.trans hcur.curDirRef)
      obtain rfl := Option.some.inj (hr.symm.trans hcur.ref)
      exact ⟨h, rfl, hcur.handle ▸ hindex⟩
  · exact absurd hclosings (Nat.ne_of_gt hpos)

end Ldk.CurrentDirectory
