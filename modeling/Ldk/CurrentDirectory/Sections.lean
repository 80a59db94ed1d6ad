import Ldk.CurrentDirectory.References

set_option linter.unusedSectionVars false

/-!
# The sections keep the references

Each section of the code, and each native call, keeps the accounts of `References`; so they hold
in every state, whatever the calls do (`sound`). Hence the handle of `CURDIR` is always open and
denotes the directory of the last change, and so does a name that has captured a reference.
-/

namespace Ldk.CurrentDirectory

open TransitionSystem

variable {κ δ : Type} [DecidableEq κ] [DecidableEq δ]

namespace Sound

variable {s : State κ δ} {todo todo' : List Cleanup} {c : κ} {h : Handle} {r k : Nat} {d : δ}

/-! ## A call goes on -/

/-- The order in which a section gives things back does not matter. -/
theorem perm (hs : Sound todo s) (hperm : todo.Perm todo') : Sound todo' s := by
  have hheld : ∀ r, s.held todo' r = s.held todo r := by
    intro r
    unfold State.held
    rw [(hperm.flatMap_right Cleanup.references).count_eq]
  have hclosings : ∀ k, s.closings todo' k = s.closings todo k := by
    intro k
    unfold State.closings
    rw [(hperm.flatMap_right Cleanup.indices).count_eq]
  exact { hs with
    counted := fun r v hr => by rw [hheld]; exact hs.counted r v hr
    freed := fun r hr => by rw [hheld]; exact hs.freed r hr
    opened := fun r v hr => by rw [hclosings]; exact hs.opened r v hr
    closing := fun k => by rw [hclosings]; exact hs.closing k }

/-- What the calls and the section hold together stays the same. -/
theorem transfer {s' : State κ δ} (hs : Sound todo s) (hnodup : s'.calls.Nodup)
    (hcalled : ∀ c, c ∈ s'.calls ↔ s'.stage c ≠ .notCalled)
    (hshared : s'.handles = s.handles ∧ s'.curDirHandle = s.curDirHandle ∧
      s'.curDirRef = s.curDirRef ∧ s'.refs = s.refs ∧ s'.current = s.current)
    (hheld : ∀ r, s'.held todo' r = s.held todo r)
    (hclosings : ∀ k, s'.closings todo' k = s.closings todo k)
    (hnames : ∀ c, ∀ n ∈ (s'.stage c).names, Captured s n) : Sound todo' s' := by
  obtain ⟨hhandles, hcurDirHandle, hcurDirRef, hrefs, hcurrent⟩ := hshared
  constructor
  case nodup => exact hnodup
  case called => exact hcalled
  case counted =>
    intro r v hr
    rw [hrefs] at hr
    unfold State.owned
    rw [hheld, hcurDirRef]
    exact hs.counted r v hr
  case freed =>
    intro r hr
    rw [hrefs] at hr
    rw [hheld, hcurDirRef]
    exact hs.freed r hr
  case opened =>
    intro r v hr
    rw [hrefs] at hr
    rw [hhandles, hclosings]
    exact hs.opened r v hr
  case apart => rw [hrefs]; exact hs.apart
  case closing =>
    intro k
    rw [hhandles, hclosings]
    exact hs.closing k
  case current =>
    intro h hh
    rw [hcurDirHandle] at hh
    obtain ⟨r, v, d, hcur⟩ := hs.current h hh
    exact ⟨r, v, d, hcurDirRef.trans hcur.curDirRef, by rw [hrefs]; exact hcur.ref, hcur.handle,
      hcurrent.trans hcur.directory, by rw [hhandles]; exact hcur.opened, hcur.tag⟩
  case noDirectory => rw [hcurDirHandle, hcurDirRef]; exact hs.noDirectory
  case captured =>
    intro c n hn r hr
    rw [hrefs, hhandles]
    exact hnames c n hn r hr

/-- A call goes on to another stage and takes what the section no longer owes. -/
theorem move {v : Stage δ} (hs : Sound todo s) (hc : s.stage c ≠ .notCalled)
    (hv : v ≠ .notCalled)
    (href : ∀ r, (s.stage c).references.count r + (todo.flatMap Cleanup.references).count r =
      v.references.count r + (todo'.flatMap Cleanup.references).count r)
    (hindex : ∀ k, (s.stage c).indices.count k + (todo.flatMap Cleanup.indices).count k =
      v.indices.count k + (todo'.flatMap Cleanup.indices).count k)
    (hnames : ∀ n ∈ v.names, Captured s n) : Sound todo' (s.goto c v) := by
  have hmem := (hs.called c).mpr hc
  have hstage : ∀ x, x ≠ c → (s.goto c v).stage x = s.stage x :=
    fun x hx => Function.update_of_ne hx _ _
  have hself : (s.goto c v).stage c = v := Function.update_self ..
  apply hs.transfer
  case hnodup => exact hs.nodup
  case hcalled =>
    intro x
    by_cases hx : x = c
    · rw [hx, hself]
      exact iff_of_true hmem hv
    · rw [hstage x hx]
      exact hs.called x
  case hshared => exact ⟨rfl, rfl, rfl, rfl, rfl⟩
  case hheld =>
    intro r
    have htotal := Holdings.total_update hs.nodup hmem Stage.references s.stage v r
    have := href r
    unfold State.held
    change Holdings.total s.calls
      (fun x => (Function.update s.stage c v x).references) r + _ = _
    omega
  case hclosings =>
    intro k
    have htotal := Holdings.total_update hs.nodup hmem Stage.indices s.stage v k
    have := hindex k
    unfold State.closings
    change Holdings.total s.calls
      (fun x => (Function.update s.stage c v x).indices) k + _ = _
    omega
  case hnames =>
    intro x n hn
    by_cases hx : x = c
    · rw [hx, hself] at hn
      exact hnames n hn
    · rw [hstage x hx] at hn
      exact hs.captured x n hn

/-- A file call goes on, with other names. -/
theorem proceed {operations operations' : List Operation} {names names' : List (RelativeName δ)}
    (hs : Sound todo s) (hc : s.stage c = .calling operations names)
    (href : ∀ r, (names.flatMap (·.curDirRef.toList)).count r +
        (todo.flatMap Cleanup.references).count r =
      (names'.flatMap (·.curDirRef.toList)).count r + (todo'.flatMap Cleanup.references).count r)
    (hindex : todo.flatMap Cleanup.indices = todo'.flatMap Cleanup.indices)
    (hnames : ∀ n ∈ names', Captured s n) :
    Sound todo' (s.goto c (.calling operations' names')) := by
  apply hs.move
  case hc => rw [hc]; exact nofun
  case hv => exact nofun
  case href =>
    intro r
    rw [hc, Stage.references_calling, Stage.references_calling]
    exact href r
  case hindex =>
    intro k
    rw [hc, Stage.indices_calling, Stage.indices_calling, hindex]
  case hnames => exact hnames

/-- A new call takes what the section owes. -/
theorem start {v : Stage δ} (hs : Sound todo s) (hc : s.stage c = .notCalled)
    (hv : v ≠ .notCalled) (href : v.references = todo.flatMap Cleanup.references)
    (hindex : v.indices = todo.flatMap Cleanup.indices) (hnames : v.names = []) :
    Sound [] { s.goto c v with calls := c :: s.calls } := by
  have hnot : c ∉ s.calls := fun hmem => (hs.called c).mp hmem hc
  have hstage : ∀ x, x ≠ c → Function.update s.stage c v x = s.stage x :=
    fun x hx => Function.update_of_ne hx _ _
  have hrest : ∀ f : Stage δ → List Nat, ∀ i,
      Holdings.total (c :: s.calls) (fun x => f (Function.update s.stage c v x)) i =
        Holdings.total s.calls (fun x => f (s.stage x)) i + (f v).count i := by
    intro f i
    rw [Holdings.total_cons, Function.update_self, Nat.add_comm]
    congr 1
    apply Holdings.total_congr
    intro x hx
    rw [hstage x (ne_of_mem_of_not_mem hx hnot)]
  apply hs.transfer
  case hnodup => exact List.nodup_cons.mpr ⟨hnot, hs.nodup⟩
  case hcalled =>
    intro x
    change x ∈ c :: s.calls ↔ Function.update s.stage c v x ≠ .notCalled
    by_cases hx : x = c
    · rw [hx, Function.update_self]
      exact iff_of_true List.mem_cons_self hv
    · rw [hstage x hx, List.mem_cons, or_iff_right hx]
      exact hs.called x
  case hshared => exact ⟨rfl, rfl, rfl, rfl, rfl⟩
  case hheld =>
    intro r
    unfold State.held
    change Holdings.total (c :: s.calls)
      (fun x => (Function.update s.stage c v x).references) r + 0 = _
    rw [hrest Stage.references, href, Nat.add_zero]
  case hclosings =>
    intro k
    unfold State.closings
    change Holdings.total (c :: s.calls)
      (fun x => (Function.update s.stage c v x).indices) k + 0 = _
    rw [hrest Stage.indices, hindex, Nat.add_zero]
  case hnames =>
    intro x n hn
    change n ∈ (Function.update s.stage c v x).names at hn
    by_cases hx : x = c
    · rw [hx, Function.update_self, hnames] at hn
      exact absurd hn List.not_mem_nil
    · rw [hstage x hx] at hn
      exact hs.captured x n hn

/-! ## The directory changes -/

theorem exists_current_ref (hs : Sound todo s) (hr : s.curDirRef = some r) :
    ∃ v, s.refs r = some v := by
  cases href : s.refs r with
  | none => exact absurd hr (hs.freed r href).2
  | some v => exact ⟨v, rfl⟩

/-- Memory for a new record is free. -/
theorem newRef_free {newRef : Option Nat}
    (hnew : newRef.filter (fun r => (s.refs r).isNone) = some r) : s.refs r = none :=
  Option.isNone_iff_eq_none.mp (Option.filter_eq_some_iff.mp hnew).2

theorem replaceDirectory (hs : Sound [.close h] s) (hopen : s.handles h.index = some d)
    (htag : h.tag ≤ 1) (dosDir : List WCHAR) (newRef : Option Nat) :
    Sound (s.replaceDirectory h d dosDir newRef).todo
      (s.replaceDirectory h d dosDir newRef).state := by
  unfold State.replaceDirectory
  cases hr : s.curDirRef with
  | none =>
    rw [Option.bind_none]
    dsimp only
    split
    · rename_i r' hnew
      exact hs.installNew hopen htag hr (newRef_free hnew) dosDir
    · exact hs
  | some r =>
    obtain ⟨v, href⟩ := hs.exists_current_ref hr
    rw [Option.bind_some, href, Option.map_some]
    dsimp only
    split
    · exact hs.installInPlace hopen htag hr href ‹_› dosDir
    · split
      · rename_i r' hnew
        -- the old record is left to the section, and the new one takes its place
        have hforget := (hs.forget hr).perm (List.Perm.swap _ _ _)
        exact hforget.installNew hopen htag rfl (newRef_free hnew) dosDir
      · exact hs

/-- The section does nothing to the calls. -/
theorem replaceDirectory_calls (s : State κ δ) (h : Handle) (d : δ) (dosDir : List WCHAR)
    (newRef : Option Nat) : (s.replaceDirectory h d dosDir newRef).state.calls = s.calls ∧
      (s.replaceDirectory h d dosDir newRef).state.stage = s.stage := by
  unfold State.replaceDirectory
  split
  · split
    · exact ⟨rfl, rfl⟩
    · split <;> exact ⟨rfl, rfl⟩
  · split <;> exact ⟨rfl, rfl⟩

theorem rtlSetCurrentDirectory_calls (s : State κ δ) (e : Change δ) :
    (s.rtlSetCurrentDirectory e).state.calls = s.calls ∧
      (s.rtlSetCurrentDirectory e).state.stage = s.stage := by
  unfold State.rtlSetCurrentDirectory
  repeat' split
  all_goals first
    | exact ⟨rfl, rfl⟩
    | exact replaceDirectory_calls ..

theorem rtlSetCurrentDirectory (hs : Sound [] s) (e : Change δ) :
    Sound (s.rtlSetCurrentDirectory e).todo (s.rtlSetCurrentDirectory e).state := by
  unfold State.rtlSetCurrentDirectory
  split
  · exact hs
  split
  · exact hs
  split
  · exact hs
  split
  · exact hs
  split
  · exact hs
  split
  · exact hs
  rename_i k d hopened
  have hfree := Option.isNone_iff_eq_none.mp (Option.filter_eq_some_iff.mp hopened).2
  have hnew : (s.openFile k d).handles k = some d := Function.update_self ..
  dsimp only
  split
  · exact hs.openFile hfree 0
  · rename_i removable hremovable
    have htag : (if removable then 1 else 0) ≤ 1 := by split <;> omega
    have hopen := hs.openFile (d := d) hfree (if removable then 1 else 0)
    split
    · exact hopen.replaceDirectory hnew htag _ _
    split
    · exact hopen
    · exact hopen.replaceDirectory hnew htag _ _

theorem rtlSetCurrentDirectoryAtOnce (hs : Sound [] s) (e : Change δ) :
    Sound [] (s.rtlSetCurrentDirectoryAtOnce e).1 :=
  (hs.rtlSetCurrentDirectory e).cleanupAll

theorem rtlpValidateCurrentDirectory (hs : Sound [] s) (e : Validation δ) :
    Sound [] (s.rtlpValidateCurrentDirectory e) := by
  unfold State.rtlpValidateCurrentDirectory
  split
  · exact hs
  split
  · have hsaved : Sound [] { s with savedDismountCount := e.dismountCount } :=
      hs.transfer hs.nodup hs.called ⟨rfl, rfl, rfl, rfl, rfl⟩ (fun _ => rfl) (fun _ => rfl)
        hs.captured
    dsimp only
    split
    · have hsame := hsaved.dropCurDirRef.rtlSetCurrentDirectoryAtOnce e.same
      split
      · exact hsame
      · exact hsame.rtlSetCurrentDirectoryAtOnce e.root
    · exact hsaved
  · exact hs

/-! ## A name is translated -/

/-- A name that is translated relative to the current directory gets its handle. -/
theorem translateName_root {n : RelativeName δ} {upcase : WCHAR → WCHAR} {capture : Bool}
    {e : Translation} (hn : s.translateName upcase capture e = n) :
    n.directory = s.current ∧
      (n.containingDirectory = none ∧ n.curDirRef = none ∨
        n.containingDirectory = s.curDirHandle ∧ s.curDirHandle ≠ none ∧
          n.curDirRef = if capture then s.curDirRef else none) := by
  subst hn
  unfold State.translateName
  split
  · split
    · rename_i h name hh hname
      exact ⟨rfl, .inr ⟨hh.symm, by rw [hh]; exact Option.some_ne_none h, rfl⟩⟩
    · exact ⟨rfl, .inl ⟨rfl, rfl⟩⟩
  · exact ⟨rfl, .inl ⟨rfl, rfl⟩⟩

theorem captured_of_none {n : RelativeName δ} (hn : n.curDirRef = none) : Captured s n := by
  intro r hr
  rw [hn] at hr
  exact absurd hr nofun

theorem translate {operation : Operation} {operations : List Operation}
    {names : List (RelativeName δ)} (hs : Sound [] s)
    (hc : s.stage c = .calling (operation :: operations) names) (upcase : WCHAR → WCHAR)
    (capture : Bool) (e : Translation) :
    Sound [] (s.translate c upcase capture e operations names) := by
  have hnames : ∀ m ∈ names, Captured s m := by
    intro m hm
    exact hs.captured c m (by rw [hc]; exact hm)
  unfold State.translate State.referenceName
  obtain ⟨n, hn⟩ : ∃ n, s.translateName upcase capture e = n := ⟨_, rfl⟩
  rw [hn]
  obtain ⟨hdir, hroot⟩ := translateName_root hn
  cases hr : n.curDirRef with
  | none =>
    dsimp only
    rw [hr]
    apply hs.proceed hc
    case href => intro i; simp [hr]
    case hindex => rfl
    case hnames =>
      intro m hm
      rcases List.mem_cons.mp hm with rfl | hm
      · exact captured_of_none hr
      · exact hnames m hm
  | some r =>
    dsimp only
    rw [hr]
    -- the name captures the record of `RtlpCurDirRef`
    obtain ⟨-, hnone⟩ | ⟨hroot, hsome, href⟩ := hroot
    · exact absurd (hr.symm.trans hnone) nofun
    obtain ⟨h, hh⟩ := Option.ne_none_iff_exists'.mp hsome
    obtain ⟨r', v, d, hcur⟩ := hs.current h hh
    have hsame : r' = r := by
      rw [hr] at href
      split at href
      · exact Option.some.inj (hcur.curDirRef.symm.trans href.symm)
      · exact absurd href nofun
    subst hsame
    have hsr := hs.reference hcur.ref
    have hstate : s.reference r' = s.setRef r' (some { v with refCount := v.refCount + 1 }) := by
      unfold State.reference
      rw [hcur.ref]
    rw [hstate] at hsr
    dsimp only
    rw [hstate]
    apply hsr.proceed hc
    case href =>
      intro i
      simp only [List.flatMap_cons, List.count_append, hr, Option.toList_some,
        Cleanup.references, List.flatMap_nil, List.append_nil, List.count_nil]
      omega
    case hindex => rfl
    case hnames =>
      intro m hm
      rcases List.mem_cons.mp hm with rfl | hm
      · intro i hi
        obtain rfl := Option.some.inj (hr.symm.trans hi)
        refine ⟨{ v with refCount := v.refCount + 1 }, d, Function.update_self .., ?_,
          hdir.trans hcur.directory, ?_⟩
        · rw [hroot, hh, ← hcur.handle]
        · change s.handles v.directoryHandle.index = some d
          rw [hcur.handle]
          exact hcur.opened
      · exact hsr.captured c m (by change m ∈ (s.stage c).names; rw [hc]; exact hm)

/-! ## Steps and runs -/

/-- What a native call leaves of its names has been there before. -/
theorem native {retries : Nat} {operations : List Operation} {n : RelativeName δ}
    {names : List (RelativeName δ)} (hs : Sound [] s)
    (hc : s.stage c = .calling (.native retries :: operations) (n :: names)) (again : Bool) :
    Sound [] (s.native c again retries operations n names) := by
  have hnames : ∀ m ∈ n :: names, Captured s m := by
    intro m hm
    exact hs.captured c m (by rw [hc]; exact hm)
  unfold State.native
  split
  · exact hs.proceed hc (fun _ => rfl) rfl hnames
  split
  · rename_i hnone
    apply hs.proceed hc
    case href => intro r; simp [hnone]
    case hindex => rfl
    case hnames => exact fun m hm => hnames m (List.mem_cons_of_mem _ hm)
  · exact hs.proceed hc (fun _ => rfl) rfl hnames

/-- A reference that a stage gives up can be given back before or after. -/
theorem goto_dereference (s : State κ δ) (c : κ) (v : Stage δ) (r : Nat) :
    (s.dereference r).goto c v = (s.goto c v).dereference r := by
  unfold State.dereference
  have hrefs : (s.goto c v).refs r = s.refs r := rfl
  rw [hrefs]
  cases s.refs r with
  | none => rfl
  | some v => dsimp only; split <;> rfl

theorem goto_cleanup (s : State κ δ) (c : κ) (v : Stage δ) (x : Cleanup) :
    (s.cleanup x).goto c v = (s.goto c v).cleanup x := by
  cases x with
  | close h => rfl
  | dereference r => exact goto_dereference s c v r

theorem release {operations : List Operation} {n : RelativeName δ}
    {names : List (RelativeName δ)} (hs : Sound [] s)
    (hc : s.stage c = .calling (.release :: operations) (n :: names)) :
    Sound [] ((s.rtlReleaseRelativeName n).goto c (.calling operations names)) := by
  have hnames : ∀ m ∈ names, Captured s m := by
    intro m hm
    exact hs.captured c m (by rw [hc]; exact List.mem_cons_of_mem _ hm)
  unfold State.rtlReleaseRelativeName
  cases hr : n.curDirRef with
  | none =>
    apply hs.proceed hc
    case href => intro r; simp [hr]
    case hindex => rfl
    case hnames => exact hnames
  | some r =>
    dsimp only
    rw [goto_dereference]
    apply Sound.dereference
    apply hs.proceed hc
    case href =>
      intro i
      simp only [List.flatMap_cons, List.count_append, hr, Option.toList_some,
        Cleanup.references, List.flatMap_nil, List.append_nil, List.count_nil]
      omega
    case hindex => rfl
    case hnames => exact hnames

theorem next (upcase : WCHAR → WCHAR) (a : Action κ δ) (hs : Sound [] s) (hen : Enabled s a) :
    Sound [] (next upcase s a) := by
  cases a with
  | call c f =>
    exact hs.start hen (by simp) (by simp) (by simp) rfl
  | translate c e =>
    simp only [Enabled] at hen
    simp only [CurrentDirectory.next]
    split
    · exact hs.translate ‹_› upcase _ e
    · exact hs
  | native c again =>
    simp only [CurrentDirectory.next]
    split
    · exact hs.native ‹_› again
    · exact hs
  | release c =>
    simp only [CurrentDirectory.next]
    split
    · exact hs.release ‹_›
    · exact hs
  | leave c =>
    simp only [Enabled] at hen
    split at hen
    · rename_i operation operations names hc
      -- all names have been released
      have hnone : names.flatMap (·.curDirRef.toList) = [] := by
        apply List.flatMap_eq_nil_iff.mpr
        intro n hn
        rw [hen n hn]
        rfl
      apply hs.proceed hc
      case href => intro r; rw [hnone]; rfl
      case hindex => rfl
      case hnames => exact fun n hn => absurd hn List.not_mem_nil
    · exact hen.elim
  | setCurrentDirectory c e =>
    obtain ⟨hcalls, hstage⟩ := rtlSetCurrentDirectory_calls s e
    have hstart := (hs.rtlSetCurrentDirectory e).start (c := c)
      (v := .cleaning (s.rtlSetCurrentDirectory e).todo) (by rw [hstage]; exact hen) (by simp)
      (Stage.references_cleaning _) (Stage.indices_cleaning _) rfl
    rw [hcalls] at hstart
    exact hstart
  | cleanup c =>
    simp only [CurrentDirectory.next]
    split
    · rename_i x todo hc
      rw [goto_cleanup]
      apply Sound.cleanup
      apply hs.move
      case hc => rw [hc]; simp
      case hv => simp
      case href => intro r; simp [hc, Nat.add_comm]
      case hindex => intro k; simp [hc, Nat.add_comm]
      case hnames => exact fun n hn => absurd hn List.not_mem_nil
    · exact hs
  | validate e => exact hs.rtlpValidateCurrentDirectory e

theorem initial (dosPath : List WCHAR) : Sound [] (initialState κ δ dosPath) := by
  constructor
  case nodup => exact List.nodup_nil
  case called => exact fun c => iff_of_false List.not_mem_nil (fun h => h rfl)
  case counted => exact nofun
  case freed => exact fun r _ => ⟨rfl, nofun⟩
  case opened => exact nofun
  case apart => exact nofun
  case closing => exact fun k => ⟨Nat.zero_le 1, fun _ => rfl⟩
  case current => exact nofun
  case noDirectory => exact fun _ => rfl
  case captured => exact fun c n hn => absurd hn List.not_mem_nil

end Sound

/-- The accounts hold in every state. -/
theorem sound (upcase : WCHAR → WCHAR) {guard : State κ δ → Action κ δ → Prop} :
    ∀ s, (fileCalls upcase).Reachable guard s → Sound [] s := by
  apply System.Reachable.invariant
  case hinit =>
    intro s hinit
    obtain ⟨dosPath, rfl⟩ := hinit
    exact Sound.initial dosPath
  case hstep => exact fun s a hs hen _ => hs.next upcase a hen

/-- The handle of `CURDIR` is open, and denotes the directory of the last change. -/
theorem current_directory_is_open (upcase : WCHAR → WCHAR) (s : State κ δ)
    (hr : (fileCalls upcase).Reachable Always s) (h : Handle) (hh : s.curDirHandle = some h) :
    ∃ d, s.current = some d ∧ s.handles h.index = some d := by
  obtain ⟨r, v, d, hcur⟩ := (sound upcase s hr).current h hh
  exact ⟨d, hcur.directory, hcur.opened⟩

/-- A name that has captured a reference names the directory that was current at its translation,
whatever the other calls do. -/
theorem captured_name_is_kept (upcase : WCHAR → WCHAR) (s : State κ δ)
    (hr : (fileCalls upcase).Reachable Always s) (c : κ) (n : RelativeName δ)
    (hn : n ∈ (s.stage c).names) (hcaptured : n.curDirRef ≠ none) :
    ∃ h d, n.containingDirectory = some h ∧ n.directory = some d ∧
      s.handles h.index = some d := by
  obtain ⟨r, hr'⟩ := Option.ne_none_iff_exists'.mp hcaptured
  obtain ⟨v, d, -, hdir, hd, hopen⟩ := (sound upcase s hr).captured c n hn r hr'
  exact ⟨v.directoryHandle, d, hdir, hd, hopen⟩

/-- The handle is never one that `RtlSetCurrentDirectory_U` closes or inherits. -/
theorem handle_is_not_inherited (upcase : WCHAR → WCHAR) (s : State κ δ)
    (hr : (fileCalls upcase).Reachable Always s) (h : Handle) (hh : s.curDirHandle = some h) :
    h.tag ≠ curDirClose ∧ h.tag ≠ curDirInherit := by
  obtain ⟨r, v, d, hcur⟩ := (sound upcase s hr).current h hh
  have htag := hcur.tag
  unfold curDirClose curDirInherit
  exact ⟨by omega, by omega⟩

end Ldk.CurrentDirectory
