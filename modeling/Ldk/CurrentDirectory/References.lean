import Ldk.CurrentDirectory.State

set_option linter.unusedSectionVars false

/-!
# References to the current directory

Who owns an open directory handle, and who holds a reference to an `RTLP_CURDIR_REF`. A handle
belongs to the one record that has it or to the one call that is going to close it; the count of
a record is the number of names and calls that refer to it, and one more for `RtlpCurDirRef`. A
section of the code may owe something at its end: `Sound todo` counts that as well.
-/

namespace Ldk.CurrentDirectory

open TransitionSystem

variable {κ δ : Type} [DecidableEq κ] [DecidableEq δ]

/-! ## What a call holds -/

/-- The references given back. -/
def Cleanup.references : Cleanup → List Nat
  | .close _ => []
  | .dereference r => [r]

/-- The handles closed. -/
def Cleanup.indices : Cleanup → List Nat
  | .close h => [h.index]
  | .dereference _ => []

namespace Stage

def names : Stage δ → List (RelativeName δ)
  | .calling _ names => names
  | _ => []

def todo : Stage δ → List Cleanup
  | .cleaning todo => todo
  | _ => []

/-- The references a call holds. -/
def references (v : Stage δ) : List Nat :=
  v.names.flatMap (·.curDirRef.toList) ++ v.todo.flatMap Cleanup.references

/-- The handles a call is going to close. -/
def indices (v : Stage δ) : List Nat := v.todo.flatMap Cleanup.indices

@[simp] theorem names_notCalled : (Stage.notCalled : Stage δ).names = [] := rfl
@[simp] theorem names_calling (ops : List Operation) (ns : List (RelativeName δ)) :
    (Stage.calling ops ns).names = ns := rfl
@[simp] theorem names_cleaning (todo : List Cleanup) :
    (Stage.cleaning todo : Stage δ).names = [] := rfl
@[simp] theorem indices_calling (ops : List Operation) (ns : List (RelativeName δ)) :
    (Stage.calling ops ns).indices = [] := rfl
@[simp] theorem indices_cleaning (todo : List Cleanup) :
    (Stage.cleaning todo : Stage δ).indices = todo.flatMap Cleanup.indices := rfl
@[simp] theorem references_calling (ops : List Operation) (ns : List (RelativeName δ)) :
    (Stage.calling ops ns).references = ns.flatMap (·.curDirRef.toList) := by
  simp [references, todo]
@[simp] theorem references_cleaning (todo : List Cleanup) :
    (Stage.cleaning todo : Stage δ).references = todo.flatMap Cleanup.references := by
  simp [references, Stage.todo]

end Stage

namespace State

variable (s : State κ δ) (todo : List Cleanup)

/-- How often a reference is held, by the calls and by the section that owes `todo`. -/
def held (r : Nat) : Nat :=
  Holdings.total s.calls (fun c => (s.stage c).references) r +
    (todo.flatMap Cleanup.references).count r

/-- How often a handle is going to be closed. -/
def closings (k : Nat) : Nat :=
  Holdings.total s.calls (fun c => (s.stage c).indices) k +
    (todo.flatMap Cleanup.indices).count k

/-- The reference of `RtlpCurDirRef`. -/
def owned (r : Nat) : Nat := if s.curDirRef = some r then 1 else 0

@[simp] theorem held_close_cons (h : Handle) (r : Nat) :
    s.held (.close h :: todo) r = s.held todo r := by
  simp [held, Cleanup.references]

@[simp] theorem held_dereference_cons (r r' : Nat) :
    s.held (.dereference r' :: todo) r = s.held todo r + if r' = r then 1 else 0 := by
  simp only [held, List.flatMap_cons, Cleanup.references, List.cons_append, List.nil_append,
    List.count_cons, beq_iff_eq]
  omega

@[simp] theorem closings_close_cons (h : Handle) (k : Nat) :
    s.closings (.close h :: todo) k = s.closings todo k + if h.index = k then 1 else 0 := by
  simp only [closings, List.flatMap_cons, Cleanup.indices, List.cons_append, List.nil_append,
    List.count_cons, beq_iff_eq]
  omega

@[simp] theorem closings_dereference_cons (r k : Nat) :
    s.closings (.dereference r :: todo) k = s.closings todo k := by
  simp [closings, Cleanup.indices]

end State

/-! ## The invariant -/

/-- A name that has a reference: its record has the handle it was translated to. -/
def Captured (s : State κ δ) (n : RelativeName δ) : Prop :=
  ∀ r, n.curDirRef = some r → ∃ v d, s.refs r = some v ∧
    n.containingDirectory = some v.directoryHandle ∧ n.directory = some d ∧
      s.handles v.directoryHandle.index = some d

/-- The handle of `CURDIR` is that of `RtlpCurDirRef` and denotes the current directory. -/
structure Current (s : State κ δ) (h : Handle) (r : Nat) (v : CurDirRef) (d : δ) : Prop where
  curDirRef : s.curDirRef = some r
  ref : s.refs r = some v
  handle : v.directoryHandle = h
  directory : s.current = some d
  opened : s.handles h.index = some d
  tag : h.tag ≤ 1

structure Sound (todo : List Cleanup) (s : State κ δ) : Prop where
  nodup : s.calls.Nodup
  called : ∀ c, c ∈ s.calls ↔ s.stage c ≠ .notCalled
  counted : ∀ r v, s.refs r = some v → v.refCount = s.held todo r + s.owned r ∧ 0 < v.refCount
  freed : ∀ r, s.refs r = none → s.held todo r = 0 ∧ s.curDirRef ≠ some r
  opened : ∀ r v, s.refs r = some v → s.handles v.directoryHandle.index ≠ none ∧
    s.closings todo v.directoryHandle.index = 0
  apart : ∀ r r' v v', s.refs r = some v → s.refs r' = some v' →
    v.directoryHandle.index = v'.directoryHandle.index → r = r'
  closing : ∀ k, s.closings todo k ≤ 1 ∧ (s.handles k = none → s.closings todo k = 0)
  current : ∀ h, s.curDirHandle = some h → ∃ r v d, Current s h r v d
  noDirectory : s.curDirHandle = none → s.curDirRef = none
  captured : ∀ c, ∀ n ∈ (s.stage c).names, Captured s n

namespace Sound

variable {s : State κ δ} {todo : List Cleanup} {c : κ} {h : Handle} {r k : Nat} {d : δ}

/-- The record a held reference leads to is there. -/
theorem exists_ref (hs : Sound todo s) (hheld : 0 < s.held todo r) : ∃ v, s.refs r = some v := by
  cases href : s.refs r with
  | none => exact absurd (hs.freed r href).1 (Nat.ne_of_gt hheld)
  | some v => exact ⟨v, rfl⟩

theorem called_of_names {n : RelativeName δ} (hn : n ∈ (s.stage c).names) :
    s.stage c ≠ .notCalled := by
  intro hc
  rw [hc] at hn
  simp at hn

/-- A captured name holds its reference. -/
theorem held_pos {n : RelativeName δ} (hs : Sound todo s) (hn : n ∈ (s.stage c).names)
    (hr : n.curDirRef = some r) (todo' : List Cleanup) : 0 < s.held todo' r := by
  have hmem : r ∈ (s.stage c).references := by
    unfold Stage.references
    apply List.mem_append_left
    exact List.mem_flatMap.mpr ⟨n, hn, by rw [hr]; simp⟩
  have hle := Holdings.count_le_total ((hs.called c).mpr (called_of_names hn))
    (fun c => (s.stage c).references) r
  have hone := List.count_pos_iff.mpr hmem
  unfold State.held
  omega

/-! ## Opening and closing -/

/-- `ZwOpenFile` gives the section a handle it has to close. -/
theorem openFile (hs : Sound todo s) (hfree : s.handles k = none) (t : Nat) :
    Sound (.close ⟨k, t⟩ :: todo) (s.openFile k d) := by
  -- whatever was open before is another handle
  have hother : ∀ i, s.handles i ≠ none →
      Function.update s.handles k (some d) i = s.handles i ∧ k ≠ i := by
    intro i hi
    have hne : i ≠ k := fun heq => hi (heq ▸ hfree)
    exact ⟨Function.update_of_ne hne _ _, hne.symm⟩
  constructor
  case nodup => exact hs.nodup
  case called => exact hs.called
  case counted =>
    intro r v hr
    rw [State.held_close_cons]
    exact hs.counted r v hr
  case freed =>
    intro r hr
    rw [State.held_close_cons]
    exact hs.freed r hr
  case opened =>
    intro r v hr
    obtain ⟨hopen, hcount⟩ := hs.opened r v hr
    obtain ⟨hsame, hne⟩ := hother _ hopen
    refine ⟨fun hnone => hopen (hsame.symm.trans hnone), ?_⟩
    rw [State.closings_close_cons, if_neg hne]
    exact hcount
  case apart => exact hs.apart
  case closing =>
    intro i
    obtain ⟨hle, hclosed⟩ := hs.closing i
    rw [State.closings_close_cons]
    change s.closings todo i + (if k = i then 1 else 0) ≤ 1 ∧
      (Function.update s.handles k (some d) i = none →
        s.closings todo i + (if k = i then 1 else 0) = 0)
    by_cases hi : k = i
    · subst hi
      have hzero := hclosed hfree
      refine ⟨by rw [if_pos rfl]; omega, fun hnone => ?_⟩
      rw [Function.update_self] at hnone
      exact absurd hnone (by simp)
    · rw [if_neg hi, Function.update_of_ne (Ne.symm hi)]
      exact ⟨hle, hclosed⟩
  case current =>
    intro h hh
    obtain ⟨r, v, d', hcur⟩ := hs.current h hh
    have hsame := (hother h.index (by rw [hcur.opened]; simp)).1
    exact ⟨r, v, d', { hcur with opened := hsame.trans hcur.opened }⟩
  case noDirectory => exact hs.noDirectory
  case captured =>
    intro c n hn r hr
    obtain ⟨v, d', href, hdir, hd, hopen⟩ := hs.captured c n hn r hr
    have hsame := (hother v.directoryHandle.index (by rw [hopen]; simp)).1
    exact ⟨v, d', href, hdir, hd, hsame.trans hopen⟩

/-- The section closes a handle it owes. -/
theorem close (hs : Sound (.close h :: todo) s) : Sound todo (s.close h) := by
  -- a handle that is to be closed is open, and no record has it
  have hone : s.closings (.close h :: todo) h.index = s.closings todo h.index + 1 := by
    rw [State.closings_close_cons, if_pos rfl]
  have hother : ∀ i, s.closings (.close h :: todo) i = 0 →
      Function.update s.handles h.index none i = s.handles i := by
    intro i hi
    have hne : i ≠ h.index := by
      rintro rfl
      omega
    exact Function.update_of_ne hne _ _
  constructor
  case nodup => exact hs.nodup
  case called => exact hs.called
  case counted =>
    intro r v hr
    have := hs.counted r v hr
    rwa [State.held_close_cons] at this
  case freed =>
    intro r hr
    have := hs.freed r hr
    rwa [State.held_close_cons] at this
  case opened =>
    intro r v hr
    obtain ⟨hopen, hcount⟩ := hs.opened r v hr
    refine ⟨?_, ?_⟩
    · change Function.update s.handles h.index none _ ≠ none
      rw [hother _ hcount]
      exact hopen
    · rw [State.closings_close_cons] at hcount
      exact (Nat.add_eq_zero_iff.mp hcount).1
  case apart => exact hs.apart
  case closing =>
    intro i
    obtain ⟨hle, hclosed⟩ := hs.closing i
    change s.closings todo i ≤ 1 ∧ (Function.update s.handles h.index none i = none →
      s.closings todo i = 0)
    rw [State.closings_close_cons] at hle hclosed
    by_cases hi : h.index = i
    · rw [if_pos hi] at hle
      exact ⟨by omega, fun _ => by omega⟩
    · rw [if_neg hi] at hle hclosed
      rw [Function.update_of_ne (Ne.symm hi)]
      exact ⟨hle, hclosed⟩
  case current =>
    intro h' hh
    obtain ⟨r, v, d', hcur⟩ := hs.current h' hh
    have hsame := hother _ (hs.opened r v hcur.ref).2
    rw [hcur.handle] at hsame
    exact ⟨r, v, d', { hcur with opened := hsame.trans hcur.opened }⟩
  case noDirectory => exact hs.noDirectory
  case captured =>
    intro c n hn r hr
    obtain ⟨v, d', href, hdir, hd, hopen⟩ := hs.captured c n hn r hr
    exact ⟨v, d', href, hdir, hd, (hother _ (hs.opened r v href).2).trans hopen⟩

/-! ## Counting references -/

/-- The count of a record changes with what the section owes. -/
theorem recount {v : CurDirRef} {todo' : List Cleanup} {m : Nat} (hs : Sound todo s)
    (hr : s.refs r = some v) (hm : m = s.held todo' r + s.owned r) (hpos : 0 < m)
    (hheld : ∀ i, i ≠ r → s.held todo' i = s.held todo i)
    (hclosings : ∀ i, s.closings todo' i = s.closings todo i) :
    Sound todo' (s.setRef r (some { v with refCount := m })) := by
  -- a record keeps its handle, and all but this one their count
  have hold : ∀ i w, Function.update s.refs r (some { v with refCount := m }) i = some w →
      ∃ w', s.refs i = some w' ∧ w'.directoryHandle = w.directoryHandle ∧
        (i = r ∧ w.refCount = m ∨ i ≠ r ∧ w.refCount = w'.refCount) := by
    intro i w hw
    by_cases hi : i = r
    · rw [hi, Function.update_self] at hw
      rw [hi, ← Option.some.inj hw]
      exact ⟨v, hr, rfl, .inl ⟨rfl, rfl⟩⟩
    · rw [Function.update_of_ne hi] at hw
      exact ⟨w, hw, rfl, .inr ⟨hi, rfl⟩⟩
  have hnew : ∀ i w, s.refs i = some w →
      ∃ w', Function.update s.refs r (some { v with refCount := m }) i = some w' ∧
        w'.directoryHandle = w.directoryHandle := by
    intro i w hw
    by_cases hi : i = r
    · rw [hi, hr] at hw
      rw [hi, Function.update_self, ← Option.some.inj hw]
      exact ⟨_, rfl, rfl⟩
    · exact ⟨w, by rw [Function.update_of_ne hi]; exact hw, rfl⟩
  constructor
  case nodup => exact hs.nodup
  case called => exact hs.called
  case counted =>
    intro i w hw
    obtain ⟨w', hw', -, ⟨rfl, hcount⟩ | ⟨hne, hcount⟩⟩ := hold i w hw
    · rw [hcount]
      exact ⟨hm, hpos⟩
    · obtain ⟨heq, hpos'⟩ := hs.counted i w' hw'
      rw [← hheld i hne] at heq
      exact ⟨hcount.trans heq, hcount ▸ hpos'⟩
  case freed =>
    intro i hi
    have hne : i ≠ r := by
      intro heq
      subst heq
      change Function.update s.refs i _ i = none at hi
      rw [Function.update_self] at hi
      exact Option.some_ne_none _ hi
    change s.held todo' i = 0 ∧ _
    rw [hheld i hne]
    exact hs.freed i ((Function.update_of_ne hne _ _).symm.trans hi)
  case opened =>
    intro i w hw
    obtain ⟨w', hw', hhandle, -⟩ := hold i w hw
    change _ ∧ s.closings todo' _ = 0
    rw [← hhandle, hclosings]
    exact hs.opened i w' hw'
  case apart =>
    intro i j w x hw hx heq
    obtain ⟨w', hw', hhandle, -⟩ := hold i w hw
    obtain ⟨x', hx', hhandle', -⟩ := hold j x hx
    rw [← hhandle, ← hhandle'] at heq
    exact hs.apart i j w' x' hw' hx' heq
  case closing =>
    intro i
    change s.closings todo' i ≤ 1 ∧ (_ → s.closings todo' i = 0)
    rw [hclosings]
    exact hs.closing i
  case current =>
    intro h hh
    obtain ⟨i, w, d', hcur⟩ := hs.current h hh
    obtain ⟨w', hw', hhandle⟩ := hnew i w hcur.ref
    exact ⟨i, w', d', { hcur with ref := hw', handle := hhandle.trans hcur.handle }⟩
  case noDirectory => exact hs.noDirectory
  case captured =>
    intro c n hn i hi
    obtain ⟨w, d', hw, hdir, hd, hopen⟩ := hs.captured c n hn i hi
    obtain ⟨w', hw', hhandle⟩ := hnew i w hw
    refine ⟨w', d', hw', ?_, hd, ?_⟩
    · rw [hhandle]
      exact hdir
    · rw [hhandle]
      exact hopen

/-- `RtlpReferenceCurDirRef` gives the section a reference. -/
theorem reference {v : CurDirRef} (hs : Sound todo s) (hr : s.refs r = some v) :
    Sound (.dereference r :: todo) (s.reference r) := by
  unfold State.reference
  rw [hr]
  apply hs.recount hr
  case hm =>
    rw [State.held_dereference_cons, if_pos rfl, (hs.counted r v hr).1]
    omega
  case hpos => exact Nat.succ_pos _
  case hheld =>
    intro i hi
    rw [State.held_dereference_cons, if_neg (Ne.symm hi)]
    rfl
  case hclosings => exact fun i => State.closings_dereference_cons s todo r i

/-- The last reference goes, and with it the handle. -/
theorem dereference_last {v : CurDirRef} (hs : Sound (.dereference r :: todo) s)
    (hr : s.refs r = some v) (hone : v.refCount = 1) :
    Sound todo ((s.close v.directoryHandle).setRef r none) := by
  -- nobody else has a reference
  have hcount := (hs.counted r v hr).1
  rw [State.held_dereference_cons, if_pos rfl] at hcount
  have hheld : s.held todo r = 0 := by omega
  have howned : s.curDirRef ≠ some r := by
    intro heq
    unfold State.owned at hcount
    rw [if_pos heq] at hcount
    omega
  -- and no other record has the handle
  have hrefs : ∀ i w, Function.update s.refs r none i = some w → i ≠ r ∧ s.refs i = some w := by
    intro i w hw
    have hne : i ≠ r := by
      intro heq
      rw [heq, Function.update_self] at hw
      exact absurd hw (by simp)
    exact ⟨hne, (Function.update_of_ne hne _ _).symm.trans hw⟩
  have hhandles : ∀ i w, i ≠ r → s.refs i = some w →
      Function.update s.handles v.directoryHandle.index none w.directoryHandle.index =
        s.handles w.directoryHandle.index := by
    intro i w hne hw
    exact Function.update_of_ne (fun heq => hne (hs.apart i r w v hw hr heq)) _ _
  constructor
  case nodup => exact hs.nodup
  case called => exact hs.called
  case counted =>
    intro i w hw
    obtain ⟨hne, hw⟩ := hrefs i w hw
    have := hs.counted i w hw
    rwa [State.held_dereference_cons, if_neg (Ne.symm hne)] at this
  case freed =>
    intro i hi
    by_cases hne : i = r
    · subst hne
      exact ⟨hheld, howned⟩
    · have := hs.freed i ((Function.update_of_ne hne _ _).symm.trans hi)
      rwa [State.held_dereference_cons, if_neg (Ne.symm hne)] at this
  case opened =>
    intro i w hw
    obtain ⟨hne, hw⟩ := hrefs i w hw
    obtain ⟨hopen, hclosings⟩ := hs.opened i w hw
    rw [State.closings_dereference_cons] at hclosings
    exact ⟨fun hnone => hopen ((hhandles i w hne hw).symm.trans hnone), hclosings⟩
  case apart =>
    intro i j w x hw hx heq
    exact hs.apart i j w x (hrefs i w hw).2 (hrefs j x hx).2 heq
  case closing =>
    intro i
    have hclosing := hs.closing i
    rw [State.closings_dereference_cons] at hclosing
    refine ⟨hclosing.1, fun hnone => ?_⟩
    by_cases hi : i = v.directoryHandle.index
    · have := (hs.opened r v hr).2
      rw [State.closings_dereference_cons, ← hi] at this
      exact this
    · exact hclosing.2 ((Function.update_of_ne hi _ _).symm.trans hnone)
  case current =>
    intro h hh
    obtain ⟨i, w, d', hcur⟩ := hs.current h hh
    have hne : i ≠ r := fun heq => howned (heq ▸ hcur.curDirRef)
    have hopen := hhandles i w hne hcur.ref
    rw [hcur.handle] at hopen
    exact ⟨i, w, d', { hcur with
      ref := (Function.update_of_ne hne _ _).trans hcur.ref, opened := hopen.trans hcur.opened }⟩
  case noDirectory => exact hs.noDirectory
  case captured =>
    intro c n hn i hi
    have hne : i ≠ r := by
      rintro rfl
      have := hs.held_pos hn hi todo
      omega
    obtain ⟨w, d', hw, hdir, hd, hopen⟩ := hs.captured c n hn i hi
    exact ⟨w, d', (Function.update_of_ne hne _ _).trans hw, hdir, hd,
      (hhandles i w hne hw).trans hopen⟩

/-- The section gives a reference back. -/
theorem dereference (hs : Sound (.dereference r :: todo) s) : Sound todo (s.dereference r) := by
  obtain ⟨v, hr⟩ := hs.exists_ref (r := r) (by
    rw [State.held_dereference_cons, if_pos rfl]; omega)
  unfold State.dereference
  rw [hr]
  dsimp only
  split
  · exact hs.dereference_last hr ‹_›
  · rename_i hone
    obtain ⟨hcount, hpos⟩ := hs.counted r v hr
    rw [State.held_dereference_cons, if_pos rfl] at hcount
    apply hs.recount hr
    case hm => omega
    case hpos => omega
    case hheld =>
      intro i hi
      rw [State.held_dereference_cons, if_neg (Ne.symm hi)]
      rfl
    case hclosings => exact fun i => (State.closings_dereference_cons s todo r i).symm

/-- The section gives back what it owes first. -/
theorem cleanup {x : Cleanup} (hs : Sound (x :: todo) s) : Sound todo (s.cleanup x) := by
  cases x with
  | close h => exact hs.close
  | dereference r => exact hs.dereference

/-- The section gives back all it owes. -/
theorem cleanupAll (hs : Sound todo s) : Sound [] (todo.foldl State.cleanup s) := by
  induction todo generalizing s with
  | nil => exact hs
  | cons x todo ih => exact ih hs.cleanup

/-! ## The current directory changes -/

/-- The reference of `RtlpCurDirRef` becomes one the section owes. -/
theorem forget (hs : Sound todo s) (hr : s.curDirRef = some r) :
    Sound (.dereference r :: todo) s.forget := by
  have howned : ∀ i, s.owned i = if r = i then 1 else 0 := by
    intro i
    unfold State.owned
    simp only [hr, Option.some_inj]
  constructor
  case nodup => exact hs.nodup
  case called => exact hs.called
  case counted =>
    intro i w hw
    obtain ⟨hcount, hpos⟩ := hs.counted i w hw
    rw [State.held_dereference_cons]
    rw [howned] at hcount
    exact ⟨hcount, hpos⟩
  case freed =>
    intro i hi
    obtain ⟨hheld, hne⟩ := hs.freed i hi
    rw [State.held_dereference_cons, if_neg (fun heq : r = i => hne (heq ▸ hr))]
    exact ⟨hheld, nofun⟩
  case opened =>
    intro i w hw
    rw [State.closings_dereference_cons]
    exact hs.opened i w hw
  case apart => exact hs.apart
  case closing =>
    intro i
    rw [State.closings_dereference_cons]
    exact hs.closing i
  case current => exact nofun
  case noDirectory => exact fun _ => rfl
  case captured => exact hs.captured

/-- There is nothing to forget. -/
theorem forget_none (hs : Sound todo s) (hr : s.curDirRef = none) : Sound todo s.forget := by
  have howned : ∀ i, s.forget.owned i = s.owned i := by
    intro i
    unfold State.owned
    rw [hr]
    rfl
  exact { hs with
    counted := fun i w hw => by rw [howned]; exact hs.counted i w hw
    freed := fun i hi => ⟨(hs.freed i hi).1, nofun⟩
    current := nofun
    noDirectory := fun _ => rfl }

/-- `RtlpCurDirRef` is dereferenced and forgotten. -/
theorem dropCurDirRef (hs : Sound todo s) : Sound todo s.dropCurDirRef := by
  unfold State.dropCurDirRef
  cases hr : s.curDirRef with
  | none => exact hs.forget_none hr
  | some r =>
    -- it does not matter which comes first
    have hcomm : (s.dereference r).forget = s.forget.dereference r := by
      unfold State.dereference
      have hrefs : s.forget.refs r = s.refs r := rfl
      rw [hrefs]
      cases s.refs r with
      | none => rfl
      | some v => dsimp only; split <;> rfl
    change Sound todo (s.dereference r).forget
    rw [hcomm]
    exact (hs.forget hr).dereference

/-- The records after one of them has got the new handle. -/
theorem ref_install {v w : CurDirRef} {dosDir : List WCHAR} {i : Nat}
    (hw : (s.install h d dosDir r v).refs i = some w) : i = r ∧ w = v ∨ i ≠ r ∧ s.refs i = some w := by
  change Function.update s.refs r (some v) i = some w at hw
  by_cases hi : i = r
  · rw [hi, Function.update_self] at hw
    exact .inl ⟨hi, (Option.some.inj hw).symm⟩
  · rw [Function.update_of_ne hi] at hw
    exact .inr ⟨hi, hw⟩

theorem ref_install_eq_none {v : CurDirRef} {dosDir : List WCHAR} {i : Nat}
    (hi : (s.install h d dosDir r v).refs i = none) : i ≠ r ∧ s.refs i = none := by
  change Function.update s.refs r (some v) i = none at hi
  by_cases hne : i = r
  · rw [hne, Function.update_self] at hi
    exact absurd hi (Option.some_ne_none v)
  · rw [Function.update_of_ne hne] at hi
    exact ⟨hne, hi⟩

/-- No record has a handle the section owes. -/
theorem index_ne (hs : Sound (.close h :: todo) s) {i : Nat} {w : CurDirRef}
    (hw : s.refs i = some w) : w.directoryHandle.index ≠ h.index := by
  intro heq
  have hzero := (hs.opened i w hw).2
  rw [State.closings_close_cons, if_pos heq.symm] at hzero
  exact absurd hzero (Nat.succ_ne_zero _)

theorem closings_eq_zero (hs : Sound (.close h :: todo) s) : s.closings todo h.index = 0 := by
  have hle := (hs.closing h.index).1
  rw [State.closings_close_cons, if_pos rfl] at hle
  omega

/-- Every record still has its own handle after one of them has got the new one. -/
theorem apart_install (hs : Sound (.close h :: todo) s) {v : CurDirRef} {dosDir : List WCHAR}
    (hv : v.directoryHandle = h) {i j : Nat} {w x : CurDirRef}
    (hw : (s.install h d dosDir r v).refs i = some w)
    (hx : (s.install h d dosDir r v).refs j = some x)
    (heq : w.directoryHandle.index = x.directoryHandle.index) : i = j := by
  rcases ref_install hw with ⟨hi, hwv⟩ | ⟨-, hw'⟩
  · rcases ref_install hx with ⟨hj, -⟩ | ⟨-, hx'⟩
    · exact hi.trans hj.symm
    · rw [hwv, hv] at heq
      exact absurd heq.symm (hs.index_ne hx')
  · rcases ref_install hx with ⟨-, hxv⟩ | ⟨-, hx'⟩
    · rw [hxv, hv] at heq
      exact absurd heq (hs.index_ne hw')
    · exact hs.apart i j w x hw' hx' heq

/-- A new record takes over the handle the section has opened. -/
theorem installNew (hs : Sound (.close h :: todo) s) (hopen : s.handles h.index = some d)
    (htag : h.tag ≤ 1) (hnone : s.curDirRef = none) (hfree : s.refs r = none)
    (dosDir : List WCHAR) : Sound todo (s.install h d dosDir r ⟨1, h⟩) := by
  -- the new reference is the only one that the PEB owns
  have howned : ∀ i, (s.install h d dosDir r ⟨1, h⟩).owned i = if r = i then 1 else 0 := by
    intro i
    unfold State.owned State.install
    simp only [Option.some_inj]
  constructor
  case nodup => exact hs.nodup
  case called => exact hs.called
  case counted =>
    intro i w hw
    rw [howned]
    obtain ⟨rfl, rfl⟩ | ⟨hne, hw'⟩ := ref_install hw
    · have := (hs.freed i hfree).1
      rw [State.held_close_cons] at this
      change 1 = s.held todo i + _ ∧ _
      rw [this, if_pos rfl]
      exact ⟨rfl, Nat.one_pos⟩
    · have hcount := hs.counted i w hw'
      unfold State.owned at hcount
      rw [State.held_close_cons, hnone, if_neg nofun] at hcount
      rw [if_neg (Ne.symm hne)]
      exact hcount
  case freed =>
    intro i hi
    obtain ⟨hne, hi⟩ := ref_install_eq_none hi
    have hheld := (hs.freed i hi).1
    rw [State.held_close_cons] at hheld
    exact ⟨hheld, fun heq => hne (Option.some.inj heq).symm⟩
  case opened =>
    intro i w hw
    obtain ⟨rfl, rfl⟩ | ⟨-, hw'⟩ := ref_install hw
    · refine ⟨?_, hs.closings_eq_zero⟩
      change s.handles h.index ≠ none
      rw [hopen]
      exact Option.some_ne_none d
    · obtain ⟨hopen', hzero⟩ := hs.opened i w hw'
      rw [State.closings_close_cons, if_neg (Ne.symm (hs.index_ne hw'))] at hzero
      exact ⟨hopen', hzero⟩
  case apart => exact fun i j w x hw hx heq => hs.apart_install rfl hw hx heq
  case closing =>
    intro i
    obtain ⟨hle', hzero⟩ := hs.closing i
    rw [State.closings_close_cons] at hle' hzero
    change s.closings todo i ≤ 1 ∧ (s.handles i = none → s.closings todo i = 0)
    exact ⟨by omega, fun hi => (Nat.add_eq_zero_iff.mp (hzero hi)).1⟩
  -- the PEB refers to the handle by the new reference
  case current =>
    intro h' hh
    obtain rfl := Option.some.inj hh
    exact ⟨r, ⟨1, h⟩, d, rfl, Function.update_self .., rfl, rfl, hopen, htag⟩
  case noDirectory => exact nofun
  case captured =>
    intro c n hn i hi
    obtain ⟨w, d', hw, hrest⟩ := hs.captured c n hn i hi
    have hne : i ≠ r := by
      rintro rfl
      rw [hfree] at hw
      exact Option.some_ne_none w hw.symm
    exact ⟨w, d', (Function.update_of_ne hne _ _).trans hw, hrest⟩

/-- The record of `RtlpCurDirRef`, which nobody else refers to, takes over the handle the section
has opened and leaves its old one. -/
theorem installInPlace {v : CurDirRef} (hs : Sound (.close h :: todo) s)
    (hopen : s.handles h.index = some d) (htag : h.tag ≤ 1) (hr : s.curDirRef = some r)
    (href : s.refs r = some v) (hone : v.refCount = 1) (dosDir : List WCHAR) :
    Sound (.close v.directoryHandle :: todo)
      (s.install h d dosDir r { v with directoryHandle := h }) := by
  have howned : s.owned r = 1 := by
    unfold State.owned
    rw [if_pos hr]
  -- the only reference is that of `RtlpCurDirRef`
  have hheld : s.held todo r = 0 := by
    have := (hs.counted r v href).1
    rw [State.held_close_cons] at this
    omega
  have howned' : ∀ i, (s.install h d dosDir r { v with directoryHandle := h }).owned i =
      s.owned i := by
    intro i
    unfold State.owned State.install
    rw [hr]
  constructor
  case nodup => exact hs.nodup
  case called => exact hs.called
  case counted =>
    intro i w hw
    rw [howned', State.held_close_cons]
    obtain ⟨rfl, rfl⟩ | ⟨-, hw'⟩ := ref_install hw
    · have := hs.counted i v href
      rwa [State.held_close_cons] at this
    · have := hs.counted i w hw'
      rwa [State.held_close_cons] at this
  case freed =>
    intro i hi
    obtain ⟨hne, hi⟩ := ref_install_eq_none hi
    have hheld := (hs.freed i hi).1
    rw [State.held_close_cons] at hheld ⊢
    exact ⟨hheld, fun heq => hne (Option.some.inj heq).symm⟩
  case opened =>
    intro i w hw
    rw [State.closings_close_cons]
    obtain ⟨rfl, rfl⟩ | ⟨hne, hw'⟩ := ref_install hw
    · refine ⟨?_, ?_⟩
      · change s.handles h.index ≠ none
        rw [hopen]
        exact Option.some_ne_none d
      · change s.closings todo h.index + (if v.directoryHandle.index = h.index then 1 else 0) = 0
        rw [if_neg (hs.index_ne href)]
        exact hs.closings_eq_zero
    · obtain ⟨hopen', hzero⟩ := hs.opened i w hw'
      rw [State.closings_close_cons, if_neg (Ne.symm (hs.index_ne hw'))] at hzero
      rw [if_neg (fun heq => hne (hs.apart r i v w href hw' heq).symm)]
      exact ⟨hopen', hzero⟩
  case apart => exact fun i j w x hw hx heq => hs.apart_install rfl hw hx heq
  case closing =>
    intro i
    obtain ⟨hle', hzero⟩ := hs.closing i
    obtain ⟨hopen', hzero'⟩ := hs.opened r v href
    rw [State.closings_close_cons] at hle' hzero hzero' ⊢
    change s.closings todo i + (if v.directoryHandle.index = i then 1 else 0) ≤ 1 ∧
      (s.handles i = none → s.closings todo i + (if v.directoryHandle.index = i then 1 else 0) = 0)
    by_cases hi : v.directoryHandle.index = i
    · subst hi
      rw [if_pos rfl]
      exact ⟨by omega, fun hnone => absurd hnone hopen'⟩
    · rw [if_neg hi]
      exact ⟨by omega, fun hnone => (Nat.add_eq_zero_iff.mp (hzero hnone)).1⟩
  case current =>
    intro h' hh
    obtain rfl := Option.some.inj hh
    exact ⟨r, { v with directoryHandle := h }, d, rfl, Function.update_self .., rfl, rfl, hopen,
      htag⟩
  case noDirectory => exact nofun
  case captured =>
    intro c n hn i hi
    obtain ⟨w, d', hw, hrest⟩ := hs.captured c n hn i hi
    have hne : i ≠ r := by
      rintro rfl
      have := hs.held_pos hn hi todo
      omega
    exact ⟨w, d', (Function.update_of_ne hne _ _).trans hw, hrest⟩

end Sound

end Ldk.CurrentDirectory
