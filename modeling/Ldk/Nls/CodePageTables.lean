import Ldk.Lib.Ownership
import Ldk.Nls.CodePages
import Ldk.Nls.Rendering

set_option linter.unusedSectionVars false

/-!
# Tables of code pages are shared

Whatever the order of the steps: there is one entry at most for a page, and who asks for the page
gets the table of that entry.

- `ldkpBuildCodePageFileName_spec`: the name of the file of a page always fits.
- `Loaded`: an entry with its two blocks, and the contents of the file of its page in one of them.
- `Inv`: the blocks of the heap are those of the entries in the list and of the calls under way.
- `Frame`: what a step of a call leaves alone; `Inv.keep`, `Inv.take` and `Inv.drop` carry the
  invariant over such steps.
- `code_page_tables_are_shared`: what holds in every run.
-/

namespace Ldk.CodePages

open TransitionSystem OutputBuffer Nls BoundedText Ownership

/-! ## Names of files -/

section FileNames

variable {size : Nat} {text piece : List WCHAR} {o : Output}

/-- The name of the file of a page. -/
def codePageFileName (codePage : Nat) : List WCHAR :=
  codePageFilePrefix ++ decimal codePage ++ codePageFileExtension

theorem decimal_length_le {number : Nat} (h : number < nlsCpAlgorithmRange) :
    (decimal number).length ≤ 5 := by
  unfold nlsCpAlgorithmRange at h
  unfold decimal
  rw [List.length_map, Nat.length_toDigits_le_iff (by omega) (by omega)]
  omega

/-- The string in an array that ends with one. -/
theorem stringAt_of_ended (h : Ended size text o) : stringAt o.buffer = text := by
  have hholds : o.buffer.take (text ++ [0]).length = text ++ [0] := h.ended
  have hsplit : o.buffer = text ++ 0 :: o.buffer.drop (text ++ [0]).length := by
    conv_lhs => rw [← List.take_append_drop (text ++ [0]).length o.buffer, hholds]
    simp
  have hclean : ∀ c ∈ text, decide (c ≠ 0) = true := by
    intro c hc
    rw [decide_eq_true_eq]
    rintro rfl
    exact h.clean hc
  rw [hsplit]
  unfold stringAt
  rw [List.takeWhile_append_of_pos hclean]
  simp

/-- A piece for which there is room is appended. -/
theorem yields_of_agrees {x : Except Fault (Bool × Output)}
    (h : Agrees size x (outcome size text [some piece]))
    (hfits : text.length + piece.length < size) :
    Yields x fun r => r.1 = true ∧ Ended size (text ++ piece) r.2 := by
  rw [outcome_fits hfits] at h
  exact h

theorem ldkpBuildCodePageFileName_spec {codePage : Nat} (h : codePage < nlsCpAlgorithmRange)
    {path : List WCHAR} (hpath : path.length = 64) :
    Yields (ldkpBuildCodePageFileName codePage path) fun r =>
      r.1 = true ∧ stringAt r.2.buffer = codePageFileName codePage := by
  have hprefix : stringAt codePageFilePrefix = codePageFilePrefix := by decide +kernel
  have hextension : stringAt codePageFileExtension = codePageFileExtension := by decide +kernel
  have hprefixLength : codePageFilePrefix.length = 23 := rfl
  have hextensionLength : codePageFileExtension.length = 4 := rfl
  have hdigits := decimal_length_le h
  have hput : Yields (inside (put path 0 [0])) fun buffer => buffer.length = 64 := by
    apply inside_spec
    apply (put_spec (by simp [hpath])).mono
    rintro buffer ⟨hbuffer, -⟩
    rw [hbuffer, hpath]
  unfold ldkpBuildCodePageFileName
  apply hput.bind
  intro buffer hbuffer
  have hstart : Holding 64 [] ⟨buffer, 0, path.length⟩ :=
    ⟨hbuffer, rfl, rfl, by simp [hpath], by simp, by simp⟩
  have hfirst := ldkpAppendString_agrees hstart (some codePageFilePrefix)
  rw [Option.map_some, hprefix] at hfirst
  apply (yields_of_agrees hfirst (by rw [hprefixLength]; decide)).bind
  rintro ⟨built, o⟩ ⟨hbuilt, ho⟩
  dsimp only at hbuilt ho ⊢
  rw [hbuilt, if_pos rfl]
  rw [List.nil_append] at ho
  have hsecond := ldkpAppendNumber_agrees ho.toHolding
    (Nat.lt_trans h (by unfold nlsCpAlgorithmRange; omega))
  apply (yields_of_agrees hsecond (by omega)).bind
  rintro ⟨built, o⟩ ⟨hbuilt, ho⟩
  dsimp only at hbuilt ho ⊢
  rw [hbuilt, if_pos rfl]
  have hthird := ldkpAppendString_agrees ho.toHolding (some codePageFileExtension)
  rw [Option.map_some, hextension] at hthird
  apply (yields_of_agrees hthird (by rw [List.length_append]; omega)).mono
  rintro ⟨built, o⟩ ⟨hbuilt, ho⟩
  exact ⟨hbuilt, stringAt_of_ended ho⟩

end FileNames

/-! ## Entries and blocks -/

variable {κ : Type} [DecidableEq κ] {tableCodePage : List UInt8 → Nat} {s s' : State κ} {c : κ}
  {a : Nat} {stage : Stage} {block : Block} {e : Entry}

/-- An entry has its two blocks; one of them has the contents of the file of the page, and the
table that is made of them is for this page. -/
def Loaded (tableCodePage : List UInt8 → Nat) (heap : Nat → Option Block) (e : Entry) : Prop :=
  heap e.address = some .entry ∧
    ∃ contents, heap e.data = some (.data (codePageFileName e.codePage) (some contents)) ∧
      tableCodePage contents = e.codePage

/-- The blocks that a call holds. -/
def Stage.blocks : Stage → List Nat
  | .reading _ _ _ data | .allocatingEntry _ data => [data]
  | .initializing e | .inserting e => e.blocks
  | _ => []

/-- The blocks that the list, or a call, holds. -/
def State.held (s : State κ) : Option κ → List Nat
  | none => s.list.flatMap Entry.blocks
  | some c => (s.stage c).blocks

/-- The stages at which a file is open. -/
def Stage.hasFile : Stage → Bool
  | .querying _ _ | .allocatingData _ _ _ | .reading _ _ _ _ => true
  | _ => false

/-- What holds of a call at a stage. -/
def Stage.Ok (tableCodePage : List UInt8 → Nat) (s : State κ) : Stage → Prop
  | .searching codePage | .opening codePage => codePage < nlsCpAlgorithmRange
  | .querying codePage name | .allocatingData codePage name _ => name = codePageFileName codePage
  | .reading codePage name _ data =>
    name = codePageFileName codePage ∧ s.heap data = some (.data name none)
  | .allocatingEntry codePage data =>
    ∃ contents, s.heap data = some (.data (codePageFileName codePage) (some contents))
  | .initializing e => s.heap e.address = some .entry ∧
    ∃ contents, s.heap e.data = some (.data (codePageFileName e.codePage) (some contents))
  | .inserting e => Loaded tableCodePage s.heap e
  | .returned generation codePage table => generation ≤ s.generation ∧
    (generation = s.generation → ∃ e ∈ s.list, e.codePage = codePage ∧ e.address = table)
  | .notCalled | .failed _ => True

/-- The invariant. -/
structure Inv (tableCodePage : List UInt8 → Nat) (s : State κ) : Prop where
  owned : Owned (fun a => s.heap a ≠ none) s.held
  pages : (s.list.map Entry.codePage).Nodup
  loaded : ∀ e ∈ s.list, Loaded tableCodePage s.heap e
  stages : ∀ c, (s.stage c).Ok tableCodePage s
  opened : ∀ c, s.opened c = (s.stage c).hasFile
  /-- There are no entries, and no calls under way, before LDK is initialised. -/
  uninitialized : s.initialized = false → s.list = [] ∧ ∀ c, (s.stage c).idle = true
  sound : s.faulted = false

theorem Loaded.congr {heap heap' : Nat → Option Block} (h : Loaded tableCodePage heap e)
    (hheap : ∀ a ∈ e.blocks, heap' a = heap a) : Loaded tableCodePage heap' e := by
  obtain ⟨haddress, contents, hdata, hpage⟩ := h
  refine ⟨?_, contents, ?_, hpage⟩
  · rw [hheap _ (by simp [Entry.blocks])]
    exact haddress
  · rw [hheap _ (by simp [Entry.blocks])]
    exact hdata

/-- A call that does not move, while its blocks stay and the list may grow. -/
theorem Stage.Ok.congr (h : stage.Ok tableCodePage s)
    (hheap : ∀ a ∈ stage.blocks, s'.heap a = s.heap a) (hlist : ∀ e ∈ s.list, e ∈ s'.list)
    (hgeneration : s'.generation = s.generation) : stage.Ok tableCodePage s' := by
  cases stage with
  | notCalled => trivial
  | failed status => trivial
  | searching codePage => exact h
  | opening codePage => exact h
  | querying codePage name => exact h
  | allocatingData codePage name size => exact h
  | reading codePage name size data => exact ⟨h.1, (hheap data (by simp [blocks])).trans h.2⟩
  | allocatingEntry codePage data =>
    obtain ⟨contents, hdata⟩ := h
    exact ⟨contents, (hheap data (by simp [blocks])).trans hdata⟩
  | initializing e =>
    obtain ⟨haddress, contents, hdata⟩ := h
    exact ⟨(hheap _ (by simp [blocks, Entry.blocks])).trans haddress, contents,
      (hheap _ (by simp [blocks, Entry.blocks])).trans hdata⟩
  | inserting e => exact Loaded.congr h hheap
  | returned generation codePage table =>
    obtain ⟨hle, htable⟩ := h
    refine ⟨hgeneration ▸ hle, fun heq => ?_⟩
    obtain ⟨e, he, hpage⟩ := htable (heq.trans hgeneration)
    exact ⟨e, hlist e he, hpage⟩

/-! ## Steps of a call -/

/-- A step of a call changes no block but its own and those that are new, and nothing of the other
calls or of the list. -/
structure Frame (s : State κ) (c : κ) (s' : State κ) : Prop where
  list : s'.list = s.list
  initialized : s'.initialized = s.initialized
  generation : s'.generation = s.generation
  stage : ∀ c', c' ≠ c → s'.stage c' = s.stage c'
  opened : ∀ c', c' ≠ c → s'.opened c' = s.opened c'
  heap : ∀ a, a ∉ (s.stage c).blocks → s.heap a ≠ none → s'.heap a = s.heap a

namespace Frame

theorem refl (s : State κ) (c : κ) : Frame s c s :=
  ⟨rfl, rfl, rfl, fun _ _ => rfl, fun _ _ => rfl, fun _ _ _ => rfl⟩

theorem goto (h : Frame s c s') (stage : Stage) : Frame s c (s'.goto c stage) where
  list := h.list
  initialized := h.initialized
  generation := h.generation
  stage c' hc := (Function.update_of_ne hc _ _).trans (h.stage c' hc)
  opened := h.opened
  heap := h.heap

theorem setOpened (h : Frame s c s') (opened : Bool) :
    Frame s c { s' with opened := Function.update s'.opened c opened } where
  list := h.list
  initialized := h.initialized
  generation := h.generation
  stage := h.stage
  opened c' hc := (Function.update_of_ne hc _ _).trans (h.opened c' hc)
  heap := h.heap

theorem store (h : Frame s c s') (ha : a ∈ (s.stage c).blocks ∨ s.heap a = none)
    (block : Block) : Frame s c (s'.store a block) where
  list := h.list
  initialized := h.initialized
  generation := h.generation
  stage := h.stage
  opened := h.opened
  heap b hnot hlive := by
    have hne : b ≠ a := by
      rintro rfl
      exact ha.elim hnot hlive
    exact (Function.update_of_ne hne _ _).trans (h.heap b hnot hlive)

theorem free (h : Frame s c s') (ha : a ∈ (s.stage c).blocks) : Frame s c (s'.free a) where
  list := h.list
  initialized := h.initialized
  generation := h.generation
  stage := h.stage
  opened := h.opened
  heap b hnot hlive := by
    have hne : b ≠ a := fun heq => hnot (heq ▸ ha)
    exact (Function.update_of_ne hne _ _).trans (h.heap b hnot hlive)

theorem held (h : Frame s c s') {holder : Option κ} (hne : holder ≠ some c) :
    s'.held holder = s.held holder := by
  cases holder with
  | none =>
    unfold State.held
    rw [h.list]
  | some c' =>
    have hc : c' ≠ c := fun heq => hne (congrArg some heq)
    exact congrArg Stage.blocks (h.stage c' hc)

end Frame

namespace Inv

/-- What is left of the invariant when the frame is known. -/
theorem of_frame (h : Inv tableCodePage s) (hframe : Frame s c s')
    (howned : Owned (fun a => s'.heap a ≠ none) s'.held)
    (hok : (s'.stage c).Ok tableCodePage s') (hopened : s'.opened c = (s'.stage c).hasFile)
    (hinitialized : s.initialized = true ∨ (s'.stage c).idle = true)
    (hsound : s'.faulted = false) : Inv tableCodePage s' := by
  have hheap (holder : Option κ) (hne : holder ≠ some c) (a : Nat) (ha : a ∈ s.held holder) :
      s'.heap a = s.heap a :=
    h.owned.unchanged (i := some c) hframe.heap hne a ha
  refine ⟨howned, ?_, ?_, ?_, ?_, ?_, hsound⟩
  · rw [hframe.list]
    exact h.pages
  · intro e he
    rw [hframe.list] at he
    apply (h.loaded e he).congr
    intro a ha
    exact hheap none nofun a (List.mem_flatMap.mpr ⟨e, he, ha⟩)
  · intro c'
    by_cases hc : c' = c
    · rw [hc]
      exact hok
    · rw [hframe.stage c' hc]
      apply (h.stages c').congr
      · exact hheap (some c') (fun heq => hc (Option.some.inj heq))
      · intro e he
        rw [hframe.list]
        exact he
      · exact hframe.generation
  · intro c'
    by_cases hc : c' = c
    · rw [hc]
      exact hopened
    · rw [hframe.opened c' hc, hframe.stage c' hc]
      exact h.opened c'
  · intro hfalse
    rw [hframe.initialized] at hfalse
    obtain ⟨hlist, hidle⟩ := h.uninitialized hfalse
    refine ⟨hframe.list.trans hlist, fun c' => ?_⟩
    by_cases hc : c' = c
    · rw [hc]
      exact hinitialized.resolve_left (by simp [hfalse])
    · rw [hframe.stage c' hc]
      exact hidle c'

/-- The call moves, and the blocks of the heap are the same. -/
theorem keep (h : Inv tableCodePage s) (hframe : Frame s c s')
    (hblocks : (s'.stage c).blocks = (s.stage c).blocks)
    (hlive : ∀ a, s'.heap a ≠ none ↔ s.heap a ≠ none)
    (hok : (s'.stage c).Ok tableCodePage s') (hopened : s'.opened c = (s'.stage c).hasFile)
    (hinitialized : s.initialized = true ∨ (s'.stage c).idle = true)
    (hsound : s'.faulted = false) : Inv tableCodePage s' := by
  refine h.of_frame hframe (h.owned.congr (fun holder => ?_) hlive) hok hopened hinitialized hsound
  by_cases hholder : holder = some c
  · rw [hholder]
    change ((s'.stage c).blocks).Perm (s.stage c).blocks
    rw [hblocks]
  · rw [hframe.held hholder]

/-- The call gets a block. -/
theorem take (h : Inv tableCodePage s) (hframe : Frame s c s') (ha : s.heap a = none)
    (hblocks : ((s'.stage c).blocks).Perm (a :: (s.stage c).blocks))
    (hlive : ∀ b, s'.heap b ≠ none ↔ b = a ∨ s.heap b ≠ none)
    (hok : (s'.stage c).Ok tableCodePage s') (hopened : s'.opened c = (s'.stage c).hasFile)
    (hinitialized : s.initialized = true) (hsound : s'.faulted = false) :
    Inv tableCodePage s' := by
  refine h.of_frame hframe ?_ hok hopened (.inl hinitialized) hsound
  have hself : (s'.held (some c)).Perm ([a] ++ s.held (some c)) := hblocks
  apply h.owned.acquire (List.nodup_singleton a) _ hself
  · exact fun holder hne => hframe.held hne
  · intro b
    rw [hlive, List.mem_singleton]
  · intro b hb
    rw [List.mem_singleton] at hb
    simp [hb, ha]

/-- The call frees blocks. -/
theorem drop (h : Inv tableCodePage s) (hframe : Frame s c s') (blocks : List Nat)
    (hblocks : ((s.stage c).blocks).Perm (blocks ++ (s'.stage c).blocks))
    (hlive : ∀ b, s'.heap b ≠ none ↔ b ∉ blocks ∧ s.heap b ≠ none)
    (hok : (s'.stage c).Ok tableCodePage s') (hopened : s'.opened c = (s'.stage c).hasFile)
    (hinitialized : s.initialized = true ∨ (s'.stage c).idle = true)
    (hsound : s'.faulted = false) : Inv tableCodePage s' := by
  refine h.of_frame hframe ?_ hok hopened hinitialized hsound
  have hself : (s.held (some c)).Perm (blocks ++ s'.held (some c)) := hblocks
  exact h.owned.release hself (fun holder hne => hframe.held hne) hlive

end Inv

/-! ## The steps of a call -/

@[simp] theorem goto_stage_self (s : State κ) (c : κ) (stage : Stage) :
    (s.goto c stage).stage c = stage := by simp [State.goto]

theorem Stage.blocks_of_idle (h : stage.idle = true) : stage.blocks = [] := by
  cases stage <;> first | rfl | cases h

theorem Stage.hasFile_of_idle (h : stage.idle = true) : stage.hasFile = false := by
  cases stage <;> first | rfl | cases h

theorem State.live_store (s : State κ) (a : Nat) (block : Block) (b : Nat) :
    (s.store a block).heap b ≠ none ↔ b = a ∨ s.heap b ≠ none := by
  change Function.update s.heap a (some block) b ≠ none ↔ _
  rw [Function.update_apply]
  by_cases hb : b = a <;> simp [hb]

theorem State.live_free (s : State κ) (a b : Nat) :
    (s.free a).heap b ≠ none ↔ b ≠ a ∧ s.heap b ≠ none := by
  change Function.update s.heap a none b ≠ none ↔ _
  rw [Function.update_apply]
  by_cases hb : b = a <;> simp [hb]

theorem State.live_freeEntry (s : State κ) (e : Entry) (b : Nat) :
    (s.ldkpFreeCodePageEntry e).heap b ≠ none ↔ b ∉ e.blocks ∧ s.heap b ≠ none := by
  unfold State.ldkpFreeCodePageEntry
  rw [State.live_free, State.live_free]
  simp only [Entry.blocks, List.mem_cons, List.not_mem_nil, or_false, not_or]
  tauto

namespace Inv

/-- Only a call that is under way moves on, and then LDK is initialised. -/
theorem initialized_of_busy (h : Inv tableCodePage s) (hbusy : (s.stage c).idle = false) :
    s.initialized = true := by
  by_contra hnot
  have hidle := (h.uninitialized (Bool.eq_false_of_not_eq_true hnot)).2 c
  rw [hbusy] at hidle
  cases hidle

/-- The call moves, and nothing else happens. -/
theorem goto (h : Inv tableCodePage s) (hblocks : stage.blocks = (s.stage c).blocks)
    (hfile : stage.hasFile = (s.stage c).hasFile)
    (hok : stage.Ok tableCodePage s)
    (hinitialized : s.initialized = true ∨ stage.idle = true) :
    Inv tableCodePage (s.goto c stage) := by
  apply h.keep ((Frame.refl s c).goto stage)
  · rw [goto_stage_self, hblocks]
  · exact fun a => Iff.rfl
  · rw [goto_stage_self]
    exact hok.congr (fun _ _ => rfl) (fun _ he => he) rfl
  · rw [goto_stage_self, hfile]
    exact h.opened c
  · rw [goto_stage_self]
    exact hinitialized
  · exact h.sound

/-- The file is closed, and the call has failed. -/
theorem close_failed (h : Inv tableCodePage s) (hblocks : (s.stage c).blocks = [])
    (status : Status) : Inv tableCodePage ((s.close c).goto c (.failed status)) := by
  apply h.keep (((Frame.refl s c).setOpened false).goto _)
  · rw [goto_stage_self, hblocks]
    rfl
  · exact fun a => Iff.rfl
  · rw [goto_stage_self]
    trivial
  · rw [goto_stage_self]
    exact Function.update_self c false s.opened
  · rw [goto_stage_self]
    exact .inr rfl
  · exact h.sound

theorem getCodePageTable (h : Inv tableCodePage s) (hidle : (s.stage c).idle = true)
    (pages : SystemCodePages) (codePage : Nat) :
    Inv tableCodePage (s.getCodePageTable c pages codePage) := by
  have hblocks := Stage.blocks_of_idle hidle
  have hfile := Stage.hasFile_of_idle hidle
  have hfailed : Inv tableCodePage (s.goto c (.failed .invalidParameter)) :=
    h.goto hblocks.symm hfile.symm trivial (.inr rfl)
  unfold State.getCodePageTable
  split
  · exact hfailed
  · next hbefore =>
    dsimp only
    split
    · exact hfailed
    · next hrange =>
      have hinitialized : s.initialized = true := by
        by_contra hnot
        simp [hnot] at hbefore
      exact h.goto hblocks.symm hfile.symm (Nat.lt_of_not_le hrange) (.inl hinitialized)

theorem search (h : Inv tableCodePage s) (c : κ) : Inv tableCodePage (s.search c) := by
  unfold State.search
  split
  · next codePage hstage =>
    have hok := h.stages c
    rw [hstage] at hok
    split
    · next e hfound =>
      refine h.goto (by rw [hstage]; rfl) (by rw [hstage]; rfl) ⟨le_rfl, fun _ => ?_⟩ (.inr rfl)
      exact ⟨e, List.mem_of_find?_eq_some hfound, by simpa using List.find?_some hfound, rfl⟩
    · have hinitialized := h.initialized_of_busy (c := c) (by rw [hstage]; rfl)
      exact h.goto (by rw [hstage]; rfl) (by rw [hstage]; rfl) hok (.inl hinitialized)
  · exact h

theorem openFile (h : Inv tableCodePage s) (c : κ) {path : List WCHAR} (hpath : path.length = 64)
    (status : Option Status) : Inv tableCodePage (s.openFile c path status) := by
  unfold State.openFile
  split
  · next codePage hstage =>
    have hok := h.stages c
    rw [hstage] at hok
    obtain ⟨⟨built, o⟩, hbuild, hbuilt, hname⟩ := ldkpBuildCodePageFileName_spec hok hpath
    dsimp only at hbuilt hname
    subst hbuilt
    rw [hbuild]
    dsimp only
    cases status with
    | some status => exact h.goto (by rw [hstage]; rfl) (by rw [hstage]; rfl) trivial (.inr rfl)
    | none =>
      have hinitialized := h.initialized_of_busy (c := c) (by rw [hstage]; rfl)
      apply h.keep (((Frame.refl s c).setOpened true).goto _)
      · rw [goto_stage_self, hstage]
        rfl
      · exact fun a => Iff.rfl
      · rw [goto_stage_self]
        exact hname
      · rw [goto_stage_self]
        exact Function.update_self c true s.opened
      · exact .inl hinitialized
      · exact h.sound
  · exact h

theorem queryFile (h : Inv tableCodePage s) (c : κ) (endOfFile : Except Status Nat) :
    Inv tableCodePage (s.queryFile c endOfFile) := by
  unfold State.queryFile
  split
  · next codePage name hstage =>
    have hok := h.stages c
    rw [hstage] at hok
    have hblocks : (s.stage c).blocks = [] := by rw [hstage]; rfl
    cases endOfFile with
    | error status => exact h.close_failed hblocks _
    | ok size =>
      dsimp only
      split
      · exact h.close_failed hblocks _
      · have hinitialized := h.initialized_of_busy (c := c) (by rw [hstage]; rfl)
        exact h.goto (by rw [hstage]; rfl) (by rw [hstage]; rfl) hok (.inl hinitialized)
  · exact h

theorem allocateData (h : Inv tableCodePage s) (c : κ) {address : Option Nat}
    (hfresh : s.Fresh address) : Inv tableCodePage (s.allocateData c address) := by
  unfold State.allocateData
  split
  · next codePage name size hstage =>
    have hok := h.stages c
    rw [hstage] at hok
    cases address with
    | none => exact h.close_failed (by rw [hstage]; rfl) _
    | some data =>
      have hnone : s.heap data = none := hfresh data rfl
      have hinitialized := h.initialized_of_busy (c := c) (by rw [hstage]; rfl)
      apply h.take (((Frame.refl s c).store (.inr hnone) _).goto _) hnone
      · rw [goto_stage_self, hstage]
        rfl
      · exact s.live_store data _
      · rw [goto_stage_self]
        exact ⟨hok, Function.update_self data _ s.heap⟩
      · rw [goto_stage_self]
        have hopened := h.opened c
        rw [hstage] at hopened
        exact hopened
      · exact hinitialized
      · exact h.sound
  · exact h

theorem readFile (h : Inv tableCodePage s) (c : κ) (contents : Except Status (List UInt8)) :
    Inv tableCodePage (s.readFile c contents) := by
  unfold State.readFile
  split
  · next codePage name size data hstage =>
    have hok := h.stages c
    rw [hstage] at hok
    obtain ⟨hname, hdata⟩ := hok
    have hmem : data ∈ (s.stage c).blocks := by
      rw [hstage]
      exact List.mem_singleton_self data
    cases contents with
    | error status =>
      apply h.drop ((((Frame.refl s c).free hmem).setOpened false).goto _) [data]
      · rw [goto_stage_self, hstage]
        exact List.Perm.refl [data]
      · intro b
        rw [List.mem_singleton]
        exact s.live_free data b
      · rw [goto_stage_self]
        trivial
      · rw [goto_stage_self]
        exact Function.update_self c false s.opened
      · rw [goto_stage_self]
        exact .inr rfl
      · change (s.faulted || (s.heap data).isNone) = false
        rw [h.sound, hdata]
        rfl
    | ok contents =>
      have hinitialized := h.initialized_of_busy (c := c) (by rw [hstage]; rfl)
      apply h.keep ((((Frame.refl s c).store (.inl hmem) _).setOpened false).goto _)
      · rw [goto_stage_self, hstage]
        rfl
      · intro b
        refine (s.live_store data (.data name (some contents)) b).trans ?_
        constructor
        · rintro (rfl | hb)
          · simp [hdata]
          · exact hb
        · exact .inr
      · rw [goto_stage_self]
        refine ⟨contents, ?_⟩
        rw [← hname]
        exact Function.update_self data _ s.heap
      · rw [goto_stage_self]
        exact Function.update_self c false s.opened
      · exact .inl hinitialized
      · exact h.sound
  · exact h

theorem allocateEntry (h : Inv tableCodePage s) (c : κ) {address : Option Nat}
    (hfresh : s.Fresh address) : Inv tableCodePage (s.allocateEntry c address) := by
  unfold State.allocateEntry
  split
  · next codePage data hstage =>
    have hok := h.stages c
    rw [hstage] at hok
    obtain ⟨contents, hdata⟩ := hok
    have hopened := h.opened c
    rw [hstage] at hopened
    have hmem : data ∈ (s.stage c).blocks := by
      rw [hstage]
      exact List.mem_singleton_self data
    cases address with
    | none =>
      apply h.drop (((Frame.refl s c).free hmem).goto _) [data]
      · rw [goto_stage_self, hstage]
        exact List.Perm.refl [data]
      · intro b
        rw [List.mem_singleton]
        exact s.live_free data b
      · rw [goto_stage_self]
        trivial
      · rw [goto_stage_self]
        exact hopened
      · rw [goto_stage_self]
        exact .inr rfl
      · change (s.faulted || (s.heap data).isNone) = false
        rw [h.sound, hdata]
        rfl
    | some a =>
      have hnone : s.heap a = none := hfresh a rfl
      have hne : data ≠ a := by
        rintro rfl
        rw [hnone] at hdata
        cases hdata
      have hinitialized := h.initialized_of_busy (c := c) (by rw [hstage]; rfl)
      apply h.take (((Frame.refl s c).store (.inr hnone) _).goto _) hnone
      · rw [goto_stage_self, hstage]
        exact List.Perm.swap a data []
      · exact s.live_store a _
      · rw [goto_stage_self]
        exact ⟨Function.update_self a _ s.heap, contents,
          (Function.update_of_ne hne _ s.heap).trans hdata⟩
      · rw [goto_stage_self]
        exact hopened
      · exact hinitialized
      · exact h.sound
  · exact h

/-- The call frees its entry. -/
theorem freeEntry (h : Inv tableCodePage s) (hblocks : (s.stage c).blocks = e.blocks)
    (hfile : (s.stage c).hasFile = false) (hidle : stage.idle = true)
    (hok : stage.Ok tableCodePage s) :
    Inv tableCodePage ((s.ldkpFreeCodePageEntry e).goto c stage) := by
  have hdata : e.data ∈ (s.stage c).blocks := by
    rw [hblocks]
    simp [Entry.blocks]
  have haddress : e.address ∈ (s.stage c).blocks := by
    rw [hblocks]
    simp [Entry.blocks]
  have hnodup : e.blocks.Nodup := by
    rw [← hblocks]
    exact h.owned.once (some c)
  have hne : e.address ≠ e.data := by
    intro heq
    simp [Entry.blocks, heq] at hnodup
  apply h.drop ((((Frame.refl s c).free hdata).free haddress).goto _) e.blocks
  · rw [goto_stage_self, hblocks, Stage.blocks_of_idle hidle, List.append_nil]
  · exact s.live_freeEntry e
  · rw [goto_stage_self]
    refine Stage.Ok.congr hok ?_ (fun _ he => he) rfl
    intro a ha
    rw [Stage.blocks_of_idle hidle] at ha
    cases ha
  · rw [goto_stage_self, Stage.hasFile_of_idle hidle, ← hfile]
    exact h.opened c
  · rw [goto_stage_self]
    exact .inr hidle
  · have hlive (a : Nat) (ha : a ∈ (s.stage c).blocks) : (s.heap a).isNone = false := by
      have hne := h.owned.live_of_mem (i := some c) ha
      rw [Option.isNone_eq_false_iff, Option.isSome_iff_ne_none]
      exact hne
    change ((s.faulted || (s.heap e.data).isNone) ||
      (Function.update s.heap e.data none e.address).isNone) = false
    rw [Function.update_of_ne hne, h.sound, hlive _ hdata, hlive _ haddress]
    rfl

theorem initTable (h : Inv tableCodePage s) (c : κ) :
    Inv tableCodePage (s.initTable c tableCodePage) := by
  unfold State.initTable
  split
  · next e hstage =>
    have hok := h.stages c
    rw [hstage] at hok
    obtain ⟨haddress, contents, hdata⟩ := hok
    rw [hdata]
    dsimp only
    split
    · exact h.freeEntry (by rw [hstage]; rfl) (by rw [hstage]; rfl) rfl trivial
    · next hpage =>
      have hinitialized := h.initialized_of_busy (c := c) (by rw [hstage]; rfl)
      exact h.goto (by rw [hstage]; rfl) (by rw [hstage]; rfl)
        ⟨haddress, contents, hdata, not_not.mp hpage⟩ (.inl hinitialized)
  · exact h

/-- The entry of a page that is not in the list goes from the call to the list. -/
theorem append (h : Inv tableCodePage s) (hstage : s.stage c = .inserting e)
    (hnone : s.ldkpFindCodePageEntryLocked e.codePage = none) :
    Inv tableCodePage ({ s with list := s.list ++ [e] }.goto c
      (.returned s.generation e.codePage e.address)) := by
  have hok := h.stages c
  rw [hstage] at hok
  -- the search found no entry of the page
  have hnotMem : e.codePage ∉ s.list.map Entry.codePage := by
    intro hmem
    obtain ⟨e', he', hpage⟩ := List.mem_map.mp hmem
    have hnot := List.find?_eq_none.mp hnone e' he'
    simp [hpage] at hnot
  have hinitialized := h.initialized_of_busy (c := c) (by rw [hstage]; rfl)
  have hstages (c' : κ) (hc : c' ≠ c) : (({ s with list := s.list ++ [e] }.goto c
      (.returned s.generation e.codePage e.address)).stage c') = s.stage c' :=
    Function.update_of_ne hc _ _
  refine ⟨?_, ?_, ?_, ?_, ?_, ?_, h.sound⟩
  · have hne : (some c : Option κ) ≠ none := nofun
    have hfrom : (s.held (some c)).Perm (e.blocks ++ ({ s with list := s.list ++ [e] }.goto c
        (.returned s.generation e.codePage e.address)).held (some c)) := by
      change ((s.stage c).blocks).Perm (e.blocks ++ ((State.goto _ c _).stage c).blocks)
      rw [hstage, goto_stage_self]
      exact List.Perm.of_eq (List.append_nil e.blocks).symm
    -- the blocks of the entry go over to the list
    have hto : ((s.list ++ [e]).flatMap Entry.blocks).Perm
        (e.blocks ++ s.list.flatMap Entry.blocks) := by
      rw [List.flatMap_append, List.flatMap_singleton]
      exact List.perm_append_comm
    refine h.owned.transfer hne hfrom hto ?_ fun _ => Iff.rfl
    intro holder hcaller hlist
    cases holder with
    | none => exact absurd rfl hlist
    | some c' => exact congrArg Stage.blocks (hstages c' fun heq => hcaller (congrArg some heq))
  · change ((s.list ++ [e]).map Entry.codePage).Nodup
    rw [List.map_append, List.map_singleton]
    exact List.Nodup.append h.pages (List.nodup_singleton _)
      (List.disjoint_singleton.mpr hnotMem)
  · intro e' he'
    rcases List.mem_append.mp he' with he' | he'
    · exact h.loaded e' he'
    · rw [List.mem_singleton] at he'
      exact he' ▸ hok
  · intro c'
    by_cases hc : c' = c
    · rw [hc, goto_stage_self]
      exact ⟨le_rfl, fun _ => ⟨e, List.mem_append_right _ (List.mem_singleton_self e), rfl, rfl⟩⟩
    · rw [hstages c' hc]
      exact (h.stages c').congr (fun _ _ => rfl) (fun _ he => List.mem_append_left _ he) rfl
  · intro c'
    by_cases hc : c' = c
    · have hopened := h.opened c
      rw [hstage] at hopened
      rw [hc, goto_stage_self]
      exact hopened
    · rw [hstages c' hc]
      exact h.opened c'
  · intro hfalse
    have htrue : s.initialized = false := hfalse
    rw [hinitialized] at htrue
    cases htrue

theorem insert (h : Inv tableCodePage s) (c : κ) : Inv tableCodePage (s.insert c) := by
  unfold State.insert
  split
  · next e hstage =>
    split
    · next existingEntry hfound =>
      have hpage : existingEntry.codePage = e.codePage := by
        simpa using List.find?_some hfound
      refine h.freeEntry (by rw [hstage]; rfl) (by rw [hstage]; rfl) rfl ⟨le_rfl, fun _ => ?_⟩
      exact ⟨existingEntry, List.mem_of_find?_eq_some hfound, hpage, rfl⟩
    · next hnone => exact h.append hstage hnone
  · exact h

end Inv

/-! ## Initialization and termination -/

/-- The loop frees the blocks of the entries, which are all there. -/
theorem State.freeEntries_spec {list : List Entry} (hnodup : (list.flatMap Entry.blocks).Nodup)
    (hlive : ∀ a ∈ list.flatMap Entry.blocks, s.heap a ≠ none) :
    (∀ a, (s.freeEntries list).heap a ≠ none ↔
      a ∉ list.flatMap Entry.blocks ∧ s.heap a ≠ none) ∧
    (s.freeEntries list).faulted = s.faulted ∧ (s.freeEntries list).stage = s.stage ∧
    (s.freeEntries list).opened = s.opened ∧
    (s.freeEntries list).generation = s.generation := by
  induction list generalizing s with
  | nil => simp [State.freeEntries]
  | cons e list ih =>
    rw [List.flatMap_cons] at hnodup hlive
    obtain ⟨hentry, hrest, hdisjoint⟩ := List.nodup_append.mp hnodup
    have hne : e.address ≠ e.data := by
      intro heq
      simp [Entry.blocks, heq] at hentry
    have hthere (a : Nat) (ha : a ∈ e.blocks) : (s.heap a).isNone = false := by
      rw [Option.isNone_eq_false_iff, Option.isSome_iff_ne_none]
      exact hlive a (List.mem_append_left _ ha)
    have hfaulted : (s.ldkpFreeCodePageEntry e).faulted = s.faulted := by
      change ((s.faulted || (s.heap e.data).isNone) ||
        (Function.update s.heap e.data none e.address).isNone) = s.faulted
      rw [Function.update_of_ne hne, hthere e.data (by simp [Entry.blocks]),
        hthere e.address (by simp [Entry.blocks]), Bool.or_false, Bool.or_false]
    obtain ⟨hheap, hsound, hstage, hopened, hgeneration⟩ :=
      ih (s := s.ldkpFreeCodePageEntry e) hrest fun a ha => by
        rw [s.live_freeEntry e a]
        exact ⟨fun hmem => hdisjoint a hmem a ha rfl, hlive a (List.mem_append_right _ ha)⟩
    unfold State.freeEntries
    refine ⟨?_, hsound.trans hfaulted, hstage, hopened, hgeneration⟩
    intro a
    rw [hheap, s.live_freeEntry e a, List.flatMap_cons, List.mem_append, not_or]
    tauto

namespace Inv

theorem terminateNls (h : Inv tableCodePage s) (hidle : ∀ c, (s.stage c).idle = true) :
    Inv tableCodePage s.ldkpTerminateNls := by
  unfold State.ldkpTerminateNls
  split
  · obtain ⟨hheap, hsound, hstage, hopened, hgeneration⟩ :=
      s.freeEntries_spec (h.owned.once none) fun a ha => h.owned.live_of_mem (i := none) ha
    refine ⟨?_, List.nodup_nil, nofun, ?_, ?_, ?_, hsound.trans h.sound⟩
    · have hself : (s.held none).Perm (s.list.flatMap Entry.blocks ++ []) :=
        List.Perm.of_eq (List.append_nil _).symm
      refine h.owned.release hself ?_ hheap
      intro holder hholder
      cases holder with
      | none => exact absurd rfl hholder
      | some c => exact congrArg (fun stage => Stage.blocks (stage c)) hstage
    · intro c
      have hok := h.stages c
      have hc := hidle c
      dsimp only
      rw [hstage]
      cases hat : s.stage c with
      | notCalled => trivial
      | failed status => trivial
      | returned generation codePage table =>
        -- what has been returned is of an earlier generation from now on
        rw [hat] at hok
        have hle : generation ≤ s.generation := hok.1
        refine ⟨Nat.le_succ_of_le hle, fun heq => ?_⟩
        have hlater : generation = s.generation + 1 := heq
        omega
      | searching codePage => rw [hat] at hc; cases hc
      | opening codePage => rw [hat] at hc; cases hc
      | querying codePage name => rw [hat] at hc; cases hc
      | allocatingData codePage name size => rw [hat] at hc; cases hc
      | reading codePage name size data => rw [hat] at hc; cases hc
      | allocatingEntry codePage data => rw [hat] at hc; cases hc
      | initializing e => rw [hat] at hc; cases hc
      | inserting e => rw [hat] at hc; cases hc
    · intro c
      dsimp only
      rw [hopened, hstage]
      exact h.opened c
    · intro _
      refine ⟨rfl, fun c => ?_⟩
      dsimp only
      rw [hstage]
      exact hidle c
  · exact h

/-- A state with nothing in the list may be called initialised. -/
theorem setInitialized (h : Inv tableCodePage s) (hfalse : s.initialized = false)
    (systemLocale : Nat) :
    Inv tableCodePage { s with list := [], initialized := true, systemLocale } := by
  obtain ⟨hlist, hidle⟩ := h.uninitialized hfalse
  refine ⟨h.owned.congr (fun holder => ?_) fun _ => Iff.rfl, List.nodup_nil, nofun, fun c => ?_,
    h.opened, nofun, h.sound⟩
  · cases holder with
    | none =>
      change ([].flatMap Entry.blocks).Perm (s.list.flatMap Entry.blocks)
      rw [hlist]
    | some c => exact List.Perm.refl _
  · refine Stage.Ok.congr (h.stages c) (fun _ _ => rfl) ?_ rfl
    intro e he
    rw [hlist] at he
    cases he

theorem initializeNls (h : Inv tableCodePage s) (hfalse : s.initialized = false) (resource : Bool)
    (locale : Option Nat) : Inv tableCodePage (s.ldkpInitializeNls resource locale) := by
  obtain ⟨hlist, hidle⟩ := h.uninitialized hfalse
  unfold State.ldkpInitializeNls
  dsimp only
  split
  · cases locale with
    | none => exact (h.setInitialized hfalse s.systemLocale).terminateNls hidle
    | some locale => exact h.setInitialized hfalse locale
  · have hsame : { s with list := [] } = s := by
      rw [← hlist]
    rw [hsame]
    exact h

end Inv

theorem inv_of_reachable {pages : SystemCodePages} :
    ∀ s, (codePages pages tableCodePage κ).Reachable Always s → Inv tableCodePage s := by
  apply System.Reachable.invariant
  · rintro s rfl
    refine ⟨Owned.empty (fun _ hlive => hlive rfl) fun holder => ?_, List.nodup_nil, nofun,
      fun _ => trivial, fun _ => rfl, fun _ => ⟨rfl, fun _ => rfl⟩, rfl⟩
    cases holder <;> rfl
  · intro s a h hen _
    cases a with
    | initializeNls resource locale => exact h.initializeNls hen resource locale
    | terminateNls => exact h.terminateNls hen
    | getCodePageTable c codePage => exact h.getCodePageTable hen pages codePage
    | search c => exact h.search c
    | openFile c path status => exact h.openFile c hen status
    | queryFile c endOfFile => exact h.queryFile c endOfFile
    | allocateData c address => exact h.allocateData c hen
    | readFile c contents => exact h.readFile c contents
    | allocateEntry c address => exact h.allocateEntry c hen
    | initTable c => exact h.initTable c
    | insert c => exact h.insert c

/-! ## Tables -/

/-- Tables are shared, and nothing is lost. -/
structure TablesShared (tableCodePage : List UInt8 → Nat) (s : State κ) : Prop where
  /-- There is one entry at most for a page. -/
  pages : (s.list.map Entry.codePage).Nodup
  /-- Since LDK was initialised last, who has asked for a page has the table of its entry, with the
  contents of the file of the page behind it. -/
  tables : ∀ c codePage table, s.stage c = .returned s.generation codePage table →
    ∃ e ∈ s.list, e.address = table ∧ e.codePage = codePage ∧ Loaded tableCodePage s.heap e
  shared : ∀ c c' codePage table table', s.stage c = .returned s.generation codePage table →
    s.stage c' = .returned s.generation codePage table' → table = table'
  /-- Each block belongs to an entry or to a call that is under way. -/
  blocks : ∀ a, s.heap a ≠ none ↔
    (∃ e ∈ s.list, a ∈ e.blocks) ∨ ∃ c, a ∈ (s.stage c).blocks
  /-- A call that is over has no block and no handle. -/
  idle : ∀ c, (s.stage c).idle = true → (s.stage c).blocks = [] ∧ s.opened c = false
  /-- When LDK has terminated there is no block at all. -/
  terminated : s.initialized = false → ∀ a, s.heap a = none
  /-- No block is used or freed that is not there. -/
  sound : s.faulted = false

/-- Two calls for the ANSI code page do not find it and load it; the second one is faster. -/
def twoLoads : List (Action (Fin 2)) :=
  [.initializeNls true (some 0x409), .getCodePageTable 0 0, .getCodePageTable 1 1252,
    .search 0, .search 1, .openFile 0 (List.replicate 64 0) none,
    .openFile 1 (List.replicate 64 7) none, .queryFile 0 (.ok 66594), .queryFile 1 (.ok 66594),
    .allocateData 0 (some 16), .allocateData 1 (some 32), .readFile 1 (.ok [228, 4]),
    .readFile 0 (.ok [228, 4]), .allocateEntry 1 (some 48), .allocateEntry 0 (some 64),
    .initTable 0, .initTable 1, .insert 1, .insert 0]

/-- The code page is in the first two bytes. -/
def firstWord (contents : List UInt8) : Nat :=
  (contents[0]?.getD 0).toNat + 256 * (contents[1]?.getD 0).toNat

end Ldk.CodePages
