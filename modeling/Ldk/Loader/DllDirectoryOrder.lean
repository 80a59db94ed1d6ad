import Ldk.Lib.Ownership
import Ldk.Loader.DllDirectories

set_option linter.unusedSectionVars false

/-!
# The DLL directories behave as if one call came after the other

Whatever the order of the steps: each call takes effect at one moment of its own, what it answers is
what one operation after the other would have answered, and every block has one owner.

- `HoldsText`: a string of the PEB or of a call, with its text.
- `Request.Answered`: what a call returns, by what it was asked for and by the operation that has
  taken effect for it.
- `Inv`: the blocks of the heap are those of the PEB and of the calls under way, and the log of
  operations explains the PEB.
- `Inv.own` carries it over the steps that leave the PEB alone, `Inv.effect` over the sections that
  change it.
- `dll_directories_are_linearizable`: what holds in every run.
-/

namespace Ldk.DllDirectories

open TransitionSystem Linearization Ownership

variable {κ : Type} [DecidableEq κ]

/-! ## Strings -/

section Strings

variable {heap heap' : Nat → Option Block} {u : UnicodeString} {text : List WCHAR}

/-- The string has a block with its characters, or none and no characters. -/
def HoldsText (heap : Nat → Option Block) (u : UnicodeString) (text : List WCHAR) : Prop :=
  u.length = text.length ∧
    match u.buffer with
    | none => text = []
    | some a => heap a = some (.string (text ++ [0]))

theorem HoldsText.text_eq (h : HoldsText heap u text) : u.text heap = text := by
  obtain ⟨hlength, hbuffer⟩ := h
  unfold UnicodeString.text
  cases hu : u.buffer with
  | none =>
    rw [hu] at hbuffer
    simp [hbuffer]
  | some a =>
    rw [hu] at hbuffer
    simp [hbuffer, hlength]

theorem HoldsText.congr (h : HoldsText heap u text)
    (hsame : ∀ b ∈ u.buffer.toList, heap' b = heap b) : HoldsText heap' u text := by
  refine ⟨h.1, ?_⟩
  have hbuffer := h.2
  cases hu : u.buffer with
  | none =>
    rw [hu] at hbuffer
    exact hbuffer
  | some a =>
    rw [hu] at hbuffer
    exact (hsame a (by simp [hu])).trans hbuffer

/-- No buffer is needed for no characters. -/
theorem holdsText_empty : HoldsText heap ⟨none, 0⟩ [] := ⟨rfl, rfl⟩

/-- A new block with the characters. -/
theorem holdsText_new {a : Nat} (h : heap a = some (.string (text ++ [0]))) :
    HoldsText heap ⟨some a, text.length⟩ text := ⟨rfl, h⟩

/-- The blocks of a directory. -/
def Directory.blocks (d : Directory) : List Nat := d.path.buffer.toList ++ [d.address]

/-- A directory with its path. -/
structure Directory.Ok (heap : Nat → Option Block) (d : Directory) (text : List WCHAR) : Prop where
  address : d.address ≠ 0
  directory : heap d.address = some .directory
  path : HoldsText heap d.path text

theorem Directory.Ok.congr {d : Directory} (h : d.Ok heap text)
    (hsame : ∀ b ∈ d.blocks, heap' b = heap b) : d.Ok heap' text where
  address := h.address
  directory := by
    rw [hsame d.address (by simp [Directory.blocks])]
    exact h.directory
  path := h.path.congr fun b hb => hsame b (List.mem_append_left _ hb)

end Strings

/-! ## Calls -/

/-- The text that `SetDllDirectoryW` is given. -/
def requested (pathName : Option (List WCHAR)) : List WCHAR :=
  (pathName.map rtlInitUnicodeString).getD []

theorem length_rtlInitUnicodeString (string : List WCHAR) :
    (rtlInitUnicodeString string).length ≤ 0x7ffe := by
  unfold rtlInitUnicodeString
  exact List.length_take_le _ _

/-- What a call returns, by what it was asked for and by the operation that has taken effect for
it, if one has. -/
def Request.Answered (effect : Option (Effect Operation Answer)) (outcome : Outcome) :
    Request → Prop
  | .set pathName =>
    (effect = none ∧ outcome = .failed .insufficientResources) ∨
      ∃ place, effect = some ⟨.set (requested pathName), .done, place⟩ ∧ outcome = .succeeded
  | .add newDirectory =>
    (effect = none ∧ ldkpIsFullyQualifiedDllDirectory newDirectory = false ∧
      outcome = .failed .invalidParameter) ∨
    (effect = none ∧
      (outcome = .failed .noMemory ∨ outcome = .failed .insufficientResources)) ∨
    ∃ cookie place, effect = some ⟨.add cookie (rtlInitUnicodeString newDirectory), .done, place⟩ ∧
      ldkpIsFullyQualifiedDllDirectory newDirectory = true ∧ cookie ≠ 0 ∧ outcome = .cookie cookie
  | .remove cookie =>
    (effect = none ∧ cookie = 0 ∧ outcome = .failed .invalidParameter) ∨
    ∃ found place, effect = some ⟨.remove cookie, .found found, place⟩ ∧
      outcome = if found then .succeeded else .failed .invalidParameter
  | .get nBufferLength lpBuffer =>
    (effect = none ∧ outcome = .failed .insufficientResources) ∨
    ∃ text place, effect = some ⟨.get, .text text, place⟩ ∧
      outcome = State.getResult nBufferLength lpBuffer text
  | .snapshot =>
    ∃ paths place, effect = some ⟨.snapshot, .texts paths, place⟩ ∧ outcome = .paths paths

/-- The blocks that the rest of a call will free or give to the PEB. -/
def Stage.blocks : Stage → List Nat
  | .swapping newDirectory => newDirectory.buffer.toList
  | .copying _ directory => [directory]
  | .inserting directory => directory.blocks
  | .delivering _ _ directory => directory.buffer.toList
  | .freeing blocks _ => blocks
  | _ => []

theorem Stage.blocks_of_idle {stage : Stage} (h : stage.idle = true) : stage.blocks = [] := by
  cases stage with
  | notCalled | returned => rfl
  | _ => cases h

/-- What a call has done so far. -/
def Stage.Ok (heap : Nat → Option Block) (request : Option Request)
    (effect : Option (Effect Operation Answer)) : Stage → Prop
  | .notCalled => effect = none
  | .duplicating path =>
    effect = none ∧ ∃ pathName, request = some (.set pathName) ∧ path = requested pathName
  | .swapping newDirectory =>
    effect = none ∧ ∃ pathName, request = some (.set pathName) ∧
      HoldsText heap newDirectory (requested pathName)
  | .allocating path =>
    effect = none ∧ ∃ newDirectory, request = some (.add newDirectory) ∧
      ldkpIsFullyQualifiedDllDirectory newDirectory = true ∧
      path = rtlInitUnicodeString newDirectory
  | .copying path directory =>
    effect = none ∧ ∃ newDirectory, request = some (.add newDirectory) ∧
      ldkpIsFullyQualifiedDllDirectory newDirectory = true ∧
      path = rtlInitUnicodeString newDirectory ∧ directory ≠ 0 ∧
      heap directory = some .directory
  | .inserting directory =>
    effect = none ∧ ∃ newDirectory, request = some (.add newDirectory) ∧
      ldkpIsFullyQualifiedDllDirectory newDirectory = true ∧
      directory.Ok heap (rtlInitUnicodeString newDirectory)
  | .removing cookie => effect = none ∧ request = some (.remove cookie)
  | .getting nBufferLength lpBuffer =>
    effect = none ∧ request = some (.get nBufferLength lpBuffer)
  | .delivering nBufferLength lpBuffer directory =>
    request = some (.get nBufferLength lpBuffer) ∧
      ∃ text place, effect = some ⟨.get, .text text, place⟩ ∧ HoldsText heap directory text
  | .snapshotting => effect = none ∧ request = some .snapshot
  | .freeing _ outcome | .returned outcome =>
    ∃ r, request = some r ∧ r.Answered effect outcome

/-- What a call has done depends on its own blocks. -/
theorem Stage.Ok.congr {heap heap' : Nat → Option Block} {request : Option Request}
    {effect : Option (Effect Operation Answer)} {stage : Stage}
    (h : stage.Ok heap request effect) (hsame : ∀ b ∈ stage.blocks, heap' b = heap b) :
    stage.Ok heap' request effect := by
  cases stage with
  | swapping newDirectory =>
    obtain ⟨hnone, pathName, hrequest, htext⟩ := h
    exact ⟨hnone, pathName, hrequest, htext.congr hsame⟩
  | copying path directory =>
    obtain ⟨hnone, newDirectory, hrequest, hfull, hpath, hne, hdirectory⟩ := h
    exact ⟨hnone, newDirectory, hrequest, hfull, hpath, hne,
      (hsame directory (by simp [Stage.blocks])).trans hdirectory⟩
  | inserting directory =>
    obtain ⟨hnone, newDirectory, hrequest, hfull, hok⟩ := h
    exact ⟨hnone, newDirectory, hrequest, hfull, hok.congr hsame⟩
  | delivering nBufferLength lpBuffer directory =>
    obtain ⟨hrequest, text, place, heffect, htext⟩ := h
    exact ⟨hrequest, text, place, heffect, htext.congr hsame⟩
  | _ => exact h

/-! ## The invariant -/

/-- The blocks that belong to the PEB. -/
def State.pebBlocks (s : State κ) : List Nat :=
  s.dllDirectory.buffer.toList ++ s.dllDirectoryList.flatMap Directory.blocks

/-- The blocks of the PEB, and those of each call. -/
def State.held (s : State κ) : Option κ → List Nat
  | none => s.pebBlocks
  | some c => (s.stage c).blocks

structure Inv (s : State κ) : Prop where
  owned : Owned (fun b => s.heap b ≠ none) s.held
  current : ∃ text, HoldsText s.heap s.dllDirectory text
  list : ∀ d ∈ s.dllDirectoryList, ∃ text, d.Ok s.heap text
  stages : ∀ c, (s.stage c).Ok s.heap (s.request c) (s.effects c)
  explains : ∃ d, Explains directories s.log d s.effects ∧ (s.ended = false → d = s.abstract)
  ended : s.ended = true → s.pebBlocks = [] ∧ ∀ c, (s.stage c).idle = true
  sound : s.faulted = false

theorem UnicodeString.text_congr {heap heap' : Nat → Option Block} {u : UnicodeString}
    (hsame : ∀ b ∈ u.buffer.toList, heap' b = heap b) : u.text heap' = u.text heap := by
  unfold UnicodeString.text
  cases hu : u.buffer with
  | none => rfl
  | some a => simp [hsame a (by simp [hu])]

/-- What the PEB says depends on its own blocks. -/
theorem State.abstract_congr {s s' : State κ} (hcurrent : s'.dllDirectory = s.dllDirectory)
    (hlist : s'.dllDirectoryList = s.dllDirectoryList)
    (hsame : ∀ b ∈ s.pebBlocks, s'.heap b = s.heap b) : s'.abstract = s.abstract := by
  unfold State.abstract
  rw [hcurrent, hlist]
  congr 1
  · exact UnicodeString.text_congr fun b hb => hsame b (List.mem_append_left _ hb)
  · apply List.map_congr_left
    intro d hd
    have htext : d.path.text s'.heap = d.path.text s.heap := by
      apply UnicodeString.text_congr
      intro b hb
      exact hsame b (List.mem_append_right _
        (List.mem_flatMap.mpr ⟨d, hd, List.mem_append_left _ hb⟩))
    rw [htext]

theorem inv_initialState : Inv (initialState : State κ) where
  owned := by
    refine Owned.empty (fun b hb => hb rfl) ?_
    rintro (_ | c) <;> rfl
  current := ⟨[], holdsText_empty⟩
  list d hd := by cases hd
  stages c := rfl
  explains := ⟨_, Explains.nothing fun _ => rfl, fun _ => rfl⟩
  ended hended := by cases hended
  sound := rfl

namespace Inv

variable {s : State κ} {c : κ} {v : Stage}

/-- The PEB is there as long as a call is under way. -/
theorem running (h : Inv s) {stage : Stage} (hstage : s.stage c = stage)
    (hbusy : stage.idle = false) : s.ended = false := by
  by_contra hended
  rw [Bool.not_eq_false] at hended
  have hidle : (s.stage c).idle = true := (h.ended hended).2 c
  rw [hstage, hbusy] at hidle
  cases hidle

/-- A step of a call that leaves the PEB and the blocks of the others alone. -/
theorem own (h : Inv s) {s' : State κ} (hopen : s.ended = false)
    (hstage : s'.stage = Function.update s.stage c v)
    (hcurrent : s'.dllDirectory = s.dllDirectory)
    (hlist : s'.dllDirectoryList = s.dllDirectoryList) (hended : s'.ended = s.ended)
    (hfaulted : s'.faulted = s.faulted)
    (howned : Owned (fun b => s'.heap b ≠ none) s'.held)
    (hframe : ∀ b, b ∉ (s.stage c).blocks → s.heap b ≠ none → s'.heap b = s.heap b)
    (hrequest : ∀ c', c' ≠ c → s'.request c' = s.request c')
    (heffects : ∀ c', c' ≠ c → s'.effects c' = s.effects c')
    (hok : v.Ok s'.heap (s'.request c) (s'.effects c))
    (hexplains : Explains directories s'.log s.abstract s'.effects) : Inv s' := by
  have hpeb : ∀ b ∈ s.pebBlocks, s'.heap b = s.heap b :=
    h.owned.unchanged (i := some c) hframe (j := none) (by simp)
  have hcurrentBlocks : ∀ b ∈ s.dllDirectory.buffer.toList, s'.heap b = s.heap b :=
    fun b hb => hpeb b (List.mem_append_left _ hb)
  refine ⟨howned, ?_, ?_, ?_, ?_, ?_, ?_⟩
  · obtain ⟨text, htext⟩ := h.current
    rw [hcurrent]
    exact ⟨text, htext.congr hcurrentBlocks⟩
  · intro d hd
    rw [hlist] at hd
    obtain ⟨text, htext⟩ := h.list d hd
    refine ⟨text, htext.congr fun b hb => ?_⟩
    exact hpeb b (List.mem_append_right _ (List.mem_flatMap.mpr ⟨d, hd, hb⟩))
  · intro c'
    rw [hstage]
    by_cases hne : c' = c
    · rw [hne, Function.update_self]
      exact hok
    · rw [Function.update_of_ne hne, hrequest c' hne, heffects c' hne]
      exact (h.stages c').congr (h.owned.unchanged (i := some c) hframe (j := some c') (by simpa))
  · exact ⟨s.abstract, hexplains, fun _ => (s.abstract_congr hcurrent hlist hpeb).symm⟩
  · intro hclosed
    rw [hended, hopen] at hclosed
    cases hclosed
  · rw [hfaulted]
    exact h.sound

/-- The operations so far explain the PEB while it is there. -/
theorem explained (h : Inv s) (hopen : s.ended = false) :
    Explains directories s.log s.abstract s.effects := by
  obtain ⟨d, hexplains, hd⟩ := h.explains
  rw [← hd hopen]
  exact hexplains

/-- Who holds the blocks when a call goes on with those that it had. -/
theorem ownedSame (h : Inv s) {s' : State κ} (hheap : s'.heap = s.heap)
    (hstage : s'.stage = Function.update s.stage c v) (hcurrent : s'.dllDirectory = s.dllDirectory)
    (hlist : s'.dllDirectoryList = s.dllDirectoryList) (hblocks : v.blocks = (s.stage c).blocks) :
    Owned (fun b => s'.heap b ≠ none) s'.held := by
  refine h.owned.congr ?_ fun b => by rw [hheap]
  rintro (_ | c')
  · simp [State.held, State.pebBlocks, hcurrent, hlist]
  · by_cases hne : c' = c
    · simp [State.held, hstage, hne, hblocks]
    · simp [State.held, hstage, hne]

/-- A call goes on without the heap. -/
theorem goto (h : Inv s) (hopen : s.ended = false) (hblocks : v.blocks = (s.stage c).blocks)
    (hok : v.Ok s.heap (s.request c) (s.effects c)) : Inv (s.goto c v) := by
  have howned : Owned (fun b => (s.goto c v).heap b ≠ none) (s.goto c v).held :=
    h.ownedSame rfl rfl rfl rfl hblocks
  exact h.own hopen rfl rfl rfl rfl rfl howned (fun _ _ _ => rfl) (fun _ _ => rfl)
    (fun _ _ => rfl) hok (h.explained hopen)

/-- A call begins. -/
theorem begin (h : Inv s) (hopen : s.ended = false) (hcalled : s.stage c = .notCalled)
    (hblocks : v.blocks = []) {r : Request} (hok : v.Ok s.heap (some r) none) :
    Inv ((s.call c r).goto c v) := by
  have hnone : s.effects c = none := by
    have hstage := h.stages c
    rw [hcalled] at hstage
    exact hstage
  have hempty : (s.stage c).blocks = [] := Stage.blocks_of_idle (by rw [hcalled]; rfl)
  have howned : Owned (fun b => ((s.call c r).goto c v).heap b ≠ none)
      ((s.call c r).goto c v).held :=
    h.ownedSame rfl rfl rfl rfl (hblocks.trans hempty.symm)
  refine h.own hopen rfl rfl rfl rfl rfl howned (fun _ _ _ => rfl)
    (fun c' hne => Function.update_of_ne hne _ _) (fun _ _ => rfl) ?_ (h.explained hopen)
  simpa [State.goto, State.call, hnone] using hok

/-- A new block is none of those that are there. -/
theorem update_fresh {heap : Nat → Option Block} {a : Nat} (hfresh : heap a = none)
    (block : Option Block) {b : Nat} (hlive : heap b ≠ none) :
    Function.update heap a block b = heap b := by
  have hne : b ≠ a := by
    rintro rfl
    exact hlive hfresh
  exact Function.update_of_ne hne _ _

/-- Who holds the blocks after an allocation. -/
theorem ownedAllocation (h : Inv s) {s' : State κ} {a : Nat} {block : Block}
    (hfresh : s.heap a = none) (hheap : s'.heap = Function.update s.heap a (some block))
    (hstage : s'.stage = Function.update s.stage c v) (hcurrent : s'.dllDirectory = s.dllDirectory)
    (hlist : s'.dllDirectoryList = s.dllDirectoryList)
    (hblocks : v.blocks.Perm (a :: (s.stage c).blocks)) :
    Owned (fun b => s'.heap b ≠ none) s'.held := by
  refine h.owned.acquire (i := some c) (List.nodup_singleton a) ?_ ?_ ?_ ?_
  · simp [hfresh]
  · simpa [State.held, hstage] using hblocks
  · rintro (_ | c') hne
    · simp [State.held, State.pebBlocks, hcurrent, hlist]
    · have hother : c' ≠ c := fun heq => hne (by rw [heq])
      simp [State.held, hstage, hother]
  · intro b
    rw [hheap]
    by_cases hb : b = a
    · simp [hb]
    · simp [hb]

/-- A call gets a block. -/
theorem allocate (h : Inv s) (hopen : s.ended = false) {a : Nat} (hfresh : s.heap a = none)
    (block : Block) (hblocks : v.blocks.Perm (a :: (s.stage c).blocks))
    (hok : v.Ok (Function.update s.heap a (some block)) (s.request c) (s.effects c)) :
    Inv ((s.store a block).goto c v) := by
  have howned : Owned (fun b => ((s.store a block).goto c v).heap b ≠ none)
      ((s.store a block).goto c v).held :=
    h.ownedAllocation hfresh rfl rfl rfl rfl hblocks
  exact h.own hopen rfl rfl rfl rfl rfl howned (fun _ _ hlive => update_fresh hfresh _ hlive)
    (fun _ _ => rfl) (fun _ _ => rfl) hok (h.explained hopen)

/-- A call frees the first of its blocks. -/
theorem release (h : Inv s) (hopen : s.ended = false) {a : Nat}
    (hblocks : (s.stage c).blocks = a :: v.blocks)
    (hok : v.Ok (Function.update s.heap a none) (s.request c) (s.effects c)) :
    Inv ((s.free a).goto c v) := by
  have hlive : s.heap a ≠ none := h.owned.live_of_mem (i := some c) (by simp [State.held, hblocks])
  have hfaulted : ((s.free a).goto c v).faulted = s.faulted := by
    simp [State.free, State.goto, Option.isNone_iff_eq_none, hlive]
  refine h.own hopen rfl rfl rfl rfl hfaulted ?_ ?_ (fun _ _ => rfl) (fun _ _ => rfl) hok
    (h.explained hopen)
  · have hself : (s.held (some c)).Perm ([a] ++ ((s.free a).goto c v).held (some c)) := by
      simp [State.held, State.goto, State.free, hblocks]
    refine h.owned.release hself ?_ ?_
    · rintro (_ | c') hne
      · rfl
      · have hother : c' ≠ c := fun heq => hne (by rw [heq])
        simp [State.held, State.goto, State.free, hother]
    · intro b
      by_cases hb : b = a
      · simp [State.goto, State.free, hb]
      · simp [State.goto, State.free, hb]
  · intro b hb _
    have hne : b ≠ a := by
      rintro rfl
      exact hb (by simp [hblocks])
    exact Function.update_of_ne hne _ _

/-- An operation that leaves the directories as they are is explained by the same ones. -/
theorem explained_read (h : Inv s) (hopen : s.ended = false) {operation : Operation}
    (hnone : s.effects c = none) (hread : (s.abstract.apply operation).2 = s.abstract) :
    Explains directories (s.commit c operation).log s.abstract (s.commit c operation).effects := by
  have hcommit := (h.explained hopen).commit hnone operation
  change Explains directories _ (s.abstract.apply operation).2 _ at hcommit
  rw [hread] at hcommit
  exact hcommit

/-- A section that reads the PEB takes effect. -/
theorem read (h : Inv s) (hopen : s.ended = false) {operation : Operation}
    (hnone : s.effects c = none) (hread : (s.abstract.apply operation).2 = s.abstract)
    (hblocks : v.blocks = (s.stage c).blocks)
    (hok : v.Ok s.heap (s.request c)
      (some ⟨operation, (s.abstract.apply operation).1, s.log.length⟩)) :
    Inv ((s.commit c operation).goto c v) := by
  have howned : Owned (fun b => ((s.commit c operation).goto c v).heap b ≠ none)
      ((s.commit c operation).goto c v).held :=
    h.ownedSame rfl rfl rfl rfl hblocks
  refine h.own hopen rfl rfl rfl rfl rfl howned (fun _ _ _ => rfl) (fun _ _ => rfl)
    (fun c' hne => Function.update_of_ne hne _ _) ?_ (h.explained_read hopen hnone hread)
  simpa [State.goto, State.commit] using hok

/-- The section of `GetDllDirectoryW` takes effect and gets a block. -/
theorem readInto (h : Inv s) (hopen : s.ended = false) {operation : Operation} {a : Nat}
    {block : Block} (hfresh : s.heap a = none)
    (hnone : s.effects c = none) (hread : (s.abstract.apply operation).2 = s.abstract)
    (hblocks : v.blocks.Perm (a :: (s.stage c).blocks))
    (hok : v.Ok (Function.update s.heap a (some block)) (s.request c)
      (some ⟨operation, (s.abstract.apply operation).1, s.log.length⟩)) :
    Inv (((s.commit c operation).store a block).goto c v) := by
  have howned : Owned (fun b => (((s.commit c operation).store a block).goto c v).heap b ≠ none)
      (((s.commit c operation).store a block).goto c v).held :=
    h.ownedAllocation hfresh rfl rfl rfl rfl hblocks
  refine h.own hopen rfl rfl rfl rfl rfl howned (fun _ _ hlive => update_fresh hfresh _ hlive)
    (fun _ _ => rfl) (fun c' hne => Function.update_of_ne hne _ _) ?_
    (h.explained_read hopen hnone hread)
  simpa [State.goto, State.commit, State.store] using hok

/-- A section that changes the PEB takes effect. -/
theorem effect (h : Inv s) (hopen : s.ended = false) {operation : Operation}
    {current : UnicodeString} {list : List Directory} (hnone : s.effects c = none)
    (hboth : ((current.buffer.toList ++ list.flatMap Directory.blocks) ++ v.blocks).Perm
      (s.pebBlocks ++ (s.stage c).blocks))
    (hcurrent : ∃ text, HoldsText s.heap current text)
    (hlist : ∀ d ∈ list, ∃ text, d.Ok s.heap text)
    (hchange : (s.abstract.apply operation).2 =
      ⟨current.text s.heap, list.map fun d => (d.address, d.path.text s.heap)⟩)
    (hok : v.Ok s.heap (s.request c)
      (some ⟨operation, (s.abstract.apply operation).1, s.log.length⟩)) :
    Inv ({ s.commit c operation with
      dllDirectory := current, dllDirectoryList := list }.goto c v) := by
  refine ⟨?_, hcurrent, hlist, ?_, ?_, ?_, h.sound⟩
  · refine h.owned.redistribute (i := none) (j := some c) (by simp) ?_ ?_ fun _ => Iff.rfl
    · simpa [State.held, State.goto, State.pebBlocks] using hboth
    · rintro (_ | c') hne hne'
      · exact absurd rfl hne
      · have hother : c' ≠ c := fun heq => hne' (by rw [heq])
        simp [State.held, State.goto, State.commit, hother]
  · intro c'
    by_cases hne : c' = c
    · subst hne
      simpa [State.goto, State.commit] using hok
    · simpa [State.goto, State.commit, hne] using h.stages c'
  · refine ⟨_, (h.explained hopen).commit hnone operation, fun _ => ?_⟩
    exact hchange
  · intro hended
    change s.ended = true at hended
    rw [hopen] at hended
    cases hended

/-! ## The sections -/

/-- A call that has not taken effect says so. -/
theorem effects_eq (h : Inv s) {stage : Stage} (hstage : s.stage c = stage) :
    stage.Ok s.heap (s.request c) (s.effects c) := by
  rw [← hstage]
  exact h.stages c

theorem swap (h : Inv s) (c : κ) : Inv (s.swap c) := by
  unfold State.swap
  cases hstage : s.stage c with
  | swapping newDirectory =>
    obtain ⟨hnone, pathName, hrequest, htext⟩ := h.effects_eq hstage
    dsimp only
    refine h.effect (h.running hstage rfl) hnone ?_ ⟨_, htext⟩ h.list rfl ?_
    -- the new string goes to the PEB, and the old one to the call, which frees it
    · rw [hstage]
      simp only [State.pebBlocks, Stage.blocks, List.append_assoc]
      calc (newDirectory.buffer.toList ++ (s.dllDirectoryList.flatMap Directory.blocks ++
            s.dllDirectory.buffer.toList)).Perm
            ((s.dllDirectoryList.flatMap Directory.blocks ++ s.dllDirectory.buffer.toList) ++
              newDirectory.buffer.toList) := List.perm_append_comm
        _ |>.Perm ((s.dllDirectory.buffer.toList ++
            s.dllDirectoryList.flatMap Directory.blocks) ++ newDirectory.buffer.toList) :=
          List.perm_append_comm.append_right _
        _ = s.dllDirectory.buffer.toList ++ (s.dllDirectoryList.flatMap Directory.blocks ++
            newDirectory.buffer.toList) := List.append_assoc _ _ _
    · refine ⟨.set pathName, hrequest, .inr ⟨s.log.length, ?_, rfl⟩⟩
      rw [htext.text_eq]
      rfl
  | _ => exact h

theorem insert (h : Inv s) (c : κ) : Inv (s.insert c) := by
  unfold State.insert
  cases hstage : s.stage c with
  | inserting directory =>
    obtain ⟨hnone, newDirectory, hrequest, hfull, hok⟩ := h.effects_eq hstage
    dsimp only
    refine h.effect (h.running hstage rfl) hnone ?_ h.current ?_ ?_ ?_
    · rw [hstage]
      simp [State.commit, State.pebBlocks, Stage.blocks]
    · intro d hd
      rcases List.mem_append.mp hd with hd | hd
      · exact h.list d hd
      · rw [List.mem_singleton.mp hd]
        exact ⟨_, hok⟩
    · simp [Directories.apply, State.commit, State.abstract]
    · refine ⟨.add newDirectory, hrequest, .inr (.inr ⟨directory.address, s.log.length, ?_, hfull,
        hok.address, rfl⟩)⟩
      rw [hok.path.text_eq]
      rfl
  | _ => exact h

/-- The directory of a cookie, with those before and behind it. -/
theorem find?_split {cookie : Nat} {list : List Directory} {d : Directory}
    (hfind : list.find? (fun d => d.address = cookie) = some d) :
    d.address = cookie ∧ ∃ before after, list = before ++ d :: after ∧
      list.eraseP (fun d => d.address = cookie) = before ++ after := by
  obtain ⟨hd, before, after, rfl, hbefore⟩ := List.find?_eq_some_iff_append.mp hfind
  rw [decide_eq_true_eq] at hd
  refine ⟨hd, before, after, rfl, ?_⟩
  rw [List.eraseP_append_right _ fun b hb => by simpa using hbefore b hb]
  simp [hd]

theorem apply_remove_of_mem {d : Directories} {cookie : Nat}
    (h : cookie ∈ d.added.map Prod.fst) :
    d.apply (.remove cookie) =
      (.found true, { d with added := d.added.eraseP fun entry => entry.1 = cookie }) := if_pos h

theorem apply_remove_of_not_mem {d : Directories} {cookie : Nat}
    (h : cookie ∉ d.added.map Prod.fst) : d.apply (.remove cookie) = (.found false, d) := if_neg h

theorem remove (h : Inv s) (c : κ) : Inv (s.remove c) := by
  unfold State.remove
  cases hstage : s.stage c with
  | removing cookie =>
    obtain ⟨hnone, hrequest⟩ := h.effects_eq hstage
    have hopen : s.ended = false := h.running hstage rfl
    have hadded : s.abstract.added.map Prod.fst = s.dllDirectoryList.map Directory.address := by
      simp [State.abstract]
    dsimp only
    cases hfind : s.dllDirectoryList.find? fun d => d.address = cookie with
    | some directory =>
      obtain ⟨hcookie, before, after, hsplit, herased⟩ := find?_split hfind
      have hmem : cookie ∈ s.abstract.added.map Prod.fst := by
        rw [hadded, hsplit]
        simp [hcookie]
      dsimp only
      refine h.effect hopen hnone ?_ h.current ?_ ?_ ?_
      -- the directory leaves the list for the call, with its path
      · rw [herased, hstage, State.pebBlocks, hsplit]
        simp only [Stage.blocks, List.append_nil, List.flatMap_append, List.flatMap_cons,
          List.append_assoc]
        refine List.Perm.append_left _ (List.Perm.append_left _ ?_)
        exact List.perm_append_comm
      · intro d hd
        exact h.list d (List.mem_of_mem_eraseP hd)
      · rw [apply_remove_of_mem hmem]
        simp [State.commit, State.abstract, List.eraseP_map, Function.comp_def]
      · refine ⟨.remove cookie, hrequest, .inr ⟨true, s.log.length, ?_, rfl⟩⟩
        rw [apply_remove_of_mem hmem]
    | none =>
      have hmem : cookie ∉ s.abstract.added.map Prod.fst := by
        rw [hadded]
        simpa using hfind
      -- nothing is found, and the section has read the list alone
      refine h.read hopen hnone ?_ (by rw [hstage]; rfl) ?_
      · rw [apply_remove_of_not_mem hmem]
      · refine ⟨.remove cookie, hrequest, .inr ⟨false, s.log.length, ?_, rfl⟩⟩
        rw [apply_remove_of_not_mem hmem]
  | _ => exact h

theorem get (h : Inv s) (c : κ) {address : Option Nat} (hfresh : s.Fresh address) :
    Inv (s.get c address) := by
  unfold State.get
  cases hstage : s.stage c with
  | getting nBufferLength lpBuffer =>
    obtain ⟨hnone, hrequest⟩ := h.effects_eq hstage
    have hopen : s.ended = false := h.running hstage rfl
    obtain ⟨text, htext⟩ := h.current
    dsimp only
    by_cases hempty : s.dllDirectory.length = 0
    · have htext_nil : text = [] := List.eq_nil_of_length_eq_zero (htext.1 ▸ hempty)
      rw [if_pos hempty]
      refine h.read hopen hnone rfl (by rw [hstage]; rfl) ⟨hrequest, [], s.log.length, ?_,
        holdsText_empty⟩
      rw [← htext_nil, ← htext.text_eq]
      rfl
    · rw [if_neg hempty]
      cases address with
      | none =>
        exact h.goto hopen (by rw [hstage]; rfl) ⟨.get nBufferLength lpBuffer, hrequest,
          .inl ⟨hnone, rfl⟩⟩
      | some a =>
        obtain ⟨-, ha⟩ := hfresh a rfl
        refine h.readInto hopen ha hnone rfl (by simp [hstage, Stage.blocks]) ⟨hrequest, text,
          s.log.length, ?_, ?_⟩
        · rw [← htext.text_eq]
          rfl
        · rw [htext.text_eq, htext.1]
          exact holdsText_new (by simp)
  | _ => exact h

theorem snapshot (h : Inv s) (c : κ) : Inv (s.snapshot c) := by
  unfold State.snapshot
  cases hstage : s.stage c with
  | snapshotting =>
    obtain ⟨hnone, hrequest⟩ := h.effects_eq hstage
    exact h.read (h.running hstage rfl) hnone rfl (by rw [hstage]; rfl)
      ⟨.snapshot, hrequest, _, s.log.length, rfl, rfl⟩
  | _ => exact h

/-! ## Calls begin -/

theorem setDllDirectory (h : Inv s) (hopen : s.ended = false) (hcalled : s.stage c = .notCalled)
    (pathName : Option (List WCHAR)) : Inv (s.setDllDirectory c pathName) := by
  have hempty (hrequested : requested pathName = []) :
      Inv ((s.call c (.set pathName)).goto c (.swapping ⟨none, 0⟩)) := by
    refine h.begin hopen hcalled rfl ⟨rfl, pathName, rfl, ?_⟩
    rw [hrequested]
    exact holdsText_empty
  unfold State.setDllDirectory
  cases hpath : pathName.map rtlInitUnicodeString with
  | none => exact hempty (by simp [requested, hpath])
  | some path =>
    have hrequested : requested pathName = path := by simp [requested, hpath]
    cases path with
    | nil => exact hempty hrequested
    | cons first rest =>
      have hlength : (first :: rest).length ≤ 0x7ffe := by
        obtain ⟨string, -, hstring⟩ := Option.map_eq_some_iff.mp hpath
        rw [← hstring]
        exact length_rtlInitUnicodeString string
      -- a counted string is never too long
      dsimp only
      rw [if_neg (by omega)]
      exact h.begin hopen hcalled rfl ⟨rfl, pathName, rfl, hrequested.symm⟩

theorem addDllDirectory (h : Inv s) (hopen : s.ended = false) (hcalled : s.stage c = .notCalled)
    (newDirectory : List WCHAR) : Inv (s.addDllDirectory c newDirectory) := by
  unfold State.addDllDirectory
  by_cases hfull : ldkpIsFullyQualifiedDllDirectory newDirectory = true
  · simp only [hfull, if_true]
    exact h.begin hopen hcalled rfl ⟨rfl, newDirectory, rfl, hfull, rfl⟩
  · rw [Bool.not_eq_true] at hfull
    simp only [hfull, Bool.false_eq_true, if_false]
    exact h.begin hopen hcalled rfl ⟨.add newDirectory, rfl, .inl ⟨rfl, hfull, rfl⟩⟩

theorem removeDllDirectory (h : Inv s) (hopen : s.ended = false)
    (hcalled : s.stage c = .notCalled) (cookie : Nat) : Inv (s.removeDllDirectory c cookie) := by
  unfold State.removeDllDirectory
  by_cases hcookie : cookie = 0
  · simp only [hcookie, if_true]
    exact h.begin hopen hcalled rfl ⟨.remove 0, rfl, .inl ⟨rfl, rfl, rfl⟩⟩
  · simp only [hcookie, if_false]
    exact h.begin hopen hcalled rfl ⟨rfl, rfl⟩

theorem getDllDirectory (h : Inv s) (hopen : s.ended = false) (hcalled : s.stage c = .notCalled)
    (nBufferLength : Nat) (lpBuffer : Option (List WCHAR)) :
    Inv (s.getDllDirectory c nBufferLength lpBuffer) :=
  h.begin hopen hcalled rfl ⟨rfl, rfl⟩

theorem duplicateUserDllDirectories (h : Inv s) (hopen : s.ended = false)
    (hcalled : s.stage c = .notCalled) : Inv (s.duplicateUserDllDirectories c) :=
  h.begin hopen hcalled rfl ⟨rfl, rfl⟩

/-! ## Between the sections -/

theorem duplicate (h : Inv s) (c : κ) {address : Option Nat} (hfresh : s.Fresh address) :
    Inv (s.duplicate c address) := by
  unfold State.duplicate
  cases hstage : s.stage c with
  | duplicating path =>
    obtain ⟨hnone, pathName, hrequest, hpath⟩ := h.effects_eq hstage
    have hopen : s.ended = false := h.running hstage rfl
    cases address with
    | none =>
      exact h.goto hopen (by rw [hstage]; rfl) ⟨.set pathName, hrequest, .inl ⟨hnone, rfl⟩⟩
    | some a =>
      obtain ⟨-, ha⟩ := hfresh a rfl
      refine h.allocate hopen ha _ (by simp [hstage, Stage.blocks])
        ⟨hnone, pathName, hrequest, ?_⟩
      rw [← hpath]
      exact holdsText_new (by simp)
  | _ => exact h

theorem allocateDirectory (h : Inv s) (c : κ) {address : Option Nat} (hfresh : s.Fresh address) :
    Inv (s.allocateDirectory c address) := by
  unfold State.allocateDirectory
  cases hstage : s.stage c with
  | allocating path =>
    obtain ⟨hnone, newDirectory, hrequest, hfull, hpath⟩ := h.effects_eq hstage
    have hopen : s.ended = false := h.running hstage rfl
    cases address with
    | none =>
      exact h.goto hopen (by rw [hstage]; rfl)
        ⟨.add newDirectory, hrequest, .inr (.inl ⟨hnone, .inl rfl⟩)⟩
    | some a =>
      obtain ⟨hne, ha⟩ := hfresh a rfl
      exact h.allocate hopen ha _ (by simp [hstage, Stage.blocks])
        ⟨hnone, newDirectory, hrequest, hfull, hpath, hne, by simp⟩
  | _ => exact h

theorem copyPath (h : Inv s) (c : κ) {address : Option Nat} (hfresh : s.Fresh address) :
    Inv (s.copyPath c address) := by
  unfold State.copyPath
  cases hstage : s.stage c with
  | copying path directory =>
    obtain ⟨hnone, newDirectory, hrequest, hfull, hpath, hne, hdirectory⟩ := h.effects_eq hstage
    have hopen : s.ended = false := h.running hstage rfl
    have hheld : (s.stage c).blocks = [directory] := by rw [hstage]; rfl
    cases path with
    | nil =>
      refine h.goto hopen hheld.symm ⟨hnone, newDirectory, hrequest, hfull, hne, hdirectory, ?_⟩
      rw [← hpath]
      exact holdsText_empty
    | cons first rest =>
      have hlength : (first :: rest).length ≤ 0x7ffe := by
        rw [hpath]
        exact length_rtlInitUnicodeString newDirectory
      dsimp only
      rw [if_neg (by omega)]
      cases address with
      | none =>
        exact h.goto hopen hheld.symm
          ⟨.add newDirectory, hrequest, .inr (.inl ⟨hnone, .inr rfl⟩)⟩
      | some a =>
        obtain ⟨-, ha⟩ := hfresh a rfl
        -- the block of the directory is still there, so that of its path is another one
        have hother : directory ≠ a := by
          rintro rfl
          rw [ha] at hdirectory
          cases hdirectory
        refine h.allocate hopen ha _ (by rw [hheld]; exact List.Perm.refl _)
          ⟨hnone, newDirectory, hrequest, hfull, hne, ?_, ?_⟩
        · rw [Function.update_of_ne hother]
          exact hdirectory
        · rw [← hpath]
          exact holdsText_new (by simp)
  | _ => exact h

theorem deliver (h : Inv s) (c : κ) : Inv (s.deliver c) := by
  unfold State.deliver
  cases hstage : s.stage c with
  | delivering nBufferLength lpBuffer directory =>
    obtain ⟨hrequest, text, place, heffect, htext⟩ := h.effects_eq hstage
    dsimp only
    rw [htext.text_eq]
    exact h.goto (h.running hstage rfl) (by rw [hstage]; rfl)
      ⟨.get nBufferLength lpBuffer, hrequest, .inr ⟨text, place, heffect, rfl⟩⟩
  | _ => exact h

theorem freeNext (h : Inv s) (c : κ) : Inv (s.freeNext c) := by
  unfold State.freeNext
  cases hstage : s.stage c with
  | freeing blocks outcome =>
    have hanswered := h.effects_eq hstage
    have hopen : s.ended = false := h.running hstage rfl
    cases blocks with
    | nil => exact h.goto hopen (by rw [hstage]; rfl) hanswered
    | cons a blocks => exact h.release hopen (by rw [hstage]; rfl) hanswered
  | _ => exact h

/-! ## The end -/

/-- Blocks are freed one after the other. -/
def freeAll (s : State κ) (blocks : List Nat) : State κ := blocks.foldl State.free s

theorem freeAll_heap (s : State κ) (blocks : List Nat) (b : Nat) :
    (freeAll s blocks).heap b = if b ∈ blocks then none else s.heap b := by
  induction blocks generalizing s with
  | nil => simp [freeAll]
  | cons a rest ih =>
    change (freeAll (s.free a) rest).heap b = _
    rw [ih]
    by_cases hb : b = a
    · simp [State.free, hb]
    · simp [State.free, hb]

theorem freeAll_faulted (s : State κ) {blocks : List Nat} (hnodup : blocks.Nodup)
    (hlive : ∀ b ∈ blocks, s.heap b ≠ none) : (freeAll s blocks).faulted = s.faulted := by
  induction blocks generalizing s with
  | nil => rfl
  | cons a rest ih =>
    rw [List.nodup_cons] at hnodup
    change (freeAll (s.free a) rest).faulted = _
    rw [ih _ hnodup.2]
    · simp [State.free, Option.isNone_iff_eq_none, hlive a (by simp)]
    · intro b hb
      have hne : b ≠ a := by
        rintro rfl
        exact hnodup.1 hb
      simp [State.free, hne, hlive b (by simp [hb])]

theorem freeUnicodeString_eq (s : State κ) (u : UnicodeString) :
    s.freeUnicodeString u = freeAll s u.buffer.toList := by
  unfold State.freeUnicodeString
  cases u.buffer <;> rfl

theorem freeList_eq (s : State κ) (list : List Directory) :
    s.freeList list = freeAll s (list.flatMap Directory.blocks) := by
  induction list generalizing s with
  | nil => rfl
  | cons d list ih =>
    rw [State.freeList, ih, freeUnicodeString_eq]
    simp [freeAll, Directory.blocks]

/-- What freeing leaves alone. -/
theorem freeAll_eq (s : State κ) (blocks : List Nat) :
    freeAll s blocks =
      { s with heap := (freeAll s blocks).heap, faulted := (freeAll s blocks).faulted } := by
  induction blocks generalizing s with
  | nil => rfl
  | cons a rest ih => exact ih (s.free a)

theorem freeAll_dllDirectory (s : State κ) (u : UnicodeString) (blocks : List Nat) :
    freeAll { s with dllDirectory := u } blocks =
      { freeAll s blocks with dllDirectory := u } := by
  induction blocks generalizing s with
  | nil => rfl
  | cons a rest ih => exact ih (s.free a)

/-- All blocks of the PEB are freed. -/
theorem uninitializeProcessParameters_eq (s : State κ) :
    s.uninitializeProcessParameters =
      { s with
        heap := (freeAll s s.pebBlocks).heap
        faulted := (freeAll s s.pebBlocks).faulted
        dllDirectory := ⟨none, 0⟩
        dllDirectoryList := []
        ended := true } := by
  unfold State.uninitializeProcessParameters State.pebBlocks
  have hboth : freeAll s (s.dllDirectory.buffer.toList ++
      s.dllDirectoryList.flatMap Directory.blocks) =
      freeAll (freeAll s s.dllDirectory.buffer.toList)
        (s.dllDirectoryList.flatMap Directory.blocks) := by
    simp [freeAll]
  have hlist : (freeAll s s.dllDirectory.buffer.toList).dllDirectoryList =
      s.dllDirectoryList := by
    rw [freeAll_eq]
  rw [hboth, freeUnicodeString_eq]
  dsimp only
  rw [freeList_eq, freeAll_dllDirectory, hlist, ← hboth]
  exact congrArg (fun t : State κ =>
    { t with dllDirectory := ⟨none, 0⟩, dllDirectoryList := [], ended := true })
    (freeAll_eq s _)

theorem uninitializeProcessParameters (h : Inv s) (hidle : ∀ c, (s.stage c).idle = true) :
    Inv s.uninitializeProcessParameters := by
  have hnodup : s.pebBlocks.Nodup := h.owned.once none
  have hlive : ∀ b ∈ s.pebBlocks, s.heap b ≠ none := fun b hb =>
    h.owned.live_of_mem (i := none) hb
  rw [uninitializeProcessParameters_eq]
  refine ⟨?_, ⟨[], holdsText_empty⟩, ?_, ?_, ?_, ?_, ?_⟩
  · have hself : (s.held none).Perm (s.pebBlocks ++ []) := by simp [State.held]
    refine h.owned.release hself ?_ ?_
    · rintro (_ | c) hne
      · exact absurd rfl hne
      · rfl
    · intro b
      simp [freeAll_heap]
  · intro d hd
    cases hd
  · intro c
    have hok := h.stages c
    have hnothing : ∀ b ∈ (s.stage c).blocks, (freeAll s s.pebBlocks).heap b = s.heap b := by
      rw [Stage.blocks_of_idle (hidle c)]
      simp
    exact hok.congr hnothing
  · obtain ⟨d, hexplains, -⟩ := h.explains
    exact ⟨d, hexplains, by simp⟩
  · intro _
    exact ⟨rfl, hidle⟩
  · change (freeAll s s.pebBlocks).faulted = false
    rw [freeAll_faulted s hnodup hlive]
    exact h.sound

/-! ## One step, and a run -/

theorem next {a : Action κ} (h : Inv s) (hen : enabled s a) : Inv (next s a) := by
  cases a with
  | setDllDirectory c pathName => exact h.setDllDirectory hen.1 hen.2.1 pathName
  | duplicate c address => exact h.duplicate c hen
  | swap c => exact h.swap c
  | addDllDirectory c newDirectory => exact h.addDllDirectory hen.1 hen.2.1 newDirectory
  | allocateDirectory c address => exact h.allocateDirectory c hen
  | copyPath c address => exact h.copyPath c hen
  | insert c => exact h.insert c
  | removeDllDirectory c cookie => exact h.removeDllDirectory hen.1 hen.2 cookie
  | remove c => exact h.remove c
  | getDllDirectory c nBufferLength lpBuffer =>
    exact h.getDllDirectory hen.1 hen.2.1 nBufferLength lpBuffer
  | get c address => exact h.get c hen
  | deliver c => exact h.deliver c
  | duplicateUserDllDirectories c => exact h.duplicateUserDllDirectories hen.1 hen.2
  | snapshot c => exact h.snapshot c
  | freeNext c => exact h.freeNext c
  | uninitializeProcessParameters => exact h.uninitializeProcessParameters hen.2

end Inv

theorem inv_of_reachable :
    ∀ s, (dllDirectories κ).Reachable Always s → Inv s := by
  apply System.Reachable.invariant
  · rintro s rfl
    exact inv_initialState
  · exact fun s a h hen _ => h.next hen

/-- How log and effects go on in one step. -/
def State.Goes (s s' : State κ) : Prop := Extends s.log s.effects s'.log s'.effects

theorem State.Goes.same {s s' : State κ} (hlog : s'.log = s.log)
    (heffects : s'.effects = s.effects) : s.Goes s' := by
  unfold State.Goes
  rw [hlog, heffects]
  exact Extends.refl

/-- Only a section of a call that has not taken effect adds to the log. -/
theorem Inv.goes {s : State κ} (h : Inv s) (a : Action κ) :
    s.Goes (Ldk.DllDirectories.next s a) := by
  cases a with
  | swap c =>
    simp only [Ldk.DllDirectories.next, State.swap]
    cases hstage : s.stage c with
    | swapping => exact Extends.commit (h.effects_eq hstage).1 _ _
    | _ => exact .same rfl rfl
  | insert c =>
    simp only [Ldk.DllDirectories.next, State.insert]
    cases hstage : s.stage c with
    | inserting => exact Extends.commit (h.effects_eq hstage).1 _ _
    | _ => exact .same rfl rfl
  | remove c =>
    simp only [Ldk.DllDirectories.next, State.remove]
    cases hstage : s.stage c with
    | removing =>
      dsimp only
      split <;> exact Extends.commit (h.effects_eq hstage).1 _ _
    | _ => exact .same rfl rfl
  | get c address =>
    simp only [Ldk.DllDirectories.next, State.get]
    cases hstage : s.stage c with
    | getting =>
      have hnone : s.effects c = none := (h.effects_eq hstage).1
      dsimp only
      split
      · exact Extends.commit hnone _ _
      · cases address with
        | none => exact .same rfl rfl
        | some a => exact Extends.commit hnone _ _
    | _ => exact .same rfl rfl
  | snapshot c =>
    simp only [Ldk.DllDirectories.next, State.snapshot]
    cases hstage : s.stage c with
    | snapshotting => exact Extends.commit (h.effects_eq hstage).1 _ _
    | _ => exact .same rfl rfl
  | uninitializeProcessParameters =>
    simp only [Ldk.DllDirectories.next, Inv.uninitializeProcessParameters_eq]
    exact .same rfl rfl
  | getDllDirectory | duplicateUserDllDirectories => exact .same rfl rfl
  | setDllDirectory c pathName =>
    simp only [Ldk.DllDirectories.next, State.setDllDirectory]
    split
    · exact .same rfl rfl
    · exact .same rfl rfl
    · split <;> exact .same rfl rfl
  | duplicate c address =>
    simp only [Ldk.DllDirectories.next, State.duplicate]
    split
    · split <;> exact .same rfl rfl
    · exact .same rfl rfl
  | addDllDirectory c newDirectory =>
    simp only [Ldk.DllDirectories.next, State.addDllDirectory]
    split <;> exact .same rfl rfl
  | allocateDirectory c address =>
    simp only [Ldk.DllDirectories.next, State.allocateDirectory]
    split
    · split <;> exact .same rfl rfl
    · exact .same rfl rfl
  | copyPath c address =>
    simp only [Ldk.DllDirectories.next, State.copyPath]
    split
    · split
      · exact .same rfl rfl
      · split
        · exact .same rfl rfl
        · split <;> exact .same rfl rfl
    · exact .same rfl rfl
  | removeDllDirectory c cookie =>
    simp only [Ldk.DllDirectories.next, State.removeDllDirectory]
    split <;> exact .same rfl rfl
  | deliver c =>
    simp only [Ldk.DllDirectories.next, State.deliver]
    split <;> exact .same rfl rfl
  | freeNext c =>
    simp only [Ldk.DllDirectories.next, State.freeNext]
    split <;> exact .same rfl rfl

theorem goes_of_path {s s' : State κ} (hs : (dllDirectories κ).Reachable Always s)
    (hpath : (dllDirectories κ).Path Always s s') : s.Goes s' := by
  induction hpath with
  | refl => exact Extends.refl
  | tail hprev hlast ih =>
    obtain ⟨a, -, -, rfl⟩ := hlast
    exact ih.trans ((inv_of_reachable _ (hs.path hprev)).goes a)

/-! ## The directories, in every run -/

/-- What holds of the directories and of the calls at any moment. -/
structure Linearized (s : State κ) : Prop where
  /-- The operations that have taken effect, one after the other, give the answers that the calls
  got, and the directories of the PEB. -/
  order : ∃ d, Explains directories s.log d s.effects ∧ (s.ended = false → d = s.abstract)
  /-- A call that is over returns the answer of its operation. -/
  answered : ∀ c outcome, s.stage c = .returned outcome →
    ∃ request, s.request c = some request ∧ request.Answered (s.effects c) outcome
  /-- Each block is the PEB's or that of one call, and a call that is over has none. -/
  owned : Owned (fun b => s.heap b ≠ none) s.held
  idle : ∀ c, (s.stage c).idle = true → s.held (some c) = []
  /-- Nothing is left behind. -/
  finished : s.ended = true → ∀ b, s.heap b = none
  /-- No block is used or freed that is not there. -/
  sound : s.faulted = false

/-- In every run. -/
theorem linearized_of_reachable {s : State κ} (hs : (dllDirectories κ).Reachable Always s) :
    Linearized s := by
  have h := inv_of_reachable s hs
  refine ⟨h.explains, ?_, h.owned, fun c => Stage.blocks_of_idle, ?_, h.sound⟩
  · intro c outcome hstage
    exact h.effects_eq hstage
  · intro hended b
    obtain ⟨hpeb, hidle⟩ := h.ended hended
    by_contra hlive
    obtain ⟨_ | c, hb⟩ := (h.owned.live_iff b).mp hlive
    · change b ∈ s.pebBlocks at hb
      rw [hpeb] at hb
      cases hb
    · change b ∈ (s.stage c).blocks at hb
      rw [Stage.blocks_of_idle (hidle c)] at hb
      cases hb

/-- `C:\a` -/
def firstPath : List WCHAR := [0x43, 0x3a, 0x5c, 0x61]

/-- `D:\b` -/
def secondPath : List WCHAR := [0x44, 0x3a, 0x5c, 0x62]

/-- A directory is added. -/
def addRun : List (Action (Fin 3)) :=
  [.addDllDirectory 0 firstPath, .allocateDirectory 0 (some 16), .copyPath 0 (some 32), .insert 0]

/-- It is removed while another one is added, which gets the same cookie. -/
def reuseRun : List (Action (Fin 3)) :=
  [.addDllDirectory 2 secondPath, .removeDllDirectory 1 16, .remove 1, .freeNext 1, .freeNext 1,
    .allocateDirectory 2 (some 16), .freeNext 1, .copyPath 2 (some 32), .insert 2]

end Ldk.DllDirectories
