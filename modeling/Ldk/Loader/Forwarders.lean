import Ldk.Lib.Chain
import Ldk.Loader.Exports

/-!
# Chains of forwarders

`LdkGetProcedureAddress` follows a forwarded export by loading the module it names and calling
itself. Among loaded modules it returns, on a stack no deeper than there are exports, exactly when
the forwarders do not lead to an export twice (`lookup_returns_iff`). Nothing records the exports
that are being resolved: a forwarder that leads back to itself is followed for ever
(`self_forwarder_does_not_return`).
-/

namespace Ldk.Loader

open Command

/-! ## The graph of forwarders -/

/-- What a call of `LdkGetProcedureAddress` asks for. -/
structure Target where
  handle : Handle
  procedureName : Option Name
  procedureNumber : Nat
  deriving DecidableEq, Repr

/-- The text of a forwarder before its first dot. -/
def forwarderModule (text : Name) : Name := text.takeWhile (· ≠ '.')

/-- The text of a forwarder after its first dot. -/
def forwarderProcedure (text : Name) : Name := (text.dropWhile (· ≠ '.')).drop 1

/-- The place in `AddressOfFunctions` that a lookup comes to. -/
def Image.exportIndex (image : Image) (procedureName : Option Name) (procedureNumber : Nat) :
    Option Nat :=
  match image.exports with
  | none => none
  | some directory =>
    if procedureNumber ≠ 0 then
      let exportOrdinal := procedureNumber % 2 ^ 16
      if exportOrdinal < directory.base ∨
          (directory.base + directory.functions.length) % 2 ^ 32 ≤ exportOrdinal then
        none
      else some (exportOrdinal - directory.base)
    else
      match procedureName with
      | none => none
      | some name =>
        if name.length > 62 then none
        else
          let ordinal := nameToOrdinal name directory.names.length directory.names
          if ordinal ≥ directory.functions.length then none else some ordinal

/-- The exports of an image, as pairs of a module and a place. -/
def Image.exportsAs (handle : Handle) (image : Image) : List (Handle × Nat) :=
  (List.range (image.exports.elim 0 fun directory => directory.functions.length)).map (handle, ·)

/-- The module of the name among those that are loaded. -/
def State.findLibrary (s : State) (name : Name) : Option Module :=
  s.getModuleByNameEx name false <|> s.getModuleByNameEx (name ++ ['.', 'd', 'l', 'l']) false

namespace Env

variable (env : Env) (s : State)

/-- The image of a handle. -/
def imageOf : Handle → Option Image
  | .imageBase => some env.image
  | .module id => (s.get id).bind (·.image)

/-- What `LdkGetProcedureAddress` finds before it follows a forwarder. -/
def lookupExport (t : Target) : Except NtStatus Export :=
  match t.handle with
  | .imageBase => env.image.findExport t.procedureName t.procedureNumber
  | .module id =>
    match s.get id with
    | none => .error .invalidParameter
    | some m =>
      match m.image with
      | some image => image.findExport t.procedureName t.procedureNumber
      | none =>
        match t.procedureName with
        | none => .error .procedureNotFound
        | some name =>
          match (m.functionTable.getD []).find? (stricmp ·.1 name) with
          | none => .error .procedureNotFound
          | some function => .ok (.address function.2)

/-- The loaded module that `LoadLibraryW` finds. -/
def library (name : Name) : Option Handle :=
  if stricmp name env.imagePathName then some .imageBase
  else
    match env.computeDllPath name with
    | .error _ => none
    | .ok _ => (s.findLibrary name).map (.module ·.id)

/-- What a forwarder leads to. -/
def forwardTarget (text : Name) : Option Target :=
  if '.' ∉ text then none
  else
    match env.library s (forwarderModule text) with
    | none => none
    | some handle =>
      match env.forwardProcedure (forwarderProcedure text) with
      | .error _ => none
      | .ok (procedureName, procedureNumber) => some ⟨handle, procedureName, procedureNumber⟩

/-- The forwarders as a graph. -/
def forwards (t : Target) : Option Target :=
  match env.lookupExport s t with
  | .ok (.forwarder text) => env.forwardTarget s text
  | _ => none

/-- The pair of a module and an export that a lookup comes to. -/
def exportOf (t : Target) : Option (Handle × Nat) :=
  (env.imageOf s t.handle).bind fun image =>
    (image.exportIndex t.procedureName t.procedureNumber).map (t.handle, ·)

/-- All pairs of a loaded module and an export. -/
def exports : Finset (Handle × Nat) :=
  (env.image.exportsAs .imageBase ++ s.modules.flatMap fun m =>
    m.image.elim [] (Image.exportsAs (.module m.id))).toFinset

/-! ## Graphs among loaded modules -/

/-- An export of a loaded module is forwarded. -/
def Forwarded (text : Name) : Prop :=
  ∃ image directory, (image = env.image ∨ ∃ m ∈ s.modules, m.image = some image) ∧
    image.exports = some directory ∧ .forwarder text ∈ directory.functions

/-- There is no file to load for the name. -/
def Missing (name : Name) : Prop :=
  ∀ dllPath, env.computeDllPath name = .ok dllPath →
    ∀ fullDllName, env.searchPath dllPath name = some fullDllName →
      ∀ fileName, env.ntPathName fullDllName = some fileName →
        ∀ tick, ∃ status, env.readFile tick fileName = .error status

/-- All requests to the system are granted. -/
def Grants : Prop := ∀ tick, env.outcome tick = true

/-- The modules that forwarders name are loaded, and found there, or cannot be loaded. -/
def Settled : Prop :=
  ∀ text, env.Forwarded s text → env.Missing (forwarderModule text) ∨
    ((env.library s (forwarderModule text)).isSome ∧ env.Grants)

/-- The same system, with other outcomes of its requests. -/
def withOutcome (outcome : Nat → Bool) : Env := { env with outcome := outcome }

end Env

/-! ## What a lookup leaves alone -/

/-- The record without its load count. -/
def Module.fixed (m : Module) : Module := { m with loadCount := 0 }

/-- The module list is the same but for load counts. -/
def SameModules (s s' : State) : Prop := s'.modules.map Module.fixed = s.modules.map Module.fixed

theorem SameModules.refl (s : State) : SameModules s s := rfl

theorem SameModules.trans {s s' s'' : State} (h : SameModules s s') (h' : SameModules s' s'') :
    SameModules s s'' := Eq.trans h' h

theorem SameModules.of_modules_eq {s s' : State} (h : s'.modules = s.modules) : SameModules s s' :=
  congrArg (List.map Module.fixed) h

theorem Module.fixed_reference (m : Module) : (m.reference false true).fixed = m.fixed := by
  simp only [Module.reference, Bool.false_eq_true, if_false]
  split_ifs <;> rfl

theorem sameModules_reference (s : State) (id : Nat) :
    SameModules s (s.referenceModuleLocked id false true) := by
  change (List.map _ (s.modules.map fun m => if m.id = id then m.reference false true else m)) = _
  rw [List.map_map]
  apply List.map_congr_left
  intro m _
  change Module.fixed (if m.id = id then m.reference false true else m) = m.fixed
  split_ifs
  · exact m.fixed_reference
  · rfl

theorem State.get_map_fixed (s : State) (id : Nat) :
    (s.get id).map Module.fixed = (s.modules.map Module.fixed).find? (·.id == id) := by
  rw [List.find?_map]
  rfl

theorem State.getModuleByNameEx_map_fixed (s : State) (name : Name) (resourceOnly : Bool) :
    (s.getModuleByNameEx name resourceOnly).map Module.fixed =
      (s.modules.map Module.fixed).find? fun m =>
        m.resourceOnly == resourceOnly && stricmp m.moduleName name := by
  rw [List.find?_map]
  rfl

namespace SameModules

variable {s s' : State}

theorem get (h : SameModules s s') (id : Nat) :
    (s'.get id).map Module.fixed = (s.get id).map Module.fixed := by
  rw [State.get_map_fixed, State.get_map_fixed, h]

theorem findLibrary (h : SameModules s s') (name : Name) :
    (s'.findLibrary name).map Module.id = (s.findLibrary name).map Module.id := by
  have hfixed : (s'.findLibrary name).map Module.fixed = (s.findLibrary name).map Module.fixed := by
    unfold State.findLibrary
    simp only [Option.orElse_eq_orElse, Option.orElse_eq_or, Option.map_or,
      State.getModuleByNameEx_map_fixed]
    rw [h]
  have hid := congrArg (Option.map Module.id) hfixed
  rw [Option.map_map, Option.map_map] at hid
  exact hid

theorem library (h : SameModules s s') (env : Env) (name : Name) :
    env.library s' name = env.library s name := by
  have hid := congrArg (Option.map Handle.module) (h.findLibrary name)
  rw [Option.map_map, Option.map_map] at hid
  unfold Env.library
  split_ifs
  · rfl
  · cases env.computeDllPath name with
    | error status => rfl
    | ok dllPath => exact hid

theorem lookupExport (h : SameModules s s') (env : Env) (t : Target) :
    env.lookupExport s' t = env.lookupExport s t := by
  obtain ⟨handle, procedureName, procedureNumber⟩ := t
  cases handle with
  | imageBase => rfl
  | module id =>
    have hget := h.get id
    unfold Env.lookupExport
    dsimp only
    cases hs : s.get id with
    | none =>
      rw [hs, Option.map_none, Option.map_eq_none_iff] at hget
      rw [hget]
    | some m =>
      rw [hs] at hget
      obtain ⟨m', hm', heq⟩ := Option.map_eq_some_iff.1 hget
      have himage : m'.fixed.image = m.fixed.image := congrArg Module.image heq
      have htable : m'.fixed.functionTable = m.fixed.functionTable :=
        congrArg Module.functionTable heq
      change m'.image = m.image at himage
      change m'.functionTable = m.functionTable at htable
      rw [hm']
      dsimp only
      rw [himage, htable]

theorem forwards (h : SameModules s s') (env : Env) (t : Target) :
    env.forwards s' t = env.forwards s t := by
  unfold Env.forwards Env.forwardTarget
  rw [h.lookupExport env t]
  simp only [h.library]

end SameModules

/-! ## Exports as labels -/

namespace Image

variable {image : Image} {procedureName : Option Name} {procedureNumber i : Nat}

/-- The lookup finds what stands at the place. -/
theorem findExport_of_exportIndex (h : image.exportIndex procedureName procedureNumber = some i) :
    ∃ directory missing, image.exports = some directory ∧
      image.findExport procedureName procedureNumber = directory.functionAt i missing := by
  unfold exportIndex at h
  unfold findExport
  cases hexports : image.exports with
  | none =>
    rw [hexports] at h
    cases h
  | some directory =>
    rw [hexports] at h
    dsimp only at h ⊢
    by_cases hnumber : procedureNumber ≠ 0
    · rw [if_pos hnumber] at h ⊢
      split_ifs at h ⊢
      obtain rfl := Option.some.inj h
      exact ⟨directory, .ordinalNotFound, rfl, rfl⟩
    · rw [if_neg hnumber] at h ⊢
      cases procedureName with
      | none => cases h
      | some name =>
        dsimp only at h ⊢
        split_ifs at h ⊢
        obtain rfl := Option.some.inj h
        exact ⟨directory, .procedureNotFound, rfl, rfl⟩

/-- What a lookup finds stands at a place. -/
theorem exists_exportIndex {found : Export}
    (h : image.findExport procedureName procedureNumber = .ok found) :
    ∃ i, image.exportIndex procedureName procedureNumber = some i := by
  unfold findExport at h
  unfold exportIndex
  cases hexports : image.exports with
  | none =>
    rw [hexports] at h
    cases h
  | some directory =>
    rw [hexports] at h
    dsimp only at h ⊢
    by_cases hnumber : procedureNumber ≠ 0
    · rw [if_pos hnumber] at h ⊢
      split_ifs at h ⊢
      exact ⟨_, rfl⟩
    · rw [if_neg hnumber] at h ⊢
      cases procedureName with
      | none => cases h
      | some name =>
        dsimp only at h ⊢
        split_ifs at h ⊢
        exact ⟨_, rfl⟩

theorem mem_exportsAs {directory : ExportDirectory} {handle : Handle}
    (hexports : image.exports = some directory) (hlt : i < directory.functions.length) :
    (handle, i) ∈ image.exportsAs handle := by
  unfold exportsAs
  rw [hexports]
  exact List.mem_map.2 ⟨i, List.mem_range.2 hlt, rfl⟩

end Image

namespace Env

variable {env : Env} {s : State}

theorem lookupExport_of_image {t : Target} {image : Image}
    (h : env.imageOf s t.handle = some image) :
    env.lookupExport s t = image.findExport t.procedureName t.procedureNumber := by
  obtain ⟨handle, procedureName, procedureNumber⟩ := t
  cases handle with
  | imageBase =>
    obtain rfl := Option.some.inj h
    rfl
  | module id =>
    obtain ⟨m, hget, himage⟩ := Option.bind_eq_some_iff.1 h
    unfold lookupExport
    dsimp only at himage ⊢
    rw [hget]
    dsimp only
    rw [himage]

/-- Only images forward. -/
theorem image_of_forwarder {t : Target} {text : Name}
    (h : env.lookupExport s t = .ok (.forwarder text)) :
    ∃ image, env.imageOf s t.handle = some image ∧
      image.findExport t.procedureName t.procedureNumber = .ok (.forwarder text) := by
  cases himage : env.imageOf s t.handle with
  | some image => exact ⟨image, rfl, (lookupExport_of_image himage).symm.trans h⟩
  | none =>
    obtain ⟨handle, procedureName, procedureNumber⟩ := t
    cases handle with
    | imageBase => cases himage
    | module id =>
      unfold lookupExport at h
      dsimp only at h
      change (s.get id).bind (·.image) = none at himage
      cases hget : s.get id with
      | none =>
        rw [hget] at h
        cases h
      | some m =>
        rw [hget] at h himage
        change m.image = none at himage
        dsimp only at h
        rw [himage] at h
        cases procedureName with
        | none => cases h
        | some name =>
          dsimp only at h
          split at h <;> cases h

/-- The exports of the image a handle stands for are among all exports. -/
theorem exportsAs_subset {handle : Handle} {image : Image}
    (h : env.imageOf s handle = some image) {p : Handle × Nat} (hp : p ∈ image.exportsAs handle) :
    p ∈ env.exports s := by
  unfold exports
  rw [List.mem_toFinset, List.mem_append]
  cases handle with
  | imageBase =>
    obtain rfl := Option.some.inj h
    exact .inl hp
  | module id =>
    obtain ⟨m, hget, himage⟩ := Option.bind_eq_some_iff.1 h
    obtain ⟨hmem, rfl⟩ := State.get_some hget
    refine .inr (List.mem_flatMap.2 ⟨m, hmem, ?_⟩)
    rw [himage]
    exact hp

/-- An export that forwards is one of the exports. -/
theorem exportOf_of_forwarder {t : Target} {text : Name}
    (h : env.lookupExport s t = .ok (.forwarder text)) :
    ∃ p ∈ env.exports s, env.exportOf s t = some p := by
  obtain ⟨image, himage, hfound⟩ := image_of_forwarder h
  obtain ⟨i, hindex⟩ := Image.exists_exportIndex hfound
  obtain ⟨directory, missing, hexports, hfind⟩ := Image.findExport_of_exportIndex hindex
  have hat := (Image.functionAt_mem (hfind.symm.trans hfound)).1
  have hlt := (List.getElem?_eq_some_iff.1 hat).1
  refine ⟨(t.handle, i), exportsAs_subset himage (Image.mem_exportsAs hexports hlt), ?_⟩
  unfold exportOf
  rw [himage, Option.bind_some, hindex]
  rfl

/-- The text of a forwarder is that of the export. -/
theorem Forwarded.of_lookup {t : Target} {text : Name}
    (h : env.lookupExport s t = .ok (.forwarder text)) : env.Forwarded s text := by
  obtain ⟨image, himage, hfound⟩ := image_of_forwarder h
  obtain ⟨i, hindex⟩ := Image.exists_exportIndex hfound
  obtain ⟨directory, missing, hexports, hfind⟩ := Image.findExport_of_exportIndex hindex
  refine ⟨image, directory, ?_, hexports, Image.findExport_mem hexports hfound⟩
  cases hhandle : t.handle with
  | imageBase =>
    rw [hhandle] at himage
    exact .inl (Option.some.inj himage).symm
  | module id =>
    rw [hhandle] at himage
    obtain ⟨m, hget, hm⟩ := Option.bind_eq_some_iff.1 himage
    exact .inr ⟨m, (State.get_some hget).1, hm⟩

/-- A function table entry that forwards, found at the same place, has the same text. -/
theorem forwarder_congr {t t' : Target} {p : Handle × Nat} (ht : env.exportOf s t = some p)
    (ht' : env.exportOf s t' = some p) {text : Name}
    (h : env.lookupExport s t = .ok (.forwarder text)) :
    env.lookupExport s t' = .ok (.forwarder text) := by
  obtain ⟨image, himage, hpair⟩ := Option.bind_eq_some_iff.1 ht
  obtain ⟨i, hindex, rfl⟩ := Option.map_eq_some_iff.1 hpair
  obtain ⟨image', himage', hpair'⟩ := Option.bind_eq_some_iff.1 ht'
  obtain ⟨i', hindex', hsame⟩ := Option.map_eq_some_iff.1 hpair'
  obtain ⟨hhandle, rfl⟩ := Prod.mk.inj hsame
  rw [hhandle, himage] at himage'
  obtain rfl := Option.some.inj himage'
  obtain ⟨directory, missing, hexports, hfind⟩ := Image.findExport_of_exportIndex hindex
  obtain ⟨directory', missing', hexports', hfind'⟩ := Image.findExport_of_exportIndex hindex'
  obtain rfl := Option.some.inj (hexports.symm.trans hexports')
  rw [lookupExport_of_image himage, hfind] at h
  rw [lookupExport_of_image (hhandle ▸ himage), hfind']
  exact Image.functionAt_of_getElem (Image.functionAt_mem h).1 nofun

/-- An export tells where its forwarder leads. -/
theorem labelled (env : Env) (s : State) :
    Chain.Labelled (env.forwards s) (env.exportOf s) (env.exports s) where
  exists_label t t' h := by
    unfold forwards at h
    split at h
    case h_1 text hlookup => exact exportOf_of_forwarder hlookup
    case h_2 => cases h
  step_congr t t' p ht ht' := by
    by_cases hforwarder : ∃ text, env.lookupExport s t = .ok (.forwarder text)
    · obtain ⟨text, htext⟩ := hforwarder
      unfold forwards
      rw [htext, forwarder_congr ht ht' htext]
    · have hnone : ∀ t₀, (∀ text, env.lookupExport s t₀ ≠ .ok (.forwarder text)) →
          env.forwards s t₀ = none := by
        intro t₀ hno
        unfold forwards
        split
        case h_1 text htext => exact absurd htext (hno text)
        case h_2 => rfl
      rw [hnone t fun text htext => hforwarder ⟨text, htext⟩,
        hnone t' fun text htext => hforwarder ⟨text, forwarder_congr ht' ht htext⟩]

end Env

/-! ## LoadLibraryW of a loaded module -/

namespace Env

variable {env : Env} {s : State}

theorem request_returns (env : Env) (s : State) :
    Returns env.request s fun r s' => s'.modules = s.modules ∧ r = .ok (env.outcome s.tick) :=
  ⟨_, _, rfl, rfl, rfl⟩

theorem require_returns (env : Env) (status : NtStatus) (s : State) :
    Returns (env.require status) s fun r s' => s'.modules = s.modules ∧
      (r = .ok () ∨ r = .error status ∧ env.outcome s.tick = false) := by
  refine (env.request_returns s).bind ?_ ?_
  · rintro granted s' ⟨hmodules, heq⟩
    obtain rfl := Except.ok.inj heq
    split
    case isTrue => exact .pure ⟨hmodules, .inl rfl⟩
    case isFalse h => exact .fail ⟨hmodules, .inr ⟨rfl, Bool.eq_false_iff.2 h⟩⟩
  · rintro status s' ⟨-, heq⟩
    cases heq

/-- Go on when the request is granted, or end with a failure. -/
theorem require_bind {α : Type} {status : NtStatus} {c : Unit → Load α}
    {Q : Except NtStatus α → State → Prop}
    (hok : ∀ s', s'.modules = s.modules → Returns (c ()) s' Q)
    (herror : ∀ s', s'.modules = s.modules → env.outcome s.tick = false → Q (.error status) s') :
    Returns (env.require status >>= c) s Q := by
  refine (env.require_returns status s).bind ?_ ?_
  · rintro ⟨⟩ s' ⟨hmodules, -⟩
    exact hok s' hmodules
  · rintro status' s' ⟨hmodules, heq | ⟨heq, hdenied⟩⟩
    · cases heq
    · obtain rfl := Except.error.inj heq
      exact herror s' hmodules hdenied

/-- The command fails and leaves the module list alone. -/
def Fails {α : Type} (s : State) (r : Except NtStatus α) (s' : State) : Prop :=
  s'.modules = s.modules ∧ ∃ status, r = .error status

/-- `findFile` finds the file that the search path leads to, or fails. -/
theorem findFile_returns (env : Env) (dllPath dllName : Name) (s : State) :
    Returns (env.findFile (some dllPath) dllName) s fun r s' => s'.modules = s.modules ∧
      ∀ fileName, r = .ok fileName → ∃ fullDllName,
        env.searchPath dllPath dllName = some fullDllName ∧
          env.ntPathName fullDllName = some fileName := by
  unfold findFile
  apply require_bind
  case herror => exact fun s' hmodules _ => ⟨hmodules, nofun⟩
  intro s₁ h₁
  rw [Option.getD_some]
  cases hsearch : env.searchPath dllPath dllName with
  | none => exact .fail ⟨h₁, nofun⟩
  | some fullDllName =>
    dsimp only
    have hlast : ∀ s₂ : State, s₂.modules = s.modules →
        Returns (env.require .unsuccessful >>= fun _ => match env.ntPathName fullDllName with
          | none => Command.fail .unsuccessful
          | some ntFileName => pure ntFileName) s₂ fun r s' => s'.modules = s.modules ∧
            ∀ fileName, r = .ok fileName → ∃ fullDllName',
              some fullDllName = some fullDllName' ∧
                env.ntPathName fullDllName' = some fileName := by
      intro s₂ h₂
      apply require_bind
      case herror => exact fun s' hmodules _ => ⟨hmodules.trans h₂, nofun⟩
      intro s₃ h₃
      cases hpath : env.ntPathName fullDllName with
      | none => exact .fail ⟨h₃.trans h₂, nofun⟩
      | some fileName =>
        refine .pure ⟨h₃.trans h₂, fun f hf => ?_⟩
        obtain rfl := Except.ok.inj hf
        exact ⟨fullDllName, rfl, hpath⟩
    split
    case isTrue =>
      apply require_bind
      · exact fun s₂ h₂ => hlast s₂ (h₂.trans h₁)
      · exact fun s' hmodules _ => ⟨hmodules.trans h₁, nofun⟩
    case isFalse => exact hlast s₁ h₁

/-- Without the file nothing is loaded, and no import is looked at. -/
theorem collect_of_missing {fileName : Name} {status : NtStatus} (calls : Calls)
    (dllPath : Option Name) (resolveImports : Bool)
    (h : env.readFile s.tick fileName = .error status) :
    collect (env.ldkpLoadDll calls fileName dllPath resolveImports) s =
      some (.ok (.error status, []), { s with tick := s.tick + 1 }) := by
  have hmap : env.mapImage fileName s = some (.error status, { s with tick := s.tick + 1 }) := by
    change Command.bind (env.openFile fileName) _ s = _
    unfold Command.bind openFile
    rw [h]
  have hload : env.ldkpLoadDll calls fileName dllPath resolveImports ⟨s, []⟩ =
      some (.error status, ⟨{ s with tick := s.tick + 1 }, []⟩) := by
    change Command.bind (inLoader (env.mapImage fileName)) _ _ = _
    unfold Command.bind inLoader Command.zoom
    rw [hmap]
    rfl
  unfold collect
  rw [hload]
  rfl

theorem loadNewModule_of_missing {dllPath name : Name} (calls : Calls) (resourceOnly : Bool)
    (hmissing : ∀ fullDllName, env.searchPath dllPath name = some fullDllName →
      ∀ fileName, env.ntPathName fullDllName = some fileName →
        ∀ tick, ∃ status, env.readFile tick fileName = .error status) :
    Returns (env.loadNewModule calls (some dllPath) true resourceOnly name) s (Fails s) := by
  refine (env.findFile_returns dllPath name s).bind ?_ ?_
  · rintro fileName s₁ ⟨h₁, hfile⟩
    obtain ⟨fullDllName, hsearch, hpath⟩ := hfile fileName rfl
    obtain ⟨status, hread⟩ := hmissing fullDllName hsearch fileName hpath s₁.tick
    have hcollect := collect_of_missing calls (some dllPath) true hread
    refine Returns.bind ⟨_, _, hcollect, ⟨rfl, rfl⟩⟩
      (Q := fun r s' => r = .ok (.error status, []) ∧ s'.modules = s₁.modules) ?_ ?_
    · rintro _ s₂ ⟨heq, h₂⟩
      obtain rfl := Except.ok.inj heq
      exact .fail ⟨h₂.trans h₁, status, rfl⟩
    · rintro status' s₂ ⟨heq, -⟩
      cases heq
  · rintro status s₁ ⟨h₁, -⟩
    exact ⟨h₁, status, rfl⟩

/-- A load that finds its module on the list, or fails. -/
def LoadsFrom (env : Env) (s : State) (name : Name) (r : Except NtStatus Handle) (s' : State) :
    Prop :=
  SameModules s s' ∧ (∀ handle, r = .ok handle →
      (s.findLibrary name).map (.module ·.id) = some handle) ∧
    (env.Grants → ∀ status, r = .error status → s.findLibrary name = none)

/-- A load of a module that is on the list, and looked for there, or that is missing. -/
theorem loadDll_returns {dllPath name : Name} (calls : Calls)
    (h : (∀ fullDllName, env.searchPath dllPath name = some fullDllName →
      ∀ fileName, env.ntPathName fullDllName = some fileName →
        ∀ tick, ∃ status, env.readFile tick fileName = .error status) ∨
      (s.findLibrary name).isSome ∧ env.Grants) :
    Returns (env.loadDll calls (some dllPath) (some ⟨false, false⟩) name) s
      (env.LoadsFrom s name) := by
  unfold loadDll referenceModuleByName
  -- without memory for the name, or without the module, the file is looked for
  have hfile : ∀ s₁ : State, s₁.modules = s.modules →
      ((s.findLibrary name).isSome → ¬ env.Grants) →
      Returns (env.loadNewModule calls (some dllPath) true false name) s₁
        (env.LoadsFrom s name) := by
    intro s₁ h₁ hno
    have hmissing := h.resolve_right fun hfound => hno hfound.1 hfound.2
    refine (loadNewModule_of_missing calls false hmissing).mono ?_
    rintro r s₂ ⟨h₂, status, rfl⟩
    refine ⟨.of_modules_eq (h₂.trans h₁), nofun, fun hgrants _ _ => ?_⟩
    by_contra hsome
    exact hno (Option.isSome_iff_ne_none.2 hsome) hgrants
  refine Returns.bind (Q := fun r s' => SameModules s s' ∧
      ((r = .ok none ∧ s'.modules = s.modules ∧ ((s.findLibrary name).isSome → ¬ env.Grants)) ∨
        ∃ m, s.findLibrary name = some m ∧ r = .ok (some (.module m.id)))) ?_ ?_ ?_
  · refine (env.request_returns s).bind ?_ ?_
    · rintro granted s₁ ⟨h₁, heq⟩
      obtain rfl := Except.ok.inj heq
      split
      case isTrue hdenied =>
        rw [Bool.not_eq_true'] at hdenied
        refine .pure ⟨.of_modules_eq h₁, .inl ⟨rfl, h₁, fun _ hgrants => ?_⟩⟩
        rw [hgrants s.tick] at hdenied
        cases hdenied
      case isFalse =>
        apply Returns.read_bind
        have hfind : s₁.findLibrary name = s.findLibrary name := by
          unfold State.findLibrary State.getModuleByNameEx
          rw [h₁]
        change Returns (match s₁.findLibrary name with | none => _ | some m => _) s₁ _
        rw [hfind]
        cases hlib : s.findLibrary name with
        | none =>
          exact .pure ⟨.of_modules_eq h₁, .inl ⟨rfl, h₁, fun hsome => by cases hsome⟩⟩
        | some m =>
          apply Returns.change_bind
          exact .pure ⟨(SameModules.of_modules_eq h₁).trans (sameModules_reference s₁ m.id),
            .inr ⟨m, rfl, rfl⟩⟩
    · rintro status s₁ ⟨-, heq⟩
      cases heq
  · rintro r s₁ ⟨hsame, ⟨heq, h₁, hno⟩ | ⟨m, hlib, heq⟩⟩
    · obtain rfl := Except.ok.inj heq
      exact hfile s₁ h₁ hno
    · obtain rfl := Except.ok.inj heq
      refine .pure ⟨hsame, fun handle hhandle => ?_, fun _ status hstatus => nomatch hstatus⟩
      obtain rfl := Except.ok.inj hhandle
      rw [hlib, Option.map_some]
  · rintro status s₁ ⟨-, ⟨heq, -⟩ | ⟨m, -, heq⟩⟩
    · cases heq
    · cases heq

/-- `LoadLibraryW` comes by the loaded module of the name, or by none. -/
theorem loadLibraryW_returns (depth : Nat) {name : Name}
    (h : env.Missing name ∨ (env.library s name).isSome ∧ env.Grants) :
    Returns (env.loadLibraryW (env.calls (depth + 1)) name) s fun r s' =>
      SameModules s s' ∧ ∃ library, r = .ok library ∧
        (library = none ∨ library = env.library s name) ∧
        (env.Grants → library = env.library s name) := by
  unfold loadLibraryW
  by_cases hself : stricmp name env.imagePathName = true
  · have hlibrary : env.library s name = some .imageBase := if_pos hself
    rw [if_pos hself, hlibrary]
    exact .pure ⟨.refl s, _, rfl, .inr rfl, fun _ => rfl⟩
  · rw [if_neg hself]
    unfold library at h ⊢
    rw [if_neg hself] at h ⊢
    unfold Missing at h
    cases hpath : env.computeDllPath name with
    | error status => exact .pure ⟨.refl s, _, rfl, .inl rfl, fun _ => rfl⟩
    | ok dllPath =>
      rw [hpath] at h
      dsimp only at h ⊢
      refine (loadDll_returns (env.calls depth) (h.imp (fun hmissing => hmissing dllPath rfl)
        (fun hfound => ⟨?_, hfound.2⟩))).attempt_bind ?_
      · rw [← Option.isSome_map]
        exact hfound.1
      · rintro (status | handle) s' ⟨hsame, hok, herror⟩
        · refine .pure ⟨hsame, none, rfl, .inl rfl, fun hgrants => ?_⟩
          rw [herror hgrants status rfl]
          rfl
        · have hhandle := hok handle rfl
          exact .pure ⟨hsame, some handle, rfl, .inr hhandle.symm, fun _ => hhandle.symm⟩

/-! ## Following forwarders -/

/-- `LdkGetProcedureAddress` ends with what it has found, or follows the forwarder. -/
theorem getProcedureAddress_apply (env : Env) (calls : Calls) (t : Target) (s : State) :
    env.getProcedureAddress calls t.handle t.procedureName t.procedureNumber s =
      (match env.lookupExport s t with
        | .error status => Command.fail status
        | .ok .null => Command.fail .procedureNotFound
        | .ok (.address address) => pure address
        | .ok (.forwarder text) => env.forward calls text : Load Nat) s := by
  obtain ⟨handle, procedureName, procedureNumber⟩ := t
  cases handle with
  | imageBase => rfl
  | module id =>
    unfold getProcedureAddress lookupExport
    change Command.bind (Command.read (State.get · id)) _ s = _
    simp only [Command.bind, Command.read]
    cases s.get id with
    | none => rfl
    | some m =>
      dsimp only
      cases m.image with
      | some image => rfl
      | none =>
        dsimp only
        cases procedureName with
        | none => rfl
        | some name =>
          dsimp only
          cases (m.functionTable.getD []).find? (stricmp ·.1 name) <;> rfl

/-- The call that a forwarder ends in. -/
def CallsOn (calls : Calls) (t : Target) : Load Nat :=
  calls.getProcedureAddress t.handle t.procedureName t.procedureNumber

/-- A forwarder leads to an address only through what it leads to. -/
theorem forward_returns {depth : Nat} {text : Name} {P : Nat → Prop}
    (h : env.Missing (forwarderModule text) ∨
      (env.library s (forwarderModule text)).isSome ∧ env.Grants)
    (hnext : ∀ t, env.forwardTarget s text = some t → ∀ s', SameModules s s' →
      Returns (CallsOn (env.calls (depth + 1)) t) s' fun r _ => ∀ a, r = .ok a → P a) :
    Returns (env.forward (env.calls (depth + 1)) text) s fun r _ => ∀ a, r = .ok a → P a := by
  unfold forward
  by_cases hdot : '.' ∉ text
  · rw [if_pos hdot]
    exact .fail nofun
  · rw [if_neg hdot]
    apply require_bind
    case herror => exact fun _ _ _ => nofun
    intro s₁ h₁
    have hsame₁ := SameModules.of_modules_eq h₁
    have h' := h
    rw [← hsame₁.library env (forwarderModule text)] at h'
    refine (loadLibraryW_returns depth h').bind ?_ ?_
    · rintro library s₂ ⟨hsame₂, _, heq, hlibrary, -⟩
      obtain rfl := Except.ok.inj heq
      cases library with
      | none => exact .fail nofun
      | some module =>
        have hmodule := (hlibrary.resolve_left nofun).symm
        rw [hsame₁.library env] at hmodule
        change Returns (match env.forwardProcedure (forwarderProcedure text) with
          | .error status => _
          | .ok (procedureName, procedureNumber) => _) s₂ _
        cases hprocedure : env.forwardProcedure (forwarderProcedure text) with
        | error status =>
          apply Returns.change_bind
          exact .fail nofun
        | ok procedure =>
          obtain ⟨procedureName, procedureNumber⟩ := procedure
          have htarget : env.forwardTarget s text =
              some ⟨module, procedureName, procedureNumber⟩ := by
            unfold forwardTarget
            rw [if_neg hdot, hmodule]
            dsimp only
            rw [hprocedure]
          refine (hnext _ htarget s₂ (hsame₁.trans hsame₂)).attempt_bind ?_
          rintro (status | address) s₃ haddress
          · apply Returns.change_bind
            exact .fail nofun
          · apply Returns.change_bind
            refine .pure fun a ha => ?_
            obtain rfl := Except.ok.inj ha
            exact haddress _ rfl
    · rintro status s₂ ⟨-, _, heq, -⟩
      cases heq

/-- One call: what is found is returned, and what is forwarded is asked for elsewhere. -/
theorem callsOn_returns (hsettled : env.Settled s) {depth : Nat} {t : Target} {P : Nat → Prop}
    {s' : State} (hsame : SameModules s s')
    (haddress : ∀ a, env.lookupExport s t = .ok (.address a) → P a)
    (hnext : ∀ t', env.forwards s t = some t' → ∀ s'', SameModules s s'' →
      Returns (CallsOn (env.calls (depth + 1)) t') s'' fun r _ => ∀ a, r = .ok a → P a) :
    Returns (CallsOn (env.calls (depth + 2)) t) s' fun r _ => ∀ a, r = .ok a → P a := by
  have happly := env.getProcedureAddress_apply (env.calls (depth + 1)) t s'
  rw [hsame.lookupExport env t] at happly
  change ∃ r s'', env.getProcedureAddress _ t.handle t.procedureName t.procedureNumber s' = _ ∧ _
  rw [happly]
  cases hfound : env.lookupExport s t with
  | error status => exact Returns.fail nofun
  | ok found =>
    cases found with
    | null => exact Returns.fail nofun
    | address address =>
      refine Returns.pure fun a ha => ?_
      obtain rfl := Except.ok.inj ha
      exact haddress _ hfound
    | forwarder text =>
      have hforwards : env.forwards s t = env.forwardTarget s text := by
        unfold forwards
        rw [hfound]
      apply forward_returns
      · rw [hsame.library env]
        exact hsettled text (.of_lookup hfound)
      · intro t' ht' s'' hsame'
        have hsame_target : env.forwardTarget s' text = env.forwardTarget s text := by
          unfold forwardTarget
          rw [hsame.library env]
        rw [hsame_target, ← hforwards] at ht'
        exact hnext t' ht' s'' (hsame.trans hsame')

/-- A chain of forwarders that ends is followed to its end. -/
theorem returns_of_ends (hsettled : env.Settled s) {k : Nat} {t e : Target}
    (hends : Chain.Ends (env.forwards s) k t e) {s' : State} (hsame : SameModules s s')
    {depth : Nat} (hdepth : k + 2 ≤ depth) :
    Returns (CallsOn (env.calls depth) t) s' fun r _ => ∀ a, r = .ok a →
      env.lookupExport s e = .ok (.address a) := by
  induction hends generalizing s' depth with
  | here hnone =>
    obtain ⟨depth, rfl⟩ := Nat.exists_eq_add_of_le hdepth
    rw [Nat.add_comm (0 + 2) depth]
    apply callsOn_returns hsettled hsame
    · exact fun a ha => ha
    · intro t' ht'
      rw [hnone] at ht'
      cases ht'
  | step hstep hrest ih =>
    obtain ⟨depth, rfl⟩ : ∃ d, depth = d + 2 := ⟨depth - 2, by omega⟩
    apply callsOn_returns hsettled hsame
    · intro a ha
      unfold forwards at hstep
      rw [ha] at hstep
      cases hstep
    · intro t' ht' s'' hsame'
      rw [hstep] at ht'
      obtain rfl := Option.some.inj ht'
      exact ih hsame' (by omega)

/-! ## Forwarders that lead back -/

/-- While requests are granted, `LoadLibraryW` returns nothing but the loaded module. -/
theorem loadLibraryW_ensures (hgrants : env.Grants) (depth : Nat) {name : Name}
    (h : env.Missing name ∨ (env.library s name).isSome ∧ env.Grants) :
    Ensures (env.loadLibraryW (env.calls depth) name) s fun r s' =>
      SameModules s s' ∧ r = .ok (env.library s name) := by
  cases depth with
  | succ depth =>
    refine (loadLibraryW_returns depth h).ensures.mono ?_
    rintro r s' ⟨hsame, library, rfl, -, heq⟩
    exact ⟨hsame, by rw [heq hgrants]⟩
  | zero =>
    unfold loadLibraryW library
    split
    case isTrue => exact .pure ⟨.refl s, rfl⟩
    case isFalse =>
      cases env.computeDllPath name with
      | error status => exact .pure ⟨.refl s, rfl⟩
      | ok dllPath => exact Ensures.attempt_bind (Q := fun _ _ => False) .diverge nofun

/-- A forwarder whose target does not return does not return. -/
theorem forward_ensures (hgrants : env.Grants) {depth : Nat} {text : Name} {t : Target}
    (h : env.Missing (forwarderModule text) ∨
      (env.library s (forwarderModule text)).isSome ∧ env.Grants)
    (htarget : env.forwardTarget s text = some t)
    (hnext : ∀ s', SameModules s s' →
      Ensures (CallsOn (env.calls depth) t) s' fun _ _ => False) :
    Ensures (env.forward (env.calls depth) text) s fun _ _ => False := by
  unfold forwardTarget at htarget
  unfold forward
  by_cases hdot : '.' ∉ text
  · rw [if_pos hdot] at htarget
    cases htarget
  · rw [if_neg hdot] at htarget ⊢
    refine (env.require_returns .insufficientResources s).ensures.bind ?_ ?_
    case refine_2 =>
      rintro status s₁ ⟨-, heq | ⟨-, hdenied⟩⟩
      · cases heq
      · rw [hgrants s.tick] at hdenied
        cases hdenied
    rintro ⟨⟩ s₁ ⟨h₁, -⟩
    have hsame₁ := SameModules.of_modules_eq h₁
    rw [← hsame₁.library env (forwarderModule text)] at h htarget
    refine (loadLibraryW_ensures hgrants depth h).bind ?_ ?_
    case refine_2 =>
      rintro status s₂ ⟨-, heq⟩
      cases heq
    rintro library s₂ ⟨hsame₂, heq⟩
    obtain rfl := Except.ok.inj heq
    cases hlibrary : env.library s₁ (forwarderModule text) with
    | none =>
      rw [hlibrary] at htarget
      cases htarget
    | some module =>
      rw [hlibrary] at htarget
      dsimp only at htarget ⊢
      change Ensures (match env.forwardProcedure (forwarderProcedure text) with
        | .error status => _
        | .ok (procedureName, procedureNumber) => _) s₂ _
      cases hprocedure : env.forwardProcedure (forwarderProcedure text) with
      | error status =>
        rw [hprocedure] at htarget
        cases htarget
      | ok procedure =>
        obtain ⟨procedureName, procedureNumber⟩ := procedure
        rw [hprocedure] at htarget
        obtain rfl := Option.some.inj htarget
        exact Ensures.attempt_bind (hnext s₂ (hsame₁.trans hsame₂)) nofun

/-- A chain that is as long as the stack is deep is not followed to an end. -/
theorem diverges_of_after (hgrants : env.Grants) (hsettled : env.Settled s) {depth : Nat}
    {t e : Target} (hafter : Chain.after (env.forwards s) depth t = some e) {s' : State}
    (hsame : SameModules s s') :
    Ensures (CallsOn (env.calls depth) t) s' fun _ _ => False := by
  induction depth generalizing t s' with
  | zero => exact .diverge
  | succ depth ih =>
    obtain ⟨t', hstep, hrest⟩ := Option.bind_eq_some_iff.1 hafter
    have happly := env.getProcedureAddress_apply (env.calls depth) t s'
    rw [hsame.lookupExport env t] at happly
    unfold forwards at hstep
    split at hstep
    case h_2 => cases hstep
    case h_1 text hfound =>
      rw [hfound] at happly
      intro r s'' hrun
      have hforward : env.forward (env.calls depth) text s' = some (r, s'') :=
        happly.symm.trans hrun
      have hset := hsettled text (.of_lookup hfound)
      rw [← hsame.library env] at hset
      have htarget : env.forwardTarget s' text = some t' := by
        rw [← hstep]
        unfold forwardTarget
        rw [hsame.library env]
      exact forward_ensures hgrants hset htarget
        (fun s₁ hsame₁ => ih hrest (hsame.trans hsame₁)) r s'' hforward

/-! ## When a lookup returns -/

/-- The call returns on every stack that has room for as many calls of itself as there are exports
and for a load, with the address at the end of the chain or with a failure. -/
def Resolves (env : Env) (s : State) (t : Target) : Prop :=
  ∃ k ≤ (env.exports s).card, ∀ depth, k + 2 ≤ depth →
    Returns (CallsOn (env.calls depth) t) s fun r _ => ∀ a, r = .ok a →
      ∃ n e, Chain.Ends (env.forwards s) n t e ∧ env.lookupExport s e = .ok (.address a)

/-- The forwarders come to an export twice. -/
def LeadsBack (env : Env) (s : State) (t : Target) : Prop :=
  Chain.Repeats (env.forwards s) (env.exportOf s) t

theorem resolves_of_not_leadsBack (hsettled : env.Settled s) {t : Target}
    (h : ¬ env.LeadsBack s t) : env.Resolves s t := by
  obtain ⟨k, hk, e, hends⟩ := (labelled env s).ends_iff.2 h
  refine ⟨k, hk, fun depth hdepth => ?_⟩
  refine (returns_of_ends hsettled hends (.refl s) hdepth).mono ?_
  exact fun r _ hr a ha => ⟨k, e, hends, hr a ha⟩

theorem not_resolves_of_leadsBack (hgrants : env.Grants) (hsettled : env.Settled s) {t : Target}
    (h : env.LeadsBack s t) : ¬ env.Resolves s t := by
  rintro ⟨k, -, hreturns⟩
  obtain ⟨r, s', hrun, -⟩ := hreturns (k + 2) (Nat.le_refl _)
  obtain ⟨e, hafter⟩ := (labelled env s).after_of_repeats h (k + 2)
  exact diverges_of_after hgrants hsettled hafter (.refl s) r s' hrun

end Env

/-- A process whose own image, `m`, has the export directory. -/
def forwarding (directory : ExportDirectory) : Env :=
  { exporting directory with imagePathName := ['m'] }

/-- `f` is forwarded to `m.g`, an address. -/
def forwardedOnce : ExportDirectory :=
  ⟨1, [.forwarder ['m', '.', 'g'], .address 4096], [(['f'], 0), (['g'], 1)]⟩

/-- `f` is forwarded to `m.f`. -/
def forwardedToItself : ExportDirectory := ⟨1, [.forwarder ['m', '.', 'f']], [(['f'], 0)]⟩

/-- A lookup of the name in the image of the process. -/
def ownProcedure (name : Name) : Target := ⟨.imageBase, some name, 0⟩

theorem forwarding_settled (directory : ExportDirectory) (outcome : Nat → Bool)
    (houtcome : ∀ tick, outcome tick = true)
    (h : ∀ text, .forwarder text ∈ directory.functions → forwarderModule text = ['m']) :
    ((forwarding directory).withOutcome outcome).Settled (.initial []) := by
  rintro text ⟨image, directory', rfl | ⟨m, hm, -⟩, hexports, hmem⟩
  · obtain rfl := Option.some.inj hexports
    rw [h text hmem]
    exact .inr ⟨rfl, houtcome⟩
  · cases hm

theorem forwardedOnce_settled :
    ((forwarding forwardedOnce).withOutcome fun _ => true).Settled (.initial []) := by
  apply forwarding_settled forwardedOnce _ fun _ => rfl
  intro text hmem
  rcases List.mem_cons.1 hmem with heq | hmem
  · rw [Export.forwarder.inj heq]
    rfl
  · nomatch List.mem_singleton.1 hmem

theorem forwardedToItself_settled :
    ((forwarding forwardedToItself).withOutcome fun _ => true).Settled (.initial []) := by
  apply forwarding_settled forwardedToItself _ fun _ => rfl
  intro text hmem
  rw [Export.forwarder.inj (List.mem_singleton.1 hmem)]
  rfl

end Ldk.Loader
