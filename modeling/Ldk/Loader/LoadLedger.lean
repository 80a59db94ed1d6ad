import Mathlib
import Ldk.Loader.Load
import Ldk.Loader.Ledger

/-!
# Loads and lookups keep the books

Every outcome of a load or of a lookup leaves the ledger in order: a successful load leaves one
reference in hand, a failed one none, and a lookup none.

- `Calls.Sound`: what the code between the two functions may rely on.
- `Resolving`: the books while the imports of an image are resolved. The references that the
  dependency list will own are in hand.
- `Fresh`: the books between the registration of a module and the end of its load.
- `calls_sound`: by induction on the depth of the stack.
-/

namespace Ldk.Loader

open Command

variable {a : Account} {s : State} {held : List Nat}

/-- The references that come with a handle. -/
def Handle.references : Handle → List Nat
  | .imageBase => []
  | .module id => [id]

theorem Accounted.unload {handle : Handle} (h : Accounted a s (handle.references ++ held)) :
    Accounted a (s.unloadDll handle) held := by
  cases handle with
  | imageBase =>
    rw [State.unloadDll_eq]
    exact h
  | module id => exact h.unloadDll

/-- A reference that is left behind is in the log instead of in hand. -/
theorem Accounted.keep {handle : Handle} (h : Accounted a s (handle.references ++ held)) :
    Accounted a (s.keep handle) held := by
  cases handle with
  | imageBase => exact h
  | module id =>
    have howed : a.owed { s with kept := id :: s.kept } held = a.owed s (id :: held) := by
      funext i
      simp only [Account.owed, State.dependencies, List.count_cons]
      push_cast
      omega
    exact
      { wf :=
          { nodup := h.wf.nodup, issued := h.wf.issued, earlier := h.wf.earlier
            referenced := h.wf.referenced
            logged := by
              intro i hi
              rcases List.mem_cons.mp hi with rfl | hi
              · exact h.held i (List.mem_cons_self)
              · exact h.wf.logged i hi
            tlsNodup := h.wf.tlsNodup, tlsSet := h.wf.tlsSet, tlsImage := h.wf.tlsImage }
        exact := fun m hm hcounted =>
          (h.exact m hm hcounted).trans (congrFun howed m.id).symm
        absent := fun i hi => (congrFun howed i).le.trans (h.absent i hi)
        held := fun i hi => h.held i (List.mem_cons_of_mem _ hi)
        base := h.base, tls := h.tls, tlsFree := h.tlsFree, original := h.original
        firstNew := h.firstNew, new := h.new }

/-! ## Requests -/

/-- The number of requests so far does not matter to the condition. -/
def TickFree (P : State → Prop) : Prop := ∀ s tick, P s → P { s with tick := tick }

theorem Accounted.tickFree (a : Account) (held : List Nat) :
    TickFree (fun s => Accounted a s held) := fun _ tick h => h.setTick tick

namespace Env

variable (env : Env) {P : State → Prop}

theorem request_keeps (hP : TickFree P) (h : P s) :
    Ensures env.request s (fun _ s' => P s') := by
  rintro r s' hrun
  cases hrun
  exact hP _ _ h

theorem require_keeps (hP : TickFree P) (status : NtStatus) (h : P s) :
    Ensures (env.require status) s (fun _ s' => P s') := by
  refine (env.request_keeps hP h).bind (fun ok s' h' => ?_) (fun _ _ h' => h')
  exact .ite (fun _ => .pure h') (fun _ => .fail h')

theorem openFile_keeps (hP : TickFree P) (fileName : Name) (h : P s) :
    Ensures (env.openFile fileName) s (fun _ s' => P s') := by
  rintro r s' hrun
  cases hrun
  exact hP _ _ h

/-- Finding and mapping the file makes requests and nothing else. -/
theorem mapImage_keeps (hP : TickFree P) (fileName : Name) (h : P s) :
    Ensures (env.mapImage fileName) s (fun _ s' => P s') := by
  refine (env.openFile_keeps hP fileName h).bind (fun file s₁ h₁ => ?_) (fun _ _ h' => h')
  refine (env.require_keeps hP _ h₁).bind (fun _ s₂ h₂ => ?_) (fun _ _ h' => h')
  cases validate file with
  | error status => exact .fail h₂
  | ok _ =>
    refine (env.require_keeps hP _ h₂).bind (fun _ s₃ h₃ => ?_) (fun _ _ h' => h')
    cases file.relocated with
    | error status => exact .fail h₃
    | ok _ => exact .pure h₃

theorem findFile_keeps (hP : TickFree P) (dllPath : Option Name) (dllName : Name) (h : P s) :
    Ensures (env.findFile dllPath dllName) s (fun _ s' => P s') := by
  refine (env.require_keeps hP _ h).bind (fun _ s₁ h₁ => ?_) (fun _ _ h' => h')
  cases env.searchPath (dllPath.getD env.dllPath) dllName with
  | none => exact .fail h₁
  | some fullDllName =>
    have hlonger : Ensures (if fullDllName.length + 1 > 4096 then
        env.require .insufficientResources else pure ()) s₁ (fun _ s' => P s') :=
      .ite (fun _ => env.require_keeps hP _ h₁) (fun _ => .pure h₁)
    refine hlonger.bind (fun _ s₂ h₂ => ?_) (fun _ _ h' => h')
    refine (env.require_keeps hP _ h₂).bind (fun _ s₃ h₃ => ?_) (fun _ _ h' => h')
    cases env.ntPathName fullDllName with
    | none => exact .fail h₃
    | some ntFileName => exact .pure h₃

/-- The entry point reports success or not; the call itself does not fail. -/
theorem callEntryPoint_keeps (hP : TickFree P) (image : Image) (h : P s) :
    Ensures (env.callEntryPoint image) s (fun r s' => (∃ attached, r = .ok attached) ∧ P s') := by
  refine .ite (fun _ => ?_) (fun _ => .pure ⟨⟨true, rfl⟩, h⟩)
  rintro r s' hrun
  cases hrun
  exact ⟨⟨_, rfl⟩, hP _ _ h⟩

end Env

/-! ## What the two functions keep -/

/-- The outcome of a load of the name, begun in `s`. A handle that is no image base belongs to a
module that was found under another name. -/
def Loaded (a : Account) (held : List Nat) (dllName : Name) (s : State) :
    Except NtStatus Handle → State → Prop
  | .ok handle, s' => Accounted a s' (handle.references ++ held) ∧
      ((s'.getModuleByBase handle).isSome ∨
        (s.getModuleByName dllName = none → s'.getModuleByName dllName = none))
  | .error _, s' => Accounted a s' held

/-- The two functions keep the books. -/
structure Calls.Sound (a : Account) (calls : Calls) : Prop where
  loadDll : ∀ dllPath dllCharacteristics dllName s held, Accounted a s held →
    Ensures (calls.loadDll dllPath dllCharacteristics dllName) s (Loaded a held dllName s)
  getProcedureAddress : ∀ dllHandle procedureName procedureNumber s held, Accounted a s held →
    Ensures (calls.getProcedureAddress dllHandle procedureName procedureNumber) s
      (fun _ s' => Accounted a s' held)

theorem unload_keeps {handle : Handle} (h : Accounted a s (handle.references ++ held)) :
    Ensures (unload handle) s (fun _ s' => Accounted a s' held) :=
  .change h.unload

namespace Env

variable (env : Env) {calls : Calls}

/-! ## Procedures -/

/-- `LoadLibraryW` leaves a reference in hand if it succeeds. -/
theorem loadLibraryW_keeps (hcalls : calls.Sound a) (libFileName : Name)
    (h : Accounted a s held) :
    Ensures (env.loadLibraryW calls libFileName) s (fun r s' =>
      match r with
      | .ok (some handle) => Accounted a s' (handle.references ++ held)
      | _ => Accounted a s' held) := by
  refine .ite (fun _ => .pure h) (fun _ => ?_)
  cases env.computeDllPath libFileName with
  | error _ => exact .pure h
  | ok dllPath =>
    have hload := hcalls.loadDll (some dllPath) (some ⟨false, false⟩) libFileName s held h
    refine hload.attempt_bind ?_
    rintro (status | handle) s' h'
    · exact .pure h'
    · exact .pure h'.1

/-- A forwarder is followed without a reference in hand at the end: the one that `LoadLibraryW`
took is dropped on failure and left behind on success. -/
theorem forward_keeps (hcalls : calls.Sound a) (text : Name) (h : Accounted a s held) :
    Ensures (env.forward calls text) s (fun _ s' => Accounted a s' held) := by
  refine .ite (fun _ => .fail h) (fun _ => ?_)
  refine (env.require_keeps (Accounted.tickFree a held) _ h).bind (fun _ s₁ h₁ => ?_)
    (fun _ _ h' => h')
  refine (env.loadLibraryW_keeps hcalls _ h₁).bind ?_ (fun _ _ h' => h')
  rintro (_ | handle) s₂ h₂
  · exact .fail h₂
  · dsimp only
    cases env.forwardProcedure ((text.dropWhile (· ≠ '.')).drop 1) with
    | error status =>
      exact (unload_keeps h₂).bind (fun _ _ h' => .fail h') (fun _ _ h' => h')
    | ok procedure =>
      have hget := hcalls.getProcedureAddress handle procedure.1 procedure.2 s₂ _ h₂
      refine hget.attempt_bind ?_
      rintro (status | address) s₃ h₃
      · exact (unload_keeps h₃).bind (fun _ _ h' => .fail h') (fun _ _ h' => h')
      · exact .change_bind (.pure h₃.keep)

theorem getImageProcedureAddress_keeps (hcalls : calls.Sound a) (image : Image)
    (procedureName : Option Name) (procedureNumber : Nat) (h : Accounted a s held) :
    Ensures (env.getImageProcedureAddress calls image procedureName procedureNumber) s
      (fun _ s' => Accounted a s' held) := by
  unfold getImageProcedureAddress
  cases image.findExport procedureName procedureNumber with
  | error status => exact .fail h
  | ok found =>
    cases found with
    | null => exact .fail h
    | address address => exact .pure h
    | forwarder text => exact env.forward_keeps hcalls text h

theorem getProcedureAddress_keeps (hcalls : calls.Sound a) (dllHandle : Handle)
    (procedureName : Option Name) (procedureNumber : Nat) (h : Accounted a s held) :
    Ensures (env.getProcedureAddress calls dllHandle procedureName procedureNumber) s
      (fun _ s' => Accounted a s' held) := by
  cases dllHandle with
  | imageBase => exact env.getImageProcedureAddress_keeps hcalls _ _ _ h
  | module id =>
    refine .read_bind ?_
    cases s.get id with
    | none => exact .fail h
    | some m =>
      dsimp only
      cases m.image with
      | some image => exact env.getImageProcedureAddress_keeps hcalls _ _ _ h
      | none =>
        cases procedureName with
        | none => exact .fail h
        | some name =>
          dsimp only
          split
          · exact .fail h
          · exact .pure h

theorem getRoutineAddress_keeps (hcalls : calls.Sound a) (m : Module)
    (procedureName : Option Name) (procedureNumber : Nat) (h : Accounted a s held) :
    Ensures (getRoutineAddress calls m procedureName procedureNumber) s
      (fun _ s' => Accounted a s' held) := by
  refine .ite (fun _ => ?_) (fun _ => ?_)
  · refine (hcalls.getProcedureAddress _ _ _ s held h).attempt_bind ?_
    rintro (status | address) s' h'
    · exact .pure h'
    · exact .pure h'
  · cases procedureName with
    | none => exact .pure h
    | some name => exact .pure h

end Env

/-! ## Imports -/

/-- The books while imports are resolved. -/
structure Resolving (a : Account) (held : List Nat) (t : Importing) : Prop where
  accounted : Accounted a t.loader (t.dependencyList ++ held)
  nodup : t.dependencyList.Nodup

/-- Loader code that keeps the books does so while imports are resolved. -/
theorem Resolving.inLoader {α : Type} {t : Importing} {c : Load α} (h : Resolving a held t)
    (hc : ∀ held, Accounted a t.loader held → Ensures c t.loader (fun _ s' => Accounted a s' held)) :
    Ensures (Ldk.Loader.inLoader c) t (fun _ t' => Resolving a held t') :=
  .zoom ((hc _ h.accounted).mono fun _ _ h' => ⟨h', h.nodup⟩)

namespace Env

variable (env : Env) {calls : Calls} {t : Importing}

/-- A dependency is added with a reference of its own. -/
theorem addModuleDependency_true {m : Module} (h : Resolving a held t)
    (hm : m ∈ t.loader.modules) :
    Ensures (env.addModuleDependency m true) t (fun _ t' => Resolving a held t') := by
  refine .ite (fun _ => .pure h) (fun _ => .read_bind ?_)
  refine .ite (fun _ => .pure h) (fun hnew => ?_)
  have hnew' : m.id ∉ t.dependencyList := fun hin => hnew (List.contains_iff_mem.mpr hin)
  have hrequire : Ensures (env.require .insufficientResources) t.loader
      (fun _ s' => Accounted a s' (t.dependencyList ++ held) ∧ m ∈ s'.modules) :=
    env.require_keeps (P := fun s' => Accounted a s' (t.dependencyList ++ held) ∧ m ∈ s'.modules)
      (fun _ tick h' => ⟨h'.1.setTick tick, h'.2⟩) _ ⟨h.accounted, hm⟩
  have hrequire' : Ensures (inLoader (env.require .insufficientResources)) t
      (fun _ t' => ∃ s', t' = ⟨s', t.dependencyList⟩ ∧
        Accounted a s' (t.dependencyList ++ held) ∧ m ∈ s'.modules) :=
    .zoom (hrequire.mono fun _ s' h' => ⟨s', rfl, h'⟩)
  refine hrequire'.bind ?_ ?_
  · rintro _ _ ⟨s₁, rfl, h₁, hm₁⟩
    refine .change_bind (.change ⟨?_, ?_⟩)
    · show Accounted a (s₁.referenceModuleLocked m.id false true) (t.dependencyList ++ [m.id] ++ held)
      rw [List.append_assoc]
      exact (h₁.reference hm₁).perm List.perm_middle.symm
    · show (t.dependencyList ++ [m.id]).Nodup
      exact List.perm_append_singleton m.id _ |>.nodup_iff.mpr (List.nodup_cons.mpr ⟨hnew', h.nodup⟩)
  · rintro e _ ⟨s₁, rfl, h₁, _⟩
    exact ⟨h₁, h.nodup⟩

/-- A dependency is added with a reference that was in hand; if that fails it still is. -/
theorem addModuleDependency_false {m : Module}
    (h : Accounted a t.loader (m.id :: (t.dependencyList ++ held)))
    (hnodup : t.dependencyList.Nodup) (hm : m ∈ t.loader.modules) :
    Ensures (env.addModuleDependency m false) t (fun r t' =>
      match r with
      | .ok _ => Resolving a held t'
      | .error _ => Resolving a (m.id :: held) t') := by
  refine .ite (fun hstatic => .pure ⟨?_, hnodup⟩) (fun _ => .read_bind ?_)
  · refine h.forget fun n hn hid => ?_
    rw [h.wf.eq_of_id hn hm hid]
    have hno : m.hasUnregistrable = false := by simpa using hstatic
    rw [Module.counted, hno, Bool.false_and]
  refine .ite (fun _ => .change ⟨?_, hnodup⟩) (fun hnew => ?_)
  · exact @Accounted.keep _ _ _ (.module m.id) h
  have hnew' : m.id ∉ t.dependencyList := fun hin => hnew (List.contains_iff_mem.mpr hin)
  have hrequire : Ensures (inLoader (env.require .insufficientResources)) t
      (fun _ t' => ∃ s', t' = ⟨s', t.dependencyList⟩ ∧
        Accounted a s' (m.id :: (t.dependencyList ++ held))) :=
    .zoom ((env.require_keeps (Accounted.tickFree a _) _ h).mono fun _ s' h' => ⟨s', rfl, h'⟩)
  refine hrequire.bind ?_ ?_
  · rintro _ _ ⟨s₁, rfl, h₁⟩
    refine .change ⟨?_, ?_⟩
    · show Accounted a s₁ (t.dependencyList ++ [m.id] ++ held)
      rw [List.append_assoc]
      exact h₁.perm List.perm_middle.symm
    · show (t.dependencyList ++ [m.id]).Nodup
      exact List.perm_append_singleton m.id _ |>.nodup_iff.mpr (List.nodup_cons.mpr ⟨hnew', hnodup⟩)
  · rintro e _ ⟨s₁, rfl, h₁⟩
    exact ⟨h₁.perm List.perm_middle.symm, hnodup⟩

/-- A module that has been loaded for an import is recorded with the reference of its load. -/
theorem loadImportModule_keeps (hcalls : calls.Sound a) (moduleName : Name)
    (dllPath : Option Name) (h : Resolving a held t)
    (hnone : t.loader.getModuleByName moduleName = none) :
    Ensures (env.loadImportModule calls moduleName dllPath) t (fun _ t' => Resolving a held t') := by
  have hrequire : Ensures (inLoader (env.require .insufficientResources)) t
      (fun _ t' => Resolving a held t' ∧ t'.loader.getModuleByName moduleName = none) :=
    .zoom ((env.require_keeps
      (P := fun s' => Accounted a s' (t.dependencyList ++ held) ∧
        s'.getModuleByName moduleName = none)
      (fun _ tick h' => ⟨h'.1.setTick tick, h'.2⟩) _ ⟨h.accounted, hnone⟩).mono
        fun _ s' h' => ⟨⟨h'.1, h.nodup⟩, h'.2⟩)
  refine hrequire.bind ?_ (fun _ _ h' => h'.1)
  rintro _ t₁ ⟨h₁, hnone₁⟩
  have hload : Ensures (inLoader (calls.loadDll dllPath none moduleName)) t₁ (fun r t' =>
      t'.dependencyList = t₁.dependencyList ∧
        Loaded a (t₁.dependencyList ++ held) moduleName t₁.loader r t'.loader) :=
    .zoom ((hcalls.loadDll dllPath none moduleName _ _ h₁.accounted).mono
      fun _ s' h' => ⟨rfl, h'⟩)
  refine hload.bind ?_ (fun e t' h' => ⟨h'.1 ▸ h'.2, h'.1 ▸ h₁.nodup⟩)
  rintro handle ⟨s₂, list⟩ ⟨rfl, h₂, hfound⟩
  have hunload : ∀ status, Ensures (do
      inLoader (unload handle)
      Command.fail (α := Module) status) (⟨s₂, t₁.dependencyList⟩ : Importing)
      (fun _ t' => Resolving a held t') :=
    fun status => .change_bind (.fail ⟨h₂.unload, h₁.nodup⟩)
  refine .read_bind ?_
  cases hbase : s₂.getModuleByBase handle with
  | none =>
    -- The handle is no image base, so the name is looked for again, and there still is none.
    have hname : s₂.getModuleByName moduleName = none := by
      rcases hfound with hsome | hstill
      · rw [show s₂.getModuleByBase handle = none from hbase] at hsome
        cases hsome
      · exact hstill hnone₁
    simp only [hbase, hname]
    exact hunload _
  | some m =>
    obtain ⟨hm, rfl⟩ : m ∈ s₂.modules ∧ handle = .module m.id := by
      cases handle with
      | imageBase => cases hbase
      | module id =>
        obtain ⟨hm, rfl⟩ := State.get_some (Option.filter_eq_some_iff.mp hbase).1
        exact ⟨hm, rfl⟩
    simp only [hbase]
    refine (env.addModuleDependency_false h₂ h₁.nodup hm).attempt_bind ?_
    rintro (status | _) t₃ h₃
    · refine .change_bind (.fail ⟨?_, h₃.nodup⟩)
      exact (h₃.accounted.perm List.perm_middle).unloadDll
    · exact .pure h₃

theorem resolveImportModule_keeps (hcalls : calls.Sound a) (moduleName : Name)
    (dllPath : Option Name) (h : Resolving a held t) :
    Ensures (env.resolveImportModule calls moduleName dllPath) t
      (fun _ t' => Resolving a held t') := by
  refine .read_bind ?_
  dsimp only
  cases hname : t.loader.getModuleByName moduleName with
  | none => exact env.loadImportModule_keeps hcalls moduleName dllPath h hname
  | some m =>
    have hm : m ∈ t.loader.modules := List.mem_of_find?_eq_some hname
    exact (env.addModuleDependency_true h hm).bind (fun _ _ h' => .pure h') (fun _ _ h' => h')

theorem snapThunks_keeps (hcalls : calls.Sound a) (m : Module) (thunks : List Thunk)
    (h : Resolving a held t) :
    Ensures (snapThunks calls m thunks) t (fun _ t' => Resolving a held t') := by
  induction thunks generalizing t with
  | nil => exact .pure h
  | cons thunk thunks ih =>
    have hget : ∀ procedureName procedureNumber,
        Ensures (inLoader (getRoutineAddress calls m procedureName procedureNumber)) t
          (fun _ t' => Resolving a held t') :=
      fun procedureName procedureNumber =>
        h.inLoader fun held h' => getRoutineAddress_keeps hcalls m _ _ h'
    cases thunk with
    | ordinal number =>
      exact (hget _ _).bind (fun _ _ h' => .ite (fun _ => .fail h') (fun _ => ih h'))
        (fun _ _ h' => h')
    | name name =>
      exact (hget _ _).bind (fun _ _ h' => .ite (fun _ => .fail h') (fun _ => ih h'))
        (fun _ _ h' => h')

theorem buildImportDescriptors_keeps (hcalls : calls.Sound a) (dllPath : Option Name)
    (descriptors : List ImportDescriptor) (h : Resolving a held t) :
    Ensures (env.buildImportDescriptors calls dllPath descriptors) t
      (fun _ t' => Resolving a held t') := by
  induction descriptors generalizing t with
  | nil => exact .pure h
  | cons descriptor descriptors ih =>
    refine (env.resolveImportModule_keeps hcalls _ dllPath h).bind (fun m t₁ h₁ => ?_)
      (fun _ _ h' => h')
    exact (snapThunks_keeps hcalls m _ h₁).bind (fun _ t₂ h₂ => ih h₂) (fun _ _ h' => h')

theorem buildBoundImportDescriptors_keeps (hcalls : calls.Sound a)
    (imports : List ImportDescriptor) (dllPath : Option Name) (boundNames : List Name)
    (h : Resolving a held t) :
    Ensures (env.buildBoundImportDescriptors calls imports dllPath boundNames) t
      (fun _ t' => Resolving a held t') := by
  induction boundNames generalizing t with
  | nil => exact .pure h
  | cons boundName boundNames ih =>
    refine (env.resolveImportModule_keeps hcalls _ dllPath h).bind (fun _ t₁ h₁ => ?_)
      (fun _ _ h' => h')
    cases imports.dropWhile (! stricmp ·.name boundName) with
    | nil => exact .fail h₁
    | cons descriptor descriptors =>
      exact (env.buildImportDescriptors_keeps hcalls dllPath _ h₁).bind
        (fun _ t₂ h₂ => ih h₂) (fun _ _ h' => h')

theorem walkImportDescriptors_keeps (hcalls : calls.Sound a) (image : Image)
    (dllPath : Option Name) (h : Resolving a held t) :
    Ensures (env.walkImportDescriptors calls image dllPath) t
      (fun _ t' => Resolving a held t') := by
  unfold walkImportDescriptors
  split
  · exact .fail h
  · exact env.buildBoundImportDescriptors_keeps hcalls _ dllPath _ h
  · exact env.buildImportDescriptors_keeps hcalls dllPath _ h

/-! ## Loading -/

theorem ldkpLoadDll_keeps (hcalls : calls.Sound a) (fileName : Name) (dllPath : Option Name)
    (resolveImports : Bool) (h : Resolving a held t) :
    Ensures (env.ldkpLoadDll calls fileName dllPath resolveImports) t
      (fun _ t' => Resolving a held t') := by
  refine (h.inLoader fun held h' =>
    env.mapImage_keeps (Accounted.tickFree a held) fileName h').bind
    (fun image t₁ h₁ => ?_) (fun _ _ h' => h')
  refine .ite (fun _ => ?_) (fun _ => .pure h₁)
  exact (env.walkImportDescriptors_keeps hcalls image dllPath h₁).bind
    (fun _ _ h' => .pure h') (fun _ _ h' => h')

end Env

/-- The module has been put on the list of `s` and nothing else has been done. -/
structure Inserted (a : Account) (held : List Nat) (m : Module) (s s' : State) : Prop where
  state : s' = { s.insert m with tlsBitmap := s'.tlsBitmap }
  accounted : Accounted a s (m.dependencyList ++ held)
  id : m.id = s.nextId
  counted : m.counted = true
  loadCount : m.loadCount = 1
  nodup : m.dependencyList.Nodup
  image : m.image.isSome
  set : ∀ index, index ∈ s'.tlsBitmap ↔ m.tlsIndex = some index ∨ index ∈ s.tlsBitmap
  free : ∀ index, m.tlsIndex = some index → index ∉ s.tlsBitmap

/-- The books between the registration of a module and the end of its load. -/
def Fresh (a : Account) (held : List Nat) (module : Nat) (s' : State) : Prop :=
  ∃ m s, m.id = module ∧ Inserted a held m s s'

namespace Inserted

variable {m : Module} {s' : State}

theorem after (h : Inserted a held m s s') : Accounted a s' (m.id :: held) := by
  rw [h.state]
  exact h.accounted.insert h.id h.counted h.loadCount h.nodup h.image h.set h.free

theorem mem (h : Inserted a held m s s') : m ∈ s'.modules := by
  rw [h.state]
  exact List.mem_append_right _ (List.mem_singleton_self m)

theorem setTick (h : Inserted a held m s s') (tick : Nat) :
    Inserted a held m { s with tick := tick } { s' with tick := tick } :=
  { state := by
      have hstate := h.state
      rw [hstate]
      rfl
    accounted := h.accounted.setTick tick
    id := h.id, counted := h.counted, loadCount := h.loadCount, nodup := h.nodup
    image := h.image, set := h.set, free := h.free }

/-- Change the record and the bitmap after the module has been inserted. -/
theorem change (h : Inserted a held m s s') (f : Module → Module) (tlsBitmap : Finset Nat)
    (hid : (f m).id = m.id) (hlist : (f m).dependencyList = m.dependencyList)
    (hcounted : (f m).counted = true) (hcount : (f m).loadCount = 1) (himage : (f m).image.isSome)
    (hset : ∀ index, index ∈ tlsBitmap ↔ (f m).tlsIndex = some index ∨ index ∈ s.tlsBitmap)
    (hfree : ∀ index, (f m).tlsIndex = some index → index ∉ s.tlsBitmap) :
    Inserted a held (f m) s { s'.update m.id f with tlsBitmap := tlsBitmap } :=
  { state := by
      have hupdate := State.update_insert h.accounted.wf h.id f
      have hstate := h.state
      rw [hstate, ← hupdate]
      rfl
    accounted := hlist ▸ h.accounted
    id := hid.trans h.id
    counted := hcounted, loadCount := hcount
    nodup := hlist ▸ h.nodup
    image := himage, set := hset, free := hfree }

end Inserted

namespace Fresh

variable {module : Nat} {s' : State}

theorem after (h : Fresh a held module s') : Accounted a s' (module :: held) := by
  obtain ⟨m, s, rfl, h⟩ := h
  exact h.after

theorem tickFree (a : Account) (held : List Nat) (module : Nat) : TickFree (Fresh a held module) := by
  rintro s' tick ⟨m, s, hid, h⟩
  exact ⟨m, _, hid, h.setTick tick⟩

/-- The handle of the module is an image base. -/
theorem loaded (h : Fresh a held module s') (dllName : Name) (s₀ : State) :
    Loaded a held dllName s₀ (.ok (.module module)) s' := by
  obtain ⟨m, s, rfl, h⟩ := h
  refine ⟨h.after, .inl ?_⟩
  have hget : s'.get m.id = some m := h.after.wf.get_of_mem h.mem
  simp only [State.getModuleByBase, hget, Option.filter_some, h.image, if_true, Option.isSome_some]

end Fresh

namespace Env

variable (env : Env) {calls : Calls}

theorem registerModule_keeps (moduleName fullModuleName : Name) (image : Image)
    (h : Accounted a s held) :
    Ensures (env.registerModule moduleName fullModuleName image) s (fun r s' =>
      match r with
      | .ok module => ∃ t, Accounted a t held ∧ module = t.nextId ∧
          s' = t.insert (t.newModule moduleName fullModuleName image)
      | .error _ => Accounted a s' held) := by
  have hrequire := fun s h => env.require_keeps (s := s) (Accounted.tickFree a held)
    .insufficientResources h
  refine (hrequire _ h).bind (fun _ s₁ h₁ => ?_) (fun _ _ h' => h')
  refine (hrequire _ h₁).bind (fun _ s₂ h₂ => ?_) (fun _ _ h' => h')
  refine (hrequire _ h₂).bind (fun _ s₃ h₃ => ?_) (fun _ _ h' => h')
  exact .read_bind (.change_bind (.pure ⟨s₃, h₃, rfl, rfl⟩))

/-- A TLS index is taken from the bitmap and kept, or given back. -/
theorem initializeModuleTls_keeps {m : Module} {s' : State} (image : Image)
    (h : Inserted a held m s s') (hnone : m.tlsIndex = none) :
    Ensures (env.initializeModuleTls m.id image) s' (fun _ s'' => Fresh a held m.id s'') := by
  have hfresh : Fresh a held m.id s' := ⟨m, s, rfl, h⟩
  unfold initializeModuleTls
  cases image.tls with
  | none => exact .pure hfresh
  | some directory =>
    refine .ite (fun _ => .fail hfresh) (fun _ => .read_bind ?_)
    dsimp only
    cases hfind : (List.range tlsSlotsSize).find? (· ∉ s'.tlsBitmap) with
    | none => exact .fail hfresh
    | some index =>
      have hfree : index ∉ s'.tlsBitmap := by simpa using List.find?_some hfind
      have hfree' : index ∉ s.tlsBitmap := fun hin => hfree ((h.set index).mpr (.inr hin))
      have hsame : ∀ i, i ∈ s'.tlsBitmap ↔ i ∈ s.tlsBitmap := by
        intro i
        rw [h.set i, hnone]
        simp
      refine .change_bind ?_
      have htaken := h.change (fun m => { m with tlsIndex := some index })
        (Insert.insert index s'.tlsBitmap) rfl rfl h.counted h.loadCount h.image
        (fun i => by rw [Finset.mem_insert, hsame, Option.some_inj, eq_comm])
        (fun i hi => by rw [← Option.some_inj.mp hi]; exact hfree')
      have hrequire := env.require_keeps (P := fun s'' => ∃ t,
        Inserted a held { m with tlsIndex := some index } t s'' ∧ index ∉ t.tlsBitmap)
        (fun _ tick h' => h'.elim fun t h' => ⟨_, h'.1.setTick tick, h'.2⟩)
        .insufficientResources ⟨s, htaken, hfree'⟩
      refine hrequire.attempt_bind ?_
      rintro (status | _) s₁ ⟨t, h₁, hfree₁⟩
      · refine .change_bind (.fail ⟨{ m with tlsIndex := none }, t, rfl,
          h₁.change (fun m => { m with tlsIndex := none }) (s₁.tlsBitmap.erase index) rfl rfl
            h₁.counted h₁.loadCount h₁.image ?_ nofun⟩)
        · intro i
          rw [Finset.mem_erase, h₁.set i]
          constructor
          · rintro ⟨hne, hi | hi⟩
            · exact absurd (Option.some_inj.mp hi).symm hne
            · exact .inr hi
          · rintro (hi | hi)
            · cases hi
            · exact ⟨fun heq => hfree₁ (heq ▸ hi), .inr hi⟩
      · exact .pure ⟨{ m with tlsIndex := some index }, t, rfl, h₁⟩

/-- The module is attached, or unloaded with its dependencies. -/
theorem attachModule_keeps {m : Module} {s' s₀ : State} (image : Image) (dllName : Name)
    (h : Inserted a held m s s') (hnone : m.tlsIndex = none) :
    Ensures (env.attachModule m.id image) s' (Loaded a held dllName s₀) := by
  refine (env.initializeModuleTls_keeps image h hnone).attempt_bind ?_
  rintro (status | _) s₁ h₁
  · exact .change_bind (.fail h₁.after.unloadDll)
  · refine .change_bind ?_
    have hattached : Fresh a held m.id
        (s₁.update m.id fun m => { m with processAttached := true }) := by
      obtain ⟨m₁, t, hid, h₁⟩ := h₁
      rw [← hid]
      exact ⟨{ m₁ with processAttached := true }, t, rfl,
        h₁.change (fun m => { m with processAttached := true }) s₁.tlsBitmap rfl rfl h₁.counted
          h₁.loadCount h₁.image h₁.set h₁.free⟩
    refine (env.callEntryPoint_keeps (Fresh.tickFree a held m.id) image hattached).bind ?_
      (by rintro e s₂ ⟨⟨_, heq⟩, _⟩; cases heq)
    rintro attached s₂ ⟨_, h₂⟩
    exact .ite (fun _ => .pure (h₂.loaded dllName s₀))
      (fun _ => .change_bind (.fail h₂.after.unloadDll))

/-- `LdkpLoadDll` with an empty list: the references to the dependencies it returns are in
hand. -/
theorem collect_keeps (hcalls : calls.Sound a) (fileName : Name) (dllPath : Option Name)
    (resolveImports : Bool) (h : Accounted a s held) :
    Ensures (collect (env.ldkpLoadDll calls fileName dllPath resolveImports)) s (fun r s' =>
      ∃ outcome dependencies, r = .ok (outcome, dependencies) ∧ dependencies.Nodup ∧
        Accounted a s' (dependencies ++ held)) := by
  intro r s' hrun
  obtain ⟨⟨outcome, t⟩, heq, hpair⟩ := Option.map_eq_some_iff.mp hrun
  cases hpair
  have hstart : Resolving a held ⟨s, []⟩ := ⟨h, List.nodup_nil⟩
  have hload := env.ldkpLoadDll_keeps hcalls fileName dllPath resolveImports hstart outcome t heq
  exact ⟨outcome, _, rfl, hload.nodup, hload.accounted⟩

theorem loadNewModule_keeps (hcalls : calls.Sound a) (dllPath : Option Name)
    (resolveImports resourceOnly : Bool) (dllName : Name) (s₀ : State) (h : Accounted a s held) :
    Ensures (env.loadNewModule calls dllPath resolveImports resourceOnly dllName) s
      (Loaded a held dllName s₀) := by
  refine (env.findFile_keeps (Accounted.tickFree a held) dllPath dllName h).bind ?_
    (fun _ _ h' => h')
  intro ntFileName s₁ h₁
  refine (env.collect_keeps hcalls ntFileName dllPath resolveImports h₁).bind ?_ ?_
  · rintro _ s₂ ⟨outcome, dependencies, heq, hnodup, h₂⟩
    cases heq
    cases outcome with
    | error status => exact .change_bind (.fail (h₂.releaseModuleDependencies _))
    | ok image =>
      refine (env.registerModule_keeps _ ntFileName image h₂).attempt_bind ?_
      rintro (status | module) s₃ h₃
      · exact .change_bind (.fail (h₃.releaseModuleDependencies _))
      · obtain ⟨t, h₃, rfl, rfl⟩ := h₃
        refine .change_bind ?_
        have hinsert : ∃ m : Module, m.id = t.nextId ∧ m.tlsIndex = none ∧
            Inserted a held m t (t.insert m) ∧
            (t.insert (t.newModule (baseName ntFileName) ntFileName image)).update t.nextId
              (fun m => { m with
                resourceOnly := resourceOnly
                dependencyList := m.dependencyList ++ dependencies }) = t.insert m :=
          ⟨{ t.newModule (baseName ntFileName) ntFileName image with
              resourceOnly := resourceOnly
              dependencyList := dependencies }, rfl, rfl,
            { state := rfl, accounted := h₃, id := rfl, counted := rfl, loadCount := rfl
              nodup := hnodup, image := rfl
              set := fun index => ⟨.inr, fun h => h.elim nofun id⟩
              free := nofun },
            State.update_insert h₃.wf rfl _⟩
        obtain ⟨m, hid, hnone, hinserted, hstate⟩ := hinsert
        show Ensures _ ((t.insert (t.newModule (baseName ntFileName) ntFileName image)).update
            t.nextId _) _
        rw [hstate, ← hid]
        have hfresh : Fresh a held m.id (t.insert m) := ⟨m, t, rfl, hinserted⟩
        exact .ite (fun _ => env.attachModule_keeps image dllName hinserted hnone)
          (fun _ => .pure (hfresh.loaded dllName s₀))
  · rintro e s₂ ⟨_, _, heq, _⟩
    cases heq

/-- A module that is found by name is referenced, which gives no module another name. -/
theorem referenceModuleByName_keeps (dllName : Name) (resourceOnly : Bool)
    (h : Accounted a s held) :
    Ensures (env.referenceModuleByName dllName resourceOnly) s (fun r s' =>
      match r with
      | .ok (some handle) => Loaded a held dllName s (.ok handle) s'
      | _ => Accounted a s' held) := by
  have hrequest := env.request_keeps
    (P := fun s' => Accounted a s' held ∧ s'.modules = s.modules)
    (fun _ tick h' => ⟨h'.1.setTick tick, h'.2⟩) ⟨h, rfl⟩
  refine hrequest.bind ?_ (fun _ _ h' => h'.1)
  rintro found s₁ ⟨h₁, hmodules⟩
  refine .ite (fun _ => .pure h₁) (fun _ => .read_bind ?_)
  cases hfind : s₁.getModuleByNameEx dllName resourceOnly <|>
      s₁.getModuleByNameEx (dllName ++ ['.', 'd', 'l', 'l']) resourceOnly with
  | none => exact .pure h₁
  | some m =>
    have hm : m ∈ s₁.modules := by
      rcases (Option.orElse_eq_some _ _ _).mp hfind with hfind | ⟨_, hfind⟩
      · exact List.mem_of_find?_eq_some hfind
      · exact List.mem_of_find?_eq_some hfind
    refine .change_bind (.pure ⟨h₁.reference hm, .inr fun hnone => ?_⟩)
    refine List.find?_eq_none.mpr fun n' hn' => ?_
    obtain ⟨n, hn, rfl⟩ := State.mem_update hn'
    have hno := List.find?_eq_none.mp hnone n (hmodules ▸ hn)
    have hsame := n.reference_sansCount true
    have hname : (n.reference false true).moduleName = n.moduleName := by
      rw [← Module.sansCount_moduleName, hsame, Module.sansCount_moduleName]
    have hmode : (n.reference false true).resourceOnly = n.resourceOnly := by
      rw [← Module.sansCount_resourceOnly, hsame, Module.sansCount_resourceOnly]
    split
    · rw [hname, hmode]
      exact hno
    · exact hno

theorem loadDll_keeps (hcalls : calls.Sound a) (dllPath : Option Name)
    (dllCharacteristics : Option Characteristics) (dllName : Name) (h : Accounted a s held) :
    Ensures (env.loadDll calls dllPath dllCharacteristics dllName) s
      (Loaded a held dllName s) := by
  refine (env.referenceModuleByName_keeps dllName _ h).bind ?_ (fun _ _ h' => h')
  rintro (_ | handle) s₁ h₁
  · exact env.loadNewModule_keeps hcalls dllPath _ _ dllName s h₁
  · exact .pure h₁

/-- On a stack of any depth the two functions keep the books. -/
theorem calls_sound (depth : Nat) : (env.calls depth).Sound a := by
  induction depth with
  | zero => exact ⟨fun _ _ _ _ _ _ => .diverge, fun _ _ _ _ _ _ => .diverge⟩
  | succ depth ih =>
    exact ⟨fun dllPath dllCharacteristics dllName _ _ h =>
        env.loadDll_keeps ih dllPath dllCharacteristics dllName h,
      fun dllHandle procedureName procedureNumber _ _ h =>
        env.getProcedureAddress_keeps ih dllHandle procedureName procedureNumber h⟩

end Env

end Ldk.Loader
