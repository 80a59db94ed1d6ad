import Mathlib
import Ldk.Loader.Image

/-!
# Modules and the module list

The state of the loader: the module list with its load counts and dependency lists, and the
bitmap of TLS indexes.

- A module and its image base are one and the same here: both are named by the `id` of the module.
- Built-in modules (`KERNEL32.DLL`, `NTDLL.DLL` and so on) have a function table and no image.
  They are never counted and never leave the list.
- The logs `unregistered`, `kept` and `missed` are auxiliary: no code reads them.
-/

namespace Ldk.Loader

/-! ## Modules -/

/-- `MAXLONG` -/
def maxLong : Int := 2147483647

/-- `LDK_TLS_SLOTS_SIZE` -/
def tlsSlotsSize : Nat := 1024

/-- `LDK_MODULE` -/
structure Module where
  /-- Stands for the address of the record and for `Base`. -/
  id : Nat
  moduleName : Name
  fullPathName : Name
  functionTable : Option (List (Name × Nat))
  /-- The image at `Base`, when `Base` is not null. -/
  image : Option Image
  loadCount : Int
  pinned : Bool
  processAttached : Bool
  resourceOnly : Bool
  tlsIndex : Option Nat
  dependencyList : List Nat
  deriving DecidableEq, Repr

/-- `LDK_MODULE_HAS_UNREGISTRABLE`, which holds of the modules that can be unregistered. -/
def Module.hasUnregistrable (m : Module) : Bool := m.functionTable.isNone

/-- The load count of the module is kept up: it is dynamic and not pinned. -/
def Module.counted (m : Module) : Bool := m.hasUnregistrable && !m.pinned

/-- `Module->Base ? Module->Base : (PVOID)Module`, or the base of the driver image. -/
inductive Handle where
  | imageBase
  | module (id : Nat)
  deriving DecidableEq, Repr

/-- The loader. -/
structure State where
  /-- `ModuleListHead` -/
  modules : List Module
  /-- The bits that are set in `TlsBitmap`. -/
  tlsBitmap : Finset Nat
  /-- The next record to be allocated. -/
  nextId : Nat
  /-- The number of requests to the system so far. -/
  tick : Nat
  /-- Auxiliary: modules that have been unregistered. -/
  unregistered : List Nat
  /-- Auxiliary: references that are counted and that nothing will drop. -/
  kept : List Nat
  /-- Auxiliary: references that are not counted since the load count was at `MAXLONG`. -/
  missed : List Nat
  deriving DecidableEq

namespace State

variable (s : State)

/-- The record of a module on the list. -/
def get (id : Nat) : Option Module := s.modules.find? (·.id == id)

variable {s} in
theorem get_some {id : Nat} {m : Module} (h : s.get id = some m) : m ∈ s.modules ∧ m.id = id :=
  ⟨List.mem_of_find?_eq_some h, by simpa using List.find?_some h⟩

/-- Change the record of a module on the list. -/
def update (id : Nat) (f : Module → Module) : State :=
  { s with modules := s.modules.map fun m => if m.id = id then f m else m }

/-- `RemoveEntryList` -/
def remove (id : Nat) : State :=
  { s with
    modules := s.modules.filter (·.id ≠ id)
    unregistered := id :: s.unregistered }

/-! ## Looking for a module -/

/-- `LdkpGetModuleByNameEx` -/
def getModuleByNameEx (moduleName : Name) (resourceOnly : Bool) : Option Module :=
  s.modules.find? fun m => m.resourceOnly == resourceOnly && stricmp m.moduleName moduleName

/-- `LdkGetModuleByName` -/
def getModuleByName (moduleName : Name) : Option Module := s.getModuleByNameEx moduleName false

/-- `LdkGetModuleByBase`: the handle of a built-in module is no image base. -/
def getModuleByBase : Handle → Option Module
  | .imageBase => none
  | .module id => (s.get id).filter (·.image.isSome)

/-- The module of a handle, by its base or by the address of its record. -/
def getModuleByHandle : Handle → Option Module
  | .imageBase => none
  | .module id => s.get id

/-! ## References -/

end State

/-- What `LdkpReferenceModuleLocked` makes of the record. -/
def Module.reference (m : Module) (pin incrementLoadCount : Bool) : Module :=
  if ! m.hasUnregistrable then m
  else
    let m := if pin then { m with pinned := true } else m
    if incrementLoadCount && !m.pinned && m.loadCount < maxLong then
      { m with loadCount := m.loadCount + 1 }
    else m

/-- The load count of the module cannot go up any more. -/
def Module.saturated (m : Module) : Bool := m.counted && !(m.loadCount < maxLong)

namespace State

variable (s : State)

/-- `LdkpReferenceModuleLocked` -/
def referenceModuleLocked (id : Nat) (pin incrementLoadCount : Bool) : State :=
  { s.update id (·.reference pin incrementLoadCount) with
    missed :=
      if incrementLoadCount && !pin && (s.get id).any (·.saturated) then id :: s.missed
      else s.missed }

/-- `LdkpUninitializeModuleTls` of a module that is off the list. -/
def uninitializeModuleTls (m : Module) : State :=
  match m.tlsIndex with
  | none => s
  | some index => { s with tlsBitmap := s.tlsBitmap.erase index }

/-- What `LdkpUnregisterModule` does for a module with an image. -/
def freeImage (m : Module) : State :=
  if m.image.isSome then s.uninitializeModuleTls m else s

/-- `LdkUnloadDll`. Its recursion, through `LdkpUnregisterModule` and
`LdkpReleaseModuleDependencies`, goes on only when a module has left the list. -/
def unloadWithin : Nat → State → Handle → State
  | 0, s, _ => s
  | n + 1, s, handle =>
    match s.getModuleByHandle handle with
    | none => s
    | some m =>
      if m.counted then
        if m.loadCount > 1 then
          s.update m.id fun m => { m with loadCount := m.loadCount - 1 }
        else
          -- The module is off the list before its dependencies are released, the last one first.
          m.dependencyList.foldr (fun id s => unloadWithin n s (.module id))
            ((s.remove m.id).freeImage m)
      else s

/-- `LdkUnloadDll` -/
def unloadDll (handle : Handle) : State := unloadWithin s.modules.length s handle

/-- `LdkpReleaseModuleDependencies` -/
def releaseModuleDependencies (dependencyList : List Nat) : State :=
  dependencyList.foldr (fun id s => s.unloadDll (.module id)) s

/-- The record that `LdkRegisterModule` fills in. -/
def newModule (moduleName fullModuleName : Name) (image : Image) : Module where
  id := s.nextId
  moduleName := moduleName
  fullPathName := fullModuleName
  functionTable := none
  image := some image
  loadCount := 1
  pinned := false
  processAttached := false
  resourceOnly := false
  tlsIndex := none
  dependencyList := []

/-- `InsertTailList` of a new record. -/
def insert (m : Module) : State :=
  { s with modules := s.modules ++ [m], nextId := s.nextId + 1 }

end State

/-- A module that LDK itself provides. -/
structure BuiltIn where
  moduleName : Name
  fullPathName : Name
  functionTable : List (Name × Nat)

/-- The record of a module that LDK itself provides. -/
def BuiltIn.module (m : BuiltIn) (id : Nat) : Module where
  id := id
  moduleName := m.moduleName
  fullPathName := m.fullPathName
  functionTable := some m.functionTable
  image := none
  loadCount := 0
  pinned := false
  processAttached := false
  resourceOnly := false
  tlsIndex := none
  dependencyList := []

/-- The module list of `LdkpInitializePeb`. -/
def State.initial (builtIn : List BuiltIn) : State where
  modules := builtIn.mapIdx fun id m => m.module id
  tlsBitmap := ∅
  nextId := builtIn.length
  tick := 0
  unregistered := []
  kept := []
  missed := []

end Ldk.Loader
