import Ldk.Lib.Command
import Ldk.Loader.State

/-!
# Loading and looking up procedures

`LdkLoadDll` and `LdkGetProcedureAddress` with the import resolver between them. Both call each
other: a load resolves imported procedures, and a forwarded export loads a module.

- `Env`: what the loader asks of the system. Every request may fail, a file may be read with
  another result each time.
- `Calls`: the two functions as the code between them calls them.
- `calls`: the two functions themselves, on a stack that is so many calls deep. A call that needs
  a deeper stack does not return.
- `Importing`: the loader together with the dependency list of the load in progress.
- `keep` marks the two places where a reference is left that nothing will drop.
-/

namespace Ldk.Loader

/-! ## The system -/

/-- A file as the checks of `LdkpLoadDll` see it. -/
structure DllFile where
  /-- `IMAGE_DOS_SIGNATURE` -/
  dosSignature : Bool
  /-- `IMAGE_NT_SIGNATURE` -/
  ntSignature : Bool
  /-- `IMAGE_FILE_MACHINE_I386` -/
  machineI386 : Bool
  /-- `IMAGE_FILE_MACHINE_AMD64` -/
  machineAmd64 : Bool
  /-- `IMAGE_FILE_DLL` -/
  dll : Bool
  /-- The outcome of `LdkpRelocateImage`. -/
  relocated : Except NtStatus Unit
  image : Image

/-- What the loader asks of the system and of code it only calls. -/
structure Env where
  /-- The outcome of a request: an allocation, or an attach that reports success. -/
  outcome : Nat → Bool
  /-- `RtlDosSearchPath_U` -/
  searchPath : Name → Name → Option Name
  /-- `RtlDosPathNameToNtPathName_U` -/
  ntPathName : Name → Option Name
  /-- `ZwOpenFile`, `ZwQueryInformationFile` and `ZwReadFile`. -/
  readFile : Nat → Name → Except NtStatus DllFile
  /-- `LdkpComputeDllPath` for a library that is loaded without flags. -/
  computeDllPath : Name → Except NtStatus Name
  /-- `RtlCharToInteger` to the base 10. -/
  charToInteger : Name → Except NtStatus Nat
  /-- `ProcessParameters->DllPath` -/
  dllPath : Name
  /-- `ProcessParameters->ImagePathName` -/
  imagePathName : Name
  /-- The driver image at `ImageBaseAddress`. -/
  image : Image

/-- `LDK_LOAD_DLL_DONT_RESOLVE_IMPORTS` and `LDK_LOAD_DLL_RESOURCE_ONLY` -/
structure Characteristics where
  dontResolveImports : Bool
  resourceOnly : Bool
  deriving DecidableEq, Repr

/-- Loader code. -/
abbrev Load := Command State NtStatus

/-- The loader and the dependency list of the image that is being loaded. -/
structure Importing where
  loader : State
  dependencyList : List Nat

/-- Loader code with a dependency list at hand. -/
abbrev Import := Command Importing NtStatus

/-- Loader code that leaves the dependency list alone. -/
def inLoader {α : Type} (c : Load α) : Import α :=
  Command.zoom Importing.loader (fun s t => { t with loader := s }) c

/-- Run code with an empty dependency list, and return the list with the outcome. -/
def collect {α : Type} (c : Import α) : Load (Except NtStatus α × List Nat) := fun s =>
  (c ⟨s, []⟩).map fun p => (.ok (p.1, p.2.dependencyList), p.2.loader)

/-- `LdkLoadDll` and `LdkGetProcedureAddress` as they are called. -/
structure Calls where
  loadDll : Option Name → Option Characteristics → Name → Load Handle
  getProcedureAddress : Handle → Option Name → Nat → Load Nat

/-- Auxiliary: note that a counted reference of the module is left. -/
def State.keep (s : State) : Handle → State
  | .imageBase => s
  | .module id => { s with kept := id :: s.kept }

/-- `LdkUnloadDll`, `FreeLibrary` -/
def unload (handle : Handle) : Load Unit := Command.change (·.unloadDll handle)

namespace Env

variable (env : Env)

/-- One request to the system. -/
def request : Load Bool := fun s => some (.ok (env.outcome s.tick), { s with tick := s.tick + 1 })

/-- A request without which the code fails with the status. -/
def require (status : NtStatus) : Load Unit := do
  if ← env.request then pure () else Command.fail status

/-! ## Procedures -/

section Bodies

variable (calls : Calls)

/-- `LoadLibraryW`: the status of a failure is not returned. -/
def loadLibraryW (libFileName : Name) : Load (Option Handle) := do
  if stricmp libFileName env.imagePathName then pure (some .imageBase)
  else
    match env.computeDllPath libFileName with
    | .error _ => pure none
    | .ok dllPath =>
      match ← Command.attempt
          (calls.loadDll (some dllPath) (some ⟨false, false⟩) libFileName) with
      | .error _ => pure none
      | .ok handle => pure (some handle)

/-- The procedure that the text of a forwarder names after its first dot. -/
def forwardProcedure (text : Name) : Except NtStatus (Option Name × Nat) :=
  match text with
  | '#' :: d :: digits => (env.charToInteger (d :: digits)).map fun number => (none, number)
  | _ => .ok (some text, 0)

/-- The forwarder path of `LdkGetProcedureAddress`. -/
def forward (text : Name) : Load Nat := do
  if '.' ∉ text then Command.fail .invalidImageFormat
  else
    env.require .insufficientResources
    match ← env.loadLibraryW calls (text.takeWhile (· ≠ '.')) with
    | none => Command.fail .unsuccessful
    | some module =>
      match env.forwardProcedure ((text.dropWhile (· ≠ '.')).drop 1) with
      | .error status =>
        unload module
        Command.fail status
      | .ok (procedureName, procedureNumber) =>
        match ← Command.attempt
            (calls.getProcedureAddress module procedureName procedureNumber) with
        | .error status =>
          unload module
          Command.fail status
        | .ok address =>
          -- The reference that `LoadLibraryW` took is left to nobody.
          Command.change (·.keep module)
          pure address

/-- The part of `LdkGetProcedureAddress` for an image. -/
def getImageProcedureAddress (image : Image) (procedureName : Option Name)
    (procedureNumber : Nat) : Load Nat :=
  match image.findExport procedureName procedureNumber with
  | .error status => Command.fail status
  | .ok .null => Command.fail .procedureNotFound
  | .ok (.address address) => pure address
  | .ok (.forwarder text) => env.forward calls text

/-- `LdkGetProcedureAddress` -/
def getProcedureAddress (dllHandle : Handle) (procedureName : Option Name)
    (procedureNumber : Nat) : Load Nat := do
  match dllHandle with
  | .imageBase => env.getImageProcedureAddress calls env.image procedureName procedureNumber
  | .module id =>
    match ← Command.read (State.get · id) with
    | none => Command.fail .invalidParameter -- Nothing is mapped at the address.
    | some m =>
      match m.image with
      | some image => env.getImageProcedureAddress calls image procedureName procedureNumber
      | none =>
        match procedureName with
        | none => Command.fail .procedureNotFound
        | some name =>
          match (m.functionTable.getD []).find? (stricmp ·.1 name) with
          | none => Command.fail .procedureNotFound
          | some function => pure function.2

/-- `LdkGetRoutineAddress`, with 0 for a null pointer. In a function table the last entry of the
name wins. -/
def getRoutineAddress (m : Module) (procedureName : Option Name) (procedureNumber : Nat) :
    Load Nat := do
  if m.image.isSome then
    match ← Command.attempt
        (calls.getProcedureAddress (.module m.id) procedureName procedureNumber) with
    | .error _ => pure 0
    | .ok address => pure address
  else
    match procedureName with
    | none => pure 0
    | some name =>
      pure ((m.functionTable.getD []).foldl (fun address f => if stricmp f.1 name then f.2
        else address) 0)

/-! ## Imports -/

/-- `LdkpAddModuleDependency` -/
def addModuleDependency (m : Module) (incrementLoadCount : Bool) : Import Unit := do
  if ! m.hasUnregistrable then pure ()
  else if (← Command.read Importing.dependencyList).contains m.id then
    -- A reference that was handed over for a module already on the list is left to nobody.
    if incrementLoadCount then pure () else inLoader (Command.change (·.keep (.module m.id)))
  else
    inLoader (env.require .insufficientResources)
    (if incrementLoadCount then
      inLoader (Command.change (·.referenceModuleLocked m.id false true))
    else pure ())
    Command.change fun t => { t with dependencyList := t.dependencyList ++ [m.id] }

/-- The part of `LdkpResolveImportModule` for a module that is not on the list under the name. -/
def loadImportModule (moduleName : Name) (dllPath : Option Name) : Import Module := do
  inLoader (env.require .insufficientResources)
  let dllHandle ← inLoader (calls.loadDll dllPath none moduleName)
  match ← inLoader (Command.read fun s =>
      s.getModuleByBase dllHandle <|> s.getModuleByName moduleName) with
  | none =>
    inLoader (unload dllHandle)
    Command.fail .notFound
  | some m =>
    match ← Command.attempt (env.addModuleDependency m false) with
    | .ok _ => pure m
    | .error status =>
      inLoader (unload (.module m.id))
      Command.fail status

/-- `LdkpResolveImportModule` -/
def resolveImportModule (moduleName : Name) (dllPath : Option Name) : Import Module := do
  match ← inLoader (Command.read (State.getModuleByName · moduleName)) with
  | some m =>
    env.addModuleDependency m true
    pure m
  | none => env.loadImportModule calls moduleName dllPath

/-- The thunks of a descriptor in `LdkpBuildImportDescriptors`. -/
def snapThunks (m : Module) : List Thunk → Import Unit
  | [] => pure ()
  | .ordinal number :: thunks => do
    let function ← inLoader (getRoutineAddress calls m none (number % 2 ^ 16))
    if function = 0 then Command.fail .ordinalNotFound else snapThunks m thunks
  | .name name :: thunks => do
    let function ← inLoader (getRoutineAddress calls m (some name) 0)
    if function = 0 then Command.fail .procedureNotFound else snapThunks m thunks

/-- `LdkpBuildImportDescriptors` -/
def buildImportDescriptors (dllPath : Option Name) : List ImportDescriptor → Import Unit
  | [] => pure ()
  | descriptor :: descriptors => do
    let m ← env.resolveImportModule calls descriptor.name dllPath
    snapThunks calls m descriptor.thunks
    buildImportDescriptors dllPath descriptors

/-- `LdkpBuildBoundImportDescriptors`. The import descriptors are walked from the one that bears
the bound name to the end. -/
def buildBoundImportDescriptors (imports : List ImportDescriptor) (dllPath : Option Name) :
    List Name → Import Unit
  | [] => pure ()
  | boundName :: boundNames => do
    let _ ← env.resolveImportModule calls boundName dllPath
    match imports.dropWhile (! stricmp ·.name boundName) with
    | [] => Command.fail .objectNameInvalid
    | descriptors =>
      env.buildImportDescriptors calls dllPath descriptors
      buildBoundImportDescriptors imports dllPath boundNames

/-- `LdkpWalkImportDescriptors` -/
def walkImportDescriptors (image : Image) (dllPath : Option Name) : Import Unit :=
  match image.boundImports with
  | some [] => Command.fail .unsuccessful
  | some boundNames => env.buildBoundImportDescriptors calls image.imports dllPath boundNames
  | none => env.buildImportDescriptors calls dllPath image.imports

/-! ## Loading -/

/-- `ZwOpenFile`, `ZwQueryInformationFile` and `ZwReadFile` -/
def openFile (fileName : Name) : Load DllFile := fun s =>
  some (env.readFile s.tick fileName, { s with tick := s.tick + 1 })

/-- The checks of `LdkpLoadDll` on the headers. -/
def validate (file : DllFile) : Except NtStatus Unit :=
  if ! file.dosSignature then .error .invalidImageNotMz
  else if ! file.ntSignature then .error .invalidImageFormat
  else if file.machineI386 then .error .invalidImageWin32
  else if ! file.machineAmd64 then .error .invalidImageFormat
  else if ! file.dll then .error .invalidImageFormat
  else .ok ()

/-- The part of `LdkpLoadDll` before the imports. -/
def mapImage (fileName : Name) : Load Image := do
  let file ← env.openFile fileName
  env.require .insufficientResources
  match validate file with
  | .error status => Command.fail status
  | .ok _ =>
    env.require .insufficientResources
    match file.relocated with
    | .error status => Command.fail status
    | .ok _ => pure file.image

/-- `LdkpLoadDll` -/
def ldkpLoadDll (fileName : Name) (dllPath : Option Name) (resolveImports : Bool) :
    Import Image := do
  let image ← inLoader (env.mapImage fileName)
  if resolveImports then
    env.walkImportDescriptors calls image dllPath
    pure image
  else pure image

/-- `LdkRegisterModule` -/
def registerModule (moduleName fullModuleName : Name) (image : Image) : Load Nat := do
  env.require .insufficientResources
  env.require .insufficientResources
  env.require .insufficientResources
  let module ← Command.read State.nextId
  Command.change fun s => s.insert (s.newModule moduleName fullModuleName image)
  pure module

/-- `LdkpInitializeModuleTls` -/
def initializeModuleTls (module : Nat) (image : Image) : Load Unit := do
  match image.tls with
  | none => pure ()
  | some directory =>
    if ! directory.valid then Command.fail .invalidImageFormat
    else
      match ← Command.read fun s => (List.range tlsSlotsSize).find? (· ∉ s.tlsBitmap) with
      | none => Command.fail .noMemory
      | some index =>
        Command.change fun s =>
          { s.update module fun m => { m with tlsIndex := some index } with
            tlsBitmap := Insert.insert index s.tlsBitmap }
        -- `LdkpInitializeStaticTlsForTeb`
        match ← Command.attempt (env.require .insufficientResources) with
        | .ok _ => pure ()
        | .error status =>
          Command.change fun s =>
            { s.update module fun m => { m with tlsIndex := none } with
              tlsBitmap := s.tlsBitmap.erase index }
          Command.fail status

/-- The lookup by base name at the start of `LdkLoadDll`: as it stands, then with the suffix.
Without memory for the ANSI name there is no lookup. -/
def referenceModuleByName (dllName : Name) (resourceOnly : Bool) : Load (Option Handle) := do
  if ! (← env.request) then pure none
  else
    match ← Command.read fun s =>
        s.getModuleByNameEx dllName resourceOnly <|>
          s.getModuleByNameEx (dllName ++ ['.', 'd', 'l', 'l']) resourceOnly with
    | none => pure none
    | some m =>
      Command.change (·.referenceModuleLocked m.id false true)
      pure (some (.module m.id))

/-- The file name that `LdkLoadDll` looks for: the full name by the search path, as an NT path. -/
def findFile (dllPath : Option Name) (dllName : Name) : Load Name := do
  env.require .insufficientResources
  match env.searchPath (dllPath.getD env.dllPath) dllName with
  | none => Command.fail .bufferTooSmall
  | some fullDllName =>
    -- A longer name needs a longer buffer.
    (if fullDllName.length + 1 > 4096 then env.require .insufficientResources else pure ())
    env.require .unsuccessful
    match env.ntPathName fullDllName with
    | none => Command.fail .unsuccessful
    | some ntFileName => pure ntFileName

/-- What follows the last backslash. -/
def baseName (path : Name) : Name := (path.reverse.takeWhile (· ≠ '\\')).reverse

/-- `LdkpCallEntryPoint` with `DLL_PROCESS_ATTACH`. -/
def callEntryPoint (image : Image) : Load Bool :=
  if image.hasEntryPoint then env.request else pure true

/-- The part of `LdkLoadDll` after the module has been registered. -/
def attachModule (module : Nat) (image : Image) : Load Handle := do
  match ← Command.attempt (env.initializeModuleTls module image) with
  | .error status =>
    unload (.module module)
    Command.fail status
  | .ok _ =>
    Command.change (·.update module fun m => { m with processAttached := true })
    if ← env.callEntryPoint image then pure (.module module)
    else
      unload (.module module)
      Command.fail .dllInitFailed

/-- The part of `LdkLoadDll` for a module that is not on the list under the name. -/
def loadNewModule (dllPath : Option Name) (resolveImports resourceOnly : Bool) (dllName : Name) :
    Load Handle := do
  let ntFileName ← env.findFile dllPath dllName
  match ← collect (env.ldkpLoadDll calls ntFileName dllPath resolveImports) with
  | (.error status, dependencies) =>
    Command.change (·.releaseModuleDependencies dependencies)
    Command.fail status
  | (.ok image, dependencies) =>
    match ← Command.attempt (env.registerModule (baseName ntFileName) ntFileName image) with
    | .error status =>
      Command.change (·.releaseModuleDependencies dependencies)
      Command.fail status
    | .ok module =>
      Command.change (·.update module fun m =>
        { m with
          resourceOnly := resourceOnly
          dependencyList := m.dependencyList ++ dependencies })
      if ! resourceOnly && resolveImports then env.attachModule module image
      else pure (.module module)

/-- `LdkLoadDll` -/
def loadDll (dllPath : Option Name) (dllCharacteristics : Option Characteristics)
    (dllName : Name) : Load Handle := do
  let resourceOnly := dllCharacteristics.any (·.resourceOnly)
  let resolveImports := ! (dllCharacteristics.any (·.dontResolveImports) || resourceOnly)
  match ← env.referenceModuleByName dllName resourceOnly with
  | some handle => pure handle
  | none => env.loadNewModule calls dllPath resolveImports resourceOnly dllName

end Bodies

/-- The two functions on a stack of the given depth. -/
def calls : Nat → Calls
  | 0 => ⟨fun _ _ _ => Command.diverge, fun _ _ _ => Command.diverge⟩
  | depth + 1 => ⟨env.loadDll (calls depth), env.getProcedureAddress (calls depth)⟩

/-! ## Thread notifications -/

/-- The modules that `LdkpReferenceProcessAttachedModuleSnapshot` collects. -/
def processAttached (s : State) : List Nat :=
  (s.modules.filter fun m => m.image.isSome && m.processAttached).map (·.id)

/-- `LdkpCallThreadNotifications`: the modules are referenced, called and released. -/
def callThreadNotifications : Load Unit := do
  let modules ← Command.read processAttached
  if modules.isEmpty then pure ()
  else
    if ! (← env.request) then pure ()
    else
      Command.change fun s =>
        modules.foldl (fun s id => s.referenceModuleLocked id false true) s
      -- The callbacks make no calls to the loader.
      Command.change fun s => modules.foldl (fun s id => s.unloadDll (.module id)) s

end Env

end Ldk.Loader
