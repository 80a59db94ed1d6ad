import Mathlib
import Ldk.Lib.TransitionSystem
import Ldk.Nls.DateTime

/-!
# Tables of code pages

`LdkpGetCodePageTable` of `winnls.c` and what it calls, with `LdkpInitializeNls` and
`LdkpTerminateNls`, for any number of calls at once. A table that has been loaded stays in a list;
a call looks for it there, loads the file of the page when it is not found, and looks again before
it puts its own entry into the list.

- Each section under `LdkpCodePageListResource` is one step, and so is each request to the file
  system or to the heap. What a call frees on its way out is freed with the step before.
- The address of a new block is free, and may have been that of a block before.
- `RtlInitCodePageTable` belongs to the kernel. Of a table only its code page matters here, which is
  a function of the data.
- LDK terminates when no call is under way. What a call has returned before that is of an earlier
  generation.
-/

namespace Ldk.CodePages

open TransitionSystem OutputBuffer Nls

/-! ## Names of files -/

/-- `L"\\SystemRoot\\System32\\C_"` -/
def codePageFilePrefix : List WCHAR :=
  ['\\', 'S', 'y', 's', 't', 'e', 'm', 'R', 'o', 'o', 't', '\\', 'S', 'y', 's', 't', 'e', 'm', '3',
    '2', '\\', 'C', '_'].map letter

/-- `L".NLS"` -/
def codePageFileExtension : List WCHAR := ['.', 'N', 'L', 'S'].map letter

/-- `LdkpBuildCodePageFileName`, over the array on the stack. -/
def ldkpBuildCodePageFileName (codePage : Nat) (path : List WCHAR) :
    Except Fault (Bool × Output) := do
  let buffer ← inside (put path 0 [0])
  let (built, o) ← ldkpAppendString ⟨buffer, 0, path.length⟩ (some codePageFilePrefix)
  if built then
    let (built, o) ← ldkpAppendNumber o codePage
    if built then ldkpAppendString o (some codePageFileExtension)
    else return (false, o)
  else return (false, o)

/-! ## The pages that stand for others -/

/-- `NLS_CP_ALGORITHM_RANGE` -/
def nlsCpAlgorithmRange : Nat := 60000

/-- What the kernel has set: `*NlsAnsiCodePage` and `*NlsOemCodePage`. -/
structure SystemCodePages where
  nlsAnsiCodePage : Nat
  nlsOemCodePage : Nat
  deriving DecidableEq, Repr

/-- `LdkpGetMacCodePage` -/
def ldkpGetMacCodePage (ldkpSystemLocale : Nat) : Nat :=
  let langId := ldkpSystemLocale % 0x10000
  let primaryLangId := langId % 0x400
  let subLangId := langId / 0x400
  match primaryLangId with
  | 0x01 => 10004
  | 0x04 => if subLangId = 0x02 then 10008 else 10002
  | 0x08 => 10006
  | 0x0d => 10005
  | 0x11 => 10001
  | 0x12 => 10003
  | 0x19 => 10007
  | 0x1e => 10021
  | _ => 10000

/-- `LdkpResolveCodePage` -/
def ldkpResolveCodePage (pages : SystemCodePages) (ldkpSystemLocale codePage : Nat) : Nat :=
  match codePage with
  | 0 | 3 => pages.nlsAnsiCodePage
  | 1 => pages.nlsOemCodePage
  | 2 => ldkpGetMacCodePage ldkpSystemLocale
  | codePage => codePage

/-! ## The state -/

/-- The failures that are told apart. -/
inductive Status where
  | objectNameNotFound
  | objectPathNotFound
  | noSuchFile
  | invalidParameter
  | noMemory
  | other (code : Nat)
  deriving DecidableEq, Repr

/-- `LdkpIsMissingCodePageFileStatus` -/
def ldkpIsMissingCodePageFileStatus (status : Status) : Bool :=
  status = .objectNameNotFound || status = .objectPathNotFound || status = .noSuchFile

/-- What `LdkpLoadCodePageEntry` makes of the failure of `LdkpReadCodePageFile`. -/
def loadStatus (status : Status) : Status :=
  if ldkpIsMissingCodePageFileStatus status then .invalidParameter else status

/-- `LDK_CODE_PAGE_ENTRY`, with its address. -/
structure Entry where
  address : Nat
  codePage : Nat
  data : Nat
  deriving DecidableEq, Repr

/-- The two blocks that `LdkpFreeCodePageEntry` frees. -/
def Entry.blocks (e : Entry) : List Nat := [e.data, e.address]

/-- What a block of the heap is for. -/
inductive Block where
  /-- The contents of a file, once they are read. The name of the file is auxiliary. -/
  | data (name : List WCHAR) (contents : Option (List UInt8))
  | entry
  deriving DecidableEq, Repr

/-- How far a call has come. -/
inductive Stage where
  | notCalled
  /-- At the shared lock. -/
  | searching (codePage : Nat)
  /-- At `ZwOpenFile`. -/
  | opening (codePage : Nat)
  /-- At `ZwQueryInformationFile`. -/
  | querying (codePage : Nat) (name : List WCHAR)
  /-- At `RtlAllocateHeap` for the contents. -/
  | allocatingData (codePage : Nat) (name : List WCHAR) (size : Nat)
  /-- At `ZwReadFile`. -/
  | reading (codePage : Nat) (name : List WCHAR) (size data : Nat)
  /-- At `RtlAllocateHeap` for the entry. -/
  | allocatingEntry (codePage data : Nat)
  /-- At `RtlInitCodePageTable`. -/
  | initializing (e : Entry)
  /-- At the exclusive lock. -/
  | inserting (e : Entry)
  /-- The address of the entry is returned, for a page. The generation is auxiliary. -/
  | returned (generation codePage table : Nat)
  | failed (status : Status)
  deriving DecidableEq, Repr

structure State (κ : Type) where
  /-- `LdkpCodePageListInitialized` -/
  initialized : Bool
  /-- `LdkpSystemLocale` -/
  systemLocale : Nat
  /-- `LdkpCodePageListHead` -/
  list : List Entry
  heap : Nat → Option Block
  stage : κ → Stage
  /-- Whether the call has a handle of a file. -/
  opened : κ → Bool
  /-- Auxiliary: how often LDK has terminated. -/
  generation : Nat
  /-- Auxiliary: a block was used or freed that was not there. -/
  faulted : Bool

variable {κ : Type} [DecidableEq κ]

def initialState : State κ where
  initialized := false
  systemLocale := 0
  list := []
  heap _ := none
  stage _ := .notCalled
  opened _ := false
  generation := 0
  faulted := false

namespace State

variable (s : State κ) (c : κ)

def goto (stage : Stage) : State κ := { s with stage := Function.update s.stage c stage }

/-- A block is allocated, or filled. -/
def store (a : Nat) (block : Block) : State κ :=
  { s with heap := Function.update s.heap a (some block) }

/-- `RtlFreeHeap` -/
def free (a : Nat) : State κ :=
  { s with heap := Function.update s.heap a none, faulted := s.faulted || (s.heap a).isNone }

/-- `ZwClose` -/
def close : State κ := { s with opened := Function.update s.opened c false }

/-- `LdkpFreeCodePageEntry` -/
def ldkpFreeCodePageEntry (e : Entry) : State κ := (s.free e.data).free e.address

/-- `LdkpFindCodePageEntryLocked` -/
def ldkpFindCodePageEntryLocked (codePage : Nat) : Option Entry :=
  s.list.find? fun e => e.codePage = codePage

/-! ## LdkpGetCodePageTable -/

/-- `LdkpGetCodePageTable`, up to the lock. -/
def getCodePageTable (pages : SystemCodePages) (codePage : Nat) : State κ :=
  if !s.initialized || nlsCpAlgorithmRange ≤ codePage then s.goto c (.failed .invalidParameter)
  else
    let codePage := ldkpResolveCodePage pages s.systemLocale codePage
    if nlsCpAlgorithmRange ≤ codePage then s.goto c (.failed .invalidParameter)
    else s.goto c (.searching codePage)

/-- The section under the shared lock. -/
def search : State κ :=
  match s.stage c with
  | .searching codePage =>
    match s.ldkpFindCodePageEntryLocked codePage with
    | some e => s.goto c (.returned s.generation codePage e.address)
    | none => s.goto c (.opening codePage)
  | _ => s

/-- The name is built on the stack, and the file is opened. -/
def openFile (path : List WCHAR) (status : Option Status) : State κ :=
  match s.stage c with
  | .opening codePage =>
    match ldkpBuildCodePageFileName codePage path with
    | .ok (true, o) =>
      match status with
      | some status => s.goto c (.failed (loadStatus status))
      | none => { s with opened := Function.update s.opened c true }.goto c
          (.querying codePage (stringAt o.buffer))
    | .ok (false, _) => s.goto c (.failed .invalidParameter)
    | .error _ => { s with faulted := true }
  | _ => s

/-- `StandardInfo.EndOfFile` is there, and is looked at. -/
def queryFile (endOfFile : Except Status Nat) : State κ :=
  match s.stage c with
  | .querying codePage name =>
    match endOfFile with
    | .error status => (s.close c).goto c (.failed (loadStatus status))
    | .ok size =>
      if 2 ^ 32 ≤ size ∨ size < 2 then (s.close c).goto c (.failed .invalidParameter)
      else s.goto c (.allocatingData codePage name size)
  | _ => s

def allocateData (address : Option Nat) : State κ :=
  match s.stage c with
  | .allocatingData codePage name size =>
    match address with
    | none => (s.close c).goto c (.failed .noMemory)
    | some data => (s.store data (.data name none)).goto c (.reading codePage name size data)
  | _ => s

/-- The contents are read, and the file is closed. -/
def readFile (contents : Except Status (List UInt8)) : State κ :=
  match s.stage c with
  | .reading codePage name _ data =>
    match contents with
    | .error status => ((s.free data).close c).goto c (.failed (loadStatus status))
    | .ok contents => ((s.store data (.data name (some contents))).close c).goto c
        (.allocatingEntry codePage data)
  | _ => s

def allocateEntry (address : Option Nat) : State κ :=
  match s.stage c with
  | .allocatingEntry codePage data =>
    match address with
    | none => (s.free data).goto c (.failed .noMemory)
    | some a => (s.store a .entry).goto c (.initializing ⟨a, codePage, data⟩)
  | _ => s

/-- The table is made of the data, and its code page is looked at. -/
def initTable (tableCodePage : List UInt8 → Nat) : State κ :=
  match s.stage c with
  | .initializing e =>
    match s.heap e.data with
    | some (.data _ (some contents)) =>
      if tableCodePage contents ≠ e.codePage then
        (s.ldkpFreeCodePageEntry e).goto c (.failed .invalidParameter)
      else s.goto c (.inserting e)
    | _ => { s with faulted := true }
  | _ => s

/-- The section under the exclusive lock. -/
def insert : State κ :=
  match s.stage c with
  | .inserting e =>
    match s.ldkpFindCodePageEntryLocked e.codePage with
    | some existingEntry => (s.ldkpFreeCodePageEntry e).goto c
        (.returned s.generation e.codePage existingEntry.address)
    | none => { s with list := s.list ++ [e] }.goto c
        (.returned s.generation e.codePage e.address)
  | _ => s

/-! ## Initialization -/

/-- The loop of `LdkpTerminateNls`. -/
def freeEntries : State κ → List Entry → State κ
  | s, [] => s
  | s, e :: list => freeEntries (s.ldkpFreeCodePageEntry e) list

/-- `LdkpTerminateNls` -/
def ldkpTerminateNls : State κ :=
  if s.initialized then
    { s.freeEntries s.list with
      list := [], initialized := false, generation := s.generation + 1 }
  else s

/-- `LdkpInitializeNls`, with what `ExInitializeResourceLite` and `ZwQueryDefaultLocale` return. -/
def ldkpInitializeNls (resource : Bool) (locale : Option Nat) : State κ :=
  let s := { s with list := [] }
  if resource then
    let s := { s with initialized := true }
    match locale with
    | some locale => { s with systemLocale := locale }
    | none => s.ldkpTerminateNls
  else s

end State

/-! ## Steps -/

inductive Action (κ : Type) where
  | initializeNls (resource : Bool) (locale : Option Nat)
  | terminateNls
  | getCodePageTable (c : κ) (codePage : Nat)
  | search (c : κ)
  | openFile (c : κ) (path : List WCHAR) (status : Option Status)
  | queryFile (c : κ) (endOfFile : Except Status Nat)
  | allocateData (c : κ) (address : Option Nat)
  | readFile (c : κ) (contents : Except Status (List UInt8))
  | allocateEntry (c : κ) (address : Option Nat)
  | initTable (c : κ)
  | insert (c : κ)

/-- The call has not begun, or is over. -/
def Stage.idle : Stage → Bool
  | .notCalled | .returned _ _ _ | .failed _ => true
  | _ => false

/-- An address that the heap may give. -/
def State.Fresh (s : State κ) (address : Option Nat) : Prop := ∀ a ∈ address, s.heap a = none

/-- When a step may be taken. `RTL_NUMBER_OF(PathBuffer)` is 64. -/
def enabled (s : State κ) : Action κ → Prop
  | .initializeNls _ _ => s.initialized = false
  | .terminateNls => ∀ c, (s.stage c).idle = true
  | .getCodePageTable c _ => (s.stage c).idle = true
  | .openFile _ path _ => path.length = 64
  | .allocateData _ address | .allocateEntry _ address => s.Fresh address
  | .search _ | .queryFile _ _ | .readFile _ _ | .initTable _ | .insert _ => True

instance [Fintype κ] (s : State κ) (a : Action κ) : Decidable (enabled s a) := by
  cases a <;> unfold enabled <;> try unfold State.Fresh
  all_goals infer_instance

def next (pages : SystemCodePages) (tableCodePage : List UInt8 → Nat) (s : State κ) :
    Action κ → State κ
  | .initializeNls resource locale => s.ldkpInitializeNls resource locale
  | .terminateNls => s.ldkpTerminateNls
  | .getCodePageTable c codePage => s.getCodePageTable c pages codePage
  | .search c => s.search c
  | .openFile c path status => s.openFile c path status
  | .queryFile c endOfFile => s.queryFile c endOfFile
  | .allocateData c address => s.allocateData c address
  | .readFile c contents => s.readFile c contents
  | .allocateEntry c address => s.allocateEntry c address
  | .initTable c => s.initTable c tableCodePage
  | .insert c => s.insert c

/-- The list of code pages, and any number of calls. -/
def codePages (pages : SystemCodePages) (tableCodePage : List UInt8 → Nat) (κ : Type)
    [DecidableEq κ] : System (State κ) (Action κ) where
  init s := s = initialState
  enabled := enabled
  next := next pages tableCodePage

instance (pages : SystemCodePages) (tableCodePage : List UInt8 → Nat) [Fintype κ] (s : State κ)
    (a : Action κ) : Decidable ((codePages pages tableCodePage κ).enabled s a) :=
  inferInstanceAs (Decidable (enabled s a))

end Ldk.CodePages
