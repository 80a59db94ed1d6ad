import Mathlib
import Ldk.Lib.Linearization
import Ldk.Lib.TransitionSystem
import Ldk.UnicodeString

/-!
# The directories that DLLs are searched in

`SetDllDirectoryW`, `GetDllDirectoryW`, `AddDllDirectory` and `RemoveDllDirectory` of `processenv.c`
with the snapshot that `LdkpDuplicateUserDllDirectories` takes of the same data, for any number of
calls at once, up to the end of the PEB.

- Strings are duplicated and freed outside the PEB lock, but for the duplicate that
  `GetDllDirectoryW` makes. Each section under the lock is one step, and so is each other request to
  the pool or to the heap; what is freed in a row is freed one by one.
- A block of memory has an address that is free when it is allocated, and may have been that of a
  block before: the cookie of a directory may be that of an earlier one.
- What the loader makes of the snapshot is in `Ldk.Loader.DllPath`.
- `SetDllDirectoryA` differs in the conversion of its argument alone.
-/

namespace Ldk.DllDirectories

open TransitionSystem Linearization

/-! ## What the directories are for -/

/-- The directory that was set, and those that were added and not removed, with their cookies. -/
structure Directories where
  current : List WCHAR
  added : List (Nat × List WCHAR)
  deriving DecidableEq, Repr

inductive Operation where
  | set (path : List WCHAR)
  | get
  | add (cookie : Nat) (path : List WCHAR)
  | remove (cookie : Nat)
  | snapshot
  deriving DecidableEq, Repr

inductive Answer where
  | done
  | text (path : List WCHAR)
  | found (found : Bool)
  | texts (paths : List (List WCHAR))
  deriving DecidableEq, Repr

/-- One operation after the other. -/
def Directories.apply (d : Directories) : Operation → Answer × Directories
  | .set path => (.done, { d with current := path })
  | .get => (.text d.current, d)
  | .add cookie path => (.done, { d with added := d.added ++ [(cookie, path)] })
  | .remove cookie =>
    if cookie ∈ d.added.map Prod.fst then
      (.found true, { d with added := d.added.eraseP fun entry => entry.1 = cookie })
    else (.found false, d)
  | .snapshot => (.texts (d.current :: d.added.map Prod.snd), d)

/-- No directory is set at first, and none is added. -/
def directories : Object Directories Operation Answer where
  init := ⟨[], []⟩
  apply := Directories.apply

/-! ## Paths -/

def backslash : WCHAR := 0x5c

def slash : WCHAR := 0x2f

def colon : WCHAR := 0x3a

def questionMark : WCHAR := 0x3f

/-- `LdkpIsDirectorySeparator` -/
def ldkpIsDirectorySeparator (character : WCHAR) : Bool :=
  character = backslash || character = slash

/-- `LdkpIsFullyQualifiedDllDirectory`, for the characters before the null. -/
def ldkpIsFullyQualifiedDllDirectory (path : List WCHAR) : Bool :=
  let path :=
    if path.take 4 = [backslash, questionMark, questionMark, backslash] then path.drop 4 else path
  match path with
  | [] | [_] => false
  | first :: second :: rest =>
    (ldkpIsDirectorySeparator first && ldkpIsDirectorySeparator second) ||
      (second = colon && rest.head?.any ldkpIsDirectorySeparator)

/-- `RtlInitUnicodeString`: the characters that are counted. -/
def rtlInitUnicodeString (string : List WCHAR) : List WCHAR := string.take 0x7ffe

/-! ## The state -/

/-- `UNICODE_STRING`; the length is in characters. -/
structure UnicodeString where
  buffer : Option Nat
  length : Nat
  deriving DecidableEq, Repr

/-- `LDK_DLL_DIRECTORY`, with its address, which is the cookie. -/
structure Directory where
  address : Nat
  path : UnicodeString
  deriving DecidableEq, Repr

inductive Block where
  /-- The characters of a string, with the null behind them. -/
  | string (characters : List WCHAR)
  | directory
  deriving DecidableEq, Repr

/-- The errors that are told apart. -/
inductive Failure where
  | invalidParameter
  | nameTooLong
  | insufficientResources
  | noMemory
  deriving DecidableEq, Repr

/-- What a call returns. -/
inductive Outcome where
  | failed (error : Failure)
  /-- `TRUE` -/
  | succeeded
  | cookie (cookie : Nat)
  /-- The result of `GetDllDirectoryW`, with what is in the buffer. -/
  | length (result : Nat) (lpBuffer : Option (List WCHAR))
  | paths (paths : List (List WCHAR))
  deriving DecidableEq, Repr

/-- What a call was asked for. -/
inductive Request where
  | set (pathName : Option (List WCHAR))
  | add (newDirectory : List WCHAR)
  | remove (cookie : Nat)
  | get (nBufferLength : Nat) (lpBuffer : Option (List WCHAR))
  | snapshot
  deriving DecidableEq, Repr

/-- How far a call has come. -/
inductive Stage where
  | notCalled
  /-- `LdkpSetDllDirectory` at `LdkAllocateUnicodeString`. -/
  | duplicating (path : List WCHAR)
  /-- `LdkpSetDllDirectory` at the lock. -/
  | swapping (newDirectory : UnicodeString)
  /-- `AddDllDirectory` at `RtlAllocateHeap`. -/
  | allocating (path : List WCHAR)
  /-- `AddDllDirectory` at `LdkAllocateUnicodeString`. -/
  | copying (path : List WCHAR) (directory : Nat)
  /-- `AddDllDirectory` at the lock. -/
  | inserting (directory : Directory)
  /-- `RemoveDllDirectory` at the lock. -/
  | removing (cookie : Nat)
  /-- `GetDllDirectoryW` at the lock. -/
  | getting (nBufferLength : Nat) (lpBuffer : Option (List WCHAR))
  /-- `GetDllDirectoryW` behind the lock, with the duplicate. -/
  | delivering (nBufferLength : Nat) (lpBuffer : Option (List WCHAR)) (directory : UnicodeString)
  /-- `LdkpDuplicateUserDllDirectories` at the lock. -/
  | snapshotting
  /-- With what is still to be freed. -/
  | freeing (blocks : List Nat) (outcome : Outcome)
  | returned (outcome : Outcome)
  deriving DecidableEq, Repr

structure State (κ : Type) where
  /-- `NtCurrentPeb()->DllDirectory` -/
  dllDirectory : UnicodeString
  /-- `NtCurrentPeb()->DllDirectoryListHead` -/
  dllDirectoryList : List Directory
  heap : Nat → Option Block
  stage : κ → Stage
  /-- The PEB has come to its end. -/
  ended : Bool
  /-- Auxiliary: a block was used or freed that was not there. -/
  faulted : Bool
  /-- Auxiliary: the operations of the sections under the lock, in their order. -/
  log : List Operation
  /-- Auxiliary: the operation of a call, once it has been under the lock. -/
  effects : κ → Option (Effect Operation Answer)
  /-- Auxiliary: what the call was asked for. -/
  request : κ → Option Request

variable {κ : Type} [DecidableEq κ]

def initialState : State κ where
  dllDirectory := ⟨none, 0⟩
  dllDirectoryList := []
  heap _ := none
  stage _ := .notCalled
  ended := false
  faulted := false
  log := []
  effects _ := none
  request _ := none

/-- The characters of a string. A block that is no string has none. -/
def UnicodeString.text (heap : Nat → Option Block) (u : UnicodeString) : List WCHAR :=
  match u.buffer.bind heap with
  | some (.string characters) => characters.take u.length
  | _ => []

namespace State

variable (s : State κ) (c : κ)

def goto (stage : Stage) : State κ := { s with stage := Function.update s.stage c stage }

def store (a : Nat) (block : Block) : State κ :=
  { s with heap := Function.update s.heap a (some block) }

/-- `ExFreePoolWithTag`, `RtlFreeHeap` -/
def free (a : Nat) : State κ :=
  { s with heap := Function.update s.heap a none, faulted := s.faulted || (s.heap a).isNone }

/-- What the PEB says, in terms of texts. -/
def abstract : Directories where
  current := s.dllDirectory.text s.heap
  added := s.dllDirectoryList.map fun d => (d.address, d.path.text s.heap)

/-- The call begins. -/
def call (request : Request) : State κ :=
  { s with request := Function.update s.request c (some request) }

/-- The operation of the call has taken effect. -/
def commit (operation : Operation) : State κ :=
  { s with
    log := s.log ++ [operation]
    effects := Function.update s.effects c
      (some ⟨operation, (s.abstract.apply operation).1, s.log.length⟩) }

/-! ## SetDllDirectoryW -/

/-- `LdkpSetDllDirectory`, up to the allocation of `LdkpDuplicateDllDirectoryString`. -/
def setDllDirectory (pathName : Option (List WCHAR)) : State κ :=
  let s := s.call c (.set pathName)
  match pathName.map rtlInitUnicodeString with
  | none | some [] => s.goto c (.swapping ⟨none, 0⟩)
  | some path =>
    if 0xffff - 2 < 2 * path.length then s.goto c (.returned (.failed .nameTooLong))
    else s.goto c (.duplicating path)

/-- The string is duplicated. -/
def duplicate (address : Option Nat) : State κ :=
  match s.stage c with
  | .duplicating path =>
    match address with
    | none => s.goto c (.returned (.failed .insufficientResources))
    | some a => (s.store a (.string (path ++ [0]))).goto c (.swapping ⟨some a, path.length⟩)
  | _ => s

/-- The section of `LdkpSetDllDirectory`. -/
def swap : State κ :=
  match s.stage c with
  | .swapping newDirectory =>
    let oldDirectory := s.dllDirectory
    { s.commit c (.set (newDirectory.text s.heap)) with dllDirectory := newDirectory }.goto c
      (.freeing oldDirectory.buffer.toList .succeeded)
  | _ => s

/-! ## AddDllDirectory -/

def addDllDirectory (newDirectory : List WCHAR) : State κ :=
  let s := s.call c (.add newDirectory)
  if ldkpIsFullyQualifiedDllDirectory newDirectory then
    s.goto c (.allocating (rtlInitUnicodeString newDirectory))
  else s.goto c (.returned (.failed .invalidParameter))

def allocateDirectory (address : Option Nat) : State κ :=
  match s.stage c with
  | .allocating path =>
    match address with
    | none => s.goto c (.returned (.failed .noMemory))
    | some a => (s.store a .directory).goto c (.copying path a)
  | _ => s

/-- `LdkpDuplicateDllDirectoryString`, for a directory. -/
def copyPath (address : Option Nat) : State κ :=
  match s.stage c with
  | .copying path directory =>
    match path with
    | [] => s.goto c (.inserting ⟨directory, ⟨none, 0⟩⟩)
    | path =>
      if 0xffff - 2 < 2 * path.length then
        s.goto c (.freeing [directory] (.failed .nameTooLong))
      else
        match address with
        | none => s.goto c (.freeing [directory] (.failed .insufficientResources))
        | some a => (s.store a (.string (path ++ [0]))).goto c
            (.inserting ⟨directory, ⟨some a, path.length⟩⟩)
  | _ => s

/-- The section of `AddDllDirectory`. -/
def insert : State κ :=
  match s.stage c with
  | .inserting directory =>
    { s.commit c (.add directory.address (directory.path.text s.heap)) with
      dllDirectoryList := s.dllDirectoryList ++ [directory] }.goto c
      (.returned (.cookie directory.address))
  | _ => s

/-! ## RemoveDllDirectory -/

def removeDllDirectory (cookie : Nat) : State κ :=
  let s := s.call c (.remove cookie)
  if cookie = 0 then s.goto c (.returned (.failed .invalidParameter))
  else s.goto c (.removing cookie)

/-- The section of `RemoveDllDirectory`. -/
def remove : State κ :=
  match s.stage c with
  | .removing cookie =>
    match s.dllDirectoryList.find? fun d => d.address = cookie with
    | some directory =>
      { s.commit c (.remove cookie) with
        dllDirectoryList := s.dllDirectoryList.eraseP fun d => d.address = cookie }.goto c
        (.freeing (directory.path.buffer.toList ++ [directory.address]) .succeeded)
    | none => (s.commit c (.remove cookie)).goto c (.returned (.failed .invalidParameter))
  | _ => s

/-! ## GetDllDirectoryW -/

/-- What `GetDllDirectoryW` makes of the text, in a buffer that the caller says has
`nBufferLength` characters. -/
def getResult (nBufferLength : Nat) (lpBuffer : Option (List WCHAR)) (text : List WCHAR) :
    Outcome :=
  let length := text.length
  let required := length + 1
  if nBufferLength = 0 then .length required lpBuffer
  else
    match lpBuffer with
    | none => .failed .invalidParameter
    | some buffer =>
      if length = 0 then .length 0 (some (0 :: buffer.drop 1))
      else if nBufferLength ≤ length then .length required (some (0 :: buffer.drop 1))
      else .length length (some (text ++ 0 :: buffer.drop (length + 1)))

def getDllDirectory (nBufferLength : Nat) (lpBuffer : Option (List WCHAR)) : State κ :=
  (s.call c (.get nBufferLength lpBuffer)).goto c (.getting nBufferLength lpBuffer)

/-- The section of `GetDllDirectoryW`, with `LdkDuplicateUnicodeString` in it. -/
def get (address : Option Nat) : State κ :=
  match s.stage c with
  | .getting nBufferLength lpBuffer =>
    if s.dllDirectory.length = 0 then
      (s.commit c .get).goto c (.delivering nBufferLength lpBuffer ⟨none, 0⟩)
    else
      match address with
      | none => s.goto c (.returned (.failed .insufficientResources))
      | some a =>
        ((s.commit c .get).store a (.string (s.dllDirectory.text s.heap ++ [0]))).goto c
          (.delivering nBufferLength lpBuffer ⟨some a, s.dllDirectory.length⟩)
  | _ => s

/-- The text is delivered from the duplicate. -/
def deliver : State κ :=
  match s.stage c with
  | .delivering nBufferLength lpBuffer directory =>
    s.goto c (.freeing directory.buffer.toList
      (getResult nBufferLength lpBuffer (directory.text s.heap)))
  | _ => s

/-! ## LdkpDuplicateUserDllDirectories -/

def duplicateUserDllDirectories : State κ :=
  (s.call c .snapshot).goto c .snapshotting

/-- The section of `LdkpDuplicateUserDllDirectories`. -/
def snapshot : State κ :=
  match s.stage c with
  | .snapshotting =>
    (s.commit c .snapshot).goto c
      (.returned (.paths (s.abstract.current :: s.abstract.added.map Prod.snd)))
  | _ => s

/-! ## The end -/

/-- One block is freed, or there are none left. -/
def freeNext : State κ :=
  match s.stage c with
  | .freeing [] outcome => s.goto c (.returned outcome)
  | .freeing (a :: blocks) outcome => (s.free a).goto c (.freeing blocks outcome)
  | _ => s

/-- The blocks of a string. -/
def freeUnicodeString (u : UnicodeString) : State κ :=
  match u.buffer with
  | none => s
  | some a => s.free a

/-- The loop of `LdkpFreeDllDirectoryList`. -/
def freeList : State κ → List Directory → State κ
  | s, [] => s
  | s, d :: list => freeList ((s.freeUnicodeString d.path).free d.address) list

/-- `LdkpUninitializeProcessParameters`, as far as the directories go. -/
def uninitializeProcessParameters : State κ :=
  let s := { s.freeUnicodeString s.dllDirectory with dllDirectory := ⟨none, 0⟩ }
  { s.freeList s.dllDirectoryList with dllDirectoryList := [], ended := true }

end State

/-! ## Steps -/

inductive Action (κ : Type) where
  | setDllDirectory (c : κ) (pathName : Option (List WCHAR))
  | duplicate (c : κ) (address : Option Nat)
  | swap (c : κ)
  | addDllDirectory (c : κ) (newDirectory : List WCHAR)
  | allocateDirectory (c : κ) (address : Option Nat)
  | copyPath (c : κ) (address : Option Nat)
  | insert (c : κ)
  | removeDllDirectory (c : κ) (cookie : Nat)
  | remove (c : κ)
  | getDllDirectory (c : κ) (nBufferLength : Nat) (lpBuffer : Option (List WCHAR))
  | get (c : κ) (address : Option Nat)
  | deliver (c : κ)
  | duplicateUserDllDirectories (c : κ)
  | snapshot (c : κ)
  | freeNext (c : κ)
  | uninitializeProcessParameters

/-- The call has not begun, or is over. -/
def Stage.idle : Stage → Bool
  | .notCalled | .returned _ => true
  | _ => false

/-- An address that is not null and not in use. -/
def State.Fresh (s : State κ) (address : Option Nat) : Prop :=
  ∀ a ∈ address, a ≠ 0 ∧ s.heap a = none

/-- When a step may be taken. Strings have no null in them, and a buffer is as long as the caller
says. -/
def enabled (s : State κ) : Action κ → Prop
  | .setDllDirectory c pathName =>
    s.ended = false ∧ s.stage c = .notCalled ∧ ∀ path ∈ pathName, 0 ∉ path
  | .addDllDirectory c newDirectory =>
    s.ended = false ∧ s.stage c = .notCalled ∧ 0 ∉ newDirectory
  | .getDllDirectory c nBufferLength lpBuffer =>
    s.ended = false ∧ s.stage c = .notCalled ∧ ∀ buffer ∈ lpBuffer, buffer.length = nBufferLength
  | .removeDllDirectory c _ | .duplicateUserDllDirectories c =>
    s.ended = false ∧ s.stage c = .notCalled
  | .duplicate _ address | .allocateDirectory _ address | .copyPath _ address | .get _ address =>
    s.Fresh address
  | .swap _ | .insert _ | .remove _ | .deliver _ | .snapshot _ | .freeNext _ => True
  | .uninitializeProcessParameters => s.ended = false ∧ ∀ c, (s.stage c).idle = true

instance [Fintype κ] (s : State κ) (a : Action κ) : Decidable (enabled s a) := by
  cases a <;> unfold enabled <;> try unfold State.Fresh
  all_goals infer_instance

def next (s : State κ) : Action κ → State κ
  | .setDllDirectory c pathName => s.setDllDirectory c pathName
  | .duplicate c address => s.duplicate c address
  | .swap c => s.swap c
  | .addDllDirectory c newDirectory => s.addDllDirectory c newDirectory
  | .allocateDirectory c address => s.allocateDirectory c address
  | .copyPath c address => s.copyPath c address
  | .insert c => s.insert c
  | .removeDllDirectory c cookie => s.removeDllDirectory c cookie
  | .remove c => s.remove c
  | .getDllDirectory c nBufferLength lpBuffer => s.getDllDirectory c nBufferLength lpBuffer
  | .get c address => s.get c address
  | .deliver c => s.deliver c
  | .duplicateUserDllDirectories c => s.duplicateUserDllDirectories c
  | .snapshot c => s.snapshot c
  | .freeNext c => s.freeNext c
  | .uninitializeProcessParameters => s.uninitializeProcessParameters

/-- The directories of the PEB, and any number of calls. -/
def dllDirectories (κ : Type) [DecidableEq κ] : System (State κ) (Action κ) where
  init s := s = initialState
  enabled := enabled
  next := next

instance [Fintype κ] (s : State κ) (a : Action κ) : Decidable ((dllDirectories κ).enabled s a) :=
  inferInstanceAs (Decidable (enabled s a))

end Ldk.DllDirectories
