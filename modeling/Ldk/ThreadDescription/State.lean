import Mathlib
import Ldk.Lib.TransitionSystem
import Ldk.NtStatus
import Ldk.UnicodeString

/-!
# The descriptions of threads

`SetThreadDescription` and `GetThreadDescription` of `processthreadsapi.c`, for any number of calls
and threads. The descriptions are in a list of entries, each with the id of a thread. Memory is
allocated and freed outside `LdkpThreadDescriptionListMutex`; each section under the mutex is one
step, and so is each call of the heap.

- The kernel gives an id to a thread when it is created. Once that thread has exited it may give
  the id to another one; a handle of the first thread stays valid.
- A handle of a thread is the thread it denotes; the query of its id may fail.
- A block of the heap is the list of its characters. The address of a new block is free, and may
  have been that of a block before.
-/

namespace Ldk.ThreadDescription

open TransitionSystem

/-! ## The state -/

/-- `LDK_THREAD_DESCRIPTION_ENTRY` -/
structure Entry where
  threadId : Nat
  description : Option Nat
  descriptionBytes : Nat
  deriving DecidableEq, Repr

/-- What the routines return, besides a description. -/
inductive HResult where
  | ok
  | invalidArg
  | outOfMemory
  /-- `LdkpHResultFromNtStatus` -/
  | ofStatus (status : NtStatus)
  deriving DecidableEq, Repr

/-- How far a call has come. -/
inductive Stage (τ : Type) where
  | notCalled
  /-- At `RtlAllocateHeap` for a description. -/
  | describing (hThread : τ) (threadId : Nat) (text : List WCHAR)
  /-- At `RtlAllocateHeap` for an entry. -/
  | allocatingEntry (hThread : τ) (threadId : Nat) (text : List WCHAR) (newDescription : Nat)
  /-- `SetThreadDescription` at the mutex. -/
  | setting (hThread : τ) (threadId : Nat) (text : List WCHAR) (newDescription : Nat)
  /-- `SetThreadDescription` behind the mutex, with what it has still to free. -/
  | freeing (blocks : List Nat)
  /-- `GetThreadDescription` at the mutex, to get the size. -/
  | measuring (hThread : τ) (threadId : Nat)
  /-- At `LocalAlloc`. -/
  | allocating (hThread : τ) (threadId descriptionBytes : Nat)
  /-- At the mutex again. -/
  | copying (hThread : τ) (threadId descriptionBytes description : Nat)
  /-- The size has changed; at `LocalFree`. -/
  | discarding (hThread : τ) (threadId description : Nat)
  /-- `GetThreadDescription` has succeeded. `expected` is auxiliary: the description that was set
  last for the thread. -/
  | described (hThread : τ) (description : Nat) (expected : List WCHAR)
  | returned (result : HResult)
  deriving DecidableEq, Repr

/-- A thread, with its id. -/
structure Thread where
  id : Nat
  exited : Bool
  deriving DecidableEq, Repr

structure State (τ κ : Type) where
  threads : τ → Option Thread
  /-- `LdkpThreadDescriptionListHead` -/
  list : List Entry
  heap : Nat → Option (List WCHAR)
  stage : κ → Stage τ
  /-- Auxiliary: the description that was set last for a thread. -/
  last : τ → List WCHAR
  /-- Auxiliary: the thread that an id was given to last. -/
  holder : Nat → Option τ
  /-- Auxiliary: the calls that have changed the list. -/
  writers : List κ
  /-- Auxiliary: a block was read or freed that was not there. -/
  faulted : Bool

variable {τ κ : Type} [DecidableEq τ] [DecidableEq κ]

/-- The state at the start. -/
def initialState : State τ κ where
  threads _ := none
  list := []
  heap _ := none
  stage _ := .notCalled
  last _ := []
  holder _ := none
  writers := []
  faulted := false

namespace State

variable (s : State τ κ) (c : κ)

def goto (stage : Stage τ) : State τ κ := { s with stage := Function.update s.stage c stage }

/-- A block is allocated, with its characters. -/
def allocate (a : Nat) (block : List WCHAR) : State τ κ :=
  { s with heap := Function.update s.heap a (some block) }

/-- `RtlFreeHeap`, `LocalFree` -/
def free (a : Nat) : State τ κ :=
  { s with heap := Function.update s.heap a none, faulted := s.faulted || (s.heap a).isNone }

/-- `LdkpFindThreadDescriptionByIdLocked` -/
def entry (threadId : Nat) : Option Entry := s.list.find? fun e => e.threadId = threadId

end State

/-! ## SetThreadDescription -/

/-- `RtlInitUnicodeString`: the characters that are counted. -/
def descriptionString (lpThreadDescription : List WCHAR) : List WCHAR :=
  lpThreadDescription.take (2 ^ 15 - 2)

/-- `Entry->Description` and `Entry->DescriptionBytes` are set. -/
def Entry.setDescription (description descriptionBytes : Nat) (e : Entry) : Entry :=
  { e with description := some description, descriptionBytes := descriptionBytes }

/-- The entry of an id is changed in its place. -/
def changeEntry (threadId : Nat) (change : Entry → Entry) : List Entry → List Entry
  | [] => []
  | e :: list =>
    if e.threadId = threadId then change e :: list else e :: changeEntry threadId change list

namespace State

variable (s : State τ κ) (c : κ)

/-- `SetThreadDescription`, up to the first allocation. -/
def setThreadDescription (hThread : Except NtStatus τ) (lpThreadDescription : Option (List WCHAR)) :
    State τ κ :=
  match lpThreadDescription with
  | none => s.goto c (.returned .invalidArg)
  | some text =>
    match hThread with
    | .error status => s.goto c (.returned (.ofStatus status))
    | .ok thread =>
      match s.threads thread with
      | some ⟨id, _⟩ => s.goto c (.describing thread id text)
      | none => s

/-- `NewDescription` is allocated and filled, at an address of the heap. -/
def allocateDescription (address : Option Nat) : State τ κ :=
  match s.stage c with
  | .describing thread id text =>
    match address with
    | none => s.goto c (.returned .outOfMemory)
    | some a => (s.allocate a (descriptionString text ++ [0])).goto c
        (.allocatingEntry thread id text a)
  | _ => s

/-- `NewEntry` is allocated, or the description is freed. -/
def allocateEntry (success : Bool) : State τ κ :=
  match s.stage c with
  | .allocatingEntry thread id text newDescription =>
    if success then s.goto c (.setting thread id text newDescription)
    else (s.free newDescription).goto c (.returned .outOfMemory)
  | _ => s

/-- The section under the mutex. -/
def setLocked : State τ κ :=
  match s.stage c with
  | .setting thread id text newDescription =>
    let descriptionBytes := 2 * (descriptionString text).length + 2
    let newEntry : Entry := ⟨id, none, 0⟩
    let change := Entry.setDescription newDescription descriptionBytes
    let s := { s with last := Function.update s.last thread text, writers := c :: s.writers }
    match s.entry id with
    | none => { s with list := s.list ++ [change newEntry] }.goto c
        (.freeing newEntry.description.toList)
    | some e => { s with list := changeEntry id change s.list }.goto c
        -- the old description, and behind it what `LdkpFreeThreadDescriptionEntry` finds
        (.freeing (e.description.toList ++ newEntry.description.toList))
  | _ => s

/-- What is freed behind the mutex. -/
def freeNext : State τ κ :=
  match s.stage c with
  | .freeing [] => s.goto c (.returned .ok)
  | .freeing (a :: blocks) => (s.free a).goto c (.freeing blocks)
  | _ => s

/-! ## GetThreadDescription -/

/-- `GetThreadDescription`, up to the mutex. -/
def getThreadDescription (hThread : Except NtStatus τ) (ppszThreadDescription : Bool) :
    State τ κ :=
  if ppszThreadDescription then
    match hThread with
    | .error status => s.goto c (.returned (.ofStatus status))
    | .ok thread =>
      match s.threads thread with
      | some ⟨id, _⟩ => s.goto c (.measuring thread id)
      | none => s
  else s.goto c (.returned .invalidArg)

/-- `Entry->DescriptionBytes`, or the size of a null. -/
def currentBytes (threadId : Nat) : Nat :=
  match s.entry threadId with
  | some e => e.descriptionBytes
  | none => 2

/-- The section that gets the size. -/
def measure : State τ κ :=
  match s.stage c with
  | .measuring thread id => s.goto c (.allocating thread id (s.currentBytes id))
  | _ => s

/-- `LocalAlloc`, at an address of the heap; the block may hold anything. -/
def localAlloc (address : Option (Nat × List WCHAR)) : State τ κ :=
  match s.stage c with
  | .allocating thread id descriptionBytes =>
    match address with
    | none => s.goto c (.returned .outOfMemory)
    | some (a, block) => (s.allocate a block).goto c (.copying thread id descriptionBytes a)
  | _ => s

/-- `RtlCopyMemory` of that many characters to the start of a block: none if one of the blocks is
not there, or too short. -/
def copyBlock (source : Option Nat) (destination count : Nat) : Option (List WCHAR) :=
  match source.bind s.heap, s.heap destination with
  | some block, some buffer =>
    if count ≤ block.length ∧ count ≤ buffer.length then
      some (block.take count ++ buffer.drop count)
    else none
  | _, _ => none

/-- The section that copies the description, if the size is the same. -/
def copyLocked : State τ κ :=
  match s.stage c with
  | .copying thread id descriptionBytes description =>
    if s.currentBytes id = descriptionBytes then
      match s.entry id with
      | some e =>
        match s.copyBlock e.description description (descriptionBytes / 2) with
        | some block => (s.allocate description block).goto c
            (.described thread description (s.last thread))
        | none => { s with faulted := true }.goto c (.described thread description (s.last thread))
      | none =>
        match s.heap description with
        | some (_ :: block) => (s.allocate description (0 :: block)).goto c
            (.described thread description (s.last thread))
        | _ => { s with faulted := true }.goto c (.described thread description (s.last thread))
    else s.goto c (.discarding thread id description)
  | _ => s

/-- `LocalFree`, and the loop begins again. -/
def retry : State τ κ :=
  match s.stage c with
  | .discarding thread id description => (s.free description).goto c (.measuring thread id)
  | _ => s

/-! ## Threads -/

/-- The kernel creates a thread and gives it an id. -/
def createThread (t : τ) (id : Nat) : State τ κ :=
  { s with
    threads := Function.update s.threads t (some ⟨id, false⟩)
    holder := Function.update s.holder id (some t) }

def exitThread (t : τ) : State τ κ :=
  { s with threads := Function.update s.threads t ((s.threads t).map fun x => ⟨x.id, true⟩) }

end State

/-! ## Steps -/

inductive Action (τ κ : Type) where
  | createThread (t : τ) (id : Nat)
  | exitThread (t : τ)
  | setThreadDescription (c : κ) (hThread : Except NtStatus τ)
    (lpThreadDescription : Option (List WCHAR))
  | allocateDescription (c : κ) (address : Option Nat)
  | allocateEntry (c : κ) (success : Bool)
  | setLocked (c : κ)
  | freeNext (c : κ)
  | getThreadDescription (c : κ) (hThread : Except NtStatus τ) (ppszThreadDescription : Bool)
  | measure (c : κ)
  | localAlloc (c : κ) (address : Option (Nat × List WCHAR))
  | copyLocked (c : κ)
  | retry (c : κ)

/-- A handle denotes a thread; the query of the id has succeeded, or has failed. -/
def State.HandleOf (s : State τ κ) (hThread : Except NtStatus τ) : Prop :=
  match hThread with
  | .ok t => (s.threads t).isSome = true
  | .error status => status.ntSuccess = false

/-- When a step may be taken. An id belongs to one thread at a time, and a description has 32766
characters at most. -/
def enabled (s : State τ κ) : Action τ κ → Prop
  | .createThread t id => s.threads t = none ∧ ∀ t', s.threads t' ≠ some ⟨id, false⟩
  | .exitThread t => (s.threads t).isSome = true
  | .setThreadDescription c hThread text =>
    s.stage c = .notCalled ∧ s.HandleOf hThread ∧ ∀ t ∈ text, t.length ≤ 2 ^ 15 - 2
  | .allocateDescription c address =>
    (match s.stage c with | .describing _ _ _ => True | _ => False) ∧
      ∀ a ∈ address, s.heap a = none
  | .allocateEntry c _ => match s.stage c with | .allocatingEntry _ _ _ _ => True | _ => False
  | .setLocked c => match s.stage c with | .setting _ _ _ _ => True | _ => False
  | .freeNext c => match s.stage c with | .freeing _ => True | _ => False
  | .getThreadDescription c hThread _ => s.stage c = .notCalled ∧ s.HandleOf hThread
  | .measure c => match s.stage c with | .measuring _ _ => True | _ => False
  | .localAlloc c address =>
    match s.stage c with
    | .allocating _ _ bytes => ∀ x ∈ address, s.heap x.1 = none ∧ 2 * x.2.length = bytes
    | _ => False
  | .copyLocked c => match s.stage c with | .copying _ _ _ _ => True | _ => False
  | .retry c => match s.stage c with | .discarding _ _ _ => True | _ => False

def next (s : State τ κ) : Action τ κ → State τ κ
  | .createThread t id => s.createThread t id
  | .exitThread t => s.exitThread t
  | .setThreadDescription c hThread text => s.setThreadDescription c hThread text
  | .allocateDescription c address => s.allocateDescription c address
  | .allocateEntry c success => s.allocateEntry c success
  | .setLocked c => s.setLocked c
  | .freeNext c => s.freeNext c
  | .getThreadDescription c hThread given => s.getThreadDescription c hThread given
  | .measure c => s.measure c
  | .localAlloc c address => s.localAlloc c address
  | .copyLocked c => s.copyLocked c
  | .retry c => s.retry c

/-- Threads, and the calls that set and get their descriptions. -/
def descriptions (τ κ : Type) [DecidableEq τ] [DecidableEq κ] :
    System (State τ κ) (Action τ κ) where
  init s := s = initialState
  enabled := enabled
  next := next

end Ldk.ThreadDescription
