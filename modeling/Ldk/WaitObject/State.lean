import Ldk.Lib.TransitionSystem
import Ldk.Lib.Holdings

/-!
# Mutex handles

The process handle table and the wait objects of `processhandle.c`, with any number of calls of
`CreateMutexExW`, `OpenMutexW`, `CloseHandle`, `DuplicateHandle`, `ReleaseMutex` and of waits. Each
lock section, each interlocked operation outside one and each call of the kernel is one step.

- A call has a name; the wait object it allocates and the handle it makes go by that name. The
  value of a closed handle names nothing afterwards.
- A handle of the process has no wait object.
- A mutant is an owner and a recursion count. Its wait list is the calls that wait with it among
  their objects. A wait may be satisfied whenever its mutants are free or its own, and may end
  at any time.
-/

namespace Ldk.WaitObject

open TransitionSystem

/-! ## Access -/

/-- `ACCESS_MASK` -/
abbrev AccessMask := BitVec 32

def maximumAllowed : AccessMask := 0x02000000

/-- `MUTEX_MODIFY_STATE` -/
def mutexModifyState : AccessMask := 0x0001

def synchronize : AccessMask := 0x00100000

/-- `LdkpHasAccess` -/
def hasAccess (granted desired : AccessMask) : Bool :=
  desired == 0 || granted == maximumAllowed || (granted &&& desired) == desired

/-! ## Mutants -/

/-- `KMUTANT` -/
structure Mutant (τ : Type) where
  owner : Option τ
  recursion : Nat
  deriving DecidableEq, Repr

namespace Mutant

variable {τ : Type} [DecidableEq τ]

/-- `KeInitializeMutant` -/
def keInitializeMutant (initialOwner : Bool) (t : τ) : Mutant τ :=
  if initialOwner then ⟨some t, 1⟩ else ⟨none, 0⟩

/-- A wait of the thread can be satisfied. -/
def Available (m : Mutant τ) (t : τ) : Prop := m.owner = none ∨ m.owner = some t

instance (m : Mutant τ) (t : τ) : Decidable (m.Available t) :=
  inferInstanceAs (Decidable (_ ∨ _))

omit [DecidableEq τ] in
/-- A wait of the thread is satisfied. -/
def acquire (m : Mutant τ) (t : τ) : Mutant τ := ⟨some t, m.recursion + 1⟩

/-- `KeReleaseMutant`, which raises when the thread is not the owner. -/
def keReleaseMutant (m : Mutant τ) (t : τ) : Mutant τ :=
  if m.owner = some t then
    if m.recursion = 1 then ⟨none, 0⟩ else ⟨m.owner, m.recursion - 1⟩
  else m

end Mutant

/-! ## Objects, handles and calls -/

/-- `LDK_WAIT_OBJECT` -/
structure Object (ν τ : Type) where
  referenceCount : Int
  handleCount : Int
  named : Bool
  name : Option ν
  mutant : Mutant τ
  /-- Auxiliary: the memory has been taken. -/
  allocated : Bool
  /-- Auxiliary: a handle to it has been opened. -/
  opened : Bool
  /-- Auxiliary: how often the memory has been given back. -/
  freed : Nat
  deriving DecidableEq, Repr

/-- An object that no call has made yet. -/
def Object.blank (ν τ : Type) : Object ν τ := ⟨0, 0, false, none, ⟨none, 0⟩, false, false, 0⟩

/-- `LDK_PROCESS_HANDLE` -/
structure Handle (κ : Type) where
  id : κ
  /-- `none` for `LdkProcessHandleTypeCurrentProcess`. -/
  object : Option κ
  grantedAccess : AccessMask
  deriving DecidableEq, Repr

/-- What a call asks for. -/
inductive Request (κ ν : Type) where
  | createMutex (access : AccessMask) (initialOwner : Bool) (name : Option ν)
  | openMutex (access : AccessMask) (name : ν)
  | closeHandle (handle : κ)
  /-- `none` is the pseudo handle of the process. -/
  | duplicateHandle (source : Option κ) (access : AccessMask) (sameAccess closeSource : Bool)
  | releaseMutex (handle : κ)
  /-- `none` is an object of another kind. -/
  | wait (handles : List (Option κ)) (waitAll : Bool)
  deriving DecidableEq, Repr

/-- `DesiredAccess` -/
def Request.access {κ ν : Type} : Request κ ν → AccessMask
  | .createMutex access _ _ | .openMutex access _ | .duplicateHandle _ access _ _ => access
  | _ => 0

/-- How far a call has come, with its local variables. -/
inductive Stage (κ ν : Type) where
  | notCalled
  /-- `LdkCreateMutantHandle`, about to look for the name. -/
  | finding (name : ν) (initialOwner : Bool)
  /-- `LdkOpenMutantHandle`, about to look for the name. -/
  | openingName (name : ν)
  | allocating (name : Option ν) (initialOwner : Bool)
  /-- Has set up its own object; about to look for the name again. -/
  | registering (own : κ) (name : ν)
  /-- At `LdkpCreateProcessHandle`. -/
  | inserting (object : κ)
  /-- `LdkDuplicateProcessHandle`, about to look for the source. -/
  | lookingUpSource (source : κ)
  /-- `LdkDuplicateProcessHandle`, at `LdkpCreateProcessHandle`. -/
  | copying (object : Option κ) (sourceAccess : AccessMask)
  /-- `LdkCloseProcessHandle`, about to remove the handle. -/
  | removing (handle : κ)
  /-- At `LdkpReleaseWaitObjectHandleReference`; `next` is the object to insert a handle of then. -/
  | closing (object : κ) (next : Option κ)
  /-- About to take the name lock and unlink the object. -/
  | unnaming (object : κ) (next : Option κ)
  /-- At `LdkpDereferenceWaitObject`, for one object after the other. -/
  | dropping (objects : List κ) (next : Option κ)
  /-- `LdkReleaseMutantHandle`, about to look for the handle. -/
  | lookingUpMutant (handle : κ)
  /-- At `KeReleaseMutant`. -/
  | releasing (object : κ)
  /-- The loop over `LdkReferenceProcessWaitObject`. -/
  | referencing (handles : List (Option κ)) (held : List κ)
  /-- At `KeWaitForSingleObject` or `KeWaitForMultipleObjects`. -/
  | waiting (held : List κ)
  | returned
  deriving DecidableEq, Repr

namespace Stage

variable {κ ν : Type}

/-- The objects still to be dereferenced, and what comes after. -/
def drop : List κ → Option κ → Stage κ ν
  | [], none => .returned
  | [], some o => .inserting o
  | o :: rest, next => .dropping (o :: rest) next

/-- The reference of a handle is released if the handle has a wait object. -/
def close : Option κ → Stage κ ν
  | some o => .closing o none
  | none => .returned

/-- The next handle to be referenced, or the wait. -/
def reference : List (Option κ) → List κ → Stage κ ν
  | [], held => .waiting held
  | h :: rest, held => .referencing (h :: rest) held

end Stage

/-- `MAXIMUM_WAIT_OBJECTS` -/
def maximumWaitObjects : Nat := 64

/-- A call up to its first step. -/
def Request.start {κ ν : Type} : Request κ ν → Stage κ ν
  | .createMutex _ initialOwner (some name) => .finding name initialOwner
  | .createMutex _ initialOwner none => .allocating none initialOwner
  | .openMutex _ name => .openingName name
  | .closeHandle h => .removing h
  | .duplicateHandle (some h) _ _ _ => .lookingUpSource h
  | .duplicateHandle none _ _ _ => .copying none maximumAllowed
  | .releaseMutex h => .lookingUpMutant h
  | .wait handles _ =>
    if handles = [] ∨ handles.length > maximumWaitObjects then .returned
    else .referencing handles []

structure State (κ ν τ : Type) where
  /-- `LdkpProcessHandleListHead` -/
  handles : List (Handle κ)
  /-- `LdkpNamedWaitObjectListHead` -/
  nameList : List κ
  object : κ → Object ν τ
  stage : κ → Stage κ ν
  /-- Auxiliary: the calls made so far. -/
  calls : List κ

variable {κ ν τ : Type} [DecidableEq κ] [DecidableEq ν] [DecidableEq τ]

namespace State

variable (s : State κ ν τ) (c o : κ)

def goto (v : Stage κ ν) : State κ ν τ := { s with stage := Function.update s.stage c v }

def setObject (b : Object ν τ) : State κ ν τ := { s with object := Function.update s.object o b }

/-- `LdkpReferenceWaitObject` -/
def reference : State κ ν τ :=
  s.setObject o { s.object o with referenceCount := (s.object o).referenceCount + 1 }

/-- `LdkpReferenceWaitObjectHandle` -/
def referenceHandle : State κ ν τ :=
  s.setObject o { s.object o with
    handleCount := (s.object o).handleCount + 1
    referenceCount := (s.object o).referenceCount + 1 }

/-- `LdkpDereferenceWaitObject` -/
def dereference : State κ ν τ :=
  s.setObject o { s.object o with
    referenceCount := (s.object o).referenceCount - 1
    freed := if (s.object o).referenceCount - 1 = 0 then (s.object o).freed + 1
      else (s.object o).freed }

/-- `LdkpLookupProcessHandleLocked` -/
def lookupHandle (h : κ) : Option (Handle κ) := s.handles.find? fun hd => hd.id = h

/-- `LdkpFindNamedWaitObjectLocked` -/
def findNamed (name : ν) : Option κ := s.nameList.find? fun p => (s.object p).name = some name

/-- `LdkpCreateProcessHandle` -/
def createHandle (object : Option κ) (access : AccessMask) : State κ ν τ :=
  { s with
    handles := s.handles ++ [⟨c, object, access⟩]
    object := fun p =>
      if object = some p then { s.object p with opened := true } else s.object p }

/-! ## LdkCreateMutantHandle and LdkOpenMutantHandle -/

def begin (request : Request κ ν) : State κ ν τ :=
  { s.goto c request.start with calls := c :: s.calls }

/-- The first search for the name. -/
def find (name : ν) (initialOwner : Bool) : State κ ν τ :=
  match s.findNamed name with
  | some p => (s.referenceHandle p).goto c (.inserting p)
  | none => s.goto c (.allocating (some name) initialOwner)

def openNamed (name : ν) : State κ ν τ :=
  match s.findNamed name with
  | some p => (s.referenceHandle p).goto c (.inserting p)
  | none => s.goto c .returned

end State

/-- How the allocations of `LdkCreateMutantHandle` end. -/
inductive Allocation where
  | noMemory
  /-- `LdkpCopyWaitObjectName` fails. -/
  | noName
  | success
  deriving DecidableEq, Repr

namespace State

variable (s : State κ ν τ) (c o : κ)

/-- The object is allocated, filled in and its mutant initialized; nobody else knows it yet. -/
def allocate (t : τ) (name : Option ν) (initialOwner : Bool) : Allocation → State κ ν τ
  | .noMemory => s.goto c .returned
  | .noName =>
    (s.setObject c { Object.blank ν τ with handleCount := 1, allocated := true, freed := 1 }).goto c
      .returned
  | .success =>
    (s.setObject c { Object.blank ν τ with
      referenceCount := 1
      handleCount := 1
      name := name
      mutant := .keInitializeMutant initialOwner t
      allocated := true }).goto c
      (match name with
        | some n => .registering c n
        | none => .inserting c)

/-- The second search for the name, and the registration. -/
def register (own : κ) (name : ν) : State κ ν τ :=
  match s.findNamed name with
  | some p => (s.referenceHandle p).goto c (.closing own (some p))
  | none =>
    ({ s.setObject own { s.object own with named := true } with
      nameList := s.nameList ++ [own] }).goto c (.inserting own)

def insert (access : AccessMask) (ok : Bool) : State κ ν τ :=
  if ok then (s.createHandle c (some o) access).goto c .returned
  else s.goto c (.closing o none)

/-! ## LdkCloseProcessHandle -/

def remove (h : κ) : State κ ν τ :=
  match s.lookupHandle h with
  | none => s.goto c .returned
  | some hd =>
    ({ s with handles := s.handles.eraseP fun hd => hd.id = h }).goto c (.close hd.object)

/-- The first part of `LdkpReleaseWaitObjectHandleReference`. -/
def decrement (next : Option κ) : State κ ν τ :=
  (s.setObject o { s.object o with handleCount := (s.object o).handleCount - 1 }).goto c
    (if (s.object o).handleCount - 1 = 0 ∧ (s.object o).named then .unnaming o next
      else .dropping [o] next)

/-- The part of `LdkpReleaseWaitObjectHandleReference` under the name lock. -/
def unname (next : Option κ) : State κ ν τ :=
  if (s.object o).named then
    ({ s.setObject o { s.object o with named := false } with
      nameList := s.nameList.filter (· ≠ o) }).goto c (.dropping [o] next)
  else s.goto c (.dropping [o] next)

def drop (rest : List κ) (next : Option κ) : State κ ν τ :=
  (s.dereference o).goto c (.drop rest next)

/-! ## LdkDuplicateProcessHandle -/

def lookUpSource (h : κ) : State κ ν τ :=
  match s.lookupHandle h with
  | none => s.goto c .returned
  | some ⟨_, some p, access⟩ => (s.reference p).goto c (.copying (some p) access)
  | some ⟨_, none, access⟩ => s.goto c (.copying none access)

/-- The new handle is made, and the source closed if `DUPLICATE_CLOSE_SOURCE` is given. -/
def insertCopy (object : Option κ) (sourceAccess : AccessMask) (ok : Bool) :
    Request κ ν → State κ ν τ
  | .duplicateHandle source access sameAccess closeSource =>
    if ok then
      (s.createHandle c object (if sameAccess then sourceAccess else access)).goto c
        (match source, closeSource with
          | some h, true => .removing h
          | _, _ => .returned)
    else s.goto c (.close object)
  | _ => s

/-! ## LdkReleaseMutantHandle -/

def lookUpMutant (h : κ) : State κ ν τ :=
  match s.lookupHandle h with
  | some ⟨_, some p, access⟩ =>
    if hasAccess access mutexModifyState then (s.reference p).goto c (.releasing p)
    else s.goto c .returned
  | _ => s.goto c .returned

def releaseMutant (t : τ) : State κ ν τ :=
  (s.setObject o { s.object o with mutant := (s.object o).mutant.keReleaseMutant t }).goto c
    (.dropping [o] none)

/-! ## WaitForSingleObjectEx and WaitForMultipleObjectsEx -/

/-- `LdkReferenceProcessWaitObject`, or `ObReferenceObjectByHandle` for an object of another
kind, which may fail. -/
def referenceNext (h : Option κ) (rest : List (Option κ)) (held : List κ) (ok : Bool) :
    State κ ν τ :=
  match h.map s.lookupHandle with
  | none => s.goto c (if ok then .reference rest held else .drop held none)
  | some none => s.goto c (.drop held none)
  | some (some hd) =>
    if hasAccess hd.grantedAccess synchronize then
      match hd.object with
      | some p => (s.reference p).goto c (.reference rest (held ++ [p]))
      | none => s.goto c (.reference rest held)
    else s.goto c (.drop held none)

/-- The mutants become the thread's, each once for every place it has in the list. -/
def acquireAll (t : τ) (objects : List κ) : State κ ν τ :=
  objects.foldl (fun s p =>
    s.setObject p { s.object p with mutant := (s.object p).mutant.acquire t }) s

def acquire (t : τ) (held objects : List κ) : State κ ν τ :=
  (s.acquireAll t objects).goto c (.drop held none)

end State

/-! ## The transition system -/

/-- The atomic steps, with the local variables of the call. -/
inductive Action (κ ν : Type) where
  | begin (c : κ)
  | find (c : κ) (name : ν) (initialOwner : Bool)
  | openNamed (c : κ) (name : ν)
  | allocate (c : κ) (name : Option ν) (initialOwner : Bool) (allocation : Allocation)
  | register (c own : κ) (name : ν)
  | insert (c o : κ) (ok : Bool)
  | remove (c h : κ)
  | decrement (c o : κ) (next : Option κ)
  | unname (c o : κ) (next : Option κ)
  | drop (c o : κ) (rest : List κ) (next : Option κ)
  | lookUpSource (c h : κ)
  | insertCopy (c : κ) (object : Option κ) (sourceAccess : AccessMask) (ok : Bool)
  | lookUpMutant (c h : κ)
  | releaseMutant (c o : κ)
  | referenceNext (c : κ) (h : Option κ) (rest : List (Option κ)) (held : List κ) (ok : Bool)
  | acquire (c : κ) (held objects : List κ)
  /-- The wait ends without a mutant. -/
  | endWait (c : κ) (held : List κ)

variable (request : κ → Request κ ν) (thread : κ → τ)

/-- The mutants that satisfy a wait for all or for any of the objects. -/
def Request.Satisfies (held objects : List κ) : Request κ ν → Prop
  | .wait _ true => objects = held
  | .wait _ false => objects.length = 1 ∧ objects ⊆ held
  | _ => False

instance (held objects : List κ) (r : Request κ ν) :
    Decidable (r.Satisfies held objects) := by
  cases r with
  | wait _ waitAll =>
    cases waitAll
    · exact inferInstanceAs (Decidable (_ ∧ _))
    · exact inferInstanceAs (Decidable (_ = _))
  | _ => exact inferInstanceAs (Decidable False)

def Enabled (s : State κ ν τ) : Action κ ν → Prop
  | .begin c => s.stage c = .notCalled
  | .find c name initialOwner => s.stage c = .finding name initialOwner
  | .openNamed c name => s.stage c = .openingName name
  | .allocate c name initialOwner allocation =>
    s.stage c = .allocating name initialOwner ∧ (allocation = .noName → name ≠ none)
  | .register c own name => s.stage c = .registering own name
  | .insert c o _ => s.stage c = .inserting o
  | .remove c h => s.stage c = .removing h
  | .decrement c o next => s.stage c = .closing o next
  | .unname c o next => s.stage c = .unnaming o next
  | .drop c o rest next => s.stage c = .dropping (o :: rest) next
  | .lookUpSource c h => s.stage c = .lookingUpSource h
  | .insertCopy c object sourceAccess _ => s.stage c = .copying object sourceAccess
  | .lookUpMutant c h => s.stage c = .lookingUpMutant h
  | .releaseMutant c o => s.stage c = .releasing o
  | .referenceNext c h rest held _ => s.stage c = .referencing (h :: rest) held
  | .acquire c held objects =>
    s.stage c = .waiting held ∧ (request c).Satisfies held objects ∧
      ∀ o ∈ objects, (s.object o).mutant.Available (thread c)
  | .endWait c held => s.stage c = .waiting held

def next (s : State κ ν τ) : Action κ ν → State κ ν τ
  | .begin c => s.begin c (request c)
  | .find c name initialOwner => s.find c name initialOwner
  | .openNamed c name => s.openNamed c name
  | .allocate c name initialOwner allocation =>
    s.allocate c (thread c) name initialOwner allocation
  | .register c own name => s.register c own name
  | .insert c o ok => s.insert c o (request c).access ok
  | .remove c h => s.remove c h
  | .decrement c o next => s.decrement c o next
  | .unname c o next => s.unname c o next
  | .drop c o rest next => s.drop c o rest next
  | .lookUpSource c h => s.lookUpSource c h
  | .insertCopy c object sourceAccess ok => s.insertCopy c object sourceAccess ok (request c)
  | .lookUpMutant c h => s.lookUpMutant c h
  | .releaseMutant c o => s.releaseMutant c o (thread c)
  | .referenceNext c h rest held ok => s.referenceNext c h rest held ok
  | .acquire c held objects => s.acquire c (thread c) held objects
  | .endWait c held => s.goto c (.drop held none)

/-- The state `LdkpInitializeProcessHandles` leaves behind. -/
def initialState (κ ν τ : Type) : State κ ν τ where
  handles := []
  nameList := []
  object _ := .blank ν τ
  stage _ := .notCalled
  calls := []

/-- The calls of the threads, each with its request. -/
def mutexHandles : System (State κ ν τ) (Action κ ν) where
  init s := s = initialState κ ν τ
  enabled := Enabled request thread
  next := next request thread

instance (s : State κ ν τ) (a : Action κ ν) :
    Decidable ((mutexHandles request thread).enabled s a) := by
  cases a <;> simp only [mutexHandles, Enabled] <;> infer_instance

end Ldk.WaitObject
