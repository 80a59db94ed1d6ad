import Mathlib
import Ldk.ProcessHandle.WaitMultiple

/-!
# Waits on handles of both kinds are balanced

Every reference that a wait takes is dropped once, on the object it was taken on, and every array is
freed once, whatever fails on the way. A wait is made on the objects that the handles stand for.

- `owned`: what a pointer with its flag has taken.
- `referenceHandle_spec`: the reference to one handle.
- `Filled`: the arrays after some of the handles.
- `Exact`: what is expected of a call.
- `mixed_waits_are_exact`: a call is exact exactly when the native objects are waited on by their
  bodies.
-/

set_option linter.unusedSectionVars false

namespace Ldk.ProcessHandle

open Balance OutputBuffer
open Ldk.WaitObject (synchronize)

variable {ω ν : Type} (env : Environment ω ν)

/-! ## The objects of handles -/

/-- What a pointer with its flag has taken. -/
def owned : Pointer ω ν × Bool → List (Resource ω ν)
  | (.mutant waitObject, true) => [.waitObject waitObject]
  | (.body object, false) => [.native object]
  | _ => []

/-- A pointer with its flag that a reference leaves. -/
def IsReferenced : Pointer ω ν × Bool → Prop
  | (.processExitEvent, true) => True
  | (.mutant _, true) => True
  | (.body _, false) => True
  | _ => False

/-- The object that a handle stands for, or why there is none. -/
def objectOf (index : Nat) (handle : HandleValue) : Except NtStatus (Pointer ω ν) :=
  if isCurrentProcessPseudoHandle handle then .ok .processExitEvent
  else if isTaggedProcessHandle handle = false then
    (env.obReferenceObjectByHandle index handle).map .body
  else
    match lookupProcessHandleLocked (env.table index) handle with
    | none => .error statusInvalidHandle
    | some record =>
      if Ldk.WaitObject.hasAccess record.grantedAccess synchronize = false then
        .error statusAccessDenied
      else
        match record.type with
        | .currentProcess => .ok .processExitEvent
        | .waitObject waitObject =>
          match env.objectType waitObject with
          | .mutant => .ok (.mutant waitObject)
          | .other => .error statusInvalidHandle

/-- The objects of some handles, or why the first of them has none. -/
def objectsOf : Nat → List HandleValue → Except NtStatus (List (Pointer ω ν))
  | _, [] => .ok []
  | index, handle :: handles => do
    let object ← objectOf env index handle
    let objects ← objectsOf (index + 1) handles
    return object :: objects

variable [DecidableEq ω] [DecidableEq ν]

theorem length_objectsOf {index : Nat} {handles : List HandleValue} {objects : List (Pointer ω ν)}
    (h : objectsOf env index handles = .ok objects) : objects.length = handles.length := by
  induction handles generalizing index objects with
  | nil =>
    obtain rfl := Except.ok.inj h
    rfl
  | cons handle handles ih =>
    rw [objectsOf] at h
    cases hobject : objectOf env index handle with
    | error status =>
      rw [hobject] at h
      cases h
    | ok object =>
      cases hrest : objectsOf env (index + 1) handles with
      | error status =>
        rw [hobject, hrest] at h
        cases h
      | ok rest =>
        rw [hobject, hrest] at h
        obtain rfl := Except.ok.inj h
        rw [List.length_cons, List.length_cons, ih hrest]

/-- What has been taken is given back. -/
theorem dereference_eq {p : Pointer ω ν × Bool} (h : IsReferenced p) :
    ldkDereferenceProcessWaitObject p.1 p.2 = (owned p).map Event.drop := by
  obtain ⟨object, isLdkObject⟩ := p
  cases object with
  | processExitEvent =>
    cases isLdkObject with
    | true => rfl
    | false => exact h.elim
  | mutant waitObject =>
    cases isLdkObject with
    | true => rfl
    | false => exact h.elim
  | body object =>
    cases isLdkObject with
    | true => exact h.elim
    | false => rfl
  | null =>
    cases isLdkObject with
    | true => exact h.elim
    | false => exact h.elim
  | dispatcher object =>
    cases isLdkObject with
    | true => exact h.elim
    | false => exact h.elim

/-- The calls that a log notes. -/
def calls (log : Log ω ν) : List (Call ω ν) :=
  log.filterMap fun
    | .note call => some call
    | _ => none

/-! ## One reference -/

theorem ntSuccess_success : ntSuccess statusSuccess = true := by decide

/-- The failures of a lookup. -/
theorem ntSuccess_failures :
    ntSuccess statusInvalidHandle = false ∧ ntSuccess statusAccessDenied = false := by decide

/-- The failure that is none of a lookup. -/
theorem ne_statusObjectTypeMismatch : statusSuccess ≠ statusObjectTypeMismatch ∧
    statusInvalidHandle ≠ statusObjectTypeMismatch ∧
      statusAccessDenied ≠ statusObjectTypeMismatch := by decide

/-- A reference has succeeded with an object, or leaves nothing. -/
def Reference.Stands (r : Reference ω ν) (object : Except NtStatus (Pointer ω ν)) : Prop :=
  calls r.log = [] ∧
    match object with
    | .ok object => ntSuccess r.status = true ∧ r.object = object ∧
        IsReferenced (r.object, r.isLdkObject) ∧
        r.log = (owned (r.object, r.isLdkObject)).map Event.take
    | .error status => ntSuccess r.status = false ∧ r.status = status ∧ Balanced r.log

variable {env} {index : Nat} {handle : HandleValue}

/-- The reference to a handle of the process. -/
theorem ldkReference_spec (env : Environment ω ν) (index : Nat)
    (hldk : ldkIsProcessHandleCandidate handle = true) :
    (ldkReferenceProcessWaitObject env index handle).Stands (objectOf env index handle) ∧
      (ldkReferenceProcessWaitObject env index handle).status ≠ statusObjectTypeMismatch := by
  obtain ⟨hinvalid, hdenied⟩ := ntSuccess_failures
  obtain ⟨hsuccessNe, hinvalidNe, hdeniedNe⟩ := ne_statusObjectTypeMismatch
  unfold ldkReferenceProcessWaitObject objectOf
  by_cases hpseudo : isCurrentProcessPseudoHandle handle = true
  · rw [if_pos hpseudo, if_pos hpseudo]
    exact ⟨⟨rfl, ntSuccess_success, rfl, trivial, rfl⟩, hsuccessNe⟩
  have htagged : ¬ isTaggedProcessHandle handle = false := by
    intro hnot
    unfold ldkIsProcessHandleCandidate at hldk
    rw [hnot, Bool.or_false] at hldk
    exact hpseudo hldk
  rw [if_neg hpseudo, if_neg hpseudo, if_neg htagged, if_neg htagged]
  cases hlookup : lookupProcessHandleLocked (env.table index) handle with
  | none => exact ⟨⟨rfl, hinvalid, rfl, Balanced.nil⟩, hinvalidNe⟩
  | some record =>
    dsimp only
    by_cases haccess : Ldk.WaitObject.hasAccess record.grantedAccess synchronize = false
    · rw [if_pos haccess, if_pos haccess]
      exact ⟨⟨rfl, hdenied, rfl, Balanced.nil⟩, hdeniedNe⟩
    rw [if_neg haccess, if_neg haccess]
    cases htype : record.type with
    | currentProcess => exact ⟨⟨rfl, ntSuccess_success, rfl, trivial, rfl⟩, hsuccessNe⟩
    | waitObject waitObject =>
      unfold ldkpGetWaitObjectDispatcher
      dsimp only
      cases hkind : env.objectType waitObject with
      | mutant => exact ⟨⟨rfl, ntSuccess_success, rfl, trivial, rfl⟩, hsuccessNe⟩
      | other =>
        refine ⟨⟨rfl, hinvalid, rfl, ?_⟩, hinvalidNe⟩
        exact Balanced.bracket (List.Perm.refl [Resource.waitObject waitObject]) Balanced.nil

/-- The reference to a handle of either kind. -/
theorem referenceHandle_spec (env : Environment ω ν) (index : Nat) (handle : HandleValue) :
    (referenceHandle env index handle).Stands (objectOf env index handle) := by
  by_cases hldk : ldkIsProcessHandleCandidate handle = true
  · obtain ⟨hstands, hne⟩ := ldkReference_spec env index hldk
    unfold referenceHandle
    rwa [if_neg hne]
  · obtain ⟨hpseudo, htagged⟩ := Bool.or_eq_false_iff.1 (Bool.not_eq_true _ ▸ hldk)
    have hmismatch : ldkReferenceProcessWaitObject env index handle =
        ⟨statusObjectTypeMismatch, .null, false, []⟩ := by
      unfold ldkReferenceProcessWaitObject
      rw [if_neg (by rw [hpseudo]; exact Bool.false_ne_true), if_pos htagged]
    unfold referenceHandle objectOf
    rw [hmismatch, if_pos rfl, if_neg (by rw [hpseudo]; exact Bool.false_ne_true), if_pos htagged]
    cases hnative : env.obReferenceObjectByHandle index handle with
    | ok object => exact ⟨rfl, ntSuccess_success, rfl, trivial, rfl⟩
    | error status =>
      exact ⟨rfl, env.obReference_fails index handle status hnative, rfl, Balanced.nil⟩

/-! ## The arrays -/

/-- What some pointers with their flags have taken. -/
def ownedBy (pairs : List (Pointer ω ν × Bool)) : List (Resource ω ν) := pairs.flatMap owned

/-- The arrays after some of the handles: these pointers have been written and taken. -/
structure Filled (capacity : Nat) (start : Log ω ν) (pairs : List (Pointer ω ν × Bool))
    (x : Locals ω ν) : Prop where
  size : x.objects.length = capacity ∧ x.isLdkObject.length = capacity
  objects : x.objects.take pairs.length = pairs.map fun p => some p.1
  isLdkObject : x.isLdkObject.take pairs.length = pairs.map fun p => some p.2
  count : x.referencedCount = pairs.length
  referenced : ∀ p ∈ pairs, IsReferenced p
  log : ∃ taken, x.log = start ++ taken ∧ calls taken = [] ∧
    ∀ held, run held taken = some ((ownedBy pairs : Multiset (Resource ω ν)) + held)

variable {capacity : Nat} {start : Log ω ν} {pairs : List (Pointer ω ν × Bool)} {x : Locals ω ν}

theorem calls_append (log log' : Log ω ν) : calls (log ++ log') = calls log ++ calls log' :=
  List.filterMap_append

theorem calls_takes (rs : List (Resource ω ν)) : calls (rs.map Event.take) = [] := by
  induction rs with
  | nil => rfl
  | cons r rs ih => exact ih

theorem calls_drops (rs : List (Resource ω ν)) : calls (rs.map Event.drop) = [] := by
  induction rs with
  | nil => rfl
  | cons r rs ih => exact ih

/-- A loop over the indices of a list is one over the list. -/
theorem flatMap_range {α β : Type} (xs : List α) (f : Nat → List β) (g : α → List β)
    (h : ∀ i (hi : i < xs.length), f i = g (xs[i])) :
    (List.range xs.length).flatMap f = xs.flatMap g := by
  induction xs generalizing f with
  | nil => rfl
  | cons a xs ih =>
    rw [List.length_cons, List.range_succ_eq_map, List.flatMap_cons, List.flatMap_cons,
      List.flatMap_map, h 0 (Nat.succ_pos _), ih]
    · rfl
    · intro i hi
      exact h (i + 1) (Nat.succ_lt_succ hi)

/-- The loop over what has been referenced gives it back. -/
theorem Filled.dereferenceObjects (h : Filled capacity start pairs x) :
    dereferenceObjects x = (ownedBy pairs).map Event.drop := by
  unfold Ldk.ProcessHandle.dereferenceObjects ownedBy
  rw [h.count, List.map_flatMap]
  apply flatMap_range
  intro i hi
  have hobject : x.objects[i]? = some (some (pairs[i]).1) := by
    rw [← List.getElem?_take_of_lt hi, h.objects, List.getElem?_map, List.getElem?_eq_getElem hi]
    rfl
  have hflag : x.isLdkObject[i]? = some (some (pairs[i]).2) := by
    rw [← List.getElem?_take_of_lt hi, h.isLdkObject, List.getElem?_map,
      List.getElem?_eq_getElem hi]
    rfl
  rw [hobject, hflag]
  exact dereference_eq (h.referenced _ (List.getElem_mem hi))

/-- A reference is written to the next cells. -/
theorem Filled.write (h : Filled capacity start pairs x) (hroom : pairs.length < capacity)
    (r : Reference ω ν) : ∃ objects isLdkObject,
      put x.objects pairs.length [some r.object] = .ok objects ∧
        put x.isLdkObject pairs.length [some r.isLdkObject] = .ok isLdkObject ∧
          (objects.length = capacity ∧ isLdkObject.length = capacity) ∧
            objects.take (pairs.length + 1) = (pairs.map fun p => some p.1) ++ [some r.object] ∧
              isLdkObject.take (pairs.length + 1) =
                (pairs.map fun p => some p.2) ++ [some r.isLdkObject] := by
  obtain ⟨hsize, hsize'⟩ := h.size
  have hcells : pairs.length + [some r.object].length ≤ x.objects.length := by
    rw [hsize]
    exact hroom
  have hcells' : pairs.length + [some r.isLdkObject].length ≤ x.isLdkObject.length := by
    rw [hsize']
    exact hroom
  obtain ⟨objects, hobjects, hlength, htake⟩ := put_spec hcells
  obtain ⟨isLdkObject, hflags, hlength', htake'⟩ := put_spec hcells'
  rw [h.objects] at htake
  rw [h.isLdkObject] at htake'
  exact ⟨objects, isLdkObject, hobjects, hflags, ⟨hlength.trans hsize, hlength'.trans hsize'⟩,
    htake, htake'⟩

section Step

variable {objects : Cells (Pointer ω ν)} {isLdkObject : Cells Bool} {r : Reference ω ν}

/-- A reference that fails leaves the pointers before it. -/
theorem Filled.refused (h : Filled capacity start pairs x)
    (hsize : objects.length = capacity ∧ isLdkObject.length = capacity)
    (htake : objects.take (pairs.length + 1) = (pairs.map fun p => some p.1) ++ [some r.object])
    (htake' : isLdkObject.take (pairs.length + 1) =
      (pairs.map fun p => some p.2) ++ [some r.isLdkObject])
    (hcalls : calls r.log = []) (hbalanced : Balanced r.log) :
    Filled capacity start pairs
      { x with objects := objects, isLdkObject := isLdkObject, log := x.log ++ r.log } := by
  have hfront {α β : Type} {cells : List β} {f : α → β} {xs : List α} {b : β}
      (hcells : cells.take (xs.length + 1) = xs.map f ++ [b]) :
      cells.take xs.length = xs.map f := by
    have htaken := congrArg (List.take xs.length) hcells
    have hright : (xs.map f ++ [b]).take xs.length = xs.map f := List.take_left' (List.length_map f)
    rwa [List.take_take, Nat.min_eq_left (Nat.le_succ _), hright] at htaken
  obtain ⟨taken, hlog, htaken, hrun⟩ := h.log
  refine ⟨hsize, hfront htake, hfront htake', h.count, h.referenced, taken ++ r.log, ?_, ?_, ?_⟩
  · rw [hlog, List.append_assoc]
  · rw [calls_append, htaken, hcalls]
    rfl
  · intro held
    rw [run_append, hrun, Option.bind_some, hbalanced]

/-- A reference that succeeds is one more. -/
theorem Filled.next (h : Filled capacity start pairs x)
    (hsize : objects.length = capacity ∧ isLdkObject.length = capacity)
    (htake : objects.take (pairs.length + 1) = (pairs.map fun p => some p.1) ++ [some r.object])
    (htake' : isLdkObject.take (pairs.length + 1) =
      (pairs.map fun p => some p.2) ++ [some r.isLdkObject])
    (hcalls : calls r.log = []) (hreferenced : IsReferenced (r.object, r.isLdkObject))
    (htaken : r.log = (owned (r.object, r.isLdkObject)).map Event.take) :
    Filled capacity start (pairs ++ [(r.object, r.isLdkObject)])
      { x with objects := objects, isLdkObject := isLdkObject, log := x.log ++ r.log,
               referencedCount := x.referencedCount + 1 } := by
  obtain ⟨taken, hlog, hnone, hrun⟩ := h.log
  constructor
  case size => exact hsize
  case objects =>
    rw [List.length_append, List.length_singleton, htake, List.map_append]
    rfl
  case isLdkObject =>
    rw [List.length_append, List.length_singleton, htake', List.map_append]
    rfl
  case count =>
    rw [List.length_append, List.length_singleton, h.count]
  case referenced =>
    intro p hp
    rcases List.mem_append.1 hp with hp | hp
    · exact h.referenced p hp
    · rw [List.mem_singleton.1 hp]
      exact hreferenced
  case log =>
    refine ⟨taken ++ r.log, ?_, ?_, ?_⟩
    · rw [hlog, List.append_assoc]
    · rw [calls_append, hnone, hcalls]
      rfl
    · intro held
      have hmore : ownedBy (pairs ++ [(r.object, r.isLdkObject)]) =
          ownedBy pairs ++ owned (r.object, r.isLdkObject) := by
        unfold ownedBy
        rw [List.flatMap_append, List.flatMap_singleton]
      rw [run_append, hrun, Option.bind_some, htaken, run_takes, hmore, ← Multiset.coe_add,
        ← Multiset.add_assoc,
        Multiset.add_comm (owned (r.object, r.isLdkObject) : Multiset (Resource ω ν))]

end Step

/-- The loop over the handles: all of them are referenced, or the first that is not is found. -/
theorem referenceHandles_spec (env : Environment ω ν) (handles : List HandleValue)
    {pairs : List (Pointer ω ν × Bool)} {x : Locals ω ν} (h : Filled capacity start pairs x)
    (hroom : pairs.length + handles.length ≤ capacity) :
    Yields (referenceHandles env pairs.length handles x) fun result =>
      ∃ pairs', Filled capacity start pairs' result.1 ∧ result.1.waitBlocks = x.waitBlocks ∧
        match objectsOf env pairs.length handles with
        | .ok objects => result.2 = none ∧ pairs'.map Prod.fst = pairs.map Prod.fst ++ objects
        | .error status => result.2 = some status := by
  induction handles generalizing pairs x with
  | nil => exact .ok ⟨pairs, h, rfl, rfl, (List.append_nil _).symm⟩
  | cons handle handles ih =>
    rw [List.length_cons] at hroom
    obtain ⟨objects, isLdkObject, hobjects, hflags, hsize, htake, htake'⟩ :=
      h.write (by omega) (referenceHandle env pairs.length handle)
    obtain ⟨hcalls, hstands⟩ := referenceHandle_spec env pairs.length handle
    rw [referenceHandles, objectsOf]
    dsimp only
    rw [hobjects, hflags]
    cases hobject : objectOf env pairs.length handle with
    | error status =>
      rw [hobject] at hstands
      obtain ⟨hfailed, hstatus, hbalanced⟩ := hstands
      rw [← hstatus]
      refine ⟨⟨_, some (referenceHandle env pairs.length handle).status⟩, if_pos hfailed, pairs,
        h.refused hsize htake htake' hcalls hbalanced, rfl, rfl⟩
    | ok object =>
      rw [hobject] at hstands
      obtain ⟨hsuccess, hsame, hreferenced, htaken⟩ := hstands
      have hnext := h.next hsize htake htake' hcalls hreferenced htaken
      have hlength : (pairs ++ [((referenceHandle env pairs.length handle).object,
          (referenceHandle env pairs.length handle).isLdkObject)]).length = pairs.length + 1 := by
        rw [List.length_append, List.length_singleton]
      have hrest := ih hnext (by rw [hlength]; omega)
      rw [hlength] at hrest
      obtain ⟨result, hresult, pairs', hfilled, hblocks, hall⟩ := hrest
      refine ⟨result, ?_, pairs', hfilled, hblocks, ?_⟩
      · rw [← hresult]
        exact if_neg (by rw [hsuccess]; exact Bool.noConfusion)
      · cases hobjectsOf : objectsOf env (pairs.length + 1) handles with
        | error status =>
          rw [hobjectsOf] at hall
          exact hall
        | ok objects =>
          rw [hobjectsOf] at hall
          refine ⟨hall.1, ?_⟩
          rw [hall.2, List.map_append, List.append_assoc, ← hsame]
          rfl

/-! ## The wait -/

/-- How often the kernel is asked to wait. -/
def rounds (env : Environment ω ν) (alertable : Bool) : Nat :=
  if alertable then env.alerts + 1 else 1

theorem rounds_pos (env : Environment ω ν) (alertable : Bool) : 0 < rounds env alertable := by
  unfold rounds
  split
  · exact Nat.succ_pos _
  · exact Nat.one_pos

/-- What a wait returns, whatever it waits on. -/
def ending (env : Environment ω ν) (alertable : Bool) : NtStatus × Option LastError :=
  if alertable = true ∨ env.alerts = 0 then afterWait env.answer none
  else afterWait statusAlerted none

theorem afterWait_alerted (lastError : Option LastError) :
    afterWait statusAlerted lastError = (statusAlerted, lastError) := if_pos (by decide)

theorem wait_eq (env : Environment ω ν) (alertable : Bool) (call : Call ω ν) :
    wait env alertable call =
      (List.replicate (rounds env alertable) (.note call), ending env alertable) := by
  unfold wait rounds ending
  cases alertable with
  | false =>
    cases env.alerts with
    | zero => rfl
    | succ alerts =>
      rw [waitLoop, if_neg (by simp)]
      rfl
  | true =>
    rw [if_pos rfl, if_pos (Or.inl rfl)]
    induction env.alerts with
    | zero => rfl
    | succ alerts ih =>
      rw [waitLoop, afterWait_alerted, if_pos ⟨rfl, rfl⟩, ih]
      rfl

theorem calls_replicate (n : Nat) (call : Call ω ν) :
    calls (List.replicate n (.note call) : Log ω ν) = List.replicate n call := by
  induction n with
  | zero => rfl
  | succ n ih =>
    rw [List.replicate_succ, List.replicate_succ, ← ih]
    rfl

theorem balanced_replicate (n : Nat) (call : Call ω ν) :
    Balanced (List.replicate n (.note call) : Log ω ν) := by
  rw [← List.map_replicate]
  exact Balanced.notes _

/-! ## The whole call -/

/-- There is memory for the arrays of a call. -/
def HasMemory (env : Environment ω ν) (count : Nat) : Prop :=
  (tmpLength < count → env.allocates .objects = true ∧ env.allocates .isLdkObject = true) ∧
    (threadWaitObjects < count → env.allocates .waitBlocks = true)

/-- The dispatcher object that a native wait uses: some objects are waited on by their bodies. -/
def dispatcherOf (waitsOnBody : ν → Bool) : Pointer ω ν → Pointer ω ν
  | .body object => if waitsOnBody object then .body object else .dispatcher object
  | object => object

/-- What is expected of a call with these handles, with the dispatcher object for each object. -/
structure Exact (env : Environment ω ν) (dispatcher : Pointer ω ν → Pointer ω ν)
    (handles : List HandleValue) (waitAll alertable : Bool) (timeout : Option Int)
    (o : Outcome ω ν) : Prop where
  /-- Every reference is dropped once, where it was taken, and every array is freed once. -/
  balanced : Balanced o.log
  noMemory : ¬ HasMemory env handles.length →
    o.result = waitFailed ∧ o.lastError = some (.ntStatus statusNoMemory) ∧ calls o.log = []
  refused : HasMemory env handles.length → ∀ status, objectsOf env 0 handles = .error status →
    o.result = waitFailed ∧ o.lastError = some (.ntStatus status) ∧ calls o.log = []
  /-- The arrays have room, and the objects are these. -/
  waited : HasMemory env handles.length → ∀ objects, objectsOf env 0 handles = .ok objects →
    (o.result, o.lastError) = ending env alertable ∧
      ∃ (cells : Cells (Pointer ω ν)) (waitBlocks : Nat), handles.length ≤ cells.length ∧
        handles.length ≤ waitBlocks ∧
          cells.take handles.length = objects.map (fun p => some (dispatcher p)) ∧
            calls o.log = List.replicate (rounds env alertable)
              (.keWaitForMultipleObjects handles.length cells waitAll alertable timeout waitBlocks)

/-- The native objects of a call are waited on by their bodies. -/
def WaitsOnBodies (env : Environment ω ν) (waitsOnBody : ν → Bool)
    (handles : List HandleValue) : Prop :=
  HasMemory env handles.length → ∀ objects, objectsOf env 0 handles = .ok objects →
    ∀ object, Pointer.body object ∈ objects → waitsOnBody object = true

/-! ## The call behind the allocations -/

/-- The arrays that are not on the stack. -/
def arrays (count : Nat) : List (Resource ω ν) :=
  (if tmpLength < count then [.array .objects, .array .isLdkObject] else []) ++
    if threadWaitObjects < count then [.array .waitBlocks] else []

/-- They are freed in another order. -/
theorem freeArrays_eq (count : Nat) : ∃ rs : List (Resource ω ν),
    (arrays count).Perm rs ∧ freeArrays count = rs.map Event.drop := by
  refine ⟨(if threadWaitObjects < count then [.array .waitBlocks] else []) ++
    (if tmpLength < count then [.array .objects, .array .isLdkObject] else []),
      List.perm_append_comm, ?_⟩
  unfold freeArrays
  rw [List.map_append]
  congr 1
  · split
    · rfl
    · rfl
  · split
    · rfl
    · rfl

/-- The call behind the allocations. -/
theorem waitReferenced_spec (handles : List HandleValue) (waitAll alertable : Bool)
    (timeout : Option Int) {waitBlocks : Nat} (hcapacity : handles.length ≤ capacity) :
    Yields (waitReferenced env handles waitAll alertable timeout
        ⟨List.replicate capacity none, List.replicate capacity none, waitBlocks, 0,
          (arrays handles.length).map Event.take⟩) fun o =>
      Balanced o.log ∧
        match objectsOf env 0 handles with
        | .ok objects => (o.result, o.lastError) = ending env alertable ∧
            ∃ cells : Cells (Pointer ω ν), cells.length = capacity ∧
              cells.take handles.length = objects.map some ∧
                calls o.log = List.replicate (rounds env alertable)
                  (.keWaitForMultipleObjects handles.length cells waitAll alertable timeout
                    waitBlocks)
        | .error status => o.result = waitFailed ∧ o.lastError = some (.ntStatus status) ∧
            calls o.log = [] := by
  have hstart : Filled (ω := ω) (ν := ν) capacity ((arrays handles.length).map Event.take) []
      ⟨List.replicate capacity none, List.replicate capacity none, waitBlocks, 0,
        (arrays handles.length).map Event.take⟩ := by
    refine ⟨⟨List.length_replicate, List.length_replicate⟩, rfl, rfl, rfl, nofun, [],
      (List.append_nil _).symm, rfl, fun held => ?_⟩
    exact congrArg some (Multiset.zero_add held).symm
  obtain ⟨⟨x, status⟩, hloop, pairs, hfilled, hblocks, hall⟩ :=
    referenceHandles_spec env handles hstart (by simpa using hcapacity)
  obtain ⟨taken, hlog, hnone, hrun⟩ := hfilled.log
  obtain ⟨rs, hperm, hfree⟩ := freeArrays_eq (ω := ω) (ν := ν) handles.length
  have hdrop := hfilled.dereferenceObjects
  -- what has been taken so far is given back behind any balanced log
  have hbalanced {log : Log ω ν} (h : Balanced log) : Balanced (x.log ++ (log ++
      (dereferenceObjects x ++ freeArrays handles.length))) := by
    have hinner := h.around hrun (List.Perm.refl _)
    have houter := hinner.bracket hperm
    rw [hlog, hdrop, hfree]
    simpa only [List.append_assoc] using houter
  have hcalls (log : Log ω ν) : calls (x.log ++ (log ++
      (dereferenceObjects x ++ freeArrays handles.length))) = calls log := by
    rw [hlog, hdrop, hfree]
    simp only [calls_append, calls_takes, calls_drops, hnone, List.nil_append, List.append_nil]
  unfold waitReferenced
  dsimp only
  have hloop' : referenceHandles env 0 handles ⟨List.replicate capacity none,
      List.replicate capacity none, waitBlocks, 0, (arrays handles.length).map Event.take⟩ =
        .ok (x, status) := hloop
  rw [hloop']
  change match objectsOf env 0 handles with
    | .ok objects => status = none ∧ pairs.map Prod.fst = [] ++ objects
    | .error failure => status = some failure at hall
  cases hobjects : objectsOf env 0 handles with
  | error failure =>
    rw [hobjects] at hall
    subst hall
    refine ⟨_, rfl, ?_, rfl, rfl, ?_⟩
    · exact hbalanced Balanced.nil
    · exact hcalls []
  | ok objects =>
    rw [hobjects] at hall
    obtain ⟨hstatus, hpairs⟩ := hall
    subst hstatus
    refine ⟨_, rfl, ?_, ?_, x.objects, hfilled.size.1, ?_, ?_⟩
    · rw [wait_eq]
      exact hbalanced (balanced_replicate _ _)
    · rw [wait_eq]
    · have hsize := congrArg List.length hpairs
      rw [List.length_map, List.nil_append, length_objectsOf env hobjects] at hsize
      rw [← hsize, hfilled.objects, ← List.nil_append objects, ← hpairs, List.map_map]
      rfl
    · have hsame : x.waitBlocks = waitBlocks := hblocks
      rw [wait_eq]
      change calls (x.log ++ (List.replicate _ _ ++ _)) = _
      rw [hcalls, calls_replicate, hsame]

/-! ## The whole call -/

/-- A call that has not got the memory for its arrays. -/
theorem Exact.failed {dispatcher : Pointer ω ν → Pointer ω ν} {handles : List HandleValue}
    {waitAll alertable : Bool} {timeout : Option Int} {log : Log ω ν}
    (hno : ¬ HasMemory env handles.length) (hlog : Balanced log) (hnone : calls log = []) :
    Exact env dispatcher handles waitAll alertable timeout (failedWith statusNoMemory log) :=
  ⟨hlog, fun _ => ⟨rfl, rfl, hnone⟩, fun hmemory => absurd hmemory hno,
    fun hmemory => absurd hmemory hno⟩

/-- A call that has got it. -/
theorem waitReferenced_exact {handles : List HandleValue} {waitAll alertable : Bool}
    {timeout : Option Int} {waitBlocks : Nat} {log : Log ω ν}
    (hmemory : HasMemory env handles.length) (hcapacity : handles.length ≤ capacity)
    (hblocks : handles.length ≤ waitBlocks)
    (hlog : log = (arrays handles.length).map Event.take) :
    Yields (waitReferenced env handles waitAll alertable timeout
        ⟨List.replicate capacity none, List.replicate capacity none, waitBlocks, 0, log⟩)
      (Exact env id handles waitAll alertable timeout) := by
  subst hlog
  apply (waitReferenced_spec handles waitAll alertable timeout hcapacity).mono
  rintro o ⟨hbalanced, hcase⟩
  refine ⟨hbalanced, fun hno => absurd hmemory hno, fun _ status hstatus => ?_,
    fun _ objects hobjects => ?_⟩
  · rw [hstatus] at hcase
    exact hcase
  · rw [hobjects] at hcase
    obtain ⟨hending, cells, hlength, htake, hcalls⟩ := hcase
    exact ⟨hending, cells, waitBlocks, by rw [hlength]; exact hcapacity, hblocks, htake, hcalls⟩

/-- The branch with a handle of the process: the native objects are waited on by their bodies. -/
theorem waitForMixedObjects_exact (env : Environment ω ν) (handles : List HandleValue)
    (waitAll alertable : Bool) (timeout : Option Int) :
    Yields (waitForMixedObjects env handles waitAll alertable timeout)
      (Exact env id handles waitAll alertable timeout) := by
  have htwo : Balanced ([.take (.array .objects), .take (.array .isLdkObject),
      .drop (.array .objects), .drop (.array .isLdkObject)] : Log ω ν) :=
    Balanced.nil.bracket (List.Perm.refl [Resource.array .objects, .array .isLdkObject])
  have hone (array : TempArray) :
      Balanced ([.take (.array array), .drop (.array array)] : Log ω ν) :=
    Balanced.nil.bracket (List.Perm.refl [Resource.array array])
  unfold waitForMixedObjects
  dsimp only
  by_cases hlarge : tmpLength < handles.length
  · -- all arrays are allocated
    have hmany : threadWaitObjects < handles.length := Nat.lt_trans (by decide) hlarge
    have harrays : arrays handles.length =
        [Resource.array (ω := ω) (ν := ν) .objects, .array .isLdkObject, .array .waitBlocks] := by
      unfold arrays
      rw [if_pos hlarge, if_pos hmany]
      rfl
    simp only [hlarge, hmany, decide_true, Bool.true_and, if_true, true_and]
    unfold allocated released
    cases hobjects : env.allocates .objects with
    | false =>
      -- what could be allocated is freed again
      have hno : ¬ HasMemory env handles.length := fun hmemory => by
        rw [(hmemory.1 hlarge).1] at hobjects
        cases hobjects
      cases hflags : env.allocates .isLdkObject with
      | false => exact .ok (Exact.failed hno Balanced.nil rfl)
      | true => exact .ok (Exact.failed hno (hone .isLdkObject) rfl)
    | true =>
      cases hflags : env.allocates .isLdkObject with
      | false =>
        have hno : ¬ HasMemory env handles.length := fun hmemory => by
          rw [(hmemory.1 hlarge).2] at hflags
          cases hflags
        exact .ok (Exact.failed hno (hone .objects) rfl)
      | true =>
        cases hblocks : env.allocates .waitBlocks with
        | false =>
          have hno : ¬ HasMemory env handles.length := fun hmemory => by
            rw [hmemory.2 hmany] at hblocks
            cases hblocks
          exact .ok (Exact.failed hno htwo rfl)
        | true =>
          apply waitReferenced_exact ⟨fun _ => ⟨hobjects, hflags⟩, fun _ => hblocks⟩
            (Nat.le_refl _) (Nat.le_refl _)
          rw [harrays]
          rfl
  · simp only [hlarge, decide_false, Bool.false_and, if_false]
    by_cases hmany : threadWaitObjects < handles.length
    · -- the wait blocks are allocated
      have harrays : arrays handles.length = [Resource.array (ω := ω) (ν := ν) .waitBlocks] := by
        unfold arrays
        rw [if_neg hlarge, if_pos hmany]
        rfl
      simp only [hmany, true_and, if_true]
      unfold allocated
      cases hblocks : env.allocates .waitBlocks with
      | false =>
        have hno : ¬ HasMemory env handles.length := fun hmemory => by
          rw [hmemory.2 hmany] at hblocks
          cases hblocks
        exact .ok (Exact.failed hno Balanced.nil rfl)
      | true =>
        apply waitReferenced_exact ⟨fun h => absurd h hlarge, fun _ => hblocks⟩
          (Nat.le_of_not_lt hlarge) (Nat.le_refl _)
        rw [harrays]
        rfl
    · -- all arrays are on the stack
      have harrays : arrays handles.length = ([] : List (Resource ω ν)) := by
        unfold arrays
        rw [if_neg hlarge, if_neg hmany]
        rfl
      simp only [hmany, false_and, if_false]
      apply waitReferenced_exact ⟨fun h => absurd h hlarge, fun h => absurd h hmany⟩
        (Nat.le_of_not_lt hlarge) (Nat.le_of_not_lt hmany)
      rw [harrays]
      rfl

/-! ## One handle -/

/-- What a call of the kernel waits on, and how. -/
def Call.waitsOn : Call ω ν → Cells (Pointer ω ν) × Bool × Option Int
  | .keWaitForSingleObject object alertable timeout => ([some object], alertable, timeout)
  | .keWaitForMultipleObjects count objects _ alertable timeout _ =>
    (objects.take count, alertable, timeout)
  | _ => ([], false, none)

/-- Two calls return the same, and take, wait on and drop the same in the same order. -/
def Same (o o' : Outcome ω ν) : Prop :=
  o.result = o'.result ∧ o.lastError = o'.lastError ∧
    o.log.map (Event.mapNote Call.waitsOn) = o'.log.map (Event.mapNote Call.waitsOn)

/-- The logs around the same waits. -/
theorem map_replicate_note (front back : Log ω ν) (n : Nat) {call call' : Call ω ν}
    (h : call.waitsOn = call'.waitsOn) :
    (front ++ (List.replicate n (Event.note call) ++ back)).map (Event.mapNote Call.waitsOn) =
      (front ++ (List.replicate n (Event.note call') ++ back)).map
        (Event.mapNote Call.waitsOn) := by
  simp only [List.map_append, List.map_replicate, Event.mapNote, h]

/-- A wait on one handle of the process, alone or in an array. -/
theorem waitForSingleObjectEx_same (env : Environment ω ν) {handle : HandleValue}
    (hldk : ldkIsProcessHandleCandidate handle = true) (waitAll alertable : Bool)
    (milliseconds : BitVec 32) {o : Outcome ω ν}
    (ho : waitForMultipleObjectsEx env [handle] waitAll milliseconds alertable = .ok o) :
    Same (waitForSingleObjectEx env handle milliseconds alertable) o := by
  obtain ⟨hstands, hne⟩ := ldkReference_spec env 0 hldk
  have hreference : referenceHandle env 0 handle = ldkReferenceProcessWaitObject env 0 handle := by
    unfold referenceHandle
    exact if_neg hne
  have hmixed : waitForMultipleObjectsEx env [handle] waitAll milliseconds alertable =
      waitReferenced env [handle] waitAll alertable (ldkFormatTimeout milliseconds)
        ⟨List.replicate tmpLength none, List.replicate tmpLength none, threadWaitObjects, 0,
          []⟩ := by
    have hany : [handle].any ldkIsProcessHandleCandidate = true := by
      rw [List.any_cons, hldk]
      rfl
    unfold waitForMultipleObjectsEx
    dsimp only
    rw [hany]
    rfl
  rw [hmixed] at ho
  unfold waitReferenced at ho
  unfold waitForSingleObjectEx
  dsimp only at ho ⊢
  obtain ⟨r, hr⟩ : ∃ r, ldkReferenceProcessWaitObject env 0 handle = r := ⟨_, rfl⟩
  rw [hr] at hreference hne hstands ⊢
  cases hsuccess : ntSuccess r.status with
  | false =>
    -- the only handle cannot be referenced, and both return its status
    have hloop : referenceHandles env 0 [handle] ⟨List.replicate tmpLength none,
        List.replicate tmpLength none, threadWaitObjects, 0, []⟩ =
          .ok (⟨some r.object :: List.replicate 7 none,
            some r.isLdkObject :: List.replicate 7 none, threadWaitObjects, 0, [] ++ r.log⟩,
              some r.status) := by
      rw [referenceHandles, hreference]
      exact if_pos hsuccess
    rw [hloop] at ho
    obtain rfl := Except.ok.inj ho
    rw [if_neg Bool.false_ne_true, if_pos hne]
    refine ⟨rfl, rfl, ?_⟩
    change _ = List.map _ (([] ++ r.log) ++ ([] ++ []))
    rw [List.nil_append, List.nil_append, List.append_nil]
  | true =>
    -- the only handle is referenced, waited for and dereferenced
    have hloop : referenceHandles env 0 [handle] ⟨List.replicate tmpLength none,
        List.replicate tmpLength none, threadWaitObjects, 0, []⟩ =
          .ok (⟨some r.object :: List.replicate 7 none,
            some r.isLdkObject :: List.replicate 7 none, threadWaitObjects, 1, [] ++ r.log⟩,
              none) := by
      rw [referenceHandles, hreference]
      exact if_neg (by rw [hsuccess]; exact Bool.noConfusion)
    rw [hloop] at ho
    obtain rfl := Except.ok.inj ho
    rw [if_pos rfl]
    refine ⟨by rw [wait_eq, wait_eq], by rw [wait_eq, wait_eq], ?_⟩
    change _ = List.map _ (([] ++ r.log) ++ (_ ++
      ((ldkDereferenceProcessWaitObject r.object r.isLdkObject ++ []) ++ [])))
    rw [wait_eq, wait_eq, List.nil_append, List.append_nil, List.append_nil]
    exact map_replicate_note _ _ _ rfl

/-! ## The dispatcher objects -/

/-- The bodies that are passed are the dispatcher objects when the native objects are waited on by
them. -/
theorem Exact.dispatcherOf_iff {handles : List HandleValue} {waitAll alertable : Bool}
    {timeout : Option Int} {o : Outcome ω ν}
    (h : Exact env id handles waitAll alertable timeout o) (waitsOnBody : ν → Bool) :
    Exact env (dispatcherOf waitsOnBody) handles waitAll alertable timeout o ↔
      WaitsOnBodies env waitsOnBody handles := by
  constructor
  · intro hnative hmemory objects hobjects object hmem
    -- the objects that have been passed are the bodies, and the dispatcher objects
    obtain ⟨-, cells, blocks, -, -, htake, hcalls⟩ := h.waited hmemory objects hobjects
    obtain ⟨-, cells', blocks', -, -, htake', hcalls'⟩ := hnative.waited hmemory objects hobjects
    have hcall := (List.replicate_inj.1 (hcalls.symm.trans hcalls')).2.resolve_left
      (Nat.ne_of_gt (rounds_pos env alertable))
    injection hcall with _ hcells
    rw [hcells, htake'] at htake
    have hsame := List.map_inj_left.1 htake _ hmem
    change some (if waitsOnBody object then Pointer.body object else .dispatcher object) = _
      at hsame
    by_contra hnot
    rw [if_neg hnot] at hsame
    cases hsame
  · intro hbodies
    refine ⟨h.balanced, h.noMemory, h.refused, fun hmemory objects hobjects => ?_⟩
    obtain ⟨hending, cells, blocks, hcells, hblocks, htake, hcalls⟩ :=
      h.waited hmemory objects hobjects
    refine ⟨hending, cells, blocks, hcells, hblocks, ?_, hcalls⟩
    rw [htake]
    apply List.map_congr_left
    intro p hp
    cases p with
    | body object =>
      change some (Pointer.body object) =
        some (if waitsOnBody object then Pointer.body object else .dispatcher object)
      rw [if_pos (hbodies hmemory objects hobjects object hp)]
    | null => rfl
    | processExitEvent => rfl
    | mutant waitObject => rfl
    | dispatcher object => rfl

/-- **Waits on handles of both kinds.** For every table and every failure, a call is exact exactly
when the native objects among those it waits on are waited on by their bodies. A call with one
handle does what a wait on this handle does. -/
theorem mixed_waits_are_exact (env : Environment ω ν) (waitsOnBody : ν → Bool)
    (handles : List HandleValue)
    (hcount : 0 < handles.length ∧ handles.length ≤ maximumWaitObjects)
    (hldk : ∃ handle ∈ handles, ldkIsProcessHandleCandidate handle = true)
    (waitAll alertable : Bool) (milliseconds : BitVec 32) :
    ∃ o, waitForMultipleObjectsEx env handles waitAll milliseconds alertable = .ok o ∧
      ((Exact env (dispatcherOf waitsOnBody) handles waitAll alertable
          (ldkFormatTimeout milliseconds) o ∧
        ∀ handle, handles = [handle] →
          Same (waitForSingleObjectEx env handle milliseconds alertable) o) ↔
        WaitsOnBodies env waitsOnBody handles) := by
  have hmixed : waitForMultipleObjectsEx env handles waitAll milliseconds alertable =
      waitForMixedObjects env handles waitAll alertable (ldkFormatTimeout milliseconds) := by
    unfold waitForMultipleObjectsEx
    rw [if_neg (by omega), if_pos (List.any_eq_true.2 hldk)]
  obtain ⟨o, ho, hexact⟩ :=
    waitForMixedObjects_exact env handles waitAll alertable (ldkFormatTimeout milliseconds)
  refine ⟨o, hmixed.trans ho, ?_⟩
  rw [hexact.dispatcherOf_iff waitsOnBody]
  -- that one handle is waited for alike is so in any case
  apply and_iff_left
  intro handle hhandles
  subst hhandles
  obtain ⟨candidate, hmem, hcandidate⟩ := hldk
  rw [List.mem_singleton] at hmem
  subst hmem
  exact waitForSingleObjectEx_same env hcandidate waitAll alertable milliseconds (hmixed.trans ho)

/-- A file with a handle, beside the handle of the process itself. -/
def fileEnvironment : Environment Nat Nat where
  table _ := []
  objectType _ := .mutant
  obReferenceObjectByHandle _ handle := if handle = 8 then .ok 0 else .error statusInvalidHandle
  allocates _ := true
  alerts := 0
  answer := statusSuccess
  obReference_fails _ handle status h := by
    by_cases hfile : handle = 8
    · rw [if_pos hfile] at h
      cases h
    · rw [if_neg hfile] at h
      obtain rfl := Except.error.inj h
      exact ntSuccess_failures.1
  answer_ne := by decide

/-- An object that is waited on by its body, like an event. -/
theorem event_beside_process_is_waited : ∃ o : Outcome Nat Nat,
    waitForMultipleObjectsEx fileEnvironment [zwCurrentProcess, 8] false 0xFFFFFFFF false = .ok o ∧
      Exact fileEnvironment (dispatcherOf fun _ => true) [zwCurrentProcess, 8] false false none
        o := by
  obtain ⟨o, ho, hexact⟩ := mixed_waits_are_exact fileEnvironment (fun _ => true)
    [zwCurrentProcess, 8] (by decide) ⟨zwCurrentProcess, by decide, by decide⟩ false false
    0xFFFFFFFF
  exact ⟨o, ho, (hexact.2 fun _ _ _ _ _ => rfl).1⟩

/-- A file is waited on by the event in it, but its body is passed. -/
theorem file_body_is_passed : ∃ o : Outcome Nat Nat,
    waitForMultipleObjectsEx fileEnvironment [zwCurrentProcess, 8] false 0xFFFFFFFF false = .ok o ∧
      ¬ Exact fileEnvironment (dispatcherOf fun _ => false) [zwCurrentProcess, 8] false false none
        o := by
  obtain ⟨o, ho, hexact⟩ := waitForMixedObjects_exact fileEnvironment [zwCurrentProcess, 8] false
    false (ldkFormatTimeout 0xFFFFFFFF)
  refine ⟨o, ho, fun hdispatchers => ?_⟩
  have hbodies := (hexact.dispatcherOf_iff fun _ => false).1 hdispatchers
  have hmemory : HasMemory fileEnvironment ([zwCurrentProcess, 8] : List HandleValue).length :=
    ⟨fun _ => ⟨rfl, rfl⟩, fun _ => rfl⟩
  exact Bool.noConfusion (hbodies hmemory [.processExitEvent, .body 0] rfl 0 (by simp))

end Ldk.ProcessHandle
