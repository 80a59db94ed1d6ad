import Mathlib
import Ldk.ProcessHandle.State

/-!
# Operations on the process through handles

While no operation on the process is asked of an open handle of a wait object whose mask has the
right, an operation that succeeds on a handle of the table has found it open, made for the process,
and granted the right, and the exit status changes in no other way (`process_handles_are_typed`).
Nothing else in the routines looks at the type: a mutex handle with `MUTEX_MODIFY_STATE` ends the
process (`mutex_handle_terminates_the_process`).
-/

namespace Ldk.ProcessHandle

open TransitionSystem
open Ldk.WaitObject (AccessMask hasAccess mutexModifyState)

variable {κ ω : Type}

/-! ## Entitlement and the condition -/

/-- The handle is open, was made for the process and was granted the right. -/
def State.Entitles (s : State κ ω) (operation : Operation) (handle : HandleValue) : Prop :=
  ∃ r ∈ s.handles, r.handle = handle ∧ r.type = .currentProcess ∧
    operation.permits r.grantedAccess = true

/-- The handle is open for a wait object, with a mask that has the right. -/
def State.TakesWaitObject (s : State κ ω) (operation : Operation) (handle : HandleValue) : Prop :=
  ∃ r ∈ s.handles, r.handle = handle ∧ r.type ≠ .currentProcess ∧
    operation.permits r.grantedAccess = true ∧ operation.Available s.peb

/-- No operation is asked of such a handle. -/
def KeepsTypes (s : State κ ω) : Action κ ω → Prop
  | .lookUp _ operation handle => ¬ s.TakesWaitObject operation handle
  | _ => True

/-- The record that a call has found entitles it to the operation. -/
def EntitledBy (operation : Operation) (handle : HandleValue) (found : Option (Record ω)) : Prop :=
  ∃ r ∈ found, r.handle = handle ∧ r.type = .currentProcess ∧
    operation.permits r.grantedAccess = true

structure Sound [DecidableEq κ] (s : State κ ω) : Prop where
  answered : ∀ c operation handle found value,
    s.stage c = .answered operation handle found (.success value) →
    isTaggedProcessHandle handle = true → isCurrentProcessPseudoHandle handle = false →
    EntitledBy operation handle found
  /-- Only a call of `LdkTerminateProcessHandle` changes the exit status. -/
  exitStatus : ∀ a, Enabled s a → (next s a).peb.exitStatus ≠ s.peb.exitStatus →
    ∃ c exitCode handle found, a = .answer c (.terminate exitCode) handle found ∧
      (isCurrentProcessPseudoHandle handle = true ∨
        EntitledBy (.terminate exitCode) handle found)

/-! ## Handle values -/

theorem getElem_tag {i : Nat} (hi : i < 64) : processHandleTag[i] = decide (i = 0) := by
  unfold processHandleTag
  simp

theorem getElem_zero_of_aligned (a : PoolAddress) : a.val[0] = false := by
  have h := congrArg (fun x : HandleValue => x[0]) a.property.2
  simpa using h

theorem isTagged_iff (handle : HandleValue) :
    isTaggedProcessHandle handle = true ↔ handle[0] = true := by
  unfold isTaggedProcessHandle
  rw [Bool.and_eq_true, bne_iff_ne, bne_iff_ne]
  constructor
  · rintro ⟨-, hne⟩
    by_contra hzero
    apply hne
    ext i hi
    by_cases hi0 : i = 0
    · subst hi0
      simp [hzero]
    · simp [getElem_tag hi, hi0]
  · intro hone
    constructor
    · rintro rfl
      simp at hone
    · intro hzero
      have h := congrArg (fun x : HandleValue => x[0]) hzero
      simp [hone, getElem_tag] at h

theorem isTagged_encode (a : PoolAddress) :
    isTaggedProcessHandle (encodeProcessHandle a) = true := by
  rw [isTagged_iff]
  unfold encodeProcessHandle
  simp [getElem_tag]

theorem decode_encode (a : PoolAddress) :
    decodeProcessHandle (encodeProcessHandle a) = a.val := by
  unfold decodeProcessHandle encodeProcessHandle
  ext i hi
  by_cases hi0 : i = 0
  · subst hi0
    simp [getElem_tag, getElem_zero_of_aligned a]
  · simp [getElem_tag hi, hi0]

theorem encode_of_decode {handle : HandleValue} (h : isTaggedProcessHandle handle = true)
    {a : PoolAddress} (ha : a.val = decodeProcessHandle handle) :
    encodeProcessHandle a = handle := by
  rw [isTagged_iff] at h
  unfold encodeProcessHandle
  rw [ha]
  unfold decodeProcessHandle
  ext i hi
  by_cases hi0 : i = 0
  · subst hi0
    simp [getElem_tag, h]
  · simp [getElem_tag hi, hi0]

/-! ## The table -/

/-- No two records share an address, and all have the magic. -/
structure Valid (handles : List (Record ω)) : Prop where
  distinct : (handles.map Record.address).Nodup
  magic : ∀ r ∈ handles, r.magic = processHandleMagic

theorem Record.matches_iff {r : Record ω} {handle : HandleValue}
    (h : isTaggedProcessHandle handle = true) (hmagic : r.magic = processHandleMagic) :
    r.Matches handle = true ↔ r.handle = handle := by
  unfold Record.Matches Record.handle
  rw [Bool.and_eq_true, beq_iff_eq, beq_iff_eq]
  constructor
  · rintro ⟨haddress, -⟩
    exact encode_of_decode h haddress
  · rintro rfl
    exact ⟨(decode_encode r.address).symm, hmagic⟩

namespace Valid

variable {handles : List (Record ω)} {handle : HandleValue} {r : Record ω}

/-- A handle stands for one record. -/
theorem eq_of_handle_eq (h : Valid handles) {r' : Record ω} (hr : r ∈ handles)
    (hr' : r' ∈ handles) (heq : r.handle = r'.handle) : r = r' := by
  apply List.inj_on_of_nodup_map h.distinct hr hr'
  apply Subtype.ext
  rw [← decode_encode r.address, ← decode_encode r'.address]
  exact congrArg decodeProcessHandle heq

/-- The lookup finds the record of an open handle, and nothing else. -/
theorem lookup_eq_some_iff (h : Valid handles) :
    lookupProcessHandleLocked handles handle = some r ↔ r ∈ handles ∧ r.handle = handle := by
  constructor
  · intro hfound
    unfold lookupProcessHandleLocked at hfound
    split at hfound
    case isTrue htag =>
      have hmem := List.mem_of_find?_eq_some hfound
      exact ⟨hmem, (Record.matches_iff htag (h.magic r hmem)).1 (List.find?_some hfound)⟩
    case isFalse => cases hfound
  · rintro ⟨hmem, rfl⟩
    have htag : isTaggedProcessHandle r.handle = true := isTagged_encode r.address
    unfold lookupProcessHandleLocked
    rw [if_pos htag]
    cases hfound : handles.find? (Record.Matches r.handle) with
    | none =>
      have hnot := List.find?_eq_none.1 hfound r hmem
      exact absurd ((Record.matches_iff htag (h.magic r hmem)).2 rfl) hnot
    | some r' =>
      have hmem' := List.mem_of_find?_eq_some hfound
      have heq := (Record.matches_iff htag (h.magic r' hmem')).1 (List.find?_some hfound)
      rw [h.eq_of_handle_eq hmem' hmem heq]

theorem nil : Valid ([] : List (Record ω)) := ⟨List.nodup_nil, fun _ h => nomatch h⟩

/-- A new record has an address of its own. -/
theorem append (h : Valid handles) (hnew : ∀ r' ∈ handles, r'.address ≠ r.address)
    (hmagic : r.magic = processHandleMagic) : Valid (handles ++ [r]) where
  distinct := by
    rw [List.map_append, List.nodup_append]
    refine ⟨h.distinct, List.nodup_singleton _, ?_⟩
    intro a ha b hb heq
    obtain ⟨r', hr', rfl⟩ := List.mem_map.1 ha
    obtain rfl := List.mem_singleton.1 hb
    exact hnew r' hr' heq
  magic r' hr' := by
    rcases List.mem_append.1 hr' with hr' | hr'
    · exact h.magic r' hr'
    · rw [List.mem_singleton.1 hr', hmagic]

theorem eraseP (h : Valid handles) (p : Record ω → Bool) : Valid (handles.eraseP p) where
  distinct := h.distinct.sublist (List.eraseP_sublist.map _)
  magic r' hr' := h.magic r' (List.mem_of_mem_eraseP hr')

end Valid

/-! ## What an operation answers -/

theorem throughHandle_eq_success_iff {α : Type} {permits : AccessMask → Bool}
    {handle : HandleValue} {granted : Option AccessMask} {untagged done : Reply α} {value : α}
    (htag : isTaggedProcessHandle handle = true)
    (hpseudo : isCurrentProcessPseudoHandle handle = false) :
    throughHandle permits handle granted untagged done = .success value ↔
      (∃ mask ∈ granted, permits mask = true) ∧ done = .success value := by
  unfold throughHandle
  rw [hpseudo, htag, if_neg Bool.false_ne_true, if_pos rfl]
  cases granted with
  | none => simp
  | some mask => by_cases hmask : permits mask = true <;> simp [hmask]

section Terminate

variable {peb : Peb} {handle : HandleValue} {exitCode : BitVec 32} {granted : Option AccessMask}

theorem terminateProcessHandle_fst (peb : Peb) (handle : HandleValue) (exitCode : BitVec 32)
    (granted : Option AccessMask) : (terminateProcessHandle peb handle exitCode granted).1 =
      throughHandle (hasAccess · processTerminate) handle granted .notHandled
        (.success .nothing) := by
  unfold terminateProcessHandle
  split
  case h_1 value hvalue => exact hvalue.symm
  case h_2 => rfl

theorem terminateProcessHandle_snd_of_fails
    (h : ¬ ∃ value, (terminateProcessHandle peb handle exitCode granted).1 = .success value) :
    (terminateProcessHandle peb handle exitCode granted).2 = peb := by
  rw [terminateProcessHandle_fst] at h
  unfold terminateProcessHandle
  split
  case h_1 value hvalue => exact absurd ⟨value, hvalue⟩ h
  case h_2 => rfl

/-- The names stay. -/
theorem terminateProcessHandle_available (operation : Operation) :
    operation.Available (terminateProcessHandle peb handle exitCode granted).2 ↔
      operation.Available peb := by
  unfold terminateProcessHandle
  split
  case h_1 =>
    unfold Peb.setProcessExitCode
    split_ifs
    case pos => cases operation <;> exact Iff.rfl
    case neg => exact Iff.rfl
  case h_2 => exact Iff.rfl

end Terminate

namespace Operation

variable {peb : Peb} {handle : HandleValue} {granted : Option AccessMask}

/-- All routines go the same way, and fail after the test only for want of an image name. -/
theorem run_fst_eq (operation : Operation) (peb : Peb) (handle : HandleValue)
    (granted : Option AccessMask) : ∃ untagged done,
    (operation.run peb handle granted).1 =
        throughHandle operation.permits handle granted untagged done ∧
      ((∃ value, done = .success value) ↔ operation.Available peb) := by
  cases operation with
  | getProcessImageName flags =>
    refine ⟨.notHandled, peb.imageName flags, rfl, ?_⟩
    unfold Peb.imageName Available
    split_ifs with hnative hempty hempty <;> simp_all [List.length_eq_zero_iff]
  | terminate exitCode =>
    exact ⟨_, _, terminateProcessHandle_fst peb handle exitCode granted, by simp [Available]⟩
  | resolveForNativeDuplicate | resolveForNativeQuery | getProcessId | getExitCode
  | validateForSetInformation => exact ⟨_, _, rfl, by simp [Available]⟩

/-- On a handle of the table an operation succeeds exactly when the mask permits it. -/
theorem run_succeeds_iff (operation : Operation) (htag : isTaggedProcessHandle handle = true)
    (hpseudo : isCurrentProcessPseudoHandle handle = false) :
    (∃ value, (operation.run peb handle granted).1 = .success value) ↔
      (∃ mask ∈ granted, operation.permits mask = true) ∧ operation.Available peb := by
  obtain ⟨untagged, done, hrun, hdone⟩ := operation.run_fst_eq peb handle granted
  rw [hrun, ← hdone]
  constructor
  · rintro ⟨value, hsuccess⟩
    have h := (throughHandle_eq_success_iff htag hpseudo).1 hsuccess
    exact ⟨h.1, value, h.2⟩
  · rintro ⟨hmask, value, hvalue⟩
    exact ⟨value, (throughHandle_eq_success_iff htag hpseudo).2 ⟨hmask, hvalue⟩⟩

/-- The exit status changes through `LdkTerminateProcessHandle` alone, when it succeeds. -/
theorem run_exitStatus (operation : Operation)
    (hne : (operation.run peb handle granted).2.exitStatus ≠ peb.exitStatus) :
    ∃ exitCode, operation = .terminate exitCode ∧
      ∃ value, (operation.run peb handle granted).1 = .success value := by
  cases operation with
  | terminate exitCode =>
    refine ⟨exitCode, rfl, ?_⟩
    by_contra hno
    exact hne (congrArg Peb.exitStatus (terminateProcessHandle_snd_of_fails hno))
  | _ => exact absurd rfl hne

/-- A value that is not tagged is never given an exit code. -/
theorem run_terminate_untagged {exitCode : BitVec 32} {value : Value}
    (h : ((terminate exitCode).run peb handle granted).1 = .success value) :
    isCurrentProcessPseudoHandle handle = true ∨ isTaggedProcessHandle handle = true := by
  by_contra hno
  rw [not_or] at hno
  have hreply := (terminateProcessHandle_fst peb handle exitCode granted).symm.trans h
  unfold throughHandle at hreply
  rw [if_neg hno.1, if_neg hno.2] at hreply
  cases hreply

theorem run_available (operation other : Operation) :
    other.Available (operation.run peb handle granted).2 ↔ other.Available peb := by
  cases operation with
  | terminate exitCode => exact terminateProcessHandle_available other
  | _ => exact Iff.rfl

end Operation

/-! ## What a step does -/

section Steps

variable [DecidableEq κ] {guard : State κ ω → Action κ ω → Prop}

theorem valid_remove {s : State κ ω} (h : Valid s.handles) (c : κ) (handle : HandleValue)
    (reply : Option (Reply Value)) : Valid (s.remove c handle reply).handles := by
  unfold State.remove
  split
  case h_1 => exact h
  case h_2 => exact h.eraseP _

theorem valid_insert {s : State κ ω} (h : Valid s.handles) (c : κ) (access : AccessMask)
    (type : HandleType ω) (source : Option HandleValue) {address : Option PoolAddress}
    (hnew : ∀ a ∈ address, ∀ r ∈ s.handles, r.address ≠ a) :
    Valid (s.insert c access type source address).handles := by
  cases address with
  | none => exact h
  | some a => exact h.append (hnew a rfl) rfl

@[simp] theorem handles_lookUpSource (s : State κ ω) (c : κ) (source : HandleValue)
    (access : AccessMask) (options : BitVec 32) :
    (s.lookUpSource c source access options).handles = s.handles := by
  unfold State.lookUpSource
  split <;> rfl

@[simp] theorem handles_lookUpMutant (s : State κ ω) (c : κ) (handle : HandleValue) :
    (s.lookUpMutant c handle).handles = s.handles := by
  unfold State.lookUpMutant
  split <;> rfl

/-- Only two of the steps touch the list. -/
theorem valid_next {s : State κ ω} {a : Action κ ω} (h : Valid s.handles) (hen : Enabled s a) :
    Valid (next s a).handles := by
  cases a with
  | remove c handle reply => exact valid_remove h c handle reply
  | insert c access type source address => exact valid_insert h c access type source hen.2
  | obtain c access object => cases object <;> exact h
  | lookUpSource c source access options => exact (handles_lookUpSource s ..) ▸ h
  | lookUpMutant c handle => exact (handles_lookUpMutant s c handle) ▸ h
  | begin | release | lookUp | answer => exact h

theorem valid_of_reachable :
    ∀ s : State κ ω, (processHandles κ ω).Reachable guard s → Valid s.handles := by
  apply System.Reachable.invariant
  case hinit =>
    rintro s ⟨hempty, -⟩
    rw [hempty]
    exact Valid.nil
  case hstep =>
    intro s a h hen _
    exact valid_next h hen

/-! ## The invariant -/

/-- A lookup that came upon a record which permits the operation came upon a handle of the
process. -/
def Stage.Typed (peb : Peb) : Stage ω → Prop
  | .answering operation handle found =>
    isTaggedProcessHandle handle = true → isCurrentProcessPseudoHandle handle = false →
      ∀ r ∈ found, operation.permits r.grantedAccess = true → operation.Available peb →
        r.handle = handle ∧ r.type = .currentProcess
  | .answered operation handle found (.success _) =>
    isTaggedProcessHandle handle = true → isCurrentProcessPseudoHandle handle = false →
      EntitledBy operation handle found
  | _ => True

/-- All calls have come by their records in this way. -/
def Typed (s : State κ ω) : Prop := ∀ c, (s.stage c).Typed s.peb

theorem Typed.goto {s : State κ ω} (h : Typed s) (c : κ) {v : Stage ω} (hv : v.Typed s.peb) :
    Typed (s.goto c v) := by
  intro d
  by_cases hd : d = c
  · subst hd
    show Stage.Typed s.peb (Function.update s.stage d v d)
    rw [Function.update_self]
    exact hv
  · show Stage.Typed s.peb (Function.update s.stage c v d)
    rw [Function.update_of_ne hd]
    exact h d

theorem Request.typed_start (request : Request) (peb : Peb) :
    (request.start : Stage ω).Typed peb := by
  cases request with
  | process operation handle =>
    simp only [Request.start]
    split_ifs
    · intro _ _ r hr
      cases hr
    · trivial
    · intro _ _ r hr
      cases hr
  | close | duplicate | releaseMutant =>
    simp only [Request.start]
    split_ifs <;> trivial
  | createCurrentProcess | createMutant => trivial

/-- The lookup of an operation, while no handle of a wait object has the right. -/
theorem Typed.lookUp {s : State κ ω} (h : Typed s) (hvalid : Valid s.handles) (c : κ)
    {operation : Operation} {handle : HandleValue}
    (hguard : ¬ s.TakesWaitObject operation handle) :
    Typed (s.goto c (.answering operation handle (s.lookup handle))) := by
  apply h.goto
  intro _ _ r hr hpermits havailable
  obtain ⟨hmem, hhandle⟩ := hvalid.lookup_eq_some_iff.1 hr
  refine ⟨hhandle, ?_⟩
  by_contra htype
  exact hguard ⟨r, hmem, hhandle, htype, hpermits, havailable⟩

/-- A call that answers with success has the record that entitles it. -/
theorem Stage.Typed.entitled {peb : Peb} {operation : Operation} {handle : HandleValue}
    {found : Option (Record ω)} (h : (Stage.answering operation handle found).Typed peb)
    (htag : isTaggedProcessHandle handle = true)
    (hpseudo : isCurrentProcessPseudoHandle handle = false)
    (hsuccess : ∃ value,
      (operation.run peb handle (found.map Record.grantedAccess)).1 = .success value) :
    EntitledBy operation handle found := by
  obtain ⟨⟨mask, hmask, hpermits⟩, havailable⟩ :=
    (operation.run_succeeds_iff htag hpseudo).1 hsuccess
  obtain ⟨r, hr, rfl⟩ := Option.map_eq_some_iff.1 hmask
  obtain ⟨hhandle, htype⟩ := h htag hpseudo r hr hpermits havailable
  exact ⟨r, hr, hhandle, htype, hpermits⟩

/-- The exit status is no part of what has been found. -/
theorem Stage.Typed.of_available {peb peb' : Peb} {v : Stage ω} (h : v.Typed peb)
    (hpeb : ∀ operation : Operation, operation.Available peb' ↔ operation.Available peb) :
    v.Typed peb' := by
  unfold Stage.Typed at h ⊢
  split
  case h_1 =>
    intro htag hpseudo r hr hpermits havailable
    exact h htag hpseudo r hr hpermits ((hpeb _).1 havailable)
  case h_2 => exact h
  case h_3 => trivial

theorem Typed.answer {s : State κ ω} (h : Typed s) {c : κ} {operation : Operation}
    {handle : HandleValue} {found : Option (Record ω)}
    (hstage : s.stage c = .answering operation handle found) :
    Typed (s.answer c operation handle found) := by
  have hfound := h c
  rw [hstage] at hfound
  unfold State.answer
  apply Typed.goto
  · intro d
    exact (h d).of_available (operation.run_available)
  · unfold Stage.Typed
    split
    case h_1 heq => cases heq
    case h_2 _ _ _ _ heq =>
      injection heq with hop hhandle hfd hreply
      subst hop hhandle hfd
      intro htag hpseudo
      exact hfound.entitled htag hpseudo ⟨_, hreply⟩
    case h_3 => trivial

theorem Typed.insert {s : State κ ω} (h : Typed s) (c : κ) (access : AccessMask)
    (type : HandleType ω) (source : Option HandleValue) (address : Option PoolAddress) :
    Typed (s.insert c access type source address) := by
  cases address with
  | none => exact h.goto c trivial
  | some a =>
    apply Typed.goto
    · exact h
    · cases source <;> trivial

theorem Typed.remove {s : State κ ω} (h : Typed s) (c : κ) (handle : HandleValue)
    (reply : Option (Reply Value)) : Typed (s.remove c handle reply) := by
  unfold State.remove
  split
  case h_1 => exact h.goto c trivial
  case h_2 =>
    apply Typed.goto
    · exact h
    · trivial

theorem Typed.lookUpSource {s : State κ ω} (h : Typed s) (c : κ) (source : HandleValue)
    (access : AccessMask) (options : BitVec 32) :
    Typed (s.lookUpSource c source access options) := by
  unfold State.lookUpSource
  split <;> exact h.goto c trivial

theorem Typed.lookUpMutant {s : State κ ω} (h : Typed s) (c : κ) (handle : HandleValue) :
    Typed (s.lookUpMutant c handle) := by
  unfold State.lookUpMutant
  split <;> exact h.goto c trivial

theorem typed_next {s : State κ ω} {a : Action κ ω} (hvalid : Valid s.handles) (h : Typed s)
    (hen : Enabled s a) (hguard : KeepsTypes s a) : Typed (next s a) := by
  cases a with
  | begin c request => exact h.goto c (request.typed_start s.peb)
  | lookUp c operation handle => exact h.lookUp hvalid c hguard
  | answer c operation handle found => exact h.answer hen
  | obtain c access object => cases object <;> exact h.goto c trivial
  | release c object raised => exact h.goto c trivial
  | insert c access type source address => exact h.insert c access type source address
  | remove c handle reply => exact h.remove c handle reply
  | lookUpSource c source access options => exact h.lookUpSource c source access options
  | lookUpMutant c handle => exact h.lookUpMutant c handle

/-- Under the condition every state is typed. -/
theorem typed_of_reachable :
    ∀ s : State κ ω, (processHandles κ ω).Reachable KeepsTypes s → Typed s := by
  refine System.Reachable.invariantUnder valid_of_reachable ?hinit ?hstep
  case hinit =>
    rintro s ⟨-, hstage⟩ c
    rw [hstage c]
    trivial
  case hstep =>
    intro s a hvalid h hen hguard
    exact typed_next hvalid h hen hguard

/-! ## The exit status -/

theorem peb_next_of_not_answer {s : State κ ω} {a : Action κ ω}
    (h : ∀ c operation handle found, a ≠ .answer c operation handle found) :
    (next s a).peb = s.peb := by
  cases a with
  | answer c operation handle found => exact absurd rfl (h c operation handle found)
  | obtain c access object => cases object <;> rfl
  | insert c access type source address => cases address <;> rfl
  | remove c handle reply =>
    show (s.remove c handle reply).peb = s.peb
    unfold State.remove
    split <;> rfl
  | lookUpSource c source access options =>
    show (s.lookUpSource c source access options).peb = s.peb
    unfold State.lookUpSource
    split <;> rfl
  | lookUpMutant c handle =>
    show (s.lookUpMutant c handle).peb = s.peb
    unfold State.lookUpMutant
    split <;> rfl
  | begin | release | lookUp => rfl

theorem sound_of_typed {s : State κ ω} (h : Typed s) : Sound s where
  answered c operation handle found value hstage := by
    have hc := h c
    rw [hstage] at hc
    exact hc
  exitStatus a hen hne := by
    by_cases ha : ∀ c operation handle found, a ≠ .answer c operation handle found
    · exact absurd (congrArg Peb.exitStatus (peb_next_of_not_answer ha)) hne
    · obtain ⟨c, operation, handle, found, rfl⟩ :
          ∃ c operation handle found, a = .answer c operation handle found := by
        by_contra hno
        exact ha fun c operation handle found heq => hno ⟨c, operation, handle, found, heq⟩
      obtain ⟨exitCode, rfl, value, hsuccess⟩ := operation.run_exitStatus hne
      refine ⟨c, exitCode, handle, found, rfl, ?_⟩
      by_cases hpseudo : isCurrentProcessPseudoHandle handle = true
      · exact .inl hpseudo
      · have htag := (Operation.run_terminate_untagged hsuccess).resolve_left hpseudo
        have hc := h c
        rw [show s.stage c = _ from hen] at hc
        exact .inr (hc.entitled htag (Bool.eq_false_iff.2 hpseudo) ⟨value, hsuccess⟩)

end Steps

/-! ## Type safety -/

/-- An operation on a handle of the table succeeds when a record permits it, whatever its type. -/
theorem succeeds_iff {s : State κ ω} (hvalid : Valid s.handles) (operation : Operation)
    {handle : HandleValue} (htag : isTaggedProcessHandle handle = true)
    (hpseudo : isCurrentProcessPseudoHandle handle = false) :
    (∃ value, (operation.run s.peb handle ((s.lookup handle).map Record.grantedAccess)).1 =
        .success value) ↔
      (∃ r ∈ s.handles, r.handle = handle ∧ operation.permits r.grantedAccess = true) ∧
        operation.Available s.peb := by
  rw [operation.run_succeeds_iff htag hpseudo]
  refine and_congr_left fun _ => ?_
  constructor
  · rintro ⟨mask, hmask, hpermits⟩
    obtain ⟨r, hr, rfl⟩ := Option.map_eq_some_iff.1 hmask
    obtain ⟨hmem, hhandle⟩ := hvalid.lookup_eq_some_iff.1 hr
    exact ⟨r, hmem, hhandle, hpermits⟩
  · rintro ⟨r, hmem, hhandle, hpermits⟩
    have hr : s.lookup handle = some r := hvalid.lookup_eq_some_iff.2 ⟨hmem, hhandle⟩
    exact ⟨r.grantedAccess, by rw [hr]; rfl, hpermits⟩

/-- One operation on one handle of a table. -/
theorem entitles_iff_not_takesWaitObject {s : State κ ω} (hvalid : Valid s.handles)
    (operation : Operation) {handle : HandleValue} (htag : isTaggedProcessHandle handle = true)
    (hpseudo : isCurrentProcessPseudoHandle handle = false) :
    ((∃ value, (operation.run s.peb handle ((s.lookup handle).map Record.grantedAccess)).1 =
        .success value) → s.Entitles operation handle) ↔
      ¬ s.TakesWaitObject operation handle := by
  rw [succeeds_iff hvalid operation htag hpseudo]
  constructor
  · rintro himp ⟨r, hmem, hhandle, htype, hpermits, havailable⟩
    obtain ⟨r', hmem', hhandle', htype', -⟩ := himp ⟨⟨r, hmem, hhandle, hpermits⟩, havailable⟩
    rw [hvalid.eq_of_handle_eq hmem hmem' (hhandle.trans hhandle'.symm)] at htype
    exact htype htype'
  · rintro hno ⟨⟨r, hmem, hhandle, hpermits⟩, havailable⟩
    refine ⟨r, hmem, hhandle, ?_, hpermits⟩
    by_contra htype
    exact hno ⟨r, hmem, hhandle, htype, hpermits, havailable⟩

/-- A call that looks a handle of a wait object up, and is permitted, goes on to succeed. -/
theorem not_sound_of_takesWaitObject [DecidableEq κ] {s : State κ ω} (hvalid : Valid s.handles)
    (c : κ) {operation : Operation} {handle : HandleValue}
    (htag : isTaggedProcessHandle handle = true)
    (hpseudo : isCurrentProcessPseudoHandle handle = false)
    (h : s.TakesWaitObject operation handle) :
    ¬ Sound (next (next s (.lookUp c operation handle))
      (.answer c operation handle (s.lookup handle))) := by
  intro hsound
  obtain ⟨r, hmem, hhandle, htype, hpermits, havailable⟩ := h
  have hr : s.lookup handle = some r := hvalid.lookup_eq_some_iff.2 ⟨hmem, hhandle⟩
  obtain ⟨value, hsuccess⟩ :=
    (succeeds_iff hvalid operation htag hpseudo).2 ⟨⟨r, hmem, hhandle, hpermits⟩, havailable⟩
  have hstage : (next (next s (.lookUp c operation handle))
      (.answer c operation handle (s.lookup handle))).stage c =
        .answered operation handle (s.lookup handle) (.success value) := by
    rw [← hsuccess]
    exact Function.update_self ..
  obtain ⟨r', hr', -, htype', -⟩ := hsound.answered _ _ _ _ _ hstage htag hpseudo
  rw [hr, Option.mem_some_iff] at hr'
  exact htype (hr' ▸ htype')

/-- In every run, an operation on a handle of the table is sure to have found it open, made for the
process and granted the right exactly when it is no handle of a wait object that has the right;
and in every run in which no operation is asked of such a handle, all that succeed have, and the
exit status changes through them alone. -/
theorem process_handles_are_typed (κ ω : Type) [DecidableEq κ] :
    (∀ s, (processHandles κ ω).Reachable Always s → ∀ operation handle,
      isTaggedProcessHandle handle = true → isCurrentProcessPseudoHandle handle = false →
        (((∃ value, (operation.run s.peb handle ((s.lookup handle).map Record.grantedAccess)).1 =
            .success value) → s.Entitles operation handle) ↔
          ¬ s.TakesWaitObject operation handle)) ∧
    (∀ s, (processHandles κ ω).Reachable KeepsTypes s → Sound s) ∧
    (∀ s, (processHandles κ ω).Reachable Always s → ∀ c operation handle,
      s.stage c = .lookingUp operation handle →
      isTaggedProcessHandle handle = true → isCurrentProcessPseudoHandle handle = false →
      s.TakesWaitObject operation handle →
        ¬ Sound (next (next s (.lookUp c operation handle))
          (.answer c operation handle (s.lookup handle)))) := by
  refine ⟨?_, ?_, ?_⟩
  · intro s hs operation handle htag hpseudo
    exact entitles_iff_not_takesWaitObject (valid_of_reachable s hs) operation htag hpseudo
  · intro s hs
    exact sound_of_typed (typed_of_reachable s hs)
  · intro s hs c operation handle _ htag hpseudo htakes
    exact not_sound_of_takesWaitObject (valid_of_reachable s hs) c htag hpseudo htakes

/-! ## Two runs -/

/-- A process that still runs. -/
def runningState : State Nat Unit where
  handles := []
  peb := ⟨4, statusPending, false, [], []⟩
  stage _ := .notCalled

/-- A handle with the mask `PROCESS_TERMINATE`, which is also `MUTEX_MODIFY_STATE`. -/
def terminateRecord (type : HandleType Unit) : Record Unit :=
  ⟨⟨16, by decide⟩, processHandleMagic, 1, type⟩

/-- One call has made the handle; another terminates the process through it. -/
def terminateRun (type : HandleType Unit) : List (Action Nat Unit) :=
  [.insert 0 1 type none (some (terminateRecord type).address),
    .begin 1 (.process (.terminate 7) 17),
    .lookUp 1 (.terminate 7) 17,
    .answer 1 (.terminate 7) 17 (some (terminateRecord type))]

def processRun : List (Action Nat Unit) :=
  .begin 0 (.createCurrentProcess processTerminate) :: terminateRun .currentProcess

def mutexRun : List (Action Nat Unit) :=
  .begin 0 (.createMutant mutexModifyState) :: .obtain 0 mutexModifyState (.ok ()) ::
    terminateRun (.waitObject ())

/-- The process ends through a handle of its own. -/
theorem processRun_is_typed :
    ((processHandles Nat Unit).exec runningState processRun).peb.exitStatus = 7 ∧
      Sound ((processHandles Nat Unit).exec runningState processRun) := by
  constructor
  · rfl
  · apply (process_handles_are_typed Nat Unit).2.1
    apply System.reachable_exec
    · exact ⟨rfl, fun _ => rfl⟩
    · refine ⟨⟨rfl, trivial⟩, ⟨⟨rfl, ?_⟩, trivial⟩, ⟨rfl, trivial⟩, ⟨rfl, ?_⟩, ⟨rfl, trivial⟩,
        trivial⟩
      · exact fun _ _ r hr => nomatch hr
      · rintro ⟨r, hr, -, htype, -⟩
        obtain rfl := List.mem_singleton.1 hr
        exact htype rfl

/-- A mutex handle with `MUTEX_MODIFY_STATE` ends the process. -/
theorem mutex_handle_terminates_the_process :
    ((processHandles Nat Unit).exec runningState mutexRun).peb.exitStatus = 7 ∧
      ¬ ∀ s, (processHandles Nat Unit).Reachable Always s → Sound s := by
  refine ⟨rfl, ?_⟩
  intro h
  have hsound := h ((processHandles Nat Unit).exec runningState mutexRun) (by
    apply System.reachable_exec
    · exact ⟨rfl, fun _ => rfl⟩
    · refine ⟨⟨rfl, trivial⟩, ⟨rfl, trivial⟩, ⟨⟨rfl, ?_⟩, trivial⟩, ⟨rfl, trivial⟩, ⟨rfl, trivial⟩,
        ⟨rfl, trivial⟩, trivial⟩
      exact fun _ _ r hr => nomatch hr)
  obtain ⟨r, hr, -, htype, -⟩ :=
    hsound.answered 1 (.terminate 7) 17 (some (terminateRecord (.waitObject ()))) .nothing rfl rfl
      rfl
  rw [Option.mem_some_iff] at hr
  subst hr
  cases htype

end Ldk.ProcessHandle
