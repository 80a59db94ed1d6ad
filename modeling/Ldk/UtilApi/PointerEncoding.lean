import Mathlib
import Ldk.Lib.TransitionSystem

/-!
# Encoded pointers

`EncodePointer`, `DecodePointer` and the two functions for system pointers of `utilapiset.c`, on
32-bit and on 64-bit targets, for any number of calls at once.

- `ldkpRotatePointerLeft_right`, `ldkpRotatePointerRight_left`: the rotations are inverse.
- `ldkpMixPointerEncodeCookie_ne_zero`: a cookie is never null, so that a null slot is one for
  which no cookie has been made.
- `State`, `Action`: a call reads the slot of its cookie, makes a cookie when there is none, and
  exchanges it for the null that may no longer be there.
- `Settled`: who got a cookie got the one that is in the slot.
- `encoded_pointers_decode`: the calls on one slot are all made with one cookie, whatever the
  order of their steps.
-/

namespace Ldk.PointerEncoding

open TransitionSystem

/-! ## Words -/

/-- Whether `_WIN64` is defined. -/
inductive Target where
  | win32
  | win64
  deriving DecidableEq, Repr

/-- `sizeof(ULONG_PTR) * 8` -/
def Target.bits : Target → Nat
  | win32 => 32
  | win64 => 64

/-- `ULONG_PTR` -/
abbrev Word (target : Target) := BitVec target.bits

variable {target : Target}

/-- `LdkpRotatePointerLeft` -/
def ldkpRotatePointerLeft (value : Word target) (shift : Nat) : Word target :=
  let bits := target.bits
  let shift := shift &&& (bits - 1)
  if shift = 0 then value else (value <<< shift) ||| (value >>> (bits - shift))

/-- `LdkpRotatePointerRight` -/
def ldkpRotatePointerRight (value : Word target) (shift : Nat) : Word target :=
  let bits := target.bits
  let shift := shift &&& (bits - 1)
  if shift = 0 then value else (value >>> shift) ||| (value <<< (bits - shift))

/-- `LdkpMixPointerEncodeCookie` with `_WIN64` defined. -/
def mixPointerEncodeCookie64 (value : BitVec 64) : BitVec 64 :=
  let value := value ^^^ (value >>> 33)
  let value := value * 0xff51afd7ed558ccd
  let value := value ^^^ (value >>> 33)
  let value := value * 0xc4ceb9fe1a85ec53
  let value := value ^^^ (value >>> 33)
  value ||| 1

/-- `LdkpMixPointerEncodeCookie` without. -/
def mixPointerEncodeCookie32 (value : BitVec 32) : BitVec 32 :=
  let value := value ^^^ (value >>> 16)
  let value := value * 0x7feb352d
  let value := value ^^^ (value >>> 15)
  let value := value * 0x846ca68b
  let value := value ^^^ (value >>> 16)
  value ||| 1

/-- `LdkpMixPointerEncodeCookie` -/
def ldkpMixPointerEncodeCookie : {target : Target} → Word target → Word target
  | .win64, value => mixPointerEncodeCookie64 value
  | .win32, value => mixPointerEncodeCookie32 value

/-- What `LdkpCreatePointerEncodeCookie` makes a cookie of. -/
structure Sources (target : Target) where
  counter : BitVec 64
  tickCount : BitVec 64
  currentProcessId : Word target
  currentThreadId : Word target
  /-- `&Cookie` -/
  cookieAddress : Word target
  deriving DecidableEq

/-- `LdkpCreatePointerEncodeCookie` -/
def ldkpCreatePointerEncodeCookie (domain : Word target) (sources : Sources target) :
    Word target :=
  let cookie : Word target := sources.counter.setWidth target.bits
  let cookie := cookie ^^^ sources.tickCount.setWidth target.bits
  let cookie := cookie ^^^ sources.currentProcessId
  let cookie := cookie ^^^ sources.currentThreadId
  let cookie := cookie ^^^ domain
  let cookie := cookie ^^^ sources.cookieAddress
  ldkpMixPointerEncodeCookie cookie

/-- How far both functions rotate: `(UCHAR)(Cookie & (sizeof(ULONG_PTR) * 8 - 1))`. -/
def cookieShift (cookie : Word target) : Nat := cookie.toNat &&& (target.bits - 1)

/-- `LdkpEncodePointer` -/
def ldkpEncodePointer (ptr cookie : Word target) : Word target :=
  ldkpRotatePointerRight (ptr ^^^ cookie) (cookieShift cookie)

/-- `LdkpDecodePointer` -/
def ldkpDecodePointer (ptr cookie : Word target) : Word target :=
  ldkpRotatePointerLeft ptr (cookieShift cookie) ^^^ cookie

/-! ## Rotations -/

theorem Target.bits_pos : 0 < target.bits := by cases target <;> decide

/-- The mask is a remainder, since the widths are powers of two. -/
theorem and_bits_sub_one (shift : Nat) : shift &&& (target.bits - 1) = shift % target.bits := by
  cases target with
  | win32 => exact Nat.and_two_pow_sub_one_eq_mod shift 5
  | win64 => exact Nat.and_two_pow_sub_one_eq_mod shift 6

theorem ldkpRotatePointerLeft_eq (value : Word target) (shift : Nat) :
    ldkpRotatePointerLeft value shift = value.rotateLeft shift := by
  unfold ldkpRotatePointerLeft
  dsimp only
  rw [and_bits_sub_one, BitVec.rotateLeft_def]
  split
  · next hzero =>
    rw [hzero, BitVec.shiftLeft_zero, Nat.sub_zero, BitVec.ushiftRight_eq_zero le_rfl,
      BitVec.or_zero]
  · rfl

theorem ldkpRotatePointerRight_eq (value : Word target) (shift : Nat) :
    ldkpRotatePointerRight value shift = value.rotateRight shift := by
  unfold ldkpRotatePointerRight
  dsimp only
  rw [and_bits_sub_one, BitVec.rotateRight_def]
  split
  · next hzero =>
    rw [hzero, BitVec.ushiftRight_zero, Nat.sub_zero, BitVec.shiftLeft_eq_zero le_rfl,
      BitVec.or_zero]
  · rfl

/-- What is rotated to the right comes back. -/
theorem ldkpRotatePointerLeft_right (value : Word target) (shift : Nat) :
    ldkpRotatePointerLeft (ldkpRotatePointerRight value shift) shift = value := by
  rw [ldkpRotatePointerLeft_eq, ldkpRotatePointerRight_eq]
  have hlt : shift % target.bits < target.bits := Nat.mod_lt _ Target.bits_pos
  ext i hi
  rw [BitVec.getElem_rotateLeft hi]
  split
  · next hlow =>
    -- the bits that have come in at the low end were pushed out there
    rw [BitVec.getElem_rotateRight, dif_neg (by omega)]
    congr 1
    omega
  · next hhigh =>
    rw [BitVec.getElem_rotateRight, dif_pos (by omega)]
    congr 1
    omega

/-- What is rotated to the left comes back. -/
theorem ldkpRotatePointerRight_left (value : Word target) (shift : Nat) :
    ldkpRotatePointerRight (ldkpRotatePointerLeft value shift) shift = value := by
  rw [ldkpRotatePointerLeft_eq, ldkpRotatePointerRight_eq]
  have hlt : shift % target.bits < target.bits := Nat.mod_lt _ Target.bits_pos
  ext i hi
  rw [BitVec.getElem_rotateRight hi]
  split
  · next hlow =>
    rw [BitVec.getElem_rotateLeft, dif_neg (by omega)]
    congr 1
    omega
  · next hhigh =>
    rw [BitVec.getElem_rotateLeft, dif_pos (by omega)]
    congr 1
    omega

theorem ldkpDecodePointer_encode (ptr cookie : Word target) :
    ldkpDecodePointer (ldkpEncodePointer ptr cookie) cookie = ptr := by
  unfold ldkpDecodePointer ldkpEncodePointer
  rw [ldkpRotatePointerLeft_right, BitVec.xor_assoc, BitVec.xor_self, BitVec.xor_zero]

theorem ldkpEncodePointer_decode (ptr cookie : Word target) :
    ldkpEncodePointer (ldkpDecodePointer ptr cookie) cookie = ptr := by
  unfold ldkpDecodePointer ldkpEncodePointer
  rw [BitVec.xor_assoc, BitVec.xor_self, BitVec.xor_zero, ldkpRotatePointerRight_left]

/-- The lowest bit of a cookie is set. -/
theorem ldkpMixPointerEncodeCookie_ne_zero (value : Word target) :
    ldkpMixPointerEncodeCookie value ≠ 0 := by
  intro hzero
  cases target with
  | win32 =>
    have hbit : (mixPointerEncodeCookie32 value).getLsbD 0 = (0 : BitVec 32).getLsbD 0 :=
      congrArg (fun x : BitVec 32 => x.getLsbD 0) hzero
    simp [mixPointerEncodeCookie32] at hbit
  | win64 =>
    have hbit : (mixPointerEncodeCookie64 value).getLsbD 0 = (0 : BitVec 64).getLsbD 0 :=
      congrArg (fun x : BitVec 64 => x.getLsbD 0) hzero
    simp [mixPointerEncodeCookie64] at hbit

/-! ## Calls -/

/-- `LdkpPointerEncodeCookie` and `LdkpSystemPointerEncodeCookie`. -/
inductive Slot where
  | process
  | system
  deriving DecidableEq, Repr

inductive Operation where
  | encode
  | decode
  deriving DecidableEq, Repr

/-- `LdkpEncodePointer` or `LdkpDecodePointer` -/
def Operation.run : Operation → Word target → Word target → Word target
  | encode => ldkpEncodePointer
  | decode => ldkpDecodePointer

/-- `EncodePointer`, `DecodePointer`, `EncodeSystemPointer` or `DecodeSystemPointer`, with its
argument. -/
structure Call (target : Target) where
  operation : Operation
  slot : Slot
  ptr : Word target
  deriving DecidableEq

/-- How far a call has come in `LdkpGetPointerEncodeCookie`. -/
inductive Stage (target : Target) where
  | notCalled
  /-- At the read of `*CookieSlot`. -/
  | reading (call : Call target)
  /-- The slot was null; at `LdkpCreatePointerEncodeCookie`. -/
  | creating (call : Call target)
  /-- At `InterlockedCompareExchangePointer`. -/
  | exchanging (call : Call target) (newCookie : Word target)
  | returned (call : Call target) (result : Word target)
  deriving DecidableEq

variable {κ : Type} [DecidableEq κ]

structure State (target : Target) (κ : Type) where
  slots : Slot → Word target
  stage : κ → Stage target

namespace State

variable (s : State target κ) (c : κ)

def goto (stage : Stage target) : State target κ :=
  { s with stage := Function.update s.stage c stage }

/-- The cookie is there, and the pointer is encoded or decoded with it. -/
def finish (call : Call target) (cookie : Word target) : State target κ :=
  s.goto c (.returned call (call.operation.run call.ptr cookie))

/-- The slot is read. -/
def read : State target κ :=
  match s.stage c with
  | .reading call =>
    if s.slots call.slot = 0 then s.goto c (.creating call)
    else s.finish c call (s.slots call.slot)
  | _ => s

/-- A cookie is made, of the address of the slot among others. -/
def create (address : Slot → Word target) (sources : Sources target) : State target κ :=
  match s.stage c with
  | .creating call => s.goto c
      (.exchanging call (ldkpCreatePointerEncodeCookie (address call.slot) sources))
  | _ => s

/-- The new cookie gets into the slot if that is still null, and else the one there is taken. -/
def exchange : State target κ :=
  match s.stage c with
  | .exchanging call newCookie =>
    let existingCookie := s.slots call.slot
    let s := if existingCookie = 0 then
      { s with slots := Function.update s.slots call.slot newCookie } else s
    s.finish c call (if existingCookie ≠ 0 then existingCookie else newCookie)
  | _ => s

end State

inductive Action (target : Target) (κ : Type) where
  | call (c : κ) (call : Call target)
  | read (c : κ)
  | create (c : κ) (sources : Sources target)
  | exchange (c : κ)

/-- When a step may be taken. -/
def enabled (s : State target κ) : Action target κ → Prop
  | .call c _ => s.stage c = .notCalled
  | .read c => ∃ call, s.stage c = .reading call
  | .create c _ => ∃ call, s.stage c = .creating call
  | .exchange c => ∃ call newCookie, s.stage c = .exchanging call newCookie

instance (stage : Stage target) : Decidable (∃ call, stage = .reading call) :=
  match stage with
  | .reading call => isTrue ⟨call, rfl⟩
  | .notCalled | .creating _ | .exchanging _ _ | .returned _ _ => isFalse (by simp)

instance (stage : Stage target) : Decidable (∃ call, stage = .creating call) :=
  match stage with
  | .creating call => isTrue ⟨call, rfl⟩
  | .notCalled | .reading _ | .exchanging _ _ | .returned _ _ => isFalse (by simp)

instance (stage : Stage target) :
    Decidable (∃ call newCookie, stage = .exchanging call newCookie) :=
  match stage with
  | .exchanging call newCookie => isTrue ⟨call, newCookie, rfl⟩
  | .notCalled | .reading _ | .creating _ | .returned _ _ => isFalse (by simp)

instance (s : State target κ) (a : Action target κ) : Decidable (enabled s a) := by
  cases a <;> unfold enabled <;> infer_instance

def next (address : Slot → Word target) (s : State target κ) : Action target κ → State target κ
  | .call c call => s.goto c (.reading call)
  | .read c => s.read c
  | .create c sources => s.create c address sources
  | .exchange c => s.exchange c

def initialState : State target κ where
  slots _ := 0
  stage _ := .notCalled

/-- The two slots, at their addresses, and any number of calls. -/
def pointerEncoding (address : Slot → Word target) (κ : Type) [DecidableEq κ] :
    System (State target κ) (Action target κ) where
  init s := s = initialState
  enabled := enabled
  next := next address

instance (address : Slot → Word target) (s : State target κ) (a : Action target κ) :
    Decidable ((pointerEncoding address κ).enabled s a) :=
  inferInstanceAs (Decidable (enabled s a))

/-! ## Who has got which cookie -/

/-- What a stage says about the slots. -/
def Stage.Settled (slots : Slot → Word target) : Stage target → Prop
  | .exchanging _ newCookie => newCookie ≠ 0
  | .returned call result =>
    slots call.slot ≠ 0 ∧ result = call.operation.run call.ptr (slots call.slot)
  | _ => True

/-- Each call that has come back was made with the cookie of its slot. -/
def Settled (s : State target κ) : Prop := ∀ c, (s.stage c).Settled s.slots

/-- A slot that is no longer null does not change, and the others may. -/
def Extends (slots slots' : Slot → Word target) : Prop :=
  ∀ slot, slots slot ≠ 0 → slots' slot = slots slot

theorem Stage.Settled.mono {slots slots' : Slot → Word target} {stage : Stage target}
    (h : stage.Settled slots) (hle : Extends slots slots') : stage.Settled slots' := by
  cases stage with
  | notCalled => trivial
  | reading call => trivial
  | creating call => trivial
  | exchanging call newCookie => exact h
  | returned call result =>
    obtain ⟨hne, hresult⟩ := h
    have hsame := hle call.slot hne
    exact ⟨hsame ▸ hne, hsame ▸ hresult⟩

/-- A call moves on, and the slots are extended. -/
theorem Settled.move {s : State target κ} (h : Settled s) {slots : Slot → Word target}
    (hle : Extends s.slots slots) (c : κ) {stage : Stage target} (hstage : stage.Settled slots) :
    Settled ({ s with slots := slots }.goto c stage) := by
  intro c'
  unfold State.goto
  dsimp only
  by_cases hc : c' = c
  · subst hc
    rw [Function.update_self]
    exact hstage
  · rw [Function.update_of_ne hc]
    exact (h c').mono hle

theorem Settled.read {s : State target κ} (h : Settled s) (c : κ) : Settled (s.read c) := by
  unfold State.read
  split
  · next call hstage =>
    split
    · exact h.move (fun _ _ => rfl) c trivial
    · next hne => exact h.move (fun _ _ => rfl) c ⟨hne, rfl⟩
  · exact h

theorem Settled.create {s : State target κ} (h : Settled s) (c : κ)
    (address : Slot → Word target) (sources : Sources target) :
    Settled (s.create c address sources) := by
  unfold State.create
  split
  · exact h.move (fun _ _ => rfl) c (ldkpMixPointerEncodeCookie_ne_zero _)
  · exact h

theorem Settled.exchange {s : State target κ} (h : Settled s) (c : κ) :
    Settled (s.exchange c) := by
  unfold State.exchange
  split
  · next call newCookie hstage =>
    have hcookie : newCookie ≠ 0 := by
      have hc := h c
      rw [hstage] at hc
      exact hc
    dsimp only
    by_cases hnull : s.slots call.slot = 0
    · -- nobody was faster: the new cookie is the one of the slot from now on
      rw [if_pos hnull, if_neg (not_not.mpr hnull)]
      apply h.move _ c
      · change Function.update s.slots call.slot newCookie call.slot ≠ 0 ∧ _ =
          call.operation.run call.ptr (Function.update s.slots call.slot newCookie call.slot)
        rw [Function.update_self]
        exact ⟨hcookie, rfl⟩
      · intro slot hslot
        have hne : slot ≠ call.slot := fun heq => hslot (heq ▸ hnull)
        exact Function.update_of_ne hne _ _
    · rw [if_neg hnull, if_pos hnull]
      exact h.move (fun _ _ => rfl) c ⟨hnull, rfl⟩
  · exact h

theorem settled_of_reachable {address : Slot → Word target} :
    ∀ s, (pointerEncoding address κ).Reachable Always s → Settled s := by
  apply System.Reachable.invariant
  · rintro s rfl c
    trivial
  · intro s a h _ _
    cases a with
    | call c call => exact h.move (fun _ _ => rfl) c trivial
    | read c => exact h.read c
    | create c sources => exact h.create c address sources
    | exchange c => exact h.exchange c

/-! ## Round trips -/

/-- In whatever order the steps of any number of calls are taken: a pointer that one call has
encoded is decoded by every other call on the same slot, what is decoded is encoded again, and two
pointers are encoded alike only if they are the same. -/
theorem encoded_pointers_decode {address : Slot → Word target} {s : State target κ}
    (hs : (pointerEncoding address κ).Reachable Always s) (slot : Slot) (c c' : κ) :
    (∀ ptr code result, s.stage c = .returned ⟨.encode, slot, ptr⟩ code →
      s.stage c' = .returned ⟨.decode, slot, code⟩ result → result = ptr) ∧
    (∀ code ptr result, s.stage c = .returned ⟨.decode, slot, code⟩ ptr →
      s.stage c' = .returned ⟨.encode, slot, ptr⟩ result → result = code) ∧
    (∀ ptr ptr' code code', s.stage c = .returned ⟨.encode, slot, ptr⟩ code →
      s.stage c' = .returned ⟨.encode, slot, ptr'⟩ code' → (code = code' ↔ ptr = ptr')) := by
  have hresult (c : κ) (call : Call target) (result : Word target)
      (hstage : s.stage c = .returned call result) :
      result = call.operation.run call.ptr (s.slots call.slot) := by
    have hsettled := settled_of_reachable s hs c
    rw [hstage] at hsettled
    exact hsettled.2
  refine ⟨?_, ?_, ?_⟩
  · intro ptr code result hencoded hdecoded
    rw [hresult c' _ _ hdecoded, hresult c _ _ hencoded]
    exact ldkpDecodePointer_encode ptr _
  · intro code ptr result hdecoded hencoded
    rw [hresult c' _ _ hencoded, hresult c _ _ hdecoded]
    exact ldkpEncodePointer_decode code _
  · intro ptr ptr' code code' hencoded hencoded'
    rw [hresult c _ _ hencoded, hresult c' _ _ hencoded']
    constructor
    · intro heq
      have hdecoded := congrArg (fun x => ldkpDecodePointer x (s.slots slot)) heq
      dsimp only [Operation.run] at hdecoded
      rwa [ldkpDecodePointer_encode, ldkpDecodePointer_encode] at hdecoded
    · intro heq
      rw [heq]

/-- Two calls find the slot null and both make a cookie; the second one is faster. A third call
decodes what the first has encoded. -/
def race : List (Action .win64 (Fin 3)) :=
  [.call 0 ⟨.encode, .process, 0x1000⟩, .call 1 ⟨.encode, .process, 0x2000⟩, .read 0, .read 1,
    .create 0 ⟨5, 1, 4, 8, 0xf0⟩, .create 1 ⟨6, 1, 4, 12, 0xe0⟩, .exchange 1, .exchange 0,
    .call 2 ⟨.decode, .process, 0x13f517a037b5bbe8⟩, .read 2]

/-- The pointer comes back although the cookie is not the one that the first call has made. -/
theorem encoded_pointers_decode_race :
    ∃ result, ((pointerEncoding (fun _ => 0x100) (Fin 3)).exec initialState race).stage 2 =
      .returned ⟨.decode, .process, 0x13f517a037b5bbe8⟩ result ∧ result = 0x1000 := by
  have hreach : (pointerEncoding (fun _ => 0x100) (Fin 3)).Reachable Always
      ((pointerEncoding (fun _ => 0x100) (Fin 3)).exec initialState race) :=
    System.reachable_exec _ race rfl (by decide +kernel)
  have hencoded : ((pointerEncoding (fun _ => 0x100) (Fin 3)).exec initialState race).stage 0 =
      .returned ⟨.encode, .process, 0x1000⟩ 0x13f517a037b5bbe8 := by decide +kernel
  have hdecoded : ∃ result, ((pointerEncoding (fun _ => 0x100) (Fin 3)).exec initialState
      race).stage 2 = .returned ⟨.decode, .process, 0x13f517a037b5bbe8⟩ result :=
    ⟨0x1000, by decide +kernel⟩
  obtain ⟨result, hresult⟩ := hdecoded
  exact ⟨result, hresult,
    (encoded_pointers_decode hreach .process 0 2).1 _ _ result hencoded hresult⟩

end Ldk.PointerEncoding
