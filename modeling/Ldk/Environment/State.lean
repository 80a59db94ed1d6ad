import Ldk.Lib.TransitionSystem
import Ldk.NtStatus
import Ldk.UnicodeString

/-!
# Environment blocks

`RtlSetEnvironmentVariable` and `RtlQueryEnvironmentVariable_U` of `environ.c`. A block is the list
of the characters in its memory, and a pointer into it is the number of characters before it.

- The strings of a block end with a null each, and an empty string ends the block.
- The loops over a block are given as many rounds as the block has characters.
- The blocks are that of the process and those of the callers; two of them have the same address
  only when they are the same.
-/

namespace Ldk.Environment

open TransitionSystem

/-! ## Strings in memory -/

/-- `L'='` -/
def equalsSign : WCHAR := 0x3d

/-- `wcslen` -/
def wcslen (p : List WCHAR) : Nat := (p.takeWhile (· ≠ 0)).length

/-- `wcschr`, as the distance from the start. -/
def wcschr (p : List WCHAR) (c : WCHAR) : Option Nat :=
  let i := (p.takeWhile fun x => x ≠ 0 ∧ x ≠ c).length
  if p[i]? = some c then some i else none

/-- `Delimiter` of an entry: a sign in first place is part of the name. -/
def delimiter (p : List WCHAR) : Nat :=
  1 + ((p.drop 1).takeWhile fun x => x ≠ 0 ∧ x ≠ equalsSign).length

/-- The conversion to `USHORT`. -/
def toUShort (n : Nat) : Nat := n % 2 ^ 16

/-- The conversion to `ULONG`. -/
def toULong (n : Nat) : Nat := n % 2 ^ 32

/-! ## RtlSetEnvironmentVariable -/

/-- What the first loop of `RtlSetEnvironmentVariable` finds. -/
structure Search where
  found : Bool
  editStart : Nat
  editEnd : Nat
  insertBefore : Option Nat
  scan : Nat
  deriving DecidableEq, Repr

variable (upcase : WCHAR → WCHAR)

/-- The loop over the entries, from `scan`. -/
def findEntry (name block : List WCHAR) : Nat → Nat → Option Nat → Search
  | 0, scan, insertBefore => ⟨false, 0, 0, insertBefore, scan⟩
  | rounds + 1, scan, insertBefore =>
    let p := block.drop scan
    if p.headD 0 = 0 then ⟨false, 0, 0, insertBefore, scan⟩
    else
      let entryEnd := scan + wcslen p + 1
      if p[delimiter p]? = some equalsSign then
        let currentName := p.take (toUShort (2 * delimiter p) / 2)
        let compareResult := rtlCompareUnicodeString upcase name currentName
        if compareResult = 0 then ⟨true, scan, entryEnd, insertBefore, entryEnd⟩
        else
          findEntry name block rounds entryEnd
            (if compareResult < 0 ∧ insertBefore = none then some scan else insertBefore)
      else findEntry name block rounds entryEnd insertBefore

/-- The loop to the end of the block. -/
def skipEntries (block : List WCHAR) : Nat → Nat → Nat
  | 0, scan => scan
  | rounds + 1, scan =>
    let p := block.drop scan
    if p.headD 0 = 0 then scan else skipEntries block rounds (scan + wcslen p + 1)

/-- The new entry. Of a value with an odd `Length`, the byte left over is overwritten. -/
def newEntry (name : UnicodeString) : Option UnicodeString → List WCHAR
  | some value => name.chars ++ equalsSign :: value.chars ++ [0]
  | none => []

/-- `NewEntrySize` -/
def newEntrySize (name : UnicodeString) : Option UnicodeString → Nat
  | some value => name.length + 2 + value.length + 2
  | none => 0

/-- `NewSize` and the new block; none when there is nothing to delete. A block that is `NULL` is
treated like one that has no memory. -/
def editBlock (old : Option (List WCHAR)) (name : UnicodeString) (value : Option UnicodeString) :
    Option (Nat × List WCHAR) :=
  let block := old.getD []
  let r := findEntry upcase name.chars block block.length 0 none
  if value = none ∧ r.found = false then none
  else
    let oldFinal := skipEntries block block.length r.scan
    let oldSize := (oldFinal + 1) * 2
    let editStart := if r.found then r.editStart else r.insertBefore.getD oldFinal
    let editEnd := if r.found then r.editEnd else editStart
    let removedSize := (editEnd - editStart) * 2
    let newSize := max (oldSize - removedSize + newEntrySize name value) 2
    let out := block.take editStart ++ newEntry name value ++
      (block.drop editEnd).take (oldFinal - editEnd + 1)
    -- the memory has been cleared
    some (newSize, out ++ List.replicate (newSize / 2 - out.length) 0)

/-! ## The state -/

/-- Where a pointer to a block is kept. -/
inductive Place (π : Type) where
  /-- `Environment` of the process parameters. -/
  | process
  /-- A variable of a caller. -/
  | caller (i : π)
  deriving DecidableEq, Repr

structure State (π : Type) where
  block : Place π → Option (List WCHAR)
  /-- `EnvironmentSize` -/
  environmentSize : Nat
  /-- `RtlpEnvironCacheName` and `RtlpEnvironCacheValue`, while `RtlpEnvironCacheValid`. -/
  cache : Option (List WCHAR × List WCHAR)
  /-- `CurrentDirectory.DosPath` -/
  dosPath : List WCHAR
  imagePathName : List WCHAR
  /-- Auxiliary: the block has been replaced. -/
  edited : Place π → Bool

/-- The name passes the checks of `RtlSetEnvironmentVariable`. -/
def nameAccepted : Option UnicodeString → Bool
  | none => false
  | some name =>
    name.buffer.isSome && decide (name.length ≠ 0) && decide (name.length % 2 = 0) &&
      decide (equalsSign ∉ name.chars.tail)

/-- So does the value. -/
def valueAccepted : Option UnicodeString → Bool
  | none => true
  | some value => decide (value.length = 0) || value.buffer.isSome

variable {π : Type} [DecidableEq π]

namespace State

variable (s : State π)

/-- `RtlSetEnvironmentVariable`; `environment` is `none` for `NULL`, and `allocated` says whether
there is memory for a new block. -/
def rtlSetEnvironmentVariable (environment : Option (Place π)) (name value : Option UnicodeString)
    (allocated : Bool) : State π × NtStatus :=
  match name with
  | none => (s, .invalidParameter)
  | some name =>
    if nameAccepted (some name) = false ∨ valueAccepted value = false then (s, .invalidParameter)
    else
      let s := { s with cache := none }
      let place := environment.getD .process
      match editBlock upcase (s.block place) name value with
      | none => (s, .success)
      | some (newSize, newBlock) =>
        if allocated = false then (s, .insufficientResources)
        else
          ({ s with
              block := Function.update s.block place (some newBlock)
              environmentSize :=
                if environment = none then toULong newSize else s.environmentSize
              edited := Function.update s.edited place true }, .success)

end State

/-! ## RtlQueryEnvironmentVariable_U -/

/-- What a query writes to `Value`: `Length`, in bytes, and the characters. -/
structure Answer where
  status : NtStatus
  length : Option Nat
  copied : Option (List WCHAR)
  deriving DecidableEq, Repr

def Answer.notFound : Answer := ⟨.variableNotFound, none, none⟩

/-- The value is copied when it fits. -/
def Answer.value (text : List WCHAR) (maximumLength : Nat) : Answer :=
  if 2 * text.length ≤ maximumLength then ⟨.success, some (2 * text.length), some text⟩
  else ⟨.bufferTooSmall, some (2 * text.length), none⟩

/-- The value of a pseudo variable; the status does not say when it does not fit. -/
def Answer.pseudo (text : List WCHAR) (maximumLength : Nat) : Answer :=
  ⟨.success, some (2 * text.length), if 2 * text.length ≤ maximumLength then some text else none⟩

/-- The loop over the entries: the name in the block and the value. -/
def findValue (name block : List WCHAR) : Nat → Nat → Option (List WCHAR × List WCHAR)
  | 0, _ => none
  | rounds + 1, scan =>
    let p := block.drop scan
    let len := wcslen p
    if len = 0 then none
    else if name.length < len ∧ p[name.length]? = some equalsSign ∧
        rtlEqualUnicodeString upcase name (p.take name.length) true = true ∧
        (wcschr (p.drop 1) equalsSign).map (· + 1) = some name.length then
      let valueLength := toUShort ((len - 1) * 2 - 2 * name.length)
      some (p.take name.length, (p.drop (name.length + 1)).take (valueLength / 2))
    else findValue name block rounds (scan + len + 1)

/-- `__CD__` -/
def currentWorkingDirectoryPseudoVariable : List WCHAR := [0x5f, 0x5f, 0x43, 0x44, 0x5f, 0x5f]

/-- `__APPDIR__` -/
def applicationDirectoryPseudoVariable : List WCHAR :=
  [0x5f, 0x5f, 0x41, 0x50, 0x50, 0x44, 0x49, 0x52, 0x5f, 0x5f]

/-- `RtlDosPathSeparatorsString` -/
def isSeparator (c : WCHAR) : Bool := c == 0x5c || c == 0x2f

/-- A path up to its last separator, or all of it. -/
def directoryOf (path : List WCHAR) : List WCHAR :=
  let rest := path.reverse.dropWhile fun c => !isSeparator c
  if rest = [] then path else rest.reverse

/-- The name of a pseudo variable. -/
def IsPseudo (name : List WCHAR) : Prop :=
  rtlEqualUnicodeString upcase name currentWorkingDirectoryPseudoVariable true = true ∨
    rtlEqualUnicodeString upcase name applicationDirectoryPseudoVariable true = true

namespace State

variable (s : State π)

def pseudoVariable (name : List WCHAR) (maximumLength : Nat) : Answer :=
  if rtlEqualUnicodeString upcase name currentWorkingDirectoryPseudoVariable true then
    .pseudo s.dosPath maximumLength
  else if rtlEqualUnicodeString upcase name applicationDirectoryPseudoVariable true then
    .pseudo (directoryOf s.imagePathName) maximumLength
  else .notFound

/-- The value in the cache, when that is for the name. -/
def cachedValue (name : List WCHAR) : Option (List WCHAR) :=
  match s.cache with
  | some (cacheName, cacheValue) =>
    if rtlEqualUnicodeString upcase name cacheName true then some cacheValue else none
  | none => none

/-- The block at a place is searched; `fill` when the cache is filled. -/
def searchBlock (place : Place π) (fill : Bool) (name : List WCHAR) (maximumLength : Nat) :
    State π × Answer :=
  let block := (s.block place).getD []
  match findValue upcase name block block.length 0 with
  | some (currentName, text) =>
    let answer := Answer.value text maximumLength
    if fill = true ∧ answer.status = .success then
      ({ s with cache := some (currentName, text) }, answer)
    else (s, answer)
  | none => (s, s.pseudoVariable upcase name maximumLength)

/-- `RtlQueryEnvironmentVariable_U`; a pointer that is `NULL` stands for the process. -/
def rtlQueryEnvironmentVariable (environment : Option (Place π)) (name : List WCHAR)
    (maximumLength : Nat) : State π × Answer :=
  match environment.filter fun place => (s.block place).isSome with
  | some place =>
    if ((s.block place).getD []).headD 0 = 0 then (s, .notFound)
    else if place = .process then
      match s.cachedValue upcase name with
      | some text => (s, .value text maximumLength)
      | none => s.searchBlock upcase .process true name maximumLength
    else s.searchBlock upcase place false name maximumLength
  | none =>
    match s.cachedValue upcase name with
    | some text => (s, .value text maximumLength)
    | none => s.searchBlock upcase .process false name maximumLength

end State

/-! ## Runs -/

inductive Call (π : Type) where
  | set (environment : Option (Place π)) (name value : Option UnicodeString) (allocated : Bool)
  | query (environment : Option (Place π)) (name : List WCHAR) (maximumLength : Nat)

def next (s : State π) : Call π → State π
  | .set environment name value allocated =>
    (s.rtlSetEnvironmentVariable upcase environment name value allocated).1
  | .query environment name maximumLength =>
    (s.rtlQueryEnvironmentVariable upcase environment name maximumLength).1

/-- Each block is empty to begin with. -/
structure Initial (s : State π) : Prop where
  empty : ∀ place, ((s.block place).getD []).headD 0 = 0
  cache : s.cache = none
  edited : ∀ place, s.edited place = false

/-- The calls, one after another. -/
def calls : System (State π) (Call π) where
  init := Initial
  enabled _ _ := True
  next := next upcase

instance (s : State π) (call : Call π) : Decidable ((calls upcase).enabled s call) :=
  inferInstanceAs (Decidable True)

end Ldk.Environment
