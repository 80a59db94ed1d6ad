import Ldk.Environment.Variable
import Ldk.Lib.Allocations
import Ldk.Lib.Joined

/-!
# The search path of LoadLibraryExW

`LdkpComputeDllPath` puts the directories that the flags prescribe into one string. Its parts are
copied to blocks of the heap first: the directory of the library's name, that of the image, the
value of `PATH` and the directories of the user.

- Lengths are kept in bytes in a `USHORT`. As the lengths of strings of characters are even, they
  are counted in characters here, and what a `USHORT` keeps of them is `charCount`.
- The query for `PATH` is repeated with the size it has asked for, as often as it takes: the
  number of rounds is a parameter.
- Which requests to the heap succeed is up to an oracle. A write outside a block ends the program.
-/

namespace Ldk.Loader

open OutputBuffer Environment Allocations

/-! ## Strings in the heap -/

/-- Why the code does not go on. -/
inductive Stop where
  | status (s : NtStatus)
  | outside (w : Outside)
  deriving DecidableEq, Repr

/-- What a `USHORT` of bytes keeps of a number of characters. -/
def charCount (n : Nat) : Nat := toUShort (2 * n) / 2

/-- A `UNICODE_STRING` with its block of the heap. Its `MaximumLength` is the size of the block. -/
structure HeapString where
  block : Option Nat
  buffer : List WCHAR
  length : Nat
  deriving DecidableEq, Repr

namespace HeapString

/-- A string without a buffer. -/
def empty : HeapString := ⟨none, [], 0⟩

/-- The characters of a string. -/
def chars (s : HeapString) : List WCHAR := s.buffer.take s.length

end HeapString

/-- Code that uses the heap. -/
abbrev Code (α : Type) := Command Allocations Stop α

/-- The block that `RtlAllocateHeap` gives with `HEAP_ZERO_MEMORY`. -/
def zeroed (size : Nat) : List WCHAR := List.replicate size 0

/-- A write to a block. -/
def write (buffer : List WCHAR) (start : Nat) (piece : List WCHAR) : Except Stop (List WCHAR) :=
  (put buffer start piece).mapError .outside

section

variable (succeeds : Nat → Bool)

/-- The first characters of a text are copied to a block that has room for a null as well. -/
def duplicate (text : List WCHAR) (length : Nat) : Code HeapString :=
  if length = 0 then return .empty
  else do
    let block ← allocate succeeds (.status .insufficientResources)
    let buffer ← Command.ofExcept (write (zeroed (charCount (length + 1))) 0 (text.take length))
    return ⟨some block, buffer, length⟩

/-! ## The directory of the name -/

/-- `LdkpIsPathSeparator` -/
def isPathSeparator (ch : WCHAR) : Bool := ch == 0x5c || ch == 0x2f

/-- The loop of `LdkpDuplicateDirectoryFromPath`: `LastSeparator`. -/
def lastSeparator : List WCHAR → Nat → Option Nat → Option Nat
  | [], _, last => last
  | ch :: rest, i, last => lastSeparator rest (i + 1) (if isPathSeparator ch then some i else last)

/-- `LdkpDuplicateDirectoryFromPath` -/
def duplicateDirectoryFromPath (path : List WCHAR) : Code HeapString :=
  match lastSeparator path 0 none with
  | none => return .empty
  | some i =>
    -- the root of a drive keeps its separator
    let length := if i = 2 ∧ path[1]? = some 0x3a then charCount i + 1 else charCount i
    duplicate succeeds path length

/-! ## The directory of the image -/

/-- The loop of `LdkpDuplicateImageDirectory`, with `End` behind the first `n` characters. -/
def imageDirectoryLength (path : List WCHAR) : Nat → Nat
  | 0 => path.length
  | n + 1 => if path[n]? = some 0x5c then n else imageDirectoryLength path n

/-- `LdkpDuplicateImageDirectory` -/
def duplicateImageDirectory (imagePathName : List WCHAR) : Code HeapString :=
  duplicate succeeds imagePathName (imageDirectoryLength imagePathName imagePathName.length)

/-! ## The value of PATH -/

/-- The loop of `LdkpDuplicateEnvironmentPath`. -/
def queryPath (query : Query) : Nat → Nat → List WCHAR → Code HeapString
  | 0, _, _ => Command.diverge
  | rounds + 1, block, buffer => do
    let reply ← Command.ofExcept ((getEnvironmentVariableW query buffer).mapError .outside)
    if reply.returned < reply.buffer.length then
      return ⟨some block, reply.buffer, charCount reply.returned⟩
    else do
      let size := charCount (reply.returned + 1)
      match ← Command.attempt
          (reallocate succeeds (Stop.status .insufficientResources) block) with
      | .ok larger =>
        -- what is new in the block is zeroed
        queryPath query rounds larger
          (reply.buffer.take size ++ zeroed (size - reply.buffer.length))
      | .error e => do
        release (some block)
        Command.fail e

/-- `LdkpDuplicateEnvironmentPath` -/
def duplicateEnvironmentPath (query : Query) (rounds : Nat) : Code HeapString := do
  let block ← allocate succeeds (.status .insufficientResources)
  queryPath succeeds query rounds block (zeroed 4096)

/-! ## Elements of a path -/

/-- `RtlAppendUnicodeStringToString` and `RtlAppendUnicodeToString` -/
def rtlAppend (s : HeapString) (text : List WCHAR) : Except Stop HeapString :=
  let length := s.length + text.length
  if length > s.buffer.length then .error (.status .bufferTooSmall)
  else do
    let buffer ← write s.buffer s.length text
    let buffer ← if length < buffer.length then write buffer length [0] else .ok buffer
    return { s with buffer, length }

/-- `;` -/
def semicolon : WCHAR := 0x3b

/-- `LdkpAppendDllPathElement` -/
def appendDllPathElement (searchPath : HeapString) (element : List WCHAR) :
    Except Stop HeapString :=
  if element = [] then .ok searchPath
  else do
    let searchPath ←
      if searchPath.length ≠ 0 then rtlAppend searchPath [semicolon] else .ok searchPath
    rtlAppend searchPath element

/-- One element after another. -/
def appendAll (searchPath : HeapString) : List (List WCHAR) → Except Stop HeapString
  | [] => .ok searchPath
  | element :: rest => do
    let searchPath ← appendDllPathElement searchPath element
    appendAll searchPath rest

/-- A string in which something has been put is released if that fails. -/
def fill (string : HeapString) (contents : HeapString → Except Stop HeapString) :
    Code HeapString := do
  match ← Command.attempt (Command.ofExcept (contents string)) with
  | .ok string => return string
  | .error e => do
    release string.block
    Command.fail e

/-- `RequiredLength` of the directories that are not empty. -/
def requiredLength (directories : List (List WCHAR)) : Nat :=
  let count := directories.countP fun directory => !directory.isEmpty
  1 + (directories.map List.length).sum + (if count > 1 then count - 1 else 0)

/-- `LdkpDuplicateUserDllDirectories`, for the directory of `SetDllDirectory` and those of
`AddDllDirectory` behind it. -/
def duplicateUserDllDirectories (directories : List (List WCHAR)) : Code HeapString :=
  if (directories.countP fun directory => !directory.isEmpty) = 0 then return .empty
  else if 2 * requiredLength directories > maxUShort then Command.fail (.status .nameTooLong)
  else do
    let block ← allocate succeeds (.status .insufficientResources)
    fill ⟨some block, zeroed (charCount (requiredLength directories)), 0⟩ fun string =>
      appendAll string directories

end

/-! ## The order of the directories -/

/-- The strings a search path is made of. -/
inductive Part where
  | load
  | image
  | system
  | environment
  | user
  deriving DecidableEq, Repr

/-- `LOAD_WITH_ALTERED_SEARCH_PATH` -/
def alteredSearchPath : UInt32 := 0x8
/-- `LOAD_LIBRARY_SEARCH_DLL_LOAD_DIR` -/
def searchDllLoadDir : UInt32 := 0x100
/-- `LOAD_LIBRARY_SEARCH_APPLICATION_DIR` -/
def searchApplicationDir : UInt32 := 0x200
/-- `LOAD_LIBRARY_SEARCH_USER_DIRS` -/
def searchUserDirs : UInt32 := 0x400
/-- `LOAD_LIBRARY_SEARCH_SYSTEM32` -/
def searchSystem32 : UInt32 := 0x800
/-- `LOAD_LIBRARY_SEARCH_DEFAULT_DIRS` -/
def searchDefaultDirs : UInt32 := 0x1000
/-- `LOAD_LIBRARY_SEARCH_SYSTEM32_NO_FORWARDER` -/
def searchSystem32NoForwarder : UInt32 := 0x4000

/-- `LDK_LOAD_LIBRARY_SEARCH_FLAGS` -/
def searchFlagsMask : UInt32 :=
  searchDllLoadDir ||| searchApplicationDir ||| searchUserDirs ||| searchSystem32 |||
    searchDefaultDirs ||| searchSystem32NoForwarder

/-- `SearchFlags` of `LdkpComputeDllPath`. -/
def searchFlags (dwFlags defaultDllDirectories : UInt32) : UInt32 :=
  if dwFlags &&& searchFlagsMask = 0 ∧ dwFlags &&& alteredSearchPath = 0 then
    defaultDllDirectories
  else dwFlags &&& searchFlagsMask

/-- An element is appended if a flag is set. -/
def appendIf (flag : Prop) [Decidable flag] (searchPath : HeapString) (element : List WCHAR) :
    Except Stop HeapString :=
  if flag then appendDllPathElement searchPath element else .ok searchPath

/-- The strings are appended as the flags say. -/
def appendDirectories (dwFlags searchFlags : UInt32) (element : Part → List WCHAR)
    (searchPath : HeapString) : Except Stop HeapString :=
  if dwFlags &&& alteredSearchPath ≠ 0 then do
    let searchPath ← appendDllPathElement searchPath (element .load)
    let searchPath ← appendDllPathElement searchPath (element .image)
    appendDllPathElement searchPath (element .environment)
  else if searchFlags ≠ 0 then do
    let searchPath ← appendIf (searchFlags &&& searchDllLoadDir ≠ 0) searchPath (element .load)
    if searchFlags &&& searchDefaultDirs ≠ 0 then do
      let searchPath ← appendDllPathElement searchPath (element .image)
      let searchPath ← appendDllPathElement searchPath (element .user)
      appendDllPathElement searchPath (element .system)
    else do
      let searchPath ←
        appendIf (searchFlags &&& searchApplicationDir ≠ 0) searchPath (element .image)
      let searchPath ←
        appendIf (searchFlags &&& (searchSystem32 ||| searchSystem32NoForwarder) ≠ 0) searchPath
          (element .system)
      appendIf (searchFlags &&& searchUserDirs ≠ 0) searchPath (element .user)
  else do
    let searchPath ← appendDllPathElement searchPath (element .image)
    appendDllPathElement searchPath (element .environment)

/-! ## The search path -/

/-- What the process knows of directories. -/
structure Paths where
  imagePathName : List WCHAR
  /-- `DllPath` of the process parameters: the system directory. -/
  dllPath : List WCHAR
  /-- The directory of `SetDllDirectory`. -/
  dllDirectory : List WCHAR
  /-- The directories of `AddDllDirectory`. -/
  dllDirectoryList : List (List WCHAR)
  defaultDllDirectories : UInt32
  /-- Each is a `UNICODE_STRING` of a path. -/
  counted : ∀ path ∈ imagePathName :: dllPath :: dllDirectory :: dllDirectoryList,
    path.length < 2 ^ 15 ∧ 0 ∉ path

/-- The directories of the user. -/
def Paths.userDirectories (paths : Paths) : List (List WCHAR) :=
  paths.dllDirectory :: paths.dllDirectoryList

/-- The strings that have been collected. -/
def elements (paths : Paths) (load image environment user : HeapString) : Part → List WCHAR
  | .load => load.chars
  | .image => image.chars
  | .system => paths.dllPath
  | .environment => environment.chars
  | .user => user.chars

/-- `LdkpComputeDllPath`. The cleanup is nested: what has been copied last is released first. -/
def computeDllPath (succeeds : Nat → Bool) (query : Query) (paths : Paths)
    (lpLibFileName : List WCHAR) (dwFlags : UInt32) (rounds : Nat) : Code HeapString :=
  within HeapString.block (duplicateDirectoryFromPath succeeds lpLibFileName) fun load =>
  within HeapString.block (duplicateImageDirectory succeeds paths.imagePathName) fun image =>
  within HeapString.block (duplicateEnvironmentPath succeeds query rounds) fun environment =>
  within HeapString.block (duplicateUserDllDirectories succeeds paths.userDirectories)
    fun user => do
    let maximumLength := charCount (load.length + image.length + paths.dllPath.length +
      environment.length + user.length + 5 + 1)
    let block ← allocate succeeds (.status .insufficientResources)
    fill ⟨some block, zeroed maximumLength, 0⟩ (appendDirectories dwFlags
      (searchFlags dwFlags paths.defaultDllDirectories)
      (elements paths load image environment user))

end Ldk.Loader
