import Ldk.DosPath.DeviceName

/-!
# Full path names

`RtlGetFullPathName_Ustr` of `curdir.c`, with its output buffer and the cursor `Dest`.

- The buffer is the list of its characters. A write outside the buffer is a fault, and so is a
  read, or a cursor that falls below its start.
- Indexes, `i` and `j` among them, count characters.
- The loop is given as many rounds as there are characters left; each round uses up one at least.
- What `RtlpValidateCurrentDirectory`, `RtlpCheckRelativeDrive` and `RtlpCheckDeviceName` leave
  behind is part of the context.
- Behind the characters of the name there is a null.
-/

namespace Ldk.DosPath

/-! ## The buffer -/

/-- What must not happen to the buffer. -/
inductive Fault where
  /-- An access outside the buffer. -/
  | outside
  /-- `Dest` falls below the start of the buffer. -/
  | below
  deriving DecidableEq, Repr

/-- `FullPath.Buffer` and `Dest`. -/
structure Output where
  buffer : List WCHAR
  dest : Nat
  deriving DecidableEq, Repr

namespace Output

variable (o : Output)

/-- `*Dest = ch` -/
def store (ch : WCHAR) : Except Fault Output :=
  if o.dest < o.buffer.length then .ok { o with buffer := o.buffer.set o.dest ch }
  else .error .outside

/-- `*Dest++ = ch` -/
def push (ch : WCHAR) : Except Fault Output := do
  let o ← o.store ch
  return { o with dest := o.dest + 1 }

/-- `Dest--` -/
def back : Except Fault Output :=
  if o.dest = 0 then .error .below else .ok { o with dest := o.dest - 1 }

/-- `Dest[-1]` -/
def previous : Except Fault WCHAR :=
  if o.dest = 0 then .error .outside
  else
    match o.buffer[o.dest - 1]? with
    | some ch => .ok ch
    | none => .error .outside

end Output

/-- `RtlCopyMemory` to an index of the buffer. -/
def rtlCopyMemory (buffer : List WCHAR) (start : Nat) (source : List WCHAR) :
    Except Fault (List WCHAR) :=
  if start + source.length ≤ buffer.length then
    .ok (buffer.take start ++ source ++ buffer.drop (start + source.length))
  else .error .outside

/-- The loops that copy a prefix: each separator becomes a backslash. -/
def copyPrefix (buffer : List WCHAR) (start : Nat) (source : List WCHAR) :
    Except Fault (List WCHAR) :=
  rtlCopyMemory buffer start (source.map fun ch => if isPathSeparator ch then backslash else ch)

/-! ## One component after another -/

/-- `IS_DOT_USTR` -/
def isDotUstr (s : List WCHAR) (source len : Nat) : Bool :=
  decide (1 ≤ len) && charAt s source == dot &&
    (decide (len - 1 = 0) || isPathSeparator (charAt s (source + 1)))

/-- `IS_DOT_DOT_USTR` -/
def isDotDotUstr (s : List WCHAR) (source len : Nat) : Bool :=
  decide (1 ≤ len) && charAt s source == dot && isDotUstr s (source + 1) (len - 1)

/-- The `while` loop for `..`: back to a backslash. -/
def eraseToSeparator (buffer : List WCHAR) : Nat → Except Fault Output
  | 0 =>
    match buffer[0]? with
    | some ch => if ch = backslash then .ok ⟨buffer, 0⟩ else .error .below
    | none => .error .outside
  | dest + 1 =>
    match buffer[dest + 1]? with
    | some ch =>
      if ch = backslash then .ok ⟨buffer, dest + 1⟩
      else eraseToSeparator (buffer.set (dest + 1) 0) dest
    | none => .error .outside

/-- The `do` loop for `..`: back to the backslash before that, or to the root. -/
def eraseToParent (root : Nat) (buffer : List WCHAR) : Nat → Except Fault Output
  | 0 => if root = 0 then .ok ⟨buffer, 0⟩ else .error .below
  | dest + 1 =>
    if dest + 1 = root then .ok ⟨buffer, dest + 1⟩
    else if buffer.length ≤ dest + 1 then .error .outside
    else
      let buffer := buffer.set (dest + 1) 0
      if charAt buffer dest = backslash then .ok ⟨buffer, dest⟩ else eraseToParent root buffer dest

/-- The branch for `..` -/
def dotDot (backupIndex : Nat) (o : Output) : Except Fault Output := do
  let o ← eraseToSeparator o.buffer o.dest
  let o ← eraseToParent (backupIndex - 1) o.buffer o.dest
  return if o.dest = backupIndex - 1 then { o with dest := o.dest + 1 } else o

/-- The branch for a separator. -/
def separator (o : Output) : Except Fault Output := do
  let ch ← o.previous
  if ch = backslash then return o else o.push backslash

/-- The loop of the default branch, and `Source` behind it. -/
def copyComponent (s : List WCHAR) : Nat → Nat → Output → Except Fault (Nat × Output)
  | 0, source, o => .ok (source, o)
  | j + 1, source, o =>
    if isPathSeparator (charAt s source) then .ok (source, o)
    else do
      let o ← o.push (charAt s source)
      copyComponent s j (source + 1) o

/-- A trailing dot before a separator goes. -/
def dropDot (s : List WCHAR) (source : Nat) (o : Output) : Except Fault Output := do
  if isPathSeparator (charAt s source) then
    let ch ← o.previous
    if ch = dot then o.back else return o
  else return o

/-- The loop over the name. -/
def walk (s : List WCHAR) (backupIndex : Nat) : Nat → Nat → Nat → Output → Except Fault Output
  | 0, _, _, o => .ok o
  | rounds + 1, i, source, o =>
    if s.length ≤ i then .ok o
    else if isPathSeparator (charAt s source) then do
      let o ← separator o
      walk s backupIndex rounds (i + 1) (source + 1) o
    else if charAt s source = dot then
      if isDotUstr s source (s.length - i) then
        if i + 1 < s.length ∧ isPathSeparator (charAt s (source + 1)) then
          walk s backupIndex rounds (i + 2) (source + 2) o
        else walk s backupIndex rounds (i + 1) (source + 1) o
      else if isDotDotUstr s source (s.length - i) then do
        let o ← dotDot backupIndex o
        walk s backupIndex rounds (i + 2) (source + 2) o
      else
        -- nothing is copied, and `Source` stays where it is
        walk s backupIndex rounds (i + 1) source o
    else do
      let (next, o) ← copyComponent s (s.length - i) source o
      let o ← dropDot s next o
      walk s backupIndex rounds (i + (next - source)) next o

/-- The loop that takes trailing dots and spaces away. -/
def trimEnd (buffer : List WCHAR) : Nat → Output
  | 0 => ⟨buffer, 0⟩
  | dest + 1 =>
    if isDotOrSpace (charAt buffer dest) then trimEnd (buffer.set dest 0) dest
    else ⟨buffer, dest + 1⟩

/-- `StripTrailingSlash` -/
def stripTrailingSlash (s : List WCHAR) : Bool := !isPathSeparator (charAt s (s.length - 1))

/-- A backslash at the end goes, when the name has none there. -/
def stripSlash (s : List WCHAR) (backupIndex : Nat) (o : Output) : Except Fault Output :=
  if stripTrailingSlash s ∧ backupIndex < o.dest ∧ charAt o.buffer (o.dest - 1) = backslash then
    Output.store { o with dest := o.dest - 1 } 0
  else .ok o

/-- What comes behind the loop. -/
def finish (s : List WCHAR) (backupIndex : Nat) (o : Output) : Except Fault Output := do
  let o ← o.store 0
  let o ← stripSlash s backupIndex o
  return trimEnd o.buffer o.dest

/-- The scan for the last backslash: what comes behind it. -/
def behindLastBackslash (buffer : List WCHAR) : Nat → Option Nat
  | 0 => none
  | source + 1 =>
    if charAt buffer (source + 1) = backslash then some (source + 2)
    else behindLastBackslash buffer source

/-- `*lpFilePart` -/
def filePart (pathType : RtlPathType) (backupIndex : Nat) (o : Output) : Option Nat :=
  match behindLastBackslash o.buffer (o.dest - 1) with
  | some part =>
    if charAt o.buffer part = 0 then none
    else if pathType = .uncAbsolute ∧ part < backupIndex then none
    else some part
  | none => none

/-! ## RtlGetFullPathName_Ustr -/

/-- What the function finds when it is called. -/
structure Context where
  upcase : WCHAR → WCHAR
  /-- `CurrentDirectory.DosPath` -/
  dosPath : List WCHAR
  /-- The same after `RtlpValidateCurrentDirectory`. -/
  validDosPath : List WCHAR
  /-- The value of `=X:` for a drive, after `RtlpCheckRelativeDrive`. -/
  driveValue : WCHAR → Option (List WCHAR)
  /-- `NameInvalid` has been passed, and `RtlpCheckDeviceName` fails or finds the name invalid. -/
  deviceRejected : Bool

/-- What comes out. -/
inductive Outcome where
  /-- A value is returned, and no path. -/
  | returned (pathLength : Nat)
  /-- The path is in the buffer before `Dest`. -/
  | stored (o : Output) (filePart : Option Nat)
  deriving DecidableEq, Repr

structure FullPath where
  inputPathType : RtlPathType
  outcome : Outcome
  deriving DecidableEq, Repr

/-- The conversion to `USHORT`. -/
def toUShort (n : Nat) : Nat := n % 2 ^ 16

/-- The value of the function, in bytes. -/
def Outcome.pathLength : Outcome → Nat
  | .returned pathLength => pathLength
  | .stored o _ => toUShort (2 * o.dest)

/-- A length that does not fit in a `USHORT` is not returned. -/
def neededLength (n : Nat) : Nat := if n > 2 ^ 16 - 1 then 0 else n

/-- The conversion to `UCHAR` of a drive letter. -/
def driveOf (upcase : WCHAR → WCHAR) (ch : WCHAR) : WCHAR := upcase ch &&& 0xff

/-- The characters up to the second separator. -/
def toSecondSeparator : List WCHAR → Nat → Nat
  | [], _ => 0
  | ch :: rest, numberOfPathSeparators =>
    if isPathSeparator ch then
      if numberOfPathSeparators + 1 = 2 then 0
      else 1 + toSecondSeparator rest (numberOfPathSeparators + 1)
    else 1 + toSecondSeparator rest numberOfPathSeparators

/-- `RtlpComputeBackupIndex` -/
def rtlpComputeBackupIndex (dosPath : List WCHAR) : Nat :=
  if rtlDetermineDosPathNameTypeU dosPath = .uncAbsolute then
    2 + toSecondSeparator ((dosPath.drop 2).takeWhile (· ≠ 0)) 0
  else 3

/-- What the switch over the path type sets up. -/
structure Start where
  /-- `Source`, from the start of the name. -/
  source : Nat
  /-- `PrefixSourceLength`, in characters. -/
  prefixSource : Nat
  pathPrefix : List WCHAR
  /-- The prefix is in the output buffer. -/
  inPlace : Bool
  backupIndex : Nat
  /-- `PathNameLength`, in bytes. -/
  pathNameLength : Nat
  buffer : List WCHAR
  deriving DecidableEq, Repr

/-- How the function goes on. -/
inductive Switched where
  | leave (pathLength : Nat)
  | go (start : Start)
  deriving DecidableEq, Repr

/-- `RtlpSlashSlashDot` -/
def slashSlashDot : List WCHAR := [backslash, backslash, dot, backslash]

/-- The branch for a path relative to another drive than the current one; `n` is
`nBufferLength`. -/
def otherDrive (c : Context) (s : List WCHAR) (n : Nat) (buffer : List WCHAR) :
    Except Fault Switched :=
  let newDrive := driveOf c.upcase (charAt s 0)
  let start : Start :=
    { source := 2, prefixSource := 0, pathPrefix := [newDrive, colon, backslash], inPlace := false,
      backupIndex := 3, pathNameLength := 2 * s.length - 4, buffer := buffer }
  match c.driveValue newDrive with
  | none => .ok (.go start)
  | some value =>
    if n < 2 * value.length then
      .ok (.leave (neededLength (2 * value.length + 2 * s.length + 2)))
    else do
      -- `RtlQueryEnvironmentVariable_U` ends the value with a null if there is room for one
      let buffer ← rtlCopyMemory buffer 0
        (if 2 * value.length < n then value ++ [0] else value)
      if 3 < value.length then
        let buffer ← rtlCopyMemory buffer value.length [backslash]
        return .go { start with
          pathPrefix := (value ++ [backslash]).take (toUShort (2 * value.length + 2) / 2)
          inPlace := true, buffer := buffer }
      else return .go { start with pathPrefix := value, inPlace := true, buffer := buffer }

/-- The switch over the path type. -/
def switchPathType (c : Context) (s : List WCHAR) (n : Nat) (buffer : List WCHAR)
    (pathType : RtlPathType) : Except Fault Switched :=
  let start : Start :=
    { source := 0, prefixSource := 0, pathPrefix := [], inPlace := false, backupIndex := 3,
      pathNameLength := 2 * s.length, buffer := buffer }
  match pathType with
  | .uncAbsolute =>
    let backupIndex := 2 + toSecondSeparator (s.drop 2) 0
    .ok (.go { start with
      source := backupIndex, prefixSource := backupIndex, backupIndex := backupIndex })
  | .localDevice => .ok (.go { start with source := 4, prefixSource := 4, backupIndex := 4 })
  | .rootLocalDevice =>
    .ok (.go { start with
      source := 3, prefixSource := 3, pathPrefix := slashSlashDot.take 2, backupIndex := 3
      pathNameLength := 2 * s.length - 6 })
  | .driveAbsolute => .ok (.go start)
  | .driveRelative =>
    if driveOf c.upcase (charAt c.dosPath 0) = driveOf c.upcase (charAt s 0) then
      .ok (.go { start with
        source := 2, pathPrefix := c.validDosPath, pathNameLength := 2 * s.length - 4 })
    else otherDrive c s n buffer
  | .rooted =>
    let backupIndex := rtlpComputeBackupIndex c.dosPath
    .ok (.go { start with
      pathPrefix := c.dosPath.take (if backupIndex = 3 then 2 else backupIndex)
      backupIndex := backupIndex })
  | .relative =>
    .ok (.go { start with
      pathPrefix := c.validDosPath, backupIndex := rtlpComputeBackupIndex c.validDosPath })
  | .unknown => .ok (.leave 0)

/-- The prefix in the buffer, with `Dest` behind it. -/
def putPrefix (s : List WCHAR) (x : Start) : Except Fault Output := do
  let dest := x.prefixSource + x.pathPrefix.length
  if x.prefixSource ≠ 0 ∨ x.inPlace = false then
    let buffer ← copyPrefix x.buffer 0 (s.take x.prefixSource)
    let buffer ← copyPrefix buffer x.prefixSource x.pathPrefix
    return ⟨buffer, dest⟩
  else return ⟨x.buffer, dest⟩

/-- From the label `skipit` on. -/
def skipit (s : List WCHAR) (pathType : RtlPathType) (x : Start) (o : Output) :
    Except Fault Outcome := do
  let o ← o.store 0
  let o ← walk s x.backupIndex (s.length - x.source) x.source x.source o
  let o ← finish s x.backupIndex o
  return .stored o (filePart pathType x.backupIndex o)

/-- The test of the size, and what comes behind it. -/
def build (s : List WCHAR) (n : Nat) (pathType : RtlPathType) (x : Start) :
    Except Fault Outcome := do
  let prefixLength := 2 * x.pathPrefix.length
  let maximumLength := x.pathNameLength + prefixLength
  if n < maximumLength + 2 then
    if s.length > 1 ∨ charAt s 0 ≠ dot then return .returned (neededLength (maximumLength + 2))
    else if prefixLength = 6 then
      if n ≤ prefixLength then return .returned (prefixLength + 2)
      else skipit s pathType x (← putPrefix s x)
    else if n < prefixLength then return .returned prefixLength
    else
      -- the backslash at the end of the directory goes
      let buffer ← copyPrefix x.buffer 0 x.pathPrefix
      skipit s pathType x ⟨buffer, subUShort prefixLength 2 / 2⟩
  else skipit s pathType x (← putPrefix s x)

/-- The path of a device. -/
def devicePath (s : List WCHAR) (n : Nat) (buffer : List WCHAR) (offset length : Nat) :
    Except Fault Outcome := do
  let pathNameLength := length + 2 * slashSlashDot.length
  if pathNameLength < n then
    let buffer ← rtlCopyMemory buffer 0 slashSlashDot
    let buffer ← rtlCopyMemory buffer 4 ((s.drop (offset / 2)).take (length / 2))
    let buffer ← rtlCopyMemory buffer (4 + length / 2) [0]
    return .stored ⟨buffer, pathNameLength / 2⟩ none
  else return .returned (neededLength (pathNameLength + 2))

/-- `nBufferLength` as the function uses it. -/
def usedLength (nBufferLength : Nat) : Nat :=
  if nBufferLength > 2 ^ 16 - 1 then 2 ^ 16 - 2 else nBufferLength

/-- `RtlGetFullPathName_Ustr` -/
def rtlGetFullPathNameUstr (c : Context) (s : List WCHAR) (nBufferLength : Nat)
    (lpBuffer : List WCHAR) : Except Fault FullPath := do
  let n := usedLength nBufferLength
  if s = [] ∨ charAt s 0 = 0 then return ⟨.unknown, .returned 0⟩
  else if s.rdropWhile (· == space) = [] then return ⟨.unknown, .returned 0⟩
  else
    let device := rtlIsDosDeviceNameUstr c.upcase s
    if device ≠ 0 then
      if device / 2 ^ 16 ≠ 0 ∧ c.deviceRejected then return ⟨.unknown, .returned 0⟩
      else return ⟨.unknown, ← devicePath s n lpBuffer (device / 2 ^ 16) (device % 2 ^ 16)⟩
    else
      -- `RtlZeroMemory`
      let buffer ← rtlCopyMemory lpBuffer 0 (List.replicate (n / 2) 0)
      let pathType := rtlDetermineDosPathNameTypeUstr s
      match ← switchPathType c s n buffer pathType with
      | .leave pathLength => return ⟨pathType, .returned pathLength⟩
      | .go start => return ⟨pathType, ← build s n pathType start⟩

end Ldk.DosPath
