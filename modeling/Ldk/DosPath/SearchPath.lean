import Ldk.DosPath.Normalize

/-!
# The search for a file

`RtlDosSearchPath_U` of `curdir.c`. The candidates are the elements of the search path, with a
backslash, the name and the extension behind each.

- A string that ends with a null is the list of the characters before it, and a pointer into one
  is what is left of it.
- The length of the buffer is the sum of three lengths, as a `USHORT`. It is large enough for every
  candidate when the sum fits (`search_probes_elements`).
- Behind a semicolon at the end of the path there is an empty element, which the loop leaves out.
- Whether a file is there may change from one probe to the next.
-/

namespace Ldk.DosPath

/-! ## RtlDosSearchPath_U -/

/-- `L';'` -/
def semicolon : WCHAR := 0x3b

/-- What the function finds when it is called. -/
structure SearchContext extends Context where
  /-- `RtlDoesFileExists_UstrEx`, at each of its calls. -/
  fileExists : Nat → List WCHAR → Bool
  /-- `RtlAllocateHeap`, for a block of some characters. -/
  heap : (n : Nat) → Option { block : List WCHAR // block.length = n }

/-- A block of the heap. -/
def SearchContext.allocate (c : SearchContext) (n : Nat) : Option (List WCHAR) :=
  (c.heap n).map Subtype.val

/-- The lengths `RtlInitUnicodeStringEx` takes, in characters. -/
def unicodeStringMaxChars : Nat := 2 ^ 15 - 2

/-- `RtlInitUnicodeStringEx`: the `Length` of the string. -/
def rtlInitUnicodeStringEx (s : List WCHAR) : Option Nat :=
  if s.length ≤ unicodeStringMaxChars then some (2 * s.length) else none

/-- `ExtensionLength` -/
def extensionLength (fileName : List WCHAR) (extension : Option (List WCHAR)) : Option Nat :=
  if dot ∈ fileName then some 0
  else
    match extension with
    | some extension => rtlInitUnicodeStringEx extension
    | none => some 0

/-- The loop over an element: what is left of the path, and `Cursor`. -/
def copyElement : List WCHAR → Output → Except Fault (List WCHAR × Output)
  | [], cursor => .ok ([], cursor)
  | ch :: path, cursor =>
    if ch = semicolon then .ok (path, cursor)
    else do
      let cursor ← cursor.push ch
      copyElement path cursor

/-- A backslash behind an element that does not end with one. -/
def closeElement (cursor : Output) : Except Fault Output :=
  if cursor.dest ≠ 0 then do
    let ch ← cursor.previous
    if ch ≠ backslash then cursor.push backslash else return cursor
  else .ok cursor

/-- The name and the extension: the buffer and `FileName.Length`. -/
def copyName (fileName extension : List WCHAR) (extensionLength : Nat) (cursor : Output) :
    Except Fault (List WCHAR × Nat) := do
  let buffer ← rtlCopyMemory cursor.buffer cursor.dest fileName
  if extensionLength ≠ 0 then
    let buffer ← rtlCopyMemory buffer (cursor.dest + fileName.length) (extension ++ [0])
    return (buffer, toUShort (2 * cursor.dest + 2 * fileName.length + extensionLength))
  else
    let buffer ← rtlCopyMemory buffer (cursor.dest + fileName.length) [0]
    return (buffer, toUShort (2 * cursor.dest + 2 * fileName.length))

/-- The names that are probed, one after another, and the one that is found. -/
structure Probes where
  names : List (List WCHAR)
  found : Option (List WCHAR)
  deriving DecidableEq, Repr

/-- One more name, which is not found. -/
def Probes.behind (name : List WCHAR) (probes : Probes) : Probes :=
  { probes with names := name :: probes.names }

variable (c : SearchContext)

/-- The `do` loop; there are no probes when it has not come to an end. -/
def searchLoop (fileName extension : List WCHAR) (extensionLength : Nat) :
    Nat → Nat → List WCHAR → List WCHAR → Except Fault (Option Probes)
  | 0, _, _, _ => .ok none
  | rounds + 1, i, path, buffer => do
    let (path, cursor) ← copyElement path ⟨buffer, 0⟩
    let cursor ← closeElement cursor
    let (buffer, length) ← copyName fileName extension extensionLength cursor
    let name := buffer.take (length / 2)
    if c.fileExists i name then return some ⟨[name], some name⟩
    else if path = [] then return some ⟨[name], none⟩
    else
      let probes ← searchLoop fileName extension extensionLength rounds (i + 1) path buffer
      return probes.map (·.behind name)

/-- `FileName.MaximumLength` -/
def maximumLength (pathLength fileLength extensionLength : Nat) : Nat :=
  toUShort (pathLength + fileLength + extensionLength + 6)

/-- The search for a name that is relative. -/
def searchRelative (path fileName : List WCHAR) (extension : Option (List WCHAR)) :
    Except Fault (Option Probes) :=
  match extensionLength fileName extension, rtlInitUnicodeStringEx path,
      rtlInitUnicodeStringEx fileName with
  | some extensionLength, some pathLength, some fileLength =>
    match c.allocate (maximumLength pathLength fileLength extensionLength / 2) with
    | none => .ok (some ⟨[], none⟩)
    | some buffer =>
      searchLoop c fileName (extension.getD []) extensionLength (path.length + 1) 0 path buffer
  | _, _, _ => .ok (some ⟨[], none⟩)

/-- The probes. -/
def search (path fileName : List WCHAR) (extension : Option (List WCHAR)) :
    Except Fault (Option Probes) :=
  if rtlDetermineDosPathNameTypeU fileName ≠ .relative then
    -- `RtlInitUnicodeString` cuts the name
    let name := fileName.take unicodeStringMaxChars
    .ok (some ⟨[name], if c.fileExists 0 name then some fileName else none⟩)
  else searchRelative c path fileName extension

/-- `RtlGetFullPathName_U`, for the name as it was given, or `RtlGetFullPathName_Ustr`. -/
def fullPathOf (relative : Bool) (name : List WCHAR) (nBufferLength : Nat)
    (lpBuffer : List WCHAR) : Except Fault Outcome :=
  if relative = false ∧ rtlInitUnicodeStringEx name = none then .ok (.returned 0)
  else do
    let full ← rtlGetFullPathNameUstr c.toContext name nBufferLength lpBuffer
    return full.outcome

/-- `RtlDosSearchPath_U`; there is no result when the search does not come to an end. -/
def rtlDosSearchPathU (path fileName : List WCHAR) (extension : Option (List WCHAR))
    (nBufferLength : Nat) (lpBuffer : List WCHAR) : Except Fault (Option Outcome) := do
  match ← search c path fileName extension with
  | none => return none
  | some ⟨_, none⟩ => return some (.returned 0)
  | some ⟨_, some name⟩ =>
    let relative := decide (rtlDetermineDosPathNameTypeU fileName = .relative)
    return some (← fullPathOf c relative name nBufferLength lpBuffer)

/-! ## The candidates -/

/-- The elements of a search path. -/
def elements (path : List WCHAR) : List (List WCHAR) := path.splitOn semicolon

/-- The directory an element stands for; an empty element stands for none. -/
def directoryText (element : List WCHAR) : List WCHAR :=
  if element = [] ∨ element.getLast? = some backslash then element else element ++ [backslash]

/-- The extension is for names without a dot. -/
def usedExtension (fileName : List WCHAR) (extension : Option (List WCHAR)) : List WCHAR :=
  if dot ∈ fileName then [] else extension.getD []

/-- `directory\name.ext` -/
def candidate (fileName : List WCHAR) (extension : Option (List WCHAR)) (element : List WCHAR) :
    List WCHAR :=
  directoryText element ++ fileName ++ usedExtension fileName extension

/-- The candidates are probed in their order, up to the first that is found. -/
def probeAll (fileExists : Nat → List WCHAR → Bool) : Nat → List (List WCHAR) → Probes
  | _, [] => ⟨[], none⟩
  | i, name :: names =>
    if fileExists i name then ⟨[name], some name⟩ else (probeAll fileExists (i + 1) names).behind name

/-! ## One candidate -/

variable {c} {path rest fileName extension used element text : List WCHAR} {n : Nat} {o : Output}
  {ch : WCHAR}

/-- The text before the cursor, in a buffer of this size. -/
structure Written (n : Nat) (text : List WCHAR) (o : Output) : Prop where
  size : o.buffer.length = n
  dest : o.dest = text.length
  text : o.buffer.take text.length = text

theorem Written.start (buffer : List WCHAR) : Written buffer.length [] ⟨buffer, 0⟩ :=
  ⟨rfl, rfl, rfl⟩

theorem Written.push (h : Written n text o) (hlt : text.length < n) :
    Yields (o.push ch) (Written n (text ++ [ch])) := by
  have hdest : o.dest < o.buffer.length := by rwa [h.dest, h.size]
  rw [Output.push_eq hdest]
  apply Yields.ok
  have hlength : (text ++ [ch]).length = text.length + 1 := by
    rw [List.length_append, List.length_singleton]
  refine ⟨by rw [List.length_set, h.size], by rw [hlength, h.dest], ?_⟩
  rw [hlength, h.dest, take_succ_charAt (by rw [List.length_set, h.size]; exact hlt),
    List.take_set_of_le (Nat.le_refl _), h.text, charAt_set_self (by rw [h.size]; exact hlt)]

/-- The last character of the text. -/
theorem Written.previous (h : Written n (text ++ [ch]) o) :
    Yields o.previous fun last => last = ch := by
  have hlength : (text ++ [ch]).length = text.length + 1 := by
    rw [List.length_append, List.length_singleton]
  have hdest := h.dest
  rw [hlength] at hdest
  have htake : (o.buffer.take (text.length + 1)).length = text.length + 1 := by
    rw [← hlength, h.text]
  rw [List.length_take] at htake
  rw [Output.previous_eq (by omega) (by omega)]
  apply Yields.ok
  have hchar : charAt (o.buffer.take (text.length + 1)) text.length = charAt o.buffer text.length :=
    charAt_take (Nat.lt_succ_self _)
  rw [hdest, Nat.add_sub_cancel, ← hchar, ← hlength, h.text]
  exact charAt_append_cons _ _ _

/-- More text behind what has been written. -/
theorem Written.copy (h : Written n text o) {source : List WCHAR}
    (hroom : text.length + source.length ≤ n) :
    Yields (rtlCopyMemory o.buffer o.dest source) fun buffer =>
      Written n (text ++ source) ⟨buffer, text.length + source.length⟩ := by
  rw [h.dest, rtlCopyMemory_eq (by rw [h.size]; exact hroom)]
  apply Yields.ok
  refine ⟨?_, ?_, ?_⟩
  · rw [length_copied (by rw [h.size]; exact hroom), h.size]
  · rw [List.length_append]
  · dsimp only
    rw [h.text, List.take_left]

/-- What has been written first. -/
theorem Written.front {more : List WCHAR} (h : Written n (text ++ more) o) :
    o.buffer.take text.length = text := by
  have hle : text.length ≤ (text ++ more).length := by
    rw [List.length_append]
    exact Nat.le_add_right _ _
  calc o.buffer.take text.length
      = (o.buffer.take (text ++ more).length).take text.length := by
        rw [List.take_take, Nat.min_eq_left hle]
    _ = text := by rw [h.text, List.take_left]

theorem copyElement_spec {tail : List WCHAR} (hend : tail = [] ∨ tail = semicolon :: rest)
    (helement : semicolon ∉ element) (h : Written n text o)
    (hroom : text.length + element.length ≤ n) :
    Yields (copyElement (element ++ tail) o) fun r =>
      r.1 = tail.tail ∧ Written n (text ++ element) r.2 := by
  induction element generalizing text o with
  | nil =>
    rw [List.append_nil]
    rcases hend with rfl | rfl
    · exact .ok ⟨rfl, h⟩
    · rw [List.nil_append]
      unfold copyElement
      rw [if_pos rfl]
      exact .ok ⟨rfl, h⟩
  | cons ch element ih =>
    rw [List.length_cons] at hroom
    have hch : ch ≠ semicolon := fun heq => helement (heq ▸ List.mem_cons_self)
    rw [List.cons_append]
    unfold copyElement
    rw [if_neg hch]
    apply (@Written.push text n o ch h (by omega)).bind
    intro o' h'
    have hnext := ih (fun hmem => helement (List.mem_cons_of_mem _ hmem)) h'
      (by rw [List.length_append, List.length_singleton]; omega)
    rwa [List.append_assoc, List.singleton_append] at hnext

theorem closeElement_spec (h : Written n element o) (hroom : (directoryText element).length ≤ n) :
    Yields (closeElement o) (Written n (directoryText element)) := by
  unfold closeElement
  rcases List.eq_nil_or_concat' element with rfl | ⟨front, ch, rfl⟩
  · rw [if_neg (by rw [h.dest]; exact not_not.mpr rfl)]
    exact .ok h
  · have hlength : (front ++ [ch]).length = front.length + 1 := by
      rw [List.length_append, List.length_singleton]
    have hne : o.dest ≠ 0 := by
      rw [h.dest, hlength]
      exact Nat.succ_ne_zero _
    rw [if_pos hne]
    apply h.previous.bind
    rintro _ rfl
    rename_i last
    unfold directoryText at hroom ⊢
    have hlast : (front ++ [last]).getLast? = some last := List.getLast?_concat
    rw [hlast] at hroom ⊢
    by_cases hback : last = backslash
    · rw [if_neg (not_not.mpr hback), if_pos (.inr (congrArg some hback))]
      exact .ok h
    · have hnot : ¬ (front ++ [last] = [] ∨ some last = some backslash) := by
        rintro (hnil | heq)
        · exact List.append_ne_nil_of_right_ne_nil _ (List.cons_ne_nil _ _) hnil
        · exact hback (Option.some.inj heq)
      rw [if_neg hnot, List.length_append, List.length_singleton] at hroom
      rw [if_pos hback, if_neg hnot]
      exact h.push (by omega)

/-- The extension that is used, and its length. -/
structure UsedLength (extension used : List WCHAR) (k : Nat) : Prop where
  length : k = 2 * used.length
  used : k ≠ 0 → extension = used

/-- Behind the name and the extension there is a null, which is not counted. -/
theorem copyName_spec {k : Nat} (hk : UsedLength extension used k) (h : Written n text o)
    (hroom : (text ++ fileName ++ used).length + 1 ≤ n)
    (hsmall : 2 * (text ++ fileName ++ used).length < 2 ^ 16) :
    Yields (copyName fileName extension k o) fun r =>
      r.1.length = n ∧ r.1.take (r.2 / 2) = text ++ fileName ++ used := by
  have hlength : (text ++ fileName ++ used).length =
      text.length + fileName.length + used.length := by
    rw [List.length_append, List.length_append]
  unfold copyName
  apply (@Written.copy text n o h fileName (by omega)).bind
  intro buffer hname
  have hdest : (⟨buffer, text.length + fileName.length⟩ : Output).dest =
      o.dest + fileName.length := by rw [h.dest]
  split
  · rename_i hsome
    rw [hk.used hsome]
    have hcopy := @Written.copy _ _ _ hname (used ++ [0])
      (by rw [List.length_append, List.length_append, List.length_singleton]; omega)
    rw [hdest] at hcopy
    apply hcopy.bind
    intro buffer' hall
    rw [← List.append_assoc] at hall
    have hhalf : toUShort (2 * o.dest + 2 * fileName.length + k) / 2 =
        (text ++ fileName ++ used).length := by
      unfold toUShort
      rw [h.dest, hk.length]
      omega
    apply Yields.ok
    dsimp only
    rw [hhalf]
    exact ⟨hall.size, hall.front⟩
  · rename_i hzero
    obtain rfl : used = [] := by
      have hzero := hk.length
      exact List.eq_nil_of_length_eq_zero (by omega)
    have hcopy := @Written.copy _ _ _ hname [0]
      (by rw [List.length_append, List.length_singleton]; rw [List.length_nil] at hlength; omega)
    rw [hdest] at hcopy
    apply hcopy.bind
    intro buffer' hall
    have hhalf : toUShort (2 * o.dest + 2 * fileName.length) / 2 =
        (text ++ fileName).length := by
      unfold toUShort
      rw [h.dest, List.length_append]
      rw [List.length_nil] at hlength
      omega
    apply Yields.ok
    dsimp only
    rw [hhalf, List.append_nil]
    exact ⟨hall.size, hall.front⟩

/-! ## One element after another -/

/-- The elements the loop comes to. -/
def visited (path : List WCHAR) : List (List WCHAR) :=
  if path.getLast? = some semicolon then (elements path).dropLast else elements path

theorem elements_single (h : semicolon ∉ path) : elements path = [path] :=
  List.splitOn_eq_singleton h

theorem elements_cons (h : semicolon ∉ element) (rest : List WCHAR) :
    elements (element ++ semicolon :: rest) = element :: elements rest :=
  List.splitOn_append_cons_self_of_not_mem h rest

theorem elements_ne_nil (path : List WCHAR) : elements path ≠ [] := List.splitOn_ne_nil _ _

theorem visited_single (h : semicolon ∉ path) : visited path = [path] := by
  unfold visited
  rw [elements_single h, if_neg fun hlast => h (List.mem_of_getLast? hlast)]

/-- A semicolon at the end ends the last element. -/
theorem visited_last (h : semicolon ∉ element) : visited (element ++ [semicolon]) = [element] := by
  unfold visited
  rw [elements_cons h, if_pos List.getLast?_concat]
  rfl

theorem visited_cons (h : semicolon ∉ element) (hrest : rest ≠ []) :
    visited (element ++ semicolon :: rest) = element :: visited rest := by
  have hlast : (element ++ semicolon :: rest).getLast? = rest.getLast? := by
    rw [List.getLast?_append_of_ne_nil _ (List.cons_ne_nil _ _), List.getLast?_cons_of_ne_nil hrest]
  unfold visited
  rw [elements_cons h, hlast]
  split
  · rw [List.dropLast_cons_of_ne_nil (elements_ne_nil rest)]
  · rfl

/-- The lengths of a candidate that fits in the buffer. -/
structure FitsIn (n : Nat) (fileName used element : List WCHAR) : Prop where
  room : (directoryText element ++ fileName ++ used).length + 1 ≤ n
  small : 2 * (directoryText element ++ fileName ++ used).length < 2 ^ 16

theorem length_le_directoryText (element : List WCHAR) :
    element.length ≤ (directoryText element).length := by
  unfold directoryText
  split
  · exact Nat.le_refl _
  · rw [List.length_append]
    exact Nat.le_add_right _ _

/-- What the loop does with one element. -/
theorem round_spec {k : Nat} {tail buffer : List WCHAR} (hk : UsedLength extension used k)
    (hend : tail = [] ∨ tail = semicolon :: rest) (helement : semicolon ∉ element)
    (hfits : FitsIn buffer.length fileName used element) (rounds i : Nat) :
    ∃ buffer', buffer'.length = buffer.length ∧
      searchLoop c fileName extension k (rounds + 1) i (element ++ tail) buffer =
        let name := directoryText element ++ fileName ++ used
        if c.fileExists i name then .ok (some ⟨[name], some name⟩)
        else if tail.tail = [] then .ok (some ⟨[name], none⟩)
        else do
          let probes ← searchLoop c fileName extension k rounds (i + 1) tail.tail buffer'
          return probes.map (·.behind name) := by
  have hroom := hfits.room
  rw [List.length_append, List.length_append] at hroom
  have hle := length_le_directoryText element
  obtain ⟨⟨path, cursor⟩, hcopy, hpath, hwritten⟩ := copyElement_spec hend helement
    (Written.start buffer) (by rw [List.length_nil]; omega)
  obtain ⟨cursor', hclose, hclosed⟩ := closeElement_spec hwritten (by rw [List.nil_append]; omega)
  rw [List.nil_append] at hclosed
  obtain ⟨⟨buffer', length⟩, hname, hsize, htext⟩ :=
    copyName_spec hk hclosed hfits.room hfits.small
  refine ⟨buffer', hsize, ?_⟩
  dsimp only at hpath htext ⊢
  conv_lhs => unfold searchLoop
  rw [hcopy, Yields.ok_bind]
  dsimp only
  rw [hclose, Yields.ok_bind, hname, Yields.ok_bind]
  dsimp only
  rw [htext, hpath]
  rfl

theorem fitsIn_of_mem {buffer buffer' : List WCHAR} (hlength : buffer'.length = buffer.length)
    (hfits : ∀ e ∈ visited path, FitsIn buffer.length fileName used e) :
    ∀ e ∈ visited path, FitsIn buffer'.length fileName used e := by
  intro e he
  rw [hlength]
  exact hfits e he

/-- The loop comes to its end, and has probed the candidates in their order. -/
theorem searchLoop_spec {k : Nat} {buffer : List WCHAR} (hk : UsedLength extension used k)
    {rounds i : Nat} (hrounds : path.length < rounds)
    (hfits : ∀ e ∈ visited path, FitsIn buffer.length fileName used e) :
    searchLoop c fileName extension k rounds i path buffer =
      .ok (some (probeAll c.fileExists i
        ((visited path).map fun e => directoryText e ++ fileName ++ used))) := by
  induction rounds generalizing i path buffer with
  | zero => exact absurd hrounds (Nat.not_lt_zero _)
  | succ rounds ih =>
    by_cases hmem : semicolon ∈ path
    · obtain ⟨element, rest, rfl, helement⟩ := List.eq_append_cons_of_mem hmem
      have hfirst : element ∈ visited (element ++ semicolon :: rest) := by
        by_cases hrest : rest = []
        · rw [hrest, visited_last helement]
          exact List.mem_singleton_self _
        · rw [visited_cons helement hrest]
          exact List.mem_cons_self
      obtain ⟨buffer', hlength, hround⟩ :=
        @round_spec c rest fileName extension used element k _ buffer hk (.inr rfl) helement
          (hfits element hfirst) rounds i
      rw [hround, List.tail_cons]
      dsimp only
      by_cases hrest : rest = []
      · rw [if_pos hrest, hrest, visited_last helement, List.map_singleton]
        unfold probeAll
        split <;> rfl
      · rw [visited_cons helement hrest] at hfits ⊢
        have hshorter : rest.length < rounds := by
          rw [List.length_append, List.length_cons] at hrounds
          omega
        rw [if_neg hrest, ih hshorter (fitsIn_of_mem hlength fun e he =>
          hfits e (List.mem_cons_of_mem _ he)), List.map_cons]
        conv_rhs => unfold probeAll
        split <;> rfl
    · rw [visited_single hmem] at hfits ⊢
      obtain ⟨buffer', -, hround⟩ :=
        @round_spec c [] fileName extension used path k [] buffer hk (.inl rfl) hmem
          (hfits path (List.mem_singleton_self _)) rounds i
      rw [List.append_nil] at hround
      rw [hround, List.map_singleton, List.tail_nil]
      dsimp only
      rw [if_pos rfl]
      unfold probeAll
      split <;> rfl

/-! ## What is searched, and the condition -/

/-- The lengths the function takes, and a name that is relative. -/
structure Starts (path fileName : List WCHAR) (extension : Option (List WCHAR)) : Prop where
  relative : rtlDetermineDosPathNameTypeU fileName = .relative
  pathLength : path.length ≤ unicodeStringMaxChars
  fileLength : fileName.length ≤ unicodeStringMaxChars
  extensionLength : (usedExtension fileName extension).length ≤ unicodeStringMaxChars

instance (path fileName : List WCHAR) (extension : Option (List WCHAR)) :
    Decidable (Starts path fileName extension) :=
  decidable_of_iff
    (rtlDetermineDosPathNameTypeU fileName = .relative ∧ path.length ≤ unicodeStringMaxChars ∧
      fileName.length ≤ unicodeStringMaxChars ∧
        (usedExtension fileName extension).length ≤ unicodeStringMaxChars)
    ⟨fun ⟨h₁, h₂, h₃, h₄⟩ => ⟨h₁, h₂, h₃, h₄⟩, fun ⟨h₁, h₂, h₃, h₄⟩ => ⟨h₁, h₂, h₃, h₄⟩⟩

/-- The sum of the three lengths, and room for two backslashes and a null. -/
def sumOfLengths (path fileName : List WCHAR) (extension : Option (List WCHAR)) : Nat :=
  2 * path.length + 2 * fileName.length + 2 * (usedExtension fileName extension).length + 6

/-- What is to be probed. -/
def expected (c : SearchContext) (path fileName : List WCHAR) (extension : Option (List WCHAR)) :
    Probes :=
  if rtlDetermineDosPathNameTypeU fileName ≠ .relative then
    let name := fileName.take unicodeStringMaxChars
    ⟨[name], if c.fileExists 0 name then some fileName else none⟩
  else if Starts path fileName extension ∧
      (c.allocate (toUShort (sumOfLengths path fileName extension) / 2)).isSome then
    probeAll c.fileExists 0 ((elements path).map (candidate fileName extension))
  else ⟨[], none⟩

/-- The buffer has room for every candidate and its null, whichever of them is found; all writes
are in the buffer, the candidates are probed in their order, and the loop ends. -/
structure Searched (c : SearchContext) (path fileName : List WCHAR)
    (extension : Option (List WCHAR)) : Prop where
  room : Starts path fileName extension → ∀ e ∈ elements path,
    2 * ((candidate fileName extension e).length + 1) ≤
      toUShort (sumOfLengths path fileName extension)
  probes : search c path fileName extension = .ok (some (expected c path fileName extension))

/-- The sum fits in a `USHORT`, or else there are nothing but semicolons in a path of the greatest
length. -/
def SumFits (path fileName : List WCHAR) (extension : Option (List WCHAR)) : Prop :=
  sumOfLengths path fileName extension < 2 ^ 16 ∨
    (path = List.replicate unicodeStringMaxChars semicolon ∧
      sumOfLengths path fileName extension < 2 ^ 17)

/-- The empty element behind a semicolon at the end is not missed, because a file is found before
it. -/
def LastNotMissed (c : SearchContext) (path fileName : List WCHAR)
    (extension : Option (List WCHAR)) : Prop :=
  path.getLast? = some semicolon →
    (probeAll c.fileExists 0
      ((elements path).dropLast.map (candidate fileName extension))).found ≠ none

variable {ext : Option (List WCHAR)}

/-- The elements of a path with one more character in front. -/
theorem exists_elements (ch : WCHAR) (path : List WCHAR) :
    ∃ first others, elements path = first :: others ∧
      elements (ch :: path) =
        if ch = semicolon then [] :: first :: others else (ch :: first) :: others := by
  obtain ⟨first, others, hsplit⟩ := List.exists_cons_of_ne_nil (elements_ne_nil path)
  refine ⟨first, others, hsplit, ?_⟩
  unfold elements at hsplit ⊢
  rw [List.splitOn_cons_eq_if_modifyHead, hsplit]
  by_cases hch : ch = semicolon
  · rw [if_pos hch, if_pos (beq_iff_eq.mpr hch)]
  · rw [if_neg hch, if_neg fun h => hch (beq_iff_eq.mp h)]
    rfl

/-- An element is a part of the path without semicolons. -/
theorem mem_elements (h : element ∈ elements path) :
    element.length ≤ path.length ∧ semicolon ∉ element ∧ ∀ ch ∈ element, ch ∈ path := by
  induction path generalizing element with
  | nil =>
    obtain rfl := List.mem_singleton.mp h
    exact ⟨Nat.le_refl _, nofun, nofun⟩
  | cons ch path ih =>
    obtain ⟨first, others, hpath, hcons⟩ := exists_elements ch path
    rw [hpath] at ih
    rw [hcons] at h
    have hold (hmem : element ∈ first :: others) : element.length ≤ (ch :: path).length ∧
        semicolon ∉ element ∧ ∀ c ∈ element, c ∈ ch :: path := by
      obtain ⟨hle, hnot, hsub⟩ := ih hmem
      exact ⟨Nat.le_succ_of_le hle, hnot, fun c hc => List.mem_cons_of_mem _ (hsub c hc)⟩
    split at h
    · rcases List.mem_cons.mp h with rfl | hmem
      · exact ⟨Nat.zero_le _, nofun, nofun⟩
      · exact hold hmem
    · rename_i hch
      rcases List.mem_cons.mp h with rfl | hmem
      · obtain ⟨hle, hnot, hsub⟩ := ih List.mem_cons_self
        refine ⟨Nat.succ_le_succ hle, ?_, ?_⟩
        · rw [List.mem_cons]
          rintro (heq | hmem)
          · exact hch heq.symm
          · exact hnot hmem
        · intro c hc
          rcases List.mem_cons.mp hc with rfl | hc
          · exact List.mem_cons_self
          · exact List.mem_cons_of_mem _ (hsub c hc)
      · exact hold (List.mem_cons_of_mem _ hmem)

/-- Every other character is in an element. -/
theorem exists_element_of_mem (hmem : ch ∈ path) (hch : ch ≠ semicolon) :
    ∃ e ∈ elements path, ch ∈ e := by
  induction path with
  | nil => cases hmem
  | cons c path ih =>
    obtain ⟨first, others, hpath, hcons⟩ := exists_elements c path
    rw [hpath] at ih
    rw [hcons]
    rcases List.mem_cons.mp hmem with rfl | hmem
    · rw [if_neg hch]
      exact ⟨_, List.mem_cons_self, List.mem_cons_self⟩
    · obtain ⟨e, he, hin⟩ := ih hmem
      split
      · exact ⟨e, List.mem_cons_of_mem _ he, hin⟩
      · rcases List.mem_cons.mp he with rfl | he
        · exact ⟨_, List.mem_cons_self, List.mem_cons_of_mem _ hin⟩
        · exact ⟨e, List.mem_cons_of_mem _ he, hin⟩

theorem directoryText_length_le (element : List WCHAR) :
    (directoryText element).length ≤ element.length + 1 := by
  unfold directoryText
  split
  · exact Nat.le_succ _
  · rw [List.length_append, List.length_singleton]

theorem length_candidate (fileName : List WCHAR) (extension : Option (List WCHAR))
    (element : List WCHAR) :
    (candidate fileName extension element).length =
      (directoryText element).length + fileName.length +
        (usedExtension fileName extension).length := by
  unfold candidate
  rw [List.length_append, List.length_append]

/-- The buffer has room for every candidate exactly when the sum fits. -/
theorem room_iff (h : Starts path fileName ext) :
    (∀ e ∈ elements path, 2 * ((candidate fileName ext e).length + 1) ≤
      toUShort (sumOfLengths path fileName ext)) ↔ SumFits path fileName ext := by
  have hpath := h.pathLength
  have hmax : unicodeStringMaxChars = 32766 := rfl
  unfold SumFits
  constructor
  · intro hroom
    by_cases hsum : sumOfLengths path fileName ext < 2 ^ 16
    · exact .inl hsum
    right
    have hbound : ∀ e ∈ elements path, e = [] ∧ path.length = unicodeStringMaxChars ∧
        sumOfLengths path fileName ext < 2 ^ 17 := by
      intro e he
      have hlength := hroom e he
      have hle := length_le_directoryText e
      rw [length_candidate] at hlength
      unfold toUShort at hlength
      unfold sumOfLengths at hlength hsum ⊢
      refine ⟨List.eq_nil_of_length_eq_zero ?_, ?_, ?_⟩ <;> omega
    obtain ⟨first, others, hsplit⟩ := List.exists_cons_of_ne_nil (elements_ne_nil path)
    obtain ⟨-, hlength, hsmall⟩ := hbound first (hsplit ▸ List.mem_cons_self)
    refine ⟨List.eq_replicate_iff.mpr ⟨hlength, fun ch hch => ?_⟩, hsmall⟩
    by_contra hne
    obtain ⟨e, he, hin⟩ := exists_element_of_mem hch hne
    rw [(hbound e he).1] at hin
    cases hin
  · rintro (hsum | ⟨hall, hsum⟩) e he
    · obtain ⟨hle, -⟩ := mem_elements he
      have hclosed := directoryText_length_le e
      rw [length_candidate]
      unfold toUShort
      unfold sumOfLengths at hsum ⊢
      omega
    · obtain ⟨-, hnot, hsub⟩ := mem_elements he
      have hnil : e = [] := by
        apply List.eq_nil_iff_forall_not_mem.mpr
        intro ch hch
        have hin := hsub ch hch
        rw [hall] at hin
        exact hnot (List.eq_of_mem_replicate hin ▸ hch)
      have hlength : path.length = unicodeStringMaxChars := by
        rw [hall, List.length_replicate]
      rw [length_candidate, hnil]
      have hzero : (directoryText []).length = 0 := rfl
      unfold toUShort
      unfold sumOfLengths at hsum ⊢
      omega

theorem probes_length (fileExists : Nat → List WCHAR → Bool) (i : Nat)
    (names : List (List WCHAR)) (h : (probeAll fileExists i names).found = none) :
    (probeAll fileExists i names).names.length = names.length := by
  induction names generalizing i with
  | nil => rfl
  | cons name names ih =>
    unfold probeAll at h ⊢
    split at h
    · cases h
    · rename_i hfound
      rw [if_neg hfound]
      exact congrArg (· + 1) (ih (i + 1) h)

/-- Names behind one that is found are not probed. -/
theorem probeAll_append (fileExists : Nat → List WCHAR → Bool) (i : Nat)
    (names more : List (List WCHAR)) (h : (probeAll fileExists i names).found ≠ none) :
    probeAll fileExists i (names ++ more) = probeAll fileExists i names := by
  induction names generalizing i with
  | nil => exact absurd rfl h
  | cons name names ih =>
    rw [List.cons_append]
    unfold probeAll at h ⊢
    split at h
    · rename_i hfound
      rw [if_pos hfound, if_pos hfound]
    · rename_i hfound
      rw [if_neg hfound, if_neg hfound, ih (i + 1) h]

/-- All of them are probed when none before the last is found. -/
theorem found_of_probeAll_concat (fileExists : Nat → List WCHAR → Bool) (i : Nat)
    (names : List (List WCHAR)) (name : List WCHAR)
    (h : probeAll fileExists i (names ++ [name]) = probeAll fileExists i names) :
    (probeAll fileExists i names).found ≠ none := by
  intro hnone
  have hall : (probeAll fileExists i (names ++ [name])).names.length = names.length + 1 := by
    rw [← List.length_singleton (a := name), ← List.length_append]
    exact probes_length fileExists i _ (by rw [h]; exact hnone)
  rw [h, probes_length fileExists i names hnone] at hall
  exact absurd hall (Nat.ne_of_lt (Nat.lt_succ_self _))

/-- The element that is left out makes no difference exactly when it is not missed. -/
theorem lastNotMissed_iff (c : SearchContext) (path fileName : List WCHAR)
    (ext : Option (List WCHAR)) :
    probeAll c.fileExists 0 ((visited path).map (candidate fileName ext)) =
        probeAll c.fileExists 0 ((elements path).map (candidate fileName ext)) ↔
      LastNotMissed c path fileName ext := by
  unfold visited LastNotMissed
  split
  · rename_i hlast
    have hsplit := List.dropLast_append_getLast (elements_ne_nil path)
    constructor
    · intro hsame _
      apply found_of_probeAll_concat _ _ _ (candidate fileName ext
        ((elements path).getLast (elements_ne_nil path)))
      rw [hsame]
      conv_rhs => rw [← hsplit, List.map_append]
      rfl
    · intro hfound
      conv_rhs => rw [← hsplit, List.map_append]
      exact (probeAll_append _ _ _ _ (hfound hlast)).symm
  · rename_i hlast
    exact iff_of_true rfl fun h => absurd h hlast

/-- The lengths are those of the strings. -/
theorem searchRelative_eq (h : Starts path fileName ext) :
    ∃ k, UsedLength (ext.getD []) (usedExtension fileName ext) k ∧
      searchRelative c path fileName ext =
        match c.allocate (toUShort (sumOfLengths path fileName ext) / 2) with
        | none => .ok (some ⟨[], none⟩)
        | some buffer =>
          searchLoop c fileName (ext.getD []) k (path.length + 1) 0 path buffer := by
  have hextension : ∃ k, extensionLength fileName ext = some k ∧
      UsedLength (ext.getD []) (usedExtension fileName ext) k := by
    have hshort := h.extensionLength
    unfold extensionLength
    unfold usedExtension at hshort ⊢
    split
    · exact ⟨0, rfl, rfl, fun hne => absurd rfl hne⟩
    · rename_i hdot
      rw [if_neg hdot] at hshort
      cases ext with
      | none => exact ⟨0, rfl, rfl, fun hne => absurd rfl hne⟩
      | some extension => exact ⟨_, if_pos hshort, rfl, fun _ => rfl⟩
  obtain ⟨k, hk, hused⟩ := hextension
  have hpath : rtlInitUnicodeStringEx path = some (2 * path.length) := if_pos h.pathLength
  have hname : rtlInitUnicodeStringEx fileName = some (2 * fileName.length) := if_pos h.fileLength
  have hsum : maximumLength (2 * path.length) (2 * fileName.length) k =
      toUShort (sumOfLengths path fileName ext) := by
    rw [hused.length]
    rfl
  refine ⟨k, hused, ?_⟩
  unfold searchRelative
  rw [hk, hpath, hname]
  dsimp only
  rw [hsum]

/-- With a string that is too long nothing is probed. -/
theorem searchRelative_tooLong (hrelative : rtlDetermineDosPathNameTypeU fileName = .relative)
    (h : ¬ Starts path fileName ext) :
    searchRelative c path fileName ext = .ok (some ⟨[], none⟩) := by
  unfold searchRelative
  split
  · rename_i k pathLength fileLength hk hpath hname
    have hp : path.length ≤ unicodeStringMaxChars := by
      by_contra hlong
      rw [rtlInitUnicodeStringEx, if_neg hlong] at hpath
      cases hpath
    have hf : fileName.length ≤ unicodeStringMaxChars := by
      by_contra hlong
      rw [rtlInitUnicodeStringEx, if_neg hlong] at hname
      cases hname
    have he : (usedExtension fileName ext).length ≤ unicodeStringMaxChars := by
      by_contra hlong
      unfold extensionLength at hk
      unfold usedExtension at hlong
      by_cases hdot : dot ∈ fileName
      · rw [if_pos hdot] at hlong
        exact hlong (Nat.zero_le _)
      · rw [if_neg hdot] at hlong hk
        cases ext with
        | none => exact hlong (Nat.zero_le _)
        | some extension =>
          have hfails : rtlInitUnicodeStringEx extension = none := if_neg hlong
          exact absurd (hk.symm.trans hfails) nofun
    exact absurd ⟨hrelative, hp, hf, he⟩ h
  · rfl

theorem allocate_length {buffer : List WCHAR} (h : c.allocate n = some buffer) :
    buffer.length = n := by
  obtain ⟨block, -, rfl⟩ := Option.map_eq_some_iff.mp h
  exact block.property

theorem visited_subset (h : element ∈ visited path) : element ∈ elements path := by
  unfold visited at h
  split at h
  · exact (List.dropLast_sublist _).subset h
  · exact h

/-- The search is as specified exactly when the sum of the lengths fits in a `USHORT`, or the path
is the one exception, and no empty element at its end is missed. -/
theorem search_probes_elements (c : SearchContext) (path fileName : List WCHAR)
    (ext : Option (List WCHAR)) :
    Searched c path fileName ext ↔
      (Starts path fileName ext → SumFits path fileName ext ∧
        ((c.allocate (toUShort (sumOfLengths path fileName ext) / 2)).isSome →
          LastNotMissed c path fileName ext)) := by
  by_cases hstarts : Starts path fileName ext
  · obtain ⟨k, hk, heq⟩ := @searchRelative_eq c path fileName ext hstarts
    have hrelative : ¬ rtlDetermineDosPathNameTypeU fileName ≠ .relative :=
      not_not.mpr hstarts.relative
    have hsearch : search c path fileName ext = searchRelative c path fileName ext :=
      if_neg hrelative
    have hexpected : expected c path fileName ext = _ := if_neg hrelative
    have hcandidates : (visited path).map (fun e => directoryText e ++ fileName ++
        usedExtension fileName ext) = (visited path).map (candidate fileName ext) := rfl
    -- with a buffer that has room, the search is that of the elements the loop comes to
    have hloop (hroom : ∀ e ∈ elements path, 2 * ((candidate fileName ext e).length + 1) ≤
          toUShort (sumOfLengths path fileName ext)) {buffer : List WCHAR}
        (hbuffer : c.allocate (toUShort (sumOfLengths path fileName ext) / 2) = some buffer) :
        search c path fileName ext = .ok (some (probeAll c.fileExists 0
          ((visited path).map (candidate fileName ext)))) := by
      rw [hsearch, heq, hbuffer, ← hcandidates]
      apply searchLoop_spec hk (Nat.lt_succ_self _)
      intro e he
      have hlength := hroom e (visited_subset he)
      have hsize := allocate_length hbuffer
      have hsmall : toUShort (sumOfLengths path fileName ext) < 2 ^ 16 :=
        Nat.mod_lt _ (Nat.two_pow_pos _)
      unfold candidate at hlength
      constructor <;> omega
    constructor
    · intro hsearched _
      refine ⟨(room_iff hstarts).mp (hsearched.room hstarts), fun hsome => ?_⟩
      obtain ⟨buffer, hbuffer⟩ := Option.isSome_iff_exists.mp hsome
      have hprobes := hsearched.probes
      rw [hloop (hsearched.room hstarts) hbuffer, hexpected, if_pos ⟨hstarts, hsome⟩] at hprobes
      exact (lastNotMissed_iff c path fileName ext).mp
        (Option.some.inj (Except.ok.inj hprobes))
    · intro hcondition
      obtain ⟨hsum, hlast⟩ := hcondition hstarts
      have hroom := (room_iff hstarts).mpr hsum
      refine ⟨fun _ => hroom, ?_⟩
      rw [hexpected]
      cases hbuffer : c.allocate (toUShort (sumOfLengths path fileName ext) / 2) with
      | none =>
        rw [hsearch, heq, hbuffer, if_neg fun h => nomatch h.2]
      | some buffer =>
        have hmissed := hlast (by rw [hbuffer]; rfl)
        rw [hloop hroom hbuffer, if_pos ⟨hstarts, rfl⟩,
          (lastNotMissed_iff c path fileName ext).mpr hmissed]
  · refine iff_of_true ⟨fun h => absurd h hstarts, ?_⟩ fun h => absurd h hstarts
    unfold search expected
    split
    · rfl
    · rename_i hrelative
      rw [searchRelative_tooLong (not_not.mp hrelative) hstarts, if_neg fun h => hstarts h.1]

/-- No file is found, and the heap has room. -/
def emptyDisk : SearchContext where
  toContext := rootContext
  fileExists _ _ := false
  heap n := some ⟨List.replicate n 0, length_nulls n⟩

/-- The longest path takes the sum over the limit, and a semicolon at the end of `a;` hides an
element. -/
theorem long_path_is_not_searched :
    ¬ Searched emptyDisk (List.replicate unicodeStringMaxChars 0x61) [0x78] none ∧
      ¬ Searched emptyDisk [0x61, semicolon] [0x78] none := by
  constructor
  · intro h
    have hlength : (List.replicate unicodeStringMaxChars (0x61 : WCHAR)).length = 32766 :=
      List.length_replicate
    have hstarts : Starts (List.replicate unicodeStringMaxChars 0x61) [0x78] none :=
      ⟨rfl, hlength.le, by decide, by decide⟩
    have hsingle : elements (List.replicate unicodeStringMaxChars 0x61) =
        [List.replicate unicodeStringMaxChars 0x61] := by
      apply elements_single
      intro hmem
      exact absurd (List.eq_of_mem_replicate hmem) (by decide)
    have hroom := h.room hstarts _ (hsingle ▸ List.mem_singleton_self _)
    have hle := length_le_directoryText (List.replicate unicodeStringMaxChars 0x61)
    rw [length_candidate] at hroom
    unfold toUShort sumOfLengths at hroom
    rw [hlength] at hroom hle
    have hname : ([0x78] : List WCHAR).length = 1 := rfl
    have hused : (usedExtension [0x78] none).length = 0 := rfl
    omega
  · intro h
    have hprobes := h.probes
    have hactual : search emptyDisk [0x61, semicolon] [0x78] none =
        .ok (some ⟨[[0x61, backslash, 0x78]], none⟩) := by decide +kernel
    have hwanted : expected emptyDisk [0x61, semicolon] [0x78] none =
        ⟨[[0x61, backslash, 0x78], [0x78]], none⟩ := by decide +kernel
    rw [hactual, hwanted] at hprobes
    exact absurd hprobes (by decide)

end Ldk.DosPath
