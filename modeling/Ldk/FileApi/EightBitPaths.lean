import Ldk.FileApi.EightBit

set_option linter.unusedSectionVars false

/-!
# When the 8-bit path functions agree

The three functions give the path of the wide function, or a size that is enough for it
(`eight_bit_path_functions_agree`), on these conditions.

- The size that is returned is that of the code page of ANSI, and may be too small for the other.
- `GetCurrentDirectoryA` lets the conversion use one byte more than `lpBuffer` has.
- `GetFullPathNameA` takes the size it is asked for, when that is one character more than its
  buffer has, for the length of a path; and it copies as many bytes as the path has in the code
  page of ANSI.
- `lpBuffer` may hold anything before the call.
-/

namespace Ldk.FileApi

open OutputBuffer
open Ldk.CurrentDirectory (rtlGetCurrentDirectory_eq)

/-! ## Replies -/

variable {path : Option (List WCHAR)} {convert : List WCHAR → List UInt8} {n k : Nat}
  {text : List WCHAR} {buffer : List UInt8} {apis : FileApis}

/-- Nothing is given. -/
theorem Agrees.failed (path : Option (List WCHAR)) (convert : List WCHAR → List UInt8) (n : Nat)
    (lastError : Option LastError) : Agrees path convert n { returned := 0, lastError } where
  size buffer hbuffer := nomatch hbuffer
  holds := by
    constructor
    · intro h
      exact absurd h.1 (Nat.lt_irrefl 0)
    · rintro ⟨text, -, buffer, hbuffer, -⟩
      cases hbuffer
  enough _ h := absurd rfl h

/-- A size is given. -/
theorem agrees_needed : Agrees path convert n { returned := k + 1 } ↔
    n ≤ k + 1 ∧ ∀ text ∈ path, (convert text).length ≤ k := by
  constructor
  · intro h
    have hrange : ¬ (0 < k + 1 ∧ k + 1 < n) := by
      intro hin
      obtain ⟨text, -, buffer, hbuffer, -⟩ := h.holds.mp hin
      cases hbuffer
    refine ⟨by omega, ?_⟩
    intro text htext
    exact Nat.le_of_lt_succ (h.enough hrange (Nat.succ_ne_zero k) text htext)
  · rintro ⟨hn, hsize⟩
    constructor
    case size => exact fun buffer hbuffer => nomatch hbuffer
    case holds =>
      constructor
      · rintro ⟨-, hlt⟩
        exact absurd hlt (Nat.not_lt_of_le hn)
      · rintro ⟨text, -, buffer, hbuffer, -⟩
        cases hbuffer
    case enough =>
      intro _ _ text htext
      exact Nat.lt_succ_of_le (hsize text htext)

/-- The path is given. -/
theorem Agrees.holding {filePart : Option (Option Nat)} (hpath : text ∈ path)
    (hpositive : 0 < (convert text).length) (hsize : buffer.length = n)
    (hholds : Holds buffer (convert text ++ [0])) :
    Agrees path convert n
      { returned := (convert text).length, stored := some buffer, filePart } where
  size buffer' hbuffer := by
    obtain rfl := Option.some.inj hbuffer
    exact hsize
  holds := by
    constructor
    · intro _
      exact ⟨text, hpath, buffer, rfl, hholds⟩
    · intro _
      have hroom := hholds.length_le
      rw [List.length_append, List.length_singleton, hsize] at hroom
      exact ⟨hpositive, hroom⟩
  enough h _ := by
    have hroom := hholds.length_le
    rw [List.length_append, List.length_singleton, hsize] at hroom
    exact absurd ⟨hpositive, hroom⟩ h

/-- A conversion that succeeds. -/
theorem FileApis.unicodeStringTo8BitString_eq (apis : FileApis) {maximumLength : Nat}
    (hsize : (apis.page.toBytes text).length + 1 < 2 ^ 16)
    (hroom : (apis.page.toBytes text).length < maximumLength) :
    apis.unicodeStringTo8BitString text maximumLength = .ok (apis.page.toBytes text ++ [0]) := by
  unfold FileApis.unicodeStringTo8BitString
  dsimp only
  rw [if_neg (by omega), if_neg (by omega)]

/-- What a conversion gives, and why it fits. -/
theorem FileApis.unicodeStringTo8BitString_ok {maximumLength : Nat} {bytes : List UInt8}
    (h : apis.unicodeStringTo8BitString text maximumLength = .ok bytes) :
    bytes = apis.page.toBytes text ++ [0] ∧ (apis.page.toBytes text).length < maximumLength ∧
      (apis.page.toBytes text).length + 1 < 2 ^ 16 := by
  unfold FileApis.unicodeStringTo8BitString at h
  dsimp only at h
  split at h
  · cases h
  · split at h
    · cases h
    · rename_i hsize hroom
      exact ⟨(Except.ok.inj h).symm, Nat.lt_of_not_le hroom, Nat.lt_of_not_le hsize⟩

/-- The size of a text is that of its bytes in the page of ANSI. -/
theorem FileApis.size_eq (apis : FileApis) (text : List WCHAR) :
    apis.rtlUnicodeToMultiByteSize text = (apis.ansi.toBytes text).length := rfl

theorem CodePage.length_toBytes_pos (page : CodePage) (h : text ≠ []) :
    0 < (page.toBytes text).length := by
  apply List.length_pos_of_ne_nil
  intro hnil
  exact h ((page.toBytes_eq_nil text).mp hnil)

/-! ## Faults of one kind -/

section Kinds

variable {ε ε' α : Type} {kind : ε → ε'} {x : Except ε α} {P : α → Prop}

theorem faultOf_yields (h : Yields x P) : Yields (faultOf kind x) P := by
  obtain ⟨a, rfl, ha⟩ := h
  exact .ok ha

theorem faultOf_faults (h : Faults x) : Faults (faultOf kind x) := by
  obtain ⟨e, rfl⟩ := h
  exact ⟨kind e, rfl⟩

theorem ok_of_faultOf {a : α} (h : faultOf kind x = .ok a) : x = .ok a := by
  cases x with
  | error e => cases h
  | ok b =>
    obtain rfl := Except.ok.inj h
    rfl

end Kinds

/-! ## Buffers -/

/-- A buffer of `nBufferLength` bytes. -/
abbrev Bytes (n : Nat) := { buffer : List UInt8 // buffer.length = n }

/-- A path of no characters is none. -/
def given (text : List WCHAR) : Option (List WCHAR) := if text = [] then none else some text

theorem mem_given {s : List WCHAR} (h : text ∈ given s) : s = text ∧ text ≠ [] := by
  unfold given at h
  split at h
  · cases h
  · rename_i hne
    obtain rfl := Option.some.inj h
    exact ⟨rfl, hne⟩

theorem given_of_ne (h : text ≠ []) : text ∈ given text := by
  unfold given
  rw [if_neg h]
  exact rfl

/-- The characters that are put in the buffer, if there are any. -/
theorem Agrees.written (hnil : convert text = [] ↔ text = []) (hsize : buffer.length = n)
    (hholds : Holds buffer (convert text ++ [0])) : Agrees (given text) convert n
      { returned := (convert text).length, stored := some buffer } := by
  by_cases htext : text = []
  · have hgiven : given text = none := if_pos htext
    have hzero : (convert text).length = 0 := List.length_eq_zero_iff.mpr (hnil.mpr htext)
    rw [hgiven, hzero]
    constructor
    case size =>
      intro buffer' hbuffer
      obtain rfl := Option.some.inj hbuffer
      exact hsize
    case holds =>
      constructor
      · rintro ⟨hpositive, -⟩
        exact absurd hpositive (Nat.lt_irrefl 0)
      · rintro ⟨text', htext', -⟩
        cases htext'
    case enough => exact fun _ hne => absurd rfl hne
  · exact .holding (given_of_ne htext) (List.length_pos_of_ne_nil (mt hnil.mp htext)) hsize hholds

/-- A piece at the start of a buffer with room for it. -/
theorem put_start {α : Type} {buffer piece : List α} (hroom : piece.length ≤ buffer.length) :
    Yields (put buffer 0 piece) fun buffer' =>
      buffer'.length = buffer.length ∧ Holds buffer' piece := by
  have hempty : Holds buffer ([] : List α) := rfl
  exact hempty.append rfl (by rw [List.length_nil, Nat.zero_add]; exact hroom)

/-! ## GetTempPathA -/

variable {w : TempSources} {d : Directory} {c : FullPathContext}

theorem ldkpCopyTempPathCandidate_ne_nil {destinationCch : Nat} {source : List WCHAR}
    {appendTemp : Bool}
    (h : ldkpCopyTempPathCandidate w destinationCch source appendTemp = some text) :
    text ≠ [] := by
  unfold ldkpCopyTempPathCandidate at h
  obtain ⟨path, -, h⟩ := Option.bind_eq_some_iff.mp h
  unfold ldkpEnsureTrailingPathSeparator at h
  cases hlast : path.getLast? with
  | none =>
    rw [hlast] at h
    cases h
  | some last =>
    have hpath : path ≠ [] := by
      rintro rfl
      cases hlast
    rw [hlast] at h
    -- the path itself, or with a backslash behind it
    split at h
    · cases h
    · rename_i ended hended
      split at h
      · obtain rfl := Option.some.inj h
        dsimp only at hended
        split at hended
        · obtain rfl := Except.ok.inj hended
          exact hpath
        · split at hended
          · cases hended
          · obtain rfl := Except.ok.inj hended
            exact List.append_ne_nil_of_left_ne_nil hpath _
      · cases h

/-- A candidate has a separator at least. -/
theorem ldkpGetTempPathCandidate_ne_nil {destinationCch : Nat}
    (h : ldkpGetTempPathCandidate w destinationCch = some text) : text ≠ [] := by
  obtain ⟨⟨value, appendTemp⟩, -, h⟩ := List.exists_of_findSome?_eq_some h
  obtain ⟨value, -, h⟩ := Option.bind_eq_some_iff.mp h
  obtain ⟨source, -, h⟩ := Option.bind_eq_some_iff.mp h
  exact ldkpCopyTempPathCandidate_ne_nil h

/-- The size that is returned is enough for the path. -/
def TempPathFits (apis : FileApis) (w : TempSources) (n : Nat) : Prop :=
  ∀ text ∈ ldkpGetTempPathCandidate w maxPath,
    n ≤ apis.rtlUnicodeToMultiByteSize text →
      (apis.page.toBytes text).length ≤ apis.rtlUnicodeToMultiByteSize text

theorem getTempPathA_agrees_iff (apis : FileApis) (w : TempSources) (n : Nat) :
    (∀ lpBuffer : Option (Bytes n),
        Yields (getTempPathA apis w n (lpBuffer.map Subtype.val))
          (Agrees (ldkpGetTempPathCandidate w maxPath) apis.page.toBytes n)) ↔
      TempPathFits apis w n := by
  unfold getTempPathA TempPathFits
  cases hcandidate : ldkpGetTempPathCandidate w maxPath with
  | none =>
    constructor
    · intro _ text htext
      cases htext
    · intro _ lpBuffer
      exact .ok (.failed _ _ _ _)
  | some widePath =>
    have hne := ldkpGetTempPathCandidate_ne_nil hcandidate
    have hpositive := apis.page.length_toBytes_pos hne
    constructor
    · intro h text htext hshort
      obtain rfl := Option.some.inj htext
      rw [apis.size_eq] at hshort ⊢
      -- a buffer that is too short for the size
      have hreply := h (some ⟨List.replicate n 0, List.length_replicate⟩)
      dsimp only [Option.map_some] at hreply
      rw [apis.size_eq, if_pos hshort, ite_self] at hreply
      obtain ⟨reply, hok, hagrees⟩ := hreply
      obtain rfl := Except.ok.inj hok
      exact (agrees_needed.mp hagrees).2 widePath rfl
    · intro h lpBuffer
      have hfits := h widePath rfl
      rw [apis.size_eq] at hfits
      dsimp only
      rw [apis.size_eq]
      apply Yields.ite
      · intro hzero
        exact .ok (agrees_needed.mpr ⟨by omega, fun text htext => by
          obtain rfl := Option.some.inj htext
          exact hfits (by omega)⟩)
      intro _
      cases lpBuffer with
      | none => exact .ok (.failed _ _ _ _)
      | some lpBuffer =>
        dsimp only [Option.map_some]
        apply Yields.ite
        · intro hshort
          exact .ok (agrees_needed.mpr ⟨by omega, fun text htext => by
            obtain rfl := Option.some.inj htext
            exact hfits hshort⟩)
        · intro _
          cases hbytes : apis.unicodeStringTo8BitString widePath (DosPath.toUShort n) with
          | error status => exact .ok (.failed _ _ _ _)
          | ok bytes =>
            obtain ⟨rfl, hroom, -⟩ := FileApis.unicodeStringTo8BitString_ok hbytes
            have hn : DosPath.toUShort n ≤ n := Nat.mod_le _ _
            have hlength : (apis.page.toBytes widePath ++ [0]).length =
                (apis.page.toBytes widePath).length + 1 := List.length_append
            apply faultOf_yields
            apply (put_start (by rw [hlength, lpBuffer.property]; omega)).bind
            rintro first ⟨hfirst, hholds⟩
            rw [hlength, Nat.add_sub_cancel]
            have hroom' : (apis.page.toBytes widePath).length + [(0 : UInt8)].length ≤ n := by
              rw [List.length_singleton]
              omega
            apply (hholds.left.append (hfirst.trans lpBuffer.property) hroom').bind
            rintro second ⟨hsecond, hgiven⟩
            exact .ok (.holding rfl hpositive hsecond hgiven)

/-! ## GetCurrentDirectoryA -/

/-- The path is always in the static buffer. -/
theorem Directory.static_eq (d : Directory) :
    (d.state.rtlGetCurrentDirectory staticUnicodeSize).2 = some d.path := by
  have hroom : 2 * (d.state.dosPath.length + 1) ≤ staticUnicodeSize := by
    have hnull := d.terminated.null
    unfold CurrentDirectory.dosPathMaximum at hnull
    unfold staticUnicodeSize
    omega
  rw [rtlGetCurrentDirectory_eq d.state hroom]
  rfl

/-- The null is not put behind `lpBuffer`, and the size that is returned is enough for the
path. -/
structure CurrentDirectoryFits (apis : FileApis) (d : Directory) (n : Nat) : Prop where
  room : apis.rtlUnicodeToMultiByteSize d.path < n → n < 2 ^ 16 - 1 →
    (apis.page.toBytes d.path).length ≠ n
  enough : clippedLength n ≤ apis.rtlUnicodeToMultiByteSize d.path →
    n ≤ apis.rtlUnicodeToMultiByteSize d.path + 1 ∧
      (apis.page.toBytes d.path).length ≤ apis.rtlUnicodeToMultiByteSize d.path

theorem clippedLength_le (n : Nat) : clippedLength n ≤ n := by
  unfold clippedLength
  split <;> omega

theorem clippedLength_eq (h : n < 2 ^ 16) : clippedLength n = n := by
  unfold clippedLength
  rw [if_neg (by omega)]

theorem getCurrentDirectoryA_agrees_iff (apis : FileApis) (d : Directory) (n : Nat) :
    (∀ lpBuffer : Bytes n, Yields (getCurrentDirectoryA apis d n lpBuffer.val)
        (Agrees (given d.path) apis.page.toBytes n)) ↔
      CurrentDirectoryFits apis d n := by
  have hclipped := clippedLength_le n
  have hlength : (apis.page.toBytes d.path ++ [0]).length =
      (apis.page.toBytes d.path).length + 1 := List.length_append
  unfold getCurrentDirectoryA
  dsimp only
  rw [d.static_eq]
  dsimp only
  constructor
  · intro h
    have hcall := h ⟨List.replicate n 0, List.length_replicate⟩
    constructor
    case room =>
      intro hsize hn heq
      rw [clippedLength_eq (by omega), if_pos hsize] at hcall
      rw [apis.unicodeStringTo8BitString_eq (by omega)
        (by rw [heq]; unfold DosPath.toUShort; omega)] at hcall
      -- one byte more than there is room for
      refine (faultOf_faults ?_).not_yields hcall
      apply Faults.bind
      apply put_faults
      rw [List.length_replicate, hlength]
      omega
    case enough =>
      intro hshort
      rw [if_neg (Nat.not_lt_of_le hshort)] at hcall
      obtain ⟨reply, hok, hagrees⟩ := hcall
      obtain rfl := Except.ok.inj hok
      obtain ⟨hrange, hsize⟩ := agrees_needed.mp hagrees
      refine ⟨hrange, ?_⟩
      by_cases hnil : d.path = []
      · rw [(apis.page.toBytes_eq_nil _).mpr hnil]
        exact Nat.zero_le _
      · exact hsize d.path (given_of_ne hnil)
  · intro h lpBuffer
    apply Yields.ite
    · intro hsize
      cases hbytes : apis.unicodeStringTo8BitString d.path
          (DosPath.toUShort (clippedLength n + 1)) with
      | error status => exact .ok (.failed _ _ _ _)
      | ok bytes =>
        obtain ⟨rfl, hroom, hsmall⟩ := FileApis.unicodeStringTo8BitString_ok hbytes
        have hnull : (apis.page.toBytes d.path).length + 1 ≤ n := by
          unfold DosPath.toUShort at hroom
          by_cases hlong : n < 2 ^ 16
          · rw [clippedLength_eq hlong] at hsize hroom
            have hne := h.room hsize (by omega)
            omega
          · omega
        apply faultOf_yields
        apply (put_start (by rw [hlength, lpBuffer.property]; exact hnull)).bind
        rintro buffer ⟨hbuffer, hholds⟩
        rw [hlength, Nat.add_sub_cancel]
        exact .ok (.written (apis.page.toBytes_eq_nil _) (hbuffer.trans lpBuffer.property) hholds)
    · intro hshort
      obtain ⟨hrange, hsize⟩ := h.enough (Nat.le_of_not_lt hshort)
      refine .ok (agrees_needed.mpr ⟨hrange, ?_⟩)
      intro text htext
      obtain ⟨rfl, -⟩ := mem_given htext
      exact hsize

/-! ## GetFullPathNameA -/

/-- The path that `GetFullPathNameW` gives for the name, in a buffer of `MAX_PATH` characters. -/
def wideFullPath (apis : FileApis) (c : FullPathContext) (lpFileName : List UInt8) :
    Option (List WCHAR) :=
  match eightBitStringToDynamicUnicodeString apis c lpFileName, c.ubuff with
  | .ok name, some ubuff =>
    match rtlGetFullPathNameU c.toContext name (2 * maxPath) ubuff.val with
    | .ok (.stored o _) => given (textOf o)
    | _ => none
  | _, _ => none

/-- What is in `Ubuff` has as many bytes in both code pages, as far as they are used. -/
structure ConversionFits (apis : FileApis) (c : FullPathContext) (o : DosPath.Output) (n : Nat) :
    Prop where
  same : apis.rtlUnicodeToMultiByteSize (o.buffer.take o.dest) ≠ 0 →
    apis.rtlUnicodeToMultiByteSize (o.buffer.take o.dest) < n → c.allocatesResult = true →
      (apis.page.toBytes (textOf o)).length + 1 < 2 ^ 16 →
        (apis.page.toBytes (textOf o)).length =
          apis.rtlUnicodeToMultiByteSize (o.buffer.take o.dest)
  enough : n ≤ apis.rtlUnicodeToMultiByteSize (o.buffer.take o.dest) →
    (apis.page.toBytes (textOf o)).length ≤
      apis.rtlUnicodeToMultiByteSize (o.buffer.take o.dest)

/-- What `RtlGetFullPathName_U` gives can be used. -/
def OutcomeFits (apis : FileApis) (c : FullPathContext) (n : Nat) :
    Except DosPath.Fault DosPath.Outcome → Prop
  | .error _ => False
  | .ok (.returned unicodeLength) => unicodeLength = 0 ∨ 2 * maxPath + 2 < unicodeLength
  | .ok (.stored o _) => ConversionFits apis c o n

/-- The condition on a name. -/
def FullPathFits (apis : FileApis) (c : FullPathContext) (lpFileName : List UInt8) (n : Nat) :
    Prop :=
  ∀ name, eightBitStringToDynamicUnicodeString apis c lpFileName = .ok name →
    ∀ ubuff ∈ c.ubuff,
      OutcomeFits apis c n (rtlGetFullPathNameU c.toContext name (2 * maxPath) ubuff.val)

section Conversion

variable {o : DosPath.Output} {part : Option Nat} {lpFilePart : Bool}

/-- A path of no characters begins with its null. -/
theorem textOf_eq_nil (hnull : DosPath.charAt o.buffer o.dest = 0) (hdest : o.dest = 0) :
    textOf o = [] := by
  unfold textOf
  rw [hdest] at hnull
  cases hbuffer : o.buffer with
  | nil => rfl
  | cons ch buffer =>
    rw [hbuffer] at hnull
    have hch : ch = 0 := hnull
    rw [hch]
    exact List.takeWhile_cons_of_neg (by simp)

theorem toBytes_textOf_eq_nil (hnull : DosPath.charAt o.buffer o.dest = 0)
    (hdest : o.dest < o.buffer.length)
    (hsize : apis.rtlUnicodeToMultiByteSize (o.buffer.take o.dest) = 0) :
    apis.page.toBytes (textOf o) = [] := by
  rw [apis.size_eq, List.length_eq_zero_iff, apis.ansi.toBytes_eq_nil] at hsize
  apply (apis.page.toBytes_eq_nil _).mpr
  apply textOf_eq_nil hnull
  rcases List.take_eq_nil_iff.mp hsize with hzero | hnil
  · exact hzero
  · rw [hnil] at hdest
    exact absurd hdest (Nat.not_lt_zero _)

/-- What is copied of a longer conversion is not the path: the byte behind it is as it was. -/
theorem not_holds_of_shorter {bytes : List UInt8} {size : Nat} {buffer : List UInt8}
    (hlong : size < bytes.length)
    (hput : put (List.replicate n 1) 0 ((bytes ++ [0]).take (size + 1)) = .ok buffer) :
    ¬ Holds buffer (bytes ++ [0]) := by
  intro hholds
  have hpiece : ((bytes ++ [0]).take (size + 1)).length = size + 1 := by
    rw [List.length_take, List.length_append]
    omega
  have hnull : buffer[bytes.length]? = some 0 := by
    have hat : (buffer.take (bytes ++ [0]).length)[bytes.length]? = (bytes ++ [0])[bytes.length]? :=
      congrArg (·[bytes.length]?) hholds
    rw [List.getElem?_take_of_lt (by rw [List.length_append, List.length_singleton]; omega),
      List.getElem?_append_right (Nat.le_refl _), Nat.sub_self] at hat
    exact hat
  unfold put at hput
  split at hput
  · obtain rfl := Except.ok.inj hput
    rw [List.take_zero, List.nil_append, hpiece, List.getElem?_append_right (by omega), hpiece,
      List.drop_replicate, List.getElem?_replicate] at hnull
    split at hnull
    · cases hnull
    · cases hnull
  · cases hput

theorem convertFullPath_agrees_iff (hnull : DosPath.charAt o.buffer o.dest = 0)
    (hdest : o.dest < o.buffer.length) :
    (∀ lpBuffer : Bytes n,
        Yields (convertFullPath apis c o part n lpBuffer.val lpFilePart)
          (Agrees (given (textOf o)) apis.page.toBytes n)) ↔
      ConversionFits apis c o n := by
  have hempty : apis.rtlUnicodeToMultiByteSize (o.buffer.take o.dest) = 0 →
      apis.page.toBytes (textOf o) = [] := toBytes_textOf_eq_nil hnull hdest
  have hlength : (apis.page.toBytes (textOf o) ++ [0]).length =
      (apis.page.toBytes (textOf o)).length + 1 := List.length_append
  unfold convertFullPath
  dsimp only
  constructor
  · intro h
    have hcall := h ⟨List.replicate n 1, List.length_replicate⟩
    constructor
    case same =>
      intro hne hlt hallocates hsmall
      rw [if_pos ⟨hne, hlt⟩, if_neg (by rw [hallocates]; exact Bool.noConfusion),
        apis.unicodeStringTo8BitString_eq hsmall (by omega)] at hcall
      dsimp only at hcall
      rcases Nat.lt_trichotomy (apis.page.toBytes (textOf o)).length
        (apis.rtlUnicodeToMultiByteSize (o.buffer.take o.dest)) with hshort | heq | hlong
      · -- bytes behind the result are read
        refine absurd hcall (Faults.not_yields ?_)
        apply Faults.bind
        apply faultOf_faults
        apply slice_faults
        rw [hlength]
        omega
      · exact heq
      · -- the null is not copied
        obtain ⟨reply, hok, hagrees⟩ := hcall
        obtain ⟨piece, hpiece, hok⟩ := Ensures.ok_of_bind hok
        obtain ⟨buffer, hbuffer, hok⟩ := Ensures.ok_of_bind hok
        obtain rfl := Except.ok.inj hok
        obtain ⟨text, htext, stored, hstored, hholds⟩ :=
          hagrees.holds.mp ⟨Nat.pos_of_ne_zero hne, hlt⟩
        obtain ⟨rfl, -⟩ := mem_given htext
        obtain rfl := Option.some.inj hstored
        have hinside : 0 + (apis.rtlUnicodeToMultiByteSize (o.buffer.take o.dest) + 1) ≤
            (apis.page.toBytes (textOf o) ++ [0]).length := by
          rw [hlength]
          omega
        obtain ⟨first, hfirst, rfl⟩ := slice_spec hinside
        rw [hfirst] at hpiece
        obtain rfl := Except.ok.inj hpiece
        rw [List.drop_zero] at hbuffer
        exact absurd hholds (not_holds_of_shorter hlong (ok_of_faultOf hbuffer))
    case enough =>
      intro hshort
      -- the size that is returned is too small for the bytes that were asked for
      by_cases hzero : apis.rtlUnicodeToMultiByteSize (o.buffer.take o.dest) = 0
      · rw [hempty hzero]
        exact Nat.zero_le _
      · rw [if_neg (by omega), if_pos hzero] at hcall
        obtain ⟨reply, hok, hagrees⟩ := hcall
        obtain rfl := Except.ok.inj hok
        by_cases hnil : textOf o = []
        · rw [(apis.page.toBytes_eq_nil _).mpr hnil]
          exact Nat.zero_le _
        · exact (agrees_needed.mp hagrees).2 _ (given_of_ne hnil)
  · intro h lpBuffer
    apply Yields.ite
    · rintro ⟨hne, hlt⟩
      apply Yields.ite
      · intro _
        exact .ok (.failed _ _ _ _)
      intro hallocates
      cases hbytes : apis.unicodeStringTo8BitString (textOf o) (2 ^ 16) with
      | error status => exact .ok (.failed _ _ _ _)
      | ok bytes =>
        obtain ⟨rfl, -, hsmall⟩ := FileApis.unicodeStringTo8BitString_ok hbytes
        -- the bytes are as many as the size says, so the null is copied with them
        have hsame := h.same hne hlt (by simpa using hallocates) hsmall
        dsimp only
        rw [← hsame] at hne hlt ⊢
        apply (faultOf_yields (slice_spec (by rw [hlength, Nat.zero_add]))).bind
        rintro piece rfl
        rw [List.drop_zero, List.take_of_length_le (Nat.le_of_eq hlength)]
        apply (faultOf_yields (put_start (by rw [hlength, lpBuffer.property]; exact hlt))).bind
        rintro buffer ⟨hbuffer, hholds⟩
        have hnil : textOf o ≠ [] := by
          intro hnil
          exact hne (List.length_eq_zero_iff.mpr ((apis.page.toBytes_eq_nil _).mpr hnil))
        exact .ok (.holding (given_of_ne hnil) (Nat.pos_of_ne_zero hne)
          (hbuffer.trans lpBuffer.property) hholds)
    · intro hrange
      split
      · rename_i hne
        refine .ok (agrees_needed.mpr ⟨by omega, ?_⟩)
        intro text htext
        obtain ⟨rfl, -⟩ := mem_given htext
        exact h.enough (by omega)
      · exact .ok (.failed _ _ _ _)

end Conversion

/-- A path that is given is in the buffer, with its null. -/
theorem rtlGetFullPathNameU_complete (c : DosPath.Context) (lpFileName : List WCHAR)
    (nBufferLength : Nat) (lpBuffer : List WCHAR) :
    Ensures (rtlGetFullPathNameU c lpFileName nBufferLength lpBuffer)
      (DosPath.Complete lpBuffer.length) := by
  unfold rtlGetFullPathNameU
  apply Ensures.ite
  · intro _
    exact .ok trivial
  · intro _
    apply (DosPath.stored_path c lpFileName nBufferLength lpBuffer).bind
    intro full hfull
    exact .ok hfull

theorem getFullPathNameA_agrees_iff (apis : FileApis) (c : FullPathContext)
    (lpFileName : List UInt8) (lpFilePart : Bool) (n : Nat) :
    (∀ lpBuffer : Bytes n,
        Yields (getFullPathNameA apis c lpFileName n lpBuffer.val lpFilePart)
          (Agrees (wideFullPath apis c lpFileName) apis.page.toBytes n)) ↔
      FullPathFits apis c lpFileName n := by
  have hany : Bytes n := ⟨List.replicate n 0, List.length_replicate⟩
  unfold getFullPathNameA wideFullPath FullPathFits
  cases hname : eightBitStringToDynamicUnicodeString apis c lpFileName with
  | error status =>
    constructor
    · intro _ name hok
      cases hok
    · intro _ lpBuffer
      exact .ok (.failed _ _ _ _)
  | ok name =>
    cases hubuff : c.ubuff with
    | none =>
      constructor
      · intro _ name' _ ubuff hmem
        cases hmem
      · intro _ lpBuffer
        exact .ok (.failed _ _ _ _)
    | some ubuff =>
      have hcomplete := rtlGetFullPathNameU_complete c.toContext name (2 * maxPath) ubuff.val
      -- the name and the buffer are the only ones
      have honly : (∀ name', Except.ok name = (.ok name' : Except NtStatus (List WCHAR)) →
          ∀ ubuff' ∈ some ubuff, OutcomeFits apis c n
            (rtlGetFullPathNameU c.toContext name' (2 * maxPath) ubuff'.val)) ↔
          OutcomeFits apis c n
            (rtlGetFullPathNameU c.toContext name (2 * maxPath) ubuff.val) := by
        constructor
        · intro h
          exact h name rfl ubuff rfl
        · rintro h name' hname' ubuff' hubuff'
          obtain rfl := Except.ok.inj hname'
          obtain rfl := Option.some.inj hubuff'
          exact h
      rw [honly]
      dsimp only
      cases hfull : rtlGetFullPathNameU c.toContext name (2 * maxPath) ubuff.val with
      | error fault =>
        constructor
        · intro h
          exact Faults.not_yields ⟨EightBitFault.fullPath fault, rfl⟩ (h hany)
        · exact False.elim
      | ok outcome =>
        have houtcome := hcomplete.holds outcome hfull
        cases outcome with
        | stored o part =>
          obtain ⟨hsize, hdest, hnull⟩ := houtcome
          exact convertFullPath_agrees_iff hnull (hsize ▸ hdest)
        | returned unicodeLength =>
          change (∀ lpBuffer : Bytes n, Yields _ _) ↔
            unicodeLength = 0 ∨ 2 * maxPath + 2 < unicodeLength
          constructor
          · intro h
            -- the path does not fit, and what was not written is converted
            by_contra hbetween
            have hle : unicodeLength ≤ 2 * maxPath + 2 := by omega
            have hne : unicodeLength ≠ 0 := by omega
            have hcall := h hany
            simp only [faultOf, Yields.ok_bind, if_pos hle, if_neg hne] at hcall
            exact Faults.not_yields ⟨EightBitFault.uninitialized, rfl⟩ hcall
          · intro h lpBuffer
            simp only [faultOf, Yields.ok_bind]
            apply Yields.ite
            · intro hle
              have hzero : unicodeLength = 0 := by omega
              rw [if_pos hzero]
              exact .ok (.failed _ _ _ _)
            · intro _
              exact .ok (.failed _ _ _ _)

/-! ## All three -/

/-- Each function gives the path of its wide counterpart, or a size that is enough, if and only if
its condition holds. -/
theorem eight_bit_path_functions_agree (apis : FileApis) (w : TempSources) (d : Directory)
    (c : FullPathContext) (lpFileName : List UInt8) (lpFilePart : Bool) (n : Nat) :
    ((∀ lpBuffer : Option (Bytes n),
        Yields (getTempPathA apis w n (lpBuffer.map Subtype.val))
          (Agrees (ldkpGetTempPathCandidate w maxPath) apis.page.toBytes n)) ↔
      TempPathFits apis w n) ∧
    ((∀ lpBuffer : Bytes n, Yields (getCurrentDirectoryA apis d n lpBuffer.val)
        (Agrees (given d.path) apis.page.toBytes n)) ↔
      CurrentDirectoryFits apis d n) ∧
    ((∀ lpBuffer : Bytes n,
        Yields (getFullPathNameA apis c lpFileName n lpBuffer.val lpFilePart)
          (Agrees (wideFullPath apis c lpFileName) apis.page.toBytes n)) ↔
      FullPathFits apis c lpFileName n) :=
  ⟨getTempPathA_agrees_iff apis w n, getCurrentDirectoryA_agrees_iff apis d n,
    getFullPathNameA_agrees_iff apis c lpFileName lpFilePart n⟩

/-! ## The code page of ANSI -/

theorem FileApis.size_eq_ansi (apis : FileApis) (text : List WCHAR) :
    (apis.setFileApisToANSI.page.toBytes text).length =
      apis.setFileApisToANSI.rtlUnicodeToMultiByteSize text := rfl

/-- With the page of ANSI `GetTempPathA` always agrees. -/
theorem tempPathFits_ansi (apis : FileApis) (w : TempSources) (n : Nat) :
    TempPathFits apis.setFileApisToANSI w n := by
  intro text _ _
  exact Nat.le_of_eq (apis.size_eq_ansi text)

/-- With the page of ANSI `GetCurrentDirectoryA` agrees unless `lpBuffer` is very large and the
path as well. -/
theorem currentDirectoryFits_ansi (apis : FileApis) (d : Directory)
    (h : n < 2 ^ 16 ∨ apis.rtlUnicodeToMultiByteSize d.path < 2 ^ 16 - 3) :
    CurrentDirectoryFits apis.setFileApisToANSI d n := by
  have hsize : apis.setFileApisToANSI.rtlUnicodeToMultiByteSize d.path =
      apis.rtlUnicodeToMultiByteSize d.path := rfl
  constructor
  case room =>
    intro hlt _ heq
    rw [apis.size_eq_ansi] at heq
    exact absurd heq (Nat.ne_of_lt hlt)
  case enough =>
    intro hshort
    unfold clippedLength at hshort
    refine ⟨?_, Nat.le_of_eq (apis.size_eq_ansi _)⟩
    split at hshort <;> omega

/-! ## A path that has more bytes in the other page -/

/-- A page of single bytes: what is not in it becomes a question mark. -/
def singleByte : CodePage where
  toWide bytes := bytes.map UInt8.toUInt16
  toBytes text := text.map fun ch => if ch < 0x80 then ch.toUInt8 else 0x3f
  toBytes_eq_nil _ := List.map_eq_nil_iff

/-- A page where some characters have two bytes. -/
def doubleByte : CodePage where
  toWide bytes := bytes.map UInt8.toUInt16
  toBytes text := text.flatMap fun ch => if ch < 0x80 then [ch.toUInt8] else [0x81, 0x40]
  toBytes_eq_nil text := by
    constructor
    · intro h
      cases text with
      | nil => rfl
      | cons ch text =>
        rw [List.flatMap_cons] at h
        split at h <;> cases h
    · rintro rfl
      rfl

def twoPages : FileApis := ⟨singleByte, doubleByte, true⟩

/-- `TMP` is `ä`, and any directory is there. -/
def tempIsUmlaut : TempSources where
  environmentVariable name := if name = [0x54, 0x4d, 0x50] then some [0xe4] else none
  directory := ⟨CurrentDirectory.initialState Nat Nat [0x43, 0x3a, 0x5c], ⟨rfl, by decide⟩⟩
  tempPathExists _ := true

/-- The size for two characters, of which one has two bytes, leaves no room for the null. -/
theorem size_of_other_page_is_too_small :
    ldkpGetTempPathCandidate tempIsUmlaut maxPath = some [0xe4, 0x5c] ∧
      doubleByte.toBytes [0xe4, 0x5c] = [0x81, 0x40, 0x5c] ∧
      getTempPathA twoPages.setFileApisToOEM tempIsUmlaut 0 none = .ok { returned := 3 } ∧
      ¬ ∀ lpBuffer : Option (Bytes 0),
        Yields (getTempPathA twoPages.setFileApisToOEM tempIsUmlaut 0 (lpBuffer.map Subtype.val))
          (Agrees (ldkpGetTempPathCandidate tempIsUmlaut maxPath)
            twoPages.setFileApisToOEM.page.toBytes 0) := by
  have hpath : ldkpGetTempPathCandidate tempIsUmlaut maxPath = some [0xe4, 0x5c] := by decide
  refine ⟨hpath, by decide, by decide, ?_⟩
  rw [getTempPathA_agrees_iff]
  intro hfits
  exact absurd (hfits _ hpath (Nat.zero_le _)) (by decide)

end Ldk.FileApi
