import Ldk.Lib.OutputBuffer
import Ldk.Resource.Message

/-!
# FormatMessage

`FormatMessageA` and `FormatMessageW` of `winbase.c`, with what they use: the entries of message
tables, the table of system messages and the strings of callers.

- `Api`: what the two functions differ in, the characters of the target and how the others become
  such.
- `State`: the buffer at `lpBuffer`, the block whose address is put there, and the last error.
- The lookups of entries are those of the images (`Sources`). A text that is passed to a function is
  the list of its characters.
- `ldkpFormatCounted`: all the functions for a text of some length. A `DWORD` is computed modulo
  `2 ^ 32`; where the result is too small for a text, its characters are put outside of the block.
-/

namespace Ldk.FormatMessage

open OutputBuffer (Outside put putConverted)

/-! ## Messages -/

/-- `LDK_MESSAGE_RESOURCE_ENTRY`, with the bytes from `Text` on. -/
structure MessageEntry where
  length : Nat
  flags : Nat
  text : Nat → UInt8

namespace MessageEntry

/-- The entry at an address. -/
def ofImage (image : ByteBlock) (p : Nat) : MessageEntry where
  length := image.readLE p 2
  flags := image.readLE (p + 2) 2
  text i := image.bytes (p + 4 + i)

variable (entry : MessageEntry)

/-- `LDK_MESSAGE_RESOURCE_UNICODE` -/
def Unicode : Prop := entry.flags % 2 = 1

instance : Decidable entry.Unicode := inferInstanceAs (Decidable (_ = _))

/-- `TextBytes` -/
def textBytes : Nat := entry.length - 4

/-- `(LPCSTR)MessageEntry->Text` -/
def ansiText : List UInt8 := (List.range entry.textBytes).map entry.text

/-- `(LPCWSTR)MessageEntry->Text` -/
def wideText : List WCHAR :=
  (List.range (entry.textBytes / 2)).map fun i =>
    UInt16.ofNat ((entry.text (2 * i)).toNat + 256 * (entry.text (2 * i + 1)).toNat)

end MessageEntry

/-- The messages of modules and of the images of the system. -/
structure Sources where
  /-- `LdkpFindMessageInMappedImage`, for an image, a message and a language -/
  ldkpFindMessageInMappedImage : Nat → Nat → Nat → Option MessageEntry
  /-- `LdkpFindSystemMessageInCachedImages`, for a message and a language -/
  ldkpFindSystemMessageInCachedImages : Nat → Nat → Option MessageEntry
  /-- An entry is as long as its header at least, and its length is a `USHORT`. -/
  mapped_length : ∀ imageBase messageId languageId,
    ∀ entry ∈ ldkpFindMessageInMappedImage imageBase messageId languageId,
      4 ≤ entry.length ∧ entry.length < 2 ^ 16
  cached_length : ∀ messageId languageId,
    ∀ entry ∈ ldkpFindSystemMessageInCachedImages messageId languageId,
      4 ≤ entry.length ∧ entry.length < 2 ^ 16

/-- The texts of `LdkpLookupSystemErrorMessage`, by their identifiers. -/
def systemErrorMessages : List (Nat × String) :=
  [(0, "The operation completed successfully.\r\n"),
   (1, "Incorrect function.\r\n"),
   (2, "The system cannot find the file specified.\r\n"),
   (3, "The system cannot find the path specified.\r\n"),
   (4, "The system cannot open the file.\r\n"),
   (5, "Access is denied.\r\n"),
   (6, "The handle is invalid.\r\n"),
   (8, "Not enough memory resources are available to process this command.\r\n"),
   (14, "Not enough memory resources are available to process this command.\r\n"),
   (13, "The data is invalid.\r\n"),
   (15, "The system cannot find the drive specified.\r\n"),
   (18, "There are no more files.\r\n"),
   (19, "The media is write protected.\r\n"),
   (20, "The system cannot find the device specified.\r\n"),
   (21, "The device is not ready.\r\n"),
   (22, "The device does not recognize the command.\r\n"),
   (23, "Data error (cyclic redundancy check).\r\n"),
   (24, "The program issued a command but the command length is incorrect.\r\n"),
   (25, "The drive cannot locate a specific area or track on the disk.\r\n"),
   (26, "The specified disk or diskette cannot be accessed.\r\n"),
   (27, "The drive cannot find the sector requested.\r\n"),
   (28, "The printer is out of paper.\r\n"),
   (29, "The system cannot write to the specified device.\r\n"),
   (30, "The system cannot read from the specified device.\r\n"),
   (31, "A device attached to the system is not functioning.\r\n"),
   (32, "The process cannot access the file because it is being used by another process.\r\n"),
   (33,
      "The process cannot access the file because another process has locked a portion of the file.\r\n"),
   (38, "Reached the end of the file.\r\n"),
   (39, "The disk is full.\r\n"),
   (50, "The request is not supported.\r\n"),
   (80, "The file exists.\r\n"),
   (82, "The directory or file cannot be created.\r\n"),
   (87, "The parameter is incorrect.\r\n"),
   (109, "The pipe has been ended.\r\n"),
   (120, "This function is not supported on this system.\r\n"),
   (122, "The data area passed to a system call is too small.\r\n"),
   (123, "The filename, directory name, or volume label syntax is incorrect.\r\n"),
   (145, "The directory is not empty.\r\n"),
   (183, "Cannot create a file when that file already exists.\r\n"),
   (203, "The system could not find the environment option that was entered.\r\n"),
   (206, "The filename or extension is too long.\r\n"),
   (131, "An attempt was made to move the file pointer before the beginning of the file.\r\n"),
   (267, "The directory name is invalid.\r\n"),
   (1168, "Element not found.\r\n"),
   (1004, "Invalid flags.\r\n"),
   (1113, "No mapping for the Unicode character exists in the target multi-byte code page.\r\n")]

/-- `LdkpLookupSystemErrorMessage` -/
def ldkpLookupSystemErrorMessage (messageId : Nat) : Option (List UInt8) :=
  (systemErrorMessages.find? fun p => p.1 = messageId).map fun p => p.2.toByteArray.data.toList

/-! ## The call -/

/-- What the functions set as the last error. -/
inductive Win32Error where
  | invalidHandle
  | notEnoughMemory
  | invalidData
  | invalidParameter
  | insufficientBuffer
  | mrMidNotFound
  deriving DecidableEq, Repr

/-- What goes wrong. -/
inductive Fault where
  | outside (piece : Outside)
  /-- The rounds granted to a loop are used up. -/
  | endless
  deriving DecidableEq, Repr

/-- What `FormatMessageA` and `FormatMessageW` differ in; only a zero becomes a zero. -/
structure Api (α : Type) [Zero α] where
  fromAnsi : UInt8 → α
  fromWide : WCHAR → α
  fromAnsi_eq_zero : ∀ c, fromAnsi c = 0 ↔ c = 0
  fromWide_eq_zero : ∀ c, fromWide c = 0 ↔ c = 0

def ansiApi : Api UInt8 where
  fromAnsi c := c
  fromWide c := if c ≤ 0x7f then c.toUInt8 else 0x3f
  fromAnsi_eq_zero _ := Iff.rfl
  fromWide_eq_zero c := by
    split
    · rename_i hascii
      have hle : c.toNat ≤ 0x7f := hascii
      rw [← UInt8.toNat_inj, ← UInt16.toNat_inj, UInt16.toNat_toUInt8]
      show c.toNat % 256 = 0 ↔ c.toNat = 0
      omega
    · rename_i hlarge
      refine iff_of_false (by decide) ?_
      rintro rfl
      exact hlarge (by decide)

def wideApi : Api WCHAR where
  fromAnsi c := c.toUInt16
  fromWide c := c
  fromAnsi_eq_zero c := by
    rw [← UInt16.toNat_inj, ← UInt8.toNat_inj, UInt8.toNat_toUInt16]
    rfl
  fromWide_eq_zero _ := Iff.rfl

/-- The arguments other than the buffer. -/
structure Request where
  dwFlags : Nat
  /-- 0 is `NULL`. -/
  lpSource : Nat
  dwMessageId : Nat
  dwLanguageId : Nat

/-- `FlagOn` -/
def FlagOn (flags flag : Nat) : Prop := flags &&& flag ≠ 0

instance (flags flag : Nat) : Decidable (FlagOn flags flag) := inferInstanceAs (Decidable (_ ≠ _))

namespace Request

variable (request : Request)

/-- `FORMAT_MESSAGE_ALLOCATE_BUFFER` -/
def AllocateBuffer : Prop := FlagOn request.dwFlags 0x100

/-- `FORMAT_MESSAGE_FROM_STRING` -/
def FromString : Prop := FlagOn request.dwFlags 0x400

/-- `FORMAT_MESSAGE_FROM_HMODULE` -/
def FromHmodule : Prop := FlagOn request.dwFlags 0x800

/-- `FORMAT_MESSAGE_FROM_SYSTEM` -/
def FromSystem : Prop := FlagOn request.dwFlags 0x1000

instance : Decidable request.AllocateBuffer := inferInstanceAs (Decidable (FlagOn _ _))
instance : Decidable request.FromString := inferInstanceAs (Decidable (FlagOn _ _))
instance : Decidable request.FromHmodule := inferInstanceAs (Decidable (FlagOn _ _))
instance : Decidable request.FromSystem := inferInstanceAs (Decidable (FlagOn _ _))

end Request

/-- What a call changes. -/
structure State (α : Type) where
  /-- The characters at `lpBuffer`, `none` for `NULL` -/
  buffer : Option (List α)
  /-- The block whose address has been put at `lpBuffer` -/
  block : Option (List α)
  /-- How often `LocalAlloc` has been called -/
  allocations : Nat
  lastError : Option Win32Error

/-- The characters of a string, without the zero that ends it. -/
abbrev Text (α : Type) [Zero α] := { text : List α // 0 ∉ text }

/-- What each call of `LocalAlloc` finds in the memory of the block, if there is a block. -/
abbrev Memory (α : Type) := Nat → Option (Nat → α)

section Formatters

variable {α β : Type} [Zero α]

namespace State

variable (s : State α)

def setLastError (error : Win32Error) : State α := { s with lastError := some error }

/-- The functions return 0 and set the last error. -/
def failed (error : Win32Error) : Except Fault (Nat × State α) := .ok (0, s.setLastError error)

end State

/-- A piece is put where it may be outside. -/
def checked {γ : Type} (x : Except Outside γ) : Except Fault γ := x.mapError .outside

/-! ## Formatters -/

variable (memory : Memory α) (allocateBuffer : Prop) [Decidable allocateBuffer] (nSize : Nat)

/-- `LdkpFormatMessageAFromAnsiCounted` and its siblings, for a text of `Length` characters. -/
def ldkpFormatCounted (convert : β → α) (message : List β) (s : State α) :
    Except Fault (Nat × State α) :=
  if allocateBuffer then
    match s.buffer with
    | none => s.failed .invalidParameter
    | some _ =>
      let allocated := { s with allocations := s.allocations + 1 }
      match memory s.allocations with
      | none => allocated.failed .notEnoughMemory
      | some contents => do
        -- `Length + 1` is a `DWORD`
        let target := (List.range ((message.length + 1) % 2 ^ 32)).map contents
        let target ← checked (putConverted convert message 0 target)
        return (message.length, { allocated with block := some target })
  else
    match s.buffer with
    | none => s.failed .insufficientBuffer
    | some buffer =>
      if nSize = 0 then s.failed .insufficientBuffer
      else if nSize ≤ message.length then do
        let buffer ← checked (put buffer 0 [0])
        State.failed { s with buffer := some buffer } .insufficientBuffer
      else do
        let target ← checked (putConverted convert message 0 buffer)
        return (message.length, { s with buffer := some target })

/-- The loop of `LdkpStringLengthA` and `LdkpStringLengthW`, from a length on; behind the
characters of the string there is a zero. -/
def stringLengthFrom (string : List β) : Nat → Nat → Except Fault Nat
  | 0, _ => .error .endless
  | rounds + 1, length =>
    if length < string.length then stringLengthFrom string rounds ((length + 1) % 2 ^ 32)
    else .ok length

/-- `LdkpFormatMessageAFromAnsi` and its siblings, for a string. -/
def ldkpFormatString (rounds : Nat) (convert : β → α) (message : List β) (s : State α) :
    Except Fault (Nat × State α) := do
  let length ← stringLengthFrom message rounds 0
  ldkpFormatCounted memory allocateBuffer nSize convert (message.take length) s

variable (api : Api α)

/-- `LdkpFormatMessageAFromResourceEntry` and `LdkpFormatMessageWFromResourceEntry` -/
def ldkpFormatMessageFromResourceEntry (entry : MessageEntry) (s : State α) :
    Except Fault (Nat × State α) :=
  if entry.length < 4 then s.failed .invalidData
  else if entry.Unicode then
    ldkpFormatCounted memory allocateBuffer nSize api.fromWide entry.wideText s
  else ldkpFormatCounted memory allocateBuffer nSize api.fromAnsi entry.ansiText s

variable (sources : Sources)

/-- `LdkpFormatSystemMessageAFromImages` and `LdkpFormatSystemMessageWFromImages` -/
def ldkpFormatSystemMessageFromImages (messageId languageId : Nat) (s : State α) :
    Except Fault (Nat × State α) :=
  match sources.ldkpFindSystemMessageInCachedImages messageId languageId with
  | some entry => ldkpFormatMessageFromResourceEntry memory allocateBuffer nSize api entry s
  | none => s.failed .mrMidNotFound

end Formatters

section Members

variable (allocateBuffer : Prop) [Decidable allocateBuffer] (nSize rounds : Nat)

def ldkpFormatMessageAFromAnsiCounted (memory : Memory UInt8) (message : List UInt8) :=
  ldkpFormatCounted memory allocateBuffer nSize (fun c => c) message

def ldkpFormatMessageAFromWideCounted (memory : Memory UInt8) (message : List WCHAR) :=
  ldkpFormatCounted memory allocateBuffer nSize ansiApi.fromWide message

def ldkpFormatMessageWFromAnsiCounted (memory : Memory WCHAR) (message : List UInt8) :=
  ldkpFormatCounted memory allocateBuffer nSize wideApi.fromAnsi message

def ldkpFormatMessageWFromWideCounted (memory : Memory WCHAR) (message : List WCHAR) :=
  ldkpFormatCounted memory allocateBuffer nSize (fun c => c) message

def ldkpFormatMessageAFromAnsi (memory : Memory UInt8) (message : List UInt8) :=
  ldkpFormatString memory allocateBuffer nSize rounds (fun c => c) message

def ldkpFormatMessageWFromAnsi (memory : Memory WCHAR) (message : List UInt8) :=
  ldkpFormatString memory allocateBuffer nSize rounds wideApi.fromAnsi message

def ldkpFormatMessageWFromWide (memory : Memory WCHAR) (message : List WCHAR) :=
  ldkpFormatString memory allocateBuffer nSize rounds (fun c => c) message

def ldkpFormatMessageAFromResourceEntry (memory : Memory UInt8) :=
  ldkpFormatMessageFromResourceEntry memory allocateBuffer nSize ansiApi

def ldkpFormatMessageWFromResourceEntry (memory : Memory WCHAR) :=
  ldkpFormatMessageFromResourceEntry memory allocateBuffer nSize wideApi

def ldkpFormatSystemMessageAFromImages (memory : Memory UInt8) :=
  ldkpFormatSystemMessageFromImages memory allocateBuffer nSize ansiApi

def ldkpFormatSystemMessageWFromImages (memory : Memory WCHAR) :=
  ldkpFormatSystemMessageFromImages memory allocateBuffer nSize wideApi

end Members

/-! ## FormatMessage -/

/-- `LdkpNormalizeFormatMessageModuleHandle` -/
def ldkpNormalizeFormatMessageModuleHandle (source : Nat) : Nat := source - source % 4

section FormatMessage

variable {α : Type} [Zero α] (api : Api α) (sources : Sources)
  (strings : Nat → Text α) (memory : Memory α) (rounds : Nat) (request : Request) (nSize : Nat)

/-- The part for `FORMAT_MESSAGE_FROM_SYSTEM`. -/
def formatMessageFromSystem (s : State α) : Except Fault (Nat × State α) := do
  let message := ldkpLookupSystemErrorMessage request.dwMessageId
  let (chars, s) ← ldkpFormatSystemMessageFromImages memory request.AllocateBuffer nSize api
    sources request.dwMessageId (request.dwLanguageId % 2 ^ 16) s
  if chars ≠ 0 then return (chars, s)
  else
    match message with
    | none => s.failed .mrMidNotFound
    | some message =>
      ldkpFormatString memory request.AllocateBuffer nSize rounds api.fromAnsi message s

/-- `FormatMessageA` and `FormatMessageW` -/
def formatMessage (s : State α) : Except Fault (Nat × State α) :=
  if request.FromHmodule then
    if request.lpSource = 0 then s.failed .invalidHandle
    else
      let imageBase := ldkpNormalizeFormatMessageModuleHandle request.lpSource
      match sources.ldkpFindMessageInMappedImage imageBase request.dwMessageId
        (request.dwLanguageId % 2 ^ 16) with
      | some entry =>
        ldkpFormatMessageFromResourceEntry memory request.AllocateBuffer nSize api entry s
      | none =>
        if ¬ request.FromSystem then s.failed .mrMidNotFound
        else formatMessageFromSystem api sources memory rounds request nSize s
  else if request.FromSystem then
    formatMessageFromSystem api sources memory rounds request nSize s
  else if request.FromString ∧ request.lpSource ≠ 0 then
    ldkpFormatString memory request.AllocateBuffer nSize rounds (fun c => c)
      (strings request.lpSource).val s
  else s.failed .invalidParameter

end FormatMessage

def formatMessageA := formatMessage ansiApi

def formatMessageW := formatMessage wideApi

end Ldk.FormatMessage
