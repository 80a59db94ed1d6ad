import Ldk.Resource.Directory
import Ldk.PeImage.Relocation

/-!
# Messages of files and of images

How `winbase.c` finds a message: `LdkpFindMessageResourceData` in the bytes of a file,
`LdkpFindMappedMessageResourceData` and `LdkpFindMappedResourceDataEntry` in an image that is
mapped, and `LdkpFindMessageResourceEntry` in the data either of them has found.

- Pointers are offsets from `ImageBase`; a read outside of the file or of the image is a fault.
- A mapped image comes with what `RtlImageNtHeader` and `RtlImageDirectoryEntryToData` find in it.
- The loop over the entries of a block of messages takes rounds.
-/

namespace Ldk

/-! ## IMAGE_NT_HEADERS -/

namespace PeImage.Machine

/-- `sizeof(IMAGE_NT_HEADERS)` -/
def ntHeadersSize : Machine → Nat
  | .i386 | .arm => 248
  | .amd64 | .arm64 => 264

/-- Where `OptionalHeader.DataDirectory[IMAGE_DIRECTORY_ENTRY_RESOURCE]` is. -/
def resourceField : Machine → Nat
  | .i386 | .arm => 136
  | .amd64 | .arm64 => 152

end PeImage.Machine

namespace Resource

open ByteBlock (Fault)
open PeImage (Machine)

variable (m : Machine) (image : ByteBlock)

/-- `ImageSize - sizeof(IMAGE_NT_HEADERS)`, a `size_t`. -/
def lastNtHeader : Nat := m.ulongPtr (image.size + 256 ^ m.pointerSize - m.ntHeadersSize)

/-- What both functions begin with: the NT headers of a file, when its DOS header and the
signature are accepted. -/
def findNtHeader : Except Fault (Option Nat) := do
  let magic ← image.read 0 2
  if magic ≠ 0x5a4d then return none
  else
    let lfanew ← image.read 60 4
    -- a `LONG`
    if 2 ^ 31 ≤ lfanew ∨ lastNtHeader m image < lfanew then return none
    else
      let signature ← image.read lfanew 4
      return if signature = 0x4550 then some lfanew else none

/-! ## LdkpPeRvaToFilePointer -/

/-- `IMAGE_SECTION_HEADER` -/
structure Section where
  virtualAddress : Nat
  virtualSize : Nat
  sizeOfRawData : Nat
  pointerToRawData : Nat
  deriving DecidableEq, Repr

/-- `Span` -/
def Section.span (s : Section) : Nat := max s.virtualSize s.sizeOfRawData

/-- The section has the address and as many bytes behind it. -/
def Section.Covers (s : Section) (rva requiredSize : Nat) : Prop :=
  s.span ≠ 0 ∧ requiredSize ≤ s.span ∧ s.virtualAddress ≤ rva ∧
    rva - s.virtualAddress ≤ s.span - requiredSize

instance (s : Section) (rva requiredSize : Nat) : Decidable (s.Covers rva requiredSize) :=
  inferInstanceAs (Decidable (_ ∧ _))

/-- The pointer for an address in the section, when it is in the file: the sum is a `ULONG`. -/
def Section.filePointer (s : Section) (imageSize rva requiredSize : Nat) : Option Nat :=
  let fileOffset := (s.pointerToRawData + (rva - s.virtualAddress)) % 2 ^ 32
  if imageSize < s.pointerToRawData ∨ imageSize - requiredSize < fileOffset then none
  else some fileOffset

def readSection (p : Nat) : Except Fault Section := do
  let virtualAddress ← image.read (p + 12) 4
  let virtualSize ← image.read (p + 8) 4
  let sizeOfRawData ← image.read (p + 16) 4
  let pointerToRawData ← image.read (p + 20) 4
  return ⟨virtualAddress, virtualSize, sizeOfRawData, pointerToRawData⟩

/-- The loop over the sections, of which `n` are left from `p` on. -/
def searchSections (rva requiredSize : Nat) : Nat → Nat → Except Fault (Option Nat)
  | 0, _ => .ok none
  | n + 1, p => do
    let s ← readSection image p
    if s.Covers rva requiredSize then return s.filePointer image.size rva requiredSize
    else searchSections rva requiredSize n (p + 40)

/-- `LdkpPeRvaToFilePointer` -/
def ldkpPeRvaToFilePointer (rva requiredSize : Nat) : Except Fault (Option Nat) :=
  if image.size < requiredSize then .ok none
  else do
    match ← findNtHeader m image with
    | none => return none
    | some ntHeader =>
      let sizeOfOptionalHeader ← image.read (ntHeader + 20) 2
      let numberOfSections ← image.read (ntHeader + 6) 2
      searchSections image rva requiredSize numberOfSections (ntHeader + 24 + sizeOfOptionalHeader)

/-- `LdkpGetPeResourceDirectory` -/
def ldkpGetPeResourceDirectory : Except Fault (Option Root) := do
  match ← findNtHeader m image with
  | none => return none
  | some ntHeader =>
    let virtualAddress ← image.read (ntHeader + m.resourceField) 4
    let size ← image.read (ntHeader + m.resourceField + 4) 4
    if virtualAddress = 0 ∨ size < 16 then return none
    else
      match ← ldkpPeRvaToFilePointer m image virtualAddress 16 with
      | none => return none
      | some resourceDirectory => return some ⟨image, resourceDirectory, size⟩

/-! ## The data of a message table -/

/-- `IMAGE_RESOURCE_DATA_ENTRY`: `OffsetToData` and `Size`. -/
structure DataEntry where
  offsetToData : Nat
  size : Nat
  deriving DecidableEq, Repr

def Root.readDataEntry (r : Root) (p : Nat) : Except Fault DataEntry := do
  let offsetToData ← r.image.read (r.base + p) 4
  let size ← r.image.read (r.base + p + 4) 4
  return ⟨offsetToData, size⟩

/-- The directory an entry leads to, when it leads to one that is in the resources. -/
def Root.subdirectory (r : Root) (entry : Nat) : Except Fault (Option Nat) := do
  let offset ← r.readOffset entry
  return if Root.HighBit offset ∧ LdkpResourceOffsetIsValid (Root.lowBits offset) r.size 16 then
    some (Root.lowBits offset)
  else none

/-- The entry for a language, or else the first one. -/
def Root.languageEntry (r : Root) (directory languageId : Nat) : Except Fault (Option Nat) :=
  if languageId = 0 then r.ldkpGetFirstResourceDirectoryEntry directory
  else do
    match ← r.ldkpFindResourceDirectoryEntryById directory languageId with
    | some entry => return some entry
    | none => r.ldkpGetFirstResourceDirectoryEntry directory

/-- What both functions for message tables do in the resource directory: the data entry for
`LDK_RT_MESSAGETABLE`, the first name and a language. -/
def Root.findMessageDataEntry (r : Root) (languageId : Nat) : Except Fault (Option DataEntry) := do
  match ← r.ldkpFindResourceDirectoryEntryById 0 11 with
  | none => return none
  | some typeEntry =>
    match ← r.subdirectory typeEntry with
    | none => return none
    | some typeDirectory =>
      match ← r.ldkpGetFirstResourceDirectoryEntry typeDirectory with
      | none => return none
      | some nameEntry =>
        match ← r.subdirectory nameEntry with
        | none => return none
        | some nameDirectory =>
          match ← r.languageEntry nameDirectory languageId with
          | none => return none
          | some languageEntry =>
            let offset ← r.readOffset languageEntry
            if Root.HighBit offset ∨ ¬ LdkpResourceOffsetIsValid offset r.size 16 then return none
            else
              let dataEntry ← r.readDataEntry offset
              -- `sizeof(LDK_MESSAGE_RESOURCE_DATA)`
              return if dataEntry.size < 16 then none else some dataEntry

/-- `LdkpFindMessageResourceData`, with `MessageResourceSize`. -/
def ldkpFindMessageResourceData (languageId : Nat) : Except Fault (Option (Nat × Nat)) := do
  match ← ldkpGetPeResourceDirectory m image with
  | none => return none
  | some r =>
    match ← r.findMessageDataEntry languageId with
    | none => return none
    | some dataEntry =>
      let data ← ldkpPeRvaToFilePointer m image dataEntry.offsetToData dataEntry.size
      return data.map (·, dataEntry.size)

/-! ## Mapped images -/

/-- An image that is mapped, and what the kernel finds in it. -/
structure MappedImage where
  /-- The bytes from `ImageBase` on, `SizeOfImage` of them. -/
  image : ByteBlock
  /-- `RtlImageNtHeader` -/
  ntHeader : Option Nat
  /-- `RtlImageDirectoryEntryToData` for `IMAGE_DIRECTORY_ENTRY_RESOURCE`: address and size. -/
  resource : Option (Nat × Nat)
  headers_inside : ∀ p ∈ ntHeader, p + m.ntHeadersSize ≤ image.size
  sizeOfImage_eq : ∀ p ∈ ntHeader, image.readLE (p + 80) 4 = image.size
  /-- The kernel takes both from the headers and checks neither. -/
  resource_eq : ∀ d ∈ resource, ∃ p ∈ ntHeader,
    d = (image.readLE (p + m.resourceField) 4, image.readLE (p + m.resourceField + 4) 4)

namespace MappedImage

variable {m}

/-- `LdkpMappedImageRvaToPointer` -/
def ldkpMappedImageRvaToPointer (x : MappedImage m) (rva requiredSize : Nat) :
    Except Fault (Option Nat) :=
  match x.ntHeader with
  | none => .ok none
  | some ntHeader => do
    let sizeOfImage ← x.image.read (ntHeader + 80) 4
    return if sizeOfImage < requiredSize ∨ sizeOfImage - requiredSize < rva then none else some rva

/-- `LdkpFindMappedMessageResourceData`, with `MessageResourceSize`: that the data is in the image
is not checked. -/
def ldkpFindMappedMessageResourceData (x : MappedImage m) (languageId : Nat) :
    Except Fault (Option (Nat × Nat)) :=
  match x.resource with
  | none => .ok none
  | some (base, size) =>
    if size = 0 then .ok none
    else do
      let dataEntry ← (Root.mk x.image base size).findMessageDataEntry languageId
      return dataEntry.map fun e => (e.offsetToData, e.size)

end MappedImage

/-- `ErrorCode` -/
inductive ResourceError where
  | typeNotFound
  | nameNotFound
  | langNotFound
  | dataNotFound
  deriving DecidableEq, Repr

/-- The directory an entry leads to, or what is missing. -/
def Root.requireSubdirectory (r : Root) (notFound : ResourceError) :
    Option Nat → Except Fault (Except ResourceError Nat)
  | none => .ok (.error notFound)
  | some entry => do
    let offset ← r.readOffset entry
    if ¬ Root.HighBit offset then return .error notFound
    else if LdkpResourceOffsetIsValid (Root.lowBits offset) r.size 16 then
      return .ok (Root.lowBits offset)
    else return .error .dataNotFound

/-- The entry for a language, or the first one when the language is 0. -/
def Root.requestedLanguageEntry (r : Root) (directory language : Nat) :
    Except Fault (Option Nat) :=
  if language ≠ 0 then r.ldkpFindResourceDirectoryEntryById directory language
  else r.ldkpGetFirstResourceDirectoryEntry directory

/-- `LdkpFindMappedResourceDataEntry`, which gives a pointer to the data entry. -/
def MappedImage.ldkpFindMappedResourceDataEntry {m : Machine} (x : MappedImage m)
    (type name : Name) (language : Nat) : Except Fault (Except ResourceError Nat) :=
  if type = .id 0 then .ok (.error .typeNotFound)
  else if name = .id 0 then .ok (.error .nameNotFound)
  else
    match x.resource with
    | none => .ok (.error .typeNotFound)
    | some (base, size) =>
      if size = 0 then .ok (.error .typeNotFound)
      else do
        let r : Root := ⟨x.image, base, size⟩
        let typeEntry ← r.ldkpFindResourceDirectoryEntry 0 type
        match ← r.requireSubdirectory .typeNotFound typeEntry with
        | .error errorCode => return .error errorCode
        | .ok typeDirectory =>
          let nameEntry ← r.ldkpFindResourceDirectoryEntry typeDirectory name
          match ← r.requireSubdirectory .nameNotFound nameEntry with
          | .error errorCode => return .error errorCode
          | .ok nameDirectory =>
            match ← r.requestedLanguageEntry nameDirectory language with
            | none => return .error .langNotFound
            | some languageEntry =>
              let offset ← r.readOffset languageEntry
              if Root.HighBit offset then return .error .langNotFound
              else if ¬ LdkpResourceOffsetIsValid offset r.size 16 then
                return .error .dataNotFound
              else
                let dataEntry ← r.readDataEntry offset
                match ← x.ldkpMappedImageRvaToPointer dataEntry.offsetToData dataEntry.size with
                | none => return .error .dataNotFound
                | some _ => return .ok (r.base + offset)

/-! ## LdkpFindMessageResourceEntry -/

variable (data size messageId : Nat)

/-- The loop over the entries of a block, from `id` and `entry` on: `none` when it has passed
`HighId`, and else what the function returns. -/
def searchEntries (highId : Nat) : Nat → Nat → Nat → Except Fault (Option (Option Nat))
  | 0, _, _ => .error .endless
  | rounds + 1, id, entry =>
    if highId < id then .ok none
    else if ¬ LdkpResourceOffsetIsValid (entry % 2 ^ 32) size 6 then .ok (some none)
    else do
      let length ← image.read (data + entry) 2
      if length < 4 then return some none
      else if ¬ LdkpResourceOffsetIsValid (entry % 2 ^ 32) size length then return some none
      else if id = messageId then return some (some (data + entry))
      else searchEntries highId rounds ((id + 1) % 2 ^ 32) (entry + length)

/-- The loop over the blocks, of which `n` are left from `block` on. -/
def searchBlocks (rounds : Nat) : Nat → Nat → Except Fault (Option Nat)
  | 0, _ => .ok none
  | n + 1, block => do
    let lowId ← image.read (data + block) 4
    let highId ← image.read (data + block + 4) 4
    if messageId < lowId ∨ highId < messageId then searchBlocks rounds n (block + 12)
    else
      let offsetToEntries ← image.read (data + block + 8) 4
      if ¬ LdkpResourceOffsetIsValid offsetToEntries size 6 then return none
      else
        match ← searchEntries image data size messageId highId rounds lowId offsetToEntries with
        | some found => return found
        | none => searchBlocks rounds n (block + 12)

/-- `LdkpFindMessageResourceEntry` -/
def ldkpFindMessageResourceEntry (rounds : Nat) : Except Fault (Option Nat) :=
  if size < 4 then .ok none
  else do
    let numberOfBlocks ← image.read data 4
    if (size - 4) / 12 < numberOfBlocks then return none
    else searchBlocks image data size messageId rounds numberOfBlocks 4

/-- What `LdkpFindSystemMessageInCachedImages` does with the bytes of a file. -/
def findMessageInFile (rounds languageId : Nat) : Except Fault (Option Nat) := do
  match ← ldkpFindMessageResourceData m image languageId with
  | none => return none
  | some (data, size) => ldkpFindMessageResourceEntry image data size messageId rounds

/-- `LdkpFindMessageInMappedImage` -/
def MappedImage.ldkpFindMessageInMappedImage {m : Machine} (x : MappedImage m)
    (messageId rounds languageId : Nat) : Except Fault (Option Nat) := do
  match ← x.ldkpFindMappedMessageResourceData languageId with
  | none => return none
  | some (data, size) => ldkpFindMessageResourceEntry x.image data size messageId rounds

/-! ## Safety, and its condition -/

/-- A message is looked up in a file to the end, by reads that are inside. -/
def FileLookupsStayInside : Prop :=
  ∀ rounds languageId messageId, 2 ^ 32 ≤ rounds → messageId < 2 ^ 32 →
    Yields (findMessageInFile m image messageId rounds languageId) fun _ => True

/-- The same for the resources and the messages of a mapped image. -/
def MappedImage.LookupsStayInside {m : Machine} (x : MappedImage m) : Prop :=
  (∀ type name language,
    Yields (x.ldkpFindMappedResourceDataEntry type name language) fun _ => True) ∧
  ∀ rounds languageId messageId, 2 ^ 32 ≤ rounds → messageId < 2 ^ 32 →
    Yields (x.ldkpFindMessageInMappedImage messageId rounds languageId) fun _ => True

/-- The fields of the headers of a file, wherever they are. -/
def lfanew : Nat := image.readLE 60 4

def numberOfSections : Nat := image.readLE (lfanew image + 6) 2

def sectionTable : Nat := lfanew image + 24 + image.readLE (lfanew image + 20) 2

def resourceRva : Nat := image.readLE (lfanew image + m.resourceField) 4

def resourceSize : Nat := image.readLE (lfanew image + m.resourceField + 4) 4

/-- The checks of the DOS header, which do not see that a file is shorter than the headers. -/
def AcceptsDosHeader : Prop :=
  image.readLE 0 2 = 0x5a4d ∧ lfanew image < 2 ^ 31 ∧ lfanew image ≤ lastNtHeader m image

/-- The file is taken for one with headers and with resources. -/
def AcceptsResources : Prop :=
  AcceptsDosHeader m image ∧ image.readLE (lfanew image) 4 = 0x4550 ∧
    resourceRva m image ≠ 0 ∧ 16 ≤ resourceSize m image

/-- The section header at an address. -/
def sectionAt (p : Nat) : Section where
  virtualAddress := image.readLE (p + 12) 4
  virtualSize := image.readLE (p + 8) 4
  sizeOfRawData := image.readLE (p + 16) 4
  pointerToRawData := image.readLE (p + 20) 4

/-- `n` section headers from an address on. -/
def sectionsFrom : Nat → Nat → List Section
  | 0, _ => []
  | n + 1, p => sectionAt image p :: sectionsFrom n (p + 40)

/-- Where the section table puts bytes of the image in the file. -/
def fileOffset (rva requiredSize : Nat) : Option Nat :=
  ((sectionsFrom image (numberOfSections image) (sectionTable image)).find?
    fun s => s.Covers rva requiredSize).bind fun s => s.filePointer image.size rva requiredSize

/-- The headers of sections from an address on are inside, up to the first that covers some bytes of
the image. -/
def SearchedInside (rva requiredSize : Nat) : Nat → Nat → Prop
  | 0, _ => True
  | n + 1, p => p + 24 ≤ image.size ∧
    (¬ (sectionAt image p).Covers rva requiredSize → SearchedInside rva requiredSize n (p + 40))

instance decidableSearchedInside (rva requiredSize : Nat) :
    (n p : Nat) → Decidable (SearchedInside image rva requiredSize n p)
  | 0, _ => isTrue trivial
  | n + 1, p =>
    have := decidableSearchedInside rva requiredSize n (p + 40)
    inferInstanceAs (Decidable (_ ∧ _))

/-- The same for the section table of a file. -/
def TableInside (rva requiredSize : Nat) : Prop :=
  SearchedInside image rva requiredSize (numberOfSections image) (sectionTable image)

instance (rva requiredSize : Nat) : Decidable (TableInside image rva requiredSize) :=
  inferInstanceAs (Decidable (SearchedInside _ _ _ _ _))

/-- The headers are inside, as far as it takes to find the resources. -/
structure HeadersInside : Prop where
  signature : AcceptsDosHeader m image → lfanew image + 4 ≤ image.size
  directory : AcceptsDosHeader m image → image.readLE (lfanew image) 4 = 0x4550 →
    lfanew image + m.resourceField + 8 ≤ image.size
  sections : AcceptsResources m image → TableInside image (resourceRva m image) 16

/-- The data entry of a message table, as the format has it: a type entry, a name entry and a
language entry lead to it. -/
def Root.MessageDataAt (r : Root) (languageId p : Nat) : Prop :=
  ∃ typeEntry nameEntry languageEntry,
    r.FirstEntry 0 (r.HasId 11) typeEntry ∧
    r.FirstEntry (Root.lowBits (r.offset typeEntry)) (fun _ => True) nameEntry ∧
    (languageId ≠ 0 ∧
      r.FirstEntry (Root.lowBits (r.offset nameEntry)) (r.HasId languageId) languageEntry ∨
      r.FirstEntry (Root.lowBits (r.offset nameEntry)) (fun _ => True) languageEntry) ∧
    p = r.offset languageEntry

/-- The checks that are missing for a file would succeed: those of the headers, that of the size of
the resources, and those of the headers of sections for the data. -/
structure FileBounded : Prop extends HeadersInside m image where
  resources : AcceptsResources m image → ∀ base ∈ fileOffset image (resourceRva m image) 16,
    base + resourceSize m image ≤ image.size
  data : AcceptsResources m image → ∀ base ∈ fileOffset image (resourceRva m image) 16,
    ∀ languageId p, (Root.mk image base (resourceSize m image)).MessageDataAt languageId p →
      16 ≤ image.readLE (base + p + 4) 4 → image.readLE (base + p + 4) 4 ≤ image.size →
      TableInside image (image.readLE (base + p) 4) (image.readLE (base + p + 4) 4)

/-- The checks that are missing for a mapped image would succeed. -/
structure MappedImage.Bounded {m : Machine} (x : MappedImage m) : Prop where
  resources : ∀ d ∈ x.resource, d.2 ≠ 0 → d.1 + d.2 ≤ x.image.size
  messages : ∀ d ∈ x.resource, d.2 ≠ 0 → ∀ languageId p,
    (Root.mk x.image d.1 d.2).MessageDataAt languageId p →
      16 ≤ x.image.readLE (d.1 + p + 4) 4 →
      x.image.readLE (d.1 + p) 4 + x.image.readLE (d.1 + p + 4) 4 ≤ x.image.size

end Resource

end Ldk
