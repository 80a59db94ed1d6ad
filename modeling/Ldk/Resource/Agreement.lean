import Mathlib
import Ldk.PeImage.Layout
import Ldk.Resource.Windows

/-!
# Messages of a file and of its image

A message that is looked up in the bytes of a file and in the image that `LdkpLoadDll` makes of the
file is found in both or in none, and it is the same.

- `WellFormed`: the headers are in the file and in the image, the sections fit and have no address
  in common, and the resources are in what is initialised of a section.
- `LoadedFrom`: the image has been laid out, and what has been done to it since (relocation,
  imports) has left the resources alone.
- `same_bytes`: the search of the section table leads to the bytes that were copied.
- `file_and_image_agree`: the two lookups.
-/

namespace Ldk.Resource

open ByteBlock (Fault)
open PeImage (Machine Apart SectionFits ldkpLayOut copySections checkHeaders)

variable (m : Machine) (file : ByteBlock)

/-! ## Files and their images -/

def sizeOfImage : Nat := file.readLE (lfanew file + 80) 4

def sizeOfHeaders : Nat := file.readLE (lfanew file + 84) 4

/-- The section headers. -/
def sections : List Section := sectionsFrom file (numberOfSections file) (sectionTable file)

/-- Bytes of the image that are in the file, all of them in one section. -/
def Initialised (rva size : Nat) : Prop :=
  ∃ s ∈ sections file, s.virtualAddress ≤ rva ∧ rva + size ≤ s.virtualAddress + s.sizeOfRawData

/-- The file has resources. -/
def HasResources : Prop := resourceRva m file ≠ 0 ∧ 16 ≤ resourceSize m file

/-- The address and the size of the data of the message table for a language. -/
def MessageTable (languageId rva size : Nat) : Prop :=
  HasResources m file ∧ ∃ base ∈ fileOffset file (resourceRva m file) 16, ∃ p,
    (Root.mk file base (resourceSize m file)).MessageDataAt languageId p ∧
    rva = file.readLE (base + p) 4 ∧ size = file.readLE (base + p + 4) 4 ∧ 16 ≤ size

/-- The bytes that a lookup needs: those of the directory and those of a message table. -/
def MessageBytes (rva size : Nat) : Prop :=
  (HasResources m file ∧ rva = resourceRva m file ∧ size = resourceSize m file) ∨
    ∃ languageId, MessageTable m file languageId rva size

/-- A file for a DLL of the machine. -/
structure WellFormed : Prop where
  /-- `EndOfFile.LowPart` -/
  ulong : file.size < 2 ^ 32
  magic : file.readLE 0 2 = 0x5a4d
  positive : lfanew file < 2 ^ 31
  signature : file.readLE (lfanew file) 4 = 0x4550
  machine : file.readLE (lfanew file + 4) 2 = m.code
  dll : file.readLE (lfanew file + 22) 2 / 0x2000 % 2 ≠ 0
  headers : lfanew file + m.ntHeadersSize ≤ sizeOfHeaders file
  table : sectionTable file + 40 * numberOfSections file ≤ sizeOfHeaders file
  headersInFile : sizeOfHeaders file ≤ file.size
  headersInImage : sizeOfHeaders file ≤ sizeOfImage file
  fits : ∀ s ∈ sections file, SectionFits file (sizeOfImage file) s
  apart : (sections file).Pairwise Apart
  initialised : ∀ rva size, MessageBytes m file rva size → Initialised file rva size
  /-- No two blocks of a message table have an identifier in common. -/
  blocks : ∀ languageId rva size, MessageTable m file languageId rva size →
    ∀ data ∈ fileOffset file rva size, ∀ messageId i j,
      BlockContains file data messageId i → BlockContains file data messageId j → i = j

/-- The image is the one that is laid out for the file, as far as a lookup needs it, and the kernel
finds its headers and its resources where the file says. -/
structure LoadedFrom (x : MappedImage m) : Prop where
  laidOut : ∃ laid, ldkpLayOut m file (fun _ => true) = .ok (.ok laid) ∧
    x.image.size = laid.size ∧
    ∀ rva size, MessageBytes m file rva size → ByteBlock.Agrees laid x.image rva size
  resource : x.resource =
    if resourceRva m file = 0 then none else some (resourceRva m file, resourceSize m file)

variable {m file}

/-! ## Headers -/

namespace WellFormed

variable (hfile : WellFormed m file)
include hfile

theorem size_le : lfanew file + m.ntHeadersSize ≤ file.size :=
  Nat.le_trans hfile.headers hfile.headersInFile

theorem acceptsDosHeader : AcceptsDosHeader m file := by
  have hsize := hfile.size_le
  have hulong := hfile.ulong
  have hpointer : 2 ^ 32 ≤ 256 ^ m.pointerSize := by cases m <;> decide
  refine ⟨hfile.magic, hfile.positive, ?_⟩
  unfold lastNtHeader Machine.ulongPtr
  rw [show file.size + 256 ^ m.pointerSize - m.ntHeadersSize =
    file.size - m.ntHeadersSize + 256 ^ m.pointerSize from by omega, Nat.add_mod_right,
    Nat.mod_eq_of_lt (by omega)]
  omega

/-- The fields of the headers are in the file. -/
theorem field {offset width : Nat} (h : offset + width ≤ 248) :
    file.read (lfanew file + offset) width = .ok (file.readLE (lfanew file + offset) width) := by
  have hsize := hfile.size_le
  have hheaders : 248 ≤ m.ntHeadersSize := by cases m <;> decide
  exact ByteBlock.read_eq (show lfanew file + offset + width ≤ file.size by omega)

theorem findNtHeader : findNtHeader m file = .ok (some (lfanew file)) := by
  have hsize := hfile.size_le
  have hheaders : 248 ≤ m.ntHeadersSize := by cases m <;> decide
  exact findNtHeader_eq (by omega) hfile.acceptsDosHeader (by omega) hfile.signature

end WellFormed

/-- A directory needs room for its header. -/
theorem Root.findMessageDataEntry_small {r : Root} (h : r.size < 16) (languageId : Nat) :
    r.findMessageDataEntry languageId = .ok none := by
  have hroom : ¬ LdkpResourceOffsetIsValid 0 r.size 16 := fun hvalid => by
    have hle := hvalid.le
    omega
  unfold findMessageDataEntry ldkpFindResourceDirectoryEntryById usableEntries
  rw [if_neg hroom]
  rfl

/-! ## Sections -/

theorem Section.Covers.of_initialised {s : Section} {rva size requiredSize : Nat}
    (hlow : s.virtualAddress ≤ rva) (hhigh : rva + size ≤ s.virtualAddress + s.sizeOfRawData)
    (hpositive : 0 < requiredSize) (hrequired : requiredSize ≤ size) :
    s.Covers rva requiredSize := by
  have hspan := PeImage.rawSize_le_span s
  refine ⟨by omega, by omega, hlow, ?_⟩
  omega

instance : Std.Symm Apart := ⟨fun _ _ h => h.symm⟩

/-- Sections that cover the same bytes are the same. -/
theorem WellFormed.covers_unique (hfile : WellFormed m file) {s t : Section}
    {rva requiredSize : Nat} (hs : s ∈ sections file) (ht : t ∈ sections file)
    (hpositive : 0 < requiredSize) (hcovers : s.Covers rva requiredSize)
    (hcovers' : t.Covers rva requiredSize) : s = t := by
  by_contra hne
  have hapart : Apart s t := hfile.apart.forall hs ht hne
  obtain ⟨-, hroom, hlow, hhigh⟩ := hcovers
  obtain ⟨-, hroom', hlow', hhigh'⟩ := hcovers'
  unfold Apart at hapart
  omega

/-- The section table leads to the bytes of the section that has them. -/
theorem WellFormed.fileOffset_eq (hfile : WellFormed m file) {s : Section}
    {rva size requiredSize : Nat} (hs : s ∈ sections file) (hlow : s.virtualAddress ≤ rva)
    (hhigh : rva + size ≤ s.virtualAddress + s.sizeOfRawData) (hpositive : 0 < requiredSize)
    (hrequired : requiredSize ≤ size) :
    fileOffset file rva requiredSize =
      some (s.pointerToRawData + (rva - s.virtualAddress)) := by
  have hcovers := Section.Covers.of_initialised hlow hhigh hpositive hrequired
  have hfits := hfile.fits s hs
  have hinFile := hfits.inFile
  have hulong := hfile.ulong
  have hfind : (sections file).find? (fun t => t.Covers rva requiredSize) = some s := by
    cases hsearch : (sections file).find? (fun t => t.Covers rva requiredSize) with
    | none =>
      have hnone := List.find?_eq_none.mp hsearch s hs
      exact absurd (decide_eq_true hcovers) hnone
    | some t =>
      have ht := List.mem_of_find?_eq_some hsearch
      have hsome := List.find?_some hsearch
      have hcovers' : t.Covers rva requiredSize := of_decide_eq_true hsome
      rw [hfile.covers_unique hs ht hpositive hcovers hcovers']
  unfold fileOffset
  change ((sections file).find? fun t => t.Covers rva requiredSize).bind _ = _
  rw [hfind]
  change s.filePointer file.size rva requiredSize = _
  unfold Section.filePointer
  dsimp only
  rw [Nat.mod_eq_of_lt (by omega), if_neg (by omega)]

theorem searchedInside_of_table {rva requiredSize n p : Nat} (h : p + 40 * n ≤ file.size) :
    SearchedInside file rva requiredSize n p := by
  induction n generalizing p with
  | zero => exact trivial
  | succ n ih => exact ⟨by omega, fun _ => ih (by omega)⟩

/-- The pointer for bytes that are initialised. -/
theorem WellFormed.ldkpPeRvaToFilePointer_eq (hfile : WellFormed m file) {s : Section}
    {rva size requiredSize : Nat} (hs : s ∈ sections file) (hlow : s.virtualAddress ≤ rva)
    (hhigh : rva + size ≤ s.virtualAddress + s.sizeOfRawData) (hpositive : 0 < requiredSize)
    (hrequired : requiredSize ≤ size) :
    ldkpPeRvaToFilePointer m file rva requiredSize =
      .ok (some (s.pointerToRawData + (rva - s.virtualAddress))) := by
  have hinFile := (hfile.fits s hs).inFile
  have htable := Nat.le_trans hfile.table hfile.headersInFile
  unfold ldkpPeRvaToFilePointer
  rw [if_neg (by omega), hfile.findNtHeader, Yields.ok_bind]
  dsimp only
  rw [hfile.field (by omega), hfile.field (by omega), Yields.ok_bind, Yields.ok_bind]
  obtain ⟨found, hok, hfound⟩ := searchSections_spec (searchedInside_of_table htable)
  have hpointer := hfile.fileOffset_eq hs hlow hhigh hpositive hrequired
  unfold fileOffset at hpointer
  rw [hpointer] at hfound
  rw [← hfound]
  exact hok

/-! ## The image -/

/-- The file is taken for a DLL. -/
theorem WellFormed.checkHeaders_eq (hfile : WellFormed m file) :
    checkHeaders m file = .ok (.ok (lfanew file)) := by
  have hsize := hfile.size_le
  have hheaders : 248 ≤ m.ntHeadersSize := by cases m <;> decide
  have hmagic : file.Holds 0 2 := show 0 + 2 ≤ file.size by omega
  have hlfanew : file.read 60 4 = .ok (lfanew file) :=
    ByteBlock.read_eq (show 60 + 4 ≤ file.size by omega)
  have hheader : PeImage.ntHeaderPointer m (lfanew file) = lfanew file := if_pos hfile.positive
  have hsignature : file.read (lfanew file) 4 = .ok (file.readLE (lfanew file) 4) :=
    hfile.field (show 0 + 4 ≤ 248 by omega)
  have hmachine : PeImage.checkMachine m m.code = none := by cases m <;> rfl
  unfold checkHeaders
  rw [ByteBlock.read_eq hmagic, Yields.ok_bind, if_neg (not_not.mpr hfile.magic), hlfanew,
    Yields.ok_bind]
  dsimp only
  rw [hheader, hsignature, Yields.ok_bind, if_neg (not_not.mpr hfile.signature),
    hfile.field (by omega), Yields.ok_bind, hfile.machine, hmachine]
  dsimp only
  rw [hfile.field (by omega), Yields.ok_bind, if_neg hfile.dll]
  rfl

/-- What is laid out has the bytes of the sections. -/
theorem WellFormed.ldkpLayOut_spec (hfile : WellFormed m file) :
    Yields (ldkpLayOut m file fun _ => true) fun result => ∃ laid, result = .ok laid ∧
      laid.size = sizeOfImage file ∧ ∀ s ∈ sections file, ∀ i, i < s.sizeOfRawData →
        laid.bytes (s.virtualAddress + i) = file.bytes (s.pointerToRawData + i) := by
  have htable := Nat.le_trans hfile.table hfile.headersInFile
  unfold ldkpLayOut
  rw [hfile.checkHeaders_eq, Yields.ok_bind]
  dsimp only
  rw [hfile.field (by omega), Yields.ok_bind, if_neg (by decide), hfile.field (by omega),
    Yields.ok_bind]
  have hcopy : Yields _ _ := ByteBlock.copyFrom_spec (b := ⟨sizeOfImage file, fun _ => 0⟩)
    (show file.Holds 0 (sizeOfHeaders file) by
      unfold ByteBlock.Holds
      have hinFile := hfile.headersInFile
      omega)
    (show ByteBlock.Holds ⟨sizeOfImage file, fun _ => 0⟩ 0 (sizeOfHeaders file) by
      have hinImage := hfile.headersInImage
      show 0 + sizeOfHeaders file ≤ sizeOfImage file
      omega)
  apply hcopy.bind
  rintro image ⟨hsize, -, -⟩
  rw [hfile.field (by omega), Yields.ok_bind, hfile.field (by omega), Yields.ok_bind]
  have hfits := hfile.fits
  rw [← show image.size = sizeOfImage file from hsize] at hfits
  apply (PeImage.copySections_spec htable hfits hfile.apart).bind
  rintro laid ⟨hlaid, hbytes, -⟩
  exact Yields.ok ⟨laid, rfl, hlaid.trans hsize, hbytes⟩

/-! ## The same bytes -/

section Lookups

variable {x : MappedImage m} (hfile : WellFormed m file) (hx : LoadedFrom m file x)
include hfile hx

/-- The bytes a lookup needs are where the section table says in the file, and at their address in
the image. -/
theorem same_bytes {rva size : Nat} (hbytes : MessageBytes m file rva size) {requiredSize : Nat}
    (hpositive : 0 < requiredSize) (hrequired : requiredSize ≤ size) :
    ∃ p, ldkpPeRvaToFilePointer m file rva requiredSize = .ok (some p) ∧
      fileOffset file rva requiredSize = some p ∧ p + size ≤ file.size ∧
      rva + size ≤ x.image.size ∧
      ∀ i, i < size → x.image.bytes (rva + i) = file.bytes (p + i) := by
  obtain ⟨s, hs, hlow, hhigh⟩ := hfile.initialised rva size hbytes
  obtain ⟨laid, hlaid, himage, hagrees⟩ := hx.laidOut
  obtain ⟨_, hresult, laid', rfl, hsize, hcopied⟩ := hfile.ldkpLayOut_spec
  obtain rfl := Except.ok.inj (Except.ok.inj (hlaid.symm.trans hresult))
  have hfits := hfile.fits s hs
  have hspan := PeImage.rawSize_le_span s
  have hinImage := hfits.inImage
  have hinFile := hfits.inFile
  refine ⟨_, hfile.ldkpPeRvaToFilePointer_eq hs hlow hhigh hpositive hrequired,
    hfile.fileOffset_eq hs hlow hhigh hpositive hrequired, by omega, by omega, ?_⟩
  intro i hi
  rw [hagrees rva size hbytes (rva + i) (Nat.le_add_right _ _) (by omega)]
  have hbyte := hcopied s hs (rva - s.virtualAddress + i) (by omega)
  rw [show s.virtualAddress + (rva - s.virtualAddress + i) = rva + i from by omega,
    ← Nat.add_assoc] at hbyte
  exact hbyte

/-- The resource directories of the file and of the image are the same. -/
theorem same_directory (hresources : HasResources m file) :
    ∃ base, ldkpGetPeResourceDirectory m file =
        .ok (some ⟨file, base, resourceSize m file⟩) ∧
      fileOffset file (resourceRva m file) 16 = some base ∧
      (Root.mk file base (resourceSize m file)).Inside ∧
      (Root.mk x.image (resourceRva m file) (resourceSize m file)).Inside ∧
      (Root.mk x.image (resourceRva m file) (resourceSize m file)).windowed =
        (Root.mk file base (resourceSize m file)).windowed := by
  obtain ⟨base, hpointer, hoffset, hinFile, hinImage, hsame⟩ :=
    same_bytes hfile hx (.inl ⟨hresources, rfl, rfl⟩) (show 0 < 16 by omega) hresources.2
  have hfield : m.resourceField + 8 ≤ 248 := by cases m <;> decide
  have hpresent : ¬ (resourceRva m file = 0 ∨ resourceSize m file < 16) := by
    rw [not_or, Nat.not_lt]
    exact hresources
  refine ⟨base, ?_, hoffset, hinFile, hinImage, ?_⟩
  · unfold ldkpGetPeResourceDirectory
    rw [hfile.findNtHeader, Yields.ok_bind]
    dsimp only
    rw [hfile.field (by omega), Yields.ok_bind, Nat.add_assoc, hfile.field (by omega),
      Yields.ok_bind, ← Nat.add_assoc]
    refine (if_neg hpresent).trans ?_
    rw [show file.readLE (lfanew file + m.resourceField) 4 = resourceRva m file from rfl,
      hpointer]
    rfl
  · unfold Root.windowed
    rw [ByteBlock.window_eq hsame]

/-- Without resources there is no message in either. -/
theorem no_data (hresources : ¬ HasResources m file) (languageId : Nat) :
    ldkpFindMessageResourceData m file languageId = .ok none ∧
      x.ldkpFindMappedMessageResourceData languageId = .ok none := by
  have hfield : m.resourceField + 8 ≤ 248 := by cases m <;> decide
  constructor
  · have hmissing : resourceRva m file = 0 ∨ resourceSize m file < 16 := by
      by_contra hpresent
      rw [not_or, Nat.not_lt] at hpresent
      exact hresources hpresent
    have hdirectory : ldkpGetPeResourceDirectory m file = .ok none := by
      unfold ldkpGetPeResourceDirectory
      rw [hfile.findNtHeader, Yields.ok_bind]
      dsimp only
      rw [hfile.field (by omega), Yields.ok_bind, Nat.add_assoc, hfile.field (by omega),
        Yields.ok_bind, ← Nat.add_assoc]
      exact if_pos hmissing
    unfold ldkpFindMessageResourceData
    rw [hdirectory]
    rfl
  · unfold MappedImage.ldkpFindMappedMessageResourceData
    rw [hx.resource]
    by_cases hrva : resourceRva m file = 0
    · rw [if_pos hrva]
    · rw [if_neg hrva]
      have hsize : resourceSize m file < 16 :=
        Nat.lt_of_not_le fun hsize => hresources ⟨hrva, hsize⟩
      dsimp only
      split
      · rfl
      · rw [Root.findMessageDataEntry_small hsize]
        rfl

/-- The message table for a language: both lookups find its data, and it is the same. -/
structure SameData (m : Machine) (file : ByteBlock) (x : MappedImage m)
    (languageId data address size : Nat) : Prop where
  inFile : ldkpFindMessageResourceData m file languageId = .ok (some (data, size))
  inImage : x.ldkpFindMappedMessageResourceData languageId = .ok (some (address, size))
  table : MessageTable m file languageId address size
  offset : fileOffset file address size = some data
  file_le : data + size ≤ file.size
  image_le : address + size ≤ x.image.size
  same : ∀ i, i < size → x.image.bytes (address + i) = file.bytes (data + i)

theorem same_data (hresources : HasResources m file) (languageId : Nat) :
    (ldkpFindMessageResourceData m file languageId = .ok none ∧
      x.ldkpFindMappedMessageResourceData languageId = .ok none) ∨
    ∃ data address size, SameData m file x languageId data address size := by
  obtain ⟨base, hdirectory, hoffset, hinFile, hinImage, hsame⟩ := same_directory hfile hx hresources
  obtain ⟨dataEntry, hentry, hfound⟩ := Root.findMessageDataEntry_spec hinFile languageId
  have himageData : x.ldkpFindMappedMessageResourceData languageId =
      .ok (dataEntry.map fun e => (e.offsetToData, e.size)) := by
    have hsize : resourceSize m file ≠ 0 := by
      have hroom := hresources.2
      omega
    unfold MappedImage.ldkpFindMappedMessageResourceData
    rw [hx.resource, if_neg hresources.1]
    dsimp only
    rw [if_neg hsize, ← Root.findMessageDataEntry_windowed hinImage, hsame,
      Root.findMessageDataEntry_windowed hinFile, hentry]
    rfl
  cases dataEntry with
  | none =>
    refine .inl ⟨?_, himageData⟩
    unfold ldkpFindMessageResourceData
    rw [hdirectory, Yields.ok_bind]
    dsimp only
    rw [hentry]
    rfl
  | some e =>
    obtain ⟨hroom, p, hp, hvalue⟩ := hfound e rfl
    have htable : MessageTable m file languageId e.offsetToData e.size := by
      rw [hvalue]
      rw [hvalue] at hroom
      exact ⟨hresources, base, hoffset, p, hp, rfl, rfl, hroom⟩
    obtain ⟨data, hpointer, hdata, hfile_le, himage_le, hbytes⟩ :=
      same_bytes hfile hx (.inr ⟨languageId, htable⟩) (show 0 < e.size by omega) (Nat.le_refl _)
    refine .inr ⟨data, _, _, ?_, himageData, htable, hdata, hfile_le, himage_le, hbytes⟩
    unfold ldkpFindMessageResourceData
    rw [hdirectory, Yields.ok_bind]
    dsimp only
    rw [hentry, Yields.ok_bind]
    dsimp only
    rw [hpointer]
    rfl

end Lookups

/-! ## A DLL with one message -/

/-- A file of 624 bytes for a DLL of `amd64`, with one section at 368 that is mapped at 4096 and
holds the resources: a message table in one language with the message 5. -/
def dllBytes : Nat → UInt8
  | 0 => 0x4d | 1 => 0x5a | 60 => 64
  -- the signature, `Machine`, one section, `SizeOfOptionalHeader` and `Characteristics`
  | 64 => 0x50 | 65 => 0x45 | 68 => 0x64 | 69 => 0x86 | 70 => 1 | 84 => 240 | 87 => 0x20
  -- `SizeOfImage`, `SizeOfHeaders` and the resources
  | 145 => 0x11 | 148 => 0x70 | 149 => 1 | 217 => 0x10 | 220 => 112
  -- the section header
  | 337 => 1 | 341 => 0x10 | 345 => 1 | 348 => 0x70 | 349 => 1
  -- the directories for the type, the name and the language, and the data entry
  | 382 => 1 | 384 => 11 | 388 => 24 | 391 => 0x80
  | 406 => 1 | 408 => 1 | 412 => 48 | 415 => 0x80
  | 430 => 1 | 432 => 9 | 433 => 4 | 436 => 72
  | 440 => 0x58 | 441 => 0x10 | 444 => 24
  -- the data: one block with one entry
  | 456 => 1 | 460 => 5 | 464 => 5 | 468 => 16 | 472 => 8
  | _ => 0

def dllFile : ByteBlock := ⟨624, dllBytes⟩

/-- The image of the DLL. -/
def dllImage : MappedImage .amd64 where
  image := ⟨4352, fun i =>
    if 4096 ≤ i then dllBytes (368 + (i - 4096)) else if i < 368 then dllBytes i else 0⟩
  ntHeader := some 64
  resource := some (4096, 112)
  headers_inside p hp := by
    obtain rfl := Option.some.inj hp
    decide
  sizeOfImage_eq p hp := by
    obtain rfl := Option.some.inj hp
    decide
  resource_eq d hd := by
    obtain rfl := Option.some.inj hd
    exact ⟨64, rfl, by decide⟩

theorem dllFile_sections : sections dllFile = [⟨4096, 256, 256, 368⟩] := by decide

theorem dllFile_directory : fileOffset dllFile (resourceRva .amd64 dllFile) 16 = some 368 := by
  decide

/-- There is one message table. -/
theorem dllFile_table {languageId rva size : Nat}
    (h : MessageTable .amd64 dllFile languageId rva size) : rva = 4184 ∧ size = 24 := by
  obtain ⟨-, base, hbase, p, hp, hrva, hsize, -⟩ := h
  rw [dllFile_directory] at hbase
  obtain rfl := Option.some.inj hbase
  have hp : p = 72 :=
    (hp.only (show _ = 24 by decide) (show _ = 48 by decide) (by decide)).trans (by decide)
  subst hp
  exact ⟨hrva.trans (by decide), hsize.trans (by decide)⟩

theorem dllFile_bytes {rva size : Nat} (h : MessageBytes .amd64 dllFile rva size) :
    4096 ≤ rva ∧ rva + size ≤ 4096 + 256 := by
  rcases h with ⟨-, hrva, hsize⟩ | ⟨languageId, htable⟩
  · have hrva : rva = 4096 := hrva.trans (by decide)
    have hsize : size = 112 := hsize.trans (by decide)
    omega
  · obtain ⟨hrva, hsize⟩ := dllFile_table htable
    omega

theorem dllFile_wellFormed : WellFormed .amd64 dllFile where
  ulong := by decide
  magic := by decide
  positive := by decide
  signature := by decide
  machine := by decide
  dll := by decide
  headers := by decide
  table := by decide
  headersInFile := by decide
  headersInImage := by decide
  fits s hs := by
    rw [dllFile_sections, List.mem_singleton] at hs
    subst hs
    exact ⟨by decide, by decide⟩
  apart := by
    rw [dllFile_sections]
    exact List.pairwise_singleton _ _
  initialised rva size h := by
    refine ⟨⟨4096, 256, 256, 368⟩, ?_, dllFile_bytes h⟩
    rw [dllFile_sections]
    exact List.mem_singleton_self _
  blocks languageId rva size h data hdata messageId i j hi hj := by
    obtain ⟨rfl, rfl⟩ := dllFile_table h
    have hoffset : fileOffset dllFile 4184 24 = some 456 := by decide
    rw [hoffset] at hdata
    obtain rfl := Option.some.inj hdata
    have hcount : numberOfBlocks dllFile 456 = 1 := by decide
    have hi := hi.1
    have hj := hj.1
    omega

theorem dllImage_bytes {i : Nat} (h : 4096 ≤ i) :
    dllImage.image.bytes i = dllFile.bytes (368 + (i - 4096)) := by
  simp only [dllImage, dllFile, if_pos h]

theorem dllImage_loaded : LoadedFrom .amd64 dllFile dllImage where
  laidOut := by
    obtain ⟨_, hresult, laid, rfl, hsize, hcopied⟩ := dllFile_wellFormed.ldkpLayOut_spec
    have hsizeOfImage : sizeOfImage dllFile = 4352 := by decide
    refine ⟨laid, hresult, (hsize.trans hsizeOfImage).symm, ?_⟩
    intro rva size h i hlow hhigh
    have hrange := dllFile_bytes h
    have hmem : ⟨4096, 256, 256, 368⟩ ∈ sections dllFile := by
      rw [dllFile_sections]
      exact List.mem_singleton_self _
    have hbyte := hcopied _ hmem (i - 4096) (show i - 4096 < 256 by omega)
    rw [Nat.add_sub_cancel' (show 4096 ≤ i by omega)] at hbyte
    exact (dllImage_bytes (by omega)).trans hbyte.symm
  resource := by decide

end Ldk.Resource
