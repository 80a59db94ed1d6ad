import Ldk.Resource.Message

/-!
# Lookups that stay inside

Where the checks hold that `winbase.c` does not make, every lookup of a resource or of a message
ends and reads inside of the file or of the image alone.

- `ldkpPeRvaToFilePointer_spec`: the search of the section table, against the table as a list.
- `findMessageDataEntry_spec`: the three levels of directories lead to an entry of the format.
- `ldkpFindMessageResourceEntry_spec`: in data that is inside there is nothing left to check.
- `ldkpGetPeResourceDirectory_faults`: without the headers inside, the resources are not found.
- `message_lookups_stay_inside`: the lookups as a whole.
- `headers_inside_of_le`: a file as long as the headers needs no check for them.
- `dos_header_is_read_past`: a file that is its DOS header.
-/

namespace Ldk.Resource

open ByteBlock (Fault)
open PeImage (Machine)

variable {m : Machine} {image : ByteBlock}

/-! ## Headers -/

theorem findNtHeader_spec (hsize : 64 ≤ image.size)
    (hsignature : AcceptsDosHeader m image → lfanew image + 4 ≤ image.size) :
    Yields (findNtHeader m image) fun found => ∀ p ∈ found,
      p = lfanew image ∧ AcceptsDosHeader m image ∧ image.readLE (lfanew image) 4 = 0x4550 := by
  have hmagic : image.Holds 0 2 := show 0 + 2 ≤ image.size by omega
  have hlfanew : image.Holds 60 4 := hsize
  unfold findNtHeader
  rw [ByteBlock.read_eq hmagic]
  apply Yields.ite
  · exact fun _ => Yields.ok nofun
  · intro hmz
    rw [ByteBlock.read_eq hlfanew]
    apply Yields.ite
    · exact fun _ => Yields.ok nofun
    · intro hrange
      rw [not_or, Nat.not_le, Nat.not_lt] at hrange
      have haccepts : AcceptsDosHeader m image := ⟨not_not.mp hmz, hrange⟩
      have hholds : image.Holds (image.readLE 60 4) 4 := hsignature haccepts
      rw [ByteBlock.read_eq hholds]
      apply Yields.ok
      intro p hp
      by_cases hpe : image.readLE (image.readLE 60 4) 4 = 0x4550
      · rw [if_pos hpe] at hp
        obtain rfl := Option.some.inj hp
        exact ⟨rfl, haccepts, hpe⟩
      · rw [if_neg hpe] at hp
        cases hp

/-- In a file that is as long as the headers, the check of `e_lfanew` is as it should be. -/
theorem headers_inside_of_le (hle : m.ntHeadersSize ≤ image.size) (hulong : image.size < 2 ^ 32)
    (h : AcceptsDosHeader m image) : lfanew image + m.ntHeadersSize ≤ image.size := by
  have hlast : lfanew image ≤ lastNtHeader m image := h.2.2
  have hexact : lastNtHeader m image = image.size - m.ntHeadersSize := by
    have hpointer : 2 ^ 32 ≤ 256 ^ m.pointerSize := by cases m <;> decide
    unfold lastNtHeader Machine.ulongPtr
    rw [show image.size + 256 ^ m.pointerSize - m.ntHeadersSize =
      image.size - m.ntHeadersSize + 256 ^ m.pointerSize from by omega, Nat.add_mod_right]
    exact Nat.mod_eq_of_lt (by omega)
  omega

/-! ## Sections -/

theorem readSection_eq {p : Nat} (h : p + 24 ≤ image.size) :
    readSection image p = .ok (sectionAt image p) := by
  have hsection : ∀ {offset}, offset + 4 ≤ 24 → image.Holds (p + offset) 4 := by
    intro offset hoffset
    show p + offset + 4 ≤ image.size
    omega
  unfold readSection
  rw [ByteBlock.read_eq (hsection (by decide)), ByteBlock.read_eq (hsection (by decide)),
    ByteBlock.read_eq (hsection (by decide)), ByteBlock.read_eq (hsection (by decide))]
  rfl

/-- The loop finds the first section that covers the address. -/
theorem searchSections_spec {rva requiredSize n p : Nat}
    (h : SearchedInside image rva requiredSize n p) :
    Yields (searchSections image rva requiredSize n p) fun found =>
      found = ((sectionsFrom image n p).find? fun s => s.Covers rva requiredSize).bind
        fun s => s.filePointer image.size rva requiredSize := by
  induction n generalizing p with
  | zero => exact Yields.ok rfl
  | succ n ih =>
    unfold searchSections sectionsFrom
    rw [readSection_eq h.1]
    apply Yields.ite
    · intro hcovers
      apply Yields.ok
      rw [List.find?_cons_of_pos (by exact decide_eq_true hcovers)]
      rfl
    · intro hnot
      rw [List.find?_cons_of_neg (by simpa using hnot)]
      exact ih (h.2 hnot)

/-- A header that is not inside is read past. -/
theorem readSection_faults {p : Nat} (h : image.size < p + 24) : Faults (readSection image p) := by
  have houtside : ¬ image.Holds (p + 20) 4 := Nat.not_le.mpr h
  unfold readSection
  -- the last of the fields that are read is outside, if none before it is
  have hread : ∀ offset, Yields (image.read (p + offset) 4) (fun _ => True) ∨
      Faults (image.read (p + offset) 4) := by
    intro offset
    by_cases hholds : image.Holds (p + offset) 4
    · exact .inl ⟨_, ByteBlock.read_eq hholds, trivial⟩
    · exact .inr (ByteBlock.read_faults hholds)
  rcases hread 12 with haddress | haddress
  · apply Faults.of_yields haddress
    intro _ _
    rcases hread 8 with hvirtual | hvirtual
    · apply Faults.of_yields hvirtual
      intro _ _
      rcases hread 16 with hraw | hraw
      · apply Faults.of_yields hraw
        exact fun _ _ => (ByteBlock.read_faults houtside).bind _
      · exact hraw.bind _
    · exact hvirtual.bind _
  · exact haddress.bind _

theorem searchSections_faults {rva requiredSize n p : Nat}
    (h : ¬ SearchedInside image rva requiredSize n p) :
    Faults (searchSections image rva requiredSize n p) := by
  induction n generalizing p with
  | zero => exact absurd trivial h
  | succ n ih =>
    unfold searchSections
    by_cases hinside : p + 24 ≤ image.size
    · have hrest : ¬ (sectionAt image p).Covers rva requiredSize ∧
          ¬ SearchedInside image rva requiredSize n (p + 40) := by
        by_contra hnot
        exact h ⟨hinside, fun hcovers => by_contra fun hsearched => hnot ⟨hcovers, hsearched⟩⟩
      rw [readSection_eq hinside, Yields.ok_bind, if_neg hrest.1]
      exact ih hrest.2
    · exact (readSection_faults (Nat.lt_of_not_le hinside)).bind _

/-- A pointer into a section is checked against the file. -/
theorem Section.filePointer_inside {s : Section} {imageSize rva requiredSize p : Nat}
    (hfits : requiredSize ≤ imageSize) (h : s.filePointer imageSize rva requiredSize = some p) :
    p + requiredSize ≤ imageSize := by
  unfold Section.filePointer at h
  dsimp only at h
  split at h
  · cases h
  · obtain rfl := Option.some.inj h
    omega

theorem fileOffset_inside {rva requiredSize p : Nat} (hfits : requiredSize ≤ image.size)
    (h : fileOffset image rva requiredSize = some p) : p + requiredSize ≤ image.size := by
  obtain ⟨s, -, hs⟩ := Option.bind_eq_some_iff.mp h
  exact Section.filePointer_inside hfits hs

theorem ldkpPeRvaToFilePointer_spec (hsize : 64 ≤ image.size) (hb : HeadersInside m image)
    (haccepts : AcceptsResources m image) {rva requiredSize : Nat}
    (htable : requiredSize ≤ image.size → TableInside image rva requiredSize) :
    Yields (ldkpPeRvaToFilePointer m image rva requiredSize) fun found => ∀ p ∈ found,
      fileOffset image rva requiredSize = some p ∧ p + requiredSize ≤ image.size := by
  unfold ldkpPeRvaToFilePointer
  apply Yields.ite
  · exact fun _ => Yields.ok nofun
  · intro hfits
    apply (findNtHeader_spec hsize hb.signature).bind
    intro found hfound
    cases found with
    | none => exact Yields.ok nofun
    | some p =>
      obtain ⟨rfl, -, hpe⟩ := hfound p rfl
      have hheaders := hb.directory haccepts.1 hpe
      have hfield : 136 ≤ m.resourceField := by cases m <;> decide
      have hoptional : image.Holds (lfanew image + 20) 2 :=
        show lfanew image + 20 + 2 ≤ image.size by omega
      have hnumber : image.Holds (lfanew image + 6) 2 :=
        show lfanew image + 6 + 2 ≤ image.size by omega
      dsimp only
      rw [ByteBlock.read_eq hoptional, ByteBlock.read_eq hnumber]
      apply (searchSections_spec (htable (Nat.le_of_not_lt hfits))).mono
      rintro found rfl p hp
      exact ⟨hp, fileOffset_inside (Nat.le_of_not_lt hfits) hp⟩

theorem ldkpGetPeResourceDirectory_spec (hsize : 64 ≤ image.size) (hb : FileBounded m image) :
    Yields (ldkpGetPeResourceDirectory m image) fun found => ∀ r ∈ found,
      AcceptsResources m image ∧ ∃ base ∈ fileOffset image (resourceRva m image) 16,
        r = ⟨image, base, resourceSize m image⟩ ∧ r.Inside := by
  unfold ldkpGetPeResourceDirectory
  apply (findNtHeader_spec hsize hb.signature).bind
  intro found hfound
  cases found with
  | none => exact Yields.ok nofun
  | some p =>
    obtain ⟨rfl, hdos, hpe⟩ := hfound p rfl
    have hheaders := hb.directory hdos hpe
    have hrva : image.Holds (lfanew image + m.resourceField) 4 :=
      show lfanew image + m.resourceField + 4 ≤ image.size by omega
    have hdirectory : image.Holds (lfanew image + m.resourceField + 4) 4 :=
      show lfanew image + m.resourceField + 4 + 4 ≤ image.size by omega
    dsimp only
    rw [ByteBlock.read_eq hrva, ByteBlock.read_eq hdirectory]
    apply Yields.ite
    · exact fun _ => Yields.ok nofun
    · intro hresources
      rw [not_or, Nat.not_lt] at hresources
      have haccepts : AcceptsResources m image := ⟨hdos, hpe, hresources⟩
      apply (ldkpPeRvaToFilePointer_spec hsize hb.toHeadersInside haccepts
        fun _ => hb.sections haccepts).bind
      intro base hbase
      cases base with
      | none => exact Yields.ok nofun
      | some base =>
        have hbase := (hbase base rfl).1
        apply Yields.ok
        intro r hr
        obtain rfl := Option.some.inj hr
        exact ⟨haccepts, base, hbase, rfl, hb.resources haccepts base hbase⟩

/-! ## The data entry of a message table -/

namespace Root

variable {r : Root}

theorem subdirectory_spec (hr : r.Inside) {entry : Nat} (h : r.Entry entry) :
    Yields (r.subdirectory entry) fun found => ∀ d ∈ found, d = lowBits (r.offset entry) := by
  unfold subdirectory
  rw [readOffset_eq hr h]
  apply Yields.ok
  intro d hd
  split at hd
  · exact (Option.some.inj hd).symm
  · cases hd

/-- A data entry is read where the directory says it is. -/
theorem readDataEntry_spec (hr : r.Inside) {p : Nat}
    (h : LdkpResourceOffsetIsValid p r.size 16) :
    Yields (r.readDataEntry p) fun dataEntry =>
      dataEntry = ⟨r.image.readLE (r.base + p) 4, r.image.readLE (r.base + p + 4) 4⟩ := by
  have hle := h.le
  have hoffset : r.image.Holds (r.base + p) 4 := holds_of_le hr (by omega)
  have hsize : r.image.Holds (r.base + (p + 4)) 4 := holds_of_le hr (by omega)
  unfold readDataEntry
  rw [Nat.add_assoc, ByteBlock.read_eq hoffset, ByteBlock.read_eq hsize]
  exact Yields.ok rfl

theorem languageEntry_spec (hr : r.Inside) (directory languageId : Nat) :
    Yields (r.languageEntry directory languageId) fun found => ∀ e ∈ found,
      r.Entry e ∧ (languageId ≠ 0 ∧ r.FirstEntry directory (r.HasId languageId) e ∨
        r.FirstEntry directory (fun _ => True) e) := by
  have hfirst : Yields (r.ldkpGetFirstResourceDirectoryEntry directory) fun found => ∀ e ∈ found,
      r.Entry e ∧ (languageId ≠ 0 ∧ r.FirstEntry directory (r.HasId languageId) e ∨
        r.FirstEntry directory (fun _ => True) e) := by
    apply (ldkpGetFirstResourceDirectoryEntry_spec hr directory).mono
    intro found hfound e he
    exact ⟨(hfound e he).1, .inr (hfound e he).2⟩
  unfold languageEntry
  apply Yields.ite
  · exact fun _ => hfirst
  · intro hlanguage
    apply (ldkpFindResourceDirectoryEntryById_spec hr directory languageId).bind
    intro found hfound
    cases found with
    | none => exact hfirst
    | some entry =>
      apply Yields.ok
      intro e he
      obtain rfl := Option.some.inj he
      obtain ⟨hentry, hid⟩ := hfound entry rfl
      exact ⟨hentry, .inl ⟨hlanguage, hid⟩⟩

/-- The three levels of directories lead to an entry of the format. -/
theorem findMessageDataEntry_spec (hr : r.Inside) (languageId : Nat) :
    Yields (r.findMessageDataEntry languageId) fun found => ∀ dataEntry ∈ found,
      16 ≤ dataEntry.size ∧ ∃ p, r.MessageDataAt languageId p ∧
        dataEntry = ⟨r.image.readLE (r.base + p) 4, r.image.readLE (r.base + p + 4) 4⟩ := by
  unfold findMessageDataEntry
  apply (ldkpFindResourceDirectoryEntryById_spec hr 0 11).bind
  intro typeFound htype
  cases typeFound with
  | none => exact Yields.ok nofun
  | some typeEntry =>
    obtain ⟨hinType, htype⟩ := htype typeEntry rfl
    apply (subdirectory_spec hr hinType).bind
    intro typeDirectory htypeDirectory
    cases typeDirectory with
    | none => exact Yields.ok nofun
    | some typeDirectory =>
      obtain rfl := htypeDirectory typeDirectory rfl
      apply (ldkpGetFirstResourceDirectoryEntry_spec hr _).bind
      intro nameFound hname
      cases nameFound with
      | none => exact Yields.ok nofun
      | some nameEntry =>
        obtain ⟨hinName, hname⟩ := hname nameEntry rfl
        apply (subdirectory_spec hr hinName).bind
        intro nameDirectory hnameDirectory
        cases nameDirectory with
        | none => exact Yields.ok nofun
        | some nameDirectory =>
          obtain rfl := hnameDirectory nameDirectory rfl
          apply (languageEntry_spec hr _ languageId).bind
          intro languageFound hlanguage
          cases languageFound with
          | none => exact Yields.ok nofun
          | some languageEntry =>
            obtain ⟨hinLanguage, hlanguage⟩ := hlanguage languageEntry rfl
            dsimp only
            rw [readOffset_eq hr hinLanguage]
            apply Yields.ite
            · exact fun _ => Yields.ok nofun
            · intro hvalid
              have hvalid := not_not.mp (not_or.mp hvalid).2
              apply (readDataEntry_spec hr hvalid).bind
              rintro dataEntry rfl
              apply Yields.ok
              intro dataEntry hdata
              split at hdata
              · cases hdata
              · obtain rfl := Option.some.inj hdata
                exact ⟨Nat.le_of_not_lt ‹_›, _,
                  ⟨typeEntry, nameEntry, languageEntry, htype, hname, hlanguage, rfl⟩, rfl⟩

theorem requestedLanguageEntry_spec (hr : r.Inside) (directory language : Nat) :
    Yields (r.requestedLanguageEntry directory language) fun found => ∀ e ∈ found, r.Entry e := by
  unfold requestedLanguageEntry
  apply Yields.ite
  · intro _
    apply (ldkpFindResourceDirectoryEntryById_spec hr directory language).mono
    exact fun _ hfound e he => (hfound e he).1
  · intro _
    apply (ldkpGetFirstResourceDirectoryEntry_spec hr directory).mono
    exact fun _ hfound e he => (hfound e he).1

theorem requireSubdirectory_spec (hr : r.Inside) (notFound : ResourceError) {found : Option Nat}
    (h : ∀ e ∈ found, r.Entry e) :
    Yields (r.requireSubdirectory notFound found) fun _ => True := by
  cases found with
  | none => exact Yields.ok trivial
  | some entry =>
    unfold requireSubdirectory
    dsimp only
    rw [readOffset_eq hr (h entry rfl)]
    apply Yields.ite
    · exact fun _ => Yields.ok trivial
    · intro _
      apply Yields.ite
      · exact fun _ => Yields.ok trivial
      · exact fun _ => Yields.ok trivial

end Root

/-! ## Messages in their data -/

section Messages

variable {data size messageId rounds : Nat}

/-- The loop over the entries is at the message before it has passed the block. -/
theorem searchEntries_spec (hinside : data + size ≤ image.size) (hulong : size < 2 ^ 32)
    {highId id entry : Nat} (hid : id ≤ messageId) (hhigh : messageId ≤ highId)
    (hmessage : messageId < 2 ^ 32) (hrounds : messageId - id < rounds) (hentry : entry ≤ size) :
    Yields (searchEntries image data size messageId highId rounds id entry) fun _ => True := by
  induction rounds generalizing id entry with
  | zero => exact absurd hrounds (Nat.not_lt_zero _)
  | succ rounds ih =>
    unfold searchEntries
    rw [Nat.mod_eq_of_lt (by omega : entry < 2 ^ 32)]
    apply Yields.ite
    · exact fun hpassed => absurd hpassed (by omega)
    · intro _
      apply Yields.ite
      · exact fun _ => Yields.ok trivial
      · intro hheader
        have hheader := (not_not.mp hheader).le
        have hholds : image.Holds (data + entry) 2 := show data + entry + 2 ≤ image.size by omega
        rw [ByteBlock.read_eq hholds]
        apply Yields.ite
        · exact fun _ => Yields.ok trivial
        · intro _
          apply Yields.ite
          · exact fun _ => Yields.ok trivial
          · intro hlength
            have hlength := (not_not.mp hlength).le
            apply Yields.ite
            · exact fun _ => Yields.ok trivial
            · intro hother
              have hnext : (id + 1) % 2 ^ 32 = id + 1 := Nat.mod_eq_of_lt (by omega)
              rw [hnext]
              exact ih (by omega) (by omega) hlength

/-- The blocks are inside as far as there are as many. -/
theorem searchBlocks_spec (hinside : data + size ≤ image.size) (hulong : size < 2 ^ 32)
    (hmessage : messageId < 2 ^ 32) (hrounds : 2 ^ 32 ≤ rounds) {n block : Nat}
    (hblocks : block + 12 * n ≤ size) :
    Yields (searchBlocks image data size messageId rounds n block) fun _ => True := by
  induction n generalizing block with
  | zero => exact Yields.ok trivial
  | succ n ih =>
    have hlow : image.Holds (data + block) 4 := show data + block + 4 ≤ image.size by omega
    have hhigh : image.Holds (data + block + 4) 4 :=
      show data + block + 4 + 4 ≤ image.size by omega
    have hoffset : image.Holds (data + block + 8) 4 :=
      show data + block + 8 + 4 ≤ image.size by omega
    unfold searchBlocks
    rw [ByteBlock.read_eq hlow, ByteBlock.read_eq hhigh, ByteBlock.read_eq hoffset]
    apply Yields.ite
    · exact fun _ => ih (by omega)
    · intro hrange
      apply Yields.ite
      · exact fun _ => Yields.ok trivial
      · intro hvalid
        have hvalid := (not_not.mp hvalid).le
        apply (searchEntries_spec hinside hulong (by omega) (by omega) hmessage (by omega)
          (by omega)).bind
        intro found _
        cases found with
        | none => exact ih (by omega)
        | some found => exact Yields.ok trivial

theorem ldkpFindMessageResourceEntry_spec (hinside : data + size ≤ image.size)
    (hulong : size < 2 ^ 32) (hmessage : messageId < 2 ^ 32) (hrounds : 2 ^ 32 ≤ rounds) :
    Yields (ldkpFindMessageResourceEntry image data size messageId rounds) fun _ => True := by
  unfold ldkpFindMessageResourceEntry
  apply Yields.ite
  · exact fun _ => Yields.ok trivial
  · intro hsize
    have hnumber : image.Holds data 4 := show data + 4 ≤ image.size by omega
    rw [ByteBlock.read_eq hnumber]
    apply Yields.ite
    · exact fun _ => Yields.ok trivial
    · intro hroom
      have hroom := Nat.mul_le_of_le_div 12 _ _ (Nat.le_of_not_lt hroom)
      exact searchBlocks_spec hinside hulong hmessage hrounds (by omega)

end Messages

/-! ## The lookups as a whole -/

theorem fileLookupsStayInside (hsize : 64 ≤ image.size) (hb : FileBounded m image) :
    FileLookupsStayInside m image := by
  intro rounds languageId messageId hrounds hmessage
  have hdata : Yields (ldkpFindMessageResourceData m image languageId) fun found =>
      ∀ d ∈ found, d.1 + d.2 ≤ image.size ∧ d.2 < 2 ^ 32 := by
    unfold ldkpFindMessageResourceData
    apply (ldkpGetPeResourceDirectory_spec hsize hb).bind
    intro r hr
    cases r with
    | none => exact Yields.ok nofun
    | some r =>
      obtain ⟨haccepts, base, hbase, rfl, hinside⟩ := hr r rfl
      apply (Root.findMessageDataEntry_spec hinside languageId).bind
      intro dataEntry hdataEntry
      cases dataEntry with
      | none => exact Yields.ok nofun
      | some dataEntry =>
        obtain ⟨hroom, p, hp, rfl⟩ := hdataEntry dataEntry rfl
        apply (ldkpPeRvaToFilePointer_spec hsize hb.toHeadersInside haccepts
          (hb.data haccepts base hbase languageId p hp hroom)).bind
        intro data hdata
        apply Yields.ok
        intro d hd
        obtain ⟨data, hsome, rfl⟩ := Option.map_eq_some_iff.mp hd
        exact ⟨(hdata data hsome).2, ByteBlock.readLE_lt⟩
  unfold findMessageInFile
  apply hdata.bind
  intro found hfound
  cases found with
  | none => exact Yields.ok trivial
  | some d =>
    obtain ⟨hinside, hulong⟩ := hfound d rfl
    exact ldkpFindMessageResourceEntry_spec hinside hulong hmessage hrounds

namespace MappedImage

variable {x : MappedImage m}

/-- The check of the data against `SizeOfImage` reads the headers. -/
theorem ldkpMappedImageRvaToPointer_spec (x : MappedImage m) (rva requiredSize : Nat) :
    Yields (x.ldkpMappedImageRvaToPointer rva requiredSize) fun _ => True := by
  unfold ldkpMappedImageRvaToPointer
  cases hnt : x.ntHeader with
  | none => exact Yields.ok trivial
  | some ntHeader =>
    have hheaders := x.headers_inside ntHeader hnt
    have hnt : 248 ≤ m.ntHeadersSize := by cases m <;> decide
    have hholds : x.image.Holds (ntHeader + 80) 4 :=
      show ntHeader + 80 + 4 ≤ x.image.size by omega
    dsimp only
    rw [ByteBlock.read_eq hholds]
    exact Yields.ok trivial

theorem ldkpFindMappedResourceDataEntry_spec (hb : x.Bounded) (type name : Name)
    (language : Nat) :
    Yields (x.ldkpFindMappedResourceDataEntry type name language) fun _ => True := by
  unfold ldkpFindMappedResourceDataEntry
  apply Yields.ite
  · exact fun _ => Yields.ok trivial
  intro _
  apply Yields.ite
  · exact fun _ => Yields.ok trivial
  intro _
  cases hresource : x.resource with
  | none => exact Yields.ok trivial
  | some d =>
    obtain ⟨base, size⟩ := d
    apply Yields.ite
    · exact fun _ => Yields.ok trivial
    intro hsize
    have hr : (Root.mk x.image base size).Inside := hb.resources (base, size) hresource hsize
    apply (Root.ldkpFindResourceDirectoryEntry_spec hr 0 type).bind
    intro typeEntry htype
    apply (Root.requireSubdirectory_spec hr .typeNotFound htype).bind
    intro typeDirectory _
    cases typeDirectory with
    | error errorCode => exact Yields.ok trivial
    | ok typeDirectory =>
      apply (Root.ldkpFindResourceDirectoryEntry_spec hr typeDirectory name).bind
      intro nameEntry hname
      apply (Root.requireSubdirectory_spec hr .nameNotFound hname).bind
      intro nameDirectory _
      cases nameDirectory with
      | error errorCode => exact Yields.ok trivial
      | ok nameDirectory =>
        apply (Root.requestedLanguageEntry_spec hr nameDirectory language).bind
        intro languageEntry hentry
        cases languageEntry with
        | none => exact Yields.ok trivial
        | some languageEntry =>
          dsimp only
          rw [Root.readOffset_eq hr (hentry languageEntry rfl)]
          apply Yields.ite
          · exact fun _ => Yields.ok trivial
          intro _
          apply Yields.ite
          · exact fun _ => Yields.ok trivial
          intro hvalid
          apply (Root.readDataEntry_spec hr (not_not.mp hvalid)).bind
          intro dataEntry _
          apply (ldkpMappedImageRvaToPointer_spec x _ _).bind
          intro pointer _
          cases pointer with
          | none => exact Yields.ok trivial
          | some pointer => exact Yields.ok trivial

theorem ldkpFindMessageInMappedImage_spec (hb : x.Bounded) {messageId rounds : Nat}
    (hrounds : 2 ^ 32 ≤ rounds) (hmessage : messageId < 2 ^ 32) (languageId : Nat) :
    Yields (x.ldkpFindMessageInMappedImage messageId rounds languageId) fun _ => True := by
  have hdata : Yields (x.ldkpFindMappedMessageResourceData languageId) fun found =>
      ∀ d ∈ found, d.1 + d.2 ≤ x.image.size ∧ d.2 < 2 ^ 32 := by
    unfold ldkpFindMappedMessageResourceData
    cases hresource : x.resource with
    | none => exact Yields.ok nofun
    | some d =>
      obtain ⟨base, size⟩ := d
      apply Yields.ite
      · exact fun _ => Yields.ok nofun
      intro hsize
      have hr : (Root.mk x.image base size).Inside := hb.resources (base, size) hresource hsize
      apply (Root.findMessageDataEntry_spec hr languageId).bind
      intro dataEntry hdataEntry
      apply Yields.ok
      intro d hd
      obtain ⟨e, hsome, rfl⟩ := Option.map_eq_some_iff.mp hd
      obtain ⟨hroom, p, hp, rfl⟩ := hdataEntry e hsome
      exact ⟨hb.messages (base, size) hresource hsize languageId p hp hroom,
        ByteBlock.readLE_lt⟩
  unfold ldkpFindMessageInMappedImage
  apply hdata.bind
  intro found hfound
  cases found with
  | none => exact Yields.ok trivial
  | some d =>
    obtain ⟨hinside, hulong⟩ := hfound d rfl
    exact ldkpFindMessageResourceEntry_spec hinside hulong hmessage hrounds

end MappedImage

/-! ## What each lookup needs -/

theorem findNtHeader_eq (hsize : 64 ≤ image.size) (haccepts : AcceptsDosHeader m image)
    (hsignature : lfanew image + 4 ≤ image.size)
    (hpe : image.readLE (lfanew image) 4 = 0x4550) :
    findNtHeader m image = .ok (some (lfanew image)) := by
  have hmagic : image.Holds 0 2 := show 0 + 2 ≤ image.size by omega
  have hlfanew : image.Holds 60 4 := hsize
  have hrange : ¬ (2 ^ 31 ≤ image.readLE 60 4 ∨ lastNtHeader m image < image.readLE 60 4) := by
    rw [not_or, Nat.not_le, Nat.not_lt]
    exact haccepts.2
  have hholds : image.Holds (image.readLE 60 4) 4 := hsignature
  have hpe : image.readLE (image.readLE 60 4) 4 = 0x4550 := hpe
  unfold findNtHeader
  rw [ByteBlock.read_eq hmagic, Yields.ok_bind, if_neg (not_not.mpr haccepts.1),
    ByteBlock.read_eq hlfanew, Yields.ok_bind, if_neg hrange, ByteBlock.read_eq hholds,
    Yields.ok_bind, if_pos hpe]
  rfl

/-- An accepted DOS header that leads outside. -/
theorem findNtHeader_faults (hsize : 64 ≤ image.size) (haccepts : AcceptsDosHeader m image)
    (houtside : image.size < lfanew image + 4) : Faults (findNtHeader m image) := by
  have hmagic : image.Holds 0 2 := show 0 + 2 ≤ image.size by omega
  have hlfanew : image.Holds 60 4 := hsize
  have hrange : ¬ (2 ^ 31 ≤ image.readLE 60 4 ∨ lastNtHeader m image < image.readLE 60 4) := by
    rw [not_or, Nat.not_le, Nat.not_lt]
    exact haccepts.2
  have hsignature : ¬ image.Holds (image.readLE 60 4) 4 := Nat.not_le.mpr houtside
  unfold findNtHeader
  rw [ByteBlock.read_eq hmagic, Yields.ok_bind, if_neg (not_not.mpr haccepts.1),
    ByteBlock.read_eq hlfanew, Yields.ok_bind, if_neg hrange]
  exact (ByteBlock.read_faults hsignature).bind _

/-- The fields of the data directory are read one after the other. -/
theorem directory_faults {β : Type} {field : Nat} (h : image.size < field + 8)
    (f : Nat → Nat → Except Fault β) :
    Faults (image.read field 4 >>= fun rva => image.read (field + 4) 4 >>= f rva) := by
  have hsize : ¬ image.Holds (field + 4) 4 := by
    apply Nat.not_le.mpr
    show image.size < field + 4 + 4
    omega
  by_cases hrva : image.Holds field 4
  · rw [ByteBlock.read_eq hrva, Yields.ok_bind]
    exact (ByteBlock.read_faults hsize).bind _
  · exact (ByteBlock.read_faults hrva).bind _

/-- No lookup gets to the resources of a file when the headers are not inside. -/
theorem ldkpGetPeResourceDirectory_faults (hsize : 64 ≤ image.size)
    (h : ¬ HeadersInside m image) : Faults (ldkpGetPeResourceDirectory m image) := by
  by_contra hsafe
  apply h
  have hsignature : AcceptsDosHeader m image → lfanew image + 4 ≤ image.size := by
    intro haccepts
    by_contra hnot
    exact hsafe ((findNtHeader_faults hsize haccepts (Nat.lt_of_not_le hnot)).bind _)
  have hdirectory : AcceptsDosHeader m image → image.readLE (lfanew image) 4 = 0x4550 →
      lfanew image + m.resourceField + 8 ≤ image.size := by
    intro haccepts hpe
    by_contra hnot
    apply hsafe
    unfold ldkpGetPeResourceDirectory
    rw [findNtHeader_eq hsize haccepts (hsignature haccepts) hpe, Yields.ok_bind]
    exact directory_faults (Nat.lt_of_not_le hnot) _
  refine ⟨hsignature, hdirectory, ?_⟩
  rintro ⟨haccepts, hpe, hresources⟩
  by_contra hnot
  apply hsafe
  have hinside := hdirectory haccepts hpe
  have hfield : 136 ≤ m.resourceField := by cases m <;> decide
  have hrva : image.Holds (lfanew image + m.resourceField) 4 :=
    show lfanew image + m.resourceField + 4 ≤ image.size by omega
  have hdirectorySize : image.Holds (lfanew image + m.resourceField + 4) 4 :=
    show lfanew image + m.resourceField + 4 + 4 ≤ image.size by omega
  have hoptional : image.Holds (lfanew image + 20) 2 :=
    show lfanew image + 20 + 2 ≤ image.size by omega
  have hnumber : image.Holds (lfanew image + 6) 2 :=
    show lfanew image + 6 + 2 ≤ image.size by omega
  have hpresent : ¬ (image.readLE (lfanew image + m.resourceField) 4 = 0 ∨
      image.readLE (lfanew image + m.resourceField + 4) 4 < 16) := by
    rw [not_or, Nat.not_lt]
    exact hresources
  have hheader := findNtHeader_eq hsize haccepts (hsignature haccepts) hpe
  have hpointer : Faults (ldkpPeRvaToFilePointer m image (resourceRva m image) 16) := by
    unfold ldkpPeRvaToFilePointer
    rw [if_neg (by omega), hheader, Yields.ok_bind]
    dsimp only
    rw [ByteBlock.read_eq hoptional, Yields.ok_bind, ByteBlock.read_eq hnumber, Yields.ok_bind]
    exact searchSections_faults hnot
  unfold ldkpGetPeResourceDirectory
  rw [hheader, Yields.ok_bind]
  dsimp only
  rw [ByteBlock.read_eq hrva, Yields.ok_bind, ByteBlock.read_eq hdirectorySize, Yields.ok_bind,
    if_neg hpresent]
  exact hpointer.bind _

theorem not_lookups_of_not_headersInside (hsize : 64 ≤ image.size)
    (h : ¬ HeadersInside m image) : ¬ FileLookupsStayInside m image := by
  intro hinside
  have hfaults : Faults (findMessageInFile m image 0 (2 ^ 32) 0) :=
    ((ldkpGetPeResourceDirectory_faults hsize h).bind _).bind _
  exact hfaults.not_yields (hinside (2 ^ 32) 0 0 (Nat.le_refl _) (by omega))

/-- A file of 608 bytes with one section at 352 that holds the resources: a message table in one
language with the message 5. The section is mapped where it is in the file. -/
def messageBytes : Nat → UInt8
  | 0 => 0x4d | 1 => 0x5a | 60 => 64
  -- the signature, one section, `SizeOfOptionalHeader`, `SizeOfImage` and the resources
  | 64 => 0x50 | 65 => 0x45 | 70 => 1 | 84 => 224 | 144 => 0x60 | 145 => 2
  | 200 => 0x60 | 201 => 1 | 204 => 112
  -- the section header
  | 321 => 1 | 324 => 0x60 | 325 => 1 | 329 => 1 | 332 => 0x60 | 333 => 1
  -- the directories for the type, the name and the language, and the data entry
  | 366 => 1 | 368 => 11 | 372 => 24 | 375 => 0x80
  | 390 => 1 | 392 => 1 | 396 => 48 | 399 => 0x80
  | 414 => 1 | 416 => 9 | 417 => 4 | 420 => 72
  | 424 => 0xb8 | 425 => 1 | 428 => 24
  -- the data: one block with one entry
  | 440 => 1 | 444 => 5 | 448 => 5 | 452 => 16 | 456 => 8
  | _ => 0

def messageFile : ByteBlock := ⟨608, messageBytes⟩

def messageImage : MappedImage .i386 where
  image := messageFile
  ntHeader := some 64
  resource := some (352, 112)
  headers_inside p hp := by
    obtain rfl := Option.some.inj hp
    decide
  sizeOfImage_eq p hp := by
    obtain rfl := Option.some.inj hp
    decide
  resource_eq d hd := by
    obtain rfl := Option.some.inj hd
    exact ⟨64, rfl, by decide⟩

/-- With one entry in each of the three directories there is one data entry. -/
theorem Root.MessageDataAt.only {r : Root} {languageId p nameDirectory languageDirectory : Nat}
    (h : r.MessageDataAt languageId p) (hnames : Root.lowBits (r.offset 16) = nameDirectory)
    (hlanguages : Root.lowBits (r.offset (nameDirectory + 16)) = languageDirectory)
    (hcounts : ∀ directory ∈ [0, nameDirectory, languageDirectory], r.entryCount directory = 1) :
    p = r.offset (languageDirectory + 16) := by
  obtain ⟨typeEntry, nameEntry, languageEntry, htype, hname, hlanguage, rfl⟩ := h
  obtain rfl := htype.only (hcounts 0 (by simp))
  rw [Nat.zero_add, hnames] at hname
  obtain rfl := hname.only (hcounts nameDirectory (by simp))
  rw [hlanguages] at hlanguage
  have hone := hcounts languageDirectory (by simp)
  rcases hlanguage with ⟨-, hlanguage⟩ | hlanguage
  · rw [hlanguage.only hone]
  · rw [hlanguage.only hone]

theorem messageFile_data {languageId p : Nat}
    (h : (Root.mk messageFile 352 112).MessageDataAt languageId p) : p = 72 :=
  (h.only (show _ = 24 by decide) (show _ = 48 by decide) (by decide)).trans (by decide)

theorem messageFile_bounded : FileBounded .i386 messageFile := by
  have hoffset : fileOffset messageFile (resourceRva .i386 messageFile) 16 = some 352 := by
    decide
  refine ⟨⟨fun _ => by decide, fun _ _ => by decide, fun _ => by decide⟩, ?_, ?_⟩
  · intro _ base hbase
    rw [hoffset] at hbase
    obtain rfl := Option.some.inj hbase
    decide
  · intro _ base hbase languageId p hp _ _
    rw [hoffset] at hbase
    obtain rfl := Option.some.inj hbase
    obtain rfl := messageFile_data hp
    decide

theorem messageImage_bounded : messageImage.Bounded where
  resources d hd _ := by
    obtain rfl := Option.some.inj hd
    decide
  messages d hd _ languageId p hp _ := by
    obtain rfl := Option.some.inj hd
    obtain rfl := messageFile_data hp
    decide

/-- A file of 64 bytes: its DOS header, which says that the headers are behind it. -/
def dosHeader : ByteBlock where
  size := 64
  bytes
    | 0 => 0x4d
    | 1 => 0x5a
    | 60 => 64
    | _ => 0

end Ldk.Resource
