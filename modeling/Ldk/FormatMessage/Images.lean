import Ldk.FormatMessage.State
import Ldk.Resource.Windows

/-!
# The messages of images

The sources of `FormatMessage` are the lookups in the modules that are mapped and in the files of
the system that are kept in memory.

- `ldkpFindMessageResourceEntry_length`: an entry that is found is as long as its header.
- `Sources.ofImages`: so the lookups give what `FormatMessage` needs of them.
-/

namespace Ldk.Resource

variable {m : PeImage.Machine} {image : ByteBlock} {data size messageId rounds : Nat}

theorem searchEntries_length {highId id entry : Nat} :
    Ensures (searchEntries image data size messageId highId rounds id entry) fun found =>
      ∀ p, found = some (some p) → 4 ≤ image.readLE p 2 := by
  induction rounds generalizing id entry with
  | zero => exact .error _ _
  | succ rounds ih =>
    unfold searchEntries
    apply Ensures.ite
    · exact fun _ => Ensures.ok (by simp)
    intro _
    apply Ensures.ite
    · exact fun _ => Ensures.ok (by simp)
    intro _
    constructor
    intro found hfound
    obtain ⟨length, hlength, hfound⟩ := Ensures.ok_of_bind hfound
    obtain ⟨-, rfl⟩ := ByteBlock.of_read hlength
    split at hfound
    · obtain rfl := Except.ok.inj hfound
      simp
    rename_i hshort
    split at hfound
    · obtain rfl := Except.ok.inj hfound
      simp
    split at hfound
    · obtain rfl := Except.ok.inj hfound
      intro p hp
      obtain rfl := Option.some.inj (Option.some.inj hp)
      exact Nat.le_of_not_lt hshort
    · exact ih.holds found hfound

theorem searchBlocks_length {n block : Nat} :
    Ensures (searchBlocks image data size messageId rounds n block) fun found =>
      ∀ p ∈ found, 4 ≤ image.readLE p 2 := by
  induction n generalizing block with
  | zero => exact Ensures.ok nofun
  | succ n ih =>
    constructor
    intro found hfound
    unfold searchBlocks at hfound
    obtain ⟨low, -, hfound⟩ := Ensures.ok_of_bind hfound
    obtain ⟨high, -, hfound⟩ := Ensures.ok_of_bind hfound
    split at hfound
    · exact ih.holds found hfound
    obtain ⟨offset, -, hfound⟩ := Ensures.ok_of_bind hfound
    split at hfound
    · obtain rfl := Except.ok.inj hfound
      exact nofun
    obtain ⟨searched, hsearched, hfound⟩ := Ensures.ok_of_bind hfound
    cases searched with
    | none => exact ih.holds found hfound
    | some entry =>
      obtain rfl := Except.ok.inj hfound
      intro p hp
      exact searchEntries_length.holds _ hsearched p (congrArg some hp)

/-- An entry that is found is as long as its header. -/
theorem ldkpFindMessageResourceEntry_length :
    Ensures (ldkpFindMessageResourceEntry image data size messageId rounds) fun found =>
      ∀ p ∈ found, 4 ≤ image.readLE p 2 := by
  unfold ldkpFindMessageResourceEntry
  apply Ensures.ite
  · exact fun _ => Ensures.ok nofun
  · intro _
    constructor
    intro found hfound
    obtain ⟨count, -, hfound⟩ := Ensures.ok_of_bind hfound
    split at hfound
    · obtain rfl := Except.ok.inj hfound
      exact nofun
    · exact searchBlocks_length.holds found hfound

theorem findMessageInFile_length {languageId : Nat} :
    Ensures (findMessageInFile m image messageId rounds languageId) fun found =>
      ∀ p ∈ found, 4 ≤ image.readLE p 2 := by
  constructor
  intro found hfound
  obtain ⟨data, -, hfound⟩ := Ensures.ok_of_bind hfound
  cases data with
  | none =>
    obtain rfl := Except.ok.inj hfound
    exact nofun
  | some data => exact ldkpFindMessageResourceEntry_length.holds found hfound

theorem MappedImage.ldkpFindMessageInMappedImage_length {x : MappedImage m} {languageId : Nat} :
    Ensures (x.ldkpFindMessageInMappedImage messageId rounds languageId) fun found =>
      ∀ p ∈ found, 4 ≤ x.image.readLE p 2 := by
  constructor
  intro found hfound
  obtain ⟨data, -, hfound⟩ := Ensures.ok_of_bind hfound
  cases data with
  | none =>
    obtain rfl := Except.ok.inj hfound
    exact nofun
  | some data => exact ldkpFindMessageResourceEntry_length.holds found hfound

end Ldk.Resource

namespace Ldk.FormatMessage

open Resource (MappedImage findMessageInFile)

/-- The entry that a lookup has found in an image. -/
def foundEntry (image : ByteBlock) (found : Except ByteBlock.Fault (Option Nat)) :
    Option MessageEntry :=
  found.toOption.join.map (MessageEntry.ofImage image)

theorem foundEntry_length {image : ByteBlock} {found : Except ByteBlock.Fault (Option Nat)}
    (h : Ensures found fun found => ∀ p ∈ found, 4 ≤ image.readLE p 2) :
    ∀ entry ∈ foundEntry image found, 4 ≤ entry.length ∧ entry.length < 2 ^ 16 := by
  intro entry hentry
  obtain ⟨p, hp, rfl⟩ := Option.map_eq_some_iff.mp hentry
  refine ⟨?_, ByteBlock.readLE_lt⟩
  cases found with
  | error fault => cases hp
  | ok found => exact h.holds found rfl p hp

/-- The modules, by their addresses, and the files of `LdkpSystemMessageImages` that are in memory;
no lookup of these goes outside. -/
def Sources.ofImages {m : PeImage.Machine} (modules : Nat → Option (MappedImage m))
    (images : List ByteBlock) : Sources where
  ldkpFindMessageInMappedImage imageBase messageId languageId :=
    (modules imageBase).bind fun x =>
      foundEntry x.image (x.ldkpFindMessageInMappedImage messageId (2 ^ 32) languageId)
  ldkpFindSystemMessageInCachedImages messageId languageId :=
    images.findSome? fun image =>
      foundEntry image (findMessageInFile m image messageId (2 ^ 32) languageId)
  mapped_length imageBase messageId languageId entry h := by
    obtain ⟨x, -, hx⟩ := Option.bind_eq_some_iff.mp h
    exact foundEntry_length MappedImage.ldkpFindMessageInMappedImage_length entry hx
  cached_length messageId languageId entry h := by
    obtain ⟨image, -, himage⟩ := List.exists_of_findSome?_eq_some h
    exact foundEntry_length Resource.findMessageInFile_length entry himage

end Ldk.FormatMessage
