import Ldk.Resource.Bounds

/-!
# Lookups in a part of a block

What a lookup of `winbase.c` finds depends on few of the bytes: on those of the resource directory,
and on those of the message data. So the same part of two blocks gives the same.

- `Root.findMessageDataEntry_windowed`, `ldkpFindMessageResourceEntry_windowed`: a lookup in the
  block is the lookup in the part, at another address.
- `IsMessageEntry`: which entry of a message table is that of a message.
- `ldkpFindMessageResourceEntry_found`: what is found is that entry.
-/

namespace Ldk.Resource

open ByteBlock (Fault)

/-! ## Resource directories -/

namespace Root

variable {r : Root}

/-- The bytes of the directory, as a block of their own. -/
def windowed (r : Root) : Root := ⟨r.image.window r.base r.size, 0, r.size⟩

theorem read_windowed (hr : r.Inside) {p length : Nat} (h : p + length ≤ r.size) :
    r.windowed.image.read (r.windowed.base + p) length = r.image.read (r.base + p) length := by
  have hzero : r.windowed.base + p = p := Nat.zero_add p
  rw [hzero]
  exact ByteBlock.read_window hr h

theorem readName_windowed (hr : r.Inside) {entry : Nat} (h : r.Entry entry) :
    r.windowed.readName entry = r.readName entry := by
  have hentry : entry + 8 ≤ r.size := h
  exact read_windowed hr (by omega)

theorem readOffset_windowed (hr : r.Inside) {entry : Nat} (h : r.Entry entry) :
    r.windowed.readOffset entry = r.readOffset entry := by
  have hentry : entry + 8 ≤ r.size := h
  unfold readOffset
  rw [Nat.add_assoc, Nat.add_assoc]
  exact read_windowed hr (by omega)

theorem usableEntries_windowed (hr : r.Inside) (directory : Nat) (needed : Nat → Nat) :
    r.windowed.usableEntries directory needed = r.usableEntries directory needed := by
  unfold usableEntries
  by_cases hvalid : LdkpResourceOffsetIsValid directory r.size 16
  · have hle := hvalid.le
    have hcount : r.windowed.readEntryCount directory = r.readEntryCount directory := by
      unfold readEntryCount
      rw [Nat.add_assoc, Nat.add_assoc, Nat.add_assoc, Nat.add_assoc,
        read_windowed hr (by omega), read_windowed hr (by omega)]
    have hvalid' : LdkpResourceOffsetIsValid directory r.windowed.size 16 := hvalid
    rw [if_pos hvalid, if_pos hvalid', hcount]
    rfl
  · have hvalid' : ¬ LdkpResourceOffsetIsValid directory r.windowed.size 16 := hvalid
    rw [if_neg hvalid, if_neg hvalid']

theorem search_congr {matching matching' : Nat → Except Fault Bool} {n entry : Nat}
    (h : ∀ j, j < n → matching' (entry + 8 * j) = matching (entry + 8 * j)) :
    search matching' n entry = search matching n entry := by
  induction n generalizing entry with
  | zero => rfl
  | succ n ih =>
    have hfirst : matching' entry = matching entry := h 0 n.succ_pos
    have hrest : search matching' n (entry + 8) = search matching n (entry + 8) := by
      apply ih
      intro j hj
      have hnext := h (j + 1) (Nat.succ_lt_succ hj)
      rwa [show entry + 8 * (j + 1) = entry + 8 + 8 * j from by omega] at hnext
    unfold search
    rw [hfirst, hrest]

theorem ldkpFindResourceDirectoryEntryById_windowed (hr : r.Inside) (directory id : Nat) :
    r.windowed.ldkpFindResourceDirectoryEntryById directory id =
      r.ldkpFindResourceDirectoryEntryById directory id := by
  unfold ldkpFindResourceDirectoryEntryById
  rw [usableEntries_windowed hr]
  obtain ⟨count, hok, hcount⟩ := usableEntries_spec hr directory fun count => count
  rw [hok]
  apply search_congr
  intro j hj
  have hentry : r.Entry (directory + 16 + 8 * j) := by
    rcases hcount with rfl | ⟨-, hroom⟩
    · exact absurd hj (Nat.not_lt_zero j)
    · show directory + 16 + 8 * j + 8 ≤ r.size
      omega
  unfold idMatches
  rw [readName_windowed hr hentry]

theorem ldkpGetFirstResourceDirectoryEntry_windowed (hr : r.Inside) (directory : Nat) :
    r.windowed.ldkpGetFirstResourceDirectoryEntry directory =
      r.ldkpGetFirstResourceDirectoryEntry directory := by
  unfold ldkpGetFirstResourceDirectoryEntry
  rw [usableEntries_windowed hr]

theorem subdirectory_windowed (hr : r.Inside) {entry : Nat} (h : r.Entry entry) :
    r.windowed.subdirectory entry = r.subdirectory entry := by
  unfold subdirectory
  rw [readOffset_windowed hr h]
  rfl

theorem languageEntry_windowed (hr : r.Inside) (directory languageId : Nat) :
    r.windowed.languageEntry directory languageId = r.languageEntry directory languageId := by
  unfold languageEntry
  rw [ldkpGetFirstResourceDirectoryEntry_windowed hr,
    ldkpFindResourceDirectoryEntryById_windowed hr]

theorem readDataEntry_windowed (hr : r.Inside) {p : Nat}
    (h : LdkpResourceOffsetIsValid p r.size 16) :
    r.windowed.readDataEntry p = r.readDataEntry p := by
  have hle := h.le
  unfold readDataEntry
  rw [Nat.add_assoc, Nat.add_assoc, read_windowed hr (by omega), read_windowed hr (by omega)]

/-- The data entry of a message table depends on the bytes of the directory alone. -/
theorem findMessageDataEntry_windowed (hr : r.Inside) (languageId : Nat) :
    r.windowed.findMessageDataEntry languageId = r.findMessageDataEntry languageId := by
  unfold findMessageDataEntry
  rw [ldkpFindResourceDirectoryEntryById_windowed hr]
  obtain ⟨typeFound, htypeOk, htype⟩ := ldkpFindResourceDirectoryEntryById_spec hr 0 11
  rw [htypeOk, Yields.ok_bind, Yields.ok_bind]
  cases typeFound with
  | none => rfl
  | some typeEntry =>
    have hinType := (htype typeEntry rfl).1
    dsimp only
    rw [subdirectory_windowed hr hinType]
    obtain ⟨typeDirectory, hdirectoryOk, -⟩ := subdirectory_spec hr hinType
    rw [hdirectoryOk, Yields.ok_bind, Yields.ok_bind]
    cases typeDirectory with
    | none => rfl
    | some typeDirectory =>
      dsimp only
      rw [ldkpGetFirstResourceDirectoryEntry_windowed hr]
      obtain ⟨nameFound, hnameOk, hname⟩ :=
        ldkpGetFirstResourceDirectoryEntry_spec hr typeDirectory
      rw [hnameOk, Yields.ok_bind, Yields.ok_bind]
      cases nameFound with
      | none => rfl
      | some nameEntry =>
        have hinName := (hname nameEntry rfl).1
        dsimp only
        rw [subdirectory_windowed hr hinName]
        obtain ⟨nameDirectory, hnameDirectoryOk, -⟩ := subdirectory_spec hr hinName
        rw [hnameDirectoryOk, Yields.ok_bind, Yields.ok_bind]
        cases nameDirectory with
        | none => rfl
        | some nameDirectory =>
          dsimp only
          rw [languageEntry_windowed hr]
          obtain ⟨languageFound, hlanguageOk, hlanguage⟩ :=
            languageEntry_spec hr nameDirectory languageId
          rw [hlanguageOk, Yields.ok_bind, Yields.ok_bind]
          cases languageFound with
          | none => rfl
          | some languageEntry =>
            have hinLanguage := (hlanguage languageEntry rfl).1
            dsimp only
            rw [readOffset_windowed hr hinLanguage, readOffset_eq hr hinLanguage,
              Yields.ok_bind, Yields.ok_bind]
            by_cases hvalid : LdkpResourceOffsetIsValid (r.offset languageEntry) r.size 16
            · rw [readDataEntry_windowed hr hvalid]
              rfl
            · exact (if_pos (Or.inr hvalid)).trans (if_pos (Or.inr hvalid)).symm

end Root

/-! ## Message tables -/

section Messages

variable {image : ByteBlock} {data size messageId rounds : Nat}

/-- What a lookup finds, counted from somewhere else. -/
def shifted (data : Nat) (found : Except Fault (Option Nat)) : Except Fault (Option Nat) :=
  found.map (Option.map (data + ·))

theorem searchEntries_windowed (hinside : data + size ≤ image.size) (hulong : size < 2 ^ 32)
    {highId id entry : Nat} (hentry : entry ≤ size) :
    searchEntries image data size messageId highId rounds id entry =
      (searchEntries (image.window data size) 0 size messageId highId rounds id entry).map
        (Option.map (Option.map (data + ·))) := by
  induction rounds generalizing id entry with
  | zero => rfl
  | succ rounds ih =>
    unfold searchEntries
    rw [Nat.mod_eq_of_lt (by omega : entry < 2 ^ 32)]
    by_cases hpassed : highId < id
    · rw [if_pos hpassed, if_pos hpassed]
      rfl
    rw [if_neg hpassed, if_neg hpassed]
    by_cases hheader : LdkpResourceOffsetIsValid entry size 6
    · rw [if_neg (not_not.mpr hheader), if_neg (not_not.mpr hheader)]
      have hle := hheader.le
      have hread : image.read (data + entry) 2 = .ok (image.readLE (data + entry) 2) :=
        ByteBlock.read_eq (show data + entry + 2 ≤ image.size by omega)
      rw [Nat.zero_add, ByteBlock.read_window hinside (by omega), hread, Yields.ok_bind,
        Yields.ok_bind]
      by_cases hshort : image.readLE (data + entry) 2 < 4
      · rw [if_pos hshort, if_pos hshort]
        rfl
      rw [if_neg hshort, if_neg hshort]
      by_cases hlength : LdkpResourceOffsetIsValid entry size (image.readLE (data + entry) 2)
      · rw [if_neg (not_not.mpr hlength), if_neg (not_not.mpr hlength)]
        by_cases hfound : id = messageId
        · rw [if_pos hfound, if_pos hfound]
          rfl
        · rw [if_neg hfound, if_neg hfound]
          exact ih hlength.le
      · rw [if_pos hlength, if_pos hlength]
        rfl
    · rw [if_pos hheader, if_pos hheader]
      rfl

theorem searchBlocks_windowed (hinside : data + size ≤ image.size) (hulong : size < 2 ^ 32)
    {n block : Nat} (hblocks : block + 12 * n ≤ size) :
    searchBlocks image data size messageId rounds n block =
      shifted data (searchBlocks (image.window data size) 0 size messageId rounds n block) := by
  induction n generalizing block with
  | zero => rfl
  | succ n ih =>
    have hread : ∀ offset, offset + 4 ≤ 12 →
        image.read (data + block + offset) 4 = .ok (image.readLE (data + block + offset) 4) ∧
        (image.window data size).read (0 + block + offset) 4 =
          .ok (image.readLE (data + block + offset) 4) := by
      intro offset hoffset
      have hblock : image.read (data + block + offset) 4 =
          .ok (image.readLE (data + block + offset) 4) :=
        ByteBlock.read_eq (show data + block + offset + 4 ≤ image.size by omega)
      refine ⟨hblock, ?_⟩
      rw [Nat.zero_add, ByteBlock.read_window hinside (by omega), ← Nat.add_assoc, hblock]
    have hlow := hread 0 (by omega)
    have hhigh := hread 4 (by omega)
    have hoffset := hread 8 (by omega)
    rw [Nat.add_zero, Nat.add_zero] at hlow
    unfold searchBlocks
    rw [hlow.1, hlow.2, hhigh.1, hhigh.2, hoffset.1, hoffset.2]
    simp only [Yields.ok_bind]
    split
    · exact ih (by omega)
    split
    · rfl
    rename_i hvalid
    have hvalid := (not_not.mp hvalid).le
    rw [searchEntries_windowed hinside hulong (by omega)]
    cases searchEntries (image.window data size) 0 size messageId
        (image.readLE (data + block + 4) 4) rounds (image.readLE (data + block) 4)
        (image.readLE (data + block + 8) 4) with
    | error fault => rfl
    | ok found =>
      cases found with
      | none => exact ih (by omega)
      | some found => rfl

/-- What is found of a message depends on the bytes of the data alone. -/
theorem ldkpFindMessageResourceEntry_windowed (hinside : data + size ≤ image.size)
    (hulong : size < 2 ^ 32) :
    ldkpFindMessageResourceEntry image data size messageId rounds =
      shifted data
        (ldkpFindMessageResourceEntry (image.window data size) 0 size messageId rounds) := by
  unfold ldkpFindMessageResourceEntry
  by_cases hsize : size < 4
  · rw [if_pos hsize, if_pos hsize]
    rfl
  have hread : image.read data 4 = .ok (image.readLE data 4) :=
    ByteBlock.read_eq (show data + 4 ≤ image.size by omega)
  rw [if_neg hsize, if_neg hsize, ByteBlock.read_window hinside (by omega), Nat.add_zero, hread,
    Yields.ok_bind, Yields.ok_bind]
  by_cases hroom : (size - 4) / 12 < image.readLE data 4
  · rw [if_pos hroom, if_pos hroom]
    rfl
  · have hblocks := Nat.mul_le_of_le_div 12 _ _ (Nat.le_of_not_lt hroom)
    rw [if_neg hroom, if_neg hroom]
    exact searchBlocks_windowed hinside hulong (by omega)

/-! ## Entries of message tables -/

/-- The first identifier, the last one and the offset of a block. -/
def lowId (image : ByteBlock) (data i : Nat) : Nat := image.readLE (data + 4 + 12 * i) 4

def highId (image : ByteBlock) (data i : Nat) : Nat := image.readLE (data + 4 + 12 * i + 4) 4

def offsetToEntries (image : ByteBlock) (data i : Nat) : Nat :=
  image.readLE (data + 4 + 12 * i + 8) 4

def numberOfBlocks (image : ByteBlock) (data : Nat) : Nat := image.readLE data 4

/-- The identifier is one of those of a block. -/
def BlockContains (image : ByteBlock) (data messageId i : Nat) : Prop :=
  i < numberOfBlocks image data ∧ lowId image data i ≤ messageId ∧ messageId ≤ highId image data i

/-- The offset of the `n`-th of the entries from an offset on, each as long as it says. -/
def nthEntry (image : ByteBlock) (data start : Nat) : Nat → Nat
  | 0 => start
  | n + 1 => nthEntry image data start n + image.readLE (data + nthEntry image data start n) 2

/-- The entry of a message: that of its number in the block with its identifier, with all of its
bytes in the data. -/
def IsMessageEntry (image : ByteBlock) (data size messageId entry : Nat) : Prop :=
  ∃ i, BlockContains image data messageId i ∧
    entry = nthEntry image data (offsetToEntries image data i) (messageId - lowId image data i) ∧
    4 ≤ image.readLE (data + entry) 2 ∧ entry + image.readLE (data + entry) 2 ≤ size

theorem searchEntries_found (hulong : size < 2 ^ 32) {start low high n : Nat}
    (hlow : low + n ≤ messageId) (hhigh : messageId ≤ high) (hmessage : messageId < 2 ^ 32)
    (hentry : nthEntry image data start n ≤ size) :
    Ensures (searchEntries image data size messageId high rounds (low + n)
      (nthEntry image data start n)) fun found => ∃ entry, found = some entry ∧
        ∀ p ∈ entry, p = data + nthEntry image data start (messageId - low) ∧
          4 ≤ image.readLE p 2 ∧
          nthEntry image data start (messageId - low) + image.readLE p 2 ≤ size := by
  induction rounds generalizing n with
  | zero => exact .error _ _
  | succ rounds ih =>
    unfold searchEntries
    rw [Nat.mod_eq_of_lt (by omega : nthEntry image data start n < 2 ^ 32)]
    apply Ensures.ite
    · exact fun hpassed => absurd hpassed (by omega)
    intro _
    apply Ensures.ite
    · exact fun _ => Ensures.ok ⟨none, rfl, by simp⟩
    intro _
    constructor
    intro found hfound
    obtain ⟨length, hlength, hfound⟩ := Ensures.ok_of_bind hfound
    obtain ⟨-, rfl⟩ := ByteBlock.of_read hlength
    by_cases hshort : image.readLE (data + nthEntry image data start n) 2 < 4
    · rw [if_pos hshort] at hfound
      obtain rfl := Except.ok.inj hfound
      exact ⟨none, rfl, by simp⟩
    rw [if_neg hshort] at hfound
    by_cases hvalid : LdkpResourceOffsetIsValid (nthEntry image data start n) size
        (image.readLE (data + nthEntry image data start n) 2)
    · rw [if_neg (not_not.mpr hvalid)] at hfound
      by_cases hsame : low + n = messageId
      · rw [if_pos hsame] at hfound
        obtain rfl := Except.ok.inj hfound
        have hn : messageId - low = n := by omega
        refine ⟨_, rfl, ?_⟩
        intro p hp
        obtain rfl := Option.some.inj hp
        rw [hn]
        exact ⟨rfl, Nat.le_of_not_lt hshort, hvalid.le⟩
      · rw [if_neg hsame, Nat.mod_eq_of_lt (by omega : low + n + 1 < 2 ^ 32)] at hfound
        have hnext : nthEntry image data start (n + 1) ≤ size := hvalid.le
        exact (ih (n := n + 1) (by omega) hnext).holds found hfound
    · rw [if_pos hvalid] at hfound
      obtain rfl := Except.ok.inj hfound
      exact ⟨none, rfl, by simp⟩

theorem searchBlocks_found (hulong : size < 2 ^ 32) (hmessage : messageId < 2 ^ 32) {n i : Nat}
    (hcount : i + n = numberOfBlocks image data) :
    Ensures (searchBlocks image data size messageId rounds n (4 + 12 * i)) fun found =>
      ∀ p ∈ found, ∃ entry, p = data + entry ∧
        IsMessageEntry image data size messageId entry := by
  induction n generalizing i with
  | zero => exact Ensures.ok nofun
  | succ n ih =>
    have hrest := ih (i := i + 1) (by omega)
    rw [show 4 + 12 * (i + 1) = 4 + 12 * i + 12 from by omega] at hrest
    constructor
    intro found hfound
    unfold searchBlocks at hfound
    obtain ⟨low, hlow, hfound⟩ := Ensures.ok_of_bind hfound
    obtain ⟨high, hhigh, hfound⟩ := Ensures.ok_of_bind hfound
    obtain ⟨-, rfl⟩ := ByteBlock.of_read hlow
    obtain ⟨-, rfl⟩ := ByteBlock.of_read hhigh
    rw [← Nat.add_assoc] at hfound
    split at hfound
    · exact hrest.holds found hfound
    rename_i hrange
    rw [not_or, Nat.not_lt, Nat.not_lt] at hrange
    obtain ⟨offset, hoffset, hfound⟩ := Ensures.ok_of_bind hfound
    obtain ⟨-, rfl⟩ := ByteBlock.of_read hoffset
    split at hfound
    · obtain rfl := Except.ok.inj hfound
      exact nofun
    rename_i hvalid
    have hvalid := (not_not.mp hvalid).le
    obtain ⟨searched, hsearched, hfound⟩ := Ensures.ok_of_bind hfound
    have hstart : nthEntry image data (offsetToEntries image data i) 0 ≤ size := by
      show offsetToEntries image data i ≤ size
      unfold offsetToEntries
      omega
    have hentries : Ensures (searchEntries image data size messageId (highId image data i) rounds
        (lowId image data i + 0) (nthEntry image data (offsetToEntries image data i) 0)) _ :=
      searchEntries_found hulong hrange.1 hrange.2 hmessage hstart
    obtain ⟨entry, rfl, hentry⟩ := hentries.holds searched hsearched
    obtain rfl := Except.ok.inj hfound
    intro p hp
    obtain ⟨rfl, hshort, hroom⟩ := hentry p hp
    exact ⟨_, rfl, i, ⟨by omega, hrange⟩, rfl, hshort, hroom⟩

/-- What is found of a message is its entry. -/
theorem ldkpFindMessageResourceEntry_found (hulong : size < 2 ^ 32)
    (hmessage : messageId < 2 ^ 32) :
    Ensures (ldkpFindMessageResourceEntry image data size messageId rounds) fun found =>
      ∀ p ∈ found, ∃ entry, p = data + entry ∧
        IsMessageEntry image data size messageId entry := by
  unfold ldkpFindMessageResourceEntry
  apply Ensures.ite
  · exact fun _ => Ensures.ok nofun
  · intro _
    constructor
    intro found hfound
    obtain ⟨count, hcount, hfound⟩ := Ensures.ok_of_bind hfound
    obtain ⟨-, rfl⟩ := ByteBlock.of_read hcount
    split at hfound
    · obtain rfl := Except.ok.inj hfound
      exact nofun
    · exact (searchBlocks_found (i := 0) hulong hmessage (Nat.zero_add _)).holds found hfound

end Messages

end Ldk.Resource
