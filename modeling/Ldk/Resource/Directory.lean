import Ldk.Lib.ByteBlock
import Ldk.UnicodeString

/-!
# Resource directories

The lookups of `winbase.c` in the resource directory of an image, on the bytes they read.

- `Root`: the block of bytes, with `ResourceBase` and `ResourceSize`. Whether the directory is
  inside the block is not checked by any of the lookups.
- Directories and entries are at offsets from `ResourceBase`.
- `Root.FirstEntry`: what the format says an entry is found by.
- `ldkpFindResourceDirectoryEntry_spec` and its siblings: in a directory that is inside the block a
  lookup reads nothing outside and gives the first entry that matches.
-/

namespace Ldk.Resource

open ByteBlock (Fault)

/-- `ResourceBase` and `ResourceSize` in a block of bytes. -/
structure Root where
  image : ByteBlock
  base : Nat
  size : Nat

/-- A `LPCWSTR` that is an integer (`IS_INTRESOURCE`) or points at characters. -/
inductive Name where
  | id (value : Nat)
  | string (characters : List WCHAR)
  deriving DecidableEq, Repr

/-- `LdkpResourceOffsetIsValid` -/
def LdkpResourceOffsetIsValid (offset resourceSize requiredSize : Nat) : Prop :=
  requiredSize ≤ resourceSize ∧ offset ≤ resourceSize - requiredSize

instance (offset resourceSize requiredSize : Nat) :
    Decidable (LdkpResourceOffsetIsValid offset resourceSize requiredSize) :=
  inferInstanceAs (Decidable (_ ∧ _))

theorem LdkpResourceOffsetIsValid.le {offset resourceSize requiredSize : Nat}
    (h : LdkpResourceOffsetIsValid offset resourceSize requiredSize) :
    offset + requiredSize ≤ resourceSize := by
  have hfits := h.1
  have hoffset := h.2
  omega

namespace Root

variable (r : Root)

/-! ## The fields of an entry

The first word of an entry is `NameIsString` with `NameOffset`, or `Id`. The second one is
`DataIsDirectory` with `OffsetToDirectory`, or `OffsetToData`. -/

def readName (entry : Nat) : Except Fault Nat := r.image.read (r.base + entry) 4

def readOffset (entry : Nat) : Except Fault Nat := r.image.read (r.base + entry + 4) 4

/-- `NameIsString`, `DataIsDirectory`: the upper bit of the word. -/
def HighBit (word : Nat) : Prop := 2 ^ 31 ≤ word

instance (word : Nat) : Decidable (HighBit word) := inferInstanceAs (Decidable (_ ≤ _))

/-- `NameOffset`, `OffsetToDirectory`: the other bits. -/
def lowBits (word : Nat) : Nat := word % 2 ^ 31

/-! ## LdkpFindResourceDirectoryEntryById and its siblings -/

/-- `NumberOfNamedEntries + NumberOfIdEntries` -/
def readEntryCount (directory : Nat) : Except Fault Nat := do
  let named ← r.image.read (r.base + directory + 12) 2
  let ids ← r.image.read (r.base + directory + 14) 2
  return named + ids

/-- The beginning of the three lookups: `EntryCount`, or 0 when there is no room in the directory
for as many entries as the lookup needs. -/
def usableEntries (directory : Nat) (needed : Nat → Nat) : Except Fault Nat :=
  if LdkpResourceOffsetIsValid directory r.size 16 then do
    let entryCount ← r.readEntryCount directory
    if entryCount = 0 then return 0
    else if LdkpResourceOffsetIsValid (directory + 16) r.size (8 * needed entryCount) then
      return entryCount
    else return 0
  else .ok 0

/-- The loop over the entries, of which `n` are left from `entry` on. -/
def search (matching : Nat → Except Fault Bool) : Nat → Nat → Except Fault (Option Nat)
  | 0, _ => .ok none
  | n + 1, entry => do
    if ← matching entry then return some entry
    else search matching n (entry + 8)

/-- `! Entry[Index].NameIsString && (Entry[Index].Id == Id)` -/
def idMatches (id entry : Nat) : Except Fault Bool := do
  let name ← r.readName entry
  return decide (¬ HighBit name ∧ name % 2 ^ 16 = id)

/-- `LdkpFindResourceDirectoryEntryById` -/
def ldkpFindResourceDirectoryEntryById (directory id : Nat) : Except Fault (Option Nat) := do
  let entryCount ← r.usableEntries directory (fun count => count)
  search (r.idMatches id) entryCount (directory + 16)

/-- `LdkpGetFirstResourceDirectoryEntry` -/
def ldkpGetFirstResourceDirectoryEntry (directory : Nat) : Except Fault (Option Nat) := do
  let entryCount ← r.usableEntries directory (fun _ => 1)
  return if entryCount = 0 then none else some (directory + 16)

/-- The loop over the characters of a name of which `n` are left at `p`: the caller's string ends
with them, and no character of it before is another one. -/
def sameString : Nat → Nat → List WCHAR → Except Fault Bool
  | 0, _, characters => .ok characters.isEmpty
  | _ + 1, _, [] => .ok false
  | n + 1, p, character :: characters => do
    let nameString ← r.image.read (r.base + p) 2
    if character.toNat ≠ nameString then return false
    else sameString n (p + 2) characters

/-- `LdkpResourceStringMatches`, for an entry with this name. -/
def ldkpResourceStringMatches (entryName : Nat) : Name → Except Fault Bool
  | .id _ => .ok false
  | .string characters =>
    if LdkpResourceOffsetIsValid (lowBits entryName) r.size 2 then do
      let length ← r.image.read (r.base + lowBits entryName) 2
      if LdkpResourceOffsetIsValid (lowBits entryName) r.size (2 + 2 * length) then
        r.sameString length (lowBits entryName + 2) characters
      else return false
    else .ok false

/-- The condition of the loop in `LdkpFindResourceDirectoryEntry`. -/
def nameMatches (name : Name) (entry : Nat) : Except Fault Bool := do
  let entryName ← r.readName entry
  if HighBit entryName then r.ldkpResourceStringMatches entryName name
  -- `LdkpResourceIdMatches`
  else return decide (name = .id (entryName % 2 ^ 16))

/-- `LdkpFindResourceDirectoryEntry` -/
def ldkpFindResourceDirectoryEntry (directory : Nat) (name : Name) :
    Except Fault (Option Nat) := do
  let entryCount ← r.usableEntries directory (fun count => count)
  search (r.nameMatches name) entryCount (directory + 16)

/-! ## The format -/

/-- The directory is inside the block. -/
def Inside : Prop := r.base + r.size ≤ r.image.size

/-- How many entries a directory says it has. -/
def entryCount (directory : Nat) : Nat :=
  r.image.readLE (r.base + directory + 12) 2 + r.image.readLE (r.base + directory + 14) 2

def name (entry : Nat) : Nat := r.image.readLE (r.base + entry) 4

def offset (entry : Nat) : Nat := r.image.readLE (r.base + entry + 4) 4

/-- The entry has an identifier, and it is this one. -/
def HasId (id entry : Nat) : Prop := ¬ HighBit (r.name entry) ∧ r.name entry % 2 ^ 16 = id

instance (id entry : Nat) : Decidable (r.HasId id entry) := inferInstanceAs (Decidable (_ ∧ _))

/-- The first entry of a directory with a property. -/
def FirstEntry (directory : Nat) (property : Nat → Prop) (entry : Nat) : Prop :=
  ∃ i, i < r.entryCount directory ∧ entry = directory + 16 + 8 * i ∧ property entry ∧
    ∀ j, j < i → ¬ property (directory + 16 + 8 * j)

/-- An entry that is in the directory as a whole. -/
def Entry (entry : Nat) : Prop := entry + 8 ≤ r.size

variable {r} in
/-- In a directory of one entry it is this one. -/
theorem FirstEntry.only {directory entry : Nat} {property : Nat → Prop}
    (h : r.FirstEntry directory property entry) (hcount : r.entryCount directory = 1) :
    entry = directory + 16 := by
  obtain ⟨i, hi, rfl, -, -⟩ := h
  omega

/-! ## Reading inside the directory -/

variable {r}

theorem holds_of_le (hr : r.Inside) {p length : Nat} (h : p + length ≤ r.size) :
    r.image.Holds (r.base + p) length := by
  have hin : r.base + r.size ≤ r.image.size := hr
  show r.base + p + length ≤ r.image.size
  omega

theorem readName_eq (hr : r.Inside) {entry : Nat} (h : r.Entry entry) :
    r.readName entry = .ok (r.name entry) := by
  have hentry : entry + 8 ≤ r.size := h
  exact ByteBlock.read_eq (holds_of_le hr (by omega))

theorem readOffset_eq (hr : r.Inside) {entry : Nat} (h : r.Entry entry) :
    r.readOffset entry = .ok (r.offset entry) := by
  have hentry : entry + 8 ≤ r.size := h
  have hoffset : r.image.Holds (r.base + (entry + 4)) 4 := holds_of_le hr (by omega)
  exact ByteBlock.read_eq hoffset

theorem readEntryCount_eq (hr : r.Inside) {directory : Nat} (h : directory + 16 ≤ r.size) :
    r.readEntryCount directory = .ok (r.entryCount directory) := by
  have hnamed : r.image.Holds (r.base + (directory + 12)) 2 := holds_of_le hr (by omega)
  have hids : r.image.Holds (r.base + (directory + 14)) 2 := holds_of_le hr (by omega)
  unfold readEntryCount
  rw [Nat.add_assoc, Nat.add_assoc, ByteBlock.read_eq hnamed, ByteBlock.read_eq hids]
  unfold entryCount
  rw [Nat.add_assoc, Nat.add_assoc]
  rfl

/-- The entries that are used are those of the directory, and as many as were needed are inside. -/
theorem usableEntries_spec (hr : r.Inside) (directory : Nat) (needed : Nat → Nat) :
    Yields (r.usableEntries directory needed) fun count =>
      count = 0 ∨ count = r.entryCount directory ∧ directory + 16 + 8 * needed count ≤ r.size := by
  unfold usableEntries
  apply Yields.ite
  · intro hvalid
    rw [readEntryCount_eq hr hvalid.le]
    apply Yields.ite
    · exact fun _ => Yields.ok (.inl rfl)
    · intro _
      apply Yields.ite
      · exact fun hroom => Yields.ok (.inr ⟨rfl, hroom.le⟩)
      · exact fun _ => Yields.ok (.inl rfl)
  · exact fun _ => Yields.ok (.inl rfl)

/-- The loop stops at the first entry that matches. -/
theorem search_spec {matching : Nat → Except Fault Bool} {property : Nat → Prop} {n entry : Nat}
    (hmatching : ∀ j, j < n →
      Yields (matching (entry + 8 * j)) fun b => b = true ↔ property (entry + 8 * j)) :
    Yields (search matching n entry) fun found => ∀ e ∈ found,
      ∃ i, i < n ∧ e = entry + 8 * i ∧ property e ∧ ∀ j, j < i → ¬ property (entry + 8 * j) := by
  induction n generalizing entry with
  | zero => exact Yields.ok nofun
  | succ n ih =>
    apply (hmatching 0 n.succ_pos).bind
    intro b hb
    cases b with
    | true =>
      apply Yields.ok
      intro e he
      obtain rfl := Option.some.inj he
      exact ⟨0, n.succ_pos, rfl, hb.mp rfl, nofun⟩
    | false =>
      have hrest : ∀ j, j < n → Yields (matching (entry + 8 + 8 * j)) fun b =>
          b = true ↔ property (entry + 8 + 8 * j) := by
        intro j hj
        have hnext := hmatching (j + 1) (Nat.succ_lt_succ hj)
        rw [show entry + 8 * (j + 1) = entry + 8 + 8 * j from by omega] at hnext
        exact hnext
      apply (ih hrest).mono
      intro found hfound e he
      obtain ⟨i, hi, rfl, hpe, hbefore⟩ := hfound e he
      refine ⟨i + 1, Nat.succ_lt_succ hi, by omega, hpe, ?_⟩
      intro j hj
      cases j with
      | zero => exact fun hp => Bool.false_ne_true (hb.mpr hp)
      | succ j =>
        have hnot := hbefore j (Nat.lt_of_succ_lt_succ hj)
        rw [show entry + 8 * (j + 1) = entry + 8 + 8 * j from by omega]
        exact hnot

/-- The lookups that pass all entries of a directory, for any way an entry is looked at that is
safe for the entries inside. -/
theorem lookup_spec (hr : r.Inside) (directory : Nat) {matching : Nat → Except Fault Bool}
    {property : Nat → Prop}
    (hmatching : ∀ e, r.Entry e → Yields (matching e) fun b => b = true ↔ property e) :
    Yields (r.usableEntries directory (fun count => count) >>= fun entryCount =>
      search matching entryCount (directory + 16)) fun found =>
        ∀ e ∈ found, r.Entry e ∧ r.FirstEntry directory property e := by
  apply (usableEntries_spec hr directory _).bind
  intro count hcount
  rcases hcount with rfl | ⟨rfl, hroom⟩
  · exact Yields.ok nofun
  · have hinside : ∀ j, j < r.entryCount directory → r.Entry (directory + 16 + 8 * j) := by
      intro j hj
      show directory + 16 + 8 * j + 8 ≤ r.size
      omega
    apply (search_spec fun j hj => hmatching _ (hinside j hj)).mono
    intro found hfound e he
    obtain ⟨i, hi, rfl, hpe, hbefore⟩ := hfound e he
    exact ⟨hinside i hi, i, hi, rfl, hpe, hbefore⟩

theorem idMatches_spec (hr : r.Inside) (id : Nat) {entry : Nat} (h : r.Entry entry) :
    Yields (r.idMatches id entry) fun b => b = true ↔ r.HasId id entry := by
  unfold idMatches
  rw [readName_eq hr h]
  exact Yields.ok decide_eq_true_iff

theorem ldkpFindResourceDirectoryEntryById_spec (hr : r.Inside) (directory id : Nat) :
    Yields (r.ldkpFindResourceDirectoryEntryById directory id) fun found =>
      ∀ e ∈ found, r.Entry e ∧ r.FirstEntry directory (r.HasId id) e :=
  lookup_spec hr directory fun _ he => idMatches_spec hr id he

theorem ldkpGetFirstResourceDirectoryEntry_spec (hr : r.Inside) (directory : Nat) :
    Yields (r.ldkpGetFirstResourceDirectoryEntry directory) fun found =>
      ∀ e ∈ found, r.Entry e ∧ r.FirstEntry directory (fun _ => True) e := by
  apply (usableEntries_spec hr directory _).bind
  intro count hcount
  apply Yields.ok
  intro e he
  by_cases hzero : count = 0
  · rw [if_pos hzero] at he
    cases he
  · rw [if_neg hzero] at he
    obtain rfl := Option.some.inj he
    obtain ⟨hcount, hroom⟩ := hcount.resolve_left hzero
    exact ⟨hroom, 0, by omega, rfl, trivial, nofun⟩

/-- The characters of a name are inside the directory. -/
theorem sameString_spec (hr : r.Inside) {n p : Nat} (h : p + 2 * n ≤ r.size)
    (characters : List WCHAR) : Yields (r.sameString n p characters) fun _ => True := by
  induction n generalizing p characters with
  | zero => exact Yields.ok trivial
  | succ n ih =>
    cases characters with
    | nil => exact Yields.ok trivial
    | cons character characters =>
      unfold sameString
      rw [ByteBlock.read_eq (holds_of_le hr (by omega))]
      apply Yields.ite
      · exact fun _ => Yields.ok trivial
      · exact fun _ => ih (by omega) characters

theorem ldkpResourceStringMatches_spec (hr : r.Inside) (entryName : Nat) (name : Name) :
    Yields (r.ldkpResourceStringMatches entryName name) fun _ => True := by
  cases name with
  | id value => exact Yields.ok trivial
  | string characters =>
    unfold ldkpResourceStringMatches
    apply Yields.ite
    · intro hlength
      rw [ByteBlock.read_eq (holds_of_le hr hlength.le)]
      apply Yields.ite
      · intro hname
        have hname := hname.le
        exact sameString_spec hr (by omega) characters
      · exact fun _ => Yields.ok trivial
    · exact fun _ => Yields.ok trivial

theorem nameMatches_spec (hr : r.Inside) (name : Name) {entry : Nat} (h : r.Entry entry) :
    Yields (r.nameMatches name entry) fun _ => True := by
  unfold nameMatches
  rw [readName_eq hr h]
  apply Yields.ite
  · exact fun _ => ldkpResourceStringMatches_spec hr _ name
  · exact fun _ => Yields.ok trivial

theorem ldkpFindResourceDirectoryEntry_spec (hr : r.Inside) (directory : Nat) (name : Name) :
    Yields (r.ldkpFindResourceDirectoryEntry directory name) fun found =>
      ∀ e ∈ found, r.Entry e := by
  have hmatching : ∀ e, r.Entry e → Yields (r.nameMatches name e) fun b =>
      b = true ↔ r.nameMatches name e = .ok true := by
    intro e he
    obtain ⟨b, hb, -⟩ := nameMatches_spec hr name he
    exact ⟨b, hb, by rw [hb, Except.ok.injEq]⟩
  exact (lookup_spec hr directory hmatching).mono fun _ hfound e he => (hfound e he).1

end Root

end Ldk.Resource
