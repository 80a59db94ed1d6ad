import Mathlib
import Ldk.Lib.ByteBlock

/-!
# Base relocations

`LdkpRelocateImage` in `ldk.c`, on the bytes of an image, and what the format says about them.

- Addresses are offsets from `ImageBase`; an access outside of the image is a fault.
- Where the kernel finds the NT headers and the relocation directory (`RtlImageNtHeader`,
  `RtlImageDirectoryEntryToData`) is a parameter.
- The walk over the blocks takes rounds; how many it may take is a parameter too.
-/

namespace Ldk.PeImage

open ByteBlock (Fault)

/-! ## Machines -/

inductive Machine where
  | i386
  | amd64
  | arm
  | arm64
  deriving DecidableEq, Repr

namespace Machine

/-- `sizeof(ULONG_PTR)` -/
def pointerSize : Machine → Nat
  | .i386 | .arm => 4
  | .amd64 | .arm64 => 8

/-- `IMAGE_REL_BASED_HIGHLOW` or `IMAGE_REL_BASED_DIR64`, the type of an entry for a pointer. -/
def pointerType : Machine → Nat
  | .i386 | .arm => 3
  | .amd64 | .arm64 => 10

/-- Where `OptionalHeader.ImageBase` is in `IMAGE_NT_HEADERS`. -/
def imageBaseField : Machine → Nat
  | .i386 | .arm => 52
  | .amd64 | .arm64 => 48

/-- A value of type `ULONG_PTR`. -/
def ulongPtr (m : Machine) (n : Nat) : Nat := n % 256 ^ m.pointerSize

theorem pointerSize_pos (m : Machine) : 0 < m.pointerSize := by
  cases m <;> decide

theorem pointerType_pos (m : Machine) : 0 < m.pointerType := by
  cases m <;> decide

end Machine

/-- Where the kernel finds the headers of an image. -/
structure Headers where
  /-- `RtlImageNtHeader` -/
  ntHeader : Nat
  /-- `RtlImageDirectoryEntryToData` for `IMAGE_DIRECTORY_ENTRY_BASERELOC`: address and size. -/
  baseReloc : Option (Nat × Nat)
  deriving DecidableEq, Repr

/-! ## LdkpRelocateImage -/

/-- The walk over the directory. -/
structure Walk where
  image : ByteBlock
  /-- `NextBlock` -/
  nextBlock : Nat
  /-- Auxiliary: the blocks the loop has entered. -/
  blocks : List Nat
  /-- Auxiliary: the values of `FixupVA`. -/
  fixups : List Nat

variable (m : Machine) (diff : Nat)

/-- The image after `*FixupVA += Diff`. -/
def addDiff (image : ByteBlock) (fixupVA : Nat) : ByteBlock :=
  image.writeLE fixupVA m.pointerSize
    (m.ulongPtr (image.readLE fixupVA m.pointerSize + diff))

/-- `*FixupVA += Diff` -/
def Walk.fixup (x : Walk) (fixupVA : Nat) : Except Fault Walk := do
  let value ← x.image.read fixupVA m.pointerSize
  let image ← x.image.write fixupVA m.pointerSize (m.ulongPtr (value + diff))
  return { x with image := image, fixups := x.fixups ++ [fixupVA] }

/-- The loop over the entries of a block, of which `n` are left from the `i`-th on. -/
def relocateEntries : Nat → Nat → Walk → Except Fault Walk
  | 0, _, x => .ok x
  | n + 1, i, x => do
    let entry ← x.image.read (x.nextBlock + 8 + 2 * i) 2
    if entry = 0 then relocateEntries n (i + 1) x
    else
      let virtualAddress ← x.image.read x.nextBlock 4
      let x ← x.fixup m diff ((virtualAddress + entry % 0x1000) % 2 ^ 32)
      relocateEntries n (i + 1) x

/-- The entries of a block, when it has room for its header. -/
def relocateBlock (sizeOfBlock : Nat) (x : Walk) : Except Fault Walk :=
  if 8 ≤ sizeOfBlock then relocateEntries m diff ((sizeOfBlock - 8) / 2) 0 x else .ok x

/-- The loop over the blocks. -/
def relocateBlocks : Nat → Walk → Except Fault Walk
  | 0, _ => .error .endless
  | rounds + 1, x => do
    let virtualAddress ← x.image.read x.nextBlock 4
    if virtualAddress = 0 then return x
    else
      let sizeOfBlock ← x.image.read (x.nextBlock + 4) 4
      let x ← relocateBlock m diff sizeOfBlock { x with blocks := x.blocks ++ [x.nextBlock] }
      -- an entry may have changed it
      let sizeOfBlock ← x.image.read (x.nextBlock + 4) 4
      if sizeOfBlock = 0 then return x
      else
        relocateBlocks rounds { x with nextBlock := m.ulongPtr (x.nextBlock + sizeOfBlock) }

/-- `LdkpRelocateImage`, which always succeeds. -/
def ldkpRelocateImage (headers : Headers) (imageBase rounds : Nat) (image : ByteBlock) :
    Except Fault Walk :=
  match headers.baseReloc with
  | none => .ok ⟨image, 0, [], []⟩
  | some (nextBlock, baseRelocSize) =>
    if baseRelocSize = 0 then .ok ⟨image, nextBlock, [], []⟩
    else do
      let preferredBase ← image.read (headers.ntHeader + m.imageBaseField) m.pointerSize
      let diff := m.ulongPtr (imageBase + 256 ^ m.pointerSize - preferredBase)
      relocateBlocks m diff rounds ⟨image, nextBlock, [], []⟩

/-! ## The format -/

/-- `IMAGE_BASE_RELOCATION` with its entries. -/
structure RelocationBlock where
  address : Nat
  virtualAddress : Nat
  sizeOfBlock : Nat
  entries : List Nat
  deriving DecidableEq, Repr

/-- The `n` entries of the block at `p` from the `i`-th on. -/
def entriesFrom (image : ByteBlock) (p : Nat) : Nat → Nat → List Nat
  | 0, _ => []
  | n + 1, i => image.readLE (p + 8 + 2 * i) 2 :: entriesFrom image p n (i + 1)

/-- The block at an address. -/
def blockAt (image : ByteBlock) (p : Nat) : RelocationBlock where
  address := p
  virtualAddress := image.readLE p 4
  sizeOfBlock := image.readLE (p + 4) 4
  entries := entriesFrom image p ((image.readLE (p + 4) 4 - 8) / 2) 0

/-- The blocks from `p` on tile what is left of the directory. -/
inductive Tiles (image : ByteBlock) (stop : Nat) : Nat → List RelocationBlock → Prop
  | nil : Tiles image stop stop []
  | cons {p : Nat} {blocks : List RelocationBlock}
      (hsize : 8 ≤ (blockAt image p).sizeOfBlock)
      (hroom : p + (blockAt image p).sizeOfBlock ≤ stop)
      (hrest : Tiles image stop (p + (blockAt image p).sizeOfBlock) blocks) :
      Tiles image stop p (blockAt image p :: blocks)

/-- `IMAGE_REL_BASED_ABSOLUTE` -/
def isAbsolute (entry : Nat) : Prop := entry / 0x1000 = 0

instance (entry : Nat) : Decidable (isAbsolute entry) := inferInstanceAs (Decidable (_ = _))

/-- An entry for a pointer. -/
def isPointer (entry : Nat) : Prop := entry / 0x1000 = m.pointerType

instance (entry : Nat) : Decidable (isPointer m entry) := inferInstanceAs (Decidable (_ = _))

/-- What an entry of a block is for. -/
def RelocationBlock.target (b : RelocationBlock) (entry : Nat) : Nat :=
  b.virtualAddress + entry % 0x1000

/-- The addresses of the pointers a block is for. -/
def RelocationBlock.targets (b : RelocationBlock) : List Nat :=
  (b.entries.filter fun e => isPointer m e).map b.target

/-- Those of all the blocks. -/
def allTargets (blocks : List RelocationBlock) : List Nat :=
  blocks.flatMap fun b => b.targets m

/-- The image as the format specifies it: the difference is added once for each entry. -/
def relocated (image : ByteBlock) (targets : List Nat) : ByteBlock :=
  targets.foldl (addDiff m diff) image

/-- The relocation directory is well formed: its blocks tile it, their entries are of the two
types, and the pointers are inside the image. So are the directory and the headers. -/
structure WellFormed (image : ByteBlock) (ntHeader rva size : Nat)
    (blocks : List RelocationBlock) : Prop where
  tiles : Tiles image (rva + size) rva blocks
  types : ∀ b ∈ blocks, ∀ e ∈ b.entries, isAbsolute e ∨ isPointer m e
  inside : ∀ t ∈ allTargets m blocks, image.Holds t m.pointerSize
  directory : image.Holds rva size
  header : image.Holds (ntHeader + m.imageBaseField) m.pointerSize
  /-- `SizeOfImage` is a `ULONG`. -/
  ulong : image.size < 2 ^ 32

/-- No pointer lies in the directory, nor in the word behind it. -/
def NoOverlap (rva size : Nat) (blocks : List RelocationBlock) : Prop :=
  ∀ t ∈ allTargets m blocks, t + m.pointerSize ≤ rva ∨ rva + size + 4 ≤ t

/-! ## What is specified, and its condition -/

/-- The base the image has been linked for. -/
def preferredBase (image : ByteBlock) (ntHeader : Nat) : Nat :=
  image.readLE (ntHeader + m.imageBaseField) m.pointerSize

/-- The load base less the preferred base. -/
def difference (image : ByteBlock) (ntHeader imageBase : Nat) : Nat :=
  m.ulongPtr (imageBase + 256 ^ m.pointerSize - preferredBase m image ntHeader)

/-- The walk goes over the blocks of the directory and no others, changes each pointer once for
each entry and nothing else, and comes to an end. -/
def RelocatesAsSpecified (headers : Headers) (imageBase : Nat) (image : ByteBlock)
    (blocks : List RelocationBlock) : Prop :=
  ∃ rounds x, ldkpRelocateImage m headers imageBase rounds image = .ok x ∧
    x.image = relocated m (difference m image headers.ntHeader imageBase) image
      (allTargets m blocks) ∧
    x.fixups = allTargets m blocks ∧ x.blocks = blocks.map (·.address)

/-- Where the walk keeps to the format: no block is for the first page, the entries that are to be
ignored are zero, and so is the word behind the directory. -/
structure Walkable (image : ByteBlock) (rva size : Nat) (blocks : List RelocationBlock) : Prop where
  addresses : ∀ b ∈ blocks, b.virtualAddress ≠ 0
  padding : ∀ b ∈ blocks, ∀ e ∈ b.entries, isAbsolute e → e = 0
  terminated : size ≠ 0 → image.Holds (rva + size) 4 ∧ image.readLE (rva + size) 4 = 0

/-! ## Changing pointers -/

variable {m diff} {image : ByteBlock} {x x' : Walk} {start length t : Nat} {ts : List Nat}

/-- The pointer at an address is outside of a range. -/
def Avoids (m : Machine) (start length t : Nat) : Prop :=
  t + m.pointerSize ≤ start ∨ start + length ≤ t

theorem relocated_append (ts ts' : List Nat) :
    relocated m diff image (ts ++ ts') = relocated m diff (relocated m diff image ts) ts' :=
  List.foldl_append

theorem relocated_size : (relocated m diff image ts).size = image.size := by
  induction ts generalizing image with
  | nil => rfl
  | cons t ts ih => exact ih

/-- What no pointer is in stays the same. -/
theorem agrees_relocated (h : ∀ t ∈ ts, Avoids m start length t) :
    ByteBlock.Agrees image (relocated m diff image ts) start length := by
  induction ts generalizing image with
  | nil => exact .refl image start length
  | cons t ts ih =>
    have hfirst : ByteBlock.Agrees image (addDiff m diff image t) start length :=
      ByteBlock.agrees_writeLE _ (h t List.mem_cons_self).symm
    exact hfirst.trans (ih fun u hu => h u (List.mem_cons_of_mem _ hu))

/-- A pointer that shares no byte with another target is changed once. -/
theorem relocated_target {before after : List Nat}
    (hbefore : ∀ u ∈ before, Avoids m t m.pointerSize u)
    (hafter : ∀ u ∈ after, Avoids m t m.pointerSize u) :
    (relocated m diff image (before ++ t :: after)).readLE t m.pointerSize =
      m.ulongPtr (image.readLE t m.pointerSize + diff) := by
  have hmod := Nat.mod_mod (image.readLE t m.pointerSize + diff) (256 ^ m.pointerSize)
  rw [relocated_append]
  change (relocated m diff (addDiff m diff _ t) after).readLE t m.pointerSize = _
  rw [(agrees_relocated hafter).readLE]
  unfold addDiff
  rw [ByteBlock.readLE_writeLE, (agrees_relocated hbefore).readLE]
  exact hmod

theorem fixup_eq (h : x.image.Holds t m.pointerSize) :
    x.fixup m diff t =
      .ok { x with image := addDiff m diff x.image t, fixups := x.fixups ++ [t] } := by
  unfold Walk.fixup
  rw [ByteBlock.read_eq h, Yields.ok_bind, ByteBlock.write_eq h, Yields.ok_bind]
  rfl

theorem of_fixup (h : x.fixup m diff t = .ok x') :
    x' = { x with image := addDiff m diff x.image t, fixups := x.fixups ++ [t] } := by
  unfold Walk.fixup at h
  obtain ⟨value, hvalue, h⟩ := Ensures.ok_of_bind h
  obtain ⟨image, himage, h⟩ := Ensures.ok_of_bind h
  obtain ⟨-, rfl⟩ := ByteBlock.of_read hvalue
  obtain ⟨-, rfl⟩ := ByteBlock.of_write himage
  exact (Except.ok.inj h).symm

/-! ## The entries of a block -/

/-- The addresses the code changes for the entries of a block: for all that are not zero. -/
def codeTargets (virtualAddress : Nat) (entries : List Nat) : List Nat :=
  (entries.filter fun e => e ≠ 0).map fun e => (virtualAddress + e % 0x1000) % 2 ^ 32

theorem codeTargets_zero (va : Nat) (es : List Nat) :
    codeTargets va (0 :: es) = codeTargets va es := rfl

theorem codeTargets_cons {e : Nat} (va : Nat) (es : List Nat) (he : e ≠ 0) :
    codeTargets va (e :: es) = (va + e % 0x1000) % 2 ^ 32 :: codeTargets va es := by
  have hfilter : (e :: es).filter (fun e => e ≠ 0) = e :: es.filter fun e => e ≠ 0 :=
    List.filter_cons_of_pos (decide_eq_true he)
  unfold codeTargets
  rw [hfilter, List.map_cons]

/-- A walk only adds to what has been entered and changed. -/
structure Walk.Extends (x x' : Walk) : Prop where
  fixups : x.fixups <+: x'.fixups
  blocks : x.blocks <+: x'.blocks
  size : x'.image.size = x.image.size

namespace Walk.Extends

theorem refl (x : Walk) : x.Extends x := ⟨List.prefix_refl _, List.prefix_refl _, rfl⟩

theorem trans {x'' : Walk} (h : x.Extends x') (h' : x'.Extends x'') : x.Extends x'' :=
  ⟨h.fixups.trans h'.fixups, h.blocks.trans h'.blocks, h'.size.trans h.size⟩

theorem changed (x : Walk) (t : Nat) :
    x.Extends { x with image := addDiff m diff x.image t, fixups := x.fixups ++ [t] } :=
  ⟨List.prefix_append _ _, List.prefix_refl _, rfl⟩

end Walk.Extends

theorem entries_extends {n i : Nat} (h : relocateEntries m diff n i x = .ok x') :
    x.Extends x' ∧ x'.blocks = x.blocks ∧ x'.nextBlock = x.nextBlock := by
  induction n generalizing i x with
  | zero =>
    obtain rfl := Except.ok.inj h
    exact ⟨.refl x, rfl, rfl⟩
  | succ n ih =>
    unfold relocateEntries at h
    obtain ⟨entry, -, h⟩ := Ensures.ok_of_bind h
    split at h
    · exact ih h
    · obtain ⟨va, -, h⟩ := Ensures.ok_of_bind h
      obtain ⟨x₁, hx₁, h⟩ := Ensures.ok_of_bind h
      obtain rfl := of_fixup hx₁
      obtain ⟨hextends, hblocks, hnext⟩ := ih h
      exact ⟨(Walk.Extends.changed x _).trans hextends, hblocks, hnext⟩

/-- While no pointer lies in the directory, the loop reads it as it is in the file. -/
theorem entries_run {n i : Nat} (h : relocateEntries m diff n i x = .ok x')
    (hagrees : ByteBlock.Agrees image x.image start length) (hlow : start ≤ x.nextBlock)
    (hhigh : x.nextBlock + 8 + 2 * (i + n) ≤ start + length)
    (havoids : ∀ t ∈ x'.fixups, Avoids m start length t) :
    ByteBlock.Agrees image x'.image start length ∧
      x'.fixups = x.fixups ++
        codeTargets (image.readLE x.nextBlock 4) (entriesFrom image x.nextBlock n i) := by
  induction n generalizing i x with
  | zero =>
    obtain rfl := Except.ok.inj h
    exact ⟨hagrees, (List.append_nil _).symm⟩
  | succ n ih =>
    unfold relocateEntries at h
    obtain ⟨entry, hentry, h⟩ := Ensures.ok_of_bind h
    obtain ⟨-, rfl⟩ := ByteBlock.of_read hentry
    have hsame : x.image.readLE (x.nextBlock + 8 + 2 * i) 2 =
        image.readLE (x.nextBlock + 8 + 2 * i) 2 :=
      (hagrees.mono (by omega) (by omega)).readLE
    rw [hsame] at h
    unfold entriesFrom
    split at h
    · rename_i hzero
      rw [hzero, codeTargets_zero]
      exact ih h hagrees hlow (by omega)
    · rename_i hentry
      obtain ⟨va, hva, h⟩ := Ensures.ok_of_bind h
      obtain ⟨-, rfl⟩ := ByteBlock.of_read hva
      obtain ⟨x₁, hx₁, h⟩ := Ensures.ok_of_bind h
      have hvirtual : x.image.readLE x.nextBlock 4 = image.readLE x.nextBlock 4 :=
        (hagrees.mono hlow (by omega)).readLE
      rw [hvirtual] at hx₁
      obtain rfl := of_fixup hx₁
      -- the pointer just changed is one of those at the end
      have hmem := (entries_extends h).1.fixups.subset (List.mem_append_right _ List.mem_cons_self)
      have hwrite : ByteBlock.Agrees image (addDiff m diff x.image
          ((image.readLE x.nextBlock 4 +
            image.readLE (x.nextBlock + 8 + 2 * i) 2 % 0x1000) % 2 ^ 32)) start length :=
        hagrees.trans (ByteBlock.agrees_writeLE _ (havoids _ hmem).symm)
      obtain ⟨hfinal, hfixups⟩ := ih h hwrite hlow (by dsimp only; omega)
      refine ⟨hfinal, ?_⟩
      rw [hfixups, codeTargets_cons _ _ hentry, List.append_assoc]
      rfl

theorem block_extends {sizeOfBlock : Nat} (h : relocateBlock m diff sizeOfBlock x = .ok x') :
    x.Extends x' ∧ x'.blocks = x.blocks ∧ x'.nextBlock = x.nextBlock := by
  unfold relocateBlock at h
  split at h
  · exact entries_extends h
  · obtain rfl := Except.ok.inj h
    exact ⟨.refl x, rfl, rfl⟩

/-! ## A walk that keeps to the directory -/

theorem blocks_extends {rounds : Nat} (h : relocateBlocks m diff rounds x = .ok x') :
    x.Extends x' := by
  induction rounds generalizing x with
  | zero => cases h
  | succ rounds ih =>
    unfold relocateBlocks at h
    obtain ⟨va, -, h⟩ := Ensures.ok_of_bind h
    split at h
    · obtain rfl := Except.ok.inj h
      exact .refl x
    · obtain ⟨sizeOfBlock, -, h⟩ := Ensures.ok_of_bind h
      obtain ⟨x₁, hx₁, h⟩ := Ensures.ok_of_bind h
      obtain ⟨sizeAfter, -, h⟩ := Ensures.ok_of_bind h
      have hentered : x.Extends { x with blocks := x.blocks ++ [x.nextBlock] } :=
        ⟨List.prefix_refl _, List.prefix_append _ _, rfl⟩
      have hblock := hentered.trans (block_extends hx₁).1
      split at h
      · obtain rfl := Except.ok.inj h
        exact hblock
      · have hrest := ih h
        exact hblock.trans ⟨hrest.fixups, hrest.blocks, hrest.size⟩

/-- The first round when there is a block. -/
theorem round_entered {rounds : Nat} (h : relocateBlocks m diff (rounds + 1) x = .ok x')
    (hva : x.image.readLE x.nextBlock 4 ≠ 0) : x.blocks.length < x'.blocks.length := by
  unfold relocateBlocks at h
  obtain ⟨va, hread, h⟩ := Ensures.ok_of_bind h
  obtain ⟨-, rfl⟩ := ByteBlock.of_read hread
  rw [if_neg hva] at h
  obtain ⟨sizeOfBlock, -, h⟩ := Ensures.ok_of_bind h
  obtain ⟨x₁, hx₁, h⟩ := Ensures.ok_of_bind h
  obtain ⟨sizeAfter, -, h⟩ := Ensures.ok_of_bind h
  have hlength : x₁.blocks.length = x.blocks.length + 1 := by
    rw [(block_extends hx₁).2.1, List.length_append, List.length_singleton]
  split at h
  · obtain rfl := Except.ok.inj h
    omega
  · have hrest := (blocks_extends h).blocks.length_le
    dsimp only at hrest
    omega

/-- A walk that enters the blocks of the directory and no others. -/
theorem blocks_run {rva size p : Nat} {bs : List RelocationBlock}
    (htiles : Tiles image (rva + size) p bs) {rounds : Nat}
    (h : relocateBlocks m diff rounds x = .ok x') (hnext : x.nextBlock = p)
    (hagrees : ByteBlock.Agrees image x.image rva (size + 4)) (hsize : x.image.size = image.size)
    (hlow : rva ≤ p) (hulong : rva + size < 2 ^ 32)
    (havoids : ∀ t ∈ x'.fixups, Avoids m rva (size + 4) t)
    (hblocks : x'.blocks.length = x.blocks.length + bs.length) :
    (∀ b ∈ bs, b.virtualAddress ≠ 0) ∧ image.Holds (rva + size) 4 ∧
      image.readLE (rva + size) 4 = 0 ∧
      x'.fixups = x.fixups ++ bs.flatMap fun b => codeTargets b.virtualAddress b.entries := by
  induction htiles generalizing x rounds with
  | nil =>
    cases rounds with
    | zero => cases h
    | succ rounds =>
      have hsame : x.image.readLE (rva + size) 4 = image.readLE (rva + size) 4 :=
        (hagrees.mono (Nat.le_add_right _ _) (by omega)).readLE
      by_cases hva : x.image.readLE x.nextBlock 4 = 0
      · unfold relocateBlocks at h
        obtain ⟨va, hread, h⟩ := Ensures.ok_of_bind h
        obtain ⟨hholds, rfl⟩ := ByteBlock.of_read hread
        rw [if_pos hva] at h
        obtain rfl := Except.ok.inj h
        rw [hnext] at hholds hva
        unfold ByteBlock.Holds at hholds ⊢
        rw [hsize] at hholds
        refine ⟨fun b hb => absurd hb List.not_mem_nil, hholds, hsame.symm.trans hva, ?_⟩
        exact (List.append_nil _).symm
      · -- the word behind the directory would be entered as a block
        have hlt := round_entered h hva
        rw [List.length_nil] at hblocks
        omega
  | @cons p bs hsizeOfBlock hroom htiles ih =>
    have hva : x.image.readLE x.nextBlock 4 = (blockAt image p).virtualAddress := by
      rw [hnext]
      exact (hagrees.mono hlow (by omega)).readLE
    have hlength : ∀ y : Walk, ByteBlock.Agrees image y.image rva (size + 4) →
        y.nextBlock = p → y.image.readLE (y.nextBlock + 4) 4 = (blockAt image p).sizeOfBlock := by
      intro y hy hynext
      rw [hynext]
      exact (hy.mono (by omega) (by omega)).readLE
    cases rounds with
    | zero => cases h
    | succ rounds =>
      unfold relocateBlocks at h
      obtain ⟨va, hread, h⟩ := Ensures.ok_of_bind h
      obtain ⟨-, rfl⟩ := ByteBlock.of_read hread
      by_cases hzero : x.image.readLE x.nextBlock 4 = 0
      · -- a block for the first page ends the walk
        rw [if_pos hzero] at h
        obtain rfl := Except.ok.inj h
        rw [List.length_cons] at hblocks
        omega
      · rw [if_neg hzero] at h
        obtain ⟨sizeOfBlock, hread, h⟩ := Ensures.ok_of_bind h
        obtain ⟨-, rfl⟩ := ByteBlock.of_read hread
        obtain ⟨x₁, hx₁, h⟩ := Ensures.ok_of_bind h
        obtain ⟨sizeAfter, hread, h⟩ := Ensures.ok_of_bind h
        obtain ⟨-, rfl⟩ := ByteBlock.of_read hread
        obtain ⟨hextends, hentered, hsamenext⟩ := block_extends hx₁
        have hx₁next : x₁.nextBlock = p := hsamenext.trans hnext
        have hx₁avoids : ∀ t ∈ x₁.fixups, Avoids m rva (size + 4) t := by
          intro t ht
          apply havoids t
          split at h
          · obtain rfl := Except.ok.inj h
            exact ht
          · exact (blocks_extends h).fixups.subset ht
        -- the entries are read as they are in the file
        unfold relocateBlock at hx₁
        rw [hlength x hagrees hnext, if_pos hsizeOfBlock] at hx₁
        obtain ⟨hagrees₁, hfixups₁⟩ := entries_run hx₁ hagrees (by dsimp only; omega)
          (by dsimp only; omega) hx₁avoids
        rw [hlength x₁ hagrees₁ hx₁next, if_neg (by omega)] at h
        have hnext₂ : m.ulongPtr (x₁.nextBlock + (blockAt image p).sizeOfBlock) =
            p + (blockAt image p).sizeOfBlock := by
          rw [hx₁next]
          apply Nat.mod_eq_of_lt
          have hpow : 256 ^ 4 ≤ 256 ^ m.pointerSize :=
            Nat.pow_le_pow_right (by decide) (by cases m <;> decide)
          omega
        rw [hnext₂] at h
        have hcount : x'.blocks.length = x₁.blocks.length + bs.length := by
          rw [hblocks, hentered, List.length_append, List.length_singleton, List.length_cons]
          omega
        obtain ⟨haddresses, hholds, hterminated, hfixups⟩ := ih h rfl hagrees₁
          (hextends.size.trans hsize) (by omega) hcount
        refine ⟨?_, hholds, hterminated, ?_⟩
        · intro b hb
          rcases List.mem_cons.mp hb with rfl | hb
          · rw [← hva]
            exact hzero
          · exact haddresses b hb
        · dsimp only at hfixups hfixups₁
          rw [hfixups, hfixups₁, List.flatMap_cons, List.append_assoc, hnext]
          rfl

/-! ## The walk over a directory that is terminated -/

theorem Walk.read_same {offset width : Nat} (x : Walk)
    (hagrees : ByteBlock.Agrees image x.image start length) (hsize : x.image.size = image.size)
    (hlow : start ≤ offset) (hhigh : offset + width ≤ start + length)
    (hholds : offset + width ≤ image.size) :
    x.image.read offset width = .ok (image.readLE offset width) := by
  have hx : x.image.Holds offset width := by
    unfold ByteBlock.Holds
    rw [hsize]
    exact hholds
  rw [ByteBlock.read_eq hx, (hagrees.mono hlow hhigh).readLE]

theorem entries_ok {n i : Nat} (hagrees : ByteBlock.Agrees image x.image start length)
    (hsize : x.image.size = image.size) (hlow : start ≤ x.nextBlock)
    (hhigh : x.nextBlock + 8 + 2 * (i + n) ≤ start + length)
    (hholds : x.nextBlock + 8 + 2 * (i + n) ≤ image.size)
    (htargets : ∀ t ∈ codeTargets (image.readLE x.nextBlock 4) (entriesFrom image x.nextBlock n i),
      image.Holds t m.pointerSize ∧ Avoids m start length t) :
    relocateEntries m diff n i x = .ok { x with
      image := relocated m diff x.image
        (codeTargets (image.readLE x.nextBlock 4) (entriesFrom image x.nextBlock n i))
      fixups := x.fixups ++
        codeTargets (image.readLE x.nextBlock 4) (entriesFrom image x.nextBlock n i) } := by
  induction n generalizing i x with
  | zero =>
    change Except.ok x = .ok { x with fixups := x.fixups ++ [] }
    rw [List.append_nil]
  | succ n ih =>
    unfold relocateEntries
    rw [x.read_same hagrees hsize (by omega) (by omega) (by omega), Yields.ok_bind]
    unfold entriesFrom at htargets ⊢
    by_cases hzero : image.readLE (x.nextBlock + 8 + 2 * i) 2 = 0
    · rw [hzero, codeTargets_zero] at htargets
      rw [if_pos hzero, hzero, codeTargets_zero]
      exact ih hagrees hsize hlow (by omega) (by omega) htargets
    · rw [codeTargets_cons _ _ hzero] at htargets
      rw [if_neg hzero, x.read_same hagrees hsize hlow (by omega) (by omega), Yields.ok_bind,
        codeTargets_cons _ _ hzero]
      generalize (image.readLE x.nextBlock 4 +
        image.readLE (x.nextBlock + 8 + 2 * i) 2 % 0x1000) % 2 ^ 32 = t at htargets ⊢
      obtain ⟨hinside, havoids⟩ := htargets t List.mem_cons_self
      have hfixup : x.image.Holds t m.pointerSize := by
        unfold ByteBlock.Holds at hinside ⊢
        rw [hsize]
        exact hinside
      have hwrite : ByteBlock.Agrees image (addDiff m diff x.image t) start length :=
        hagrees.trans (ByteBlock.agrees_writeLE _ havoids.symm)
      have hrest := @ih { x with image := addDiff m diff x.image t, fixups := x.fixups ++ [t] }
        (i + 1) hwrite hsize hlow (by dsimp only; omega) (by dsimp only; omega)
        (fun u hu => htargets u (List.mem_cons_of_mem _ hu))
      rw [fixup_eq hfixup, Yields.ok_bind]
      refine hrest.trans ?_
      dsimp only
      rw [List.append_assoc]
      rfl

/-- The walk over the blocks of a directory with a word of zero behind it. -/
theorem blocks_ok {rva size p : Nat} {bs : List RelocationBlock}
    (htiles : Tiles image (rva + size) p bs) (hnext : x.nextBlock = p)
    (hagrees : ByteBlock.Agrees image x.image rva (size + 4)) (hsize : x.image.size = image.size)
    (hlow : rva ≤ p) (hulong : rva + size < 2 ^ 32) (hholds : image.Holds (rva + size) 4)
    (hterminated : image.readLE (rva + size) 4 = 0) (haddresses : ∀ b ∈ bs, b.virtualAddress ≠ 0)
    (htargets : ∀ b ∈ bs, ∀ t ∈ codeTargets b.virtualAddress b.entries,
      image.Holds t m.pointerSize ∧ Avoids m rva (size + 4) t) :
    ∃ x', relocateBlocks m diff (bs.length + 1) x = .ok x' ∧
      x'.image = relocated m diff x.image
        (bs.flatMap fun b => codeTargets b.virtualAddress b.entries) ∧
      x'.fixups = x.fixups ++ (bs.flatMap fun b => codeTargets b.virtualAddress b.entries) ∧
      x'.blocks = x.blocks ++ bs.map (·.address) := by
  unfold ByteBlock.Holds at hholds
  induction htiles generalizing x with
  | nil =>
    refine ⟨x, ?_, rfl, (List.append_nil _).symm, (List.append_nil _).symm⟩
    unfold relocateBlocks
    rw [hnext, x.read_same hagrees hsize (by omega) (by omega) (by omega), Yields.ok_bind,
      if_pos hterminated]
    rfl
  | @cons p bs hsizeOfBlock hroom htiles ih =>
    have hva := haddresses _ List.mem_cons_self
    have hblock := htargets _ List.mem_cons_self
    have hentries := @entries_ok m diff image
      { x with blocks := x.blocks ++ [x.nextBlock] } rva (size + 4)
      (((blockAt image p).sizeOfBlock - 8) / 2) 0 hagrees hsize (by dsimp only; omega)
      (by dsimp only; omega) (by dsimp only; omega)
      (by dsimp only; rw [hnext]; exact hblock)
    dsimp only at hentries
    rw [hnext] at hentries
    -- what the walk is at after the entries of the block
    let x₁ : Walk :=
      { x with
        image := relocated m diff x.image
          (codeTargets (blockAt image p).virtualAddress (blockAt image p).entries)
        nextBlock := p + (blockAt image p).sizeOfBlock
        blocks := x.blocks ++ [p]
        fixups := x.fixups ++
          codeTargets (blockAt image p).virtualAddress (blockAt image p).entries }
    have hagrees₁ : ByteBlock.Agrees image x₁.image rva (size + 4) :=
      hagrees.trans (agrees_relocated fun t ht => (hblock t ht).2)
    have hsize₁ : x₁.image.size = image.size := relocated_size.trans hsize
    obtain ⟨x', hrun, himage, hfixups, hblocks⟩ := @ih x₁ rfl hagrees₁ hsize₁ (by omega)
      (fun b hb => haddresses b (List.mem_cons_of_mem _ hb))
      (fun b hb => htargets b (List.mem_cons_of_mem _ hb))
    refine ⟨x', ?_, ?_, ?_, ?_⟩
    · unfold relocateBlocks
      rw [hnext, x.read_same hagrees hsize hlow (by omega) (by omega), Yields.ok_bind,
        if_neg (show ¬ image.readLE p 4 = 0 from hva),
        x.read_same hagrees hsize (by omega) (by omega) (by omega), Yields.ok_bind]
      unfold relocateBlock
      rw [if_pos (show 8 ≤ image.readLE (p + 4) 4 from hsizeOfBlock)]
      have hpow : 256 ^ 4 ≤ 256 ^ m.pointerSize :=
        Nat.pow_le_pow_right (by decide) (by cases m <;> decide)
      have hmod : m.ulongPtr (p + (blockAt image p).sizeOfBlock) =
          p + (blockAt image p).sizeOfBlock := Nat.mod_eq_of_lt (by omega)
      have hsame := @Walk.read_same image rva (size + 4) (p + 4) 4 x₁ hagrees₁ hsize₁ (by omega)
        (by omega) (by omega)
      refine (congrArg (· >>= _) hentries).trans ?_
      rw [Yields.ok_bind]
      refine (congrArg (· >>= _) hsame).trans ?_
      rw [Yields.ok_bind, if_neg (by change (blockAt image p).sizeOfBlock ≠ 0; omega)]
      change relocateBlocks m diff (bs.length + 1)
        { x₁ with nextBlock := m.ulongPtr (p + (blockAt image p).sizeOfBlock) } = _
      rw [hmod]
      exact hrun
    · rw [himage, List.flatMap_cons, relocated_append]
    · rw [hfixups, List.flatMap_cons, ← List.append_assoc]
    · rw [hblocks, List.map_cons, List.append_assoc]
      rfl

/-! ## The condition -/

theorem isPointer_ne_zero {e : Nat} (h : isPointer m e) : e ≠ 0 := by
  rintro rfl
  have hpos := m.pointerType_pos
  unfold isPointer at h
  omega

theorem isAbsolute_zero : isAbsolute 0 := rfl

/-- The pointers are some of the addresses the code changes. -/
theorem targets_length_le (b : RelocationBlock) :
    (b.targets m).length ≤ (codeTargets b.virtualAddress b.entries).length := by
  unfold RelocationBlock.targets codeTargets
  rw [List.length_map, List.length_map, ← List.countP_eq_length_filter,
    ← List.countP_eq_length_filter]
  apply List.countP_mono_left
  intro e _ he
  exact decide_eq_true (isPointer_ne_zero (of_decide_eq_true he))

/-- They are all of them when what is to be ignored is zero. -/
theorem codeTargets_eq {b : RelocationBlock}
    (htypes : ∀ e ∈ b.entries, isAbsolute e ∨ isPointer m e)
    (hpadding : ∀ e ∈ b.entries, isAbsolute e → e = 0)
    (hulong : ∀ t ∈ b.targets m, t < 2 ^ 32) :
    codeTargets b.virtualAddress b.entries = b.targets m := by
  have hfilter : (b.entries.filter fun e => e ≠ 0) = b.entries.filter fun e => isPointer m e := by
    apply List.filter_congr
    intro e he
    apply decide_eq_decide.mpr
    constructor
    · intro hne
      exact (htypes e he).resolve_left fun habsolute => hne (hpadding e he habsolute)
    · exact isPointer_ne_zero
  unfold codeTargets RelocationBlock.targets at *
  rw [hfilter]
  apply List.map_congr_left
  intro e he
  exact Nat.mod_eq_of_lt (hulong _ (List.mem_map_of_mem he))

/-- An entry that is to be ignored and not zero makes one address too many. -/
theorem padding_of_length {b : RelocationBlock}
    (hlength : (codeTargets b.virtualAddress b.entries).length ≤ (b.targets m).length) :
    ∀ e ∈ b.entries, isAbsolute e → e = 0 := by
  intro e he habsolute
  by_contra hne
  have hfilter : b.entries.filter (fun e => isPointer m e) =
      (b.entries.filter fun e => e ≠ 0).filter fun e => isPointer m e := by
    rw [List.filter_filter]
    apply List.filter_congr
    intro a _
    by_cases hpointer : isPointer m a
    · rw [decide_eq_true hpointer, decide_eq_true (isPointer_ne_zero hpointer)]
      rfl
    · rw [decide_eq_false hpointer]
      rfl
  unfold RelocationBlock.targets codeTargets at hlength
  rw [List.length_map, List.length_map, hfilter] at hlength
  have hall := List.length_filter_eq_length_iff.mp
    (Nat.le_antisymm (List.length_filter_le _ _) hlength) e
    (List.mem_filter.mpr ⟨he, decide_eq_true hne⟩)
  have hpointer : isPointer m e := of_decide_eq_true hall
  unfold isPointer at hpointer
  have hpos := m.pointerType_pos
  exact absurd (habsolute.symm.trans hpointer) (Nat.ne_of_lt hpos)

theorem padding_of_fixups {bs : List RelocationBlock}
    (h : allTargets m bs = bs.flatMap fun b => codeTargets b.virtualAddress b.entries) :
    ∀ b ∈ bs, ∀ e ∈ b.entries, isAbsolute e → e = 0 := by
  have hle : ∀ bs : List RelocationBlock, (allTargets m bs).length ≤
      (bs.flatMap fun b => codeTargets b.virtualAddress b.entries).length := by
    intro bs
    induction bs with
    | nil => exact Nat.le_refl _
    | cons b bs ih =>
      unfold allTargets at ih ⊢
      rw [List.flatMap_cons, List.flatMap_cons, List.length_append, List.length_append]
      exact Nat.add_le_add (targets_length_le b) ih
  have hlength := congrArg List.length h
  clear h
  induction bs with
  | nil => exact fun b hb => absurd hb List.not_mem_nil
  | cons b bs ih =>
    have hfirst := targets_length_le (m := m) b
    have hrest := hle bs
    unfold allTargets at hlength hrest ih
    rw [List.flatMap_cons, List.flatMap_cons, List.length_append, List.length_append] at hlength
    intro c hc
    rcases List.mem_cons.mp hc with rfl | hc
    · exact @padding_of_length m c (by omega)
    · exact ih (by omega) c hc

variable {headers : Headers} {imageBase rva size : Nat} {blocks : List RelocationBlock}

/-- The walk begins after the difference has been found. -/
theorem ldkpRelocateImage_eq (hdirectory : headers.baseReloc = some (rva, size))
    (hsize : size ≠ 0) (hheader : image.Holds (headers.ntHeader + m.imageBaseField) m.pointerSize)
    (rounds : Nat) :
    ldkpRelocateImage m headers imageBase rounds image =
      relocateBlocks m (difference m image headers.ntHeader imageBase) rounds
        ⟨image, rva, [], []⟩ := by
  unfold ldkpRelocateImage
  rw [hdirectory]
  dsimp only
  rw [if_neg hsize, ByteBlock.read_eq hheader, Yields.ok_bind]
  rfl

/-- There are no blocks in a directory without a byte. -/
theorem WellFormed.blocks_eq_nil (h : WellFormed m image headers.ntHeader rva 0 blocks) :
    blocks = [] := by
  cases h.tiles with
  | nil => rfl
  | cons hsize hroom hrest => omega

theorem WellFormed.walkable (h : WellFormed m image headers.ntHeader rva size blocks)
    (hdirectory : headers.baseReloc = some (rva, size)) (hoverlap : NoOverlap m rva size blocks)
    (hrelocates : RelocatesAsSpecified m headers imageBase image blocks) :
    Walkable image rva size blocks := by
  by_cases hsize : size = 0
  · subst hsize
    rw [h.blocks_eq_nil]
    exact ⟨fun b hb => absurd hb List.not_mem_nil, fun b hb => absurd hb List.not_mem_nil,
      fun hne => absurd rfl hne⟩
  · obtain ⟨rounds, x, hrun, -, hfixups, hblocks⟩ := hrelocates
    rw [ldkpRelocateImage_eq hdirectory hsize h.header] at hrun
    have hulong : rva + size < 2 ^ 32 := Nat.lt_of_le_of_lt h.directory h.ulong
    have havoids : ∀ t ∈ x.fixups, Avoids m rva (size + 4) t := by
      intro t ht
      rw [hfixups] at ht
      exact hoverlap t ht
    obtain ⟨haddresses, hholds, hterminated, hcode⟩ := blocks_run h.tiles hrun rfl
      (ByteBlock.Agrees.refl image rva (size + 4)) rfl (Nat.le_refl _) hulong havoids
      (by rw [hblocks, List.length_map]; exact (Nat.zero_add _).symm)
    exact ⟨haddresses, padding_of_fixups (hfixups.symm.trans hcode), fun _ => ⟨hholds, hterminated⟩⟩

/-- `LdkpRelocateImage` makes the image the format specifies exactly when its walk keeps to the
directory. -/
theorem relocation_follows_format (m : Machine) (headers : Headers) (imageBase rva size : Nat)
    (image : ByteBlock) (blocks : List RelocationBlock)
    (hdirectory : headers.baseReloc = some (rva, size))
    (hformed : WellFormed m image headers.ntHeader rva size blocks)
    (hoverlap : NoOverlap m rva size blocks) :
    RelocatesAsSpecified m headers imageBase image blocks ↔ Walkable image rva size blocks := by
  refine ⟨hformed.walkable hdirectory hoverlap, fun hwalk => ?_⟩
  by_cases hsize : size = 0
  · subst hsize
    rw [hformed.blocks_eq_nil]
    refine ⟨0, ⟨image, rva, [], []⟩, ?_, rfl, rfl, rfl⟩
    unfold ldkpRelocateImage
    rw [hdirectory]
    rfl
  · obtain ⟨hholds, hterminated⟩ := hwalk.terminated hsize
    have hulong : rva + size < 2 ^ 32 := Nat.lt_of_le_of_lt hformed.directory hformed.ulong
    have hmem : ∀ b ∈ blocks, ∀ t ∈ b.targets m, t ∈ allTargets m blocks :=
      fun b hb t ht => List.mem_flatMap.mpr ⟨b, hb, ht⟩
    -- the code reads every entry as the format means it
    have hsame : ∀ b ∈ blocks, codeTargets b.virtualAddress b.entries = b.targets m := by
      intro b hb
      apply codeTargets_eq (hformed.types b hb) (hwalk.padding b hb)
      intro t ht
      have hinside := hformed.inside t (hmem b hb t ht)
      have hpos := m.pointerSize_pos
      have hlt := hformed.ulong
      unfold ByteBlock.Holds at hinside
      omega
    have hall : (blocks.flatMap fun b => codeTargets b.virtualAddress b.entries) =
        allTargets m blocks := by
      unfold allTargets
      rw [List.flatMap_def, List.flatMap_def, List.map_congr_left hsame]
    obtain ⟨x, hrun, himage, hfixups, hblocks⟩ := @blocks_ok m
      (difference m image headers.ntHeader imageBase) image ⟨image, rva, [], []⟩ rva size rva
      blocks hformed.tiles rfl (ByteBlock.Agrees.refl image rva (size + 4)) rfl (Nat.le_refl _)
      hulong hholds hterminated hwalk.addresses (by
        intro b hb t ht
        rw [hsame b hb] at ht
        exact ⟨hformed.inside t (hmem b hb t ht), hoverlap t (hmem b hb t ht)⟩)
    refine ⟨blocks.length + 1, x, ?_, ?_, ?_, ?_⟩
    · rw [ldkpRelocateImage_eq hdirectory hsize hformed.header]
      exact hrun
    · rw [himage, hall]
    · rw [hfixups, hall]
      rfl
    · rw [hblocks]
      rfl

/-! ## A block of two entries -/

/-- An image of 64 bytes. The directory, at 16, is one block for the page at 32 with a pointer at
its start and an entry to be ignored; the rest is zero. -/
def smallImage (ignored : UInt8) : ByteBlock where
  size := 64
  bytes i := ([32, 0, 0, 0, 12, 0, 0, 0, 0, 0xa0, ignored, 0] : List UInt8).getD (i - 16) 0

def smallHeaders : Headers := ⟨0, some (16, 12)⟩

/-- The blocks of its directory. -/
def smallBlocks (ignored : UInt8) : List RelocationBlock := [blockAt (smallImage ignored) 16]

theorem smallImage_wellFormed (ignored : UInt8) (hignored : ignored = 0 ∨ ignored = 4) :
    WellFormed .amd64 (smallImage ignored) 0 16 12 (smallBlocks ignored) where
  tiles := by
    rcases hignored with rfl | rfl
    all_goals exact .cons (by decide) (by decide) .nil
  types := by rcases hignored with rfl | rfl <;> decide
  inside := by rcases hignored with rfl | rfl <;> decide
  directory := show 16 + 12 ≤ 64 by decide
  header := show 0 + 48 + 8 ≤ 64 by decide
  ulong := show 64 < 2 ^ 32 by decide

theorem smallImage_noOverlap (ignored : UInt8) (hignored : ignored = 0 ∨ ignored = 4) :
    NoOverlap .amd64 16 12 (smallBlocks ignored) := by
  unfold NoOverlap
  rcases hignored with rfl | rfl <;> decide

/-- With zero for padding the image is relocated. -/
theorem smallImage_is_relocated :
    RelocatesAsSpecified .amd64 smallHeaders 0x10000 (smallImage 0) (smallBlocks 0) := by
  apply (relocation_follows_format .amd64 smallHeaders 0x10000 16 12 (smallImage 0) (smallBlocks 0)
    rfl (smallImage_wellFormed 0 (.inl rfl)) (smallImage_noOverlap 0 (.inl rfl))).mpr
  constructor
  · decide
  · decide
  · decide

/-- With another offset in the entry that is to be ignored, the bytes at that offset change. -/
theorem absolute_entry_is_applied :
    ¬ ∀ (m : Machine) (headers : Headers) (imageBase rva size : Nat) (image : ByteBlock)
      (blocks : List RelocationBlock), headers.baseReloc = some (rva, size) →
      WellFormed m image headers.ntHeader rva size blocks → NoOverlap m rva size blocks →
        RelocatesAsSpecified m headers imageBase image blocks := by
  intro h
  have hformed := smallImage_wellFormed 4 (.inr rfl)
  have hoverlap := smallImage_noOverlap 4 (.inr rfl)
  have hrelocates := h .amd64 smallHeaders 0x10000 16 12 (smallImage 4) (smallBlocks 4) rfl hformed
    hoverlap
  have hwalk := hformed.walkable rfl hoverlap hrelocates
  exact absurd (hwalk.padding (blockAt (smallImage 4) 16) List.mem_cons_self 4 (by decide) rfl)
    (by decide)

end Ldk.PeImage
