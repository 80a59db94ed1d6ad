import Mathlib
import Ldk.SystemInfo.Processors

/-!
# The entries of the processor information

The length that is computed first is that of the entries which are appended then, for every
topology.

- `Appends`: what a part of the routines appends to the buffer, with the rules for sequences and
  loops.
- `sum_countBits`: the bits of the masks, which the length counts, are those the loops append.
- `Reader`: what a caller does who walks over the bytes, with rules for what it `Finds`.
- `Agrees`: a call with a buffer writes the bytes that a query for the length announces.
- `processor_information_agrees`: so it is for both routines, and a walk finds a core for each bit
  of the masks. The entries of a fixed size are those of the first group
  (`second_group_is_left_out`).
-/

namespace Ldk.SystemInfo

open OutputBuffer Records

/-! ## What is appended -/

/-- The buffer begins with what has been written, and the cursor is behind it. -/
structure Shows (o : Output) (done rest : List UInt8) : Prop where
  buffer : o.buffer = done ++ rest
  cursor : o.cursor = done.length

/-- A part of a routine appends these images. -/
def Appends (step : Output → Except Outside Output) (images : List (List UInt8)) : Prop :=
  ∀ o done rest, Shows o done rest → images.flatten.length ≤ rest.length →
    Yields (step o) fun o' =>
      Shows o' (done ++ images.flatten) (rest.drop images.flatten.length)

namespace Appends

variable {step step' : Output → Except Outside Output} {images images' : List (List UInt8)}

theorem nothing : Appends (fun o => .ok o) [] := by
  intro o done rest h _
  apply Yields.ok
  rwa [List.flatten_nil, List.append_nil, List.length_nil, List.drop_zero]

/-- An image of the size that the cursor goes on by. -/
theorem append {image : List UInt8} {size : Nat} (hsize : image.length = size) :
    Appends (fun o => o.append image size) [image] := by
  intro o done rest h hroom
  rw [List.flatten_singleton] at hroom ⊢
  refine ⟨⟨done ++ image ++ rest.drop image.length, done.length + size⟩, ?_, rfl, ?_⟩
  · change Output.append o image size = _
    unfold Output.append
    rw [h.buffer, h.cursor, put_append hroom]
    rfl
  · rw [List.length_append, hsize]

theorem bind (h : Appends step images) (h' : Appends step' images') :
    Appends (fun o => step o >>= step') (images ++ images') := by
  intro o done rest hshows hroom
  rw [List.flatten_append, List.length_append] at hroom ⊢
  apply (h o done rest hshows (by omega)).bind
  intro o' hshows'
  apply (h' o' _ _ hshows' (by rw [List.length_drop]; omega)).mono
  intro o'' hshows''
  rwa [List.append_assoc, List.drop_drop] at hshows''

theorem ite {c : Prop} [Decidable c] (h : Appends step images) (h' : Appends step' images') :
    Appends (fun o => if c then step o else step' o) (if c then images else images') := by
  split
  · exact h
  · exact h'

/-- A loop appends what each of its rounds appends. -/
theorem foldlM {ι : Type} {round : Output → ι → Except Outside Output}
    {f : ι → List (List UInt8)} {xs : List ι} (h : ∀ x ∈ xs, Appends (fun o => round o x) (f x)) :
    Appends (fun o => xs.foldlM round o) (xs.flatMap f) := by
  induction xs with
  | nil => exact nothing
  | cons x xs ih =>
    rw [List.flatMap_cons]
    exact (h x List.mem_cons_self).bind (ih fun y hy => h y (List.mem_cons_of_mem _ hy))

/-- A part of a routine, when there is room for what comes behind it too. -/
theorem run (h : Appends step images) {o : Output} {done rest : List UInt8}
    (hshows : Shows o done rest) (hroom : (images ++ images').flatten.length ≤ rest.length) :
    Yields (step o) fun o' =>
      Shows o' (done ++ images.flatten) (rest.drop images.flatten.length) ∧
        images'.flatten.length ≤ (rest.drop images.flatten.length).length := by
  rw [List.flatten_append, List.length_append] at hroom
  apply (h o done rest hshows (by omega)).mono
  intro o' hshows'
  refine ⟨hshows', ?_⟩
  rw [List.length_drop]
  omega

end Appends

/-! ## Bits -/

/-- The count of a mask is the number of its bits. -/
theorem countBits_eq (width mask : Nat) (h : mask < 2 ^ width) :
    countBits width mask = ((List.range width).filter mask.testBit).length := by
  induction width generalizing mask with
  | zero => rfl
  | succ width ih =>
    have hrest : ((List.range width).map Nat.succ).filter mask.testBit =
        ((List.range width).filter (mask / 2).testBit).map Nat.succ := by
      rw [List.filter_map]
      congr 2
      funext i
      exact Nat.testBit_succ mask i
    have hfirst : mask.testBit 0 = decide (mask % 2 = 1) := Nat.testBit_zero mask
    have hhalf : mask / 2 < 2 ^ width := by
      rw [pow_succ] at h
      omega
    rw [countBits, List.range_succ_eq_map, List.filter_cons, hrest, hfirst, ih _ hhalf]
    split
    · rename_i hzero
      have hnone : (0 / 2).testBit = fun _ => false := funext Nat.zero_testBit
      subst hzero
      simp [hnone]
    · rcases Nat.mod_two_eq_zero_or_one mask with hbit | hbit
      · simp [hbit]
      · simp [hbit]
        omega

/-- The bits of a mask, in order. -/
def bitsOf (mask : KAffinity) : List Nat := (List.range ldkAffinityBits).filter mask.getLsbD

theorem ldkpCountProcessorsInMask_eq (mask : KAffinity) :
    ldkpCountProcessorsInMask mask = (bitsOf mask).length :=
  countBits_eq 64 mask.toNat mask.isLt

theorem ldkpCountProcessorsInMask_le (mask : KAffinity) : ldkpCountProcessorsInMask mask ≤ 64 := by
  rw [ldkpCountProcessorsInMask_eq]
  exact (List.length_filter_le _ _).trans (Nat.le_of_eq List.length_range)

/-- The test of a bit. -/
theorem and_bit_eq_zero {bitIndex : Nat} (hbit : bitIndex < ldkAffinityBits) (mask : KAffinity) :
    mask &&& 1#64 <<< bitIndex = 0 ↔ mask.getLsbD bitIndex = false := by
  have htwo : 1#64 <<< bitIndex = BitVec.twoPow 64 bitIndex := rfl
  rw [htwo, BitVec.and_twoPow]
  cases hmask : mask.getLsbD bitIndex with
  | true =>
    rw [if_pos rfl]
    refine iff_of_false (fun hzero => ?_) Bool.true_eq_false.mp
    have hvalue := congrArg (fun x => x.getLsbD bitIndex) hzero
    have hlt : bitIndex < 64 := hbit
    simp [hlt] at hvalue
  | false =>
    rw [if_neg Bool.false_ne_true]
    exact iff_of_true rfl rfl

/-- A sum of the numbers in a loop, as long as it fits in a `DWORD`. -/
theorem foldl_toDword (f : Nat → Nat) (xs : List Nat) (n : Nat)
    (h : n + (xs.map f).sum < 2 ^ 32) :
    xs.foldl (fun m x => toDword (m + f x)) n = n + (xs.map f).sum := by
  induction xs generalizing n with
  | nil => rfl
  | cons x xs ih =>
    rw [List.map_cons, List.sum_cons] at h ⊢
    have hfirst : toDword (n + f x) = n + f x := Nat.mod_eq_of_lt (by omega)
    rw [List.foldl_cons, hfirst, ih (n + f x) (by omega), Nat.add_assoc]

theorem sum_map_le {f : Nat → Nat} {bound : Nat} (hf : ∀ x, f x ≤ bound) (xs : List Nat) :
    (xs.map f).sum ≤ bound * xs.length := by
  have hle : (xs.map f).sum ≤ (xs.map f).length • bound := by
    apply List.sum_le_card_nsmul
    intro y hy
    obtain ⟨x, -, rfl⟩ := List.mem_map.1 hy
    exact hf x
  rwa [List.length_map, nsmul_eq_mul, Nat.cast_id, Nat.mul_comm] at hle

/-! ## The topology -/

variable (t : Topology)

theorem groupCount_bounds : 0 < ldkpQueryActiveProcessorGroupCount t ∧
    ldkpQueryActiveProcessorGroupCount t < 2 ^ 16 := by
  have := t.activeGroupCount_lt
  unfold ldkpQueryActiveProcessorGroupCount
  split
  · omega
  · omega

/-- The mask of the first group is never empty. -/
theorem activeProcessorMask_zero : ldkpQueryActiveProcessorMask t 0 ≠ 0 := by
  have hgroup := (groupCount_bounds t).1
  unfold ldkpQueryActiveProcessorMask
  dsimp only
  rw [if_neg (by omega)]
  split
  · assumption
  split
  · assumption
  rw [if_pos rfl]
  cases t.basicMask with
  | none => decide
  | some basicMask =>
    dsimp only
    split
    · assumption
    · decide

/-- A mask that is not empty has a bit. -/
theorem bitsOf_ne_nil {mask : KAffinity} (h : mask ≠ 0) : bitsOf mask ≠ [] := by
  intro hnil
  apply h
  apply BitVec.eq_of_getLsbD_eq
  intro i hi
  have hnot := List.filter_eq_nil_iff.1 hnil i (List.mem_range.2 hi)
  rw [Bool.not_eq_true] at hnot
  rw [hnot]
  exact (BitVec.getLsbD_zero).symm

/-- The processors of all groups. -/
def processorTotal : Nat :=
  ((List.range (ldkpQueryActiveProcessorGroupCount t)).map fun g =>
    (bitsOf (ldkpQueryActiveProcessorMask t g)).length).sum

theorem processorTotal_bounds : 0 < processorTotal t ∧ processorTotal t ≤ 64 * 2 ^ 16 := by
  obtain ⟨hpos, hlt⟩ := groupCount_bounds t
  constructor
  · obtain ⟨n, hn⟩ := Nat.exists_eq_succ_of_ne_zero (Nat.ne_of_gt hpos)
    have hfirst := List.length_pos_of_ne_nil (bitsOf_ne_nil (activeProcessorMask_zero t))
    unfold processorTotal
    rw [hn, List.range_succ_eq_map, List.map_cons, List.sum_cons]
    omega
  · have hle := sum_map_le (f := fun g => (bitsOf (ldkpQueryActiveProcessorMask t g)).length)
      (fun g => ldkpCountProcessorsInMask_eq (ldkpQueryActiveProcessorMask t g) ▸
        ldkpCountProcessorsInMask_le _) (List.range (ldkpQueryActiveProcessorGroupCount t))
    rw [List.length_range] at hle
    unfold processorTotal
    omega

/-- The count that the length is computed from. -/
theorem ldkpQueryLogicalProcessorCount_eq :
    ldkpQueryLogicalProcessorCount t = processorTotal t := by
  obtain ⟨hpos, hle⟩ := processorTotal_bounds t
  unfold ldkpQueryLogicalProcessorCount
  simp only [ldkpCountProcessorsInMask_eq]
  have hsum := foldl_toDword (fun g => (bitsOf (ldkpQueryActiveProcessorMask t g)).length)
    (List.range (ldkpQueryActiveProcessorGroupCount t)) 0
    (by rw [Nat.zero_add]; unfold processorTotal at hle; omega)
  rw [hsum, Nat.zero_add]
  change (if processorTotal t ≠ 0 then processorTotal t else 1) = _
  rw [if_pos (Nat.ne_of_gt hpos)]

/-! ## The images -/

theorem relationshipSize_eq {n : Nat} (hn : n < 2 ^ 16) :
    ldkpProcessorRelationshipSize n = 32 + n * 16 ∧ ldkpNumaNodeRelationshipSize n = 32 + n * 16 ∧
      ldkpGroupRelationshipSize n = 32 + n * 48 := by
  unfold ldkpProcessorRelationshipSize ldkpNumaNodeRelationshipSize ldkpGroupRelationshipSize
    headerSize groupAffinitySize processorGroupInfoSize toDword
  omega

theorem length_flatMap {α : Type} {image : α → List UInt8} {size : Nat}
    (h : ∀ x, (image x).length = size) (xs : List α) :
    (xs.flatMap image).length = xs.length * size := by
  induction xs with
  | nil => exact (Nat.zero_mul size).symm
  | cons x xs ih =>
    rw [List.flatMap_cons, List.length_append, h, ih, List.length_cons, Nat.succ_mul, Nat.add_comm]

theorem GroupAffinity.length_image (x : GroupAffinity) : x.image.length = 16 := by
  simp [GroupAffinity.image]

theorem ProcessorGroupInfo.length_image (x : ProcessorGroupInfo) : x.image.length = 48 := by
  simp [ProcessorGroupInfo.image]

variable {relationship : Relationship} {masks : List GroupAffinity}

theorem length_processorImage (hmasks : masks.length < 2 ^ 16) :
    (processorImage relationship masks).length = ldkpProcessorRelationshipSize masks.length := by
  rw [(relationshipSize_eq hmasks).1]
  unfold processorImage entryImage
  simp only [List.length_append, length_littleEndian, List.length_replicate,
    length_flatMap GroupAffinity.length_image]
  omega

theorem length_numaNodeImage (nodeNumber : Nat) (hmasks : masks.length < 2 ^ 16) :
    (numaNodeImage relationship nodeNumber masks).length =
      ldkpNumaNodeRelationshipSize masks.length := by
  rw [(relationshipSize_eq hmasks).2.1]
  unfold numaNodeImage entryImage
  simp only [List.length_append, length_littleEndian, List.length_replicate,
    length_flatMap GroupAffinity.length_image]
  omega

theorem length_groupImage (maximumGroupCount : Nat) {infos : List ProcessorGroupInfo}
    (hinfos : infos.length < 2 ^ 16) :
    (groupImage maximumGroupCount infos).length = ldkpGroupRelationshipSize infos.length := by
  rw [(relationshipSize_eq hinfos).2.2]
  unfold groupImage entryImage
  simp only [List.length_append, length_littleEndian, List.length_replicate,
    length_flatMap ProcessorGroupInfo.length_image]
  omega

theorem length_legacyImage (relationship : Relationship) (mask : KAffinity) :
    (legacyImage relationship mask).length = legacySize := by
  simp [legacyImage, legacySize]

/-! ## What a reader finds -/

/-- `Entry->Size` -/
def sizeOf (entry : List UInt8) : Nat := field entry 4 4

/-- An entry counts some groups, and the mask of its first group is not empty. -/
def IsEntry (entry : List UInt8) : Prop :=
  if field entry 0 4 = Relationship.group.value then
    field entry 10 2 ≠ 0 ∧ field entry 72 8 ≠ 0
  else field entry 30 2 ≠ 0 ∧ field entry 32 8 ≠ 0

/-- What an entry says of a core: `GroupCount` and the first of the masks. -/
structure Core where
  groupCount : Nat
  affinity : GroupAffinity
  deriving DecidableEq, Repr

/-- The core that an entry is of, if it is. -/
def coreIn (entry : List UInt8) : Option Core :=
  if field entry 0 4 = Relationship.processorCore.value then
    some ⟨field entry 30 2, ⟨BitVec.ofNat 64 (field entry 32 8), field entry 40 2⟩⟩
  else none

/-- A core for each bit of the mask of a group, in order. -/
def coresOf (mask : KAffinity) (group : Nat) : List Core :=
  (bitsOf mask).map fun i => ⟨1, ⟨BitVec.twoPow 64 i, group⟩⟩

/-- How a reader walks over the entries: the size it goes on by, what it asks of an entry, and the
core it takes from it. -/
structure Reader (β : Type) where
  sizeOf : List UInt8 → Nat
  IsEntry : List UInt8 → Prop
  coreIn : List UInt8 → Option β

/-- A reader of `SYSTEM_LOGICAL_PROCESSOR_INFORMATION_EX` -/
def reader : Reader Core := ⟨sizeOf, IsEntry, coreIn⟩

@[simp] theorem reader_sizeOf : reader.sizeOf = sizeOf := rfl
@[simp] theorem reader_IsEntry : reader.IsEntry = IsEntry := rfl
@[simp] theorem reader_coreIn : reader.coreIn = coreIn := rfl

/-- A reader of `SYSTEM_LOGICAL_PROCESSOR_INFORMATION`: `ProcessorMask` is not empty. -/
def legacyReader : Reader KAffinity where
  sizeOf _ := legacySize
  IsEntry entry := field entry 0 8 ≠ 0
  coreIn entry :=
    if field entry 8 4 = Relationship.processorCore.value then
      some (BitVec.ofNat 64 (field entry 0 8))
    else none

namespace Reader

variable {β : Type} {r : Reader β}

/-- The walk over the bytes comes to its end behind the last of them. The entries are not empty,
and these are the cores. -/
def Walks (r : Reader β) (bytes : List UInt8) (cores : List β) : Prop :=
  ∃ entries, walk r.sizeOf bytes.length bytes = some entries ∧ (∀ e ∈ entries, r.IsEntry e) ∧
    entries.filterMap r.coreIn = cores

/-- A walk has one result. -/
theorem Walks.unique {bytes : List UInt8} {cores cores' : List β} (h : r.Walks bytes cores)
    (h' : r.Walks bytes cores') : cores = cores' := by
  obtain ⟨entries, hwalk, -, rfl⟩ := h
  obtain ⟨entries', hwalk', -, rfl⟩ := h'
  rw [hwalk, Option.some_inj] at hwalk'
  rw [hwalk']

/-- These entries are found, and these cores in them. -/
def Finds (r : Reader β) (entries : List (List UInt8)) (cores : List β) : Prop :=
  (∀ e ∈ entries, TellsSize r.sizeOf e ∧ r.IsEntry e) ∧ entries.filterMap r.coreIn = cores

theorem Finds.nil : r.Finds [] [] := by
  refine ⟨fun e he => ?_, rfl⟩
  cases he

theorem Finds.append {entries entries' : List (List UInt8)} {cores cores' : List β}
    (h : r.Finds entries cores) (h' : r.Finds entries' cores') :
    r.Finds (entries ++ entries') (cores ++ cores') := by
  refine ⟨fun e he => ?_, ?_⟩
  · rcases List.mem_append.1 he with he | he
    · exact h.1 e he
    · exact h'.1 e he
  · rw [List.filterMap_append, h.2, h'.2]

theorem Finds.flatMap {ι : Type} {f : ι → List (List UInt8)} {g : ι → List β} {xs : List ι}
    (h : ∀ x ∈ xs, r.Finds (f x) (g x)) : r.Finds (xs.flatMap f) (xs.flatMap g) := by
  induction xs with
  | nil => exact nil
  | cons x xs ih =>
    rw [List.flatMap_cons, List.flatMap_cons]
    exact (h x List.mem_cons_self).append (ih fun y hy => h y (List.mem_cons_of_mem _ hy))

theorem Finds.ite {c : Prop} [Decidable c] {entries entries' : List (List UInt8)}
    {cores cores' : List β} (h : r.Finds entries cores) (h' : r.Finds entries' cores') :
    r.Finds (if c then entries else entries') (if c then cores else cores') := by
  split
  · exact h
  · exact h'

/-- One entry after another, each with a core. -/
theorem Finds.map {ι : Type} {f : ι → List UInt8} {g : ι → β} {xs : List ι}
    (h : ∀ x ∈ xs, TellsSize r.sizeOf (f x) ∧ r.IsEntry (f x) ∧ r.coreIn (f x) = some (g x)) :
    r.Finds (xs.map f) (xs.map g) := by
  induction xs with
  | nil => exact nil
  | cons x xs ih =>
    obtain ⟨hsize, hentry, hcore⟩ := h x List.mem_cons_self
    obtain ⟨hentries, hcores⟩ := ih fun y hy => h y (List.mem_cons_of_mem _ hy)
    refine ⟨fun e he => ?_, ?_⟩
    · rcases List.mem_cons.1 he with rfl | he
      · exact ⟨hsize, hentry⟩
      · exact hentries e he
    · rw [List.map_cons, List.filterMap_cons_some hcore, hcores, List.map_cons]

/-- An entry without a core. -/
theorem Finds.other {e : List UInt8} (hsize : TellsSize r.sizeOf e) (hentry : r.IsEntry e)
    (hcore : r.coreIn e = none) : r.Finds [e] [] := by
  refine ⟨fun e' he => ?_, ?_⟩
  · rw [List.mem_singleton.1 he]
    exact ⟨hsize, hentry⟩
  · rw [List.filterMap_cons_none hcore, List.filterMap_nil]

/-- A walk finds the entries that lie one behind another. -/
theorem Finds.walks {entries : List (List UInt8)} {cores : List β} (h : r.Finds entries cores) :
    r.Walks entries.flatten cores := by
  refine ⟨entries, walk_flatten (fun e he => (h.1 e he).1) ?_, fun e he => (h.1 e he).2, h.2⟩
  exact length_le_flatten fun e he => (h.1 e he).1.1

end Reader

/-- The number at the start of an entry, and the size it tells. -/
theorem field_entryImage (relationship : Relationship) {size : Nat} (hsize : size < 2 ^ 32)
    (body rest : List UInt8) :
    field (entryImage relationship size body ++ rest) 0 4 = relationship.value ∧
      field (entryImage relationship size body ++ rest) 4 4 = size := by
  have hvalue : relationship.value < 256 ^ 4 := by
    cases relationship <;> decide
  unfold entryImage
  rw [List.append_assoc, List.append_assoc]
  constructor
  · rw [field_zero, Nat.mod_eq_of_lt hvalue]
  · rw [← Nat.add_zero 4, field_skip (length_littleEndian 4 _), field_zero,
      Nat.mod_eq_of_lt (by omega)]

/-- What lies in the body of an entry. -/
theorem field_body (relationship : Relationship) (size : Nat) (body : List UInt8)
    (offset width : Nat) :
    field (entryImage relationship size body) (8 + offset) width = field body offset width := by
  unfold entryImage
  rw [show 8 + offset = 4 + (4 + offset) by omega, field_skip (length_littleEndian 4 _),
    field_skip (length_littleEndian 4 _)]

theorem field_mask (x : GroupAffinity) (rest : List UInt8) :
    field (x.image ++ rest) 0 8 = x.mask.toNat ∧
      (x.group < 2 ^ 16 → field (x.image ++ rest) 8 2 = x.group) := by
  unfold GroupAffinity.image
  rw [List.append_assoc, List.append_assoc]
  constructor
  · rw [field_zero]
    exact Nat.mod_eq_of_lt x.mask.isLt
  · intro hgroup
    rw [← Nat.add_zero 8, field_skip (length_littleEndian 8 _), field_zero,
      Nat.mod_eq_of_lt (by omega)]

/-- An entry with masks: their number, the first of them, and its group. -/
theorem field_processorImage (relationship : Relationship) (x : GroupAffinity)
    (hmasks : (x :: masks).length < 2 ^ 16) :
    field (processorImage relationship (x :: masks)) 30 2 = (x :: masks).length ∧
      field (processorImage relationship (x :: masks)) 32 8 = x.mask.toNat ∧
        (x.group < 2 ^ 16 → field (processorImage relationship (x :: masks)) 40 2 = x.group) := by
  unfold processorImage
  rw [List.flatMap_cons]
  refine ⟨?_, ?_, fun hgroup => ?_⟩
  · rw [show 30 = 8 + (22 + 0) from rfl, field_body, field_skip List.length_replicate, field_zero,
      Nat.mod_eq_of_lt (by omega)]
  · rw [show 32 = 8 + (22 + (2 + 0)) from rfl, field_body, field_skip List.length_replicate,
      field_skip (length_littleEndian 2 _), (field_mask x _).1]
  · rw [show 40 = 8 + (22 + (2 + 8)) from rfl, field_body, field_skip List.length_replicate,
      field_skip (length_littleEndian 2 _), (field_mask x _).2 hgroup]

theorem field_numaNodeImage (relationship : Relationship) (nodeNumber : Nat) (x : GroupAffinity)
    (hmasks : (x :: masks).length < 2 ^ 16) :
    field (numaNodeImage relationship nodeNumber (x :: masks)) 30 2 = (x :: masks).length ∧
      field (numaNodeImage relationship nodeNumber (x :: masks)) 32 8 = x.mask.toNat := by
  have hfront : (littleEndian 4 nodeNumber ++ List.replicate 18 (0 : UInt8)).length = 22 := by simp
  unfold numaNodeImage
  rw [List.flatMap_cons]
  constructor
  · rw [show 30 = 8 + (22 + 0) from rfl, field_body, field_skip hfront, field_zero,
      Nat.mod_eq_of_lt (by omega)]
  · rw [show 32 = 8 + (22 + (2 + 0)) from rfl, field_body, field_skip hfront,
      field_skip (length_littleEndian 2 _), (field_mask x _).1]

theorem field_groupImage (maximumGroupCount : Nat) (x : ProcessorGroupInfo)
    {infos : List ProcessorGroupInfo} (hinfos : (x :: infos).length < 2 ^ 16) :
    field (groupImage maximumGroupCount (x :: infos)) 10 2 = (x :: infos).length ∧
      field (groupImage maximumGroupCount (x :: infos)) 72 8 = x.activeProcessorMask.toNat := by
  have hfront : (littleEndian 1 x.maximumProcessorCount ++
      littleEndian 1 x.activeProcessorCount ++ List.replicate 38 (0 : UInt8)).length = 40 := by simp
  unfold groupImage
  rw [List.flatMap_cons]
  constructor
  · rw [show 10 = 8 + (2 + 0) from rfl, field_body, field_skip (length_littleEndian 2 _),
      field_zero, Nat.mod_eq_of_lt (by omega)]
  · unfold ProcessorGroupInfo.image
    rw [List.append_assoc _ (littleEndian 8 _),
      show 72 = 8 + (2 + (2 + (20 + (40 + 0)))) from rfl, field_body,
      field_skip (length_littleEndian 2 _), field_skip (length_littleEndian 2 _),
      field_skip List.length_replicate, field_skip hfront, field_zero]
    exact Nat.mod_eq_of_lt x.activeProcessorMask.isLt

/-! ## The entries of a topology -/

/-- The entry of the groups. -/
def groupEntry : List UInt8 :=
  let groupCount := ldkpQueryActiveProcessorGroupCount t
  groupImage (if t.maximumGroupCount ≠ 0 then t.maximumGroupCount else groupCount)
    ((List.range groupCount).map (processorGroupInfo t))

/-- The masks of all groups. -/
def allMasks : List GroupAffinity := activeGroupMasks t (ldkpQueryActiveProcessorGroupCount t)

/-- The entries of the cores of a group. -/
def coreEntries (mask : KAffinity) (group : Nat) : List (List UInt8) :=
  (bitsOf mask).map fun i => processorImage .processorCore [⟨BitVec.twoPow 64 i, group⟩]

/-- The entries that are written for a relationship, in their order. -/
def entriesOf (relationshipType : Relationship) : List (List UInt8) :=
  (if relationshipType = .all ∨ relationshipType = .group then [groupEntry t] else []) ++
  ((if relationshipType = .all ∨ relationshipType = .numaNode then
      [numaNodeImage .numaNode 0 (allMasks t)]
    else if relationshipType = .numaNodeEx then [numaNodeImage .numaNodeEx 0 (allMasks t)]
    else []) ++
  ((if relationshipType = .all ∨ relationshipType = .processorPackage then
      [processorImage .processorPackage (allMasks t)] else []) ++
  if relationshipType = .all ∨ relationshipType = .processorCore then
    (List.range (ldkpQueryActiveProcessorGroupCount t)).flatMap fun g =>
      coreEntries (ldkpQueryActiveProcessorMask t g) g
  else []))

theorem length_allMasks : (allMasks t).length = ldkpQueryActiveProcessorGroupCount t := by
  simp [allMasks, activeGroupMasks]

/-- The first of the masks. -/
theorem exists_allMasks : ∃ masks, allMasks t = ⟨ldkpQueryActiveProcessorMask t 0, 0⟩ :: masks := by
  obtain ⟨n, hn⟩ := Nat.exists_eq_succ_of_ne_zero (Nat.ne_of_gt (groupCount_bounds t).1)
  unfold allMasks activeGroupMasks
  rw [hn, List.range_succ_eq_map, List.map_cons]
  exact ⟨_, rfl⟩

/-- A loop over the bits of a mask appends an image for each of them. -/
theorem flatMap_bits {β : Type} (mask : KAffinity) (f : Nat → β) :
    ((List.range ldkAffinityBits).flatMap fun i => if mask.getLsbD i then [f i] else []) =
      (bitsOf mask).map f := by
  unfold bitsOf
  induction List.range ldkAffinityBits with
  | nil => rfl
  | cons i is ih =>
    rw [List.flatMap_cons, ih, List.filter_cons]
    split
    · rfl
    · rfl

/-- A round of a loop over the bits. -/
theorem appends_bit {mask : KAffinity} {i : Nat} (hi : i < ldkAffinityBits)
    {step : Output → Except Outside Output} {image : List UInt8} (h : Appends step [image]) :
    Appends (fun o => if mask &&& 1#64 <<< i = 0 then .ok o else step o)
      (if mask.getLsbD i then [image] else []) := by
  have hites : (if mask &&& 1#64 <<< i = 0 then [] else [image]) =
      if mask.getLsbD i then [image] else [] := by
    have hbit := and_bit_eq_zero hi mask
    by_cases hset : mask.getLsbD i = true
    · rw [if_pos hset, if_neg fun hzero => by rw [hbit.1 hzero] at hset; cases hset]
    · rw [if_neg hset, if_pos (hbit.2 (Bool.not_eq_true _ ▸ hset))]
  rw [← hites]
  exact Appends.nothing.ite h

theorem one_lt {α : Type} (x : α) : [x].length < 2 ^ 16 := by
  rw [List.length_singleton]
  decide

theorem appends_cores : Appends (ldkpAppendProcessorCoreRelationships t)
    ((List.range (ldkpQueryActiveProcessorGroupCount t)).flatMap fun g =>
      coreEntries (ldkpQueryActiveProcessorMask t g) g) := by
  unfold ldkpAppendProcessorCoreRelationships coreEntries
  apply Appends.foldlM
  intro g _
  rw [← flatMap_bits]
  apply Appends.foldlM
  intro i hi
  apply appends_bit (List.mem_range.1 hi)
  exact Appends.append (length_processorImage (one_lt _))

/-- What is appended for a relationship has the length that was computed. -/
theorem length_entriesOf (relationshipType : Relationship) :
    (entriesOf t relationshipType).flatten.length =
      ldkpQueryLogicalProcessorInformationExLength t relationshipType := by
  obtain ⟨hpos, hlt⟩ := groupCount_bounds t
  obtain ⟨hsome, hbound⟩ := processorTotal_bounds t
  obtain ⟨hprocessor, hnuma, hgroup⟩ := relationshipSize_eq hlt
  have hone : ldkpProcessorRelationshipSize 1 = 48 := by decide
  have hmasks := length_allMasks t
  have hgroupEntry : (groupEntry t).length = 32 + ldkpQueryActiveProcessorGroupCount t * 48 := by
    unfold groupEntry
    dsimp only
    rw [length_groupImage, List.length_map, List.length_range, hgroup]
    rwa [List.length_map, List.length_range]
  have hnumaEntry (r : Relationship) : (numaNodeImage r 0 (allMasks t)).length =
      32 + ldkpQueryActiveProcessorGroupCount t * 16 := by
    rw [length_numaNodeImage 0 (hmasks ▸ hlt), hmasks, hnuma]
  have hpackageEntry (r : Relationship) : (processorImage r (allMasks t)).length =
      32 + ldkpQueryActiveProcessorGroupCount t * 16 := by
    rw [length_processorImage (hmasks ▸ hlt), hmasks, hprocessor]
  have hcores (mask : KAffinity) (g : Nat) :
      (coreEntries mask g).flatten.length = (bitsOf mask).length * 48 := by
    unfold coreEntries
    rw [← List.flatMap_def, length_flatMap]
    intro i
    rw [length_processorImage (one_lt _)]
    exact hone
  have htotal : ((List.range (ldkpQueryActiveProcessorGroupCount t)).flatMap fun g =>
      coreEntries (ldkpQueryActiveProcessorMask t g) g).flatten.length =
        processorTotal t * 48 := by
    unfold processorTotal
    induction List.range (ldkpQueryActiveProcessorGroupCount t) with
    | nil => rfl
    | cons g gs ih =>
      rw [List.flatMap_cons, List.flatten_append, List.length_append, ih, hcores, List.map_cons,
        List.sum_cons, Nat.add_mul]
  unfold entriesOf ldkpQueryLogicalProcessorInformationExLength toDword
  dsimp only
  rw [hprocessor, hnuma, hgroup, hone, ldkpQueryLogicalProcessorCount_eq]
  cases relationshipType <;> simp [hgroupEntry, hnumaEntry, hpackageEntry, htotal] <;> omega

/-! ## What the walk yields -/

/-- An entry of a relationship tells its size. -/
theorem tellsSize_entryImage {relationship : Relationship} {size : Nat} {body : List UInt8}
    (hpos : 0 < size) (hsize : size < 2 ^ 32)
    (hlength : (entryImage relationship size body).length = size) :
    TellsSize sizeOf (entryImage relationship size body) := by
  refine ⟨hlength ▸ hpos, fun rest => ?_⟩
  rw [hlength]
  exact (field_entryImage relationship hsize body rest).2

theorem relationship_entryImage (relationship : Relationship) {size : Nat} (body : List UInt8)
    (hsize : size < 2 ^ 32) :
    field (entryImage relationship size body) 0 4 = relationship.value := by
  have h := (field_entryImage relationship hsize body []).1
  rwa [List.append_nil] at h

theorem toDword_lt (n : Nat) : toDword n < 2 ^ 32 := Nat.mod_lt n (by decide)

theorem relationship_processorImage (relationship : Relationship) (masks : List GroupAffinity) :
    field (processorImage relationship masks) 0 4 = relationship.value :=
  relationship_entryImage relationship _ (toDword_lt _)

theorem relationship_numaNodeImage (relationship : Relationship) (nodeNumber : Nat)
    (masks : List GroupAffinity) :
    field (numaNodeImage relationship nodeNumber masks) 0 4 = relationship.value :=
  relationship_entryImage relationship _ (toDword_lt _)

theorem relationship_groupImage (maximumGroupCount : Nat) (infos : List ProcessorGroupInfo) :
    field (groupImage maximumGroupCount infos) 0 4 = Relationship.group.value :=
  relationship_entryImage .group _ (toDword_lt _)

/-- The number that a mask is. -/
theorem toNat_ne_zero {mask : KAffinity} (h : mask ≠ 0) : mask.toNat ≠ 0 := by
  intro hzero
  exact h (BitVec.eq_of_toNat_eq hzero)

/-- What a reader asks of an entry that is not of groups. -/
theorem isEntry_of_masks {relationship : Relationship} (hgroup : relationship ≠ .group)
    {entry : List UInt8} (hvalue : field entry 0 4 = relationship.value)
    (hcount : field entry 30 2 ≠ 0) (hmask : field entry 32 8 ≠ 0) : IsEntry entry := by
  have hne : relationship.value ≠ Relationship.group.value := by
    cases relationship with
    | group => exact absurd rfl hgroup
    | _ => decide
  unfold IsEntry
  rw [hvalue, if_neg hne]
  exact ⟨hcount, hmask⟩

/-- An entry that is not of a core. -/
theorem coreIn_none {relationship : Relationship} (hcore : relationship ≠ .processorCore)
    {entry : List UInt8} (hvalue : field entry 0 4 = relationship.value) : coreIn entry = none := by
  have hne : relationship.value ≠ Relationship.processorCore.value := by
    cases relationship with
    | processorCore => exact absurd rfl hcore
    | _ => decide
  unfold coreIn
  rw [hvalue, if_neg hne]

/-- A relationship with masks, the first of which is not empty. -/
theorem processorImage_spec (relationship : Relationship) (hgroup : relationship ≠ .group)
    (x : GroupAffinity) (masks : List GroupAffinity) (hmasks : (x :: masks).length < 2 ^ 16)
    (hmask : x.mask ≠ 0) :
    TellsSize sizeOf (processorImage relationship (x :: masks)) ∧
      IsEntry (processorImage relationship (x :: masks)) ∧
        field (processorImage relationship (x :: masks)) 0 4 = relationship.value := by
  have hsize := (relationshipSize_eq hmasks).1
  have hvalue := relationship_processorImage relationship (x :: masks)
  obtain ⟨hcount, hfirst, -⟩ := field_processorImage relationship x hmasks
  refine ⟨tellsSize_entryImage (by omega) (by omega) (length_processorImage hmasks), ?_, hvalue⟩
  apply isEntry_of_masks hgroup hvalue
  · rw [hcount]
    exact Nat.succ_ne_zero _
  · rw [hfirst]
    exact toNat_ne_zero hmask

theorem finds_package : reader.Finds [processorImage .processorPackage (allMasks t)] [] := by
  have hlength : (allMasks t).length < 2 ^ 16 := length_allMasks t ▸ (groupCount_bounds t).2
  obtain ⟨masks, hmasks⟩ := exists_allMasks t
  rw [hmasks] at hlength ⊢
  obtain ⟨hsize, hentry, hvalue⟩ := processorImage_spec .processorPackage
    Relationship.noConfusion _ masks hlength (activeProcessorMask_zero t)
  exact Reader.Finds.other hsize hentry (coreIn_none Relationship.noConfusion hvalue)

theorem finds_numaNode (relationship : Relationship) (hgroup : relationship ≠ .group)
    (hcore : relationship ≠ .processorCore) :
    reader.Finds [numaNodeImage relationship 0 (allMasks t)] [] := by
  have hlength : (allMasks t).length < 2 ^ 16 := length_allMasks t ▸ (groupCount_bounds t).2
  obtain ⟨masks, hmasks⟩ := exists_allMasks t
  rw [hmasks] at hlength ⊢
  have hsize := (relationshipSize_eq hlength).2.1
  obtain ⟨hcount, hfirst⟩ := field_numaNodeImage relationship 0 _ hlength
  apply Reader.Finds.other
  · exact tellsSize_entryImage (by omega) (by omega) (length_numaNodeImage 0 hlength)
  · apply isEntry_of_masks hgroup (relationship_numaNodeImage _ _ _)
    · rw [hcount]
      exact Nat.succ_ne_zero _
    · rw [hfirst]
      exact toNat_ne_zero (activeProcessorMask_zero t)
  · exact coreIn_none hcore (relationship_numaNodeImage _ _ _)

theorem finds_group : reader.Finds [groupEntry t] [] := by
  obtain ⟨hpos, hlt⟩ := groupCount_bounds t
  obtain ⟨n, hn⟩ := Nat.exists_eq_succ_of_ne_zero (Nat.ne_of_gt hpos)
  unfold groupEntry
  dsimp only
  rw [hn] at hlt ⊢
  have hinfos : ((List.range (n + 1)).map (processorGroupInfo t)).length < 2 ^ 16 := by
    rwa [List.length_map, List.length_range]
  rw [List.range_succ_eq_map, List.map_cons] at hinfos ⊢
  have hsize := (relationshipSize_eq hinfos).2.2
  generalize (if t.maximumGroupCount ≠ 0 then t.maximumGroupCount else n.succ) = maximum
  obtain ⟨hcount, hfirst⟩ := field_groupImage maximum _ hinfos
  apply Reader.Finds.other
  · exact tellsSize_entryImage (by omega) (by omega) (length_groupImage maximum hinfos)
  · rw [reader_IsEntry]
    unfold IsEntry
    rw [if_pos (relationship_groupImage _ _), hcount, hfirst]
    exact ⟨Nat.succ_ne_zero _, toNat_ne_zero (activeProcessorMask_zero t)⟩
  · rw [reader_coreIn]
    exact coreIn_none Relationship.noConfusion (relationship_groupImage _ _)

/-- The mask with one bit. -/
theorem twoPow_ne_zero {i : Nat} (hi : i < 64) : BitVec.twoPow 64 i ≠ 0 := by
  intro hzero
  have hbit := congrArg (fun x => x.getLsbD i) hzero
  simp [hi] at hbit

theorem finds_cores (mask : KAffinity) {group : Nat} (hgroup : group < 2 ^ 16) :
    reader.Finds (coreEntries mask group) (coresOf mask group) := by
  apply Reader.Finds.map
  intro i hi
  have hlt : i < 64 := List.mem_range.1 (List.mem_filter.1 hi).1
  obtain ⟨hsize, hentry, hvalue⟩ := processorImage_spec .processorCore
    Relationship.noConfusion ⟨BitVec.twoPow 64 i, group⟩ [] (one_lt _) (twoPow_ne_zero hlt)
  obtain ⟨hcount, hfirst, hnumber⟩ := field_processorImage .processorCore
    ⟨BitVec.twoPow 64 i, group⟩ (one_lt _)
  refine ⟨hsize, hentry, ?_⟩
  rw [reader_coreIn]
  unfold coreIn
  rw [if_pos hvalue, hcount, hfirst, hnumber hgroup, BitVec.ofNat_toNat, BitVec.setWidth_eq]
  rfl

/-- The cores that are found, for a relationship that asks for them. -/
def coresFor (relationshipType : Relationship) : List Core :=
  if relationshipType = .all ∨ relationshipType = .processorCore then
    (List.range (ldkpQueryActiveProcessorGroupCount t)).flatMap fun g =>
      coresOf (ldkpQueryActiveProcessorMask t g) g
  else []

/-- The entries tell their sizes and are not empty, and the cores among them are those of the
groups. -/
theorem finds_entriesOf (relationshipType : Relationship) :
    reader.Finds (entriesOf t relationshipType) (coresFor t relationshipType) := by
  have hnothing {c : Prop} [Decidable c] {entries : List (List UInt8)}
      (h : reader.Finds entries []) : reader.Finds (if c then entries else []) [] := by
    have hite := h.ite (c := c) Reader.Finds.nil
    rwa [ite_self] at hite
  have hnuma : reader.Finds (if relationshipType = .all ∨ relationshipType = .numaNode then
      [numaNodeImage .numaNode 0 (allMasks t)]
    else if relationshipType = .numaNodeEx then [numaNodeImage .numaNodeEx 0 (allMasks t)]
    else []) [] := by
    have hite := (finds_numaNode t .numaNode Relationship.noConfusion
      Relationship.noConfusion).ite (c := relationshipType = .all ∨ relationshipType = .numaNode)
        (hnothing (c := relationshipType = .numaNodeEx) (finds_numaNode t
          .numaNodeEx Relationship.noConfusion Relationship.noConfusion))
    rwa [ite_self] at hite
  have hcores := (Reader.Finds.flatMap fun g hg => finds_cores (ldkpQueryActiveProcessorMask t g)
    ((List.mem_range.1 hg).trans (groupCount_bounds t).2)).ite
      (c := relationshipType = .all ∨ relationshipType = .processorCore) Reader.Finds.nil
  have hpackage := hnothing (c := relationshipType = .all ∨ relationshipType = .processorPackage)
    (finds_package t)
  exact (hnothing (finds_group t)).append (hnuma.append (hpackage.append hcores))

/-! ## What is written -/

/-- The buffer after it has been cleared. -/
theorem zeroed_spec {buffer : List UInt8} {length : Nat} (hroom : length ≤ buffer.length) :
    Yields (zeroed buffer length) fun o =>
      Shows o [] (List.replicate length 0 ++ buffer.drop length) := by
  have hput : put buffer 0 (List.replicate length 0) =
      .ok (List.replicate length 0 ++ buffer.drop length) := by
    unfold put
    rw [List.length_replicate, Nat.zero_add, if_pos hroom, List.take_zero, List.nil_append]
  refine ⟨⟨List.replicate length 0 ++ buffer.drop length, 0⟩, ?_, rfl, rfl⟩
  unfold zeroed
  rw [hput]
  rfl

/-- The images take the place of the cleared bytes. -/
theorem filled {body : Output → Except Outside Output} {images : List (List UInt8)}
    (h : Appends body images) {buffer : List UInt8} {length : Nat}
    (hlength : images.flatten.length = length) (hroom : length ≤ buffer.length) :
    (do
      let o ← zeroed buffer length
      let o ← body o
      return o.buffer) = .ok (images.flatten ++ buffer.drop length) := by
  obtain ⟨o, hzeroed, hshows⟩ := zeroed_spec hroom
  have hfits : images.flatten.length ≤
      (List.replicate length (0 : UInt8) ++ buffer.drop length).length := by
    rw [List.length_append, List.length_replicate]
    omega
  obtain ⟨o', hbody, hshows'⟩ := h o [] _ hshows hfits
  have hrest : (List.replicate length (0 : UInt8) ++ buffer.drop length).drop length =
      buffer.drop length := List.drop_left' List.length_replicate
  have hbuffer := hshows'.buffer
  rw [hlength, hrest, List.nil_append] at hbuffer
  rw [hzeroed]
  change (body o >>= fun o => Except.ok o.buffer) = _
  rw [hbody, ← hbuffer]
  rfl

/-- The entries of a relationship are written, in a buffer that is long enough. -/
theorem ldkpFillLogicalProcessorInformationEx_eq (relationshipType : Relationship)
    {buffer : List UInt8}
    (hroom : ldkpQueryLogicalProcessorInformationExLength t relationshipType ≤ buffer.length) :
    ldkpFillLogicalProcessorInformationEx t relationshipType buffer
        (ldkpQueryLogicalProcessorInformationExLength t relationshipType) =
      .ok ((entriesOf t relationshipType).flatten ++
        buffer.drop (ldkpQueryLogicalProcessorInformationExLength t relationshipType)) := by
  obtain ⟨-, hlt⟩ := groupCount_bounds t
  have hmasks := length_allMasks t
  have hgroup : Appends (fun o => ldkpAppendGroupRelationship t o
      (ldkpQueryActiveProcessorGroupCount t)) [groupEntry t] := by
    apply Appends.append
    rw [length_groupImage, List.length_map, List.length_range]
    rwa [List.length_map, List.length_range]
  have hnuma (r : Relationship) : Appends (fun o => ldkpAppendNumaNodeRelationship t o r
      (ldkpQueryActiveProcessorGroupCount t)) [numaNodeImage r 0 (allMasks t)] := by
    apply Appends.append
    change (numaNodeImage r 0 (allMasks t)).length = _
    rw [length_numaNodeImage 0 (hmasks ▸ hlt), hmasks]
  have hpackage : Appends (fun o => ldkpAppendProcessorRelationship t o .processorPackage
      (ldkpQueryActiveProcessorGroupCount t) none)
      [processorImage .processorPackage (allMasks t)] := by
    apply Appends.append
    rw [Option.getD_none]
    change (processorImage .processorPackage (allMasks t)).length = _
    rw [length_processorImage (hmasks ▸ hlt), hmasks]
  -- The four parts, in the order of the source.
  have hgroups := hgroup.ite (c := relationshipType = .all ∨ relationshipType = .group)
    Appends.nothing
  have hnumas := (hnuma .numaNode).ite (c := relationshipType = .all ∨ relationshipType = .numaNode)
    ((hnuma .numaNodeEx).ite (c := relationshipType = .numaNodeEx) Appends.nothing)
  have hpackages := hpackage.ite (c := relationshipType = .all ∨
    relationshipType = .processorPackage) Appends.nothing
  have hcores := (appends_cores t).ite (c := relationshipType = .all ∨
    relationshipType = .processorCore) Appends.nothing
  have happends := hgroups.bind (hnumas.bind (hpackages.bind hcores))
  have hfilled := filled happends (length_entriesOf t relationshipType) hroom
  unfold ldkpFillLogicalProcessorInformationEx entriesOf
  rw [← hfilled]
  simp only [bind_assoc]

/-! ## The entries of a fixed size -/

/-- The entries that `GetLogicalProcessorInformation` writes. -/
def legacyEntries : List (List UInt8) :=
  let mask := ldkpQueryActiveProcessorMask t 0
  [legacyImage .numaNode mask] ++ ([legacyImage .processorPackage mask] ++
    (bitsOf mask).map fun i => legacyImage .processorCore (BitVec.twoPow 64 i))

/-- A core for each bit of a mask, in order. -/
def legacyCores (mask : KAffinity) : List KAffinity := (bitsOf mask).map (BitVec.twoPow 64)

theorem length_legacyEntries : (legacyEntries t).flatten.length =
    ldkpQueryLegacyLogicalProcessorInformationLength t := by
  have hpos := List.length_pos_of_ne_nil (bitsOf_ne_nil (activeProcessorMask_zero t))
  have hle := ldkpCountProcessorsInMask_le (ldkpQueryActiveProcessorMask t 0)
  unfold ldkpQueryLegacyLogicalProcessorInformationLength legacyEntries toDword
  dsimp only
  rw [ldkpCountProcessorsInMask_eq] at hle ⊢
  rw [if_neg (Nat.ne_of_gt hpos), List.flatten_append, List.flatten_append, List.flatten_singleton,
    List.flatten_singleton, List.length_append, List.length_append, length_legacyImage,
    length_legacyImage, ← List.flatMap_def, length_flatMap fun i => length_legacyImage _ _]
  unfold legacySize
  omega

/-- The fields of an entry. -/
theorem field_legacyImage (relationship : Relationship) (mask : KAffinity) :
    field (legacyImage relationship mask) 0 8 = mask.toNat ∧
      field (legacyImage relationship mask) 8 4 = relationship.value := by
  have hvalue : relationship.value < 256 ^ 4 := by
    cases relationship <;> decide
  unfold legacyImage
  constructor
  · rw [field_zero]
    exact Nat.mod_eq_of_lt mask.isLt
  · rw [← Nat.add_zero 8, field_skip (length_littleEndian 8 _), field_zero,
      Nat.mod_eq_of_lt hvalue]

theorem legacyImage_spec (relationship : Relationship) {mask : KAffinity} (hmask : mask ≠ 0) :
    TellsSize legacyReader.sizeOf (legacyImage relationship mask) ∧
      legacyReader.IsEntry (legacyImage relationship mask) := by
  have hlength := length_legacyImage relationship mask
  refine ⟨⟨?_, fun rest => hlength.symm⟩, ?_⟩
  · rw [hlength]
    decide
  · change field (legacyImage relationship mask) 0 8 ≠ 0
    rw [(field_legacyImage relationship mask).1]
    exact toNat_ne_zero hmask

theorem legacyCoreIn (relationship : Relationship) (mask : KAffinity) :
    legacyReader.coreIn (legacyImage relationship mask) =
      if relationship.value = Relationship.processorCore.value then some mask else none := by
  obtain ⟨hmask, hvalue⟩ := field_legacyImage relationship mask
  change (if field (legacyImage relationship mask) 8 4 = Relationship.processorCore.value then
    some (BitVec.ofNat 64 (field (legacyImage relationship mask) 0 8)) else none) = _
  rw [hvalue, hmask, BitVec.ofNat_toNat, BitVec.setWidth_eq]

theorem finds_legacyEntries : legacyReader.Finds (legacyEntries t)
    (legacyCores (ldkpQueryActiveProcessorMask t 0)) := by
  have hmask := activeProcessorMask_zero t
  have hnumaNode : legacyReader.Finds
      [legacyImage .numaNode (ldkpQueryActiveProcessorMask t 0)] [] :=
    Reader.Finds.other (legacyImage_spec _ hmask).1 (legacyImage_spec _ hmask).2
      (legacyCoreIn .numaNode _)
  have hpackage : legacyReader.Finds
      [legacyImage .processorPackage (ldkpQueryActiveProcessorMask t 0)] [] :=
    Reader.Finds.other (legacyImage_spec _ hmask).1 (legacyImage_spec _ hmask).2
      (legacyCoreIn .processorPackage _)
  apply hnumaNode.append (hpackage.append (Reader.Finds.map ?_))
  intro i hi
  have hbit := twoPow_ne_zero (List.mem_range.1 (List.mem_filter.1 hi).1)
  obtain ⟨hsize, hentry⟩ := legacyImage_spec .processorCore hbit
  exact ⟨hsize, hentry, legacyCoreIn .processorCore _⟩

theorem ldkpFillLogicalProcessorInformation_eq {buffer : List UInt8}
    (hroom : ldkpQueryLegacyLogicalProcessorInformationLength t ≤ buffer.length) :
    ldkpFillLogicalProcessorInformation t buffer
        (ldkpQueryLegacyLogicalProcessorInformationLength t) =
      .ok ((legacyEntries t).flatten ++
        buffer.drop (ldkpQueryLegacyLogicalProcessorInformationLength t)) := by
  have hentry (relationship : Relationship) (mask : KAffinity) :
      Appends (fun o => o.append (legacyImage relationship mask) legacySize)
        [legacyImage relationship mask] := Appends.append (length_legacyImage relationship mask)
  have hcores : Appends (fun o => (List.range ldkAffinityBits).foldlM
      (appendLegacyCore (ldkpQueryActiveProcessorMask t 0)) o)
      ((bitsOf (ldkpQueryActiveProcessorMask t 0)).map fun i =>
        legacyImage .processorCore (BitVec.twoPow 64 i)) := by
    rw [← flatMap_bits]
    apply Appends.foldlM
    intro i hi
    exact appends_bit (List.mem_range.1 hi) (hentry .processorCore _)
  have happends := (hentry .numaNode (ldkpQueryActiveProcessorMask t 0)).bind
    ((hentry .processorPackage (ldkpQueryActiveProcessorMask t 0)).bind hcores)
  have hfilled := filled happends (length_legacyEntries t) hroom
  unfold ldkpFillLogicalProcessorInformation legacyEntries
  dsimp only
  rw [← hfilled]
  simp only [bind_assoc]

/-! ## Length and contents -/

/-- A query for the length announces the bytes that a call with a buffer writes, and the buffer is
left alone behind them. -/
structure Agrees (query : Option (List UInt8) → Option Nat → Except Outside Answer)
    (requiredLength : Nat) (bytes : List UInt8) : Prop where
  length : bytes.length = requiredLength
  announced : ∀ n, ∃ answer, query none (some n) = .ok answer ∧
    answer.returnedLength = some requiredLength
  written : ∀ (buffer : List UInt8) (n : Nat), requiredLength ≤ n → n ≤ buffer.length →
    query (some buffer) (some n) =
      .ok ⟨true, some requiredLength, some (bytes ++ buffer.drop requiredLength), none⟩

/-- The bytes are determined by what the routine writes. -/
theorem Agrees.unique {query : Option (List UInt8) → Option Nat → Except Outside Answer}
    {requiredLength : Nat} {bytes bytes' : List UInt8} (h : Agrees query requiredLength bytes)
    (h' : Agrees query requiredLength bytes') : bytes = bytes' := by
  have hsize : requiredLength ≤ (List.replicate requiredLength (0 : UInt8)).length := by
    rw [List.length_replicate]
  have hwritten := h.written _ requiredLength (Nat.le_refl _) hsize
  rw [h'.written _ requiredLength (Nat.le_refl _) hsize, Except.ok.injEq, Answer.mk.injEq]
    at hwritten
  exact (List.append_cancel_right (Option.some.inj hwritten.2.2.1)).symm

theorem getLogicalProcessorInformationEx_agrees {relationshipType : Relationship}
    (hsupported : ldkpIsSupportedProcessorRelationshipType relationshipType = true) :
    Agrees (getLogicalProcessorInformationEx t relationshipType)
      (ldkpQueryLogicalProcessorInformationExLength t relationshipType)
      (entriesOf t relationshipType).flatten := by
  have hlength := length_entriesOf t relationshipType
  have hpassed : ¬ ldkpIsSupportedProcessorRelationshipType relationshipType = false := by
    rw [hsupported]
    exact Bool.noConfusion
  refine ⟨hlength, fun n => ?_, fun buffer n hn hbuffer => ?_⟩
  · unfold getLogicalProcessorInformationEx
    dsimp only
    rw [if_neg hpassed]
    split
    · rename_i hzero
      exact ⟨_, rfl, by rw [hzero]⟩
    · exact ⟨_, rfl, rfl⟩
  · unfold getLogicalProcessorInformationEx
    dsimp only
    rw [if_neg hpassed]
    split
    · -- Nothing is written, and nothing was announced.
      rename_i hzero
      rw [hzero] at hlength ⊢
      rw [List.eq_nil_of_length_eq_zero hlength, List.nil_append, List.drop_zero]
    · rw [if_neg (by omega), ldkpFillLogicalProcessorInformationEx_eq t relationshipType
        (hn.trans hbuffer)]
      rfl

theorem getLogicalProcessorInformation_agrees : Agrees (getLogicalProcessorInformation t)
    (ldkpQueryLegacyLogicalProcessorInformationLength t) (legacyEntries t).flatten := by
  refine ⟨length_legacyEntries t, fun n => ⟨_, rfl, rfl⟩, fun buffer n hn hbuffer => ?_⟩
  unfold getLogicalProcessorInformation
  dsimp only
  rw [if_neg (by omega), ldkpFillLogicalProcessorInformation_eq t (hn.trans hbuffer)]
  rfl

/-- **Length and contents.** For every topology and relationship type that is supported, the bytes
that are written are those that were announced. A walk over them comes to entries that are not
empty, ends behind the last, and yields a core for each bit of the masks. The entries of a fixed
size are those of the first group. -/
theorem processor_information_agrees (relationshipType : Relationship) :
    (ldkpIsSupportedProcessorRelationshipType relationshipType = true →
      ∃ bytes, Agrees (getLogicalProcessorInformationEx t relationshipType)
        (ldkpQueryLogicalProcessorInformationExLength t relationshipType) bytes ∧
          reader.Walks bytes (coresFor t relationshipType)) ∧
      (ldkpIsSupportedProcessorRelationshipType relationshipType = false →
        ∀ buffer n, getLogicalProcessorInformationEx t relationshipType buffer (some n) =
          .ok ⟨false, some n, buffer, some errorInvalidParameter⟩) ∧
        ∃ bytes, Agrees (getLogicalProcessorInformation t)
          (ldkpQueryLegacyLogicalProcessorInformationLength t) bytes ∧
            legacyReader.Walks bytes (legacyCores (ldkpQueryActiveProcessorMask t 0)) := by
  refine ⟨fun hsupported => ?_, fun hrefused buffer n => if_pos hrefused, ?_⟩
  · exact ⟨_, getLogicalProcessorInformationEx_agrees t hsupported,
      (finds_entriesOf t relationshipType).walks⟩
  · exact ⟨_, getLogicalProcessorInformation_agrees t, (finds_legacyEntries t).walks⟩

/-- One processor in the first group, and two in the second. -/
def twoGroups : Topology where
  activeGroupCount := 2
  maximumGroupCount := 2
  groupAffinity group := if group = 0 then 1 else if group = 1 then 3 else 0
  activeProcessorCount group := if group = 0 then 1 else if group = 1 then 2 else 0
  maximumProcessorCount group := if group = 0 then 1 else if group = 1 then 2 else 0
  basicMask := some 1
  activeGroupCount_lt := by decide
  maximumGroupCount_lt := by decide

/-- The entries of a fixed size leave out the second group. -/
theorem second_group_is_left_out : ¬ ∃ bytes, Agrees (getLogicalProcessorInformation twoGroups)
    (ldkpQueryLegacyLogicalProcessorInformationLength twoGroups) bytes ∧
      legacyReader.Walks bytes ((List.range (ldkpQueryActiveProcessorGroupCount twoGroups)).flatMap
        fun g => legacyCores (ldkpQueryActiveProcessorMask twoGroups g)) := by
  rintro ⟨bytes, hagrees, hwalks⟩
  have hbytes := hagrees.unique (getLogicalProcessorInformation_agrees twoGroups)
  rw [hbytes] at hwalks
  have hcores := hwalks.unique (finds_legacyEntries twoGroups).walks
  -- Two cores are those of the second group.
  have hlength := congrArg List.length hcores
  revert hlength
  decide

end Ldk.SystemInfo
