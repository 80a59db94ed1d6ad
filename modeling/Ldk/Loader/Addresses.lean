import Mathlib
import Ldk.NtStatus
import Ldk.Loader.State

/-!
# The module that holds an address

Three walks of a list of modules look for the one that holds an address:
`LdkGetModuleByAddress` and `LdkReferenceModuleByAddress` on the list of the loader, and
`LdkQueryModuleInformationFromAddress` on the list of the kernel.

- The first and the third leave out the first byte of an image and take in the byte after the
  last; only the second compares as it should.
- So the three agree at an address exactly when no image starts or ends there, and when no image
  that holds it has a null base or ends with the address space (`lookups_by_address_agree`).
-/

namespace Ldk.Loader.ByAddress

/-! ## Modules and the memory they take -/

/-- `LDK_MODULE`, with the memory the image takes. Addresses have `w` bits. -/
structure Located (w : Nat) where
  base : BitVec w
  size : BitVec 32
  record : Module
  deriving DecidableEq, Repr

/-- The part of `RTL_PROCESS_MODULE_INFORMATION` that is looked at. -/
structure ModuleInformation (w : Nat) where
  imageBase : BitVec w
  imageSize : BitVec 32
  fullPathName : Name
  deriving DecidableEq, Repr

variable {w : Nat}

/-- `Add2Ptr` -/
def add2Ptr (base : BitVec w) (size : BitVec 32) : BitVec w := base + size.setWidth w

/-- The comparison of `LdkGetModuleByAddress` and `LdkQueryModuleInformationFromAddress`. -/
def isBehind (base : BitVec w) (size : BitVec 32) (address : BitVec w) : Bool :=
  base < address && add2Ptr base size ≥ address

/-- The comparison of `LdkReferenceModuleByAddress`. -/
def isWithin (base : BitVec w) (size : BitVec 32) (address : BitVec w) : Bool :=
  base ≤ address && add2Ptr base size > address

/-! ## The three walks -/

/-- `LdkGetModuleByAddress` -/
def getModuleByAddress (address : BitVec w) : List (Located w) → Except NtStatus (Located w)
  | [] => .error .notFound
  | m :: rest =>
    if m.base ≠ 0 ∧ isBehind m.base m.size address then .ok m
    else getModuleByAddress address rest

/-- `LdkReferenceModuleByAddress`: the module as it is found, and the list with the reference. -/
def referenceModuleByAddress (address : BitVec w) (pin incrementLoadCount : Bool) :
    List (Located w) → Except NtStatus (Located w) × List (Located w)
  | [] => (.error .notFound, [])
  | m :: rest =>
    if m.base ≠ 0 ∧ ¬ m.record.resourceOnly ∧ isWithin m.base m.size address then
      (.ok m, { m with record := m.record.reference pin incrementLoadCount } :: rest)
    else
      let (found, rest) := referenceModuleByAddress address pin incrementLoadCount rest
      (found, m :: rest)

/-- The walk of `LdkQueryModuleInformationFromAddress`. -/
def findModuleInformation (address : BitVec w) :
    List (ModuleInformation w) → Except NtStatus (ModuleInformation w)
  | [] => .error .notFound
  | info :: rest =>
    if isBehind info.imageBase info.imageSize address then .ok info
    else findModuleInformation address rest

/-- What `ZwQuerySystemInformation` gives. -/
inductive Reply (w : Nat) where
  | lengthMismatch (returnLength : Nat)
  | error (status : NtStatus)
  | modules (infos : List (ModuleInformation w))

/-- The kernel and the pool, at each attempt. -/
structure Kernel (w : Nat) where
  allocates : Nat → Nat → Bool
  querySystemInformation : Nat → Nat → Reply w

/-- `LdkQueryModuleInformationFromAddress` from an attempt on, with the size of the buffer. -/
def queryFrom (kernel : Kernel w) (address : BitVec w) :
    Nat → Nat → Nat → Option (Except NtStatus (ModuleInformation w))
  | 0, _, _ => none
  | rounds + 1, attempt, bufferSize =>
    if ! kernel.allocates attempt bufferSize then some (.error .noMemory)
    else
      match kernel.querySystemInformation attempt bufferSize with
      | .lengthMismatch returnLength => queryFrom kernel address rounds (attempt + 1) returnLength
      | .error status => some (.error status)
      | .modules infos => some (findModuleInformation address infos)

/-- `LdkQueryModuleInformationFromAddress` -/
def queryModuleInformationFromAddress (kernel : Kernel w) (address : BitVec w) (rounds : Nat) :
    Option (Except NtStatus (ModuleInformation w)) :=
  queryFrom kernel address rounds 0 65536

/-! ## The kernel reports a list -/

/-- From an attempt on, the kernel asks for more room until it reports `infos`. -/
inductive Kernel.ReportsFrom (kernel : Kernel w) (infos : List (ModuleInformation w)) :
    Nat → Nat → Prop where
  | now {attempt bufferSize : Nat} :
      kernel.allocates attempt bufferSize →
      kernel.querySystemInformation attempt bufferSize = .modules infos →
      kernel.ReportsFrom infos attempt bufferSize
  | retry {attempt bufferSize returnLength : Nat} :
      kernel.allocates attempt bufferSize →
      kernel.querySystemInformation attempt bufferSize = .lengthMismatch returnLength →
      kernel.ReportsFrom infos (attempt + 1) returnLength →
      kernel.ReportsFrom infos attempt bufferSize

/-- The kernel reports `infos`. -/
def Kernel.Reports (kernel : Kernel w) (infos : List (ModuleInformation w)) : Prop :=
  kernel.ReportsFrom infos 0 65536

theorem Kernel.ReportsFrom.queryFrom_eq {kernel : Kernel w} {infos : List (ModuleInformation w)}
    {attempt bufferSize : Nat} (h : kernel.ReportsFrom infos attempt bufferSize)
    (address : BitVec w) {rounds : Nat} {result : Except NtStatus (ModuleInformation w)}
    (hrun : queryFrom kernel address rounds attempt bufferSize = some result) :
    result = findModuleInformation address infos := by
  induction h generalizing rounds with
  | now halloc hquery =>
    cases rounds with
    | zero => simp [queryFrom] at hrun
    | succ rounds =>
      simp only [queryFrom, halloc, hquery, Bool.not_true, Bool.false_eq_true, if_false,
        Option.some.injEq] at hrun
      exact hrun.symm
  | retry halloc hquery _ ih =>
    cases rounds with
    | zero => simp [queryFrom] at hrun
    | succ rounds =>
      simp only [queryFrom, halloc, hquery, Bool.not_true, Bool.false_eq_true, if_false] at hrun
      exact ih hrun

theorem Kernel.ReportsFrom.exists_queryFrom {kernel : Kernel w}
    {infos : List (ModuleInformation w)} {attempt bufferSize : Nat}
    (h : kernel.ReportsFrom infos attempt bufferSize) (address : BitVec w) :
    ∃ rounds, queryFrom kernel address rounds attempt bufferSize =
      some (findModuleInformation address infos) := by
  induction h with
  | now halloc hquery => exact ⟨1, by simp [queryFrom, halloc, hquery]⟩
  | retry halloc hquery _ ih =>
    obtain ⟨rounds, hrun⟩ := ih
    exact ⟨rounds + 1, by simp [queryFrom, halloc, hquery, hrun]⟩

/-! ## The comparisons -/

theorem add2Ptr_toNat (hw : 32 ≤ w) (base : BitVec w) (size : BitVec 32) :
    (add2Ptr base size).toNat = (base.toNat + size.toNat) % 2 ^ w := by
  have hsize : size.toNat < 2 ^ w :=
    Nat.lt_of_lt_of_le size.isLt (Nat.pow_le_pow_right (by omega) hw)
  rw [add2Ptr, BitVec.toNat_add, BitVec.toNat_setWidth, Nat.mod_eq_of_lt hsize]

/-- An end beyond the address space comes round below the base. -/
theorem add2Ptr_lt_base (hw : 32 ≤ w) {base : BitVec w} {size : BitVec 32}
    (hend : 2 ^ w ≤ base.toNat + size.toNat) : add2Ptr base size < base := by
  have hsize : size.toNat < 2 ^ w :=
    Nat.lt_of_lt_of_le size.isLt (Nat.pow_le_pow_right (by omega) hw)
  have hbase := base.isLt
  rw [BitVec.lt_def, add2Ptr_toNat hw, Nat.mod_eq_sub_mod hend, Nat.mod_eq_of_lt (by omega)]
  omega

theorem isBehind_iff (hw : 32 ≤ w) (base : BitVec w) (size : BitVec 32) (address : BitVec w) :
    isBehind base size address ↔
      base.toNat + size.toNat < 2 ^ w ∧ base.toNat < address.toNat ∧
        address.toNat ≤ base.toNat + size.toNat := by
  by_cases hend : base.toNat + size.toNat < 2 ^ w
  · simp [isBehind, BitVec.lt_def, BitVec.le_def, add2Ptr_toNat hw, Nat.mod_eq_of_lt hend, hend]
  · have hlow := add2Ptr_lt_base hw (Nat.le_of_not_lt hend)
    rw [BitVec.lt_def] at hlow
    simp only [isBehind, BitVec.lt_def, BitVec.le_def, ge_iff_le, Bool.and_eq_true,
      decide_eq_true_eq, hend, false_and, iff_false, not_and]
    omega

theorem isWithin_iff (hw : 32 ≤ w) (base : BitVec w) (size : BitVec 32) (address : BitVec w) :
    isWithin base size address ↔
      base.toNat + size.toNat < 2 ^ w ∧ base.toNat ≤ address.toNat ∧
        address.toNat < base.toNat + size.toNat := by
  by_cases hend : base.toNat + size.toNat < 2 ^ w
  · simp [isWithin, BitVec.lt_def, BitVec.le_def, add2Ptr_toNat hw, Nat.mod_eq_of_lt hend, hend]
  · have hlow := add2Ptr_lt_base hw (Nat.le_of_not_lt hend)
    rw [BitVec.lt_def] at hlow
    simp only [isWithin, BitVec.lt_def, BitVec.le_def, gt_iff_lt, Bool.and_eq_true,
      decide_eq_true_eq, hend, false_and, iff_false, not_and]
    omega

/-! ## The walks stop at the first module that passes -/

/-- What a walk gives for the first that passes. -/
def firstFound {α : Type} (found : Option α) : Except NtStatus α :=
  match found with
  | some a => .ok a
  | none => .error .notFound

@[simp] theorem firstFound_some {α : Type} (a : α) : firstFound (some a) = .ok a := rfl

@[simp] theorem firstFound_none {α : Type} :
    firstFound (none : Option α) = .error .notFound := rfl

theorem firstFound_eq_ok {α : Type} {found : Option α} {a : α} :
    firstFound found = .ok a ↔ found = some a := by
  cases found <;> simp

theorem firstFound_eq_error {α : Type} {found : Option α} :
    firstFound found = .error .notFound ↔ found = none := by
  cases found <;> simp

theorem getModuleByAddress_eq (address : BitVec w) (ms : List (Located w)) :
    getModuleByAddress address ms =
      firstFound (ms.find? fun m => m.base ≠ 0 ∧ isBehind m.base m.size address) := by
  induction ms with
  | nil => rfl
  | cons m rest ih =>
    rw [getModuleByAddress, List.find?_cons]
    split_ifs with h
    · rw [decide_eq_true h]
      rfl
    · rw [decide_eq_false h, ih]

theorem findModuleInformation_eq (address : BitVec w) (infos : List (ModuleInformation w)) :
    findModuleInformation address infos =
      firstFound (infos.find? fun info => isBehind info.imageBase info.imageSize address) := by
  induction infos with
  | nil => rfl
  | cons info rest ih =>
    rw [findModuleInformation, List.find?_cons]
    cases h : isBehind info.imageBase info.imageSize address
    · simp [ih]
    · simp

theorem referenceModuleByAddress_eq (address : BitVec w) (pin incrementLoadCount : Bool)
    {ms : List (Located w)} (hresource : ∀ m ∈ ms, m.record.resourceOnly = false) :
    (referenceModuleByAddress address pin incrementLoadCount ms).1 =
      firstFound (ms.find? fun m => m.base ≠ 0 ∧ isWithin m.base m.size address) := by
  induction ms with
  | nil => rfl
  | cons m rest ih =>
    have hm : m.record.resourceOnly = false := hresource m List.mem_cons_self
    have hrest := ih fun n hn => hresource n (List.mem_cons_of_mem m hn)
    rw [referenceModuleByAddress, List.find?_cons]
    by_cases h : m.base ≠ 0 ∧ isWithin m.base m.size address
    · rw [if_pos ⟨h.1, by simp [hm], h.2⟩, decide_eq_true h]
      rfl
    · rw [if_neg fun hall => h ⟨hall.1, hall.2.2⟩, decide_eq_false h]
      exact hrest

/-! ## The module that holds an address -/

namespace Located

/-- `Base <= Address < Base + Size` -/
def contains (m : Located w) (address : BitVec w) : Prop :=
  m.base.toNat ≤ address.toNat ∧ address.toNat < m.base.toNat + m.size.toNat

instance (m : Located w) (address : BitVec w) : Decidable (m.contains address) := by
  unfold contains
  infer_instance

/-- The ranges have no address in common. -/
def Apart (m n : Located w) : Prop := ∀ i : Nat,
  ¬ ((m.base.toNat ≤ i ∧ i < m.base.toNat + m.size.toNat) ∧
    n.base.toNat ≤ i ∧ i < n.base.toNat + n.size.toNat)

/-- The image neither starts nor ends at the address; and if the base is null or the image ends
with the address space, the address is not in it. -/
def Clear (m : Located w) (address : BitVec w) : Prop :=
  0 < m.size.toNat →
    address ≠ m.base ∧ address.toNat ≠ m.base.toNat + m.size.toNat ∧
      (m.base = 0 ∨ 2 ^ w ≤ m.base.toNat + m.size.toNat → ¬ m.contains address)

/-- The kernel's entry is that of the module. -/
def IsReportedAs (m : Located w) (info : ModuleInformation w) : Prop :=
  info.imageBase = m.base ∧ info.imageSize = m.size

end Located

/-- Either each of the three look-ups gives the one module that holds the address, or no module
does and each of them fails. -/
def Agree (ms : List (Located w)) (address : BitVec w) (get reference : Except NtStatus (Located w))
    (query : Except NtStatus (ModuleInformation w)) : Prop :=
  (∃ m ∈ ms, m.contains address ∧ (∀ n ∈ ms, n.contains address → n = m) ∧
    get = .ok m ∧ reference = .ok m ∧ ∃ info, query = .ok info ∧ m.IsReportedAs info) ∨
  ((∀ m ∈ ms, ¬ m.contains address) ∧
    get = .error .notFound ∧ reference = .error .notFound ∧ query = .error .notFound)

/-- The kernel's list is the loader's. -/
def SameList (ms : List (Located w)) (infos : List (ModuleInformation w)) : Prop :=
  List.Forall₂ Located.IsReportedAs ms infos

section Agreement

variable {ms : List (Located w)} {infos : List (ModuleInformation w)} {address : BitVec w}

theorem unique_of_apart (hapart : ms.Pairwise Located.Apart) {m n : Located w} {i : Nat}
    (hm : m ∈ ms) (hn : n ∈ ms)
    (hmi : m.base.toNat ≤ i ∧ i < m.base.toNat + m.size.toNat)
    (hni : n.base.toNat ≤ i ∧ i < n.base.toNat + n.size.toNat) : n = m := by
  by_contra hne
  have hsymm : Std.Symm (Located.Apart (w := w)) := ⟨fun a b hab i hi => hab i hi.symm⟩
  exact hapart.forall hm hn (Ne.symm hne) i ⟨hmi, hni⟩

theorem find?_eq_some_of_unique {α : Type} {p : α → Bool} {l : List α} {a : α} (ha : a ∈ l)
    (hp : p a) (hunique : ∀ b ∈ l, p b → b = a) : l.find? p = some a := by
  cases hfind : l.find? p with
  | none => exact absurd hp (List.find?_eq_none.mp hfind a ha)
  | some b => rw [hunique b (List.mem_of_find?_eq_some hfind) (List.find?_some hfind)]

/-- The walk of the kernel's list finds the entry of the module that the same walk of the
loader's list finds. -/
theorem SameList.findModuleInformation_eq (hsame : SameList ms infos) (address : BitVec w) :
    (∃ m info, ms.find? (fun m => isBehind m.base m.size address) = some m ∧
      findModuleInformation address infos = .ok info ∧ m.IsReportedAs info) ∨
    (ms.find? (fun m => isBehind m.base m.size address) = none ∧
      findModuleInformation address infos = .error .notFound) := by
  induction hsame with
  | nil => exact Or.inr ⟨rfl, rfl⟩
  | @cons m info ms infos hm _ ih =>
    rw [findModuleInformation, List.find?_cons, hm.1, hm.2]
    cases hbehind : isBehind m.base m.size address with
    | true => exact Or.inl ⟨m, info, rfl, rfl, hm⟩
    | false => simpa using ih

/-! ## An address that is clear of every boundary -/

namespace Located

variable {m : Located w}

theorem Clear.base_ne_zero (h : m.Clear address) (hm : m.contains address) : m.base ≠ 0 := by
  intro hbase
  have hsize : 0 < m.size.toNat := by
    have := hm.1
    have := hm.2
    omega
  exact (h hsize).2.2 (Or.inl hbase) hm

theorem Clear.end_lt (h : m.Clear address) (hm : m.contains address) :
    m.base.toNat + m.size.toNat < 2 ^ w := by
  by_contra hend
  have hsize : 0 < m.size.toNat := by
    have := hm.1
    have := hm.2
    omega
  exact (h hsize).2.2 (Or.inr (by omega)) hm

theorem Clear.isBehind_iff (hw : 32 ≤ w) (h : m.Clear address) :
    isBehind m.base m.size address ↔ m.contains address := by
  rw [ByAddress.isBehind_iff hw]
  constructor
  · rintro ⟨_, hlow, hhigh⟩
    have hend := (h (by omega)).2.1
    exact ⟨by omega, by omega⟩
  · intro hm
    have hbase : address.toNat ≠ m.base.toNat := by
      intro heq
      have := hm.1
      have := hm.2
      exact (h (by omega)).1 (BitVec.eq_of_toNat_eq heq)
    have hlow := hm.1
    have hhigh := hm.2
    exact ⟨h.end_lt hm, by omega, by omega⟩

theorem Clear.isWithin_iff (hw : 32 ≤ w) (h : m.Clear address) :
    isWithin m.base m.size address ↔ m.contains address := by
  rw [ByAddress.isWithin_iff hw]
  constructor
  · rintro ⟨_, hm⟩
    exact hm
  · intro hm
    exact ⟨h.end_lt hm, hm⟩

/-- A walk whose comparison is `contains` at this address, but for null bases. -/
theorem Clear.passes_iff {p : Bool} (h : m.Clear address) (hp : p ↔ m.contains address) :
    decide (m.base ≠ 0 ∧ p) ↔ m.contains address := by
  rw [decide_eq_true_iff, hp]
  constructor
  · exact And.right
  · intro hm
    exact ⟨h.base_ne_zero hm, hm⟩

end Located

/-- A walk whose comparison is `contains` gives the one module that holds the address. -/
theorem find?_of_contains {p : Located w → Bool} (hp : ∀ m ∈ ms, p m ↔ m.contains address)
    {m : Located w} (hm : m ∈ ms) (hcontains : m.contains address)
    (hunique : ∀ n ∈ ms, n.contains address → n = m) : ms.find? p = some m := by
  apply find?_eq_some_of_unique hm ((hp m hm).mpr hcontains)
  intro n hn hpn
  exact hunique n hn ((hp n hn).mp hpn)

theorem find?_of_not_contains {p : Located w → Bool} (hp : ∀ m ∈ ms, p m ↔ m.contains address)
    (hnone : ∀ m ∈ ms, ¬ m.contains address) : ms.find? p = none := by
  apply List.find?_eq_none.mpr
  intro m hm hpm
  exact hnone m hm ((hp m hm).mp hpm)

theorem agree_of_clear (hw : 32 ≤ w) (hapart : ms.Pairwise Located.Apart)
    (hresource : ∀ m ∈ ms, m.record.resourceOnly = false) (hsame : SameList ms infos)
    (pin incrementLoadCount : Bool) (hclear : ∀ m ∈ ms, m.Clear address) :
    Agree ms address (getModuleByAddress address ms)
      (referenceModuleByAddress address pin incrementLoadCount ms).1
      (findModuleInformation address infos) := by
  have hbehind : ∀ m ∈ ms, isBehind m.base m.size address ↔ m.contains address :=
    fun m hm => (hclear m hm).isBehind_iff hw
  have hget := fun m hm => (hclear m hm).passes_iff (hbehind m hm)
  have hreference := fun m hm => (hclear m hm).passes_iff ((hclear m hm).isWithin_iff hw)
  rw [getModuleByAddress_eq, referenceModuleByAddress_eq address pin incrementLoadCount hresource]
  by_cases hheld : ∃ m ∈ ms, m.contains address
  · obtain ⟨m, hm, hcontains⟩ := hheld
    have hunique : ∀ n ∈ ms, n.contains address → n = m :=
      fun n hn hcn => unique_of_apart hapart hm hn hcontains hcn
    refine Or.inl ⟨m, hm, hcontains, hunique, ?_, ?_, ?_⟩
    · rw [find?_of_contains hget hm hcontains hunique, firstFound_some]
    · rw [find?_of_contains hreference hm hcontains hunique, firstFound_some]
    · have hfind := find?_of_contains hbehind hm hcontains hunique
      obtain ⟨m', info, hfind', hquery, hinfo⟩ | ⟨hfind', _⟩ :=
        hsame.findModuleInformation_eq address
      · rw [hfind] at hfind'
        cases hfind'
        exact ⟨info, hquery, hinfo⟩
      · rw [hfind] at hfind'
        cases hfind'
  · have hnone : ∀ m ∈ ms, ¬ m.contains address := fun m hm hc => hheld ⟨m, hm, hc⟩
    refine Or.inr ⟨hnone, ?_, ?_, ?_⟩
    · rw [find?_of_not_contains hget hnone, firstFound_none]
    · rw [find?_of_not_contains hreference hnone, firstFound_none]
    · obtain ⟨m', info, hfind', _⟩ | ⟨_, hquery⟩ :=
        hsame.findModuleInformation_eq address
      · rw [find?_of_not_contains hbehind hnone] at hfind'
        cases hfind'
      · exact hquery

/-! ## An address on a boundary -/

section Boundary

variable {m : Located w} (hm : m ∈ ms)

include hm

/-- `LdkGetModuleByAddress` does not find a module at its base. -/
theorem base_ne_of_agree (hw : 32 ≤ w) (hapart : ms.Pairwise Located.Apart)
    (hsize : 0 < m.size.toNat) {reference : Except NtStatus (Located w)}
    {query : Except NtStatus (ModuleInformation w)}
    (hagree : Agree ms address (getModuleByAddress address ms) reference query) :
    address ≠ m.base := by
  rintro rfl
  have hcontains : m.contains m.base := ⟨Nat.le_refl _, by omega⟩
  rcases hagree with ⟨n, hn, hcn, _, hget, _⟩ | ⟨hnone, _⟩
  · rw [getModuleByAddress_eq, firstFound_eq_ok] at hget
    have hpass := List.find?_some hget
    rw [unique_of_apart hapart hm hn hcontains hcn, decide_eq_true_iff, isBehind_iff hw] at hpass
    omega
  · exact hnone m hm hcontains

/-- `LdkQueryModuleInformationFromAddress` takes the byte after a module for its own. -/
theorem end_ne_of_agree (hw : 32 ≤ w) (hapart : ms.Pairwise Located.Apart)
    (hsame : SameList ms infos) (hsize : 0 < m.size.toNat)
    {get reference : Except NtStatus (Located w)}
    (hagree : Agree ms address get reference (findModuleInformation address infos)) :
    address.toNat ≠ m.base.toNat + m.size.toNat := by
  intro hend
  have hbehind : isBehind m.base m.size address := by
    rw [isBehind_iff hw]
    have := address.isLt
    omega
  obtain ⟨n, info, hfind, hquery, hinfo⟩ | ⟨hfind, _⟩ :=
    hsame.findModuleInformation_eq address
  · have hn := List.find?_some hfind
    rw [isBehind_iff hw] at hn
    rcases hagree with ⟨n', hn', hcn', _, _, _, info', hquery', hinfo'⟩ | ⟨_, _, _, hquery'⟩
    · rw [hquery] at hquery'
      cases hquery'
      -- the entry lies behind the address and so does the module that holds it
      have hbase : n'.base.toNat < address.toNat := by
        rw [← hinfo'.1, hinfo.1]
        exact hn.2.1
      have hlast := unique_of_apart (i := address.toNat - 1) hapart hm hn'
        ⟨by omega, by omega⟩ ⟨by omega, by have := hcn'.2; omega⟩
      rw [hlast] at hcn'
      have := hcn'.2
      omega
    · rw [hquery] at hquery'
      cases hquery'
  · exact absurd hbehind (List.find?_eq_none.mp hfind m hm)

/-- `LdkReferenceModuleByAddress` finds no module with a null base, and none that ends with the
address space. -/
theorem not_contains_of_agree (hw : 32 ≤ w) (hapart : ms.Pairwise Located.Apart)
    (hresource : ∀ m ∈ ms, m.record.resourceOnly = false) {pin incrementLoadCount : Bool}
    {get : Except NtStatus (Located w)} {query : Except NtStatus (ModuleInformation w)}
    (hagree : Agree ms address get
      (referenceModuleByAddress address pin incrementLoadCount ms).1 query)
    (hmissed : m.base = 0 ∨ 2 ^ w ≤ m.base.toNat + m.size.toNat) : ¬ m.contains address := by
  intro hcontains
  rcases hagree with ⟨n, hn, hcn, _, _, hreference, _⟩ | ⟨hnone, _⟩
  · rw [referenceModuleByAddress_eq address pin incrementLoadCount hresource,
      firstFound_eq_ok] at hreference
    have hpass := List.find?_some hreference
    rw [unique_of_apart hapart hm hn hcontains hcn, decide_eq_true_iff, isWithin_iff hw] at hpass
    rcases hmissed with hbase | hend
    · exact hpass.1 hbase
    · omega
  · exact hnone m hm hcontains

end Boundary

end Agreement

/-! ## The three look-ups -/

/-- The three look-ups agree at an address exactly when it is clear of every module: no image
starts or ends there, and no image that holds it has a null base or ends with the address
space. -/
theorem lookups_by_address_agree (hw : 32 ≤ w) {ms : List (Located w)}
    {infos : List (ModuleInformation w)} {kernel : Kernel w}
    (hapart : ms.Pairwise Located.Apart)
    (hresource : ∀ m ∈ ms, m.record.resourceOnly = false)
    (hreports : kernel.Reports infos) (hsame : SameList ms infos)
    (address : BitVec w) (pin incrementLoadCount : Bool) :
    (∃ rounds query, queryModuleInformationFromAddress kernel address rounds = some query ∧
      Agree ms address (getModuleByAddress address ms)
        (referenceModuleByAddress address pin incrementLoadCount ms).1 query) ↔
    ∀ m ∈ ms, m.Clear address := by
  constructor
  · rintro ⟨rounds, query, hquery, hagree⟩ m hm hsize
    rw [hreports.queryFrom_eq address hquery] at hagree
    exact ⟨base_ne_of_agree hm hw hapart hsize hagree,
      end_ne_of_agree hm hw hapart hsame hsize hagree,
      not_contains_of_agree hm hw hapart hresource hagree⟩
  · intro hclear
    obtain ⟨rounds, hquery⟩ := hreports.exists_queryFrom address
    exact ⟨rounds, _, hquery,
      agree_of_clear hw hapart hresource hsame pin incrementLoadCount hclear⟩

/-- An image of 4096 bytes at `base`. -/
def page (base : BitVec 64) : Located 64 where
  base := base
  size := 4096
  record :=
    { id := base.toNat, moduleName := [], fullPathName := [], functionTable := none,
      image := none, loadCount := 1, pinned := false, processAttached := false,
      resourceOnly := false, tlsIndex := none, dependencyList := [] }

/-- Two images, one right behind the other. -/
def adjacent : List (Located 64) := [page 4096, page 8192]

def adjacentInfos : List (ModuleInformation 64) := [⟨4096, 4096, []⟩, ⟨8192, 4096, []⟩]

/-- A kernel that asks for a larger buffer once. -/
def retrying : Kernel 64 where
  allocates _ _ := true
  querySystemInformation _ bufferSize :=
    if bufferSize < 100000 then .lengthMismatch 100000 else .modules adjacentInfos

theorem retrying_reports : retrying.Reports adjacentInfos :=
  .retry rfl rfl (.now rfl rfl)

theorem adjacent_apart : adjacent.Pairwise Located.Apart := by
  refine List.Pairwise.cons ?_ (List.pairwise_singleton _ _)
  intro m hm i
  rw [List.mem_singleton.mp hm]
  change ¬ ((4096 ≤ i ∧ i < 8192) ∧ 8192 ≤ i ∧ i < 12288)
  omega

theorem adjacent_sameList : SameList adjacent adjacentInfos :=
  .cons ⟨rfl, rfl⟩ (.cons ⟨rfl, rfl⟩ .nil)

theorem adjacent_not_resource : ∀ m ∈ adjacent, m.record.resourceOnly = false := by
  decide

theorem adjacent_agree :
    (∃ rounds query, queryModuleInformationFromAddress retrying 6000 rounds = some query ∧
      Agree adjacent 6000 (getModuleByAddress 6000 adjacent)
        (referenceModuleByAddress 6000 false true adjacent).1 query) ↔
    ∀ m ∈ adjacent, m.Clear 6000 :=
  lookups_by_address_agree (by decide) adjacent_apart adjacent_not_resource retrying_reports
    adjacent_sameList 6000 false true

/-- At the first byte of the second image two of the look-ups give the first one. -/
theorem first_byte_is_not_found :
    adjacent.Pairwise Located.Apart ∧ (∀ m ∈ adjacent, m.record.resourceOnly = false) ∧
    retrying.Reports adjacentInfos ∧ SameList adjacent adjacentInfos ∧
    ¬ ∃ rounds query, queryModuleInformationFromAddress retrying 8192 rounds = some query ∧
      Agree adjacent 8192 (getModuleByAddress 8192 adjacent)
        (referenceModuleByAddress 8192 false true adjacent).1 query := by
  refine ⟨adjacent_apart, adjacent_not_resource, retrying_reports, adjacent_sameList, ?_⟩
  rintro ⟨rounds, query, _, hagree⟩
  have hsecond : page 8192 ∈ adjacent := List.mem_cons_of_mem _ List.mem_cons_self
  exact base_ne_of_agree hsecond (by decide) adjacent_apart (by decide) hagree rfl

end Ldk.Loader.ByAddress
