import Ldk.Resource.Bounds

/-!
# Images as they are laid out

`LdkpLoadDll` in `ldk.c`, from the file in its buffer to the image before its relocation: the
headers are checked, and they and the sections are copied to where the headers say.

- Pointers are offsets from `Buffer` and from `Base`; an access outside of the file or of the image
  is a fault.
- `copySections_spec`: sections that fit and have no address in common are all in the image, and
  nothing else of it is changed.
-/

namespace Ldk.PeImage

open ByteBlock (Fault)
open Resource (Section readSection sectionAt sectionsFrom readSection_eq)

/-! ## Machines of files -/

namespace Machine

/-- `IMAGE_FILE_MACHINE_...` -/
def code : Machine → Nat
  | .i386 => 0x014c
  | .amd64 => 0x8664
  | .arm => 0x01c0
  | .arm64 => 0xaa64

end Machine

/-- The statuses of a file that is not taken for a DLL. -/
inductive ImageStatus where
  | invalidImageNotMz
  | invalidImageFormat
  | invalidImageWin32
  | invalidImageWin64
  | insufficientResources
  deriving DecidableEq, Repr

variable (m : Machine) (file : ByteBlock)

/-! ## LdkpLoadDll -/

/-- `Add2Ptr(Buffer, DosHeader->e_lfanew)`: a `LONG` is extended with its sign. -/
def ntHeaderPointer (lfanew : Nat) : Nat :=
  if lfanew < 2 ^ 31 then lfanew else m.ulongPtr (lfanew + 256 ^ m.pointerSize - 2 ^ 32)

/-- What is said of a machine that is not the one of the build. -/
def checkMachine (machine : Nat) : Option ImageStatus :=
  if m ≠ .i386 ∧ machine = Machine.i386.code then some .invalidImageWin32
  else if m = .i386 ∧ machine = Machine.amd64.code then some .invalidImageWin64
  else if machine ≠ m.code then some .invalidImageFormat
  else none

/-- The checks of the headers: where they are, when the file is taken for a DLL. -/
def checkHeaders : Except Fault (Except ImageStatus Nat) := do
  let magic ← file.read 0 2
  if magic ≠ 0x5a4d then return .error .invalidImageNotMz
  else
    let lfanew ← file.read 60 4
    let ntHeader := ntHeaderPointer m lfanew
    let signature ← file.read ntHeader 4
    if signature ≠ 0x4550 then return .error .invalidImageFormat
    else
      let machine ← file.read (ntHeader + 4) 2
      match checkMachine m machine with
      | some status => return .error status
      | none =>
        let characteristics ← file.read (ntHeader + 22) 2
        -- `IMAGE_FILE_DLL`
        if characteristics / 0x2000 % 2 = 0 then return .error .invalidImageFormat
        else return .ok ntHeader

/-- The loop that copies the sections, of which `n` are left from `p` on. -/
def copySections : Nat → Nat → ByteBlock → Except Fault ByteBlock
  | 0, _, image => .ok image
  | n + 1, p, image => do
    let s ← readSection file p
    let image ← image.copyFrom file s.virtualAddress s.pointerToRawData s.sizeOfRawData
    copySections n (p + 40) image

/-- `LdkpLoadDll`, from the file in `Buffer` to the image that is to be relocated; whether the pool
has the memory for it is a parameter. -/
def ldkpLayOut (allocates : Nat → Bool) : Except Fault (Except ImageStatus ByteBlock) := do
  match ← checkHeaders m file with
  | .error status => return .error status
  | .ok ntHeader =>
    let sizeOfImage ← file.read (ntHeader + 80) 4
    if allocates sizeOfImage = false then return .error .insufficientResources
    else
      let sizeOfHeaders ← file.read (ntHeader + 84) 4
      let image ← (ByteBlock.mk sizeOfImage fun _ => 0).copyFrom file 0 0 sizeOfHeaders
      let sizeOfOptionalHeader ← file.read (ntHeader + 20) 2
      let numberOfSections ← file.read (ntHeader + 6) 2
      let image ← copySections file numberOfSections (ntHeader + 24 + sizeOfOptionalHeader) image
      return .ok image

/-! ## Sections that fit -/

/-- The sections have no address in common. -/
def Apart (s t : Section) : Prop :=
  s.virtualAddress + s.span ≤ t.virtualAddress ∨ t.virtualAddress + t.span ≤ s.virtualAddress

/-- The section is inside the image and its bytes are in the file. -/
structure SectionFits (file : ByteBlock) (sizeOfImage : Nat) (s : Section) : Prop where
  inImage : s.virtualAddress + s.span ≤ sizeOfImage
  inFile : s.pointerToRawData + s.sizeOfRawData ≤ file.size

variable {m file} {image : ByteBlock} {n p : Nat}

theorem rawSize_le_span (s : Section) : s.sizeOfRawData ≤ s.span := Nat.le_max_right _ _

theorem copySections_spec (htable : p + 40 * n ≤ file.size)
    (hfits : ∀ s ∈ sectionsFrom file n p, SectionFits file image.size s)
    (hapart : (sectionsFrom file n p).Pairwise Apart) :
    Yields (copySections file n p image) fun image' =>
      image'.size = image.size ∧
      (∀ s ∈ sectionsFrom file n p, ∀ i, i < s.sizeOfRawData →
        image'.bytes (s.virtualAddress + i) = file.bytes (s.pointerToRawData + i)) ∧
      ∀ i, (∀ s ∈ sectionsFrom file n p,
        i < s.virtualAddress ∨ s.virtualAddress + s.sizeOfRawData ≤ i) →
          image'.bytes i = image.bytes i := by
  induction n generalizing p image with
  | zero => exact Yields.ok ⟨rfl, nofun, fun _ _ => rfl⟩
  | succ n ih =>
    have hlist : sectionsFrom file (n + 1) p = sectionAt file p :: sectionsFrom file n (p + 40) :=
      rfl
    rw [hlist] at hfits hapart ⊢
    obtain ⟨hfirst, hrest⟩ := List.pairwise_cons.mp hapart
    have hfit := hfits _ List.mem_cons_self
    have hspan := rawSize_le_span (sectionAt file p)
    have himage := hfit.inImage
    unfold copySections
    rw [readSection_eq (by omega), Yields.ok_bind]
    have hcopy : Yields _ _ :=
      ByteBlock.copyFrom_spec (b := image) (show file.Holds _ _ from hfit.inFile)
        (show image.Holds (sectionAt file p).virtualAddress (sectionAt file p).sizeOfRawData from
          by unfold ByteBlock.Holds; omega)
    apply hcopy.bind
    rintro copied ⟨hsize, hbytes, hothers⟩
    rw [← hsize] at hfits
    apply (ih (by omega) (fun s hs => hfits s (List.mem_cons_of_mem _ hs)) hrest).mono
    rintro image' ⟨hsize', hbytes', hothers'⟩
    refine ⟨hsize'.trans hsize, ?_, ?_⟩
    · rintro s hs i hi
      rcases List.mem_cons.mp hs with rfl | hs
      · -- the sections behind it leave its bytes alone
        rw [hothers', hbytes i hi]
        intro t ht
        have happart := hfirst t ht
        have htspan := rawSize_le_span t
        unfold Apart at happart
        omega
      · exact hbytes' s hs i hi
    · intro i hi
      rw [hothers' i fun s hs => hi s (List.mem_cons_of_mem _ hs),
        hothers i (hi _ List.mem_cons_self)]

end Ldk.PeImage
