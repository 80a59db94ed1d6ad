import Ldk.Lib.BinarySearch
import Ldk.Loader.Load

/-!
# Looking up exports by name and by ordinal

`LdkpNameToOrdinal` is a halving search of the name table. When the directory is well formed, a
name that is exported is found and leads to the same address as its ordinal, and a name that is
not exported is not found, but for a few names and directories (`lookups_agree`):

- a name of more than 62 characters does not fit in `NameBuffer`;
- the value for "not found", 65535, may be the index of a function;
- an ordinal has 16 bits, and 0 stands for a lookup by name.
-/

namespace Ldk.Loader

open Std

/-! ## strcmp -/

theorem strcmp_eq (a b : Name) : strcmp a b = List.compareLex (compareOn Char.toNat) a b := by
  induction a generalizing b with
  | nil => cases b <;> rfl
  | cons c a ih =>
    cases b with
    | nil => rfl
    | cons d b =>
      rw [strcmp, List.compareLex_cons_cons, ih]
      rfl

instance compareOnToNat_lawful : LawfulEqCmp (compareOn Char.toNat) where
  compare_self := Nat.compare_eq_eq.mpr rfl
  eq_of_compare h := Char.toNat_inj.mp (Nat.compare_eq_eq.mp h)

theorem strcmp_eq_compareLex : strcmp = List.compareLex (compareOn Char.toNat) := by
  funext a b
  exact strcmp_eq a b

instance : TransCmp strcmp := by
  rw [strcmp_eq_compareLex]
  infer_instance

instance strcmp_lawful : LawfulEqCmp strcmp := by
  rw [strcmp_eq_compareLex]
  infer_instance

/-! ## LdkpNameToOrdinal -/

/-- The value for a name that is not found: `(USHORT)-1`. -/
def notFound : Nat := 65535

theorem nameToOrdinal_eq (name : Name) (rounds : Nat) (names : List (Name × Nat)) :
    nameToOrdinal name rounds names =
      (BinarySearch.search strcmp name rounds names).getD notFound := by
  induction rounds generalizing names with
  | zero => rfl
  | succ rounds ih =>
    unfold nameToOrdinal BinarySearch.search
    dsimp only
    cases hmiddle : names[names.length / 2]? with
    | none => rfl
    | some entry =>
      obtain ⟨k, ordinal⟩ := entry
      dsimp only
      -- with one entry left there is nothing on either side of it
      have hone : ∀ half : List (Name × Nat), (names.length = 1 → half = []) →
          (if names.length = 1 then notFound else nameToOrdinal name rounds half) =
            (BinarySearch.search strcmp name rounds half).getD notFound := by
        intro half hhalf
        split
        · rename_i hlength
          rw [hhalf hlength]
          cases rounds <;> rfl
        · exact ih half
      cases strcmp name k with
      | eq => rfl
      | lt =>
        apply hone
        intro hlength
        rw [hlength]
        rfl
      | gt =>
        apply hone
        intro hlength
        rw [hlength]
        exact List.drop_eq_nil_of_le (by omega)

/-! ## Well-formed directories -/

/-- The export directory is well formed, and its tables are those of an image: a function takes
four bytes of it, and the index of a function is a `USHORT`. -/
structure ExportDirectory.WellFormed (directory : ExportDirectory) : Prop where
  sorted : BinarySearch.Sorted strcmp directory.names
  ordinals : ∀ name ordinal, (name, ordinal) ∈ directory.names →
    ordinal < directory.functions.length
  noForwarders : ∀ text, .forwarder text ∉ directory.functions
  ushort : ∀ name ordinal, (name, ordinal) ∈ directory.names → ordinal < 2 ^ 16
  functions : 4 * directory.functions.length ≤ 2 ^ 32
  base : directory.base < 2 ^ 32

namespace ExportDirectory

variable {directory : ExportDirectory} {name : Name} {ordinal : Nat}

theorem WellFormed.nameToOrdinal_of_mem (h : directory.WellFormed)
    (hmem : (name, ordinal) ∈ directory.names) :
    nameToOrdinal name directory.names.length directory.names = ordinal := by
  rw [nameToOrdinal_eq, (BinarySearch.search_eq_some_iff h.sorted (Nat.le_refl _)).mpr hmem]
  rfl

theorem WellFormed.nameToOrdinal_of_absent (h : directory.WellFormed)
    (habsent : ∀ ordinal, (name, ordinal) ∉ directory.names) :
    nameToOrdinal name directory.names.length directory.names = notFound := by
  rw [nameToOrdinal_eq, BinarySearch.search_eq_none h.sorted (Nat.le_refl _) habsent]
  rfl

end ExportDirectory

/-! ## The two ways to look up -/

/-- The address of what has been found. -/
def exportAddress : Except NtStatus Export → Except NtStatus Nat
  | .error status => .error status
  | .ok (.address address) => .ok address
  | .ok .null => .error .procedureNotFound
  | .ok (.forwarder _) => .error .unsuccessful

/-- The image a handle stands for. -/
def Env.ImageAt (env : Env) (s : State) (image : Image) : Handle → Prop
  | .imageBase => image = env.image
  | .module id => ∃ m, s.get id = some m ∧ m.image = some image

namespace Image

variable {image : Image} {directory : ExportDirectory} {name : Name} {ordinal : Nat}

/-- The lookup in an image without forwarders, by name or by number. -/
def lookup (image : Image) (procedureName : Option Name) (procedureNumber : Nat) :
    Except NtStatus Nat := exportAddress (image.findExport procedureName procedureNumber)

theorem functionAt_of_getElem {found : Export} {missing : NtStatus}
    (h : directory.functions[ordinal]? = some found) (hnull : found ≠ .null) :
    directory.functionAt ordinal missing = .ok found := by
  unfold ExportDirectory.functionAt
  rw [h]
  cases found with
  | null => exact absurd rfl hnull
  | address | forwarder => rfl

/-- What the two lookups find, they find among the functions. -/
theorem functionAt_mem {found : Export} {missing : NtStatus}
    (h : directory.functionAt ordinal missing = .ok found) :
    directory.functions[ordinal]? = some found ∧ found ≠ .null := by
  unfold ExportDirectory.functionAt at h
  split at h
  · cases h
  · cases h
  · rename_i found' hnull hget
    obtain rfl := Except.ok.inj h
    exact ⟨hget, hnull⟩

theorem findExport_mem {found : Export} {procedureName : Option Name} {procedureNumber : Nat}
    (hexports : image.exports = some directory)
    (h : image.findExport procedureName procedureNumber = .ok found) :
    found ∈ directory.functions := by
  have hmem : ∀ i missing, directory.functionAt i missing = .ok found →
      found ∈ directory.functions :=
    fun i missing hi => List.mem_of_getElem? (functionAt_mem hi).1
  unfold findExport at h
  rw [hexports] at h
  dsimp only at h
  split at h
  · split at h
    · cases h
    · exact hmem _ _ h
  · split at h
    · cases h
    · split at h
      · cases h
      · split at h
        · cases h
        · exact hmem _ _ h

theorem findExport_name (hexports : image.exports = some directory)
    (hshort : name.length ≤ 62) :
    image.findExport (some name) 0 =
      let ordinal := nameToOrdinal name directory.names.length directory.names
      if ordinal ≥ directory.functions.length then .error .procedureNotFound
      else directory.functionAt ordinal .procedureNotFound := by
  unfold findExport
  rw [hexports]
  dsimp only
  rw [if_neg (fun h => h rfl), if_neg (Nat.not_lt.mpr hshort)]

theorem findExport_long (hexports : image.exports = some directory) (hlong : 62 < name.length) :
    image.findExport (some name) 0 = .error .invalidParameter := by
  unfold findExport
  rw [hexports]
  dsimp only
  rw [if_neg (fun h => h rfl), if_pos hlong]

end Image

/-! ## Agreement and its condition -/

/-- An exported name leads to the address its ordinal leads to, and no other name to any. -/
structure Agree (directory : ExportDirectory) (name : Name)
    (lookup : Option Name → Nat → Except NtStatus Nat) : Prop where
  exported : ∀ ordinal, (name, ordinal) ∈ directory.names →
    ∃ address, lookup (some name) 0 = .ok address ∧
      lookup none ((directory.base + ordinal) % 2 ^ 32) = .ok address
  absent : (∀ ordinal, (name, ordinal) ∉ directory.names) →
    lookup (some name) 0 = .error .procedureNotFound

/-- The name fits in `NameBuffer`, its function is there and its ordinal is a `USHORT` other than
0; and if the name is not exported, 65535 is not the index of a function. -/
structure Reliable (directory : ExportDirectory) (name : Name) : Prop where
  short : name.length ≤ 62
  exported : ∀ ordinal, (name, ordinal) ∈ directory.names →
    0 < directory.base + ordinal ∧ directory.base + ordinal < 2 ^ 16 ∧
      directory.functions[ordinal]? ≠ some .null
  absent : (∀ ordinal, (name, ordinal) ∉ directory.names) →
    ∀ address, directory.functions[notFound]? ≠ some (.address address)

namespace ExportDirectory.WellFormed

variable {directory : ExportDirectory} {image : Image} {name : Name} {ordinal : Nat}

/-- The function of an exported name. -/
theorem getElem_of_mem (h : directory.WellFormed) (hmem : (name, ordinal) ∈ directory.names) :
    directory.functions[ordinal]? = some .null ∨
      ∃ address, directory.functions[ordinal]? = some (.address address) := by
  have hlt := h.ordinals name ordinal hmem
  rw [List.getElem?_eq_getElem hlt]
  have hfunction := List.getElem_mem hlt
  cases hfound : directory.functions[ordinal] with
  | null => exact .inl rfl
  | address a => exact .inr ⟨a, rfl⟩
  | forwarder text =>
    rw [hfound] at hfunction
    exact absurd hfunction (h.noForwarders text)

/-- By name, the function at the ordinal of the name. -/
theorem lookup_name (h : directory.WellFormed) (hexports : image.exports = some directory)
    (hshort : name.length ≤ 62) (hmem : (name, ordinal) ∈ directory.names) :
    image.lookup (some name) 0 =
      exportAddress (directory.functionAt ordinal .procedureNotFound) := by
  unfold Image.lookup
  rw [Image.findExport_name hexports hshort]
  dsimp only
  rw [h.nameToOrdinal_of_mem hmem, if_neg (Nat.not_le.mpr (h.ordinals name ordinal hmem))]

/-- By number, the same function, when the number is not 0 and has 16 bits. -/
theorem lookup_number (h : directory.WellFormed) (hexports : image.exports = some directory)
    (hlt : ordinal < directory.functions.length) (hpos : 0 < directory.base + ordinal)
    (hushort : directory.base + ordinal < 2 ^ 16) :
    image.lookup none ((directory.base + ordinal) % 2 ^ 32) =
      exportAddress (directory.functionAt ordinal .ordinalNotFound) := by
  have hfunctions := h.functions
  have hnumber : (directory.base + ordinal) % 2 ^ 32 = directory.base + ordinal :=
    Nat.mod_eq_of_lt (by omega)
  have hordinal : (directory.base + ordinal) % 2 ^ 16 = directory.base + ordinal :=
    Nat.mod_eq_of_lt hushort
  have hcount : (directory.base + directory.functions.length) % 2 ^ 32 =
      directory.base + directory.functions.length := Nat.mod_eq_of_lt (by omega)
  unfold Image.lookup Image.findExport
  rw [hexports]
  dsimp only
  rw [hnumber, hordinal, hcount, if_pos (Nat.ne_of_gt hpos), if_neg (by omega),
    Nat.add_sub_cancel_left]

/-- A number that leads to an address is not 0 and has 16 bits. -/
theorem number_bounds (h : directory.WellFormed) (hexports : image.exports = some directory)
    (hmem : (name, ordinal) ∈ directory.names) {address : Nat}
    (hlookup : image.lookup none ((directory.base + ordinal) % 2 ^ 32) = .ok address) :
    0 < directory.base + ordinal ∧ directory.base + ordinal < 2 ^ 16 := by
  have hushort := h.ushort name ordinal hmem
  unfold Image.lookup Image.findExport at hlookup
  rw [hexports] at hlookup
  dsimp only at hlookup
  split at hlookup
  · split at hlookup
    · cases hlookup
    · rename_i hnumber hrange
      constructor <;> omega
  · cases hlookup

/-- A name that is not exported, in a directory where no function has the index 65535. -/
theorem lookup_absent (h : directory.WellFormed) (hexports : image.exports = some directory)
    (hshort : name.length ≤ 62) (habsent : ∀ ordinal, (name, ordinal) ∉ directory.names) :
    image.lookup (some name) 0 = .error .procedureNotFound ↔
      ∀ address, directory.functions[notFound]? ≠ some (.address address) := by
  unfold Image.lookup
  rw [Image.findExport_name hexports hshort]
  dsimp only
  rw [h.nameToOrdinal_of_absent habsent]
  split
  · rename_i hlength
    refine iff_of_true rfl fun address haddress => ?_
    rw [List.getElem?_eq_none hlength] at haddress
    cases haddress
  · rename_i hlength
    have hlt := Nat.lt_of_not_le hlength
    have hfunction := List.getElem_mem hlt
    unfold ExportDirectory.functionAt
    rw [List.getElem?_eq_getElem hlt]
    cases hfound : directory.functions[notFound] with
    | null => exact iff_of_true rfl fun address haddress => by cases haddress
    | address a => exact iff_of_false nofun fun hall => hall a rfl
    | forwarder text =>
      rw [hfound] at hfunction
      exact absurd hfunction (h.noForwarders text)

/-- In the tables of the image, the two lookups agree exactly under the condition. -/
theorem agree_iff (h : directory.WellFormed) (hexports : image.exports = some directory)
    (name : Name) : Agree directory name image.lookup ↔ Reliable directory name := by
  by_cases hshort : name.length ≤ 62
  case neg =>
    -- no lookup of a long name succeeds, nor does it say that the name is not exported
    have hlong : image.lookup (some name) 0 = .error .invalidParameter := by
      unfold Image.lookup
      rw [Image.findExport_long hexports (Nat.lt_of_not_le hshort)]
      rfl
    refine iff_of_false (fun hagree => ?_) (fun hreliable => hshort hreliable.short)
    by_cases habsent : ∀ ordinal, (name, ordinal) ∉ directory.names
    · cases hlong.symm.trans (hagree.absent habsent)
    · obtain ⟨ordinal, hmem⟩ := not_forall_not.mp habsent
      obtain ⟨address, hname, -⟩ := hagree.exported ordinal hmem
      cases hlong.symm.trans hname
  case pos =>
    constructor
    · intro hagree
      refine ⟨hshort, fun ordinal hmem => ?_, fun habsent => ?_⟩
      · obtain ⟨address, hname, hnumber⟩ := hagree.exported ordinal hmem
        obtain ⟨hpos, hushort⟩ := h.number_bounds hexports hmem hnumber
        refine ⟨hpos, hushort, fun hnull => ?_⟩
        rw [h.lookup_name hexports hshort hmem] at hname
        unfold ExportDirectory.functionAt at hname
        rw [hnull] at hname
        cases hname
      · exact (h.lookup_absent hexports hshort habsent).mp (hagree.absent habsent)
    · intro hreliable
      refine ⟨fun ordinal hmem => ?_, fun habsent => ?_⟩
      · obtain ⟨hpos, hushort, hnull⟩ := hreliable.exported ordinal hmem
        rcases h.getElem_of_mem hmem with hnull' | ⟨address, haddress⟩
        · exact absurd hnull' hnull
        · refine ⟨address, ?_, ?_⟩
          · rw [h.lookup_name hexports hshort hmem, Image.functionAt_of_getElem haddress nofun]
            rfl
          · rw [h.lookup_number hexports (h.ordinals name ordinal hmem) hpos hushort,
              Image.functionAt_of_getElem haddress nofun]
            rfl
      · exact (h.lookup_absent hexports hshort habsent).mpr (hreliable.absent habsent)

end ExportDirectory.WellFormed

/-! ## LdkGetProcedureAddress -/

section Lookups

variable {env : Env} {s : State} {image : Image} {directory : ExportDirectory} {handle : Handle}

/-- Of an image without forwarders, `LdkGetProcedureAddress` gives what is found in its tables,
and calls nothing. -/
theorem getProcedureAddress_eq (himage : env.ImageAt s image handle)
    (hexports : image.exports = some directory) (hformed : directory.WellFormed) (calls : Calls)
    (procedureName : Option Name) (procedureNumber : Nat) :
    (env.getProcedureAddress calls handle procedureName procedureNumber) s =
      some (image.lookup procedureName procedureNumber, s) := by
  have hbody : (env.getImageProcedureAddress calls image procedureName procedureNumber) s =
      some (image.lookup procedureName procedureNumber, s) := by
    unfold Env.getImageProcedureAddress Image.lookup
    cases hfound : image.findExport procedureName procedureNumber with
    | error status => rfl
    | ok found =>
      cases found with
      | null | address => rfl
      | forwarder text =>
        exact absurd (Image.findExport_mem hexports hfound) (hformed.noForwarders text)
  cases handle with
  | imageBase =>
    obtain rfl : image = env.image := himage
    exact hbody
  | module id =>
    obtain ⟨m, hget, hm⟩ := himage
    unfold Env.getProcedureAddress
    change Command.bind (Command.read (State.get · id)) _ s = _
    simp only [Command.bind, Command.read, hget, hm]
    exact hbody

/-- In every state of the loader, for every image with a well-formed directory and every name: the
lookups by name and by ordinal return, on a stack of any depth, and agree exactly under the
condition. -/
theorem lookups_agree (env : Env) (depth : Nat) (s : State) (handle : Handle) (image : Image)
    (directory : ExportDirectory) (name : Name) (himage : env.ImageAt s image handle)
    (hexports : image.exports = some directory) (hformed : directory.WellFormed) :
    ∃ lookup : Option Name → Nat → Except NtStatus Nat,
      (∀ procedureName procedureNumber,
        ((env.calls (depth + 1)).getProcedureAddress handle procedureName procedureNumber) s =
          some (lookup procedureName procedureNumber, s)) ∧
      (Agree directory name lookup ↔ Reliable directory name) :=
  ⟨image.lookup, getProcedureAddress_eq himage hexports hformed (env.calls depth),
    hformed.agree_iff hexports name⟩

end Lookups

/-! ## A directory of 65536 functions -/

/-- A process whose own image has the export directory; nothing else can be loaded. -/
def exporting (directory : ExportDirectory) : Env where
  outcome _ := false
  searchPath _ _ := none
  ntPathName _ := none
  readFile _ _ := .error .notFound
  computeDllPath _ := .error .notFound
  charToInteger _ := .error .invalidParameter
  dllPath := []
  imagePathName := []
  image := ⟨[], none, some directory, none, true⟩

/-- One function, `f`. -/
def oneFunction : ExportDirectory := ⟨1, [.address 4096], [(['f'], 0)]⟩

theorem oneFunction_wellFormed : oneFunction.WellFormed where
  sorted := List.pairwise_singleton _ _
  ordinals name ordinal h := by
    obtain ⟨-, rfl⟩ := Prod.mk.inj (List.mem_singleton.mp h)
    decide
  noForwarders text h := nomatch List.mem_singleton.mp h
  ushort name ordinal h := by
    obtain ⟨-, rfl⟩ := Prod.mk.inj (List.mem_singleton.mp h)
    decide
  functions := by decide
  base := by decide

theorem oneFunction_agrees :
    ∃ lookup : Option Name → Nat → Except NtStatus Nat,
      (∀ procedureName procedureNumber,
        (((exporting oneFunction).calls 1).getProcedureAddress .imageBase procedureName
          procedureNumber) (.initial []) =
            some (lookup procedureName procedureNumber, .initial [])) ∧
      (Agree oneFunction ['f'] lookup ↔ Reliable oneFunction ['f']) :=
  lookups_agree (exporting oneFunction) 0 (.initial []) .imageBase (exporting oneFunction).image
    oneFunction ['f'] rfl rfl oneFunction_wellFormed

/-- Functions without names. -/
def functionsOnly (count : Nat) : ExportDirectory :=
  ⟨1, List.replicate count (.address 4096), []⟩

theorem functionsOnly_wellFormed {count : Nat} (hcount : 4 * count ≤ 2 ^ 32) :
    (functionsOnly count).WellFormed where
  sorted := List.Pairwise.nil
  ordinals name ordinal h := absurd h List.not_mem_nil
  noForwarders text h := nomatch List.eq_of_mem_replicate h
  ushort name ordinal h := absurd h List.not_mem_nil
  functions := by
    change 4 * (List.replicate count _).length ≤ _
    rw [List.length_replicate]
    exact hcount
  base := by
    change 1 < 2 ^ 32
    decide

/-- With as many functions as an index can tell apart, every name seems to be exported. -/
theorem functionsOnly_not_reliable {count : Nat} (hcount : notFound < count) (name : Name) :
    ¬ Reliable (functionsOnly count) name := by
  intro hreliable
  apply hreliable.absent (fun ordinal => List.not_mem_nil) 4096
  change (List.replicate count _)[notFound]? = _
  rw [List.getElem?_replicate, if_pos hcount]

/-- Without the condition the lookups of a process do not agree. -/
theorem not_agree {directory : ExportDirectory} {name : Name} (hformed : directory.WellFormed)
    (hnot : ¬ Reliable directory name) :
    ¬ ∃ lookup : Option Name → Nat → Except NtStatus Nat,
      (∀ procedureName procedureNumber,
        (((exporting directory).calls 1).getProcedureAddress .imageBase procedureName
          procedureNumber) (.initial []) =
            some (lookup procedureName procedureNumber, .initial [])) ∧
      Agree directory name lookup := by
  rintro ⟨lookup, hlookup, hagree⟩
  have hsame : lookup = (exporting directory).image.lookup := by
    funext procedureName procedureNumber
    have heq := @getProcedureAddress_eq (exporting directory) (.initial []) _ directory .imageBase
      rfl rfl hformed ((exporting directory).calls 0) procedureName
      procedureNumber
    exact (Prod.mk.inj (Option.some.inj ((hlookup procedureName procedureNumber).symm.trans heq))).1
  rw [hsame] at hagree
  exact hnot ((hformed.agree_iff rfl name).mp hagree)

/-- No name is exported, and every short name is found. -/
theorem absent_name_is_found :
    ¬ ∀ (env : Env) (depth : Nat) (s : State) (handle : Handle) (image : Image)
      (directory : ExportDirectory) (name : Name), env.ImageAt s image handle →
      image.exports = some directory → directory.WellFormed →
        ∃ lookup : Option Name → Nat → Except NtStatus Nat,
          (∀ procedureName procedureNumber,
            ((env.calls (depth + 1)).getProcedureAddress handle procedureName procedureNumber) s =
              some (lookup procedureName procedureNumber, s)) ∧ Agree directory name lookup := by
  intro h
  have hformed := functionsOnly_wellFormed (show 4 * 65536 ≤ 2 ^ 32 by decide)
  apply not_agree hformed (functionsOnly_not_reliable (by decide) ['f'])
  exact h (exporting (functionsOnly 65536)) 0 (.initial []) .imageBase _ _ ['f'] rfl rfl hformed

end Ldk.Loader
