import Ldk.NtStatus

/-!
# Images

What the loader reads of an image in memory: the imports, the export directory and the TLS
directory, and the lookup of `LdkGetProcedureAddress` in the export directory.

- Fields that decide only what is written into the image (relocations, sections) are left out.
- A name in an image is a C string and never null.
-/

namespace Ldk.Loader

/-- The name of a module or a procedure, or a path. -/
abbrev Name := List Char

/-- `_stricmp(…) == 0` -/
def stricmp (a b : Name) : Bool := a.map Char.toLower == b.map Char.toLower

/-! ## Images -/

/-- An entry of an import table. -/
inductive Thunk where
  | ordinal (number : Nat)
  | name (name : Name)
  deriving DecidableEq, Repr

/-- `IMAGE_IMPORT_DESCRIPTOR` with its thunks. -/
structure ImportDescriptor where
  name : Name
  thunks : List Thunk
  deriving DecidableEq, Repr

/-- An entry of `AddressOfFunctions`. An address within the export directory is the text of a
forwarder. -/
inductive Export where
  | null
  | address (address : Nat)
  | forwarder (text : Name)
  deriving DecidableEq, Repr

/-- `IMAGE_EXPORT_DIRECTORY` -/
structure ExportDirectory where
  base : Nat
  functions : List Export
  /-- `AddressOfNames` with `AddressOfNameOrdinals`. -/
  names : List (Name × Nat)
  deriving DecidableEq, Repr

/-- `IMAGE_TLS_DIRECTORY` -/
structure TlsDirectory where
  startAddressOfRawData : Nat
  endAddressOfRawData : Nat
  addressOfIndex : Nat
  sizeOfZeroFill : Nat
  deriving DecidableEq, Repr

/-- What the loader reads of an image in memory. -/
structure Image where
  imports : List ImportDescriptor
  /-- The module names of the bound import directory, if there is one. -/
  boundImports : Option (List Name)
  exports : Option ExportDirectory
  tls : Option TlsDirectory
  /-- `AddressOfEntryPoint` is not zero. -/
  hasEntryPoint : Bool
  deriving DecidableEq, Repr

/-! ## Exports -/

/-- `strcmp` -/
def strcmp : Name → Name → Ordering
  | [], [] => .eq
  | [], _ :: _ => .lt
  | _ :: _, [] => .gt
  | a :: as, b :: bs => (compare a.toNat b.toNat).then (strcmp as bs)

/-- `LdkpNameToOrdinal`, which halves the table with each call. -/
def nameToOrdinal (nameOfEntryPoint : Name) : Nat → List (Name × Nat) → Nat
  | 0, _ => 65535
  | n + 1, names =>
    let splitIndex := names.length / 2
    match names[splitIndex]? with
    | none => 65535
    | some (name, ordinal) =>
      match strcmp nameOfEntryPoint name with
      | .eq => ordinal
      | .lt =>
        if names.length = 1 then 65535
        else nameToOrdinal nameOfEntryPoint n (names.take splitIndex)
      | .gt =>
        if names.length = 1 then 65535
        else nameToOrdinal nameOfEntryPoint n (names.drop (splitIndex + 1))

/-- The entry of `AddressOfFunctions`, or the status for one that is zero. -/
def ExportDirectory.functionAt (directory : ExportDirectory) (ordinal : Nat) (missing : NtStatus) :
    Except NtStatus Export :=
  match directory.functions[ordinal]? with
  | none => .error missing
  | some .null => .error missing
  | some found => .ok found

/-- The lookup of `LdkGetProcedureAddress` in the export directory. -/
def Image.findExport (image : Image) (procedureName : Option Name) (procedureNumber : Nat) :
    Except NtStatus Export :=
  match image.exports with
  | none => .error .invalidParameter
  | some directory =>
    if procedureNumber ≠ 0 then
      let exportOrdinal := procedureNumber % 2 ^ 16
      if exportOrdinal < directory.base ∨
          (directory.base + directory.functions.length) % 2 ^ 32 ≤ exportOrdinal then
        .error .ordinalNotFound
      else directory.functionAt (exportOrdinal - directory.base) .ordinalNotFound
    else
      match procedureName with
      | none => .error .invalidParameter
      | some name =>
        if name.length > 62 then .error .invalidParameter
        else
          let ordinal := nameToOrdinal name directory.names.length directory.names
          if ordinal ≥ directory.functions.length then .error .procedureNotFound
          else directory.functionAt ordinal .procedureNotFound

/-! ## Static TLS -/

/-- `MAXULONG` -/
def maxULong : Nat := 4294967295

/-- The checks of `LdkpInitializeModuleTls` on the TLS directory. -/
def TlsDirectory.valid (directory : TlsDirectory) : Bool :=
  directory.addressOfIndex != 0 &&
    directory.startAddressOfRawData ≤ directory.endAddressOfRawData &&
    directory.endAddressOfRawData - directory.startAddressOfRawData ≤ maxULong &&
    directory.sizeOfZeroFill ≤
      maxULong - (directory.endAddressOfRawData - directory.startAddressOfRawData)

end Ldk.Loader
