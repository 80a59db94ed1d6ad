import Ldk.Lib.Records

/-!
# The processor information

`GetLogicalProcessorInformationEx` and `GetLogicalProcessorInformation` of `sysinfoapi.c`, for 64
bits. What the kernel answers is a topology, which stays the same during a call.

- The length is computed first, from the number of groups and from the bits of their masks.
- The buffer is cleared as far as that, and then one entry is appended after another. The image of
  an entry is the list of its bytes.
- The loops over groups and bits are folds over the numbers below a count.
- A write outside the buffer is a fault.
-/

namespace Ldk.SystemInfo

open OutputBuffer Records

/-! ## The topology -/

/-- `KAFFINITY` -/
abbrev KAffinity := BitVec 64

/-- `LDK_AFFINITY_BITS` -/
def ldkAffinityBits : Nat := 64

/-- What the kernel answers. -/
structure Topology where
  /-- `KeQueryActiveGroupCount` -/
  activeGroupCount : Nat
  /-- `KeQueryMaximumGroupCount` -/
  maximumGroupCount : Nat
  /-- `KeQueryGroupAffinity` -/
  groupAffinity : Nat → KAffinity
  /-- `KeQueryActiveProcessorCountEx` -/
  activeProcessorCount : Nat → Nat
  /-- `KeQueryMaximumProcessorCountEx` -/
  maximumProcessorCount : Nat → Nat
  /-- `ActiveProcessorsAffinityMask` of the basic information, if the query succeeds. -/
  basicMask : Option KAffinity
  /-- The number of groups is a `USHORT`. -/
  activeGroupCount_lt : activeGroupCount < 2 ^ 16
  maximumGroupCount_lt : maximumGroupCount < 2 ^ 16

/-- The conversion to `DWORD`. -/
def toDword (n : Nat) : Nat := n % 2 ^ 32

/-- `LdkpBuildProcessorMaskFromCount` -/
def ldkpBuildProcessorMaskFromCount (processorCount : Nat) : KAffinity :=
  if processorCount = 0 then 0
  else if ldkAffinityBits ≤ processorCount then BitVec.allOnes 64
  else (1#64 <<< processorCount) - 1

/-- The loop over a mask; a round for each bit is enough. -/
def countBits : Nat → Nat → Nat
  | 0, _ => 0
  | rounds + 1, mask => if mask = 0 then 0 else mask % 2 + countBits rounds (mask / 2)

/-- `LdkpCountProcessorsInMask` -/
def ldkpCountProcessorsInMask (mask : KAffinity) : Nat := countBits ldkAffinityBits mask.toNat

variable (t : Topology)

/-- `LdkpQueryActiveProcessorGroupCount` -/
def ldkpQueryActiveProcessorGroupCount : Nat :=
  if t.activeGroupCount ≠ 0 then t.activeGroupCount else 1

/-- `LdkpQueryActiveProcessorMask` -/
def ldkpQueryActiveProcessorMask (groupNumber : Nat) : KAffinity :=
  if ldkpQueryActiveProcessorGroupCount t ≤ groupNumber then 0
  else if t.groupAffinity groupNumber ≠ 0 then t.groupAffinity groupNumber
  else
    let mask := ldkpBuildProcessorMaskFromCount (t.activeProcessorCount groupNumber)
    if mask ≠ 0 then mask
    else if groupNumber = 0 then
      match t.basicMask with
      | some basicMask => if basicMask ≠ 0 then basicMask else 1
      | none => 1
    else 0

/-- `LdkpQueryActiveProcessorCountInGroup` -/
def ldkpQueryActiveProcessorCountInGroup (groupNumber : Nat) : Nat :=
  let processorCount :=
    if t.activeProcessorCount groupNumber = 0 then
      ldkpCountProcessorsInMask (ldkpQueryActiveProcessorMask t groupNumber)
    else t.activeProcessorCount groupNumber
  if processorCount ≠ 0 then processorCount else 1

/-- `LdkpQueryMaximumProcessorCountInGroup` -/
def ldkpQueryMaximumProcessorCountInGroup (groupNumber : Nat) : Nat :=
  if t.maximumProcessorCount groupNumber = 0 then
    ldkpQueryActiveProcessorCountInGroup t groupNumber
  else t.maximumProcessorCount groupNumber

/-- `LdkpQueryLogicalProcessorCount` -/
def ldkpQueryLogicalProcessorCount : Nat :=
  let processorCount :=
    (List.range (ldkpQueryActiveProcessorGroupCount t)).foldl (fun processorCount groupIndex =>
      toDword (processorCount +
        ldkpCountProcessorsInMask (ldkpQueryActiveProcessorMask t groupIndex))) 0
  if processorCount ≠ 0 then processorCount else 1

/-! ## The lengths -/

/-- `LOGICAL_PROCESSOR_RELATIONSHIP` -/
inductive Relationship where
  | processorCore
  | numaNode
  | cache
  | processorPackage
  | group
  | processorDie
  | numaNodeEx
  | processorModule
  | all
  /-- A value that is none of these. -/
  | other
  deriving DecidableEq, Repr

/-- `LdkpIsSupportedProcessorRelationshipType` -/
def ldkpIsSupportedProcessorRelationshipType (relationshipType : Relationship) : Bool :=
  relationshipType != .other

/-- The bytes of a record before its groups, and of a `GROUP_AFFINITY` and a
`PROCESSOR_GROUP_INFO`. -/
def headerSize : Nat := 32

def groupAffinitySize : Nat := 16

def processorGroupInfoSize : Nat := 48

/-- `LdkpProcessorRelationshipSize` -/
def ldkpProcessorRelationshipSize (groupCount : Nat) : Nat :=
  toDword (headerSize + groupCount * groupAffinitySize)

/-- `LdkpNumaNodeRelationshipSize` -/
def ldkpNumaNodeRelationshipSize (groupCount : Nat) : Nat :=
  toDword (headerSize + groupCount * groupAffinitySize)

/-- `LdkpGroupRelationshipSize` -/
def ldkpGroupRelationshipSize (groupCount : Nat) : Nat :=
  toDword (headerSize + groupCount * processorGroupInfoSize)

/-- `LdkpQueryLogicalProcessorInformationExLength` -/
def ldkpQueryLogicalProcessorInformationExLength (relationshipType : Relationship) : Nat :=
  let groupCount := ldkpQueryActiveProcessorGroupCount t
  let processorCount := ldkpQueryLogicalProcessorCount t
  match relationshipType with
  | .processorCore => toDword (processorCount * ldkpProcessorRelationshipSize 1)
  | .numaNode | .numaNodeEx => ldkpNumaNodeRelationshipSize groupCount
  | .processorPackage => ldkpProcessorRelationshipSize groupCount
  | .group => ldkpGroupRelationshipSize groupCount
  | .all =>
    toDword (ldkpGroupRelationshipSize groupCount + ldkpNumaNodeRelationshipSize groupCount +
      ldkpProcessorRelationshipSize groupCount + processorCount * ldkpProcessorRelationshipSize 1)
  | .cache | .processorDie | .processorModule | .other => 0

/-- `sizeof(SYSTEM_LOGICAL_PROCESSOR_INFORMATION)` -/
def legacySize : Nat := 32

/-- `LdkpQueryLegacyLogicalProcessorInformationLength` -/
def ldkpQueryLegacyLogicalProcessorInformationLength : Nat :=
  let processorCount := ldkpCountProcessorsInMask (ldkpQueryActiveProcessorMask t 0)
  let processorCount := if processorCount = 0 then 1 else processorCount
  toDword ((processorCount + 2) * legacySize)

/-! ## The entries -/

/-- `GROUP_AFFINITY` -/
structure GroupAffinity where
  mask : KAffinity
  group : Nat
  deriving DecidableEq, Repr

def GroupAffinity.image (x : GroupAffinity) : List UInt8 :=
  littleEndian 8 x.mask.toNat ++ littleEndian 2 x.group ++ List.replicate 6 0

/-- `PROCESSOR_GROUP_INFO` -/
structure ProcessorGroupInfo where
  maximumProcessorCount : Nat
  activeProcessorCount : Nat
  activeProcessorMask : KAffinity
  deriving DecidableEq, Repr

def ProcessorGroupInfo.image (x : ProcessorGroupInfo) : List UInt8 :=
  littleEndian 1 x.maximumProcessorCount ++ littleEndian 1 x.activeProcessorCount ++
    List.replicate 38 0 ++ littleEndian 8 x.activeProcessorMask.toNat

/-- The value of a relationship. -/
def Relationship.value : Relationship → Nat
  | .processorCore => 0
  | .numaNode => 1
  | .cache => 2
  | .processorPackage => 3
  | .group => 4
  | .processorDie => 5
  | .numaNodeEx => 6
  | .processorModule => 7
  | .all => 0xffff
  | .other => 8

/-- `Relationship` and `Size` of an entry, and the bytes behind them. -/
def entryImage (relationship : Relationship) (size : Nat) (body : List UInt8) : List UInt8 :=
  littleEndian 4 relationship.value ++ (littleEndian 4 size ++ body)

/-- `PROCESSOR_RELATIONSHIP`, with `Flags`, `EfficiencyClass` and `Reserved` zero. -/
def processorImage (relationship : Relationship) (groupMasks : List GroupAffinity) : List UInt8 :=
  entryImage relationship (ldkpProcessorRelationshipSize groupMasks.length)
    (List.replicate 22 0 ++
      (littleEndian 2 groupMasks.length ++ groupMasks.flatMap GroupAffinity.image))

/-- `NUMA_NODE_RELATIONSHIP`, with `Reserved` zero. -/
def numaNodeImage (relationship : Relationship) (nodeNumber : Nat)
    (groupMasks : List GroupAffinity) : List UInt8 :=
  entryImage relationship (ldkpNumaNodeRelationshipSize groupMasks.length)
    (littleEndian 4 nodeNumber ++ List.replicate 18 0 ++
      (littleEndian 2 groupMasks.length ++ groupMasks.flatMap GroupAffinity.image))

/-- `GROUP_RELATIONSHIP`, with `Reserved` zero. -/
def groupImage (maximumGroupCount : Nat) (groupInfo : List ProcessorGroupInfo) : List UInt8 :=
  entryImage .group (ldkpGroupRelationshipSize groupInfo.length)
    (littleEndian 2 maximumGroupCount ++
      (littleEndian 2 groupInfo.length ++ (List.replicate 20 0 ++
        groupInfo.flatMap ProcessorGroupInfo.image)))

/-- `SYSTEM_LOGICAL_PROCESSOR_INFORMATION`; the union is zero in all entries. -/
def legacyImage (relationship : Relationship) (mask : KAffinity) : List UInt8 :=
  littleEndian 8 mask.toNat ++ (littleEndian 4 relationship.value ++ List.replicate 20 0)

/-! ## The appenders -/

/-- The buffer and `Cursor`. -/
structure Output where
  buffer : List UInt8
  cursor : Nat
  deriving DecidableEq, Repr

/-- An entry is cleared and written. -/
def Output.append (o : Output) (image : List UInt8) (size : Nat) : Except Outside Output := do
  let buffer ← put o.buffer o.cursor image
  return ⟨buffer, o.cursor + size⟩

/-- `LdkpFillGroupAffinity` with the active mask, for each of the groups. -/
def activeGroupMasks (groupCount : Nat) : List GroupAffinity :=
  (List.range groupCount).map fun groupIndex =>
    ⟨ldkpQueryActiveProcessorMask t groupIndex, groupIndex⟩

/-- `LdkpAppendProcessorRelationship` -/
def ldkpAppendProcessorRelationship (o : Output) (relationship : Relationship) (groupCount : Nat)
    (groupMasks : Option (List GroupAffinity)) : Except Outside Output :=
  o.append (processorImage relationship (groupMasks.getD (activeGroupMasks t groupCount)))
    (ldkpProcessorRelationshipSize groupCount)

/-- `LdkpAppendNumaNodeRelationship` -/
def ldkpAppendNumaNodeRelationship (o : Output) (relationship : Relationship) (groupCount : Nat) :
    Except Outside Output :=
  o.append (numaNodeImage relationship 0 (activeGroupMasks t groupCount))
    (ldkpNumaNodeRelationshipSize groupCount)

/-- `MAXUCHAR` -/
def maxUChar : Nat := 255

/-- `GroupInfo[GroupIndex]` -/
def processorGroupInfo (groupIndex : Nat) : ProcessorGroupInfo where
  maximumProcessorCount := min (ldkpQueryMaximumProcessorCountInGroup t groupIndex) maxUChar
  activeProcessorCount := min (ldkpQueryActiveProcessorCountInGroup t groupIndex) maxUChar
  activeProcessorMask := ldkpQueryActiveProcessorMask t groupIndex

/-- `LdkpAppendGroupRelationship` -/
def ldkpAppendGroupRelationship (o : Output) (groupCount : Nat) : Except Outside Output :=
  let maximumGroupCount := if t.maximumGroupCount ≠ 0 then t.maximumGroupCount else groupCount
  o.append (groupImage maximumGroupCount ((List.range groupCount).map (processorGroupInfo t)))
    (ldkpGroupRelationshipSize groupCount)

/-- A round of the loop over the bits of a mask. -/
def appendCore (groupIndex : Nat) (mask : KAffinity) (o : Output) (bitIndex : Nat) :
    Except Outside Output :=
  let processorMask : KAffinity := 1#64 <<< bitIndex
  if mask &&& processorMask = 0 then .ok o
  else ldkpAppendProcessorRelationship t o .processorCore 1 (some [⟨processorMask, groupIndex⟩])

/-- `LdkpAppendProcessorCoreRelationships` -/
def ldkpAppendProcessorCoreRelationships (o : Output) : Except Outside Output :=
  (List.range (ldkpQueryActiveProcessorGroupCount t)).foldlM (fun o groupIndex =>
    (List.range ldkAffinityBits).foldlM
      (appendCore t groupIndex (ldkpQueryActiveProcessorMask t groupIndex)) o) o

/-- `RtlZeroMemory` from the start of the buffer. -/
def zeroed (buffer : List UInt8) (length : Nat) : Except Outside Output := do
  let buffer ← put buffer 0 (List.replicate length 0)
  return ⟨buffer, 0⟩

/-- `LdkpFillLogicalProcessorInformationEx` -/
def ldkpFillLogicalProcessorInformationEx (relationshipType : Relationship) (buffer : List UInt8)
    (length : Nat) : Except Outside (List UInt8) := do
  let groupCount := ldkpQueryActiveProcessorGroupCount t
  let o ← zeroed buffer length
  let o ← (if relationshipType = .all ∨ relationshipType = .group then
      ldkpAppendGroupRelationship t o groupCount
    else .ok o)
  let o ← (if relationshipType = .all ∨ relationshipType = .numaNode then
      ldkpAppendNumaNodeRelationship t o .numaNode groupCount
    else if relationshipType = .numaNodeEx then
      ldkpAppendNumaNodeRelationship t o .numaNodeEx groupCount
    else .ok o)
  let o ← (if relationshipType = .all ∨ relationshipType = .processorPackage then
      ldkpAppendProcessorRelationship t o .processorPackage groupCount none
    else .ok o)
  let o ← (if relationshipType = .all ∨ relationshipType = .processorCore then
      ldkpAppendProcessorCoreRelationships t o
    else .ok o)
  return o.buffer

/-- A round of the loop over the bits of the mask. -/
def appendLegacyCore (mask : KAffinity) (o : Output) (bitIndex : Nat) : Except Outside Output :=
  let processorMask : KAffinity := 1#64 <<< bitIndex
  if mask &&& processorMask = 0 then .ok o
  else o.append (legacyImage .processorCore processorMask) legacySize

/-- `LdkpFillLogicalProcessorInformation` -/
def ldkpFillLogicalProcessorInformation (buffer : List UInt8) (length : Nat) :
    Except Outside (List UInt8) := do
  let mask := ldkpQueryActiveProcessorMask t 0
  let o ← zeroed buffer length
  let o ← o.append (legacyImage .numaNode mask) legacySize
  let o ← o.append (legacyImage .processorPackage mask) legacySize
  let o ← (List.range ldkAffinityBits).foldlM (appendLegacyCore mask) o
  return o.buffer

/-! ## The routines -/

def errorInvalidParameter : Nat := 87

def errorInsufficientBuffer : Nat := 122

/-- What a routine returns, leaves in `*ReturnedLength` and in the buffer, and the last error. -/
structure Answer where
  success : Bool
  returnedLength : Option Nat
  buffer : Option (List UInt8)
  lastError : Option Nat
  deriving DecidableEq, Repr

/-- `GetLogicalProcessorInformationEx` -/
def getLogicalProcessorInformationEx (relationshipType : Relationship)
    (buffer : Option (List UInt8)) (returnedLength : Option Nat) : Except Outside Answer :=
  match returnedLength with
  | none => .ok ⟨false, none, buffer, some errorInvalidParameter⟩
  | some length =>
    if ldkpIsSupportedProcessorRelationshipType relationshipType = false then
      .ok ⟨false, some length, buffer, some errorInvalidParameter⟩
    else
      let requiredLength := ldkpQueryLogicalProcessorInformationExLength t relationshipType
      if requiredLength = 0 then .ok ⟨true, some 0, buffer, none⟩
      else
        match buffer with
        | none => .ok ⟨false, some requiredLength, none, some errorInsufficientBuffer⟩
        | some block =>
          if length < requiredLength then
            .ok ⟨false, some requiredLength, buffer, some errorInsufficientBuffer⟩
          else do
            let block ←
              ldkpFillLogicalProcessorInformationEx t relationshipType block requiredLength
            return ⟨true, some requiredLength, some block, none⟩

/-- `GetLogicalProcessorInformation` -/
def getLogicalProcessorInformation (buffer : Option (List UInt8)) (returnedLength : Option Nat) :
    Except Outside Answer :=
  match returnedLength with
  | none => .ok ⟨false, none, buffer, some errorInvalidParameter⟩
  | some length =>
    let requiredLength := ldkpQueryLegacyLogicalProcessorInformationLength t
    match buffer with
    | none => .ok ⟨false, some requiredLength, none, some errorInsufficientBuffer⟩
    | some block =>
      if length < requiredLength then
        .ok ⟨false, some requiredLength, buffer, some errorInsufficientBuffer⟩
      else do
        let block ← ldkpFillLogicalProcessorInformation t block requiredLength
        return ⟨true, some requiredLength, some block, none⟩

end Ldk.SystemInfo
