import CrashLog.Cper.Fields

/-!
# The CPER record header

`cper/header.rs`: the 128-byte record header of UEFI 2.10 N.2.1. Three of its
fields are optional; bit 0, 1 and 2 of `validation_bits` say whether the
platform id, the timestamp and the partition id are present, and `to_bytes`
writes zeros in place of an absent one.

`from_slice` trusts `validation_bits`, and `normalize` recomputes them from
the fields. So a header read back from its own bytes is the header again once
it has been normalized (`fromSlice_toBytes`), and then the bits say exactly
which fields are present (`normalize_validationBits`).
-/

namespace CrashLog

/-- `RECORD_HEADER_SIZE`. -/
def recordHeaderSize : Nat := 128

/-- `LCF_GUID`, eba67344-b876-4237-b80d-27e1297fa2ff, the default creator id. -/
def lcfGuid : Guid :=
  ⟨[0x44, 0x73, 0xa6, 0xeb, 0x76, 0xb8, 0x37, 0x42, 0xb8, 0x0d, 0x27, 0xe1, 0x29, 0x7f, 0xa2, 0xff],
    rfl⟩

/-- `notification_types::BOOT`, 3d61a466-ab40-409a-a698-f362d464b38f. -/
def notificationTypeBoot : Guid :=
  ⟨[0x66, 0xa4, 0x61, 0x3d, 0x40, 0xab, 0x9a, 0x40, 0xa6, 0x98, 0xf3, 0x62, 0xd4, 0x64, 0xb3, 0x8f],
    rfl⟩

/-- `b"CPER"`. -/
def cperSignature : List UInt8 := [0x43, 0x50, 0x45, 0x52]

/-- The `validation` bits of the record header. -/
def validationPlatformId : UInt32 := 1
def validationTimestamp : UInt32 := 2
def validationPartitionId : UInt32 := 4

/-- UEFI 2.10 N.2.1 Record Header. -/
structure CperHeader where
  revision : Revision
  sectionCount : UInt16
  errorSeverity : ErrorSeverity
  validationBits : UInt32
  recordLength : UInt32
  timestamp : Option Timestamp
  platformId : Option Guid
  partitionId : Option Guid
  creatorId : Guid
  notificationType : Guid
  recordId : UInt64
  flags : UInt32
  persistenceInformation : UInt64
  deriving DecidableEq, Repr

namespace CperHeader

def default : CperHeader where
  revision := Revision.new 1 1
  sectionCount := 0
  errorSeverity := .informational
  validationBits := 0
  recordLength := UInt32.ofNat recordHeaderSize
  timestamp := none
  platformId := none
  partitionId := none
  creatorId := lcfGuid
  notificationType := Guid.zero
  recordId := 0
  flags := 0
  persistenceInformation := 0

/-- `CperHeader::from_slice`, which returns `None` unless the slice starts with
`CPER` and `0xFFFFFFFF`. A revision other than 1.x is only logged. Each `?`
is a `let some .. | none`. -/
def fromSlice (s : List UInt8) : Option CperHeader := do
  let some signatureEnd := u32At s 6 | none
  guard (startsWith s cperSignature && signatureEnd == 0xFFFFFFFF)
  let some revisionBytes := getRange s 4 6 | none
  let some revision := Revision.fromSlice revisionBytes | none
  let some validationBits := u32At s 16 | none
  let some sectionCount := u16At s 10 | none
  let some errorSeverity := u32At s 12 | none
  let some recordLength := u32At s 20 | none
  let some timestamp := optionalField (validationBits &&& validationTimestamp != 0)
    ((getRange s 24 32).bind Timestamp.fromSlice) | none
  let some platformId :=
    optionalField (validationBits &&& validationPlatformId != 0) (guidAt s 32) | none
  let some partitionId :=
    optionalField (validationBits &&& validationPartitionId != 0) (guidAt s 48) | none
  let some creatorId := guidAt s 64 | none
  let some notificationType := guidAt s 80 | none
  let some recordId := u64At s 96 | none
  let some flags := u32At s 104 | none
  let some persistenceInformation := u64At s 108 | none
  some ⟨revision, sectionCount, Severity.ofU32 errorSeverity, validationBits, recordLength, timestamp,
    platformId, partitionId, creatorId, notificationType, recordId, flags, persistenceInformation⟩

/-- `CperHeader::normalize`: the validation bits of the fields present. -/
def normalize (h : CperHeader) : CperHeader :=
  let bits : UInt32 := 0
  let bits := if h.timestamp.isSome then bits ||| validationTimestamp else bits
  let bits := if h.platformId.isSome then bits ||| validationPlatformId else bits
  let bits := if h.partitionId.isSome then bits ||| validationPartitionId else bits
  { h with validationBits := bits }

/-- `CperHeader::to_bytes`: absent fields are written as zeros. -/
def toBytes (h : CperHeader) : List UInt8 :=
  cperSignature ++ h.revision.toBytes ++ [0xFF, 0xFF, 0xFF, 0xFF] ++ h.sectionCount.toLeBytes ++
    h.errorSeverity.toU32.toLeBytes ++ h.validationBits.toLeBytes ++ h.recordLength.toLeBytes ++
    (h.timestamp.getD Timestamp.default).toBytes ++ (h.platformId.getD Guid.zero).toList ++
    (h.partitionId.getD Guid.zero).toList ++ h.creatorId.toList ++ h.notificationType.toList ++
    h.recordId.toLeBytes ++ h.flags.toLeBytes ++ h.persistenceInformation.toLeBytes ++
    List.replicate 12 0

-- ---------------------------------------------------------------------------
-- Normalization
-- ---------------------------------------------------------------------------

section
variable (h : CperHeader)

@[simp] theorem normalize_revision : h.normalize.revision = h.revision := rfl
@[simp] theorem normalize_sectionCount : h.normalize.sectionCount = h.sectionCount := rfl
@[simp] theorem normalize_recordLength : h.normalize.recordLength = h.recordLength := rfl
@[simp] theorem normalize_timestamp : h.normalize.timestamp = h.timestamp := rfl
@[simp] theorem normalize_platformId : h.normalize.platformId = h.platformId := rfl
@[simp] theorem normalize_partitionId : h.normalize.partitionId = h.partitionId := rfl

theorem normalize_validationBits :
    (h.normalize.validationBits &&& validationTimestamp != 0) = h.timestamp.isSome ∧
      (h.normalize.validationBits &&& validationPlatformId != 0) = h.platformId.isSome ∧
      (h.normalize.validationBits &&& validationPartitionId != 0) = h.partitionId.isSome := by
  unfold normalize
  cases h.timestamp <;> cases h.platformId <;> cases h.partitionId <;>
    simp only [Option.isSome_none, Option.isSome_some, Bool.false_eq_true, if_true, if_false] <;>
    decide

theorem normalize_normalize : h.normalize.normalize = h.normalize := rfl

end

-- ---------------------------------------------------------------------------
-- The byte layout
-- ---------------------------------------------------------------------------

@[simp] theorem length_toBytes (h : CperHeader) : h.toBytes.length = recordHeaderSize := by
  simp [toBytes, cperSignature, recordHeaderSize]

theorem signatureEnd_eq : UInt32.ofNat (leNat [0xFF, 0xFF, 0xFF, 0xFF]) = 0xFFFFFFFF := by decide

theorem fromSlice_toBytes_eq (h : CperHeader) :
    fromSlice h.toBytes = some { h with
      timestamp := if h.validationBits &&& validationTimestamp != 0 then
        some (h.timestamp.getD Timestamp.default) else none
      platformId := if h.validationBits &&& validationPlatformId != 0 then
        some (h.platformId.getD Guid.zero) else none
      partitionId := if h.validationBits &&& validationPartitionId != 0 then
        some (h.partitionId.getD Guid.zero) else none } := by
  simp (disch := simp) only [fromSlice, toBytes, cperSignature, List.append_assoc, u32At, u16At,
    u64At, guidAt, bytesAt, getRange_append_of_ge, getRange_append_self, getRange_self,
    List.length_cons, List.length_nil, UInt32.length_toLeBytes, UInt16.length_toLeBytes,
    UInt64.length_toLeBytes, Revision.length_toBytes, Timestamp.length_toBytes,
    FixedBytes.length_toList, Nat.reduceAdd, Nat.reduceSub, Nat.zero_add, startsWith_append,
    Option.map_some', Option.some_bind, Option.bind_eq_bind, Option.pure_def, signatureEnd_eq,
    UInt32.ofNat_leNat_toLeBytes, UInt16.ofNat_leNat_toLeBytes, UInt64.ofNat_leNat_toLeBytes,
    Revision.fromSlice_toBytes, Timestamp.fromSlice_toBytes, FixedBytes.ofList?_toList,
    Severity.ofU32_toU32, Bool.true_and, beq_self_eq_true, guard, if_true, optionalField_some]

/-- A normalized header is read back from its bytes. -/
theorem fromSlice_toBytes (h : CperHeader) :
    fromSlice h.normalize.toBytes = some h.normalize := by
  obtain ⟨ht, hp, hq⟩ := normalize_validationBits h
  rw [fromSlice_toBytes_eq, ht, hp, hq]
  simp only [normalize_timestamp, normalize_platformId, normalize_partitionId, ite_isSome_getD]
  rfl

end CperHeader

end CrashLog
