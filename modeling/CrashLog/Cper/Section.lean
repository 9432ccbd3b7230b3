import CrashLog.Cper.Descriptor

/-!
# CPER section bodies

`cper/section.rs` and `cper/section/fer.rs`: a section body is a Firmware Error
Record (UEFI 2.10 N.2.10), recognised by its section type, or the raw bytes of
any other section.

The header of a Firmware Error Record is 16 bytes before revision 2 and 32 from
revision 2 on, where it carries a GUID; `len` and `from_slice` follow the
revision, but `FirmwareErrorRecordHeader::to_bytes` always writes the GUID. So
`to_bytes` writes `len` bytes exactly for the bodies of `headerExact`
(`length_toBytes_iff`), and a parsed body is read back from its bytes exactly
then (`fromSlice_toBytes_iff`). `fer_revision0_toBytes` is the failing case.
-/

namespace CrashLog

/-- `section::guids::FW_ERROR_RECORD`, 81212a96-09ed-4996-9471-8d729c8e69ed. -/
def fwErrorRecordGuid : Guid :=
  ⟨[0x96, 0x2a, 0x21, 0x81, 0xed, 0x09, 0x96, 0x49, 0x94, 0x71, 0x8d, 0x72, 0x9c, 0x8e, 0x69, 0xed],
    rfl⟩

/-- `fer::guids::RECORD_ID_CRASHLOG`, 8f87f311-c998-4d9e-a0c4-6065518c4f6d. -/
def recordIdCrashlogGuid : Guid :=
  ⟨[0x11, 0xf3, 0x87, 0x8f, 0x98, 0xc9, 0x9e, 0x4d, 0xa0, 0xc4, 0x60, 0x65, 0x51, 0x8c, 0x4f, 0x6d],
    rfl⟩

def headerRev1Size : Nat := 16
def headerRev2Size : Nat := 32

/-- UEFI 2.10 N.2.10 Firmware Error Record Reference header. -/
structure FirmwareErrorRecordHeader where
  errorType : UInt8
  revision : UInt8
  recordIdentifier : UInt64
  guid : Guid
  deriving DecidableEq, Repr

/-- UEFI 2.10 N.2.10 Firmware Error Record Reference. -/
structure FirmwareErrorRecord where
  header : FirmwareErrorRecordHeader
  payload : List UInt8
  deriving DecidableEq, Repr

namespace FirmwareErrorRecordHeader

def default : FirmwareErrorRecordHeader := ⟨0, 0, 0, Guid.zero⟩

/-- `FirmwareErrorRecordHeader::from_slice`: the GUID is read from revision 2 on. -/
def fromSlice (s : List UInt8) : Option FirmwareErrorRecordHeader := do
  let some revision := s[1]? | none
  let some errorType := s[0]? | none
  let some recordIdentifier := u64At s 8 | none
  let some guid := if revision ≥ 2 then guidAt s 16 else some Guid.zero | none
  some ⟨errorType, revision, recordIdentifier, guid⟩

/-- `FirmwareErrorRecordHeader::to_bytes`, which writes the GUID whatever the
revision. -/
def toBytes (h : FirmwareErrorRecordHeader) : List UInt8 :=
  [h.errorType] ++ [h.revision] ++ List.replicate 6 0 ++ h.recordIdentifier.toLeBytes ++
    h.guid.toList

/-- `FirmwareErrorRecordHeader::len`. -/
def len (h : FirmwareErrorRecordHeader) : Nat :=
  if h.revision ≥ 2 then headerRev2Size else headerRev1Size

@[simp] theorem length_toBytes (h : FirmwareErrorRecordHeader) : h.toBytes.length = 32 := by
  simp [toBytes]

end FirmwareErrorRecordHeader

namespace FirmwareErrorRecord

/-- `FirmwareErrorRecord::from_slice`: the payload is everything after `len`. -/
def fromSlice (s : List UInt8) : Option FirmwareErrorRecord := do
  let some header := FirmwareErrorRecordHeader.fromSlice s | none
  let some payload := getFrom s header.len | none
  some ⟨header, payload⟩

/-- `FirmwareErrorRecord::from_crashlog_region`. Modelled from the spec: `region.rs`
is not among the sources; a region enters only through `Region::to_bytes`, and the
argument is those bytes. -/
def fromCrashlogRegion (regionBytes : List UInt8) : FirmwareErrorRecord :=
  ⟨{ FirmwareErrorRecordHeader.default with
      errorType := 2, revision := 2, guid := recordIdCrashlogGuid }, regionBytes⟩

def toBytes (f : FirmwareErrorRecord) : List UInt8 := f.header.toBytes ++ f.payload

end FirmwareErrorRecord

/-- One of the CPER section bodies. -/
inductive CperSectionBody where
  | firmwareErrorRecord (fer : FirmwareErrorRecord)
  | unknown (guid : Guid) (data : List UInt8)
  deriving DecidableEq, Repr

namespace CperSectionBody

/-- `CperSectionBody::from_slice`: a Firmware Error Record under its GUID, raw
bytes under any other. -/
def fromSlice (guid : Guid) (s : List UInt8) : Option CperSectionBody :=
  if guid = fwErrorRecordGuid then (FirmwareErrorRecord.fromSlice s).map .firmwareErrorRecord
  else some (.unknown guid s)

def guid : CperSectionBody → Guid
  | .firmwareErrorRecord _ => fwErrorRecordGuid
  | .unknown guid _ => guid

/-- `CperSectionBody::len`, "the expected size of the section in bytes". -/
def len : CperSectionBody → Nat
  | .firmwareErrorRecord fer => fer.header.len + fer.payload.length
  | .unknown _ data => data.length

/-- `CperSectionBody::to_bytes`. Its `debug_assert_eq!(bytes.len(), self.len())`
does not run in a release build; `length_toBytes_iff` says when it holds. -/
def toBytes : CperSectionBody → List UInt8
  | .firmwareErrorRecord fer => fer.toBytes
  | .unknown _ data => data

/-- The bodies whose header `to_bytes` writes in `len` bytes: all but the Firmware
Error Records of revision 0 and 1. -/
def headerExact : CperSectionBody → Bool
  | .firmwareErrorRecord fer => fer.header.revision ≥ 2
  | .unknown .. => true

end CperSectionBody

/-- The descriptor and the body of a CPER section. -/
structure CperSection where
  descriptor : CperSectionDescriptor
  body : CperSectionBody
  deriving DecidableEq, Repr

namespace CperSection

/-- `CperSection::from_body`: a default descriptor with the body's type and
length. The `body.len() as u32` cast keeps the low 32 bits. -/
def fromBody (body : CperSectionBody) : CperSection :=
  ⟨{ CperSectionDescriptor.default with
      sectionType := body.guid, sectionLength := UInt32.ofNat body.len }, body⟩

/-- `CperSection::from_crashlog_region`. -/
def fromCrashlogRegion (regionBytes : List UInt8) : CperSection :=
  fromBody (.firmwareErrorRecord (FirmwareErrorRecord.fromCrashlogRegion regionBytes))

/-- `CperSection::body_bytes`: the body's bytes resized to `section_length`. -/
def bodyBytes (sec : CperSection) : List UInt8 :=
  resize sec.body.toBytes sec.descriptor.sectionLength.toNat 0

@[simp] theorem length_bodyBytes (sec : CperSection) :
    sec.bodyBytes.length = sec.descriptor.sectionLength.toNat := by
  simp [bodyBytes]

end CperSection

-- ---------------------------------------------------------------------------
-- The body codec
-- ---------------------------------------------------------------------------

namespace FirmwareErrorRecordHeader

theorem fromSlice_eq_some {s : List UInt8} {h : FirmwareErrorRecordHeader}
    (hs : fromSlice s = some h) :
    h.len ≤ s.length ∧ (if h.revision ≥ 2 then h.guid else Guid.zero) = h.guid := by
  unfold fromSlice at hs
  cases h1 : s[1]? <;> cases h0 : s[0]? <;> cases h8 : u64At s 8 <;>
    simp only [h1, h0, h8, reduceCtorEq] at hs
  rename_i rev _ _
  have h16 := length_of_u64At h8
  by_cases hr : rev ≥ 2
  · cases hg : guidAt s 16 <;> simp only [hr, if_true, hg, reduceCtorEq, Option.some.injEq] at hs
    subst hs
    simp only [len, hr, if_true, and_true]
    exact length_of_bytesAt hg
  · simp only [hr, if_false, Option.some.injEq] at hs
    subst hs
    simp only [len, hr, if_false, and_true, headerRev1Size]
    omega

theorem fromSlice_toBytes_append (h : FirmwareErrorRecordHeader) (rest : List UInt8) :
    fromSlice (h.toBytes ++ rest) =
      some { h with guid := if h.revision ≥ 2 then h.guid else Guid.zero } := by
  by_cases hr : h.revision ≥ 2 <;>
  simp (disch := simp) only [fromSlice, toBytes, List.append_assoc, u64At, guidAt, bytesAt,
    getRange_append_of_ge, getRange_append_self, List.getElem?_append_right,
    List.getElem?_append_left, List.length_cons, List.length_nil, List.length_replicate,
    UInt64.length_toLeBytes, FixedBytes.length_toList, Nat.reduceAdd, Nat.reduceSub,
    List.getElem?_cons_zero, Option.map_some', Option.some_bind, UInt64.ofNat_leNat_toLeBytes,
    FixedBytes.ofList?_toList, hr, if_true, if_false]

end FirmwareErrorRecordHeader

namespace CperSectionBody

theorem fromSlice_fer {s : List UInt8} {f : FirmwareErrorRecord}
    (hf : FirmwareErrorRecord.fromSlice s = some f) :
    FirmwareErrorRecordHeader.fromSlice s = some f.header ∧ f.payload = s.drop f.header.len := by
  unfold FirmwareErrorRecord.fromSlice at hf
  cases hh : FirmwareErrorRecordHeader.fromSlice s <;> simp only [hh, reduceCtorEq] at hf
  rename_i h
  cases hp : getFrom s h.len <;> simp only [hp, reduceCtorEq, Option.some.injEq] at hf
  subst hf
  exact ⟨rfl, (getFrom_eq_some_iff.mp hp).2⟩

theorem fromSlice_guid_len {g : Guid} {s : List UInt8} {b : CperSectionBody}
    (hb : fromSlice g s = some b) : b.guid = g ∧ b.len = s.length := by
  unfold fromSlice at hb
  split at hb
  · subst g
    obtain ⟨f, hf, rfl⟩ := Option.map_eq_some'.mp hb
    obtain ⟨hh, hp⟩ := fromSlice_fer hf
    have hle := (FirmwareErrorRecordHeader.fromSlice_eq_some hh).1
    simp only [guid, len, hp, List.length_drop, true_and]
    omega
  · cases hb
    exact ⟨rfl, rfl⟩

theorem length_toBytes_iff (b : CperSectionBody) : b.toBytes.length = b.len ↔ b.headerExact := by
  cases b with
  | firmwareErrorRecord f =>
    simp only [toBytes, FirmwareErrorRecord.toBytes, len, headerExact, List.length_append,
      FirmwareErrorRecordHeader.length_toBytes, FirmwareErrorRecordHeader.len, headerRev2Size,
      headerRev1Size, decide_eq_true_eq]
    split <;> simp_all
  | unknown g d => simp [toBytes, len, headerExact]

/-- A parsed body is read back from its own bytes under its GUID exactly when
`to_bytes` writes its header in `len` bytes. -/
theorem fromSlice_toBytes_iff {g : Guid} {s : List UInt8} {b : CperSectionBody}
    (hb : fromSlice g s = some b) : fromSlice g b.toBytes = some b ↔ b.headerExact := by
  unfold fromSlice at hb ⊢
  split at hb
  · rename_i hg
    rw [if_pos hg]
    obtain ⟨⟨⟨et, rev, rid, guid⟩, p⟩, hf, rfl⟩ := Option.map_eq_some'.mp hb
    have hguid := (FirmwareErrorRecordHeader.fromSlice_eq_some (fromSlice_fer hf).1).2
    simp only at hguid
    have hlen := FirmwareErrorRecordHeader.length_toBytes ⟨et, rev, rid, guid⟩
    simp only [toBytes, FirmwareErrorRecord.toBytes, FirmwareErrorRecord.fromSlice,
      FirmwareErrorRecordHeader.fromSlice_toBytes_append, hguid, headerExact,
      FirmwareErrorRecordHeader.len, getFrom, List.length_append, hlen, decide_eq_true_eq]
    by_cases hr : rev ≥ 2
    · simp [hr, headerRev2Size, List.drop_left' hlen]
    · simp only [hr, if_false, headerRev1Size, show 16 ≤ 32 + p.length by omega, if_true,
        Option.map_some', Option.some.injEq, firmwareErrorRecord.injEq, FirmwareErrorRecord.mk.injEq,
        true_and, iff_false]
      intro h
      have := congrArg List.length h
      simp only [List.length_drop, List.length_append, hlen] at this
      omega
  · rw [if_neg ‹_›]
    cases hb
    simp [toBytes, headerExact]

theorem fromSlice_toBytes_fromCrashlogRegion (region : List UInt8) :
    fromSlice fwErrorRecordGuid
        (firmwareErrorRecord (FirmwareErrorRecord.fromCrashlogRegion region)).toBytes =
      some (firmwareErrorRecord (FirmwareErrorRecord.fromCrashlogRegion region)) := by
  have hlen := FirmwareErrorRecordHeader.length_toBytes
    (FirmwareErrorRecord.fromCrashlogRegion region).header
  simp only [fromSlice, if_true, toBytes, FirmwareErrorRecord.toBytes, FirmwareErrorRecord.fromSlice,
    FirmwareErrorRecordHeader.fromSlice_toBytes_append, getFrom, FirmwareErrorRecordHeader.len,
    List.length_append, hlen]
  simp [FirmwareErrorRecord.fromCrashlogRegion, headerRev2Size, List.drop_left' hlen]

/-- The section-body codec on every parsed body: the GUID and the length are those
of the parse, `to_bytes` writes `len` bytes, and the bytes read back as the body,
exactly for the bodies of `headerExact`. -/
theorem fromSlice_codec {g : Guid} {s : List UInt8} {b : CperSectionBody}
    (hb : fromSlice g s = some b) :
    b.guid = g ∧ b.len = s.length ∧ (b.toBytes.length = b.len ↔ b.headerExact) ∧
      (fromSlice g b.toBytes = some b ↔ b.headerExact) :=
  ⟨(fromSlice_guid_len hb).1, (fromSlice_guid_len hb).2, length_toBytes_iff b,
    fromSlice_toBytes_iff hb⟩

/-- A revision 2 record parsed from 33 bytes. -/
theorem fromSlice_codec_revision2 :
    fromSlice fwErrorRecordGuid ([0, 2] ++ List.replicate 30 0 ++ [0x5A]) =
        some (.firmwareErrorRecord ⟨⟨0, 2, 0, Guid.zero⟩, [0x5A]⟩) ∧
      (CperSectionBody.firmwareErrorRecord ⟨⟨0, 2, 0, Guid.zero⟩, [0x5A]⟩).toBytes.length =
        (CperSectionBody.firmwareErrorRecord ⟨⟨0, 2, 0, Guid.zero⟩, [0x5A]⟩).len :=
  have hb : fromSlice fwErrorRecordGuid ([0, 2] ++ List.replicate 30 0 ++ [0x5A]) =
      some (.firmwareErrorRecord ⟨⟨0, 2, 0, Guid.zero⟩, [0x5A]⟩) := by decide
  ⟨hb, (fromSlice_codec hb).2.2.1.mpr rfl⟩

/-- A revision 0 Firmware Error Record of one payload byte, parsed from 17 bytes:
`to_bytes` writes 33 bytes where `len` counts 17, and reading them back puts the
sixteen zero bytes of the GUID in front of the payload. -/
theorem fer_revision0_toBytes :
    fromSlice fwErrorRecordGuid (List.replicate 16 0 ++ [0x5A]) =
        some (.firmwareErrorRecord ⟨⟨0, 0, 0, Guid.zero⟩, [0x5A]⟩) ∧
      (CperSectionBody.firmwareErrorRecord ⟨⟨0, 0, 0, Guid.zero⟩, [0x5A]⟩).toBytes.length = 33 ∧
      (CperSectionBody.firmwareErrorRecord ⟨⟨0, 0, 0, Guid.zero⟩, [0x5A]⟩).len = 17 ∧
      fromSlice fwErrorRecordGuid
          (CperSectionBody.firmwareErrorRecord ⟨⟨0, 0, 0, Guid.zero⟩, [0x5A]⟩).toBytes =
        some (.firmwareErrorRecord ⟨⟨0, 0, 0, Guid.zero⟩, List.replicate 16 0 ++ [0x5A]⟩) := by
  decide

end CperSectionBody

end CrashLog
