import CrashLog.Cper.Header

/-!
# CPER section descriptors

`cper/descr.rs`: the 72-byte section descriptor of UEFI 2.10 N.2.2. Its
`section_offset` and `section_length` place the section's body in the record;
bits 0 and 1 of `validation_bits` say whether the FRU id and the FRU text are
present.

As for the record header, `from_slice` trusts the validation bits and
`normalize` recomputes them, so a normalized descriptor is read back from its
bytes, whatever follows them (`fromSlice_toBytes_append`).
-/

namespace CrashLog

/-- `SECTION_DESCRIPTOR_SIZE`. -/
def sectionDescriptorSize : Nat := 72

/-- The `validation` bits of the section descriptor. -/
def validationFruId : UInt8 := 1
def validationFruString : UInt8 := 2

/-- UEFI 2.10 N.2.2 Section Descriptor. -/
structure CperSectionDescriptor where
  sectionOffset : UInt32
  sectionLength : UInt32
  revision : Revision
  validationBits : UInt8
  flags : UInt32
  sectionType : Guid
  fruId : Option Guid
  sectionSeverity : SectionSeverity
  fruText : Option (FixedBytes 20)
  deriving DecidableEq, Repr

namespace CperSectionDescriptor

def default : CperSectionDescriptor where
  sectionOffset := 0
  sectionLength := 0
  revision := Revision.new 1 0
  validationBits := 0
  flags := 0
  sectionType := Guid.zero
  fruId := none
  sectionSeverity := .informational
  fruText := none

/-- `CperSectionDescriptor::from_slice`. A revision other than 1.x is only
logged. -/
def fromSlice (s : List UInt8) : Option CperSectionDescriptor := do
  let some revisionBytes := getRange s 8 10 | none
  let some revision := Revision.fromSlice revisionBytes | none
  let some validationBits := s[10]? | none
  let some sectionOffset := u32At s 0 | none
  let some sectionLength := u32At s 4 | none
  let some flags := u32At s 12 | none
  let some sectionType := guidAt s 16 | none
  let some fruId := optionalField (validationBits &&& validationFruId != 0) (guidAt s 32) | none
  let some sectionSeverity := u32At s 48 | none
  let some fruText :=
    optionalField (validationBits &&& validationFruString != 0) (bytesAt s 52 20) | none
  some ⟨sectionOffset, sectionLength, revision, validationBits, flags, sectionType, fruId,
    Severity.ofU32 sectionSeverity, fruText⟩

/-- `CperSectionDescriptor::normalize`: the validation bits of the fields present. -/
def normalize (d : CperSectionDescriptor) : CperSectionDescriptor :=
  let bits : UInt8 := 0
  let bits := if d.fruId.isSome then bits ||| validationFruId else bits
  let bits := if d.fruText.isSome then bits ||| validationFruString else bits
  { d with validationBits := bits }

/-- `CperSectionDescriptor::to_bytes`. -/
def toBytes (d : CperSectionDescriptor) : List UInt8 :=
  d.sectionOffset.toLeBytes ++ d.sectionLength.toLeBytes ++ d.revision.toBytes ++
    [d.validationBits] ++ [0] ++ d.flags.toLeBytes ++ d.sectionType.toList ++
    (d.fruId.getD Guid.zero).toList ++ d.sectionSeverity.toU32.toLeBytes ++
    (d.fruText.getD (FixedBytes.zero 20)).toList

section
variable (d : CperSectionDescriptor)

@[simp] theorem normalize_sectionOffset : d.normalize.sectionOffset = d.sectionOffset := rfl
@[simp] theorem normalize_sectionLength : d.normalize.sectionLength = d.sectionLength := rfl
@[simp] theorem normalize_sectionType : d.normalize.sectionType = d.sectionType := rfl
@[simp] theorem normalize_fruId : d.normalize.fruId = d.fruId := rfl
@[simp] theorem normalize_fruText : d.normalize.fruText = d.fruText := rfl

theorem normalize_validationBits :
    (d.normalize.validationBits &&& validationFruId != 0) = d.fruId.isSome ∧
      (d.normalize.validationBits &&& validationFruString != 0) = d.fruText.isSome := by
  unfold normalize
  cases d.fruId <;> cases d.fruText <;>
    simp only [Option.isSome_none, Option.isSome_some, Bool.false_eq_true, if_true, if_false] <;>
    decide

theorem normalize_normalize : d.normalize.normalize = d.normalize := rfl

@[simp] theorem length_toBytes : d.toBytes.length = sectionDescriptorSize := by
  simp [toBytes, sectionDescriptorSize]

theorem fromSlice_toBytes_append (rest : List UInt8) :
    fromSlice (d.normalize.toBytes ++ rest) = some d.normalize := by
  obtain ⟨hi, ht⟩ := normalize_validationBits d
  simp (disch := simp) only [fromSlice, toBytes, List.append_assoc, u32At, guidAt, bytesAt,
    getRange_append_of_ge, getRange_append_self, List.getElem?_append_right,
    List.getElem?_append_left, List.length_cons, List.length_nil, UInt32.length_toLeBytes,
    Revision.length_toBytes, FixedBytes.length_toList, Nat.reduceAdd, Nat.reduceSub, Nat.zero_add,
    List.getElem?_cons_zero, Option.map_some', Option.some_bind, Option.bind_eq_bind,
    UInt32.ofNat_leNat_toLeBytes, Revision.fromSlice_toBytes, FixedBytes.ofList?_toList,
    Severity.ofU32_toU32, hi, ht, normalize_fruId, normalize_fruText, optionalField_some,
    ite_isSome_getD]
  rfl

end

end CperSectionDescriptor

end CrashLog
