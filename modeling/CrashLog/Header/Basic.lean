import CrashLog.Rust

/-!
# Crash Log record headers

`header.rs` and `errata.rs`: the version word, the errata it implies, the
record size fields and the eight header layouts, with `Header::from_slice`
dispatching between them. Every accessor reads through `slice.get`, except
the legacy server layout, which indexes `slice[24]` and `slice[0]` directly;
that is why `HeaderType.fromSliceType0LegacyServer` and `Header.fromSlice`
return a `Run`.
-/

namespace CrashLog

/-- The record types `into_errata` tests (`record_types::PCORE`, `ECORE`). -/
def recordTypePcore : UInt8 := 0x4
def recordTypeEcore : UInt8 := 0x6

/-- The other record types of `record_types`. -/
def recordTypePmc : UInt8 := 0x1
def recordTypePmcFwTrace : UInt8 := 0x2
def recordTypePunit : UInt8 := 0x3
def recordTypeUncore : UInt8 := 0x8
def recordTypePmcTrace : UInt8 := 0x11
def recordTypeTcss : UInt8 := 0x16
def recordTypePmcRst : UInt8 := 0x17
def recordTypePcode : UInt8 := 0x19
def recordTypeCrashlogAgent : UInt8 := 0x1C
def recordTypeBox : UInt8 := 0x3D
def recordTypeMca : UInt8 := 0x3E

-- ---------------------------------------------------------------------------
-- Version and errata
-- ---------------------------------------------------------------------------

structure Version where
  revision : UInt32
  headerType : UInt16
  productId : UInt32
  recordType : UInt8
  consumed : Bool
  cldic : Bool
  deriving DecidableEq, Repr

/-- The version word, or `none` for the termination markers `0` and `0xdeadbeef`
(and for a slice shorter than four bytes). -/
def Version.fromSlice (slice : List UInt8) : Option Version := do
  let version ← u32At slice 0
  if version = 0 ∨ version = 0xdeadbeef then none
  else some {
    cldic := (version >>> 30) &&& 1 == 1
    consumed := (version >>> 31) &&& 1 == 1
    revision := version &&& 0xFF
    headerType := ((version >>> 8) &&& 0xF).toUInt16
    productId := (version >>> 12) &&& 0xFFF
    recordType := ((version >>> 24) &&& 0x3F).toUInt8 }

/-- `Version::as_u32`: the fields shifted back to their places in the version
word, the value the header's node reports. -/
def Version.asU32 (v : Version) : UInt32 :=
  ((if v.consumed then 1 else 0 : UInt32) <<< 31) ||| ((if v.cldic then 1 else 0 : UInt32) <<< 30) |||
    (v.recordType.toUInt32 <<< 24) ||| (v.productId <<< 12) ||| (v.headerType.toUInt32 <<< 8) |||
    v.revision

structure Errata where
  type0LegacyServer : Bool
  type0LegacyServerBox : Bool
  coreRecordSizeBytes : Bool
  deriving DecidableEq, Repr

def Version.intoErrata (v : Version) : Errata :=
  let type0LegacyServer := v.headerType == 0 && v.productId == 0x2f
  { type0LegacyServer
    type0LegacyServerBox := type0LegacyServer && v.recordType == 0x4
    coreRecordSizeBytes := !type0LegacyServer &&
      ((v.recordType == recordTypeEcore && decide (v.productId < 0x96)) ||
        (v.recordType == recordTypePcore && decide (v.productId < 0x71))) }

/-- `Errata::from_version`. The `errata.rs` of the sources is a snapshot whose
struct holds only `type0_legacy_server`, computed as in `into_errata`; that is
the one field `Header::from_slice` reads. -/
def Errata.fromVersion (version : Version) : Errata := version.intoErrata

/-- Modelled from the spec: `error.rs` is not among the sources. These are the
variants of the spec's error taxonomy (section 7) that the modelled functions
raise. -/
inductive ParseIntErrorKind where
  | empty
  | invalidDigit
  | posOverflow
  deriving DecidableEq, Repr

/-- Modelled from the spec: the crate's `Error`, restricted to the variants the
modelled functions return. -/
inductive Error where
  | invalidHeader
  | invalidHeaderType (value : UInt16)
  | parseIntError (kind : ParseIntErrorKind)
  | utf8Error
  | invalidRecordType (value : UInt8)
  | invalidProductID (value : UInt32)
  | missingDecodeDefinitions (version : Version)
  deriving DecidableEq, Repr

-- ---------------------------------------------------------------------------
-- Record size
-- ---------------------------------------------------------------------------

structure RecordSize where
  recordSize : UInt16
  extendedRecordSize : UInt16
  deriving DecidableEq, Repr

def RecordSize.fromSlice (slice : List UInt8) : Option RecordSize := do
  let recordSize ← u16At slice 4
  let extendedRecordSize ← u16At slice 6
  some { recordSize, extendedRecordSize }

def RecordSize.fromSliceType0LegacyServer (slice : List UInt8) : Option RecordSize := do
  let recordSize ← u16At slice 16
  some { recordSize, extendedRecordSize := 0 }

-- ---------------------------------------------------------------------------
-- Header layouts
-- ---------------------------------------------------------------------------

inductive HeaderType where
  | type0
  | type1
  | type2 (timestamp : UInt64) (agentVersion reason : UInt32)
  | type3 (timestamp : UInt64) (agentVersion reason completionStatus : UInt32)
      (collectionComplete : Bool)
  | type4 (timestamp : UInt64) (agentVersion reason whoami misc : UInt32)
  | type5 (timestamp : UInt64) (agentVersion reason completionStatus : UInt32)
      (collectionComplete : Bool) (errorStatus : UInt32)
  | type6 (timestamp : UInt64) (agentVersion reason : UInt32) (dieId socketId : UInt8)
      (completionStatusSize : UInt16) (completionStatus : List UInt32)
      (collectionComplete : Bool)
  | type0LegacyServer (timestamp : UInt64) (agentVersion reason : UInt32)
      (dieId socketId : UInt8) (completionStatus : UInt32) (collectionComplete : Bool)
  deriving DecidableEq, Repr

namespace HeaderType

def type2FromSlice (slice : List UInt8) : Option HeaderType := do
  let timestamp ← u64At slice 8
  let agentVersion ← u32At slice 16
  let reason ← u32At slice 20
  some (.type2 timestamp agentVersion reason)

def type3FromSlice (slice : List UInt8) : Option HeaderType := do
  let timestamp ← u64At slice 8
  let agentVersion ← u32At slice 16
  let reason ← u32At slice 20
  let csData ← u32At slice 24
  some (.type3 timestamp agentVersion reason (csData &&& 0x7FFFFFFF) (csData >>> 31 != 0))

def type4FromSlice (slice : List UInt8) : Option HeaderType := do
  let timestamp ← u64At slice 8
  let agentVersion ← u32At slice 16
  let reason ← u32At slice 20
  let whoami ← u32At slice 24
  let misc ← u32At slice 28
  some (.type4 timestamp agentVersion reason whoami misc)

def type5FromSlice (slice : List UInt8) : Option HeaderType := do
  let timestamp ← u64At slice 8
  let agentVersion ← u32At slice 16
  let reason ← u32At slice 20
  let csData ← u32At slice 24
  let errorStatus ← u32At slice 28
  some (.type5 timestamp agentVersion reason (csData &&& 0x7FFFFFFF) (csData >>> 31 != 0)
    errorStatus)

/-- The completion status words of a Type6 header, `completion_status_size`
of them from byte 28 on. -/
def completionStatusFromSlice (slice : List UInt8) (size : Nat) : Option (List UInt32) :=
  (List.range size).mapM fun dword => u32At slice (28 + dword * 4)

/-- The four bytes of `die_skt_info` are indexed directly; the slice they come
from has exactly four bytes, so the last branch is never taken. -/
def type6FromSlice (slice : List UInt8) : Option HeaderType := do
  let timestamp ← u64At slice 8
  let agentVersion ← u32At slice 16
  let reason ← u32At slice 20
  match getRange slice 24 28 with
  | some [dieId, socketId, b2, b3] =>
    let completionStatusSize := UInt16.ofNat (leNat [b2, b3]) &&& 0x7F
    let completionStatus ← completionStatusFromSlice slice completionStatusSize.toNat
    some (.type6 timestamp agentVersion reason dieId socketId completionStatusSize
      completionStatus (b3 &&& 0x80 != 0))
  | _ => none

/-- The die id of the legacy server layout, encoded in byte 0. -/
def legacyDieId (revision : UInt8) : UInt8 :=
  let dieIdx := revision &&& 0x3
  if (revision >>> 7) &&& 1 == 1 then dieIdx + 9 else dieIdx <<< 2

/-- `type0_legacy_server_from_slice`. The three `?` reads come first; then
`slice[24]`, unchecked, then the read of bytes 28..32 and `slice[0]`. -/
def type0LegacyServerFromSlice (slice : List UInt8) : Run (Option HeaderType) :=
  match u32At slice 4, u64At slice 8, u32At slice 20 with
  | some reason, some timestamp, some agentVersion => do
    let socketId ← index slice 24
    match u32At slice 28 with
    | none => pure none
    | some csData => do
      let revision ← index slice 0
      pure (some (.type0LegacyServer timestamp agentVersion reason (legacyDieId revision)
        socketId (csData &&& 0x7FFFFFFF) (csData >>> 31 != 0)))
  | _, _, _ => pure none

def fromSlice (headerTypeValue : UInt16) (slice : List UInt8) : Except Error HeaderType :=
  match headerTypeValue.toNat with
  | 0 => .ok .type0
  | 1 => .ok .type1
  | 2 => okOr (type2FromSlice slice) .invalidHeader
  | 3 => okOr (type3FromSlice slice) .invalidHeader
  | 4 => okOr (type4FromSlice slice) .invalidHeader
  | 5 => okOr (type5FromSlice slice) .invalidHeader
  | 6 => okOr (type6FromSlice slice) .invalidHeader
  | _ => .error (.invalidHeaderType headerTypeValue)

def fromSliceType0LegacyServer (slice : List UInt8) : Run (Except Error HeaderType) :=
  (type0LegacyServerFromSlice slice).map fun o => okOr o .invalidHeader

/-- `Header::header_size`, which matches on the layout only. -/
def headerSize : HeaderType → Nat
  | .type0 | .type1 => 8
  | .type2 .. => 24
  | .type3 .. => 28
  | .type4 .. => 32
  | .type5 .. => 32
  | .type6 _ _ _ _ _ completionStatusSize _ _ => 28 + completionStatusSize.toNat * 4
  | .type0LegacyServer .. => 32

end HeaderType

-- ---------------------------------------------------------------------------
-- Headers
-- ---------------------------------------------------------------------------

structure Header where
  version : Version
  size : RecordSize
  headerType : HeaderType
  deriving DecidableEq, Repr

namespace Header

/-- `Header::from_slice`: `ok none` at a termination marker. -/
def fromSlice (slice : List UInt8) : Run (Except Error (Option Header)) :=
  match Version.fromSlice slice with
  | none => pure (.ok none)
  | some version =>
    let errata := Errata.fromVersion version
    let size := if errata.type0LegacyServer then RecordSize.fromSliceType0LegacyServer slice
      else RecordSize.fromSlice slice
    match size with
    | none => pure (.error .invalidHeader)
    | some size =>
      if errata.type0LegacyServer then
        (HeaderType.fromSliceType0LegacyServer slice).map fun r =>
          r.map fun headerType => some { version, size, headerType }
      else
        pure ((HeaderType.fromSlice version.headerType slice).map fun headerType =>
          some { version, size, headerType })

def recordSizeGranularity (h : Header) : Nat :=
  if h.version.intoErrata.coreRecordSizeBytes then 1 else 4

/-- The size of the record in bytes. -/
def recordSize (h : Header) : Nat :=
  (h.size.recordSize.toNat + h.size.extendedRecordSize.toNat) * h.recordSizeGranularity

def extendedRecordOffset (h : Header) : Option Nat :=
  if h.size.extendedRecordSize > 0 then some (h.size.recordSize.toNat * h.recordSizeGranularity)
  else none

/-- The size of the header in bytes; it depends on the layout alone. -/
def headerSize (h : Header) : Nat := h.headerType.headerSize

end Header

end CrashLog
