import CrashLog.Rust

/-!
# CPER field types

The small types the CPER header and section descriptor are made of:
fixed-size byte arrays and GUIDs (the `uguid` crate), `revision.rs`, the
header's `Timestamp`, the two severity enumerations, and the extraction time
of `metadata.rs` with `utils::bin_to_bcd`.

Each of them is read by a `from_slice` and written by a `to_bytes`; the
lemmas here say that reading back what was written gives the value again
(`fromSlice_toBytes`), and how many bytes is written.
-/

namespace CrashLog

-- ---------------------------------------------------------------------------
-- Byte arrays and GUIDs
-- ---------------------------------------------------------------------------

/-- A Rust byte array `[u8; n]`. -/
@[ext] structure FixedBytes (n : Nat) where
  toList : List UInt8
  length_toList : toList.length = n
  deriving DecidableEq, Repr

attribute [simp] FixedBytes.length_toList

/-- `<[u8; n]>::try_from(slice).ok()`: the slice, when it has exactly `n` bytes. -/
def FixedBytes.ofList? (b : List UInt8) : Option (FixedBytes n) :=
  if h : b.length = n then some ⟨b, h⟩ else none

/-- `[0; n]`, the `Default` of a byte array. -/
def FixedBytes.zero (n : Nat) : FixedBytes n := ⟨List.replicate n 0, List.length_replicate n 0⟩

/-- `s.get(off..off + n)?.try_into().ok()?`. -/
def bytesAt (s : List UInt8) (off n : Nat) : Option (FixedBytes n) :=
  (getRange s off (off + n)).bind FixedBytes.ofList?

/-- `uguid::Guid`: sixteen bytes, which `Guid::from_bytes` and `Guid::to_bytes`
keep as they are. -/
abbrev Guid := FixedBytes 16

/-- `Guid::ZERO`, also `Guid::default()`. -/
def Guid.zero : Guid := FixedBytes.zero 16

/-- `Guid::from_bytes(s.get(off..off + 16)?.try_into().ok()?)`. -/
def guidAt (s : List UInt8) (off : Nat) : Option Guid := bytesAt s off 16

@[simp] theorem FixedBytes.ofList?_toList (a : FixedBytes n) : FixedBytes.ofList? a.toList = some a := by
  simp [FixedBytes.ofList?]

theorem FixedBytes.ofList?_eq_some {b : List UInt8} {a : FixedBytes n} :
    FixedBytes.ofList? b = some a ↔ a.toList = b := by
  unfold FixedBytes.ofList?
  split
  · simp only [Option.some.injEq, FixedBytes.ext_iff, eq_comm]
  · simp only [reduceCtorEq, false_iff]
    rintro rfl
    simp_all

theorem bytesAt_of_getRange {s : List UInt8} {a : FixedBytes n}
    (h : getRange s off (off + n) = some a.toList) : bytesAt s off n = some a := by
  simp [bytesAt, h]

theorem bytesAt_congr {s t : List UInt8} (h : t.take m = s.take m) (hb : off + n ≤ m) :
    bytesAt t off n = bytesAt s off n := by
  rw [bytesAt, bytesAt, getRange_congr h hb]

theorem bytesAt_of_le {s : List UInt8} (h : off + n ≤ s.length) : ∃ a, bytesAt s off n = some a := by
  have hr : getRange s off (off + n) = some ((s.drop off).take n) := by
    simp [getRange, h, Nat.le_add_right]
  exact ⟨⟨_, by simp; omega⟩, bytesAt_of_getRange hr⟩

theorem length_of_bytesAt {s : List UInt8} (h : bytesAt s off n = some a) : off + n ≤ s.length := by
  unfold bytesAt at h
  cases hr : getRange s off (off + n) with
  | none => simp [hr] at h
  | some r => exact stop_le_of_getRange hr

-- ---------------------------------------------------------------------------
-- Revision
-- ---------------------------------------------------------------------------

structure Revision where
  major : UInt8
  minor : UInt8
  deriving DecidableEq, Repr

def Revision.new (major minor : UInt8) : Revision := { major, minor }

/-- `Revision::from_slice`: the minor number first. -/
def Revision.fromSlice (s : List UInt8) : Option Revision := do
  let minor ← s[0]?
  let major ← s[1]?
  some { minor, major }

def Revision.toBytes (r : Revision) : List UInt8 := [r.minor, r.major]

@[simp] theorem Revision.length_toBytes (r : Revision) : r.toBytes.length = 2 := rfl

@[simp] theorem Revision.fromSlice_toBytes (r : Revision) : Revision.fromSlice r.toBytes = some r :=
  rfl

-- ---------------------------------------------------------------------------
-- Timestamp
-- ---------------------------------------------------------------------------

/-- The CPER record header's `Timestamp`, BCD-coded fields. -/
structure Timestamp where
  seconds : UInt8
  minutes : UInt8
  hours : UInt8
  precise : Bool
  day : UInt8
  month : UInt8
  year : UInt8
  century : UInt8
  deriving DecidableEq, Repr

def Timestamp.default : Timestamp := ⟨0, 0, 0, false, 0, 0, 0, 0⟩

/-- `Timestamp::from_slice`: only bit 0 of byte 3 is read, as `precise`. -/
def Timestamp.fromSlice (s : List UInt8) : Option Timestamp := do
  let seconds ← s[0]?
  let minutes ← s[1]?
  let hours ← s[2]?
  let flags : UInt8 ← s[3]?
  let day ← s[4]?
  let month ← s[5]?
  let year ← s[6]?
  let century ← s[7]?
  some { seconds, minutes, hours, precise := flags &&& 1 != 0, day, month, year, century }

def Timestamp.toBytes (t : Timestamp) : List UInt8 :=
  [t.seconds, t.minutes, t.hours, if t.precise then 1 else 0, t.day, t.month, t.year, t.century]

@[simp] theorem Timestamp.length_toBytes (t : Timestamp) : t.toBytes.length = 8 := rfl

@[simp] theorem Timestamp.fromSlice_toBytes (t : Timestamp) :
    Timestamp.fromSlice t.toBytes = some t := by
  cases t with
  | mk s m h p d mo y c => cases p <;> simp [Timestamp.fromSlice, Timestamp.toBytes] <;> decide

/-- The extraction time of `metadata.rs`. -/
structure Time where
  year : UInt16
  month : UInt8
  day : UInt8
  hour : UInt8
  minute : UInt8
  deriving DecidableEq, Repr

/-- `utils::bin_to_bcd`, in `u8` arithmetic. -/
def binToBcd (byte : UInt8) : UInt8 := (byte / 10) <<< 4 ||| (byte % 10)

/-- `Timestamp::from_crashlog_metadata`. The `as u8` casts keep the low byte. -/
def Timestamp.fromCrashlogMetadata (time : Time) : Timestamp :=
  { Timestamp.default with
    century := binToBcd (time.year / 100).toUInt8
    year := binToBcd (time.year % 100).toUInt8
    month := binToBcd time.month
    day := binToBcd time.day
    hours := binToBcd time.hour
    minutes := binToBcd time.minute }

/-- The value of a BCD byte, a decimal digit in each nibble, as UEFI N.2.1
stores the timestamp fields. -/
def bcdValue (b : UInt8) : Nat := 10 * (b.toNat / 16) + b.toNat % 16

theorem bcdValue_binToBcd_ofNat : ∀ n < 100, bcdValue (binToBcd (UInt8.ofNat n)) = n := by
  decide

theorem bcdValue_binToBcd {b : UInt8} (h : b.toNat < 100) : bcdValue (binToBcd b) = b.toNat := by
  have hb : UInt8.ofNat b.toNat = b := UInt8.toNat.inj (Nat.mod_eq_of_lt b.toNat_lt_size)
  simpa [hb] using bcdValue_binToBcd_ofNat b.toNat h

/-- A timestamp made from an extraction time holds that time in BCD, for every
time of a four-digit year and two-digit fields. -/
theorem Timestamp.fromCrashlogMetadata_bcd (time : Time) (hy : time.year.toNat < 10000)
    (hmo : time.month.toNat < 100) (hd : time.day.toNat < 100) (hh : time.hour.toNat < 100)
    (hmi : time.minute.toNat < 100) :
    100 * bcdValue (fromCrashlogMetadata time).century + bcdValue (fromCrashlogMetadata time).year =
        time.year.toNat ∧
      bcdValue (fromCrashlogMetadata time).month = time.month.toNat ∧
      bcdValue (fromCrashlogMetadata time).day = time.day.toNat ∧
      bcdValue (fromCrashlogMetadata time).hours = time.hour.toNat ∧
      bcdValue (fromCrashlogMetadata time).minutes = time.minute.toNat := by
  have hc : ((time.year / 100).toUInt8).toNat = time.year.toNat / 100 := by
    simp only [UInt16.toUInt8, Nat.toUInt8, UInt8.toNat, UInt8.ofNat, UInt16.toNat_div]
    simp [UInt16.size]
    omega
  have hr : ((time.year % 100).toUInt8).toNat = time.year.toNat % 100 := by
    simp only [UInt16.toUInt8, Nat.toUInt8, UInt8.toNat, UInt8.ofNat, UInt16.toNat_mod]
    simp [UInt16.size]
    omega
  simp only [fromCrashlogMetadata]
  rw [bcdValue_binToBcd (by omega), bcdValue_binToBcd (by omega), hc, hr,
    bcdValue_binToBcd hmo, bcdValue_binToBcd hd, bcdValue_binToBcd hh, bcdValue_binToBcd hmi]
  exact ⟨Nat.div_add_mod _ _, rfl, rfl, rfl, rfl⟩

-- ---------------------------------------------------------------------------
-- Severities
-- ---------------------------------------------------------------------------

/-- The four severities of `ErrorSeverity` and `SectionSeverity`, two enums of
the same variants and discriminants. `Informational` is the default. -/
inductive Severity where
  | recoverable
  | fatal
  | corrected
  | informational
  deriving DecidableEq, Repr

/-- `From<u32>`: every value past `2` is `Informational`. -/
def Severity.ofU32 (value : UInt32) : Severity :=
  match value.toNat with
  | 0 => .recoverable
  | 1 => .fatal
  | 2 => .corrected
  | _ => .informational

/-- `severity as u32`. -/
def Severity.toU32 : Severity → UInt32
  | .recoverable => 0
  | .fatal => 1
  | .corrected => 2
  | .informational => 3

/-- `cper::header::ErrorSeverity`. -/
abbrev ErrorSeverity := Severity

/-- `cper::descr::SectionSeverity`. -/
abbrev SectionSeverity := Severity

@[simp] theorem Severity.ofU32_toU32 (s : Severity) : Severity.ofU32 s.toU32 = s := by
  cases s <;> rfl

end CrashLog
