import CrashLog.Cper.Section

/-!
# CPER records

`cper.rs`: a record is its header and its sections. `from_slice` reads the header
and each of the `section_count` sections it can read; `normalize` lays the
section bodies out one after another behind the header and the descriptors, and
writes that layout into the header and the descriptors; `to_bytes` writes the
header, the descriptors and the bodies, in that order. `from_raw_crashlog`
builds a record from a Crash Log, one `append_section` at a time.

The results here are about `normalize`: it forgets the layout it is given
(`normalize_append`), so normalizing twice is normalizing once
(`normalize_normalize`), and `from_raw_crashlog` is one `normalize` of all its
sections (`fromRawCrashlog_eq`), or no `normalize` at all when there is no
section to append.
-/

namespace CrashLog

/-- UEFI Common Platform Error Record (N). -/
structure Cper where
  recordHeader : CperHeader
  sections : List CperSection
  deriving DecidableEq, Repr

/-- Modelled from the spec: the fields of `metadata.rs`'s `Metadata` that
`from_raw_crashlog` reads; the `computer` name is not read by any modelled
function. -/
structure Metadata where
  time : Option Time
  extraCperSections : List CperSectionBody
  deriving DecidableEq, Repr

set_option linter.dupNamespace false in
/-- Modelled from the spec: `lib.rs` and `region.rs` are not among the sources. A
Crash Log is its regions and its metadata; `from_raw_crashlog` reads a region
only through `Region::to_bytes`, so a region is modelled as those bytes. -/
structure CrashLog where
  regions : List (List UInt8)
  metadata : Metadata
  deriving DecidableEq, Repr

/-- The length a section's descriptor declares. -/
def CperSection.length (sec : CperSection) : Nat := sec.descriptor.sectionLength.toNat

namespace Cper

def default : Cper := ⟨CperHeader.default, []⟩

/-- The closure of `Cper::from_slice` that reads section `i`: its descriptor
from byte `128 + 72 * i` on, and its body where the descriptor places it. -/
def sectionFromSlice (slice : List UInt8) (i : Nat) : Option CperSection := do
  let index := recordHeaderSize + i * sectionDescriptorSize
  let some descriptorBytes := getFrom slice index | none
  let some descriptor := CperSectionDescriptor.fromSlice descriptorBytes | none
  let offset := descriptor.sectionOffset.toNat
  let endOffset := offset + descriptor.sectionLength.toNat
  let some bodyBytes := getRange slice offset endOffset | none
  let some body := CperSectionBody.fromSlice descriptor.sectionType bodyBytes | none
  some ⟨descriptor, body⟩

/-- The loop of `Cper::normalize`: each section is placed at `cursor as u32`,
and the cursor moves past its declared length. The `usize` cursor can only wrap
at `2 ^ 64`, which the `as u32` cast does not see. Returns the sections and the
final cursor. -/
def normalizeSections : Nat → List CperSection → List CperSection × Nat
  | cursor, [] => ([], cursor)
  | cursor, sec :: rest =>
    let descriptor := { sec.descriptor with sectionOffset := UInt32.ofNat cursor }.normalize
    let placed := normalizeSections (cursor + sec.length) rest
    (⟨descriptor, sec.body⟩ :: placed.1, placed.2)

/-- `Cper::normalize`. -/
def normalize (c : Cper) : Cper :=
  let placed := normalizeSections
    (recordHeaderSize + sectionDescriptorSize * c.sections.length) c.sections
  ⟨{ c.recordHeader with
      sectionCount := UInt16.ofNat c.sections.length, recordLength := UInt32.ofNat placed.2 }.normalize,
    placed.1⟩

/-- `Cper::from_slice`. A section that cannot be read is left out. -/
def fromSlice (slice : List UInt8) : Option Cper := do
  let some headerBytes := getRange slice 0 recordHeaderSize | none
  let some recordHeader := CperHeader.fromSlice headerBytes | none
  let sections := (List.range recordHeader.sectionCount.toNat).filterMap (sectionFromSlice slice)
  some (normalize ⟨recordHeader, sections⟩)

/-- `Cper::append_section`. -/
def appendSection (c : Cper) (sec : CperSection) : Cper :=
  normalize ⟨c.recordHeader, c.sections ++ [sec]⟩

/-- `Cper::to_bytes`. -/
def toBytes (c : Cper) : List UInt8 :=
  c.recordHeader.toBytes ++ c.sections.flatMap (·.descriptor.toBytes) ++
    c.sections.flatMap CperSection.bodyBytes

/-- The header `from_raw_crashlog` starts from. -/
def crashlogHeader (crashlog : CrashLog) : CperHeader :=
  { CperHeader.default with
    notificationType := notificationTypeBoot
    errorSeverity := .fatal
    timestamp := crashlog.metadata.time.map Timestamp.fromCrashlogMetadata }

/-- The section `from_raw_crashlog` makes of a region. -/
def regionSection (region : List UInt8) : CperSection :=
  let sec := CperSection.fromCrashlogRegion region
  { sec with descriptor := { sec.descriptor with sectionSeverity := .fatal } }

/-- `Cper::from_raw_crashlog`: the regions, then the extra sections, each appended
with `append_section`. -/
def fromRawCrashlog (crashlog : CrashLog) : Cper :=
  let cper : Cper := { Cper.default with recordHeader := crashlogHeader crashlog }
  let cper := crashlog.regions.foldl (fun cper region => cper.appendSection (regionSection region)) cper
  crashlog.metadata.extraCperSections.foldl
    (fun cper body => cper.appendSection (CperSection.fromBody body)) cper

/-- The size of the layout `normalize` computes: the header, the descriptors and
the declared section lengths. -/
def layoutSize (c : Cper) : Nat :=
  recordHeaderSize + sectionDescriptorSize * c.sections.length + (c.sections.map (·.length)).sum

-- ---------------------------------------------------------------------------
-- Normalization
-- ---------------------------------------------------------------------------

/-- The section `normalize` places at `cursor`. -/
def place (cursor : Nat) (sec : CperSection) : CperSection :=
  ⟨{ sec.descriptor with sectionOffset := UInt32.ofNat cursor }.normalize, sec.body⟩

@[simp] theorem place_length (cursor : Nat) (sec : CperSection) :
    (place cursor sec).length = sec.length := rfl

@[simp] theorem place_body (cursor : Nat) (sec : CperSection) : (place cursor sec).body = sec.body :=
  rfl

@[simp] theorem place_place (cursor cursor' : Nat) (sec : CperSection) :
    place cursor (place cursor' sec) = place cursor sec := rfl

theorem normalizeSections_nil (cursor : Nat) : normalizeSections cursor [] = ([], cursor) := rfl

theorem normalizeSections_cons (cursor : Nat) (sec : CperSection) (rest : List CperSection) :
    normalizeSections cursor (sec :: rest) =
      (place cursor sec :: (normalizeSections (cursor + sec.length) rest).1,
        (normalizeSections (cursor + sec.length) rest).2) := rfl

theorem normalizeSections_snd (cursor : Nat) (secs : List CperSection) :
    (normalizeSections cursor secs).2 = cursor + (secs.map (·.length)).sum := by
  induction secs generalizing cursor with
  | nil => rfl
  | cons sec rest ih =>
    rw [normalizeSections_cons, ih]
    simp only [List.map_cons, List.sum_cons]
    omega

@[simp] theorem length_normalizeSections (cursor : Nat) (secs : List CperSection) :
    (normalizeSections cursor secs).1.length = secs.length := by
  induction secs generalizing cursor with
  | nil => rfl
  | cons sec rest ih => simp [normalizeSections_cons, ih]

theorem getElem?_normalizeSections (cursor : Nat) (secs : List CperSection) (i : Nat) :
    (normalizeSections cursor secs).1[i]? =
      secs[i]?.map (place (cursor + ((secs.take i).map (·.length)).sum)) := by
  induction secs generalizing cursor i with
  | nil => rfl
  | cons sec rest ih =>
    cases i with
    | zero => simp [normalizeSections_cons]
    | succ i => simp [normalizeSections_cons, ih, Nat.add_assoc]

theorem normalizeSections_append (cursor cursor' : Nat) (secs rest : List CperSection) :
    normalizeSections cursor ((normalizeSections cursor' secs).1 ++ rest) =
      normalizeSections cursor (secs ++ rest) := by
  induction secs generalizing cursor cursor' with
  | nil => rfl
  | cons sec secs ih =>
    simp only [normalizeSections_cons, List.cons_append, place_place, place_length, ih]

theorem normalize_append (c : Cper) (rest : List CperSection) :
    normalize ⟨c.normalize.recordHeader, c.normalize.sections ++ rest⟩ =
      normalize ⟨c.recordHeader, c.sections ++ rest⟩ := by
  simp only [normalize, List.length_append, length_normalizeSections, normalizeSections_append]
  rfl

theorem normalize_normalize (c : Cper) : c.normalize.normalize = c.normalize := by
  simpa using normalize_append c []

/-- Appending sections one at a time is one `normalize` of them all. -/
theorem foldl_appendSection (f : α → CperSection) (l : List α) (hl : l ≠ []) (c : Cper) :
    l.foldl (fun c x => c.appendSection (f x)) c = normalize ⟨c.recordHeader, c.sections ++ l.map f⟩ := by
  induction l generalizing c with
  | nil => exact absurd rfl hl
  | cons x rest ih =>
    rw [List.foldl_cons]
    rcases List.eq_nil_or_concat rest with rfl | ⟨_, _, rfl⟩
    · rfl
    · rw [ih (by simp), appendSection, normalize_append]
      simp

/-- `from_raw_crashlog` normalizes all its sections at once, and not at all when
there is none. -/
theorem fromRawCrashlog_eq (cl : CrashLog) :
    fromRawCrashlog cl =
      if cl.regions = [] ∧ cl.metadata.extraCperSections = [] then ⟨crashlogHeader cl, []⟩
      else normalize ⟨crashlogHeader cl,
        cl.regions.map regionSection ++ cl.metadata.extraCperSections.map CperSection.fromBody⟩ := by
  unfold fromRawCrashlog
  by_cases hx : cl.metadata.extraCperSections = []
  · by_cases hr : cl.regions = []
    · simp [hr, hx]; rfl
    · simp only [hr, hx, foldl_appendSection _ _ hr, List.foldl_nil, false_and, if_false,
        List.map_nil, List.append_nil]
      rfl
  · rw [foldl_appendSection _ _ hx, if_neg (fun h => hx h.2)]
    by_cases hr : cl.regions = []
    · simp only [hr, List.foldl_nil, List.map_nil, List.nil_append]
      rfl
    · rw [foldl_appendSection _ _ hr, normalize_append, List.append_assoc]
      rfl

end Cper

end CrashLog
