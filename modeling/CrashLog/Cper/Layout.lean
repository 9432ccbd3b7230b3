import CrashLog.Cper.Basic

/-!
# The CPER byte layout

`Cper::to_bytes` writes the 128-byte header, the 72-byte descriptors and the
bodies, each resized to its declared length. So descriptor `i` is at
`128 + 72 * i` and body `i` at `bodyOffset i`, the end of the descriptors plus
the declared lengths of the bodies before it (`getRange_toBytes_descriptor`,
`getRange_toBytes_body`), for every record.

`normalize` writes that layout into the record: the section count, the record
length and each section offset, cast to `u16` and `u32`
(`normalize_recordHeader`, `getElem?_normalize`). `normalize_layout` puts the
two together: when the count and the layout fit the casts, the fields of a
normalized record locate its own bytes.
-/

namespace CrashLog

namespace Cper

/-- Where `normalize` places the body of section `i`. -/
def bodyOffset (c : Cper) (i : Nat) : Nat :=
  recordHeaderSize + sectionDescriptorSize * c.sections.length +
    ((c.sections.take i).map (·.length)).sum

-- ---------------------------------------------------------------------------
-- Flat maps
-- ---------------------------------------------------------------------------

section
variable {α : Type} (f : α → List UInt8)

theorem drop_flatMap_take (l : List α) (i : Nat) :
    (l.flatMap f).drop ((l.take i).map fun x => (f x).length).sum = (l.drop i).flatMap f := by
  induction l generalizing i with
  | nil => simp
  | cons x xs ih =>
    cases i with
    | zero => simp
    | succ i =>
      simp only [List.take_succ_cons, List.map_cons, List.sum_cons, List.flatMap_cons,
        List.drop_succ_cons]
      rw [List.drop_append, ih]

theorem flatMap_drop_of_getElem? {l : List α} (h : l[i]? = some x) :
    (l.drop i).flatMap f = f x ++ (l.drop (i + 1)).flatMap f := by
  obtain ⟨hi, rfl⟩ := List.getElem?_eq_some_iff.mp h
  rw [List.drop_eq_getElem_cons hi, List.flatMap_cons]

theorem sum_take_of_length {l : List α} (hf : ∀ x ∈ l, (f x).length = n) (i : Nat) :
    ((l.take i).map fun x => (f x).length).sum = n * min i l.length := by
  rw [List.map_congr_left (fun x hx => hf x (List.mem_of_mem_take hx)), List.map_const',
    List.sum_replicate, List.length_take, smul_eq_mul, Nat.mul_comm]

end

-- ---------------------------------------------------------------------------
-- Where to_bytes writes each part
-- ---------------------------------------------------------------------------

@[simp] theorem length_toBytes (c : Cper) : c.toBytes.length = c.layoutSize := by
  simp only [toBytes, layoutSize, List.length_append, CperHeader.length_toBytes,
    List.length_flatMap, Function.comp_def, CperSectionDescriptor.length_toBytes,
    CperSection.length_bodyBytes, List.map_const', List.sum_replicate, smul_eq_mul]
  rw [Nat.mul_comm]
  rfl

theorem toBytes_drop_descriptor {c : Cper} (hi : c.sections[i]? = some sec) :
    c.toBytes.drop (recordHeaderSize + i * sectionDescriptorSize) =
      sec.descriptor.toBytes ++ ((c.sections.drop (i + 1)).flatMap (·.descriptor.toBytes) ++
        c.sections.flatMap CperSection.bodyBytes) := by
  have hlt := (List.getElem?_eq_some_iff.mp hi).1
  have hsum := sum_take_of_length (fun sec : CperSection => sec.descriptor.toBytes)
    (l := c.sections) (n := sectionDescriptorSize) (by simp) i
  rw [Nat.min_eq_left hlt.le, Nat.mul_comm] at hsum
  have hD : i * sectionDescriptorSize ≤ (c.sections.flatMap (·.descriptor.toBytes)).length := by
    simp only [List.length_flatMap, Function.comp_def, CperSectionDescriptor.length_toBytes,
      List.map_const', List.sum_replicate, smul_eq_mul]
    exact Nat.mul_le_mul_right _ hlt.le
  rw [toBytes, List.append_assoc, ← CperHeader.length_toBytes c.recordHeader, List.drop_append,
    List.drop_append_of_le_length hD, ← hsum, drop_flatMap_take, flatMap_drop_of_getElem? _ hi,
    List.append_assoc]

theorem getRange_toBytes_descriptor {c : Cper} (hi : c.sections[i]? = some sec) :
    getRange c.toBytes (recordHeaderSize + sectionDescriptorSize * i)
        (recordHeaderSize + sectionDescriptorSize * (i + 1)) = some sec.descriptor.toBytes := by
  have hlt := (List.getElem?_eq_some_iff.mp hi).1
  have h := toBytes_drop_descriptor hi
  rw [Nat.mul_comm] at h
  have hle : recordHeaderSize + sectionDescriptorSize * i ≤ c.toBytes.length := by
    rw [length_toBytes, layoutSize]
    have := Nat.mul_le_mul_left sectionDescriptorSize hlt.le
    omega
  have hr := getRange_of_drop hle h
  rwa [CperSectionDescriptor.length_toBytes, Nat.add_assoc, ← Nat.mul_succ] at hr

theorem toBytes_drop_body {c : Cper} (hi : c.sections[i]? = some sec) :
    c.toBytes.drop (c.bodyOffset i) =
      sec.bodyBytes ++ (c.sections.drop (i + 1)).flatMap CperSection.bodyBytes := by
  have hD : (c.recordHeader.toBytes ++ c.sections.flatMap (·.descriptor.toBytes)).length =
      recordHeaderSize + sectionDescriptorSize * c.sections.length := by
    simp only [List.length_append, CperHeader.length_toBytes, List.length_flatMap,
      Function.comp_def, CperSectionDescriptor.length_toBytes, List.map_const', List.sum_replicate,
      smul_eq_mul, Nat.mul_comm]
  have hsum := drop_flatMap_take CperSection.bodyBytes c.sections i
  simp only [CperSection.length_bodyBytes] at hsum
  rw [toBytes, bodyOffset, ← hD, List.drop_append]
  exact hsum.trans (flatMap_drop_of_getElem? _ hi)

theorem bodyOffset_le_layoutSize (c : Cper) (i : Nat) : c.bodyOffset i ≤ c.layoutSize := by
  unfold bodyOffset layoutSize
  have := List.sum_take_add_sum_drop (c.sections.map (·.length)) i
  simp only [List.map_take] at this ⊢
  omega

theorem getRange_toBytes_body {c : Cper} (hi : c.sections[i]? = some sec) :
    getRange c.toBytes (c.bodyOffset i) (c.bodyOffset i + sec.length) = some sec.bodyBytes := by
  have h := getRange_of_drop (by rw [length_toBytes]; exact bodyOffset_le_layoutSize c i)
    (toBytes_drop_body hi)
  rwa [CperSection.length_bodyBytes] at h

-- ---------------------------------------------------------------------------
-- The layout normalize records
-- ---------------------------------------------------------------------------

theorem map_length_normalizeSections (cursor : Nat) (secs : List CperSection) :
    (normalizeSections cursor secs).1.map (·.length) = secs.map (·.length) := by
  induction secs generalizing cursor with
  | nil => rfl
  | cons sec rest ih => simp [normalizeSections_cons, ih]

theorem sections_normalize (c : Cper) :
    c.normalize.sections =
      (normalizeSections (recordHeaderSize + sectionDescriptorSize * c.sections.length) c.sections).1 :=
  rfl

@[simp] theorem length_sections_normalize (c : Cper) :
    c.normalize.sections.length = c.sections.length :=
  length_normalizeSections _ _

@[simp] theorem layoutSize_normalize (c : Cper) : c.normalize.layoutSize = c.layoutSize := by
  simp only [layoutSize, sections_normalize, map_length_normalizeSections,
    length_normalizeSections]

@[simp] theorem bodyOffset_normalize (c : Cper) (i : Nat) : c.normalize.bodyOffset i = c.bodyOffset i := by
  simp only [bodyOffset, List.map_take, sections_normalize, map_length_normalizeSections,
    length_normalizeSections]

theorem normalize_recordHeader (c : Cper) :
    c.normalize.recordHeader = { c.recordHeader with
      sectionCount := UInt16.ofNat c.sections.length,
      recordLength := UInt32.ofNat c.layoutSize }.normalize := by
  rw [normalize, normalizeSections_snd]
  rfl

theorem getElem?_normalize (c : Cper) (i : Nat) :
    c.normalize.sections[i]? = c.sections[i]?.map (place (c.bodyOffset i)) := by
  rw [normalize, getElem?_normalizeSections]
  rfl

@[simp] theorem place_descriptor_sectionOffset (cursor : Nat) (sec : CperSection) :
    (place cursor sec).descriptor.sectionOffset = UInt32.ofNat cursor := rfl

/-- The layout `Cper::normalize` records matches the bytes `Cper::to_bytes`
writes, for every record whose section count fits a `u16` and whose layout fits
a `u32`: the record length is the length of the bytes, the section count is the
number of sections, descriptor `i` is at `128 + 72 * i`, its section offset is
where body `i` is written, and every validation bit says whether its field is
present. -/
theorem normalize_layout (c : Cper) (hN : c.sections.length < 2 ^ 16)
    (hT : c.layoutSize < 2 ^ 32) :
    c.normalize.toBytes.length = c.normalize.layoutSize ∧
      c.normalize.recordHeader.recordLength.toNat = c.normalize.layoutSize ∧
      c.normalize.recordHeader.sectionCount.toNat = c.normalize.sections.length ∧
      (∀ i sec, c.normalize.sections[i]? = some sec →
        getRange c.normalize.toBytes (recordHeaderSize + sectionDescriptorSize * i)
            (recordHeaderSize + sectionDescriptorSize * (i + 1)) = some sec.descriptor.toBytes ∧
          sec.descriptor.sectionOffset.toNat = c.normalize.bodyOffset i ∧
          getRange c.normalize.toBytes sec.descriptor.sectionOffset.toNat
              (sec.descriptor.sectionOffset.toNat + sec.length) = some sec.bodyBytes ∧
          (sec.descriptor.validationBits &&& validationFruId != 0) = sec.descriptor.fruId.isSome ∧
          (sec.descriptor.validationBits &&& validationFruString != 0) =
            sec.descriptor.fruText.isSome) ∧
      (c.normalize.recordHeader.validationBits &&& validationTimestamp != 0) =
        c.normalize.recordHeader.timestamp.isSome ∧
      (c.normalize.recordHeader.validationBits &&& validationPlatformId != 0) =
        c.normalize.recordHeader.platformId.isSome ∧
      (c.normalize.recordHeader.validationBits &&& validationPartitionId != 0) =
        c.normalize.recordHeader.partitionId.isSome := by
  have hoff : ∀ i, c.bodyOffset i < 2 ^ 32 := fun i =>
    lt_of_le_of_lt (bodyOffset_le_layoutSize c i) hT
  refine ⟨length_toBytes _, ?_, ?_, fun i sec hi => ?_, ?_⟩
  · rw [normalize_recordHeader, layoutSize_normalize]
    exact UInt32.toNat_ofNat_of_lt hT
  · rw [normalize_recordHeader, length_sections_normalize]
    exact UInt16.toNat_ofNat_of_lt hN
  · have hp := hi
    rw [getElem?_normalize] at hp
    obtain ⟨sec0, -, hs⟩ := Option.map_eq_some'.mp hp
    have hsec : sec.descriptor.sectionOffset.toNat = c.normalize.bodyOffset i := by
      rw [← hs, place_descriptor_sectionOffset, bodyOffset_normalize]
      exact UInt32.toNat_ofNat_of_lt (hoff i)
    refine ⟨getRange_toBytes_descriptor hi, hsec, hsec ▸ getRange_toBytes_body hi, ?_⟩
    rw [← hs]
    exact CperSectionDescriptor.normalize_validationBits _
  · rw [normalize_recordHeader]
    exact CperHeader.normalize_validationBits _

/-- The record length of a record holding the section of a three-byte region. -/
theorem normalize_layout_region :
    (normalize ⟨CperHeader.default, [regionSection [1, 2, 3]]⟩).recordHeader.recordLength.toNat =
      (normalize ⟨CperHeader.default, [regionSection [1, 2, 3]]⟩).layoutSize :=
  (normalize_layout ⟨CperHeader.default, [regionSection [1, 2, 3]]⟩ (by decide) (by decide)).2.1

/-- A Crash Log with an extraction time and no region and no extra section:
`from_raw_crashlog` sets the timestamp and never normalizes, so the timestamp
bit of the validation bits stays clear. -/
theorem fromRawCrashlog_timestamp_unflagged :
    (fromRawCrashlog ⟨[], ⟨some ⟨2025, 6, 30, 12, 0⟩, []⟩⟩).sections = [] ∧
      (fromRawCrashlog ⟨[], ⟨some ⟨2025, 6, 30, 12, 0⟩, []⟩⟩).recordHeader.timestamp.isSome = true ∧
      ((fromRawCrashlog ⟨[], ⟨some ⟨2025, 6, 30, 12, 0⟩, []⟩⟩).recordHeader.validationBits &&&
        validationTimestamp != 0) = false := by
  decide

end Cper

end CrashLog
