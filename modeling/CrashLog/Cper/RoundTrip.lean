import CrashLog.Cper.Layout

/-!
# The CPER round trip

`Cper::from_slice` reads back what `Cper::to_bytes` wrote, field for field, for
every normalized record whose sections are `Exact`: each body's bytes take its
declared length and read back as the body (`fromSlice_toBytes`). The proof reads
the header at 0, each descriptor at `128 + 72 * i` and each body at the offset
the descriptor records, with the layout lemmas of `Layout`.

The records the library builds, with `from_slice`, `from_raw_crashlog` and
`append_section` (`Reachable`), all have sections of the right type and length
(`Reachable.sound`). Their sections are `Exact` when their bodies are shorter
than `2 ^ 32` bytes and no body is a Firmware Error Record of revision 0 or 1
(`CperSection.Sound.exact`); a record `from_raw_crashlog` builds with no section
and a timestamp is not normalized (`Reachable.normalized`). Under those three conditions every reachable record round
trips (`Reachable.fromSlice_toBytes_self`).

`from_slice` checks each section against the buffer and never against the
layout it rebuilds, so a parsed record can have a layout past `2 ^ 32` bytes
that the `as u32` casts of `normalize` truncate (`fromSlice_layout_overflows`,
built on the one-section read `fromSlice_one_section`).
-/

namespace CrashLog

/-- A section `to_bytes` writes so that `from_slice` reads it back: its body takes
its declared length, and the body's bytes read back as the body under the
section type. -/
def CperSection.Exact (sec : CperSection) : Prop :=
  sec.body.toBytes.length = sec.length ∧
    CperSectionBody.fromSlice sec.descriptor.sectionType sec.body.toBytes = some sec.body

/-- What `from_slice` reads back of a section `to_bytes` wrote: its descriptor, and
its body parsed again, under the section type, from the bytes `body_bytes`
wrote. -/
def CperSection.reparse (sec : CperSection) : Option CperSection :=
  (CperSectionBody.fromSlice sec.descriptor.sectionType sec.bodyBytes).map (⟨sec.descriptor, ·⟩)

theorem CperSection.reparse_of_exact {sec : CperSection} (hx : sec.Exact) :
    sec.reparse = some sec := by
  have hl : sec.body.toBytes.length = sec.descriptor.sectionLength.toNat := hx.1
  simp [reparse, bodyBytes, resize_of_length hl, hx.2]

namespace Cper

theorem filterMap_range_eq {f : Nat → Option β} {g : α → Option β} {l : List α}
    (h : ∀ i (hi : i < l.length), f i = g l[i]) :
    (List.range l.length).filterMap f = l.filterMap g := by
  induction l generalizing f with
  | nil => rfl
  | cons x xs ih =>
    rw [List.length_cons, List.range_succ_eq_map, List.filterMap_cons, h 0 (by simp),
      List.filterMap_map, List.filterMap_cons]
    simp only [List.getElem_cons_zero]
    rw [ih fun i hi => by simpa using h (i + 1) (by simp; omega)]

theorem fromSlice_of_header {slice hb : List UInt8} {h : CperHeader}
    (hg : getRange slice 0 recordHeaderSize = some hb) (hh : CperHeader.fromSlice hb = some h) :
    fromSlice slice =
      some (normalize ⟨h, (List.range h.sectionCount.toNat).filterMap (sectionFromSlice slice)⟩) := by
  unfold fromSlice
  rw [hg]
  dsimp only
  rw [hh]

theorem fromSlice_eq_some {slice : List UInt8} {c : Cper} (h : fromSlice slice = some c) :
    ∃ hdr secs, c = normalize ⟨hdr, secs⟩ ∧ ∀ sec ∈ secs, ∃ i, sectionFromSlice slice i = some sec := by
  unfold fromSlice at h
  split at h
  · split at h
    · cases h
      exact ⟨_, _, rfl, fun sec hm => let ⟨i, _, hs⟩ := List.mem_filterMap.mp hm; ⟨i, hs⟩⟩
    · cases h
  · cases h

theorem sectionFromSlice_of {slice db bytes : List UInt8} {d : CperSectionDescriptor}
    {body : CperSectionBody}
    (hg : getFrom slice (recordHeaderSize + i * sectionDescriptorSize) = some db)
    (hd : CperSectionDescriptor.fromSlice db = some d)
    (hr : getRange slice d.sectionOffset.toNat (d.sectionOffset.toNat + d.sectionLength.toNat) =
      some bytes)
    (hb : CperSectionBody.fromSlice d.sectionType bytes = some body) :
    sectionFromSlice slice i = some ⟨d, body⟩ := by
  simp only [sectionFromSlice, hg, hd, hr, hb]

theorem getRange_toBytes_header (c : Cper) :
    getRange c.toBytes 0 recordHeaderSize = some c.recordHeader.toBytes := by
  rw [toBytes, List.append_assoc]
  exact getRange_append_self _ (CperHeader.length_toBytes _)

theorem getFrom_toBytes_descriptor {c : Cper} (hi : c.sections[i]? = some sec) :
    ∃ rest, getFrom c.toBytes (recordHeaderSize + i * sectionDescriptorSize) =
      some (sec.descriptor.toBytes ++ rest) := by
  have hlt := (List.getElem?_eq_some_iff.mp hi).1
  refine ⟨(c.sections.drop (i + 1)).flatMap (·.descriptor.toBytes) ++
    c.sections.flatMap CperSection.bodyBytes, ?_⟩
  rw [getFrom, if_pos, toBytes_drop_descriptor hi]
  rw [length_toBytes, layoutSize]
  have := Nat.mul_le_mul_right sectionDescriptorSize hlt.le
  rw [Nat.mul_comm sectionDescriptorSize]
  omega

theorem place_of_normalized {c : Cper} (hn : c.normalize = c) (hi : c.sections[i]? = some sec) :
    place (c.bodyOffset i) sec = sec := by
  have h := getElem?_normalize c i
  rw [hn, hi] at h
  exact (Option.some.inj h).symm

theorem sectionFromSlice_toBytes {c : Cper} (hn : c.normalize = c) (hT : c.layoutSize < 2 ^ 32)
    (hi : c.sections[i]? = some sec) :
    sectionFromSlice c.toBytes i = sec.reparse := by
  have hp := place_of_normalized hn hi
  obtain ⟨rest, hd⟩ := getFrom_toBytes_descriptor hi
  have hdesc : CperSectionDescriptor.fromSlice (sec.descriptor.toBytes ++ rest) =
      some sec.descriptor := by
    rw [← hp]
    exact CperSectionDescriptor.fromSlice_toBytes_append _ rest
  have hoff : sec.descriptor.sectionOffset.toNat = c.bodyOffset i := by
    rw [← hp, place_descriptor_sectionOffset]
    exact UInt32.toNat_ofNat_of_lt (lt_of_le_of_lt (bodyOffset_le_layoutSize c i) hT)
  have hbody := getRange_toBytes_body hi
  rw [← hoff] at hbody
  simp only [sectionFromSlice, hd, hdesc, CperSection.length] at hbody ⊢
  simp only [hbody, CperSection.reparse]
  cases CperSectionBody.fromSlice sec.descriptor.sectionType sec.bodyBytes <;> rfl

theorem fromSlice_toBytes_eq (c : Cper) (hn : c.normalize = c) (hN : c.sections.length < 2 ^ 16)
    (hT : c.layoutSize < 2 ^ 32) :
    fromSlice c.toBytes = some (normalize ⟨c.recordHeader, c.sections.filterMap CperSection.reparse⟩) := by
  have hh : c.recordHeader = (c.normalize.recordHeader).normalize := by
    conv_lhs => rw [← hn]
    rw [normalize_recordHeader, CperHeader.normalize_normalize]
  have hcount : c.recordHeader.sectionCount.toNat = c.sections.length := by
    rw [← hn, normalize_recordHeader, length_sections_normalize]
    exact UInt16.toNat_ofNat_of_lt hN
  have hheader : CperHeader.fromSlice c.recordHeader.toBytes = some c.recordHeader := by
    rw [hh]
    exact CperHeader.fromSlice_toBytes _
  rw [fromSlice_of_header (getRange_toBytes_header c) hheader, hcount,
    filterMap_range_eq fun i hi => sectionFromSlice_toBytes hn hT (List.getElem?_eq_getElem hi)]

/-- The round trip for a record whose sections are all `Exact`. -/
theorem fromSlice_toBytes (c : Cper) (hn : c.normalize = c) (hN : c.sections.length < 2 ^ 16)
    (hT : c.layoutSize < 2 ^ 32) (hs : ∀ sec ∈ c.sections, sec.Exact) :
    fromSlice c.toBytes = some c := by
  rw [fromSlice_toBytes_eq c hn hN hT,
    List.filterMap_congr fun sec hsec => CperSection.reparse_of_exact (hs sec hsec),
    List.filterMap_some]
  exact congrArg some hn

end Cper

-- ---------------------------------------------------------------------------
-- Reachable records
-- ---------------------------------------------------------------------------

/-- What every section of a record the library builds satisfies: its descriptor
has the body's type and the body's length cast to `u32`, and its body is one
`CperSectionBody::from_slice` returned or the record of a region. -/
def CperSection.Sound (sec : CperSection) : Prop :=
  sec.descriptor.sectionType = sec.body.guid ∧ sec.length = sec.body.len % 2 ^ 32 ∧
    ((∃ g s, CperSectionBody.fromSlice g s = some sec.body) ∨
      ∃ region, sec.body = .firmwareErrorRecord (FirmwareErrorRecord.fromCrashlogRegion region))

/-- The records built from bytes by `from_slice`, from a Crash Log by
`from_raw_crashlog` whose extra sections were themselves read, and by
appending a read body or the section of a region. -/
inductive Cper.Reachable : Cper → Prop
  | parsed {slice c} : Cper.fromSlice slice = some c → Cper.Reachable c
  | raw {cl : CrashLog} :
      (∀ b ∈ cl.metadata.extraCperSections, ∃ g s, CperSectionBody.fromSlice g s = some b) →
        Cper.Reachable (Cper.fromRawCrashlog cl)
  | appendBody {c body} (g s) : Cper.Reachable c → CperSectionBody.fromSlice g s = some body →
      Cper.Reachable (c.appendSection (CperSection.fromBody body))
  | appendRegion {c} (region) : Cper.Reachable c →
      Cper.Reachable (c.appendSection (Cper.regionSection region))

namespace CperSection

theorem Sound.place {sec : CperSection} (h : sec.Sound) (cursor : Nat) :
    (Cper.place cursor sec).Sound := h

theorem sound_fromBody {b : CperSectionBody} (hb : ∃ g s, CperSectionBody.fromSlice g s = some b) :
    (fromBody b).Sound :=
  ⟨rfl, rfl, .inl hb⟩

theorem sound_regionSection (region : List UInt8) : (Cper.regionSection region).Sound :=
  ⟨rfl, rfl, .inr ⟨region, rfl⟩⟩

theorem sound_of_sectionFromSlice {slice : List UInt8} {i : Nat} {sec : CperSection}
    (h : Cper.sectionFromSlice slice i = some sec) : sec.Sound := by
  unfold Cper.sectionFromSlice at h
  cases hd : getFrom slice (recordHeaderSize + i * sectionDescriptorSize) <;>
    simp only [hd, reduceCtorEq] at h
  rename_i descriptorBytes
  cases hdesc : CperSectionDescriptor.fromSlice descriptorBytes <;> simp only [hdesc, reduceCtorEq] at h
  rename_i d
  cases hr : getRange slice d.sectionOffset.toNat (d.sectionOffset.toNat + d.sectionLength.toNat) <;>
    simp only [hr, reduceCtorEq] at h
  rename_i bytes
  cases hb : CperSectionBody.fromSlice d.sectionType bytes <;>
    simp only [hb, reduceCtorEq, Option.some.injEq] at h
  subst h
  obtain ⟨hg, hl⟩ := CperSectionBody.fromSlice_guid_len hb
  have hlen : bytes.length = d.sectionLength.toNat := by
    rw [length_of_getRange hr]
    omega
  refine ⟨hg.symm, ?_, .inl ⟨_, _, hb⟩⟩
  rw [hl, hlen, Nat.mod_eq_of_lt d.sectionLength.toNat_lt]
  rfl

theorem Sound.exact {sec : CperSection} (hs : sec.Sound) (hx : sec.body.headerExact)
    (hl : sec.body.len < 2 ^ 32) : sec.Exact := by
  obtain ⟨hg, hlen, hb | ⟨region, hr⟩⟩ := hs
  · obtain ⟨g, s, hb⟩ := hb
    refine ⟨?_, ?_⟩
    · rw [(CperSectionBody.length_toBytes_iff _).mpr hx, hlen, Nat.mod_eq_of_lt hl]
    · rw [hg, (CperSectionBody.fromSlice_guid_len hb).1]
      exact (CperSectionBody.fromSlice_toBytes_iff hb).mpr hx
  · refine ⟨?_, ?_⟩
    · rw [(CperSectionBody.length_toBytes_iff _).mpr hx, hlen, Nat.mod_eq_of_lt hl]
    · rw [hg, hr]
      exact CperSectionBody.fromSlice_toBytes_fromCrashlogRegion region

end CperSection

namespace Cper

theorem sound_normalize {c : Cper} (h : ∀ sec ∈ c.sections, sec.Sound) :
    ∀ sec ∈ c.normalize.sections, sec.Sound := by
  intro sec hsec
  obtain ⟨i, hi⟩ := List.mem_iff_getElem?.mp hsec
  rw [getElem?_normalize] at hi
  obtain ⟨sec0, h0, rfl⟩ := Option.map_eq_some'.mp hi
  exact (h sec0 (List.getElem?_mem h0)).place _

theorem sound_appendSection {c : Cper} {sec : CperSection} (h : ∀ s ∈ c.sections, s.Sound)
    (hs : sec.Sound) : ∀ s ∈ (c.appendSection sec).sections, s.Sound :=
  sound_normalize fun s hm => (List.mem_append.mp hm).elim (h s) fun hm => by
    rw [List.mem_singleton.mp hm]
    exact hs

/-- Every section of a reachable record is sound. -/
theorem Reachable.sound {c : Cper} (hc : c.Reachable) : ∀ sec ∈ c.sections, sec.Sound := by
  induction hc with
  | parsed h =>
    obtain ⟨_, _, rfl, hs⟩ := fromSlice_eq_some h
    exact sound_normalize fun sec hm =>
      let ⟨_, hi⟩ := hs sec hm
      CperSection.sound_of_sectionFromSlice hi
  | @raw cl hx =>
    rw [fromRawCrashlog_eq]
    split
    · simp
    · refine sound_normalize fun sec hm => ?_
      rcases List.mem_append.mp hm with hm | hm
      · obtain ⟨region, -, rfl⟩ := List.mem_map.mp hm
        exact CperSection.sound_regionSection region
      · obtain ⟨b, hb, rfl⟩ := List.mem_map.mp hm
        exact CperSection.sound_fromBody (hx b hb)
  | appendBody g s _ hb ih => exact sound_appendSection ih (CperSection.sound_fromBody ⟨g, s, hb⟩)
  | appendRegion region _ ih => exact sound_appendSection ih (CperSection.sound_regionSection region)

/-- A reachable record is normalized, except the one `from_raw_crashlog` builds
with no section and a timestamp, whose validation bit it never sets. -/
theorem Reachable.normalized {c : Cper} (hc : c.Reachable)
    (hne : c.sections ≠ [] ∨ c.recordHeader.timestamp = none) : c.normalize = c := by
  induction hc with
  | parsed h =>
    obtain ⟨_, _, rfl, -⟩ := fromSlice_eq_some h
    exact normalize_normalize _
  | @raw cl _ =>
    revert hne
    rw [fromRawCrashlog_eq]
    split
    · rintro (h | h)
      · exact absurd rfl h
      · obtain ⟨regions, time, extras⟩ := cl
        cases time with
        | none => rfl
        | some _ => cases h
    · intro _
      exact normalize_normalize _
  | appendBody => exact normalize_normalize _
  | appendRegion => exact normalize_normalize _

/-- Every record the library builds, with a section or no timestamp, whose
bodies have exact headers and fit the `u32` casts of `normalize`, is read back
from its bytes. -/
theorem Reachable.fromSlice_toBytes_self {c : Cper} (hc : c.Reachable)
    (hne : c.sections ≠ [] ∨ c.recordHeader.timestamp = none)
    (hx : ∀ sec ∈ c.sections, sec.body.headerExact) (hl : ∀ sec ∈ c.sections, sec.body.len < 2 ^ 32)
    (hN : c.sections.length < 2 ^ 16) (hT : c.layoutSize < 2 ^ 32) :
    fromSlice c.toBytes = some c :=
  Cper.fromSlice_toBytes c (hc.normalized hne) hN hT fun sec hs =>
    (hc.sound sec hs).exact (hx sec hs) (hl sec hs)

theorem Reachable.fromSlice_toBytes_region :
    fromSlice (fromRawCrashlog ⟨[[1, 2, 3]], ⟨none, []⟩⟩).toBytes =
      some (fromRawCrashlog ⟨[[1, 2, 3]], ⟨none, []⟩⟩) :=
  Reachable.fromSlice_toBytes_self (.raw (by simp)) (.inr rfl) (by decide) (by decide)
    (by decide) (by decide)

/-- A Firmware Error Record of revision 0, read from 17 bytes and appended by
`from_raw_crashlog`, does not come back: `to_bytes` writes its header as 32
bytes, `body_bytes` keeps the first 17, and the payload read back is the
first byte of the GUID that revision 0 has no room for. -/
theorem fromSlice_toBytes_revision0 :
    CperSectionBody.fromSlice fwErrorRecordGuid (List.replicate 16 0 ++ [0x5A]) =
        some (.firmwareErrorRecord ⟨⟨0, 0, 0, Guid.zero⟩, [0x5A]⟩) ∧
      (fromSlice (fromRawCrashlog ⟨[], ⟨none, [.firmwareErrorRecord ⟨⟨0, 0, 0, Guid.zero⟩, [0x5A]⟩]⟩⟩).toBytes).map
          (·.sections.map (·.body)) =
        some [.firmwareErrorRecord ⟨⟨0, 0, 0, Guid.zero⟩, [0]⟩] := by
  have hb : CperSectionBody.fromSlice fwErrorRecordGuid (List.replicate 16 0 ++ [0x5A]) =
      some (.firmwareErrorRecord ⟨⟨0, 0, 0, Guid.zero⟩, [0x5A]⟩) := by decide
  have hc : Reachable (fromRawCrashlog
      ⟨[], ⟨none, [.firmwareErrorRecord ⟨⟨0, 0, 0, Guid.zero⟩, [0x5A]⟩]⟩⟩) :=
    .raw fun b hm => ⟨_, _, (List.mem_singleton.mp hm) ▸ hb⟩
  refine ⟨hb, ?_⟩
  rw [fromSlice_toBytes_eq _ (hc.normalized (.inl (by decide))) (by decide) (by decide)]
  decide

-- ---------------------------------------------------------------------------
-- A parsed layout that does not fit its fields
-- ---------------------------------------------------------------------------

theorem fromSlice_one_section {H : CperHeader} {D : CperSectionDescriptor} {rest : List UInt8}
    (hH : H.normalize = H) (hcount : H.sectionCount.toNat = 1) (hD : D.normalize = D)
    (hty : D.sectionType ≠ fwErrorRecordGuid)
    (hin : D.sectionOffset.toNat + D.sectionLength.toNat ≤
      recordHeaderSize + sectionDescriptorSize + rest.length) :
    fromSlice (H.toBytes ++ D.toBytes ++ rest) =
      some (normalize ⟨H, [⟨D, .unknown D.sectionType
        (((H.toBytes ++ D.toBytes ++ rest).drop D.sectionOffset.toNat).take D.sectionLength.toNat)⟩]⟩) := by
  have hlen : (H.toBytes ++ D.toBytes ++ rest).length =
      recordHeaderSize + sectionDescriptorSize + rest.length := by
    simp only [List.length_append, CperHeader.length_toBytes, CperSectionDescriptor.length_toBytes]
  have hg : getFrom (H.toBytes ++ D.toBytes ++ rest) (recordHeaderSize + 0 * sectionDescriptorSize) =
      some (D.toBytes ++ rest) := by
    rw [getFrom_eq_some_iff, hlen, List.append_assoc, Nat.zero_mul, Nat.add_zero,
      List.drop_left' (CperHeader.length_toBytes _)]
    exact ⟨by omega, rfl⟩
  have hr : getRange (H.toBytes ++ D.toBytes ++ rest) D.sectionOffset.toNat
      (D.sectionOffset.toNat + D.sectionLength.toNat) =
        some (((H.toBytes ++ D.toBytes ++ rest).drop D.sectionOffset.toNat).take D.sectionLength.toNat) := by
    rw [getRange_eq_some_iff, hlen, Nat.add_sub_cancel_left]
    exact ⟨Nat.le_add_right _ _, hin, rfl⟩
  have hsec := sectionFromSlice_of hg (hD ▸ CperSectionDescriptor.fromSlice_toBytes_append D rest) hr
    (if_neg hty)
  have hhb : getRange (H.toBytes ++ D.toBytes ++ rest) 0 recordHeaderSize = some H.toBytes := by
    rw [List.append_assoc]
    exact getRange_append_self _ (CperHeader.length_toBytes _)
  have hhdr : CperHeader.fromSlice H.toBytes = some H := hH ▸ CperHeader.fromSlice_toBytes H
  rw [fromSlice_of_header hhb hhdr, hcount, show List.range 1 = [0] from rfl,
    List.filterMap_cons_some hsec]
  rfl

/-- `from_slice` bounds each section by the buffer, not the layout: a buffer of
`128 + 72 + 2 ^ 32` bytes whose one descriptor declares `u32::MAX` bytes at
offset 0 is read as a record of layout `200 + u32::MAX`, and `normalize` stores
that length as 199. -/
theorem fromSlice_layout_overflows :
    ∃ c, fromSlice ({ CperHeader.default with sectionCount := 1 }.toBytes ++
        { CperSectionDescriptor.default with sectionLength := 0xFFFFFFFF }.toBytes ++
        List.replicate (2 ^ 32) 0) = some c ∧
      c.sections.length = 1 ∧ c.toBytes.length = 2 ^ 32 + 199 ∧
      c.recordHeader.recordLength.toNat = 199 := by
  set D : CperSectionDescriptor := { CperSectionDescriptor.default with sectionLength := 0xFFFFFFFF }
  have hoff : D.sectionOffset.toNat = 0 := rfl
  have hsl : D.sectionLength.toNat = 2 ^ 32 - 1 := rfl
  refine ⟨_, fromSlice_one_section rfl rfl rfl (by decide) (by
    rw [hoff, hsl, List.length_replicate]
    simp only [recordHeaderSize, sectionDescriptorSize]
    omega), ?_⟩
  have hT : ∀ body, (⟨{ CperHeader.default with sectionCount := 1 }, [⟨D, body⟩]⟩ : Cper).layoutSize =
      2 ^ 32 + 199 := fun body => by
    simp only [layoutSize, List.length_singleton, List.map_cons, List.map_nil, List.sum_cons,
      List.sum_nil, CperSection.length, hsl, recordHeaderSize, sectionDescriptorSize]
    omega
  rw [length_toBytes, layoutSize_normalize, hT, normalize_recordHeader, hT]
  exact ⟨rfl, rfl, rfl⟩

end Cper

end CrashLog
