import CrashLog.Cper.RoundTrip

/-!
# From CPER back to a Crash Log

`lib.rs` is not among the sources, so `CrashLog::from_cper` is modelled from the
spec: it goes through the sections of a record; the payload of a Firmware Error
Record whose GUID is `RECORD_ID_CRASHLOG` is read as a region, and every other
section body is pushed into the extra CPER sections. Reading a payload as a
`Region` is left out with `region.rs`: a region is its bytes, as in `CrashLog`,
so the error a payload that is no region would give is not modelled.

The regions are the payloads of the region records among the section bodies, and
the extra sections are the other bodies, in order (`fromCper_eq`). A Crash Log
written as CPER and read back has the sections `from_raw_crashlog` made, with or
without a timestamp (`sections_fromSlice_toBytes_fromRawCrashlog`). So
`from_cper` gives back the Crash Log's regions, followed by the payload of every
extra section that is itself the record of a region, and the other extra
sections (`fromCper_fromSlice_toBytes`): the round trip keeps the
regions and the extra sections exactly when no extra section is the record of a
region.
-/

namespace CrashLog

/-- The region a section body carries: the payload of a Firmware Error Record
under the Crash Log's GUID. -/
def CperSectionBody.region? : CperSectionBody → Option (List UInt8)
  | .firmwareErrorRecord fer =>
    if fer.header.guid = recordIdCrashlogGuid then some fer.payload else none
  | .unknown .. => none

/-- One pass of the loop of `CrashLog::from_cper`: a region, or an extra section. -/
def fromCperStep (acc : List (List UInt8) × List CperSectionBody) (sec : CperSection) :
    List (List UInt8) × List CperSectionBody :=
  match sec.body.region? with
  | some region => (acc.1 ++ [region], acc.2)
  | none => (acc.1, acc.2 ++ [sec.body])

set_option linter.dupNamespace false in
/-- Modelled from the spec: `CrashLog::from_cper`, the regions and the extra CPER
sections. -/
def CrashLog.fromCper (cper : Cper) : List (List UInt8) × List CperSectionBody :=
  cper.sections.foldl fromCperStep ([], [])

@[simp] theorem region?_fromCrashlogRegion (region : List UInt8) :
    (CperSectionBody.firmwareErrorRecord
        (FirmwareErrorRecord.fromCrashlogRegion region)).region? = some region := by
  simp [CperSectionBody.region?, FirmwareErrorRecord.fromCrashlogRegion]

-- ---------------------------------------------------------------------------
-- The loop
-- ---------------------------------------------------------------------------

theorem foldl_fromCperStep (secs : List CperSection)
    (acc : List (List UInt8) × List CperSectionBody) :
    secs.foldl fromCperStep acc =
      (acc.1 ++ (secs.map (·.body)).filterMap CperSectionBody.region?,
        acc.2 ++ (secs.map (·.body)).filter (·.region?.isNone)) := by
  induction secs generalizing acc with
  | nil => simp
  | cons sec secs ih =>
    rw [List.foldl_cons, ih]
    cases h : sec.body.region? <;> simp [fromCperStep, h]

theorem fromCper_eq (cper : Cper) :
    CrashLog.fromCper cper =
      ((cper.sections.map (·.body)).filterMap CperSectionBody.region?,
        (cper.sections.map (·.body)).filter (·.region?.isNone)) := by
  rw [CrashLog.fromCper, foldl_fromCperStep]
  simp

-- ---------------------------------------------------------------------------
-- The bodies of a record written and read back
-- ---------------------------------------------------------------------------

namespace Cper

theorem map_body_normalize (c : Cper) :
    c.normalize.sections.map (·.body) = c.sections.map (·.body) :=
  List.ext_getElem? fun i => by
    simp only [List.getElem?_map, getElem?_normalize, Option.map_map]
    rfl

theorem map_body_fromRawCrashlog (cl : CrashLog) :
    (fromRawCrashlog cl).sections.map (·.body) =
      cl.regions.map (fun region =>
          .firmwareErrorRecord (FirmwareErrorRecord.fromCrashlogRegion region)) ++
        cl.metadata.extraCperSections := by
  rw [fromRawCrashlog_eq]
  split
  next h => simp [h.1, h.2]
  next =>
    rw [map_body_normalize]
    simp [Function.comp_def, regionSection, CperSection.fromCrashlogRegion, CperSection.fromBody]

/-- A Crash Log written as CPER is read back with the sections `from_raw_crashlog`
made, when its extra sections were read by `CperSectionBody::from_slice`, have
exact headers and fit the casts of `normalize`. A Crash Log with no section is
read back with none, whether or not it has a timestamp. -/
theorem sections_fromSlice_toBytes_fromRawCrashlog (cl : CrashLog)
    (hb : ∀ b ∈ cl.metadata.extraCperSections, ∃ g s, CperSectionBody.fromSlice g s = some b)
    (hx : ∀ b ∈ cl.metadata.extraCperSections, b.headerExact)
    (hl : ∀ sec ∈ (fromRawCrashlog cl).sections, sec.body.len < 2 ^ 32)
    (hN : (fromRawCrashlog cl).sections.length < 2 ^ 16)
    (hT : (fromRawCrashlog cl).layoutSize < 2 ^ 32) :
    (fromSlice (fromRawCrashlog cl).toBytes).map (·.sections) =
      some (fromRawCrashlog cl).sections := by
  by_cases hempty : cl.regions = [] ∧ cl.metadata.extraCperSections = []
  · have hc : fromRawCrashlog cl = ⟨crashlogHeader cl, []⟩ := by
      rw [fromRawCrashlog_eq, if_pos hempty]
    rw [hc, fromSlice_of_header (getRange_toBytes_header _) (CperHeader.fromSlice_toBytes_eq _)]
    rfl
  · have hbodies := map_body_fromRawCrashlog cl
    have hne : (fromRawCrashlog cl).sections ≠ [] := fun he =>
      hempty (by simpa [he, eq_comm (a := ([] : List CperSectionBody))] using hbodies)
    have hexact : ∀ sec ∈ (fromRawCrashlog cl).sections, sec.body.headerExact := by
      intro sec hs
      have hm : sec.body ∈ (fromRawCrashlog cl).sections.map (·.body) :=
        List.mem_map_of_mem _ hs
      rw [hbodies, List.mem_append, List.mem_map] at hm
      rcases hm with ⟨region, -, hr⟩ | hm
      · rw [← hr]
        rfl
      · exact hx _ hm
    have hc : (fromRawCrashlog cl).Reachable := .raw hb
    rw [fromSlice_toBytes _ (hc.normalized (.inl hne)) hN hT fun sec hs =>
      (hc.sound sec hs).exact (hexact sec hs) (hl sec hs)]
    rfl

end Cper

/-- A Crash Log written as CPER and read back by `from_cper` gives its regions
back, followed by the payload of every extra section that is itself the record
of a region; the other extra sections come back as the extra sections, in
order. -/
theorem fromCper_fromSlice_toBytes (cl : CrashLog)
    (hb : ∀ b ∈ cl.metadata.extraCperSections, ∃ g s, CperSectionBody.fromSlice g s = some b)
    (hx : ∀ b ∈ cl.metadata.extraCperSections, b.headerExact)
    (hl : ∀ sec ∈ (Cper.fromRawCrashlog cl).sections, sec.body.len < 2 ^ 32)
    (hN : (Cper.fromRawCrashlog cl).sections.length < 2 ^ 16)
    (hT : (Cper.fromRawCrashlog cl).layoutSize < 2 ^ 32) :
    (Cper.fromSlice (Cper.fromRawCrashlog cl).toBytes).map CrashLog.fromCper =
      some (cl.regions ++ cl.metadata.extraCperSections.filterMap CperSectionBody.region?,
        cl.metadata.extraCperSections.filter (·.region?.isNone)) := by
  obtain ⟨c, hc, hsec⟩ :=
    Option.map_eq_some'.mp (Cper.sections_fromSlice_toBytes_fromRawCrashlog cl hb hx hl hN hT)
  rw [hc, Option.map_some', fromCper_eq, hsec, Cper.map_body_fromRawCrashlog]
  simp [List.filterMap_append, List.filter_append, List.filterMap_map, List.filter_map,
    Function.comp_def]

-- A Crash Log with one region and an extra section that is itself the record of a region, which
-- `from_cper` reads back as a second region.
def regionExtraCrashlog : CrashLog :=
  ⟨[[1, 2, 3]], ⟨none, [.firmwareErrorRecord (FirmwareErrorRecord.fromCrashlogRegion [7])]⟩⟩

theorem fromCper_fromSlice_toBytes_regionExtra :
    (∀ b ∈ regionExtraCrashlog.metadata.extraCperSections,
        ∃ g s, CperSectionBody.fromSlice g s = some b) ∧
      (∀ b ∈ regionExtraCrashlog.metadata.extraCperSections, b.headerExact) ∧
      (Cper.fromSlice (Cper.fromRawCrashlog regionExtraCrashlog).toBytes).map CrashLog.fromCper =
        some (regionExtraCrashlog.regions ++
            regionExtraCrashlog.metadata.extraCperSections.filterMap CperSectionBody.region?,
          regionExtraCrashlog.metadata.extraCperSections.filter (·.region?.isNone)) :=
  have hb : ∀ b ∈ regionExtraCrashlog.metadata.extraCperSections,
      ∃ g s, CperSectionBody.fromSlice g s = some b := fun b hb => by
    rw [List.mem_singleton.mp hb]
    exact ⟨fwErrorRecordGuid, (FirmwareErrorRecord.fromCrashlogRegion [7]).toBytes, by decide⟩
  have hx : ∀ b ∈ regionExtraCrashlog.metadata.extraCperSections, b.headerExact := by decide
  ⟨hb, hx, fromCper_fromSlice_toBytes _ hb hx (by decide) (by decide) (by decide)⟩

example :
    (regionExtraCrashlog.regions ++
        regionExtraCrashlog.metadata.extraCperSections.filterMap CperSectionBody.region?,
      regionExtraCrashlog.metadata.extraCperSections.filter (·.region?.isNone)) =
      ([[1, 2, 3], [7]], []) := by
  decide

end CrashLog
