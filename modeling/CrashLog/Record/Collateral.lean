import CrashLog.Header.Collateral
import CrashLog.Node.Merge
import CrashLog.Record.Decode

/-!
# Decoding a record into its place in the tree

`decode.rs` and `core.rs`: the decoders that put a record's tree into a tree of
the whole system. `decode_without_cm` decodes the header only; `decode` asks
the collateral manager for a decode definition (`decode_with_decode_def`; for
a core record, `decode_as_core_record`, which files the tree under the
module, core and thread of its `hdr.whoami`), falls back to the header on any
error, and places the result under `processors.cpu<socket>.<die>` when the
header or the record's context names a socket and a die.

Every tree `decode` returns has distinct keys at every level
(`Record.decode_uniqueNames`); the record's tree is found below its root path
(`Record.getByPath_decode`, `Record.getByPath_decodeWithoutCm`); a core
record's tree is found below its own whoami levels
(`Record.decodeAsCoreRecord_placement`); and with a collateral tree that has
nothing for the record, `decode` gives what `decode_without_cm` gives
(`Record.decode_eq_decodeWithoutCm`).
-/

namespace CrashLog

/-- `Context`: the socket and die ids `Record::get_root_path` reads. The
`Context` of `record.rs` declares only `parent_header`, which no decoder
reads; `decode.rs` reads these two. -/
structure Context where
  socketId : Option UInt8
  dieId : Option UInt8
  deriving DecidableEq, Repr

/-- The end of `decode_without_cm` and `decode`: `create_hierarchy` of the root
path on a new root and `merge` of the record's tree at its end, or the merge
into the root itself when there is no root path. -/
def placeAt (customRoot : Option String) (record : Node) : Node :=
  match customRoot with
  | some customRoot => Node.root.createHierarchy customRoot (·.merge record)
  | none => Node.root.merge record

/-- The segments of a root path; none without one. -/
def rootSegments : Option String → List String
  | some customRoot => split customRoot '.'
  | none => []

namespace Record

/-- `Record::get_root_path`. -/
def getRootPath (r : Record) (context : Context) : Option String :=
  match r.header.getRootPath with
  | some customRoot => some customRoot
  | none =>
    match context.socketId, context.dieId with
    | some socketId, some dieId =>
      some ("processors.cpu" ++ toString socketId ++ ".die" ++ toString dieId)
    | _, _ => none

/-- `Record::get_root_path_using_cm`. -/
def getRootPathUsingCm (r : Record) (cm : CollateralManager) (context : Context) : Option String :=
  match r.header.getRootPathUsingCm cm with
  | some customRoot => some customRoot
  | none =>
    match context.socketId, context.dieId with
    | some socketId, some dieId =>
      let die := match r.header.getDieName dieId cm with
        | some dieName => dieName
        | none => "die" ++ toString dieId
      some ("processors.cpu" ++ toString socketId ++ "." ++ die)
    | _, _ => none

/-- `Record::decode_without_cm`. -/
def decodeWithoutCm (r : Record) (context : Context) : Node :=
  placeAt (r.getRootPath context) r.decodeHeader

/-- `Record::decode_with_decode_def`: the layout of the first candidate path the
collateral tree resolves, decoded at `offset`, merged into a new root. -/
def decodeWithDecodeDef (r : Record) (cm : CollateralManager) (decodeDef : String) (offset : Nat) :
    Except Error Node := do
  let paths ← r.header.decodeDefinitionsPaths cm
  match paths.findSome? fun path => cm.getItemWithHeader r.header (path ++ [decodeDef]) with
  | some layout => return Node.root.merge (← r.decodeWithCsv layout offset)
  | none => throw (.missingDecodeDefinitions r.header.version)

/-- The levels `decode_as_core_record` reads from `hdr.whoami`, as `module<id>`,
`core<id>` and `thread<id>`, each left out when the tree has no value for it. -/
def whoamiHierarchy (subsection : Node) : List String :=
  ["module", "core", "thread"].filterMap fun level =>
    (subsection.getValueByPath ("hdr.whoami." ++ level ++ "_id")).map (level ++ toString ·)

/-- The first lines of `decode_as_core_record`'s loop: the subsection's layout
at offset 0, with the first extension layout that decodes at the extended
record's offset merged in. -/
def decodeCoreLayouts (r : Record) (cm : CollateralManager) (subsectionName : String) :
    Option Node := do
  let root ← (r.decodeWithDecodeDef cm ("layout_" ++ subsectionName ++ ".csv") 0).toOption
  match r.header.extendedRecordOffset with
  | some offset =>
    match ["layout_sq.csv", "layout_module.csv"].findSome? fun decodeDef =>
        (r.decodeWithDecodeDef cm decodeDef offset).toOption with
    | some extension => pure (root.merge extension)
    | none => pure root
  | none => pure root

/-- One pass of `decode_as_core_record`'s loop; `none` where the loop goes on
to the next subsection. -/
def decodeCoreSubsection (r : Record) (cm : CollateralManager) (recordSection : Node)
    (subsectionName : String) : Option Node := do
  let root ← r.decodeCoreLayouts cm subsectionName
  let subsection ← root.get subsectionName
  some (Node.root.add (recordSection.updateAt (whoamiHierarchy subsection) (·.merge root)))

/-- `Record::decode_as_core_record`. -/
def decodeAsCoreRecord (r : Record) (cm : CollateralManager) : Except Error Node := do
  let recordSection := Node.section (← r.header.recordType)
  match ["thread", "core"].findSome? (r.decodeCoreSubsection cm recordSection) with
  | some root => pure root
  | none => throw (.missingDecodeDefinitions r.header.version)

/-- The record's tree `decode` asks for: a core record's, or the one of
`layout.csv`. -/
def decodeRecord (r : Record) (cm : CollateralManager) : Except Error Node :=
  let isCore := (r.header.version.recordType == recordTypePcore ||
      r.header.version.recordType == recordTypeEcore) &&
    !r.header.version.intoErrata.type0LegacyServerBox
  if isCore then r.decodeAsCoreRecord cm else r.decodeWithDecodeDef cm "layout.csv" 0

/-- `record_node` of `decode`: on an error, only the header is decoded. -/
def recordNode (r : Record) (cm : CollateralManager) : Node :=
  match r.decodeRecord cm with
  | .ok node => node
  | .error _ => r.decodeHeader

/-- `Record::decode`. -/
def decode (r : Record) (cm : CollateralManager) (context : Context) : Node :=
  placeAt (r.getRootPathUsingCm cm context) (r.recordNode cm)

end Record

-- ---------------------------------------------------------------------------
-- Placing a tree below a root path
-- ---------------------------------------------------------------------------

theorem uniqueNames_placeAt {t : Node} (ht : t.UniqueNames) (customRoot : Option String) :
    (placeAt customRoot t).UniqueNames := by
  cases customRoot with
  | some p =>
    exact Node.UniqueNames.updateAt (Node.name_merge · t) (fun _ hm => hm.merge ht) _ (.leaf _ _ _)
  | none => exact (Node.UniqueNames.leaf _ _ _).merge ht

theorem getByPath_placeAt {t : Node} (ht : t.UniqueNames) (customRoot : Option String)
    (name : String) (q : List String) :
    (placeAt customRoot t).getByPath (rootSegments customRoot ++ name :: q) =
      t.getByPath (name :: q) := by
  cases customRoot with
  | some p => exact Node.getByPath_updateAt_merge ht _ rfl name q
  | none => exact Node.getByPath_updateAt_merge ht [] rfl name q

-- ---------------------------------------------------------------------------
-- What each decoder returns
-- ---------------------------------------------------------------------------

namespace Record

variable {r : Record} {cm : CollateralManager}

theorem decodeWithDecodeDef_eq_ok {decodeDef : String} {offset : Nat} {root : Node}
    (h : r.decodeWithDecodeDef cm decodeDef offset = .ok root) :
    ∃ paths layout t, r.header.decodeDefinitionsPaths cm = .ok paths ∧
      paths.findSome? (fun path => cm.getItemWithHeader r.header (path ++ [decodeDef])) =
        some layout ∧
      r.decodeWithCsv layout offset = .ok t ∧ root = Node.root.merge t := by
  unfold decodeWithDecodeDef at h
  cases hp : r.header.decodeDefinitionsPaths cm with
  | error e => simp [hp, bind, Except.bind] at h
  | ok paths =>
    simp only [hp, bind, Except.bind] at h
    split at h
    next layout hl =>
      cases ht : r.decodeWithCsv layout offset with
      | error e => simp [ht, pure, Except.pure] at h
      | ok t =>
        simp only [ht, pure, Except.pure, Except.ok.injEq] at h
        exact ⟨paths, layout, t, rfl, hl, ht, h.symm⟩
    next => simp [throw, throwThe, MonadExceptOf.throw] at h

theorem uniqueNames_of_decodeWithDecodeDef {decodeDef : String} {offset : Nat} {root : Node}
    (h : r.decodeWithDecodeDef cm decodeDef offset = .ok root) : root.UniqueNames := by
  obtain ⟨-, layout, t, -, -, ht, rfl⟩ := decodeWithDecodeDef_eq_ok h
  rw [decodeWithCsv_eq_map] at ht
  cases hes : layoutEntries layout with
  | error e => rw [hes] at ht; cases ht
  | ok es =>
    rw [hes] at ht
    cases ht
    exact (Node.UniqueNames.leaf _ _ _).merge
      ((keepsRoot_foldl _ es _).2.2 (Node.UniqueNames.leaf _ _ _))

theorem toOption_eq_some {ε α : Type} {x : Except ε α} {a : α} :
    x.toOption = some a ↔ x = .ok a := by
  cases x <;> simp [Except.toOption]

theorem decodeCoreLayouts_eq_some {name : String} {d : Node}
    (h : r.decodeCoreLayouts cm name = some d) :
    ∃ root, r.decodeWithDecodeDef cm ("layout_" ++ name ++ ".csv") 0 = .ok root ∧
      (d = root ∨ ∃ offset decodeDef extension,
        r.decodeWithDecodeDef cm decodeDef offset = .ok extension ∧ d = root.merge extension) := by
  unfold decodeCoreLayouts at h
  cases hl : r.decodeWithDecodeDef cm ("layout_" ++ name ++ ".csv") 0 with
  | error e => simp [hl, Except.toOption] at h
  | ok root =>
    simp only [hl, Except.toOption, Option.bind_eq_bind, Option.some_bind] at h
    refine ⟨root, rfl, ?_⟩
    split at h
    · split at h
      next extension he =>
        obtain ⟨decodeDef, -, hx⟩ := List.exists_of_findSome?_eq_some he
        cases h
        exact .inr ⟨_, decodeDef, extension, toOption_eq_some.1 hx, rfl⟩
      next => cases h; exact .inl rfl
    · cases h; exact .inl rfl

theorem uniqueNames_of_decodeCoreLayouts {name : String} {d : Node}
    (h : r.decodeCoreLayouts cm name = some d) : d.UniqueNames := by
  obtain ⟨root, hr, rfl | ⟨_, _, _, he, rfl⟩⟩ := decodeCoreLayouts_eq_some h
  · exact uniqueNames_of_decodeWithDecodeDef hr
  · exact (uniqueNames_of_decodeWithDecodeDef hr).merge (uniqueNames_of_decodeWithDecodeDef he)

theorem decodeCoreSubsection_eq_some {recordSection root : Node} {name : String}
    (h : r.decodeCoreSubsection cm recordSection name = some root) :
    ∃ d sub, r.decodeCoreLayouts cm name = some d ∧ d.get name = some sub ∧
      root = Node.root.add (recordSection.updateAt (whoamiHierarchy sub) (·.merge d)) := by
  unfold decodeCoreSubsection at h
  cases hd : r.decodeCoreLayouts cm name with
  | none => simp [hd] at h
  | some d =>
    cases hs : d.get name with
    | none => simp [hd, hs] at h
    | some sub =>
      simp only [hd, hs, Option.bind_eq_bind, Option.some_bind, Option.some.injEq] at h
      exact ⟨d, sub, rfl, hs, h.symm⟩

theorem decodeAsCoreRecord_eq_ok {root : Node} (h : r.decodeAsCoreRecord cm = .ok root) :
    ∃ recordType, r.header.recordType = .ok recordType ∧ ∃ name ∈ ["thread", "core"],
      (name = "core" → r.decodeCoreSubsection cm (Node.section recordType) "thread" = none) ∧
        r.decodeCoreSubsection cm (Node.section recordType) name = some root := by
  unfold decodeAsCoreRecord at h
  cases hrt : r.header.recordType with
  | error e => simp [hrt, bind, Except.bind] at h
  | ok recordType =>
    simp only [hrt, bind, Except.bind, List.findSome?_cons, List.findSome?_nil] at h
    refine ⟨recordType, rfl, ?_⟩
    cases hthread : r.decodeCoreSubsection cm (Node.section recordType) "thread" with
    | some root' =>
      simp only [hthread, pure, Except.pure, Except.ok.injEq] at h
      exact ⟨"thread", by simp, nofun, h ▸ hthread⟩
    | none =>
      cases hcore : r.decodeCoreSubsection cm (Node.section recordType) "core" with
      | some root' =>
        simp only [hthread, hcore, pure, Except.pure, Except.ok.injEq] at h
        exact ⟨"core", by simp, fun _ => rfl, h ▸ hcore⟩
      | none => simp [hthread, hcore, throw, throwThe, MonadExceptOf.throw] at h

theorem uniqueNames_of_decodeAsCoreRecord {root : Node}
    (h : r.decodeAsCoreRecord cm = .ok root) : root.UniqueNames := by
  obtain ⟨_, -, _, -, -, hs⟩ := decodeAsCoreRecord_eq_ok h
  obtain ⟨d, _, hd, -, rfl⟩ := decodeCoreSubsection_eq_some hs
  exact (Node.UniqueNames.leaf _ _ _).add (Node.UniqueNames.updateAt (Node.name_merge · d)
    (fun _ hm => hm.merge (uniqueNames_of_decodeCoreLayouts hd)) _ (.leaf _ _ _)) rfl

theorem uniqueNames_recordNode (r : Record) (cm : CollateralManager) :
    (r.recordNode cm).UniqueNames := by
  unfold recordNode
  split
  next node h =>
    unfold decodeRecord at h
    dsimp only at h
    split at h
    · exact uniqueNames_of_decodeAsCoreRecord h
    · exact uniqueNames_of_decodeWithDecodeDef h
  next => exact uniqueNames_root_add_record _ r.header.uniqueNames_toNode

theorem decodeWithDecodeDef_eq_error (hi : ∀ path, cm.getItemWithHeader r.header path = none)
    (decodeDef : String) (offset : Nat) :
    ∃ e, r.decodeWithDecodeDef cm decodeDef offset = .error e := by
  cases h : r.decodeWithDecodeDef cm decodeDef offset with
  | error e => exact ⟨e, rfl⟩
  | ok root =>
    obtain ⟨_, _, _, -, hl, -, -⟩ := decodeWithDecodeDef_eq_ok h
    obtain ⟨path, -, hp⟩ := List.exists_of_findSome?_eq_some hl
    simp [hi] at hp

theorem recordNode_of_getItemWithHeader
    (hi : ∀ path, cm.getItemWithHeader r.header path = none) :
    r.recordNode cm = r.decodeHeader := by
  have hcore : ∀ root, r.decodeAsCoreRecord cm ≠ .ok root := fun root h => by
    obtain ⟨_, -, _, -, -, hs⟩ := decodeAsCoreRecord_eq_ok h
    obtain ⟨_, _, hd, -⟩ := decodeCoreSubsection_eq_some hs
    obtain ⟨_, hr, -⟩ := decodeCoreLayouts_eq_some hd
    obtain ⟨e, he⟩ := decodeWithDecodeDef_eq_error hi ("layout_" ++ _ ++ ".csv") 0
    rw [he] at hr
    cases hr
  obtain ⟨e, he⟩ : ∃ e, r.decodeRecord cm = .error e := by
    unfold decodeRecord
    dsimp only
    split
    · cases h : r.decodeAsCoreRecord cm with
      | error e => exact ⟨e, rfl⟩
      | ok root => exact absurd h (hcore root)
    · exact decodeWithDecodeDef_eq_error hi _ _
  rw [recordNode, he]

theorem getRootPathUsingCm_of_getDieName (hd : ∀ d, r.header.getDieName d cm = none)
    (context : Context) : r.getRootPathUsingCm cm context = r.getRootPath context := by
  have hdie : r.header.die cm = none := by simp [Header.die, hd]
  unfold getRootPathUsingCm getRootPath
  rw [Header.getRootPathUsingCm_of_die_eq_none hdie]
  split
  · rfl
  · split <;> simp [hd, Header.dot_die_append, String.append_assoc]

end Record

-- ---------------------------------------------------------------------------
-- Whole decodes
-- ---------------------------------------------------------------------------

/-- Every tree `decode` returns has distinct keys at every level, for every
record, collateral tree and context. -/
theorem Record.decode_uniqueNames (r : Record) (cm : CollateralManager) (context : Context) :
    (r.decode cm context).UniqueNames :=
  uniqueNames_placeAt (Record.uniqueNames_recordNode r cm) _

/-- `decode` files the record's decoded tree, or on an error the header's,
below the record's root path. -/
theorem Record.getByPath_decode (r : Record) (cm : CollateralManager) (context : Context)
    (name : String) (q : List String) :
    (r.decode cm context).getByPath
        (rootSegments (r.getRootPathUsingCm cm context) ++ name :: q) =
      (r.recordNode cm).getByPath (name :: q) :=
  getByPath_placeAt (Record.uniqueNames_recordNode r cm) _ name q

/-- A core record's tree is filed, in the Section named by its record type,
below the module, core and thread levels its own `hdr.whoami` fields give:
the first subsection, `thread` then `core`, whose layout decodes. -/
theorem Record.decodeAsCoreRecord_placement {r : Record} {cm : CollateralManager} {root : Node}
    (h : r.decodeAsCoreRecord cm = .ok root) :
    ∃ recordType, r.header.recordType = .ok recordType ∧ ∃ name ∈ ["thread", "core"],
      (name = "core" → r.decodeCoreSubsection cm (Node.section recordType) "thread" = none) ∧
      ∃ d sub, r.decodeCoreLayouts cm name = some d ∧ d.get name = some sub ∧
      ∀ n q, root.getByPath (recordType :: whoamiHierarchy sub ++ n :: q) =
        d.getByPath (n :: q) := by
  obtain ⟨recordType, hrt, name, hm, hfirst, hs⟩ := Record.decodeAsCoreRecord_eq_ok h
  obtain ⟨d, sub, hd, hsub, rfl⟩ := Record.decodeCoreSubsection_eq_some hs
  refine ⟨recordType, hrt, name, hm, hfirst, d, sub, hd, hsub, fun n q => ?_⟩
  have hname :
      ((Node.section recordType).updateAt (whoamiHierarchy sub) (·.merge d)).name = recordType :=
    Node.name_updateAt (Node.name_merge · d) _ _
  simp only [Node.getByPath, Node.get, Node.add, Node.root, List.nil_append, List.find?_singleton,
    Node.key, hname, decide_True, cond_true, Option.some_bind]
  exact Node.getByPath_updateAt_merge (Record.uniqueNames_of_decodeCoreLayouts hd) _ rfl n q

-- A PCORE record whose collateral tree holds a thread layout, which reads the core and thread ids
-- but no module id, and a core layout.
def coreRecord : Record :=
  ⟨⟨⟨1, 2, 0x70, recordTypePcore, false, false⟩, ⟨2, 0⟩, .type2 0 0 0⟩, [2, 1]⟩

def coreCm : CollateralManager :=
  ⟨fun _ => none, fun _ path =>
    if path = ["decode-defs", "PCORE", "1", "layout_thread.csv"] then
      some "name;offset;size\nthread.hdr.whoami.core_id;0;8\nthread.hdr.whoami.thread_id;8;8".toUTF8.data.toList
    else if path = ["decode-defs", "PCORE", "1", "layout_core.csv"] then
      some "name;offset;size\ncore.hdr.whoami.core_id;0;8".toUTF8.data.toList
    else none⟩

theorem Record.decodeAsCoreRecord_placement_thread :
    ∃ root, coreRecord.decodeAsCoreRecord coreCm = .ok root ∧
      ∃ recordType, coreRecord.header.recordType = .ok recordType ∧
        ∃ name ∈ ["thread", "core"],
        (name = "core" →
          coreRecord.decodeCoreSubsection coreCm (Node.section recordType) "thread" = none) ∧
        ∃ d sub, coreRecord.decodeCoreLayouts coreCm name = some d ∧ d.get name = some sub ∧
        ∀ n q, root.getByPath (recordType :: whoamiHierarchy sub ++ n :: q) =
          d.getByPath (n :: q) :=
  have h : coreRecord.decodeAsCoreRecord coreCm = .ok ⟨"", "", .root, [⟨"PCORE", "", .section,
      [⟨"core2", "", .section, [⟨"thread1", "", .section, [⟨"thread", "", .record,
        [⟨"hdr", "", .section, [⟨"whoami", "", .section,
          [⟨"core_id", "", .field 2, []⟩, ⟨"thread_id", "", .field 1, []⟩]⟩]⟩]⟩]⟩]⟩]⟩]⟩ := by
    decide
  ⟨_, h, Record.decodeAsCoreRecord_placement h⟩

/-- A record whose header `Header::from_slice` read in the legacy server layout
is filed by `decode_without_cm` below `processors.cpu<byte 24>.die<id>`, where
the die id is the one byte 0 encodes, and its version's `header_type` field
there is 0. -/
theorem Record.decodeWithoutCm_type0LegacyServer {s : List UInt8} {h : Header}
    (hs : Header.fromSlice s = .ret (.ok (some h)))
    (hl : h.version.intoErrata.type0LegacyServer = true) (data : List UInt8) (context : Context) :
    ∃ socketId revision, s[24]? = some socketId ∧ s[0]? = some revision ∧
      ((Record.mk h data).decodeWithoutCm context).getByPath
          ["processors", "cpu" ++ toString socketId,
            "die" ++ toString (HeaderType.legacyDieId revision),
            toAsciiLowercase (h.recordType.toOption.getD "record"), "hdr", "version",
            "header_type"] =
        some (Node.field "header_type" 0) := by
  obtain ⟨-, ⟨-, -, hht⟩ | ⟨hnot, -⟩⟩ := Header.fromSlice_eq_ok_some hs
  · obtain ⟨_, _, _, socketId, revision, _, _, h24, h0, hx⟩ :=
      HeaderType.type0LegacyServerFromSlice_eq_ret_some hht
    refine ⟨socketId, revision, h24, h0, ?_⟩
    have hroot : (Record.mk h data).getRootPath context =
        some (Header.socketDiePath socketId
          (Header.dieSegment (HeaderType.legacyDieId revision))) := by
      simp [getRootPath, Header.getRootPath_eq, Header.dieId, Header.socketId, hx]
    have key := getByPath_placeAt (t := (Record.mk h data).decodeHeader)
      (uniqueNames_root_add_record _ h.uniqueNames_toNode)
      ((Record.mk h data).getRootPath context) (toAsciiLowercase (h.recordType.toOption.getD "record"))
      ["hdr", "version", "header_type"]
    rw [hroot, rootSegments, Header.split_socketDiePath_dieSegment] at key
    simp only [List.cons_append, List.nil_append] at key
    have hv0 : h.version.headerType = 0 := by simp_all [Version.intoErrata]
    have hversion : h.toNode.get "version" = some h.version.toNode :=
      h.uniqueNames_toNode.get_eq (c := h.version.toNode) (by simp [Header.toNode, Node.addAll_eq])
    have htype : h.version.toNode.get "header_type" = some (Node.field "header_type" 0) := by
      simpa [hv0] using h.version.uniqueNames_toNode.get_eq
        (c := Node.field "header_type" h.version.headerType.toUInt64)
        (by simp [Version.toNode, Node.addAll_eq])
    rw [decodeWithoutCm, hroot, key]
    refine (Record.getByPath_decodeHeader (Record.mk h data) _).trans ?_
    simp only [Node.getByPath, hversion, htype, Option.some_bind]
  · rw [hl] at hnot; cases hnot

-- The spec's legacy server record: revision byte `0x81` (die 10), socket 1.
def legacySlice : List UInt8 :=
  [0x81, 0xF0, 0x02, 0x3E, 0, 0, 0, 0, 0, 0, 0, 0, 0, 0, 0, 0,
    0x08, 0, 0, 0, 0, 0, 0, 0, 0x01, 0, 0, 0, 0, 0, 0, 0x80]

def legacyHeader : Header :=
  ⟨⟨0x81, 0, 0x2f, recordTypeMca, false, false⟩, ⟨8, 0⟩, .type0LegacyServer 0 0 0 10 1 0 true⟩

theorem Record.decodeWithoutCm_type0LegacyServer_cpu1_die10 :
    Header.fromSlice legacySlice = .ret (.ok (some legacyHeader)) ∧
      legacyHeader.version.intoErrata.type0LegacyServer = true ∧
      ∃ socketId revision, legacySlice[24]? = some socketId ∧ legacySlice[0]? = some revision ∧
        ((Record.mk legacyHeader []).decodeWithoutCm ⟨none, none⟩).getByPath
            ["processors", "cpu" ++ toString socketId,
              "die" ++ toString (HeaderType.legacyDieId revision),
              toAsciiLowercase (legacyHeader.recordType.toOption.getD "record"), "hdr", "version",
              "header_type"] =
          some (Node.field "header_type" 0) :=
  have hs : Header.fromSlice legacySlice = .ret (.ok (some legacyHeader)) := by decide
  have hl : legacyHeader.version.intoErrata.type0LegacyServer = true := by decide
  ⟨hs, hl, Record.decodeWithoutCm_type0LegacyServer hs hl [] ⟨none, none⟩⟩

example : ((Record.mk legacyHeader []).decodeWithoutCm ⟨none, none⟩).getByPath
    ["processors", "cpu1", "die10", "mca", "hdr", "version", "header_type"] =
      some (Node.field "header_type" 0) := by
  decide

/-- With a collateral tree that resolves no item and names none of the
product's dies, `decode` builds exactly the tree of `decode_without_cm`. -/
theorem Record.decode_eq_decodeWithoutCm {r : Record} {cm : CollateralManager}
    (hi : ∀ path, cm.getItemWithHeader r.header path = none)
    (hd : ∀ d, r.header.getDieName d cm = none) (context : Context) :
    r.decode cm context = r.decodeWithoutCm context := by
  rw [decode, decodeWithoutCm, Record.recordNode_of_getItemWithHeader hi,
    Record.getRootPathUsingCm_of_getDieName hd]

-- A collateral tree that knows the product but holds no item and no die name.
def bareCm : CollateralManager := ⟨fun _ => some ⟨"XYZ", "A0", []⟩, fun _ _ => none⟩

theorem Record.decode_eq_decodeWithoutCm_bare :
    (∀ path, bareCm.getItemWithHeader coreRecord.header path = none) ∧
      (∀ d, coreRecord.header.getDieName d bareCm = none) ∧
      coreRecord.decode bareCm ⟨some 0, some 1⟩ = coreRecord.decodeWithoutCm ⟨some 0, some 1⟩ :=
  have hi : ∀ path, bareCm.getItemWithHeader coreRecord.header path = none := fun _ => rfl
  have hd : ∀ d, coreRecord.header.getDieName d bareCm = none := fun _ => rfl
  ⟨hi, hd, Record.decode_eq_decodeWithoutCm hi hd _⟩

/-- For a record whose die the collateral tree does not name,
`decode_with_decode_def` decodes the layout of the record's revision when the
tree holds one, and the layout of `all` otherwise: the decode definitions of a
revision override the generic ones, and with neither the record has no decode
definitions. -/
theorem Record.decodeWithDecodeDef_of_die_eq_none {r : Record} {cm : CollateralManager}
    {recordType : String} (hd : r.header.die cm = none)
    (hrt : r.header.recordType = .ok recordType) (decodeDef : String) (offset : Nat) :
    r.decodeWithDecodeDef cm decodeDef offset =
      match cm.getItemWithHeader r.header
          ["decode-defs", recordType, toString r.header.revision, decodeDef] <|>
        cm.getItemWithHeader r.header ["decode-defs", recordType, "all", decodeDef] with
      | some layout => Node.root.merge <$> r.decodeWithCsv layout offset
      | none => .error (.missingDecodeDefinitions r.header.version) := by
  have hpaths : r.header.decodeDefinitionsPaths cm = .ok
      [["decode-defs", recordType, toString r.header.revision],
        ["decode-defs", recordType, "all"]] := by
    simp [Header.decodeDefinitionsPaths, hrt, hd, bind, Except.bind, pure, Except.pure]
  simp only [Record.decodeWithDecodeDef, hpaths, bind, Except.bind, List.findSome?_cons,
    List.findSome?_nil, List.cons_append, List.nil_append]
  cases cm.getItemWithHeader r.header
      ["decode-defs", recordType, toString r.header.revision, decodeDef] <;>
    cases cm.getItemWithHeader r.header ["decode-defs", recordType, "all", decodeDef] <;>
    rfl

end CrashLog
