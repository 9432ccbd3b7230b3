import CrashLog.Node
import CrashLog.Text
import CrashLog.Record.Basic

/-!
# The header's node

`From<&Header> for Node` lays a header out as a Section `hdr`: the version word
with its fields, the record size fields, and the fields of the header's layout.
`Record::decode_header` puts that Section under a Record named by
`Header::record_type`, or `record` when the record type has no name, and that
under the root.

The names of a Type6 header's completion status words are numbered,
`completion_status0`, `completion_status1`, ..., are their own keys, and no two
of them, nor any of them and another field, coincide
(`completionStatusName_injective`, `length_lt_completionStatusName`). So every
tree `decode_header` builds has distinct keys at every level
(`Record.decodeHeader_uniqueNames`), and each completion status word is found
under its own name below the record type's key
(`Record.decodeHeader_completionStatus`).
-/

namespace CrashLog

/-- `value as u64` of a `bool`. -/
def boolU64 (b : Bool) : UInt64 := if b then 1 else 0

/-- `From<&RecordSize> for Node`. -/
def RecordSize.toNode (size : RecordSize) : Node :=
  (Node.section "record_size").addAll
    [Node.field "record_size" size.recordSize.toUInt64,
      Node.field "extended_record_size" size.extendedRecordSize.toUInt64]

/-- `From<&Version> for Node`: the word `as_u32` writes, with its fields. -/
def Version.toNode (v : Version) : Node :=
  (Node.field "version" v.asU32.toUInt64).addAll
    [Node.field "revision" v.revision.toUInt64, Node.field "header_type" v.headerType.toUInt64,
      Node.field "product_id" v.productId.toUInt64, Node.field "record_type" v.recordType.toUInt64]

/-- The `completion_status` Section of the Type3 and Type5 layouts. -/
def completionStatusNode (completionStatus : UInt32) (collectionComplete : Bool) : Node :=
  (Node.section "completion_status").addAll
    [Node.field "completion_status" completionStatus.toUInt64,
      Node.field "record_collection_completed" (boolU64 collectionComplete)]

/-- `format!("completion_status{i}")`. -/
def completionStatusName (i : Nat) : String := "completion_status" ++ toString i

/-- The nodes `From<&Header> for Node` adds for each layout, after the version
and the record size. -/
def HeaderType.nodeFields : HeaderType → List Node
  | .type0 | .type1 => []
  | .type2 timestamp agentVersion reason =>
    [Node.field "timestamp" timestamp, Node.field "agent_version" agentVersion.toUInt64,
      Node.field "reason" reason.toUInt64]
  | .type3 timestamp agentVersion reason completionStatus collectionComplete =>
    [Node.field "timestamp" timestamp, Node.field "agent_version" agentVersion.toUInt64,
      Node.field "reason" reason.toUInt64, completionStatusNode completionStatus collectionComplete]
  | .type4 timestamp agentVersion reason whoami misc =>
    [Node.field "timestamp" timestamp, Node.field "agent_version" agentVersion.toUInt64,
      Node.field "reason" reason.toUInt64, Node.field "whoami" whoami.toUInt64,
      Node.field "misc" misc.toUInt64]
  | .type5 timestamp agentVersion reason completionStatus collectionComplete errorStatus =>
    [Node.field "timestamp" timestamp, Node.field "agent_version" agentVersion.toUInt64,
      Node.field "reason" reason.toUInt64, Node.field "error_status" errorStatus.toUInt64,
      completionStatusNode completionStatus collectionComplete]
  | .type6 timestamp agentVersion reason dieId socketId completionStatusSize completionStatus
      collectionComplete =>
    [Node.field "timestamp" timestamp, Node.field "agent_version" agentVersion.toUInt64,
      Node.field "reason" reason.toUInt64,
      (Node.section "die_skt_info").addAll
        [Node.field "die_id" dieId.toUInt64, Node.field "socket_id" socketId.toUInt64,
          Node.field "completion_status_size" completionStatusSize.toUInt64,
          Node.field "record_collection_completed" (boolU64 collectionComplete)]] ++
      completionStatus.enum.map fun (i, status) =>
        Node.field (completionStatusName i) status.toUInt64
  | .type0LegacyServer timestamp agentVersion reason dieId socketId completionStatus
      collectionComplete =>
    [Node.field "timestamp" timestamp, Node.field "agent_version" agentVersion.toUInt64,
      Node.field "reason" reason.toUInt64, Node.field "die_id" dieId.toUInt64,
      Node.field "socket_id" socketId.toUInt64,
      Node.field "completion_status" completionStatus.toUInt64,
      Node.field "record_collection_completed" (boolU64 collectionComplete)]

/-- `From<&Header> for Node`. -/
def Header.toNode (h : Header) : Node :=
  ((Node.section "hdr").addAll [h.version.toNode, h.size.toNode]).addAll h.headerType.nodeFields

/-- The names `Version::record_type_as_str` gives the record types. -/
def recordTypeNames : List (UInt8 × String) :=
  [(recordTypePmc, "PMC"), (recordTypePmcFwTrace, "PMC_FW_Trace"), (recordTypePunit, "Punit"),
    (recordTypePcore, "PCORE"), (recordTypeEcore, "ECORE"), (recordTypeUncore, "UNCORE"),
    (recordTypePmcTrace, "PMC_TRACE"), (recordTypeTcss, "TCSS"), (recordTypePmcRst, "PMC_RST"),
    (recordTypePcode, "PCODE"), (recordTypeCrashlogAgent, "CRASHLOG_AGENT"),
    (recordTypeBox, "BOX"), (recordTypeMca, "MCA")]

/-- `Version::record_type_as_str`. -/
def Version.recordTypeAsStr (v : Version) : Except Error String :=
  match recordTypeNames.lookup v.recordType with
  | some name => .ok name
  | none => .error (.invalidRecordType v.recordType)

/-- `Header::record_type`. -/
def Header.recordType (h : Header) : Except Error String := h.version.recordTypeAsStr

/-- `Record::decode_header`. -/
def Record.decodeHeader (r : Record) : Node :=
  Node.root.add ((Node.record (r.header.recordType.toOption.getD "record")).add r.header.toNode)

-- ---------------------------------------------------------------------------
-- Names
-- ---------------------------------------------------------------------------

theorem completionStatusName_injective : Function.Injective completionStatusName := by
  intro a b h
  apply toString_injective
  have := congrArg String.data h
  simp only [completionStatusName, String.data_append] at this
  exact String.ext (List.append_cancel_left this)

theorem length_lt_completionStatusName (i : Nat) : 17 < (completionStatusName i).length := by
  have h : 0 < (toString i).length := by
    show 0 < (Nat.toDigitsCore 10 (i + 1) i []).length
    simp only [Nat.toDigitsCore]
    split
    · simp
    · simp [Nat.toDigitsCore_lens_eq]
  simp only [completionStatusName, String.length_append]
  exact Nat.lt_add_of_pos_right h

theorem toAsciiLowercase_completionStatusName (i : Nat) :
    toAsciiLowercase (completionStatusName i) = completionStatusName i := by
  have hfixed : "completion_status".data.map Char.toLower = "completion_status".data := by decide
  have hdigits : (toString i).data.map Char.toLower = (toString i).data :=
    (List.map_congr_left fun _ hc => toLower_of_isDigit (isDigit_of_mem_toString hc)).trans
      (List.map_id _)
  simp only [toAsciiLowercase, completionStatusName, String.data_append, List.map_append, hfixed,
    hdigits]
  rfl

theorem map_key_completionStatus (completionStatus : List UInt32) :
    (completionStatus.enum.map fun (i, status) =>
        Node.field (completionStatusName i) status.toUInt64).map Node.key =
      (List.range completionStatus.length).map completionStatusName := by
  rw [List.map_map, ← List.enum_map_fst, List.map_map]
  exact List.map_congr_left fun ⟨i, _⟩ _ => toAsciiLowercase_completionStatusName i

-- ---------------------------------------------------------------------------
-- Distinct names
-- ---------------------------------------------------------------------------

theorem uniqueNames_field (name : String) (value : UInt64) : (Node.field name value).UniqueNames :=
  Node.UniqueNames.leaf _ _ _

theorem uniqueNames_of_leaves {cs : List Node} (h : ∀ c ∈ cs, c.children = []) :
    ∀ c ∈ cs, c.UniqueNames := fun c hc => by
  obtain ⟨name, description, kind, children⟩ := c
  cases h _ hc
  exact Node.UniqueNames.leaf _ _ _

theorem Version.uniqueNames_toNode (v : Version) : v.toNode.UniqueNames :=
  Node.UniqueNames.addAll (uniqueNames_field _ _)
    (by show (["revision", "header_type", "product_id", "record_type"].map toAsciiLowercase).Nodup
        decide)
    (uniqueNames_of_leaves (by simp [Node.field]))

theorem RecordSize.uniqueNames_toNode (size : RecordSize) : size.toNode.UniqueNames :=
  Node.UniqueNames.addAll (Node.UniqueNames.leaf _ _ _)
    (by show (["record_size", "extended_record_size"].map toAsciiLowercase).Nodup; decide)
    (uniqueNames_of_leaves (by simp [Node.field]))

theorem uniqueNames_completionStatusNode (completionStatus : UInt32) (collectionComplete : Bool) :
    (completionStatusNode completionStatus collectionComplete).UniqueNames :=
  Node.UniqueNames.addAll (Node.UniqueNames.leaf _ _ _)
    (by show (["completion_status", "record_collection_completed"].map toAsciiLowercase).Nodup
        decide)
    (uniqueNames_of_leaves (by simp [Node.field]))

theorem HeaderType.uniqueNames_nodeFields (t : HeaderType) : ∀ c ∈ t.nodeFields, c.UniqueNames := by
  have hdie : ∀ (dieId socketId : UInt8) (size : UInt16) (cc : Bool),
      ((Node.section "die_skt_info").addAll
        [Node.field "die_id" dieId.toUInt64, Node.field "socket_id" socketId.toUInt64,
          Node.field "completion_status_size" size.toUInt64,
          Node.field "record_collection_completed" (boolU64 cc)]).UniqueNames := fun _ _ _ _ =>
    Node.UniqueNames.addAll (Node.UniqueNames.leaf _ _ _)
      (by
        show (["die_id", "socket_id", "completion_status_size",
          "record_collection_completed"].map toAsciiLowercase).Nodup
        decide)
      (uniqueNames_of_leaves (by simp [Node.field]))
  cases t <;> simp only [nodeFields, List.forall_mem_cons, List.forall_mem_append,
    List.forall_mem_map, List.not_mem_nil, false_implies, implies_true, uniqueNames_field,
    uniqueNames_completionStatusNode, hdie, and_self, and_true, true_and]

theorem HeaderType.nodup_nodeFields (t : HeaderType) :
    (["version", "record_size"].map toAsciiLowercase ++ t.nodeFields.map Node.key).Nodup := by
  cases t
  case type6 _ _ _ _ _ _ completionStatus _ =>
    rw [nodeFields, List.map_append, map_key_completionStatus, ← List.append_assoc]
    refine List.nodup_append.mpr ⟨?_, (List.nodup_range _).map completionStatusName_injective, ?_⟩
    · simp only [Node.key, Node.field, Node.section, Node.name_addAll, List.map_cons, List.map_nil,
        List.cons_append, List.nil_append]
      decide
    intro a ha hb
    obtain ⟨i, -, rfl⟩ := List.mem_map.mp hb
    have hlen := length_lt_completionStatusName i
    simp only [Node.key, Node.field, Node.section, Node.name_addAll, List.map_cons, List.map_nil,
      List.cons_append, List.nil_append, List.mem_cons, List.not_mem_nil, or_false] at ha
    rcases ha with h | h | h | h | h | h <;> rw [h] at hlen <;> exact absurd hlen (by decide)
  all_goals
    simp only [nodeFields, Node.key, Node.field, Node.section, Node.name_addAll,
      completionStatusNode, List.map_cons, List.map_nil, List.cons_append, List.nil_append]
    decide

theorem Header.uniqueNames_toNode (h : Header) : h.toNode.UniqueNames := by
  refine Node.UniqueNames.addAll (Node.UniqueNames.addAll (Node.UniqueNames.leaf _ _ _)
    (by show (["version", "record_size"].map toAsciiLowercase).Nodup; decide) ?_) ?_
    h.headerType.uniqueNames_nodeFields
  · simp only [List.forall_mem_cons]
    exact ⟨h.version.uniqueNames_toNode, h.size.uniqueNames_toNode, nofun⟩
  · simpa [Node.addAll_eq, Version.toNode, RecordSize.toNode, Node.field, Node.section, Node.key]
      using h.headerType.nodup_nodeFields

theorem Header.get_completionStatus {h : Header} {timestamp : UInt64} {agentVersion reason : UInt32}
    {dieId socketId : UInt8} {size : UInt16} {completionStatus : List UInt32} {complete : Bool}
    (ht : h.headerType =
      .type6 timestamp agentVersion reason dieId socketId size completionStatus complete)
    {i : Nat} (hi : i < completionStatus.length) :
    h.toNode.get (completionStatusName i) =
      some (Node.field (completionStatusName i) completionStatus[i].toUInt64) := by
  refine h.uniqueNames_toNode.get_eq
    (c := Node.field (completionStatusName i) completionStatus[i].toUInt64) ?_
  rw [Header.toNode, Node.addAll_eq, ht, HeaderType.nodeFields]
  refine List.mem_append_right _
    (List.mem_append_right _ (List.mem_map.mpr ⟨(i, completionStatus[i]), ?_, rfl⟩))
  exact List.mem_enum_iff_getElem?.mpr (List.getElem?_eq_getElem hi)

theorem uniqueNames_root_add_record (name : String) {c : Node} (hc : c.UniqueNames) :
    (Node.root.add ((Node.record name).add c)).UniqueNames :=
  Node.UniqueNames.add (.leaf _ _ _) (Node.UniqueNames.add (.leaf _ _ _) hc rfl) rfl

/-- No node of a tree `decode_header` builds has two children of one key,
whatever the header's layout and however many completion status words a Type6
header carries. -/
theorem Record.decodeHeader_uniqueNames (r : Record) : r.decodeHeader.UniqueNames :=
  uniqueNames_root_add_record _ r.header.uniqueNames_toNode

theorem Record.getByPath_decodeHeader (r : Record) (path : List String) :
    r.decodeHeader.getByPath
        (toAsciiLowercase (r.header.recordType.toOption.getD "record") :: "hdr" :: path) =
      r.header.toNode.getByPath path := by
  have hname : r.header.toNode.name = "hdr" := by
    rw [Header.toNode, Node.name_addAll, Node.name_addAll]; rfl
  simp [decodeHeader, Node.getByPath, Node.get, Node.add, Node.root, Node.record, Node.key, hname]

/-- Each completion status word of a Type6 record is the field that its number's
path, below the record type's key, finds in the tree `decode_header` builds. -/
theorem Record.decodeHeader_completionStatus {r : Record} {timestamp : UInt64}
    {agentVersion reason : UInt32} {dieId socketId : UInt8} {size : UInt16}
    {completionStatus : List UInt32} {complete : Bool}
    (ht : r.header.headerType =
      .type6 timestamp agentVersion reason dieId socketId size completionStatus complete)
    {i : Nat} (hi : i < completionStatus.length) :
    r.decodeHeader.getByPath
        [toAsciiLowercase (r.header.recordType.toOption.getD "record"), "hdr",
          completionStatusName i] =
      some (Node.field (completionStatusName i) completionStatus[i].toUInt64) := by
  rw [r.getByPath_decodeHeader, Node.getByPath, Header.get_completionStatus ht hi]
  rfl

-- A Type6 MCA record with two completion status words.
def mcaType6Record : Record :=
  ⟨⟨⟨2, 6, 0, recordTypeMca, false, false⟩, ⟨5, 0⟩, .type6 0 0 0 1 0 2 [7, 9] false⟩, []⟩

theorem Record.decodeHeader_completionStatus_mca :
    mcaType6Record.header.headerType = .type6 0 0 0 1 0 2 [7, 9] false ∧
      1 < [(7 : UInt32), 9].length ∧
      mcaType6Record.decodeHeader.getByPath
          [toAsciiLowercase (mcaType6Record.header.recordType.toOption.getD "record"), "hdr",
            completionStatusName 1] =
        some (Node.field (completionStatusName 1) (9 : UInt32).toUInt64) :=
  ⟨rfl, by decide,
    Record.decodeHeader_completionStatus (r := mcaType6Record) rfl (i := 1) (by decide)⟩

example : toAsciiLowercase (mcaType6Record.header.recordType.toOption.getD "record") = "mca" := by
  decide

end CrashLog
