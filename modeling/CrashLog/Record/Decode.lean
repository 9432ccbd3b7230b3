import CrashLog.Text
import CrashLog.Node
import CrashLog.Record.ReadField

/-!
# The CSV decode engine

`Record::decode_with_csv` reads a decode definition: a `;`-separated table whose
first line names the columns and whose other lines each describe a field by a
dotted name, a bit offset, a size and a description. It keeps a running path:
a name whose first segment is not empty starts a path there, and every later
segment pushes itself, or pops a level when it is empty. The node at the path
gets the line's description, and the field's value when `read_field` reads
one at bit `offset * 8 + entry.offset`.

The reference decoder (`referenceDecode`) follows the spec's words: it reads
every entry first and then builds the tree, resolving each name by its own
rules (`resolvePath`: reset at a non-empty first segment, pop at an empty later
one, push otherwise), adding the top-level Record when the root has no child of
its key, and reading each field at its exact bit position. The code interleaves
the two passes, which gives the same tree and the same first error
(`decodeRows_eq`), its line step is the reference's (`decodeEntry_eq_referenceStep`),
and it computes the position in `usize`, which wraps. The two agree whenever no
position reaches `2 ^ 64` (`decodeWithCsv_eq_referenceDecode`); a byte offset of
`2 ^ 61` makes them differ (`decodeWithCsv_offset_wraps`).

When every name's segments are non-empty, the root stays a nameless container
and every line's node is at its own path (`decodeWithCsv_absolute`). Whatever
the layout, no node gets two children of one key (`decodeWithCsv_uniqueNames`).
-/

namespace CrashLog

/-- `DELIMITER`. -/
def delimiter : Char := ';'

/-- `DecodeDefinitionEntry`, with its `Default`. -/
structure DecodeDefinitionEntry where
  name : String := ""
  offset : Nat := 0
  size : Nat := 0
  description : String := ""
  deriving DecidableEq, Repr

/-- `field.parse()?`, its `ParseIntError` turned into the crate's error. -/
def parseField (field : String) : Except Error Nat :=
  match parseUsize field with
  | .ok v => .ok v
  | .error kind => .error (.parseIntError kind)

namespace DecodeDefinitionEntry

/-- The `match *column` on one field of a data line. -/
def assign (entry : DecodeDefinitionEntry) (column field : String) :
    Except Error DecodeDefinitionEntry :=
  match column with
  | "name" => .ok { entry with name := field }
  | "offset" => (fun v => { entry with offset := v }) <$> parseField field
  | "size" => (fun v => { entry with size := v }) <$> parseField field
  | "description" => .ok { entry with description := field }
  | _ => .ok entry

/-- The loop over a data line's fields, each under the column of its index;
fields past the last column are not read. -/
def read : List String → List String → DecodeDefinitionEntry → Except Error DecodeDefinitionEntry
  | column :: columns, field :: fields, entry =>
    match entry.assign column field with
    | .ok entry => read columns fields entry
    | .error e => .error e
  | _, _, entry => .ok entry

end DecodeDefinitionEntry

/-- The decoder's state between lines: the tree built so far and `current_path`. -/
structure DecodeState where
  root : Node
  currentPath : List String

/-- The loop over the segments after the first: an empty one pops a level, a
no-op on an empty path, and any other is pushed. -/
def walkSegments (path : List String) : List String → List String
  | [] => path
  | segment :: rest => walkSegments (if segment = "" then path.dropLast else path ++ [segment]) rest

/-- What a line writes into the node at its path: its description, and its value
when `read_field` reads one. -/
def setField (description : String) (value : Option UInt64) (node : Node) : Node :=
  { node with description := description, kind := (value.map NodeType.field).getD node.kind }

/-- The bit position `offset * 8 + entry.offset`, in `usize` arithmetic. -/
def bitPosition (offset : Nat) (entry : DecodeDefinitionEntry) : Nat :=
  wrappingAdd (wrappingMul offset 8) entry.offset

/-- One data line of `decode_with_csv` once its entry is read; `value` is what
`read_field` returns for it. -/
def decodeEntry (value : Option UInt64) (st : DecodeState) (entry : DecodeDefinitionEntry) :
    DecodeState :=
  if entry.name = "" then st
  else
    match split entry.name '.' with
    | [] => st
    | top :: segments =>
      let st : DecodeState :=
        if top = "" then st
        else ⟨if (st.root.get top).isNone then st.root.add (Node.record top) else st.root, [top]⟩
      let path := walkSegments st.currentPath segments
      ⟨st.root.updateAt path (setField entry.description value), path⟩

/-- The loop over the data lines of `decode_with_csv`. -/
def Record.decodeRows (r : Record) (offset : Nat) (columns : List String) :
    List (List Char) → DecodeState → Except Error DecodeState
  | [], st => .ok st
  | line :: rows, st =>
    match DecodeDefinitionEntry.read columns (split (String.mk line) delimiter) {} with
    | .ok entry =>
      r.decodeRows offset columns rows
        (decodeEntry (r.readField (bitPosition offset entry) entry.size) st entry)
    | .error e => .error e

/-- `Record::decode_with_csv`. -/
def Record.decodeWithCsv (r : Record) (layout : List UInt8) (offset : Nat) : Except Error Node :=
  match fromUtf8 layout with
  | none => .error .utf8Error
  | some csv =>
    match lines csv with
    | [] => .ok Node.root
    | header :: rows =>
      (r.decodeRows offset (split (String.mk header) delimiter) rows ⟨Node.root, []⟩).map (·.root)

-- ---------------------------------------------------------------------------
-- The reference decoder
-- ---------------------------------------------------------------------------

/-- The reference decoder's first pass over the data lines: every entry, or the
first error. -/
def csvEntries (columns : List String) : List (List Char) → Except Error (List DecodeDefinitionEntry)
  | [] => .ok []
  | line :: rows =>
    match DecodeDefinitionEntry.read columns (split (String.mk line) delimiter) {} with
    | .ok entry => (entry :: ·) <$> csvEntries columns rows
    | .error e => .error e

/-- The entries of a layout. -/
def layoutEntries (layout : List UInt8) : Except Error (List DecodeDefinitionEntry) :=
  match fromUtf8 layout with
  | none => .error .utf8Error
  | some csv =>
    match lines csv with
    | [] => .ok []
    | header :: rows => csvEntries (split (String.mk header) delimiter) rows

/-- The spec's path resolution: a name whose first segment is not empty is
absolute and starts at that segment, and a relative one starts at the running
path `current`; each later segment then pops the path's last segment when it is
empty, and is pushed when it is not. -/
def resolvePath (current : List String) : List String → List String
  | [] => current
  | top :: segments =>
    segments.foldl (fun path s => if s = "" then path.take (path.length - 1) else path.concat s)
      (if top = "" then current else [top])

/-- The reference decoder's line: a named line whose first segment is not empty
adds a Record of that name unless the root has a child of its key; the node at
the resolved path, created with Section intermediates, takes the description,
and the field's value when there is one. -/
def referenceStep (value : Option UInt64) (st : DecodeState) (entry : DecodeDefinitionEntry) :
    DecodeState :=
  if entry.name = "" then st
  else
    let segments := split entry.name '.'
    let top := segments.headD ""
    let root :=
      if top ≠ "" ∧ ¬st.root.children.any (·.key = toAsciiLowercase top) then
        { st.root with children := st.root.children ++ [Node.record top] }
      else st.root
    let path := resolvePath st.currentPath segments
    ⟨root.updateAt path fun node =>
      { node with
        description := entry.description
        kind := match value with
          | some v => .field v
          | none => node.kind },
      path⟩

/-- The reference decoder's second pass: the entries applied in order from an
empty root and path, each field read as the bits at its exact position. -/
def Record.buildTree (r : Record) (offset : Nat) (entries : List DecodeDefinitionEntry) : Node :=
  (entries.foldl (fun st entry =>
    referenceStep (bitField r.data (8 * offset + entry.offset) entry.size) st entry)
    ⟨Node.root, []⟩).root

/-- The reference decoder. -/
def Record.referenceDecode (r : Record) (layout : List UInt8) (offset : Nat) : Except Error Node :=
  (layoutEntries layout).map (r.buildTree offset)

theorem walkSegments_eq_foldl (path segments : List String) :
    walkSegments path segments =
      segments.foldl (fun path s => if s = "" then path.take (path.length - 1) else path.concat s)
        path := by
  induction segments generalizing path with
  | nil => rfl
  | cons s rest ih => rw [walkSegments, ih, List.foldl_cons, List.dropLast_eq_take, List.concat_eq_append]

theorem isNone_get_iff (n : Node) (name : String) :
    (n.get name).isNone ↔ ¬n.children.any (·.key = toAsciiLowercase name) := by
  simp [Node.get]

/-- The code's line is the reference's: the same pops and pushes, the same
Record added, the same write. -/
theorem decodeEntry_eq_referenceStep (value : Option UInt64) (st : DecodeState)
    (entry : DecodeDefinitionEntry) : decodeEntry value st entry = referenceStep value st entry := by
  unfold decodeEntry referenceStep
  split
  · rfl
  · obtain ⟨top, segments, hs⟩ := List.exists_cons_of_ne_nil (split_ne_nil entry.name '.')
    have hw : setField entry.description value = fun node =>
        { node with
          description := entry.description
          kind := match value with
            | some v => .field v
            | none => node.kind } := funext fun _ => by cases value <;> rfl
    simp only [hs, resolvePath, List.headD_cons, ← walkSegments_eq_foldl, hw]
    by_cases htop : top = ""
    · simp only [htop, if_true, ne_eq, not_true_eq_false, false_and, if_false]
    · simp only [htop, if_false, ne_eq, not_false_eq_true, true_and, ← isNone_get_iff, Node.add]

/-- Reading the entries as the lines come is reading them all first: the same
states, and the same first error. -/
theorem Record.decodeRows_eq (r : Record) (offset : Nat) (columns : List String)
    (rows : List (List Char)) (st : DecodeState) :
    r.decodeRows offset columns rows st =
      (csvEntries columns rows).map
        (·.foldl (fun st entry =>
          decodeEntry (r.readField (bitPosition offset entry) entry.size) st entry) st) := by
  induction rows generalizing st with
  | nil => rfl
  | cons line rows ih =>
    simp only [decodeRows, csvEntries]
    split
    · rw [ih]
      cases csvEntries columns rows <;> rfl
    · rfl

theorem bitPosition_of_lt {offset : Nat} {entry : DecodeDefinitionEntry}
    (h : 8 * offset + entry.offset < 2 ^ 64) : bitPosition offset entry = 8 * offset + entry.offset := by
  unfold bitPosition wrappingAdd wrappingMul
  rw [Nat.mod_eq_of_lt (by omega : offset * 8 < 2 ^ 64), Nat.mod_eq_of_lt (by omega)]
  omega

theorem Record.decodeWithCsv_eq_map (r : Record) (layout : List UInt8) (offset : Nat) :
    r.decodeWithCsv layout offset =
      (layoutEntries layout).map fun es =>
        (es.foldl (fun st entry =>
          decodeEntry (r.readField (bitPosition offset entry) entry.size) st entry)
          ⟨Node.root, []⟩).root := by
  unfold decodeWithCsv layoutEntries
  cases fromUtf8 layout with
  | none => rfl
  | some csv =>
    dsimp only
    cases lines csv with
    | nil => rfl
    | cons header rows =>
      dsimp only
      rw [decodeRows_eq]
      cases csvEntries _ rows <;> rfl

/-- `decode_with_csv` builds the reference decoder's tree, and fails with its
error, whenever the record's bit positions fit a `usize` and no field's bit
position reaches `2 ^ 64`. -/
theorem Record.decodeWithCsv_eq_referenceDecode (r : Record) (layout : List UInt8) (offset : Nat)
    (hlen : 8 * r.data.length < 2 ^ 64)
    (hpos : ∀ es, layoutEntries layout = .ok es → ∀ e ∈ es, 8 * offset + e.offset < 2 ^ 64) :
    r.decodeWithCsv layout offset = r.referenceDecode layout offset := by
  rw [decodeWithCsv_eq_map, referenceDecode]
  cases hes : layoutEntries layout with
  | error e => rfl
  | ok es =>
    simp only [Except.map, buildTree]
    rw [List.foldl_ext _ _ _ fun st e he => by
      rw [bitPosition_of_lt (hpos es hes e he),
        r.readField_eq_bitField_of_fits _ _ (hpos es hes e he) hlen, decodeEntry_eq_referenceStep]]

-- The record and the layout of the example in `decode_with_csv`'s documentation.
def docRecord : Record := ⟨⟨⟨0, 0, 0, 0, false, false⟩, ⟨0, 0⟩, .type1⟩, [0x42]⟩

def docLayout : List UInt8 :=
  "name;offset;size;description;bitfield\nfoo.bar;0;8;;0".toUTF8.data.toList

theorem Record.decodeWithCsv_eq_referenceDecode_doc :
    docRecord.decodeWithCsv docLayout 0 = docRecord.referenceDecode docLayout 0 :=
  Record.decodeWithCsv_eq_referenceDecode _ _ 0 (by decide) fun es hes e he => by
    have hL : layoutEntries docLayout = .ok [{ name := "foo.bar", size := 8 }] := by decide
    rw [hL] at hes
    cases hes
    rw [List.mem_singleton.mp he]
    decide

-- ---------------------------------------------------------------------------
-- One line
-- ---------------------------------------------------------------------------

@[simp] theorem setField_name (description : String) (value : Option UInt64) (node : Node) :
    (setField description value node).name = node.name := rfl

@[simp] theorem setField_children (description : String) (value : Option UInt64) (node : Node) :
    (setField description value node).children = node.children := rfl

theorem walkSegments_of_ne {segments : List String} (h : ∀ s ∈ segments, s ≠ "")
    (path : List String) : walkSegments path segments = path ++ segments := by
  induction segments generalizing path with
  | nil => simp [walkSegments]
  | cons s rest ih =>
    simp only [List.forall_mem_cons] at h
    simp [walkSegments, h.1, ih h.2]

/-- The root after the first segment of a name: a Record of that name is added
unless the root has a child of that name. -/
def addRecord (root : Node) (top : String) : Node :=
  if (root.get top).isNone then root.add (Node.record top) else root

theorem decodeEntry_absolute (value : Option UInt64) (st : DecodeState)
    {entry : DecodeDefinitionEntry} {top : String} {segments : List String}
    (hname : entry.name ≠ "") (hs : split entry.name '.' = top :: segments) (htop : top ≠ "")
    (hseg : ∀ s ∈ segments, s ≠ "") :
    decodeEntry value st entry =
      ⟨(addRecord st.root top).updateAt (top :: segments) (setField entry.description value),
        top :: segments⟩ := by
  simp only [decodeEntry, hname, if_false, hs, htop, walkSegments_of_ne hseg, addRecord]
  rfl

/-- What a line keeps of the root: its name, every node, and distinct names. -/
def KeepsRoot (n n' : Node) : Prop :=
  n'.name = n.name ∧ (∀ p, (n.getByPath p).isSome → (n'.getByPath p).isSome) ∧
    (n.UniqueNames → n'.UniqueNames)

theorem KeepsRoot.refl (n : Node) : KeepsRoot n n := ⟨rfl, fun _ h => h, id⟩

theorem KeepsRoot.trans {n n' n'' : Node} (h : KeepsRoot n n') (h' : KeepsRoot n' n'') :
    KeepsRoot n n'' :=
  ⟨h'.1.trans h.1, fun p hp => h'.2.1 p (h.2.1 p hp), fun hu => h'.2.2 (h.2.2 hu)⟩

theorem keepsRoot_updateAt (description : String) (value : Option UInt64) (path : List String)
    (n : Node) : KeepsRoot n (n.updateAt path (setField description value)) :=
  ⟨Node.name_updateAt (f := setField description value) (fun _ => rfl) path n,
    fun _ h => Node.isSome_getByPath_updateAt (f := setField description value) (fun _ => rfl)
      (fun _ => rfl) path h,
    Node.UniqueNames.updateAt (f := setField description value) (fun _ => rfl)
      (fun _ hm => hm.with_fields _ _) path⟩

theorem keepsRoot_addRecord (n : Node) (top : String) : KeepsRoot n (addRecord n top) := by
  unfold addRecord
  split
  · next hnone =>
    exact ⟨rfl, fun _ h => Node.isSome_getByPath_add _ h,
      fun h => h.add (Node.UniqueNames.leaf _ _ _) (Option.isNone_iff_eq_none.mp hnone)⟩
  · exact KeepsRoot.refl n

theorem keepsRoot_decodeEntry (value : Option UInt64) (st : DecodeState)
    (entry : DecodeDefinitionEntry) : KeepsRoot st.root (decodeEntry value st entry).root := by
  unfold decodeEntry
  split
  · exact KeepsRoot.refl _
  · split
    · exact KeepsRoot.refl _
    · next top segments _ =>
      split
      · exact keepsRoot_updateAt _ _ _ _
      · exact (keepsRoot_addRecord _ top).trans (keepsRoot_updateAt _ _ _ _)

theorem decodeEntry_absolute_step (value : Option UInt64) (st : DecodeState)
    {entry : DecodeDefinitionEntry} (habs : entry.name ≠ "" → ∀ s ∈ split entry.name '.', s ≠ "") :
    (decodeEntry value st entry).root.kind = st.root.kind ∧
      (decodeEntry value st entry).root.description = st.root.description ∧
      (entry.name ≠ "" → ((decodeEntry value st entry).root.getByPath (split entry.name '.')).isSome) := by
  by_cases hname : entry.name = ""
  · simp [decodeEntry, hname]
  · obtain ⟨top, segments, hs⟩ := List.exists_cons_of_ne_nil (split_ne_nil entry.name '.')
    have hall := habs hname
    rw [hs, List.forall_mem_cons] at hall
    obtain ⟨m, hm⟩ := Node.getByPath_updateAt (f := setField entry.description value)
      (fun _ => rfl) (top :: segments) (addRecord st.root top)
    rw [decodeEntry_absolute value st hname hs hall.1 hall.2, hs]
    refine ⟨?_, ?_, fun _ => by simp [hm]⟩ <;> unfold addRecord <;> split <;> rfl

-- ---------------------------------------------------------------------------
-- Whole runs
-- ---------------------------------------------------------------------------

section
variable (read : DecodeDefinitionEntry → Option UInt64)

theorem keepsRoot_foldl (es : List DecodeDefinitionEntry) (st : DecodeState) :
    KeepsRoot st.root (es.foldl (fun st e => decodeEntry (read e) st e) st).root := by
  induction es generalizing st with
  | nil => exact KeepsRoot.refl _
  | cons e es ih => exact (keepsRoot_decodeEntry (read e) st e).trans (ih _)

theorem foldl_decodeEntry_absolute (es : List DecodeDefinitionEntry)
    (habs : ∀ e ∈ es, e.name ≠ "" → ∀ s ∈ split e.name '.', s ≠ "") (st : DecodeState) :
    (es.foldl (fun st e => decodeEntry (read e) st e) st).root.kind = st.root.kind ∧
      (es.foldl (fun st e => decodeEntry (read e) st e) st).root.description = st.root.description ∧
      ∀ e ∈ es, e.name ≠ "" →
        ((es.foldl (fun st e => decodeEntry (read e) st e) st).root.getByPath
          (split e.name '.')).isSome := by
  induction es generalizing st with
  | nil => simp
  | cons e es ih =>
    simp only [List.forall_mem_cons] at habs ⊢
    obtain ⟨hk0, hd0, hp0⟩ := decodeEntry_absolute_step (read e) st habs.1
    obtain ⟨hk, hd, hp⟩ := ih habs.2 (decodeEntry (read e) st e)
    exact ⟨hk.trans hk0, hd.trans hd0, fun h => (keepsRoot_foldl read es _).2.1 _ (hp0 h), hp⟩

end

/-- No node of a tree `decode_with_csv` returns has two children of one name. -/
theorem Record.decodeWithCsv_uniqueNames {r : Record} {layout : List UInt8} {offset : Nat}
    {root : Node} (h : r.decodeWithCsv layout offset = .ok root) : root.UniqueNames := by
  rw [decodeWithCsv_eq_map] at h
  cases hes : layoutEntries layout with
  | error e => rw [hes] at h; cases h
  | ok es =>
    rw [hes] at h
    cases h
    exact (keepsRoot_foldl _ es _).2.2 (Node.UniqueNames.leaf _ _ _)

theorem Record.decodeWithCsv_uniqueNames_doc :
    docRecord.decodeWithCsv docLayout 0 =
        .ok ⟨"", "", .root, [⟨"foo", "", .record, [⟨"bar", "", .field 0x42, []⟩]⟩]⟩ ∧
      Node.UniqueNames ⟨"", "", .root, [⟨"foo", "", .record, [⟨"bar", "", .field 0x42, []⟩]⟩]⟩ :=
  have h : docRecord.decodeWithCsv docLayout 0 =
      .ok ⟨"", "", .root, [⟨"foo", "", .record, [⟨"bar", "", .field 0x42, []⟩]⟩]⟩ := by decide
  ⟨h, Record.decodeWithCsv_uniqueNames h⟩

/-- When every name's segments are all non-empty, the root `decode_with_csv`
returns is the nameless container it started as, and each line's node is at
its name's segments. -/
theorem Record.decodeWithCsv_absolute {r : Record} {layout : List UInt8} {offset : Nat}
    {root : Node} {es : List DecodeDefinitionEntry} (h : r.decodeWithCsv layout offset = .ok root)
    (hes : layoutEntries layout = .ok es)
    (habs : ∀ e ∈ es, e.name ≠ "" → ∀ s ∈ split e.name '.', s ≠ "") :
    root.name = "" ∧ root.kind = .root ∧ root.description = "" ∧
      ∀ e ∈ es, e.name ≠ "" → (root.getByPath (split e.name '.')).isSome := by
  rw [decodeWithCsv_eq_map, hes] at h
  cases h
  obtain ⟨hk, hd, hp⟩ := foldl_decodeEntry_absolute _ es habs ⟨Node.root, []⟩
  exact ⟨(keepsRoot_foldl _ es _).1, hk, hd, hp⟩

theorem Record.decodeWithCsv_absolute_doc :
    let root : Node := ⟨"", "", .root, [⟨"foo", "", .record, [⟨"bar", "", .field 0x42, []⟩]⟩]⟩
    root.name = "" ∧ root.kind = .root ∧ root.description = "" ∧
      ∀ e ∈ [({ name := "foo.bar", size := 8 } : DecodeDefinitionEntry)], e.name ≠ "" →
        (root.getByPath (split e.name '.')).isSome :=
  @Record.decodeWithCsv_absolute docRecord docLayout 0 _ _ (by decide) (by decide) (by decide)

/-- The documentation's own check: the field `foo.bar` reads `0x42`. -/
example : ((docRecord.decodeWithCsv docLayout 0).toOption.bind (Node.getByPath ["foo", "bar"])).map
    (·.kind) = some (.field 0x42) := by decide

/-- A byte offset of `2 ^ 61` makes the `usize` position `8 * offset` wrap to 0:
the field reads the record's first byte, where the reference reads nothing. -/
theorem Record.decodeWithCsv_offset_wraps :
    docRecord.decodeWithCsv "name;offset;size\nfoo;0;8".toUTF8.data.toList (2 ^ 61) =
        .ok ⟨"", "", .root, [⟨"foo", "", .field 0x42, []⟩]⟩ ∧
      docRecord.referenceDecode "name;offset;size\nfoo;0;8".toUTF8.data.toList (2 ^ 61) =
        .ok ⟨"", "", .root, [Node.record "foo"]⟩ := by
  decide

end CrashLog
