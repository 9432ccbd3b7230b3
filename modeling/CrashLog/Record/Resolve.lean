import CrashLog.Record.Decode

/-!
# Where each line of a layout goes

The abstract view of `decode_with_csv`'s running path: `nextPath` is the path a
line's name resolves to from the path before it by the spec's rules
(`resolvePath`), and `resolvedPaths` lists the path of every named line of a
layout in order. A relative name (an empty first segment) continues from the
line before; each further empty segment pops a level. Two paths name the same
node when their segments have the same keys, so the last writer of a path is
the last line resolved to a path of the same keys.

`decodeEntry` is that resolution followed by one write: a line leaves the tree
alone when its name is empty (`decodeEntry_of_nextPath_none`), and otherwise
writes the node at its path into a tree that holds everything the old one held
(`decodeEntry_of_nextPath_some`). A write keeps what every node at another path
holds (`label_decodeEntry_of_ne`), so over a whole layout each node holds what
the last line resolved to it wrote (`decodeWithCsv_lastWriter`).
-/

namespace CrashLog

-- ---------------------------------------------------------------------------
-- Resolution
-- ---------------------------------------------------------------------------

/-- The path a line resolves to from the running path `current`; a line without
a name resolves to none. -/
def nextPath (current : List String) (entry : DecodeDefinitionEntry) : Option (List String) :=
  if entry.name = "" then none else some (resolvePath current (split entry.name '.'))

/-- The path every named line resolves to, in order, with its entry. -/
def resolvedPaths : List String → List DecodeDefinitionEntry → List (List String × DecodeDefinitionEntry)
  | _, [] => []
  | current, entry :: entries =>
    match nextPath current entry with
    | none => resolvedPaths current entries
    | some path => (path, entry) :: resolvedPaths path entries

/-- The last of the resolved lines whose path has the keys of `path`. -/
def lastWriter (path : List String) (resolved : List (List String × DecodeDefinitionEntry)) :
    Option DecodeDefinitionEntry :=
  (resolved.reverse.find? (·.1.map toAsciiLowercase = path.map toAsciiLowercase)).map (·.2)

-- ---------------------------------------------------------------------------
-- One line
-- ---------------------------------------------------------------------------

theorem isSome_of_map_eq {o o' : Option α} {g : α → β} (h : o.map g = o'.map g)
    (h' : o'.isSome) : o.isSome := by
  cases o <;> cases o' <;> simp_all

theorem extends_addRecord (n : Node) (top : String) : Node.Extends n (addRecord n top) := by
  unfold addRecord
  split
  · exact fun _ h => Node.label_getByPath_add _ h
  · exact fun _ _ => rfl

theorem decodeEntry_of_nextPath_none {value : Option UInt64} {st : DecodeState}
    {entry : DecodeDefinitionEntry} (h : nextPath st.currentPath entry = none) :
    decodeEntry value st entry = st := by
  unfold nextPath at h
  split at h
  · next hname => simp only [decodeEntry, hname, if_true]
  · cases h

theorem decodeEntry_of_nextPath_some (value : Option UInt64) {st : DecodeState}
    {entry : DecodeDefinitionEntry} {path : List String} (h : nextPath st.currentPath entry = some path) :
    ∃ root, Node.Extends st.root root ∧
      decodeEntry value st entry = ⟨root.updateAt path (setField entry.description value), path⟩ := by
  unfold nextPath at h
  split at h
  · cases h
  · next hname =>
    cases h
    obtain ⟨top, segments, hs⟩ := List.exists_cons_of_ne_nil (split_ne_nil entry.name '.')
    simp only [decodeEntry, hname, if_false, hs, resolvePath, ← walkSegments_eq_foldl]
    by_cases htop : top = ""
    · exact ⟨st.root, fun _ _ => rfl, by simp only [htop, if_true]⟩
    · exact ⟨addRecord st.root top, extends_addRecord _ _, by simp only [htop, if_false, addRecord]⟩

theorem currentPath_decodeEntry (value : Option UInt64) (st : DecodeState) (entry : DecodeDefinitionEntry) :
    (decodeEntry value st entry).currentPath = (nextPath st.currentPath entry).getD st.currentPath := by
  cases h : nextPath st.currentPath entry with
  | none => rw [decodeEntry_of_nextPath_none h]; rfl
  | some path =>
    obtain ⟨_, -, he⟩ := decodeEntry_of_nextPath_some value h
    rw [he]; rfl

theorem label_decodeEntry_at (value : Option UInt64) {st : DecodeState}
    {entry : DecodeDefinitionEntry} {path : List String} (h : nextPath st.currentPath entry = some path) :
    ((decodeEntry value st entry).root.getByPath path).map Node.description = some entry.description ∧
      ∀ x, value = some x →
        ((decodeEntry value st entry).root.getByPath path).map Node.kind = some (.field x) := by
  obtain ⟨root, -, he⟩ := decodeEntry_of_nextPath_some value h
  obtain ⟨m, hm⟩ := Node.getByPath_updateAt (f := setField entry.description value) (fun _ => rfl) path root
  rw [he]
  refine ⟨by simp only [hm, Option.map_some']; rfl, fun x hx => ?_⟩
  subst hx
  simp only [hm, Option.map_some']
  rfl

theorem label_decodeEntry_of_ne (value : Option UInt64) {st : DecodeState}
    {entry : DecodeDefinitionEntry} {path p : List String} (h : nextPath st.currentPath entry = some path)
    (hp : p.map toAsciiLowercase ≠ path.map toAsciiLowercase) (hs : (st.root.getByPath p).isSome) :
    ((decodeEntry value st entry).root.getByPath p).map Node.label = (st.root.getByPath p).map Node.label := by
  obtain ⟨root, hroot, he⟩ := decodeEntry_of_nextPath_some value h
  have hr := hroot p hs
  rw [he, ← hr]
  exact Node.label_getByPath_updateAt_of_ne (f := setField entry.description value) (fun _ => rfl)
    (fun _ => rfl) hp
    (isSome_of_map_eq hr hs)

-- ---------------------------------------------------------------------------
-- Whole layouts
-- ---------------------------------------------------------------------------

theorem lastWriter_cons (path q : List String) (e : DecodeDefinitionEntry)
    (resolved : List (List String × DecodeDefinitionEntry)) :
    lastWriter path ((q, e) :: resolved) =
      (lastWriter path resolved).or
        (if q.map toAsciiLowercase = path.map toAsciiLowercase then some e else none) := by
  unfold lastWriter
  rw [List.reverse_cons, List.find?_append]
  cases resolved.reverse.find? (·.1.map toAsciiLowercase = path.map toAsciiLowercase) <;>
    by_cases hq : q.map toAsciiLowercase = path.map toAsciiLowercase <;> simp [hq]

theorem lastWriter_eq_none {path : List String} {resolved : List (List String × DecodeDefinitionEntry)} :
    lastWriter path resolved = none ↔
      ∀ pe ∈ resolved, pe.1.map toAsciiLowercase ≠ path.map toAsciiLowercase := by
  unfold lastWriter
  rw [Option.map_eq_none', List.find?_eq_none]
  simp only [List.mem_reverse, decide_eq_true_eq]

theorem map_description_eq (o : Option Node) :
    o.map Node.description = (o.map Node.label).map Prod.fst := by cases o <;> rfl

theorem map_kind_eq (o : Option Node) : o.map Node.kind = (o.map Node.label).map Prod.snd := by
  cases o <;> rfl

section
variable (read : DecodeDefinitionEntry → Option UInt64)

theorem label_foldl_of_not_written (es : List DecodeDefinitionEntry) {p : List String} :
    ∀ st : DecodeState,
      (∀ pe ∈ resolvedPaths st.currentPath es, pe.1.map toAsciiLowercase ≠ p.map toAsciiLowercase) →
      (st.root.getByPath p).isSome →
      ((es.foldl (fun st e => decodeEntry (read e) st e) st).root.getByPath p).map Node.label =
        (st.root.getByPath p).map Node.label := by
  induction es with
  | nil => exact fun _ _ _ => rfl
  | cons e es ih =>
    intro st hw hs
    simp only [List.foldl_cons]
    cases hn : nextPath st.currentPath e with
    | none =>
      rw [decodeEntry_of_nextPath_none hn]
      exact ih st (by simpa only [resolvedPaths, hn] using hw) hs
    | some q =>
      simp only [resolvedPaths, hn, List.forall_mem_cons] at hw
      have hstep := label_decodeEntry_of_ne (read e) hn (Ne.symm hw.1) hs
      have hcur : (decodeEntry (read e) st e).currentPath = q := by
        rw [currentPath_decodeEntry, hn]; rfl
      rw [ih _ (hcur ▸ hw.2) (isSome_of_map_eq hstep hs), hstep]

/-- The run lemma: the node at a path holds what the last line resolved to it
wrote. -/
theorem label_foldl_lastWriter (es : List DecodeDefinitionEntry) {p : List String}
    {e : DecodeDefinitionEntry} :
    ∀ st : DecodeState, lastWriter p (resolvedPaths st.currentPath es) = some e →
      ((es.foldl (fun st e => decodeEntry (read e) st e) st).root.getByPath p).map Node.description =
          some e.description ∧
        ∀ x, read e = some x →
          ((es.foldl (fun st e => decodeEntry (read e) st e) st).root.getByPath p).map Node.kind =
            some (.field x) := by
  induction es with
  | nil => intro st hw; cases hw
  | cons e0 es ih =>
    intro st hw
    simp only [List.foldl_cons]
    cases hn : nextPath st.currentPath e0 with
    | none =>
      rw [decodeEntry_of_nextPath_none hn]
      exact ih st (by simpa only [resolvedPaths, hn] using hw)
    | some q =>
      have hcur : (decodeEntry (read e0) st e0).currentPath = q := by
        rw [currentPath_decodeEntry, hn]; rfl
      simp only [resolvedPaths, hn, lastWriter_cons] at hw
      cases hlast : lastWriter p (resolvedPaths q es) with
      | some e' =>
        rw [hlast] at hw
        cases hw
        exact ih _ (hcur ▸ hlast)
      | none =>
        rw [hlast] at hw
        by_cases hq : q.map toAsciiLowercase = p.map toAsciiLowercase
        · simp only [hq, if_true, Option.none_or, Option.some.injEq] at hw
          subst hw
          have hat := label_decodeEntry_at (read e0) hn
          rw [Node.getByPath_congr hq] at hat
          obtain ⟨m, hm, -⟩ := Option.map_eq_some'.mp hat.1
          have hnot : ∀ pe ∈ resolvedPaths (decodeEntry (read e0) st e0).currentPath es,
              pe.1.map toAsciiLowercase ≠ p.map toAsciiLowercase := by
            rw [hcur]; exact lastWriter_eq_none.mp hlast
          have hframe := label_foldl_of_not_written read es _ hnot (by rw [hm]; rfl)
          refine ⟨?_, fun x hx => ?_⟩
          · rw [map_description_eq, hframe, ← map_description_eq]; exact hat.1
          · rw [map_kind_eq, hframe, ← map_kind_eq]; exact hat.2 x hx
        · simp [hq] at hw

end

/-- Every node of a tree `decode_with_csv` returns at a path some line resolved
to holds what the last line resolved to a path of the same keys wrote: its
description, and its value when `read_field` read one. -/
theorem Record.decodeWithCsv_lastWriter {r : Record} {layout : List UInt8} {offset : Nat}
    {root : Node} {es : List DecodeDefinitionEntry} (h : r.decodeWithCsv layout offset = .ok root)
    (hes : layoutEntries layout = .ok es) {path : List String} {e : DecodeDefinitionEntry}
    (hw : lastWriter path (resolvedPaths [] es) = some e) :
    (root.getByPath path).map Node.description = some e.description ∧
      ∀ x, r.readField (bitPosition offset e) e.size = some x →
        (root.getByPath path).map Node.kind = some (.field x) := by
  rw [decodeWithCsv_eq_map, hes] at h
  cases h
  exact label_foldl_lastWriter _ es ⟨Node.root, []⟩ hw

-- A layout whose second line is relative: `..baz` pops `bar` and pushes `baz`.
def relativeLayout : List UInt8 :=
  "name;offset;size;description\nfoo.bar;0;4;low\n..baz;4;4;high".toUTF8.data.toList

theorem Record.decodeWithCsv_lastWriter_relative :
    docRecord.decodeWithCsv relativeLayout 0 = .ok ⟨"", "", .root,
        [⟨"foo", "", .record, [⟨"bar", "low", .field 2, []⟩, ⟨"baz", "high", .field 4, []⟩]⟩]⟩ ∧
      (Node.getByPath ["foo", "baz"] ⟨"", "", .root,
        [⟨"foo", "", .record, [⟨"bar", "low", .field 2, []⟩, ⟨"baz", "high", .field 4, []⟩]⟩]⟩).map
          Node.description = some "high" :=
  have h : docRecord.decodeWithCsv relativeLayout 0 = .ok ⟨"", "", .root,
      [⟨"foo", "", .record, [⟨"bar", "low", .field 2, []⟩, ⟨"baz", "high", .field 4, []⟩]⟩]⟩ := by
    decide
  ⟨h, (@Record.decodeWithCsv_lastWriter docRecord relativeLayout 0 _
    [{ name := "foo.bar", size := 4, description := "low" },
      { name := "..baz", offset := 4, size := 4, description := "high" }] h (by decide) ["foo", "baz"]
    { name := "..baz", offset := 4, size := 4, description := "high" } (by decide)).1⟩

end CrashLog
