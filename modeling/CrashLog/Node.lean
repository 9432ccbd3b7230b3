import Mathlib

/-!
# The node tree

Modelled from the spec: `node.rs` is not among the sources. A node has a name, a
description, a kind and its children in insertion order; the root is a nameless
container. A child is found under its key, its name in ASCII lower case: the
repository's tests and the spec's scenarios S6 and S7 find the Record that
`decode_header` names `MCA` at `mca`, so `get`, `create_hierarchy_from_iter` and
`merge` match children by key. `decode_with_csv` uses four operations of the
tree: `Node::root`, `Node::record`, `get` and `add` on the root, and
`create_hierarchy_from_iter`, which walks a path from a node, adding a Section for
each segment no child has the key of, and hands back the node at its end. The
model is the tree after that node has been changed (`updateAt`), and `getByPath`
looks a path up.

Three facts carry the decoder's results. The node `updateAt` changes is the one
`getByPath` finds at its path (`getByPath_updateAt`), every node at a path of
other keys keeps its description and kind (`label_getByPath_updateAt_of_ne`), and
nodes whose children have distinct keys keep them distinct
(`UniqueNames.updateAt`, `UniqueNames.add`), as the spec's tree, "a vector with
uniqueness enforced on insert", requires.
-/

namespace CrashLog

/-- `str::to_ascii_lowercase`. -/
def toAsciiLowercase (s : String) : String := ⟨s.data.map Char.toLower⟩

theorem toNat_toLower_of_upper {c : Char} (h : 65 ≤ c.toNat ∧ c.toNat ≤ 90) :
    c.toLower.toNat = c.toNat + 32 := by
  have hv : (c.val.toNat + 32).isValidChar := Or.inl (by simp only [Char.toNat] at h; omega)
  simp only [Char.toLower, ge_iff_le, h, and_self, if_true]
  simp [Char.ofNat, hv, Char.ofNatAux, Char.toNat]
  rfl

theorem toLower_toLower (c : Char) : c.toLower.toLower = c.toLower := by
  by_cases h : 65 ≤ c.toNat ∧ c.toNat ≤ 90
  · have h' := toNat_toLower_of_upper h
    show (if c.toLower.toNat ≥ 65 ∧ c.toLower.toNat ≤ 90 then _ else c.toLower) = c.toLower
    rw [if_neg (by omega)]
  · simp only [Char.toLower, ge_iff_le, h, if_false]

theorem toLower_of_isDigit {c : Char} (h : c.isDigit) : c.toLower = c := by
  simp only [Char.isDigit, Bool.and_eq_true, decide_eq_true_eq] at h
  have h1 : 48 ≤ c.toNat := h.1
  have h2 : c.toNat ≤ 57 := h.2
  simp only [Char.toLower]
  rw [if_neg (by omega)]

@[simp] theorem toAsciiLowercase_toAsciiLowercase (s : String) :
    toAsciiLowercase (toAsciiLowercase s) = toAsciiLowercase s := by
  simp only [toAsciiLowercase, List.map_map]
  exact congrArg String.mk (List.map_congr_left fun c _ => toLower_toLower c)

/-- `NodeType`. -/
inductive NodeType where
  | root
  | record
  | section
  | field (value : UInt64)
  deriving DecidableEq, Repr

/-- `Node`. -/
structure Node where
  name : String
  description : String
  kind : NodeType
  children : List Node
  deriving Repr

mutual
def Node.decEq : (a b : Node) → Decidable (a = b)
  | ⟨n1, d1, k1, c1⟩, ⟨n2, d2, k2, c2⟩ =>
    match (inferInstance : Decidable (n1 = n2)), (inferInstance : Decidable (d1 = d2)),
      (inferInstance : Decidable (k1 = k2)), Node.decEqList c1 c2 with
    | isTrue h1, isTrue h2, isTrue h3, isTrue h4 => isTrue (by subst h1 h2 h3 h4; rfl)
    | isFalse h, _, _, _ => isFalse fun e => h (congrArg Node.name e)
    | _, isFalse h, _, _ => isFalse fun e => h (congrArg Node.description e)
    | _, _, isFalse h, _ => isFalse fun e => h (congrArg Node.kind e)
    | _, _, _, isFalse h => isFalse fun e => h (congrArg Node.children e)

def Node.decEqList : (a b : List Node) → Decidable (a = b)
  | [], [] => isTrue rfl
  | [], _ :: _ => isFalse nofun
  | _ :: _, [] => isFalse nofun
  | a :: as, b :: bs =>
    match Node.decEq a b, Node.decEqList as bs with
    | isTrue h1, isTrue h2 => isTrue (h1 ▸ h2 ▸ rfl)
    | isFalse h, _ => isFalse fun e => h (List.head_eq_of_cons_eq e)
    | _, isFalse h => isFalse fun e => h (List.tail_eq_of_cons_eq e)
end

instance : DecidableEq Node := Node.decEq

namespace Node

/-- `Node::root`. -/
def root : Node := ⟨"", "", .root, []⟩

/-- `Node::record`. -/
def record (name : String) : Node := ⟨name, "", .record, []⟩

/-- `Node::section`. -/
def «section» (name : String) : Node := ⟨name, "", .section, []⟩

/-- `Node::field`. -/
def field (name : String) (value : UInt64) : Node := ⟨name, "", .field value, []⟩

/-- The key a node is found under among its siblings: its name in ASCII lower case. -/
def key (n : Node) : String := toAsciiLowercase n.name

/-- `Node::get`: the first child under the key of `name`. -/
def get (n : Node) (name : String) : Option Node := n.children.find? (·.key = toAsciiLowercase name)

/-- `Node::add`. `decode_with_csv` only adds a child whose key is not taken. -/
def add (n : Node) (child : Node) : Node := { n with children := n.children ++ [child] }

def addAll (n : Node) (children : List Node) : Node := children.foldl add n

theorem addAll_eq (n : Node) (children : List Node) :
    n.addAll children = { n with children := n.children ++ children } := by
  induction children generalizing n with
  | nil => cases n; simp only [addAll, List.foldl_nil, List.append_nil]
  | cons c cs ih =>
    rw [addAll, List.foldl_cons, ← addAll, ih]
    simp only [add, List.append_assoc, List.singleton_append]

@[simp] theorem name_addAll (n : Node) (children : List Node) : (n.addAll children).name = n.name := by
  rw [addAll_eq]

/-- One level of `create_hierarchy_from_iter`: the first child under the key of
`name` changed by `f`, or, when there is none, a new Section of that name,
changed by `f` and appended. -/
def modifyChild (name : String) (f : Node → Node) : List Node → List Node
  | [] => [f (Node.section name)]
  | c :: cs => if c.key = toAsciiLowercase name then f c :: cs else c :: modifyChild name f cs

/-- `create_hierarchy_from_iter(path)`, and the change `f` of the node it hands
back. -/
def updateAt : List String → (Node → Node) → Node → Node
  | [], f, n => f n
  | segment :: rest, f, n => { n with children := modifyChild segment (updateAt rest f) n.children }

/-- `get_by_path` on a path's segments. -/
def getByPath : List String → Node → Option Node
  | [], n => some n
  | segment :: rest, n => (n.get segment).bind (getByPath rest)

/-- What a node holds besides its name and children. -/
def label (n : Node) : String × NodeType := (n.description, n.kind)

/-- Every node's children have distinct keys. -/
inductive UniqueNames : Node → Prop
  | mk {name description kind children} : (children.map Node.key).Nodup →
      (∀ c ∈ children, UniqueNames c) → UniqueNames ⟨name, description, kind, children⟩

/-- A lookup reads a path only through the keys of its segments. -/
theorem getByPath_congr {p q : List String} (h : p.map toAsciiLowercase = q.map toAsciiLowercase)
    (n : Node) : n.getByPath p = n.getByPath q := by
  induction p generalizing q n with
  | nil => cases q with
    | nil => rfl
    | cons _ _ => cases h
  | cons s p ih => cases q with
    | nil => cases h
    | cons s' q =>
      simp only [List.map_cons, List.cons.injEq] at h
      simp only [getByPath, get, h.1, ih h.2]

-- ---------------------------------------------------------------------------
-- Looking up what was changed
-- ---------------------------------------------------------------------------

section
variable {f : Node → Node}

@[simp] theorem updateAt_nil (n : Node) : n.updateAt [] f = f n := rfl

theorem name_updateAt (hf : ∀ m, (f m).name = m.name) (p : List String) (n : Node) :
    (n.updateAt p f).name = n.name := by
  cases p with
  | nil => exact hf n
  | cons _ _ => rfl

theorem key_of_name (hf : ∀ m, (f m).name = m.name) (m : Node) : (f m).key = m.key := by
  rw [key, key, hf]

theorem find?_modifyChild (hf : ∀ m, (f m).name = m.name) (name : String) (cs : List Node) :
    ∃ m, (modifyChild name f cs).find? (·.key = toAsciiLowercase name) = some (f m) := by
  induction cs with
  | nil => exact ⟨Node.section name, by simp [modifyChild, key, hf, Node.section]⟩
  | cons c cs ih =>
    by_cases h : c.key = toAsciiLowercase name
    · exact ⟨c, by simp [modifyChild, h, key_of_name hf]⟩
    · simpa [modifyChild, h] using ih

/-- The node `updateAt` changes is the one found at its path. -/
theorem getByPath_updateAt (hf : ∀ m, (f m).name = m.name) (p : List String) (n : Node) :
    ∃ m, (n.updateAt p f).getByPath p = some (f m) := by
  induction p generalizing n with
  | nil => exact ⟨n, rfl⟩
  | cons segment rest ih =>
    obtain ⟨m, hm⟩ := find?_modifyChild (name_updateAt hf rest) segment n.children
    obtain ⟨m', hm'⟩ := ih m
    exact ⟨m', by simp only [updateAt, getByPath, get, hm, Option.some_bind, hm']⟩

theorem find?_modifyChild_of_ne (hf : ∀ m, (f m).name = m.name) {name k : String}
    (hne : k ≠ toAsciiLowercase name) (cs : List Node) :
    (modifyChild name f cs).find? (·.key = k) = cs.find? (·.key = k) := by
  induction cs with
  | nil => simp [modifyChild, key, hf, Node.section, Ne.symm hne]
  | cons c cs ih =>
    by_cases h : c.key = toAsciiLowercase name
    · have hc : ¬c.key = k := fun h' => hne (h'.symm.trans h)
      simp [modifyChild, h, List.find?_cons, key_of_name hf, hc, Ne.symm hne]
    · by_cases hc : c.key = k <;> simp [modifyChild, h, hc, ih, hne]

theorem find?_modifyChild_of_find? (hf : ∀ m, (f m).name = m.name) {name : String}
    {cs : List Node} {c : Node} (h : cs.find? (·.key = toAsciiLowercase name) = some c) :
    (modifyChild name f cs).find? (·.key = toAsciiLowercase name) = some (f c) := by
  induction cs with
  | nil => cases h
  | cons c' cs ih =>
    by_cases hc : c'.key = toAsciiLowercase name
    · simp only [List.find?_cons, hc, decide_True, Option.some.injEq] at h
      subst h
      simp [modifyChild, hc, key_of_name hf]
    · simp only [List.find?_cons, hc, decide_False] at h
      simp [modifyChild, hc, ih h]

theorem exists_of_getByPath_isSome {n : Node} {segment : String} {rest : List String}
    (h : (n.getByPath (segment :: rest)).isSome) :
    ∃ c, n.children.find? (·.key = toAsciiLowercase segment) = some c ∧
      (c.getByPath rest).isSome := by
  simp only [getByPath, get] at h
  cases hg : n.children.find? (·.key = toAsciiLowercase segment) <;> simp_all

theorem isSome_getByPath_updateAt (hf : ∀ m, (f m).name = m.name)
    (hc : ∀ m, (f m).children = m.children) {p : List String} (q : List String) {n : Node}
    (h : (n.getByPath p).isSome) : ((n.updateAt q f).getByPath p).isSome := by
  induction p generalizing q n with
  | nil => rfl
  | cons segment rest ih =>
    cases q with
    | nil => simpa [getByPath, get, hc] using h
    | cons segment' rest' =>
      obtain ⟨c, hget, hc'⟩ := exists_of_getByPath_isSome h
      simp only [getByPath, get, updateAt]
      by_cases hs : toAsciiLowercase segment = toAsciiLowercase segment'
      · rw [hs] at hget ⊢
        rw [find?_modifyChild_of_find? (name_updateAt hf rest') hget]
        exact ih rest' hc'
      · rw [find?_modifyChild_of_ne (name_updateAt hf rest') hs, hget]
        exact hc'

theorem isSome_getByPath_add {p : List String} {n : Node} (c : Node) (h : (n.getByPath p).isSome) :
    ((n.add c).getByPath p).isSome := by
  cases p with
  | nil => rfl
  | cons segment rest =>
    simp only [getByPath, get, add] at h ⊢
    rw [List.find?_append]
    cases hg : n.children.find? (·.key = toAsciiLowercase segment) <;> simp_all

/-- A change at one path keeps what a node found at a path of other keys holds. -/
theorem label_getByPath_updateAt_of_ne (hf : ∀ m, (f m).name = m.name)
    (hc : ∀ m, (f m).children = m.children) {p q : List String}
    (hpq : p.map toAsciiLowercase ≠ q.map toAsciiLowercase) {n : Node}
    (h : (n.getByPath p).isSome) :
    ((n.updateAt q f).getByPath p).map label = (n.getByPath p).map label := by
  induction p generalizing q n with
  | nil =>
    cases q with
    | nil => exact absurd rfl hpq
    | cons _ _ => rfl
  | cons segment rest ih =>
    cases q with
    | nil => simp only [updateAt, getByPath, get, hc]
    | cons segment' rest' =>
      obtain ⟨c, hget, hc'⟩ := exists_of_getByPath_isSome h
      simp only [getByPath, get, updateAt, hget]
      by_cases hs : toAsciiLowercase segment = toAsciiLowercase segment'
      · rw [hs] at hget ⊢
        rw [find?_modifyChild_of_find? (name_updateAt hf rest') hget]
        exact ih (fun h => hpq (by simp only [List.map_cons, hs, h])) hc'
      · rw [find?_modifyChild_of_ne (name_updateAt hf rest') hs, hget]

theorem label_getByPath_add (c : Node) {p : List String} {n : Node} (h : (n.getByPath p).isSome) :
    ((n.add c).getByPath p).map label = (n.getByPath p).map label := by
  cases p with
  | nil => rfl
  | cons segment rest =>
    simp only [getByPath, get, add] at h ⊢
    rw [List.find?_append]
    cases hg : n.children.find? (·.key = toAsciiLowercase segment) <;> simp_all

end

/-- `n'` holds at every path of `n` what `n` holds there. -/
def Extends (n n' : Node) : Prop :=
  ∀ p, (n.getByPath p).isSome → (n'.getByPath p).map label = (n.getByPath p).map label

-- ---------------------------------------------------------------------------
-- Distinct keys
-- ---------------------------------------------------------------------------

namespace UniqueNames

theorem iff {name description kind children} :
    UniqueNames ⟨name, description, kind, children⟩ ↔
      (children.map Node.key).Nodup ∧ ∀ c ∈ children, UniqueNames c :=
  ⟨fun | mk h1 h2 => ⟨h1, h2⟩, fun h => mk h.1 h.2⟩

theorem leaf (name description : String) (kind : NodeType) :
    UniqueNames ⟨name, description, kind, []⟩ :=
  mk List.nodup_nil nofun

theorem with_fields {n : Node} (h : n.UniqueNames) (description : String) (kind : NodeType) :
    UniqueNames { n with description := description, kind := kind } := by
  cases h with
  | mk h1 h2 => exact mk h1 h2

theorem map_key_modifyChild {f : Node → Node} (hf : ∀ m, (f m).name = m.name) (name : String)
    (cs : List Node) :
    (modifyChild name f cs).map Node.key =
      if toAsciiLowercase name ∈ cs.map Node.key then cs.map Node.key
      else cs.map Node.key ++ [toAsciiLowercase name] := by
  induction cs with
  | nil => simp [modifyChild, key, hf, Node.section]
  | cons c cs ih =>
    by_cases h : c.key = toAsciiLowercase name
    · simp [modifyChild, h, key_of_name hf]
    · rw [Node.modifyChild, if_neg h, List.map_cons, List.map_cons, ih]
      by_cases hm : toAsciiLowercase name ∈ cs.map Node.key
      · rw [if_pos hm, if_pos (List.mem_cons_of_mem _ hm)]
      · rw [if_neg hm, if_neg (by simpa [Ne.symm h] using hm), List.cons_append]

theorem modifyChild {f : Node → Node} (hf : ∀ m, (f m).name = m.name)
    (hu : ∀ m, m.UniqueNames → (f m).UniqueNames) {name : String} {cs : List Node}
    (hn : (cs.map Node.key).Nodup) (hc : ∀ c ∈ cs, UniqueNames c) :
    ((Node.modifyChild name f cs).map Node.key).Nodup ∧
      ∀ c ∈ Node.modifyChild name f cs, UniqueNames c := by
  refine ⟨?_, ?_⟩
  · rw [map_key_modifyChild hf]
    split
    · exact hn
    · next hm => exact hn.append (List.nodup_singleton _) (List.disjoint_singleton.mpr hm)
  · induction cs with
    | nil =>
      simp only [Node.modifyChild, List.mem_singleton, forall_eq]
      exact hu _ (leaf _ _ _)
    | cons c cs ih =>
      simp only [List.map_cons, List.nodup_cons] at hn
      simp only [List.forall_mem_cons] at hc
      simp only [Node.modifyChild]
      split
      · simpa using ⟨hu c hc.1, hc.2⟩
      · simpa using ⟨hc.1, ih hn.2 hc.2⟩

/-- `updateAt` keeps keys distinct when its change does. -/
theorem updateAt {f : Node → Node} (hf : ∀ m, (f m).name = m.name)
    (hu : ∀ m, m.UniqueNames → (f m).UniqueNames) (p : List String) {n : Node}
    (h : n.UniqueNames) : (n.updateAt p f).UniqueNames := by
  induction p generalizing n with
  | nil => exact hu n h
  | cons segment rest ih =>
    cases h with
    | mk hn hc => exact iff.mpr (modifyChild (name_updateAt hf rest) (fun _ => ih) hn hc)

/-- Adding a child whose key is not taken keeps keys distinct. -/
theorem add {n c : Node} (h : n.UniqueNames) (hc : c.UniqueNames) (hget : n.get c.name = none) :
    (n.add c).UniqueNames := by
  cases h with
  | mk hn hcs =>
    have hnot : c.key ∉ _ := fun hm => by
      obtain ⟨c', hc', he⟩ := List.mem_map.mp hm
      exact List.find?_eq_none.mp hget c' hc' (by simpa using he)
    refine iff.mpr ⟨?_, ?_⟩
    · simpa [List.nodup_append, hnot] using hn
    · intro c' hc'
      rcases List.mem_append.mp hc' with h | h
      · exact hcs c' h
      · rw [List.mem_singleton.mp h]
        exact hc

theorem addAll {n : Node} {cs : List Node} (h : n.UniqueNames)
    (hkeys : ((n.children ++ cs).map Node.key).Nodup) (hc : ∀ c ∈ cs, c.UniqueNames) :
    (n.addAll cs).UniqueNames := by
  rw [addAll_eq]
  cases h with
  | mk _ hcs =>
    refine iff.mpr ⟨hkeys, fun c hm => ?_⟩
    rcases List.mem_append.mp hm with h | h
    · exact hcs c h
    · exact hc c h

end UniqueNames

theorem get_of_mem {n c : Node} (hn : (n.children.map Node.key).Nodup) (hc : c ∈ n.children) :
    n.get c.name = some c := by
  unfold get
  generalize n.children = cs at hn hc
  induction cs with
  | nil => cases hc
  | cons a cs ih =>
    rw [List.map_cons, List.nodup_cons] at hn
    rcases List.mem_cons.mp hc with rfl | hc
    · simp [key]
    · have hne : a.key ≠ c.key := fun he => hn.1 (he ▸ List.mem_map_of_mem _ hc)
      simp only [List.find?_cons]
      rw [show decide (a.key = toAsciiLowercase c.name) = false from decide_eq_false hne]
      exact ih hn.2 hc

theorem UniqueNames.get_eq {n c : Node} (h : n.UniqueNames) (hc : c ∈ n.children) :
    n.get c.name = some c := by
  cases h with
  | mk hn _ => exact get_of_mem hn hc

end Node

end CrashLog
