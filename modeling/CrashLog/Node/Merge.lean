import CrashLog.Node
import CrashLog.Text

/-!
# Merging node trees

Modelled from the spec: `node.rs` is not among the sources. `Node::merge`
"unions child sets, descending by name, preserving insertion order and
overwriting leaf kind/description from the right-hand side when present": each
child of the right-hand side is merged into the first child of its key on the
left, or appended when there is none; a field of the right-hand side replaces
the left kind, and a non-empty description of the right-hand side replaces the
left one. `decode_without_cm`, `decode`, `decode_with_decode_def` and
`decode_as_core_record` put every tree they return together with it, and
`create_hierarchy` walks a dotted path.

A lookup in a merged tree is the right-biased union of the lookups in its two
sides (`getByPath_merge`): every node of either side is found at its path, a
node found on both sides is their merge, and nothing else is found. Merging
keeps the keys of every node's children distinct (`UniqueNames.merge`).
-/

namespace CrashLog

namespace Node

/-- One child `c` of the right-hand side merged into a list of children: the
first child of its key changed by `f`, or `c` appended when there is none. -/
def mergeInto (c : Node) (f : Node → Node) : List Node → List Node
  | [] => [c]
  | x :: xs => if x.key = c.key then f x :: xs else x :: mergeInto c f xs

mutual
/-- `Node::merge`. -/
def merge (n : Node) : Node → Node
  | ⟨_, description, kind, children⟩ =>
    { n with
      description := if description = "" then n.description else description
      kind := match kind with
        | .field value => .field value
        | _ => n.kind
      children := mergeChildren n.children children }

/-- The right-hand side's children merged in one after another. -/
def mergeChildren (children : List Node) : List Node → List Node
  | [] => children
  | c :: cs => mergeChildren (mergeInto c (·.merge c) children) cs
end

/-- `create_hierarchy(path)`: `create_hierarchy_from_iter` over the segments of
a dotted path. -/
def createHierarchy (path : String) (f : Node → Node) (n : Node) : Node :=
  n.updateAt (split path '.') f

/-- `get_value_by_path`: the value of the field at a dotted path. -/
def getValueByPath (n : Node) (path : String) : Option UInt64 :=
  (n.getByPath (split path '.')).bind fun m =>
    match m.kind with
    | .field value => some value
    | _ => none

/-- What a merge finds under one key, from what each side finds there. -/
def mergeFound : Option Node → Option Node → Option Node
  | some x, some c => some (x.merge c)
  | none, some c => some c
  | x, none => x

@[simp] theorem mergeFound_some (x c : Node) :
    mergeFound (some x) (some c) = some (x.merge c) := rfl

@[simp] theorem mergeFound_none_left (y : Option Node) : mergeFound none y = y := by
  cases y <;> rfl

@[simp] theorem mergeFound_none_right (x : Option Node) : mergeFound x none = x := by
  cases x <;> rfl

@[simp] theorem name_merge (n r : Node) : (n.merge r).name = n.name := by
  cases r; rfl

@[simp] theorem key_merge (n r : Node) : (n.merge r).key = n.key := by
  rw [key, key, name_merge]

theorem children_merge (n r : Node) :
    (n.merge r).children = mergeChildren n.children r.children := by
  cases r; rfl

-- ---------------------------------------------------------------------------
-- One child merged in
-- ---------------------------------------------------------------------------

section
variable {c : Node} {f : Node → Node}

theorem find?_mergeInto_self (hf : ∀ m, (f m).key = m.key) (xs : List Node) :
    (mergeInto c f xs).find? (·.key = c.key) =
      some (((xs.find? (·.key = c.key)).map f).getD c) := by
  induction xs with
  | nil => simp [mergeInto]
  | cons x xs ih =>
    by_cases h : x.key = c.key
    · simp [mergeInto, h, hf]
    · simp [mergeInto, h, ih, List.find?_cons]

theorem find?_mergeInto_of_ne {k : String} (hne : k ≠ c.key)
    (hf : ∀ m, (f m).key = m.key) (xs : List Node) :
    (mergeInto c f xs).find? (·.key = k) = xs.find? (·.key = k) := by
  induction xs with
  | nil => simp [mergeInto, Ne.symm hne]
  | cons x xs ih =>
    by_cases h : x.key = c.key
    · simp [mergeInto, h, hf, Ne.symm hne, List.find?_cons]
    · simp [mergeInto, h, ih, List.find?_cons]

theorem map_key_mergeInto (hf : ∀ m, (f m).key = m.key) (xs : List Node) :
    (mergeInto c f xs).map Node.key =
      if c.key ∈ xs.map Node.key then xs.map Node.key else xs.map Node.key ++ [c.key] := by
  induction xs with
  | nil => simp [mergeInto]
  | cons x xs ih =>
    by_cases h : x.key = c.key
    · simp [mergeInto, h, hf]
    · by_cases hc : c.key ∈ xs.map Node.key <;> simp [mergeInto, h, ih, hc, Ne.symm h]

theorem nodup_mergeInto (hf : ∀ m, (f m).key = m.key) {xs : List Node}
    (h : (xs.map Node.key).Nodup) : ((mergeInto c f xs).map Node.key).Nodup := by
  rw [map_key_mergeInto hf]
  split
  next => exact h
  next hc => exact List.nodup_append.2 ⟨h, List.nodup_singleton _, by simpa using hc⟩

theorem forall_mem_mergeInto {P : Node → Prop} {xs : List Node} (hxs : ∀ x ∈ xs, P x) (hc : P c)
    (hf : ∀ x ∈ xs, P (f x)) : ∀ y ∈ mergeInto c f xs, P y := by
  induction xs with
  | nil => simpa [mergeInto] using hc
  | cons x xs ih =>
    simp only [List.forall_mem_cons] at hxs hf
    by_cases h : x.key = c.key
    · simpa [mergeInto, h] using ⟨hf.1, hxs.2⟩
    · simpa [mergeInto, h] using ⟨hxs.1, ih hxs.2 hf.2⟩

end

theorem find?_eq_none_of_not_mem {cs : List Node} {k : String} (h : k ∉ cs.map Node.key) :
    cs.find? (·.key = k) = none :=
  List.find?_eq_none.2 fun x hx he => h (List.mem_map.2 ⟨x, hx, of_decide_eq_true he⟩)

theorem find?_mergeChildren {cs : List Node} (hcs : (cs.map Node.key).Nodup) (ls : List Node)
    (k : String) :
    (mergeChildren ls cs).find? (·.key = k) =
      mergeFound (ls.find? (·.key = k)) (cs.find? (·.key = k)) := by
  induction cs generalizing ls with
  | nil => simp [mergeChildren]
  | cons c cs ih =>
    rw [List.map_cons, List.nodup_cons] at hcs
    rw [mergeChildren, ih hcs.2]
    by_cases h : c.key = k
    · subst h
      rw [find?_eq_none_of_not_mem hcs.1, find?_mergeInto_self (key_merge · c),
        List.find?_cons_of_pos _ (by simp)]
      cases ls.find? (·.key = c.key) <;> rfl
    · rw [find?_mergeInto_of_ne (Ne.symm h) (key_merge · c),
        List.find?_cons_of_neg _ (by simpa using h)]

/-- A lookup in a merged tree is the right-biased union of the lookups in its
two sides. -/
theorem getByPath_merge {r : Node} (hr : r.UniqueNames) (n : Node) (p : List String) :
    (n.merge r).getByPath p = mergeFound (n.getByPath p) (r.getByPath p) := by
  induction p generalizing n r with
  | nil => rfl
  | cons name p ih =>
    obtain ⟨rn, rd, rk, rcs⟩ := r
    rw [UniqueNames.iff] at hr
    simp only [getByPath, get, children_merge, find?_mergeChildren hr.1]
    cases hl : n.children.find? (·.key = toAsciiLowercase name) <;>
      cases hc : rcs.find? (·.key = toAsciiLowercase name) with
    | none => simp
    | some c =>
      simp [ih (hr.2 c (List.mem_of_find?_eq_some hc))]

-- ---------------------------------------------------------------------------
-- Merging at the end of a new path
-- ---------------------------------------------------------------------------

theorem getByPath_append (n : Node) (p q : List String) :
    n.getByPath (p ++ q) = (n.getByPath p).bind (getByPath q) := by
  induction p generalizing n with
  | nil => rfl
  | cons s p ih => simp only [List.cons_append, getByPath]; cases n.get s <;> simp [ih]

theorem getByPath_updateAt_of_nil {f : Node → Node} (hf : ∀ m, (f m).name = m.name)
    (p : List String) {n : Node} (hn : n.children = []) :
    ∃ m, m.children = [] ∧ (n.updateAt p f).getByPath p = some (f m) := by
  induction p generalizing n with
  | nil => exact ⟨n, hn, rfl⟩
  | cons s p ih =>
    obtain ⟨m, hm, h⟩ := ih (n := Node.section s) rfl
    have hs : (updateAt p f (Node.section s)).name = s := name_updateAt hf p _
    exact ⟨m, hm, by simp [updateAt, getByPath, get, hn, modifyChild, key, hs, h]⟩

theorem getByPath_updateAt_merge {t : Node} (ht : t.UniqueNames) (p : List String) {n : Node}
    (hn : n.children = []) (name : String) (q : List String) :
    (n.updateAt p (·.merge t)).getByPath (p ++ name :: q) = t.getByPath (name :: q) := by
  obtain ⟨m, hm, h⟩ := getByPath_updateAt_of_nil (name_merge · t) p hn
  rw [getByPath_append, h, Option.some_bind, getByPath_merge ht]
  simp [getByPath, get, hm]

mutual
/-- Merging keeps the keys of every node's children distinct. -/
theorem UniqueNames.merge :
    ∀ {n r : Node}, n.UniqueNames → r.UniqueNames → (n.merge r).UniqueNames
  | ⟨_, _, _, _⟩, ⟨_, _, _, _⟩, .mk hn hn', .mk _ hr' =>
    .mk (uniqueNames_mergeChildren hn hn' hr').1 (uniqueNames_mergeChildren hn hn' hr').2

theorem uniqueNames_mergeChildren {ls : List Node} (hls : (ls.map Node.key).Nodup)
    (hall : ∀ x ∈ ls, x.UniqueNames) : ∀ {cs : List Node}, (∀ c ∈ cs, c.UniqueNames) →
      ((mergeChildren ls cs).map Node.key).Nodup ∧ ∀ x ∈ mergeChildren ls cs, x.UniqueNames
  | [], _ => ⟨hls, hall⟩
  | c :: _, hcs =>
    uniqueNames_mergeChildren (nodup_mergeInto (key_merge · c) hls)
      (forall_mem_mergeInto hall (hcs c (List.mem_cons_self _ _))
        fun x hx => UniqueNames.merge (hall x hx) (hcs c (List.mem_cons_self _ _)))
      fun c' h => hcs c' (List.mem_cons_of_mem _ h)
end

end Node

end CrashLog
