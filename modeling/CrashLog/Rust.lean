import Mathlib

/-!
# Rust primitives

The few pieces of Rust the crate's codecs are built from, as pure functions
over byte lists: the checked slice accessors (`slice.get(a..b)`,
`slice.get(a..)`), the indexing that panics (`slice[i]`, `&slice[a..b]`),
`from_le_bytes` and `to_le_bytes`.

A call that can panic returns a `Run`: its value, or `panic`. Machine
integers keep their Rust width (`UInt8` .. `UInt64`); `usize` is a `Nat`, and
where its arithmetic can overflow the model wraps it at `2 ^ 64`, as a release
build does.
-/

namespace CrashLog

instance instDecidableEqExcept [DecidableEq ε] [DecidableEq α] : DecidableEq (Except ε α)
  | .ok a, .ok b => if h : a = b then isTrue (h ▸ rfl) else isFalse fun e => h (Except.ok.inj e)
  | .error a, .error b =>
    if h : a = b then isTrue (h ▸ rfl) else isFalse fun e => h (Except.error.inj e)
  | .ok _, .error _ => isFalse nofun
  | .error _, .ok _ => isFalse nofun

/-- The end of a call to a Rust function that can panic. -/
inductive Run (α : Type) where
  | ret : α → Run α
  | panic : Run α
  deriving DecidableEq, Repr

namespace Run

def bind : Run α → (α → Run β) → Run β
  | ret a, f => f a
  | panic, _ => panic

def map (f : α → β) : Run α → Run β
  | ret a => ret (f a)
  | panic => panic

@[simp] theorem map_ret (f : α → β) (a : α) : (ret a).map f = ret (f a) := rfl
@[simp] theorem map_panic (f : α → β) : (panic : Run α).map f = panic := rfl

instance : Monad Run where
  pure := ret
  bind := bind

@[simp] theorem pure_eq (a : α) : (pure a : Run α) = ret a := rfl
@[simp] theorem ret_bind (a : α) (f : α → Run β) : (ret a >>= f) = f a := rfl
@[simp] theorem panic_bind (f : α → Run β) : (panic >>= f : Run β) = panic := rfl

theorem bind_ret {x : Run α} {f : α → Run β} :
    x >>= f = ret b ↔ ∃ a, x = ret a ∧ f a = ret b := by
  cases x <;> simp

theorem bind_panic {x : Run α} {f : α → Run β} :
    x >>= f = panic ↔ x = panic ∨ ∃ a, x = ret a ∧ f a = panic := by
  cases x <;> simp

end Run

/-- The `usize` sum of a release build. -/
def wrappingAdd (a b : Nat) : Nat := (a + b) % 2 ^ 64

/-- The `usize` product of a release build. -/
def wrappingMul (a b : Nat) : Nat := a * b % 2 ^ 64

/-- The `usize` difference of a release build. -/
def wrappingSub (a b : Nat) : Nat := (a + 2 ^ 64 - b % 2 ^ 64) % 2 ^ 64

-- ---------------------------------------------------------------------------
-- Slices
-- ---------------------------------------------------------------------------

/-- Rust `slice.get(start..stop)`. -/
def getRange (s : List UInt8) (start stop : Nat) : Option (List UInt8) :=
  if start ≤ stop ∧ stop ≤ s.length then some ((s.drop start).take (stop - start)) else none

/-- Rust `slice.get(start..)`. -/
def getFrom (s : List UInt8) (start : Nat) : Option (List UInt8) :=
  if start ≤ s.length then some (s.drop start) else none

/-- Rust `slice[i]`, which panics out of bounds. -/
def index (s : List UInt8) (i : Nat) : Run UInt8 :=
  match s[i]? with
  | some b => .ret b
  | none => .panic

/-- Rust `&slice[start..stop]`, which panics on a reversed or out-of-bounds range. -/
def sliceRange (s : List UInt8) (start stop : Nat) : Run (List UInt8) :=
  match getRange s start stop with
  | some r => .ret r
  | none => .panic

/-- Rust `slice.starts_with(needle)`. -/
def startsWith (s needle : List UInt8) : Bool := s.take needle.length == needle

/-- Rust `Vec::resize(n, value)`: cut to `n` elements, or filled up to `n` with
`value`. -/
def resize (l : List UInt8) (n : Nat) (value : UInt8) : List UInt8 :=
  l.take n ++ List.replicate (n - l.length) value

@[simp] theorem length_resize (l : List UInt8) (n : Nat) (value : UInt8) :
    (resize l n value).length = n := by
  simp only [resize, List.length_append, List.length_take, List.length_replicate]
  omega

theorem resize_of_length {l : List UInt8} (h : l.length = n) : resize l n value = l := by
  subst h
  simp [resize]

/-- `if present { Some(read?) } else { None }`, a field that is read only when a
flag says it is there. -/
def optionalField (present : Bool) (read : Option α) : Option (Option α) :=
  if present then some <$> read else some none

@[simp] theorem optionalField_true (read : Option α) : optionalField true read = some <$> read := rfl
@[simp] theorem optionalField_false (read : Option α) : optionalField false read = some none := rfl

theorem optionalField_some (present : Bool) (a : α) :
    optionalField present (some a) = some (if present then some a else none) := by
  cases present <;> rfl

@[simp] theorem ite_isSome_getD (o : Option α) (d : α) :
    (if o.isSome then some (o.getD d) else none) = o := by
  cases o <;> rfl

@[simp] theorem startsWith_append (needle rest : List UInt8) : startsWith (needle ++ rest) needle = true := by
  simp [startsWith]

/-- Rust `option.ok_or(err)`. -/
def okOr (o : Option α) (err : ε) : Except ε α :=
  match o with
  | some a => .ok a
  | none => .error err

theorem getRange_eq_some_iff {s : List UInt8} :
    getRange s start stop = some r ↔
      start ≤ stop ∧ stop ≤ s.length ∧ r = (s.drop start).take (stop - start) := by
  unfold getRange
  split <;> simp_all [eq_comm, and_assoc]

theorem getFrom_eq_some_iff {s : List UInt8} :
    getFrom s start = some r ↔ start ≤ s.length ∧ r = s.drop start := by
  unfold getFrom
  split <;> simp_all [eq_comm]

theorem length_of_getRange (h : getRange s start stop = some r) : r.length = stop - start := by
  obtain ⟨h1, h2, rfl⟩ := getRange_eq_some_iff.mp h
  simp; omega

theorem getRange_append_of_le {l : List UInt8} (r : List UInt8) (h : stop ≤ l.length) :
    getRange (l ++ r) start stop = getRange l start stop := by
  unfold getRange
  by_cases hs : start ≤ stop
  · simp only [List.length_append, List.drop_append_eq_append_drop, List.take_append_eq_append_take,
      List.length_drop, show stop - start - (l.length - start) = 0 by omega, List.take_zero,
      List.append_nil, hs, h, true_and, show stop ≤ l.length + r.length by omega, if_true]
  · simp [hs]

theorem getRange_append_of_ge {l : List UInt8} (r : List UInt8) (h : l.length ≤ start)
    (hs : start ≤ stop) :
    getRange (l ++ r) start stop = getRange r (start - l.length) (stop - l.length) := by
  unfold getRange
  simp only [List.length_append, List.drop_append_eq_append_drop,
    List.drop_eq_nil_of_le h, List.nil_append]
  congr 1
  · apply propext; omega
  · congr 2; omega

theorem getRange_self {l : List UInt8} (h : l.length = n) : getRange l 0 n = some l := by
  subst h; simp [getRange]

theorem getRange_append_self {l : List UInt8} (r : List UInt8) (h : l.length = n) :
    getRange (l ++ r) 0 n = some l := by
  rw [getRange_append_of_le r (by omega), getRange_self h]

theorem getRange_of_drop {s : List UInt8} (ha : a ≤ s.length) (h : s.drop a = x ++ rest) :
    getRange s a (a + x.length) = some x := by
  have hl := congrArg List.length h
  simp only [List.length_drop, List.length_append] at hl
  simp [getRange, h, show a + x.length ≤ s.length by omega]

theorem getRange_take {s : List UInt8} (h : stop ≤ n) :
    getRange (s.take n) start stop = getRange s start stop := by
  unfold getRange
  by_cases hs : start ≤ stop ∧ stop ≤ s.length
  · rw [if_pos hs, if_pos ⟨hs.1, by simp; omega⟩, List.drop_take, List.take_take]
    congr 2; omega
  · rw [if_neg hs, if_neg (by simp; omega)]

theorem getRange_append_of_some {s : List UInt8} (t : List UInt8)
    (h : getRange s start stop = some r) : getRange (s ++ t) start stop = some r := by
  obtain ⟨h1, h2, -⟩ := getRange_eq_some_iff.mp h
  rwa [getRange_append_of_le t h2]

theorem getElem?_append_of_some {s : List UInt8} {i : Nat} {b : UInt8} (t : List UInt8)
    (h : s[i]? = some b) : (s ++ t)[i]? = some b := by
  rwa [List.getElem?_append_left (List.getElem?_eq_some_iff.mp h).1]

theorem getRange_congr {s t : List UInt8} (h : t.take n = s.take n) (hb : stop ≤ n) :
    getRange t start stop = getRange s start stop := by
  rw [← getRange_take hb, h, getRange_take hb]

theorem getElem?_congr {s t : List UInt8} {i : Nat} (h : t.take n = s.take n) (hi : i < n) :
    t[i]? = s[i]? := by
  rw [← List.getElem?_take_of_lt hi, h, List.getElem?_take_of_lt hi]

theorem index_congr {s t : List UInt8} (h : t.take n = s.take n) (hi : i < n) :
    index t i = index s i := by
  simp only [index, getElem?_congr h hi]

theorem stop_le_of_getRange (h : getRange s start stop = some r) : stop ≤ s.length :=
  (getRange_eq_some_iff.mp h).2.1

theorem mapM_option_congr {f g : α → Option β} :
    ∀ {l : List α}, (∀ a ∈ l, f a = g a) → l.mapM f = l.mapM g
  | [], _ => rfl
  | a :: l, h => by
    simp only [List.mapM_cons, h a (List.mem_cons_self a l),
      mapM_option_congr fun b hb => h b (List.mem_cons_of_mem a hb)]

theorem isSome_of_mapM_option {f : α → Option β} :
    ∀ {l : List α} {r : List β}, l.mapM f = some r → ∀ a ∈ l, (f a).isSome
  | [], _, _ => by simp
  | a :: l, r, h => by
    simp only [List.mapM_cons, Option.bind_eq_bind, Option.bind_eq_some, Option.pure_def,
      Option.some.injEq] at h
    obtain ⟨b, hb, rest, hrest, -⟩ := h
    intro c hc
    rcases List.mem_cons.mp hc with rfl | hc
    · simp [hb]
    · exact isSome_of_mapM_option hrest c hc

-- ---------------------------------------------------------------------------
-- Little-endian integers
-- ---------------------------------------------------------------------------

/-- The number little-endian bytes stand for. -/
def leNat : List UInt8 → Nat
  | [] => 0
  | b :: bs => b.toNat + 256 * leNat bs

/-- The `n` little-endian bytes of `x`, which keep `x % 256 ^ n`. -/
def leBytes : Nat → Nat → List UInt8
  | 0, _ => []
  | n + 1, x => UInt8.ofNat x :: leBytes n (x / 256)

@[simp] theorem length_leBytes (n x : Nat) : (leBytes n x).length = n := by
  induction n generalizing x <;> simp [leBytes, *]

theorem leNat_leBytes (n x : Nat) : leNat (leBytes n x) = x % 256 ^ n := by
  induction n generalizing x with
  | zero => simp [leNat, leBytes, Nat.mod_one]
  | succ n ih =>
    simp only [leBytes, leNat, ih, UInt8.ofNat, UInt8.toNat, Fin.ofNat, Nat.pow_succ]
    simp only [BitVec.toNat_ofNat, Nat.reducePow]
    rw [Nat.mul_comm (256 ^ n) 256, Nat.mod_mul]

theorem leNat_lt (l : List UInt8) : leNat l < 256 ^ l.length := by
  induction l with
  | nil => simp [leNat]
  | cons b bs ih =>
    have := b.toNat_lt
    simp only [leNat, List.length_cons, Nat.pow_succ]
    omega

/-- Rust `u16::from_le_bytes(slice.get(off..off + 2)?.try_into().ok()?)`. -/
def u16At (s : List UInt8) (off : Nat) : Option UInt16 :=
  (getRange s off (off + 2)).map fun b => UInt16.ofNat (leNat b)

/-- Rust `u32::from_le_bytes(slice.get(off..off + 4)?.try_into().ok()?)`. -/
def u32At (s : List UInt8) (off : Nat) : Option UInt32 :=
  (getRange s off (off + 4)).map fun b => UInt32.ofNat (leNat b)

/-- Rust `u64::from_le_bytes(slice.get(off..off + 8)?.try_into().ok()?)`. -/
def u64At (s : List UInt8) (off : Nat) : Option UInt64 :=
  (getRange s off (off + 8)).map fun b => UInt64.ofNat (leNat b)

theorem u16At_congr {s t : List UInt8} (h : t.take n = s.take n) (hb : off + 2 ≤ n) :
    u16At t off = u16At s off := by
  simp only [u16At, getRange_congr h hb]

theorem u32At_congr {s t : List UInt8} (h : t.take n = s.take n) (hb : off + 4 ≤ n) :
    u32At t off = u32At s off := by
  simp only [u32At, getRange_congr h hb]

theorem u64At_congr {s t : List UInt8} (h : t.take n = s.take n) (hb : off + 8 ≤ n) :
    u64At t off = u64At s off := by
  simp only [u64At, getRange_congr h hb]

theorem index_eq_panic_iff : index s i = .panic ↔ s.length ≤ i := by
  unfold index
  split <;> simp_all [List.getElem?_eq_none_iff]
  rename_i h
  exact (List.getElem?_eq_some_iff.mp h).1

theorem getElem?_of_index_eq_ret {b : UInt8} (h : index s i = .ret b) : s[i]? = some b := by
  unfold index at h
  split at h <;> simp_all

theorem index_eq_ret_of_lt (h : i < s.length) : index s i = .ret s[i] := by
  simp [index, List.getElem?_eq_getElem h]

theorem u16At_of_le (h : off + 2 ≤ s.length) : ∃ v, u16At s off = some v := by
  simp [u16At, getRange, h]

theorem u32At_of_le (h : off + 4 ≤ s.length) : ∃ v, u32At s off = some v := by
  simp [u32At, getRange, h]

theorem u64At_of_le (h : off + 8 ≤ s.length) : ∃ v, u64At s off = some v := by
  simp [u64At, getRange, h]

theorem length_of_u16At (h : u16At s off = some v) : off + 2 ≤ s.length := by
  obtain ⟨b, hb, -⟩ := Option.map_eq_some'.mp h
  exact stop_le_of_getRange hb

theorem length_of_u32At (h : u32At s off = some v) : off + 4 ≤ s.length := by
  obtain ⟨b, hb, -⟩ := Option.map_eq_some'.mp h
  exact stop_le_of_getRange hb

theorem length_of_u64At (h : u64At s off = some v) : off + 8 ≤ s.length := by
  obtain ⟨b, hb, -⟩ := Option.map_eq_some'.mp h
  exact stop_le_of_getRange hb

end CrashLog

open CrashLog (leBytes leNat leNat_leBytes)

/-- Rust `u16::to_le_bytes`. -/
def UInt16.toLeBytes (x : UInt16) : List UInt8 := leBytes 2 x.toNat

/-- Rust `u32::to_le_bytes`. -/
def UInt32.toLeBytes (x : UInt32) : List UInt8 := leBytes 4 x.toNat

/-- Rust `u64::to_le_bytes`. -/
def UInt64.toLeBytes (x : UInt64) : List UInt8 := leBytes 8 x.toNat

@[simp] theorem UInt16.length_toLeBytes (x : UInt16) : x.toLeBytes.length = 2 := by
  simp [UInt16.toLeBytes]

@[simp] theorem UInt32.length_toLeBytes (x : UInt32) : x.toLeBytes.length = 4 := by
  simp [UInt32.toLeBytes]

@[simp] theorem UInt64.length_toLeBytes (x : UInt64) : x.toLeBytes.length = 8 := by
  simp [UInt64.toLeBytes]

@[simp] theorem UInt16.ofNat_leNat_toLeBytes (x : UInt16) :
    UInt16.ofNat (leNat x.toLeBytes) = x :=
  UInt16.toNat.inj (by simp [UInt16.toLeBytes, leNat_leBytes, UInt16.ofNat, UInt16.toNat]; exact x.toBitVec.isLt)

@[simp] theorem UInt32.ofNat_leNat_toLeBytes (x : UInt32) :
    UInt32.ofNat (leNat x.toLeBytes) = x :=
  UInt32.toNat.inj (by simp [UInt32.toLeBytes, leNat_leBytes, UInt32.ofNat, UInt32.toNat]; exact x.toBitVec.isLt)

@[simp] theorem UInt64.ofNat_leNat_toLeBytes (x : UInt64) :
    UInt64.ofNat (leNat x.toLeBytes) = x :=
  UInt64.toNat.inj (by simp [UInt64.toLeBytes, leNat_leBytes, UInt64.ofNat, UInt64.toNat]; exact x.toBitVec.isLt)
