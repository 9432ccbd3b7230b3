import CrashLog.Record.Basic

/-!
# The bit-field reader

`Record::read_field` reads `size` bits from bit `offset` of the record's bytes,
bit 0 being the least significant bit of byte 0. Its `while` loop takes one byte
a pass: the bits of the byte from the current position up to the end of the
byte or of the field, shifted into place.

`readField_eq_bitField` proves that the loop computes the little-endian
concatenation of the bits (`bitField`) for every alignment, size and buffer
whose bit positions fit in a `usize`, which every buffer a 64-bit address space
can hold does: there the `usize` sum `offset + bit` never wraps.
-/

namespace CrashLog

/-- The passes of the `while bit < size` loop of `Record::read_field`, with `fuel`
for the passes left. Every pass moves `bit` on by at least one, so `size` passes
are enough (`readFieldLoop_eq`). The accumulator is the `u64` `value`, kept below
`2 ^ 64` by the `% 2 ^ 64` of the `<<`. -/
def readFieldLoop (data : List UInt8) (offset size : Nat) : Nat → Nat → Nat → Option Nat
  | 0, _, value => some value
  | fuel + 1, bit, value =>
    if bit < size then
      let chunk := wrappingAdd offset bit / 8
      if h : data.length ≤ chunk then none
      else
        let bitOffset := wrappingAdd offset bit % 8
        let mask := (1 <<< min (size - bit) 8) - 1
        let value := value ||| (((data[chunk].toNat >>> bitOffset) &&& mask) <<< bit) % 2 ^ 64
        readFieldLoop data offset size fuel (bit + (8 - bitOffset)) value
    else some value

/-- `Record::read_field`: `none` for a field wider than 64 bits or running past the
bytes. -/
def Record.readField (r : Record) (offset size : Nat) : Option UInt64 :=
  if size > 64 then none else (readFieldLoop r.data offset size size 0 0).map UInt64.ofNat

-- ---------------------------------------------------------------------------
-- The specification
-- ---------------------------------------------------------------------------

/-- Bit `i` of the bytes: `(data[i / 8] >> (i mod 8)) & 1`. -/
def bitAt (data : List UInt8) (i : Nat) : Nat := ((data.getD (i / 8) 0).toNat >>> (i % 8)) &&& 1

/-- The bits `off .. off + size` read as a little-endian number,
`sum_{k < size} bit(off + k) * 2 ^ k`. -/
def bitsValue (data : List UInt8) (off size : Nat) : Nat :=
  ((List.range size).map fun k => bitAt data (off + k) * 2 ^ k).sum

/-- The field the spec describes: `none` past 64 bits or past the bytes, measured
without wrap-around, else the concatenated bits. -/
def bitField (data : List UInt8) (off size : Nat) : Option UInt64 :=
  if size > 64 then none
  else if 0 < size ∧ 8 * data.length < off + size then none
  else some (UInt64.ofNat (bitsValue data off size))

theorem bitsValue_succ (data : List UInt8) (off n : Nat) :
    bitsValue data off (n + 1) = bitsValue data off n + bitAt data (off + n) * 2 ^ n := by
  simp [bitsValue, List.range_succ]

@[simp] theorem bitsValue_one (data : List UInt8) (p : Nat) :
    bitsValue data p 1 = bitAt data p := by
  simp [bitsValue, List.range_succ]

theorem bitAt_le_one (data : List UInt8) (i : Nat) : bitAt data i ≤ 1 := by
  unfold bitAt
  rw [Nat.and_one_is_mod]
  exact Nat.le_of_lt_succ (Nat.mod_lt _ (by omega))

theorem bitsValue_lt (data : List UInt8) (off n : Nat) : bitsValue data off n < 2 ^ n := by
  induction n with
  | zero => simp [bitsValue]
  | succ n ih =>
    rw [bitsValue_succ, Nat.pow_succ]
    have := bitAt_le_one data (off + n)
    have : bitAt data (off + n) * 2 ^ n ≤ 2 ^ n := by
      calc _ ≤ 1 * 2 ^ n := Nat.mul_le_mul_right _ this
        _ = 2 ^ n := Nat.one_mul _
    omega

theorem bitsValue_add (data : List UInt8) (off m n : Nat) :
    bitsValue data off (m + n) = bitsValue data off m + 2 ^ m * bitsValue data (off + m) n := by
  induction n with
  | zero => simp [bitsValue]
  | succ n ih =>
    rw [← Nat.add_assoc, bitsValue_succ, ih, bitsValue_succ, Nat.pow_add, Nat.add_assoc off m n]
    ring

theorem bitsValue_within_byte {data : List UInt8} (hc : c < data.length)
    (hp : p = 8 * c + o) (hk : o + k ≤ 8) :
    bitsValue data p k = (data[c].toNat / 2 ^ o) % 2 ^ k := by
  induction k with
  | zero => simp [bitsValue, Nat.mod_one]
  | succ k ih =>
    rw [bitsValue_succ, ih (by omega), Nat.mod_pow_succ, Nat.div_div_eq_div_mul, ← Nat.pow_add]
    have hq : (p + k) / 8 = c := by omega
    have hr : (p + k) % 8 = o + k := by omega
    simp only [bitAt, hq, hr, List.getD_eq_getElem?_getD, List.getElem?_eq_getElem hc,
      Option.getD_some, Nat.shiftRight_eq_div_pow, Nat.and_one_is_mod]
    ring

-- ---------------------------------------------------------------------------
-- The loop
-- ---------------------------------------------------------------------------

section
variable {data : List UInt8} {off size : Nat}

theorem masked_chunk_eq_bitsValue (hc : p / 8 < data.length) :
    (data[p / 8].toNat >>> (p % 8)) &&& ((1 <<< min m 8) - 1) =
      bitsValue data p (min m (8 - p % 8)) := by
  set bo := p % 8
  set k := min m (8 - bo)
  rw [bitsValue_within_byte (c := p / 8) (o := bo) (k := k) hc (by omega) (by omega),
    Nat.shiftRight_eq_div_pow, Nat.one_shiftLeft, Nat.and_pow_two_sub_one_eq_mod]
  have hlt : data[p / 8].toNat / 2 ^ bo < 2 ^ (8 - bo) := by
    rw [Nat.div_lt_iff_lt_mul (Nat.two_pow_pos _), ← Nat.pow_add, show 8 - bo + bo = 8 by omega]
    exact (data[p / 8]).toNat_lt
  have hle : ∀ j, 8 - bo ≤ j → data[p / 8].toNat / 2 ^ bo % 2 ^ j = data[p / 8].toNat / 2 ^ bo :=
    fun j hj => Nat.mod_eq_of_lt (lt_of_lt_of_le hlt (Nat.pow_le_pow_right (by omega) hj))
  by_cases h : m ≤ 8 - bo
  · rw [Nat.min_eq_left (by omega), show k = m by omega]
  · rw [hle _ (by omega), show k = 8 - bo by omega, hle _ le_rfl]

theorem readFieldLoop_step_value (hc : (off + bit) / 8 < data.length) (hbs : bit < size)
    (hsize : size ≤ 64) (hv : value = bitsValue data off bit) :
    value ||| (((data[(off + bit) / 8].toNat >>> ((off + bit) % 8)) &&&
        ((1 <<< min (size - bit) 8) - 1)) <<< bit) % 2 ^ 64 =
      bitsValue data off (min (bit + (8 - (off + bit) % 8)) size) := by
  set k := min (size - bit) (8 - (off + bit) % 8)
  have hk : min (bit + (8 - (off + bit) % 8)) size = bit + k := by omega
  have hfit : bitsValue data (off + bit) k <<< bit < 2 ^ 64 := by
    rw [Nat.shiftLeft_eq]
    calc _ < 2 ^ k * 2 ^ bit :=
          Nat.mul_lt_mul_of_pos_right (bitsValue_lt _ _ _) (Nat.two_pow_pos _)
      _ ≤ 2 ^ 64 := by rw [← Nat.pow_add]; exact Nat.pow_le_pow_right (by omega) (by omega)
  rw [masked_chunk_eq_bitsValue hc, Nat.mod_eq_of_lt hfit, hk, bitsValue_add, hv,
    Nat.shiftLeft_eq, Nat.mul_comm, Nat.or_comm, ← Nat.mul_add_lt_is_or (bitsValue_lt _ _ _)]
  omega

/-- The loop computes the field from any state it can reach: `bit` bits read, with
no wrap of `offset + bit` so far, and enough fuel. The result does not depend on the
fuel. -/
theorem readFieldLoop_eq (hsize : size ≤ 64) (hlen : 8 * data.length < 2 ^ 64)
    (hoff : off < 2 ^ 64) :
    ∀ fuel bit value, size - bit ≤ fuel → (bit = 0 ∨ off + bit ≤ 8 * data.length) →
      value = bitsValue data off (min bit size) →
      readFieldLoop data off size fuel bit value =
        if bit < size ∧ 8 * data.length < off + size then none
        else some (bitsValue data off size) := by
  intro fuel
  induction fuel with
  | zero =>
    intro bit value hf _ hv
    simp only [readFieldLoop, show ¬bit < size by omega, false_and, if_false, hv,
      Nat.min_eq_right (show size ≤ bit by omega)]
  | succ fuel ih =>
    intro bit value hf hpos hv
    have hwrap : wrappingAdd off bit = off + bit := Nat.mod_eq_of_lt (by omega)
    unfold readFieldLoop
    simp only [hwrap]
    by_cases hbs : bit < size
    · rw [if_pos hbs]
      by_cases hc : data.length ≤ (off + bit) / 8
      · rw [dif_pos hc, if_pos ⟨hbs, by omega⟩]
      · rw [dif_neg hc, Nat.min_eq_left hbs.le] at *
        rw [ih (bit + (8 - (off + bit) % 8)) _ (by omega) (.inr (by omega))
          (readFieldLoop_step_value (by omega) hbs hsize hv)]
        by_cases hb' : bit + (8 - (off + bit) % 8) < size
        · simp only [hb', hbs, true_and]
        · have hin : ¬ 8 * data.length < off + size := by omega
          simp only [hb', hbs, false_and, if_false, true_and, hin]
    · rw [if_neg hbs, if_neg (by omega), hv, Nat.min_eq_right (by omega)]

end

theorem Record.readField_eq_bitField_of_fits (r : Record) (off size : Nat) (hoff : off < 2 ^ 64)
    (hlen : 8 * r.data.length < 2 ^ 64) :
    r.readField off size = bitField r.data off size := by
  unfold readField bitField
  by_cases hs : size > 64
  · simp [hs]
  · rw [if_neg hs, if_neg hs,
      readFieldLoop_eq (by omega) hlen hoff size 0 0 (by omega) (.inl rfl) (by simp [bitsValue])]
    rcases Nat.eq_zero_or_pos size with rfl | hpos
    · simp
    · by_cases hl : 8 * r.data.length < off + size <;> simp [hl, hpos]

/-- `Record::read_field` is the spec's bit concatenation on every buffer whose bit
positions fit in a `usize` (every buffer a 64-bit address space can hold), at
every offset below `2 ^ 64` and every size. -/
theorem Record.readField_eq_bitField (r : Record) (off size : Nat) (hoff : off < 2 ^ 64)
    (hlen : 8 * r.data.length < 2 ^ 64) :
    r.readField off size = bitField r.data off size :=
  r.readField_eq_bitField_of_fits off size hoff hlen

/-- A byte of bits `0 .. 8`, read from bit 1 to 4. -/
theorem Record.readField_eq_bitField_byte :
    (1 < 2 ^ 64 ∧ 8 * [0x42].length < 2 ^ 64) ∧
      Record.readField ⟨⟨⟨0, 0, 0, 0, false, false⟩, ⟨0, 0⟩, .type1⟩, [0x42]⟩ 1 4 =
        bitField [0x42] 1 4 :=
  ⟨⟨by decide, by decide⟩, Record.readField_eq_bitField _ 1 4 (by decide) (by decide)⟩

end CrashLog
