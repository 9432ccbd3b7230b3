import CrashLog.Header.Laws

/-!
# Records

`record.rs`: a record is its header and its raw bytes, header included.
`payload` cuts the header and, with CLDIC, the trailing checksum dword off the
bytes; `checksum` adds the record's dwords.

`payload` is in bounds exactly when the record is at least its header and its
checksum long; `Header::from_slice` does not check the declared record size
against the header size, so a record of the declared size can be shorter
(`payload_in_bounds_iff`). `checksum` reads the bytes in chunks of four and
turns a last, shorter chunk into `0`, so the bytes after the last whole dword
are not checked (`checksum_eq`).
-/

namespace CrashLog

/-- A record: its header and its bytes. The `context` field of the source is not
read by any modelled function and is left out. -/
structure Record where
  header : Header
  data : List UInt8
  deriving DecidableEq, Repr

/-- Bytes that the record's trailer takes: the CLDIC checksum dword, if present. -/
def Record.trailerSize (r : Record) : Nat := if r.header.version.cldic then 4 else 0

/-- `Record::payload`: `&data[header_size .. data.len() - 4]` with CLDIC, else
`&data[header_size ..]`. The `usize` subtraction wraps below 4 bytes. -/
def Record.payload (r : Record) : Run (List UInt8) :=
  let stop := if r.header.version.cldic then wrappingSub r.data.length 4 else r.data.length
  sliceRange r.data r.header.headerSize stop

/-- Rust `slice.chunks(4)`: consecutive chunks of four bytes, the last one shorter
when the length is not a multiple of four. -/
def chunks4 : List UInt8 → List (List UInt8)
  | a :: b :: c :: d :: rest => [a, b, c, d] :: chunks4 rest
  | [] => []
  | rest => [rest]

/-- `u32::from_le_bytes(dword_slice.try_into().unwrap_or([0; 4]))`: a chunk that
is not four bytes long becomes `0`. -/
def dwordOf (chunk : List UInt8) : UInt32 :=
  if chunk.length = 4 then UInt32.ofNat (leNat chunk) else 0

/-- `Record::checksum`: `none` without CLDIC, else whether the wrapping `u32` sum of
the dwords is zero. -/
def Record.checksum (r : Record) : Option Bool :=
  if !r.header.version.cldic then none
  else some (((chunks4 r.data).map dwordOf).foldl (· + ·) 0 == 0)

-- ---------------------------------------------------------------------------
-- Payload
-- ---------------------------------------------------------------------------

theorem Header.recordSize_lt (h : Header) : h.recordSize < 2 ^ 20 := by
  have h1 := h.size.recordSize.toNat_lt_size
  have h2 := h.size.extendedRecordSize.toNat_lt_size
  have hg : h.recordSizeGranularity ≤ 4 := by
    unfold Header.recordSizeGranularity; split <;> omega
  unfold Header.recordSize
  calc _ ≤ (h.size.recordSize.toNat + h.size.extendedRecordSize.toNat) * 4 :=
        Nat.mul_le_mul_left _ hg
    _ < 2 ^ 20 := by simp only [UInt16.size] at h1 h2; omega

theorem sliceRange_eq_panic_iff :
    sliceRange s start stop = .panic ↔ ¬(start ≤ stop ∧ stop ≤ s.length) := by
  unfold sliceRange getRange
  split <;> split_ifs at * <;> simp_all

/-- The payload panics exactly when the bytes are shorter than the header and the
trailer, for any record of fewer than `2 ^ 64` bytes. -/
theorem Record.payload_eq_panic_iff {r : Record} (hr : r.data.length < 2 ^ 64) :
    r.payload = .panic ↔ r.data.length < r.header.headerSize + r.trailerSize := by
  have h8 := HeaderType.eight_le_headerSize r.header.headerType
  simp only [payload, trailerSize, sliceRange_eq_panic_iff, wrappingSub, Header.headerSize] at *
  split <;> [skip; omega]
  rcases Nat.lt_or_ge r.data.length 4 with hl | hl
  · rw [Nat.mod_eq_of_lt (by omega : 4 < 2 ^ 64), Nat.mod_eq_of_lt (by omega)]; omega
  · rw [Nat.mod_eq_of_lt (by omega : 4 < 2 ^ 64),
      show r.data.length + 2 ^ 64 - 4 = (r.data.length - 4) + 2 ^ 64 by omega,
      Nat.add_mod_right, Nat.mod_eq_of_lt (by omega)]
    omega

theorem Record.length_of_payload {r : Record} (hr : r.data.length < 2 ^ 64)
    (hp : r.payload = .ret p) : p.length + r.header.headerSize + r.trailerSize = r.data.length := by
  have hn : ¬ r.data.length < r.header.headerSize + r.trailerSize := fun hl =>
    nomatch hp.symm.trans ((payload_eq_panic_iff hr).mpr hl)
  simp only [payload, trailerSize, sliceRange, wrappingSub] at hp hn ⊢
  split at hp <;> rename_i hg
  · obtain ⟨-, -, rfl⟩ := getRange_eq_some_iff.mp hg
    cases hp
    simp only [List.length_take, List.length_drop]
    split <;> simp_all; omega
  · cases hp

/-- `Record::payload` on a record of exactly the declared size of a parsed header:
in bounds if and only if the declared size covers the header and the CLDIC dword,
and then the payload is what is left of the bytes. -/
theorem Record.payload_in_bounds_iff {s : List UInt8} {h : Header} {r : Record}
    (hs : Header.fromSlice s = .ret (.ok (some h)))
    (hh : r.header = h) (hlen : r.data.length = h.recordSize) :
    (r.payload ≠ .panic ↔ h.headerSize + r.trailerSize ≤ r.data.length) ∧
      ∀ p, r.payload = .ret p → p.length + h.headerSize + r.trailerSize = r.data.length := by
  have hr : r.data.length < 2 ^ 64 := by have := h.recordSize_lt; omega
  subst hh
  exact ⟨by rw [Ne, payload_eq_panic_iff hr]; omega, fun _ hp => length_of_payload hr hp⟩

/-- A Type0 header declaring three dwords, and a record of those twelve bytes. -/
theorem Record.payload_in_bounds_iff_type0 :
    Header.fromSlice [1, 0, 0, 0, 3, 0, 0, 0] =
        .ret (.ok (some ⟨⟨1, 0, 0, 0, false, false⟩, ⟨3, 0⟩, .type0⟩)) ∧
      (Record.payload ⟨⟨⟨1, 0, 0, 0, false, false⟩, ⟨3, 0⟩, .type0⟩, List.replicate 12 1⟩ ≠
          .panic ↔
        Header.headerSize ⟨⟨1, 0, 0, 0, false, false⟩, ⟨3, 0⟩, .type0⟩ +
          Record.trailerSize ⟨⟨⟨1, 0, 0, 0, false, false⟩, ⟨3, 0⟩, .type0⟩, List.replicate 12 1⟩ ≤
          12) :=
  have hs : Header.fromSlice [1, 0, 0, 0, 3, 0, 0, 0] =
      .ret (.ok (some ⟨⟨1, 0, 0, 0, false, false⟩, ⟨3, 0⟩, .type0⟩)) := by decide
  ⟨hs, (Record.payload_in_bounds_iff hs rfl (by decide)).1⟩

/-- An eight-byte Type0 header that declares a record of size 0. -/
theorem Record.payload_declared_size_zero :
    Header.fromSlice [1, 0, 0, 0, 0, 0, 0, 0] =
        .ret (.ok (some ⟨⟨1, 0, 0, 0, false, false⟩, ⟨0, 0⟩, .type0⟩)) ∧
      Header.recordSize ⟨⟨1, 0, 0, 0, false, false⟩, ⟨0, 0⟩, .type0⟩ = 0 ∧
      Record.payload ⟨⟨⟨1, 0, 0, 0, false, false⟩, ⟨0, 0⟩, .type0⟩, []⟩ = .panic ∧
      ¬ Header.headerSize ⟨⟨1, 0, 0, 0, false, false⟩, ⟨0, 0⟩, .type0⟩ ≤ 0 := by
  decide

-- ---------------------------------------------------------------------------
-- Checksum
-- ---------------------------------------------------------------------------

/-- The checksum the spec describes: the record's little-endian dwords, the last
one zero-padded, added modulo `2 ^ 32`. A chunk shorter than four bytes stands
for its zero-padded dword under `leNat`. -/
def zeroPaddedDwordSum (data : List UInt8) : Nat := ((chunks4 data).map leNat).sum % 2 ^ 32

theorem foldl_add_toNat (l : List UInt32) (a : UInt32) :
    (l.foldl (· + ·) a).toNat = (a.toNat + (l.map UInt32.toNat).sum) % 2 ^ 32 := by
  induction l generalizing a with
  | nil => simp [Nat.mod_eq_of_lt a.toNat_lt_size]
  | cons x l ih =>
    simp only [List.foldl_cons, ih, UInt32.toNat_add, List.map_cons, List.sum_cons, UInt32.size]
    omega

theorem dwordOf_toNat (c : List UInt8) : (dwordOf c).toNat = if c.length = 4 then leNat c else 0 := by
  unfold dwordOf
  split
  · have := leNat_lt c
    simp only [UInt32.ofNat, UInt32.toNat, BitVec.toNat_ofNat]
    rw [Nat.mod_eq_of_lt (by simp_all)]
  · rfl

theorem sum_dwordOf_chunks4 (data : List UInt8) :
    ((chunks4 data).map fun c => (dwordOf c).toNat).sum =
      ((chunks4 (data.take (data.length / 4 * 4))).map leNat).sum := by
  induction data using chunks4.induct with
  | case1 a b c d rest ih =>
    rw [show (a :: b :: c :: d :: rest).length / 4 * 4 = rest.length / 4 * 4 + 1 + 1 + 1 + 1 by
      simp; omega]
    simp only [List.take_succ_cons, chunks4, List.map_cons, List.sum_cons]
    rw [ih, dwordOf_toNat]
    rfl
  | case2 => rfl
  | case3 rest h1 h2 =>
    match rest, h1, h2 with
    | [], _, h2 => exact (h2 rfl).elim
    | [_], _, _ | [_, _], _, _ | [_, _, _], _, _ => simp [chunks4, dwordOf_toNat]
    | _ :: _ :: _ :: _ :: _, h1, _ => exact (h1 _ _ _ _ _ rfl).elim

theorem UInt32.beq_zero_eq (x : UInt32) : (x == 0) = decide (x.toNat = 0) := by
  rw [Bool.eq_iff_iff]
  simp only [beq_iff_eq, decide_eq_true_eq]
  exact ⟨fun h => by rw [h]; rfl, fun h => UInt32.toNat.inj h⟩

/-- `Record::checksum` checks the dwords of the longest whole-dword prefix of the
bytes: the one to three bytes after it are not covered. -/
theorem Record.checksum_eq (r : Record) :
    r.checksum = if r.header.version.cldic then
      some (decide (zeroPaddedDwordSum (r.data.take (r.data.length / 4 * 4)) = 0)) else none := by
  have key : (((chunks4 r.data).map dwordOf).foldl (· + ·) 0).toNat =
      zeroPaddedDwordSum (r.data.take (r.data.length / 4 * 4)) := by
    rw [foldl_add_toNat, List.map_map, UInt32.toNat_zero, Nat.zero_add, zeroPaddedDwordSum]
    exact congrArg (· % 2 ^ 32) (sum_dwordOf_chunks4 r.data)
  unfold checksum
  cases r.header.version.cldic
  · rfl
  · simp only [Bool.not_true, if_true, Bool.false_eq_true, if_false, UInt32.beq_zero_eq, key]

/-- The check `checksum` makes, in the spec's terms: `none` exactly without
CLDIC, and with CLDIC `some true` exactly when the little-endian dwords of the
longest whole-dword prefix of the bytes add to 0 modulo `2 ^ 32`; a last partial
dword is dropped, not zero-padded. -/
theorem Record.checksum_some_true_iff (r : Record) :
    (r.checksum = none ↔ r.header.version.cldic = false) ∧
      (r.header.version.cldic = true →
        (r.checksum = some true ↔
          zeroPaddedDwordSum (r.data.take (r.data.length / 4 * 4)) = 0)) := by
  rw [checksum_eq]
  cases r.header.version.cldic <;> simp

-- Two dwords that add to `2 ^ 32` and a ninth byte, with CLDIC.
def partialDwordRecord : Record :=
  ⟨⟨⟨0, 0, 0, 0, false, true⟩, ⟨0, 0⟩, .type0⟩, [1, 0, 0, 0, 0xFF, 0xFF, 0xFF, 0xFF, 7]⟩

theorem Record.checksum_some_true_iff_partial :
    partialDwordRecord.header.version.cldic = true ∧
      zeroPaddedDwordSum
          (partialDwordRecord.data.take (partialDwordRecord.data.length / 4 * 4)) = 0 ∧
      partialDwordRecord.checksum = some true :=
  have hc : partialDwordRecord.header.version.cldic = true := rfl
  have hz : zeroPaddedDwordSum
      (partialDwordRecord.data.take (partialDwordRecord.data.length / 4 * 4)) = 0 := by decide
  ⟨hc, hz, ((Record.checksum_some_true_iff partialDwordRecord).2 hc).2 hz⟩

/-- Five bytes with CLDIC: the zero-padded dword sum is `1`, but the fifth byte is
dropped and the record passes. -/
theorem Record.checksum_drops_partial_dword :
    Record.checksum ⟨⟨⟨0, 0, 0, 0, false, true⟩, ⟨0, 0⟩, .type0⟩, [0, 0, 0, 0, 1]⟩ = some true ∧
      zeroPaddedDwordSum [0, 0, 0, 0, 1] = 1 := by
  decide

end CrashLog
