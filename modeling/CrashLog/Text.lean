import CrashLog.Header.Basic

/-!
# Text

The pieces of Rust's `str` that `decode_with_csv` reads its layout with:
`str::from_utf8`, `str::lines`, `str::split` with a one-character pattern and
`usize::from_str`. Text is a list of characters; a `String` of the crate is the
`String` of its characters.

`from_utf8` accepts the well-formed sequences of Unicode Table 3-7.
`split` is `List.splitOn`, so a name written as its segments joined by dots
splits back into them (`split_intercalate`), and `format!` writes distinct
numbers differently (`toString_injective`). `char::is_numeric`, which
`decode_definitions_paths` trims die names with, is the ASCII digits and the
characters above ASCII of the Unicode number categories.
-/

namespace CrashLog

-- ---------------------------------------------------------------------------
-- UTF-8
-- ---------------------------------------------------------------------------

/-- The first byte of a UTF-8 sequence, as Unicode Table 3-7 allows it: the
continuation bytes that follow it, the range the first of them lies in, and the
bits of the code point it carries. -/
def utf8Lead (b : UInt8) : Option (Nat × UInt8 × UInt8 × Nat) :=
  if b ≤ 0x7F then some (0, 0x80, 0xBF, b.toNat)
  else if 0xC2 ≤ b ∧ b ≤ 0xDF then some (1, 0x80, 0xBF, b.toNat &&& 0x1F)
  else if b = 0xE0 then some (2, 0xA0, 0xBF, b.toNat &&& 0x0F)
  else if 0xE1 ≤ b ∧ b ≤ 0xEC then some (2, 0x80, 0xBF, b.toNat &&& 0x0F)
  else if b = 0xED then some (2, 0x80, 0x9F, b.toNat &&& 0x0F)
  else if 0xEE ≤ b ∧ b ≤ 0xEF then some (2, 0x80, 0xBF, b.toNat &&& 0x0F)
  else if b = 0xF0 then some (3, 0x90, 0xBF, b.toNat &&& 0x07)
  else if 0xF1 ≤ b ∧ b ≤ 0xF3 then some (3, 0x80, 0xBF, b.toNat &&& 0x07)
  else if b = 0xF4 then some (3, 0x80, 0x8F, b.toNat &&& 0x07)
  else none

/-- The validation loop of `str::from_utf8`, a byte at a time: `need`
continuation bytes are owed, the next one in `lo ..= hi`, and `cp` holds the
bits of the code point read so far. -/
def fromUtf8Go : Nat → UInt8 → UInt8 → Nat → List UInt8 → Option (List Char)
  | 0, _, _, _, [] => some []
  | 0, _, _, _, b :: rest =>
    match utf8Lead b with
    | some (0, _, _, cp) => (Char.ofNat cp :: ·) <$> fromUtf8Go 0 0x80 0xBF 0 rest
    | some (need, lo, hi, cp) => fromUtf8Go need lo hi cp rest
    | none => none
  | _ + 1, _, _, _, [] => none
  | need + 1, lo, hi, cp, b :: rest =>
    if lo ≤ b ∧ b ≤ hi then
      let cp := cp * 64 + (b.toNat &&& 0x3F)
      if need = 0 then (Char.ofNat cp :: ·) <$> fromUtf8Go 0 0x80 0xBF 0 rest
      else fromUtf8Go need 0x80 0xBF cp rest
    else none

/-- `str::from_utf8`: the characters of a well-formed UTF-8 sequence. -/
def fromUtf8 (bytes : List UInt8) : Option (List Char) := fromUtf8Go 0 0x80 0xBF 0 bytes

-- ---------------------------------------------------------------------------
-- Lines and fields
-- ---------------------------------------------------------------------------

/-- The `\r` of a `\r\n` line ending. -/
def stripCr (line : List Char) : List Char :=
  if line.getLast? = some '\r' then line.dropLast else line

/-- `str::lines` with the line read so far: a line ends at `\n`, without it or the
`\r` before it, and a final line ending adds no empty line. -/
def linesGo (line : List Char) : List Char → List (List Char)
  | [] => if line.isEmpty then [] else [line]
  | c :: rest => if c = '\n' then stripCr line :: linesGo [] rest else linesGo (line ++ [c]) rest

/-- `str::lines`. -/
def lines (s : List Char) : List (List Char) := linesGo [] s

/-- `str::split` with a one-character pattern: the pieces between the separators,
one more than there are separators. -/
def split (s : String) (sep : Char) : List String := (s.data.splitOn sep).map String.mk

theorem split_ne_nil (s : String) (sep : Char) : split s sep ≠ [] := by
  simp [split, List.splitOn, List.splitOnP_ne_nil]

/-- A text that is its pieces joined by the separator splits back into them. -/
theorem split_intercalate {pieces : List String} {sep : Char} (hne : pieces ≠ [])
    (hp : ∀ p ∈ pieces, sep ∉ p.data) :
    split (String.mk ([sep].intercalate (pieces.map String.data))) sep = pieces := by
  rw [split, List.splitOn_intercalate _ sep (by simpa using hp) (by simpa using hne),
    List.map_map]
  exact List.map_id'' (fun _ => rfl) pieces

-- ---------------------------------------------------------------------------
-- Numbers
-- ---------------------------------------------------------------------------

/-- The digit loop of `usize::from_str`: each character is checked to be a digit
before the `checked_mul` and `checked_add` that fail past `usize::MAX`. -/
def parseDigits : List Char → Nat → Except ParseIntErrorKind Nat
  | [], acc => .ok acc
  | c :: cs, acc =>
    if c.isDigit then
      let acc := acc * 10 + (c.toNat - '0'.toNat)
      if acc < 2 ^ 64 then parseDigits cs acc else .error .posOverflow
    else .error .invalidDigit

/-- `usize::from_str`: an optional `+`, then decimal digits. -/
def parseUsize (s : String) : Except ParseIntErrorKind Nat :=
  match s.data with
  | [] => .error .empty
  | ['+'] | ['-'] => .error .invalidDigit
  | '+' :: digits => parseDigits digits 0
  | digits => parseDigits digits 0

example : parseUsize "+42" = .ok 42 := by decide
example : parseUsize "18446744073709551616" = .error .posOverflow := by decide

/-- The code point ranges above ASCII of the general categories Nd, Nl and No
in Unicode 15.1: the table `unicode::N` of `char::is_numeric`. -/
def numericRanges : List (Nat × Nat) :=
  [(0xB2, 0xB3), (0xB9, 0xB9), (0xBC, 0xBE), (0x660, 0x669), (0x6F0, 0x6F9), (0x7C0, 0x7C9),
   (0x966, 0x96F), (0x9E6, 0x9EF), (0x9F4, 0x9F9), (0xA66, 0xA6F), (0xAE6, 0xAEF), (0xB66, 0xB6F),
   (0xB72, 0xB77), (0xBE6, 0xBF2), (0xC66, 0xC6F), (0xC78, 0xC7E), (0xCE6, 0xCEF), (0xD58, 0xD5E),
   (0xD66, 0xD78), (0xDE6, 0xDEF), (0xE50, 0xE59), (0xED0, 0xED9), (0xF20, 0xF33),
   (0x1040, 0x1049), (0x1090, 0x1099), (0x1369, 0x137C), (0x16EE, 0x16F0), (0x17E0, 0x17E9),
   (0x17F0, 0x17F9), (0x1810, 0x1819), (0x1946, 0x194F), (0x19D0, 0x19DA), (0x1A80, 0x1A89),
   (0x1A90, 0x1A99), (0x1B50, 0x1B59), (0x1BB0, 0x1BB9), (0x1C40, 0x1C49), (0x1C50, 0x1C59),
   (0x2070, 0x2070), (0x2074, 0x2079), (0x2080, 0x2089), (0x2150, 0x2182), (0x2185, 0x2189),
   (0x2460, 0x249B), (0x24EA, 0x24FF), (0x2776, 0x2793), (0x2CFD, 0x2CFD), (0x3007, 0x3007),
   (0x3021, 0x3029), (0x3038, 0x303A), (0x3192, 0x3195), (0x3220, 0x3229), (0x3248, 0x324F),
   (0x3251, 0x325F), (0x3280, 0x3289), (0x32B1, 0x32BF), (0xA620, 0xA629), (0xA6E6, 0xA6EF),
   (0xA830, 0xA835), (0xA8D0, 0xA8D9), (0xA900, 0xA909), (0xA9D0, 0xA9D9), (0xA9F0, 0xA9F9),
   (0xAA50, 0xAA59), (0xABF0, 0xABF9), (0xFF10, 0xFF19), (0x10107, 0x10133), (0x10140, 0x10178),
   (0x1018A, 0x1018B), (0x102E1, 0x102FB), (0x10320, 0x10323), (0x10341, 0x10341),
   (0x1034A, 0x1034A), (0x103D1, 0x103D5), (0x104A0, 0x104A9), (0x10858, 0x1085F),
   (0x10879, 0x1087F), (0x108A7, 0x108AF), (0x108FB, 0x108FF), (0x10916, 0x1091B),
   (0x109BC, 0x109BD), (0x109C0, 0x109CF), (0x109D2, 0x109FF), (0x10A40, 0x10A48),
   (0x10A7D, 0x10A7E), (0x10A9D, 0x10A9F), (0x10AEB, 0x10AEF), (0x10B58, 0x10B5F),
   (0x10B78, 0x10B7F), (0x10BA9, 0x10BAF), (0x10CFA, 0x10CFF), (0x10D30, 0x10D39),
   (0x10E60, 0x10E7E), (0x10F1D, 0x10F26), (0x10F51, 0x10F54), (0x10FC5, 0x10FCB),
   (0x11052, 0x1106F), (0x110F0, 0x110F9), (0x11136, 0x1113F), (0x111D0, 0x111D9),
   (0x111E1, 0x111F4), (0x112F0, 0x112F9), (0x11450, 0x11459), (0x114D0, 0x114D9),
   (0x11650, 0x11659), (0x116C0, 0x116C9), (0x11730, 0x1173B), (0x118E0, 0x118F2),
   (0x11950, 0x11959), (0x11C50, 0x11C6C), (0x11D50, 0x11D59), (0x11DA0, 0x11DA9),
   (0x11F50, 0x11F59), (0x11FC0, 0x11FD4), (0x12400, 0x1246E), (0x16A60, 0x16A69),
   (0x16AC0, 0x16AC9), (0x16B50, 0x16B59), (0x16B5B, 0x16B61), (0x16E80, 0x16E96),
   (0x1D2C0, 0x1D2D3), (0x1D2E0, 0x1D2F3), (0x1D360, 0x1D378), (0x1D7CE, 0x1D7FF),
   (0x1E140, 0x1E149), (0x1E2F0, 0x1E2F9), (0x1E4F0, 0x1E4F9), (0x1E8C7, 0x1E8CF),
   (0x1E950, 0x1E959), (0x1EC71, 0x1ECAB), (0x1ECAD, 0x1ECAF), (0x1ECB1, 0x1ECB4),
   (0x1ED01, 0x1ED2D), (0x1ED2F, 0x1ED3D), (0x1F100, 0x1F10C), (0x1FBF0, 0x1FBF9)]

/-- `char::is_numeric`. -/
def isNumeric (c : Char) : Bool :=
  if '0' ≤ c ∧ c ≤ '9' then true
  else decide (0x7F < c.toNat) && numericRanges.any fun (lo, hi) => lo ≤ c.toNat && c.toNat ≤ hi

/-- The number a list of decimal digits stands for, read after `value`. -/
def decimalValue (value : Nat) (digits : List Char) : Nat :=
  digits.foldl (fun v c => 10 * v + (c.toNat - '0'.toNat)) value

theorem digitChar_value : ∀ k < 10, (Nat.digitChar k).toNat - '0'.toNat = k := by decide

theorem decimalValue_toDigitsCore (fuel : Nat) :
    ∀ n ds, n < fuel → decimalValue 0 (Nat.toDigitsCore 10 fuel n ds) = decimalValue n ds := by
  induction fuel with
  | zero => intro n ds h; omega
  | succ fuel ih =>
    intro n ds h
    simp only [Nat.toDigitsCore]
    split
    · simp only [decimalValue, List.foldl_cons, digitChar_value _ (Nat.mod_lt _ (by omega))]
      congr 1
      omega
    · rw [ih _ _ (by omega)]
      simp only [decimalValue, List.foldl_cons, digitChar_value _ (Nat.mod_lt _ (by omega))]
      congr 1
      omega

theorem isDigit_digitChar : ∀ k < 10, (Nat.digitChar k).isDigit := by decide

theorem isDigit_of_mem_toDigitsCore (fuel : Nat) :
    ∀ n ds, (∀ c ∈ ds, c.isDigit) → ∀ c ∈ Nat.toDigitsCore 10 fuel n ds, c.isDigit := by
  induction fuel with
  | zero => exact fun _ _ h => h
  | succ fuel ih =>
    intro n ds h
    have hd : ∀ c ∈ Nat.digitChar (n % 10) :: ds, c.isDigit :=
      List.forall_mem_cons.2 ⟨isDigit_digitChar _ (Nat.mod_lt _ (by omega)), h⟩
    simp only [Nat.toDigitsCore]
    split
    · exact hd
    · exact ih _ _ hd

theorem isDigit_of_mem_toString {n : Nat} {c : Char} (h : c ∈ (toString n).data) : c.isDigit :=
  isDigit_of_mem_toDigitsCore _ _ _ (by simp) c h

theorem decimalValue_toString (n : Nat) : decimalValue 0 (toString n).data = n := by
  show decimalValue 0 (Nat.toDigitsCore 10 (n + 1) n []) = n
  rw [decimalValue_toDigitsCore _ _ _ (Nat.lt_succ_self n)]
  rfl

/-- `format!("{i}")` of a `usize`: distinct numbers are written differently. -/
theorem toString_injective : Function.Injective (toString : Nat → String) := fun a b h => by
  rw [← decimalValue_toString a, h, decimalValue_toString b]

end CrashLog
