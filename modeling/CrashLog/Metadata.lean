import CrashLog.Cper.Basic
import CrashLog.Text

/-!
# The name of a crash log

`metadata.rs`: `Display for Metadata` names a crash log by the computer it was
extracted from and the time of the extraction, `<computer>-YYYY-MM-DD-HH-MM`,
either half optional, or `unnamed`; `extract` writes each crash log to a file
of that name.

The time is written in fixed-width, zero-padded fields separated by dashes, so
distinct times are written differently (`Time.display_injective`). When the
fields fit their widths the time takes the last 16 characters of the name,
so two crash logs of the same name were extracted at the same minute, whatever
their computers are called (`Metadata.time_eq_of_display_eq`).
-/

namespace CrashLog

/-- `format!("{:0width$}", n)`: the decimal digits of `n`, with zeros on the
left up to `width` characters. -/
def zeroPad (width n : Nat) : String :=
  ⟨List.replicate (width - (toString n).length) '0' ++ (toString n).data⟩

/-- `Display for Time`: `"{:04}-{:02}-{:02}-{:02}-{:02}"`. -/
def Time.display (time : Time) : String :=
  zeroPad 4 time.year.toNat ++ "-" ++ zeroPad 2 time.month.toNat ++ "-" ++
    zeroPad 2 time.day.toNat ++ "-" ++ zeroPad 2 time.hour.toNat ++ "-" ++
    zeroPad 2 time.minute.toNat

/-- `Display for Metadata`, from the computer name and the metadata's time. -/
def Metadata.display (computer : Option String) (metadata : Metadata) : String :=
  match computer, metadata.time with
  | some computer, some time => computer ++ "-" ++ time.display
  | none, some time => time.display
  | some computer, none => computer
  | none, none => "unnamed"

/-- Every field of a time fits its width in the name. -/
def Time.Fits (time : Time) : Prop :=
  time.year.toNat < 10 ^ 4 ∧ time.month.toNat < 10 ^ 2 ∧ time.day.toNat < 10 ^ 2 ∧
    time.hour.toNat < 10 ^ 2 ∧ time.minute.toNat < 10 ^ 2

instance : DecidablePred Time.Fits := fun _ => inferInstanceAs (Decidable (_ ∧ _ ∧ _ ∧ _ ∧ _))

-- ---------------------------------------------------------------------------
-- Zero-padded numbers
-- ---------------------------------------------------------------------------

theorem decimalValue_replicate_zero (k : Nat) (ds : List Char) :
    decimalValue 0 (List.replicate k '0' ++ ds) = decimalValue 0 ds := by
  induction k with
  | zero => rfl
  | succ k ih =>
    rw [List.replicate_succ, List.cons_append, decimalValue, List.foldl_cons, Nat.sub_self,
      Nat.mul_zero, Nat.add_zero]
    exact ih

theorem decimalValue_zeroPad (width n : Nat) : decimalValue 0 (zeroPad width n).data = n := by
  rw [zeroPad, decimalValue_replicate_zero, decimalValue_toString]

theorem isDigit_of_mem_zeroPad {width n : Nat} {c : Char} (h : c ∈ (zeroPad width n).data) :
    c.isDigit := by
  rcases List.mem_append.1 h with h | h
  · rw [List.eq_of_mem_replicate h]; rfl
  · exact isDigit_of_mem_toString h

theorem length_zeroPad {width n : Nat} (hw : 0 < width) (hn : n < 10 ^ width) :
    (zeroPad width n).length = width := by
  have hlen : (toString n).length ≤ width := Nat.repr_length n width hw hn
  show (List.replicate (width - (toString n).length) '0' ++ (toString n).data).length = width
  rw [List.length_append, List.length_replicate]
  exact Nat.sub_add_cancel hlen

-- ---------------------------------------------------------------------------
-- The time's fields
-- ---------------------------------------------------------------------------

theorem split_display (time : Time) :
    split time.display '-' = [zeroPad 4 time.year.toNat, zeroPad 2 time.month.toNat,
      zeroPad 2 time.day.toNat, zeroPad 2 time.hour.toNat, zeroPad 2 time.minute.toNat] := by
  have hjoin : time.display = String.mk (['-'].intercalate ([zeroPad 4 time.year.toNat,
      zeroPad 2 time.month.toNat, zeroPad 2 time.day.toNat, zeroPad 2 time.hour.toNat,
      zeroPad 2 time.minute.toNat].map String.data)) := by
    apply String.ext
    simp [Time.display, String.data_append, List.intercalate]
  rw [hjoin]
  refine split_intercalate (by simp) fun p hp hd => ?_
  simp only [List.mem_cons, List.mem_singleton, List.not_mem_nil, or_false] at hp
  rcases hp with rfl | rfl | rfl | rfl | rfl <;>
    exact absurd (isDigit_of_mem_zeroPad hd) (by decide)

/-- Distinct extraction times are written differently. -/
theorem Time.display_injective : Function.Injective Time.display := by
  intro t t' h
  have hfields := congrArg (split · '-') h
  simp only [split_display, List.cons.injEq, and_true] at hfields
  have hpad : ∀ {w n n' : Nat}, zeroPad w n = zeroPad w n' → n = n' := fun {w n n'} h => by
    rw [← decimalValue_zeroPad w n, h, decimalValue_zeroPad]
  obtain ⟨hy, hm, hd, hh, hmin⟩ := hfields
  obtain ⟨_, _, _, _, _⟩ := t
  obtain ⟨_, _, _, _, _⟩ := t'
  simp only [Time.mk.injEq]
  exact ⟨UInt16.toNat.inj (hpad hy), UInt8.toNat.inj (hpad hm), UInt8.toNat.inj (hpad hd),
    UInt8.toNat.inj (hpad hh), UInt8.toNat.inj (hpad hmin)⟩

theorem Time.length_display {time : Time} (hf : time.Fits) : time.display.length = 16 := by
  obtain ⟨hy, hm, hd, hh, hmin⟩ := hf
  simp only [Time.display, String.length_append, length_zeroPad (by omega) hy,
    length_zeroPad (by omega) hm, length_zeroPad (by omega) hd, length_zeroPad (by omega) hh,
    length_zeroPad (by omega) hmin]
  rfl

-- ---------------------------------------------------------------------------
-- The name
-- ---------------------------------------------------------------------------

theorem Metadata.display_eq_append (computer : Option String) {metadata : Metadata}
    {time : Time} (ht : metadata.time = some time) :
    ∃ pre, (Metadata.display computer metadata).data = pre ++ time.display.data := by
  cases computer with
  | some computer =>
    exact ⟨(computer ++ "-").data, by simp [Metadata.display, ht, String.data_append]⟩
  | none => exact ⟨[], by simp [Metadata.display, ht]⟩

/-- Two crash logs of the same name, whose times fit the name's fields, were
extracted at the same minute, whatever their computers are called. -/
theorem Metadata.time_eq_of_display_eq {computer computer' : Option String}
    {metadata metadata' : Metadata} {time time' : Time}
    (h : Metadata.display computer metadata = Metadata.display computer' metadata')
    (ht : metadata.time = some time) (ht' : metadata'.time = some time') (hf : time.Fits)
    (hf' : time'.Fits) : time = time' := by
  obtain ⟨pre, hpre⟩ := Metadata.display_eq_append computer ht
  obtain ⟨pre', hpre'⟩ := Metadata.display_eq_append computer' ht'
  have hlen : time.display.data.length = time'.display.data.length :=
    (Time.length_display hf).trans (Time.length_display hf').symm
  apply Time.display_injective
  have hdata : pre ++ time.display.data = pre' ++ time'.display.data :=
    hpre.symm.trans ((congrArg String.data h).trans hpre')
  exact String.ext (List.append_inj_right' hdata hlen)

theorem Metadata.time_eq_of_display_eq_lab :
    Metadata.display (some "lab") ⟨some ⟨2025, 6, 1, 9, 5⟩, []⟩ =
        Metadata.display (some "lab") ⟨some ⟨2025, 6, 1, 9, 5⟩, [.unknown Guid.zero [1]]⟩ ∧
      Time.Fits ⟨2025, 6, 1, 9, 5⟩ ∧ (⟨2025, 6, 1, 9, 5⟩ : Time) = ⟨2025, 6, 1, 9, 5⟩ :=
  have h : Metadata.display (some "lab") ⟨some ⟨2025, 6, 1, 9, 5⟩, []⟩ =
      Metadata.display (some "lab") ⟨some ⟨2025, 6, 1, 9, 5⟩, [.unknown Guid.zero [1]]⟩ := rfl
  ⟨h, by decide, Metadata.time_eq_of_display_eq h rfl rfl (by decide) (by decide)⟩

example :
    Metadata.display (some "lab") ⟨some ⟨2025, 6, 1, 9, 5⟩, []⟩ = "lab-2025-06-01-09-05" := by
  decide

example : Metadata.display none ⟨none, []⟩ = "unnamed" := rfl

end CrashLog
