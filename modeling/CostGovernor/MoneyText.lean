import CostGovernor.DecimalText
import CostGovernor.Money
import CostGovernor.Identity

/-!
# The text of an amount

`to_string` prints the units and the micro-units of the magnitude with a sign in front. A
reader of such texts gets every amount back exactly, the smallest `int64` included, and the
print buffer is never too small.
-/

namespace CostGovernor

open DecimalText

def minusByte : UInt8 := 45

def pointByte : UInt8 := 46

/-- What `snprintf` leaves of a text in a buffer of this size, the final zero apart. -/
def printed (bufferSize : ℕ) (text : ByteString) : ByteString := text.take (bufferSize - 1)

namespace MoneyMicros

def magnitude (m : MoneyMicros) : UInt64 :=
  if m.value < 0 then ~~~m.value.toUInt64 + 1 else m.value.toUInt64

def toText (m : MoneyMicros) : ByteString :=
  let units := m.magnitude / MoneyMicros.microsPerUnit.toUInt64
  let frac := m.magnitude % MoneyMicros.microsPerUnit.toUInt64
  printed 64 ((if m.value < 0 then [minusByte] else []) ++ decimal units.toNat ++ [pointByte] ++
    padded 6 frac.toNat)

end MoneyMicros

/-- The micro-units of an unsigned amount: digits, a point, six digits. -/
def readUnsigned (text : ByteString) : Option ℕ :=
  let units := text.takeWhile (· ≠ pointByte)
  match text.dropWhile (· ≠ pointByte) with
  | [] => none
  | _ :: frac =>
    if units.isEmpty = false ∧ (units ++ frac).all (fun c => IsDigit c) = true ∧
        frac.length = 6 then
      some (value units * 10 ^ 6 + value frac)
    else none

def readAmount : ByteString → Option ℤ
  | [] => none
  | c :: rest =>
    if c = minusByte then (readUnsigned rest).map fun n : ℕ => -(n : ℤ)
    else (readUnsigned (c :: rest)).map fun n : ℕ => (n : ℤ)

namespace MoneyMicros

/-- The two's complement of the word of a negative amount is its absolute value. -/
theorem toNat_magnitude (m : MoneyMicros) : m.magnitude.toNat = m.toInt.natAbs := by
  have hword : m.toInt = if 2 * m.value.toUInt64.toNat < 2 ^ 64 then
      (m.value.toUInt64.toNat : ℤ) else m.value.toUInt64.toNat - 2 ^ 64 := by
    have hcond := BitVec.toInt_eq_toNat_cond m.value.toBitVec
    rw [Int64.toInt_toBitVec] at hcond
    exact hcond
  have hlt := m.value.toUInt64.toNat_lt
  unfold magnitude
  by_cases hneg : m.value < 0
  · have hsign : m.toInt < 0 := Int64.lt_iff_toInt_lt.1 hneg
    rw [if_pos hneg, ← UInt64.neg_eq_not_add, UInt64.toNat_neg]
    have hsize : UInt64.size = 2 ^ 64 := rfl
    split_ifs at hword with hsmall
    · omega
    · rw [hsize, Nat.mod_eq_of_lt (by omega)]
      omega
  · have hsign : 0 ≤ m.toInt := Int64.le_iff_toInt_le.1 (Int64.not_lt.1 hneg)
    rw [if_neg hneg]
    split_ifs at hword with hsmall
    · omega
    · omega

def fullText (m : MoneyMicros) : ByteString :=
  (if m.value < 0 then [minusByte] else []) ++ decimal (m.toInt.natAbs / 10 ^ 6) ++ [pointByte] ++
    padded 6 (m.toInt.natAbs % 10 ^ 6)

theorem length_fullText_le (m : MoneyMicros) : m.fullText.length ≤ 21 := by
  have hlow := m.le_toInt
  have hhigh := m.toInt_lt
  have hunits : (decimal (m.toInt.natAbs / 10 ^ 6)).length ≤ 13 :=
    decimal_length_le (by decide) (by omega)
  have hfrac : (padded 6 (m.toInt.natAbs % 10 ^ 6)).length = 6 :=
    padded_length (by decide) (by omega)
  have hsign : (if m.value < 0 then [minusByte] else []).length ≤ 1 := by
    split_ifs <;> decide
  rw [fullText, List.length_append, List.length_append, List.length_append, hfrac,
    List.length_singleton]
  omega

/-- The buffer holds every text. -/
theorem toText_eq (m : MoneyMicros) : m.toText = m.fullText := by
  have hunit : MoneyMicros.microsPerUnit.toUInt64.toNat = 10 ^ 6 := by decide
  have hlength := m.length_fullText_le
  unfold fullText at hlength ⊢
  unfold toText printed
  dsimp only
  rw [UInt64.toNat_div, UInt64.toNat_mod, hunit, toNat_magnitude]
  exact List.take_of_length_le (by omega)

end MoneyMicros

theorem ne_pointByte_of_isDigit {c : UInt8} (h : IsDigit c) : decide (c ≠ pointByte) = true := by
  refine decide_eq_true fun heq => ?_
  rw [heq] at h
  exact absurd h (by decide)

theorem ne_minusByte_of_isDigit {c : UInt8} (h : IsDigit c) : c ≠ minusByte := by
  intro heq
  rw [heq] at h
  exact absurd h (by decide)

theorem readUnsigned_text {units frac : ByteString} (hunits : ∀ c ∈ units, IsDigit c)
    (hne : units ≠ []) (hfrac : ∀ c ∈ frac, IsDigit c) (hlength : frac.length = 6) :
    readUnsigned (units ++ [pointByte] ++ frac) = some (value units * 10 ^ 6 + value frac) := by
  have hbefore : ∀ c ∈ units, decide (c ≠ pointByte) = true := fun c hc =>
    ne_pointByte_of_isDigit (hunits c hc)
  unfold readUnsigned
  rw [List.append_assoc, List.takeWhile_append_of_pos hbefore,
    List.dropWhile_append_of_pos hbefore, List.singleton_append,
    List.takeWhile_cons_of_neg (by decide), List.dropWhile_cons_of_neg (by decide),
    List.append_nil]
  dsimp only
  rw [if_pos]
  refine ⟨List.isEmpty_eq_false_iff.2 hne, List.all_eq_true.2 fun c hc => ?_, hlength⟩
  rcases List.mem_append.1 hc with hc | hc
  · exact decide_eq_true (hunits c hc)
  · exact decide_eq_true (hfrac c hc)

theorem MoneyMicros.readUnsigned_magnitude (m : MoneyMicros) :
    readUnsigned (decimal (m.toInt.natAbs / 10 ^ 6) ++ [pointByte] ++
      padded 6 (m.toInt.natAbs % 10 ^ 6)) = some m.toInt.natAbs := by
  rw [readUnsigned_text (fun c hc => decimal_digits hc) (decimal_ne_nil _)
    (fun c hc => padded_digits hc) (padded_length (by decide) (by omega)), value_decimal,
    value_padded]
  congr 1
  omega

/-- Every amount is read back from its text, which is at most 21 bytes. -/
theorem money_text_reads_back (m : MoneyMicros) :
    readAmount m.toText = some m.toInt ∧ m.toText.length ≤ 21 := by
  rw [m.toText_eq]
  refine ⟨?_, m.length_fullText_le⟩
  have hmagnitude := m.readUnsigned_magnitude
  unfold MoneyMicros.fullText
  by_cases hneg : m.value < 0
  · have hsign : m.toInt < 0 := Int64.lt_iff_toInt_lt.1 hneg
    rw [if_pos hneg, List.singleton_append, List.cons_append, List.cons_append, readAmount,
      if_pos rfl, hmagnitude, Option.map_some]
    congr 1
    omega
  · have hsign : 0 ≤ m.toInt := Int64.le_iff_toInt_le.1 (Int64.not_lt.1 hneg)
    rw [if_neg hneg, List.nil_append]
    cases hunits : decimal (m.toInt.natAbs / 10 ^ 6) with
    | nil => exact absurd hunits (decimal_ne_nil _)
    | cons c rest =>
        have hdigit : IsDigit c := decimal_digits (hunits ▸ List.mem_cons_self)
        rw [hunits] at hmagnitude
        rw [List.cons_append, List.cons_append, readAmount,
          if_neg (ne_minusByte_of_isDigit hdigit)]
        rw [List.cons_append, List.cons_append] at hmagnitude
        rw [hmagnitude, Option.map_some]
        congr 1
        omega

end CostGovernor
