import Mathlib.Data.Nat.Digits.Lemmas
import Mathlib.Tactic

/-!
# Decimal text

Numbers as strings of ASCII digits: written without leading zeros or padded with zeros to a
width, and read back by Horner's rule.
-/

namespace DecimalText

def digitByte (d : ℕ) : UInt8 := UInt8.ofNat (48 + d)

def IsDigit (c : UInt8) : Prop := 48 ≤ c.toNat ∧ c.toNat < 58

instance (c : UInt8) : Decidable (IsDigit c) := inferInstanceAs (Decidable (_ ∧ _))

/-- The digits of a number, the first one not zero unless it is the only one. -/
def decimal (n : ℕ) : List UInt8 :=
  if n = 0 then [digitByte 0] else ((Nat.digits 10 n).map digitByte).reverse

def padded (width n : ℕ) : List UInt8 :=
  List.replicate (width - (decimal n).length) (digitByte 0) ++ decimal n

def value (text : List UInt8) : ℕ := text.foldl (fun v c => 10 * v + (c.toNat - 48)) 0

theorem toNat_digitByte {d : ℕ} (h : d < 10) : (digitByte d).toNat = 48 + d := by
  rw [digitByte, UInt8.toNat_ofNat']
  omega

theorem isDigit_digitByte {d : ℕ} (h : d < 10) : IsDigit (digitByte d) := by
  rw [IsDigit, toNat_digitByte h]
  omega

theorem decimal_digits {n : ℕ} {c : UInt8} (h : c ∈ decimal n) : IsDigit c := by
  unfold decimal at h
  split_ifs at h
  · rw [List.mem_singleton.1 h]
    exact isDigit_digitByte (by decide)
  · obtain ⟨d, hd, rfl⟩ := List.mem_map.1 (List.mem_reverse.1 h)
    exact isDigit_digitByte (Nat.digits_lt_base (by decide) hd)

theorem padded_digits {width n : ℕ} {c : UInt8} (h : c ∈ padded width n) : IsDigit c := by
  rcases List.mem_append.1 h with hzero | hdigit
  · rw [List.eq_of_mem_replicate hzero]
    exact isDigit_digitByte (by decide)
  · exact decimal_digits hdigit

theorem decimal_ne_nil (n : ℕ) : decimal n ≠ [] := by
  unfold decimal
  split_ifs with hn
  · exact List.cons_ne_nil _ _
  · rw [ne_eq, List.reverse_eq_nil_iff, List.map_eq_nil_iff]
    exact Nat.digits_ne_nil_iff_ne_zero.2 hn

theorem decimal_length_le {n k : ℕ} (hk : 0 < k) (h : n < 10 ^ k) : (decimal n).length ≤ k := by
  unfold decimal
  split_ifs with hn
  · exact hk
  · rw [List.length_reverse, List.length_map]
    exact (Nat.digits_length_le_iff (by decide) n).2 h

theorem padded_length {n k : ℕ} (hk : 0 < k) (h : n < 10 ^ k) : (padded k n).length = k := by
  have hle := decimal_length_le hk h
  rw [padded, List.length_append, List.length_replicate]
  omega

theorem value_decimal (n : ℕ) : value (decimal n) = n := by
  unfold decimal value
  split_ifs with hn
  · rw [hn]
    rfl
  · rw [List.foldl_reverse, List.foldr_map]
    have hdigits : ∀ l : List ℕ, (∀ d ∈ l, d < 10) →
        l.foldr (fun d v => 10 * v + ((digitByte d).toNat - 48)) 0 = Nat.ofDigits 10 l := by
      intro l hl
      induction l with
      | nil => rfl
      | cons d l ih =>
          rw [List.foldr_cons, ih fun d' hd' => hl d' (List.mem_cons_of_mem d hd'),
            toNat_digitByte (hl d List.mem_cons_self), Nat.ofDigits_cons]
          omega
    rw [hdigits _ fun d hd => Nat.digits_lt_base (by decide) hd, Nat.ofDigits_digits]

theorem value_padded (width n : ℕ) : value (padded width n) = n := by
  have hzeros : ∀ k, (List.replicate k (digitByte 0)).foldl
      (fun v c => 10 * v + (c.toNat - 48)) 0 = 0 := by
    intro k
    induction k with
    | zero => rfl
    | succ k ih =>
        rw [List.replicate_succ', List.foldl_append, ih]
        rfl
  rw [padded, value, List.foldl_append, hzeros]
  exact value_decimal n

end DecimalText
