import CostGovernor.Cost
import Mathlib.Algebra.Order.Field.Rat
import Mathlib.Algebra.Order.Floor.Div
import Mathlib.Algebra.Order.Floor.Ring
import Mathlib.Data.Rat.Floor

/-!
# The ceiling of a product over a denominator

`ceilMulDiv` works in unsigned words and throws on a product they cannot hold. Whatever
it returns is the exact ceiling, and it returns whenever the product fits the word and
the ceiling a money value.
-/

namespace CostGovernor

theorem toNat_toUInt64 {a : Int64} (h : 0 ≤ a.toInt) : a.toUInt64.toNat = a.toInt.toNat := by
  have hlt := a.toInt_lt
  have hword : (a.toUInt64.toNat : ℤ) = a.toInt := by
    have hbits : a.toInt = a.toBitVec.toInt := rfl
    have hnat : a.toUInt64.toNat = a.toBitVec.toNat := rfl
    rw [hbits, BitVec.toInt_eq_toNat_cond] at h ⊢
    rw [hnat]
    split_ifs at h ⊢ <;> omega
  omega

theorem toInt_toInt64 {q : UInt64} (h : q.toNat < 2 ^ 63) : q.toInt64.toInt = q.toNat := by
  change q.toBitVec.toInt = _
  rw [BitVec.toInt_eq_toNat_of_lt (by rw [UInt64.toNat_toBitVec]; omega), UInt64.toNat_toBitVec]

/-- The quotient is raised by one exactly when there is a remainder. -/
theorem ceilDiv_eq_ite {n d : ℕ} (hd : 0 < d) :
    n ⌈/⌉ d = if n % d ≠ 0 then n / d + 1 else n / d := by
  have hsplit := Nat.div_add_mod n d
  have hmod := Nat.mod_lt n hd
  have hcomm : n / d * d = d * (n / d) := Nat.mul_comm _ _
  have hsucc : (n / d + 1) * d = n / d * d + d := Nat.succ_mul _ _
  have hsucc' : (n / d + 1 + 1) * d = (n / d + 1) * d + d := Nat.succ_mul _ _
  rw [Nat.ceilDiv_eq_add_pred_div]
  split_ifs with hr
  · exact Nat.div_eq_of_lt_le (by omega) (by omega)
  · exact Nat.div_eq_of_lt_le (by omega) (by omega)

section Words

variable {ud : UInt64}

theorem product_overflows_iff {ua ub : UInt64} (ha : ua ≠ 0) :
    u64Max / ua < ub ↔ 2 ^ 64 ≤ ua.toNat * ub.toNat := by
  have hpos : 0 < ua.toNat := UInt64.pos_iff_ne_zero.2 ha
  have hmax : u64Max.toNat = 2 ^ 64 - 1 := rfl
  rw [UInt64.lt_iff_toNat_lt, UInt64.toNat_div, Nat.div_lt_iff_lt_mul hpos, hmax, Nat.mul_comm]
  omega

/-- A remainder means a denominator of at least two, so the quotient can be raised. -/
theorem quotient_lt_of_remainder {prod : UInt64} (h : prod % ud ≠ 0) :
    (prod / ud).toNat < 2 ^ 63 := by
  have hlt := prod.toNat_lt
  have hr : prod.toNat % ud.toNat ≠ 0 := by
    rw [← UInt64.toNat_mod]
    exact fun hzero => h (UInt64.toNat_inj.1 hzero)
  have htwo : 2 ≤ ud.toNat ∨ ud.toNat = 0 := by
    by_contra hone
    have hd : ud.toNat = 1 := by omega
    rw [hd, Nat.mod_one] at hr
    exact hr rfl
  rw [UInt64.toNat_div]
  rcases htwo with htwo | hzero
  · rw [Nat.div_lt_iff_lt_mul (by omega)]
    omega
  · rw [hzero, Nat.div_zero]
    norm_num

theorem raised_quotient (ua ub : UInt64) (hd : 0 < ud.toNat)
    (hfits : ua.toNat * ub.toNat < 2 ^ 64) :
    (if ua * ub % ud ≠ 0 then ua * ub / ud + 1 else ua * ub / ud).toNat =
      ua.toNat * ub.toNat ⌈/⌉ ud.toNat := by
  have hprod : (ua * ub).toNat = ua.toNat * ub.toNat := by
    rw [UInt64.toNat_mul, Nat.mod_eq_of_lt hfits]
  have hrem : ua * ub % ud ≠ 0 ↔ ua.toNat * ub.toNat % ud.toNat ≠ 0 := by
    rw [← hprod, ← UInt64.toNat_mod, ne_eq, ← UInt64.toNat_inj]
    rfl
  rw [ceilDiv_eq_ite hd]
  by_cases hr : ua * ub % ud ≠ 0
  · have hlt := quotient_lt_of_remainder hr
    have hone : (1 : UInt64).toNat = 1 := rfl
    rw [if_pos hr, if_pos (hrem.1 hr), UInt64.toNat_add, hone, Nat.mod_eq_of_lt (by omega),
      UInt64.toNat_div, hprod]
  · rw [if_neg hr, if_neg (fun h => hr (hrem.2 h)), UInt64.toNat_div, hprod]

end Words

/-- The whole function on amounts that are not negative. -/
theorem ceilMulDiv_of_nonneg {a b d : Int64} (ha : 0 ≤ a.toInt) (hb : 0 ≤ b.toInt)
    (hd : 0 < d.toInt) :
    ceilMulDiv a b d =
      if 2 ^ 64 ≤ a.toInt.toNat * b.toInt.toNat then
        throwStatus .resourceExhausted "cost multiplication overflow"
      else if 2 ^ 63 ≤ a.toInt.toNat * b.toInt.toNat ⌈/⌉ d.toInt.toNat then
        throwStatus .resourceExhausted "cost exceeds representable micro-units"
      else .ok (Int64.ofNat (a.toInt.toNat * b.toInt.toNat ⌈/⌉ d.toInt.toNat)) := by
  have hsigns : ¬ (a < 0 ∨ b < 0 ∨ d ≤ 0) := by
    simp only [Int64.lt_iff_toInt_lt, Int64.le_iff_toInt_le, Int64.toInt_zero]
    omega
  have hud : 0 < d.toUInt64.toNat := by
    rw [toNat_toUInt64 hd.le]
    omega
  rw [← toNat_toUInt64 ha, ← toNat_toUInt64 hb, ← toNat_toUInt64 hd.le]
  dsimp only [ceilMulDiv]
  rw [if_neg hsigns]
  by_cases hzero : a = 0
  · have hnothing : (Int64.toUInt64 0).toNat = 0 := rfl
    rw [if_pos hzero, hzero, hnothing, zero_mul, zero_ceilDiv, if_neg (by norm_num),
      if_neg (by norm_num)]
    rfl
  have hua : a.toUInt64 ≠ 0 := by
    intro h
    have hnat : (0 : UInt64).toNat = a.toInt.toNat := h ▸ toNat_toUInt64 ha
    have hnone : (0 : UInt64).toNat = 0 := rfl
    exact hzero (Int64.toInt.inj (show a.toInt = 0 by omega))
  rw [if_neg hzero]
  by_cases hover : 2 ^ 64 ≤ a.toUInt64.toNat * b.toUInt64.toNat
  · rw [if_pos ((product_overflows_iff hua).2 hover), if_pos hover]
  rw [if_neg (fun h => hover ((product_overflows_iff hua).1 h)), if_neg hover]
  have hraise : ¬ (a.toUInt64 * b.toUInt64 % d.toUInt64 ≠ 0 ∧
      a.toUInt64 * b.toUInt64 / d.toUInt64 = u64Max) := by
    intro h
    have hlt := quotient_lt_of_remainder h.1
    rw [h.2] at hlt
    exact absurd hlt (by decide)
  rw [if_neg hraise]
  have hceil := raised_quotient a.toUInt64 b.toUInt64 hud (by omega)
  generalize (if a.toUInt64 * b.toUInt64 % d.toUInt64 ≠ 0 then
    a.toUInt64 * b.toUInt64 / d.toUInt64 + 1 else a.toUInt64 * b.toUInt64 / d.toUInt64) = q at hceil ⊢
  rw [← hceil]
  have hmax : i64Max.toUInt64 < q ↔ 2 ^ 63 ≤ q.toNat := by
    have hvalue : i64Max.toUInt64.toNat = 2 ^ 63 - 1 := rfl
    rw [UInt64.lt_iff_toNat_lt, hvalue]
    omega
  by_cases hbig : 2 ^ 63 ≤ q.toNat
  · rw [if_pos (hmax.2 hbig), if_pos hbig]
  · have hlt : q.toNat < 2 ^ 63 := by omega
    rw [if_neg (fun h => hbig (hmax.1 h)), if_neg hbig]
    congr 1
    apply Int64.toInt.inj
    rw [toInt_toInt64 hlt, Int64.toInt_ofNat_of_lt hlt]

theorem ceilMulDiv_signs {a b d q : Int64} (h : ceilMulDiv a b d = .ok q) :
    0 ≤ a.toInt ∧ 0 ≤ b.toInt ∧ 0 < d.toInt := by
  unfold ceilMulDiv at h
  by_cases hsigns : a < 0 ∨ b < 0 ∨ d ≤ 0
  · rw [if_pos hsigns] at h
    cases h
  · simp only [Int64.lt_iff_toInt_lt, Int64.le_iff_toInt_le, Int64.toInt_zero] at hsigns
    omega

theorem ceilMulDiv_eq_ok_iff {a b d q : Int64} :
    ceilMulDiv a b d = .ok q ↔ (0 ≤ a.toInt ∧ 0 ≤ b.toInt ∧ 0 < d.toInt) ∧
      a.toInt.toNat * b.toInt.toNat < 2 ^ 64 ∧
      q.toInt = (a.toInt.toNat * b.toInt.toNat ⌈/⌉ d.toInt.toNat : ℕ) := by
  constructor
  · intro h
    obtain ⟨ha, hb, hd⟩ := ceilMulDiv_signs h
    rw [ceilMulDiv_of_nonneg ha hb hd] at h
    split_ifs at h with hover hbig
    · cases h
    · cases h
    · rw [← Except.ok.inj h, Int64.toInt_ofNat_of_lt (not_le.1 hbig)]
      exact ⟨⟨ha, hb, hd⟩, not_le.1 hover, rfl⟩
  · rintro ⟨⟨ha, hb, hd⟩, hfits, hq⟩
    have hlt := q.toInt_lt
    have hsmall : a.toInt.toNat * b.toInt.toNat ⌈/⌉ d.toInt.toNat < 2 ^ 63 := by omega
    rw [ceilMulDiv_of_nonneg ha hb hd, if_neg (not_le.2 hfits), if_neg (not_le.2 hsmall)]
    congr 1
    apply Int64.toInt.inj
    rw [Int64.toInt_ofNat_of_lt hsmall, hq]

theorem ceilMulDiv_nonneg {a b d q : Int64} (h : ceilMulDiv a b d = .ok q) : 0 ≤ q.toInt := by
  rw [(ceilMulDiv_eq_ok_iff.1 h).2.2]
  exact Int.natCast_nonneg _

section Exact

/-- The two roundings up of a quotient. -/
theorem ceil_natCast_div {n d : ℕ} (hd : 0 < d) : ⌈(n : ℚ) / d⌉ = (n ⌈/⌉ d : ℕ) := by
  have hd' : (0 : ℚ) < d := Nat.cast_pos.mpr hd
  have hnat : ⌈(n : ℚ) / d⌉₊ = n ⌈/⌉ d := by
    refine eq_of_forall_ge_iff fun k => ?_
    rw [Nat.ceil_le, ceilDiv_le_iff_le_mul hd, div_le_iff₀' hd']
    exact_mod_cast Iff.rfl
  rw [← hnat, Int.natCast_ceil_eq_ceil (by positivity)]

theorem ratCast_eq_toNat {z : ℤ} (h : 0 ≤ z) : (z : ℚ) = (z.toNat : ℕ) := by
  exact_mod_cast (Int.toNat_of_nonneg h).symm

def exactCeil (a b d : Int64) : ℤ := ⌈(a.toInt : ℚ) * b.toInt / d.toInt⌉

variable {a b d : Int64}

theorem exactCeil_eq (ha : 0 ≤ a.toInt) (hb : 0 ≤ b.toInt) (hd : 0 < d.toInt) :
    exactCeil a b d = (a.toInt.toNat * b.toInt.toNat ⌈/⌉ d.toInt.toNat : ℕ) := by
  rw [exactCeil, ratCast_eq_toNat ha, ratCast_eq_toNat hb, ratCast_eq_toNat hd.le, ← Nat.cast_mul,
    ceil_natCast_div (by omega)]

/-- The same in the terms of the exact value. -/
theorem ceilMulDiv_eq_exactCeil (ha : 0 ≤ a.toInt) (hb : 0 ≤ b.toInt) (hd : 0 < d.toInt)
    (q : Int64) :
    ceilMulDiv a b d = .ok q ↔ a.toInt * b.toInt < 2 ^ 64 ∧ q.toInt = exactCeil a b d := by
  have hfits : a.toInt.toNat * b.toInt.toNat < 2 ^ 64 ↔ a.toInt * b.toInt < 2 ^ 64 := by
    rw [← Int.ofNat_lt, Nat.cast_mul, Int.toNat_of_nonneg ha, Int.toNat_of_nonneg hb]
    rfl
  rw [ceilMulDiv_eq_ok_iff, exactCeil_eq ha hb hd, hfits]
  exact and_iff_right ⟨ha, hb, hd⟩

/-- On such arguments a refusal is always for want of room. -/
theorem ceilMulDiv_exhausted_iff (ha : 0 ≤ a.toInt) (hb : 0 ≤ b.toInt) (hd : 0 < d.toInt) :
    (∃ msg, ceilMulDiv a b d = throwStatus .resourceExhausted msg) ↔
      ¬ ∃ q, ceilMulDiv a b d = .ok q := by
  rw [ceilMulDiv_of_nonneg ha hb hd]
  split_ifs <;> simp [throwStatus]

end Exact

/-- The exact cost is returned whenever it can be represented and refused only when it cannot,
if and only if the product before the division fits an unsigned word or the cost cannot be
represented. -/
theorem ceilMulDiv_exact_iff (a b d : Int64) (ha : 0 ≤ a.toInt) (hb : 0 ≤ b.toInt)
    (hd : 0 < d.toInt) :
    ((exactCeil a b d ≤ i64Max.toInt → ∃ q, ceilMulDiv a b d = .ok q ∧ q.toInt = exactCeil a b d) ∧
        ((∃ msg, ceilMulDiv a b d = throwStatus .resourceExhausted msg) ↔
          i64Max.toInt < exactCeil a b d)) ↔
      a.toInt * b.toInt < 2 ^ 64 ∨ i64Max.toInt < exactCeil a b d := by
  have hmax : i64Max.toInt = 2 ^ 63 - 1 := rfl
  have hnonneg : 0 ≤ exactCeil a b d := by
    rw [exactCeil_eq ha hb hd]
    exact Int.natCast_nonneg _
  have hok := ceilMulDiv_eq_exactCeil ha hb hd
  rw [ceilMulDiv_exhausted_iff ha hb hd]
  simp only [hok]
  constructor
  · rintro ⟨hreturned, -⟩
    by_cases hsmall : exactCeil a b d ≤ i64Max.toInt
    · obtain ⟨q, ⟨hfits, -⟩, -⟩ := hreturned hsmall
      exact .inl hfits
    · exact .inr (not_le.mp hsmall)
  · intro hcases
    by_cases hsmall : exactCeil a b d ≤ i64Max.toInt
    · have hfits := hcases.resolve_right (not_lt.mpr hsmall)
      have hvalue : (Int64.ofInt (exactCeil a b d)).toInt = exactCeil a b d :=
        Int64.toInt_ofInt_of_le (by omega) (by omega)
      refine ⟨fun _ => ⟨_, ⟨hfits, hvalue⟩, hvalue⟩, ?_⟩
      exact iff_of_false (not_not.mpr ⟨_, hfits, hvalue⟩) (not_lt.mpr hsmall)
    · refine ⟨fun h => absurd h hsmall, iff_of_true ?_ (not_le.mp hsmall)⟩
      rintro ⟨q, -, hq⟩
      have hlt := q.toInt_lt
      omega

/-- A cost of 10 ^ 11 micro-units is refused because its product is not divided in time. -/
theorem representable_cost_refused :
    ceilMulDiv 10000000000 10000000000 1000000000 =
        throwStatus .resourceExhausted "cost multiplication overflow" ∧
      exactCeil 10000000000 10000000000 1000000000 = 100000000000 := by
  refine ⟨by decide, ?_⟩
  rw [exactCeil_eq (by decide) (by decide) (by decide)]
  decide +kernel

theorem ceilMulDiv_exact_small :
    (exactCeil 3 5 2 ≤ i64Max.toInt → ∃ q, ceilMulDiv 3 5 2 = .ok q ∧ q.toInt = exactCeil 3 5 2) ∧
      ((∃ msg, ceilMulDiv 3 5 2 = throwStatus .resourceExhausted msg) ↔
        i64Max.toInt < exactCeil 3 5 2) :=
  (ceilMulDiv_exact_iff 3 5 2 (by decide) (by decide) (by decide)).2 (.inl (by decide))

end CostGovernor
