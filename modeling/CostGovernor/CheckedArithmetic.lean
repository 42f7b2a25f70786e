import CostGovernor.Money
import Mathlib.Algebra.Order.Field.Rat
import Mathlib.Algebra.Order.Floor.Ring
import Mathlib.Data.Rat.Floor

/-!
# Checked multiplication and rounded division of money

A product is accepted when dividing it by one factor gives back the other one. The words
wrap at 2 ^ 64, which is more than any remainder, so an accepted product is the exact
one and every product a money value can hold is accepted. A division is refused for two
pairs of words only; it corrects the truncated quotient by comparing the signs of the
remainder and the divisor, which gives the exact rounding for all signs.
-/

namespace CostGovernor

theorem toInt_eq_zero_iff (x : Int64) : x.toInt = 0 ↔ x = 0 := by
  rw [← Int64.toInt_zero, Int64.toInt_inj]

/-- A word that differs from an integer by a multiple of the word size and by less than
the word size is that integer. -/
theorem eq_of_bmod_of_lt {z w : ℤ} (h : w = z.bmod (2 ^ 64)) (hlow : -2 ^ 63 ≤ z - w)
    (hhigh : z - w ≤ 2 ^ 63) : w = z := by
  have hsplit := Int.bmod_add_bdiv z (2 ^ 64)
  rw [← h] at hsplit
  push_cast at hsplit
  omega

/-- A quotient that gives back one factor leaves a remainder smaller than the other. -/
theorem mul_exact_of_div_eq {a b : Int64} (ha : a ≠ 0) (hcorner : a ≠ -1 ∨ a * b ≠ Int64.minValue)
    (h : a * b / a = b) : (a * b).toInt = a.toInt * b.toInt := by
  have ha0 : a.toInt ≠ 0 := (toInt_eq_zero_iff a).not.mpr ha
  have hdiv : (a * b).toInt.tdiv a.toInt = b.toInt := by
    rw [← congrArg Int64.toInt h]
    rcases hcorner with hc | hc
    · exact (Int64.toInt_div_of_ne_right _ _ hc).symm
    · exact (Int64.toInt_div_of_ne_left _ _ hc).symm
  have hsplit := Int.mul_tdiv_add_tmod (a * b).toInt a.toInt
  rw [hdiv] at hsplit
  have hrem := Int.natAbs_tmod (a * b).toInt a.toInt
  have hlt := Nat.mod_lt (a * b).toInt.natAbs (Int.natAbs_pos.mpr ha0)
  have ha' := a.toInt_lt; have ha'' := a.le_toInt
  refine eq_of_bmod_of_lt (Int64.toInt_mul a b) ?_ ?_ <;> omega

theorem eq_mul_of_toInt_eq {a b r : Int64} (h : r.toInt = a.toInt * b.toInt) : a * b = r := by
  have hr := r.toInt_lt; have hr' := r.le_toInt
  apply Int64.toInt_inj.mp
  rw [Int64.toInt_mul, ← h]
  exact Int.bmod_eq_of_le (by omega) (by omega)

/-- The pair of factors the code refuses up front is the only one whose wrapped quotient
would pass the test. -/
theorem corner_of_ne {a b : Int64} (h : ¬ (a = -1 ∧ b = Int64.minValue)) :
    a ≠ -1 ∨ a * b ≠ Int64.minValue := by
  by_contra hc
  push Not at hc
  obtain ⟨ha, hmul⟩ := hc
  refine h ⟨ha, ?_⟩
  rw [ha, Int64.neg_mul, Int64.one_mul] at hmul
  rw [← Int64.neg_neg (a := b), hmul]
  decide

theorem checkedMulI64_eq_ok_iff (a b r : Int64) :
    checkedMulI64 a b = .ok r ↔ r.toInt = a.toInt * b.toInt := by
  unfold checkedMulI64
  split_ifs with hzero hcorner
  · have hprod : a.toInt * b.toInt = 0 := by
      rcases hzero with rfl | rfl <;> simp
    rw [hprod, Except.ok.injEq, ← Int64.toInt_zero, Int64.toInt_inj, eq_comm]
  · have hr := r.toInt_lt
    rcases hcorner with ⟨rfl, rfl⟩ | ⟨rfl, rfl⟩ <;> simp <;> omega
  · obtain ⟨ha, hb⟩ := not_or.mp hzero
    have hne := corner_of_ne fun h => hcorner (.inr ⟨h.2, h.1⟩)
    dsimp only
    constructor
    · intro h
      split_ifs at h with hdiv
      rw [← Except.ok.inj h]
      exact mul_exact_of_div_eq ha hne (not_not.mp hdiv)
    · intro h
      have hr : a * b = r := eq_mul_of_toInt_eq h
      have hdiv : r / a = b := by
        have ha0 : a.toInt ≠ 0 := (toInt_eq_zero_iff a).not.mpr ha
        apply Int64.toInt_inj.mp
        have hexact : (r / a).toInt = r.toInt.tdiv a.toInt := by
          rw [hr] at hne
          rcases hne with hc | hc
          · exact Int64.toInt_div_of_ne_right _ _ hc
          · exact Int64.toInt_div_of_ne_left _ _ hc
        rw [hexact, h, Int.mul_tdiv_cancel_left _ ha0]
      rw [hr, if_neg (not_not.mpr hdiv)]

namespace MoneyMicros

theorem checkedMul_eq_ok_iff (m : MoneyMicros) (factor : Int64) (r : MoneyMicros) :
    m.checkedMul factor = .ok r ↔ r.toInt = m.toInt * factor.toInt := by
  rw [checkedMul, map_mk_eq_ok_iff, checkedMulI64_eq_ok_iff]
  rfl

theorem exists_checkedMul_eq_ok_iff (m : MoneyMicros) (factor : Int64) :
    (∃ r, m.checkedMul factor = .ok r) ↔ Fits (m.toInt * factor.toInt) := by
  simp only [checkedMul_eq_ok_iff, exists_toInt_eq_iff]

def Rounding.round : Rounding → ℚ → ℤ
  | .truncate, x => if 0 ≤ x then ⌊x⌋ else ⌈x⌉
  | .ceil, x => ⌈x⌉
  | .floor, x => ⌊x⌋

section Quotients

variable {v d : ℤ}

theorem div_eq_tdiv_add (hd : d ≠ 0) : (v : ℚ) / d = v.tdiv d + (v.tmod d : ℚ) / d := by
  have hd' : (d : ℚ) ≠ 0 := Int.cast_ne_zero.mpr hd
  have hsplit : (v : ℚ) = d * v.tdiv d + v.tmod d := by
    exact_mod_cast (Int.mul_tdiv_add_tmod v d).symm
  conv_lhs => rw [hsplit]
  rw [add_div, mul_div_cancel_left₀ _ hd']

theorem fraction_lt_one (hd : d ≠ 0) : |(v.tmod d : ℚ) / d| < 1 := by
  have hrem := Int.natAbs_tmod v d
  have hlt := Nat.mod_lt v.natAbs (Int.natAbs_pos.mpr hd)
  have hd' : (0 : ℚ) < |(d : ℚ)| := abs_pos.mpr (Int.cast_ne_zero.mpr hd)
  rw [abs_div, div_lt_one hd', ← Int.cast_abs, ← Int.cast_abs, Int.cast_lt, Int.abs_eq_natAbs,
    Int.abs_eq_natAbs]
  omega

theorem fraction_pos_iff {r : ℤ} (hr : r ≠ 0) (hd : d ≠ 0) :
    0 < (r : ℚ) / d ↔ (0 < r ↔ 0 < d) := by
  rw [div_pos_iff, Int.cast_pos, Int.cast_pos, Int.cast_lt_zero, Int.cast_lt_zero]
  omega

/-- The remainder has the sign of the dividend. -/
theorem tmod_pos_iff (h : v.tmod d ≠ 0) : 0 < v.tmod d ↔ 0 < v := by
  have hnonneg : 0 ≤ v → 0 ≤ v.tmod d := Int.tmod_nonneg d
  have hnonpos : 0 ≤ -v → 0 ≤ (-v).tmod d := Int.tmod_nonneg d
  rw [Int.neg_tmod] at hnonpos
  omega

theorem floor_ceil_of_pos (q : ℤ) {x : ℚ} (hpos : 0 < x) (hlt : x < 1) :
    ⌊(q : ℚ) + x⌋ = q ∧ ⌈(q : ℚ) + x⌉ = q + 1 := by
  rw [Int.floor_eq_iff, Int.ceil_eq_iff]
  push_cast
  refine ⟨⟨?_, ?_⟩, ?_, ?_⟩ <;> linarith

theorem floor_ceil_of_neg (q : ℤ) {x : ℚ} (hneg : x < 0) (hlt : -1 < x) :
    ⌊(q : ℚ) + x⌋ = q - 1 ∧ ⌈(q : ℚ) + x⌉ = q := by
  rw [Int.floor_eq_iff, Int.ceil_eq_iff]
  push_cast
  refine ⟨⟨?_, ?_⟩, ?_, ?_⟩ <;> linarith

/-- The truncated quotient, corrected by one towards the side the fraction lies on. -/
theorem round_div (hd : d ≠ 0) (r : Rounding) :
    r.round ((v : ℚ) / d) =
      if v.tmod d = 0 then v.tdiv d
      else if r = .ceil ∧ (0 < v.tmod d ↔ 0 < d) then v.tdiv d + 1
      else if r = .floor ∧ ¬ (0 < v.tmod d ↔ 0 < d) then v.tdiv d - 1
      else v.tdiv d := by
  have hsum := div_eq_tdiv_add (v := v) hd
  by_cases hzero : v.tmod d = 0
  · rw [if_pos hzero, hsum, hzero, Int.cast_zero, zero_div, add_zero]
    cases r <;> simp [Rounding.round]
  obtain ⟨hlow, hhigh⟩ := abs_lt.mp (fraction_lt_one (v := v) hd)
  have hv : v ≠ 0 := by
    rintro rfl
    exact hzero (Int.zero_tmod d)
  -- the fraction and the whole quotient lie on the same side of zero
  have hfraction := fraction_pos_iff hzero hd
  have hquotient := fraction_pos_iff hv hd
  rw [← tmod_pos_iff hzero] at hquotient
  rw [if_neg hzero]
  by_cases hside : 0 < v.tmod d ↔ 0 < d
  · obtain ⟨hfloor, hceil⟩ := floor_ceil_of_pos (v.tdiv d) (hfraction.mpr hside) hhigh
    rw [← hsum] at hfloor hceil
    cases r <;> simp [Rounding.round, hside, hfloor, hceil, (hquotient.mpr hside).le]
  · have hneg : ∀ {z : ℤ}, z ≠ 0 → ¬ 0 < (z : ℚ) / d → (z : ℚ) / d < 0 := fun hz h =>
      lt_of_le_of_ne (not_lt.mp h) (div_ne_zero (Int.cast_ne_zero.mpr hz) (Int.cast_ne_zero.mpr hd))
    have hbelow := hneg hv (mt hquotient.mp hside)
    obtain ⟨hfloor, hceil⟩ :=
      floor_ceil_of_neg (v.tdiv d) (hneg hzero (mt hfraction.mp hside)) hlow
    rw [← hsum] at hfloor hceil
    cases r <;> simp [Rounding.round, hside, hfloor, hceil, hbelow.not_ge]

end Quotients

section Division

variable (v : Int64) {d : Int64}

theorem toInt_div_of_defined (hcorner : ¬ (v = Int64.minValue ∧ d = -1)) :
    (v / d).toInt = v.toInt.tdiv d.toInt := by
  by_cases hv : v = Int64.minValue
  · exact Int64.toInt_div_of_ne_right v d fun hd => hcorner ⟨hv, hd⟩
  · exact Int64.toInt_div_of_ne_left v d hv

/-- A quotient with a remainder has room for the correction. -/
theorem natAbs_quotient_le (hrem : v.toInt.tmod d.toInt ≠ 0) (hd : d.toInt ≠ 0) :
    (v.toInt.tdiv d.toInt).natAbs ≤ 2 ^ 62 := by
  have hv := v.toInt_lt; have hv' := v.le_toInt
  have habs := Int.natAbs_tmod v.toInt d.toInt
  have hone : d.toInt.natAbs ≠ 1 := by
    intro h
    rw [h, Nat.mod_one] at habs
    exact hrem (Int.natAbs_eq_zero.mp habs)
  calc (v.toInt.tdiv d.toInt).natAbs = v.toInt.natAbs / d.toInt.natAbs := Int.natAbs_tdiv _ _
    _ ≤ v.toInt.natAbs / 2 := Nat.div_le_div_left (by omega) (by decide)
    _ ≤ 2 ^ 62 := by omega

theorem toInt_add_one {q : Int64} (h : q.toInt.natAbs ≤ 2 ^ 62) : (q + 1).toInt = q.toInt + 1 := by
  rw [Int64.toInt_add, Int64.toInt_one]
  exact Int.bmod_eq_of_le (by omega) (by omega)

theorem toInt_sub_one {q : Int64} (h : q.toInt.natAbs ≤ 2 ^ 62) : (q - 1).toInt = q.toInt - 1 := by
  rw [Int64.toInt_sub, Int64.toInt_one]
  exact Int.bmod_eq_of_le (by omega) (by omega)

/-- A division that is not refused gives the rounded quotient. -/
theorem exists_checkedDiv (m : MoneyMicros) {d : Int64} (hd : d ≠ 0)
    (hcorner : ¬ (m.value = Int64.minValue ∧ d = -1)) (r : Rounding) :
    ∃ q, m.checkedDiv d r = .ok q ∧ q.toInt = r.round ((m.toInt : ℚ) / d.toInt) := by
  obtain ⟨v⟩ := m
  have hd0 : d.toInt ≠ 0 := (toInt_eq_zero_iff d).not.mpr hd
  have hquot := toInt_div_of_defined v hcorner
  have hzero : v % d = 0 ↔ v.toInt.tmod d.toInt = 0 := by
    rw [← toInt_eq_zero_iff, Int64.toInt_mod]
  have hside : (decide (0 < v % d) = decide (0 < d)) ↔ (0 < v.toInt.tmod d.toInt ↔ 0 < d.toInt) := by
    rw [decide_eq_decide, Int64.lt_iff_toInt_lt, Int64.lt_iff_toInt_lt, Int64.toInt_mod,
      Int64.toInt_zero]
  simp only [checkedDiv, toInt, if_neg hd, if_neg hcorner, round_div hd0, ne_eq, hzero, hside]
  by_cases hrem : v.toInt.tmod d.toInt = 0
  · rw [if_pos hrem, if_pos hrem]
    exact ⟨_, rfl, hquot⟩
  have hroom := natAbs_quotient_le v hrem hd0
  rw [← hquot] at hroom
  rw [if_neg hrem, if_neg hrem]
  split_ifs
  · exact ⟨_, rfl, by rw [toInt_add_one hroom, hquot]⟩
  · exact ⟨_, rfl, by rw [toInt_sub_one hroom, hquot]⟩
  · exact ⟨_, rfl, hquot⟩

/-- Division by a positive number, rounded up, never throws and gives the exact ceiling. -/
theorem exists_checkedDiv_ceil (m : MoneyMicros) {d : Int64} (hd : 0 < d.toInt) :
    ∃ q, m.checkedDiv d .ceil = .ok q ∧ q.toInt = ⌈(m.toInt : ℚ) / d.toInt⌉ := by
  refine m.exists_checkedDiv ((toInt_eq_zero_iff d).not.mp hd.ne') ?_ .ceil
  rintro ⟨-, rfl⟩
  exact absurd hd (by decide)

theorem checkedDiv_ceil_eq_ok_iff (m r : MoneyMicros) {d : Int64} (hd : 0 < d.toInt) :
    m.checkedDiv d .ceil = .ok r ↔ r.toInt = ⌈(m.toInt : ℚ) / d.toInt⌉ := by
  obtain ⟨q, hq, hceil⟩ := m.exists_checkedDiv_ceil hd
  rw [hq, Except.ok.injEq, ← hceil, toInt_injective.eq_iff, eq_comm]

/-- The two divisions that are refused. -/
theorem checkedDiv_throws_iff (m : MoneyMicros) (d : Int64) (r : Rounding) :
    (∃ e, m.checkedDiv d r = .error e) ↔ d = 0 ∨ (m.value = Int64.minValue ∧ d = -1) := by
  constructor
  · rintro ⟨e, he⟩
    by_contra hrefused
    obtain ⟨hd, hcorner⟩ := not_or.mp hrefused
    obtain ⟨q, hq, -⟩ := m.exists_checkedDiv hd hcorner r
    rw [hq] at he
    cases he
  · intro h
    unfold checkedDiv
    by_cases hd : d = 0
    · exact ⟨_, if_pos hd⟩
    · exact ⟨_, by rw [if_neg hd, if_pos (h.resolve_left hd)]⟩

/-- A quotient that is returned is the rounded one. -/
theorem toInt_of_checkedDiv {m q : MoneyMicros} {d : Int64} {r : Rounding}
    (h : m.checkedDiv d r = .ok q) : q.toInt = r.round ((m.toInt : ℚ) / d.toInt) := by
  by_cases hrefused : d = 0 ∨ (m.value = Int64.minValue ∧ d = -1)
  · obtain ⟨e, he⟩ := (checkedDiv_throws_iff m d r).mpr hrefused
    rw [h] at he
    cases he
  · obtain ⟨hd, hcorner⟩ := not_or.mp hrefused
    obtain ⟨q', hq', hround⟩ := m.exists_checkedDiv hd hcorner r
    rw [h, Except.ok.injEq] at hq'
    rw [hq', hround]

end Division

/-- A result is the integer it stands for, and an integer that does not fit is refused. -/
def Exact (x : Except Exn MoneyMicros) (z : ℤ) : Prop :=
  (∀ r, x = .ok r → r.toInt = z) ∧ (¬ Fits z → ∃ e, x = .error e)

theorem exact_of_forall {x : Except Exn MoneyMicros} {z : ℤ} (h : ∀ r, x = .ok r → r.toInt = z) :
    Exact x z := by
  refine ⟨h, ?_⟩
  intro hout
  cases x with
  | error e => exact ⟨e, rfl⟩
  | ok r => exact absurd ((exists_toInt_eq_iff z).mp ⟨r, h r rfl⟩) hout

/-- Checked arithmetic on every pair of words. -/
theorem checked_arithmetic_exact (a b : MoneyMicros) (n : Int64) (r : Rounding) :
    Exact (a.add b) (a.toInt + b.toInt) ∧ Exact (a.sub b) (a.toInt - b.toInt) ∧
      Exact (a.checkedMul n) (a.toInt * n.toInt) ∧
      ((∃ e, a.checkedDiv n r = .error e) ↔ n = 0 ∨ (a.value = Int64.minValue ∧ n = -1)) ∧
      ∀ q, a.checkedDiv n r = .ok q → q.toInt = r.round ((a.toInt : ℚ) / n.toInt) := by
  refine ⟨exact_of_forall fun m h => (add_eq_ok_iff a b m).mp h,
    exact_of_forall fun m h => ((sub_eq_ok_iff a b m).mp h).2,
    exact_of_forall fun m h => (checkedMul_eq_ok_iff a n m).mp h, checkedDiv_throws_iff a n r,
    fun q hq => toInt_of_checkedDiv hq⟩

end MoneyMicros

end CostGovernor
