import CostGovernor.CheckedArithmetic
import CostGovernor.OperationTraces

/-!
# The signed operations behind money

Signed arithmetic whose exact result is outside the word is undefined in the language, so a
check that looks at the result of an operation comes too late. Here the calls on money are
written with a record of every signed operation they execute. Without the record they are
the calls of the model.
-/

namespace CostGovernor

open OperationTraces MoneyMicros

inductive SignedOp
  | neg (a : Int64)
  | add (a b : Int64)
  | sub (a b : Int64)
  | mul (a b : Int64)
  | div (a b : Int64)
  | rem (a b : Int64)
  deriving DecidableEq

namespace SignedOp

/-- The word that is left, wrapped where the exact result is outside. -/
def value : SignedOp → Int64
  | neg a => -a
  | add a b => a + b
  | sub a b => a - b
  | mul a b => a * b
  | div a b => a / b
  | rem a b => a % b

/-- The exact result is inside the word. A remainder needs the quotient to be. -/
def Defined : SignedOp → Prop
  | neg a => Fits (-a.toInt)
  | add a b => Fits (a.toInt + b.toInt)
  | sub a b => Fits (a.toInt - b.toInt)
  | mul a b => Fits (a.toInt * b.toInt)
  | div a b => b ≠ 0 ∧ Fits (a.toInt.tdiv b.toInt)
  | rem a b => b ≠ 0 ∧ Fits (a.toInt.tdiv b.toInt)

instance (op : SignedOp) : Decidable op.Defined := by
  cases op <;> exact inferInstanceAs (Decidable (_ ∧ _))

end SignedOp

abbrev Signed (α : Type) := Traced SignedOp Exn α

namespace Signed

def exec (op : SignedOp) : Signed Int64 := Traced.exec SignedOp.value op

def checkedAdd (a b : Int64) : Signed Int64 := do
  let r ← exec (.add a b)
  if (0 < a ∧ 0 < b ∧ r < 0) ∨ (a < 0 ∧ b < 0 ∧ 0 ≤ r) then
    Traced.throw (.overflowError "money addition overflow")
  else pure r

def checkedSub (a b : Int64) : Signed Int64 :=
  if b = Int64.minValue then Traced.throw (.overflowError "money subtraction overflow")
  else do
    let negated ← exec (.neg b)
    checkedAdd a negated

def checkedMulI64 (a b : Int64) : Signed Int64 :=
  if a = 0 ∨ b = 0 then pure 0
  else if (a = Int64.minValue ∧ b = -1) ∨ (b = Int64.minValue ∧ a = -1) then
    Traced.throw (.overflowError "money multiply overflow")
  else do
    let r ← exec (.mul a b)
    let back ← exec (.div r a)
    if back ≠ b then Traced.throw (.overflowError "money multiply overflow") else pure r

def fromUnits (units : Int64) : Signed MoneyMicros := do
  let micros ← exec (.mul units microsPerUnit)
  pure ⟨micros⟩

def checkedDiv (m : MoneyMicros) (divisor : Int64) (r : Rounding) : Signed MoneyMicros :=
  if divisor = 0 then Traced.throw (.domainError "division by zero")
  else if m.value = Int64.minValue ∧ divisor = -1 then
    Traced.throw (.overflowError "money division overflow")
  else do
    let q ← exec (.div m.value divisor)
    let rem ← exec (.rem m.value divisor)
    if rem = 0 then pure ⟨q⟩
    else if r = .ceil ∧ decide (0 < rem) = decide (0 < divisor) then do
      let up ← exec (.add q 1)
      pure ⟨up⟩
    else if r = .floor ∧ decide (0 < rem) ≠ decide (0 < divisor) then do
      let down ← exec (.sub q 1)
      pure ⟨down⟩
    else pure ⟨q⟩

end Signed

inductive MoneyCall
  | fromUnits (units : Int64)
  | add (a b : MoneyMicros)
  | sub (a b : MoneyMicros)
  | addAssign (a b : MoneyMicros)
  | subAssign (a b : MoneyMicros)
  | checkedMul (m : MoneyMicros) (factor : Int64)
  | checkedDiv (m : MoneyMicros) (divisor : Int64) (r : Rounding)

namespace MoneyCall

/-- The call with its operations; the assignments leave their result in the left operand. -/
def exec : MoneyCall → Signed MoneyMicros
  | fromUnits units => Signed.fromUnits units
  | add a b | addAssign a b => MoneyMicros.mk <$> Signed.checkedAdd a.value b.value
  | sub a b | subAssign a b => MoneyMicros.mk <$> Signed.checkedSub a.value b.value
  | checkedMul m factor => MoneyMicros.mk <$> Signed.checkedMulI64 m.value factor
  | checkedDiv m divisor r => Signed.checkedDiv m divisor r

def result : MoneyCall → Except Exn MoneyMicros
  | fromUnits units => .ok (MoneyMicros.fromUnits units)
  | add a b | addAssign a b => a.add b
  | sub a b | subAssign a b => a.sub b
  | checkedMul m factor => m.checkedMul factor
  | checkedDiv m divisor r => m.checkedDiv divisor r

def exact : MoneyCall → ℤ
  | fromUnits units => units.toInt * microsPerUnit.toInt
  | add a b | addAssign a b => a.toInt + b.toInt
  | sub a b | subAssign a b => a.toInt - b.toInt
  | checkedMul m factor => m.toInt * factor.toInt
  | checkedDiv m divisor r => r.round ((m.toInt : ℚ) / divisor.toInt)

end MoneyCall

section Erasure

theorem result_checkedAdd (a b : Int64) : (Signed.checkedAdd a b).result = checkedAdd a b :=
  Traced.result_ite _ _ _

theorem result_checkedSub (a b : Int64) : (Signed.checkedSub a b).result = checkedSub a b := by
  unfold Signed.checkedSub checkedSub
  split_ifs
  · rfl
  · exact result_checkedAdd a (-b)

theorem result_checkedMulI64 (a b : Int64) :
    (Signed.checkedMulI64 a b).result = checkedMulI64 a b := by
  unfold Signed.checkedMulI64 checkedMulI64
  split_ifs
  · rfl
  · rfl
  · exact Traced.result_ite _ _ _

theorem result_checkedDiv (m : MoneyMicros) (divisor : Int64) (r : Rounding) :
    (Signed.checkedDiv m divisor r).result = m.checkedDiv divisor r := by
  unfold Signed.checkedDiv MoneyMicros.checkedDiv
  split_ifs
  · rfl
  · rfl
  · simp only [Signed.exec, Traced.result_exec_bind, Traced.result_ite]
    rfl

/-- Without the record of its operations a call is the call of the model. -/
theorem MoneyCall.result_exec (c : MoneyCall) : c.exec.result = c.result := by
  cases c with
  | fromUnits units => rfl
  | add a b => rw [exec, Traced.result_map, result_checkedAdd]; rfl
  | addAssign a b => rw [exec, Traced.result_map, result_checkedAdd]; rfl
  | sub a b => rw [exec, Traced.result_map, result_checkedSub]; rfl
  | subAssign a b => rw [exec, Traced.result_map, result_checkedSub]; rfl
  | checkedMul m factor => rw [exec, Traced.result_map, result_checkedMulI64]; rfl
  | checkedDiv m divisor r => exact result_checkedDiv m divisor r

end Erasure

section Defined

variable {α : Type}

theorem all_exec_bind_iff (op : SignedOp) (f : Int64 → Signed α) :
    Traced.All SignedOp.Defined (Signed.exec op >>= f) ↔
      op.Defined ∧ Traced.All SignedOp.Defined (f op.value) :=
  Traced.all_exec_bind _ _ _

/-- The sum is formed before it is looked at. -/
theorem checkedAdd_defined_iff (a b : Int64) :
    Traced.All SignedOp.Defined (Signed.checkedAdd a b) ↔ Fits (a.toInt + b.toInt) := by
  unfold Signed.checkedAdd
  rw [all_exec_bind_iff]
  refine and_iff_left ?_
  split_ifs
  · exact Traced.all_throw _
  · exact Traced.all_pure _

theorem fits_toInt (a : Int64) : Fits a.toInt := ⟨a.le_toInt, a.toInt_lt⟩

theorem checkedSub_defined_iff (a b : Int64) :
    Traced.All SignedOp.Defined (Signed.checkedSub a b) ↔
      b = Int64.minValue ∨ Fits (a.toInt - b.toInt) := by
  unfold Signed.checkedSub
  split_ifs with hmin
  · simp [hmin]
  · have hneg : (-b).toInt = -b.toInt := toInt_neg_of_ne_minValue hmin
    have hdefined : (SignedOp.neg b).Defined := by
      rw [SignedOp.Defined, ← hneg]
      exact fits_toInt (-b)
    rw [all_exec_bind_iff, SignedOp.value, checkedAdd_defined_iff, hneg, ← sub_eq_add_neg]
    simp [hmin, hdefined]

/-- The product is formed before it is divided back; the two refused pairs form none. -/
theorem checkedMulI64_defined_iff (a b : Int64) :
    Traced.All SignedOp.Defined (Signed.checkedMulI64 a b) ↔
      Fits (a.toInt * b.toInt) ∨ (a = Int64.minValue ∧ b = -1) ∨ (b = Int64.minValue ∧ a = -1) := by
  unfold Signed.checkedMulI64
  split_ifs with hzero hcorner
  · have hprod : a.toInt * b.toInt = 0 := by
      rcases hzero with rfl | rfl <;> simp
    rw [hprod]
    exact iff_of_true (Traced.all_pure _) (.inl (by decide))
  · exact iff_of_true (Traced.all_throw _) (.inr hcorner)
  · rw [all_exec_bind_iff, all_exec_bind_iff, or_iff_left hcorner]
    refine and_iff_left_of_imp ?_
    intro hfits
    -- an exact product divides back to the other factor
    have ha : a ≠ 0 := (not_or.mp hzero).1
    have hexact : (a * b).toInt = a.toInt * b.toInt := by
      rw [Int64.toInt_mul]
      exact Int.bmod_eq_of_le (by have := hfits.1; omega) (by have := hfits.2; omega)
    have hback : (a * b).toInt.tdiv a.toInt = b.toInt := by
      rw [hexact, Int.mul_tdiv_cancel_left _ ((toInt_eq_zero_iff a).not.mpr ha)]
    refine ⟨⟨ha, ?_⟩, ?_⟩
    · rw [SignedOp.value, hback]
      exact fits_toInt b
    · split_ifs
      · exact Traced.all_throw _
      · exact Traced.all_pure _

theorem fits_of_natAbs_le {z : ℤ} (h : z.natAbs ≤ 2 ^ 62) : Fits (z + 1) ∧ Fits (z - 1) := by
  unfold Fits
  omega

/-- Every division is guarded. -/
theorem checkedDiv_defined (m : MoneyMicros) (divisor : Int64) (r : Rounding) :
    Traced.All SignedOp.Defined (Signed.checkedDiv m divisor r) := by
  unfold Signed.checkedDiv
  split_ifs with hzero hcorner
  · exact Traced.all_throw _
  · exact Traced.all_throw _
  have hquot := toInt_div_of_defined m.value hcorner
  have hdefined : divisor ≠ 0 ∧ Fits (m.value.toInt.tdiv divisor.toInt) := by
    rw [← hquot]
    exact ⟨hzero, fits_toInt _⟩
  rw [all_exec_bind_iff, all_exec_bind_iff]
  refine ⟨hdefined, hdefined, ?_⟩
  by_cases hrem : m.value % divisor = 0
  · rw [SignedOp.value, SignedOp.value, if_pos hrem]
    exact Traced.all_pure _
  have hroom : (m.value / divisor).toInt.natAbs ≤ 2 ^ 62 := by
    rw [hquot]
    refine natAbs_quotient_le m.value ?_ ((toInt_eq_zero_iff divisor).not.mpr hzero)
    rwa [← Int64.toInt_mod, ne_eq, toInt_eq_zero_iff]
  rw [SignedOp.value, SignedOp.value, if_neg hrem]
  split_ifs
  · rw [all_exec_bind_iff]
    exact ⟨(fits_of_natAbs_le hroom).1, Traced.all_pure _⟩
  · rw [all_exec_bind_iff]
    exact ⟨(fits_of_natAbs_le hroom).2, Traced.all_pure _⟩
  · exact Traced.all_pure _

end Defined

namespace MoneyCall

/-- The inputs on which a call executes no operation whose result is outside the word. -/
def InRange : MoneyCall → Prop
  | fromUnits units => Fits (units.toInt * microsPerUnit.toInt)
  | add a b | addAssign a b => Fits (a.toInt + b.toInt)
  | sub a b | subAssign a b => b.value = Int64.minValue ∨ Fits (a.toInt - b.toInt)
  | checkedMul m factor => Fits (m.toInt * factor.toInt) ∨
      (m.value = Int64.minValue ∧ factor = -1) ∨ (factor = Int64.minValue ∧ m.value = -1)
  | checkedDiv _ _ _ => True

theorem defined_iff (c : MoneyCall) : Traced.All SignedOp.Defined c.exec ↔ c.InRange := by
  cases c with
  | fromUnits units =>
      exact (all_exec_bind_iff _ _).trans (and_iff_left (Traced.all_pure _))
  | add a b => exact (Traced.all_map _ _).trans (checkedAdd_defined_iff _ _)
  | addAssign a b => exact (Traced.all_map _ _).trans (checkedAdd_defined_iff _ _)
  | sub a b => exact (Traced.all_map _ _).trans (checkedSub_defined_iff _ _)
  | subAssign a b => exact (Traced.all_map _ _).trans (checkedSub_defined_iff _ _)
  | checkedMul m factor => exact (Traced.all_map _ _).trans (checkedMulI64_defined_iff _ _)
  | checkedDiv m divisor r => exact iff_of_true (checkedDiv_defined m divisor r) trivial

/-- On wrapping words the returned values are exact, but for the conversion from units. -/
theorem toInt_of_result {c : MoneyCall} (hrange : c.InRange) {m : MoneyMicros}
    (h : c.result = .ok m) : m.toInt = c.exact := by
  cases c with
  | fromUnits units =>
      have hfits : Fits (units.toInt * microsPerUnit.toInt) := hrange
      have hm : m = MoneyMicros.fromUnits units := (Except.ok.inj h).symm
      have hmul : (MoneyMicros.fromUnits units).toInt = (units * microsPerUnit).toInt := rfl
      rw [hm, hmul, Int64.toInt_mul]
      exact Int.bmod_eq_of_le (by have := hfits.1; omega) (by have := hfits.2; omega)
  | add a b => exact (add_eq_ok_iff a b m).mp h
  | addAssign a b => exact (add_eq_ok_iff a b m).mp h
  | sub a b => exact ((sub_eq_ok_iff a b m).mp h).2
  | subAssign a b => exact ((sub_eq_ok_iff a b m).mp h).2
  | checkedMul a factor => exact (checkedMul_eq_ok_iff a factor m).mp h
  | checkedDiv a divisor r => exact toInt_of_checkedDiv h

end MoneyCall

/-- A call executes only signed operations whose result is inside the word, and throws or
returns the exact value, if and only if its inputs are in range. -/
theorem money_call_defined_iff (c : MoneyCall) :
    ((∀ op ∈ c.exec.ops, op.Defined) ∧ ∀ m, c.exec.result = .ok m → m.toInt = c.exact) ↔
      c.InRange := by
  refine ⟨fun h => c.defined_iff.mp h.1, ?_⟩
  intro hrange
  refine ⟨c.defined_iff.mpr hrange, ?_⟩
  intro m hm
  rw [c.result_exec] at hm
  exact MoneyCall.toInt_of_result hrange hm

/-- The conversion returns a wrapped amount, and the addition overflows before its check. -/
theorem largest_word_overflows :
    (MoneyCall.fromUnits Int64.maxValue).exec.result = .ok ⟨-1000000⟩ ∧
      (MoneyCall.fromUnits Int64.maxValue).exact = 9223372036854775807000000 ∧
      SignedOp.add Int64.maxValue 1 ∈ (MoneyCall.add ⟨Int64.maxValue⟩ ⟨1⟩).exec.ops ∧
      ¬ (SignedOp.add Int64.maxValue 1).Defined := by
  decide +kernel

end CostGovernor
