import Mathlib.Order.Basic
import Mathlib.Tactic

/-!
# Money in integer micro-units

`MoneyMicros` wraps one signed 64-bit word. Addition and subtraction wrap in
two's complement and are rejected by the sign test of the wrapped word, so a
returned value is the exact integer result. Calls that can throw return in
`Except Exn`.
-/

namespace CostGovernor

inductive Status
  | ok | invalidInput | insufficientEvidence | staleEvidence | staleAuthority | missingPrice
  | currencyMismatch | budgetExceeded | budgetExpired | planInfeasible | planSuperseded
  | interventionFailed | outcomeUnknown | persistenceCorrupt | protocolError | resourceExhausted
  | cancelled | shuttingDown | persistenceUnsupportedVersion
  deriving DecidableEq

inductive Exn
  | overflowError (what : String)
  | domainError (what : String)
  | statusError (status : Status) (what : String)
  deriving DecidableEq

def throwStatus {α : Type} (s : Status) (msg : String) : Except Exn α := .error (.statusError s msg)

def checkedAdd (a b : Int64) : Except Exn Int64 :=
  let r := a + b
  if (0 < a ∧ 0 < b ∧ r < 0) ∨ (a < 0 ∧ b < 0 ∧ 0 ≤ r) then
    .error (.overflowError "money addition overflow")
  else .ok r

def checkedSub (a b : Int64) : Except Exn Int64 :=
  if b = Int64.minValue then .error (.overflowError "money subtraction overflow")
  else checkedAdd a (-b)

def checkedMulI64 (a b : Int64) : Except Exn Int64 :=
  if a = 0 ∨ b = 0 then .ok 0
  else if (a = Int64.minValue ∧ b = -1) ∨ (b = Int64.minValue ∧ a = -1) then
    .error (.overflowError "money multiply overflow")
  else
    let r := a * b
    if r / a ≠ b then .error (.overflowError "money multiply overflow") else .ok r

theorem checkedAdd_eq_ok_iff (a b r : Int64) :
    checkedAdd a b = .ok r ↔ r.toInt = a.toInt + b.toInt := by
  have ha := a.toInt_lt; have ha' := a.le_toInt
  have hb := b.toInt_lt; have hb' := b.le_toInt
  have hr := r.toInt_lt; have hr' := r.le_toInt
  have hsum := Int64.toInt_add a b
  rw [Int.bmod_def] at hsum
  unfold checkedAdd
  simp only [Int64.lt_iff_toInt_lt, Int64.le_iff_toInt_le, Int64.toInt_zero]
  constructor
  · intro h
    split_ifs at h with hov
    have he : a + b = r := Except.ok.inj h
    rw [← he]
    split_ifs at hsum <;> omega
  · intro h
    have he : a + b = r := by
      apply Int64.toInt.inj
      rw [hsum]
      split_ifs <;> omega
    rw [he, if_neg (by omega)]

theorem toInt_neg_of_ne_minValue {b : Int64} (hb : b ≠ Int64.minValue) :
    (-b).toInt = -b.toInt := by
  have hlt := b.toInt_lt; have hle := b.le_toInt
  have hne : b.toInt ≠ -2 ^ 63 := by
    intro h
    exact hb (Int64.toInt.inj (h.trans Int64.toInt_minValue.symm))
  rw [Int64.toInt_neg, Int.bmod_def]
  split_ifs <;> omega

theorem checkedSub_eq_ok_iff (a b r : Int64) :
    checkedSub a b = .ok r ↔ b ≠ Int64.minValue ∧ r.toInt = a.toInt - b.toInt := by
  unfold checkedSub
  by_cases hb : b = Int64.minValue
  · simp [hb]
  · rw [if_neg hb, checkedAdd_eq_ok_iff, toInt_neg_of_ne_minValue hb]
    simp only [hb, ne_eq, not_false_eq_true, true_and, Int.sub_eq_add_neg]

/-- Canonical internal money: micro-units of a single configured currency. -/
structure MoneyMicros where
  value : Int64 := 0
  deriving DecidableEq

namespace MoneyMicros

def toInt (m : MoneyMicros) : Int := m.value.toInt

theorem toInt_injective : Function.Injective toInt := by
  intro a b h
  cases a; cases b
  congr
  exact Int64.toInt.inj h

instance : LinearOrder MoneyMicros := LinearOrder.lift' toInt toInt_injective

theorem le_iff_toInt_le (a b : MoneyMicros) : a ≤ b ↔ a.toInt ≤ b.toInt := Iff.rfl

theorem lt_iff_toInt_lt (a b : MoneyMicros) : a < b ↔ a.toInt < b.toInt := Iff.rfl

theorem toInt_lt (m : MoneyMicros) : m.toInt < 2 ^ 63 := m.value.toInt_lt

theorem le_toInt (m : MoneyMicros) : -2 ^ 63 ≤ m.toInt := m.value.le_toInt

@[simp] theorem toInt_zero : (⟨0⟩ : MoneyMicros).toInt = 0 := rfl

def fromMicros (micros : Int64) : MoneyMicros := ⟨micros⟩

def microsPerUnit : Int64 := 1000000

def fromUnits (units : Int64) : MoneyMicros := ⟨units * microsPerUnit⟩

def negative (m : MoneyMicros) : Bool := decide (m.value < 0)

def isZero (m : MoneyMicros) : Bool := decide (m.value = 0)

def add (a b : MoneyMicros) : Except Exn MoneyMicros := (checkedAdd a.value b.value).map mk

def sub (a b : MoneyMicros) : Except Exn MoneyMicros := (checkedSub a.value b.value).map mk

def checkedMul (m : MoneyMicros) (factor : Int64) : Except Exn MoneyMicros :=
  (checkedMulI64 m.value factor).map mk

inductive Rounding
  | truncate | ceil | floor
  deriving DecidableEq

def checkedDiv (m : MoneyMicros) (divisor : Int64) (r : Rounding) : Except Exn MoneyMicros :=
  if divisor = 0 then .error (.domainError "division by zero")
  else if m.value = Int64.minValue ∧ divisor = -1 then
    .error (.overflowError "money division overflow")
  else
    let q := m.value / divisor
    let rem := m.value % divisor
    if rem = 0 then .ok ⟨q⟩
    else if r = .ceil ∧ decide (0 < rem) = decide (0 < divisor) then .ok ⟨q + 1⟩
    else if r = .floor ∧ decide (0 < rem) ≠ decide (0 < divisor) then .ok ⟨q - 1⟩
    else .ok ⟨q⟩

theorem negative_eq_false_iff (m : MoneyMicros) : m.negative = false ↔ 0 ≤ m.toInt := by
  simp only [negative, decide_eq_false_iff_not, Int64.lt_iff_toInt_lt, Int64.toInt_zero, not_lt]
  rfl

theorem map_mk_eq_ok_iff (x : Except Exn Int64) (m : MoneyMicros) :
    x.map mk = .ok m ↔ x = .ok m.value := by
  cases x with
  | error e => simp [Except.map]
  | ok v => cases m; simp [Except.map]

/-- A returned sum is the exact sum, and every representable sum is returned. -/
theorem add_eq_ok_iff (a b r : MoneyMicros) : a.add b = .ok r ↔ r.toInt = a.toInt + b.toInt := by
  rw [add, map_mk_eq_ok_iff, checkedAdd_eq_ok_iff]
  rfl

theorem sub_eq_ok_iff (a b r : MoneyMicros) :
    a.sub b = .ok r ↔ b.toInt ≠ -2 ^ 63 ∧ r.toInt = a.toInt - b.toInt := by
  have hmin : b.value ≠ Int64.minValue ↔ b.toInt ≠ -2 ^ 63 := by
    rw [ne_eq, ne_eq, ← Int64.toInt_inj, Int64.toInt_minValue]
    rfl
  rw [sub, map_mk_eq_ok_iff, checkedSub_eq_ok_iff, hmin]
  rfl

/-- The integers a money value can hold. -/
def Fits (z : Int) : Prop := -2 ^ 63 ≤ z ∧ z < 2 ^ 63

instance (z : Int) : Decidable (Fits z) := inferInstanceAs (Decidable (_ ∧ _))

theorem exists_toInt_eq_iff (z : Int) : (∃ m : MoneyMicros, m.toInt = z) ↔ Fits z := by
  constructor
  · intro h
    obtain ⟨m, hm⟩ := h
    exact ⟨hm ▸ m.le_toInt, hm ▸ m.toInt_lt⟩
  · intro h
    exact ⟨⟨Int64.ofInt z⟩, Int64.toInt_ofInt_of_le h.1 h.2⟩

theorem exists_add_eq_ok_iff (a b : MoneyMicros) :
    (∃ r, a.add b = .ok r) ↔ Fits (a.toInt + b.toInt) := by
  simp only [add_eq_ok_iff, exists_toInt_eq_iff]

theorem exists_sub_eq_ok_iff (a b : MoneyMicros) :
    (∃ r, a.sub b = .ok r) ↔ b.toInt ≠ -2 ^ 63 ∧ Fits (a.toInt - b.toInt) := by
  simp only [sub_eq_ok_iff, exists_and_left, exists_toInt_eq_iff]

end MoneyMicros
end CostGovernor
