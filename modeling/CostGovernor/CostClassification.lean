import CostGovernor.BudgetRoom
import CostGovernor.CheckedArithmetic
import CostGovernor.IterationOrder
import CostGovernor.SettlementCases

/-!
# How a budget classifies a total

The state of a projection is computed by one pass over the budgets. What one step of it
does is the classification of a single budget, as long as the percentages of its limit are
money values.
-/

namespace CostGovernor

open Executions IterationOrder

namespace Budget

def Counted (b : Budget) : Prop := b.mode = .hard ∧ b.limit.isZero = false

instance (b : Budget) : Decidable b.Counted := inferInstanceAs (Decidable (_ ∧ _))

def threshold (b : Budget) (percent : Int64) : ℤ := ⌈((b.limit.toInt * percent.toInt : ℤ) : ℚ) / 100⌉

end Budget

/-- Where a total puts one budget, over exact numbers. -/
def classification (policy : CostPolicy) (total : MoneyMicros) (b : Budget) : CostState :=
  if b.room < total.toInt then .overHardBudget
  else if b.threshold policy.atRiskPercent ≤ total.toInt then .atRisk
  else if b.threshold policy.nearBudgetPercent ≤ total.toInt then .nearBudget
  else .withinBudget

def ThresholdsFit (policy : CostPolicy) (b : Budget) : Prop :=
  MoneyMicros.Fits (b.limit.toInt * policy.nearBudgetPercent.toInt) ∧
    MoneyMicros.Fits (b.limit.toInt * policy.atRiskPercent.toInt)

/-- What a counted budget that can take the total writes into the state. -/
def mark (policy : CostPolicy) (total : MoneyMicros) (b : Budget) : Option CostState :=
  if b.Counted ∧ classification policy total b ≠ .withinBudget then
    some (classification policy total b)
  else none

/-- The pass goes over the budget without ending or throwing. -/
structure Passes (policy : CostPolicy) (total : MoneyMicros) (b : Budget) : Prop where
  hasRemaining : b.HasRemaining
  takes : total.toInt ≤ b.room
  thresholds : ThresholdsFit policy b

section Pass

variable {policy : CostPolicy} {total : MoneyMicros} {b : Budget} {st : CostState}

theorem mark_of_not_counted (h : ¬ b.Counted) : mark policy total b = none :=
  if_neg fun hc => h hc.1

theorem mark_eq_some_iff {s : CostState} :
    mark policy total b = some s ↔
      b.Counted ∧ s ≠ .withinBudget ∧ classification policy total b = s := by
  unfold mark
  split_ifs with h
  · constructor
    · rintro ⟨rfl⟩
      exact ⟨h.1, h.2, rfl⟩
    · rintro ⟨_, _, rfl⟩
      rfl
  · constructor
    · intro hnone
      cases hnone
    · rintro ⟨hc, hne, rfl⟩
      exact absurd ⟨hc, hne⟩ h

/-- The mark of a budget that can take the total, as the pass computes it. -/
theorem getD_mark (hcounted : b.Counted) (htakes : total.toInt ≤ b.room) :
    (mark policy total b).getD st =
      if b.threshold policy.atRiskPercent ≤ total.toInt then .atRisk
      else if b.threshold policy.nearBudgetPercent ≤ total.toInt then .nearBudget
      else st := by
  unfold mark classification
  rw [if_neg (not_lt.mpr htakes)]
  split_ifs <;> simp_all

theorem threshold_of_percent {percent : Int64} {p r : MoneyMicros}
    (hp : b.limit.checkedMul percent = .ok p) (hr : p.checkedDiv 100 .ceil = .ok r) :
    MoneyMicros.Fits (b.limit.toInt * percent.toInt) ∧ r.toInt = b.threshold percent := by
  rw [MoneyMicros.checkedDiv_ceil_eq_ok_iff _ _ (by decide),
    (MoneyMicros.checkedMul_eq_ok_iff ..).mp hp] at hr
  exact ⟨(MoneyMicros.exists_checkedMul_eq_ok_iff ..).mp ⟨p, hp⟩, hr⟩

theorem exists_percent {percent : Int64}
    (h : MoneyMicros.Fits (b.limit.toInt * percent.toInt)) :
    ∃ p r, b.limit.checkedMul percent = .ok p ∧ p.checkedDiv 100 .ceil = .ok r ∧
      r.toInt = b.threshold percent := by
  obtain ⟨p, hp⟩ := (MoneyMicros.exists_checkedMul_eq_ok_iff ..).mpr h
  obtain ⟨r, hr, _⟩ := p.exists_checkedDiv_ceil (d := 100) (by decide)
  exact ⟨p, r, hp, hr, (threshold_of_percent hp hr).2⟩

end Pass

namespace Governor

section Pass

variable {policy : CostPolicy} {total : MoneyMicros} {b : Budget} {bs : List Budget}
  {st r : CostState}

theorem costStateStep_not_counted (h : ¬ b.Counted) :
    costStateStep policy total b st = .ok (some st) := by
  refine if_pos ?_
  simpa [Budget.Counted, imp_iff_not_or] using h

/-- A step that returns has met a budget that cannot take the total, or has passed the
budget and taken over its mark. -/
theorem costStateStep_cases {o : Option CostState}
    (h : costStateStep policy total b st = .ok o) :
    (b.Counted ∧ b.room < total.toInt) ∧ o = none ∨
      (b.Counted → Passes policy total b) ∧ o = some ((mark policy total b).getD st) := by
  by_cases hcounted : b.Counted
  swap
  · rw [costStateStep_not_counted hcounted] at h
    rw [mark_of_not_counted hcounted, ← Except.ok.inj h]
    exact .inr ⟨fun hc => absurd hc hcounted, rfl⟩
  unfold costStateStep at h
  rw [if_neg (by simpa [Budget.Counted, and_imp] using hcounted)] at h
  obtain ⟨remaining, hremaining, h⟩ := bind_eq_ok_iff.1 h
  obtain ⟨hhas, hroom⟩ := Budget.remaining_eq_ok_iff.mp hremaining
  split_ifs at h with hover
  · rw [MoneyMicros.lt_iff_toInt_lt, hroom] at hover
    exact .inl ⟨⟨hcounted, hover⟩, (Except.ok.inj h).symm⟩
  · rw [MoneyMicros.lt_iff_toInt_lt, hroom, not_lt] at hover
    obtain ⟨nearProduct, hnearProduct, h⟩ := bind_eq_ok_iff.1 h
    obtain ⟨near, hnear, h⟩ := bind_eq_ok_iff.1 h
    obtain ⟨riskProduct, hriskProduct, h⟩ := bind_eq_ok_iff.1 h
    obtain ⟨atRisk, hatRisk, h⟩ := bind_eq_ok_iff.1 h
    obtain ⟨hnearFits, hnearEq⟩ := threshold_of_percent hnearProduct hnear
    obtain ⟨hriskFits, hriskEq⟩ := threshold_of_percent hriskProduct hatRisk
    refine .inr ⟨fun _ => ⟨hhas, hover, hnearFits, hriskFits⟩, ?_⟩
    rw [getD_mark hcounted hover, ← hnearEq, ← hriskEq]
    simp only [MoneyMicros.le_iff_toInt_le] at h
    split_ifs at h ⊢ <;> exact (Except.ok.inj h).symm

theorem costStateStep_of_passes (h : b.Counted → Passes policy total b) :
    costStateStep policy total b st = .ok (some ((mark policy total b).getD st)) := by
  by_cases hcounted : b.Counted
  swap
  · rw [costStateStep_not_counted hcounted, mark_of_not_counted hcounted]
    rfl
  obtain ⟨hhas, htakes, hnear, hrisk⟩ := h hcounted
  obtain ⟨remaining, hremaining⟩ := Budget.exists_remaining_iff.mpr hhas
  have hroom := (Budget.remaining_eq_ok_iff.mp hremaining).2
  obtain ⟨nearProduct, near, hnearProduct, hnear, hnearEq⟩ := exists_percent hnear
  obtain ⟨riskProduct, atRisk, hriskProduct, hatRisk, hriskEq⟩ := exists_percent hrisk
  unfold costStateStep
  rw [if_neg (by simpa [Budget.Counted, and_imp] using hcounted), hremaining]
  dsimp only [bind, Except.bind]
  rw [if_neg (by rw [MoneyMicros.lt_iff_toInt_lt, hroom]; exact not_lt.mpr htakes), hnearProduct]
  dsimp only
  rw [hnear]
  dsimp only
  rw [hriskProduct]
  dsimp only
  rw [hatRisk]
  dsimp only
  rw [getD_mark hcounted htakes, ← hnearEq, ← hriskEq]
  simp only [MoneyMicros.le_iff_toInt_le]
  split_ifs <;> rfl

/-- A pass that returns ended at a budget that cannot take the total, or went over all of
them and left the last mark. -/
theorem costStateFrom_cases (h : costStateFrom policy total st bs = .ok r) :
    (∃ b ∈ bs, b.Counted ∧ b.room < total.toInt) ∧ r = .overHardBudget ∨
      (∀ b ∈ bs, b.Counted → Passes policy total b) ∧ r = lastWritten (mark policy total) st bs := by
  induction bs generalizing st with
  | nil => exact .inr ⟨by simp, (Except.ok.inj h).symm⟩
  | cons b bs ih =>
      obtain ⟨o, ho, h⟩ := bind_eq_ok_iff.1 h
      rcases costStateStep_cases ho with ⟨hover, rfl⟩ | ⟨hpass, rfl⟩
      · exact .inl ⟨⟨b, List.mem_cons_self, hover⟩, (Except.ok.inj h).symm⟩
      · rcases ih h with ⟨⟨c, hc, hover⟩, hr⟩ | ⟨hrest, hr⟩
        · exact .inl ⟨⟨c, List.mem_cons_of_mem _ hc, hover⟩, hr⟩
        · exact .inr ⟨List.forall_mem_cons.mpr ⟨hpass, hrest⟩, hr⟩

theorem costStateFrom_of_passes (h : ∀ b ∈ bs, b.Counted → Passes policy total b) :
    costStateFrom policy total st bs = .ok (lastWritten (mark policy total) st bs) := by
  induction bs generalizing st with
  | nil => rfl
  | cons b bs ih =>
      obtain ⟨hpass, hrest⟩ := List.forall_mem_cons.mp h
      rw [costStateFrom, costStateStep_of_passes hpass]
      exact ih hrest

end Pass

end Governor

end CostGovernor
