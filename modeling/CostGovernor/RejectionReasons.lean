import CostGovernor.SettlementCases
import CostGovernor.BudgetRoom
import CostGovernor.Verdicts

/-!
# What a rejection reason says

Budgets on energy and on transfer have reasons of their own. The loop compares the total
with every hard budget, so such a budget also rejects a plan whose own component it
could take, and the reason then names a component that was not the cause.
-/

namespace CostGovernor

open Executions

def BudgetObjective.component : BudgetObjective → Option CostComponent
  | .maxEnergyCost => some .energy
  | .maxTransferCost => some .transfer
  | _ => none

def FeasibilityReason.component : FeasibilityReason → Option CostComponent
  | .energyTooExpensive => some .energy
  | .transferTooExpensive => some .transfer
  | _ => Option.none

def Budget.ExceededBy (b : Budget) (e : PlanEconomics) (c : CostComponent) : Prop :=
  ∃ r, b.remaining = .ok r ∧ r < knownValue e c

namespace Governor

/-- The plan is FEASIBLE without budgets and INFEASIBLE with this one alone. -/
def RejectedBy (g : Governor) (plan : ExecutionPlan) (b : Budget) (e : PlanEconomics) : Prop :=
  (g.withBudgets .empty).evaluatePlan plan = .ok e ∧ e.feasible = .feasible ∧
    ∃ e', (g.withBudgets (HashedMap.empty.set b.id b)).evaluatePlan plan = .ok e' ∧
      e'.feasible = .infeasible

/-- A reason that blames a component is given, and a budget on a component rejects, only
when that component exceeds what such a budget leaves. -/
structure NamesCause (g : Governor) (plan : ExecutionPlan) : Prop where
  reported : ∀ e c, g.evaluatePlan plan = .ok e → e.feasible = .infeasible →
    e.reason.component = some c →
    ∃ b ∈ g.budgets.values, b.mode = .hard ∧ b.objective.component = some c ∧ b.ExceededBy e c
  responsible : ∀ b ∈ g.budgets.values, b.mode = .hard → ∀ c, b.objective.component = some c →
    ∀ e, g.RejectedBy plan b e → b.ExceededBy e c

variable {g : Governor} {plan : ExecutionPlan} {bd : CostBreakdown}

theorem component_exceededReason (b : Budget) :
    (exceededReason b).component = b.objective.component := by
  unfold exceededReason
  cases b.objective <;> rfl

theorem exceededBy_iff {b : Budget} {e : PlanEconomics} {c : CostComponent} :
    b.ExceededBy e c ↔ b.HasRemaining ∧ b.room < (knownValue e c).toInt := by
  constructor
  · rintro ⟨r, hr, hlt⟩
    obtain ⟨hhas, hroom⟩ := Budget.remaining_eq_ok_iff.mp hr
    exact ⟨hhas, hroom ▸ hlt⟩
  · rintro ⟨hhas, hlt⟩
    obtain ⟨r, hr⟩ := Budget.exists_remaining_iff.mpr hhas
    refine ⟨r, hr, ?_⟩
    rwa [MoneyMicros.lt_iff_toInt_lt, (Budget.remaining_eq_ok_iff.mp hr).2]

theorem component_early {r : FeasibilityReason} (h : r ∈ earlyReasons) :
    r.component = Option.none := by
  revert h
  cases r <;> decide

/-- A loop that ends INFEASIBLE has met a budget the total exceeds. -/
theorem exceeded_of_judgeBudgets {bs : List Budget} {e : PlanEconomics}
    (h : judgeBudgets plan bd bs = .ok e) (hinfeasible : e.feasible = .infeasible) :
    e.projected = bd ∧ ∃ b ∈ bs, b.mode = .hard ∧ b.HasRemaining ∧ b.room < bd.total.toInt ∧
      e.reason = exceededReason b := by
  unfold judgeBudgets at h
  cases hfirst : firstExceeded bd.total bs with
  | error x =>
      rw [hfirst] at h
      cases h
  | ok exceeded =>
      rw [hfirst] at h
      cases h
      cases exceeded with
      | none => cases hinfeasible
      | some b =>
          obtain ⟨hb, hmode, hhas, hover⟩ := exceeded_of_firstExceeded hfirst
          exact ⟨rfl, b, hb, hmode, hhas, hover, rfl⟩

theorem ReachesBudgets.rejectedBy (h : ReachesBudgets g plan bd) {b : Budget}
    (hmode : b.mode = .hard) (hhas : b.HasRemaining) (hover : b.room < bd.total.toInt) :
    g.RejectedBy plan b (budgetVerdict (economicsOf plan bd) none) := by
  have hexceeded : firstExceeded bd.total [b] = .ok (some b) := by
    rw [firstExceeded_eq_some_iff, List.findSome?_cons,
      halt_eq_exceeded_iff.mpr ⟨rfl, hmode, hhas, hover⟩]
  refine ⟨(h.withBudgets .empty).evaluatePlan_eq, rfl,
    budgetVerdict (economicsOf plan bd) (some b), ?_, rfl⟩
  rw [(h.withBudgets (HashedMap.empty.set b.id b)).evaluatePlan_eq]
  change judgeBudgets plan bd [b] = _
  rw [judgeBudgets, hexceeded]
  rfl

theorem RejectedBy.reaches {b : Budget} {e : PlanEconomics} (h : g.RejectedBy plan b e) :
    ReachesBudgets g plan e.projected ∧ b.HasRemaining ∧ b.room < e.projected.total.toInt := by
  obtain ⟨he, hfeasible, e', he', hinfeasible⟩ := h
  have hreaches : ReachesBudgets g plan e.projected :=
    (feasibleVerdict he hfeasible).reaches.withBudgets g.budgets
  rw [(hreaches.withBudgets (HashedMap.empty.set b.id b)).evaluatePlan_eq] at he'
  obtain ⟨_, c, hc, _, hhas, hover, _⟩ := exceeded_of_judgeBudgets he' hinfeasible
  cases List.mem_singleton.mp (show c ∈ [b] from hc)
  exact ⟨hreaches, hhas, hover⟩

end Governor

open Governor

/-- The reasons name the real cause exactly when no hard budget on a component lies between
that component and the total of the plan's projection. -/
theorem rejection_reason_names_cause_iff (g : Governor) (plan : ExecutionPlan) :
    g.NamesCause plan ↔
      ∀ bd, ReachesBudgets g plan bd → ∀ b ∈ g.budgets.values, b.mode = .hard → b.HasRemaining →
        ∀ c, b.objective.component = some c →
          bd.total.toInt ≤ b.room ∨ b.room < (knownValue (economicsOf plan bd) c).toInt := by
  constructor
  · intro hcause bd hreaches b hb hmode hhas c hc
    by_cases hover : b.room < bd.total.toInt
    · exact .inr (exceededBy_iff.mp
        (hcause.responsible b hb hmode c hc _ (hreaches.rejectedBy hmode hhas hover))).2
    · exact .inl (not_lt.mp hover)
  · intro hbetween
    have hexceeds : ∀ e, ReachesBudgets g plan e.projected → ∀ b ∈ g.budgets.values,
        b.mode = .hard → b.HasRemaining → b.room < e.projected.total.toInt →
        ∀ c, b.objective.component = some c → b.ExceededBy e c := by
      intro e hreaches b hb hmode hhas hover c hc
      refine exceededBy_iff.mpr ⟨hhas, ?_⟩
      exact (hbetween _ hreaches b hb hmode hhas c hc).resolve_left (not_le.mpr hover)
    refine ⟨fun e c he hinfeasible hreason => ?_, fun b hb hmode c hc e hrejected => ?_⟩
    · have hstages := g.evaluatePlan_stages plan
      revert he hstages
      generalize g.beforeBudgets plan = before
      generalize g.evaluatePlan plan = result
      intro he hstages
      cases hstages with
      | threw x => cases he
      | early _ _ hearly =>
          cases he
          rw [component_early hearly] at hreason
          cases hreason
      | reached bd hreaches =>
          obtain ⟨rfl, b, hb, hmode, hhas, hover, hexceeded⟩ :=
            exceeded_of_judgeBudgets he hinfeasible
          rw [hexceeded, component_exceededReason] at hreason
          exact ⟨b, hb, hmode, hreason, hexceeds e hreaches b hb hmode hhas hover c hreason⟩
    · obtain ⟨hreaches, hhas, hover⟩ := hrejected.reaches
      exact hexceeds e hreaches b hb hmode hhas hover c hc

def energyCapped : Governor :=
  ((fresh 0).setPriceSchedule { observations := [{ id := ⟨1⟩, amount := ⟨3⟩ }] }).createBudget
    { hardBudget 1 10 with objective := .maxEnergyCost } |>.2

/-- Four seconds of accelerator time exceed the energy budget without using any energy. -/
theorem energy_blamed_for_accelerator_time :
    (∃ e, energyCapped.evaluatePlan { id := ⟨1⟩, expectedAcceleratorTime := 4000000000 } = .ok e ∧
      e.feasible = .infeasible ∧ e.reason = .energyTooExpensive ∧ knownValue e .energy = ⟨0⟩) ∧
      ¬ energyCapped.NamesCause { id := ⟨1⟩, expectedAcceleratorTime := 4000000000 } := by
  refine ⟨⟨_, rfl, rfl, rfl, rfl⟩, fun hcause => ?_⟩
  obtain ⟨b, hb, _, _, r, hr, hlt⟩ := hcause.reported _ .energy rfl rfl rfl
  cases List.mem_singleton.mp (show b ∈ [_] from hb)
  cases hr
  exact absurd hlt (by decide)

end CostGovernor
