import CostGovernor.Feasibility

/-!
# What the budgets decide

Only the last loop of a plan's evaluation reads the budgets. `beforeBudgets` is the part
in front of it: it throws, settles the verdict on its own or hands a projection to the
loop, which turns that into FEASIBLE, INFEASIBLE or an exception.
-/

namespace CostGovernor

open Executions

namespace Governor

/-- The evaluation of a plan up to the budget loop: a verdict without the budgets, or the
projection they have to take. -/
def beforeBudgets (g : Governor) (plan : ExecutionPlan) :
    Except Exn (PlanEconomics ⊕ CostBreakdown) :=
  if plan.label = .unsupported then
    .ok (.inl { feasible := .unknown, reason := .unknownCostComponent })
  else if !plan.meetsHardSlo then .ok (.inl { feasible := .infeasible, reason := .sloConflict })
  else if g.revalidationNeeded then
    .ok (.inl { feasible := .revalidationRequired, reason := .stalePrice })
  else
    match g.priceVerdict plan checkedComponents with
    | some v => .ok (.inl { feasible := v.1, reason := v.2 })
    | none =>
      match project g.schedule g.policy.currency g.now [planToEvidence plan] with
      | .error (.statusError .missingPrice _) =>
        .ok (.inl { feasible := .insufficientEvidence, reason := .missingPrice })
      | .error e => .error e
      | .ok bd => .ok (.inr bd)

def economicsOf (plan : ExecutionPlan) (bd : CostBreakdown) : PlanEconomics :=
  { projected := bd
    projectedPerRequest := (perUnit bd.total plan.expectedRequests).toOption.getD ⟨0⟩
    projectedPerToken := (perUnit bd.total plan.expectedTokens).toOption.getD ⟨0⟩
    perTokenValid := decide (0 < plan.expectedTokens) }

def budgetVerdict (e : PlanEconomics) : Option Budget → PlanEconomics
  | some b => { e with feasible := .infeasible, reason := exceededReason b }
  | none => { e with feasible := .feasible }

def judgeBudgets (plan : ExecutionPlan) (bd : CostBreakdown) (bs : List Budget) :
    Except Exn PlanEconomics :=
  (firstExceeded bd.total bs).map (budgetVerdict (economicsOf plan bd))

theorem judgeProjection_eq {plan : ExecutionPlan} {bd : CostBreakdown} (h : bd.anyUnknown = false)
    (g : Governor) : g.judgeProjection plan bd = judgeBudgets plan bd g.budgets.values := by
  obtain ⟨perRequest, hrequest⟩ := exists_perUnit bd.total plan.expectedRequests
  obtain ⟨perToken, htoken⟩ := exists_perUnit bd.total plan.expectedTokens
  unfold judgeProjection judgeBudgets economicsOf
  rw [h, if_neg Bool.false_ne_true, hrequest, htoken]
  dsimp only [bind, Except.bind]
  cases firstExceeded bd.total g.budgets.values with
  | error e => rfl
  | ok exceeded => cases exceeded <;> rfl

structure ReachesBudgets (g : Governor) (plan : ExecutionPlan) (bd : CostBreakdown) : Prop where
  supported : plan.label ≠ .unsupported
  meetsSlo : plan.meetsHardSlo = true
  revalidated : g.revalidationNeeded = false
  prices : g.priceVerdict plan checkedComponents = none
  projection : project g.schedule g.policy.currency g.now [planToEvidence plan] = .ok bd

def earlyReasons : List FeasibilityReason :=
  [.unknownCostComponent, .sloConflict, .stalePrice, .missingPrice]

section Stages

variable {g : Governor} {plan : ExecutionPlan} {bd : CostBreakdown}

theorem ReachesBudgets.anyUnknown (h : ReachesBudgets g plan bd) : bd.anyUnknown = false := by
  rw [project_anyUnknown h.projection]
  simpa [planToEvidence] using h.supported

theorem ReachesBudgets.beforeBudgets_eq (h : ReachesBudgets g plan bd) :
    g.beforeBudgets plan = .ok (.inr bd) := by
  unfold beforeBudgets
  rw [if_neg h.supported, h.meetsSlo, if_neg (by decide), h.revalidated,
    if_neg Bool.false_ne_true, h.prices]
  dsimp only
  rw [h.projection]

theorem ReachesBudgets.evaluatePlan_eq (h : ReachesBudgets g plan bd) :
    g.evaluatePlan plan = judgeBudgets plan bd g.budgets.values := by
  unfold evaluatePlan evaluatePlanLocked
  rw [if_neg h.supported, h.meetsSlo, if_neg (by decide), h.revalidated,
    if_neg Bool.false_ne_true, h.prices]
  dsimp only
  rw [h.projection]
  exact judgeProjection_eq h.anyUnknown g

theorem FeasibleVerdict.reaches {e : PlanEconomics} (h : FeasibleVerdict g plan e) :
    ReachesBudgets g plan e.projected :=
  ⟨h.supported, h.meetsSlo, h.revalidated, h.prices, h.projection⟩

theorem priceVerdict_early {cs : List CostComponent} {v : Feasibility × FeasibilityReason}
    (h : g.priceVerdict plan cs = some v) : v.2 ∈ earlyReasons := by
  induction cs with
  | nil => cases h
  | cons c cs ih =>
      rw [priceVerdict_cons] at h
      split_ifs at h
      · exact ih h
      · rw [← Option.some.inj h]
        decide
      · rw [← Option.some.inj h]
        decide
      · exact ih h

/-- How the evaluation of a plan ends: an exception or a verdict in front of the budget
loop, or the loop. -/
inductive StageCase (g : Governor) (plan : ExecutionPlan) :
    Except Exn (PlanEconomics ⊕ CostBreakdown) → Except Exn PlanEconomics → Prop
  | threw (x : Exn) : StageCase g plan (.error x) (.error x)
  | early (e : PlanEconomics) (hfeasible : e.feasible ≠ .feasible)
      (hreason : e.reason ∈ earlyReasons) : StageCase g plan (.ok (.inl e)) (.ok e)
  | reached (bd : CostBreakdown) (h : ReachesBudgets g plan bd) :
      StageCase g plan (.ok (.inr bd)) (judgeBudgets plan bd g.budgets.values)

theorem evaluatePlan_stages (g : Governor) (plan : ExecutionPlan) :
    StageCase g plan (g.beforeBudgets plan) (g.evaluatePlan plan) := by
  by_cases hreached : ∃ bd, ReachesBudgets g plan bd
  · obtain ⟨bd, h⟩ := hreached
    rw [h.beforeBudgets_eq, h.evaluatePlan_eq]
    exact .reached bd h
  unfold beforeBudgets evaluatePlan evaluatePlanLocked
  split_ifs with hlabel hslo hreval
  · exact .early _ (by decide) (by decide)
  · exact .early _ (by decide) (by decide)
  · exact .early _ (by decide) (by decide)
  · cases hprices : g.priceVerdict plan checkedComponents with
    | some v => exact .early _ (priceVerdict_not_feasible hprices) (priceVerdict_early hprices)
    | none =>
        cases hproject : project g.schedule g.policy.currency g.now [planToEvidence plan] with
        | ok bd =>
            exact absurd
              ⟨bd, hlabel, by simpa using hslo, by simpa using hreval, hprices, hproject⟩ hreached
        | error x =>
            cases x with
            | overflowError what => exact .threw _
            | domainError what => exact .threw _
            | statusError status what =>
                cases status with
                | missingPrice =>
                    exact .early { feasible := .insufficientEvidence, reason := .missingPrice }
                      (by decide) (by decide)
                | _ => exact .threw _

end Stages

def withBudgets (g : Governor) (m : HashedMap BudgetId Budget) : Governor := { g with budgets := m }

theorem ReachesBudgets.withBudgets {g : Governor} {plan : ExecutionPlan} {bd : CostBreakdown}
    (h : ReachesBudgets g plan bd) (m : HashedMap BudgetId Budget) :
    ReachesBudgets (g.withBudgets m) plan bd :=
  ⟨h.supported, h.meetsSlo, h.revalidated, h.prices, h.projection⟩

theorem beforeBudgets_withBudgets (g : Governor) (m : HashedMap BudgetId Budget)
    (plan : ExecutionPlan) : (g.withBudgets m).beforeBudgets plan = g.beforeBudgets plan := rfl

end Governor

end CostGovernor
