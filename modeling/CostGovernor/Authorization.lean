import CostGovernor.CandidateOrder
import CostGovernor.CostStates
import CostGovernor.PricingErrors

/-!
# When a feasible plan is authorized

A decision needs more than one feasible candidate: every candidate of the list is
evaluated, and the percentages of every hard limit are taken. One feasible plan shows
that no hard budget throws on its own, so the evaluation of the others can throw only
while they are priced, and the AUTHORIZE branch only in the two products.
-/

namespace CostGovernor

open Executions IterationOrder RankOrder

def hardRoom (b : Budget) : Option ℤ := if b.mode = .hard then some b.room else none

namespace Governor

variable {g : Governor} {plan : ExecutionPlan} {econ : PlanEconomics}

/-- With budgets that do not throw, an evaluation throws only while it prices. -/
theorem exists_evaluatePlan_iff
    (h : ∀ b ∈ g.budgets.values, b.mode = .hard → b.HasRemaining) :
    (∃ e, g.evaluatePlan plan = .ok e) ↔ (g.PassesChecks plan → g.Payable plan) := by
  have hthrows := g.beforeBudgets_error_iff plan
  have hstages := g.evaluatePlan_stages plan
  revert hthrows hstages
  generalize g.beforeBudgets plan = before
  generalize g.evaluatePlan plan = result
  intro hthrows hstages
  cases hstages with
  | threw x =>
      obtain ⟨hchecks, hpayable⟩ := hthrows.mp ⟨x, rfl⟩
      exact iff_of_false (fun ⟨e, he⟩ => by cases he) fun himp => hpayable (himp hchecks)
  | early e _ _ =>
      refine iff_of_true ⟨e, rfl⟩ fun hchecks => ?_
      by_contra hpayable
      obtain ⟨x, hx⟩ := hthrows.mpr ⟨hchecks, hpayable⟩
      cases hx
  | reached bd hreached =>
      obtain ⟨o, ho⟩ := exists_firstExceeded bd.total h
      refine iff_of_true ⟨_, by rw [judgeBudgets, ho]; rfl⟩ fun _ => ?_
      exact payable_of_project hreached.projection

theorem FeasibleVerdict.affordableTotal (h : FeasibleVerdict g plan econ) :
    Affordable econ.projected.total g.budgets.values :=
  firstExceeded_eq_none_iff_affordable.mp h.budgets

theorem FeasibleVerdict.total_nonneg (h : FeasibleVerdict g plan econ) :
    0 ≤ econ.projected.total.toInt := by
  obtain ⟨_, htotal⟩ := project_total _ _ _ h.projection
  rw [htotal, List.map_singleton, List.sum_singleton]
  exact attemptCost_nonneg _ _ _ _

/-- The remaining amount a decision reports is that of the hard budget met first. -/
theorem exists_hardRemaining (h : ∀ b ∈ g.budgets.values, b.mode = .hard → b.HasRemaining) :
    ∃ r, g.hardRemaining = .ok r ∧ r.toInt = (g.budgets.values.findSome? hardRoom).getD 0 := by
  unfold hardRemaining firstHard
  revert h
  generalize g.budgets.values = bs
  intro h
  induction bs with
  | nil => exact ⟨⟨0⟩, rfl, rfl⟩
  | cons b bs ih =>
      obtain ⟨hb, hbs⟩ := List.forall_mem_cons.mp h
      rw [List.find?_cons, List.findSome?_cons, hardRoom]
      by_cases hmode : b.mode = .hard
      · obtain ⟨r, hr⟩ := Budget.exists_remaining_iff.mpr (hb hmode)
        simp only [hmode, decide_true, if_true]
        exact ⟨r, hr, (Budget.remaining_eq_ok_iff.mp hr).2⟩
      · simp only [hmode, decide_false, if_false]
        exact ih hbs

theorem FeasibleVerdict.exists_budgetAlternative (h : FeasibleVerdict g plan econ) :
    ∃ alternative, g.budgetAlternative econ = .ok alternative := by
  unfold budgetAlternative
  cases hfirst : g.firstHard with
  | none => exact ⟨_, rfl⟩
  | some b =>
      have hmem := List.mem_of_find?_eq_some hfirst
      have hmode : b.mode = .hard := by simpa using List.find?_some hfirst
      obtain ⟨hhas, hle⟩ := h.affordableTotal b hmem hmode
      obtain ⟨r, hr⟩ := Budget.exists_remaining_iff.mpr hhas
      have hroom := (Budget.remaining_eq_ok_iff.mp hr).2
      have hlt := r.toInt_lt
      have hnonneg := h.total_nonneg
      -- the difference lies between zero and the remaining amount
      obtain ⟨delta, hdelta⟩ := (MoneyMicros.exists_sub_eq_ok_iff r econ.projected.total).mpr
        ⟨by omega, by omega, by omega⟩
      dsimp only
      rw [hr]
      dsimp only [bind, Except.bind]
      rw [hdelta]
      exact ⟨_, rfl⟩

theorem FeasibleVerdict.passes (h : FeasibleVerdict g plan econ) {b : Budget}
    (hb : b ∈ g.budgets.values) (hcounted : b.Counted) (hfit : ThresholdsFit g.policy b) :
    Passes g.policy econ.projected.total b := by
  obtain ⟨hhas, hle⟩ := h.affordableTotal b hb hcounted.1
  exact ⟨hhas, hle, hfit⟩

/-- The state of a feasible projection is computed exactly when all percentages are. -/
theorem FeasibleVerdict.exists_state_iff (h : FeasibleVerdict g plan econ) :
    (∃ st, g.stateFromBreakdown econ.projected = .ok st) ↔
      ∀ b ∈ g.budgets.values, b.Counted → ThresholdsFit g.policy b := by
  constructor
  · rintro ⟨st, hst⟩ b hb hcounted
    rcases costStateFrom_cases hst with ⟨⟨c, hc, hcc, hover⟩, _⟩ | ⟨hpass, _⟩
    · have hle := (h.affordableTotal c hc hcc.1).2
      omega
    · exact (hpass b hb hcounted).thresholds
  · intro hfit
    exact ⟨_, costStateFrom_of_passes fun b hb hcounted =>
      h.passes hb hcounted (hfit b hb hcounted)⟩

/-- What an AUTHORIZE decision reports about its plan and the budgets. -/
structure Authorizes (g : Governor) (best : Candidate) (d : CostDecision) : Prop where
  kind : d.kind = .authorize
  selectedPlan : d.selectedPlan = best.plan.id
  projected : d.projected = best.econ.projected
  remainingBudget : d.remainingBudget.toInt = (g.budgets.values.findSome? hardRoom).getD 0
  state : d.state =
    lastWritten (mark g.policy best.econ.projected.total) .withinBudget g.budgets.values
  bindingConstraint : d.bindingConstraint = .none

section Decision

variable {best : Candidate} {workload : WorkloadId} {workloadGen : WorkloadGeneration}
  {plans : List ExecutionPlan} {candidates : List Candidate}

theorem exists_authorizeDecision (h : FeasibleVerdict g best.plan best.econ)
    (hfit : ∀ b ∈ g.budgets.values, b.Counted → ThresholdsFit g.policy b) :
    ∃ d, g.authorizeDecision workloadGen plans candidates best = .ok d ∧ g.Authorizes best d := by
  obtain ⟨r, hr, hroom⟩ := exists_hardRemaining fun b hb hard => (h.affordableTotal b hb hard).1
  have hstate : g.stateFromBreakdown best.econ.projected = .ok _ :=
    costStateFrom_of_passes fun b hb hcounted => h.passes hb hcounted (hfit b hb hcounted)
  obtain ⟨alternative, halternative⟩ := h.exists_budgetAlternative
  unfold authorizeDecision buildExplanation
  rw [hr, hstate, halternative]
  exact ⟨_, rfl, rfl, rfl, rfl, hroom, rfl, rfl⟩

theorem thresholdsFit_of_authorizeDecision (h : FeasibleVerdict g best.plan best.econ)
    {d : CostDecision} (hd : g.authorizeDecision workloadGen plans candidates best = .ok d) :
    ∀ b ∈ g.budgets.values, b.Counted → ThresholdsFit g.policy b := by
  unfold authorizeDecision at hd
  obtain ⟨_, _, hd⟩ := bind_eq_ok_iff.1 hd
  obtain ⟨state, hstate, _⟩ := bind_eq_ok_iff.1 hd
  exact h.exists_state_iff.mp ⟨state, hstate⟩

/-- The candidate an evaluation with a feasible plan decides on. -/
theorem exists_best (hplan : plan ∈ plans) (h : g.evaluatePlan plan = .ok econ)
    (hfeasible : econ.feasible = .feasible) :
    ∃ best rest, stableSort better ((plans.map g.candidateFor).filter isFeasible) =
      best :: rest := by
  cases hsort : stableSort better ((plans.map g.candidateFor).filter isFeasible) with
  | cons best rest => exact ⟨best, rest, rfl⟩
  | nil =>
      have hcandidate : g.candidateFor plan = ⟨plan, econ⟩ := by
        rw [candidateFor, h]
        rfl
      have hmem : (⟨plan, econ⟩ : Candidate) ∈ (plans.map g.candidateFor).filter isFeasible :=
        List.mem_filter.mpr ⟨hcandidate ▸ List.mem_map_of_mem hplan, decide_eq_true hfeasible⟩
      have hsorted := (mem_stableSort (r := better)).mpr hmem
      rw [hsort] at hsorted
      cases hsorted

theorem feasible_candidateFor (h : isFeasible (g.candidateFor plan) = true) :
    FeasibleVerdict g plan (g.candidateFor plan).econ := by
  have hfeasible := of_decide_eq_true h
  refine feasibleVerdict ?_ hfeasible
  rw [candidateFor] at hfeasible ⊢
  cases heval : g.evaluatePlan plan with
  | ok e => rfl
  | error x =>
      rw [heval] at hfeasible
      cases hfeasible

theorem feasible_best {rest : List Candidate}
    (hsort : stableSort better ((plans.map g.candidateFor).filter isFeasible) = best :: rest) :
    best.plan ∈ plans ∧ FeasibleVerdict g best.plan best.econ := by
  have hmem := (head_stableSort better_ranks hsort).1
  obtain ⟨hcandidate, hfeasible⟩ := List.mem_filter.mp hmem
  obtain ⟨p, hp, rfl⟩ := List.mem_map.mp hcandidate
  exact ⟨hp, feasible_candidateFor hfeasible⟩

/-- An evaluation that reaches its best candidate is the AUTHORIZE branch on it. -/
theorem evaluate_of_best {rest : List Candidate} (hrevalidated : g.revalidationNeeded = false)
    (hreturn : ∀ p ∈ plans, ∃ e, g.evaluatePlan p = .ok e)
    (hsort : stableSort better ((plans.map g.candidateFor).filter isFeasible) = best :: rest) :
    g.evaluate workload workloadGen plans =
      g.authorizeDecision workloadGen plans (plans.map g.candidateFor) best := by
  have hne : plans.isEmpty = false :=
    List.isEmpty_eq_false_iff.mpr (List.ne_nil_of_mem (feasible_best hsort).1)
  unfold evaluate
  rw [hrevalidated, if_neg Bool.false_ne_true, hne, if_neg Bool.false_ne_true,
    (g.candidatesOf_eq_ok_iff plans _).mpr ⟨hreturn, rfl⟩]
  dsimp only [bind, Except.bind]
  rw [hsort]

theorem exists_evaluate {rest : List Candidate} (hrevalidated : g.revalidationNeeded = false)
    (hpayable : ∀ p ∈ plans, g.PassesChecks p → g.Payable p)
    (hfit : ∀ b ∈ g.budgets.values, b.Counted → ThresholdsFit g.policy b)
    (hsort : stableSort better ((plans.map g.candidateFor).filter isFeasible) = best :: rest) :
    ∃ d, g.evaluate workload workloadGen plans = .ok d ∧ g.Authorizes best d := by
  have hverdict := (feasible_best hsort).2
  have hreturn : ∀ p ∈ plans, ∃ e, g.evaluatePlan p = .ok e := fun p hp =>
    (exists_evaluatePlan_iff fun b hb hard => (hverdict.affordableTotal b hb hard).1).mpr
      (hpayable p hp)
  rw [evaluate_of_best hrevalidated hreturn hsort]
  exact exists_authorizeDecision hverdict hfit

/-- A returned evaluation with a feasible plan has evaluated every plan and taken the
AUTHORIZE branch. -/
theorem decided_of_feasible (hrevalidated : g.revalidationNeeded = false) (hplan : plan ∈ plans)
    (h : g.evaluatePlan plan = .ok econ) (hfeasible : econ.feasible = .feasible)
    {d : CostDecision} (hd : g.evaluate workload workloadGen plans = .ok d) :
    (∀ p ∈ plans, ∃ e, g.evaluatePlan p = .ok e) ∧
      ∀ b ∈ g.budgets.values, b.Counted → ThresholdsFit g.policy b := by
  obtain ⟨best, rest, hsort⟩ := exists_best hplan h hfeasible
  have hreturn : ∀ p ∈ plans, ∃ e, g.evaluatePlan p = .ok e := by
    unfold evaluate at hd
    rw [hrevalidated, if_neg Bool.false_ne_true, List.isEmpty_eq_false_iff.mpr
      (List.ne_nil_of_mem hplan), if_neg Bool.false_ne_true] at hd
    obtain ⟨candidates, hcandidates, _⟩ := bind_eq_ok_iff.1 hd
    exact ((g.candidatesOf_eq_ok_iff plans candidates).mp hcandidates).1
  rw [evaluate_of_best hrevalidated hreturn hsort] at hd
  exact ⟨hreturn, thresholdsFit_of_authorizeDecision (feasible_best hsort).2 hd⟩

end Decision

end Governor

open Governor

/-- With a feasible candidate and no revalidation pending, the evaluation authorizes
exactly when every candidate that gets as far can be priced and the percentages of every
hard limit are money values. -/
theorem feasible_plan_is_authorized_iff (g : Governor) (workload : WorkloadId)
    (workloadGen : WorkloadGeneration) (plans : List ExecutionPlan) (plan : ExecutionPlan)
    (econ : PlanEconomics) (hrevalidated : g.revalidationNeeded = false) (hplan : plan ∈ plans)
    (h : g.evaluatePlan plan = .ok econ) (hfeasible : econ.feasible = .feasible) :
    (∃ d, g.evaluate workload workloadGen plans = .ok d ∧ d.kind = .authorize) ↔
      (∀ p ∈ plans, g.PassesChecks p → g.Payable p) ∧
        ∀ b ∈ g.budgets.values, b.Counted → ThresholdsFit g.policy b := by
  have hbudgets : ∀ b ∈ g.budgets.values, b.mode = .hard → b.HasRemaining := fun b hb hard =>
    ((feasibleVerdict h hfeasible).affordableTotal b hb hard).1
  constructor
  · rintro ⟨d, hd, _⟩
    obtain ⟨hreturn, hfit⟩ := decided_of_feasible hrevalidated hplan h hfeasible hd
    exact ⟨fun p hp => (exists_evaluatePlan_iff hbudgets).mp (hreturn p hp), hfit⟩
  · rintro ⟨hpayable, hfit⟩
    obtain ⟨best, rest, hsort⟩ := exists_best hplan h hfeasible
    obtain ⟨d, hd, hauthorizes⟩ := exists_evaluate hrevalidated hpayable hfit hsort
    exact ⟨d, hd, hauthorizes.kind⟩

theorem feasible_plan_is_authorized_iff_rivalPlans :
    (∃ d, pricedGovernor.evaluate ⟨1⟩ ⟨1⟩ rivalPlans = .ok d ∧ d.kind = .authorize) ∧
      (∀ p ∈ rivalPlans, pricedGovernor.PassesChecks p → pricedGovernor.Payable p) ∧
        ∀ b ∈ pricedGovernor.budgets.values, b.Counted → ThresholdsFit pricedGovernor.policy b := by
  have hauthorized : ∃ d, pricedGovernor.evaluate ⟨1⟩ ⟨1⟩ rivalPlans = .ok d ∧
      d.kind = .authorize := ⟨_, rfl, rfl⟩
  exact ⟨hauthorized, (feasible_plan_is_authorized_iff pricedGovernor ⟨1⟩ ⟨1⟩ rivalPlans
    { id := ⟨2⟩, expectedAcceleratorTime := 2000000000 } _ rfl (by decide) rfl rfl).1 hauthorized⟩

def negativeRival : List ExecutionPlan :=
  [{ id := ⟨1⟩, expectedAcceleratorTime := 2000000000 },
    { id := ⟨2⟩, expectedAcceleratorTime := -1 }]

/-- The first plan is FEASIBLE, but no evaluation of the two returns. -/
theorem negative_rival_blocks_decisions :
    pricedGovernor.revalidationNeeded = false ∧
      (∃ plan ∈ negativeRival, ∃ econ, pricedGovernor.evaluatePlan plan = .ok econ ∧
        econ.feasible = .feasible) ∧
      ¬ ∃ d, pricedGovernor.evaluate ⟨1⟩ ⟨1⟩ negativeRival = .ok d ∧ d.kind = .authorize := by
  refine ⟨rfl, ⟨_, List.mem_cons_self, _, rfl, rfl⟩, ?_⟩
  rintro ⟨d, hd, -⟩
  have hthrows : pricedGovernor.evaluate ⟨1⟩ ⟨1⟩ negativeRival =
      .error (.statusError .invalidInput "ceil_mul_div requires non-negative inputs") := rfl
  rw [hthrows] at hd
  cases hd

end CostGovernor
