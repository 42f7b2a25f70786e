import CostGovernor.PlanSelection

/-!
# Validation before dispatch

`validateForDispatch` judges an earlier decision against the current state.
`Approval` lists what an OK for an AUTHORIZE decision has been through: the four
generations of its authority are current, and the first candidate with the
selected identity is FEASIBLE. Nothing is asked of the other decisions, and the
generations of the candidate itself are not compared.
-/

namespace CostGovernor

open Executions RankOrder

namespace Governor

def ReportsFeasible (g : Governor) (plan : ExecutionPlan) : Prop :=
  ∃ econ, g.evaluatePlan plan = .ok econ ∧ econ.feasible = .feasible

structure AuthorityCurrent (g : Governor) (prior : CostDecision) : Prop where
  epoch : prior.authority.epoch = g.epoch
  policy : prior.authority.policyGeneration = g.policy.generation
  price : prior.authority.priceGeneration = g.schedule.generation
  boot : prior.authority.boot = g.currentBootFor prior.authority.worker

def matchedPlan (prior : CostDecision) (plans : List ExecutionPlan) : Option ExecutionPlan :=
  plans.find? (fun plan => plan.id = prior.selectedPlan)

theorem matchedPlan_some {prior : CostDecision} {plans : List ExecutionPlan} {plan : ExecutionPlan}
    (h : matchedPlan prior plans = some plan) : plan ∈ plans ∧ plan.id = prior.selectedPlan := by
  unfold matchedPlan at h
  exact ⟨List.mem_of_find?_eq_some h, by simpa using List.find?_some h⟩

/-- Everything an OK for an AUTHORIZE decision has been through. -/
structure Approval (g : Governor) (prior : CostDecision) (plans : List ExecutionPlan)
    (plan : ExecutionPlan) : Prop where
  current : AuthorityCurrent g prior
  matched : matchedPlan prior plans = some plan
  feasible : g.ReportsFeasible plan

/-- The checks after the fences, on the matched candidate. -/
theorem validateForDispatch_of_current {g : Governor} {prior : CostDecision}
    {plans : List ExecutionPlan} (hkind : prior.kind = .authorize)
    (hcurrent : AuthorityCurrent g prior) (hvalid : g.revalidationNeeded = false)
    {plan : ExecutionPlan} (hmatched : matchedPlan prior plans = some plan) :
    g.validateForDispatch prior plans =
      if !plan.meetsHardSlo then .ok .planInfeasible
      else do
        let e ← g.evaluatePlan plan
        if e.feasible ≠ .feasible then return .planInfeasible
        else
          match ← firstExceeded e.projected.total g.budgets.values with
          | some _ => return .budgetExceeded
          | none => return .ok := by
  unfold matchedPlan at hmatched
  unfold validateForDispatch
  rw [if_neg (not_not.2 hkind), if_neg (not_not.2 hcurrent.epoch),
    if_neg (not_not.2 hcurrent.policy), if_neg (not_not.2 hcurrent.price),
    if_neg (not_not.2 hcurrent.boot), hvalid, if_neg (by decide), hmatched]
  rfl

theorem approval_of_ok {g : Governor} {prior : CostDecision} {plans : List ExecutionPlan}
    (hkind : prior.kind = .authorize) (h : g.validateForDispatch prior plans = .ok .ok) :
    ∃ plan, Approval g prior plans plan := by
  have hfences := h
  unfold validateForDispatch at hfences
  rw [if_neg (not_not.2 hkind)] at hfences
  split_ifs at hfences with hepoch hpolicy hprice hboot hreval
  · cases hfences
  · cases hfences
  · cases hfences
  · cases hfences
  · cases hfences
  have hcurrent : AuthorityCurrent g prior :=
    ⟨not_not.1 hepoch, not_not.1 hpolicy, not_not.1 hprice, not_not.1 hboot⟩
  cases hmatched : matchedPlan prior plans with
  | none =>
      unfold matchedPlan at hmatched
      rw [hmatched] at hfences
      cases hfences
  | some plan =>
      rw [validateForDispatch_of_current hkind hcurrent (by simpa using hreval) hmatched] at h
      split_ifs at h
      · cases h
      obtain ⟨econ, hecon, hrest⟩ := bind_eq_ok_iff.1 h
      split_ifs at hrest with hfeasible
      · cases hrest
      · exact ⟨plan, hcurrent, hmatched, econ, hecon, not_not.1 hfeasible⟩

/-- The second budget loop has nothing left to find. -/
theorem Approval.validates {g : Governor} {prior : CostDecision} {plans : List ExecutionPlan}
    {plan : ExecutionPlan} (hkind : prior.kind = .authorize) (h : Approval g prior plans plan) :
    g.validateForDispatch prior plans = .ok .ok := by
  obtain ⟨econ, hecon, hfeasible⟩ := h.feasible
  have hverdict := feasibleVerdict hecon hfeasible
  rw [validateForDispatch_of_current hkind h.current hverdict.revalidated h.matched,
    if_neg (by simp [hverdict.meetsSlo])]
  refine bind_eq_ok_iff.2 ⟨econ, hecon, ?_⟩
  rw [if_neg (not_not.2 hfeasible)]
  exact bind_eq_ok_iff.2 ⟨none, hverdict.budgets, rfl⟩

theorem validateForDispatch_eq_ok_iff {g : Governor} {prior : CostDecision}
    (hkind : prior.kind = .authorize) (plans : List ExecutionPlan) :
    g.validateForDispatch prior plans = .ok .ok ↔ ∃ plan, Approval g prior plans plan :=
  ⟨approval_of_ok hkind, fun ⟨_, h⟩ => h.validates hkind⟩

theorem validateForDispatch_of_not_authorize {prior : CostDecision}
    (hkind : prior.kind ≠ .authorize) (g : Governor) (plans : List ExecutionPlan) :
    g.validateForDispatch prior plans = .ok .ok :=
  if_pos hkind

/-- The plan of a decision may be dispatched in the current state. -/
structure Dispatchable (g : Governor) (prior : CostDecision) (plans : List ExecutionPlan) :
    Prop where
  authorized : prior.kind = .authorize
  current : AuthorityCurrent g prior
  candidate : ∃ plan ∈ plans, plan.id = prior.selectedPlan ∧
    ∃ econ, g.evaluatePlan plan = .ok econ ∧ econ.feasible = .feasible ∧
      ∀ id b, g.budgets.find? id = some b → b.mode = .hard →
        ∃ remaining, b.remaining = .ok remaining ∧ econ.projected.total ≤ remaining

theorem Approval.dispatchable {g : Governor} {prior : CostDecision} {plans : List ExecutionPlan}
    {plan : ExecutionPlan} (hkind : prior.kind = .authorize) (h : Approval g prior plans plan) :
    Dispatchable g prior plans := by
  obtain ⟨hmem, hid⟩ := matchedPlan_some h.matched
  obtain ⟨econ, hecon, hfeasible⟩ := h.feasible
  refine ⟨hkind, h.current, plan, hmem, hid, econ, hecon, hfeasible, ?_⟩
  intro id b hb hard
  exact (feasibleVerdict hecon hfeasible).affordable hb hard

end Governor

open Governor

/-- An OK means that the plan may be dispatched exactly for AUTHORIZE decisions; the
OK for the other kinds says nothing. -/
theorem dispatch_ok_means_dispatchable_iff (g : Governor) (prior : CostDecision)
    (plans : List ExecutionPlan) :
    (g.validateForDispatch prior plans = .ok .ok → Dispatchable g prior plans) ↔
      prior.kind = .authorize := by
  constructor
  · intro h
    by_contra hkind
    exact hkind (h (validateForDispatch_of_not_authorize hkind g plans)).authorized
  · intro hkind hok
    obtain ⟨plan, happroval⟩ := approval_of_ok hkind hok
    exact happroval.dispatchable hkind

/-- The decision a coordinator holds before any evaluation, without any candidate. -/
theorem dispatch_ok_without_authorization :
    (fresh 0).validateForDispatch {} [] = .ok .ok ∧ ¬ Dispatchable (fresh 0) {} [] := by
  refine ⟨rfl, ?_⟩
  intro h
  cases h.authorized

/-- A FEASIBLE plan of another generation stands under the selected identity. -/
structure Superseded (g : Governor) (prior : CostDecision) (plans : List ExecutionPlan)
    (plan : ExecutionPlan) : Prop where
  approval : Approval g prior plans plan
  otherGeneration : plan.generation ≠ prior.planGeneration ∨
    plan.workloadGeneration ≠ prior.authority.workloadGeneration

/-- Validation keeps to the authorized generation of the plan and of its workload
exactly when no FEASIBLE plan of another generation is matched under a current
authority. -/
theorem dispatch_bound_to_generation_iff (g : Governor) (prior : CostDecision)
    (hkind : prior.kind = .authorize) (plans : List ExecutionPlan) :
    (g.validateForDispatch prior plans = .ok .ok → ∀ plan, matchedPlan prior plans = some plan →
        plan.generation = prior.planGeneration ∧
          plan.workloadGeneration = prior.authority.workloadGeneration) ↔
      ¬ ∃ plan, Superseded g prior plans plan := by
  constructor
  · rintro h ⟨plan, happroval, hother⟩
    obtain ⟨hgen, hworkload⟩ := h (happroval.validates hkind) plan happroval.matched
    exact hother.elim (fun hne => hne hgen) (fun hne => hne hworkload)
  · intro hnone hok plan hmatched
    obtain ⟨plan', happroval⟩ := approval_of_ok hkind hok
    have hplan : plan' = plan := Option.some.inj (happroval.matched.symm.trans hmatched)
    subst hplan
    by_contra hgenerations
    exact hnone ⟨plan', happroval, not_and_or.1 hgenerations⟩

def authorizedPlan : ExecutionPlan := { id := ⟨1⟩, generation := ⟨1⟩, workloadGeneration := ⟨1⟩ }

def reissuedPlan : ExecutionPlan :=
  { id := ⟨1⟩, generation := ⟨2⟩, workloadGeneration := ⟨2⟩, expectedRetries := 7 }

theorem dispatch_bound_to_generation_iff_authorizedPlan :
    ∃ prior, (fresh 0).evaluate ⟨1⟩ ⟨1⟩ [authorizedPlan] = .ok prior ∧
      ((fresh 0).validateForDispatch prior [authorizedPlan] = .ok .ok →
          ∀ plan, matchedPlan prior [authorizedPlan] = some plan →
            plan.generation = prior.planGeneration ∧
              plan.workloadGeneration = prior.authority.workloadGeneration) := by
  refine ⟨_, rfl, ?_⟩
  refine (dispatch_bound_to_generation_iff (fresh 0) _ rfl [authorizedPlan]).2 ?_
  rintro ⟨plan, happroval, hother⟩
  cases happroval.matched
  exact hother.elim (fun hne => hne rfl) (fun hne => hne rfl)

theorem dispatch_ok_for_other_generation :
    ∃ prior, (fresh 0).evaluate ⟨1⟩ ⟨1⟩ [authorizedPlan] = .ok prior ∧ prior.kind = .authorize ∧
      (fresh 0).validateForDispatch prior [reissuedPlan] = .ok .ok ∧
      matchedPlan prior [reissuedPlan] = some reissuedPlan ∧
      reissuedPlan.generation ≠ prior.planGeneration ∧
      reissuedPlan.workloadGeneration ≠ prior.authority.workloadGeneration :=
  ⟨_, rfl, rfl, rfl, rfl, by decide, by decide⟩

namespace Governor

/-- What an evaluation and a later validation share: everything plan evaluation
reads of the governor but the clock and the budgets, and one worker's boot. -/
structure SharesAuthority (g later : Governor) (worker : WorkerId) : Prop where
  epoch : later.epoch = g.epoch
  policy : later.policy = g.policy
  schedule : later.schedule = g.schedule
  revalidation : later.revalidationNeeded = g.revalidationNeeded
  boot : later.currentBootFor worker = g.currentBootFor worker

theorem SharesAuthority.current {g later : Governor} {plan : ExecutionPlan} {d : CostDecision}
    {workloadGen : WorkloadGeneration} (h : SharesAuthority g later plan.worker)
    (hd : d.authority = g.authoritySnapshotFrom plan workloadGen) : AuthorityCurrent later d where
  epoch := by rw [hd, h.epoch]; rfl
  policy := by rw [hd, h.policy]; rfl
  price := by rw [hd, h.schedule]; rfl
  boot := by rw [hd]; exact h.boot.symm

theorem matchedPlan_of_distinct {plans : List ExecutionPlan} {d : CostDecision}
    {plan : ExecutionPlan} (hdistinct : plans.Pairwise (fun p q => p.id ≠ q.id))
    (hmem : plan ∈ plans) (hid : d.selectedPlan = plan.id) : matchedPlan d plans = some plan := by
  induction plans with
  | nil => cases hmem
  | cons p ps ih =>
      obtain ⟨hp, hps⟩ := List.pairwise_cons.1 hdistinct
      unfold matchedPlan
      rcases List.mem_cons.1 hmem with rfl | hmem
      · exact List.find?_cons_of_pos (decide_eq_true hid.symm)
      · rw [List.find?_cons_of_neg]
        · exact ih hps hmem
        · rw [hid, decide_eq_true_eq]
          exact hp plan hmem

end Governor

/-- A decision on distinct plans is validated in every later state with the same
authority exactly when its plan is still FEASIBLE there, and so right after it was made. -/
theorem evaluation_agrees_with_validation (g : Governor) (workload : WorkloadId)
    (workloadGen : WorkloadGeneration) (plans : List ExecutionPlan)
    (hdistinct : plans.Pairwise (fun p q => p.id ≠ q.id)) (d : CostDecision)
    (hd : g.evaluate workload workloadGen plans = .ok d) (hkind : d.kind = .authorize) :
    ∃ plan ∈ plans, plan.id = d.selectedPlan ∧
      (∀ later, SharesAuthority g later plan.worker →
        (later.validateForDispatch d plans = .ok .ok ↔ later.ReportsFeasible plan)) ∧
      g.validateForDispatch d plans = .ok .ok := by
  obtain ⟨candidates, best, rest, hcandidates, hsort, hbest⟩ := authorized_of_evaluate hd hkind
  have hselection := selection_of_head hcandidates hsort hbest
  have hauthority := authorizeDecision_authority hbest
  have hmatched := matchedPlan_of_distinct hdistinct hselection.candidate hselection.selected.1
  have hagrees : ∀ later, SharesAuthority g later best.plan.worker →
      (later.validateForDispatch d plans = .ok .ok ↔ later.ReportsFeasible best.plan) := by
    intro later hshares
    rw [validateForDispatch_eq_ok_iff hkind]
    constructor
    · rintro ⟨plan, happroval⟩
      have hplan : plan = best.plan := Option.some.inj (happroval.matched.symm.trans hmatched)
      exact hplan ▸ happroval.feasible
    · intro hfeasible
      exact ⟨best.plan, hshares.current hauthority, hmatched, hfeasible⟩
  refine ⟨best.plan, hselection.candidate, hselection.selected.1.symm, hagrees, ?_⟩
  exact (hagrees g ⟨rfl, rfl, rfl, rfl, rfl⟩).2 ⟨best.econ, hselection.feasible⟩

theorem evaluation_agrees_with_validation_rivalPlans :
    ∃ d, pricedGovernor.evaluate ⟨1⟩ ⟨1⟩ rivalPlans = .ok d ∧ d.kind = .authorize ∧
      pricedGovernor.validateForDispatch d rivalPlans = .ok .ok := by
  refine ⟨_, rfl, rfl, ?_⟩
  obtain ⟨plan, _, _, _, hok⟩ := evaluation_agrees_with_validation pricedGovernor ⟨1⟩ ⟨1⟩ rivalPlans
    (by decide) _ rfl rfl
  exact hok

end CostGovernor
