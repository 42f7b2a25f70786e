import CostGovernor.EvidenceEffects
import CostGovernor.Interface
import CostGovernor.PlanSelection

/-!
# Calls under another boot map

Only four kinds of call look at the boot map: publishing, recording, the authority
of a decision and its validation, and the query. Every other call does the same under
another map, and these do when the worker they look up has the same boot.
-/

namespace CostGovernor

open Executions RankOrder

namespace Governor

def withBoots (m : OrderedMap WorkerId WorkerBootId) (g : Governor) : Governor :=
  { g with workerBoots := m }

section WithBoots

variable (m : OrderedMap WorkerId WorkerBootId) (g : Governor)

theorem withBoots_budgets : (g.withBoots m).budgets = g.budgets := rfl

theorem withBoots_attempts : (g.withBoots m).attempts = g.attempts := rfl

theorem withBoots_interventions : (g.withBoots m).interventions = g.interventions := rfl

theorem createBudget_withBoots (b : Budget) :
    (g.withBoots m).createBudget b = Prod.map id (withBoots m) (g.createBudget b) := by
  simp only [createBudget, apply_ite (Prod.map id (withBoots m))]
  rfl

theorem reserve_withBoots (budget : BudgetId) (gen : BudgetGeneration) (epoch : CoordinatorEpoch)
    (amount : MoneyMicros) :
    (g.withBoots m).reserve budget gen epoch amount =
      Prod.map id (Prod.map id (withBoots m)) (g.reserve budget gen epoch amount) := by
  unfold reserve
  rw [withBoots_budgets]
  cases g.budgets.find? budget with
  | none => rfl
  | some b =>
      dsimp only
      cases b.reserved.add amount <;>
      · simp only [apply_ite (Prod.map id (Prod.map id (withBoots m)))]
        rfl

theorem commit_withBoots (r : BudgetReservation) :
    (g.withBoots m).commit r = Prod.map id (Prod.map id (withBoots m)) (g.commit r) := by
  unfold commit
  rw [withBoots_budgets]
  cases g.budgets.find? r.budget with
  | none => rfl
  | some b =>
      dsimp only
      cases b.reserved.sub r.amount <;> cases b.released.add r.amount <;>
        cases b.consumed.add r.amount <;>
      · simp only [apply_ite (Prod.map id (Prod.map id (withBoots m)))]
        rfl

theorem release_withBoots (r : BudgetReservation) :
    (g.withBoots m).release r = Prod.map id (Prod.map id (withBoots m)) (g.release r) := by
  unfold release
  rw [withBoots_budgets]
  cases g.budgets.find? r.budget with
  | none => rfl
  | some b =>
      dsimp only
      cases b.reserved.sub r.amount <;> cases b.released.add r.amount <;>
      · simp only [apply_ite (Prod.map id (Prod.map id (withBoots m)))]
        rfl

theorem consume_withBoots (budget : BudgetId) (gen : BudgetGeneration) (epoch : CoordinatorEpoch)
    (amount : MoneyMicros) :
    (g.withBoots m).consume budget gen epoch amount =
      Prod.map id (withBoots m) (g.consume budget gen epoch amount) := by
  unfold consume
  rw [withBoots_budgets]
  cases g.budgets.find? budget with
  | none => rfl
  | some b =>
      dsimp only
      cases b.consumed.add amount <;>
      · simp only [apply_ite (Prod.map id (withBoots m))]
        rfl

theorem finalizeRequest_withBoots (request : RequestId) (workload : WorkloadId) :
    (g.withBoots m).finalizeRequest request workload =
      Prod.map id (withBoots m) (g.finalizeRequest request workload) := by
  unfold finalizeRequest
  rw [apply_ite (Prod.map id (withBoots m)), withBoots_attempts]
  cases g.attempts.find? request with
  | none => rfl
  | some req =>
      have hproject : project (g.withBoots m).schedule (g.withBoots m).policy.currency
          (g.withBoots m).now req.values =
            project g.schedule g.policy.currency g.now req.values := rfl
      dsimp only
      rw [hproject]
      cases project g.schedule g.policy.currency g.now req.values <;> rfl

theorem intervention_withBoots (id' : InterventionId) (gen : InterventionGeneration)
    (post : List CostEvidence) :
    (g.withBoots m).authorizeIntervention id' gen =
        Prod.map id (withBoots m) (g.authorizeIntervention id' gen) ∧
      (g.withBoots m).acknowledgeIntervention id' gen =
        Prod.map id (withBoots m) (g.acknowledgeIntervention id' gen) ∧
      (g.withBoots m).verifyIntervention id' gen post =
        Prod.map id (withBoots m) (g.verifyIntervention id' gen post) := by
  unfold authorizeIntervention acknowledgeIntervention verifyIntervention
  rw [withBoots_interventions]
  cases g.interventions.find? id' with
  | none => exact ⟨rfl, rfl, rfl⟩
  | some i =>
      simp only [apply_ite (Prod.map id (withBoots m))]
      exact ⟨rfl, rfl, rfl⟩

section SameBoot

variable {m g} {w : WorkerId}

/-- A publication looks up the boot of its own worker only. -/
theorem publishPrice_withBoots {obs : PriceObservation}
    (h : (g.withBoots m).currentBootFor obs.worker = g.currentBootFor obs.worker) :
    (g.withBoots m).publishPrice obs = Prod.map id (withBoots m) (g.publishPrice obs) := by
  unfold publishPrice
  rw [h]
  simp only [apply_ite (Prod.map id (withBoots m))]
  rfl

theorem recordAttempt_withBoots {e : CostEvidence}
    (h : (g.withBoots m).currentBootFor e.worker = g.currentBootFor e.worker) :
    (g.withBoots m).recordAttempt e = Prod.map id (withBoots m) (g.recordAttempt e) := by
  unfold recordAttempt
  rw [h, withBoots_attempts]
  dsimp only
  cases ((g.attempts.find? e.request).getD .empty).find? e.attempt <;>
  · simp only [apply_ite (Prod.map id (withBoots m))]
    rfl

theorem authoritySnapshotFrom_withBoots {plan : ExecutionPlan}
    (h : (g.withBoots m).currentBootFor plan.worker = g.currentBootFor plan.worker)
    (workloadGen : WorkloadGeneration) :
    (g.withBoots m).authoritySnapshotFrom plan workloadGen =
      g.authoritySnapshotFrom plan workloadGen := by
  unfold authoritySnapshotFrom
  rw [h]
  rfl

end SameBoot

theorem priceVerdict_withBoots (plan : ExecutionPlan) (cs : List CostComponent) :
    (g.withBoots m).priceVerdict plan cs = g.priceVerdict plan cs := by
  induction cs with
  | nil => rfl
  | cons c cs ih =>
      rw [priceVerdict_cons, priceVerdict_cons, ih]
      rfl

theorem evaluatePlan_withBoots (plan : ExecutionPlan) :
    (g.withBoots m).evaluatePlanLocked plan = g.evaluatePlanLocked plan := by
  unfold evaluatePlanLocked
  rw [priceVerdict_withBoots]
  rfl

theorem candidatesOf_withBoots (plans : List ExecutionPlan) :
    (g.withBoots m).candidatesOf plans = g.candidatesOf plans := by
  induction plans with
  | nil => rfl
  | cons plan plans ih => rw [candidatesOf, candidatesOf, evaluatePlan_withBoots, ih]

theorem authorizeDecision_withBoots (workloadGen : WorkloadGeneration) (plans : List ExecutionPlan)
    (candidates : List Candidate) {best : Candidate}
    (h : (g.withBoots m).currentBootFor best.plan.worker = g.currentBootFor best.plan.worker) :
    (g.withBoots m).authorizeDecision workloadGen plans candidates best =
      g.authorizeDecision workloadGen plans candidates best := by
  unfold authorizeDecision buildExplanation
  rw [authoritySnapshotFrom_withBoots h]
  rfl

theorem evaluate_withBoots (workload : WorkloadId) (workloadGen : WorkloadGeneration)
    {plans : List ExecutionPlan}
    (h : ∀ plan ∈ plans, (g.withBoots m).currentBootFor plan.worker = g.currentBootFor plan.worker) :
    (g.withBoots m).evaluate workload workloadGen plans = g.evaluate workload workloadGen plans := by
  unfold evaluate
  rw [candidatesOf_withBoots]
  cases hcandidates : g.candidatesOf plans with
  | error e => rfl
  | ok candidates =>
      dsimp only [bind, Except.bind]
      cases hsort : stableSort better (candidates.filter isFeasible) with
      | nil => rfl
      | cons best rest =>
          have hbest : best ∈ candidates.filter isFeasible :=
            mem_stableSort (r := better) |>.1 (hsort ▸ List.mem_cons_self)
          have hplan := ((mem_candidatesOf_iff hcandidates best).1 (List.mem_filter.1 hbest).1).1
          dsimp only
          rw [authorizeDecision_withBoots m g workloadGen plans candidates (h _ hplan)]
          rfl

theorem validateForDispatch_withBoots {prior : CostDecision}
    (h : (g.withBoots m).currentBootFor prior.authority.worker =
      g.currentBootFor prior.authority.worker) (plans : List ExecutionPlan) :
    (g.withBoots m).validateForDispatch prior plans = g.validateForDispatch prior plans := by
  unfold validateForDispatch
  rw [h]
  simp only [evaluatePlan_withBoots]
  rfl

/-- The calls that neither read nor write the boot map. -/
theorem exec_withBoots {op : Op} (hpublish : ∀ obs, op ≠ .publishPrice obs)
    (hrecord : ∀ e, op ≠ .recordAttempt e) (hboot : ∀ worker boot, op ≠ .setWorkerBoot worker boot) :
    (g.withBoots m).exec op = Prod.map id (withBoots m) (g.exec op) := by
  cases op with
  | createBudget b => simp only [exec, createBudget_withBoots]; rfl
  | reserve budget gen epoch amount => simp only [exec, reserve_withBoots]; rfl
  | commit r => simp only [exec, commit_withBoots]; rfl
  | release r => simp only [exec, release_withBoots]; rfl
  | consume budget gen epoch amount => simp only [exec, consume_withBoots]; rfl
  | finalizeRequest request workload => simp only [exec, finalizeRequest_withBoots]; rfl
  | authorizeIntervention id' gen => simp only [exec, (intervention_withBoots m g id' gen []).1]; rfl
  | acknowledgeIntervention id' gen =>
      simp only [exec, (intervention_withBoots m g id' gen []).2.1]; rfl
  | verifyIntervention id' gen post =>
      simp only [exec, (intervention_withBoots m g id' gen post).2.2]; rfl
  | publishPrice obs => exact absurd rfl (hpublish obs)
  | recordAttempt e => exact absurd rfl (hrecord e)
  | setWorkerBoot worker boot => exact absurd rfl (hboot worker boot)
  | advanceEpoch => rfl
  | setPolicy p => rfl
  | setPriceSchedule s => rfl
  | setClock now => rfl
  | setStatePath => rfl
  | proposeIntervention i => rfl

end WithBoots

end Governor

end CostGovernor
