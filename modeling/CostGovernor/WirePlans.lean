import CostGovernor.CoordinatorSteps
import CostGovernor.Metering
import CostGovernor.SessionLoop

/-!
# Plans that came over the wire

Of the fields a plan loses on the wire, evaluation reads one: the recomputation a
recovery needs. A plan that has none is judged, ranked and decided on as it was sent.
-/

namespace CostGovernor

open ByteStreams Executions RankOrder SegmentedStreams Cgproto

/-- The plan needs no recomputation, or no evaluation gets as far as charging it. -/
def ExecutionPlan.WireComplete (p : ExecutionPlan) : Prop :=
  p.recoveryRecomputeNs = 0 ∨ p.label = .unsupported ∨ p.meetsHardSlo = false ∨
    ∃ c ∈ checkedComponents, (expectedAmount p c).toInt < 0

section Verdict

variable {schedule : PriceSchedule} {currency : ByteString} {nowMs : Int64}

theorem planToEvidence_wirePlan (p : ExecutionPlan) :
    planToEvidence (wirePlan p) = { planToEvidence p with recomputeNs := 0 } := rfl

/-- A negative amount stops the charging of the six usages. -/
theorem charge_usages_of_negative {p : ExecutionPlan} {c : CostComponent}
    (hc : c ∈ checkedComponents) (hneg : (expectedAmount p c).toInt < 0) (bd : CostBreakdown) :
    ∃ e, (planToEvidence p).usages.foldlM (fun bd u =>
      chargeUsage schedule currency nowMs (planToEvidence p) u.1 u.1 u.2 bd) bd = .error e := by
  cases hfold : (planToEvidence p).usages.foldlM (fun bd u =>
      chargeUsage schedule currency nowMs (planToEvidence p) u.1 u.1 u.2 bd) bd with
  | error e => exact ⟨e, rfl⟩
  | ok bd' =>
      obtain ⟨t, t', ht⟩ := runChecked_mem hfold (mem_usages_planToEvidence p hc)
      have hne : expectedAmount p c ≠ 0 := by
        intro hzero
        rw [hzero] at hneg
        exact absurd hneg (by decide)
      obtain ⟨m, hm⟩ := priced_of_chargeUsage ht hne
      have hnonneg := Int64.le_iff_toInt_le.1 (findPrice_of_priced hc hm).1
      exact absurd hneg (not_lt.2 hnonneg)

theorem project_of_usages_error (ev : CostEvidence) {e : Exn}
    (h : ev.usages.foldlM (fun bd u => chargeUsage schedule currency nowMs ev u.1 u.1 u.2 bd)
      { currency := currency } = .error e) :
    project schedule currency nowMs [ev] = .error e := by
  unfold project
  rw [List.foldlM_cons, chargeAttempt, h]
  rfl

theorem project_wirePlan {p : ExecutionPlan} (h : p.WireComplete) (hlabel : p.label ≠ .unsupported)
    (hslo : p.meetsHardSlo = true) :
    project schedule currency nowMs [planToEvidence (wirePlan p)] =
      project schedule currency nowMs [planToEvidence p] := by
  rcases h with hnone | hunsupported | hmisses | ⟨c, hc, hneg⟩
  · have hsame : planToEvidence (wirePlan p) = planToEvidence p := by
      rw [planToEvidence_wirePlan, ← hnone]
      rfl
    rw [hsame]
  · exact absurd hunsupported hlabel
  · rw [hmisses] at hslo
    cases hslo
  · obtain ⟨e, he⟩ := charge_usages_of_negative (p := p) hc hneg { currency := currency }
    rw [project_of_usages_error (planToEvidence p) he,
      project_of_usages_error (planToEvidence (wirePlan p)) he]

theorem evaluatePlan_wirePlan (g : Governor) {p : ExecutionPlan} (h : p.WireComplete) :
    g.evaluatePlan (wirePlan p) = g.evaluatePlan p := by
  have hlabel : (wirePlan p).label = p.label := rfl
  have hslo : (wirePlan p).meetsHardSlo = p.meetsHardSlo := rfl
  have hprices : g.priceVerdict (wirePlan p) checkedComponents =
      g.priceVerdict p checkedComponents := rfl
  unfold Governor.evaluatePlan Governor.evaluatePlanLocked
  rw [hlabel, hslo, hprices]
  split_ifs with hunsupported hmisses
  · rfl
  · rfl
  · rfl
  · rw [project_wirePlan h hunsupported (by simpa using hmisses)]
    rfl

end Verdict

section Ranking

variable (g : Governor)

def Candidate.onWire (c : Candidate) : Candidate := ⟨wirePlan c.plan, c.econ⟩

theorem candidatesOf_wirePlan {plans : List ExecutionPlan} (h : ∀ p ∈ plans, p.WireComplete) :
    g.candidatesOf (plans.map wirePlan) =
      (g.candidatesOf plans).map (List.map Candidate.onWire) := by
  induction plans with
  | nil => rfl
  | cons p plans ih =>
      obtain ⟨hp, hplans⟩ := List.forall_mem_cons.1 h
      have hverdict : g.evaluatePlanLocked (wirePlan p) = g.evaluatePlanLocked p :=
        evaluatePlan_wirePlan g hp
      rw [List.map_cons, Governor.candidatesOf, Governor.candidatesOf, hverdict, ih hplans]
      cases g.evaluatePlanLocked p with
      | error e => rfl
      | ok econ => cases g.candidatesOf plans <;> rfl

theorem sort_onWire (candidates : List Candidate) :
    stableSort better ((candidates.map Candidate.onWire).filter Governor.isFeasible) =
      (stableSort better (candidates.filter Governor.isFeasible)).map Candidate.onWire := by
  rw [List.filter_map]
  exact stableSort_map (fun _ _ => rfl) _

structure DecisionSummary where
  kind : DecisionKind
  selectedPlan : PlanId
  total : MoneyMicros
  rejectedPlans : List PlanId
  state : CostState
  status : Status
  deriving DecidableEq

def CostDecision.summary (d : CostDecision) : DecisionSummary :=
  { kind := d.kind, selectedPlan := d.selectedPlan, total := d.projected.total
    rejectedPlans := d.rejectedPlans, state := d.state, status := d.status }

theorem authorizeDecision_onWire (workloadGen : WorkloadGeneration) (plans : List ExecutionPlan)
    (candidates : List Candidate) (best : Candidate) :
    (g.authorizeDecision workloadGen (plans.map wirePlan) (candidates.map Candidate.onWire)
        best.onWire).map CostDecision.summary =
      (g.authorizeDecision workloadGen plans candidates best).map CostDecision.summary := by
  have hrejected : ((candidates.map Candidate.onWire).filter
      (fun c => c.plan.id ≠ best.plan.id)).map (fun c => c.plan.id) =
      (candidates.filter (fun c => c.plan.id ≠ best.plan.id)).map (fun c => c.plan.id) := by
    rw [List.filter_map, List.map_map]
    rfl
  have hecon : best.onWire.econ = best.econ := rfl
  unfold Governor.authorizeDecision Governor.buildExplanation
  rw [hecon]
  cases g.hardRemaining with
  | error e => rfl
  | ok remaining =>
      cases g.stateFromBreakdown best.econ.projected with
      | error e => rfl
      | ok state =>
          cases g.budgetAlternative best.econ with
          | error e => rfl
          | ok alternative =>
              refine congrArg Except.ok ?_
              simp only [CostDecision.summary, DecisionSummary.mk.injEq, true_and, and_true]
              exact ⟨rfl, hrejected⟩

theorem evaluate_wirePlan (workload : WorkloadId) (workloadGen : WorkloadGeneration)
    {plans : List ExecutionPlan} (h : ∀ p ∈ plans, p.WireComplete) :
    (g.evaluate workload workloadGen (plans.map wirePlan)).map CostDecision.summary =
      (g.evaluate workload workloadGen plans).map CostDecision.summary := by
  have hempty : (plans.map wirePlan).isEmpty = plans.isEmpty := List.isEmpty_map
  unfold Governor.evaluate
  rw [hempty]
  split_ifs
  · rfl
  · rfl
  · rw [candidatesOf_wirePlan g h]
    cases g.candidatesOf plans with
    | error e => rfl
    | ok candidates =>
        dsimp only [Except.map, bind, Except.bind]
        rw [sort_onWire]
        cases stableSort better (candidates.filter Governor.isFeasible) with
        | nil => rfl
        | cons best rest => exact authorizeDecision_onWire g workloadGen plans candidates best

end Ranking

end CostGovernor
