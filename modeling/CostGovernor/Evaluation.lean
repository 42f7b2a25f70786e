import CostGovernor.Governor
import CostGovernor.RankOrder

/-!
# Plan evaluation

The price checks, the feasibility chain of one plan, the ranking of the feasible
candidates and the decision with its explanation. Everything here reads the
governor under its lock and writes nothing. Loops over the budgets follow the
iteration order of the map; ages are differences of 64-bit words.
-/

namespace CostGovernor

open ScanSelection RankOrder

def kindForCheck : CostComponent → PriceKind
  | .acceleratorTime => .acceleratorTime
  | .energy => .energy
  | .transfer => .transfer
  | .memory => .memoryHolding
  | .residency => .residencyHolding
  | .storage => .storage
  | _ => .customTypedComponent

structure PriceCheck where
  present : Bool := false
  stale : Bool := false
  obs : Option PricePointer := none

def inInterval (o : PriceObservation) (nowMs : Int64) : Bool :=
  if nowMs < o.validFromMs then false
  else if o.validToMs ≠ 0 ∧ o.validToMs ≤ nowMs then false
  else true

/-- The observations the loop of `checkPrice` does not skip. -/
def passesCheck (want : PriceKind) (currency : ByteString) (nowMs : Int64) (pol : CostPolicy)
    (dev : DeviceId) (res : ResourceId) (obs : PriceObservation) : Bool :=
  if obs.kind ≠ want then false
  else if !obs.validCurrency currency then false
  else if !inInterval obs nowMs then false
  else if !pol.acceptsLabel obs.label then false
  else if obs.amount.negative then false
  else if dev.valid ∧ obs.device.valid ∧ obs.device ≠ dev then false
  else if res.valid ∧ obs.resourceScope.valid ∧ obs.resourceScope ≠ res then false
  else true

/-- The age test of prices and schedules: a positive limit, exceeded. -/
def tooOld (maxAgeMs nowMs sinceMs : Int64) : Bool :=
  decide (0 < maxAgeMs ∧ maxAgeMs < nowMs - sinceMs)

def checkPrice (s : PriceSchedule) (want : PriceKind) (currency : ByteString) (nowMs : Int64)
    (pol : CostPolicy) (dev : DeviceId) (res : ResourceId) : PriceCheck :=
  let scheduleStale := tooOld pol.priceScheduleMaxAgeMs nowMs s.createdAtMs
  match scan (passesCheck want currency nowMs pol dev res) moreSpecific s.observations with
  | none => {}
  | some best =>
    { present := true
      obs := some best
      stale := scheduleStale || tooOld pol.maxEvidenceAgeMs nowMs best.1.observedAtMs }

def amountPresent (p : ExecutionPlan) : CostComponent → Bool
  | .acceleratorTime => p.expectedAcceleratorTime ≠ 0
  | .energy => p.expectedEnergy ≠ 0
  | .transfer => p.expectedTransfer ≠ 0
  | .memory => p.expectedMemoryHold ≠ 0
  | .residency => p.expectedResidencyHold ≠ 0
  | .storage => p.expectedStorage ≠ 0
  | _ => false

def planToEvidence (p : ExecutionPlan) : CostEvidence :=
  { acceleratorTime := p.expectedAcceleratorTime
    energy := p.expectedEnergy
    transfer := p.expectedTransfer
    memoryHold := p.expectedMemoryHold
    residencyHold := p.expectedResidencyHold
    storageBytes := p.expectedStorage
    requests := p.expectedRequests
    tokens := p.expectedTokens
    operations := p.expectedOperations
    label := p.label
    recomputeNs := p.recoveryRecomputeNs
    device := p.device
    resource := p.resource }

def checkedComponents : List CostComponent :=
  [.acceleratorTime, .energy, .transfer, .memory, .residency, .storage]

structure Candidate where
  plan : ExecutionPlan
  econ : PlanEconomics

def knownValue (e : PlanEconomics) (c : CostComponent) : MoneyMicros :=
  if (e.projected.components c).known then (e.projected.components c).value else ⟨0⟩

def better (a b : Candidate) : Bool :=
  if a.econ.projected.total ≠ b.econ.projected.total then
    a.econ.projected.total < b.econ.projected.total
  else if a.econ.projectedPerRequest ≠ b.econ.projectedPerRequest then
    a.econ.projectedPerRequest < b.econ.projectedPerRequest
  else if a.econ.projectedPerToken ≠ b.econ.projectedPerToken then
    a.econ.projectedPerToken < b.econ.projectedPerToken
  else if knownValue a.econ .energy ≠ knownValue b.econ .energy then
    knownValue a.econ .energy < knownValue b.econ .energy
  else if knownValue a.econ .transfer ≠ knownValue b.econ .transfer then
    knownValue a.econ .transfer < knownValue b.econ .transfer
  else if knownValue a.econ .acceleratorTime ≠ knownValue b.econ .acceleratorTime then
    knownValue a.econ .acceleratorTime < knownValue b.econ .acceleratorTime
  else if a.plan.completionProbabilityPercent ≠ b.plan.completionProbabilityPercent then
    b.plan.completionProbabilityPercent < a.plan.completionProbabilityPercent
  else a.plan.id < b.plan.id

namespace Governor

/-- The first component whose price is missing or stale, with the verdict it causes. -/
def priceVerdict (g : Governor) (plan : ExecutionPlan) :
    List CostComponent → Option (Feasibility × FeasibilityReason)
  | [] => none
  | c :: cs =>
    if !amountPresent plan c then g.priceVerdict plan cs
    else
      let pc := checkPrice g.schedule (kindForCheck c) g.policy.currency g.now g.policy
        plan.device plan.resource
      if !pc.present then some (.insufficientEvidence, .missingPrice)
      else if pc.stale then some (.revalidationRequired, .stalePrice)
      else g.priceVerdict plan cs

/-- The first hard budget that cannot take the total. -/
def firstExceeded (total : MoneyMicros) : List Budget → Except Exn (Option Budget)
  | [] => .ok none
  | b :: bs =>
    if b.mode ≠ .hard then firstExceeded total bs
    else do
      let remaining ← b.remaining
      if remaining < total then return some b else firstExceeded total bs

def exceededReason (b : Budget) : FeasibilityReason :=
  if b.objective = .maxEnergyCost then .energyTooExpensive
  else if b.objective = .maxTransferCost then .transferTooExpensive
  else .hardBudgetExceeded

def perUnit (total : MoneyMicros) (expected : Int64) : Except Exn MoneyMicros :=
  if 0 < expected then total.checkedDiv expected .ceil else .ok ⟨0⟩

/-- The part of the evaluation after the projection. -/
def judgeProjection (g : Governor) (plan : ExecutionPlan) (bd : CostBreakdown) :
    Except Exn PlanEconomics :=
  if bd.anyUnknown then .ok { feasible := .unknown, reason := .unknownCostComponent }
  else do
    let perRequest ← perUnit bd.total plan.expectedRequests
    let perToken ← perUnit bd.total plan.expectedTokens
    let e : PlanEconomics :=
      { projected := bd, projectedPerRequest := perRequest, projectedPerToken := perToken
        perTokenValid := decide (0 < plan.expectedTokens) }
    match ← firstExceeded bd.total g.budgets.values with
    | some b => return { e with feasible := .infeasible, reason := exceededReason b }
    | none => return { e with feasible := .feasible }

def evaluatePlanLocked (g : Governor) (plan : ExecutionPlan) : Except Exn PlanEconomics :=
  if plan.label = .unsupported then
    .ok { feasible := .unknown, reason := .unknownCostComponent }
  else if !plan.meetsHardSlo then .ok { feasible := .infeasible, reason := .sloConflict }
  else if g.revalidationNeeded then
    .ok { feasible := .revalidationRequired, reason := .stalePrice }
  else
    match g.priceVerdict plan checkedComponents with
    | some v => .ok { feasible := v.1, reason := v.2 }
    | none =>
      match project g.schedule g.policy.currency g.now [planToEvidence plan] with
      | .error (.statusError .missingPrice _) =>
        .ok { feasible := .insufficientEvidence, reason := .missingPrice }
      | .error e => .error e
      | .ok bd => g.judgeProjection plan bd

def evaluatePlan (g : Governor) (plan : ExecutionPlan) : Except Exn PlanEconomics :=
  g.evaluatePlanLocked plan

/-- One budget's step of the cost state; `none` ends the loop with OVER_HARD_BUDGET. -/
def costStateStep (policy : CostPolicy) (total : MoneyMicros) (b : Budget) (st : CostState) :
    Except Exn (Option CostState) :=
  if b.mode ≠ .hard ∨ b.limit.isZero then .ok (some st)
  else do
    let remaining ← b.remaining
    if remaining < total then return none
    else
      let nearProduct ← b.limit.checkedMul policy.nearBudgetPercent
      let near ← nearProduct.checkedDiv 100 .ceil
      let riskProduct ← b.limit.checkedMul policy.atRiskPercent
      let atRisk ← riskProduct.checkedDiv 100 .ceil
      if atRisk ≤ total then return some .atRisk
      else if near ≤ total then return some .nearBudget
      else return some st

def costStateFrom (policy : CostPolicy) (total : MoneyMicros) :
    CostState → List Budget → Except Exn CostState
  | st, [] => .ok st
  | st, b :: bs => do
    match ← costStateStep policy total b st with
    | none => return .overHardBudget
    | some st => costStateFrom policy total st bs

def stateFromBreakdown (g : Governor) (bd : CostBreakdown) : Except Exn CostState :=
  costStateFrom g.policy bd.total .withinBudget g.budgets.values

def authoritySnapshotFrom (g : Governor) (plan : ExecutionPlan)
    (workloadGen : WorkloadGeneration) : AuthorityContext :=
  { epoch := g.epoch
    policyGeneration := g.policy.generation
    priceGeneration := g.schedule.generation
    planGeneration := plan.generation
    workloadGeneration := workloadGen
    worker := plan.worker
    boot := g.currentBootFor plan.worker
    budgetGeneration := ⟨0⟩ }

def firstHard (g : Governor) : Option Budget := g.budgets.values.find? (fun b => b.mode = .hard)

def hardRemaining (g : Governor) : Except Exn MoneyMicros :=
  match g.firstHard with
  | none => .ok ⟨0⟩
  | some b => b.remaining

/-- The alternative of a larger budget, read off the first hard one. -/
def budgetAlternative (g : Governor) (econ : PlanEconomics) : Except Exn WhatWouldChangeAlt :=
  match g.firstHard with
  | none => .ok { name := "BUDGET_INCREASES" }
  | some b => do
    let remaining ← b.remaining
    let delta ← remaining.sub econ.projected.total
    return { name := "BUDGET_INCREASES"
             applicable := decide (remaining < econ.projected.total)
             feasible := .feasible
             projectedCost := econ.projected.total
             delta := delta }

def buildExplanation (g : Governor) (best : ExecutionPlan) (econ : PlanEconomics)
    (workloadGen : WorkloadGeneration) (plans : List ExecutionPlan) : Except Exn CostExplanation := do
  let others := (plans.filter (fun p => p.id ≠ best.id)).map ExecutionPlan.id
  let alternative ← g.budgetAlternative econ
  return { objective := "COST_GOVERNED_PLAN"
           currency := g.policy.currency
           projected := econ.projected
           label := best.label
           candidateSet := others ++ [best.id]
           rejected := others
           selected := best.id
           whatWouldChange := [alternative]
           authority := g.authoritySnapshotFrom best workloadGen }

def isFeasible (c : Candidate) : Bool := decide (c.econ.feasible = .feasible)

/-- The reason of the last candidate that is not feasible and gives one. -/
def worstReason (candidates : List Candidate) : FeasibilityReason :=
  candidates.foldl (fun worst c =>
    if ¬ isFeasible c ∧ c.econ.reason ≠ .none then c.econ.reason else worst) .none

def authorizeDecision (g : Governor) (workloadGen : WorkloadGeneration)
    (plans : List ExecutionPlan) (candidates : List Candidate) (best : Candidate) :
    Except Exn CostDecision := do
  let remaining ← g.hardRemaining
  let state ← g.stateFromBreakdown best.econ.projected
  let explanation ← g.buildExplanation best.plan best.econ workloadGen plans
  return { kind := .authorize
           selectedPlan := best.plan.id
           planGeneration := best.plan.generation
           rejectedPlans :=
             (candidates.filter (fun c => c.plan.id ≠ best.plan.id)).map (fun c => c.plan.id)
           bindingConstraint := .none
           projected := best.econ.projected
           remainingBudget := remaining
           state := state
           authority := g.authoritySnapshotFrom best.plan workloadGen
           explanation := explanation
           status := .ok }

def candidatesOf (g : Governor) : List ExecutionPlan → Except Exn (List Candidate)
  | [] => .ok []
  | plan :: plans => do
    let econ ← g.evaluatePlanLocked plan
    let rest ← g.candidatesOf plans
    return ⟨plan, econ⟩ :: rest

def evaluate (g : Governor) (_workload : WorkloadId) (workloadGen : WorkloadGeneration)
    (plans : List ExecutionPlan) : Except Exn CostDecision :=
  if g.revalidationNeeded then
    .ok { kind := .revalidate, status := .staleEvidence
          detail := "recovered dynamic evidence requires revalidation" }
  else if plans.isEmpty then .ok { kind := .noFeasiblePlan, status := .planInfeasible }
  else do
    let candidates ← g.candidatesOf plans
    match stableSort better (candidates.filter isFeasible) with
    | [] => return {
        kind := .noFeasiblePlan, status := .planInfeasible
        bindingConstraint := worstReason candidates
        detail := "no feasible candidate under current economics" }
    | best :: _ => g.authorizeDecision workloadGen plans candidates best

def validateForDispatch (g : Governor) (prior : CostDecision) (candidatePlans : List ExecutionPlan) :
    Except Exn Status :=
  if prior.kind ≠ .authorize then .ok .ok
  else if prior.authority.epoch ≠ g.epoch then .ok .staleAuthority
  else if prior.authority.policyGeneration ≠ g.policy.generation then .ok .staleAuthority
  else if prior.authority.priceGeneration ≠ g.schedule.generation then .ok .staleAuthority
  else if prior.authority.boot ≠ g.currentBootFor prior.authority.worker then .ok .staleAuthority
  else if g.revalidationNeeded then .ok .staleEvidence
  else
    match candidatePlans.find? (fun plan => plan.id = prior.selectedPlan) with
    | none => .ok .planSuperseded
    | some plan =>
      if !plan.meetsHardSlo then .ok .planInfeasible
      else do
        let e ← g.evaluatePlanLocked plan
        if e.feasible ≠ .feasible then return .planInfeasible
        else
          match ← firstExceeded e.projected.total g.budgets.values with
          | some _ => return .budgetExceeded
          | none => return .ok

end Governor

end CostGovernor
