import CostGovernor.Cost

/-!
# Plans, decisions and durable records

The data that plan evaluation reads and returns, the interventions with their
history, and the snapshot written to the state file.
-/

namespace CostGovernor

inductive RecoveryKind
  | none | restore | restart | migrate | rehydrate | shadowPromote | failover | recompute
  deriving DecidableEq

structure ExecutionPlan where
  id : PlanId := {}
  generation : PlanGeneration := {}
  workload : WorkloadId := {}
  workloadGeneration : WorkloadGeneration := {}
  resource : ResourceId := {}
  resourceGeneration : ResourceGeneration := {}
  device : DeviceId := {}
  deviceGeneration : DeviceGeneration := {}
  placement : PlacementId := {}
  placementGeneration : PlacementGeneration := {}
  recoveryGeneration : RecoveryGeneration := {}
  worker : WorkerId := {}
  expectedAcceleratorTime : Int64 := 0
  expectedEnergy : Int64 := 0
  expectedTransfer : Int64 := 0
  expectedMemoryHold : Int64 := 0
  expectedResidencyHold : Int64 := 0
  expectedStorage : Int64 := 0
  expectedRetries : Int64 := 0
  expectedRequests : Int64 := 1
  expectedTokens : Int64 := 0
  expectedOperations : Int64 := 0
  recovery : RecoveryKind := .none
  recoveryRecomputeNs : Int64 := 0
  meetsHardSlo : Bool := true
  completionProbabilityPercent : Int64 := 100
  label : DataLabel := .policy
  deriving DecidableEq

inductive Feasibility
  | feasible | infeasible | defer | revalidationRequired | insufficientEvidence | unknown
  deriving DecidableEq

inductive FeasibilityReason
  | none | missingPrice | stalePrice | missingResourceEvidence | staleResourceEvidence
  | hardBudgetExceeded | sloConflict | capacityUnavailable | placementInvalid
  | recoveryTooExpensive | transferTooExpensive | energyTooExpensive | unknownCostComponent
  deriving DecidableEq

structure PlanEconomics where
  feasible : Feasibility := .unknown
  reason : FeasibilityReason := .none
  projected : CostBreakdown := {}
  projectedPerRequest : MoneyMicros := {}
  projectedPerToken : MoneyMicros := {}
  projectedPerOperation : MoneyMicros := {}
  perTokenValid : Bool := false

structure AuthorityContext where
  epoch : CoordinatorEpoch := {}
  policyGeneration : CostPolicyGeneration := {}
  priceGeneration : PriceScheduleGeneration := {}
  evidenceGeneration : EvidenceGeneration := {}
  planGeneration : PlanGeneration := {}
  workloadGeneration : WorkloadGeneration := {}
  worker : WorkerId := {}
  boot : WorkerBootId := {}
  resourceGeneration : ResourceGeneration := {}
  placementGeneration : PlacementGeneration := {}
  recoveryGeneration : RecoveryGeneration := {}
  budgetGeneration : BudgetGeneration := {}
  interventionGeneration : InterventionGeneration := {}
  deriving DecidableEq

inductive CostState
  | withinBudget | nearBudget | atRisk | overSoftBudget | overHardBudget
  | revalidationRequired | insufficientEvidence | unknown
  deriving DecidableEq

inductive DecisionKind
  | authorize | reject | defer | revalidate | noFeasiblePlan
  deriving DecidableEq

structure WhatWouldChangeAlt where
  name : String := ""
  applicable : Bool := false
  feasible : Feasibility := .unknown
  projectedCost : MoneyMicros := {}
  delta : MoneyMicros := {}
  deriving DecidableEq

structure CostExplanation where
  objective : String := ""
  currency : ByteString := defaultCurrency
  projected : CostBreakdown := {}
  label : DataLabel := .policy
  candidateSet : List PlanId := []
  rejected : List PlanId := []
  selected : PlanId := {}
  whatWouldChange : List WhatWouldChangeAlt := []
  authority : AuthorityContext := {}

structure CostDecision where
  kind : DecisionKind := .noFeasiblePlan
  selectedPlan : PlanId := {}
  planGeneration : PlanGeneration := {}
  rejectedPlans : List PlanId := []
  bindingConstraint : FeasibilityReason := .none
  projected : CostBreakdown := {}
  remainingBudget : MoneyMicros := {}
  state : CostState := .unknown
  authority : AuthorityContext := {}
  explanation : CostExplanation := {}
  status : Status := .ok
  detail : String := ""

inductive InterventionKind
  | noAction | selectCheaperPlan | replan | defer | reject | stopIfSafe | reduceBatch
  | changePlacement | changeAcceleratorClass | preferLocalState | avoidTransfer | reuseWarmState
  | evictIdleState | releaseReservation | preemptLowerValueWork | requestCheaperRecovery
  | shedLowValueWork | escalateBudget | manualInterventionRequired
  | raw (byte : UInt8) (unnamed : 19 ≤ byte)
  deriving DecidableEq

inductive InterventionLifecycle
  | proposed | authorized | dispatched | acknowledged | effective | ineffective | failed
  | cancelled | superseded | expired | outcomeUnknown
  | raw (byte : UInt8) (unnamed : 11 ≤ byte)
  deriving DecidableEq

structure CostIntervention where
  id : InterventionId := {}
  generation : InterventionGeneration := {}
  kind : InterventionKind := .noAction
  lifecycle : InterventionLifecycle := .proposed
  authority : AuthorityContext := {}
  createdAtMs : Int64 := 0
  dispatchedAtMs : Int64 := 0
  acknowledgedAtMs : Int64 := 0
  verifiedAtMs : Int64 := 0
  detail : ByteString := []
  deriving DecidableEq

inductive VerificationOutcome
  | effective | partiallyEffective | ineffective | worse | createdSecondaryViolation
  | insufficientPostActionEvidence | outcomeUnknown
  deriving DecidableEq

structure HistoryEntry where
  request : RequestId := {}
  workload : WorkloadId := {}
  completedAtMs : Int64 := 0
  realizedCost : MoneyMicros := {}
  attempts : Int64 := 0
  tokens : Int64 := 0
  deriving DecidableEq

structure InterventionEntry where
  id : InterventionId := {}
  kind : InterventionKind := .noAction
  lifecycle : InterventionLifecycle := .proposed
  generation : InterventionGeneration := {}
  createdAtMs : Int64 := 0
  deriving DecidableEq

end CostGovernor
