import CostGovernor.Codec
import CostGovernor.Evaluation
import CostGovernor.Operations

/-!
# The calls of a governor and what they answer

`Call` is the whole public interface of a governor: the calls that write its state,
the calls that only read it, and the two that go through its state file.
-/

namespace CostGovernor

structure Process where
  gov : Governor
  file : Option ByteString := none

inductive Call
  | write (op : Op)
  | evaluatePlan (plan : ExecutionPlan)
  | evaluate (workload : WorkloadId) (workloadGen : WorkloadGeneration)
      (plans : List ExecutionPlan)
  | validateForDispatch (prior : CostDecision) (candidatePlans : List ExecutionPlan)
  | workerBoot (worker : WorkerId)
  | epoch
  | policy
  | priceSchedule
  | budgets
  | findBudget (id : BudgetId)
  | attempts (request : RequestId)
  | history
  | realizedRequestCost (request : RequestId)
  | interventions
  /-- The file system takes the bytes or refuses them. -/
  | persist (written : Bool)
  | load

inductive Answer
  | reply (r : Reply)
  | economics (e : Except Exn PlanEconomics)
  | decision (d : Except Exn CostDecision)
  | status (st : Except Exn Status)
  | boot (boot : WorkerBootId)
  | epoch (epoch : CoordinatorEpoch)
  | policy (p : CostPolicy)
  | schedule (s : PriceSchedule)
  | budgets (bs : List Budget)
  | budget (b : Option Budget)
  | attempts (es : List CostEvidence)
  | history (hs : List HistoryEntry)
  | cost (c : Except Exn MoneyMicros)
  | interventions (is : List CostIntervention)

namespace Process

def exec (p : Process) : Call → Answer × Process
  | .write op => let x := p.gov.exec op; (.reply x.1, { p with gov := x.2 })
  | .evaluatePlan plan => (.economics (p.gov.evaluatePlan plan), p)
  | .evaluate workload workloadGen plans =>
    (.decision (p.gov.evaluate workload workloadGen plans), p)
  | .validateForDispatch prior plans => (.status (p.gov.validateForDispatch prior plans), p)
  | .workerBoot worker => (.boot (p.gov.currentBootFor worker), p)
  | .epoch => (.epoch p.gov.epoch, p)
  | .policy => (.policy p.gov.policy, p)
  | .priceSchedule => (.schedule p.gov.schedule, p)
  | .budgets => (.budgets p.gov.budgets.values, p)
  | .findBudget id => (.budget (p.gov.budgets.find? id), p)
  | .attempts request => (.attempts (p.gov.attemptsOf request), p)
  | .history => (.history p.gov.history, p)
  | .realizedRequestCost request => (.cost (p.gov.realizedRequestCost request), p)
  | .interventions => (.interventions p.gov.interventions.values, p)
  | .persist written => let x := p.gov.persist written p.file; (.status x.1, { p with file := x.2 })
  | .load => let x := p.gov.load p.file; (.status x.1, { p with gov := x.2 })

/-- The state after a call, whatever it answered. -/
def step (p : Process) (c : Call) : Process := (p.exec c).2

end Process

end CostGovernor
