import CostGovernor.FiniteMaps
import CostGovernor.Budget
import CostGovernor.Decision

/-!
# Governor state, configuration and evidence intake

`Governor` is the state behind the governor's single lock, with the clock's
reading as one of its fields. A call runs under the lock, so it is one function
of the state. Calls that reject leave through a status.
-/

namespace CostGovernor

structure Governor where
  now : Int64 := 0
  policy : CostPolicy := {}
  schedule : PriceSchedule := {}
  epoch : CoordinatorEpoch := {}
  workerBoots : OrderedMap WorkerId WorkerBootId := .empty
  revalidationNeeded : Bool := false
  budgets : HashedMap BudgetId Budget := .empty
  attempts : HashedMap RequestId (OrderedMap AttemptId CostEvidence) := .empty
  reservations : HashedMap BudgetId (List BudgetReservation) := .empty
  history : List HistoryEntry := []
  interventions : HashedMap InterventionId CostIntervention := .empty
  nextReservation : UInt64 := 1
  nextIntervention : UInt64 := 1
  store : Bool := false

namespace Governor

def fresh (now : Int64) : Governor where
  now := now
  policy := { id := ⟨1⟩, generation := ⟨1⟩, epoch := ⟨1⟩ }
  epoch := ⟨1⟩

def setStatePath (g : Governor) : Governor := { g with store := true }

def setClock (g : Governor) (now : Int64) : Governor := { g with now := now }

def setPolicy (g : Governor) (p : CostPolicy) : Governor :=
  { g with policy := p, epoch := p.epoch, revalidationNeeded := true }

def setPriceSchedule (g : Governor) (s : PriceSchedule) : Governor :=
  { g with schedule := s, revalidationNeeded := false }

def advanceEpoch (g : Governor) : Governor :=
  { g with epoch := g.epoch.succ, revalidationNeeded := true }

def setWorkerBoot (g : Governor) (worker : WorkerId) (boot : WorkerBootId) : Governor :=
  { g with workerBoots := g.workerBoots.set worker boot }

def currentBootFor (g : Governor) (worker : WorkerId) : WorkerBootId :=
  (g.workerBoots.find? worker).getD {}

def replaceObservation (obs : PriceObservation) : List PriceObservation → Option (List PriceObservation)
  | [] => none
  | o :: os =>
    if o.id = obs.id then some (obs :: os)
    else (replaceObservation obs os).map (o :: ·)

def publishPrice (g : Governor) (obs : PriceObservation) : Status × Governor :=
  if obs.epoch ≠ g.epoch then (.staleAuthority, g)
  else if obs.boot.valid ∧ obs.boot ≠ g.currentBootFor obs.worker then (.staleAuthority, g)
  else if !obs.validCurrency g.policy.currency then (.currencyMismatch, g)
  else if obs.amount.negative then (.invalidInput, g)
  else
    let observations := (replaceObservation obs g.schedule.observations).getD
      (g.schedule.observations ++ [obs])
    (.ok, { g with
      schedule := { g.schedule with
        observations := observations, generation := g.schedule.generation.succ }
      revalidationNeeded := false })

def anyNegative (e : CostEvidence) : Bool :=
  e.acceleratorTime < 0 || e.energy < 0 || e.transfer < 0 || e.memoryHold < 0 ||
    e.residencyHold < 0 || e.storageBytes < 0 || e.recomputeNs < 0 || e.tokens < 0 ||
    e.operations < 0

/-- Reading the request's attempts creates an empty map for an unknown request. -/
def recordAttempt (g : Governor) (e : CostEvidence) : Status × Governor :=
  if e.epoch ≠ g.epoch then (.staleAuthority, g)
  else if e.boot ≠ g.currentBootFor e.worker then (.staleAuthority, g)
  else if e.label = .unsupported then (.invalidInput, g)
  else if anyNegative e then (.invalidInput, g)
  else
    let req := (g.attempts.find? e.request).getD .empty
    match req.find? e.attempt with
    | some old =>
      if old.attemptGen = e.attemptGen then
        (.invalidInput, { g with attempts := g.attempts.emplace e.request .empty })
      else (.ok, { g with attempts := g.attempts.set e.request (req.set e.attempt e) })
    | none => (.ok, { g with attempts := g.attempts.set e.request (req.set e.attempt e) })

def proposeIntervention (g : Governor) (i : CostIntervention) :
    Status × CostIntervention × Governor :=
  let i := { i with
    id := ⟨g.nextIntervention⟩, generation := ⟨1⟩, lifecycle := .proposed, createdAtMs := g.now }
  (.ok, i, { g with
    interventions := g.interventions.emplace i.id i, nextIntervention := g.nextIntervention + 1 })

def authorizeIntervention (g : Governor) (id : InterventionId) (gen : InterventionGeneration) :
    Status × Governor :=
  match g.interventions.find? id with
  | none => (.invalidInput, g)
  | some i =>
    if i.generation ≠ gen then (.staleAuthority, g)
    else if i.lifecycle ≠ .proposed then (.interventionFailed, g)
    else (.ok, { g with interventions := g.interventions.set id { i with lifecycle := .authorized } })

def acknowledgeIntervention (g : Governor) (id : InterventionId) (gen : InterventionGeneration) :
    Status × Governor :=
  match g.interventions.find? id with
  | none => (.invalidInput, g)
  | some i =>
    if i.generation ≠ gen then (.staleAuthority, g)
    else if i.lifecycle ≠ .authorized ∧ i.lifecycle ≠ .dispatched then (.interventionFailed, g)
    else (.ok, { g with
      interventions := g.interventions.set id
        { i with lifecycle := .acknowledged, acknowledgedAtMs := g.now } })

def verifyIntervention (g : Governor) (id : InterventionId) (gen : InterventionGeneration)
    (postEvidence : List CostEvidence) : VerificationOutcome × Governor :=
  match g.interventions.find? id with
  | none => (.outcomeUnknown, g)
  | some i =>
    if i.generation ≠ gen then (.outcomeUnknown, g)
    else if postEvidence.isEmpty then (.insufficientPostActionEvidence, g)
    else if i.lifecycle ≠ .acknowledged ∧ i.lifecycle ≠ .dispatched then (.outcomeUnknown, g)
    else (.effective, { g with
      interventions := g.interventions.set id
        { i with lifecycle := .effective, verifiedAtMs := g.now } })

def attemptsOf (g : Governor) (request : RequestId) : List CostEvidence :=
  ((g.attempts.find? request).map OrderedMap.values).getD []

def realizedRequestCost (g : Governor) (request : RequestId) : Except Exn MoneyMicros :=
  match g.attempts.find? request with
  | none => .ok ⟨0⟩
  | some req => do
    let bd ← project g.schedule g.policy.currency g.now req.values
    return bd.total

/-- Appends the realized cost of a request once. -/
def finalizeRequest (g : Governor) (request : RequestId) (workload : WorkloadId) :
    Except Exn Status × Governor :=
  if g.history.any (fun h => h.request = request) then (.ok .ok, g)
  else
    match g.attempts.find? request with
    | none => (.ok .invalidInput, g)
    | some req =>
      match project g.schedule g.policy.currency g.now req.values with
      | .error e => (.error e, g)
      | .ok bd =>
        (.ok .ok, { g with
          history := g.history ++ [{
            request := request, workload := workload, completedAtMs := g.now,
            realizedCost := bd.total, attempts := Int64.ofNat req.values.length, tokens := 0 }] })

end Governor

end CostGovernor
