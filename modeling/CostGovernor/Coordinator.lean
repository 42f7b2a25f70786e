import CostGovernor.Evaluation
import CostGovernor.EvidenceIntake
import CostGovernor.Executions
import CostGovernor.Snapshot

/-!
# The coordinator

Every connection has a session thread and each message is handled in a few
steps: a section under one lock (the governor's, the one around the shared
reservation map, or the one around the last decision) or one of the reads of
GET_STATE, which takes its five values one after the other and most of them
without a lock. `SessionState` says where a handler stands between two steps, so
a list of events is an interleaving of any number of sessions. An exception ends
the handler with a status reply and drops its local copies.
-/

namespace CostGovernor

open Executions

inductive SettleKind
  | commit | release
  deriving DecidableEq

inductive Message
  | hello (worker : WorkerId) (boot : WorkerBootId)
  | publishPrice (obs : PriceObservation)
  | requestEval (workload : WorkloadId) (workloadGen : WorkloadGeneration)
      (plans : List ExecutionPlan)
  | recordAttempt (e : CostEvidence)
  | reserve (budget : BudgetId) (gen : BudgetGeneration) (epoch : CoordinatorEpoch)
      (amount : MoneyMicros)
  | settle (kind : SettleKind) (token : ReservationId)
  | realize (request : RequestId) (workload : WorkloadId)
  | getState
  | revalidate (plans : List ExecutionPlan)
  | quit
  /-- A payload its decoder throws on. -/
  | malformed
  /-- An unknown type, or a frame that `recv` throws on. -/
  | unknown

inductive CoordinatorReply
  | status (st : Status)
  | welcome (epoch : CoordinatorEpoch) (boot : WorkerBootId)
  | decision (d : CostDecision)
  | reservation (st : Status) (r : Option BudgetReservation)
  | realized (st : Status) (cost : MoneyMicros)
  | report (epoch : CoordinatorEpoch) (priceGen : PriceScheduleGeneration)
      (policyGen : CostPolicyGeneration) (budgets observations : ℕ)

/-- The values GET_STATE has read so far. -/
inductive StateReads
  | epoch (epoch : CoordinatorEpoch)
  | prices (epoch : CoordinatorEpoch) (priceGen : PriceScheduleGeneration)
  | policy (epoch : CoordinatorEpoch) (priceGen : PriceScheduleGeneration)
      (policyGen : CostPolicyGeneration)
  | budgets (epoch : CoordinatorEpoch) (priceGen : PriceScheduleGeneration)
      (policyGen : CostPolicyGeneration) (budgets : ℕ)

/-- Where the handler of a session stands. -/
inductive SessionState
  | idle
  /-- The governor has accepted a write and `persist` has not begun. -/
  | persisting (st : Status)
  /-- `persist` has copied the snapshot and not saved it. -/
  | saving (st : Status) (snap : DurableSnapshot)
  | evaluated (d : CostDecision)
  /-- `reserve` has returned OK and the handle is not in the map yet. -/
  | granted (r : BudgetReservation)
  /-- The reservation has been copied out of the map. -/
  | copied (kind : SettleKind) (token : ReservationId) (r : BudgetReservation)
  /-- The governor has settled the copy, which is not written back yet. -/
  | settled (token : ReservationId) (r : BudgetReservation) (st : Status)
  | finalized (request : RequestId) (st : Status)
  | reading (reads : StateReads)
  | revalidating (last : CostDecision) (plans : List ExecutionPlan)

structure Coordinator where
  gov : Governor
  file : Option DurableSnapshot := none
  reservations : OrderedMap ReservationId BudgetReservation := .empty
  lastDecision : CostDecision := {}
  sessions : ℕ → SessionState := fun _ => .idle
  replies : List (ℕ × CoordinatorReply) := []

inductive Event
  /-- Session `s` receives a message and takes the first step of its handler. -/
  | message (s : ℕ) (m : Message)
  /-- Session `s` takes the next step of its handler; a save may fail. -/
  | resume (s : ℕ) (saved : Bool)

def maxPlans : ℕ := 4096

namespace Coordinator

def setSession (c : Coordinator) (s : ℕ) (st : SessionState) : Coordinator :=
  { c with sessions := Function.update c.sessions s st }

def finish (c : Coordinator) (s : ℕ) (reply : CoordinatorReply) : Coordinator :=
  { c.setSession s .idle with replies := c.replies ++ [(s, reply)] }

def fail (c : Coordinator) (s : ℕ) : Coordinator := c.finish s (.status .interventionFailed)

def afterWrite (c : Coordinator) (s : ℕ) (x : Status × Governor) : Coordinator :=
  if x.1 = .ok then { c with gov := x.2 }.setSession s (.persisting x.1)
  else { c with gov := x.2 }.finish s (.status x.1)

def afterReserve (c : Coordinator) (s : ℕ) : Governor.ReserveResult → Coordinator
  | (.error _, _, g) => { c with gov := g }.fail s
  | (.ok .ok, some r, g) => { c with gov := g }.setSession s (.granted r)
  | (.ok st, _, g) => { c with gov := g }.finish s (.reservation st none)

/-- The first step of a handler. -/
def receive (c : Coordinator) (s : ℕ) : Message → Coordinator
  | .hello worker boot =>
    { c with gov := c.gov.setWorkerBoot worker boot }.finish s (.welcome c.gov.epoch boot)
  | .publishPrice obs => c.afterWrite s (c.gov.publishPrice obs)
  | .requestEval workload workloadGen plans =>
    if maxPlans < plans.length then c.fail s
    else
      match c.gov.evaluate workload workloadGen plans with
      | .error _ => c.fail s
      | .ok d => c.setSession s (.evaluated d)
  | .recordAttempt e => c.afterWrite s (c.gov.recordAttempt e)
  | .reserve budget gen epoch amount => c.afterReserve s (c.gov.reserve budget gen epoch amount)
  | .settle kind token =>
    match c.reservations.find? token with
    | none => c.finish s (.status .invalidInput)
    | some r => c.setSession s (.copied kind token r)
  | .realize request workload =>
    match c.gov.finalizeRequest request workload with
    | (.error _, g) => { c with gov := g }.fail s
    | (.ok st, g) => { c with gov := g }.setSession s (.finalized request st)
  | .getState => c.setSession s (.reading (.epoch c.gov.epoch))
  | .revalidate plans =>
    if maxPlans < plans.length then c.fail s
    else c.setSession s (.revalidating c.lastDecision plans)
  | .quit => c
  | .malformed => c.fail s
  | .unknown => c.finish s (.status .protocolError)

/-- The governor call of a COMMIT or RELEASE handler, on the session's own copy. -/
def settleCall (g : Governor) : SettleKind → BudgetReservation → Governor.HandleResult
  | .commit, r => g.commit r
  | .release, r => g.release r

def afterSettle (c : Coordinator) (s : ℕ) (token : ReservationId) :
    Governor.HandleResult → Coordinator
  | (.error _, _, g) => { c with gov := g }.fail s
  | (.ok st, r, g) => { c with gov := g }.setSession s (.settled token r st)

/-- The next read of GET_STATE; only the budgets are counted under the lock. -/
def afterRead (c : Coordinator) (s : ℕ) : StateReads → Coordinator
  | .epoch epoch => c.setSession s (.reading (.prices epoch c.gov.schedule.generation))
  | .prices epoch priceGen =>
    c.setSession s (.reading (.policy epoch priceGen c.gov.policy.generation))
  | .policy epoch priceGen policyGen =>
    c.setSession s (.reading (.budgets epoch priceGen policyGen c.gov.budgets.values.length))
  | .budgets epoch priceGen policyGen budgets =>
    c.finish s (.report epoch priceGen policyGen budgets c.gov.schedule.observations.length)

/-- The later steps of a handler. -/
def proceed (c : Coordinator) (s : ℕ) (saved : Bool) : SessionState → Coordinator
  | .idle => c
  | .persisting st => c.setSession s (.saving st c.gov.snapshot)
  | .saving st snap =>
    { c with file := if saved then some snap else c.file }.finish s (.status st)
  | .evaluated d => { c with lastDecision := d }.finish s (.decision d)
  | .granted r =>
    { c with reservations := c.reservations.set r.id r }.finish s (.reservation .ok (some r))
  | .copied kind token r => c.afterSettle s token (settleCall c.gov kind r)
  | .settled token r st =>
    { c with reservations := c.reservations.set token r }.finish s (.status st)
  | .finalized request st =>
    match c.gov.realizedRequestCost request with
    | .error _ => c.fail s
    | .ok cost => c.finish s (.realized st cost)
  | .reading reads => c.afterRead s reads
  | .revalidating last plans =>
    match c.gov.validateForDispatch last plans with
    | .error _ => c.fail s
    | .ok st => c.finish s (.status st)

/-- A session in the middle of a handler reads no further message. -/
def step (c : Coordinator) : Event → Coordinator
  | .message s m =>
    match c.sessions s with
    | .idle => c.receive s m
    | _ => c
  | .resume s saved => c.proceed s saved (c.sessions s)

def startTime : Int64 := 1000000000

def startPolicy : CostPolicy :=
  { epoch := ⟨1⟩, generation := ⟨1⟩, maxEvidenceAgeMs := 120000, priceScheduleMaxAgeMs := 120000
    allowPolicy := true, allowMeasured := true, allowSynthetic := true }

/-- The governor before the state file is looked at. -/
def startGovernor : Governor :=
  ((Governor.fresh startTime).setStatePath).setPolicy startPolicy

def boot (file : Option DurableSnapshot) : Coordinator :=
  match file with
  | some snap => { gov := (startGovernor.restore snap).advanceEpoch, file := file }
  | none =>
    let g := startGovernor.setPriceSchedule
      { id := ⟨1⟩, generation := ⟨1⟩, createdAtMs := startTime }
    { gov := (g.createBudget
        { id := ⟨1⟩, generation := ⟨1⟩, policyGeneration := g.policy.generation, epoch := g.epoch
          limit := MoneyMicros.fromUnits 1, mode := .hard }).2
      file := file }

theorem boot_sessions (file : Option DurableSnapshot) (s : ℕ) : (boot file).sessions s = .idle := by
  cases file <;> rfl

theorem boot_reservations (file : Option DurableSnapshot) : (boot file).reservations = .empty := by
  cases file <;> rfl

end Coordinator

structure Governor.Steady (g g' : Governor) : Prop where
  epoch : g'.epoch = g.epoch
  nextReservation : g'.nextReservation = g.nextReservation

namespace Governor

theorem steady_refl (g : Governor) : Steady g g := ⟨rfl, rfl⟩

theorem publishPrice_steady (g : Governor) (obs : PriceObservation) :
    Steady g (g.publishPrice obs).2 := by
  have h := g.publishPrice_cases obs
  generalize g.publishPrice obs = x at h ⊢
  cases h <;> exact ⟨rfl, rfl⟩

theorem recordAttempt_steady (g : Governor) (e : CostEvidence) :
    Steady g (g.recordAttempt e).2 := by
  have h := g.recordAttempt_cases e
  generalize g.recordAttempt e = x at h ⊢
  cases h <;> exact ⟨rfl, rfl⟩

theorem finalizeRequest_steady (g : Governor) (request : RequestId) (workload : WorkloadId) :
    Steady g (g.finalizeRequest request workload).2 := by
  have h := g.finalizeRequest_cases request workload
  generalize g.finalizeRequest request workload = x at h ⊢
  cases h <;> exact ⟨rfl, rfl⟩

theorem commit_steady (g : Governor) (r : BudgetReservation) : Steady g (g.commit r).2.2 := by
  have h := g.commit_cases r
  generalize g.commit r = x at h ⊢
  cases h <;> exact ⟨rfl, rfl⟩

theorem release_steady (g : Governor) (r : BudgetReservation) : Steady g (g.release r).2.2 := by
  have h := g.release_cases r
  generalize g.release r = x at h ⊢
  cases h <;> exact ⟨rfl, rfl⟩

end Governor

theorem Coordinator.settleCall_steady (g : Governor) (kind : SettleKind) (r : BudgetReservation) :
    g.Steady (settleCall g kind r).2.2 := by
  cases kind with
  | commit => exact g.commit_steady r
  | release => exact g.release_steady r

end CostGovernor
