import CostGovernor.Coordinator
import CostGovernor.SessionLoop

/-!
# The methods of a client and the frames of replies

A client method writes a request, waits for one frame and reads its result from that
payload, without looking at the frame's type. A request that can be sent arrives as
`message` says: plans lose the fields the codec does not carry, and a request with more
than 4096 of them is malformed.
-/

namespace CostGovernor

open ByteStreams SegmentedStreams

def Status.byte (st : Status) : UInt8 := UInt8.ofNat st.ctorIdx

def DecisionKind.byte (kind : DecisionKind) : UInt8 := UInt8.ofNat kind.ctorIdx

def CostState.byte (state : CostState) : UInt8 := UInt8.ofNat state.ctorIdx

namespace Cgproto

/-- The decision summary sent over the wire. -/
structure DecisionResult where
  kind : UInt8 := 0
  selected : UInt64 := 0
  totalMicros : Int64 := 0
  rejectedCount : UInt64 := 0
  state : UInt8 := 0
  status : UInt8 := 0
  deriving DecidableEq

def decodeDecision : Read DecisionResult := do
  let kind ← Reader.u8
  let selected ← Reader.u64
  let totalMicros ← Reader.i64
  let rejectedCount ← Reader.u64
  let state ← Reader.u8
  let status ← Reader.u8
  return { kind, selected, totalMicros, rejectedCount, state, status }

def DecisionResult.summary (d : CostDecision) : DecisionResult :=
  { kind := d.kind.byte, selected := d.selectedPlan.value, totalMicros := d.projected.total.value
    rejectedCount := UInt64.ofNat d.rejectedPlans.length, state := d.state.byte
    status := d.status.byte }

inductive ClientCall
  | hello (worker : WorkerId) (boot : WorkerBootId)
  | publish (o : PriceObservation)
  | eval (workload : WorkloadId) (workloadGen : WorkloadGeneration) (plans : List ExecutionPlan)
  | record (e : CostEvidence)
  | realize (request : RequestId) (workload : WorkloadId)
  | revalidate (plans : List ExecutionPlan)
  | state

/-- The results of the methods; a status is the byte that is cast to it. -/
inductive ClientResult
  | greeted
  | status (st : UInt8)
  | decision (d : DecisionResult)
  | realized (st : UInt8) (cost : Int64)
  | state (epoch priceGen policyGen budgets obs : UInt64)
  deriving DecidableEq

namespace ClientCall

def frame : ClientCall → Frame
  | .hello worker boot => (.hello, List.flatten [putId worker, putId boot])
  | .publish o => (.publishPrice, encodePrice o)
  | .eval workload workloadGen plans => (.requestEval, evalRequest workload workloadGen plans)
  | .record e => (.recordAttempt, encodeEvidence e)
  | .realize request workload => (.realize, List.flatten [putId request, putId workload])
  | .revalidate plans =>
    (.revalidate, List.flatten [Writer.u32 plans.length, (plans.map encodePlan).flatten])
  | .state => (.getState, [])

def readStatus : Read ClientResult := ClientResult.status <$> Reader.u8

def reader : ClientCall → Read ClientResult
  | .hello _ _ => pure .greeted
  | .publish _ | .record _ | .revalidate _ => readStatus
  | .eval _ _ _ => ClientResult.decision <$> decodeDecision
  | .realize _ _ => do
    let st ← Reader.u8
    let cost ← Reader.i64
    return .realized st cost
  | .state => do
    let epoch ← Reader.u64
    let priceGen ← Reader.u64
    let policyGen ← Reader.u64
    let budgets ← Reader.u64
    let obs ← Reader.u64
    return .state epoch priceGen policyGen budgets obs

def read (q : ClientCall) (payload : ByteString) : Except RuntimeError ClientResult :=
  Prod.fst <$> q.reader payload

/-- The message that arrives. -/
def message : ClientCall → Message
  | .hello worker boot => .hello worker boot
  | .publish o => .publishPrice o
  | .eval workload workloadGen plans =>
    if maxPlans < plans.length then .malformed
    else .requestEval workload workloadGen (plans.map wirePlan)
  | .record e => .recordAttempt e
  | .realize request workload => .realize request workload
  | .revalidate plans =>
    if maxPlans < plans.length then .malformed else .revalidate (plans.map wirePlan)
  | .state => .getState

end ClientCall

section Requests

end Requests

end Cgproto

end CostGovernor
