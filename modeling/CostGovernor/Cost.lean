import CostGovernor.Price
import CostGovernor.ScopeRanks

/-!
# Cost projection

Usage amounts are converted to money with exact 64-bit integer arithmetic under
the price that one scan of the schedule selects. A pointer into the schedule is
an observation with its position. Each attempt is charged component by
component; every throw of the source is an `Except` error here, in its order.
-/

namespace CostGovernor

inductive CostComponent
  | acceleratorTime | energy | transfer | memory | residency | storage
  | retry | recovery | recomputation | other
  deriving DecidableEq

def costComponentName : CostComponent → String
  | .acceleratorTime => "accelerator_time"
  | .energy => "energy"
  | .transfer => "transfer"
  | .memory => "memory"
  | .residency => "residency"
  | .storage => "storage"
  | .retry => "retry"
  | .recovery => "recovery"
  | .recomputation => "recomputation"
  | .other => "other"

def CostComponent.all : List CostComponent :=
  [.acceleratorTime, .energy, .transfer, .memory, .residency, .storage,
    .retry, .recovery, .recomputation, .other]

structure CostEvidence where
  id : EvidenceId := {}
  request : RequestId := {}
  workload : WorkloadId := {}
  attempt : AttemptId := {}
  attemptGen : AttemptGeneration := {}
  worker : WorkerId := {}
  boot : WorkerBootId := {}
  epoch : CoordinatorEpoch := {}
  generation : EvidenceGeneration := {}
  observedAtMs : Int64 := 0
  label : DataLabel := .policy
  completedSuccessfully : Bool := false
  isCompletion : Bool := false
  device : DeviceId := {}
  resource : ResourceId := {}
  acceleratorTime : Int64 := 0
  energy : Int64 := 0
  transfer : Int64 := 0
  memoryHold : Int64 := 0
  residencyHold : Int64 := 0
  storageBytes : Int64 := 0
  requests : Int64 := 1
  tokens : Int64 := 0
  operations : Int64 := 0
  recoveryActions : Int64 := 0
  recomputeNs : Int64 := 0
  deriving DecidableEq

/-- The six measurable amounts in the order they are charged. -/
def CostEvidence.usages (ev : CostEvidence) : List (CostComponent × Int64) :=
  [(.acceleratorTime, ev.acceleratorTime), (.energy, ev.energy), (.transfer, ev.transfer),
    (.memory, ev.memoryHold), (.residency, ev.residencyHold), (.storage, ev.storageBytes)]

structure ComponentValue where
  known : Bool := false
  value : MoneyMicros := {}
  deriving DecidableEq

structure CostBreakdown where
  currency : ByteString := defaultCurrency
  label : DataLabel := .policy
  components : CostComponent → ComponentValue := fun _ => {}
  total : MoneyMicros := {}
  anyUnknown : Bool := false

def kindFor : CostComponent → Except Exn PriceKind
  | .acceleratorTime => .ok .acceleratorTime
  | .energy => .ok .energy
  | .transfer => .ok .transfer
  | .memory => .ok .memoryHolding
  | .residency => .ok .residencyHolding
  | .storage => .ok .storage
  | _ => throwStatus .invalidInput "component is not a measurable amount"

def nsPerSecond : Int64 := 1000000000
def bytesPerGB : Int64 := 1000000000
def microJoulesPerKWh : Int64 := 1000000000 * 3600000
def bytesPerGBs : Int64 := 1000000000

def denominatorFor : PriceKind → Except Exn Int64
  | .acceleratorTime => .ok nsPerSecond
  | .energy => .ok microJoulesPerKWh
  | .transfer => .ok bytesPerGB
  | .memoryHolding => .ok bytesPerGBs
  | .residencyHolding => .ok bytesPerGBs
  | .storage => .ok bytesPerGB
  | _ => throwStatus .invalidInput "no scalar unit for price kind"

def u64Max : UInt64 := 18446744073709551615

def i64Max : Int64 := 9223372036854775807

def ceilMulDiv (a b d : Int64) : Except Exn Int64 :=
  if a < 0 ∨ b < 0 ∨ d ≤ 0 then
    throwStatus .invalidInput "ceil_mul_div requires non-negative inputs"
  else if a = 0 then .ok 0
  else
    let ua := a.toUInt64
    let ub := b.toUInt64
    let ud := d.toUInt64
    if u64Max / ua < ub then throwStatus .resourceExhausted "cost multiplication overflow"
    else
      let prod := ua * ub
      let q := prod / ud
      let r := prod % ud
      if r ≠ 0 ∧ q = u64Max then throwStatus .resourceExhausted "cost rounding overflow"
      else
        let q := if r ≠ 0 then q + 1 else q
        if i64Max.toUInt64 < q then
          throwStatus .resourceExhausted "cost exceeds representable micro-units"
        else .ok q.toInt64

def obsApplies (p : PriceObservation) (want : PriceKind) (currency : ByteString) (nowMs : Int64)
    (dev : DeviceId) (res : ResourceId) (pol : Option CostPolicy) : Bool :=
  if p.kind ≠ want then false
  else if !p.validCurrency currency then false
  else if nowMs < p.validFromMs then false
  else if p.validToMs ≠ 0 ∧ p.validToMs ≤ nowMs then false
  else if p.amount.negative then false
  else if pol.any (fun pol => !pol.acceptsLabel p.label) then false
  else if dev.valid ∧ p.device.valid ∧ p.device ≠ dev then false
  else if res.valid ∧ p.resourceScope.valid ∧ p.resourceScope ≠ res then false
  else true

/-- A later observation displaces the best one so far when it is scoped to a
device or a resource and the best one is not. -/
def moreSpecific : PriceObservation → PriceObservation → Bool :=
  ScanSelection.scopeOutranks (fun o => o.device.valid) (fun o => o.resourceScope.valid)

abbrev PricePointer := PriceObservation × ℕ

def findPrice (s : PriceSchedule) (want : PriceKind) (currency : ByteString) (nowMs : Int64)
    (dev : DeviceId) (res : ResourceId) (pol : Option CostPolicy) : Option PricePointer :=
  ScanSelection.scan (fun o => obsApplies o want currency nowMs dev res pol) moreSpecific
    s.observations

def projectComponent (schedule : PriceSchedule) (comp : CostComponent) (amount : Int64)
    (currency : ByteString) (nowMs : Int64) (device : DeviceId) (resource : ResourceId) :
    Except Exn MoneyMicros := do
  let kind ← kindFor comp
  match findPrice schedule kind currency nowMs device resource none with
  | none => throwStatus .missingPrice ("no price for component " ++ costComponentName comp)
  | some p =>
    let denom ← denominatorFor p.1.kind
    let micros ← ceilMulDiv amount p.1.amount.value denom
    return MoneyMicros.fromMicros micros

def CostBreakdown.charge (bd : CostBreakdown) (c : CostComponent) (m : MoneyMicros) :
    Except Exn CostBreakdown := do
  let value ← (bd.components c).value.add m
  return { bd with components := fun c' => if c' = c then ⟨true, value⟩ else bd.components c' }

section Project

variable (schedule : PriceSchedule) (currency : ByteString) (nowMs : Int64)

def priced (ev : CostEvidence) (comp : CostComponent) (amount : Int64) : Except Exn MoneyMicros :=
  projectComponent schedule comp amount currency nowMs ev.device ev.resource

/-- Price a nonzero amount under `comp` and book it under `target`. -/
def chargeUsage (ev : CostEvidence) (target comp : CostComponent) (amount : Int64)
    (bd : CostBreakdown) : Except Exn CostBreakdown :=
  if amount = 0 then .ok bd
  else do
    let m ← priced schedule currency nowMs ev comp amount
    bd.charge target m

def chargeAttempt (bd : CostBreakdown) (ev : CostEvidence) : Except Exn CostBreakdown := do
  let bd ← ev.usages.foldlM
    (fun bd u => chargeUsage schedule currency nowMs ev u.1 u.1 u.2 bd) bd
  chargeUsage schedule currency nowMs ev .recomputation .acceleratorTime ev.recomputeNs bd

def failedCost (ev : CostEvidence) : Except Exn MoneyMicros :=
  ev.usages.foldlM (fun failed u =>
    if u.2 = 0 then .ok failed
    else do
      let m ← priced schedule currency nowMs ev u.1 u.2
      failed.add m) ⟨0⟩

def finalSuccessIndex (attempts : List CostEvidence) : Option ℕ :=
  attempts.zipIdx.foldl
    (fun last x => if x.1.isCompletion ∧ x.1.completedSuccessfully then some x.2 else last) none

def chargeRetry (success : Option ℕ) (bd : CostBreakdown) (x : CostEvidence × ℕ) :
    Except Exn CostBreakdown :=
  if some x.2 = success then .ok bd
  else if ¬ (x.1.isCompletion ∧ !x.1.completedSuccessfully) then .ok bd
  else do
    let failed ← failedCost schedule currency nowMs x.1
    bd.charge .retry failed

/-- RETRY and RECOVERY summarize amounts already counted elsewhere. -/
def sumTotal (bd : CostBreakdown) : Except Exn MoneyMicros :=
  CostComponent.all.foldlM (fun total c =>
    if c ≠ .retry ∧ c ≠ .recovery ∧ (bd.components c).known then
      total.add (bd.components c).value
    else .ok total) ⟨0⟩

def project (attempts : List CostEvidence) : Except Exn CostBreakdown := do
  let bd ← attempts.foldlM (chargeAttempt schedule currency nowMs) { currency := currency }
  let bd ← attempts.zipIdx.foldlM
    (chargeRetry schedule currency nowMs (finalSuccessIndex attempts)) bd
  let total ← sumTotal bd
  return { bd with total := total, anyUnknown := attempts.any (fun ev => ev.label = .unsupported) }

end Project

end CostGovernor
