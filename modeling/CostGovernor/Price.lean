import CostGovernor.Identity
import CostGovernor.Money

/-!
# Price observations and the cost policy

Enumerations that arrive as bytes keep every byte value: `raw` holds the bytes
without an enumerator, together with the proof that they have none.
-/

namespace CostGovernor

inductive PriceKind
  | acceleratorTime | energy | transfer | memoryHolding | storage | residencyHolding
  | request | token | operation | customTypedComponent
  | raw (byte : UInt8) (unnamed : 10 ≤ byte)
  deriving DecidableEq

inductive Provenance
  | configuredPolicy | measured | reported | derived | synthetic | unknown
  | raw (byte : UInt8) (unnamed : 6 ≤ byte)
  deriving DecidableEq

inductive DataLabel
  | real | synthetic | policy | unsupported
  | raw (byte : UInt8) (unnamed : 4 ≤ byte)
  deriving DecidableEq

structure PriceObservation where
  id : EvidenceId := {}
  kind : PriceKind := .acceleratorTime
  resourceScope : ResourceId := {}
  device : DeviceId := {}
  amount : MoneyMicros := {}
  currency : ByteString := defaultCurrency
  provenance : Provenance := .configuredPolicy
  label : DataLabel := .policy
  validFromMs : Int64 := 0
  validToMs : Int64 := 0
  observedAtMs : Int64 := 0
  generation : EvidenceGeneration := {}
  epoch : CoordinatorEpoch := {}
  worker : WorkerId := {}
  boot : WorkerBootId := {}
  deriving DecidableEq

def PriceObservation.validCurrency (o : PriceObservation) (policyCurrency : ByteString) : Bool :=
  decide (o.currency = policyCurrency)

structure PriceSchedule where
  id : PriceScheduleId := {}
  generation : PriceScheduleGeneration := {}
  observations : List PriceObservation := []
  createdAtMs : Int64 := 0
  deriving DecidableEq

inductive RankingMode
  | lexicographic | weightedScore
  | raw (byte : UInt8) (unnamed : 2 ≤ byte)
  deriving DecidableEq

structure CostPolicy where
  id : CostPolicyId := {}
  generation : CostPolicyGeneration := {}
  epoch : CoordinatorEpoch := {}
  currency : ByteString := defaultCurrency
  ranking : RankingMode := .lexicographic
  minEvidenceFreshnessMs : Int64 := 0
  maxEvidenceAgeMs : Int64 := 30000
  priceScheduleMaxAgeMs : Int64 := 30000
  maxProjectionUncertainty : Int64 := 100
  hysteresisMs : Int64 := 0
  cooldownMs : Int64 := 0
  nearBudgetPercent : Int64 := 80
  atRiskPercent : Int64 := 90
  retryBudget : MoneyMicros := {}
  recoveryBudget : MoneyMicros := {}
  recoveryCostKnown : Bool := false
  allowSynthetic : Bool := false
  allowPolicy : Bool := true
  allowMeasured : Bool := true
  deriving DecidableEq

def CostPolicy.acceptsLabel (p : CostPolicy) : DataLabel → Bool
  | .real => p.allowMeasured
  | .policy => p.allowPolicy
  | .synthetic => p.allowSynthetic
  | .unsupported => false
  | .raw _ _ => false

end CostGovernor
