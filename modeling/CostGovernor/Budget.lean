import CostGovernor.Price

/-!
# Budgets and reservations

A budget is a generation-bound monetary limit with three running totals. A
reservation is the caller-held handle of a granted part of the limit.
-/

namespace CostGovernor

inductive BudgetMode
  | hard | soft | advisory
  | raw (byte : UInt8) (unnamed : 3 ≤ byte)
  deriving DecidableEq

inductive BudgetObjective
  | maxCostPerRequest | maxCostPerToken | maxCostPerOperation | maxTotalExecutionCost
  | maxAcceleratorTimeCost | maxEnergyCost | maxTransferCost | maxRecoveryCost | maxRetryCost
  | raw (byte : UInt8) (unnamed : 9 ≤ byte)
  deriving DecidableEq

inductive BudgetLifecycle
  | created | active | reserved | partiallyConsumed | exhausted | expired | cancelled
  | superseded | closed
  | raw (byte : UInt8) (unnamed : 9 ≤ byte)
  deriving DecidableEq

namespace BudgetLifecycle

def isLive : BudgetLifecycle → Bool
  | .active | .reserved | .partiallyConsumed => true
  | _ => false

def isTerminal : BudgetLifecycle → Bool
  | .exhausted | .expired | .cancelled | .superseded | .closed => true
  | _ => false

theorem isTerminal_of_isLive {l : BudgetLifecycle} (h : l.isLive = true) : l.isTerminal = false := by
  cases l <;> simp_all [isLive, isTerminal]

end BudgetLifecycle

structure Budget where
  id : BudgetId := {}
  generation : BudgetGeneration := {}
  policyGeneration : CostPolicyGeneration := {}
  epoch : CoordinatorEpoch := {}
  currency : ByteString := defaultCurrency
  mode : BudgetMode := .hard
  objective : BudgetObjective := .maxTotalExecutionCost
  limit : MoneyMicros := {}
  lifecycle : BudgetLifecycle := .created
  reserved : MoneyMicros := {}
  consumed : MoneyMicros := {}
  released : MoneyMicros := {}
  createdAtMs : Int64 := 0
  expiresAtMs : Int64 := 0
  label : DataLabel := .policy
  deriving DecidableEq

namespace Budget

def isLive (b : Budget) : Bool := b.lifecycle.isLive

def isTerminal (b : Budget) : Bool := b.lifecycle.isTerminal

def remaining (b : Budget) : Except Exn MoneyMicros := b.limit.sub b.consumed

def pastExpiry (b : Budget) (now : Int64) : Bool :=
  decide (b.expiresAtMs ≠ 0 ∧ b.expiresAtMs < now)

/-- The lifecycle `commit` and `consume` write after a charge. -/
def lifecycleAfterCharge (consumed limit : MoneyMicros) : BudgetLifecycle :=
  if consumed < limit then .partiallyConsumed else .exhausted

end Budget

inductive ReservationState
  | active | committed | released | expired
  deriving DecidableEq

structure BudgetReservation where
  id : ReservationId := {}
  budget : BudgetId := {}
  budgetGeneration : BudgetGeneration := {}
  epoch : CoordinatorEpoch := {}
  amount : MoneyMicros := {}
  createdAtMs : Int64 := 0
  expiresAtMs : Int64 := 0
  state : ReservationState := .active
  deriving DecidableEq

def BudgetReservation.pastExpiry (r : BudgetReservation) (now : Int64) : Bool :=
  decide (r.expiresAtMs ≠ 0 ∧ r.expiresAtMs < now)

end CostGovernor
