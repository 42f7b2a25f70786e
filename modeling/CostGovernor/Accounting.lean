import CostGovernor.Governor

/-!
# Budget accounting

`reserve`, `commit`, `release` and `consume` with every early return and every
point at which checked arithmetic throws. State already written when an
exception leaves a call stays written, so each call returns its result, the
caller's handle and the state after it.
-/

namespace CostGovernor

namespace Governor

def setBudget (g : Governor) (id : BudgetId) (b : Budget) : Governor :=
  { g with budgets := g.budgets.set id b }

def createBudget (g : Governor) (budget : Budget) : Status × Governor :=
  if budget.limit.negative then (.invalidInput, g)
  else if budget.currency ≠ g.policy.currency then (.currencyMismatch, g)
  else if budget.epoch ≠ g.epoch then (.staleAuthority, g)
  else if budget.policyGeneration ≠ g.policy.generation then (.staleAuthority, g)
  else if (g.budgets.find? budget.id).isSome then (.invalidInput, g)
  else (.ok, { g with budgets := g.budgets.emplace budget.id { budget with lifecycle := .active } })

def grantedHandle (g : Governor) (budget : BudgetId) (gen : BudgetGeneration)
    (epoch : CoordinatorEpoch) (amount : MoneyMicros) (b : Budget) : BudgetReservation :=
  { id := ⟨g.nextReservation⟩, budget := budget, budgetGeneration := gen, epoch := epoch,
    amount := amount, createdAtMs := g.now, expiresAtMs := b.expiresAtMs }

abbrev ReserveResult := Except Exn Status × Option BudgetReservation × Governor

def reserve (g : Governor) (budget : BudgetId) (gen : BudgetGeneration) (epoch : CoordinatorEpoch)
    (amount : MoneyMicros) : ReserveResult :=
  match g.budgets.find? budget with
  | none => (.ok .invalidInput, none, g)
  | some b =>
    if b.generation ≠ gen ∨ b.epoch ≠ epoch then (.ok .staleAuthority, none, g)
    else if b.epoch ≠ g.epoch then (.ok .staleAuthority, none, g)
    else if !b.isLive then (.ok .budgetExpired, none, g)
    else if b.pastExpiry g.now then
      (.ok .budgetExpired, none, g.setBudget budget { b with lifecycle := .expired })
    else if amount.negative then (.ok .invalidInput, none, g)
    else
      match b.reserved.add amount with
      | .error e => (.error e, none, g)
      | .ok reservedAfter =>
        if b.limit < reservedAfter then (.ok .budgetExceeded, none, g)
        else
          let r := grantedHandle g budget gen epoch amount b
          (.ok .ok, some r, { g with
            budgets := g.budgets.set budget
              { b with reserved := reservedAfter, lifecycle := .reserved }
            reservations := g.reservations.set budget
              ((g.reservations.find? budget).getD [] ++ [r])
            nextReservation := g.nextReservation + 1 })

abbrev HandleResult := Except Exn Status × BudgetReservation × Governor

def commit (g : Governor) (r : BudgetReservation) : HandleResult :=
  match g.budgets.find? r.budget with
  | none => (.ok .invalidInput, r, g)
  | some b =>
    if b.generation ≠ r.budgetGeneration then (.ok .staleAuthority, r, g)
    else if r.epoch ≠ g.epoch then (.ok .staleAuthority, r, g)
    else if b.epoch ≠ g.epoch then (.ok .staleAuthority, r, g)
    else if r.state ≠ .active then (.ok .ok, r, g)
    else if !b.isLive then (.ok .budgetExpired, r, g)
    else if r.pastExpiry g.now then
      let r := { r with state := .expired }
      match b.reserved.sub r.amount with
      | .error e => (.error e, r, g)
      | .ok reserved =>
        match b.released.add r.amount with
        | .error e => (.error e, r, g.setBudget r.budget { b with reserved := reserved })
        | .ok released =>
          (.ok .budgetExpired, r,
            g.setBudget r.budget { b with reserved := reserved, released := released })
    else
      match b.consumed.add r.amount with
      | .error e => (.error e, r, g)
      | .ok consumedAfter =>
        if b.mode = .hard ∧ b.limit < consumedAfter then (.ok .budgetExceeded, r, g)
        else
          match b.reserved.sub r.amount with
          | .error e => (.error e, r, g)
          | .ok reserved =>
            (.ok .ok, { r with state := .committed },
              g.setBudget r.budget { b with
                reserved := reserved, consumed := consumedAfter
                lifecycle := Budget.lifecycleAfterCharge consumedAfter b.limit })

/-- The lifecycle `release` writes, from the stored copies of all grants. -/
def lifecycleAfterRelease (grants : List BudgetReservation) (consumed : MoneyMicros) :
    BudgetLifecycle :=
  if grants.any (fun r => r.state = .active) then .reserved
  else if consumed.isZero then .active
  else .partiallyConsumed

def release (g : Governor) (r : BudgetReservation) : HandleResult :=
  match g.budgets.find? r.budget with
  | none => (.ok .invalidInput, r, g)
  | some b =>
    if b.generation ≠ r.budgetGeneration then (.ok .staleAuthority, r, g)
    else if r.epoch ≠ g.epoch then (.ok .staleAuthority, r, g)
    else if r.state ≠ .active then (.ok .ok, r, g)
    else
      match b.reserved.sub r.amount with
      | .error e => (.error e, r, g)
      | .ok reserved =>
        match b.released.add r.amount with
        | .error e => (.error e, r, g.setBudget r.budget { b with reserved := reserved })
        | .ok released =>
          (.ok .ok, { r with state := .released }, { g with
            budgets := g.budgets.set r.budget { b with
              reserved := reserved, released := released
              lifecycle := lifecycleAfterRelease
                ((g.reservations.find? r.budget).getD []) b.consumed }
            reservations := g.reservations.emplace r.budget [] })

def consume (g : Governor) (budget : BudgetId) (gen : BudgetGeneration) (epoch : CoordinatorEpoch)
    (amount : MoneyMicros) : Except Exn Status × Governor :=
  match g.budgets.find? budget with
  | none => (.ok .invalidInput, g)
  | some b =>
    if b.generation ≠ gen ∨ b.epoch ≠ epoch then (.ok .staleAuthority, g)
    else if !b.isLive then (.ok .budgetExpired, g)
    else if amount.negative then (.ok .invalidInput, g)
    else if b.pastExpiry g.now then
      (.ok .budgetExpired, g.setBudget budget { b with lifecycle := .expired })
    else
      match b.consumed.add amount with
      | .error e => (.error e, g)
      | .ok consumedAfter =>
        if b.mode = .hard ∧ b.limit < consumedAfter then (.ok .budgetExceeded, g)
        else
          (.ok .ok, g.setBudget budget { b with
            consumed := consumedAfter
            lifecycle := Budget.lifecycleAfterCharge consumedAfter b.limit })

end Governor

end CostGovernor
