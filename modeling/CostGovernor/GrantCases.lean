import CostGovernor.Accounting

/-!
# What creating, reserving and committing can do

Each budget call has one inductive relation listing everything it can do;
invariants are proved from these relations.
-/

namespace CostGovernor

namespace Governor

inductive CreateCase (g : Governor) (budget : Budget) : Status × Governor → Prop
  | refused (st : Status) (hst : st ≠ .ok) : CreateCase g budget (st, g)
  | created (hlimit : 0 ≤ budget.limit.toInt) (hepoch : budget.epoch = g.epoch)
      (hnew : g.budgets.find? budget.id = none) :
      CreateCase g budget (.ok, { g with
        budgets := g.budgets.emplace budget.id { budget with lifecycle := .active } })

theorem createBudget_cases (g : Governor) (budget : Budget) :
    CreateCase g budget (g.createBudget budget) := by
  unfold createBudget
  split_ifs with h₁ h₂ h₃ h₄ h₅
  · exact .refused _ (by simp)
  · exact .refused _ (by simp)
  · exact .refused _ (by simp)
  · exact .refused _ (by simp)
  · exact .refused _ (by simp)
  · refine .created ?_ (by simpa using h₃) (by simpa using h₅)
    exact (MoneyMicros.negative_eq_false_iff _).1 (by simpa using h₁)

structure Grantable (g : Governor) (budget : BudgetId) (gen : BudgetGeneration)
    (epoch : CoordinatorEpoch) (amount reservedAfter : MoneyMicros) (b : Budget) : Prop where
  found : g.budgets.find? budget = some b
  generation : b.generation = gen
  budgetEpoch : b.epoch = epoch
  current : epoch = g.epoch
  live : b.isLive = true
  notExpired : b.pastExpiry g.now = false
  nonneg : 0 ≤ amount.toInt
  sum : reservedAfter.toInt = b.reserved.toInt + amount.toInt
  fits : reservedAfter ≤ b.limit

inductive ReserveCase (g : Governor) (budget : BudgetId) (gen : BudgetGeneration)
    (epoch : CoordinatorEpoch) (amount : MoneyMicros) : ReserveResult → Prop
  | refused (st : Status) (hst : st ≠ .ok) : ReserveCase g budget gen epoch amount (.ok st, none, g)
  | threw (e : Exn) : ReserveCase g budget gen epoch amount (.error e, none, g)
  | expired (b : Budget) (hfound : g.budgets.find? budget = some b) (hlive : b.isLive = true)
      (hcurrent : epoch = g.epoch) :
      ReserveCase g budget gen epoch amount
        (.ok .budgetExpired, none, g.setBudget budget { b with lifecycle := .expired })
  | granted (b : Budget) (reservedAfter : MoneyMicros)
      (h : Grantable g budget gen epoch amount reservedAfter b) :
      ReserveCase g budget gen epoch amount
        (.ok .ok, some (grantedHandle g budget gen epoch amount b), { g with
          budgets := g.budgets.set budget
            { b with reserved := reservedAfter, lifecycle := .reserved }
          reservations := g.reservations.set budget ((g.reservations.find? budget).getD [] ++
            [grantedHandle g budget gen epoch amount b])
          nextReservation := g.nextReservation + 1 })

theorem reserve_cases (g : Governor) (budget : BudgetId) (gen : BudgetGeneration)
    (epoch : CoordinatorEpoch) (amount : MoneyMicros) :
    ReserveCase g budget gen epoch amount (g.reserve budget gen epoch amount) := by
  unfold reserve
  cases hb : g.budgets.find? budget with
  | none => exact .refused _ (by simp)
  | some b =>
      dsimp only
      split_ifs with h₁ h₂ h₃ h₄ h₅
      · exact .refused _ (by simp)
      · exact .refused _ (by simp)
      · exact .refused _ (by simp)
      · simp only [not_or, not_not] at h₁ h₂
        exact .expired b hb (by simpa using h₃) (h₁.2.symm.trans h₂)
      · exact .refused _ (by simp)
      · simp only [not_or, not_not] at h₁ h₂
        have hnonneg : 0 ≤ amount.toInt :=
          (MoneyMicros.negative_eq_false_iff _).1 (by simpa using h₅)
        cases hs : b.reserved.add amount with
        | error e => exact .threw e
        | ok reservedAfter =>
            dsimp only
            split_ifs with h₆
            · exact .refused _ (by simp)
            · exact .granted b reservedAfter
                ⟨hb, h₁.1, h₁.2, h₁.2.symm.trans h₂, by simpa using h₃, by simpa using h₄,
                  hnonneg, (MoneyMicros.add_eq_ok_iff _ _ _).1 hs, not_lt.1 h₆⟩

/-- The fences a handle has passed when its budget is about to be charged. -/
structure HandleMatches (g : Governor) (r : BudgetReservation) (b : Budget) : Prop where
  found : g.budgets.find? r.budget = some b
  generation : b.generation = r.budgetGeneration
  epoch : r.epoch = g.epoch
  active : r.state = .active

inductive CommitCase (g : Governor) (r : BudgetReservation) : HandleResult → Prop
  | refused (st : Status) (hst : st ≠ .ok) : CommitCase g r (.ok st, r, g)
  | settled (hepoch : r.epoch = g.epoch) (hstate : r.state ≠ .active) : CommitCase g r (.ok .ok, r, g)
  | threw (e : Exn) (r' : BudgetReservation) (hactive : r.state = .active)
      (hr : r' = r ∨ r' = { r with state := .expired }) : CommitCase g r (.error e, r', g)
  | expiryThrew (e : Exn) (b : Budget) (reserved : MoneyMicros) (hm : HandleMatches g r b)
      (hlive : b.isLive = true) (hpast : r.pastExpiry g.now = true)
      (hsub : reserved.toInt = b.reserved.toInt - r.amount.toInt)
      (hadd : ∀ released : MoneyMicros, released.toInt ≠ b.released.toInt + r.amount.toInt) :
      CommitCase g r (.error e, { r with state := .expired },
        g.setBudget r.budget { b with reserved := reserved })
  | expired (b : Budget) (reserved released : MoneyMicros) (hm : HandleMatches g r b)
      (hlive : b.isLive = true) (hpast : r.pastExpiry g.now = true)
      (hsub : reserved.toInt = b.reserved.toInt - r.amount.toInt)
      (hadd : released.toInt = b.released.toInt + r.amount.toInt) :
      CommitCase g r (.ok .budgetExpired, { r with state := .expired },
        g.setBudget r.budget { b with reserved := reserved, released := released })
  | committed (b : Budget) (reserved consumed : MoneyMicros) (hm : HandleMatches g r b)
      (hlive : b.isLive = true) (hpast : r.pastExpiry g.now = false)
      (hsub : reserved.toInt = b.reserved.toInt - r.amount.toInt)
      (hadd : consumed.toInt = b.consumed.toInt + r.amount.toInt)
      (hcap : b.mode = .hard → consumed ≤ b.limit) :
      CommitCase g r (.ok .ok, { r with state := .committed },
        g.setBudget r.budget { b with
          reserved := reserved, consumed := consumed
          lifecycle := Budget.lifecycleAfterCharge consumed b.limit })

theorem add_ne_of_error {a b : MoneyMicros} {e : Exn} (h : a.add b = .error e) (r : MoneyMicros) :
    r.toInt ≠ a.toInt + b.toInt := by
  intro hr
  rw [(MoneyMicros.add_eq_ok_iff a b r).2 hr] at h
  cases h

theorem commit_cases (g : Governor) (r : BudgetReservation) : CommitCase g r (g.commit r) := by
  unfold commit
  cases hb : g.budgets.find? r.budget with
  | none => exact .refused _ (by simp)
  | some b =>
      dsimp only
      split_ifs with h₁ h₂ h₃ h₄ h₅ h₆
      · exact .refused _ (by simp)
      · exact .refused _ (by simp)
      · exact .refused _ (by simp)
      · exact .settled (by simpa using h₂) h₄
      · exact .refused _ (by simp)
      · have hm : HandleMatches g r b :=
          ⟨hb, by simpa using h₁, by simpa using h₂, by simpa using h₄⟩
        cases hs : b.reserved.sub r.amount with
        | error e => exact .threw e _ hm.active (Or.inr rfl)
        | ok reserved =>
            have hsub := ((MoneyMicros.sub_eq_ok_iff _ _ _).1 hs).2
            cases ha : b.released.add r.amount with
            | error e =>
                exact .expiryThrew e b reserved hm (by simpa using h₅) h₆ hsub (add_ne_of_error ha)
            | ok released =>
                exact .expired b reserved released hm (by simpa using h₅) h₆ hsub
                  ((MoneyMicros.add_eq_ok_iff _ _ _).1 ha)
      · have hm : HandleMatches g r b :=
          ⟨hb, by simpa using h₁, by simpa using h₂, by simpa using h₄⟩
        cases ha : b.consumed.add r.amount with
        | error e => exact .threw e _ hm.active (Or.inl rfl)
        | ok consumed =>
            dsimp only
            split_ifs with h₇
            · exact .refused _ (by simp)
            · cases hs : b.reserved.sub r.amount with
              | error e => exact .threw e _ hm.active (Or.inl rfl)
              | ok reserved =>
                  refine .committed b reserved consumed hm (by simpa using h₅) (by simpa using h₆)
                    ((MoneyMicros.sub_eq_ok_iff _ _ _).1 hs).2
                    ((MoneyMicros.add_eq_ok_iff _ _ _).1 ha) ?_
                  intro hmode
                  exact not_lt.1 (fun hlt => h₇ ⟨hmode, hlt⟩)

/-- Past its fences, and before the handle's expiry, `commit` depends only on the
budget and the amount. -/
theorem commit_of_matches {g : Governor} {r : BudgetReservation} {b : Budget}
    (hm : HandleMatches g r b) (hepoch : b.epoch = g.epoch) (hpast : r.pastExpiry g.now = false) :
    g.commit r =
      if !b.isLive then (.ok .budgetExpired, r, g)
      else
        match b.consumed.add r.amount with
        | .error e => (.error e, r, g)
        | .ok consumedAfter =>
          if b.mode = .hard ∧ b.limit < consumedAfter then (.ok .budgetExceeded, r, g)
          else
            match b.reserved.sub r.amount with
            | .error e => (.error e, r, g)
            | .ok reserved =>
              (.ok .ok, { r with state := .committed },
                g.setBudget r.budget { b with
                  reserved := reserved, consumed := consumedAfter
                  lifecycle := Budget.lifecycleAfterCharge consumedAfter b.limit }) := by
  unfold commit
  rw [hm.found]
  dsimp only
  rw [if_neg (by simp [hm.generation]), if_neg (by simp [hm.epoch]), if_neg (by simp [hepoch]),
    if_neg (by simp [hm.active])]
  refine ite_congr rfl (fun _ => rfl) fun _ => ?_
  exact if_neg (by simp [hpast])

end Governor

end CostGovernor
