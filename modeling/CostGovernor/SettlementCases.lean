import CostGovernor.GrantCases

/-!
# What releasing and consuming can do

`commit` and `release` settle a handle: they write nothing of it but its state, and do
nothing to one that is no longer ACTIVE.
-/

namespace CostGovernor

namespace Governor

inductive ReleaseCase (g : Governor) (r : BudgetReservation) : HandleResult → Prop
  | refused (st : Status) (hst : st ≠ .ok) : ReleaseCase g r (.ok st, r, g)
  | settled (hepoch : r.epoch = g.epoch) (hstate : r.state ≠ .active) :
      ReleaseCase g r (.ok .ok, r, g)
  | threw (e : Exn) (hactive : r.state = .active) : ReleaseCase g r (.error e, r, g)
  | halfThrew (e : Exn) (b : Budget) (reserved : MoneyMicros) (hm : HandleMatches g r b)
      (hsub : reserved.toInt = b.reserved.toInt - r.amount.toInt)
      (hadd : ∀ released : MoneyMicros, released.toInt ≠ b.released.toInt + r.amount.toInt) :
      ReleaseCase g r (.error e, r, g.setBudget r.budget { b with reserved := reserved })
  | released (b : Budget) (reserved released : MoneyMicros) (hm : HandleMatches g r b)
      (hne : r.amount.toInt ≠ -2 ^ 63)
      (hsub : reserved.toInt = b.reserved.toInt - r.amount.toInt)
      (hadd : released.toInt = b.released.toInt + r.amount.toInt) :
      ReleaseCase g r (.ok .ok, { r with state := .released }, { g with
        budgets := g.budgets.set r.budget { b with
          reserved := reserved, released := released
          lifecycle := lifecycleAfterRelease
            ((g.reservations.find? r.budget).getD []) b.consumed }
        reservations := g.reservations.emplace r.budget [] })

theorem release_cases (g : Governor) (r : BudgetReservation) : ReleaseCase g r (g.release r) := by
  unfold release
  cases hb : g.budgets.find? r.budget with
  | none => exact .refused _ (by simp)
  | some b =>
      dsimp only
      split_ifs with h₁ h₂ h₃
      · exact .refused _ (by simp)
      · exact .refused _ (by simp)
      · exact .settled (by simpa using h₂) h₃
      · have hm : HandleMatches g r b :=
          ⟨hb, by simpa using h₁, by simpa using h₂, by simpa using h₃⟩
        cases hs : b.reserved.sub r.amount with
        | error e => exact .threw e hm.active
        | ok reserved =>
            obtain ⟨hne, hsub⟩ := (MoneyMicros.sub_eq_ok_iff _ _ _).1 hs
            cases ha : b.released.add r.amount with
            | error e => exact .halfThrew e b reserved hm hsub (add_ne_of_error ha)
            | ok released =>
                exact .released b reserved released hm hne hsub
                  ((MoneyMicros.add_eq_ok_iff _ _ _).1 ha)

/-- `commit` and `release` write nothing but the state of the handle. -/
theorem commit_handle (g : Governor) (r : BudgetReservation) :
    ∃ s, (g.commit r).2.1 = { r with state := s } := by
  have h := g.commit_cases r
  generalize g.commit r = x at h ⊢
  cases h with
  | refused => exact ⟨r.state, rfl⟩
  | settled => exact ⟨r.state, rfl⟩
  | threw e r' _ hr =>
      rcases hr with rfl | rfl
      · exact ⟨r'.state, rfl⟩
      · exact ⟨.expired, rfl⟩
  | expiryThrew => exact ⟨.expired, rfl⟩
  | expired => exact ⟨.expired, rfl⟩
  | committed => exact ⟨.committed, rfl⟩

theorem release_handle (g : Governor) (r : BudgetReservation) :
    ∃ s, (g.release r).2.1 = { r with state := s } := by
  have h := g.release_cases r
  generalize g.release r = x at h ⊢
  cases h with
  | refused => exact ⟨r.state, rfl⟩
  | settled => exact ⟨r.state, rfl⟩
  | threw => exact ⟨r.state, rfl⟩
  | halfThrew => exact ⟨r.state, rfl⟩
  | released => exact ⟨.released, rfl⟩

/-- A call that returns has no effect at all or settles the handle. -/
theorem commit_settles (g : Governor) (r : BudgetReservation) :
    (∃ st, g.commit r = (.ok st, r, g)) ∨ (∃ e, (g.commit r).1 = .error e) ∨
      (g.commit r).2.1.state ≠ .active := by
  have h := g.commit_cases r
  generalize g.commit r = x at h ⊢
  cases h with
  | refused st => exact Or.inl ⟨st, rfl⟩
  | settled => exact Or.inl ⟨.ok, rfl⟩
  | threw e => exact Or.inr (Or.inl ⟨e, rfl⟩)
  | expiryThrew e => exact Or.inr (Or.inl ⟨e, rfl⟩)
  | expired => exact Or.inr (Or.inr (by simp))
  | committed => exact Or.inr (Or.inr (by simp))

theorem release_settles (g : Governor) (r : BudgetReservation) :
    (∃ st, g.release r = (.ok st, r, g)) ∨ (∃ e, (g.release r).1 = .error e) ∨
      (g.release r).2.1.state ≠ .active := by
  have h := g.release_cases r
  generalize g.release r = x at h ⊢
  cases h with
  | refused st => exact Or.inl ⟨st, rfl⟩
  | settled => exact Or.inl ⟨.ok, rfl⟩
  | threw e => exact Or.inr (Or.inl ⟨e, rfl⟩)
  | halfThrew e => exact Or.inr (Or.inl ⟨e, rfl⟩)
  | released => exact Or.inr (Or.inr (by simp))

/-- A handle that is no longer active buys nothing. -/
theorem commit_of_not_active (g : Governor) {r : BudgetReservation} (h : r.state ≠ .active) :
    ∃ st, g.commit r = (.ok st, r, g) := by
  have hcase := g.commit_cases r
  generalize g.commit r = x at hcase ⊢
  cases hcase with
  | refused st => exact ⟨st, rfl⟩
  | settled => exact ⟨.ok, rfl⟩
  | threw e r' hactive => exact absurd hactive h
  | expiryThrew e b reserved hm => exact absurd hm.active h
  | expired b reserved released hm => exact absurd hm.active h
  | committed b reserved consumed hm => exact absurd hm.active h

theorem release_of_not_active (g : Governor) {r : BudgetReservation} (h : r.state ≠ .active) :
    ∃ st, g.release r = (.ok st, r, g) := by
  have hcase := g.release_cases r
  generalize g.release r = x at hcase ⊢
  cases hcase with
  | refused st => exact ⟨st, rfl⟩
  | settled => exact ⟨.ok, rfl⟩
  | threw e hactive => exact absurd hactive h
  | halfThrew e b reserved hm => exact absurd hm.active h
  | released b reserved released hm => exact absurd hm.active h

theorem release_of_matches {g : Governor} {r : BudgetReservation} {b : Budget}
    {reserved released : MoneyMicros} (hm : HandleMatches g r b)
    (hsub : b.reserved.sub r.amount = .ok reserved)
    (hadd : b.released.add r.amount = .ok released) :
    g.release r = (.ok .ok, { r with state := .released }, { g with
      budgets := g.budgets.set r.budget { b with
        reserved := reserved, released := released
        lifecycle := lifecycleAfterRelease ((g.reservations.find? r.budget).getD []) b.consumed }
      reservations := g.reservations.emplace r.budget [] }) := by
  unfold release
  rw [hm.found]
  dsimp only
  rw [if_neg (by simp [hm.generation]), if_neg (by simp [hm.epoch]), if_neg (by simp [hm.active]),
    hsub]
  dsimp only
  rw [hadd]

structure Chargeable (g : Governor) (budget : BudgetId) (gen : BudgetGeneration)
    (epoch : CoordinatorEpoch) (amount : MoneyMicros) (b : Budget) : Prop where
  found : g.budgets.find? budget = some b
  generation : b.generation = gen
  budgetEpoch : b.epoch = epoch
  live : b.isLive = true
  nonneg : 0 ≤ amount.toInt

inductive ConsumeCase (g : Governor) (budget : BudgetId) (gen : BudgetGeneration)
    (epoch : CoordinatorEpoch) (amount : MoneyMicros) : Except Exn Status × Governor → Prop
  | refused (st : Status) (hst : st ≠ .ok) : ConsumeCase g budget gen epoch amount (.ok st, g)
  | threw (e : Exn) : ConsumeCase g budget gen epoch amount (.error e, g)
  | expired (b : Budget) (h : Chargeable g budget gen epoch amount b)
      (hpast : b.pastExpiry g.now = true) :
      ConsumeCase g budget gen epoch amount
        (.ok .budgetExpired, g.setBudget budget { b with lifecycle := .expired })
  | charged (b : Budget) (consumed : MoneyMicros) (h : Chargeable g budget gen epoch amount b)
      (hpast : b.pastExpiry g.now = false)
      (hadd : consumed.toInt = b.consumed.toInt + amount.toInt)
      (hcap : b.mode = .hard → consumed ≤ b.limit) :
      ConsumeCase g budget gen epoch amount
        (.ok .ok, g.setBudget budget { b with
          consumed := consumed, lifecycle := Budget.lifecycleAfterCharge consumed b.limit })

theorem consume_cases (g : Governor) (budget : BudgetId) (gen : BudgetGeneration)
    (epoch : CoordinatorEpoch) (amount : MoneyMicros) :
    ConsumeCase g budget gen epoch amount (g.consume budget gen epoch amount) := by
  unfold consume
  cases hb : g.budgets.find? budget with
  | none => exact .refused _ (by simp)
  | some b =>
      dsimp only
      split_ifs with h₁ h₂ h₃ h₄
      · exact .refused _ (by simp)
      · exact .refused _ (by simp)
      · exact .refused _ (by simp)
      · simp only [not_or, not_not] at h₁
        exact .expired b ⟨hb, h₁.1, h₁.2, by simpa using h₂,
          (MoneyMicros.negative_eq_false_iff _).1 (by simpa using h₃)⟩ h₄
      · simp only [not_or, not_not] at h₁
        have hc : Chargeable g budget gen epoch amount b := ⟨hb, h₁.1, h₁.2, by simpa using h₂,
          (MoneyMicros.negative_eq_false_iff _).1 (by simpa using h₃)⟩
        cases ha : b.consumed.add amount with
        | error e => exact .threw e
        | ok consumed =>
            dsimp only
            split_ifs with h₅
            · exact .refused _ (by simp)
            · refine .charged b consumed hc (by simpa using h₄)
                ((MoneyMicros.add_eq_ok_iff _ _ _).1 ha) ?_
              intro hmode
              exact not_lt.1 (fun hlt => h₅ ⟨hmode, hlt⟩)

/-- Past its fences `consume` depends only on the budget, the clock and the amount. -/
theorem consume_of_chargeable {g : Governor} {budget : BudgetId} {gen : BudgetGeneration}
    {epoch : CoordinatorEpoch} {amount : MoneyMicros} {b : Budget}
    (h : Chargeable g budget gen epoch amount b) :
    g.consume budget gen epoch amount =
      if b.pastExpiry g.now then
        (.ok .budgetExpired, g.setBudget budget { b with lifecycle := .expired })
      else
        match b.consumed.add amount with
        | .error e => (.error e, g)
        | .ok consumedAfter =>
          if b.mode = .hard ∧ b.limit < consumedAfter then (.ok .budgetExceeded, g)
          else
            (.ok .ok, g.setBudget budget { b with
              consumed := consumedAfter
              lifecycle := Budget.lifecycleAfterCharge consumedAfter b.limit }) := by
  have hnonneg := (MoneyMicros.negative_eq_false_iff amount).2 h.nonneg
  unfold consume
  rw [h.found]
  dsimp only
  rw [if_neg (by simp [h.generation, h.budgetEpoch]), if_neg (by simp [h.live])]
  exact if_neg (by simp [hnonneg])

end Governor

end CostGovernor
