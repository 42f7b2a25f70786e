import CostGovernor.EvidenceEffects
import CostGovernor.Executions

/-!
# What a client sees of its budget

The account of a budget is the budget, its grants without their numbers, and what a call on
it reads besides. Calls on other budgets and on prices, evidence and interventions leave it
alone.
-/

namespace CostGovernor

open Executions

def BudgetReservation.unnumbered (r : BudgetReservation) : BudgetReservation := { r with id := {} }

def Reply.unnumbered : Reply → Reply
  | .handle st r => .handle st (r.map BudgetReservation.unnumbered)
  | reply => reply

/-- What remains of a call for the client of a budget: the calls on the budget and the ones
that concern every budget, on handles without their numbers. -/
def Op.purge (id : BudgetId) : Op → Option Op
  | .createBudget b => if b.id = id then some (.createBudget b) else none
  | .reserve budget gen epoch amount =>
      if budget = id then some (.reserve budget gen epoch amount) else none
  | .commit r => if r.budget = id then some (.commit r.unnumbered) else none
  | .release r => if r.budget = id then some (.release r.unnumbered) else none
  | .consume budget gen epoch amount =>
      if budget = id then some (.consume budget gen epoch amount) else none
  | .advanceEpoch => some .advanceEpoch
  | .setPolicy p => some (.setPolicy p)
  | .setClock now => some (.setClock now)
  | _ => none

/-- What remains is not purged further. -/
theorem Op.purge_purge {id : BudgetId} {op op' : Op} (h : op.purge id = some op') :
    op'.purge id = some op' := by
  cases op with
  | createBudget b =>
      obtain ⟨hid, hop⟩ := Option.ite_none_right_eq_some.1 h
      obtain rfl := Option.some.inj hop
      exact if_pos hid
  | reserve budget gen epoch amount =>
      obtain ⟨hid, hop⟩ := Option.ite_none_right_eq_some.1 h
      obtain rfl := Option.some.inj hop
      exact if_pos hid
  | commit r =>
      obtain ⟨hid, hop⟩ := Option.ite_none_right_eq_some.1 h
      obtain rfl := Option.some.inj hop
      exact if_pos hid
  | release r =>
      obtain ⟨hid, hop⟩ := Option.ite_none_right_eq_some.1 h
      obtain rfl := Option.some.inj hop
      exact if_pos hid
  | consume budget gen epoch amount =>
      obtain ⟨hid, hop⟩ := Option.ite_none_right_eq_some.1 h
      obtain rfl := Option.some.inj hop
      exact if_pos hid
  | advanceEpoch => exact Option.some.inj h ▸ rfl
  | setPolicy p => exact Option.some.inj h ▸ rfl
  | setClock now => exact Option.some.inj h ▸ rfl
  | _ => cases h

/-- What the answers on one budget depend on. -/
structure Account where
  now : Int64
  epoch : CoordinatorEpoch
  policy : CostPolicy
  budget : Option Budget
  grants : List BudgetReservation

namespace Governor

def account (g : Governor) (id : BudgetId) : Account where
  now := g.now
  epoch := g.epoch
  policy := g.policy
  budget := g.budgets.find? id
  grants := ((g.reservations.find? id).getD []).map BudgetReservation.unnumbered

def answerOn (id : BudgetId) (g : Governor) (op : Op) : Option Reply :=
  (op.purge id).map fun _ => (g.exec op).1.unnumbered

section Frame

variable {g : Governor} {id other : BudgetId}

@[simp] theorem account_setBudget_same (b : Budget) :
    (g.setBudget id b).account id = { g.account id with budget := some b } := by
  unfold account setBudget
  dsimp only
  rw [HashedMap.find?_set, if_pos rfl]

theorem account_setBudget_of_ne (h : other ≠ id) (b : Budget) :
    (g.setBudget other b).account id = g.account id := by
  unfold account setBudget
  dsimp only
  rw [HashedMap.find?_set, if_neg (Ne.symm h)]

theorem account_createBudget_of_ne {b : Budget} (h : b.id ≠ id) :
    (g.createBudget b).2.account id = g.account id := by
  have hcase := g.createBudget_cases b
  generalize g.createBudget b = x at hcase ⊢
  cases hcase with
  | refused => rfl
  | created =>
      unfold account
      dsimp only
      rw [HashedMap.find?_emplace, if_neg fun hall => h hall.1.symm]

theorem account_reserve_of_ne (h : other ≠ id) (gen : BudgetGeneration)
    (epoch : CoordinatorEpoch) (amount : MoneyMicros) :
    (g.reserve other gen epoch amount).2.2.account id = g.account id := by
  have hcase := g.reserve_cases other gen epoch amount
  generalize g.reserve other gen epoch amount = x at hcase ⊢
  cases hcase with
  | refused => rfl
  | threw => rfl
  | expired b => exact account_setBudget_of_ne h _
  | granted b reservedAfter =>
      unfold account
      dsimp only
      rw [HashedMap.find?_set, HashedMap.find?_set, if_neg (Ne.symm h), if_neg (Ne.symm h)]

theorem account_commit_of_ne {r : BudgetReservation} (h : r.budget ≠ id) :
    (g.commit r).2.2.account id = g.account id := by
  have hcase := g.commit_cases r
  generalize g.commit r = x at hcase ⊢
  cases hcase with
  | refused => rfl
  | settled => rfl
  | threw => rfl
  | expiryThrew => exact account_setBudget_of_ne h _
  | expired => exact account_setBudget_of_ne h _
  | committed => exact account_setBudget_of_ne h _

theorem account_release_of_ne {r : BudgetReservation} (h : r.budget ≠ id) :
    (g.release r).2.2.account id = g.account id := by
  have hcase := g.release_cases r
  generalize g.release r = x at hcase ⊢
  cases hcase with
  | refused => rfl
  | settled => rfl
  | threw => rfl
  | halfThrew => exact account_setBudget_of_ne h _
  | released b reserved released =>
      unfold account
      dsimp only
      rw [HashedMap.find?_set, HashedMap.find?_emplace, if_neg (Ne.symm h),
        if_neg fun hall => h hall.1.symm]

theorem account_consume_of_ne (h : other ≠ id) (gen : BudgetGeneration)
    (epoch : CoordinatorEpoch) (amount : MoneyMicros) :
    (g.consume other gen epoch amount).2.account id = g.account id := by
  have hcase := g.consume_cases other gen epoch amount
  generalize g.consume other gen epoch amount = x at hcase ⊢
  cases hcase with
  | refused => rfl
  | threw => rfl
  | expired => exact account_setBudget_of_ne h _
  | charged => exact account_setBudget_of_ne h _

theorem account_interventions {g' : Governor} (h : ∃ is, g' = { g with interventions := is }) :
    g'.account id = g.account id := by
  obtain ⟨is, rfl⟩ := h
  rfl

/-- A call that is not the client's leaves what the client can see alone. -/
theorem account_apply_of_dropped {op : Op} (h : op.purge id = none) :
    (g.apply op).account id = g.account id := by
  cases op with
  | createBudget b => exact account_createBudget_of_ne fun heq => by simp [Op.purge, heq] at h
  | reserve budget gen epoch amount =>
      exact account_reserve_of_ne (fun heq => by simp [Op.purge, heq] at h) gen epoch amount
  | commit r => exact account_commit_of_ne fun heq => by simp [Op.purge, heq] at h
  | release r => exact account_release_of_ne fun heq => by simp [Op.purge, heq] at h
  | consume budget gen epoch amount =>
      exact account_consume_of_ne (fun heq => by simp [Op.purge, heq] at h) gen epoch amount
  | advanceEpoch => cases h
  | setPolicy p => cases h
  | setClock now => cases h
  | publishPrice obs =>
      obtain ⟨_, _, hwrites⟩ := g.publishPrice_writes obs
      change (g.publishPrice obs).2.account id = _
      rw [hwrites]
      rfl
  | recordAttempt e =>
      obtain ⟨_, hwrites⟩ := g.recordAttempt_writes e
      change (g.recordAttempt e).2.account id = _
      rw [hwrites]
      rfl
  | finalizeRequest request workload =>
      obtain ⟨_, hwrites⟩ := g.finalizeRequest_writes request workload
      change (g.finalizeRequest request workload).2.account id = _
      rw [hwrites]
      rfl
  | authorizeIntervention i gen =>
      exact account_interventions (g.authorizeIntervention_cases i gen).writes
  | acknowledgeIntervention i gen =>
      exact account_interventions (g.acknowledgeIntervention_cases i gen).writes
  | verifyIntervention i gen post =>
      exact account_interventions (g.verifyIntervention_cases i gen post).writes
  | _ => rfl

end Frame

end Governor

end CostGovernor
