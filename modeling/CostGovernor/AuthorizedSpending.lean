import CostGovernor.Authorization
import CostGovernor.BudgetIsolation
import CostGovernor.Honouring

/-!
# Spending what was authorized

An AUTHORIZE decision weighs its total against what is left of every hard budget. As long as
no call on a budget intervenes, whatever else happens, the total can be consumed from it.
Reservations are not part of what is left, so a reservation of the total is granted exactly
when the outstanding ones leave room for it; a granted one can then be committed.
-/

namespace CostGovernor

open Executions

/-- A hard budget that takes charges at this state. -/
structure Spendable (g : Governor) (id : BudgetId) (b : Budget) : Prop where
  found : g.budgets.find? id = some b
  hard : b.mode = .hard
  live : b.isLive = true
  current : b.epoch = g.epoch
  unexpired : b.pastExpiry g.now = false

namespace Governor

theorem account_run_of_dropped {g : Governor} {id : BudgetId} {ops : List Op}
    (h : ∀ op ∈ ops, op.purge id = none) :
    (run Governor.apply g ops).account id = g.account id := by
  induction ops generalizing g with
  | nil => rfl
  | cons op ops ih =>
      rw [run_cons, ih fun op' hop' => h op' (List.mem_cons_of_mem op hop')]
      exact account_apply_of_dropped (h op List.mem_cons_self)

end Governor

namespace Spendable

open Governor

variable {g k : Governor} {id : BudgetId} {b : Budget} {amount : MoneyMicros}

theorem of_account (h : Spendable g id b) (haccount : k.account id = g.account id) :
    Spendable k id b := by
  obtain ⟨hnow, hepoch, -, hbudget, -⟩ := Account.mk.inj haccount
  exact ⟨hbudget.trans h.found, h.hard, h.live, h.current.trans hepoch.symm,
    hnow ▸ h.unexpired⟩

/-- What is charged shows in the consumed total. -/
theorem exists_consume (h : Spendable g id b) (hnonneg : 0 ≤ amount.toInt)
    (hfits : b.consumed.toInt + amount.toInt ≤ b.limit.toInt) :
    ∃ consumed : MoneyMicros, consumed.toInt = b.consumed.toInt + amount.toInt ∧
      g.consume id b.generation b.epoch amount = (.ok .ok, g.setBudget id { b with
        consumed := consumed, lifecycle := Budget.lifecycleAfterCharge consumed b.limit }) := by
  have hlimit := b.limit.toInt_lt
  have hlow := b.consumed.le_toInt
  obtain ⟨consumed, hadd⟩ := (MoneyMicros.exists_add_eq_ok_iff b.consumed amount).2
    ⟨by omega, by omega⟩
  have hsum := (MoneyMicros.add_eq_ok_iff _ _ _).1 hadd
  have hcap : ¬ (b.mode = .hard ∧ b.limit < consumed) := by
    rintro ⟨-, hlt⟩
    rw [MoneyMicros.lt_iff_toInt_lt] at hlt
    omega
  refine ⟨consumed, hsum, ?_⟩
  rw [consume_of_chargeable ⟨h.found, rfl, rfl, h.live, hnonneg⟩, h.unexpired,
    if_neg Bool.false_ne_true, hadd]
  dsimp only
  rw [if_neg hcap]

/-- A reservation is granted when the reserved total stays within the limit. -/
theorem reserve_ok_iff (h : Spendable g id b) (hnonneg : 0 ≤ amount.toInt) :
    (g.reserve id b.generation b.epoch amount).1 = .ok .ok ↔
      b.reserved.toInt + amount.toInt ≤ b.limit.toInt := by
  have hnegative := (MoneyMicros.negative_eq_false_iff amount).2 hnonneg
  have hlimit := b.limit.toInt_lt
  have hlow := b.reserved.le_toInt
  unfold Governor.reserve
  rw [h.found]
  dsimp only
  rw [if_neg (by simp), if_neg (by simp [h.current]), if_neg (by simp [h.live]),
    if_neg (by simp [h.unexpired]), if_neg (by simp [hnegative])]
  cases hadd : b.reserved.add amount with
  | error e =>
      refine ⟨fun hok => ?_, fun hle => ?_⟩
      · cases hok
      obtain ⟨c, hc⟩ := (MoneyMicros.exists_add_eq_ok_iff b.reserved amount).2
        ⟨by omega, by omega⟩
      rw [hadd] at hc
      cases hc
  | ok reservedAfter =>
      have hsum := (MoneyMicros.add_eq_ok_iff _ _ _).1 hadd
      dsimp only
      split_ifs with hover
      all_goals rw [MoneyMicros.lt_iff_toInt_lt] at hover
      · refine ⟨fun hok => ?_, fun hle => ?_⟩
        · cases hok
        · omega
      · exact ⟨fun _ => by omega, fun _ => rfl⟩

/-- A handle just granted, with nothing else done to its budget, can be committed if the
consumed total has room for it, and leaves the reserved total as it was. -/
theorem commit_granted (h : Spendable g id b) {r : BudgetReservation} {g' : Governor}
    (hgrant : g.reserve id b.generation b.epoch amount = (.ok .ok, some r, g'))
    (haccount : k.account id = g'.account id)
    (hfits : b.consumed.toInt + amount.toInt ≤ b.limit.toInt) :
    ∃ r' k' b', k.commit r = (.ok .ok, r', k') ∧ k'.budgets.find? id = some b' ∧
      b'.consumed.toInt = b.consumed.toInt + amount.toInt ∧ b'.reserved = b.reserved := by
  have hcase := g.reserve_cases id b.generation b.epoch amount
  rw [hgrant] at hcase
  cases hcase with
  | granted b₀ reservedAfter hg =>
      obtain rfl : b₀ = b := Option.some.inj (hg.found.symm.trans h.found)
      obtain ⟨hnow, hepoch, -, hbudget, -⟩ := Account.mk.inj haccount
      dsimp only at hnow hepoch hbudget
      rw [HashedMap.find?_set, if_pos rfl] at hbudget
      have hm : HandleMatches k (grantedHandle g id b₀.generation b₀.epoch amount b₀)
          { b₀ with reserved := reservedAfter, lifecycle := .reserved } :=
        ⟨hbudget, rfl, h.current.trans hepoch.symm, rfl⟩
      have hpast : (grantedHandle g id b₀.generation b₀.epoch amount b₀).pastExpiry k.now =
          false := by
        rw [hnow]
        exact h.unexpired
      have hreserved := hg.sum
      have hok : (k.commit (grantedHandle g id b₀.generation b₀.epoch amount b₀)).1 = .ok .ok := by
        refine (commit_ok_iff hm (h.current.trans hepoch.symm) hpast h.hard hg.nonneg).2
          ⟨rfl, hfits, ?_⟩
        have hlow := b₀.reserved.le_toInt
        have hhigh := b₀.reserved.toInt_lt
        change MoneyMicros.Fits (reservedAfter.toInt - amount.toInt)
        exact ⟨by omega, by omega⟩
      have hcommit := k.commit_cases (grantedHandle g id b₀.generation b₀.epoch amount b₀)
      generalize k.commit (grantedHandle g id b₀.generation b₀.epoch amount b₀) = x at hok hcommit ⊢
      cases hcommit with
      | refused st hst => exact absurd (Except.ok.inj hok) hst
      | settled _ hstate => exact absurd rfl hstate
      | threw => cases hok
      | expiryThrew => cases hok
      | expired => cases hok
      | committed b₁ reserved consumed hm₁ _ _ hsub hadd _ =>
          obtain rfl := Option.some.inj (hbudget.symm.trans hm₁.found)
          refine ⟨_, _, _, rfl, (HashedMap.find?_set _ _ _ _).trans (if_pos rfl), hadd, ?_⟩
          apply MoneyMicros.toInt_injective
          change reserved.toInt = b₀.reserved.toInt
          change reserved.toInt = reservedAfter.toInt - amount.toInt at hsub
          omega

end Spendable

open Governor in
/-- After an AUTHORIZE decision, and any calls that leave the epoch, the policy, the clock and
a given hard budget that takes charges alone: its total can be consumed from the budget; a
reservation of the total is granted exactly when the reserved total stays within the limit;
and the handle of such a reservation can be committed after any further calls of this kind. -/
theorem authorized_total_can_be_spent (g : Governor) (workload : WorkloadId)
    (workloadGen : WorkloadGeneration) (plans : List ExecutionPlan) (d : CostDecision)
    (hd : g.evaluate workload workloadGen plans = .ok d) (hkind : d.kind = .authorize)
    (id : BudgetId) (b : Budget) (hb : Spendable g id b) (ops : List Op)
    (hops : ∀ op ∈ ops, op.purge id = none) :
    (∃ g' b', (run Governor.apply g ops).consume id b.generation b.epoch d.projected.total =
        (.ok .ok, g') ∧ g'.budgets.find? id = some b' ∧
        b'.consumed.toInt = b.consumed.toInt + d.projected.total.toInt) ∧
      (((run Governor.apply g ops).reserve id b.generation b.epoch d.projected.total).1 = .ok .ok ↔
        b.reserved.toInt + d.projected.total.toInt ≤ b.limit.toInt) ∧
      ∀ r g', (run Governor.apply g ops).reserve id b.generation b.epoch d.projected.total =
          (.ok .ok, some r, g') →
        ∀ later : List Op, (∀ op ∈ later, op.purge id = none) →
          ∃ r' k' b', (run Governor.apply g' later).commit r = (.ok .ok, r', k') ∧
            k'.budgets.find? id = some b' ∧
            b'.consumed.toInt = b.consumed.toInt + d.projected.total.toInt ∧
            b'.reserved = b.reserved := by
  obtain ⟨candidates, best, rest, hcandidates, hsort, hauthorize⟩ := authorized_of_evaluate hd hkind
  have hselected := selection_of_head hcandidates hsort hauthorize
  have hverdict := feasibleVerdict hselected.feasible.1 hselected.feasible.2
  have hnonneg : 0 ≤ d.projected.total.toInt := by
    rw [hselected.selected.2.2]
    exact hverdict.total_nonneg
  -- the decision weighed the total against the limit less the consumed total
  have hfits : b.consumed.toInt + d.projected.total.toInt ≤ b.limit.toInt := by
    obtain ⟨remaining, hremaining, hle⟩ := hselected.affordable id b hb.found hb.hard
    rw [← hselected.selected.2.2, MoneyMicros.le_iff_toInt_le] at hle
    have hroom := ((MoneyMicros.sub_eq_ok_iff _ _ _).1 hremaining).2
    omega
  have hnow := hb.of_account (account_run_of_dropped hops)
  refine ⟨?_, hnow.reserve_ok_iff hnonneg, fun r g' hgrant later hlater => ?_⟩
  · obtain ⟨consumed, hsum, hconsume⟩ := hnow.exists_consume hnonneg hfits
    exact ⟨_, _, hconsume, (HashedMap.find?_set _ _ _ _).trans (if_pos rfl), hsum⟩
  · exact hnow.commit_granted hgrant (account_run_of_dropped hlater) hfits

def unrelatedCalls : List Op := [.setWorkerBoot ⟨1⟩ ⟨10⟩, .createBudget (hardBudget 2 5)]

theorem authorized_total_can_be_spent_unrelatedCalls :
    ∃ d, pricedGovernor.evaluate ⟨1⟩ ⟨1⟩ rivalPlans = .ok d ∧ d.kind = .authorize ∧
      ∃ g' b', (run Governor.apply pricedGovernor unrelatedCalls).consume ⟨1⟩ ⟨1⟩ ⟨1⟩
          d.projected.total = (.ok .ok, g') ∧ g'.budgets.find? ⟨1⟩ = some b' ∧
        b'.consumed.toInt = 0 + d.projected.total.toInt := by
  have hb : Spendable pricedGovernor ⟨1⟩ { hardBudget 1 10 with lifecycle := .active } :=
    ⟨rfl, rfl, rfl, rfl, rfl⟩
  have hops : ∀ op ∈ unrelatedCalls, op.purge ⟨1⟩ = none := by
    intro op hop
    simp only [unrelatedCalls, List.mem_cons, List.not_mem_nil, or_false] at hop
    rcases hop with rfl | rfl <;> rfl
  refine ⟨_, rfl, rfl, ?_⟩
  exact (authorized_total_can_be_spent pricedGovernor ⟨1⟩ ⟨1⟩ rivalPlans _ rfl rfl ⟨1⟩ _ hb
    unrelatedCalls hops).1

end CostGovernor
