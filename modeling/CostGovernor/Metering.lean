import CostGovernor.AttemptCosts
import CostGovernor.PlanSelection
import CostGovernor.Verdicts

/-!
# A governor that meters accelerator time

One micro-unit per accelerator second and nothing for the other components, with no
budgets: a supported plan that meets its SLO and expects no negative amount is
authorized there, and the total of the decision tells how much accelerator time was
charged.
-/

namespace CostGovernor

open Executions RankOrder ScanSelection

def meteredPrice (c : CostComponent) : PriceObservation :=
  { kind := kindForCheck c, amount := ⟨if c = .acceleratorTime then 1 else 0⟩ }

def meteredGovernor : Governor :=
  (Governor.fresh 0).setPriceSchedule { observations := checkedComponents.map meteredPrice }

section Prices

variable {c : CostComponent}

theorem accepted_meteredPrice (plan : ExecutionPlan) (c : CostComponent) :
    meteredGovernor.Accepted plan c (meteredPrice c) = true := by
  have hsign : (meteredPrice c).amount.negative = false := by
    unfold meteredPrice
    split_ifs <;> rfl
  have hcurrency : (meteredPrice c).validCurrency meteredGovernor.policy.currency = true := rfl
  have hlabel : meteredGovernor.policy.acceptsLabel (meteredPrice c).label = true := rfl
  have hdevice : (meteredPrice c).device.valid = false := rfl
  have hresource : (meteredPrice c).resourceScope.valid = false := rfl
  have hfrom : ¬ meteredGovernor.now < (meteredPrice c).validFromMs := by
    have hnow : ¬ meteredGovernor.now < 0 := by decide
    exact hnow
  have hkind : (meteredPrice c).kind = kindForCheck c := rfl
  have hto : (meteredPrice c).validToMs = 0 := rfl
  simp [Governor.Accepted, Governor.Applies, obsApplies, hsign, hcurrency, hlabel, hdevice, hresource,
    hfrom, hkind, hto]

theorem eq_meteredPrice (hc : c ∈ checkedComponents) {plan : ExecutionPlan} {o : PriceObservation}
    (ho : o ∈ meteredGovernor.schedule.observations)
    (h : meteredGovernor.Applies plan c o = true) : o = meteredPrice c := by
  obtain ⟨c', hc', rfl⟩ := List.mem_map.1 ho
  have hkind : kindForCheck c' = kindForCheck c := by
    by_contra hne
    have hskip : (meteredPrice c').kind ≠ kindForCheck c := hne
    rw [Governor.Applies, obsApplies, if_pos hskip] at h
    cases h
  have hinj : ∀ c ∈ checkedComponents, ∀ c' ∈ checkedComponents,
      kindForCheck c' = kindForCheck c → c' = c := by decide
  rw [hinj c hc c' hc' hkind]

theorem mem_metered (hc : c ∈ checkedComponents) :
    meteredPrice c ∈ meteredGovernor.schedule.observations := List.mem_map_of_mem hc

/-- A scan that keeps the component's own price and no other ends there. -/
theorem scan_metered (hc : c ∈ checkedComponents) {plan : ExecutionPlan}
    {keep : PriceObservation → Bool} (hown : keep (meteredPrice c) = true)
    (hothers : ∀ o, keep o = true → meteredGovernor.Applies plan c o = true) :
    ∃ i, scan keep moreSpecific meteredGovernor.schedule.observations = some (meteredPrice c, i) := by
  cases h : scan keep moreSpecific meteredGovernor.schedule.observations with
  | none =>
      rw [(scan_eq_none_iff _).1 h _ (mem_metered hc)] at hown
      cases hown
  | some p =>
      obtain ⟨hkept, hmem⟩ := scan_eq_some_kept (o := p.1) (i := p.2) h
      exact ⟨p.2, by rw [← eq_meteredPrice hc hmem (hothers _ hkept)]⟩

theorem chargedPrice_metered (hc : c ∈ checkedComponents) (plan : ExecutionPlan) :
    ∃ i, meteredGovernor.chargedPrice plan c = some (meteredPrice c, i) :=
  scan_metered hc (Bool.and_eq_true_iff.1 (accepted_meteredPrice plan c)).1 (fun _ h => h)

theorem priceCheck_metered (hc : c ∈ checkedComponents) (plan : ExecutionPlan) :
    (meteredGovernor.priceCheck plan c).present = true ∧
      (meteredGovernor.priceCheck plan c).stale = false := by
  obtain ⟨i, hi⟩ := scan_metered hc (accepted_meteredPrice plan c)
    (fun o ho => (Bool.and_eq_true_iff.1 ho).1)
  have hscan : scan (passesCheck (kindForCheck c) meteredGovernor.policy.currency
      meteredGovernor.now meteredGovernor.policy plan.device plan.resource) moreSpecific
      meteredGovernor.schedule.observations = some (meteredPrice c, i) := by
    rw [← hi, ← Governor.priceCheck_obs, Governor.priceCheck, checkPrice_obs]
  have hschedule : tooOld meteredGovernor.policy.priceScheduleMaxAgeMs meteredGovernor.now
      meteredGovernor.schedule.createdAtMs = false := by decide
  have hprice : tooOld meteredGovernor.policy.maxEvidenceAgeMs meteredGovernor.now 0 = false := by
    decide
  unfold Governor.priceCheck checkPrice
  rw [hscan, hschedule]
  refine ⟨rfl, ?_⟩
  dsimp only
  rwa [Bool.false_or]

theorem priceVerdict_metered (plan : ExecutionPlan) :
    meteredGovernor.priceVerdict plan checkedComponents = none :=
  (Governor.priceVerdict_eq_none_iff _ _ _).2 (fun _ hc _ => priceCheck_metered hc plan)

end Prices

section Amounts

theorem meteredPrice_rate (c : CostComponent) :
    0 ≤ (meteredPrice c).amount.value.toInt ∧
      (meteredPrice c).amount.value.toInt.toNat = if c = .acceleratorTime then 1 else 0 := by
  have hone : 0 ≤ (1 : Int64).toInt := by decide
  unfold meteredPrice
  split_ifs
  · exact ⟨hone, rfl⟩
  · exact ⟨le_rfl, rfl⟩

theorem denominator_of_checked {c : CostComponent} (hc : c ∈ checkedComponents) :
    ∃ d, denominatorFor (kindForCheck c) = .ok d ∧ 10 ^ 9 ≤ d.toInt := by
  cases c
  all_goals first
    | exact ⟨_, rfl, by decide⟩
    | exact absurd hc (by decide)

/-- An amount that is not negative has a small cost, and accelerator time is not free. -/
theorem ceilMulDiv_meteredPrice {amount d : Int64} (h : 0 ≤ amount.toInt) (hd : 10 ^ 9 ≤ d.toInt)
    (c : CostComponent) :
    ∃ q, ceilMulDiv amount (meteredPrice c).amount.value d = .ok q ∧ q.toInt ≤ 2 ^ 34 ∧
      (c = .acceleratorTime → 0 < amount.toInt → 0 < q.toInt) := by
  obtain ⟨hrate_nonneg, hrate⟩ := meteredPrice_rate c
  have hamount := amount.toInt_lt
  have hproduct : amount.toInt.toNat * (meteredPrice c).amount.value.toInt.toNat < 2 ^ 63 := by
    rw [hrate]
    split_ifs
    · omega
    · omega
  have hsmall : amount.toInt.toNat * (meteredPrice c).amount.value.toInt.toNat ⌈/⌉ d.toInt.toNat ≤
      2 ^ 34 := by
    rw [ceilDiv_le_iff_le_mul (by omega)]
    omega
  have hceil := ceilMulDiv_of_nonneg h hrate_nonneg (show 0 < d.toInt by omega)
  rw [if_neg (by omega), if_neg (by omega)] at hceil
  have hvalue := Int64.toInt_ofNat_of_lt (hsmall.trans_lt (show 2 ^ 34 < 2 ^ 63 by norm_num))
  refine ⟨_, hceil, by omega, fun hc hpos => ?_⟩
  rw [hvalue]
  have hne : ¬ amount.toInt.toNat * (meteredPrice c).amount.value.toInt.toNat ⌈/⌉ d.toInt.toNat ≤
      0 := by
    rw [ceilDiv_le_iff_le_mul (by omega), hrate, if_pos hc]
    omega
  omega

theorem priced_metered {c : CostComponent} (hc : c ∈ checkedComponents) {amount : Int64}
    (h : 0 ≤ amount.toInt) (plan : ExecutionPlan) :
    ∃ m, priced meteredGovernor.schedule meteredGovernor.policy.currency meteredGovernor.now
        (planToEvidence plan) c amount = .ok m ∧ m.toInt ≤ 2 ^ 34 ∧
      (c = .acceleratorTime → 0 < amount.toInt → 0 < m.toInt) := by
  obtain ⟨i, hprice⟩ := chargedPrice_metered hc plan
  obtain ⟨d, hdenom, hd⟩ := denominator_of_checked hc
  obtain ⟨q, hq, hbounds⟩ := ceilMulDiv_meteredPrice h hd c
  have hfound : findPrice meteredGovernor.schedule (kindForCheck c) meteredGovernor.policy.currency
      meteredGovernor.now (planToEvidence plan).device (planToEvidence plan).resource none =
      some (meteredPrice c, i) := hprice
  exact ⟨⟨q⟩, projectComponent_eq_ok_iff.2
    ⟨kindForCheck c, _, d, kindFor_of_checked hc, hfound, hdenom, hq⟩, hbounds⟩

end Amounts

section Decision

structure ExecutionPlan.NoNegative (plan : ExecutionPlan) : Prop where
  amounts : ∀ c ∈ checkedComponents, 0 ≤ (expectedAmount plan c).toInt
  recomputation : 0 ≤ plan.recoveryRecomputeNs.toInt

variable {plan : ExecutionPlan}

theorem price_metered {c target : CostComponent} (hc : c ∈ checkedComponents) {amount : Int64}
    (h : 0 ≤ amount.toInt) (plan : ExecutionPlan) :
    ∃ z, Charge.price meteredGovernor.schedule meteredGovernor.policy.currency meteredGovernor.now
      ⟨planToEvidence plan, target, c, amount⟩ = some z ∧ z ≤ 2 ^ 34 := by
  by_cases hzero : amount = 0
  · exact ⟨0, if_pos hzero, by norm_num⟩
  · obtain ⟨m, hm, hle, _⟩ := priced_metered hc h plan
    exact ⟨m.toInt, (Charge.price_eq_some_iff hzero _).2 ⟨m, hm, rfl⟩, hle⟩

theorem charges_metered (h : plan.NoNegative) {u : Charge}
    (hu : u ∈ (planToEvidence plan).charges) :
    ∃ z, u.price meteredGovernor.schedule meteredGovernor.policy.currency meteredGovernor.now =
      some z ∧ z ≤ 2 ^ 34 := by
  rcases List.mem_append.1 hu with husage | hrecompute
  · rw [CostEvidence.usageCharges, usages_planToEvidence, List.map_map] at husage
    obtain ⟨c, hc, rfl⟩ := List.mem_map.1 husage
    exact price_metered hc (h.amounts c hc) plan
  · rw [List.mem_singleton.1 hrecompute]
    exact price_metered (by decide) h.recomputation plan

theorem project_metered (h : plan.NoNegative) :
    ∃ bd, project meteredGovernor.schedule meteredGovernor.policy.currency meteredGovernor.now
      [planToEvidence plan] = .ok bd := by
  refine exists_project _ _ _ ?_ ?_
  · intro ev hev u hu
    rw [List.mem_singleton.1 hev] at hu
    obtain ⟨z, hz, _⟩ := charges_metered h hu
    exact ⟨z, hz⟩
  · rw [List.map_singleton, List.sum_singleton, attemptCost, chargesTotal]
    have hle := List.sum_le_card_nsmul ((planToEvidence plan).charges.map (fun u =>
      (u.price meteredGovernor.schedule meteredGovernor.policy.currency
        meteredGovernor.now).getD 0)) (2 ^ 34) (by
          intro z hz
          obtain ⟨u, hu, rfl⟩ := List.mem_map.1 hz
          obtain ⟨z, hz, hsmall⟩ := charges_metered h hu
          rwa [hz])
    have hseven : (planToEvidence plan).charges.length = 7 := rfl
    rw [List.length_map, hseven] at hle
    exact hle.trans_lt (by norm_num)

theorem evaluatePlan_metered (h : plan.NoNegative) (hlabel : plan.label ≠ .unsupported)
    (hslo : plan.meetsHardSlo = true) :
    ∃ econ, meteredGovernor.evaluatePlan plan = .ok econ ∧ econ.feasible = .feasible := by
  obtain ⟨bd, hbd⟩ := project_metered h
  have hreaches : meteredGovernor.ReachesBudgets plan bd :=
    ⟨hlabel, hslo, rfl, priceVerdict_metered plan, hbd⟩
  exact ⟨_, hreaches.evaluatePlan_eq, rfl⟩

theorem evaluate_metered (workload : WorkloadId) (workloadGen : WorkloadGeneration)
    (h : plan.NoNegative) (hlabel : plan.label ≠ .unsupported) (hslo : plan.meetsHardSlo = true) :
    ∃ d, meteredGovernor.evaluate workload workloadGen [plan] = .ok d ∧ d.kind = .authorize := by
  obtain ⟨econ, hecon, hfeasible⟩ := evaluatePlan_metered h hlabel hslo
  have hlocked : meteredGovernor.evaluatePlanLocked plan = .ok econ := hecon
  have hcandidates : meteredGovernor.candidatesOf [plan] = .ok [⟨plan, econ⟩] := by
    rw [Governor.candidatesOf, hlocked]
    rfl
  have hsort : stableSort better ([⟨plan, econ⟩].filter Governor.isFeasible) = [⟨plan, econ⟩] := by
    have hkept : Governor.isFeasible ⟨plan, econ⟩ = true := decide_eq_true hfeasible
    rw [List.filter_cons_of_pos hkept]
    rfl
  have hrevalidated : ¬ meteredGovernor.revalidationNeeded = true := by decide
  unfold Governor.evaluate
  rw [if_neg hrevalidated, if_neg (by simp), hcandidates]
  dsimp only [bind, Except.bind]
  rw [hsort]
  exact ⟨_, rfl, rfl⟩

/-- The total of an AUTHORIZE decision on one plan is the cost of that plan. -/
theorem total_of_authorize {g : Governor} {workload : WorkloadId} {workloadGen : WorkloadGeneration}
    {d : CostDecision} (h : g.evaluate workload workloadGen [plan] = .ok d)
    (hkind : d.kind = .authorize) :
    AllPriced g.schedule g.policy.currency g.now (planToEvidence plan).charges ∧
      d.projected.total.toInt =
        attemptCost g.schedule g.policy.currency g.now (planToEvidence plan) := by
  obtain ⟨candidates, best, rest, hcandidates, hsort, hd⟩ := Governor.authorized_of_evaluate h hkind
  have hselection := Governor.selection_of_head hcandidates hsort hd
  have hplan : best.plan = plan := List.mem_singleton.1 hselection.candidate
  have hverdict := Governor.feasibleVerdict hselection.feasible.1 hselection.feasible.2
  obtain ⟨hpriced, htotal⟩ := project_total _ _ _ hverdict.projection
  rw [hplan] at hpriced htotal
  rw [hselection.selected.2.2, htotal, List.map_singleton, List.sum_singleton]
  exact ⟨hpriced _ (List.mem_singleton_self _), rfl⟩

end Decision

end CostGovernor
