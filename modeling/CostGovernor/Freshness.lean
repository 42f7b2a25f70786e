import CostGovernor.PriceSelection

/-!
# Freshness of the prices that are charged

Ages are checked per used component, on the validated observation and with a
64-bit subtraction. Three kinds of stale price get through: one charged in place
of the validated one, the accelerator price of a plan whose only accelerator
usage is recomputation, and one so old that the subtraction wraps to a negative
age.
-/

namespace CostGovernor

def ExactlyFresh (maxAgeMs nowMs sinceMs : Int64) : Prop :=
  0 < maxAgeMs.toInt → nowMs.toInt - sinceMs.toInt ≤ maxAgeMs.toInt

/-- The age does not exceed what a signed word holds. -/
def AgeFits (maxAgeMs nowMs sinceMs : Int64) : Prop :=
  0 < maxAgeMs.toInt → nowMs.toInt - sinceMs.toInt < 2 ^ 63

theorem ExactlyFresh.ageFits {maxAgeMs nowMs sinceMs : Int64}
    (h : ExactlyFresh maxAgeMs nowMs sinceMs) : AgeFits maxAgeMs nowMs sinceMs := by
  intro hpos
  have hle := h hpos
  have hlt := maxAgeMs.toInt_lt
  omega

/-- The age test is exact as long as the age fits. -/
theorem exactlyFresh_of_not_tooOld {maxAgeMs nowMs sinceMs : Int64}
    (h : tooOld maxAgeMs nowMs sinceMs = false) (hfits : AgeFits maxAgeMs nowMs sinceMs) :
    ExactlyFresh maxAgeMs nowMs sinceMs := by
  intro hpos
  have hlt := hfits hpos
  have hnow := nowMs.le_toInt
  have hsince := sinceMs.toInt_lt
  have hsub := Int64.toInt_sub nowMs sinceMs
  rw [Int.bmod_def] at hsub
  simp only [tooOld, decide_eq_false_iff_not, Int64.lt_iff_toInt_lt, Int64.toInt_zero, not_and,
    not_lt] at h
  have hage := h hpos
  split_ifs at hsub <;> omega

namespace Governor

section Plan

variable (g : Governor) (plan : ExecutionPlan)

/-- The observations whose price enters the projected total of a feasible plan:
those of the used components, and the accelerator price of the recomputation. -/
def Contributes (p : PricePointer) : Prop :=
  (∃ c ∈ checkedComponents, expectedAmount plan c ≠ 0 ∧ g.chargedPrice plan c = some p) ∨
    plan.recoveryRecomputeNs ≠ 0 ∧ g.chargedPrice plan .acceleratorTime = some p

/-- Every contributing observation and its schedule are within their age limits. -/
def ChargesFresh : Prop :=
  ∀ p, g.Contributes plan p →
    ExactlyFresh g.policy.maxEvidenceAgeMs g.now p.1.observedAtMs ∧
      ExactlyFresh g.policy.priceScheduleMaxAgeMs g.now g.schedule.createdAtMs

/-- What freshness takes beyond the checks that were made: no age too large for
its word, and the limits met by the observations the checks did not look at. -/
structure AgesCovered : Prop where
  validated : ∀ c ∈ checkedComponents, expectedAmount plan c ≠ 0 → g.AcceptedLeads plan c →
    ∀ o, g.Leads plan c o → AgeFits g.policy.maxEvidenceAgeMs g.now o.observedAtMs
  displaced : ∀ c ∈ checkedComponents, expectedAmount plan c ≠ 0 → ¬ g.AcceptedLeads plan c →
    ∀ o, g.Leads plan c o → ExactlyFresh g.policy.maxEvidenceAgeMs g.now o.observedAtMs
  schedule : (∃ c ∈ checkedComponents, expectedAmount plan c ≠ 0) →
    AgeFits g.policy.priceScheduleMaxAgeMs g.now g.schedule.createdAtMs
  recomputation : plan.recoveryRecomputeNs ≠ 0 → plan.expectedAcceleratorTime = 0 →
    ∀ o, g.Leads plan .acceleratorTime o →
      ExactlyFresh g.policy.maxEvidenceAgeMs g.now o.observedAtMs ∧
        ExactlyFresh g.policy.priceScheduleMaxAgeMs g.now g.schedule.createdAtMs

end Plan

variable {g : Governor} {plan : ExecutionPlan} {econ : PlanEconomics}

theorem priceCheck_stale {c : CostComponent} {p : PricePointer}
    (hobs : (g.priceCheck plan c).obs = some p) (h : (g.priceCheck plan c).stale = false) :
    tooOld g.policy.priceScheduleMaxAgeMs g.now g.schedule.createdAtMs = false ∧
      tooOld g.policy.maxEvidenceAgeMs g.now p.1.observedAtMs = false := by
  unfold priceCheck checkPrice at hobs h
  split at hobs
  · cases hobs
  · next best hscan =>
      rw [hscan] at h
      rw [← Option.some.inj hobs]
      exact Bool.or_eq_false_iff.1 h

/-- A used component of a feasible plan has a price to charge. -/
theorem FeasibleVerdict.chargedPrice {c : CostComponent} (h : FeasibleVerdict g plan econ)
    (hc : c ∈ checkedComponents) (hne : expectedAmount plan c ≠ 0) :
    ∃ p, g.chargedPrice plan c = some p := by
  obtain ⟨bd, hbd⟩ := chargeAttempt_of_project h.projection
  obtain ⟨m, hm⟩ := (priced_of_chargeAttempt hbd).1 _ (mem_usages_planToEvidence plan hc) hne
  obtain ⟨p, _, hp, -⟩ := (g.priced_planToEvidence_iff plan hc).1 hm
  exact ⟨p, hp⟩

/-- An observation contributes exactly when one of the amounts the projection charges is
priced with it. -/
theorem FeasibleVerdict.contributes_iff (h : FeasibleVerdict g plan econ) (p : PricePointer) :
    g.Contributes plan p ↔ ∃ c ∈ checkedComponents, ∃ amount m denom,
      ((c, amount) ∈ (planToEvidence plan).usages ∨
        c = .acceleratorTime ∧ amount = (planToEvidence plan).recomputeNs) ∧ amount ≠ 0 ∧
      priced g.schedule g.policy.currency g.now (planToEvidence plan) c amount = .ok m ∧
      g.chargedPrice plan c = some p ∧ denominatorFor p.1.kind = .ok denom ∧
      ceilMulDiv amount p.1.amount.value denom = .ok m.value := by
  obtain ⟨bd, hbd⟩ := chargeAttempt_of_project h.projection
  obtain ⟨husages, hrecompute⟩ := priced_of_chargeAttempt hbd
  have hpriced : ∀ c ∈ checkedComponents, ∀ amount m, g.chargedPrice plan c = some p →
      priced g.schedule g.policy.currency g.now (planToEvidence plan) c amount = .ok m →
      ∃ denom, denominatorFor p.1.kind = .ok denom ∧
        ceilMulDiv amount p.1.amount.value denom = .ok m.value := by
    intro c hc amount m hp hm
    obtain ⟨p', denom, hp', hprice⟩ := (g.priced_planToEvidence_iff plan hc).1 hm
    obtain rfl : p' = p := Option.some.inj (hp'.symm.trans hp)
    exact ⟨denom, hprice⟩
  constructor
  · rintro (⟨c, hc, hne, hp⟩ | ⟨hne, hp⟩)
    · have hmem := mem_usages_planToEvidence plan hc
      obtain ⟨m, hm⟩ := husages _ hmem hne
      obtain ⟨denom, hprice⟩ := hpriced c hc _ m hp hm
      exact ⟨c, hc, _, m, denom, Or.inl hmem, hne, hm, hp, hprice⟩
    · have hc : CostComponent.acceleratorTime ∈ checkedComponents := by decide
      obtain ⟨m, hm⟩ := hrecompute hne
      obtain ⟨denom, hprice⟩ := hpriced _ hc _ m hp hm
      exact ⟨_, hc, _, m, denom, Or.inr ⟨rfl, rfl⟩, hne, hm, hp, hprice⟩
  · rintro ⟨c, hc, amount, m, denom, hused | ⟨rfl, rfl⟩, hne, -, hp, -⟩
    · rw [usages_planToEvidence] at hused
      obtain ⟨c', -, heq⟩ := List.mem_map.1 hused
      cases heq
      exact Or.inl ⟨c, hc, hne, hp⟩
    · exact Or.inr ⟨hne, hp⟩

theorem agesCovered_of_chargesFresh (h : FeasibleVerdict g plan econ) (hfresh : ChargesFresh g plan) :
    AgesCovered g plan where
  validated := by
    intro c hc hne _ o ho
    obtain ⟨i, hp⟩ := (g.leads_iff plan c o).1 ho
    exact (hfresh (o, i) (Or.inl ⟨c, hc, hne, hp⟩)).1.ageFits
  displaced := by
    intro c hc hne _ o ho
    obtain ⟨i, hp⟩ := (g.leads_iff plan c o).1 ho
    exact (hfresh (o, i) (Or.inl ⟨c, hc, hne, hp⟩)).1
  schedule := by
    intro hused
    obtain ⟨c, hc, hne⟩ := hused
    obtain ⟨p, hp⟩ := h.chargedPrice hc hne
    exact (hfresh p (Or.inl ⟨c, hc, hne, hp⟩)).2.ageFits
  recomputation := by
    intro hre _ o ho
    obtain ⟨i, hp⟩ := (g.leads_iff plan .acceleratorTime o).1 ho
    exact hfresh (o, i) (Or.inr ⟨hre, hp⟩)

theorem AgesCovered.component_fresh (hages : AgesCovered g plan) (h : FeasibleVerdict g plan econ)
    {c : CostComponent} (hc : c ∈ checkedComponents) (hne : expectedAmount plan c ≠ 0)
    {p : PricePointer} (hp : g.chargedPrice plan c = some p) :
    ExactlyFresh g.policy.maxEvidenceAgeMs g.now p.1.observedAtMs ∧
      ExactlyFresh g.policy.priceScheduleMaxAgeMs g.now g.schedule.createdAtMs := by
  obtain ⟨⟨q, hq⟩, hstale⟩ := h.checked hc hne
  obtain ⟨hschedule, hobs⟩ := priceCheck_stale hq hstale
  have hlead : g.Leads plan c p.1 := (g.leads_iff plan c p.1).2 ⟨p.2, hp⟩
  refine ⟨?_, exactlyFresh_of_not_tooOld hschedule (hages.schedule ⟨c, hc, hne⟩)⟩
  by_cases haccepted : g.AcceptedLeads plan c
  · -- the charged observation is the one whose age was tested
    obtain ⟨q', hcharged, hvalid⟩ := (g.acceptedLeads_iff plan c).1 haccepted
    have hqp : q = p :=
      Option.some.inj ((hq.symm.trans hvalid).trans (hcharged.symm.trans hp))
    exact exactlyFresh_of_not_tooOld (hqp ▸ hobs) (hages.validated c hc hne haccepted p.1 hlead)
  · exact hages.displaced c hc hne haccepted p.1 hlead

theorem chargesFresh_of_agesCovered (h : FeasibleVerdict g plan econ) (hages : AgesCovered g plan) :
    ChargesFresh g plan := by
  intro p hp
  rcases hp with ⟨c, hc, hne, hcharged⟩ | ⟨hre, hcharged⟩
  · exact hages.component_fresh h hc hne hcharged
  · by_cases haccel : plan.expectedAcceleratorTime = 0
    · exact hages.recomputation hre haccel p.1
        ((g.leads_iff plan .acceleratorTime p.1).2 ⟨p.2, hcharged⟩)
    · exact hages.component_fresh (c := .acceleratorTime) h (by decide) haccel hcharged

end Governor

open Governor

/-- A feasible plan is priced by fresh observations only, exactly when the ages
the checks left open are covered. -/
theorem feasible_plan_charges_fresh_iff (g : Governor) (plan : ExecutionPlan) (econ : PlanEconomics)
    (hplan : g.evaluatePlan plan = .ok econ) (hfeasible : econ.feasible = .feasible) :
    g.ChargesFresh plan ↔ g.AgesCovered plan := by
  have h := feasibleVerdict hplan hfeasible
  exact ⟨agesCovered_of_chargesFresh h, chargesFresh_of_agesCovered h⟩

def acceleratorObserved (observedAtMs : Int64) : Governor :=
  (fresh 1000000).setPriceSchedule { createdAtMs := 1000000, observations := [
    { id := ⟨1⟩, amount := ⟨7⟩, observedAtMs := observedAtMs }] }

def recomputeOnly : ExecutionPlan := { id := ⟨1⟩, recoveryRecomputeNs := 1000000000 }

theorem feasible_plan_charges_fresh_iff_recomputeOnly :
    (∃ p, (acceleratorObserved 990000).Contributes recomputeOnly p) ∧
      (acceleratorObserved 990000).ChargesFresh recomputeOnly ∧
      (acceleratorObserved 990000).AgesCovered recomputeOnly := by
  have hfresh : (acceleratorObserved 990000).ChargesFresh recomputeOnly := by
    rintro p (⟨c, hc, hused, -⟩ | ⟨-, hp⟩)
    · exact absurd hused (by revert c; decide)
    · obtain rfl : p = ({ id := ⟨1⟩, amount := ⟨7⟩, observedAtMs := 990000 }, 0) :=
        (Option.some.inj hp).symm
      exact ⟨fun _ => by decide, fun _ => by decide⟩
  exact ⟨⟨_, Or.inr ⟨by decide, rfl⟩⟩, hfresh,
    (feasible_plan_charges_fresh_iff _ _ _ rfl rfl).1 hfresh⟩

theorem stale_price_makes_plan_feasible :
    ∃ econ p, (acceleratorObserved 0).evaluatePlan recomputeOnly = .ok econ ∧
      econ.feasible = .feasible ∧ econ.projected.total = ⟨7⟩ ∧
      (acceleratorObserved 0).Contributes recomputeOnly p ∧
      (acceleratorObserved 0).policy.maxEvidenceAgeMs = 30000 ∧
      (acceleratorObserved 0).now.toInt - p.1.observedAtMs.toInt = 1000000 := by
  exact ⟨_, _, rfl, rfl, rfl, Or.inr ⟨by decide, rfl⟩, rfl, rfl⟩

end CostGovernor
