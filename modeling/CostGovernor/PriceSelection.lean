import CostGovernor.Feasibility

/-!
# The validated price and the charged price

`checkPrice` and `findPrice` scan the schedule with the same rank. The check also
asks for a label the policy accepts, while the projection is called without a
policy and takes any label. They point at the same observation exactly when an
accepted one leads the scan over all applicable ones.
-/

namespace CostGovernor

open ScanSelection

/-- The check skips what the projection skips, and unaccepted labels. -/
theorem passesCheck_eq (want : PriceKind) (currency : ByteString) (nowMs : Int64) (pol : CostPolicy)
    (dev : DeviceId) (res : ResourceId) (o : PriceObservation) :
    passesCheck want currency nowMs pol dev res o =
      (obsApplies o want currency nowMs dev res none && pol.acceptsLabel o.label) := by
  unfold passesCheck obsApplies inInterval
  simp only [Bool.if_false_left, Option.any_none, Bool.false_eq_true, decide_false, Bool.not_false,
    Bool.true_and, Bool.and_true, Bool.not_eq_true', Bool.decide_eq_false, Bool.not_not,
    Bool.decide_eq_true]
  ac_rfl

theorem checkPrice_obs (s : PriceSchedule) (want : PriceKind) (currency : ByteString) (nowMs : Int64)
    (pol : CostPolicy) (dev : DeviceId) (res : ResourceId) :
    (checkPrice s want currency nowMs pol dev res).obs =
      scan (passesCheck want currency nowMs pol dev res) moreSpecific s.observations := by
  unfold checkPrice
  cases scan (passesCheck want currency nowMs pol dev res) moreSpecific s.observations with
  | none => rfl
  | some best => rfl

theorem checkPrice_present_iff (s : PriceSchedule) (want : PriceKind) (currency : ByteString)
    (nowMs : Int64) (pol : CostPolicy) (dev : DeviceId) (res : ResourceId) :
    (checkPrice s want currency nowMs pol dev res).present = true ↔
      ∃ p, (checkPrice s want currency nowMs pol dev res).obs = some p := by
  unfold checkPrice
  cases scan (passesCheck want currency nowMs pol dev res) moreSpecific s.observations with
  | none => simp
  | some best => simp

section MostSpecific

def PriceObservation.scopedToBoth (o : PriceObservation) : Bool :=
  o.device.valid && o.resourceScope.valid

/-- A lookup that returns a most specific observation among those that apply. -/
structure MostSpecific (applies : PriceObservation → Bool) (observations : List PriceObservation)
    (result : Option PricePointer) : Prop where
  none_iff : result = none ↔ ∀ o ∈ observations, applies o = false
  applicable : ∀ o i, result = some (o, i) → observations[i]? = some o ∧ applies o = true
  maximal : ∀ o i, result = some (o, i) → ∀ p ∈ observations, applies p = true →
    ¬ Narrower (fun o => o.device.valid) (fun o => o.resourceScope.valid) p o
  firstBoth : (∃ p ∈ observations, applies p = true ∧ p.scopedToBoth = true) →
    ∃ o i, result = some (o, i) ∧ o.scopedToBoth = true ∧
      ∀ j q, j < i → observations[j]? = some q → applies q = true → q.scopedToBoth = false

theorem mostSpecific_scan (applies : PriceObservation → Bool)
    (observations : List PriceObservation) :
    MostSpecific applies observations (scan applies moreSpecific observations) where
  none_iff := scan_eq_none_iff observations
  applicable o i h := by
    obtain ⟨pre, post, hl, rfl, hk, -⟩ := (scan_eq_some_iff observations o i).1 h
    exact ⟨by simp [hl], hk⟩
  maximal o i h p hp hk := not_narrower_of_scan h hp hk
  firstBoth := by
    rintro ⟨p, hp, hk, hboth⟩
    obtain ⟨hd, hr⟩ := (Bool.and_eq_true _ _).mp hboth
    obtain ⟨pre, o, post, hl, hs, ho, hpre⟩ := scan_scope_first_both
      (d := fun o : PriceObservation => o.device.valid) (r := fun o => o.resourceScope.valid)
      hp hk hd hr
    refine ⟨o, pre.length, hs, (Bool.and_eq_true _ _).mpr ho, ?_⟩
    intro j q hj hq hkq
    rw [hl, List.getElem?_append_left hj] at hq
    have hnot := hpre q (List.mem_of_getElem? hq) hkq
    rw [← Bool.and_eq_true] at hnot
    exact Bool.not_eq_true _ ▸ hnot

end MostSpecific

/-- Both lookups return a most specific price, the check among the accepted labels. -/
theorem price_lookup_most_specific (s : PriceSchedule) (want : PriceKind) (currency : ByteString)
    (nowMs : Int64) (dev : DeviceId) (res : ResourceId) :
    (∀ pol, MostSpecific (fun o => obsApplies o want currency nowMs dev res pol) s.observations
        (findPrice s want currency nowMs dev res pol)) ∧
      ∀ pol : CostPolicy, MostSpecific
        (fun o => obsApplies o want currency nowMs dev res none && pol.acceptsLabel o.label)
        s.observations (checkPrice s want currency nowMs pol dev res).obs ∧
      ((checkPrice s want currency nowMs pol dev res).present = true ↔
        ∃ p, (checkPrice s want currency nowMs pol dev res).obs = some p) := by
  refine ⟨fun pol => mostSpecific_scan _ _, fun pol => ⟨?_, checkPrice_present_iff ..⟩⟩
  rw [checkPrice_obs, funext (passesCheck_eq want currency nowMs pol dev res)]
  exact mostSpecific_scan _ _

namespace Governor

section Query

variable (g : Governor) (plan : ExecutionPlan) (c : CostComponent)

def Applies (o : PriceObservation) : Bool :=
  obsApplies o (kindForCheck c) g.policy.currency g.now plan.device plan.resource none

def Accepted (o : PriceObservation) : Bool := g.Applies plan c o && g.policy.acceptsLabel o.label

/-- The observation takes the lead from every applicable one before it, and no
applicable one after it is scoped to a device or a resource where it is not. -/
def Leads (o : PriceObservation) : Prop :=
  ∃ pre post, g.schedule.observations = pre ++ o :: post ∧ g.Applies plan c o = true ∧
    Displaces (fun o => o.device.valid) (fun o => o.resourceScope.valid) (g.Applies plan c) o pre ∧
    ∀ p ∈ post, g.Applies plan c p = true → moreSpecific p o = false

/-- An accepted observation takes the lead from everything before it, both among
the applicable and among the accepted ones, and nothing applicable after it is
scoped to a device or a resource where it is not. -/
def AcceptedLeads : Prop :=
  ∃ pre o post, g.schedule.observations = pre ++ o :: post ∧ g.Accepted plan c o = true ∧
    Displaces (fun o => o.device.valid) (fun o => o.resourceScope.valid) (g.Applies plan c) o pre ∧
    Displaces (fun o => o.device.valid) (fun o => o.resourceScope.valid) (g.Accepted plan c) o pre ∧
    ∀ p ∈ post, g.Applies plan c p = true → moreSpecific p o = false

end Query

/-- The projection charges the observation that leads the schedule. -/
theorem leads_iff (g : Governor) (plan : ExecutionPlan) (c : CostComponent)
    (o : PriceObservation) : g.Leads plan c o ↔ ∃ i, g.chargedPrice plan c = some (o, i) := by
  constructor
  · rintro ⟨pre, post, hl, hrest⟩
    exact ⟨pre.length, (scan_scope_eq_some_iff _ o _).2 ⟨pre, post, hl, rfl, hrest⟩⟩
  · rintro ⟨i, hi⟩
    obtain ⟨pre, post, hl, _, hrest⟩ := (scan_scope_eq_some_iff _ o i).1 hi
    exact ⟨pre, post, hl, hrest⟩

theorem priceCheck_obs (g : Governor) (plan : ExecutionPlan) (c : CostComponent) :
    (g.priceCheck plan c).obs = scan (g.Accepted plan c) moreSpecific g.schedule.observations := by
  have hkeep : passesCheck (kindForCheck c) g.policy.currency g.now g.policy plan.device
      plan.resource = g.Accepted plan c := by
    funext o
    exact passesCheck_eq _ _ _ _ _ _ _
  unfold priceCheck
  rw [checkPrice_obs, hkeep]

theorem acceptedLeads_iff (g : Governor) (plan : ExecutionPlan) (c : CostComponent) :
    g.AcceptedLeads plan c ↔
      ∃ p, g.chargedPrice plan c = some p ∧ (g.priceCheck plan c).obs = some p := by
  have hsub : ∀ o, g.Accepted plan c o = true → g.Applies plan c o = true := by
    intro o ho
    unfold Accepted at ho
    rw [Bool.and_eq_true] at ho
    exact ho.1
  rw [priceCheck_obs]
  exact (scan_agree_iff hsub g.schedule.observations).symm

theorem FeasibleVerdict.checked {g : Governor} {plan : ExecutionPlan} {econ : PlanEconomics}
    (h : FeasibleVerdict g plan econ) {c : CostComponent} (hc : c ∈ checkedComponents)
    (hne : expectedAmount plan c ≠ 0) :
    (∃ p, (g.priceCheck plan c).obs = some p) ∧ (g.priceCheck plan c).stale = false := by
  obtain ⟨hpresent, hstale⟩ := (g.priceVerdict_eq_none_iff plan checkedComponents).1 h.prices c hc hne
  exact ⟨(checkPrice_present_iff _ _ _ _ _ _ _).1 hpresent, hstale⟩

end Governor

open Governor

/-- For every used component of a feasible plan, the projection charges the price
that was validated exactly when an accepted observation leads the schedule. -/
theorem validated_price_is_charged_iff (g : Governor) (plan : ExecutionPlan) (econ : PlanEconomics)
    (hplan : g.evaluatePlan plan = .ok econ) (hfeasible : econ.feasible = .feasible)
    (c : CostComponent) (hc : c ∈ checkedComponents) (hused : expectedAmount plan c ≠ 0) :
    g.chargedPrice plan c = (g.priceCheck plan c).obs ↔ g.AcceptedLeads plan c := by
  obtain ⟨⟨p, hp⟩, _⟩ := (feasibleVerdict hplan hfeasible).checked hc hused
  rw [acceptedLeads_iff]
  constructor
  · intro hsame
    exact ⟨p, hsame.trans hp, hp⟩
  · intro hboth
    obtain ⟨q, hcharged, hvalid⟩ := hboth
    exact hcharged.trans hvalid.symm

def refusedLabelFirst : Governor :=
  (fresh 0).setPriceSchedule { observations := [
    { id := ⟨1⟩, amount := ⟨7⟩, label := .synthetic }, { id := ⟨2⟩, amount := ⟨3⟩ }] }

theorem validated_price_is_charged_iff_accepted :
    let g := (fresh 0).setPriceSchedule { observations := [{ id := ⟨2⟩, amount := ⟨3⟩ }] }
    let plan : ExecutionPlan := { id := ⟨1⟩, expectedAcceleratorTime := 1000000000 }
    g.chargedPrice plan .acceleratorTime = some ({ id := ⟨2⟩, amount := ⟨3⟩ }, 0) ∧
      g.AcceptedLeads plan .acceleratorTime :=
  ⟨rfl, (validated_price_is_charged_iff _ _ _ rfl rfl .acceleratorTime (by decide)
    (by decide)).1 rfl⟩

theorem charged_price_was_not_validated :
    let g := refusedLabelFirst
    let plan : ExecutionPlan := { id := ⟨1⟩, expectedAcceleratorTime := 1000000000 }
    ∃ econ, g.evaluatePlan plan = .ok econ ∧ econ.feasible = .feasible ∧
      (g.priceCheck plan .acceleratorTime).obs = some ({ id := ⟨2⟩, amount := ⟨3⟩ }, 1) ∧
      g.chargedPrice plan .acceleratorTime =
        some ({ id := ⟨1⟩, amount := ⟨7⟩, label := .synthetic }, 0) ∧
      econ.projected.total = ⟨7⟩ := by
  exact ⟨_, rfl, rfl, rfl, rfl, rfl⟩

end CostGovernor
