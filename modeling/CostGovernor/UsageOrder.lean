import CostGovernor.AttemptCosts
import CostGovernor.PlanSelection
import CostGovernor.Verdicts

/-!
# Using less never costs more

A plan that uses no more of anything than a FEASIBLE one, on the same device and
resource, needs no price the other does not need and pays no more for any amount. Its
projection is therefore returned as well, with a total the budgets can take.
-/

namespace CostGovernor

open Executions

/-- The first plan asks for the same treatment and uses no more than the second. -/
structure UsesNoMore (p q : ExecutionPlan) : Prop where
  device : p.device = q.device
  resource : p.resource = q.resource
  label : p.label = q.label
  meetsHardSlo : p.meetsHardSlo = q.meetsHardSlo
  amounts : ∀ c ∈ checkedComponents,
    0 ≤ expectedAmount p c ∧ expectedAmount p c ≤ expectedAmount q c
  recomputation : 0 ≤ p.recoveryRecomputeNs ∧ p.recoveryRecomputeNs ≤ q.recoveryRecomputeNs

theorem UsesNoMore.expectedAmount_ne_zero {p q : ExecutionPlan} (h : UsesNoMore p q)
    {c : CostComponent} (hc : c ∈ checkedComponents) (hp : expectedAmount p c ≠ 0) :
    expectedAmount q c ≠ 0 := by
  obtain ⟨hnonneg, hle⟩ := h.amounts c hc
  intro hq
  rw [hq] at hle
  exact hp (Int64.le_antisymm hle hnonneg)

section Prices

variable {schedule : PriceSchedule} {currency : ByteString} {nowMs : Int64}

def Charge.CostsNoMore (schedule : PriceSchedule) (currency : ByteString) (nowMs : Int64)
    (u v : Charge) : Prop :=
  ∀ z, v.price schedule currency nowMs = some z →
    ∃ z', u.price schedule currency nowMs = some z' ∧ z' ≤ z

theorem Charge.costsNoMore {u v : Charge} (hdevice : u.ev.device = v.ev.device)
    (hresource : u.ev.resource = v.ev.resource) (hcomp : u.comp = v.comp) (hnonneg : 0 ≤ u.amount)
    (hle : u.amount ≤ v.amount) : u.CostsNoMore schedule currency nowMs v := by
  intro z hz
  by_cases hzero : u.amount = 0
  · exact ⟨0, if_pos hzero, Charge.price_nonneg hz⟩
  · have hv : v.amount ≠ 0 := by
      intro hv
      rw [hv] at hle
      exact hzero (Int64.le_antisymm hle hnonneg)
    obtain ⟨m, hm, rfl⟩ := (Charge.price_eq_some_iff hv z).1 hz
    rw [← hcomp] at hm
    obtain ⟨m', hm', hsmaller⟩ := priced_mono hdevice hresource (Int64.le_iff_toInt_le.1 hnonneg)
      (Int64.le_iff_toInt_le.1 hle) hm
    exact ⟨m'.toInt, (Charge.price_eq_some_iff hzero _).2 ⟨m', hm', rfl⟩, hsmaller⟩

theorem chargesTotal_mono {us vs : List Charge}
    (h : List.Forall₂ (Charge.CostsNoMore schedule currency nowMs) us vs)
    (hpriced : AllPriced schedule currency nowMs vs) :
    AllPriced schedule currency nowMs us ∧
      chargesTotal schedule currency nowMs us ≤ chargesTotal schedule currency nowMs vs := by
  induction h with
  | nil => exact ⟨hpriced, le_rfl⟩
  | @cons u v us vs huv _ ih =>
      obtain ⟨z, hz⟩ := hpriced v (by simp)
      obtain ⟨z', hz', hle⟩ := huv z hz
      obtain ⟨hall, hsum⟩ := ih (fun w hw => hpriced w (by simp [hw]))
      refine ⟨?_, ?_⟩
      · intro w hw
        rcases List.mem_cons.1 hw with rfl | hw
        · exact ⟨z', hz'⟩
        · exact hall w hw
      · simp only [chargesTotal, List.map_cons, List.sum_cons, hz, hz', Option.getD_some] at hsum ⊢
        exact add_le_add hle hsum

end Prices

namespace UsesNoMore

variable {p q : ExecutionPlan} (h : UsesNoMore p q)

include h

theorem charges (schedule : PriceSchedule) (currency : ByteString) (nowMs : Int64) :
    List.Forall₂ (Charge.CostsNoMore schedule currency nowMs) (planToEvidence p).charges
      (planToEvidence q).charges := by
  have hamount : ∀ c ∈ checkedComponents, Charge.CostsNoMore schedule currency nowMs
      ⟨planToEvidence p, c, c, expectedAmount p c⟩ ⟨planToEvidence q, c, c, expectedAmount q c⟩ :=
    fun c hc => Charge.costsNoMore h.device h.resource rfl (h.amounts c hc).1 (h.amounts c hc).2
  have hrecompute : Charge.CostsNoMore schedule currency nowMs (planToEvidence p).recomputeCharge
      (planToEvidence q).recomputeCharge :=
    Charge.costsNoMore h.device h.resource rfl h.recomputation.1 h.recomputation.2
  refine List.rel_append ?_ (.cons hrecompute .nil)
  rw [CostEvidence.usageCharges, CostEvidence.usageCharges, usages_planToEvidence,
    usages_planToEvidence, List.map_map, List.map_map, List.forall₂_map_left_iff,
    List.forall₂_map_right_iff, List.forall₂_same]
  exact hamount

theorem project_le {schedule : PriceSchedule} {currency : ByteString} {nowMs : Int64}
    {bd : CostBreakdown} (hq : project schedule currency nowMs [planToEvidence q] = .ok bd) :
    ∃ bd', project schedule currency nowMs [planToEvidence p] = .ok bd' ∧ bd'.total ≤ bd.total := by
  obtain ⟨hpriced, htotal⟩ := project_total schedule currency nowMs hq
  obtain ⟨hpriced', hsum⟩ := chargesTotal_mono (h.charges schedule currency nowMs)
    (hpriced _ (List.mem_singleton_self _))
  have hle : attemptCost schedule currency nowMs (planToEvidence p) ≤ bd.total.toInt := by
    rw [htotal, List.map_singleton, List.sum_singleton]
    exact hsum
  obtain ⟨bd', hbd'⟩ : ∃ bd', project schedule currency nowMs [planToEvidence p] = .ok bd' := by
    refine exists_project schedule currency nowMs ?_ ?_
    · intro ev hev
      rw [List.mem_singleton.1 hev]
      exact hpriced'
    · rw [List.map_singleton, List.sum_singleton]
      exact hle.trans_lt bd.total.toInt_lt
  refine ⟨bd', hbd', ?_⟩
  have htotal' := (project_total schedule currency nowMs hbd').2
  rw [List.map_singleton, List.sum_singleton] at htotal'
  rw [MoneyMicros.le_iff_toInt_le, htotal']
  exact hle

theorem priceVerdict_eq_none {g : Governor} (hq : g.priceVerdict q checkedComponents = none) :
    g.priceVerdict p checkedComponents = none := by
  rw [Governor.priceVerdict_eq_none_iff] at hq ⊢
  intro c hc hp
  have hcheck : g.priceCheck p c = g.priceCheck q c := by
    rw [Governor.priceCheck, Governor.priceCheck, h.device, h.resource]
  rw [hcheck]
  exact hq c hc (h.expectedAmount_ne_zero hc hp)

end UsesNoMore

theorem Governor.firstExceeded_none_mono {total total' : MoneyMicros} (hle : total' ≤ total)
    {bs : List Budget} (h : firstExceeded total bs = .ok none) :
    firstExceeded total' bs = .ok none := by
  rw [firstExceeded_eq_none_iff] at h ⊢
  intro b hb hard
  obtain ⟨remaining, hremaining, hfits⟩ := h b hb hard
  exact ⟨remaining, hremaining, hle.trans hfits⟩

/-- A plan that uses no more than a FEASIBLE one is FEASIBLE, at no higher a total. -/
theorem using_less_never_costs_more (g : Governor) (p q : ExecutionPlan) (h : UsesNoMore p q)
    (econ : PlanEconomics) (hq : g.evaluatePlan q = .ok econ)
    (hfeasible : econ.feasible = .feasible) :
    ∃ econ', g.evaluatePlan p = .ok econ' ∧ econ'.feasible = .feasible ∧
      econ'.projected.total ≤ econ.projected.total := by
  have hverdict := Governor.feasibleVerdict hq hfeasible
  obtain ⟨bd, hbd, hle⟩ := h.project_le hverdict.projection
  have hreaches : g.ReachesBudgets p bd :=
    ⟨h.label ▸ hverdict.supported, h.meetsHardSlo.trans hverdict.meetsSlo, hverdict.revalidated,
      h.priceVerdict_eq_none hverdict.prices, hbd⟩
  have hbudgets := Governor.firstExceeded_none_mono hle hverdict.budgets
  refine ⟨Governor.budgetVerdict (Governor.economicsOf p bd) none, ?_, rfl, hle⟩
  rw [hreaches.evaluatePlan_eq, Governor.judgeBudgets, hbudgets]
  rfl

def longerPlan : ExecutionPlan := { id := ⟨2⟩, expectedAcceleratorTime := 2000000000 }

def shorterPlan : ExecutionPlan := { id := ⟨1⟩, expectedAcceleratorTime := 1000000000 }

theorem using_less_never_costs_more_shorterPlan :
    ∃ econ econ', pricedGovernor.evaluatePlan longerPlan = .ok econ ∧
      econ.projected.total = ⟨6⟩ ∧ pricedGovernor.evaluatePlan shorterPlan = .ok econ' ∧
      econ'.feasible = .feasible ∧ econ'.projected.total = ⟨3⟩ ∧
      econ'.projected.total ≤ econ.projected.total := by
  have hless : UsesNoMore shorterPlan longerPlan := ⟨rfl, rfl, rfl, rfl, by decide, by decide⟩
  obtain ⟨econ', hecon', hfeasible, hle⟩ :=
    using_less_never_costs_more pricedGovernor shorterPlan longerPlan hless _ rfl rfl
  obtain rfl := Except.ok.inj hecon'
  exact ⟨_, _, rfl, rfl, hecon', hfeasible, rfl, hle⟩

end CostGovernor
