import CostGovernor.DecisionOutlines
import CostGovernor.PriceTerms
import CostGovernor.UsageOrder

/-!
# Better terms never cost more

A governor whose prices are cut and whose hard budgets have more room makes no plan
infeasible that was feasible and no plan dearer, so a decision it takes selects a total that
is not higher.
-/

namespace CostGovernor

open Executions ScanSelection

/-- The first observation is the second at a price that is not higher. -/
structure Undercuts (o' o : PriceObservation) : Prop extends SameTests o' o where
  cheaper : o'.amount ≤ o.amount

/-- The first governor has the prices of the second or lower ones and at least its budgets'
room, and agrees with it in what else an evaluation reads. -/
structure BetterTerms (g' g : Governor) : Prop where
  now : g'.now = g.now
  policy : g'.policy = g.policy
  revalidation : g'.revalidationNeeded = g.revalidationNeeded
  created : g'.schedule.createdAtMs = g.schedule.createdAtMs
  prices : List.Forall₂ Undercuts g'.schedule.observations g.schedule.observations
  budgets : ∀ b' ∈ g'.budgets.values, b'.mode = .hard → ∃ b ∈ g.budgets.values,
    b.mode = .hard ∧ (b.HasRemaining → b'.HasRemaining) ∧ b.room ≤ b'.room

theorem ceilMulDiv_comm {a b d q : Int64} (h : ceilMulDiv a b d = .ok q) :
    ceilMulDiv b a d = .ok q := by
  obtain ⟨⟨ha, hb, hd⟩, hfits, hq⟩ := ceilMulDiv_eq_ok_iff.1 h
  rw [Nat.mul_comm] at hfits hq
  exact ceilMulDiv_eq_ok_iff.2 ⟨⟨hb, ha, hd⟩, hfits, hq⟩

section Prices

variable {s' s : PriceSchedule} {currency : ByteString} {nowMs : Int64}
  (h : List.Forall₂ Undercuts s'.observations s.observations)

include h

/-- What is priced stays priced when prices are cut, and not higher. -/
theorem priced_undercut {ev : CostEvidence} {comp : CostComponent} {amount : Int64}
    {m : MoneyMicros} (hm : priced s currency nowMs ev comp amount = .ok m) :
    ∃ m', priced s' currency nowMs ev comp amount = .ok m' ∧ m'.toInt ≤ m.toInt := by
  obtain ⟨kind, p, denom, hkind, hp, hdenom, hceil⟩ := projectComponent_eq_ok_iff.1 hm
  have hfound : Option.Rel (fun x y => Undercuts x.1 y.1)
      (findPrice s' kind currency nowMs ev.device ev.resource none)
      (findPrice s kind currency nowMs ev.device ev.resource none) :=
    findPrice_rel (fun _ _ hxy => hxy.toSameTests) h kind currency nowMs ev.device ev.resource none
  rw [hp] at hfound
  cases hp' : findPrice s' kind currency nowMs ev.device ev.resource none with
  | none =>
      rw [hp'] at hfound
      cases hfound
  | some p' =>
      rw [hp'] at hfound
      obtain ⟨hcut⟩ := hfound
      have hprice := (ceilMulDiv_eq_ok_iff.1 hceil).1.2.1
      have hnonneg : 0 ≤ p'.1.amount.value.toInt := by
        have hsign := (MoneyMicros.negative_eq_false_iff p.1.amount).2 hprice
        exact (MoneyMicros.negative_eq_false_iff p'.1.amount).1 (hcut.sign.trans hsign)
      obtain ⟨q, hq, hsmaller⟩ := ceilMulDiv_mono (ceilMulDiv_comm hceil) hnonneg
        ((MoneyMicros.le_iff_toInt_le _ _).1 hcut.cheaper)
      refine ⟨⟨q⟩, projectComponent_eq_ok_iff.2 ⟨kind, p', denom, hkind, hp', ?_,
        ceilMulDiv_comm hq⟩, hsmaller⟩
      rw [hcut.kind_eq]
      exact hdenom

theorem Charge.price_undercut {u : Charge} {z : ℤ} (hz : u.price s currency nowMs = some z) :
    ∃ z', u.price s' currency nowMs = some z' ∧ z' ≤ z := by
  by_cases hzero : u.amount = 0
  · exact ⟨0, if_pos hzero, Charge.price_nonneg hz⟩
  · obtain ⟨m, hm, rfl⟩ := (Charge.price_eq_some_iff hzero z).1 hz
    obtain ⟨m', hm', hle⟩ := priced_undercut h hm
    exact ⟨m'.toInt, (Charge.price_eq_some_iff hzero _).2 ⟨m', hm', rfl⟩, hle⟩

theorem chargesTotal_undercut {us : List Charge} (hpriced : AllPriced s currency nowMs us) :
    AllPriced s' currency nowMs us ∧
      chargesTotal s' currency nowMs us ≤ chargesTotal s currency nowMs us := by
  refine ⟨fun u hu => ?_, List.sum_le_sum fun u hu => ?_⟩
  · obtain ⟨z, hz⟩ := hpriced u hu
    obtain ⟨z', hz', -⟩ := Charge.price_undercut h hz
    exact ⟨z', hz'⟩
  · obtain ⟨z, hz⟩ := hpriced u hu
    obtain ⟨z', hz', hle⟩ := Charge.price_undercut h hz
    rw [hz, hz', Option.getD_some, Option.getD_some]
    exact hle

theorem project_undercut {ev : CostEvidence} {bd : CostBreakdown}
    (hbd : project s currency nowMs [ev] = .ok bd) :
    ∃ bd', project s' currency nowMs [ev] = .ok bd' ∧ bd'.total ≤ bd.total := by
  obtain ⟨hpriced, htotal⟩ := project_total s currency nowMs hbd
  obtain ⟨hpriced', hsum⟩ := chargesTotal_undercut h (hpriced ev (List.mem_singleton_self ev))
  have hle : attemptCost s' currency nowMs ev ≤ bd.total.toInt := by
    rw [htotal, List.map_singleton, List.sum_singleton]
    exact hsum
  obtain ⟨bd', hbd'⟩ : ∃ bd', project s' currency nowMs [ev] = .ok bd' := by
    refine exists_project s' currency nowMs ?_ ?_
    · intro ev' hev'
      rw [List.mem_singleton.1 hev']
      exact hpriced'
    · rw [List.map_singleton, List.sum_singleton]
      exact hle.trans_lt bd.total.toInt_lt
  have htotal' := (project_total s' currency nowMs hbd').2
  rw [List.map_singleton, List.sum_singleton] at htotal'
  refine ⟨bd', hbd', ?_⟩
  rw [MoneyMicros.le_iff_toInt_le, htotal']
  exact hle

end Prices

namespace BetterTerms

variable {g' g : Governor} (h : BetterTerms g' g)

include h

theorem priceVerdict_eq (plan : ExecutionPlan) :
    g'.priceVerdict plan checkedComponents = g.priceVerdict plan checkedComponents :=
  Governor.priceVerdict_rel (fun _ _ hxy => hxy.toSameTests) h.prices h.created h.now h.policy
    plan _

theorem affordable {total total' : MoneyMicros} (hle : total' ≤ total)
    (hafford : Governor.Affordable total g.budgets.values) :
    Governor.Affordable total' g'.budgets.values := by
  intro b' hb' hhard
  obtain ⟨b, hb, hbhard, hhas, hroom⟩ := h.budgets b' hb' hhard
  obtain ⟨hremaining, hfits⟩ := hafford b hb hbhard
  exact ⟨hhas hremaining,
    (((MoneyMicros.le_iff_toInt_le _ _).1 hle).trans hfits).trans hroom⟩

/-- A plan that is FEASIBLE stays so, at a total that is not higher. -/
theorem evaluatePlan {plan : ExecutionPlan} {econ : PlanEconomics}
    (hplan : g.evaluatePlan plan = .ok econ) (hfeasible : econ.feasible = .feasible) :
    ∃ econ', g'.evaluatePlan plan = .ok econ' ∧ econ'.feasible = .feasible ∧
      econ'.projected.total ≤ econ.projected.total := by
  have hverdict := Governor.feasibleVerdict hplan hfeasible
  obtain ⟨bd, hbd, hle⟩ := project_undercut h.prices hverdict.projection
  have hreaches : g'.ReachesBudgets plan bd := by
    refine ⟨hverdict.supported, hverdict.meetsSlo, h.revalidation.trans hverdict.revalidated,
      (h.priceVerdict_eq plan).trans hverdict.prices, ?_⟩
    rw [h.policy, h.now]
    exact hbd
  exact ⟨_, hreaches.evaluatePlan_affordable (h.affordable hle hverdict.affordableTotal), rfl, hle⟩

end BetterTerms

open Governor in
/-- Cutting prices and enlarging budgets keeps every FEASIBLE plan FEASIBLE at a total that
is not higher, and an evaluation that returns still authorizes and selects a total that is
not higher. -/
theorem better_terms_never_cost_more (g' g : Governor) (h : BetterTerms g' g) :
    (∀ plan econ, g.evaluatePlan plan = .ok econ → econ.feasible = .feasible →
      ∃ econ', g'.evaluatePlan plan = .ok econ' ∧ econ'.feasible = .feasible ∧
        econ'.projected.total ≤ econ.projected.total) ∧
    ∀ workload workloadGen plans d d', g.evaluate workload workloadGen plans = .ok d →
      d.kind = .authorize → g'.evaluate workload workloadGen plans = .ok d' →
      d'.kind = .authorize ∧ d'.projected.total ≤ d.projected.total := by
  refine ⟨fun plan econ => h.evaluatePlan, ?_⟩
  intro workload workloadGen plans d d' hd hkind hd'
  obtain ⟨candidates, best, rest, hcandidates, hsort, hauthorize⟩ := authorized_of_evaluate hd hkind
  have hselected := selection_of_head hcandidates hsort hauthorize
  obtain ⟨econ', hplan, hfeasible, hle⟩ :=
    h.evaluatePlan hselected.feasible.1 hselected.feasible.2
  have hrevalidated : g'.revalidationNeeded = false :=
    h.revalidation.trans
      (feasibleVerdict hselected.feasible.1 hselected.feasible.2).revalidated
  obtain ⟨best', rest', hsort'⟩ := exists_best hselected.candidate hplan hfeasible
  obtain ⟨hreturn, -⟩ :=
    decided_of_feasible hrevalidated hselected.candidate hplan hfeasible hd'
  rw [evaluate_of_best hrevalidated hreturn hsort'] at hd'
  obtain ⟨hkind', -, -, hprojected'⟩ := authorizeDecision_kind hd'
  refine ⟨hkind', ?_⟩
  rw [hprojected', hselected.selected.2.2]
  have hreaches := (feasibleVerdict hplan hfeasible).reaches
  exact (head_total_le hsort' hselected.candidate hreaches
    (feasibleVerdict hplan hfeasible).affordableTotal).trans hle

def generousGovernor : Governor :=
  ((Governor.fresh 0).setPriceSchedule
    { observations := [{ id := ⟨1⟩, amount := ⟨2⟩ }] }).createBudget (hardBudget 1 20) |>.2

theorem better_terms_never_cost_more_generousGovernor :
    BetterTerms generousGovernor pricedGovernor ∧
      (∃ econ econ', pricedGovernor.evaluatePlan longerPlan = .ok econ ∧
        generousGovernor.evaluatePlan longerPlan = .ok econ' ∧ econ'.feasible = .feasible ∧
        econ'.projected.total ≤ econ.projected.total) ∧
      ∃ d d', pricedGovernor.evaluate ⟨1⟩ ⟨1⟩ [longerPlan] = .ok d ∧ d.projected.total = ⟨6⟩ ∧
        generousGovernor.evaluate ⟨1⟩ ⟨1⟩ [longerPlan] = .ok d' ∧ d'.kind = .authorize ∧
        d'.projected.total = ⟨4⟩ ∧ d'.projected.total ≤ d.projected.total := by
  have hprices : List.Forall₂ Undercuts generousGovernor.schedule.observations
      pricedGovernor.schedule.observations :=
    .cons ⟨⟨rfl, by decide⟩, by decide⟩ .nil
  have hterms : BetterTerms generousGovernor pricedGovernor :=
    ⟨rfl, rfl, rfl, rfl, hprices, by decide +kernel⟩
  obtain ⟨hplans, hdecisions⟩ :=
    better_terms_never_cost_more generousGovernor pricedGovernor hterms
  obtain ⟨econ', hecon'⟩ := hplans longerPlan _ rfl rfl
  obtain ⟨d, hd, hkind, htotal⟩ : ∃ d, pricedGovernor.evaluate ⟨1⟩ ⟨1⟩ [longerPlan] = .ok d ∧
      d.kind = .authorize ∧ d.projected.total = ⟨6⟩ := ⟨_, rfl, rfl, rfl⟩
  obtain ⟨d', hd', htotal'⟩ : ∃ d', generousGovernor.evaluate ⟨1⟩ ⟨1⟩ [longerPlan] = .ok d' ∧
      d'.projected.total = ⟨4⟩ := ⟨_, rfl, rfl⟩
  obtain ⟨hkind', hle⟩ := hdecisions ⟨1⟩ ⟨1⟩ [longerPlan] d d' hd hkind hd'
  exact ⟨hterms, ⟨_, econ', rfl, hecon'⟩, d, d', hd, htotal, hd', hkind', htotal', hle⟩

end CostGovernor
