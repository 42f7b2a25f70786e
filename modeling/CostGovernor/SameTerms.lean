import CostGovernor.DecisionOutlines
import CostGovernor.EvidenceEffects
import CostGovernor.PriceTerms
import CostGovernor.Recovery

/-!
# Governors with the same terms

Two governors that agree in the clock, the policy, what their prices offer and the accounts
of their hard budgets report the same plans FEASIBLE with the same economics, and authorize
the same evaluations.
-/

namespace CostGovernor

open Executions

structure SameOffer (o' o : PriceObservation) : Prop extends SameTests o' o where
  amount : o'.amount = o.amount

namespace SameOffer

theorem refl (o : PriceObservation) : SameOffer o o := ⟨⟨rfl, rfl⟩, rfl⟩

theorem symm {o' o : PriceObservation} (h : SameOffer o' o) : SameOffer o o' :=
  ⟨h.toSameTests.symm, h.amount.symm⟩

end SameOffer

section Projection

variable {s' s : PriceSchedule} (h : List.Forall₂ SameOffer s'.observations s.observations)

include h

theorem projectComponent_sameOffer (comp : CostComponent) (amount : Int64) (currency : ByteString)
    (nowMs : Int64) (dev : DeviceId) (res : ResourceId) :
    projectComponent s' comp amount currency nowMs dev res =
      projectComponent s comp amount currency nowMs dev res := by
  unfold projectComponent
  cases kindFor comp with
  | error e => rfl
  | ok kind =>
      have hfound := findPrice_rel (fun _ _ hxy => hxy.toSameTests) h kind currency nowMs dev res
        none
      dsimp only [bind, Except.bind]
      generalize findPrice s' kind currency nowMs dev res none = found' at hfound ⊢
      generalize findPrice s kind currency nowMs dev res none = found at hfound ⊢
      cases hfound with
      | none => rfl
      | some hoffer =>
          dsimp only
          rw [hoffer.kind_eq, hoffer.amount]

theorem project_sameOffer (currency : ByteString) (nowMs : Int64) (attempts : List CostEvidence) :
    project s' currency nowMs attempts = project s currency nowMs attempts := by
  have hpriced : priced s' currency nowMs = priced s currency nowMs := by
    funext ev comp amount
    exact projectComponent_sameOffer h comp amount currency nowMs ev.device ev.resource
  unfold project chargeAttempt chargeRetry failedCost chargeUsage
  rw [hpriced]

end Projection

def Budget.account (b : Budget) : BudgetMode × MoneyMicros × MoneyMicros :=
  (b.mode, b.limit, b.consumed)

/-- The governors agree in what an evaluation reads, the order of the budgets and the pending
revalidation apart. -/
structure SameTerms (g' g : Governor) : Prop where
  now : g'.now = g.now
  policy : g'.policy = g.policy
  created : g'.schedule.createdAtMs = g.schedule.createdAtMs
  prices : List.Forall₂ SameOffer g'.schedule.observations g.schedule.observations
  budgets : ∀ id, (g'.budgets.find? id).map Budget.account = (g.budgets.find? id).map Budget.account

structure SameSelection (d' d : CostDecision) : Prop where
  kind : d'.kind = d.kind
  selectedPlan : d'.selectedPlan = d.selectedPlan
  planGeneration : d'.planGeneration = d.planGeneration
  projected : d'.projected = d.projected
  rejectedPlans : d'.rejectedPlans = d.rejectedPlans

namespace SameTerms

open Governor

variable {g' g : Governor}

theorem symm (h : SameTerms g' g) : SameTerms g g' :=
  ⟨h.now.symm, h.policy.symm, h.created.symm, h.prices.flip.imp fun _ _ ho => SameOffer.symm ho,
    fun id => (h.budgets id).symm⟩

theorem exists_budget (h : SameTerms g' g) {b' : Budget} (hb' : b' ∈ g'.budgets.values) :
    ∃ b ∈ g.budgets.values, b'.account = b.account := by
  obtain ⟨id, hid⟩ := (g'.budgets.mem_values_iff b').1 hb'
  have hsame := h.budgets id
  rw [hid, Option.map_some] at hsame
  obtain ⟨b, hb, haccount⟩ := Option.map_eq_some_iff.1 hsame.symm
  exact ⟨b, (g.budgets.mem_values_iff b).2 ⟨id, hb⟩, haccount.symm⟩

theorem affordable (h : SameTerms g' g) {total : MoneyMicros}
    (hafford : Affordable total g.budgets.values) : Affordable total g'.budgets.values := by
  intro b' hb' hard
  obtain ⟨b, hb, haccount⟩ := h.exists_budget hb'
  obtain ⟨hmode, hlimit, hconsumed⟩ : b'.mode = b.mode ∧ b'.limit = b.limit ∧
      b'.consumed = b.consumed := by simpa [Budget.account] using haccount
  have hroom : b'.room = b.room := by rw [Budget.room, hlimit, hconsumed, Budget.room]
  rw [Budget.HasRemaining, hroom, hconsumed]
  exact hafford b hb (hmode ▸ hard)

theorem thresholdsFit (h : SameTerms g' g)
    (hfit : ∀ b ∈ g.budgets.values, b.Counted → ThresholdsFit g.policy b) :
    ∀ b ∈ g'.budgets.values, b.Counted → ThresholdsFit g'.policy b := by
  intro b' hb' hcounted
  obtain ⟨b, hb, haccount⟩ := h.exists_budget hb'
  obtain ⟨hmode, hlimit, -⟩ : b'.mode = b.mode ∧ b'.limit = b.limit ∧
      b'.consumed = b.consumed := by simpa [Budget.account] using haccount
  rw [Budget.Counted, hmode, hlimit] at hcounted
  rw [ThresholdsFit, hlimit, h.policy]
  exact hfit b hb hcounted

theorem priceVerdict_eq (h : SameTerms g' g) (plan : ExecutionPlan) :
    g'.priceVerdict plan checkedComponents = g.priceVerdict plan checkedComponents :=
  priceVerdict_rel (fun _ _ hxy => hxy.toSameTests) h.prices h.created h.now h.policy plan _

section Valid

variable (h : SameTerms g' g) (hvalid' : g'.revalidationNeeded = false)

include h hvalid'

theorem reachesBudgets {plan : ExecutionPlan} {econ : PlanEconomics}
    (hverdict : g.FeasibleVerdict plan econ) : g'.ReachesBudgets plan econ.projected := by
  refine ⟨hverdict.supported, hverdict.meetsSlo, hvalid', ?_, ?_⟩
  · rw [h.priceVerdict_eq]
    exact hverdict.prices
  · rw [project_sameOffer h.prices, h.policy, h.now]
    exact hverdict.projection

/-- A FEASIBLE plan is FEASIBLE at the same cost. -/
theorem evaluatePlan {plan : ExecutionPlan} {econ : PlanEconomics}
    (hplan : g.evaluatePlan plan = .ok econ) (hfeasible : econ.feasible = .feasible) :
    g'.evaluatePlan plan = .ok econ := by
  have hverdict := feasibleVerdict hplan hfeasible
  have hafford := hverdict.affordableTotal
  rw [(h.reachesBudgets hvalid' hverdict).evaluatePlan_affordable (h.affordable hafford), ← hplan,
    hverdict.reaches.evaluatePlan_affordable hafford]

theorem candidateFor_eq {plan : ExecutionPlan} (hplan : isFeasible (g.candidateFor plan) = true) :
    g'.candidateFor plan = g.candidateFor plan := by
  have hverdict := feasible_candidateFor hplan
  have hafford := hverdict.affordableTotal
  have hcandidate' :=
    (h.reachesBudgets hvalid' hverdict).candidateFor_affordable (h.affordable hafford)
  exact hcandidate'.trans (hverdict.reaches.candidateFor_affordable hafford).symm

variable (hvalid : g.revalidationNeeded = false)

include hvalid

theorem beforeBudgets_eq (plan : ExecutionPlan) : g'.beforeBudgets plan = g.beforeBudgets plan := by
  unfold beforeBudgets
  rw [hvalid', hvalid, h.priceVerdict_eq, project_sameOffer h.prices, h.policy, h.now]

theorem feasible_eq (plans : List ExecutionPlan) :
    (plans.map g'.candidateFor).filter isFeasible =
      (plans.map g.candidateFor).filter isFeasible := by
  induction plans with
  | nil => rfl
  | cons plan plans ih =>
      rw [List.map_cons, List.map_cons, List.filter_cons, List.filter_cons, ih]
      cases hfeasible : isFeasible (g.candidateFor plan) with
      | true => rw [h.candidateFor_eq hvalid' hfeasible, hfeasible]
      | false =>
          cases hother : isFeasible (g'.candidateFor plan) with
          | false => rfl
          | true =>
              rw [h.symm.candidateFor_eq hvalid hother, hother] at hfeasible
              cases hfeasible

/-- An evaluation that authorizes does so again, for the same plan. -/
theorem evaluate {workload : WorkloadId} {workloadGen : WorkloadGeneration}
    {plans : List ExecutionPlan} {d : CostDecision}
    (hd : g.evaluate workload workloadGen plans = .ok d) (hkind : d.kind = .authorize) :
    ∃ d', g'.evaluate workload workloadGen plans = .ok d' ∧ SameSelection d' d := by
  obtain ⟨candidates, best, rest, hcandidates, hsort, hauthorize⟩ := authorized_of_evaluate hd hkind
  obtain ⟨hreturn, rfl⟩ := (g.candidatesOf_eq_ok_iff plans candidates).1 hcandidates
  have hfit := thresholdsFit_of_authorizeDecision (feasible_best hsort).2 hauthorize
  have hsort' := hsort
  rw [← h.feasible_eq hvalid' hvalid plans] at hsort'
  -- No plan throws now: pricing is the same, and the best plan shows that the budgets have
  -- a remaining amount.
  have hpayable : ∀ p ∈ plans, g'.PassesChecks p → g'.Payable p := by
    intro p hp hchecks
    by_contra hnot
    obtain ⟨x, hx⟩ := (g'.beforeBudgets_error_iff p).2 ⟨hchecks, hnot⟩
    rw [h.beforeBudgets_eq hvalid' hvalid] at hx
    obtain ⟨hchecks', hnot'⟩ := (g.beforeBudgets_error_iff p).1 ⟨x, hx⟩
    obtain ⟨y, hy⟩ := evaluatePlan_of_not_payable hchecks' hnot'
    obtain ⟨econ, hecon⟩ := hreturn p hp
    rw [hy] at hecon
    cases hecon
  obtain ⟨d', hd', hauthorizes⟩ : ∃ d', g'.evaluate workload workloadGen plans = .ok d' ∧
      g'.Authorizes best d' := exists_evaluate hvalid' hpayable (h.thresholdsFit hfit) hsort'
  obtain ⟨candidates', best', rest', hcandidates', hsort'', hauthorize'⟩ :=
    authorized_of_evaluate hd' hauthorizes.kind
  obtain ⟨-, rfl⟩ := (g'.candidatesOf_eq_ok_iff plans candidates').1 hcandidates'
  obtain ⟨rfl, -⟩ := List.cons.inj (hsort'.symm.trans hsort'')
  obtain ⟨hk, hselected, hgeneration, hprojected⟩ := authorizeDecision_kind hauthorize
  obtain ⟨hk', hselected', hgeneration', hprojected'⟩ := authorizeDecision_kind hauthorize'
  refine ⟨d', hd', hk'.trans hk.symm, hselected'.trans hselected.symm,
    hgeneration'.trans hgeneration.symm, hprojected'.trans hprojected.symm, ?_⟩
  rw [authorizeDecision_rejected hauthorize', authorizeDecision_rejected hauthorize,
    List.filter_map, List.filter_map, List.map_map, List.map_map]
  rfl

end Valid

end SameTerms

end CostGovernor
