import CostGovernor.Authorization

/-!
# Decisions in outline

What a decision says about the selected plan and the budgets, from what `evaluatePlan`
says about each plan: it throws with the first plan that throws, names the reason of the
last plan when all are rejected, and selects a plan of the least total otherwise.
-/

namespace CostGovernor

open Executions RankOrder

structure Outline where
  kind : DecisionKind
  selectedPlan : PlanId
  total : MoneyMicros
  remainingBudget : MoneyMicros
  state : CostState
  bindingConstraint : FeasibilityReason

def CostDecision.outline (d : CostDecision) : Outline :=
  ⟨d.kind, d.selectedPlan, d.projected.total, d.remainingBudget, d.state, d.bindingConstraint⟩

/-- The reason a plan of this total is rejected for, if the budget is the first. -/
def overReason (total : MoneyMicros) (b : Budget) : Option FeasibilityReason :=
  (Governor.halt total b).bind (Option.map Governor.exceededReason)

namespace Governor

/-- The outline of the decision, or nothing when the evaluation throws. -/
def outline (g : Governor) (workload : WorkloadId) (workloadGen : WorkloadGeneration)
    (plans : List ExecutionPlan) : Option Outline :=
  (g.evaluate workload workloadGen plans).toOption.map CostDecision.outline

section OneOrder

variable {g : Governor} {workload : WorkloadId} {workloadGen : WorkloadGeneration}
  {plans : List ExecutionPlan} {plan : ExecutionPlan} {bd : CostBreakdown}

theorem outline_of_threw (hrevalidated : g.revalidationNeeded = false) (hplan : plan ∈ plans)
    {x : Exn} (h : g.evaluatePlan plan = .error x) :
    g.outline workload workloadGen plans = none := by
  have hne : plans.isEmpty = false :=
    List.isEmpty_eq_false_iff.mpr (List.ne_nil_of_mem hplan)
  unfold outline evaluate
  rw [hrevalidated, if_neg Bool.false_ne_true, hne, if_neg Bool.false_ne_true]
  cases hcandidates : g.candidatesOf plans with
  | error y => rfl
  | ok candidates =>
      obtain ⟨e, he⟩ := ((g.candidatesOf_eq_ok_iff plans candidates).mp hcandidates).1 plan hplan
      rw [h] at he
      cases he

theorem ReachesBudgets.evaluatePlan_affordable (h : ReachesBudgets g plan bd)
    (hafford : Affordable bd.total g.budgets.values) :
    g.evaluatePlan plan = .ok (budgetVerdict (economicsOf plan bd) none) := by
  rw [h.evaluatePlan_eq, judgeBudgets, firstExceeded_eq_none_iff_affordable.mpr hafford]
  rfl

theorem ReachesBudgets.candidateFor_affordable (h : ReachesBudgets g plan bd)
    (hafford : Affordable bd.total g.budgets.values) :
    g.candidateFor plan = ⟨plan, budgetVerdict (economicsOf plan bd) none⟩ := by
  rw [candidateFor, h.evaluatePlan_affordable hafford]
  rfl

theorem ReachesBudgets.evaluatePlan_halts (h : ReachesBudgets g plan bd) {b : Budget}
    (hfirst : g.budgets.values.findSome? (halt bd.total) = some (some b)) :
    g.evaluatePlan plan = .ok (budgetVerdict (economicsOf plan bd) (some b)) := by
  rw [h.evaluatePlan_eq, judgeBudgets, firstExceeded_eq_some_iff.mpr hfirst]
  rfl

theorem ReachesBudgets.evaluatePlan_throws (h : ReachesBudgets g plan bd)
    (hfirst : g.budgets.values.findSome? (halt bd.total) = some none) :
    ∃ x, g.evaluatePlan plan = .error x := by
  have hloop := firstExceeded_toOption bd.total g.budgets.values
  rw [hfirst] at hloop
  rw [h.evaluatePlan_eq, judgeBudgets]
  cases hresult : firstExceeded bd.total g.budgets.values with
  | error x => exact ⟨x, rfl⟩
  | ok o =>
      rw [hresult] at hloop
      cases hloop

theorem worstReason_of_rejected {cs : List Candidate}
    (h : ∀ c ∈ cs, isFeasible c = false ∧ c.econ.reason ≠ .none) :
    worstReason cs = (cs.getLast?.map fun c => c.econ.reason).getD .none := by
  rcases List.eq_nil_or_concat cs with rfl | ⟨init, last, rfl⟩
  · rfl
  · obtain ⟨hfeasible, hreason⟩ := h last (by simp)
    simp [worstReason, hfeasible, hreason]

theorem reason_ne_none {e : PlanEconomics} (h : g.evaluatePlan plan = .ok e)
    (hinfeasible : e.feasible ≠ .feasible) : e.reason ≠ .none := by
  have hstages := g.evaluatePlan_stages plan
  revert h hstages
  generalize g.beforeBudgets plan = before
  generalize g.evaluatePlan plan = result
  intro h hstages
  cases hstages with
  | threw x => cases h
  | early e' _ hearly =>
      cases h
      intro hnone
      rw [hnone] at hearly
      exact absurd hearly (by decide)
  | reached bd _ =>
      unfold judgeBudgets at h
      cases hfirst : firstExceeded bd.total g.budgets.values with
      | error x =>
          rw [hfirst] at h
          cases h
      | ok exceeded =>
          rw [hfirst] at h
          cases h
          cases exceeded with
          | none => exact absurd rfl hinfeasible
          | some b =>
              change exceededReason b ≠ .none
              unfold exceededReason
              split_ifs <;> decide

/-- Without a feasible candidate the decision names the reason of the last one. -/
theorem outline_of_rejected (hrevalidated : g.revalidationNeeded = false)
    (h : ∀ p ∈ plans, ∃ e, g.evaluatePlan p = .ok e ∧ e.feasible ≠ .feasible) :
    g.outline workload workloadGen plans = some
      ⟨.noFeasiblePlan, {}, {}, {}, .unknown,
        (plans.getLast?.map fun p => (g.candidateFor p).econ.reason).getD .none⟩ := by
  have hrejected : ∀ c ∈ plans.map g.candidateFor, isFeasible c = false ∧ c.econ.reason ≠ .none := by
    intro c hc
    obtain ⟨p, hp, rfl⟩ := List.mem_map.mp hc
    obtain ⟨e, he, hinfeasible⟩ := h p hp
    rw [candidateFor, he]
    exact ⟨decide_eq_false hinfeasible, reason_ne_none he hinfeasible⟩
  have hworst := worstReason_of_rejected hrejected
  rw [List.getLast?_map, Option.map_map] at hworst
  unfold outline evaluate
  rw [hrevalidated, if_neg Bool.false_ne_true]
  cases hempty : plans.isEmpty with
  | true =>
      rw [List.isEmpty_iff.mp hempty]
      rfl
  | false =>
      rw [if_neg Bool.false_ne_true, (g.candidatesOf_eq_ok_iff plans _).mpr
        ⟨fun p hp => (h p hp).imp fun _ he => he.1, rfl⟩]
      dsimp only [bind, Except.bind]
      rw [List.filter_eq_nil_iff.mpr fun c hc => by simp [(hrejected c hc).1], hworst]
      rfl

structure CheapestFit (g : Governor) (plans : List ExecutionPlan) (total : MoneyMicros) : Prop where
  attained : ∃ plan ∈ plans, ∃ bd, ReachesBudgets g plan bd ∧
    Affordable bd.total g.budgets.values ∧ bd.total = total
  least : ∀ plan ∈ plans, ∀ bd, ReachesBudgets g plan bd →
    Affordable bd.total g.budgets.values → total ≤ bd.total

theorem total_le_of_not_better {a b : Candidate} (h : better a b = false) :
    b.econ.projected.total ≤ a.econ.projected.total := by
  by_contra hlt
  rw [not_le] at hlt
  unfold better at h
  rw [if_pos hlt.ne] at h
  exact absurd hlt (of_decide_eq_false h)

theorem head_total_le {best : Candidate} {rest : List Candidate}
    (hsort : stableSort better ((plans.map g.candidateFor).filter isFeasible) = best :: rest)
    (hplan : plan ∈ plans) (h : ReachesBudgets g plan bd)
    (hafford : Affordable bd.total g.budgets.values) : best.econ.projected.total ≤ bd.total := by
  have hmem := List.mem_map_of_mem (f := g.candidateFor) hplan
  rw [h.candidateFor_affordable hafford] at hmem
  exact total_le_of_not_better ((head_stableSort better_ranks hsort).2 _
    (List.mem_filter.mpr ⟨hmem, rfl⟩))

theorem CheapestFit.exists_best {total : MoneyMicros} (h : CheapestFit g plans total) :
    ∃ best rest, stableSort better ((plans.map g.candidateFor).filter isFeasible) = best :: rest ∧
      best.econ.projected.total = total := by
  obtain ⟨plan, hplan, bd, hreaches, hafford, rfl⟩ := h.attained
  have heval := hreaches.evaluatePlan_affordable hafford
  obtain ⟨best, rest, hsort⟩ := Governor.exists_best hplan heval rfl
  obtain ⟨hbest, hverdict⟩ := feasible_best hsort
  refine ⟨best, rest, hsort, le_antisymm (head_total_le hsort hplan hreaches hafford) ?_⟩
  exact h.least best.plan hbest _ hverdict.reaches hverdict.affordableTotal

theorem evaluatePlan_of_not_payable (hchecks : g.PassesChecks plan) (h : ¬ g.Payable plan) :
    ∃ x, g.evaluatePlan plan = .error x := by
  obtain ⟨x, hx⟩ := (g.beforeBudgets_error_iff plan).mpr ⟨hchecks, h⟩
  have hstages := g.evaluatePlan_stages plan
  rw [hx] at hstages
  generalize g.evaluatePlan plan = result at hstages
  cases hstages
  exact ⟨x, rfl⟩

/-- When no exceeded budget can stop the loop, one that throws does. -/
theorem findSome?_halt_throws {total : MoneyMicros} {bs : List Budget} {b : Budget} (hb : b ∈ bs)
    (hard : b.mode = .hard) (hthrows : ¬ b.HasRemaining)
    (htakes : ∀ c ∈ bs, c.mode = .hard → c.HasRemaining → total.toInt ≤ c.room) :
    bs.findSome? (halt total) = some none := by
  have hsome : (bs.findSome? (halt total)).isSome :=
    List.findSome?_isSome_iff.mpr ⟨b, hb, by rw [halt_eq_throws_iff.mpr ⟨hard, hthrows⟩]; rfl⟩
  obtain ⟨o, ho⟩ := Option.isSome_iff_exists.mp hsome
  obtain ⟨c, hc, hhalt⟩ := List.exists_of_findSome?_eq_some ho
  cases o with
  | none => exact ho
  | some d =>
      obtain ⟨_, hcard, hhas, hover⟩ := halt_eq_exceeded_iff.mp hhalt
      have hle := htakes c hc hcard hhas
      omega

/-- A plan the budgets do not take is rejected without an exception. -/
theorem exists_rejection (hpayable : g.PassesChecks plan → g.Payable plan)
    (hremaining : ∀ bd, ReachesBudgets g plan bd →
      ∀ b ∈ g.budgets.values, b.mode = .hard → b.HasRemaining)
    (hnone : ∀ bd, ReachesBudgets g plan bd → ¬ Affordable bd.total g.budgets.values) :
    ∃ e, g.evaluatePlan plan = .ok e ∧ e.feasible ≠ .feasible := by
  have hthrows := g.beforeBudgets_error_iff plan
  have hstages := g.evaluatePlan_stages plan
  revert hthrows hstages
  generalize g.beforeBudgets plan = before
  generalize g.evaluatePlan plan = result
  intro hthrows hstages
  cases hstages with
  | threw x =>
      obtain ⟨hchecks, hnot⟩ := hthrows.mp ⟨x, rfl⟩
      exact absurd (hpayable hchecks) hnot
  | early e hfeasible _ => exact ⟨e, rfl, hfeasible⟩
  | reached bd hreaches =>
      obtain ⟨o, ho⟩ := exists_firstExceeded bd.total (hremaining bd hreaches)
      cases o with
      | none =>
          exact absurd (firstExceeded_eq_none_iff_affordable.mp ho) (hnone bd hreaches)
      | some b =>
          refine ⟨budgetVerdict (economicsOf plan bd) (some b), ?_, by simp [budgetVerdict]⟩
          rw [judgeBudgets, ho]
          rfl

theorem findSome?_overReason {total : MoneyMicros} {bs : List Budget}
    (h : ∀ b ∈ bs, b.mode = .hard → b.HasRemaining) :
    bs.findSome? (overReason total) =
      (bs.findSome? (halt total)).bind (Option.map exceededReason) := by
  induction bs with
  | nil => rfl
  | cons b bs ih =>
      obtain ⟨hb, hbs⟩ := List.forall_mem_cons.mp h
      rw [List.findSome?_cons, List.findSome?_cons, overReason]
      rcases hhalt : halt total b with _ | _ | c
      · exact ih hbs
      · obtain ⟨hard, hthrows⟩ := halt_eq_throws_iff.mp hhalt
        exact absurd (hb hard) hthrows
      · rfl

/-- The reason of a rejected plan is that of the exceeded budget met first. -/
theorem ReachesBudgets.reason_eq (h : ReachesBudgets g plan bd)
    (hremaining : ∀ b ∈ g.budgets.values, b.mode = .hard → b.HasRemaining)
    (hnone : ¬ Affordable bd.total g.budgets.values) :
    some (g.candidateFor plan).econ.reason =
      g.budgets.values.findSome? (overReason bd.total) := by
  rw [findSome?_overReason hremaining]
  obtain ⟨o, ho⟩ := exists_firstExceeded bd.total hremaining
  cases o with
  | none => exact absurd (firstExceeded_eq_none_iff_affordable.mp ho) hnone
  | some b =>
      rw [firstExceeded_eq_some_iff] at ho
      rw [candidateFor, h.evaluatePlan_halts ho, ho]
      rfl

theorem exists_cheapestFit (hplan : plan ∈ plans) (h : ReachesBudgets g plan bd)
    (hafford : Affordable bd.total g.budgets.values) : ∃ total, CheapestFit g plans total := by
  obtain ⟨best, rest, hsort⟩ := exists_best hplan (h.evaluatePlan_affordable hafford) rfl
  obtain ⟨hbest, hverdict⟩ := feasible_best hsort
  refine ⟨best.econ.projected.total,
    ⟨best.plan, hbest, _, hverdict.reaches, hverdict.affordableTotal, rfl⟩, ?_⟩
  exact fun other hother bd' hreaches hafford' => head_total_le hsort hother hreaches hafford'

end OneOrder

end Governor

end CostGovernor
