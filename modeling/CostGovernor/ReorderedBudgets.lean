import CostGovernor.DecisionOutlines

/-!
# Evaluations of reordered budgets

The same budgets handed out in another order pass the same checks and make the same plans
feasible. The outline of a decision is the same when the budgets that can be first or last
agree, or when it throws in every order.
-/

namespace CostGovernor

open Executions IterationOrder RankOrder

namespace Governor

def Reorders (g : Governor) (m : HashedMap BudgetId Budget) : Prop :=
  m.entries.Perm g.budgets.entries

section Reordered

variable {g : Governor} {m : HashedMap BudgetId Budget} {workload : WorkloadId}
  {workloadGen : WorkloadGeneration} {plans : List ExecutionPlan} {plan : ExecutionPlan}
  {bd : CostBreakdown}

theorem PassesChecks.withBudgets (h : g.PassesChecks plan) (m : HashedMap BudgetId Budget) :
    (g.withBudgets m).PassesChecks plan :=
  ⟨h.supported, h.meetsSlo, h.revalidated, h.prices⟩

theorem Reorders.values (h : g.Reorders m) : m.values.Perm g.budgets.values := h.map _

theorem exists_reordering {order : List Budget} (h : order.Perm g.budgets.values) :
    ∃ m, g.Reorders m ∧ m.values = order := by
  have hcomp : Relation.Comp (fun l l' => l = List.map Prod.snd l') List.Perm order
      g.budgets.entries := by
    rw [List.eq_map_comp_perm]
    exact h
  obtain ⟨entries, rfl, hperm⟩ := hcomp
  exact ⟨⟨entries, ((hperm.map Prod.fst).nodup_iff).mpr g.budgets.nodupKeys⟩, hperm, rfl⟩

theorem Reorders.affordable_iff (h : g.Reorders m) {total : MoneyMicros} :
    Affordable total m.values ↔ Affordable total g.budgets.values :=
  forall_congr' fun _ => imp_congr_left h.values.mem_iff

/-- A feasible candidate is the same in every order. -/
theorem Reorders.candidateFor_eq (h : g.Reorders m)
    (hfeasible : isFeasible (g.candidateFor plan) = true) :
    (g.withBudgets m).candidateFor plan = g.candidateFor plan := by
  have hverdict := feasible_candidateFor hfeasible
  have hreaches := hverdict.reaches
  have hafford := hverdict.affordableTotal
  rw [hreaches.candidateFor_affordable hafford,
    (hreaches.withBudgets m).candidateFor_affordable (h.affordable_iff.mpr hafford)]

theorem Reorders.feasible_eq (h : g.Reorders m) (plans : List ExecutionPlan) :
    (plans.map (g.withBudgets m).candidateFor).filter isFeasible =
      (plans.map g.candidateFor).filter isFeasible := by
  induction plans with
  | nil => rfl
  | cons plan plans ih =>
      rw [List.map_cons, List.map_cons, List.filter_cons, List.filter_cons, ih]
      cases hfeasible : isFeasible (g.candidateFor plan) with
      | true => rw [h.candidateFor_eq hfeasible, hfeasible]
      | false =>
          cases hother : isFeasible ((g.withBudgets m).candidateFor plan) with
          | false => rfl
          | true =>
              have hback : (g.withBudgets m).Reorders g.budgets := List.Perm.symm h
              have hsame : g.candidateFor plan = (g.withBudgets m).candidateFor plan :=
                hback.candidateFor_eq hother
              rw [hsame, hother] at hfeasible
              cases hfeasible

theorem Reorders.hasRemaining (h : g.Reorders m)
    (hall : ∀ b ∈ g.budgets.values, b.mode = .hard → b.HasRemaining) :
    ∀ b ∈ m.values, b.mode = .hard → b.HasRemaining :=
  fun b hb => hall b (h.values.mem_iff.mp hb)

/-- In every order the decision is about the same candidate. -/
theorem Reorders.exists_evaluate (h : g.Reorders m) (hrevalidated : g.revalidationNeeded = false)
    (hpayable : ∀ p ∈ plans, g.PassesChecks p → g.Payable p)
    (hfit : ∀ b ∈ g.budgets.values, b.Counted → ThresholdsFit g.policy b) {best : Candidate}
    {rest : List Candidate}
    (hsort : stableSort better ((plans.map g.candidateFor).filter isFeasible) = best :: rest) :
    ∃ d, (g.withBudgets m).evaluate workload workloadGen plans = .ok d ∧
      (g.withBudgets m).Authorizes best d := by
  rw [← h.feasible_eq plans] at hsort
  have hchecks : ∀ p ∈ plans, (g.withBudgets m).PassesChecks p → (g.withBudgets m).Payable p :=
    fun p hp hc => hpayable p hp (hc.withBudgets g.budgets)
  have hrevalidated' : (g.withBudgets m).revalidationNeeded = false := hrevalidated
  exact Governor.exists_evaluate hrevalidated' hchecks
    (fun b hb => hfit b (h.values.mem_iff.mp hb)) hsort

/-- The evaluation throws in every order: while it prices a plan, at a plan only budgets
without a remaining amount could reject, or in the percentages of a hard limit. -/
inductive AlwaysThrows (g : Governor) (plans : List ExecutionPlan) : Prop
  | pricing (plan : ExecutionPlan) (hplan : plan ∈ plans) (hchecks : g.PassesChecks plan)
      (hpayable : ¬ g.Payable plan)
  | remaining (plan : ExecutionPlan) (hplan : plan ∈ plans) (bd : CostBreakdown)
      (hreaches : ReachesBudgets g plan bd) (b : Budget) (hb : b ∈ g.budgets.values)
      (hard : b.mode = .hard) (hthrows : ¬ b.HasRemaining)
      (htakes : ∀ c ∈ g.budgets.values, c.mode = .hard → c.HasRemaining → bd.total.toInt ≤ c.room)
  | percentage (plan : ExecutionPlan) (hplan : plan ∈ plans) (bd : CostBreakdown)
      (hreaches : ReachesBudgets g plan bd) (hafford : Affordable bd.total g.budgets.values)
      (b : Budget) (hb : b ∈ g.budgets.values) (hcounted : b.Counted)
      (hfit : ¬ ThresholdsFit g.policy b)

/-- The budgets that can come first or last say the same. -/
structure BudgetsAgree (g : Governor) (plans : List ExecutionPlan) : Prop where
  remaining : ∀ plan ∈ plans, ∀ bd, ReachesBudgets g plan bd →
    ∀ b ∈ g.budgets.values, b.mode = .hard → b.HasRemaining
  authorized : ∀ total, CheapestFit g plans total →
    Agree hardRoom g.budgets.values ∧ Agree (mark g.policy total) g.budgets.values
  rejected : (∀ plan ∈ plans, ∀ bd, ReachesBudgets g plan bd →
      ¬ Affordable bd.total g.budgets.values) →
    ∀ plan, plans.getLast? = some plan → ∀ bd, ReachesBudgets g plan bd →
      Agree (overReason bd.total) g.budgets.values

theorem AlwaysThrows.reorder (h : AlwaysThrows g plans) (hm : g.Reorders m) :
    AlwaysThrows (g.withBudgets m) plans := by
  cases h with
  | pricing plan hplan hchecks hpayable =>
      exact .pricing plan hplan (hchecks.withBudgets m) hpayable
  | remaining plan hplan bd hreaches b hb hard hthrows htakes =>
      exact .remaining plan hplan bd (hreaches.withBudgets m) b (hm.values.mem_iff.mpr hb) hard
        hthrows fun c hc => htakes c (hm.values.mem_iff.mp hc)
  | percentage plan hplan bd hreaches hafford b hb hcounted hfit =>
      exact .percentage plan hplan bd (hreaches.withBudgets m) (hm.affordable_iff.mpr hafford) b
        (hm.values.mem_iff.mpr hb) hcounted hfit

theorem AlwaysThrows.outline_eq (hrevalidated : g.revalidationNeeded = false)
    (h : AlwaysThrows g plans) : g.outline workload workloadGen plans = none := by
  cases h with
  | pricing plan hplan hchecks hpayable =>
      obtain ⟨x, hx⟩ := evaluatePlan_of_not_payable hchecks hpayable
      exact outline_of_threw hrevalidated hplan hx
  | remaining plan hplan bd hreaches b hb hard hthrows htakes =>
      obtain ⟨x, hx⟩ := hreaches.evaluatePlan_throws (findSome?_halt_throws hb hard hthrows htakes)
      exact outline_of_threw hrevalidated hplan hx
  | percentage plan hplan bd hreaches hafford b hb hcounted hfit =>
      unfold outline
      cases hd : g.evaluate workload workloadGen plans with
      | error x => rfl
      | ok d =>
          have hdecided := decided_of_feasible hrevalidated hplan
            (hreaches.evaluatePlan_affordable hafford) rfl hd
          exact absurd (hdecided.2 b hb hcounted) hfit

theorem evaluatePlan_of_not_reaching (h : ∀ bd, ¬ ReachesBudgets g plan bd) :
    (g.withBudgets m).evaluatePlan plan = g.evaluatePlan plan := by
  have hstages := g.evaluatePlan_stages plan
  have hstages' := (g.withBudgets m).evaluatePlan_stages plan
  rw [beforeBudgets_withBudgets] at hstages'
  revert hstages hstages'
  generalize g.beforeBudgets plan = before
  generalize g.evaluatePlan plan = result
  generalize (g.withBudgets m).evaluatePlan plan = result'
  intro hstages hstages'
  cases hstages with
  | threw x =>
      cases hstages'
      rfl
  | early e _ _ =>
      cases hstages'
      rfl
  | reached bd hreaches => exact absurd hreaches (h bd)

theorem reaches_withBudgets_iff :
    ReachesBudgets (g.withBudgets m) plan bd ↔ ReachesBudgets g plan bd :=
  ⟨fun h => h.withBudgets g.budgets, fun h => h.withBudgets m⟩

theorem Reorders.outline_rejected (hm : g.Reorders m) (hrevalidated : g.revalidationNeeded = false)
    (hpayable : ∀ p ∈ plans, g.PassesChecks p → g.Payable p)
    (hremaining : ∀ p ∈ plans, ∀ bd, ReachesBudgets g p bd →
      ∀ b ∈ g.budgets.values, b.mode = .hard → b.HasRemaining)
    (hnone : ∀ p ∈ plans, ∀ bd, ReachesBudgets g p bd → ¬ Affordable bd.total g.budgets.values) :
    (g.withBudgets m).outline workload workloadGen plans = some
      ⟨.noFeasiblePlan, {}, {}, {}, .unknown,
        (plans.getLast?.map fun p => ((g.withBudgets m).candidateFor p).econ.reason).getD
          .none⟩ := by
  have hrevalidated' : (g.withBudgets m).revalidationNeeded = false := hrevalidated
  refine outline_of_rejected hrevalidated' fun p hp => exists_rejection ?_ ?_ ?_
  · exact fun hc => hpayable p hp (hc.withBudgets g.budgets)
  · exact fun bd hbd => hm.hasRemaining (hremaining p hp bd (reaches_withBudgets_iff.mp hbd))
  · exact fun bd hbd hafford => hnone p hp bd (reaches_withBudgets_iff.mp hbd)
      (hm.affordable_iff.mp hafford)

/-- The last candidate is rejected for the same reason in every order. -/
theorem Reorders.reason_eq (hm : g.Reorders m)
    (hremaining : ∀ bd, ReachesBudgets g plan bd →
      ∀ b ∈ g.budgets.values, b.mode = .hard → b.HasRemaining)
    (hnone : ∀ bd, ReachesBudgets g plan bd → ¬ Affordable bd.total g.budgets.values)
    (hagree : ∀ bd, ReachesBudgets g plan bd → Agree (overReason bd.total) g.budgets.values) :
    ((g.withBudgets m).candidateFor plan).econ.reason = (g.candidateFor plan).econ.reason := by
  by_cases hreaches : ∃ bd, ReachesBudgets g plan bd
  · obtain ⟨bd, hreaches⟩ := hreaches
    have hremaining := hremaining bd hreaches
    have hnone := hnone bd hreaches
    apply Option.some.inj
    rw [(hreaches.withBudgets m).reason_eq (hm.hasRemaining hremaining)
      (fun hafford => hnone (hm.affordable_iff.mp hafford)), hreaches.reason_eq hremaining hnone]
    exact (hagree bd hreaches).findSome?_eq hm.values
  · push Not at hreaches
    rw [candidateFor, candidateFor, evaluatePlan_of_not_reaching hreaches]

theorem Authorizes.outline_eq {best : Candidate} {d d' : CostDecision} (hm : g.Reorders m)
    (hd : g.Authorizes best d) (hd' : (g.withBudgets m).Authorizes best d')
    (hroom : Agree hardRoom g.budgets.values)
    (hmark : Agree (mark g.policy best.econ.projected.total) g.budgets.values) :
    d'.outline = d.outline := by
  have hremaining : d'.remainingBudget = d.remainingBudget := by
    apply MoneyMicros.toInt_injective
    rw [hd'.remainingBudget, hd.remainingBudget]
    exact congrArg (Option.getD · 0) (hroom.findSome?_eq hm.values)
  have hstate : d'.state = d.state := by
    rw [hd'.state, hd.state]
    exact hmark.lastWritten_eq hm.values _
  unfold CostDecision.outline
  rw [hd'.kind, hd.kind, hd'.selectedPlan, hd.selectedPlan, hd'.projected, hd.projected,
    hremaining, hstate, hd'.bindingConstraint, hd.bindingConstraint]

theorem BudgetsAgree.outline_eq (h : BudgetsAgree g plans)
    (hrevalidated : g.revalidationNeeded = false) (hthrows : ¬ AlwaysThrows g plans)
    (hm : g.Reorders m) :
    (g.withBudgets m).outline workload workloadGen plans =
      g.outline workload workloadGen plans := by
  have hself : g.Reorders g.budgets := List.Perm.refl _
  have hpayable : ∀ p ∈ plans, g.PassesChecks p → g.Payable p := fun p hp hchecks =>
    by_contra fun hnot => hthrows (.pricing p hp hchecks hnot)
  by_cases hfits : ∃ p ∈ plans, ∃ bd, ReachesBudgets g p bd ∧
      Affordable bd.total g.budgets.values
  · obtain ⟨p, hp, bd, hreaches, hafford⟩ := hfits
    obtain ⟨total, hcheapest⟩ := exists_cheapestFit hp hreaches hafford
    have hfit : ∀ b ∈ g.budgets.values, b.Counted → ThresholdsFit g.policy b :=
      fun b hb hcounted => by_contra fun hnot =>
        hthrows (.percentage p hp bd hreaches hafford b hb hcounted hnot)
    obtain ⟨best, rest, hsort, rfl⟩ := hcheapest.exists_best
    obtain ⟨hroom, hmark⟩ := h.authorized _ hcheapest
    obtain ⟨d, hd, hauthorizes⟩ := hself.exists_evaluate hrevalidated hpayable hfit hsort
    obtain ⟨d', hd', hauthorizes'⟩ := hm.exists_evaluate hrevalidated hpayable hfit hsort
    unfold outline
    rw [hd', show g.evaluate workload workloadGen plans = .ok d from hd]
    exact congrArg some (Authorizes.outline_eq hm hauthorizes hauthorizes' hroom hmark)
  · have hnone : ∀ p ∈ plans, ∀ bd, ReachesBudgets g p bd →
        ¬ Affordable bd.total g.budgets.values := fun p hp bd hreaches hafford =>
      hfits ⟨p, hp, bd, hreaches, hafford⟩
    have hg : g.outline workload workloadGen plans = _ :=
      hself.outline_rejected hrevalidated hpayable h.remaining hnone
    rw [hm.outline_rejected hrevalidated hpayable h.remaining hnone, hg]
    cases hlast : plans.getLast? with
    | none => rfl
    | some p =>
        have hp := List.mem_of_getLast? hlast
        have hreason := hm.reason_eq (h.remaining p hp) (hnone p hp) (h.rejected hnone p hlast)
        simp only [Option.map_some, hreason]
        rfl

end Reordered

end Governor

end CostGovernor
