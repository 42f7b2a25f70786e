import CostGovernor.ReorderedBudgets

/-!
# Decisions and the order of the budget map

Four loops of an evaluation read the budgets in the order the map hands them out: the
first budget that ends the loop of a plan, the first hard one for the remaining amount,
the last mark for the state. A decision is the same for all orders only when the budgets
that can be first or last agree, or when it throws in every order.
-/

namespace CostGovernor

open Executions IterationOrder RankOrder

namespace Governor

section Reordered

variable {g : Governor} {m : HashedMap BudgetId Budget} {workload : WorkloadId}
  {workloadGen : WorkloadGeneration} {plans : List ExecutionPlan} {plan : ExecutionPlan}
  {bd : CostBreakdown}

/-- The decision says the same in every order of the budgets. -/
def OrderFree (g : Governor) (workload : WorkloadId) (workloadGen : WorkloadGeneration)
    (plans : List ExecutionPlan) : Prop :=
  ∀ m, g.Reorders m →
    (g.withBudgets m).outline workload workloadGen plans = g.outline workload workloadGen plans

/-- An order that starts with a budget without a remaining amount throws. -/
theorem exists_order_throws (hrevalidated : g.revalidationNeeded = false) (hplan : plan ∈ plans)
    (hreaches : ReachesBudgets g plan bd) {b : Budget} (hb : b ∈ g.budgets.values)
    (hard : b.mode = .hard) (hnot : ¬ b.HasRemaining) :
    ∃ m, g.Reorders m ∧ (g.withBudgets m).outline workload workloadGen plans = none := by
  obtain ⟨rest, hperm⟩ := exists_perm_cons hb
  obtain ⟨m, hm, hvalues⟩ := exists_reordering hperm
  have hfirst : (g.withBudgets m).budgets.values.findSome? (halt bd.total) = some none := by
    change m.values.findSome? _ = _
    rw [hvalues, List.findSome?_cons, halt_eq_throws_iff.mpr ⟨hard, hnot⟩]
  obtain ⟨x, hx⟩ := (hreaches.withBudgets m).evaluatePlan_throws hfirst
  exact ⟨m, hm, outline_of_threw (g := g.withBudgets m) hrevalidated hplan hx⟩

/-- An order that starts with the least room rejects every plan some budget rejects. -/
theorem exists_order_rejects (hrevalidated : g.revalidationNeeded = false)
    (hpayable : ∀ p ∈ plans, g.PassesChecks p → g.Payable p) (hplan : plan ∈ plans)
    (hreaches : ReachesBudgets g plan bd)
    (hexceeds : ∀ p ∈ plans, ∀ bd, ReachesBudgets g p bd → ∃ c ∈ g.budgets.values,
      c.mode = .hard ∧ c.HasRemaining ∧ c.room < bd.total.toInt) :
    ∃ m, g.Reorders m ∧ (g.withBudgets m).outline workload workloadGen plans ≠ none := by
  obtain ⟨c₀, hc₀, hhard₀, hhas₀, _⟩ := hexceeds plan hplan bd hreaches
  -- a budget with the least room exceeds whenever another one does
  obtain ⟨c, hc, hleast⟩ := Finset.exists_min_image
    (g.budgets.values.filter fun c => c.mode = .hard ∧ c.HasRemaining).toFinset Budget.room
    ⟨c₀, by simp [hc₀, hhard₀, hhas₀]⟩
  simp only [List.mem_toFinset, List.mem_filter, decide_eq_true_eq] at hc hleast
  obtain ⟨rest, hperm⟩ := exists_perm_cons hc.1
  obtain ⟨m, hm, hvalues⟩ := exists_reordering hperm
  refine ⟨m, hm, ?_⟩
  rw [outline_of_rejected (g := g.withBudgets m) hrevalidated]
  · exact Option.some_ne_none _
  intro p hp
  by_cases hreach : ∃ bd, ReachesBudgets g p bd
  · obtain ⟨bd', hreaches'⟩ := hreach
    obtain ⟨e, he, hehard, hehas, heover⟩ := hexceeds p hp bd' hreaches'
    have hover : c.room < bd'.total.toInt := (hleast e ⟨he, hehard, hehas⟩).trans_lt heover
    have hfirst : (g.withBudgets m).budgets.values.findSome? (halt bd'.total) =
        some (some c) := by
      change m.values.findSome? _ = _
      rw [hvalues, List.findSome?_cons, halt_eq_exceeded_iff.mpr ⟨rfl, hc.2.1, hc.2.2, hover⟩]
    exact ⟨_, (hreaches'.withBudgets m).evaluatePlan_halts hfirst, by simp [budgetVerdict]⟩
  · push Not at hreach
    refine exists_rejection (fun hc => hpayable p hp (hc.withBudgets g.budgets)) ?_ ?_
    · exact fun bd hbd => absurd (reaches_withBudgets_iff.mp hbd) (hreach bd)
    · exact fun bd hbd => absurd (reaches_withBudgets_iff.mp hbd) (hreach bd)

section Necessary

variable (horder : g.OrderFree workload workloadGen plans)
  (hrevalidated : g.revalidationNeeded = false)
  (hpayable : ∀ p ∈ plans, g.PassesChecks p → g.Payable p)
include horder hrevalidated hpayable

theorem OrderFree.hasRemaining (hthrows : ¬ AlwaysThrows g plans) (hplan : plan ∈ plans)
    (hreaches : ReachesBudgets g plan bd) :
    ∀ b ∈ g.budgets.values, b.mode = .hard → b.HasRemaining := by
  intro b hb hard
  by_contra hnot
  have hexceeds : ∀ p ∈ plans, ∀ bd, ReachesBudgets g p bd → ∃ c ∈ g.budgets.values,
      c.mode = .hard ∧ c.HasRemaining ∧ c.room < bd.total.toInt := by
    intro p hp bd hreaches
    by_contra hnone
    push Not at hnone
    exact hthrows (.remaining p hp bd hreaches b hb hard hnot hnone)
  obtain ⟨m, hm, hthrown⟩ := exists_order_throws hrevalidated hplan hreaches hb hard hnot
  obtain ⟨m', hm', hreturned⟩ :=
    exists_order_rejects hrevalidated hpayable hplan hreaches hexceeds
  rw [horder m' hm', ← horder m hm] at hreturned
  exact hreturned hthrown

theorem OrderFree.authorized
    (hfit : ∀ b ∈ g.budgets.values, b.Counted → ThresholdsFit g.policy b) {total : MoneyMicros}
    (hcheapest : CheapestFit g plans total) :
    Agree hardRoom g.budgets.values ∧ Agree (mark g.policy total) g.budgets.values := by
  obtain ⟨best, rest, hsort, rfl⟩ := hcheapest.exists_best
  -- all orders authorize the same candidate, with the one outline there is
  have hdecision : ∀ order : List Budget, order.Perm g.budgets.values → ∃ d : CostDecision,
      g.outline workload workloadGen plans = some d.outline ∧
      d.remainingBudget.toInt = (order.findSome? hardRoom).getD 0 ∧
      d.state = lastWritten (mark g.policy best.econ.projected.total) .withinBudget order := by
    intro order hperm
    obtain ⟨m, hm, rfl⟩ := exists_reordering hperm
    obtain ⟨d, hd, hauthorizes⟩ := hm.exists_evaluate hrevalidated hpayable hfit hsort
    refine ⟨d, ?_, hauthorizes.remainingBudget, hauthorizes.state⟩
    rw [← horder m hm, outline, hd]
    rfl
  constructor
  · refine agree_of_findSome? 0 fun order order' hperm hperm' => ?_
    obtain ⟨d, hd, hroom, _⟩ := hdecision order hperm
    obtain ⟨d', hd', hroom', _⟩ := hdecision order' hperm'
    have hsame := congrArg Outline.remainingBudget (Option.some.inj (hd.symm.trans hd'))
    exact hroom.symm.trans ((congrArg MoneyMicros.toInt hsame).trans hroom')
  · refine agree_of_lastWritten .withinBudget fun order order' hperm hperm' => ?_
    obtain ⟨d, hd, _, hstate⟩ := hdecision order hperm
    obtain ⟨d', hd', _, hstate'⟩ := hdecision order' hperm'
    have hsame := congrArg Outline.state (Option.some.inj (hd.symm.trans hd'))
    exact hstate.symm.trans (hsame.trans hstate')

theorem OrderFree.rejected
    (hremaining : ∀ p ∈ plans, ∀ bd, ReachesBudgets g p bd →
      ∀ b ∈ g.budgets.values, b.mode = .hard → b.HasRemaining)
    (hnone : ∀ p ∈ plans, ∀ bd, ReachesBudgets g p bd → ¬ Affordable bd.total g.budgets.values)
    (hlast : plans.getLast? = some plan) (hreaches : ReachesBudgets g plan bd) :
    Agree (overReason bd.total) g.budgets.values := by
  have hplan := List.mem_of_getLast? hlast
  have hreason : ∀ order : List Budget, order.Perm g.budgets.values → ∃ o : Outline,
      g.outline workload workloadGen plans = some o ∧
      some o.bindingConstraint = order.findSome? (overReason bd.total) := by
    intro order hperm
    obtain ⟨m, hm, rfl⟩ := exists_reordering hperm
    have houtline : (g.withBudgets m).outline workload workloadGen plans = _ :=
      hm.outline_rejected hrevalidated hpayable hremaining hnone
    rw [hlast, horder m hm] at houtline
    refine ⟨_, houtline, ?_⟩
    exact (hreaches.withBudgets m).reason_eq (hm.hasRemaining (hremaining plan hplan bd hreaches))
      fun hafford => hnone plan hplan bd hreaches (hm.affordable_iff.mp hafford)
  refine agree_of_findSome? .none fun order order' hperm hperm' => ?_
  obtain ⟨o, ho, hbinding⟩ := hreason order hperm
  obtain ⟨o', ho', hbinding'⟩ := hreason order' hperm'
  rw [← hbinding, ← hbinding']
  exact congrArg Outline.bindingConstraint (Option.some.inj (ho.symm.trans ho'))

end Necessary

end Reordered

end Governor

open Governor

/-- The decision is the same in every order of the budget map exactly when it waits for
revalidation, throws in every order, or rests on budgets that agree. -/
theorem decision_order_free_iff (g : Governor) (workload : WorkloadId)
    (workloadGen : WorkloadGeneration) (plans : List ExecutionPlan) :
    g.OrderFree workload workloadGen plans ↔
      g.revalidationNeeded = true ∨ AlwaysThrows g plans ∨ BudgetsAgree g plans := by
  cases hrevalidated : g.revalidationNeeded with
  | true =>
      refine iff_of_true (fun m _ => ?_) (.inl rfl)
      have hrevalidated' : (g.withBudgets m).revalidationNeeded = true := hrevalidated
      unfold outline evaluate
      rw [if_pos hrevalidated, if_pos hrevalidated']
  | false =>
      rw [or_iff_right Bool.false_ne_true]
      by_cases hthrows : AlwaysThrows g plans
      · refine iff_of_true (fun m hm => ?_) (.inl hthrows)
        rw [hthrows.outline_eq hrevalidated]
        exact (hthrows.reorder hm).outline_eq (g := g.withBudgets m) hrevalidated
      · rw [or_iff_right hthrows]
        have hpayable : ∀ p ∈ plans, g.PassesChecks p → g.Payable p := fun p hp hchecks =>
          by_contra fun hnot => hthrows (.pricing p hp hchecks hnot)
        refine ⟨fun horder => ?_, fun h m hm => h.outline_eq hrevalidated hthrows hm⟩
        have hremaining : ∀ p ∈ plans, ∀ bd, ReachesBudgets g p bd →
            ∀ b ∈ g.budgets.values, b.mode = .hard → b.HasRemaining := fun p hp bd hreaches =>
          horder.hasRemaining hrevalidated hpayable hthrows hp hreaches
        refine ⟨hremaining, fun total hcheapest => ?_, fun hnone p hlast bd hreaches =>
          horder.rejected hrevalidated hpayable hremaining hnone hlast hreaches⟩
        obtain ⟨p, hp, bd, hreaches, hafford, _⟩ := hcheapest.attained
        refine horder.authorized hrevalidated hpayable (fun b hb hcounted => ?_) hcheapest
        exact by_contra fun hnot =>
          hthrows (.percentage p hp bd hreaches hafford b hb hcounted hnot)

def reversedBudgets : Governor :=
  (((fresh 0).createBudget (hardBudget 2 20)).2.createBudget (hardBudget 1 10)).2

/-- Two governors that differ only in the order their budgets were created report
different remaining amounts for the free plan. -/
theorem remaining_budget_depends_on_order :
    (twoBudgets 10 20).Reorders reversedBudgets.budgets ∧
      reversedBudgets = (twoBudgets 10 20).withBudgets reversedBudgets.budgets ∧
      ((twoBudgets 10 20).outline ⟨1⟩ ⟨1⟩ [{ id := ⟨1⟩ }]).map Outline.remainingBudget =
        some ⟨10⟩ ∧
      (reversedBudgets.outline ⟨1⟩ ⟨1⟩ [{ id := ⟨1⟩ }]).map Outline.remainingBudget = some ⟨20⟩ ∧
      ¬ (twoBudgets 10 20).OrderFree ⟨1⟩ ⟨1⟩ [{ id := ⟨1⟩ }] := by
  have hreorders : (twoBudgets 10 20).Reorders reversedBudgets.budgets := List.Perm.swap ..
  refine ⟨hreorders, rfl, rfl, rfl, fun horder => ?_⟩
  have hsame := congrArg (Option.map Outline.remainingBudget) (horder _ hreorders)
  exact absurd (Option.some.inj hsame) (by decide)

end CostGovernor
