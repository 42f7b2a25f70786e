import CostGovernor.SettlementCases
import CostGovernor.PriceSelection

/-!
# Plan selection

The ranking comparator is a chain of eight keys and therefore a strict weak order,
so the head of the stable sort is a feasible candidate that no feasible candidate
precedes. `Selection` collects what an AUTHORIZE decision says about its plan.
-/

namespace CostGovernor

open RankOrder ScanSelection Executions

theorem totals_int64 : Totals (fun x y : Int64 => decide (x < y)) := by
  have hlt : (fun x y : Int64 => decide (x < y)) = fun x y => decide (x.toInt < y.toInt) := by
    funext x y
    simp only [Int64.lt_iff_toInt_lt]
  rw [hlt]
  exact totals_lt.comap (fun _ _ h => Int64.toInt.inj h)

/-- The comparator of the ranking, key by key. -/
theorem better_eq_byKey : better =
    byKey (fun x y => decide (x < y)) (fun c => c.econ.projected.total)
    (byKey (fun x y => decide (x < y)) (fun c => c.econ.projectedPerRequest)
    (byKey (fun x y => decide (x < y)) (fun c => c.econ.projectedPerToken)
    (byKey (fun x y => decide (x < y)) (fun c => knownValue c.econ .energy)
    (byKey (fun x y => decide (x < y)) (fun c => knownValue c.econ .transfer)
    (byKey (fun x y => decide (x < y)) (fun c => knownValue c.econ .acceleratorTime)
    (byKey (fun x y => decide (y < x)) (fun c => c.plan.completionProbabilityPercent)
    (fun a b => decide (a.plan.id < b.plan.id)))))))) := rfl

theorem better_ranks : Ranks better := by
  rw [better_eq_byKey]
  apply Ranks.byKey totals_lt
  apply Ranks.byKey totals_lt
  apply Ranks.byKey totals_lt
  apply Ranks.byKey totals_lt
  apply Ranks.byKey totals_lt
  apply Ranks.byKey totals_lt
  apply Ranks.byKey totals_int64.flip
  exact totals_lt.ranks.comap (fun c : Candidate => c.plan.id)

namespace Governor

variable {g : Governor}

/-- The candidates are the plans, in order, with what `evaluatePlan` says of each. -/
theorem mem_candidatesOf_iff {plans : List ExecutionPlan} {candidates : List Candidate}
    (h : g.candidatesOf plans = .ok candidates) (c : Candidate) :
    c ∈ candidates ↔ c.plan ∈ plans ∧ g.evaluatePlan c.plan = .ok c.econ := by
  induction plans generalizing candidates with
  | nil =>
      rw [← Except.ok.inj h]
      simp
  | cons plan plans ih =>
      obtain ⟨econ, hecon, h₁⟩ := bind_eq_ok_iff.1 h
      obtain ⟨rest, hrest, h₂⟩ := bind_eq_ok_iff.1 h₁
      rw [← Except.ok.inj h₂, List.mem_cons, List.mem_cons, ih hrest]
      constructor
      · intro hc
        rcases hc with rfl | ⟨hmem, hev⟩
        · exact ⟨Or.inl rfl, hecon⟩
        · exact ⟨Or.inr hmem, hev⟩
      · intro hc
        obtain ⟨hplan, hev⟩ := hc
        rcases hplan with hhead | hmem
        · rw [hhead] at hev
          have he : econ = c.econ := Except.ok.inj (hecon.symm.trans hev)
          left
          cases c
          cases hhead
          cases he
          rfl
        · exact Or.inr ⟨hmem, hev⟩

structure Selection (g : Governor) (plans : List ExecutionPlan) (d : CostDecision)
    (plan : ExecutionPlan) (econ : PlanEconomics) : Prop where
  candidate : plan ∈ plans
  feasible : g.evaluatePlan plan = .ok econ ∧ econ.feasible = .feasible
  selected : d.selectedPlan = plan.id ∧ d.planGeneration = plan.generation ∧
    d.projected = econ.projected
  meetsSlo : plan.meetsHardSlo = true
  supported : plan.label ≠ .unsupported
  priced : ∀ c ∈ checkedComponents, expectedAmount plan c ≠ 0 →
    ∃ o ∈ g.schedule.observations, g.Accepted plan c o = true
  recomputation : plan.recoveryRecomputeNs ≠ 0 →
    ∃ o ∈ g.schedule.observations, g.Applies plan .acceleratorTime o = true
  affordable : ∀ id b, g.budgets.find? id = some b → b.mode = .hard →
    ∃ remaining, b.remaining = .ok remaining ∧ econ.projected.total ≤ remaining
  best : ∀ other ∈ plans, ∀ e, g.evaluatePlan other = .ok e → e.feasible = .feasible →
    better ⟨other, e⟩ ⟨plan, econ⟩ = false

theorem FeasibleVerdict.priced {plan : ExecutionPlan} {econ : PlanEconomics}
    (h : FeasibleVerdict g plan econ) {c : CostComponent} (hc : c ∈ checkedComponents)
    (hne : expectedAmount plan c ≠ 0) :
    ∃ o ∈ g.schedule.observations, g.Accepted plan c o = true := by
  obtain ⟨⟨p, hp⟩, _⟩ := h.checked hc hne
  rw [priceCheck_obs] at hp
  obtain ⟨hkept, hmem⟩ := scan_eq_some_kept (o := p.1) (i := p.2) hp
  exact ⟨p.1, hmem, hkept⟩

theorem FeasibleVerdict.recomputation {plan : ExecutionPlan} {econ : PlanEconomics}
    (h : FeasibleVerdict g plan econ) (hne : plan.recoveryRecomputeNs ≠ 0) :
    ∃ o ∈ g.schedule.observations, g.Applies plan .acceleratorTime o = true := by
  obtain ⟨bd, hbd⟩ := chargeAttempt_of_project h.projection
  obtain ⟨m, hm⟩ := (priced_of_chargeAttempt hbd).2 hne
  obtain ⟨_, p, hp⟩ := findPrice_of_priced (by simp [checkedComponents]) hm
  obtain ⟨hkept, hmem⟩ := scan_eq_some_kept (o := p.1) (i := p.2) hp
  exact ⟨p.1, hmem, hkept⟩

theorem FeasibleVerdict.affordable {plan : ExecutionPlan} {econ : PlanEconomics}
    (h : FeasibleVerdict g plan econ) {id : BudgetId} {b : Budget}
    (hb : g.budgets.find? id = some b) (hard : b.mode = .hard) :
    ∃ remaining, b.remaining = .ok remaining ∧ econ.projected.total ≤ remaining := by
  apply (firstExceeded_eq_none_iff _ _).1 h.budgets b _ hard
  exact (g.budgets.mem_values_iff b).2 ⟨id, hb⟩

theorem authorizeDecision_kind {workloadGen : WorkloadGeneration} {plans : List ExecutionPlan}
    {candidates : List Candidate} {best : Candidate} {d : CostDecision}
    (h : g.authorizeDecision workloadGen plans candidates best = .ok d) :
    d.kind = .authorize ∧ d.selectedPlan = best.plan.id ∧
      d.planGeneration = best.plan.generation ∧ d.projected = best.econ.projected := by
  unfold authorizeDecision at h
  obtain ⟨remaining, _, h₁⟩ := bind_eq_ok_iff.1 h
  obtain ⟨state, _, h₂⟩ := bind_eq_ok_iff.1 h₁
  obtain ⟨explanation, _, h₃⟩ := bind_eq_ok_iff.1 h₂
  rw [← Except.ok.inj h₃]
  exact ⟨rfl, rfl, rfl, rfl⟩

theorem authorizeDecision_authority {workloadGen : WorkloadGeneration} {plans : List ExecutionPlan}
    {candidates : List Candidate} {best : Candidate} {d : CostDecision}
    (h : g.authorizeDecision workloadGen plans candidates best = .ok d) :
    d.authority = g.authoritySnapshotFrom best.plan workloadGen := by
  unfold authorizeDecision at h
  obtain ⟨remaining, _, h₁⟩ := bind_eq_ok_iff.1 h
  obtain ⟨state, _, h₂⟩ := bind_eq_ok_iff.1 h₁
  obtain ⟨explanation, _, h₃⟩ := bind_eq_ok_iff.1 h₂
  rw [← Except.ok.inj h₃]

/-- An AUTHORIZE decision is the one for the head of the sorted feasible candidates. -/
theorem authorized_of_evaluate {workload : WorkloadId} {workloadGen : WorkloadGeneration}
    {plans : List ExecutionPlan} {d : CostDecision}
    (h : g.evaluate workload workloadGen plans = .ok d) (hkind : d.kind = .authorize) :
    ∃ candidates best rest, g.candidatesOf plans = .ok candidates ∧
      stableSort better (candidates.filter isFeasible) = best :: rest ∧
      g.authorizeDecision workloadGen plans candidates best = .ok d := by
  unfold evaluate at h
  split_ifs at h
  · rw [← Except.ok.inj h] at hkind
    cases hkind
  · rw [← Except.ok.inj h] at hkind
    cases hkind
  · obtain ⟨candidates, hcandidates, hrest⟩ := bind_eq_ok_iff.1 h
    cases hsort : stableSort better (candidates.filter isFeasible) with
    | nil =>
        rw [hsort] at hrest
        rw [← Except.ok.inj hrest] at hkind
        cases hkind
    | cons best rest =>
        rw [hsort] at hrest
        exact ⟨candidates, best, rest, hcandidates, hsort, hrest⟩

theorem selection_of_head {plans : List ExecutionPlan} {candidates : List Candidate}
    (hcandidates : g.candidatesOf plans = .ok candidates) {best : Candidate}
    {rest : List Candidate}
    (hsort : stableSort better (candidates.filter isFeasible) = best :: rest)
    {workloadGen : WorkloadGeneration} {d : CostDecision}
    (hd : g.authorizeDecision workloadGen plans candidates best = .ok d) :
    Selection g plans d best.plan best.econ := by
  obtain ⟨hmem, hbest⟩ := head_stableSort better_ranks hsort
  obtain ⟨hcand, hfeas⟩ := List.mem_filter.1 hmem
  obtain ⟨hplan, hev⟩ := (mem_candidatesOf_iff hcandidates best).1 hcand
  have hf : best.econ.feasible = .feasible := of_decide_eq_true hfeas
  have hverdict := feasibleVerdict hev hf
  refine ⟨hplan, ⟨hev, hf⟩, (authorizeDecision_kind hd).2, hverdict.meetsSlo, hverdict.supported,
    fun c hc hne => hverdict.priced hc hne, hverdict.recomputation,
    fun id b hb hard => hverdict.affordable hb hard, ?_⟩
  intro other hother e he hfe
  apply hbest
  apply List.mem_filter.2
  exact ⟨(mem_candidatesOf_iff hcandidates ⟨other, e⟩).2 ⟨hother, he⟩, decide_eq_true hfe⟩

theorem none_feasible_of_sort {plans : List ExecutionPlan} {candidates : List Candidate}
    (hcandidates : g.candidatesOf plans = .ok candidates)
    (hsort : stableSort better (candidates.filter isFeasible) = []) {plan : ExecutionPlan}
    (hplan : plan ∈ plans) {e : PlanEconomics} (he : g.evaluatePlan plan = .ok e) :
    e.feasible ≠ .feasible := by
  intro hf
  have hmem : (⟨plan, e⟩ : Candidate) ∈ candidates.filter isFeasible :=
    List.mem_filter.2 ⟨(mem_candidatesOf_iff hcandidates ⟨plan, e⟩).2 ⟨hplan, he⟩, decide_eq_true hf⟩
  have hsorted := mem_stableSort (r := better) |>.2 hmem
  rw [hsort] at hsorted
  cases hsorted

end Governor

open Governor

/-- An AUTHORIZE decision selects a feasible candidate that no feasible candidate
precedes, a NO_FEASIBLE_PLAN decision means there is none, and the comparator the
candidates are sorted by is a strict weak order. -/
theorem evaluate_selects_best_feasible (g : Governor) (workload : WorkloadId)
    (workloadGen : WorkloadGeneration) (plans : List ExecutionPlan) (d : CostDecision)
    (h : g.evaluate workload workloadGen plans = .ok d) :
    (d.kind = .authorize → ∃ plan econ, Selection g plans d plan econ) ∧
      (d.kind = .noFeasiblePlan →
        ∀ plan ∈ plans, ∀ e, g.evaluatePlan plan = .ok e → e.feasible ≠ .feasible) ∧
      IsStrictWeakOrder Candidate (fun a b => better a b = true) := by
  refine ⟨?_, ?_, better_ranks.isStrictWeakOrder⟩
  · intro hkind
    obtain ⟨candidates, best, rest, hcandidates, hsort, hd⟩ := authorized_of_evaluate h hkind
    exact ⟨best.plan, best.econ, selection_of_head hcandidates hsort hd⟩
  · intro hkind plan hplan e he
    unfold evaluate at h
    split_ifs at h with hreval hempty
    · rw [← Except.ok.inj h] at hkind
      cases hkind
    · rw [List.isEmpty_iff.1 hempty] at hplan
      cases hplan
    · obtain ⟨candidates, hcandidates, hrest⟩ := bind_eq_ok_iff.1 h
      cases hsort : stableSort better (candidates.filter isFeasible) with
      | nil => exact none_feasible_of_sort hcandidates hsort hplan he
      | cons best rest =>
          rw [hsort] at hrest
          rw [(authorizeDecision_kind hrest).1] at hkind
          cases hkind

def pricedGovernor : Governor :=
  ((fresh 0).setPriceSchedule { observations := [{ id := ⟨1⟩, amount := ⟨3⟩ }] }).createBudget {
    id := ⟨1⟩, generation := ⟨1⟩, policyGeneration := ⟨1⟩, epoch := ⟨1⟩, limit := ⟨10⟩ } |>.2

/-- Two plans in budget, one above it and one that misses the hard SLO. -/
def rivalPlans : List ExecutionPlan :=
  [{ id := ⟨1⟩, expectedAcceleratorTime := 3000000000 },
    { id := ⟨2⟩, expectedAcceleratorTime := 2000000000 },
    { id := ⟨3⟩, expectedAcceleratorTime := 9000000000 },
    { id := ⟨4⟩, meetsHardSlo := false }]

theorem evaluate_selects_best_feasible_rivalPlans :
    ∃ d, pricedGovernor.evaluate ⟨1⟩ ⟨1⟩ rivalPlans = .ok d ∧ d.kind = .authorize ∧
      d.selectedPlan = ⟨2⟩ ∧ ∃ plan econ, Selection pricedGovernor rivalPlans d plan econ := by
  refine ⟨_, rfl, rfl, rfl, ?_⟩
  exact (evaluate_selects_best_feasible pricedGovernor ⟨1⟩ ⟨1⟩ rivalPlans _ rfl).1 rfl

end CostGovernor
