import CostGovernor.PlanSelection

/-!
# The order of the candidates

The last key of the ranking is the identity of the plan, so candidates with different
identities are never tied and the stable sort forgets the order they came in. What a
decision says about its choice is then the same for every order of the candidates.
-/

namespace CostGovernor

open RankOrder Executions

theorem better_connected {a b : Candidate} (h : a.plan.id ≠ b.plan.id) :
    better a b = true ∨ better b a = true := by
  rw [better_eq_byKey]
  apply byKey_connected totals_lt
  apply byKey_connected totals_lt
  apply byKey_connected totals_lt
  apply byKey_connected totals_lt
  apply byKey_connected totals_lt
  apply byKey_connected totals_lt
  apply byKey_connected totals_int64.flip
  exact totals_lt.connected _ _ h

structure SameChoice (d d' : CostDecision) : Prop where
  kind : d'.kind = d.kind
  selectedPlan : d'.selectedPlan = d.selectedPlan
  planGeneration : d'.planGeneration = d.planGeneration
  projected : d'.projected = d.projected
  remainingBudget : d'.remainingBudget = d.remainingBudget
  state : d'.state = d.state
  authority : d'.authority = d.authority
  rejectedPlans : d'.rejectedPlans.Perm d.rejectedPlans

namespace Governor

def candidateFor (g : Governor) (plan : ExecutionPlan) : Candidate :=
  ⟨plan, (g.evaluatePlan plan).toOption.getD {}⟩

theorem candidatesOf_eq_ok_iff (g : Governor) (plans : List ExecutionPlan)
    (candidates : List Candidate) :
    g.candidatesOf plans = .ok candidates ↔
      (∀ plan ∈ plans, ∃ e, g.evaluatePlan plan = .ok e) ∧
        candidates = plans.map g.candidateFor := by
  induction plans generalizing candidates with
  | nil => simp [candidatesOf, eq_comm]
  | cons plan plans ih =>
      rw [candidatesOf, bind_eq_ok_iff, List.forall_mem_cons]
      constructor
      · rintro ⟨econ, hecon, h⟩
        obtain ⟨rest, hrest, h⟩ := bind_eq_ok_iff.1 h
        obtain ⟨hplans, rfl⟩ := (ih rest).1 hrest
        refine ⟨⟨⟨econ, hecon⟩, hplans⟩, ?_⟩
        have hhead : g.candidateFor plan = ⟨plan, econ⟩ := by
          rw [candidateFor, evaluatePlan, hecon]
          rfl
        rw [List.map_cons, hhead, ← Except.ok.inj h]
      · rintro ⟨⟨⟨econ, hecon⟩, hplans⟩, rfl⟩
        have hhead : g.candidateFor plan = ⟨plan, econ⟩ := by
          rw [candidateFor, hecon]
          rfl
        refine ⟨econ, hecon, ?_⟩
        rw [(ih _).2 ⟨hplans, rfl⟩, List.map_cons, hhead]
        rfl

variable {g : Governor} {workloadGen : WorkloadGeneration} {plans plans' : List ExecutionPlan}

theorem authorizeDecision_rejected {candidates : List Candidate} {best : Candidate}
    {d : CostDecision} (h : g.authorizeDecision workloadGen plans candidates best = .ok d) :
    d.rejectedPlans =
      (candidates.filter (fun c => c.plan.id ≠ best.plan.id)).map (fun c => c.plan.id) := by
  unfold authorizeDecision at h
  obtain ⟨_, _, h⟩ := bind_eq_ok_iff.1 h
  obtain ⟨_, _, h⟩ := bind_eq_ok_iff.1 h
  obtain ⟨_, _, h⟩ := bind_eq_ok_iff.1 h
  rw [← Except.ok.inj h]

/-- The explanation is the only part of an AUTHORIZE decision that reads the plans. -/
theorem authorizeDecision_perm {candidates candidates' : List Candidate} {best : Candidate}
    {d : CostDecision} (hperm : candidates'.Perm candidates)
    (h : g.authorizeDecision workloadGen plans candidates best = .ok d) :
    ∃ d', g.authorizeDecision workloadGen plans' candidates' best = .ok d' ∧ SameChoice d d' := by
  unfold authorizeDecision buildExplanation at h
  obtain ⟨remaining, hremaining, h⟩ := bind_eq_ok_iff.1 h
  obtain ⟨state, hstate, h⟩ := bind_eq_ok_iff.1 h
  obtain ⟨explanation, hexplanation, h⟩ := bind_eq_ok_iff.1 h
  obtain ⟨alternative, halternative, _⟩ := bind_eq_ok_iff.1 hexplanation
  rw [← Except.ok.inj h]
  unfold authorizeDecision buildExplanation
  rw [hremaining, hstate, halternative]
  exact ⟨_, rfl, rfl, rfl, rfl, rfl, rfl, rfl, rfl, (hperm.filter _).map _⟩

theorem sort_candidates_perm (hperm : plans'.Perm plans)
    (hdistinct : (plans.map ExecutionPlan.id).Nodup) :
    stableSort better ((plans'.map g.candidateFor).filter isFeasible) =
      stableSort better ((plans.map g.candidateFor).filter isFeasible) := by
  refine stableSort_eq_of_perm better_ranks ((hperm.map _).filter _) ?_
  intro a ha b hb hne
  apply better_connected
  intro hid
  obtain ⟨p, hp, rfl⟩ := List.mem_map.1 (List.mem_filter.1 ha).1
  obtain ⟨q, hq, rfl⟩ := List.mem_map.1 (List.mem_filter.1 hb).1
  exact hne (congrArg g.candidateFor (List.inj_on_of_nodup_map hdistinct hp hq hid))

theorem evaluate_perm {workload : WorkloadId} {d : CostDecision} (hperm : plans'.Perm plans)
    (hdistinct : (plans.map ExecutionPlan.id).Nodup)
    (h : g.evaluate workload workloadGen plans = .ok d) :
    ∃ d', g.evaluate workload workloadGen plans' = .ok d' ∧ SameChoice d d' := by
  have hempty : plans'.isEmpty = plans.isEmpty := by
    rw [Bool.eq_iff_iff, List.isEmpty_iff, List.isEmpty_iff]
    exact ⟨fun he => List.nil_perm.1 (he ▸ hperm), fun he => List.perm_nil.1 (he ▸ hperm)⟩
  unfold evaluate at h ⊢
  rw [hempty]
  split_ifs at h ⊢
  · cases h
    exact ⟨_, rfl, rfl, rfl, rfl, rfl, rfl, rfl, rfl, .refl _⟩
  · cases h
    exact ⟨_, rfl, rfl, rfl, rfl, rfl, rfl, rfl, rfl, .refl _⟩
  · obtain ⟨candidates, hcandidates, h⟩ := bind_eq_ok_iff.1 h
    obtain ⟨hreturn, rfl⟩ := (g.candidatesOf_eq_ok_iff plans candidates).1 hcandidates
    have hcandidates' := (g.candidatesOf_eq_ok_iff plans' _).2
      ⟨fun plan hplan => hreturn plan (hperm.subset hplan), rfl⟩
    have hsort := sort_candidates_perm (g := g) hperm hdistinct
    rw [hcandidates']
    dsimp only [bind, Except.bind]
    rw [hsort]
    cases hbest : stableSort better ((plans.map g.candidateFor).filter isFeasible) with
    | nil =>
        rw [hbest] at h
        cases h
        exact ⟨_, rfl, rfl, rfl, rfl, rfl, rfl, rfl, rfl, .refl _⟩
    | cons best rest =>
        rw [hbest] at h
        exact authorizeDecision_perm (hperm.map _) h

/-- An AUTHORIZE decision names every candidate once. -/
theorem authorize_accounts {workload : WorkloadId} {d : CostDecision}
    (hdistinct : (plans.map ExecutionPlan.id).Nodup)
    (h : g.evaluate workload workloadGen plans = .ok d) (hkind : d.kind = .authorize) :
    (d.selectedPlan :: d.rejectedPlans).Perm (plans.map ExecutionPlan.id) := by
  obtain ⟨candidates, best, rest, hcandidates, hsort, hd⟩ := authorized_of_evaluate h hkind
  have hselection := selection_of_head hcandidates hsort hd
  obtain ⟨_, rfl⟩ := (g.candidatesOf_eq_ok_iff plans candidates).1 hcandidates
  have hselected : d.selectedPlan ∈ plans.map ExecutionPlan.id := by
    rw [hselection.selected.1]
    exact List.mem_map_of_mem hselection.candidate
  have hrejected : d.rejectedPlans = (plans.map ExecutionPlan.id).erase d.selectedPlan := by
    rw [authorizeDecision_rejected hd, hselection.selected.1, hdistinct.erase_eq_filter,
      List.filter_map, List.filter_map, List.map_map]
    refine congrArg (List.map ExecutionPlan.id) (List.filter_congr (fun plan _ => ?_))
    rw [Bool.eq_iff_iff]
    exact decide_eq_true_iff.trans bne_iff_ne.symm
  rw [hrejected]
  exact (List.perm_cons_erase hselected).symm

end Governor

open Governor

/-- Every order of candidates with different identities gets the same choice, and an
AUTHORIZE decision accounts for every candidate. -/
theorem candidate_order_irrelevant (g : Governor) (workload : WorkloadId)
    (workloadGen : WorkloadGeneration) (plans plans' : List ExecutionPlan)
    (hdistinct : (plans.map ExecutionPlan.id).Nodup) (hperm : plans'.Perm plans) (d : CostDecision)
    (h : g.evaluate workload workloadGen plans = .ok d) :
    (∃ d', g.evaluate workload workloadGen plans' = .ok d' ∧ SameChoice d d') ∧
      (d.kind = .authorize →
        (d.selectedPlan :: d.rejectedPlans).Perm (plans.map ExecutionPlan.id)) :=
  ⟨evaluate_perm hperm hdistinct h, authorize_accounts hdistinct h⟩

theorem candidate_order_irrelevant_rivalPlans :
    ∃ d, pricedGovernor.evaluate ⟨1⟩ ⟨1⟩ rivalPlans = .ok d ∧ d.kind = .authorize ∧
      (∃ d', pricedGovernor.evaluate ⟨1⟩ ⟨1⟩ rivalPlans.reverse = .ok d' ∧ SameChoice d d') ∧
      (d.selectedPlan :: d.rejectedPlans).Perm (rivalPlans.map ExecutionPlan.id) := by
  have hrivals := candidate_order_irrelevant pricedGovernor ⟨1⟩ ⟨1⟩ rivalPlans rivalPlans.reverse
    (by decide) (List.reverse_perm _) _ rfl
  exact ⟨_, rfl, rfl, hrivals.1, hrivals.2 rfl⟩

end CostGovernor
