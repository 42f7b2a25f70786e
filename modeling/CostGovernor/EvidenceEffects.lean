import CostGovernor.Operations

/-!
# What a call does to evidence and authority

`EvidenceEffect` says once, for every call, what can happen to the policy, the
prices, the attempts, the epoch and the worker boots.
-/

namespace CostGovernor

namespace Governor

structure SameEvidence (g g' : Governor) : Prop where
  policy : g'.policy = g.policy
  schedule : g'.schedule = g.schedule
  epoch : g'.epoch = g.epoch
  workerBoots : g'.workerBoots = g.workerBoots
  revalidationNeeded : g'.revalidationNeeded = g.revalidationNeeded
  attempts : g'.attempts = g.attempts

theorem sameEvidence_refl (g : Governor) : SameEvidence g g := ⟨rfl, rfl, rfl, rfl, rfl, rfl⟩

inductive EvidenceEffect (g : Governor) : Op → Governor → Prop
  | frame (op : Op) (g' : Governor) (h : SameEvidence g g') : EvidenceEffect g op g'
  | published (obs : PriceObservation) (h : Publishable g obs) :
      EvidenceEffect g (.publishPrice obs) (g.published obs)
  | recorded (e : CostEvidence) (h : Recordable g e)
      (hgen : ∀ old, g.attemptOf e.request e.attempt = some old → old.attemptGen ≠ e.attemptGen) :
      EvidenceEffect g (.recordAttempt e) (g.recorded e)
  | newEpoch : EvidenceEffect g .advanceEpoch g.advanceEpoch
  | newPolicy (p : CostPolicy) : EvidenceEffect g (.setPolicy p) (g.setPolicy p)
  | newSchedule (s : PriceSchedule) : EvidenceEffect g (.setPriceSchedule s) (g.setPriceSchedule s)
  | newBoot (worker : WorkerId) (boot : WorkerBootId) :
      EvidenceEffect g (.setWorkerBoot worker boot) (g.setWorkerBoot worker boot)

theorem finalizeRequest_sameEvidence (g : Governor) (request : RequestId) (workload : WorkloadId) :
    SameEvidence g (g.finalizeRequest request workload).2 := by
  have h := g.finalizeRequest_cases request workload
  generalize g.finalizeRequest request workload = x at h ⊢
  cases h <;> exact ⟨rfl, rfl, rfl, rfl, rfl, rfl⟩

theorem sameEvidence_interventions {g g' : Governor}
    (h : ∃ is, g' = { g with interventions := is }) : SameEvidence g g' := by
  obtain ⟨is, rfl⟩ := h
  exact ⟨rfl, rfl, rfl, rfl, rfl, rfl⟩

theorem publishPrice_writes (g : Governor) (obs : PriceObservation) :
    ∃ schedule needed, (g.publishPrice obs).2 =
      { g with schedule := schedule, revalidationNeeded := needed } := by
  have h := g.publishPrice_cases obs
  generalize g.publishPrice obs = x at h ⊢
  cases h <;> exact ⟨_, _, rfl⟩

theorem recordAttempt_writes (g : Governor) (e : CostEvidence) :
    ∃ attempts, (g.recordAttempt e).2 = { g with attempts := attempts } := by
  have h := g.recordAttempt_cases e
  generalize g.recordAttempt e = x at h ⊢
  cases h <;> exact ⟨_, rfl⟩

theorem finalizeRequest_writes (g : Governor) (request : RequestId) (workload : WorkloadId) :
    ∃ history, (g.finalizeRequest request workload).2 = { g with history := history } := by
  have h := g.finalizeRequest_cases request workload
  generalize g.finalizeRequest request workload = x at h ⊢
  cases h <;> exact ⟨_, rfl⟩

/-- A budget call writes the budgets and the list of reservations and nothing else. -/
theorem budgetCall_writes (g : Governor) {op : Op} (h : op.isBudgetCall = true) :
    ∃ budgets reservations next, g.apply op =
      { g with budgets := budgets, reservations := reservations, nextReservation := next } := by
  cases op with
  | createBudget b =>
      have hcase := g.createBudget_cases b
      change ∃ budgets reservations next, (g.createBudget b).2 = _
      generalize g.createBudget b = x at hcase ⊢
      cases hcase <;> exact ⟨_, _, _, rfl⟩
  | reserve budget gen epoch amount =>
      have hcase := g.reserve_cases budget gen epoch amount
      change ∃ budgets reservations next, (g.reserve budget gen epoch amount).2.2 = _
      generalize g.reserve budget gen epoch amount = x at hcase ⊢
      cases hcase <;> exact ⟨_, _, _, rfl⟩
  | commit r =>
      have hcase := g.commit_cases r
      change ∃ budgets reservations next, (g.commit r).2.2 = _
      generalize g.commit r = x at hcase ⊢
      cases hcase <;> exact ⟨_, _, _, rfl⟩
  | release r =>
      have hcase := g.release_cases r
      change ∃ budgets reservations next, (g.release r).2.2 = _
      generalize g.release r = x at hcase ⊢
      cases hcase <;> exact ⟨_, _, _, rfl⟩
  | consume budget gen epoch amount =>
      have hcase := g.consume_cases budget gen epoch amount
      change ∃ budgets reservations next, (g.consume budget gen epoch amount).2 = _
      generalize g.consume budget gen epoch amount = x at hcase ⊢
      cases hcase <;> exact ⟨_, _, _, rfl⟩
  | _ => cases h

theorem budgetCall_sameEvidence (g : Governor) {op : Op} (h : op.isBudgetCall = true) :
    SameEvidence g (g.apply op) := by
  obtain ⟨_, _, _, happly⟩ := g.budgetCall_writes h
  rw [happly]
  exact ⟨rfl, rfl, rfl, rfl, rfl, rfl⟩

theorem exec_evidence (g : Governor) (op : Op) : EvidenceEffect g op (g.apply op) := by
  by_cases hcall : op.isBudgetCall = true
  · exact .frame op _ (g.budgetCall_sameEvidence hcall)
  cases op with
  | advanceEpoch => exact .newEpoch
  | setPolicy p => exact .newPolicy p
  | setPriceSchedule s => exact .newSchedule s
  | setWorkerBoot worker boot => exact .newBoot worker boot
  | publishPrice obs =>
      have hcase := g.publishPrice_cases obs
      change EvidenceEffect g _ (g.publishPrice obs).2
      generalize g.publishPrice obs = x at hcase ⊢
      cases hcase with
      | refused => exact .frame _ _ g.sameEvidence_refl
      | accepted h => exact .published obs h
  | recordAttempt e =>
      have hcase := g.recordAttempt_cases e
      change EvidenceEffect g _ (g.recordAttempt e).2
      generalize g.recordAttempt e = x at hcase ⊢
      cases hcase with
      | refused => exact .frame _ _ g.sameEvidence_refl
      | duplicate => exact .frame _ _ g.sameEvidence_refl
      | accepted h hgen => exact .recorded e h hgen
  | finalizeRequest request workload =>
      exact .frame _ _ (g.finalizeRequest_sameEvidence request workload)
  | authorizeIntervention id gen =>
      exact .frame _ _ (sameEvidence_interventions (g.authorizeIntervention_cases id gen).writes)
  | acknowledgeIntervention id gen =>
      exact .frame _ _ (sameEvidence_interventions (g.acknowledgeIntervention_cases id gen).writes)
  | verifyIntervention id gen post =>
      exact .frame _ _ (sameEvidence_interventions (g.verifyIntervention_cases id gen post).writes)
  | setClock now => exact .frame _ _ ⟨rfl, rfl, rfl, rfl, rfl, rfl⟩
  | setStatePath => exact .frame _ _ ⟨rfl, rfl, rfl, rfl, rfl, rfl⟩
  | proposeIntervention i => exact .frame _ _ ⟨rfl, rfl, rfl, rfl, rfl, rfl⟩
  | _ => exact absurd rfl hcall

theorem history_interventions {g g' : Governor} (h : ∃ is, g' = { g with interventions := is }) :
    g'.history = g.history := by
  obtain ⟨is, rfl⟩ := h
  rfl

/-- Only the finalization of a request writes the history. -/
theorem apply_history (g : Governor) {op : Op}
    (h : ∀ request workload, op ≠ .finalizeRequest request workload) :
    (g.apply op).history = g.history := by
  by_cases hcall : op.isBudgetCall = true
  · obtain ⟨_, _, _, happly⟩ := g.budgetCall_writes hcall
    rw [happly]
  cases op with
  | publishPrice obs =>
      have hcase := g.publishPrice_cases obs
      change (g.publishPrice obs).2.history = _
      generalize g.publishPrice obs = x at hcase ⊢
      cases hcase <;> rfl
  | recordAttempt e =>
      have hcase := g.recordAttempt_cases e
      change (g.recordAttempt e).2.history = _
      generalize g.recordAttempt e = x at hcase ⊢
      cases hcase <;> rfl
  | finalizeRequest request workload => exact absurd rfl (h request workload)
  | authorizeIntervention id gen =>
      exact history_interventions (g.authorizeIntervention_cases id gen).writes
  | acknowledgeIntervention id gen =>
      exact history_interventions (g.acknowledgeIntervention_cases id gen).writes
  | verifyIntervention id gen post =>
      exact history_interventions (g.verifyIntervention_cases id gen post).writes
  | advanceEpoch => rfl
  | setPolicy p => rfl
  | setPriceSchedule s => rfl
  | setClock now => rfl
  | setStatePath => rfl
  | setWorkerBoot worker boot => rfl
  | proposeIntervention i => rfl
  | _ => exact absurd rfl hcall

end Governor

end CostGovernor
