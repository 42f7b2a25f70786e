import CostGovernor.WirePlans

/-!
# Evaluation of plans that came over the wire

The recomputation a plan loses on the wire is charged as accelerator time. The decision on
the plans that arrive is the one on the plans that were sent as long as that charge is zero
or never reached.
-/

namespace CostGovernor

open ByteStreams Executions RankOrder SegmentedStreams Cgproto

namespace Cgproto

/-- A request for one plan fits a frame. -/
theorem sendable_singleton (workload : WorkloadId) (workloadGen : WorkloadGeneration)
    (p : ExecutionPlan) : Sendable (.requestEval, evalRequest workload workloadGen [p]) := by
  have hlength : (evalRequest workload workloadGen [p]).length = 182 := by
    simp [evalRequest, putId, Writer.u64, Writer.u32, length_wordBytes, length_encodePlan]
  unfold Sendable
  rw [hlength]
  decide

end Cgproto

section Charges

/-- The cost of a plan that arrives lacks the price of the recomputation. -/
theorem attemptCost_wirePlan (g : Governor) (p : ExecutionPlan) :
    attemptCost g.schedule g.policy.currency g.now (planToEvidence p) =
      attemptCost g.schedule g.policy.currency g.now (planToEvidence (wirePlan p)) +
        ((planToEvidence p).recomputeCharge.price g.schedule g.policy.currency g.now).getD 0 := by
  have husages : chargesTotal g.schedule g.policy.currency g.now
      (planToEvidence (wirePlan p)).usageCharges =
      chargesTotal g.schedule g.policy.currency g.now (planToEvidence p).usageCharges := rfl
  have hnothing : chargesTotal g.schedule g.policy.currency g.now
      [(planToEvidence (wirePlan p)).recomputeCharge] = 0 := rfl
  rw [attemptCost, attemptCost, CostEvidence.charges, CostEvidence.charges, chargesTotal_append,
    chargesTotal_append, husages, hnothing, add_zero]
  exact congrArg _ List.sum_singleton

theorem recompute_charged {p : ExecutionPlan}
    (h : AllPriced meteredGovernor.schedule meteredGovernor.policy.currency meteredGovernor.now
      (planToEvidence p).charges) (hne : p.recoveryRecomputeNs ≠ 0) :
    0 < ((planToEvidence p).recomputeCharge.price meteredGovernor.schedule
      meteredGovernor.policy.currency meteredGovernor.now).getD 0 := by
  obtain ⟨z, hz⟩ := h _ (List.mem_append_right _ (List.mem_singleton_self _))
  have hamount : (planToEvidence p).recomputeCharge.amount ≠ 0 := hne
  obtain ⟨m, hm, rfl⟩ := (Charge.price_eq_some_iff hamount z).1 hz
  have hc : CostComponent.acceleratorTime ∈ checkedComponents := by decide
  have hnonneg : 0 ≤ p.recoveryRecomputeNs := (findPrice_of_priced hc hm).1
  have hpos : 0 < p.recoveryRecomputeNs.toInt := by
    refine lt_of_le_of_ne (Int64.le_iff_toInt_le.1 hnonneg) (fun hzero => hne ?_)
    exact Int64.toInt.inj hzero.symm
  obtain ⟨m', hm', _, hcharge⟩ := priced_metered hc hpos.le p
  have hsame : m = m' := Except.ok.inj (hm.symm.trans hm')
  rw [hz, hsame]
  exact hcharge rfl hpos

end Charges

section Agreement

def SessionState.computed : SessionState → Option CostDecision
  | .evaluated d => some d
  | _ => none

/-- The bytes of a request are received as one message, and for it the coordinator
computes what a caller of `evaluate` gets. -/
def RemoteAgrees (c : Coordinator) (workload : WorkloadId) (workloadGen : WorkloadGeneration)
    (plans : List ExecutionPlan) : Prop :=
  ∀ s : Segments UInt8,
    s.stream = streamOf [(.requestEval, evalRequest workload workloadGen plans)] →
    ∃ m, Session.messages s = [m] ∧ ∀ i, c.sessions i = .idle →
      ((c.step (.message i m)).sessions i).computed.map CostDecision.summary =
        (c.gov.evaluate workload workloadGen plans).toOption.map CostDecision.summary

theorem computed_of_request {c : Coordinator} {i : ℕ} (hidle : c.sessions i = .idle)
    (workload : WorkloadId) (workloadGen : WorkloadGeneration) {plans : List ExecutionPlan}
    (h : plans.length ≤ maxPlans) :
    ((c.step (.message i (.requestEval workload workloadGen plans))).sessions i).computed =
      (c.gov.evaluate workload workloadGen plans).toOption := by
  rw [Coordinator.step_message_of_idle hidle, Coordinator.receive, if_neg (not_lt.2 h)]
  cases c.gov.evaluate workload workloadGen plans with
  | error e =>
      change (Function.update c.sessions i SessionState.idle i).computed = none
      rw [Function.update_self]
      rfl
  | ok d =>
      change (Function.update c.sessions i (SessionState.evaluated d) i).computed = some d
      rw [Function.update_self]
      rfl

theorem remoteAgrees_iff (c : Coordinator) (workload : WorkloadId)
    (workloadGen : WorkloadGeneration) {plans : List ExecutionPlan} (hcount : plans.length ≤ maxPlans)
    (hsize : Sendable (.requestEval, evalRequest workload workloadGen plans)) :
    RemoteAgrees c workload workloadGen plans ↔ ((∃ i, c.sessions i = .idle) →
      (c.gov.evaluate workload workloadGen (plans.map wirePlan)).toOption.map CostDecision.summary =
        (c.gov.evaluate workload workloadGen plans).toOption.map CostDecision.summary) := by
  have hsent : ∀ f ∈ [((.requestEval, evalRequest workload workloadGen plans) : Frame)],
      Sendable f := by simpa using hsize
  have hcount' : (plans.map wirePlan).length ≤ maxPlans := by rwa [List.length_map]
  constructor
  · intro h hidle
    obtain ⟨i, hi⟩ := hidle
    obtain ⟨m, hm, hcomputed⟩ := h (Segments.whole _) (Segments.stream_whole _)
    rw [messages_of_sent hsent (Segments.stream_whole _), List.map_singleton,
      List.singleton_inj] at hm
    rw [← hcomputed i hi, ← hm, decode_evalRequest workload workloadGen hcount,
      computed_of_request hi workload workloadGen hcount']
  · intro h s hs
    refine ⟨_, messages_of_sent hsent hs, fun i hi => ?_⟩
    dsimp only
    rw [decode_evalRequest workload workloadGen hcount,
      computed_of_request hi workload workloadGen hcount', h ⟨i, hi⟩]

theorem toOption_map {α β : Type} (f : α → β) (x : Except Exn α) :
    x.toOption.map f = (x.map f).toOption := by
  cases x <;> rfl

/-- On the metered governor the charge that was lost shows in the total. -/
theorem wireComplete_of_metered {p : ExecutionPlan}
    (h : (meteredGovernor.evaluate {} {} [wirePlan p]).toOption.map CostDecision.summary =
      (meteredGovernor.evaluate {} {} [p]).toOption.map CostDecision.summary) : p.WireComplete := by
  by_contra hincomplete
  unfold ExecutionPlan.WireComplete at hincomplete
  push Not at hincomplete
  obtain ⟨hrecompute, hlabel, hslo, hamounts⟩ := hincomplete
  have hslo : p.meetsHardSlo = true := by simpa using hslo
  have hremote : (wirePlan p).NoNegative := ⟨hamounts, le_rfl⟩
  obtain ⟨d, hd, hkind⟩ := evaluate_metered {} {} hremote hlabel hslo
  rw [hd] at h
  obtain ⟨d', hd', hsummary⟩ : ∃ d', meteredGovernor.evaluate {} {} [p] = .ok d' ∧
      d'.summary = d.summary := by
    cases hlocal : meteredGovernor.evaluate {} {} [p] with
    | error e =>
        rw [hlocal] at h
        cases h
    | ok d' =>
        rw [hlocal] at h
        exact ⟨d', rfl, (Option.some.inj h).symm⟩
  have hkind' : d'.kind = .authorize := (congrArg DecisionSummary.kind hsummary).trans hkind
  have htotals : d'.projected.total = d.projected.total := congrArg DecisionSummary.total hsummary
  obtain ⟨_, htotal⟩ := total_of_authorize hd hkind
  obtain ⟨hpriced, htotal'⟩ := total_of_authorize hd' hkind'
  have hcharge := recompute_charged hpriced hrecompute
  have hsplit := attemptCost_wirePlan meteredGovernor p
  rw [htotals] at htotal'
  omega

end Agreement

/-- Remote evaluation of plans from a set agrees with local evaluation, in every state
and for every request that fits, exactly when every plan of the set needs no
recomputation or is rejected before one is charged. -/
theorem remote_evaluation_agrees_iff (A : Set ExecutionPlan) :
    (∀ (c : Coordinator) (workload : WorkloadId) (workloadGen : WorkloadGeneration)
        (plans : List ExecutionPlan), plans.length ≤ maxPlans →
        Sendable (.requestEval, evalRequest workload workloadGen plans) → (∀ p ∈ plans, p ∈ A) →
        RemoteAgrees c workload workloadGen plans) ↔
      ∀ p ∈ A, p.WireComplete := by
  constructor
  · intro h p hp
    have hcount : [p].length ≤ maxPlans := by
      rw [List.length_singleton]
      decide
    have hsize := sendable_singleton {} {} p
    have hagrees := h { gov := meteredGovernor } {} {} [p] hcount hsize (by simpa using hp)
    exact wireComplete_of_metered ((remoteAgrees_iff _ {} {} hcount hsize).1 hagrees ⟨0, rfl⟩)
  · intro h c workload workloadGen plans hcount hsize hplans
    refine (remoteAgrees_iff c workload workloadGen hcount hsize).2 (fun _ => ?_)
    rw [toOption_map, toOption_map,
      evaluate_wirePlan c.gov workload workloadGen (fun p hp => h p (hplans p hp))]

def recomputingPlan : ExecutionPlan := { id := ⟨1⟩, recoveryRecomputeNs := 1000000000 }

theorem remote_evaluation_underprices_recomputation :
    (meteredGovernor.evaluate ⟨1⟩ ⟨1⟩ [recomputingPlan]).toOption.map CostDecision.summary =
        some ⟨.authorize, ⟨1⟩, ⟨1⟩, [], .withinBudget, .ok⟩ ∧
      (Session.messages (Segments.whole
        (streamOf [(.requestEval, evalRequest ⟨1⟩ ⟨1⟩ [recomputingPlan])]))).map (fun m =>
          ((({ gov := meteredGovernor } : Coordinator).step (.message 0 m)).sessions 0).computed.map
            CostDecision.summary) = [some ⟨.authorize, ⟨1⟩, ⟨0⟩, [], .withinBudget, .ok⟩] := by
  decide +kernel

end CostGovernor
