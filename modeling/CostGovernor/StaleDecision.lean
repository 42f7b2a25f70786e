import CostGovernor.EvidenceEffects
import CostGovernor.PlanSelection

/-!
# Decisions that have gone stale

A decision carries the epoch and the price generation it was made under. An
accepted publication moves the generation on and `advance_epoch` the epoch; no
other call but a new policy, a new schedule or a load touches either. Until one of
the two counters wraps around, a decision from before is refused.
-/

namespace CostGovernor

open Executions RankOrder

def Op.replacesAuthority : Op → Bool
  | .setPolicy _ => true
  | .setPriceSchedule _ => true
  | _ => false

def Op.advancesEpoch : Op → Bool
  | .advanceEpoch => true
  | _ => false

namespace Governor

def publishes (g : Governor) : Op → Bool
  | .publishPrice obs => (g.publishPrice obs).1 = .ok
  | _ => false

section Counters

variable (g : Governor) {op : Op}

theorem apply_epoch (h : op.replacesAuthority = false) :
    (g.apply op).epoch = if op.advancesEpoch then g.epoch.succ else g.epoch := by
  by_cases hadv : op.advancesEpoch = true
  · rw [if_pos hadv]
    cases op with
    | advanceEpoch => rfl
    | _ => cases hadv
  · rw [if_neg hadv]
    have heffect := g.exec_evidence op
    generalize g.apply op = g' at heffect ⊢
    cases heffect with
    | frame _ _ hsame => exact hsame.epoch
    | newPolicy p => cases h
    | newEpoch => exact absurd rfl hadv
    | _ => rfl

theorem apply_generation (h : op.replacesAuthority = false) :
    (g.apply op).schedule.generation =
      if g.publishes op then g.schedule.generation.succ else g.schedule.generation := by
  by_cases hpub : g.publishes op = true
  · rw [if_pos hpub]
    cases op with
    | publishPrice obs =>
        have hok : Publishable g obs := (g.publishPrice_ok_iff obs).1 (of_decide_eq_true hpub)
        simp only [apply, exec, publishPrice_of_publishable hok]
        rfl
    | _ => cases hpub
  · rw [if_neg hpub]
    have heffect := g.exec_evidence op
    generalize g.apply op = g' at heffect ⊢
    cases heffect with
    | frame _ _ hsame => rw [hsame.schedule]
    | published obs hok => exact absurd (decide_eq_true ((g.publishPrice_ok_iff obs).2 hok)) hpub
    | newSchedule s => cases h
    | _ => rfl

end Counters

section Runs

variable (g : Governor) {ops : List Op}

theorem run_epoch (h : ∀ op ∈ ops, op.replacesAuthority = false) :
    (run Governor.apply g ops).epoch.value.toNat =
      (g.epoch.value.toNat + countAlong Governor.apply (fun _ op => op.advancesEpoch) g ops) %
        2 ^ 64 := by
  refine run_counter (v := fun g => g.epoch.value.toNat) (fun g => g.epoch.value.toNat_lt) ?_ g
  intro g' op hop
  rw [g'.apply_epoch (h op hop)]
  cases op.advancesEpoch with
  | true => exact Id.succ_toNat _
  | false => exact (Nat.mod_eq_of_lt g'.epoch.value.toNat_lt).symm

theorem run_generation (h : ∀ op ∈ ops, op.replacesAuthority = false) :
    (run Governor.apply g ops).schedule.generation.value.toNat =
      (g.schedule.generation.value.toNat + countAlong Governor.apply publishes g ops) %
        2 ^ 64 := by
  refine run_counter (v := fun g => g.schedule.generation.value.toNat)
    (fun g => g.schedule.generation.value.toNat_lt) ?_ g
  intro g' op hop
  rw [g'.apply_generation (h op hop)]
  cases g'.publishes op with
  | true => exact Id.succ_toNat _
  | false => exact (Nat.mod_eq_of_lt g'.schedule.generation.value.toNat_lt).symm

end Runs

/-- The generations an AUTHORIZE decision carries are the current ones. -/
theorem evaluate_authority {g : Governor} {workload : WorkloadId} {workloadGen : WorkloadGeneration}
    {plans : List ExecutionPlan} {d : CostDecision}
    (h : g.evaluate workload workloadGen plans = .ok d) (hkind : d.kind = .authorize) :
    d.authority.epoch = g.epoch ∧ d.authority.policyGeneration = g.policy.generation ∧
      d.authority.priceGeneration = g.schedule.generation := by
  obtain ⟨candidates, best, rest, _, _, hd⟩ := authorized_of_evaluate h hkind
  rw [authorizeDecision_authority hd]
  exact ⟨rfl, rfl, rfl⟩

/-- An outdated epoch or price generation is enough for a refusal. -/
theorem validateForDispatch_stale {g : Governor} {d : CostDecision} (hkind : d.kind = .authorize)
    (hstale : d.authority.epoch ≠ g.epoch ∨ d.authority.priceGeneration ≠ g.schedule.generation)
    (plans : List ExecutionPlan) : g.validateForDispatch d plans = .ok .staleAuthority := by
  unfold validateForDispatch
  rw [if_neg (not_not.2 hkind)]
  by_cases hepoch : d.authority.epoch ≠ g.epoch
  · rw [if_pos hepoch]
  · rw [if_neg hepoch]
    by_cases hpolicy : d.authority.policyGeneration ≠ g.policy.generation
    · rw [if_pos hpolicy]
    · rw [if_neg hpolicy, if_pos (hstale.resolve_left hepoch)]

end Governor

open Governor

/-- Once a price has been published or the epoch advanced, an earlier decision is
refused in every later state, whatever the candidates. -/
theorem stale_decision_never_revived (g : Governor) (workload : WorkloadId)
    (workloadGen : WorkloadGeneration) (plans : List ExecutionPlan) (d : CostDecision)
    (hd : g.evaluate workload workloadGen plans = .ok d) (hkind : d.kind = .authorize)
    (ops : List Op) (hops : ∀ op ∈ ops, op.replacesAuthority = false)
    (hsome : 0 < countAlong Governor.apply publishes g ops ∨
      0 < countAlong Governor.apply (fun _ op => op.advancesEpoch) g ops)
    (hpublications : countAlong Governor.apply publishes g ops < 2 ^ 64)
    (hadvances : countAlong Governor.apply (fun _ op => op.advancesEpoch) g ops < 2 ^ 64)
    (candidates : List ExecutionPlan) :
    (run Governor.apply g ops).validateForDispatch d candidates = .ok .staleAuthority := by
  obtain ⟨hepoch, _, hgeneration⟩ := evaluate_authority hd hkind
  refine validateForDispatch_stale hkind ?_ candidates
  rw [hepoch, hgeneration]
  rcases hsome with hpos | hpos
  · right
    intro hsame
    refine add_mod_ne g.schedule.generation.value.toNat_lt hpos hpublications ?_
    rw [← g.run_generation hops, ← hsame]
  · left
    intro hsame
    refine add_mod_ne g.epoch.value.toNat_lt hpos hadvances ?_
    rw [← g.run_epoch hops, ← hsame]

def freePlan : ExecutionPlan := { id := ⟨1⟩ }

theorem stale_decision_never_revived_freePlan :
    ∃ d, (fresh 0).evaluate ⟨1⟩ ⟨1⟩ [freePlan] = .ok d ∧ d.kind = .authorize ∧
      (run Governor.apply (fresh 0)
        [.advanceEpoch, .setWorkerBoot ⟨1⟩ ⟨2⟩]).validateForDispatch d [freePlan] =
          .ok .staleAuthority := by
  refine ⟨_, rfl, rfl, ?_⟩
  exact stale_decision_never_revived (fresh 0) ⟨1⟩ ⟨1⟩ [freePlan] _ rfl rfl _ (by decide)
    (Or.inr (by decide)) (by decide) (by decide) [freePlan]

end CostGovernor
