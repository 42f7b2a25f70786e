import CostGovernor.CheckedArithmetic
import CostGovernor.Evaluation
import CostGovernor.PricedAmounts

/-!
# What a FEASIBLE verdict has been through

The feasibility chain of one plan has a dozen exits and only the last one reports
FEASIBLE. `FeasibleVerdict` lists what has been established on the way there; the
lemmas open up its loops over components and budgets and its projection.
-/

namespace CostGovernor

open Executions

def expectedAmount (p : ExecutionPlan) : CostComponent → Int64
  | .acceleratorTime => p.expectedAcceleratorTime
  | .energy => p.expectedEnergy
  | .transfer => p.expectedTransfer
  | .memory => p.expectedMemoryHold
  | .residency => p.expectedResidencyHold
  | .storage => p.expectedStorage
  | _ => 0

theorem amountPresent_iff (p : ExecutionPlan) (c : CostComponent) :
    amountPresent p c = true ↔ expectedAmount p c ≠ 0 := by
  cases c <;> simp [amountPresent, expectedAmount]

theorem usages_planToEvidence (p : ExecutionPlan) :
    (planToEvidence p).usages = checkedComponents.map (fun c => (c, expectedAmount p c)) := rfl

theorem mem_usages_planToEvidence (p : ExecutionPlan) {c : CostComponent}
    (hc : c ∈ checkedComponents) : (c, expectedAmount p c) ∈ (planToEvidence p).usages := by
  rw [usages_planToEvidence]
  exact List.mem_map.2 ⟨c, hc, rfl⟩

theorem kindFor_of_checked {c : CostComponent} (h : c ∈ checkedComponents) :
    kindFor c = .ok (kindForCheck c) := by
  cases c <;> first | rfl | exact absurd h (by decide)

section Projection

variable {schedule : PriceSchedule} {currency : ByteString} {nowMs : Int64} {ev : CostEvidence}

theorem priced_of_chargeUsage {target comp : CostComponent} {amount : Int64}
    {bd bd' : CostBreakdown}
    (h : chargeUsage schedule currency nowMs ev target comp amount bd = .ok bd')
    (hne : amount ≠ 0) : ∃ m, priced schedule currency nowMs ev comp amount = .ok m := by
  unfold chargeUsage at h
  rw [if_neg hne, bind_eq_ok_iff] at h
  obtain ⟨m, hm, _⟩ := h
  exact ⟨m, hm⟩

/-- A charged attempt has had every nonzero amount priced, recomputation included. -/
theorem priced_of_chargeAttempt {bd bd' : CostBreakdown}
    (h : chargeAttempt schedule currency nowMs bd ev = .ok bd') :
    (∀ u ∈ ev.usages, u.2 ≠ 0 → ∃ m, priced schedule currency nowMs ev u.1 u.2 = .ok m) ∧
      (ev.recomputeNs ≠ 0 →
        ∃ m, priced schedule currency nowMs ev .acceleratorTime ev.recomputeNs = .ok m) := by
  unfold chargeAttempt at h
  obtain ⟨bd₁, husages, hrecompute⟩ := bind_eq_ok_iff.1 h
  refine ⟨?_, priced_of_chargeUsage hrecompute⟩
  intro u hu hne
  obtain ⟨t, t', ht⟩ := runChecked_mem husages hu
  exact priced_of_chargeUsage ht hne

theorem chargeAttempt_of_project {bd : CostBreakdown}
    (h : project schedule currency nowMs [ev] = .ok bd) :
    ∃ bd', chargeAttempt schedule currency nowMs { currency := currency } ev = .ok bd' := by
  unfold project at h
  obtain ⟨bd₁, hcharge, _⟩ := bind_eq_ok_iff.1 h
  obtain ⟨bd₂, hbd₂, _⟩ := runChecked_cons_eq_ok.1 hcharge
  exact ⟨bd₂, hbd₂⟩

/-- A priced amount is not negative and has a price under the component's kind. -/
theorem findPrice_of_priced {c : CostComponent} (hc : c ∈ checkedComponents) {amount : Int64}
    {m : MoneyMicros} (h : priced schedule currency nowMs ev c amount = .ok m) :
    0 ≤ amount ∧ ∃ p, findPrice schedule (kindForCheck c) currency nowMs ev.device ev.resource none =
      some p := by
  obtain ⟨kind, p, denom, hkind, hp, _, hceil⟩ := projectComponent_eq_ok_iff.1 h
  rw [kindFor_of_checked hc] at hkind
  cases hkind
  exact ⟨Int64.le_iff_toInt_le.2 (ceilMulDiv_signs hceil).1, p, hp⟩

theorem project_anyUnknown {attempts : List CostEvidence} {bd : CostBreakdown}
    (h : project schedule currency nowMs attempts = .ok bd) :
    bd.anyUnknown = attempts.any (fun ev => ev.label = .unsupported) := by
  unfold project at h
  obtain ⟨_, _, h⟩ := bind_eq_ok_iff.1 h
  obtain ⟨_, _, h⟩ := bind_eq_ok_iff.1 h
  obtain ⟨_, _, h⟩ := bind_eq_ok_iff.1 h
  rw [← Except.ok.inj h]

end Projection

/-- The unit prices of a decision never throw. -/
theorem exists_perUnit (total : MoneyMicros) (expected : Int64) :
    ∃ m, Governor.perUnit total expected = .ok m := by
  unfold Governor.perUnit
  split_ifs with hpos
  · obtain ⟨m, hm, _⟩ := total.exists_checkedDiv_ceil (Int64.lt_iff_toInt_lt.mp hpos)
    exact ⟨m, hm⟩
  · exact ⟨_, rfl⟩

namespace Governor

/-- The observation the projection charges a component at. -/
def chargedPrice (g : Governor) (plan : ExecutionPlan) (c : CostComponent) : Option PricePointer :=
  findPrice g.schedule (kindForCheck c) g.policy.currency g.now plan.device plan.resource none

/-- The price of an amount of a plan is computed from the charged observation. -/
theorem priced_planToEvidence_iff (g : Governor) (plan : ExecutionPlan) {c : CostComponent}
    (hc : c ∈ checkedComponents) {amount : Int64} {m : MoneyMicros} :
    priced g.schedule g.policy.currency g.now (planToEvidence plan) c amount = .ok m ↔
      ∃ p denom, g.chargedPrice plan c = some p ∧ denominatorFor p.1.kind = .ok denom ∧
        ceilMulDiv amount p.1.amount.value denom = .ok m.value := by
  unfold priced
  rw [projectComponent_eq_ok_iff]
  constructor
  · rintro ⟨kind, p, denom, hkind, hp, hprice⟩
    rw [kindFor_of_checked hc] at hkind
    cases hkind
    exact ⟨p, denom, hp, hprice⟩
  · rintro ⟨p, denom, hp, hprice⟩
    exact ⟨kindForCheck c, p, denom, kindFor_of_checked hc, hp, hprice⟩

def priceCheck (g : Governor) (plan : ExecutionPlan) (c : CostComponent) : PriceCheck :=
  checkPrice g.schedule (kindForCheck c) g.policy.currency g.now g.policy plan.device plan.resource

theorem priceVerdict_cons (g : Governor) (plan : ExecutionPlan) (c : CostComponent)
    (cs : List CostComponent) :
    g.priceVerdict plan (c :: cs) =
      if !amountPresent plan c then g.priceVerdict plan cs
      else if !(g.priceCheck plan c).present then some (.insufficientEvidence, .missingPrice)
      else if (g.priceCheck plan c).stale then some (.revalidationRequired, .stalePrice)
      else g.priceVerdict plan cs := rfl

theorem priceVerdict_not_feasible {g : Governor} {plan : ExecutionPlan} {cs : List CostComponent}
    {v : Feasibility × FeasibilityReason} (h : g.priceVerdict plan cs = some v) :
    v.1 ≠ .feasible := by
  induction cs with
  | nil => cases h
  | cons c cs ih =>
      rw [priceVerdict_cons] at h
      split_ifs at h
      · exact ih h
      · rw [← Option.some.inj h]
        simp
      · rw [← Option.some.inj h]
        simp
      · exact ih h

theorem priceVerdict_eq_none_iff (g : Governor) (plan : ExecutionPlan) (cs : List CostComponent) :
    g.priceVerdict plan cs = none ↔ ∀ c ∈ cs, expectedAmount plan c ≠ 0 →
      (g.priceCheck plan c).present = true ∧ (g.priceCheck plan c).stale = false := by
  induction cs with
  | nil => simp [priceVerdict]
  | cons c cs ih =>
      rw [List.forall_mem_cons, ← ih, ← amountPresent_iff, priceVerdict_cons]
      cases amountPresent plan c <;> cases (g.priceCheck plan c).present <;>
        cases (g.priceCheck plan c).stale <;> simp

theorem firstExceeded_eq_none_iff (total : MoneyMicros) (bs : List Budget) :
    firstExceeded total bs = .ok none ↔
      ∀ b ∈ bs, b.mode = .hard → ∃ remaining, b.remaining = .ok remaining ∧ total ≤ remaining := by
  induction bs with
  | nil => simp [firstExceeded]
  | cons b bs ih =>
      rw [List.forall_mem_cons, ← ih, firstExceeded]
      by_cases hard : b.mode = .hard
      · rw [if_neg (not_not.2 hard), bind_eq_ok_iff]
        constructor
        · intro h
          obtain ⟨remaining, hrem, hrest⟩ := h
          split_ifs at hrest with hlt
          · cases hrest
          · exact ⟨fun _ => ⟨remaining, hrem, not_lt.1 hlt⟩, hrest⟩
        · intro h
          obtain ⟨remaining, hrem, hle⟩ := h.1 hard
          exact ⟨remaining, hrem, by rw [if_neg (not_lt.2 hle)]; exact h.2⟩
      · rw [if_pos hard]
        simp [hard]

/-- Everything that holds when a plan is reported FEASIBLE. -/
structure FeasibleVerdict (g : Governor) (plan : ExecutionPlan) (econ : PlanEconomics) : Prop where
  supported : plan.label ≠ .unsupported
  meetsSlo : plan.meetsHardSlo = true
  revalidated : g.revalidationNeeded = false
  prices : g.priceVerdict plan checkedComponents = none
  projection : project g.schedule g.policy.currency g.now [planToEvidence plan] =
    .ok econ.projected
  budgets : firstExceeded econ.projected.total g.budgets.values = .ok none

theorem judgeProjection_feasible {g : Governor} {plan : ExecutionPlan} {bd : CostBreakdown}
    {econ : PlanEconomics} (h : g.judgeProjection plan bd = .ok econ)
    (hf : econ.feasible = .feasible) :
    econ.projected = bd ∧ firstExceeded bd.total g.budgets.values = .ok none := by
  unfold judgeProjection at h
  split_ifs at h with hunknown
  · rw [← Except.ok.inj h] at hf
    cases hf
  · obtain ⟨perRequest, _, h₁⟩ := bind_eq_ok_iff.1 h
    obtain ⟨perToken, _, h₂⟩ := bind_eq_ok_iff.1 h₁
    obtain ⟨exceeded, hex, h₃⟩ := bind_eq_ok_iff.1 h₂
    cases exceeded with
    | some b =>
        rw [← Except.ok.inj h₃] at hf
        cases hf
    | none => exact ⟨by rw [← Except.ok.inj h₃], hex⟩

theorem feasibleVerdict {g : Governor} {plan : ExecutionPlan} {econ : PlanEconomics}
    (h : g.evaluatePlan plan = .ok econ) (hf : econ.feasible = .feasible) :
    FeasibleVerdict g plan econ := by
  unfold evaluatePlan evaluatePlanLocked at h
  split_ifs at h with hlabel hslo hreval
  · rw [← Except.ok.inj h] at hf
    cases hf
  · rw [← Except.ok.inj h] at hf
    cases hf
  · rw [← Except.ok.inj h] at hf
    cases hf
  · cases hv : g.priceVerdict plan checkedComponents with
    | some v =>
        rw [hv] at h
        rw [← Except.ok.inj h] at hf
        exact absurd hf (priceVerdict_not_feasible hv)
    | none =>
        rw [hv] at h
        cases hp : project g.schedule g.policy.currency g.now [planToEvidence plan] with
        | error e =>
            rw [hp] at h
            dsimp only at h
            split at h
            · rw [← Except.ok.inj h] at hf
              cases hf
            · cases h
            · next hok => cases hok
        | ok bd =>
            rw [hp] at h
            obtain ⟨hbd, hex⟩ := judgeProjection_feasible h hf
            exact ⟨hlabel, by simpa using hslo, by simpa using hreval, hv, hbd ▸ hp, hbd ▸ hex⟩

end Governor

end CostGovernor
