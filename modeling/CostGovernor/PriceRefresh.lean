import CostGovernor.EvidenceEffects
import CostGovernor.Freshness
import CostGovernor.Interface

/-!
# Prices after a recovery

`load` and `advance_epoch` raise one flag for the whole schedule, and the first
accepted publication lowers it for every observation. Beside the state of a run
we record which observations arrived since the last recovery; prices from before it
stay in use unless each accepted publication finds all others refreshed.
-/

namespace CostGovernor

open Executions

def Process.recovers (p : Process) : Call → Bool
  | .write .advanceEpoch => true
  | .load => decide ((p.gov.load p.file).1 = .ok .ok)
  | _ => false

def Governor.supplies (g : Governor) : Call → List PriceObservation
  | .write (.publishPrice obs) => if (g.publishPrice obs).1 = .ok then [obs] else []
  | .write (.setPriceSchedule s) => s.observations
  | _ => []

/-- A run of calls together with what was supplied since the last recovery; `none`
as long as there was no recovery. -/
structure Recovery where
  process : Process
  supplied : Option (List PriceObservation) := none

namespace Recovery

def step (r : Recovery) (c : Call) : Recovery where
  process := r.process.step c
  supplied :=
    if r.process.recovers c then some []
    else r.supplied.map (· ++ r.process.gov.supplies c)

/-- Every FEASIBLE plan is priced by observations supplied since the last recovery. -/
def PricedBySupplied (r : Recovery) : Prop :=
  ∀ os, r.supplied = some os → ∀ plan econ, r.process.gov.evaluatePlan plan = .ok econ →
    econ.feasible = .feasible → ∀ p, r.process.gov.Contributes plan p → p.1 ∈ os

/-- An accepted publication finds every observation it does not replace supplied
since the last recovery. -/
def OthersRefreshed (r : Recovery) (c : Call) : Prop :=
  ∀ os obs, r.supplied = some os → c = .write (.publishPrice obs) →
    Governor.Publishable r.process.gov obs →
    ∀ o ∈ r.process.gov.schedule.observations.eraseP (fun o => o.id = obs.id), o ∈ os

/-- Once the flag is down, the whole schedule has been supplied. -/
def Refreshed (r : Recovery) : Prop :=
  ∀ os, r.supplied = some os → r.process.gov.revalidationNeeded = false →
    ∀ o ∈ r.process.gov.schedule.observations, o ∈ os

end Recovery

theorem Governor.mem_observations_of_contributes {g : Governor} {plan : ExecutionPlan}
    {p : PricePointer} (h : g.Contributes plan p) : p.1 ∈ g.schedule.observations := by
  have hmem : ∀ c, g.chargedPrice plan c = some p → p.1 ∈ g.schedule.observations := by
    intro c hc
    exact (ScanSelection.scan_eq_some_kept (o := p.1) (i := p.2) hc).2
  rcases h with ⟨c, _, _, hc⟩ | ⟨_, hc⟩
  · exact hmem c hc
  · exact hmem _ hc

theorem Process.recovers_flag {p : Process} {c : Call} (h : p.recovers c = true) :
    (p.step c).gov.revalidationNeeded = true := by
  cases c with
  | load =>
      have hok : (p.gov.load p.file).1 = .ok .ok := of_decide_eq_true h
      have hcase := p.gov.load_cases p.file
      change (p.gov.load p.file).2.revalidationNeeded = true
      generalize p.gov.load p.file = x at hok hcase ⊢
      cases hcase with
      | refused st hst => exact absurd hok hst
      | restored => rfl
  | write op =>
      cases op with
      | advanceEpoch => rfl
      | _ => cases h
  | _ => cases h

namespace Recovery

theorem refreshed_write {r : Recovery} {op : Op} (h : r.Refreshed)
    (hothers : r.OthersRefreshed (.write op)) {os : List PriceObservation}
    (hos : r.supplied = some os) (hflag : (r.process.gov.apply op).revalidationNeeded = false) :
    ∀ o ∈ (r.process.gov.apply op).schedule.observations,
      o ∈ os ++ r.process.gov.supplies (.write op) := by
  intro o ho
  have heffect := r.process.gov.exec_evidence op
  generalize r.process.gov.apply op = g' at heffect hflag ho
  cases heffect with
  | frame op g' hsame =>
      rw [hsame.schedule] at ho
      rw [hsame.revalidationNeeded] at hflag
      exact List.mem_append_left _ (h os hos hflag o ho)
  | published obs hpub =>
      rcases (Governor.mem_storeObservation_iff obs _ o).1 ho with rfl | hkept
      · have hok := (r.process.gov.publishPrice_ok_iff o).2 hpub
        simp [Governor.supplies, hok]
      · exact List.mem_append_left _ (hothers os obs hos rfl hpub o hkept)
  | recorded => exact List.mem_append_left _ (h os hos hflag o ho)
  | newEpoch => cases hflag
  | newPolicy => cases hflag
  | newSchedule s => exact List.mem_append_right _ ho
  | newBoot => exact List.mem_append_left _ (h os hos hflag o ho)

theorem Refreshed.step {r : Recovery} {c : Call} (h : r.Refreshed) (hothers : r.OthersRefreshed c) :
    (r.step c).Refreshed := by
  intro os hos hflag
  change (r.process.step c).gov.revalidationNeeded = false at hflag
  cases hrecovers : r.process.recovers c with
  | true =>
      rw [Process.recovers_flag hrecovers] at hflag
      cases hflag
  | false =>
      rw [Recovery.step, hrecovers] at hos
      obtain ⟨os₀, hos₀, rfl⟩ := Option.map_eq_some_iff.1 hos
      change ∀ o ∈ (r.process.step c).gov.schedule.observations, _
      cases c with
      | write op => exact refreshed_write h hothers hos₀ hflag
      | load =>
          have hcase := r.process.gov.load_cases r.process.file
          have hno : (r.process.gov.load r.process.file).1 ≠ .ok .ok := of_decide_eq_false hrecovers
          change (r.process.gov.load r.process.file).2.revalidationNeeded = false at hflag
          change ∀ o ∈ (r.process.gov.load r.process.file).2.schedule.observations, _
          generalize r.process.gov.load r.process.file = x at hcase hno hflag ⊢
          cases hcase with
          | refused => exact fun o ho => List.mem_append_left _ (h os₀ hos₀ hflag o ho)
          | restored => exact absurd rfl hno
      | _ => exact fun o ho => List.mem_append_left _ (h os₀ hos₀ hflag o ho)

theorem Refreshed.pricedBySupplied {r : Recovery} (h : r.Refreshed) : r.PricedBySupplied := by
  intro os hos plan econ hplan hfeasible p hp
  have hflag := (Governor.feasibleVerdict hplan hfeasible).revalidated
  exact h os hos hflag p.1 (Governor.mem_observations_of_contributes hp)

end Recovery

open Recovery

/-- In every run in which each accepted publication after a recovery finds all other
observations refreshed, no recovered price is used before it is supplied again. -/
theorem recovered_prices_unused_until_supplied (p : Process) (calls : List Call)
    (h : Along Recovery.step OthersRefreshed { process := p } calls) :
    (run Recovery.step { process := p } calls).PricedBySupplied := by
  have hstart : Refreshed { process := p } := fun os hos => nomatch hos
  exact (run_invariant (I := Refreshed) (fun _ _ hr hc => hr.step hc) hstart h).pricedBySupplied

def recoveredPrice : PriceObservation := { id := ⟨1⟩, epoch := ⟨1⟩, amount := ⟨7⟩ }

def acceleratorPlan : ExecutionPlan := { id := ⟨1⟩, expectedAcceleratorTime := 1000000000 }

/-- A run that recovers from `recoveredPrice` and is then given one observation. -/
def recoveredThen (obs : PriceObservation) : List Call :=
  [.write (.setPriceSchedule { observations := [recoveredPrice] }), .write .advanceEpoch,
    .write (.publishPrice obs)]

def afterRecovery (obs : PriceObservation) : Recovery :=
  run Recovery.step { process := { gov := .fresh 0 } } (recoveredThen obs)

def resuppliedPrice : PriceObservation := { recoveredPrice with epoch := ⟨2⟩, amount := ⟨9⟩ }

def unrelatedPrice : PriceObservation :=
  { id := ⟨2⟩, kind := .energy, epoch := ⟨2⟩, amount := ⟨3⟩ }

theorem recovered_prices_unused_until_supplied_resupplied :
    (afterRecovery resuppliedPrice).PricedBySupplied ∧
      (afterRecovery resuppliedPrice).supplied = some [resuppliedPrice] ∧
      ∃ econ, (afterRecovery resuppliedPrice).process.gov.evaluatePlan acceleratorPlan = .ok econ ∧
        econ.feasible = .feasible := by
  refine ⟨recovered_prices_unused_until_supplied _ _ ⟨?_, ?_, ?_, trivial⟩, rfl, _, rfl, rfl⟩
  · exact fun os obs hos => nomatch hos
  · exact fun os obs hos => nomatch hos
  · rintro os obs _ hobs _ o ho
    cases hobs
    cases ho

theorem recovered_price_used_after_unrelated_publication :
    ¬ (afterRecovery unrelatedPrice).PricedBySupplied ∧
      (afterRecovery unrelatedPrice).supplied = some [unrelatedPrice] ∧
      ∃ econ, (afterRecovery unrelatedPrice).process.gov.evaluatePlan acceleratorPlan = .ok econ ∧
        econ.feasible = .feasible ∧ econ.projected.total = ⟨7⟩ ∧
        (afterRecovery unrelatedPrice).process.gov.Contributes acceleratorPlan
          (recoveredPrice, 0) := by
  have hused : (afterRecovery unrelatedPrice).process.gov.Contributes acceleratorPlan
      (recoveredPrice, 0) := Or.inl ⟨.acceleratorTime, by decide, by decide, rfl⟩
  refine ⟨fun h => ?_, rfl, _, rfl, rfl, rfl, hused⟩
  exact absurd (h _ rfl acceleratorPlan _ rfl rfl _ hused) (by decide)

end CostGovernor
