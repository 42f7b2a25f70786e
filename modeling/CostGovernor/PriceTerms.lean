import CostGovernor.Evaluation
import CostGovernor.ScanSelection

/-!
# Observations that pass the same tests

The loops of `find_price` and `check_price` look at the kind, the scope, the validity and the
sign of an observation. Schedules that agree in these, observation by observation, offer a
price for the same things and get the same verdict about missing and stale prices, whatever
the prices are and whoever stated them.
-/

namespace CostGovernor

open ScanSelection

/-- The observations differ in the price, which has the same sign, and in who stated it and
when, at most. -/
structure SameTests (o' o : PriceObservation) : Prop where
  same : o' = { o with amount := o'.amount, generation := o'.generation, epoch := o'.epoch,
                       worker := o'.worker, boot := o'.boot }
  sign : o'.amount.negative = o.amount.negative

namespace SameTests

variable {o' o p' p : PriceObservation}

theorem symm (h : SameTests o' o) : SameTests o o' := by
  refine ⟨?_, h.sign.symm⟩
  rw [h.same]

theorem id_eq (h : SameTests o' o) : o'.id = o.id := by
  rw [h.same]

theorem kind_eq (h : SameTests o' o) : o'.kind = o.kind := by
  rw [h.same]

theorem observedAtMs_eq (h : SameTests o' o) : o'.observedAtMs = o.observedAtMs := by
  rw [h.same]

theorem obsApplies_eq (h : SameTests o' o) (want : PriceKind) (currency : ByteString)
    (nowMs : Int64) (dev : DeviceId) (res : ResourceId) (pol : Option CostPolicy) :
    obsApplies o' want currency nowMs dev res pol =
      obsApplies o want currency nowMs dev res pol := by
  have hsign := h.sign
  rw [h.same] at hsign ⊢
  unfold obsApplies
  dsimp only at hsign ⊢
  rw [hsign]
  rfl

theorem passesCheck_eq (h : SameTests o' o) (want : PriceKind) (currency : ByteString)
    (nowMs : Int64) (pol : CostPolicy) (dev : DeviceId) (res : ResourceId) :
    passesCheck want currency nowMs pol dev res o' =
      passesCheck want currency nowMs pol dev res o := by
  have hsign := h.sign
  rw [h.same] at hsign ⊢
  unfold passesCheck
  dsimp only at hsign ⊢
  rw [hsign]
  rfl

theorem moreSpecific_eq (ho : SameTests o' o) (hp : SameTests p' p) :
    moreSpecific o' p' = moreSpecific o p := by
  rw [ho.same, hp.same]
  rfl

end SameTests

section Schedules

variable {R : PriceObservation → PriceObservation → Prop} (hR : ∀ x y, R x y → SameTests x y)
  {s' s : PriceSchedule} (h : List.Forall₂ R s'.observations s.observations)

include hR h

/-- The prices that are found for the same thing are related as their observations are. -/
theorem findPrice_rel (want : PriceKind) (currency : ByteString) (nowMs : Int64) (dev : DeviceId)
    (res : ResourceId) (pol : Option CostPolicy) :
    Option.Rel (fun x y => R x.1 y.1) (findPrice s' want currency nowMs dev res pol)
      (findPrice s want currency nowMs dev res pol) :=
  scan_rel (fun x y hxy => (hR x y hxy).obsApplies_eq want currency nowMs dev res pol)
    (fun x y b c hxy hbc => (hR x y hxy).moreSpecific_eq (hR b c hbc)) h

theorem checkPrice_rel (hcreated : s'.createdAtMs = s.createdAtMs) (want : PriceKind)
    (currency : ByteString) (nowMs : Int64) (pol : CostPolicy) (dev : DeviceId)
    (res : ResourceId) :
    (checkPrice s' want currency nowMs pol dev res).present =
        (checkPrice s want currency nowMs pol dev res).present ∧
      (checkPrice s' want currency nowMs pol dev res).stale =
        (checkPrice s want currency nowMs pol dev res).stale := by
  have hscan := scan_rel
    (fun x y hxy => (hR x y hxy).passesCheck_eq want currency nowMs pol dev res)
    (fun x y b c hxy hbc => (hR x y hxy).moreSpecific_eq (hR b c hbc)) h
  unfold checkPrice
  rw [hcreated]
  generalize scan _ moreSpecific s'.observations = found' at hscan ⊢
  generalize scan _ moreSpecific s.observations = found at hscan ⊢
  cases hscan with
  | none => exact ⟨rfl, rfl⟩
  | some hxy =>
      dsimp only
      rw [(hR _ _ hxy).observedAtMs_eq]
      exact ⟨rfl, rfl⟩

end Schedules

theorem Governor.priceVerdict_rel {g' g : Governor}
    {R : PriceObservation → PriceObservation → Prop} (hR : ∀ x y, R x y → SameTests x y)
    (h : List.Forall₂ R g'.schedule.observations g.schedule.observations)
    (hcreated : g'.schedule.createdAtMs = g.schedule.createdAtMs) (hnow : g'.now = g.now)
    (hpolicy : g'.policy = g.policy) (plan : ExecutionPlan) (cs : List CostComponent) :
    g'.priceVerdict plan cs = g.priceVerdict plan cs := by
  induction cs with
  | nil => rfl
  | cons c cs ih =>
      obtain ⟨hpresent, hstale⟩ := checkPrice_rel hR h hcreated (kindForCheck c)
        g.policy.currency g.now g.policy plan.device plan.resource
      unfold Governor.priceVerdict
      dsimp only
      rw [ih, hnow, hpolicy, hpresent, hstale]

end CostGovernor
