import CostGovernor.Deliveries
import CostGovernor.Interface

/-!
# Quotes and the cost of a request

Through the schedule, the currency and the clock a cost depends on the amounts that
find_price selects, and on nothing else. A finalized entry whose attempts keep their quotes
keeps its cost.
-/

namespace CostGovernor

open Executions ScanSelection

section Quotes

variable {schedule schedule' : PriceSchedule} {currency currency' : ByteString}
  {nowMs nowMs' : Int64}

def Charge.quote (schedule : PriceSchedule) (currency : ByteString) (nowMs : Int64) (u : Charge) :
    Option MoneyMicros :=
  (kindFor u.comp).toOption.bind fun kind =>
    (findPrice schedule kind currency nowMs u.ev.device u.ev.resource none).map
      fun p => p.1.amount

/-- Through the schedule, the currency and the clock a price depends on the quote alone. -/
theorem priced_eq_ok_iff_quote {u : Charge} {m : MoneyMicros} :
    priced schedule currency nowMs u.ev u.comp u.amount = .ok m ↔
      ∃ kind amount denom, kindFor u.comp = .ok kind ∧
        u.quote schedule currency nowMs = some amount ∧ denominatorFor kind = .ok denom ∧
        ceilMulDiv u.amount amount.value denom = .ok m.value := by
  unfold priced
  rw [projectComponent_eq_ok_iff]
  constructor
  · rintro ⟨kind, p, denom, hkind, hp, hdenom, hceil⟩
    rw [kind_of_findPrice hp] at hdenom
    refine ⟨kind, p.1.amount, denom, hkind, ?_, hdenom, hceil⟩
    rw [Charge.quote, hkind]
    exact congrArg (Option.map fun p => p.1.amount) hp
  · rintro ⟨kind, amount, denom, hkind, hquote, hdenom, hceil⟩
    rw [Charge.quote, hkind] at hquote
    obtain ⟨p, hp, rfl⟩ := Option.map_eq_some_iff.mp hquote
    rw [← kind_of_findPrice hp] at hdenom
    exact ⟨kind, p, denom, hkind, hp, hdenom, hceil⟩

theorem Charge.price_congr {u : Charge}
    (h : u.amount ≠ 0 → u.quote schedule' currency' nowMs' = u.quote schedule currency nowMs) :
    u.price schedule' currency' nowMs' = u.price schedule currency nowMs := by
  by_cases hzero : u.amount = 0
  · rw [Charge.price, Charge.price, if_pos hzero, if_pos hzero]
  · ext z
    rw [Charge.price_eq_some_iff hzero, Charge.price_eq_some_iff hzero]
    simp only [priced_eq_ok_iff_quote, h hzero]

/-- The same quotes give a projection with the same total. -/
theorem project_total_congr {attempts : List CostEvidence} {bd : CostBreakdown}
    (hquotes : ∀ ev ∈ attempts, ∀ u ∈ ev.charges, u.amount ≠ 0 →
      u.quote schedule' currency' nowMs' = u.quote schedule currency nowMs)
    (h : project schedule currency nowMs attempts = .ok bd) :
    ∃ bd', project schedule' currency' nowMs' attempts = .ok bd' ∧ bd'.total = bd.total := by
  have hprice : ∀ ev ∈ attempts, ∀ u ∈ ev.charges,
      u.price schedule' currency' nowMs' = u.price schedule currency nowMs :=
    fun ev hev u hu => Charge.price_congr (hquotes ev hev u hu)
  have hcost : attempts.map (attemptCost schedule' currency' nowMs') =
      attempts.map (attemptCost schedule currency nowMs) := by
    refine List.map_congr_left fun ev hev => ?_
    unfold attemptCost chargesTotal
    rw [List.map_congr_left fun u hu => congrArg (Option.getD · 0) (hprice ev hev u hu)]
  obtain ⟨hpriced, htotal⟩ := project_total _ _ _ h
  obtain ⟨bd', hbd'⟩ : ∃ bd', project schedule' currency' nowMs' attempts = .ok bd' := by
    refine exists_project _ _ _ (fun ev hev u hu => ?_) ?_
    · rw [hprice ev hev u hu]
      exact hpriced ev hev u hu
    · rw [hcost, ← htotal]
      exact bd.total.toInt_lt
  refine ⟨bd', hbd', MoneyMicros.toInt_injective ?_⟩
  rw [(project_total _ _ _ hbd').2, hcost, htotal]

end Quotes

namespace Governor

def Realizes (g : Governor) (request : RequestId) (cost : MoneyMicros) : Prop :=
  ∀ workload, (g.finalizeRequest request workload).1 = .ok .ok ∧
    (g.finalizeRequest request workload).2.realizedRequestCost request = .ok cost

structure Frozen (g : Governor) (e : HistoryEntry) : Prop where
  single : g.history.filter (fun h => h.request = e.request) = [e]
  cost : g.realizedRequestCost e.request = .ok e.realizedCost

theorem Frozen.mem {g : Governor} {e : HistoryEntry} (h : g.Frozen e) : e ∈ g.history := by
  have hmem : e ∈ g.history.filter (fun h => h.request = e.request) := by
    rw [h.single]
    exact List.mem_singleton_self e
  exact (List.mem_filter.mp hmem).1

theorem Frozen.realizes {g : Governor} {e : HistoryEntry} (h : g.Frozen e) :
    g.Realizes e.request e.realizedCost := by
  intro workload
  have hdone : g.history.any (fun h => h.request = e.request) = true :=
    List.any_eq_true.mpr ⟨e, h.mem, decide_eq_true rfl⟩
  unfold finalizeRequest
  rw [if_pos hdone]
  exact ⟨rfl, h.cost⟩

/-- A finalization changes nothing, or appends the first entry of the request with the
cost the request has at that moment. -/
theorem finalizeRequest_entry (g : Governor) (request : RequestId) (workload : WorkloadId) :
    (g.finalizeRequest request workload).2 = g ∨ ∃ e : HistoryEntry,
      (g.finalizeRequest request workload).2 = { g with history := g.history ++ [e] } ∧
      e.request = request ∧ (∀ h ∈ g.history, h.request ≠ request) ∧
      g.realizedRequestCost request = .ok e.realizedCost := by
  unfold finalizeRequest realizedRequestCost
  split_ifs with hdone
  · exact .inl rfl
  · have hnew : ∀ h ∈ g.history, h.request ≠ request := by simpa using hdone
    cases g.attempts.find? request with
    | none => exact .inl rfl
    | some req =>
        dsimp only
        cases project g.schedule g.policy.currency g.now req.values with
        | error x => exact .inl rfl
        | ok bd => exact .inr ⟨_, rfl, rfl, hnew, rfl⟩

theorem attemptsOf_congr {g g' : Governor} {request : RequestId}
    (h : g'.attempts.find? request = g.attempts.find? request) :
    g'.attemptsOf request = g.attemptsOf request := by
  unfold attemptsOf
  rw [h]

/-- Only an attempt of the request that is recorded changes its attempts. -/
theorem apply_attemptsOf (g : Governor) {op : Op} {request : RequestId}
    (h : ∀ ev, op = .recordAttempt ev → (g.recordAttempt ev).1 = .ok → ev.request ≠ request) :
    (g.apply op).attemptsOf request = g.attemptsOf request := by
  have heffect := g.exec_evidence op
  generalize g.apply op = g' at heffect ⊢
  refine attemptsOf_congr ?_
  cases heffect with
  | frame _ _ hsame => rw [hsame.attempts]
  | recorded ev hrecordable hgen =>
      have hok := recordAttempt_ok hrecordable hgen
      change (g.attempts.set ev.request _).find? request = _
      rw [HashedMap.find?_set, if_neg (h ev rfl hok).symm]
  | published obs _ => rfl
  | newEpoch => rfl
  | newPolicy p => rfl
  | newSchedule s => rfl
  | newBoot worker boot => rfl

/-- The same attempts and quotes leave a frozen entry frozen. -/
theorem Frozen.step {g g' : Governor} {e : HistoryEntry} (h : g.Frozen e)
    (hsingle : g'.history.filter (fun h => h.request = e.request) =
      g.history.filter (fun h => h.request = e.request))
    (hattempts : g'.attemptsOf e.request = g.attemptsOf e.request)
    (hquotes : ∀ ev ∈ g.attemptsOf e.request, ∀ u ∈ ev.charges, u.amount ≠ 0 →
      u.quote g'.schedule g'.policy.currency g'.now =
        u.quote g.schedule g.policy.currency g.now) : g'.Frozen e := by
  refine ⟨hsingle.trans h.single, ?_⟩
  have hcost := h.cost
  rw [realizedRequestCost_eq] at hcost ⊢
  rw [hattempts]
  cases hproject : project g.schedule g.policy.currency g.now (g.attemptsOf e.request) with
  | error x =>
      rw [hproject] at hcost
      cases hcost
  | ok bd =>
      rw [hproject] at hcost
      obtain ⟨bd', hbd', htotal⟩ := project_total_congr hquotes hproject
      rw [hbd']
      exact (congrArg Except.ok htotal).trans hcost

end Governor

end CostGovernor
