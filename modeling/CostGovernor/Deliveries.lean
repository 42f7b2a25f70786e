import CostGovernor.AttemptCosts
import CostGovernor.EvidenceEffects
import CostGovernor.OnceDelivery

/-!
# Evidence delivered more than once

Attempts are keyed by request and attempt. Evidence that passes the fences is stored
once, a second delivery is rejected as a duplicate, and what a request has cost is
the sum of what its attempts cost.
-/

namespace CostGovernor

open Executions OnceDelivery

namespace Governor

theorem attemptsOf_eq (g : Governor) (request : RequestId) :
    g.attemptsOf request = (g.attemptMap request).values := by
  unfold attemptsOf attemptMap
  cases g.attempts.find? request <;> rfl

theorem mem_attemptsOf_iff (g : Governor) (request : RequestId) (e : CostEvidence) :
    e ∈ g.attemptsOf request ↔ ∃ attempt, g.attemptOf request attempt = some e := by
  rw [attemptsOf_eq, OrderedMap.mem_values_iff]
  rfl

/-- The realized cost is the total of the projection, also for an unknown request. -/
theorem realizedRequestCost_eq (g : Governor) (request : RequestId) :
    g.realizedRequestCost request =
      (project g.schedule g.policy.currency g.now (g.attemptsOf request)).map
        CostBreakdown.total := by
  unfold realizedRequestCost attemptsOf
  cases g.attempts.find? request with
  | none => rfl
  | some req =>
      dsimp only [Option.map_some, Option.getD_some]
      cases project g.schedule g.policy.currency g.now req.values <;> rfl

theorem realizedRequestCost_sum {g : Governor} {request : RequestId} {cost : MoneyMicros}
    (h : g.realizedRequestCost request = .ok cost) :
    ∃ totals : List MoneyMicros,
      List.Forall₂ (fun e total =>
        ∃ bd, project g.schedule g.policy.currency g.now [e] = .ok bd ∧ bd.total = total)
        (g.attemptsOf request) totals ∧
      cost.toInt = (totals.map MoneyMicros.toInt).sum := by
  rw [realizedRequestCost_eq] at h
  cases hproject : project g.schedule g.policy.currency g.now (g.attemptsOf request) with
  | error e =>
      rw [hproject] at h
      cases h
  | ok bd =>
      rw [hproject] at h
      cases h
      exact project_additive _ _ _ hproject

def DiffersInAttempts (g h : Governor) : Prop := ∃ attempts, h = { g with attempts := attempts }

theorem DiffersInAttempts.recordable {g h : Governor} (hh : DiffersInAttempts g h)
    {e : CostEvidence} (he : Recordable g e) : Recordable h e := by
  obtain ⟨attempts, rfl⟩ := hh
  exact ⟨he.epoch, he.boot, he.label, he.nonneg⟩

theorem storesOnce_recordAttempt (g : Governor) (evs : Set CostEvidence)
    (hcurrent : ∀ e ∈ evs, Recordable g e)
    (hkeys : Set.InjOn (fun e : CostEvidence => (e.request, e.attempt)) evs) :
    StoresOnce (DiffersInAttempts g) evs recordAttempt (fun e => (e.request, e.attempt))
      (fun h k => h.attemptOf k.1 k.2) .ok .invalidInput where
  distinct := hkeys
  first h hh e he hfree := by
    dsimp only at hfree
    rw [recordAttempt_of_recordable (hh.recordable (hcurrent e he)), hfree]
    refine ⟨rfl, ?_, fun ⟨request, attempt⟩ => ?_⟩
    · obtain ⟨attempts, rfl⟩ := hh
      exact ⟨_, rfl⟩
    · exact (h.attemptOf_recorded e request attempt).trans (if_congr Prod.mk_inj.symm rfl rfl)
  repeated h hh e he hstored := by
    dsimp only at hstored
    rw [recordAttempt_of_recordable (hh.recordable (hcurrent e he)), hstored]
    exact if_pos rfl

def deliver (g : Governor) (ds : List CostEvidence) : Governor :=
  run (fun g e => (g.recordAttempt e).2) g ds

theorem deliver_differs {g : Governor} (ds : List CostEvidence) :
    DiffersInAttempts g (g.deliver ds) := by
  refine run_preserves (fun h e hh => ?_) ⟨g.attempts, rfl⟩ ds
  obtain ⟨attempts, rfl⟩ := hh
  have hcase := recordAttempt_cases { g with attempts := attempts } e
  generalize recordAttempt { g with attempts := attempts } e = x at hcase ⊢
  cases hcase with
  | refused => exact ⟨attempts, rfl⟩
  | duplicate => exact ⟨attempts, rfl⟩
  | accepted => exact ⟨_, rfl⟩

/-- Every delivered piece is stored as it is and every other key holds what it held. -/
structure Stores (g : Governor) (evs : Set CostEvidence) (h : Governor) : Prop where
  delivered : ∀ e ∈ evs, h.attemptOf e.request e.attempt = some e
  others : ∀ request attempt, (∀ e ∈ evs, (e.request, e.attempt) ≠ (request, attempt)) →
    h.attemptOf request attempt = g.attemptOf request attempt

theorem Stores.mem_attemptsOf_iff {g h : Governor} {evs : Set CostEvidence} (hs : Stores g evs h)
    (hnew : ∀ e ∈ evs, g.attemptOf e.request e.attempt = none) (request : RequestId)
    (e : CostEvidence) :
    e ∈ h.attemptsOf request ↔ e ∈ evs ∧ e.request = request ∨ e ∈ g.attemptsOf request := by
  rw [h.mem_attemptsOf_iff, g.mem_attemptsOf_iff]
  constructor
  · rintro ⟨attempt, hattempt⟩
    by_cases hkey : ∃ d ∈ evs, (d.request, d.attempt) = (request, attempt)
    · obtain ⟨d, hd, hkeys⟩ := hkey
      obtain ⟨rfl, rfl⟩ := Prod.mk.inj hkeys
      obtain rfl : d = e := Option.some.inj ((hs.delivered d hd).symm.trans hattempt)
      exact Or.inl ⟨hd, rfl⟩
    · rw [hs.others request attempt fun d hd hkeys => hkey ⟨d, hd, hkeys⟩] at hattempt
      exact Or.inr ⟨attempt, hattempt⟩
  · rintro (⟨he, rfl⟩ | ⟨attempt, hattempt⟩)
    · exact ⟨e.attempt, hs.delivered e he⟩
    · refine ⟨attempt, (hs.others request attempt fun d hd hkeys => ?_).trans hattempt⟩
      obtain ⟨rfl, rfl⟩ := Prod.mk.inj hkeys
      rw [hnew d hd] at hattempt
      cases hattempt

/-- Governors that hold the same attempts answer alike about requests. -/
theorem DiffersInAttempts.same_requests {g h h' : Governor} (hh : DiffersInAttempts g h)
    (hh' : DiffersInAttempts g h')
    (hsame : ∀ request attempt, h.attemptOf request attempt = h'.attemptOf request attempt)
    (request : RequestId) :
    h.attemptsOf request = h'.attemptsOf request ∧
      h.realizedRequestCost request = h'.realizedRequestCost request := by
  have hattempts : h.attemptsOf request = h'.attemptsOf request := by
    rw [attemptsOf_eq, attemptsOf_eq, OrderedMap.ext_find? (hsame request)]
  refine ⟨hattempts, ?_⟩
  rw [realizedRequestCost_eq, realizedRequestCost_eq, hattempts]
  obtain ⟨_, rfl⟩ := hh
  obtain ⟨_, rfl⟩ := hh'
  rfl

end Governor

open Governor

/-- However current, new evidence under distinct keys is ordered and repeated, each
piece is accepted once and rejected as a duplicate ever after. It is stored as it was
delivered, next to the attempts that were there, and the attempts and the cost of every
request come out the same: the sum over its single attempts. -/
theorem evidence_charged_exactly_once (g : Governor) (evs : Finset CostEvidence)
    (hcurrent : ∀ e ∈ evs, Recordable g e)
    (hkeys : Set.InjOn (fun e : CostEvidence => (e.request, e.attempt)) evs)
    (hnew : ∀ e ∈ evs, g.attemptOf e.request e.attempt = none)
    (ds : List CostEvidence) (hds : ds.toFinset = evs) :
    (∀ e ∈ evs, (ds.zip (outputs recordAttempt g ds)).count (e, .ok) = 1) ∧
    (∀ st ∈ outputs recordAttempt g ds, st = .ok ∨ st = .invalidInput) ∧
    Stores g evs (g.deliver ds) ∧
    ∀ request,
      (∀ e, e ∈ (g.deliver ds).attemptsOf request ↔
        e ∈ evs ∧ e.request = request ∨ e ∈ g.attemptsOf request) ∧
      (∀ ds' : List CostEvidence, ds'.toFinset = evs →
        (g.deliver ds').attemptsOf request = (g.deliver ds).attemptsOf request ∧
        (g.deliver ds').realizedRequestCost request = (g.deliver ds).realizedRequestCost request) ∧
      ∀ cost, (g.deliver ds).realizedRequestCost request = .ok cost →
        ∃ totals : List MoneyMicros,
          List.Forall₂ (fun e total =>
            ∃ bd, project g.schedule g.policy.currency g.now [e] = .ok bd ∧ bd.total = total)
            ((g.deliver ds).attemptsOf request) totals ∧
          cost.toInt = (totals.map MoneyMicros.toInt).sum := by
  have hstores := storesOnce_recordAttempt g evs hcurrent hkeys
  have hclean : Clean (DiffersInAttempts g) evs (fun e => (e.request, e.attempt))
      (fun h k => h.attemptOf k.1 k.2) g := ⟨⟨g.attempts, rfl⟩, fun e he => Or.inl (hnew e he)⟩
  have hmem : ∀ d, d ∈ ds ↔ d ∈ evs := fun d => by rw [← hds, List.mem_toFinset]
  have hin : ∀ d ∈ ds, d ∈ (evs : Set CostEvidence) := fun d hd => (hmem d).1 hd
  have hkept : Stores g evs (g.deliver ds) := by
    obtain ⟨hdelivered, hothers⟩ := hstores.look_run hclean hin
    exact ⟨fun e he => hdelivered e ((hmem e).2 he), fun request attempt hkey =>
      hothers (request, attempt) fun d hd => hkey d (hin d hd)⟩
  refine ⟨fun e he => ?_, fun st hst => ?_, hkept, fun request =>
    ⟨hkept.mem_attemptsOf_iff hnew request, fun ds' hds' => ?_, fun cost hcost => ?_⟩⟩
  · rw [hstores.count_fresh (by decide) hclean hin he, if_pos ⟨(hmem e).2 he, hnew e he⟩]
  · exact hstores.answers hclean hin hst
  · have hmem' : ∀ d, d ∈ ds' ↔ d ∈ ds := fun d => by rw [hmem, ← hds', List.mem_toFinset]
    refine (deliver_differs ds').same_requests (deliver_differs ds) (fun request' attempt => ?_)
      request
    exact (hstores.look_run_congr hclean hin (fun d => (hmem' d).symm) (request', attempt)).symm
  · have hsum := realizedRequestCost_sum hcost
    obtain ⟨attempts, hdelivered⟩ := deliver_differs (g := g) ds
    rw [hdelivered] at hsum ⊢
    exact hsum

def acceleratorPriced : Governor :=
  (fresh 0).setPriceSchedule { observations := [{ kind := .acceleratorTime, amount := ⟨3⟩ }] }

def failedAttempt : CostEvidence :=
  { request := ⟨1⟩, attempt := ⟨1⟩, epoch := acceleratorPriced.epoch, isCompletion := true
    acceleratorTime := 1000000000 }

def completedAttempt : CostEvidence :=
  { failedAttempt with
    attempt := ⟨2⟩, completedSuccessfully := true, acceleratorTime := 2000000000 }

theorem evidence_charged_exactly_once_repeated :
    let evs : Finset CostEvidence := {failedAttempt, completedAttempt}
    let ds := [completedAttempt, failedAttempt, completedAttempt]
    (∀ e ∈ evs, (ds.zip (outputs recordAttempt acceleratorPriced ds)).count (e, .ok) = 1) ∧
      (∀ e, e ∈ (acceleratorPriced.deliver ds).attemptsOf ⟨1⟩ ↔
        e = failedAttempt ∨ e = completedAttempt) ∧
      (acceleratorPriced.deliver [failedAttempt, completedAttempt]).attemptsOf ⟨1⟩ =
        (acceleratorPriced.deliver ds).attemptsOf ⟨1⟩ ∧
      (acceleratorPriced.deliver ds).realizedRequestCost ⟨1⟩ = .ok ⟨9⟩ := by
  intro evs ds
  have hcurrent : ∀ e ∈ evs, Recordable acceleratorPriced e := by
    intro e he
    have hcases : e = failedAttempt ∨ e = completedAttempt := by simpa [evs] using he
    rcases hcases with rfl | rfl <;> exact ⟨rfl, rfl, by decide, by decide⟩
  have hkeys : ∀ e ∈ evs, ∀ e' ∈ evs, (e.request, e.attempt) = (e'.request, e'.attempt) →
      e = e' := by decide
  obtain ⟨honce, -, -, hrequest⟩ := evidence_charged_exactly_once acceleratorPriced evs hcurrent
    (fun e he e' he' => hkeys e he e' he') (by decide) ds (by decide)
  obtain ⟨hstored, hsame, -⟩ := hrequest ⟨1⟩
  have hcost : (acceleratorPriced.deliver ds).realizedRequestCost ⟨1⟩ = .ok ⟨9⟩ := by rfl
  refine ⟨honce, fun e => ?_, (hsame _ (by decide)).1, hcost⟩
  rw [hstored e]
  constructor
  · rintro (⟨he, -⟩ | hold)
    · simpa [evs] using he
    · exact absurd hold List.not_mem_nil
  · rintro (rfl | rfl)
    · exact Or.inl ⟨by simp [evs], rfl⟩
    · exact Or.inl ⟨by simp [evs], rfl⟩

end CostGovernor
