import CostGovernor.Governor

/-!
# What arrives as evidence and what it changes

`publish_price` and `record_attempt` either pass their fences and store what they
were given, or reject it and leave the governor as it was. `finalize_request` only
adds to the history, and the intervention calls only write interventions.
-/

namespace CostGovernor

namespace Governor

structure Publishable (g : Governor) (obs : PriceObservation) : Prop where
  epoch : obs.epoch = g.epoch
  boot : obs.boot.valid = true → obs.boot = g.currentBootFor obs.worker
  currency : obs.currency = g.policy.currency
  nonneg : 0 ≤ obs.amount.toInt

/-- The observations after one is published: it takes the place of the first one
with its identity, or is appended. -/
def storeObservation (obs : PriceObservation) (os : List PriceObservation) :
    List PriceObservation :=
  (replaceObservation obs os).getD (os ++ [obs])

def published (g : Governor) (obs : PriceObservation) : Governor :=
  { g with
    schedule := { g.schedule with
      observations := storeObservation obs g.schedule.observations
      generation := g.schedule.generation.succ }
    revalidationNeeded := false }

theorem publishPrice_of_publishable {g : Governor} {obs : PriceObservation}
    (h : Publishable g obs) : g.publishPrice obs = (.ok, g.published obs) := by
  have hneg := (MoneyMicros.negative_eq_false_iff obs.amount).2 h.nonneg
  have hcurrency : obs.validCurrency g.policy.currency = true := decide_eq_true h.currency
  unfold publishPrice
  rw [if_neg (not_not.2 h.epoch), if_neg (fun hboot => hboot.2 (h.boot hboot.1)), hcurrency, hneg]
  rfl

inductive PublishCase (g : Governor) (obs : PriceObservation) : Status × Governor → Prop
  | refused (st : Status) (hst : st ≠ .ok) (hno : ¬ Publishable g obs) : PublishCase g obs (st, g)
  | accepted (h : Publishable g obs) : PublishCase g obs (.ok, g.published obs)

theorem publishPrice_cases (g : Governor) (obs : PriceObservation) :
    PublishCase g obs (g.publishPrice obs) := by
  by_cases h : Publishable g obs
  · rw [publishPrice_of_publishable h]
    exact .accepted h
  · unfold publishPrice
    split_ifs with hepoch hboot hcurrency hneg
    · exact .refused _ (by simp) h
    · exact .refused _ (by simp) h
    · exact .refused _ (by simp) h
    · exact .refused _ (by simp) h
    · refine absurd ⟨not_not.1 hepoch, ?_, ?_, ?_⟩ h
      · exact fun hvalid => not_not.1 (fun hne => hboot ⟨hvalid, hne⟩)
      · simpa [PriceObservation.validCurrency] using hcurrency
      · exact (MoneyMicros.negative_eq_false_iff _).1 (by simpa using hneg)

theorem publishPrice_ok_iff (g : Governor) (obs : PriceObservation) :
    (g.publishPrice obs).1 = .ok ↔ Publishable g obs := by
  have h := g.publishPrice_cases obs
  generalize g.publishPrice obs = x at h ⊢
  cases h with
  | refused st hst hno => exact ⟨fun hok => absurd hok hst, fun hpub => absurd hpub hno⟩
  | accepted hpub => exact ⟨fun _ => hpub, fun _ => rfl⟩

section StoreObservation

variable (obs : PriceObservation)

theorem storeObservation_nil : storeObservation obs [] = [obs] := rfl

theorem storeObservation_cons (o : PriceObservation) (os : List PriceObservation) :
    storeObservation obs (o :: os) =
      if o.id = obs.id then obs :: os else o :: storeObservation obs os := by
  unfold storeObservation
  rw [replaceObservation]
  split_ifs with hid
  · rfl
  · cases replaceObservation obs os <;> rfl

theorem mem_storeObservation_self (os : List PriceObservation) : obs ∈ storeObservation obs os := by
  induction os with
  | nil => simp [storeObservation_nil]
  | cons o os ih =>
      rw [storeObservation_cons]
      split_ifs with hid
      · simp
      · simp [ih]

/-- Only the first observation with the published identity leaves the list. -/
theorem mem_storeObservation_iff (os : List PriceObservation) (o : PriceObservation) :
    o ∈ storeObservation obs os ↔ o = obs ∨ o ∈ os.eraseP (fun o => o.id = obs.id) := by
  induction os with
  | nil => simp [storeObservation_nil]
  | cons p os ih =>
      rw [storeObservation_cons, List.eraseP_cons]
      by_cases hid : p.id = obs.id
      · simp [hid]
      · simp only [hid, if_false, decide_false, Bool.cond_false, List.mem_cons, ih]
        tauto

/-- The first observation under each identity after one is published. -/
theorem find?_storeObservation (os : List PriceObservation) (id : EvidenceId) :
    (storeObservation obs os).find? (fun o => o.id = id) =
      if obs.id = id then some obs else os.find? (fun o => o.id = id) := by
  induction os with
  | nil =>
      rw [storeObservation_nil, List.find?_cons]
      by_cases hid : obs.id = id <;> simp [hid]
  | cons p os ih =>
      rw [storeObservation_cons]
      by_cases hp : p.id = obs.id
      · rw [if_pos hp, List.find?_cons, List.find?_cons, hp]
        by_cases hid : obs.id = id <;> simp [hid]
      · rw [if_neg hp, List.find?_cons, List.find?_cons, ih]
        by_cases hpid : p.id = id
        · have hne : ¬ obs.id = id := fun h => hp (hpid.trans h.symm)
          simp [hpid, hne]
        · simp [hpid]

end StoreObservation

structure Recordable (g : Governor) (e : CostEvidence) : Prop where
  epoch : e.epoch = g.epoch
  boot : e.boot = g.currentBootFor e.worker
  label : e.label ≠ .unsupported
  nonneg : anyNegative e = false

def attemptMap (g : Governor) (request : RequestId) : OrderedMap AttemptId CostEvidence :=
  (g.attempts.find? request).getD .empty

def attemptOf (g : Governor) (request : RequestId) (attempt : AttemptId) : Option CostEvidence :=
  (g.attemptMap request).find? attempt

def recorded (g : Governor) (e : CostEvidence) : Governor :=
  { g with attempts := g.attempts.set e.request ((g.attemptMap e.request).set e.attempt e) }

theorem attemptOf_recorded (g : Governor) (e : CostEvidence) (request : RequestId)
    (attempt : AttemptId) :
    (g.recorded e).attemptOf request attempt =
      if request = e.request ∧ attempt = e.attempt then some e else g.attemptOf request attempt := by
  unfold recorded attemptOf attemptMap
  rw [HashedMap.find?_set]
  by_cases hr : request = e.request
  · rw [if_pos hr, hr]
    by_cases ha : attempt = e.attempt <;> simp [ha]
  · rw [if_neg hr, if_neg (fun h => hr h.1)]

/-- The request of a stored attempt is in the map, so looking it up creates nothing. -/
theorem emplace_of_attemptOf {g : Governor} {request : RequestId} {attempt : AttemptId}
    {old : CostEvidence} (h : g.attemptOf request attempt = some old) :
    g.attempts.emplace request .empty = g.attempts := by
  unfold attemptOf attemptMap at h
  cases hfound : g.attempts.find? request with
  | none =>
      rw [hfound] at h
      cases h
  | some m => rw [HashedMap.emplace, hfound]

inductive RecordCase (g : Governor) (e : CostEvidence) : Status × Governor → Prop
  | refused (st : Status) (hst : st ≠ .ok) (hno : ¬ Recordable g e) : RecordCase g e (st, g)
  | duplicate (old : CostEvidence) (h : Recordable g e)
      (hold : g.attemptOf e.request e.attempt = some old) (hgen : old.attemptGen = e.attemptGen) :
      RecordCase g e (.invalidInput, g)
  | accepted (h : Recordable g e)
      (hgen : ∀ old, g.attemptOf e.request e.attempt = some old → old.attemptGen ≠ e.attemptGen) :
      RecordCase g e (.ok, g.recorded e)

/-- Past the fences the outcome depends on the stored attempt only. -/
theorem recordAttempt_of_recordable {g : Governor} {e : CostEvidence} (h : Recordable g e) :
    g.recordAttempt e =
      match g.attemptOf e.request e.attempt with
      | some old => if old.attemptGen = e.attemptGen then (.invalidInput, g) else (.ok, g.recorded e)
      | none => (.ok, g.recorded e) := by
  unfold recordAttempt
  rw [if_neg (not_not.2 h.epoch), if_neg (not_not.2 h.boot), if_neg h.label,
    if_neg (Bool.eq_false_iff.1 h.nonneg)]
  dsimp only
  change (match g.attemptOf e.request e.attempt with | some old => _ | none => _) = _
  cases hold : g.attemptOf e.request e.attempt with
  | none => rfl
  | some old =>
      dsimp only
      rw [emplace_of_attemptOf hold]
      rfl

theorem recordAttempt_ok {g : Governor} {e : CostEvidence} (h : Recordable g e)
    (hgen : ∀ old, g.attemptOf e.request e.attempt = some old → old.attemptGen ≠ e.attemptGen) :
    (g.recordAttempt e).1 = .ok := by
  rw [recordAttempt_of_recordable h]
  cases hold : g.attemptOf e.request e.attempt with
  | none => rfl
  | some old => exact congrArg Prod.fst (if_neg (hgen old hold))

theorem recordAttempt_cases (g : Governor) (e : CostEvidence) :
    RecordCase g e (g.recordAttempt e) := by
  by_cases h : Recordable g e
  · rw [recordAttempt_of_recordable h]
    cases hold : g.attemptOf e.request e.attempt with
    | none =>
        refine .accepted h (fun old hsome => ?_)
        rw [hold] at hsome
        cases hsome
    | some old =>
        dsimp only
        split_ifs with hgen
        · exact .duplicate old h hold hgen
        · refine .accepted h (fun old' hsome => ?_)
          rw [hold] at hsome
          exact Option.some.inj hsome ▸ hgen
  · unfold recordAttempt
    split_ifs with hepoch hboot hlabel hneg
    · exact .refused _ (by simp) h
    · exact .refused _ (by simp) h
    · exact .refused _ (by simp) h
    · exact .refused _ (by simp) h
    · exact absurd ⟨not_not.1 hepoch, not_not.1 hboot, hlabel, Bool.eq_false_iff.2 hneg⟩ h

inductive FinalizeCase (g : Governor) (request : RequestId) : Except Exn Status × Governor → Prop
  | done (h : HistoryEntry) (hmem : h ∈ g.history) (hrequest : h.request = request) :
      FinalizeCase g request (.ok .ok, g)
  | refused (result : Except Exn Status) (hresult : result ≠ .ok .ok) :
      FinalizeCase g request (result, g)
  | appended (h : HistoryEntry) (hrequest : h.request = request) :
      FinalizeCase g request (.ok .ok, { g with history := g.history ++ [h] })

theorem finalizeRequest_cases (g : Governor) (request : RequestId) (workload : WorkloadId) :
    FinalizeCase g request (g.finalizeRequest request workload) := by
  unfold finalizeRequest
  split_ifs with hdone
  · obtain ⟨h, hmem, hrequest⟩ := List.any_eq_true.1 hdone
    exact .done h hmem (of_decide_eq_true hrequest)
  · cases g.attempts.find? request with
    | none => exact .refused _ (by simp)
    | some req =>
        dsimp only
        cases project g.schedule g.policy.currency g.now req.values with
        | error e => exact .refused _ (by simp)
        | ok bd => exact .appended _ rfl

/-- A call on a stored intervention leaves the state alone or moves that intervention
on in its lifecycle. -/
inductive AdvanceCase (g : Governor) (id : InterventionId) : Governor → Prop
  | refused : AdvanceCase g id g
  | advanced (i i' : CostIntervention) (hfound : g.interventions.find? id = some i)
      (hid : i'.id = i.id) :
      AdvanceCase g id { g with interventions := g.interventions.set id i' }

theorem AdvanceCase.writes {g g' : Governor} {id : InterventionId} (h : AdvanceCase g id g') :
    ∃ is, g' = { g with interventions := is } := by
  cases h with
  | refused => exact ⟨g.interventions, rfl⟩
  | advanced i i' _ _ => exact ⟨_, rfl⟩

theorem authorizeIntervention_cases (g : Governor) (id : InterventionId)
    (gen : InterventionGeneration) : AdvanceCase g id (g.authorizeIntervention id gen).2 := by
  unfold authorizeIntervention
  cases hfound : g.interventions.find? id with
  | none => exact .refused
  | some i =>
      dsimp only
      split_ifs
      · exact .refused
      · exact .refused
      · exact .advanced i _ hfound rfl

theorem acknowledgeIntervention_cases (g : Governor) (id : InterventionId)
    (gen : InterventionGeneration) : AdvanceCase g id (g.acknowledgeIntervention id gen).2 := by
  unfold acknowledgeIntervention
  cases hfound : g.interventions.find? id with
  | none => exact .refused
  | some i =>
      dsimp only
      split_ifs
      · exact .refused
      · exact .refused
      · exact .advanced i _ hfound rfl

theorem verifyIntervention_cases (g : Governor) (id : InterventionId)
    (gen : InterventionGeneration) (post : List CostEvidence) :
    AdvanceCase g id (g.verifyIntervention id gen post).2 := by
  unfold verifyIntervention
  cases hfound : g.interventions.find? id with
  | none => exact .refused
  | some i =>
      dsimp only
      split_ifs
      · exact .refused
      · exact .refused
      · exact .refused
      · exact .advanced i _ hfound rfl

end Governor

end CostGovernor
