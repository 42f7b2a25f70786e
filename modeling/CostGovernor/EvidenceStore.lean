import CostGovernor.EvidenceEffects
import CostGovernor.Executions

/-!
# What stored evidence is replaced by

Observations are stored under an identity their publisher chooses, attempts under
their request and attempt. Neither store compares generations beyond equality, and
the observations do not compare workers. A late message therefore replaces newer
evidence, and one worker's price replaces another's.
-/

namespace CostGovernor

open Executions

namespace Governor

section Positions

variable (obs : PriceObservation)

/-- Every position keeps its observation, or held the one that is replaced. -/
theorem getElem?_storeObservation {os : List PriceObservation} {i : ℕ} {o : PriceObservation}
    (h : os[i]? = some o) :
    (storeObservation obs os)[i]? = some o ∨ os.find? (fun o => o.id = obs.id) = some o := by
  induction os generalizing i with
  | nil => cases h
  | cons p os ih =>
      rw [storeObservation_cons]
      by_cases hp : p.id = obs.id
      · rw [if_pos hp]
        cases i with
        | zero => exact Or.inr (by simpa [hp] using h)
        | succ i => exact Or.inl h
      · rw [if_neg hp]
        cases i with
        | zero => exact Or.inl h
        | succ i => simpa [hp] using ih h

/-- The first observation with the identity is replaced where it stands. -/
theorem exists_replaced_position {os : List PriceObservation} {old : PriceObservation}
    (h : os.find? (fun o => o.id = obs.id) = some old) :
    ∃ i : ℕ, os[i]? = some old ∧ (storeObservation obs os)[i]? = some obs := by
  induction os with
  | nil => cases h
  | cons p os ih =>
      rw [storeObservation_cons]
      by_cases hp : p.id = obs.id
      · rw [if_pos hp]
        exact ⟨0, by simpa [hp] using h, rfl⟩
      · obtain ⟨i, hi, hstored⟩ := ih (by simpa [hp] using h)
        rw [if_neg hp]
        exact ⟨i + 1, hi, hstored⟩

end Positions

def KeepsOtherWorkers (g : Governor) (obs : PriceObservation) : Prop :=
  ∀ (i : ℕ) (o : PriceObservation), g.schedule.observations[i]? = some o →
    o.worker ≠ obs.worker → (g.publishPrice obs).2.schedule.observations[i]? = some o

/-- An accepted publication under an identity that is another worker's. -/
def TakesOver (g : Governor) (obs : PriceObservation) : Prop :=
  Publishable g obs ∧ ∃ old, g.schedule.observations.find? (fun o => o.id = obs.id) = some old ∧
    old.worker ≠ obs.worker

end Governor

open Governor

/-- A publication leaves the prices of other workers alone unless it is accepted
under an identity whose observation is another worker's. -/
theorem publication_keeps_other_workers_iff (g : Governor) (obs : PriceObservation) :
    g.KeepsOtherWorkers obs ↔ ¬ g.TakesOver obs := by
  constructor
  · rintro hkeeps ⟨hpub, old, hold, hworker⟩
    obtain ⟨i, hi, hstored⟩ := exists_replaced_position obs hold
    have hkept := hkeeps i old hi hworker
    rw [publishPrice_of_publishable hpub] at hkept
    have heq : obs = old := Option.some.inj (hstored.symm.trans hkept)
    exact hworker (by rw [heq])
  · intro hno i o hi hworker
    have hcase := g.publishPrice_cases obs
    generalize g.publishPrice obs = x at hcase ⊢
    cases hcase with
    | refused => exact hi
    | accepted hpub =>
        rcases getElem?_storeObservation obs hi with hkept | hfirst
        · exact hkept
        · exact absurd ⟨hpub, o, hfirst, hworker⟩ hno

def ownedPrice : PriceObservation := { id := ⟨7⟩, epoch := ⟨1⟩, worker := ⟨1⟩, amount := ⟨5⟩ }

theorem publication_replaces_other_workers_price :
    let g := run Governor.apply (fresh 0) [.publishPrice ownedPrice]
    g.schedule.observations = [ownedPrice] ∧
      (g.publishPrice { ownedPrice with worker := ⟨2⟩, amount := ⟨9⟩ }).1 = .ok ∧
      (g.publishPrice { ownedPrice with worker := ⟨2⟩, amount := ⟨9⟩ }).2.schedule.observations =
        [{ ownedPrice with worker := ⟨2⟩, amount := ⟨9⟩ }] :=
  ⟨rfl, rfl, rfl⟩

def Op.setsSchedule : Op → Bool
  | .setPriceSchedule _ => true
  | _ => false

namespace Governor

def observationUnder (g : Governor) (id : EvidenceId) : Option PriceObservation :=
  g.schedule.observations.find? (fun o => o.id = id)

/-- No stored generation is lower than before, and nothing stored is lost. -/
structure Forward (g g' : Governor) : Prop where
  attempts : ∀ request attempt old, g.attemptOf request attempt = some old →
    ∃ new, g'.attemptOf request attempt = some new ∧ old.attemptGen ≤ new.attemptGen
  observations : ∀ id old, g.observationUnder id = some old →
    ∃ new, g'.observationUnder id = some new ∧ old.generation ≤ new.generation

/-- The call carries a lower generation than the evidence it would replace. -/
def Late (g : Governor) : Op → Prop
  | .recordAttempt e =>
    ∃ old, g.attemptOf e.request e.attempt = some old ∧ e.attemptGen < old.attemptGen
  | .publishPrice obs => ∃ old, g.observationUnder obs.id = some old ∧ obs.generation < old.generation
  | _ => False

def Fenced (g : Governor) : Op → Prop
  | .recordAttempt e => ¬ Recordable g e
  | .publishPrice obs => ¬ Publishable g obs
  | _ => True

/-- Generations do not go backwards, and a late call is rejected without effect. -/
structure KeepsGenerations (g : Governor) (op : Op) : Prop where
  forward : Forward g (g.apply op)
  rejects : Late g op → (g.exec op).1.returnedOk = false ∧ g.apply op = g

theorem Forward.of_unchanged {g g' : Governor} (hattempts : g'.attempts = g.attempts)
    (hschedule : g'.schedule = g.schedule) : Forward g g' := by
  constructor
  · intro request attempt old hold
    refine ⟨old, ?_, le_refl _⟩
    rw [attemptOf, attemptMap, hattempts]
    exact hold
  · intro id old hold
    refine ⟨old, ?_, le_refl _⟩
    rw [observationUnder, hschedule]
    exact hold

theorem observationUnder_published (g : Governor) (obs : PriceObservation) (id : EvidenceId) :
    (g.published obs).observationUnder id =
      if obs.id = id then some obs else g.observationUnder id :=
  find?_storeObservation obs g.schedule.observations id

theorem Forward.published {g : Governor} {obs : PriceObservation}
    (h : ¬ Late g (.publishPrice obs)) : Forward g (g.published obs) := by
  refine ⟨fun request attempt old hold => ⟨old, hold, le_refl _⟩, ?_⟩
  intro id old hold
  rw [observationUnder_published]
  by_cases hid : obs.id = id
  · rw [if_pos hid]
    refine ⟨obs, rfl, not_lt.1 (fun hlt => h ⟨old, ?_, hlt⟩)⟩
    rw [hid]
    exact hold
  · rw [if_neg hid]
    exact ⟨old, hold, le_refl _⟩

theorem Forward.recorded {g : Governor} {e : CostEvidence} (h : ¬ Late g (.recordAttempt e)) :
    Forward g (g.recorded e) := by
  refine ⟨?_, fun id old hold => ⟨old, hold, le_refl _⟩⟩
  intro request attempt old hold
  rw [attemptOf_recorded]
  by_cases hkey : request = e.request ∧ attempt = e.attempt
  · rw [if_pos hkey]
    refine ⟨e, rfl, not_lt.1 (fun hlt => h ⟨old, ?_, hlt⟩)⟩
    rw [← hkey.1, ← hkey.2]
    exact hold
  · rw [if_neg hkey]
    exact ⟨old, hold, le_refl _⟩

theorem publishPrice_of_not_publishable {g : Governor} {obs : PriceObservation}
    (h : ¬ Publishable g obs) : ∃ st, st ≠ .ok ∧ g.publishPrice obs = (st, g) := by
  have hcase := g.publishPrice_cases obs
  generalize g.publishPrice obs = x at hcase ⊢
  cases hcase with
  | refused st hst => exact ⟨st, hst, rfl⟩
  | accepted hpub => exact absurd hpub h

theorem recordAttempt_of_not_recordable {g : Governor} {e : CostEvidence}
    (h : ¬ Recordable g e) : ∃ st, st ≠ .ok ∧ g.recordAttempt e = (st, g) := by
  have hcase := g.recordAttempt_cases e
  generalize g.recordAttempt e = x at hcase ⊢
  cases hcase with
  | refused st hst => exact ⟨st, hst, rfl⟩
  | duplicate old hrec => exact absurd hrec h
  | accepted hrec => exact absurd hrec h

theorem rejected_of_fenced {g : Governor} {op : Op} (hlate : Late g op) (h : Fenced g op) :
    (g.exec op).1.returnedOk = false ∧ g.apply op = g := by
  cases op with
  | publishPrice obs =>
      obtain ⟨st, hst, heq⟩ := publishPrice_of_not_publishable h
      simp only [apply, exec, heq]
      exact ⟨Reply.returnedOk_status hst, trivial⟩
  | recordAttempt e =>
      obtain ⟨st, hst, heq⟩ := recordAttempt_of_not_recordable h
      simp only [apply, exec, heq]
      exact ⟨Reply.returnedOk_status hst, trivial⟩
  | _ => exact hlate.elim

theorem forward_of_fenced {g : Governor} {op : Op} (hop : op.setsSchedule = false)
    (h : Late g op → Fenced g op) : Forward g (g.apply op) := by
  have heffect := g.exec_evidence op
  generalize g.apply op = g' at heffect ⊢
  cases heffect with
  | frame _ _ hsame => exact .of_unchanged hsame.attempts hsame.schedule
  | published obs hpub => exact .published (fun hlate => h hlate hpub)
  | recorded e hrec _ => exact .recorded (fun hlate => h hlate hrec)
  | newEpoch => exact .of_unchanged rfl rfl
  | newPolicy p => exact .of_unchanged rfl rfl
  | newSchedule s => cases hop
  | newBoot worker boot => exact .of_unchanged rfl rfl

theorem keepsGenerations_iff {g : Governor} {op : Op} (hop : op.setsSchedule = false) :
    KeepsGenerations g op ↔ (Late g op → Fenced g op) := by
  constructor
  · intro h hlate
    have hrejected := (h.rejects hlate).1
    cases op with
    | publishPrice obs =>
        intro hpub
        simp only [exec, publishPrice_of_publishable hpub] at hrejected
        cases hrejected
    | recordAttempt e =>
        intro hrec
        obtain ⟨old, hold, hlt⟩ := hlate
        simp only [exec, recordAttempt_of_recordable hrec, hold, if_neg (ne_of_gt hlt)] at hrejected
        cases hrejected
    | _ => exact hlate.elim
  · exact fun h => ⟨forward_of_fenced hop h, fun hlate => rejected_of_fenced hlate (h hlate)⟩

end Governor

/-- Generations never go backwards in a run exactly when every late call of it is
stopped by a fence other than its generation. -/
theorem generations_never_decrease_iff (g : Governor) (ops : List Op)
    (hops : ∀ op ∈ ops, op.setsSchedule = false) :
    Along Governor.apply KeepsGenerations g ops ↔
      Along Governor.apply (fun g op => g.Late op → g.Fenced op) g ops :=
  along_congr (fun _ op hop => keepsGenerations_iff (hops op hop)) g

def lateEvidence : List Op :=
  [.publishPrice { id := ⟨7⟩, epoch := ⟨1⟩, generation := ⟨5⟩ },
    .recordAttempt { request := ⟨1⟩, attempt := ⟨1⟩, attemptGen := ⟨5⟩, epoch := ⟨1⟩ },
    .publishPrice { id := ⟨7⟩, epoch := ⟨1⟩, generation := ⟨3⟩ },
    .recordAttempt { request := ⟨1⟩, attempt := ⟨1⟩, attemptGen := ⟨3⟩, epoch := ⟨1⟩ }]

def lateFromOtherEpoch : Op :=
  .publishPrice { id := ⟨7⟩, epoch := ⟨2⟩, generation := ⟨3⟩ }

theorem generations_never_decrease_iff_lateEvidence :
    (run Governor.apply (fresh 0) (lateEvidence.take 2)).Late lateFromOtherEpoch ∧
      Along Governor.apply KeepsGenerations (fresh 0)
        (lateEvidence.take 2 ++ [lateFromOtherEpoch]) := by
  refine ⟨⟨_, rfl, by decide⟩, (generations_never_decrease_iff _ _ (by decide)).2 ?_⟩
  refine ⟨?_, ?_, fun _ hpublishable => ?_, trivial⟩
  · rintro ⟨old, hold, -⟩
    cases hold
  · rintro ⟨old, hold, -⟩
    cases hold
  · exact absurd hpublishable.epoch (by decide)

theorem late_evidence_replaces_newer :
    let before := run Governor.apply (fresh 0) (lateEvidence.take 2)
    let after := run Governor.apply (fresh 0) lateEvidence
    (before.observationUnder ⟨7⟩).map PriceObservation.generation = some ⟨5⟩ ∧
      (after.observationUnder ⟨7⟩).map PriceObservation.generation = some ⟨3⟩ ∧
      (before.attemptOf ⟨1⟩ ⟨1⟩).map CostEvidence.attemptGen = some ⟨5⟩ ∧
      (after.attemptOf ⟨1⟩ ⟨1⟩).map CostEvidence.attemptGen = some ⟨3⟩ :=
  ⟨rfl, rfl, rfl, rfl⟩

end CostGovernor
