import CostGovernor.WorkerBoots

/-!
# Workers do not see each other's restarts

Each call that looks at the boot map looks up the one worker it is about. Two governors
that differ in the boot of one worker therefore answer alike to every call about the
others.
-/

namespace CostGovernor

open Executions RankOrder

/-- The call is about a price, an attempt, a plan, a decision or the boot of `w`. -/
def Call.concerns (w : WorkerId) : Call → Prop
  | .write (.publishPrice obs) => obs.worker = w
  | .write (.recordAttempt e) => e.worker = w
  | .write (.setWorkerBoot worker _) => worker = w
  | .evaluatePlan plan => plan.worker = w
  | .evaluate _ _ plans => ∃ plan ∈ plans, plan.worker = w
  | .validateForDispatch prior _ => prior.authority.worker = w
  | .workerBoot worker => worker = w
  | _ => False

namespace Governor

/-- The two governors differ at most in the boot of `w`. -/
def DiffersAt (w : WorkerId) (g g' : Governor) : Prop :=
  ∃ m, g' = g.withBoots m ∧ ∀ v, v ≠ w → m.find? v = g.workerBoots.find? v

theorem DiffersAt.withBoots {w : WorkerId} {g h : Governor}
    {m : OrderedMap WorkerId WorkerBootId} (hboots : h.workerBoots = g.workerBoots)
    (hothers : ∀ v, v ≠ w → m.find? v = g.workerBoots.find? v) : DiffersAt w h (h.withBoots m) :=
  ⟨m, rfl, fun v hv => by rw [hothers v hv, hboots]⟩

theorem currentBootFor_withBoots {m : OrderedMap WorkerId WorkerBootId} {g : Governor}
    {v : WorkerId} (h : m.find? v = g.workerBoots.find? v) :
    (g.withBoots m).currentBootFor v = g.currentBootFor v := by
  unfold currentBootFor
  rw [← h]
  rfl

theorem apply_workerBoots (g : Governor) {op : Op}
    (h : ∀ worker boot, op ≠ .setWorkerBoot worker boot) :
    (g.exec op).2.workerBoots = g.workerBoots := by
  have heffect := g.exec_evidence op
  change (g.apply op).workerBoots = _
  generalize g.apply op = g' at heffect ⊢
  cases heffect with
  | frame _ _ hsame => exact hsame.workerBoots
  | newBoot worker boot => exact absurd rfl (h worker boot)
  | _ => rfl

/-- A call that is not about `w` gives the same reply and keeps the difference. -/
theorem DiffersAt.exec {w : WorkerId} {g g' : Governor} (hdiff : DiffersAt w g g') {op : Op}
    (hop : ¬ (Call.write op).concerns w) :
    (g.exec op).1 = (g'.exec op).1 ∧ DiffersAt w (g.exec op).2 (g'.exec op).2 := by
  obtain ⟨m, rfl, hothers⟩ := hdiff
  have hboot : ∀ v, v ≠ w → (g.withBoots m).currentBootFor v = g.currentBootFor v :=
    fun v hv => currentBootFor_withBoots (hothers v hv)
  by_cases hset : ∃ worker boot, op = .setWorkerBoot worker boot
  · obtain ⟨worker, boot, rfl⟩ := hset
    refine ⟨rfl, m.set worker boot, rfl, ?_⟩
    intro v hv
    change (m.set worker boot).find? v = (g.workerBoots.set worker boot).find? v
    rw [OrderedMap.find?_set, OrderedMap.find?_set, hothers v hv]
  · have hnotset : ∀ worker boot, op ≠ .setWorkerBoot worker boot :=
      fun worker boot h => hset ⟨worker, boot, h⟩
    have hexec : (g.withBoots m).exec op = Prod.map id (Governor.withBoots m) (g.exec op) := by
      cases op with
      | publishPrice obs =>
          simp only [Governor.exec, publishPrice_withBoots (hboot obs.worker hop)]
          rfl
      | recordAttempt e =>
          simp only [Governor.exec, recordAttempt_withBoots (hboot e.worker hop)]
          rfl
      | setWorkerBoot worker boot => exact absurd rfl (hnotset worker boot)
      | _ => exact exec_withBoots m g (by simp) (by simp) hnotset
    rw [hexec]
    exact ⟨rfl, .withBoots (g.apply_workerBoots hnotset) hothers⟩

theorem load_withBoots (m : OrderedMap WorkerId WorkerBootId) (g : Governor)
    (file : Option ByteString) :
    (g.withBoots m).load file = Prod.map id (Governor.withBoots m) (g.load file) := by
  unfold load
  change (if (!g.store) = true then _ else _) = _
  cases g.store with
  | false => rfl
  | true =>
      cases file with
      | none => rfl
      | some bytes =>
          dsimp only
          cases SnapshotCodec.decode bytes with
          | error e => rfl
          | ok snap => rfl

theorem load_workerBoots (g : Governor) (file : Option ByteString) :
    (g.load file).2.workerBoots = g.workerBoots := by
  have hcase := g.load_cases file
  generalize g.load file = x at hcase ⊢
  cases hcase <;> rfl

end Governor

namespace Process

/-- The same state file, and governors that differ at most in the boot of `w`. -/
def DiffersAt (w : WorkerId) (p p' : Process) : Prop :=
  p.gov.DiffersAt w p'.gov ∧ p.file = p'.file

theorem DiffersAt.exec {w : WorkerId} {p p' : Process} (hdiff : p.DiffersAt w p') {c : Call}
    (hc : ¬ c.concerns w) :
    (p.exec c).1 = (p'.exec c).1 ∧ (p.exec c).2.DiffersAt w (p'.exec c).2 := by
  obtain ⟨g, file⟩ := p
  obtain ⟨g', file'⟩ := p'
  obtain ⟨hgov, rfl⟩ := hdiff
  cases c with
  | write op =>
      obtain ⟨hreply, hnext⟩ := hgov.exec hc
      exact ⟨congrArg Answer.reply hreply, hnext, rfl⟩
  | load =>
      obtain ⟨m, rfl, hothers⟩ := hgov
      simp only [Process.exec, Governor.load_withBoots]
      exact ⟨rfl, .withBoots (g.load_workerBoots file) hothers, rfl⟩
  | evaluatePlan plan =>
      obtain ⟨m, rfl, hothers⟩ := hgov
      refine ⟨congrArg Answer.economics ?_, ⟨m, rfl, hothers⟩, rfl⟩
      exact (Governor.evaluatePlan_withBoots m g plan).symm
  | evaluate workload workloadGen plans =>
      obtain ⟨m, rfl, hothers⟩ := hgov
      refine ⟨congrArg Answer.decision ?_, ⟨m, rfl, hothers⟩, rfl⟩
      refine (Governor.evaluate_withBoots m g workload workloadGen ?_).symm
      intro plan hplan
      exact Governor.currentBootFor_withBoots (hothers _ (fun hw => hc ⟨plan, hplan, hw⟩))
  | validateForDispatch prior plans =>
      obtain ⟨m, rfl, hothers⟩ := hgov
      refine ⟨congrArg Answer.status ?_, ⟨m, rfl, hothers⟩, rfl⟩
      exact (Governor.validateForDispatch_withBoots m g
        (Governor.currentBootFor_withBoots (hothers _ hc)) plans).symm
  | workerBoot worker =>
      obtain ⟨m, rfl, hothers⟩ := hgov
      refine ⟨congrArg Answer.boot ?_, ⟨m, rfl, hothers⟩, rfl⟩
      exact (Governor.currentBootFor_withBoots (hothers _ hc)).symm
  | _ =>
      -- what these calls read and save holds no boots
      obtain ⟨m, rfl, hothers⟩ := hgov
      exact ⟨rfl, ⟨m, rfl, hothers⟩, rfl⟩

end Process

/-- What comes after a restart of `w` and is not about `w` answers alike whatever boot
`w` restarted with; and `w` itself is held to its current boot. -/
theorem worker_restart_does_not_interfere (w : WorkerId) :
    (∀ (p : Process) (b₁ b₂ : WorkerBootId) (calls : List Call), (∀ c ∈ calls, ¬ c.concerns w) →
      let p₁ := p.step (.write (.setWorkerBoot w b₁))
      let p₂ := p.step (.write (.setWorkerBoot w b₂))
      outputs Process.exec p₁ calls = outputs Process.exec p₂ calls ∧
        (run Process.step p₁ calls).DiffersAt w (run Process.step p₂ calls)) ∧
    ∀ g : Governor,
      (∀ obs : PriceObservation, obs.worker = w → obs.boot.valid = true →
        obs.boot ≠ g.currentBootFor w → g.publishPrice obs = (.staleAuthority, g)) ∧
      (∀ e : CostEvidence, e.worker = w → e.boot.valid = true →
        e.boot ≠ g.currentBootFor w → g.recordAttempt e = (.staleAuthority, g)) := by
  constructor
  · intro p b₁ b₂ calls hcalls
    refine outputs_eq_of_related (R := Process.DiffersAt w) ?_ ⟨⟨_, rfl, ?_⟩, rfl⟩
    · exact fun _ _ c hc hdiff => hdiff.exec (hcalls c hc)
    · intro v hv
      change (p.gov.workerBoots.set w b₂).find? v = (p.gov.workerBoots.set w b₁).find? v
      rw [OrderedMap.find?_set, OrderedMap.find?_set, if_neg hv, if_neg hv]
  · refine fun g => ⟨?_, ?_⟩
    · rintro obs rfl hvalid hboot
      unfold Governor.publishPrice
      by_cases hepoch : obs.epoch = g.epoch
      · rw [if_neg (not_not.2 hepoch), if_pos ⟨hvalid, hboot⟩]
      · rw [if_pos hepoch]
    · rintro e rfl hvalid hboot
      unfold Governor.recordAttempt
      by_cases hepoch : e.epoch = g.epoch
      · rw [if_neg (not_not.2 hepoch), if_pos hboot]
      · rw [if_pos hepoch]

theorem worker_restart_does_not_interfere_second_worker :
    let calls : List Call := [.write (.publishPrice { worker := ⟨2⟩, epoch := ⟨1⟩ }),
      .workerBoot ⟨2⟩, .priceSchedule]
    let restarted (boot : WorkerBootId) : Process :=
      Process.step { gov := .fresh 0 } (.write (.setWorkerBoot ⟨1⟩ boot))
    outputs Process.exec (restarted ⟨5⟩) calls = outputs Process.exec (restarted ⟨6⟩) calls ∧
      (restarted ⟨6⟩).gov.publishPrice { worker := ⟨1⟩, boot := ⟨6⟩, epoch := ⟨1⟩ } ≠
        (.staleAuthority, (restarted ⟨6⟩).gov) ∧
      (restarted ⟨5⟩).gov.publishPrice { worker := ⟨1⟩, boot := ⟨6⟩, epoch := ⟨1⟩ } =
        (.staleAuthority, (restarted ⟨5⟩).gov) ∧
      (restarted ⟨5⟩).gov.recordAttempt { worker := ⟨1⟩, boot := ⟨6⟩, epoch := ⟨1⟩ } =
        (.staleAuthority, (restarted ⟨5⟩).gov) := by
  intro calls restarted
  obtain ⟨halike, hheld⟩ := worker_restart_does_not_interfere ⟨1⟩
  refine ⟨(halike { gov := .fresh 0 } ⟨5⟩ ⟨6⟩ calls ?_).1, fun hstale => ?_, ?_, ?_⟩
  · simp [calls, Call.concerns]
  · exact absurd (congrArg Prod.fst hstale) (by decide)
  · exact (hheld _).1 _ rfl (by decide) (by decide)
  · exact (hheld _).2 _ rfl (by decide) (by decide)

end CostGovernor
