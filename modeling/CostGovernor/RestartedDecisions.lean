import CostGovernor.SameTerms

/-!
# Decisions after a restart

A load keeps the prices and what the budgets have consumed, and asks for revalidation. As
soon as one of the recovered prices is published again under the new epoch, the governor
finds the same plans FEASIBLE at the same cost and authorizes the same plan as before it was
saved. Nothing a decision reads is lost in the file; the reservations, which are lost, are
not read.
-/

namespace CostGovernor

open Executions

section Refresh

open Governor

/-- The calls of a refresh: HELLOs, prices stated again, attempts and their realization. -/
def Op.Refreshes (os : List PriceObservation) : Op → Prop
  | .publishPrice o' => ∃ o, os.find? (fun x => x.id = o'.id) = some o ∧ SameOffer o' o
  | .setWorkerBoot _ _ | .recordAttempt _ | .finalizeRequest _ _ => True
  | _ => False

def Governor.Accepts (g : Governor) (op : Op) : Prop :=
  ∃ o, op = .publishPrice o ∧ (g.publishPrice o).1 = .ok

theorem replaceObservation_sameOffer {o' o : PriceObservation} {xs' xs : List PriceObservation}
    (h : List.Forall₂ SameOffer xs' xs) (hfind : xs.find? (fun x => x.id = o'.id) = some o)
    (hoffer : SameOffer o' o) :
    ∃ ys, replaceObservation o' xs' = some ys ∧ List.Forall₂ SameOffer ys xs := by
  induction h with
  | nil => cases hfind
  | cons hx hrest ih =>
      rw [replaceObservation, hx.id_eq]
      split_ifs with hid
      · rw [List.find?_cons_of_pos (by simpa using hid)] at hfind
        cases hfind
        exact ⟨_, rfl, .cons hoffer hrest⟩
      · rw [List.find?_cons_of_neg (by simpa using hid)] at hfind
        obtain ⟨ys, hys, hsame⟩ := ih hfind
        rw [hys]
        exact ⟨_, rfl, .cons hx hsame⟩

variable {g r : Governor} {op : Op}

theorem SameTerms.refresh (h : SameTerms r g) (hop : op.Refreshes g.schedule.observations) :
    SameTerms (r.apply op) g := by
  cases op with
  | publishPrice o' =>
      obtain ⟨o, hfind, hoffer⟩ := hop
      have hcase := r.publishPrice_cases o'
      change SameTerms (r.publishPrice o').2 g
      generalize r.publishPrice o' = x at hcase ⊢
      cases hcase with
      | refused => exact h
      | accepted =>
          obtain ⟨ys, hys, hsame⟩ := replaceObservation_sameOffer h.prices hfind hoffer
          refine ⟨h.now, h.policy, h.created, ?_, h.budgets⟩
          change List.Forall₂ SameOffer (storeObservation o' r.schedule.observations) _
          rw [storeObservation, hys]
          exact hsame
  | setWorkerBoot worker boot => exact ⟨h.now, h.policy, h.created, h.prices, h.budgets⟩
  | recordAttempt e =>
      obtain ⟨_, hwrites⟩ := r.recordAttempt_writes e
      change SameTerms (r.recordAttempt e).2 g
      rw [hwrites]
      exact ⟨h.now, h.policy, h.created, h.prices, h.budgets⟩
  | finalizeRequest request workload =>
      obtain ⟨_, hwrites⟩ := r.finalizeRequest_writes request workload
      change SameTerms (r.finalizeRequest request workload).2 g
      rw [hwrites]
      exact ⟨h.now, h.policy, h.created, h.prices, h.budgets⟩
  | _ => exact hop.elim

theorem revalidationNeeded_refresh {os : List PriceObservation} (hop : op.Refreshes os)
    (h : r.revalidationNeeded = false ∨ r.Accepts op) :
    (r.apply op).revalidationNeeded = false := by
  have heffect := r.exec_evidence op
  rcases h with hvalid | ⟨o, rfl, hok⟩
  · generalize r.apply op = r' at heffect ⊢
    cases heffect with
    | frame _ _ hsame => exact hsame.revalidationNeeded.trans hvalid
    | published => rfl
    | recorded => exact hvalid
    | newBoot => exact hvalid
    | _ => exact hop.elim
  · change (r.publishPrice o).2.revalidationNeeded = false
    rw [publishPrice_of_publishable ((r.publishPrice_ok_iff o).1 hok)]
    rfl

theorem SameTerms.run_refresh {ops : List Op} (h : SameTerms r g)
    (hops : ∀ op ∈ ops, op.Refreshes g.schedule.observations)
    (haccepts : r.revalidationNeeded = false ∨ Sometimes Governor.apply Governor.Accepts r ops) :
    SameTerms (run Governor.apply r ops) g ∧
      (run Governor.apply r ops).revalidationNeeded = false := by
  induction ops generalizing r with
  | nil => exact ⟨h, haccepts.resolve_right id⟩
  | cons op ops ih =>
      have hop := hops op List.mem_cons_self
      refine ih (h.refresh hop) (fun op' hop' => hops op' (List.mem_cons_of_mem _ hop')) ?_
      rcases haccepts with hvalid | hnow | hlater
      · exact Or.inl (revalidationNeeded_refresh hop (Or.inl hvalid))
      · exact Or.inl (revalidationNeeded_refresh hop (Or.inr hnow))
      · exact Or.inr hlater

theorem sameTerms_restored (later : Governor) (hkeyed : g.Keyed) (hclock : later.now = g.now) :
    SameTerms (later.restore g.snapshot).advanceEpoch g := by
  refine ⟨hclock, rfl, rfl, List.forall₂_same.2 fun o _ => SameOffer.refl o, fun id => ?_⟩
  change ((later.restore g.snapshot).budgets.find? id).map Budget.account = _
  rw [later.find?_budgets_of_cycle hkeyed, Option.map_map]
  refine congrArg (fun f => (g.budgets.find? id).map f) (funext fun b => ?_)
  change b.afterRestart.account = b.account
  unfold Budget.afterRestart
  split_ifs <;> rfl

end Refresh

open Governor in
/-- A reachable governor is saved, and loaded by another one at the same time that begins a
new epoch. After any refresh in which one price is accepted, the same plans are FEASIBLE at
the same cost and the same evaluations authorize, for the same plan. -/
theorem restart_keeps_decisions (now : Int64) (start : Option ByteString) (calls : List Call)
    (g : Governor) (hg : g = (run Process.step { gov := fresh now, file := start } calls).gov)
    (hvalid : g.revalidationNeeded = false) (hlimits : g.snapshot.WithinLimits) (written : Bool)
    (file file' : Option ByteString) (hpersist : g.persist written file = (.ok .ok, file'))
    (later : Governor) (hstore : later.store = true) (hclock : later.now = g.now) (ops : List Op)
    (hops : ∀ op ∈ ops, op.Refreshes g.schedule.observations)
    (haccepts : Sometimes Governor.apply Governor.Accepts (later.load file').2.advanceEpoch ops) :
    (∀ plan econ, econ.feasible = .feasible →
      ((run Governor.apply (later.load file').2.advanceEpoch ops).evaluatePlan plan = .ok econ ↔
        g.evaluatePlan plan = .ok econ)) ∧
    ∀ workload workloadGen plans,
      (∀ d, g.evaluate workload workloadGen plans = .ok d → d.kind = .authorize →
        ∃ d', (run Governor.apply (later.load file').2.advanceEpoch ops).evaluate workload
          workloadGen plans = .ok d' ∧ SameSelection d' d) ∧
      ∀ d', (run Governor.apply (later.load file').2.advanceEpoch ops).evaluate workload
          workloadGen plans = .ok d' → d'.kind = .authorize →
        ∃ d, g.evaluate workload workloadGen plans = .ok d ∧ SameSelection d d' := by
  have hkeyed : g.Keyed := by
    rw [hg]
    exact run_preserves (I := fun p : Process => p.gov.Keyed) (fun _ c h => Process.keyed_step h c)
      (keyed_fresh now) calls
  rw [load_of_persist hpersist hlimits hstore] at haccepts ⊢
  obtain ⟨hsame, hvalid'⟩ :=
    (sameTerms_restored later hkeyed hclock).run_refresh hops (Or.inr haccepts)
  generalize run Governor.apply (later.restore g.snapshot).advanceEpoch ops = g' at hsame hvalid' ⊢
  refine ⟨fun plan econ hfeasible => ⟨fun hplan => ?_, fun hplan => ?_⟩,
    fun workload workloadGen plans => ⟨fun d hd hkind => ?_, fun d' hd' hkind => ?_⟩⟩
  · exact hsame.symm.evaluatePlan hvalid hplan hfeasible
  · exact hsame.evaluatePlan hvalid' hplan hfeasible
  · exact hsame.evaluate hvalid' hvalid hd hkind
  · exact hsame.symm.evaluate hvalid hvalid' hd' hkind

def quotedState : Governor :=
  (run Process.step { gov := Governor.fresh 0 } [.write .setStatePath,
    .write (.setPriceSchedule { observations := [{ id := ⟨1⟩, amount := ⟨3⟩ }] }),
    .write (.createBudget
      { id := ⟨1⟩, generation := ⟨1⟩, policyGeneration := ⟨1⟩, epoch := ⟨1⟩, limit := ⟨10⟩ }),
    .write (.reserve ⟨1⟩ ⟨1⟩ ⟨1⟩ ⟨4⟩)]).gov

def workerRefresh : List Op :=
  [.setWorkerBoot ⟨1⟩ ⟨7⟩,
    .publishPrice { id := ⟨1⟩, amount := ⟨3⟩, epoch := ⟨2⟩, worker := ⟨1⟩, boot := ⟨7⟩ }]

def twoSecondPlan : ExecutionPlan := { id := ⟨2⟩, expectedAcceleratorTime := 2000000000 }

open Governor in
theorem restart_keeps_decisions_workerRefresh :
    ∃ bytes econ, quotedState.persist true none = (.ok .ok, some bytes) ∧
      econ.feasible = .feasible ∧
      (run Governor.apply ((fresh 0).setStatePath.load (some bytes)).2.advanceEpoch
        workerRefresh).evaluatePlan twoSecondPlan = .ok econ := by
  have hlimits : quotedState.snapshot.WithinLimits :=
    ⟨by decide, by decide, by decide, by decide, by decide, by decide, by decide⟩
  obtain ⟨bytes, hbytes⟩ := persist_of_withinLimits rfl hlimits none
  have hops : ∀ op ∈ workerRefresh, op.Refreshes quotedState.schedule.observations := by
    intro op hop
    rcases List.mem_cons.1 hop with rfl | hop
    · trivial
    · rw [List.mem_singleton.1 hop]
      exact ⟨_, rfl, ⟨rfl, rfl⟩, rfl⟩
  have haccepts : Sometimes Governor.apply Governor.Accepts
      ((fresh 0).setStatePath.load (some bytes)).2.advanceEpoch workerRefresh := by
    rw [load_of_persist hbytes hlimits rfl]
    exact Or.inr (Or.inl ⟨_, rfl, rfl⟩)
  obtain ⟨hplans, -⟩ := restart_keeps_decisions 0 none _ quotedState rfl rfl hlimits true none _
    hbytes (fresh 0).setStatePath rfl rfl workerRefresh hops haccepts
  exact ⟨bytes, _, hbytes, rfl, (hplans twoSecondPlan _ rfl).2 rfl⟩

end CostGovernor
