import CostGovernor.InterventionCourses

/-!
# The trail of an intervention

An observer writes down, for one intervention identity, the calls that were answered with
success. Over every run the trail is the protocol cut somewhere: a proposal, an
authorization, an acknowledgement, a verification, each at most once and in this order. The
stored record is what the trail makes of the proposal, and the trail alone says which call
the governor accepts next.
-/

namespace CostGovernor

open Executions

section Steps

variable {g : Governor} {id : InterventionId} {log : List Milestone}

/-- A call on the intervention succeeds exactly at its place in the trail. -/
theorem Course.ok_iff {gen : InterventionGeneration} {evidence ok : Prop}
    {stage : InterventionLifecycle → Prop} {next : CostIntervention → CostIntervention}
    {g' : Governor} {k : ℕ} (hmove : g.Moved id gen evidence stage next ok g') (hk : k ≠ 0)
    (hplace : ∀ i, Course id log (some i) → (stage i.lifecycle ↔ log.length = k))
    (h : Course id log (g.interventions.find? id)) :
    ok ↔ gen = ⟨1⟩ ∧ evidence ∧ log.length = k := by
  cases hmove with
  | failed hno hcause =>
      refine ⟨fun hok => absurd hok hno, ?_⟩
      rintro ⟨rfl, hevidence, hlength⟩
      cases hfound : g.interventions.find? id with
      | none =>
          rw [hfound] at h
          exact absurd (hlength.symm.trans h.length_of_none) hk
      | some i =>
          rw [hfound] at h
          exact absurd ((hplace i h).2 hlength) (hcause i hfound h.generation hevidence)
  | moved hok i hfound hgen hevidence hstage =>
      rw [hfound] at h
      exact ⟨fun _ => ⟨hgen.symm.trans h.generation, hevidence, (hplace i h).1 hstage⟩,
        fun _ => hok⟩

theorem Course.accepts (h : Course id log (g.interventions.find? id)) :
    Course.Accepts log id g where
  authorize gen := by
    have hok := h.ok_iff (g.authorizeIntervention_moved id gen) one_ne_zero
      fun i hi => hi.lifecycle.1
    rwa [true_and] at hok
  acknowledge gen := by
    have hok := h.ok_iff (g.acknowledgeIntervention_moved id gen) two_ne_zero
      fun i hi => (or_iff_left hi.lifecycle.2.2.2).trans hi.lifecycle.2.1
    rwa [true_and] at hok
  verify gen post := h.ok_iff (g.verifyIntervention_moved id gen post) three_ne_zero
    fun i hi => (or_iff_left hi.lifecycle.2.2.2).trans hi.lifecycle.2.2.1

/-- One call on any intervention, when success moves a record as the milestone does. -/
theorem Course.moved {id' : InterventionId} {gen : InterventionGeneration} {evidence ok : Prop}
    {stage : InterventionLifecycle → Prop} {next : CostIntervention → CostIntervention}
    [Decidable ok] {g' : Governor} {m : Milestone}
    (hmove : g.Moved id' gen evidence stage next ok g')
    (hnext : ∀ i, Course id log (some i) → stage i.lifecycle →
      Course id (log ++ [m]) (some (next i)))
    (h : Course id log (g.interventions.find? id)) :
    Course id (log ++ (if id' = id ∧ ok then some m else none).toList)
      (g'.interventions.find? id) := by
  cases hmove with
  | failed hno =>
      rw [if_neg fun hall => hno hall.2, Option.toList_none, List.append_nil]
      exact h
  | moved hok i hfound _ _ hstage =>
      dsimp only
      rw [HashedMap.find?_set]
      by_cases hid : id' = id
      · subst hid
        rw [hfound] at h
        rw [if_pos rfl, if_pos ⟨rfl, hok⟩, Option.toList_some]
        exact hnext i h hstage
      · rw [if_neg (Ne.symm hid), if_neg fun hall => hid hall.1, Option.toList_none,
          List.append_nil]
        exact h

theorem Course.propose (h : Course id log (g.interventions.find? id)) (hnum : g.Numbered)
    (hcounter : g.nextIntervention ≠ 0) (i : CostIntervention) :
    Course id (log ++ (g.milestone id (.proposeIntervention i)).toList)
      ((g.proposeIntervention i).2.2.interventions.find? id) := by
  have hstored : g.StoredAsNew i (g.proposeIntervention i).2.1 (g.proposeIntervention i).2.2 :=
    hnum.storedAsNew hcounter rfl
  dsimp only [Governor.milestone]
  by_cases hid : (g.proposeIntervention i).2.1.id = id
  · have hunused : g.interventions.find? id = none := by
      rw [← hid]
      exact hnum.unused hcounter
    rw [hunused] at h
    cases h
    rw [if_pos hid]
    subst hid
    rw [hstored.stored]
    exact .proposed i g.now
  · rw [if_neg hid, Option.toList_none, List.append_nil, hstored.others id (Ne.symm hid)]
    exact h

theorem apply_interventions_of_budgetCall {op : Op} (h : op.isBudgetCall = true) :
    (g.apply op).interventions = g.interventions := by
  obtain ⟨budgets, reservations, next, hop⟩ := g.budgetCall_writes h
  rw [hop]

def Governor.HasIdentity (g : Governor) (op : Op) : Prop :=
  ∀ i, op = .proposeIntervention i → g.nextIntervention ≠ 0

theorem Course.apply (h : Course id log (g.interventions.find? id)) (hnum : g.Numbered) {op : Op}
    (hidentity : g.HasIdentity op) :
    Course id (log ++ (g.milestone id op).toList) ((g.apply op).interventions.find? id) := by
  have hframe : (g.apply op).interventions = g.interventions → g.milestone id op = none →
      Course id (log ++ (g.milestone id op).toList) ((g.apply op).interventions.find? id) := by
    intro hsame hnone
    rw [hsame, hnone, Option.toList_none, List.append_nil]
    exact h
  cases op with
  | proposeIntervention i => exact h.propose hnum (hidentity i rfl) i
  | authorizeIntervention id' gen =>
      exact h.moved (g.authorizeIntervention_moved id' gen) fun i hi hstage => hi.authorize hstage
  | acknowledgeIntervention id' gen =>
      exact h.moved (g.acknowledgeIntervention_moved id' gen) fun i hi hstage =>
        hi.acknowledge g.now (hstage.resolve_right hi.lifecycle.2.2.2)
  | verifyIntervention id' gen post =>
      exact h.moved (g.verifyIntervention_moved id' gen post) fun i hi hstage =>
        hi.verify g.now (hstage.resolve_right hi.lifecycle.2.2.2)
  | publishPrice obs =>
      obtain ⟨_, _, hwrites⟩ := g.publishPrice_writes obs
      refine hframe ?_ rfl
      change (g.publishPrice obs).2.interventions = _
      rw [hwrites]
  | recordAttempt e =>
      obtain ⟨_, hwrites⟩ := g.recordAttempt_writes e
      refine hframe ?_ rfl
      change (g.recordAttempt e).2.interventions = _
      rw [hwrites]
  | finalizeRequest request workload =>
      obtain ⟨_, hwrites⟩ := g.finalizeRequest_writes request workload
      refine hframe ?_ rfl
      change (g.finalizeRequest request workload).2.interventions = _
      rw [hwrites]
  | createBudget b => exact hframe (apply_interventions_of_budgetCall rfl) rfl
  | reserve budget gen epoch amount => exact hframe (apply_interventions_of_budgetCall rfl) rfl
  | commit r => exact hframe (apply_interventions_of_budgetCall rfl) rfl
  | release r => exact hframe (apply_interventions_of_budgetCall rfl) rfl
  | consume budget gen epoch amount => exact hframe (apply_interventions_of_budgetCall rfl) rfl
  | _ => exact hframe rfl rfl

end Steps

section Runs

theorem Governor.nextIntervention_apply {g : Governor} (h : g.nextIntervention.toNat + 1 < 2 ^ 64)
    (op : Op) : g.nextIntervention.toNat ≤ (g.apply op).nextIntervention.toNat ∧
      (g.apply op).nextIntervention.toNat ≤ g.nextIntervention.toNat + 1 := by
  cases g.exec_interventions op with
  | frame _ hnext => exact hnext ▸ ⟨le_rfl, Nat.le_succ _⟩
  | propose i _ hg' =>
      have hnext : (g.apply op).nextIntervention.toNat = g.nextIntervention.toNat + 1 := by
        rw [hg']
        exact (UInt64.toNat_add g.nextIntervention 1).trans (Nat.mod_eq_of_lt h)
      omega
  | advance _ _ _ _ _ hnext => exact hnext ▸ ⟨le_rfl, Nat.le_succ _⟩

theorem Governor.along_hasIdentity {ops : List Op} {g : Governor}
    (hpos : 0 < g.nextIntervention.toNat) (h : g.nextIntervention.toNat + ops.length < 2 ^ 64) :
    Along Governor.apply HasIdentity g ops := by
  induction ops generalizing g with
  | nil => trivial
  | cons op ops ih =>
      rw [List.length_cons] at h
      obtain ⟨hle, hlt⟩ := nextIntervention_apply (g := g) (by omega) op
      refine ⟨fun _ _ hzero => ?_, ih (by omega) (by omega)⟩
      rw [hzero] at hpos
      exact absurd hpos (by decide)

/-- Over every run without `load`, for every identity: the calls that succeeded on it are a
proposal, an authorization, an acknowledgement and a verification, each at most once and in
this order; the record is the proposal with what they write; and the next call succeeds
exactly when it is the next of them, for the first generation and, for a verification, with
evidence. -/
theorem interventions_follow_trails (now : Int64) (ops : List Op)
    (hcount : ops.length + 1 < 2 ^ 64) (id : InterventionId) :
    Course id (Governor.trail id (Governor.fresh now) ops)
        ((run Governor.apply (Governor.fresh now) ops).interventions.find? id) ∧
      Course.Accepts (Governor.trail id (Governor.fresh now) ops) id
        (run Governor.apply (Governor.fresh now) ops) := by
  have hroom : Along Governor.apply Governor.HasIdentity (Governor.fresh now) ops := by
    refine Governor.along_hasIdentity (show 0 < (1 : UInt64).toNat by decide) ?_
    change 1 + ops.length < 2 ^ 64
    omega
  have hstart : Course id [] ((Governor.fresh now).interventions.find? id) ∧
      (Governor.fresh now).Numbered := ⟨.unused, Governor.numbered_fresh now⟩
  have hrun : Course id ([] ++ Governor.trail id (Governor.fresh now) ops)
        ((run Governor.apply (Governor.fresh now) ops).interventions.find? id) ∧
      (run Governor.apply (Governor.fresh now) ops).Numbered :=
    run_observed (R := fun log (g : Governor) =>
        Course id log (g.interventions.find? id) ∧ g.Numbered)
      (fun log g op hR hC => ⟨hR.1.apply hR.2 hC, hR.2.apply hC⟩) hstart hroom
  exact ⟨hrun.1, hrun.1.accepts⟩

def eagerOperator : List Op :=
  [.proposeIntervention { kind := .defer }, .authorizeIntervention ⟨1⟩ ⟨1⟩,
    .authorizeIntervention ⟨1⟩ ⟨1⟩, .verifyIntervention ⟨1⟩ ⟨1⟩ [{}], .setClock 7,
    .acknowledgeIntervention ⟨1⟩ ⟨1⟩, .verifyIntervention ⟨1⟩ ⟨1⟩ [],
    .verifyIntervention ⟨1⟩ ⟨1⟩ [{}]]

theorem interventions_follow_trails_eagerOperator :
    Governor.trail ⟨1⟩ (Governor.fresh 5) eagerOperator =
        [.proposed { kind := .defer } 5, .authorized, .acknowledged 7, .verified 7] ∧
      Course ⟨1⟩ (Governor.trail ⟨1⟩ (Governor.fresh 5) eagerOperator)
        ((run Governor.apply (Governor.fresh 5) eagerOperator).interventions.find? ⟨1⟩) :=
  ⟨by decide +kernel, (interventions_follow_trails 5 eagerOperator (by decide) ⟨1⟩).1⟩

end Runs

end CostGovernor
