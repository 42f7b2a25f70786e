import CostGovernor.Interface

/-!
# Stored under their own identities

Budgets and interventions are stored under the identity they carry. No call and no
load changes that, and an intervention keeps its identity for as long as it is stored.
`InterventionEffect` says for every call what can happen to the interventions and to
the counter their identities come from.
-/

namespace CostGovernor

namespace Governor

inductive InterventionEffect (g : Governor) (op : Op) (g' : Governor) : Prop
  | frame (hmap : g'.interventions = g.interventions)
      (hnext : g'.nextIntervention = g.nextIntervention)
  | propose (i : CostIntervention) (hop : op = .proposeIntervention i)
      (hg' : g' = (g.proposeIntervention i).2.2)
  | advance (id : InterventionId) (i i' : CostIntervention)
      (hfound : g.interventions.find? id = some i)
      (hmap : g'.interventions = g.interventions.set id i')
      (hnext : g'.nextIntervention = g.nextIntervention) (hid : i'.id = i.id)

theorem AdvanceCase.effect {g g' : Governor} {id : InterventionId} (h : AdvanceCase g id g')
    (op : Op) : InterventionEffect g op g' := by
  cases h with
  | refused => exact .frame rfl rfl
  | advanced i i' hfound hid => exact .advance id i i' hfound rfl rfl hid

theorem exec_interventions (g : Governor) (op : Op) : InterventionEffect g op (g.apply op) := by
  cases op with
  | createBudget b =>
      change InterventionEffect g _ (g.createBudget b).2
      have h := g.createBudget_cases b
      generalize g.createBudget b = x at h ⊢
      cases h <;> exact .frame rfl rfl
  | reserve budget gen epoch amount =>
      change InterventionEffect g _ (g.reserve budget gen epoch amount).2.2
      have h := g.reserve_cases budget gen epoch amount
      generalize g.reserve budget gen epoch amount = x at h ⊢
      cases h <;> exact .frame rfl rfl
  | commit r =>
      change InterventionEffect g _ (g.commit r).2.2
      have h := g.commit_cases r
      generalize g.commit r = x at h ⊢
      cases h <;> exact .frame rfl rfl
  | release r =>
      change InterventionEffect g _ (g.release r).2.2
      have h := g.release_cases r
      generalize g.release r = x at h ⊢
      cases h <;> exact .frame rfl rfl
  | consume budget gen epoch amount =>
      change InterventionEffect g _ (g.consume budget gen epoch amount).2
      have h := g.consume_cases budget gen epoch amount
      generalize g.consume budget gen epoch amount = x at h ⊢
      cases h <;> exact .frame rfl rfl
  | publishPrice obs =>
      change InterventionEffect g _ (g.publishPrice obs).2
      have h := g.publishPrice_cases obs
      generalize g.publishPrice obs = x at h ⊢
      cases h <;> exact .frame rfl rfl
  | recordAttempt e =>
      change InterventionEffect g _ (g.recordAttempt e).2
      have h := g.recordAttempt_cases e
      generalize g.recordAttempt e = x at h ⊢
      cases h <;> exact .frame rfl rfl
  | finalizeRequest request workload =>
      change InterventionEffect g _ (g.finalizeRequest request workload).2
      have h := g.finalizeRequest_cases request workload
      generalize g.finalizeRequest request workload = x at h ⊢
      cases h <;> exact .frame rfl rfl
  | proposeIntervention i => exact .propose i rfl rfl
  | authorizeIntervention id gen => exact (g.authorizeIntervention_cases id gen).effect _
  | acknowledgeIntervention id gen => exact (g.acknowledgeIntervention_cases id gen).effect _
  | verifyIntervention id gen post => exact (g.verifyIntervention_cases id gen post).effect _
  | advanceEpoch => exact .frame rfl rfl
  | setPolicy p => exact .frame rfl rfl
  | setPriceSchedule s => exact .frame rfl rfl
  | setClock now => exact .frame rfl rfl
  | setStatePath => exact .frame rfl rfl
  | setWorkerBoot worker boot => exact .frame rfl rfl

theorem BudgetChange.id {g : Governor} {op : Op} {b b' : Budget} (h : BudgetChange g op b b') :
    b'.id = b.id := by
  cases h <;> rfl

structure Keyed (g : Governor) : Prop where
  budgets : g.budgets.KeyedBy Budget.id
  interventions : g.interventions.KeyedBy CostIntervention.id

theorem keyed_fresh (now : Int64) : (fresh now).Keyed :=
  ⟨HashedMap.keyedBy_empty _, HashedMap.keyedBy_empty _⟩

theorem Keyed.apply {g : Governor} (h : g.Keyed) (op : Op) : (g.apply op).Keyed := by
  constructor
  · have heffect := g.exec_budgets op
    generalize (g.apply op).budgets = m at heffect ⊢
    cases heffect with
    | frame => exact h.budgets
    | create b _ _ _ => exact h.budgets.emplace rfl
    | update id b b' hfound hchange =>
        exact h.budgets.set (hchange.id.trans (h.budgets id b hfound))
  · cases g.exec_interventions op with
    | frame hmap _ =>
        rw [hmap]
        exact h.interventions
    | propose i _ hg' =>
        rw [hg']
        exact h.interventions.emplace rfl
    | advance id i i' hfound hmap _ hid =>
        rw [hmap]
        exact h.interventions.set (hid.trans (h.interventions id i hfound))

theorem keyed_restore (g : Governor) (snap : DurableSnapshot) : (g.restore snap).Keyed :=
  ⟨(HashedMap.keyedBy_empty _).foldl_emplace recoveredBudget snap.budgets,
    (HashedMap.keyedBy_empty _).foldl_emplace recoveredIntervention snap.interventions⟩

theorem Keyed.load {g : Governor} (h : g.Keyed) (file : Option ByteString) :
    (g.load file).2.Keyed := by
  have hcases := g.load_cases file
  generalize g.load file = x at hcases ⊢
  cases hcases with
  | refused => exact h
  | restored bytes snap _ _ _ => exact g.keyed_restore snap

end Governor

theorem Process.keyed_step {p : Process} (h : p.gov.Keyed) (c : Call) : (p.step c).gov.Keyed := by
  cases c with
  | write op => exact h.apply op
  | load => exact h.load p.file
  | _ => exact h

end CostGovernor
