import CostGovernor.EvidenceIntake
import CostGovernor.Snapshot

/-!
# The governor as a state machine

`Op` lists the calls that can write governor state and `exec` runs one of them.
The calls that only read (plan evaluation, dispatch validation, queries) never
change a run and have no constructor. `exec_budgets` says once, for every call,
what can happen to the budget map: nothing, a new budget, or one budget changed
in one of the ways `BudgetChange` lists.
-/

namespace CostGovernor

inductive Op
  | createBudget (budget : Budget)
  | reserve (budget : BudgetId) (gen : BudgetGeneration) (epoch : CoordinatorEpoch)
      (amount : MoneyMicros)
  | commit (r : BudgetReservation)
  | release (r : BudgetReservation)
  | consume (budget : BudgetId) (gen : BudgetGeneration) (epoch : CoordinatorEpoch)
      (amount : MoneyMicros)
  | advanceEpoch
  | setPolicy (p : CostPolicy)
  | setPriceSchedule (s : PriceSchedule)
  | setClock (now : Int64)
  | setStatePath
  | setWorkerBoot (worker : WorkerId) (boot : WorkerBootId)
  | publishPrice (obs : PriceObservation)
  | recordAttempt (e : CostEvidence)
  | finalizeRequest (request : RequestId) (workload : WorkloadId)
  | proposeIntervention (i : CostIntervention)
  | authorizeIntervention (id : InterventionId) (gen : InterventionGeneration)
  | acknowledgeIntervention (id : InterventionId) (gen : InterventionGeneration)
  | verifyIntervention (id : InterventionId) (gen : InterventionGeneration)
      (postEvidence : List CostEvidence)

def Op.isBudgetCall : Op → Bool
  | .createBudget _ | .reserve _ _ _ _ | .commit _ | .release _ | .consume _ _ _ _ => true
  | _ => false

def Op.handle : Op → Option BudgetReservation
  | .commit r | .release r => some r
  | _ => none

/-- What a call gives back to its caller, by-reference arguments included. -/
inductive Reply
  | done
  | status (st : Except Exn Status)
  | handle (st : Except Exn Status) (r : Option BudgetReservation)
  | proposed (st : Status) (i : CostIntervention)
  | verified (outcome : VerificationOutcome)

/-- The call returned OK. A call that throws does not return. -/
def Reply.returnedOk : Reply → Bool
  | .status (.ok .ok) => true
  | .handle (.ok .ok) _ => true
  | .proposed .ok _ => true
  | _ => false

theorem Reply.returnedOk_status {st : Status} (h : st ≠ .ok) :
    (Reply.status (.ok st)).returnedOk = false := by
  cases st <;> first | rfl | exact absurd rfl h

theorem Reply.returnedOk_handle {st : Status} (h : st ≠ .ok) (r : Option BudgetReservation) :
    (Reply.handle (.ok st) r).returnedOk = false := by
  cases st <;> first | rfl | exact absurd rfl h

def Reply.threw : Reply → Bool
  | .status (.error _) => true
  | .handle (.error _) _ => true
  | _ => false

namespace Governor

def exec (g : Governor) : Op → Reply × Governor
  | .createBudget b => let x := g.createBudget b; (.status (.ok x.1), x.2)
  | .reserve budget gen epoch amount =>
    let x := g.reserve budget gen epoch amount; (.handle x.1 x.2.1, x.2.2)
  | .commit r => let x := g.commit r; (.handle x.1 (some x.2.1), x.2.2)
  | .release r => let x := g.release r; (.handle x.1 (some x.2.1), x.2.2)
  | .consume budget gen epoch amount =>
    let x := g.consume budget gen epoch amount; (.status x.1, x.2)
  | .advanceEpoch => (.done, g.advanceEpoch)
  | .setPolicy p => (.done, g.setPolicy p)
  | .setPriceSchedule s => (.done, g.setPriceSchedule s)
  | .setClock now => (.done, g.setClock now)
  | .setStatePath => (.done, g.setStatePath)
  | .setWorkerBoot worker boot => (.done, g.setWorkerBoot worker boot)
  | .publishPrice obs => let x := g.publishPrice obs; (.status (.ok x.1), x.2)
  | .recordAttempt e => let x := g.recordAttempt e; (.status (.ok x.1), x.2)
  | .finalizeRequest request workload =>
    let x := g.finalizeRequest request workload; (.status x.1, x.2)
  | .proposeIntervention i => let x := g.proposeIntervention i; (.proposed x.1 x.2.1, x.2.2)
  | .authorizeIntervention id gen =>
    let x := g.authorizeIntervention id gen; (.status (.ok x.1), x.2)
  | .acknowledgeIntervention id gen =>
    let x := g.acknowledgeIntervention id gen; (.status (.ok x.1), x.2)
  | .verifyIntervention id gen post => let x := g.verifyIntervention id gen post; (.verified x.1, x.2)

def apply (g : Governor) (op : Op) : Governor := (g.exec op).2

inductive BudgetChange (g : Governor) : Op → Budget → Budget → Prop
  | expire (op : Op) (b : Budget) (hlive : b.isLive = true) :
      BudgetChange g op b { b with lifecycle := .expired }
  | grant (budget : BudgetId) (gen : BudgetGeneration) (epoch : CoordinatorEpoch)
      (amount reservedAfter : MoneyMicros) (b : Budget)
      (h : Grantable g budget gen epoch amount reservedAfter b) :
      BudgetChange g (.reserve budget gen epoch amount) b
        { b with reserved := reservedAfter, lifecycle := .reserved }
  | unreserve (op : Op) (b : Budget) (reserved : MoneyMicros) :
      BudgetChange g op b { b with reserved := reserved }
  | expireHandle (r : BudgetReservation) (b : Budget) (reserved released : MoneyMicros)
      (hlive : b.isLive = true) :
      BudgetChange g (.commit r) b { b with reserved := reserved, released := released }
  | commit (r : BudgetReservation) (b : Budget) (reserved consumed : MoneyMicros)
      (hlive : b.isLive = true) (hcap : b.mode = .hard → consumed ≤ b.limit) :
      BudgetChange g (.commit r) b { b with
        reserved := reserved, consumed := consumed
        lifecycle := Budget.lifecycleAfterCharge consumed b.limit }
  | release (r : BudgetReservation) (b : Budget) (reserved released : MoneyMicros)
      (hm : HandleMatches g r b) (hne : r.amount.toInt ≠ -2 ^ 63)
      (hsub : reserved.toInt = b.reserved.toInt - r.amount.toInt)
      (hadd : released.toInt = b.released.toInt + r.amount.toInt) :
      BudgetChange g (.release r) b { b with
        reserved := reserved, released := released
        lifecycle := lifecycleAfterRelease ((g.reservations.find? r.budget).getD []) b.consumed }
  | charge (op : Op) (b : Budget) (consumed : MoneyMicros) (hlive : b.isLive = true)
      (hcap : b.mode = .hard → consumed ≤ b.limit) :
      BudgetChange g op b { b with
        consumed := consumed, lifecycle := Budget.lifecycleAfterCharge consumed b.limit }

inductive BudgetEffect (g : Governor) (op : Op) : HashedMap BudgetId Budget → Prop
  | frame : BudgetEffect g op g.budgets
  | create (b : Budget) (hop : op = .createBudget b) (hlimit : 0 ≤ b.limit.toInt)
      (hnew : g.budgets.find? b.id = none) :
      BudgetEffect g op (g.budgets.emplace b.id { b with lifecycle := .active })
  | update (id : BudgetId) (b b' : Budget) (hfound : g.budgets.find? id = some b)
      (hchange : BudgetChange g op b b') : BudgetEffect g op (g.budgets.set id b')

theorem publishPrice_budgets (g : Governor) (obs : PriceObservation) :
    (g.publishPrice obs).2.budgets = g.budgets := by
  have h := g.publishPrice_cases obs
  generalize g.publishPrice obs = x at h ⊢
  cases h <;> rfl

theorem recordAttempt_budgets (g : Governor) (e : CostEvidence) :
    (g.recordAttempt e).2.budgets = g.budgets := by
  have h := g.recordAttempt_cases e
  generalize g.recordAttempt e = x at h ⊢
  cases h <;> rfl

theorem finalizeRequest_budgets (g : Governor) (request : RequestId) (workload : WorkloadId) :
    (g.finalizeRequest request workload).2.budgets = g.budgets := by
  have h := g.finalizeRequest_cases request workload
  generalize g.finalizeRequest request workload = x at h ⊢
  cases h <;> rfl

theorem budgets_interventions {g g' : Governor}
    (h : ∃ is, g' = { g with interventions := is }) : g'.budgets = g.budgets := by
  obtain ⟨is, rfl⟩ := h
  rfl

theorem apply_budgets_of_not_budgetCall (g : Governor) {op : Op} (h : op.isBudgetCall = false) :
    (g.apply op).budgets = g.budgets := by
  cases op with
  | createBudget b => cases h
  | reserve budget gen epoch amount => cases h
  | commit r => cases h
  | release r => cases h
  | consume budget gen epoch amount => cases h
  | publishPrice obs => exact g.publishPrice_budgets obs
  | recordAttempt e => exact g.recordAttempt_budgets e
  | finalizeRequest request workload => exact g.finalizeRequest_budgets request workload
  | authorizeIntervention id gen =>
      exact budgets_interventions (g.authorizeIntervention_cases id gen).writes
  | acknowledgeIntervention id gen =>
      exact budgets_interventions (g.acknowledgeIntervention_cases id gen).writes
  | verifyIntervention id gen post =>
      exact budgets_interventions (g.verifyIntervention_cases id gen post).writes
  | advanceEpoch => rfl
  | setPolicy p => rfl
  | setPriceSchedule s => rfl
  | setClock now => rfl
  | setStatePath => rfl
  | setWorkerBoot worker boot => rfl
  | proposeIntervention i => rfl

theorem exec_budgets (g : Governor) (op : Op) : BudgetEffect g op (g.apply op).budgets := by
  by_cases hcall : op.isBudgetCall = false
  · rw [g.apply_budgets_of_not_budgetCall hcall]
    exact .frame
  cases op with
  | createBudget b =>
      change BudgetEffect g _ (g.createBudget b).2.budgets
      have h := g.createBudget_cases b
      generalize g.createBudget b = x at h ⊢
      cases h with
      | refused => exact .frame
      | created hlimit _ hnew => exact .create b rfl hlimit hnew
  | reserve budget gen epoch amount =>
      change BudgetEffect g _ (g.reserve budget gen epoch amount).2.2.budgets
      have h := g.reserve_cases budget gen epoch amount
      generalize g.reserve budget gen epoch amount = x at h ⊢
      cases h with
      | refused => exact .frame
      | threw => exact .frame
      | expired b hfound hlive _ => exact .update budget b _ hfound (.expire _ b hlive)
      | granted b reservedAfter hg =>
          exact .update budget b _ hg.found (.grant budget gen epoch amount reservedAfter b hg)
  | commit r =>
      change BudgetEffect g _ (g.commit r).2.2.budgets
      have h := g.commit_cases r
      generalize g.commit r = x at h ⊢
      cases h with
      | refused => exact .frame
      | settled => exact .frame
      | threw => exact .frame
      | expiryThrew e b reserved hm => exact .update r.budget b _ hm.found (.unreserve _ b reserved)
      | expired b reserved released hm hlive =>
          exact .update r.budget b _ hm.found (.expireHandle r b reserved released hlive)
      | committed b reserved consumed hm hlive _ _ _ hcap =>
          exact .update r.budget b _ hm.found (.commit r b reserved consumed hlive hcap)
  | release r =>
      change BudgetEffect g _ (g.release r).2.2.budgets
      have h := g.release_cases r
      generalize g.release r = x at h ⊢
      cases h with
      | refused => exact .frame
      | settled => exact .frame
      | threw => exact .frame
      | halfThrew e b reserved hm => exact .update r.budget b _ hm.found (.unreserve _ b reserved)
      | released b reserved released hm hne hsub hadd =>
          exact .update r.budget b _ hm.found (.release r b reserved released hm hne hsub hadd)
  | consume budget gen epoch amount =>
      change BudgetEffect g _ (g.consume budget gen epoch amount).2.budgets
      have h := g.consume_cases budget gen epoch amount
      generalize g.consume budget gen epoch amount = x at h ⊢
      cases h with
      | refused => exact .frame
      | threw => exact .frame
      | expired b hc _ => exact .update budget b _ hc.found (.expire _ b hc.live)
      | charged b consumed hc _ _ hcap =>
          exact .update budget b _ hc.found (.charge _ b consumed hc.live hcap)
  | _ => exact absurd rfl hcall

/-- A property of single budgets survives a call when new budgets have it and
every change of one budget keeps it. -/
theorem BudgetEffect.forall_budgets {g : Governor} {op : Op} {m : HashedMap BudgetId Budget}
    (h : BudgetEffect g op m) {P : Budget → Prop}
    (hcreate : ∀ b, op = .createBudget b → P { b with lifecycle := .active })
    (hchange : ∀ b b', BudgetChange g op b b' → P b → P b')
    (hold : ∀ id b, g.budgets.find? id = some b → P b) : ∀ id b, m.find? id = some b → P b := by
  intro id b hb
  cases h with
  | frame => exact hold id b hb
  | create c hop _ _ =>
      rw [HashedMap.find?_emplace] at hb
      split_ifs at hb with hk
      · exact Option.some.inj hb ▸ hcreate c hop
      · exact hold id b hb
  | update key c c' hfound hc =>
      rw [HashedMap.find?_set] at hb
      split_ifs at hb with hk
      · exact Option.some.inj hb ▸ hchange c c' hc (hold key c hfound)
      · exact hold id b hb

/-- A budget never leaves the map: after a call it is unchanged or changed once. -/
theorem BudgetEffect.find?_of_some {g : Governor} {op : Op} {m : HashedMap BudgetId Budget}
    (h : BudgetEffect g op m) {id : BudgetId} {b : Budget} (hb : g.budgets.find? id = some b) :
    ∃ b', m.find? id = some b' ∧ (b' = b ∨ BudgetChange g op b b') := by
  cases h with
  | frame => exact ⟨b, hb, Or.inl rfl⟩
  | create c _ _ hnew =>
      rw [HashedMap.find?_emplace, if_neg]
      · exact ⟨b, hb, Or.inl rfl⟩
      · intro hk
        rw [hk.1, hnew] at hb
        cases hb
  | update key c c' hfound hchange =>
      rw [HashedMap.find?_set]
      split_ifs with hk
      · rw [hk, hfound] at hb
        have hc : c = b := Option.some.inj hb
        exact ⟨c', rfl, Or.inr (hc ▸ hchange)⟩
      · exact ⟨b, hb, Or.inl rfl⟩

/-- No call changes what a budget is, only its totals and its lifecycle. -/
theorem BudgetChange.terms {g : Governor} {op : Op} {b b' : Budget} (h : BudgetChange g op b b') :
    b'.generation = b.generation ∧ b'.epoch = b.epoch ∧ b'.mode = b.mode ∧ b'.limit = b.limit := by
  cases h <;> exact ⟨rfl, rfl, rfl, rfl⟩

end Governor

/-- A governor together with every snapshot it has saved so far. -/
structure World where
  gov : Governor
  saved : List DurableSnapshot

inductive WorldOp
  | call (op : Op)
  | persist
  | load (i : ℕ)

namespace World

def start (now : Int64) : World := ⟨Governor.fresh now, []⟩

/-- `load` may read back any saved snapshot, not only the last one. Without a
state path, and for a file that cannot be read, neither call changes anything. -/
def step (w : World) : WorldOp → World
  | .call op => { w with gov := w.gov.apply op }
  | .persist => if w.gov.store then { w with saved := w.saved ++ [w.gov.snapshot] } else w
  | .load i =>
    if w.gov.store then
      match w.saved[i]? with
      | some snap => { w with gov := w.gov.restore snap }
      | none => w
    else w

end World

end CostGovernor
