import CostGovernor.Operations

/-!
# What a rejected call leaves behind

A call that returns with anything but success has written nothing, neither to the
governor nor to the reservation its caller passed by reference. The only exceptions are
the three places where a call finds out that something has expired: `reserve` and
`consume` note it in the budget, `commit` in the handle, whose amount it takes out of
the reserved total.
-/

namespace CostGovernor

/-- The reservation its caller holds after the call. `reserve` writes one only when it
grants it. -/
def Reply.handleAfter : Reply → Option BudgetReservation
  | .handle _ r => r
  | _ => none

/-- The call returned, and not with success. -/
def Reply.refuses : Reply → Bool
  | .status (.ok st) => decide (st ≠ .ok)
  | .handle (.ok st) _ => decide (st ≠ .ok)
  | .proposed st _ => decide (st ≠ .ok)
  | .verified outcome => decide (outcome ≠ .effective)
  | _ => false

namespace Governor

inductive RefusalEffect (g : Governor) : Op → Option BudgetReservation → Governor → Prop
  | intact (op : Op) : RefusalEffect g op op.handle g
  | reserveExpired (budget : BudgetId) (gen : BudgetGeneration) (epoch : CoordinatorEpoch)
      (amount : MoneyMicros) (b : Budget) (hfound : g.budgets.find? budget = some b)
      (hpast : b.pastExpiry g.now = true) :
      RefusalEffect g (.reserve budget gen epoch amount) none
        (g.setBudget budget { b with lifecycle := .expired })
  | consumeExpired (budget : BudgetId) (gen : BudgetGeneration) (epoch : CoordinatorEpoch)
      (amount : MoneyMicros) (b : Budget) (hfound : g.budgets.find? budget = some b)
      (hpast : b.pastExpiry g.now = true) :
      RefusalEffect g (.consume budget gen epoch amount) none
        (g.setBudget budget { b with lifecycle := .expired })
  | commitExpired (r : BudgetReservation) (b : Budget) (reserved released : MoneyMicros)
      (hm : HandleMatches g r b) (hpast : r.pastExpiry g.now = true)
      (hsub : reserved.toInt = b.reserved.toInt - r.amount.toInt)
      (hadd : released.toInt = b.released.toInt + r.amount.toInt) :
      RefusalEffect g (.commit r) (some { r with state := .expired })
        (g.setBudget r.budget { b with reserved := reserved, released := released })

theorem RefusalEffect.of_eq {g g' : Governor} {op : Op} (h : g' = g) :
    RefusalEffect g op op.handle g' := by
  rw [h]
  exact .intact op

theorem createBudget_refused {g : Governor} {budget : Budget}
    (h : (g.createBudget budget).1 ≠ .ok) : (g.createBudget budget).2 = g := by
  have hcases := g.createBudget_cases budget
  generalize g.createBudget budget = x at h hcases ⊢
  cases hcases with
  | refused => rfl
  | created => exact absurd rfl h

theorem publishPrice_refused {g : Governor} {obs : PriceObservation}
    (h : (g.publishPrice obs).1 ≠ .ok) : (g.publishPrice obs).2 = g := by
  have hcases := g.publishPrice_cases obs
  generalize g.publishPrice obs = x at h hcases ⊢
  cases hcases with
  | refused => rfl
  | accepted => exact absurd rfl h

theorem recordAttempt_refused {g : Governor} {e : CostEvidence}
    (h : (g.recordAttempt e).1 ≠ .ok) : (g.recordAttempt e).2 = g := by
  have hcases := g.recordAttempt_cases e
  generalize g.recordAttempt e = x at h hcases ⊢
  cases hcases with
  | refused => rfl
  | duplicate => rfl
  | accepted => exact absurd rfl h

theorem finalizeRequest_refused {g : Governor} {request : RequestId} {workload : WorkloadId}
    (h : (g.finalizeRequest request workload).1 ≠ .ok .ok) :
    (g.finalizeRequest request workload).2 = g := by
  have hcases := g.finalizeRequest_cases request workload
  generalize g.finalizeRequest request workload = x at h hcases ⊢
  cases hcases with
  | done => rfl
  | refused => rfl
  | appended => exact absurd rfl h

theorem authorizeIntervention_refused {g : Governor} {id : InterventionId}
    {gen : InterventionGeneration} (h : (g.authorizeIntervention id gen).1 ≠ .ok) :
    (g.authorizeIntervention id gen).2 = g := by
  unfold authorizeIntervention at h ⊢
  cases hfound : g.interventions.find? id with
  | none => rfl
  | some i =>
      simp only [hfound] at h ⊢
      split_ifs at h ⊢
      · rfl
      · rfl
      · exact absurd rfl h

theorem acknowledgeIntervention_refused {g : Governor} {id : InterventionId}
    {gen : InterventionGeneration} (h : (g.acknowledgeIntervention id gen).1 ≠ .ok) :
    (g.acknowledgeIntervention id gen).2 = g := by
  unfold acknowledgeIntervention at h ⊢
  cases hfound : g.interventions.find? id with
  | none => rfl
  | some i =>
      simp only [hfound] at h ⊢
      split_ifs at h ⊢
      · rfl
      · rfl
      · exact absurd rfl h

theorem verifyIntervention_refused {g : Governor} {id : InterventionId}
    {gen : InterventionGeneration} {post : List CostEvidence}
    (h : (g.verifyIntervention id gen post).1 ≠ .effective) :
    (g.verifyIntervention id gen post).2 = g := by
  unfold verifyIntervention at h ⊢
  cases hfound : g.interventions.find? id with
  | none => rfl
  | some i =>
      simp only [hfound] at h ⊢
      split_ifs at h ⊢
      · rfl
      · rfl
      · rfl
      · exact absurd rfl h

theorem reserve_refused {g : Governor} {budget : BudgetId} {gen : BudgetGeneration}
    {epoch : CoordinatorEpoch} {amount : MoneyMicros} {st : Status}
    (h : (g.reserve budget gen epoch amount).1 = .ok st) (hst : st ≠ .ok) :
    RefusalEffect g (.reserve budget gen epoch amount) (g.reserve budget gen epoch amount).2.1
      (g.reserve budget gen epoch amount).2.2 := by
  unfold reserve at h ⊢
  cases hfound : g.budgets.find? budget with
  | none => exact .intact _
  | some b =>
      simp only [hfound] at h ⊢
      split_ifs at h ⊢ with _ _ _ hpast
      · exact .intact _
      · exact .intact _
      · exact .intact _
      · exact .reserveExpired budget gen epoch amount b hfound hpast
      · exact .intact _
      · cases hsum : b.reserved.add amount with
        | error e =>
            rw [hsum] at h
            cases h
        | ok reservedAfter =>
            rw [hsum] at h
            dsimp only at h ⊢
            split_ifs at h ⊢
            · exact .intact _
            · exact absurd (Except.ok.inj h).symm hst

theorem commit_refused {g : Governor} {r : BudgetReservation} {st : Status}
    (h : (g.commit r).1 = .ok st) (hst : st ≠ .ok) :
    RefusalEffect g (.commit r) (some (g.commit r).2.1) (g.commit r).2.2 := by
  have hcases := g.commit_cases r
  generalize g.commit r = x at h hcases ⊢
  cases hcases with
  | refused => exact .intact (.commit r)
  | settled => exact .intact (.commit r)
  | threw => cases h
  | expiryThrew => cases h
  | expired b reserved released hm _ hpast hsub hadd =>
      exact .commitExpired r b reserved released hm hpast hsub hadd
  | committed => exact absurd (Except.ok.inj h).symm hst

theorem release_refused {g : Governor} {r : BudgetReservation} {st : Status}
    (h : (g.release r).1 = .ok st) (hst : st ≠ .ok) :
    RefusalEffect g (.release r) (some (g.release r).2.1) (g.release r).2.2 := by
  have hcases := g.release_cases r
  generalize g.release r = x at h hcases ⊢
  cases hcases with
  | refused => exact .intact (.release r)
  | settled => exact .intact (.release r)
  | threw => cases h
  | halfThrew => cases h
  | released => exact absurd (Except.ok.inj h).symm hst

theorem consume_refused {g : Governor} {budget : BudgetId} {gen : BudgetGeneration}
    {epoch : CoordinatorEpoch} {amount : MoneyMicros} {st : Status}
    (h : (g.consume budget gen epoch amount).1 = .ok st) (hst : st ≠ .ok) :
    RefusalEffect g (.consume budget gen epoch amount) none
      (g.consume budget gen epoch amount).2 := by
  have hcases := g.consume_cases budget gen epoch amount
  generalize g.consume budget gen epoch amount = x at h hcases ⊢
  cases hcases with
  | refused => exact .intact (.consume budget gen epoch amount)
  | threw => cases h
  | expired b hc hpast => exact .consumeExpired budget gen epoch amount b hc.found hpast
  | charged => exact absurd (Except.ok.inj h).symm hst

end Governor

open Governor

theorem Reply.refuses_handle_iff (x : Except Exn Status) (r : Option BudgetReservation) :
    (Reply.handle x r).refuses = true ↔ ∃ st, x = .ok st ∧ st ≠ .ok := by
  cases x <;> simp [Reply.refuses]

theorem Reply.refuses_status_iff (x : Except Exn Status) :
    (Reply.status x).refuses = true ↔ ∃ st, x = .ok st ∧ st ≠ .ok := by
  cases x <;> simp [Reply.refuses]

/-- A call that returns without success leaves the state and the caller's reservation as
they were, apart from what it notes about an expiry it has found. -/
theorem rejections_leave_state_intact (g : Governor) (op : Op)
    (h : (g.exec op).1.refuses = true) :
    RefusalEffect g op (g.exec op).1.handleAfter (g.exec op).2 := by
  cases op with
  | createBudget b => exact .of_eq (createBudget_refused (of_decide_eq_true h))
  | reserve budget gen epoch amount =>
      obtain ⟨st, hst, hne⟩ := (Reply.refuses_handle_iff _ _).1 h
      exact reserve_refused hst hne
  | commit r =>
      obtain ⟨st, hst, hne⟩ := (Reply.refuses_handle_iff _ _).1 h
      exact commit_refused hst hne
  | release r =>
      obtain ⟨st, hst, hne⟩ := (Reply.refuses_handle_iff _ _).1 h
      exact release_refused hst hne
  | consume budget gen epoch amount =>
      obtain ⟨st, hst, hne⟩ := (Reply.refuses_status_iff _).1 h
      exact consume_refused hst hne
  | publishPrice obs => exact .of_eq (publishPrice_refused (of_decide_eq_true h))
  | recordAttempt e => exact .of_eq (recordAttempt_refused (of_decide_eq_true h))
  | finalizeRequest request workload =>
      obtain ⟨st, hst, hne⟩ := (Reply.refuses_status_iff _).1 h
      refine .of_eq (finalizeRequest_refused (fun hok => hne ?_))
      exact Except.ok.inj (hst.symm.trans hok)
  | authorizeIntervention id gen => exact .of_eq (authorizeIntervention_refused (of_decide_eq_true h))
  | acknowledgeIntervention id gen => exact .of_eq (acknowledgeIntervention_refused (of_decide_eq_true h))
  | verifyIntervention id gen post => exact .of_eq (verifyIntervention_refused (of_decide_eq_true h))
  | advanceEpoch => cases h
  | setPolicy p => cases h
  | setPriceSchedule s => cases h
  | setClock now => cases h
  | setStatePath => cases h
  | setWorkerBoot worker boot => cases h
  | proposeIntervention i => cases h

/-- A grant of 4 from a budget that has expired since. -/
def lapsedGovernor : Governor :=
  (((fresh 0).createBudget {
    id := ⟨1⟩, generation := ⟨1⟩, policyGeneration := ⟨1⟩, epoch := ⟨1⟩, limit := ⟨10⟩
    expiresAtMs := 5 }).2.reserve ⟨1⟩ ⟨1⟩ ⟨1⟩ ⟨4⟩).2.2.setClock 10

def lapsedHandle : BudgetReservation :=
  { id := ⟨1⟩, budget := ⟨1⟩, budgetGeneration := ⟨1⟩, epoch := ⟨1⟩, amount := ⟨4⟩
    expiresAtMs := 5 }

theorem rejections_leave_state_intact_lapsedHandle :
    (lapsedGovernor.exec (.commit lapsedHandle)).1.refuses = true ∧
      RefusalEffect lapsedGovernor (.commit lapsedHandle)
        (some { lapsedHandle with state := .expired })
        (lapsedGovernor.apply (.commit lapsedHandle)) :=
  ⟨rfl, rejections_leave_state_intact lapsedGovernor (.commit lapsedHandle) rfl⟩

end CostGovernor
