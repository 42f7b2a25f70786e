import CostGovernor.CoordinatorCalls
import CostGovernor.Tallies

/-!
# The books: consumed totals and history

A COMMIT on an ACTIVE copy that the governor answers OK is the only call of a
coordinator that adds to a consumed total, and no call removes a history entry. A
restart finds in the books what the state file holds.
-/

namespace CostGovernor

open Tallies Coordinator

def Governor.consumedOf (g : Governor) (id : BudgetId) : ℤ :=
  (g.budgets.find? id).elim 0 (fun b => b.consumed.toInt)

def totalFor (id : BudgetId) (rs : List BudgetReservation) : ℤ :=
  tally (fun r => r.budget = id) (fun r => r.amount.toInt) rs

def savedConsumed (file : Option DurableSnapshot) (id : BudgetId) : ℤ :=
  file.elim 0 (fun snap =>
    (snap.budgets.find? (fun b => b.id = id)).elim 0 (fun b => b.consumed.toInt))

def savedHistory (file : Option DurableSnapshot) : List HistoryEntry :=
  file.elim [] DurableSnapshot.history

namespace Coordinator

/-- The COMMIT that the governor answers OK in this step, with its session. -/
def charging (c : Coordinator) : Event → List (ℕ × BudgetReservation)
  | .resume s _ =>
    match c.sessions s with
    | .copied .commit _ r => if (c.gov.commit r).1 = .ok .ok then [(s, r)] else []
    | _ => []
  | _ => []

end Coordinator

namespace Governor

theorem consumedOf_set {g g' : Governor} {id : BudgetId} {b b' : Budget}
    (hfound : g.budgets.find? id = some b) (hset : g'.budgets = g.budgets.set id b')
    (id' : BudgetId) :
    g'.consumedOf id' =
      g.consumedOf id' + if id' = id then b'.consumed.toInt - b.consumed.toInt else 0 := by
  unfold consumedOf
  rw [hset, HashedMap.find?_set]
  by_cases hid : id' = id
  · rw [if_pos hid, if_pos hid, hid, hfound]
    change b'.consumed.toInt = b.consumed.toInt + _
    omega
  · rw [if_neg hid, if_neg hid, add_zero]

theorem consumedOf_set_same {g g' : Governor} {id : BudgetId} {b b' : Budget}
    (hfound : g.budgets.find? id = some b) (hset : g'.budgets = g.budgets.set id b')
    (hsame : b'.consumed = b.consumed) : g'.consumedOf = g.consumedOf := by
  funext id'
  rw [consumedOf_set hfound hset, hsame, sub_self, ite_self, add_zero]

/-- The accounting a restart must preserve is the same. -/
structure SameBooks (g g' : Governor) : Prop where
  consumed : g'.consumedOf = g.consumedOf
  history : g'.history = g.history

theorem reserve_books (g : Governor) (budget : BudgetId) (gen : BudgetGeneration)
    (epoch : CoordinatorEpoch) (amount : MoneyMicros) :
    SameBooks g (g.reserve budget gen epoch amount).2.2 := by
  have h := g.reserve_cases budget gen epoch amount
  generalize g.reserve budget gen epoch amount = x at h ⊢
  cases h with
  | refused => exact ⟨rfl, rfl⟩
  | threw => exact ⟨rfl, rfl⟩
  | expired b hfound => exact ⟨consumedOf_set_same hfound rfl rfl, rfl⟩
  | granted b reservedAfter hg => exact ⟨consumedOf_set_same hg.found rfl rfl, rfl⟩

theorem release_books (g : Governor) (r : BudgetReservation) : SameBooks g (g.release r).2.2 := by
  have h := g.release_cases r
  generalize g.release r = x at h ⊢
  cases h with
  | refused => exact ⟨rfl, rfl⟩
  | settled => exact ⟨rfl, rfl⟩
  | threw => exact ⟨rfl, rfl⟩
  | halfThrew e b reserved hm => exact ⟨consumedOf_set_same hm.found rfl rfl, rfl⟩
  | released b reserved released hm => exact ⟨consumedOf_set_same hm.found rfl rfl, rfl⟩

/-- The COMMIT of an ACTIVE copy that returns OK consumes its amount, and one that
does not consumes nothing. -/
theorem commit_books (g : Governor) {r : BudgetReservation} (hactive : r.state = .active) :
    (g.commit r).2.2.history = g.history ∧
      ∀ id, (g.commit r).2.2.consumedOf id =
        g.consumedOf id + if (g.commit r).1 = .ok .ok ∧ id = r.budget then r.amount.toInt else 0 := by
  have h := g.commit_cases r
  generalize g.commit r = x at h ⊢
  cases h with
  | refused st hst =>
      refine ⟨rfl, fun id => ?_⟩
      rw [if_neg (fun hok => hst (Except.ok.inj hok.1)), add_zero]
  | settled _ hstate => exact absurd hactive hstate
  | threw =>
      refine ⟨rfl, fun id => ?_⟩
      rw [if_neg (fun hok => nomatch hok.1), add_zero]
  | expiryThrew e b reserved hm =>
      refine ⟨rfl, fun id => ?_⟩
      rw [if_neg (fun hok => nomatch hok.1), add_zero]
      apply congrFun
      exact consumedOf_set_same hm.found rfl rfl
  | expired b reserved released hm =>
      refine ⟨rfl, fun id => ?_⟩
      rw [if_neg (fun hok => nomatch hok.1), add_zero]
      apply congrFun
      exact consumedOf_set_same hm.found rfl rfl
  | committed b reserved consumed hm _ _ _ hadd =>
      refine ⟨rfl, fun id => (consumedOf_set hm.found rfl id).trans ?_⟩
      dsimp only
      rw [hadd]
      by_cases hid : id = r.budget
      · simp [hid]
      · simp [hid]

theorem finalizeRequest_books (g : Governor) (request : RequestId) (workload : WorkloadId) :
    (g.finalizeRequest request workload).2.consumedOf = g.consumedOf ∧
      (∀ h ∈ g.history, h ∈ (g.finalizeRequest request workload).2.history) ∧
      ((g.finalizeRequest request workload).1 = .ok .ok →
        ∃ h ∈ (g.finalizeRequest request workload).2.history, h.request = request) := by
  have hcase := g.finalizeRequest_cases request workload
  generalize g.finalizeRequest request workload = x at hcase ⊢
  cases hcase with
  | done h hmem hrequest => exact ⟨rfl, fun _ hh => hh, fun _ => ⟨h, hmem, hrequest⟩⟩
  | refused result hresult => exact ⟨rfl, fun _ hh => hh, fun hok => absurd hok hresult⟩
  | appended h hrequest =>
      exact ⟨rfl, fun _ hh => List.mem_append_left _ hh, fun _ => ⟨h, by simp, hrequest⟩⟩

end Governor

namespace Coordinator

theorem charging_cases {c : Coordinator} {e : Event} {x : ℕ × BudgetReservation}
    (h : x ∈ c.charging e) : ∃ token, c.sessions x.1 = .copied .commit token x.2 := by
  cases e with
  | message s m => cases h
  | resume s saved =>
      dsimp only [charging] at h
      split at h
      · next token r hst =>
          split_ifs at h
          · cases List.mem_singleton.1 h
            exact ⟨token, hst⟩
          · cases h
      · cases h

theorem callOf_books (g : Governor) (m : Message) :
    (applyCall g (callOf m)).consumedOf = g.consumedOf ∧
      ∀ h ∈ g.history, h ∈ (applyCall g (callOf m)).history := by
  cases m with
  | publishPrice obs =>
      have h := g.publishPrice_cases obs
      change (g.publishPrice obs).2.consumedOf = _ ∧ ∀ h ∈ _, h ∈ (g.publishPrice obs).2.history
      generalize g.publishPrice obs = x at h ⊢
      cases h <;> exact ⟨rfl, fun _ hh => hh⟩
  | recordAttempt e =>
      have h := g.recordAttempt_cases e
      change (g.recordAttempt e).2.consumedOf = _ ∧ ∀ h ∈ _, h ∈ (g.recordAttempt e).2.history
      generalize g.recordAttempt e = x at h ⊢
      cases h <;> exact ⟨rfl, fun _ hh => hh⟩
  | reserve budget gen epoch amount =>
      have h := g.reserve_books budget gen epoch amount
      exact ⟨h.consumed, fun _ hh => h.history.symm ▸ hh⟩
  | realize request workload =>
      have h := g.finalizeRequest_books request workload
      exact ⟨h.1, h.2.1⟩
  | _ => exact ⟨rfl, fun _ hh => hh⟩

/-- A step consumes what the COMMIT it answers asks for, and history only grows. -/
theorem step_books {c : Coordinator} {e : Event}
    (hactive : ∀ s saved token r, e = .resume s saved → c.sessions s = .copied .commit token r →
      r.state = .active) :
    (∀ id, (c.step e).gov.consumedOf id =
      c.gov.consumedOf id + totalFor id ((c.charging e).map Prod.snd)) ∧
      ∀ h ∈ c.gov.history, h ∈ (c.step e).gov.history := by
  rw [step_gov]
  cases e with
  | message s m =>
      have hbooks := callOf_books c.gov m
      change (∀ id, _ = _ + totalFor id []) ∧ _
      simp only [totalFor, tally_nil, add_zero]
      dsimp only [governorCall]
      split
      · exact ⟨congrFun hbooks.1, hbooks.2⟩
      · exact ⟨fun _ => rfl, fun _ hh => hh⟩
  | resume s saved =>
      dsimp only [governorCall, charging]
      cases hst : c.sessions s with
      | copied kind token r =>
          cases kind with
          | commit =>
              obtain ⟨hhistory, hconsumed⟩ := c.gov.commit_books (hactive s saved token r rfl hst)
              refine ⟨fun id => (hconsumed id).trans ?_, fun _ hh => hhistory.symm ▸ hh⟩
              dsimp only
              by_cases hok : (c.gov.commit r).1 = .ok .ok
              · simp [hok, totalFor, tally_cons, entry, eq_comm]
              · simp [hok, totalFor]
          | release =>
              have hbooks := c.gov.release_books r
              refine ⟨fun id => ?_, fun _ hh => hbooks.history.symm ▸ hh⟩
              exact (congrFun hbooks.consumed id).trans (add_zero _).symm
      | _ => exact ⟨fun id => (add_zero _).symm, fun _ hh => hh⟩

theorem savedConsumed_nonneg {file : Option DurableSnapshot}
    (h : ∀ snap, file = some snap → ∀ b ∈ snap.budgets, 0 ≤ b.consumed.toInt) (id : BudgetId) :
    0 ≤ savedConsumed file id := by
  cases file with
  | none => exact le_rfl
  | some snap =>
      change 0 ≤ (snap.budgets.find? (fun b => b.id = id)).elim 0 _
      cases hfound : snap.budgets.find? (fun b => b.id = id) with
      | none => exact le_rfl
      | some b => exact h snap rfl b (List.mem_of_find?_eq_some hfound)

theorem consumedOf_boot (file : Option DurableSnapshot) (id : BudgetId) :
    (boot file).gov.consumedOf id = savedConsumed file id := by
  cases file with
  | none =>
      change ((HashedMap.empty.emplace _ _).find? id).elim 0 _ = 0
      rw [HashedMap.find?_emplace]
      split_ifs <;> rfl
  | some snap =>
      change ((startGovernor.restore snap).budgets.find? id).elim 0 _ =
        (snap.budgets.find? (fun b => b.id = id)).elim 0 _
      rw [Governor.find?_restore_budgets]
      cases snap.budgets.find? (fun b => b.id = id) with
      | none => rfl
      | some b => exact congrArg MoneyMicros.toInt (Governor.recoveredBudget_accounting b).2.2

theorem history_boot (file : Option DurableSnapshot) :
    (boot file).gov.history = savedHistory file := by
  cases file <;> rfl

end Coordinator

end CostGovernor
