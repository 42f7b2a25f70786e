import CostGovernor.Operations
import CostGovernor.Executions

/-!
# No spending after expiry

`reserve` and `consume` look at the expiry of the budget, `commit` at the expiry that was
copied into the handle when it was granted. A budget keeps its expiry for as long as it
is in the map, so the two agree for every handle that `reserve` returned, however often
the handle has been copied since.
-/

namespace CostGovernor

open Executions

/-- A governor and every reservation it has granted so far, as it was granted. -/
structure Issuer where
  gov : Governor
  granted : List BudgetReservation := []

namespace Issuer

def start (now : Int64) : Issuer := { gov := Governor.fresh now }

def grantOf (g : Governor) : Op → Option BudgetReservation
  | .reserve budget gen epoch amount => (g.reserve budget gen epoch amount).2.1
  | _ => none

def step (s : Issuer) (op : Op) : Issuer :=
  { gov := s.gov.apply op, granted := s.granted ++ (grantOf s.gov op).toList }

/-- The handle a call presents is a copy of a granted one; copies differ in their state
only. -/
def PresentsGrant (s : Issuer) (op : Op) : Prop :=
  ∀ r, op.handle = some r → ∃ granted ∈ s.granted, ∃ state, r = { granted with state := state }

/-- The call neither reserves from a budget that is past its expiry nor charges it. -/
def SparesExpired (s : Issuer) (op : Op) : Prop :=
  ∀ id b, s.gov.budgets.find? id = some b → b.pastExpiry s.gov.now = true →
    (∀ gen epoch amount, op = .reserve id gen epoch amount →
      (s.gov.exec op).1.returnedOk = false) ∧
    ∃ b', (s.gov.apply op).budgets.find? id = some b' ∧ b'.consumed = b.consumed

end Issuer

namespace Governor

theorem BudgetChange.expiresAtMs {g : Governor} {op : Op} {b b' : Budget}
    (h : BudgetChange g op b b') : b'.expiresAtMs = b.expiresAtMs := by
  cases h <;> rfl

theorem find?_set_consumed {m : HashedMap BudgetId Budget} {key id : BudgetId} {c c' b : Budget}
    (hfound : m.find? key = some c) (hb : m.find? id = some b)
    (hsame : key = id → c'.consumed = c.consumed) :
    ∃ b', (m.set key c').find? id = some b' ∧ b'.consumed = b.consumed := by
  rw [HashedMap.find?_set]
  split_ifs with hid
  · rw [hid, hfound] at hb
    exact ⟨c', rfl, (hsame hid.symm).trans (congrArg Budget.consumed (Option.some.inj hb))⟩
  · exact ⟨b, hb, rfl⟩

section PastExpiry

variable {g : Governor} {id : BudgetId} {b : Budget}

theorem reserve_pastExpiry (hb : g.budgets.find? id = some b) (hpast : b.pastExpiry g.now = true)
    (gen : BudgetGeneration) (epoch : CoordinatorEpoch) (amount : MoneyMicros) :
    (g.exec (.reserve id gen epoch amount)).1.returnedOk = false := by
  unfold exec
  dsimp only
  have h := g.reserve_cases id gen epoch amount
  generalize g.reserve id gen epoch amount = x at h ⊢
  cases h with
  | refused st hst => exact Reply.returnedOk_handle hst _
  | threw => rfl
  | expired => rfl
  | granted c _ hg =>
      rw [← Option.some.inj (hg.found.symm.trans hb), hg.notExpired] at hpast
      cases hpast

/-- A commit charges the budget only before the handle's expiry. -/
theorem commit_consumed (hb : g.budgets.find? id = some b) (hpast : b.pastExpiry g.now = true)
    {r : BudgetReservation} (hr : r.budget = id → r.expiresAtMs = b.expiresAtMs) :
    ∃ b', (g.commit r).2.2.budgets.find? id = some b' ∧ b'.consumed = b.consumed := by
  have h := g.commit_cases r
  generalize g.commit r = x at h ⊢
  cases h with
  | refused => exact ⟨b, hb, rfl⟩
  | settled => exact ⟨b, hb, rfl⟩
  | threw => exact ⟨b, hb, rfl⟩
  | expiryThrew _ c reserved hm => exact find?_set_consumed hm.found hb (fun _ => rfl)
  | expired c reserved released hm => exact find?_set_consumed hm.found hb (fun _ => rfl)
  | committed c reserved consumed hm _ hcurrent =>
      refine find?_set_consumed hm.found hb (fun hid => ?_)
      have hlate : r.pastExpiry g.now = b.pastExpiry g.now := by
        rw [BudgetReservation.pastExpiry, Budget.pastExpiry, hr hid]
      rw [hcurrent, hpast] at hlate
      cases hlate

theorem consume_consumed (hb : g.budgets.find? id = some b) (hpast : b.pastExpiry g.now = true)
    (budget : BudgetId) (gen : BudgetGeneration) (epoch : CoordinatorEpoch) (amount : MoneyMicros) :
    ∃ b', (g.consume budget gen epoch amount).2.budgets.find? id = some b' ∧
      b'.consumed = b.consumed := by
  have h := g.consume_cases budget gen epoch amount
  generalize g.consume budget gen epoch amount = x at h ⊢
  cases h with
  | refused => exact ⟨b, hb, rfl⟩
  | threw => exact ⟨b, hb, rfl⟩
  | expired c hc => exact find?_set_consumed hc.found hb (fun _ => rfl)
  | charged c consumed hc hcurrent =>
      refine find?_set_consumed hc.found hb (fun hid => ?_)
      subst hid
      rw [← Option.some.inj (hc.found.symm.trans hb), hcurrent] at hpast
      cases hpast

theorem reserve_consumed (hb : g.budgets.find? id = some b) (budget : BudgetId)
    (gen : BudgetGeneration) (epoch : CoordinatorEpoch) (amount : MoneyMicros) :
    ∃ b', (g.reserve budget gen epoch amount).2.2.budgets.find? id = some b' ∧
      b'.consumed = b.consumed := by
  have h := g.reserve_cases budget gen epoch amount
  generalize g.reserve budget gen epoch amount = x at h ⊢
  cases h with
  | refused => exact ⟨b, hb, rfl⟩
  | threw => exact ⟨b, hb, rfl⟩
  | expired c hfound => exact find?_set_consumed hfound hb (fun _ => rfl)
  | granted c _ hg => exact find?_set_consumed hg.found hb (fun _ => rfl)

theorem release_consumed (hb : g.budgets.find? id = some b) (r : BudgetReservation) :
    ∃ b', (g.release r).2.2.budgets.find? id = some b' ∧ b'.consumed = b.consumed := by
  have h := g.release_cases r
  generalize g.release r = x at h ⊢
  cases h with
  | refused => exact ⟨b, hb, rfl⟩
  | settled => exact ⟨b, hb, rfl⟩
  | threw => exact ⟨b, hb, rfl⟩
  | halfThrew _ c reserved hm => exact find?_set_consumed hm.found hb (fun _ => rfl)
  | released c reserved released hm => exact find?_set_consumed hm.found hb (fun _ => rfl)

theorem createBudget_consumed (hb : g.budgets.find? id = some b) (budget : Budget) :
    ∃ b', (g.createBudget budget).2.budgets.find? id = some b' ∧ b'.consumed = b.consumed := by
  have h := g.createBudget_cases budget
  generalize g.createBudget budget = x at h ⊢
  cases h with
  | refused => exact ⟨b, hb, rfl⟩
  | created _ _ hnew =>
      refine ⟨b, ?_, rfl⟩
      rw [HashedMap.find?_emplace, if_neg, hb]
      rintro ⟨rfl, _⟩
      rw [hnew] at hb
      cases hb

end PastExpiry

end Governor

namespace Issuer

/-- Every granted reservation carries the expiry of the budget it was granted from. -/
def Faithful (s : Issuer) : Prop :=
  ∀ r ∈ s.granted, ∃ b, s.gov.budgets.find? r.budget = some b ∧ b.expiresAtMs = r.expiresAtMs

theorem faithful_start (now : Int64) : (start now).Faithful := by
  intro r hr
  cases hr

theorem faithful_grant {g : Governor} {op : Op} {r : BudgetReservation}
    (h : grantOf g op = some r) :
    ∃ b, (g.apply op).budgets.find? r.budget = some b ∧ b.expiresAtMs = r.expiresAtMs := by
  cases op with
  | reserve budget gen epoch amount =>
      change (g.reserve budget gen epoch amount).2.1 = some r at h
      change ∃ b, (g.reserve budget gen epoch amount).2.2.budgets.find? r.budget = some b ∧ _
      have hcases := g.reserve_cases budget gen epoch amount
      generalize g.reserve budget gen epoch amount = x at h hcases ⊢
      cases hcases with
      | refused => cases h
      | threw => cases h
      | expired => cases h
      | granted b reservedAfter hg =>
          cases h
          exact ⟨_, (HashedMap.find?_set _ _ _ _).trans (if_pos rfl), rfl⟩
  | _ => cases h

theorem Faithful.step {s : Issuer} (h : s.Faithful) (op : Op) : (s.step op).Faithful := by
  intro r hr
  rcases List.mem_append.1 hr with hold | hnew
  · obtain ⟨b, hb, hexpiry⟩ := h r hold
    obtain ⟨b', hb', hchange⟩ := (s.gov.exec_budgets op).find?_of_some hb
    refine ⟨b', hb', ?_⟩
    rcases hchange with rfl | hchange
    · exact hexpiry
    · exact hchange.expiresAtMs.trans hexpiry
  · exact faithful_grant (by simpa using hnew)

/-- A copy of a grant still expires with its budget. -/
theorem Faithful.expiresAtMs {s : Issuer} (h : s.Faithful) {op : Op} (hop : s.PresentsGrant op)
    {r : BudgetReservation} (hr : op.handle = some r) {b : Budget}
    (hb : s.gov.budgets.find? r.budget = some b) : r.expiresAtMs = b.expiresAtMs := by
  obtain ⟨granted, hmem, state, rfl⟩ := hop r hr
  obtain ⟨b', hb', hexpiry⟩ := h granted hmem
  exact hexpiry.symm.trans (congrArg Budget.expiresAtMs (Option.some.inj (hb'.symm.trans hb)))

theorem Faithful.consumed {s : Issuer} (h : s.Faithful) {op : Op} (hop : s.PresentsGrant op)
    {id : BudgetId} {b : Budget} (hb : s.gov.budgets.find? id = some b)
    (hpast : b.pastExpiry s.gov.now = true) :
    ∃ b', (s.gov.apply op).budgets.find? id = some b' ∧ b'.consumed = b.consumed := by
  by_cases hcall : op.isBudgetCall = false
  · rw [s.gov.apply_budgets_of_not_budgetCall hcall]
    exact ⟨b, hb, rfl⟩
  cases op with
  | createBudget budget => exact Governor.createBudget_consumed hb budget
  | reserve budget gen epoch amount => exact Governor.reserve_consumed hb budget gen epoch amount
  | commit r =>
      refine Governor.commit_consumed hb hpast (fun hid => ?_)
      exact h.expiresAtMs hop rfl (hid ▸ hb)
  | release r => exact Governor.release_consumed hb r
  | consume budget gen epoch amount =>
      exact Governor.consume_consumed hb hpast budget gen epoch amount
  | _ => exact absurd rfl hcall

theorem Faithful.sparesExpired {s : Issuer} (h : s.Faithful) {op : Op} (hop : s.PresentsGrant op) :
    s.SparesExpired op := by
  intro id b hb hpast
  refine ⟨?_, h.consumed hop hb hpast⟩
  rintro gen epoch amount rfl
  exact Governor.reserve_pastExpiry hb hpast gen epoch amount

end Issuer

/-- In every run of calls on handles that `reserve` granted, no call reserves from a
budget past its expiry or charges it. -/
theorem no_spending_after_expiry (now : Int64) (ops : List Op)
    (h : Along Issuer.step Issuer.PresentsGrant (Issuer.start now) ops) :
    Along Issuer.step Issuer.SparesExpired (Issuer.start now) ops :=
  along_of_invariant (fun _ op hs _ => hs.step op) (fun _ _ hs hop => hs.sparesExpired hop)
    (Issuer.faithful_start now) h

def lateCommits : List Op :=
  [.createBudget {
      id := ⟨1⟩, generation := ⟨1⟩, policyGeneration := ⟨1⟩, epoch := ⟨1⟩, limit := ⟨10⟩
      expiresAtMs := 5 },
    .reserve ⟨1⟩ ⟨1⟩ ⟨1⟩ ⟨4⟩, .setClock 10,
    .commit { id := ⟨1⟩, budget := ⟨1⟩, budgetGeneration := ⟨1⟩, epoch := ⟨1⟩, amount := ⟨4⟩
              expiresAtMs := 5 },
    .commit { id := ⟨1⟩, budget := ⟨1⟩, budgetGeneration := ⟨1⟩, epoch := ⟨1⟩, amount := ⟨4⟩
              expiresAtMs := 5 }]

theorem no_spending_after_expiry_lateCommits :
    Along Issuer.step Issuer.SparesExpired (Issuer.start 0) lateCommits := by
  apply no_spending_after_expiry
  refine ⟨?_, ?_, ?_, ?_, ?_, trivial⟩
  · exact fun r hr => nomatch hr
  · exact fun r hr => nomatch hr
  · exact fun r hr => nomatch hr
  · intro r hr
    cases hr
    exact ⟨_, List.mem_singleton_self _, .active, rfl⟩
  · intro r hr
    cases hr
    exact ⟨_, List.mem_singleton_self _, .active, rfl⟩

end CostGovernor
