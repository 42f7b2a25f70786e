import CostGovernor.Client
import CostGovernor.Codec

/-!
# Calls and the RESERVED lifecycle

What each call can do to a budget that is RESERVED: `reserve` makes it so, `release` keeps
it so for as long as the governor's own copy of some grant is ACTIVE, and `commit` leaves
the lifecycle alone when it finds its handle expired.
-/

namespace CostGovernor

open Executions Governor

namespace Governor

def Reserved (g : Governor) (id : BudgetId) : Prop :=
  ∃ b, g.budgets.find? id = some b ∧ b.lifecycle = .reserved

theorem reserved_iff {g : Governor} {id : BudgetId} :
    g.Reserved id ↔ (g.budgets.find? id).map Budget.lifecycle = some .reserved :=
  Option.map_eq_some_iff.symm

instance (g : Governor) (id : BudgetId) : Decidable (g.Reserved id) :=
  decidable_of_iff _ reserved_iff.symm

theorem Reserved.of_budgets {g g' : Governor} {id : BudgetId} (h : g'.Reserved id)
    (hbudgets : g'.budgets = g.budgets) : g.Reserved id := by
  unfold Reserved at h
  rwa [hbudgets] at h

theorem Reserved.of_set {g g' : Governor} {key id : BudgetId} {c : Budget} (h : g'.Reserved id)
    (hbudgets : g'.budgets = g.budgets.set key c) :
    id = key ∧ c.lifecycle = .reserved ∨ id ≠ key ∧ g.Reserved id := by
  obtain ⟨b, hb, hlifecycle⟩ := h
  rw [hbudgets, HashedMap.find?_set] at hb
  split_ifs at hb with hid
  · exact .inl ⟨hid, Option.some.inj hb ▸ hlifecycle⟩
  · exact .inr ⟨hid, b, hb, hlifecycle⟩

/-- A budget that keeps its lifecycle is RESERVED only if it was. -/
theorem Reserved.of_set_same {g g' : Governor} {key id : BudgetId} {b c : Budget}
    (h : g'.Reserved id) (hbudgets : g'.budgets = g.budgets.set key c)
    (hb : g.budgets.find? key = some b) (hsame : c.lifecycle = b.lifecycle) : g.Reserved id := by
  rcases h.of_set hbudgets with ⟨rfl, hreserved⟩ | ⟨_, hold⟩
  · exact ⟨b, hb, hsame.symm.trans hreserved⟩
  · exact hold

theorem Reserved.of_set_other {g g' : Governor} {key id : BudgetId} {c : Budget}
    (h : g'.Reserved id) (hbudgets : g'.budgets = g.budgets.set key c)
    (hc : c.lifecycle ≠ .reserved) : id ≠ key ∧ g.Reserved id := by
  rcases h.of_set hbudgets with ⟨_, hreserved⟩ | hold
  · exact absurd hreserved hc
  · exact hold

theorem lifecycleAfterCharge_ne_reserved (consumed limit : MoneyMicros) :
    Budget.lifecycleAfterCharge consumed limit ≠ .reserved := by
  unfold Budget.lifecycleAfterCharge
  split_ifs <;> simp

theorem createBudget_reserved {g : Governor} {budget : Budget} {id : BudgetId}
    (h : (g.createBudget budget).2.Reserved id) : g.Reserved id := by
  have hcases := g.createBudget_cases budget
  generalize g.createBudget budget = x at h hcases
  cases hcases with
  | refused => exact h
  | created =>
      obtain ⟨b, hb, hlifecycle⟩ := h
      change (g.budgets.emplace budget.id _).find? id = some b at hb
      rw [HashedMap.find?_emplace] at hb
      split_ifs at hb with hnew
      · rw [← Option.some.inj hb] at hlifecycle
        cases hlifecycle
      · exact ⟨b, hb, hlifecycle⟩

theorem consume_reserved {g : Governor} {budget : BudgetId} {gen : BudgetGeneration}
    {epoch : CoordinatorEpoch} {amount : MoneyMicros} {id : BudgetId}
    (h : (g.consume budget gen epoch amount).2.Reserved id) : g.Reserved id := by
  have hcases := g.consume_cases budget gen epoch amount
  generalize g.consume budget gen epoch amount = x at h hcases
  cases hcases with
  | refused => exact h
  | threw => exact h
  | expired b _ _ => exact (h.of_set_other rfl nofun).2
  | charged b consumed _ _ _ _ =>
      exact (h.of_set_other rfl (lifecycleAfterCharge_ne_reserved _ _)).2

/-- Only a grant makes a budget RESERVED that was not. -/
theorem reserve_reserved {g : Governor} {budget : BudgetId} {gen : BudgetGeneration}
    {epoch : CoordinatorEpoch} {amount : MoneyMicros} {id : BudgetId}
    (h : (g.reserve budget gen epoch amount).2.2.Reserved id) :
    g.Reserved id ∨ ∃ r, (g.reserve budget gen epoch amount).2.1 = some r ∧
      r.budget = id ∧ r.state = .active := by
  have hcases := g.reserve_cases budget gen epoch amount
  generalize g.reserve budget gen epoch amount = x at h hcases ⊢
  cases hcases with
  | refused => exact .inl h
  | threw => exact .inl h
  | expired b _ _ _ => exact .inl (h.of_set_other rfl nofun).2
  | granted b reservedAfter _ =>
      rcases h.of_set rfl with ⟨rfl, _⟩ | ⟨_, hold⟩
      · exact .inr ⟨_, rfl, rfl, rfl⟩
      · exact .inl hold

theorem Reserved.of_matches {g : Governor} {r : BudgetReservation} {b : Budget} {id : BudgetId}
    (h : g.Reserved id) (hm : HandleMatches g r b) :
    id ≠ r.budget ∧ g.Reserved id ∨ id = r.budget ∧ b.lifecycle = .reserved := by
  by_cases hid : id = r.budget
  · obtain ⟨c, hc, hreserved⟩ := h
    rw [hid, hm.found] at hc
    exact .inr ⟨hid, Option.some.inj hc ▸ hreserved⟩
  · exact .inl ⟨hid, h⟩

inductive SettleEffect (g : Governor) (r : BudgetReservation) (Stays : Budget → Prop) :
    HandleResult → Prop
  | kept (result : Except Exn Status) (g' : Governor)
      (hafter : ∀ id, g'.Reserved id → g.Reserved id) : SettleEffect g r Stays (result, r, g')
  | settled (result : Except Exn Status) (r' : BudgetReservation) (g' : Governor)
      (hafter : ∀ id, g'.Reserved id → id ≠ r.budget ∧ g.Reserved id ∨
        id = r.budget ∧ ∃ b, HandleMatches g r b ∧ Stays b) :
      SettleEffect g r Stays (result, r', g')

/-- Also a commit that throws has noted the expiry in its handle. -/
theorem commit_expired {g : Governor} {r : BudgetReservation} (hactive : r.state = .active)
    (h : (g.commit r).2.1.state = .expired) :
    ∃ b, HandleMatches g r b ∧ r.pastExpiry g.now = true := by
  have hkeeps : r.state ≠ .expired := by simp [hactive]
  unfold commit at h
  cases hb : g.budgets.find? r.budget with
  | none =>
      rw [hb] at h
      exact absurd h hkeeps
  | some b =>
      simp only [hb] at h
      split_ifs at h with hgen hepoch hcurrent hstate hlive hpast
      · exact absurd h hkeeps
      · exact absurd h hkeeps
      · exact absurd h hkeeps
      · exact absurd h hkeeps
      · exact absurd h hkeeps
      · exact ⟨b, ⟨hb, by simpa using hgen, by simpa using hepoch, hactive⟩, hpast⟩
      · cases hadd : b.consumed.add r.amount with
        | error e =>
            rw [hadd] at h
            exact absurd h hkeeps
        | ok consumed =>
            simp only [hadd] at h
            split_ifs at h with hcap
            · exact absurd h hkeeps
            · cases hsub : b.reserved.sub r.amount with
              | error e =>
                  rw [hsub] at h
                  exact absurd h hkeeps
              | ok reserved =>
                  rw [hsub] at h
                  cases h

theorem commit_reserved (g : Governor) (r : BudgetReservation) :
    SettleEffect g r (fun b => b.lifecycle = .reserved ∧ r.pastExpiry g.now = true)
      (g.commit r) := by
  have hexpired := commit_expired (g := g) (r := r)
  have h := g.commit_cases r
  generalize g.commit r = x at h hexpired ⊢
  cases h with
  | refused st _ => exact .kept _ _ fun _ hid => hid
  | settled _ _ => exact .kept _ _ fun _ hid => hid
  | threw e r' hactive hr =>
      rcases hr with rfl | rfl
      · exact .kept _ _ fun _ hid => hid
      · obtain ⟨b, hm, hpast⟩ := hexpired hactive rfl
        refine .settled _ _ _ fun id hid => ?_
        exact (hid.of_matches hm).imp_right fun hb => ⟨hb.1, b, hm, hb.2, hpast⟩
  | expiryThrew e b reserved hm _ hpast _ _ =>
      refine .settled _ _ _ fun id hid => ?_
      exact ((hid.of_set_same rfl hm.found rfl).of_matches hm).imp_right
        fun hb => ⟨hb.1, b, hm, hb.2, hpast⟩
  | expired b reserved released hm _ hpast _ _ =>
      refine .settled _ _ _ fun id hid => ?_
      exact ((hid.of_set_same rfl hm.found rfl).of_matches hm).imp_right
        fun hb => ⟨hb.1, b, hm, hb.2, hpast⟩
  | committed b reserved consumed hm _ _ _ _ _ =>
      refine .settled _ _ _ fun id hid => .inl ?_
      exact hid.of_set_other rfl (lifecycleAfterCharge_ne_reserved _ _)

theorem release_reserved (g : Governor) (r : BudgetReservation) :
    SettleEffect g r (fun _ => True) (g.release r) := by
  have h := g.release_cases r
  generalize g.release r = x at h ⊢
  cases h with
  | refused st _ => exact .kept _ _ fun _ hid => hid
  | settled _ _ => exact .kept _ _ fun _ hid => hid
  | threw e _ => exact .kept _ _ fun _ hid => hid
  | halfThrew e b reserved hm _ _ =>
      exact .kept _ _ fun _ hid => hid.of_set_same rfl hm.found rfl
  | released b reserved released hm _ _ _ =>
      -- whatever the stored copies say, only this budget can have become RESERVED
      refine .settled _ _ _ fun id hid => ?_
      rcases hid.of_set rfl with ⟨hsame, _⟩ | hold
      · exact .inr ⟨hsame, b, hm, trivial⟩
      · exact .inl hold

/-- A restored budget is RESERVED only if it was charged or released to before. -/
theorem restore_reserved {g : Governor} {snap : DurableSnapshot} {id : BudgetId}
    (h : (g.restore snap).Reserved id) :
    ∃ b ∈ snap.budgets, b.lifecycle = .reserved ∧ ¬ (b.consumed = ⟨0⟩ ∧ b.released = ⟨0⟩) := by
  obtain ⟨b, hb, hreserved⟩ := h
  obtain ⟨saved, hsaved, rfl⟩ := restore_budgets_find? hb
  unfold recoveredBudget at hreserved
  split_ifs at hreserved with huntouched
  refine ⟨saved, hsaved, hreserved, fun hzero => huntouched ?_⟩
  rw [hzero.1, hzero.2]
  exact ⟨rfl, rfl, hreserved⟩

end Governor

end CostGovernor
