import CostGovernor.Ledger

/-!
# What a granted reservation is worth

`reserve` weighs the reserved total against the limit and `commit` and `consume`
weigh the consumed total against it; the two totals are never added. A grant is
therefore no promise: an active handle can be committed exactly when the budget
is still live and what has been consumed in the meantime leaves room for it.
-/

namespace CostGovernor

open Executions Tallies Client

namespace Governor

/-- When a handle past its fences can be committed, on a budget with a hard cap. -/
theorem commit_ok_iff {g : Governor} {r : BudgetReservation} {b : Budget}
    (hm : HandleMatches g r b) (hepoch : b.epoch = g.epoch) (hpast : r.pastExpiry g.now = false)
    (hard : b.mode = .hard) (hamount : 0 ≤ r.amount.toInt) :
    (g.commit r).1 = .ok .ok ↔ b.isLive = true ∧
      b.consumed.toInt + r.amount.toInt ≤ b.limit.toInt ∧
      MoneyMicros.Fits (b.reserved.toInt - r.amount.toInt) := by
  have hfits : MoneyMicros.Fits (b.reserved.toInt - r.amount.toInt) ↔
      ∃ reserved, b.reserved.sub r.amount = .ok reserved := by
    rw [MoneyMicros.exists_sub_eq_ok_iff]
    exact ⟨fun h => ⟨by omega, h⟩, fun h => h.2⟩
  have hlimit := b.limit.toInt_lt
  have hlow := b.consumed.le_toInt
  rw [commit_of_matches hm hepoch hpast, hfits]
  cases hlive : b.isLive with
  | false => simp
  | true =>
      cases hadd : b.consumed.add r.amount with
      | error e =>
          have hover : ¬ b.consumed.toInt + r.amount.toInt ≤ b.limit.toInt := by
            intro hle
            obtain ⟨c, hc⟩ := (MoneyMicros.exists_add_eq_ok_iff b.consumed r.amount).2
              ⟨by omega, by omega⟩
            rw [hadd] at hc
            cases hc
          simp [hover]
      | ok consumedAfter =>
          have hsum := (MoneyMicros.add_eq_ok_iff _ _ _).1 hadd
          by_cases hcap : b.limit < consumedAfter
          · have hover : ¬ b.consumed.toInt + r.amount.toInt ≤ b.limit.toInt := by
              rw [MoneyMicros.lt_iff_toInt_lt] at hcap
              omega
            simp [hard, hcap, hover]
          · have hunder : b.consumed.toInt + r.amount.toInt ≤ b.limit.toInt := by
              rw [MoneyMicros.lt_iff_toInt_lt] at hcap
              omega
            cases hsub : b.reserved.sub r.amount with
            | error e => simp [hcap]
            | ok reserved => simp [hcap, hunder]

/-- Before its expiry a handle that is not committed stays as it is. -/
theorem commit_unchanged {g : Governor} {r : BudgetReservation} {b : Budget}
    (hm : HandleMatches g r b) (hepoch : b.epoch = g.epoch) (hpast : r.pastExpiry g.now = false)
    (h : (g.commit r).1 ≠ .ok .ok) : (g.commit r).2 = (r, g) := by
  rw [commit_of_matches hm hepoch hpast] at h ⊢
  split_ifs at h ⊢ with hlive
  · rfl
  · cases hadd : b.consumed.add r.amount with
    | error e => rfl
    | ok consumedAfter =>
        rw [hadd] at h
        dsimp only at h ⊢
        split_ifs at h ⊢ with hcap
        · rfl
        · cases hsub : b.reserved.sub r.amount with
          | error e => rfl
          | ok reserved =>
              rw [hsub] at h
              exact absurd rfl h

end Governor

/-- In every run, an active handle of a hard budget, unexpired and of the current
epoch, is committed exactly when the budget is live, `consumed` leaves room for it
and `reserved` can be lowered; the last always holds unless a call has thrown. -/
theorem granted_commit_ok_iff (now : Int64) (ops : List ClientOp)
    (hzero : ∀ b, .createBudget b ∈ ops → b.ZeroAccounting) (i : ℕ) (r : BudgetReservation)
    (hi : (run step (start now) ops).handles[i]? = some r) (hactive : r.state = .active)
    (hepoch : r.epoch = (run step (start now) ops).gov.epoch)
    (hpast : r.pastExpiry (run step (start now) ops).gov.now = false) :
    let c := run step (start now) ops
    ∃ b, c.gov.budgets.find? r.budget = some b ∧
      (c.threw = false → MoneyMicros.Fits (b.reserved.toInt - r.amount.toInt)) ∧
      (b.mode = .hard → ((c.gov.commit r).1 = .ok .ok ↔ b.isLive = true ∧
        b.consumed.toInt + r.amount.toInt ≤ b.limit.toInt ∧
        MoneyMicros.Fits (b.reserved.toInt - r.amount.toInt))) ∧
      ((c.gov.commit r).1 ≠ .ok .ok → (c.gov.commit r).2 = (r, c.gov)) := by
  intro c
  have hsound : c.Sound := sound_run now hzero
  have hmem : r ∈ c.handles := List.mem_of_getElem? hi
  obtain ⟨hamount, b, hb, hgen, hbe⟩ := hsound.grounded.handles r hmem
  have hm : Governor.HandleMatches c.gov r b := ⟨hb, hgen, hepoch, hactive⟩
  have hcurrent : b.epoch = c.gov.epoch := hbe.trans hepoch
  refine ⟨b, hb, ?_, ?_, ?_⟩
  · -- the amount is part of the active tally, which is what is reserved
    intro hok
    have hreserved := (hsound.balances hok r.budget b hb).reserved
    have hle : r.amount.toInt ≤ held c.handles r.budget .active :=
      le_tally _ _ (fun r hr => (hsound.grounded.handles r hr).1) hmem ⟨rfl, hactive⟩
    have hlt := b.reserved.toInt_lt
    exact ⟨by omega, by omega⟩
  · intro hard
    exact Governor.commit_ok_iff hm hcurrent hpast hard hamount
  · exact Governor.commit_unchanged hm hcurrent hpast

def grantThenConsume : List ClientOp :=
  [.createBudget {
      id := ⟨1⟩, generation := ⟨1⟩, policyGeneration := ⟨1⟩, epoch := ⟨1⟩, limit := ⟨10⟩ },
    .reserve ⟨1⟩ ⟨1⟩ ⟨1⟩ ⟨8⟩, .consume ⟨1⟩ ⟨1⟩ ⟨1⟩ ⟨5⟩]

theorem granted_commit_ok_iff_grantThenConsume :
    let c := run step (start 0) (grantThenConsume.take 2)
    c.threw = false ∧ ∃ r, c.handles[0]? = some r ∧ (c.gov.commit r).1 = .ok .ok := by
  intro c
  have hzero : ∀ b, .createBudget b ∈ grantThenConsume.take 2 → b.ZeroAccounting := by
    intro b hb
    simp only [grantThenConsume, List.take_succ_cons, List.take_zero, List.mem_cons,
      ClientOp.createBudget.injEq, reduceCtorEq, List.not_mem_nil, or_false] at hb
    rw [hb]
    exact ⟨rfl, rfl, rfl⟩
  obtain ⟨b, hb, hfits, hiff, -⟩ :=
    granted_commit_ok_iff 0 (grantThenConsume.take 2) hzero 0 _ rfl rfl rfl rfl
  obtain rfl := Option.some.inj hb
  exact ⟨rfl, _, rfl, (hiff rfl).2 ⟨rfl, by decide, hfits rfl⟩⟩

theorem granted_commit_exceeds_limit :
    let c := run step (start 0) grantThenConsume
    c.threw = false ∧ ∃ r b, c.handles[0]? = some r ∧ r.state = .active ∧
      r.epoch = c.gov.epoch ∧ r.pastExpiry c.gov.now = false ∧
      c.gov.budgets.find? r.budget = some b ∧ b.mode = .hard ∧
      (c.gov.commit r).1 = .ok .budgetExceeded := by
  exact ⟨rfl, _, _, rfl, rfl, rfl, rfl, rfl, rfl, rfl⟩

end CostGovernor
