import CostGovernor.Books
import CostGovernor.HardCap
import CostGovernor.RecoveredBudgets

/-!
# The charges of an incarnation

A step charges the reservation of an ACTIVE copy whose COMMIT is answered OK, and the
consumed totals grow by exactly that. An incarnation that started without a state file has
one budget of one unit, so it charges no more than that.
-/

namespace CostGovernor

open Executions Tallies Coordinator

namespace Coordinator

/-- The reservation a step charges: an ACTIVE copy whose COMMIT the governor answers OK. -/
def charge (c : Coordinator) : Life → Option BudgetReservation
  | .event (.resume s _) =>
    match c.sessions s with
    | .copied .commit _ r =>
      if r.state = .active ∧ (c.gov.commit r).1 = .ok .ok then some r else none
    | _ => none
  | _ => none

def losesAll (c : Coordinator) : Life → Bool
  | .crash => c.file.isNone
  | .event _ => false

end Coordinator

def freshStarts (ls : List Life) : ℕ := countAlong live losesAll (boot none) ls + 1

def amountsTotal (rs : List BudgetReservation) : ℤ := (rs.map fun r => r.amount.toInt).sum

def chargedTotal (ls : List Life) : ℤ := amountsTotal (observed live charge (boot none) ls)

section Charges

theorem amountsTotal_append (rs rs' : List BudgetReservation) :
    amountsTotal (rs ++ rs') = amountsTotal rs + amountsTotal rs' := by
  rw [amountsTotal, List.map_append, List.sum_append]
  rfl

theorem Governor.commit_of_settled (g : Governor) {r : BudgetReservation}
    (h : r.state ≠ .active) : (g.commit r).2.2 = g := by
  have hcase := g.commit_cases r
  generalize g.commit r = x at hcase ⊢
  cases hcase with
  | refused => rfl
  | settled => rfl
  | threw => rfl
  | expiryThrew e b reserved hm => exact absurd hm.active h
  | expired b reserved released hm => exact absurd hm.active h
  | committed b reserved consumed hm => exact absurd hm.active h

theorem Governor.commit_found {g : Governor} {r : BudgetReservation}
    (h : (g.commit r).1 = .ok .ok) : ∃ b, g.budgets.find? r.budget = some b := by
  cases hb : g.budgets.find? r.budget with
  | some b => exact ⟨b, rfl⟩
  | none =>
      rw [Governor.commit, hb] at h
      cases h

variable {c : Coordinator}

theorem charge_found {l : Life} {r : BudgetReservation} (h : c.charge l = some r) :
    ∃ b, c.gov.budgets.find? r.budget = some b := by
  cases l with
  | crash => cases h
  | event e =>
      cases e with
      | message s m => cases h
      | resume s saved =>
          dsimp only [charge] at h
          split at h
          · split_ifs at h with hok
            cases h
            exact Governor.commit_found hok.2
          · cases h

theorem charge_eq_none_of_pendingCall (h : ∀ s, pendingCall (c.sessions s) = none) (l : Life) :
    c.charge l = none := by
  cases l with
  | crash => rfl
  | event e =>
      cases e with
      | message s m => rfl
      | resume s saved =>
          have hnone := h s
          dsimp only [charge]
          split
          · next hst =>
              rw [hst] at hnone
              cases hnone
          · rfl

theorem charge_toList_eq_charging {e : Event}
    (hactive : ∀ s saved token r, e = .resume s saved → c.sessions s = .copied .commit token r →
      r.state = .active) :
    (c.charge (.event e)).toList = (c.charging e).map Prod.snd := by
  cases e with
  | message s m => rfl
  | resume s saved =>
      dsimp only [charge, charging]
      cases hst : c.sessions s with
      | copied kind token r =>
          cases kind with
          | release => rfl
          | commit =>
              have hr := hactive s saved token r rfl hst
              by_cases hok : (c.gov.commit r).1 = .ok .ok
              · simp [hr, hok]
              · simp [hok]
      | _ => rfl

/-- A step adds to a consumed total what it charges, also when a settled copy is presented
again. -/
theorem step_consumed (c : Coordinator) (e : Event) (id : BudgetId) :
    (c.step e).gov.consumedOf id =
      c.gov.consumedOf id + totalFor id (c.charge (.event e)).toList := by
  by_cases hactive : ∀ s saved token r, e = .resume s saved →
      c.sessions s = .copied .commit token r → r.state = .active
  · rw [charge_toList_eq_charging hactive]
    exact (step_books hactive).1 id
  · push Not at hactive
    obtain ⟨s, saved, token, r, rfl, hst, hsettled⟩ := hactive
    have hgov : (c.step (.resume s saved)).gov = c.gov := by
      rw [step_gov, governorCall, hst]
      exact c.gov.commit_of_settled hsettled
    have hnone : c.charge (.event (.resume s saved)) = none := by
      rw [charge, hst]
      exact if_neg fun h => hsettled h.1
    rw [hgov, hnone]
    exact (add_zero _).symm

end Charges

section Unrecovered

structure Unrecovered (k : ℕ) (c : Coordinator) : Prop where
  first : FirstBudgets k c
  single : ∀ id b, c.gov.budgets.find? id = some b → id = ⟨1⟩
  terms : ∀ id b, c.gov.budgets.find? id = some b →
    (b.mode = .hard ∧ b.limit = MoneyMicros.fromUnits 1) ∧ b.WithinCap

variable {k : ℕ} {c : Coordinator}

theorem unrecovered_boot (hk : k + 1 < 2 ^ 64) : Unrecovered (k + 1) (boot none) := by
  have hfirst : FirstBudgets (k + 1) (boot none) := firstBudgets_boot hk fun _ h => nomatch h
  have hbudget : ∀ id b, (boot none).gov.budgets.find? id = some b → id = ⟨1⟩ ∧
      b = { id := ⟨1⟩, generation := ⟨1⟩, policyGeneration := ⟨1⟩, epoch := ⟨1⟩
            limit := MoneyMicros.fromUnits 1, mode := .hard, lifecycle := .active } := by
    intro id b hb
    change (HashedMap.empty.emplace _ _).find? id = some b at hb
    rw [HashedMap.find?_emplace] at hb
    split_ifs at hb with hid
    · exact ⟨hid.1, (Option.some.inj hb).symm⟩
    · cases hb
  refine ⟨hfirst, fun id b hb => (hbudget id b hb).1, fun id b hb => ?_⟩
  rw [(hbudget id b hb).2]
  exact ⟨⟨rfl, rfl⟩, fun _ => by decide⟩

theorem Unrecovered.event (h : Unrecovered k c) (e : Event) : Unrecovered k (c.step e) := by
  refine ⟨h.first.event e, ?_, ?_⟩
  · rw [step_gov]
    cases hcall : c.governorCall e with
    | none => exact h.single
    | some op =>
        intro id b hb
        cases hold : c.gov.budgets.find? id with
        | some old => exact h.single id old hold
        | none =>
            -- A coordinator creates no budget after its start.
            refine absurd hb ?_
            change (c.gov.apply op).budgets.find? id ≠ some b
            have heffect := c.gov.exec_budgets op
            generalize (c.gov.apply op).budgets = m at heffect ⊢
            cases heffect with
            | frame =>
                rw [hold]
                exact fun hno => nomatch hno
            | create b' hop =>
                rw [hop] at hcall
                exact absurd hcall (governorCall_ne_createBudget c e b')
            | update key b' b'' hfound =>
                have hne : id ≠ key := fun heq => by
                  rw [heq, hfound] at hold
                  cases hold
                rw [HashedMap.find?_set, if_neg hne, hold]
                exact fun hno => nomatch hno
  · rw [step_gov]
    cases hcall : c.governorCall e with
    | none => exact h.terms
    | some op =>
        refine (c.gov.exec_budgets op).forall_budgets (fun b hop => ?_)
          (fun b b' hchange hb => ⟨?_, hchange.withinCap hb.2⟩) h.terms
        · rw [hop] at hcall
          exact absurd hcall (governorCall_ne_createBudget c e b)
        · obtain ⟨-, -, hmode, hlimit⟩ := hchange.terms
          rw [hmode, hlimit]
          exact hb.1

theorem Unrecovered.consumed_le (h : Unrecovered k c) (id : BudgetId) :
    c.gov.consumedOf id ≤ 1000000 := by
  unfold Governor.consumedOf
  cases hb : c.gov.budgets.find? id with
  | none => exact Int.zero_le_ofNat _
  | some b =>
      obtain ⟨⟨hmode, hlimit⟩, hcap⟩ := h.terms id b hb
      have hle := (MoneyMicros.le_iff_toInt_le _ _).1 (hcap hmode)
      rw [hlimit] at hle
      exact hle

/-- What a step charges is charged to the one budget. -/
theorem Unrecovered.charged (h : Unrecovered k c) (l : Life) :
    totalFor ⟨1⟩ (c.charge l).toList = amountsTotal (c.charge l).toList := by
  cases hcharge : c.charge l with
  | none => rfl
  | some r =>
      obtain ⟨b, hb⟩ := charge_found hcharge
      have hbudget : r.budget = ⟨1⟩ := h.single r.budget b hb
      rw [totalFor, Option.toList_some, tally_cons, entry, if_pos hbudget]
      rfl

end Unrecovered

end CostGovernor
