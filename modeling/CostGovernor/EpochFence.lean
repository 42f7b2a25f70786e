import CostGovernor.Operations
import CostGovernor.Executions

/-!
# Epoch fencing

Six calls carry a coordinator epoch. Five of them compare it with the epoch the
governor is in. `consume` compares it with the budget's epoch only, and a budget
keeps the epoch it was created under, so a stale charge goes through.
-/

namespace CostGovernor

open Executions

def Op.carriedEpoch : Op → Option CoordinatorEpoch
  | .reserve _ _ epoch _ => some epoch
  | .commit r => some r.epoch
  | .release r => some r.epoch
  | .consume _ _ epoch _ => some epoch
  | .publishPrice obs => some obs.epoch
  | .recordAttempt e => some e.epoch
  | _ => none

namespace Governor

/-- A reply other than OK, with none of the fenced state written. -/
structure Rejected (g : Governor) (x : Reply × Governor) : Prop where
  notOk : x.1.returnedOk = false
  budgets : x.2.budgets = g.budgets
  reservations : x.2.reservations = g.reservations
  schedule : x.2.schedule = g.schedule
  attempts : x.2.attempts = g.attempts

/-- A `consume` that reaches its expiry test and then either expires the budget
or charges it, because neither an overflow nor the hard cap stands in the way. -/
def Charges (g : Governor) (op : Op) : Prop :=
  ∃ budget gen epoch amount b, op = .consume budget gen epoch amount ∧
    Chargeable g budget gen epoch amount b ∧
    (b.pastExpiry g.now = true ∨
      MoneyMicros.Fits (b.consumed.toInt + amount.toInt) ∧
        (b.mode = .hard → b.consumed.toInt + amount.toInt ≤ b.limit.toInt))

theorem rejected_unchanged {g : Governor} {reply : Reply} (h : reply.returnedOk = false) :
    Rejected g (reply, g) := ⟨h, rfl, rfl, rfl, rfl⟩

theorem reserve_rejected {g : Governor} {budget : BudgetId} {gen : BudgetGeneration}
    {epoch : CoordinatorEpoch} {amount : MoneyMicros} (hstale : epoch ≠ g.epoch) :
    Rejected g (g.exec (.reserve budget gen epoch amount)) := by
  have h := g.reserve_cases budget gen epoch amount
  unfold exec
  dsimp only
  generalize g.reserve budget gen epoch amount = x at h ⊢
  cases h with
  | refused st hst => exact rejected_unchanged (Reply.returnedOk_handle hst _)
  | threw e => exact rejected_unchanged rfl
  | expired b _ _ hcurrent => exact absurd hcurrent hstale
  | granted b reservedAfter hg => exact absurd hg.current hstale

theorem commit_rejected {g : Governor} {r : BudgetReservation} (hstale : r.epoch ≠ g.epoch) :
    Rejected g (g.exec (.commit r)) := by
  have h := g.commit_cases r
  unfold exec
  dsimp only
  generalize g.commit r = x at h ⊢
  cases h with
  | refused st hst => exact rejected_unchanged (Reply.returnedOk_handle hst _)
  | settled hepoch _ => exact absurd hepoch hstale
  | threw e r' => exact rejected_unchanged rfl
  | expiryThrew e b reserved hm => exact absurd hm.epoch hstale
  | expired b reserved released hm => exact absurd hm.epoch hstale
  | committed b reserved consumed hm => exact absurd hm.epoch hstale

theorem release_rejected {g : Governor} {r : BudgetReservation} (hstale : r.epoch ≠ g.epoch) :
    Rejected g (g.exec (.release r)) := by
  have h := g.release_cases r
  unfold exec
  dsimp only
  generalize g.release r = x at h ⊢
  cases h with
  | refused st hst => exact rejected_unchanged (Reply.returnedOk_handle hst _)
  | settled hepoch _ => exact absurd hepoch hstale
  | threw e => exact rejected_unchanged rfl
  | halfThrew e b reserved hm => exact absurd hm.epoch hstale
  | released b reserved released hm => exact absurd hm.epoch hstale

theorem publishPrice_rejected {g : Governor} {obs : PriceObservation} (hstale : obs.epoch ≠ g.epoch) :
    Rejected g (g.exec (.publishPrice obs)) := by
  have h : g.publishPrice obs = (.staleAuthority, g) := if_pos hstale
  simp only [exec, h]
  exact rejected_unchanged rfl

theorem recordAttempt_rejected {g : Governor} {e : CostEvidence} (hstale : e.epoch ≠ g.epoch) :
    Rejected g (g.exec (.recordAttempt e)) := by
  have h : g.recordAttempt e = (.staleAuthority, g) := if_pos hstale
  simp only [exec, h]
  exact rejected_unchanged rfl

theorem consume_rejected {g : Governor} {budget : BudgetId} {gen : BudgetGeneration}
    {epoch : CoordinatorEpoch} {amount : MoneyMicros}
    (hno : ¬ Charges g (.consume budget gen epoch amount)) :
    Rejected g (g.exec (.consume budget gen epoch amount)) := by
  have h := g.consume_cases budget gen epoch amount
  unfold exec
  dsimp only
  generalize g.consume budget gen epoch amount = x at h ⊢
  cases h with
  | refused st hst => exact rejected_unchanged (Reply.returnedOk_status hst)
  | threw e => exact rejected_unchanged rfl
  | expired b hc hpast =>
      exact absurd ⟨budget, gen, epoch, amount, b, rfl, hc, Or.inl hpast⟩ hno
  | charged b consumed hc _ hadd hcap =>
      refine absurd ⟨budget, gen, epoch, amount, b, rfl, hc, Or.inr ⟨?_, ?_⟩⟩ hno
      · exact (MoneyMicros.exists_toInt_eq_iff _).1 ⟨consumed, hadd⟩
      · intro hmode
        have hle : consumed.toInt ≤ b.limit.toInt := hcap hmode
        omega

/-- A charge either returns OK or turns a live budget into an expired one. -/
theorem Charges.not_rejected {g : Governor} {op : Op} (h : Charges g op) :
    ¬ Rejected g (g.exec op) := by
  obtain ⟨budget, gen, epoch, amount, b, rfl, hc, hway⟩ := h
  intro hrej
  unfold exec at hrej
  dsimp only at hrej
  rw [consume_of_chargeable hc] at hrej
  by_cases hpast : b.pastExpiry g.now = true
  · rw [if_pos hpast] at hrej
    have hsame : (g.budgets.set budget { b with lifecycle := .expired }).find? budget =
        g.budgets.find? budget := congrArg (fun m => m.find? budget) hrej.budgets
    rw [HashedMap.find?_set, if_pos rfl, hc.found] at hsame
    have hlive := hc.live
    rw [← Option.some.inj hsame] at hlive
    cases hlive
  · obtain ⟨hfits, hcap⟩ := hway.resolve_left hpast
    obtain ⟨consumed, hadd⟩ := (MoneyMicros.exists_add_eq_ok_iff _ _).2 hfits
    have hsum := (MoneyMicros.add_eq_ok_iff _ _ _).1 hadd
    have hunder : ¬ (b.mode = .hard ∧ b.limit < consumed) := by
      intro hover
      have hle := hcap hover.1
      have hlt : b.limit.toInt < consumed.toInt := hover.2
      omega
    rw [if_neg hpast, hadd] at hrej
    dsimp only at hrej
    rw [if_neg hunder] at hrej
    cases hrej.notOk

end Governor

open Governor

/-- A call with a stale epoch is rejected without effect, except for a `consume`
on a live budget that still carries the same stale epoch. -/
theorem stale_epoch_rejected_iff (g : Governor) (op : Op) (e : CoordinatorEpoch)
    (hcarried : op.carriedEpoch = some e) (hstale : e ≠ g.epoch) :
    Rejected g (g.exec op) ↔ ¬ Charges g op := by
  constructor
  · intro hrej hcharges
    exact hcharges.not_rejected hrej
  · intro hno
    cases op with
    | reserve budget gen epoch amount => exact reserve_rejected (Option.some.inj hcarried ▸ hstale)
    | commit r => exact commit_rejected (Option.some.inj hcarried ▸ hstale)
    | release r => exact release_rejected (Option.some.inj hcarried ▸ hstale)
    | consume budget gen epoch amount => exact consume_rejected hno
    | publishPrice obs => exact publishPrice_rejected (Option.some.inj hcarried ▸ hstale)
    | recordAttempt ev => exact recordAttempt_rejected (Option.some.inj hcarried ▸ hstale)
    | _ => cases hcarried

/-- A budget of the first epoch, seen from the second. -/
def budgetFromEarlierEpoch : List Op :=
  [.createBudget {
      id := ⟨1⟩, generation := ⟨1⟩, policyGeneration := ⟨1⟩, epoch := ⟨1⟩, limit := ⟨10⟩ },
    .advanceEpoch]

theorem stale_epoch_rejected_iff_reserve :
    let g := run Governor.apply (fresh 0) budgetFromEarlierEpoch
    Rejected g (g.exec (.reserve ⟨1⟩ ⟨1⟩ ⟨1⟩ ⟨4⟩)) := by
  refine (stale_epoch_rejected_iff _ _ ⟨1⟩ rfl (by decide)).2 ?_
  rintro ⟨_, _, _, _, _, hconsume, -⟩
  cases hconsume

theorem consume_accepts_stale_epoch :
    let g := run Governor.apply (fresh 0) budgetFromEarlierEpoch
    g.epoch = ⟨2⟩ ∧ (g.consume ⟨1⟩ ⟨1⟩ ⟨1⟩ ⟨4⟩).1 = .ok .ok ∧
      ((g.apply (.consume ⟨1⟩ ⟨1⟩ ⟨1⟩ ⟨4⟩)).budgets.find? ⟨1⟩).map Budget.consumed = some ⟨4⟩ ∧
      (g.budgets.find? ⟨1⟩).map Budget.consumed = some ⟨0⟩ := by
  exact ⟨rfl, rfl, rfl, rfl⟩

end CostGovernor
