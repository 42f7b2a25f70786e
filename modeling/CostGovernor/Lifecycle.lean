import CostGovernor.Operations
import CostGovernor.Executions

/-!
# Terminal lifecycles

Every call but one refuses to touch a budget that is not live. `release` has no
such test and writes the lifecycle anyway, so it takes a terminal budget back to
a live one. A step keeps terminal budgets terminal exactly when it is not such a
release.
-/

namespace CostGovernor

open Executions

namespace Governor

/-- Every budget that is terminal before the call is terminal after it. -/
def KeepsTerminal (g : Governor) (op : Op) : Prop :=
  ∀ id b, g.budgets.find? id = some b → b.isTerminal = true →
    ∃ b', (g.apply op).budgets.find? id = some b' ∧ b'.isTerminal = true

/-- A handle that passes the fences of `release` on a terminal budget, with both
totals still representable. -/
structure Revives (g : Governor) (r : BudgetReservation) (b : Budget) : Prop where
  handle : HandleMatches g r b
  terminal : b.isTerminal = true
  reservedFits : r.amount.toInt ≠ -2 ^ 63 ∧
    MoneyMicros.Fits (b.reserved.toInt - r.amount.toInt)
  releasedFits : MoneyMicros.Fits (b.released.toInt + r.amount.toInt)

def NoRevival (g : Governor) (op : Op) : Prop := ∀ r b, op = .release r → ¬ Revives g r b

theorem lifecycleAfterRelease_not_terminal (grants : List BudgetReservation)
    (consumed : MoneyMicros) : (lifecycleAfterRelease grants consumed).isTerminal = false := by
  unfold lifecycleAfterRelease
  split_ifs <;> rfl

theorem BudgetChange.isTerminal {g : Governor} {op : Op} {b b' : Budget}
    (h : BudgetChange g op b b') (hb : b.isTerminal = true) (hop : NoRevival g op) :
    b'.isTerminal = true := by
  have hdead : b.isLive ≠ true := by
    intro hlive
    have hno : b.isTerminal = false := BudgetLifecycle.isTerminal_of_isLive hlive
    rw [hno] at hb
    cases hb
  -- only `unreserve` and `release` do not ask for a live budget
  cases h with
  | expire _ _ hlive => exact absurd hlive hdead
  | grant _ _ _ _ _ _ hg => exact absurd hg.live hdead
  | unreserve _ _ _ => exact hb
  | expireHandle _ _ _ _ hlive => exact absurd hlive hdead
  | commit _ _ _ _ hlive _ => exact absurd hlive hdead
  | release r _ reserved released hm hne hsub hadd =>
      refine absurd ⟨hm, hb, ⟨hne, ?_⟩, ?_⟩ (hop r b rfl)
      · exact (MoneyMicros.exists_toInt_eq_iff _).1 ⟨reserved, hsub⟩
      · exact (MoneyMicros.exists_toInt_eq_iff _).1 ⟨released, hadd⟩
  | charge _ _ _ hlive _ => exact absurd hlive hdead

theorem keepsTerminal_of_noRevival {g : Governor} {op : Op} (hop : NoRevival g op) :
    KeepsTerminal g op := by
  intro id b hb hterm
  obtain ⟨b', hb', hchange⟩ := (g.exec_budgets op).find?_of_some hb
  refine ⟨b', hb', ?_⟩
  rcases hchange with rfl | hchange
  · exact hterm
  · exact hchange.isTerminal hterm hop

theorem Revives.not_keepsTerminal {g : Governor} {r : BudgetReservation} {b : Budget}
    (h : Revives g r b) : ¬ KeepsTerminal g (.release r) := by
  intro hkeeps
  obtain ⟨reserved, hsub⟩ := (MoneyMicros.exists_sub_eq_ok_iff _ _).2 h.reservedFits
  obtain ⟨released, hadd⟩ := (MoneyMicros.exists_add_eq_ok_iff _ _).2 h.releasedFits
  obtain ⟨b', hb', hterm⟩ := hkeeps r.budget b h.handle.found h.terminal
  change (g.release r).2.2.budgets.find? r.budget = some b' at hb'
  rw [release_of_matches h.handle hsub hadd, HashedMap.find?_set, if_pos rfl] at hb'
  have hlife : b'.isTerminal = false :=
    Option.some.inj hb' ▸ lifecycleAfterRelease_not_terminal _ _
  rw [hlife] at hterm
  cases hterm

theorem keepsTerminal_iff (g : Governor) (op : Op) : KeepsTerminal g op ↔ NoRevival g op := by
  constructor
  · intro h r b hop hrev
    exact hrev.not_keepsTerminal (hop ▸ h)
  · exact keepsTerminal_of_noRevival

end Governor

open Governor

/-- A run keeps every terminal budget terminal, step by step, exactly when no
step releases an outstanding handle of a terminal budget. -/
theorem terminal_budgets_stay_terminal_iff (now : Int64) (ops : List Op) :
    Along Governor.apply KeepsTerminal (fresh now) ops ↔
      Along Governor.apply NoRevival (fresh now) ops :=
  along_congr (fun g op _ => keepsTerminal_iff g op) _

/-- One grant of 4 from a limit of 10, then a direct charge of all 10. -/
def exhaustedWithGrant : List Op :=
  [.createBudget {
      id := ⟨1⟩, generation := ⟨1⟩, policyGeneration := ⟨1⟩, epoch := ⟨1⟩, limit := ⟨10⟩ },
    .reserve ⟨1⟩ ⟨1⟩ ⟨1⟩ ⟨4⟩, .consume ⟨1⟩ ⟨1⟩ ⟨1⟩ ⟨10⟩]

theorem release_revives_exhausted_budget :
    let g := run Governor.apply (fresh 0) exhaustedWithGrant
    ∃ r, ((run Governor.apply (fresh 0) (exhaustedWithGrant.take 1)).reserve
        ⟨1⟩ ⟨1⟩ ⟨1⟩ ⟨4⟩).2.1 = some r ∧
      (g.budgets.find? ⟨1⟩).map Budget.lifecycle = some .exhausted ∧
      (g.release r).1 = .ok .ok ∧
      ((g.apply (.release r)).budgets.find? ⟨1⟩).map Budget.lifecycle = some .reserved := by
  exact ⟨_, rfl, rfl, rfl, rfl⟩

end CostGovernor
