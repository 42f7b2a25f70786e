import CostGovernor.CoordinatorCharges

/-!
# What a coordinator charges over all its incarnations

COMMIT does not save. An incarnation that finds no state file starts on a new budget of one
unit, whatever the ones before it have charged, and one that finds a file charges nothing.
So the total over all incarnations is bounded by one unit for each that started without a
file, and crashes before the first save reach that bound.
-/

namespace CostGovernor

open Executions Tallies Coordinator

section Spent

inductive Spent (k lost : ℕ) (total : ℤ) (c : Coordinator) : Prop
  | unrecovered (h : Unrecovered k c) (hle : total ≤ lost * 1000000 + c.gov.consumedOf ⟨1⟩)
  | recovered {B : BudgetId → Option Budget} {low : ℕ} (h : Frozen B low k c)
      (hle : total ≤ (lost + 1) * 1000000)

variable {k lost : ℕ} {total : ℤ} {c : Coordinator}

theorem Spent.bound (h : Spent k lost total c) : total ≤ (lost + 1) * 1000000 := by
  cases h with
  | unrecovered h hle =>
      have hconsumed := h.consumed_le ⟨1⟩
      omega
  | recovered h hle => exact hle

theorem Spent.live (h : Spent k lost total c) (hk : k + 1 < 2 ^ 64) (l : Life) :
    Spent (k + 1) (lost + (c.losesAll l).toNat) (total + amountsTotal (c.charge l).toList)
      (live c l) := by
  cases h with
  | recovered h hle =>
      have hnone := charge_eq_none_of_pendingCall h.pendingCall l
      have hlost : c.losesAll l = false := by
        cases l with
        | event e => rfl
        | crash =>
            obtain ⟨snap, hfile⟩ := Option.ne_none_iff_exists'.1 h.file
            rw [losesAll, hfile]
            rfl
      refine .recovered (h.live hk l) ?_
      rw [hnone, hlost]
      exact (add_zero total).le.trans hle
  | unrecovered h hle =>
      cases l with
      | event e =>
          refine .unrecovered ⟨h.first.succ.event e, (h.event e).single, (h.event e).terms⟩ ?_
          have hconsumed := step_consumed c e ⟨1⟩
          rw [h.charged] at hconsumed
          change total + _ ≤ ((lost + 0 : ℕ) : ℤ) * 1000000 + (c.step e).gov.consumedOf ⟨1⟩
          omega
      | crash =>
          have htotal : total + amountsTotal (c.charge .crash).toList ≤ (lost + 1) * 1000000 := by
            have hconsumed := h.consumed_le ⟨1⟩
            change total + 0 ≤ _
            omega
          change Spent _ (lost + c.file.isNone.toNat) _ (boot c.file)
          cases hfile : c.file with
          | none =>
              have hnew : (boot none).gov.consumedOf ⟨1⟩ = 0 := consumedOf_boot none ⟨1⟩
              refine .unrecovered (unrecovered_boot hk) ?_
              rw [hnew, add_zero, Nat.cast_add]
              exact htotal
          | some snap =>
              obtain ⟨hfirst, hlow, hhigh⟩ := h.first.snapshots.file snap hfile
              refine .recovered (frozen_recovered (fun b hb => ?_) hhigh hk) htotal
              rw [hfirst b hb]
              exact hlow

theorem spent_run {ls : List Life} (hcount : ls.length + 2 < 2 ^ 64) :
    Spent (ls.length + 1) (countAlong live losesAll (boot none) ls) (chargedTotal ls)
      (run live (boot none) ls) := by
  induction ls using List.reverseRecOn with
  | nil =>
      have hboot : Unrecovered (0 + 1) (boot none) := unrecovered_boot (by decide)
      refine .unrecovered hboot ?_
      rw [run_nil, consumedOf_boot]
      exact le_rfl
  | append_singleton ls l ih =>
      rw [List.length_append, List.length_singleton] at hcount ⊢
      rw [chargedTotal, observed_append, amountsTotal_append, countAlong_append, run_append]
      have hnext := (ih (by omega)).live (by omega) l
      rw [observed, observed, List.append_nil, countAlong, countAlong, Nat.add_zero]
      exact hnext

end Spent

section Attained

def spendLimit : List Life :=
  [.event (.message 0 (.reserve ⟨1⟩ ⟨1⟩ ⟨1⟩ (MoneyMicros.fromUnits 1))), .event (.resume 0 true),
    .event (.message 0 (.settle .commit ⟨1⟩)), .event (.resume 0 true), .event (.resume 0 true)]

/-- The limit is spent in every incarnation, and each crash comes before a save. -/
def spendAgain : ℕ → List Life
  | 0 => spendLimit
  | n + 1 => spendLimit ++ .crash :: spendAgain n

theorem spendLimit_file : (run live (boot none) spendLimit).file = none := rfl

theorem spendLimit_total : chargedTotal spendLimit = 1000000 := by decide

theorem spendLimit_lost : countAlong live losesAll (boot none) spendLimit = 0 := rfl

theorem spendAgain_length (n : ℕ) : (spendAgain n).length = 6 * n + 5 := by
  induction n with
  | zero => rfl
  | succ n ih =>
      rw [spendAgain, List.length_append, List.length_cons, ih]
      change 5 + _ = _
      omega

theorem spendAgain_lost (n : ℕ) : countAlong live losesAll (boot none) (spendAgain n) = n := by
  induction n with
  | zero => rfl
  | succ n ih =>
      rw [spendAgain, countAlong_append, spendLimit_lost, countAlong, losesAll, spendLimit_file]
      change 0 + (1 + countAlong live losesAll (boot (run live (boot none) spendLimit).file) _) = _
      rw [spendLimit_file, ih]
      omega

theorem spendAgain_total (n : ℕ) : chargedTotal (spendAgain n) = (n + 1) * 1000000 := by
  induction n with
  | zero => exact spendLimit_total
  | succ n ih =>
      rw [spendAgain, chargedTotal, observed_append, amountsTotal_append]
      change chargedTotal spendLimit + amountsTotal ([] ++ observed live charge
        (boot (run live (boot none) spendLimit).file) (spendAgain n)) = _
      rw [spendLimit_total, spendLimit_file, List.nil_append]
      change 1000000 + chargedTotal (spendAgain n) = _
      rw [ih]
      push_cast
      omega

end Attained

/-- Over every life that starts without a state file, any sessions, messages and crashes in
it: what all incarnations charge together is at most one limit for each incarnation that
starts without a file, and this is reached. -/
theorem charged_total_greatest (n : ℕ) (hn : 6 * n + 7 < 2 ^ 64) :
    IsGreatest {total | ∃ ls : List Life, ls.length + 2 < 2 ^ 64 ∧ freshStarts ls = n + 1 ∧
      chargedTotal ls = total} ((n + 1) * 1000000 : ℤ) := by
  constructor
  · refine ⟨spendAgain n, ?_, ?_, spendAgain_total n⟩
    · rw [spendAgain_length]
      omega
    · rw [freshStarts, spendAgain_lost]
  · rintro total ⟨ls, hcount, hstarts, rfl⟩
    have hbound := (spent_run hcount).bound
    have hlost : countAlong live losesAll (boot none) ls = n := Nat.succ.inj hstarts
    rw [hlost] at hbound
    exact hbound

theorem charged_total_greatest_twoCrashes :
    ∃ ls : List Life, freshStarts ls = 3 ∧ chargedTotal ls = 3000000 := by
  obtain ⟨ls, -, hstarts, htotal⟩ := (charged_total_greatest 2 (by decide)).1
  exact ⟨ls, hstarts, htotal⟩

end CostGovernor
