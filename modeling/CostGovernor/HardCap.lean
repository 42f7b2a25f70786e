import CostGovernor.Operations
import CostGovernor.Executions

/-!
# The hard cap

No run takes the consumed total of a HARD budget above its limit. The caps are
checked against `consumed` alone and handles are trusted as the caller presents
them, so nothing here depends on where a handle comes from.
-/

namespace CostGovernor

open Executions

def Budget.WithinCap (b : Budget) : Prop := b.mode = .hard → b.consumed ≤ b.limit

namespace Governor

theorem BudgetChange.withinCap {g : Governor} {op : Op} {b b' : Budget}
    (h : BudgetChange g op b b') (hb : b.WithinCap) : b'.WithinCap := by
  cases h with
  | expire _ _ _ => exact hb
  | grant _ _ _ _ _ _ _ => exact hb
  | unreserve _ _ _ => exact hb
  | expireHandle _ _ _ _ _ => exact hb
  | commit _ _ _ consumed _ hcap => exact hcap
  | release _ _ _ _ _ _ _ _ => exact hb
  | charge _ _ consumed _ hcap => exact hcap

end Governor

namespace World

/-- The cap holds in memory and in everything that could be loaded later. -/
structure Capped (w : World) : Prop where
  live : ∀ id b, w.gov.budgets.find? id = some b → b.WithinCap
  saved : ∀ snap ∈ w.saved, ∀ b ∈ snap.budgets, b.WithinCap

theorem capped_start (now : Int64) : (start now).Capped where
  live := by
    intro id b hb
    cases hb
  saved := by
    intro snap hsnap
    cases hsnap

theorem Capped.persist {w : World} (h : w.Capped) : (w.step .persist).Capped := by
  unfold step
  dsimp only
  split_ifs with hstore
  · refine ⟨h.live, ?_⟩
    intro snap hsnap b hb
    rcases List.mem_append.1 hsnap with hold | hnew
    · exact h.saved snap hold b hb
    · rw [List.mem_singleton.1 hnew, Governor.mem_snapshot_budgets] at hb
      obtain ⟨id, hid⟩ := hb
      exact h.live id b hid
  · exact h

theorem Capped.load {w : World} (h : w.Capped) (i : ℕ) : (w.step (.load i)).Capped := by
  unfold step
  dsimp only
  split_ifs with hstore
  · cases hi : w.saved[i]? with
    | none => exact h
    | some snap =>
        refine ⟨?_, h.saved⟩
        intro id b hb
        obtain ⟨old, hold, he⟩ := Governor.restore_budgets_find? hb
        obtain ⟨hmode, hlimit, hconsumed⟩ := Governor.recoveredBudget_accounting old
        rw [he]
        intro hard
        rw [hconsumed, hlimit]
        exact h.saved snap (List.mem_of_getElem? hi) old hold (hmode ▸ hard)
  · exact h

theorem Capped.step {w : World} (h : w.Capped) (op : WorldOp)
    (hop : ∀ b, op = .call (.createBudget b) → b.consumed ≤ b.limit) : (w.step op).Capped := by
  cases op with
  | call op =>
      refine ⟨(w.gov.exec_budgets op).forall_budgets ?_ (fun _ _ hc => hc.withinCap) h.live, h.saved⟩
      intro b hb _
      exact hop b (hb ▸ rfl)
  | persist => exact h.persist
  | load i => exact h.load i

end World

/-- Every call sequence, with any handles, keeps every HARD budget under its limit. -/
theorem hard_budget_consumed_le_limit (now : Int64) (ops : List WorldOp)
    (hcreate : ∀ b, .call (.createBudget b) ∈ ops → b.consumed ≤ b.limit)
    (id : BudgetId) (b : Budget)
    (hfound : (run World.step (World.start now) ops).gov.budgets.find? id = some b)
    (hard : b.mode = .hard) : b.consumed ≤ b.limit := by
  have hops : Along World.step (fun _ op => ∀ b, op = .call (.createBudget b) → b.consumed ≤ b.limit)
      (World.start now) ops := by
    apply along_of_forall
    intro op hop _ c hc
    exact hcreate c (hc ▸ hop)
  have hcapped := run_invariant (I := World.Capped) (fun _ op hw hop => hw.step op hop)
    (World.capped_start now) hops
  exact hcapped.live id b hfound hard

/-- A commit of a handle nobody granted, then a restart from the saved snapshot. -/
def forgedCommitRun : List WorldOp :=
  [.call .setStatePath,
    .call (.createBudget {
      id := ⟨1⟩, generation := ⟨1⟩, policyGeneration := ⟨1⟩, epoch := ⟨1⟩, limit := ⟨10⟩ }),
    .call (.commit { budget := ⟨1⟩, budgetGeneration := ⟨1⟩, epoch := ⟨1⟩, amount := ⟨7⟩ }),
    .persist, .load 0]

theorem hard_budget_consumed_le_limit_forgedCommitRun :
    ∃ b, (run World.step (World.start 0) forgedCommitRun).gov.budgets.find? ⟨1⟩ = some b ∧
      b.mode = .hard ∧ b.consumed = ⟨7⟩ ∧ b.consumed ≤ b.limit := by
  refine ⟨_, rfl, rfl, rfl, hard_budget_consumed_le_limit 0 forgedCommitRun ?_ ⟨1⟩ _ rfl rfl⟩
  intro b hb
  simp only [forgedCommitRun, List.mem_cons, WorldOp.call.injEq, Op.createBudget.injEq, reduceCtorEq,
    List.not_mem_nil, false_or, or_false] at hb
  rw [hb]
  decide

end CostGovernor
