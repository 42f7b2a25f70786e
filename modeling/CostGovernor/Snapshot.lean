import CostGovernor.SettlementCases
import Mathlib.Data.List.Sort

/-!
# Durable snapshots

`snapshot` is the copy `persist` takes under the lock and `restore` is the part
of `load` that runs under the lock. Reservations, attempts, worker boots and the
identity counters are not durable: `restore` leaves them as they are in memory.
-/

namespace CostGovernor

structure DurableSnapshot where
  epoch : CoordinatorEpoch := {}
  policy : CostPolicy := {}
  priceSchedule : PriceSchedule := {}
  budgets : List Budget := []
  history : List HistoryEntry := []
  interventions : List InterventionEntry := []
  deriving DecidableEq

namespace Governor

def interventionEntry (i : CostIntervention) : InterventionEntry :=
  { id := i.id, kind := i.kind, lifecycle := i.lifecycle, generation := i.generation,
    createdAtMs := i.createdAtMs }

def snapshot (g : Governor) : DurableSnapshot :=
  { epoch := g.epoch
    policy := g.policy
    priceSchedule := g.schedule
    budgets := g.budgets.values.insertionSort (fun a b => a.id ≤ b.id)
    history := g.history
    interventions := g.interventions.values.map interventionEntry }

/-- Nothing is reserved after a restart, so an untouched RESERVED budget is ACTIVE again. -/
def recoveredBudget (b : Budget) : Budget :=
  if b.consumed.isZero ∧ b.released.isZero ∧ b.lifecycle = .reserved then
    { b with reserved := ⟨0⟩, lifecycle := .active }
  else { b with reserved := ⟨0⟩ }

def recoveredIntervention (e : InterventionEntry) : CostIntervention :=
  { id := e.id, kind := e.kind, lifecycle := e.lifecycle, generation := e.generation,
    createdAtMs := e.createdAtMs }

def restore (g : Governor) (snap : DurableSnapshot) : Governor :=
  { g with
    epoch := snap.epoch
    policy := snap.policy
    schedule := snap.priceSchedule
    budgets := snap.budgets.foldl
      (fun m b => m.emplace (recoveredBudget b).id (recoveredBudget b)) .empty
    history := snap.history
    interventions := snap.interventions.foldl
      (fun m e => m.emplace e.id (recoveredIntervention e)) .empty
    revalidationNeeded := true }

theorem mem_snapshot_budgets (g : Governor) (b : Budget) :
    b ∈ g.snapshot.budgets ↔ ∃ id, g.budgets.find? id = some b := by
  rw [snapshot, List.mem_insertionSort, HashedMap.mem_values_iff]

theorem recoveredBudget_id (b : Budget) : (recoveredBudget b).id = b.id := by
  unfold recoveredBudget
  split_ifs <;> rfl

/-- A restored budget is the recovery of the first one saved under its identity. -/
theorem find?_restore_budgets (g : Governor) (snap : DurableSnapshot) (id : BudgetId) :
    (g.restore snap).budgets.find? id =
      (snap.budgets.find? (fun b => b.id = id)).map recoveredBudget := by
  unfold restore
  dsimp only
  simp only [HashedMap.find?_foldl_emplace, HashedMap.find?_empty, Option.none_or,
    recoveredBudget_id]

theorem restore_budgets_find? {g : Governor} {snap : DurableSnapshot} {id : BudgetId} {b : Budget}
    (h : (g.restore snap).budgets.find? id = some b) :
    ∃ saved ∈ snap.budgets, b = recoveredBudget saved := by
  rw [find?_restore_budgets] at h
  obtain ⟨saved, hsaved, rfl⟩ := Option.map_eq_some_iff.1 h
  exact ⟨saved, List.mem_of_find?_eq_some hsaved, rfl⟩

theorem recoveredBudget_accounting (b : Budget) :
    (recoveredBudget b).mode = b.mode ∧ (recoveredBudget b).limit = b.limit ∧
      (recoveredBudget b).consumed = b.consumed := by
  unfold recoveredBudget
  split_ifs <;> exact ⟨rfl, rfl, rfl⟩

end Governor

end CostGovernor
