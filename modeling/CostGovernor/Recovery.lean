import CostGovernor.Identities
import CostGovernor.SaveLoad

/-!
# What a load gives back

A governor that loads what another one has saved has the same epoch, policy, schedule
and history, the budgets without their reservations, and the part of the interventions
that is saved. A second save and load is then the identity on all of these.
-/

namespace CostGovernor

open Executions SnapshotCodec

/-- A budget after a restart: nothing is reserved, and one that was RESERVED and never
charged or released to is ACTIVE. -/
def Budget.afterRestart (b : Budget) : Budget :=
  { b with
    reserved := ⟨0⟩
    lifecycle :=
      if b.lifecycle = .reserved ∧ b.consumed = ⟨0⟩ ∧ b.released = ⟨0⟩ then .active
      else b.lifecycle }

theorem Budget.afterRestart_idem (b : Budget) : b.afterRestart.afterRestart = b.afterRestart := by
  unfold afterRestart
  dsimp only
  split_ifs <;> rfl

namespace Governor

theorem isZero_iff (m : MoneyMicros) : m.isZero = true ↔ m = ⟨0⟩ := by
  cases m
  simp [MoneyMicros.isZero]

theorem recoveredBudget_eq (b : Budget) : recoveredBudget b = b.afterRestart := by
  unfold recoveredBudget Budget.afterRestart
  simp only [isZero_iff]
  by_cases h : b.consumed = ⟨0⟩ ∧ b.released = ⟨0⟩ ∧ b.lifecycle = .reserved
  · rw [if_pos h, if_pos ⟨h.2.2, h.1, h.2.1⟩]
  · rw [if_neg h, if_neg (fun h' => h ⟨h'.2.1, h'.2.2, h'.1⟩)]

/-- The state of a governor after it has loaded what another one saved. -/
structure RestoredFrom (g' g : Governor) : Prop where
  epoch : g'.epoch = g.epoch
  policy : g'.policy = g.policy
  schedule : g'.schedule = g.schedule
  history : g'.history = g.history
  budgets : ∀ id, g'.budgets.find? id = (g.budgets.find? id).map Budget.afterRestart
  interventions : ∀ id, (g'.interventions.find? id).map interventionEntry =
    (g.interventions.find? id).map interventionEntry
  revalidation : g'.revalidationNeeded = true

structure SameDurable (g' g : Governor) : Prop where
  epoch : g'.epoch = g.epoch
  policy : g'.policy = g.policy
  schedule : g'.schedule = g.schedule
  history : g'.history = g.history
  budgets : ∀ id, g'.budgets.find? id = g.budgets.find? id
  interventions : ∀ id, g'.interventions.find? id = g.interventions.find? id
  revalidation : g'.revalidationNeeded = g.revalidationNeeded

section Cycle

variable (later : Governor) {g : Governor}

theorem find?_budgets_of_cycle (h : g.Keyed) (id : BudgetId) :
    (later.restore g.snapshot).budgets.find? id =
      (g.budgets.find? id).map Budget.afterRestart := by
  have hrecovered : recoveredBudget = Budget.afterRestart := funext recoveredBudget_eq
  rw [find?_restore_budgets, h.budgets.find?_eq g.mem_snapshot_budgets, hrecovered]

theorem find?_interventions_of_cycle (h : g.Keyed) (id : InterventionId) :
    (later.restore g.snapshot).interventions.find? id =
      (g.interventions.find? id).map (fun i => recoveredIntervention (interventionEntry i)) := by
  unfold restore snapshot
  dsimp only
  rw [HashedMap.find?_foldl_emplace, HashedMap.find?_empty, Option.none_or, List.find?_map,
    ← h.interventions.find?_eq g.interventions.mem_values_iff, Option.map_map]
  rfl

theorem restoredFrom_cycle (h : g.Keyed) : (later.restore g.snapshot).RestoredFrom g where
  epoch := rfl
  policy := rfl
  schedule := rfl
  history := rfl
  budgets := later.find?_budgets_of_cycle h
  interventions id := by
    rw [later.find?_interventions_of_cycle h, Option.map_map]
    rfl
  revalidation := rfl

theorem sameDurable_cycle (h : g.Keyed) (again : Governor) :
    (again.restore (later.restore g.snapshot).snapshot).SameDurable (later.restore g.snapshot) where
  epoch := rfl
  policy := rfl
  schedule := rfl
  history := rfl
  budgets id := by
    rw [again.find?_budgets_of_cycle (later.keyed_restore _), later.find?_budgets_of_cycle h,
      Option.map_map]
    exact congrArg (fun f => (g.budgets.find? id).map f) (funext Budget.afterRestart_idem)
  interventions id := by
    rw [again.find?_interventions_of_cycle (later.keyed_restore _),
      later.find?_interventions_of_cycle h, Option.map_map]
    rfl
  revalidation := rfl

theorem withinLimits_cycle (h : g.snapshot.WithinLimits) :
    (later.restore g.snapshot).snapshot.WithinLimits where
  policyString := h.policyString
  observations := h.observations
  observationStrings := h.observationStrings
  budgets := by
    have hle := HashedMap.length_values_foldl_emplace_le (fun b => (recoveredBudget b).id)
      recoveredBudget g.snapshot.budgets .empty
    rw [snapshot, List.length_insertionSort]
    exact hle.trans (by simpa [HashedMap.values, HashedMap.empty] using h.budgets)
  budgetStrings b hb := by
    obtain ⟨id, hfound⟩ := (mem_snapshot_budgets _ b).1 hb
    obtain ⟨saved, hsaved, rfl⟩ := restore_budgets_find? hfound
    rw [recoveredBudget_eq]
    exact h.budgetStrings saved hsaved
  history := h.history
  interventions := by
    have hle := HashedMap.length_values_foldl_emplace_le InterventionEntry.id recoveredIntervention
      g.snapshot.interventions .empty
    rw [snapshot, List.length_map]
    exact hle.trans (by simpa [HashedMap.values, HashedMap.empty] using h.interventions)

end Cycle

/-- A save within the limits succeeds when the file system takes the bytes. -/
theorem persist_of_withinLimits {g : Governor} (hstore : g.store = true)
    (h : g.snapshot.WithinLimits) (file : Option ByteString) :
    ∃ bytes, g.persist true file = (.ok .ok, some bytes) := by
  obtain ⟨bytes, hbytes⟩ := encode_of_withinLimits h
  refine ⟨bytes, ?_⟩
  simp only [persist, hstore, hbytes, Bool.not_true, Bool.false_eq_true, if_false, if_true]

theorem load_of_persist {g later : Governor} {written : Bool} {file file' : Option ByteString}
    (hpersist : g.persist written file = (.ok .ok, file')) (h : g.snapshot.WithinLimits)
    (hstore : later.store = true) : later.load file' = (.ok .ok, later.restore g.snapshot) := by
  obtain ⟨bytes, hbytes, rfl⟩ := persist_eq_ok hpersist
  rw [later.load_some hstore, (decode_encoded hbytes h.countsFit).1 h]

end Governor

open Governor

/-- A reachable state within the reader's limits that was saved is restored by a load,
and saving and loading the restored state changes nothing. -/
theorem persist_then_load_restores (now : Int64) (start : Option ByteString) (calls : List Call)
    (g : Governor) (hg : g = (run Process.step { gov := fresh now, file := start } calls).gov)
    (hlimits : g.snapshot.WithinLimits) (written : Bool) (file file' : Option ByteString)
    (hpersist : g.persist written file = (.ok .ok, file')) (later : Governor)
    (hstore : later.store = true) :
    ∃ g', later.load file' = (.ok .ok, g') ∧ g'.RestoredFrom g ∧
      ∀ file₁, ∃ bytes, g'.persist true file₁ = (.ok .ok, some bytes) ∧
        ∀ again : Governor, again.store = true →
          ∃ g'', again.load (some bytes) = (.ok .ok, g'') ∧ g''.SameDurable g' := by
  have hkeyed : g.Keyed := by
    rw [hg]
    exact run_preserves (I := fun p : Process => p.gov.Keyed) (fun _ c h => Process.keyed_step h c)
      (keyed_fresh now) calls
  have hlimits' := later.withinLimits_cycle hlimits
  refine ⟨_, load_of_persist hpersist hlimits hstore, later.restoredFrom_cycle hkeyed, ?_⟩
  intro file₁
  have hstore' : (later.restore g.snapshot).store = true := hstore
  obtain ⟨bytes, hbytes⟩ := persist_of_withinLimits hstore' hlimits' file₁
  refine ⟨bytes, hbytes, fun again hagain => ?_⟩
  exact ⟨_, load_of_persist hbytes hlimits' hagain, later.sameDurable_cycle hkeyed again⟩

def reservedState : Governor :=
  (run Process.step { gov := fresh 0 } [.write .setStatePath,
    .write (.createBudget
      { id := ⟨1⟩, generation := ⟨1⟩, policyGeneration := ⟨1⟩, epoch := ⟨1⟩, limit := ⟨10⟩ }),
    .write (.reserve ⟨1⟩ ⟨1⟩ ⟨1⟩ ⟨4⟩), .write (.proposeIntervention { kind := .defer })]).gov

theorem persist_then_load_restores_reservedState :
    (reservedState.budgets.find? ⟨1⟩).map (fun b => (b.reserved, b.lifecycle)) =
        some (⟨4⟩, .reserved) ∧
      ∃ bytes g', reservedState.persist true none = (.ok .ok, some bytes) ∧
        (fresh 5).setStatePath.load (some bytes) = (.ok .ok, g') ∧ g'.RestoredFrom reservedState := by
  have hlimits : reservedState.snapshot.WithinLimits :=
    ⟨by decide, by decide, by decide, by decide, by decide, by decide, by decide⟩
  obtain ⟨bytes, hbytes⟩ := persist_of_withinLimits rfl hlimits none
  obtain ⟨g', hload, hrestored, _⟩ := persist_then_load_restores 0 none _ reservedState rfl hlimits
    true none _ hbytes (fresh 5).setStatePath rfl
  exact ⟨by decide, bytes, g', hbytes, hload, hrestored⟩

end CostGovernor
