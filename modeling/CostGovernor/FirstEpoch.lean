import CostGovernor.Recovery
import CostGovernor.StateFiles

/-!
# Lives that start without a state file

What a property of snapshots takes to hold of everything that will be loaded, and what
holds of every life from nothing: all budgets are of the first epoch, and the epochs grow
by one with each restart.
-/

namespace CostGovernor

open Executions

namespace Coordinator

structure Snapshots (Q : DurableSnapshot → Prop) (c : Coordinator) : Prop where
  file : ∀ snap, c.file = some snap → Q snap
  pending : ∀ s snap, (c.sessions s).pending = some snap → Q snap

theorem Snapshots.mono {Q Q' : DurableSnapshot → Prop} {c : Coordinator} (h : Snapshots Q c)
    (himp : ∀ snap, Q snap → Q' snap) : Snapshots Q' c :=
  ⟨fun snap hsnap => himp snap (h.file snap hsnap),
    fun s snap hsnap => himp snap (h.pending s snap hsnap)⟩

theorem Snapshots.step {Q : DurableSnapshot → Prop} {c : Coordinator} (h : Snapshots Q c)
    (hnow : Q c.gov.snapshot) (e : Event) : Snapshots Q (c.step e) := by
  refine ⟨fun snap hfile => ?_, fun s snap hsnap => ?_⟩
  · by_cases hsaves : c.Saves e
    · cases e with
      | message s m => exact hsaves.elim
      | resume s saved =>
          obtain ⟨rfl, saving, hpending⟩ := hsaves
          rw [step_save hpending, if_pos rfl] at hfile
          obtain rfl : saving = snap := Option.some.inj hfile
          exact h.pending s saving hpending
    · rw [(c.step_change e).file hsaves] at hfile
      exact h.file snap hfile
  · rcases step_pending hsnap with hold | rfl
    · exact h.pending s snap hold
    · exact hnow

theorem snapshots_boot {Q : DurableSnapshot → Prop} {file : Option DurableSnapshot}
    (h : ∀ snap, file = some snap → Q snap) : Snapshots Q (boot file) := by
  refine ⟨fun snap hfile => h snap ?_, fun s snap hsnap => ?_⟩
  · cases file <;> exact hfile
  · rw [boot_sessions] at hsnap
    cases hsnap

theorem step_epoch (c : Coordinator) (e : Event) : (c.step e).gov.epoch = c.gov.epoch := by
  have hchange := c.step_change e
  generalize c.step e = c' at hchange
  cases hchange with
  | quiet e c' s st _ _ _ _ _ _ _ hgov => exact hgov.epoch
  | grant s budget gen epoch amount r g _ _ _ _ hepoch => exact hepoch
  | settle s saved kind token r hst =>
      rw [afterSettle_gov]
      exact (settleCall_steady c.gov kind r).epoch
  | _ => rfl

/-- A state file is replaced and never removed. -/
theorem step_file_ne_none {c : Coordinator} (h : c.file ≠ none) (e : Event) :
    (c.step e).file ≠ none := by
  by_cases hsaves : c.Saves e
  · cases e with
    | message s m => exact hsaves.elim
    | resume s saved =>
        obtain ⟨rfl, saving, hpending⟩ := hsaves
        rw [step_save hpending, if_pos rfl]
        exact Option.some_ne_none saving
  · rw [(c.step_change e).file hsaves]
    exact h

theorem boot_epoch_toNat {snap : DurableSnapshot} (h : snap.epoch.value.toNat + 1 < 2 ^ 64) :
    (boot (some snap)).gov.epoch.value.toNat = snap.epoch.value.toNat + 1 := by
  change snap.epoch.succ.value.toNat = _
  rw [Id.succ_toNat, Nat.mod_eq_of_lt h]

theorem run_restarted {before : List Life} (after : List Life) {snap : DurableSnapshot}
    (hfile : (run live (boot none) before).file = some snap) :
    run live (boot none) (before ++ .crash :: after) = run live (boot (some snap)) after := by
  rw [run_append, run_cons]
  change run live (boot (run live (boot none) before).file) after = _
  rw [hfile]

end Coordinator

open Coordinator

section FromNothing

/-- Every budget in memory and in a snapshot was created under the first epoch, and no
epoch is greater than `k`. -/
structure FirstBudgets (k : ℕ) (c : Coordinator) : Prop where
  budgets : ∀ id b, c.gov.budgets.find? id = some b → b.epoch = ⟨1⟩
  epoch : 1 ≤ c.gov.epoch.value.toNat ∧ c.gov.epoch.value.toNat ≤ k
  snapshots : Snapshots (fun snap => (∀ b ∈ snap.budgets, b.epoch = ⟨1⟩) ∧
    1 ≤ snap.epoch.value.toNat ∧ snap.epoch.value.toNat ≤ k) c

theorem FirstBudgets.succ {k : ℕ} {c : Coordinator} (h : FirstBudgets k c) :
    FirstBudgets (k + 1) c :=
  ⟨h.budgets, ⟨h.epoch.1, h.epoch.2.trans k.le_succ⟩,
    h.snapshots.mono fun _ hsnap => ⟨hsnap.1, hsnap.2.1, hsnap.2.2.trans k.le_succ⟩⟩

theorem callOf_ne_createBudget (m : Message) (b : Budget) : callOf m ≠ some (.createBudget b) := by
  cases m <;> exact fun h => nomatch h

theorem pendingCall_ne_createBudget (st : SessionState) (b : Budget) :
    pendingCall st ≠ some (.createBudget b) := by
  intro h
  cases st with
  | copied kind token r => cases kind <;> cases h
  | _ => cases h

theorem governorCall_ne_createBudget (c : Coordinator) (e : Event) (b : Budget) :
    c.governorCall e ≠ some (.createBudget b) := by
  intro h
  rcases governorCall_eq_some h with ⟨s, m, -, -, hcall⟩ | ⟨s, saved, -, hcall⟩
  · exact callOf_ne_createBudget m b hcall
  · exact pendingCall_ne_createBudget _ b hcall

theorem FirstBudgets.event {k : ℕ} {c : Coordinator} (h : FirstBudgets k c) (e : Event) :
    FirstBudgets k (c.step e) := by
  refine ⟨?_, by rw [step_epoch]; exact h.epoch, h.snapshots.step ⟨fun b hb => ?_, h.epoch⟩ e⟩
  · rw [step_gov]
    cases hcall : c.governorCall e with
    | none => exact h.budgets
    | some op =>
        refine (c.gov.exec_budgets op).forall_budgets (fun b hop => ?_)
          (fun b b' hchange hb => hchange.terms.2.1.trans hb) h.budgets
        rw [hop] at hcall
        exact absurd hcall (governorCall_ne_createBudget c e b)
  · obtain ⟨id, hid⟩ := (c.gov.mem_snapshot_budgets b).1 hb
    exact h.budgets id b hid

theorem afterRestart_epoch (b : Budget) : (Governor.recoveredBudget b).epoch = b.epoch := by
  rw [Governor.recoveredBudget_eq]
  rfl

theorem firstBudgets_boot {k : ℕ} (hk : k + 1 < 2 ^ 64) {file : Option DurableSnapshot}
    (hfile : ∀ snap, file = some snap → (∀ b ∈ snap.budgets, b.epoch = ⟨1⟩) ∧
      1 ≤ snap.epoch.value.toNat ∧ snap.epoch.value.toNat ≤ k) :
    FirstBudgets (k + 1) (boot file) := by
  have hsnapshots : Snapshots (fun snap => (∀ b ∈ snap.budgets, b.epoch = ⟨1⟩) ∧
      1 ≤ snap.epoch.value.toNat ∧ snap.epoch.value.toNat ≤ k + 1) (boot file) :=
    snapshots_boot fun snap hsnap =>
      ⟨(hfile snap hsnap).1, (hfile snap hsnap).2.1, (hfile snap hsnap).2.2.trans k.le_succ⟩
  cases file with
  | none =>
      refine ⟨fun id b hb => ?_, ⟨le_rfl, Nat.le_add_left 1 k⟩, hsnapshots⟩
      change (HashedMap.empty.emplace _ _).find? id = some b at hb
      rw [HashedMap.find?_emplace] at hb
      split_ifs at hb
      · rw [← Option.some.inj hb]
        rfl
      · cases hb
  | some snap =>
      obtain ⟨hbudgets, hlow, hhigh⟩ := hfile snap rfl
      have hepoch := boot_epoch_toNat (show snap.epoch.value.toNat + 1 < 2 ^ 64 by omega)
      refine ⟨fun id b hb => ?_, by omega, hsnapshots⟩
      obtain ⟨saved, hsaved, rfl⟩ := Governor.restore_budgets_find? (g := startGovernor) hb
      exact (afterRestart_epoch saved).trans (hbudgets saved hsaved)

theorem FirstBudgets.live {k : ℕ} {c : Coordinator} (h : FirstBudgets k c) (hk : k + 1 < 2 ^ 64)
    (l : Life) : FirstBudgets (k + 1) (live c l) := by
  cases l with
  | event e => exact h.succ.event e
  | crash => exact firstBudgets_boot hk h.snapshots.file

theorem firstBudgets_run {ls : List Life} (hcount : ls.length + 2 < 2 ^ 64) :
    FirstBudgets (ls.length + 1) (run live (boot none) ls) := by
  induction ls using List.reverseRecOn with
  | nil =>
      have hboot : FirstBudgets (0 + 1) (boot none) :=
        firstBudgets_boot (by decide) fun _ hsnap => nomatch hsnap
      exact hboot
  | append_singleton ls l ih =>
      rw [List.length_append, List.length_singleton] at hcount ⊢
      rw [run_append, run_cons, run_nil]
      exact (ih (by omega)).live (by omega) l

end FromNothing

end CostGovernor
