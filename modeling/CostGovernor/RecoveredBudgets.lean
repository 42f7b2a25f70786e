import CostGovernor.FirstEpoch

/-!
# Budgets after a restart

A budget keeps the epoch it was created under, and a coordinator that finds a state file
serves under the next one. RESERVE compares the two, so from the first restart on no
reservation is granted, no token is known, and no event or further crash changes a
budget.
-/

namespace CostGovernor

open Executions Coordinator

section Frozen

def recoveredBudgets (snap : DurableSnapshot) (id : BudgetId) : Option Budget :=
  (snap.budgets.find? (fun b => b.id = id)).map Budget.afterRestart

/-- The budgets are those of `B`, in memory and in everything that will be loaded; all are
of an epoch that is over, and no reservation is known. -/
structure Frozen (B : BudgetId → Option Budget) (low high : ℕ) (c : Coordinator) : Prop where
  budgets : ∀ id, c.gov.budgets.find? id = B id
  keyed : c.gov.budgets.KeyedBy Budget.id
  settled : ∀ id, (B id).map Budget.afterRestart = B id
  old : ∀ id b, B id = some b → b.epoch.value.toNat ≤ low
  epoch : low < c.gov.epoch.value.toNat ∧ c.gov.epoch.value.toNat ≤ high
  handles : Handles (fun _ _ => False) c
  file : c.file ≠ none
  snapshots : Snapshots (fun snap => (∀ id, recoveredBudgets snap id = B id) ∧
    low ≤ snap.epoch.value.toNat ∧ snap.epoch.value.toNat ≤ high) c

variable {B : BudgetId → Option Budget} {low high : ℕ} {c : Coordinator}

theorem Frozen.succ (h : Frozen B low high c) : Frozen B low (high + 1) c :=
  { h with
    epoch := ⟨h.epoch.1, h.epoch.2.trans high.le_succ⟩
    snapshots := h.snapshots.mono fun _ hsnap =>
      ⟨hsnap.1, hsnap.2.1, hsnap.2.2.trans high.le_succ⟩ }

/-- No reservation is granted on a budget of another epoch. -/
theorem Frozen.reserve (h : Frozen B low high c) (budget : BudgetId) (gen : BudgetGeneration)
    (epoch : CoordinatorEpoch) (amount : MoneyMicros) :
    ∃ st, (st = .staleAuthority ∨ st = .invalidInput) ∧
      c.gov.reserve budget gen epoch amount = (.ok st, none, c.gov) := by
  unfold Governor.reserve
  rw [h.budgets]
  cases hb : B budget with
  | none => exact ⟨.invalidInput, Or.inr rfl, rfl⟩
  | some b =>
      refine ⟨.staleAuthority, Or.inl rfl, ?_⟩
      have hne : b.epoch ≠ c.gov.epoch := by
        intro heq
        have hle := h.old budget b hb
        have hlt := h.epoch.1
        rw [heq] at hle
        omega
      dsimp only
      rw [if_pos hne, ite_self]

theorem Frozen.granting (h : Frozen B low high c) (e : Event) : c.granting e = [] := by
  cases e with
  | resume s saved => rfl
  | message s m =>
      cases m with
      | reserve budget gen epoch amount =>
          obtain ⟨st, -, hreserve⟩ := h.reserve budget gen epoch amount
          dsimp only [Coordinator.granting]
          rw [hreserve]
          split <;> rfl
      | _ => rfl

theorem Frozen.pendingCall (h : Frozen B low high c) (s : ℕ) :
    pendingCall (c.sessions s) = none := by
  cases hst : c.sessions s with
  | copied kind token r =>
      have huse : (c.sessions s).use token = some (.copied r) := by
        rw [hst]
        exact if_pos rfl
      exact (h.handles.held s token _ huse).elim
  | _ => rfl

theorem Frozen.gov_budgets (h : Frozen B low high c) (e : Event) :
    (c.step e).gov.budgets = c.gov.budgets := by
  rw [step_gov]
  cases hcall : c.governorCall e with
  | none => rfl
  | some op =>
      rcases governorCall_eq_some hcall with ⟨s, m, rfl, -, hop⟩ | ⟨s, saved, rfl, hop⟩
      · cases m with
        | reserve budget gen epoch amount =>
            cases hop
            obtain ⟨st, -, hreserve⟩ := h.reserve budget gen epoch amount
            change (c.gov.reserve budget gen epoch amount).2.2.budgets = _
            rw [hreserve]
        | hello worker boot =>
            cases hop
            rfl
        | publishPrice obs =>
            cases hop
            exact c.gov.publishPrice_budgets obs
        | recordAttempt evidence =>
            cases hop
            exact c.gov.recordAttempt_budgets evidence
        | realize request workload =>
            cases hop
            exact c.gov.finalizeRequest_budgets request workload
        | _ => cases hop
      · rw [h.pendingCall s] at hop
        cases hop

theorem Frozen.snapshot (h : Frozen B low high c) (id : BudgetId) :
    recoveredBudgets c.gov.snapshot id = B id := by
  rw [recoveredBudgets, h.keyed.find?_eq c.gov.mem_snapshot_budgets, h.budgets, h.settled]

theorem Frozen.event (h : Frozen B low high c) (e : Event) : Frozen B low high (c.step e) := by
  have hbudgets := h.gov_budgets e
  refine ⟨?_, ?_, h.settled, h.old, ?_, ?_, ?_, ?_⟩
  · rw [hbudgets]
    exact h.budgets
  · rw [hbudgets]
    exact h.keyed
  · rw [step_epoch]
    exact h.epoch
  · refine (c.step_change e).handles (fun _ _ _ hno => hno) (fun r hr => ?_) h.handles
    rw [h.granting e] at hr
    cases hr
  · exact step_file_ne_none h.file e
  · exact h.snapshots.step ⟨h.snapshot, h.epoch.1.le, h.epoch.2⟩ e

theorem frozen_boot {snap : DurableSnapshot} (hB : ∀ id, recoveredBudgets snap id = B id)
    (hsettled : ∀ id, (B id).map Budget.afterRestart = B id)
    (hold : ∀ id b, B id = some b → b.epoch.value.toNat ≤ low)
    (hlow : low ≤ snap.epoch.value.toNat) (hhigh : snap.epoch.value.toNat ≤ high)
    (hwrap : high + 1 < 2 ^ 64) : Frozen B low (high + 1) (boot (some snap)) := by
  have hepoch := boot_epoch_toNat (show snap.epoch.value.toNat + 1 < 2 ^ 64 by omega)
  refine ⟨fun id => ?_, ?_, hsettled, hold, by omega, handles_boot _ _, ?_, ?_⟩
  · have hrecovered : Governor.recoveredBudget = Budget.afterRestart :=
      funext Governor.recoveredBudget_eq
    have hfind := Governor.find?_restore_budgets startGovernor snap id
    rw [hrecovered] at hfind
    exact hfind.trans (hB id)
  · exact (startGovernor.keyed_restore snap).budgets
  · exact Option.some_ne_none snap
  · refine snapshots_boot fun saved hsaved => ?_
    rw [← Option.some.inj hsaved]
    exact ⟨hB, hlow, hhigh.trans (Nat.le_succ _)⟩

theorem Frozen.live (h : Frozen B low high c) (hwrap : high + 1 < 2 ^ 64) (l : Life) :
    Frozen B low (high + 1) (live c l) := by
  cases l with
  | event e => exact h.succ.event e
  | crash =>
      obtain ⟨snap, hfile⟩ := Option.ne_none_iff_exists'.1 h.file
      obtain ⟨hB, hlow, hhigh⟩ := h.snapshots.file snap hfile
      change Frozen _ _ _ (boot c.file)
      rw [hfile]
      exact frozen_boot hB h.settled h.old hlow hhigh hwrap

/-- The recovered budgets of a state file whose budgets are all of its epoch or before. -/
theorem frozen_recovered {snap : DurableSnapshot}
    (hold : ∀ b ∈ snap.budgets, b.epoch.value.toNat ≤ snap.epoch.value.toNat)
    (hhigh : snap.epoch.value.toNat ≤ high) (hwrap : high + 1 < 2 ^ 64) :
    Frozen (recoveredBudgets snap) snap.epoch.value.toNat (high + 1) (boot (some snap)) := by
  refine frozen_boot (fun _ => rfl) (fun id => ?_) (fun id b hb => ?_) le_rfl hhigh hwrap
  · rw [recoveredBudgets, Option.map_map]
    exact congrArg (fun f => (snap.budgets.find? _).map f) (funext Budget.afterRestart_idem)
  · obtain ⟨saved, hsaved, rfl⟩ := Option.map_eq_some_iff.1 hb
    exact hold saved (List.mem_of_find?_eq_some hsaved)

theorem frozen_run {snap : DurableSnapshot} {ls : List Life}
    (hold : ∀ b ∈ snap.budgets, b.epoch.value.toNat ≤ snap.epoch.value.toNat)
    (hwrap : snap.epoch.value.toNat + 1 + ls.length < 2 ^ 64) :
    Frozen (recoveredBudgets snap) snap.epoch.value.toNat
      (snap.epoch.value.toNat + 1 + ls.length) (run live (boot (some snap)) ls) := by
  induction ls using List.reverseRecOn with
  | nil => exact frozen_recovered hold le_rfl hwrap
  | append_singleton ls l ih =>
      rw [List.length_append, List.length_singleton] at hwrap ⊢
      rw [run_append, run_cons, run_nil]
      exact (ih (by omega)).live (by omega) l

end Frozen

/-- Over every life of a coordinator that starts without a state file: once it has crashed
with one, its budgets are what the file gives back and stay so through every later event and
crash, every RESERVE is refused and no token is known to COMMIT or RELEASE. -/
theorem recovered_budgets_never_change (before after : List Life) (snap : DurableSnapshot)
    (hfile : (run live (boot none) before).file = some snap)
    (hcount : before.length + after.length + 4 < 2 ^ 64) :
    (∀ id, (run live (boot none) (before ++ .crash :: after)).gov.budgets.find? id =
        recoveredBudgets snap id) ∧
      ∀ s, (run live (boot none) (before ++ .crash :: after)).sessions s = .idle →
        (∀ budget gen epoch amount, ∃ st, (st = .staleAuthority ∨ st = .invalidInput) ∧
          (run live (boot none) (before ++ .crash :: after)).step
              (.message s (.reserve budget gen epoch amount)) =
            (run live (boot none) (before ++ .crash :: after)).finish s (.reservation st none)) ∧
        ∀ kind token, (run live (boot none) (before ++ .crash :: after)).step
            (.message s (.settle kind token)) =
          (run live (boot none) (before ++ .crash :: after)).finish s (.status .invalidInput) := by
  have hrunBefore : FirstBudgets (before.length + 1) (run live (boot none) before) :=
    firstBudgets_run (by omega)
  obtain ⟨hfirst, hlow, hhigh⟩ := hrunBefore.snapshots.file snap hfile
  have hold : ∀ b ∈ snap.budgets, b.epoch.value.toNat ≤ snap.epoch.value.toNat := by
    intro b hb
    rw [hfirst b hb]
    exact hlow
  have hfrozen : Frozen (recoveredBudgets snap) snap.epoch.value.toNat
      (snap.epoch.value.toNat + 1 + after.length) (run live (boot (some snap)) after) :=
    frozen_run hold (by omega)
  rw [run_restarted after hfile]
  refine ⟨hfrozen.budgets, fun s hidle => ⟨fun budget gen epoch amount => ?_, fun kind token => ?_⟩⟩
  · obtain ⟨st, hst, hreserve⟩ := hfrozen.reserve budget gen epoch amount
    refine ⟨st, hst, ?_⟩
    rw [step_message_of_idle hidle, receive, hreserve]
    rcases hst with rfl | rfl <;> rfl
  · have hnone : (run live (boot (some snap)) after).reservations.find? token = none := by
      cases hfound : (run live (boot (some snap)) after).reservations.find? token with
      | none => rfl
      | some r => exact (hfrozen.handles.stored token r hfound).elim
    rw [step_message_of_idle hidle, receive, hnone]

def savedThenCrashed : List Life :=
  [.event (.message 0 (.publishPrice { epoch := ⟨1⟩ })), .event (.resume 0 true),
    .event (.resume 0 true)]

def lateReservation : List Life := [.event (.message 1 (.reserve ⟨1⟩ ⟨1⟩ ⟨1⟩ ⟨100⟩))]

theorem recovered_budgets_never_change_lateReservation :
    let c := run live (boot none) (savedThenCrashed ++ .crash :: lateReservation)
    (c.gov.budgets.find? ⟨1⟩).map Budget.limit = some (MoneyMicros.fromUnits 1) ∧
      (∃ st, (st = .staleAuthority ∨ st = .invalidInput) ∧
        c.step (.message 0 (.reserve ⟨1⟩ ⟨1⟩ ⟨2⟩ ⟨100⟩)) = c.finish 0 (.reservation st none)) ∧
      c.step (.message 0 (.settle .commit ⟨1⟩)) = c.finish 0 (.status .invalidInput) := by
  obtain ⟨snap, hsnap, hlimit⟩ : ∃ snap, (run live (boot none) savedThenCrashed).file = some snap ∧
      (recoveredBudgets snap ⟨1⟩).map Budget.limit = some (MoneyMicros.fromUnits 1) :=
    ⟨_, rfl, rfl⟩
  obtain ⟨hbudgets, hrefused⟩ := recovered_budgets_never_change savedThenCrashed lateReservation
    snap hsnap (by decide)
  obtain ⟨hreserve, hsettle⟩ := hrefused 0 rfl
  refine ⟨?_, hreserve _ _ _ _, hsettle _ _⟩
  rw [hbudgets]
  exact hlimit

end CostGovernor
