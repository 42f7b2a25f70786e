import CostGovernor.Custody
import CostGovernor.Executions
import CostGovernor.ReservationCopies

/-!
# Settling a reservation once

`Trail` records the grants and the settle calls of a run. Two sessions that copy
the same ACTIVE reservation both settle it, so its amount leaves the budget twice.
In a run in which an ACTIVE reservation is copied only while no copy of it is out,
each reservation is settled at most once.
-/

namespace CostGovernor

open Executions CheckOut Coordinator

structure SettledOnce (calls : List SettleCall) (r : BudgetReservation) : Prop where
  once : moveCount calls r.id ≤ 1
  whole : ∀ k ∈ calls, k.token = r.id → k.Moves → k.handle.budget = r.budget ∧ k.Transfers r.amount

structure Trail where
  now : Coordinator
  grants : List BudgetReservation := []
  calls : List SettleCall := []

namespace Trail

def start (file : Option DurableSnapshot) : Trail := { now := boot file }

def step (t : Trail) (e : Event) : Trail :=
  { now := t.now.step e
    grants := t.grants ++ t.now.granting e
    calls := t.calls ++ t.now.settling e }

end Trail

/-- A copy of the reservation granted under a token. -/
def FromGrant (grants : List BudgetReservation) (token : ReservationId) (r : BudgetReservation) :
    Prop :=
  ∃ granted ∈ grants, granted.id = token ∧ r.amount = granted.amount ∧ r.budget = granted.budget

theorem FromGrant.append {grants : List BudgetReservation} {token : ReservationId}
    {r : BudgetReservation} (h : FromGrant grants token r) (more : List BudgetReservation) :
    FromGrant (grants ++ more) token r := by
  obtain ⟨granted, hmem, hrest⟩ := h
  exact ⟨granted, List.mem_append_left more hmem, hrest⟩

/-- Every reservation in the map, in a session or in a call is a copy of a grant, and
grants have different tokens. -/
structure Trail.Sourced (t : Trail) : Prop where
  numbered : ∀ r ∈ t.grants, r.id.value.toNat < t.now.gov.nextReservation.toNat
  distinct : ∀ r ∈ t.grants, ∀ r' ∈ t.grants, r.id = r'.id → r = r'
  stored : ∀ token r, t.now.reservations.find? token = some r → FromGrant t.grants token r
  held : ∀ s token u, (t.now.sessions s).use token = some u → FromGrant t.grants token u.value
  called : ∀ k ∈ t.calls,
    FromGrant t.grants k.token k.handle ∧ (k.Moves → k.Transfers k.handle.amount)

namespace Coordinator

/-- A step grants nothing and keeps the counter, or grants the handle of the next token. -/
theorem Change.tokens {c c' : Coordinator} {e : Event} (h : Change c e c') (hcare : Careful c e) :
    c.granting e = [] ∧ c'.gov.nextReservation = c.gov.nextReservation ∨
      ∃ r, c.granting e = [r] ∧ r.id = ⟨c.gov.nextReservation⟩ ∧
        c'.gov.nextReservation.toNat = c.gov.nextReservation.toNat + 1 := by
  cases h with
  | same _ hgrant => exact Or.inl ⟨hgrant, rfl⟩
  | quiet _ _ _ _ hgrant _ _ _ _ _ _ hgov => exact Or.inl ⟨hgrant, hgov.nextReservation⟩
  | grant s budget gen epoch amount r g _ hgrant hid hnext =>
      refine Or.inr ⟨r, hgrant, hid, ?_⟩
      change g.nextReservation.toNat = _
      rw [hnext, UInt64.toNat_add]
      exact Nat.mod_eq_of_lt hcare
  | settle s saved kind token r =>
      refine Or.inl ⟨rfl, ?_⟩
      rw [afterSettle_gov]
      exact (settleCall_steady c.gov kind r).nextReservation
  | _ => exact Or.inl ⟨rfl, rfl⟩

theorem mem_settling {c : Coordinator} {e : Event} {k : SettleCall} (h : k ∈ c.settling e) :
    ∃ s saved kind token r, e = .resume s saved ∧ c.sessions s = .copied kind token r ∧
      k = .ofResult c.gov token r (settleCall c.gov kind r) := by
  cases e with
  | message s m => cases h
  | resume s saved =>
      cases hst : c.sessions s with
      | copied kind token r =>
          rw [settling_resume hst] at h
          exact ⟨s, saved, kind, token, r, rfl, hst, List.mem_singleton.1 h⟩
      | _ =>
          rw [settling_resume hst] at h
          cases h

end Coordinator

namespace Trail.Sourced

theorem start (file : Option DurableSnapshot) : (Trail.start file).Sourced := by
  have hhandles := handles_boot (FromGrant []) file
  exact ⟨by simp [Trail.start], by simp [Trail.start], hhandles.stored, hhandles.held,
    by simp [Trail.start]⟩

/-- The next token has never been used. -/
theorem unused {t : Trail} (h : t.Sourced) :
    t.now.reservations.find? ⟨t.now.gov.nextReservation⟩ = none ∧
      ∀ s, (t.now.sessions s).use ⟨t.now.gov.nextReservation⟩ = none := by
  have hno : ∀ r, ¬ FromGrant t.grants ⟨t.now.gov.nextReservation⟩ r := by
    rintro r ⟨granted, hmem, hid, _⟩
    have hlt := h.numbered granted hmem
    rw [hid] at hlt
    exact absurd hlt (lt_irrefl _)
  constructor
  · rw [Option.eq_none_iff_forall_ne_some]
    exact fun r hr => hno r (h.stored _ r hr)
  · intro s
    rw [Option.eq_none_iff_forall_ne_some]
    exact fun u hu => hno u.value (h.held s _ u hu)

theorem numbered_step {t : Trail} (h : t.Sourced) {e : Event} (hcare : Careful t.now e) :
    ∀ r ∈ (t.step e).grants, r.id.value.toNat < (t.step e).now.gov.nextReservation.toNat := by
  intro r hr
  change r ∈ t.grants ++ t.now.granting e at hr
  change _ < (t.now.step e).gov.nextReservation.toNat
  rcases (t.now.step_change e).tokens hcare with ⟨hgrant, hnext⟩ | ⟨r', hgrant, hid, hnext⟩
  · rw [hgrant, List.append_nil] at hr
    rw [hnext]
    exact h.numbered r hr
  · rw [hgrant, List.mem_append, List.mem_singleton] at hr
    rcases hr with hr | rfl
    · have hlt := h.numbered r hr
      omega
    · rw [hid, hnext]
      exact Nat.lt_succ_self _

/-- A new token is above all earlier ones. -/
theorem distinct_step {t : Trail} (h : t.Sourced) {e : Event} (hcare : Careful t.now e) :
    ∀ r ∈ (t.step e).grants, ∀ r' ∈ (t.step e).grants, r.id = r'.id → r = r' := by
  change ∀ r ∈ t.grants ++ t.now.granting e, ∀ r' ∈ t.grants ++ t.now.granting e, _
  rcases (t.now.step_change e).tokens hcare with ⟨hgrant, _⟩ | ⟨new, hgrant, hid, _⟩
  · rw [hgrant, List.append_nil]
    exact h.distinct
  · have hne : ∀ r ∈ t.grants, r.id ≠ new.id := by
      intro r hr he
      have hlt := h.numbered r hr
      rw [he, hid] at hlt
      exact absurd hlt (lt_irrefl _)
    rw [hgrant]
    intro r hr r' hr' heq
    rw [List.mem_append, List.mem_singleton] at hr hr'
    rcases hr with hr | rfl <;> rcases hr' with hr' | rfl
    · exact h.distinct r hr r' hr' heq
    · exact absurd heq (hne r hr)
    · exact absurd heq.symm (hne r' hr')
    · rfl

theorem handles_step {t : Trail} (h : t.Sourced) (e : Event) :
    Handles (FromGrant (t.step e).grants) (t.step e).now := by
  refine (t.now.step_change e).handles (fun _ _ _ hr => hr) (fun r hr => ?_) ?_
  · exact ⟨r, List.mem_append_right t.grants hr, rfl, rfl, rfl⟩
  · exact ⟨fun token r hr => (h.stored token r hr).append _,
      fun s token u hu => (h.held s token u hu).append _⟩

theorem called_step {t : Trail} (h : t.Sourced) {e : Event} (hcare : Careful t.now e) :
    ∀ k ∈ (t.step e).calls, FromGrant (t.step e).grants k.token k.handle ∧
      (k.Moves → k.Transfers k.handle.amount) := by
  intro k hk
  rcases List.mem_append.1 hk with hold | hnew
  · exact ⟨(h.called k hold).1.append _, (h.called k hold).2⟩
  · obtain ⟨s, saved, kind, token, r, rfl, hst, rfl⟩ := mem_settling hnew
    have hfrom := h.held s token (.copied r) (by rw [hst]; exact use_copied.2 ⟨rfl, rfl⟩)
    have hspec := settleCall_spec (hcare kind token r hst) token
    exact ⟨hfrom.append _, fun hmoves => (hspec.moves hmoves).2.2.2⟩

theorem step {t : Trail} (h : t.Sourced) {e : Event} (hcare : Careful t.now e) :
    (t.step e).Sourced :=
  ⟨h.numbered_step hcare, h.distinct_step hcare, (h.handles_step e).stored,
    (h.handles_step e).held, h.called_step hcare⟩

end Trail.Sourced

namespace Trail

structure Kept (t : Trail) : Prop where
  sourced : t.Sourced
  sound : ∀ token, Sound Active (cellOf t.now t.calls token)

theorem kept_start (file : Option DurableSnapshot) : (start file).Kept := by
  refine ⟨Sourced.start file, ?_⟩
  intro token
  have hcell : cellOf (start file).now (start file).calls token = ⟨none, fun _ => none, 0⟩ := by
    cases file <;> rfl
  rw [hcell]
  exact sound_start

theorem Kept.step {t : Trail} (h : t.Kept) {e : Event} (hcare : Careful t.now e) :
    (t.step e).Kept := by
  refine ⟨h.sourced.step hcare, fun token => ?_⟩
  have hcell := (t.now.step_change e).cell_step hcare h.sourced.unused t.calls token
  exact hcell.sound (h.sound token)

theorem Kept.settledOnce {t : Trail} (h : t.Kept) {r : BudgetReservation} (hr : r ∈ t.grants) :
    SettledOnce t.calls r := by
  refine ⟨(h.sound r.id).once, ?_⟩
  intro k hk htoken hmoves
  obtain ⟨⟨granted, hmem, hid, hamount, hbudget⟩, htransfers⟩ := h.sourced.called k hk
  have he : granted = r := h.sourced.distinct granted hmem r hr (hid.trans htoken)
  rw [he] at hamount hbudget
  exact ⟨hbudget, hamount ▸ htransfers hmoves⟩

end Trail

/-- In a run in which no ACTIVE reservation is copied while a copy of it is out, the
amount of every granted reservation leaves `reserved` at most once, for one of
`consumed` and `released`. -/
theorem reservation_settled_at_most_once (file : Option DurableSnapshot) (es : List Event)
    (hcare : Along Coordinator.step Careful (boot file) es) :
    ∀ r ∈ (run Trail.step (Trail.start file) es).grants,
      SettledOnce (run Trail.step (Trail.start file) es).calls r := by
  have hcare' : Along Trail.step (fun t e => Careful t.now e) (Trail.start file) es :=
    along_comap Trail.now (fun _ _ => rfl) hcare
  have hkept : (run Trail.step (Trail.start file) es).Kept :=
    run_invariant (I := Trail.Kept) (fun _ _ hk hc => hk.step hc) (Trail.kept_start file) hcare'
  exact fun r hr => hkept.settledOnce hr

def commitAlone : List Event :=
  [.message 0 (.reserve ⟨1⟩ ⟨1⟩ ⟨1⟩ ⟨4⟩), .resume 0 true, .message 0 (.settle .commit ⟨1⟩),
    .resume 0 true, .resume 0 true]

theorem reservation_settled_at_most_once_commitAlone :
    let t := run Trail.step (Trail.start none) commitAlone
    moveCount t.calls ⟨1⟩ = 1 ∧ t.grants.length = 1 ∧ ∀ r ∈ t.grants, SettledOnce t.calls r := by
  refine ⟨by decide, rfl, reservation_settled_at_most_once none commitAlone ?_⟩
  refine ⟨?_, ?_, ?_, ?_, ?_, trivial⟩
  · change (boot none).gov.nextReservation.toNat + 1 < 2 ^ 64
    decide
  · intro kind token r h
    cases h
  · intro _ r _ _ s' r' hout
    let idle : ℕ → SessionState := fun _ => .idle
    change IsOut ((Function.update (Function.update idle 0 (.granted _)) 0 .idle s').use _) r' at hout
    by_cases hs : s' = 0
    · subst hs
      cases hout
    · rw [Function.update_of_ne hs, Function.update_of_ne hs] at hout
      cases hout
  · intro kind token r h
    cases h
    intro b _ _ hkind
    exact absurd hkind (by decide)
  · intro kind token r h
    cases h

/-- A second session copies the reservation before the first has written it back. -/
def commitRace : List Event :=
  [.message 0 (.reserve ⟨1⟩ ⟨1⟩ ⟨1⟩ ⟨4⟩), .resume 0 true, .message 0 (.settle .commit ⟨1⟩),
    .message 1 (.settle .commit ⟨1⟩), .resume 0 true, .resume 1 true]

theorem racing_commits_charge_twice :
    let t := run Trail.step (Trail.start none) commitRace
    (∃ r ∈ t.grants, ¬ SettledOnce t.calls r) ∧
      (t.now.gov.budgets.find? ⟨1⟩).map Budget.totals = some (⟨-4⟩, ⟨8⟩, ⟨0⟩) := by
  refine ⟨?_, rfl⟩
  refine ⟨_, List.mem_cons_self, ?_⟩
  intro h
  exact absurd h.once (by decide)

end CostGovernor
