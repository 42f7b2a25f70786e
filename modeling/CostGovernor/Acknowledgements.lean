import CostGovernor.Books
import CostGovernor.ReservationCopies

/-!
# What acknowledged accounting leaves behind after a crash

COMMIT and REALIZE reply without saving; their effect reaches the state file with
the next save that some other handler makes. Beside a life of the coordinator, crashes
and restarts included, we record which reservations were committed with an OK reply
and which requests were realized. Both survive every crash that finds them saved.
-/

namespace CostGovernor

open Executions Tallies Coordinator

namespace Coordinator

/-- A COMMIT or RELEASE handler replies OK in this step. -/
def acknowledging (c : Coordinator) : Event → Bool
  | .resume s _ =>
    match c.sessions s with
    | .settled _ _ .ok => true
    | _ => false
  | _ => false

def realizing (c : Coordinator) : Event → List RequestId
  | .resume s _ =>
    match c.sessions s with
    | .finalized request .ok =>
      match c.gov.realizedRequestCost request with
      | .ok _ => [request]
      | .error _ => []
    | _ => []
  | _ => []

theorem granting_nonneg {c : Coordinator} {e : Event} {r : BudgetReservation}
    (h : r ∈ c.granting e) : 0 ≤ r.amount.toInt := by
  cases e with
  | resume s saved => cases h
  | message s m =>
      cases m with
      | reserve budget gen epoch amount =>
          dsimp only [granting] at h
          split at h
          · have hcase := c.gov.reserve_cases budget gen epoch amount
            generalize c.gov.reserve budget gen epoch amount = x at hcase h
            cases hcase with
            | granted b reservedAfter hg =>
                cases List.mem_singleton.1 h
                exact hg.nonneg
            | _ => cases h
          · cases h
      | _ => cases h

theorem realizing_cases {c : Coordinator} {e : Event} {request : RequestId}
    (h : request ∈ c.realizing e) : ∃ s, c.sessions s = .finalized request .ok := by
  cases e with
  | message s m => cases h
  | resume s saved =>
      dsimp only [realizing] at h
      split at h
      · next request' hst =>
          split at h
          · cases List.mem_singleton.1 h
            exact ⟨s, hst⟩
          · cases h
      · cases h

end Coordinator

/-- A step of the coordinator, or a crash and a restart on the state file. -/
inductive Life
  | event (e : Event)
  | crash

structure Journal where
  now : Coordinator
  /-- The sessions that will acknowledge a COMMIT. -/
  committing : List (ℕ × BudgetReservation) := []
  /-- The reservations whose COMMIT was acknowledged OK. -/
  committed : List BudgetReservation := []
  /-- The requests whose REALIZE was acknowledged OK. -/
  realized : List RequestId := []

namespace Journal

def start (file : Option DurableSnapshot) : Journal := { now := boot file }

def step (j : Journal) : Life → Journal
  | .event e =>
    let own := fun x : ℕ × BudgetReservation => decide (x.1 = e.session)
    { now := j.now.step e
      committing :=
        (if j.now.acknowledging e then j.committing.filter (fun x => !own x) else j.committing) ++
          j.now.charging e
      committed :=
        if j.now.acknowledging e then j.committed ++ (j.committing.filter own).map Prod.snd
        else j.committed
      realized := j.realized ++ j.now.realizing e }
  | .crash => { j with now := boot j.now.file, committing := [] }

def acknowledgedTotal (j : Journal) (id : BudgetId) : ℤ := totalFor id j.committed

/-- Acknowledged accounting is in the governor. -/
structure Survives (j : Journal) : Prop where
  committed : ∀ id, j.acknowledgedTotal id ≤ j.now.gov.consumedOf id
  realized : ∀ request ∈ j.realized, ∃ h ∈ j.now.gov.history, h.request = request

/-- COMMIT reaches the governor with an ACTIVE copy. A crash finds the consumed totals of
the budgets with an acknowledged COMMIT and the entries of acknowledged requests saved, and
no negative total. -/
def Saved (j : Journal) : Life → Prop
  | .event (.resume s _) =>
    ∀ token r, j.now.sessions s = .copied .commit token r → r.state = .active
  | .event (.message _ _) => True
  | .crash => (∀ id, 0 ≤ savedConsumed j.now.file id) ∧
    (∀ r ∈ j.committed, j.now.gov.consumedOf r.budget ≤ savedConsumed j.now.file r.budget) ∧
    ∀ h ∈ j.now.gov.history, h.request ∈ j.realized → h ∈ savedHistory j.now.file

end Journal

theorem totalFor_map (id : BudgetId) (xs : List (ℕ × BudgetReservation)) :
    totalFor id (xs.map Prod.snd) =
      tally (fun x => x.2.budget = id) (fun x => x.2.amount.toInt) xs := by
  unfold totalFor tally
  rw [List.map_map]
  rfl

namespace Journal

structure Covered (j : Journal) : Prop where
  handles : Handles (fun _ r => 0 ≤ r.amount.toInt) j.now
  owed : ∀ x ∈ j.committing, 0 ≤ x.2.amount.toInt
  consumed : ∀ id, totalFor id j.committed + totalFor id (j.committing.map Prod.snd) ≤
    j.now.gov.consumedOf id
  finalized : ∀ s request, j.now.sessions s = .finalized request .ok →
    ∃ h ∈ j.now.gov.history, h.request = request
  realized : ∀ request ∈ j.realized, ∃ h ∈ j.now.gov.history, h.request = request

theorem Covered.survives {j : Journal} (h : j.Covered) : j.Survives := by
  refine ⟨fun id => ?_, h.realized⟩
  have howed : 0 ≤ totalFor id (j.committing.map Prod.snd) := by
    rw [totalFor_map]
    exact tally_nonneg _ _ h.owed
  have hconsumed := h.consumed id
  unfold acknowledgedTotal
  omega

theorem covered_start {file : Option DurableSnapshot} (hfile : ∀ id, 0 ≤ savedConsumed file id) :
    (start file).Covered := by
  refine ⟨handles_boot _ file, by simp [start], fun id => ?_, fun s request hs => ?_,
    by simp [start]⟩
  · change 0 + 0 ≤ (boot file).gov.consumedOf id
    rw [consumedOf_boot]
    exact hfile id
  · change (boot file).sessions s = _ at hs
    rw [boot_sessions] at hs
    cases hs

theorem Covered.crash {j : Journal} (h : j.Covered) (hsaved : j.Saved .crash) :
    (j.step .crash).Covered := by
  have hsurvives := h.survives
  obtain ⟨hnonneg, hconsumed, hhistory⟩ := hsaved
  refine ⟨handles_boot _ _, fun x hx => (nomatch hx), fun id => ?_, fun s request hs => ?_,
    fun request hrequest => ?_⟩
  · change totalFor id j.committed + 0 ≤ (boot j.now.file).gov.consumedOf id
    rw [consumedOf_boot, add_zero]
    by_cases hsome : ∃ r ∈ j.committed, r.budget = id
    · obtain ⟨r, hr, rfl⟩ := hsome
      exact (hsurvives.committed r.budget).trans (hconsumed r hr)
    · have hnone : totalFor id j.committed = 0 :=
        tally_eq_zero _ _ fun r hr hid => hsome ⟨r, hr, hid⟩
      exact hnone.trans_le (hnonneg id)
  · change (boot j.now.file).sessions s = _ at hs
    rw [boot_sessions] at hs
    cases hs
  · obtain ⟨entry, hmem, he⟩ := hsurvives.realized request hrequest
    change ∃ h ∈ (boot j.now.file).gov.history, _
    rw [history_boot]
    exact ⟨entry, hhistory entry hmem (he ▸ hrequest), he⟩

theorem totalFor_step (j : Journal) (e : Event) (id : BudgetId) :
    totalFor id (j.step (.event e)).committed +
        totalFor id ((j.step (.event e)).committing.map Prod.snd) =
      totalFor id j.committed + totalFor id (j.committing.map Prod.snd) +
        totalFor id ((j.now.charging e).map Prod.snd) := by
  dsimp only [step]
  rw [List.map_append]
  split_ifs
  · have hsplit := tally_filter_add (fun x : ℕ × BudgetReservation => x.2.budget = id)
      (fun x => x.2.amount.toInt) (fun x => decide (x.1 = e.session)) j.committing
    simp only [← totalFor_map] at hsplit
    unfold totalFor at hsplit ⊢
    rw [tally_append, tally_append, ← hsplit]
    omega
  · unfold totalFor
    rw [tally_append]
    omega

theorem mem_committing_step {j : Journal} {e : Event} {x : ℕ × BudgetReservation}
    (h : x ∈ (j.step (.event e)).committing) : x ∈ j.committing ∨ x ∈ j.now.charging e := by
  dsimp only [step] at h
  rcases List.mem_append.1 h with h | h
  · split_ifs at h
    · exact Or.inl (List.mem_of_mem_filter h)
    · exact Or.inl h
  · exact Or.inr h

theorem Covered.event {j : Journal} (h : j.Covered) {e : Event} (hsaved : j.Saved (.event e)) :
    (j.step (.event e)).Covered := by
  obtain ⟨hconsumed, hhistory⟩ := step_books (c := j.now) (e := e) (by
    rintro s saved token r rfl
    exact hsaved token r)
  have hkept {request} (hmem : ∃ x ∈ j.now.gov.history, x.request = request) :
      ∃ x ∈ (j.now.step e).gov.history, x.request = request := by
    obtain ⟨x, hx, hr⟩ := hmem
    exact ⟨x, hhistory x hx, hr⟩
  refine ⟨?_, fun x hx => ?_, fun id => ?_, fun s request hs => ?_, fun request hrequest => ?_⟩
  · exact (j.now.step_change e).handles (fun _ _ _ hr => hr) (fun _ hr => granting_nonneg hr)
      h.handles
  · rcases mem_committing_step hx with hx | hx
    · exact h.owed x hx
    · obtain ⟨token, hst⟩ := charging_cases hx
      exact h.handles.held x.1 token (.copied x.2) (by rw [hst]; exact use_copied.2 ⟨rfl, rfl⟩)
  · rw [totalFor_step]
    have hbooks := h.consumed id
    change _ ≤ (j.now.step e).gov.consumedOf id
    rw [hconsumed id]
    omega
  · rcases step_finalized hs with hold | ⟨workload, hcall, hok⟩
    · exact hkept (h.finalized s request hold)
    · change ∃ x ∈ (j.now.step e).gov.history, _
      rw [step_gov, hcall]
      exact (j.now.gov.finalizeRequest_books request workload).2.2 hok
  · rcases List.mem_append.1 hrequest with hold | hnew
    · exact hkept (h.realized request hold)
    · obtain ⟨s, hst⟩ := realizing_cases hnew
      exact hkept (h.finalized s request hst)

theorem Covered.step {j : Journal} (h : j.Covered) {l : Life} (hsaved : j.Saved l) :
    (j.step l).Covered := by
  cases l with
  | event e => exact h.event hsaved
  | crash => exact h.crash hsaved

end Journal

/-- The consumed totals cover every acknowledged COMMIT and the history every
acknowledged REALIZE, across all restarts, when each crash finds them saved. -/
theorem acknowledged_accounting_survives_crash (file : Option DurableSnapshot) (lives : List Life)
    (hfile : ∀ id, 0 ≤ savedConsumed file id)
    (hsaved : Along Journal.step Journal.Saved (Journal.start file) lives) :
    (run Journal.step (Journal.start file) lives).Survives := by
  have hcovered : (run Journal.step (Journal.start file) lives).Covered :=
    run_invariant (I := Journal.Covered) (fun _ _ hj hc => hj.step hc)
      (Journal.covered_start hfile) hsaved
  exact hcovered.survives

/-- One session records an attempt, reserves 4 and commits it, and realizes the request. -/
def commitAndRealize : List Life :=
  [.event (.message 0 (.recordAttempt { request := ⟨1⟩, attempt := ⟨1⟩, epoch := ⟨1⟩ })),
    .event (.resume 0 true), .event (.resume 0 true),
    .event (.message 0 (.reserve ⟨1⟩ ⟨1⟩ ⟨1⟩ ⟨4⟩)), .event (.resume 0 true),
    .event (.message 0 (.settle .commit ⟨1⟩)), .event (.resume 0 true), .event (.resume 0 true),
    .event (.message 0 (.realize ⟨1⟩ ⟨1⟩)), .event (.resume 0 true)]

def savedBeforeCrash : List Life :=
  commitAndRealize ++
    [.event (.message 0 (.publishPrice { id := ⟨1⟩, epoch := ⟨1⟩, amount := ⟨7⟩ })),
      .event (.resume 0 true), .event (.resume 0 true), .crash]

theorem acknowledged_accounting_survives_crash_savedBeforeCrash :
    let j := run Journal.step (Journal.start none) savedBeforeCrash
    j.acknowledgedTotal ⟨1⟩ = 4 ∧ j.realized = [⟨1⟩] ∧ j.Survives := by
  refine ⟨by decide, by decide, acknowledged_accounting_survives_crash none savedBeforeCrash
    (fun _ => le_rfl) ?_⟩
  refine ⟨trivial, ?_, ?_, trivial, ?_, trivial, ?_, ?_, trivial, ?_, trivial, ?_, ?_, ?_, trivial⟩
  case refine_9 =>
    refine ⟨savedConsumed_nonneg fun snap hsnap => ?_, by decide, fun _ hh _ => hh⟩
    cases hsnap
    decide
  -- of the other steps only the COMMIT has a copy
  all_goals
    intro token r h
    cases h
  rfl

theorem acknowledged_commit_lost_in_crash :
    let j := run Journal.step (Journal.start none) (commitAndRealize ++ [.crash])
    j.acknowledgedTotal ⟨1⟩ = 4 ∧ j.realized = [⟨1⟩] ∧ j.now.gov.consumedOf ⟨1⟩ = 0 ∧
      j.now.gov.history = [] ∧ ¬ j.Survives := by
  refine ⟨by decide, by decide, by decide, rfl, fun h => ?_⟩
  exact absurd (h.committed ⟨1⟩) (by decide)

end CostGovernor
