import CostGovernor.Operations
import CostGovernor.Executions
import CostGovernor.Tallies

/-!
# Clients that hold their handles by reference

A client keeps every handle `reserve` returned and passes it on by its position,
so a handle is never copied and `commit` and `release` write the one that exists.
The client also records its successful direct charges and whether a call threw.
-/

namespace CostGovernor

structure Client where
  gov : Governor
  handles : List BudgetReservation := []
  charges : List (BudgetId × MoneyMicros) := []
  threw : Bool := false

inductive ClientOp
  | createBudget (budget : Budget)
  | reserve (budget : BudgetId) (gen : BudgetGeneration) (epoch : CoordinatorEpoch)
      (amount : MoneyMicros)
  | commit (i : ℕ)
  | release (i : ℕ)
  | consume (budget : BudgetId) (gen : BudgetGeneration) (epoch : CoordinatorEpoch)
      (amount : MoneyMicros)
  | other (op : Op) (h : op.isBudgetCall = false)

namespace Client

def start (now : Int64) : Client := { gov := Governor.fresh now }

/-- Run one governor call, noting whether it threw. -/
def call (c : Client) (op : Op) : Client :=
  { c with gov := c.gov.apply op, threw := c.threw || (c.gov.exec op).1.threw }

def chargeMade (result : Except Exn Status) (budget : BudgetId) (amount : MoneyMicros) :
    List (BudgetId × MoneyMicros) :=
  match result with
  | .ok .ok => [(budget, amount)]
  | _ => []

theorem chargeMade_of_ne {st : Status} (h : st ≠ .ok) (budget : BudgetId) (amount : MoneyMicros) :
    chargeMade (.ok st) budget amount = [] := by
  cases st <;> first | rfl | exact absurd rfl h

def step (c : Client) : ClientOp → Client
  | .createBudget b => c.call (.createBudget b)
  | .reserve budget gen epoch amount =>
    { c.call (.reserve budget gen epoch amount) with
      handles := c.handles ++ (c.gov.reserve budget gen epoch amount).2.1.toList }
  | .commit i =>
    match c.handles[i]? with
    | none => c
    | some r => { c.call (.commit r) with handles := c.handles.set i (c.gov.commit r).2.1 }
  | .release i =>
    match c.handles[i]? with
    | none => c
    | some r => { c.call (.release r) with handles := c.handles.set i (c.gov.release r).2.1 }
  | .consume budget gen epoch amount =>
    { c.call (.consume budget gen epoch amount) with
      charges := c.charges ++ chargeMade (c.gov.consume budget gen epoch amount).1 budget amount }
  | .other op _ => c.call op

theorem step_commit {c : Client} {i : ℕ} {r : BudgetReservation} (hi : c.handles[i]? = some r) :
    c.step (.commit i) =
      { c.call (.commit r) with handles := c.handles.set i (c.gov.commit r).2.1 } := by
  simp only [step, hi]

theorem step_release {c : Client} {i : ℕ} {r : BudgetReservation} (hi : c.handles[i]? = some r) :
    c.step (.release i) =
      { c.call (.release r) with handles := c.handles.set i (c.gov.release r).2.1 } := by
  simp only [step, hi]

theorem step_of_no_handle {c : Client} {i : ℕ} (hi : c.handles[i]? = none) :
    c.step (.commit i) = c ∧ c.step (.release i) = c := by
  simp only [step, hi, and_self]

/-- The handle names a budget of the map, under that budget's own generation and
epoch, for an amount that is not negative. -/
def Anchored (c : Client) (r : BudgetReservation) : Prop :=
  0 ≤ r.amount.toInt ∧ ∃ b, c.gov.budgets.find? r.budget = some b ∧
    b.generation = r.budgetGeneration ∧ b.epoch = r.epoch

structure Grounded (c : Client) : Prop where
  handles : ∀ r ∈ c.handles, c.Anchored r
  charges : ∀ x ∈ c.charges, ∃ b, c.gov.budgets.find? x.1 = some b

theorem grounded_start (now : Int64) : (start now).Grounded where
  handles := by
    intro r hr
    cases hr
  charges := by
    intro x hx
    cases hx

theorem Anchored.call {c : Client} {r : BudgetReservation} (h : c.Anchored r) (op : Op) :
    (c.call op).Anchored r := by
  obtain ⟨hamount, b, hb, hgen, hepoch⟩ := h
  obtain ⟨b', hb', hchange⟩ := (c.gov.exec_budgets op).find?_of_some hb
  refine ⟨hamount, b', hb', ?_⟩
  rcases hchange with rfl | hchange
  · exact ⟨hgen, hepoch⟩
  · obtain ⟨hgen', hepoch', _⟩ := hchange.terms
    exact ⟨hgen'.trans hgen, hepoch'.trans hepoch⟩

theorem Anchored.withState {c : Client} {r : BudgetReservation} (h : c.Anchored r)
    (s : ReservationState) : c.Anchored { r with state := s } := h

theorem Grounded.call {c : Client} (h : c.Grounded) (op : Op) : (c.call op).Grounded where
  handles := fun r hr => (h.handles r hr).call op
  charges := by
    intro x hx
    obtain ⟨b, hb⟩ := h.charges x hx
    obtain ⟨b', hb', _⟩ := (c.gov.exec_budgets op).find?_of_some hb
    exact ⟨b', hb'⟩

theorem Grounded.setHandle {c : Client} (h : c.Grounded) {i : ℕ} {r : BudgetReservation}
    (hi : c.handles[i]? = some r) (s : ReservationState) :
    Grounded { c with handles := c.handles.set i { r with state := s } } := by
  refine ⟨?_, h.charges⟩
  intro r' hr'
  rcases List.mem_or_eq_of_mem_set hr' with hold | rfl
  · exact h.handles r' hold
  · exact (h.handles r (List.mem_of_getElem? hi)).withState s

theorem anchored_reserve (c : Client) (budget : BudgetId) (gen : BudgetGeneration)
    (epoch : CoordinatorEpoch) (amount : MoneyMicros) {r : BudgetReservation}
    (hr : (c.gov.reserve budget gen epoch amount).2.1 = some r) :
    (c.call (.reserve budget gen epoch amount)).Anchored r := by
  change 0 ≤ r.amount.toInt ∧ ∃ b,
    (c.gov.reserve budget gen epoch amount).2.2.budgets.find? r.budget = some b ∧
      b.generation = r.budgetGeneration ∧ b.epoch = r.epoch
  have h := c.gov.reserve_cases budget gen epoch amount
  generalize c.gov.reserve budget gen epoch amount = x at h hr ⊢
  cases h with
  | refused => cases hr
  | threw => cases hr
  | expired => cases hr
  | granted b reservedAfter hg =>
      rw [← Option.some.inj hr]
      refine ⟨hg.nonneg, { b with reserved := reservedAfter, lifecycle := .reserved }, ?_,
        hg.generation, hg.budgetEpoch⟩
      exact (HashedMap.find?_set _ _ _ _).trans (if_pos rfl)

theorem find?_of_chargeMade (c : Client) {budget : BudgetId} {gen : BudgetGeneration}
    {epoch : CoordinatorEpoch} {amount : MoneyMicros} {x : BudgetId × MoneyMicros}
    (hx : x ∈ chargeMade (c.gov.consume budget gen epoch amount).1 budget amount) :
    ∃ b, c.gov.budgets.find? budget = some b ∧ x.1 = budget := by
  have h := c.gov.consume_cases budget gen epoch amount
  generalize c.gov.consume budget gen epoch amount = y at h hx
  cases h with
  | refused st hst =>
      rw [chargeMade_of_ne hst] at hx
      cases hx
  | threw e => cases hx
  | expired b _ _ => cases hx
  | charged b consumed hc _ _ _ => exact ⟨b, hc.found, congrArg Prod.fst (List.mem_singleton.1 hx)⟩

theorem Grounded.step {c : Client} (h : c.Grounded) (op : ClientOp) : (c.step op).Grounded := by
  cases op with
  | createBudget b => exact h.call _
  | reserve budget gen epoch amount =>
      have hcall := h.call (.reserve budget gen epoch amount)
      refine ⟨?_, hcall.charges⟩
      intro r hr
      rcases List.mem_append.1 hr with hold | hnew
      · exact hcall.handles r hold
      · exact c.anchored_reserve budget gen epoch amount (by simpa using hnew)
  | commit i =>
      cases hi : c.handles[i]? with
      | none => exact (step_of_no_handle hi).1.symm ▸ h
      | some r =>
          obtain ⟨s, hs⟩ := c.gov.commit_handle r
          rw [step_commit hi, hs]
          exact (h.call (.commit r)).setHandle hi s
  | release i =>
      cases hi : c.handles[i]? with
      | none => exact (step_of_no_handle hi).2.symm ▸ h
      | some r =>
          obtain ⟨s, hs⟩ := c.gov.release_handle r
          rw [step_release hi, hs]
          exact (h.call (.release r)).setHandle hi s
  | consume budget gen epoch amount =>
      have hcall := h.call (.consume budget gen epoch amount)
      refine ⟨hcall.handles, ?_⟩
      intro x hx
      rcases List.mem_append.1 hx with hold | hnew
      · exact hcall.charges x hold
      · obtain ⟨b, hb, hbudget⟩ := c.find?_of_chargeMade hnew
        obtain ⟨b', hb', _⟩ :=
          (c.gov.exec_budgets (.consume budget gen epoch amount)).find?_of_some hb
        rw [hbudget]
        exact ⟨b', hb'⟩
  | other op hop => exact h.call op

def Settled (c : Client) (i : ℕ) : Prop := ∃ r, c.handles[i]? = some r ∧ r.state ≠ .active

theorem step_commit_unchanged {c : Client} {i : ℕ} {r : BudgetReservation} {st : Status}
    (hi : c.handles[i]? = some r) (h : c.gov.commit r = (.ok st, r, c.gov)) :
    c.step (.commit i) = c := by
  rw [step_commit hi]
  simp only [call, Governor.apply, Governor.exec, h, Tallies.set_eq_self hi, Reply.threw, Bool.or_false]

theorem step_release_unchanged {c : Client} {i : ℕ} {r : BudgetReservation} {st : Status}
    (hi : c.handles[i]? = some r) (h : c.gov.release r = (.ok st, r, c.gov)) :
    c.step (.release i) = c := by
  rw [step_release hi]
  simp only [call, Governor.apply, Governor.exec, h, Tallies.set_eq_self hi, Reply.threw, Bool.or_false]

/-- A second commit or release of a handle changes nothing. -/
theorem Settled.step_eq {c : Client} {i : ℕ} (h : c.Settled i) :
    c.step (.commit i) = c ∧ c.step (.release i) = c := by
  obtain ⟨r, hi, hstate⟩ := h
  obtain ⟨st, hcommit⟩ := c.gov.commit_of_not_active hstate
  obtain ⟨st', hrelease⟩ := c.gov.release_of_not_active hstate
  exact ⟨step_commit_unchanged hi hcommit, step_release_unchanged hi hrelease⟩

theorem settled_set {c : Client} {i : ℕ} {r r' : BudgetReservation} (hi : c.handles[i]? = some r)
    (h : r'.state ≠ .active) : Settled { c with handles := c.handles.set i r' } i := by
  obtain ⟨hlt, _⟩ := List.getElem?_eq_some_iff.1 hi
  exact ⟨r', List.getElem?_set_self hlt, h⟩

/-- A commit or release that returns has no effect at all or settles its handle. -/
theorem step_commit_settles {c : Client} {i : ℕ} (h : (c.step (.commit i)).threw = false) :
    c.step (.commit i) = c ∨ (c.step (.commit i)).Settled i := by
  cases hi : c.handles[i]? with
  | none => exact Or.inl (step_of_no_handle hi).1
  | some r =>
      rcases c.gov.commit_settles r with ⟨st, hst⟩ | ⟨e, he⟩ | hstate
      · exact Or.inl (step_commit_unchanged hi hst)
      · rw [step_commit hi] at h
        simp [call, Governor.exec, he, Reply.threw] at h
      · rw [step_commit hi]
        exact Or.inr (settled_set (c := c.call (.commit r)) hi hstate)

theorem step_release_settles {c : Client} {i : ℕ} (h : (c.step (.release i)).threw = false) :
    c.step (.release i) = c ∨ (c.step (.release i)).Settled i := by
  cases hi : c.handles[i]? with
  | none => exact Or.inl (step_of_no_handle hi).2
  | some r =>
      rcases c.gov.release_settles r with ⟨st, hst⟩ | ⟨e, he⟩ | hstate
      · exact Or.inl (step_release_unchanged hi hst)
      · rw [step_release hi] at h
        simp [call, Governor.exec, he, Reply.threw] at h
      · rw [step_release hi]
        exact Or.inr (settled_set (c := c.call (.release r)) hi hstate)

theorem Settled.of_handles {c c' : Client} {i : ℕ} (h : c.Settled i)
    (hh : c'.handles[i]? = c.handles[i]?) : c'.Settled i := by
  obtain ⟨r, hi, hstate⟩ := h
  exact ⟨r, hh.trans hi, hstate⟩

theorem Settled.step {c : Client} {i : ℕ} (h : c.Settled i) (op : ClientOp) :
    (c.step op).Settled i := by
  cases op with
  | createBudget b => exact h
  | reserve budget gen epoch amount =>
      obtain ⟨r, hi, _⟩ := id h
      obtain ⟨hlt, _⟩ := List.getElem?_eq_some_iff.1 hi
      exact h.of_handles (List.getElem?_append_left hlt)
  | commit j =>
      cases hj : c.handles[j]? with
      | none => exact (step_of_no_handle hj).1.symm ▸ h
      | some r =>
          by_cases hij : j = i
          · exact (hij ▸ h.step_eq.1).symm ▸ h
          · rw [step_commit hj]
            exact h.of_handles (List.getElem?_set_ne hij)
  | release j =>
      cases hj : c.handles[j]? with
      | none => exact (step_of_no_handle hj).2.symm ▸ h
      | some r =>
          by_cases hij : j = i
          · exact (hij ▸ h.step_eq.2).symm ▸ h
          · rw [step_release hj]
            exact h.of_handles (List.getElem?_set_ne hij)
  | consume budget gen epoch amount => exact h
  | other op hop => exact h

end Client

end CostGovernor
