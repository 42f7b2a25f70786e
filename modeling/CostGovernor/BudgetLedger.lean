import CostGovernor.Client

/-!
# The budget ledger

The budget totals and the states of the handles record the same accounts twice. A ledger
balances when the totals of each budget are the tallies of its handles and direct charges,
and it goes on to when a handle is settled with its amount moved to the matching total.
-/

namespace CostGovernor

open Executions Tallies

def held (handles : List BudgetReservation) (id : BudgetId) (s : ReservationState) : ℤ :=
  tally (fun r => r.budget = id ∧ r.state = s) (fun r => r.amount.toInt) handles

def charged (charges : List (BudgetId × MoneyMicros)) (id : BudgetId) : ℤ :=
  tally (fun x => x.1 = id) (fun x => x.2.toInt) charges

/-- The totals of a budget agree with the handles and the direct charges. -/
structure Balanced (handles : List BudgetReservation) (charges : List (BudgetId × MoneyMicros))
    (id : BudgetId) (b : Budget) : Prop where
  reserved : b.reserved.toInt = held handles id .active
  released : b.released.toInt = held handles id .released + held handles id .expired
  consumed : b.consumed.toInt = held handles id .committed + charged charges id
  withinLimit : b.reserved ≤ b.limit

def Ledger (budgets : HashedMap BudgetId Budget) (handles : List BudgetReservation)
    (charges : List (BudgetId × MoneyMicros)) : Prop :=
  ∀ id b, budgets.find? id = some b → Balanced handles charges id b

theorem held_append_singleton (handles : List BudgetReservation) (r : BudgetReservation)
    (id : BudgetId) (s : ReservationState) :
    held (handles ++ [r]) id s =
      held handles id s + if r.budget = id ∧ r.state = s then r.amount.toInt else 0 :=
  tally_append_singleton _ _ _ _

/-- Settling an active handle moves its amount from the active tally to another. -/
theorem held_settle {handles : List BudgetReservation} {i : ℕ} {r : BudgetReservation}
    (hi : handles[i]? = some r) (hactive : r.state = .active) (s : ReservationState)
    (id : BudgetId) (t : ReservationState) :
    held (handles.set i { r with state := s }) id t =
      held handles id t - (if r.budget = id ∧ t = .active then r.amount.toInt else 0) +
        if r.budget = id ∧ t = s then r.amount.toInt else 0 := by
  unfold held
  rw [tally_set _ _ hi]
  simp only [entry, hactive, eq_comm]

section Updates

variable {budgets : HashedMap BudgetId Budget} {handles handles' : List BudgetReservation}
  {charges charges' : List (BudgetId × MoneyMicros)} {key : BudgetId} {b b' : Budget}

/-- Rewriting one budget needs a proof for that budget only, as long as the other
budgets keep their tallies. -/
theorem Ledger.set (h : Ledger budgets handles charges)
    (hhandles : ∀ id s, id ≠ key → held handles' id s = held handles id s)
    (hcharges : ∀ id, id ≠ key → charged charges' id = charged charges id)
    (hkey : Balanced handles' charges' key b') :
    Ledger (budgets.set key b') handles' charges' := by
  intro id b hb
  rw [HashedMap.find?_set] at hb
  split_ifs at hb with hk
  · rw [hk, ← Option.some.inj hb]
    exact hkey
  · obtain ⟨h₁, h₂, h₃, hwithin⟩ := h id b hb
    refine ⟨?_, ?_, ?_, hwithin⟩
    · rw [hhandles id _ hk, h₁]
    · rw [hhandles id _ hk, hhandles id _ hk, h₂]
    · rw [hhandles id _ hk, hcharges id hk, h₃]

/-- A budget that only expires keeps its accounts. -/
theorem Ledger.lapse (h : Ledger budgets handles charges)
    (hfound : budgets.find? key = some b) :
    Ledger (budgets.set key { b with lifecycle := .expired }) handles charges := by
  obtain ⟨h₁, h₂, h₃, hwithin⟩ := h key b hfound
  exact h.set (fun _ _ _ => rfl) (fun _ _ => rfl) ⟨h₁, h₂, h₃, hwithin⟩

/-- What settling an active handle in state `s` does to its budget. -/
structure Settles (amount : MoneyMicros) (s : ReservationState) (b b' : Budget) : Prop where
  left : s ≠ .active
  reserved : b'.reserved.toInt = b.reserved.toInt - amount.toInt
  released : b'.released.toInt =
    b.released.toInt + if s = .committed then 0 else amount.toInt
  consumed : b'.consumed.toInt =
    b.consumed.toInt + if s = .committed then amount.toInt else 0
  limit : b'.limit = b.limit

theorem Balanced.settle {i : ℕ} {r : BudgetReservation} {s : ReservationState}
    (h : Balanced handles charges r.budget b) (hi : handles[i]? = some r)
    (hactive : r.state = .active) (hamount : 0 ≤ r.amount.toInt) (hs : Settles r.amount s b b') :
    Balanced (handles.set i { r with state := s }) charges r.budget b' := by
  have hkey (t : ReservationState) : held (handles.set i { r with state := s }) r.budget t =
      held handles r.budget t - (if t = .active then r.amount.toInt else 0) +
        if t = s then r.amount.toInt else 0 := by
    rw [held_settle hi hactive]
    simp only [true_and]
  obtain ⟨hleft, h₁, h₂, h₃, hlimit⟩ := hs
  obtain ⟨h₄, h₅, h₆, hwithin⟩ := h
  have hle : b'.reserved ≤ b'.limit := by
    rw [hlimit]
    rw [MoneyMicros.le_iff_toInt_le] at hwithin ⊢
    omega
  -- the four tallies after the move, one state of the handle at a time
  cases s with
  | active => exact absurd rfl hleft
  | committed =>
      simp only [if_true] at hkey h₂ h₃
      refine ⟨?_, ?_, ?_, hle⟩ <;> simp only [hkey, reduceCtorEq, if_true, if_false] <;> omega
  | released =>
      simp only [reduceCtorEq, if_false] at hkey h₂ h₃
      refine ⟨?_, ?_, ?_, hle⟩ <;> simp only [hkey, reduceCtorEq, if_true, if_false] <;> omega
  | expired =>
      simp only [reduceCtorEq, if_false] at hkey h₂ h₃
      refine ⟨?_, ?_, ?_, hle⟩ <;> simp only [hkey, reduceCtorEq, if_true, if_false] <;> omega

theorem Ledger.settle {i : ℕ} {r : BudgetReservation} {s : ReservationState}
    (h : Ledger budgets handles charges) (hfound : budgets.find? r.budget = some b)
    (hi : handles[i]? = some r) (hactive : r.state = .active) (hamount : 0 ≤ r.amount.toInt)
    (hs : Settles r.amount s b b') :
    Ledger (budgets.set r.budget b') (handles.set i { r with state := s }) charges := by
  apply h.set
  · intro id t hid
    have hne : ¬ r.budget = id := fun he => hid he.symm
    rw [held_settle hi hactive]
    simp only [hne, false_and, if_false, sub_zero, add_zero]
  · intro id _
    rfl
  · exact (h r.budget b hfound).settle hi hactive hamount hs

end Updates

end CostGovernor
