import CostGovernor.Feasibility

/-!
# What a budget leaves

`remaining` subtracts with a check, so a budget that leaves no money value makes every
loop over the budgets throw. The loop of a plan's evaluation ends at the first hard
budget that throws or cannot take the total.
-/

namespace CostGovernor

open Executions

namespace Budget

def room (b : Budget) : ℤ := b.limit.toInt - b.consumed.toInt

def HasRemaining (b : Budget) : Prop := b.consumed.toInt ≠ -2 ^ 63 ∧ MoneyMicros.Fits b.room

instance (b : Budget) : Decidable b.HasRemaining :=
  inferInstanceAs (Decidable (_ ∧ _ ∧ _))

theorem remaining_eq_ok_iff {b : Budget} {r : MoneyMicros} :
    b.remaining = .ok r ↔ b.HasRemaining ∧ r.toInt = b.room := by
  have hsub : b.remaining = .ok r ↔ b.consumed.toInt ≠ -2 ^ 63 ∧ r.toInt = b.room :=
    MoneyMicros.sub_eq_ok_iff ..
  have hfits : r.toInt = b.room → MoneyMicros.Fits b.room := fun h =>
    (MoneyMicros.exists_toInt_eq_iff _).mp ⟨r, h⟩
  rw [hsub, HasRemaining]
  tauto

theorem exists_remaining_iff {b : Budget} : (∃ r, b.remaining = .ok r) ↔ b.HasRemaining :=
  MoneyMicros.exists_sub_eq_ok_iff ..

end Budget

def hardBudget (id : UInt64) (limit : Int64) : Budget :=
  { id := ⟨id⟩, generation := ⟨1⟩, policyGeneration := ⟨1⟩, epoch := ⟨1⟩, limit := ⟨limit⟩ }

namespace Governor

section Budgets

variable {total : MoneyMicros} {bs : List Budget}

def Affordable (total : MoneyMicros) (bs : List Budget) : Prop :=
  ∀ b ∈ bs, b.mode = .hard → b.HasRemaining ∧ total.toInt ≤ b.room

theorem firstExceeded_eq_none_iff_affordable :
    firstExceeded total bs = .ok none ↔ Affordable total bs := by
  rw [firstExceeded_eq_none_iff]
  refine forall₃_congr fun b _ _ => ?_
  constructor
  · rintro ⟨r, hr, hle⟩
    obtain ⟨hhas, hroom⟩ := Budget.remaining_eq_ok_iff.mp hr
    rw [MoneyMicros.le_iff_toInt_le, hroom] at hle
    exact ⟨hhas, hle⟩
  · rintro ⟨hhas, hle⟩
    obtain ⟨r, hr⟩ := Budget.exists_remaining_iff.mpr hhas
    refine ⟨r, hr, ?_⟩
    rwa [MoneyMicros.le_iff_toInt_le, (Budget.remaining_eq_ok_iff.mp hr).2]

theorem exists_firstExceeded (total : MoneyMicros)
    (h : ∀ b ∈ bs, b.mode = .hard → b.HasRemaining) :
    ∃ o, firstExceeded total bs = .ok o := by
  induction bs with
  | nil => exact ⟨none, rfl⟩
  | cons b bs ih =>
      obtain ⟨hb, hbs⟩ := List.forall_mem_cons.mp h
      rw [firstExceeded]
      split_ifs with hmode
      · exact ih hbs
      · obtain ⟨r, hr⟩ := Budget.exists_remaining_iff.mpr (hb (not_not.mp hmode))
        rw [hr]
        dsimp only [bind, Except.bind]
        split_ifs
        · exact ⟨_, rfl⟩
        · exact ih hbs

/-- Where the loop ends: at a budget without a remaining amount, which throws, or at an
exceeded one. -/
def halt (total : MoneyMicros) (b : Budget) : Option (Option Budget) :=
  if b.mode ≠ .hard then none
  else if b.HasRemaining then if b.room < total.toInt then some (some b) else none
  else some none

theorem halt_eq_exceeded_iff {b c : Budget} :
    halt total b = some (some c) ↔
      c = b ∧ b.mode = .hard ∧ b.HasRemaining ∧ b.room < total.toInt := by
  unfold halt
  constructor
  · intro h
    split_ifs at h with hmode hhas hover
    · cases h
      exact ⟨rfl, not_not.mp hmode, hhas, hover⟩
    · cases h
  · rintro ⟨rfl, hmode, hhas, hover⟩
    rw [if_neg (not_not.mpr hmode), if_pos hhas, if_pos hover]

theorem halt_eq_throws_iff {b : Budget} :
    halt total b = some none ↔ b.mode = .hard ∧ ¬ b.HasRemaining := by
  unfold halt
  split_ifs with hmode hhas hover <;> simp_all

theorem firstExceeded_toOption (total : MoneyMicros) (bs : List Budget) :
    (firstExceeded total bs).toOption =
      ((bs.findSome? (halt total)).map (Option.map some)).getD (some none) := by
  induction bs with
  | nil => rfl
  | cons b bs ih =>
      rw [firstExceeded, List.findSome?_cons, halt]
      split_ifs with hmode hhas hover
      · exact ih
      · obtain ⟨r, hr⟩ := Budget.exists_remaining_iff.mpr hhas
        have hlt : r < total := by
          rwa [MoneyMicros.lt_iff_toInt_lt, (Budget.remaining_eq_ok_iff.mp hr).2]
        rw [hr]
        dsimp only [bind, Except.bind]
        rw [if_pos hlt]
        rfl
      · obtain ⟨r, hr⟩ := Budget.exists_remaining_iff.mpr hhas
        have hle : ¬ r < total := by
          rwa [MoneyMicros.lt_iff_toInt_lt, (Budget.remaining_eq_ok_iff.mp hr).2]
        rw [hr]
        dsimp only [bind, Except.bind]
        rw [if_neg hle]
        exact ih
      · cases hr : b.remaining with
        | ok r => exact absurd (Budget.exists_remaining_iff.mp ⟨r, hr⟩) hhas
        | error x => rfl

theorem firstExceeded_eq_some_iff {b : Budget} :
    firstExceeded total bs = .ok (some b) ↔ bs.findSome? (halt total) = some (some b) := by
  have h := firstExceeded_toOption total bs
  constructor
  · intro hexceeded
    rw [hexceeded] at h
    rcases hfirst : bs.findSome? (halt total) with _ | _ | c <;> rw [hfirst] at h <;> cases h
    rfl
  · intro hfirst
    rw [hfirst] at h
    cases hexceeded : firstExceeded total bs with
    | error x =>
        rw [hexceeded] at h
        cases h
    | ok o =>
        rw [hexceeded] at h
        cases h
        rfl

theorem exceeded_of_firstExceeded {b : Budget} (h : firstExceeded total bs = .ok (some b)) :
    b ∈ bs ∧ b.mode = .hard ∧ b.HasRemaining ∧ b.room < total.toInt := by
  obtain ⟨c, hc, hhalt⟩ := List.exists_of_findSome?_eq_some (firstExceeded_eq_some_iff.mp h)
  obtain ⟨rfl, hexceeded⟩ := halt_eq_exceeded_iff.mp hhalt
  exact ⟨hc, hexceeded⟩

end Budgets

end Governor

end CostGovernor
