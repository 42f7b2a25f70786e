import CostGovernor.CostClassification

/-!
# The cost state over all hard budgets

The state of a projection is computed by one pass over the budgets. A budget that cannot
take the total ends it; any other one that is at risk or near its limit overwrites what
the budgets before it left. The result is the worst of the budgets' own classifications
unless a budget that is only near its limit comes after the last one at risk.
-/

namespace CostGovernor

open Executions IterationOrder

/-- How bad a state is; the pass over the budgets yields only the first four. -/
def severity : CostState → ℕ
  | .withinBudget => 0
  | .nearBudget => 1
  | .atRisk => 2
  | .overHardBudget => 3
  | .overSoftBudget | .revalidationRequired | .insufficientEvidence | .unknown => 0

/-- The state is the worst that the counted budgets, each on its own, are put into. -/
structure MostSevere (policy : CostPolicy) (total : MoneyMicros) (bs : List Budget)
    (st : CostState) : Prop where
  attained : st = .withinBudget ∨ ∃ b ∈ bs, b.Counted ∧ classification policy total b = st
  bound : ∀ b ∈ bs, b.Counted → severity (classification policy total b) ≤ severity st

/-- All counted budgets can take the total, one is at risk, and one that is only near its
limit comes after every one at risk. -/
def Masked (policy : CostPolicy) (total : MoneyMicros) (bs : List Budget) : Prop :=
  (∀ b ∈ bs, b.Counted → classification policy total b ≠ .overHardBudget) ∧
    ∃ pre c post, bs = pre ++ c :: post ∧
      (∃ b ∈ pre, b.Counted ∧ classification policy total b = .atRisk) ∧
      (c.Counted ∧ classification policy total c = .nearBudget) ∧
      ∀ b ∈ post, b.Counted → classification policy total b ≠ .atRisk

section Severity

variable {policy : CostPolicy} {total : MoneyMicros} {b : Budget} {bs : List Budget}
  {st : CostState}

theorem classification_eq_over_iff :
    classification policy total b = .overHardBudget ↔ b.room < total.toInt := by
  unfold classification
  split_ifs with h <;> simp [h]

theorem classification_eq_near (hover : classification policy total b ≠ .overHardBudget)
    (hrisk : classification policy total b ≠ .atRisk)
    (hwithin : classification policy total b ≠ .withinBudget) :
    classification policy total b = .nearBudget := by
  revert hover hrisk hwithin
  unfold classification
  split_ifs <;> decide

theorem severity_le_of_not_over (h : classification policy total b ≠ .overHardBudget) :
    severity (classification policy total b) ≤ 2 := by
  revert h
  unfold classification
  split_ifs <;> decide

theorem severity_le_of_not_atRisk (hover : classification policy total b ≠ .overHardBudget)
    (hrisk : classification policy total b ≠ .atRisk) :
    severity (classification policy total b) ≤ 1 := by
  revert hover hrisk
  unfold classification
  split_ifs <;> decide

theorem mostSevere_over (hb : b ∈ bs) (hcounted : b.Counted) (hover : b.room < total.toInt) :
    MostSevere policy total bs .overHardBudget := by
  refine ⟨.inr ⟨b, hb, hcounted, classification_eq_over_iff.mpr hover⟩, fun c _ _ => ?_⟩
  unfold classification
  split_ifs <;> decide

theorem Masked.exists_atRisk (h : Masked policy total bs) :
    ∃ b ∈ bs, b.Counted ∧ classification policy total b = .atRisk := by
  obtain ⟨_, pre, c, post, rfl, ⟨b, hb, hrisk⟩, _⟩ := h
  exact ⟨b, List.mem_append_left _ hb, hrisk⟩

theorem Masked.lastWritten_eq (h : Masked policy total bs) (st : CostState) :
    lastWritten (mark policy total) st bs = .nearBudget := by
  obtain ⟨hover, pre, c, post, rfl, _, ⟨hcounted, hnear⟩, hpost⟩ := h
  refine lastWritten_append_cons st (mark_eq_some_iff.mpr ⟨hcounted, by decide, hnear⟩) ?_
  intro b hb s hs
  obtain ⟨hbc, hne, rfl⟩ := mark_eq_some_iff.mp hs
  have hb' : b ∈ pre ++ c :: post := List.mem_append_right _ (List.mem_cons_of_mem _ hb)
  exact classification_eq_near (hover b hb' hbc) (hpost b hb hbc) hne

theorem masked_of_last_near {pre post : List Budget} {c d : Budget}
    (hover : ∀ b ∈ pre ++ c :: post, b.Counted → classification policy total b ≠ .overHardBudget)
    (hc : c.Counted) (hnear : classification policy total c = .nearBudget)
    (hpost : ∀ b ∈ post, mark policy total b = none) (hmem : d ∈ pre ++ c :: post)
    (hd : d.Counted) (hrisk : classification policy total d = .atRisk) :
    Masked policy total (pre ++ c :: post) := by
  have hquiet : ∀ b ∈ post, b.Counted → classification policy total b ≠ .atRisk := by
    intro b hb hbc hbrisk
    have hmark := hpost b hb
    rw [mark_eq_some_iff.mpr ⟨hbc, by decide, hbrisk⟩] at hmark
    cases hmark
  refine ⟨hover, pre, c, post, rfl, ⟨d, ?_, hd, hrisk⟩, ⟨hc, hnear⟩, hquiet⟩
  rcases List.mem_append.mp hmem with hpre | hrest
  · exact hpre
  · rcases List.mem_cons.mp hrest with rfl | hlater
    · rw [hnear] at hrisk
      cases hrisk
    · exact absurd hrisk (hquiet d hlater hd)

/-- The pass over budgets that can all take the total leaves the worst mark unless a
milder one was written after it. -/
theorem mostSevere_lastWritten_iff
    (hover : ∀ b ∈ bs, b.Counted → classification policy total b ≠ .overHardBudget) :
    MostSevere policy total bs (lastWritten (mark policy total) .withinBudget bs) ↔
      ¬ Masked policy total bs := by
  constructor
  · intro hsevere hmasked
    obtain ⟨b, hb, hcounted, hrisk⟩ := hmasked.exists_atRisk
    have hle := hsevere.bound b hb hcounted
    rw [hrisk, hmasked.lastWritten_eq] at hle
    exact absurd hle (by decide)
  · intro hmasked
    by_cases hmarks : ∀ b ∈ bs, b.Counted → classification policy total b = .withinBudget
    · rw [lastWritten_eq_init]
      · refine ⟨.inl rfl, fun b hb hcounted => ?_⟩
        rw [hmarks b hb hcounted]
      · intro b hb s hs
        obtain ⟨hcounted, _, rfl⟩ := mark_eq_some_iff.mp hs
        exact hmarks b hb hcounted
    · push Not at hmarks
      obtain ⟨b, hb, hcounted, hne⟩ := hmarks
      obtain ⟨pre, c, post, s, rfl, hs, hpost, hlast⟩ := exists_last_writer .withinBudget hb
        (mark_eq_some_iff.mpr ⟨hcounted, hne, rfl⟩)
      obtain ⟨hcc, hsne, rfl⟩ := mark_eq_some_iff.mp hs
      have hc : c ∈ pre ++ c :: post := by simp
      rw [hlast]
      refine ⟨.inr ⟨c, hc, hcc, rfl⟩, fun d hd hdc => ?_⟩
      by_cases hrisk : classification policy total c = .atRisk
      · rw [hrisk]
        exact severity_le_of_not_over (hover d hd hdc)
      · have hnear := classification_eq_near (hover c hc hcc) hrisk hsne
        rw [hnear]
        refine severity_le_of_not_atRisk (hover d hd hdc) fun hdrisk => hmasked ?_
        exact masked_of_last_near hover hcc hnear hpost hd hdc hdrisk

end Severity

/-- The state is the worst over the counted budgets exactly when no budget near its limit
hides one at risk that was met before it. -/
theorem cost_state_is_worst_iff (g : Governor) (bd : CostBreakdown) (st : CostState)
    (h : g.stateFromBreakdown bd = .ok st) :
    MostSevere g.policy bd.total g.budgets.values st ↔
      ¬ Masked g.policy bd.total g.budgets.values := by
  rcases Governor.costStateFrom_cases h with ⟨⟨b, hb, hcounted, hover⟩, rfl⟩ | ⟨hpass, rfl⟩
  · refine iff_of_true (mostSevere_over hb hcounted hover) fun hmasked => ?_
    exact hmasked.1 b hb hcounted (classification_eq_over_iff.mpr hover)
  · refine mostSevere_lastWritten_iff fun b hb hcounted => ?_
    rw [Ne, classification_eq_over_iff, not_lt]
    exact (hpass b hb hcounted).takes

def twoBudgets (first second : Int64) : Governor :=
  (((Governor.fresh 0).createBudget (hardBudget 1 first)).2.createBudget (hardBudget 2 second)).2

theorem cost_state_is_worst_iff_twoBudgets :
    (twoBudgets 110 100).stateFromBreakdown { total := ⟨95⟩ } = .ok .atRisk ∧
      MostSevere (twoBudgets 110 100).policy ⟨95⟩ (twoBudgets 110 100).budgets.values .atRisk ∧
      ¬ Masked (twoBudgets 110 100).policy ⟨95⟩ (twoBudgets 110 100).budgets.values := by
  have hsevere : MostSevere (twoBudgets 110 100).policy ⟨95⟩ (twoBudgets 110 100).budgets.values
      .atRisk := ⟨by decide +kernel, by decide +kernel⟩
  exact ⟨rfl, hsevere, (cost_state_is_worst_iff (twoBudgets 110 100) { total := ⟨95⟩ } .atRisk
    rfl).1 hsevere⟩

/-- Of two budgets the one at risk is met first, and the state reports only the other. -/
theorem near_budget_hides_one_at_risk :
    (twoBudgets 100 110).stateFromBreakdown { total := ⟨95⟩ } = .ok .nearBudget ∧
      (0 ≤ (twoBudgets 100 110).policy.nearBudgetPercent ∧
        (twoBudgets 100 110).policy.nearBudgetPercent ≤ (twoBudgets 100 110).policy.atRiskPercent) ∧
      ¬ MostSevere (twoBudgets 100 110).policy ⟨95⟩ (twoBudgets 100 110).budgets.values
        .nearBudget := by
  refine ⟨rfl, by decide, fun hsevere => ?_⟩
  have hle := hsevere.bound { hardBudget 1 100 with lifecycle := .active } (by decide) (by decide)
  exact absurd hle (by decide +kernel)

end CostGovernor
