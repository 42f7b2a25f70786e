import CostGovernor.Charges

/-!
# The projection adds up over attempts

A projection is returned exactly when every amount has a price and all prices
together stay below the limit of a money value, and its total is their sum.
-/

namespace CostGovernor

open Executions Postings Tallies

section Total

variable (schedule : PriceSchedule) (currency : ByteString) (nowMs : Int64)

theorem chargeAttempt_eq (bd : CostBreakdown) (ev : CostEvidence) :
    chargeAttempt schedule currency nowMs bd ev =
      ev.charges.foldlM
        (fun bd u => chargeUsage schedule currency nowMs u.ev u.target u.comp u.amount bd) bd := by
  rw [CostEvidence.charges, List.foldlM_append, CostEvidence.usageCharges, List.foldlM_map]
  refine congrArg _ (funext fun bd' => ?_)
  rw [List.foldlM_cons]
  exact (bind_pure _).symm

theorem target_mem_additive {ev : CostEvidence} {u : Charge} (h : u ∈ ev.charges) :
    u.target ∈ CostComponent.additive := by
  have hmem : u.target ∈ ev.charges.map Charge.target := List.mem_map_of_mem h
  have hall : ∀ c ∈ [.acceleratorTime, .energy, .transfer, .memory, .residency, .storage,
      .recomputation], c ∈ CostComponent.additive := by decide
  exact hall _ hmem

def attemptCost (ev : CostEvidence) : ℤ := chargesTotal schedule currency nowMs ev.charges

theorem chargesTotal_flatMap (attempts : List CostEvidence) :
    chargesTotal schedule currency nowMs (attempts.flatMap CostEvidence.charges) =
      (attempts.map (attemptCost schedule currency nowMs)).sum := by
  induction attempts with
  | nil => rfl
  | cons ev attempts ih =>
      rw [List.flatMap_cons, chargesTotal_append, ih, List.map_cons, List.sum_cons]
      rfl

/-- Unknown components hold nothing, so the additive ones make up the total. -/
theorem sum_totalPrice {bd : CostBreakdown} (h : bd.BlankUnknowns) :
    (CostComponent.all.map (fun c => (totalPrice bd c).getD 0)).sum =
      (CostComponent.additive.map bd.balance).sum := by
  have hknown : ∀ c, (if (bd.components c).known then bd.balance c else 0) = bd.balance c := by
    intro c
    cases hc : (bd.components c).known with
    | true => rfl
    | false => exact (h c hc).symm
  have hadditive : CostComponent.additive = [.acceleratorTime, .energy, .transfer, .memory,
      .residency, .storage, .recomputation, .other] := by decide
  simp [CostComponent.all, hadditive, totalPrice, hknown]

section Stages

variable {schedule currency nowMs}

theorem charged_balance {attempts : List CostEvidence} {bd : CostBreakdown}
    (h : attempts.foldlM (chargeAttempt schedule currency nowMs) { currency := currency } = .ok bd) :
    bd.BlankUnknowns ∧ (∀ ev ∈ attempts, AllPriced schedule currency nowMs ev.charges) ∧
      ∀ c, bd.balance c = posted Charge.target (Charge.price schedule currency nowMs)
        (attempts.flatMap CostEvidence.charges) c := by
  rw [foldlM_flatMap (chargeAttempt_eq schedule currency nowMs)] at h
  obtain ⟨hblank, hpriced, hbalance⟩ :=
    (posts_chargeUsage schedule currency nowMs).balance_of_run (fun _ _ => rfl) h
  refine ⟨hblank, ?_, ?_⟩
  · exact fun ev hev u hu => hpriced u (List.mem_flatMap.2 ⟨ev, hev, hu⟩)
  · intro c
    rw [hbalance]
    exact zero_add _

theorem retried_balance {success : Option ℕ} {xs : List (CostEvidence × ℕ)} {bd bd' : CostBreakdown}
    (hblank : bd.BlankUnknowns)
    (h : xs.foldlM (chargeRetry schedule currency nowMs success) bd = .ok bd') :
    bd'.BlankUnknowns ∧ (∀ c, bd.balance c ≤ bd'.balance c) ∧
      ∀ c ∈ CostComponent.additive, bd'.balance c = bd.balance c := by
  have hposts := posts_chargeRetry schedule currency nowMs success
  obtain ⟨hblank', _, hbalance⟩ := hposts.balance_of_run hblank h
  refine ⟨hblank', fun c => ?_, fun c hc => ?_⟩
  · have hnonneg := hposts.posted_nonneg xs c
    rw [hbalance]
    omega
  have hne : CostComponent.retry ≠ c := by
    rintro rfl
    exact absurd hc (by decide)
  have hnone : posted (fun _ => CostComponent.retry) (retryPrice schedule currency nowMs success) xs c
      = 0 := tally_eq_zero _ _ (fun _ _ => hne)
  rw [hbalance, hnone, add_zero]

/-- The additive components after charging hold all prices together. -/
theorem sum_additive {attempts : List CostEvidence} {bd : CostBreakdown}
    (h : ∀ c ∈ CostComponent.additive, bd.balance c = posted Charge.target
      (Charge.price schedule currency nowMs) (attempts.flatMap CostEvidence.charges) c) :
    (CostComponent.additive.map bd.balance).sum =
      (attempts.map (attemptCost schedule currency nowMs)).sum := by
  rw [List.map_congr_left h, ← chargesTotal_flatMap]
  refine sum_tally_classes _ Charge.target (by decide) (fun u hu => ?_)
  obtain ⟨ev, _, hu⟩ := List.mem_flatMap.1 hu
  exact target_mem_additive hu

/-- The prices of all attempts together make up the total of the projection. -/
theorem sumTotal_toInt {attempts : List CostEvidence} {success : Option ℕ}
    {xs : List (CostEvidence × ℕ)} {bd bd' : CostBreakdown}
    (hcharged : attempts.foldlM (chargeAttempt schedule currency nowMs) { currency := currency } =
      .ok bd)
    (hretried : xs.foldlM (chargeRetry schedule currency nowMs success) bd = .ok bd') :
    (∀ c, 0 ≤ bd'.balance c) ∧
      posted (fun _ => ()) (totalPrice bd') CostComponent.all () =
        (attempts.map (attemptCost schedule currency nowMs)).sum := by
  obtain ⟨hblank, _, hbalance⟩ := charged_balance hcharged
  obtain ⟨hblank', hgrows, hkeeps⟩ := retried_balance hblank hretried
  refine ⟨fun c => ?_, ?_⟩
  · have hnonneg := (posts_chargeUsage schedule currency nowMs).posted_nonneg
      (attempts.flatMap CostEvidence.charges) c
    exact hnonneg.trans ((hbalance c).symm.le.trans (hgrows c))
  · rw [posted_unit, sum_totalPrice hblank']
    exact sum_additive (fun c hc => (hkeeps c hc).trans (hbalance c))

end Stages

theorem project_total {attempts : List CostEvidence} {bd : CostBreakdown}
    (h : project schedule currency nowMs attempts = .ok bd) :
    (∀ ev ∈ attempts, AllPriced schedule currency nowMs ev.charges) ∧
      bd.total.toInt = (attempts.map (attemptCost schedule currency nowMs)).sum := by
  unfold project at h
  obtain ⟨bd₁, hcharged, h⟩ := bind_eq_ok_iff.1 h
  obtain ⟨bd₂, hretried, h⟩ := bind_eq_ok_iff.1 h
  obtain ⟨total, htotal, he⟩ := bind_eq_ok_iff.1 h
  cases he
  obtain ⟨hnonneg, hsum⟩ := sumTotal_toInt hcharged hretried
  obtain ⟨_, _, hbalance⟩ := (posts_sumTotal hnonneg).balance_of_run trivial htotal
  refine ⟨(charged_balance hcharged).2.1, ?_⟩
  rw [← hsum]
  exact (hbalance ()).trans (zero_add _)

theorem attemptCost_nonneg (ev : CostEvidence) : 0 ≤ attemptCost schedule currency nowMs ev :=
  chargesTotal_nonneg schedule currency nowMs _

theorem usageCharges_le_attemptCost (ev : CostEvidence) :
    chargesTotal schedule currency nowMs ev.usageCharges ≤ attemptCost schedule currency nowMs ev := by
  have hrest := chargesTotal_nonneg schedule currency nowMs [ev.recomputeCharge]
  rw [attemptCost, CostEvidence.charges, chargesTotal_append]
  omega

theorem attemptCost_le_sum {attempts : List CostEvidence} {ev : CostEvidence} (h : ev ∈ attempts) :
    attemptCost schedule currency nowMs ev ≤
      (attempts.map (attemptCost schedule currency nowMs)).sum := by
  refine List.single_le_sum (fun z hz => ?_) _ (List.mem_map_of_mem h)
  obtain ⟨ev', _, rfl⟩ := List.mem_map.1 hz
  exact attemptCost_nonneg schedule currency nowMs ev'

theorem posted_charges_lt {attempts : List CostEvidence} {limit : ℤ}
    (hroom : (attempts.map (attemptCost schedule currency nowMs)).sum < limit) (c : CostComponent) :
    posted Charge.target (Charge.price schedule currency nowMs)
      (attempts.flatMap CostEvidence.charges) c < limit := by
  rw [← chargesTotal_flatMap] at hroom
  refine lt_of_le_of_lt (tally_le_sum _ _ (fun u _ => ?_)) hroom
  exact (posts_chargeUsage schedule currency nowMs).getD_nonneg u

theorem retryPrice_le (success : Option ℕ) (x : CostEvidence × ℕ) :
    (retryPrice schedule currency nowMs success x).getD 0 ≤
      attemptCost schedule currency nowMs x.1 := by
  have hnonneg := attemptCost_nonneg schedule currency nowMs x.1
  unfold retryPrice
  split_ifs
  · cases hfailed : failedCost schedule currency nowMs x.1 with
    | error e => exact hnonneg
    | ok m =>
        refine le_trans ?_ (usageCharges_le_attemptCost schedule currency nowMs x.1)
        exact (failedCost_toInt schedule currency nowMs hfailed).le
  · exact hnonneg

theorem exists_retryPrice {x : CostEvidence × ℕ}
    (hpriced : AllPriced schedule currency nowMs x.1.charges)
    (hroom : attemptCost schedule currency nowMs x.1 < 2 ^ 63) (success : Option ℕ) :
    ∃ z, retryPrice schedule currency nowMs success x = some z := by
  by_cases hretried : Retried success x
  · obtain ⟨m, hm⟩ := exists_failedCost schedule currency nowMs
      (fun u hu => hpriced u (List.mem_append_left _ hu))
      ((usageCharges_le_attemptCost schedule currency nowMs x.1).trans_lt hroom)
    exact ⟨m.toInt, (retryPrice_eq_some_iff _ _ _ hretried _).2 ⟨m, hm, rfl⟩⟩
  · exact ⟨0, if_neg hretried⟩

theorem sum_zipIdx_fst (f : CostEvidence → ℤ) (attempts : List CostEvidence) :
    (attempts.zipIdx.map (fun x => f x.1)).sum = (attempts.map f).sum := by
  conv_rhs => rw [← List.zipIdx_map_fst 0 attempts, List.map_map]
  rfl

/-- RETRY starts empty and is given no more than the total. -/
theorem retry_room {attempts : List CostEvidence} {bd : CostBreakdown}
    (hcharged : attempts.foldlM (chargeAttempt schedule currency nowMs) { currency := currency } =
      .ok bd)
    (hroom : (attempts.map (attemptCost schedule currency nowMs)).sum < 2 ^ 63)
    (success : Option ℕ) (c : CostComponent) :
    bd.balance c + posted (fun _ => CostComponent.retry)
      (retryPrice schedule currency nowMs success) attempts.zipIdx c < 2 ^ 63 := by
  obtain ⟨_, _, hbalance⟩ := charged_balance hcharged
  rw [hbalance]
  by_cases hc : CostComponent.retry = c
  · have hempty : posted Charge.target (Charge.price schedule currency nowMs)
        (attempts.flatMap CostEvidence.charges) c = 0 := by
      refine tally_eq_zero _ _ (fun u hu htarget => ?_)
      obtain ⟨ev, _, hu⟩ := List.mem_flatMap.1 hu
      have hmem := target_mem_additive hu
      rw [htarget, ← hc] at hmem
      exact absurd hmem (by decide)
    rw [hempty, zero_add]
    refine lt_of_le_of_lt ?_ hroom
    calc posted (fun _ => CostComponent.retry) (retryPrice schedule currency nowMs success)
          attempts.zipIdx c
        ≤ (attempts.zipIdx.map
            (fun x => (retryPrice schedule currency nowMs success x).getD 0)).sum :=
          tally_le_sum _ _
            (fun x _ => (posts_chargeRetry schedule currency nowMs success).getD_nonneg x)
      _ ≤ (attempts.zipIdx.map (fun x => attemptCost schedule currency nowMs x.1)).sum :=
          List.sum_le_sum (fun x _ => retryPrice_le schedule currency nowMs success x)
      _ = (attempts.map (attemptCost schedule currency nowMs)).sum := sum_zipIdx_fst _ attempts
  · have hnone : posted (fun _ => CostComponent.retry)
        (retryPrice schedule currency nowMs success) attempts.zipIdx c = 0 :=
      tally_eq_zero _ _ (fun _ _ => hc)
    rw [hnone, add_zero]
    exact posted_charges_lt schedule currency nowMs hroom c

/-- No loop of the projection can overflow before the total does. -/
theorem exists_project {attempts : List CostEvidence}
    (hpriced : ∀ ev ∈ attempts, AllPriced schedule currency nowMs ev.charges)
    (hroom : (attempts.map (attemptCost schedule currency nowMs)).sum < 2 ^ 63) :
    ∃ bd, project schedule currency nowMs attempts = .ok bd := by
  have hcharged : ∃ bd, attempts.foldlM (chargeAttempt schedule currency nowMs)
      { currency := currency } = .ok bd := by
    rw [foldlM_flatMap (chargeAttempt_eq schedule currency nowMs)]
    refine (posts_chargeUsage schedule currency nowMs).exists_run (fun _ _ => rfl) ?_ ?_
    · intro u hu
      obtain ⟨ev, hev, hu⟩ := List.mem_flatMap.1 hu
      exact hpriced ev hev u hu
    · exact fun c => (zero_add _).trans_lt (posted_charges_lt schedule currency nowMs hroom c)
  obtain ⟨bd₁, hcharged⟩ := hcharged
  have hretried : ∃ bd, attempts.zipIdx.foldlM
      (chargeRetry schedule currency nowMs (finalSuccessIndex attempts)) bd₁ = .ok bd := by
    refine (posts_chargeRetry schedule currency nowMs _).exists_run (charged_balance hcharged).1 ?_
      (retry_room schedule currency nowMs hcharged hroom _)
    intro x hx
    have hmem : x.1 ∈ attempts := List.fst_mem_of_mem_zipIdx hx
    exact exists_retryPrice schedule currency nowMs (hpriced _ hmem)
      ((attemptCost_le_sum schedule currency nowMs hmem).trans_lt hroom) _
  obtain ⟨bd₂, hretried⟩ := hretried
  obtain ⟨hnonneg, hsum⟩ := sumTotal_toInt hcharged hretried
  obtain ⟨total, htotal⟩ : ∃ total, sumTotal bd₂ = .ok total := by
    refine (posts_sumTotal hnonneg).exists_run trivial (fun c _ => ⟨_, rfl⟩) (fun _ => ?_)
    rw [hsum]
    exact (zero_add _).trans_lt hroom
  unfold project
  rw [hcharged]
  dsimp only [bind, Except.bind]
  rw [hretried]
  dsimp only
  rw [htotal]
  exact ⟨_, rfl⟩

/-- A projection that is returned is the sum of the projections of its attempts,
which are then returned as well. -/
theorem project_additive {attempts : List CostEvidence} {bd : CostBreakdown}
    (h : project schedule currency nowMs attempts = .ok bd) :
    ∃ totals : List MoneyMicros,
      List.Forall₂ (fun ev total => ∃ single, project schedule currency nowMs [ev] = .ok single ∧
        single.total = total) attempts totals ∧
      bd.total.toInt = (totals.map MoneyMicros.toInt).sum := by
  obtain ⟨hpriced, htotal⟩ := project_total schedule currency nowMs h
  have hsingle : ∀ ev ∈ attempts, ∃ single, project schedule currency nowMs [ev] = .ok single := by
    intro ev hev
    refine exists_project schedule currency nowMs (by simpa using hpriced ev hev) ?_
    rw [List.map_singleton, List.sum_singleton]
    have hle := attemptCost_le_sum schedule currency nowMs hev
    have hlt := bd.total.toInt_lt
    omega
  rw [htotal]
  clear h hpriced htotal
  induction attempts with
  | nil => exact ⟨[], .nil, rfl⟩
  | cons ev attempts ih =>
      obtain ⟨single, hev⟩ := hsingle ev (by simp)
      obtain ⟨totals, hrest, hsum⟩ := ih (fun ev' h' => hsingle ev' (by simp [h']))
      refine ⟨single.total :: totals, .cons ⟨single, hev, rfl⟩ hrest, ?_⟩
      have hcost := (project_total schedule currency nowMs hev).2
      rw [List.map_singleton, List.sum_singleton] at hcost
      rw [List.map_cons, List.sum_cons, List.map_cons, List.sum_cons, hsum, hcost]

end Total

end CostGovernor
