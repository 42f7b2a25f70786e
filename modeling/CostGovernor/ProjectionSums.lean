import CostGovernor.AttemptCosts

/-!
# Every unit of cost is counted once

Each component of a projection is a sum of shares of the attempts, and RETRY is the sum of
the failed completions' measurable amounts: the final success it skips is never a failed
one. So projections add up over lists of attempts, in any order, and a part of a list is
projected whenever the whole is.
-/

namespace CostGovernor

open Executions Postings Tallies

def CostEvidence.failed (ev : CostEvidence) : Bool := ev.isCompletion && !ev.completedSuccessfully

def CostComponent.measurable : List CostComponent :=
  [.acceleratorTime, .energy, .transfer, .memory, .residency, .storage]

section FinalSuccess

theorem foldl_success {xs : List (CostEvidence × ℕ)} {last : Option ℕ} {i : ℕ}
    (h : xs.foldl (fun last x =>
      if x.1.isCompletion ∧ x.1.completedSuccessfully then some x.2 else last) last = some i) :
    last = some i ∨ ∃ ev, (ev, i) ∈ xs ∧ ev.failed = false := by
  induction xs generalizing last with
  | nil => exact .inl h
  | cons x xs ih =>
      rw [List.foldl_cons] at h
      rcases ih h with hlast | ⟨ev, hmem, hok⟩
      · split_ifs at hlast with hsuccess
        · refine .inr ⟨x.1, ?_, by simp [CostEvidence.failed, hsuccess.2]⟩
          rw [← Option.some.inj hlast]
          exact List.mem_cons_self
        · exact .inl hlast
      · exact .inr ⟨ev, List.mem_cons_of_mem x hmem, hok⟩

/-- The attempt that is skipped is a success, so every failed completion is counted. -/
theorem retried_iff_failed {attempts : List CostEvidence} {x : CostEvidence × ℕ}
    (hx : x ∈ attempts.zipIdx) : Retried (finalSuccessIndex attempts) x ↔ x.1.failed := by
  have hskip : some x.2 = finalSuccessIndex attempts → x.1.failed = false := by
    intro h
    rcases foldl_success h.symm with hnone | ⟨ev, hmem, hok⟩
    · cases hnone
    · have hev := List.mk_mem_zipIdx_iff_getElem?.mp hmem
      rw [List.mk_mem_zipIdx_iff_getElem?.mp (show (x.1, x.2) ∈ attempts.zipIdx from hx)] at hev
      rw [Option.some.inj hev]
      exact hok
  rw [Retried, CostEvidence.failed, Bool.and_eq_true]
  refine ⟨fun h => h.2, fun h => ⟨fun hsuccess => ?_, h⟩⟩
  have hfailed : x.1.failed = true := Bool.and_eq_true_iff.mpr h
  rw [hskip hsuccess] at hfailed
  cases hfailed

end FinalSuccess

section Shares

variable (schedule : PriceSchedule) (currency : ByteString) (nowMs : Int64)

def retryShare (ev : CostEvidence) : ℤ :=
  if ev.failed then chargesTotal schedule currency nowMs ev.usageCharges else 0

def share (c : CostComponent) (ev : CostEvidence) : ℤ :=
  posted Charge.target (Charge.price schedule currency nowMs) ev.charges c +
    if c = .retry then retryShare schedule currency nowMs ev else 0

variable {schedule currency nowMs}

theorem retryPrice_getD {attempts : List CostEvidence} {x : CostEvidence × ℕ}
    (hx : x ∈ attempts.zipIdx) {z : ℤ}
    (hz : retryPrice schedule currency nowMs (finalSuccessIndex attempts) x = some z) :
    (retryPrice schedule currency nowMs (finalSuccessIndex attempts) x).getD 0 =
      retryShare schedule currency nowMs x.1 := by
  rw [hz, retryShare]
  by_cases hretried : Retried (finalSuccessIndex attempts) x
  · rw [if_pos ((retried_iff_failed hx).mp hretried)]
    obtain ⟨m, hm, rfl⟩ := (retryPrice_eq_some_iff _ _ _ hretried z).1 hz
    exact failedCost_toInt schedule currency nowMs hm
  · rw [if_neg (mt (retried_iff_failed hx).mpr hretried)]
    rw [retryPrice, if_neg hretried] at hz
    exact (Option.some.inj hz).symm

/-- A component of a projection is the sum of the attempts' shares. -/
theorem project_balance {attempts : List CostEvidence} {bd : CostBreakdown}
    (h : project schedule currency nowMs attempts = .ok bd) (c : CostComponent) :
    bd.balance c = (attempts.map (share schedule currency nowMs c)).sum := by
  unfold project at h
  obtain ⟨bd₁, hcharged, h⟩ := bind_eq_ok_iff.1 h
  obtain ⟨bd₂, hretried, h⟩ := bind_eq_ok_iff.1 h
  obtain ⟨total, -, he⟩ := bind_eq_ok_iff.1 h
  obtain ⟨hblank, -, hcharges⟩ := charged_balance hcharged
  obtain ⟨-, hprices, hretries⟩ :=
    (posts_chargeRetry schedule currency nowMs _).balance_of_run hblank hretried
  have hbd : bd.balance c = bd₂.balance c := by
    rw [← Except.ok.inj he]
    rfl
  rw [hbd, hretries, hcharges, posted_flatMap]
  unfold share
  rw [List.sum_map_add]
  congr 1
  by_cases hc : c = .retry
  · subst hc
    simp only [if_true]
    rw [posted_const, ← sum_zipIdx_fst]
    refine congrArg List.sum (List.map_congr_left fun x hx => ?_)
    obtain ⟨z, hz⟩ := hprices x hx
    exact retryPrice_getD hx hz
  · have hnone : posted (fun _ => CostComponent.retry)
        (retryPrice schedule currency nowMs (finalSuccessIndex attempts)) attempts.zipIdx c = 0 :=
      tally_eq_zero _ _ (fun _ _ => Ne.symm hc)
    rw [hnone]
    simp [hc]

end Shares

section Parts

variable {schedule : PriceSchedule} {currency : ByteString} {nowMs : Int64}
  {attempts part : List CostEvidence} {bd : CostBreakdown}

/-- A part of a list, in any order, is projected when the list is. -/
theorem exists_project_of_subperm (hpart : part.Subperm attempts)
    (h : project schedule currency nowMs attempts = .ok bd) :
    ∃ bd', project schedule currency nowMs part = .ok bd' := by
  obtain ⟨hpriced, htotal⟩ := project_total schedule currency nowMs h
  refine exists_project _ _ _ (fun ev hev => hpriced ev (hpart.subset hev)) ?_
  obtain ⟨kept, hperm, hkept⟩ := hpart
  have hle : (kept.map (attemptCost schedule currency nowMs)).sum ≤
      (attempts.map (attemptCost schedule currency nowMs)).sum := by
    refine (hkept.map _).sum_le_sum fun z hz => ?_
    obtain ⟨ev, -, rfl⟩ := List.mem_map.1 hz
    exact attemptCost_nonneg schedule currency nowMs ev
  rw [← (hperm.map _).sum_eq]
  have hlt := bd.total.toInt_lt
  omega

/-- The components other than RETRY and RECOVERY make up the total. -/
theorem total_eq_sum_additive (h : project schedule currency nowMs attempts = .ok bd) :
    bd.total.toInt = (CostComponent.additive.map bd.balance).sum := by
  rw [(project_total schedule currency nowMs h).2, sum_additive]
  intro c hc
  have hne : c ≠ .retry := by
    rintro rfl
    exact absurd hc (by decide)
  rw [project_balance h, posted_flatMap]
  refine congrArg List.sum (List.map_congr_left fun ev _ => ?_)
  rw [share, if_neg hne, add_zero]

/-- The measurable components of one attempt are what it would add to RETRY. -/
theorem sum_measurable_share (ev : CostEvidence) :
    (CostComponent.measurable.map fun c => share schedule currency nowMs c ev).sum =
      chargesTotal schedule currency nowMs ev.usageCharges := by
  have hshare : ∀ c ∈ CostComponent.measurable, share schedule currency nowMs c ev =
      posted Charge.target (Charge.price schedule currency nowMs) ev.usageCharges c := by
    intro c hc
    have hretry : c ≠ .retry := by
      rintro rfl
      exact absurd hc (by decide)
    have hrecompute : ev.recomputeCharge.target ≠ c := by
      intro htarget
      rw [← show CostComponent.recomputation = c from htarget] at hc
      exact absurd hc (by decide)
    rw [share, if_neg hretry, add_zero, posted, CostEvidence.charges, tally_append_singleton, entry,
      if_neg hrecompute, add_zero, posted]
  rw [List.map_congr_left hshare]
  refine sum_tally_classes _ Charge.target (by decide) fun u hu => ?_
  have hmem : u.target ∈ ev.usageCharges.map Charge.target := List.mem_map_of_mem hu
  exact hmem

/-- The order of two finite sums. -/
theorem sum_sum_comm {α β : Type} (f : α → β → ℤ) (as : List α) (bs : List β) :
    (as.map fun a => (bs.map fun b => f a b).sum).sum =
      (bs.map fun b => (as.map fun a => f a b).sum).sum := by
  induction as with
  | nil => simp
  | cons a as ih => simp only [List.map_cons, List.sum_cons, ih, List.sum_map_add]

theorem sum_retryShare (attempts : List CostEvidence) :
    (attempts.map (retryShare schedule currency nowMs)).sum =
      ((attempts.filter CostEvidence.failed).map fun ev =>
        chargesTotal schedule currency nowMs ev.usageCharges).sum := by
  induction attempts with
  | nil => rfl
  | cons ev attempts ih =>
      rw [List.map_cons, List.sum_cons, ih, retryShare, List.filter_cons]
      split_ifs
      · rw [List.map_cons, List.sum_cons]
      · exact zero_add _

theorem share_retry (ev : CostEvidence) :
    share schedule currency nowMs .retry ev = retryShare schedule currency nowMs ev := by
  have hnone : posted Charge.target (Charge.price schedule currency nowMs) ev.charges .retry = 0 := by
    refine tally_eq_zero _ _ fun u hu htarget => ?_
    have hmem := target_mem_additive hu
    rw [htarget] at hmem
    exact absurd hmem (by decide)
  rw [share, hnone, if_pos rfl, zero_add]

theorem balance_retry (h : project schedule currency nowMs attempts = .ok bd) :
    bd.balance .retry = (attempts.map (retryShare schedule currency nowMs)).sum := by
  rw [project_balance h]
  exact congrArg List.sum (List.map_congr_left fun ev _ => share_retry ev)

/-- RETRY is what the failed completions cost by themselves. -/
theorem retry_eq_sum_measurable {bf : CostBreakdown}
    (h : project schedule currency nowMs attempts = .ok bd)
    (hfailed : project schedule currency nowMs (attempts.filter CostEvidence.failed) = .ok bf) :
    bd.balance .retry = (CostComponent.measurable.map bf.balance).sum := by
  have hbf : CostComponent.measurable.map bf.balance = CostComponent.measurable.map fun c =>
      ((attempts.filter CostEvidence.failed).map fun ev => share schedule currency nowMs c ev).sum :=
    List.map_congr_left fun c _ => project_balance hfailed c
  rw [balance_retry h, sum_retryShare, hbf, sum_sum_comm]
  exact congrArg List.sum (List.map_congr_left fun ev _ => (sum_measurable_share ev).symm)

theorem retry_le_total (h : project schedule currency nowMs attempts = .ok bd) :
    bd.balance .retry ≤ bd.total.toInt := by
  rw [balance_retry h, (project_total schedule currency nowMs h).2]
  refine List.sum_le_sum fun ev _ => ?_
  unfold retryShare
  split_ifs
  · exact usageCharges_le_attemptCost schedule currency nowMs ev
  · exact attemptCost_nonneg schedule currency nowMs ev

end Parts

/-- Each unit of cost is counted exactly once. -/
theorem project_counts_once (schedule : PriceSchedule) (currency : ByteString) (nowMs : Int64)
    (xs ys : List CostEvidence) (bd : CostBreakdown)
    (h : project schedule currency nowMs (xs ++ ys) = .ok bd) :
    (∃ bx bdy, project schedule currency nowMs xs = .ok bx ∧
        project schedule currency nowMs ys = .ok bdy ∧
        (∀ c, bd.balance c = bx.balance c + bdy.balance c) ∧
        bd.total.toInt = bx.total.toInt + bdy.total.toInt) ∧
      (∀ zs, zs.Perm (xs ++ ys) → ∃ bz, project schedule currency nowMs zs = .ok bz ∧
        (∀ c, bz.balance c = bd.balance c) ∧ bz.total = bd.total) ∧
      bd.total.toInt = (CostComponent.additive.map bd.balance).sum ∧
      (∃ bf, project schedule currency nowMs ((xs ++ ys).filter CostEvidence.failed) = .ok bf ∧
        bd.balance .retry = (CostComponent.measurable.map bf.balance).sum) ∧
      bd.balance .retry ≤ bd.total.toInt := by
  obtain ⟨bx, hx⟩ := exists_project_of_subperm (List.sublist_append_left xs ys).subperm h
  obtain ⟨bdy, hy⟩ := exists_project_of_subperm (List.sublist_append_right xs ys).subperm h
  obtain ⟨bf, hf⟩ := exists_project_of_subperm List.filter_sublist.subperm h
  have htotal := (project_total schedule currency nowMs h).2
  refine ⟨⟨bx, bdy, hx, hy, ?_, ?_⟩, ?_, total_eq_sum_additive h,
    ⟨bf, hf, retry_eq_sum_measurable h hf⟩, retry_le_total h⟩
  · intro c
    rw [project_balance h, project_balance hx, project_balance hy, List.map_append, List.sum_append]
  · rw [htotal, (project_total _ _ _ hx).2, (project_total _ _ _ hy).2, List.map_append,
      List.sum_append]
  · intro zs hperm
    obtain ⟨bz, hz⟩ := exists_project_of_subperm hperm.subperm h
    refine ⟨bz, hz, fun c => ?_, MoneyMicros.toInt_injective ?_⟩
    · rw [project_balance hz, project_balance h, (hperm.map _).sum_eq]
    · rw [htotal, (project_total _ _ _ hz).2, (hperm.map _).sum_eq]

def retriedOnce : List CostEvidence :=
  [{ acceleratorTime := 1000000000, isCompletion := true },
    { acceleratorTime := 2000000000, isCompletion := true, completedSuccessfully := true }]

theorem project_counts_once_retriedOnce :
    ∃ bd bx bdy, project { observations := [{ amount := ⟨5⟩ }] } defaultCurrency 0
        (retriedOnce ++ retriedOnce) = .ok bd ∧
      project { observations := [{ amount := ⟨5⟩ }] } defaultCurrency 0 retriedOnce = .ok bx ∧
      project { observations := [{ amount := ⟨5⟩ }] } defaultCurrency 0 retriedOnce = .ok bdy ∧
      bd.total = ⟨30⟩ ∧ bd.total.toInt = bx.total.toInt + bdy.total.toInt ∧
      bd.balance .retry = 10 ∧ bd.balance .retry = bx.balance .retry + bdy.balance .retry ∧
      bd.balance .retry ≤ bd.total.toInt := by
  obtain ⟨bd, h, htotal, hretry⟩ : ∃ bd, project { observations := [{ amount := ⟨5⟩ }] }
      defaultCurrency 0 (retriedOnce ++ retriedOnce) = .ok bd ∧ bd.total = ⟨30⟩ ∧
      bd.balance .retry = 10 := ⟨_, rfl, rfl, rfl⟩
  obtain ⟨⟨bx, bdy, hx, hy, hbalance, hsum⟩, -, -, -, hle⟩ := project_counts_once _ _ _ _ _ bd h
  exact ⟨bd, bx, bdy, h, hx, hy, htotal, hsum, hretry, hbalance .retry, hle⟩

end CostGovernor
