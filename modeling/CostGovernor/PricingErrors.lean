import CostGovernor.AttemptCosts
import CostGovernor.PriceSelection
import CostGovernor.Verdicts

/-!
# Exceptions in front of the budgets

The evaluation of a plan catches one exception of the projection, the missing price. A
plan that passed the price check has an observation for each of its six amounts, so only
its recomputation can lack one. Everything else the projection throws leaves the
evaluation: an amount or a total that no money value can hold, or a negative amount.
-/

namespace CostGovernor

open Executions Postings Tallies ScanSelection

/-- The exceptions the evaluation of a plan does not turn into a verdict. -/
def Uncaught (x : Exn) : Prop := ∀ what, x ≠ .statusError .missingPrice what

theorem throwsOnly_throwStatus {α : Type} {status : Status} (h : status ≠ .missingPrice)
    (what : String) : ThrowsOnly Uncaught (throwStatus status what : Except Exn α) := by
  refine throwsOnly_error fun other heq => h ?_
  cases heq
  rfl

theorem throwsOnly_ceilMulDiv (a b d : Int64) : ThrowsOnly Uncaught (ceilMulDiv a b d) := by
  unfold ceilMulDiv
  dsimp only
  split_ifs <;> first | exact throwsOnly_ok _ | exact throwsOnly_throwStatus (by decide) _

theorem throwsOnly_denominatorFor (kind : PriceKind) :
    ThrowsOnly Uncaught (denominatorFor kind) := by
  cases kind <;> first | exact throwsOnly_ok _ | exact throwsOnly_throwStatus (by decide) _

theorem throwsOnly_add (a b : MoneyMicros) : ThrowsOnly Uncaught (a.add b) := by
  unfold MoneyMicros.add checkedAdd
  dsimp only
  split_ifs
  · exact throwsOnly_error fun _ heq => by cases heq
  · exact throwsOnly_ok _

section Charges

variable {schedule : PriceSchedule} {currency : ByteString} {nowMs : Int64}

def Charge.Quoted (schedule : PriceSchedule) (currency : ByteString) (nowMs : Int64)
    (u : Charge) : Prop :=
  u.amount ≠ 0 → ∃ kind p, kindFor u.comp = .ok kind ∧
    findPrice schedule kind currency nowMs u.ev.device u.ev.resource none = some p

theorem throwsOnly_chargeUsage {u : Charge} (h : u.Quoted schedule currency nowMs)
    (bd : CostBreakdown) :
    ThrowsOnly Uncaught
      (chargeUsage schedule currency nowMs u.ev u.target u.comp u.amount bd) := by
  unfold chargeUsage
  split_ifs with hzero
  · exact throwsOnly_ok bd
  obtain ⟨kind, p, hkind, hp⟩ := h hzero
  have hpriced : ThrowsOnly Uncaught (priced schedule currency nowMs u.ev u.comp u.amount) := by
    unfold priced projectComponent
    rw [hkind]
    dsimp only [bind, Except.bind]
    rw [hp]
    exact (throwsOnly_denominatorFor _).bind fun d _ =>
      (throwsOnly_ceilMulDiv _ _ d).bind fun _ _ => throwsOnly_ok _
  exact hpriced.bind fun m _ => (throwsOnly_add _ m).bind fun _ _ => throwsOnly_ok _

theorem throwsOnly_charges {us : List Charge} (h : ∀ u ∈ us, u.Quoted schedule currency nowMs)
    (bd : CostBreakdown) :
    ThrowsOnly Uncaught (us.foldlM
      (fun bd u => chargeUsage schedule currency nowMs u.ev u.target u.comp u.amount bd) bd) :=
  throwsOnly_runChecked (fun bd' u hu => throwsOnly_chargeUsage (h u hu) bd') bd

theorem throwsOnly_sumTotal (bd : CostBreakdown) : ThrowsOnly Uncaught (sumTotal bd) := by
  refine throwsOnly_runChecked (fun total c _ => ?_) _
  split_ifs
  · exact throwsOnly_add _ _
  · exact throwsOnly_ok _

/-- An attempt that is no completion adds nothing to RETRY. -/
theorem project_of_incomplete {ev : CostEvidence} (h : ev.isCompletion = false) :
    project schedule currency nowMs [ev] = do
      let bd ← ev.usageCharges.foldlM
        (fun bd u => chargeUsage schedule currency nowMs u.ev u.target u.comp u.amount bd)
        { currency := currency }
      let bd ← chargeUsage schedule currency nowMs ev .recomputation .acceleratorTime
        ev.recomputeNs bd
      let total ← sumTotal bd
      return { bd with
        total := total, anyUnknown := [ev].any (fun ev => ev.label = .unsupported) } := by
  have hretry : ∀ bd, [ev].zipIdx.foldlM
      (chargeRetry schedule currency nowMs (finalSuccessIndex [ev])) bd = .ok bd := by
    intro bd
    rw [List.zipIdx_singleton, List.foldlM_cons, chargeRetry_eq, if_neg]
    · rfl
    · simp [Retried, h]
  unfold project
  rw [List.foldlM_cons, chargeAttempt, CostEvidence.usageCharges, List.foldlM_map]
  simp only [List.foldlM_nil, bind_pure, hretry, bind_assoc]
  rfl

theorem Charge.price_lt {u : Charge} : (u.price schedule currency nowMs).getD 0 < 2 ^ 63 := by
  unfold Charge.price
  split_ifs
  · norm_num
  · cases priced schedule currency nowMs u.ev u.comp u.amount with
    | error e => norm_num [Except.toOption]
    | ok m => exact m.toInt_lt

/-- The six amounts go to six components, so each holds one price. -/
theorem posted_usageCharges_lt (ev : CostEvidence) (c : CostComponent) :
    posted Charge.target (Charge.price schedule currency nowMs) ev.usageCharges c < 2 ^ 63 := by
  cases c <;>
    simp only [posted, tally, entry, CostEvidence.usageCharges, CostEvidence.usages, List.map_cons,
      List.map_nil, List.sum_cons, List.sum_nil, reduceCtorEq, if_true, if_false, add_zero,
      zero_add] <;>
    first | exact Charge.price_lt | norm_num

theorem exists_usageCharges {ev : CostEvidence}
    (h : AllPriced schedule currency nowMs ev.usageCharges) :
    ∃ bd, ev.usageCharges.foldlM
      (fun bd u => chargeUsage schedule currency nowMs u.ev u.target u.comp u.amount bd)
      { currency := currency } = .ok bd := by
  refine (posts_chargeUsage schedule currency nowMs).exists_run (fun _ _ => rfl) h fun c => ?_
  have hblank : ({ currency := currency } : CostBreakdown).balance c = 0 := rfl
  rw [hblank, zero_add]
  exact posted_usageCharges_lt ev c

theorem chargeRecompute_of_not_quoted {ev : CostEvidence}
    (h : ¬ ev.recomputeCharge.Quoted schedule currency nowMs) (bd : CostBreakdown) :
    ∃ what, chargeUsage schedule currency nowMs ev .recomputation .acceleratorTime ev.recomputeNs bd =
      .error (.statusError .missingPrice what) := by
  unfold Charge.Quoted at h
  push Not at h
  have hne : ev.recomputeNs ≠ 0 := h.1
  have hnone : findPrice schedule .acceleratorTime currency nowMs ev.device ev.resource none =
      none := by
    rw [Option.eq_none_iff_forall_ne_some]
    exact fun p => h.2 .acceleratorTime p rfl
  unfold chargeUsage priced projectComponent
  rw [if_neg hne]
  dsimp only [kindFor, bind, Except.bind]
  rw [hnone]
  exact ⟨_, rfl⟩

end Charges

namespace Governor

structure PassesChecks (g : Governor) (plan : ExecutionPlan) : Prop where
  supported : plan.label ≠ .unsupported
  meetsSlo : plan.meetsHardSlo = true
  revalidated : g.revalidationNeeded = false
  prices : g.priceVerdict plan checkedComponents = none

/-- Every amount of the plan can be priced and the prices add up to a money value, or the
recomputation after them has no observation. -/
def Payable (g : Governor) (plan : ExecutionPlan) : Prop :=
  AllPriced g.schedule g.policy.currency g.now (planToEvidence plan).usageCharges ∧
    (¬ (planToEvidence plan).recomputeCharge.Quoted g.schedule g.policy.currency g.now ∨
      AllPriced g.schedule g.policy.currency g.now [(planToEvidence plan).recomputeCharge] ∧
      attemptCost g.schedule g.policy.currency g.now (planToEvidence plan) < 2 ^ 63)

variable {g : Governor} {plan : ExecutionPlan}

theorem PassesChecks.quoted (h : g.PassesChecks plan) :
    ∀ u ∈ (planToEvidence plan).usageCharges, u.Quoted g.schedule g.policy.currency g.now := by
  intro u hu hne
  rw [CostEvidence.usageCharges, usages_planToEvidence, List.map_map] at hu
  obtain ⟨c, hc, rfl⟩ := List.mem_map.1 hu
  obtain ⟨hpresent, _⟩ := (g.priceVerdict_eq_none_iff plan checkedComponents).1 h.prices c hc hne
  obtain ⟨p, hp⟩ := (checkPrice_present_iff _ _ _ _ _ _ _).1 hpresent
  rw [checkPrice_obs] at hp
  obtain ⟨hkept, hmem⟩ := scan_eq_some_kept (o := p.1) (i := p.2) hp
  rw [passesCheck_eq, Bool.and_eq_true] at hkept
  have hfound : findPrice g.schedule (kindForCheck c) g.policy.currency g.now plan.device
      plan.resource none ≠ none := by
    intro hnone
    have hskipped := (scan_eq_none_iff _).1 hnone p.1 hmem
    rw [hkept.1] at hskipped
    cases hskipped
  obtain ⟨q, hq⟩ := Option.ne_none_iff_exists'.mp hfound
  exact ⟨_, q, kindFor_of_checked hc, hq⟩

theorem payable_of_project {bd : CostBreakdown}
    (h : project g.schedule g.policy.currency g.now [planToEvidence plan] = .ok bd) :
    g.Payable plan := by
  obtain ⟨hpriced, htotal⟩ := project_total _ _ _ h
  have hcharges := hpriced _ (List.mem_singleton_self _)
  refine ⟨fun u hu => hcharges u (List.mem_append_left _ hu),
    .inr ⟨fun u hu => hcharges u (List.mem_append_right _ hu), ?_⟩⟩
  rw [List.map_singleton, List.sum_singleton] at htotal
  rw [← htotal]
  exact bd.total.toInt_lt

/-- The projection of a payable plan is returned, or misses the recomputation's price. -/
theorem Payable.project_cases (h : g.Payable plan) :
    (∃ bd, project g.schedule g.policy.currency g.now [planToEvidence plan] = .ok bd) ∨
      ∃ what, project g.schedule g.policy.currency g.now [planToEvidence plan] =
        .error (.statusError .missingPrice what) := by
  obtain ⟨husages, hrecompute | ⟨hrecompute, hroom⟩⟩ := h
  · right
    obtain ⟨bd, hbd⟩ := exists_usageCharges husages
    obtain ⟨what, hwhat⟩ := chargeRecompute_of_not_quoted hrecompute bd
    refine ⟨what, ?_⟩
    rw [project_of_incomplete rfl, hbd]
    dsimp only [bind, Except.bind]
    rw [hwhat]
  · left
    refine exists_project _ _ _ ?_ ?_
    · intro ev hev u hu
      rw [List.mem_singleton.1 hev] at hu
      rcases List.mem_append.1 hu with husage | hlast
      · exact husages u husage
      · exact hrecompute u hlast
    · rwa [List.map_singleton, List.sum_singleton]

theorem payable_of_missing (hchecks : g.PassesChecks plan) {what : String}
    (h : project g.schedule g.policy.currency g.now [planToEvidence plan] =
      .error (.statusError .missingPrice what)) : g.Payable plan := by
  rw [project_of_incomplete rfl] at h
  cases hcharged : (planToEvidence plan).usageCharges.foldlM
      (fun bd u => chargeUsage g.schedule g.policy.currency g.now u.ev u.target u.comp u.amount bd)
      { currency := g.policy.currency } with
  | error e =>
      rw [hcharged] at h
      cases h
      exact absurd rfl (throwsOnly_charges hchecks.quoted _ _ hcharged what)
  | ok bd =>
      obtain ⟨_, hpriced, _⟩ :=
        (posts_chargeUsage _ _ _).balance_of_run (fun _ _ => rfl) hcharged
      refine ⟨hpriced, .inl fun hquoted => ?_⟩
      rw [hcharged] at h
      refine ThrowsOnly.bind (throwsOnly_chargeUsage hquoted bd) (fun bd' _ => ?_) _ h what rfl
      exact (throwsOnly_sumTotal bd').bind fun _ _ => throwsOnly_ok _

theorem beforeBudgets_error_iff (g : Governor) (plan : ExecutionPlan) :
    (∃ x, g.beforeBudgets plan = .error x) ↔ g.PassesChecks plan ∧ ¬ g.Payable plan := by
  constructor
  · rintro ⟨x, h⟩
    unfold beforeBudgets at h
    split_ifs at h with hlabel hslo hreval
    cases hprices : g.priceVerdict plan checkedComponents with
    | some v =>
        rw [hprices] at h
        cases h
    | none =>
        rw [hprices] at h
        refine ⟨⟨hlabel, by simpa using hslo, by simpa using hreval, hprices⟩, fun hpayable => ?_⟩
        rcases hpayable.project_cases with ⟨bd, hbd⟩ | ⟨what, hwhat⟩
        · rw [hbd] at h
          cases h
        · rw [hwhat] at h
          cases h
  · rintro ⟨hchecks, hpayable⟩
    unfold beforeBudgets
    rw [if_neg hchecks.supported, hchecks.meetsSlo, if_neg (by decide), hchecks.revalidated,
      if_neg Bool.false_ne_true, hchecks.prices]
    dsimp only
    cases hproject : project g.schedule g.policy.currency g.now [planToEvidence plan] with
    | ok bd => exact absurd (payable_of_project hproject) hpayable
    | error x =>
        split
        · next what hmissing =>
            exact absurd (payable_of_missing hchecks (hproject.trans hmissing)) hpayable
        · exact ⟨_, rfl⟩
        · next hok => cases hok

end Governor

end CostGovernor
