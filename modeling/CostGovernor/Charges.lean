import CostGovernor.PricedAmounts
import CostGovernor.Postings

/-!
# The loops of the projection as postings

Four loops of `project` post nonnegative prices to accounts: the amounts of every
attempt to components, those of a failed completion to its sub-total, the sub-totals
to RETRY and the additive components to the total.
-/

namespace CostGovernor

open Executions Postings Tallies

/-- An amount of an attempt, the component it is booked under and the one that prices it. -/
structure Charge where
  ev : CostEvidence
  target : CostComponent
  comp : CostComponent
  amount : Int64

namespace CostEvidence

def usageCharges (ev : CostEvidence) : List Charge :=
  ev.usages.map (fun u => ⟨ev, u.1, u.1, u.2⟩)

def recomputeCharge (ev : CostEvidence) : Charge :=
  ⟨ev, .recomputation, .acceleratorTime, ev.recomputeNs⟩

def charges (ev : CostEvidence) : List Charge := ev.usageCharges ++ [ev.recomputeCharge]

end CostEvidence

namespace CostBreakdown

def balance (bd : CostBreakdown) (c : CostComponent) : ℤ := (bd.components c).value.toInt

def BlankUnknowns (bd : CostBreakdown) : Prop :=
  ∀ c, (bd.components c).known = false → bd.balance c = 0

theorem charge_balance {bd bd' : CostBreakdown} {c : CostComponent} {m : MoneyMicros}
    (hbd : bd.BlankUnknowns) (h : bd.charge c m = .ok bd') :
    bd'.BlankUnknowns ∧ ∀ k, bd'.balance k = bd.balance k + if c = k then m.toInt else 0 := by
  unfold charge at h
  obtain ⟨value, hvalue, he⟩ := bind_eq_ok_iff.1 h
  cases he
  rw [MoneyMicros.add_eq_ok_iff] at hvalue
  refine ⟨?_, ?_⟩
  · intro k hk
    by_cases hkc : k = c
    · simp [hkc] at hk
    · simp only [hkc, if_false] at hk
      simpa only [balance, hkc, if_false] using hbd k hk
  · intro k
    by_cases hkc : c = k
    · simp only [balance, hkc, if_true] at hvalue ⊢
      exact hvalue
    · simp only [balance, hkc, if_false, Ne.symm hkc, add_zero]

theorem exists_charge (bd : CostBreakdown) {c : CostComponent} {m : MoneyMicros}
    (hm : 0 ≤ m.toInt) (hroom : bd.balance c + m.toInt < 2 ^ 63) :
    ∃ bd', bd.charge c m = .ok bd' := by
  have hlow := (bd.components c).value.le_toInt
  obtain ⟨value, hvalue⟩ := (MoneyMicros.exists_add_eq_ok_iff (bd.components c).value m).2
    ⟨by omega, hroom⟩
  unfold charge
  rw [hvalue]
  exact ⟨_, rfl⟩

end CostBreakdown

section Project

variable (schedule : PriceSchedule) (currency : ByteString) (nowMs : Int64)

def Charge.price (u : Charge) : Option ℤ :=
  if u.amount = 0 then some 0
  else (priced schedule currency nowMs u.ev u.comp u.amount).toOption.map MoneyMicros.toInt

variable {schedule currency nowMs}

theorem Charge.price_eq_some_iff {u : Charge} (h : u.amount ≠ 0) (z : ℤ) :
    u.price schedule currency nowMs = some z ↔
      ∃ m, priced schedule currency nowMs u.ev u.comp u.amount = .ok m ∧ m.toInt = z := by
  rw [Charge.price, if_neg h]
  cases priced schedule currency nowMs u.ev u.comp u.amount <;> simp [Except.toOption]

theorem Charge.price_nonneg {u : Charge} {z : ℤ} (h : u.price schedule currency nowMs = some z) :
    0 ≤ z := by
  by_cases hzero : u.amount = 0
  · rw [Charge.price, if_pos hzero] at h
    exact (Option.some.inj h).le
  · obtain ⟨m, hm, rfl⟩ := (Charge.price_eq_some_iff hzero z).1 h
    exact priced_nonneg hm

variable (schedule currency nowMs)

theorem posts_chargeUsage :
    Posts CostBreakdown.BlankUnknowns
      (fun bd (u : Charge) => chargeUsage schedule currency nowMs u.ev u.target u.comp u.amount bd)
      CostBreakdown.balance Charge.target (Charge.price schedule currency nowMs) (2 ^ 63) where
  nonneg _ _ h := Charge.price_nonneg h
  sound bd u bd' hbd h := by
    dsimp only [chargeUsage] at h
    split_ifs at h with hzero
    · cases h
      exact ⟨hbd, 0, if_pos hzero, by simp⟩
    · obtain ⟨m, hm, hcharge⟩ := bind_eq_ok_iff.1 h
      obtain ⟨hbd', hbalance⟩ := CostBreakdown.charge_balance hbd hcharge
      exact ⟨hbd', m.toInt, (Charge.price_eq_some_iff hzero _).2 ⟨m, hm, rfl⟩, hbalance⟩
  complete bd u z _ hz hroom := by
    dsimp only [chargeUsage]
    split_ifs with hzero
    · exact ⟨bd, rfl⟩
    · obtain ⟨m, hm, rfl⟩ := (Charge.price_eq_some_iff hzero z).1 hz
      rw [hm]
      exact bd.exists_charge (priced_nonneg hm) hroom

/-- A sum of money values, as a book with one account. -/
theorem posts_failedCost (ev : CostEvidence) :
    Posts (fun _ => True)
      (fun (failed : MoneyMicros) (u : CostComponent × Int64) =>
        if u.2 = 0 then .ok failed
        else do
          let m ← priced schedule currency nowMs ev u.1 u.2
          failed.add m)
      (fun failed (_ : Unit) => failed.toInt) (fun _ => ())
      (fun u => Charge.price schedule currency nowMs ⟨ev, u.1, u.1, u.2⟩) (2 ^ 63) where
  nonneg _ _ h := Charge.price_nonneg h
  sound failed u failed' _ h := by
    split_ifs at h with hzero
    · cases h
      exact ⟨trivial, 0, if_pos hzero, by simp⟩
    · obtain ⟨m, hm, hadd⟩ := bind_eq_ok_iff.1 h
      refine ⟨trivial, m.toInt, (Charge.price_eq_some_iff hzero _).2 ⟨m, hm, rfl⟩, ?_⟩
      intro k
      rw [if_pos rfl]
      exact (MoneyMicros.add_eq_ok_iff _ _ _).1 hadd
  complete failed u z _ hz hroom := by
    split_ifs with hzero
    · exact ⟨failed, rfl⟩
    · obtain ⟨m, hm, rfl⟩ := (Charge.price_eq_some_iff hzero z).1 hz
      rw [hm]
      have hlow := failed.le_toInt
      have hnonneg := priced_nonneg hm
      exact (MoneyMicros.exists_add_eq_ok_iff failed m).2 ⟨by omega, hroom⟩

/-- The prices of a list of charges together; a charge without a price adds nothing. -/
def chargesTotal (us : List Charge) : ℤ :=
  (us.map (fun u => (u.price schedule currency nowMs).getD 0)).sum

def AllPriced (us : List Charge) : Prop := ∀ u ∈ us, ∃ z, u.price schedule currency nowMs = some z

theorem chargesTotal_append (us vs : List Charge) :
    chargesTotal schedule currency nowMs (us ++ vs) =
      chargesTotal schedule currency nowMs us + chargesTotal schedule currency nowMs vs := by
  simp only [chargesTotal, List.map_append, List.sum_append]

theorem chargesTotal_nonneg (us : List Charge) : 0 ≤ chargesTotal schedule currency nowMs us := by
  refine List.sum_nonneg (fun z hz => ?_)
  obtain ⟨u, _, rfl⟩ := List.mem_map.1 hz
  exact (posts_chargeUsage schedule currency nowMs).getD_nonneg u

theorem failedCost_toInt {ev : CostEvidence} {m : MoneyMicros}
    (h : failedCost schedule currency nowMs ev = .ok m) :
    m.toInt = chargesTotal schedule currency nowMs ev.usageCharges := by
  obtain ⟨_, _, hbalance⟩ :=
    (posts_failedCost schedule currency nowMs ev).balance_of_run trivial h
  have htotal := hbalance ()
  rw [posted_unit, MoneyMicros.toInt_zero, zero_add] at htotal
  rw [htotal, chargesTotal, CostEvidence.usageCharges, List.map_map]
  rfl

theorem exists_failedCost {ev : CostEvidence}
    (hpriced : AllPriced schedule currency nowMs ev.usageCharges)
    (hroom : chargesTotal schedule currency nowMs ev.usageCharges < 2 ^ 63) :
    ∃ m, failedCost schedule currency nowMs ev = .ok m := by
  refine (posts_failedCost schedule currency nowMs ev).exists_run trivial ?_ ?_
  · intro u hu
    exact hpriced _ (List.mem_map.2 ⟨u, hu, rfl⟩)
  · intro _
    rw [posted_unit, MoneyMicros.toInt_zero, zero_add]
    rw [chargesTotal, CostEvidence.usageCharges, List.map_map] at hroom
    exact hroom

/-- A failed completion, which `project` counts under RETRY as well. -/
def Retried (success : Option ℕ) (x : CostEvidence × ℕ) : Prop :=
  ¬ some x.2 = success ∧ x.1.isCompletion ∧ !x.1.completedSuccessfully

instance (success : Option ℕ) (x : CostEvidence × ℕ) : Decidable (Retried success x) :=
  inferInstanceAs (Decidable (_ ∧ _))

theorem chargeRetry_eq (success : Option ℕ) (bd : CostBreakdown) (x : CostEvidence × ℕ) :
    chargeRetry schedule currency nowMs success bd x =
      if Retried success x then do
        let failed ← failedCost schedule currency nowMs x.1
        bd.charge .retry failed
      else .ok bd := by
  unfold chargeRetry
  by_cases hsuccess : some x.2 = success
  · rw [if_pos hsuccess, if_neg (fun h : Retried success x => h.1 hsuccess)]
  · rw [if_neg hsuccess, ite_not]
    exact if_congr ⟨fun h => ⟨hsuccess, h⟩, fun h => h.2⟩ rfl rfl

def retryPrice (success : Option ℕ) (x : CostEvidence × ℕ) : Option ℤ :=
  if Retried success x then
    (failedCost schedule currency nowMs x.1).toOption.map MoneyMicros.toInt
  else some 0

theorem retryPrice_eq_some_iff {success : Option ℕ} {x : CostEvidence × ℕ}
    (h : Retried success x) (z : ℤ) :
    retryPrice schedule currency nowMs success x = some z ↔
      ∃ m, failedCost schedule currency nowMs x.1 = .ok m ∧ m.toInt = z := by
  rw [retryPrice, if_pos h]
  cases failedCost schedule currency nowMs x.1 <;> simp [Except.toOption]

theorem failedCost_nonneg {ev : CostEvidence} {m : MoneyMicros}
    (h : failedCost schedule currency nowMs ev = .ok m) : 0 ≤ m.toInt := by
  rw [failedCost_toInt schedule currency nowMs h]
  exact chargesTotal_nonneg schedule currency nowMs _

theorem posts_chargeRetry (success : Option ℕ) :
    Posts CostBreakdown.BlankUnknowns (chargeRetry schedule currency nowMs success)
      CostBreakdown.balance (fun _ => .retry) (retryPrice schedule currency nowMs success)
      (2 ^ 63) where
  nonneg x z h := by
    by_cases hretried : Retried success x
    · obtain ⟨m, hm, rfl⟩ := (retryPrice_eq_some_iff _ _ _ hretried z).1 h
      exact failedCost_nonneg schedule currency nowMs hm
    · rw [retryPrice, if_neg hretried] at h
      exact (Option.some.inj h).le
  sound bd x bd' hbd h := by
    rw [chargeRetry_eq] at h
    split_ifs at h with hretried
    · obtain ⟨m, hm, hcharge⟩ := bind_eq_ok_iff.1 h
      obtain ⟨hbd', hbalance⟩ := CostBreakdown.charge_balance hbd hcharge
      exact ⟨hbd', m.toInt, (retryPrice_eq_some_iff _ _ _ hretried _).2 ⟨m, hm, rfl⟩, hbalance⟩
    · cases h
      exact ⟨hbd, 0, if_neg hretried, by simp⟩
  complete bd x z _ hz hroom := by
    rw [chargeRetry_eq]
    split_ifs with hretried
    · obtain ⟨m, hm, rfl⟩ := (retryPrice_eq_some_iff _ _ _ hretried z).1 hz
      rw [hm]
      exact bd.exists_charge (failedCost_nonneg schedule currency nowMs hm) hroom
    · exact ⟨bd, rfl⟩

end Project

def CostComponent.additive : List CostComponent :=
  CostComponent.all.filter (fun c => c ≠ .retry ∧ c ≠ .recovery)

def totalPrice (bd : CostBreakdown) (c : CostComponent) : Option ℤ :=
  some (if c ≠ .retry ∧ c ≠ .recovery ∧ (bd.components c).known then bd.balance c else 0)

theorem posts_sumTotal {bd : CostBreakdown} (hnonneg : ∀ c, 0 ≤ bd.balance c) :
    Posts (fun _ => True)
      (fun (total : MoneyMicros) c =>
        if c ≠ .retry ∧ c ≠ .recovery ∧ (bd.components c).known then
          total.add (bd.components c).value
        else .ok total)
      (fun total (_ : Unit) => total.toInt) (fun _ => ()) (totalPrice bd) (2 ^ 63) where
  nonneg c z h := by
    rw [totalPrice, Option.some.injEq] at h
    split_ifs at h
    · exact h ▸ hnonneg c
    · exact h.le
  sound total c total' _ h := by
    refine ⟨trivial, _, rfl, fun _ => ?_⟩
    rw [if_pos rfl]
    split_ifs at h ⊢
    · exact (MoneyMicros.add_eq_ok_iff _ _ _).1 h
    · cases h
      exact (add_zero _).symm
  complete total c z _ hz hroom := by
    rw [totalPrice, Option.some.injEq] at hz
    split_ifs at hz ⊢
    · have hlow := total.le_toInt
      have hc := hnonneg c
      exact (MoneyMicros.exists_add_eq_ok_iff _ _).2 ⟨by unfold CostBreakdown.balance at hc; omega, by
        rw [← hz] at hroom
        exact hroom⟩
    · exact ⟨total, rfl⟩

end CostGovernor
