import CostGovernor.AttemptCosts

/-!
# Rounding up once per amount

Every nonzero amount of every attempt is priced by itself and rounded up, so the total is
never below the exact cost and above it by less than one micro-unit for each amount.
-/

namespace CostGovernor

open Executions ScanSelection

section Exact

variable (schedule : PriceSchedule) (currency : ByteString) (nowMs : Int64)

def Charge.chosen (u : Charge) : Option PriceObservation :=
  (kindFor u.comp).toOption.bind fun kind =>
    (findPrice schedule kind currency nowMs u.ev.device u.ev.resource none).map Prod.fst

def exactAt (amount : Int64) (o : PriceObservation) : ℚ :=
  (amount.toInt : ℚ) * o.amount.toInt / ((denominatorFor o.kind).toOption.getD 1).toInt

def Charge.exact (u : Charge) : ℚ :=
  ((u.chosen schedule currency nowMs).map (exactAt u.amount)).getD 0

def Charge.added (u : Charge) : ℤ := (u.price schedule currency nowMs).getD 0

def nonzeroCharges (attempts : List CostEvidence) : List Charge :=
  (attempts.flatMap CostEvidence.charges).filter fun u => u.amount ≠ 0

/-- The charge is priced at an observation of its kind that applies, and rounded up. -/
structure Charge.RoundedAt (u : Charge) (o : PriceObservation) : Prop where
  chosen : u.chosen schedule currency nowMs = some o
  applies : ∃ kind, kindFor u.comp = .ok kind ∧
    obsApplies o kind currency nowMs u.ev.device u.ev.resource none = true
  added : u.added schedule currency nowMs = ⌈u.exact schedule currency nowMs⌉
  positive : 0 < u.amount.toInt → 0 < o.amount.toInt → 0 < u.exact schedule currency nowMs

variable {schedule currency nowMs}

theorem Charge.exists_roundedAt {u : Charge} (hne : u.amount ≠ 0) {z : ℤ}
    (hz : u.price schedule currency nowMs = some z) :
    ∃ o, u.RoundedAt schedule currency nowMs o := by
  obtain ⟨m, hm, rfl⟩ := (Charge.price_eq_some_iff hne z).1 hz
  obtain ⟨kind, p, denom, hkind, hp, hdenom, hceil⟩ := projectComponent_eq_ok_iff.1 hm
  have hchosen : u.chosen schedule currency nowMs = some p.1 := by
    rw [Charge.chosen, hkind]
    exact congrArg (Option.map Prod.fst) hp
  have hunit : (denominatorFor p.1.kind).toOption.getD 1 = denom := by rw [hdenom]; rfl
  have hexact : u.exact schedule currency nowMs =
      (u.amount.toInt : ℚ) * p.1.amount.toInt / denom.toInt := by
    rw [Charge.exact, hchosen, Option.map_some, Option.getD_some, exactAt, hunit]
  obtain ⟨hamount, hprice, hpos⟩ := ceilMulDiv_signs hceil
  refine ⟨p.1, hchosen, ⟨kind, hkind, (scan_eq_some_kept (o := p.1) (i := p.2) hp).1⟩, ?_, ?_⟩
  · rw [Charge.added, hz, Option.getD_some, hexact]
    exact ((ceilMulDiv_eq_exactCeil hamount hprice hpos m.value).1 hceil).2
  · intro hamount hprice
    rw [hexact]
    have hpos' : (0 : ℚ) < denom.toInt := Int.cast_pos.mpr hpos
    have hamount' : (0 : ℚ) < u.amount.toInt := Int.cast_pos.mpr hamount
    have hprice' : (0 : ℚ) < p.1.amount.toInt := Int.cast_pos.mpr hprice
    positivity

theorem Charge.added_of_zero {u : Charge} (h : u.amount = 0) :
    u.added schedule currency nowMs = 0 := by
  rw [Charge.added, Charge.price, if_pos h]
  rfl

theorem sum_added_nonzero (us : List Charge) :
    ((us.filter fun u => u.amount ≠ 0).map (Charge.added schedule currency nowMs)).sum =
      chargesTotal schedule currency nowMs us := by
  induction us with
  | nil => rfl
  | cons u us ih =>
      have hcons : chargesTotal schedule currency nowMs (u :: us) =
          u.added schedule currency nowMs + chargesTotal schedule currency nowMs us := rfl
      rw [hcons, ← ih, List.filter_cons]
      by_cases hzero : u.amount = 0
      · simp [hzero, Charge.added_of_zero hzero]
      · simp [hzero]

theorem total_eq_sum_added {attempts : List CostEvidence} {bd : CostBreakdown}
    (h : project schedule currency nowMs attempts = .ok bd) :
    bd.total.toInt =
      ((nonzeroCharges attempts).map (Charge.added schedule currency nowMs)).sum := by
  rw [(project_total schedule currency nowMs h).2, nonzeroCharges, sum_added_nonzero,
    chargesTotal_flatMap]

theorem roundedAt_of_project {attempts : List CostEvidence} {bd : CostBreakdown}
    (h : project schedule currency nowMs attempts = .ok bd) {u : Charge}
    (hu : u ∈ nonzeroCharges attempts) : ∃ o, u.RoundedAt schedule currency nowMs o := by
  obtain ⟨hmem, hne⟩ := List.mem_filter.mp hu
  obtain ⟨ev, hev, hcharge⟩ := List.mem_flatMap.mp hmem
  obtain ⟨z, hz⟩ := (project_total schedule currency nowMs h).1 ev hev u hcharge
  exact Charge.exists_roundedAt (by simpa using hne) hz

end Exact

/-- Rounding never undercounts, and overcounts by less than one micro-unit for each amount. -/
theorem rounding_bounded (schedule : PriceSchedule) (currency : ByteString) (nowMs : Int64)
    (attempts : List CostEvidence) (bd : CostBreakdown)
    (h : project schedule currency nowMs attempts = .ok bd) :
    (∀ u ∈ nonzeroCharges attempts, ∃ o, u.chosen schedule currency nowMs = some o ∧
        (∃ kind, kindFor u.comp = .ok kind ∧
          obsApplies o kind currency nowMs u.ev.device u.ev.resource none = true) ∧
        (0 < u.amount.toInt → 0 < o.amount.toInt → 1 ≤ u.added schedule currency nowMs)) ∧
      bd.total.toInt = ((nonzeroCharges attempts).map (Charge.added schedule currency nowMs)).sum ∧
      ((nonzeroCharges attempts).map (Charge.exact schedule currency nowMs)).sum ≤ bd.total.toInt ∧
      (nonzeroCharges attempts = [] → bd.total.toInt = 0) ∧
      (nonzeroCharges attempts ≠ [] → (bd.total.toInt : ℚ) <
        ((nonzeroCharges attempts).map (Charge.exact schedule currency nowMs)).sum +
          (nonzeroCharges attempts).length) := by
  have hrounded := fun u hu => roundedAt_of_project h (u := u) hu
  have htotal := total_eq_sum_added h
  have hcast : (bd.total.toInt : ℚ) =
      ((nonzeroCharges attempts).map fun u => (u.added schedule currency nowMs : ℚ)).sum := by
    rw [htotal, Int.cast_list_sum, List.map_map]
    rfl
  refine ⟨?_, htotal, ?_, ?_, ?_⟩
  · intro u hu
    obtain ⟨o, ho⟩ := hrounded u hu
    refine ⟨o, ho.chosen, ho.applies, ?_⟩
    intro hamount hprice
    rw [ho.added, Int.one_le_ceil_iff]
    exact ho.positive hamount hprice
  · rw [hcast]
    refine List.sum_le_sum fun u hu => ?_
    obtain ⟨o, ho⟩ := hrounded u hu
    rw [ho.added]
    exact Int.le_ceil _
  · intro hnone
    rw [htotal, hnone]
    rfl
  · intro hsome
    rw [hcast]
    have hlt : ((nonzeroCharges attempts).map fun u => (u.added schedule currency nowMs : ℚ)).sum <
        ((nonzeroCharges attempts).map fun u => u.exact schedule currency nowMs + 1).sum := by
      refine List.sum_lt_sum_of_ne_nil hsome _ _ fun u hu => ?_
      obtain ⟨o, ho⟩ := hrounded u hu
      rw [ho.added]
      exact Int.ceil_lt_add_one _
    rwa [List.sum_map_add, List.map_const', List.sum_replicate, nsmul_one] at hlt

/-- A nanosecond costs a whole micro-unit. -/
theorem rounding_bounded_nanosecond :
    ∃ bd, project { observations := [{ amount := ⟨5⟩ }] } defaultCurrency 0
        [{ acceleratorTime := 1 }] = .ok bd ∧
      (bd.total.toInt : ℚ) < ((nonzeroCharges [{ acceleratorTime := 1 }]).map
        (Charge.exact { observations := [{ amount := ⟨5⟩ }] } defaultCurrency 0)).sum +
          (nonzeroCharges [{ acceleratorTime := 1 }]).length := by
  obtain ⟨bd, h⟩ : ∃ bd, project { observations := [{ amount := ⟨5⟩ }] } defaultCurrency 0
      [{ acceleratorTime := 1 }] = .ok bd := exists_ok_of_isSome (by decide +kernel)
  have hsome : nonzeroCharges [{ acceleratorTime := 1 }] ≠ [] := by
    intro hnone
    have hlength : (nonzeroCharges [{ acceleratorTime := 1 }]).length = 1 := by decide +kernel
    rw [hnone] at hlength
    cases hlength
  exact ⟨bd, h, (rounding_bounded _ _ _ _ bd h).2.2.2.2 hsome⟩

end CostGovernor
