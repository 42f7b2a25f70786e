import CostGovernor.PricedAmounts

/-!
# Prices and the units of amounts

A price is for one unit of its kind, an accelerator second, a kilowatt-hour, a gigabyte or
a gigabyte-second, while amounts come in nanoseconds, microjoules, bytes and
byte-nanoseconds. The denominators of the code are a thousand times too large for energy
and 10 ^ 9 times too small for what is held over time.
-/

namespace CostGovernor

/-- How much of an amount makes one unit of its price. -/
def CostComponent.perUnit : CostComponent → ℕ
  | .acceleratorTime => 10 ^ 9
  | .energy => 3600000 * 10 ^ 6
  | .transfer | .storage => 10 ^ 9
  | .memory | .residency => 10 ^ 9 * 10 ^ 9
  | _ => 1

theorem ceilDiv_eq_mul_iff {n d k : ℕ} (hd : 0 < d) (hk : 2 ≤ k) :
    n ⌈/⌉ d = n ⌈/⌉ (k * d) ↔ n ≤ d := by
  have hkd : 0 < k * d := Nat.mul_pos (by omega) hd
  constructor
  · intro h
    -- one less than the ceiling over the larger denominator does not suffice
    have hup : n ≤ d * (n ⌈/⌉ d) := (ceilDiv_le_iff_le_mul hd).mp le_rfl
    have hone : n ⌈/⌉ d ≤ 1 := by
      by_contra hlarge
      obtain ⟨c, hc⟩ : ∃ c, n ⌈/⌉ d = c + 2 := ⟨n ⌈/⌉ d - 2, by omega⟩
      have hless : ¬ n ⌈/⌉ (k * d) ≤ c + 1 := by omega
      rw [ceilDiv_le_iff_le_mul hkd, not_le] at hless
      rw [hc] at hup
      have hdouble : 2 * d * (c + 1) ≤ k * d * (c + 1) :=
        Nat.mul_le_mul_right _ (Nat.mul_le_mul_right _ hk)
      nlinarith
    calc n ≤ d * (n ⌈/⌉ d) := hup
      _ ≤ d * 1 := Nat.mul_le_mul_left d hone
      _ = d := Nat.mul_one d
  · intro h
    have hzero : ∀ {m : ℕ}, 0 < m → (n ⌈/⌉ m ≤ 0 ↔ n ≤ 0) := by
      intro m hm
      rw [ceilDiv_le_iff_le_mul hm, Nat.mul_zero]
    have hle : n ⌈/⌉ d ≤ 1 := (ceilDiv_le_iff_le_mul hd).mpr (by omega)
    have hle' : n ⌈/⌉ (k * d) ≤ 1 := (ceilDiv_le_iff_le_mul hkd).mpr (by nlinarith)
    have hz := hzero hd
    have hz' := hzero hkd
    omega

/-- What the components' denominators are in multiples of the units. -/
theorem ceilDiv_denominator_iff {comp : CostComponent} {kind : PriceKind} {denom : Int64}
    (hkind : kindFor comp = .ok kind) (hdenom : denominatorFor kind = .ok denom) (n : ℕ) :
    n ⌈/⌉ denom.toInt.toNat = n ⌈/⌉ comp.perUnit ↔
      (comp = .energy → n ≤ 3600000000000) ∧
        (comp = .memory ∨ comp = .residency → n ≤ 1000000000) := by
  have hheld : n ⌈/⌉ bytesPerGBs.toInt.toNat = n ⌈/⌉ (10 ^ 9 * 10 ^ 9) ↔ n ≤ 1000000000 :=
    ceilDiv_eq_mul_iff (by decide) (by decide)
  cases comp with
  | acceleratorTime =>
      cases hkind; cases hdenom
      exact iff_of_true rfl (by simp)
  | energy =>
      cases hkind; cases hdenom
      have hunit : microJoulesPerKWh.toInt.toNat = 1000 * CostComponent.energy.perUnit := by
        decide
      rw [hunit, eq_comm, ceilDiv_eq_mul_iff (by decide) (by decide)]
      simp [CostComponent.perUnit]
  | transfer =>
      cases hkind; cases hdenom
      exact iff_of_true rfl (by simp)
  | memory =>
      cases hkind; cases hdenom
      exact hheld.trans (by simp)
  | residency =>
      cases hkind; cases hdenom
      exact hheld.trans (by simp)
  | storage =>
      cases hkind; cases hdenom
      exact iff_of_true rfl (by simp)
  | _ => cases hkind

def physicalCost (comp : CostComponent) (amount : Int64) (price : MoneyMicros) : ℤ :=
  ⌈(price.toInt : ℚ) * ((amount.toInt : ℚ) / comp.perUnit)⌉

theorem physicalCost_eq {comp : CostComponent} (hunit : 0 < comp.perUnit) {amount : Int64}
    {price : MoneyMicros} (hamount : 0 ≤ amount.toInt) (hprice : 0 ≤ price.toInt) :
    physicalCost comp amount price =
      (amount.toInt.toNat * price.toInt.toNat ⌈/⌉ comp.perUnit : ℕ) := by
  rw [physicalCost, mul_div_assoc', mul_comm, ratCast_eq_toNat hamount, ratCast_eq_toNat hprice,
    ← Nat.cast_mul, ceil_natCast_div hunit]

/-- The price of a component is applied in its physical unit if and only if the component is
not energy, memory or residency, or its product is so small that every denominator gives the
same ceiling. -/
theorem priced_in_physical_units_iff (schedule : PriceSchedule) (comp : CostComponent)
    (amount : Int64) (currency : ByteString) (nowMs : Int64) (device : DeviceId)
    (resource : ResourceId) (kind : PriceKind) (p : PricePointer) (m : MoneyMicros)
    (hkind : kindFor comp = .ok kind)
    (hp : findPrice schedule kind currency nowMs device resource none = some p)
    (hm : projectComponent schedule comp amount currency nowMs device resource = .ok m) :
    m.toInt = physicalCost comp amount p.1.amount ↔
      (comp = .energy → amount.toInt * p.1.amount.toInt ≤ 3600000000000) ∧
        (comp = .memory ∨ comp = .residency → amount.toInt * p.1.amount.toInt ≤ 1000000000) := by
  obtain ⟨kind', p', denom, hkind', hp', hdenom, hceil⟩ := projectComponent_eq_ok_iff.1 hm
  obtain rfl : kind = kind' := Except.ok.inj (hkind.symm.trans hkind')
  obtain rfl : p = p' := Option.some.inj (hp.symm.trans hp')
  rw [kind_of_findPrice hp] at hdenom
  obtain ⟨⟨hamount, hprice, -⟩, -, hvalue⟩ := ceilMulDiv_eq_ok_iff.1 hceil
  have hunit : 0 < comp.perUnit := by cases comp <;> decide
  have hproduct : ((amount.toInt.toNat * p.1.amount.toInt.toNat : ℕ) : ℤ) =
      amount.toInt * p.1.amount.toInt := by
    rw [Nat.cast_mul, Int.toNat_of_nonneg hamount]
    congr 1
    exact Int.toNat_of_nonneg hprice
  have hm' : m.toInt =
      (amount.toInt.toNat * p.1.amount.toInt.toNat ⌈/⌉ denom.toInt.toNat : ℕ) := hvalue
  rw [hm', physicalCost_eq hunit hamount hprice, Nat.cast_inj,
    ceilDiv_denominator_iff hkind hdenom, ← Nat.cast_le (α := ℤ), ← Nat.cast_le (α := ℤ), hproduct]
  rfl

/-- One kilowatt-hour at 100 micro-units is priced at 1, one gigabyte-second at 1 micro-unit
at 10 ^ 9. -/
theorem kilowatt_hour_priced_at_one :
    projectComponent { observations := [{ kind := .energy, amount := ⟨100⟩ }] } .energy
        3600000000000 defaultCurrency 0 {} {} = .ok ⟨1⟩ ∧
      physicalCost .energy 3600000000000 ⟨100⟩ = 100 ∧
      projectComponent { observations := [{ kind := .memoryHolding, amount := ⟨1⟩ }] } .memory
        1000000000000000000 defaultCurrency 0 {} {} = .ok ⟨1000000000⟩ ∧
      physicalCost .memory 1000000000000000000 ⟨1⟩ = 1 := by
  refine ⟨by decide +kernel, ?_, by decide +kernel, ?_⟩
  · rw [physicalCost_eq (by decide) (by decide) (by decide)]
    decide +kernel
  · rw [physicalCost_eq (by decide) (by decide) (by decide)]
    decide +kernel

theorem accelerator_second_priced :
    projectComponent { observations := [{ amount := ⟨7⟩ }] } .acceleratorTime 1000000000
        defaultCurrency 0 {} {} = .ok ⟨7⟩ ∧
      (⟨7⟩ : MoneyMicros).toInt = physicalCost .acceleratorTime 1000000000 ⟨7⟩ := by
  have hm : projectComponent { observations := [{ amount := ⟨7⟩ }] } .acceleratorTime 1000000000
      defaultCurrency 0 {} {} = .ok ⟨7⟩ := by decide +kernel
  exact ⟨hm, (priced_in_physical_units_iff _ _ _ _ _ _ _ .acceleratorTime ({ amount := ⟨7⟩ }, 0) _
    rfl (by decide +kernel) hm).2 (by decide)⟩

end CostGovernor
