import CostGovernor.CeilMulDiv
import CostGovernor.Executions

/-!
# The price of one amount

`projectComponent` looks up a price and a unit and rounds the product up. What it returns
depends on the amount through that one product, so a smaller amount has a price whenever
a larger one has, and not a higher one.
-/

namespace CostGovernor

open Executions ScanSelection

theorem ceilMulDiv_mono {a a' b d q : Int64} (h : ceilMulDiv a' b d = .ok q) (hnonneg : 0 ≤ a.toInt)
    (hle : a.toInt ≤ a'.toInt) : ∃ q', ceilMulDiv a b d = .ok q' ∧ q'.toInt ≤ q.toInt := by
  obtain ⟨⟨_, hb, hd⟩, hfits, hq⟩ := ceilMulDiv_eq_ok_iff.1 h
  have hpos : 0 < d.toInt.toNat := by omega
  have hproduct : a.toInt.toNat * b.toInt.toNat ≤ a'.toInt.toNat * b.toInt.toNat :=
    Nat.mul_le_mul_right _ (by omega)
  have hceil : a.toInt.toNat * b.toInt.toNat ⌈/⌉ d.toInt.toNat ≤
      a'.toInt.toNat * b.toInt.toNat ⌈/⌉ d.toInt.toNat :=
    (ceilDiv_le_iff_le_mul hpos).2 (hproduct.trans ((ceilDiv_le_iff_le_mul hpos).1 le_rfl))
  have hlt := q.toInt_lt
  have hvalue := Int64.toInt_ofNat_of_lt
    (show a.toInt.toNat * b.toInt.toNat ⌈/⌉ d.toInt.toNat < 2 ^ 63 by omega)
  refine ⟨Int64.ofNat (a.toInt.toNat * b.toInt.toNat ⌈/⌉ d.toInt.toNat), ?_, ?_⟩
  · exact ceilMulDiv_eq_ok_iff.2 ⟨⟨hnonneg, hb, hd⟩, by omega, hvalue⟩
  · rw [hvalue, hq]
    exact_mod_cast hceil

section Component

variable {schedule : PriceSchedule} {currency : ByteString} {nowMs : Int64}

theorem kind_of_findPrice {kind : PriceKind} {device : DeviceId} {resource : ResourceId}
    {p : PricePointer}
    (h : findPrice schedule kind currency nowMs device resource none = some p) :
    p.1.kind = kind := by
  have hkept := (scan_eq_some_kept (o := p.1) (i := p.2) h).1
  by_contra hne
  unfold obsApplies at hkept
  rw [if_pos hne] at hkept
  cases hkept

theorem projectComponent_eq_ok_iff {comp : CostComponent} {amount : Int64} {device : DeviceId}
    {resource : ResourceId} {m : MoneyMicros} :
    projectComponent schedule comp amount currency nowMs device resource = .ok m ↔
      ∃ kind p denom, kindFor comp = .ok kind ∧
        findPrice schedule kind currency nowMs device resource none = some p ∧
        denominatorFor p.1.kind = .ok denom ∧
        ceilMulDiv amount p.1.amount.value denom = .ok m.value := by
  unfold projectComponent
  rw [bind_eq_ok_iff]
  constructor
  · rintro ⟨kind, hkind, h⟩
    cases hp : findPrice schedule kind currency nowMs device resource none with
    | none =>
        rw [hp] at h
        cases h
    | some p =>
        rw [hp] at h
        obtain ⟨denom, hdenom, h⟩ := bind_eq_ok_iff.1 h
        obtain ⟨micros, hmicros, h⟩ := bind_eq_ok_iff.1 h
        cases h
        exact ⟨kind, p, denom, hkind, hp, hdenom, hmicros⟩
  · rintro ⟨kind, p, denom, hkind, hp, hdenom, hmicros⟩
    refine ⟨kind, hkind, ?_⟩
    rw [hp]
    exact bind_eq_ok_iff.2 ⟨denom, hdenom, bind_eq_ok_iff.2 ⟨m.value, hmicros, rfl⟩⟩

theorem priced_nonneg {ev : CostEvidence} {comp : CostComponent} {amount : Int64} {m : MoneyMicros}
    (h : priced schedule currency nowMs ev comp amount = .ok m) : 0 ≤ m.toInt := by
  obtain ⟨_, _, _, _, _, _, hceil⟩ := projectComponent_eq_ok_iff.1 h
  exact ceilMulDiv_nonneg hceil

/-- Less of the same component is priced whenever more of it is, and not higher. -/
theorem priced_mono {ev ev' : CostEvidence} (hdevice : ev.device = ev'.device)
    (hresource : ev.resource = ev'.resource) {comp : CostComponent} {amount amount' : Int64}
    (hnonneg : 0 ≤ amount.toInt) (hle : amount.toInt ≤ amount'.toInt) {m : MoneyMicros}
    (h : priced schedule currency nowMs ev' comp amount' = .ok m) :
    ∃ m', priced schedule currency nowMs ev comp amount = .ok m' ∧ m'.toInt ≤ m.toInt := by
  obtain ⟨kind, p, denom, hkind, hp, hdenom, hceil⟩ := projectComponent_eq_ok_iff.1 h
  obtain ⟨q, hq, hsmaller⟩ := ceilMulDiv_mono hceil hnonneg hle
  refine ⟨⟨q⟩, ?_, hsmaller⟩
  rw [← hdevice, ← hresource] at hp
  exact projectComponent_eq_ok_iff.2 ⟨kind, p, denom, hkind, hp, hdenom, hq⟩

end Component

end CostGovernor
