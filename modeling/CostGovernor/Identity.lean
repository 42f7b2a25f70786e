import Mathlib.Order.Basic
import Mathlib.Tactic

/-!
# Strongly typed identities

Each tag gives its own identity type over a 64-bit word, so identities of
different authority domains never mix. The zero word is the unset identity.
Strings of the source are byte strings.
-/

namespace CostGovernor

inductive IdTag
  | coordinatorEpoch | worker | workerBoot | workload | workloadGeneration | request
  | attempt | attemptGeneration | plan | planGeneration | costPolicy | costPolicyGeneration
  | budget | budgetGeneration | priceSchedule | priceScheduleGeneration
  | evidence | evidenceGeneration | resource | resourceGeneration | device | deviceGeneration
  | placement | placementGeneration | recoveryGeneration | intervention | interventionGeneration
  | reservation
  deriving DecidableEq

structure Id (tag : IdTag) where
  value : UInt64 := 0
  deriving DecidableEq

namespace Id

variable {tag : IdTag}

def valid (i : Id tag) : Bool := decide (i.value ≠ 0)

theorem toNat_injective : Function.Injective (fun i : Id tag => i.value.toNat) := by
  intro a b h
  cases a; cases b
  congr
  exact UInt64.toNat_inj.1 h

instance : LinearOrder (Id tag) := LinearOrder.lift' (fun i : Id tag => i.value.toNat) toNat_injective

theorem le_iff_toNat_le (a b : Id tag) : a ≤ b ↔ a.value.toNat ≤ b.value.toNat := Iff.rfl

theorem lt_iff_toNat_lt (a b : Id tag) : a < b ↔ a.value.toNat < b.value.toNat := Iff.rfl

/-- The next identity, wrapping at the word size. -/
def succ (i : Id tag) : Id tag := ⟨i.value + 1⟩

theorem succ_toNat (i : Id tag) : i.succ.value.toNat = (i.value.toNat + 1) % 2 ^ 64 := by
  simp [succ, UInt64.toNat_add]

end Id

abbrev CoordinatorEpoch := Id .coordinatorEpoch
abbrev WorkerId := Id .worker
abbrev WorkerBootId := Id .workerBoot
abbrev WorkloadId := Id .workload
abbrev WorkloadGeneration := Id .workloadGeneration
abbrev RequestId := Id .request
abbrev AttemptId := Id .attempt
abbrev AttemptGeneration := Id .attemptGeneration
abbrev PlanId := Id .plan
abbrev PlanGeneration := Id .planGeneration
abbrev CostPolicyId := Id .costPolicy
abbrev CostPolicyGeneration := Id .costPolicyGeneration
abbrev BudgetId := Id .budget
abbrev BudgetGeneration := Id .budgetGeneration
abbrev PriceScheduleId := Id .priceSchedule
abbrev PriceScheduleGeneration := Id .priceScheduleGeneration
abbrev EvidenceId := Id .evidence
abbrev EvidenceGeneration := Id .evidenceGeneration
abbrev ResourceId := Id .resource
abbrev ResourceGeneration := Id .resourceGeneration
abbrev DeviceId := Id .device
abbrev DeviceGeneration := Id .deviceGeneration
abbrev PlacementId := Id .placement
abbrev PlacementGeneration := Id .placementGeneration
abbrev RecoveryGeneration := Id .recoveryGeneration
abbrev InterventionId := Id .intervention
abbrev InterventionGeneration := Id .interventionGeneration
abbrev ReservationId := Id .reservation

abbrev ByteString := List UInt8

/-- The bytes of "USD". -/
def defaultCurrency : ByteString := [85, 83, 68]

end CostGovernor
