import CostGovernor.Budget
import CostGovernor.Decision
import Mathlib.Logic.Equiv.Defs

/-!
# Enumerations as bytes

The source casts its enumerations to and from bytes without a check. Every byte
is a value of the type in memory, so each enumeration is the same as the type of
bytes: the enumerators in the order of the header, then the bytes without a name.
-/

namespace CostGovernor

/-- The cast from a byte: an enumerator, or the byte itself when it has none. -/
def enumOfByte {α : Type} {n : UInt8} (named : List α) (hlength : named.length = n.toNat)
    (raw : (byte : UInt8) → n ≤ byte → α) (byte : UInt8) : α :=
  if h : n ≤ byte then raw byte h
  else named.get ⟨byte.toNat, hlength ▸ not_le.1 h⟩

theorem forall_byte {p : UInt8 → Prop} (h : ∀ i : Fin 256, p (UInt8.ofFin i)) (byte : UInt8) :
    p byte := by
  simpa using h byte.toFin

def PriceKind.byte : PriceKind ≃ UInt8 where
  toFun
    | .raw byte _ => byte
    | k => UInt8.ofNat k.ctorIdx
  invFun := enumOfByte [acceleratorTime, energy, transfer, memoryHolding, storage,
    residencyHolding, request, token, operation, customTypedComponent] rfl raw
  left_inv k := by
    cases k with
    | raw byte h => exact dif_pos h
    | _ => rfl
  right_inv := forall_byte (by decide +kernel)

def Provenance.byte : Provenance ≃ UInt8 where
  toFun
    | .raw byte _ => byte
    | p => UInt8.ofNat p.ctorIdx
  invFun := enumOfByte [configuredPolicy, measured, reported, derived, synthetic, unknown] rfl raw
  left_inv p := by
    cases p with
    | raw byte h => exact dif_pos h
    | _ => rfl
  right_inv := forall_byte (by decide +kernel)

def DataLabel.byte : DataLabel ≃ UInt8 where
  toFun
    | .raw byte _ => byte
    | l => UInt8.ofNat l.ctorIdx
  invFun := enumOfByte [real, synthetic, policy, unsupported] rfl raw
  left_inv l := by
    cases l with
    | raw byte h => exact dif_pos h
    | _ => rfl
  right_inv := forall_byte (by decide +kernel)

def RankingMode.byte : RankingMode ≃ UInt8 where
  toFun
    | .raw byte _ => byte
    | m => UInt8.ofNat m.ctorIdx
  invFun := enumOfByte [lexicographic, weightedScore] rfl raw
  left_inv m := by
    cases m with
    | raw byte h => exact dif_pos h
    | _ => rfl
  right_inv := forall_byte (by decide +kernel)

def BudgetMode.byte : BudgetMode ≃ UInt8 where
  toFun
    | .raw byte _ => byte
    | m => UInt8.ofNat m.ctorIdx
  invFun := enumOfByte [hard, soft, advisory] rfl raw
  left_inv m := by
    cases m with
    | raw byte h => exact dif_pos h
    | _ => rfl
  right_inv := forall_byte (by decide +kernel)

def BudgetObjective.byte : BudgetObjective ≃ UInt8 where
  toFun
    | .raw byte _ => byte
    | o => UInt8.ofNat o.ctorIdx
  invFun := enumOfByte [maxCostPerRequest, maxCostPerToken, maxCostPerOperation,
    maxTotalExecutionCost, maxAcceleratorTimeCost, maxEnergyCost, maxTransferCost,
    maxRecoveryCost, maxRetryCost] rfl raw
  left_inv o := by
    cases o with
    | raw byte h => exact dif_pos h
    | _ => rfl
  right_inv := forall_byte (by decide +kernel)

def BudgetLifecycle.byte : BudgetLifecycle ≃ UInt8 where
  toFun
    | .raw byte _ => byte
    | l => UInt8.ofNat l.ctorIdx
  invFun := enumOfByte [created, active, reserved, partiallyConsumed, exhausted, expired,
    cancelled, superseded, closed] rfl raw
  left_inv l := by
    cases l with
    | raw byte h => exact dif_pos h
    | _ => rfl
  right_inv := forall_byte (by decide +kernel)

def InterventionKind.byte : InterventionKind ≃ UInt8 where
  toFun
    | .raw byte _ => byte
    | k => UInt8.ofNat k.ctorIdx
  invFun := enumOfByte [noAction, selectCheaperPlan, replan, defer, reject, stopIfSafe,
    reduceBatch, changePlacement, changeAcceleratorClass, preferLocalState, avoidTransfer,
    reuseWarmState, evictIdleState, releaseReservation, preemptLowerValueWork,
    requestCheaperRecovery, shedLowValueWork, escalateBudget, manualInterventionRequired] rfl raw
  left_inv k := by
    cases k with
    | raw byte h => exact dif_pos h
    | _ => rfl
  right_inv := forall_byte (by decide +kernel)

def InterventionLifecycle.byte : InterventionLifecycle ≃ UInt8 where
  toFun
    | .raw byte _ => byte
    | l => UInt8.ofNat l.ctorIdx
  invFun := enumOfByte [proposed, authorized, dispatched, acknowledged, effective, ineffective,
    failed, cancelled, superseded, expired, outcomeUnknown] rfl raw
  left_inv l := by
    cases l with
    | raw byte h => exact dif_pos h
    | _ => rfl
  right_inv := forall_byte (by decide +kernel)

end CostGovernor
