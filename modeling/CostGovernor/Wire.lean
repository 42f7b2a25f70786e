import CostGovernor.ByteStreams
import CostGovernor.Coordinator
import CostGovernor.EnumBytes

/-!
# Messages on the wire

The transport has a writer and a reader of its own. A writer never fails: the
length of a string is written as its low 32 bits. A reader throws runtime errors.
`encode…` and `decode…` are the records in the field order of the source, and
`Message.decode` is what a session makes of the type and the payload of a frame
before its handler does anything.
-/

namespace CostGovernor

open ByteStreams

namespace Cgproto

/-- A `std::runtime_error` of the transport, by its text. -/
structure RuntimeError where
  what : String
  deriving DecidableEq

def truncated : RuntimeError := ⟨"protocol truncated"⟩

def maxPayload : ℕ := 2 ^ 20

inductive Msg
  | hello | publishPrice | requestEval | evalResult | recordAttempt | realize | getState | quit
  | reserve | commit | release | ping | pong | revalidate
  | raw (byte : UInt8) (unnamed : byte = 0 ∨ 15 ≤ byte)
  deriving DecidableEq

/-- The enumerators count from one. -/
def Msg.byte : Msg ≃ UInt8 where
  toFun
    | .raw byte _ => byte
    | m => UInt8.ofNat (m.ctorIdx + 1)
  invFun := enumOfByte [raw 0 (Or.inl rfl), hello, publishPrice, requestEval, evalResult,
    recordAttempt, realize, getState, quit, reserve, commit, release, ping, pong, revalidate] rfl
    (fun byte h => raw byte (Or.inr h))
  left_inv m := by
    cases m with
    | raw byte h =>
        rcases h with rfl | h
        · rfl
        · exact dif_pos h
    | _ => rfl
  right_inv := forall_byte (by decide +kernel)

namespace Writer

def u8 (v : UInt8) : ByteString := [v]

def u16 (v : ℕ) : ByteString := wordBytes 2 v

def u32 (v : ℕ) : ByteString := wordBytes 4 v

def u64 (v : UInt64) : ByteString := wordBytes 8 v.toNat

def i64 (v : Int64) : ByteString := u64 v.toUInt64

def str (s : ByteString) : ByteString := u32 s.length ++ s

end Writer

abbrev Read (α : Type) := ByteStreams.Reader RuntimeError α

namespace Reader

def u8 : Read UInt8 := (fun bytes => bytes.headD 0) <$> takeBytes truncated 1

def u16 : Read ℕ := readWord truncated 2

def u32 : Read ℕ := readWord truncated 4

def u64 : Read UInt64 := UInt64.ofNat <$> readWord truncated 8

def i64 : Read Int64 := UInt64.toInt64 <$> u64

def str : Read ByteString := do
  let len ← u32
  if maxPayload < len then throw ⟨"string too large"⟩
  else takeBytes truncated len

end Reader

def putId {tag : IdTag} (id : Id tag) : ByteString := Writer.u64 id.value

def getId {tag : IdTag} : Read (Id tag) := Id.mk <$> Reader.u64

def putEnum {α : Type} (byte : α ≃ UInt8) (a : α) : ByteString := Writer.u8 (byte a)

def getEnum {α : Type} (byte : α ≃ UInt8) : Read α := byte.symm <$> Reader.u8

def putBool (b : Bool) : ByteString := Writer.u8 (if b then 1 else 0)

def getBool : Read Bool := (fun byte => decide (byte ≠ 0)) <$> Reader.u8

def encodePrice (o : PriceObservation) : ByteString := List.flatten [
  putId o.id, putEnum PriceKind.byte o.kind, putId o.resourceScope, putId o.device,
  Writer.i64 o.amount.value, Writer.str o.currency, putEnum Provenance.byte o.provenance,
  putEnum DataLabel.byte o.label, Writer.i64 o.validFromMs, Writer.i64 o.validToMs,
  Writer.i64 o.observedAtMs, putId o.generation, putId o.epoch, putId o.worker, putId o.boot]

def decodePrice : Read PriceObservation := do
  let id ← getId
  let kind ← getEnum PriceKind.byte
  let resourceScope ← getId
  let device ← getId
  let amount ← MoneyMicros.fromMicros <$> Reader.i64
  let currency ← Reader.str
  let provenance ← getEnum Provenance.byte
  let label ← getEnum DataLabel.byte
  let validFromMs ← Reader.i64
  let validToMs ← Reader.i64
  let observedAtMs ← Reader.i64
  let generation ← getId
  let epoch ← getId
  let worker ← getId
  let boot ← getId
  return { id, kind, resourceScope, device, amount, currency, provenance, label, validFromMs,
           validToMs, observedAtMs, generation, epoch, worker, boot }

/-- The placement, the recovery and the recomputation time of a plan are not written. -/
def encodePlan (p : ExecutionPlan) : ByteString := List.flatten [
  putId p.id, putId p.generation, putId p.workload, putId p.workloadGeneration, putId p.resource,
  putId p.resourceGeneration, putId p.device, putId p.deviceGeneration, putId p.worker,
  Writer.i64 p.expectedAcceleratorTime, Writer.i64 p.expectedEnergy,
  Writer.i64 p.expectedTransfer, Writer.i64 p.expectedMemoryHold,
  Writer.i64 p.expectedResidencyHold, Writer.i64 p.expectedStorage, Writer.i64 p.expectedRetries,
  Writer.i64 p.expectedRequests, Writer.i64 p.expectedTokens, Writer.i64 p.expectedOperations,
  putEnum DataLabel.byte p.label, putBool p.meetsHardSlo,
  Writer.i64 p.completionProbabilityPercent]

def decodePlan : Read ExecutionPlan := do
  let id ← getId
  let generation ← getId
  let workload ← getId
  let workloadGeneration ← getId
  let resource ← getId
  let resourceGeneration ← getId
  let device ← getId
  let deviceGeneration ← getId
  let worker ← getId
  let expectedAcceleratorTime ← Reader.i64
  let expectedEnergy ← Reader.i64
  let expectedTransfer ← Reader.i64
  let expectedMemoryHold ← Reader.i64
  let expectedResidencyHold ← Reader.i64
  let expectedStorage ← Reader.i64
  let expectedRetries ← Reader.i64
  let expectedRequests ← Reader.i64
  let expectedTokens ← Reader.i64
  let expectedOperations ← Reader.i64
  let label ← getEnum DataLabel.byte
  let meetsHardSlo ← getBool
  let completionProbabilityPercent ← Reader.i64
  return { id, generation, workload, workloadGeneration, resource, resourceGeneration, device,
           deviceGeneration, worker, expectedAcceleratorTime, expectedEnergy, expectedTransfer,
           expectedMemoryHold, expectedResidencyHold, expectedStorage, expectedRetries,
           expectedRequests, expectedTokens, expectedOperations, label, meetsHardSlo,
           completionProbabilityPercent }

def encodeEvidence (e : CostEvidence) : ByteString := List.flatten [
  putId e.id, putId e.request, putId e.workload, putId e.attempt, putId e.attemptGen,
  putId e.worker, putId e.boot, putId e.epoch, putId e.generation, Writer.i64 e.observedAtMs,
  putId e.device, putId e.resource, putEnum DataLabel.byte e.label,
  putBool e.completedSuccessfully, putBool e.isCompletion, Writer.i64 e.acceleratorTime,
  Writer.i64 e.energy, Writer.i64 e.transfer, Writer.i64 e.memoryHold,
  Writer.i64 e.residencyHold, Writer.i64 e.storageBytes, Writer.i64 e.requests,
  Writer.i64 e.tokens, Writer.i64 e.operations, Writer.i64 e.recoveryActions,
  Writer.i64 e.recomputeNs]

def decodeEvidence : Read CostEvidence := do
  let id ← getId
  let request ← getId
  let workload ← getId
  let attempt ← getId
  let attemptGen ← getId
  let worker ← getId
  let boot ← getId
  let epoch ← getId
  let generation ← getId
  let observedAtMs ← Reader.i64
  let device ← getId
  let resource ← getId
  let label ← getEnum DataLabel.byte
  let completedSuccessfully ← getBool
  let isCompletion ← getBool
  let acceleratorTime ← Reader.i64
  let energy ← Reader.i64
  let transfer ← Reader.i64
  let memoryHold ← Reader.i64
  let residencyHold ← Reader.i64
  let storageBytes ← Reader.i64
  let requests ← Reader.i64
  let tokens ← Reader.i64
  let operations ← Reader.i64
  let recoveryActions ← Reader.i64
  let recomputeNs ← Reader.i64
  return { id, request, workload, attempt, attemptGen, worker, boot, epoch, generation,
           observedAtMs, label, completedSuccessfully, isCompletion, device, resource,
           acceleratorTime, energy, transfer, memoryHold, residencyHold, storageBytes, requests,
           tokens, operations, recoveryActions, recomputeNs }

def evalRequest (workload : WorkloadId) (workloadGen : WorkloadGeneration)
    (plans : List ExecutionPlan) : ByteString := List.flatten [
  putId workload, putId workloadGen, Writer.u32 plans.length, (plans.map encodePlan).flatten]

def readPlans : Read (List ExecutionPlan) := do
  let n ← Reader.u32
  if maxPlans < n then throw ⟨"plan count too large"⟩
  else readMany decodePlan n

/-- What the handler of each type reads before it acts. Bytes after that are ignored. -/
def readMessage : Msg → Read Message
  | .hello => do
    let worker ← getId
    let boot ← getId
    return .hello worker boot
  | .publishPrice => .publishPrice <$> decodePrice
  | .requestEval => do
    let workload ← getId
    let workloadGen ← getId
    let plans ← readPlans
    return .requestEval workload workloadGen plans
  | .recordAttempt => .recordAttempt <$> decodeEvidence
  | .reserve => do
    let budget ← getId
    let gen ← getId
    let epoch ← getId
    let amount ← MoneyMicros.fromMicros <$> Reader.i64
    return .reserve budget gen epoch amount
  | .commit => .settle .commit <$> getId
  | .release => .settle .release <$> getId
  | .realize => do
    let request ← getId
    let workload ← getId
    return .realize request workload
  | .getState => pure .getState
  | .revalidate => .revalidate <$> readPlans
  | .quit => pure .quit
  | _ => pure .unknown

end Cgproto

open Cgproto in
/-- The message of a frame; a reader that throws leaves the handler with a failure. -/
def Message.decode (type : Msg) (payload : ByteString) : Message :=
  match readMessage type payload with
  | .ok (m, _) => m
  | .error _ => .malformed

end CostGovernor
