import CostGovernor.ByteStreams
import CostGovernor.EnumBytes
import CostGovernor.Snapshot

/-!
# The snapshot codec and the state file

`Writer` and `Reader` hold the primitive fields, `write…` and `read…` the records
in the field order of the source, `encode` and `decode` the header around the
payload. Sizes and counts are written as words of fixed width, so a longer list
is written with a truncated count. The state file is the bytes of the last save.
-/

namespace CostGovernor

open ByteStreams

abbrev Write := Except Exn ByteString

namespace Writer

def u8 (v : UInt8) : Write := .ok [v]

def u32 (v : ℕ) : Write := .ok (wordBytes 4 v)

def u64 (v : UInt64) : Write := .ok (wordBytes 8 v.toNat)

def i64 (v : Int64) : Write := u64 v.toUInt64

def str (s : ByteString) : Write :=
  if 0xFFFFFFFF < s.length then throwStatus .resourceExhausted "string too large in snapshot"
  else writeAll [u32 s.length, .ok s]

end Writer

abbrev Read (α : Type) := ByteStreams.Reader Exn α

def corrupt (msg : String) : Exn := .statusError .persistenceCorrupt msg

def maxString : ℕ := 16 * 1024 * 1024

def maxEntries : ℕ := 1000000

namespace Reader

def u8 : Read UInt8 := (fun bytes => bytes.headD 0) <$> takeBytes (corrupt "truncated snapshot") 1

def u32 : Read ℕ := readWord (corrupt "truncated snapshot") 4

def u64 : Read UInt64 := UInt64.ofNat <$> readWord (corrupt "truncated snapshot") 8

def i64 : Read Int64 := UInt64.toInt64 <$> u64

def str : Read ByteString := do
  let len ← u32
  if maxString < len then throw (corrupt "string length exceeds bound")
  else takeBytes (corrupt "truncated snapshot") len

def counted {α : Type} (tooMany : String) (read : Read α) : Read (List α) := do
  let n ← u32
  if maxEntries < n then throw (corrupt tooMany)
  else readMany read n

end Reader

def writeId {tag : IdTag} (id : Id tag) : Write := Writer.u64 id.value

def readId {tag : IdTag} : Read (Id tag) := Id.mk <$> Reader.u64

def writeMoney (m : MoneyMicros) : Write := Writer.i64 m.value

def readMoney : Read MoneyMicros := MoneyMicros.fromMicros <$> Reader.i64

def writeBool (b : Bool) : Write := Writer.u8 (if b then 1 else 0)

def readBool : Read Bool := (fun byte => decide (byte ≠ 0)) <$> Reader.u8

def writeEnum {α : Type} (byte : α ≃ UInt8) (a : α) : Write := Writer.u8 (byte a)

def readEnum {α : Type} (byte : α ≃ UInt8) : Read α := byte.symm <$> Reader.u8

def writeBudget (b : Budget) : Write := writeAll [
  writeId b.id, writeId b.generation, writeId b.policyGeneration, writeId b.epoch,
  Writer.str b.currency, writeEnum BudgetMode.byte b.mode,
  writeEnum BudgetObjective.byte b.objective, writeMoney b.limit,
  writeEnum BudgetLifecycle.byte b.lifecycle, writeMoney b.reserved, writeMoney b.consumed,
  writeMoney b.released, Writer.i64 b.createdAtMs, Writer.i64 b.expiresAtMs,
  writeEnum DataLabel.byte b.label]

def readBudget : Read Budget := do
  let id ← readId
  let generation ← readId
  let policyGeneration ← readId
  let epoch ← readId
  let currency ← Reader.str
  let mode ← readEnum BudgetMode.byte
  let objective ← readEnum BudgetObjective.byte
  let limit ← readMoney
  let lifecycle ← readEnum BudgetLifecycle.byte
  let reserved ← readMoney
  let consumed ← readMoney
  let released ← readMoney
  let createdAtMs ← Reader.i64
  let expiresAtMs ← Reader.i64
  let label ← readEnum DataLabel.byte
  return { id, generation, policyGeneration, epoch, currency, mode, objective, limit, lifecycle,
           reserved, consumed, released, createdAtMs, expiresAtMs, label }

def writeObs (o : PriceObservation) : Write := writeAll [
  writeId o.id, writeEnum PriceKind.byte o.kind, writeId o.resourceScope, writeId o.device,
  writeMoney o.amount, Writer.str o.currency, writeEnum Provenance.byte o.provenance,
  writeEnum DataLabel.byte o.label, Writer.i64 o.validFromMs, Writer.i64 o.validToMs,
  Writer.i64 o.observedAtMs, writeId o.generation, writeId o.epoch, writeId o.worker,
  writeId o.boot]

def readObs : Read PriceObservation := do
  let id ← readId
  let kind ← readEnum PriceKind.byte
  let resourceScope ← readId
  let device ← readId
  let amount ← readMoney
  let currency ← Reader.str
  let provenance ← readEnum Provenance.byte
  let label ← readEnum DataLabel.byte
  let validFromMs ← Reader.i64
  let validToMs ← Reader.i64
  let observedAtMs ← Reader.i64
  let generation ← readId
  let epoch ← readId
  let worker ← readId
  let boot ← readId
  return { id, kind, resourceScope, device, amount, currency, provenance, label, validFromMs,
           validToMs, observedAtMs, generation, epoch, worker, boot }

def writePolicy (p : CostPolicy) : Write := writeAll [
  writeId p.id, writeId p.generation, writeId p.epoch, Writer.str p.currency,
  writeEnum RankingMode.byte p.ranking, Writer.i64 p.minEvidenceFreshnessMs,
  Writer.i64 p.maxEvidenceAgeMs, Writer.i64 p.priceScheduleMaxAgeMs,
  Writer.i64 p.maxProjectionUncertainty, Writer.i64 p.hysteresisMs, Writer.i64 p.cooldownMs,
  Writer.i64 p.nearBudgetPercent, Writer.i64 p.atRiskPercent, writeMoney p.retryBudget,
  writeMoney p.recoveryBudget, writeBool p.recoveryCostKnown, writeBool p.allowSynthetic,
  writeBool p.allowPolicy, writeBool p.allowMeasured]

def readPolicy : Read CostPolicy := do
  let id ← readId
  let generation ← readId
  let epoch ← readId
  let currency ← Reader.str
  let ranking ← readEnum RankingMode.byte
  let minEvidenceFreshnessMs ← Reader.i64
  let maxEvidenceAgeMs ← Reader.i64
  let priceScheduleMaxAgeMs ← Reader.i64
  let maxProjectionUncertainty ← Reader.i64
  let hysteresisMs ← Reader.i64
  let cooldownMs ← Reader.i64
  let nearBudgetPercent ← Reader.i64
  let atRiskPercent ← Reader.i64
  let retryBudget ← readMoney
  let recoveryBudget ← readMoney
  let recoveryCostKnown ← readBool
  let allowSynthetic ← readBool
  let allowPolicy ← readBool
  let allowMeasured ← readBool
  return { id, generation, epoch, currency, ranking, minEvidenceFreshnessMs, maxEvidenceAgeMs,
           priceScheduleMaxAgeMs, maxProjectionUncertainty, hysteresisMs, cooldownMs,
           nearBudgetPercent, atRiskPercent, retryBudget, recoveryBudget, recoveryCostKnown,
           allowSynthetic, allowPolicy, allowMeasured }

def writeHistory (h : HistoryEntry) : Write := writeAll [
  writeId h.request, writeId h.workload, Writer.i64 h.completedAtMs, writeMoney h.realizedCost,
  Writer.i64 h.attempts, Writer.i64 h.tokens]

def readHistory : Read HistoryEntry := do
  let request ← readId
  let workload ← readId
  let completedAtMs ← Reader.i64
  let realizedCost ← readMoney
  let attempts ← Reader.i64
  let tokens ← Reader.i64
  return { request, workload, completedAtMs, realizedCost, attempts, tokens }

def writeInterv (i : InterventionEntry) : Write := writeAll [
  writeId i.id, writeEnum InterventionKind.byte i.kind,
  writeEnum InterventionLifecycle.byte i.lifecycle, writeId i.generation,
  Writer.i64 i.createdAtMs]

def readInterv : Read InterventionEntry := do
  let id ← readId
  let kind ← readEnum InterventionKind.byte
  let lifecycle ← readEnum InterventionLifecycle.byte
  let generation ← readId
  let createdAtMs ← Reader.i64
  return { id, kind, lifecycle, generation, createdAtMs }

def writeCounted {α : Type} (write : α → Write) (as : List α) : Write :=
  writeAll [Writer.u32 as.length, writeAll (as.map write)]

def writeSnapshot (s : DurableSnapshot) : Write := writeAll [
  writeId s.epoch, writePolicy s.policy, writeId s.priceSchedule.id,
  writeId s.priceSchedule.generation, Writer.i64 s.priceSchedule.createdAtMs,
  writeCounted writeObs s.priceSchedule.observations, writeCounted writeBudget s.budgets,
  writeCounted writeHistory s.history, writeCounted writeInterv s.interventions]

def readSnapshot : Read DurableSnapshot := do
  let epoch ← readId
  let policy ← readPolicy
  let id ← readId
  let generation ← readId
  let createdAtMs ← Reader.i64
  let observations ← Reader.counted "observation count exceeds bound" readObs
  let budgets ← Reader.counted "budget count exceeds bound" readBudget
  let history ← Reader.counted "history count exceeds bound" readHistory
  let interventions ← Reader.counted "intervention count exceeds bound" readInterv
  return { epoch, policy, priceSchedule := { id, generation, observations, createdAtMs }
           budgets, history, interventions }

namespace SnapshotCodec

def version : ℕ := 2

/-- The bytes of "CGSNAP01". -/
def magic : ByteString := [67, 71, 83, 78, 65, 80, 48, 49]

def header : ℕ := 8 + 4 + 8 + 4

def crcBit (crc : UInt32) : UInt32 := (crc >>> 1) ^^^ (0xEDB88320 &&& ~~~((crc &&& 1) - 1))

def crcByte (crc : UInt32) (byte : UInt8) : UInt32 := crcBit^[8] (crc ^^^ byte.toUInt32)

def crc32 (data : ByteString) : UInt32 := ~~~(data.foldl crcByte 0xFFFFFFFF)

def framed (payload : ByteString) : ByteString :=
  magic ++ wordBytes 4 version ++ wordBytes 8 payload.length ++
    wordBytes 4 (crc32 payload).toNat ++ payload

def encode (s : DurableSnapshot) : Except Exn ByteString := framed <$> writeSnapshot s

def headerWord (bytes : ByteString) (start width : ℕ) : ℕ :=
  wordValue ((bytes.drop start).take width)

/-- Sizes are 64-bit words. -/
def decode (bytes : ByteString) : Except Exn DurableSnapshot :=
  if bytes.length < header then .error (corrupt "snapshot too short")
  else if bytes.take 8 ≠ magic then .error (corrupt "bad snapshot magic")
  else if headerWord bytes 8 4 = 1 then
    throwStatus .persistenceUnsupportedVersion
      "snapshot format v1 (Cost Governor 1.0.0) is unsupported; regenerate state under the current format"
  else if headerWord bytes 8 4 ≠ version then .error (corrupt "unknown snapshot version")
  else
    let len := headerWord bytes 12 8
    let size := (bytes.length - header) % 2 ^ 64
    if len ≠ size then
      .error (corrupt (if size < len then "truncated snapshot" else "trailing garbage"))
    else if (crc32 (bytes.drop header)).toNat ≠ headerWord bytes 20 4 then
      .error (corrupt "snapshot checksum mismatch")
    else
      match readSnapshot (bytes.drop header) with
      | .error e => .error e
      | .ok (s, rest) =>
        if rest ≠ [] then .error (corrupt "trailing garbage in snapshot") else .ok s

end SnapshotCodec

namespace Governor

/-- `written` says whether the file system takes the bytes; they are written beside
the state file and then renamed over it. -/
def persist (g : Governor) (written : Bool) (file : Option ByteString) :
    Except Exn Status × Option ByteString :=
  if !g.store then (.ok .interventionFailed, file)
  else
    match SnapshotCodec.encode g.snapshot with
    | .error e => (.error e, file)
    | .ok bytes => if written then (.ok .ok, some bytes) else (.ok .interventionFailed, file)

def load (g : Governor) (file : Option ByteString) : Except Exn Status × Governor :=
  if !g.store then (.ok .interventionFailed, g)
  else
    match file with
    | none => (.error (corrupt "cannot open snapshot"), g)
    | some bytes =>
      match SnapshotCodec.decode bytes with
      | .error e => (.error e, g)
      | .ok snap => (.ok .ok, g.restore snap)

inductive LoadCase (g : Governor) (file : Option ByteString) : Except Exn Status × Governor → Prop
  | refused (st : Except Exn Status) (hst : st ≠ .ok .ok) : LoadCase g file (st, g)
  | restored (bytes : ByteString) (snap : DurableSnapshot) (hstore : g.store = true)
      (hfile : file = some bytes) (hsnap : SnapshotCodec.decode bytes = .ok snap) :
      LoadCase g file (.ok .ok, g.restore snap)

theorem load_cases (g : Governor) (file : Option ByteString) : LoadCase g file (g.load file) := by
  unfold load
  cases hstore : g.store with
  | false => exact .refused _ (by simp)
  | true =>
      cases file with
      | none => exact .refused _ (by simp)
      | some bytes =>
          dsimp only
          cases hsnap : SnapshotCodec.decode bytes with
          | error e => exact .refused _ (by simp)
          | ok snap => exact .restored bytes snap hstore rfl hsnap

end Governor

end CostGovernor
