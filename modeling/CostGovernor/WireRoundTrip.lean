import CostGovernor.Wire

/-!
# What is sent can be read back

Every record is recovered field by field, in the order it was written, and the
reader stops at its last byte. Prices and attempts come back as they were sent; a
plan comes back without the fields that are not on the wire.
-/

namespace CostGovernor

open ByteStreams

namespace Cgproto

abbrev Returns {α : Type} (bytes : ByteString) (read : Read α) (a : α) : Prop :=
  Recovers (fun _ => True) (.ok bytes) read a True

theorem Returns.apply {α : Type} {bytes : ByteString} {read : Read α} {a : α}
    (h : Returns bytes read a) (rest : ByteString) : read (bytes ++ rest) = .ok (a, rest) :=
  (h bytes rfl rest).1 trivial

section Fields

theorem returns_u8 (v : UInt8) : Returns (Writer.u8 v) Reader.u8 v :=
  (recovers_takeBytes _ [v]).map (fun bytes => bytes.headD 0)

theorem returns_u16 {v : ℕ} (hv : v < 2 ^ 16) : Returns (Writer.u16 v) Reader.u16 v :=
  recovers_word _ hv

theorem returns_u32 {v : ℕ} (hv : v < 2 ^ 32) : Returns (Writer.u32 v) Reader.u32 v :=
  recovers_word _ hv

theorem returns_u64 (v : UInt64) : Returns (Writer.u64 v) Reader.u64 v := by
  have h : Returns (Writer.u64 v) Reader.u64 (UInt64.ofNat v.toNat) :=
    (recovers_word _ v.toNat_lt).map UInt64.ofNat
  rwa [UInt64.ofNat_toNat] at h

theorem returns_i64 (v : Int64) : Returns (Writer.i64 v) Reader.i64 v := by
  have h := (returns_u64 v.toUInt64).map UInt64.toInt64
  rwa [Int64.toInt64_toUInt64] at h

theorem returns_money (m : MoneyMicros) :
    Returns (Writer.i64 m.value) (MoneyMicros.fromMicros <$> Reader.i64) m :=
  (returns_i64 m.value).map MoneyMicros.fromMicros

theorem returns_id {tag : IdTag} (id : Id tag) : Returns (putId id) getId id :=
  (returns_u64 id.value).map Id.mk

theorem returns_enum {α : Type} (byte : α ≃ UInt8) (a : α) :
    Returns (putEnum byte a) (getEnum byte) a := by
  have h := (returns_u8 (byte a)).map byte.symm
  rwa [Equiv.symm_apply_apply] at h

theorem returns_bool (b : Bool) : Returns (putBool b) getBool b := by
  have h := (returns_u8 (if b then 1 else 0)).map (fun byte => decide (byte ≠ 0))
  have hb : decide ((if b then (1 : UInt8) else 0) ≠ 0) = b := by cases b <;> rfl
  rwa [hb] at h

/-- A record is read back when its fields are. -/
theorem returns_flatten {α : Type} {written : List ByteString} {read : Read α} {a : α} {P : Prop}
    (h : Recovers (fun _ => True) (writeAll (written.map Except.ok)) read a P) (hP : P) :
    Returns written.flatten read a := by
  rw [writeAll_map_ok] at h
  exact h.congr (iff_true_intro hP)

theorem returns_str {s : ByteString} (hs : s.length ≤ maxPayload) :
    Returns (Writer.str s) Reader.str s := by
  have hlen : s.length < 2 ^ 32 := hs.trans_lt (by decide)
  have htake : Returns s (takeBytes truncated s.length) s := recovers_takeBytes truncated s
  have hbody := htake.last.guarded (c := maxPayload < s.length) (e := ⟨"string too large"⟩) trivial
  have h : Returns (List.flatten [Writer.u32 s.length, s]) Reader.str s :=
    returns_flatten ((returns_u32 hlen).bind hbody) ⟨trivial, not_lt.2 hs, trivial⟩
  rwa [List.flatten_cons, List.flatten_singleton] at h

end Fields

section Records

theorem returns_price {o : PriceObservation} (hcurrency : o.currency.length ≤ maxPayload) :
    Returns (encodePrice o) decodePrice o := by
  refine returns_flatten ((returns_id _).bind <| (returns_enum _ _).bind <| (returns_id _).bind <|
    (returns_id _).bind <| (returns_money _).bind <| (returns_str hcurrency).bind <|
    (returns_enum _ _).bind <| (returns_enum _ _).bind <| (returns_i64 _).bind <|
    (returns_i64 _).bind <| (returns_i64 _).bind <| (returns_id _).bind <| (returns_id _).bind <|
    (returns_id _).bind <| (returns_id _).bind <| recovers_pure o) ?_
  simp

theorem returns_evidence (e : CostEvidence) : Returns (encodeEvidence e) decodeEvidence e := by
  refine returns_flatten ((returns_id _).bind <| (returns_id _).bind <| (returns_id _).bind <|
    (returns_id _).bind <| (returns_id _).bind <| (returns_id _).bind <| (returns_id _).bind <|
    (returns_id _).bind <| (returns_id _).bind <| (returns_i64 _).bind <| (returns_id _).bind <|
    (returns_id _).bind <| (returns_enum _ _).bind <| (returns_bool _).bind <|
    (returns_bool _).bind <| (returns_i64 _).bind <| (returns_i64 _).bind <|
    (returns_i64 _).bind <| (returns_i64 _).bind <| (returns_i64 _).bind <|
    (returns_i64 _).bind <| (returns_i64 _).bind <| (returns_i64 _).bind <|
    (returns_i64 _).bind <| (returns_i64 _).bind <| (returns_i64 _).bind <| recovers_pure e) ?_
  simp

/-- A plan as it arrives: the fields that are not on the wire have their defaults. -/
def wirePlan (p : ExecutionPlan) : ExecutionPlan :=
  { p with
    placement := {}, placementGeneration := {}, recoveryGeneration := {}, recovery := .none
    recoveryRecomputeNs := 0 }

theorem returns_plan (p : ExecutionPlan) : Returns (encodePlan p) decodePlan (wirePlan p) := by
  refine returns_flatten ((returns_id _).bind <| (returns_id _).bind <| (returns_id _).bind <|
    (returns_id _).bind <| (returns_id _).bind <| (returns_id _).bind <| (returns_id _).bind <|
    (returns_id _).bind <| (returns_id _).bind <| (returns_i64 _).bind <| (returns_i64 _).bind <|
    (returns_i64 _).bind <| (returns_i64 _).bind <| (returns_i64 _).bind <|
    (returns_i64 _).bind <| (returns_i64 _).bind <| (returns_i64 _).bind <|
    (returns_i64 _).bind <| (returns_i64 _).bind <| (returns_enum _ _).bind <|
    (returns_bool _).bind <| (returns_i64 _).bind <| recovers_pure (wirePlan p)) ?_
  simp

theorem returns_planList (plans : List ExecutionPlan) :
    Returns (plans.map encodePlan).flatten (readMany decodePlan plans.length)
      (plans.map wirePlan) := by
  have hmany : Recovers (fun _ => True) (writeAll (plans.map (fun p => .ok (encodePlan p))))
      (readMany decodePlan plans.length) (plans.map wirePlan) (∀ p ∈ plans, True) :=
    recovers_many_map returns_plan plans
  have hwritten : plans.map (fun p => Except.ok (encodePlan p)) =
      (plans.map encodePlan).map (Except.ok : ByteString → Except RuntimeError ByteString) := by
    rw [List.map_map]
    rfl
  rw [hwritten, writeAll_map_ok] at hmany
  exact hmany.congr (by simp)

theorem returns_evalRequest (workload : WorkloadId) (workloadGen : WorkloadGeneration)
    {plans : List ExecutionPlan} (h : plans.length ≤ maxPlans) :
    Returns (evalRequest workload workloadGen plans) (readMessage .requestEval)
      (.requestEval workload workloadGen (plans.map wirePlan)) := by
  have hlen : plans.length < 2 ^ 32 := h.trans_lt (by decide)
  have hlist := (returns_planList plans).last.guarded (c := maxPlans < plans.length)
    (e := ⟨"plan count too large"⟩) trivial
  have hplans : Recovers (fun _ => True)
      (writeAll [.ok (Writer.u32 plans.length), .ok (plans.map encodePlan).flatten]) readPlans
      (plans.map wirePlan) (True ∧ ¬ maxPlans < plans.length ∧ True) :=
    (returns_u32 hlen).bind hlist
  exact returns_flatten ((returns_id workload).bind <| (returns_id workloadGen).bind <|
    hplans.map (Message.requestEval workload workloadGen)) (by simp [h])

theorem length_encodePlan (p : ExecutionPlan) : (encodePlan p).length = 162 := by
  simp [encodePlan, putId, putEnum, putBool, Writer.i64, Writer.u64, Writer.u8, length_wordBytes]

end Records

inductive Record
  | price (o : PriceObservation)
  | evidence (e : CostEvidence)

inductive RecordKind
  | price | evidence

namespace Record

def kind : Record → RecordKind
  | .price _ => .price
  | .evidence _ => .evidence

def encode : Record → ByteString
  | .price o => encodePrice o
  | .evidence e => encodeEvidence e

def Fits : Record → Prop
  | .price o => o.currency.length ≤ maxPayload
  | .evidence _ => True

end Record

def RecordKind.decode : RecordKind → Read Record
  | .price => .price <$> decodePrice
  | .evidence => .evidence <$> decodeEvidence

def decodeRecords : List RecordKind → Read (List Record)
  | [] => pure []
  | kind :: kinds => do
    let record ← kind.decode
    let records ← decodeRecords kinds
    return record :: records

theorem returns_record {r : Record} (h : r.Fits) : Returns r.encode r.kind.decode r := by
  cases r with
  | price o => exact (returns_price h).map Record.price
  | evidence e => exact (returns_evidence e).map Record.evidence

theorem returns_records {rs : List Record} (h : ∀ r ∈ rs, r.Fits) :
    Returns (rs.map Record.encode).flatten (decodeRecords (rs.map Record.kind)) rs := by
  induction rs with
  | nil =>
      have hnil : Returns (List.flatten []) (decodeRecords []) [] :=
        returns_flatten (recovers_pure []) trivial
      exact hnil
  | cons r rs ih =>
      obtain ⟨hr, hrs⟩ := List.forall_mem_cons.1 h
      have hrest := ((ih hrs).map (r :: ·)).last
      have hboth : Returns (List.flatten [r.encode, (rs.map Record.encode).flatten])
          (decodeRecords ((r :: rs).map Record.kind)) (r :: rs) :=
        returns_flatten ((returns_record hr).bind hrest) ⟨trivial, trivial⟩
      rwa [List.flatten_cons, List.flatten_singleton] at hboth

end Cgproto

open Cgproto

/-- The request that arrives holds the plans as they are on the wire. -/
theorem decode_evalRequest (workload : WorkloadId) (workloadGen : WorkloadGeneration)
    {plans : List ExecutionPlan} (h : plans.length ≤ maxPlans) :
    Message.decode .requestEval (evalRequest workload workloadGen plans) =
      .requestEval workload workloadGen (plans.map wirePlan) := by
  have hread := (returns_evalRequest workload workloadGen h).apply []
  rw [List.append_nil] at hread
  rw [Message.decode, hread]

/-- Prices with a bounded currency, attempts, and any sequence of both written back to
back are read as they were written, whatever bytes follow. -/
theorem wire_records_round_trip (o : PriceObservation) (hcurrency : o.currency.length ≤ maxPayload)
    (e : CostEvidence) (rs : List Record) (hrs : ∀ r ∈ rs, r.Fits) (rest : ByteString) :
    decodePrice (encodePrice o ++ rest) = .ok (o, rest) ∧
      decodeEvidence (encodeEvidence e ++ rest) = .ok (e, rest) ∧
      decodeRecords (rs.map Record.kind) ((rs.map Record.encode).flatten ++ rest) = .ok (rs, rest) :=
  ⟨(returns_price hcurrency).apply rest, (returns_evidence e).apply rest,
    (returns_records hrs).apply rest⟩

def unusualPrice : PriceObservation :=
  { kind := .raw 200 (by decide), currency := [0, 255], amount := ⟨-7⟩ }

def unusualEvidence : CostEvidence :=
  { label := .raw 77 (by decide), energy := -9223372036854775808, isCompletion := true }

theorem wire_records_round_trip_unusual :
    decodeRecords [.price, .evidence, .price]
        ([encodePrice unusualPrice, encodeEvidence unusualEvidence, encodePrice {}].flatten ++ [1]) =
      .ok ([.price unusualPrice, .evidence unusualEvidence, .price {}], [1]) := by
  have hfits : ∀ r ∈ [Record.price unusualPrice, .evidence unusualEvidence, .price {}], r.Fits := by
    simp [Record.Fits, unusualPrice, maxPayload, defaultCurrency]
  exact (wire_records_round_trip unusualPrice (by decide) unusualEvidence _ hfits [1]).2.2

end CostGovernor
