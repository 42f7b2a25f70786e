import CostGovernor.ByteReaders
import CostGovernor.Codec

/-!
# The records of a snapshot

A record is recovered field by field, in the order it was written. The reader
limits strings to 16 MiB and lists to a million entries, and the writer has
neither limit.
-/

namespace CostGovernor

open ByteStreams Executions

/-- The error every failed read of a payload ends in. -/
def IsCorrupt (e : Exn) : Prop := ∃ msg, e = corrupt msg

theorem isCorrupt_corrupt (msg : String) : IsCorrupt (corrupt msg) := ⟨msg, rfl⟩

section Fields

theorem recovers_u8 (v : UInt8) : Recovers IsCorrupt (Writer.u8 v) Reader.u8 v True :=
  (recovers_takeBytes _ [v]).map (fun bytes => bytes.headD 0)

theorem recovers_u32 {v : ℕ} (hv : v < 2 ^ 32) :
    Recovers IsCorrupt (Writer.u32 v) Reader.u32 v True :=
  recovers_word _ hv

theorem recovers_u64 (v : UInt64) : Recovers IsCorrupt (Writer.u64 v) Reader.u64 v True := by
  have h : Recovers IsCorrupt (Writer.u64 v) Reader.u64 (UInt64.ofNat v.toNat) True :=
    (recovers_word _ v.toNat_lt).map UInt64.ofNat
  rwa [UInt64.ofNat_toNat] at h

theorem recovers_i64 (v : Int64) : Recovers IsCorrupt (Writer.i64 v) Reader.i64 v True := by
  have h := (recovers_u64 v.toUInt64).map UInt64.toInt64
  rwa [Int64.toInt64_toUInt64] at h

theorem recovers_id {tag : IdTag} (id : Id tag) : Recovers IsCorrupt (writeId id) readId id True :=
  (recovers_u64 id.value).map Id.mk

theorem recovers_money (m : MoneyMicros) :
    Recovers IsCorrupt (writeMoney m) readMoney m True :=
  (recovers_i64 m.value).map MoneyMicros.fromMicros

theorem recovers_bool (b : Bool) : Recovers IsCorrupt (writeBool b) readBool b True := by
  have h := (recovers_u8 (if b then 1 else 0)).map (fun byte => decide (byte ≠ 0))
  have hb : decide ((if b then (1 : UInt8) else 0) ≠ 0) = b := by cases b <;> rfl
  rwa [hb] at h

theorem recovers_enum {α : Type} (byte : α ≃ UInt8) (a : α) :
    Recovers IsCorrupt (writeEnum byte a) (readEnum byte) a True := by
  have h := (recovers_u8 (byte a)).map byte.symm
  rwa [Equiv.symm_apply_apply] at h

theorem recovers_str (s : ByteString) :
    Recovers IsCorrupt (Writer.str s) Reader.str s (s.length ≤ maxString) := by
  intro bytes hbytes
  unfold Writer.str at hbytes
  split_ifs at hbytes with hlong
  · cases hbytes
  · have hlen : s.length < 2 ^ 32 := by omega
    have hbody := (recovers_takeBytes (corrupt "truncated snapshot") s).last.guarded
      (c := maxString < s.length) (isCorrupt_corrupt "string length exceeds bound")
    exact ((recovers_u32 hlen).bind hbody).congr (by simp) bytes hbytes

/-- A list whose count is not truncated. -/
theorem recovers_counted {α : Type} {write : α → Write} {read : Read α} {p : α → Prop}
    (h : ∀ a, Recovers IsCorrupt (write a) read a (p a)) (tooMany : String) {as : List α}
    (hfits : as.length < 2 ^ 32) :
    Recovers IsCorrupt (writeCounted write as) (Reader.counted tooMany read) as
      (as.length ≤ maxEntries ∧ ∀ a ∈ as, p a) := by
  have hitems := (recovers_many h as).last.guarded
    (c := maxEntries < as.length) (isCorrupt_corrupt tooMany)
  exact ((recovers_u32 hfits).bind hitems).congr (by simp)

end Fields

theorem recovers_budget (b : Budget) :
    Recovers IsCorrupt (writeBudget b) readBudget b (b.currency.length ≤ maxString) := by
  refine Recovers.congr ((recovers_id _).bind <| (recovers_id _).bind <| (recovers_id _).bind <|
    (recovers_id _).bind <| (recovers_str _).bind <| (recovers_enum _ _).bind <|
    (recovers_enum _ _).bind <| (recovers_money _).bind <| (recovers_enum _ _).bind <|
    (recovers_money _).bind <| (recovers_money _).bind <| (recovers_money _).bind <|
    (recovers_i64 _).bind <| (recovers_i64 _).bind <| (recovers_enum _ _).bind <| recovers_pure b) ?_
  simp

theorem recovers_obs (o : PriceObservation) :
    Recovers IsCorrupt (writeObs o) readObs o (o.currency.length ≤ maxString) := by
  refine Recovers.congr ((recovers_id _).bind <| (recovers_enum _ _).bind <|
    (recovers_id _).bind <| (recovers_id _).bind <| (recovers_money _).bind <|
    (recovers_str _).bind <| (recovers_enum _ _).bind <| (recovers_enum _ _).bind <|
    (recovers_i64 _).bind <| (recovers_i64 _).bind <| (recovers_i64 _).bind <|
    (recovers_id _).bind <| (recovers_id _).bind <| (recovers_id _).bind <|
    (recovers_id _).bind <| recovers_pure o) ?_
  simp

theorem recovers_policy (p : CostPolicy) :
    Recovers IsCorrupt (writePolicy p) readPolicy p (p.currency.length ≤ maxString) := by
  refine Recovers.congr ((recovers_id _).bind <| (recovers_id _).bind <| (recovers_id _).bind <|
    (recovers_str _).bind <| (recovers_enum _ _).bind <| (recovers_i64 _).bind <|
    (recovers_i64 _).bind <| (recovers_i64 _).bind <| (recovers_i64 _).bind <|
    (recovers_i64 _).bind <| (recovers_i64 _).bind <| (recovers_i64 _).bind <|
    (recovers_i64 _).bind <| (recovers_money _).bind <| (recovers_money _).bind <|
    (recovers_bool _).bind <| (recovers_bool _).bind <| (recovers_bool _).bind <|
    (recovers_bool _).bind <| recovers_pure p) ?_
  simp

theorem recovers_history (h : HistoryEntry) :
    Recovers IsCorrupt (writeHistory h) readHistory h True := by
  refine Recovers.congr ((recovers_id _).bind <| (recovers_id _).bind <| (recovers_i64 _).bind <|
    (recovers_money _).bind <| (recovers_i64 _).bind <| (recovers_i64 _).bind <|
    recovers_pure h) ?_
  simp

theorem recovers_interv (i : InterventionEntry) :
    Recovers IsCorrupt (writeInterv i) readInterv i True := by
  refine Recovers.congr ((recovers_id _).bind <| (recovers_enum _ _).bind <|
    (recovers_enum _ _).bind <| (recovers_id _).bind <| (recovers_i64 _).bind <|
    recovers_pure i) ?_
  simp

structure DurableSnapshot.WithinLimits (s : DurableSnapshot) : Prop where
  policyString : s.policy.currency.length ≤ maxString
  observations : s.priceSchedule.observations.length ≤ maxEntries
  observationStrings : ∀ o ∈ s.priceSchedule.observations, o.currency.length ≤ maxString
  budgets : s.budgets.length ≤ maxEntries
  budgetStrings : ∀ b ∈ s.budgets, b.currency.length ≤ maxString
  history : s.history.length ≤ maxEntries
  interventions : s.interventions.length ≤ maxEntries

/-- No count is truncated to its 32-bit word. -/
structure DurableSnapshot.CountsFit (s : DurableSnapshot) : Prop where
  observations : s.priceSchedule.observations.length < 2 ^ 32
  budgets : s.budgets.length < 2 ^ 32
  history : s.history.length < 2 ^ 32
  interventions : s.interventions.length < 2 ^ 32

theorem DurableSnapshot.WithinLimits.countsFit {s : DurableSnapshot} (h : s.WithinLimits) :
    s.CountsFit := by
  obtain ⟨-, hobs, -, hbud, -, hhist, hint⟩ := h
  unfold maxEntries at hobs hbud hhist hint
  constructor <;> omega

theorem recovers_snapshot {s : DurableSnapshot} (hfits : s.CountsFit) :
    Recovers IsCorrupt (writeSnapshot s) readSnapshot s s.WithinLimits := by
  refine Recovers.congr ((recovers_id _).bind <| (recovers_policy _).bind <|
    (recovers_id _).bind <| (recovers_id _).bind <| (recovers_i64 _).bind <|
    (recovers_counted recovers_obs _ hfits.observations).bind <|
    (recovers_counted recovers_budget _ hfits.budgets).bind <|
    (recovers_counted recovers_history _ hfits.history).bind <|
    (recovers_counted recovers_interv _ hfits.interventions).bind <| recovers_pure s) ?_
  constructor
  · rintro ⟨-, hpolicy, -, -, -, ⟨hobs, hobs'⟩, ⟨hbud, hbud'⟩, ⟨hhist, -⟩, ⟨hint, -⟩, -⟩
    exact ⟨hpolicy, hobs, hobs', hbud, hbud', hhist, hint⟩
  · rintro ⟨hpolicy, hobs, hobs', hbud, hbud', hhist, hint⟩
    exact ⟨trivial, hpolicy, trivial, trivial, trivial, ⟨hobs, hobs'⟩, ⟨hbud, hbud'⟩,
      ⟨hhist, fun _ _ => trivial⟩, ⟨hint, fun _ _ => trivial⟩, trivial⟩

section Ensures

theorem ensures_str : Ensures Reader.str (fun s => s.length ≤ maxString) := by
  refine ensures_skip (fun len => ensures_guarded (fun hlen => ?_))
  intro bytes s rest hread
  rw [ensures_takeBytes _ _ bytes s rest hread]
  exact not_lt.1 hlen

theorem ensures_counted {α : Type} {read : Read α} {p : α → Prop} (h : Ensures read p)
    (tooMany : String) :
    Ensures (Reader.counted tooMany read) (fun as => as.length ≤ maxEntries ∧ ∀ a ∈ as, p a) := by
  refine ensures_skip (fun n => ensures_guarded (fun hn => ?_))
  intro bytes as rest hread
  obtain ⟨hlen, has⟩ := h.many n bytes as rest hread
  exact ⟨hlen ▸ not_lt.1 hn, has⟩

theorem ensures_budget : Ensures readBudget (fun b => b.currency.length ≤ maxString) := by
  refine ensures_skip fun _ => ensures_skip fun _ => ensures_skip fun _ => ensures_skip fun _ => ?_
  refine ensures_str.bind fun currency hcurrency => ?_
  iterate 10 refine ensures_skip fun _ => ?_
  exact ensures_pure hcurrency

theorem ensures_obs : Ensures readObs (fun o => o.currency.length ≤ maxString) := by
  iterate 5 refine ensures_skip fun _ => ?_
  refine ensures_str.bind fun currency hcurrency => ?_
  iterate 9 refine ensures_skip fun _ => ?_
  exact ensures_pure hcurrency

theorem ensures_policy : Ensures readPolicy (fun p => p.currency.length ≤ maxString) := by
  iterate 3 refine ensures_skip fun _ => ?_
  refine ensures_str.bind fun currency hcurrency => ?_
  iterate 15 refine ensures_skip fun _ => ?_
  exact ensures_pure hcurrency

theorem ensures_any {α : Type} (read : Read α) : Ensures read (fun _ => True) :=
  fun _ _ _ _ => trivial

theorem ensures_snapshot : Ensures readSnapshot DurableSnapshot.WithinLimits := by
  refine ensures_skip fun _ => ensures_policy.bind fun policy hpolicy => ?_
  iterate 3 refine ensures_skip fun _ => ?_
  refine (ensures_counted ensures_obs _).bind fun observations hobs => ?_
  refine (ensures_counted ensures_budget _).bind fun budgets hbud => ?_
  refine (ensures_counted (ensures_any readHistory) _).bind fun history hhist => ?_
  refine (ensures_counted (ensures_any readInterv) _).bind fun interventions hint => ?_
  exact ensures_pure ⟨hpolicy, hobs.1, hobs.2, hbud.1, hbud.2, hhist.1, hint.1⟩

end Ensures

end CostGovernor
