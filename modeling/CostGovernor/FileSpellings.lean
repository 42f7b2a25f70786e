import CostGovernor.SnapshotCorruption

/-!
# How records are spelled

Every field but the four flags of the policy is spelled in one way only. A flag is read as
true from any byte that is not zero, where the writer puts a one. What a reader has taken
off the stream for a record is a spelling of it.
-/

namespace CostGovernor

open ByteStreams

/-- The bytes that stand for the flags of a policy. -/
structure FlagBytes where
  recoveryCostKnown : UInt8
  allowSynthetic : UInt8
  allowPolicy : UInt8
  allowMeasured : UInt8
  deriving DecidableEq

namespace FlagBytes

structure Plain (f : FlagBytes) : Prop where
  recoveryCostKnown : f.recoveryCostKnown ≤ 1
  allowSynthetic : f.allowSynthetic ≤ 1
  allowPolicy : f.allowPolicy ≤ 1
  allowMeasured : f.allowMeasured ≤ 1

structure Means (f : FlagBytes) (p : CostPolicy) : Prop where
  recoveryCostKnown : p.recoveryCostKnown = decide (f.recoveryCostKnown ≠ 0)
  allowSynthetic : p.allowSynthetic = decide (f.allowSynthetic ≠ 0)
  allowPolicy : p.allowPolicy = decide (f.allowPolicy ≠ 0)
  allowMeasured : p.allowMeasured = decide (f.allowMeasured ≠ 0)

def written (p : CostPolicy) : FlagBytes where
  recoveryCostKnown := if p.recoveryCostKnown then 1 else 0
  allowSynthetic := if p.allowSynthetic then 1 else 0
  allowPolicy := if p.allowPolicy then 1 else 0
  allowMeasured := if p.allowMeasured then 1 else 0

theorem means_written (p : CostPolicy) : (written p).Means p := by
  have hflag : ∀ b : Bool, b = decide ((if b then (1 : UInt8) else 0) ≠ 0) := by decide
  exact ⟨hflag _, hflag _, hflag _, hflag _⟩

/-- Among the bytes with the meaning of a policy, those the writer puts are the plain ones. -/
theorem Means.plain_iff {f : FlagBytes} {p : CostPolicy} (h : f.Means p) :
    f.Plain ↔ f = written p := by
  have hone : ∀ v : UInt8, v ≤ 1 ↔ v = if decide (v ≠ 0) = true then 1 else 0 := by
    intro v
    rw [UInt8.le_iff_toNat_le]
    by_cases hv : v = 0
    · simp [hv]
    · have hpos : v.toNat ≠ 0 := fun h0 => hv (UInt8.toNat.inj h0)
      rw [if_pos (decide_eq_true hv), ← UInt8.toNat_inj]
      change v.toNat ≤ 1 ↔ v.toNat = 1
      omega
  obtain ⟨known, synthetic, policy, measured⟩ := f
  rw [written, h.recoveryCostKnown, h.allowSynthetic, h.allowPolicy, h.allowMeasured,
    FlagBytes.mk.injEq, ← hone, ← hone, ← hone, ← hone]
  exact ⟨fun hp => ⟨hp.1, hp.2, hp.3, hp.4⟩, fun hp => ⟨hp.1, hp.2.1, hp.2.2.1, hp.2.2.2⟩⟩

end FlagBytes

def spellPolicy (f : FlagBytes) (p : CostPolicy) : Write := writeAll [
  writeId p.id, writeId p.generation, writeId p.epoch, Writer.str p.currency,
  writeEnum RankingMode.byte p.ranking, Writer.i64 p.minEvidenceFreshnessMs,
  Writer.i64 p.maxEvidenceAgeMs, Writer.i64 p.priceScheduleMaxAgeMs,
  Writer.i64 p.maxProjectionUncertainty, Writer.i64 p.hysteresisMs, Writer.i64 p.cooldownMs,
  Writer.i64 p.nearBudgetPercent, Writer.i64 p.atRiskPercent, writeMoney p.retryBudget,
  writeMoney p.recoveryBudget, Writer.u8 f.recoveryCostKnown, Writer.u8 f.allowSynthetic,
  Writer.u8 f.allowPolicy, Writer.u8 f.allowMeasured]

def spellSnapshot (f : FlagBytes) (s : DurableSnapshot) : Write := writeAll [
  writeId s.epoch, spellPolicy f s.policy, writeId s.priceSchedule.id,
  writeId s.priceSchedule.generation, Writer.i64 s.priceSchedule.createdAtMs,
  writeCounted writeObs s.priceSchedule.observations, writeCounted writeBudget s.budgets,
  writeCounted writeHistory s.history, writeCounted writeInterv s.interventions]

def SnapshotCodec.spell (f : FlagBytes) (s : DurableSnapshot) : Except Exn ByteString :=
  framed <$> spellSnapshot f s

section Fields

abbrev SpelledBy {α : Type} (write : α → Write) (read : Read α) : Prop :=
  Spells (fun a front => write a = .ok front) read

theorem spells_u8 : SpelledBy Writer.u8 Reader.u8 := by
  refine (spells_takeBytes _ 1).map ?_
  rintro taken front ⟨rfl, hlength⟩
  obtain ⟨byte, rfl⟩ := List.length_eq_one_iff.1 hlength
  rfl

theorem spells_u32 : Spells (fun v front => front = wordBytes 4 v ∧ v < 2 ^ 32) Reader.u32 :=
  spells_word _ 4

theorem spells_u64 : SpelledBy Writer.u64 Reader.u64 := by
  refine (spells_word _ 8).map ?_
  rintro v front ⟨rfl, hv⟩
  rw [Writer.u64, UInt64.toNat_ofNat_of_lt' hv]

theorem spells_i64 : SpelledBy Writer.i64 Reader.i64 := by
  refine spells_u64.map fun v front hfront => ?_
  rw [Writer.i64, UInt64.toUInt64_toInt64]
  exact hfront

theorem spells_id {tag : IdTag} : SpelledBy (fun id : Id tag => writeId id) readId :=
  spells_u64.map fun _ _ hfront => hfront

theorem spells_money : SpelledBy writeMoney readMoney :=
  spells_i64.map fun _ _ hfront => hfront

theorem spells_enum {α : Type} (byte : α ≃ UInt8) : SpelledBy (writeEnum byte) (readEnum byte) := by
  refine spells_u8.map fun v front hfront => ?_
  rw [writeEnum, Equiv.apply_symm_apply]
  exact hfront

/-- A flag is spelled by a byte that is zero exactly when it is false. -/
theorem spells_bool :
    Spells (fun b front => ∃ byte, b = decide (byte ≠ 0) ∧ Writer.u8 byte = .ok front) readBool :=
  spells_u8.map fun byte _ hfront => ⟨byte, rfl, hfront⟩

theorem spells_str : SpelledBy Writer.str Reader.str := by
  refine spells_u32.bind fun len first hfirst => spells_guarded fun hlen => ?_
  obtain ⟨rfl, hfits⟩ := hfirst
  intro bytes s rest hread
  obtain ⟨front, ⟨rfl, rfl⟩, rfl⟩ := spells_takeBytes _ len bytes s rest hread
  refine ⟨front, ?_, rfl⟩
  change Writer.str front = .ok (wordBytes 4 front.length ++ front)
  rw [Writer.str, if_neg (by omega)]
  exact writeAll_cons_eq_ok.2 ⟨_, front, rfl, writeAll_cons_eq_ok.2
    ⟨front, [], rfl, rfl, (List.append_nil front).symm⟩, rfl⟩

theorem spells_counted {α : Type} {write : α → Write} {read : Read α} (h : SpelledBy write read)
    (tooMany : String) : SpelledBy (writeCounted write) (Reader.counted tooMany read) := by
  refine spells_u32.bind fun n first hfirst => spells_guarded fun _ => ?_
  obtain ⟨rfl, -⟩ := hfirst
  intro bytes as rest hread
  obtain ⟨front, ⟨rfl, hfront⟩, rfl⟩ := h.many n bytes as rest hread
  refine ⟨front, ?_, rfl⟩
  exact writeAll_cons_eq_ok.2 ⟨_, front, rfl, writeAll_cons_eq_ok.2
    ⟨front, [], hfront, rfl, (List.append_nil front).symm⟩, rfl⟩

end Fields

theorem spells_budget : SpelledBy writeBudget readBudget :=
  spells_id.bind fun _ _ h₁ => spells_id.bind fun _ _ h₂ => spells_id.bind fun _ _ h₃ =>
    spells_id.bind fun _ _ h₄ => spells_str.bind fun _ _ h₅ => (spells_enum _).bind fun _ _ h₆ =>
    (spells_enum _).bind fun _ _ h₇ => spells_money.bind fun _ _ h₈ =>
    (spells_enum _).bind fun _ _ h₉ => spells_money.bind fun _ _ h₁₀ =>
    spells_money.bind fun _ _ h₁₁ => spells_money.bind fun _ _ h₁₂ =>
    spells_i64.bind fun _ _ h₁₃ => spells_i64.bind fun _ _ h₁₄ =>
    (spells_enum _).bind fun _ _ h₁₅ => spells_pure (writeAll_cons_ok h₁ <| writeAll_cons_ok h₂ <|
    writeAll_cons_ok h₃ <| writeAll_cons_ok h₄ <| writeAll_cons_ok h₅ <| writeAll_cons_ok h₆ <|
    writeAll_cons_ok h₇ <| writeAll_cons_ok h₈ <| writeAll_cons_ok h₉ <| writeAll_cons_ok h₁₀ <|
    writeAll_cons_ok h₁₁ <| writeAll_cons_ok h₁₂ <| writeAll_cons_ok h₁₃ <|
    writeAll_cons_ok h₁₄ <| writeAll_cons_ok h₁₅ <| rfl)

theorem spells_obs : SpelledBy writeObs readObs :=
  spells_id.bind fun _ _ h₁ => (spells_enum _).bind fun _ _ h₂ => spells_id.bind fun _ _ h₃ =>
    spells_id.bind fun _ _ h₄ => spells_money.bind fun _ _ h₅ => spells_str.bind fun _ _ h₆ =>
    (spells_enum _).bind fun _ _ h₇ => (spells_enum _).bind fun _ _ h₈ =>
    spells_i64.bind fun _ _ h₉ => spells_i64.bind fun _ _ h₁₀ => spells_i64.bind fun _ _ h₁₁ =>
    spells_id.bind fun _ _ h₁₂ => spells_id.bind fun _ _ h₁₃ => spells_id.bind fun _ _ h₁₄ =>
    spells_id.bind fun _ _ h₁₅ => spells_pure (writeAll_cons_ok h₁ <| writeAll_cons_ok h₂ <|
    writeAll_cons_ok h₃ <| writeAll_cons_ok h₄ <| writeAll_cons_ok h₅ <| writeAll_cons_ok h₆ <|
    writeAll_cons_ok h₇ <| writeAll_cons_ok h₈ <| writeAll_cons_ok h₉ <| writeAll_cons_ok h₁₀ <|
    writeAll_cons_ok h₁₁ <| writeAll_cons_ok h₁₂ <| writeAll_cons_ok h₁₃ <|
    writeAll_cons_ok h₁₄ <| writeAll_cons_ok h₁₅ <| rfl)

theorem spells_history : SpelledBy writeHistory readHistory :=
  spells_id.bind fun _ _ h₁ => spells_id.bind fun _ _ h₂ => spells_i64.bind fun _ _ h₃ =>
    spells_money.bind fun _ _ h₄ => spells_i64.bind fun _ _ h₅ => spells_i64.bind fun _ _ h₆ =>
    spells_pure (writeAll_cons_ok h₁ <| writeAll_cons_ok h₂ <| writeAll_cons_ok h₃ <|
    writeAll_cons_ok h₄ <| writeAll_cons_ok h₅ <| writeAll_cons_ok h₆ <| rfl)

theorem spells_interv : SpelledBy writeInterv readInterv :=
  spells_id.bind fun _ _ h₁ => (spells_enum _).bind fun _ _ h₂ =>
    (spells_enum _).bind fun _ _ h₃ => spells_id.bind fun _ _ h₄ => spells_i64.bind fun _ _ h₅ =>
    spells_pure (writeAll_cons_ok h₁ <| writeAll_cons_ok h₂ <| writeAll_cons_ok h₃ <|
    writeAll_cons_ok h₄ <| writeAll_cons_ok h₅ <| rfl)

theorem spells_policy :
    Spells (fun p front => ∃ f : FlagBytes, f.Means p ∧ spellPolicy f p = .ok front)
      readPolicy := by
  refine spells_id.bind fun _ _ h₁ => spells_id.bind fun _ _ h₂ => spells_id.bind fun _ _ h₃ =>
    spells_str.bind fun _ _ h₄ => (spells_enum _).bind fun _ _ h₅ => ?_
  refine spells_i64.bind fun _ _ h₆ => spells_i64.bind fun _ _ h₇ => spells_i64.bind fun _ _ h₈ =>
    spells_i64.bind fun _ _ h₉ => spells_i64.bind fun _ _ h₁₀ => spells_i64.bind fun _ _ h₁₁ =>
    spells_i64.bind fun _ _ h₁₂ => spells_i64.bind fun _ _ h₁₃ => ?_
  refine spells_money.bind fun _ _ h₁₄ => spells_money.bind fun _ _ h₁₅ => ?_
  refine spells_bool.bind fun _ _ ⟨known, hknown, h₁₆⟩ =>
    spells_bool.bind fun _ _ ⟨synthetic, hsynthetic, h₁₇⟩ =>
    spells_bool.bind fun _ _ ⟨policy, hpolicy, h₁₈⟩ =>
    spells_bool.bind fun _ _ ⟨measured, hmeasured, h₁₉⟩ => spells_pure ?_
  refine ⟨⟨known, synthetic, policy, measured⟩, ⟨hknown, hsynthetic, hpolicy, hmeasured⟩, ?_⟩
  exact writeAll_cons_ok h₁ <| writeAll_cons_ok h₂ <| writeAll_cons_ok h₃ <|
    writeAll_cons_ok h₄ <| writeAll_cons_ok h₅ <| writeAll_cons_ok h₆ <| writeAll_cons_ok h₇ <|
    writeAll_cons_ok h₈ <| writeAll_cons_ok h₉ <| writeAll_cons_ok h₁₀ <|
    writeAll_cons_ok h₁₁ <| writeAll_cons_ok h₁₂ <| writeAll_cons_ok h₁₃ <|
    writeAll_cons_ok h₁₄ <| writeAll_cons_ok h₁₅ <| writeAll_cons_ok h₁₆ <|
    writeAll_cons_ok h₁₇ <| writeAll_cons_ok h₁₈ <| writeAll_cons_ok h₁₉ <| rfl

theorem spells_snapshot :
    Spells (fun s front => ∃ f : FlagBytes, f.Means s.policy ∧ spellSnapshot f s = .ok front)
      readSnapshot := by
  refine spells_id.bind fun _ _ h₁ => spells_policy.bind fun _ _ ⟨f, hf, h₂⟩ => ?_
  refine spells_id.bind fun _ _ h₃ => spells_id.bind fun _ _ h₄ => spells_i64.bind fun _ _ h₅ => ?_
  refine (spells_counted spells_obs _).bind fun _ _ h₆ =>
    (spells_counted spells_budget _).bind fun _ _ h₇ =>
    (spells_counted spells_history _).bind fun _ _ h₈ =>
    (spells_counted spells_interv _).bind fun _ _ h₉ => spells_pure ⟨f, hf, ?_⟩
  exact writeAll_cons_ok h₁ <| writeAll_cons_ok h₂ <| writeAll_cons_ok h₃ <|
    writeAll_cons_ok h₄ <| writeAll_cons_ok h₅ <| writeAll_cons_ok h₆ <| writeAll_cons_ok h₇ <|
    writeAll_cons_ok h₈ <| writeAll_cons_ok h₉ <| rfl

end CostGovernor
