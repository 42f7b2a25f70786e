import CostGovernor.SnapshotRecords

/-!
# What is written can be read back

Within the limits of the reader a snapshot survives the round trip, and whatever the
reader returns is within them.
-/

namespace CostGovernor

open ByteStreams Executions

namespace SnapshotCodec

theorem headerWord_append {front : ByteString} {start : ℕ} (hstart : front.length = start)
    (width v : ℕ) (back : ByteString) :
    headerWord (front ++ wordBytes width v ++ back) start width = v % 256 ^ width := by
  rw [headerWord, List.append_assoc, List.drop_left' hstart,
    List.take_left' (length_wordBytes width v), wordValue_wordBytes]

theorem drop_framed (payload : ByteString) : (framed payload).drop header = payload :=
  List.drop_left' rfl

theorem crc_field_framed (payload : ByteString) :
    headerWord (framed payload) 20 4 = (crc32 payload).toNat := by
  rw [framed, headerWord_append (by rfl)]
  exact Nat.mod_eq_of_lt (crc32 payload).toNat_lt

/-- A framed payload passes every check of the header. -/
theorem decode_framed (payload : ByteString) :
    decode (framed payload) =
      match readSnapshot payload with
      | .error e => .error e
      | .ok (s, rest) =>
        if rest ≠ [] then .error (corrupt "trailing garbage in snapshot") else .ok s := by
  have height : magic.length = 8 := rfl
  have hlength : (framed payload).length = header + payload.length := by
    simp only [framed, header, List.length_append, length_wordBytes, height]
  have hmagic : (framed payload).take 8 = magic := by
    rw [framed, List.append_assoc, List.append_assoc, List.append_assoc]
    exact List.take_left' rfl
  have hversion : headerWord (framed payload) 8 4 = version := by
    rw [framed, List.append_assoc, List.append_assoc]
    exact headerWord_append rfl 4 version _
  have hlen : headerWord (framed payload) 12 8 = payload.length % 2 ^ 64 := by
    rw [framed, List.append_assoc]
    exact headerWord_append (by simp [height]) 8 payload.length _
  unfold decode
  rw [if_neg (by omega), if_neg (not_not.2 hmagic), hversion, if_neg (by decide),
    if_neg (not_not.2 rfl), hlen, hlength, Nat.add_sub_cancel_left,
    crc_field_framed, drop_framed]
  dsimp only
  rw [if_neg (not_not.2 rfl)]
  exact if_neg (not_not.2 rfl)

theorem encode_eq_ok_iff (s : DurableSnapshot) (bytes : ByteString) :
    encode s = .ok bytes ↔ ∃ payload, writeSnapshot s = .ok payload ∧ bytes = framed payload := by
  unfold encode
  cases writeSnapshot s with
  | error e => simp [Functor.map, Except.map]
  | ok payload => simp [Functor.map, Except.map, eq_comm]

/-- Everything but the limits is as it was written. -/
theorem decode_encoded {s : DurableSnapshot} {bytes : ByteString} (h : encode s = .ok bytes)
    (hfits : s.CountsFit) :
    (s.WithinLimits → decode bytes = .ok s) ∧
      (¬ s.WithinLimits → ∃ msg, decode bytes = .error (corrupt msg)) := by
  obtain ⟨payload, hpayload, rfl⟩ := (encode_eq_ok_iff s bytes).1 h
  obtain ⟨hok, herr⟩ := recovers_snapshot hfits payload hpayload []
  rw [List.append_nil] at hok herr
  rw [decode_framed]
  constructor
  · intro hlimits
    rw [hok hlimits]
    rfl
  · intro hlimits
    obtain ⟨e, ⟨msg, rfl⟩, hread⟩ := herr hlimits
    exact ⟨msg, by rw [hread]⟩

theorem withinLimits_of_decode {bytes : ByteString} {s : DurableSnapshot}
    (h : decode bytes = .ok s) : s.WithinLimits := by
  unfold decode at h
  dsimp only at h
  split_ifs at h
  · cases h
  · cases hread : readSnapshot (bytes.drop header) with
    | error e =>
        rw [hread] at h
        cases h
    | ok x =>
        rw [hread] at h
        dsimp only at h
        split_ifs at h
        rw [← Except.ok.inj h]
        exact ensures_snapshot _ _ _ hread

section Succeeds

@[simp] theorem succeeds_u8 (v : UInt8) : Succeeds (Writer.u8 v) := ⟨_, rfl⟩

@[simp] theorem succeeds_u32 (v : ℕ) : Succeeds (Writer.u32 v) := ⟨_, rfl⟩

@[simp] theorem succeeds_i64 (v : Int64) : Succeeds (Writer.i64 v) := ⟨_, rfl⟩

@[simp] theorem succeeds_id {tag : IdTag} (id : Id tag) : Succeeds (writeId id) := ⟨_, rfl⟩

@[simp] theorem succeeds_str_iff (s : ByteString) :
    Succeeds (Writer.str s) ↔ s.length < 2 ^ 32 := by
  unfold Writer.str
  split_ifs with hlong
  · refine ⟨?_, fun h => by omega⟩
    rintro ⟨bytes, hbytes⟩
    cases hbytes
  · simp
    omega

/-- The encoder fails on strings of 4 GiB and on nothing else. -/
theorem succeeds_writeSnapshot_iff (s : DurableSnapshot) :
    Succeeds (writeSnapshot s) ↔ s.policy.currency.length < 2 ^ 32 ∧
      (∀ o ∈ s.priceSchedule.observations, o.currency.length < 2 ^ 32) ∧
      ∀ b ∈ s.budgets, b.currency.length < 2 ^ 32 := by
  simp [writeSnapshot, writePolicy, writeCounted, writeObs, writeBudget, writeHistory, writeInterv,
    writeEnum, writeMoney, writeBool]

end Succeeds

theorem encode_of_withinLimits {s : DurableSnapshot} (h : s.WithinLimits) :
    ∃ bytes, encode s = .ok bytes := by
  have hbound : maxString < 2 ^ 32 := by decide
  obtain ⟨payload, hpayload⟩ := (succeeds_writeSnapshot_iff s).2
    ⟨h.policyString.trans_lt hbound, fun o ho => (h.observationStrings o ho).trans_lt hbound,
      fun b hb => (h.budgetStrings b hb).trans_lt hbound⟩
  exact ⟨framed payload, (encode_eq_ok_iff s _).2 ⟨payload, hpayload, rfl⟩⟩

end SnapshotCodec

open SnapshotCodec

/-- A snapshot within the limits is decoded from its own encoding, and so is every
snapshot that was decoded from any bytes. -/
theorem snapshot_round_trip (s : DurableSnapshot) :
    (s.WithinLimits → ∃ bytes, encode s = .ok bytes ∧ decode bytes = .ok s) ∧
      ∀ accepted, decode accepted = .ok s →
        ∃ bytes, encode s = .ok bytes ∧ decode bytes = .ok s := by
  have hlimits : s.WithinLimits → ∃ bytes, encode s = .ok bytes ∧ decode bytes = .ok s := by
    intro h
    obtain ⟨bytes, hbytes⟩ := encode_of_withinLimits h
    exact ⟨bytes, hbytes, (decode_encoded hbytes h.countsFit).1 h⟩
  exact ⟨hlimits, fun accepted haccepted => hlimits (withinLimits_of_decode haccepted)⟩

def unusualSnapshot : DurableSnapshot :=
  { priceSchedule := { observations := [{ amount := ⟨-7⟩, boot := ⟨0xFFFFFFFFFFFFFFFF⟩ }] }
    budgets := [{ mode := .raw 200 (by decide), currency := [0, 255] }] }

theorem snapshot_round_trip_unusualSnapshot :
    ∃ bytes, encode unusualSnapshot = .ok bytes ∧ decode bytes = .ok unusualSnapshot :=
  (snapshot_round_trip unusualSnapshot).1
    ⟨by decide, by decide, by decide, by decide, by decide, by decide, by decide⟩

end CostGovernor
