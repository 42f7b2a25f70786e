import CostGovernor.RoundTrip

/-!
# Saving and loading governor states

`persist` writes snapshots that `load` refuses: nothing keeps the strings and the
growing lists of a governor below the limits of the reader.
-/

namespace CostGovernor

open ByteStreams SnapshotCodec

theorem decode_eq_ok_iff {s : DurableSnapshot} {bytes : ByteString} (h : encode s = .ok bytes) :
    decode bytes = .ok s ↔ s.WithinLimits :=
  ⟨withinLimits_of_decode, fun hlimits => (decode_encoded h hlimits.countsFit).1 hlimits⟩

theorem decode_accepts_iff {s : DurableSnapshot} {bytes : ByteString} (h : encode s = .ok bytes)
    (hfits : s.CountsFit) : (∃ s', decode bytes = .ok s') ↔ s.WithinLimits := by
  constructor
  · rintro ⟨s', hs'⟩
    by_contra hlimits
    obtain ⟨msg, hmsg⟩ := (decode_encoded h hfits).2 hlimits
    rw [hmsg] at hs'
    cases hs'
  · exact fun hlimits => ⟨s, (decode_eq_ok_iff h).2 hlimits⟩

theorem Governor.persist_eq_ok {g : Governor} {written : Bool} {file file' : Option ByteString}
    (h : g.persist written file = (.ok .ok, file')) :
    ∃ bytes, encode g.snapshot = .ok bytes ∧ file' = some bytes := by
  unfold persist at h
  by_cases hstore : (!g.store) = true
  · rw [if_pos hstore] at h
    cases h
  · rw [if_neg hstore] at h
    cases hencode : encode g.snapshot with
    | error e =>
        rw [hencode] at h
        cases h
    | ok bytes =>
        rw [hencode] at h
        cases written with
        | false => cases h
        | true => exact ⟨bytes, rfl, (Prod.mk.inj h).2.symm⟩

theorem Governor.load_some (g : Governor) (hstore : g.store = true) (bytes : ByteString) :
    g.load (some bytes) =
      match decode bytes with
      | .error e => (.error e, g)
      | .ok snap => (.ok .ok, g.restore snap) := by
  rw [load, hstore]
  rfl

/-- A saved snapshot is read back exactly when it is within the reader's limits. So
is the governor state it was taken from; past the limits its load fails. -/
theorem saved_state_loads_iff (s : DurableSnapshot) (bytes : ByteString)
    (hsaved : encode s = .ok bytes) :
    (decode bytes = .ok s ↔ s.WithinLimits) ∧
      (s.CountsFit → ((∃ s', decode bytes = .ok s') ↔ s.WithinLimits)) ∧
      ∀ (g later : Governor) (written : Bool) (file file' : Option ByteString), g.snapshot = s →
        g.persist written file = (.ok .ok, file') → later.store = true → s.CountsFit →
          ((∃ msg, (later.load file').1 = .error (corrupt msg)) ↔ ¬ s.WithinLimits) := by
  refine ⟨decode_eq_ok_iff hsaved, decode_accepts_iff hsaved, ?_⟩
  rintro g later written file file' rfl hpersist hstore hfits
  obtain ⟨bytes', hbytes, rfl⟩ := g.persist_eq_ok hpersist
  rw [later.load_some hstore]
  constructor
  · rintro ⟨msg, hmsg⟩ hlimits
    rw [(decode_eq_ok_iff hbytes).2 hlimits] at hmsg
    cases hmsg
  · intro hlimits
    obtain ⟨msg, hmsg⟩ := (decode_encoded hbytes hfits).2 hlimits
    exact ⟨msg, by rw [hmsg]⟩

def onePrice : Governor :=
  (Governor.fresh 0).setStatePath.setPriceSchedule { observations := [{ amount := ⟨3⟩ }] }

theorem saved_state_loads_iff_unusualSnapshot :
    (∃ bytes, encode unusualSnapshot = .ok bytes ∧ decode bytes = .ok unusualSnapshot) ∧
      ∃ bytes, onePrice.persist true none = (.ok .ok, some bytes) ∧
        (∃ s, decode bytes = .ok s) ∧
        ¬ ∃ msg, (onePrice.load (some bytes)).1 = .error (corrupt msg) := by
  obtain ⟨bytes, hbytes⟩ : ∃ bytes, encode unusualSnapshot = .ok bytes := ⟨_, rfl⟩
  have hunusual : unusualSnapshot.WithinLimits :=
    ⟨by decide, by decide, by decide, by decide, by decide, by decide, by decide⟩
  refine ⟨⟨bytes, hbytes, (saved_state_loads_iff unusualSnapshot bytes hbytes).1.2 hunusual⟩, ?_⟩
  obtain ⟨saved, hsaved, hpersist⟩ : ∃ saved, encode onePrice.snapshot = .ok saved ∧
      onePrice.persist true none = (.ok .ok, some saved) := ⟨_, rfl, rfl⟩
  have hlimits : onePrice.snapshot.WithinLimits :=
    ⟨by decide, by decide, by decide, by decide, by decide, by decide, by decide⟩
  have hfits : onePrice.snapshot.CountsFit := ⟨by decide, by decide, by decide, by decide⟩
  obtain ⟨-, haccepts, hloads⟩ := saved_state_loads_iff onePrice.snapshot saved hsaved
  refine ⟨saved, hpersist, (haccepts hfits).2 hlimits, fun hcorrupt => ?_⟩
  exact (hloads onePrice onePrice true none _ rfl hpersist rfl hfits).1 hcorrupt hlimits

/-- A schedule with one observation more than the reader takes. -/
def longSchedule : Governor :=
  (Governor.fresh 0).setStatePath.setPriceSchedule
    { observations := List.replicate (maxEntries + 1) {} }

theorem persisted_state_fails_to_load :
    ∃ bytes msg, longSchedule.persist true none = (.ok .ok, some bytes) ∧
      (longSchedule.load (some bytes)).1 = .error (.statusError .persistenceCorrupt msg) := by
  have hfits : longSchedule.snapshot.CountsFit := by
    refine ⟨?_, by decide, by decide, by decide⟩
    change (List.replicate (maxEntries + 1) ({} : PriceObservation)).length < 2 ^ 32
    rw [List.length_replicate]
    decide
  have hover : ¬ longSchedule.snapshot.WithinLimits := by
    intro h
    have hlength : (List.replicate (maxEntries + 1) ({} : PriceObservation)).length ≤ maxEntries :=
      h.observations
    rw [List.length_replicate] at hlength
    omega
  obtain ⟨payload, hpayload⟩ : Succeeds (writeSnapshot longSchedule.snapshot) := by
    refine (succeeds_writeSnapshot_iff _).2 ⟨by decide, ?_, fun b hb => by cases hb⟩
    intro o ho
    rw [List.eq_of_mem_replicate ho]
    decide
  have hbytes : encode longSchedule.snapshot = .ok (framed payload) :=
    (encode_eq_ok_iff _ _).2 ⟨payload, hpayload, rfl⟩
  obtain ⟨msg, hmsg⟩ := (decode_encoded hbytes hfits).2 hover
  refine ⟨framed payload, msg, ?_, ?_⟩
  · have hstore : longSchedule.store = true := rfl
    simp only [Governor.persist, hstore, hbytes, Bool.not_true, Bool.false_eq_true, if_false, if_true]
  · rw [longSchedule.load_some rfl, hmsg]
    rfl

end CostGovernor
