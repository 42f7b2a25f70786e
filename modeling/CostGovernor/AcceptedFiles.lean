import CostGovernor.FileSpellings

/-!
# The files the decoder accepts

A file is accepted exactly when it is a spelling, with any bytes for the flags that have
their meaning, of a snapshot within the limits.
-/

namespace CostGovernor

open ByteStreams

section Spelled

/-- A flag is read back from any byte with its meaning. -/
theorem recovers_flag {b : Bool} {byte : UInt8} (h : b = decide (byte ≠ 0)) :
    Recovers IsCorrupt (Writer.u8 byte) readBool b True := by
  rw [h]
  exact (recovers_u8 byte).map (fun byte => decide (byte ≠ 0))

theorem recovers_spelledPolicy {f : FlagBytes} {p : CostPolicy} (h : f.Means p) :
    Recovers IsCorrupt (spellPolicy f p) readPolicy p (p.currency.length ≤ maxString) := by
  refine Recovers.congr ((recovers_id _).bind <| (recovers_id _).bind <| (recovers_id _).bind <|
    (recovers_str _).bind <| (recovers_enum _ _).bind <| (recovers_i64 _).bind <|
    (recovers_i64 _).bind <| (recovers_i64 _).bind <| (recovers_i64 _).bind <|
    (recovers_i64 _).bind <| (recovers_i64 _).bind <| (recovers_i64 _).bind <|
    (recovers_i64 _).bind <| (recovers_money _).bind <| (recovers_money _).bind <|
    (recovers_flag h.recoveryCostKnown).bind <| (recovers_flag h.allowSynthetic).bind <|
    (recovers_flag h.allowPolicy).bind <| (recovers_flag h.allowMeasured).bind <|
    recovers_pure p) ?_
  simp

theorem recovers_spelledSnapshot {f : FlagBytes} {s : DurableSnapshot} (h : f.Means s.policy)
    (hlimits : s.WithinLimits) : Recovers IsCorrupt (spellSnapshot f s) readSnapshot s True := by
  have hfits := hlimits.countsFit
  refine Recovers.congr ((recovers_id _).bind <| (recovers_spelledPolicy h).bind <|
    (recovers_id _).bind <| (recovers_id _).bind <| (recovers_i64 _).bind <|
    (recovers_counted recovers_obs _ hfits.observations).bind <|
    (recovers_counted recovers_budget _ hfits.budgets).bind <|
    (recovers_counted recovers_history _ hfits.history).bind <|
    (recovers_counted recovers_interv _ hfits.interventions).bind <| recovers_pure s) ?_
  obtain ⟨hpolicy, hobs, hobs', hbud, hbud', hhist, hint⟩ := hlimits
  exact iff_of_true ⟨trivial, hpolicy, trivial, trivial, trivial, ⟨hobs, hobs'⟩, ⟨hbud, hbud'⟩,
    ⟨hhist, fun _ _ => trivial⟩, ⟨hint, fun _ _ => trivial⟩, trivial⟩ trivial

end Spelled

namespace SnapshotCodec

theorem spell_eq_ok_iff (f : FlagBytes) (s : DurableSnapshot) (bytes : ByteString) :
    spell f s = .ok bytes ↔
      ∃ payload, spellSnapshot f s = .ok payload ∧ bytes = framed payload := by
  unfold spell
  cases spellSnapshot f s with
  | error e => simp [Functor.map, Except.map]
  | ok payload => simp [Functor.map, Except.map, eq_comm]

/-- The writer's own spelling. -/
theorem encode_eq_spell (s : DurableSnapshot) : encode s = spell (.written s.policy) s := rfl

/-- Every spelling of a snapshot has the same length. -/
theorem length_spelling {f f' : FlagBytes} {s : DurableSnapshot} {bytes bytes' : ByteString}
    (h : spell f s = .ok bytes) (h' : spell f' s = .ok bytes') : bytes.length = bytes'.length := by
  obtain ⟨payload, hpayload, rfl⟩ := (spell_eq_ok_iff f s bytes).1 h
  obtain ⟨payload', hpayload', rfl⟩ := (spell_eq_ok_iff f' s bytes').1 h'
  have hflag : ∀ v v' : UInt8, SameLength (Writer.u8 v) (Writer.u8 v') := by
    intro v v' x x' hx hx'
    cases hx
    cases hx'
    rfl
  have hpolicy : SameLength (spellPolicy f s.policy) (spellPolicy f' s.policy) := by
    refine sameLength_writeAll ?_
    iterate 15 refine .cons (sameLength_refl _) ?_
    iterate 4 refine .cons (hflag _ _) ?_
    exact .nil
  have hsnapshot : SameLength (spellSnapshot f s) (spellSnapshot f' s) := by
    refine sameLength_writeAll (.cons (sameLength_refl _) (.cons hpolicy ?_))
    iterate 7 refine .cons (sameLength_refl _) ?_
    exact .nil
  have hlength := hsnapshot payload payload' hpayload hpayload'
  simp only [framed, List.length_append, length_wordBytes, hlength]

theorem spelling_of_decode {bytes : ByteString} {s : DurableSnapshot} (h : decode bytes = .ok s) :
    ∃ f : FlagBytes, f.Means s.policy ∧ spell f s = .ok bytes := by
  have hframed := framed_of_decode h
  rw [hframed, decode_framed] at h
  cases hread : readSnapshot (bytes.drop header) with
  | error e =>
      rw [hread] at h
      cases h
  | ok x =>
      obtain ⟨s', rest⟩ := x
      rw [hread] at h
      dsimp only at h
      split_ifs at h with hrest
      obtain rfl : s' = s := Except.ok.inj h
      obtain ⟨front, ⟨f, hf, hfront⟩, hpayload⟩ := spells_snapshot _ _ _ hread
      rw [not_not.1 hrest, List.append_nil] at hpayload
      refine ⟨f, hf, (spell_eq_ok_iff f s' bytes).2 ⟨front, hfront, ?_⟩⟩
      rw [← hpayload]
      exact hframed

theorem decode_of_spelling {bytes : ByteString} {s : DurableSnapshot} {f : FlagBytes}
    (hlimits : s.WithinLimits) (hf : f.Means s.policy) (h : spell f s = .ok bytes) :
    decode bytes = .ok s := by
  obtain ⟨payload, hpayload, rfl⟩ := (spell_eq_ok_iff f s bytes).1 h
  have hread := (recovers_spelledSnapshot hf hlimits payload hpayload []).1 trivial
  rw [List.append_nil] at hread
  rw [decode_framed, hread]
  exact if_neg (not_not.2 rfl)

end SnapshotCodec

open SnapshotCodec in
/-- Of all strings of bytes, the decoder accepts the spellings of snapshots within the limits
and no others. What it returns can be saved and loaded again; the new file has the length of
the accepted one, and is it exactly when that spells the flags with zeros and ones. -/
theorem accepted_files_are_spellings (bytes : ByteString) (s : DurableSnapshot) :
    (decode bytes = .ok s ↔
      s.WithinLimits ∧ ∃ f : FlagBytes, f.Means s.policy ∧ spell f s = .ok bytes) ∧
    (decode bytes = .ok s → ∃ saved, encode s = .ok saved ∧ decode saved = .ok s ∧
      saved.length = bytes.length ∧
      (saved = bytes ↔ ∃ f : FlagBytes, f.Means s.policy ∧ f.Plain ∧ spell f s = .ok bytes)) := by
  refine ⟨⟨fun h => ⟨withinLimits_of_decode h, spelling_of_decode h⟩, ?_⟩, fun h => ?_⟩
  · rintro ⟨hlimits, f, hf, hbytes⟩
    exact decode_of_spelling hlimits hf hbytes
  · have hlimits := withinLimits_of_decode h
    obtain ⟨f, -, hbytes⟩ := spelling_of_decode h
    obtain ⟨saved, hsaved⟩ := encode_of_withinLimits hlimits
    have hwritten := FlagBytes.means_written s.policy
    rw [encode_eq_spell] at hsaved ⊢
    refine ⟨saved, hsaved, decode_of_spelling hlimits hwritten hsaved,
      length_spelling hsaved hbytes, ⟨?_, ?_⟩⟩
    · rintro rfl
      exact ⟨_, hwritten, hwritten.plain_iff.2 rfl, hsaved⟩
    · rintro ⟨f', hf', hplain, hbytes'⟩
      rw [hf'.plain_iff.1 hplain] at hbytes'
      exact Except.ok.inj (hsaved.symm.trans hbytes')

end CostGovernor
