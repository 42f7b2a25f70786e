import CostGovernor.SaveLoad

/-!
# State files that are cut or continued

The header of a state file states the length of its payload, so a file that lacks bytes at
its end, or has more than were written, is refused whatever the bytes are.
-/

namespace CostGovernor

open ByteStreams SnapshotCodec

namespace SnapshotCodec

/-- What stands before the payload. -/
def headerOf (payload : ByteString) : ByteString :=
  magic ++ wordBytes 4 version ++ wordBytes 8 payload.length ++ wordBytes 4 (crc32 payload).toNat

theorem framed_eq (payload : ByteString) : framed payload = headerOf payload ++ payload := rfl

theorem length_headerOf (payload : ByteString) : (headerOf payload).length = header := by
  have hmagic : magic.length = 8 := rfl
  simp only [headerOf, header, List.length_append, length_wordBytes, hmagic]

/-- A payload of another length than the header states. -/
theorem decode_of_length {payload rest : ByteString} (hpayload : payload.length < 2 ^ 64)
    (hrest : rest.length < 2 ^ 64) (hne : rest.length ≠ payload.length) :
    decode (headerOf payload ++ rest) = .error (corrupt
      (if rest.length < payload.length then "truncated snapshot" else "trailing garbage")) := by
  have hlength : (headerOf payload ++ rest).length = header + rest.length := by
    rw [List.length_append, length_headerOf]
  have hmagic : (headerOf payload ++ rest).take 8 = magic := by
    rw [headerOf, List.append_assoc, List.append_assoc, List.append_assoc]
    exact List.take_left' rfl
  have hversion : headerWord (headerOf payload ++ rest) 8 4 = version := by
    rw [headerOf, List.append_assoc, List.append_assoc]
    exact headerWord_append rfl 4 version _
  have hlen : headerWord (headerOf payload ++ rest) 12 8 = payload.length := by
    rw [headerOf, List.append_assoc]
    refine (headerWord_append rfl 8 payload.length _).trans (Nat.mod_eq_of_lt hpayload)
  unfold decode
  rw [if_neg (by omega), if_neg (not_not.2 hmagic), hversion, if_neg (by decide),
    if_neg (not_not.2 rfl), hlen, hlength, Nat.add_sub_cancel_left, Nat.mod_eq_of_lt hrest]
  dsimp only
  rw [if_pos hne.symm]

theorem decode_short {bytes : ByteString} (h : bytes.length < header) :
    decode bytes = .error (corrupt "snapshot too short") := by
  rw [decode, if_pos h]

/-- A file that lacks bytes at its end. -/
theorem decode_take {payload : ByteString} (hpayload : payload.length < 2 ^ 64) {n : ℕ}
    (hn : n < (framed payload).length) :
    ∃ msg, decode ((framed payload).take n) = .error (corrupt msg) := by
  have hlength := length_headerOf payload
  rw [framed_eq, List.length_append] at hn
  by_cases hshort : n < header
  · exact ⟨_, decode_short (by rw [List.length_take]; omega)⟩
  · rw [framed_eq, List.take_append, List.take_of_length_le (by omega), hlength]
    exact ⟨_, decode_of_length hpayload (by rw [List.length_take]; omega)
      (by rw [List.length_take]; omega)⟩

/-- A file with bytes after its end. -/
theorem decode_append {payload more : ByteString} (hmore : more ≠ [])
    (hlength : (framed payload ++ more).length < 2 ^ 64) :
    decode (framed payload ++ more) = .error (corrupt "trailing garbage") := by
  have hpos := List.length_pos_iff.2 hmore
  simp only [framed_eq, List.length_append] at hlength
  rw [framed_eq, List.append_assoc]
  have hrest : (payload ++ more).length = payload.length + more.length := List.length_append
  have hpayload : payload.length < 2 ^ 64 := by omega
  have hdecode := decode_of_length hpayload (show (payload ++ more).length < 2 ^ 64 by omega)
    (by omega)
  rwa [if_neg (by omega)] at hdecode

end SnapshotCodec

/-- A saved file that is cut or continued at its end is refused by every load, which leaves
the governor as it was. -/
theorem cut_or_continued_files_refused (s : DurableSnapshot) (bytes : ByteString)
    (hsaved : encode s = .ok bytes) (hlength : bytes.length < 2 ^ 64) (g : Governor)
    (hstore : g.store = true) :
    (∀ n, n < bytes.length →
      ∃ msg, g.load (some (bytes.take n)) = (.error (corrupt msg), g)) ∧
      ∀ more, more ≠ [] → (bytes ++ more).length < 2 ^ 64 →
        ∃ msg, g.load (some (bytes ++ more)) = (.error (corrupt msg), g) := by
  obtain ⟨payload, -, rfl⟩ := (encode_eq_ok_iff s bytes).1 hsaved
  have hpayload : payload.length < 2 ^ 64 := by
    rw [framed_eq, List.length_append] at hlength
    omega
  refine ⟨fun n hn => ?_, fun more hmore hlong => ?_⟩
  · obtain ⟨msg, hmsg⟩ := decode_take hpayload hn
    exact ⟨msg, by rw [g.load_some hstore, hmsg]⟩
  · exact ⟨_, by rw [g.load_some hstore, decode_append hmore hlong]⟩

theorem cut_or_continued_files_refused_unusualSnapshot :
    ∃ bytes msg, encode unusualSnapshot = .ok bytes ∧
      ((Governor.fresh 0).setStatePath.load (some (bytes.take 20))).1 = .error (corrupt msg) := by
  obtain ⟨bytes, hbytes, hlength⟩ : ∃ bytes, encode unusualSnapshot = .ok bytes ∧
      20 < bytes.length ∧ bytes.length < 2 ^ 64 := ⟨_, rfl, by decide +kernel⟩
  obtain ⟨msg, hmsg⟩ := (cut_or_continued_files_refused unusualSnapshot bytes hbytes hlength.2
    ((Governor.fresh 0).setStatePath) rfl).1 20 hlength.1
  exact ⟨bytes, msg, hbytes, by rw [hmsg]⟩

end CostGovernor
