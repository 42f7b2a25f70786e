import CostGovernor.Checksums
import CostGovernor.RoundTrip

/-!
# Damaged snapshots

The decoder accepts a string of bytes only if its header is the one the encoder writes in
front of the payload that follows, so an accepted string is determined by its payload. The
checksum then excludes the payloads that differ from a written one in a few bytes.
-/

namespace CostGovernor

open ByteStreams

namespace SnapshotCodec

variable {bytes : ByteString}

/-- A field of the header is the word it is read as. -/
theorem field_eq_wordBytes {start width : ℕ} (hlength : start + width ≤ bytes.length) :
    (bytes.drop start).take width = wordBytes width (headerWord bytes start width) := by
  have hwidth : ((bytes.drop start).take width).length = width := by
    rw [List.length_take, List.length_drop]
    omega
  have h := wordBytes_wordValue ((bytes.drop start).take width)
  rw [hwidth] at h
  exact h.symm

/-- The fields of the header, in their order, and the payload. -/
theorem header_split (bytes : ByteString) :
    bytes = bytes.take 8 ++ (bytes.drop 8).take 4 ++ (bytes.drop 12).take 8 ++
      (bytes.drop 20).take 4 ++ bytes.drop header := by
  have hcut : ∀ start width, bytes.drop start =
      (bytes.drop start).take width ++ bytes.drop (start + width) := by
    intro start width
    rw [← List.drop_drop, List.take_append_drop]
  have hversion : bytes.drop 8 = (bytes.drop 8).take 4 ++ bytes.drop 12 := hcut 8 4
  have hlen : bytes.drop 12 = (bytes.drop 12).take 8 ++ bytes.drop 20 := hcut 12 8
  have hcrc : bytes.drop 20 = (bytes.drop 20).take 4 ++ bytes.drop header := hcut 20 4
  rw [List.append_assoc, ← hcrc, List.append_assoc, ← hlen, List.append_assoc, ← hversion,
    List.take_append_drop]

/-- Whatever is decoded starts with the header the encoder writes for its payload. -/
theorem framed_of_decode {s : DurableSnapshot} (h : decode bytes = .ok s) :
    bytes = framed (bytes.drop header) := by
  unfold decode throwStatus at h
  dsimp only at h
  split_ifs at h with hshort hmagic hold hversion hlen hcrc
  have hlong : 24 ≤ bytes.length := not_lt.mp hshort
  have hpayload : (bytes.drop header).length = bytes.length - header := List.length_drop
  rw [not_not] at hmagic hversion hlen hcrc
  have hlenField : (bytes.drop 12).take 8 = wordBytes 8 (bytes.drop header).length := by
    rw [field_eq_wordBytes (by omega), hlen, hpayload]
    exact wordBytes_mod 8 _
  conv_lhs => rw [header_split bytes]
  rw [framed, hmagic, field_eq_wordBytes (by omega : 8 + 4 ≤ bytes.length), hversion, hlenField,
    field_eq_wordBytes (by omega : 20 + 4 ≤ bytes.length), ← hcrc]

/-- Damage behind the header leaves the checksum field alone. -/
theorem crc32_eq_of_agreesOutside {start width : ℕ} {payload other : ByteString}
    (h : AgreesOutside start width (framed payload) (framed other)) (hstart : header ≤ start) :
    crc32 payload = crc32 other := by
  have hfront := h.take_eq hstart
  have hfield : ∀ bytes : ByteString,
      headerWord bytes 20 4 = wordValue ((bytes.take header).drop 20) := by
    intro bytes
    rw [headerWord, List.drop_take]
    rfl
  apply UInt32.toNat.inj
  rw [← crc_field_framed, ← crc_field_framed, hfield, hfield, hfront]

/-- Damage that the checksum sees never turns one framed payload into another. -/
theorem framed_eq_of_agreesOutside {start width : ℕ} {payload other : ByteString}
    (h : AgreesOutside start width (framed payload) (framed other))
    (hsmall : width ≤ 1 ∨ header ≤ start ∧ width ≤ 4) : framed payload = framed other := by
  suffices hpayload : payload = other by rw [hpayload]
  by_cases hstart : header ≤ start
  · have hwindow := h.drop hstart
    rw [drop_framed, drop_framed] at hwindow
    exact eq_of_crc32_eq hwindow (by omega) (crc32_eq_of_agreesOutside h hstart)
  · have hpayload := h.drop_eq (n := header) (by omega)
    rwa [drop_framed, drop_framed] at hpayload

end SnapshotCodec

open SnapshotCodec

/-- No snapshot is read from the bytes of another one after one byte of them was changed, or
a few consecutive bytes of the payload. -/
theorem damaged_snapshot_rejected (s : DurableSnapshot) (hlimits : s.WithinLimits) :
    ∃ bytes, encode s = .ok bytes ∧
      ∀ damaged start width, damaged ≠ bytes → AgreesOutside start width bytes damaged →
        (width ≤ 1 ∨ header ≤ start ∧ width ≤ 4) → ∃ e, decode damaged = .error e := by
  obtain ⟨bytes, hbytes⟩ := encode_of_withinLimits hlimits
  obtain ⟨payload, -, rfl⟩ := (encode_eq_ok_iff s bytes).1 hbytes
  refine ⟨framed payload, hbytes, ?_⟩
  intro damaged start width hne hagree hsmall
  cases hdecode : decode damaged with
  | error e => exact ⟨e, rfl⟩
  | ok other =>
      rw [framed_of_decode hdecode] at hagree hne
      exact absurd (framed_eq_of_agreesOutside hagree hsmall).symm hne

theorem damaged_snapshot_rejected_unusualSnapshot :
    ∃ bytes, encode unusualSnapshot = .ok bytes ∧
      ∀ damaged start width, damaged ≠ bytes → AgreesOutside start width bytes damaged →
        (width ≤ 1 ∨ header ≤ start ∧ width ≤ 4) → ∃ e, decode damaged = .error e :=
  damaged_snapshot_rejected unusualSnapshot
    ⟨by decide, by decide, by decide, by decide, by decide, by decide, by decide⟩

end CostGovernor
