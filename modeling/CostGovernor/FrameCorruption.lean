import CostGovernor.Checksums
import CostGovernor.Transmission

/-!
# Frames with one altered byte

The checksum of a frame covers its payload and nothing of its header. The magic, the
version, the checksum itself and the payload are therefore protected, the flags are ignored,
and the type is not protected at all. A smaller length makes the receiver check the checksum
against the beginning of the payload.
-/

namespace CostGovernor

open ByteStreams SegmentedStreams

namespace Cgproto

/-- What makes `recv` return a message. -/
theorem recvStream_eq_frame_iff {h : Header} {rest payload : ByteString} {type : Msg} :
    (recvStream (h.bytes ++ rest)).1 = .frame type payload ↔
      h.rejection = none ∧ h.len.toNat ≤ rest.length ∧ payload = rest.take h.len.toNat ∧
        crc32 payload = h.crc ∧ type = Msg.byte.symm h.type := by
  cases hrejection : h.rejection with
  | some e =>
      rw [recvStream_of_rejected hrejection]
      simp
  | none =>
      rw [recvStream_of_accepted hrejection]
      unfold Header.verdict
      dsimp only
      split_ifs with hlen hcrc
      · simp only [false_iff, true_and, not_and]
        intro _ hpayload hmatch
        rw [hpayload] at hmatch
        exact absurd hmatch hcrc
      · simp only [Received.frame.injEq, true_and]
        constructor
        · rintro ⟨htype, rfl⟩
          exact ⟨hlen, rfl, not_not.mp hcrc, htype.symm⟩
        · rintro ⟨-, hpayload, -, htype⟩
          exact ⟨htype.symm, hpayload.symm⟩
      · simp [hlen]

section Fields

variable (h : Header) (rest : ByteString)

theorem magic_field : ((h.bytes ++ rest).drop 0).take 4 = wordBytes 4 h.magic.toNat := rfl

theorem version_field : ((h.bytes ++ rest).drop 4).take 2 = wordBytes 2 h.version.toNat := rfl

theorem type_field : ((h.bytes ++ rest).drop 6).take 1 = [h.type] := rfl

theorem flags_field : ((h.bytes ++ rest).drop 7).take 1 = [h.flags] := rfl

theorem len_field : ((h.bytes ++ rest).drop 8).take 4 = wordBytes 4 h.len.toNat := rfl

theorem crc_field : ((h.bytes ++ rest).drop 12).take 4 = wordBytes 4 h.crc.toNat := rfl

theorem payload_field : (h.bytes ++ rest).drop headerSize = rest := List.drop_left' (length_header h)

end Fields

theorem u32_eq_of_wordBytes {a b : UInt32} (h : wordBytes 4 a.toNat = wordBytes 4 b.toNat) :
    a = b :=
  UInt32.toNat.inj (wordBytes_inj a.toNat_lt b.toNat_lt h)

section Altered

variable {h h' : Header} {p q : ByteString} {i : ℕ}

def Altered (i : ℕ) (h h' : Header) (p q : ByteString) : Prop :=
  AgreesOutside i 1 (h.bytes ++ p) (h'.bytes ++ q)

namespace Altered

variable (hagree : Altered i h h' p q)

include hagree

theorem magic_eq (hi : 4 ≤ i) : h'.magic = h.magic := by
  have hfield := hagree.field_eq 0 4 (by omega)
  rw [magic_field, magic_field] at hfield
  exact u32_eq_of_wordBytes hfield.symm

theorem version_eq (hi : i < 4 ∨ 6 ≤ i) : h'.version = h.version := by
  have hfield := hagree.field_eq 4 2 (by omega)
  rw [version_field, version_field] at hfield
  exact UInt16.toNat.inj (wordBytes_inj h'.version.toNat_lt h.version.toNat_lt hfield.symm)

theorem type_eq (hi : i ≠ 6) : h'.type = h.type := by
  have hfield := hagree.field_eq 6 1 (by omega)
  rw [type_field, type_field] at hfield
  exact (List.singleton_inj.mp hfield).symm

theorem flags_eq (hi : i ≠ 7) : h'.flags = h.flags := by
  have hfield := hagree.field_eq 7 1 (by omega)
  rw [flags_field, flags_field] at hfield
  exact (List.singleton_inj.mp hfield).symm

theorem len_eq (hi : i < 8 ∨ 12 ≤ i) : h'.len = h.len := by
  have hfield := hagree.field_eq 8 4 (by omega)
  rw [len_field, len_field] at hfield
  exact u32_eq_of_wordBytes hfield.symm

theorem crc_eq (hi : i < 12 ∨ 16 ≤ i) : h'.crc = h.crc := by
  have hfield := hagree.field_eq 12 4 (by omega)
  rw [crc_field, crc_field] at hfield
  exact u32_eq_of_wordBytes hfield.symm

theorem payload_eq (hi : i < headerSize) : q = p := by
  have hfield := hagree.drop_eq (n := headerSize) hi
  rw [payload_field, payload_field] at hfield
  exact hfield.symm

theorem payload_agrees (hi : headerSize ≤ i) : AgreesOutside (i - headerSize) 1 p q := by
  have hfield := AgreesOutside.drop hagree hi
  rwa [payload_field, payload_field] at hfield

theorem length_eq : q.length = p.length := by
  have hlength := hagree.1
  rw [List.length_append, List.length_append, length_header, length_header] at hlength
  omega

/-- A byte of the header that is neither of the length nor of the magic or the version. -/
theorem rejection_eq (hi : 6 ≤ i) (hlen : i < 8 ∨ 12 ≤ i) : h'.rejection = h.rejection := by
  unfold Header.rejection
  rw [hagree.magic_eq (by omega), hagree.version_eq (.inr hi), hagree.len_eq hlen]

end Altered

end Altered

section Delivery

variable {f : Frame} {h' : Header} {q : ByteString} {i : ℕ}

/-- A frame altered elsewhere than in its type is delivered as it was sent, if at all, unless
the checksum does not tell its payload from the part the altered length leaves of it. -/
theorem Altered.delivers_sent (hf : Sendable f) (ha : Altered i (headerFor f.1 f.2) h' f.2 q)
    (htype : i ≠ 6)
    (hlen : ¬ (8 ≤ i ∧ i < 12 ∧ h'.len.toNat < f.2.length ∧
      crc32 (f.2.take h'.len.toNat) = crc32 f.2))
    {type : Msg} {payload : ByteString}
    (hrecv : (recvStream (h'.bytes ++ q)).1 = .frame type payload) :
    type = f.1 ∧ payload = f.2 := by
  obtain ⟨-, hfits, rfl, hcrc, rfl⟩ := recvStream_eq_frame_iff.mp hrecv
  refine ⟨by rw [ha.type_eq htype]; exact Msg.byte.symm_apply_apply f.1, ?_⟩
  by_cases hfield : 8 ≤ i ∧ i < 12
  · obtain rfl : q = f.2 := ha.payload_eq (hfield.2.trans (by decide))
    rw [ha.crc_eq (.inl hfield.2)] at hcrc
    by_contra hne
    have hless : h'.len.toNat < f.2.length := by
      refine lt_of_le_of_ne hfits fun heq => hne ?_
      rw [heq, List.take_length]
    exact hlen ⟨hfield.1, hfield.2, hless, hcrc⟩
  · have hall : q.take h'.len.toNat = q := by
      rw [ha.len_eq (by omega), headerFor_len hf, ← ha.length_eq, List.take_length]
    rw [hall] at hcrc ⊢
    by_cases hi : i < headerSize
    · exact ha.payload_eq hi
    · have hi : headerSize ≤ i := not_lt.mp hi
      rw [ha.crc_eq (.inr hi)] at hcrc
      exact (SnapshotCodec.eq_of_crc32_eq (ha.payload_agrees hi) (by decide) hcrc.symm).symm

/-- A frame with another type is delivered as a message of that type. -/
theorem Altered.delivers_type (hf : Sendable f) (ha : Altered 6 (headerFor f.1 f.2) h' f.2 q) :
    (recvStream (h'.bytes ++ q)).1 = .frame (Msg.byte.symm h'.type) f.2 := by
  obtain rfl : q = f.2 := ha.payload_eq (by decide)
  have hlen : h'.len.toNat = f.2.length := by rw [ha.len_eq (by decide), headerFor_len hf]
  refine recvStream_eq_frame_iff.mpr ⟨?_, hlen.le, ?_, ?_, rfl⟩
  · rw [ha.rejection_eq le_rfl (by decide), headerFor_accepted hf]
  · rw [hlen, List.take_length]
  · rw [ha.crc_eq (by decide)]
    rfl

/-- A frame with a smaller length is delivered with the beginning of its payload when that
has the same checksum. -/
theorem Altered.delivers_part (hf : Sendable f) (ha : Altered i (headerFor f.1 f.2) h' f.2 q)
    (hi : 8 ≤ i ∧ i < 12) (hless : h'.len.toNat < f.2.length)
    (hcrc : crc32 (f.2.take h'.len.toNat) = crc32 f.2) :
    (recvStream (h'.bytes ++ q)).1 = .frame f.1 (f.2.take h'.len.toNat) := by
  obtain rfl : q = f.2 := ha.payload_eq (hi.2.trans (by decide))
  refine recvStream_eq_frame_iff.mpr ⟨?_, hless.le, rfl, ?_, ?_⟩
  · have hmagic : h'.magic = magic := ha.magic_eq (by omega)
    have hversion : h'.version = version := ha.version_eq (by omega)
    unfold Header.rejection
    rw [if_neg (not_not.2 hmagic), if_neg (not_not.2 hversion),
      if_neg (not_lt.2 (hless.le.trans hf))]
  · rw [ha.crc_eq (.inl hi.2)]
    exact hcrc
  · rw [ha.type_eq (by omega)]
    exact (Msg.byte.symm_apply_apply f.1).symm

/-- A header whose type is the old one after all is the old header. -/
theorem Altered.bytes_eq (ha : Altered 6 (headerFor f.1 f.2) h' f.2 q)
    (htype : Msg.byte.symm h'.type = f.1) : h'.bytes ++ q = frameBytes f := by
  obtain rfl : q = f.2 := ha.payload_eq (by decide)
  have hbyte : h'.type = Msg.byte f.1 := by rw [← htype, Equiv.apply_symm_apply]
  have hheader : h' = headerFor f.1 f.2 := by
    obtain ⟨magic, version, type, flags, len, crc⟩ := h'
    rw [headerFor, Header.mk.injEq]
    exact ⟨ha.magic_eq (by decide), ha.version_eq (by decide), hbyte, ha.flags_eq (by decide),
      ha.len_eq (by decide), ha.crc_eq (by decide)⟩
  rw [hheader, frameBytes]

end Delivery

def shownLen (bytes : ByteString) : ℕ := wordValue ((bytes.drop 8).take 4)

theorem shownLen_header (h : Header) (rest : ByteString) :
    shownLen (h.bytes ++ rest) = h.len.toNat := by
  rw [shownLen, len_field, wordValue_wordBytes]
  exact Nat.mod_eq_of_lt h.len.toNat_lt

/-- Byte `i` is one of the length, and with the value `v` it leaves a part of the payload
that has the checksum of the whole. -/
def CutUnnoticed (f : Frame) (i : ℕ) (v : UInt8) : Prop :=
  8 ≤ i ∧ i < 12 ∧ shownLen ((frameBytes f).set i v) < f.2.length ∧
    crc32 (f.2.take (shownLen ((frameBytes f).set i v))) = crc32 f.2

/-- Four bytes with the checksum of none. -/
example : CutUnnoticed (.commit, [0x9d, 0x0a, 0xd9, 0x6d]) 8 0 := by
  unfold CutUnnoticed
  decide +kernel

theorem exists_altered (f : Frame) (i : ℕ) (v : UInt8) :
    ∃ h' q, (frameBytes f).set i v = h'.bytes ++ q ∧ Altered i (headerFor f.1 f.2) h' f.2 q := by
  have hlength : (((frameBytes f).set i v).take headerSize).length = headerSize := by
    rw [List.length_take, List.length_set, length_frameBytes]
    omega
  obtain ⟨h', hheader⟩ := exists_header hlength
  have hsplit : (frameBytes f).set i v = h'.bytes ++ ((frameBytes f).set i v).drop headerSize := by
    rw [hheader, List.take_append_drop]
  refine ⟨h', _, hsplit, ?_⟩
  rw [Altered, ← hsplit]
  exact agreesOutside_set (frameBytes f) i v

theorem sendable_of_send {out : Outlet UInt8} {f : Frame} (h : (sendFrame out f).1 = .ok true) :
    Sendable f := by
  unfold sendFrame FramedEndpoint.send at h
  by_contra hlarge
  rw [if_pos (not_le.mp hlarge)] at h
  cases h

end Cgproto

open Cgproto

/-- A frame with one altered byte is never received as another message if and only if the byte
is not the type and no part of the payload passes for the whole. -/
theorem altered_frame_not_another_iff (f : Frame) (out : Outlet UInt8)
    (hsent : (sendFrame out f).1 = .ok true) (sent : ByteString)
    (hwritten : (sendFrame out f).2.written = out.written ++ sent) (i : ℕ) (v : UInt8)
    (haltered : sent.set i v ≠ sent) (s : Segments UInt8) (hstream : s.stream = sent.set i v) :
    (∀ type payload, (FramedEndpoint.recv s).1 = .frame type payload →
        type = f.1 ∧ payload = f.2) ↔
      i ≠ 6 ∧ ¬ CutUnnoticed f i v := by
  have hf : Sendable f := sendable_of_send hsent
  obtain rfl : sent = frameBytes f := by
    rw [written_of_send hsent] at hwritten
    exact (List.append_cancel_left hwritten).symm
  obtain ⟨h', q, hbytes, ha⟩ := exists_altered f i v
  rw [(recv_refines s).1, hstream, CutUnnoticed, hbytes, shownLen_header]
  rw [hbytes] at haltered
  constructor
  · intro honly
    constructor
    · rintro rfl
      exact haltered (ha.bytes_eq (honly _ _ (ha.delivers_type hf)).1)
    · rintro ⟨hfrom, hto, hless, hcrc⟩
      have hpart := (honly _ _ (ha.delivers_part hf ⟨hfrom, hto⟩ hless hcrc)).2
      have hlength := congrArg List.length hpart
      rw [List.length_take] at hlength
      omega
  · rintro ⟨htype, hlen⟩ type payload hrecv
    exact ha.delivers_sent hf htype hlen hrecv

def sentCommit : Except RuntimeError Bool × Outlet UInt8 :=
  sendFrame { takes := [16, 3] } (.commit, [1, 2, 3])

theorem commit_received_as_release :
    sentCommit.1 = .ok true ∧
      (FramedEndpoint.recv (Segments.whole (sentCommit.2.written.set 6 11))).1 =
        .frame .release [1, 2, 3] := by decide +kernel

theorem altered_magic_not_another :
    sentCommit.1 = .ok true ∧ ∀ type payload,
      (FramedEndpoint.recv (Segments.whole (sentCommit.2.written.set 3 0))).1 =
        .frame type payload → type = .commit ∧ payload = [1, 2, 3] := by
  have hsent : sentCommit.1 = .ok true := by decide +kernel
  refine ⟨hsent, ?_⟩
  exact (altered_frame_not_another_iff (.commit, [1, 2, 3]) { takes := [16, 3] } hsent
    sentCommit.2.written rfl 3 0 (by decide +kernel) _ (Segments.stream_whole _)).2
    ⟨by decide, fun h => absurd h.1 (by decide)⟩

end CostGovernor
