import CostGovernor.Codec
import CostGovernor.SegmentedStreams
import CostGovernor.WireRoundTrip

/-!
# Frames

A frame is a header of sixteen bytes and a payload. `recvFrom` is the receiving end
over any source of bytes that can be asked for exactly so many of them: over the
chunks of a socket it is `FramedEndpoint.recv`, over the stream itself it is
`recvStream`, and the one refines the other. A header is checked before its payload
is read, so a frame rejected there leaves its payload in the stream.
-/

namespace CostGovernor

open ByteStreams SegmentedStreams

namespace Cgproto

def magic : UInt32 := 0x43475301

def version : UInt16 := 1

/-- The same loop as the checksum of the state file. -/
def crc32 (data : ByteString) : UInt32 := SnapshotCodec.crc32 data

structure Header where
  magic : UInt32
  version : UInt16
  type : UInt8
  flags : UInt8
  len : UInt32
  crc : UInt32
  deriving DecidableEq

def headerSize : ℕ := 16

/-- What `recv` returns; `closed` is `false`. -/
inductive Received
  | closed
  | frame (type : Msg) (payload : ByteString)
  | threw (e : RuntimeError)
  deriving DecidableEq

namespace Header

def bytes (h : Header) : ByteString := List.flatten [
  Writer.u32 h.magic.toNat, Writer.u16 h.version.toNat, Writer.u8 h.type, Writer.u8 h.flags,
  Writer.u32 h.len.toNat, Writer.u32 h.crc.toNat]

/-- The checks made before the payload is read. -/
def rejection (h : Header) : Option RuntimeError :=
  if h.magic ≠ Cgproto.magic then some ⟨"frame magic mismatch"⟩
  else if h.version ≠ Cgproto.version then some ⟨"frame version mismatch"⟩
  else if maxPayload < h.len.toNat then some ⟨"frame too large"⟩
  else none

/-- The check made after it. -/
def verdict (h : Header) (payload : ByteString) : Received :=
  if crc32 payload ≠ h.crc then .threw ⟨"frame checksum mismatch"⟩
  else .frame (Msg.byte.symm h.type) payload

end Header

def readHeader : Read Header := do
  let magic ← UInt32.ofNat <$> Reader.u32
  let version ← UInt16.ofNat <$> Reader.u16
  let type ← Reader.u8
  let flags ← Reader.u8
  let len ← UInt32.ofNat <$> Reader.u32
  let crc ← UInt32.ofNat <$> Reader.u32
  return { magic, version, type, flags, len, crc }

/-- The receiving end. A length of zero reads nothing. -/
def recvFrom {σ : Type} (recvAll : ℕ → σ → Option ByteString × σ) (s : σ) : Received × σ :=
  match recvAll headerSize s with
  | (none, s) => (.closed, s)
  | (some hdr, s) =>
    match readHeader hdr with
    | .error e => (.threw e, s)
    | .ok (h, _) =>
      match h.rejection with
      | some e => (.threw e, s)
      | none =>
        match recvAll h.len.toNat s with
        | (none, s) => (.closed, s)
        | (some payload, s) => (h.verdict payload, s)

def headerFor (type : Msg) (payload : ByteString) : Header :=
  { magic := magic, version := version, type := Msg.byte type, flags := 0
    len := UInt32.ofNat payload.length, crc := crc32 payload }

namespace FramedEndpoint

def recv (s : Segments UInt8) : Received × Segments UInt8 := recvFrom Segments.readAll s

def send (type : Msg) (payload : ByteString) (out : Outlet UInt8) :
    Except RuntimeError Bool × Outlet UInt8 :=
  if maxPayload < payload.length then (.error ⟨"frame too large to send"⟩, out)
  else
    match out.writeAll (headerFor type payload).bytes with
    | (false, out) => (.ok false, out)
    | (true, out) =>
      if payload.isEmpty then (.ok true, out)
      else
        let x := out.writeAll payload
        (.ok x.1, x.2)

end FramedEndpoint

/-- The receiving end on a stream that is not cut into chunks. -/
def recvStream (bytes : ByteString) : Received × ByteString := recvFrom takeExactly bytes

/-- Two sources that give the same bytes give the same frames. -/
theorem recvFrom_related {σ τ : Type} {f : ℕ → σ → Option ByteString × σ}
    {g : ℕ → τ → Option ByteString × τ} {abs : σ → τ}
    (h : ∀ n s, (f n s).1 = (g n (abs s)).1 ∧ abs (f n s).2 = (g n (abs s)).2) (s : σ) :
    (recvFrom f s).1 = (recvFrom g (abs s)).1 ∧ abs (recvFrom f s).2 = (recvFrom g (abs s)).2 := by
  have hg : ∀ n s, g n (abs s) = ((f n s).1, abs (f n s).2) :=
    fun n s => Prod.ext (h n s).1.symm (h n s).2.symm
  unfold recvFrom
  rw [hg]
  obtain ⟨hdr, s₁⟩ := f headerSize s
  cases hdr with
  | none => exact ⟨rfl, rfl⟩
  | some hdr =>
      dsimp only
      cases readHeader hdr with
      | error e => exact ⟨rfl, rfl⟩
      | ok x =>
          dsimp only
          cases x.1.rejection with
          | some e => exact ⟨rfl, rfl⟩
          | none =>
              dsimp only
              rw [hg]
              obtain ⟨payload, s₂⟩ := f x.1.len.toNat s₁
              cases payload <;> exact ⟨rfl, rfl⟩

/-- The chunks of a socket do not matter. -/
theorem recv_refines (s : Segments UInt8) :
    (FramedEndpoint.recv s).1 = (recvStream s.stream).1 ∧
      (FramedEndpoint.recv s).2.stream = (recvStream s.stream).2 :=
  recvFrom_related (fun n s => s.readAll_eq_takeExactly n) s

section Headers

theorem length_header (h : Header) : h.bytes.length = headerSize := by
  simp [Header.bytes, Writer.u32, Writer.u16, Writer.u8, headerSize]

theorem returns_header (h : Header) : Returns h.bytes readHeader h := by
  have hmagic := (returns_u32 h.magic.toNat_lt).map UInt32.ofNat
  have hversion := (returns_u16 h.version.toNat_lt).map UInt16.ofNat
  have hlen := (returns_u32 h.len.toNat_lt).map UInt32.ofNat
  have hcrc := (returns_u32 h.crc.toNat_lt).map UInt32.ofNat
  rw [UInt32.ofNat_toNat] at hmagic hlen hcrc
  rw [UInt16.ofNat_toNat] at hversion
  refine returns_flatten (hmagic.bind <| hversion.bind <| (returns_u8 _).bind <|
    (returns_u8 _).bind <| hlen.bind <| hcrc.bind <| recovers_pure h) ?_
  simp

/-- Any sixteen bytes are a header. -/
theorem exists_header {bytes : ByteString} (hlength : bytes.length = headerSize) :
    ∃ h : Header, h.bytes = bytes := by
  match bytes, hlength with
  | [m₀, m₁, m₂, m₃, v₀, v₁, t, f, l₀, l₁, l₂, l₃, c₀, c₁, c₂, c₃], _ =>
    have hword : ∀ a b c d : UInt8, Writer.u32 (UInt32.ofNat (wordValue [a, b, c, d])).toNat =
        [a, b, c, d] := by
      intro a b c d
      have hlt : wordValue [a, b, c, d] < UInt32.size := by
        simpa [UInt32.size] using wordValue_lt [a, b, c, d]
      rw [UInt32.toNat_ofNat_of_lt' hlt]
      exact wordBytes_wordValue [a, b, c, d]
    have hhalf : Writer.u16 (UInt16.ofNat (wordValue [v₀, v₁])).toNat = [v₀, v₁] := by
      have hlt : wordValue [v₀, v₁] < UInt16.size := by
        simpa [UInt16.size] using wordValue_lt [v₀, v₁]
      rw [UInt16.toNat_ofNat_of_lt' hlt]
      exact wordBytes_wordValue [v₀, v₁]
    refine ⟨⟨UInt32.ofNat (wordValue [m₀, m₁, m₂, m₃]), UInt16.ofNat (wordValue [v₀, v₁]), t, f,
      UInt32.ofNat (wordValue [l₀, l₁, l₂, l₃]), UInt32.ofNat (wordValue [c₀, c₁, c₂, c₃])⟩, ?_⟩
    rw [Header.bytes, hword, hword, hword, hhalf]
    rfl

theorem takeExactly_header (h : Header) (rest : ByteString) :
    takeExactly headerSize (h.bytes ++ rest) = (some h.bytes, rest) := by
  rw [takeExactly, ← length_header h, if_pos (by simp)]
  simp

theorem readHeader_bytes (h : Header) : readHeader h.bytes = .ok (h, []) := by
  have hread := (returns_header h).apply []
  rwa [List.append_nil] at hread

theorem recvStream_of_rejected {h : Header} {e : RuntimeError} (hrejected : h.rejection = some e)
    (rest : ByteString) : recvStream (h.bytes ++ rest) = (.threw e, rest) := by
  unfold recvStream recvFrom
  rw [takeExactly_header]
  dsimp only
  rw [readHeader_bytes]
  dsimp only
  rw [hrejected]

theorem recvStream_of_accepted {h : Header} (haccepted : h.rejection = none) (rest : ByteString) :
    recvStream (h.bytes ++ rest) =
      (if h.len.toNat ≤ rest.length then h.verdict (rest.take h.len.toNat) else .closed,
        rest.drop h.len.toNat) := by
  unfold recvStream recvFrom
  rw [takeExactly_header]
  dsimp only
  rw [readHeader_bytes]
  dsimp only
  rw [haccepted]
  dsimp only
  rw [takeExactly]
  split_ifs <;> rfl

/-- A stream too short for a header. -/
theorem recvStream_of_short {bytes : ByteString} (h : bytes.length < headerSize) :
    recvStream bytes = (.closed, []) := by
  unfold recvStream recvFrom
  rw [takeExactly, if_neg (by omega), List.drop_eq_nil_of_le (by omega)]

inductive RecvCase : ByteString → Received × ByteString → Prop
  | short (bytes : ByteString) (h : bytes.length < headerSize) : RecvCase bytes (.closed, [])
  | rejected (h : Header) (e : RuntimeError) (rest : ByteString) (hrejected : h.rejection = some e) :
      RecvCase (h.bytes ++ rest) (.threw e, rest)
  | cut (h : Header) (rest : ByteString) (haccepted : h.rejection = none)
      (hshort : rest.length < h.len.toNat) : RecvCase (h.bytes ++ rest) (.closed, [])
  | whole (h : Header) (payload rest : ByteString) (haccepted : h.rejection = none)
      (hlength : payload.length = h.len.toNat) :
      RecvCase (h.bytes ++ (payload ++ rest)) (h.verdict payload, rest)

theorem recvStream_cases (bytes : ByteString) : RecvCase bytes (recvStream bytes) := by
  by_cases hshort : bytes.length < headerSize
  · rw [recvStream_of_short hshort]
    exact .short bytes hshort
  have htake : (bytes.take headerSize).length = headerSize := by
    rw [List.length_take]
    omega
  obtain ⟨h, hbytes⟩ := exists_header htake
  rw [← List.take_append_drop headerSize bytes, ← hbytes]
  generalize bytes.drop headerSize = rest
  cases hrejection : h.rejection with
  | some e =>
      rw [recvStream_of_rejected hrejection]
      exact .rejected h e rest hrejection
  | none =>
      rw [recvStream_of_accepted hrejection]
      by_cases hlen : h.len.toNat ≤ rest.length
      · rw [if_pos hlen]
        nth_rewrite 1 [← List.take_append_drop h.len.toNat rest]
        exact .whole h _ _ hrejection (by rw [List.length_take]; omega)
      · rw [if_neg hlen, List.drop_eq_nil_of_le (by omega)]
        exact .cut h rest hrejection (by omega)

theorem verdict_ne_closed (h : Header) (payload : ByteString) : h.verdict payload ≠ .closed := by
  unfold Header.verdict
  split_ifs <;> simp

end Headers

end Cgproto

end CostGovernor
