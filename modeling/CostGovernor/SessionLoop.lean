import CostGovernor.Transmission

/-!
# The loop of a session

A session reads frames until `recv` returns false; after an exception it answers
with a status and reads on from where `recv` stopped. What it reads depends on the
bytes of the stream only, and for frames that were sent it is their messages.
-/

namespace CostGovernor

open ByteStreams SegmentedStreams

namespace Cgproto

/-- What the loop gets from `recv` before it returns false, in at most `turns` turns. -/
def sessionReads {σ : Type} (recv : σ → Received × σ) : ℕ → σ → List Received
  | 0, _ => []
  | turns + 1, s =>
    if (recv s).1 = .closed then [] else (recv s).1 :: sessionReads recv turns (recv s).2

def Received.handled : Received → Option Frame
  | .frame type payload => some (type, payload)
  | _ => none

/-- The message of a turn; an exception is answered like an unknown type. -/
def Received.message : Received → Message
  | .frame type payload => Message.decode type payload
  | _ => .unknown

namespace Session

/-- Every turn but the last takes a header off the stream, so there are fewer turns
than bytes. -/
def run (s : Segments UInt8) : List Received :=
  sessionReads FramedEndpoint.recv s.stream.length s

def handled (s : Segments UInt8) : List Frame := (run s).filterMap Received.handled

def messages (s : Segments UInt8) : List Message := (run s).map Received.message

end Session

section Streams

theorem sessionReads_refines (turns : ℕ) (s : Segments UInt8) :
    sessionReads FramedEndpoint.recv turns s = sessionReads recvStream turns s.stream := by
  induction turns generalizing s with
  | zero => rfl
  | succ turns ih =>
      obtain ⟨hfst, hsnd⟩ := recv_refines s
      rw [sessionReads, sessionReads, ih, hfst, hsnd]

/-- A call that does not find the end takes at least a header. -/
theorem recvStream_consumes {bytes : ByteString} (h : (recvStream bytes).1 ≠ .closed) :
    (recvStream bytes).2.length + headerSize ≤ bytes.length := by
  have hcase := recvStream_cases bytes
  generalize recvStream bytes = x at h hcase ⊢
  cases hcase with
  | short => exact absurd rfl h
  | rejected hd e rest =>
      rw [List.length_append, length_header, Nat.add_comm]
  | cut => exact absurd rfl h
  | whole hd payload rest =>
      dsimp only
      rw [List.length_append, List.length_append, length_header]
      omega

/-- Bytes after the frame do not change what is received. -/
theorem recvStream_append {bytes : ByteString} (h : (recvStream bytes).1 ≠ .closed)
    (more : ByteString) :
    recvStream (bytes ++ more) = ((recvStream bytes).1, (recvStream bytes).2 ++ more) := by
  have hcase := recvStream_cases bytes
  generalize recvStream bytes = x at h hcase ⊢
  cases hcase with
  | short => exact absurd rfl h
  | rejected hd e rest hrejected => rw [List.append_assoc, recvStream_of_rejected hrejected]
  | cut => exact absurd rfl h
  | whole hd payload rest haccepted hlength =>
      rw [List.append_assoc, List.append_assoc, recvStream_of_accepted haccepted, ← hlength,
        if_pos (by simp), List.take_left, List.drop_left]

theorem sessionReads_of_closed {σ : Type} {recv : σ → Received × σ} {s : σ}
    (h : (recv s).1 = .closed) (turns : ℕ) : sessionReads recv turns s = [] := by
  cases turns with
  | zero => rfl
  | succ turns => rw [sessionReads, if_pos h]

theorem recvStream_nil : (recvStream []).1 = .closed := by
  rw [recvStream_of_short (by decide)]

/-- More turns than bytes change nothing. -/
theorem sessionReads_congr_turns {turns turns' : ℕ} {bytes : ByteString}
    (h : bytes.length ≤ turns) (h' : bytes.length ≤ turns') :
    sessionReads recvStream turns bytes = sessionReads recvStream turns' bytes := by
  induction turns generalizing turns' bytes with
  | zero =>
      obtain rfl := List.length_eq_zero_iff.1 (Nat.le_zero.1 h)
      exact (sessionReads_of_closed recvStream_nil turns').symm
  | succ turns ih =>
      by_cases hclosed : (recvStream bytes).1 = .closed
      · rw [sessionReads_of_closed hclosed, sessionReads_of_closed hclosed]
      · have hconsumes := recvStream_consumes hclosed
        unfold headerSize at hconsumes
        cases turns' with
        | zero => omega
        | succ turns' =>
            rw [sessionReads, if_neg hclosed, sessionReads, if_neg hclosed,
              ih (by omega) (show _ ≤ turns' by omega)]

def handledStream (bytes : ByteString) : List Frame :=
  (sessionReads recvStream bytes.length bytes).filterMap Received.handled

theorem handled_eq_handledStream (s : Segments UInt8) :
    Session.handled s = handledStream s.stream := by
  rw [Session.handled, Session.run, sessionReads_refines, handledStream]

theorem handledStream_of_closed {bytes : ByteString} (h : (recvStream bytes).1 = .closed) :
    handledStream bytes = [] := by
  rw [handledStream, sessionReads_of_closed h, List.filterMap_nil]

theorem handledStream_of_open {bytes : ByteString} (h : (recvStream bytes).1 ≠ .closed) :
    handledStream bytes =
      (recvStream bytes).1.handled.toList ++ handledStream (recvStream bytes).2 := by
  have hconsumes := recvStream_consumes h
  unfold headerSize at hconsumes
  obtain ⟨n, hn⟩ : ∃ n, bytes.length = n + 1 := ⟨bytes.length - 1, by omega⟩
  have hrest : sessionReads recvStream n (recvStream bytes).2 =
      sessionReads recvStream (recvStream bytes).2.length (recvStream bytes).2 :=
    sessionReads_congr_turns (by omega) le_rfl
  rw [handledStream, hn, sessionReads, if_neg h, hrest, List.filterMap_cons, handledStream]
  cases (recvStream bytes).1.handled <;> rfl

theorem handledStream_of_threw {bytes rest : ByteString} {e : RuntimeError}
    (h : recvStream bytes = (.threw e, rest)) : handledStream bytes = handledStream rest := by
  rw [handledStream_of_open (by rw [h]; simp), h]
  rfl

theorem handledStream_of_frame {bytes rest payload : ByteString} {type : Msg}
    (h : recvStream bytes = (.frame type payload, rest)) :
    handledStream bytes = (type, payload) :: handledStream rest := by
  rw [handledStream_of_open (by rw [h]; simp), h]
  rfl

theorem sessionReads_streamOf {frames : List Frame} (h : ∀ f ∈ frames, Sendable f) {turns : ℕ}
    (hturns : frames.length ≤ turns) :
    sessionReads recvStream turns (streamOf frames) = frames.map Frame.received := by
  induction frames generalizing turns with
  | nil => exact sessionReads_of_closed recvStream_nil turns
  | cons f fs ih =>
      obtain ⟨hf, hfs⟩ := List.forall_mem_cons.1 h
      obtain ⟨n, rfl⟩ : ∃ n, turns = n + 1 := ⟨turns - 1, by rw [List.length_cons] at hturns; omega⟩
      have hrecv := recvStream_frame hf (streamOf fs)
      rw [streamOf_cons, sessionReads, hrecv, if_neg (by simp), ih hfs (Nat.le_of_succ_le_succ hturns)]
      rfl

theorem length_le_streamOf (frames : List Frame) : frames.length ≤ (streamOf frames).length := by
  induction frames with
  | nil => exact le_rfl
  | cons f fs ih =>
      rw [streamOf_cons, List.length_cons, List.length_append, length_frameBytes, headerSize]
      omega

/-- The messages of frames that were sent are those of their payloads. -/
theorem messages_of_sent {frames : List Frame} (h : ∀ f ∈ frames, Sendable f) {s : Segments UInt8}
    (hs : s.stream = streamOf frames) :
    Session.messages s = frames.map (fun f => Message.decode f.1 f.2) := by
  rw [Session.messages, Session.run, sessionReads_refines, hs,
    sessionReads_streamOf h (length_le_streamOf frames), List.map_map]
  rfl

end Streams

end Cgproto

end CostGovernor
