import CostGovernor.SessionLoop

/-!
# Frames as they stand in the stream

A frame whose header is rejected leaves its payload in the stream. When the payload is
skipped, because the session reads it as frames that are all rejected in turn and end where
it ends, the frames after it are handled as if it had been valid.
-/

namespace CostGovernor

open ByteStreams SegmentedStreams

namespace Cgproto

structure RawFrame where
  header : Header
  payload : ByteString
  stated : payload.length = header.len.toNat

namespace RawFrame

def bytes (f : RawFrame) : ByteString := f.header.bytes ++ f.payload

/-- Magic, version, size and checksum are right. -/
def Valid (f : RawFrame) : Prop := f.header.rejection = none ∧ crc32 f.payload = f.header.crc

instance : DecidablePred Valid := fun _ => inferInstanceAs (Decidable (_ ∧ _))

def content (f : RawFrame) : Frame := (Msg.byte.symm f.header.type, f.payload)

def stream (fs : List RawFrame) : ByteString := (fs.map bytes).flatten

def validContents (fs : List RawFrame) : List Frame :=
  (fs.filter (fun f => f.Valid)).map content

theorem not_valid_of_rejected {f : RawFrame} {e : RuntimeError}
    (h : f.header.rejection = some e) : ¬ f.Valid := by
  intro hvalid
  rw [hvalid.1] at h
  cases h

theorem validContents_of_valid {f : RawFrame} (h : f.Valid) (fs : List RawFrame) :
    validContents (f :: fs) = f.content :: validContents fs := by
  rw [validContents, List.filter_cons_of_pos (by simpa using h)]
  rfl

theorem validContents_of_invalid {f : RawFrame} (h : ¬ f.Valid) (fs : List RawFrame) :
    validContents (f :: fs) = validContents fs := by
  rw [validContents, List.filter_cons_of_neg (by simpa using h)]
  rfl

theorem stream_cons (f : RawFrame) (fs : List RawFrame) :
    stream (f :: fs) = f.bytes ++ stream fs := rfl

theorem recvStream_rejected {f : RawFrame} {e : RuntimeError} (h : f.header.rejection = some e)
    (rest : ByteString) : recvStream (f.bytes ++ rest) = (.threw e, f.payload ++ rest) := by
  rw [bytes, List.append_assoc, recvStream_of_rejected h]

theorem recvStream_accepted {f : RawFrame} (h : f.header.rejection = none) (rest : ByteString) :
    recvStream (f.bytes ++ rest) = (f.header.verdict f.payload, rest) := by
  rw [bytes, List.append_assoc, recvStream_of_accepted h, ← f.stated, if_pos (by simp),
    List.take_left, List.drop_left]

/-- A frame whose header is accepted is handled or dropped as a whole. -/
theorem handledStream_accepted {f : RawFrame} (h : f.header.rejection = none) (rest : ByteString) :
    handledStream (f.bytes ++ rest) = validContents [f] ++ handledStream rest := by
  have hrecv := recvStream_accepted h rest
  unfold Header.verdict at hrecv
  by_cases hcrc : crc32 f.payload = f.header.crc
  · rw [if_neg (not_not.2 hcrc)] at hrecv
    rw [handledStream_of_frame hrecv, validContents_of_valid ⟨h, hcrc⟩]
    rfl
  · rw [if_pos hcrc] at hrecv
    rw [handledStream_of_threw hrecv, validContents_of_invalid (fun hvalid => hcrc hvalid.2)]
    rfl

end RawFrame

/-- The bytes are rejected headers and frames with a wrong checksum, one after the other
up to their end. -/
inductive Skipped : ByteString → Prop
  | nil : Skipped []
  | header (h : Header) (e : RuntimeError) (rest : ByteString) (hrejected : h.rejection = some e)
      (hrest : Skipped rest) : Skipped (h.bytes ++ rest)
  | checksum (f : RawFrame) (rest : ByteString) (haccepted : f.header.rejection = none)
      (hcrc : crc32 f.payload ≠ f.header.crc) (hrest : Skipped rest) : Skipped (f.bytes ++ rest)

theorem Skipped.of_threw {bytes rest : ByteString} {e : RuntimeError}
    (h : recvStream bytes = (.threw e, rest)) (hrest : Skipped rest) : Skipped bytes := by
  have hcase := recvStream_cases bytes
  rw [h] at hcase
  generalize hx : (Received.threw e, rest) = x at hcase
  cases hcase with
  | short => cases hx
  | rejected hd e' rest' hrejected =>
      cases hx
      exact .header hd e rest hrejected hrest
  | cut => cases hx
  | whole hd payload rest' haccepted hlength =>
      unfold Header.verdict at hx
      split_ifs at hx with hcrc
      · cases hx
        rw [← List.append_assoc]
        exact .checksum ⟨hd, payload, hlength⟩ rest haccepted hcrc hrest
      · cases hx

theorem Skipped.handledStream_append {bytes : ByteString} (h : Skipped bytes) (more : ByteString) :
    handledStream (bytes ++ more) = handledStream more := by
  induction h with
  | nil => rfl
  | header hd e rest hrejected _ ih =>
      rw [List.append_assoc, handledStream_of_threw (recvStream_of_rejected hrejected _), ih]
  | checksum f rest haccepted hcrc _ ih =>
      have hrecv := RawFrame.recvStream_accepted haccepted (rest ++ more)
      rw [Header.verdict, if_pos hcrc] at hrecv
      rw [List.append_assoc, handledStream_of_threw hrecv, ih]

/-- The session is in step again after the frame. -/
def RawFrame.KeepsStep (f : RawFrame) : Prop := f.header.rejection = none ∨ Skipped f.payload

theorem RawFrame.KeepsStep.handledStream_append {f : RawFrame} (h : f.KeepsStep)
    (more : ByteString) :
    handledStream (f.bytes ++ more) = validContents [f] ++ handledStream more := by
  cases hrejection : f.header.rejection with
  | none => exact handledStream_accepted hrejection more
  | some e =>
      have hskipped : Skipped f.payload := by
        rcases h with haccepted | hskipped
        · rw [haccepted] at hrejection
          cases hrejection
        · exact hskipped
      rw [handledStream_of_threw (recvStream_rejected hrejection more),
        hskipped.handledStream_append, validContents_of_invalid (not_valid_of_rejected hrejection)]
      rfl

theorem handledStream_of_keepsStep {fs : List RawFrame} (h : ∀ f ∈ fs, f.KeepsStep) :
    handledStream (RawFrame.stream fs) = RawFrame.validContents fs := by
  induction fs with
  | nil => rfl
  | cons f fs ih =>
      obtain ⟨hf, hfs⟩ := List.forall_mem_cons.1 h
      rw [RawFrame.stream_cons, hf.handledStream_append, ih hfs, RawFrame.validContents,
        RawFrame.validContents, RawFrame.validContents, ← List.map_append, ← List.filter_append]
      rfl

end Cgproto

end CostGovernor
