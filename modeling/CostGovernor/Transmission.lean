import CostGovernor.Executions
import CostGovernor.Framing

/-!
# Sending and receiving lists of frames

What a list of sends leaves in the stream is the frames one after the other. A
receiver of any part of that stream gets the frames that are whole in it and then
the end, in however many pieces the bytes were taken from the sender and given to
the receiver.
-/

namespace CostGovernor

open ByteStreams SegmentedStreams Executions

namespace Cgproto

abbrev Frame := Msg × ByteString

def frameBytes (f : Frame) : ByteString := (headerFor f.1 f.2).bytes ++ f.2

def streamOf (frames : List Frame) : ByteString := (frames.map frameBytes).flatten

def Sendable (f : Frame) : Prop := f.2.length ≤ maxPayload

theorem streamOf_cons (f : Frame) (fs : List Frame) :
    streamOf (f :: fs) = frameBytes f ++ streamOf fs := rfl

theorem length_frameBytes (f : Frame) : (frameBytes f).length = headerSize + f.2.length := by
  rw [frameBytes, List.length_append, length_header]

theorem headerFor_len {f : Frame} (h : Sendable f) : (headerFor f.1 f.2).len.toNat = f.2.length := by
  have hlt : f.2.length < UInt32.size := h.trans_lt (by decide)
  exact UInt32.toNat_ofNat_of_lt' hlt

theorem headerFor_accepted {f : Frame} (h : Sendable f) : (headerFor f.1 f.2).rejection = none := by
  have hmagic : (headerFor f.1 f.2).magic = magic := rfl
  have hversion : (headerFor f.1 f.2).version = version := rfl
  unfold Header.rejection
  rw [if_neg (not_not.2 hmagic), if_neg (not_not.2 hversion), headerFor_len h, if_neg (not_lt.2 h)]

theorem headerFor_verdict (f : Frame) : (headerFor f.1 f.2).verdict f.2 = .frame f.1 f.2 := by
  have hcrc : crc32 f.2 = (headerFor f.1 f.2).crc := rfl
  have htype : Msg.byte.symm (headerFor f.1 f.2).type = f.1 := Msg.byte.symm_apply_apply f.1
  unfold Header.verdict
  rw [if_neg (not_not.2 hcrc), htype]

/-- A whole frame is received, whatever follows. -/
theorem recvStream_frame {f : Frame} (h : Sendable f) (rest : ByteString) :
    recvStream (frameBytes f ++ rest) = (.frame f.1 f.2, rest) := by
  rw [frameBytes, List.append_assoc, recvStream_of_accepted (headerFor_accepted h), headerFor_len h,
    if_pos (by simp), List.take_left, List.drop_left, headerFor_verdict]

/-- A frame that is cut anywhere is the end of the stream. -/
theorem recvStream_cut {f : Frame} (h : Sendable f) {cut : ℕ} (hcut : cut < (frameBytes f).length) :
    recvStream ((frameBytes f).take cut) = (.closed, []) := by
  rw [length_frameBytes] at hcut
  by_cases hheader : cut < headerSize
  · apply recvStream_of_short
    rw [List.length_take]
    omega
  · have hlength := length_header (headerFor f.1 f.2)
    rw [frameBytes, List.take_append, List.take_of_length_le (by omega), hlength,
      recvStream_of_accepted (headerFor_accepted h), headerFor_len h,
      if_neg (by rw [List.length_take]; omega),
      List.drop_eq_nil_of_le (by rw [List.length_take]; omega)]

def recvTimes {σ : Type} (recv : σ → Received × σ) : ℕ → σ → List Received
  | 0, _ => []
  | k + 1, s => (recv s).1 :: recvTimes recv k (recv s).2

theorem recvTimes_refines (k : ℕ) (s : Segments UInt8) :
    recvTimes FramedEndpoint.recv k s = recvTimes recvStream k s.stream := by
  induction k generalizing s with
  | zero => rfl
  | succ k ih =>
      obtain ⟨hfst, hsnd⟩ := recv_refines s
      rw [recvTimes, recvTimes, ih, hfst, hsnd]

theorem recvTimes_end (k : ℕ) : recvTimes recvStream k [] = List.replicate k .closed := by
  induction k with
  | zero => rfl
  | succ k ih =>
      have hend : recvStream [] = (.closed, []) := recvStream_of_short (by decide)
      rw [recvTimes, hend, ih, List.replicate_succ]

/-- The frames that are whole in the first `cut` bytes of their stream. -/
def completeFrames : ℕ → List Frame → List Frame
  | _, [] => []
  | cut, f :: fs =>
    if (frameBytes f).length ≤ cut then f :: completeFrames (cut - (frameBytes f).length) fs
    else []

theorem completeFrames_of_le {cut : ℕ} {frames : List Frame}
    (h : (streamOf frames).length ≤ cut) : completeFrames cut frames = frames := by
  induction frames generalizing cut with
  | nil => rfl
  | cons f fs ih =>
      rw [streamOf_cons, List.length_append] at h
      rw [completeFrames, if_pos (by omega), ih (by omega)]

def Frame.received (f : Frame) : Received := .frame f.1 f.2

theorem recvTimes_take {frames : List Frame} (h : ∀ f ∈ frames, Sendable f) (cut more : ℕ) :
    recvTimes recvStream ((completeFrames cut frames).length + more) ((streamOf frames).take cut) =
      (completeFrames cut frames).map Frame.received ++ List.replicate more .closed := by
  induction frames generalizing cut with
  | nil =>
      rw [completeFrames, List.length_nil, zero_add, streamOf, List.map_nil, List.flatten_nil,
        List.take_nil, recvTimes_end, List.map_nil, List.nil_append]
  | cons f fs ih =>
      obtain ⟨hf, hfs⟩ := List.forall_mem_cons.1 h
      rw [completeFrames, streamOf_cons, List.take_append]
      by_cases hwhole : (frameBytes f).length ≤ cut
      · rw [if_pos hwhole, List.take_of_length_le hwhole, List.length_cons, Nat.succ_add, recvTimes,
          recvStream_frame hf, ih hfs]
        rfl
      · rw [if_neg hwhole, Nat.sub_eq_zero_of_le (by omega), List.take_zero, List.append_nil,
          List.length_nil, zero_add, List.map_nil, List.nil_append]
        cases more with
        | zero => rfl
        | succ more =>
            rw [recvTimes, recvStream_cut hf (by omega), recvTimes_end, List.replicate_succ]

def sendFrame (out : Outlet UInt8) (f : Frame) : Except RuntimeError Bool × Outlet UInt8 :=
  FramedEndpoint.send f.1 f.2 out

theorem written_of_send {out : Outlet UInt8} {f : Frame} (h : (sendFrame out f).1 = .ok true) :
    (sendFrame out f).2.written = out.written ++ frameBytes f := by
  unfold sendFrame FramedEndpoint.send at h ⊢
  by_cases hlarge : maxPayload < f.2.length
  · rw [if_pos hlarge] at h
    cases h
  rw [if_neg hlarge] at h ⊢
  have hheader : (out.writeAll (headerFor f.1 f.2).bytes).1 = true →
      (out.writeAll (headerFor f.1 f.2).bytes).2.written =
        out.written ++ (headerFor f.1 f.2).bytes := out.written_of_writeAll
  generalize out.writeAll (headerFor f.1 f.2).bytes = x at h hheader ⊢
  obtain ⟨sent, out₁⟩ := x
  cases sent with
  | false => cases h
  | true =>
      have hwritten : out₁.written = out.written ++ (headerFor f.1 f.2).bytes := hheader rfl
      dsimp only at h ⊢
      by_cases hempty : f.2.isEmpty = true
      · rw [if_pos hempty, hwritten]
        simp [frameBytes, List.isEmpty_iff.1 hempty]
      · rw [if_neg hempty] at h ⊢
        rw [out₁.written_of_writeAll (Except.ok.inj h), hwritten, frameBytes, List.append_assoc]

def sendFrames (out : Outlet UInt8) (frames : List Frame) : Outlet UInt8 :=
  run (fun out f => (sendFrame out f).2) out frames

theorem written_of_sends {out : Outlet UInt8} {frames : List Frame}
    (h : ∀ r ∈ outputs sendFrame out frames, r = .ok true) :
    (sendFrames out frames).written = out.written ++ streamOf frames := by
  induction frames generalizing out with
  | nil => exact (List.append_nil _).symm
  | cons f fs ih =>
      obtain ⟨hf, hfs⟩ := List.forall_mem_cons.1 h
      have hrest := ih hfs
      rw [written_of_send hf, List.append_assoc] at hrest
      exact hrest

end Cgproto

open Cgproto

/-- Frames sent over any pattern of partial writes are received, over any pattern of
chunks, as they were sent and followed by the end; from a stream cut at any byte, the
frames that were whole before the cut. -/
theorem frames_received_as_sent (frames : List Frame) (hsize : ∀ f ∈ frames, Sendable f)
    (takes : List ℕ) (hsent : ∀ r ∈ outputs sendFrame { takes := takes } frames, r = .ok true)
    (s : Segments UInt8) (more : ℕ) :
    (s.stream = (sendFrames { takes := takes } frames).written →
      recvTimes FramedEndpoint.recv (frames.length + more) s =
        frames.map Frame.received ++ List.replicate more .closed) ∧
      ∀ cut, s.stream = (sendFrames { takes := takes } frames).written.take cut →
        recvTimes FramedEndpoint.recv ((completeFrames cut frames).length + more) s =
          (completeFrames cut frames).map Frame.received ++ List.replicate more .closed := by
  have hwritten : (sendFrames { takes := takes } frames).written = streamOf frames :=
    written_of_sends hsent
  rw [hwritten]
  have hcut : ∀ cut, s.stream = (streamOf frames).take cut →
      recvTimes FramedEndpoint.recv ((completeFrames cut frames).length + more) s =
        (completeFrames cut frames).map Frame.received ++ List.replicate more .closed := by
    intro cut hs
    rw [recvTimes_refines, hs]
    exact recvTimes_take hsize cut more
  refine ⟨?_, hcut⟩
  intro hs
  have hall : completeFrames (streamOf frames).length frames = frames := completeFrames_of_le le_rfl
  have h := hcut (streamOf frames).length (by rw [hs, List.take_length])
  rwa [hall] at h

def shortFrames : List Frame := [(.ping, []), (.hello, [1, 2, 3]), (.quit, [])]

theorem frames_received_as_sent_shortFrames :
    recvTimes FramedEndpoint.recv 4
        ⟨[(streamOf shortFrames).take 5, (streamOf shortFrames).drop 5], by decide⟩ =
      shortFrames.map Frame.received ++ [.closed] := by
  have hsent : ∀ r ∈ outputs sendFrame { takes := List.replicate 20 7 } shortFrames, r = .ok true := by
    decide
  exact (frames_received_as_sent shortFrames (by simp [shortFrames, Sendable, maxPayload])
    (List.replicate 20 7) hsent _ 1).1 (by decide)

end CostGovernor
