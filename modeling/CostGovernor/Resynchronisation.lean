import CostGovernor.RawFrames

/-!
# Rejected frames in the stream of a session

A frame whose header is rejected leaves its payload in the stream, and the session
reads the payload as frames. It finds back into step exactly when those are all
rejected in turn and end where the payload ends. A frame with a wrong checksum has
been read as a whole and does no harm.
-/

namespace CostGovernor

open ByteStreams SegmentedStreams

namespace Cgproto

section Lost

def blankFrame (type : UInt8) : RawFrame where
  header := { magic := magic, version := version, type := type, flags := 0, len := 0, crc := 0 }
  payload := []
  stated := rfl

theorem blankFrame_valid (type : UInt8) : (blankFrame type).Valid := by
  have hcrc : crc32 [] = 0 := by decide
  exact ⟨rfl, hcrc⟩

theorem length_blankFrame (type : UInt8) : (blankFrame type).bytes.length = headerSize := by
  rw [RawFrame.bytes, List.length_append, length_header]
  rfl

/-- The type stands after the magic and the version. -/
theorem getElem?_header (h : Header) (rest : ByteString) : (h.bytes ++ rest)[6]? = some h.type := rfl

/-- Shifted by one byte or more, the byte in the place of the type does not depend on it. -/
theorem getElem?_append_blankFrame {bytes : ByteString} (h : bytes ≠ []) (type type' : UInt8) :
    (bytes ++ (blankFrame type).bytes)[6]? = (bytes ++ (blankFrame type').bytes)[6]? := by
  have hpos := List.length_pos_iff.2 h
  by_cases hlength : 6 < bytes.length
  · rw [List.getElem?_append_left hlength, List.getElem?_append_left hlength]
  · rw [List.getElem?_append_right (by omega), List.getElem?_append_right (by omega)]
    have hsix : ∀ t n, n < 6 → (blankFrame t).bytes[n]? =
        (Writer.u32 magic.toNat ++ Writer.u16 version.toNat)[n]? := by
      intro t n hn
      have hlt : n < (Writer.u32 magic.toNat ++ Writer.u16 version.toNat).length := hn
      rw [← List.getElem?_append_left hlt]
      rfl
    rw [hsix type _ (by omega), hsix type' _ (by omega)]

/-- Bytes that end in the middle of a frame take what follows as its rest, and leave
less than a header of it. -/
theorem rest_lt_of_closed {bytes more : ByteString} (h : (recvStream bytes).1 = .closed)
    (hmore : more.length = headerSize) : (recvStream (bytes ++ more)).2.length < headerSize := by
  have hpos : 0 < headerSize := by decide
  have hcase := recvStream_cases bytes
  generalize recvStream bytes = x at h hcase
  cases hcase with
  | short hshort =>
      have hmorecase := recvStream_cases (bytes ++ more)
      have hlength : (bytes ++ more).length = bytes.length + headerSize := by
        rw [List.length_append, hmore]
      generalize recvStream (bytes ++ more) = y at hmorecase ⊢
      generalize bytes ++ more = both at hlength hmorecase
      cases hmorecase with
      | short => exact hpos
      | rejected hd e rest =>
          rw [List.length_append, length_header] at hlength
          dsimp only
          omega
      | cut => exact hpos
      | whole hd payload rest =>
          rw [List.length_append, List.length_append, length_header] at hlength
          dsimp only
          omega
  | rejected => cases h
  | cut hd rest haccepted hshort =>
      rw [List.append_assoc, recvStream_of_accepted haccepted]
      dsimp only
      rw [List.length_drop, List.length_append]
      omega
  | whole hd payload rest => exact absurd h (verdict_ne_closed hd payload)

/-- With too little left for a second frame, the only handled frame is the first received. -/
theorem type_of_handled_singleton {bytes : ByteString} {f : Frame}
    (hrest : (recvStream bytes).2.length < headerSize) (h : handledStream bytes = [f]) :
    bytes[6]? = some (Msg.byte f.1) := by
  have hend : handledStream (recvStream bytes).2 = [] := by
    apply handledStream_of_closed
    rw [recvStream_of_short hrest]
  have hcase := recvStream_cases bytes
  by_cases hclosed : (recvStream bytes).1 = .closed
  · rw [handledStream_of_closed hclosed] at h
    cases h
  rw [handledStream_of_open hclosed, hend, List.append_nil] at h
  generalize recvStream bytes = x at h hcase hclosed
  cases hcase with
  | short => exact absurd rfl hclosed
  | rejected => cases h
  | cut => exact absurd rfl hclosed
  | whole hd payload rest =>
      dsimp only at h
      unfold Header.verdict at h
      split_ifs at h
      · cases h
      · have htype : Msg.byte.symm hd.type = f.1 := congrArg Prod.fst (List.singleton_inj.1 h)
        rw [getElem?_header, ← htype, Equiv.apply_symm_apply]

/-- Bytes that are not skipped make the session handle too much or lose a valid frame. -/
theorem exists_out_of_step {bytes : ByteString} (h : ¬ Skipped bytes) :
    ∃ later : List RawFrame, (∀ f ∈ later, f.Valid) ∧
      handledStream (bytes ++ RawFrame.stream later) ≠ RawFrame.validContents later := by
  induction hn : bytes.length using Nat.strong_induction_on generalizing bytes with
  | _ n ih =>
    cases hx : recvStream bytes with
    | mk x rest =>
      cases x with
      | frame type payload =>
          refine ⟨[], by simp, ?_⟩
          rw [RawFrame.stream, List.map_nil, List.flatten_nil, List.append_nil,
            handledStream_of_frame hx]
          exact List.cons_ne_nil _ _
      | threw e =>
          have hopen : (recvStream bytes).1 ≠ .closed := by rw [hx]; simp
          have hconsumes := recvStream_consumes hopen
          rw [hx] at hconsumes
          have hlt : rest.length < n := by
            unfold headerSize at hconsumes
            dsimp only at hconsumes
            omega
          obtain ⟨later, hvalid, hne⟩ :=
            ih rest.length hlt (fun hrest => h (.of_threw hx hrest)) rfl
          refine ⟨later, hvalid, ?_⟩
          have happend := recvStream_append hopen (RawFrame.stream later)
          rw [hx] at happend
          rwa [handledStream_of_threw happend]
      | closed =>
          have hclosed : (recvStream bytes).1 = .closed := by rw [hx]
          have hnonempty : bytes ≠ [] := by
            rintro rfl
            exact h .nil
          -- one of two frames that differ in their type is not handled as it was sent
          by_contra hnone
          push Not at hnone
          have htype : ∀ t, (bytes ++ (blankFrame t).bytes)[6]? = some t := by
            intro t
            have hone := hnone [blankFrame t] (by simp [blankFrame_valid])
            have hsingle : RawFrame.stream [blankFrame t] = (blankFrame t).bytes :=
              List.append_nil _
            have hcontents : RawFrame.validContents [blankFrame t] = [(blankFrame t).content] :=
              RawFrame.validContents_of_valid (blankFrame_valid t) []
            rw [hsingle, hcontents] at hone
            have hsix := type_of_handled_singleton
              (rest_lt_of_closed hclosed (length_blankFrame t)) hone
            rw [hsix]
            exact congrArg some (Msg.byte.apply_symm_apply t)
          have hsame := getElem?_append_blankFrame hnonempty 0 1
          rw [htype, htype] at hsame
          cases hsame

end Lost

end Cgproto

open Cgproto

/-- A session handles exactly the valid frames of every stream made of valid frames and
of frames from a list exactly when each frame of the list has an accepted header or a
payload that is itself rejected frame by frame. -/
theorem session_stays_in_step_iff (frames : List RawFrame) :
    (∀ sent : List RawFrame, (∀ f ∈ sent, f ∈ frames ∨ f.Valid) →
        ∀ s : Segments UInt8, s.stream = RawFrame.stream sent →
          Session.handled s = RawFrame.validContents sent) ↔
      ∀ f ∈ frames, f.KeepsStep := by
  constructor
  · intro h f hf
    cases hrejection : f.header.rejection with
    | none => exact Or.inl hrejection
    | some e =>
        right
        by_contra hskipped
        obtain ⟨later, hvalid, hne⟩ := exists_out_of_step hskipped
        have hsent : ∀ f' ∈ f :: later, f' ∈ frames ∨ f'.Valid :=
          List.forall_mem_cons.2 ⟨Or.inl hf, fun f' hf' => Or.inr (hvalid f' hf')⟩
        have hhandled := h (f :: later) hsent (Segments.whole (RawFrame.stream (f :: later)))
          (Segments.stream_whole _)
        rw [handled_eq_handledStream, Segments.stream_whole, RawFrame.stream_cons,
          handledStream_of_threw (RawFrame.recvStream_rejected hrejection _),
          RawFrame.validContents_of_invalid (RawFrame.not_valid_of_rejected hrejection)] at hhandled
        exact hne hhandled
  · intro h sent hsent s hs
    rw [handled_eq_handledStream, hs]
    apply handledStream_of_keepsStep
    intro f hf
    rcases hsent f hf with hmem | hvalid
    · exact h f hmem
    · exact Or.inl hvalid.1

/-- A frame of another version whose payload is a QUIT frame. -/
def smugglingFrame : RawFrame where
  header := { magic := magic, version := 2, type := 1, flags := 0, len := 16
              crc := crc32 (headerFor .quit []).bytes }
  payload := (headerFor .quit []).bytes
  stated := by decide

theorem payload_of_rejected_frame_handled :
    smugglingFrame.header.rejection = some ⟨"frame version mismatch"⟩ ∧
      RawFrame.validContents [smugglingFrame] = [] ∧
      Session.handled (Segments.whole (RawFrame.stream [smugglingFrame])) = [(.quit, [])] := by
  decide +kernel

end CostGovernor
