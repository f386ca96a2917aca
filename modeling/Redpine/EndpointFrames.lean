import Redpine.EndpointSession
import Redpine.WireRoundTrip

/-! The frames that an endpoint sends: those of a stream while it is active, and those that close
the connection as it leaves this state and afterwards. -/
namespace Redpine
open Machine Buffer Wire

namespace Endpoint

/-- The type of a frame that is sent in the active state only. -/
def IsStreamType : FrameType → Prop
  | .streamSegment | .streamAck | .streamSegmentAck | .streamSync => True
  | _ => False

def IsStreamFrame (frameBytes : Bytes) : Prop :=
  ∃ frameType p, IsStreamType frameType ∧ frameBytes = frameOf frameType p

/-- A frame sent by a call that leaves the connection in a state. -/
inductive Sent (e : Endpoint) (frameBytes : Bytes) : StateId → Prop
  | stream (hs : e.stateId = .active) (h : IsStreamFrame frameBytes) : Sent e frameBytes .active
  | close (h : frameBytes = e.closeFrame) : Sent e frameBytes .closing
  | closeAck (h : frameBytes = e.closeAckFrame) : Sent e frameBytes .closed

section Frames
variable {bd : Build} {e e' : Endpoint} {nowMs : ℕ} {input : Input} {calls : List HostCall}
  {frameBytes : Bytes}

lemma ArmTimer.not_frame {rtoMs : ℕ} {before after : Option RtoTimerState}
    (h : ArmTimer bd nowMs rtoMs before after calls) : .sendFrame frameBytes ∉ calls := by
  cases h <;> simp

lemma FlushRun.streamFrame {ackRel sendAck : Bool}
    (h : FlushRun bd ackRel nowMs sendAck e calls e') (hmem : .sendFrame frameBytes ∈ calls) :
    IsStreamFrame frameBytes := by
  induction h with
  | stop hdata => cases hmem
  | ack hdata rest ih =>
    rcases List.mem_cons.mp hmem with hmem | hmem
    · cases hmem
      exact ⟨.streamAck, _, trivial, rfl⟩
    · exact ih hmem
  | @segment sendAck _ _ _ _ _ _ _ hdata hstep rest ih =>
    rcases List.mem_append.mp hmem with hmem | hmem
    · exact absurd hmem hstep.timer.not_frame
    · rcases List.mem_cons.mp hmem with hmem | hmem
      · cases hmem
        exact ⟨_, _, by cases sendAck <;> trivial, rfl⟩
      · exact ih hmem

lemma receive_not_frame (h : ∀ call ∈ calls, IsReceive call) : .sendFrame frameBytes ∉ calls := by
  intro hmem
  obtain ⟨_, _, heq⟩ := h _ hmem
  cases heq

lemma AckPart.not_frame {r r' : PayloadReader} {readAck : Bool}
    (h : AckPart bd nowMs e r readAck (some (e', r', calls))) :
    .sendFrame frameBytes ∉ calls := by
  cases h with
  | absent => simp
  | ack hread hstep =>
    have htimer := hstep.timer
    generalize e.rtoTimerState = before at htimer
    generalize e'.rtoTimerState = after at htimer
    cases htimer <;> simp

lemma StreamRun.streamFrame {frameType : FrameType} {payloadBytes : Bytes}
    (h : StreamRun bd nowMs e frameType payloadBytes calls e')
    (hmem : .sendFrame frameBytes ∈ calls) : IsStreamFrame frameBytes := by
  cases h with
  | truncated hparts hack => cases hmem
  | run hparts hack hdata hflush =>
    rcases List.mem_append.mp hmem with hmem | hmem
    · rcases List.mem_append.mp hmem with hmem | hmem
      · exact absurd hmem hack.not_frame
      · exact absurd hmem (receive_not_frame hdata.isReceive)
    · exact hflush.streamFrame hmem

lemma SyncRun.streamFrame {payloadBytes : Bytes} (h : SyncRun bd nowMs e payloadBytes calls e')
    (hmem : .sendFrame frameBytes ∈ calls) : IsStreamFrame frameBytes := by
  cases h with
  | truncated => cases hmem
  | run hread hsync hdelivery hflush =>
    rcases List.mem_append.mp hmem with hmem | hmem
    · exact absurd hmem (receive_not_frame (segments_calls hdelivery))
    · exact hflush.streamFrame hmem

/-- A frame that is sent tells the state that its sender has entered. -/
theorem Effect.sent (h : Effect bd nowMs e input calls e') (hmem : .sendFrame frameBytes ∈ calls) :
    Sent e frameBytes e'.stateId := by
  cases h with
  | flush hs hflush =>
    rw [hflush.sendOnly.stateId_eq.trans hs]
    exact .stream hs (hflush.streamFrame hmem)
  | disconnect hs htime =>
    obtain rfl : frameBytes = e.closeFrame := by simpa using hmem
    exact .close rfl
  | stream hs hrun =>
    rw [hrun.session.stateId_eq.trans hs]
    exact .stream hs (hrun.streamFrame hmem)
  | sync hs hrun =>
    rw [hrun.session.stateId_eq.trans hs]
    exact .stream hs (hrun.streamFrame hmem)
  | close hs hvalid htime =>
    obtain rfl : frameBytes = e.closeAckFrame := by simpa using hmem
    exact .closeAck rfl
  | closeAgain hs hvalid =>
    obtain rfl : frameBytes = e.closeAckFrame := by simpa using hmem
    rw [hs]
    exact .closeAck rfl
  | resend hs htimer hback hcc hflush =>
    rw [hflush.sendOnly.stateId_eq.trans hs]
    rcases List.mem_cons.mp hmem with hmem | hmem
    · cases hmem
    · rcases List.mem_cons.mp hmem with hmem | hmem
      · cases hmem
        exact .stream hs ⟨.streamSync, _, trivial, rfl⟩
      · exact .stream hs (hflush.streamFrame hmem)
  | resendClose hs htimer hback =>
    obtain rfl : frameBytes = e.closeFrame := by simpa using hmem
    rw [show (e.rearmed _ _).stateId = .closing from hs]
    exact .close rfl
  | _ => simp at hmem

/-- What a frame is sent as is what it is read as. -/
lemma Sent.readType (bd : Build) {s' : StateId} (h : Sent e frameBytes s') :
    (s' = .active ∧ ∃ frameType, IsStreamType frameType ∧
      readType bd frameBytes = .ok (some frameType)) ∨
    (s' = .closing ∧ readType bd frameBytes = .ok (some .close) ∧
      payload bd frameBytes = .ok (LawfulBlock.encode (CloseFrame.mk e.remoteNonce))) ∨
    (s' = .closed ∧ readType bd frameBytes = .ok (some .closeAck) ∧
      payload bd frameBytes = .ok (LawfulBlock.encode (CloseAckFrame.mk e.remoteNonce))) := by
  cases h with
  | stream hs h =>
    obtain ⟨frameType, p, htype, rfl⟩ := h
    exact .inl ⟨rfl, frameType, htype, readType_frameOf bd frameType p⟩
  | close h =>
    subst h
    exact .inr (.inl ⟨rfl, readType_frameOf bd _ _, payload_frameOf bd _ _⟩)
  | closeAck h =>
    subst h
    exact .inr (.inr ⟨rfl, readType_frameOf bd _ _, payload_frameOf bd _ _⟩)

end Frames

section Validate
variable {bd : Build} {e : Endpoint} {remoteNonce : U32}

/-- Only the nonce in the frame counts. -/
lemma validateCloseFrame_encode :
    e.validateCloseFrame bd (LawfulBlock.encode (CloseFrame.mk remoteNonce)) =
      .ok (decide (remoteNonce = e.localNonce)) := by
  have hread : readPayload CloseFrame bd
      (LawfulBlock.encode (CloseFrame.mk remoteNonce) ++ []) = .ok (some ⟨remoteNonce⟩) :=
    readPayload_encode bd [] trivial
  rw [List.append_nil] at hread
  unfold validateCloseFrame
  rw [hread]
  rfl

lemma validateCloseAckFrame_encode :
    e.validateCloseAckFrame bd (LawfulBlock.encode (CloseAckFrame.mk remoteNonce)) =
      .ok (decide (remoteNonce = e.localNonce)) := by
  have hread : readPayload CloseAckFrame bd
      (LawfulBlock.encode (CloseAckFrame.mk remoteNonce) ++ []) = .ok (some ⟨remoteNonce⟩) :=
    readPayload_encode bd [] trivial
  rw [List.append_nil] at hread
  unfold validateCloseAckFrame
  rw [hread]
  rfl

end Validate

end Endpoint

end Redpine
