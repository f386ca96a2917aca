import Redpine.ClientCalls
import Redpine.EndpointFlush

/-! The datagrams that an endpoint sends: each fits into the buffer of its receiver, passes the
checks there, and is read to its end. -/
namespace Redpine
open Machine Buffer Wire

namespace Wire

/-- What a frame of a stream consists of: an ack, a segment of at least one datagram, or both. -/
inductive StreamParts : FrameType → List StreamObject → Prop
  | ack (ack : StreamAck) : StreamParts .streamAck [.ack ack]
  | segment (header : StreamSegmentHeader) {datagrams : List Datagram} (hne : datagrams ≠ []) :
      StreamParts .streamSegment (.header header :: datagrams.map .datagram)
  | segmentAck (ack : StreamAck) (header : StreamSegmentHeader) {datagrams : List Datagram}
      (hne : datagrams ≠ []) :
      StreamParts .streamSegmentAck (.ack ack :: .header header :: datagrams.map .datagram)

/-- The payload is read as these objects one after the other, to its end. -/
def ReadsAll (bd : Build) (payloadBytes : Bytes) (objs : List StreamObject) : Prop :=
  readAll bd (PayloadReader.new payloadBytes) (objs.map (·.kind)) =
    .ok (objs.map some, ⟨payloadBytes, payloadBytes.length⟩)

/-- The frame has the type of this object, and its payload is read as the object, to its end. -/
def ReadsExactly (α : Type) [SimpleFrame α] (bd : Build) (frameBytes : Bytes) (obj : α) : Prop :=
  ∃ payloadBytes, readType bd frameBytes = .ok (some (SimpleFrame.frameType α)) ∧
    payload bd frameBytes = .ok payloadBytes ∧
    (PayloadReader.new payloadBytes).read α bd =
      .ok (some obj, ⟨payloadBytes, payloadBytes.length⟩)

/-- What is read from a frame: an object of a simple type, or the parts of a stream. -/
inductive Readable (bd : Build) (frameBytes : Bytes) : Prop
  | simple (t : SimpleType) (obj : t.Object) (hread : ReadsExactly t.Object bd frameBytes obj)
  | stream {frameType : FrameType} {payloadBytes : Bytes} {objs : List StreamObject}
      (htype : readType bd frameBytes = .ok (some frameType))
      (hpayload : payload bd frameBytes = .ok payloadBytes) (hparts : StreamParts frameType objs)
      (hread : ReadsAll bd payloadBytes objs)

structure WellFormed (bd : Build) (frameBytes : Bytes) : Prop where
  size_le : frameBytes.length ≤ 1472
  minimum : verifyMinimumSize frameBytes = true
  crc : verifyCrc bd frameBytes = .ok true
  readable : Readable bd frameBytes

section WellFormed
variable {bd : Build}

lemma readsAll_encode {objs : List StreamObject} (hvalid : ∀ obj ∈ objs, obj.Valid) :
    ReadsAll bd (objs.flatMap StreamObject.encode) objs :=
  readAll_encode (Nat.zero_le _) rfl hvalid

/-- An object that is all there is in the payload is read to the end. -/
lemma read_encode_end {α : Type} [Serial α] [LawfulSerial α] {obj : α}
    (hvalid : LawfulSerial.Valid obj) :
    (PayloadReader.new (LawfulSerial.encode obj)).read α bd =
      .ok (some obj, ⟨LawfulSerial.encode obj, (LawfulSerial.encode obj).length⟩) := by
  obtain ⟨⟨buffer, readIdx⟩, hread, hbuffer, hle, hdrop⟩ := PayloadReader.read_encode bd
    (r := PayloadReader.new (LawfulSerial.encode obj)) (Nat.zero_le _)
    (List.append_nil (LawfulSerial.encode obj)).symm hvalid
  obtain rfl : buffer = LawfulSerial.encode obj := hbuffer
  have hend : readIdx = (LawfulSerial.encode obj).length :=
    le_antisymm hle (List.drop_eq_nil_iff.mp hdrop)
  rw [hread, hend]

lemma readsExactly_frameOf {α : Type} [SimpleFrame α] [LawfulBlock α] {obj : α}
    (hvalid : LawfulBlock.Valid obj) :
    ReadsExactly α bd (frameOf (SimpleFrame.frameType α) (LawfulBlock.encode obj)) obj :=
  ⟨_, readType_frameOf bd _ _, payload_frameOf bd _ _, read_encode_end hvalid⟩

lemma frame_length_le (t : SimpleType) (obj : t.Object) : (t.frame obj).length ≤ 33 := by
  have hlen : (LawfulBlock.encode obj).length = BlockSerial.size t.Object :=
    LawfulBlock.encode_length obj
  rw [SimpleType.frame, frameOf_length, hlen]
  cases t <;> decide

lemma wellFormed_simple (t : SimpleType) (obj : t.Object) : WellFormed bd (t.frame obj) :=
  ⟨(frame_length_le t obj).trans (by decide), verifyMinimumSize_frameOf _ _,
    verifyCrc_frameOf bd _ _, .simple t obj (readsExactly_frameOf (t.valid obj))⟩

lemma wellFormed_stream {frameType : FrameType} {objs : List StreamObject}
    (hparts : StreamParts frameType objs) (hvalid : ∀ obj ∈ objs, obj.Valid)
    (hsize : (frameOf frameType (objs.flatMap StreamObject.encode)).length ≤ 1472) :
    WellFormed bd (frameOf frameType (objs.flatMap StreamObject.encode)) :=
  ⟨hsize, verifyMinimumSize_frameOf _ _, verifyCrc_frameOf bd _ _,
    .stream (readType_frameOf bd _ _) (payload_frameOf bd _ _) hparts (readsAll_encode hvalid)⟩

end WellFormed

end Wire

namespace Endpoint

/-- All that is sent is well formed. -/
def SendsWell (bd : Build) (calls : List HostCall) : Prop :=
  ∀ frameBytes, .sendFrame frameBytes ∈ calls → WellFormed bd frameBytes

section Frames
variable {bd : Build} {e e' : Endpoint} {nowMs : ℕ} {v : SenderView} {calls more : List HostCall}
  {nonces : ℕ → Bool} {sendAck ackRel nonce : Bool} {datagrams : List Datagram}

lemma SendsWell.nil (bd : Build) : SendsWell bd [] := fun _ hmem => by cases hmem

lemma SendsWell.append (h : SendsWell bd calls) (h' : SendsWell bd more) :
    SendsWell bd (calls ++ more) := by
  intro frameBytes hmem
  rcases List.mem_append.mp hmem with hmem | hmem
  · exact h frameBytes hmem
  · exact h' frameBytes hmem

lemma SendsWell.frame {frameBytes : Bytes} (h : WellFormed bd frameBytes) :
    SendsWell bd [.sendFrame frameBytes] := by
  intro frameBytes' hmem
  cases List.mem_singleton.mp hmem
  exact h

lemma SendsWell.receives (h : ∀ call ∈ calls, IsReceive call) : SendsWell bd calls :=
  fun _ hmem => absurd hmem (receive_not_frame h)

lemma flatMap_datagrams (datagrams : List Datagram) :
    (datagrams.map StreamObject.datagram).flatMap StreamObject.encode =
      datagrams.flatMap encodeDatagram := by
  rw [List.flatMap_map]
  rfl

/-- A frame with a segment, as its parts. -/
lemma segmentFrame_parts (e : Endpoint) (sendAck ackRel nonce : Bool) (hne : datagrams ≠ []) :
    ∃ objs, StreamParts (if sendAck then .streamSegmentAck else .streamSegment) objs ∧
      e.segmentFrame sendAck ackRel nonce datagrams =
        frameOf (if sendAck then .streamSegmentAck else .streamSegment)
          (objs.flatMap StreamObject.encode) ∧
      ∀ obj ∈ objs, obj = .ack (e.streamAckOf ackRel) ∨ (∃ header, obj = .header header) ∨
        ∃ datagram ∈ datagrams, obj = .datagram datagram := by
  have hdatagrams : ∀ obj ∈ datagrams.map StreamObject.datagram,
      ∃ datagram ∈ datagrams, obj = .datagram datagram := by
    intro obj hobj
    obtain ⟨datagram, hmem, rfl⟩ := List.mem_map.mp hobj
    exact ⟨datagram, hmem, rfl⟩
  cases sendAck with
  | false =>
    refine ⟨_, .segment ⟨e.segmentTx.nextId, nonce⟩ hne, ?_, fun obj hobj => ?_⟩
    · rw [List.flatMap_cons, flatMap_datagrams]
      rfl
    · rcases List.mem_cons.mp hobj with rfl | hobj
      · exact .inr (.inl ⟨_, rfl⟩)
      · exact .inr (.inr (hdatagrams obj hobj))
  | true =>
    refine ⟨_, .segmentAck (e.streamAckOf ackRel) ⟨e.segmentTx.nextId, nonce⟩ hne, ?_,
      fun obj hobj => ?_⟩
    · rw [List.flatMap_cons, List.flatMap_cons, flatMap_datagrams]
      rfl
    · rcases List.mem_cons.mp hobj with rfl | hobj
      · exact .inl rfl
      · rcases List.mem_cons.mp hobj with rfl | hobj
        · exact .inr (.inl ⟨_, rfl⟩)
        · exact .inr (.inr (hdatagrams obj hobj))

/-- A datagram of a segment is not longer than the frame it is sent in. -/
lemma SegmentStep.datagram_le (h : SegmentStep bd nonce nowMs e datagrams e' calls)
    {datagram : Datagram} (hmem : datagram ∈ datagrams) :
    datagram.data.length ≤ datagramDataSizeMax := by
  have hsum : datagram.data.length ≤ (datagrams.map (·.data.length)).sum :=
    List.single_le_sum (by simp) _ (List.mem_map_of_mem hmem)
  exact (hsum.trans h.size_le).trans (by decide)

lemma SegmentStep.wellFormed (h : SegmentStep bd nonce nowMs e datagrams e' calls)
    (e₀ : Endpoint) (sendAck ackRel : Bool)
    (hsize : (e₀.segmentFrame sendAck ackRel nonce datagrams).length ≤ frameSizeMax) :
    WellFormed bd (e₀.segmentFrame sendAck ackRel nonce datagrams) := by
  obtain ⟨objs, hparts, hframe, hobjs⟩ := e₀.segmentFrame_parts sendAck ackRel nonce h.nonempty
  rw [hframe] at hsize ⊢
  refine wellFormed_stream hparts (fun obj hobj => ?_) hsize
  rcases hobjs obj hobj with rfl | ⟨header, rfl⟩ | ⟨datagram, hmem, rfl⟩
  · exact e₀.streamAckOf_valid ackRel
  · trivial
  · exact h.datagram_le hmem

lemma wellFormed_ackFrame (e : Endpoint) (ackRel : Bool) : WellFormed bd (e.ackFrame ackRel) := by
  have hframe : e.ackFrame ackRel =
      frameOf .streamAck ([StreamObject.ack (e.streamAckOf ackRel)].flatMap StreamObject.encode) := by
    rw [List.flatMap_singleton]
    rfl
  have hsize := e.ackFrame_fits ackRel
  rw [hframe] at hsize ⊢
  refine wellFormed_stream (.ack _) (fun obj hobj => ?_) hsize
  rw [List.mem_singleton.mp hobj]
  exact e.streamAckOf_valid ackRel

/-- All frames of a flush are well formed, if they fit. -/
theorem FlushRun.sendsWell (h : FlushRun bd ackRel nowMs sendAck e calls e')
    (hfit : FramesFit calls) : SendsWell bd calls := by
  induction h with
  | stop hdata => exact .nil bd
  | @ack e e' calls hdata rest ih =>
    have hrest : FramesFit calls := fun f hmem => hfit f (List.mem_cons_of_mem _ hmem)
    exact (SendsWell.frame (e.wellFormed_ackFrame ackRel)).append (ih hrest)
  | @segment sendAck nonce e e' e'' datagrams timerCalls calls hdata hstep rest ih =>
    have hrest : FramesFit calls := fun f hmem =>
      hfit f (List.mem_append_right _ (List.mem_cons_of_mem _ hmem))
    have hsize := hfit _ (List.mem_append_right timerCalls List.mem_cons_self)
    have htimer : SendsWell bd timerCalls := fun _ hmem => absurd hmem hstep.timer.not_frame
    exact htimer.append
      ((SendsWell.frame (hstep.wellFormed e sendAck ackRel hsize)).append (ih hrest))

lemma flushStream_sendsWell (h : e.Sender bd False nowMs v)
    (hok : e.flushStream bd nonces sendAck ackRel nowMs = .ok (e', calls)) :
    SendsWell bd calls := by
  have hspec := h.flushStream_fits (fun hs : False => hs.elim) nonces sendAck ackRel
  obtain ⟨hrun, hfit⟩ := hspec.elim hok
  exact hrun.sendsWell hfit

lemma handleStreamFrame_sendsWell (h : e.Sender bd False nowMs v) {frameType : FrameType}
    {payloadBytes : Bytes}
    (hok : e.handleStreamFrame bd nonces frameType payloadBytes nowMs = .ok (e', calls)) :
    SendsWell bd calls := by
  obtain ⟨⟨readAck, readData⟩, -, hok⟩ := bind_eq_ok.mp hok
  obtain ⟨ackPart, hread, hok⟩ := bind_eq_ok.mp hok
  have hr : (PayloadReader.new payloadBytes).readIdx ≤
      (PayloadReader.new payloadBytes).buffer.length := Nat.zero_le _
  obtain ⟨hack, hframe⟩ := (readAckPart_spec h False.elim readAck hr).elim hread
  cases ackPart with
  | none =>
    cases hok
    exact .nil bd
  | some ackPart =>
    obtain ⟨e₁, r, ackCalls⟩ := ackPart
    obtain ⟨hbuffer, hle, -⟩ := hframe e₁ r ackCalls rfl
    obtain ⟨acked, discarded, cursor, h₁⟩ := hack.sender h
    obtain ⟨⟨e₂, d⟩, hread₂, hok⟩ := bind_eq_ok.mp hok
    have hrecv : Receives False e₁ r.buffer := False.elim
    have hdata := (readDataPart_spec readData (hbuffer ▸ hle) hrecv).elim hread₂
    obtain ⟨⟨e₃, flushCalls⟩, hflush, hok⟩ := bind_eq_ok.mp hok
    cases hok
    have hackCalls : SendsWell bd ackCalls := fun _ hmem => absurd hmem hack.not_frame
    have hreceived : SendsWell bd d.calls := .receives hdata.isReceive
    exact (hackCalls.append hreceived).append (flushStream_sendsWell (hdata.sender h₁) hflush)

lemma handleStreamSyncFrame_sendsWell (h : e.Sender bd False nowMs v) {payloadBytes : Bytes}
    (hok : e.handleStreamSyncFrame bd nonces payloadBytes nowMs = .ok (e', calls)) :
    SendsWell bd calls := by
  obtain ⟨⟨sync, r⟩, -, hok⟩ := bind_eq_ok.mp hok
  cases sync with
  | none =>
    cases hok
    exact .nil bd
  | some sync =>
    obtain ⟨⟨segmentRx, delivered⟩, -, hok⟩ := bind_eq_ok.mp hok
    obtain ⟨d, hdelivery, hok⟩ := bind_eq_ok.mp hok
    obtain ⟨⟨e₁, flushCalls⟩, hflush, hok⟩ := bind_eq_ok.mp hok
    cases hok
    have hreceived : SendsWell bd d.calls := .receives (segments_calls hdelivery)
    exact hreceived.append (flushStream_sendsWell (h.withDelivery _ _) hflush)

lemma wellFormed_closeFrame (e : Endpoint) : WellFormed bd e.closeFrame :=
  wellFormed_simple .close ⟨e.remoteNonce⟩

lemma wellFormed_closeAckFrame (e : Endpoint) : WellFormed bd e.closeAckFrame :=
  wellFormed_simple .closeAck ⟨e.remoteNonce⟩

lemma wellFormed_syncFrame (nextSegmentId : U32) : WellFormed bd (syncFrame nextSegmentId) :=
  wellFormed_simple .streamSync ⟨nextSegmentId⟩

/-- The calls that a timer makes when it fires in vain, or for the last time. -/
lemma handleRtoTimer_sendsWell (h : e.Sender bd False nowMs v) {action : TimeoutAction}
    (hok : e.handleRtoTimer bd nonces nowMs = .ok (e', calls, action)) : SendsWell bd calls := by
  have hquiet : ∀ (timeMs : ℕ), SendsWell bd [.setRtoTimer timeMs] := fun timeMs f hmem => by
    cases List.mem_singleton.mp hmem
  have hended : SendsWell bd [.onTimeout] := fun f hmem => by cases List.mem_singleton.mp hmem
  unfold Endpoint.handleRtoTimer at hok
  cases hs : e.stateId with
  | active =>
    simp only [hs] at hok
    obtain ⟨⟨e₁, calls₁, action₁⟩, hback, hok⟩ := bind_eq_ok.mp hok
    obtain ⟨timer, rtoSumMs, -, ⟨-, -, -, rfl, rfl⟩ | ⟨rtoMs, timeMs, hset, rfl, rfl, rfl⟩⟩ :=
      backOff_cases hback
    · cases hok
      exact hended
    · obtain ⟨⟨e₂, rest⟩, hresync, hok⟩ := bind_eq_ok.mp hok
      obtain ⟨ccState, hcc, hresync⟩ := bind_eq_ok.mp hresync
      dsimp only at hresync
      rw [sendStreamSyncFrame_eq, ok_bind] at hresync
      obtain ⟨⟨e₃, flushCalls⟩, hflush, hresync⟩ := bind_eq_ok.mp hresync
      cases hresync
      cases hok
      have hflushed := flushStream_sendsWell (h.resending rtoSumMs hset.rto_le hcc) hflush
      exact (hquiet timeMs).append ((SendsWell.frame (wellFormed_syncFrame _)).append hflushed)
  | closing =>
    simp only [hs] at hok
    obtain ⟨⟨e₁, calls₁, action₁⟩, hback, hok⟩ := bind_eq_ok.mp hok
    obtain ⟨timer, rtoSumMs, -, ⟨-, -, -, rfl, rfl⟩ | ⟨rtoMs, timeMs, hset, rfl, rfl, rfl⟩⟩ :=
      backOff_cases hback
    · cases hok
      exact hended
    · dsimp only at hok
      rw [sendCloseFrame_eq] at hok
      cases hok
      exact (hquiet timeMs).append (SendsWell.frame (wellFormed_closeFrame _))
  | _ =>
    simp only [hs] at hok
    cases hok
    exact .nil bd

/-- Whatever is called, and whatever has been received, all that is sent is well formed. -/
theorem perform_sendsWell (h : e.Sender bd False nowMs v) {input : Input}
    (hok : e.perform bd nonces input nowMs = .ok (e', calls)) : SendsWell bd calls := by
  have heffect := h.perform False.elim hok
  cases heffect with
  | flush hs hrun =>
    have hflush : e.flushStream bd nonces false false nowMs = .ok (e', calls) := by
      have hok : e.flush bd nonces nowMs = .ok (e', calls) := hok
      unfold Endpoint.flush at hok
      rwa [if_pos hs] at hok
    exact flushStream_sendsWell h hflush
  | stream hs hrun => exact handleStreamFrame_sendsWell h (hrun.handled hs hok)
  | @sync payloadBytes _ _ hs hrun =>
    have hframe : e.handleStreamSyncFrame bd nonces payloadBytes nowMs = .ok (e', calls) := by
      have hok : e.handleFrame bd nonces .streamSync payloadBytes nowMs = .ok (e', calls) := hok
      unfold Endpoint.handleFrame at hok
      simpa only [hs] using hok
    exact handleStreamSyncFrame_sendsWell h hframe
  | disconnect hs htime =>
    intro frameBytes hmem
    obtain rfl : frameBytes = e.closeFrame := by simpa using hmem
    exact e.wellFormed_closeFrame
  | close hs hvalid htime =>
    intro frameBytes hmem
    obtain rfl : frameBytes = e.closeAckFrame := by simpa using hmem
    exact e.wellFormed_closeAckFrame
  | closeAgain hs hvalid => exact .frame e.wellFormed_closeAckFrame
  | resend hs htimer hback hcc hflush =>
    obtain ⟨⟨e₁, calls₁, action⟩, htimer, hok⟩ := bind_eq_ok.mp hok
    cases hok
    exact handleRtoTimer_sendsWell h htimer
  | resendClose hs htimer hback =>
    intro frameBytes hmem
    obtain rfl : frameBytes = e.closeFrame := by simpa using hmem
    exact e.wellFormed_closeFrame
  | _ => exact fun _ hmem => by simp at hmem

end Frames

end Endpoint

end Redpine
