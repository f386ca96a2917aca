import Redpine.EndpointSender
import Redpine.EndpointReceiver

/-! Everything a call on an endpoint can do. Each call ends in one of the listed effects, and
the handling of a frame does not fail where the endpoint is in a sound state. -/
namespace Redpine
open Machine Buffer Wire SerialId Reorder

namespace Endpoint

/-- The calls of a host. -/
inductive Input
  | init
  | enqueue (packetBytes : Bytes) (mode : SendMode)
  | flush
  | disconnect
  | frame (frameType : FrameType) (payloadBytes : Bytes)
  | rtoTimer
  deriving DecidableEq

def perform (bd : Build) (nonces : ℕ → Bool) (e : Endpoint) (input : Input) (nowMs : ℕ) :
    Exec (Endpoint × List HostCall) :=
  match input with
  | .init => e.init bd
  | .enqueue packetBytes mode => do
      let e ← e.enqueue bd packetBytes mode nowMs
      return (e, [])
  | .flush => e.flush bd nonces nowMs
  | .disconnect => e.disconnect bd nowMs
  | .frame frameType payloadBytes => e.handleFrame bd nonces frameType payloadBytes nowMs
  | .rtoTimer => do
      let (e, calls, _) ← e.handleRtoTimer bd nonces nowMs
      return (e, calls)

def closeFrame (e : Endpoint) : Bytes :=
  frameOf .close (LawfulBlock.encode (CloseFrame.mk e.remoteNonce))

def closeAckFrame (e : Endpoint) : Bytes :=
  frameOf .closeAck (LawfulBlock.encode (CloseAckFrame.mk e.remoteNonce))

def syncFrame (nextSegmentId : U32) : Bytes :=
  frameOf .streamSync (LawfulBlock.encode (StreamSync.mk nextSegmentId))

lemma sendCloseFrame_eq (bd : Build) (e : Endpoint) :
    e.sendCloseFrame bd = .ok [.sendFrame e.closeFrame] := by
  unfold sendCloseFrame
  rw [simpleWrite_eq trivial (by decide) (by decide)]
  rfl

lemma sendCloseAckFrame_eq (bd : Build) (e : Endpoint) :
    e.sendCloseAckFrame bd = .ok [.sendFrame e.closeAckFrame] := by
  unfold sendCloseAckFrame
  rw [simpleWrite_eq trivial (by decide) (by decide)]
  rfl

lemma sendStreamSyncFrame_eq (bd : Build) (nextSegmentId : U32) :
    sendStreamSyncFrame bd nextSegmentId = .ok [.sendFrame (syncFrame nextSegmentId)] := by
  unfold sendStreamSyncFrame
  rw [simpleWrite_eq trivial (by decide) (by decide)]
  rfl

section Effects
variable (bd : Build) (nowMs : ℕ)

/-- The first part of a stream frame: the ack is processed, or there is none, or it cannot
be read. -/
inductive AckPart (e : Endpoint) (r : PayloadReader) :
    Bool → Option (Endpoint × PayloadReader × List HostCall) → Prop
  | absent : AckPart e r false (some (e, r, []))
  | unreadable {r' : PayloadReader} (hread : r.read StreamAck bd = .ok (none, r')) :
      AckPart e r true none
  | ack {ack : StreamAck} {r' : PayloadReader} {e' : Endpoint} {calls : List HostCall}
      (hread : r.read StreamAck bd = .ok (some ack, r')) (h : AckStep bd nowMs e ack e' calls) :
      AckPart e r true (some (e', r', calls))

/-- The second part of a stream frame: the segment is received, or there is none. -/
inductive DataPart (e : Endpoint) (r : PayloadReader) : Endpoint × Delivery → Prop
  | absent : DataPart e r (e, e.delivery)
  | segment {header : StreamSegmentHeader} {r' : PayloadReader} {segmentBytes : Bytes}
      {segmentRx : SegmentRx} {delivered : List Bytes} {d : Delivery}
      (hread : r.read StreamSegmentHeader bd = .ok (some header, r'))
      (hbytes : r'.remainingBytes = .ok segmentBytes)
      (hreceive : e.segmentRx.receive bd header.id header.nonce segmentBytes =
        .ok (segmentRx, delivered))
      (hdelivery : e.delivery.segments bd delivered = .ok d) :
      DataPart e r (e.withDelivery segmentRx d, d)

inductive StreamRun (e : Endpoint) (frameType : FrameType) (payloadBytes : Bytes) :
    List HostCall → Endpoint → Prop
  | truncated {readData : Bool} (hparts : streamParts frameType = .ok (true, readData))
      (hack : AckPart bd nowMs e (PayloadReader.new payloadBytes) true none) :
      StreamRun e frameType payloadBytes [] e
  | run {readAck readData : Bool} {e₁ e₂ e' : Endpoint} {r : PayloadReader} {d : Delivery}
      {ackCalls flushCalls : List HostCall}
      (hparts : streamParts frameType = .ok (readAck, readData))
      (hack : AckPart bd nowMs e (PayloadReader.new payloadBytes) readAck (some (e₁, r, ackCalls)))
      (hdata : DataPart bd e₁ r (e₂, d))
      (hflush : FlushRun bd d.ackRel nowMs d.sendAck e₂ flushCalls e') :
      StreamRun e frameType payloadBytes (ackCalls ++ d.calls ++ flushCalls) e'

inductive SyncRun (e : Endpoint) (payloadBytes : Bytes) : List HostCall → Endpoint → Prop
  | truncated : SyncRun e payloadBytes [] e
  | run {sync : StreamSync} {r : PayloadReader} {segmentRx : SegmentRx} {delivered : List Bytes}
      {d : Delivery} {flushCalls : List HostCall} {e' : Endpoint}
      (hread : (PayloadReader.new payloadBytes).read StreamSync bd = .ok (some sync, r))
      (hsync : e.segmentRx.sync sync.nextSegmentId = .ok (segmentRx, delivered))
      (hdelivery : e.delivery.segments bd delivered = .ok d)
      (hflush : FlushRun bd true nowMs true
        (e.withDelivery segmentRx { d with unreliableRx := d.unreliableRx.reset })
        flushCalls e') :
      SyncRun e payloadBytes (d.calls ++ flushCalls) e'

/-- An endpoint whose timeout has been doubled, or that has sent its close frame. -/
def rearmed (e : Endpoint) (rtoMs rtoSumMs : ℕ) : Endpoint :=
  { e with rtoMs := rtoMs, rtoTimerState := some ⟨rtoMs, rtoSumMs⟩ }

/-- The sending half at the start of a resynchronization. -/
def resending (e : Endpoint) (ccState : AimdReno) : Endpoint :=
  { e with ccState := ccState, fragmentTx := e.fragmentTx.handleTimeout }

def enteredClosing (e : Endpoint) : Endpoint :=
  { e with stateId := .closing, rtoTimerState := some ⟨e.rtoMs, 0⟩ }

def enteredClosed (e : Endpoint) : Endpoint :=
  { e with stateId := .closed, rtoTimerState := none }

def enteredZombie (e : Endpoint) (timer : Option RtoTimerState) : Endpoint :=
  { e with stateId := .zombie, rtoTimerState := timer }

/-- The timer is set again with a longer timeout. -/
structure BackOff (timer : RtoTimerState) (rtoMs rtoSumMs timeMs : ℕ) : Prop where
  rto_le : rtoMs ≤ rtoMaxMs
  sum : checkedAdd bd 64 timer.rtoSumMs timer.rtoMs = .ok rtoSumMs
  time : checkedAdd bd 64 nowMs rtoMs = .ok timeMs

/-- What a call does: the calls on the host and the endpoint afterwards. -/
inductive Effect (e : Endpoint) : Input → List HostCall → Endpoint → Prop
  | init (hs : bd = .debug → e.stateId = .preInit) :
      Effect e .init [.onConnect] { e with stateId := .active }
  | enqueue {packetBytes : Bytes} {mode : SendMode} {fragmentTx : FragmentTxBuffers}
      (hs : e.stateId = .active)
      (hqueue : e.fragmentTx.enqueue bd packetBytes mode nowMs = .ok fragmentTx) :
      Effect e (.enqueue packetBytes mode) [] { e with fragmentTx := fragmentTx }
  | enqueueIgnored {packetBytes : Bytes} {mode : SendMode} (hs : e.stateId ≠ .active) :
      Effect e (.enqueue packetBytes mode) [] e
  | flush {calls : List HostCall} {e' : Endpoint} (hs : e.stateId = .active)
      (hflush : FlushRun bd false nowMs false e calls e') : Effect e .flush calls e'
  | flushIgnored (hs : e.stateId ≠ .active) : Effect e .flush [] e
  | disconnect {timeMs : ℕ} (hs : e.stateId = .active)
      (htime : checkedAdd bd 64 nowMs e.rtoMs = .ok timeMs) :
      Effect e .disconnect [.setRtoTimer timeMs, .sendFrame e.closeFrame] e.enteredClosing
  | disconnectIgnored (hs : e.stateId ≠ .active) : Effect e .disconnect [] e
  | stream {frameType : FrameType} {payloadBytes : Bytes} {calls : List HostCall} {e' : Endpoint}
      (hs : e.stateId = .active) (hrun : StreamRun bd nowMs e frameType payloadBytes calls e') :
      Effect e (.frame frameType payloadBytes) calls e'
  | sync {payloadBytes : Bytes} {calls : List HostCall} {e' : Endpoint}
      (hs : e.stateId = .active) (hrun : SyncRun bd nowMs e payloadBytes calls e') :
      Effect e (.frame .streamSync payloadBytes) calls e'
  | close {payloadBytes : Bytes} {timeMs : ℕ} (hs : e.stateId = .active ∨ e.stateId = .closing)
      (hvalid : e.validateCloseFrame bd payloadBytes = .ok true)
      (htime : checkedAdd bd 64 nowMs disconnectTimeoutMs = .ok timeMs) :
      Effect e (.frame .close payloadBytes)
        [.sendFrame e.closeAckFrame, .onDisconnect, .setRtoTimer timeMs] e.enteredClosed
  | closeAck {payloadBytes : Bytes} {timeMs : ℕ} (hs : e.stateId = .closing)
      (hvalid : e.validateCloseAckFrame bd payloadBytes = .ok true)
      (htime : checkedAdd bd 64 nowMs disconnectTimeoutMs = .ok timeMs) :
      Effect e (.frame .closeAck payloadBytes) [.onDisconnect, .setRtoTimer timeMs]
        e.enteredClosed
  | closeAgain {payloadBytes : Bytes} (hs : e.stateId = .closed)
      (hvalid : e.validateCloseFrame bd payloadBytes = .ok true) :
      Effect e (.frame .close payloadBytes) [.sendFrame e.closeAckFrame] e
  | frameIgnored {frameType : FrameType} {payloadBytes : Bytes}
      (hs : e.stateId = .active → ∀ parts, streamParts frameType ≠ .ok parts) :
      Effect e (.frame frameType payloadBytes) [] e
  | timeout {timer : RtoTimerState} {rtoSumMs : ℕ}
      (hs : e.stateId = .active ∨ e.stateId = .closing) (htimer : e.rtoTimerState = some timer)
      (hsum : checkedAdd bd 64 timer.rtoSumMs timer.rtoMs = .ok rtoSumMs)
      (htimeout : e.config.timeoutTimeMs ≤ rtoSumMs) :
      Effect e .rtoTimer [.onTimeout] (e.enteredZombie (some ⟨timer.rtoMs, rtoSumMs⟩))
  | resend {timer : RtoTimerState} {rtoMs rtoSumMs timeMs : ℕ} {ccState : AimdReno}
      {calls : List HostCall} {e' : Endpoint} (hs : e.stateId = .active)
      (htimer : e.rtoTimerState = some timer)
      (hback : BackOff bd nowMs timer rtoMs rtoSumMs timeMs)
      (hcc : e.ccState.handleTimeout bd = .ok ccState)
      (hflush : FlushRun bd false nowMs false ((e.rearmed rtoMs rtoSumMs).resending ccState)
        calls e') :
      Effect e .rtoTimer
        (.setRtoTimer timeMs :: .sendFrame (syncFrame e.segmentTx.nextId) :: calls) e'
  | resendClose {timer : RtoTimerState} {rtoMs rtoSumMs timeMs : ℕ} (hs : e.stateId = .closing)
      (htimer : e.rtoTimerState = some timer)
      (hback : BackOff bd nowMs timer rtoMs rtoSumMs timeMs) :
      Effect e .rtoTimer [.setRtoTimer timeMs, .sendFrame e.closeFrame]
        (e.rearmed rtoMs rtoSumMs)
  | destroyed (hs : e.stateId = .closed) :
      Effect e .rtoTimer [] (e.enteredZombie e.rtoTimerState)
  | timerIgnored (hs : e.stateId = .preInit ∨ e.stateId = .zombie) : Effect e .rtoTimer [] e

end Effects

section Invariant
variable {bd : Build} {safe : Prop} {e e' : Endpoint} {nowMs : ℕ} {v : SenderView}
  {input : Input} {calls : List HostCall}

lemma Sender.withDelivery (h : e.Sender bd safe nowMs v) (segmentRx : SegmentRx) (d : Delivery) :
    (e.withDelivery segmentRx d).Sender bd safe nowMs v :=
  ⟨h.1, h.2, h.3, h.4, h.5, h.6⟩

lemma DataPart.sender {r : PayloadReader} {d : Delivery} (hs : DataPart bd e r (e', d))
    (h : e.Sender bd safe nowMs v) : e'.Sender bd safe nowMs v := by
  cases hs with
  | absent => exact h
  | segment hread hbytes hreceive hdelivery => exact h.withDelivery _ _

lemma AckPart.sender {r r' : PayloadReader} {readAck : Bool}
    (hs : AckPart bd nowMs e r readAck (some (e', r', calls))) (h : e.Sender bd safe nowMs v) :
    ∃ acked discarded cursor, e'.Sender bd safe nowMs
      { v with acked := acked, discarded := discarded, cursor := cursor } := by
  cases hs with
  | absent => exact ⟨_, _, _, h⟩
  | ack hread hstep =>
    obtain ⟨acked, discarded, cursor, -, -, -, h'⟩ := hstep.sender h
    exact ⟨acked, discarded, cursor, h'⟩

lemma Sender.resending (h : e.Sender bd safe nowMs v) {rtoMs : ℕ} (rtoSumMs : ℕ)
    (hrto : rtoMs ≤ rtoMaxMs) {ccState : AimdReno}
    (hcc : e.ccState.handleTimeout bd = .ok ccState) :
    ((e.rearmed rtoMs rtoSumMs).resending ccState).Sender bd safe nowMs
      { v with cursor := v.discarded } := by
  obtain ⟨cc, hcc', hbounded⟩ := h.cc.handleTimeout bd
  rw [hcc] at hcc'
  cases hcc'
  exact ⟨h.window, h.sizes_le, h.queues.handleTimeout, hbounded, hrto, h.rtt⟩

/-- The sending half stays sound whatever happens. -/
theorem Effect.sender (hs : Effect bd nowMs e input calls e') (h : e.Sender bd safe nowMs v)
    (hnow : safe → nowMs < 2 ^ 62)
    (hinput : safe → ∀ mode, input ≠ .enqueue [] mode) : ∃ v', e'.Sender bd safe nowMs v' := by
  cases hs with
  | init hs => exact ⟨v, h.1, h.2, h.3, h.4, h.5, h.6⟩
  | @enqueue packetBytes mode fragmentTx hs hqueue =>
    have hne : safe → packetBytes ≠ [] := by
      rintro hsafe rfl
      exact hinput hsafe mode rfl
    obtain ⟨all, hqueues⟩ := (h.queues.enqueue bd hne mode hnow).elim hqueue
    exact ⟨{ v with all := all }, h.1, h.2, hqueues, h.4, h.5, h.6⟩
  | enqueueIgnored hs => exact ⟨v, h⟩
  | flush hs hflush =>
    obtain ⟨_, _, _, -, -, h'⟩ := hflush.sender h
    exact ⟨_, h'⟩
  | flushIgnored hs => exact ⟨v, h⟩
  | disconnect hs htime => exact ⟨v, h.1, h.2, h.3, h.4, h.5, h.6⟩
  | disconnectIgnored hs => exact ⟨v, h⟩
  | stream hs hrun =>
    cases hrun with
    | truncated hparts hack => exact ⟨v, h⟩
    | run hparts hack hdata hflush =>
      obtain ⟨_, _, _, h₁⟩ := hack.sender h
      obtain ⟨_, _, _, -, -, h'⟩ := hflush.sender (hdata.sender h₁)
      exact ⟨_, h'⟩
  | sync hs hrun =>
    cases hrun with
    | truncated => exact ⟨v, h⟩
    | run hread hsync hdelivery hflush =>
      obtain ⟨_, _, _, -, -, h'⟩ := hflush.sender (h.withDelivery _ _)
      exact ⟨_, h'⟩
  | close hs hvalid htime => exact ⟨v, h.1, h.2, h.3, h.4, h.5, h.6⟩
  | closeAck hs hvalid htime => exact ⟨v, h.1, h.2, h.3, h.4, h.5, h.6⟩
  | closeAgain hs hvalid => exact ⟨v, h⟩
  | frameIgnored hs => exact ⟨v, h⟩
  | timeout hs htimer hsum htimeout => exact ⟨v, h.1, h.2, h.3, h.4, h.5, h.6⟩
  | resend hs htimer hback hcc hflush =>
    obtain ⟨_, _, _, -, -, h'⟩ := hflush.sender (h.resending _ hback.rto_le hcc)
    exact ⟨_, h'⟩
  | resendClose hs htimer hback => exact ⟨v, h.1, h.2, h.3, h.4, hback.rto_le, h.6⟩
  | destroyed hs => exact ⟨v, h.1, h.2, h.3, h.4, h.5, h.6⟩
  | timerIgnored hs => exact ⟨v, h⟩

lemma AckPart.frame {r r' : PayloadReader} {readAck : Bool}
    (hs : AckPart bd nowMs e r readAck (some (e', r', calls))) :
    r'.buffer = r.buffer ∧ SendOnly e e' := by
  cases hs with
  | absent => exact ⟨rfl, .refl e⟩
  | ack hread hstep => exact ⟨PayloadReader.read_buffer hread, hstep.frame⟩

/-- The state of the connection is left alone. -/
structure SameSession (e e' : Endpoint) : Prop where
  config_eq : e'.config = e.config
  stateId_eq : e'.stateId = e.stateId
  localNonce_eq : e'.localNonce = e.localNonce
  remoteNonce_eq : e'.remoteNonce = e.remoteNonce

lemma SendOnly.session (h : SendOnly e e') : SameSession e e' := ⟨h.1, h.2, h.3, h.4⟩

lemma SameSession.trans {e'' : Endpoint} (h : SameSession e e') (h' : SameSession e' e'') :
    SameSession e e'' :=
  ⟨h'.1.trans h.1, h'.2.trans h.2, h'.3.trans h.3, h'.4.trans h.4⟩

lemma DataPart.session {r : PayloadReader} {d : Delivery} (hs : DataPart bd e r (e', d)) :
    SameSession e e' := by
  cases hs with
  | absent => exact (SendOnly.refl e).session
  | segment hread hbytes hreceive hdelivery => exact ⟨rfl, rfl, rfl, rfl⟩

lemma StreamRun.session {frameType : FrameType} {payloadBytes : Bytes}
    (hs : StreamRun bd nowMs e frameType payloadBytes calls e') : SameSession e e' := by
  cases hs with
  | truncated hparts hack => exact (SendOnly.refl e).session
  | run hparts hack hdata hflush =>
    exact (hack.frame.2.session.trans hdata.session).trans hflush.sendOnly.session

lemma SyncRun.session {payloadBytes : Bytes} (hs : SyncRun bd nowMs e payloadBytes calls e') :
    SameSession e e' := by
  cases hs with
  | truncated => exact (SendOnly.refl e).session
  | run hread hsync hdelivery hflush =>
    have h := hflush.sendOnly.session
    exact ⟨h.1, h.2, h.3, h.4⟩

/-- A call that only sends a frame or sets the timer. -/
def IsTransport (call : HostCall) : Prop :=
  (∃ frameBytes, call = .sendFrame frameBytes) ∨ (∃ timeMs, call = .setRtoTimer timeMs) ∨
    call = .unsetRtoTimer

lemma FlushRun.isTransport {ackRel sendAck : Bool} (hs : FlushRun bd ackRel nowMs sendAck e calls e') :
    ∀ call ∈ calls, IsTransport call := by
  induction hs with
  | stop hdata => exact fun call hcall => by cases hcall
  | ack hdata rest ih =>
    intro call hcall
    rcases List.mem_cons.mp hcall with rfl | hcall
    · exact .inl ⟨_, rfl⟩
    · exact ih call hcall
  | @segment _ _ e₀ e₁ _ _ timerCalls _ hdata hstep rest ih =>
    intro call hcall
    rcases List.mem_append.mp hcall with hcall | hcall
    · have htimer := hstep.timer
      generalize (e₀.expire nowMs).rtoTimerState = before at htimer
      generalize e₁.rtoTimerState = after at htimer
      cases htimer with
      | set htime => exact .inr (.inl ⟨_, List.mem_singleton.mp hcall⟩)
      | running timer => cases hcall
    · rcases List.mem_cons.mp hcall with rfl | hcall
      · exact .inl ⟨_, rfl⟩
      · exact ih call hcall

lemma AckPart.isTransport {r r' : PayloadReader} {readAck : Bool}
    (hs : AckPart bd nowMs e r readAck (some (e', r', calls))) :
    ∀ call ∈ calls, IsTransport call := by
  intro call hcall
  cases hs with
  | absent => cases hcall
  | ack hread hstep =>
    have htimer := hstep.timer
    generalize e.rtoTimerState = before at htimer
    generalize e'.rtoTimerState = after at htimer
    cases htimer with
    | idle => cases hcall
    | caughtUp timer hid => exact .inr (.inr (List.mem_singleton.mp hcall))
    | expecting timer hid htime => exact .inr (.inl ⟨_, List.mem_singleton.mp hcall⟩)

lemma DataPart.isReceive {r : PayloadReader} {d : Delivery} (hs : DataPart bd e r (e', d)) :
    ∀ call ∈ d.calls, IsReceive call := by
  cases hs with
  | absent => exact fun call hcall => by cases hcall
  | segment hread hbytes hreceive hdelivery => exact segments_calls hdelivery

lemma StreamRun.calls_cases {frameType : FrameType} {payloadBytes : Bytes}
    (hs : StreamRun bd nowMs e frameType payloadBytes calls e') :
    ∀ call ∈ calls, IsTransport call ∨ IsReceive call := by
  intro call hcall
  cases hs with
  | truncated hparts hack => cases hcall
  | run hparts hack hdata hflush =>
    rcases List.mem_append.mp hcall with hcall | hcall
    · rcases List.mem_append.mp hcall with hcall | hcall
      · exact .inl (hack.isTransport call hcall)
      · exact .inr (hdata.isReceive call hcall)
    · exact .inl (hflush.isTransport call hcall)

lemma SyncRun.calls_cases {payloadBytes : Bytes} (hs : SyncRun bd nowMs e payloadBytes calls e') :
    ∀ call ∈ calls, IsTransport call ∨ IsReceive call := by
  intro call hcall
  cases hs with
  | truncated => cases hcall
  | run hread hsync hdelivery hflush =>
    rcases List.mem_append.mp hcall with hcall | hcall
    · exact .inr (segments_calls hdelivery call hcall)
    · exact .inl (hflush.isTransport call hcall)

lemma DataPart.models {r : PayloadReader} {d : Delivery} {b : SegmentQueue}
    (hs : DataPart bd e r (e', d)) (h : e.segmentRx.Models 0 frameSizeMax b)
    (hfit : r.buffer.length ≤ frameSizeMax) :
    ∃ b' : SegmentQueue, e'.segmentRx.Models 0 frameSizeMax b' := by
  cases hs with
  | absent => exact ⟨b, h⟩
  | @segment header r' segmentBytes segmentRx delivered d hread hbytes hreceive hdelivery =>
    have hlen := PayloadReader.remainingBytes_length hbytes
    rw [PayloadReader.read_buffer hread] at hlen
    obtain ⟨segmentRx', delivered', d', b', hreceive', -, h'⟩ :=
      receive_total bd h header.id header.nonce (hlen.trans hfit)
    rw [hreceive] at hreceive'
    cases hreceive'
    exact ⟨b', h'⟩

/-- The receiving half stays sound whatever happens. -/
theorem Effect.models {b : SegmentQueue} (hs : Effect bd nowMs e input calls e')
    (h : e.segmentRx.Models 0 frameSizeMax b)
    (hfit : ∀ frameType payloadBytes, input = .frame frameType payloadBytes →
      payloadBytes.length ≤ frameSizeMax) :
    ∃ b' : SegmentQueue, e'.segmentRx.Models 0 frameSizeMax b' := by
  have hkeep : ∀ {e₁ e₂ : Endpoint}, SendOnly e₁ e₂ →
      (∃ b' : SegmentQueue, e₁.segmentRx.Models 0 frameSizeMax b') →
      ∃ b' : SegmentQueue, e₂.segmentRx.Models 0 frameSizeMax b' := by
    intro e₁ e₂ hsame hmodels
    rwa [hsame.segmentRx_eq]
  cases hs with
  | stream hs hrun =>
    cases hrun with
    | truncated hparts hack => exact ⟨b, h⟩
    | run hparts hack hdata hflush =>
      obtain ⟨hbuffer, hsame⟩ := hack.frame
      refine hkeep hflush.sendOnly (hdata.models (b := b) ?_ ?_)
      · rwa [hsame.segmentRx_eq]
      · rw [hbuffer]
        exact hfit _ _ rfl
  | sync hs hrun =>
    cases hrun with
    | truncated => exact ⟨b, h⟩
    | @run sync r segmentRx delivered d flushCalls e₁ hread hsync hdelivery hflush =>
      obtain ⟨segmentRx', delivered', d', b', hsync', -, h'⟩ :=
        sync_total bd h sync.nextSegmentId
      rw [hsync] at hsync'
      cases hsync'
      exact hkeep hflush.sendOnly ⟨b', h'⟩
  | flush hs hflush => exact hkeep hflush.sendOnly ⟨b, h⟩
  | resend hs htimer hback hcc hflush => exact hkeep hflush.sendOnly ⟨b, h⟩
  | _ => exact ⟨b, h⟩

end Invariant

section Frames
variable {bd : Build} {safe : Prop} {e : Endpoint} {nowMs : ℕ} {v : SenderView}

/-- Where `safe` holds, the receiving half is sound and the payload fits. -/
def Receives (safe : Prop) (e : Endpoint) (payloadBytes : Bytes) : Prop :=
  safe → payloadBytes.length ≤ frameSizeMax ∧
    ∃ b : SegmentQueue, e.segmentRx.Models 0 frameSizeMax b

lemma readAckPart_spec (h : e.Sender bd safe nowMs v) (hnow : safe → nowMs < 2 ^ 62)
    (readAck : Bool) {r : PayloadReader} (hr : r.readIdx ≤ r.buffer.length) :
    Outcome safe (readAckPart bd readAck e r nowMs) fun res =>
      AckPart bd nowMs e r readAck res ∧ ∀ e' r' calls, res = some (e', r', calls) →
        r'.buffer = r.buffer ∧ r'.readIdx ≤ r.buffer.length ∧ SendOnly e e' := by
  cases readAck with
  | false =>
    refine .of_eq rfl ⟨.absent, fun e' r' calls hres => ?_⟩
    cases hres
    exact ⟨rfl, hr, .refl e⟩
  | true =>
    obtain ⟨ack, r', hread, hbuffer, hle, -⟩ := PayloadReader.read_total (α := StreamAck) bd hr
    unfold readAckPart
    rw [if_pos rfl, hread, ok_bind]
    cases ack with
    | none => exact .of_eq rfl ⟨.unreadable hread, fun _ _ _ hres => by cases hres⟩
    | some ack =>
      refine (h.handleAck hnow ack).bind ?_
      rintro ⟨e', calls⟩ hstep
      refine .of_eq rfl ⟨.ack hread hstep, fun e₁ r₁ calls₁ hres => ?_⟩
      cases hres
      exact ⟨hbuffer, hle, hstep.frame⟩

lemma readDataPart_spec (readData : Bool) {r : PayloadReader}
    (hr : r.readIdx ≤ r.buffer.length) (hrecv : Receives safe e r.buffer) :
    Outcome safe (readDataPart bd readData e r) (DataPart bd e r) := by
  cases readData with
  | false => exact .of_eq rfl .absent
  | true =>
    obtain ⟨header, r', hread, hbuffer, hle, -⟩ :=
      PayloadReader.read_total (α := StreamSegmentHeader) bd hr
    unfold readDataPart
    rw [if_pos rfl, hread, ok_bind]
    cases header with
    | none => exact .of_eq rfl .absent
    | some header =>
      have hbytes : r'.remainingBytes = .ok ((r'.buffer.drop r'.readIdx).take _) :=
        slice_of_le (hbuffer ▸ hle) le_rfl
      have hreceive : safe → ∃ res, e.segmentRx.receive bd header.id header.nonce
          ((r'.buffer.drop r'.readIdx).take (r'.buffer.length - r'.readIdx)) = .ok res := by
        intro hs
        obtain ⟨hfit, b, hb⟩ := hrecv hs
        have hlen : ((r'.buffer.drop r'.readIdx).take
            (r'.buffer.length - r'.readIdx)).length ≤ frameSizeMax := by
          rw [List.length_take, List.length_drop, hbuffer]
          omega
        obtain ⟨segmentRx, delivered, d, b', hreceive, -, -⟩ :=
          receive_total bd hb header.id header.nonce hlen
        exact ⟨_, hreceive⟩
      dsimp only
      rw [hbytes, ok_bind]
      unfold handleSegment
      refine (Outcome.self hreceive).bind ?_
      rintro ⟨segmentRx, delivered⟩ hok
      obtain ⟨datagrams, hsegments⟩ := segments_total bd delivered
      dsimp only
      rw [hsegments, ok_bind]
      exact .of_eq rfl (.segment hread hbytes hok (hsegments e.delivery))

lemma Sender.handleStreamFrame (h : e.Sender bd safe nowMs v) (hnow : safe → nowMs < 2 ^ 62)
    (nonces : ℕ → Bool) {frameType : FrameType} {payloadBytes : Bytes} {parts : Bool × Bool}
    (hparts : streamParts frameType = .ok parts) (hrecv : Receives safe e payloadBytes) :
    Outcome safe (e.handleStreamFrame bd nonces frameType payloadBytes nowMs) fun r =>
      StreamRun bd nowMs e frameType payloadBytes r.2 r.1 := by
  obtain ⟨readAck, readData⟩ := parts
  unfold Endpoint.handleStreamFrame
  rw [hparts, ok_bind]
  refine (readAckPart_spec h hnow readAck (r := PayloadReader.new payloadBytes)
    (Nat.zero_le _)).bind ?_
  rintro (_ | ⟨e₁, r, ackCalls⟩) ⟨hack, hframe⟩
  · cases hack with
    | unreadable hread => exact .of_eq rfl (.truncated hparts (.unreadable hread))
  · obtain ⟨hbuffer, hle, hsame⟩ := hframe e₁ r ackCalls rfl
    obtain ⟨acked, discarded, cursor, h₁⟩ := hack.sender h
    have hrecv' : Receives safe e₁ r.buffer := by
      unfold Receives
      rw [hbuffer, hsame.segmentRx_eq]
      exact hrecv
    dsimp only
    refine (readDataPart_spec readData (hbuffer ▸ hle) hrecv').bind ?_
    rintro ⟨e₂, d⟩ hdata
    refine ((hdata.sender h₁).flushStream hnow nonces d.sendAck d.ackRel).bind ?_
    rintro ⟨e', flushCalls⟩ hflush
    exact .of_eq rfl (.run hparts hack hdata hflush)

lemma Sender.handleStreamSyncFrame (h : e.Sender bd safe nowMs v)
    (hnow : safe → nowMs < 2 ^ 62) (nonces : ℕ → Bool) {payloadBytes : Bytes}
    (hrecv : Receives safe e payloadBytes) :
    Outcome safe (e.handleStreamSyncFrame bd nonces payloadBytes nowMs) fun r =>
      SyncRun bd nowMs e payloadBytes r.2 r.1 := by
  obtain ⟨sync, r, hread, -, -, -⟩ := PayloadReader.read_total (α := StreamSync) bd
    (r := PayloadReader.new payloadBytes) (Nat.zero_le _)
  unfold Endpoint.handleStreamSyncFrame
  rw [hread, ok_bind]
  cases sync with
  | none => exact .of_eq rfl .truncated
  | some sync =>
    have hsync : safe → ∃ res, e.segmentRx.sync sync.nextSegmentId = .ok res := by
      intro hs
      obtain ⟨-, b, hb⟩ := hrecv hs
      obtain ⟨segmentRx, delivered, d, b', hsync, -, -⟩ := sync_total bd hb sync.nextSegmentId
      exact ⟨_, hsync⟩
    dsimp only
    refine (Outcome.self hsync).bind ?_
    rintro ⟨segmentRx, delivered⟩ hok
    obtain ⟨datagrams, hsegments⟩ := segments_total bd delivered
    dsimp only
    rw [hsegments, ok_bind]
    refine ((h.withDelivery _ _).flushStream hnow nonces true true).bind ?_
    rintro ⟨e', flushCalls⟩ hflush
    exact .of_eq rfl (.run hread hok (hsegments e.delivery) hflush)

lemma validateCloseFrame_total (bd : Build) (e : Endpoint) (payloadBytes : Bytes) :
    ∃ valid, e.validateCloseFrame bd payloadBytes = .ok valid := by
  obtain ⟨frame, r, hread, -, -, -⟩ := PayloadReader.read_total (α := CloseFrame) bd
    (r := PayloadReader.new payloadBytes) (Nat.zero_le _)
  unfold validateCloseFrame readPayload
  rw [hread]
  cases frame with
  | none => exact ⟨_, rfl⟩
  | some frame => exact ⟨_, rfl⟩

lemma validateCloseAckFrame_total (bd : Build) (e : Endpoint) (payloadBytes : Bytes) :
    ∃ valid, e.validateCloseAckFrame bd payloadBytes = .ok valid := by
  obtain ⟨frame, r, hread, -, -, -⟩ := PayloadReader.read_total (α := CloseAckFrame) bd
    (r := PayloadReader.new payloadBytes) (Nat.zero_le _)
  unfold validateCloseAckFrame readPayload
  rw [hread]
  cases frame with
  | none => exact ⟨_, rfl⟩
  | some frame => exact ⟨_, rfl⟩

lemma enterClosed_spec (bd : Build) (e : Endpoint) (hnow : safe → nowMs < 2 ^ 62) :
    Outcome safe (e.enterClosed bd nowMs) fun r =>
      ∃ timeMs, checkedAdd bd 64 nowMs disconnectTimeoutMs = .ok timeMs ∧
        r = (e.enteredClosed, [.onDisconnect, .setRtoTimer timeMs]) := by
  unfold enterClosed
  have htime : safe → nowMs + disconnectTimeoutMs < 2 ^ 64 := by
    intro hs
    have := hnow hs
    rw [disconnectTimeoutMs]
    omega
  refine (Outcome.self fun hs => ⟨_, checkedAdd_of_lt (htime hs)⟩).bind fun timeMs hok => ?_
  exact .of_eq rfl ⟨timeMs, hok, rfl⟩

lemma handleClose_spec (bd : Build) (hnow : safe → nowMs < 2 ^ 62) (payloadBytes : Bytes)
    (hs : e.stateId = .active ∨ e.stateId = .closing) :
    Outcome safe (e.handleClose bd payloadBytes nowMs) fun r =>
      Effect bd nowMs e (.frame .close payloadBytes) r.2 r.1 := by
  obtain ⟨valid, hvalid⟩ := validateCloseFrame_total bd e payloadBytes
  unfold handleClose
  rw [hvalid, ok_bind]
  cases valid with
  | false =>
    rw [if_neg Bool.false_ne_true]
    exact .of_eq rfl (.frameIgnored fun _ _ hparts => by cases hparts)
  | true =>
    rw [if_pos rfl, sendCloseAckFrame_eq, ok_bind]
    refine (enterClosed_spec bd e hnow).bind ?_
    rintro _ ⟨timeMs, htime, rfl⟩
    exact .of_eq rfl (.close hs hvalid htime)

lemma handleCloseAck_spec (bd : Build) (hnow : safe → nowMs < 2 ^ 62) (payloadBytes : Bytes)
    (hs : e.stateId = .closing) :
    Outcome safe (e.handleCloseAck bd payloadBytes nowMs) fun r =>
      Effect bd nowMs e (.frame .closeAck payloadBytes) r.2 r.1 := by
  obtain ⟨valid, hvalid⟩ := validateCloseAckFrame_total bd e payloadBytes
  unfold handleCloseAck
  rw [hvalid, ok_bind]
  cases valid with
  | false =>
    rw [if_neg Bool.false_ne_true]
    exact .of_eq rfl (.frameIgnored fun _ _ hparts => by cases hparts)
  | true =>
    rw [if_pos rfl]
    refine (enterClosed_spec bd e hnow).weaken ?_
    rintro _ ⟨timeMs, htime, rfl⟩
    exact .closeAck hs hvalid htime

lemma handleCloseClosed_spec (bd : Build) (payloadBytes : Bytes) (hs : e.stateId = .closed) :
    Outcome safe (e.handleCloseClosed bd payloadBytes) fun r =>
      Effect bd nowMs e (.frame .close payloadBytes) r.2 r.1 := by
  obtain ⟨valid, hvalid⟩ := validateCloseFrame_total bd e payloadBytes
  unfold handleCloseClosed
  rw [hvalid, ok_bind]
  cases valid with
  | false =>
    rw [if_neg Bool.false_ne_true]
    exact .of_eq rfl (.frameIgnored fun _ _ hparts => by cases hparts)
  | true =>
    rw [if_pos rfl, sendCloseAckFrame_eq, ok_bind]
    exact .of_eq rfl (.closeAgain hs hvalid)

/-- Handling a frame has one of the effects listed, and fails only where the endpoint is not
in a safe state. -/
theorem Sender.handleFrame (h : e.Sender bd safe nowMs v) (hnow : safe → nowMs < 2 ^ 62)
    (nonces : ℕ → Bool) (frameType : FrameType) {payloadBytes : Bytes}
    (hrecv : Receives safe e payloadBytes) :
    Outcome safe (e.handleFrame bd nonces frameType payloadBytes nowMs) fun r =>
      Effect bd nowMs e (.frame frameType payloadBytes) r.2 r.1 := by
  have hignored : (e.stateId = .active → ∀ parts, streamParts frameType ≠ .ok parts) →
      Outcome safe (.ok (e, [])) fun r =>
        Effect bd nowMs e (.frame frameType payloadBytes) r.2 r.1 :=
    fun hs => .of_eq rfl (.frameIgnored hs)
  unfold Endpoint.handleFrame
  cases hs : e.stateId with
  | preInit => cases frameType <;> exact hignored fun ha => by simp [hs] at ha
  | active =>
    cases frameType with
    | streamSegment =>
      exact (h.handleStreamFrame hnow nonces rfl hrecv).weaken fun r hrun => .stream hs hrun
    | streamAck =>
      exact (h.handleStreamFrame hnow nonces rfl hrecv).weaken fun r hrun => .stream hs hrun
    | streamSegmentAck =>
      exact (h.handleStreamFrame hnow nonces rfl hrecv).weaken fun r hrun => .stream hs hrun
    | streamSync =>
      exact (h.handleStreamSyncFrame hnow nonces hrecv).weaken fun r hrun => .sync hs hrun
    | close => exact handleClose_spec bd hnow payloadBytes (.inl hs)
    | _ => exact hignored fun _ parts hparts => by cases hparts
  | closing =>
    cases frameType with
    | close => exact handleClose_spec bd hnow payloadBytes (.inr hs)
    | closeAck => exact handleCloseAck_spec bd hnow payloadBytes hs
    | _ => exact hignored fun ha => by simp [hs] at ha
  | closed =>
    cases frameType with
    | close => exact handleCloseClosed_spec bd payloadBytes hs
    | _ => exact hignored fun ha => by simp [hs] at ha
  | zombie => cases frameType <;> exact hignored fun ha => by simp [hs] at ha

end Frames

section Timer
variable {bd : Build} {safe : Prop} {e : Endpoint} {nowMs : ℕ} {v : SenderView}

lemma expectTimerState_eq_ok {timer : RtoTimerState} :
    e.expectTimerState = .ok timer ↔ e.rtoTimerState = some timer := by
  unfold expectTimerState
  cases e.rtoTimerState with
  | none => simp
  | some timer' => simp

/-- The timeout is reported, or the timer is set again. -/
lemma backOff_cases {e' : Endpoint} {calls : List HostCall} {action : TimeoutAction}
    (h : e.backOff bd nowMs = .ok (e', calls, action)) :
    ∃ timer rtoSumMs, e.rtoTimerState = some timer ∧
      ((checkedAdd bd 64 timer.rtoSumMs timer.rtoMs = .ok rtoSumMs ∧
        e.config.timeoutTimeMs ≤ rtoSumMs ∧
        e' = e.enteredZombie (some ⟨timer.rtoMs, rtoSumMs⟩) ∧ calls = [.onTimeout] ∧
        action = .terminate) ∨
      ∃ rtoMs timeMs, BackOff bd nowMs timer rtoMs rtoSumMs timeMs ∧
        e' = e.rearmed rtoMs rtoSumMs ∧ calls = [.setRtoTimer timeMs] ∧ action = .continue) := by
  unfold backOff at h
  obtain ⟨timer, htimer, h⟩ := bind_eq_ok.mp h
  obtain ⟨rtoSumMs, hsum, h⟩ := bind_eq_ok.mp h
  refine ⟨timer, rtoSumMs, expectTimerState_eq_ok.mp htimer, ?_⟩
  by_cases htimeout : e.config.timeoutTimeMs ≤ rtoSumMs
  · rw [if_pos htimeout] at h
    cases h
    exact .inl ⟨hsum, htimeout, rfl, rfl, rfl⟩
  · rw [if_neg htimeout] at h
    obtain ⟨doubled, -, h⟩ := bind_eq_ok.mp h
    obtain ⟨timeMs, htime, h⟩ := bind_eq_ok.mp h
    cases h
    exact .inr ⟨_, timeMs, ⟨clampRto_le doubled, hsum, htime⟩, rfl, rfl, rfl⟩

theorem Sender.handleRtoTimer (h : e.Sender bd safe nowMs v) (hnow : safe → nowMs < 2 ^ 62)
    {nonces : ℕ → Bool} {e' : Endpoint} {calls : List HostCall} {action : TimeoutAction}
    (hok : e.handleRtoTimer bd nonces nowMs = .ok (e', calls, action)) :
    Effect bd nowMs e .rtoTimer calls e' ∧
      (action = .terminate ↔ e.stateId ≠ .zombie ∧ e'.stateId = .zombie) := by
  unfold Endpoint.handleRtoTimer at hok
  cases hs : e.stateId with
  | preInit =>
    simp only [hs] at hok
    cases hok
    exact ⟨.timerIgnored (.inl hs), by simp [hs]⟩
  | zombie =>
    simp only [hs] at hok
    cases hok
    exact ⟨.timerIgnored (.inr hs), by simp⟩
  | closed =>
    simp only [hs] at hok
    cases hok
    exact ⟨.destroyed hs, by simp⟩
  | closing =>
    simp only [hs] at hok
    obtain ⟨⟨e₁, calls₁, action₁⟩, hback, hok⟩ := bind_eq_ok.mp hok
    obtain ⟨timer, rtoSumMs, htimer,
      ⟨hsum, htimeout, rfl, rfl, rfl⟩ | ⟨rtoMs, timeMs, hback', rfl, rfl, rfl⟩⟩ :=
      backOff_cases hback
    · cases hok
      exact ⟨.timeout (.inr hs) htimer hsum htimeout, by simp [enteredZombie]⟩
    · dsimp only at hok
      rw [sendCloseFrame_eq] at hok
      cases hok
      exact ⟨.resendClose hs htimer hback', by simp [rearmed, hs]⟩
  | active =>
    simp only [hs] at hok
    obtain ⟨⟨e₁, calls₁, action₁⟩, hback, hok⟩ := bind_eq_ok.mp hok
    obtain ⟨timer, rtoSumMs, htimer,
      ⟨hsum, htimeout, rfl, rfl, rfl⟩ | ⟨rtoMs, timeMs, hback', rfl, rfl, rfl⟩⟩ :=
      backOff_cases hback
    · cases hok
      exact ⟨.timeout (.inl hs) htimer hsum htimeout, by simp [enteredZombie]⟩
    · obtain ⟨⟨e₂, rest⟩, hresync, hok⟩ := bind_eq_ok.mp hok
      unfold resynchronize at hresync
      obtain ⟨ccState, hcc, hresync⟩ := bind_eq_ok.mp hresync
      dsimp only at hresync
      rw [sendStreamSyncFrame_eq, ok_bind] at hresync
      obtain ⟨⟨e₃, flushCalls⟩, hflush, hresync⟩ := bind_eq_ok.mp hresync
      cases hresync
      cases hok
      have hrun := ((h.resending rtoSumMs hback'.rto_le hcc).flushStream hnow nonces false
        false).elim hflush
      have hstate : e₃.stateId = e.stateId := hrun.sendOnly.stateId_eq
      refine ⟨.resend hs htimer hback' hcc hrun, ?_⟩
      simp [hstate, hs]

end Timer

section New

/-- The channel priorities come from `prio::Config::new`. -/
def Config.Accepted (bd : Build) (config : Config) : Prop :=
  ∃ weights burstSize, Prio.Config.new bd weights burstSize = .ok config.prioConfig

/-- The state of an endpoint before any call. -/
structure Fresh (e : Endpoint) (config : Config) : Prop where
  config_eq : e.config = config
  stateId_eq : e.stateId = .preInit
  localNonce_eq : e.localNonce = 0
  remoteNonce_eq : e.remoteNonce = 0
  rtoTimerState_eq : e.rtoTimerState = none
  rtoMs_eq : e.rtoMs = rtoInitialMs
  unrel_eq : e.fragmentTx.unrel.fragments = [] ∧ e.fragmentTx.unrel.nextFragmentId = 0
  segmentRx_eq : e.segmentRx = SegmentRx.new 0 segmentWindowSize frameSizeMax
  unreliableRx_eq : e.unreliableRx.fragmentSize = fragmentSize ∧ e.unreliableRx.baseId = 0 ∧
    e.unreliableRx.currentBuild = none
  reliableRx_eq : e.reliableRx.fragmentSize = fragmentSize ∧ e.reliableRx.nextFragmentId = 0 ∧
    e.reliableRx.currentBuild = none

variable {bd : Build} {config : Config} {e : Endpoint}

variable (bd) in
theorem new_sender (safe : Prop) (nowMs : ℕ) (hconfig : config.Accepted bd)
    (h : Endpoint.new config = .ok e) : e.Sender bd safe nowMs ⟨[], 0, [], 0, 0, 0⟩ := by
  obtain ⟨weights, burstSize, hprio⟩ := hconfig
  unfold Endpoint.new at h
  obtain ⟨segmentTx, hsegment, h⟩ := bind_eq_ok.mp h
  obtain ⟨fragmentTx, hfragment, h⟩ := bind_eq_ok.mp h
  obtain ⟨ccState, hcc, h⟩ := bind_eq_ok.mp h
  obtain ⟨unreliableRx, -, h⟩ := bind_eq_ok.mp h
  obtain ⟨reliableRx, -, h⟩ := bind_eq_ok.mp h
  simp only [pure_eq_ok, Except.ok.injEq] at h
  subst h
  obtain ⟨k, hwindow, hk⟩ := SegmentTx.new_inFlight bd hsegment
  have hk12 : k = 12 := by
    have : 2 ^ 12 = 2 ^ k := hk
    exact (Nat.pow_right_injective (le_refl 2) this).symm
  subst hk12
  obtain ⟨hqueues, -⟩ := FragmentTxBuffers.new_sound safe (Prio.Config.new_valid hprio) hfragment
  exact ⟨hwindow, by simp, hqueues, AimdReno.new_bounded hcc, by simp [rtoInitialMs, rtoMaxMs],
    fun t ht => by cases ht⟩

/-- Creating an endpoint never fails. -/
lemma new_total (config : Config) : ∃ e, Endpoint.new config = .ok e := by
  have hsegment : ∃ s, SegmentTx.new 0 segmentWindowSize = .ok s := by
    unfold SegmentTx.new
    rw [assert_true (by decide), ok_bind, assert_true (by decide), ok_bind]
    exact ⟨_, rfl⟩
  have hfragment : ∃ b, FragmentTxBuffers.new 0 fragmentWindowSize fragmentSize
      config.prioConfig = .ok b := by
    unfold FragmentTxBuffers.new Unreliable.TxBuffer.new Reliable.TxBuffer.new
    rw [dif_pos (by decide), ok_bind, if_neg (by decide), dif_pos (by decide), ok_bind]
    exact ⟨_, rfl⟩
  obtain ⟨s, hs⟩ := hsegment
  obtain ⟨b, hb⟩ := hfragment
  unfold Endpoint.new AimdReno.new Unreliable.RxBuffer.new Reliable.RxBuffer.new
  rw [hs, ok_bind, hb, ok_bind, assert_true (by decide), ok_bind, dif_pos (by decide)]
  exact ⟨_, rfl⟩

/-- Equal weights and the default burst size. -/
def sampleConfig (timeoutTimeMs : ℕ) : Config := ⟨timeoutTimeMs, ⟨![1, 1, 1, 1], 10000⟩⟩

lemma sampleConfig_accepted (bd : Build) (timeoutTimeMs : ℕ) :
    (sampleConfig timeoutTimeMs).Accepted bd := by
  refine ⟨fun _ => 1, 10000, ?_⟩
  cases bd <;> rfl

theorem new_fresh (h : Endpoint.new config = .ok e) : e.Fresh config := by
  unfold Endpoint.new at h
  obtain ⟨segmentTx, hsegment, h⟩ := bind_eq_ok.mp h
  obtain ⟨fragmentTx, hfragment, h⟩ := bind_eq_ok.mp h
  obtain ⟨ccState, hcc, h⟩ := bind_eq_ok.mp h
  obtain ⟨unreliableRx, hunreliable, h⟩ := bind_eq_ok.mp h
  obtain ⟨reliableRx, hreliable, h⟩ := bind_eq_ok.mp h
  simp only [pure_eq_ok, Except.ok.injEq] at h
  subst h
  have hunrel : fragmentTx.unrel.fragments = [] ∧ fragmentTx.unrel.nextFragmentId = 0 := by
    unfold FragmentTxBuffers.new at hfragment
    obtain ⟨unrel, hunrel, hfragment⟩ := bind_eq_ok.mp hfragment
    obtain ⟨rel, -, hfragment⟩ := bind_eq_ok.mp hfragment
    simp only [pure_eq_ok, Except.ok.injEq] at hfragment
    subst hfragment
    unfold Unreliable.TxBuffer.new at hunrel
    split_ifs at hunrel
    cases hunrel
    exact ⟨rfl, rfl⟩
  unfold Unreliable.RxBuffer.new at hunreliable
  split_ifs at hunreliable
  cases hunreliable
  unfold Reliable.RxBuffer.new at hreliable
  split_ifs at hreliable
  cases hreliable
  exact ⟨rfl, rfl, rfl, rfl, rfl, rfl, hunrel, rfl, ⟨rfl, rfl, rfl⟩, rfl, rfl, rfl⟩

theorem Fresh.models (h : e.Fresh config) :
    e.segmentRx.Models 0 frameSizeMax (Reorder.Buffer.empty Segment 2 segmentWindowSize.toNat) := by
  rw [h.segmentRx_eq]
  exact SegmentRx.new_models 0 frameSizeMax (by decide)

end New

section Perform
variable {bd : Build} {safe : Prop} {e e' : Endpoint} {nowMs : ℕ} {v : SenderView}
  {nonces : ℕ → Bool} {input : Input} {calls : List HostCall}

/-- Every call has one of the effects listed. -/
theorem Sender.perform (h : e.Sender bd safe nowMs v) (hnow : safe → nowMs < 2 ^ 62)
    (hok : e.perform bd nonces input nowMs = .ok (e', calls)) :
    Effect bd nowMs e input calls e' := by
  unfold Endpoint.perform at hok
  cases input with
  | init =>
    obtain ⟨u, hassert, hok⟩ := bind_eq_ok.mp hok
    cases hok
    exact .init (debugAssert_eq_ok.mp hassert)
  | enqueue packetBytes mode =>
    obtain ⟨e₁, henqueue, hok⟩ := bind_eq_ok.mp hok
    cases hok
    unfold Endpoint.enqueue at henqueue
    by_cases hs : e.stateId = .active
    · rw [if_pos hs] at henqueue
      obtain ⟨fragmentTx, hqueue, henqueue⟩ := bind_eq_ok.mp henqueue
      cases henqueue
      exact .enqueue hs hqueue
    · rw [if_neg hs] at henqueue
      cases henqueue
      exact .enqueueIgnored hs
  | flush =>
    unfold Endpoint.flush at hok
    by_cases hs : e.stateId = .active
    · rw [if_pos hs] at hok
      exact .flush hs ((h.flushStream hnow nonces false false).elim hok)
    · rw [if_neg hs] at hok
      cases hok
      exact .flushIgnored hs
  | disconnect =>
    unfold Endpoint.disconnect at hok
    by_cases hs : e.stateId = .active
    · rw [if_pos hs] at hok
      unfold enterClosing at hok
      obtain ⟨timeMs, htime, hok⟩ := bind_eq_ok.mp hok
      dsimp only at hok
      rw [sendCloseFrame_eq] at hok
      cases hok
      exact .disconnect hs htime
    · rw [if_neg hs] at hok
      cases hok
      exact .disconnectIgnored hs
  | frame frameType payloadBytes =>
    exact (h.forget.handleFrame False.elim nonces frameType False.elim).elim hok
  | rtoTimer =>
    obtain ⟨⟨e₁, calls₁, action⟩, htimer, hok⟩ := bind_eq_ok.mp hok
    cases hok
    exact (h.handleRtoTimer hnow htimer).1

end Perform

end Endpoint

end Redpine
