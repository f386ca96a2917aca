import Redpine.ClientRun
import Redpine.EndpointInputs
import Redpine.SimpleFrames

/-! What a call on a client does to its endpoint, input by input: which packets of the user and
which frame of the network reach it, and what its handshake sends. -/
namespace Redpine.ClientRun
open Machine Buffer Wire Endpoint Transition Client

/-- The packets that the user hands over. -/
def packetsOf : Action → List (Bytes × SendMode)
  | .send packetBytes mode _ _ => [(packetBytes, mode)]
  | .enqueue packetBytes mode _ => [(packetBytes, mode)]
  | _ => []

def enqueues (packets : List (Bytes × SendMode)) : List Input :=
  packets.map fun packet => .enqueue packet.1 packet.2

/-- The request of the second phase that answers an acknowledged first one. -/
def betaFrame (localNonce : U32) (ack : HandshakeAlphaAckFrame) : Bytes :=
  frameOf .handshakeBeta (LawfulBlock.encode (HandshakeBetaFrame.mk localParams localNonce
    ack.serverNonce ack.serverTimestamp ack.serverMac))

/-- The frame has this type, and this object is read from its payload. -/
def Reads (α : Type) [SimpleFrame α] (bd : Build) (frameBytes : Bytes) (obj : α) : Prop :=
  ∃ payloadBytes, readType bd frameBytes = .ok (some (SimpleFrame.frameType α)) ∧
    payload bd frameBytes = .ok payloadBytes ∧ readPayload α bd payloadBytes = .ok (some obj)

/-- What the endpoint of a connected client is asked by an action. -/
inductive InputsOf (bd : Build) : Action → List Input → Prop
  | frame {frameBytes payloadBytes : Bytes} {frameType : FrameType} {nowMs : ℕ} {nonces : ℕ → Bool}
      (htype : readType bd frameBytes = .ok (some frameType))
      (hpayload : payload bd frameBytes = .ok payloadBytes)
      (hother : frameType ≠ .handshakeAlphaAck ∧ frameType ≠ .handshakeBetaAck) :
      InputsOf bd (.frame frameBytes nowMs nonces) [.frame frameType payloadBytes]
  | timeouts {nowMs : ℕ} {nonces : ℕ → Bool} : InputsOf bd (.timeouts nowMs nonces) [.rtoTimer]
  | send {packetBytes : Bytes} {mode : SendMode} {nowMs : ℕ} {nonces : ℕ → Bool} :
      InputsOf bd (.send packetBytes mode nowMs nonces) [.enqueue packetBytes mode, .flush]
  | enqueue {packetBytes : Bytes} {mode : SendMode} {nowMs : ℕ} :
      InputsOf bd (.enqueue packetBytes mode nowMs) [.enqueue packetBytes mode]
  | flush {nowMs : ℕ} {nonces : ℕ → Bool} : InputsOf bd (.flush nowMs nonces) [.flush]
  | disconnect {nowMs : ℕ} : InputsOf bd (.disconnect nowMs) [.disconnect]

/-- What a call on a client other than the taking of an event does, and the frames it sends. -/
inductive Move (bd : Build) (core : ClientCore) : Action → List Bytes → ClientCore → Prop
  | idle {a : Action} {core' : ClientCore} (hstate : core'.state = core.state)
      (hevents : core'.events = core.events)
      (hpackets : packetsOf a ≠ [] → core.state = .quiescent) : Move bd core a [] core'
  | handshake {a : Action} {state state' : HandshakeState} {frames : List Bytes}
      {core' : ClientCore} (hs : core.state = .handshake state)
      (hs' : core'.state = .handshake state') (hevents : core'.events = core.events)
      (hnonce : state'.localNonce = state.localNonce)
      (hpackets : state'.packetBuffer = state.packetBuffer ++ packetsOf a)
      (hframe : state'.frame = state.frame ∧ state'.phase = state.phase ∨
        state.phase = .alpha ∧ state'.phase = .beta ∧ ∃ frameBytes nowMs nonces ack,
          a = .frame frameBytes nowMs nonces ∧ Reads HandshakeAlphaAckFrame bd frameBytes ack ∧
          ack.clientNonce = state.localNonce ∧ state'.frame = betaFrame state.localNonce ack ∧
          frames = [state'.frame])
      (hframes : ∀ frame ∈ frames, frame = state'.frame) : Move bd core a frames core'
  | failed {a : Action} {state : HandshakeState} {kind : ErrorKind} {core' : ClientCore}
      (hs : core.state = .handshake state) (hs' : core'.state = .quiescent)
      (hevents : core'.events = core.events ++ [.error kind]) (hpackets : packetsOf a = []) :
      Move bd core a [] core'
  | activated {frameBytes : Bytes} {nowMs : ℕ} {nonces : ℕ → Bool} {state : HandshakeState}
      {config : Endpoint.Config} {e₀ e : Endpoint} {calls : List HostCall} {core' : ClientCore}
      (hs : core.state = .handshake state) (hs' : core'.state = .active e)
      (hphase : state.phase = .beta)
      (hack : Reads HandshakeBetaAckFrame bd frameBytes ⟨none, state.localNonce⟩)
      (haccepted : config.Accepted bd) (hnew : Endpoint.new config = .ok e₀)
      (hcalls : Inputs bd nowMs { e₀ with stateId := .active }
        (enqueues state.packetBuffer ++ [.flush]) calls e)
      (hevents : core'.events = core.events ++ .connect :: eventsOf calls) :
      Move bd core (.frame frameBytes nowMs nonces) (sentFrames calls) core'
  | called {a : Action} {inputs : List Input} {e e' : Endpoint} {calls : List HostCall} {nowMs : ℕ}
      {core' : ClientCore} (hs : core.state = .active e) (hinputs : InputsOf bd a inputs)
      (hcalls : Inputs bd nowMs e inputs calls e')
      (hs' : core'.state = .active e' ∨ core'.state = .quiescent ∧ e'.stateId = .zombie)
      (hevents : core'.events = core.events ++ eventsOf calls) :
      Move bd core a (sentFrames calls) core'

section Moves
variable {bd : Build} {core core' : ClientCore} {frames : List Bytes} {nowMs : ℕ}
  {nonces : ℕ → Bool} {a : Action} {e e' : Endpoint} {input : Input} {calls : List HostCall}

lemma flatMap_enqueues (packets : List (Bytes × SendMode)) :
    (enqueues packets).flatMap EndpointPair.enqueuedBy = packets := by
  induction packets with
  | nil => rfl
  | cons packet packets ih => exact congrArg (packet :: ·) ih

/-- The packets of the user are all that the endpoint is given. -/
lemma InputsOf.packets {inputs : List Input} (h : InputsOf bd a inputs) :
    inputs.flatMap EndpointPair.enqueuedBy = packetsOf a ∧ .init ∉ inputs := by
  cases h <;> exact ⟨rfl, by simp⟩

lemma InputsOf.frame_of_mem {inputs : List Input} {frameType : FrameType} {payloadBytes : Bytes}
    (h : InputsOf bd a inputs) (hmem : .frame frameType payloadBytes ∈ inputs) :
    ∃ frameBytes nowMs nonces, a = .frame frameBytes nowMs nonces ∧
      readType bd frameBytes = .ok (some frameType) ∧
      payload bd frameBytes = .ok payloadBytes ∧
      frameType ≠ .handshakeAlphaAck ∧ frameType ≠ .handshakeBetaAck := by
  cases h with
  | frame htype hpayload hother =>
    cases List.mem_singleton.mp hmem
    exact ⟨_, _, _, rfl, htype, hpayload, hother⟩
  | _ => simp at hmem

lemma Move.still (h : (core, ([] : List Bytes)) = (core', frames))
    (hpackets : packetsOf a ≠ [] → core.state = .quiescent) : Move bd core a frames core' := by
  cases h
  exact .idle rfl rfl hpackets

/-- A call on the endpoint of a connected client. -/
lemma Move.perform {inputs : List Input} (hs : core.state = .active e)
    (hinputs : InputsOf bd a inputs) (hcalls : Inputs bd nowMs e inputs calls e') :
    Move bd core a (core.withEndpoint e' calls).2 (core.withEndpoint e' calls).1 :=
  .called hs hinputs hcalls (.inl (withEndpoint_state ..)) (withEndpoint_events ..)

lemma processTimeouts_move (hsound : StateSound bd core.state)
    (h : core.processTimeouts bd nonces nowMs = .ok (core', frames)) :
    Move bd core (.timeouts nowMs nonces) frames core' := by
  cases processTimeouts_fires h with
  | idle => exact .still rfl (absurd rfl)
  | expired hs => exact .failed hs rfl rfl rfl
  | resend hs =>
    exact .handshake hs hs rfl rfl (List.append_nil _).symm (.inl ⟨rfl, rfl⟩) (by simp)
  | @continued e e' calls hs hok =>
    rw [hs] at hsound
    have heffect := (Sound.handleRtoTimer hsound hok).1
    exact .called hs .timeouts (.single heffect) (.inl (withEndpoint_state ..))
      (withEndpoint_events ..)
  | @terminated e e' calls hs hok =>
    rw [hs] at hsound
    obtain ⟨heffect, -, haction⟩ := Sound.handleRtoTimer hsound hok
    exact .called hs .timeouts (.single heffect) (.inr ⟨rfl, (haction.mp rfl).2⟩)
      (withEndpoint_events ..)
  | quiescent hs => exact .idle rfl rfl (absurd rfl)

/-- The second request is the one that the answer to the first one asks for. -/
lemma betaFrame_of_writeBoxed {frame : HandshakeAlphaAckFrame} {localNonce : U32}
    {betaBytes : Bytes} (hnonce : frame.clientNonce = localNonce)
    (hwrite : SimpleFrameWrite.writeBoxed bd (HandshakeBetaFrame.mk localParams frame.clientNonce
      frame.serverNonce frame.serverTimestamp frame.serverMac) = .ok betaBytes) :
    betaBytes = betaFrame localNonce frame := by
  have hboxed := writeBoxed_eq_frame (t := .handshakeBeta) bd
    (HandshakeBetaFrame.mk localParams frame.clientNonce frame.serverNonce
      frame.serverTimestamp frame.serverMac)
  rw [← hnonce]
  exact (Except.ok.inj (hwrite.symm.trans hboxed)).trans (List.append_nil _)

lemma handleHandshakeAlphaAck_move {frameBytes payloadBytes : Bytes}
    (htype : readType bd frameBytes = .ok (some .handshakeAlphaAck))
    (hpayload : payload bd frameBytes = .ok payloadBytes)
    (h : core.handleHandshakeAlphaAck bd payloadBytes nowMs = .ok (core', frames)) :
    Move bd core (.frame frameBytes nowMs nonces) frames core' := by
  rcases handleHandshakeAlphaAck_cases h with
    hidle | ⟨state, frame, hs, hphase, hread, hnonce, hrequest⟩
  · exact .still hidle (absurd rfl)
  · obtain ⟨timeoutTimeMs, timeMs, betaBytes, -, -, hwrite, rfl, rfl⟩ := requestBeta_cases hrequest
    have hreads : Reads HandshakeAlphaAckFrame bd frameBytes frame :=
      ⟨payloadBytes, htype, hpayload, hread⟩
    have hbytes := betaFrame_of_writeBoxed hnonce hwrite
    exact .handshake hs rfl rfl rfl (List.append_nil _).symm
      (.inr ⟨hphase, rfl, _, _, _, frame, rfl, hreads, hnonce, hbytes, rfl⟩) (by simp)

/-- The packets queued up during the handshake reach the endpoint in order. -/
lemma enqueueAll_inputs {packets : List (Bytes × SendMode)} (hsound : e.Sound bd)
    (h : ClientCore.enqueueAll bd e nowMs packets = .ok e') :
    Inputs bd nowMs e (enqueues packets) [] e' ∧ e'.Sound bd := by
  induction packets generalizing e with
  | nil =>
    cases h
    exact ⟨.nil _, hsound⟩
  | cons packet packets ih =>
    obtain ⟨packetBytes, mode⟩ := packet
    obtain ⟨e₁, henqueue, hrest⟩ := bind_eq_ok.mp h
    obtain ⟨heffect, hsound₁, -⟩ := hsound.enqueue henqueue
    obtain ⟨hinputs, hsound'⟩ := ih hsound₁ hrest
    exact ⟨.cons heffect hinputs, hsound'⟩

lemma activate_move {frameBytes : Bytes} {state : HandshakeState}
    (hs : core.state = .handshake state) (hphase : state.phase = .beta)
    (hack : Reads HandshakeBetaAckFrame bd frameBytes ⟨none, state.localNonce⟩)
    (h : core.activate bd nonces state nowMs = .ok (core', frames)) :
    Move bd core (.frame frameBytes nowMs nonces) frames core' := by
  obtain ⟨prioConfig, e₀, e₁, e₂, flushCalls, hprio, hnew, hinit, henqueue, hflush, hwith⟩ :=
    activate_cases h
  have haccepted := toPrio_accepted hprio core.config.connectionTimeoutMs
  have hsound₀ := new_isSound haccepted hnew
  obtain ⟨hinputs, hsound₁⟩ := enqueueAll_inputs (hsound₀.perform hinit).2 henqueue
  have hcalls := hinputs.append (.single (hsound₁.perform hflush).1)
  obtain rfl : _ = core' := congrArg Prod.fst hwith
  obtain rfl : _ = frames := congrArg Prod.snd hwith
  have hevents := withEndpoint_events { core with rtoTimer := none } e₂ (.onConnect :: flushCalls)
  -- The first call on the host reports the connection and sends nothing.
  have hmove : Move bd core (.frame frameBytes nowMs nonces) (sentFrames flushCalls) _ :=
    .activated hs (withEndpoint_state ..) hphase hack haccepted hnew hcalls hevents
  exact hmove

lemma handleHandshakeBetaAck_move {frameBytes payloadBytes : Bytes}
    (htype : readType bd frameBytes = .ok (some .handshakeBetaAck))
    (hpayload : payload bd frameBytes = .ok payloadBytes)
    (h : core.handleHandshakeBetaAck bd nonces payloadBytes nowMs = .ok (core', frames)) :
    Move bd core (.frame frameBytes nowMs nonces) frames core' := by
  rcases handleHandshakeBetaAck_cases h with hidle |
    ⟨state, error, hs, hphase, hread, ⟨rfl, hactivate⟩ | ⟨kind, -, hfail⟩⟩
  · exact .still hidle (absurd rfl)
  · exact activate_move hs hphase ⟨payloadBytes, htype, hpayload, hread⟩ hactivate
  · cases hfail
    exact .failed hs rfl rfl rfl

/-- A call without a packet that is passed on to the endpoint. -/
lemma Performs.move (h : Performs bd nonces core input nowMs frames core')
    (hsound : StateSound bd core.state) (hinputs : InputsOf bd a [input])
    (hpackets : packetsOf a = []) : Move bd core a frames core' := by
  rcases h with hidle | ⟨e, e', calls, hs, hok, hcore⟩
  · exact .still hidle (absurd hpackets)
  · rw [hs] at hsound
    cases hcore
    exact .perform hs hinputs (.single (Sound.perform hsound hok).1)

lemma handleFrame_move {frameBytes : Bytes} (hsound : StateSound bd core.state)
    (h : core.handleFrame bd nonces frameBytes nowMs = .ok (core', frames)) :
    Move bd core (.frame frameBytes nowMs nonces) frames core' := by
  rcases handleFrame_cases h with hidle | ⟨frameType, payloadBytes, htype, hpayload, hdispatch⟩
  · exact .still hidle (absurd rfl)
  · unfold ClientCore.dispatchFrame at hdispatch
    cases frameType with
    | handshakeAlphaAck => exact handleHandshakeAlphaAck_move htype hpayload hdispatch
    | handshakeBetaAck => exact handleHandshakeBetaAck_move htype hpayload hdispatch
    | _ =>
      have hperforms := handleFrameOther_performs hdispatch
      exact hperforms.move hsound (.frame htype hpayload (by simp)) rfl

/-- A packet that is handed over during the handshake is queued up. -/
lemma buffer_move {state : HandshakeState} {packetBytes : Bytes} {mode : SendMode}
    (hs : core.state = .handshake state) (ha : packetsOf a = [(packetBytes, mode)]) :
    Move bd core a [] (core.buffer state packetBytes mode) :=
  .handshake hs rfl rfl rfl (by rw [ha]) (.inl ⟨rfl, rfl⟩) (by simp)

lemma enqueue_move {packetBytes : Bytes} {mode : SendMode} (hsound : StateSound bd core.state)
    (h : core.enqueue bd packetBytes mode nowMs = .ok (core', frames)) :
    Move bd core (.enqueue packetBytes mode nowMs) frames core' := by
  obtain ⟨rfl, ⟨state, hs, rfl⟩ | ⟨e, e', hs, hok, rfl⟩ | ⟨hs, rfl⟩⟩ := enqueue_cases h
  · exact buffer_move hs rfl
  · rw [hs] at hsound
    have hcalls := Inputs.single (Sound.enqueue hsound hok).1
    exact .called hs .enqueue hcalls (.inl rfl) (List.append_nil _).symm
  · exact .still rfl fun _ => hs

lemma send_move {packetBytes : Bytes} {mode : SendMode} (hsound : StateSound bd core.state)
    (h : core.send bd nonces packetBytes mode nowMs = .ok (core', frames)) :
    Move bd core (.send packetBytes mode nowMs nonces) frames core' := by
  unfold ClientCore.send at h
  cases hs : core.state with
  | handshake state =>
    rw [hs] at h
    cases h
    exact buffer_move hs rfl
  | active e =>
    rw [hs] at h hsound
    obtain ⟨e₁, henqueue, h⟩ := bind_eq_ok.mp h
    obtain ⟨⟨e', calls⟩, hflush, h⟩ := bind_eq_ok.mp h
    cases h
    obtain ⟨heffect₁, hsound₁, -⟩ := Sound.enqueue hsound henqueue
    have hok : e₁.perform bd nonces .flush nowMs = .ok (e', calls) := hflush
    exact .perform hs .send (.cons heffect₁ (.single (hsound₁.perform hok).1))
  | quiescent =>
    rw [hs] at h
    cases h
    exact .still rfl fun _ => hs

/-- Every step of a client but the taking of an event is one of the moves listed. -/
theorem Step.move {s s' : State} (hsound : StateSound bd s.core.state) (hstep : Step bd s a s') :
    (∃ frames, Move bd s.core a frames s'.core ∧ s'.sent = s.sent ++ frames ∧
      s'.polled = s.polled) ∨
    a = .poll ∧ s'.core.state = s.core.state ∧ s'.produced = s.produced ∧ s'.sent = s.sent := by
  cases hstep with
  | frame hok => exact .inl ⟨_, handleFrame_move hsound hok, rfl, rfl⟩
  | timeouts hok => exact .inl ⟨_, processTimeouts_move hsound hok, rfl, rfl⟩
  | send hok => exact .inl ⟨_, send_move hsound hok, rfl, rfl⟩
  | enqueue hok => exact .inl ⟨_, enqueue_move hsound hok, rfl, rfl⟩
  | flush hok => exact .inl ⟨_, (flush_performs hok).move hsound .flush rfl, rfl, rfl⟩
  | disconnect hok => exact .inl ⟨_, (disconnect_performs hok).move hsound .disconnect rfl, rfl, rfl⟩
  | poll hevents =>
    refine .inr ⟨rfl, rfl, ?_, rfl⟩
    unfold State.produced
    rw [hevents, List.append_assoc]
    rfl

lemma stateSound_of_reachable {s : State} (hs : Reachable (system bd) s) :
    StateSound bd s.core.state := by
  have hrule := @reachable_keeps bd fun _ _ _ => True
  exact (hrule (fun _ _ _ _ _ _ _ _ _ => trivial) (fun _ _ => trivial) hs).1

/-- The request that a client in its handshake repeats is one that it has sent. -/
lemma requested_reachable {s : State} (hs : Reachable (system bd) s) {state : HandshakeState}
    (hstate : s.core.state = .handshake state) : state.frame ∈ s.sent := by
  induction hs using Reachable.induct generalizing state with
  | init h =>
    obtain ⟨config, localNonce, frame, -, -, rfl⟩ := fresh_of_initial h
    cases hstate
    exact List.mem_singleton_self _
  | @step s s' a hs hstep ih =>
    rcases Step.move (stateSound_of_reachable hs) hstep with
      ⟨frames, hmove, hsent, -⟩ | ⟨-, hsame, -, hsent⟩
    · rw [hsent]
      cases hmove with
      | idle hsame => exact List.mem_append_left _ (ih (hsame.symm.trans hstate))
      | @handshake _ state₀ state' _ _ hs₀ hs' hevents hnonce hpackets hframe hframes =>
        cases hs'.symm.trans hstate
        rcases hframe with ⟨hframe, -⟩ | ⟨-, -, _, _, _, _, -, -, -, -, hframes⟩
        · rw [hframe]
          exact List.mem_append_left _ (ih hs₀)
        · rw [hframes]
          exact List.mem_append_right _ (List.mem_singleton_self _)
      | failed hs₀ hs' => cases hs'.symm.trans hstate
      | activated hs₀ hs' => cases hs'.symm.trans hstate
      | called hs₀ hinputs hcalls hs' =>
        rcases hs' with hs' | ⟨hs', -⟩
        · cases hs'.symm.trans hstate
        · cases hs'.symm.trans hstate
    · rw [hsent]
      exact ih (hsame.symm.trans hstate)

end Moves

end Redpine.ClientRun
