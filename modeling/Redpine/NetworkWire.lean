import Redpine.ClientSafety
import Redpine.EndpointWire
import Redpine.NetworkProgress

/-! Every datagram that a client or a server sends is one that the other side accepts: it fits
into the buffer there, passes the checks, and is read to its end. -/
namespace Redpine.Network
open Machine Buffer Wire Endpoint Transition Server ServerCore ServerRun ClientRun

/-- A request of the handshake, as the server reads it. After its checksum the first one is
filled with zeros; the second one is read to its end. -/
inductive Request (bd : Build) (frameBytes : Bytes) : Prop
  | alpha {frame : HandshakeAlphaFrame}
      (htype : readType bd frameBytes = .ok (some .handshakeAlpha))
      (hread : readAlpha bd frameBytes = .ok (some frame))
      (hfill : ∀ b ∈ frameBytes.drop (handshakeAlphaSize + frameOverheadSize), b = 0)
  | beta {frame : HandshakeBetaFrame} (hread : readBeta bd frameBytes = .ok (some frame))
      (hexactly : ReadsExactly HandshakeBetaFrame bd frameBytes frame)

/-- What a client may send. -/
def FromClient (bd : Build) (frameBytes : Bytes) : Prop :=
  frameBytes.length ≤ 1472 ∧ Request bd frameBytes ∨ WellFormed bd frameBytes

/-- The request that a client in its handshake repeats is one that it may send. -/
def Requesting (bd : Build) (core : ClientCore) : Prop :=
  ∀ state, core.state = .handshake state → FromClient bd state.frame

/-- What a call has returned: frames that a client may send. -/
def SendsRequests (bd : Build) (core : ClientCore) (frames : List Bytes) : Prop :=
  Requesting bd core ∧ ∀ frameBytes ∈ frames, FromClient bd frameBytes

section Client
variable {bd : Build} {core core' : ClientCore} {frames : List Bytes} {e : Endpoint}
  {input : Input} {calls : List HostCall} {nowMs : ℕ} {nonces : ℕ → Bool}

lemma fromClient_alphaFrame (localNonce : U32) : FromClient bd (alphaFrame localNonce) := by
  refine .inl ⟨(paddedAlpha_length _ (by decide)).le, ?_⟩
  refine .alpha (readType_alphaFrame bd localNonce) (readAlpha_alphaFrame bd localNonce) ?_
  intro b hmem
  have hdrop : (alphaFrame localNonce).drop (handshakeAlphaSize + frameOverheadSize) =
      List.replicate (1472 - 11) 0 := List.drop_left' rfl
  rw [hdrop] at hmem
  exact List.eq_of_mem_replicate hmem

lemma fromClient_betaFrame (localNonce : U32) (ack : HandshakeAlphaAckFrame) :
    FromClient bd (betaFrame localNonce ack) := by
  have hlen : (betaFrame localNonce ack).length = 33 := frameOf_length _ _
  refine .inl ⟨hlen.le.trans (by decide), ?_⟩
  exact .beta (readBeta_betaFrame bd localNonce ack) (readsExactly_frameOf trivial)

lemma SendsRequests.idle (h : Requesting bd core)
    (hidle : (core, ([] : List Bytes)) = (core', frames)) : SendsRequests bd core' frames := by
  cases hidle
  exact ⟨h, by simp⟩

lemma requesting_of_active {core : ClientCore} (h : core.state = .active e) :
    Requesting bd core := by
  intro state hs
  cases h.symm.trans hs

lemma requesting_of_quiescent {core : ClientCore} (h : core.state = .quiescent) :
    Requesting bd core := by
  intro state hs
  cases h.symm.trans hs

/-- An endpoint has been called. -/
lemma SendsRequests.withEndpoint (h : SendsWell bd calls)
    (hwith : core.withEndpoint e calls = (core', frames)) : SendsRequests bd core' frames := by
  cases hwith
  refine ⟨requesting_of_active (withEndpoint_state core e calls), fun frameBytes hmem => ?_⟩
  exact .inr (h frameBytes (mem_sentFrames.mp hmem))

lemma sendsWell_of_sound {e' : Endpoint} {input : Input} (h : e.Sound bd)
    (hok : e.perform bd nonces input nowMs = .ok (e', calls)) : SendsWell bd calls := by
  obtain ⟨v, hsender⟩ := h
  have hsender : e.Sender bd False nowMs v := hsender.later False.elim
  exact perform_sendsWell hsender hok

lemma timer_sendsWell {e' : Endpoint} {action : TimeoutAction} (h : e.Sound bd)
    (hok : e.handleRtoTimer bd nonces nowMs = .ok (e', calls, action)) : SendsWell bd calls := by
  obtain ⟨v, hsender⟩ := h
  have hsender : e.Sender bd False nowMs v := hsender.later False.elim
  exact handleRtoTimer_sendsWell hsender hok

lemma processTimeouts_sends (h : Requesting bd core) (hsound : StateSound bd core.state)
    (hok : core.processTimeouts bd nonces nowMs = .ok (core', frames)) :
    SendsRequests bd core' frames := by
  cases processTimeouts_fires hok with
  | idle => exact .idle h rfl
  | expired hs => exact ⟨requesting_of_quiescent rfl, by simp⟩
  | @resend state deadlineMs timeMs hs =>
    refine ⟨h, fun frameBytes hmem => ?_⟩
    rw [List.mem_singleton.mp hmem]
    exact h state hs
  | continued hs htimer =>
    rw [hs] at hsound
    exact .withEndpoint (timer_sendsWell hsound htimer) rfl
  | terminated hs htimer =>
    rw [hs] at hsound
    refine ⟨requesting_of_quiescent rfl, fun frameBytes hmem => ?_⟩
    exact .inr (timer_sendsWell hsound htimer frameBytes (mem_sentFrames.mp hmem))
  | quiescent hs => exact ⟨h, by simp⟩

lemma handleHandshakeAlphaAck_sends (h : Requesting bd core) {payloadBytes : Bytes}
    (hok : core.handleHandshakeAlphaAck bd payloadBytes nowMs = .ok (core', frames)) :
    SendsRequests bd core' frames := by
  rcases handleHandshakeAlphaAck_cases hok with hidle | ⟨state, frame, -, -, -, hnonce, hrequest⟩
  · exact .idle h hidle
  · obtain ⟨timeoutTimeMs, timeMs, betaBytes, -, -, hwrite, rfl, rfl⟩ := requestBeta_cases hrequest
    obtain rfl := betaFrame_of_writeBoxed hnonce hwrite
    refine ⟨fun state' hstate => ?_, fun frameBytes hmem => ?_⟩
    · cases hstate
      exact fromClient_betaFrame _ _
    · rw [List.mem_singleton.mp hmem]
      exact fromClient_betaFrame _ _

lemma activate_sends {state : Client.HandshakeState}
    (hok : core.activate bd nonces state nowMs = .ok (core', frames)) :
    SendsRequests bd core' frames := by
  obtain ⟨prioConfig, e₀, e₁, e₂, flushCalls, hprio, hnew, hinit, henqueue, hflush, hwith⟩ :=
    activate_cases hok
  have hsound₀ := new_isSound (toPrio_accepted hprio core.config.connectionTimeoutMs) hnew
  have hsound₁ := (enqueueAll_inputs (hsound₀.perform hinit).2 henqueue).2
  have hcalls := (sendsWell_of_sound hsound₀ hinit).append (sendsWell_of_sound hsound₁ hflush)
  exact .withEndpoint hcalls hwith

lemma handleHandshakeBetaAck_sends (h : Requesting bd core) {payloadBytes : Bytes}
    (hok : core.handleHandshakeBetaAck bd nonces payloadBytes nowMs = .ok (core', frames)) :
    SendsRequests bd core' frames := by
  rcases handleHandshakeBetaAck_cases hok with hidle |
    ⟨state, error, -, -, -, ⟨-, hactivate⟩ | ⟨kind, -, hfail⟩⟩
  · exact .idle h hidle
  · exact activate_sends hactivate
  · cases hfail
    exact ⟨requesting_of_quiescent rfl, by simp⟩

lemma Performs.sends (hperforms : Performs bd nonces core input nowMs frames core')
    (h : Requesting bd core) (hsound : StateSound bd core.state) :
    SendsRequests bd core' frames := by
  rcases hperforms with hidle | ⟨e, e', calls, hs, hok, hwith⟩
  · exact .idle h hidle
  · rw [hs] at hsound
    exact .withEndpoint (sendsWell_of_sound hsound hok) hwith

lemma handleFrame_sends (h : Requesting bd core) (hsound : StateSound bd core.state)
    {frameBytes : Bytes} (hok : core.handleFrame bd nonces frameBytes nowMs = .ok (core', frames)) :
    SendsRequests bd core' frames := by
  rcases handleFrame_cases hok with hidle | ⟨frameType, payloadBytes, -, -, hdispatch⟩
  · exact .idle h hidle
  · unfold ClientCore.dispatchFrame at hdispatch
    cases frameType with
    | handshakeAlphaAck => exact handleHandshakeAlphaAck_sends h hdispatch
    | handshakeBetaAck => exact handleHandshakeBetaAck_sends h hdispatch
    | _ => exact Performs.sends (handleFrameOther_performs hdispatch) h hsound

lemma enqueue_sends (h : Requesting bd core) {packetBytes : Bytes} {mode : SendMode}
    (hok : core.enqueue bd packetBytes mode nowMs = .ok (core', frames)) :
    SendsRequests bd core' frames := by
  obtain ⟨rfl, ⟨state, hs, rfl⟩ | ⟨e, e', -, -, rfl⟩ | ⟨-, rfl⟩⟩ := enqueue_cases hok
  · refine ⟨fun state' hstate => ?_, by simp⟩
    cases hstate
    exact h state hs
  · exact ⟨requesting_of_active rfl, by simp⟩
  · exact .idle h rfl

lemma send_sends (h : Requesting bd core) (hsound : StateSound bd core.state)
    {packetBytes : Bytes} {mode : SendMode}
    (hok : core.send bd nonces packetBytes mode nowMs = .ok (core', frames)) :
    SendsRequests bd core' frames := by
  rw [send_eq] at hok
  obtain ⟨⟨core₁, frames₁⟩, henqueue, hflush⟩ := bind_eq_ok.mp hok
  have hsound₁ := (enqueue_runs hsound henqueue).2
  exact Performs.sends (flush_performs hflush) (enqueue_sends h henqueue).1 hsound₁

/-- Each call on a client, in any of its states. -/
theorem coreCall_sends (h : Requesting bd core) (hsound : StateSound bd core.state)
    {a : ClientRun.Action} (hok : coreCall bd core a = .ok (core', frames)) :
    SendsRequests bd core' frames := by
  cases a with
  | frame frameBytes nowMs nonces => exact handleFrame_sends h hsound hok
  | timeouts nowMs nonces => exact processTimeouts_sends h hsound hok
  | send packetBytes mode nowMs nonces => exact send_sends h hsound hok
  | enqueue packetBytes mode nowMs => exact enqueue_sends h hok
  | flush nowMs nonces => exact Performs.sends (flush_performs hok) h hsound
  | disconnect nowMs => exact Performs.sends (disconnect_performs hok) h hsound
  | poll =>
    cases hok
    exact ⟨h, by simp⟩

/-- Whatever a client receives and its user does, it sends nothing else. -/
theorem sent_reachable {s : ClientRun.State} (hs : Reachable (ClientRun.system bd) s) :
    Requesting bd s.core ∧ ∀ frameBytes ∈ s.sent, FromClient bd frameBytes := by
  induction hs using Reachable.induct with
  | init h =>
    obtain ⟨config, localNonce, frame, -, hwrite, rfl⟩ := ClientRun.fresh_of_initial h
    rw [writeHandshakeAlpha_eq bd _ (by decide)] at hwrite
    cases hwrite
    refine ⟨fun state hstate => ?_, fun frameBytes hmem => ?_⟩
    · cases hstate
      exact fromClient_alphaFrame localNonce
    · rw [List.mem_singleton.mp hmem]
      exact fromClient_alphaFrame localNonce
  | @step s s' a hs hstep ih =>
    obtain ⟨hrequesting, hsent⟩ := ih
    obtain ⟨frames, hok, hframes⟩ := ClientSafety.coreCall_of_step hstep
    obtain ⟨hrequesting', hnew⟩ :=
      coreCall_sends hrequesting (stateSound_of_reachable hs) hok
    refine ⟨hrequesting', fun frameBytes hmem => ?_⟩
    rw [hframes] at hmem
    rcases List.mem_append.mp hmem with hmem | hmem
    · exact hsent frameBytes hmem
    · exact hnew frameBytes hmem

end Client

/-- All frames among what leaves a server are well formed. -/
def EmitsWell (bd : Build) (emissions : List Emission) : Prop :=
  ∀ frameBytes addr, (frameBytes, addr) ∈ emissions.filterMap Emission.frame →
    WellFormed bd frameBytes

section Server
variable {bd : Build} {hash : Bytes → U64} {core core' : ServerCore} {emissions : List Emission}
  {calls : List HostCall} {nowMs : ℕ} {nonces : ℕ → Bool} {peer : PeerRef}

lemma EmitsWell.host {addr : SocketAddr} (h : SendsWell bd calls) :
    EmitsWell bd (calls.map (.host peer addr)) := by
  intro frameBytes addr' hmem
  obtain ⟨emission, hemission, hframe⟩ := List.mem_filterMap.mp hmem
  obtain ⟨call, hcall, rfl⟩ := List.mem_map.mp hemission
  cases call with
  | sendFrame frameBytes' =>
    cases hframe
    exact h frameBytes hcall
  | _ => cases hframe

lemma EmitsWell.reply {frameBytes : Bytes} {addr : SocketAddr} (h : WellFormed bd frameBytes) :
    EmitsWell bd [.reply frameBytes addr] := by
  intro frameBytes' addr' hmem
  cases List.mem_singleton.mp hmem
  exact h

lemma EmitsWell.append {more : List Emission} (h : EmitsWell bd emissions)
    (h' : EmitsWell bd more) : EmitsWell bd (emissions ++ more) := by
  intro frameBytes addr hmem
  rw [List.filterMap_append] at hmem
  rcases List.mem_append.mp hmem with hmem | hmem
  · exact h frameBytes addr hmem
  · exact h' frameBytes addr hmem

lemma emitsWell_nil (bd : Build) : EmitsWell bd [] := fun _ _ hmem => by cases hmem

lemma handleFrame_emits {draws : Draws} {frameBytes : Bytes} {addr : SocketAddr}
    (hinv : Inv bd core)
    (h : core.handleFrame bd hash draws frameBytes addr = .ok (core', emissions)) :
    EmitsWell bd emissions := by
  cases handleFrame_step h with
  | ignored hnone => exact emitsWell_nil bd
  | alpha htype hread hack =>
    subst hack
    exact .reply (wellFormed_simple .handshakeAlphaAck _)
  | @answered frame ackBytes error hrequest herror hack =>
    subst hack
    exact .reply (wellFormed_simple .handshakeBetaAck ⟨error, frame.clientNonce⟩)
  | @created frame ackBytes prioConfig e hrequest hlookup hcount hprio hnew hack =>
    subst hack
    have hinit : EmitsWell bd [.host core.heap.length addr .onConnect] :=
      fun _ _ hmem => by cases hmem
    exact hinit.append (.reply (wellFormed_simple .handshakeBetaAck ⟨none, frame.clientNonce⟩))
  | @delivered frameType payloadBytes peer p e calls htype hother hpayload hlookup hp hcall =>
    have hok : p.endpoint.perform bd draws.nonces (.frame frameType payloadBytes)
        draws.peerNowMs = .ok (e, calls) := hcall
    exact .host (sendsWell_of_sound (hinv.sound peer p hp) hok)

/-- A call on the endpoint of a peer. -/
lemma callPeer_emits {call : Endpoint → Exec (Endpoint × List HostCall)} (hinv : Inv bd core)
    (hcall : ∀ e e' calls, e.Sound bd → call e = .ok (e', calls) → SendsWell bd calls)
    (h : core.callPeer peer call = .ok (core', emissions)) : EmitsWell bd emissions := by
  obtain ⟨p, e, calls, hp, hok, -, rfl⟩ := callPeer_eq_ok h
  exact .host (hcall _ _ _ (hinv.sound peer p hp) hok)

lemma fireNext_emits (hinv : Inv bd core)
    (h : core.fireNext bd nonces peer nowMs = .ok (core', emissions)) :
    EmitsWell bd emissions := by
  obtain ⟨p, hp, h⟩ := bind_eq_ok.mp h
  obtain ⟨⟨e, calls, action⟩, hcall, h⟩ := bind_eq_ok.mp h
  have hwell := timer_sendsWell (hinv.sound peer p (index_eq_ok.mp hp)) hcall
  cases action with
  | «continue» =>
    cases h
    exact .host hwell
  | terminate =>
    cases h
    exact .host hwell

/-- What a step of a server adds to what has left it. -/
theorem emits_of_step {s s' : ServerRun.State} {a : ServerRun.Action} (hinv : Inv bd s.core)
    (h : ServerRun.Step bd hash s a s') :
    ∃ emissions, s'.emitted = s.emitted ++ emissions ∧ EmitsWell bd emissions := by
  cases h with
  | frame hpass hclock hok => exact ⟨_, rfl, handleFrame_emits hinv hok⟩
  | fireNext hpass hbuffer hclock hok => exact ⟨_, rfl, fireNext_emits hinv hok⟩
  | @send peer packetBytes mode nowMs nonces core emissions hhandle hclock hok =>
    refine ⟨_, rfl, callPeer_emits hinv (fun e e' calls hsound hcall => ?_) hok⟩
    obtain ⟨e₁, henqueue, hflush⟩ := bind_eq_ok.mp hcall
    have hperform : e₁.perform bd nonces .flush nowMs = .ok (e', calls) := hflush
    exact sendsWell_of_sound (hsound.enqueue henqueue).2.1 hperform
  | @enqueue peer packetBytes mode nowMs core emissions hhandle hclock hok =>
    refine ⟨_, rfl, callPeer_emits hinv (fun e e' calls hsound hcall => ?_) hok⟩
    obtain ⟨e₁, -, hcall⟩ := bind_eq_ok.mp hcall
    cases hcall
    exact .nil bd
  | @flush peer nowMs nonces core emissions hhandle hclock hok =>
    refine ⟨_, rfl, callPeer_emits hinv (fun e e' calls hsound hcall => ?_) hok⟩
    have hperform : e.perform bd nonces .flush nowMs = .ok (e', calls) := hcall
    exact sendsWell_of_sound hsound hperform
  | @disconnect peer nowMs core emissions hhandle hclock hok =>
    refine ⟨_, rfl, callPeer_emits hinv (fun e e' calls hsound hcall => ?_) hok⟩
    have hperform : e.perform bd (fun _ => false) .disconnect nowMs = .ok (e', calls) := hcall
    exact sendsWell_of_sound hsound hperform
  | _ => exact ⟨[], (List.append_nil _).symm, emitsWell_nil bd⟩

theorem emitted_reachable {s : ServerRun.State} (hs : Reachable (ServerRun.system bd hash) s) :
    EmitsWell bd s.emitted := by
  induction hs using Reachable.induct with
  | init h =>
    obtain ⟨config, core, hbind, rfl⟩ := h
    exact emitsWell_nil bd
  | @step s s' a hs hstep ih =>
    obtain ⟨emissions, hemitted, hwell⟩ := emits_of_step (inv_reachable hs) hstep
    rw [hemitted]
    exact ih.append hwell

end Server

section Run
variable {bd : Build} {hash : Bytes → U64} {addr : SocketAddr} {s : State}

/-- In every run of a client, a server and a network that loses, duplicates, delays and reorders
what they send, every datagram that either of them sends is one that the other one accepts. -/
theorem datagrams_wellFormed (hs : Reachable (system bd hash addr) s) :
    (∀ frameBytes ∈ s.client.sent, frameBytes.length ≤ Server.frameSizeMax ∧
      (Request bd frameBytes ∨ WellFormed bd frameBytes)) ∧
    ∀ frameBytes addr', s.HasSent frameBytes addr' →
      frameBytes.length ≤ Client.frameSizeMax ∧ WellFormed bd frameBytes := by
  refine ⟨fun frameBytes hmem => ?_, fun frameBytes addr' hmem => ?_⟩
  · rcases (sent_reachable (client_reachable hs)).2 frameBytes hmem with ⟨hle, hrequest⟩ | hwell
    · exact ⟨hle, .inl hrequest⟩
    · exact ⟨hwell.size_le, .inr hwell⟩
  · have hwell := emitted_reachable (server_reachable hs) frameBytes addr' hmem
    exact ⟨hwell.size_le, hwell⟩

end Run

section Sample

/-- The two requests of a handshake. -/
theorem datagrams_wellFormed_handshake : ∃ s, Reachable (system .debug sampleHash sampleAddr) s ∧
    s.client.sent.map List.length = [1472, 33] ∧
    ∀ frameBytes ∈ s.client.sent, Request .debug frameBytes ∨ WellFormed .debug frameBytes := by
  have hrun : ((sampleStart.bind fun s =>
      replay (next .debug sampleHash sampleAddr) s sampleHandshake).map fun s =>
        s.client.sent.map List.length) = some [1472, 33] := by decide +kernel
  obtain ⟨s, hreplay, hlengths⟩ := Option.map_eq_some_iff.mp hrun
  have hs := replay_reachable hreplay
  exact ⟨s, hs, hlengths, fun frameBytes hmem => ((datagrams_wellFormed hs).1 frameBytes hmem).2⟩

end Sample

end Redpine.Network
