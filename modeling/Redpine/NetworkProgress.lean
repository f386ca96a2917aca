import Redpine.ClientSafety
import Redpine.Network
import Redpine.ServerSafety

/-! A client in its handshake is never stuck: once its request and the answer to it get through,
twice at the start and once later on, both sides are connected. An answer that has been lost is
given again. -/
namespace Redpine.Network
open Machine Buffer Wire Endpoint Transition Server ServerCore ServerRun ClientRun

/-- The server receives the request that the client repeats, and the client the reply of the
server to it. -/
inductive Exchange (bd : Build) (hash : Bytes → U64) (addr : SocketAddr) (s : State) (draws : Draws)
    (nowMs : ℕ) (nonces : ℕ → Bool) (s' : State) : Prop
  | mk {state : Client.HandshakeState} {reply : Bytes} {s₁ : State}
      (hstate : s.client.core.state = .handshake state)
      (hrequest : Step bd hash addr s (.server (.frame draws state.frame addr)) s₁)
      (hreply : s₁.server.emitted.getLast? = some (.reply reply addr))
      (hanswer : Step bd hash addr s₁ (.client (.frame reply nowMs nonces)) s') :
      Exchange bd hash addr s draws nowMs nonces s'

/-- Both sides have the connection, and the user of the client is told. -/
structure Connected (addr : SocketAddr) (s : State) : Prop where
  active : ∃ e, s.client.core.state = .active e
  reported : .connect ∈ s.client.produced
  found : (s.server.core.peers.lookup addr).isSome = true

section Client
variable {bd : Build} {core : ClientCore} {nonces : ℕ → Bool} {nowMs : ℕ}
  {state : Client.HandshakeState}

/-- A frame that is written correctly is dispatched by its type. -/
lemma client_handleFrame_frameOf (frameType : FrameType) (p : Bytes) :
    core.handleFrame bd nonces (frameOf frameType p) nowMs =
      core.dispatchFrame bd nonces frameType p nowMs := by
  unfold ClientCore.handleFrame
  rw [if_pos (verifyMinimumSize_frameOf _ _), readType_frameOf, ok_bind]
  dsimp only
  rw [verifyCrc_frameOf, ok_bind, if_pos rfl, payload_frameOf, ok_bind]

lemma readPayload_encode_nil {α : Type} [SimpleFrame α] [LawfulBlock α] (bd : Build) {obj : α}
    (hvalid : LawfulBlock.Valid obj) :
    readPayload α bd (LawfulBlock.encode obj) = .ok (some obj) := by
  have hencode := readPayload_encode bd [] hvalid
  rwa [List.append_nil] at hencode

/-- The answer to the first request: the client goes on to the second one. -/
lemma client_receives_alphaAck (nonces : ℕ → Bool) (hs : core.state = .handshake state)
    (hphase : state.phase = .alpha) (htimeout : state.timeoutMs < 2 ^ 62) (hlt : nowMs < 2 ^ 62)
    {ack : HandshakeAlphaAckFrame} (hnonce : ack.clientNonce = state.localNonce)
    (hparams : ack.serverParams = localParams) :
    ∃ core' state', core.handleFrame bd nonces (ackFrameBytes ack) nowMs =
        .ok (core', [betaFrame state.localNonce ack]) ∧
      core'.state = .handshake state' ∧ state'.phase = .beta ∧
      state'.frame = betaFrame state.localNonce ack ∧ state'.timeoutMs = state.timeoutMs ∧
      state'.packetBuffer = state.packetBuffer := by
  have hcompatible : connectionParamsCompatible localParams ack.serverParams = true := by
    rw [hparams]
    decide
  have hread : readPayload HandshakeAlphaAckFrame bd (LawfulBlock.encode ack) = .ok (some ack) :=
    readPayload_encode_nil bd trivial
  have hwrite : SimpleFrameWrite.writeBoxed bd (betaRequest ack.clientNonce ack) =
      .ok (betaFrame state.localNonce ack) := by
    have hboxed := writeBoxed_eq_frame (t := .handshakeBeta) bd (betaRequest ack.clientNonce ack)
    rw [← hnonce]
    exact hboxed.trans (congrArg Except.ok (List.append_nil _))
  unfold ackFrameBytes
  rw [client_handleFrame_frameOf]
  unfold ClientCore.dispatchFrame ClientCore.handleHandshakeAlphaAck
  dsimp only
  rw [hs]
  dsimp only
  rw [if_pos hphase, hread, ok_bind]
  dsimp only
  rw [if_pos ⟨hnonce, hcompatible⟩]
  unfold ClientCore.requestBeta
  rw [checkedAdd_of_lt (by omega), ok_bind,
    checkedAdd_of_lt (by rw [Client.handshakeResendTimeoutMs]; omega), ok_bind]
  change ∃ core' state', (SimpleFrameWrite.writeBoxed bd (betaRequest ack.clientNonce ack) >>= _) =
    _ ∧ _
  rw [hwrite]
  exact ⟨_, _, rfl, rfl, rfl, rfl, rfl, rfl⟩

/-- The endpoint of a client that is activated reports the connection. -/
lemma activate_connects {core' : ClientCore} {frames : List Bytes}
    (h : core.activate bd nonces state nowMs = .ok (core', frames)) :
    (∃ e, core'.state = .active e) ∧ .connect ∈ core'.events := by
  obtain ⟨prioConfig, -, hcreate⟩ := bind_eq_ok.mp h
  obtain ⟨e₀, -, hstart⟩ := bind_eq_ok.mp hcreate
  obtain ⟨⟨e₁, initCalls⟩, hinit, hfill⟩ := bind_eq_ok.mp hstart
  obtain ⟨e₂, -, hdrain⟩ := bind_eq_ok.mp hfill
  obtain ⟨⟨e₃, flushCalls⟩, -, hreturn⟩ := bind_eq_ok.mp hdrain
  obtain ⟨_, -, hinit⟩ := bind_eq_ok.mp hinit
  cases hinit
  have hwith : ({ core with rtoTimer := none } : ClientCore).withEndpoint e₃
      ([.onConnect] ++ flushCalls) = (core', frames) := Except.ok.inj hreturn
  obtain rfl : _ = core' := congrArg Prod.fst hwith
  refine ⟨⟨e₃, withEndpoint_state ..⟩, ?_⟩
  rw [withEndpoint_events]
  exact List.mem_append_right _ List.mem_cons_self

/-- The answer to the second request: the client is connected. -/
lemma client_receives_betaAck (nonces : ℕ → Bool) (hs : core.state = .handshake state)
    (hphase : state.phase = .beta) (hsafe : ClientSafety.CoreSafe bd core nowMs)
    (hlt : nowMs < 2 ^ 62) :
    ∃ core' frames, core.handleFrame bd nonces (betaAckBytes none state.localNonce) nowMs =
        .ok (core', frames) ∧
      (∃ e, core'.state = .active e) ∧ .connect ∈ core'.events := by
  have hread : readPayload HandshakeBetaAckFrame bd
      (LawfulBlock.encode (HandshakeBetaAckFrame.mk none state.localNonce)) =
        .ok (some ⟨none, state.localNonce⟩) := readPayload_encode_nil bd trivial
  have hcall : ClientSafety.SafeCall bd nowMs (core.activate bd nonces state nowMs) :=
    ClientSafety.activate_safe hsafe hlt hs
  obtain ⟨core', frames, hok, -⟩ := hcall
  refine ⟨core', frames, ?_, activate_connects hok⟩
  unfold betaAckBytes
  rw [client_handleFrame_frameOf]
  unfold ClientCore.dispatchFrame ClientCore.handleHandshakeBetaAck
  dsimp only
  rw [hs]
  dsimp only
  rw [if_pos hphase, hread, ok_bind]
  dsimp only
  rwa [if_pos rfl]

end Client

section Server
variable {bd : Build} {hash : Bytes → U64} {core : ServerCore} {draws : Draws} {addr : SocketAddr}
  {localNonce : U32} {ack : HandshakeAlphaAckFrame}

lemma readAlpha_alphaFrame (bd : Build) (localNonce : U32) :
    readAlpha bd (alphaFrame localNonce) = .ok (some ⟨protocolId, localNonce⟩) := by
  obtain ⟨frameBytes, payloadBytes, hwrite, hverify, -, hpayload, hread⟩ :=
    handshakeAlphaRoundTrip bd ⟨protocolId, localNonce⟩ 1472 (by decide)
  rw [writeHandshakeAlpha_eq bd _ (by decide)] at hwrite
  cases hwrite
  have hverify : verifyHandshakeAlphaSizeAndCrc bd (alphaFrame localNonce)
      Server.frameSizeMax = .ok true := hverify
  have hpayload : payload bd (alphaFrame localNonce) = .ok payloadBytes := hpayload
  unfold readAlpha
  rw [hverify, ok_bind, if_pos rfl, hpayload, ok_bind, hread, ok_bind]
  exact if_pos rfl

/-- The first request is answered. -/
lemma server_receives_alpha (bd : Build) (hash : Bytes → U64) (core : ServerCore) (draws : Draws)
    (addr : SocketAddr) (localNonce : U32) :
    core.handleFrame bd hash draws (alphaFrame localNonce) addr =
      .ok (core, [.reply (ackFrameBytes
        (alphaAck hash draws.serverNonce ⟨protocolId, localNonce⟩ addr draws.nowMs)) addr]) := by
  have hsize : verifyMinimumSize (alphaFrame localNonce) = true :=
    verifyMinimumSize_paddedAlpha _ (by decide)
  unfold ServerCore.handleFrame
  rw [if_pos hsize, readType_alphaFrame, ok_bind]
  unfold ServerCore.dispatchFrame ServerCore.handleHandshakeAlpha
  dsimp only
  rw [readAlpha_alphaFrame, ok_bind]
  dsimp only
  rw [simpleWrite_eq trivial (by decide) (by decide)]
  rfl

/-- A valid request is granted if its sender has a peer, or there is room for another. -/
lemma acceptBeta_granted (frame : HandshakeBetaFrame) (hparams : frame.clientParams = localParams)
    (hprio : ∃ prioConfig, core.config.channelBalance.toPrio bd = .ok prioConfig)
    (hroom : (core.peers.lookup addr).isSome = true ∨
      core.peers.entries.length < core.config.peerCountMax) :
    ∃ core' emissions, core.acceptBeta bd frame addr = .ok (core', emissions, none) ∧
      (core'.peers.lookup addr).isSome = true := by
  unfold ServerCore.acceptBeta
  by_cases hlookup : (core.peers.lookup addr).isSome = true
  · exact ⟨core, [], if_pos hlookup, hlookup⟩
  have hcount := not_le.mpr (hroom.resolve_left hlookup)
  have hcompatible : ¬ (!connectionParamsCompatible frame.clientParams localParams) = true := by
    rw [hparams]
    decide
  obtain ⟨⟨core', emissions⟩, hcreate⟩ := createPeer_total hprio addr
  obtain ⟨prioConfig, e, -, -, rfl, -⟩ := createPeer_spec hcreate
  rw [if_neg hlookup, if_neg hcount, if_neg hcompatible, hcreate]
  exact ⟨_, emissions, rfl, by simp [withCreated]⟩

/-- The second request is granted. -/
lemma server_receives_beta (hmac : macValid hash (betaRequest localNonce ack) addr = true)
    (htime : timestampValid (betaRequest localNonce ack) draws.nowMs = true)
    (hprio : ∃ prioConfig, core.config.channelBalance.toPrio bd = .ok prioConfig)
    (hroom : (core.peers.lookup addr).isSome = true ∨
      core.peers.entries.length < core.config.peerCountMax) :
    ∃ core' emissions, core.handleFrame bd hash draws (betaFrame localNonce ack) addr =
        .ok (core', emissions ++ [.reply (betaAckBytes none localNonce) addr]) ∧
      (core'.peers.lookup addr).isSome = true := by
  obtain ⟨core', emissions, haccept, hfound⟩ :=
    acceptBeta_granted (betaRequest localNonce ack) rfl hprio hroom
  refine ⟨core', emissions, ?_, hfound⟩
  have htype : readType bd (betaFrame localNonce ack) = .ok (some .handshakeBeta) :=
    readType_frameOf ..
  have hsize : verifyMinimumSize (betaFrame localNonce ack) = true := verifyMinimumSize_frameOf ..
  unfold ServerCore.handleFrame
  rw [if_pos hsize, htype, ok_bind]
  unfold ServerCore.dispatchFrame ServerCore.handleHandshakeBeta
  dsimp only
  rw [readBeta_betaFrame, ok_bind]
  dsimp only
  rw [hmac, htime, Bool.and_true, if_pos rfl, haccept, ok_bind]
  dsimp only
  rw [simpleWrite_eq trivial (by decide) (by decide)]
  rfl

end Server

section Exchanges
variable {bd : Build} {hash : Bytes → U64} {addr : SocketAddr} {s : State} {draws : Draws}
  {nowMs : ℕ} {nonces : ℕ → Bool} {state : Client.HandshakeState}

/-- The request that the client repeats in each phase, and where its answer has come from. -/
lemma Requests.cases {localNonce : U32} {answer : Option HandshakeAlphaAckFrame}
    {phase : Client.HandshakePhase} {frameBytes : Bytes}
    (h : Requests localNonce answer phase frameBytes) :
    phase = .alpha ∧ answer = none ∧ frameBytes = alphaFrame localNonce ∨
    ∃ ack, phase = .beta ∧ answer = some ack ∧ frameBytes = betaFrame localNonce ack := by
  cases h with
  | alpha hnone => exact .inl ⟨rfl, hnone, rfl⟩
  | @beta ack hack => exact .inr ⟨ack, rfl, hack, rfl⟩

lemma macValid_of_answered {ack : HandshakeAlphaAckFrame}
    (hs : Reachable (system bd hash addr) s) (hanswered : HasAnswered s.server ack addr) :
    macValid hash (betaRequest ack.clientNonce ack) addr = true := by
  obtain ⟨hmac, -⟩ := acksHashed_reachable (server_reachable hs) ack addr hanswered
  exact decide_eq_true hmac

/-- The server receives the request that the client repeats. -/
lemma step_request (hs : Reachable (system bd hash addr) s)
    (hstate : s.client.core.state = .handshake state) (hpass : s.server.pass = .idle)
    (hclock : s.server.nowMs ≤ draws.nowMs ∧ draws.nowMs ≤ draws.peerNowMs) {core : ServerCore}
    {emissions : List Emission}
    (hok : s.server.core.handleFrame bd hash draws state.frame addr = .ok (core, emissions)) :
    ∃ s₁, Step bd hash addr s (.server (.frame draws state.frame addr)) s₁ ∧
      s₁.client = s.client ∧ s₁.server.core = core ∧ s₁.server.pass = .idle ∧
      s₁.server.nowMs = draws.peerNowMs ∧ s₁.server.emitted = s.server.emitted ++ emissions := by
  have hsent := requested_reachable (client_reachable hs) hstate
  refine ⟨_, .server (fun _ _ ha => ?_) (.frame hpass hclock hok), rfl, rfl, hpass, rfl, rfl⟩
  cases ha
  exact hsent

/-- The client receives the last reply of the server to it. -/
lemma step_reply {reply : Bytes} (hreply : s.server.emitted.getLast? = some (.reply reply addr))
    {core : ClientCore} {frames : List Bytes}
    (hok : s.client.core.handleFrame bd nonces reply nowMs = .ok (core, frames)) :
    ∃ s', Step bd hash addr s (.client (.frame reply nowMs nonces)) s' ∧
      s'.client.core = core ∧ s'.client.polled = s.client.polled ∧ s'.server = s.server := by
  refine ⟨_, .client (fun _ _ _ ha => ?_) (.frame hok), rfl, rfl, rfl⟩
  cases ha
  exact List.mem_filterMap.mpr ⟨_, List.mem_of_getLast? hreply, rfl⟩

/-- The second exchange connects the client, whether or not the server has already granted its
request. -/
lemma exchange_beta (hs : Reachable (system bd hash addr) s)
    (hstate : s.client.core.state = .handshake state) (hphase : state.phase = .beta)
    (htimeout : state.timeoutMs < 2 ^ 62) (hpackets : ∀ packet ∈ state.packetBuffer, packet.1 ≠ [])
    (hpass : s.server.pass = .idle)
    (hroom : (s.server.core.peers.lookup addr).isSome = true ∨
      s.server.core.peers.entries.length < s.server.core.config.peerCountMax)
    (hclock : s.server.nowMs ≤ draws.nowMs ∧ draws.nowMs ≤ draws.peerNowMs)
    (hfresh : ∀ frame, readBeta bd state.frame = .ok (some frame) →
      timestampValid frame draws.nowMs = true) (hlt : nowMs < 2 ^ 62) :
    ∃ s', Exchange bd hash addr s draws nowMs nonces s' ∧ Connected addr s' := by
  obtain ⟨localNonce, answer, hinv⟩ := handshaking_reachable hs
  obtain ⟨hlocal, hrequests⟩ := hinv.requesting state hstate
  rcases hrequests.cases with ⟨halpha, -⟩ | ⟨ack, -, hack, hframe⟩
  · cases hphase.symm.trans halpha
  obtain ⟨hnonce, hanswered⟩ := hinv.answered ack hack
  have hmac := macValid_of_answered hs hanswered
  rw [hnonce] at hmac
  have htime := hfresh _ (hframe ▸ readBeta_betaFrame bd localNonce ack)
  obtain ⟨core, emissions, hserver, hfound⟩ :=
    server_receives_beta hmac htime (priorities_reachable (server_reachable hs)) hroom
  rw [← hframe] at hserver
  obtain ⟨s₁, hrequest, hclient, hcore, -, -, hemitted⟩ :=
    step_request hs hstate hpass hclock hserver
  have hreply : s₁.server.emitted.getLast? = some (.reply (betaAckBytes none localNonce) addr) := by
    rw [hemitted, ← List.append_assoc, List.getLast?_concat]
  have hstate₁ : s₁.client.core.state = .handshake state := hclient ▸ hstate
  have hprio := ClientSafety.priorities_reachable (client_reachable hs)
  have hsafe : ClientSafety.CoreSafe bd s₁.client.core nowMs := by
    refine ⟨hclient ▸ hprio, ?_⟩
    rw [hstate₁]
    exact ⟨htimeout, hpackets⟩
  obtain ⟨core', frames, hanswer, hactive, hconnect⟩ :=
    client_receives_betaAck nonces hstate₁ hphase hsafe hlt
  rw [hlocal] at hanswer
  obtain ⟨s', hanswer, hcore', -, hserver'⟩ := step_reply hreply hanswer
  refine ⟨s', .mk hstate hrequest hreply hanswer, ?_, ?_, ?_⟩
  · rw [hcore']
    exact hactive
  · rw [← hcore'] at hconnect
    exact List.mem_append_right _ hconnect
  · rw [hserver', hcore]
    exact hfound

/-- What has become of a client in its handshake, and of the server, once its first request has
been answered at a time. -/
structure Answered (bd : Build) (s s₁ : State) (state state₁ : Client.HandshakeState)
    (draws : Draws) : Prop where
  state_eq : s₁.client.core.state = .handshake state₁
  phase : state₁.phase = .beta
  timeout : state₁.timeoutMs = state.timeoutMs
  packets : state₁.packetBuffer = state.packetBuffer
  timestamp : ∀ frame, readBeta bd state₁.frame = .ok (some frame) →
    frame.serverTimestamp = timestamp draws.nowMs
  pass : s₁.server.pass = .idle
  core : s₁.server.core = s.server.core
  clock : s₁.server.nowMs = draws.peerNowMs

/-- The first exchange leads to the second request. -/
lemma exchange_alpha (hs : Reachable (system bd hash addr) s)
    (hstate : s.client.core.state = .handshake state) (hphase : state.phase = .alpha)
    (htimeout : state.timeoutMs < 2 ^ 62) (hpass : s.server.pass = .idle)
    (hclock : s.server.nowMs ≤ draws.nowMs ∧ draws.nowMs ≤ draws.peerNowMs)
    (hlt : nowMs < 2 ^ 62) :
    ∃ s₁ state₁, Reachable (system bd hash addr) s₁ ∧
      Exchange bd hash addr s draws nowMs nonces s₁ ∧ Answered bd s s₁ state state₁ draws := by
  obtain ⟨localNonce, answer, hinv⟩ := handshaking_reachable hs
  obtain ⟨hlocal, hrequests⟩ := hinv.requesting state hstate
  rcases hrequests.cases with ⟨-, -, hframe⟩ | ⟨ack, hbeta, -⟩
  swap
  · cases hphase.symm.trans hbeta
  have hserver := server_receives_alpha bd hash s.server.core draws addr localNonce
  rw [← hframe] at hserver
  obtain ⟨s₁, hrequest, hclient, hcore, hidle, hnow, hemitted⟩ :=
    step_request hs hstate hpass hclock hserver
  set ack := alphaAck hash draws.serverNonce ⟨protocolId, localNonce⟩ addr draws.nowMs with hack
  have hreply : s₁.server.emitted.getLast? = some (.reply (ackFrameBytes ack) addr) := by
    rw [hemitted, List.getLast?_concat]
  have hstate₁ : s₁.client.core.state = .handshake state := hclient ▸ hstate
  have hnonce : ack.clientNonce = state.localNonce := hlocal.symm
  obtain ⟨core', state', hanswer, hs', hphase', hframe', htimeout', hpackets'⟩ :=
    client_receives_alphaAck nonces hstate₁ hphase htimeout hlt hnonce rfl
  obtain ⟨s', hanswer, hcore', -, hserver'⟩ := step_reply hreply hanswer
  refine ⟨s', state', (hs.step hrequest).step hanswer, .mk hstate hrequest hreply hanswer,
    hcore' ▸ hs', hphase', htimeout', hpackets', fun frame hread => ?_, ?_, ?_, ?_⟩
  · rw [hframe', readBeta_betaFrame] at hread
    cases hread
    rfl
  · rw [hserver']
    exact hidle
  · rw [hserver']
    exact hcore
  · rw [hserver']
    exact hnow

lemma timestampValid_of_lt {frame : HandshakeBetaFrame} {nowMs nowMs' : ℕ}
    (htimestamp : frame.serverTimestamp = timestamp nowMs) (hle : nowMs ≤ nowMs')
    (hlt : nowMs' < nowMs + 10000) : timestampValid frame nowMs' = true := by
  have hmax : handshakeTimeoutMs.toNat = 10000 := rfl
  unfold timestampValid
  rw [htimestamp, decide_eq_true_eq, BitVec.lt_def, hmax]
  simp only [timestamp, BitVec.toNat_sub, BitVec.toNat_ofNat]
  omega

/-- From any state that can be reached, in which the client is in its handshake and the server has
room and is between two passes over its timers, one or two exchanges connect the client with the
server. No packet that the client has queued is empty, since an endpoint would not return from
sending that, and the clock and the timeout of the client stay far below the end of a `u64`. -/
theorem handshake_completes (hs : Reachable (system bd hash addr) s)
    (hstate : s.client.core.state = .handshake state) (htimeout : state.timeoutMs < 2 ^ 62)
    (hpackets : ∀ packet ∈ state.packetBuffer, packet.1 ≠ []) (hpass : s.server.pass = .idle)
    (hroom : (s.server.core.peers.lookup addr).isSome = true ∨
      s.server.core.peers.entries.length < s.server.core.config.peerCountMax)
    (draws draws' : Draws) {nowMs nowMs' : ℕ} (nonces nonces' : ℕ → Bool)
    (hclock : s.server.nowMs ≤ draws.nowMs ∧ draws.nowMs ≤ draws.peerNowMs)
    (hclock' : draws.peerNowMs ≤ draws'.nowMs ∧ draws'.nowMs ≤ draws'.peerNowMs)
    (hnow : nowMs < 2 ^ 62) (hnow' : nowMs' < 2 ^ 62) :
    (state.phase = .alpha → draws'.nowMs < draws.nowMs + 10000 →
      ∃ s₁ s', Exchange bd hash addr s draws nowMs nonces s₁ ∧
        Exchange bd hash addr s₁ draws' nowMs' nonces' s' ∧ Connected addr s') ∧
    (state.phase = .beta → (∀ frame, readBeta bd state.frame = .ok (some frame) →
        timestampValid frame draws.nowMs = true) →
      ∃ s', Exchange bd hash addr s draws nowMs nonces s' ∧ Connected addr s') := by
  constructor
  · intro hphase hlt
    obtain ⟨s₁, state₁, hs₁, hfirst, h⟩ :=
      exchange_alpha hs hstate hphase htimeout hpass hclock hnow
    have htimestamp : ∀ frame, readBeta bd state₁.frame = .ok (some frame) →
        timestampValid frame draws'.nowMs = true := fun frame hread =>
      timestampValid_of_lt (h.timestamp frame hread) (hclock.2.trans hclock'.1) hlt
    obtain ⟨s', hsecond, hconnected⟩ := exchange_beta hs₁ h.state_eq h.phase
      (h.timeout ▸ htimeout) (h.packets ▸ hpackets) h.pass (h.core ▸ hroom)
      ⟨h.clock ▸ hclock'.1, hclock'.2⟩ htimestamp hnow'
    exact ⟨s₁, s', hfirst, hsecond, hconnected⟩
  · intro hphase hfresh
    exact exchange_beta hs hstate hphase htimeout hpackets hpass hroom hclock hfresh hnow

end Exchanges

section Sample

/-- The request that the client repeats after the steps, unless it has taken up packets. -/
def sampleRequest (s : State) : Option (Client.HandshakePhase × ℕ × Bytes) :=
  match s.client.core.state with
  | .handshake ⟨phase, _, timeoutMs, [], frame, _⟩ => some (phase, timeoutMs, frame)
  | _ => none

lemma sampleRequest_eq {s : State} {phase : Client.HandshakePhase} {timeoutMs : ℕ} {frame : Bytes}
    (h : sampleRequest s = some (phase, timeoutMs, frame)) :
    ∃ state, s.client.core.state = .handshake state ∧ state.phase = phase ∧
      state.timeoutMs = timeoutMs ∧ state.packetBuffer = [] ∧ state.frame = frame := by
  unfold sampleRequest at h
  split at h
  · rename_i hs
    simp only [Option.some.injEq, Prod.mk.injEq] at h
    exact ⟨_, hs, h.1, h.2.1, rfl, h.2.2⟩
  · cases h

/-- The grant of the second request is lost, and the request repeated. -/
theorem handshake_completes_sample : ∃ s draws s',
    Reachable (system .debug sampleHash sampleAddr) s ∧
    (s.server.core.peers.lookup sampleAddr).isSome = true ∧
    Exchange .debug sampleHash sampleAddr s draws 2003 (fun _ => false) s' ∧
    Connected sampleAddr s' := by
  have hrun : ((sampleStart.bind fun s =>
      replay (next .debug sampleHash sampleAddr) s (sampleHandshake.take 3)).map fun s =>
        (sampleRequest s, s.server.pass, s.server.nowMs,
          (s.server.core.peers.lookup sampleAddr).isSome)) =
      some (some (.beta, 10000, betaFrame 7 sampleAck), .idle, 3, true) := by decide +kernel
  obtain ⟨s, hreplay, hsame⟩ := Option.map_eq_some_iff.mp hrun
  simp only [Prod.mk.injEq] at hsame
  obtain ⟨hrequest, hpass, hnow, hfound⟩ := hsame
  obtain ⟨state, hstate, hphase, htimeout, hpackets, hframe⟩ := sampleRequest_eq hrequest
  have hs := replay_reachable hreplay
  have htimestamp : (betaRequest 7 sampleAck).serverTimestamp = timestamp 1 := rfl
  have hfresh : ∀ frame, readBeta .debug state.frame = .ok (some frame) →
      timestampValid frame 2003 = true := by
    intro frame hread
    rw [hframe, readBeta_betaFrame] at hread
    cases hread
    exact timestampValid_of_lt htimestamp (by norm_num) (by norm_num)
  have hlt : 2003 < 2 ^ 62 := by norm_num
  let draws : Draws := ⟨9, fun _ => false, 2003, 2003⟩
  have hcompletes := handshake_completes hs hstate (by rw [htimeout]; norm_num)
    (by simp [hpackets]) hpass (.inl hfound) draws draws (fun _ => false) (fun _ => false)
    ⟨hnow.trans_le (by norm_num), le_rfl⟩ ⟨le_rfl, le_rfl⟩ hlt hlt
  obtain ⟨s', hexchange, hconnected⟩ := hcompletes.2 hphase hfresh
  exact ⟨s, draws, s', hs, hfound, hexchange, hconnected⟩

end Sample

end Redpine.Network
