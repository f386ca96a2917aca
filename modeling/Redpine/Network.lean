import Redpine.ClientCalls
import Redpine.ClientLifecycle
import Redpine.EndpointFlush
import Redpine.ServerAddress
import Redpine.ServerCalls
import Redpine.ServerEvents

/-! A client and its server, joined by a network that may lose, duplicate, delay and reorder the
datagrams between them, while any others talk to the server as well. Once the client is connected,
the server has a peer for it, and both have taken part in the same handshake. -/
namespace Redpine.Network
open Machine Buffer Wire Endpoint Transition Server ServerCore ServerRun ClientRun

/-- The two parties, the packets that the user of the client has handed over, and those that the
users of the server have handed over for each peer. -/
structure State where
  client : ClientRun.State
  server : ServerRun.State
  given : List (Bytes × SendMode)
  answers : PeerRef → List (Bytes × SendMode)

inductive Action
  | client (a : ClientRun.Action)
  | server (a : ServerRun.Action)

/-- The server has sent the frame to the address. -/
def State.HasSent (s : State) (frameBytes : Bytes) (addr : SocketAddr) : Prop :=
  (frameBytes, addr) ∈ s.server.emitted.filterMap Emission.frame

def Initial (bd : Build) (s : State) : Prop :=
  ClientRun.Initial bd s.client ∧ ServerRun.Initial bd s.server ∧ s.given = [] ∧
    s.answers = fun _ => []

/-- A step of a party. A frame from one of them to the other has been sent by it; frames from
other addresses than that of the client are arbitrary. -/
inductive Step (bd : Build) (hash : Bytes → U64) (addr : SocketAddr) (s : State) :
    Action → State → Prop
  | client {a : ClientRun.Action} {client : ClientRun.State}
      (hsent : ∀ frameBytes nowMs nonces, a = .frame frameBytes nowMs nonces →
        s.HasSent frameBytes addr)
      (h : ClientRun.Step bd s.client a client) :
      Step bd hash addr s (.client a)
        { s with client := client, given := s.given ++ packetsOf a }
  | server {a : ServerRun.Action} {server : ServerRun.State}
      (hsent : ∀ draws frameBytes, a = .frame draws frameBytes addr → frameBytes ∈ s.client.sent)
      (h : ServerRun.Step bd hash s.server a server) :
      Step bd hash addr s (.server a)
        { s with server := server, answers := fun peer => s.answers peer ++ packetsFor peer a }

def system (bd : Build) (hash : Bytes → U64) (addr : SocketAddr) : System State Action :=
  ⟨Initial bd, Step bd hash addr⟩

/-- The network can deliver what the action receives. -/
def State.delivers (s : State) (addr : SocketAddr) : Action → Bool
  | .client (.frame frameBytes _ _) =>
      decide ((frameBytes, addr) ∈ s.server.emitted.filterMap Emission.frame)
  | .server (.frame _ frameBytes senderAddr) =>
      decide (senderAddr = addr → frameBytes ∈ s.client.sent)
  | _ => true

/-- The step that an action leads to, if it can be taken and returns. -/
def next (bd : Build) (hash : Bytes → U64) (addr : SocketAddr) (s : State) (a : Action) :
    Option State :=
  if s.delivers addr a then
    match a with
    | .client a => (ClientRun.next bd s.client a).map fun client =>
        { s with client := client, given := s.given ++ packetsOf a }
    | .server a => (ServerRun.next bd hash s.server a).map fun server =>
        { s with server := server, answers := fun peer => s.answers peer ++ packetsFor peer a }
  else none

/-- The first request of a client. -/
def alphaFrame (localNonce : U32) : Bytes := paddedAlpha ⟨protocolId, localNonce⟩ 1472

/-- The second request that answers an acknowledged first one. -/
def betaRequest (localNonce : U32) (ack : HandshakeAlphaAckFrame) : HandshakeBetaFrame :=
  ⟨localParams, localNonce, ack.serverNonce, ack.serverTimestamp, ack.serverMac⟩

/-- The frames that a client sends: its requests, and those of its endpoint. -/
inductive IsClientFrame (bd : Build) (localNonce : U32) (answer : Option HandshakeAlphaAckFrame) :
    Bytes → Prop
  | alpha : IsClientFrame bd localNonce answer (alphaFrame localNonce)
  | beta {ack : HandshakeAlphaAckFrame} (hack : answer = some ack) :
      IsClientFrame bd localNonce answer (betaFrame localNonce ack)
  | endpoint {frameBytes : Bytes} {frameType : FrameType}
      (htype : readType bd frameBytes = .ok (some frameType))
      (hother : ¬ IsHandshakeType frameType) : IsClientFrame bd localNonce answer frameBytes

/-- The request that a client in its handshake repeats. -/
inductive Requests (localNonce : U32) (answer : Option HandshakeAlphaAckFrame) :
    Client.HandshakePhase → Bytes → Prop
  | alpha (hnone : answer = none) : Requests localNonce answer .alpha (alphaFrame localNonce)
  | beta {ack : HandshakeAlphaAckFrame} (hack : answer = some ack) :
      Requests localNonce answer .beta (betaFrame localNonce ack)

/-- How far a client with a nonce has come, when the answer to its first request is known. -/
structure Handshaking (bd : Build) (addr : SocketAddr) (s : State) (localNonce : U32)
    (answer : Option HandshakeAlphaAckFrame) : Prop where
  first : s.client.sent.head? = some (alphaFrame localNonce)
  sent : ∀ frameBytes ∈ s.client.sent, IsClientFrame bd localNonce answer frameBytes
  answered : ∀ ack, answer = some ack →
    ack.clientNonce = localNonce ∧ HasAnswered s.server ack addr
  requesting : ∀ state, s.client.core.state = .handshake state →
    state.localNonce = localNonce ∧ Requests localNonce answer state.phase state.frame
  created : ∀ c ∈ s.server.created, c.addr = addr → ∃ ack, answer = some ack ∧
    c.frame = betaRequest localNonce ack ∧ betaFrame localNonce ack ∈ s.client.sent
  connected : (∃ e, s.client.core.state = .active e) ∨ .connect ∈ s.client.produced →
    addr ∈ s.server.addrs

section Parties
variable {bd : Build} {hash : Bytes → U64} {addr : SocketAddr} {s s' : State} {a : Action}

lemma next_step (h : next bd hash addr s a = some s') : Step bd hash addr s a s' := by
  unfold next at h
  by_cases hdelivers : s.delivers addr a = true
  · rw [if_pos hdelivers] at h
    cases a with
    | client a =>
      obtain ⟨client, hclient, rfl⟩ := Option.map_eq_some_iff.mp h
      refine .client (fun frameBytes nowMs nonces ha => ?_) (ClientRun.next_step hclient)
      subst ha
      have hmem : (frameBytes, addr) ∈ s.server.emitted.filterMap Emission.frame :=
        of_decide_eq_true hdelivers
      exact hmem
    | server a =>
      obtain ⟨server, hserver, rfl⟩ := Option.map_eq_some_iff.mp h
      refine .server (fun draws frameBytes ha => ?_) (ServerRun.next_step hserver)
      subst ha
      exact of_decide_eq_true hdelivers rfl
  · rw [if_neg hdelivers] at h
    cases h

theorem client_reachable (hs : Reachable (system bd hash addr) s) :
    Reachable (ClientRun.system bd) s.client := by
  induction hs using Reachable.induct with
  | init h => exact .init h.1
  | step hs hstep ih =>
    cases hstep with
    | client hsent h => exact ih.step h
    | server hsent h => exact ih

theorem server_reachable (hs : Reachable (system bd hash addr) s) :
    Reachable (ServerRun.system bd hash) s.server := by
  induction hs using Reachable.induct with
  | init h => exact .init h.2.1
  | step hs hstep ih =>
    cases hstep with
    | client hsent h => exact ih
    | server hsent h => exact ih.step h

lemma stateSound_reachable (hs : Reachable (system bd hash addr) s) :
    StateSound bd s.client.core.state :=
  stateSound_of_reachable (client_reachable hs)

lemma server_traced (hs : Reachable (system bd hash addr) s) : Traced bd s.server :=
  traced_reachable (server_reachable hs)

end Parties

section Frames
variable {bd : Build} {addr : SocketAddr} {s : State} {frameBytes : Bytes} {localNonce : U32}
  {answer : Option HandshakeAlphaAckFrame}

lemma reads_type {α : Type} [SimpleFrame α] {obj : α} {frameType : FrameType} {p : Bytes}
    (h : Reads α bd (frameOf frameType p) obj) : SimpleFrame.frameType α = frameType := by
  obtain ⟨payloadBytes, htype, -, -⟩ := h
  rw [readType_frameOf] at htype
  exact (Option.some.inj (Except.ok.inj htype)).symm

/-- A frame that carries an object is read as this object. -/
lemma reads_eq {α : Type} [SimpleFrame α] [LawfulBlock α] {obj obj' : α} {frameType : FrameType}
    (hvalid : LawfulBlock.Valid obj)
    (h : Reads α bd (frameOf frameType (LawfulBlock.encode obj)) obj') : obj' = obj := by
  obtain ⟨payloadBytes, -, hpayload, hread⟩ := h
  rw [payload_frameOf] at hpayload
  cases hpayload
  have hencode := readPayload_encode bd [] hvalid
  rw [List.append_nil] at hencode
  cases hread.symm.trans hencode
  rfl

/-- What the frames are that the server has sent to an address. -/
lemma sent_cases (h : Traced bd s.server) (hsent : s.HasSent frameBytes addr) :
    (∃ peer frameType, s.server.addrs[peer]? = some addr ∧
      .host peer addr (.sendFrame frameBytes) ∈ s.server.emitted ∧
      readType bd frameBytes = .ok (some frameType) ∧ ¬ IsHandshakeType frameType) ∨
    (∃ ack, frameBytes = ackFrameBytes ack ∧ HasAnswered s.server ack addr) ∨
    ∃ error clientNonce, frameBytes = betaAckBytes error clientNonce ∧
      (error = none → addr ∈ s.server.addrs) := by
  obtain ⟨emission, hmem, hframe⟩ := List.mem_filterMap.mp hsent
  cases h.emitted emission hmem with
  | @host peer addr' call haddr htype =>
    cases call with
    | sendFrame frameBytes' =>
      cases hframe
      obtain ⟨frameType, htype, hother⟩ := htype frameBytes rfl
      exact .inl ⟨peer, frameType, haddr, hmem, htype, hother⟩
    | _ => cases hframe
  | alphaAck ack addr' =>
    cases hframe
    exact .inr (.inl ⟨ack, rfl, hmem⟩)
  | @betaAck error clientNonce addr' hgranted =>
    cases hframe
    exact .inr (.inr ⟨error, clientNonce, rfl, hgranted⟩)

/-- An answer to a first request comes from the server. -/
lemma answered_of_sent {ack : HandshakeAlphaAckFrame} (h : Traced bd s.server)
    (hsent : s.HasSent frameBytes addr) (hread : Reads HandshakeAlphaAckFrame bd frameBytes ack) :
    HasAnswered s.server ack addr := by
  rcases sent_cases h hsent with ⟨peer, frameType, -, -, htype, hother⟩ | ⟨ack', rfl, hack⟩ |
    ⟨error, clientNonce, rfl, -⟩
  · obtain ⟨-, htype', -⟩ := hread
    cases htype.symm.trans htype'
    exact absurd trivial hother
  · obtain rfl := reads_eq trivial hread
    exact hack
  · exact absurd (reads_type hread) (by decide)

/-- A second request is only granted to the sender of one that has a peer. -/
lemma granted_of_sent {clientNonce : U32} (h : Traced bd s.server)
    (hsent : s.HasSent frameBytes addr)
    (hread : Reads HandshakeBetaAckFrame bd frameBytes ⟨none, clientNonce⟩) :
    addr ∈ s.server.addrs := by
  rcases sent_cases h hsent with ⟨peer, frameType, -, -, htype, hother⟩ | ⟨ack, rfl, -⟩ |
    ⟨error, clientNonce', rfl, hgranted⟩
  · obtain ⟨-, htype', -⟩ := hread
    cases htype.symm.trans htype'
    exact absurd trivial hother
  · exact absurd (reads_type hread) (by decide)
  · exact hgranted (congrArg HandshakeBetaAckFrame.error (reads_eq trivial hread)).symm

lemma readType_alphaFrame (bd : Build) (localNonce : U32) :
    readType bd (alphaFrame localNonce) = .ok (some .handshakeAlpha) := by
  obtain ⟨frameBytes, p, hwrite, -, htype, -⟩ :=
    handshakeAlphaRoundTrip bd ⟨protocolId, localNonce⟩ 1472 (by decide)
  rw [writeHandshakeAlpha_eq bd _ (by decide)] at hwrite
  cases hwrite
  exact htype

lemma readBeta_betaFrame (bd : Build) (localNonce : U32) (ack : HandshakeAlphaAckFrame) :
    readBeta bd (betaFrame localNonce ack) = .ok (some (betaRequest localNonce ack)) := by
  have hread : readPayload HandshakeBetaFrame bd
      (LawfulBlock.encode (betaRequest localNonce ack) ++ []) =
        .ok (some (betaRequest localNonce ack)) := readPayload_encode bd [] trivial
  rw [List.append_nil] at hread
  have hlen : (betaFrame localNonce ack).length = handshakeBetaSize + frameOverheadSize :=
    frameOf_length _ _
  unfold readBeta verifyHandshakeBetaSizeAndCrc
  rw [if_pos hlen]
  unfold betaFrame
  rw [verifyCrc_frameOf, ok_bind, if_pos rfl, payload_frameOf, ok_bind]
  exact hread

/-- A second request of the client that the server reads answers what the server has sent. -/
lemma IsClientFrame.request {frame : HandshakeBetaFrame}
    (h : IsClientFrame bd localNonce answer frameBytes)
    (htype : readType bd frameBytes = .ok (some .handshakeBeta))
    (hread : readBeta bd frameBytes = .ok (some frame)) :
    ∃ ack, answer = some ack ∧ frame = betaRequest localNonce ack ∧
      frameBytes = betaFrame localNonce ack := by
  cases h with
  | alpha => cases (readType_alphaFrame bd localNonce).symm.trans htype
  | beta hack =>
    rw [readBeta_betaFrame] at hread
    cases hread
    exact ⟨_, hack, rfl, rfl⟩
  | endpoint htype' hother =>
    cases htype'.symm.trans htype
    exact absurd trivial hother

/-- What a client that knows the answer may send, it may still send later. -/
lemma IsClientFrame.mono {answer' : Option HandshakeAlphaAckFrame}
    (h : IsClientFrame bd localNonce answer frameBytes)
    (hle : ∀ ack, answer = some ack → answer' = some ack) :
    IsClientFrame bd localNonce answer' frameBytes := by
  cases h with
  | alpha => exact .alpha
  | beta hack => exact .beta (hle _ hack)
  | endpoint htype hother => exact .endpoint htype hother

lemma Requests.isClientFrame {phase : Client.HandshakePhase}
    (h : Requests localNonce answer phase frameBytes) :
    IsClientFrame bd localNonce answer frameBytes := by
  cases h with
  | alpha hnone => exact .alpha
  | beta hack => exact .beta hack

lemma Requests.answer_eq_none {phase : Client.HandshakePhase}
    (h : Requests localNonce answer phase frameBytes) (hphase : phase = .alpha) :
    answer = none := by
  cases h with
  | alpha hnone => exact hnone
  | beta hack => cases hphase

lemma clientFrame_of_inputs {nowMs : ℕ} {e e' : Endpoint} {inputs : List Input}
    {calls : List HostCall} (h : Inputs bd nowMs e inputs calls e')
    (hmem : frameBytes ∈ sentFrames calls) : IsClientFrame bd localNonce answer frameBytes := by
  obtain ⟨frameType, htype, hother⟩ := h.readType (mem_sentFrames.mp hmem)
  exact .endpoint htype hother

end Frames

section Steps
variable {bd : Build} {hash : Bytes → U64} {addr : SocketAddr} {s : State} {localNonce : U32}
  {answer answer' : Option HandshakeAlphaAckFrame} {client : ClientRun.State}
  {given : List (Bytes × SendMode)} {frames : List Bytes}

/-- The client has done something. -/
lemma Handshaking.withClient (h : Handshaking bd addr s localNonce answer)
    (hsent : client.sent = s.client.sent ++ frames)
    (hframes : ∀ frameBytes ∈ frames, IsClientFrame bd localNonce answer' frameBytes)
    (hle : ∀ ack, answer = some ack → answer' = some ack)
    (hanswered : ∀ ack, answer' = some ack →
      ack.clientNonce = localNonce ∧ HasAnswered s.server ack addr)
    (hrequesting : ∀ state, client.core.state = .handshake state →
      state.localNonce = localNonce ∧ Requests localNonce answer' state.phase state.frame)
    (hconnected : (∃ e, client.core.state = .active e) ∨ .connect ∈ client.produced →
      addr ∈ s.server.addrs) :
    Handshaking bd addr { s with client := client, given := given } localNonce answer' := by
  have hmem : ∀ frameBytes ∈ s.client.sent, frameBytes ∈ client.sent :=
    fun frameBytes hold => hsent ▸ List.mem_append_left _ hold
  refine ⟨?_, fun frameBytes hnew => ?_, hanswered, hrequesting, fun c hc haddr => ?_, hconnected⟩
  · rw [hsent, List.head?_append, h.first]
    rfl
  · rcases List.mem_append.mp (hsent ▸ hnew) with hold | hnew
    · exact (h.sent frameBytes hold).mono hle
    · exact hframes frameBytes hnew
  · obtain ⟨ack, hack, hframe, hrequest⟩ := h.created c hc haddr
    exact ⟨ack, hle ack hack, hframe, hmem _ hrequest⟩

/-- The client stays as it is, or leaves its handshake, without being connected. -/
lemma Handshaking.withClient_idle (h : Handshaking bd addr s localNonce answer)
    (hsent : client.sent = s.client.sent ++ frames)
    (hframes : ∀ frameBytes ∈ frames, IsClientFrame bd localNonce answer frameBytes)
    (hstate : client.core.state = s.client.core.state ∨ client.core.state = .quiescent)
    (hconnect : .connect ∈ client.produced → .connect ∈ s.client.produced) :
    Handshaking bd addr { s with client := client, given := given } localNonce answer := by
  refine h.withClient hsent hframes (fun _ hack => hack) h.answered (fun state hs => ?_)
    fun hconnected => h.connected ?_
  · rcases hstate with hstate | hstate
    · exact h.requesting state (hstate.symm.trans hs)
    · cases hstate.symm.trans hs
  · rcases hconnected with ⟨e, hs⟩ | hconnected
    · rcases hstate with hstate | hstate
      · exact .inl ⟨e, hstate.symm.trans hs⟩
      · cases hstate.symm.trans hs
    · exact .inr (hconnect hconnected)

lemma Handshaking.client_move {a : ClientRun.Action} (h : Handshaking bd addr s localNonce answer)
    (htraced : Traced bd s.server)
    (hdelivered : ∀ frameBytes nowMs nonces, a = .frame frameBytes nowMs nonces →
      s.HasSent frameBytes addr)
    (hmove : ClientRun.Move bd s.client.core a frames client.core)
    (hsent : client.sent = s.client.sent ++ frames) (hpolled : client.polled = s.client.polled) :
    ∃ answer', Handshaking bd addr { s with client := client, given := given } localNonce
      answer' := by
  have hproduced : client.produced = s.client.polled ++ client.core.events :=
    congrArg (· ++ client.core.events) hpolled
  cases hmove with
  | idle hstate hevents hpackets =>
    refine ⟨answer, h.withClient_idle hsent (by simp) (.inl hstate) fun hconnect => ?_⟩
    rw [hproduced, hevents] at hconnect
    exact hconnect
  | @handshake _ state state' _ _ hs hs' hevents hnonce hpackets hframe hframes =>
    obtain ⟨hlocal, hrequests⟩ := h.requesting state hs
    have hactive : (∃ e, client.core.state = .active e) ∨ .connect ∈ client.produced →
        addr ∈ s.server.addrs := by
      rintro (⟨e, he⟩ | hconnect)
      · cases hs'.symm.trans he
      · rw [hproduced, hevents] at hconnect
        exact h.connected (.inr hconnect)
    rcases hframe with ⟨hsame, hphase⟩ | ⟨hphase, hphase', frameBytes, nowMs, nonces, ack, ha,
      hread, hack, hbeta, -⟩
    · have hrequests' : Requests localNonce answer state'.phase state'.frame := by
        rw [hsame, hphase]
        exact hrequests
      refine ⟨answer, h.withClient hsent (fun frameBytes hmem => ?_) (fun _ hack => hack) h.answered
        (fun state'' hs'' => ?_) hactive⟩
      · rw [hframes frameBytes hmem]
        exact hrequests'.isClientFrame
      · cases hs'.symm.trans hs''
        exact ⟨hnonce.trans hlocal, hrequests'⟩
    · -- The first request is answered.
      have hnone := hrequests.answer_eq_none hphase
      have hrequests' : Requests localNonce (some ack) state'.phase state'.frame := by
        rw [hphase', hbeta, hlocal]
        exact .beta rfl
      have hanswered := answered_of_sent htraced (hdelivered _ _ _ ha) hread
      refine ⟨some ack, h.withClient hsent (fun frameBytes hmem => ?_) (fun ack' hack' => ?_)
        (fun ack' hack' => ?_) (fun state'' hs'' => ?_) hactive⟩
      · rw [hframes frameBytes hmem]
        exact hrequests'.isClientFrame
      · cases hnone.symm.trans hack'
      · cases hack'
        exact ⟨hack.trans hlocal, hanswered⟩
      · cases hs'.symm.trans hs''
        exact ⟨hnonce.trans hlocal, hrequests'⟩
  | @failed _ state kind _ hs hs' hevents hpackets =>
    refine ⟨answer, h.withClient_idle hsent (by simp) (.inr hs') fun hconnect => ?_⟩
    rw [hproduced, hevents, ← List.append_assoc] at hconnect
    rcases List.mem_append.mp hconnect with hconnect | hconnect
    · exact hconnect
    · cases List.mem_singleton.mp hconnect
  | @activated frameBytes nowMs nonces state config e₀ e calls _ hs hs' hphase hack haccepted hnew
      hcalls hevents =>
    have hgranted := granted_of_sent htraced (hdelivered _ _ _ rfl) hack
    refine ⟨answer, h.withClient hsent (fun frameBytes hmem => clientFrame_of_inputs hcalls hmem)
      (fun _ hack => hack) h.answered (fun state' hstate => ?_) fun _ => hgranted⟩
    cases hs'.symm.trans hstate
  | @called _ inputs e e' calls nowMs _ hs hinputs hcalls hs' hevents =>
    refine ⟨answer, h.withClient hsent (fun frameBytes hmem => clientFrame_of_inputs hcalls hmem)
      (fun _ hack => hack) h.answered (fun state' hstate => ?_)
      fun _ => h.connected (.inl ⟨e, hs⟩)⟩
    rcases hs' with hs' | ⟨hs', -⟩
    · cases hs'.symm.trans hstate
    · cases hs'.symm.trans hstate

lemma Handshaking.server_move {a : ServerRun.Action} {server : ServerRun.State}
    {answers : PeerRef → List (Bytes × SendMode)} (h : Handshaking bd addr s localNonce answer)
    (hdelivered : ∀ draws frameBytes, a = .frame draws frameBytes addr →
      frameBytes ∈ s.client.sent)
    (hmove : ServerRun.Move bd s.server a server) :
    Handshaking bd addr { s with server := server, answers := answers } localNonce answer := by
  have hkeep : (∀ emission ∈ s.server.emitted, emission ∈ server.emitted) →
      (∀ c ∈ server.created, c.addr = addr → ∃ ack, answer = some ack ∧
        c.frame = betaRequest localNonce ack ∧ betaFrame localNonce ack ∈ s.client.sent) →
      (∀ x ∈ s.server.addrs, x ∈ server.addrs) →
      Handshaking bd addr { s with server := server, answers := answers } localNonce answer :=
    fun hemitted hcreated haddrs => ⟨h.first, h.sent,
      fun ack hack => ⟨(h.answered ack hack).1, hemitted _ (h.answered ack hack).2⟩, h.requesting,
      hcreated, fun hconnected => haddrs addr (h.connected hconnected)⟩
  cases hmove with
  | still hpeers hemitted hanswers hcreated hpackets =>
    have haddrs : server.addrs = s.server.addrs := congrArg (List.map Prod.fst) hpeers
    exact hkeep (fun _ hmem => hemitted ▸ List.mem_append_left _ hmem) (hcreated ▸ h.created)
      fun _ hmem => haddrs ▸ hmem
  | called hp hinputs hcalls hpeers hemitted hcreated =>
    have haddrs := addrs_set hp hpeers
    exact hkeep (fun _ hmem => hemitted ▸ List.mem_append_left _ hmem) (hcreated ▸ h.created)
      fun _ hmem => haddrs ▸ hmem
  | @created draws frameBytes addr' frame config e ha htype hread haccepted hnew hpeers hemitted
      hcreated =>
    refine hkeep (fun _ hmem => hemitted ▸ List.mem_append_left _ hmem) (fun c hc haddr => ?_)
      fun x hmem => ?_
    · rcases List.mem_append.mp (hcreated ▸ hc) with hc | hc
      · exact h.created c hc haddr
      · obtain rfl := List.mem_singleton.mp hc
        subst haddr
        have hmem := hdelivered _ _ ha
        obtain ⟨ack, hack, hframe, rfl⟩ := (h.sent frameBytes hmem).request htype hread
        exact ⟨ack, hack, hframe, hmem⟩
    · unfold State.addrs
      rw [hpeers, List.map_append]
      exact List.mem_append_left _ hmem

end Steps

section Agreement
variable {bd : Build} {hash : Bytes → U64} {addr : SocketAddr} {s s' : State} {a : Action}

/-- The client has sent its first request, and the server has not done anything. -/
lemma bothFresh_of_initial (h : Initial bd s) :
    (∃ config localNonce, s.client = ⟨⟨config, .handshake ⟨.alpha, config.handshakeTimeoutMs,
        config.handshakeTimeoutMs, [], alphaFrame localNonce, localNonce⟩,
        some Client.handshakeResendTimeoutMs, []⟩, [], [alphaFrame localNonce], false⟩) ∧
      ∃ config, s.server = ⟨⟨config, [], ∅, .new, []⟩, .idle, [], [], 0, [], [], [], [], []⟩ := by
  obtain ⟨hclient, hserver, -⟩ := h
  obtain ⟨config, localNonce, frame, -, hwrite, hfresh⟩ := ClientRun.fresh_of_initial hclient
  obtain ⟨config', -, hfresh'⟩ := ServerRun.fresh_of_initial hserver
  rw [writeHandshakeAlpha_eq bd _ (by decide)] at hwrite
  cases hwrite
  exact ⟨⟨config, localNonce, hfresh⟩, config', hfresh'⟩

lemma handshaking_initial (h : Initial bd s) :
    ∃ localNonce, Handshaking bd addr s localNonce none := by
  obtain ⟨⟨config, localNonce, hclient⟩, config', hserver⟩ := bothFresh_of_initial h
  refine ⟨localNonce, ?_, ?_, fun ack hack => (by cases hack), ?_, ?_, ?_⟩
  · rw [hclient]
    rfl
  · intro frameBytes hmem
    rw [hclient] at hmem
    rw [List.mem_singleton.mp hmem]
    exact .alpha
  · intro state hs
    rw [hclient] at hs
    cases hs
    exact ⟨rfl, .alpha rfl⟩
  · intro c hc
    rw [hserver] at hc
    cases hc
  · intro hconnected
    rw [hclient] at hconnected
    rcases hconnected with ⟨e, he⟩ | hconnected
    · cases he
    · cases hconnected

lemma handshaking_step {localNonce : U32} {answer : Option HandshakeAlphaAckFrame}
    (hs : Reachable (system bd hash addr) s) (h : Handshaking bd addr s localNonce answer)
    (hstep : Step bd hash addr s a s') : ∃ answer', Handshaking bd addr s' localNonce answer' := by
  cases hstep with
  | @client a client hsent hstep =>
    rcases ClientRun.Step.move (stateSound_reachable hs) hstep with
      ⟨frames, hmove, hframes, hpolled⟩ | ⟨-, hstate, hproduced, hframes⟩
    · exact h.client_move (server_traced hs) hsent hmove hframes hpolled
    · exact ⟨answer, h.withClient_idle (hframes.trans (List.append_nil _).symm) (by simp)
        (.inl hstate) fun hconnect => hproduced ▸ hconnect⟩
  | server hsent hstep =>
    have hinv := ServerRun.inv_reachable (server_reachable hs)
    exact ⟨answer, h.server_move hsent (ServerRun.Step.move hinv hstep)⟩

theorem handshaking_reachable (hs : Reachable (system bd hash addr) s) :
    ∃ localNonce answer, Handshaking bd addr s localNonce answer := by
  induction hs using Reachable.induct with
  | init h =>
    obtain ⟨localNonce, hinit⟩ := handshaking_initial h
    exact ⟨localNonce, none, hinit⟩
  | step hs hstep ih =>
    obtain ⟨localNonce, answer, h⟩ := ih
    obtain ⟨answer', h'⟩ := handshaking_step hs h hstep
    exact ⟨localNonce, answer', h'⟩

/-- The server has created a peer for the client, for the request in which the client, whose nonce
this is, has answered what the server had answered to its first request. -/
structure Agrees (addr : SocketAddr) (s : State) (localNonce : U32) (ack : HandshakeAlphaAckFrame) :
    Prop where
  first : s.client.sent.head? = some (alphaFrame localNonce)
  echoed : ack.clientNonce = localNonce
  answered : HasAnswered s.server ack addr
  requested : betaFrame localNonce ack ∈ s.client.sent
  created : ∃ c ∈ s.server.created, c.addr = addr
  same : ∀ c ∈ s.server.created, c.addr = addr → c.frame = betaRequest localNonce ack
  connected : ∃ peer p, s.server.core.heap[peer]? = some p ∧ p.addr = addr ∧
    .connect peer ∈ s.server.events

/-- A client that has reported its connection, and a server that has created a peer for the client,
agree on the handshake. -/
theorem handshake_agreement (hs : Reachable (system bd hash addr) s)
    (h : .connect ∈ s.client.produced ∨ ∃ c ∈ s.server.created, c.addr = addr) :
    ∃ localNonce ack, Agrees addr s localNonce ack := by
  obtain ⟨localNonce, answer, hinv⟩ := handshaking_reachable hs
  have htraced := server_traced hs
  have hcreated : ∃ c ∈ s.server.created, c.addr = addr := by
    rcases h with hconnect | hcreated
    · have hmem := hinv.connected (.inr hconnect)
      rw [← htraced.created_addr] at hmem
      exact List.mem_map.mp hmem
    · exact hcreated
  obtain ⟨c, hc, haddr⟩ := hcreated
  obtain ⟨ack, hack, hframe, hrequest⟩ := hinv.created c hc haddr
  obtain ⟨hnonce, hanswered⟩ := hinv.answered ack hack
  refine ⟨localNonce, ack, hinv.first, hnonce, hanswered, hrequest, ⟨c, hc, haddr⟩, ?_, ?_⟩
  · intro c' hc' haddr'
    obtain ⟨ack', hack', hframe', -⟩ := hinv.created c' hc' haddr'
    cases hack.symm.trans hack'
    exact hframe'
  · have hmem : addr ∈ s.server.addrs := htraced.created_addr ▸ List.mem_map.mpr ⟨c, hc, haddr⟩
    obtain ⟨⟨addr', e⟩, hpeer, rfl⟩ := List.mem_map.mp hmem
    obtain ⟨p, hp, hpair⟩ := List.mem_map.mp hpeer
    obtain ⟨peer, hpeer⟩ := List.mem_iff_getElem?.mp hp
    refine ⟨peer, p, hpeer, congrArg Prod.fst hpair, ?_⟩
    have hcount := count_connect (server_reachable hs) peer
    rw [if_pos (List.getElem?_eq_some_iff.mp hpeer).1] at hcount
    exact List.count_pos_iff.mp (by omega)

end Agreement

section Sample

def sampleStart : Option State :=
  ClientRun.sampleStart.bind fun client => (ServerRun.sampleStart default).map fun server =>
    ⟨client, server, [], fun _ => []⟩

/-- The answer of the server, which draws the nonce 9, to the client, which has drawn the 7. -/
def sampleAck : HandshakeAlphaAckFrame :=
  alphaAck sampleHash 9 ⟨protocolId, 7⟩ sampleAddr 1

/-- Each request arrives, and so does each answer. -/
def sampleHandshake : List Action :=
  [.server (sampleFrame 1 (alphaFrame 7)),
    .client (.frame (ackFrameBytes sampleAck) 2 fun _ => false),
    .server (sampleFrame 3 (betaFrame 7 sampleAck)),
    .client (.frame (betaAckBytes none 7) 4 fun _ => false)]

lemma sampleStart_initial {s : State} (h : sampleStart = some s) : Initial .debug s := by
  obtain ⟨client, hclient, h⟩ := Option.bind_eq_some_iff.mp h
  obtain ⟨server, hserver, rfl⟩ := Option.map_eq_some_iff.mp h
  exact ⟨ClientRun.sampleStart_initial hclient, ServerRun.sampleStart_initial hserver, rfl, rfl⟩

lemma replay_reachable {actions : List Action} {s : State}
    (h : (sampleStart.bind fun s => replay (next .debug sampleHash sampleAddr) s actions) =
      some s) : Reachable (system .debug sampleHash sampleAddr) s :=
  start_replay_reachable (fun _ _ _ => next_step) (fun _ => sampleStart_initial) h

theorem handshake_agreement_sample : ∃ s, Reachable (system .debug sampleHash sampleAddr) s ∧
    .connect ∈ s.client.produced ∧ ∃ localNonce ack, Agrees sampleAddr s localNonce ack := by
  have hrun : ((sampleStart.bind fun s =>
      replay (next .debug sampleHash sampleAddr) s sampleHandshake).map fun s =>
        s.client.produced) = some [.connect] := by decide +kernel
  obtain ⟨s, hreplay, hproduced⟩ := Option.map_eq_some_iff.mp hrun
  have hs := replay_reachable hreplay
  have hconnect : .connect ∈ s.client.produced := by
    rw [hproduced]
    exact List.mem_singleton_self _
  exact ⟨s, hs, hconnect, handshake_agreement hs (.inl hconnect)⟩

end Sample

end Redpine.Network
