import Redpine.EndpointInputs
import Redpine.ServerTimers

/-! What a step of a server does to the endpoints of its peers, input by input: which packets of
the users and which frame of the network reach them, and what is answered besides. -/
namespace Redpine.ServerRun
open Machine Buffer Wire Endpoint Transition Server ServerCore

/-- The packets that the users hand over for a peer. -/
def packetsFor (peer : PeerRef) : Action → List (Bytes × SendMode)
  | .send r packetBytes mode _ _ => if r = peer then [(packetBytes, mode)] else []
  | .enqueue r packetBytes mode _ => if r = peer then [(packetBytes, mode)] else []
  | _ => []

/-- The peers, each with its address and its endpoint. -/
def State.endpoints (s : State) : List (SocketAddr × Endpoint) :=
  s.core.heap.map fun p => (p.addr, p.endpoint)

/-- What the endpoint of a peer with an address is asked by an action. -/
inductive InputsOf (bd : Build) (peer : PeerRef) (addr : SocketAddr) : Action → List Input → Prop
  | frame {draws : Draws} {frameBytes payloadBytes : Bytes} {frameType : FrameType}
      (htype : readType bd frameBytes = .ok (some frameType))
      (hpayload : payload bd frameBytes = .ok payloadBytes)
      (hother : frameType ≠ .handshakeAlpha ∧ frameType ≠ .handshakeBeta) :
      InputsOf bd peer addr (.frame draws frameBytes addr) [.frame frameType payloadBytes]
  | fire {nowMs : ℕ} {nonces : ℕ → Bool} :
      InputsOf bd peer addr (.fireNext nowMs nonces) [.rtoTimer]
  | send {packetBytes : Bytes} {mode : SendMode} {nowMs : ℕ} {nonces : ℕ → Bool} :
      InputsOf bd peer addr (.send peer packetBytes mode nowMs nonces)
        [.enqueue packetBytes mode, .flush]
  | enqueue {packetBytes : Bytes} {mode : SendMode} {nowMs : ℕ} :
      InputsOf bd peer addr (.enqueue peer packetBytes mode nowMs) [.enqueue packetBytes mode]
  | flush {nowMs : ℕ} {nonces : ℕ → Bool} :
      InputsOf bd peer addr (.flush peer nowMs nonces) [.flush]
  | disconnect {nowMs : ℕ} : InputsOf bd peer addr (.disconnect peer nowMs) [.disconnect]

/-- An answer of the server to a request: a second one is granted only if its sender has a peer. -/
inductive Answer (core : ServerCore) : Emission → Prop
  | alphaAck (ack : HandshakeAlphaAckFrame) (addr : SocketAddr) :
      Answer core (.reply (frameOf .handshakeAlphaAck (LawfulBlock.encode ack)) addr)
  | betaAck (error : Option HandshakeErrorKind) (clientNonce : U32) (addr : SocketAddr)
      (hgranted : error = none → (core.peers.lookup addr).isSome = true) :
      Answer core (.reply (frameOf .handshakeBetaAck
        (LawfulBlock.encode (HandshakeBetaAckFrame.mk error clientNonce))) addr)

/-- What a step does to the endpoints of the peers, and what leaves the server. -/
inductive Move (bd : Build) (s : State) (a : Action) (s' : State) : Prop
  | still {answers : List Emission} (hpeers : s'.endpoints = s.endpoints)
      (hemitted : s'.emitted = s.emitted ++ answers)
      (hanswers : ∀ emission ∈ answers, Answer s.core emission) (hcreated : s'.created = s.created)
      (hpackets : ∀ peer, packetsFor peer a = [])
  | called {peer : PeerRef} {addr : SocketAddr} {e e' : Endpoint} {inputs : List Input}
      {calls : List HostCall} {nowMs : ℕ} (hp : s.endpoints[peer]? = some (addr, e))
      (hinputs : InputsOf bd peer addr a inputs) (hcalls : Inputs bd nowMs e inputs calls e')
      (hpeers : s'.endpoints = s.endpoints.set peer (addr, e'))
      (hemitted : s'.emitted = s.emitted ++ calls.map (.host peer addr))
      (hcreated : s'.created = s.created)
  | created {draws : Draws} {frameBytes : Bytes} {addr : SocketAddr} {frame : HandshakeBetaFrame}
      {config : Endpoint.Config} {e : Endpoint} (ha : a = .frame draws frameBytes addr)
      (htype : readType bd frameBytes = .ok (some .handshakeBeta))
      (hread : readBeta bd frameBytes = .ok (some frame)) (haccepted : config.Accepted bd)
      (hnew : Endpoint.new config = .ok e)
      (hpeers : s'.endpoints = s.endpoints ++ [(addr, { e with stateId := .active })])
      (hemitted : s'.emitted = s.emitted ++ [.host s.endpoints.length addr .onConnect,
        .reply (frameOf .handshakeBetaAck
          (LawfulBlock.encode (HandshakeBetaAckFrame.mk none frame.clientNonce))) addr])
      (hcreated : s'.created = s.created ++ [⟨addr, frame, draws.nowMs⟩])

section Moves
variable {bd : Build} {hash : Bytes → U64} {s s' : State} {a : Action} {core core' : ServerCore}
  {emissions : List Emission} {peer : PeerRef} {p : Peer}

/-- The packets of the users for the peer are all that its endpoint is given. -/
lemma InputsOf.packets {addr : SocketAddr} {inputs : List Input}
    (h : InputsOf bd peer addr a inputs) :
    inputs.flatMap EndpointPair.enqueuedBy = packetsFor peer a ∧ .init ∉ inputs := by
  cases h <;> exact ⟨by simp [packetsFor, EndpointPair.enqueuedBy], by simp⟩

lemma InputsOf.packets_other {addr : SocketAddr} {inputs : List Input} {r : PeerRef}
    (h : InputsOf bd peer addr a inputs) (hr : r ≠ peer) : packetsFor r a = [] := by
  cases h <;> simp [packetsFor, hr.symm]

lemma InputsOf.frame_of_mem {addr : SocketAddr} {inputs : List Input} {frameType : FrameType}
    {payloadBytes : Bytes} (h : InputsOf bd peer addr a inputs)
    (hmem : .frame frameType payloadBytes ∈ inputs) :
    ∃ draws frameBytes, a = .frame draws frameBytes addr ∧
      readType bd frameBytes = .ok (some frameType) ∧
      payload bd frameBytes = .ok payloadBytes ∧
      frameType ≠ .handshakeAlpha ∧ frameType ≠ .handshakeBeta := by
  cases h with
  | frame htype hpayload hother =>
    cases List.mem_singleton.mp hmem
    exact ⟨_, _, rfl, htype, hpayload, hother⟩
  | _ => simp at hmem

lemma endpoints_getElem? (hp : s.core.heap[peer]? = some p) :
    s.endpoints[peer]? = some (p.addr, p.endpoint) := by
  unfold State.endpoints
  rw [List.getElem?_map, hp]
  rfl

lemma endpoints_withPeer {e : Endpoint} {calls : List HostCall}
    (h : s'.core.heap = (s.core.withPeer peer p e calls).1.heap) :
    s'.endpoints = s.endpoints.set peer (p.addr, e) := by
  unfold State.endpoints
  rw [h, withPeer_heap, List.map_set, called_addr]

/-- Nothing happens to the endpoints, and nothing is sent. -/
lemma Move.quiet (hheap : s'.core.heap = s.core.heap) (hemitted : s'.emitted = s.emitted)
    (hcreated : s'.created = s.created) (hpackets : ∀ peer, packetsFor peer a = []) :
    Move bd s a s' := by
  have hpeers : s'.endpoints = s.endpoints := by
    unfold State.endpoints
    rw [hheap]
  exact .still hpeers (hemitted.trans (List.append_nil _).symm) (by simp) hcreated hpackets

/-- A timer that is tested is no concern of the endpoints. -/
lemma testNext_move {nowMs remaining : ℕ} {expired : Option PeerRef}
    (h : s.core.testNext s.alive nowMs = .ok (core, expired)) :
    Move bd s .testNext
      { s with
        core := core
        pass := .testing nowMs remaining
        timerDataBuffer := s.timerDataBuffer ++ expired.toList } := by
  obtain ⟨timerQueue, ⟨-, rfl, -⟩ | ⟨peer, p, -, hp, rfl, -⟩⟩ := testNext_cases h
  · exact .quiet rfl rfl rfl fun _ => rfl
  · have hpeers : s.endpoints.set peer (p.addr, p.endpoint) = s.endpoints := by
      obtain ⟨hlt, heq⟩ := List.getElem?_eq_some_iff.mp (endpoints_getElem? hp)
      rw [← heq, List.set_getElem_self]
    refine .still ?_ (List.append_nil _).symm (by simp) rfl fun _ => rfl
    rw [← hpeers]
    unfold State.endpoints
    rw [List.map_set, test_addr, test_endpoint]

/-- The server once a frame has been handled. -/
def State.framed (s : State) (bd : Build) (draws : Draws) (frameBytes : Bytes) (addr : SocketAddr)
    (core : ServerCore) (emissions : List Emission) : State :=
  { s with
    core := core
    nowMs := draws.peerNowMs
    emitted := s.emitted ++ emissions
    hashed := s.hashed ++ hashedBy bd draws frameBytes addr
    created := s.created ++ createdBy bd s.core core draws frameBytes addr }

lemma handleFrame_move {draws : Draws} {frameBytes : Bytes} {addr : SocketAddr}
    (hinv : Inv bd s.core)
    (h : s.core.handleFrame bd hash draws frameBytes addr = .ok (core, emissions)) :
    Move bd s (.frame draws frameBytes addr)
      (s.framed bd draws frameBytes addr core emissions) := by
  have hstill : createdBy bd s.core s.core draws frameBytes addr = [] := createdBy_of_length rfl
  have hcreated : s.created ++ createdBy bd s.core s.core draws frameBytes addr = s.created := by
    rw [hstill, List.append_nil]
  cases handleFrame_step h with
  | ignored hnone => exact .quiet rfl (List.append_nil _) hcreated fun _ => rfl
  | alpha htype hread hack =>
    refine .still rfl rfl (fun emission hmem => ?_) hcreated fun _ => rfl
    rw [List.mem_singleton.mp hmem, hack]
    exact .alphaAck _ addr
  | @answered frame ackBytes error hrequest herror hack =>
    refine .still rfl rfl (fun emission hmem => ?_) hcreated fun _ => rfl
    rw [List.mem_singleton.mp hmem, hack]
    exact .betaAck error frame.clientNonce addr herror.mp
  | @created frame ackBytes prioConfig e hrequest hlookup hcount hprio hnew hack =>
    have haccepted : Endpoint.Config.Accepted bd ⟨s.core.config.connectionTimeoutMs, _⟩ :=
      ⟨_, _, hprio⟩
    refine .created rfl hrequest.1 hrequest.2.1 haccepted hnew ?_ ?_ ?_
    · unfold State.endpoints
      exact List.map_append
    · unfold State.endpoints
      rw [List.length_map, ← hack]
      rfl
    · exact congrArg (s.created ++ ·) (createdBy_withCreated hrequest.2.1)
  | @delivered frameType payloadBytes peer p e calls htype hother hpayload hlookup hp hcall =>
    have hperform : p.endpoint.perform bd draws.nonces (.frame frameType payloadBytes)
        draws.peerNowMs = .ok (e, calls) := hcall
    obtain ⟨q, hq, haddr, -⟩ := (hinv.live addr peer).mp hlookup
    cases hp.symm.trans hq
    subst haddr
    have hcalls := Inputs.single ((hinv.sound peer p hp).perform hperform).1
    refine .called (endpoints_getElem? hp) (.frame htype hpayload hother) hcalls
      (endpoints_withPeer rfl) rfl ?_
    exact (congrArg (s.created ++ ·) (createdBy_of_length (by simp))).trans (List.append_nil _)

/-- A call on the endpoint of a peer that is not a frame. -/
lemma callPeer_move (nowMs : ℕ) {call : Endpoint → Exec (Endpoint × List HostCall)}
    {inputs : List Input} (hinv : Inv bd s.core) (hinputs : ∀ addr, InputsOf bd peer addr a inputs)
    (hcall : ∀ e e' calls, e.Sound bd → call e = .ok (e', calls) →
      Inputs bd nowMs e inputs calls e')
    (hok : s.core.callPeer peer call = .ok (core, emissions)) (hheap : s'.core.heap = core.heap)
    (hemitted : s'.emitted = s.emitted ++ emissions) (hcreated : s'.created = s.created) :
    Move bd s a s' := by
  obtain ⟨p, e, calls, hp, he, rfl, rfl⟩ := callPeer_eq_ok hok
  exact .called (endpoints_getElem? hp) (hinputs p.addr) (hcall _ _ _ (hinv.sound peer p hp) he)
    (endpoints_withPeer hheap) hemitted hcreated

lemma fireNext_move {rest : List PeerRef} {nowMs : ℕ} {nonces : ℕ → Bool} (hinv : Inv bd s.core)
    (h : s.core.fireNext bd nonces peer nowMs = .ok (core, emissions)) :
    Move bd s (.fireNext nowMs nonces)
      { s with
        core := core
        timerDataBuffer := rest
        nowMs := nowMs
        emitted := s.emitted ++ emissions } := by
  obtain ⟨p, hp, h⟩ := bind_eq_ok.mp h
  obtain ⟨⟨e, calls, action⟩, hcall, h⟩ := bind_eq_ok.mp h
  have hp := index_eq_ok.mp hp
  have hcalls := Inputs.single ((hinv.sound peer p hp).handleRtoTimer hcall).1
  cases action with
  | «continue» =>
    cases h
    exact .called (endpoints_getElem? hp) .fire hcalls (endpoints_withPeer rfl) rfl rfl
  | terminate =>
    cases h
    exact .called (endpoints_getElem? hp) .fire hcalls (endpoints_withPeer rfl) rfl rfl

/-- Every step of a server is one of the moves listed. -/
theorem Step.move (hinv : Inv bd s.core) (h : Step bd hash s a s') : Move bd s a s' := by
  cases h with
  | frame hpass hclock hok => exact handleFrame_move hinv hok
  | testNext hpass hok => exact testNext_move hok
  | fireNext hpass hbuffer hclock hok => exact fireNext_move hinv hok
  | @send peer packetBytes mode nowMs nonces core emissions hhandle hclock hok =>
    refine callPeer_move nowMs hinv (fun _ => .send) (fun e e' calls hsound hcall => ?_) hok
      rfl rfl rfl
    obtain ⟨e₁, henqueue, hflush⟩ := bind_eq_ok.mp hcall
    obtain ⟨heffect, hsound₁, -⟩ := hsound.enqueue henqueue
    have hperform : e₁.perform bd nonces .flush nowMs = .ok (e', calls) := hflush
    exact .cons heffect (.single (hsound₁.perform hperform).1)
  | @enqueue peer packetBytes mode nowMs core emissions hhandle hclock hok =>
    refine callPeer_move nowMs hinv (fun _ => .enqueue) (fun e e' calls hsound hcall => ?_) hok
      rfl rfl rfl
    obtain ⟨e₁, henqueue, hcall⟩ := bind_eq_ok.mp hcall
    cases hcall
    exact .single (hsound.enqueue henqueue).1
  | @flush peer nowMs nonces core emissions hhandle hclock hok =>
    refine callPeer_move nowMs hinv (fun _ => .flush) (fun e e' calls hsound hcall => ?_) hok
      rfl rfl rfl
    have hperform : e.perform bd nonces .flush nowMs = .ok (e', calls) := hcall
    exact .single (hsound.perform hperform).1
  | @disconnect peer nowMs core emissions hhandle hclock hok =>
    refine callPeer_move nowMs hinv (fun _ => .disconnect) (fun e e' calls hsound hcall => ?_) hok
      rfl rfl rfl
    have hperform : e.perform bd (fun _ => false) .disconnect nowMs = .ok (e', calls) := hcall
    exact .single (hsound.perform hperform).1
  | _ => exact .quiet rfl rfl rfl fun _ => rfl

end Moves

/-- The answer to a second request, as it is sent. -/
def betaAckBytes (error : Option HandshakeErrorKind) (clientNonce : U32) : Bytes :=
  frameOf .handshakeBetaAck (LawfulBlock.encode (HandshakeBetaAckFrame.mk error clientNonce))

/-- The addresses of the peers. -/
def State.addrs (s : State) : List SocketAddr := s.endpoints.map Prod.fst

/-- Where what leaves the server comes from, when its peers have these addresses. -/
inductive Grounded (bd : Build) (addrs : List SocketAddr) : Emission → Prop
  | host {peer : PeerRef} {addr : SocketAddr} {call : HostCall} (haddr : addrs[peer]? = some addr)
      (htype : ∀ frameBytes, call = .sendFrame frameBytes → ∃ frameType,
        readType bd frameBytes = .ok (some frameType) ∧ ¬ IsHandshakeType frameType) :
      Grounded bd addrs (.host peer addr call)
  | alphaAck (ack : HandshakeAlphaAckFrame) (addr : SocketAddr) :
      Grounded bd addrs (.reply (frameOf .handshakeAlphaAck (LawfulBlock.encode ack)) addr)
  | betaAck {error : Option HandshakeErrorKind} {clientNonce : U32} {addr : SocketAddr}
      (hgranted : error = none → addr ∈ addrs) :
      Grounded bd addrs (.reply (betaAckBytes error clientNonce) addr)

/-- Each peer has been created for a request, and everything that has left the server is
grounded. -/
structure Traced (bd : Build) (s : State) : Prop where
  created_addr : s.created.map Creation.addr = s.addrs
  emitted : ∀ emission ∈ s.emitted, Grounded bd s.addrs emission

section Traced
variable {bd : Build} {hash : Bytes → U64} {s s' : State} {a : Action}

lemma addrs_set {peer : PeerRef} {addr : SocketAddr} {e e' : Endpoint}
    (hp : s.endpoints[peer]? = some (addr, e))
    (hpeers : s'.endpoints = s.endpoints.set peer (addr, e')) : s'.addrs = s.addrs := by
  have haddr : (s.endpoints.map Prod.fst)[peer]? = some addr := by
    rw [List.getElem?_map, hp]
    rfl
  obtain ⟨hlt, heq⟩ := List.getElem?_eq_some_iff.mp haddr
  unfold State.addrs
  rw [hpeers, List.map_set, ← heq, List.set_getElem_self]

lemma Grounded.mono {addrs : List SocketAddr} {emission : Emission}
    (h : Grounded bd addrs emission) (more : List SocketAddr) :
    Grounded bd (addrs ++ more) emission := by
  cases h with
  | host haddr htype => exact .host (Unreliable.getElem?_append_some haddr) htype
  | alphaAck ack addr => exact .alphaAck ack addr
  | betaAck hgranted => exact .betaAck fun hnone => List.mem_append_left _ (hgranted hnone)

/-- A sender that has a peer has had a request granted. -/
lemma lookup_mem_addrs (hinv : Inv bd s.core) {addr : SocketAddr}
    (hlookup : (s.core.peers.lookup addr).isSome = true) : addr ∈ s.addrs := by
  obtain ⟨peer, hpeer⟩ := Option.isSome_iff_exists.mp hlookup
  obtain ⟨p, hp, rfl, -⟩ := (hinv.live addr peer).mp hpeer
  exact List.mem_map_of_mem (List.mem_of_getElem? (endpoints_getElem? hp))

lemma Answer.grounded {emission : Emission} (hinv : Inv bd s.core)
    (h : Answer s.core emission) : Grounded bd s.addrs emission := by
  cases h with
  | alphaAck ack addr => exact .alphaAck ack addr
  | betaAck error clientNonce addr hgranted =>
    exact .betaAck fun hnone => lookup_mem_addrs hinv (hgranted hnone)

lemma Traced.move (h : Traced bd s) (hinv : Inv bd s.core) (hmove : Move bd s a s') :
    Traced bd s' := by
  cases hmove with
  | still hpeers hemitted hanswers hcreated hpackets =>
    have haddrs : s'.addrs = s.addrs := congrArg (List.map Prod.fst) hpeers
    refine ⟨by rw [hcreated, haddrs, h.created_addr], fun emission hmem => ?_⟩
    rw [hemitted] at hmem
    rw [haddrs]
    rcases List.mem_append.mp hmem with hmem | hmem
    · exact h.emitted emission hmem
    · exact (hanswers emission hmem).grounded hinv
  | @called peer addr e e' inputs calls nowMs hp hinputs hcalls hpeers hemitted hcreated =>
    have haddrs := addrs_set hp hpeers
    refine ⟨by rw [hcreated, haddrs, h.created_addr], fun emission hmem => ?_⟩
    rw [hemitted] at hmem
    rw [haddrs]
    rcases List.mem_append.mp hmem with hmem | hmem
    · exact h.emitted emission hmem
    · obtain ⟨call, hcall, rfl⟩ := List.mem_map.mp hmem
      have haddr : s.addrs[peer]? = some addr := by
        unfold State.addrs
        rw [List.getElem?_map, hp]
        rfl
      exact .host haddr fun frameBytes heq => hcalls.readType (heq ▸ hcall)
  | @created draws frameBytes addr frame config e ha htype hread haccepted hnew hpeers hemitted
      hcreated =>
    have haddrs : s'.addrs = s.addrs ++ [addr] := by
      unfold State.addrs
      rw [hpeers, List.map_append]
      rfl
    refine ⟨by rw [hcreated, haddrs, ← h.created_addr, List.map_append]; rfl, ?_⟩
    intro emission hmem
    rw [hemitted] at hmem
    rw [haddrs]
    rcases List.mem_append.mp hmem with hmem | hmem
    · exact (h.emitted emission hmem).mono [addr]
    · rcases List.mem_cons.mp hmem with rfl | hmem
      · have haddr : (s.addrs ++ [addr])[s.endpoints.length]? = some addr := by
          have hlength : s.endpoints.length = s.addrs.length := (List.length_map _).symm
          rw [hlength, List.getElem?_concat_length]
        exact .host haddr fun frameBytes heq => (by cases heq)
      · rw [List.mem_singleton.mp hmem]
        exact .betaAck fun _ => by simp

theorem traced_reachable (hs : Reachable (system bd hash) s) : Traced bd s := by
  induction hs using Reachable.induct with
  | init h =>
    obtain ⟨config, -, rfl⟩ := fresh_of_initial h
    exact ⟨rfl, by simp⟩
  | step hs hstep ih => exact ih.move (inv_reachable hs) (hstep.move (inv_reachable hs))

/-- A peer that does not exist yet has made no calls. -/
lemma Traced.callsOf_eq_nil (h : Traced bd s) {peer : PeerRef}
    (hle : s.endpoints.length ≤ peer) : callsOf peer s.emitted = [] := by
  refine List.filterMap_eq_nil_iff.mpr fun emission hmem => ?_
  cases h.emitted emission hmem with
  | @host r addr call haddr htype =>
    refine if_neg fun heq => ?_
    have hlt : r < (s.endpoints.map Prod.fst).length := (List.getElem?_eq_some_iff.mp haddr).1
    rw [List.length_map] at hlt
    exact absurd (heq ▸ hlt) (not_lt.mpr hle)
  | _ => rfl

/-- Peers are only added, and what has left the server has left it for good. -/
lemma Move.grows (hmove : Move bd s a s') :
    s.emitted <+: s'.emitted ∧ s.addrs <+: s'.addrs := by
  cases hmove with
  | still hpeers hemitted hanswers hcreated hpackets =>
    have haddrs : s'.addrs = s.addrs := congrArg (List.map Prod.fst) hpeers
    exact ⟨hemitted ▸ List.prefix_append _ _, haddrs ▸ List.prefix_rfl⟩
  | called hp hinputs hcalls hpeers hemitted hcreated =>
    exact ⟨hemitted ▸ List.prefix_append _ _, addrs_set hp hpeers ▸ List.prefix_rfl⟩
  | created ha htype hread haccepted hnew hpeers hemitted hcreated =>
    refine ⟨hemitted ▸ List.prefix_append _ _, ?_⟩
    unfold State.addrs
    rw [hpeers, List.map_append]
    exact List.prefix_append _ _

/-- Nobody hands over packets for a peer that does not exist. -/
lemma Move.packetsFor_eq_nil (hmove : Move bd s a s') {peer : PeerRef}
    (hle : s'.endpoints.length ≤ peer) : s.endpoints.length ≤ peer ∧ packetsFor peer a = [] := by
  cases hmove with
  | still hpeers hemitted hanswers hcreated hpackets =>
    rw [hpeers] at hle
    exact ⟨hle, hpackets peer⟩
  | called hp hinputs hcalls hpeers hemitted hcreated =>
    rw [hpeers, List.length_set] at hle
    have hlt := (List.getElem?_eq_some_iff.mp hp).1
    exact ⟨hle, hinputs.packets_other (hlt.trans_le hle).ne'⟩
  | created ha htype hread haccepted hnew hpeers hemitted hcreated =>
    rw [hpeers, List.length_append] at hle
    rw [ha]
    exact ⟨(Nat.le_add_right _ _).trans hle, rfl⟩

end Traced

end Redpine.ServerRun
