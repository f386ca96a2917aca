import Redpine.ServerRun
import Redpine.EndpointSession
import Redpine.WireRoundTrip

/-! What a step of a server can do: one peer is called, tested or created, or nothing happens
to any peer. -/
namespace Redpine
open Machine Buffer Wire Endpoint

namespace ServerCore
open Server

section Calls
variable {bd : Build} {core core' : ServerCore} {peer : PeerRef} {p : Peer} {e : Endpoint}
  {calls : List HostCall} {emissions : List Emission} {nowMs : ℕ} {nonces : ℕ → Bool}

@[simp] lemma withPeer_heap : (core.withPeer peer p e calls).1.heap =
    core.heap.set peer ⟨calls.foldl Peer.hostCall p.core, e⟩ := rfl

@[simp] lemma withPeer_peers : (core.withPeer peer p e calls).1.peers = core.peers := rfl

@[simp] lemma withPeer_timerQueue :
    (core.withPeer peer p e calls).1.timerQueue = core.timerQueue := rfl

@[simp] lemma withPeer_config : (core.withPeer peer p e calls).1.config = core.config := rfl

@[simp] lemma withPeer_emissions :
    (core.withPeer peer p e calls).2 = calls.map (.host peer p.addr) := rfl

lemma callPeer_eq_ok {call : Endpoint → Exec (Endpoint × List HostCall)}
    (h : core.callPeer peer call = .ok (core', emissions)) :
    ∃ p e calls, core.heap[peer]? = some p ∧ call p.endpoint = .ok (e, calls) ∧
      core' = (core.withPeer peer p e calls).1 ∧ emissions = calls.map (.host peer p.addr) := by
  obtain ⟨p, hp, h⟩ := bind_eq_ok.mp h
  obtain ⟨⟨e, calls⟩, hcall, h⟩ := bind_eq_ok.mp h
  cases h
  exact ⟨p, e, calls, index_eq_ok.mp hp, hcall, rfl, rfl⟩

/-- The core once a peer has been created for an address and initialized. -/
def withCreated (core : ServerCore) (addr : SocketAddr) (e : Endpoint) : ServerCore := {
  core with
  heap := core.heap ++ [⟨⟨addr, none⟩, { e with stateId := .active }⟩]
  peers := core.peers.insert addr core.heap.length
  timerQueue := core.timerQueue.addTimer core.heap.length
  events := core.events ++ [.connect core.heap.length] }

lemma createPeer_spec {addr : SocketAddr} (h : core.createPeer bd addr = .ok (core', emissions)) :
    ∃ prioConfig e, core.config.channelBalance.toPrio bd = .ok prioConfig ∧
      Endpoint.new ⟨core.config.connectionTimeoutMs, prioConfig⟩ = .ok e ∧
      core' = core.withCreated addr e ∧ emissions = [.host core.heap.length addr .onConnect] := by
  obtain ⟨prioConfig, hprio, h⟩ := bind_eq_ok.mp h
  obtain ⟨p, hp, h⟩ := bind_eq_ok.mp h
  obtain ⟨e, hnew, hp⟩ := bind_eq_ok.mp hp
  cases hp
  obtain ⟨p, e', calls, hp, hinit, rfl, rfl⟩ := callPeer_eq_ok h
  obtain rfl : _ = p := by simpa using hp
  obtain ⟨_, -, hinit⟩ := bind_eq_ok.mp hinit
  cases hinit
  refine ⟨prioConfig, e, hprio, hnew, ?_, rfl⟩
  simp [withPeer, withCreated, Peer.hostCall, Emission.event, Peer.addr]

end Calls

lemma readBeta_length {bd : Build} {frameBytes : Bytes} {frame : HandshakeBetaFrame}
    (h : readBeta bd frameBytes = .ok (some frame)) : frameBytes.length = 33 := by
  obtain ⟨valid, hverify, h⟩ := bind_eq_ok.mp h
  unfold verifyHandshakeBetaSizeAndCrc at hverify
  by_cases hlen : frameBytes.length = handshakeBetaSize + frameOverheadSize
  · exact hlen
  · rw [if_neg hlen] at hverify
    cases hverify
    cases h

/-- The frame is a second request with a valid code that is not too old. -/
def IsRequest (bd : Build) (hash : Bytes → U64) (draws : Draws) (frameBytes : Bytes)
    (addr : SocketAddr) (frame : HandshakeBetaFrame) : Prop :=
  readType bd frameBytes = .ok (some .handshakeBeta) ∧
    readBeta bd frameBytes = .ok (some frame) ∧ macValid hash frame addr = true ∧
    timestampValid frame draws.nowMs = true

/-- What the handling of a frame does. -/
inductive FrameStep (bd : Build) (hash : Bytes → U64) (draws : Draws) (core : ServerCore)
    (frameBytes : Bytes) (addr : SocketAddr) : ServerCore → List Emission → Prop
  | ignored (hnone : ∀ frame, ¬ IsRequest bd hash draws frameBytes addr frame) :
      FrameStep bd hash draws core frameBytes addr core []
  | alpha {frame : HandshakeAlphaFrame} {ackBytes : Bytes}
      (htype : readType bd frameBytes = .ok (some .handshakeAlpha))
      (hread : readAlpha bd frameBytes = .ok (some frame))
      (hack : ackBytes = frameOf .handshakeAlphaAck
        (LawfulBlock.encode (alphaAck hash draws.serverNonce frame addr draws.nowMs))) :
      FrameStep bd hash draws core frameBytes addr core [.reply ackBytes addr]
  | answered {frame : HandshakeBetaFrame} {ackBytes : Bytes} {error : Option HandshakeErrorKind}
      (hrequest : IsRequest bd hash draws frameBytes addr frame)
      (herror : error = none ↔ (core.peers.lookup addr).isSome = true)
      (hack : ackBytes = frameOf .handshakeBetaAck
        (LawfulBlock.encode (HandshakeBetaAckFrame.mk error frame.clientNonce))) :
      FrameStep bd hash draws core frameBytes addr core [.reply ackBytes addr]
  | created {frame : HandshakeBetaFrame} {ackBytes : Bytes} {prioConfig : Prio.Config}
      {e : Endpoint} (hrequest : IsRequest bd hash draws frameBytes addr frame)
      (hlookup : core.peers.lookup addr = none)
      (hcount : core.peers.entries.length < core.config.peerCountMax)
      (hprio : core.config.channelBalance.toPrio bd = .ok prioConfig)
      (hnew : Endpoint.new ⟨core.config.connectionTimeoutMs, prioConfig⟩ = .ok e)
      (hack : ackBytes = frameOf .handshakeBetaAck
        (LawfulBlock.encode (HandshakeBetaAckFrame.mk none frame.clientNonce))) :
      FrameStep bd hash draws core frameBytes addr (core.withCreated addr e)
        [.host core.heap.length addr .onConnect, .reply ackBytes addr]
  | delivered {frameType : FrameType} {payloadBytes : Bytes} {peer : PeerRef} {p : Peer}
      {e : Endpoint} {calls : List HostCall}
      (htype : readType bd frameBytes = .ok (some frameType))
      (hother : frameType ≠ .handshakeAlpha ∧ frameType ≠ .handshakeBeta)
      (hpayload : payload bd frameBytes = .ok payloadBytes)
      (hlookup : core.peers.lookup addr = some peer) (hp : core.heap[peer]? = some p)
      (hcall : p.endpoint.handleFrame bd draws.nonces frameType payloadBytes draws.peerNowMs =
        .ok (e, calls)) :
      FrameStep bd hash draws core frameBytes addr (core.withPeer peer p e calls).1
        (calls.map (.host peer p.addr))

section Frames
variable {bd : Build} {hash : Bytes → U64} {draws : Draws} {core core' : ServerCore}
  {frameBytes : Bytes} {addr : SocketAddr} {emissions : List Emission}

lemma handleHandshakeAlpha_step (htype : readType bd frameBytes = .ok (some .handshakeAlpha))
    (h : core.handleHandshakeAlpha bd hash draws.serverNonce frameBytes addr draws.nowMs =
      .ok (core', emissions)) :
    FrameStep bd hash draws core frameBytes addr core' emissions := by
  obtain ⟨frame, hread, h⟩ := bind_eq_ok.mp h
  cases frame with
  | none =>
    cases h
    exact .ignored fun frame hrequest => by cases htype.symm.trans hrequest.1
  | some frame =>
    obtain ⟨ackBytes, hwrite, h⟩ := bind_eq_ok.mp h
    rw [simpleWrite_eq trivial (by decide) (by decide)] at hwrite
    cases hwrite
    cases h
    exact .alpha htype hread rfl

lemma handleHandshakeBeta_step (htype : readType bd frameBytes = .ok (some .handshakeBeta))
    (h : core.handleHandshakeBeta bd hash frameBytes addr draws.nowMs = .ok (core', emissions)) :
    FrameStep bd hash draws core frameBytes addr core' emissions := by
  obtain ⟨frame, hread, h⟩ := bind_eq_ok.mp h
  cases frame with
  | none =>
    cases h
    refine .ignored fun frame hrequest => ?_
    cases hread.symm.trans hrequest.2.1
  | some frame =>
    dsimp only at h
    by_cases hvalid : (macValid hash frame addr && timestampValid frame draws.nowMs) = true
    · rw [if_pos hvalid] at h
      rw [Bool.and_eq_true] at hvalid
      have hrequest : IsRequest bd hash draws frameBytes addr frame := ⟨htype, hread, hvalid⟩
      obtain ⟨⟨core₁, emissions₁, error⟩, haccept, h⟩ := bind_eq_ok.mp h
      obtain ⟨ackBytes, hwrite, h⟩ := bind_eq_ok.mp h
      rw [simpleWrite_eq trivial (by decide) (by decide)] at hwrite
      cases hwrite
      cases h
      unfold acceptBeta at haccept
      by_cases hlookup : (core.peers.lookup addr).isSome = true
      · rw [if_pos hlookup] at haccept
        cases haccept
        exact .answered hrequest (by simp [hlookup]) rfl
      · rw [if_neg hlookup] at haccept
        by_cases hcount : core.config.peerCountMax ≤ core.peers.entries.length
        · rw [if_pos hcount] at haccept
          cases haccept
          exact .answered hrequest (by simp [hlookup]) rfl
        · rw [if_neg hcount] at haccept
          by_cases hparams : (!connectionParamsCompatible frame.clientParams localParams) = true
          · rw [if_pos hparams] at haccept
            cases haccept
            exact .answered hrequest (by simp [hlookup]) rfl
          · rw [if_neg hparams] at haccept
            obtain ⟨⟨core₂, emissions₂⟩, hcreate, haccept⟩ := bind_eq_ok.mp haccept
            cases haccept
            obtain ⟨prioConfig, e, hprio, hnew, rfl, rfl⟩ := createPeer_spec hcreate
            refine .created hrequest ?_ (not_le.mp hcount) hprio hnew rfl
            rwa [Option.not_isSome_iff_eq_none] at hlookup
    · rw [if_neg hvalid] at h
      cases h
      refine .ignored fun frame' hrequest => hvalid ?_
      cases hread.symm.trans hrequest.2.1
      rw [hrequest.2.2.1, hrequest.2.2.2]
      rfl

lemma handleFrameOther_step {frameType : FrameType}
    (htype : readType bd frameBytes = .ok (some frameType))
    (hother : frameType ≠ .handshakeAlpha ∧ frameType ≠ .handshakeBeta)
    (h : core.handleFrameOther bd draws.nonces frameType frameBytes addr draws.peerNowMs =
      .ok (core', emissions)) :
    FrameStep bd hash draws core frameBytes addr core' emissions := by
  have hnone : ∀ frame, ¬ IsRequest bd hash draws frameBytes addr frame := by
    rintro frame ⟨hbeta, -⟩
    cases htype.symm.trans hbeta
    exact hother.2 rfl
  unfold handleFrameOther at h
  cases hlookup : core.peers.lookup addr with
  | none =>
    rw [hlookup] at h
    cases h
    exact .ignored hnone
  | some peer =>
    rw [hlookup] at h
    obtain ⟨valid, -, h⟩ := bind_eq_ok.mp h
    by_cases hvalid : valid = true
    · rw [if_pos hvalid] at h
      obtain ⟨payloadBytes, hpayload, h⟩ := bind_eq_ok.mp h
      obtain ⟨p, e, calls, hp, hcall, rfl, rfl⟩ := callPeer_eq_ok h
      exact .delivered htype hother hpayload hlookup hp hcall
    · rw [if_neg hvalid] at h
      cases h
      exact .ignored hnone

lemma handleFrame_step (h : core.handleFrame bd hash draws frameBytes addr =
    .ok (core', emissions)) : FrameStep bd hash draws core frameBytes addr core' emissions := by
  unfold handleFrame at h
  by_cases hsize : verifyMinimumSize frameBytes = true
  · rw [if_pos hsize] at h
    obtain ⟨frameType, htype, h⟩ := bind_eq_ok.mp h
    cases frameType with
    | none =>
      cases h
      refine .ignored fun frame hrequest => ?_
      cases htype.symm.trans hrequest.1
    | some frameType =>
      dsimp only [dispatchFrame] at h
      cases frameType with
      | handshakeAlpha => exact handleHandshakeAlpha_step htype h
      | handshakeBeta => exact handleHandshakeBeta_step htype h
      | _ => exact handleFrameOther_step htype (by simp) h
  · rw [if_neg hsize] at h
    cases h
    refine .ignored fun frame hrequest => hsize ?_
    rw [verifyMinimumSize, readBeta_length hrequest.2.1]
    rfl

end Frames

end ServerCore

namespace ServerRun
open Server ServerCore Transition

/-- What a user asks of an endpoint through a handle. -/
def IsUserInput : Input → Prop
  | .enqueue _ _ | .flush | .disconnect => True
  | _ => False

/-- A call of a handle, under the lock of its peer. -/
inductive UserRun (bd : Build) (nowMs : ℕ) (e : Endpoint) : List HostCall → Endpoint → Prop
  | single {input : Input} {calls : List HostCall} {e' : Endpoint}
      (heffect : Effect bd nowMs e input calls e') (hinput : IsUserInput input) :
      UserRun bd nowMs e calls e'
  | send {packetBytes : Bytes} {mode : SendMode} {calls : List HostCall} {e₁ e' : Endpoint}
      (henqueue : Effect bd nowMs e (.enqueue packetBytes mode) [] e₁)
      (hflush : Effect bd nowMs e₁ .flush calls e') : UserRun bd nowMs e calls e'

/-- The peers, their table and the timers are left alone. -/
structure Still (s s' : State) : Prop where
  heap_eq : s'.core.heap = s.core.heap
  peers_eq : s'.core.peers = s.core.peers
  timerQueue_eq : s'.core.timerQueue = s.core.timerQueue
  config_eq : s'.core.config = s.core.config
  buffer_eq : s'.timerDataBuffer = s.timerDataBuffer
  disconnected_eq : s'.disconnected = s.disconnected
  created_eq : s'.created = s.created

/-- The endpoint of a peer terminates. -/
def Terminates (p : Peer) (e : Endpoint) : Prop :=
  p.endpoint.stateId ≠ .zombie ∧ e.stateId = .zombie

instance (p : Peer) (e : Endpoint) : Decidable (Terminates p e) :=
  inferInstanceAs (Decidable (_ ∧ _))

/-- What a step does to the peers, to their table and to the timers. -/
inductive Change (bd : Build) (hash : Bytes → U64) (s : State) : Action → State → Prop
  | still {a : Action} {s' : State} {replies : List Emission} (h : Still s s')
      (hclock : s.nowMs ≤ s'.nowMs) (hemitted : s'.emitted = s.emitted ++ replies)
      (hreplies : ∀ emission ∈ replies, ∃ frameBytes addr, emission = .reply frameBytes addr) :
      Change bd hash s a s'
  | collected {nowMs remaining : ℕ} {timerQueue : TimerQueue PeerRef}
      (hpass : s.pass = .testing nowMs (remaining + 1))
      (hqueue : s.core.timerQueue.next s.alive = some (none, timerQueue)) :
      Change bd hash s .testNext
        { s with
          core := { s.core with timerQueue := timerQueue }
          pass := .testing nowMs remaining }
  | tested {nowMs remaining : ℕ} {timerQueue : TimerQueue PeerRef} {peer : PeerRef} {p : Peer}
      (hpass : s.pass = .testing nowMs (remaining + 1))
      (hqueue : s.core.timerQueue.next s.alive = some (some peer, timerQueue))
      (hp : s.core.heap[peer]? = some p) :
      Change bd hash s .testNext
        { s with
          core := {
            s.core with
            heap := s.core.heap.set peer (p.test nowMs).1
            timerQueue := timerQueue }
          pass := .testing nowMs remaining
          timerDataBuffer :=
            s.timerDataBuffer ++ (if (p.test nowMs).2 then some peer else none).toList }
  | fired {peer : PeerRef} {rest : List PeerRef} {nowMs : ℕ} {nonces : ℕ → Bool} {p : Peer}
      {e : Endpoint} {calls : List HostCall} (hpass : s.pass = .firing)
      (hbuffer : s.timerDataBuffer = peer :: rest) (hclock : s.nowMs ≤ nowMs)
      (hp : s.core.heap[peer]? = some p)
      (heffect : Effect bd nowMs p.endpoint .rtoTimer calls e) (hsound : e.Sound bd) :
      Change bd hash s (.fireNext nowMs nonces)
        { s with
          core := {
            (s.core.withPeer peer p e calls).1 with
            peers := if Terminates p e then s.core.peers.erase p.addr else s.core.peers }
          timerDataBuffer := rest
          nowMs := nowMs
          emitted := s.emitted ++ calls.map (.host peer p.addr) }
  | delivered {draws : Draws} {frameBytes payloadBytes : Bytes} {addr : SocketAddr}
      {frameType : FrameType} {peer : PeerRef} {p : Peer} {e : Endpoint} {calls : List HostCall}
      (hpass : s.pass = .idle)
      (hclock : s.nowMs ≤ draws.nowMs ∧ draws.nowMs ≤ draws.peerNowMs)
      (hlookup : s.core.peers.lookup addr = some peer) (hp : s.core.heap[peer]? = some p)
      (heffect : Effect bd draws.peerNowMs p.endpoint (.frame frameType payloadBytes) calls e)
      (hsound : e.Sound bd) :
      Change bd hash s (.frame draws frameBytes addr)
        { s with
          core := (s.core.withPeer peer p e calls).1
          nowMs := draws.peerNowMs
          emitted := s.emitted ++ calls.map (.host peer p.addr)
          hashed := s.hashed ++ hashedBy bd draws frameBytes addr }
  | created {draws : Draws} {frameBytes ackBytes : Bytes} {addr : SocketAddr}
      {frame : HandshakeBetaFrame} {prioConfig : Prio.Config} {e : Endpoint}
      (hpass : s.pass = .idle)
      (hclock : s.nowMs ≤ draws.nowMs ∧ draws.nowMs ≤ draws.peerNowMs)
      (hrequest : IsRequest bd hash draws frameBytes addr frame)
      (hlookup : s.core.peers.lookup addr = none)
      (hcount : s.core.peers.entries.length < s.core.config.peerCountMax)
      (haccepted : Endpoint.Config.Accepted bd ⟨s.core.config.connectionTimeoutMs, prioConfig⟩)
      (hnew : Endpoint.new ⟨s.core.config.connectionTimeoutMs, prioConfig⟩ = .ok e) :
      Change bd hash s (.frame draws frameBytes addr)
        { s with
          core := s.core.withCreated addr e
          nowMs := draws.peerNowMs
          emitted :=
            s.emitted ++ [.host s.core.heap.length addr .onConnect, .reply ackBytes addr]
          hashed := s.hashed ++ hashedBy bd draws frameBytes addr
          created := s.created ++ [⟨addr, frame, draws.nowMs⟩] }
  | used {a : Action} {peer : PeerRef} {p : Peer} {e : Endpoint} {calls : List HostCall}
      {nowMs : ℕ} {disconnected : List PeerRef} (hhandle : peer ∈ s.handles)
      (hclock : s.nowMs ≤ nowMs) (hp : s.core.heap[peer]? = some p)
      (hrun : UserRun bd nowMs p.endpoint calls e) (hsound : e.Sound bd)
      (hdisconnect : p.endpoint.stateId = .active → e.stateId ≠ .active →
        a = .disconnect peer nowMs)
      (hdisconnected : disconnected = s.disconnected ∨
        (disconnected = s.disconnected ++ [peer] ∧ e.stateId.Ended)) :
      Change bd hash s a
        { s with
          core := (s.core.withPeer peer p e calls).1
          nowMs := nowMs
          emitted := s.emitted ++ calls.map (.host peer p.addr)
          disconnected := disconnected }

section Changes
variable {bd : Build} {hash : Bytes → U64} {s s' : State} {a : Action}

/-- A request that is granted is recorded. -/
lemma createdBy_withCreated {core : ServerCore} {addr : SocketAddr} {e : Endpoint}
    {draws : Draws} {frameBytes : Bytes} {frame : HandshakeBetaFrame}
    (hread : readBeta bd frameBytes = .ok (some frame)) :
    createdBy bd core (core.withCreated addr e) draws frameBytes addr =
      [⟨addr, frame, draws.nowMs⟩] := by
  unfold createdBy
  rw [if_pos (by simp [withCreated]), hread]

lemma createdBy_of_length {core core' : ServerCore} {addr : SocketAddr} {draws : Draws}
    {frameBytes : Bytes} (h : core'.heap.length = core.heap.length) :
    createdBy bd core core' draws frameBytes addr = [] := by
  unfold createdBy
  rw [if_neg (by omega)]

lemma frame_change {draws : Draws} {frameBytes : Bytes} {addr : SocketAddr} {core : ServerCore}
    {emissions : List Emission} (hheap : ∀ p ∈ s.core.heap, p.endpoint.Sound bd)
    (hpass : s.pass = .idle) (hclock : s.nowMs ≤ draws.nowMs ∧ draws.nowMs ≤ draws.peerNowMs)
    (h : FrameStep bd hash draws s.core frameBytes addr core emissions) :
    Change bd hash s (.frame draws frameBytes addr)
      { s with
        core := core
        nowMs := draws.peerNowMs
        emitted := s.emitted ++ emissions
        hashed := s.hashed ++ hashedBy bd draws frameBytes addr
        created := s.created ++ createdBy bd s.core core draws frameBytes addr } := by
  have hstill : createdBy bd s.core s.core draws frameBytes addr = [] :=
    createdBy_of_length rfl
  have hle := hclock.1.trans hclock.2
  cases h with
  | ignored hnone =>
    rw [hstill, List.append_nil s.created]
    exact .still ⟨rfl, rfl, rfl, rfl, rfl, rfl, rfl⟩ hle rfl (by simp)
  | alpha htype hread hack =>
    rw [hstill, List.append_nil s.created]
    exact .still ⟨rfl, rfl, rfl, rfl, rfl, rfl, rfl⟩ hle rfl (by simp)
  | answered hrequest herror hack =>
    rw [hstill, List.append_nil s.created]
    exact .still ⟨rfl, rfl, rfl, rfl, rfl, rfl, rfl⟩ hle rfl (by simp)
  | created hrequest hlookup hcount hprio hnew hack =>
    rw [createdBy_withCreated hrequest.2.1]
    have haccepted : Endpoint.Config.Accepted bd ⟨s.core.config.connectionTimeoutMs, _⟩ :=
      ⟨_, _, hprio⟩
    exact .created hpass hclock hrequest hlookup hcount haccepted hnew
  | @delivered frameType payloadBytes peer p e calls htype hother hpayload hlookup hp hcall =>
    rw [createdBy_of_length (by simp), List.append_nil s.created]
    have hperform : p.endpoint.perform bd draws.nonces (.frame frameType payloadBytes)
        draws.peerNowMs = .ok (e, calls) := hcall
    obtain ⟨heffect, hsound⟩ := (hheap p (List.mem_of_getElem? hp)).perform hperform
    exact .delivered hpass hclock hlookup hp heffect hsound

lemma testNext_cases {core core' : ServerCore} {alive : PeerRef → Bool} {nowMs : ℕ}
    {expired : Option PeerRef} (h : core.testNext alive nowMs = .ok (core', expired)) :
    ∃ timerQueue, (core.timerQueue.next alive = some (none, timerQueue) ∧
        core' = { core with timerQueue := timerQueue } ∧ expired = none) ∨
      ∃ peer p, core.timerQueue.next alive = some (some peer, timerQueue) ∧
        core.heap[peer]? = some p ∧
        core' = {
          core with heap := core.heap.set peer (p.test nowMs).1, timerQueue := timerQueue } ∧
        expired = if (p.test nowMs).2 then some peer else none := by
  unfold ServerCore.testNext at h
  cases hqueue : core.timerQueue.next alive with
  | none =>
    rw [hqueue] at h
    cases h
  | some r =>
    obtain ⟨timer, timerQueue⟩ := r
    rw [hqueue] at h
    cases timer with
    | none =>
      cases h
      exact ⟨timerQueue, .inl ⟨rfl, rfl, rfl⟩⟩
    | some peer =>
      obtain ⟨p, hp, h⟩ := bind_eq_ok.mp h
      cases h
      exact ⟨timerQueue, .inr ⟨peer, p, rfl, index_eq_ok.mp hp, rfl, rfl⟩⟩

lemma test_change {nowMs remaining : ℕ} {core : ServerCore} {expired : Option PeerRef}
    (hpass : s.pass = .testing nowMs (remaining + 1))
    (h : s.core.testNext s.alive nowMs = .ok (core, expired)) :
    Change bd hash s .testNext
      { s with
        core := core
        pass := .testing nowMs remaining
        timerDataBuffer := s.timerDataBuffer ++ expired.toList } := by
  obtain ⟨timerQueue, ⟨hqueue, rfl, rfl⟩ | ⟨peer, p, hqueue, hp, rfl, rfl⟩⟩ := testNext_cases h
  · rw [Option.toList_none, List.append_nil]
    exact .collected hpass hqueue
  · exact .tested hpass hqueue hp

lemma fire_change {peer : PeerRef} {rest : List PeerRef} {nowMs : ℕ} {nonces : ℕ → Bool}
    {core : ServerCore} {emissions : List Emission}
    (hheap : ∀ p ∈ s.core.heap, p.endpoint.Sound bd) (hpass : s.pass = .firing)
    (hbuffer : s.timerDataBuffer = peer :: rest) (hclock : s.nowMs ≤ nowMs)
    (h : s.core.fireNext bd nonces peer nowMs = .ok (core, emissions)) :
    Change bd hash s (.fireNext nowMs nonces)
      { s with
        core := core
        timerDataBuffer := rest
        nowMs := nowMs
        emitted := s.emitted ++ emissions } := by
  obtain ⟨p, hp, h⟩ := bind_eq_ok.mp h
  obtain ⟨⟨e, calls, action⟩, hcall, h⟩ := bind_eq_ok.mp h
  have hp := index_eq_ok.mp hp
  obtain ⟨heffect, hsound, haction⟩ := (hheap p (List.mem_of_getElem? hp)).handleRtoTimer hcall
  have hchange : Change bd hash s (.fireNext nowMs nonces) _ :=
    .fired hpass hbuffer hclock hp heffect hsound
  cases action with
  | «continue» =>
    cases h
    have hnot : ¬ Terminates p e := fun hend => by cases haction.mpr hend
    rwa [if_neg hnot] at hchange
  | terminate =>
    cases h
    have hend : Terminates p e := haction.mp rfl
    rwa [if_pos hend] at hchange

/-- A call of a handle that leaves the state of the connection alone. -/
lemma used_change {peer : PeerRef} {nowMs : ℕ} {core : ServerCore} {emissions : List Emission}
    {call : Endpoint → Exec (Endpoint × List HostCall)}
    (hheap : ∀ p ∈ s.core.heap, p.endpoint.Sound bd) (hhandle : peer ∈ s.handles)
    (hclock : s.nowMs ≤ nowMs)
    (hcall : ∀ e e' calls, e.Sound bd → call e = .ok (e', calls) →
      UserRun bd nowMs e calls e' ∧ e'.Sound bd ∧ e'.stateId = e.stateId)
    (h : s.core.callPeer peer call = .ok (core, emissions)) :
    Change bd hash s a
      { s with core := core, nowMs := nowMs, emitted := s.emitted ++ emissions } := by
  obtain ⟨p, e, calls, hp, hok, rfl, rfl⟩ := callPeer_eq_ok h
  obtain ⟨hrun, hsound, hstate⟩ := hcall _ _ _ (hheap p (List.mem_of_getElem? hp)) hok
  exact .used hhandle hclock hp hrun hsound (fun hs hs' => absurd (hstate.trans hs) hs') (.inl rfl)

lemma disconnect_change {peer : PeerRef} {nowMs : ℕ} {core : ServerCore}
    {emissions : List Emission} (hheap : ∀ p ∈ s.core.heap, p.endpoint.Sound bd)
    (hhandle : peer ∈ s.handles) (hclock : s.nowMs ≤ nowMs)
    (h : s.core.peerDisconnect bd peer nowMs = .ok (core, emissions)) :
    Change bd hash s (.disconnect peer nowMs)
      { s with
        core := core
        nowMs := nowMs
        emitted := s.emitted ++ emissions
        disconnected :=
          if isActive s.core peer then s.disconnected ++ [peer] else s.disconnected } := by
  obtain ⟨p, e, calls, hp, hok, rfl, rfl⟩ := callPeer_eq_ok h
  have hperform : p.endpoint.perform bd (fun _ => false) .disconnect nowMs = .ok (e, calls) := hok
  obtain ⟨heffect, hsound⟩ := (hheap p (List.mem_of_getElem? hp)).perform hperform
  refine .used hhandle hclock hp (.single heffect trivial) hsound (fun _ _ => rfl) ?_
  by_cases hactive : isActive s.core peer = true
  · rw [if_pos hactive]
    refine .inr ⟨rfl, ?_⟩
    unfold isActive at hactive
    rw [hp] at hactive
    cases heffect with
    | disconnect hs htime => exact .inl rfl
    | disconnectIgnored hs => exact absurd (of_decide_eq_true hactive) hs
  · rw [if_neg hactive]
    exact .inl rfl

lemma enqueue_run {e e' : Endpoint} {packetBytes : Bytes} {mode : SendMode} {nowMs : ℕ}
    {calls : List HostCall} (hsound : e.Sound bd)
    (h : (do let e ← e.enqueue bd packetBytes mode nowMs; return (e, [])) = Except.ok (e', calls)) :
    UserRun bd nowMs e calls e' ∧ e'.Sound bd ∧ e'.stateId = e.stateId := by
  obtain ⟨e₁, henqueue, h⟩ := bind_eq_ok.mp h
  cases h
  obtain ⟨heffect, hsound', hstate⟩ := hsound.enqueue henqueue
  exact ⟨.single heffect trivial, hsound', hstate⟩

lemma flush_effect {e e' : Endpoint} {nowMs : ℕ} {nonces : ℕ → Bool} {calls : List HostCall}
    (hsound : e.Sound bd) (h : e.flush bd nonces nowMs = .ok (e', calls)) :
    Effect bd nowMs e .flush calls e' ∧ e'.Sound bd ∧ e'.stateId = e.stateId := by
  have hperform : e.perform bd nonces .flush nowMs = .ok (e', calls) := h
  obtain ⟨heffect, hsound'⟩ := hsound.perform hperform
  refine ⟨heffect, hsound', ?_⟩
  cases heffect with
  | flush hs hflush => exact hflush.sendOnly.stateId_eq
  | flushIgnored hs => rfl

lemma send_run {e e' : Endpoint} {packetBytes : Bytes} {mode : SendMode} {nowMs : ℕ}
    {nonces : ℕ → Bool} {calls : List HostCall} (hsound : e.Sound bd)
    (h : (do let e ← e.enqueue bd packetBytes mode nowMs; e.flush bd nonces nowMs) =
      Except.ok (e', calls)) :
    UserRun bd nowMs e calls e' ∧ e'.Sound bd ∧ e'.stateId = e.stateId := by
  obtain ⟨e₁, henqueue, h⟩ := bind_eq_ok.mp h
  obtain ⟨heffect₁, hsound₁, hstate₁⟩ := hsound.enqueue henqueue
  obtain ⟨heffect, hsound', hstate⟩ := flush_effect hsound₁ h
  exact ⟨.send heffect₁ heffect, hsound', hstate.trans hstate₁⟩

/-- Every step is one of the changes listed. -/
theorem Step.change (hheap : ∀ p ∈ s.core.heap, p.endpoint.Sound bd)
    (h : Step bd hash s a s') : Change bd hash s a s' := by
  cases h with
  | frame hpass hclock hok => exact frame_change hheap hpass hclock (handleFrame_step hok)
  | beginTimeouts hpass hclock =>
    exact .still ⟨rfl, rfl, rfl, rfl, rfl, rfl, rfl⟩ hclock (List.append_nil _).symm (by simp)
  | testNext hpass hok => exact test_change hpass hok
  | endTests hpass =>
    exact .still ⟨rfl, rfl, rfl, rfl, rfl, rfl, rfl⟩ le_rfl (List.append_nil _).symm (by simp)
  | fireNext hpass hbuffer hclock hok => exact fire_change hheap hpass hbuffer hclock hok
  | endTimeouts hpass hbuffer =>
    exact .still ⟨rfl, rfl, rfl, rfl, rfl, rfl, rfl⟩ le_rfl (List.append_nil _).symm (by simp)
  | send hhandle hclock hok =>
    exact used_change hheap hhandle hclock (fun _ _ _ => send_run) hok
  | enqueue hhandle hclock hok =>
    exact used_change hheap hhandle hclock (fun _ _ _ => enqueue_run) hok
  | flush hhandle hclock hok =>
    refine used_change hheap hhandle hclock (fun e e' calls hsound hflush => ?_) hok
    obtain ⟨heffect, hsound', hstate⟩ := flush_effect hsound hflush
    exact ⟨.single heffect trivial, hsound', hstate⟩
  | disconnect hhandle hclock hok => exact disconnect_change hheap hhandle hclock hok
  | poll hpass hevents =>
    exact .still ⟨rfl, rfl, rfl, rfl, rfl, rfl, rfl⟩ le_rfl (List.append_nil _).symm (by simp)
  | clone hhandle =>
    exact .still ⟨rfl, rfl, rfl, rfl, rfl, rfl, rfl⟩ le_rfl (List.append_nil _).symm (by simp)
  | drop hhandle =>
    exact .still ⟨rfl, rfl, rfl, rfl, rfl, rfl, rfl⟩ le_rfl (List.append_nil _).symm (by simp)

end Changes

end ServerRun

end Redpine
