import Redpine.EndpointTotal
import Redpine.ServerTimers
import Redpine.WireTotal

/-! No datagram and no order of calls makes a server fail: every step that the thread of the
server or one of its users may take can be taken. -/
namespace Redpine.ServerRun
open Machine Buffer Wire Endpoint Transition Server ServerCore

/-- The step can be asked for: its thread is there, its user holds the handle, and the clock
has not gone back. -/
def Enabled (s : State) : Action → Prop
  | .frame draws _ _ => s.pass = .idle ∧ s.nowMs ≤ draws.nowMs ∧ draws.nowMs ≤ draws.peerNowMs
  | .beginTimeouts nowMs => s.pass = .idle ∧ s.nowMs ≤ nowMs
  | .testNext => ∃ nowMs remaining, s.pass = .testing nowMs (remaining + 1)
  | .endTests => ∃ nowMs, s.pass = .testing nowMs 0
  | .fireNext nowMs _ => s.pass = .firing ∧ s.timerDataBuffer ≠ [] ∧ s.nowMs ≤ nowMs
  | .endTimeouts => s.pass = .firing ∧ s.timerDataBuffer = []
  | .send peer _ _ nowMs _ => peer ∈ s.handles ∧ s.nowMs ≤ nowMs
  | .enqueue peer _ _ nowMs => peer ∈ s.handles ∧ s.nowMs ≤ nowMs
  | .flush peer nowMs _ => peer ∈ s.handles ∧ s.nowMs ≤ nowMs
  | .disconnect peer nowMs => peer ∈ s.handles ∧ s.nowMs ≤ nowMs
  | .poll => s.pass = .idle ∧ s.core.events ≠ []
  | .clone peer => peer ∈ s.handles
  | .drop peer => peer ∈ s.handles

/-- A datagram fits into the buffer it is received in, no packet is empty, and the clock has
not run for more than a hundred million years. -/
def Allowed : Action → Prop
  | .frame draws frameBytes _ => frameBytes.length ≤ Server.frameSizeMax ∧ draws.peerNowMs < 2 ^ 62
  | .beginTimeouts nowMs => nowMs < 2 ^ 62
  | .fireNext nowMs _ => nowMs < 2 ^ 62
  | .send _ packetBytes _ nowMs _ => packetBytes ≠ [] ∧ nowMs < 2 ^ 62
  | .enqueue _ packetBytes _ nowMs => packetBytes ≠ [] ∧ nowMs < 2 ^ 62
  | .flush _ nowMs _ => nowMs < 2 ^ 62
  | .disconnect _ nowMs => nowMs < 2 ^ 62
  | _ => True

/-- The timer of a peer will be tested, or is about to be handled. -/
def TimerSafe (s : State) (peer : PeerRef) (p : Peer) : Prop :=
  if peer ∈ s.timerDataBuffer then Due p.endpoint s.nowMs else Ready p.endpoint p.core.rtoTimer

/-- What keeps a server from failing. -/
structure Safe (bd : Build) (s : State) : Prop where
  clock_lt : s.nowMs < 2 ^ 62
  priorities : ∃ prioConfig, s.core.config.channelBalance.toPrio bd = .ok prioConfig
  healthy : ∀ (r : PeerRef) (p : Peer), s.core.heap[r]? = some p → p.endpoint.Healthy bd s.nowMs
  timers : ∀ (r : PeerRef) (p : Peer), s.core.heap[r]? = some p → TimerSafe s r p
  handles_lt : ∀ r ∈ s.handles, r < s.core.heap.length
  events_lt : ∀ event ∈ s.core.events, event.peer < s.core.heap.length

section Calls
variable {bd : Build} {core : ServerCore} {peer : PeerRef} {p : Peer} {e : Endpoint}
  {calls : List HostCall} {nowMs : ℕ}

lemma callPeer_total (hp : core.heap[peer]? = some p)
    (call : Endpoint → Exec (Endpoint × List HostCall)) (hcall : ∃ r, call p.endpoint = .ok r) :
    ∃ r, core.callPeer peer call = .ok r := by
  obtain ⟨⟨e, calls⟩, hcall⟩ := hcall
  unfold ServerCore.callPeer
  rw [index_eq_ok.mpr hp, ok_bind, hcall]
  exact ⟨_, rfl⟩

/-- A peer is created for any configuration that the server has accepted. -/
lemma createPeer_total
    (hprio : ∃ prioConfig, core.config.channelBalance.toPrio bd = .ok prioConfig)
    (addr : SocketAddr) : ∃ r, core.createPeer bd addr = .ok r := by
  obtain ⟨prioConfig, hprio⟩ := hprio
  obtain ⟨e, hnew⟩ := new_total ⟨core.config.connectionTimeoutMs, prioConfig⟩
  have hpre := (new_fresh hnew).stateId_eq
  unfold ServerCore.createPeer Peer.new
  rw [hprio, ok_bind, hnew]
  have hp : (core.heap ++ [Peer.mk ⟨addr, none⟩ e])[core.heap.length]? =
      some (Peer.mk ⟨addr, none⟩ e) := by simp
  refine callPeer_total hp _ ?_
  dsimp only
  unfold Endpoint.init
  rw [debugAssert_true hpre]
  exact ⟨_, rfl⟩

lemma withPeer_events_lt (hpeer : peer < core.heap.length)
    (h : ∀ event ∈ core.events, event.peer < core.heap.length) :
    ∀ event ∈ (core.withPeer peer p e calls).1.events, event.peer < core.heap.length := by
  intro event hevent
  rcases List.mem_append.mp hevent with hevent | hevent
  · exact h event hevent
  · obtain ⟨emission, hemission, hsome⟩ := List.mem_filterMap.mp hevent
    obtain ⟨call, -, rfl⟩ := List.mem_map.mp hemission
    cases call <;> cases hsome <;> exact hpeer

end Calls

/-- What becomes of a datagram, with the length of the payload that is delivered. -/
inductive Received (bd : Build) (draws : Draws) (core : ServerCore) (frameBytes : Bytes)
    (addr : SocketAddr) : ServerCore → Prop
  | still : Received bd draws core frameBytes addr core
  | created {prioConfig : Prio.Config} {e : Endpoint}
      (hprio : core.config.channelBalance.toPrio bd = .ok prioConfig)
      (hnew : Endpoint.new ⟨core.config.connectionTimeoutMs, prioConfig⟩ = .ok e) :
      Received bd draws core frameBytes addr (core.withCreated addr e)
  | delivered {frameType : FrameType} {payloadBytes : Bytes} {peer : PeerRef} {p : Peer}
      {e : Endpoint} {calls : List HostCall} (hlen : payloadBytes.length + 5 = frameBytes.length)
      (hp : core.heap[peer]? = some p)
      (hcall : p.endpoint.handleFrame bd draws.nonces frameType payloadBytes draws.peerNowMs =
        .ok (e, calls)) :
      Received bd draws core frameBytes addr (core.withPeer peer p e calls).1

section Frames
variable {bd : Build} {hash : Bytes → U64} {draws : Draws} {core : ServerCore}
  {frameBytes : Bytes} {addr : SocketAddr}

lemma handleHandshakeAlpha_total (bd : Build) (hash : Bytes → U64) (draws : Draws)
    (core : ServerCore) (addr : SocketAddr) (hsize : verifyMinimumSize frameBytes = true) :
    ∃ emissions, core.handleHandshakeAlpha bd hash draws.serverNonce frameBytes addr draws.nowMs =
      .ok (core, emissions) := by
  obtain ⟨frame, hread⟩ := readAlpha_total bd hsize
  unfold ServerCore.handleHandshakeAlpha
  rw [hread, ok_bind]
  cases frame with
  | none => exact ⟨_, rfl⟩
  | some frame =>
    dsimp only
    rw [simpleWrite_eq trivial (by decide) (by decide)]
    exact ⟨_, rfl⟩

lemma acceptBeta_total (draws : Draws) (frameBytes : Bytes) (addr : SocketAddr)
    (hprio : ∃ prioConfig, core.config.channelBalance.toPrio bd = .ok prioConfig)
    (frame : HandshakeBetaFrame) :
    ∃ core' emissions error, core.acceptBeta bd frame addr = .ok (core', emissions, error) ∧
      Received bd draws core frameBytes addr core' := by
  unfold ServerCore.acceptBeta
  by_cases hlookup : (core.peers.lookup addr).isSome = true
  · exact ⟨core, _, _, if_pos hlookup, .still⟩
  rw [if_neg hlookup]
  by_cases hcount : core.config.peerCountMax ≤ core.peers.entries.length
  · exact ⟨core, _, _, if_pos hcount, .still⟩
  rw [if_neg hcount]
  by_cases hparams : (!connectionParamsCompatible frame.clientParams localParams) = true
  · exact ⟨core, _, _, if_pos hparams, .still⟩
  rw [if_neg hparams]
  obtain ⟨⟨core', emissions⟩, hcreate⟩ := createPeer_total hprio addr
  obtain ⟨prioConfig, e, hprio', hnew, rfl, -⟩ := createPeer_spec hcreate
  rw [hcreate]
  exact ⟨_, _, _, rfl, .created hprio' hnew⟩

lemma handleHandshakeBeta_total (hsize : verifyMinimumSize frameBytes = true)
    (hprio : ∃ prioConfig, core.config.channelBalance.toPrio bd = .ok prioConfig) :
    ∃ core' emissions, core.handleHandshakeBeta bd hash frameBytes addr draws.nowMs =
      .ok (core', emissions) ∧ Received bd draws core frameBytes addr core' := by
  obtain ⟨frame, hread⟩ := readBeta_total bd hsize
  unfold ServerCore.handleHandshakeBeta
  rw [hread, ok_bind]
  cases frame with
  | none => exact ⟨core, _, rfl, .still⟩
  | some frame =>
    dsimp only
    by_cases hvalid : (macValid hash frame addr && timestampValid frame draws.nowMs) = true
    · obtain ⟨core', emissions, error, haccept, hreceived⟩ :=
        acceptBeta_total draws frameBytes addr hprio frame
      rw [if_pos hvalid, haccept, ok_bind]
      dsimp only
      rw [simpleWrite_eq trivial (by decide) (by decide)]
      exact ⟨core', _, rfl, hreceived⟩
    · rw [if_neg hvalid]
      exact ⟨core, _, rfl, .still⟩

lemma handleFrameOther_total {frameType : FrameType} (hsize : verifyMinimumSize frameBytes = true)
    (hlen : frameBytes.length ≤ Server.frameSizeMax) (hlt : draws.peerNowMs < 2 ^ 62)
    (hpeers : ∀ peer, core.peers.lookup addr = some peer → ∃ p, core.heap[peer]? = some p ∧
      p.endpoint.Healthy bd draws.peerNowMs) :
    ∃ core' emissions, core.handleFrameOther bd draws.nonces frameType frameBytes addr
        draws.peerNowMs = .ok (core', emissions) ∧
      Received bd draws core frameBytes addr core' := by
  have hmin := le_length_of_verify hsize
  unfold ServerCore.handleFrameOther
  cases hlookup : core.peers.lookup addr with
  | none => exact ⟨core, _, rfl, .still⟩
  | some peer =>
    obtain ⟨p, hp, hhealthy⟩ := hpeers peer hlookup
    have hfour : 4 ≤ frameBytes.length := by omega
    obtain ⟨valid, hvalid⟩ := verifyCrc_total bd hfour
    dsimp only
    rw [hvalid, ok_bind]
    cases valid with
    | false => exact ⟨core, _, rfl, .still⟩
    | true =>
      obtain ⟨payloadBytes, hpayload, hlength⟩ := payload_total bd hsize
      have hfits : payloadBytes.length ≤ EndpointSafety.payloadSizeMax := by
        rw [Server.frameSizeMax] at hlen
        rw [EndpointSafety.payloadSizeMax]
        omega
      obtain ⟨⟨core', emissions⟩, hok⟩ := callPeer_total hp
        (fun e => e.handleFrame bd draws.nonces frameType payloadBytes draws.peerNowMs)
        (hhealthy.handleFrame_total hlt draws.nonces frameType hfits)
      rw [if_pos rfl, hpayload, ok_bind]
      obtain ⟨p', e', calls', hp', hcall', rfl, rfl⟩ := callPeer_eq_ok hok
      exact ⟨_, _, hok, .delivered hlength hp' hcall'⟩

/-- A datagram is handled, whatever it consists of. -/
theorem handleFrame_total (hlen : frameBytes.length ≤ Server.frameSizeMax)
    (hlt : draws.peerNowMs < 2 ^ 62)
    (hprio : ∃ prioConfig, core.config.channelBalance.toPrio bd = .ok prioConfig)
    (hpeers : ∀ peer, core.peers.lookup addr = some peer → ∃ p, core.heap[peer]? = some p ∧
      p.endpoint.Healthy bd draws.peerNowMs) :
    ∃ core' emissions, core.handleFrame bd hash draws frameBytes addr = .ok (core', emissions) ∧
      Received bd draws core frameBytes addr core' := by
  unfold ServerCore.handleFrame
  by_cases hsize : verifyMinimumSize frameBytes = true
  · obtain ⟨frameType, htype⟩ := readType_total bd hsize
    rw [if_pos hsize, htype, ok_bind]
    cases frameType with
    | none => exact ⟨core, _, rfl, .still⟩
    | some frameType =>
      dsimp only [ServerCore.dispatchFrame]
      cases frameType with
      | handshakeAlpha =>
        obtain ⟨emissions, hok⟩ := handleHandshakeAlpha_total bd hash draws core addr hsize
        exact ⟨core, emissions, hok, .still⟩
      | handshakeBeta => exact handleHandshakeBeta_total hsize hprio
      | _ => exact handleFrameOther_total hsize hlen hlt hpeers
  · rw [if_neg hsize]
    exact ⟨core, _, rfl, .still⟩

end Frames

section Returns
variable {bd : Build} {hash : Bytes → U64} {s : State} {a : Action}

/-- A call of a handle returns if the call on its endpoint does. -/
lemma Safe.use_total (h : Safe bd s) {peer : PeerRef} {nowMs : ℕ} (hhandle : peer ∈ s.handles)
    (hclock : s.nowMs ≤ nowMs) (call : Endpoint → Exec (Endpoint × List HostCall))
    (hcall : ∀ e, e.Healthy bd nowMs → ∃ r, call e = .ok r) :
    ∃ core emissions, s.core.callPeer peer call = .ok (core, emissions) := by
  have hp := List.getElem?_eq_getElem (h.handles_lt peer hhandle)
  obtain ⟨⟨core, emissions⟩, hok⟩ :=
    callPeer_total hp call (hcall _ ((h.healthy peer _ hp).later hclock))
  exact ⟨core, emissions, hok⟩

lemma enqueue_total {e : Endpoint} {packetBytes : Bytes} {nowMs : ℕ} (h : e.Healthy bd nowMs)
    (hlt : nowMs < 2 ^ 62) (hne : packetBytes ≠ []) (mode : SendMode) :
    ∃ e', e.enqueue bd packetBytes mode nowMs = .ok e' ∧ e'.Healthy bd nowMs := by
  obtain ⟨e', henqueue⟩ := h.enqueue_total hlt hne mode
  obtain ⟨heffect, -, -⟩ := h.sound.enqueue henqueue
  exact ⟨e', henqueue, h.effect heffect hne hlt⟩

lemma testNext_total (hinv : Inv bd s.core) (nowMs : ℕ) {remaining : ℕ}
    (hlen : remaining + 1 ≤ s.core.timerQueue.queue.length) :
    ∃ core expired, s.core.testNext s.alive nowMs = .ok (core, expired) := by
  unfold ServerCore.testNext
  cases hqueue : s.core.timerQueue.next s.alive with
  | none =>
    exfalso
    unfold TimerQueue.next at hqueue
    cases hlist : s.core.timerQueue.queue with
    | nil => simp [hlist] at hlen
    | cons front rest =>
      rw [hlist] at hqueue
      dsimp only at hqueue
      split_ifs at hqueue
  | some r =>
    obtain ⟨timer, timerQueue⟩ := r
    cases timer with
    | none => exact ⟨_, _, rfl⟩
    | some peer =>
      obtain ⟨-, rest, hfront, -⟩ := TimerQueue.next_some hqueue
      have hpeer := hinv.queue_lt peer (hfront ▸ List.mem_cons_self)
      dsimp only
      rw [index_eq_ok.mpr (List.getElem?_eq_getElem hpeer), ok_bind]
      exact ⟨_, _, rfl⟩

lemma Safe.fireNext_total (h : Safe bd s) {peer : PeerRef} {p : Peer} {nowMs : ℕ}
    (hp : s.core.heap[peer]? = some p) (hmem : peer ∈ s.timerDataBuffer) (hclock : s.nowMs ≤ nowMs)
    (hlt : nowMs < 2 ^ 62) (nonces : ℕ → Bool) :
    ∃ core emissions, s.core.fireNext bd nonces peer nowMs = .ok (core, emissions) := by
  have hdue := h.timers peer p hp
  unfold TimerSafe at hdue
  rw [if_pos hmem] at hdue
  obtain ⟨⟨e, calls, action⟩, hfire⟩ := ((h.healthy peer p hp).later hclock).handleRtoTimer_total
    (hdue.later hclock) hlt nonces
  unfold ServerCore.fireNext
  rw [index_eq_ok.mpr hp, ok_bind, hfire, ok_bind]
  cases action with
  | «continue» => exact ⟨_, _, rfl⟩
  | terminate => exact ⟨_, _, rfl⟩

lemma Inv.found {core : ServerCore} (hinv : Inv bd core) {addr : SocketAddr} {peer : PeerRef}
    (hlookup : core.peers.lookup addr = some peer) : ∃ p, core.heap[peer]? = some p := by
  obtain ⟨p, hp, -⟩ := (hinv.live addr peer).mp hlookup
  exact ⟨p, hp⟩

lemma Safe.frame_total (h : Safe bd s) (hinv : Inv bd s.core) (hash : Bytes → U64)
    {draws : Draws} {frameBytes : Bytes}
    (hclock : s.nowMs ≤ draws.nowMs ∧ draws.nowMs ≤ draws.peerNowMs)
    (hallowed : frameBytes.length ≤ Server.frameSizeMax ∧ draws.peerNowMs < 2 ^ 62)
    (addr : SocketAddr) :
    ∃ core emissions, s.core.handleFrame bd hash draws frameBytes addr = .ok (core, emissions) ∧
      Received bd draws s.core frameBytes addr core := by
  refine handleFrame_total hallowed.1 hallowed.2 h.priorities fun peer hlookup => ?_
  obtain ⟨p, hp⟩ := hinv.found hlookup
  exact ⟨p, hp, (h.healthy peer p hp).later (hclock.1.trans hclock.2)⟩

/-- Whatever can be asked of a safe server is done. -/
theorem Safe.returns (h : Safe bd s) (hinv : Inv bd s.core) (hbuffered : Buffered s)
    (henabled : Enabled s a) (hallowed : Allowed a) : ∃ s', Step bd hash s a s' := by
  cases a with
  | frame draws frameBytes addr =>
    obtain ⟨hpass, hclock⟩ := henabled
    obtain ⟨core, emissions, hok, -⟩ := h.frame_total hinv hash hclock hallowed addr
    exact ⟨_, .frame hpass hclock hok⟩
  | beginTimeouts nowMs => exact ⟨_, .beginTimeouts henabled.1 henabled.2⟩
  | testNext =>
    obtain ⟨nowMs, remaining, hpass⟩ := henabled
    obtain ⟨-, hlen, -⟩ := hbuffered.testing nowMs (remaining + 1) hpass
    obtain ⟨core, expired, hok⟩ := testNext_total hinv nowMs hlen
    exact ⟨_, .testNext hpass hok⟩
  | endTests =>
    obtain ⟨nowMs, hpass⟩ := henabled
    exact ⟨_, .endTests hpass⟩
  | fireNext nowMs nonces =>
    obtain ⟨hpass, hne, hclock⟩ := henabled
    obtain ⟨peer, rest, hbuffer⟩ := List.exists_cons_of_ne_nil hne
    have hmem : peer ∈ s.timerDataBuffer := hbuffer ▸ List.mem_cons_self
    have hp := List.getElem?_eq_getElem (hbuffered.lt peer hmem)
    obtain ⟨core, emissions, hok⟩ := h.fireNext_total hp hmem hclock hallowed nonces
    exact ⟨_, .fireNext hpass hbuffer hclock hok⟩
  | endTimeouts => exact ⟨_, .endTimeouts henabled.1 henabled.2⟩
  | send peer packetBytes mode nowMs nonces =>
    obtain ⟨hhandle, hclock⟩ := henabled
    obtain ⟨core, emissions, hok⟩ := h.use_total hhandle hclock
      (fun e => do
        let e ← e.enqueue bd packetBytes mode nowMs
        e.flush bd nonces nowMs) fun e he => by
      obtain ⟨e', henqueue, he'⟩ := enqueue_total he hallowed.2 hallowed.1 mode
      obtain ⟨r, hflush⟩ := he'.flush_total hallowed.2 nonces
      exact ⟨r, by rw [henqueue, ok_bind, hflush]⟩
    exact ⟨_, .send hhandle hclock hok⟩
  | enqueue peer packetBytes mode nowMs =>
    obtain ⟨hhandle, hclock⟩ := henabled
    obtain ⟨core, emissions, hok⟩ := h.use_total hhandle hclock
      (fun e => do
        let e ← e.enqueue bd packetBytes mode nowMs
        return (e, [])) fun e he => by
      obtain ⟨e', henqueue, -⟩ := enqueue_total he hallowed.2 hallowed.1 mode
      exact ⟨_, by rw [henqueue]; rfl⟩
    exact ⟨_, .enqueue hhandle hclock hok⟩
  | flush peer nowMs nonces =>
    obtain ⟨hhandle, hclock⟩ := henabled
    obtain ⟨core, emissions, hok⟩ := h.use_total hhandle hclock
      (fun e => e.flush bd nonces nowMs) fun e he => he.flush_total hallowed nonces
    exact ⟨_, .flush hhandle hclock hok⟩
  | disconnect peer nowMs =>
    obtain ⟨hhandle, hclock⟩ := henabled
    obtain ⟨core, emissions, hok⟩ := h.use_total hhandle hclock
      (fun e => e.disconnect bd nowMs) fun e he => he.disconnect_total hallowed
    exact ⟨_, .disconnect hhandle hclock hok⟩
  | poll =>
    obtain ⟨event, events, hevents⟩ := List.exists_cons_of_ne_nil henabled.2
    exact ⟨_, .poll henabled.1 hevents⟩
  | clone peer => exact ⟨_, .clone henabled⟩
  | drop peer => exact ⟨_, .drop henabled⟩

end Returns

section Invariant
variable {bd : Build} {hash : Bytes → U64} {s s' : State} {a : Action}

lemma TimerSafe.same {r : PeerRef} {p : Peer} (h : TimerSafe s r p)
    (hmem : r ∈ s'.timerDataBuffer ↔ r ∈ s.timerDataBuffer) (hclock : s.nowMs ≤ s'.nowMs) :
    TimerSafe s' r p := by
  unfold TimerSafe at h ⊢
  by_cases hr : r ∈ s.timerDataBuffer
  · rw [if_pos hr] at h
    rw [if_pos (hmem.mpr hr)]
    exact h.later hclock
  · rw [if_neg hr] at h
    rwa [if_neg (mt hmem.mp hr)]

lemma TimerSafe.of_ready {r : PeerRef} {p : Peer} (hr : r ∉ s.timerDataBuffer)
    (h : Ready p.endpoint p.core.rtoTimer) : TimerSafe s r p := by
  unfold TimerSafe
  rwa [if_neg hr]

lemma TimerSafe.ready {r : PeerRef} {p : Peer} (h : TimerSafe s r p)
    (hr : r ∉ s.timerDataBuffer) : Ready p.endpoint p.core.rtoTimer := by
  unfold TimerSafe at h
  rwa [if_neg hr] at h

lemma initial_priorities (h : Initial bd s) :
    ∃ prioConfig, s.core.config.channelBalance.toPrio bd = .ok prioConfig := by
  obtain ⟨config, hvalidate, rfl⟩ := fresh_of_initial h
  obtain ⟨_, -, hvalidate⟩ := bind_eq_ok.mp hvalidate
  obtain ⟨_, -, hvalidate⟩ := bind_eq_ok.mp hvalidate
  obtain ⟨_, -, hvalidate⟩ := bind_eq_ok.mp hvalidate
  obtain ⟨prioConfig, hprio, -⟩ := bind_eq_ok.mp hvalidate
  exact ⟨prioConfig, hprio⟩

lemma config_of_change (h : Change bd hash s a s') : s'.core.config = s.core.config := by
  cases h with
  | still h => exact h.config_eq
  | _ => rfl

/-- The weights of the channels are those that have been checked when the server was made. -/
lemma priorities_reachable (hs : Reachable (system bd hash) s) :
    ∃ prioConfig, s.core.config.channelBalance.toPrio bd = .ok prioConfig := by
  induction hs using Reachable.induct with
  | init h => exact initial_priorities h
  | step hs hstep ih => rwa [config_of_change (change_of_reachable hs hstep)]

lemma safe_initial (h : Initial bd s) : Safe bd s := by
  have hprio := initial_priorities h
  obtain ⟨config, -, rfl⟩ := fresh_of_initial h
  exact ⟨by norm_num, hprio, by simp, by simp, by simp, by simp⟩

/-- A step that leaves the peers alone. -/
lemma Safe.still (h : Safe bd s) (hheap : s'.core.heap = s.core.heap)
    (hconfig : s'.core.config = s.core.config) (hbuffer : s'.timerDataBuffer = s.timerDataBuffer)
    (hclock : s.nowMs ≤ s'.nowMs) (hlt : s'.nowMs < 2 ^ 62)
    (hhandles : ∀ r ∈ s'.handles, r ∈ s.handles ∨ ∃ event ∈ s.core.events, event.peer = r)
    (hevents : ∀ event ∈ s'.core.events, event ∈ s.core.events) : Safe bd s' := by
  refine ⟨hlt, hconfig ▸ h.priorities, fun r p hp => ?_, fun r p hp => ?_, fun r hr => ?_,
    fun event hevent => ?_⟩
  · exact (h.healthy r p (hheap ▸ hp)).later hclock
  · exact (h.timers r p (hheap ▸ hp)).same (by rw [hbuffer]) hclock
  · rw [hheap]
    rcases hhandles r hr with hr | ⟨event, hevent, rfl⟩
    · exact h.handles_lt r hr
    · exact h.events_lt event hevent
  · rw [hheap]
    exact h.events_lt event (hevents event hevent)

/-- A step that concerns one peer. -/
lemma Safe.set (h : Safe bd s) {peer : PeerRef} {p' : Peer}
    (hheap : s'.core.heap = s.core.heap.set peer p') (hconfig : s'.core.config = s.core.config)
    (hclock : s.nowMs ≤ s'.nowMs) (hlt : s'.nowMs < 2 ^ 62)
    (hhealthy : p'.endpoint.Healthy bd s'.nowMs) (htimer : TimerSafe s' peer p')
    (hbuffer : ∀ r, r ≠ peer → (r ∈ s'.timerDataBuffer ↔ r ∈ s.timerDataBuffer))
    (hhandles : s'.handles = s.handles)
    (hevents : ∀ event ∈ s'.core.events, event.peer < s.core.heap.length) : Safe bd s' := by
  refine ⟨hlt, hconfig ▸ h.priorities, ?_, ?_, fun r hr => ?_, fun event hevent => ?_⟩
  · rw [hheap]
    exact forall_set (fun r q _ hq => (h.healthy r q hq).later hclock) hhealthy
  · rw [hheap]
    exact forall_set (fun r q hr hq => (h.timers r q hq).same (hbuffer r hr) hclock) htimer
  · rw [hheap, List.length_set]
    exact h.handles_lt r (hhandles ▸ hr)
  · rw [hheap, List.length_set]
    exact hevents event hevent

/-- What a call of a user does to an endpoint. -/
structure UserSafe (bd : Build) (nowMs : ℕ) (e e' : Endpoint) (calls : List HostCall) : Prop where
  healthy : e'.Healthy bd nowMs
  ready : ∀ timer, Ready e timer → Ready e' (EndpointHost.timerCalls timer calls)
  due : ∀ timeMs, Due e timeMs → Due e' timeMs

lemma UserSafe.of_effect {e e' : Endpoint} {nowMs : ℕ} {input : Input} {calls : List HostCall}
    (h : e.Healthy bd nowMs) (hs : Effect bd nowMs e input calls e') (hinput : IsUserInput input)
    (hallowed : EndpointSafety.Allowed input) (hlt : nowMs < 2 ^ 62) :
    UserSafe bd nowMs e e' calls := by
  refine ⟨h.effect hs hallowed hlt, fun timer hready => ?_, fun timeMs hdue => ?_⟩
  · exact hready.effect hs h.sound hinput.ne.1 hinput.ne.2
  · refine hdue.requested hs h.sound hinput.ne.1 ?_ hinput.ne.2
    rintro frameType payloadBytes rfl
    exact hinput

lemma UserSafe.trans {e e₁ e' : Endpoint} {nowMs : ℕ} {calls calls' : List HostCall}
    (h : UserSafe bd nowMs e e₁ calls) (h' : UserSafe bd nowMs e₁ e' calls') :
    UserSafe bd nowMs e e' (calls ++ calls') := by
  refine ⟨h'.healthy, fun timer hready => ?_, fun timeMs hdue => h'.due _ (h.due _ hdue)⟩
  rw [EndpointHost.timerCalls_append]
  exact h'.ready _ (h.ready _ hready)

lemma UserSafe.enqueue {e e' : Endpoint} {nowMs : ℕ} {packetBytes : Bytes} {mode : SendMode}
    (h : e.Healthy bd nowMs) (hne : packetBytes ≠ []) (hlt : nowMs < 2 ^ 62)
    (hok : e.enqueue bd packetBytes mode nowMs = .ok e') : UserSafe bd nowMs e e' [] :=
  .of_effect h (h.sound.enqueue hok).1 trivial hne hlt

lemma UserSafe.flush {e e' : Endpoint} {nowMs : ℕ} {nonces : ℕ → Bool} {calls : List HostCall}
    (h : e.Healthy bd nowMs) (hlt : nowMs < 2 ^ 62)
    (hok : e.flush bd nonces nowMs = .ok (e', calls)) : UserSafe bd nowMs e e' calls :=
  .of_effect h (flush_effect h.sound hok).1 trivial trivial hlt

/-- A user calls a peer. -/
lemma Safe.used (h : Safe bd s) {peer : PeerRef} {nowMs : ℕ} {core : ServerCore}
    {emissions more : List Emission} {disconnected : List PeerRef}
    {call : Endpoint → Exec (Endpoint × List HostCall)} (hclock : s.nowMs ≤ nowMs)
    (hlt : nowMs < 2 ^ 62) (hcall : ∀ e e' calls, e.Healthy bd nowMs → call e = .ok (e', calls) →
      UserSafe bd nowMs e e' calls)
    (hok : s.core.callPeer peer call = .ok (core, emissions)) :
    Safe bd { s with
      core := core, nowMs := nowMs, emitted := more, disconnected := disconnected } := by
  obtain ⟨p, e, calls, hp, hend, rfl, rfl⟩ := callPeer_eq_ok hok
  have hsafe := hcall _ _ _ ((h.healthy peer p hp).later hclock) hend
  refine h.set rfl rfl hclock hlt hsafe.healthy ?_ (fun r hr => Iff.rfl) rfl
    (withPeer_events_lt (lt_of_getElem? hp) h.events_lt)
  have htimer := h.timers peer p hp
  unfold TimerSafe at htimer ⊢
  dsimp only
  by_cases hmem : peer ∈ s.timerDataBuffer
  · rw [if_pos hmem] at htimer ⊢
    exact (hsafe.due _ htimer).later hclock
  · rw [if_neg hmem] at htimer ⊢
    rw [foldl_hostCall_rtoTimer]
    exact hsafe.ready _ htimer

/-- A datagram is received between two calls of `handle_timeouts`. -/
lemma Safe.received (h : Safe bd s) (hbuffer : s.timerDataBuffer = []) {draws : Draws}
    {frameBytes : Bytes} {addr : SocketAddr} {core : ServerCore} {emitted : List Emission}
    {hashed : List Bytes} {created : List Creation} (hclock : s.nowMs ≤ draws.peerNowMs)
    (hallowed : frameBytes.length ≤ Server.frameSizeMax ∧ draws.peerNowMs < 2 ^ 62)
    (hreceived : Received bd draws s.core frameBytes addr core) :
    Safe bd { s with
      core := core
      nowMs := draws.peerNowMs
      emitted := emitted
      hashed := hashed
      created := created } := by
  obtain ⟨hlen, hlt⟩ := hallowed
  cases hreceived with
  | still => exact h.still rfl rfl rfl hclock hlt (fun r hr => .inl hr) fun event hevent => hevent
  | @created prioConfig e hprio hnew =>
    have haccepted : Endpoint.Config.Accepted bd
        ⟨s.core.config.connectionTimeoutMs, prioConfig⟩ := ⟨_, _, hprio⟩
    have hhealthy := (new_healthy haccepted hnew draws.peerNowMs).activated
    have hready : Ready { e with stateId := .active } none := .of_active rfl (by
      rw [(new_fresh hnew).rtoTimerState_eq]
      exact inStep_none)
    refine ⟨hlt, h.priorities, forall_append (fun r q hq => (h.healthy r q hq).later hclock)
      hhealthy, forall_append (fun r q hq => (h.timers r q hq).same Iff.rfl hclock) ?_,
      fun r hr => ?_, fun event hevent => ?_⟩
    · exact .of_ready (by simp [hbuffer]) hready
    · simp only [withCreated, List.length_append, List.length_singleton]
      exact Nat.lt_succ_of_lt (h.handles_lt r hr)
    · simp only [withCreated, List.length_append, List.length_singleton]
      rcases List.mem_append.mp hevent with hevent | hevent
      · exact Nat.lt_succ_of_lt (h.events_lt event hevent)
      · rw [List.mem_singleton.mp hevent]
        exact Nat.lt_succ_self _
  | @delivered frameType payloadBytes peer p e calls hlength hp hcall =>
    have hhealthy := (h.healthy peer p hp).later hclock
    have hperform : p.endpoint.perform bd draws.nonces (.frame frameType payloadBytes)
        draws.peerNowMs = .ok (e, calls) := hcall
    have heffect := (hhealthy.sound.perform hperform).1
    have hfits : EndpointSafety.Allowed (.frame frameType payloadBytes) := by
      rw [Server.frameSizeMax] at hlen
      unfold EndpointSafety.Allowed EndpointSafety.payloadSizeMax
      omega
    have hnot : peer ∉ s.timerDataBuffer := by simp [hbuffer]
    have hready :=
      ((h.timers peer p hp).ready hnot).effect heffect hhealthy.sound (by simp) (by simp)
    refine h.set rfl rfl hclock hlt (hhealthy.effect heffect hfits hlt) (.of_ready hnot ?_)
      (fun r _ => Iff.rfl) rfl (withPeer_events_lt (lt_of_getElem? hp) h.events_lt)
    rwa [foldl_hostCall_rtoTimer]

/-- The timer of a peer is tested; where it has expired, it is put aside. -/
lemma Safe.tested (h : Safe bd s) (hbuffered : Buffered s) {nowMs remaining : ℕ}
    {core : ServerCore} {expired : Option PeerRef}
    (hpass : s.pass = .testing nowMs (remaining + 1))
    (hok : s.core.testNext s.alive nowMs = .ok (core, expired)) :
    Safe bd { s with
      core := core
      pass := .testing nowMs remaining
      timerDataBuffer := s.timerDataBuffer ++ expired.toList } := by
  have hle := (hbuffered.testing nowMs (remaining + 1) hpass).1
  obtain ⟨timerQueue, ⟨hqueue, rfl, rfl⟩ | ⟨peer, p, hqueue, hp, rfl, rfl⟩⟩ := testNext_cases hok
  · exact h.still rfl rfl (by simp) le_rfl h.clock_lt (fun r hr => .inl hr) fun _ hevent => hevent
  · have hnot := hbuffered.fresh hpass hqueue
    have hready := (h.timers peer p hp).ready hnot
    have hhealthy := h.healthy peer p hp
    have hother : ∀ r, r ≠ peer → (r ∈ s.timerDataBuffer ++
        (if (p.test nowMs).2 then some peer else none).toList ↔ r ∈ s.timerDataBuffer) := by
      intro r hr
      split_ifs <;> simp [hr]
    refine h.set rfl rfl le_rfl h.clock_lt (test_endpoint p nowMs ▸ hhealthy) ?_ hother rfl
      h.events_lt
    rcases test_cases p nowMs with htest | ⟨timeMs, htimer, hlt, htest⟩
    · rw [htest]
      exact .of_ready (by simpa using hnot) hready
    · rw [htest]
      rw [htimer] at hready
      unfold TimerSafe
      rw [if_pos (by simp)]
      exact hready.due (hlt.le.trans hle)

/-- The timer of a peer is handled. -/
lemma Safe.fired (h : Safe bd s) (hbuffered : Buffered s) {peer : PeerRef} {rest : List PeerRef}
    {nowMs : ℕ} {nonces : ℕ → Bool} {core : ServerCore} {emissions : List Emission}
    (hbuffer : s.timerDataBuffer = peer :: rest) (hclock : s.nowMs ≤ nowMs) (hlt : nowMs < 2 ^ 62)
    (hok : s.core.fireNext bd nonces peer nowMs = .ok (core, emissions)) :
    Safe bd { s with
      core := core
      timerDataBuffer := rest
      nowMs := nowMs
      emitted := s.emitted ++ emissions } := by
  obtain ⟨p, hp, hok⟩ := bind_eq_ok.mp hok
  obtain ⟨⟨e, calls, action⟩, hcall, hok⟩ := bind_eq_ok.mp hok
  have hp := index_eq_ok.mp hp
  have hhealthy := (h.healthy peer p hp).later hclock
  obtain ⟨heffect, -, -⟩ := hhealthy.sound.handleRtoTimer hcall
  have hdue : Due p.endpoint s.nowMs := by
    have htimer := h.timers peer p hp
    unfold TimerSafe at htimer
    rwa [if_pos (hbuffer ▸ List.mem_cons_self)] at htimer
  have hready := (hdue.later hclock).fired heffect hlt p.core.rtoTimer
  have hnot : peer ∉ rest := (List.nodup_cons.mp (hbuffer ▸ hbuffered.nodup)).1
  have hother : ∀ r, r ≠ peer → (r ∈ rest ↔ r ∈ s.timerDataBuffer) := by
    intro r hr
    simp [hbuffer, hr]
  have hevents : ∀ event ∈ (s.core.withPeer peer p e calls).1.events,
      event.peer < s.core.heap.length := withPeer_events_lt (lt_of_getElem? hp) h.events_lt
  rw [← foldl_hostCall_rtoTimer] at hready
  cases action with
  | «continue» =>
    cases hok
    exact h.set rfl rfl hclock hlt (hhealthy.effect heffect trivial hlt) (.of_ready hnot hready)
      hother rfl hevents
  | terminate =>
    cases hok
    exact h.set rfl rfl hclock hlt (hhealthy.effect heffect trivial hlt) (.of_ready hnot hready)
      hother rfl hevents

/-- A step that may be taken keeps a server safe. -/
theorem Safe.step (h : Safe bd s) (hinv : Inv bd s.core) (hbuffered : Buffered s)
    (hstep : Step bd hash s a s') (hallowed : Allowed a) : Safe bd s' := by
  cases hstep with
  | @frame draws frameBytes addr core emissions hpass hclock hok =>
    obtain ⟨core', emissions', hok', hreceived⟩ :=
      h.frame_total hinv hash hclock hallowed addr
    cases hok.symm.trans hok'
    exact h.received (hbuffered.idle hpass) (hclock.1.trans hclock.2) hallowed hreceived
  | beginTimeouts hpass hclock =>
    exact h.still rfl rfl rfl hclock hallowed (fun r hr => .inl hr) fun _ hevent => hevent
  | testNext hpass hok => exact h.tested hbuffered hpass hok
  | endTests hpass =>
    exact h.still rfl rfl rfl le_rfl h.clock_lt (fun r hr => .inl hr) fun _ hevent => hevent
  | fireNext hpass hbuffer hclock hok => exact h.fired hbuffered hbuffer hclock hallowed hok
  | endTimeouts hpass hbuffer =>
    exact h.still rfl rfl rfl le_rfl h.clock_lt (fun r hr => .inl hr) fun _ hevent => hevent
  | send hhandle hclock hok =>
    obtain ⟨hne, hlt⟩ := hallowed
    refine h.used hclock hlt (fun e e' calls he hcall => ?_) hok
    obtain ⟨e₁, henqueue, hflush⟩ := bind_eq_ok.mp hcall
    have hfirst := UserSafe.enqueue he hne hlt henqueue
    exact hfirst.trans (.flush hfirst.healthy hlt hflush)
  | enqueue hhandle hclock hok =>
    obtain ⟨hne, hlt⟩ := hallowed
    refine h.used hclock hlt (fun e e' calls he hcall => ?_) hok
    obtain ⟨e₁, henqueue, hcall⟩ := bind_eq_ok.mp hcall
    cases hcall
    exact .enqueue he hne hlt henqueue
  | flush hhandle hclock hok =>
    exact h.used hclock hallowed (fun e e' calls he hcall => .flush he hallowed hcall) hok
  | @disconnect peer nowMs core emissions hhandle hclock hok =>
    refine h.used hclock hallowed (fun e e' calls he hcall => ?_) hok
    have hperform : e.perform bd (fun _ => false) .disconnect nowMs = .ok (e', calls) := hcall
    exact .of_effect he (he.sound.perform hperform).1 trivial trivial hallowed
  | @poll event events hpass hevents =>
    refine h.still rfl rfl rfl le_rfl h.clock_lt (fun r hr => ?_) fun event' hevent => ?_
    · rcases List.mem_append.mp hr with hr | hr
      · exact .inl hr
      · exact .inr ⟨event, hevents ▸ List.mem_cons_self, (List.mem_singleton.mp hr).symm⟩
    · exact hevents ▸ List.mem_cons_of_mem _ hevent
  | clone hhandle =>
    refine h.still rfl rfl rfl le_rfl h.clock_lt (fun r hr => .inl ?_) fun _ hevent => hevent
    rcases List.mem_append.mp hr with hr | hr
    · exact hr
    · exact List.mem_singleton.mp hr ▸ hhandle
  | drop hhandle =>
    exact h.still rfl rfl rfl le_rfl h.clock_lt (fun r hr => .inl (List.mem_of_mem_erase hr))
      fun _ hevent => hevent

lemma safe_of_run {past : List (State × Action)} (run : Run (system bd hash) past s)
    (h : ∀ q ∈ past, Allowed q.2) : Safe bd s := by
  induction run with
  | init hinit => exact safe_initial hinit
  | @step past s s' a run hstep ih =>
    have hs : Reachable (system bd hash) s := ⟨past, run⟩
    refine (ih fun q hq => h q (List.mem_append_left _ hq)).step (inv_reachable hs)
      (buffered_reachable hs) hstep ?_
    exact h (s, a) (List.mem_append_right _ (List.mem_singleton_self _))

/-- In any run, whatever the datagrams and whatever the order in which the users of the server
call it, the next step returns: no panic, no failed assertion, no overflow, no access out of
range and no loop that outruns its bound. -/
theorem server_returns {past : List (State × Action)} (run : Run (system bd hash) past s)
    (h : ∀ q ∈ past, Allowed q.2) (henabled : Enabled s a) (hallowed : Allowed a) :
    ∃ s', Step bd hash s a s' :=
  (safe_of_run run h).returns (inv_reachable ⟨past, run⟩) (buffered_reachable ⟨past, run⟩)
    henabled hallowed

end Invariant

section Sample

lemma sampleExpired_allowed : ∀ a ∈ sampleExpired, Allowed a := by
  have halpha : (paddedAlpha ⟨protocolId, 7⟩ 1472).length ≤ Server.frameSizeMax :=
    (paddedAlpha_length _ (by norm_num)).le
  have hbeta : ∀ obj : HandshakeBetaFrame, (frameOf .handshakeBeta
      (LawfulBlock.encode obj)).length ≤ Server.frameSizeMax := by
    intro obj
    rw [frameOf_length, LawfulBlock.encode_length]
    decide
  simp only [sampleExpired, sampleTimeouts, List.cons_append, List.nil_append, List.forall_mem_cons]
  refine ⟨⟨halpha, by norm_num⟩, ⟨hbeta _, by norm_num⟩, trivial, ⟨by simp, by norm_num⟩, ?_,
    trivial, trivial, by simp⟩
  change 1301 < 2 ^ 62
  norm_num

/-- A peer whose packet has not been acknowledged in time: its timer is handled. -/
theorem server_returns_timer : ∃ past s s', Run (system .debug sampleHash) past s ∧
    (∀ q ∈ past, Allowed q.2) ∧ s.timerDataBuffer = [0] ∧
    Step .debug sampleHash s (.fireNext 1301 fun _ => false) s' := by
  have hrun : ((sampleStart default).bind fun s =>
      (replay (next .debug sampleHash) s sampleExpired).map fun s =>
        (s.timerDataBuffer, s.pass, s.nowMs)) = some ([0], .firing, 1301) := by decide +kernel
  obtain ⟨s₀, hstart, hrun⟩ := Option.bind_eq_some_iff.mp hrun
  obtain ⟨s, hreplay, hsame⟩ := Option.map_eq_some_iff.mp hrun
  simp only [Prod.mk.injEq] at hsame
  obtain ⟨hbuffer, hpass, hclock⟩ := hsame
  have run₀ : Run (system .debug sampleHash) [] s₀ := .init (sampleStart_initial hstart)
  obtain ⟨past, run, hactions⟩ := replay_run (fun _ _ _ => next_step) run₀ hreplay
  have hallowed : ∀ q ∈ [] ++ past, Allowed q.2 := by
    intro q hq
    exact sampleExpired_allowed q.2 (hactions ▸ List.mem_map_of_mem hq)
  obtain ⟨s', hstep⟩ := server_returns run hallowed (a := .fireNext 1301 fun _ => false)
    ⟨hpass, by simp [hbuffer], hclock.le⟩ (show 1301 < 2 ^ 62 by norm_num)
  exact ⟨past, s, s', run, hallowed, hbuffer, hstep⟩

end Sample

end Redpine.ServerRun
