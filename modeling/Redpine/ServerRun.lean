import Redpine.Server
import Redpine.Transition

/-! The runs of a server. One thread handles frames and timeouts, and any others call the
handles of peers. A step is what happens under the lock of one peer: the two passes of
`handle_timeouts` take one step for each peer, and the handles may be used in between. -/
namespace Redpine.ServerRun
open Machine Wire Transition Server

/-- Where the thread of the server is within `handle_timeouts`. -/
inductive Pass
  | idle
  | testing (nowMs remaining : ℕ)
  | firing
  deriving DecidableEq

/-- A request that was granted, and the time at which it was. -/
structure Creation where
  addr : SocketAddr
  frame : HandshakeBetaFrame
  nowMs : ℕ
  deriving DecidableEq

/-- The core, the position of its thread, and the handles that the users of the server hold.
The clock, what has been taken from the event queue, what has left the server, what has been
hashed, which peers have been disconnected while active, and which requests have been granted,
are recorded. -/
structure State where
  core : ServerCore
  pass : Pass
  timerDataBuffer : List PeerRef
  handles : List PeerRef
  nowMs : ℕ
  polled : List Event
  emitted : List Emission
  hashed : List Bytes
  disconnected : List PeerRef
  created : List Creation

inductive Action
  | frame (draws : ServerCore.Draws) (frameBytes : Bytes) (senderAddr : SocketAddr)
  | beginTimeouts (nowMs : ℕ)
  | testNext
  | endTests
  | fireNext (nowMs : ℕ) (nonces : ℕ → Bool)
  | endTimeouts
  | send (peer : PeerRef) (packetBytes : Bytes) (mode : SendMode) (nowMs : ℕ)
      (nonces : ℕ → Bool)
  | enqueue (peer : PeerRef) (packetBytes : Bytes) (mode : SendMode) (nowMs : ℕ)
  | flush (peer : PeerRef) (nowMs : ℕ) (nonces : ℕ → Bool)
  | disconnect (peer : PeerRef) (nowMs : ℕ)
  | poll
  | clone (peer : PeerRef)
  | drop (peer : PeerRef)

/-- Some strong reference to the peer exists. -/
def State.alive (s : State) (peer : PeerRef) : Bool :=
  s.core.peers.entries.any (·.2 == peer) || s.timerDataBuffer.contains peer ||
    s.handles.contains peer || s.core.events.any (·.peer == peer)

/-- What the hash function is fed when a frame is handled. -/
def hashedBy (bd : Build) (draws : ServerCore.Draws) (frameBytes : Bytes)
    (senderAddr : SocketAddr) : List Bytes :=
  match readType bd frameBytes with
  | .ok (some .handshakeAlpha) =>
      match ServerCore.readAlpha bd frameBytes with
      | .ok (some frame) =>
          [HandshakeMacHasher.input senderAddr frame.clientNonce draws.serverNonce
            (ServerCore.timestamp draws.nowMs)]
      | _ => []
  | .ok (some .handshakeBeta) =>
      match ServerCore.readBeta bd frameBytes with
      | .ok (some frame) =>
          [HandshakeMacHasher.input senderAddr frame.clientNonce frame.serverNonce
            frame.serverTimestamp]
      | _ => []
  | _ => []

/-- The request that a frame which has led to a new peer contained. -/
def createdBy (bd : Build) (core core' : ServerCore) (draws : ServerCore.Draws)
    (frameBytes : Bytes) (senderAddr : SocketAddr) : List Creation :=
  if core.heap.length < core'.heap.length then
    match ServerCore.readBeta bd frameBytes with
    | .ok (some frame) => [⟨senderAddr, frame, draws.nowMs⟩]
    | _ => []
  else []

/-- The endpoint of the peer is active. -/
def isActive (core : ServerCore) (peer : PeerRef) : Bool :=
  match core.heap[peer]? with
  | some p => decide (p.endpoint.stateId = .active)
  | none => false

def Initial (bd : Build) (s : State) : Prop :=
  ∃ config core, ServerCore.bindWithConfig bd config = .ok core ∧
    s = ⟨core, .idle, [], [], 0, [], [], [], [], []⟩

inductive Step (bd : Build) (hash : Bytes → U64) : State → Action → State → Prop
  | frame {s : State} {draws : ServerCore.Draws} {frameBytes : Bytes} {senderAddr : SocketAddr}
      {core : ServerCore} {emissions : List Emission} (hpass : s.pass = .idle)
      (hclock : s.nowMs ≤ draws.nowMs ∧ draws.nowMs ≤ draws.peerNowMs)
      (h : s.core.handleFrame bd hash draws frameBytes senderAddr = .ok (core, emissions)) :
      Step bd hash s (.frame draws frameBytes senderAddr)
        { s with
          core := core
          nowMs := draws.peerNowMs
          emitted := s.emitted ++ emissions
          hashed := s.hashed ++ hashedBy bd draws frameBytes senderAddr
          created := s.created ++ createdBy bd s.core core draws frameBytes senderAddr }
  | beginTimeouts {s : State} {nowMs : ℕ} (hpass : s.pass = .idle) (hclock : s.nowMs ≤ nowMs) :
      Step bd hash s (.beginTimeouts nowMs)
        { s with
          pass := .testing nowMs (min timerTestLimit s.core.timerQueue.len)
          nowMs := nowMs }
  | testNext {s : State} {nowMs remaining : ℕ} {core : ServerCore} {expired : Option PeerRef}
      (hpass : s.pass = .testing nowMs (remaining + 1))
      (h : s.core.testNext s.alive nowMs = .ok (core, expired)) :
      Step bd hash s .testNext
        { s with
          core := core
          pass := .testing nowMs remaining
          timerDataBuffer := s.timerDataBuffer ++ expired.toList }
  | endTests {s : State} {nowMs : ℕ} (hpass : s.pass = .testing nowMs 0) :
      Step bd hash s .endTests { s with pass := .firing }
  | fireNext {s : State} {peer : PeerRef} {rest : List PeerRef} {nowMs : ℕ} {nonces : ℕ → Bool}
      {core : ServerCore} {emissions : List Emission} (hpass : s.pass = .firing)
      (hbuffer : s.timerDataBuffer = peer :: rest) (hclock : s.nowMs ≤ nowMs)
      (h : s.core.fireNext bd nonces peer nowMs = .ok (core, emissions)) :
      Step bd hash s (.fireNext nowMs nonces)
        { s with
          core := core
          timerDataBuffer := rest
          nowMs := nowMs
          emitted := s.emitted ++ emissions }
  | endTimeouts {s : State} (hpass : s.pass = .firing) (hbuffer : s.timerDataBuffer = []) :
      Step bd hash s .endTimeouts { s with pass := .idle }
  | send {s : State} {peer : PeerRef} {packetBytes : Bytes} {mode : SendMode} {nowMs : ℕ}
      {nonces : ℕ → Bool} {core : ServerCore} {emissions : List Emission}
      (hhandle : peer ∈ s.handles) (hclock : s.nowMs ≤ nowMs)
      (h : s.core.peerSend bd nonces peer packetBytes mode nowMs = .ok (core, emissions)) :
      Step bd hash s (.send peer packetBytes mode nowMs nonces)
        { s with core := core, nowMs := nowMs, emitted := s.emitted ++ emissions }
  | enqueue {s : State} {peer : PeerRef} {packetBytes : Bytes} {mode : SendMode} {nowMs : ℕ}
      {core : ServerCore} {emissions : List Emission}
      (hhandle : peer ∈ s.handles) (hclock : s.nowMs ≤ nowMs)
      (h : s.core.peerEnqueue bd peer packetBytes mode nowMs = .ok (core, emissions)) :
      Step bd hash s (.enqueue peer packetBytes mode nowMs)
        { s with core := core, nowMs := nowMs, emitted := s.emitted ++ emissions }
  | flush {s : State} {peer : PeerRef} {nowMs : ℕ} {nonces : ℕ → Bool} {core : ServerCore}
      {emissions : List Emission} (hhandle : peer ∈ s.handles) (hclock : s.nowMs ≤ nowMs)
      (h : s.core.peerFlush bd nonces peer nowMs = .ok (core, emissions)) :
      Step bd hash s (.flush peer nowMs nonces)
        { s with core := core, nowMs := nowMs, emitted := s.emitted ++ emissions }
  | disconnect {s : State} {peer : PeerRef} {nowMs : ℕ} {core : ServerCore}
      {emissions : List Emission} (hhandle : peer ∈ s.handles) (hclock : s.nowMs ≤ nowMs)
      (h : s.core.peerDisconnect bd peer nowMs = .ok (core, emissions)) :
      Step bd hash s (.disconnect peer nowMs)
        { s with
          core := core
          nowMs := nowMs
          emitted := s.emitted ++ emissions
          disconnected :=
            if isActive s.core peer then s.disconnected ++ [peer] else s.disconnected }
  | poll {s : State} {event : Event} {events : List Event} (hpass : s.pass = .idle)
      (hevents : s.core.events = event :: events) :
      Step bd hash s .poll
        { s with
          core := { s.core with events := events }
          handles := s.handles ++ [event.peer]
          polled := s.polled ++ [event] }
  | clone {s : State} {peer : PeerRef} (hhandle : peer ∈ s.handles) :
      Step bd hash s (.clone peer) { s with handles := s.handles ++ [peer] }
  | drop {s : State} {peer : PeerRef} (hhandle : peer ∈ s.handles) :
      Step bd hash s (.drop peer) { s with handles := s.handles.erase peer }

def system (bd : Build) (hash : Bytes → U64) : System State Action :=
  ⟨Initial bd, Step bd hash⟩

/-- A server starts with checked settings, and with nothing else. -/
lemma fresh_of_initial {bd : Build} {s : State} (h : Initial bd s) :
    ∃ config, config.validate bd = .ok () ∧
      s = ⟨⟨config, [], ∅, .new, []⟩, .idle, [], [], 0, [], [], [], [], []⟩ := by
  obtain ⟨config, core, hbind, rfl⟩ := h
  obtain ⟨_, hvalidate, hbind⟩ := bind_eq_ok.mp hbind
  cases hbind
  exact ⟨config, hvalidate, rfl⟩

/-- The state after a call that the user or the thread makes at a time. -/
def State.after (s : State) (nowMs : ℕ) : Exec (ServerCore × List Emission) → Option State
  | .ok (core, emissions) =>
      some { s with core := core, nowMs := nowMs, emitted := s.emitted ++ emissions }
  | .error _ => none

/-- The state after a call of a handle that the user holds. -/
def State.use (s : State) (peer : PeerRef) (nowMs : ℕ)
    (result : Exec (ServerCore × List Emission)) : Option State :=
  if peer ∈ s.handles ∧ s.nowMs ≤ nowMs then s.after nowMs result else none

/-- The step that an action leads to, if it can be taken and returns. -/
def next (bd : Build) (hash : Bytes → U64) (s : State) : Action → Option State
  | .frame draws frameBytes addr =>
      if s.pass = .idle ∧ s.nowMs ≤ draws.nowMs ∧ draws.nowMs ≤ draws.peerNowMs then
        (s.after draws.peerNowMs (s.core.handleFrame bd hash draws frameBytes addr)).map fun s' =>
          { s' with
            hashed := s.hashed ++ hashedBy bd draws frameBytes addr
            created := s.created ++ createdBy bd s.core s'.core draws frameBytes addr }
      else none
  | .beginTimeouts nowMs =>
      if s.pass = .idle ∧ s.nowMs ≤ nowMs then
        some { s with
          pass := .testing nowMs (min timerTestLimit s.core.timerQueue.len)
          nowMs := nowMs }
      else none
  | .testNext =>
      match s.pass with
      | .testing nowMs (remaining + 1) =>
          match s.core.testNext s.alive nowMs with
          | .ok (core, expired) =>
              some { s with
                core := core
                pass := .testing nowMs remaining
                timerDataBuffer := s.timerDataBuffer ++ expired.toList }
          | .error _ => none
      | _ => none
  | .endTests =>
      match s.pass with
      | .testing _ 0 => some { s with pass := .firing }
      | _ => none
  | .fireNext nowMs nonces =>
      match s.timerDataBuffer with
      | peer :: rest =>
          if s.pass = .firing ∧ s.nowMs ≤ nowMs then
            (s.after nowMs (s.core.fireNext bd nonces peer nowMs)).map fun s' =>
              { s' with timerDataBuffer := rest }
          else none
      | [] => none
  | .endTimeouts =>
      if s.pass = .firing ∧ s.timerDataBuffer = [] then some { s with pass := .idle } else none
  | .send peer packetBytes mode nowMs nonces =>
      s.use peer nowMs (s.core.peerSend bd nonces peer packetBytes mode nowMs)
  | .enqueue peer packetBytes mode nowMs =>
      s.use peer nowMs (s.core.peerEnqueue bd peer packetBytes mode nowMs)
  | .flush peer nowMs nonces => s.use peer nowMs (s.core.peerFlush bd nonces peer nowMs)
  | .disconnect peer nowMs =>
      (s.use peer nowMs (s.core.peerDisconnect bd peer nowMs)).map fun s' =>
        { s' with
          disconnected :=
            if isActive s.core peer then s.disconnected ++ [peer] else s.disconnected }
  | .poll =>
      match s.core.events with
      | event :: events =>
          if s.pass = .idle then
            some { s with
              core := { s.core with events := events }
              handles := s.handles ++ [event.peer]
              polled := s.polled ++ [event] }
          else none
      | [] => none
  | .clone peer =>
      if peer ∈ s.handles then some { s with handles := s.handles ++ [peer] } else none
  | .drop peer =>
      if peer ∈ s.handles then some { s with handles := s.handles.erase peer } else none

section Next
variable {bd : Build} {hash : Bytes → U64} {s s' : State} {a : Action}

lemma after_eq_some {nowMs : ℕ} {result : Exec (ServerCore × List Emission)}
    (h : s.after nowMs result = some s') : ∃ core emissions, result = .ok (core, emissions) ∧
      s' = { s with core := core, nowMs := nowMs, emitted := s.emitted ++ emissions } := by
  cases result with
  | error e => cases h
  | ok r =>
    cases h
    exact ⟨r.1, r.2, rfl, rfl⟩

lemma use_eq_some {peer : PeerRef} {nowMs : ℕ} {result : Exec (ServerCore × List Emission)}
    (h : s.use peer nowMs result = some s') : peer ∈ s.handles ∧ s.nowMs ≤ nowMs ∧
      ∃ core emissions, result = .ok (core, emissions) ∧
        s' = { s with core := core, nowMs := nowMs, emitted := s.emitted ++ emissions } := by
  unfold State.use at h
  by_cases hcan : peer ∈ s.handles ∧ s.nowMs ≤ nowMs
  · rw [if_pos hcan] at h
    exact ⟨hcan.1, hcan.2, after_eq_some h⟩
  · rw [if_neg hcan] at h
    cases h

lemma next_frame {draws : ServerCore.Draws} {frameBytes : Bytes} {addr : SocketAddr}
    (h : next bd hash s (.frame draws frameBytes addr) = some s') :
    Step bd hash s (.frame draws frameBytes addr) s' := by
  dsimp only [next] at h
  by_cases hcan : s.pass = .idle ∧ s.nowMs ≤ draws.nowMs ∧ draws.nowMs ≤ draws.peerNowMs
  · rw [if_pos hcan] at h
    obtain ⟨s₁, hafter, rfl⟩ := Option.map_eq_some_iff.mp h
    obtain ⟨core, emissions, hok, rfl⟩ := after_eq_some hafter
    exact .frame hcan.1 hcan.2 hok
  · rw [if_neg hcan] at h
    cases h

lemma next_testNext (h : next bd hash s .testNext = some s') : Step bd hash s .testNext s' := by
  dsimp only [next] at h
  cases hpass : s.pass with
  | idle => simp [hpass] at h
  | firing => simp [hpass] at h
  | testing nowMs remaining =>
    cases remaining with
    | zero => simp [hpass] at h
    | succ remaining =>
      rw [hpass] at h
      dsimp only at h
      cases hok : s.core.testNext s.alive nowMs with
      | error e =>
        rw [hok] at h
        cases h
      | ok r =>
        rw [hok] at h
        cases h
        exact .testNext hpass hok

lemma next_fireNext {nowMs : ℕ} {nonces : ℕ → Bool}
    (h : next bd hash s (.fireNext nowMs nonces) = some s') :
    Step bd hash s (.fireNext nowMs nonces) s' := by
  dsimp only [next] at h
  cases hbuffer : s.timerDataBuffer with
  | nil =>
    rw [hbuffer] at h
    cases h
  | cons peer rest =>
    rw [hbuffer] at h
    dsimp only at h
    by_cases hcan : s.pass = .firing ∧ s.nowMs ≤ nowMs
    · rw [if_pos hcan] at h
      obtain ⟨s₁, hafter, rfl⟩ := Option.map_eq_some_iff.mp h
      obtain ⟨core, emissions, hok, rfl⟩ := after_eq_some hafter
      exact .fireNext hcan.1 hbuffer hcan.2 hok
    · rw [if_neg hcan] at h
      cases h

lemma next_poll (h : next bd hash s .poll = some s') : Step bd hash s .poll s' := by
  dsimp only [next] at h
  cases hevents : s.core.events with
  | nil =>
    rw [hevents] at h
    cases h
  | cons event events =>
    rw [hevents] at h
    dsimp only at h
    by_cases hpass : s.pass = .idle
    · rw [if_pos hpass] at h
      cases h
      exact .poll hpass hevents
    · rw [if_neg hpass] at h
      cases h

lemma next_step (h : next bd hash s a = some s') : Step bd hash s a s' := by
  cases a with
  | frame draws frameBytes addr => exact next_frame h
  | beginTimeouts nowMs =>
    dsimp only [next] at h
    by_cases hcan : s.pass = .idle ∧ s.nowMs ≤ nowMs
    · rw [if_pos hcan] at h
      cases h
      exact .beginTimeouts hcan.1 hcan.2
    · rw [if_neg hcan] at h
      cases h
  | testNext => exact next_testNext h
  | endTests =>
    dsimp only [next] at h
    cases hpass : s.pass with
    | idle => simp [hpass] at h
    | firing => simp [hpass] at h
    | testing nowMs remaining =>
      cases remaining with
      | zero =>
        rw [hpass] at h
        cases h
        exact .endTests hpass
      | succ remaining => simp [hpass] at h
  | fireNext nowMs nonces => exact next_fireNext h
  | endTimeouts =>
    dsimp only [next] at h
    by_cases hcan : s.pass = .firing ∧ s.timerDataBuffer = []
    · rw [if_pos hcan] at h
      cases h
      exact .endTimeouts hcan.1 hcan.2
    · rw [if_neg hcan] at h
      cases h
  | send peer packetBytes mode nowMs nonces =>
    obtain ⟨hhandle, hclock, core, emissions, hok, rfl⟩ := use_eq_some h
    exact .send hhandle hclock hok
  | enqueue peer packetBytes mode nowMs =>
    obtain ⟨hhandle, hclock, core, emissions, hok, rfl⟩ := use_eq_some h
    exact .enqueue hhandle hclock hok
  | flush peer nowMs nonces =>
    obtain ⟨hhandle, hclock, core, emissions, hok, rfl⟩ := use_eq_some h
    exact .flush hhandle hclock hok
  | disconnect peer nowMs =>
    obtain ⟨s₁, huse, rfl⟩ := Option.map_eq_some_iff.mp h
    obtain ⟨hhandle, hclock, core, emissions, hok, rfl⟩ := use_eq_some huse
    exact .disconnect hhandle hclock hok
  | poll => exact next_poll h
  | clone peer =>
    dsimp only [next] at h
    by_cases hhandle : peer ∈ s.handles
    · rw [if_pos hhandle] at h
      cases h
      exact .clone hhandle
    · rw [if_neg hhandle] at h
      cases h
  | drop peer =>
    dsimp only [next] at h
    by_cases hhandle : peer ∈ s.handles
    · rw [if_pos hhandle] at h
      cases h
      exact .drop hhandle
    · rw [if_neg hhandle] at h
      cases h

end Next

end Redpine.ServerRun
