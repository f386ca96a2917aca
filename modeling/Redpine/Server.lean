import Redpine.Client
import Redpine.HandshakeMac
import Redpine.TimerQueue
import Mathlib.Data.List.AList

/-! The server: `server/mod.rs` and `server/peer.rs`. Peers are objects in a heap, and a
reference to a peer is its place there. Reading the clock and drawing random numbers are
arguments, and so is the keyed hash function; what a call sends on the socket, and what the
endpoint of a peer calls on its context, are returned. -/
namespace Redpine
open Machine Buffer Wire

namespace Server

def frameSizeMax : ℕ := 1472

def peerCountMaxDefault : ℕ := 8
def peerCountMaxMax : ℕ := 65536

def handshakeTimeoutMs : U32 := 10000

def connectionTimeoutDefaultMs : ℕ := 10000
def connectionTimeoutMinMs : ℕ := 2000

def timerTestLimit : ℕ := 24

structure Config where
  peerCountMax : ℕ
  connectionTimeoutMs : ℕ
  channelBalance : ChannelBalanceConfig

instance : Inhabited Config := ⟨⟨peerCountMaxDefault, connectionTimeoutDefaultMs, default⟩⟩

def Config.validate (bd : Build) (config : Config) : Exec Unit := do
  assert (0 < config.peerCountMax)
  assert (config.peerCountMax ≤ peerCountMaxMax)
  assert (connectionTimeoutMinMs ≤ config.connectionTimeoutMs)
  config.channelBalance.validate bd

/-- A strong or a weak reference to a peer, which a `PeerHandle` holds too. -/
abbrev PeerRef := ℕ

inductive Event
  | connect (peer : PeerRef)
  | disconnect (peer : PeerRef)
  | receive (peer : PeerRef) (packetBytes : Bytes)
  | error (peer : PeerRef) (kind : ErrorKind)
  deriving DecidableEq, Repr

def Event.peer : Event → PeerRef
  | .connect peer => peer
  | .disconnect peer => peer
  | .receive peer _ => peer
  | .error peer _ => peer

/-- What leaves the server: a frame it sends itself, or a call of the endpoint of a peer. -/
inductive Emission
  | reply (frameBytes : Bytes) (addr : SocketAddr)
  | host (peer : PeerRef) (addr : SocketAddr) (call : HostCall)
  deriving DecidableEq

/-- The frame sent on the socket, and its destination. -/
def Emission.frame : Emission → Option (Bytes × SocketAddr)
  | .reply frameBytes addr => some (frameBytes, addr)
  | .host _ addr (.sendFrame frameBytes) => some (frameBytes, addr)
  | _ => none

/-- The event pushed, if any. -/
def Emission.event : Emission → Option Event
  | .host peer _ .onConnect => some (.connect peer)
  | .host peer _ .onDisconnect => some (.disconnect peer)
  | .host peer _ (.onReceive _ packetBytes) => some (.receive peer packetBytes)
  | .host peer _ .onTimeout => some (.error peer .timeout)
  | _ => none

end Server

structure PeerCore where
  addr : SocketAddr
  rtoTimer : Option ℕ

structure Peer where
  core : PeerCore
  endpoint : Endpoint

namespace Peer

def new (addr : SocketAddr) (endpointConfig : Endpoint.Config) : Exec Peer := do
  let endpoint ← Endpoint.new endpointConfig
  return ⟨⟨addr, none⟩, endpoint⟩

def addr (p : Peer) : SocketAddr := p.core.addr

/-- `EndpointContext` of a peer, as far as it changes the peer. -/
def hostCall (core : PeerCore) : HostCall → PeerCore
  | .setRtoTimer timeMs => { core with rtoTimer := some timeMs }
  | .unsetRtoTimer => { core with rtoTimer := none }
  | _ => core

/-- `Timer::test` of a peer. -/
def test (p : Peer) (timeNow : ℕ) : Peer × Bool :=
  match p.core.rtoTimer with
  | some t =>
      if t < timeNow then ({ p with core := { p.core with rtoTimer := none } }, true) else (p, false)
  | none => (p, false)

end Peer

/-- `heap` holds every peer ever created. -/
structure ServerCore where
  config : Server.Config
  heap : List Peer
  peers : AList fun _ : SocketAddr => Server.PeerRef
  timerQueue : TimerQueue Server.PeerRef
  events : List Server.Event

namespace ServerCore
open Server

/-- The server once a call on the endpoint of a peer has returned. -/
def withPeer (core : ServerCore) (peer : PeerRef) (p : Peer) (endpoint : Endpoint)
    (calls : List HostCall) : ServerCore × List Emission :=
  let emissions := calls.map (.host peer p.addr)
  ({
    core with
    heap := core.heap.set peer ⟨calls.foldl Peer.hostCall p.core, endpoint⟩
    events := core.events ++ emissions.filterMap Emission.event }, emissions)

/-- A call on the endpoint of a peer, under the lock of the peer. -/
def callPeer (core : ServerCore) (peer : PeerRef)
    (call : Endpoint → Exec (Endpoint × List HostCall)) : Exec (ServerCore × List Emission) := do
  let p ← index core.heap peer
  let (endpoint, calls) ← call p.endpoint
  return core.withPeer peer p endpoint calls

def peerInit (bd : Build) (core : ServerCore) (peer : PeerRef) :
    Exec (ServerCore × List Emission) :=
  core.callPeer peer fun e => e.init bd

def peerHandleFrame (bd : Build) (nonces : ℕ → Bool) (core : ServerCore) (peer : PeerRef)
    (frameType : FrameType) (payloadBytes : Bytes) (nowMs : ℕ) :
    Exec (ServerCore × List Emission) :=
  core.callPeer peer fun e => e.handleFrame bd nonces frameType payloadBytes nowMs

/-- `PeerHandle::send`. -/
def peerSend (bd : Build) (nonces : ℕ → Bool) (core : ServerCore) (peer : PeerRef)
    (packetBytes : Bytes) (mode : SendMode) (nowMs : ℕ) : Exec (ServerCore × List Emission) :=
  core.callPeer peer fun e => do
    let e ← e.enqueue bd packetBytes mode nowMs
    e.flush bd nonces nowMs

/-- `PeerHandle::enqueue`. -/
def peerEnqueue (bd : Build) (core : ServerCore) (peer : PeerRef) (packetBytes : Bytes)
    (mode : SendMode) (nowMs : ℕ) : Exec (ServerCore × List Emission) :=
  core.callPeer peer fun e => do
    let e ← e.enqueue bd packetBytes mode nowMs
    return (e, [])

/-- `PeerHandle::flush`. -/
def peerFlush (bd : Build) (nonces : ℕ → Bool) (core : ServerCore) (peer : PeerRef)
    (nowMs : ℕ) : Exec (ServerCore × List Emission) :=
  core.callPeer peer fun e => e.flush bd nonces nowMs

/-- `PeerHandle::disconnect`. -/
def peerDisconnect (bd : Build) (core : ServerCore) (peer : PeerRef) (nowMs : ℕ) :
    Exec (ServerCore × List Emission) :=
  core.callPeer peer fun e => e.disconnect bd nowMs

/-- One iteration of `step_timer_wheel`: the timer at the front of the queue is tested, and its
peer is returned if the timer has expired. -/
def testNext (core : ServerCore) (alive : PeerRef → Bool) (nowMs : ℕ) :
    Exec (ServerCore × Option PeerRef) :=
  match core.timerQueue.next alive with
  | none => .error (.expect "impossible iteration condition")
  | some (none, timerQueue) => .ok ({ core with timerQueue := timerQueue }, none)
  | some (some peer, timerQueue) => do
      let p ← index core.heap peer
      let (p, expired) := p.test nowMs
      return ({ core with heap := core.heap.set peer p, timerQueue := timerQueue },
        if expired then some peer else none)

/-- One iteration of `handle_timeouts`: the timer of a peer is handled, and the entry at its
address is removed if the peer has terminated. -/
def fireNext (bd : Build) (nonces : ℕ → Bool) (core : ServerCore) (peer : PeerRef) (nowMs : ℕ) :
    Exec (ServerCore × List Emission) := do
  let p ← index core.heap peer
  let (endpoint, calls, action) ← p.endpoint.handleRtoTimer bd nonces nowMs
  let (core, emissions) := core.withPeer peer p endpoint calls
  match action with
  | .continue => return (core, emissions)
  | .terminate => return ({ core with peers := core.peers.erase p.addr }, emissions)

/-- `now_ms as u32`. -/
def timestamp (nowMs : ℕ) : U32 := BitVec.ofNat 32 nowMs

/-- The first request that a frame contains, if it has the right size, checksum and protocol. -/
def readAlpha (bd : Build) (frameBytes : Bytes) : Exec (Option HandshakeAlphaFrame) := do
  if ← verifyHandshakeAlphaSizeAndCrc bd frameBytes frameSizeMax then
    let payloadBytes ← payload bd frameBytes
    match ← readPayload HandshakeAlphaFrame bd payloadBytes with
    | some frame => if frame.protocolId = protocolId then return some frame else return none
    | none => return none
  else return none

/-- The answer to a first request. -/
def alphaAck (hash : Bytes → U64) (serverNonce : U32) (frame : HandshakeAlphaFrame)
    (senderAddr : SocketAddr) (nowMs : ℕ) : HandshakeAlphaAckFrame :=
  { serverParams := localParams
    clientNonce := frame.clientNonce
    serverNonce := serverNonce
    serverTimestamp := timestamp nowMs
    serverMac := HandshakeMacHasher.compute hash senderAddr frame.clientNonce serverNonce
      (timestamp nowMs) }

def handleHandshakeAlpha (bd : Build) (hash : Bytes → U64) (serverNonce : U32)
    (core : ServerCore) (frameBytes : Bytes) (senderAddr : SocketAddr) (nowMs : ℕ) :
    Exec (ServerCore × List Emission) := do
  match ← readAlpha bd frameBytes with
  | some frame =>
      let ackFrameBytes ← SimpleFrameWrite.write bd
        (alphaAck hash serverNonce frame senderAddr nowMs)
        (SimpleFrame.frameSize HandshakeAlphaAckFrame)
      return (core, [.reply ackFrameBytes senderAddr])
  | none => return (core, [])

/-- Creates a peer for the address, and associates it with the address. -/
def createPeer (bd : Build) (core : ServerCore) (senderAddr : SocketAddr) :
    Exec (ServerCore × List Emission) := do
  let prioConfig ← core.config.channelBalance.toPrio bd
  let p ← Peer.new senderAddr ⟨core.config.connectionTimeoutMs, prioConfig⟩
  let peer := core.heap.length
  let core := {
    core with
    heap := core.heap ++ [p]
    peers := core.peers.insert senderAddr peer
    timerQueue := core.timerQueue.addTimer peer }
  core.peerInit bd peer

/-- Decides on a valid request, and creates the peer where it is granted. -/
def acceptBeta (bd : Build) (core : ServerCore) (frame : HandshakeBetaFrame)
    (senderAddr : SocketAddr) : Exec (ServerCore × List Emission × Option HandshakeErrorKind) :=
  if (core.peers.lookup senderAddr).isSome then .ok (core, [], none)
  else if core.config.peerCountMax ≤ core.peers.entries.length then
    .ok (core, [], some .capacity)
  else if !connectionParamsCompatible frame.clientParams localParams then
    .ok (core, [], some .parameter)
  else do
    let (core, emissions) ← core.createPeer bd senderAddr
    return (core, emissions, none)

/-- The timestamp of a request is at most `HANDSHAKE_TIMEOUT_MS` old. -/
def timestampValid (frame : HandshakeBetaFrame) (nowMs : ℕ) : Bool :=
  decide (timestamp nowMs - frame.serverTimestamp < handshakeTimeoutMs)

def macValid (hash : Bytes → U64) (frame : HandshakeBetaFrame) (senderAddr : SocketAddr) : Bool :=
  decide (frame.serverMac = HandshakeMacHasher.compute hash senderAddr frame.clientNonce
    frame.serverNonce frame.serverTimestamp)

/-- The second request that a frame contains, if it has the right size and checksum. -/
def readBeta (bd : Build) (frameBytes : Bytes) : Exec (Option HandshakeBetaFrame) := do
  if ← verifyHandshakeBetaSizeAndCrc bd frameBytes then
    let payloadBytes ← payload bd frameBytes
    readPayload HandshakeBetaFrame bd payloadBytes
  else return none

def handleHandshakeBeta (bd : Build) (hash : Bytes → U64) (core : ServerCore)
    (frameBytes : Bytes) (senderAddr : SocketAddr) (nowMs : ℕ) :
    Exec (ServerCore × List Emission) := do
  match ← readBeta bd frameBytes with
  | some frame =>
      if macValid hash frame senderAddr && timestampValid frame nowMs then
        let (core, emissions, error) ← core.acceptBeta bd frame senderAddr
        -- Always send an ack in case a previous ack was dropped
        let ackFrame : HandshakeBetaAckFrame := ⟨error, frame.clientNonce⟩
        let ackFrameBytes ← SimpleFrameWrite.write bd ackFrame
          (SimpleFrame.frameSize HandshakeBetaAckFrame)
        return (core, emissions ++ [.reply ackFrameBytes senderAddr])
      else return (core, [])
  | none => return (core, [])

/-- If a peer is associated with this address, the frame is delivered to its endpoint. -/
def handleFrameOther (bd : Build) (nonces : ℕ → Bool) (core : ServerCore)
    (frameType : FrameType) (frameBytes : Bytes) (senderAddr : SocketAddr) (nowMs : ℕ) :
    Exec (ServerCore × List Emission) :=
  match core.peers.lookup senderAddr with
  | some peer => do
      if ← verifyCrc bd frameBytes then
        let payloadBytes ← payload bd frameBytes
        core.peerHandleFrame bd nonces peer frameType payloadBytes nowMs
      else return (core, [])
  | none => .ok (core, [])

/-- The random numbers that one frame may take, and the two readings of the clock: by the
server, and by the peer that the frame is delivered to. -/
structure Draws where
  serverNonce : U32
  nonces : ℕ → Bool
  nowMs : ℕ
  peerNowMs : ℕ

def dispatchFrame (bd : Build) (hash : Bytes → U64) (draws : Draws) (core : ServerCore)
    (frameType : FrameType) (frameBytes : Bytes) (senderAddr : SocketAddr) :
    Exec (ServerCore × List Emission) :=
  match frameType with
  | .handshakeAlpha =>
      core.handleHandshakeAlpha bd hash draws.serverNonce frameBytes senderAddr draws.nowMs
  | .handshakeBeta => core.handleHandshakeBeta bd hash frameBytes senderAddr draws.nowMs
  | _ => core.handleFrameOther bd draws.nonces frameType frameBytes senderAddr draws.peerNowMs

def handleFrame (bd : Build) (hash : Bytes → U64) (draws : Draws) (core : ServerCore)
    (frameBytes : Bytes) (senderAddr : SocketAddr) : Exec (ServerCore × List Emission) :=
  if verifyMinimumSize frameBytes then do
    match ← readType bd frameBytes with
    | some frameType => core.dispatchFrame bd hash draws frameType frameBytes senderAddr
    | none => return (core, [])
  else .ok (core, [])

/-- `Server::bind_with_config`. -/
def bindWithConfig (bd : Build) (config : Config) : Exec ServerCore := do
  config.validate bd
  return ⟨config, [], ∅, .new, []⟩

end ServerCore

end Redpine
