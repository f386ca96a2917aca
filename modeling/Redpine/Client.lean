import Redpine.Endpoint

/-! The client: `client.rs`, with the configuration of the channels (`endpoint/mod.rs`) and
the error kinds (`lib.rs`) that it shares with the server. Reading the clock and drawing
random numbers are arguments; the frames that a call sends on the socket are returned. -/
namespace Redpine
open Machine Buffer Wire

inductive ErrorKind
  | timeout
  | capacity
  | parameter
  deriving DecidableEq, Repr

structure ChannelBalanceConfig where
  unreliableWeight : ℕ
  reliableWeight : ℕ
  burstSize : ℕ
  deriving DecidableEq, Repr

namespace ChannelBalanceConfig

/-- `From<ChannelBalanceConfig> for prio::Config`. -/
def toPrio (bd : Build) (config : ChannelBalanceConfig) : Exec Prio.Config :=
  Prio.Config.new bd ![config.unreliableWeight, config.reliableWeight, 1, 1] config.burstSize

def validate (bd : Build) (config : ChannelBalanceConfig) : Exec Unit := do
  let _ ← config.toPrio bd

end ChannelBalanceConfig

instance : Inhabited ChannelBalanceConfig := ⟨⟨1, 1, 10000⟩⟩

def connectionParamsCompatible (a b : ConnectionParams) : Bool :=
  decide (b.packetSizeOutMax ≤ a.packetSizeInMax) && decide (a.packetSizeOutMax ≤ b.packetSizeInMax)

/-- The parameters that both sides announce. -/
def localParams : ConnectionParams := ⟨0xFFFFFFFF, 0xFFFFFFFF⟩

/-- The frames among the calls of an endpoint. -/
def sentFrames (calls : List HostCall) : List Bytes :=
  calls.filterMap fun
    | .sendFrame frameBytes => some frameBytes
    | _ => none

namespace Client

def frameSizeMax : ℕ := 1472

def handshakeTimeoutDefaultMs : ℕ := 10000
def handshakeTimeoutMinMs : ℕ := 2000
def handshakeResendTimeoutMs : ℕ := 2000
def connectionTimeoutDefaultMs : ℕ := 10000
def connectionTimeoutMinMs : ℕ := 2000

structure Config where
  handshakeTimeoutMs : ℕ
  connectionTimeoutMs : ℕ
  channelBalance : ChannelBalanceConfig

instance : Inhabited Config := ⟨⟨handshakeTimeoutDefaultMs, connectionTimeoutDefaultMs, default⟩⟩

def Config.validate (bd : Build) (config : Config) : Exec Unit := do
  assert (handshakeTimeoutMinMs ≤ config.handshakeTimeoutMs)
  assert (connectionTimeoutMinMs ≤ config.connectionTimeoutMs)
  config.channelBalance.validate bd

inductive HandshakePhase
  | alpha
  | beta
  deriving DecidableEq, Repr

structure HandshakeState where
  phase : HandshakePhase
  timeoutTimeMs : ℕ
  timeoutMs : ℕ
  packetBuffer : List (Bytes × SendMode)
  frame : Bytes
  localNonce : U32

inductive State
  | handshake (state : HandshakeState)
  | active (endpoint : Endpoint)
  | quiescent

inductive Event
  | connect
  | disconnect
  | receive (packetBytes : Bytes)
  | error (kind : ErrorKind)
  deriving DecidableEq, Repr

end Client

structure ClientCore where
  config : Client.Config
  state : Client.State
  rtoTimer : Option ℕ
  events : List Client.Event

namespace ClientCore
open Client

/-- `EndpointContext` of the client; frames go to the socket. -/
def hostCall (core : ClientCore) : HostCall → ClientCore
  | .sendFrame _ => core
  | .setRtoTimer timeMs => { core with rtoTimer := some timeMs }
  | .unsetRtoTimer => { core with rtoTimer := none }
  | .onConnect => { core with events := core.events ++ [.connect] }
  | .onDisconnect => { core with events := core.events ++ [.disconnect] }
  | .onReceive _ packetBytes => { core with events := core.events ++ [.receive packetBytes] }
  | .onTimeout => { core with events := core.events ++ [.error .timeout] }

/-- The client once a call on its endpoint has returned, and the frames sent. -/
def withEndpoint (core : ClientCore) (e : Endpoint) (calls : List HostCall) :
    ClientCore × List Bytes :=
  (calls.foldl hostCall { core with state := .active e }, sentFrames calls)

def fail (core : ClientCore) (kind : ErrorKind) : ClientCore :=
  { core with events := core.events ++ [.error kind], state := .quiescent }

def processTimeout (bd : Build) (nonces : ℕ → Bool) (core : ClientCore) (nowMs : ℕ) :
    Exec (ClientCore × List Bytes) :=
  match core.state with
  | .handshake state =>
      if state.timeoutTimeMs ≤ nowMs then .ok (core.fail .timeout, [])
      else do
        let timeMs ← checkedAdd bd 64 nowMs handshakeResendTimeoutMs
        return ({ core with rtoTimer := some timeMs }, [state.frame])
  | .active e => do
      let (e, calls, action) ← e.handleRtoTimer bd nonces nowMs
      let (core, frames) := core.withEndpoint e calls
      match action with
      | .continue => return (core, frames)
      | .terminate => return ({ core with state := .quiescent }, frames)
  | .quiescent => .ok (core, [])

def processTimeouts (bd : Build) (nonces : ℕ → Bool) (core : ClientCore) (nowMs : ℕ) :
    Exec (ClientCore × List Bytes) :=
  match core.rtoTimer with
  | some timeoutMs =>
      if timeoutMs ≤ nowMs then processTimeout bd nonces { core with rtoTimer := none } nowMs
      else .ok (core, [])
  | none => .ok (core, [])

/-- What a valid answer to the first request leads to. -/
def requestBeta (bd : Build) (core : ClientCore) (state : HandshakeState)
    (frame : HandshakeAlphaAckFrame) (nowMs : ℕ) : Exec (ClientCore × List Bytes) := do
  let timeoutTimeMs ← checkedAdd bd 64 nowMs state.timeoutMs
  let timeMs ← checkedAdd bd 64 nowMs handshakeResendTimeoutMs
  let beta : HandshakeBetaFrame :=
    ⟨localParams, frame.clientNonce, frame.serverNonce, frame.serverTimestamp, frame.serverMac⟩
  let frameBytes ← SimpleFrameWrite.writeBoxed bd beta
  return ({
    core with
    state := .handshake
      { state with phase := .beta, timeoutTimeMs := timeoutTimeMs, frame := frameBytes }
    rtoTimer := some timeMs }, [frameBytes])

def handleHandshakeAlphaAck (bd : Build) (core : ClientCore) (payloadBytes : Bytes)
    (nowMs : ℕ) : Exec (ClientCore × List Bytes) :=
  match core.state with
  | .handshake state =>
      if state.phase = .alpha then do
        match ← readPayload HandshakeAlphaAckFrame bd payloadBytes with
        | some frame =>
            if frame.clientNonce = state.localNonce ∧
                connectionParamsCompatible localParams frame.serverParams then
              core.requestBeta bd state frame nowMs
            else return (core, [])
        | none => return (core, [])
      else .ok (core, [])
  | _ => .ok (core, [])

def enqueueAll (bd : Build) (e : Endpoint) (nowMs : ℕ) :
    List (Bytes × SendMode) → Exec Endpoint
  | [] => .ok e
  | (packet, mode) :: packets => do
      let e ← e.enqueue bd packet mode nowMs
      enqueueAll bd e nowMs packets

/-- Creates the endpoint now that the client is connected, and sends the packets queued up. -/
def activate (bd : Build) (nonces : ℕ → Bool) (core : ClientCore) (state : HandshakeState)
    (nowMs : ℕ) : Exec (ClientCore × List Bytes) := do
  let prioConfig ← core.config.channelBalance.toPrio bd
  let e ← Endpoint.new ⟨core.config.connectionTimeoutMs, prioConfig⟩
  let (e, initCalls) ← e.init bd
  let e ← enqueueAll bd e nowMs state.packetBuffer
  let (e, flushCalls) ← e.flush bd nonces nowMs
  return withEndpoint { core with rtoTimer := none } e (initCalls ++ flushCalls)

def errorKindOf : HandshakeErrorKind → ErrorKind
  | .capacity => .capacity
  | .parameter => .parameter

def handleHandshakeBetaAck (bd : Build) (nonces : ℕ → Bool) (core : ClientCore)
    (payloadBytes : Bytes) (nowMs : ℕ) : Exec (ClientCore × List Bytes) :=
  match core.state with
  | .handshake state =>
      if state.phase = .beta then do
        match ← readPayload HandshakeBetaAckFrame bd payloadBytes with
        | some frame =>
            if frame.clientNonce = state.localNonce then
              match frame.error with
              | none => core.activate bd nonces state nowMs
              | some kind => return (core.fail (errorKindOf kind), [])
            else return (core, [])
        | none => return (core, [])
      else .ok (core, [])
  | _ => .ok (core, [])

def handleFrameOther (bd : Build) (nonces : ℕ → Bool) (core : ClientCore)
    (frameType : FrameType) (payloadBytes : Bytes) (nowMs : ℕ) :
    Exec (ClientCore × List Bytes) :=
  match core.state with
  | .active e => do
      let (e, calls) ← e.handleFrame bd nonces frameType payloadBytes nowMs
      return core.withEndpoint e calls
  | _ => .ok (core, [])

/-- A frame of a known type whose checksum is right. -/
def dispatchFrame (bd : Build) (nonces : ℕ → Bool) (core : ClientCore) (frameType : FrameType)
    (payloadBytes : Bytes) (nowMs : ℕ) : Exec (ClientCore × List Bytes) :=
  match frameType with
  | .handshakeAlphaAck => core.handleHandshakeAlphaAck bd payloadBytes nowMs
  | .handshakeBetaAck => core.handleHandshakeBetaAck bd nonces payloadBytes nowMs
  | _ => core.handleFrameOther bd nonces frameType payloadBytes nowMs

def handleFrame (bd : Build) (nonces : ℕ → Bool) (core : ClientCore) (frameBytes : Bytes)
    (nowMs : ℕ) : Exec (ClientCore × List Bytes) :=
  if verifyMinimumSize frameBytes then do
    match ← readType bd frameBytes with
    | some frameType =>
        if ← verifyCrc bd frameBytes then
          let payloadBytes ← payload bd frameBytes
          core.dispatchFrame bd nonces frameType payloadBytes nowMs
        else return (core, [])
    | none => return (core, [])
  else .ok (core, [])

def buffer (core : ClientCore) (state : HandshakeState) (packetBytes : Bytes) (mode : SendMode) :
    ClientCore :=
  { core with
    state := .handshake { state with packetBuffer := state.packetBuffer ++ [(packetBytes, mode)] } }

def send (bd : Build) (nonces : ℕ → Bool) (core : ClientCore) (packetBytes : Bytes)
    (mode : SendMode) (nowMs : ℕ) : Exec (ClientCore × List Bytes) :=
  match core.state with
  | .handshake state => .ok (core.buffer state packetBytes mode, [])
  | .active e => do
      let e ← e.enqueue bd packetBytes mode nowMs
      let (e, calls) ← e.flush bd nonces nowMs
      return core.withEndpoint e calls
  | .quiescent => .ok (core, [])

def enqueue (bd : Build) (core : ClientCore) (packetBytes : Bytes) (mode : SendMode)
    (nowMs : ℕ) : Exec (ClientCore × List Bytes) :=
  match core.state with
  | .handshake state => .ok (core.buffer state packetBytes mode, [])
  | .active e => do
      let e ← e.enqueue bd packetBytes mode nowMs
      return ({ core with state := .active e }, [])
  | .quiescent => .ok (core, [])

def flush (bd : Build) (nonces : ℕ → Bool) (core : ClientCore) (nowMs : ℕ) :
    Exec (ClientCore × List Bytes) :=
  match core.state with
  | .handshake _ => .ok (core, [])
  | .active e => do
      let (e, calls) ← e.flush bd nonces nowMs
      return core.withEndpoint e calls
  | .quiescent => .ok (core, [])

def disconnect (bd : Build) (core : ClientCore) (nowMs : ℕ) : Exec (ClientCore × List Bytes) :=
  match core.state with
  | .handshake _ => .ok (core, [])
  | .active e => do
      let (e, calls) ← e.disconnect bd nowMs
      return core.withEndpoint e calls
  | .quiescent => .ok (core, [])

/-- `Client::connect_with_config`, with the nonce drawn. -/
def connectWithConfig (bd : Build) (config : Config) (localNonce : U32) :
    Exec (ClientCore × List Bytes) := do
  config.validate bd
  let frame ← writeHandshakeAlpha bd ⟨protocolId, localNonce⟩ frameSizeMax
  return ({
    config := config
    state := .handshake {
      phase := .alpha
      timeoutTimeMs := config.handshakeTimeoutMs
      timeoutMs := config.handshakeTimeoutMs
      packetBuffer := []
      frame := frame
      localNonce := localNonce }
    rtoTimer := some handshakeResendTimeoutMs
    events := [] }, [frame])

end ClientCore

end Redpine
