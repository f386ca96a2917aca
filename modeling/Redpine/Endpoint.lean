import Redpine.FragmentTx
import Redpine.SegmentTx
import Redpine.SegmentRx
import Redpine.AimdReno

/-! The endpoint of a connection: `endpoint/mod.rs`. The calls an operation makes on its
host context are returned in order. Random nonces are supplied as a sequence of draws,
and the 32-bit floating point arithmetic of the RTT estimate is that of `Float32`. -/
namespace Redpine
open Machine Buffer Wire

/-- The calls on a `HostContext`. The channel that completed a received packet is not an
argument of the source's `on_receive`; it is recorded here and read by no host. -/
inductive HostCall
  | sendFrame (frameBytes : Bytes)
  | setRtoTimer (timeMs : ℕ)
  | unsetRtoTimer
  | onConnect
  | onDisconnect
  | onReceive (unrel : Bool) (packetBytes : Bytes)
  | onTimeout
  deriving DecidableEq, Repr

inductive TimeoutAction
  | continue
  | terminate
  deriving DecidableEq, Repr

inductive StateId
  | preInit
  | active
  | closing
  | closed
  | zombie
  deriving DecidableEq, Repr

structure RttState where
  srttMs : Float32
  rttvarMs : Float32

namespace RttState

def alpha : Float32 := 0.125
def beta : Float32 := 0.25
def gMs : Float32 := 4.0
def k : Float32 := 4.0

/-- `f32::max`, which ignores an operand that is not a number. -/
def maxF32 (a b : Float32) : Float32 :=
  if a.isNaN then b else if b.isNaN then a else if a ≤ b then b else a

def sample (rttState : Option RttState) (rttMs : Float32) : RttState :=
  match rttState with
  | some s =>
      { rttvarMs := (1.0 - beta) * s.rttvarMs + beta * (s.srttMs - rttMs).abs
        srttMs := (1.0 - alpha) * s.srttMs + alpha * rttMs }
  | none => { srttMs := rttMs, rttvarMs := rttMs / 2.0 }

/-- The conversion to `u64` truncates and saturates. -/
def rto (s : RttState) : ℕ :=
  (s.srttMs + maxF32 gMs (k * s.rttvarMs)).ceil.toUInt64.toNat

end RttState

structure RtoTimerState where
  rtoMs : ℕ
  rtoSumMs : ℕ
  deriving DecidableEq, Repr

structure RttTimerState where
  segmentId : U32
  sendTimeMs : ℕ
  expireTimeMs : ℕ
  deriving DecidableEq, Repr

structure Endpoint.Config where
  timeoutTimeMs : ℕ
  prioConfig : Prio.Config

structure Endpoint where
  config : Endpoint.Config
  stateId : StateId
  localNonce : U32
  remoteNonce : U32
  segmentTx : SegmentTx
  fragmentTx : FragmentTxBuffers
  ccState : AimdReno
  rtoMs : ℕ
  rtoTimerState : Option RtoTimerState
  rttState : Option RttState
  rttTimerState : Option RttTimerState
  segmentRx : SegmentRx
  unreliableRx : Unreliable.RxBuffer
  reliableRx : Reliable.RxBuffer

namespace Endpoint

def disconnectTimeoutMs : ℕ := 10000

def frameSizeMax : ℕ := 1472
def segmentWindowSize : U32 := 4096
def fragmentSize : ℕ := 1024
def fragmentWindowSize : U32 := 4096

def rtoInitialMs : ℕ := 1000
def rtoMaxMs : ℕ := 60000
def rtoMinMs : ℕ := 1000

/-- `self.rto_ms.clamp(RTO_MIN_MS, RTO_MAX_MS)`. -/
def clampRto (rtoMs : ℕ) : ℕ := min (max rtoMs rtoMinMs) rtoMaxMs

def new (config : Config) : Exec Endpoint := do
  let segmentTx ← SegmentTx.new 0 segmentWindowSize
  let fragmentTx ← FragmentTxBuffers.new 0 fragmentWindowSize fragmentSize config.prioConfig
  let ccState ← AimdReno.new fragmentSize
  let unreliableRx ← Unreliable.RxBuffer.new 0 fragmentSize
  let reliableRx ← Reliable.RxBuffer.new 0 fragmentSize
  return {
    config := config
    stateId := .preInit
    localNonce := 0
    remoteNonce := 0
    segmentTx := segmentTx
    fragmentTx := fragmentTx
    ccState := ccState
    rtoMs := rtoInitialMs
    rtoTimerState := none
    rttState := none
    rttTimerState := none
    segmentRx := SegmentRx.new 0 segmentWindowSize frameSizeMax
    unreliableRx := unreliableRx
    reliableRx := reliableRx }

def init (bd : Build) (e : Endpoint) : Exec (Endpoint × List HostCall) := do
  debugAssert bd (e.stateId = .preInit)
  return ({ e with stateId := .active }, [.onConnect])

def enqueue (bd : Build) (e : Endpoint) (packetBytes : Bytes) (mode : SendMode) (nowMs : ℕ) :
    Exec Endpoint :=
  if e.stateId = .active then do
    let fragmentTx ← e.fragmentTx.enqueue bd packetBytes mode nowMs
    return { e with fragmentTx := fragmentTx }
  else .ok e

def updateRtt (bd : Build) (e : Endpoint) (segmentId : U32) (nowMs : ℕ) : Exec Endpoint :=
  match e.rttTimerState with
  | some state =>
      if segmentId = state.segmentId + 1 then do
        let elapsedMs ← checkedSub bd 64 nowMs state.sendTimeMs
        let rttState := RttState.sample e.rttState (UInt64.ofNat elapsedMs).toFloat32
        return {
          e with
          rttState := some rttState
          rtoMs := clampRto rttState.rto
          rttTimerState := none }
      else if state.expireTimeMs ≤ nowMs then .ok { e with rttTimerState := none }
      else .ok e
  | none => .ok e

def updateRtoTimer (bd : Build) (e : Endpoint) (segmentId : U32) (nowMs : ℕ) :
    Exec (Endpoint × List HostCall) :=
  match e.rtoTimerState with
  | some _ =>
      if segmentId = e.segmentTx.nextId then
        -- All caught up
        .ok ({ e with rtoTimerState := none }, [.unsetRtoTimer])
      else do
        -- More acks expected
        let timeMs ← checkedAdd bd 64 nowMs e.rtoMs
        return ({ e with rtoTimerState := some ⟨e.rtoMs, 0⟩ }, [.setRtoTimer timeMs])
  | none => .ok (e, [])

/-- The receive buffers while the datagrams of segments are passed to them, and what the
callbacks of `handle_stream_frame` record. -/
structure Delivery where
  unreliableRx : Unreliable.RxBuffer
  reliableRx : Reliable.RxBuffer
  calls : List HostCall
  sendAck : Bool
  ackRel : Bool

def Delivery.receive (d : Delivery) (datagram : Datagram) : Delivery :=
  let fragment : FragmentRef := ⟨datagram.first, datagram.last, datagram.data⟩
  if datagram.unrel then
    let (unreliableRx, packet) := d.unreliableRx.receive datagram.id fragment
    { d with
      unreliableRx := unreliableRx
      calls := d.calls ++ packet.toList.map (.onReceive true)
      sendAck := true }
  else
    let (reliableRx, packet) := d.reliableRx.receive datagram.id fragment
    { d with
      reliableRx := reliableRx
      calls := d.calls ++ packet.toList.map (.onReceive false)
      sendAck := true
      ackRel := true }

def datagramLoop (bd : Build) : (fuel : ℕ) → PayloadReader → Delivery → Exec Delivery
  | 0, _, _ => .error .fuel
  | fuel + 1, reader, d => do
      match ← reader.read Datagram bd with
      | (some datagram, reader) => datagramLoop bd fuel reader (d.receive datagram)
      | (none, _) => return d

/-- The callback on one segment; every datagram read takes at least one byte. -/
def Delivery.segment (bd : Build) (d : Delivery) (segmentBytes : Bytes) : Exec Delivery :=
  datagramLoop bd (segmentBytes.length + 1) (PayloadReader.new segmentBytes) d

def Delivery.segments (bd : Build) (d : Delivery) (delivered : List Bytes) : Exec Delivery :=
  delivered.foldlM (Delivery.segment bd) d

def delivery (e : Endpoint) : Delivery := ⟨e.unreliableRx, e.reliableRx, [], false, false⟩

/-- The endpoint once the receive buffers have taken a delivery. -/
def withDelivery (e : Endpoint) (segmentRx : SegmentRx) (d : Delivery) : Endpoint :=
  { e with
    segmentRx := segmentRx
    unreliableRx := d.unreliableRx
    reliableRx := d.reliableRx }

/-- What the first half of one pass through the loop of `flush_stream` decides. -/
def sendData (e : Endpoint) (nowMs : ℕ) : Bool :=
  let frameWindowLimited := !e.segmentTx.canSend
  let congestionWindowLimited := decide (e.ccState.cwnd ≤ e.segmentTx.bytesInTransit)
  !frameWindowLimited && !congestionWindowLimited && (e.fragmentTx.dataReady nowMs).2

def streamAckOf (e : Endpoint) (ackRel : Bool) : StreamAck :=
  let (segmentHistory, segmentChecksum) := e.segmentRx.nextAckInfo
  { segmentId := e.segmentRx.nextExpectedId
    segmentHistory := segmentHistory
    segmentChecksum := segmentChecksum
    relFragmentId := if ackRel then some e.reliableRx.nextExpectedId else none }

/-- Sets the resend timeout if it is not set already. -/
def armRtoTimer (bd : Build) (e : Endpoint) (nowMs : ℕ) : Exec (Endpoint × List HostCall) :=
  match e.rtoTimerState with
  | none => do
      let timeMs ← checkedAdd bd 64 nowMs e.rtoMs
      return ({ e with rtoTimerState := some ⟨e.rtoMs, 0⟩ }, [.setRtoTimer timeMs])
  | some _ => .ok (e, [])

def armRttTimer (bd : Build) (e : Endpoint) (segmentId : U32) (nowMs : ℕ) : Exec Endpoint :=
  match e.rttTimerState with
  | none => do
      let expireTimeMs ← checkedAdd bd 64 nowMs e.rtoMs
      return { e with rttTimerState := some ⟨segmentId, nowMs, expireTimeMs⟩ }
  | some _ => .ok e

/-- Appends a segment header and as many datagrams as fit. -/
def writeSegment (bd : Build) (nonce : Bool) (e : Endpoint) (frameWriter : FrameWriter)
    (nowMs : ℕ) : Exec (Endpoint × FrameWriter × List HostCall) := do
  let segmentId := e.segmentTx.nextId
  let segmentTx ← e.segmentTx.computeNextNonce bd nonce
  let header : StreamSegmentHeader := ⟨segmentId, nonce⟩
  let (frameWriter, _) ← frameWriter.write bd header
  let (fragmentTx, frameWriter, sizeWritten) ← e.fragmentTx.flush bd frameWriter nowMs
  debugAssert bd (0 < sizeWritten)
  let segmentTx ← segmentTx.markSent bd sizeWritten
  let e := { e with segmentTx := segmentTx, fragmentTx := fragmentTx }
  let (e, calls) ← e.armRtoTimer bd nowMs
  let e ← e.armRttTimer bd segmentId nowMs
  return (e, frameWriter, calls)

def flushFrameType (sendAck sendData : Bool) : Exec FrameType :=
  match sendAck, sendData with
  | false, true => .ok .streamSegment
  | true, false => .ok .streamAck
  | true, true => .ok .streamSegmentAck
  | false, false => .error (.unreachable "NANI?")

def writeAck (bd : Build) (sendAck ackRel : Bool) (e : Endpoint) (frameWriter : FrameWriter) :
    Exec FrameWriter :=
  if sendAck then do
    let (frameWriter, _) ← frameWriter.write bd (e.streamAckOf ackRel)
    return frameWriter
  else .ok frameWriter

def writeData (bd : Build) (nonce sendData : Bool) (e : Endpoint) (frameWriter : FrameWriter)
    (nowMs : ℕ) : Exec (Endpoint × FrameWriter × List HostCall) :=
  if sendData then e.writeSegment bd nonce frameWriter nowMs else .ok (e, frameWriter, [])

/-- Builds and sends one frame. -/
def sendStreamFrame (bd : Build) (nonce sendAck sendData ackRel : Bool) (e : Endpoint)
    (nowMs : ℕ) : Exec (Endpoint × List HostCall) := do
  let frameType ← flushFrameType sendAck sendData
  let frameWriter ← FrameWriter.new bd frameSizeMax frameType
  let frameWriter ← e.writeAck bd sendAck ackRel frameWriter
  let (e, frameWriter, calls) ← e.writeData bd nonce sendData frameWriter nowMs
  let frame ← frameWriter.finalize
  return (e, calls ++ [.sendFrame frame])

/-- `data_ready` discards expired fragments. -/
def expire (e : Endpoint) (nowMs : ℕ) : Endpoint :=
  { e with fragmentTx := (e.fragmentTx.dataReady nowMs).1 }

/-- One pass through the loop of `flush_stream`, or `none` if the loop ends. -/
def flushStep (bd : Build) (nonce sendAck ackRel : Bool) (e : Endpoint) (nowMs : ℕ) :
    Exec (Endpoint × Option (List HostCall)) :=
  if sendAck || e.sendData nowMs then do
    let (e, calls) ← (e.expire nowMs).sendStreamFrame bd nonce sendAck (e.sendData nowMs)
      ackRel nowMs
    return (e, some calls)
  else .ok (e.expire nowMs, none)

/-- `nonces` are the random bits drawn by the iterations. -/
def flushLoop (bd : Build) (ackRel : Bool) (nowMs : ℕ) : (fuel : ℕ) → (nonces : ℕ → Bool) →
    (sendAck : Bool) → Endpoint → Exec (Endpoint × List HostCall)
  | 0, _, _, _ => .error .fuel
  | fuel + 1, nonces, sendAck, e => do
      match ← e.flushStep bd (nonces 0) sendAck ackRel nowMs with
      | (e, some calls) =>
          -- Only append one ack per flush
          let (e, rest) ← flushLoop bd ackRel nowMs fuel (fun n => nonces (n + 1)) false e
          return (e, calls ++ rest)
      | (e, none) => return (e, [])

/-- Every iteration but the last one, and the one that may send an ack only, takes an ID
from the segment window. -/
def flushStream (bd : Build) (nonces : ℕ → Bool) (sendAck ackRel : Bool) (e : Endpoint)
    (nowMs : ℕ) : Exec (Endpoint × List HostCall) :=
  flushLoop bd ackRel nowMs (e.segmentTx.size.toNat + 2) nonces sendAck e

def flush (bd : Build) (nonces : ℕ → Bool) (e : Endpoint) (nowMs : ℕ) :
    Exec (Endpoint × List HostCall) :=
  if e.stateId = .active then flushStream bd nonces false false e nowMs else .ok (e, [])

def handleDropIf (bd : Build) (drop : Bool) (ccState : AimdReno) : Exec AimdReno :=
  if drop then ccState.handleDrop bd else .ok ccState

/-- The part of `handle_stream_frame` that processes an ack. -/
def handleAck (bd : Build) (e : Endpoint) (ack : StreamAck) (nowMs : ℕ) :
    Exec (Endpoint × List HostCall) := do
  let ccState ← e.ccState.handleAck bd
  let (segmentTx, drop) ← e.segmentTx.acknowledge bd ack.segmentId
    (ack.segmentHistory.setWidth 32) ack.segmentChecksum
  let ccState ← handleDropIf bd drop ccState
  let fragmentTx ← e.fragmentTx.acknowledge bd ack.relFragmentId
  let e := { e with ccState := ccState, segmentTx := segmentTx, fragmentTx := fragmentTx }
  let e ← e.updateRtt bd ack.segmentId nowMs
  e.updateRtoTimer bd ack.segmentId nowMs

/-- The part of `handle_stream_frame` that processes a segment. -/
def handleSegment (bd : Build) (e : Endpoint) (segmentId : U32) (segmentNonce : Bool)
    (segmentBytes : Bytes) : Exec (Endpoint × Delivery) := do
  let (segmentRx, delivered) ← e.segmentRx.receive bd segmentId segmentNonce segmentBytes
  let d ← e.delivery.segments bd delivered
  return (e.withDelivery segmentRx d, d)

/-- Reads the ack if the frame carries one; `none` if that is not possible. -/
def readAckPart (bd : Build) (readAck : Bool) (e : Endpoint) (frameReader : PayloadReader)
    (nowMs : ℕ) : Exec (Option (Endpoint × PayloadReader × List HostCall)) :=
  if readAck then do
    match ← frameReader.read StreamAck bd with
    | (some ack, frameReader) =>
        let (e, calls) ← e.handleAck bd ack nowMs
        return some (e, frameReader, calls)
    | (none, _) => return none
  else .ok (some (e, frameReader, []))

def readDataPart (bd : Build) (readData : Bool) (e : Endpoint) (frameReader : PayloadReader) :
    Exec (Endpoint × Delivery) :=
  if readData then do
    match ← frameReader.read StreamSegmentHeader bd with
    | (some header, frameReader) =>
        let segmentBytes ← frameReader.remainingBytes
        e.handleSegment bd header.id header.nonce segmentBytes
    | (none, _) => return (e, e.delivery)
  else .ok (e, e.delivery)

/-- Which parts a frame of a stream carries: an ack, and a segment. -/
def streamParts (frameType : FrameType) : Exec (Bool × Bool) :=
  match frameType with
  | .streamSegment => .ok (false, true)
  | .streamAck => .ok (true, false)
  | .streamSegmentAck => .ok (true, true)
  | _ => .error (.unreachable "NANI?")

def handleStreamFrame (bd : Build) (nonces : ℕ → Bool) (e : Endpoint) (frameType : FrameType)
    (payloadBytes : Bytes) (nowMs : ℕ) : Exec (Endpoint × List HostCall) := do
  let (readAck, readData) ← streamParts frameType
  match ← readAckPart bd readAck e (PayloadReader.new payloadBytes) nowMs with
  | some (e, frameReader, ackCalls) =>
      let (e, d) ← readDataPart bd readData e frameReader
      let (e, flushCalls) ← flushStream bd nonces d.sendAck d.ackRel e nowMs
      return (e, ackCalls ++ d.calls ++ flushCalls)
  -- Truncated packet?
  | none => return (e, [])

/-- In-progress unreliable packets are cleared, since the IDs they wait for are made
ambiguous by the advance of the segment window. -/
def handleStreamSyncFrame (bd : Build) (nonces : ℕ → Bool) (e : Endpoint)
    (payloadBytes : Bytes) (nowMs : ℕ) : Exec (Endpoint × List HostCall) := do
  match ← (PayloadReader.new payloadBytes).read StreamSync bd with
  | (some sync, _) =>
      let (segmentRx, delivered) ← e.segmentRx.sync sync.nextSegmentId
      let d ← e.delivery.segments bd delivered
      let e := e.withDelivery segmentRx { d with unreliableRx := d.unreliableRx.reset }
      let (e, flushCalls) ← flushStream bd nonces true true e nowMs
      return (e, d.calls ++ flushCalls)
  | (none, _) => return (e, [])

def validateCloseFrame (bd : Build) (e : Endpoint) (payloadBytes : Bytes) : Exec Bool := do
  match ← readPayload CloseFrame bd payloadBytes with
  | some frame => return decide (frame.remoteNonce = e.localNonce)
  | none => return false

def validateCloseAckFrame (bd : Build) (e : Endpoint) (payloadBytes : Bytes) : Exec Bool := do
  match ← readPayload CloseAckFrame bd payloadBytes with
  | some frame => return decide (frame.remoteNonce = e.localNonce)
  | none => return false

def sendCloseFrame (bd : Build) (e : Endpoint) : Exec (List HostCall) := do
  let frame ← SimpleFrameWrite.write bd (CloseFrame.mk e.remoteNonce) frameSizeMax
  return [.sendFrame frame]

def sendCloseAckFrame (bd : Build) (e : Endpoint) : Exec (List HostCall) := do
  let frame ← SimpleFrameWrite.write bd (CloseAckFrame.mk e.remoteNonce) frameSizeMax
  return [.sendFrame frame]

def sendStreamSyncFrame (bd : Build) (nextSegmentId : U32) : Exec (List HostCall) := do
  let frame ← SimpleFrameWrite.write bd (StreamSync.mk nextSegmentId) frameSizeMax
  return [.sendFrame frame]

def enterClosing (bd : Build) (e : Endpoint) (nowMs : ℕ) : Exec (Endpoint × List HostCall) := do
  let timeMs ← checkedAdd bd 64 nowMs e.rtoMs
  let e := { e with stateId := .closing, rtoTimerState := some ⟨e.rtoMs, 0⟩ }
  let calls ← e.sendCloseFrame bd
  return (e, .setRtoTimer timeMs :: calls)

/-- The RTO timer is used to leave the closed state. -/
def enterClosed (bd : Build) (e : Endpoint) (nowMs : ℕ) : Exec (Endpoint × List HostCall) := do
  let timeMs ← checkedAdd bd 64 nowMs disconnectTimeoutMs
  return ({ e with stateId := .closed, rtoTimerState := none },
    [.onDisconnect, .setRtoTimer timeMs])

def disconnect (bd : Build) (e : Endpoint) (nowMs : ℕ) : Exec (Endpoint × List HostCall) :=
  if e.stateId = .active then e.enterClosing bd nowMs else .ok (e, [])

/-- A valid close frame in the active or the closing state is acknowledged. -/
def handleClose (bd : Build) (e : Endpoint) (payloadBytes : Bytes) (nowMs : ℕ) :
    Exec (Endpoint × List HostCall) := do
  if ← e.validateCloseFrame bd payloadBytes then
    let ackCalls ← e.sendCloseAckFrame bd
    let (e, calls) ← e.enterClosed bd nowMs
    return (e, ackCalls ++ calls)
  else return (e, [])

def handleCloseAck (bd : Build) (e : Endpoint) (payloadBytes : Bytes) (nowMs : ℕ) :
    Exec (Endpoint × List HostCall) := do
  if ← e.validateCloseAckFrame bd payloadBytes then e.enterClosed bd nowMs
  else return (e, [])

/-- A closed endpoint acknowledges further requests until its destruction. -/
def handleCloseClosed (bd : Build) (e : Endpoint) (payloadBytes : Bytes) :
    Exec (Endpoint × List HostCall) := do
  if ← e.validateCloseFrame bd payloadBytes then return (e, ← e.sendCloseAckFrame bd)
  else return (e, [])

def handleFrame (bd : Build) (nonces : ℕ → Bool) (e : Endpoint) (frameType : FrameType)
    (payloadBytes : Bytes) (nowMs : ℕ) : Exec (Endpoint × List HostCall) :=
  match e.stateId, frameType with
  | .active, .streamSegment
  | .active, .streamAck
  | .active, .streamSegmentAck => handleStreamFrame bd nonces e frameType payloadBytes nowMs
  | .active, .streamSync => handleStreamSyncFrame bd nonces e payloadBytes nowMs
  | .active, .close => e.handleClose bd payloadBytes nowMs
  | .closing, .close => e.handleClose bd payloadBytes nowMs
  | .closing, .closeAck => e.handleCloseAck bd payloadBytes nowMs
  | .closed, .close => e.handleCloseClosed bd payloadBytes
  | _, _ => .ok (e, [])

def expectTimerState (e : Endpoint) : Exec RtoTimerState :=
  match e.rtoTimerState with
  | some timerState => .ok timerState
  | none => .error (.expect "rto timer fired but state is none")

/-- What the active and the closing state do first when the timer fires: either the
timeout is reported, or the timer is set again with twice the timeout. -/
def backOff (bd : Build) (e : Endpoint) (nowMs : ℕ) :
    Exec (Endpoint × List HostCall × TimeoutAction) := do
  let timerState ← e.expectTimerState
  let rtoSumMs ← checkedAdd bd 64 timerState.rtoSumMs timerState.rtoMs
  if e.config.timeoutTimeMs ≤ rtoSumMs then
    return ({ e with
      stateId := .zombie
      rtoTimerState := some ⟨timerState.rtoMs, rtoSumMs⟩ }, [.onTimeout], .terminate)
  else
    let rtoMs := clampRto (← checkedMul bd 64 e.rtoMs 2)
    let timeMs ← checkedAdd bd 64 nowMs rtoMs
    return ({ e with
      rtoMs := rtoMs
      rtoTimerState := some ⟨rtoMs, rtoSumMs⟩ }, [.setRtoTimer timeMs], .continue)

/-- Resends everything in the reliable queue and attempts to resynchronize now that the
pipe has drained. -/
def resynchronize (bd : Build) (nonces : ℕ → Bool) (e : Endpoint) (nowMs : ℕ) :
    Exec (Endpoint × List HostCall) := do
  let ccState ← e.ccState.handleTimeout bd
  let e := { e with ccState := ccState, fragmentTx := e.fragmentTx.handleTimeout }
  let syncCalls ← sendStreamSyncFrame bd e.segmentTx.nextId
  let (e, flushCalls) ← flushStream bd nonces false false e nowMs
  return (e, syncCalls ++ flushCalls)

def handleRtoTimer (bd : Build) (nonces : ℕ → Bool) (e : Endpoint) (nowMs : ℕ) :
    Exec (Endpoint × List HostCall × TimeoutAction) :=
  match e.stateId with
  | .active => do
      match ← e.backOff bd nowMs with
      | (e, calls, .terminate) => return (e, calls, .terminate)
      | (e, calls, .continue) =>
          let (e, rest) ← resynchronize bd nonces e nowMs
          return (e, calls ++ rest, .continue)
  | .closing => do
      match ← e.backOff bd nowMs with
      | (e, calls, .terminate) => return (e, calls, .terminate)
      | (e, calls, .continue) => return (e, calls ++ (← e.sendCloseFrame bd), .continue)
  | .closed => .ok ({ e with stateId := .zombie }, [], .terminate)
  | .preInit | .zombie => .ok (e, [], .continue)

end Endpoint

end Redpine
