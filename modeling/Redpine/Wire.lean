import Redpine.Crc

/-! Frames and their serialization: `frame/mod.rs` and `frame/serial/mod.rs`.
A buffer that a writer fills is modelled by its length and the bytes written so far;
a raw pointer read or write beyond its buffer is an `outOfRange` error. -/
namespace Redpine.Wire
open Machine

inductive FrameType
  | handshakeAlpha
  | handshakeAlphaAck
  | handshakeBeta
  | handshakeBetaAck
  | close
  | closeAck
  | streamSegment
  | streamAck
  | streamSegmentAck
  | streamSync
  deriving DecidableEq, Repr

structure ConnectionParams where
  packetSizeInMax : U32
  packetSizeOutMax : U32
  deriving DecidableEq, Repr

inductive HandshakeErrorKind
  | capacity
  | parameter
  deriving DecidableEq, Repr

structure Datagram where
  id : U32
  unrel : Bool
  first : Bool
  last : Bool
  data : Bytes
  deriving DecidableEq, Repr

structure HandshakeAlphaFrame where
  protocolId : U16
  clientNonce : U32
  deriving DecidableEq, Repr

structure HandshakeAlphaAckFrame where
  serverParams : ConnectionParams
  clientNonce : U32
  serverNonce : U32
  serverTimestamp : U32
  serverMac : U64
  deriving DecidableEq, Repr

structure HandshakeBetaFrame where
  clientParams : ConnectionParams
  clientNonce : U32
  serverNonce : U32
  serverTimestamp : U32
  serverMac : U64
  deriving DecidableEq, Repr

structure HandshakeBetaAckFrame where
  error : Option HandshakeErrorKind
  clientNonce : U32
  deriving DecidableEq, Repr

structure CloseFrame where
  remoteNonce : U32
  deriving DecidableEq, Repr

structure CloseAckFrame where
  remoteNonce : U32
  deriving DecidableEq, Repr

structure StreamSegmentHeader where
  id : U32
  nonce : Bool
  deriving DecidableEq, Repr

structure StreamAck where
  segmentId : U32
  segmentHistory : U8
  segmentChecksum : Bool
  relFragmentId : Option U32
  deriving DecidableEq, Repr

structure StreamSync where
  nextSegmentId : U32
  deriving DecidableEq, Repr

def protocolId : U16 := 0

def frameHeaderSize : ℕ := 1
def frameCrcSize : ℕ := 4
def frameOverheadSize : ℕ := frameHeaderSize + frameCrcSize

def handshakeAlphaSize : ℕ := 6
def handshakeAlphaAckSize : ℕ := 28
def handshakeBetaSize : ℕ := 28
def handshakeBetaAckSize : ℕ := 5
def closeSize : ℕ := 4
def closeAckSize : ℕ := 4
def streamSegmentHeaderSize : ℕ := 5
def streamAckSize : ℕ := 9
def streamSyncSize : ℕ := 4

def datagramHeaderSize : ℕ := 1 + 4 + 2
def datagramDataSizeMax : ℕ := 65535
def datagramUnrelBit : U8 := 0x01
def datagramFirstBit : U8 := 0x02
def datagramLastBit : U8 := 0x04

def frameTypeMask : U8 := 0x0F
def frameTypeHandshakeAlpha : U8 := 0x00
def frameTypeHandshakeAlphaAck : U8 := 0x01
def frameTypeHandshakeBeta : U8 := 0x02
def frameTypeHandshakeBetaAck : U8 := 0x03
def frameTypeClose : U8 := 0x04
def frameTypeCloseAck : U8 := 0x05
def frameTypeStreamSegment : U8 := 0x06
def frameTypeStreamAck : U8 := 0x07
def frameTypeStreamSegmentAck : U8 := 0x08
def frameTypeStreamSync : U8 := 0x09

def handshakeAlphaFrameSizeMax : ℕ := 1472

/-- `ptr` is given by the bytes that follow it in its buffer. -/
structure Reader where
  ptr : Bytes
  bytesRead : ℕ

namespace Reader

def new (buffer : Bytes) : Reader := ⟨buffer, 0⟩

def readU8 (rd : Reader) : Exec (U8 × Reader) :=
  match rd.ptr with
  | b0 :: ptr => .ok (b0, ⟨ptr, rd.bytesRead + 1⟩)
  | _ => .error .outOfRange

def readU16 (rd : Reader) : Exec (U16 × Reader) :=
  match rd.ptr with
  | b0 :: b1 :: ptr =>
      .ok ((b0.setWidth 16 <<< 8) ||| b1.setWidth 16, ⟨ptr, rd.bytesRead + 2⟩)
  | _ => .error .outOfRange

def readU32 (rd : Reader) : Exec (U32 × Reader) :=
  match rd.ptr with
  | b0 :: b1 :: b2 :: b3 :: ptr =>
      .ok ((b0.setWidth 32 <<< 24) ||| (b1.setWidth 32 <<< 16) ||| (b2.setWidth 32 <<< 8) |||
        b3.setWidth 32, ⟨ptr, rd.bytesRead + 4⟩)
  | _ => .error .outOfRange

def readU64 (rd : Reader) : Exec (U64 × Reader) :=
  match rd.ptr with
  | b0 :: b1 :: b2 :: b3 :: b4 :: b5 :: b6 :: b7 :: ptr =>
      .ok ((b0.setWidth 64 <<< 56) ||| (b1.setWidth 64 <<< 48) ||| (b2.setWidth 64 <<< 40) |||
        (b3.setWidth 64 <<< 32) ||| (b4.setWidth 64 <<< 24) ||| (b5.setWidth 64 <<< 16) |||
        (b6.setWidth 64 <<< 8) ||| b7.setWidth 64, ⟨ptr, rd.bytesRead + 8⟩)
  | _ => .error .outOfRange

end Reader

/-- `room` is what the buffer still holds behind `ptr`. -/
structure Writer where
  room : ℕ
  written : Bytes

namespace Writer

def new (bufferLen : ℕ) : Writer := ⟨bufferLen, []⟩

def bytesWritten (wr : Writer) : ℕ := wr.written.length

def writeSlice (wr : Writer) (bytes : Bytes) : Exec Writer :=
  if bytes.length ≤ wr.room then .ok ⟨wr.room - bytes.length, wr.written ++ bytes⟩
  else .error .outOfRange

def u16Bytes (value : U16) : Bytes := [(value >>> 8).setWidth 8, value.setWidth 8]

def u32Bytes (value : U32) : Bytes :=
  [(value >>> 24).setWidth 8, (value >>> 16).setWidth 8, (value >>> 8).setWidth 8,
    value.setWidth 8]

def u64Bytes (value : U64) : Bytes :=
  [(value >>> 56).setWidth 8, (value >>> 48).setWidth 8, (value >>> 40).setWidth 8,
    (value >>> 32).setWidth 8, (value >>> 24).setWidth 8, (value >>> 16).setWidth 8,
    (value >>> 8).setWidth 8, value.setWidth 8]

def writeU8 (wr : Writer) (value : U8) : Exec Writer := wr.writeSlice [value]
def writeU16 (wr : Writer) (value : U16) : Exec Writer := wr.writeSlice (u16Bytes value)
def writeU32 (wr : Writer) (value : U32) : Exec Writer := wr.writeSlice (u32Bytes value)
def writeU64 (wr : Writer) (value : U64) : Exec Writer := wr.writeSlice (u64Bytes value)

end Writer

class BlockSerial (α : Type) where
  size : ℕ
  read : Reader → Exec (α × Reader)
  write : Writer → α → Exec Writer

/-- `read` also returns the number of bytes it used; `write` is given the length of the
buffer and returns the bytes it wrote. -/
class Serial (α : Type) where
  read : Build → Bytes → Exec (Option (α × ℕ))
  write : Build → ℕ → α → Exec (Option Bytes)

instance {α : Type} [BlockSerial α] : Serial α where
  read bd buffer :=
    if buffer.length < BlockSerial.size α then .ok none
    else do
      let (obj, rd) ← BlockSerial.read (α := α) (Reader.new buffer)
      debugAssert bd (rd.bytesRead = BlockSerial.size α)
      return some (obj, rd.bytesRead)
  write bd bufferLen obj :=
    if bufferLen < BlockSerial.size α then .ok none
    else do
      let wr ← BlockSerial.write (Writer.new bufferLen) obj
      debugAssert bd (wr.bytesWritten = BlockSerial.size α)
      return some wr.written

instance : BlockSerial HandshakeAlphaFrame where
  size := handshakeAlphaSize
  read rd := do
    let (protocolId, rd) ← rd.readU16
    let (clientNonce, rd) ← rd.readU32
    return (⟨protocolId, clientNonce⟩, rd)
  write wr obj := do
    let wr ← wr.writeU16 obj.protocolId
    wr.writeU32 obj.clientNonce

instance : BlockSerial HandshakeAlphaAckFrame where
  size := handshakeAlphaAckSize
  read rd := do
    let (packetSizeInMax, rd) ← rd.readU32
    let (packetSizeOutMax, rd) ← rd.readU32
    let (clientNonce, rd) ← rd.readU32
    let (serverNonce, rd) ← rd.readU32
    let (serverTimestamp, rd) ← rd.readU32
    let (serverMac, rd) ← rd.readU64
    return (⟨⟨packetSizeInMax, packetSizeOutMax⟩, clientNonce, serverNonce, serverTimestamp,
      serverMac⟩, rd)
  write wr obj := do
    let wr ← wr.writeU32 obj.serverParams.packetSizeInMax
    let wr ← wr.writeU32 obj.serverParams.packetSizeOutMax
    let wr ← wr.writeU32 obj.clientNonce
    let wr ← wr.writeU32 obj.serverNonce
    let wr ← wr.writeU32 obj.serverTimestamp
    wr.writeU64 obj.serverMac

instance : BlockSerial HandshakeBetaFrame where
  size := handshakeBetaSize
  read rd := do
    let (packetSizeInMax, rd) ← rd.readU32
    let (packetSizeOutMax, rd) ← rd.readU32
    let (clientNonce, rd) ← rd.readU32
    let (serverNonce, rd) ← rd.readU32
    let (serverTimestamp, rd) ← rd.readU32
    let (serverMac, rd) ← rd.readU64
    return (⟨⟨packetSizeInMax, packetSizeOutMax⟩, clientNonce, serverNonce, serverTimestamp,
      serverMac⟩, rd)
  write wr obj := do
    let wr ← wr.writeU32 obj.clientParams.packetSizeInMax
    let wr ← wr.writeU32 obj.clientParams.packetSizeOutMax
    let wr ← wr.writeU32 obj.clientNonce
    let wr ← wr.writeU32 obj.serverNonce
    let wr ← wr.writeU32 obj.serverTimestamp
    wr.writeU64 obj.serverMac

def handshakeErrorOfStatus (status : U8) : Option HandshakeErrorKind :=
  if status = 0x00 then none
  else if status = 0x01 then some .capacity
  else some .parameter

def statusOfHandshakeError : Option HandshakeErrorKind → U8
  | none => 0x00
  | some .capacity => 0x01
  | some .parameter => 0x02

instance : BlockSerial HandshakeBetaAckFrame where
  size := handshakeBetaAckSize
  read rd := do
    let (status, rd) ← rd.readU8
    let (clientNonce, rd) ← rd.readU32
    return (⟨handshakeErrorOfStatus status, clientNonce⟩, rd)
  write wr obj := do
    let wr ← wr.writeU8 (statusOfHandshakeError obj.error)
    wr.writeU32 obj.clientNonce

instance : BlockSerial CloseFrame where
  size := closeSize
  read rd := do
    let (remoteNonce, rd) ← rd.readU32
    return (⟨remoteNonce⟩, rd)
  write wr obj := wr.writeU32 obj.remoteNonce

instance : BlockSerial CloseAckFrame where
  size := closeAckSize
  read rd := do
    let (remoteNonce, rd) ← rd.readU32
    return (⟨remoteNonce⟩, rd)
  write wr obj := wr.writeU32 obj.remoteNonce

def StreamSegmentHeader.info (obj : StreamSegmentHeader) : U8 :=
  if obj.nonce then 0x01 else 0

instance : BlockSerial StreamSegmentHeader where
  size := streamSegmentHeaderSize
  read rd := do
    let (info, rd) ← rd.readU8
    let (id, rd) ← rd.readU32
    return (⟨id, info &&& 0x01 != 0⟩, rd)
  write wr obj := do
    let wr ← wr.writeU8 obj.info
    wr.writeU32 obj.id

def StreamAck.info (obj : StreamAck) : U8 :=
  (if obj.relFragmentId.isSome then 0x80 else 0) ||| (if obj.segmentChecksum then 0x20 else 0) |||
    (obj.segmentHistory &&& 0x1F)

instance : BlockSerial StreamAck where
  size := streamAckSize
  read rd := do
    let (info, rd) ← rd.readU8
    let (segmentId, rd) ← rd.readU32
    let (relFragmentId, rd) ← rd.readU32
    return (⟨segmentId, info &&& 0x1F, info &&& 0x20 != 0,
      if info &&& 0x80 != 0 then some relFragmentId else none⟩, rd)
  write wr obj := do
    let wr ← wr.writeU8 obj.info
    let wr ← wr.writeU32 obj.segmentId
    wr.writeU32 (obj.relFragmentId.getD 0)

instance : BlockSerial StreamSync where
  size := streamSyncSize
  read rd := do
    let (nextSegmentId, rd) ← rd.readU32
    return (⟨nextSegmentId⟩, rd)
  write wr obj := wr.writeU32 obj.nextSegmentId

def Datagram.infoBits (obj : Datagram) : U8 :=
  (if obj.unrel then datagramUnrelBit else 0) ||| (if obj.first then datagramFirstBit else 0) |||
    (if obj.last then datagramLastBit else 0)

instance : Serial Datagram where
  read bd src :=
    if src.length < datagramHeaderSize then .ok none
    else do
      let (infoBits, rd) ← (Reader.new src).readU8
      let (id, rd) ← rd.readU32
      let (dataLen, rd) ← rd.readU16
      debugAssert bd (rd.bytesRead = datagramHeaderSize)
      if src.length < datagramHeaderSize + dataLen.toNat then return none
      else
        let data ← slice src datagramHeaderSize (datagramHeaderSize + dataLen.toNat)
        return some (⟨id, infoBits &&& datagramUnrelBit != 0, infoBits &&& datagramFirstBit != 0,
          infoBits &&& datagramLastBit != 0, data⟩, datagramHeaderSize + dataLen.toNat)
  write bd dstLen obj :=
    if dstLen < datagramHeaderSize + obj.data.length then .ok none
    else do
      assert (obj.data.length ≤ datagramDataSizeMax)
      let wr ← (Writer.new dstLen).writeU8 obj.infoBits
      let wr ← wr.writeU32 obj.id
      let wr ← wr.writeU16 (BitVec.ofNat 16 obj.data.length)
      debugAssert bd (wr.bytesWritten = datagramHeaderSize)
      let wr ← wr.writeSlice obj.data
      return some wr.written

def typeBits : FrameType → U8
  | .handshakeAlpha => frameTypeHandshakeAlpha
  | .handshakeAlphaAck => frameTypeHandshakeAlphaAck
  | .handshakeBeta => frameTypeHandshakeBeta
  | .handshakeBetaAck => frameTypeHandshakeBetaAck
  | .close => frameTypeClose
  | .closeAck => frameTypeCloseAck
  | .streamSegment => frameTypeStreamSegment
  | .streamAck => frameTypeStreamAck
  | .streamSegmentAck => frameTypeStreamSegmentAck
  | .streamSync => frameTypeStreamSync

/-- `written` is `buffer[..write_idx]`. -/
structure FrameWriter where
  bufferLen : ℕ
  written : Bytes

namespace FrameWriter

def new (bd : Build) (bufferLen : ℕ) (frameType : FrameType) : Exec FrameWriter := do
  debugAssert bd (frameOverheadSize ≤ bufferLen)
  let wr ← (Writer.new bufferLen).writeU8 (typeBits frameType)
  debugAssert bd (wr.bytesWritten = frameHeaderSize)
  return ⟨bufferLen, wr.written⟩

def write {α : Type} [Serial α] (bd : Build) (w : FrameWriter) (obj : α) :
    Exec (FrameWriter × Bool) := do
  let endIdx ← checkedSub bd 64 w.bufferLen frameCrcSize
  if w.written.length ≤ endIdx ∧ endIdx ≤ w.bufferLen then
    match ← Serial.write bd (endIdx - w.written.length) obj with
    | some bytes => return ({ w with written := w.written ++ bytes }, true)
    | none => return (w, false)
  else .error .outOfRange

def finalize (w : FrameWriter) : Exec Bytes :=
  if w.written.length + Crc.size ≤ w.bufferLen then
    .ok (w.written ++ Crc.toLeBytes (Crc.compute w.written))
  else .error .outOfRange

end FrameWriter

structure PayloadReader where
  buffer : Bytes
  readIdx : ℕ

namespace PayloadReader

def new (buffer : Bytes) : PayloadReader := ⟨buffer, 0⟩

def remainingBytes (r : PayloadReader) : Exec Bytes := slice r.buffer r.readIdx r.buffer.length

def read (α : Type) [Serial α] (bd : Build) (r : PayloadReader) :
    Exec (Option α × PayloadReader) := do
  let bytes ← r.remainingBytes
  match ← Serial.read (α := α) bd bytes with
  | some (obj, size) => return (some obj, { r with readIdx := r.readIdx + size })
  | none => return (none, r)

end PayloadReader

def verifyMinimumSize (frameBytes : Bytes) : Bool := decide (frameOverheadSize ≤ frameBytes.length)

def verifyCrc (bd : Build) (buffer : Bytes) : Exec Bool := do
  debugAssert bd (Crc.size ≤ buffer.length)
  let dataLen ← checkedSub bd 64 buffer.length Crc.size
  let data ← slice buffer 0 dataLen
  match ← slice buffer dataLen buffer.length with
  | [b0, b1, b2, b3] => return Crc.compute data == Crc.fromLeBytes b0 b1 b2 b3
  | _ => .error (.expect "called `Result::unwrap()` on an `Err` value")

def verifyHandshakeAlphaSizeAndCrc (bd : Build) (frameBytes : Bytes) (frameSizeMax : ℕ) :
    Exec Bool :=
  if frameBytes.length = min frameSizeMax handshakeAlphaFrameSizeMax then do
    verifyCrc bd (← slice frameBytes 0 (handshakeAlphaSize + frameOverheadSize))
  else .ok false

def verifyHandshakeBetaSizeAndCrc (bd : Build) (frameBytes : Bytes) : Exec Bool :=
  if frameBytes.length = handshakeBetaSize + frameOverheadSize then verifyCrc bd frameBytes
  else .ok false

def frameTypeOfBits (bits : U8) : Option FrameType :=
  if bits = frameTypeHandshakeAlpha then some .handshakeAlpha
  else if bits = frameTypeHandshakeAlphaAck then some .handshakeAlphaAck
  else if bits = frameTypeHandshakeBeta then some .handshakeBeta
  else if bits = frameTypeHandshakeBetaAck then some .handshakeBetaAck
  else if bits = frameTypeClose then some .close
  else if bits = frameTypeCloseAck then some .closeAck
  else if bits = frameTypeStreamSegment then some .streamSegment
  else if bits = frameTypeStreamAck then some .streamAck
  else if bits = frameTypeStreamSegmentAck then some .streamSegmentAck
  else if bits = frameTypeStreamSync then some .streamSync
  else none

def readType (bd : Build) (frameBytes : Bytes) : Exec (Option FrameType) := do
  debugAssert bd (verifyMinimumSize frameBytes)
  let b ← index frameBytes 0
  return frameTypeOfBits (b &&& frameTypeMask)

def payload (bd : Build) (frameBytes : Bytes) : Exec Bytes := do
  debugAssert bd (verifyMinimumSize frameBytes)
  let payloadEnd ← checkedSub bd 64 frameBytes.length frameCrcSize
  slice frameBytes frameHeaderSize payloadEnd

class SimpleFrame (α : Type) extends BlockSerial α where
  frameType : FrameType
  payloadSize : ℕ

def SimpleFrame.frameSize (α : Type) [SimpleFrame α] : ℕ :=
  SimpleFrame.payloadSize α + frameOverheadSize

instance : SimpleFrame HandshakeAlphaFrame := ⟨.handshakeAlpha, handshakeAlphaSize⟩
instance : SimpleFrame HandshakeAlphaAckFrame := ⟨.handshakeAlphaAck, handshakeAlphaAckSize⟩
instance : SimpleFrame HandshakeBetaFrame := ⟨.handshakeBeta, handshakeBetaSize⟩
instance : SimpleFrame HandshakeBetaAckFrame := ⟨.handshakeBetaAck, handshakeBetaAckSize⟩
-- The source declares the handshake sizes for the two close frames.
instance : SimpleFrame CloseFrame := ⟨.close, handshakeBetaSize⟩
instance : SimpleFrame CloseAckFrame := ⟨.closeAck, handshakeBetaAckSize⟩
instance : SimpleFrame StreamSync := ⟨.streamSync, streamSyncSize⟩

namespace SimpleFrameWrite
open SimpleFrame
variable {α : Type} [SimpleFrame α]

def write (bd : Build) (obj : α) (dstLen : ℕ) : Exec Bytes := do
  debugAssert bd (frameSize α ≤ dstLen)
  let wr ← FrameWriter.new bd dstLen (frameType α)
  let (wr, _) ← wr.write bd obj
  wr.finalize

/-- The whole zero-initialized buffer is returned, also where the frame is shorter. -/
def writeBoxed (bd : Build) (obj : α) : Exec Bytes := do
  let wr ← FrameWriter.new bd (frameSize α) (frameType α)
  let (wr, _) ← wr.write bd obj
  let frame ← wr.finalize
  return frame ++ List.replicate (frameSize α - frame.length) 0

end SimpleFrameWrite

/-- `SimplePayloadRead::read`. -/
def readPayload (α : Type) [SimpleFrame α] (bd : Build) (src : Bytes) : Exec (Option α) := do
  let (obj, _) ← (PayloadReader.new src).read α bd
  return obj

def writeHandshakeAlpha (bd : Build) (obj : HandshakeAlphaFrame) (frameSizeMax : ℕ) :
    Exec Bytes := do
  let frameSize := min frameSizeMax handshakeAlphaFrameSizeMax
  let wr ← FrameWriter.new bd frameSize .handshakeAlpha
  let (wr, _) ← wr.write bd obj
  let frame ← wr.finalize
  return frame ++ List.replicate (frameSize - frame.length) 0

end Redpine.Wire
