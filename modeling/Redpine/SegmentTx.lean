import Redpine.Machine

/-! The sender's segment window: `endpoint/segment_tx.rs`. The random bit that
`compute_next_nonce` draws is a parameter. -/
namespace Redpine
open Machine

structure SegmentTx where
  baseId : U32
  nextId : U32
  size : U32
  /-- Ring buffer of segment sizes corresponding to [base, next) -/
  transitBuf : List ℕ
  transitBufMask : U32
  /-- Ring buffer of nonce bits corresponding to [base, next) -/
  nonceBuf : List U64
  nonceBufMask : U32
  transitTotal : ℕ
  ackHistory : U32
  nonceHistory : U32
  deriving DecidableEq

namespace SegmentTx

def new (baseId size : U32) : Exec SegmentTx := do
  assert (size ≠ 0 ∧ (size - 1) &&& size = 0)
  assert (64#32 ≤ size)
  return {
    baseId := baseId
    nextId := baseId
    size := size
    transitBuf := List.replicate size.toNat 0
    transitBufMask := size - 1
    nonceBuf := List.replicate (size / 64).toNat 0
    nonceBufMask := size / 64 - 1
    transitTotal := 0
    ackHistory := BitVec.allOnes 32
    nonceHistory := 0 }

/-- The word of the nonce ring that holds the bit of an ID. -/
def nonceIndex (s : SegmentTx) (idx : U32) : ℕ := (idx &&& s.nonceBufMask).toNat

def computeNextNonce (bd : Build) (s : SegmentTx) (nonce : Bool) : Exec SegmentTx := do
  --  id |  0  1  2 ... 61 62 63 | 64 65 66 ...
  -- bit | 63 62 61 ...  2  1  0 | 63 62 61 ...
  let idx := s.nextId / 64
  let bitIdx ← checkedSub bd 32 63 (s.nextId % 64).toNat
  let bitMask ← checkedShl bd 1#64 bitIdx
  let bitfield ← index s.nonceBuf (s.nonceIndex idx)
  let bitfield := if nonce then bitfield ||| bitMask else bitfield &&& ~~~bitMask
  let nonceBuf ← update s.nonceBuf (s.nonceIndex idx) bitfield
  return { s with nonceBuf := nonceBuf }

def canSend (s : SegmentTx) : Bool := decide (s.nextId - s.baseId < s.size)

def markSent (bd : Build) (s : SegmentTx) (size : ℕ) : Exec SegmentTx := do
  debugAssert bd (s.canSend)
  let transitBuf ← update s.transitBuf (s.nextId &&& s.transitBufMask).toNat size
  let transitTotal ← checkedAdd bd 64 s.transitTotal size
  return {
    s with
    transitBuf := transitBuf
    transitTotal := transitTotal
    nextId := s.nextId + 1 }

def bytesInTransit (s : SegmentTx) : ℕ := s.transitTotal

/-- `(1u64 << n) - 1`. -/
def lowMask (bd : Build) (n : ℕ) : Exec U64 := do
  let bit ← checkedShl bd 1#64 n
  return bit - 1

/-- Shifts out room for bits from the nonce buffer. -/
def shiftNonceHistory (bd : Build) (s : SegmentTx) (newBits : ℕ) : Exec U32 :=
  if newBits = 32 then .ok 0 else checkedShl bd s.nonceHistory newBits

/-- The bits [p0, p1) of the nonce buffer, which lie in its bitfields A and B. -/
def extractNonces (bd : Build) (s : SegmentTx) (newBits p1Bits : ℕ) (p0Idx p1Idx : U32) :
    Exec U32 :=
  if p0Idx = p1Idx then do
    -- New bits come from bitfield B only
    let bitfield ← index s.nonceBuf (s.nonceIndex p1Idx)
    let shift ← checkedSub bd 32 64 p1Bits
    let mask ← lowMask bd newBits
    let shifted ← checkedShr bd bitfield shift
    return (shifted &&& mask).setWidth 32
  else if p1Bits = 0 then do
    -- New bits come from bitfield A only
    let bitfield ← index s.nonceBuf (s.nonceIndex p0Idx)
    let mask ← lowMask bd newBits
    return (bitfield &&& mask).setWidth 32
  else do
    -- New bits come from bitfields A and B
    let bitfieldA ← index s.nonceBuf (s.nonceIndex p0Idx)
    let bitfieldB ← index s.nonceBuf (s.nonceIndex p1Idx)
    let maskA ← lowMask bd (← checkedSub bd 32 newBits p1Bits)
    let maskB ← lowMask bd p1Bits
    let shiftB ← checkedSub bd 32 64 p1Bits
    let shiftedB ← checkedShr bd bitfieldB shiftB
    let shiftedA ← checkedShl bd (bitfieldA &&& maskA) p1Bits
    return (shiftedB &&& maskB).setWidth 32 ||| shiftedA.setWidth 32

def updateNonceHistory (bd : Build) (s : SegmentTx) (ackDelta baseIdNew : U32) :
    Exec SegmentTx := do
  -- At most 32 bits [p0, p1) are extracted from the nonce buffer
  let newBits := min ackDelta.toNat 32
  let p1 := baseIdNew
  let p0 := baseIdNew - BitVec.ofNat 32 newBits
  let xNew ← s.shiftNonceHistory bd newBits
  let bits ← s.extractNonces bd newBits (p1 % 64).toNat (p0 / 64) (p1 / 64)
  return { s with nonceHistory := xNew ||| bits }

def expectedChecksum (nonceHistory rxHistory : U32) : Bool :=
  let x := nonceHistory &&& rxHistory
  let x := x ^^^ (x >>> 16)
  let x := x ^^^ (x >>> 8)
  let x := x ^^^ (x >>> 4)
  let x := x ^^^ (x >>> 2)
  let x := x ^^^ (x >>> 1)
  x &&& 0b1 == 0b1

def leadingOnes (x : U32) : ℕ := (~~~x).clz.toNat

def countOnes (x : U32) : ℕ := x.cpop.toNat

def wrappingShl (x : U32) (n : ℕ) : U32 := x <<< (n % 32)

def wrappingShr (x : U32) (n : ℕ) : U32 := x >>> (n % 32)

def updateAckHistory (bd : Build) (s : SegmentTx) (ackDelta rxHistory : U32) (rxChecksum : Bool) :
    Exec (SegmentTx × Bool) :=
  if leadingOnes s.ackHistory < ackDelta.toNat then
    -- Shifting would cause a zero to be >32 bits behind, that's a drop
    .ok ({ s with ackHistory := BitVec.allOnes 32 }, true)
  else
    let shifted := if ackDelta = 32 then 0 else wrappingShl s.ackHistory ackDelta.toNat
    let ackHistory :=
      if expectedChecksum s.nonceHistory rxHistory = rxChecksum then shifted ||| rxHistory
      else shifted
    if ackHistory = BitVec.allOnes 32 then
      .ok ({ s with ackHistory := ackHistory }, false)
    else if wrappingShr ackHistory 31 = 0 then
      -- Oldest unacknowledged segment is 32 IDs old, that's a drop
      .ok ({ s with ackHistory := BitVec.allOnes 32 }, true)
    else do
      let ones := leadingOnes ackHistory
      debugAssert bd (ones < 32)
      let onesAfterZero := countOnes (wrappingShr (wrappingShl ackHistory ones) ones)
      -- Three segments reported after the first unacknowledged one is a drop
      if 3 ≤ onesAfterZero then
        return ({ s with ackHistory := BitVec.allOnes 32 }, true)
      else return ({ s with ackHistory := ackHistory }, false)

/-- Subtracts the sizes of the IDs `base_id + i`, ..., `base_id + i + count - 1`. -/
def subtractTransit (bd : Build) (s : SegmentTx) : (count i total : ℕ) → Exec ℕ
  | 0, _, total => .ok total
  | count + 1, i, total => do
      let size ← index s.transitBuf
        ((s.baseId + BitVec.ofNat 32 i) &&& s.transitBufMask).toNat
      let total ← checkedSub bd 64 total size
      subtractTransit bd s count (i + 1) total

/-- Advances the window to an acknowledged ID. -/
def advance (bd : Build) (s : SegmentTx) (ackDelta rxBaseId : U32) : Exec SegmentTx :=
  if 0#32 < ackDelta then do
    let transitTotal ← subtractTransit bd s ackDelta.toNat 0 s.transitTotal
    let s ← updateNonceHistory bd { s with transitTotal := transitTotal } ackDelta rxBaseId
    return { s with baseId := rxBaseId }
  else .ok s

def acknowledge (bd : Build) (s : SegmentTx) (rxBaseId rxHistory : U32) (rxChecksum : Bool) :
    Exec (SegmentTx × Bool) :=
  let ackDelta := rxBaseId - s.baseId
  -- The delta ack must not exceed the next ID to be sent, else it is invalid
  if ackDelta ≤ s.nextId - s.baseId then do
    -- An ack delta of zero can still update previously received segments
    let s ← s.advance bd ackDelta rxBaseId
    s.updateAckHistory bd ackDelta rxHistory rxChecksum
  else .ok (s, false)

end SegmentTx

end Redpine
