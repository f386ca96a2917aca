import Redpine.Buffer

/-! The receiver's segment window and reorder buffer: `endpoint/segment_rx.rs`.
The calls of the callback are returned in order as the list of their arguments. -/
namespace Redpine
open Machine Buffer

structure Slot where
  id : U32
  nonce : Bool
  data : Bytes
  len : ℕ
  deriving DecidableEq, Repr

structure SegmentRx where
  window : Window
  slot0 : Slot
  slot1 : Slot
  len : ℕ
  rxHistory : U32
  nonceHistory : U32
  deriving DecidableEq, Repr

namespace SegmentRx

def new (windowBaseId windowSize : U32) (segmentSizeMax : ℕ) : SegmentRx where
  window := ⟨windowBaseId, windowSize⟩
  slot0 := ⟨0, false, List.replicate segmentSizeMax 0, 0⟩
  slot1 := ⟨0, false, List.replicate segmentSizeMax 0, 0⟩
  len := 0
  rxHistory := 0
  nonceHistory := 0

/-- Only a prefix of the slot's data is overwritten. -/
def saveSegment (slot : Slot) (id : U32) (nonce : Bool) (data : Bytes) : Exec Slot :=
  if data.length ≤ slot.data.length then
    .ok ⟨id, nonce, data ++ slot.data.drop data.length, data.length⟩
  else .error .outOfRange

/-- `&slot.data[..slot.len]`. -/
def slotData (slot : Slot) : Exec Bytes := slice slot.data 0 slot.len

def swapSlots (bd : Build) (s : SegmentRx) : Exec SegmentRx := do
  debugAssert bd (s.len = 2)
  return { s with slot0 := s.slot1, slot1 := s.slot0 }

def swapSlotsIfBackward (bd : Build) (s : SegmentRx) : Exec SegmentRx := do
  debugAssert bd (s.len = 2)
  let slot0Delta := s.slot0.id - s.window.baseId
  let slot1Delta := s.slot1.id - s.window.baseId
  if slot1Delta < slot0Delta then s.swapSlots bd else return s

def pushHistoryAck (s : SegmentRx) (nonce : Bool) : SegmentRx :=
  { s with
    rxHistory := (s.rxHistory <<< 1) ||| 0b1
    nonceHistory := (s.nonceHistory <<< 1) ||| (BitVec.ofBool nonce).setWidth 32 }

def pushHistorySkips (s : SegmentRx) (count : U32) : SegmentRx :=
  if count < 32 then
    { s with
      rxHistory := s.rxHistory <<< count.toNat
      nonceHistory := s.nonceHistory <<< count.toNat }
  else { s with rxHistory := 0, nonceHistory := 0 }

def advanceWindowPast (s : SegmentRx) (newBaseId : U32) : SegmentRx :=
  { s with window := { s.window with baseId := newBaseId + 1 } }

/-- Delivers the first segment in the buffer, which is the one expected next. -/
def drainStep (bd : Build) (s : SegmentRx) : Exec (SegmentRx × Bytes) := do
  let slot0Data ← slotData s.slot0
  let s := (s.pushHistoryAck s.slot0.nonce).advanceWindowPast s.slot0.id
  let s ← if s.len = 2 then s.swapSlots bd else pure s
  let len ← checkedSub bd 8 s.len 1
  return ({ s with len := len }, slot0Data)

/-- Delivers all segments in the buffer which match the next expected ID. -/
def drainLoop (bd : Build) : (fuel : ℕ) → SegmentRx → List Bytes → Exec (SegmentRx × List Bytes)
  | fuel, s, delivered =>
      if 0 < s.len ∧ s.slot0.id = s.window.baseId then
        match fuel with
        | 0 => .error .fuel
        | fuel + 1 => do
            let (s, slot0Data) ← s.drainStep bd
            drainLoop bd fuel s (delivered ++ [slot0Data])
      else .ok (s, delivered)

/-- The return value of the source is the field `len` of the state returned here. -/
def receive (bd : Build) (s : SegmentRx) (newId : U32) (newNonce : Bool) (newData : Bytes) :
    Exec (SegmentRx × List Bytes) :=
  -- Only consider segments in the current window
  if s.window.contains newId then
    if newId = s.window.baseId then
      -- This segment is expected next, deliver
      let s := (s.pushHistoryAck newNonce).advanceWindowPast newId
      drainLoop bd s.len s [newData]
    else if s.len = 0 then do
      let slot0 ← saveSegment s.slot0 newId newNonce newData
      return ({ s with slot0 := slot0, len := 1 }, [])
    else if s.len = 1 then
      if s.slot0.id ≠ newId then do
        let slot1 ← saveSegment s.slot1 newId newNonce newData
        let s ← swapSlotsIfBackward bd { s with slot1 := slot1, len := 2 }
        return (s, [])
      else .ok (s, [])
    else if s.len = 2 then
      if s.slot0.id ≠ newId ∧ s.slot1.id ≠ newId then
        let newDelta := newId - s.window.baseId
        let slot0Delta := s.slot0.id - s.window.baseId
        if newDelta < slot0Delta then
          -- The latest segment is the newest of the three; unreceived segments are skipped
          let s := ((s.pushHistorySkips newDelta).pushHistoryAck newNonce).advanceWindowPast newId
          drainLoop bd s.len s [newData]
        else do
          -- The first segment in the buffer is the newest of the three
          let slot0Data ← slotData s.slot0
          let s := ((s.pushHistorySkips slot0Delta).pushHistoryAck s.slot0.nonce).advanceWindowPast
            s.slot0.id
          let slot0 ← saveSegment s.slot0 newId newNonce newData
          let s ← swapSlotsIfBackward bd { s with slot0 := slot0 }
          drainLoop bd s.len s [slot0Data]
      else drainLoop bd s.len s []
    else .error (.unreachable "invalid buffer length")
  else .ok (s, [])

/-- Delivers the segment in `slot`, skipping the segments before it. -/
def deliverSlot (s : SegmentRx) (slot : Slot) : Exec (SegmentRx × Bytes) := do
  let data ← slotData slot
  let delta := slot.id - s.window.baseId
  return (((s.pushHistorySkips delta).pushHistoryAck slot.nonce).advanceWindowPast slot.id, data)

def minDelta (s : SegmentRx) : U32 :=
  if s.len = 1 then s.slot0.id - s.window.baseId
  else if s.len = 2 then s.slot1.id - s.window.baseId
  else s.window.baseId

/-- Delivers outstanding segments. -/
def deliverOutstanding (s : SegmentRx) : Exec (SegmentRx × List Bytes) :=
  if 0 < s.len then do
    let (s, data0) ← s.deliverSlot s.slot0
    if s.len = 2 then
      let (s, data1) ← s.deliverSlot s.slot1
      return (s, [data0, data1])
    else return (s, [data0])
  else .ok (s, [])

/-- Advances the window to complete a sync. -/
def completeSync (s : SegmentRx) (nextSegmentId : U32) : SegmentRx :=
  let remainingDelta := nextSegmentId - s.window.baseId
  let s := s.pushHistorySkips remainingDelta
  { s with window := { s.window with baseId := nextSegmentId } }

def sync (s : SegmentRx) (nextSegmentId : U32) : Exec (SegmentRx × List Bytes) :=
  -- Only accept syncs which exceed the last outstanding segment (if any)
  let delta := nextSegmentId - s.window.baseId
  if s.minDelta < delta ∧ delta ≤ s.window.size then do
    let (s, delivered) ← s.deliverOutstanding
    return (completeSync { s with len := 0 } nextSegmentId, delivered)
  else .ok (s, [])

def nextExpectedId (s : SegmentRx) : U32 := s.window.baseId

def computeChecksum (rxHistory nonceHistory : U8) : Bool :=
  let x := rxHistory &&& nonceHistory
  let x := x ^^^ (x >>> 4)
  let x := x ^^^ (x >>> 2)
  let x := x ^^^ (x >>> 1)
  x &&& 0b1 == 0b1

def nextAckInfo (s : SegmentRx) : U8 × Bool :=
  let rxHistory := (s.rxHistory &&& 0x1F).setWidth 8
  let nonceHistory := s.nonceHistory.setWidth 8
  (rxHistory, computeChecksum rxHistory nonceHistory)

end SegmentRx

end Redpine
