import Redpine.Wire
import Redpine.Prio
import Redpine.Reliable
import Redpine.Unreliable

/-! The two send queues of an endpoint: `FragmentTxBuffers` of `endpoint/mod.rs`. -/
namespace Redpine
open Machine Buffer Wire

inductive SendMode
  | reliable
  | unreliable (timeoutMs : U16)
  deriving DecidableEq, Repr

structure FragmentTxBuffers where
  unrel : Unreliable.TxBuffer
  rel : Reliable.TxBuffer
  prio : Prio

namespace FragmentTxBuffers

def new (windowBaseId windowSize : U32) (fragmentSize : ℕ) (prioConfig : Prio.Config) :
    Exec FragmentTxBuffers := do
  let unrel ← Unreliable.TxBuffer.new windowBaseId fragmentSize
  let rel ← Reliable.TxBuffer.new windowBaseId fragmentSize windowSize
  return ⟨unrel, rel, Prio.new prioConfig⟩

def enqueue (bd : Build) (b : FragmentTxBuffers) (packetBytes : Bytes) (mode : SendMode)
    (nowMs : ℕ) : Exec FragmentTxBuffers :=
  match mode with
  | .reliable => .ok { b with rel := b.rel.push packetBytes }
  | .unreliable timeoutMs => do
      let expireTimeMs ← checkedAdd bd 64 (← checkedAdd bd 64 nowMs timeoutMs.toNat) 1
      return { b with unrel := b.unrel.push packetBytes expireTimeMs }

def acknowledge (bd : Build) (b : FragmentTxBuffers) (relFragmentId : Option U32) :
    Exec FragmentTxBuffers :=
  match relFragmentId with
  | some id => do
      let (rel, _) ← b.rel.acknowledge bd id
      return { b with rel := rel }
  | none => .ok b

def handleTimeout (b : FragmentTxBuffers) : FragmentTxBuffers :=
  { b with rel := b.rel.resendAll }

def popExpired (b : FragmentTxBuffers) (nowMs : ℕ) : FragmentTxBuffers :=
  { b with unrel := b.unrel.popExpired nowMs }

/-- Whether `data_ready` finds something to send, once expired fragments are gone. -/
def sendable (b : FragmentTxBuffers) : Bool :=
  b.unrel.peekSendable.isSome || b.rel.peekSendable.isSome

def dataReady (b : FragmentTxBuffers) (nowMs : ℕ) : FragmentTxBuffers × Bool :=
  (b.popExpired nowMs, (b.popExpired nowMs).sendable)

/-- The channel that `flush` serves next, with the ID and fragment at its front. -/
def nextFragment (b : FragmentTxBuffers) : Exec (Option (Prio.Channel × U32 × FragmentRc)) :=
  let unrelNext := b.unrel.peekSendable
  let relNext := b.rel.peekSendable
  match b.prio.next unrelNext.isSome relNext.isSome false false with
  | none => .ok none
  | some channelIdx => do
      let next ←
        if channelIdx = 0 then pure unrelNext
        else if channelIdx = 1 then pure relNext
        else .error (.unreachable "NANI?")
      match next with
      | some (id, fragment) => return some (channelIdx, id, fragment)
      | none => .error (.expect "called `Option::unwrap()` on a `None` value")

def popChannel (b : FragmentTxBuffers) (channelIdx : Prio.Channel) : Exec FragmentTxBuffers :=
  if channelIdx = 0 then
    match b.unrel.popSendable with
    | (some _, unrel) => .ok { b with unrel := unrel }
    | (none, _) => .error (.expect "NANI?")
  else if channelIdx = 1 then
    match b.rel.popSendable with
    | (some _, rel) => .ok { b with rel := rel }
    | (none, _) => .error (.expect "NANI?")
  else .error (.unreachable "NANI?")

def datagramOf (channelIdx : Prio.Channel) (id : U32) (fragment : FragmentRc) : Exec Datagram := do
  return {
    id := id
    unrel := channelIdx = 0
    first := fragment.first
    last := fragment.last
    data := ← fragment.bytes }

/-- One iteration of `flush`: the frame and the size written, or `none` to stop. -/
def flushStep (bd : Build) (b : FragmentTxBuffers) (writer : FrameWriter) (nowMs : ℕ) :
    Exec (FragmentTxBuffers × Option (FrameWriter × ℕ)) := do
  let b := b.popExpired nowMs
  match ← b.nextFragment with
  | none => return (b, none)
  | some (channelIdx, id, fragment) =>
      let datagram ← datagramOf channelIdx id fragment
      match ← writer.write bd datagram with
      | (writer, true) =>
          let prio ← b.prio.markSent bd channelIdx datagram.data.length
          let b ← popChannel { b with prio := prio } channelIdx
          return (b, some (writer, datagram.data.length))
      | (_, false) => return (b, none)

def flushLoop (bd : Build) (nowMs : ℕ) :
    (fuel : ℕ) → FragmentTxBuffers → FrameWriter → (dataSizeTotal : ℕ) →
      Exec (FragmentTxBuffers × FrameWriter × ℕ)
  | 0, _, _, _ => .error .fuel
  | fuel + 1, b, writer, dataSizeTotal => do
      match ← b.flushStep bd writer nowMs with
      | (b, some (writer, dataSize)) =>
          let dataSizeTotal ← checkedAdd bd 64 dataSizeTotal dataSize
          flushLoop bd nowMs fuel b writer dataSizeTotal
      | (b, none) => return (b, writer, dataSizeTotal)

/-- Every iteration but the last takes a fragment from one of the queues. -/
def flush (bd : Build) (b : FragmentTxBuffers) (writer : FrameWriter) (nowMs : ℕ) :
    Exec (FragmentTxBuffers × FrameWriter × ℕ) :=
  flushLoop bd nowMs (b.unrel.fragments.length + b.rel.fragments.length + 1) b writer 0

end FragmentTxBuffers

end Redpine
