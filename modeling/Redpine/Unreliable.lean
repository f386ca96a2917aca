import Redpine.Buffer

/-! The unreliable fragment buffers: `buffer/unreliable.rs`. -/
namespace Redpine.Unreliable
open Machine Buffer

structure TxEntry where
  fragment : FragmentRc
  expireTimeMs : ℕ
  deriving DecidableEq, Repr

structure TxBuffer where
  fragments : List TxEntry
  nextFragmentId : U32
  fragmentSize : ℕ
  fragmentSize_pos : 0 < fragmentSize

namespace TxBuffer

def new (baseId : U32) (fragmentSize : ℕ) : Exec TxBuffer :=
  if h : 0 < fragmentSize then .ok ⟨[], baseId, fragmentSize, h⟩ else .error .assertion

def push (b : TxBuffer) (packet : Bytes) (expireTimeMs : ℕ) : TxBuffer :=
  { b with
    fragments := b.fragments ++ (fragmentsOf b.fragmentSize packet).map (⟨·, expireTimeMs⟩) }

/-- Pops all fragments from the front of the queue which have expired. -/
def popExpired (b : TxBuffer) (nowMs : ℕ) : TxBuffer :=
  { b with fragments := b.fragments.dropWhile (fun entry => decide (entry.expireTimeMs ≤ nowMs)) }

def peekSendable (b : TxBuffer) : Option (U32 × FragmentRc) :=
  match b.fragments with
  | entry :: _ => some (b.nextFragmentId, entry.fragment)
  | [] => none

def popSendable (b : TxBuffer) : Option (U32 × FragmentRc) × TxBuffer :=
  match b.fragments with
  | entry :: rest =>
      (some (b.nextFragmentId, entry.fragment),
        { b with fragments := rest, nextFragmentId := b.nextFragmentId + 1 })
  | [] => (none, b)

end TxBuffer

structure RxBuffer where
  fragmentSize : ℕ
  baseId : U32
  currentBuild : Option PacketBuild
  fragmentSize_pos : 0 < fragmentSize

namespace RxBuffer

def new (baseId : U32) (fragmentSize : ℕ) : Exec RxBuffer :=
  if h : 0 < fragmentSize then .ok ⟨fragmentSize, baseId, none, h⟩ else .error .assertion

def receive (b : RxBuffer) (fragmentId : U32) (fragment : FragmentRef) :
    RxBuffer × Option Bytes :=
  if fragmentIsValid fragment b.fragmentSize then
    if fragment.first then
      if fragment.last then
        -- A one-fragment packet invalidates the previous assembly
        ({ b with currentBuild := none, baseId := fragmentId + 1 }, some fragment.data)
      else
        ({ b with currentBuild := some ⟨fragment.data⟩, baseId := fragmentId + 1 }, none)
    else if fragmentId = b.baseId then
      match b.currentBuild with
      | some build =>
          let buffer := build.buffer ++ fragment.data
          if fragment.last then
            ({ b with currentBuild := none, baseId := fragmentId + 1 }, some buffer)
          else ({ b with currentBuild := some ⟨buffer⟩, baseId := fragmentId + 1 }, none)
      | none => (b, none)
    else (b, none)
  else (b, none)

def reset (b : RxBuffer) : RxBuffer := { b with currentBuild := none }

end RxBuffer

end Redpine.Unreliable
