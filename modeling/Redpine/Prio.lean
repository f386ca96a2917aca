import Redpine.Machine

/-! Channel prioritization: `endpoint/prio.rs`. -/
namespace Redpine.Prio
open Machine

def channelCount : ℕ := 4
def dataSizeMax : ℕ := 65535
def burstSizeMax : ℕ := dataSizeMax * 255
def weightMax : ℕ := 256

instance : NeZero channelCount := ⟨by decide⟩

abbrev Channel := Fin channelCount

structure Config where
  weights : Channel → ℕ
  counterMax : ℕ

def mul3 (bd : Build) (a b c : ℕ) : Exec ℕ := do
  checkedMul bd 32 (← checkedMul bd 32 a b) c

def Config.new (bd : Build) (weights : Channel → ℕ) (burstSize : ℕ) : Exec Config := do
  assert (∀ i, weights i ≠ 0 ∧ weights i ≤ weightMax)
  let product ← mul3 bd (weights 0) (weights 1) (weights 2)
  assert (product ≤ weightMax / weights 3)
  assert (burstSize ≠ 0)
  assert (burstSize ≤ burstSizeMax)
  let w0 ← mul3 bd (weights 1) (weights 2) (weights 3)
  let w1 ← mul3 bd (weights 0) (weights 2) (weights 3)
  let w2 ← mul3 bd (weights 0) (weights 1) (weights 3)
  let w3 ← mul3 bd (weights 0) (weights 1) (weights 2)
  let totalProduct ← checkedMul bd 32 (← mul3 bd (weights 0) (weights 1) (weights 2)) (weights 3)
  let counterMax ← checkedMul bd 32 (burstSize % 2 ^ 32) totalProduct
  return ⟨![w0, w1, w2, w3], counterMax⟩

end Redpine.Prio

namespace Redpine
open Machine Prio

structure Prio where
  counters : Channel → ℕ
  weights : Channel → ℕ
  counterMax : ℕ

namespace Prio

def new (config : Config) : Prio := ⟨fun _ => 0, config.weights, config.counterMax⟩

/-- One of the four tests of `next`, which keep the channel found so far and its counter. -/
def consider (p : Prio) (ready : Bool) (i : Channel) (best : Option (Channel × ℕ)) :
    Option (Channel × ℕ) :=
  match best with
  | none => if ready then some (i, p.counters i) else none
  | some (j, minVal) =>
      if ready && decide (p.counters i < minVal) then some (i, p.counters i) else some (j, minVal)

def next (p : Prio) (ch0 ch1 ch2 ch3 : Bool) : Option Channel :=
  let best := p.consider ch0 0 none
  let best := p.consider ch1 1 best
  let best := p.consider ch2 2 best
  let best := p.consider ch3 3 best
  best.map Prod.fst

def markSent (bd : Build) (p : Prio) (channelIdx : Channel) (dataSize : ℕ) : Exec Prio := do
  debugAssert bd (dataSize ≤ dataSizeMax)
  let weightedSize ← checkedMul bd 32 (dataSize % 2 ^ 32) (p.weights channelIdx)
  let counter := (p.counters channelIdx + weightedSize) % 2 ^ 32
  let counters := Function.update p.counters channelIdx counter
  if p.counterMax < counter then
    let excess := counter - p.counterMax
    return { p with counters := fun i => counters i - excess }
  else return { p with counters := counters }

end Prio

end Redpine
