import Redpine.Machine

/-! SipHash, the keyed hash function of the `siphasher` crate: `c` rounds for every word of the
input and `d` rounds at the end. -/
namespace Redpine.SipHash
open Machine

structure State where
  v0 : U64
  v1 : U64
  v2 : U64
  v3 : U64
  deriving DecidableEq

def init (k0 k1 : U64) : State :=
  ⟨k0 ^^^ 0x736f6d6570736575, k1 ^^^ 0x646f72616e646f6d, k0 ^^^ 0x6c7967656e657261,
    k1 ^^^ 0x7465646279746573⟩

def State.round (s : State) : State :=
  let a := s.v0 + s.v1
  let b := s.v1.rotateLeft 13 ^^^ a
  let c := s.v2 + s.v3
  let d := s.v3.rotateLeft 16 ^^^ c
  let e := a.rotateLeft 32 + d
  let f := c + b
  ⟨e, b.rotateLeft 17 ^^^ f, f.rotateLeft 32, d.rotateLeft 21 ^^^ e⟩

def State.rounds (s : State) (n : ℕ) : State := n.repeat State.round s

def State.compress (c : ℕ) (s : State) (word : U64) : State :=
  let s := { s with v3 := s.v3 ^^^ word }.rounds c
  { s with v0 := s.v0 ^^^ word }

def State.finish (d : ℕ) (s : State) : U64 :=
  let s := { s with v2 := s.v2 ^^^ 0xff }.rounds d
  s.v0 ^^^ s.v1 ^^^ s.v2 ^^^ s.v3

/-- Little endian. -/
def wordOf (bytes : Bytes) : U64 := bytes.foldr (fun byte word => word <<< 8 ||| byte.setWidth 64) 0

/-- The last word holds the bytes that are left and the length of the input. -/
def words (length : ℕ) : Bytes → List U64
  | b0 :: b1 :: b2 :: b3 :: b4 :: b5 :: b6 :: b7 :: rest =>
      wordOf [b0, b1, b2, b3, b4, b5, b6, b7] :: words length rest
  | rest => [wordOf rest ||| BitVec.ofNat 64 length <<< 56]

def hash (c d : ℕ) (k0 k1 : U64) (bytes : Bytes) : U64 :=
  ((words bytes.length bytes).foldl (State.compress c) (init k0 k1)).finish d

/-- The test vector of SipHash-2-4. -/
example : hash 2 4 0x0706050403020100 0x0f0e0d0c0b0a0908
    [0, 1, 2, 3, 4, 5, 6, 7, 8, 9, 10, 11, 12, 13, 14] = 0xa129ca6149be45e5 := by
  decide +kernel

end Redpine.SipHash
