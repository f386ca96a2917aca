import Redpine.Crc
import Redpine.Lfsr

/-! The table of `frame/serial/crc.rs` takes eight steps of the shift register at once, the
complement before and after them included. -/
namespace Redpine.Crc
open Machine Lfsr

/-- The XOR factor of the shift register. -/
def factor : U32 := 0x9960034C

/-- One byte as taken in by the shift register. -/
def registerByte (reg : U32) (byte : U8) : U32 := (shift factor)^[8] (reg ^^^ byte.setWidth 32)

lemma and_one_ne_zero (reg : U32) : reg &&& 1 ≠ 0 ↔ reg.getLsbD 0 = true := by
  have hand : reg &&& 1 = (BitVec.ofBool (reg.getLsbD 0)).setWidth 32 :=
    BitVec.and_one_eq_setWidth_ofBool_getLsbD
  rw [hand]
  cases reg.getLsbD 0 <;> decide

lemma extendSlow_eq (c : U32) (data : Bytes) :
    extendSlow c data = ~~~ data.foldl registerByte (~~~ c) := by
  have hshift : (fun reg : U32 => if reg &&& 1 ≠ 0 then (reg >>> 1) ^^^ 0x9960034C else reg >>> 1) =
      shift factor := by
    funext reg
    exact if_congr (and_one_ne_zero reg) rfl rfl
  unfold extendSlow
  simp only [hshift]
  rfl

/-- The entries hold the complement of the index and of the eight bits that move up from above. -/
lemma partialResults_toList : partialResults.toList = (List.finRange 256).map fun j =>
    0xFF000000 ^^^ (shift factor)^[8] (((BitVec.ofFin j : U8) ^^^ 0xFF).setWidth 32) := by
  decide +kernel

lemma partialResults_eq (i : U8) :
    partialResults.get i.toFin = 0xFF000000 ^^^ (shift factor)^[8] ((i ^^^ 0xFF).setWidth 32) := by
  have hlen : i.toFin.val < partialResults.toList.length := by
    rw [Vector.length_toList]
    exact i.toFin.isLt
  have hget : partialResults.get i.toFin = partialResults.toList[i.toFin.val] := by
    rw [Vector.get_eq_getElem, Vector.getElem_toList]
  rw [hget, List.getElem_of_eq partialResults_toList hlen, List.getElem_map, List.getElem_finRange]
  rfl

lemma shiftRight_complement (c : U32) : ~~~ c >>> 8 = ~~~ (c >>> 8) ^^^ 0xFF000000 := by
  refine BitVec.eq_of_getLsbD_eq fun i hi => ?_
  have hmask : ∀ i < 32, (0xFF000000 : U32).getLsbD i = decide (24 ≤ i) := by decide
  rw [BitVec.getLsbD_xor, hmask i hi]
  by_cases hhigh : 24 ≤ i
  · simp [hi, hhigh, show ¬ 8 + i < 32 by omega, BitVec.getLsbD_of_ge c (8 + i) (by omega)]
  · simp [hi, hhigh, show 8 + i < 32 by omega]

lemma registerByte_complement (c : U32) (byte : U8) :
    ~~~ registerByte (~~~ c) byte =
      (c >>> 8) ^^^ partialResults.get (c.setWidth 8 ^^^ byte).toFin := by
  have hlow : (~~~ c ^^^ byte.setWidth 32).setWidth 8 = (c.setWidth 8 ^^^ byte) ^^^ 0xFF := by
    have hmask : (0xFF : U8) = BitVec.allOnes 8 := rfl
    rw [hmask, BitVec.xor_allOnes, BitVec.setWidth_xor, BitVec.setWidth_not (by decide),
      BitVec.not_xor_left]
    simp
  have hhigh : (~~~ c ^^^ byte.setWidth 32) >>> 8 = ~~~ c >>> 8 := by
    refine BitVec.eq_of_getLsbD_eq fun i hi => ?_
    simp
  rw [registerByte, iterate_shift_split, hlow, hhigh, shiftRight_complement, partialResults_eq]
  generalize (shift factor)^[8] (((c.setWidth 8 ^^^ byte) ^^^ 0xFF).setWidth 32) = below
  refine BitVec.eq_of_getLsbD_eq fun i hi => ?_
  simp only [BitVec.getLsbD_not, BitVec.getLsbD_xor, hi, decide_true, Bool.true_and]
  cases below.getLsbD i <;> cases (c >>> 8).getLsbD i <;>
    cases (0xFF000000 : U32).getLsbD i <;> rfl

lemma extend_cons (c : U32) (byte : U8) (data : Bytes) :
    extend c (byte :: data) =
      extend ((c >>> 8) ^^^ partialResults.get (c.setWidth 8 ^^^ byte).toFin) data := rfl

lemma extend_append (c : U32) (a b : Bytes) : extend c (a ++ b) = extend (extend c a) b :=
  List.foldl_append

lemma extend_eq_register (c : U32) (data : Bytes) :
    extend c data = ~~~ data.foldl registerByte (~~~ c) := by
  induction data generalizing c with
  | nil => exact BitVec.not_not.symm
  | cons byte data ih =>
    rw [extend_cons, ih, ← registerByte_complement, BitVec.not_not, List.foldl_cons]

/-- The table computes the CRC of the shift register, and in any number of pieces. -/
theorem extend_table (c : U32) :
    (∀ data, extend c data = extendSlow c data) ∧
      ∀ a b, extend (extend c a) b = extend c (a ++ b) :=
  ⟨fun data => (extend_eq_register c data).trans (extendSlow_eq c data).symm,
    fun a b => (extend_append c a b).symm⟩

end Redpine.Crc
