import Redpine.CrcTable
import Redpine.WireCodec

/-! What the CRC of a frame detects: flips that lie close together, and any odd number of flips. -/
namespace Redpine.Crc
open Machine Lfsr Wire

/-- The bits of some bytes, the low end of each byte first. -/
def bits (data : Bytes) : List Bool := data.flatMap fun byte => (List.range 8).map byte.getLsbD

def xorBytes (frame error : Bytes) : Bytes := List.zipWith (· ^^^ ·) frame error

/-- The number of bits that are flipped. -/
def weight (error : Bytes) : ℕ := (bits error).count true

/-- All ones lie within 32 bits that follow each other. -/
def IsBurst (error : Bytes) : Prop :=
  ∃ first, ∀ i : ℕ, (bits error)[i]? = some true → first ≤ i ∧ i < first + 32

lemma bits_cons (byte : U8) (data : Bytes) :
    bits (byte :: data) = (List.range 8).map byte.getLsbD ++ bits data := rfl

lemma bits_append (as bs : Bytes) : bits (as ++ bs) = bits as ++ bits bs :=
  List.flatMap_append

lemma bits_length (data : Bytes) : (bits data).length = 8 * data.length := by
  induction data with
  | nil => rfl
  | cons byte data ih =>
    rw [bits_cons, List.length_append, ih, List.length_map, List.length_range, List.length_cons]
    ring

lemma xorBytes_length {frame error : Bytes} (h : error.length = frame.length) :
    (xorBytes frame error).length = frame.length := by
  simp [xorBytes, h]

lemma bits_xorBytes {frame error : Bytes} (h : error.length = frame.length) :
    bits (xorBytes frame error) = List.zipWith xor (bits frame) (bits error) := by
  induction frame generalizing error with
  | nil => rw [List.length_eq_zero_iff.mp h]; rfl
  | cons byte frame ih =>
    cases error with
    | nil => cases h
    | cons flip error =>
      have hbyte : (List.range 8).map (byte ^^^ flip).getLsbD =
          List.zipWith xor ((List.range 8).map byte.getLsbD) ((List.range 8).map flip.getLsbD) := by
        simp [List.range_succ]
      rw [bits_cons, bits_cons, List.zipWith_append (by simp), ← ih (Nat.succ.inj h), ← hbyte]
      rfl

/-- The shift register takes in a byte as its bits. -/
lemma feed_bits (reg : U32) (data : Bytes) :
    feed factor reg (bits data) = data.foldl registerByte reg := by
  induction data generalizing reg with
  | nil => rfl
  | cons byte data ih =>
    have hword : word ((List.range 8).map byte.getLsbD) = byte.setWidth 32 := by
      have hbyte : (List.range 8).map byte.getLsbD =
          (List.range 8).map (byte.setWidth 32).getLsbD := by
        simp [List.range_succ]
      rw [hbyte]
      refine word_of_getLsbD _ fun i hi => ?_
      rw [BitVec.getLsbD_setWidth, BitVec.getLsbD_of_ge byte i hi, Bool.and_false]
    rw [bits_cons, feed_append, ih, List.foldl_cons, feed_eq_iterate factor (by simp), hword,
      List.length_map, List.length_range, registerByte]

lemma toLeBytes_fromLeBytes (b0 b1 b2 b3 : U8) :
    toLeBytes (fromLeBytes b0 b1 b2 b3) = [b0, b1, b2, b3] := by
  have hbyte : ∀ x : U32, ∀ b : U8, (∀ i < 8, x.getLsbD i = b.getLsbD i) → x.setWidth 8 = b := by
    intro x b h
    refine BitVec.eq_of_getLsbD_eq fun i hi => ?_
    rw [BitVec.getLsbD_setWidth, h i hi, decide_eq_true hi, Bool.true_and]
  unfold toLeBytes
  rw [hbyte (fromLeBytes b0 b1 b2 b3) b0, hbyte (fromLeBytes b0 b1 b2 b3 >>> 8) b1,
    hbyte (fromLeBytes b0 b1 b2 b3 >>> 16) b2, hbyte (fromLeBytes b0 b1 b2 b3 >>> 24) b3]
  all_goals
    intro i hi
    simp only [fromLeBytes, BitVec.getLsbD_ushiftRight, BitVec.getLsbD_or,
      BitVec.getLsbD_shiftLeft, BitVec.getLsbD_setWidth]
    interval_cases i <;> simp

lemma bits_toLeBytes (crc : U32) : bits (toLeBytes crc) = (List.range 32).map crc.getLsbD := by
  simp [bits, toLeBytes, List.range_succ]

lemma feed_toLeBytes (reg crc : U32) :
    feed factor reg (bits (toLeBytes crc)) = (shift factor)^[32] (reg ^^^ crc) := by
  have hword : word ((List.range 32).map crc.getLsbD) = crc :=
    word_of_getLsbD crc fun i hi => BitVec.getLsbD_of_ge crc i hi
  rw [bits_toLeBytes, feed_eq_iterate factor (by simp), hword, List.length_map, List.length_range]

/-- What an undamaged frame leaves in the shift register. -/
def residue : U32 := (shift factor)^[32] (BitVec.allOnes 32)

lemma factor_high : factor.getLsbD (32 - 1) = true := by decide

/-- The CRC of the frame is right if the register ends at the residue. -/
lemma compute_eq_iff (data : Bytes) (crc : U32) :
    compute data = crc ↔
      feed factor (BitVec.allOnes 32) (bits (data ++ toLeBytes crc)) = residue := by
  have hones : ~~~ initialCrc = BitVec.allOnes 32 := rfl
  rw [compute, extend_eq_register, ← feed_bits, hones, bits_append, feed_append, feed_toLeBytes,
    residue, (iterate_shift_injective factor factor_high 32).eq_iff]
  generalize feed factor (BitVec.allOnes 32) (bits data) = reg
  constructor
  · intro hcrc
    rw [← hcrc, ← BitVec.not_xor_right, BitVec.xor_self, ← BitVec.allOnes_sub_eq_not]
    rfl
  · intro hones
    rw [← BitVec.xor_allOnes, ← hones, ← BitVec.xor_assoc, BitVec.xor_self, BitVec.zero_xor]

lemma length_of_verifyCrc {bd : Build} {buffer : Bytes} {b : Bool}
    (h : verifyCrc bd buffer = .ok b) : 4 ≤ buffer.length := by
  by_contra hshort
  unfold verifyCrc at h
  obtain ⟨u, hassert, h⟩ := bind_eq_ok.mp h
  obtain ⟨dataLen, hsub, h⟩ := bind_eq_ok.mp h
  obtain ⟨data, hslice, h⟩ := bind_eq_ok.mp h
  cases bd with
  | debug => exact hshort (debugAssert_eq_ok.mp hassert rfl)
  | release =>
    unfold checkedSub at hsub
    rw [if_neg (show ¬ size ≤ buffer.length from hshort), if_neg (by decide)] at hsub
    have hwrapped := Except.ok.inj hsub
    unfold slice at hslice
    rw [size] at hwrapped
    rw [if_neg (by omega)] at hslice
    cases hslice

lemma beq_congr {a b c d : U32} (h : a = b ↔ c = d) : (a == b) = (c == d) := by
  rw [Bool.eq_iff_iff, beq_iff_eq, beq_iff_eq]
  exact h

/-- A frame is accepted if the register ends at the residue. -/
lemma verifyCrc_eq (bd : Build) {buffer : Bytes} (h : 4 ≤ buffer.length) :
    verifyCrc bd buffer = .ok (feed factor (BitVec.allOnes 32) (bits buffer) == residue) := by
  obtain ⟨data, crc, rfl⟩ : ∃ data crc, buffer = data ++ toLeBytes crc := by
    have hlast : (buffer.drop (buffer.length - 4)).length = 4 := by
      rw [List.length_drop]
      omega
    obtain ⟨b0, b1, b2, b3, htail⟩ := List.length_eq_four.mp hlast
    refine ⟨buffer.take (buffer.length - 4), fromLeBytes b0 b1 b2 b3, ?_⟩
    rw [toLeBytes_fromLeBytes, ← htail, List.take_append_drop]
  rw [verifyCrc_toLeBytes, beq_congr (compute_eq_iff data crc)]

/-- Flips go unseen if the register alone would return to zero over them. -/
lemma verifyCrc_xorBytes {bd : Build} {frame error : Bytes} (h : verifyCrc bd frame = .ok true)
    (hlen : error.length = frame.length) :
    verifyCrc bd (xorBytes frame error) = .ok (feed factor 0#32 (bits error) == 0#32) := by
  have hsize := length_of_verifyCrc h
  have hsize' : 4 ≤ (xorBytes frame error).length := by rwa [xorBytes_length hlen]
  have hbits : (bits frame).length = (bits error).length := by
    rw [bits_length, bits_length, hlen]
  have hframe : feed factor (BitVec.allOnes 32) (bits frame) = residue := by
    rw [verifyCrc_eq bd hsize] at h
    exact beq_iff_eq.mp (Except.ok.inj h)
  have hsum := feed_xor factor hbits (BitVec.allOnes 32) 0#32
  rw [BitVec.xor_zero, hframe, ← bits_xorBytes hlen] at hsum
  rw [verifyCrc_eq bd hsize', hsum]
  refine congrArg Except.ok (beq_congr ?_)
  constructor
  · intro hres
    have hxor := congrArg (residue ^^^ ·) hres
    simpa only [← BitVec.xor_assoc, BitVec.xor_self, BitVec.zero_xor] using hxor
  · intro hzero
    rw [hzero, BitVec.xor_zero]

lemma rejected_of_feed {bd : Build} {frame error : Bytes} (h : verifyCrc bd frame = .ok true)
    (hlen : error.length = frame.length) (hfeed : feed factor 0#32 (bits error) ≠ 0#32) :
    verifyCrc bd (xorBytes frame error) = .ok false := by
  rw [verifyCrc_xorBytes h hlen, beq_false_of_ne hfeed]

lemma factor_odd : value (1 : ZMod 2) factor = 1 := by
  rfl

/-- The bits of a burst, and zeros before and after it. -/
lemma bits_of_burst {error : Bytes} (hburst : IsBurst error) (hsome : true ∈ bits error) :
    ∃ m n burst, bits error = List.replicate m false ++ burst ++ List.replicate n false ∧
      burst.length ≤ 32 ∧ true ∈ burst := by
  obtain ⟨first, hfirst⟩ := hburst
  have hfalse : ∀ xs : List Bool, true ∉ xs → xs = List.replicate xs.length false := by
    intro xs hxs
    refine List.eq_replicate_of_mem fun b hb => ?_
    cases b with
    | false => rfl
    | true => exact absurd hb hxs
  have hbefore : true ∉ (bits error).take first := by
    intro hmem
    obtain ⟨i, hi, hbit⟩ := List.mem_take_iff_getElem.mp hmem
    have := hfirst i (List.getElem?_eq_some_iff.mpr ⟨by omega, hbit⟩)
    omega
  have hafter : true ∉ (bits error).drop (first + 32) := by
    intro hmem
    obtain ⟨i, hi, hbit⟩ := List.mem_drop_iff_getElem.mp hmem
    have := hfirst (first + 32 + i) (List.getElem?_eq_some_iff.mpr ⟨by omega, hbit⟩)
    omega
  have hsplit : bits error = (bits error).take first ++ ((bits error).drop first).take 32 ++
      (bits error).drop (first + 32) := by
    rw [List.append_assoc, ← List.drop_drop, List.take_append_drop, List.take_append_drop]
  refine ⟨((bits error).take first).length, ((bits error).drop (first + 32)).length,
    ((bits error).drop first).take 32, ?_, List.length_take_le 32 _, ?_⟩
  · rw [← hfalse _ hbefore, ← hfalse _ hafter]
    exact hsplit
  · rw [hsplit, List.mem_append, List.mem_append] at hsome
    rcases hsome with (hsome | hsome) | hsome
    · exact absurd hsome hbefore
    · exact hsome
    · exact absurd hsome hafter

/-- Flips within 32 consecutive bits, and odd numbers of flips, are always seen. -/
theorem detects_burst_and_odd (bd : Build) (frame error : Bytes)
    (haccepted : verifyCrc bd frame = .ok true) (hlen : error.length = frame.length)
    (hkind : (IsBurst error ∧ weight error ≠ 0) ∨ Odd (weight error)) :
    verifyCrc bd (xorBytes frame error) = .ok false := by
  refine rejected_of_feed haccepted hlen ?_
  rcases hkind with ⟨hburst, hsome⟩ | hodd
  · obtain ⟨m, n, burst, hbits, hshort, htrue⟩ := bits_of_burst hburst
      (List.count_pos_iff.mp (Nat.pos_of_ne_zero hsome))
    rw [hbits]
    exact feed_burst_ne_zero factor factor_high hshort htrue m n
  · exact feed_odd_ne_zero (by decide) factor_odd hodd

/-- Two flips in the first byte of a frame. -/
theorem detects_burst_and_odd_two_flips :
    verifyCrc .release ([1, 2, 3] ++ toLeBytes (compute [1, 2, 3])) = .ok true ∧
      IsBurst [0x82, 0, 0, 0, 0, 0, 0] ∧ weight [0x82, 0, 0, 0, 0, 0, 0] = 2 ∧
      verifyCrc .release (xorBytes ([1, 2, 3] ++ toLeBytes (compute [1, 2, 3]))
        [0x82, 0, 0, 0, 0, 0, 0]) = .ok false := by
  have haccepted := verifyCrc_append .release [1, 2, 3]
  have hburst : IsBurst [0x82, 0, 0, 0, 0, 0, 0] := by
    refine ⟨0, fun i hi => ?_⟩
    have hall : ∀ i < 56, (bits [0x82, 0, 0, 0, 0, 0, 0])[i]? = some true → i < 32 := by
      decide
    have hlt : i < 56 := (List.getElem?_eq_some_iff.mp hi).1
    exact ⟨Nat.zero_le i, by simpa using hall i hlt hi⟩
  exact ⟨haccepted, hburst, rfl,
    detects_burst_and_odd .release _ _ haccepted rfl (.inl ⟨hburst, by decide⟩)⟩

end Redpine.Crc
