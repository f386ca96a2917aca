import Redpine.SegmentTxWindow

/-! The nonce bits of the segments sent: where the ring keeps them, and how
`update_nonce_history` extracts those of the acknowledged segments. -/
namespace Redpine
open Machine SerialId

namespace SegmentTx

def nonceWord (s : SegmentTx) (idx : U32) : U64 := s.nonceBuf.getD (s.nonceIndex idx) 0

/-- The bit that the ring holds for an ID. -/
def nonceBit (s : SegmentTx) (id : U32) : Bool :=
  (s.nonceWord (id / 64)).getLsbD (63 - id.toNat % 64)

section Bits

lemma shl_one_toNat {n : ℕ} (hn : n < 64) : ((1#64) <<< n).toNat = 2 ^ n := by
  have hlt : 2 ^ n < 2 ^ 64 := Nat.pow_lt_pow_right (by decide) hn
  rw [BitVec.toNat_shiftLeft, BitVec.toNat_one (by decide), Nat.shiftLeft_eq, one_mul,
    Nat.mod_eq_of_lt hlt]

lemma getLsbD_shl_one {n i : ℕ} (hn : n < 64) : ((1#64) <<< n).getLsbD i = decide (n = i) := by
  rw [← BitVec.testBit_toNat, shl_one_toNat hn, Nat.testBit_two_pow]

/-- `(1u64 << n) - 1` selects the low `n` bits. -/
lemma lowMask_spec (bd : Build) {n : ℕ} (hn : n < 64) :
    ∃ mask, lowMask bd n = .ok mask ∧ ∀ i, mask.getLsbD i = decide (i < n) := by
  unfold lowMask
  simp only [checkedShl_of_lt hn, ok_bind, pure_eq_ok]
  refine ⟨_, rfl, fun i => ?_⟩
  have hpos : 0 < 2 ^ n := Nat.two_pow_pos n
  have hsub : ((1#64) <<< n - 1).toNat = 2 ^ n - 1 := by
    have hlt := ((1#64) <<< n).isLt
    rw [shl_one_toNat hn] at hlt
    rw [BitVec.toNat_sub, shl_one_toNat hn]
    simp only [BitVec.reduceToNat]
    omega
  rw [← BitVec.testBit_toNat, hsub, Nat.testBit_two_pow_sub_one]

/-- Setting or clearing one bit of a word. -/
lemma getLsbD_setBit {word : U64} {nonce : Bool} {n i : ℕ} (hn : n < 64) (hi : i < 64) :
    (if nonce then word ||| (1#64) <<< n else word &&& ~~~((1#64) <<< n)).getLsbD i =
      if i = n then nonce else word.getLsbD i := by
  cases nonce
  · simp only [Bool.false_eq_true, if_false, BitVec.getLsbD_and, BitVec.getLsbD_not,
      getLsbD_shl_one hn, hi, decide_true, Bool.true_and]
    by_cases h : i = n
    · simp [h]
    · simp [h, Ne.symm h]
  · simp only [if_true, BitVec.getLsbD_or, getLsbD_shl_one hn]
    by_cases h : i = n
    · simp [h]
    · simp [h, Ne.symm h]

end Bits

section Words
variable {bd : Build} {k : ℕ} {s : SegmentTx}

lemma Shape.nonceIndex_eq (h : s.Shape k) (id : U32) :
    s.nonceIndex (id / 64) = id.toNat / 64 % 2 ^ (k - 6) := by
  unfold nonceIndex
  rw [toNat_and_mask h.nonceMask_eq, BitVec.toNat_udiv]
  rfl

lemma Shape.nonceIndex_lt (h : s.Shape k) (idx : U32) :
    s.nonceIndex idx < s.nonceBuf.length := by
  unfold nonceIndex
  rw [toNat_and_mask h.nonceMask_eq, h.nonce_length]
  exact Nat.mod_lt _ (Nat.two_pow_pos _)

lemma Shape.index_nonceBuf (h : s.Shape k) (idx : U32) :
    index s.nonceBuf (s.nonceIndex idx) = .ok (s.nonceWord idx) := by
  have hlt := h.nonceIndex_lt idx
  rw [index_eq_ok, nonceWord, List.getD_eq_getElem _ _ hlt, List.getElem?_eq_getElem hlt]

lemma Shape.pow_eq (h : s.Shape k) : 2 ^ k = 64 * 2 ^ (k - 6) := by
  rw [show (64 : ℕ) = 2 ^ 6 from rfl, ← pow_add, Nat.add_sub_cancel' h.six_le]

/-- Two IDs share a bit of the ring if and only if they share a slot of the window. -/
lemma Shape.sameBit_iff (h : s.Shape k) (a b : U32) :
    (s.nonceIndex (a / 64) = s.nonceIndex (b / 64) ∧ a.toNat % 64 = b.toNat % 64) ↔
      a.toNat % 2 ^ k = b.toNat % 2 ^ k := by
  have ha := Nat.mod_lt a.toNat (show 0 < 64 by decide)
  have hb := Nat.mod_lt b.toNat (show 0 < 64 by decide)
  rw [h.nonceIndex_eq, h.nonceIndex_eq, h.pow_eq, Nat.mod_mul, Nat.mod_mul]
  omega

lemma Shape.nonceBit_set (h : s.Shape k) (idx : U32) (word : U64) (id : U32) :
    nonceBit { s with nonceBuf := s.nonceBuf.set (s.nonceIndex idx) word } id =
      if s.nonceIndex (id / 64) = s.nonceIndex idx then word.getLsbD (63 - id.toNat % 64)
      else s.nonceBit id := by
  have hlt := h.nonceIndex_lt idx
  have hget : (s.nonceBuf.set (s.nonceIndex idx) word).getD (s.nonceIndex (id / 64)) 0 =
      if s.nonceIndex (id / 64) = s.nonceIndex idx then word else s.nonceWord (id / 64) := by
    unfold nonceWord
    rw [List.getD_eq_getElem?_getD, List.getElem?_set, List.getD_eq_getElem?_getD]
    by_cases hidx : s.nonceIndex (id / 64) = s.nonceIndex idx
    · rw [if_pos hidx.symm, if_pos hlt, if_pos hidx]
      rfl
    · rw [if_neg (Ne.symm hidx), if_neg hidx]
  have hbit : nonceBit { s with nonceBuf := s.nonceBuf.set (s.nonceIndex idx) word } id =
      ((s.nonceBuf.set (s.nonceIndex idx) word).getD (s.nonceIndex (id / 64)) 0).getLsbD
        (63 - id.toNat % 64) := rfl
  rw [hbit, hget]
  split_ifs <;> rfl

variable (bd) in
/-- `compute_next_nonce` sets the bit of the next ID and no other one. -/
theorem Shape.computeNextNonce_spec (h : s.Shape k) (nonce : Bool) :
    ∃ nonceBuf, s.computeNextNonce bd nonce = .ok { s with nonceBuf := nonceBuf } ∧
      nonceBuf.length = s.nonceBuf.length ∧
      ∀ id, nonceBit { s with nonceBuf := nonceBuf } id =
        if id.toNat % 2 ^ k = s.nextId.toNat % 2 ^ k then nonce else s.nonceBit id := by
  have hmod : (s.nextId % 64).toNat = s.nextId.toNat % 64 := by
    rw [BitVec.toNat_umod]
    rfl
  have hbit := Nat.mod_lt s.nextId.toNat (show 0 < 64 by decide)
  have hlt := h.nonceIndex_lt (s.nextId / 64)
  unfold SegmentTx.computeNextNonce
  simp only [hmod, checkedSub_of_le (show s.nextId.toNat % 64 ≤ 63 by omega), ok_bind,
    checkedShl_of_lt (show 63 - s.nextId.toNat % 64 < 64 by omega), h.index_nonceBuf,
    update_of_lt hlt, pure_eq_ok]
  refine ⟨_, rfl, by simp, fun id => ?_⟩
  have hid := Nat.mod_lt id.toNat (show 0 < 64 by decide)
  have hiff := h.sameBit_iff id s.nextId
  rw [h.nonceBit_set]
  by_cases hword : s.nonceIndex (id / 64) = s.nonceIndex (s.nextId / 64)
  · have hold : s.nonceBit id = (s.nonceWord (s.nextId / 64)).getLsbD (63 - id.toNat % 64) := by
      unfold nonceBit nonceWord
      rw [hword]
    rw [if_pos hword, getLsbD_setBit (by omega) (by omega), hold]
    by_cases hsame : id.toNat % 64 = s.nextId.toNat % 64
    · rw [if_pos (by omega), if_pos (hiff.mp ⟨hword, hsame⟩)]
    · rw [if_neg (by omega), if_neg (fun hc => hsame (hiff.mpr hc).2)]
  · rw [if_neg hword, if_neg (fun hc => hword (hiff.mpr hc).1)]

/-- Where the ID `i + 1` before `p1` lies among the words of 64 bits. -/
lemma before_word (p1 : U32) {i : ℕ} (hi : i < 32) :
    (i < p1.toNat % 64 → (p1 - 1 - BitVec.ofNat 32 i) / 64 = p1 / 64 ∧
      63 - (p1 - 1 - BitVec.ofNat 32 i).toNat % 64 = 64 - p1.toNat % 64 + i) ∧
    (p1.toNat % 64 ≤ i → ∀ n, p1.toNat % 64 < n → n ≤ 32 →
      (p1 - 1 - BitVec.ofNat 32 i) / 64 = (p1 - BitVec.ofNat 32 n) / 64 ∧
      63 - (p1 - 1 - BitVec.ofNat 32 i).toNat % 64 = i - p1.toNat % 64) := by
  have hlt := p1.isLt
  have hid : (p1 - 1 - BitVec.ofNat 32 i).toNat = (p1.toNat + (2 ^ 32 - 1 - i)) % 2 ^ 32 := by
    simp only [BitVec.toNat_sub, BitVec.toNat_ofNat, BitVec.reduceToNat]
    omega
  constructor
  · intro hib
    refine ⟨BitVec.eq_of_toNat_eq ?_, by omega⟩
    simp only [BitVec.toNat_udiv, BitVec.reduceToNat, hid]
    omega
  · intro hib n hn hn32
    refine ⟨BitVec.eq_of_toNat_eq ?_, by omega⟩
    have hp0 : (p1 - BitVec.ofNat 32 n).toNat = (p1.toNat + (2 ^ 32 - n)) % 2 ^ 32 := by
      simp only [BitVec.toNat_sub, BitVec.toNat_ofNat]
      omega
    simp only [BitVec.toNat_udiv, BitVec.reduceToNat, hid, hp0]
    omega

/-- The bits [p0, p1) lie in one word exactly if p1 does not follow a word boundary too
closely. -/
lemma sameWord_iff (p1 : U32) {n : ℕ} (hpos : 0 < n) (hn : n ≤ 32) :
    (p1 - BitVec.ofNat 32 n) / 64 = p1 / 64 ↔ n ≤ p1.toNat % 64 := by
  have hlt := p1.isLt
  have hp0 : (p1 - BitVec.ofNat 32 n).toNat = (p1.toNat + (2 ^ 32 - n)) % 2 ^ 32 := by
    simp only [BitVec.toNat_sub, BitVec.toNat_ofNat]
    omega
  rw [← BitVec.toNat_inj]
  simp only [BitVec.toNat_udiv, BitVec.reduceToNat, hp0]
  omega

lemma shiftNonceHistory_spec (bd : Build) (s : SegmentTx) {n : ℕ} (hn : n ≤ 32) :
    ∃ x, s.shiftNonceHistory bd n = .ok x ∧
      ∀ i < 32, x.getLsbD i = (decide (n ≤ i) && s.nonceHistory.getLsbD (i - n)) := by
  unfold shiftNonceHistory
  by_cases h32 : n = 32
  · rw [if_pos h32]
    refine ⟨0, rfl, fun i hi => ?_⟩
    simp [show ¬ n ≤ i by omega]
  · rw [if_neg h32, checkedShl_of_lt (by omega)]
    refine ⟨_, rfl, fun i hi => ?_⟩
    have hnot : (!decide (i < n)) = decide (n ≤ i) := by
      rw [← decide_not, decide_eq_decide, not_lt]
    rw [BitVec.getLsbD_shiftLeft, hnot]
    simp [hi]

variable (bd) in
/-- Bit `i` of the extracted bits is the nonce of the ID `i + 1` before `p1`. -/
lemma Shape.extractNonces_spec (h : s.Shape k) (p1 : U32) {n : ℕ} (hpos : 0 < n) (hn : n ≤ 32) :
    ∃ bits, s.extractNonces bd n (p1 % 64).toNat ((p1 - BitVec.ofNat 32 n) / 64) (p1 / 64) =
        .ok bits ∧
      ∀ i < 32, bits.getLsbD i =
        (decide (i < n) && s.nonceBit (p1 - 1 - BitVec.ofNat 32 i)) := by
  have hmod : (p1 % 64).toNat = p1.toNat % 64 := by
    rw [BitVec.toNat_umod]
    rfl
  have hb := Nat.mod_lt p1.toNat (show 0 < 64 by decide)
  unfold SegmentTx.extractNonces
  rw [hmod]
  by_cases hsame : (p1 - BitVec.ofNat 32 n) / 64 = p1 / 64
  · have hle := (sameWord_iff p1 hpos hn).mp hsame
    obtain ⟨mask, hmask, hmaskBits⟩ := lowMask_spec bd (show n < 64 by omega)
    rw [if_pos hsame]
    simp only [h.index_nonceBuf, checkedSub_of_le (show p1.toNat % 64 ≤ 64 by omega), hmask,
      checkedShr_of_lt (show 64 - p1.toNat % 64 < 64 by omega), ok_bind, pure_eq_ok]
    refine ⟨_, rfl, fun i hi => ?_⟩
    rw [BitVec.getLsbD_setWidth, BitVec.getLsbD_and, BitVec.getLsbD_ushiftRight, hmaskBits]
    by_cases hin : i < n
    · obtain ⟨hw, hbit⟩ := (before_word p1 hi).1 (by omega)
      simp only [nonceBit, hw, hbit, hi, hin, decide_true, Bool.true_and, Bool.and_true]
    · simp [hin]
  have hgt : p1.toNat % 64 < n := by
    have := (sameWord_iff p1 hpos hn).not.mp hsame
    omega
  rw [if_neg hsame]
  by_cases hzero : p1.toNat % 64 = 0
  · obtain ⟨mask, hmask, hmaskBits⟩ := lowMask_spec bd (show n < 64 by omega)
    rw [if_pos hzero]
    simp only [h.index_nonceBuf, hmask, ok_bind, pure_eq_ok]
    refine ⟨_, rfl, fun i hi => ?_⟩
    rw [BitVec.getLsbD_setWidth, BitVec.getLsbD_and, hmaskBits]
    obtain ⟨hw, hbit⟩ := (before_word p1 hi).2 (by omega) n hgt hn
    simp only [nonceBit, hw, hbit, hzero, hi, Nat.sub_zero, decide_true, Bool.true_and]
    rw [Bool.and_comm]
  · obtain ⟨maskA, hmaskA, hmaskABits⟩ := lowMask_spec bd (show n - p1.toNat % 64 < 64 by omega)
    obtain ⟨maskB, hmaskB, hmaskBBits⟩ := lowMask_spec bd hb
    rw [if_neg hzero]
    simp only [h.index_nonceBuf, checkedSub_of_le hgt.le, hmaskA, hmaskB, checkedShl_of_lt hb,
      checkedSub_of_le (show p1.toNat % 64 ≤ 64 by omega),
      checkedShr_of_lt (show 64 - p1.toNat % 64 < 64 by omega), ok_bind, pure_eq_ok]
    refine ⟨_, rfl, fun i hi => ?_⟩
    rw [BitVec.getLsbD_or, BitVec.getLsbD_setWidth, BitVec.getLsbD_setWidth, BitVec.getLsbD_and,
      BitVec.getLsbD_ushiftRight, BitVec.getLsbD_shiftLeft, BitVec.getLsbD_and, hmaskABits,
      hmaskBBits]
    by_cases hib : i < p1.toNat % 64
    · obtain ⟨hw, hbit⟩ := (before_word p1 hi).1 hib
      unfold nonceBit
      rw [hw, hbit]
      simp [hi, hib, show i < n by omega]
    · obtain ⟨hw, hbit⟩ := (before_word p1 hi).2 (by omega) n hgt hn
      have hshift : i - p1.toNat % 64 < n - p1.toNat % 64 ↔ i < n := by omega
      simp only [nonceBit, hw, hbit, hi, hib, hshift, show i < 64 by omega, decide_true,
        decide_false, Bool.true_and, Bool.and_false, Bool.false_or, Bool.not_false]
      rw [Bool.and_comm]

variable (bd) in
/-- The history is shifted, and the nonces of the newly acknowledged IDs come in. -/
theorem Shape.updateNonceHistory_spec (h : s.Shape k) (ackDelta p1 : U32)
    (hpos : 0 < ackDelta.toNat) :
    ∃ history, SegmentTx.updateNonceHistory bd s ackDelta p1 = .ok { s with nonceHistory := history } ∧
      ∀ i < 32, history.getLsbD i =
        if i < ackDelta.toNat then s.nonceBit (p1 - 1 - BitVec.ofNat 32 i)
        else s.nonceHistory.getLsbD (i - ackDelta.toNat) := by
  have hmin : min ackDelta.toNat 32 ≤ 32 := min_le_right _ _
  obtain ⟨x, hx, hxBits⟩ := shiftNonceHistory_spec bd s hmin
  obtain ⟨bits, hbits, hbitsBits⟩ := h.extractNonces_spec bd p1
    (show 0 < min ackDelta.toNat 32 by omega) hmin
  unfold SegmentTx.updateNonceHistory
  simp only [hx, hbits, ok_bind, pure_eq_ok]
  refine ⟨_, rfl, fun i hi => ?_⟩
  rw [BitVec.getLsbD_or, hxBits i hi, hbitsBits i hi]
  by_cases hin : i < ackDelta.toNat
  · simp [hin, hi]
  · have hna : min ackDelta.toNat 32 = ackDelta.toNat := by omega
    simp [hin, hna, show ackDelta.toNat ≤ i by omega]

end Words

end SegmentTx

end Redpine
