import Redpine.RecentRegister
import Redpine.SegmentTxNonce

/-! The sender's side of an exchange: sending a segment under a nonce, and handling an
arbitrary ack. -/
namespace Redpine
open Machine SerialId

namespace SegmentTx

/-- The ring and the history hold the nonces of the segments sent. -/
structure Nonces (s : SegmentTx) (base0 : U32) (nonces : List Bool) (acked : ℕ) : Prop where
  ring : ∀ i, acked ≤ i → i < nonces.length → s.nonceBit (idAt base0 i) = nonces.getD i false
  history : ∀ i < 32, s.nonceHistory.getLsbD i =
    (decide (i < acked) && nonces.getD (acked - 1 - i) false)

lemma new_nonces {base0 size : U32} {s : SegmentTx} (h : new base0 size = .ok s) :
    s.Nonces base0 [] 0 := by
  obtain ⟨k, -, -, -, -, -, hhistory⟩ := new_shape h
  refine ⟨by simp, fun i hi => ?_⟩
  rw [hhistory]
  simp

section AckHistory

lemma leadingOnes_lt {x : U32} (h : x ≠ BitVec.allOnes 32) : leadingOnes x < 32 :=
  Recent.leadingOnes_lt h

/-- The ack history is the only thing `update_ack_history` changes. -/
lemma updateAckHistory_spec (bd : Build) (s : SegmentTx) (ackDelta rxHistory : U32)
    (rxChecksum : Bool) :
    ∃ ackHistory drop, s.updateAckHistory bd ackDelta rxHistory rxChecksum =
      .ok ({ s with ackHistory := ackHistory }, drop) := by
  unfold updateAckHistory
  by_cases hgap : leadingOnes s.ackHistory < ackDelta.toNat
  · rw [if_pos hgap]
    exact ⟨_, _, rfl⟩
  rw [if_neg hgap]
  simp only
  generalize (if expectedChecksum s.nonceHistory rxHistory = rxChecksum then
    (if ackDelta = 32 then 0 else wrappingShl s.ackHistory ackDelta.toNat) ||| rxHistory
    else (if ackDelta = 32 then 0 else wrappingShl s.ackHistory ackDelta.toNat)) = history
  by_cases hones : history = BitVec.allOnes 32
  · rw [if_pos hones]
    exact ⟨_, _, rfl⟩
  rw [if_neg hones]
  by_cases hold : wrappingShr history 31 = 0
  · rw [if_pos hold]
    exact ⟨_, _, rfl⟩
  rw [if_neg hold]
  simp only [debugAssert_true (leadingOnes_lt hones), ok_bind]
  split_ifs
  · exact ⟨_, _, rfl⟩
  · exact ⟨_, _, rfl⟩

end AckHistory

section Send
variable {bd : Build} {k : ℕ} {base0 : U32} {sizes : List ℕ} {nonces : List Bool} {acked : ℕ}
  {s s' s'' : SegmentTx}

lemma Shape.of_nonceBuf (h : s.Shape k) {nonceBuf : List U64}
    (hlen : nonceBuf.length = s.nonceBuf.length) :
    Shape { s with nonceBuf := nonceBuf } k :=
  ⟨h.1, h.2, h.3, h.4, h.5, h.6, hlen.trans h.7⟩

/-- Drawing a nonce touches the nonce ring only. -/
lemma InFlight.computeNextNonce (h : s.InFlight bd k base0 sizes acked) (nonce : Bool) :
    ∃ s', s.computeNextNonce bd nonce = .ok s' ∧ s'.InFlight bd k base0 sizes acked ∧
      s'.transitTotal = s.transitTotal ∧ s'.size = s.size ∧ s'.nextId = s.nextId ∧
      s'.baseId = s.baseId ∧ s'.canSend = s.canSend := by
  obtain ⟨nonceBuf, hok, hlen, -⟩ := h.shape.computeNextNonce_spec bd nonce
  refine ⟨_, hok, ⟨h.shape.of_nonceBuf hlen, h.baseId_eq, h.nextId_eq, h.acked_le, h.window_le,
    h.ring, h.total, h.small⟩, rfl, rfl, rfl, rfl, rfl⟩

lemma nonceBit_congr (hbuf : s'.nonceBuf = s.nonceBuf) (hmask : s'.nonceBufMask = s.nonceBufMask)
    (id : U32) : s'.nonceBit id = s.nonceBit id := by
  unfold nonceBit nonceWord nonceIndex
  rw [hbuf, hmask]

/-- The nonces of the segments in flight keep their bits when the next one is drawn. -/
lemma Nonces.computeNextNonce (hn : s.Nonces base0 nonces acked)
    (h : s.InFlight bd k base0 sizes acked) (hlen : nonces.length = sizes.length) {nonce : Bool}
    (hcan : s.canSend = true) (hnonce : s.computeNextNonce bd nonce = .ok s') :
    s'.InFlight bd k base0 sizes acked ∧ s'.Nonces base0 nonces acked ∧ s'.canSend = true ∧
      s'.nonceBit s'.nextId = nonce := by
  obtain ⟨nonceBuf, hok, hbuf, hbits⟩ := h.shape.computeNextNonce_spec bd nonce
  rw [hok] at hnonce
  cases hnonce
  have hlt := h.canSend_iff.mp hcan
  refine ⟨⟨h.shape.of_nonceBuf hbuf, h.baseId_eq, h.nextId_eq, h.acked_le, h.window_le, h.ring,
    h.total, h.small⟩, ⟨fun i hi hin => ?_, hn.history⟩, hcan, ?_⟩
  · have hne : ¬ (idAt base0 i).toNat % 2 ^ k = (idAt base0 sizes.length).toNat % 2 ^ k := by
      intro he
      have := slot_injOn base0 h.shape.lt_width.le (by omega) (by omega) he
      omega
    rw [hbits, h.nextId_eq, if_neg hne, hn.ring i hi hin]
  · rw [hbits]
    exact if_pos rfl

/-- A segment is sent under the nonce that the ring holds for the next ID. -/
lemma Nonces.markSent (hn : s.Nonces base0 nonces acked) (h : s.InFlight bd k base0 sizes acked)
    (hlen : nonces.length = sizes.length) {nonce : Bool} {size : ℕ} (hcan : s.canSend = true)
    (hsize : size < 2 ^ 64) (hbit : s.nonceBit s.nextId = nonce)
    (hsent : s.markSent bd size = .ok s') :
    s'.InFlight bd k base0 (sizes ++ [size]) acked ∧
      s'.Nonces base0 (nonces ++ [nonce]) acked := by
  obtain ⟨hflight, hsame, hhist⟩ := h.markSent hcan hsize hsent
  have hmask : s'.nonceBufMask = s.nonceBufMask := by
    apply BitVec.eq_of_toNat_eq
    rw [hflight.shape.nonceMask_eq, h.shape.nonceMask_eq]
  refine ⟨hflight, fun i hi hin => ?_, fun i hi => ?_⟩
  · simp only [List.length_append, List.length_singleton] at hin
    rw [nonceBit_congr hsame hmask]
    rcases Nat.lt_or_ge i nonces.length with hold | hnew
    · rw [hn.ring i hi hold, List.getD_append _ _ _ _ hold]
    · have hieq : i = sizes.length := by omega
      rw [hieq, ← h.nextId_eq, hbit, ← hlen, List.getD_append_right _ _ _ _ le_rfl]
      simp
  · have hle := h.acked_le
    rw [hhist, hn.history i hi]
    by_cases hia : i < acked
    · rw [List.getD_append _ _ _ _ (by omega)]
    · simp [hia]

/-- A segment is sent under the next ID with the nonce drawn for it. -/
theorem Nonces.send (hn : s.Nonces base0 nonces acked) (h : s.InFlight bd k base0 sizes acked)
    (hlen : nonces.length = sizes.length) {nonce : Bool} {size : ℕ} (hcan : s.canSend = true)
    (hsize : size < 2 ^ 64) (hnonce : s.computeNextNonce bd nonce = .ok s')
    (hsent : s'.markSent bd size = .ok s'') :
    s''.InFlight bd k base0 (sizes ++ [size]) acked ∧
      s''.Nonces base0 (nonces ++ [nonce]) acked := by
  obtain ⟨h', hn', hcan', hbit⟩ := hn.computeNextNonce h hlen hcan hnonce
  exact hn'.markSent h' hlen hcan' hsize hbit hsent

end Send

section Acknowledge
variable {bd : Build} {k : ℕ} {base0 : U32} {sizes : List ℕ} {nonces : List Bool} {acked j : ℕ}
  {s : SegmentTx}

variable (nonces) in
/-- The base moves to the acknowledged position. -/
lemma InFlight.advance (h : s.InFlight bd k base0 sizes acked) (hle : acked ≤ j)
    (hj : j ≤ sizes.length) :
    ∃ s', s.advance bd (idAt base0 j - s.baseId) (idAt base0 j) = .ok s' ∧
      s'.InFlight bd k base0 sizes j ∧ s'.size = s.size ∧
      (s.Nonces base0 nonces acked → nonces.length = sizes.length → s'.Nonces base0 nonces j) := by
  have hwin := h.window_le
  have hpow := h.pow_lt
  have hdelta : (idAt base0 j - s.baseId).toNat = j - acked := by
    rw [h.baseId_eq]
    exact toNat_sub_of_le base0 hle (by omega)
  unfold SegmentTx.advance
  by_cases hzero : j = acked
  · subst hzero
    have hnot : ¬ 0#32 < idAt base0 j - s.baseId := by
      rw [BitVec.lt_def, hdelta]
      simp
    rw [if_neg hnot]
    exact ⟨s, rfl, h, rfl, fun hn _ => hn⟩
  · have hpos : 0#32 < idAt base0 j - s.baseId := by
      rw [BitVec.lt_def, hdelta]
      simp only [BitVec.reduceToNat]
      omega
    obtain ⟨t, hsub, ht⟩ := h.subtractTransit (j - acked) 0 s.transitTotal (by omega) h.total
    have hshape : Shape { s with transitTotal := t } k :=
      ⟨h.shape.1, h.shape.2, h.shape.3, h.shape.4, h.shape.5, h.shape.6, h.shape.7⟩
    obtain ⟨history, hupdate, hbits⟩ := hshape.updateNonceHistory_spec bd
      (idAt base0 j - s.baseId) (idAt base0 j) (by omega)
    rw [if_pos hpos]
    simp only [hdelta, hsub, hupdate, ok_bind, pure_eq_ok]
    refine ⟨_, rfl, ⟨⟨h.shape.1, h.shape.2, h.shape.3, h.shape.4, h.shape.5, h.shape.6,
      h.shape.7⟩, rfl, h.nextId_eq, hj, by omega, ?_, ?_, h.small⟩, rfl, ?_⟩
    · exact fun i hi hin => h.ring i (by omega) hin
    · rw [Nat.add_zero, Nat.add_sub_cancel' hle] at ht
      exact ht
    · intro hn hlen
      refine ⟨fun i hi hin => hn.ring i (by omega) hin, fun i hi => ?_⟩
      rw [hbits i hi, hdelta]
      by_cases hnew : i < j - acked
      · have hid : idAt base0 (j - 1 - i) = idAt base0 j - 1 - BitVec.ofNat 32 i := by
          rw [eq_before_iff, show j - 1 - i + 1 + i = j by omega]
        rw [if_pos hnew, ← hid]
        change s.nonceBit (idAt base0 (j - 1 - i)) = _
        rw [hn.ring _ (by omega) (by omega)]
        simp [show i < j by omega]
      · rw [if_neg hnew, hn.history _ (by omega)]
        have hiff : i - (j - acked) < acked ↔ i < j := by omega
        have hsame : acked - 1 - (i - (j - acked)) = j - 1 - i := by omega
        simp only [hiff, hsame]

variable (nonces) in
/-- An ack of a position from the base up to the next segment moves the base there. -/
theorem InFlight.acknowledge (h : s.InFlight bd k base0 sizes acked) (hle : acked ≤ j)
    (hj : j ≤ sizes.length) (rxHistory : U32) (rxChecksum : Bool) :
    ∃ s' drop, s.acknowledge bd (idAt base0 j) rxHistory rxChecksum = .ok (s', drop) ∧
      s'.InFlight bd k base0 sizes j ∧ s'.size = s.size ∧
      (s.Nonces base0 nonces acked → nonces.length = sizes.length → s'.Nonces base0 nonces j) := by
  have hwin := h.window_le
  have hpow := h.pow_lt
  have hdelta : (idAt base0 j - s.baseId).toNat = j - acked := by
    rw [h.baseId_eq]
    exact toNat_sub_of_le base0 hle (by omega)
  have haccept : idAt base0 j - s.baseId ≤ s.nextId - s.baseId := by
    rw [BitVec.le_def, hdelta, h.next_sub]
    omega
  obtain ⟨s1, hadvance, h1, hsize, hn⟩ := h.advance nonces hle hj
  obtain ⟨ackHistory, drop, hhist⟩ :=
    updateAckHistory_spec bd s1 (idAt base0 j - s.baseId) rxHistory rxChecksum
  unfold SegmentTx.acknowledge
  simp only [if_pos haccept, hadvance, ok_bind, hhist]
  refine ⟨_, drop, rfl, ⟨⟨h1.shape.1, h1.shape.2, h1.shape.3, h1.shape.4, h1.shape.5, h1.shape.6,
    h1.shape.7⟩, h1.2, h1.3, h1.4, h1.5, h1.6, h1.7, h1.8⟩, hsize, fun hs hlen => ?_⟩
  exact ⟨(hn hs hlen).ring, (hn hs hlen).history⟩

/-- Every other ack changes nothing. -/
theorem InFlight.acknowledge_ignored (h : s.InFlight bd k base0 sizes acked) {id : U32}
    (hgt : sizes.length - acked < (id - s.baseId).toNat) (rxHistory : U32) (rxChecksum : Bool) :
    s.acknowledge bd id rxHistory rxChecksum = .ok (s, false) := by
  have hreject : ¬ id - s.baseId ≤ s.nextId - s.baseId := by
    rw [BitVec.le_def, h.next_sub]
    omega
  unfold SegmentTx.acknowledge
  exact if_neg hreject

/-- No ack touches the ring of nonces. -/
lemma acknowledge_nonceBit {s' : SegmentTx} {id rxHistory : U32} {rxChecksum drop : Bool}
    (h : s.acknowledge bd id rxHistory rxChecksum = .ok (s', drop)) (id' : U32) :
    s'.nonceBit id' = s.nonceBit id' := by
  unfold SegmentTx.acknowledge at h
  by_cases hvalid : id - s.baseId ≤ s.nextId - s.baseId
  · rw [if_pos hvalid] at h
    obtain ⟨s₁, hadvance, h⟩ := bind_eq_ok.mp h
    obtain ⟨ackHistory, drop', hhist⟩ :=
      updateAckHistory_spec bd s₁ (id - s.baseId) rxHistory rxChecksum
    cases hhist.symm.trans h
    unfold SegmentTx.advance at hadvance
    by_cases hpos : 0#32 < id - s.baseId
    · rw [if_pos hpos] at hadvance
      obtain ⟨total, -, hadvance⟩ := bind_eq_ok.mp hadvance
      obtain ⟨s₂, hupdate, hadvance⟩ := bind_eq_ok.mp hadvance
      cases hadvance
      unfold SegmentTx.updateNonceHistory at hupdate
      obtain ⟨x, -, hupdate⟩ := bind_eq_ok.mp hupdate
      obtain ⟨bits, -, hupdate⟩ := bind_eq_ok.mp hupdate
      cases hupdate
      rfl
    · rw [if_neg hpos] at hadvance
      cases hadvance
      rfl
  · rw [if_neg hvalid] at h
    cases h
    rfl

end Acknowledge

end SegmentTx

end Redpine
