import Redpine.Server
import Redpine.WireRoundTrip

/-! Reading never fails: whatever bytes a datagram of the network consists of, its type, its
checksum and its payload are read without a panic, or it is found to be malformed. -/
namespace Redpine.Wire
open Machine

section Frame
variable {frameBytes : Bytes}

lemma le_length_of_verify (h : verifyMinimumSize frameBytes = true) : 5 ≤ frameBytes.length :=
  of_decide_eq_true h

lemma readType_total (bd : Build) (h : verifyMinimumSize frameBytes = true) :
    ∃ frameType, readType bd frameBytes = .ok frameType := by
  have hlen := le_length_of_verify h
  unfold readType index
  rw [debugAssert_true h, ok_bind, List.getElem?_eq_getElem (show 0 < frameBytes.length by omega)]
  exact ⟨_, rfl⟩

/-- The payload is what lies between the type and the checksum. -/
lemma payload_total (bd : Build) (h : verifyMinimumSize frameBytes = true) :
    ∃ payloadBytes, payload bd frameBytes = .ok payloadBytes ∧
      payloadBytes.length + 5 = frameBytes.length := by
  have hlen := le_length_of_verify h
  unfold payload
  rw [debugAssert_true h, ok_bind, checkedSub_of_le (show frameCrcSize ≤ _ by
    rw [frameCrcSize]; omega), ok_bind,
    slice_of_le (by rw [frameHeaderSize, frameCrcSize]; omega) (Nat.sub_le _ _)]
  refine ⟨_, rfl, ?_⟩
  rw [List.length_take, List.length_drop, frameHeaderSize, frameCrcSize]
  omega

lemma verifyCrc_total (bd : Build) (h : 4 ≤ frameBytes.length) :
    ∃ valid, verifyCrc bd frameBytes = .ok valid := by
  have hsize : Crc.size ≤ frameBytes.length := h
  have htail : (frameBytes.drop (frameBytes.length - Crc.size)).length = 4 := by
    rw [List.length_drop, Crc.size]
    omega
  obtain ⟨b0, b1, b2, b3, hbytes⟩ := List.length_eq_four.mp htail
  unfold verifyCrc
  rw [debugAssert_true hsize, ok_bind, checkedSub_of_le hsize, ok_bind,
    slice_of_le (Nat.zero_le _) (Nat.sub_le _ _), ok_bind,
    slice_of_le (Nat.sub_le _ _) le_rfl, ok_bind, hbytes, Nat.sub_sub_self hsize]
  exact ⟨_, rfl⟩

lemma readPayload_total (α : Type) [SimpleFrame α] [LawfulBlock α] (bd : Build) (src : Bytes) :
    ∃ obj, readPayload α bd src = .ok obj := by
  obtain ⟨obj, r, hread, -, -, -⟩ := PayloadReader.read_total (α := α) bd
    (r := PayloadReader.new src) (Nat.zero_le _)
  unfold readPayload
  rw [hread]
  exact ⟨obj, rfl⟩

end Frame

section Handshake
variable {frameBytes : Bytes}

lemma readAlpha_total (bd : Build) (h : verifyMinimumSize frameBytes = true) :
    ∃ frame, ServerCore.readAlpha bd frameBytes = .ok frame := by
  unfold ServerCore.readAlpha verifyHandshakeAlphaSizeAndCrc
  by_cases hsize : frameBytes.length = min Server.frameSizeMax handshakeAlphaFrameSizeMax
  · have hlen : handshakeAlphaSize + frameOverheadSize ≤ frameBytes.length := by
      rw [hsize]
      decide
    rw [if_pos hsize, slice_of_le (Nat.zero_le _) hlen, ok_bind]
    have hfour : 4 ≤
        ((frameBytes.drop 0).take (handshakeAlphaSize + frameOverheadSize - 0)).length := by
      rw [List.drop_zero, List.length_take, Nat.sub_zero, min_eq_left hlen]
      decide
    obtain ⟨valid, hvalid⟩ := verifyCrc_total bd hfour
    rw [hvalid, ok_bind]
    cases valid with
    | false => exact ⟨none, rfl⟩
    | true =>
      obtain ⟨payloadBytes, hpayload, -⟩ := payload_total bd h
      obtain ⟨frame, hread⟩ := readPayload_total HandshakeAlphaFrame bd payloadBytes
      rw [if_pos rfl, hpayload, ok_bind, hread, ok_bind]
      cases frame with
      | none => exact ⟨none, rfl⟩
      | some frame =>
        by_cases hprotocol : frame.protocolId = protocolId
        · exact ⟨some frame, if_pos hprotocol⟩
        · exact ⟨none, if_neg hprotocol⟩
  · rw [if_neg hsize]
    exact ⟨none, rfl⟩

lemma readBeta_total (bd : Build) (h : verifyMinimumSize frameBytes = true) :
    ∃ frame, ServerCore.readBeta bd frameBytes = .ok frame := by
  have hlen := le_length_of_verify h
  unfold ServerCore.readBeta verifyHandshakeBetaSizeAndCrc
  by_cases hsize : frameBytes.length = handshakeBetaSize + frameOverheadSize
  · have hfour : 4 ≤ frameBytes.length := by omega
    obtain ⟨valid, hvalid⟩ := verifyCrc_total bd hfour
    rw [if_pos hsize, hvalid, ok_bind]
    cases valid with
    | false => exact ⟨none, rfl⟩
    | true =>
      obtain ⟨payloadBytes, hpayload, -⟩ := payload_total bd h
      rw [if_pos rfl, hpayload, ok_bind]
      exact readPayload_total HandshakeBetaFrame bd payloadBytes
  · rw [if_neg hsize]
    exact ⟨none, rfl⟩

end Handshake

end Redpine.Wire
