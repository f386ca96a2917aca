import Redpine.CrcDetection
import Redpine.WireRoundTrip

/-! The two writers of simple frames: `write` trims the buffer to what was written, `write_boxed`
returns the whole buffer of the declared size. -/
namespace Redpine.Wire
open Machine Crc Lfsr

/-- The types that implement `SimpleFrame`. -/
inductive SimpleType where
  | handshakeAlpha
  | handshakeAlphaAck
  | handshakeBeta
  | handshakeBetaAck
  | close
  | closeAck
  | streamSync
  deriving DecidableEq, Repr

namespace SimpleType

def Object : SimpleType → Type
  | handshakeAlpha => HandshakeAlphaFrame
  | handshakeAlphaAck => HandshakeAlphaAckFrame
  | handshakeBeta => HandshakeBetaFrame
  | handshakeBetaAck => HandshakeBetaAckFrame
  | close => CloseFrame
  | closeAck => CloseAckFrame
  | streamSync => StreamSync

instance : (t : SimpleType) → SimpleFrame t.Object
  | handshakeAlpha => inferInstanceAs (SimpleFrame HandshakeAlphaFrame)
  | handshakeAlphaAck => inferInstanceAs (SimpleFrame HandshakeAlphaAckFrame)
  | handshakeBeta => inferInstanceAs (SimpleFrame HandshakeBetaFrame)
  | handshakeBetaAck => inferInstanceAs (SimpleFrame HandshakeBetaAckFrame)
  | close => inferInstanceAs (SimpleFrame CloseFrame)
  | closeAck => inferInstanceAs (SimpleFrame CloseAckFrame)
  | streamSync => inferInstanceAs (SimpleFrame StreamSync)

instance : (t : SimpleType) → LawfulBlock t.Object
  | handshakeAlpha => (inferInstance : LawfulBlock HandshakeAlphaFrame)
  | handshakeAlphaAck => (inferInstance : LawfulBlock HandshakeAlphaAckFrame)
  | handshakeBeta => (inferInstance : LawfulBlock HandshakeBetaFrame)
  | handshakeBetaAck => (inferInstance : LawfulBlock HandshakeBetaAckFrame)
  | close => (inferInstance : LawfulBlock CloseFrame)
  | closeAck => (inferInstance : LawfulBlock CloseAckFrame)
  | streamSync => (inferInstance : LawfulBlock StreamSync)

/-- What the declared payload of a type leaves unused. -/
def slack (t : SimpleType) : ℕ := SimpleFrame.payloadSize t.Object - BlockSerial.size t.Object

lemma valid (t : SimpleType) (obj : t.Object) : LawfulBlock.Valid obj := by
  cases t <;> trivial

lemma size_add_slack (t : SimpleType) :
    BlockSerial.size t.Object + t.slack = SimpleFrame.payloadSize t.Object := by
  cases t <;> rfl

/-- Only the two close frames declare more than they write. -/
lemma slack_eq_zero (t : SimpleType) : t.slack = 0 ↔ t ≠ close ∧ t ≠ closeAck := by
  cases t <;> decide

lemma noticed_close : ((shift factor)^[8 * 24] residue == residue) = false := by decide +kernel

lemma noticed_closeAck : ((shift factor)^[8 * 1] residue == residue) = false := by decide +kernel

/-- The zeros that fill the declared payload would be noticed. -/
lemma residue_slack (t : SimpleType) : ((shift factor)^[8 * t.slack] residue == residue) =
    decide (t ≠ close ∧ t ≠ closeAck) := by
  by_cases hclose : t ≠ close ∧ t ≠ closeAck
  · rw [decide_eq_true hclose, t.slack_eq_zero.mpr hclose, Nat.mul_zero,
      Function.iterate_zero_apply, beq_self_eq_true]
  · rw [decide_eq_false hclose]
    rcases not_and_or.mp hclose with hclose | hclose
    · have hslack : slack close = 24 := rfl
      rw [not_not.mp hclose, hslack, noticed_close]
    · have hslack : slack closeAck = 1 := rfl
      rw [not_not.mp hclose, hslack, noticed_closeAck]

end SimpleType

section Padding
variable {bd : Build}

lemma bits_zeros (k : ℕ) : bits (List.replicate k 0) = List.replicate (8 * k) false := by
  rw [List.eq_replicate_iff]
  constructor
  · rw [bits_length, List.length_replicate]
  · intro b hb
    obtain ⟨byte, hbyte, hb⟩ := List.mem_flatMap.mp hb
    obtain ⟨i, -, rfl⟩ := List.mem_map.mp hb
    rw [List.eq_of_mem_replicate hbyte]
    exact BitVec.getLsbD_zero

/-- Whether zeros after a frame are noticed depends on their number only. -/
lemma verifyCrc_zeros {frame : Bytes} (h : verifyCrc bd frame = .ok true) (k : ℕ) :
    verifyCrc bd (frame ++ List.replicate k 0) =
      .ok ((shift factor)^[8 * k] residue == residue) := by
  have hsize := length_of_verifyCrc h
  rw [verifyCrc_eq bd hsize] at h
  have hframe := beq_iff_eq.mp (Except.ok.inj h)
  rw [verifyCrc_eq bd (by rw [List.length_append]; omega), bits_append, feed_append, hframe,
    bits_zeros, feed_replicate_false]

end Padding

section Writers
variable (bd : Build)

/-- Both writers return the same bytes, of the declared size and with the right checksum. -/
def WritersAgree {α : Type} [SimpleFrame α] (obj : α) (dstLen : ℕ) : Prop :=
  ∃ frame, SimpleFrameWrite.write bd obj dstLen = .ok frame ∧
    SimpleFrameWrite.writeBoxed bd obj = .ok frame ∧
    verifyCrc bd frame = .ok true ∧ frame.length = SimpleFrame.frameSize α

variable {t : SimpleType}

/-- The frame of an object, with nothing after it. -/
def SimpleType.frame (t : SimpleType) (obj : t.Object) : Bytes :=
  frameOf (SimpleFrame.frameType t.Object) (LawfulBlock.encode obj)

lemma SimpleType.frame_length (obj : t.Object) :
    (t.frame obj).length + t.slack = SimpleFrame.frameSize t.Object := by
  have hlen : (LawfulBlock.encode obj).length = BlockSerial.size t.Object :=
    LawfulBlock.encode_length obj
  have hslack := t.size_add_slack
  simp only [SimpleType.frame, frameOf_length, SimpleFrame.frameSize, frameOverheadSize,
    frameHeaderSize, frameCrcSize]
  omega

lemma SimpleType.verifyCrc_frame (obj : t.Object) : verifyCrc bd (t.frame obj) = .ok true :=
  verifyCrc_frameOf bd _ _

lemma write_eq_frame (obj : t.Object) {dstLen : ℕ}
    (h : SimpleFrame.frameSize t.Object ≤ dstLen) :
    SimpleFrameWrite.write bd obj dstLen = .ok (t.frame obj) := by
  have hslack := t.size_add_slack
  have hsize : BlockSerial.size t.Object + 5 ≤ SimpleFrame.frameSize t.Object := by
    simp only [SimpleFrame.frameSize, frameOverheadSize, frameHeaderSize, frameCrcSize]
    omega
  exact simpleWrite_eq (t.valid obj) h (hsize.trans h)

/-- The boxed frame is the trimmed one, with zeros where the declared payload is longer. -/
lemma writeBoxed_eq_frame (obj : t.Object) :
    SimpleFrameWrite.writeBoxed bd obj = .ok (t.frame obj ++ List.replicate t.slack 0) := by
  have hwrite := write_eq_frame bd obj le_rfl
  unfold SimpleFrameWrite.write at hwrite
  rw [debugAssert_true le_rfl, ok_bind] at hwrite
  obtain ⟨w, hnew, hwrite⟩ := bind_eq_ok.mp hwrite
  obtain ⟨⟨w', done⟩, hobj, hfinal⟩ := bind_eq_ok.mp hwrite
  have hlen := SimpleType.frame_length obj
  unfold SimpleFrameWrite.writeBoxed
  rw [hnew, ok_bind, hobj, ok_bind]
  dsimp only at hfinal ⊢
  rw [hfinal, ok_bind, pure_eq_ok, ← hlen, Nat.add_sub_cancel_left]

/-- The two writers agree on a type exactly if its declared payload is what it writes: on all
but the two close frames. -/
theorem writersAgree_iff (t : SimpleType) (obj : t.Object) (dstLen : ℕ)
    (h : SimpleFrame.frameSize t.Object ≤ dstLen) :
    WritersAgree bd obj dstLen ↔ t ≠ .close ∧ t ≠ .closeAck := by
  have hlen := SimpleType.frame_length obj
  rw [← t.slack_eq_zero]
  constructor
  · rintro ⟨frame, hwrite, -, -, hsize⟩
    rw [write_eq_frame bd obj h] at hwrite
    obtain rfl := Except.ok.inj hwrite
    omega
  · intro hslack
    have hboxed := writeBoxed_eq_frame bd obj
    rw [hslack, List.replicate_zero, List.append_nil] at hboxed
    have hverify := SimpleType.verifyCrc_frame bd obj
    exact ⟨t.frame obj, write_eq_frame bd obj h, hboxed, hverify, by omega⟩

theorem writersAgree_iff_sync :
    WritersAgree .debug (α := SimpleType.Object .streamSync) ⟨7⟩ 9 ∧
      ¬ WritersAgree .debug (α := SimpleType.Object .closeAck) ⟨7⟩ 10 :=
  ⟨(writersAgree_iff .debug .streamSync ⟨7⟩ 9 (by decide)).mpr (by decide),
    fun h => absurd ((writersAgree_iff .debug .closeAck ⟨7⟩ 10 (by decide)).mp h) (by decide)⟩

/-- A boxed close frame is dropped by every receiver, whatever the nonce. -/
theorem verifyCrc_writeBoxed (t : SimpleType) (obj : t.Object) (boxed : Bytes)
    (h : SimpleFrameWrite.writeBoxed bd obj = .ok boxed) :
    verifyCrc bd boxed = .ok (decide (t ≠ .close ∧ t ≠ .closeAck)) := by
  rw [writeBoxed_eq_frame] at h
  obtain rfl := Except.ok.inj h
  rw [verifyCrc_zeros (SimpleType.verifyCrc_frame bd obj), t.residue_slack]

/-- The frame that closes a connection has nine bytes, its boxed form thirty-three, and those do
not pass the checksum. -/
theorem close_writers_disagree :
    SimpleFrame.frameSize CloseFrame = 33 ∧ ¬ WritersAgree .release (CloseFrame.mk 1) 33 ∧
      ∃ frame boxed, SimpleFrameWrite.write .release (CloseFrame.mk 1) 33 = .ok frame ∧
        SimpleFrameWrite.writeBoxed .release (CloseFrame.mk 1) = .ok boxed ∧
        frame.length = 9 ∧ boxed.length = 33 ∧ verifyCrc .release boxed = .ok false := by
  have hwrite := write_eq_frame .release (t := .close) ⟨1⟩ (le_refl 33)
  have hboxed := writeBoxed_eq_frame .release (t := .close) ⟨1⟩
  refine ⟨rfl, ?_, _, _, hwrite, hboxed, rfl, rfl, ?_⟩
  · rintro ⟨frame, hframe, -, -, hlen⟩
    cases hwrite.symm.trans hframe
    exact absurd hlen (by decide)
  · have hverify := SimpleType.verifyCrc_frame .release (t := .close) ⟨1⟩
    exact (verifyCrc_zeros hverify 24).trans (congrArg Except.ok SimpleType.noticed_close)

end Writers
end Redpine.Wire
