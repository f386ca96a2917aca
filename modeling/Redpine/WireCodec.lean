import Redpine.Wire

/-! What the writers put on the wire and what the readers make of it. The encoding of an
object is what its writer appends; reading it back yields the object, whatever follows. -/
namespace Redpine.Wire
open Machine

section Integers

lemma byte_getLsbD {w : ℕ} (v : BitVec w) (k i : ℕ) :
    ((((v >>> k).setWidth 8).setWidth w) <<< k).getLsbD i =
      (decide (k ≤ i ∧ i < k + 8 ∧ i < w) && v.getLsbD i) := by
  simp only [BitVec.getLsbD_shiftLeft, BitVec.getLsbD_setWidth, BitVec.getLsbD_ushiftRight]
  by_cases hk : k ≤ i
  · rw [Nat.add_sub_cancel' hk]
    by_cases h8 : i - k < 8
    · by_cases hw : i < w
      · simp [hk, hw, h8, show ¬ i < k by omega, show i - k < w by omega, show i < k + 8 by omega]
      · simp [hw]
    · simp [h8, show ¬ i < k + 8 by omega]
  · simp [show i < k by omega, show ¬ k ≤ i by omega]

lemma low_byte_getLsbD {w : ℕ} (v : BitVec w) (i : ℕ) :
    ((v.setWidth 8).setWidth w).getLsbD i = (decide (i < 8 ∧ i < w) && v.getLsbD i) := by
  simpa using byte_getLsbD v 0 i

lemma join16 (v : U16) :
    (((v >>> 8).setWidth 8).setWidth 16 <<< 8) ||| (v.setWidth 8).setWidth 16 = v := by
  apply BitVec.eq_of_getLsbD_eq
  intro i hi
  simp only [BitVec.getLsbD_or, byte_getLsbD, low_byte_getLsbD, ← Bool.and_or_distrib_right,
    ← Bool.decide_or]
  rw [decide_eq_true (by omega), Bool.true_and]

lemma join32 (v : U32) :
    (((v >>> 24).setWidth 8).setWidth 32 <<< 24) ||| (((v >>> 16).setWidth 8).setWidth 32 <<< 16)
      ||| (((v >>> 8).setWidth 8).setWidth 32 <<< 8) ||| (v.setWidth 8).setWidth 32 = v := by
  apply BitVec.eq_of_getLsbD_eq
  intro i hi
  simp only [BitVec.getLsbD_or, byte_getLsbD, low_byte_getLsbD, ← Bool.and_or_distrib_right,
    ← Bool.decide_or]
  rw [decide_eq_true (by omega), Bool.true_and]

lemma join64 (v : U64) :
    (((v >>> 56).setWidth 8).setWidth 64 <<< 56) ||| (((v >>> 48).setWidth 8).setWidth 64 <<< 48)
      ||| (((v >>> 40).setWidth 8).setWidth 64 <<< 40)
      ||| (((v >>> 32).setWidth 8).setWidth 64 <<< 32)
      ||| (((v >>> 24).setWidth 8).setWidth 64 <<< 24)
      ||| (((v >>> 16).setWidth 8).setWidth 64 <<< 16)
      ||| (((v >>> 8).setWidth 8).setWidth 64 <<< 8) ||| (v.setWidth 8).setWidth 64 = v := by
  apply BitVec.eq_of_getLsbD_eq
  intro i hi
  simp only [BitVec.getLsbD_or, byte_getLsbD, low_byte_getLsbD, ← Bool.and_or_distrib_right,
    ← Bool.decide_or]
  rw [decide_eq_true (by omega), Bool.true_and]

lemma fromLeBytes_toLeBytes (crc : U32) :
    Crc.fromLeBytes (crc.setWidth 8) ((crc >>> 8).setWidth 8) ((crc >>> 16).setWidth 8)
      ((crc >>> 24).setWidth 8) = crc := by
  apply BitVec.eq_of_getLsbD_eq
  intro i hi
  unfold Crc.fromLeBytes
  simp only [BitVec.getLsbD_or, byte_getLsbD, low_byte_getLsbD, ← Bool.and_or_distrib_right,
    ← Bool.decide_or]
  rw [decide_eq_true (by omega), Bool.true_and]

lemma readU8_cons (b : U8) (rest : Bytes) (n : ℕ) :
    Reader.readU8 ⟨b :: rest, n⟩ = .ok (b, ⟨rest, n + 1⟩) := rfl

lemma readU16_append (v : U16) (rest : Bytes) (n : ℕ) :
    Reader.readU16 ⟨Writer.u16Bytes v ++ rest, n⟩ = .ok (v, ⟨rest, n + 2⟩) := by
  simp only [Writer.u16Bytes, List.cons_append, List.nil_append, Reader.readU16, join16]

lemma readU32_append (v : U32) (rest : Bytes) (n : ℕ) :
    Reader.readU32 ⟨Writer.u32Bytes v ++ rest, n⟩ = .ok (v, ⟨rest, n + 4⟩) := by
  simp only [Writer.u32Bytes, List.cons_append, List.nil_append, Reader.readU32, join32]

lemma readU64_append (v : U64) (rest : Bytes) (n : ℕ) :
    Reader.readU64 ⟨Writer.u64Bytes v ++ rest, n⟩ = .ok (v, ⟨rest, n + 8⟩) := by
  simp only [Writer.u64Bytes, List.cons_append, List.nil_append, Reader.readU64, join64]

lemma writeSlice_of_le {wr : Writer} {bytes : Bytes} (h : bytes.length ≤ wr.room) :
    wr.writeSlice bytes = .ok ⟨wr.room - bytes.length, wr.written ++ bytes⟩ := by
  unfold Writer.writeSlice
  rw [if_pos h]

@[simp] lemma u16Bytes_length (v : U16) : (Writer.u16Bytes v).length = 2 := rfl

@[simp] lemma u32Bytes_length (v : U32) : (Writer.u32Bytes v).length = 4 := rfl

lemma writeU8_eq {wr : Writer} (v : U8) (h : 1 ≤ wr.room) :
    wr.writeU8 v = .ok ⟨wr.room - 1, wr.written ++ [v]⟩ := writeSlice_of_le h

lemma writeU16_eq {wr : Writer} (v : U16) (h : 2 ≤ wr.room) :
    wr.writeU16 v = .ok ⟨wr.room - 2, wr.written ++ Writer.u16Bytes v⟩ := writeSlice_of_le h

lemma writeU32_eq {wr : Writer} (v : U32) (h : 4 ≤ wr.room) :
    wr.writeU32 v = .ok ⟨wr.room - 4, wr.written ++ Writer.u32Bytes v⟩ := writeSlice_of_le h

lemma writeU64_eq {wr : Writer} (v : U64) (h : 8 ≤ wr.room) :
    wr.writeU64 v = .ok ⟨wr.room - 8, wr.written ++ Writer.u64Bytes v⟩ := writeSlice_of_le h

end Integers

/-- A block of fixed size whose reader inverts its writer on valid objects. -/
class LawfulBlock (α : Type) [BlockSerial α] where
  Valid : α → Prop
  encode : α → Bytes
  encode_length : ∀ obj, (encode obj).length = BlockSerial.size α
  size_pos : 0 < BlockSerial.size α
  write_eq : ∀ (wr : Writer) (obj : α), BlockSerial.size α ≤ wr.room →
    BlockSerial.write wr obj = .ok ⟨wr.room - BlockSerial.size α, wr.written ++ encode obj⟩
  read_encode : ∀ (obj : α) (rest : Bytes) (n : ℕ), Valid obj →
    BlockSerial.read ⟨encode obj ++ rest, n⟩ = .ok (obj, ⟨rest, n + BlockSerial.size α⟩)
  read_ok : ∀ (bytes : Bytes) (n : ℕ), BlockSerial.size α ≤ bytes.length →
    ∃ (obj : α) (rest : Bytes), BlockSerial.read ⟨bytes, n⟩ =
      .ok (obj, ⟨rest, n + BlockSerial.size α⟩)

/-- An object whose reader inverts its writer, and whose reader accepts or refuses
whatever it is given. -/
class LawfulSerial (α : Type) [Serial α] where
  Valid : α → Prop
  encode : α → Bytes
  write_eq : ∀ (bd : Build) (bufferLen : ℕ) (obj : α), Valid obj →
    Serial.write bd bufferLen obj =
      .ok (if bufferLen < (encode obj).length then none else some (encode obj))
  read_encode : ∀ (bd : Build) (obj : α) (rest : Bytes), Valid obj →
    Serial.read bd (encode obj ++ rest) = .ok (some (obj, (encode obj).length))
  read_total : ∀ (bd : Build) (bytes : Bytes), ∃ r : Option (α × ℕ),
    Serial.read bd bytes = .ok r ∧ ∀ obj n, r = some (obj, n) → 0 < n ∧ n ≤ bytes.length

instance {α : Type} [BlockSerial α] [LawfulBlock α] : LawfulSerial α where
  Valid := LawfulBlock.Valid
  encode := LawfulBlock.encode
  write_eq := by
    intro bd bufferLen obj _
    have hlen := LawfulBlock.encode_length obj
    simp only [Serial.write, hlen]
    by_cases h : bufferLen < BlockSerial.size α
    · rw [if_pos h, if_pos h]
    · rw [if_neg h, if_neg h, LawfulBlock.write_eq _ _ (by simp only [Writer.new]; omega)]
      have hwritten : Writer.bytesWritten
          ⟨(Writer.new bufferLen).room - BlockSerial.size α,
            (Writer.new bufferLen).written ++ LawfulBlock.encode obj⟩ = BlockSerial.size α := by
        simp [Writer.bytesWritten, Writer.new, hlen]
      simp only [ok_bind, debugAssert_true hwritten, pure_eq_ok]
      simp [Writer.new]
  read_encode := by
    intro bd obj rest hvalid
    have hlen := LawfulBlock.encode_length obj
    simp only [Serial.read, List.length_append, hlen]
    rw [if_neg (by omega)]
    simp only [Reader.new, LawfulBlock.read_encode obj rest 0 hvalid, ok_bind, Nat.zero_add,
      debugAssert_true trivial, pure_eq_ok]
  read_total := by
    intro bd bytes
    simp only [Serial.read]
    by_cases h : bytes.length < BlockSerial.size α
    · rw [if_pos h]
      exact ⟨none, rfl, by simp⟩
    · obtain ⟨obj, rest, hread⟩ := LawfulBlock.read_ok (α := α) bytes 0 (by omega)
      rw [if_neg h]
      simp only [Reader.new, hread, ok_bind, Nat.zero_add, debugAssert_true trivial, pure_eq_ok]
      refine ⟨_, rfl, fun obj' n he => ?_⟩
      simp only [Option.some.injEq, Prod.mk.injEq] at he
      have := LawfulBlock.size_pos (α := α)
      omega

section Blocks

lemma read_one_word (bytes : Bytes) (n : ℕ) (h : 4 ≤ bytes.length) :
    ∃ v rest, Reader.readU32 ⟨bytes, n⟩ = .ok (v, ⟨rest, n + 4⟩) ∧
      rest.length + 4 = bytes.length := by
  rcases bytes with _ | ⟨b0, _ | ⟨b1, _ | ⟨b2, _ | ⟨b3, rest⟩⟩⟩⟩
  · simp at h
  · simp at h
  · simp at h
  · simp at h
  · exact ⟨_, rest, rfl, by simp⟩

instance : LawfulBlock CloseFrame where
  Valid _ := True
  encode obj := Writer.u32Bytes obj.remoteNonce
  encode_length _ := rfl
  size_pos := by decide
  write_eq wr obj h := writeU32_eq obj.remoteNonce h
  read_encode obj rest n _ := by
    simp only [BlockSerial.read, readU32_append, ok_bind, pure_eq_ok]
    rfl
  read_ok bytes n h := by
    obtain ⟨v, rest, hread, -⟩ := read_one_word bytes n h
    refine ⟨⟨v⟩, rest, ?_⟩
    simp only [BlockSerial.read, hread, ok_bind, pure_eq_ok]
    rfl

instance : LawfulBlock CloseAckFrame where
  Valid _ := True
  encode obj := Writer.u32Bytes obj.remoteNonce
  encode_length _ := rfl
  size_pos := by decide
  write_eq wr obj h := writeU32_eq obj.remoteNonce h
  read_encode obj rest n _ := by
    simp only [BlockSerial.read, readU32_append, ok_bind, pure_eq_ok]
    rfl
  read_ok bytes n h := by
    obtain ⟨v, rest, hread, -⟩ := read_one_word bytes n h
    refine ⟨⟨v⟩, rest, ?_⟩
    simp only [BlockSerial.read, hread, ok_bind, pure_eq_ok]
    rfl

instance : LawfulBlock StreamSync where
  Valid _ := True
  encode obj := Writer.u32Bytes obj.nextSegmentId
  encode_length _ := rfl
  size_pos := by decide
  write_eq wr obj h := writeU32_eq obj.nextSegmentId h
  read_encode obj rest n _ := by
    simp only [BlockSerial.read, readU32_append, ok_bind, pure_eq_ok]
    rfl
  read_ok bytes n h := by
    obtain ⟨v, rest, hread, -⟩ := read_one_word bytes n h
    refine ⟨⟨v⟩, rest, ?_⟩
    simp only [BlockSerial.read, hread, ok_bind, pure_eq_ok]
    rfl

lemma StreamSegmentHeader.info_nonce (obj : StreamSegmentHeader) :
    (obj.info &&& 0x01 != 0) = obj.nonce := by
  unfold StreamSegmentHeader.info
  cases obj.nonce <;> rfl

instance : LawfulBlock StreamSegmentHeader where
  Valid _ := True
  encode obj := obj.info :: Writer.u32Bytes obj.id
  encode_length _ := rfl
  size_pos := by decide
  write_eq wr obj h := by
    simp only [BlockSerial.size, streamSegmentHeaderSize] at h
    simp only [BlockSerial.write, writeU8_eq obj.info (by omega : 1 ≤ wr.room), ok_bind]
    rw [writeU32_eq _ (by simp only; omega)]
    simp [BlockSerial.size, streamSegmentHeaderSize, Nat.sub_sub]
  read_encode obj rest n _ := by
    simp only [BlockSerial.read, List.cons_append, readU8_cons, ok_bind, readU32_append,
      pure_eq_ok, obj.info_nonce]
    rfl
  read_ok bytes n h := by
    rcases bytes with _ | ⟨b, bytes⟩
    · simp [BlockSerial.size, streamSegmentHeaderSize] at h
    · simp only [BlockSerial.size, streamSegmentHeaderSize, List.length_cons] at h
      obtain ⟨v, rest, hread, -⟩ := read_one_word bytes (n + 1) (by omega)
      refine ⟨⟨v, b &&& 0x01 != 0⟩, rest, ?_⟩
      simp only [BlockSerial.read, readU8_cons, hread, ok_bind, pure_eq_ok]
      rfl

/-- An ack whose history has five bits. -/
def StreamAck.Valid (obj : StreamAck) : Prop := obj.segmentHistory &&& 0x1F = obj.segmentHistory

lemma StreamAck.info_bits (rel checksum : Bool) (history : U8) :
    ∀ info : U8, info = (if rel then 0x80 else 0) ||| (if checksum then 0x20 else 0) |||
      (history &&& 0x1F) →
      (info &&& 0x1F) = history &&& 0x1F ∧ (info &&& 0x20 != 0) = checksum ∧
        (info &&& 0x80 != 0) = rel := by
  rintro info rfl
  revert history
  cases rel <;> cases checksum <;> decide

instance : LawfulBlock StreamAck where
  Valid := StreamAck.Valid
  encode obj := obj.info ::
    (Writer.u32Bytes obj.segmentId ++ Writer.u32Bytes (obj.relFragmentId.getD 0))
  encode_length _ := rfl
  size_pos := by decide
  write_eq wr obj h := by
    simp only [BlockSerial.size, streamAckSize] at h
    simp only [BlockSerial.write, writeU8_eq obj.info (by omega : 1 ≤ wr.room), ok_bind]
    rw [writeU32_eq _ (by simp only; omega), ok_bind, writeU32_eq _ (by simp only; omega)]
    simp [BlockSerial.size, streamAckSize, Nat.sub_sub]
  read_encode obj rest n hvalid := by
    obtain ⟨hhist, hsum, hrel⟩ := StreamAck.info_bits obj.relFragmentId.isSome
      obj.segmentChecksum obj.segmentHistory obj.info rfl
    have hid : (if obj.relFragmentId.isSome then some (obj.relFragmentId.getD 0) else none) =
        obj.relFragmentId := by
      cases obj.relFragmentId <;> rfl
    unfold StreamAck.Valid at hvalid
    simp only [BlockSerial.read, List.cons_append, List.append_assoc, readU8_cons, ok_bind,
      readU32_append, pure_eq_ok, hhist, hsum, hrel, hvalid, hid]
    rfl
  read_ok bytes n h := by
    rcases bytes with _ | ⟨b, bytes⟩
    · simp [BlockSerial.size, streamAckSize] at h
    · simp only [BlockSerial.size, streamAckSize, List.length_cons] at h
      obtain ⟨v, rest, hread, hlen⟩ := read_one_word bytes (n + 1) (by omega)
      obtain ⟨v', rest', hread', -⟩ := read_one_word rest (n + 1 + 4) (by omega)
      refine ⟨⟨v, b &&& 0x1F, b &&& 0x20 != 0,
        if b &&& 0x80 != 0 then some v' else none⟩, rest', ?_⟩
      simp only [BlockSerial.read, readU8_cons, hread, hread', ok_bind, pure_eq_ok]
      rfl

end Blocks

section Datagrams

def encodeDatagram (obj : Datagram) : Bytes :=
  obj.infoBits :: (Writer.u32Bytes obj.id ++
    (Writer.u16Bytes (BitVec.ofNat 16 obj.data.length) ++ obj.data))

lemma encodeDatagram_length (obj : Datagram) :
    (encodeDatagram obj).length = datagramHeaderSize + obj.data.length := by
  simp only [encodeDatagram, List.length_cons, List.length_append, u32Bytes_length,
    u16Bytes_length, datagramHeaderSize]
  omega

lemma Datagram.info_bits (obj : Datagram) :
    (obj.infoBits &&& datagramUnrelBit != 0) = obj.unrel ∧
      (obj.infoBits &&& datagramFirstBit != 0) = obj.first ∧
      (obj.infoBits &&& datagramLastBit != 0) = obj.last := by
  unfold Datagram.infoBits
  cases obj.unrel <;> cases obj.first <;> cases obj.last <;> decide

instance : LawfulSerial Datagram where
  Valid obj := obj.data.length ≤ datagramDataSizeMax
  encode := encodeDatagram
  write_eq bd bufferLen obj hvalid := by
    simp only [encodeDatagram_length, Serial.write]
    by_cases h : bufferLen < datagramHeaderSize + obj.data.length
    · rw [if_pos h, if_pos h]
    · rw [if_neg h, if_neg h]
      simp only [datagramHeaderSize] at h
      rw [assert_true hvalid, ok_bind]
      simp only [Writer.new]
      rw [writeU8_eq _ (by simp only; omega), ok_bind, writeU32_eq _ (by simp only; omega),
        ok_bind, writeU16_eq _ (by simp only; omega), ok_bind, debugAssert_true, ok_bind,
        writeSlice_of_le (by simp only; omega), ok_bind]
      · simp [encodeDatagram]
      · simp [Writer.bytesWritten, datagramHeaderSize]
  read_encode bd obj rest hvalid := by
    have hlen := encodeDatagram_length obj
    obtain ⟨hunrel, hfirst, hlast⟩ := obj.info_bits
    have hnat : (BitVec.ofNat 16 obj.data.length).toNat = obj.data.length := by
      rw [BitVec.toNat_ofNat, Nat.mod_eq_of_lt]
      simp only [datagramDataSizeMax] at hvalid
      omega
    simp only [Serial.read, List.length_append, hlen]
    rw [if_neg (by omega)]
    have hslice : slice (encodeDatagram obj ++ rest) datagramHeaderSize
        (datagramHeaderSize + obj.data.length) = .ok obj.data := by
      rw [slice_of_le (by omega) (by rw [List.length_append, hlen]; omega)]
      simp [encodeDatagram, datagramHeaderSize, Writer.u32Bytes, Writer.u16Bytes]
    have hread : Reader.new (encodeDatagram obj ++ rest) =
        ⟨obj.infoBits :: (Writer.u32Bytes obj.id ++
          (Writer.u16Bytes (BitVec.ofNat 16 obj.data.length) ++ (obj.data ++ rest))), 0⟩ := by
      simp [Reader.new, encodeDatagram]
    rw [hread]
    simp only [readU8_cons, readU32_append, readU16_append, ok_bind, hnat]
    rw [debugAssert_true (show 0 + 1 + 4 + 2 = datagramHeaderSize from rfl), ok_bind,
      if_neg (by omega), hslice]
    simp only [ok_bind, pure_eq_ok, hunrel, hfirst, hlast]
  read_total bd bytes := by
    simp only [Serial.read]
    by_cases h : bytes.length < datagramHeaderSize
    · rw [if_pos h]
      exact ⟨none, rfl, by simp⟩
    rw [if_neg h]
    simp only [datagramHeaderSize] at h
    rcases bytes with _ | ⟨b, bytes⟩
    · simp at h
    simp only [List.length_cons] at h
    obtain ⟨id, rest, hid, hlen⟩ := read_one_word bytes (0 + 1) (by omega)
    rcases rest with _ | ⟨b0, _ | ⟨b1, rest⟩⟩
    · simp at hlen
      omega
    · simp at hlen
      omega
    generalize hdata : (b0.setWidth 16 <<< 8) ||| b1.setWidth 16 = dataLen
    have h16 : Reader.readU16 ⟨b0 :: b1 :: rest, 0 + 1 + 4⟩ = .ok (dataLen, ⟨rest, 7⟩) := by
      simp only [Reader.readU16, hdata]
    simp only [Reader.new, readU8_cons, hid, h16, ok_bind]
    rw [debugAssert_true (show 7 = datagramHeaderSize from rfl), ok_bind]
    by_cases hshort : (b :: bytes).length < datagramHeaderSize + dataLen.toNat
    · rw [if_pos hshort]
      exact ⟨none, rfl, by simp⟩
    · rw [if_neg hshort, slice_of_le (by omega) (by omega)]
      refine ⟨_, rfl, fun obj n he => ?_⟩
      simp only [Option.some.injEq, Prod.mk.injEq] at he
      simp only [datagramHeaderSize] at he hshort
      omega

end Datagrams

section Frames
variable {α : Type} {bd : Build}

/-- A frame of some type with some payload, closed by its checksum. -/
def frameOf (frameType : FrameType) (payload : Bytes) : Bytes :=
  (typeBits frameType :: payload) ++ Crc.toLeBytes (Crc.compute (typeBits frameType :: payload))

lemma toLeBytes_length (crc : U32) : (Crc.toLeBytes crc).length = 4 := rfl

lemma frameOf_length (frameType : FrameType) (p : Bytes) :
    (frameOf frameType p).length = p.length + 5 := by
  simp only [frameOf, List.length_append, List.length_cons, toLeBytes_length]

lemma verifyMinimumSize_frameOf (frameType : FrameType) (p : Bytes) :
    verifyMinimumSize (frameOf frameType p) = true := by
  rw [verifyMinimumSize, frameOf_length, decide_eq_true_eq]
  exact Nat.le_add_left 5 _

lemma frameTypeOfBits_typeBits (frameType : FrameType) :
    frameTypeOfBits (typeBits frameType &&& frameTypeMask) = some frameType := by
  cases frameType <;> rfl

lemma readType_frameOf (bd : Build) (frameType : FrameType) (p : Bytes) :
    readType bd (frameOf frameType p) = .ok (some frameType) := by
  have hmin := verifyMinimumSize_frameOf frameType p
  have hindex : index (frameOf frameType p) 0 = .ok (typeBits frameType) := by
    rw [index_eq_ok]
    rfl
  unfold readType
  simp only [debugAssert_true hmin, hindex, ok_bind, pure_eq_ok, frameTypeOfBits_typeBits]

lemma payload_frameOf (bd : Build) (frameType : FrameType) (p : Bytes) :
    payload bd (frameOf frameType p) = .ok p := by
  have hlen : (frameOf frameType p).length = p.length + 1 + 4 := frameOf_length frameType p
  have hmin := verifyMinimumSize_frameOf frameType p
  unfold payload
  simp only [debugAssert_true hmin, hlen, frameHeaderSize, frameCrcSize, ok_bind,
    checkedSub_of_le (show 4 ≤ p.length + 1 + 4 by omega)]
  rw [slice_of_le (by omega) (by omega)]
  simp [frameOf]

/-- The last four bytes are compared with the CRC of the others. -/
lemma verifyCrc_toLeBytes (bd : Build) (data : Bytes) (crc : U32) :
    verifyCrc bd (data ++ Crc.toLeBytes crc) = .ok (Crc.compute data == crc) := by
  have hlen : (data ++ Crc.toLeBytes crc).length = data.length + 4 := by
    rw [List.length_append, toLeBytes_length]
  unfold verifyCrc
  rw [debugAssert_true (by rw [hlen, Crc.size]; omega), ok_bind, hlen,
    checkedSub_of_le (by rw [Crc.size]; omega), ok_bind]
  simp only [Crc.size, Nat.add_sub_cancel]
  rw [slice_of_le (Nat.zero_le _) (by omega), ok_bind, slice_of_le (by omega) (by omega), ok_bind]
  simp only [List.drop_zero, Nat.sub_zero, List.take_left, List.drop_left, Nat.add_sub_cancel_left,
    Crc.toLeBytes, List.take_succ_cons, List.take_zero, fromLeBytes_toLeBytes, pure_eq_ok]

/-- A frame whose trailing bytes are the checksum of the others. -/
lemma verifyCrc_append (bd : Build) (data : Bytes) :
    verifyCrc bd (data ++ Crc.toLeBytes (Crc.compute data)) = .ok true := by
  rw [verifyCrc_toLeBytes, beq_self_eq_true]

lemma verifyCrc_frameOf (bd : Build) (frameType : FrameType) (p : Bytes) :
    verifyCrc bd (frameOf frameType p) = .ok true := verifyCrc_append bd _

namespace FrameWriter

lemma new_eq {n : ℕ} (h : 5 ≤ n) (frameType : FrameType) :
    FrameWriter.new bd n frameType = .ok ⟨n, [typeBits frameType]⟩ := by
  have hsize : frameOverheadSize ≤ n := h
  have hwritten : Writer.bytesWritten
      ⟨(Writer.new n).room - 1, (Writer.new n).written ++ [typeBits frameType]⟩ =
        frameHeaderSize := rfl
  unfold FrameWriter.new
  rw [debugAssert_true hsize, ok_bind, writeU8_eq _ (by simp only [Writer.new]; omega), ok_bind,
    debugAssert_true hwritten]
  rfl

/-- An object is appended exactly if it leaves room for the checksum. -/
lemma write_eq [Serial α] [LawfulSerial α] {w : FrameWriter} {obj : α}
    (h : w.written.length + 4 ≤ w.bufferLen) (hvalid : LawfulSerial.Valid obj) :
    w.write bd obj =
      if w.bufferLen < w.written.length + (LawfulSerial.encode obj).length + 4 then
        .ok (w, false)
      else .ok ({ w with written := w.written ++ LawfulSerial.encode obj }, true) := by
  unfold FrameWriter.write
  rw [checkedSub_of_le (by simp only [frameCrcSize]; omega)]
  simp only [ok_bind, frameCrcSize, LawfulSerial.write_eq bd _ obj hvalid]
  rw [if_pos (by omega)]
  by_cases hroom : w.bufferLen < w.written.length + (LawfulSerial.encode obj).length + 4
  · rw [if_pos hroom, if_pos (by omega)]
    rfl
  · rw [if_neg hroom, if_neg (by omega)]
    rfl

lemma finalize_eq {n : ℕ} {frameType : FrameType} {p : Bytes} (h : p.length + 5 ≤ n) :
    FrameWriter.finalize ⟨n, typeBits frameType :: p⟩ = .ok (frameOf frameType p) := by
  unfold FrameWriter.finalize
  rw [if_pos (by simp only [List.length_cons, Crc.size]; omega)]
  rfl

end FrameWriter

lemma simpleWrite_eq [SimpleFrame α] [LawfulBlock α] {obj : α} {n : ℕ}
    (hvalid : LawfulBlock.Valid obj) (hn : SimpleFrame.frameSize α ≤ n)
    (hsize : BlockSerial.size α + 5 ≤ n) :
    SimpleFrameWrite.write bd obj n =
      .ok (frameOf (SimpleFrame.frameType α) (LawfulBlock.encode obj)) := by
  have hlen := LawfulBlock.encode_length obj
  have hencode : LawfulSerial.encode obj = LawfulBlock.encode obj := rfl
  unfold SimpleFrameWrite.write
  rw [debugAssert_true hn, ok_bind, FrameWriter.new_eq (by omega), ok_bind,
    FrameWriter.write_eq (by simp only [List.length_singleton]; omega) hvalid,
    if_neg (by simp only [List.length_singleton, hencode, hlen]; omega), ok_bind]
  simp only [List.singleton_append, hencode]
  exact FrameWriter.finalize_eq (by omega)

namespace PayloadReader

lemma read_buffer [Serial α] {r r' : PayloadReader} {obj : Option α}
    (h : r.read α bd = .ok (obj, r')) : r'.buffer = r.buffer := by
  unfold PayloadReader.read at h
  obtain ⟨bytes, -, h⟩ := bind_eq_ok.mp h
  obtain ⟨res, -, h⟩ := bind_eq_ok.mp h
  cases res with
  | none =>
    cases h
    rfl
  | some res =>
    cases h
    rfl

lemma remainingBytes_length {r : PayloadReader} {bytes : Bytes}
    (h : r.remainingBytes = .ok bytes) : bytes.length ≤ r.buffer.length := by
  unfold remainingBytes slice at h
  split_ifs at h with hle
  cases h
  rw [List.length_take, List.length_drop]
  omega

variable (bd) in
/-- Reading never fails, and takes at least one byte if it returns an object. -/
lemma read_total [Serial α] [LawfulSerial α] {r : PayloadReader}
    (h : r.readIdx ≤ r.buffer.length) :
    ∃ (obj : Option α) (r' : PayloadReader), r.read α bd = .ok (obj, r') ∧
      r'.buffer = r.buffer ∧ r'.readIdx ≤ r.buffer.length ∧
      (obj.isSome = true → r.readIdx < r'.readIdx) := by
  unfold PayloadReader.read remainingBytes
  rw [slice_of_le h le_rfl, ok_bind]
  obtain ⟨res, hread, hsize⟩ := LawfulSerial.read_total (α := α) bd
    ((r.buffer.drop r.readIdx).take (r.buffer.length - r.readIdx))
  rw [hread, ok_bind]
  cases res with
  | none => exact ⟨none, r, rfl, rfl, h, by simp⟩
  | some res =>
    obtain ⟨obj, n⟩ := res
    have hn := hsize obj n rfl
    simp only [List.length_take, List.length_drop] at hn
    exact ⟨some obj, _, rfl, rfl, by simp only; omega, fun _ => by simp only; omega⟩

variable (bd) in
/-- Reading an object from its encoding. -/
lemma read_encode [Serial α] [LawfulSerial α] {r : PayloadReader} {obj : α} {rest : Bytes}
    (h : r.readIdx ≤ r.buffer.length)
    (hdrop : r.buffer.drop r.readIdx = LawfulSerial.encode obj ++ rest)
    (hvalid : LawfulSerial.Valid obj) :
    ∃ r' : PayloadReader, r.read α bd = .ok (some obj, r') ∧ r'.buffer = r.buffer ∧
      r'.readIdx ≤ r'.buffer.length ∧ r'.buffer.drop r'.readIdx = rest := by
  have hlen := congrArg List.length hdrop
  simp only [List.length_drop, List.length_append] at hlen
  unfold PayloadReader.read remainingBytes
  rw [slice_of_le h le_rfl, ok_bind, List.take_of_length_le (by simp), hdrop,
    LawfulSerial.read_encode bd obj rest hvalid, ok_bind]
  refine ⟨_, rfl, rfl, by simp only; omega, ?_⟩
  simp only [← List.drop_drop, hdrop, List.drop_left]

end PayloadReader

end Frames

end Redpine.Wire
