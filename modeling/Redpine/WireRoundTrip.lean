import Redpine.WireCodec

/-! The wire format as a whole: what is written into a frame of a stream is read back from it
in order, and every simple frame decodes to itself. -/
namespace Redpine.Wire
open Machine

section Handshakes

lemma read_u8 (bytes : Bytes) (n : ℕ) (h : 1 ≤ bytes.length) :
    ∃ v rest, Reader.readU8 ⟨bytes, n⟩ = .ok (v, ⟨rest, n + 1⟩) ∧
      rest.length + 1 = bytes.length := by
  cases bytes with
  | nil => simp at h
  | cons b rest => exact ⟨b, rest, rfl, rfl⟩

lemma read_u16 (bytes : Bytes) (n : ℕ) (h : 2 ≤ bytes.length) :
    ∃ v rest, Reader.readU16 ⟨bytes, n⟩ = .ok (v, ⟨rest, n + 2⟩) ∧
      rest.length + 2 = bytes.length := by
  rcases bytes with _ | ⟨b0, _ | ⟨b1, rest⟩⟩
  · simp at h
  · simp at h
  · exact ⟨_, rest, rfl, rfl⟩

lemma read_u64 (bytes : Bytes) (n : ℕ) (h : 8 ≤ bytes.length) :
    ∃ v rest, Reader.readU64 ⟨bytes, n⟩ = .ok (v, ⟨rest, n + 8⟩) ∧
      rest.length + 8 = bytes.length := by
  have htake : (bytes.take 8).length = 8 := List.length_take_of_le h
  have hsplit := List.take_append_drop 8 bytes
  generalize hrest : bytes.drop 8 = rest at hsplit
  generalize bytes.take 8 = front at htake hsplit
  match front, htake with
  | [_, _, _, _, _, _, _, _], _ =>
    rw [← hsplit]
    exact ⟨_, rest, rfl, by simp⟩

instance : LawfulBlock HandshakeAlphaFrame where
  Valid _ := True
  encode obj := Writer.u16Bytes obj.protocolId ++ Writer.u32Bytes obj.clientNonce
  encode_length _ := rfl
  size_pos := by decide
  write_eq wr obj h := by
    simp only [BlockSerial.size, handshakeAlphaSize] at h
    simp only [BlockSerial.write, writeU16_eq obj.protocolId (by omega : 2 ≤ wr.room), ok_bind]
    rw [writeU32_eq _ (by simp only; omega)]
    simp [BlockSerial.size, handshakeAlphaSize, Nat.sub_sub]
  read_encode obj rest n _ := by
    simp only [BlockSerial.read, List.append_assoc, readU16_append, readU32_append, ok_bind,
      pure_eq_ok]
    rfl
  read_ok bytes n h := by
    simp only [BlockSerial.size, handshakeAlphaSize] at h
    obtain ⟨v, rest, hread, hlen⟩ := read_u16 bytes n (by omega)
    obtain ⟨v', rest', hread', -⟩ := read_one_word rest (n + 2) (by omega)
    refine ⟨⟨v, v'⟩, rest', ?_⟩
    simp only [BlockSerial.read, hread, hread', ok_bind, pure_eq_ok]
    rfl

/-- Five words and a word of twice their size. -/
lemma read_words (bytes : Bytes) (n : ℕ) (h : 28 ≤ bytes.length) :
    ∃ v₁ v₂ v₃ v₄ v₅ mac r₁ r₂ r₃ r₄ r₅ r₆,
      Reader.readU32 ⟨bytes, n⟩ = .ok (v₁, ⟨r₁, n + 4⟩) ∧
      Reader.readU32 ⟨r₁, n + 4⟩ = .ok (v₂, ⟨r₂, n + 8⟩) ∧
      Reader.readU32 ⟨r₂, n + 8⟩ = .ok (v₃, ⟨r₃, n + 12⟩) ∧
      Reader.readU32 ⟨r₃, n + 12⟩ = .ok (v₄, ⟨r₄, n + 16⟩) ∧
      Reader.readU32 ⟨r₄, n + 16⟩ = .ok (v₅, ⟨r₅, n + 20⟩) ∧
      Reader.readU64 ⟨r₅, n + 20⟩ = .ok (mac, ⟨r₆, n + 28⟩) := by
  obtain ⟨v₁, r₁, h₁, hlen₁⟩ := read_one_word bytes n (by omega)
  obtain ⟨v₂, r₂, h₂, hlen₂⟩ := read_one_word r₁ (n + 4) (by omega)
  obtain ⟨v₃, r₃, h₃, hlen₃⟩ := read_one_word r₂ (n + 8) (by omega)
  obtain ⟨v₄, r₄, h₄, hlen₄⟩ := read_one_word r₃ (n + 12) (by omega)
  obtain ⟨v₅, r₅, h₅, hlen₅⟩ := read_one_word r₄ (n + 16) (by omega)
  obtain ⟨mac, r₆, h₆, -⟩ := read_u64 r₅ (n + 20) (by omega)
  exact ⟨v₁, v₂, v₃, v₄, v₅, mac, r₁, r₂, r₃, r₄, r₅, r₆, h₁, h₂, h₃, h₄, h₅, h₆⟩

/-- The bytes of connection parameters, two nonces, a timestamp and a code. -/
def handshakeBytes (params : ConnectionParams) (clientNonce serverNonce serverTimestamp : U32)
    (serverMac : U64) : Bytes :=
  Writer.u32Bytes params.packetSizeInMax ++ (Writer.u32Bytes params.packetSizeOutMax ++
    (Writer.u32Bytes clientNonce ++ (Writer.u32Bytes serverNonce ++
      (Writer.u32Bytes serverTimestamp ++ Writer.u64Bytes serverMac))))

instance : LawfulBlock HandshakeAlphaAckFrame where
  Valid _ := True
  encode obj := handshakeBytes obj.serverParams obj.clientNonce obj.serverNonce
    obj.serverTimestamp obj.serverMac
  encode_length _ := rfl
  size_pos := by decide
  write_eq wr obj h := by
    simp only [BlockSerial.size, handshakeAlphaAckSize] at h
    simp only [BlockSerial.write, writeU32_eq obj.serverParams.packetSizeInMax
      (by omega : 4 ≤ wr.room), ok_bind]
    rw [writeU32_eq _ (by simp only; omega), ok_bind, writeU32_eq _ (by simp only; omega), ok_bind,
      writeU32_eq _ (by simp only; omega), ok_bind, writeU32_eq _ (by simp only; omega), ok_bind,
      writeU64_eq _ (by simp only; omega)]
    simp [BlockSerial.size, handshakeAlphaAckSize, handshakeBytes, Nat.sub_sub]
  read_encode obj rest n _ := by
    simp only [BlockSerial.read, handshakeBytes, List.append_assoc, readU32_append, readU64_append,
      ok_bind, pure_eq_ok]
    rfl
  read_ok bytes n h := by
    obtain ⟨v₁, v₂, v₃, v₄, v₅, mac, r₁, r₂, r₃, r₄, r₅, r₆, h₁, h₂, h₃, h₄, h₅, h₆⟩ :=
      read_words bytes n h
    refine ⟨⟨⟨v₁, v₂⟩, v₃, v₄, v₅, mac⟩, r₆, ?_⟩
    simp only [BlockSerial.read, h₁, h₂, h₃, h₄, h₅, h₆, ok_bind, pure_eq_ok]
    rfl

instance : LawfulBlock HandshakeBetaFrame where
  Valid _ := True
  encode obj := handshakeBytes obj.clientParams obj.clientNonce obj.serverNonce
    obj.serverTimestamp obj.serverMac
  encode_length _ := rfl
  size_pos := by decide
  write_eq wr obj h := by
    simp only [BlockSerial.size, handshakeBetaSize] at h
    simp only [BlockSerial.write, writeU32_eq obj.clientParams.packetSizeInMax
      (by omega : 4 ≤ wr.room), ok_bind]
    rw [writeU32_eq _ (by simp only; omega), ok_bind, writeU32_eq _ (by simp only; omega), ok_bind,
      writeU32_eq _ (by simp only; omega), ok_bind, writeU32_eq _ (by simp only; omega), ok_bind,
      writeU64_eq _ (by simp only; omega)]
    simp [BlockSerial.size, handshakeBetaSize, handshakeBytes, Nat.sub_sub]
  read_encode obj rest n _ := by
    simp only [BlockSerial.read, handshakeBytes, List.append_assoc, readU32_append, readU64_append,
      ok_bind, pure_eq_ok]
    rfl
  read_ok bytes n h := by
    obtain ⟨v₁, v₂, v₃, v₄, v₅, mac, r₁, r₂, r₃, r₄, r₅, r₆, h₁, h₂, h₃, h₄, h₅, h₆⟩ :=
      read_words bytes n h
    refine ⟨⟨⟨v₁, v₂⟩, v₃, v₄, v₅, mac⟩, r₆, ?_⟩
    simp only [BlockSerial.read, h₁, h₂, h₃, h₄, h₅, h₆, ok_bind, pure_eq_ok]
    rfl

lemma handshakeErrorOfStatus_status (error : Option HandshakeErrorKind) :
    handshakeErrorOfStatus (statusOfHandshakeError error) = error := by
  rcases error with _ | kind
  · rfl
  · cases kind <;> rfl

lemma HandshakeBetaAckFrame.write_eq (wr : Writer) (obj : HandshakeBetaAckFrame)
    (h : BlockSerial.size HandshakeBetaAckFrame ≤ wr.room) :
    BlockSerial.write wr obj = .ok ⟨wr.room - BlockSerial.size HandshakeBetaAckFrame,
      wr.written ++ (statusOfHandshakeError obj.error :: Writer.u32Bytes obj.clientNonce)⟩ := by
  simp only [BlockSerial.size, handshakeBetaAckSize] at h
  simp only [BlockSerial.write, writeU8_eq (statusOfHandshakeError obj.error)
    (by omega : 1 ≤ wr.room), ok_bind]
  rw [writeU32_eq _ (by simp only; omega)]
  simp [BlockSerial.size, handshakeBetaAckSize, Nat.sub_sub]

instance : LawfulBlock HandshakeBetaAckFrame where
  Valid _ := True
  encode obj := statusOfHandshakeError obj.error :: Writer.u32Bytes obj.clientNonce
  encode_length _ := rfl
  size_pos := by decide
  write_eq wr obj h := obj.write_eq wr h
  read_encode obj rest n _ := by
    simp only [BlockSerial.read, List.cons_append, readU8_cons, ok_bind, readU32_append,
      pure_eq_ok, handshakeErrorOfStatus_status]
    rfl
  read_ok bytes n h := by
    simp only [BlockSerial.size, handshakeBetaAckSize] at h
    obtain ⟨v, rest, hread, hlen⟩ := read_u8 bytes n (by omega)
    obtain ⟨v', rest', hread', -⟩ := read_one_word rest (n + 1) (by omega)
    refine ⟨⟨handshakeErrorOfStatus v, v'⟩, rest', ?_⟩
    simp only [BlockSerial.read, hread, hread', ok_bind, pure_eq_ok]
    rfl

end Handshakes

section Streams
variable {bd : Build}

/-- What a frame of a stream is made of. -/
inductive StreamObject
  | ack (obj : StreamAck)
  | header (obj : StreamSegmentHeader)
  | datagram (obj : Datagram)

inductive StreamKind
  | ack
  | header
  | datagram

namespace StreamObject

def kind : StreamObject → StreamKind
  | .ack _ => .ack
  | .header _ => .header
  | .datagram _ => .datagram

/-- The history of an ack has five bits, and a datagram carries at most 65535 bytes. -/
def Valid : StreamObject → Prop
  | .ack obj => obj.Valid
  | .header _ => True
  | .datagram obj => obj.data.length ≤ datagramDataSizeMax

def encode : StreamObject → Bytes
  | .ack obj => LawfulSerial.encode obj
  | .header obj => LawfulSerial.encode obj
  | .datagram obj => LawfulSerial.encode obj

def write (bd : Build) (w : FrameWriter) : StreamObject → Exec (FrameWriter × Bool)
  | .ack obj => w.write bd obj
  | .header obj => w.write bd obj
  | .datagram obj => w.write bd obj

end StreamObject

def PayloadReader.readKind (bd : Build) (r : PayloadReader) :
    StreamKind → Exec (Option StreamObject × PayloadReader)
  | .ack => do
      let (obj, r) ← r.read StreamAck bd
      return (obj.map .ack, r)
  | .header => do
      let (obj, r) ← r.read StreamSegmentHeader bd
      return (obj.map .header, r)
  | .datagram => do
      let (obj, r) ← r.read Datagram bd
      return (obj.map .datagram, r)

/-- Writes objects one after the other, and returns those whose write returned `true`. -/
def writeAll (bd : Build) (w : FrameWriter) :
    List StreamObject → Exec (FrameWriter × List StreamObject)
  | [] => .ok (w, [])
  | obj :: objs => do
      let (w, isWritten) ← obj.write bd w
      let (w, accepted) ← writeAll bd w objs
      return (w, if isWritten then obj :: accepted else accepted)

def readAll (bd : Build) (r : PayloadReader) :
    List StreamKind → Exec (List (Option StreamObject) × PayloadReader)
  | [] => .ok ([], r)
  | kind :: kinds => do
      let (obj, r) ← r.readKind bd kind
      let (objs, r) ← readAll bd r kinds
      return (obj :: objs, r)

/-- An object is appended exactly if it leaves room for the checksum. -/
lemma StreamObject.write_eq {w : FrameWriter} {obj : StreamObject}
    (hroom : w.written.length + 4 ≤ w.bufferLen) (hvalid : obj.Valid) :
    obj.write bd w = if w.bufferLen < w.written.length + obj.encode.length + 4 then .ok (w, false)
      else .ok ({ w with written := w.written ++ obj.encode }, true) := by
  cases obj with
  | ack obj => exact FrameWriter.write_eq hroom hvalid
  | header obj => exact FrameWriter.write_eq hroom hvalid
  | datagram obj => exact FrameWriter.write_eq hroom hvalid

lemma writeAll_spec {w : FrameWriter} {objs : List StreamObject}
    (hroom : w.written.length + 4 ≤ w.bufferLen) (hvalid : ∀ obj ∈ objs, obj.Valid) :
    ∃ accepted, writeAll bd w objs =
        .ok ({ w with written := w.written ++ accepted.flatMap StreamObject.encode }, accepted) ∧
      accepted.Sublist objs ∧
      w.written.length + (accepted.flatMap StreamObject.encode).length + 4 ≤ w.bufferLen := by
  induction objs generalizing w with
  | nil => exact ⟨[], by simp [writeAll], .slnil, by simpa using hroom⟩
  | cons obj objs ih =>
    have hwrite := @StreamObject.write_eq bd _ _ hroom (hvalid obj List.mem_cons_self)
    have hrest := fun o ho => hvalid o (List.mem_cons_of_mem _ ho)
    by_cases hfull : w.bufferLen < w.written.length + obj.encode.length + 4
    · rw [if_pos hfull] at hwrite
      obtain ⟨accepted, hall, hsub, hlen⟩ := ih hroom hrest
      refine ⟨accepted, ?_, hsub.cons obj, hlen⟩
      rw [writeAll, hwrite, ok_bind]
      dsimp only
      rw [hall, ok_bind]
      rfl
    · rw [if_neg hfull] at hwrite
      obtain ⟨accepted, hall, hsub, hlen⟩ :=
        ih (w := { w with written := w.written ++ obj.encode })
          (by dsimp only; rw [List.length_append]; omega) hrest
      rw [List.length_append] at hlen
      refine ⟨obj :: accepted, ?_, hsub.cons_cons obj, ?_⟩
      · rw [writeAll, hwrite, ok_bind]
        dsimp only
        rw [hall, ok_bind, List.flatMap_cons, ← List.append_assoc]
        rfl
      · rw [List.flatMap_cons, List.length_append]
        dsimp only at hlen
        omega

lemma readKind_encode {r : PayloadReader} {obj : StreamObject} {rest : Bytes}
    (hr : r.readIdx ≤ r.buffer.length) (hdrop : r.buffer.drop r.readIdx = obj.encode ++ rest)
    (hvalid : obj.Valid) :
    ∃ r' : PayloadReader, r.readKind bd obj.kind = .ok (some obj, r') ∧ r'.buffer = r.buffer ∧
      r'.readIdx ≤ r'.buffer.length ∧ r'.buffer.drop r'.readIdx = rest := by
  cases obj with
  | ack obj =>
    obtain ⟨r', hread, hspec⟩ := PayloadReader.read_encode bd hr hdrop hvalid
    exact ⟨r', by rw [StreamObject.kind, PayloadReader.readKind, hread]; rfl, hspec⟩
  | header obj =>
    obtain ⟨r', hread, hspec⟩ := PayloadReader.read_encode bd hr hdrop hvalid
    exact ⟨r', by rw [StreamObject.kind, PayloadReader.readKind, hread]; rfl, hspec⟩
  | datagram obj =>
    obtain ⟨r', hread, hspec⟩ := PayloadReader.read_encode bd hr hdrop hvalid
    exact ⟨r', by rw [StreamObject.kind, PayloadReader.readKind, hread]; rfl, hspec⟩

/-- The reader is at the end of the same buffer. -/
lemma readAll_encode {r : PayloadReader} {objs : List StreamObject}
    (hr : r.readIdx ≤ r.buffer.length)
    (hdrop : r.buffer.drop r.readIdx = objs.flatMap StreamObject.encode)
    (hvalid : ∀ obj ∈ objs, obj.Valid) :
    readAll bd r (objs.map (·.kind)) = .ok (objs.map some, ⟨r.buffer, r.buffer.length⟩) := by
  induction objs generalizing r with
  | nil =>
    have hlen := congrArg List.length hdrop
    rw [List.length_drop, List.flatMap_nil, List.length_nil] at hlen
    have hend : r.readIdx = r.buffer.length := by omega
    rw [← hend]
    rfl
  | cons obj objs ih =>
    rw [List.flatMap_cons] at hdrop
    obtain ⟨r₁, hread, hbuffer, hle, hrest⟩ :=
      @readKind_encode bd _ _ _ hr hdrop (hvalid obj List.mem_cons_self)
    have hall := ih hle hrest fun o ho => hvalid o (List.mem_cons_of_mem _ ho)
    rw [hbuffer] at hall
    rw [List.map_cons, readAll, hread, ok_bind]
    dsimp only
    rw [hall]
    rfl

/-- Nothing is read from an exhausted payload. -/
lemma read_exhausted {α : Type} [Serial α] [LawfulSerial α] {r : PayloadReader}
    (hend : r.readIdx = r.buffer.length) : r.read α bd = .ok (none, r) := by
  unfold PayloadReader.read PayloadReader.remainingBytes
  rw [slice_of_le hend.le le_rfl, ok_bind]
  have hnil : (r.buffer.drop r.readIdx).take (r.buffer.length - r.readIdx) = [] := by
    rw [hend, Nat.sub_self, List.take_zero]
  rw [hnil]
  obtain ⟨res, hread, hsize⟩ := LawfulSerial.read_total (α := α) bd []
  rw [hread, ok_bind]
  cases res with
  | none => rfl
  | some res =>
    have := hsize res.1 res.2 rfl
    simp only [List.length_nil] at this
    omega

lemma readKind_exhausted {r : PayloadReader} (hend : r.readIdx = r.buffer.length)
    (kind : StreamKind) : r.readKind bd kind = .ok (none, r) := by
  cases kind with
  | ack => rw [PayloadReader.readKind, read_exhausted hend]; rfl
  | header => rw [PayloadReader.readKind, read_exhausted hend]; rfl
  | datagram => rw [PayloadReader.readKind, read_exhausted hend]; rfl

end Streams

section RoundTrips
variable (bd : Build)

/-- What is written into a frame of a stream, however much of it fits, is read back. -/
def StreamRoundTrip : Prop :=
  ∀ (n : ℕ) (frameType : FrameType) (objs : List StreamObject), 5 ≤ n →
    (∀ obj ∈ objs, obj.Valid) →
    ∃ w w' accepted frame p r, FrameWriter.new bd n frameType = .ok w ∧
      writeAll bd w objs = .ok (w', accepted) ∧ w'.finalize = .ok frame ∧
      verifyMinimumSize frame = true ∧ verifyCrc bd frame = .ok true ∧
      readType bd frame = .ok (some frameType) ∧ payload bd frame = .ok p ∧
      readAll bd (PayloadReader.new p) (accepted.map (·.kind)) = .ok (accepted.map some, r) ∧
      ∀ kind, r.readKind bd kind = .ok (none, r)

/-- Every value of a type of simple frames decodes to itself. -/
def SimpleRoundTrip (α : Type) [SimpleFrame α] : Prop :=
  ∀ (obj : α) (dstLen : ℕ), SimpleFrame.frameSize α ≤ dstLen →
    ∃ frame p, SimpleFrameWrite.write bd obj dstLen = .ok frame ∧
      verifyMinimumSize frame = true ∧ readType bd frame = .ok (some (SimpleFrame.frameType α)) ∧
      verifyCrc bd frame = .ok true ∧ payload bd frame = .ok p ∧
      readPayload α bd p = .ok (some obj)

/-- A padded first handshake frame is accepted at the size it was padded to. -/
def HandshakeAlphaRoundTrip : Prop :=
  ∀ (obj : HandshakeAlphaFrame) (frameSizeMax : ℕ), 11 ≤ frameSizeMax →
    ∃ frame p, writeHandshakeAlpha bd obj frameSizeMax = .ok frame ∧
      verifyHandshakeAlphaSizeAndCrc bd frame frameSizeMax = .ok true ∧
      readType bd frame = .ok (some .handshakeAlpha) ∧ payload bd frame = .ok p ∧
      readPayload HandshakeAlphaFrame bd p = .ok (some obj)

lemma streamRoundTrip : StreamRoundTrip bd := by
  intro n frameType objs hn hvalid
  obtain ⟨accepted, hall, hsub, hlen⟩ := @writeAll_spec bd ⟨n, [typeBits frameType]⟩ _
    (by simpa using hn) hvalid
  rw [List.singleton_append] at hall
  rw [List.length_singleton] at hlen
  dsimp only at hlen
  have hread := @readAll_encode bd
    (PayloadReader.new (accepted.flatMap StreamObject.encode)) _ (Nat.zero_le _) rfl
    fun obj hobj => hvalid obj (hsub.subset hobj)
  have hfit : (accepted.flatMap StreamObject.encode).length + 5 ≤ n := by omega
  exact ⟨_, _, accepted, _, _, _, FrameWriter.new_eq hn frameType, hall,
    FrameWriter.finalize_eq hfit, verifyMinimumSize_frameOf _ _, verifyCrc_frameOf bd _ _,
    readType_frameOf bd _ _, payload_frameOf bd _ _, hread, readKind_exhausted rfl⟩

lemma readPayload_encode {α : Type} [SimpleFrame α] [LawfulBlock α] {obj : α} (rest : Bytes)
    (hvalid : LawfulBlock.Valid obj) :
    readPayload α bd (LawfulBlock.encode obj ++ rest) = .ok (some obj) := by
  obtain ⟨r, hread, -⟩ := PayloadReader.read_encode bd
    (r := PayloadReader.new (LawfulBlock.encode obj ++ rest)) (Nat.zero_le _)
    (rfl : _ = LawfulSerial.encode obj ++ rest) hvalid
  unfold readPayload
  rw [hread]
  rfl

lemma simpleRoundTrip {α : Type} [SimpleFrame α] [LawfulBlock α]
    (hvalid : ∀ obj : α, LawfulBlock.Valid obj)
    (hsize : BlockSerial.size α + 5 ≤ SimpleFrame.frameSize α) : SimpleRoundTrip bd α := by
  intro obj dstLen hdst
  have hread := readPayload_encode bd [] (hvalid obj)
  rw [List.append_nil] at hread
  exact ⟨_, _, simpleWrite_eq (hvalid obj) hdst (hsize.trans hdst), verifyMinimumSize_frameOf _ _,
    readType_frameOf bd _ _, verifyCrc_frameOf bd _ _, payload_frameOf bd _ _, hread⟩

/-- A first handshake frame, padded to a size. -/
def paddedAlpha (obj : HandshakeAlphaFrame) (size : ℕ) : Bytes :=
  frameOf .handshakeAlpha (LawfulBlock.encode obj) ++ List.replicate (size - 11) 0

lemma paddedAlpha_length (obj : HandshakeAlphaFrame) {size : ℕ} (h : 11 ≤ size) :
    (paddedAlpha obj size).length = size := by
  have hframe : (frameOf .handshakeAlpha (LawfulBlock.encode obj)).length = 11 := frameOf_length _ _
  rw [paddedAlpha, List.length_append, hframe, List.length_replicate]
  omega

lemma writeHandshakeAlpha_eq (obj : HandshakeAlphaFrame) {frameSizeMax : ℕ}
    (h : 11 ≤ frameSizeMax) : writeHandshakeAlpha bd obj frameSizeMax =
      .ok (paddedAlpha obj (min frameSizeMax handshakeAlphaFrameSizeMax)) := by
  have hsize : 11 ≤ min frameSizeMax handshakeAlphaFrameSizeMax := le_min h (by decide)
  unfold writeHandshakeAlpha
  dsimp only
  generalize min frameSizeMax handshakeAlphaFrameSizeMax = size at hsize
  have hwrite : FrameWriter.write bd ⟨size, [typeBits .handshakeAlpha]⟩ obj =
      .ok (⟨size, typeBits .handshakeAlpha :: LawfulBlock.encode obj⟩, true) := by
    have hroom : ¬ size < 1 + 6 + 4 := by omega
    rw [FrameWriter.write_eq (by simp only [List.length_singleton]; omega) trivial]
    exact if_neg hroom
  rw [FrameWriter.new_eq (by omega), ok_bind, hwrite, ok_bind]
  dsimp only
  rw [FrameWriter.finalize_eq hsize, ok_bind]
  rfl

lemma verifyMinimumSize_paddedAlpha (obj : HandshakeAlphaFrame) {size : ℕ} (h : 11 ≤ size) :
    verifyMinimumSize (paddedAlpha obj size) = true := by
  rw [verifyMinimumSize, paddedAlpha_length obj h, decide_eq_true_eq]
  exact le_trans (by decide) h

lemma verify_paddedAlpha (obj : HandshakeAlphaFrame) {size : ℕ} (h : 11 ≤ size) :
    slice (paddedAlpha obj size) 0 (handshakeAlphaSize + frameOverheadSize) =
      .ok (frameOf .handshakeAlpha (LawfulBlock.encode obj)) := by
  rw [slice_of_le (Nat.zero_le _) (by rw [paddedAlpha_length obj h]; exact h), List.drop_zero]
  exact congrArg Except.ok (List.take_left' rfl)

lemma payload_paddedAlpha (obj : HandshakeAlphaFrame) {size : ℕ} (h : 11 ≤ size) :
    ∃ rest, payload bd (paddedAlpha obj size) = .ok (LawfulBlock.encode obj ++ rest) := by
  have hdrop : (paddedAlpha obj size).drop 1 = LawfulBlock.encode obj ++
      (Crc.toLeBytes (Crc.compute (typeBits .handshakeAlpha :: LawfulBlock.encode obj)) ++
        List.replicate (size - 11) 0) := by
    simp [paddedAlpha, frameOf]
  have htake : (LawfulBlock.encode obj).take (size - 4 - 1) = LawfulBlock.encode obj := by
    apply List.take_of_length_le
    change 6 ≤ size - 4 - 1
    omega
  unfold payload
  rw [debugAssert_true (verifyMinimumSize_paddedAlpha obj h), ok_bind, paddedAlpha_length obj h]
  simp only [frameCrcSize, frameHeaderSize]
  rw [checkedSub_of_le (by omega), ok_bind, slice_of_le (by omega)
    (by rw [paddedAlpha_length obj h]; omega), hdrop, List.take_append, htake]
  exact ⟨_, rfl⟩

lemma handshakeAlphaRoundTrip : HandshakeAlphaRoundTrip bd := by
  intro obj frameSizeMax hmax
  have hsize : 11 ≤ min frameSizeMax handshakeAlphaFrameSizeMax := le_min hmax (by decide)
  obtain ⟨rest, hpayload⟩ := payload_paddedAlpha bd obj hsize
  refine ⟨_, _, writeHandshakeAlpha_eq bd obj hmax, ?_, ?_, hpayload,
    readPayload_encode bd rest trivial⟩
  · unfold verifyHandshakeAlphaSizeAndCrc
    rw [if_pos (paddedAlpha_length obj hsize), verify_paddedAlpha obj hsize, ok_bind]
    exact verifyCrc_frameOf bd _ _
  · have hindex : index (paddedAlpha obj (min frameSizeMax handshakeAlphaFrameSizeMax)) 0 =
        .ok (typeBits .handshakeAlpha) := index_eq_ok.mpr rfl
    unfold readType
    rw [debugAssert_true (verifyMinimumSize_paddedAlpha obj hsize), ok_bind, hindex, ok_bind,
      frameTypeOfBits_typeBits, pure_eq_ok]

/-- The wire format round trip. -/
theorem round_trip : StreamRoundTrip bd ∧
    SimpleRoundTrip bd HandshakeAlphaFrame ∧ SimpleRoundTrip bd HandshakeAlphaAckFrame ∧
    SimpleRoundTrip bd HandshakeBetaFrame ∧ SimpleRoundTrip bd HandshakeBetaAckFrame ∧
    SimpleRoundTrip bd CloseFrame ∧ SimpleRoundTrip bd CloseAckFrame ∧
    SimpleRoundTrip bd StreamSync ∧ HandshakeAlphaRoundTrip bd := by
  refine ⟨streamRoundTrip bd, ?_, ?_, ?_, ?_, ?_, ?_, ?_, handshakeAlphaRoundTrip bd⟩
  · exact simpleRoundTrip bd (fun _ => trivial) le_rfl
  · exact simpleRoundTrip bd (fun _ => trivial) le_rfl
  · exact simpleRoundTrip bd (fun _ => trivial) le_rfl
  · exact simpleRoundTrip bd (fun _ => trivial) le_rfl
  · exact simpleRoundTrip bd (fun _ => trivial) (by decide)
  · exact simpleRoundTrip bd (fun _ => trivial) (by decide)
  · exact simpleRoundTrip bd (fun _ => trivial) le_rfl

end RoundTrips

end Redpine.Wire
