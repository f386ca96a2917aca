import Redpine.Transition
import Redpine.Parity
import Redpine.SegmentTxAck
import Redpine.SegmentRxReorder

/-! The segment layer: a sender's and a receiver's segment window joined by a network that
may lose, duplicate, delay and reorder segments, acks and syncs. The network is the list of
all that has ever been handed to it. -/
namespace Redpine.SegmentChannel
open Machine Buffer SerialId Transition Reorder Parity

structure SegmentFrame where
  id : U32
  nonce : Bool
  data : Bytes
  deriving DecidableEq

structure AckFrame where
  id : U32
  history : U8
  checksum : Bool
  deriving DecidableEq

structure State where
  tx : SegmentTx
  rx : SegmentRx
  segments : List SegmentFrame
  syncs : List U32
  acks : List AckFrame
  delivered : List Bytes
  deriving DecidableEq

inductive Action
  | send (nonce : Bool) (size : ℕ) (data : Bytes)
  | receive (frame : SegmentFrame)
  | sendSync
  | receiveSync (id : U32)
  | sendAck
  | receiveAck (frame : AckFrame)

def ackOf (rx : SegmentRx) : AckFrame := ⟨rx.nextExpectedId, rx.nextAckInfo.1, rx.nextAckInfo.2⟩

def handleAck (bd : Build) (tx : SegmentTx) (frame : AckFrame) : Exec (SegmentTx × Bool) :=
  tx.acknowledge bd frame.id (frame.history.setWidth 32) frame.checksum

/-- A segment is sent if the window permits, with data that fits into the slots of the
receiver, and counts as `size` bytes in transit. -/
inductive Step (bd : Build) (slotSize : ℕ) : State → Action → State → Prop
  | send {s : State} {nonce : Bool} {size : ℕ} {data : Bytes} {tx tx' : SegmentTx}
      (hcan : s.tx.canSend = true) (hsize : size < 2 ^ 64) (hfit : data.length ≤ slotSize)
      (hnonce : s.tx.computeNextNonce bd nonce = .ok tx) (hsent : tx.markSent bd size = .ok tx') :
      Step bd slotSize s (.send nonce size data)
        { s with tx := tx', segments := s.segments ++ [⟨s.tx.nextId, nonce, data⟩] }
  | receive {s : State} {frame : SegmentFrame} {rx : SegmentRx} {out : List Bytes}
      (hmem : frame ∈ s.segments)
      (h : s.rx.receive bd frame.id frame.nonce frame.data = .ok (rx, out)) :
      Step bd slotSize s (.receive frame) { s with rx := rx, delivered := s.delivered ++ out }
  | sendSync (s : State) :
      Step bd slotSize s .sendSync { s with syncs := s.syncs ++ [s.tx.nextId] }
  | receiveSync {s : State} {id : U32} {rx : SegmentRx} {out : List Bytes}
      (hmem : id ∈ s.syncs) (h : s.rx.sync id = .ok (rx, out)) :
      Step bd slotSize s (.receiveSync id) { s with rx := rx, delivered := s.delivered ++ out }
  | sendAck (s : State) :
      Step bd slotSize s .sendAck { s with acks := s.acks ++ [ackOf s.rx] }
  | receiveAck {s : State} {frame : AckFrame} {tx : SegmentTx} {drop : Bool}
      (hmem : frame ∈ s.acks) (h : handleAck bd s.tx frame = .ok (tx, drop)) :
      Step bd slotSize s (.receiveAck frame) { s with tx := tx }

def Initial (baseId size : U32) (slotSize : ℕ) (s : State) : Prop :=
  ∃ tx, SegmentTx.new baseId size = .ok tx ∧
    s = ⟨tx, SegmentRx.new baseId size slotSize, [], [], [], []⟩

def system (bd : Build) (baseId size : U32) (slotSize : ℕ) : System State Action :=
  ⟨Initial baseId size slotSize, Step bd slotSize⟩

/-- The nonces of all segments sent, in the order of their IDs. -/
def State.nonces (s : State) : List Bool := s.segments.map (·.nonce)

/-- The nonces of the segments that a history claims, the newest being just before `r`. -/
def claimedNonces (nonces : List Bool) (history : U8) (r : ℕ) : List Bool :=
  ((List.range 8).filter history.getLsbD).map fun i => nonces.getD (r - 1 - i) false

/-- An ack made by a receiver that expected position `r`. -/
structure AckFrame.At (frame : AckFrame) (baseId : U32) (nonces : List Bool) (r : ℕ) : Prop where
  id_eq : frame.id = idAt baseId r
  claimed : ∀ i, frame.history.getLsbD i = true → i < 5 ∧ i < r
  checksum_eq : frame.checksum = xorAll (claimedNonces nonces frame.history r)

/-- The joint invariant. What the receiver holds or has released are segments that were
sent, and its position lies between the sender's window base and the next segment. -/
structure Inv (bd : Build) (baseId : U32) (slotSize k : ℕ) (s : State) (sizes : List ℕ)
    (acked : ℕ) (b : Reorder.Buffer Segment 2 (2 ^ k)) : Prop where
  tx : s.tx.InFlight bd k baseId sizes acked
  nonces : s.tx.Nonces baseId s.nonces acked
  sizes_length : sizes.length = s.segments.length
  rx : s.rx.Models baseId slotSize b
  ids : ∀ i frame, s.segments[i]? = some frame →
    frame.id = idAt baseId i ∧ frame.data.length ≤ slotSize
  buffered : ∀ x ∈ b.released ++ b.pending,
    ∃ frame, s.segments[x.1]? = some frame ∧ x.2 = ⟨frame.nonce, frame.data⟩
  acked_le : acked ≤ b.base
  base_le : b.base ≤ s.segments.length
  syncs : ∀ id ∈ s.syncs, ∃ q, q ≤ s.segments.length ∧ id = idAt baseId q
  acks : ∀ frame ∈ s.acks, ∃ r, r ≤ b.base ∧ frame.At baseId s.nonces r

section Checksum

/-- The sender's checksum is the parity of the masked history. -/
lemma expectedChecksum_eq (nonceHistory rxHistory : U32) :
    SegmentTx.expectedChecksum nonceHistory rxHistory = parity (nonceHistory &&& rxHistory) 32 := by
  unfold SegmentTx.expectedChecksum
  simp only
  rw [show (0b1 : U32) = 1#32 from rfl, and_one_beq _ (by decide), parity_fold, parity_fold,
    parity_fold, parity_fold, parity_fold]

/-- The receiver's checksum is the parity of the masked history. -/
lemma computeChecksum_eq (rxHistory nonceHistory : U8) :
    SegmentRx.computeChecksum rxHistory nonceHistory = parity (rxHistory &&& nonceHistory) 8 := by
  unfold SegmentRx.computeChecksum
  simp only
  rw [show (0b1 : U8) = 1#8 from rfl, and_one_beq _ (by decide), parity_fold, parity_fold,
    parity_fold]

/-- A masked history has the parity of the claimed nonces if it agrees with them. -/
lemma parity_eq_claimed {nonces : List Bool} {history x : U8} {r : ℕ}
    (h : ∀ i < 8, x.getLsbD i = (history.getLsbD i && nonces.getD (r - 1 - i) false)) :
    parity x 8 = xorAll (claimedNonces nonces history r) := by
  unfold parity claimedNonces
  rw [← xorAll_map_and]
  congr 1
  apply List.map_congr_left
  intro i hi
  exact h i (List.mem_range.mp hi)

lemma getLsbD_ackMask {i : ℕ} (x : U32) :
    ((x &&& 0x1F).setWidth 8).getLsbD i = (decide (i < 5) && x.getLsbD i) := by
  rw [BitVec.getLsbD_setWidth, BitVec.getLsbD_and]
  rcases Nat.lt_or_ge i 8 with hi | hi
  · have hmask : BitVec.getLsbD (0x1F : U32) i = decide (i < 5) := by
      interval_cases i <;> rfl
    simp only [hi, hmask, decide_true, Bool.true_and]
    exact Bool.and_comm _ _
  · simp [show ¬ i < 8 by omega, show ¬ i < 5 by omega]

end Checksum

section Invariant
variable {bd : Build} {baseId size : U32} {slotSize k : ℕ} {s s' : State} {sizes : List ℕ}
  {acked : ℕ} {b : Reorder.Buffer Segment 2 (2 ^ k)}

lemma AckFrame.At.extend {frame : AckFrame} {nonces more : List Bool} {r : ℕ}
    (h : frame.At baseId nonces r) (hr : r ≤ nonces.length) :
    frame.At baseId (nonces ++ more) r := by
  refine ⟨h.id_eq, h.claimed, ?_⟩
  rw [h.checksum_eq]
  unfold claimedNonces
  congr 1
  apply List.map_congr_left
  intro i hi
  have hbit := (List.mem_filter.mp hi).2
  have := (h.claimed i hbit).2
  rw [List.getD_append _ _ _ _ (by omega)]

/-- The receiver reports the position it expects, and the nonces of what it has released. -/
lemma Inv.ackOf (h : Inv bd baseId slotSize k s sizes acked b) :
    (ackOf s.rx).At baseId s.nonces b.base := by
  have hhist := h.rx.tracks.history
  have hbefore := h.rx.tracks.before
  have hnonce : ∀ x ∈ b.released, s.nonces.getD x.1 false = x.2.nonce := by
    intro x hx
    obtain ⟨frame, hframe, heq⟩ := h.buffered x (List.mem_append_left _ hx)
    unfold State.nonces
    rw [List.getD_eq_getElem?_getD, List.getElem?_map, hframe, heq]
    rfl
  refine ⟨h.rx.tracks.baseId_eq, ?_, ?_⟩
  · intro i hi
    simp only [SegmentChannel.ackOf, SegmentRx.nextAckInfo, getLsbD_ackMask, Bool.and_eq_true,
      decide_eq_true_eq] at hi
    obtain ⟨x, hx, he⟩ := (hhist.rxBit i (by omega)).mp hi.2
    exact ⟨hi.1, by omega⟩
  · change SegmentRx.computeChecksum _ _ = _
    rw [computeChecksum_eq]
    apply parity_eq_claimed
    intro i hi
    simp only [SegmentChannel.ackOf, SegmentRx.nextAckInfo, BitVec.getLsbD_and,
      BitVec.getLsbD_setWidth, hi, decide_true, Bool.true_and]
    by_cases hbit : s.rx.rxHistory.getLsbD i = true
    · obtain ⟨x, hx, he⟩ := (hhist.rxBit i (by omega)).mp hbit
      have hpos : b.base - 1 - i = x.1 := by omega
      rw [hpos, hnonce x hx]
      congr 1
      rw [Bool.eq_iff_iff, hhist.nonceBit i (by omega)]
      constructor
      · rintro ⟨y, hy, hye, hn⟩
        have hxy := b.increasing.eq_of_fst_eq hx hy (by omega)
        rw [hxy]
        exact hn
      · intro hn
        exact ⟨x, hx, he, hn⟩
    · simp [hbit]

variable (bd) in
theorem inv_initial (h : Initial baseId size slotSize s) :
    ∃ k, Inv bd baseId slotSize k s [] 0 (Reorder.Buffer.empty Segment 2 (2 ^ k)) ∧
      size.toNat = 2 ^ k := by
  obtain ⟨tx, htx, rfl⟩ := h
  obtain ⟨k, hflight, hk⟩ := SegmentTx.new_inFlight bd htx
  have hle : size.toNat ≤ 2 ^ 31 := by
    rw [hk]
    exact Nat.pow_le_pow_right (by decide) (by have := hflight.shape.lt_width; omega)
  have hrx := SegmentRx.new_models baseId slotSize hle
  rw [hk] at hrx
  refine ⟨k, ⟨hflight, SegmentTx.new_nonces htx, rfl, hrx, ?_, ?_, le_rfl, le_rfl, ?_, ?_⟩, hk⟩
  · simp
  · simp [Reorder.Buffer.empty]
  · simp
  · simp

theorem Inv.send (h : Inv bd baseId slotSize k s sizes acked b) {nonce : Bool} {size : ℕ}
    {data : Bytes} {tx tx' : SegmentTx} (hcan : s.tx.canSend = true) (hsize : size < 2 ^ 64)
    (hfit : data.length ≤ slotSize) (hnonce : s.tx.computeNextNonce bd nonce = .ok tx)
    (hsent : tx.markSent bd size = .ok tx') :
    Inv bd baseId slotSize k
      { s with tx := tx', segments := s.segments ++ [⟨s.tx.nextId, nonce, data⟩] }
      (sizes ++ [size]) acked b := by
  have hlen : s.nonces.length = sizes.length := by
    rw [State.nonces, List.length_map, h.sizes_length]
  obtain ⟨hflight, hnonces⟩ := h.nonces.send h.tx hlen hcan hsize hnonce hsent
  have hext : ∀ (i : ℕ) (frame : SegmentFrame), s.segments[i]? = some frame →
      (s.segments ++ [⟨s.tx.nextId, nonce, data⟩])[i]? = some frame := by
    intro i frame hi
    rw [List.getElem?_append_left (List.getElem?_eq_some_iff.mp hi).1, hi]
  have hmap : State.nonces { s with
      tx := tx', segments := s.segments ++ [⟨s.tx.nextId, nonce, data⟩] } =
      s.nonces ++ [nonce] := by
    simp [State.nonces]
  refine ⟨hflight, by rwa [hmap], by simp [h.sizes_length], h.rx, ?_, ?_, h.acked_le, ?_, ?_, ?_⟩
  · intro i frame hi
    rcases Nat.lt_trichotomy i s.segments.length with hlt | heq | hgt
    · rw [List.getElem?_append_left hlt] at hi
      exact h.ids i frame hi
    · rw [heq, List.getElem?_concat_length] at hi
      cases hi
      refine ⟨?_, hfit⟩
      rw [heq, h.tx.nextId_eq, h.sizes_length]
    · rw [List.getElem?_eq_none (by simp; omega)] at hi
      cases hi
  · intro x hx
    obtain ⟨frame, hframe, heq⟩ := h.buffered x hx
    exact ⟨frame, hext _ _ hframe, heq⟩
  · have := h.base_le
    simp only [List.length_append]
    omega
  · intro id hid
    obtain ⟨q, hq, he⟩ := h.syncs id hid
    exact ⟨q, by simp only [List.length_append]; omega, he⟩
  · intro frame hframe
    obtain ⟨r, hr, hat⟩ := h.acks frame hframe
    refine ⟨r, hr, ?_⟩
    rw [hmap]
    apply hat.extend
    have := h.base_le
    rw [State.nonces, List.length_map]
    omega

/-- A segment that is not too old reaches the receiver under the position at which it was sent. -/
theorem Inv.receive_at (h : Inv bd baseId slotSize k s sizes acked b) {i : ℕ}
    {frame : SegmentFrame} (hi : s.segments[i]? = some frame)
    (hold : b.base ≤ i + (2 ^ 32 - 2 ^ k)) :
    ∃ rx rel, s.rx.receive bd frame.id frame.nonce frame.data = .ok (rx, SegmentRx.dataOf rel) ∧
      (b.offer (i, ⟨frame.nonce, frame.data⟩)).released = b.released ++ rel ∧
      ∀ delivered, Inv bd baseId slotSize k { s with rx := rx, delivered := delivered } sizes acked
        (b.offer (i, ⟨frame.nonce, frame.data⟩)) := by
  have hlt := (List.getElem?_eq_some_iff.mp hi).1
  have hwindow := h.tx.window_le
  have hacked := h.acked_le
  have hlen := h.sizes_length
  have hpow := h.tx.pow_lt
  obtain ⟨hid, hfit⟩ := h.ids i frame hi
  obtain ⟨rx, rel, hok, hreleased, hmodels⟩ := h.rx.receive bd
    (x := (i, ⟨frame.nonce, frame.data⟩)) hold (by simp only; omega) hfit
  have hmono := b.base_le_offer (i, ⟨frame.nonce, frame.data⟩)
  have hle : (b.offer (i, ⟨frame.nonce, frame.data⟩)).base ≤ s.segments.length := by
    refine Reorder.Buffer.offer_base_le h.base_le hlt (fun y hy => ?_)
    obtain ⟨frame', hframe', -⟩ := h.buffered y (List.mem_append_right _ hy)
    exact (List.getElem?_eq_some_iff.mp hframe').1
  rw [hid]
  refine ⟨rx, rel, hok, hreleased, fun delivered => ⟨h.tx, h.nonces, h.sizes_length, hmodels, h.ids,
    ?_, h.acked_le.trans hmono, hle, h.syncs, ?_⟩⟩
  · intro x hx
    rcases Reorder.Buffer.mem_offer hx with hold | rfl
    · exact h.buffered x hold
    · exact ⟨frame, hi, rfl⟩
  · intro a ha
    obtain ⟨r, hr, hat⟩ := h.acks a ha
    exact ⟨r, hr.trans hmono, hat⟩

theorem Inv.receive (h : Inv bd baseId slotSize k s sizes acked b)
    (hbound : s.segments.length < 2 ^ 31) {frame : SegmentFrame} {rx : SegmentRx}
    {out : List Bytes} (hmem : frame ∈ s.segments)
    (hok : s.rx.receive bd frame.id frame.nonce frame.data = .ok (rx, out)) :
    ∃ b', Inv bd baseId slotSize k { s with rx := rx, delivered := s.delivered ++ out }
      sizes acked b' := by
  obtain ⟨i, hi⟩ := List.mem_iff_getElem?.mp hmem
  have hbase := h.base_le
  have hsize := h.rx.size_le
  obtain ⟨rx', rel, hok', -, h'⟩ := h.receive_at hi (by omega)
  cases hok.symm.trans hok'
  exact ⟨_, h' _⟩

theorem Inv.receiveSync (h : Inv bd baseId slotSize k s sizes acked b)
    (hbound : s.segments.length < 2 ^ 31) {id : U32} {rx : SegmentRx} {out : List Bytes}
    (hmem : id ∈ s.syncs) (hok : s.rx.sync id = .ok (rx, out)) :
    ∃ b', Inv bd baseId slotSize k { s with rx := rx, delivered := s.delivered ++ out }
      sizes acked b' := by
  obtain ⟨q, hq, rfl⟩ := h.syncs id hmem
  have hbase := h.base_le
  have hsize := h.rx.size_le
  by_cases hacc : s.rx.SyncAccepts (idAt baseId q)
  · -- a sync that lies behind is seen too far ahead to be accepted
    have hle : b.base ≤ q := by
      by_contra hlt
      have hfar : (idAt baseId q - s.rx.window.baseId).toNat = 2 ^ 32 - (b.base - q) := by
        rw [h.rx.tracks.baseId_eq]
        exact toNat_sub_of_lt baseId (by omega) (by omega)
      have hwin := hacc.2
      rw [BitVec.le_def, hfar, h.rx.tracks.size_eq] at hwin
      omega
    obtain ⟨rx', hok', hmodels⟩ := h.rx.sync hle (by omega) hacc
    rw [hok'] at hok
    cases hok
    obtain ⟨-, hall, -⟩ := (h.rx.syncAccepts_iff hle (by omega)).mp hacc
    obtain ⟨hb, -, -⟩ := Reorder.Buffer.skipTo_of_le hle hall
    refine ⟨_, h.tx, h.nonces, h.sizes_length, hmodels, h.ids, ?_, ?_, ?_, h.syncs, ?_⟩
    · exact fun x hx => h.buffered x (Reorder.Buffer.mem_skipTo hx)
    · rw [hb]
      exact h.acked_le.trans hle
    · rw [hb]
      exact hq
    · intro a ha
      obtain ⟨r, hr, hat⟩ := h.acks a ha
      exact ⟨r, by rw [hb]; omega, hat⟩
  · rw [SegmentRx.sync_reject hacc] at hok
    cases hok
    exact ⟨b, h.tx, h.nonces, h.sizes_length, h.rx, h.ids, h.buffered, h.acked_le, h.base_le,
      h.syncs, h.acks⟩

/-- An ack in flight is either ahead of the sender's base and accepted, or older and ignored. -/
lemma Inv.handleAck (h : Inv bd baseId slotSize k s sizes acked b)
    (hbound : s.segments.length < 2 ^ 31) {frame : AckFrame} {r : ℕ} (hr : r ≤ b.base)
    (hat : frame.At baseId s.nonces r) :
    (acked ≤ r → ∃ tx drop, SegmentChannel.handleAck bd s.tx frame = .ok (tx, drop) ∧
      tx.InFlight bd k baseId sizes r ∧ tx.Nonces baseId s.nonces r) ∧
    (r < acked → SegmentChannel.handleAck bd s.tx frame = .ok (s.tx, false)) := by
  have hbase := h.base_le
  have hlen := h.sizes_length
  have hacked := h.acked_le
  unfold SegmentChannel.handleAck
  rw [hat.id_eq]
  constructor
  · intro hle
    obtain ⟨tx, drop, hok, hflight, -, hnonces⟩ := h.tx.acknowledge s.nonces hle
      (by omega) (frame.history.setWidth 32) frame.checksum
    refine ⟨tx, drop, hok, hflight, hnonces h.nonces ?_⟩
    rw [State.nonces, List.length_map, hlen]
  · intro hlt
    have hfar : sizes.length - acked < (idAt baseId r - s.tx.baseId).toNat := by
      rw [h.tx.baseId_eq, toNat_sub_of_lt baseId hlt (by omega)]
      omega
    exact h.tx.acknowledge_ignored hfar _ _

theorem Inv.receiveAck (h : Inv bd baseId slotSize k s sizes acked b)
    (hbound : s.segments.length < 2 ^ 31) {frame : AckFrame} {tx : SegmentTx} {drop : Bool}
    (hmem : frame ∈ s.acks) (hok : SegmentChannel.handleAck bd s.tx frame = .ok (tx, drop)) :
    ∃ acked', Inv bd baseId slotSize k { s with tx := tx } sizes acked' b := by
  obtain ⟨r, hr, hat⟩ := h.acks frame hmem
  obtain ⟨haccept, hignore⟩ := h.handleAck hbound hr hat
  rcases Nat.lt_or_ge r acked with hlt | hge
  · rw [hignore hlt] at hok
    cases hok
    exact ⟨acked, h⟩
  · obtain ⟨tx', drop', hok', hflight, hnonces⟩ := haccept hge
    rw [hok'] at hok
    cases hok
    exact ⟨r, hflight, hnonces, h.sizes_length, h.rx, h.ids, h.buffered, hr, h.base_le, h.syncs,
      h.acks⟩

/-- What one step preserves. -/
theorem inv_step {a : Action} (hinv : ∃ sizes acked b, Inv bd baseId slotSize k s sizes acked b)
    (hbound : s'.segments.length < 2 ^ 31) (h : Step bd slotSize s a s') :
    ∃ sizes acked b, Inv bd baseId slotSize k s' sizes acked b := by
  obtain ⟨sizes, acked, b, hinv⟩ := hinv
  cases h with
  | send hcan hsize hfit hnonce hsent =>
    exact ⟨_, _, _, hinv.send hcan hsize hfit hnonce hsent⟩
  | receive hmem hok =>
    obtain ⟨b', h'⟩ := hinv.receive hbound hmem hok
    exact ⟨_, _, b', h'⟩
  | sendSync =>
    refine ⟨sizes, acked, b, { hinv with syncs := ?_ }⟩
    intro id hid
    rcases List.mem_append.mp hid with hid | hid
    · exact hinv.syncs id hid
    · refine ⟨s.segments.length, le_rfl, ?_⟩
      rw [List.mem_singleton.mp hid, hinv.tx.nextId_eq, hinv.sizes_length]
  | receiveSync hmem hok =>
    obtain ⟨b', h'⟩ := hinv.receiveSync hbound hmem hok
    exact ⟨_, _, b', h'⟩
  | sendAck =>
    refine ⟨sizes, acked, b, { hinv with acks := ?_ }⟩
    intro frame hframe
    rcases List.mem_append.mp hframe with hframe | hframe
    · exact hinv.acks frame hframe
    · rw [List.mem_singleton.mp hframe]
      exact ⟨b.base, le_rfl, hinv.ackOf⟩
  | receiveAck hmem hok =>
    obtain ⟨acked', h'⟩ := hinv.receiveAck hbound hmem hok
    exact ⟨_, acked', _, h'⟩

lemma segments_mono {a : Action} (h : Step bd slotSize s a s') :
    s.segments.length ≤ s'.segments.length := by
  cases h <;> simp

/-- What a whole run preserves. -/
theorem inv_reachable (hs : Reachable (system bd baseId size slotSize) s)
    (hbound : s.segments.length < 2 ^ 31) :
    ∃ k, size.toNat = 2 ^ k ∧ ∃ sizes acked b, Inv bd baseId slotSize k s sizes acked b := by
  refine hs.invariant_within (fun s => s.segments.length < 2 ^ 31)
    (fun s => ∃ k, size.toNat = 2 ^ k ∧
      ∃ sizes acked b, Inv bd baseId slotSize k s sizes acked b) ?_ ?_ ?_ hbound
  · intro s hinit
    obtain ⟨k, hinv, hk⟩ := inv_initial bd hinit
    exact ⟨k, hk, _, _, _, hinv⟩
  · intro s a s' h hb
    exact lt_of_le_of_lt (segments_mono h) hb
  · intro s a s' hinv hb h
    obtain ⟨k, hk, hinv⟩ := hinv
    exact ⟨k, hk, inv_step hinv hb h⟩

end Invariant

section Sample

/-- The step that an action leads to, if it can be taken and returns. -/
def next (bd : Build) (slotSize : ℕ) (s : State) : Action → Option State
  | .send nonce size data =>
      if s.tx.canSend = true ∧ size < 2 ^ 64 ∧ data.length ≤ slotSize then
        (s.tx.computeNextNonce bd nonce).toOption.bind fun tx =>
          (tx.markSent bd size).toOption.map fun tx' =>
            { s with tx := tx', segments := s.segments ++ [⟨s.tx.nextId, nonce, data⟩] }
      else none
  | .receive frame =>
      if frame ∈ s.segments then
        (s.rx.receive bd frame.id frame.nonce frame.data).toOption.map fun r =>
          { s with rx := r.1, delivered := s.delivered ++ r.2 }
      else none
  | .sendSync => some { s with syncs := s.syncs ++ [s.tx.nextId] }
  | .receiveSync id =>
      if s.syncs.contains id then
        (s.rx.sync id).toOption.map fun r => { s with rx := r.1, delivered := s.delivered ++ r.2 }
      else none
  | .sendAck => some { s with acks := s.acks ++ [ackOf s.rx] }
  | .receiveAck frame =>
      if frame ∈ s.acks then
        (handleAck bd s.tx frame).toOption.map fun r => { s with tx := r.1 }
      else none

lemma next_step {bd : Build} {slotSize : ℕ} (s : State) (action : Action) (s' : State)
    (h : next bd slotSize s action = some s') : Step bd slotSize s action s' := by
  cases action with
  | send nonce size data =>
    simp only [next, Option.ite_none_right_eq_some, Option.bind_eq_some_iff, toOption_eq_some,
      toOption_map_eq_some] at h
    obtain ⟨⟨hcan, hsize, hfit⟩, tx, hnonce, tx', hsent, rfl⟩ := h
    exact .send hcan hsize hfit hnonce hsent
  | receive frame =>
    simp only [next, Option.ite_none_right_eq_some, toOption_map_eq_some] at h
    obtain ⟨hmem, r, hok, rfl⟩ := h
    exact .receive hmem hok
  | sendSync => cases h; exact .sendSync s
  | receiveSync id =>
    simp only [next, Option.ite_none_right_eq_some, toOption_map_eq_some,
      List.contains_iff_mem] at h
    obtain ⟨hmem, r, hok, rfl⟩ := h
    exact .receiveSync hmem hok
  | sendAck => cases h; exact .sendAck s
  | receiveAck frame =>
    simp only [next, Option.ite_none_right_eq_some, toOption_map_eq_some] at h
    obtain ⟨hmem, r, hok, rfl⟩ := h
    exact .receiveAck hmem hok

def interpreter (bd : Build) (baseId size : U32) (slotSize : ℕ) :
    Executable (system bd baseId size slotSize) where
  start := (SegmentTx.new baseId size).toOption.map fun tx =>
    ⟨tx, SegmentRx.new baseId size slotSize, [], [], [], []⟩
  next := next bd slotSize
  start_init s h := by
    obtain ⟨tx, hnew, rfl⟩ := toOption_map_eq_some.mp h
    exact ⟨tx, hnew, rfl⟩
  next_step := next_step

/-- One segment, sent under the last ID before the counter wraps around, received and
acknowledged; the ack is in flight. -/
def sampleState : State where
  tx := ⟨0xFFFFFFFF, 0, 64, List.replicate 63 0 ++ [2], 63, [1], 0, 2, 0xFFFFFFFF, 0⟩
  rx := { SegmentRx.new 0xFFFFFFFF 64 16 with
    window := ⟨0, 64⟩
    rxHistory := 1
    nonceHistory := 1 }
  segments := [⟨0xFFFFFFFF, true, [7, 8]⟩]
  syncs := []
  acks := [⟨0, 1, true⟩]
  delivered := [[7, 8]]

lemma sampleState_reachable : Reachable (system .debug 0xFFFFFFFF 64 16) sampleState := by
  have hexec : (interpreter .debug 0xFFFFFFFF 64 16).exec
      [.send true 2 [7, 8], .receive ⟨0xFFFFFFFF, true, [7, 8]⟩, .sendAck] =
        some sampleState := by
    rfl
  exact Executable.exec_reachable _ hexec

end Sample

/-- The two windows agree: in the order of positions the sender's base, the receiver's base
and the next segment follow each other, at most the window size apart. A segment is inside
the receiver's window as long as the base has not passed it, and an ack is accepted as long
as the sender's base has not passed it. -/
theorem window_agreement {bd : Build} {baseId size : U32} {slotSize : ℕ} {s : State}
    (hs : Reachable (system bd baseId size slotSize) s) (hbound : s.segments.length < 2 ^ 31) :
    s.rx.window.baseId - s.tx.baseId ≤ s.tx.nextId - s.tx.baseId ∧
      s.tx.nextId - s.tx.baseId ≤ size ∧
      ∃ acked expected, acked ≤ expected ∧ expected ≤ s.segments.length ∧
        s.segments.length ≤ acked + size.toNat ∧
        s.tx.baseId = idAt baseId acked ∧ s.rx.window.baseId = idAt baseId expected ∧
        s.tx.nextId = idAt baseId s.segments.length ∧
        (∀ (i : ℕ) (frame : SegmentFrame), s.segments[i]? = some frame →
          frame.id = idAt baseId i ∧ (s.rx.window.contains frame.id = true ↔ expected ≤ i)) ∧
        ∀ frame ∈ s.acks, ∃ r, r ≤ expected ∧ frame.id = idAt baseId r ∧
          (acked ≤ r → ∃ tx drop, handleAck bd s.tx frame = .ok (tx, drop) ∧
            tx.baseId = frame.id) ∧
          (r < acked → handleAck bd s.tx frame = .ok (s.tx, false)) := by
  obtain ⟨k, hk, sizes, acked, b, h⟩ := inv_reachable hs hbound
  have hacked := h.acked_le
  have hbase := h.base_le
  have hlen := h.sizes_length
  have hwin := h.tx.window_le
  have hpow := h.tx.pow_lt
  have hsize := h.rx.size_le
  have hnext := h.tx.next_sub
  have hdiff : (s.rx.window.baseId - s.tx.baseId).toNat = b.base - acked := by
    rw [h.rx.tracks.baseId_eq, h.tx.baseId_eq]
    exact toNat_sub_of_le baseId hacked (by omega)
  refine ⟨?_, ?_, acked, b.base, hacked, hbase, by omega, h.tx.baseId_eq, h.rx.tracks.baseId_eq,
    ?_, ?_, ?_⟩
  · rw [BitVec.le_def, hdiff, hnext]
    omega
  · rw [BitVec.le_def, hnext]
    omega
  · rw [h.tx.nextId_eq, hlen]
  · intro i frame hi
    have hlt := (List.getElem?_eq_some_iff.mp hi).1
    have hid := (h.ids i frame hi).1
    refine ⟨hid, ?_⟩
    rw [hid, h.rx.tracks.contains_iff (by omega) (by omega)]
    omega
  · intro frame hframe
    obtain ⟨r, hr, hat⟩ := h.acks frame hframe
    obtain ⟨haccept, hignore⟩ := h.handleAck hbound hr hat
    refine ⟨r, hr, hat.id_eq, fun hle => ?_, hignore⟩
    obtain ⟨tx, drop, hok, hflight, -⟩ := haccept hle
    exact ⟨tx, drop, hok, by rw [hflight.baseId_eq, hat.id_eq]⟩

theorem window_agreement_sample :
    sampleState.rx.window.baseId - sampleState.tx.baseId ≤
        sampleState.tx.nextId - sampleState.tx.baseId ∧
      sampleState.tx.nextId - sampleState.tx.baseId ≤ 64 := by
  obtain ⟨hrx, hnext, -⟩ := window_agreement sampleState_reachable (by decide)
  exact ⟨hrx, hnext⟩

/-- Whenever the sender accepts an ack, the checksum it expects is the one in the ack, and
both are the XOR of the nonces of the segments that the history claims. -/
theorem checksum_agreement {bd : Build} {baseId size : U32} {slotSize : ℕ} {s : State}
    (hs : Reachable (system bd baseId size slotSize) s) (hbound : s.segments.length < 2 ^ 31)
    {frame : AckFrame} (hframe : frame ∈ s.acks)
    (haccept : frame.id - s.tx.baseId ≤ s.tx.nextId - s.tx.baseId) :
    ∃ tx drop r, handleAck bd s.tx frame = .ok (tx, drop) ∧ frame.id = idAt baseId r ∧
      (∀ i, frame.history.getLsbD i = true → i < r ∧ r - 1 - i < s.segments.length) ∧
      SegmentTx.expectedChecksum tx.nonceHistory (frame.history.setWidth 32) = frame.checksum ∧
      frame.checksum = xorAll (claimedNonces s.nonces frame.history r) := by
  obtain ⟨k, hk, sizes, acked, b, h⟩ := inv_reachable hs hbound
  obtain ⟨r, hr, hat⟩ := h.acks frame hframe
  have hacked := h.acked_le
  have hbase := h.base_le
  have hlen := h.sizes_length
  have hle : acked ≤ r := by
    by_contra hlt
    rw [BitVec.le_def, h.tx.next_sub, hat.id_eq, h.tx.baseId_eq,
      toNat_sub_of_lt baseId (by omega) (by omega)] at haccept
    omega
  obtain ⟨tx, drop, hok, -, hnonces⟩ := (h.handleAck hbound hr hat).1 hle
  refine ⟨tx, drop, r, hok, hat.id_eq, fun i hi => ?_, ?_, hat.checksum_eq⟩
  · have := (hat.claimed i hi).2
    omega
  · have hzero : ∀ i, 8 ≤ i → (tx.nonceHistory &&& frame.history.setWidth 32).getLsbD i = false := by
      intro i hi
      rw [BitVec.getLsbD_and, BitVec.getLsbD_setWidth, BitVec.getLsbD_of_ge _ _ hi]
      simp
    have hlow : ∀ i < 8, (tx.nonceHistory &&& frame.history.setWidth 32).getLsbD i =
        ((tx.nonceHistory &&& frame.history.setWidth 32).setWidth 8).getLsbD i := by
      intro i hi
      rw [BitVec.getLsbD_setWidth]
      simp [hi]
    rw [expectedChecksum_eq, parity_of_high_zero (by decide : 8 ≤ 32) hzero,
      parity_congr hlow, hat.checksum_eq]
    apply parity_eq_claimed
    intro i hi
    rw [← hlow i hi, BitVec.getLsbD_and, BitVec.getLsbD_setWidth, hnonces.history i (by omega)]
    by_cases hbit : frame.history.getLsbD i = true
    · have := (hat.claimed i hbit).2
      simp [hbit, show i < r by omega, show i < 32 by omega]
    · simp [hbit]

theorem checksum_agreement_sample :
    ∃ tx drop r, handleAck .debug sampleState.tx ⟨0, 1, true⟩ = .ok (tx, drop) ∧
      (0 : U32) = idAt 0xFFFFFFFF r ∧
      SegmentTx.expectedChecksum tx.nonceHistory 1 = true ∧
      xorAll (claimedNonces [true] 1 r) = true := by
  have hmem : (⟨0, 1, true⟩ : AckFrame) ∈ sampleState.acks := List.mem_cons_self
  obtain ⟨tx, drop, r, hok, hid, -, hexpected, hxor⟩ :=
    checksum_agreement sampleState_reachable (by decide) hmem (by decide)
  exact ⟨tx, drop, r, hok, hid, hexpected, hxor.symm⟩

end Redpine.SegmentChannel
