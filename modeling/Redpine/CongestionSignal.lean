import Redpine.DropDetection

/-! Acks of a receiver that never skips a segment. If they follow each other closely and none of
them is too old, the sender never takes one of them for the sign of a drop. -/
namespace Redpine.CongestionSignal
open Machine SerialId Transition Parity Reorder
open SegmentChannel (SegmentFrame AckFrame ackOf handleAck claimedNonces)
open DropDetection (Reference selectedNonces Dropped)

/-- An ack, and how many segments had been sent before it. -/
structure Ack where
  frame : AckFrame
  sent : ℕ

structure State where
  tx : SegmentTx
  rx : SegmentRx
  segments : List SegmentFrame
  acks : List Ack

inductive Action
  | send (nonce : Bool) (size : ℕ) (data : Bytes)
  | receive (i : ℕ)
  | sync (id : U32)
  | sendAck
  | receiveAck (a : Ack)

/-- The receiver's window moves past delivered segments only. -/
def NeverSkips (rx rx' : SegmentRx) (out : List Bytes) : Prop :=
  (rx'.nextExpectedId - rx.nextExpectedId).toNat = out.length

/-- If the ack is accepted, it moves the sender's window past no more IDs than it reports. -/
def Follows (tx : SegmentTx) (frame : AckFrame) : Prop :=
  frame.id - tx.baseId ≤ tx.nextId - tx.baseId → (frame.id - tx.baseId).toNat ≤ 5

/-- Segments and acks are lost, repeated and reordered on the way. `Late` and `LateAck` tell how
many further segments may be sent before a segment or an ack arrives. -/
inductive Step (bd : Build) (slotSize : ℕ) (Late LateAck : ℕ → Prop) (s : State) :
    Action → State → Prop
  | send {nonce : Bool} {size : ℕ} {data : Bytes} {tx tx' : SegmentTx}
      (hcan : s.tx.canSend = true) (hsize : size < 2 ^ 64) (hfit : data.length ≤ slotSize)
      (hnonce : s.tx.computeNextNonce bd nonce = .ok tx) (hsent : tx.markSent bd size = .ok tx') :
      Step bd slotSize Late LateAck s (.send nonce size data)
        { s with tx := tx', segments := s.segments ++ [⟨s.tx.nextId, nonce, data⟩] }
  | receive {i : ℕ} {frame : SegmentFrame} {rx : SegmentRx} {out : List Bytes}
      (hget : s.segments[i]? = some frame) (hlate : Late (s.segments.length - (i + 1)))
      (h : s.rx.receive bd frame.id frame.nonce frame.data = .ok (rx, out))
      (hskips : NeverSkips s.rx rx out) :
      Step bd slotSize Late LateAck s (.receive i) { s with rx := rx }
  | sync {id : U32} {rx : SegmentRx} {out : List Bytes} (h : s.rx.sync id = .ok (rx, out))
      (hskips : NeverSkips s.rx rx out) :
      Step bd slotSize Late LateAck s (.sync id) { s with rx := rx }
  | sendAck :
      Step bd slotSize Late LateAck s .sendAck
        { s with acks := s.acks ++ [⟨ackOf s.rx, s.segments.length⟩] }
  | receiveAck {a : Ack} {tx : SegmentTx} {drop : Bool} (ha : a ∈ s.acks)
      (hlate : LateAck (s.segments.length - a.sent)) (hfollows : Follows s.tx a.frame)
      (h : handleAck bd s.tx a.frame = .ok (tx, drop)) :
      Step bd slotSize Late LateAck s (.receiveAck a) { s with tx := tx }

def Initial (baseId size : U32) (slotSize : ℕ) (s : State) : Prop :=
  ∃ tx, SegmentTx.new baseId size = .ok tx ∧
    s = ⟨tx, SegmentRx.new baseId size slotSize, [], []⟩

def system (bd : Build) (baseId size : U32) (slotSize : ℕ) (Late LateAck : ℕ → Prop) :
    System State Action :=
  ⟨Initial baseId size slotSize, Step bd slotSize Late LateAck⟩

/-- Before a segment or an ack arrives, fewer segments are sent than there are IDs outside the
window. -/
def Timely (size : U32) (age : ℕ) : Prop := age + size.toNat < 2 ^ 32

/-- The two windows without the acks on their way. -/
def State.channel (s : State) : SegmentChannel.State := ⟨s.tx, s.rx, s.segments, [], [], []⟩

/-- An ack of all segments before a position, of which it reports the last five. -/
structure Reports (baseId : U32) (k : ℕ) (nonces : List Bool) (a : Ack) (r : ℕ) : Prop where
  ack : a.frame.At baseId nonces r
  full : ∀ i < 5, i < r → a.frame.history.getLsbD i = true
  le_sent : r ≤ a.sent
  sent_le : a.sent ≤ nonces.length
  window_le : a.sent ≤ r + 2 ^ k

structure Inv (bd : Build) (baseId : U32) (slotSize k : ℕ) (s : State) (sizes : List ℕ)
    (acked : ℕ) (b : Reorder.Buffer Segment 2 (2 ^ k)) : Prop where
  channel : SegmentChannel.Inv bd baseId slotSize k s.channel sizes acked b
  register : s.tx.ackHistory = BitVec.allOnes 32
  released : b.released.length = b.base
  acks : ∀ a ∈ s.acks, ∃ r, r ≤ b.base ∧ Reports baseId k s.channel.nonces a r

section Reports
variable {baseId : U32} {k acked r : ℕ} {nonces : List Bool} {a : Ack}

/-- What a history of eight bits selects is what it claims. -/
lemma selectedNonces_eq_claimed (hat : a.frame.At baseId nonces r) :
    selectedNonces nonces (a.frame.history.setWidth 32) r =
      claimedNonces nonces a.frame.history r := by
  have hbit : ∀ i, (a.frame.history.setWidth 32).getLsbD i = a.frame.history.getLsbD i := by
    intro i
    rw [BitVec.getLsbD_setWidth]
    by_cases hi : i < 8
    · simp [show i < 32 by omega]
    · simp [BitVec.getLsbD_of_ge a.frame.history i (by omega)]
  have hhigh : ((List.range 24).map (8 + ·)).filter a.frame.history.getLsbD = [] := by
    refine List.filter_eq_nil_iff.mpr fun i hi => ?_
    obtain ⟨j, -, rfl⟩ := List.mem_map.mp hi
    simp
  unfold selectedNonces claimedNonces
  rw [List.filter_congr fun i _ => hbit i, show (32 : ℕ) = 8 + 24 from rfl, List.range_add,
    List.filter_append, hhigh, List.append_nil]
  refine List.map_congr_left fun i hi => ?_
  have hclaimed := (hat.claimed i (List.mem_filter.mp hi).2).2
  rw [decide_eq_true hclaimed, Bool.true_and]

/-- Nothing is missing after an ack that reports everything it moves the base past. -/
lemma Reports.acknowledge (h : Reports baseId k nonces a r) (hle : acked ≤ r)
    (hfew : r - acked ≤ 5) :
    Reference.acknowledge ⟨acked, ∅⟩ baseId nonces a.frame.id (a.frame.history.setWidth 32)
      a.frame.checksum = (⟨r, ∅⟩, false) := by
  have hlen : r ≤ nonces.length := h.le_sent.trans h.sent_le
  have hdelta : (a.frame.id - idAt baseId acked).toNat = r - acked := by
    rw [h.ack.id_eq]
    exact toNat_sub_of_le baseId hle (by omega)
  have hchecksum : xorAll (selectedNonces nonces (a.frame.history.setWidth 32) r) =
      a.frame.checksum := by
    rw [selectedNonces_eq_claimed h.ack, h.ack.checksum_eq]
  have hremaining : Reference.remaining ⟨acked, ∅⟩ nonces r (a.frame.history.setWidth 32)
      a.frame.checksum = ∅ := by
    unfold Reference.remaining
    rw [if_pos hchecksum]
    refine Finset.filter_eq_empty_iff.mpr fun u hu => ?_
    rw [Finset.empty_union, Finset.mem_Ico] at hu
    dsimp only at hu
    rw [BitVec.getLsbD_setWidth, h.full (r - 1 - u) (by omega) (by omega),
      decide_eq_true (by omega), Bool.and_true]
    decide
  unfold Reference.acknowledge
  dsimp only
  rw [hdelta, Nat.add_sub_cancel' hle, if_pos hlen, hremaining,
    if_neg DropDetection.not_dropped_empty]

lemma Reports.extend (h : Reports baseId k nonces a r) (more : List Bool) :
    Reports baseId k (nonces ++ more) a r := by
  have hlen := h.sent_le
  refine ⟨h.ack.extend (h.le_sent.trans hlen), h.full, h.le_sent, ?_, h.window_le⟩
  rw [List.length_append]
  omega

end Reports

section Released
variable {size : ℕ} {b : Reorder.Buffer Segment 2 size}

/-- Where as many segments have been released as lie before the base, none is missing. -/
lemma exists_released (h : b.released.length = b.base) {p : ℕ} (hp : p < b.base) :
    ∃ x ∈ b.released, x.1 = p := by
  have hnodup : (b.released.map Prod.fst).Nodup :=
    (List.pairwise_map.mpr b.increasing.pairwise).imp fun hlt => Nat.ne_of_lt hlt
  have hsub : (b.released.map Prod.fst).toFinset ⊆ Finset.range b.base := by
    intro q hq
    obtain ⟨x, hx, rfl⟩ := List.mem_map.mp (List.mem_toFinset.mp hq)
    exact Finset.mem_range.mpr (b.before x hx)
  have hcard : (Finset.range b.base).card ≤ (b.released.map Prod.fst).toFinset.card := by
    rw [List.toFinset_card_of_nodup hnodup, List.length_map, h, Finset.card_range]
  have hmem := Finset.eq_of_subset_of_card_le hsub hcard ▸ Finset.mem_range.mpr hp
  exact List.mem_map.mp (List.mem_toFinset.mp hmem)

/-- The receiver then reports all of the last five segments. -/
lemma history_full {rx : SegmentRx} {baseId : U32} {slotSize : ℕ}
    (h : rx.Models baseId slotSize b) (hreleased : b.released.length = b.base) {i : ℕ}
    (hi : i < 5) (hlt : i < b.base) : (ackOf rx).history.getLsbD i = true := by
  obtain ⟨x, hx, hpos⟩ := exists_released hreleased (show b.base - 1 - i < b.base by omega)
  have hbit := (h.tracks.history.rxBit i (by omega)).mpr ⟨x, hx, by omega⟩
  change ((rx.rxHistory &&& 0x1F).setWidth 8).getLsbD i = true
  rw [SegmentChannel.getLsbD_ackMask, hbit, decide_eq_true hi, Bool.and_true]

/-- As many segments are delivered as the window moves past. -/
lemma neverSkips_iff {rx rx' : SegmentRx} {baseId : U32} {slotSize : ℕ}
    {b' : Reorder.Buffer Segment 2 size} (h : rx.Models baseId slotSize b)
    (h' : rx'.Models baseId slotSize b') (hle : b.base ≤ b'.base) (hlt : b'.base < b.base + 2 ^ 32)
    (rel : List (ℕ × Segment)) :
    NeverSkips rx rx' (SegmentRx.dataOf rel) ↔ b.base + rel.length = b'.base := by
  have hbase : rx.window.baseId = _ := h.tracks.baseId_eq
  have hbase' : rx'.window.baseId = _ := h'.tracks.baseId_eq
  unfold NeverSkips SegmentRx.nextExpectedId SegmentRx.dataOf
  rw [hbase, hbase', toNat_sub_of_le baseId hle (by omega), List.length_map]
  omega

/-- A sync that is accepted skips a segment. -/
lemma sync_unchanged {rx rx' : SegmentRx} {baseId id : U32} {slotSize : ℕ} {out : List Bytes}
    (h : rx.Models baseId slotSize b) (hok : rx.sync id = .ok (rx', out))
    (hskips : NeverSkips rx rx' out) : rx' = rx := by
  by_cases hacc : rx.SyncAccepts id
  · exfalso
    have hbase := h.tracks.baseId_eq
    have hlt := (id - rx.window.baseId).isLt
    have hid : id = idAt baseId (b.base + (id - rx.window.baseId).toNat) := by
      rw [← idAt_idAt, ← hbase, idAt_toNat_sub]
    generalize (id - rx.window.baseId).toNat = delta at hlt hid
    subst hid
    have hle : b.base ≤ b.base + delta := Nat.le_add_right _ _
    obtain ⟨-, hbefore, hempty⟩ := (h.syncAccepts_iff hle (by omega)).mp hacc
    obtain ⟨rx₁, hok', hmodels⟩ := h.sync hle (by omega) hacc
    cases hok.symm.trans hok'
    obtain ⟨hnext, -, -⟩ := Reorder.Buffer.skipTo_of_le hle hbefore
    rw [neverSkips_iff h hmodels (by omega) (by omega), hnext] at hskips
    have hroom : b.base + 1 ≤ b.base + delta := by
      cases hpending : b.pending with
      | nil =>
        have := hempty hpending
        omega
      | cons y ys =>
        have hmem : y ∈ b.pending := hpending ▸ List.mem_cons_self
        have := b.ordered.le_of_mem hmem
        have := hbefore y hmem
        omega
    have := b.ordered.length_le hroom hbefore
    omega
  · rw [SegmentRx.sync_reject hacc] at hok
    cases hok
    rfl

end Released

section Invariant
variable {bd : Build} {baseId size : U32} {slotSize k acked : ℕ} {s s' : State} {sizes : List ℕ}
  {b : Reorder.Buffer Segment 2 (2 ^ k)}

variable (bd) in
lemma inv_initial (h : Initial baseId size slotSize s) :
    ∃ k, size.toNat = 2 ^ k ∧
      Inv bd baseId slotSize k s [] 0 (Reorder.Buffer.empty Segment 2 (2 ^ k)) := by
  obtain ⟨tx, hnew, rfl⟩ := h
  have hchannel : SegmentChannel.Initial baseId size slotSize
      ⟨tx, SegmentRx.new baseId size slotSize, [], [], [], []⟩ := ⟨tx, hnew, rfl⟩
  obtain ⟨k, hinv, hk⟩ := SegmentChannel.inv_initial bd hchannel
  exact ⟨k, hk, hinv, DropDetection.new_ackHistory hnew, rfl, by simp⟩

lemma nonces_length (s : State) : s.channel.nonces.length = s.segments.length :=
  List.length_map _

theorem Inv.send (h : Inv bd baseId slotSize k s sizes acked b) {nonce : Bool} {size : ℕ}
    {data : Bytes} {tx tx' : SegmentTx} (hcan : s.tx.canSend = true) (hsize : size < 2 ^ 64)
    (hfit : data.length ≤ slotSize) (hnonce : s.tx.computeNextNonce bd nonce = .ok tx)
    (hsent : tx.markSent bd size = .ok tx') :
    Inv bd baseId slotSize k
      { s with tx := tx', segments := s.segments ++ [⟨s.tx.nextId, nonce, data⟩] }
      (sizes ++ [size]) acked b := by
  refine ⟨h.channel.send hcan hsize hfit hnonce hsent, ?_, h.released, fun a ha => ?_⟩
  · rw [← h.register]
    exact DropDetection.send_ackHistory hnonce hsent
  · obtain ⟨r, hr, hreports⟩ := h.acks a ha
    have hext := hreports.extend [nonce]
    refine ⟨r, hr, ?_⟩
    simpa [State.channel, SegmentChannel.State.nonces] using hext

theorem Inv.receive (h : Inv bd baseId slotSize k s sizes acked b) {i : ℕ} {frame : SegmentFrame}
    {rx : SegmentRx} {out : List Bytes} (hget : s.segments[i]? = some frame)
    (hlate : s.segments.length - (i + 1) + 2 ^ k < 2 ^ 32)
    (hok : s.rx.receive bd frame.id frame.nonce frame.data = .ok (rx, out))
    (hskips : NeverSkips s.rx rx out) :
    Inv bd baseId slotSize k { s with rx := rx } sizes acked
      (b.offer (i, ⟨frame.nonce, frame.data⟩)) := by
  have hpow := h.channel.tx.pow_lt
  have hbase : b.base ≤ s.segments.length := h.channel.base_le
  obtain ⟨rx', rel, hok', hreleased, hchannel⟩ := h.channel.receive_at hget (by omega)
  cases hok.symm.trans hok'
  have hchannel := hchannel []
  have hmono := b.base_le_offer (i, ⟨frame.nonce, frame.data⟩)
  have hmove := b.base_offer_le (i, ⟨frame.nonce, frame.data⟩)
  refine ⟨hchannel, h.register, ?_, fun a ha => ?_⟩
  · rw [hreleased, List.length_append, h.released]
    exact (neverSkips_iff h.channel.rx hchannel.rx hmono (by omega) rel).mp hskips
  · obtain ⟨r, hr, hreports⟩ := h.acks a ha
    exact ⟨r, hr.trans hmono, hreports⟩

theorem Inv.sendAck (h : Inv bd baseId slotSize k s sizes acked b) :
    Inv bd baseId slotSize k { s with acks := s.acks ++ [⟨ackOf s.rx, s.segments.length⟩] }
        sizes acked b ∧
      Reports baseId k s.channel.nonces ⟨ackOf s.rx, s.segments.length⟩ b.base := by
  have hbase : b.base ≤ s.segments.length := h.channel.base_le
  have hwindow := h.channel.tx.window_le
  have hacked := h.channel.acked_le
  have hlen : sizes.length = s.segments.length := h.channel.sizes_length
  have hreports : Reports baseId k s.channel.nonces ⟨ackOf s.rx, s.segments.length⟩ b.base := by
    refine ⟨h.channel.ackOf, fun i hi hlt => history_full h.channel.rx h.released hi hlt, hbase,
      (nonces_length s).ge, ?_⟩
    dsimp only
    omega
  refine ⟨⟨h.channel, h.register, h.released, fun a ha => ?_⟩, hreports⟩
  rcases List.mem_append.mp ha with ha | ha
  · exact h.acks a ha
  · rw [List.mem_singleton.mp ha]
    exact ⟨b.base, le_rfl, hreports⟩

/-- An ack that is not too old is ignored, or it moves the base to the position it was made at. -/
theorem Inv.receiveAck (h : Inv bd baseId slotSize k s sizes acked b) {a : Ack} {r : ℕ}
    (hr : r ≤ b.base) (hreports : Reports baseId k s.channel.nonces a r)
    (hlate : s.segments.length - a.sent + 2 ^ k < 2 ^ 32) (hfollows : Follows s.tx a.frame) :
    ∃ tx, handleAck bd s.tx a.frame = .ok (tx, false) ∧
      Inv bd baseId slotSize k { s with tx := tx } sizes (max acked r) b := by
  have htx := h.channel.tx
  have hwindow := htx.window_le
  have hacked := htx.acked_le
  have hpow := htx.pow_lt
  have hlen : sizes.length = s.segments.length := h.channel.sizes_length
  have hsent := hreports.le_sent
  have hsent' := hreports.sent_le
  have hwindow' := hreports.window_le
  rw [nonces_length] at hsent'
  have hbase : s.tx.baseId = idAt baseId acked := htx.baseId_eq
  unfold handleAck
  rcases Nat.lt_or_ge r acked with hlt | hge
  · have hfar : sizes.length - acked < (a.frame.id - s.tx.baseId).toNat := by
      rw [hbase, hreports.ack.id_eq, toNat_sub_of_lt baseId hlt (by omega)]
      omega
    refine ⟨s.tx, htx.acknowledge_ignored hfar _ _, ?_⟩
    rw [max_eq_left hlt.le]
    exact h
  · have hdelta : (a.frame.id - s.tx.baseId).toNat = r - acked := by
      rw [hbase, hreports.ack.id_eq]
      exact toNat_sub_of_le baseId hge (by omega)
    have hfew : r - acked ≤ 5 := by
      rw [← hdelta]
      have hnext : (s.tx.nextId - s.tx.baseId).toNat = sizes.length - acked := htx.next_sub
      refine hfollows ?_
      rw [BitVec.le_def, hdelta, hnext]
      omega
    have hregister : Recent.Holds s.tx.ackHistory acked ∅ := h.register ▸ Recent.Holds.allOnes acked
    have hdetect : DropDetection.Inv bd baseId ⟨s.tx, s.channel.nonces, ⟨acked, ∅⟩⟩ k sizes :=
      ⟨htx, h.channel.nonces, (nonces_length s).trans hlen.symm, hregister⟩
    obtain ⟨tx, hok, hdetect'⟩ := hdetect.acknowledge a.frame.id (a.frame.history.setWidth 32)
      a.frame.checksum
    dsimp only at hok hdetect'
    rw [hreports.acknowledge hge hfew] at hok hdetect'
    refine ⟨tx, hok, ?_⟩
    rw [max_eq_right hge]
    refine ⟨⟨hdetect'.tx, hdetect'.nonces, h.channel.sizes_length, h.channel.rx, h.channel.ids,
      h.channel.buffered, hr, h.channel.base_le, h.channel.syncs, h.channel.acks⟩, ?_, h.released,
      h.acks⟩
    exact hdetect'.register.eq_allOnes_iff.mpr rfl

lemma inv_step {action : Action} (hk : size.toNat = 2 ^ k)
    (h : Inv bd baseId slotSize k s sizes acked b)
    (hstep : Step bd slotSize (Timely size) (Timely size) s action s') :
    ∃ sizes acked b, Inv bd baseId slotSize k s' sizes acked b := by
  cases hstep with
  | send hcan hsize hfit hnonce hsent =>
    exact ⟨_, _, _, h.send hcan hsize hfit hnonce hsent⟩
  | receive hget hlate hok hskips =>
    exact ⟨_, _, _, h.receive hget (hk ▸ hlate) hok hskips⟩
  | sync hok hskips =>
    rw [sync_unchanged h.channel.rx hok hskips]
    exact ⟨_, _, _, h⟩
  | sendAck => exact ⟨_, _, _, h.sendAck.1⟩
  | receiveAck ha hlate hfollows hok =>
    obtain ⟨r, hr, hreports⟩ := h.acks _ ha
    obtain ⟨tx, hok', h'⟩ := h.receiveAck hr hreports (hk ▸ hlate) hfollows
    cases hok.symm.trans hok'
    exact ⟨_, _, _, h'⟩

theorem inv_reachable
    (hs : Reachable (system bd baseId size slotSize (Timely size) (Timely size)) s) :
    ∃ k, size.toNat = 2 ^ k ∧ ∃ sizes acked b, Inv bd baseId slotSize k s sizes acked b := by
  have hrule := @Reachable.invariant _ _
    (system bd baseId size slotSize (Timely size) (Timely size)) fun s =>
      ∃ k, size.toNat = 2 ^ k ∧ ∃ sizes acked b, Inv bd baseId slotSize k s sizes acked b
  refine hrule ?_ ?_ hs
  · intro s hinit
    obtain ⟨k, hk, h⟩ := inv_initial bd hinit
    exact ⟨k, hk, _, _, _, h⟩
  · rintro s action s' ⟨k, hk, sizes, acked, b, h⟩ hstep
    exact ⟨k, hk, inv_step hk h hstep⟩

/-- No ack is taken for the sign of a drop. -/
theorem no_false_signal
    (hs : Reachable (system bd baseId size slotSize (Timely size) (Timely size)) s) {a : Ack}
    (ha : a ∈ s.acks) (hlate : Timely size (s.segments.length - a.sent))
    (hfollows : Follows s.tx a.frame) : ∃ tx, handleAck bd s.tx a.frame = .ok (tx, false) := by
  obtain ⟨k, hk, sizes, acked, b, h⟩ := inv_reachable hs
  obtain ⟨r, hr, hreports⟩ := h.acks a ha
  obtain ⟨tx, hok, -⟩ := h.receiveAck hr hreports (hk ▸ hlate) hfollows
  exact ⟨tx, hok⟩

end Invariant

section Rounds
variable {bd : Build} {baseId size : U32} {slotSize k n : ℕ} {Late LateAck : ℕ → Prop} {s : State}
  {sizes : List ℕ} {b : Reorder.Buffer Segment 2 (2 ^ k)}

/-- Segments under the same nonce have been sent, received and acknowledged one by one. -/
structure Idle (bd : Build) (baseId : U32) (slotSize k : ℕ) (s : State) (sizes : List ℕ) (n : ℕ)
    (b : Reorder.Buffer Segment 2 (2 ^ k)) : Prop where
  inv : Inv bd baseId slotSize k s sizes n b
  base_eq : b.base = n
  pending_eq : b.pending = []
  nonces_eq : s.channel.nonces = List.replicate n false
  recorded : ∀ r, 0 < r → r ≤ n → ∃ a ∈ s.acks, Reports baseId k s.channel.nonces a r

lemma Idle.segments_length (h : Idle bd baseId slotSize k s sizes n b) : s.segments.length = n := by
  rw [← nonces_length, h.nonces_eq, List.length_replicate]

/-- An empty segment can be sent if the window is not full. -/
lemma exists_send {tx : SegmentTx} {acked : ℕ} (h : tx.InFlight bd k baseId sizes acked)
    (hcan : sizes.length < acked + 2 ^ k) (nonce : Bool) :
    tx.canSend = true ∧ ∃ tx₁ tx₂, tx.computeNextNonce bd nonce = .ok tx₁ ∧
      tx₁.markSent bd 0 = .ok tx₂ := by
  have hcan' := h.canSend_iff.mpr hcan
  obtain ⟨tx₁, hnonce, hflight, -, -, -, -, hsame⟩ := h.computeNextNonce nonce
  have htotal : tx₁.transitTotal + 0 < 2 ^ 64 := by
    rw [hflight.total.1]
    exact Nat.mod_lt _ (by decide)
  obtain ⟨tx₂, hsent⟩ := hflight.markSent_ok (hsame.trans hcan') htotal
  exact ⟨hcan', tx₁, tx₂, hnonce, hsent⟩

/-- The segment expected next is released at once. -/
lemma offer_next {size : ℕ} {b : Reorder.Buffer Segment 2 size} (hsize : 0 < size)
    (hpending : b.pending = []) (segment : Segment) :
    (b.offer (b.base, segment)).base = b.base + 1 ∧
      (b.offer (b.base, segment)).pending = [] ∧
      (b.offer (b.base, segment)).released = b.released ++ [(b.base, segment)] := by
  have hsettle : settle 2 b.base [(b.base, segment)] = ([(b.base, segment)], b.base + 1, []) :=
    settle_release (.inl rfl)
  obtain ⟨hbase, hpending', hreleased⟩ := Reorder.Buffer.offer_of_mem (b := b)
    (x := (b.base, segment)) ⟨le_rfl, Nat.lt_add_of_pos_right hsize⟩
  have hplace : place (b.base, segment) b.pending = [(b.base, segment)] := by
    rw [hpending]
    rfl
  rw [hplace, hsettle] at hbase hpending' hreleased
  exact ⟨hbase, hpending', hreleased⟩

/-- One more segment is sent, received and acknowledged. -/
lemma Idle.round (h : Idle bd baseId slotSize k s sizes n b) (hlate : Late 0) (hlateAck : LateAck 0)
    (hs : Reachable (system bd baseId size slotSize Late LateAck) s) :
    ∃ s' sizes' b', Reachable (system bd baseId size slotSize Late LateAck) s' ∧
      Idle bd baseId slotSize k s' sizes' (n + 1) b' := by
  have hpow := h.inv.channel.tx.pow_lt
  have hlen := h.segments_length
  have hsizes : sizes.length = s.segments.length := h.inv.channel.sizes_length
  have hpos := Nat.two_pow_pos k
  obtain ⟨hcan, tx₁, tx₂, hnonce, hsent⟩ :=
    exists_send h.inv.channel.tx (show sizes.length < n + 2 ^ k by omega) false
  have hsend : Step bd slotSize Late LateAck s (.send false 0 []) _ :=
    .send hcan (by decide) (Nat.zero_le slotSize) hnonce hsent
  have hfit : ([] : Bytes).length ≤ slotSize := Nat.zero_le slotSize
  have hinv₁ := h.inv.send hcan (by decide) hfit hnonce hsent
  set s₁ : State := { s with tx := tx₂, segments := s.segments ++ [⟨s.tx.nextId, false, []⟩] }
    with hs₁
  have hlen₁ : s₁.segments.length = n + 1 := by simp [hs₁, hlen]
  have hget : s₁.segments[n]? = some ⟨s.tx.nextId, false, []⟩ := by
    rw [hs₁, ← hlen]
    exact List.getElem?_concat_length
  have hnonces₁ : s₁.channel.nonces = List.replicate (n + 1) false := by
    rw [List.replicate_succ', ← h.nonces_eq]
    exact List.map_append
  obtain ⟨hbase, hpending, hreleased⟩ := offer_next hpos h.pending_eq ⟨false, []⟩
  rw [h.base_eq] at hbase hpending hreleased
  obtain ⟨rx, rel, hok, hrel, hchannel⟩ := hinv₁.channel.receive_at hget
    (by rw [h.base_eq]; omega)
  have hchannel := hchannel []
  have hone : rel.length = 1 := by
    rw [List.append_cancel_left (hrel.symm.trans hreleased), List.length_singleton]
  have hmodels : rx.Models baseId slotSize (b.offer (n, ⟨false, []⟩)) := hchannel.rx
  have hskips : NeverSkips s₁.rx rx (SegmentRx.dataOf rel) := by
    refine (neverSkips_iff h.inv.channel.rx hmodels ?_ ?_ rel).mpr ?_
    · rw [hbase, h.base_eq]
      exact Nat.le_succ n
    · rw [hbase, h.base_eq]
      omega
    · rw [hbase, h.base_eq, hone]
  have hreceive : Step bd slotSize Late LateAck s₁ (.receive n) _ :=
    .receive hget (by rwa [hlen₁, Nat.sub_self]) hok hskips
  have hinv₂ := hinv₁.receive hget (by omega) hok hskips
  obtain ⟨hinv₃, hreports⟩ := hinv₂.sendAck
  rw [hbase] at hreports
  have hack : Step bd slotSize Late LateAck _ .sendAck _ := .sendAck (s := { s₁ with rx := rx })
  have hfollows : Follows tx₂ (ackOf rx) := by
    intro _
    have htx : tx₂.baseId = _ := hinv₂.channel.tx.baseId_eq
    rw [htx, hreports.ack.id_eq, toNat_sub_of_le baseId (by omega) (by omega)]
    omega
  obtain ⟨tx₃, hhandle, hinv₄⟩ := hinv₃.receiveAck (by rw [hbase]) hreports (by simp; omega)
    hfollows
  have hmem : (⟨ackOf rx, s₁.segments.length⟩ : Ack) ∈
      s₁.acks ++ [⟨ackOf rx, s₁.segments.length⟩] := List.mem_append_right _ (by simp)
  have hreceiveAck : Step bd slotSize Late LateAck _
      (.receiveAck ⟨ackOf rx, s₁.segments.length⟩) _ := .receiveAck
    (s := { s₁ with rx := rx, acks := s₁.acks ++ [⟨ackOf rx, s₁.segments.length⟩] })
    hmem (by simpa using hlateAck) hfollows hhandle
  rw [max_eq_right (Nat.le_succ n)] at hinv₄
  refine ⟨_, _, _, (((hs.step hsend).step hreceive).step hack).step hreceiveAck, hinv₄, hbase,
    hpending, hnonces₁, fun r hpos hr => ?_⟩
  rcases Nat.lt_or_ge n r with hlt | hge
  · obtain rfl : r = n + 1 := by omega
    exact ⟨_, hmem, hreports⟩
  · obtain ⟨a, ha, hold⟩ := h.recorded r hpos hge
    have hext := hold.extend [false]
    rw [h.nonces_eq, ← List.replicate_succ', ← hnonces₁] at hext
    exact ⟨a, List.mem_append_left _ ha, hext⟩

variable (bd Late LateAck) in
/-- Any number of segments can be exchanged this way. -/
theorem exists_idle (hlate : Late 0) (hlateAck : LateAck 0)
    (hinit : Initial baseId size slotSize s) (n : ℕ) :
    ∃ k s' sizes b, Reachable (system bd baseId size slotSize Late LateAck) s' ∧
      Idle bd baseId slotSize k s' sizes n b := by
  induction n with
  | zero =>
    obtain ⟨k, -, hinv⟩ := inv_initial bd hinit
    refine ⟨k, s, _, _, .init hinit, hinv, rfl, rfl, ?_, fun r hpos hr => absurd hpos (by omega)⟩
    obtain ⟨tx, -, rfl⟩ := hinit
    rfl
  | succ n ih =>
    obtain ⟨k, s', sizes, b, hs, hidle⟩ := ih
    obtain ⟨s'', sizes', b', hs', hidle'⟩ := hidle.round hlate hlateAck hs
    exact ⟨k, s'', sizes', b', hs', hidle'⟩

end Rounds

/-- The ack of seven segments arrives for the second time. -/
theorem no_false_signal_sample : ∃ s a tx,
    Reachable (system .debug 0xFFFFFFFE 64 16 (Timely 64) (Timely 64)) s ∧ a ∈ s.acks ∧
      a.frame.id = 5 ∧ s.tx.baseId = 5 ∧ handleAck .debug s.tx a.frame = .ok (tx, false) := by
  obtain ⟨tx₀, hnew⟩ : ∃ tx, SegmentTx.new 0xFFFFFFFE 64 = .ok tx := ⟨_, rfl⟩
  have hinit : Initial 0xFFFFFFFE 64 16 ⟨tx₀, SegmentRx.new 0xFFFFFFFE 64 16, [], []⟩ :=
    ⟨tx₀, hnew, rfl⟩
  have hlate : Timely 64 0 := by unfold Timely; decide
  obtain ⟨k, s, sizes, b, hs, hidle⟩ :=
    exists_idle .debug (Timely 64) (Timely 64) hlate hlate hinit 7
  obtain ⟨a, ha, hreports⟩ := hidle.recorded 7 (by decide) (by decide)
  have hlen := hidle.segments_length
  have hbase : s.tx.baseId = _ := hidle.inv.channel.tx.baseId_eq
  have hid := hreports.ack.id_eq
  have hfollows : Follows s.tx a.frame := by
    have hnext : s.tx.nextId = _ := hidle.inv.channel.tx.nextId_eq
    have hsizes : sizes.length = s.segments.length := hidle.inv.channel.sizes_length
    unfold Follows
    rw [hid, hbase, hnext, hsizes, hlen]
    decide
  obtain ⟨tx, hok⟩ := no_false_signal hs ha (by unfold Timely; rw [hlen]; simp; omega) hfollows
  exact ⟨s, a, tx, hs, ha, hid, hbase, hok⟩

end Redpine.CongestionSignal
