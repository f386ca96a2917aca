import Redpine.CongestionSignal

/-! Arrivals that are a whole lap of the ID space late. An ack is taken for one of the segments that
have the same IDs now, a segment for the one that has its ID now, and in both cases a drop is
signalled although nothing has been lost. -/
namespace Redpine.CongestionSignal
open Machine SerialId Transition Parity Reorder
open SegmentChannel (SegmentFrame AckFrame ackOf handleAck claimedNonces)
open DropDetection (Reference selectedNonces Dropped)

section Sender
variable {bd : Build} {baseId size : U32} {slotSize k : ℕ} {Late LateAck : ℕ → Prop} {s : State}
  {sizes : List ℕ} {r : Reference}

/-- The sender's half of the invariant, whatever its acks have told it. -/
structure Detects (bd : Build) (baseId : U32) (slotSize k : ℕ) (s : State) (sizes : List ℕ)
    (r : Reference) : Prop where
  detect : DropDetection.Inv bd baseId ⟨s.tx, s.channel.nonces, r⟩ k sizes
  ids : ∀ i frame, s.segments[i]? = some frame →
    frame.id = idAt baseId i ∧ frame.data.length ≤ slotSize

lemma Detects.length_eq (h : Detects bd baseId slotSize k s sizes r) :
    sizes.length = s.segments.length := by
  rw [← nonces_length]
  exact h.detect.sizes_length.symm

/-- An empty segment is sent if the window permits. -/
lemma Detects.send (h : Detects bd baseId slotSize k s sizes r)
    (hs : Reachable (system bd baseId size slotSize Late LateAck) s) (nonce : Bool)
    (hroom : s.segments.length < r.base + 2 ^ k) :
    ∃ tx frame, frame.nonce = nonce ∧
      Reachable (system bd baseId size slotSize Late LateAck)
        { s with tx := tx, segments := s.segments ++ [frame] } ∧
      Detects bd baseId slotSize k { s with tx := tx, segments := s.segments ++ [frame] }
        (sizes ++ [0]) r := by
  have hlen := h.length_eq
  obtain ⟨hcan, tx₁, tx₂, hnonce, hsent⟩ := exists_send h.detect.tx (hlen ▸ hroom) nonce
  have hstep : Step bd slotSize Late LateAck s (.send nonce 0 []) _ :=
    .send hcan (by decide) (Nat.zero_le slotSize) hnonce hsent
  obtain ⟨hflight, hnonces⟩ :=
    h.detect.nonces.send h.detect.tx h.detect.sizes_length hcan (by decide) hnonce hsent
  have hregister : Recent.Holds tx₂.ackHistory r.base r.unacked := by
    rw [DropDetection.send_ackHistory hnonce hsent]
    exact h.detect.register
  have hnext : s.tx.nextId = idAt baseId s.segments.length := by
    rw [← hlen]
    exact h.detect.tx.nextId_eq
  set frame : SegmentFrame := ⟨s.tx.nextId, nonce, []⟩ with hframe
  have hmap : (s.segments ++ [frame]).map (·.nonce) = s.channel.nonces ++ [nonce] :=
    List.map_append
  have hsends : tx₂.Nonces baseId ((s.segments ++ [frame]).map (·.nonce)) r.base := by
    rw [hmap]
    exact hnonces
  refine ⟨tx₂, frame, rfl, hs.step hstep, ⟨hflight, hsends, ?_, hregister⟩, fun i frame' hi => ?_⟩
  · dsimp only
    rw [nonces_length]
    simp [hlen]
  · rcases Nat.lt_trichotomy i s.segments.length with hlt | heq | hgt
    · rw [List.getElem?_append_left hlt] at hi
      exact h.ids i frame' hi
    · rw [heq, List.getElem?_concat_length] at hi
      cases hi
      exact ⟨by rw [heq, hframe, hnext], Nat.zero_le slotSize⟩
    · rw [List.getElem?_eq_none (by simp; omega)] at hi
      cases hi

/-- Segments are sent as long as the window permits. -/
lemma Detects.sends (h : Detects bd baseId slotSize k s sizes r)
    (hs : Reachable (system bd baseId size slotSize Late LateAck) s) (nonces : List Bool)
    (hroom : s.segments.length + nonces.length ≤ r.base + 2 ^ k) :
    ∃ tx more sizes',
      Reachable (system bd baseId size slotSize Late LateAck)
        { s with tx := tx, segments := s.segments ++ more } ∧
      Detects bd baseId slotSize k { s with tx := tx, segments := s.segments ++ more } sizes' r ∧
      more.map (·.nonce) = nonces := by
  induction nonces generalizing s sizes with
  | nil =>
    refine ⟨s.tx, [], sizes, ?_⟩
    rw [List.append_nil]
    exact ⟨hs, h, rfl⟩
  | cons nonce nonces ih =>
    rw [List.length_cons] at hroom
    obtain ⟨tx₁, frame, hnonce, hs₁, h₁⟩ := h.send hs nonce (by omega)
    obtain ⟨tx, more, sizes', hs', h', hmore⟩ := ih h₁ hs₁ (by simp; omega)
    dsimp only at hs' h'
    rw [List.append_assoc] at hs' h'
    exact ⟨tx, frame :: more, sizes', hs', h', by rw [List.map_cons, hnonce, hmore]⟩

/-- An ack is handled as the reference handles it, however late it is. -/
lemma Detects.receiveAck (h : Detects bd baseId slotSize k s sizes r)
    (hs : Reachable (system bd baseId size slotSize Late LateAck) s) {a : Ack} (ha : a ∈ s.acks)
    (hlate : LateAck (s.segments.length - a.sent)) (hfollows : Follows s.tx a.frame)
    {r' : Reference} {drop : Bool}
    (hreference : r.acknowledge baseId s.channel.nonces a.frame.id (a.frame.history.setWidth 32)
      a.frame.checksum = (r', drop)) :
    ∃ tx, handleAck bd s.tx a.frame = .ok (tx, drop) ∧
      Reachable (system bd baseId size slotSize Late LateAck) { s with tx := tx } ∧
      Detects bd baseId slotSize k { s with tx := tx } sizes r' := by
  obtain ⟨tx, hok, h'⟩ := h.detect.acknowledge a.frame.id (a.frame.history.setWidth 32)
    a.frame.checksum
  dsimp only at hok h'
  rw [hreference] at hok h'
  exact ⟨tx, hok, hs.step (.receiveAck ha hlate hfollows hok), h', h.ids⟩

lemma Detects.follows (h : Detects bd baseId slotSize k s sizes r) {frame : AckFrame} {delta : ℕ}
    (hid : frame.id = idAt baseId (r.base + delta)) (hfew : delta ≤ 5) :
    Follows s.tx frame := by
  intro _
  have hbase : s.tx.baseId = idAt baseId r.base := h.detect.tx.baseId_eq
  rw [hid, hbase, toNat_sub_of_le baseId (Nat.le_add_right _ _) (by omega),
    Nat.add_sub_cancel_left]
  exact hfew

lemma Idle.detects {n : ℕ} {b : Reorder.Buffer Segment 2 (2 ^ k)}
    (h : Idle bd baseId slotSize k s sizes n b) :
    Detects bd baseId slotSize k s sizes ⟨n, ∅⟩ :=
  ⟨⟨h.inv.channel.tx, h.inv.channel.nonces,
    (nonces_length s).trans h.inv.channel.sizes_length.symm,
    h.inv.register ▸ Recent.Holds.allOnes n⟩, h.inv.channel.ids⟩

end Sender

section Lap

lemma idAt_lap (baseId : U32) (p : ℕ) : idAt baseId (2 ^ 32 + p) = idAt baseId p := by
  rw [← idAt_idAt]
  congr 1
  exact (add_eq_left (a := baseId)).mpr rfl

/-- The nonces of a lap, and of seven more segments of which the second one has its nonce set. -/
def lapNonces (m : ℕ) : List Bool :=
  List.replicate m false ++ [false, true, false, false, false, false, false]

lemma lapNonces_length (m : ℕ) : (lapNonces m).length = m + 7 := by
  simp [lapNonces]

lemma lapNonces_getD (m j : ℕ) : (lapNonces m).getD j false = decide (j = m + 1) := by
  unfold lapNonces
  rcases Nat.lt_or_ge j m with hlt | hge
  · rw [List.getD_append _ _ _ _ (by simpa using hlt), List.getD_eq_getElem?_getD,
      List.getElem?_replicate, if_pos hlt, decide_eq_false (by omega)]
    rfl
  · obtain ⟨d, rfl⟩ := Nat.exists_eq_add_of_le hge
    rw [List.getD_append_right _ _ _ _ (by simp), List.length_replicate, Nat.add_sub_cancel_left]
    by_cases hd : d < 7
    · interval_cases d <;> simp
    · rw [List.getD_eq_default _ _ (by simpa using hd), decide_eq_false (by omega)]

lemma xorAll_lapNonces {history : U32} {bits : List ℕ} (m base : ℕ)
    (hbits : (List.range 32).filter history.getLsbD = bits) :
    xorAll (selectedNonces (lapNonces m) history base) =
      xorAll (bits.map fun i => decide (i < base) && decide (base - 1 - i = m + 1)) := by
  unfold selectedNonces
  rw [hbits]
  simp only [lapNonces_getD]

/-- The nonces do not check out, and both segments are missing. -/
lemma acknowledge_first (baseId : U32) {m : ℕ} {history : U32}
    (hxor : xorAll (selectedNonces (lapNonces m) history (m + 2)) = true) :
    Reference.acknowledge ⟨m, ∅⟩ baseId (lapNonces m) (idAt baseId (m + 2)) history false =
      (⟨m + 2, {m, m + 1}⟩, false) := by
  have hdelta : (idAt baseId (m + 2) - idAt baseId m).toNat = 2 := by
    rw [toNat_sub_of_le baseId (by omega) (by omega)]
    omega
  have hremaining : Reference.remaining ⟨m, ∅⟩ (lapNonces m) (m + 2) history false =
      {m, m + 1} := by
    unfold Reference.remaining
    rw [hxor, if_neg (by decide), Finset.empty_union]
    ext u
    dsimp only
    rw [Finset.mem_Ico, Finset.mem_insert, Finset.mem_singleton]
    omega
  have hdropped : ¬ Dropped {m, m + 1} (m + 2) := by
    rintro ⟨u, hu, -, hfar | hthree⟩
    · rw [Finset.mem_insert, Finset.mem_singleton] at hu
      omega
    · have hle := Finset.card_le_card
        (Finset.sdiff_subset (s := Finset.Ioo u (m + 2)) (t := {m, m + 1}))
      rw [Finset.mem_insert, Finset.mem_singleton] at hu
      rw [Nat.card_Ioo] at hle
      omega
  unfold Reference.acknowledge
  dsimp only
  rw [hdelta, if_pos (by rw [lapNonces_length]; omega), hremaining, if_neg hdropped]

/-- The five segments after them are reported. -/
lemma acknowledge_second (baseId : U32) (m : ℕ) :
    Reference.acknowledge ⟨m + 2, {m, m + 1}⟩ baseId (lapNonces m) (idAt baseId (m + 7)) 31 false =
      (⟨m + 7, ∅⟩, true) := by
  have hdelta : (idAt baseId (m + 7) - idAt baseId (m + 2)).toNat = 5 := by
    rw [toNat_sub_of_le baseId (by omega) (by omega)]
    omega
  have hselected : xorAll (selectedNonces (lapNonces m) 31 (m + 7)) = false := by
    rw [xorAll_lapNonces m (m + 7) (show _ = [0, 1, 2, 3, 4] by decide)]
    simp
  have hbit : ∀ i, (31 : U32).getLsbD i = decide (i < 5) := by
    intro i
    by_cases hi : i < 32
    · interval_cases i <;> rfl
    · rw [BitVec.getLsbD_of_ge _ _ (by omega), decide_eq_false (by omega)]
  have hdropped : Dropped (Reference.remaining ⟨m + 2, {m, m + 1}⟩ (lapNonces m) (m + 7) 31 false)
      (m + 7) := by
    unfold Reference.remaining
    rw [if_pos hselected]
    have hset : ({m, m + 1} ∪ Finset.Ico (m + 2) (m + 7)).filter
        (fun u => (31 : U32).getLsbD (m + 7 - 1 - u) = false) = {m, m + 1} := by
      ext u
      rw [Finset.mem_filter, Finset.mem_union, Finset.mem_insert, Finset.mem_singleton,
        Finset.mem_Ico, hbit, decide_eq_false_iff_not]
      omega
    rw [hset]
    refine ⟨m, by simp, by simp, .inr ?_⟩
    have hsub : Finset.Ioo (m + 1) (m + 7) ⊆ Finset.Ioo m (m + 7) \ {m, m + 1} := by
      intro u hu
      rw [Finset.mem_Ioo] at hu
      rw [Finset.mem_sdiff, Finset.mem_Ioo, Finset.mem_insert, Finset.mem_singleton]
      omega
    have hcard := Finset.card_le_card hsub
    rw [Nat.card_Ioo] at hcard
    omega
  unfold Reference.acknowledge
  dsimp only
  rw [hdelta, if_pos (by rw [lapNonces_length]), if_pos hdropped]

end Lap

section Quiet
variable {bd : Build} {baseId size : U32} {slotSize k : ℕ} {Late LateAck : ℕ → Prop} {s : State}
  {sizes : List ℕ} {r : Reference} {rx : SegmentRx} {base : ℕ} {pending : List (ℕ × Segment)}

/-- The receiver has seen every segment before its base, all of them without nonces. -/
def Quiet (baseId : U32) (slotSize k : ℕ) (rx : SegmentRx) (base : ℕ)
    (pending : List (ℕ × Segment)) : Prop :=
  ∃ b : Reorder.Buffer Segment 2 (2 ^ k), rx.Models baseId slotSize b ∧ b.base = base ∧
    b.pending = pending ∧ b.released.length = base ∧
      ∀ x ∈ b.released ++ b.pending, x.2.nonce = false

lemma Idle.quiet {n : ℕ} {b : Reorder.Buffer Segment 2 (2 ^ k)}
    (h : Idle bd baseId slotSize k s sizes n b) : Quiet baseId slotSize k s.rx n [] := by
  refine ⟨b, h.inv.channel.rx, h.base_eq, h.pending_eq, h.inv.released.trans h.base_eq,
    fun x hx => ?_⟩
  obtain ⟨frame, hframe, heq⟩ := h.inv.channel.buffered x hx
  have hnonce : s.channel.nonces[x.1]? = some frame.nonce := by
    change (s.segments.map (·.nonce))[x.1]? = _
    rw [List.getElem?_map, show s.segments[x.1]? = some frame from hframe]
    rfl
  rw [h.nonces_eq] at hnonce
  rw [heq]
  exact List.eq_of_mem_replicate (List.mem_of_getElem? hnonce)

/-- A segment arrives that is taken for the one at position `p`. -/
lemma Quiet.receive (h : Quiet baseId slotSize k s.rx base pending)
    (hs : Reachable (system bd baseId size slotSize Late LateAck) s) {i p : ℕ}
    {frame : SegmentFrame} (hget : s.segments[i]? = some frame)
    (hlate : Late (s.segments.length - (i + 1))) (hid : frame.id = idAt baseId p)
    (hfit : frame.data.length ≤ slotSize) (hp : base ≤ p ∧ p < base + 2 ^ k)
    {out pending' : List (ℕ × Segment)} {base' : ℕ}
    (hsettle : settle 2 base (place (p, ⟨frame.nonce, frame.data⟩) pending) =
      (out, base', pending')) (hcount : base + out.length = base')
    (hsilent : ∀ x ∈ place (p, ⟨frame.nonce, frame.data⟩) pending, x.2.nonce = false) :
    ∃ rx, Reachable (system bd baseId size slotSize Late LateAck) { s with rx := rx } ∧
      Quiet baseId slotSize k rx base' pending' := by
  obtain ⟨b, hmodels, rfl, rfl, hreleased, hfalse⟩ := h
  have hpow := hmodels.size_le
  obtain ⟨rx, rel, hok, hrel, hmodels'⟩ := hmodels.receive bd
    (x := (p, ⟨frame.nonce, frame.data⟩)) (by simp only; omega) (by simp only; omega) hfit
  obtain ⟨hbase, hpending, hout⟩ := Reorder.Buffer.offer_of_mem (b := b)
    (x := (p, ⟨frame.nonce, frame.data⟩)) hp
  have happend := settle_append 2 b.base (place (p, ⟨frame.nonce, frame.data⟩) b.pending)
  rw [hsettle] at hbase hpending hout happend
  obtain rfl : rel = out := List.append_cancel_left (hrel.symm.trans hout)
  dsimp only at hbase hpending happend
  rw [← hid] at hok
  have hmove := b.base_offer_le (p, ⟨frame.nonce, frame.data⟩)
  have hskips : NeverSkips s.rx rx (SegmentRx.dataOf rel) := by
    rw [neverSkips_iff hmodels hmodels' (by omega) (by omega), hbase, hcount]
  refine ⟨rx, hs.step (.receive hget hlate hok hskips), _, hmodels', hbase, hpending, ?_,
    fun x hx => ?_⟩
  · rw [hrel, List.length_append, hreleased, hcount]
  · rw [hrel, hpending, List.append_assoc, happend] at hx
    rcases List.mem_append.mp hx with hx | hx
    · exact hfalse x (List.mem_append_left _ hx)
    · exact hsilent x hx

/-- It reports the last five segments, and their nonces as it has seen them. -/
lemma Quiet.ackOf_eq (h : Quiet baseId slotSize k rx base pending) (hfew : 5 ≤ base) :
    ackOf rx = ⟨idAt baseId base, 31, false⟩ := by
  obtain ⟨b, hmodels, rfl, rfl, hreleased, hfalse⟩ := h
  have hhistory : (rx.rxHistory &&& 0x1F).setWidth 8 = (31 : U8) := by
    refine BitVec.eq_of_getLsbD_eq fun i hi => ?_
    have hbit : (31 : U8).getLsbD i = decide (i < 5) := by
      interval_cases i <;> rfl
    rw [hbit]
    by_cases hlt : i < 5
    · rw [decide_eq_true hlt]
      exact history_full hmodels hreleased hlt (by omega)
    · rw [SegmentChannel.getLsbD_ackMask, decide_eq_false hlt, Bool.false_and]
  have hnonces : rx.nonceHistory.setWidth 8 = 0#8 := by
    refine BitVec.eq_of_getLsbD_eq fun i hi => ?_
    rw [BitVec.getLsbD_setWidth, decide_eq_true hi, Bool.true_and, BitVec.getLsbD_zero,
      Bool.eq_false_iff]
    intro hbit
    obtain ⟨x, hx, -, hnonce⟩ := (hmodels.tracks.history.nonceBit i (by omega)).mp hbit
    rw [hfalse x (List.mem_append_left _ hx)] at hnonce
    cases hnonce
  unfold ackOf SegmentRx.nextAckInfo SegmentRx.nextExpectedId
  rw [hhistory, hnonces, hmodels.tracks.baseId_eq]
  rfl

end Quiet

section LateAcks
variable {k n r : ℕ} {a : Ack} {baseId : U32}

lemma Reports.history_eq {nonces : List Bool} (h : Reports baseId k nonces a r)
    {history : U8} (hbits : ∀ i < 8, history.getLsbD i = decide (i < 5 ∧ i < r)) :
    a.frame.history = history := by
  refine BitVec.eq_of_getLsbD_eq fun i hi => ?_
  rw [hbits i hi, Bool.eq_iff_iff, decide_eq_true_eq]
  exact ⟨h.ack.claimed i, fun hlt => h.full i hlt.1 hlt.2⟩

/-- Where no nonce is set, no checksum is. -/
lemma Reports.checksum_eq_false (h : Reports baseId k (List.replicate n false) a r) :
    a.frame.checksum = false := by
  rw [h.ack.checksum_eq]
  unfold claimedNonces
  generalize (List.range 8).filter a.frame.history.getLsbD = claimed
  induction claimed with
  | nil => rfl
  | cons i claimed ih =>
    have hzero : (List.replicate n false).getD (r - 1 - i) false = false := by
      rw [List.getD_eq_getElem?_getD, List.getElem?_replicate]
      split_ifs
      · rfl
      · rfl
    rw [List.map_cons, xorAll_cons, ih, hzero]
    rfl

end LateAcks

section Signals
variable {bd : Build} {baseId size : U32} {slotSize k m : ℕ} {Late LateAck : ℕ → Prop} {s : State}
  {sizes : List ℕ}

/-- An ack whose nonces do not check out, and one that reports what follows. -/
lemma Detects.signals (h : Detects bd baseId slotSize k s sizes ⟨m, ∅⟩)
    (hnonces : s.channel.nonces = lapNonces m)
    (hs : Reachable (system bd baseId size slotSize Late LateAck) s) {a a' : Ack}
    (ha : a ∈ s.acks) (hlate : LateAck (s.segments.length - a.sent)) {history : U8}
    (hframe : a.frame = ⟨idAt baseId (m + 2), history, false⟩)
    (hxor : xorAll (selectedNonces (lapNonces m) (history.setWidth 32) (m + 2)) = true)
    (hframe' : a'.frame = ⟨idAt baseId (m + 7), 31, false⟩) :
    ∃ tx tx', Reachable (system bd baseId size slotSize Late LateAck) { s with tx := tx } ∧
      Follows tx a'.frame ∧ handleAck bd tx a'.frame = .ok (tx', true) := by
  have hreference : Reference.acknowledge ⟨m, ∅⟩ baseId s.channel.nonces a.frame.id
      (a.frame.history.setWidth 32) a.frame.checksum = (⟨m + 2, {m, m + 1}⟩, false) := by
    rw [hnonces, hframe]
    exact acknowledge_first baseId hxor
  have hid : a.frame.id = idAt baseId (m + 2) := by rw [hframe]
  obtain ⟨tx, -, hs', h'⟩ := h.receiveAck hs ha hlate (h.follows hid (by decide)) hreference
  have hreference' : Reference.acknowledge ⟨m + 2, {m, m + 1}⟩ baseId s.channel.nonces
      a'.frame.id (a'.frame.history.setWidth 32) a'.frame.checksum = (⟨m + 7, ∅⟩, true) := by
    rw [hnonces, hframe']
    exact acknowledge_second baseId m
  have hid' : a'.frame.id = idAt baseId (m + 2 + 5) := by rw [hframe']
  obtain ⟨tx', hok', -⟩ := h'.detect.acknowledge a'.frame.id (a'.frame.history.setWidth 32)
    a'.frame.checksum
  have hdrop : (Except.ok (tx', _) : Exec (SegmentTx × Bool)) = .ok (tx', true) :=
    congrArg (fun result : Reference × Bool => Except.ok (tx', result.2)) hreference'
  exact ⟨tx, tx', hs', h'.follows hid' le_rfl, hok'.trans hdrop⟩

variable (Late LateAck) in
/-- Over a whole lap no nonce is set, and then one is. -/
lemma exists_lap (hlate : Late 0) (hlateAck : LateAck 0) :
    ∃ k s sizes, 2 ^ 6 ≤ 2 ^ k ∧ Reachable (system .debug 0 64 16 Late LateAck) s ∧
      Detects .debug 0 16 k s sizes ⟨2 ^ 32, ∅⟩ ∧ s.channel.nonces = lapNonces (2 ^ 32) ∧
      Quiet 0 16 k s.rx (2 ^ 32) [] ∧
      ∀ r, 0 < r → r ≤ 2 ^ 32 → ∃ a ∈ s.acks, Reports 0 k (List.replicate (2 ^ 32) false) a r := by
  obtain ⟨tx₀, hnew⟩ : ∃ tx, SegmentTx.new 0 64 = .ok tx := ⟨_, rfl⟩
  have hinit : Initial 0 64 16 ⟨tx₀, SegmentRx.new 0 64 16, [], []⟩ := ⟨tx₀, hnew, rfl⟩
  obtain ⟨k, s, sizes, b, hs, hidle⟩ :=
    exists_idle .debug Late LateAck hlate hlateAck hinit (2 ^ 32)
  have hpow : 2 ^ 6 ≤ 2 ^ k :=
    Nat.pow_le_pow_right (by decide) hidle.inv.channel.tx.shape.six_le
  have hroom : s.segments.length + [false, true, false, false, false, false, false].length ≤
      2 ^ 32 + 2 ^ k := by
    rw [hidle.segments_length]
    exact Nat.add_le_add_left (le_trans (by decide) hpow) _
  obtain ⟨tx, more, sizes₁, hs₁, hdetects₁, hmore⟩ :=
    hidle.detects.sends hs [false, true, false, false, false, false, false] hroom
  refine ⟨k, _, sizes₁, hpow, hs₁, hdetects₁, ?_, hidle.quiet, ?_⟩
  · unfold lapNonces
    rw [← hidle.nonces_eq, ← hmore]
    exact List.map_append
  · rw [← hidle.nonces_eq]
    exact hidle.recorded

end Signals

/-- Two acks of the first segments arrive when the IDs of these are in use again. -/
theorem late_acks_signal : ¬ ∀ (bd : Build) (baseId size : U32) (slotSize : ℕ) (s : State) (a : Ack)
    (tx : SegmentTx) (drop : Bool),
    Reachable (system bd baseId size slotSize (fun _ => True) fun _ => True) s → a ∈ s.acks →
      Follows s.tx a.frame → handleAck bd s.tx a.frame = .ok (tx, drop) → drop = false := by
  intro hclaim
  obtain ⟨k, s, sizes, -, hs, hdetects, hnonces, -, hrecorded⟩ :=
    exists_lap (fun _ => True) (fun _ => True) trivial trivial
  obtain ⟨a, ha, hfirst⟩ := hrecorded 2 (by decide) (by decide)
  obtain ⟨a', ha', hsecond⟩ := hrecorded 7 (by decide) (by decide)
  have hhistory : a.frame.history = 3 := hfirst.history_eq (by decide)
  have hhistory' : a'.frame.history = 31 := hsecond.history_eq (by decide)
  have hframe : a.frame = ⟨idAt 0 (2 ^ 32 + 2), 3, false⟩ := by
    rw [idAt_lap, ← hfirst.ack.id_eq, ← hhistory, ← hfirst.checksum_eq_false]
  have hframe' : a'.frame = ⟨idAt 0 (2 ^ 32 + 7), 31, false⟩ := by
    rw [idAt_lap, ← hsecond.ack.id_eq, ← hhistory', ← hsecond.checksum_eq_false]
  have hxor : xorAll (selectedNonces (lapNonces (2 ^ 32)) ((3 : U8).setWidth 32) (2 ^ 32 + 2)) =
      true := by
    rw [xorAll_lapNonces _ _ (show _ = [0, 1] by decide)]
    decide
  obtain ⟨tx, tx', hs', hfollows, hok⟩ :=
    hdetects.signals hnonces hs ha trivial hframe hxor hframe'
  have hfalse := hclaim .debug 0 64 16 _ a' tx' true hs' ha' hfollows hok
  cases hfalse

section LateSegment
variable {bd : Build} {baseId size : U32} {slotSize k m : ℕ} {Late LateAck : ℕ → Prop} {s : State}
  {sizes : List ℕ} {r : Reference}

lemma Detects.frame (h : Detects bd baseId slotSize k s sizes r)
    (hnonces : s.channel.nonces = lapNonces m) {i : ℕ} (hi : i < m + 7) :
    ∃ frame, s.segments[i]? = some frame ∧ frame.id = idAt baseId i ∧
      frame.data.length ≤ slotSize ∧ frame.nonce = decide (i = m + 1) := by
  have hlen : i < s.segments.length := by
    rw [← nonces_length, hnonces, lapNonces_length]
    exact hi
  have hget := List.getElem?_eq_getElem hlen
  obtain ⟨hid, hfit⟩ := h.ids i _ hget
  refine ⟨_, hget, hid, hfit, ?_⟩
  rw [← lapNonces_getD, ← hnonces]
  change _ = (s.segments.map (·.nonce)).getD i false
  rw [List.getD_eq_getElem?_getD, List.getElem?_map, hget]
  rfl

/-- A segment of the lap before takes the place of the second one, and the first one fills the
gap before it. -/
lemma Quiet.stale (h : Quiet baseId slotSize k s.rx m [])
    (hdetects : Detects bd baseId slotSize k s sizes r)
    (hnonces : s.channel.nonces = lapNonces m) (hlate : ∀ age, Late age)
    (hs : Reachable (system bd baseId size slotSize Late LateAck) s) (hm : 0 < m)
    (hlap : idAt baseId 1 = idAt baseId (m + 1)) (hroom : 2 ≤ 2 ^ k) :
    ∃ rx, Reachable (system bd baseId size slotSize Late LateAck) { s with rx := rx } ∧
      Quiet baseId slotSize k rx (m + 2) [] := by
  obtain ⟨frame, hget, hid, hfit, hnonce⟩ := hdetects.frame hnonces (show 1 < m + 7 by omega)
  obtain ⟨frame₁, hget₁, hid₁, hfit₁, -⟩ :=
    hdetects.frame hnonces (show m + 1 < m + 7 by omega)
  obtain ⟨frame₀, hget₀, hid₀, hfit₀, hnonce₀⟩ :=
    hdetects.frame hnonces (show m < m + 7 by omega)
  rw [hlap] at hid
  rw [decide_eq_false (by omega)] at hnonce hnonce₀
  let x : ℕ × Segment := (m + 1, ⟨frame.nonce, frame.data⟩)
  let y : ℕ × Segment := (m + 1, ⟨frame₁.nonce, frame₁.data⟩)
  let z : ℕ × Segment := (m, ⟨frame₀.nonce, frame₀.data⟩)
  have hx : x.2.nonce = false := hnonce
  have hz : z.2.nonce = false := hnonce₀
  -- the segment that has this ID now finds its place taken
  have htaken : place y [x] = [x] := place_of_eq rfl
  have hfront : place z [x] = [z, x] := place_of_lt (Nat.lt_succ_self m)
  have hkept : settle 2 m [x] = ([], m, [x]) := settle_keep (Nat.succ_ne_self m) Nat.two_pos
  have hlast : settle 2 (m + 1) [x] = ([x], m + 2, []) := settle_release (.inl rfl)
  have hfilled : settle 2 m (place z [x]) = ([z, x], m + 2, []) := by
    rw [hfront, settle_release (.inl (show z.1 = m from rfl))]
    change (z :: (settle 2 (m + 1) [x]).1, (settle 2 (m + 1) [x]).2) = _
    rw [hlast]
  obtain ⟨rx₁, hs₁, hquiet₁⟩ := h.receive hs hget (hlate _) hid hfit (by omega) hkept rfl
    (List.forall_mem_singleton.mpr hx)
  have hkept₁ : settle 2 m (place y [x]) = ([], m, [x]) := by rw [htaken, hkept]
  have hsilent₁ : ∀ v ∈ place y [x], v.2.nonce = false := by
    rw [htaken]
    exact List.forall_mem_singleton.mpr hx
  obtain ⟨rx₂, hs₂, hquiet₂⟩ := Quiet.receive hquiet₁ hs₁ hget₁ (hlate _) hid₁ hfit₁ (by omega)
    hkept₁ rfl hsilent₁
  have hsilent₂ : ∀ v ∈ place z [x], v.2.nonce = false := by
    rw [hfront]
    exact List.forall_mem_cons.mpr ⟨hz, List.forall_mem_singleton.mpr hx⟩
  exact Quiet.receive hquiet₂ hs₂ hget₀ (hlate _) hid₀ hfit₀ (by omega) hfilled rfl hsilent₂

/-- The segments after the second one arrive in order. -/
lemma Quiet.receives (h : Quiet baseId slotSize k s.rx (m + 2) [])
    (hdetects : Detects bd baseId slotSize k s sizes r)
    (hnonces : s.channel.nonces = lapNonces m) (hlate : ∀ age, Late age)
    (hs : Reachable (system bd baseId size slotSize Late LateAck) s) {n : ℕ} (hn : n ≤ 5) :
    ∃ rx, Reachable (system bd baseId size slotSize Late LateAck) { s with rx := rx } ∧
      Quiet baseId slotSize k rx (m + 2 + n) [] := by
  induction n with
  | zero => exact ⟨s.rx, hs, h⟩
  | succ n ih =>
    obtain ⟨rx, hs', h'⟩ := ih (by omega)
    obtain ⟨frame, hget, hid, hfit, hnonce⟩ := hdetects.frame hnonces
      (show m + 2 + n < m + 7 by omega)
    rw [decide_eq_false (by omega)] at hnonce
    refine Quiet.receive h' hs' hget (hlate _) hid hfit
      ⟨le_rfl, Nat.lt_add_of_pos_right (Nat.two_pow_pos k)⟩ (settle_release (.inl rfl)) rfl ?_
    intro x hx
    rw [List.mem_singleton.mp hx]
    exact hnonce

end LateSegment

/-- The second segment of the lap before is taken for the one whose ID it has. -/
theorem late_segment_signals : ¬ ∀ (bd : Build) (baseId size : U32) (slotSize : ℕ) (s : State)
    (a : Ack) (tx : SegmentTx) (drop : Bool),
    Reachable (system bd baseId size slotSize (fun _ => True) (Timely size)) s → a ∈ s.acks →
      Timely size (s.segments.length - a.sent) → Follows s.tx a.frame →
        handleAck bd s.tx a.frame = .ok (tx, drop) → drop = false := by
  intro hclaim
  have htimely : Timely 64 0 := by unfold Timely; decide
  obtain ⟨k, s, sizes, hpow, hs, hdetects, hnonces, hquiet, -⟩ :=
    exists_lap (fun _ => True) (Timely 64) trivial htimely
  have hlap : idAt 0 1 = idAt 0 (2 ^ 32 + 1) := (idAt_lap 0 1).symm
  obtain ⟨rx₁, hs₁, hquiet₁⟩ := hquiet.stale hdetects hnonces (fun _ => trivial) hs (by decide)
    hlap (by omega)
  let a : Ack := ⟨ackOf rx₁, s.segments.length⟩
  let s₂ : State := { s with rx := rx₁, acks := s.acks ++ [a] }
  have hs₂ : Reachable (system .debug 0 64 16 (fun _ => True) (Timely 64)) s₂ :=
    hs₁.step .sendAck
  have hdetects₂ : Detects .debug 0 16 k s₂ sizes ⟨2 ^ 32, ∅⟩ := ⟨hdetects.detect, hdetects.ids⟩
  obtain ⟨rx₃, hs₃, hquiet₃⟩ :=
    Quiet.receives (s := s₂) hquiet₁ hdetects₂ hnonces (fun _ => trivial) hs₂ (le_refl 5)
  let a' : Ack := ⟨ackOf rx₃, s.segments.length⟩
  let s₄ : State := { s₂ with rx := rx₃, acks := s₂.acks ++ [a'] }
  have hs₄ : Reachable (system .debug 0 64 16 (fun _ => True) (Timely 64)) s₄ :=
    hs₃.step .sendAck
  have hdetects₄ : Detects .debug 0 16 k s₄ sizes ⟨2 ^ 32, ∅⟩ := ⟨hdetects.detect, hdetects.ids⟩
  have hnow : Timely 64 (s₄.segments.length - s.segments.length) := by
    rw [Nat.sub_self]
    exact htimely
  have ha : a ∈ s₄.acks := List.mem_append_left _ (List.mem_append_right _ List.mem_cons_self)
  have ha' : a' ∈ s₄.acks := List.mem_append_right _ List.mem_cons_self
  have hxor : xorAll (selectedNonces (lapNonces (2 ^ 32)) ((31 : U8).setWidth 32) (2 ^ 32 + 2)) =
      true := by
    rw [xorAll_lapNonces _ _ (show _ = [0, 1, 2, 3, 4] by decide)]
    decide
  have hfirst : a.frame = ⟨idAt 0 (2 ^ 32 + 2), 31, false⟩ := hquiet₁.ackOf_eq (by omega)
  have hsecond : a'.frame = ⟨idAt 0 (2 ^ 32 + 7), 31, false⟩ := hquiet₃.ackOf_eq (by omega)
  obtain ⟨tx, tx', hs', hfollows, hok⟩ :=
    hdetects₄.signals hnonces hs₄ ha hnow hfirst hxor hsecond
  have hfalse := hclaim .debug 0 64 16 _ a' tx' true hs' ha' hnow hfollows hok
  cases hfalse

end Redpine.CongestionSignal
