import Redpine.EndpointPair

/-! The resend timer of an endpoint and its reliable queue. The timer runs while segments are in
flight, so an ack of all segments stops it, even where fragments that were in them are lost. -/
namespace Redpine
open Machine Buffer Wire SerialId Transition

namespace Reliable.TxBuffer

/-- The base of the send window once an ack has been taken. -/
def ackedBase (b : TxBuffer) : Option U32 → U32
  | some id =>
      if id - b.sendWindow.baseId ≤ b.maxAckId - b.sendWindow.baseId then id
      else b.sendWindow.baseId
  | none => b.sendWindow.baseId

/-- The ack is the third duplicate, after which everything is sent again. -/
def RestartsOn (b : TxBuffer) (relFragmentId : Option U32) : Prop :=
  relFragmentId = some b.sendWindow.baseId ∧ b.duplicateAckCount = 2

/-- Some fragments that were sent are not acknowledged. -/
def Outstanding (b : TxBuffer) : Prop := b.sendWindow.baseId ≠ b.maxAckId

section Positions
variable {bd : Build} {b b' : TxBuffer} {base0 : U32} {all : List FragmentRc}
  {discarded cursor sent : ℕ}

lemma At.outstanding_iff (h : b.At base0 all discarded cursor sent) :
    b.Outstanding ↔ discarded ≠ sent := by
  have hwindow := h.window_lt
  have hcursor := h.cursor_le
  have hdiscarded := h.discarded_le
  unfold Outstanding
  rw [h.baseId_eq, h.maxAckId_eq, Ne, idAt_inj base0 (by omega) (by omega)]

lemma At.peekSendable_isSome (h : b.At base0 all discarded cursor sent) :
    b.peekSendable.isSome = true ↔
      cursor < discarded + b.sendWindow.size.toNat ∧ cursor < all.length := by
  rw [h.peekSendable_eq]
  by_cases hlt : cursor < discarded + b.sendWindow.size.toNat
  · rw [if_pos hlt]
    simp [hlt]
  · rw [if_neg hlt]
    simp [hlt]

/-- An ack moves the base as far as it says, and the cursor stays at the end of what was sent
unless the ack is the third duplicate. -/
structure Acked (b b' : TxBuffer) (base0 : U32) (all : List FragmentRc)
    (relFragmentId : Option U32) (cursor sent discarded' cursor' : ℕ) : Prop where
  at' : b'.At base0 all discarded' cursor' sent
  base_eq : b'.sendWindow.baseId = b.ackedBase relFragmentId
  size_eq : b'.sendWindow.size = b.sendWindow.size
  cursor_iff : discarded' ≠ sent →
    (cursor' = sent ↔ cursor = sent ∧ ¬ b.RestartsOn relFragmentId)

lemma At.acked_none (h : b.At base0 all discarded cursor sent) :
    Acked b b base0 all none cursor sent discarded cursor :=
  ⟨h, rfl, rfl, fun _ => by simp [RestartsOn]⟩

lemma At.acked (h : b.At base0 all discarded cursor sent) {id : U32} {ok : Bool}
    (hack : b.acknowledge bd id = .ok (b', ok)) :
    ∃ discarded' cursor', Acked b b' base0 all (some id) cursor sent discarded' cursor' := by
  have hcursor := h.cursor_le
  have hdiscarded := h.discarded_le
  rcases h.ack_cases id with rfl | ⟨n, hpos, hn, rfl⟩ | hgt
  · obtain ⟨tx, hok, hwindow, hat⟩ := h.acknowledge_duplicate bd
    rw [hack] at hok
    cases hok
    have hbase : b.ackedBase (some b.sendWindow.baseId) = b.sendWindow.baseId := by
      simp [ackedBase]
    refine ⟨_, _, hat, by rw [hbase, hwindow], by rw [hwindow], fun hne => ?_⟩
    unfold RestartsOn
    by_cases hcount : b.duplicateAckCount = 2
    · rw [if_pos hcount]
      simp [hcount, hne]
    · rw [if_neg hcount]
      simp [hcount]
  · obtain ⟨tx, hok, hsize, hat⟩ := h.acknowledge_advance bd hpos hn
    rw [hack] at hok
    cases hok
    have hsub := h.sub_base_toNat hn
    have hbase : b.ackedBase (some (idAt base0 (discarded + n))) = idAt base0 (discarded + n) := by
      refine if_pos ?_
      rw [BitVec.le_def, hsub, h.maxAck_sub]
      exact hn
    have hrestart : ¬ b.RestartsOn (some (idAt base0 (discarded + n))) := by
      rintro ⟨hid, -⟩
      rw [Option.some.injEq] at hid
      rw [hid, BitVec.sub_self] at hsub
      simp at hsub
      omega
    refine ⟨_, _, hat, by rw [hbase, hat.baseId_eq], hsize, fun hne => ?_⟩
    constructor
    · exact fun hmax => ⟨by omega, hrestart⟩
    · exact fun hboth => by have := hboth.1; omega
  · rw [h.acknowledge_invalid hgt] at hack
    cases hack
    have hbase : b.ackedBase (some id) = b.sendWindow.baseId := by
      refine if_neg ?_
      rw [BitVec.le_def, h.maxAck_sub]
      omega
    have hrestart : ¬ b.RestartsOn (some id) := by
      rintro ⟨hid, -⟩
      rw [Option.some.injEq] at hid
      rw [hid, BitVec.sub_self] at hgt
      simp at hgt
    exact ⟨_, _, h, hbase.symm, rfl, fun _ => by simp [hrestart]⟩

/-- After an ack that leaves fragments outstanding there is nothing to send exactly if the cursor
stays behind the last fragment sent, and no further one is there or fits into the window. -/
lemma Acked.peekSendable_iff {relFragmentId : Option U32} {discarded' cursor' : ℕ}
    (h : Acked b b' base0 all relFragmentId cursor sent discarded' cursor')
    (hb : b.At base0 all discarded cursor sent) (hne : discarded' ≠ sent) :
    b'.peekSendable.isSome = false ↔
      b.nextSendId = b.maxAckId ∧ ¬ b.RestartsOn relFragmentId ∧
        (b.fragments.length = (b.maxAckId - b.sendWindow.baseId).toNat ∨
          b.sendWindow.size ≤ b.maxAckId - b.ackedBase relFragmentId) := by
  have hcursor := h.cursor_iff hne
  have hat := h.at'
  have hle := hat.cursor_le
  have hle' := hat.discarded_le
  have hwindow := hat.sent_window
  have hsent := hat.sent_le
  have hdiscarded := hb.discarded_le
  have hmax : b'.maxAckId = b.maxAckId := hat.maxAckId_eq.trans hb.maxAckId_eq.symm
  have hsub := hat.maxAck_sub
  rw [hmax, h.base_eq] at hsub
  have hsize := h.size_eq
  rw [hsize] at hwindow
  rw [← Bool.not_eq_true, hat.peekSendable_isSome, hsize, hb.nextSendId_eq_maxAckId_iff,
    hb.maxAck_sub, hb.fragments_eq, List.length_drop, BitVec.le_def, hsub, ← and_assoc, ← hcursor]
  have hcursor' := hb.cursor_le
  omega

end Positions

end Reliable.TxBuffer

namespace Endpoint

/-- The input is a frame of a stream that starts with the ack. -/
def HasAck (bd : Build) (input : Input) (ack : StreamAck) : Prop :=
  ∃ frameType payloadBytes readData r, input = .frame frameType payloadBytes ∧
    streamParts frameType = .ok (true, readData) ∧
    (PayloadReader.new payloadBytes).read StreamAck bd = .ok (some ack, r)

/-- The ack stops the resend timer although fragments remain outstanding, and there is nothing to
send that would start it again. -/
structure Stalls (e : Endpoint) (ack : StreamAck) (nowMs : ℕ) : Prop where
  caughtUp : ack.segmentId = e.segmentTx.nextId
  remains : e.fragmentTx.rel.ackedBase ack.relFragmentId ≠ e.fragmentTx.rel.maxAckId
  cursor : e.fragmentTx.rel.nextSendId = e.fragmentTx.rel.maxAckId
  restart : ¬ e.fragmentTx.rel.RestartsOn ack.relFragmentId
  noMore : e.fragmentTx.rel.fragments.length =
      (e.fragmentTx.rel.maxAckId - e.fragmentTx.rel.sendWindow.baseId).toNat ∨
    e.fragmentTx.rel.sendWindow.size ≤
      e.fragmentTx.rel.maxAckId - e.fragmentTx.rel.ackedBase ack.relFragmentId
  expired : ∀ entry ∈ e.fragmentTx.unrel.fragments, entry.expireTimeMs ≤ nowMs

/-- An active endpoint with outstanding fragments has set its resend timer. -/
def Guarded (e : Endpoint) : Prop :=
  e.stateId = .active → e.fragmentTx.rel.Outstanding → e.rtoTimerState.isSome = true

section Flush
variable {bd : Build} {e e' : Endpoint} {nowMs : ℕ} {sendAck ackRel : Bool}
  {calls : List HostCall}

lemma SegmentStep.armed {nonce : Bool} {datagrams : List Datagram}
    (h : SegmentStep bd nonce nowMs e datagrams e' calls) : e'.rtoTimerState.isSome = true := by
  have htimer := h.timer
  generalize e.rtoTimerState = before at htimer
  generalize e'.rtoTimerState = after at htimer
  cases htimer <;> rfl

/-- A timer that runs keeps running. -/
lemma FlushRun.armed (h : FlushRun bd ackRel nowMs sendAck e calls e')
    (harmed : e.rtoTimerState.isSome = true) : e'.rtoTimerState.isSome = true := by
  induction h with
  | stop hdata => exact harmed
  | ack hdata rest ih => exact ih harmed
  | segment hdata hstep rest ih => exact ih hstep.armed

lemma sendData_expire (e : Endpoint) (nowMs : ℕ) :
    (e.expire nowMs).sendData nowMs = e.sendData nowMs := by
  have hidem := popExpired_idem e.fragmentTx nowMs
  unfold sendData FragmentTxBuffers.dataReady
  dsimp only [expire, FragmentTxBuffers.dataReady]
  rw [hidem]
  rfl

/-- Nothing is sent, and the reliable queue is left alone. -/
lemma FlushRun.idle (h : FlushRun bd ackRel nowMs sendAck e calls e')
    (hdata : e.sendData nowMs = false) :
    e'.rtoTimerState = e.rtoTimerState ∧ e'.fragmentTx.rel = e.fragmentTx.rel := by
  induction h with
  | stop _ => exact ⟨rfl, rfl⟩
  | ack _ rest ih => exact ih (by rw [sendData_expire, hdata])
  | segment hdata' hstep rest ih => cases hdata.symm.trans hdata'

/-- A segment is sent, which sets the timer. -/
lemma FlushRun.starts (h : FlushRun bd ackRel nowMs sendAck e calls e')
    (hdata : e.sendData nowMs = true) : e'.rtoTimerState.isSome = true := by
  cases h with
  | stop hdata' => cases hdata.symm.trans hdata'
  | ack hdata' rest => cases hdata.symm.trans hdata'
  | segment hdata' hstep rest => exact rest.armed hstep.armed

lemma FlushRun.guarded (h : FlushRun bd ackRel nowMs sendAck e calls e') (hguarded : e.Guarded) :
    e'.Guarded := by
  cases hdata : e.sendData nowMs with
  | true => exact fun _ _ => h.starts hdata
  | false =>
    obtain ⟨htimer, hrel⟩ := h.idle hdata
    unfold Guarded
    rw [htimer, hrel, h.sendOnly.stateId_eq]
    exact hguarded

end Flush

section Acks
variable {bd : Build} {e e' : Endpoint} {nowMs : ℕ} {v : SenderView} {ack : StreamAck}
  {calls : List HostCall}

/-- What an ack does to the reliable queue. -/
lemma AckStep.acked (h : AckStep bd nowMs e ack e' calls) (hsender : e.Sender bd False nowMs v) :
    e'.fragmentTx.unrel = e.fragmentTx.unrel ∧ ∃ discarded' cursor',
      Reliable.TxBuffer.Acked e.fragmentTx.rel e'.fragmentTx.rel 0 v.all ack.relFragmentId
        v.cursor v.sent discarded' cursor' := by
  have hat := hsender.queues.rel
  have hack := h.fragmentTx
  generalize e'.fragmentTx = b' at hack ⊢
  unfold FragmentTxBuffers.acknowledge at hack
  cases hid : ack.relFragmentId with
  | none =>
    rw [hid] at hack
    cases hack
    exact ⟨rfl, _, _, hat.acked_none⟩
  | some id =>
    rw [hid] at hack
    obtain ⟨⟨rel, ok⟩, hrel, hack⟩ := bind_eq_ok.mp hack
    cases hack
    exact ⟨rfl, hat.acked hrel⟩

/-- Once all segments are acknowledged, a flush sends data if it finds any. -/
lemma sendData_of_caughtUp (h : e.Sender bd False nowMs v) (hall : v.acked = v.sizes.length) :
    e.sendData nowMs = (e.fragmentTx.popExpired nowMs).sendable := by
  have hcan : e.segmentTx.canSend = true := by
    rw [h.window.canSend_iff, hall]
    exact Nat.lt_add_of_pos_right (Nat.two_pow_pos 12)
  have htransit : e.segmentTx.bytesInTransit < e.ccState.cwnd := by
    have htotal := h.window.total.1
    rw [hall, List.drop_length, List.sum_nil, Nat.zero_mod] at htotal
    rw [SegmentTx.bytesInTransit, htotal]
    exact h.cc.cwnd_pos
  rw [Bool.eq_iff_iff, sendData_iff]
  exact ⟨fun hdata => hdata.2.2, fun hsendable => ⟨hcan, htransit, hsendable⟩⟩

lemma sendable_eq_false {b : FragmentTxBuffers} : (b.popExpired nowMs).sendable = false ↔
    (∀ entry ∈ b.unrel.fragments, entry.expireTimeMs ≤ nowMs) ∧
      b.rel.peekSendable.isSome = false := by
  have hunrel : (b.popExpired nowMs).unrel.peekSendable.isSome = false ↔
      ∀ entry ∈ b.unrel.fragments, entry.expireTimeMs ≤ nowMs := by
    have hnil : (b.popExpired nowMs).unrel.fragments = [] ↔
        ∀ entry ∈ b.unrel.fragments, entry.expireTimeMs ≤ nowMs := by
      simp [FragmentTxBuffers.popExpired, Unreliable.TxBuffer.popExpired,
        List.dropWhile_eq_nil_iff]
    rw [← hnil]
    unfold Unreliable.TxBuffer.peekSendable
    cases (b.popExpired nowMs).unrel.fragments <;> simp
  unfold FragmentTxBuffers.sendable
  rw [Bool.or_eq_false_iff, hunrel]
  rfl

/-- An ack of all segments leaves the timer set exactly if it does not stall the endpoint. -/
lemma AckStep.caughtUp (h : AckStep bd nowMs e ack e' calls) (hsender : e.Sender bd False nowMs v)
    (hid : ack.segmentId = e.segmentTx.nextId) :
    Stalls e ack nowMs ↔ e'.fragmentTx.rel.Outstanding ∧ e'.sendData nowMs = false := by
  obtain ⟨hunrel, discarded', cursor', hacked⟩ := h.acked hsender
  obtain ⟨acked, discarded, cursor, -, hall, -, hsender'⟩ := h.sender hsender
  have hmax : e'.fragmentTx.rel.maxAckId = e.fragmentTx.rel.maxAckId :=
    hacked.at'.maxAckId_eq.trans hsender.queues.rel.maxAckId_eq.symm
  have hout : e'.fragmentTx.rel.Outstanding ↔
      e.fragmentTx.rel.ackedBase ack.relFragmentId ≠ e.fragmentTx.rel.maxAckId := by
    unfold Reliable.TxBuffer.Outstanding
    rw [hacked.base_eq, hmax]
  rw [sendData_of_caughtUp hsender' (hall hid), sendable_eq_false, hunrel, hout]
  constructor
  · intro hs
    have hne := hacked.at'.outstanding_iff.mp (hout.mpr hs.remains)
    exact ⟨hs.remains, hs.expired,
      (hacked.peekSendable_iff hsender.queues.rel hne).mpr ⟨hs.cursor, hs.restart, hs.noMore⟩⟩
  · rintro ⟨hremains, hexpired, hpeek⟩
    have hne := hacked.at'.outstanding_iff.mp (hout.mpr hremains)
    obtain ⟨hcursor, hrestart, hmore⟩ :=
      (hacked.peekSendable_iff hsender.queues.rel hne).mp hpeek
    exact ⟨hid, hremains, hcursor, hrestart, hmore, hexpired⟩

/-- An ack of nothing outstanding leaves nothing outstanding. -/
lemma AckStep.not_outstanding (h : AckStep bd nowMs e ack e' calls)
    (hsender : e.Sender bd False nowMs v) (hout : ¬ e.fragmentTx.rel.Outstanding) :
    ¬ e'.fragmentTx.rel.Outstanding ∧
      e.fragmentTx.rel.ackedBase ack.relFragmentId = e.fragmentTx.rel.maxAckId := by
  obtain ⟨-, discarded', cursor', hacked⟩ := h.acked hsender
  have hat := hsender.queues.rel
  have hmax : e'.fragmentTx.rel.maxAckId = e.fragmentTx.rel.maxAckId :=
    hacked.at'.maxAckId_eq.trans hat.maxAckId_eq.symm
  have hbase : e.fragmentTx.rel.sendWindow.baseId = e.fragmentTx.rel.maxAckId := not_not.mp hout
  have hsame : e.fragmentTx.rel.ackedBase ack.relFragmentId = e.fragmentTx.rel.maxAckId := by
    cases hid : ack.relFragmentId with
    | none => exact hbase
    | some id =>
      unfold Reliable.TxBuffer.ackedBase
      dsimp only
      split_ifs with hle
      · rw [hbase, BitVec.sub_self, BitVec.le_zero_iff] at hle
        exact sub_eq_zero.mp hle
      · exact hbase
  refine ⟨fun hout' => hout' ?_, hsame⟩
  rw [hacked.base_eq, hmax, hsame]

/-- The endpoint after an ack, a segment and a flush. -/
lemma AckStep.guarded_iff {e₁ e₂ : Endpoint} {sendAck ackRel : Bool} {flushCalls : List HostCall}
    (h : AckStep bd nowMs e ack e₁ calls) (hsender : e.Sender bd False nowMs v)
    (hactive : e.stateId = .active) (hguarded : e.Guarded)
    (hsame : e₂.segmentTx = e₁.segmentTx ∧ e₂.fragmentTx = e₁.fragmentTx ∧
      e₂.ccState = e₁.ccState ∧ e₂.rtoTimerState = e₁.rtoTimerState ∧ e₂.stateId = e₁.stateId)
    (hflush : FlushRun bd ackRel nowMs sendAck e₂ flushCalls e') :
    e'.Guarded ↔ ¬ Stalls e ack nowMs := by
  obtain ⟨hsegment, hfragment, hcc, htimer, hstate⟩ := hsame
  have hdata : e₂.sendData nowMs = e₁.sendData nowMs := by
    unfold sendData
    rw [hsegment, hfragment, hcc]
  obtain ⟨acked, discarded, cursor, -, -, -, hsender'⟩ := h.sender hsender
  have hnext : e₁.segmentTx.nextId = e.segmentTx.nextId :=
    hsender'.window.nextId_eq.trans hsender.window.nextId_eq.symm
  have hackTimer := h.timer
  rw [hnext] at hackTimer
  generalize hbefore : e.rtoTimerState = before at hackTimer
  generalize hafter : e₁.rtoTimerState = after at hackTimer
  cases hackTimer with
  | idle =>
    have hout : ¬ e.fragmentTx.rel.Outstanding := by
      intro hout
      have hsome := hguarded hactive hout
      rw [hbefore] at hsome
      cases hsome
    obtain ⟨hout', hbase⟩ := h.not_outstanding hsender hout
    have hguarded₂ : e₂.Guarded := by
      intro _ hout₂
      rw [hfragment] at hout₂
      exact absurd hout₂ hout'
    exact iff_of_true (hflush.guarded hguarded₂) fun hs => hs.remains hbase
  | expecting timer hid htime =>
    have hsome : e₂.rtoTimerState.isSome = true := by
      rw [htimer, hafter]
      rfl
    exact iff_of_true (fun _ _ => hflush.armed hsome) fun hs => hid hs.caughtUp
  | caughtUp timer hid =>
    rw [h.caughtUp hsender hid, ← hdata]
    cases hsend : e₂.sendData nowMs with
    | true => exact iff_of_true (fun _ _ => hflush.starts hsend) (by simp)
    | false =>
      obtain ⟨htimer', hrel⟩ := hflush.idle hsend
      have hstate' : e'.stateId = .active :=
        (hflush.sendOnly.stateId_eq.trans hstate).trans (h.frame.stateId_eq.trans hactive)
      unfold Guarded
      rw [htimer', hrel, htimer, hafter, hfragment]
      simp [hstate']

end Acks

section Effects
variable {bd : Build} {e e' : Endpoint} {nowMs : ℕ} {v : SenderView} {input : Input}
  {calls : List HostCall}

lemma HasAck.parts {frameType : FrameType} {payloadBytes : Bytes} {ack : StreamAck}
    (h : HasAck bd (.frame frameType payloadBytes) ack) :
    ∃ readData r, streamParts frameType = .ok (true, readData) ∧
      (PayloadReader.new payloadBytes).read StreamAck bd = .ok (some ack, r) := by
  obtain ⟨frameType', payloadBytes', readData, r, hinput, hparts, hread⟩ := h
  cases hinput
  exact ⟨readData, r, hparts, hread⟩

lemma DataPart.sendingHalf {r : PayloadReader} {d : Delivery} (h : DataPart bd e r (e', d)) :
    e'.segmentTx = e.segmentTx ∧ e'.fragmentTx = e.fragmentTx ∧ e'.ccState = e.ccState ∧
      e'.rtoTimerState = e.rtoTimerState ∧ e'.stateId = e.stateId := by
  cases h with
  | absent => exact ⟨rfl, rfl, rfl, rfl, rfl⟩
  | segment hread hbytes hreceive hdelivery => exact ⟨rfl, rfl, rfl, rfl, rfl⟩

lemma DataPart.guarded {r : PayloadReader} {d : Delivery} (h : DataPart bd e r (e', d))
    (hguarded : e.Guarded) : e'.Guarded := by
  obtain ⟨-, hfragment, -, htimer, hstate⟩ := h.sendingHalf
  unfold Guarded
  rw [hfragment, htimer, hstate]
  exact hguarded

/-- A frame of a stream. -/
lemma StreamRun.guarded_iff {frameType : FrameType} {payloadBytes : Bytes}
    (h : StreamRun bd nowMs e frameType payloadBytes calls e')
    (hsender : e.Sender bd False nowMs v) (hactive : e.stateId = .active)
    (hguarded : e.Guarded) :
    e'.Guarded ↔ ∀ ack, HasAck bd (.frame frameType payloadBytes) ack → ¬ Stalls e ack nowMs := by
  cases h with
  | truncated hparts hack =>
    cases hack with
    | unreadable hread =>
      refine iff_of_true hguarded fun ack hhas => ?_
      obtain ⟨readData', r, -, hread'⟩ := hhas.parts
      cases hread.symm.trans hread'
  | run hparts hack hdata hflush =>
    cases hack with
    | absent =>
      refine iff_of_true (hflush.guarded (hdata.guarded hguarded)) fun ack hhas => ?_
      obtain ⟨readData', r, hparts', -⟩ := hhas.parts
      cases hparts.symm.trans hparts'
    | @ack ack r e₁ ackCalls hread hstep =>
      rw [hstep.guarded_iff hsender hactive hguarded hdata.sendingHalf hflush]
      constructor
      · intro hs ack' hhas
        obtain ⟨readData', r', -, hread'⟩ := hhas.parts
        cases hread.symm.trans hread'
        exact hs
      · exact fun hs => hs ack ⟨frameType, payloadBytes, _, _, rfl, hparts, hread⟩

lemma SyncRun.guarded {payloadBytes : Bytes} (h : SyncRun bd nowMs e payloadBytes calls e')
    (hguarded : e.Guarded) : e'.Guarded := by
  cases h with
  | truncated => exact hguarded
  | run hread hsync hdelivery hflush => exact hflush.guarded hguarded

lemma enqueue_outstanding {b b' : FragmentTxBuffers} {packetBytes : Bytes} {mode : SendMode}
    (h : b.enqueue bd packetBytes mode nowMs = .ok b') :
    b'.rel.Outstanding ↔ b.rel.Outstanding := by
  cases mode with
  | reliable =>
    cases h
    exact Iff.rfl
  | unreliable timeoutMs =>
    obtain ⟨sum, -, h⟩ := bind_eq_ok.mp h
    obtain ⟨expireTimeMs, -, h⟩ := bind_eq_ok.mp h
    cases h
    exact Iff.rfl

/-- An active endpoint keeps its timer set for outstanding fragments exactly if the call does not
handle an ack that stalls it. -/
theorem Effect.guarded_iff (h : Effect bd nowMs e input calls e')
    (hsender : e.Sender bd False nowMs v) (hguarded : e.Guarded) (hinit : input ≠ .init) :
    e'.Guarded ↔ ∀ ack, HasAck bd input ack → e.stateId = .active → ¬ Stalls e ack nowMs := by
  have hother (hkept : e'.Guarded)
      (hnot : e.stateId = .active → ∀ frameType payloadBytes,
        input = .frame frameType payloadBytes → ∀ parts, streamParts frameType ≠ .ok parts) :
      e'.Guarded ↔ ∀ ack, HasAck bd input ack → e.stateId = .active → ¬ Stalls e ack nowMs := by
    refine iff_of_true hkept fun ack hhas hactive => ?_
    obtain ⟨frameType, payloadBytes, readData, r, hinput, hparts, -⟩ := hhas
    exact absurd hparts (hnot hactive frameType payloadBytes hinput _)
  have hrest (hstate : e'.stateId ≠ .active) : e'.Guarded := fun hactive => absurd hactive hstate
  cases h with
  | init hs => exact absurd rfl hinit
  | enqueue hs hqueue =>
    refine hother (fun hactive hout => ?_) fun _ _ _ hinput => by cases hinput
    exact hguarded hactive ((enqueue_outstanding hqueue).mp hout)
  | enqueueIgnored hs => exact hother hguarded fun _ _ _ hinput => by cases hinput
  | flush hs hflush =>
    exact hother (hflush.guarded hguarded) fun _ _ _ hinput => by cases hinput
  | flushIgnored hs => exact hother hguarded fun _ _ _ hinput => by cases hinput
  | disconnect hs htime =>
    exact hother (hrest (by simp [enteredClosing])) fun _ _ _ hinput => by cases hinput
  | disconnectIgnored hs => exact hother hguarded fun _ _ _ hinput => by cases hinput
  | stream hs hrun =>
    rw [hrun.guarded_iff hsender hs hguarded]
    exact forall₂_congr fun ack hhas => by simp [hs]
  | sync hs hrun =>
    refine hother (hrun.guarded hguarded) fun _ _ _ hinput _ hparts => ?_
    cases hinput
    cases hparts
  | close hs hvalid htime =>
    refine hother (hrest (by simp [enteredClosed])) fun _ _ _ hinput _ hparts => ?_
    cases hinput
    cases hparts
  | closeAck hs hvalid htime =>
    refine hother (hrest (by simp [enteredClosed])) fun _ _ _ hinput _ hparts => ?_
    cases hinput
    cases hparts
  | closeAgain hs hvalid =>
    refine hother hguarded fun _ _ _ hinput _ hparts => ?_
    cases hinput
    cases hparts
  | frameIgnored hs =>
    refine hother hguarded fun hactive _ _ hinput => ?_
    cases hinput
    exact hs hactive
  | timeout hs htimer hsum htimeout =>
    exact hother (hrest (by simp [enteredZombie])) fun _ _ _ hinput => by cases hinput
  | resend hs htimer hback hcc hflush =>
    exact hother (fun _ _ => hflush.armed rfl) fun _ _ _ hinput => by cases hinput
  | resendClose hs htimer hback =>
    exact hother (fun _ _ => rfl) fun _ _ _ hinput => by cases hinput
  | destroyed hs =>
    exact hother (hrest (by simp [enteredZombie])) fun _ _ _ hinput => by cases hinput
  | timerIgnored hs => exact hother hguarded fun _ _ _ hinput => by cases hinput

end Effects

end Endpoint

namespace EndpointPair
open Endpoint EndpointHost Transition

/-- While a party is active and has reliable fragments outstanding, its timer and that of its host
are set. -/
def ResendArmed (p : Party) : Prop :=
  p.endpoint.stateId = .active →
    p.endpoint.fragmentTx.rel.sendWindow.baseId ≠ p.endpoint.fragmentTx.rel.maxAckId →
      p.endpoint.rtoTimerState.isSome = true ∧ p.timer.isSome = true

/-- The action delivers a frame with an ack that stalls the active endpoint. -/
def StallsStep (bd : Build) (s : State) : Action → Prop
  | .deliver side frameBytes nowMs _ =>
      (s side).endpoint.stateId = .active ∧ ∃ frameType payloadBytes ack,
        readType bd frameBytes = .ok (some frameType) ∧
        payload bd frameBytes = .ok payloadBytes ∧
        HasAck bd (.frame frameType payloadBytes) ack ∧ Stalls (s side).endpoint ack nowMs
  | _ => False

section Stall
variable {bd : Build} {s s' : State} {a : Action} {side : Side}

lemma PartyInv.resendArmed_iff {p : Party} {v : SenderView} (h : PartyInv bd p v) :
    ResendArmed p ↔ p.endpoint.Guarded := by
  constructor
  · exact fun hs hactive hout => (hs hactive hout).1
  · intro hs hactive hout
    have hsome := hs hactive hout
    exact ⟨hsome, (h.timers.armed hactive).host.trans hsome⟩

lemma resendArmed_initial (h : Initial bd s) (side : Side) : ResendArmed (s side) := by
  obtain ⟨v, hparty⟩ := party_initial h side
  obtain ⟨config, e₀, e, calls, hconfig, hnew, hinit, hs⟩ := h side
  obtain ⟨_, -, hinit⟩ := bind_eq_ok.mp hinit
  cases hinit
  have hsender := new_sender bd False 0 hconfig hnew
  have hout := hsender.queues.rel.outstanding_iff.not.mpr (by simp)
  intro _ hne
  rw [hs] at hne
  exact absurd hne hout

/-- A call of a party. -/
lemma resendArmed_update (hs : ∀ x, ResendArmed (s x)) {timer : Option ℕ} {input : Input}
    {nowMs : ℕ} {e : Endpoint} {calls : List HostCall} {v v' : SenderView}
    (hparty : PartyInv bd (s side) v) (hinit : input ≠ .init)
    (heffect : Effect bd nowMs (s side).endpoint input calls e)
    (hparty' : PartyInv bd ((s side).after timer input e calls) v') :
    (∀ x, ResendArmed (Function.update s side ((s side).after timer input e calls) x)) ↔
      ∀ ack, HasAck bd input ack → (s side).endpoint.stateId = .active →
        ¬ Stalls (s side).endpoint ack nowMs := by
  have hguarded := hparty.resendArmed_iff.mp (hs side)
  have hsender : (s side).endpoint.Sender bd False nowMs v := hparty.sender.later False.elim
  rw [← heffect.guarded_iff hsender hguarded hinit]
  have hiff : ResendArmed ((s side).after timer input e calls) ↔ e.Guarded :=
    hparty'.resendArmed_iff
  rw [← hiff]
  constructor
  · intro h
    simpa using h side
  · intro h x
    by_cases hx : x = side
    · subst hx
      rwa [Function.update_self]
    · rw [Function.update_of_ne hx]
      exact hs x

lemma resendArmed_step (hreach : Reachable (system bd) s) (hs : ∀ x, ResendArmed (s x))
    (h : Step bd s a s') : (∀ x, ResendArmed (s' x)) ↔ ¬ StallsStep bd s a := by
  have hnone {input : Input}
      (hinput : ∀ frameType payloadBytes, input ≠ .frame frameType payloadBytes)
      (ack : StreamAck) : ¬ HasAck bd input ack := by
    rintro ⟨frameType, payloadBytes, _, _, heq, -⟩
    exact hinput frameType payloadBytes heq
  cases h with
  | @call side input nowMs nonces e calls hinput hok =>
    obtain ⟨v, hparty⟩ := party_reachable hreach side
    obtain ⟨hallowed, hinit⟩ := hinput.allowed (s side).endpoint
    obtain ⟨heffect, v', hparty'⟩ := party_call hparty hallowed hok
    rw [resendArmed_update hs hparty hinit heffect hparty']
    exact iff_of_true (fun ack hhas => absurd hhas (hnone hinput.ne_frame ack)) id
  | @fire side timeMs nowMs nonces e calls htimer hok =>
    obtain ⟨v, hparty⟩ := party_reachable hreach side
    obtain ⟨heffect, v', hparty'⟩ := party_fire hparty htimer hok
    rw [resendArmed_update hs hparty (by simp) heffect hparty']
    exact iff_of_true (fun ack hhas => absurd hhas (hnone (by simp) ack)) id
  | @deliver side frameBytes payloadBytes frameType nowMs nonces e calls hsent htype hpayload hok =>
    obtain ⟨v, hparty⟩ := party_reachable hreach side
    have hallowed : Allowed (s side).endpoint (.frame frameType payloadBytes) := trivial
    obtain ⟨heffect, v', hparty'⟩ := party_call hparty hallowed hok
    rw [resendArmed_update hs hparty (by simp) heffect hparty']
    constructor
    · rintro hack ⟨hactive, frameType', payloadBytes', ack, htype', hpayload', hhas, hstalls⟩
      cases htype.symm.trans htype'
      cases hpayload.symm.trans hpayload'
      exact hack ack hhas hactive hstalls
    · intro hnot ack hhas hactive hstalls
      exact hnot ⟨hactive, frameType, payloadBytes, ack, htype, hpayload, hhas, hstalls⟩

/-- In each state of a run, lost fragments are going to be sent again, exactly if no ack of the run
stalls an endpoint. -/
theorem resend_armed_iff {past : List (State × Action)} (run : Run (system bd) past s) :
    ((∀ p ∈ past, ∀ side, ResendArmed (p.1 side)) ∧ ∀ side, ResendArmed (s side)) ↔
      ∀ p ∈ past, ¬ StallsStep bd p.1 p.2 :=
  run.forall_iff (fun _ h => resendArmed_initial h)
    (fun _ _ _ hreach hs h => resendArmed_step hreach hs h)

end Stall

section Sample

/-- Four segments with a reliable fragment each are sent, the first one is lost, and the other
three are acknowledged. -/
def lostFirst : List (State → Option Action) :=
  let enqueue : State → Option Action :=
    fun _ => some (.call .a (.enqueue [7] .reliable) 0 fun _ => false)
  let flush : State → Option Action := fun _ => some (.call .a .flush 0 fun _ => false)
  let arrive (n : ℕ) : State → Option Action := fun s =>
    (s.sent .a)[n]?.map fun frameBytes => .deliver .b frameBytes 0 fun _ => false
  [enqueue, flush, enqueue, flush, enqueue, flush, enqueue, flush, arrive 1, arrive 2, arrive 3,
    fun s => (s.sent .b)[0]?.map fun frameBytes => .deliver .a frameBytes 0 fun _ => false]

/-- Nothing is going to send the four fragments again. -/
lemma lostFirst_stalled : ∃ s, Reachable (system .debug) s ∧ ¬ ResendArmed (s .a) := by
  have hrun : ((sampleStart.bind fun s => play .debug s lostFirst).map fun s =>
      decide ((s .a).endpoint.stateId = .active ∧
        (s .a).endpoint.fragmentTx.rel.sendWindow.baseId ≠
          (s .a).endpoint.fragmentTx.rel.maxAckId ∧
        (s .a).timer = none)) = some true := by
    decide +kernel
  obtain ⟨s, hplay, hdecide⟩ := Option.map_eq_some_iff.mp hrun
  obtain ⟨hactive, hne, htimer⟩ := of_decide_eq_true hdecide
  refine ⟨s, sampleStart_play hplay, fun harmed => ?_⟩
  have htimers := (harmed hactive hne).2
  rw [htimer] at htimers
  cases htimers

theorem resend_not_always_armed :
    ¬ ∀ s, Reachable (system .debug) s → ∀ side, ResendArmed (s side) := by
  intro h
  obtain ⟨s, hs, hstalled⟩ := lostFirst_stalled
  exact hstalled (h s hs .a)

/-- In the run above it is the ack that stalls the sender. -/
theorem resend_armed_iff_lostFirst : ∃ (past : List (State × Action)) (s : State),
    Run (system .debug) past s ∧ ∃ p ∈ past, StallsStep .debug p.1 p.2 := by
  obtain ⟨s, ⟨past, run⟩, hstalled⟩ := lostFirst_stalled
  refine ⟨past, s, run, ?_⟩
  by_contra hnone
  have hsteps : ∀ p ∈ past, ¬ StallsStep .debug p.1 p.2 :=
    fun p hp hstep => hnone ⟨p, hp, hstep⟩
  exact hstalled (((resend_armed_iff run).mpr hsteps).2 .a)

end Sample

end EndpointPair

end Redpine
