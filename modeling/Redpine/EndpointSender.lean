import Redpine.Endpoint
import Redpine.FragmentFlush
import Redpine.SegmentTxAck

/-! The sending half of an endpoint: what holds of its window, queues and timers under
arbitrary acks, and what a flush sends. -/
namespace Redpine
open Machine Buffer Wire SerialId

namespace Endpoint

/-- The sizes of the segments sent so far, how many of them are acknowledged, the fragments
pushed to the reliable queue, and the three positions of this queue. -/
structure SenderView where
  sizes : List ℕ
  acked : ℕ
  all : List FragmentRc
  discarded : ℕ
  cursor : ℕ
  sent : ℕ

/-- The invariant of the sending half. Where `safe` holds, the clock has not gone back. -/
structure Sender (e : Endpoint) (bd : Build) (safe : Prop) (nowMs : ℕ) (v : SenderView) :
    Prop where
  window : e.segmentTx.InFlight bd 12 0 v.sizes v.acked
  sizes_le : ∀ x ∈ v.sizes, x ≤ frameSizeMax
  queues : e.fragmentTx.Sound safe fragmentSize 0 v.all v.discarded v.cursor v.sent
  cc : e.ccState.Bounded
  rto_le : e.rtoMs ≤ rtoMaxMs
  rtt : ∀ t, e.rttTimerState = some t → safe → t.sendTimeMs ≤ nowMs

/-- The state of the connection and the receiving half are left alone. -/
structure SendOnly (e e' : Endpoint) : Prop where
  config_eq : e'.config = e.config
  stateId_eq : e'.stateId = e.stateId
  localNonce_eq : e'.localNonce = e.localNonce
  remoteNonce_eq : e'.remoteNonce = e.remoteNonce
  segmentRx_eq : e'.segmentRx = e.segmentRx
  unreliableRx_eq : e'.unreliableRx = e.unreliableRx
  reliableRx_eq : e'.reliableRx = e.reliableRx

lemma SendOnly.refl (e : Endpoint) : SendOnly e e := ⟨rfl, rfl, rfl, rfl, rfl, rfl, rfl⟩

lemma SendOnly.trans {e e' e'' : Endpoint} (h : SendOnly e e') (h' : SendOnly e' e'') :
    SendOnly e e'' :=
  ⟨h'.1.trans h.1, h'.2.trans h.2, h'.3.trans h.3, h'.4.trans h.4, h'.5.trans h.5,
    h'.6.trans h.6, h'.7.trans h.7⟩

section Timers
variable {bd : Build} {safe : Prop} {e : Endpoint} {nowMs nowMs' : ℕ} {v : SenderView}

lemma Sender.later (h : e.Sender bd safe nowMs v) (hle : safe → nowMs ≤ nowMs') :
    e.Sender bd safe nowMs' v :=
  ⟨h.1, h.2, h.3, h.4, h.5, fun t ht hs => (h.rtt t ht hs).trans (hle hs)⟩

/-- What holds without any assumption on the calls. -/
lemma Sender.forget (h : e.Sender bd safe nowMs v) : e.Sender bd False nowMs v :=
  ⟨h.window, h.sizes_le, h.queues.forget, h.cc, h.rto_le, fun _ _ hf => hf.elim⟩

lemma clampRto_le (rtoMs : ℕ) : clampRto rtoMs ≤ rtoMaxMs := min_le_right _ _

/-- A new timeout does not overflow. -/
lemma timeout_outcome (hrto : e.rtoMs ≤ rtoMaxMs)
    (hnow : safe → bd = .debug → nowMs < 2 ^ 62) :
    Outcome safe (checkedAdd bd 64 nowMs e.rtoMs)
      (fun timeMs => checkedAdd bd 64 nowMs e.rtoMs = .ok timeMs) := by
  rw [rtoMaxMs] at hrto
  refine Outcome.self fun hs => ?_
  cases bd with
  | debug =>
    have := hnow hs rfl
    exact ⟨_, checkedAdd_of_lt (by omega)⟩
  | release => exact ⟨_, checkedAdd_release 64 nowMs e.rtoMs⟩

/-- The estimate of the round trip changes the timeout and the timer of the estimate. -/
lemma Sender.updateRtt (h : e.Sender bd safe nowMs v) (segmentId : U32) :
    Outcome safe (e.updateRtt bd segmentId nowMs) fun e' =>
      ∃ rtoMs rttState rttTimer, e' = { e with
        rtoMs := rtoMs, rttState := rttState, rttTimerState := rttTimer } ∧
        rtoMs ≤ rtoMaxMs ∧ (rttTimer = e.rttTimerState ∨ rttTimer = none) := by
  unfold Endpoint.updateRtt
  cases htimer : e.rttTimerState with
  | none => exact .of_eq rfl ⟨e.rtoMs, e.rttState, none, by rw [← htimer], h.rto_le, .inr rfl⟩
  | some timer =>
    dsimp only
    by_cases hid : segmentId = timer.segmentId + 1
    · rw [if_pos hid]
      refine (checkedSub_outcome fun hs => h.rtt timer htimer hs).bind fun elapsedMs _ => ?_
      exact .of_eq rfl ⟨_, _, _, rfl, clampRto_le _, .inr rfl⟩
    · rw [if_neg hid]
      by_cases hexpired : timer.expireTimeMs ≤ nowMs
      · rw [if_pos hexpired]
        exact .of_eq rfl ⟨e.rtoMs, e.rttState, none, rfl, h.rto_le, .inr rfl⟩
      · rw [if_neg hexpired]
        exact .of_eq rfl ⟨e.rtoMs, e.rttState, some timer, by rw [← htimer], h.rto_le, .inl rfl⟩

/-- The resend timer before and after an ack: it stays unset, or it is unset because
everything is acknowledged, or it is set again. -/
inductive AckTimer (bd : Build) (nowMs rtoMs : ℕ) (nextId segmentId : U32) :
    Option RtoTimerState → Option RtoTimerState → List HostCall → Prop
  | idle : AckTimer bd nowMs rtoMs nextId segmentId none none []
  | caughtUp (timer : RtoTimerState) (hid : segmentId = nextId) :
      AckTimer bd nowMs rtoMs nextId segmentId (some timer) none [.unsetRtoTimer]
  | expecting (timer : RtoTimerState) {timeMs : ℕ} (hid : segmentId ≠ nextId)
      (htime : checkedAdd bd 64 nowMs rtoMs = .ok timeMs) :
      AckTimer bd nowMs rtoMs nextId segmentId (some timer) (some ⟨rtoMs, 0⟩)
        [.setRtoTimer timeMs]

lemma updateRtoTimer_spec (hrto : e.rtoMs ≤ rtoMaxMs) (hnow : safe → nowMs < 2 ^ 62)
    (segmentId : U32) :
    Outcome safe (e.updateRtoTimer bd segmentId nowMs) fun r =>
      ∃ timer, r.1 = { e with rtoTimerState := timer } ∧
        AckTimer bd nowMs e.rtoMs e.segmentTx.nextId segmentId e.rtoTimerState timer r.2 := by
  unfold Endpoint.updateRtoTimer
  cases htimer : e.rtoTimerState with
  | none => exact .of_eq rfl ⟨none, by rw [← htimer], .idle⟩
  | some timer =>
    dsimp only
    by_cases hid : segmentId = e.segmentTx.nextId
    · rw [if_pos hid]
      exact .of_eq rfl ⟨none, rfl, .caughtUp timer hid⟩
    · rw [if_neg hid]
      refine (timeout_outcome hrto fun hs _ => hnow hs).bind fun timeMs htime => ?_
      exact .of_eq rfl ⟨_, rfl, .expecting timer hid htime⟩

end Timers

section Ack
variable {bd : Build} {safe : Prop} {e : Endpoint} {nowMs : ℕ} {v : SenderView}

/-- What an ack does to the sending half. -/
structure AckStep (bd : Build) (nowMs : ℕ) (e : Endpoint) (ack : StreamAck) (e' : Endpoint)
    (calls : List HostCall) : Prop where
  segmentTx : ∃ drop, e.segmentTx.acknowledge bd ack.segmentId
    (ack.segmentHistory.setWidth 32) ack.segmentChecksum = .ok (e'.segmentTx, drop)
  fragmentTx : e.fragmentTx.acknowledge bd ack.relFragmentId = .ok e'.fragmentTx
  timer : AckTimer bd nowMs e'.rtoMs e'.segmentTx.nextId ack.segmentId e.rtoTimerState
    e'.rtoTimerState calls
  ccState : ∃ ccState drop, e.ccState.handleAck bd = .ok ccState ∧
    handleDropIf bd drop ccState = .ok e'.ccState
  rto_le : e'.rtoMs ≤ rtoMaxMs
  rtt : e'.rttTimerState = e.rttTimerState ∨ e'.rttTimerState = none
  frame : SendOnly e e'

/-- An ack moves the base of the segment window up to a sent segment, or is ignored. It
leaves nothing in flight if it names the next segment, and only then. -/
lemma Sender.acknowledge_segment (h : e.Sender bd safe nowMs v) (id rxHistory : U32)
    (rxChecksum : Bool) :
    ∃ segmentTx drop j, e.segmentTx.acknowledge bd id rxHistory rxChecksum =
        .ok (segmentTx, drop) ∧
      segmentTx.InFlight bd 12 0 v.sizes j ∧ v.acked ≤ j ∧
      (id = e.segmentTx.nextId → j = v.sizes.length) ∧
      (id ≠ e.segmentTx.nextId → v.acked < v.sizes.length → j < v.sizes.length) := by
  have hbase := h.window.baseId_eq
  have hnext := h.window.nextId_eq
  rcases between_or_beyond 0 id h.window.acked_le with ⟨j, hle, hj, rfl⟩ | hgt
  · obtain ⟨segmentTx, drop, hack, hwindow, -, -⟩ :=
      h.window.acknowledge [] hle hj rxHistory rxChecksum
    refine ⟨segmentTx, drop, j, hack, hwindow, hle, fun hid => ?_, fun hid _ => ?_⟩
    · have hwin := h.window.window_le
      rw [hnext] at hid
      exact idAt_injOn 0 (by omega) (by omega) hid
    · have hne : j ≠ v.sizes.length := by
        rintro rfl
        exact hid hnext.symm
      omega
  · rw [← hbase] at hgt
    refine ⟨_, _, v.acked, h.window.acknowledge_ignored hgt rxHistory rxChecksum, h.window, le_rfl,
      fun hid => ?_, fun _ hlt => hlt⟩
    rw [hid, h.window.next_sub] at hgt
    omega

variable (bd) in
lemma handleDropIf_bounded {c : AimdReno} (hc : c.Bounded) (drop : Bool) :
    ∃ c', handleDropIf bd drop c = .ok c' ∧ c'.Bounded := by
  cases drop with
  | false => exact ⟨c, rfl, hc⟩
  | true => exact hc.handleDrop bd

/-- What an ack preserves. -/
theorem AckStep.sender {e' : Endpoint} {ack : StreamAck} {calls : List HostCall}
    (hs : AckStep bd nowMs e ack e' calls) (h : e.Sender bd safe nowMs v) :
    ∃ acked discarded cursor, v.acked ≤ acked ∧
      (ack.segmentId = e.segmentTx.nextId → acked = v.sizes.length) ∧
      (ack.segmentId ≠ e.segmentTx.nextId → v.acked < v.sizes.length →
        acked < v.sizes.length) ∧
      e'.Sender bd safe nowMs
        { v with acked := acked, discarded := discarded, cursor := cursor } := by
  obtain ⟨drop, hack⟩ := hs.segmentTx
  obtain ⟨segmentTx, drop', acked, hack', hwindow, hle, hall, hsome⟩ := h.acknowledge_segment ack.segmentId
    (ack.segmentHistory.setWidth 32) ack.segmentChecksum
  rw [hack] at hack'
  cases hack'
  obtain ⟨fragmentTx, discarded, cursor, hfrag, hqueues⟩ :=
    h.queues.acknowledge bd ack.relFragmentId
  rw [hs.fragmentTx] at hfrag
  cases hfrag
  obtain ⟨cc, hdrop, hcc, hcc'⟩ := hs.ccState
  obtain ⟨cc₁, hcc₁, hbounded₁⟩ := h.cc.handleAck bd
  rw [hcc] at hcc₁
  cases hcc₁
  obtain ⟨cc₂, hcc₂, hbounded₂⟩ := handleDropIf_bounded bd hbounded₁ hdrop
  rw [hcc'] at hcc₂
  cases hcc₂
  refine ⟨acked, discarded, cursor, hle, hall, hsome, hwindow, h.sizes_le, hqueues, hbounded₂,
    hs.rto_le, fun t ht hsafe => ?_⟩
  rcases hs.rtt with hsame | hnone
  · exact h.rtt t (hsame ▸ ht) hsafe
  · rw [hnone] at ht
    cases ht

/-- An ack never fails, whatever it says. -/
theorem Sender.handleAck (h : e.Sender bd safe nowMs v) (hnow : safe → nowMs < 2 ^ 62)
    (ack : StreamAck) :
    Outcome safe (e.handleAck bd ack nowMs) fun r => AckStep bd nowMs e ack r.1 r.2 := by
  obtain ⟨cc, hcc, hbounded⟩ := h.cc.handleAck bd
  obtain ⟨segmentTx, drop, acked, hack, hwindow, -, -, -⟩ := h.acknowledge_segment ack.segmentId
    (ack.segmentHistory.setWidth 32) ack.segmentChecksum
  obtain ⟨fragmentTx, discarded, cursor, hfrag, hqueues⟩ :=
    h.queues.acknowledge bd ack.relFragmentId
  obtain ⟨cc', hcc', hbounded'⟩ := handleDropIf_bounded bd hbounded drop
  have hsender : Sender { e with
      ccState := cc', segmentTx := segmentTx, fragmentTx := fragmentTx } bd safe nowMs
      { v with acked := acked, discarded := discarded, cursor := cursor } :=
    ⟨hwindow, h.sizes_le, hqueues, hbounded', h.rto_le, h.rtt⟩
  unfold Endpoint.handleAck
  rw [hcc, ok_bind, hack, ok_bind]
  dsimp only
  rw [hcc', ok_bind, hfrag, ok_bind]
  refine (hsender.updateRtt ack.segmentId).bind ?_
  rintro e' ⟨rtoMs, rttState, rttTimer, rfl, hrto, hrtt⟩
  refine (updateRtoTimer_spec hrto hnow ack.segmentId).weaken ?_
  rintro ⟨e'', calls⟩ ⟨timer, rfl, htimer⟩
  exact ⟨⟨drop, hack⟩, hfrag, htimer, ⟨cc, drop, hcc, hcc'⟩, hrto, hrtt, rfl, rfl, rfl, rfl, rfl,
    rfl, rfl⟩

end Ack

section Frames

/-- The ack at the front of a frame, if one is sent. -/
def ackBytes (e : Endpoint) (sendAck ackRel : Bool) : Bytes :=
  if sendAck then LawfulBlock.encode (e.streamAckOf ackRel) else []

/-- The frame that carries a segment, with an ack if one is sent along. -/
def segmentFrame (e : Endpoint) (sendAck ackRel nonce : Bool) (datagrams : List Datagram) :
    Bytes :=
  frameOf (if sendAck then .streamSegmentAck else .streamSegment)
    (e.ackBytes sendAck ackRel ++
      (LawfulBlock.encode (⟨e.segmentTx.nextId, nonce⟩ : StreamSegmentHeader) ++
        datagrams.flatMap encodeDatagram))

def ackFrame (e : Endpoint) (ackRel : Bool) : Bytes :=
  frameOf .streamAck (LawfulBlock.encode (e.streamAckOf ackRel))

lemma streamAckOf_valid (e : Endpoint) (ackRel : Bool) :
    LawfulBlock.Valid (e.streamAckOf ackRel) := by
  change StreamAck.Valid _
  unfold StreamAck.Valid streamAckOf SegmentRx.nextAckInfo
  ext i hi
  simp only [BitVec.getElem_and, BitVec.getElem_setWidth, BitVec.getLsbD_and]
  interval_cases i <;> simp

/-- The resend timer before and after a segment is sent: it is set unless it runs. -/
inductive ArmTimer (bd : Build) (nowMs rtoMs : ℕ) :
    Option RtoTimerState → Option RtoTimerState → List HostCall → Prop
  | set {timeMs : ℕ} (htime : checkedAdd bd 64 nowMs rtoMs = .ok timeMs) :
      ArmTimer bd nowMs rtoMs none (some ⟨rtoMs, 0⟩) [.setRtoTimer timeMs]
  | running (timer : RtoTimerState) : ArmTimer bd nowMs rtoMs (some timer) (some timer) []

/-- One segment is sent: datagrams leave the queues, and the timers are armed. -/
structure SegmentStep (bd : Build) (nonce : Bool) (nowMs : ℕ) (e : Endpoint)
    (datagrams : List Datagram) (e' : Endpoint) (calls : List HostCall) : Prop where
  canSend : e.segmentTx.canSend = true
  nonempty : datagrams ≠ []
  sends : FragmentTxBuffers.Sends nowMs e.fragmentTx datagrams e'.fragmentTx
  segmentTx : ∃ s, e.segmentTx.computeNextNonce bd nonce = .ok s ∧
    s.markSent bd (datagrams.map (·.data.length)).sum = .ok e'.segmentTx
  size_le : (datagrams.map (·.data.length)).sum ≤ frameSizeMax
  fits : (datagrams.flatMap encodeDatagram).length ≤ frameSizeMax
  timer : ArmTimer bd nowMs e.rtoMs e.rtoTimerState e'.rtoTimerState calls
  rtt : e'.rttTimerState = e.rttTimerState ∨
    ∃ segmentId expireTimeMs, e'.rttTimerState = some ⟨segmentId, nowMs, expireTimeMs⟩
  rtoMs_eq : e'.rtoMs = e.rtoMs
  ccState_eq : e'.ccState = e.ccState
  frame : SendOnly e e'

/-- The frames of one flush. Only the first one can carry an ack. -/
inductive FlushRun (bd : Build) (ackRel : Bool) (nowMs : ℕ) :
    Bool → Endpoint → List HostCall → Endpoint → Prop
  | stop {e : Endpoint} (hdata : e.sendData nowMs = false) :
      FlushRun bd ackRel nowMs false e [] (e.expire nowMs)
  | ack {e e' : Endpoint} {calls : List HostCall} (hdata : e.sendData nowMs = false)
      (rest : FlushRun bd ackRel nowMs false (e.expire nowMs) calls e') :
      FlushRun bd ackRel nowMs true e (.sendFrame (e.ackFrame ackRel) :: calls) e'
  | segment {sendAck nonce : Bool} {e e' e'' : Endpoint} {datagrams : List Datagram}
      {timerCalls calls : List HostCall} (hdata : e.sendData nowMs = true)
      (h : SegmentStep bd nonce nowMs (e.expire nowMs) datagrams e' timerCalls)
      (rest : FlushRun bd ackRel nowMs false e' calls e'') :
      FlushRun bd ackRel nowMs sendAck e
        (timerCalls ++ .sendFrame (e.segmentFrame sendAck ackRel nonce datagrams) :: calls) e''

end Frames

section Invariant
variable {bd : Build} {safe : Prop} {nonce sendAck ackRel : Bool} {e e' : Endpoint} {nowMs : ℕ}
  {v : SenderView} {datagrams : List Datagram} {calls : List HostCall}

lemma Sender.expire (h : e.Sender bd safe nowMs v) : (e.expire nowMs).Sender bd safe nowMs v :=
  ⟨h.window, h.sizes_le, h.queues.popExpired nowMs, h.cc, h.rto_le, h.rtt⟩

lemma expire_sendOnly (e : Endpoint) (nowMs : ℕ) : SendOnly e (e.expire nowMs) :=
  ⟨rfl, rfl, rfl, rfl, rfl, rfl, rfl⟩

theorem SegmentStep.sender (hs : SegmentStep bd nonce nowMs e datagrams e' calls)
    (h : e.Sender bd safe nowMs v) :
    ∃ cursor sent, v.cursor ≤ cursor ∧ v.sent ≤ sent ∧ e'.Sender bd safe nowMs
      { v with
        sizes := v.sizes ++ [(datagrams.map (·.data.length)).sum]
        cursor := cursor
        sent := sent } := by
  obtain ⟨s, hnonce, hmark⟩ := hs.segmentTx
  have hsize := hs.size_le
  obtain ⟨s', hnonce', hwindow, -, -, -, -, hcan'⟩ := h.window.computeNextNonce nonce
  rw [hnonce] at hnonce'
  cases hnonce'
  obtain ⟨hwindow', -, -⟩ := hwindow.markSent (hcan'.trans hs.canSend)
    (by simp only [frameSizeMax] at hsize; omega) hmark
  obtain ⟨cursor, sent, hqueues, hcursor, hsent, -⟩ :=
    h.queues.sends hs.sends
  refine ⟨cursor, sent, hcursor, hsent, hwindow', fun x hx => ?_, hqueues, hs.ccState_eq ▸ h.cc,
    hs.rtoMs_eq ▸ h.rto_le, fun t ht hsafe => ?_⟩
  · rcases List.mem_append.mp hx with hx | hx
    · exact h.sizes_le x hx
    · rw [List.mem_singleton.mp hx]
      exact hsize
  · rcases hs.rtt with hsame | ⟨segmentId, expireTimeMs, hnew⟩
    · exact h.rtt t (hsame ▸ ht) hsafe
    · rw [hnew] at ht
      cases ht
      exact le_rfl

theorem FlushRun.sender (hs : FlushRun bd ackRel nowMs sendAck e calls e')
    (h : e.Sender bd safe nowMs v) :
    ∃ more cursor sent, v.cursor ≤ cursor ∧ v.sent ≤ sent ∧ e'.Sender bd safe nowMs
      { v with sizes := v.sizes ++ more, cursor := cursor, sent := sent } := by
  induction hs generalizing v with
  | stop hdata => exact ⟨[], v.cursor, v.sent, le_rfl, le_rfl, by simpa using h.expire⟩
  | ack hdata rest ih => exact ih h.expire
  | @segment _ _ _ _ _ datagrams _ _ hdata hstep rest ih =>
    obtain ⟨cursor, sent, hcursor, hsent, h'⟩ := hstep.sender h.expire
    obtain ⟨more, cursor', sent', hcursor', hsent', h''⟩ := ih h'
    refine ⟨(datagrams.map (·.data.length)).sum :: more, cursor', sent', hcursor.trans hcursor',
      hsent.trans hsent', ?_⟩
    simpa using h''

theorem FlushRun.sendOnly (hs : FlushRun bd ackRel nowMs sendAck e calls e') : SendOnly e e' := by
  induction hs with
  | stop hdata => exact expire_sendOnly _ _
  | ack hdata rest ih => exact (expire_sendOnly _ _).trans ih
  | segment hdata hstep rest ih => exact ((expire_sendOnly _ _).trans hstep.frame).trans ih

end Invariant

section Flush
variable {bd : Build} {safe strict : Prop} {e : Endpoint} {nowMs : ℕ} {v : SenderView}

lemma popExpired_idem (b : FragmentTxBuffers) (nowMs : ℕ) :
    (b.popExpired nowMs).popExpired nowMs = b.popExpired nowMs := by
  unfold FragmentTxBuffers.popExpired Unreliable.TxBuffer.popExpired
  simp only [List.dropWhile_idempotent]

lemma sum_length_le (datagrams : List Datagram) :
    (datagrams.map (·.data.length)).sum ≤ (datagrams.flatMap encodeDatagram).length := by
  induction datagrams with
  | nil => simp
  | cons d datagrams ih =>
    have hlen := encodeDatagram_length d
    simp only [List.map_cons, List.sum_cons, List.flatMap_cons, List.length_append]
    omega

/-- The bytes in transit never come close to an overflow. -/
lemma Sender.transitTotal_le (h : e.Sender bd safe nowMs v) :
    e.segmentTx.transitTotal ≤ 2 ^ 12 * frameSizeMax := by
  have hsum := List.sum_le_card_nsmul (v.sizes.drop v.acked) frameSizeMax
    (fun x hx => h.sizes_le x (List.mem_of_mem_drop hx))
  have hwindow := h.window.window_le
  have hle : (v.sizes.drop v.acked).sum ≤ 2 ^ 12 * frameSizeMax := by
    refine hsum.trans ?_
    rw [List.length_drop, smul_eq_mul]
    exact Nat.mul_le_mul_right _ (by omega)
  rw [h.window.total.1]
  exact (Nat.mod_le _ _).trans hle

lemma armRtoTimer_spec (hrto : e.rtoMs ≤ rtoMaxMs)
    (hnow : safe → bd = .debug → nowMs < 2 ^ 62) :
    Outcome safe (e.armRtoTimer bd nowMs) fun r =>
      ∃ timer, r.1 = { e with rtoTimerState := timer } ∧
        ArmTimer bd nowMs e.rtoMs e.rtoTimerState timer r.2 := by
  unfold Endpoint.armRtoTimer
  cases htimer : e.rtoTimerState with
  | none =>
    refine (timeout_outcome hrto hnow).bind fun timeMs htime => ?_
    exact .of_eq rfl ⟨_, rfl, .set htime⟩
  | some timer => exact .of_eq rfl ⟨some timer, by rw [← htimer], .running timer⟩

lemma armRttTimer_spec (hrto : e.rtoMs ≤ rtoMaxMs)
    (hnow : safe → bd = .debug → nowMs < 2 ^ 62) (segmentId : U32) :
    Outcome safe (e.armRttTimer bd segmentId nowMs) fun e' =>
      ∃ timer, e' = { e with rttTimerState := timer } ∧ (timer = e.rttTimerState ∨
        ∃ segmentId expireTimeMs, timer = some ⟨segmentId, nowMs, expireTimeMs⟩) := by
  unfold Endpoint.armRttTimer
  cases htimer : e.rttTimerState with
  | none =>
    refine (timeout_outcome hrto hnow).bind fun timeMs _ => ?_
    exact .of_eq rfl ⟨_, rfl, .inr ⟨segmentId, timeMs, rfl⟩⟩
  | some timer => exact .of_eq rfl ⟨some timer, by rw [← htimer], .inl rfl⟩

/-- There is always room for the header of a segment. -/
lemma write_segmentHeader (bd : Build) (header : StreamSegmentHeader) {w : FrameWriter}
    (hw : w.bufferLen = frameSizeMax) (hroom : w.written.length ≤ 10) :
    w.write bd header =
      .ok ({ w with written := w.written ++ LawfulBlock.encode header }, true) := by
  rw [FrameWriter.write_eq (by rw [hw, frameSizeMax]; omega) trivial, if_neg]
  · rfl
  · rw [hw, frameSizeMax]
    change ¬ 1472 < w.written.length + 5 + 4
    omega

/-- The segment that a flush writes behind whatever the frame already holds. What might fail
otherwise is only checked in a debug build. -/
lemma Sender.writeSegment (h : e.Sender bd safe nowMs v)
    (hstrict : strict → bd = .debug → safe ∧ nowMs < 2 ^ 62)
    (hcan : e.segmentTx.canSend = true)
    (hsendable : (e.fragmentTx.popExpired nowMs).sendable = true) (nonce : Bool)
    {w : FrameWriter} (hw : w.bufferLen = frameSizeMax) (hroom : w.written.length ≤ 10) :
    Outcome strict (e.writeSegment bd nonce w nowMs) fun r =>
      ∃ datagrams, SegmentStep bd nonce nowMs e datagrams r.1 r.2.2 ∧
        r.2.1.bufferLen = frameSizeMax ∧ r.2.1.written.length + 4 ≤ frameSizeMax ∧
        r.2.1.written = w.written ++
          (LawfulBlock.encode (⟨e.segmentTx.nextId, nonce⟩ : StreamSegmentHeader) ++
            datagrams.flatMap encodeDatagram) := by
  obtain ⟨s, hnonce, hwindow, htotal, -, -, -, hcan'⟩ := h.window.computeNextNonce nonce
  set header : StreamSegmentHeader := ⟨e.segmentTx.nextId, nonce⟩ with hdef
  have hencode : (LawfulBlock.encode header).length = 5 := rfl
  have hheader := write_segmentHeader bd header hw hroom
  have hwritten : (w.written ++ LawfulBlock.encode header).length = w.written.length + 5 := by
    rw [List.length_append, hencode]
  obtain ⟨datagrams, fragmentTx, w', total, hflush, hsends, hw', -, hne⟩ :=
    FragmentTxBuffers.flush_spec
      (w := { w with written := w.written ++ LawfulBlock.encode header })
      bd nowMs h.queues (by decide) (by rw [hwritten, hw, frameSizeMax]; omega)
      (by rw [hw, frameSizeMax]; omega)
  have hne' : datagrams ≠ [] := by
    apply hne hsendable
    rw [hwritten, hw, frameSizeMax, fragmentSize]
    omega
  have hlen : w'.bufferLen = frameSizeMax := hw'.bufferLen_eq.trans hw
  have hroom' := hw'.room
  have htotal_eq : total = (datagrams.map (·.data.length)).sum := by
    rw [hw'.total_eq, Nat.zero_add]
  have hfits : (datagrams.flatMap encodeDatagram).length ≤ frameSizeMax := by
    have hall := congrArg List.length hw'.written_eq
    rw [List.length_append] at hall
    omega
  have hsize : total ≤ frameSizeMax := by
    have hsum := sum_length_le datagrams
    omega
  have hpos : safe → 0 < total := by
    intro hs
    obtain ⟨-, -, -, -, -, hgood⟩ := h.queues.sends hsends
    cases datagrams with
    | nil => exact absurd rfl hne'
    | cons d datagrams =>
      have := (hgood d List.mem_cons_self).2 hs
      rw [htotal_eq, List.map_cons, List.sum_cons]
      omega
  have hsum : s.transitTotal + total < 2 ^ 64 := by
    have := h.transitTotal_le
    rw [frameSizeMax] at *
    omega
  obtain ⟨segmentTx, hmark⟩ := hwindow.markSent_ok (hcan'.trans hcan) hsum
  unfold Endpoint.writeSegment
  rw [hnonce, ok_bind]
  dsimp only
  rw [← hdef, hheader, ok_bind]
  dsimp only
  rw [hflush, ok_bind]
  dsimp only
  have hnow : strict → bd = .debug → nowMs < 2 ^ 62 := fun hs hdebug => (hstrict hs hdebug).2
  refine (debugAssert_outcome fun hs hdebug => hpos (hstrict hs hdebug).1).bind fun _ _ => ?_
  rw [hmark, ok_bind]
  refine (armRtoTimer_spec (e := { e with segmentTx := segmentTx, fragmentTx := fragmentTx })
    h.rto_le hnow).bind ?_
  rintro ⟨e', calls⟩ ⟨timer, rfl, htimer⟩
  refine (armRttTimer_spec (e := { e with
    segmentTx := segmentTx, fragmentTx := fragmentTx, rtoTimerState := timer })
    h.rto_le hnow e.segmentTx.nextId).bind ?_
  rintro e'' ⟨rttTimer, rfl, hrtt⟩
  rw [htotal_eq] at hmark hsize
  exact .of_eq rfl ⟨datagrams, ⟨hcan, hne', hsends, ⟨s, hnonce, hmark⟩, hsize, hfits, htimer, hrtt,
    rfl, rfl, rfl, rfl, rfl, rfl, rfl, rfl, rfl⟩, hlen, hlen ▸ hroom', by
      rw [hw'.written_eq, List.append_assoc]⟩

/-- The window and the queues of an endpoint that is ready to send data. -/
lemma sendData_iff (e : Endpoint) (nowMs : ℕ) :
    e.sendData nowMs = true ↔ e.segmentTx.canSend = true ∧
      e.segmentTx.bytesInTransit < e.ccState.cwnd ∧
      (e.fragmentTx.popExpired nowMs).sendable = true := by
  unfold sendData FragmentTxBuffers.dataReady
  simp only [Bool.not_not, Bool.and_eq_true, Bool.not_eq_true', decide_eq_false_iff_not, not_le,
    and_assoc]

lemma writeAck_eq (bd : Build) (e : Endpoint) (sendAck ackRel : Bool) (bits : U8) :
    e.writeAck bd sendAck ackRel ⟨frameSizeMax, [bits]⟩ =
      .ok ⟨frameSizeMax, bits :: e.ackBytes sendAck ackRel⟩ := by
  cases sendAck with
  | false => rfl
  | true =>
    have hlen : (LawfulSerial.encode (e.streamAckOf ackRel)).length = 9 := rfl
    have hroom : (⟨frameSizeMax, [bits]⟩ : FrameWriter).written.length + 4 ≤ frameSizeMax := by
      simp [frameSizeMax]
    unfold writeAck
    rw [if_pos rfl, FrameWriter.write_eq hroom (e.streamAckOf_valid ackRel),
      if_neg (by simp [hlen, frameSizeMax])]
    rfl

lemma ackBytes_length (e : Endpoint) (sendAck ackRel : Bool) :
    (e.ackBytes sendAck ackRel).length ≤ 9 := by
  cases sendAck with
  | false => exact Nat.zero_le _
  | true => exact le_rfl

lemma sendStreamFrame_ack (bd : Build) (e : Endpoint) (nonce ackRel : Bool) (nowMs : ℕ) :
    e.sendStreamFrame bd nonce true false ackRel nowMs =
      .ok (e, [.sendFrame (e.ackFrame ackRel)]) := by
  have hlen := e.ackBytes_length true ackRel
  unfold sendStreamFrame flushFrameType writeData
  dsimp only
  rw [ok_bind, FrameWriter.new_eq (by decide), ok_bind, writeAck_eq, ok_bind]
  simp only [Bool.false_eq_true, if_false, ok_bind]
  rw [FrameWriter.finalize_eq (by rw [frameSizeMax]; omega), ok_bind]
  rfl

lemma Sender.sendStreamFrame_segment (h : e.Sender bd safe nowMs v)
    (hstrict : strict → bd = .debug → safe ∧ nowMs < 2 ^ 62) (hcan : e.segmentTx.canSend = true)
    (hsendable : (e.fragmentTx.popExpired nowMs).sendable = true) (nonce sendAck ackRel : Bool) :
    Outcome strict (e.sendStreamFrame bd nonce sendAck true ackRel nowMs) fun r =>
      ∃ datagrams timerCalls, SegmentStep bd nonce nowMs e datagrams r.1 timerCalls ∧
        r.2 = timerCalls ++ [.sendFrame (e.segmentFrame sendAck ackRel nonce datagrams)] ∧
        (e.segmentFrame sendAck ackRel nonce datagrams).length ≤ frameSizeMax := by
  have hlen := e.ackBytes_length sendAck ackRel
  have htype : flushFrameType sendAck true =
      .ok (if sendAck then .streamSegmentAck else .streamSegment) := by
    cases sendAck <;> rfl
  unfold sendStreamFrame writeData
  rw [htype, ok_bind, FrameWriter.new_eq (by decide), ok_bind, writeAck_eq, ok_bind, if_pos rfl]
  refine (h.writeSegment hstrict hcan hsendable nonce
    (w := ⟨frameSizeMax, _ :: e.ackBytes sendAck ackRel⟩) rfl
    (by simpa using Nat.lt_succ_of_le hlen)).bind ?_
  rintro ⟨e', ⟨bufferLen, written⟩, timerCalls⟩ ⟨datagrams, hstep, hbuffer, hroom, hwritten⟩
  dsimp only at hbuffer hroom hwritten ⊢
  rw [List.cons_append] at hwritten
  rw [hwritten, List.length_cons] at hroom
  rw [hbuffer, hwritten, FrameWriter.finalize_eq (by omega), ok_bind]
  refine .of_eq rfl ⟨datagrams, timerCalls, hstep, rfl, ?_⟩
  rw [segmentFrame, frameOf_length]
  omega

/-- One pass through the loop. -/
lemma Sender.flushStep (h : e.Sender bd safe nowMs v)
    (hstrict : strict → bd = .debug → safe ∧ nowMs < 2 ^ 62) (nonce sendAck ackRel : Bool) :
    Outcome strict (e.flushStep bd nonce sendAck ackRel nowMs) fun r =>
      (sendAck = false ∧ e.sendData nowMs = false ∧ r = (e.expire nowMs, none)) ∨
      (sendAck = true ∧ e.sendData nowMs = false ∧
        r = (e.expire nowMs, some [.sendFrame (e.ackFrame ackRel)])) ∨
      (e.sendData nowMs = true ∧ ∃ datagrams timerCalls,
        SegmentStep bd nonce nowMs (e.expire nowMs) datagrams r.1 timerCalls ∧
        r.2 = some (timerCalls ++
          [.sendFrame (e.segmentFrame sendAck ackRel nonce datagrams)]) ∧
        (e.segmentFrame sendAck ackRel nonce datagrams).length ≤ frameSizeMax) := by
  unfold Endpoint.flushStep
  cases hdata : e.sendData nowMs with
  | false =>
    cases sendAck with
    | false => exact .of_eq rfl (.inl ⟨rfl, rfl, rfl⟩)
    | true =>
      rw [if_pos (Bool.or_false true), sendStreamFrame_ack, ok_bind]
      exact .of_eq rfl (.inr (.inl ⟨rfl, rfl, rfl⟩))
  | true =>
    obtain ⟨hcan, -, hsendable⟩ := (e.sendData_iff nowMs).mp hdata
    have hsendable' : ((e.expire nowMs).fragmentTx.popExpired nowMs).sendable = true := by
      change ((e.fragmentTx.popExpired nowMs).popExpired nowMs).sendable = true
      rwa [popExpired_idem]
    rw [if_pos (Bool.or_true _)]
    refine (h.expire.sendStreamFrame_segment hstrict hcan hsendable' nonce sendAck ackRel).bind ?_
    rintro ⟨e', calls⟩ ⟨datagrams, timerCalls, hstep, hcalls, hlen⟩
    exact .of_eq rfl
      (.inr (.inr ⟨rfl, datagrams, timerCalls, hstep, congrArg some hcalls, hlen⟩))

/-- Every frame that is sent fits into the buffer it is written to. -/
def FramesFit (calls : List HostCall) : Prop :=
  ∀ frameBytes, HostCall.sendFrame frameBytes ∈ calls → frameBytes.length ≤ frameSizeMax

lemma ackFrame_fits (e : Endpoint) (ackRel : Bool) : (e.ackFrame ackRel).length ≤ frameSizeMax := by
  have hlen := e.ackBytes_length true ackRel
  rw [ackFrame, frameOf_length]
  change (e.ackBytes true ackRel).length + 5 ≤ 1472
  omega

lemma FramesFit.cons {frameBytes : Bytes} {calls : List HostCall}
    (hlen : frameBytes.length ≤ frameSizeMax) (h : FramesFit calls) :
    FramesFit (.sendFrame frameBytes :: calls) := by
  intro frameBytes' hmem
  rcases List.mem_cons.mp hmem with hmem | hmem
  · cases hmem
    exact hlen
  · exact h frameBytes' hmem

lemma FramesFit.arm {rtoMs : ℕ} {before after : Option RtoTimerState}
    {timerCalls calls : List HostCall} (h : FramesFit calls)
    (htimer : ArmTimer bd nowMs rtoMs before after timerCalls) :
    FramesFit (timerCalls ++ calls) := by
  intro frameBytes hmem
  cases htimer with
  | set htime =>
    rcases List.mem_cons.mp hmem with hmem | hmem
    · cases hmem
    · exact h frameBytes hmem
  | running timer => exact h frameBytes hmem

/-- Every pass but the last one takes an ID from the window or sends the ack. -/
theorem Sender.flushLoop (h : e.Sender bd safe nowMs v)
    (hstrict : strict → bd = .debug → safe ∧ nowMs < 2 ^ 62)
    (ackRel : Bool) (nonces : ℕ → Bool) (sendAck : Bool) {fuel : ℕ}
    (hfuel : v.acked + 2 ^ 12 - v.sizes.length + (if sendAck then 1 else 0) < fuel) :
    Outcome strict (flushLoop bd ackRel nowMs fuel nonces sendAck e) fun r =>
      FlushRun bd ackRel nowMs sendAck e r.2 r.1 ∧ FramesFit r.2 := by
  induction fuel generalizing e v nonces sendAck with
  | zero => omega
  | succ fuel ih =>
    unfold Endpoint.flushLoop
    refine (h.flushStep hstrict (nonces 0) sendAck ackRel).bind ?_
    rintro ⟨e', calls⟩ (⟨rfl, hdata, hr⟩ | ⟨rfl, hdata, hr⟩ | ⟨hdata, datagrams, timerCalls, hstep,
      hr, hlen⟩)
    · cases hr
      exact .of_eq rfl ⟨.stop hdata, fun _ hmem => by cases hmem⟩
    · cases hr
      refine (ih h.expire (fun n => nonces (n + 1)) false (by simpa using hfuel)).bind ?_
      rintro ⟨e'', rest⟩ ⟨hrest, hfit⟩
      exact .of_eq rfl ⟨.ack hdata hrest, hfit.cons (e.ackFrame_fits ackRel)⟩
    · dsimp only at hr hstep
      subst hr
      obtain ⟨cursor, sent, -, -, h'⟩ := hstep.sender h.expire
      have hlt := h.window.canSend_iff.mp ((e.sendData_iff nowMs).mp hdata).1
      refine (ih h' (fun n => nonces (n + 1)) false ?_).bind ?_
      · simp only [List.length_append, List.length_singleton, Bool.false_eq_true, if_false]
        omega
      · rintro ⟨e'', rest⟩ ⟨hrest, hfit⟩
        have hrun : FlushRun bd ackRel nowMs sendAck e _ e'' := .segment hdata hstep hrest
        refine .of_eq rfl ⟨?_, ?_⟩
        · simpa using hrun
        · simpa using (hfit.cons hlen).arm hstep.timer

theorem Sender.flushStream_fits (h : e.Sender bd safe nowMs v)
    (hstrict : strict → bd = .debug → safe ∧ nowMs < 2 ^ 62)
    (nonces : ℕ → Bool) (sendAck ackRel : Bool) :
    Outcome strict (e.flushStream bd nonces sendAck ackRel nowMs) fun r =>
      FlushRun bd ackRel nowMs sendAck e r.2 r.1 ∧ FramesFit r.2 := by
  have hsize := h.window.shape.size_eq
  have hacked := h.window.acked_le
  refine h.flushLoop hstrict ackRel nonces sendAck ?_
  rw [hsize]
  cases sendAck <;> simp <;> omega

theorem Sender.flushStream (h : e.Sender bd safe nowMs v) (hnow : safe → nowMs < 2 ^ 62)
    (nonces : ℕ → Bool) (sendAck ackRel : Bool) :
    Outcome safe (e.flushStream bd nonces sendAck ackRel nowMs) fun r =>
      FlushRun bd ackRel nowMs sendAck e r.2 r.1 :=
  (h.flushStream_fits (fun hs _ => ⟨hs, hnow hs⟩) nonces sendAck ackRel).weaken fun _ hr => hr.1

end Flush

end Endpoint

end Redpine
