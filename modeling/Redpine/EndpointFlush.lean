import Redpine.Client
import Redpine.EndpointFrames
import Redpine.EndpointSegments

/-! `flush_stream` in a release build: it ends, and nothing that could be sent is left behind. -/
namespace Redpine
open Machine Buffer Wire Transition

namespace Reliable.TxBuffer

/-- The fragments from the cursor to the end of the queue or of the window. -/
def sendables (b : Reliable.TxBuffer) : List FragmentRc :=
  (b.fragments.take b.sendWindow.size.toNat).drop (b.nextSendId - b.sendWindow.baseId).toNat

variable {b b' : Reliable.TxBuffer} {id : U32} {rc : FragmentRc}

lemma contains_iff_lt (b : Reliable.TxBuffer) :
    b.sendWindow.contains b.nextSendId = true ↔
      (b.nextSendId - b.sendWindow.baseId).toNat < b.sendWindow.size.toNat := by
  rw [Buffer.Window.contains, decide_eq_true_eq, BitVec.lt_def]

lemma sendables_popSendable (h : b.popSendable = (some (id, rc), b')) :
    b.sendables = rc :: b'.sendables := by
  obtain ⟨-, hget, hfragments, hwindow, hnext, hoffset⟩ :=
    FragmentTxBuffers.popSendable_moves h
  have hcontains : b.sendWindow.contains b.nextSendId = true := by
    by_contra hnot
    unfold Reliable.TxBuffer.popSendable at h
    rw [if_neg hnot] at h
    simp at h
  have hlt := b.contains_iff_lt.mp hcontains
  have htake : (b.fragments.take b.sendWindow.size.toNat)[
      (b.nextSendId - b.sendWindow.baseId).toNat]? = some rc := by
    rw [List.getElem?_take_of_lt hlt, hget]
  obtain ⟨hlen, hrc⟩ := List.getElem?_eq_some_iff.mp htake
  unfold sendables
  rw [hfragments, hwindow, hnext, hoffset, List.drop_eq_getElem_cons hlen, hrc]

lemma sendables_eq_nil_of_peek (h : b.peekSendable.isSome = false) : b.sendables = [] := by
  unfold sendables
  rw [List.drop_eq_nil_iff, List.length_take]
  unfold Reliable.TxBuffer.peekSendable at h
  by_cases hcontains : b.sendWindow.contains b.nextSendId = true
  · rw [if_pos hcontains] at h
    cases hget : b.fragments[(b.nextSendId - b.sendWindow.baseId).toNat]? with
    | none =>
      have hle := List.getElem?_eq_none_iff.mp hget
      omega
    | some rc =>
      rw [hget] at h
      cases h
  · have hnot := mt b.contains_iff_lt.mpr hcontains
    omega

end Reliable.TxBuffer

namespace FragmentTxBuffers

/-- The number of queued unreliable fragments and of sendable reliable fragments. -/
def pending (b : FragmentTxBuffers) : ℕ :=
  b.unrel.fragments.length + b.rel.sendables.length

variable {b b' : FragmentTxBuffers} {nowMs : ℕ} {datagram : Datagram} {datagrams : List Datagram}

lemma pending_popExpired (b : FragmentTxBuffers) (nowMs : ℕ) :
    (b.popExpired nowMs).pending ≤ b.pending :=
  Nat.add_le_add_right (b.popExpired_length_le nowMs) _

/-- Each datagram takes one fragment. -/
lemma Pops.pending (h : Pops nowMs b datagram b') : b'.pending + 1 ≤ b.pending := by
  have hexpired := b.popExpired_length_le nowMs
  unfold FragmentTxBuffers.pending
  cases h with
  | unrel hfront hprio =>
    rw [hfront, List.length_cons] at hexpired
    dsimp only
    omega
  | rel hpop hprio =>
    rw [Reliable.TxBuffer.sendables_popSendable hpop, List.length_cons]
    dsimp only
    omega

lemma Sends.pending (h : Sends nowMs b datagrams b') :
    b'.pending + datagrams.length ≤ b.pending := by
  induction h with
  | done b => simpa using b.pending_popExpired nowMs
  | step hpops _ ih =>
    have hpending := hpops.pending
    rw [List.length_cons]
    omega

end FragmentTxBuffers

namespace Endpoint

/-- The frame is of one of the two types that carry an ack. -/
def carriesAck (frameBytes : Bytes) : Bool :=
  match readType .release frameBytes with
  | .ok (some .streamAck) | .ok (some .streamSegmentAck) => true
  | _ => false

section Run
variable {bd : Build} {e e' : Endpoint} {nowMs : ℕ} {sendAck ackRel nonce : Bool}
  {calls : List HostCall} {frameBytes : Bytes}

lemma sentFrames_cons (frameBytes : Bytes) (calls : List HostCall) :
    sentFrames (.sendFrame frameBytes :: calls) = frameBytes :: sentFrames calls := rfl

lemma ArmTimer.sentFrames_append {rtoMs : ℕ} {before after : Option RtoTimerState}
    {timerCalls : List HostCall} (h : ArmTimer bd nowMs rtoMs before after timerCalls) :
    sentFrames (timerCalls ++ calls) = sentFrames calls := by
  cases h with
  | set htime => rfl
  | running timer => rfl

lemma mem_sentFrames : frameBytes ∈ sentFrames calls ↔ .sendFrame frameBytes ∈ calls := by
  unfold sentFrames
  rw [List.mem_filterMap]
  constructor
  · rintro ⟨call, hmem, hcall⟩
    cases call with
    | sendFrame frameBytes' =>
      cases hcall
      exact hmem
    | _ => cases hcall
  · intro hmem
    exact ⟨_, hmem, rfl⟩

lemma carriesAck_ackFrame (e : Endpoint) (ackRel : Bool) : carriesAck (e.ackFrame ackRel) = true := by
  unfold carriesAck ackFrame
  rw [readType_frameOf]

lemma carriesAck_segmentFrame (e : Endpoint) (sendAck ackRel nonce : Bool)
    (datagrams : List Datagram) :
    carriesAck (e.segmentFrame sendAck ackRel nonce datagrams) = sendAck := by
  unfold carriesAck segmentFrame
  rw [readType_frameOf]
  cases sendAck <;> rfl

lemma SegmentStep.pending {datagrams : List Datagram} {timerCalls : List HostCall}
    (h : SegmentStep bd nonce nowMs (e.expire nowMs) datagrams e' timerCalls) :
    e'.fragmentTx.pending + 1 ≤ e.fragmentTx.pending := by
  have hsends := h.sends.pending
  have hexpired : (e.expire nowMs).fragmentTx.pending ≤ e.fragmentTx.pending :=
    e.fragmentTx.pending_popExpired nowMs
  have hpos := List.length_pos_iff.mpr h.nonempty
  omega

/-- Every frame takes a fragment from the queues, or it carries nothing but the ack. -/
theorem FlushRun.frames_le (h : FlushRun bd ackRel nowMs sendAck e calls e') :
    (sentFrames calls).length + e'.fragmentTx.pending ≤
      e.fragmentTx.pending + (if sendAck then 1 else 0) := by
  induction h with
  | @stop e hdata =>
    have hexpired : (e.expire nowMs).fragmentTx.pending ≤ e.fragmentTx.pending :=
      e.fragmentTx.pending_popExpired nowMs
    simpa [sentFrames] using hexpired
  | @ack e e' calls hdata rest ih =>
    have hexpired : (e.expire nowMs).fragmentTx.pending ≤ e.fragmentTx.pending :=
      e.fragmentTx.pending_popExpired nowMs
    rw [if_neg (by decide)] at ih
    rw [sentFrames_cons, List.length_cons, if_pos rfl]
    omega
  | segment hdata hstep rest ih =>
    have hpending := hstep.pending
    rw [if_neg (by decide)] at ih
    rw [hstep.timer.sentFrames_append, sentFrames_cons, List.length_cons]
    omega

/-- The first frame carries the ack if there is one, and no other frame does. -/
theorem FlushRun.acks (h : FlushRun bd ackRel nowMs sendAck e calls e') :
    ((sentFrames calls).filter carriesAck).length = if sendAck then 1 else 0 := by
  induction h with
  | stop hdata => rfl
  | @ack e e' calls hdata rest ih =>
    rw [sentFrames_cons, List.filter_cons_of_pos (e.carriesAck_ackFrame ackRel), List.length_cons,
      ih]
    rfl
  | @segment sendAck nonce e e' e'' datagrams timerCalls calls hdata hstep rest ih =>
    have hcarries := e.carriesAck_segmentFrame sendAck ackRel nonce datagrams
    rw [hstep.timer.sentFrames_append, sentFrames_cons]
    cases sendAck with
    | false =>
      rw [List.filter_cons_of_neg (by simp [hcarries]), ih]
    | true =>
      rw [List.filter_cons_of_pos hcarries, List.length_cons, ih]
      rfl

/-- Nothing that may be sent is left. -/
def Exhausted (e : Endpoint) : Prop :=
  (e.fragmentTx.unrel.fragments = [] ∧ e.fragmentTx.rel.sendables = []) ∨
    e.segmentTx.canSend = false ∨ e.ccState.cwnd ≤ e.segmentTx.bytesInTransit

lemma exhausted_of_sendData (h : e.sendData nowMs = false) : (e.expire nowMs).Exhausted := by
  have hnot := mt (e.sendData_iff nowMs).mpr (by simp [h])
  by_cases hcan : e.segmentTx.canSend = true
  · by_cases hcwnd : e.segmentTx.bytesInTransit < e.ccState.cwnd
    · have hsendable : (e.fragmentTx.popExpired nowMs).sendable = false :=
        Bool.eq_false_iff.mpr fun hsendable => hnot ⟨hcan, hcwnd, hsendable⟩
      unfold FragmentTxBuffers.sendable at hsendable
      rw [Bool.or_eq_false_iff] at hsendable
      refine .inl ⟨?_, Reliable.TxBuffer.sendables_eq_nil_of_peek hsendable.2⟩
      have hpeek := hsendable.1
      unfold Unreliable.TxBuffer.peekSendable at hpeek
      change (e.fragmentTx.popExpired nowMs).unrel.fragments = []
      cases hfragments : (e.fragmentTx.popExpired nowMs).unrel.fragments with
      | nil => rfl
      | cons entry rest => simp [hfragments] at hpeek
    · exact .inr (.inr (not_lt.mp hcwnd))
  · exact .inr (.inl (Bool.not_eq_true _ ▸ hcan))

theorem FlushRun.exhausted (h : FlushRun bd ackRel nowMs sendAck e calls e') : e'.Exhausted := by
  induction h with
  | stop hdata => exact exhausted_of_sendData hdata
  | ack hdata rest ih => exact ih
  | segment hdata hstep rest ih => exact ih

end Run

end Endpoint

namespace EndpointFlush
open Endpoint EndpointSegments

/-- An endpoint between two calls, or in a call at the point where `flush_stream` is entered. -/
def Visited (bd : Build) (e : Endpoint) : Prop :=
  Reachable (system bd) e ∨ ∃ e₀ nowMs sendAck ackRel,
    Reachable (system bd) e₀ ∧ FlushEntry bd e₀ nowMs sendAck ackRel e

variable {bd : Build} {e : Endpoint}

lemma sound_reachable (hs : Reachable (system bd) e) : e.Sound bd := by
  have hrule := @Reachable.invariant _ _ (system bd) fun e => e.Sound bd
  refine hrule (fun _ => sound_initial) (fun e call e' h hstep => ?_) hs
  obtain ⟨calls, hok⟩ := hstep
  exact (h.perform hok).2

lemma Visited.sender (h : Visited bd e) (nowMs : ℕ) : ∃ v, e.Sender bd False nowMs v := by
  rcases h with hs | ⟨e₀, nowMs₀, sendAck, ackRel, hs, hentry⟩
  · obtain ⟨v, hsender⟩ := sound_reachable hs
    exact ⟨v, hsender.later False.elim⟩
  · obtain ⟨v, hsender⟩ := sound_reachable hs
    obtain ⟨⟨v', hsender'⟩, -⟩ := hentry.sender (hsender.later False.elim)
    exact ⟨v', hsender'.later False.elim⟩

/-- `flush_stream` returns after a bounded number of frames, all of which fit, and one of which
carries an ack if one is requested; and nothing that may be sent is left. -/
theorem flushStream_maximal (h : Visited .release e) (nonces : ℕ → Bool) (sendAck ackRel : Bool)
    (nowMs : ℕ) :
    ∃ e' calls, e.flushStream .release nonces sendAck ackRel nowMs = .ok (e', calls) ∧
      (sentFrames calls).length ≤
        e.fragmentTx.unrel.fragments.length + e.fragmentTx.rel.sendables.length + 1 ∧
      (∀ frameBytes ∈ sentFrames calls, frameBytes.length ≤ 1472) ∧
      ((sentFrames calls).filter carriesAck).length = (if sendAck then 1 else 0) ∧
      ((e'.fragmentTx.unrel.fragments = [] ∧ e'.fragmentTx.rel.sendables = []) ∨
        e'.segmentTx.canSend = false ∨ e'.ccState.cwnd ≤ e'.segmentTx.bytesInTransit) := by
  obtain ⟨v, hsender⟩ := h.sender nowMs
  have hstrict : True → Build.release = .debug → False ∧ nowMs < 2 ^ 62 := by simp
  have hspec := hsender.flushStream_fits hstrict nonces sendAck ackRel
  obtain ⟨⟨e', calls⟩, hok, hrun, hfit⟩ := hspec.exists_ok trivial
  have hframes := hrun.frames_le
  refine ⟨e', calls, hok, ?_, fun frameBytes hmem => ?_, hrun.acks, hrun.exhausted⟩
  · have hone : (if sendAck then 1 else 0) ≤ 1 := by split_ifs <;> omega
    unfold FragmentTxBuffers.pending at hframes
    dsimp only at hframes
    omega
  · exact hfit frameBytes (mem_sentFrames.mp hmem)

/-- An endpoint with one packet in its queue. -/
theorem flushStream_maximal_sample : ∃ e e' calls, Visited .release e ∧
    e.fragmentTx.unrel.fragments.length + e.fragmentTx.rel.sendables.length = 1 ∧
    e.flushStream .release (fun _ => true) true true 0 = .ok (e', calls) ∧
    (sentFrames calls).length ≤ 2 ∧ ((sentFrames calls).filter carriesAck).length = 1 := by
  have hrun : ((interpreter .release).exec (enqueueFirst [7])).map
        (fun e => e.fragmentTx.unrel.fragments.length + e.fragmentTx.rel.sendables.length) =
      some 1 := by
    rfl
  obtain ⟨e, hexec, hpending⟩ := Option.map_eq_some_iff.mp hrun
  obtain ⟨past, run, -⟩ := Executable.exec_run _ hexec
  have hvisited : Visited .release e := .inl ⟨past, run⟩
  obtain ⟨e', calls, hok, hframes, -, hacks, -⟩ :=
    flushStream_maximal hvisited (fun _ => true) true true 0
  rw [hpending] at hframes
  exact ⟨e, e', calls, hvisited, hpending, hok, hframes, hacks⟩

end EndpointFlush

end Redpine
