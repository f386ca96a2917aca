import Redpine.EndpointFlush
import Redpine.EndpointTimeout

/-! How many frames an endpoint sends, whatever its peer does: each one is paid for by a fragment
that the user has enqueued, by a frame that has been received, or by a timer that has fired. -/
namespace Redpine
open Machine Buffer Wire

/-- The number of fragments that have been sent since the window was last sent again. -/
def Reliable.TxBuffer.inFlight (b : Reliable.TxBuffer) : ℕ :=
  (b.nextSendId - b.sendWindow.baseId).toNat

namespace FragmentTxBuffers

/-- The number of fragments that are to be sent, for the first time or again. -/
def unsent (b : FragmentTxBuffers) : ℕ :=
  b.unrel.fragments.length + (b.rel.fragments.length - b.rel.inFlight)

/-- The number of fragments that an ack may cause to be sent again: the third duplicate does. -/
def restarts (b : FragmentTxBuffers) : ℕ :=
  if b.rel.duplicateAckCount = 2 then b.rel.inFlight else 0

section Unsent
variable {bd : Build} {b b' : FragmentTxBuffers} {nowMs : ℕ} {datagram : Datagram}
  {datagrams : List Datagram} {safe : Prop} {all : List FragmentRc}
  {fragmentSize discarded cursor sent : ℕ}

lemma unsent_popExpired (b : FragmentTxBuffers) (nowMs : ℕ) :
    (b.popExpired nowMs).unsent ≤ b.unsent :=
  Nat.add_le_add_right (b.popExpired_length_le nowMs) _

/-- Each datagram takes one fragment. -/
lemma Pops.unsent (h : Pops nowMs b datagram b') : b'.unsent + 1 ≤ b.unsent := by
  have hexpired := b.popExpired_length_le nowMs
  unfold FragmentTxBuffers.unsent Reliable.TxBuffer.inFlight
  cases h with
  | unrel hfront hprio =>
    rw [hfront, List.length_cons] at hexpired
    dsimp only
    omega
  | rel hpop hprio =>
    obtain ⟨-, hget, hfragments, hwindow, hnext, hoffset⟩ := popSendable_moves hpop
    have hlt := (List.getElem?_eq_some_iff.mp hget).1
    dsimp only
    rw [hfragments, hwindow, hnext, hoffset]
    omega

lemma Pops.window_eq (h : Pops nowMs b datagram b') :
    b'.rel.sendWindow.size = b.rel.sendWindow.size := by
  cases h with
  | unrel hfront hprio => rfl
  | rel hpop hprio => exact congrArg Window.size (Reliable.TxBuffer.popSendable_frame hpop).2

lemma Sends.unsent (h : Sends nowMs b datagrams b') :
    b'.unsent + datagrams.length ≤ b.unsent := by
  induction h with
  | done b => simpa using b.unsent_popExpired nowMs
  | step hpops _ ih =>
    have hunsent := hpops.unsent
    rw [List.length_cons]
    omega

lemma Sends.window_eq (h : Sends nowMs b datagrams b') :
    b'.rel.sendWindow.size = b.rel.sendWindow.size := by
  induction h with
  | done b => rfl
  | step hpops _ ih => exact ih.trans hpops.window_eq

/-- A packet adds its fragments. -/
lemma enqueue_unsent {packetBytes : Bytes} {mode : SendMode}
    (hrel : b.rel.fragmentSize = fragmentSize) (hunrel : b.unrel.fragmentSize = fragmentSize)
    (h : b.enqueue bd packetBytes mode nowMs = .ok b') :
    b'.unsent ≤ b.unsent + (fragmentsOf fragmentSize packetBytes).length ∧
      b'.rel.sendWindow.size = b.rel.sendWindow.size := by
  subst hrel
  cases mode with
  | reliable =>
    cases h
    have hlen : (b.rel.push packetBytes).fragments.length = b.rel.fragments.length +
        (fragmentsOf b.rel.fragmentSize packetBytes).length := List.length_append
    have hinFlight : (b.rel.push packetBytes).inFlight = b.rel.inFlight := rfl
    refine ⟨?_, rfl⟩
    unfold unsent
    dsimp only
    omega
  | unreliable timeoutMs =>
    obtain ⟨first, -, h⟩ := bind_eq_ok.mp h
    obtain ⟨expireTimeMs, -, h⟩ := bind_eq_ok.mp h
    cases h
    have hlen : (b.unrel.push packetBytes expireTimeMs).fragments.length =
        b.unrel.fragments.length + (fragmentsOf b.rel.fragmentSize packetBytes).length := by
      rw [← hunrel]
      simp [Unreliable.TxBuffer.push]
    refine ⟨?_, rfl⟩
    unfold unsent
    dsimp only
    omega

lemma Sound.inFlight_eq (h : b.Sound safe fragmentSize 0 all discarded cursor sent) :
    b.rel.inFlight = cursor - discarded := h.rel.nextSend_sub

lemma Sound.unsent_eq (h : b.Sound safe fragmentSize 0 all discarded cursor sent) :
    b.unsent = b.unrel.fragments.length + (all.length - cursor) := by
  have hdiscarded := h.rel.discarded_le
  rw [unsent, h.inFlight_eq, h.rel.fragments_eq, List.length_drop]
  omega

/-- Once the cursor is back at the base, what was in flight is to be sent again. -/
lemma Sound.unsent_restart (h : b.Sound safe fragmentSize 0 all discarded cursor sent)
    (h' : b'.Sound safe fragmentSize 0 all discarded discarded sent)
    (hunrel : b'.unrel = b.unrel) :
    b'.unsent = b.unsent + b.rel.inFlight := by
  have hdiscarded := h.rel.discarded_le
  have hcursor := h.rel.cursor_le
  have hsent := h.rel.sent_le
  rw [h.unsent_eq, h'.unsent_eq, h.inFlight_eq, hunrel]
  omega

/-- An ack adds nothing unless it is the third duplicate. -/
lemma Sound.unsent_acknowledge (h : b.Sound safe fragmentSize 0 all discarded cursor sent)
    {id : Option U32} (hok : b.acknowledge bd id = .ok b') :
    b'.unsent ≤ b.unsent + b.restarts ∧ b'.rel.sendWindow.size = b.rel.sendWindow.size := by
  cases id with
  | none =>
    cases hok
    exact ⟨Nat.le_add_right _ _, rfl⟩
  | some id =>
    obtain ⟨⟨rel, ok⟩, hrel, hok⟩ := bind_eq_ok.mp hok
    cases hok
    obtain ⟨hsize, hwindow⟩ := Reliable.TxBuffer.acknowledge_frame hrel
    refine ⟨?_, hwindow⟩
    rcases h.rel.ack_cases id with rfl | ⟨n, hpos, hn, rfl⟩ | hgt
    · obtain ⟨rel', hrel', -, hat⟩ := h.rel.acknowledge_duplicate bd
      cases hrel.symm.trans hrel'
      have h' := h.of_rel hat hsize
      unfold restarts
      by_cases htwo : b.rel.duplicateAckCount = 2
      · simp only [if_pos htwo] at h' ⊢
        exact (h.unsent_restart h' rfl).le
      · simp only [if_neg htwo] at h' ⊢
        exact (h'.unsent_eq.trans h.unsent_eq.symm).le
    · obtain ⟨rel', hrel', -, hat⟩ := h.rel.acknowledge_advance bd hpos hn
      cases hrel.symm.trans hrel'
      rw [h.unsent_eq, (h.of_rel hat hsize).unsent_eq]
      dsimp only
      omega
    · cases hrel.symm.trans (h.rel.acknowledge_invalid hgt)
      exact Nat.le_add_right _ _

end Unsent

end FragmentTxBuffers

namespace Endpoint

/-- The frames that are answered with an ack. -/
def answered : Input → ℕ
  | .frame .streamSegment _ | .frame .streamSegmentAck _ | .frame .streamSync _ => 1
  | _ => 0

/-- The number of frames that a call may send, at once or later on. -/
def credit (e : Endpoint) : Input → ℕ
  | .enqueue packetBytes _ => (fragmentsOf fragmentSize packetBytes).length
  | .disconnect => 1
  | .rtoTimer => e.fragmentTx.rel.inFlight + 1
  | .frame .streamSegment _ => 1
  | .frame .streamAck _ => e.fragmentTx.restarts
  | .frame .streamSegmentAck _ => 1 + e.fragmentTx.restarts
  | .frame .streamSync _ => 1
  | .frame .close _ => 1
  | _ => 0

/-- The calls send no more frames than they are given, but for the fragments that were waiting,
and no more acks. -/
structure Pays (e : Endpoint) (calls : List HostCall) (e' : Endpoint) (frames acks : ℕ) :
    Prop where
  frames_le : (sentFrames calls).length + e'.fragmentTx.unsent ≤ e.fragmentTx.unsent + frames
  acks_le : ((sentFrames calls).filter carriesAck).length ≤ acks
  window_eq : e'.fragmentTx.rel.sendWindow.size = e.fragmentTx.rel.sendWindow.size

section Calls
variable {bd : Build} {e e' : Endpoint} {nowMs frames acks : ℕ} {v : SenderView}
  {calls : List HostCall} {sendAck ackRel nonce readAck : Bool} {nonces : ℕ → Bool}
  {input : Input}

lemma Pays.mono {frames' acks' : ℕ} (h : Pays e calls e' frames acks) (hframes : frames ≤ frames')
    (hacks : acks ≤ acks') : Pays e calls e' frames' acks' :=
  ⟨h.frames_le.trans (Nat.add_le_add_left hframes _), h.acks_le.trans hacks, h.window_eq⟩

/-- Calls that send no frame come first. -/
lemma Pays.after {e₁ : Endpoint} {silent : List HostCall} {more : ℕ}
    (h : Pays e₁ calls e' frames acks) (hsilent : sentFrames silent = [])
    (hunsent : e₁.fragmentTx.unsent ≤ e.fragmentTx.unsent + more)
    (hwindow : e₁.fragmentTx.rel.sendWindow.size = e.fragmentTx.rel.sendWindow.size) :
    Pays e (silent ++ calls) e' (more + frames) acks := by
  have hcalls : sentFrames (silent ++ calls) = sentFrames calls := by
    rw [sentFrames, List.filterMap_append, ← sentFrames, hsilent, List.nil_append, sentFrames]
  have hframes := h.frames_le
  refine ⟨?_, hcalls ▸ h.acks_le, h.window_eq.trans hwindow⟩
  rw [hcalls]
  omega

lemma sentFrames_eq_nil (h : ∀ frameBytes, .sendFrame frameBytes ∉ calls) :
    sentFrames calls = [] :=
  List.eq_nil_iff_forall_not_mem.mpr fun frameBytes hmem => h frameBytes (mem_sentFrames.mp hmem)

/-- The queues are left alone, and nothing is sent. -/
lemma Pays.silent (hqueues : e'.fragmentTx = e.fragmentTx) (hcalls : sentFrames calls = []) :
    Pays e calls e' frames acks := by
  refine ⟨?_, ?_, by rw [hqueues]⟩ <;> rw [hcalls]
  · simp [hqueues]
  · exact Nat.zero_le _

/-- Of the frames, only those of two types carry an ack. -/
lemma carriesAck_frameOf {frameType : FrameType} (hack : frameType ≠ .streamAck)
    (hsegmentAck : frameType ≠ .streamSegmentAck) (p : Bytes) :
    carriesAck (frameOf frameType p) = false := by
  unfold carriesAck
  rw [readType_frameOf]
  cases frameType <;> first | rfl | contradiction

/-- The queues are left alone, and one frame without an ack is sent. -/
lemma Pays.single {frameBytes : Bytes} (hqueues : e'.fragmentTx = e.fragmentTx)
    (hcalls : sentFrames calls = [frameBytes]) (hcarries : carriesAck frameBytes = false) :
    Pays e calls e' (frames + 1) acks := by
  refine ⟨?_, ?_, by rw [hqueues]⟩ <;> rw [hcalls]
  · rw [hqueues, List.length_singleton]
    omega
  · simp [hcarries]

lemma SegmentStep.unsent {datagrams : List Datagram} {timerCalls : List HostCall}
    (h : SegmentStep bd nonce nowMs (e.expire nowMs) datagrams e' timerCalls) :
    e'.fragmentTx.unsent + 1 ≤ e.fragmentTx.unsent := by
  have hsends := h.sends.unsent
  have hexpired : (e.expire nowMs).fragmentTx.unsent ≤ e.fragmentTx.unsent :=
    e.fragmentTx.unsent_popExpired nowMs
  have hpos := List.length_pos_iff.mpr h.nonempty
  omega

lemma FlushRun.unsent (h : FlushRun bd ackRel nowMs sendAck e calls e') :
    (sentFrames calls).length + e'.fragmentTx.unsent ≤
        e.fragmentTx.unsent + (if sendAck then 1 else 0) ∧
      e'.fragmentTx.rel.sendWindow.size = e.fragmentTx.rel.sendWindow.size := by
  induction h with
  | @stop e hdata =>
    have hexpired : (e.expire nowMs).fragmentTx.unsent ≤ e.fragmentTx.unsent :=
      e.fragmentTx.unsent_popExpired nowMs
    exact ⟨by simpa [sentFrames] using hexpired, rfl⟩
  | @ack e e' calls hdata rest ih =>
    have hexpired : (e.expire nowMs).fragmentTx.unsent ≤ e.fragmentTx.unsent :=
      e.fragmentTx.unsent_popExpired nowMs
    obtain ⟨hframes, hwindow⟩ := ih
    rw [if_neg (by decide)] at hframes
    refine ⟨?_, hwindow⟩
    rw [sentFrames_cons, List.length_cons, if_pos rfl]
    omega
  | segment hdata hstep rest ih =>
    have hunsent := hstep.unsent
    obtain ⟨hframes, hwindow⟩ := ih
    rw [if_neg (by decide)] at hframes
    refine ⟨?_, hwindow.trans hstep.sends.window_eq⟩
    rw [hstep.timer.sentFrames_append, sentFrames_cons, List.length_cons]
    omega

lemma FlushRun.pays (h : FlushRun bd ackRel nowMs sendAck e calls e') :
    Pays e calls e' (if sendAck then 1 else 0) (if sendAck then 1 else 0) :=
  ⟨h.unsent.1, h.acks.le, h.unsent.2⟩

lemma AckPart.unsent {r r' : PayloadReader}
    (hs : AckPart bd nowMs e r readAck (some (e', r', calls))) (h : e.Sender bd False nowMs v) :
    e'.fragmentTx.unsent ≤ e.fragmentTx.unsent + (if readAck then e.fragmentTx.restarts else 0) ∧
      e'.fragmentTx.rel.sendWindow.size = e.fragmentTx.rel.sendWindow.size := by
  cases hs with
  | absent => exact ⟨Nat.le_add_right _ _, rfl⟩
  | ack hread hstep => exact h.queues.unsent_acknowledge hstep.fragmentTx

lemma DataPart.queues_eq {r : PayloadReader} {d : Delivery} (hs : DataPart bd e r (e', d)) :
    e'.fragmentTx = e.fragmentTx := by
  cases hs with
  | absent => rfl
  | segment hread hbytes hreceive hdelivery => rfl

/-- A stream frame is answered with an ack only if it has a segment. -/
lemma handleStreamFrame_pays (h : e.Sender bd False nowMs v) {frameType : FrameType}
    {payloadBytes : Bytes} {readData : Bool}
    (hparts : streamParts frameType = .ok (readAck, readData))
    (hok : e.handleStreamFrame bd nonces frameType payloadBytes nowMs = .ok (e', calls)) :
    Pays e calls e' ((if readAck then e.fragmentTx.restarts else 0) + (if readData then 1 else 0))
      (if readData then 1 else 0) := by
  obtain ⟨_, hparts', hok⟩ := bind_eq_ok.mp hok
  cases hparts.symm.trans hparts'
  obtain ⟨ackPart, hread, hok⟩ := bind_eq_ok.mp hok
  have hr : (PayloadReader.new payloadBytes).readIdx ≤
      (PayloadReader.new payloadBytes).buffer.length := Nat.zero_le _
  obtain ⟨hack, hframe⟩ := (readAckPart_spec h False.elim readAck hr).elim hread
  cases ackPart with
  | none =>
    cases hok
    exact .silent rfl rfl
  | some ackPart =>
    obtain ⟨e₁, r, ackCalls⟩ := ackPart
    obtain ⟨hbuffer, hle, -⟩ := hframe e₁ r ackCalls rfl
    obtain ⟨_, _, _, h₁⟩ := hack.sender h
    obtain ⟨⟨e₂, d⟩, hread₂, hok⟩ := bind_eq_ok.mp hok
    have hrecv : Receives False e₁ r.buffer := False.elim
    have hdata := (readDataPart_spec readData (hbuffer ▸ hle) hrecv).elim hread₂
    obtain ⟨⟨e₃, flushCalls⟩, hflush, hok⟩ := bind_eq_ok.mp hok
    cases hok
    have hsilent : sentFrames (ackCalls ++ d.calls) = [] :=
      sentFrames_eq_nil fun frameBytes hmem =>
        (List.mem_append.mp hmem).elim hack.not_frame (receive_not_frame hdata.isReceive)
    have hsendAck : (if d.sendAck then 1 else 0) ≤ if readData then 1 else 0 := by
      cases readData with
      | true => cases d.sendAck <;> decide
      | false =>
        cases hread₂
        exact le_rfl
    have hrun := ((hdata.sender h₁).flushStream False.elim nonces d.sendAck d.ackRel).elim hflush
    obtain ⟨hunsent, hwindow⟩ := hack.unsent h
    rw [← hdata.queues_eq] at hunsent hwindow
    exact (hrun.pays.after hsilent hunsent hwindow).mono (Nat.add_le_add_left hsendAck _) hsendAck

/-- Every call pays for the frames it sends. -/
theorem Effect.pays (hs : Effect bd nowMs e input calls e') (h : e.Sender bd False nowMs v)
    (hok : e.perform bd nonces input nowMs = .ok (e', calls)) :
    Pays e calls e' (e.credit input) (answered input) := by
  cases hs with
  | enqueue hs hqueue =>
    obtain ⟨hunsent, hwindow⟩ :=
      FragmentTxBuffers.enqueue_unsent h.queues.relSize h.queues.unrelSize hqueue
    exact ⟨(Nat.zero_add _).trans_le hunsent, Nat.zero_le _, hwindow⟩
  | flush hs hflush => exact hflush.pays
  | disconnect hs htime =>
    exact .single rfl rfl (carriesAck_frameOf (by decide) (by decide) _)
  | @stream frameType payloadBytes _ _ hs hrun =>
    have hhandled := hrun.handled hs hok
    have hparts : ∃ parts, streamParts frameType = .ok parts := by
      cases hrun with
      | truncated hparts => exact ⟨_, hparts⟩
      | run hparts => exact ⟨_, hparts⟩
    obtain ⟨⟨readAck, readData⟩, hparts⟩ := hparts
    have hpays := handleStreamFrame_pays h hparts hhandled
    cases frameType with
    | streamSegment | streamAck | streamSegmentAck =>
      cases hparts
      exact hpays.mono (by simp [credit, Nat.add_comm]) le_rfl
    | _ => cases hparts
  | sync hs hrun =>
    cases hrun with
    | truncated => exact .silent rfl rfl
    | run hread hsync hdelivery hflush =>
      have hsilent := sentFrames_eq_nil fun _ => receive_not_frame (segments_calls hdelivery)
      exact hflush.pays.after hsilent (Nat.le_add_right _ 0) rfl
  | close hs hvalid htime =>
    exact .single rfl rfl (carriesAck_frameOf (by decide) (by decide) _)
  | closeAgain hs hvalid =>
    exact .single rfl rfl (carriesAck_frameOf (by decide) (by decide) _)
  | @resend timer rtoMs rtoSumMs timeMs ccState flushCalls _ hs htimer hback hcc hflush =>
    have hrestart := h.queues.unsent_restart h.queues.handleTimeout rfl
    have hquiet : carriesAck (syncFrame e.segmentTx.nextId) = false :=
      carriesAck_frameOf (by decide) (by decide) _
    have hframes := hflush.pays.frames_le
    have hacks := hflush.pays.acks_le
    refine ⟨?_, ?_, hflush.pays.window_eq⟩
    · change (sentFrames flushCalls).length + 1 + e'.fragmentTx.unsent ≤
        e.fragmentTx.unsent + (e.fragmentTx.rel.inFlight + 1)
      change _ ≤ e.fragmentTx.handleTimeout.unsent + 0 at hframes
      omega
    · change ((syncFrame e.segmentTx.nextId :: sentFrames flushCalls).filter carriesAck).length ≤ 0
      rw [List.filter_cons_of_neg (by simp [hquiet])]
      exact hacks
  | resendClose hs htimer hback =>
    exact .single rfl rfl (carriesAck_frameOf (by decide) (by decide) _)
  | _ => exact .silent rfl rfl

end Calls

end Endpoint

namespace EndpointTraffic
open Endpoint Transition

/-- A call of the host, with the calls that it is answered with. -/
def Step (bd : Build) (e : Endpoint) (call : EndpointTimeout.Call) (e' : Endpoint) : Prop :=
  e.perform bd call.nonces call.input call.nowMs = .ok (e', call.calls)

def system (bd : Build) : System Endpoint EndpointTimeout.Call :=
  ⟨EndpointSegments.Initial bd, Step bd⟩

section Runs
variable {bd : Build} {past : List (Endpoint × EndpointTimeout.Call)} {e e' : Endpoint}
  {call : EndpointTimeout.Call}

/-- The sending half is sound, and the fragment window has its size. -/
def Balanced (bd : Build) (e : Endpoint) : Prop :=
  e.Sound bd ∧ e.fragmentTx.rel.sendWindow.size = fragmentWindowSize

lemma Balanced.pays (h : Balanced bd e) (hstep : Step bd e call e') :
    Pays e call.calls e' (e.credit call.input) (answered call.input) := by
  obtain ⟨v, hsender⟩ := h.1
  have hsender : e.Sender bd False call.nowMs v := hsender.later False.elim
  exact (hsender.perform False.elim hstep).pays hsender hstep

lemma new_window {config : Endpoint.Config} (hconfig : config.Accepted bd)
    (h : Endpoint.new config = .ok e) :
    e.fragmentTx.rel.sendWindow.size = fragmentWindowSize := by
  obtain ⟨weights, burstSize, hprio⟩ := hconfig
  unfold Endpoint.new at h
  obtain ⟨segmentTx, -, h⟩ := bind_eq_ok.mp h
  obtain ⟨fragmentTx, hfragment, h⟩ := bind_eq_ok.mp h
  obtain ⟨ccState, -, h⟩ := bind_eq_ok.mp h
  obtain ⟨unreliableRx, -, h⟩ := bind_eq_ok.mp h
  obtain ⟨reliableRx, -, h⟩ := bind_eq_ok.mp h
  cases h
  exact (FragmentTxBuffers.new_sound False (Prio.Config.new_valid hprio) hfragment).2

lemma unsent_initial (h : EndpointSegments.Initial bd e) : e.fragmentTx.unsent = 0 := by
  obtain ⟨config, hconfig, hnew⟩ := h
  rw [(new_sender bd False 0 hconfig hnew).queues.unsent_eq, (new_fresh hnew).unrel_eq.1]
  rfl

lemma balanced_reachable (hs : Reachable (system bd) e) : Balanced bd e := by
  have hrule := @Reachable.invariant _ _ (system bd) (Balanced bd)
  refine hrule (fun e h => ⟨EndpointSegments.sound_initial h, ?_⟩) (fun e call e' h hstep => ?_) hs
  · obtain ⟨config, hconfig, hnew⟩ := h
    exact new_window hconfig hnew
  · exact ⟨(h.1.perform hstep).2, (h.pays hstep).window_eq.trans h.2⟩

lemma Balanced.inFlight_le (h : Balanced bd e) : e.fragmentTx.rel.inFlight ≤ 4096 := by
  obtain ⟨⟨v, hsender⟩, hsize⟩ := h
  have hwindow := hsender.queues.rel.sent_window
  have hcursor := hsender.queues.rel.cursor_le
  rw [hsize, show fragmentWindowSize.toNat = 4096 from rfl] at hwindow
  rw [hsender.queues.inFlight_eq]
  omega

/-- In any run, whatever the peer sends, each frame that the endpoint sends is paid for by a
fragment that was enqueued, by a frame that was received, by a call of the user or a timer, or by
a fragment that is sent again; it sends no more acks than it has received frames with a segment
and requests for a resynchronization; and no call that is given neither sends an ack. -/
theorem frames_paid (run : Run (system bd) past e) :
    (past.map fun p => (sentFrames p.2.calls).length).sum ≤
        (past.map fun p => p.1.credit p.2.input).sum ∧
      (past.map fun p => ((sentFrames p.2.calls).filter carriesAck).length).sum ≤
        (past.map fun p => answered p.2.input).sum ∧
      ∀ p ∈ past, p.1.fragmentTx.rel.inFlight ≤ 4096 ∧
        ((sentFrames p.2.calls).filter carriesAck).length ≤ answered p.2.input := by
  have hpays : ∀ e call e', Reachable (system bd) e → Step bd e call e' →
      Pays e call.calls e' (e.credit call.input) (answered call.input) :=
    fun e call e' hs => (balanced_reachable hs).pays
  refine ⟨?_, ?_, ?_⟩
  · have hframes := run.amortized (fun _ h => (unsent_initial h).le)
      fun e call e' hs hstep => (hpays e call e' hs hstep).frames_le
    omega
  · have hacks := run.amortized (fun _ _ => le_refl 0)
      fun e call e' hs hstep => (hpays e call e' hs hstep).acks_le.trans (Nat.zero_add _).ge
    omega
  · induction run with
    | init h => simp
    | step run hlast ih =>
      intro p hp
      rcases List.mem_append.mp hp with hp | hp
      · exact ih p hp
      · obtain rfl := List.mem_singleton.mp hp
        exact ⟨(balanced_reachable ⟨_, run⟩).inFlight_le, (hpays _ _ _ ⟨_, run⟩ hlast).acks_le⟩

end Runs

section Sample

/-- A call on the endpoint at the end of a run. -/
def record (bd : Build) (r : List (Endpoint × EndpointTimeout.Call) × Endpoint)
    (call : EndpointSegments.Call) :
    Option (List (Endpoint × EndpointTimeout.Call) × Endpoint) :=
  match r.2.perform bd call.nonces call.input call.nowMs with
  | .ok (e, calls) => some (r.1 ++ [(r.2, ⟨call.input, call.nowMs, call.nonces, calls⟩)], e)
  | .error _ => none

lemma record_run {bd : Build} {calls : List EndpointSegments.Call}
    {r r' : List (Endpoint × EndpointTimeout.Call) × Endpoint} (run : Run (system bd) r.1 r.2)
    (h : calls.foldlM (record bd) r = some r') : Run (system bd) r'.1 r'.2 := by
  refine replay_invariant (motive := fun r => Run (system bd) r.1 r.2) h run
    fun r₁ call _ r₂ run₁ hrecord => ?_
  unfold record at hrecord
  cases hok : r₁.2.perform bd call.nonces call.input call.nowMs with
  | error error => simp [hok] at hrecord
  | ok result =>
    rw [hok] at hrecord
    cases hrecord
    exact run₁.step hok

/-- One packet is sent, and the peer acknowledges three times that it has not received it. -/
def duplicates : List EndpointSegments.Call :=
  EndpointSegments.enqueueFirst [7] ++ [⟨.flush, 0, fun _ => false⟩] ++
    List.replicate 3 ⟨.frame .streamAck (LawfulBlock.encode (StreamAck.mk 0 0 false (some 0))), 50,
      fun _ => false⟩

/-- The frames that are sent in a run, those that may be sent, and the acks that may be sent. -/
def ledger (past : List (Endpoint × EndpointTimeout.Call)) : ℕ × ℕ × ℕ :=
  ((past.map fun p => (sentFrames p.2.calls).length).sum,
    (past.map fun p => p.1.credit p.2.input).sum, (past.map fun p => answered p.2.input).sum)

/-- The frame is sent again, and the budget is used up. -/
theorem frames_paid_sample : ∃ (past : List (Endpoint × EndpointTimeout.Call)) (e : Endpoint),
    Run (system .debug) past e ∧ (past.map fun p => (sentFrames p.2.calls).length).sum = 2 ∧
      (past.map fun p => (sentFrames p.2.calls).length).sum ≤
        (past.map fun p => p.1.credit p.2.input).sum ∧
      (past.map fun p => p.1.credit p.2.input).sum = 2 ∧
      (past.map fun p => ((sentFrames p.2.calls).filter carriesAck).length).sum ≤ 0 := by
  have hledger : ((EndpointSegments.start (sampleConfig 10000)).bind fun e =>
      duplicates.foldlM (record .debug) ([], e)).map (fun r => ledger r.1) =
        some (2, 2, 0) := by decide +kernel
  obtain ⟨⟨past, e'⟩, hrecord, hcounts⟩ := Option.map_eq_some_iff.mp hledger
  obtain ⟨e, hstart, hrecord⟩ := Option.bind_eq_some_iff.mp hrecord
  have run := record_run (.init (EndpointSegments.start_initial hstart)) hrecord
  obtain ⟨hframes, hacks, -⟩ := frames_paid run
  simp only [ledger, Prod.mk.injEq] at hcounts
  obtain ⟨hsent, hcredit, hanswered⟩ := hcounts
  rw [hanswered] at hacks
  exact ⟨past, e', run, hsent, hframes, hcredit, hacks⟩

end Sample

end EndpointTraffic

end Redpine
