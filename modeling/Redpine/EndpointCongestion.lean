import Redpine.EndpointFlush
import Redpine.EndpointOutbox

/-! What the congestion window promises over a whole run: an endpoint adds to the bytes in transit
only while they are below the window, so they never exceed the largest window so far by a frame. -/
namespace Redpine
open Machine Buffer Wire

namespace Endpoint

/-- No segment is sent and the bytes in transit do not grow, or the last segment was sent while
they were below the window. -/
def Throttled (bd : Build) (e : Endpoint) (calls : List HostCall) (e' : Endpoint) : Prop :=
  (e'.segmentTx.bytesInTransit ≤ e.segmentTx.bytesInTransit ∧
      ∀ call ∈ calls, carriesSegment bd call = false) ∨
    e'.segmentTx.bytesInTransit < e'.ccState.cwnd + frameSizeMax

section Transit
variable {bd : Build} {e e' e'' : Endpoint} {nowMs : ℕ} {v : SenderView} {calls : List HostCall}
  {sendAck ackRel nonce : Bool} {datagrams : List Datagram} {input : Input}

/-- The count of bytes in transit is that of the segments that are not acknowledged. -/
lemma Sender.transit_eq (h : e.Sender bd False nowMs v) :
    e.segmentTx.bytesInTransit = (v.sizes.drop v.acked).sum := by
  have hsum := List.sum_le_card_nsmul (v.sizes.drop v.acked) frameSizeMax
    (fun x hx => h.sizes_le x (List.mem_of_mem_drop hx))
  have hwindow := h.window.window_le
  have hlen : (v.sizes.drop v.acked).length ≤ 2 ^ 12 := by
    rw [List.length_drop]
    omega
  have hle : (v.sizes.drop v.acked).sum ≤ 2 ^ 12 * frameSizeMax :=
    hsum.trans (Nat.mul_le_mul_right _ hlen)
  have hlt : (v.sizes.drop v.acked).sum < 2 ^ 64 := hle.trans_lt (by norm_num [frameSizeMax])
  exact h.window.total.1.trans (Nat.mod_eq_of_lt hlt)

/-- An ack never adds to the bytes in transit. -/
lemma AckStep.transit_le {ack : StreamAck} (hs : AckStep bd nowMs e ack e' calls)
    (h : e.Sender bd False nowMs v) :
    e'.segmentTx.bytesInTransit ≤ e.segmentTx.bytesInTransit := by
  obtain ⟨acked, discarded, cursor, hle, -, -, h'⟩ := hs.sender h
  rw [h.transit_eq, h'.transit_eq]
  have hdrop : v.sizes.drop acked = (v.sizes.drop v.acked).drop (acked - v.acked) := by
    rw [List.drop_drop, Nat.add_sub_cancel' hle]
  dsimp only
  rw [hdrop]
  exact (List.drop_sublist _ _).sum_le_sum fun _ _ => Nat.zero_le _

/-- A segment adds its size. -/
lemma SegmentStep.transit_eq (hs : SegmentStep bd nonce nowMs e datagrams e' calls)
    (h : e.Sender bd False nowMs v) :
    e'.segmentTx.bytesInTransit =
      e.segmentTx.bytesInTransit + (datagrams.map (·.data.length)).sum := by
  obtain ⟨cursor, sent, -, -, h'⟩ := hs.sender h
  rw [h.transit_eq, h'.transit_eq]
  dsimp only
  rw [List.drop_append_of_le_length h.window.acked_le, List.sum_append, List.sum_singleton]

lemma FlushRun.ccState_eq (hs : FlushRun bd ackRel nowMs sendAck e calls e') :
    e'.ccState = e.ccState := by
  induction hs with
  | stop hdata => rfl
  | ack hdata rest ih => exact ih
  | segment hdata hstep rest ih => exact ih.trans hstep.ccState_eq

lemma Throttled.still (h : e'.segmentTx.bytesInTransit ≤ e.segmentTx.bytesInTransit)
    (hcalls : ∀ call ∈ calls, carriesSegment bd call = false) : Throttled bd e calls e' :=
  .inl ⟨h, hcalls⟩

/-- Calls that send no segment come first, and do not add to the bytes in transit. -/
lemma Throttled.after {e₁ : Endpoint} {more : List HostCall} (h : Throttled bd e₁ more e')
    (hle : e₁.segmentTx.bytesInTransit ≤ e.segmentTx.bytesInTransit)
    (hcalls : ∀ call ∈ calls, carriesSegment bd call = false) :
    Throttled bd e (calls ++ more) e' := by
  rcases h with ⟨hle', hmore⟩ | hlt
  · exact .inl ⟨hle'.trans hle, fun call hmem =>
      (List.mem_append.mp hmem).elim (hcalls call) (hmore call)⟩
  · exact .inr hlt

/-- Calls without a frame carry no segment. -/
lemma not_carriesSegment (h : ∀ frameBytes, .sendFrame frameBytes ∉ calls) :
    ∀ call ∈ calls, carriesSegment bd call = false := by
  intro call hmem
  exact carriesSegment_eq fun frameBytes hcall => h frameBytes (hcall ▸ hmem)

/-- Each segment of a flush is sent while the bytes in transit are below the window. -/
theorem FlushRun.throttled (hs : FlushRun bd ackRel nowMs sendAck e calls e')
    (h : e.Sender bd False nowMs v) : Throttled bd e calls e' := by
  induction hs generalizing v with
  | stop hdata => exact .still le_rfl (by simp)
  | @ack e e' calls hdata rest ih =>
    change Throttled bd e ([.sendFrame _] ++ calls) e'
    refine (ih h.expire).after le_rfl fun call hmem => ?_
    cases List.mem_singleton.mp hmem
    exact carriesSegment_frameOf _ _
  | @segment sendAck nonce e e₁ e' datagrams timerCalls calls hdata hstep rest ih =>
    obtain ⟨-, hwindow, -⟩ := (e.sendData_iff nowMs).mp hdata
    obtain ⟨_, _, -, -, h₁⟩ := hstep.sender h.expire
    rcases ih h₁ with ⟨hle, -⟩ | hlt
    · have hsize := hstep.size_le
      have hadded := hstep.transit_eq h.expire
      have hcc : e'.ccState = e.ccState := rest.ccState_eq.trans hstep.ccState_eq
      have hexpired : (e.expire nowMs).segmentTx.bytesInTransit = e.segmentTx.bytesInTransit := rfl
      refine .inr ?_
      rw [hcc]
      omega
    · exact .inr hlt

lemma AckPart.transit_le {r r' : PayloadReader} {readAck : Bool}
    (hs : AckPart bd nowMs e r readAck (some (e', r', calls))) (h : e.Sender bd False nowMs v) :
    e'.segmentTx.bytesInTransit ≤ e.segmentTx.bytesInTransit := by
  cases hs with
  | absent => exact le_rfl
  | ack hread hstep => exact hstep.transit_le h

lemma DataPart.transit_eq {r : PayloadReader} {d : Delivery} (hs : DataPart bd e r (e', d)) :
    e'.segmentTx = e.segmentTx := by
  cases hs with
  | absent => rfl
  | segment hread hbytes hreceive hdelivery => rfl

/-- Every call respects the window. -/
theorem Effect.throttled (hs : Effect bd nowMs e input calls e') (h : e.Sender bd False nowMs v) :
    Throttled bd e calls e' := by
  have hclose : carriesSegment bd (.sendFrame e.closeFrame) = false := carriesSegment_frameOf _ _
  have hcloseAck : carriesSegment bd (.sendFrame e.closeAckFrame) = false :=
    carriesSegment_frameOf _ _
  have hsync : carriesSegment bd (.sendFrame (syncFrame e.segmentTx.nextId)) = false :=
    carriesSegment_frameOf _ _
  have htimer : ∀ timeMs, carriesSegment bd (.setRtoTimer timeMs) = false := fun _ => rfl
  have hended : carriesSegment bd .onDisconnect = false := rfl
  cases hs with
  | flush hs hflush => exact hflush.throttled h
  | disconnect hs htime => exact .still le_rfl (by simp [htimer, hclose])
  | stream hs hrun =>
    cases hrun with
    | truncated hparts hack => exact .still le_rfl (by simp)
    | run hparts hack hdata hflush =>
      obtain ⟨_, _, _, h₁⟩ := hack.sender h
      refine (hflush.throttled (hdata.sender h₁)).after ?_ (not_carriesSegment fun _ hmem => ?_)
      · rw [hdata.transit_eq]
        exact hack.transit_le h
      · exact (List.mem_append.mp hmem).elim hack.not_frame (receive_not_frame hdata.isReceive)
  | sync hs hrun =>
    cases hrun with
    | truncated => exact .still le_rfl (by simp)
    | run hread hsync hdelivery hflush =>
      exact (hflush.throttled (h.withDelivery _ _)).after le_rfl
        (not_carriesSegment fun _ => receive_not_frame (segments_calls hdelivery))
  | close hs hvalid htime => exact .still le_rfl (by simp [htimer, hended, hcloseAck])
  | closeAgain hs hvalid => exact .still le_rfl (by simp [hcloseAck])
  | @resend timer rtoMs rtoSumMs timeMs _ flushCalls _ hs htimer' hback hcc hflush =>
    change Throttled bd e ([.setRtoTimer timeMs, .sendFrame _] ++ flushCalls) e'
    refine (hflush.throttled (h.resending _ hback.rto_le hcc)).after le_rfl ?_
    simp [htimer, hsync]
  | resendClose hs htimer' hback => exact .still le_rfl (by simp [htimer, hclose])
  | init | closeAck | timeout => exact .still le_rfl (by simp [carriesSegment])
  | _ => exact .still le_rfl (by simp)

end Transit

end Endpoint

namespace EndpointSegments
open Endpoint Transition

section Congestion
variable {bd : Build} {past : List (Endpoint × Call)} {e e' : Endpoint} {call : Call}

lemma throttled_step (hs : Reachable (system bd) e) {calls : List HostCall}
    (hok : e.perform bd call.nonces call.input call.nowMs = .ok (e', calls)) :
    Throttled bd e calls e' := by
  obtain ⟨v, hsender⟩ := EndpointFlush.sound_reachable hs
  have hsender : e.Sender bd False call.nowMs v := hsender.later False.elim
  exact (hsender.perform False.elim hok).throttled hsender

lemma transit_initial (h : Initial bd e) : e.segmentTx.bytesInTransit = 0 := by
  obtain ⟨config, hconfig, hnew⟩ := h
  exact (new_sender bd False 0 hconfig hnew).transit_eq

/-- The handling of an ack, whatever it claims, never adds to the bytes in transit. -/
lemma handleAck_transit_le (hs : Reachable (system bd) e) {ack : StreamAck} {nowMs : ℕ}
    {calls : List HostCall} (hok : e.handleAck bd ack nowMs = .ok (e', calls)) :
    e'.segmentTx.bytesInTransit ≤ e.segmentTx.bytesInTransit := by
  obtain ⟨v, hsender⟩ := EndpointFlush.sound_reachable hs
  have hsender : e.Sender bd False nowMs v := hsender.later False.elim
  exact ((hsender.handleAck False.elim ack).elim hok).transit_le hsender

/-- In any run, whatever the peer acknowledges, the bytes in transit are below one of the windows
that the endpoint has had, but for one frame; a call that sends a segment leaves them below the
present one, but for one frame; and an ack that is handled only takes bytes out of transit. -/
theorem window_respected (run : Run (system bd) past e) :
    (∃ e₀ ∈ past.map Prod.fst ++ [e],
      e.segmentTx.bytesInTransit < e₀.ccState.cwnd + frameSizeMax) ∧
    (∀ (call : Call) calls e', e.perform bd call.nonces call.input call.nowMs = .ok (e', calls) →
      calls.any (carriesSegment bd) = true →
      e'.segmentTx.bytesInTransit < e'.ccState.cwnd + frameSizeMax) ∧
    ∀ ack nowMs calls e', e.handleAck bd ack nowMs = .ok (e', calls) →
      e'.segmentTx.bytesInTransit ≤ e.segmentTx.bytesInTransit := by
  refine ⟨?_, fun call calls e' hok hsends => ?_,
    fun ack nowMs calls e' => handleAck_transit_le ⟨past, run⟩⟩
  · induction run with
    | @init e h =>
      refine ⟨e, List.mem_singleton_self e, ?_⟩
      rw [transit_initial h]
      exact Nat.add_pos_right _ (by decide)
    | @step past e e' call run hstep ih =>
      obtain ⟨calls, hok⟩ := hstep
      rw [List.map_append, List.map_singleton]
      rcases throttled_step ⟨past, run⟩ hok with ⟨hle, -⟩ | hlt
      · obtain ⟨e₀, hmem, hlt⟩ := ih
        exact ⟨e₀, List.mem_append_left _ hmem, hle.trans_lt hlt⟩
      · exact ⟨e', List.mem_append_right _ (List.mem_singleton_self e'), hlt⟩
  · obtain ⟨sent, hmem, hsegment⟩ := List.any_eq_true.mp hsends
    rcases throttled_step ⟨past, run⟩ hok with ⟨-, hquiet⟩ | hlt
    · rw [hquiet sent hmem] at hsegment
      cases hsegment
    · exact hlt

end Congestion

section Sample

/-- Whether a flush sends a segment, and the window after it. -/
def flushOutcome (bd : Build) (e : Endpoint) : Option (Bool × ℕ) :=
  match e.perform bd (fun _ => false) .flush 0 with
  | .ok (e', calls) => some (calls.any (carriesSegment bd), e'.ccState.cwnd)
  | .error _ => none

/-- The first window has room for ten fragments of 1024 bytes. -/
theorem window_respected_sample : ∃ (past : List (Endpoint × Call)) (e e' : Endpoint)
    (calls : List HostCall), Run (system .debug) past e ∧
      e.perform .debug (fun _ => false) .flush 0 = .ok (e', calls) ∧
      calls.any (carriesSegment .debug) = true ∧ e'.segmentTx.bytesInTransit < 10240 + 1472 := by
  have hrun : ((interpreter .debug).exec (enqueueFirst [7])).map (flushOutcome .debug) =
        some (some (true, 10240)) := by decide +kernel
  obtain ⟨e, hexec, houtcome⟩ := Option.map_eq_some_iff.mp hrun
  obtain ⟨past, run, -⟩ := Executable.exec_run _ hexec
  unfold flushOutcome at houtcome
  cases hok : e.perform .debug (fun _ => false) .flush 0 with
  | error error => simp [hok] at houtcome
  | ok r =>
    obtain ⟨e', calls⟩ := r
    simp only [hok, Option.some.injEq, Prod.mk.injEq] at houtcome
    obtain ⟨hsends, hcwnd⟩ := houtcome
    have hbelow := (window_respected run).2.1 ⟨.flush, 0, fun _ => false⟩ calls e' hok hsends
    rw [hcwnd] at hbelow
    exact ⟨past, e, e', calls, run, hok, hsends, hbelow⟩

end Sample

end EndpointSegments

end Redpine
