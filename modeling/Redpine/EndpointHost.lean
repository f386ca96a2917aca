import Redpine.EndpointStep
import Redpine.Transition

/-! The resend timer of an endpoint and the timer of its host. The host sets and clears its
timer as it is told to, and clears it when it fires, before it calls `handle_rto_timer`. -/
namespace Redpine.EndpointHost
open Machine Buffer Wire Endpoint Transition

structure State where
  endpoint : Endpoint
  timer : Option ℕ

inductive Action
  | call (input : Input) (nowMs : ℕ) (nonces : ℕ → Bool)
  | fire (nowMs : ℕ) (nonces : ℕ → Bool)

/-- The host's timer after one call on the host. -/
def timerCall (timer : Option ℕ) : HostCall → Option ℕ
  | .setRtoTimer timeMs => some timeMs
  | .unsetRtoTimer => none
  | _ => timer

def timerCalls (timer : Option ℕ) (calls : List HostCall) : Option ℕ := calls.foldl timerCall timer

def Initial (bd : Build) (s : State) : Prop :=
  ∃ config : Endpoint.Config, config.Accepted bd ∧ Endpoint.new config = .ok s.endpoint ∧
    s.timer = none

/-- The host initializes an endpoint once, and `handle_rto_timer` is called by the timer. -/
def Allowed (e : Endpoint) : Input → Prop
  | .init => e.stateId = .preInit
  | .rtoTimer => False
  | _ => True

inductive Step (bd : Build) : State → Action → State → Prop
  | call {s : State} {input : Input} {nowMs : ℕ} {nonces : ℕ → Bool} {e : Endpoint}
      {calls : List HostCall} (hallowed : Allowed s.endpoint input)
      (hreturns : s.endpoint.perform bd nonces input nowMs = .ok (e, calls)) :
      Step bd s (.call input nowMs nonces) ⟨e, timerCalls s.timer calls⟩
  | fire {s : State} {timeMs nowMs : ℕ} {nonces : ℕ → Bool} {e : Endpoint}
      {calls : List HostCall} (htimer : s.timer = some timeMs)
      (hreturns : s.endpoint.perform bd nonces .rtoTimer nowMs = .ok (e, calls)) :
      Step bd s (.fire nowMs nonces) ⟨e, timerCalls none calls⟩

def system (bd : Build) : System State Action := ⟨Initial bd, Step bd⟩

/-- Both timers run exactly while segments are in flight. -/
structure Armed (e : Endpoint) (timer : Option ℕ) (v : SenderView) : Prop where
  host : timer.isSome = e.rtoTimerState.isSome
  inFlight : e.rtoTimerState.isSome = true ↔ v.acked < v.sizes.length

/-- What holds of the two timers in each state. -/
def Timers (e : Endpoint) (timer : Option ℕ) (v : SenderView) : Prop :=
  match e.stateId with
  | .preInit => timer = none ∧ Armed e timer v
  | .active => Armed e timer v
  | .closing => timer.isSome = true ∧ e.rtoTimerState.isSome = true
  | .closed => timer.isSome = true
  | .zombie => timer = none

structure Inv (bd : Build) (s : State) (v : SenderView) : Prop where
  sender : s.endpoint.Sender bd False 0 v
  timers : Timers s.endpoint s.timer v

section TimerCalls
variable {timer : Option ℕ} {calls calls' : List HostCall}

lemma timerCalls_append : timerCalls timer (calls ++ calls') =
    timerCalls (timerCalls timer calls) calls' :=
  List.foldl_append

@[simp] lemma timerCalls_nil : timerCalls timer [] = timer := rfl

@[simp] lemma timerCalls_cons (call : HostCall) :
    timerCalls timer (call :: calls) = timerCalls (timerCall timer call) calls := rfl

end TimerCalls

section Armed
variable {bd : Build} {e e' : Endpoint} {timer : Option ℕ} {v : SenderView} {nowMs : ℕ}
  {calls : List HostCall}

lemma nextId_ne_baseId_iff (h : e.Sender bd False nowMs v) :
    e.segmentTx.nextId ≠ e.segmentTx.baseId ↔ v.acked < v.sizes.length := by
  have hsub := h.window.next_sub
  have hle := h.window.acked_le
  constructor
  · intro hne
    by_contra hlt
    have hzero : (e.segmentTx.nextId - e.segmentTx.baseId).toNat = 0 := by omega
    apply hne
    exact sub_eq_zero.mp (BitVec.eq_of_toNat_eq (by simpa using hzero))
  · intro hlt he
    rw [he, BitVec.sub_self] at hsub
    simp at hsub
    omega

lemma armTimer_host {rtoMs : ℕ} {before after : Option RtoTimerState}
    (h : ArmTimer bd nowMs rtoMs before after calls) (hhost : timer.isSome = before.isSome) :
    (timerCalls timer calls).isSome = after.isSome ∧ after.isSome = true := by
  cases h with
  | set htime => exact ⟨rfl, rfl⟩
  | running state => exact ⟨hhost, rfl⟩

lemma ackTimer_host {rtoMs : ℕ} {nextId segmentId : U32} {before after : Option RtoTimerState}
    (h : AckTimer bd nowMs rtoMs nextId segmentId before after calls)
    (hhost : timer.isSome = before.isSome) :
    (timerCalls timer calls).isSome = after.isSome ∧
      (after.isSome = true ↔ before.isSome = true ∧ segmentId ≠ nextId) := by
  cases h with
  | idle => exact ⟨hhost, by simp⟩
  | caughtUp state hid => exact ⟨rfl, by simp [hid]⟩
  | expecting state hid htime => exact ⟨rfl, by simp [hid]⟩

lemma Armed.expire (h : Armed e timer v) : Armed (e.expire nowMs) timer v := ⟨h.host, h.inFlight⟩

/-- A segment arms both timers. -/
lemma Armed.segmentStep {nonce : Bool} {datagrams : List Datagram} (h : Armed e timer v)
    (hs : SegmentStep bd nonce nowMs e datagrams e' calls) (hsender : e.Sender bd False nowMs v) :
    ∃ v', e'.Sender bd False nowMs v' ∧ Armed e' (timerCalls timer calls) v' := by
  obtain ⟨cursor, sent, -, -, hsender'⟩ := hs.sender hsender
  have hle := hsender.window.acked_le
  obtain ⟨hhost, hsome⟩ := armTimer_host hs.timer h.host
  refine ⟨_, hsender', hhost, ?_⟩
  simp only [hsome, true_iff, List.length_append, List.length_singleton]
  omega

lemma Armed.flushRun {ackRel sendAck : Bool} (h : Armed e timer v)
    (hs : FlushRun bd ackRel nowMs sendAck e calls e') (hsender : e.Sender bd False nowMs v) :
    ∃ v', e'.Sender bd False nowMs v' ∧ Armed e' (timerCalls timer calls) v' := by
  induction hs generalizing v timer with
  | stop hdata => exact ⟨v, hsender.expire, h.expire⟩
  | ack hdata rest ih => exact ih h.expire hsender.expire
  | segment hdata hstep rest ih =>
    obtain ⟨v₁, hsender₁, h₁⟩ := h.expire.segmentStep hstep hsender.expire
    rw [timerCalls_append, timerCalls_cons]
    exact ih h₁ hsender₁

lemma Armed.ackStep {ack : StreamAck} (h : Armed e timer v) (hs : AckStep bd nowMs e ack e' calls)
    (hsender : e.Sender bd False nowMs v) :
    ∃ v', e'.Sender bd False nowMs v' ∧ Armed e' (timerCalls timer calls) v' := by
  obtain ⟨acked, discarded, cursor, hle, hall, hsome, hsender'⟩ := hs.sender hsender
  have hle' : acked ≤ v.sizes.length := hsender'.window.acked_le
  have hnext : e'.segmentTx.nextId = e.segmentTx.nextId :=
    hsender'.window.nextId_eq.trans hsender.window.nextId_eq.symm
  have htimer := hs.timer
  rw [hnext] at htimer
  obtain ⟨hhost, hiff⟩ := ackTimer_host htimer h.host
  refine ⟨_, hsender', hhost, ?_⟩
  rw [hiff, h.inFlight]
  constructor
  · rintro ⟨hlt, hid⟩
    exact hsome hid hlt
  · intro hlt
    have hlt' : acked < v.sizes.length := hlt
    refine ⟨by omega, fun hid => ?_⟩
    have := hall hid
    omega

end Armed

section Invariant
variable {bd : Build} {s s' : State} {action : Action}

lemma inv_initial (h : Initial bd s) : ∃ v, Inv bd s v := by
  obtain ⟨config, hconfig, hnew, htimer⟩ := h
  have hfresh := new_fresh hnew
  refine ⟨_, new_sender bd False 0 hconfig hnew, ?_⟩
  unfold Timers
  rw [hfresh.stateId_eq]
  refine ⟨htimer, by rw [htimer, hfresh.rtoTimerState_eq]; rfl, ?_⟩
  simp [hfresh.rtoTimerState_eq]

lemma Timers.of_armed {e : Endpoint} {timer : Option ℕ} {v : SenderView}
    (hs : e.stateId = .active) (h : Armed e timer v) : Timers e timer v := by
  unfold Timers
  rw [hs]
  exact h

lemma Timers.armed {e : Endpoint} {timer : Option ℕ} {v : SenderView} (hs : e.stateId = .active)
    (h : Timers e timer v) : Armed e timer v := by
  unfold Timers at h
  rwa [hs] at h

/-- Receiving a segment or a sync leaves the timers to the flush that follows. -/
lemma Armed.withDelivery {e : Endpoint} {timer : Option ℕ} {v : SenderView} (h : Armed e timer v)
    (segmentRx : SegmentRx) (d : Delivery) : Armed (e.withDelivery segmentRx d) timer v :=
  ⟨h.host, h.inFlight⟩

lemma timerCalls_receive {timer : Option ℕ} {calls : List HostCall}
    (h : ∀ call ∈ calls, IsReceive call) : timerCalls timer calls = timer := by
  induction calls with
  | nil => rfl
  | cons call calls ih =>
    obtain ⟨unrel, packetBytes, rfl⟩ := h call List.mem_cons_self
    exact ih fun c hc => h c (List.mem_cons_of_mem _ hc)

section Effects
variable {e e' : Endpoint} {timer : Option ℕ} {v : SenderView} {nowMs : ℕ}
  {calls : List HostCall} {input : Input}

lemma Armed.streamRun {frameType : FrameType} {payloadBytes : Bytes} (h : Armed e timer v)
    (hs : StreamRun bd nowMs e frameType payloadBytes calls e')
    (hsender : e.Sender bd False nowMs v) :
    ∃ v', e'.Sender bd False nowMs v' ∧ Armed e' (timerCalls timer calls) v' := by
  cases hs with
  | truncated hparts hack => exact ⟨v, hsender, h⟩
  | @run _ _ e₁ e₂ _ r d ackCalls flushCalls hparts hack hdata hflush =>
    have hfirst : ∃ v₁, e₁.Sender bd False nowMs v₁ ∧ Armed e₁ (timerCalls timer ackCalls) v₁ := by
      cases hack with
      | absent => exact ⟨v, hsender, h⟩
      | ack hread hstep => exact h.ackStep hstep hsender
    obtain ⟨v₁, hsender₁, h₁⟩ := hfirst
    have hsecond : Armed e₂ (timerCalls timer (ackCalls ++ d.calls)) v₁ := by
      rw [timerCalls_append]
      cases hdata with
      | absent => exact h₁
      | segment hread hbytes hreceive hdelivery =>
        rw [timerCalls_receive (segments_calls hdelivery)]
        exact h₁.withDelivery _ _
    obtain ⟨v', hsender', h'⟩ := hsecond.flushRun hflush (hdata.sender hsender₁)
    rw [← timerCalls_append] at h'
    exact ⟨v', hsender', h'⟩

lemma Armed.syncRun {payloadBytes : Bytes} (h : Armed e timer v)
    (hs : SyncRun bd nowMs e payloadBytes calls e') (hsender : e.Sender bd False nowMs v) :
    ∃ v', e'.Sender bd False nowMs v' ∧ Armed e' (timerCalls timer calls) v' := by
  cases hs with
  | truncated => exact ⟨v, hsender, h⟩
  | run hread hsync hdelivery hflush =>
    rw [timerCalls_append, timerCalls_receive (segments_calls hdelivery)]
    exact (h.withDelivery _ _).flushRun hflush (hsender.withDelivery _ _)

/-- A call of the host other than the firing of the timer. -/
lemma Timers.call (h : Timers e timer v) (hs : Effect bd nowMs e input calls e')
    (hsender : e.Sender bd False nowMs v) (hallowed : Allowed e input) :
    ∃ v', e'.Sender bd False nowMs v' ∧ Timers e' (timerCalls timer calls) v' := by
  cases hs with
  | init hs =>
    have hpre : e.stateId = .preInit := hallowed
    unfold Timers at h
    rw [hpre] at h
    exact ⟨v, ⟨hsender.1, hsender.2, hsender.3, hsender.4, hsender.5, hsender.6⟩,
      .of_armed rfl ⟨h.2.host, h.2.inFlight⟩⟩
  | @enqueue packetBytes mode fragmentTx hs hqueue =>
    obtain ⟨all, hqueues⟩ :=
      (hsender.queues.enqueue bd False.elim mode False.elim).elim hqueue
    exact ⟨{ v with all := all },
      ⟨hsender.1, hsender.2, hqueues, hsender.4, hsender.5, hsender.6⟩,
      .of_armed hs ⟨(h.armed hs).host, (h.armed hs).inFlight⟩⟩
  | enqueueIgnored hs => exact ⟨v, hsender, h⟩
  | flush hs hflush =>
    obtain ⟨v', hsender', h'⟩ := (h.armed hs).flushRun hflush hsender
    exact ⟨v', hsender', .of_armed (hflush.sendOnly.stateId_eq.trans hs) h'⟩
  | flushIgnored hs => exact ⟨v, hsender, h⟩
  | disconnect hs htime =>
    exact ⟨v, ⟨hsender.1, hsender.2, hsender.3, hsender.4, hsender.5, hsender.6⟩, rfl, rfl⟩
  | disconnectIgnored hs => exact ⟨v, hsender, h⟩
  | stream hs hrun =>
    obtain ⟨v', hsender', h'⟩ := (h.armed hs).streamRun hrun hsender
    exact ⟨v', hsender', .of_armed (hrun.session.stateId_eq.trans hs) h'⟩
  | sync hs hrun =>
    obtain ⟨v', hsender', h'⟩ := (h.armed hs).syncRun hrun hsender
    exact ⟨v', hsender', .of_armed (hrun.session.stateId_eq.trans hs) h'⟩
  | close hs hvalid htime =>
    exact ⟨v, ⟨hsender.1, hsender.2, hsender.3, hsender.4, hsender.5, hsender.6⟩, rfl⟩
  | closeAck hs hvalid htime =>
    exact ⟨v, ⟨hsender.1, hsender.2, hsender.3, hsender.4, hsender.5, hsender.6⟩, rfl⟩
  | closeAgain hs hvalid => exact ⟨v, hsender, h⟩
  | frameIgnored hs => exact ⟨v, hsender, h⟩
  | timeout hs htimer hsum htimeout => exact hallowed.elim
  | resend hs htimer hback hcc hflush => exact hallowed.elim
  | resendClose hs htimer hback => exact hallowed.elim
  | destroyed hs => exact hallowed.elim
  | timerIgnored hs => exact hallowed.elim

/-- The timer fires: the host has cleared it. -/
lemma Timers.fire {timeMs : ℕ} (h : Timers e (some timeMs) v)
    (hs : Effect bd nowMs e .rtoTimer calls e') (hsender : e.Sender bd False nowMs v) :
    ∃ v', e'.Sender bd False nowMs v' ∧ Timers e' (timerCalls none calls) v' := by
  cases hs with
  | timeout hs htimer hsum htimeout =>
    exact ⟨v, ⟨hsender.1, hsender.2, hsender.3, hsender.4, hsender.5, hsender.6⟩, rfl⟩
  | @resend timer rtoMs rtoSumMs timeMs' ccState rest _ hs htimer hback hcc hflush =>
    have hlt := (h.armed hs).inFlight.mp (by rw [htimer]; rfl)
    have harmed : Armed ((e.rearmed rtoMs rtoSumMs).resending ccState) (some timeMs')
        { v with cursor := v.discarded } := ⟨rfl, iff_of_true rfl hlt⟩
    obtain ⟨v', hsender', h'⟩ := harmed.flushRun hflush (hsender.resending rtoSumMs hback.rto_le hcc)
    exact ⟨v', hsender', .of_armed (hflush.sendOnly.stateId_eq.trans hs) h'⟩
  | resendClose hs htimer hback =>
    refine ⟨v, ⟨hsender.1, hsender.2, hsender.3, hsender.4, hback.rto_le, hsender.6⟩, ?_⟩
    unfold Timers rearmed
    simp only [hs]
    exact ⟨rfl, rfl⟩
  | destroyed hs =>
    exact ⟨v, ⟨hsender.1, hsender.2, hsender.3, hsender.4, hsender.5, hsender.6⟩, rfl⟩
  | timerIgnored hs =>
    unfold Timers at h
    rcases hs with hs | hs
    · rw [hs] at h
      cases h.1
    · rw [hs] at h
      cases h

end Effects

lemma inv_step (hinv : ∃ v, Inv bd s v) (h : Step bd s action s') : ∃ v, Inv bd s' v := by
  obtain ⟨v, hsender, htimers⟩ := hinv
  cases h with
  | @call input nowMs nonces e calls hallowed hreturns =>
    have hsender : s.endpoint.Sender bd False nowMs v := hsender.later False.elim
    obtain ⟨v', hsender', h'⟩ :=
      htimers.call (hsender.perform False.elim hreturns) hsender hallowed
    exact ⟨v', hsender'.later False.elim, h'⟩
  | @fire timeMs nowMs nonces e calls htimer hreturns =>
    have hsender : s.endpoint.Sender bd False nowMs v := hsender.later False.elim
    rw [htimer] at htimers
    obtain ⟨v', hsender', h'⟩ := htimers.fire (hsender.perform False.elim hreturns) hsender
    exact ⟨v', hsender'.later False.elim, h'⟩

theorem inv_reachable (hs : Reachable (system bd) s) : ∃ v, Inv bd s v :=
  hs.invariant (fun _ => inv_initial) fun _ _ _ => inv_step

/-- The host's timer, the timer of the endpoint and the segment window agree in every state,
and a timer that fires in the active or the closing state finds its state. -/
theorem timer_consistent (hs : Reachable (system bd) s) :
    (s.endpoint.stateId = .active →
      (s.timer.isSome = true ↔ s.endpoint.rtoTimerState.isSome = true) ∧
      (s.endpoint.rtoTimerState.isSome = true ↔
        s.endpoint.segmentTx.nextId ≠ s.endpoint.segmentTx.baseId)) ∧
    (s.endpoint.stateId = .closing →
      s.timer.isSome = true ∧ s.endpoint.rtoTimerState.isSome = true) ∧
    (s.endpoint.stateId = .closed → s.timer.isSome = true) ∧
    (s.endpoint.stateId = .zombie → s.timer = none) ∧
    (s.timer.isSome = true → s.endpoint.stateId = .active ∨ s.endpoint.stateId = .closing →
      ∃ timerState, s.endpoint.expectTimerState = .ok timerState) := by
  obtain ⟨v, hsender, htimers⟩ := inv_reachable hs
  have hexpect : s.endpoint.rtoTimerState.isSome = true →
      ∃ timerState, s.endpoint.expectTimerState = .ok timerState := by
    intro hsome
    obtain ⟨timerState, htimer⟩ := Option.isSome_iff_exists.mp hsome
    exact ⟨timerState, expectTimerState_eq_ok.mpr htimer⟩
  have hactive := fun ha : s.endpoint.stateId = .active => htimers.armed ha
  unfold Timers at htimers
  refine ⟨fun ha => ?_, fun ha => ?_, fun ha => ?_, fun ha => ?_, fun htimer ha => ?_⟩
  · refine ⟨by rw [(hactive ha).host], ?_⟩
    rw [(hactive ha).inFlight, nextId_ne_baseId_iff hsender]
  · rwa [ha] at htimers
  · rwa [ha] at htimers
  · rwa [ha] at htimers
  · apply hexpect
    rcases ha with ha | ha
    · rwa [← (hactive ha).host]
    · rw [ha] at htimers
      exact htimers.2

end Invariant

/-- An endpoint that has been disconnected waits for the timer of its close frame. -/
theorem timer_consistent_disconnect : ∃ (s : State) (timerState : RtoTimerState),
    s.endpoint.stateId = .closing ∧ s.timer.isSome = true ∧
      s.endpoint.expectTimerState = .ok timerState := by
  obtain ⟨e₀, hnew⟩ := new_total (sampleConfig 10000)
  have hpre := (new_fresh hnew).stateId_eq
  have hrto : e₀.rtoMs ≤ rtoMaxMs :=
    (new_sender .debug False 0 (sampleConfig_accepted .debug 10000) hnew).rto_le
  have hinit : (system .debug).init ⟨e₀, none⟩ :=
    ⟨_, sampleConfig_accepted .debug 10000, hnew, rfl⟩
  have hactive : (system .debug).step ⟨e₀, none⟩ (.call .init 3 fun _ => false)
      ⟨{ e₀ with stateId := .active }, timerCalls none [.onConnect]⟩ := by
    refine .call (by exact hpre) ?_
    simp [Endpoint.perform, Endpoint.init, hpre]
  have hclosing : (system .debug).step
      ⟨{ e₀ with stateId := .active }, timerCalls none [.onConnect]⟩
      (.call .disconnect 5 fun _ => false)
      ⟨enteredClosing { e₀ with stateId := .active },
        timerCalls none [.setRtoTimer (5 + e₀.rtoMs), .sendFrame e₀.closeFrame]⟩ := by
    refine .call trivial ?_
    unfold Endpoint.perform Endpoint.disconnect Endpoint.enterClosing
    rw [rtoMaxMs] at hrto
    rw [if_pos rfl, checkedAdd_of_lt (by dsimp only; omega), ok_bind]
    dsimp only
    rw [sendCloseFrame_eq]
    rfl
  obtain ⟨-, htimers, -, -, hexpect⟩ :=
    timer_consistent (((Reachable.init hinit).step hactive).step hclosing)
  obtain ⟨timerState, hstate⟩ := hexpect (htimers rfl).1 (.inr rfl)
  exact ⟨_, timerState, rfl, (htimers rfl).1, hstate⟩

end Redpine.EndpointHost
