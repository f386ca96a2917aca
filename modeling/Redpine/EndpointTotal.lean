import Redpine.EndpointHost
import Redpine.EndpointSafety
import Redpine.EndpointSession
import Redpine.EndpointTimeout

/-! Every call on an endpoint returns. The timer of an endpoint and the timer of its host go
along with each other, and the timeouts that have been added up never outrun the clock, so that
nothing overflows however long the connection may be silent. -/
namespace Redpine.Endpoint
open Machine Buffer Wire EndpointHost

/-- The sending and the receiving half are sound, and the clock has not gone back. -/
structure Healthy (bd : Build) (e : Endpoint) (nowMs : ℕ) : Prop where
  sender : ∃ v, e.Sender bd True nowMs v
  receiver : ∃ b : SegmentQueue, e.segmentRx.Models 0 frameSizeMax b

/-- The timeouts added up exceed a time by one timeout at most. -/
def Paced (timer : RtoTimerState) (timeMs : ℕ) : Prop :=
  timer.rtoSumMs + timer.rtoMs ≤ timeMs + rtoMaxMs

/-- The timer of the endpoint and the timer of its host run together. -/
structure InStep (state : Option RtoTimerState) (timer : Option ℕ) : Prop where
  running : timer.isSome = state.isSome
  paced : ∀ st timeMs, state = some st → timer = some timeMs → Paced st timeMs

/-- The timer of the host will find the endpoint in a state in which it can be handled. -/
structure Ready (e : Endpoint) (timer : Option ℕ) : Prop where
  started : e.stateId ≠ .preInit
  active : e.stateId = .active → InStep e.rtoTimerState timer
  closing : e.stateId = .closing → e.rtoTimerState.isSome = true ∧
    ∀ st timeMs, e.rtoTimerState = some st → timer = some timeMs → Paced st timeMs

/-- The timer can be handled at a time, or at any later one. -/
structure Due (e : Endpoint) (nowMs : ℕ) : Prop where
  started : e.stateId ≠ .preInit
  live : e.stateId = .active ∨ e.stateId = .closing →
    ∃ st, e.rtoTimerState = some st ∧ Paced st nowMs

section InStep
variable {bd : Build} {e e' : Endpoint} {nowMs rtoMs : ℕ} {timer : Option ℕ}
  {before after : Option RtoTimerState} {calls : List HostCall}

lemma Paced.later {st : RtoTimerState} {timeMs : ℕ} (h : Paced st nowMs) (hle : nowMs ≤ timeMs) :
    Paced st timeMs := by
  unfold Paced at h ⊢
  omega

lemma paced_new (hrto : rtoMs ≤ rtoMaxMs) (timeMs : ℕ) : Paced ⟨rtoMs, 0⟩ timeMs := by
  unfold Paced
  dsimp only
  omega

lemma inStep_new (hrto : rtoMs ≤ rtoMaxMs) (timeMs : ℕ) :
    InStep (some ⟨rtoMs, 0⟩) (some timeMs) := by
  refine ⟨rfl, fun st t hst _ => ?_⟩
  cases hst
  exact paced_new hrto t

lemma inStep_none : InStep none none := ⟨rfl, fun _ _ hst => by cases hst⟩

lemma ArmTimer.inStep (h : ArmTimer bd nowMs rtoMs before after calls) (hrto : rtoMs ≤ rtoMaxMs)
    (hin : InStep before timer) : InStep after (timerCalls timer calls) := by
  cases h with
  | set htime => exact inStep_new hrto _
  | running state => exact hin

lemma AckTimer.inStep {nextId segmentId : U32}
    (h : AckTimer bd nowMs rtoMs nextId segmentId before after calls) (hrto : rtoMs ≤ rtoMaxMs)
    (hin : InStep before timer) : InStep after (timerCalls timer calls) := by
  cases h with
  | idle => exact hin
  | caughtUp state hid => exact inStep_none
  | expecting state hid htime => exact inStep_new hrto _

lemma FlushRun.inStep {ackRel sendAck : Bool} (hs : FlushRun bd ackRel nowMs sendAck e calls e')
    (hrto : e.rtoMs ≤ rtoMaxMs) (hin : InStep e.rtoTimerState timer) :
    InStep e'.rtoTimerState (timerCalls timer calls) := by
  induction hs generalizing timer with
  | stop hdata => exact hin
  | ack hdata rest ih => exact ih hrto hin
  | segment hdata hstep rest ih =>
    rw [timerCalls_append, timerCalls_cons]
    exact ih (hstep.rtoMs_eq ▸ hrto) (hstep.timer.inStep hrto hin)

lemma DataPart.inStep {r : PayloadReader} {d : Delivery} (hs : DataPart bd e r (e', d))
    (hin : InStep e.rtoTimerState timer) :
    InStep e'.rtoTimerState (timerCalls timer d.calls) := by
  cases hs with
  | absent => exact hin
  | segment hread hbytes hreceive hdelivery =>
    rw [timerCalls_receive (segments_calls hdelivery)]
    exact hin

lemma StreamRun.inStep {frameType : FrameType} {payloadBytes : Bytes}
    (hs : StreamRun bd nowMs e frameType payloadBytes calls e') (hsound : e.Sound bd)
    (hin : InStep e.rtoTimerState timer) : InStep e'.rtoTimerState (timerCalls timer calls) := by
  obtain ⟨v, hsender⟩ := hsound
  cases hs with
  | truncated hparts hack => exact hin
  | @run _ _ e₁ e₂ _ r d ackCalls flushCalls hparts hack hdata hflush =>
    have hfirst : InStep e₁.rtoTimerState (timerCalls timer ackCalls) := by
      cases hack with
      | absent => exact hin
      | ack hread hstep => exact hstep.timer.inStep hstep.rto_le hin
    obtain ⟨_, _, _, hsender₁⟩ := hack.sender (hsender.later False.elim)
    rw [timerCalls_append, timerCalls_append]
    exact hflush.inStep (hdata.sender hsender₁).rto_le (hdata.inStep hfirst)

lemma SyncRun.inStep {payloadBytes : Bytes} (hs : SyncRun bd nowMs e payloadBytes calls e')
    (hrto : e.rtoMs ≤ rtoMaxMs) (hin : InStep e.rtoTimerState timer) :
    InStep e'.rtoTimerState (timerCalls timer calls) := by
  cases hs with
  | truncated => exact hin
  | run hread hsync hdelivery hflush =>
    rw [timerCalls_append, timerCalls_receive (segments_calls hdelivery)]
    exact hflush.inStep hrto hin

end InStep

section Ready
variable {bd : Build} {e e' : Endpoint} {nowMs nowMs' : ℕ} {timer : Option ℕ} {input : Input}
  {calls : List HostCall}

lemma Ready.of_active (hs : e.stateId = .active) (h : InStep e.rtoTimerState timer) :
    Ready e timer :=
  ⟨by simp [hs], fun _ => h, by simp [hs]⟩

/-- The timers of a connection that is over do not matter. -/
lemma Ready.of_ended (hs : e.stateId = .closed ∨ e.stateId = .zombie) : Ready e timer := by
  rcases hs with hs | hs <;> exact ⟨by simp [hs], by simp [hs], by simp [hs]⟩

lemma Ready.of_closing {st : RtoTimerState} {timeMs : ℕ} (hs : e.stateId = .closing)
    (hst : e.rtoTimerState = some st) (htimer : timer = some timeMs) (h : Paced st timeMs) :
    Ready e timer := by
  refine ⟨by simp [hs], by simp [hs], fun _ => ⟨by rw [hst]; rfl, fun st' timeMs' hst' ht => ?_⟩⟩
  cases hst.symm.trans hst'
  cases htimer.symm.trans ht
  exact h

/-- A call other than the handling of the timer. -/
theorem Ready.effect (h : Ready e timer) (hs : Effect bd nowMs e input calls e')
    (hsound : e.Sound bd) (hinit : input ≠ .init) (htimer : input ≠ .rtoTimer) :
    Ready e' (timerCalls timer calls) := by
  have hrto : e.rtoMs ≤ rtoMaxMs := hsound.choose_spec.rto_le
  cases hs with
  | init hs => exact absurd rfl hinit
  | enqueue hs hqueue => exact .of_active hs (h.active hs)
  | enqueueIgnored hs => exact h
  | flush hs hflush =>
    exact .of_active (hflush.sendOnly.stateId_eq.trans hs) (hflush.inStep hrto (h.active hs))
  | flushIgnored hs => exact h
  | disconnect hs htime => exact .of_closing rfl rfl rfl (paced_new hrto _)
  | disconnectIgnored hs => exact h
  | stream hs hrun =>
    exact .of_active (hrun.session.stateId_eq.trans hs) (hrun.inStep hsound (h.active hs))
  | sync hs hrun =>
    exact .of_active (hrun.session.stateId_eq.trans hs) (hrun.inStep hrto (h.active hs))
  | close hs hvalid htime => exact .of_ended (.inl rfl)
  | closeAck hs hvalid htime => exact .of_ended (.inl rfl)
  | closeAgain hs hvalid => exact .of_ended (.inl hs)
  | frameIgnored hs => exact h
  | timeout hs htimer' hsum htimeout => exact absurd rfl htimer
  | resend hs htimer' hback hcc hflush => exact absurd rfl htimer
  | resendClose hs htimer' hback => exact absurd rfl htimer
  | destroyed hs => exact absurd rfl htimer
  | timerIgnored hs => exact absurd rfl htimer

/-- The timer of the host has expired. -/
lemma Ready.due {timeMs : ℕ} (h : Ready e (some timeMs)) (hle : timeMs ≤ nowMs) : Due e nowMs := by
  refine ⟨h.started, fun hlive => ?_⟩
  rcases hlive with hs | hs
  · obtain ⟨st, hst⟩ := Option.isSome_iff_exists.mp (h.active hs).running.symm
    exact ⟨st, hst, ((h.active hs).paced st timeMs hst rfl).later hle⟩
  · obtain ⟨st, hst⟩ := Option.isSome_iff_exists.mp (h.closing hs).1
    exact ⟨st, hst, ((h.closing hs).2 st timeMs hst rfl).later hle⟩

lemma Due.later (h : Due e nowMs) (hle : nowMs ≤ nowMs') : Due e nowMs' := by
  refine ⟨h.started, fun hlive => ?_⟩
  obtain ⟨st, hst, hpaced⟩ := h.live hlive
  exact ⟨st, hst, hpaced.later hle⟩

/-- The timer that is set again is ahead of the timeouts added up. -/
lemma BackOff.paced {st : RtoTimerState} {rtoMs rtoSumMs timeMs : ℕ}
    (h : BackOff bd nowMs st rtoMs rtoSumMs timeMs) (hpaced : Paced st nowMs)
    (hlt : nowMs < 2 ^ 62) : Paced ⟨rtoMs, rtoSumMs⟩ timeMs := by
  have hrto := h.rto_le
  have hsum := checkedAdd_le h.sum
  have htime := h.time
  unfold Paced at hpaced ⊢
  rw [rtoMaxMs] at *
  rw [checkedAdd_of_lt (by omega)] at htime
  cases htime
  dsimp only
  omega

/-- The timer is handled, whatever the host's timer has been set to since it expired. -/
theorem Due.fired (h : Due e nowMs) (hs : Effect bd nowMs e .rtoTimer calls e')
    (hlt : nowMs < 2 ^ 62) (timer : Option ℕ) : Ready e' (timerCalls timer calls) := by
  cases hs with
  | timeout hs htimer hsum htimeout => exact .of_ended (.inr rfl)
  | @resend st rtoMs rtoSumMs timeMs ccState rest _ hs htimer hback hcc hflush =>
    obtain ⟨st', hst', hpaced⟩ := h.live (.inl hs)
    cases htimer.symm.trans hst'
    have hin : InStep (some ⟨rtoMs, rtoSumMs⟩) (some timeMs) := by
      refine ⟨rfl, fun st' timeMs' hst' ht => ?_⟩
      cases hst'
      cases ht
      exact hback.paced hpaced hlt
    exact .of_active (hflush.sendOnly.stateId_eq.trans hs) (hflush.inStep hback.rto_le hin)
  | resendClose hs htimer hback =>
    obtain ⟨st', hst', hpaced⟩ := h.live (.inr hs)
    cases htimer.symm.trans hst'
    exact .of_closing hs rfl rfl (hback.paced hpaced hlt)
  | destroyed hs => exact .of_ended (.inr rfl)
  | timerIgnored hs => exact .of_ended (.inr (hs.resolve_left h.started))

end Ready

section Due
variable {bd : Build} {e e' : Endpoint} {nowMs nowMs' : ℕ} {input : Input} {calls : List HostCall}

/-- The users of an endpoint whose timer is about to be handled leave it as it is, or
disconnect the endpoint and so set it anew. -/
theorem Due.requested (h : Due e nowMs) (hs : Effect bd nowMs' e input calls e')
    (hsound : e.Sound bd) (hinit : input ≠ .init) (hframe : ∀ frameType payloadBytes,
      input ≠ .frame frameType payloadBytes) (htimer : input ≠ .rtoTimer) : Due e' nowMs := by
  cases hs with
  | init hs => exact absurd rfl hinit
  | enqueue hs hqueue => exact ⟨h.started, h.live⟩
  | enqueueIgnored hs => exact h
  | flush hs hflush =>
    have hstate := hflush.sendOnly.stateId_eq
    obtain ⟨st, hst, hpaced⟩ := h.live (.inl hs)
    obtain ⟨hst', -⟩ := EndpointTimeout.flushRun_running hflush hst none
    exact ⟨by rw [hstate]; exact h.started, fun _ => ⟨st, hst', hpaced⟩⟩
  | flushIgnored hs => exact h
  | disconnect hs htime =>
    exact ⟨by simp [enteredClosing], fun _ =>
      ⟨_, rfl, paced_new hsound.choose_spec.rto_le nowMs⟩⟩
  | disconnectIgnored hs => exact h
  | stream hs hrun => exact absurd rfl (hframe _ _)
  | sync hs hrun => exact absurd rfl (hframe _ _)
  | close hs hvalid htime => exact absurd rfl (hframe _ _)
  | closeAck hs hvalid htime => exact absurd rfl (hframe _ _)
  | closeAgain hs hvalid => exact absurd rfl (hframe _ _)
  | frameIgnored hs => exact absurd rfl (hframe _ _)
  | timeout hs htimer' hsum htimeout => exact absurd rfl htimer
  | resend hs htimer' hback hcc hflush => exact absurd rfl htimer
  | resendClose hs htimer' hback => exact absurd rfl htimer
  | destroyed hs => exact absurd rfl htimer
  | timerIgnored hs => exact absurd rfl htimer

end Due

section Total
variable {bd : Build} {e e' : Endpoint} {nowMs nowMs' : ℕ} {nonces : ℕ → Bool} {input : Input}
  {calls : List HostCall}

lemma Healthy.sound (h : Healthy bd e nowMs) : e.Sound bd := by
  obtain ⟨v, hsender⟩ := h.sender
  exact ⟨v, hsender.forget.later False.elim⟩

lemma Healthy.later (h : Healthy bd e nowMs) (hle : nowMs ≤ nowMs') : Healthy bd e nowMs' := by
  obtain ⟨v, hsender⟩ := h.sender
  exact ⟨⟨v, hsender.later fun _ => hle⟩, h.receiver⟩

lemma new_healthy {config : Config} (hconfig : config.Accepted bd)
    (h : Endpoint.new config = .ok e) (nowMs : ℕ) : Healthy bd e nowMs :=
  ⟨⟨_, new_sender bd True nowMs hconfig h⟩, _, (new_fresh h).models⟩

lemma Healthy.activated (h : Healthy bd e nowMs) :
    Healthy bd { e with stateId := .active } nowMs := by
  obtain ⟨v, hsender⟩ := h.sender
  exact ⟨⟨v, hsender.1, hsender.2, hsender.3, hsender.4, hsender.5, hsender.6⟩, h.receiver⟩

/-- What a call does keeps an endpoint in good health. -/
lemma Healthy.effect (h : Healthy bd e nowMs) (hs : Effect bd nowMs e input calls e')
    (hallowed : EndpointSafety.Allowed input) (hlt : nowMs < 2 ^ 62) : Healthy bd e' nowMs := by
  obtain ⟨v, hsender⟩ := h.sender
  obtain ⟨b, hmodels⟩ := h.receiver
  obtain ⟨v', hsender'⟩ := hs.sender hsender (fun _ => hlt) (by
    rintro - mode rfl
    exact hallowed rfl)
  obtain ⟨b', hmodels'⟩ := hs.models hmodels (by
    rintro frameType payloadBytes rfl
    exact le_trans hallowed (by decide))
  exact ⟨⟨v', hsender'⟩, b', hmodels'⟩

lemma Healthy.enqueue_total (h : Healthy bd e nowMs) (hlt : nowMs < 2 ^ 62) {packetBytes : Bytes}
    (hne : packetBytes ≠ []) (mode : SendMode) :
    ∃ e', e.enqueue bd packetBytes mode nowMs = .ok e' := by
  obtain ⟨v, hsender⟩ := h.sender
  unfold Endpoint.enqueue
  by_cases hs : e.stateId = .active
  · obtain ⟨fragmentTx, hqueue, -⟩ :=
      (hsender.queues.enqueue bd (fun _ => hne) mode fun _ => hlt).exists_ok trivial
    rw [if_pos hs, hqueue]
    exact ⟨_, rfl⟩
  · rw [if_neg hs]
    exact ⟨e, rfl⟩

lemma Healthy.flush_total (h : Healthy bd e nowMs) (hlt : nowMs < 2 ^ 62) (nonces : ℕ → Bool) :
    ∃ r, e.flush bd nonces nowMs = .ok r := by
  obtain ⟨v, hsender⟩ := h.sender
  unfold Endpoint.flush
  by_cases hs : e.stateId = .active
  · rw [if_pos hs]
    obtain ⟨r, hok, -⟩ := (hsender.flushStream (fun _ => hlt) nonces false false).exists_ok trivial
    exact ⟨r, hok⟩
  · rw [if_neg hs]
    exact ⟨_, rfl⟩

lemma Healthy.disconnect_total (h : Healthy bd e nowMs) (hlt : nowMs < 2 ^ 62) :
    ∃ r, e.disconnect bd nowMs = .ok r := by
  obtain ⟨v, hsender⟩ := h.sender
  have hrto := hsender.rto_le
  unfold Endpoint.disconnect
  by_cases hs : e.stateId = .active
  · unfold enterClosing
    rw [rtoMaxMs] at hrto
    rw [if_pos hs, checkedAdd_of_lt (by omega), ok_bind]
    dsimp only
    rw [sendCloseFrame_eq]
    exact ⟨_, rfl⟩
  · rw [if_neg hs]
    exact ⟨_, rfl⟩

lemma Healthy.handleFrame_total (h : Healthy bd e nowMs) (hlt : nowMs < 2 ^ 62)
    (nonces : ℕ → Bool) (frameType : FrameType) {payloadBytes : Bytes}
    (hlen : payloadBytes.length ≤ EndpointSafety.payloadSizeMax) :
    ∃ r, e.handleFrame bd nonces frameType payloadBytes nowMs = .ok r := by
  obtain ⟨v, hsender⟩ := h.sender
  have hreceives : Receives True e payloadBytes := fun _ => ⟨hlen.trans (by decide), h.receiver⟩
  obtain ⟨r, hok, -⟩ :=
    (hsender.handleFrame (fun _ => hlt) nonces frameType hreceives).exists_ok trivial
  exact ⟨r, hok⟩

/-- Neither the timeouts added up nor the next timeout overflow. -/
lemma Due.backOff_total (hdue : Due e nowMs) (h : e.Sound bd) (hlt : nowMs < 2 ^ 62)
    (hlive : e.stateId = .active ∨ e.stateId = .closing) :
    ∃ r, e.backOff bd nowMs = .ok r := by
  obtain ⟨st, hst, hpaced⟩ := hdue.live hlive
  have hrto : e.rtoMs ≤ rtoMaxMs := h.choose_spec.rto_le
  unfold Paced at hpaced
  unfold backOff
  rw [expectTimerState_eq_ok.mpr hst, ok_bind, checkedAdd_of_lt (by rw [rtoMaxMs] at *; omega),
    ok_bind]
  by_cases htimeout : e.config.timeoutTimeMs ≤ st.rtoSumMs + st.rtoMs
  · rw [if_pos htimeout]
    exact ⟨_, rfl⟩
  · have hclamp := clampRto_le (e.rtoMs * 2)
    rw [if_neg htimeout, checkedMul_of_lt (by rw [rtoMaxMs] at *; omega), ok_bind]
    dsimp only
    rw [checkedAdd_of_lt (by rw [rtoMaxMs] at *; omega), ok_bind]
    exact ⟨_, rfl⟩

lemma Healthy.resynchronize_total (h : Healthy bd e nowMs) (hlt : nowMs < 2 ^ 62) {rtoMs : ℕ}
    (rtoSumMs : ℕ) (hrto : rtoMs ≤ rtoMaxMs) (nonces : ℕ → Bool) :
    ∃ r, (e.rearmed rtoMs rtoSumMs).resynchronize bd nonces nowMs = .ok r := by
  obtain ⟨v, hsender⟩ := h.sender
  obtain ⟨ccState, hcc, -⟩ := hsender.cc.handleTimeout bd
  obtain ⟨r, hflush, -⟩ := ((hsender.resending rtoSumMs hrto hcc).flushStream (fun _ => hlt) nonces
    false false).exists_ok trivial
  unfold resynchronize
  rw [show (e.rearmed rtoMs rtoSumMs).ccState.handleTimeout bd = .ok ccState from hcc, ok_bind]
  dsimp only
  rw [sendStreamSyncFrame_eq, ok_bind]
  change ∃ r, (Endpoint.flushStream bd nonces false false
    ((e.rearmed rtoMs rtoSumMs).resending ccState) nowMs >>= _) = .ok r
  rw [hflush]
  exact ⟨_, rfl⟩

theorem Healthy.handleRtoTimer_total (h : Healthy bd e nowMs) (hdue : Due e nowMs)
    (hlt : nowMs < 2 ^ 62) (nonces : ℕ → Bool) :
    ∃ r, e.handleRtoTimer bd nonces nowMs = .ok r := by
  unfold Endpoint.handleRtoTimer
  cases hs : e.stateId with
  | preInit => exact ⟨_, rfl⟩
  | closed => exact ⟨_, rfl⟩
  | zombie => exact ⟨_, rfl⟩
  | closing =>
    obtain ⟨⟨e₁, calls, action⟩, hback⟩ := hdue.backOff_total h.sound hlt (.inr hs)
    dsimp only
    rw [hback, ok_bind]
    cases action with
    | «continue» =>
      dsimp only
      rw [sendCloseFrame_eq]
      exact ⟨_, rfl⟩
    | terminate => exact ⟨_, rfl⟩
  | active =>
    obtain ⟨⟨e₁, calls, action⟩, hback⟩ := hdue.backOff_total h.sound hlt (.inl hs)
    dsimp only
    rw [hback, ok_bind]
    obtain ⟨timer, rtoSumMs, htimer,
      ⟨hsum, htimeout, rfl, rfl, rfl⟩ | ⟨rtoMs, timeMs, hback', rfl, rfl, rfl⟩⟩ :=
      backOff_cases hback
    · exact ⟨_, rfl⟩
    · obtain ⟨r, hresync⟩ := h.resynchronize_total hlt rtoSumMs hback'.rto_le nonces
      dsimp only
      rw [hresync]
      exact ⟨_, rfl⟩

end Total

end Redpine.Endpoint
