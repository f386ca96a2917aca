import Redpine.ClientCalls
import Redpine.ClientSafety

/-! The attempt of a client to connect ends. Each timer that fires during the handshake is set
again at most once per two seconds and only before the time of the phase is over, so the client
sends few requests; and if its timer is served in time, it has connected or failed in time. -/
namespace Redpine.ClientSafety
open Machine Wire Transition Client

/-- The number of requests that one phase of the handshake has the time for. -/
def requestsMax (timeoutMs : ℕ) : ℕ :=
  (timeoutMs + (handshakeResendTimeoutMs - 1)) / handshakeResendTimeoutMs

/-- The number of requests that may have been sent before the phase. -/
def requestsBefore (timeoutMs : ℕ) : HandshakePhase → ℕ
  | .alpha => 0
  | .beta => requestsMax timeoutMs

/-- What a call can do to a client in its handshake and to its timer, with the frames it sends. -/
inductive HandshakeStep (nowMs : ℕ) (state : HandshakeState) (timer : Option ℕ) :
    List Bytes → Client.State → Option ℕ → Prop
  | still {packetBuffer : List (Bytes × SendMode)} :
      HandshakeStep nowMs state timer []
        (.handshake { state with packetBuffer := packetBuffer }) timer
  | resend {deadlineMs : ℕ} (htimer : timer = some deadlineMs) (hdue : deadlineMs ≤ nowMs)
      (hleft : nowMs < state.timeoutTimeMs) :
      HandshakeStep nowMs state timer [state.frame] (.handshake state)
        (some (nowMs + handshakeResendTimeoutMs))
  | request {frameBytes : Bytes} (hphase : state.phase = .alpha) :
      HandshakeStep nowMs state timer [frameBytes]
        (.handshake { state with
          phase := .beta
          timeoutTimeMs := nowMs + state.timeoutMs
          frame := frameBytes })
        (some (nowMs + handshakeResendTimeoutMs))
  | left {frames : List Bytes} {s' : Client.State} {timer' : Option ℕ}
      (hs' : ∀ state', s' ≠ .handshake state') : HandshakeStep nowMs state timer frames s' timer'

section Calls
variable {bd : Build} {core core' : ClientCore} {frames : List Bytes} {nowMs : ℕ}
  {nonces : ℕ → Bool} {state : HandshakeState}

lemma step_of_idle (hs : core.state = .handshake state)
    (h : (core, ([] : List Bytes)) = (core', frames)) :
    HandshakeStep nowMs state core.rtoTimer frames core'.state core'.rtoTimer := by
  cases h
  rw [hs]
  exact .still

lemma checkedAdd_clock {timeMs n sum : ℕ} (hlt : timeMs < 2 ^ 62) (hn : n < 2 ^ 62)
    (h : checkedAdd bd 64 timeMs n = .ok sum) : sum = timeMs + n := by
  rw [checkedAdd_of_lt (by omega)] at h
  exact (Except.ok.inj h).symm

lemma processTimeouts_step (hs : core.state = .handshake state) (hlt : nowMs < 2 ^ 62)
    (h : core.processTimeouts bd nonces nowMs = .ok (core', frames)) :
    HandshakeStep nowMs state core.rtoTimer frames core'.state core'.rtoTimer := by
  cases ClientRun.processTimeouts_fires h with
  | idle => exact step_of_idle hs rfl
  | expired hs' => exact .left (by simp [ClientCore.fail])
  | resend hs' htimer hdue hleft htime =>
    cases hs.symm.trans hs'
    dsimp only
    rw [hs, checkedAdd_clock hlt (by decide) htime]
    exact .resend htimer hdue hleft
  | continued hs' | terminated hs' | quiescent hs' => cases hs.symm.trans hs'

lemma handleHandshakeAlphaAck_step {payloadBytes : Bytes} (hs : core.state = .handshake state)
    (hlt : nowMs < 2 ^ 62) (htimeout : state.timeoutMs < 2 ^ 62)
    (h : core.handleHandshakeAlphaAck bd payloadBytes nowMs = .ok (core', frames)) :
    HandshakeStep nowMs state core.rtoTimer frames core'.state core'.rtoTimer := by
  rcases ClientRun.handleHandshakeAlphaAck_cases h with
    hidle | ⟨state', frame, hs', hphase, -, -, hrequest⟩
  · exact step_of_idle hs hidle
  · cases hs.symm.trans hs'
    obtain ⟨timeoutTimeMs, timeMs, betaBytes, htimeoutTime, htime, -, rfl, rfl⟩ :=
      ClientRun.requestBeta_cases hrequest
    rw [checkedAdd_clock hlt htimeout htimeoutTime, checkedAdd_clock hlt (by decide) htime]
    exact .request hphase

lemma handleHandshakeBetaAck_step {payloadBytes : Bytes} (hs : core.state = .handshake state)
    (h : core.handleHandshakeBetaAck bd nonces payloadBytes nowMs = .ok (core', frames)) :
    HandshakeStep nowMs state core.rtoTimer frames core'.state core'.rtoTimer := by
  rcases ClientRun.handleHandshakeBetaAck_cases h with hidle |
    ⟨state', error, -, -, -, ⟨-, hactivate⟩ | ⟨kind, -, hfail⟩⟩
  · exact step_of_idle hs hidle
  · obtain ⟨prioConfig, e₀, e₁, e₂, calls, -, -, -, -, -, hwith⟩ :=
      ClientRun.activate_cases hactivate
    obtain rfl : _ = core' := congrArg Prod.fst hwith
    exact .left (by simp)
  · cases hfail
    exact .left (by simp [ClientCore.fail])

/-- A call on the endpoint, which a client in its handshake has not got. -/
lemma Performs.step {input : Endpoint.Input} (hs : core.state = .handshake state)
    (h : ClientRun.Performs bd nonces core input nowMs frames core') (timeMs : ℕ) :
    HandshakeStep timeMs state core.rtoTimer frames core'.state core'.rtoTimer := by
  rcases h with hidle | ⟨e, e', calls, hs', -⟩
  · exact step_of_idle hs hidle
  · cases hs.symm.trans hs'

lemma handleFrame_step {frameBytes : Bytes} (hs : core.state = .handshake state)
    (hlt : nowMs < 2 ^ 62) (htimeout : state.timeoutMs < 2 ^ 62)
    (h : core.handleFrame bd nonces frameBytes nowMs = .ok (core', frames)) :
    HandshakeStep nowMs state core.rtoTimer frames core'.state core'.rtoTimer := by
  rcases ClientRun.handleFrame_cases h with hidle | ⟨frameType, payloadBytes, -, -, hdispatch⟩
  · exact step_of_idle hs hidle
  · unfold ClientCore.dispatchFrame at hdispatch
    cases frameType with
    | handshakeAlphaAck => exact handleHandshakeAlphaAck_step hs hlt htimeout hdispatch
    | handshakeBetaAck => exact handleHandshakeBetaAck_step hs hdispatch
    | _ => exact Performs.step hs (ClientRun.handleFrameOther_performs hdispatch) nowMs

/-- The inversion lemma: what any call does to a client in its handshake. -/
theorem coreCall_step (hs : core.state = .handshake state) {timeMs : ℕ} {a : Action}
    (hlt : timeOf timeMs a < 2 ^ 62) (htimeout : state.timeoutMs < 2 ^ 62)
    (h : ClientRun.coreCall bd core a = .ok (core', frames)) :
    HandshakeStep (timeOf timeMs a) state core.rtoTimer frames core'.state core'.rtoTimer := by
  cases a with
  | frame frameBytes nowMs nonces => exact handleFrame_step hs hlt htimeout h
  | timeouts nowMs nonces => exact processTimeouts_step hs hlt h
  | flush nowMs nonces => exact Performs.step hs (ClientRun.flush_performs h) nowMs
  | disconnect nowMs => exact Performs.step hs (ClientRun.disconnect_performs h) nowMs
  | poll =>
    cases h
    dsimp only
    rw [hs]
    exact .still
  | _ =>
    simp only [ClientRun.coreCall, ClientCore.send, ClientCore.enqueue, hs] at h
    cases h
    exact .still

end Calls

/-- The timer that runs during the handshake: when it is due, and the requests it accounts for. -/
structure Attempt (configMs sent : ℕ) (state : HandshakeState) (deadlineMs : ℕ) : Prop where
  timeoutMs_eq : state.timeoutMs = configMs
  alpha : state.phase = .alpha → state.timeoutTimeMs = configMs
  deadline : deadlineMs < state.timeoutTimeMs + handshakeResendTimeoutMs
  requests : handshakeResendTimeoutMs * sent + state.timeoutTimeMs ≤
    deadlineMs + configMs + handshakeResendTimeoutMs * requestsBefore configMs state.phase

/-- The second phase has begun in time. -/
def InTime (configMs lateMs : ℕ) (state : HandshakeState) : Prop :=
  state.timeoutTimeMs < 2 * configMs + handshakeResendTimeoutMs + lateMs

/-- The host serves the timer in time: as long as the client is in its handshake, it is not
called later than this after the deadline. -/
def Prompt (lateMs : ℕ) (s : State) (a : Action) : Prop :=
  ∀ state deadlineMs, s.client.core.state = .handshake state →
    s.client.core.rtoTimer = some deadlineMs → timeOf s.nowMs a ≤ deadlineMs + lateMs

section Attempt
variable {configMs sent nowMs deadlineMs lateMs : ℕ} {state state' : HandshakeState}
  {timer' : Option ℕ} {frames : List Bytes}

lemma requests_le_alpha (h : Attempt configMs sent state deadlineMs)
    (hphase : state.phase = .alpha) : sent ≤ requestsMax configMs := by
  have halpha := h.alpha hphase
  have hdeadline := h.deadline
  have hrequests := h.requests
  rw [hphase] at hrequests
  simp only [requestsBefore, requestsMax, handshakeResendTimeoutMs] at hdeadline hrequests ⊢
  omega

lemma requests_le (h : Attempt configMs sent state deadlineMs) :
    sent ≤ 2 * requestsMax configMs := by
  cases hphase : state.phase with
  | alpha => exact (requests_le_alpha h hphase).trans (by omega)
  | beta =>
    have hdeadline := h.deadline
    have hrequests := h.requests
    rw [hphase] at hrequests
    simp only [requestsBefore, requestsMax, handshakeResendTimeoutMs] at hdeadline hrequests ⊢
    omega

/-- The step lemma. -/
lemma Attempt.step (h : Attempt configMs sent state deadlineMs) (hpos : 0 < configMs)
    (hstep : HandshakeStep nowMs state (some deadlineMs) frames (.handshake state') timer') :
    ∃ deadlineMs', timer' = some deadlineMs' ∧
      Attempt configMs (sent + frames.length) state' deadlineMs' := by
  have htimeout := h.timeoutMs_eq
  have hrequests := h.requests
  cases hstep with
  | still => exact ⟨deadlineMs, rfl, htimeout, h.alpha, h.deadline, hrequests⟩
  | resend htimer hdue hleft =>
    cases htimer
    refine ⟨_, rfl, htimeout, h.alpha, by omega, ?_⟩
    simp only [List.length_singleton, Nat.mul_add, Nat.mul_one]
    omega
  | request hphase =>
    have hbefore := requests_le_alpha h hphase
    refine ⟨_, rfl, htimeout, by simp, by simp only; omega, ?_⟩
    simp only [requestsBefore, List.length_singleton, handshakeResendTimeoutMs, htimeout]
    omega
  | left hs' => exact absurd rfl (hs' state')

/-- The second phase begins when a frame arrives, and so not much later than the timer is due. -/
lemma InTime.step (h : Attempt configMs sent state deadlineMs) (hin : InTime configMs lateMs state)
    (hprompt : nowMs ≤ deadlineMs + lateMs)
    (hstep : HandshakeStep nowMs state (some deadlineMs) frames (.handshake state') timer') :
    InTime configMs lateMs state' := by
  cases hstep with
  | still => exact hin
  | resend htimer hdue hleft => exact hin
  | request hphase =>
    have halpha := h.alpha hphase
    have hdeadline := h.deadline
    have htimeout := h.timeoutMs_eq
    unfold InTime
    dsimp only
    omega
  | left hs' => exact absurd rfl (hs' state')

end Attempt

section Run
variable {bd : Build} {s s' : State} {a : Action} {past : List (State × Action)} {lateMs : ℕ}

/-- The configuration is the one that the client was made with. -/
lemma config_step (hstep : Step bd s a s') :
    s'.client.core.config = s.client.core.config := by
  obtain ⟨frames, hok, -⟩ := coreCall_of_step hstep.step
  exact coreCall_config hok

lemma timeoutMs_bounds (hs : Reachable (system bd) s) :
    0 < s.client.core.config.handshakeTimeoutMs ∧
      s.client.core.config.handshakeTimeoutMs < 2 ^ 62 := by
  induction hs using Reachable.induct with
  | init h =>
    obtain ⟨hclient, hlt, -⟩ := h
    obtain ⟨config, localNonce, frame, hvalidate, -, hfresh⟩ := ClientRun.fresh_of_initial hclient
    refine ⟨?_, hlt⟩
    obtain ⟨_, hmin, -⟩ := bind_eq_ok.mp hvalidate
    rw [hfresh]
    exact lt_of_lt_of_le (by decide) (assert_eq_ok.mp hmin)
  | step hs hstep ih =>
    rw [config_step hstep]
    exact ih

lemma connect_attempt (h : Initial bd s) {state : HandshakeState}
    (hstate : s.client.core.state = .handshake state) :
    s.client.core.rtoTimer = some handshakeResendTimeoutMs ∧
      Attempt s.client.core.config.handshakeTimeoutMs s.client.sent.length state
        handshakeResendTimeoutMs ∧
      state.timeoutTimeMs = s.client.core.config.handshakeTimeoutMs := by
  have hpos := (timeoutMs_bounds (.init h)).1
  obtain ⟨config, localNonce, frame, -, -, hfresh⟩ := ClientRun.fresh_of_initial h.1
  rw [hfresh] at hpos hstate ⊢
  cases hstate
  refine ⟨rfl, ⟨rfl, fun _ => rfl, ?_, ?_⟩, rfl⟩
  · exact Nat.lt_add_of_pos_left hpos
  · simp [requestsBefore]

/-- A client that has left its handshake does not begin it again. -/
lemma handshake_before (hs : Reachable (ClientRun.system bd) s.client)
    (hstep : Step bd s a s') {state' : HandshakeState}
    (hstate' : s'.client.core.state = .handshake state') :
    ∃ state, s.client.core.state = .handshake state := by
  have hsound := ClientRun.stateSound_of_reachable hs
  rcases ClientRun.Step.move hsound hstep.step with ⟨frames, hmove, -⟩ | ⟨-, hsame, -⟩
  · cases hmove with
    | idle hsame => exact ⟨state', hsame.symm.trans hstate'⟩
    | handshake hs₀ => exact ⟨_, hs₀⟩
    | failed hs₀ => exact ⟨_, hs₀⟩
    | activated hs₀ => exact ⟨_, hs₀⟩
    | called hs₀ hinputs hcalls hs' =>
      rcases hs' with hs' | ⟨hs', -⟩ <;> cases hs'.symm.trans hstate'
  · exact ⟨state', hsame.symm.trans hstate'⟩

lemma client_reachable (hs : Reachable (system bd) s) :
    Reachable (ClientRun.system bd) s.client := by
  induction hs using Reachable.induct with
  | init h => exact .init h.1
  | step hs hstep ih => exact ih.step hstep.step

/-- A step of a client that is in its handshake before and after it. -/
lemma handshakeStep_of_step (hs : Reachable (system bd) s) (hstep : Step bd s a s')
    {state state' : HandshakeState} (hstate : s.client.core.state = .handshake state)
    (hstate' : s'.client.core.state = .handshake state')
    (htimeout : state.timeoutMs = s.client.core.config.handshakeTimeoutMs) :
    ∃ frames, s'.client.sent = s.client.sent ++ frames ∧
      HandshakeStep (timeOf s.nowMs a) state s.client.core.rtoTimer frames (.handshake state')
        s'.client.core.rtoTimer := by
  obtain ⟨frames, hok, hsent⟩ := coreCall_of_step hstep.step
  have hlt : state.timeoutMs < 2 ^ 62 := htimeout.trans_lt (timeoutMs_bounds hs).2
  have htaken := coreCall_step hstate hstep.clock_lt hlt hok
  rw [hstate'] at htaken
  exact ⟨frames, hsent, htaken⟩

/-- A client in its handshake has a timer, and has sent few requests. -/
theorem attempt_reachable (hs : Reachable (system bd) s) {state : HandshakeState}
    (hstate : s.client.core.state = .handshake state) :
    ∃ deadlineMs, s.client.core.rtoTimer = some deadlineMs ∧
      Attempt s.client.core.config.handshakeTimeoutMs s.client.sent.length state deadlineMs := by
  induction hs using Reachable.induct generalizing state with
  | init h =>
    obtain ⟨htimer, hattempt, -⟩ := connect_attempt h hstate
    exact ⟨_, htimer, hattempt⟩
  | @step s s' a hs hstep ih =>
    obtain ⟨state₀, hstate₀⟩ := handshake_before (client_reachable hs) hstep hstate
    obtain ⟨deadlineMs, htimer, hattempt⟩ := ih hstate₀
    obtain ⟨frames, hsent, hhandshake⟩ :=
      handshakeStep_of_step hs hstep hstate₀ hstate hattempt.timeoutMs_eq
    rw [htimer] at hhandshake
    rw [config_step hstep, hsent, List.length_append]
    exact hattempt.step (timeoutMs_bounds hs).1 hhandshake

theorem inTime_of_run (run : Run (system bd) past s) (hprompt : ∀ q ∈ past, Prompt lateMs q.1 q.2)
    {state : HandshakeState} (hstate : s.client.core.state = .handshake state) :
    InTime s.client.core.config.handshakeTimeoutMs lateMs state := by
  induction run generalizing state with
  | init h =>
    obtain ⟨-, -, htimeout⟩ := connect_attempt h hstate
    unfold InTime
    rw [htimeout, handshakeResendTimeoutMs]
    omega
  | @step past s s' a run hstep ih =>
    have hs : Reachable (system bd) s := ⟨past, run⟩
    have hlast : Prompt lateMs s a :=
      hprompt (s, a) (List.mem_append_right _ (List.mem_singleton_self _))
    obtain ⟨state₀, hstate₀⟩ := handshake_before (client_reachable hs) hstep hstate
    obtain ⟨deadlineMs, htimer, hattempt⟩ := attempt_reachable hs hstate₀
    obtain ⟨frames, -, hhandshake⟩ :=
      handshakeStep_of_step hs hstep hstate₀ hstate hattempt.timeoutMs_eq
    have hin := ih (fun q hq => hprompt q (List.mem_append_left _ hq)) hstate₀
    rw [htimer] at hhandshake
    rw [config_step hstep]
    exact hin.step hattempt (hlast _ _ hstate₀ htimer) hhandshake

/-- The attempt has ended, and the user can tell how. -/
def Settled (events : List Client.Event) : Prop :=
  ∃ event more, events = event :: more ∧ (event = .connect ∨ ∃ kind, event = .error kind)

lemma settled_of_lived {stateId : StateId} {events : List Client.Event}
    (hne : stateId ≠ .preInit) (h : Lived stateId events) : Settled events := by
  cases stateId with
  | preInit => exact absurd rfl hne
  | active | closing =>
    obtain ⟨packets, rfl⟩ := h
    exact ⟨_, _, rfl, .inl rfl⟩
  | closed =>
    obtain ⟨packets, rfl⟩ := h
    exact ⟨_, _, rfl, .inl rfl⟩
  | zombie =>
    obtain ⟨packets, event, rfl, -⟩ := h
    exact ⟨_, _, rfl, .inl rfl⟩

lemma settled_or_handshake (hs : Reachable (ClientRun.system bd) s.client) :
    Settled s.client.produced ∨ ∃ state, s.client.core.state = .handshake state := by
  obtain ⟨-, hlived⟩ := ClientRun.clientLived hs
  cases hstate : s.client.core.state with
  | handshake state => exact .inr ⟨state, rfl⟩
  | active e =>
    rw [hstate] at hlived
    exact .inl (settled_of_lived hlived.1 hlived.2.2)
  | quiescent =>
    rw [hstate] at hlived
    rcases hlived with ⟨kind, hproduced⟩ | hlived
    · exact .inl ⟨_, _, hproduced, .inr ⟨kind, rfl⟩⟩
    · exact .inl (settled_of_lived (by simp) hlived)

/-- An attempt to connect ends. Either it has ended, and the first event tells how, or the
client has sent no more than twice the requests that one phase has the time for; and its timer is
due, and by then served, before the time of both phases and two more requests is over. -/
theorem attempt_ends (run : Run (system bd) past s) :
    Settled s.client.produced ∨
      ∃ state deadlineMs, s.client.core.state = .handshake state ∧
        s.client.core.rtoTimer = some deadlineMs ∧
        s.client.sent.length ≤ 2 * requestsMax s.client.core.config.handshakeTimeoutMs ∧
        ∀ lateMs, (∀ q ∈ past, Prompt lateMs q.1 q.2) →
          deadlineMs + lateMs < 2 * (s.client.core.config.handshakeTimeoutMs +
            handshakeResendTimeoutMs + lateMs) := by
  have hs : Reachable (system bd) s := ⟨past, run⟩
  rcases settled_or_handshake (client_reachable hs) with hsettled | ⟨state, hstate⟩
  · exact .inl hsettled
  obtain ⟨deadlineMs, htimer, hattempt⟩ := attempt_reachable hs hstate
  refine .inr ⟨state, deadlineMs, hstate, htimer, requests_le hattempt, fun lateMs hprompt => ?_⟩
  have hin := inTime_of_run run hprompt hstate
  have hdeadline := hattempt.deadline
  unfold InTime at hin
  omega

end Run

section Sample

/-- A client that has sent its request a second time, 1 ms late, has 20 s left at most. -/
theorem attempt_ends_sample : ∃ (past : List (State × Action)) (s : State),
    Run (system .debug) past s ∧ past.map Prod.snd = [.timeouts 2001 fun _ => false] ∧
      ∃ deadlineMs, s.client.core.rtoTimer = some deadlineMs ∧
        s.client.sent.length ≤ 2 * requestsMax 10000 ∧
        deadlineMs + 1 < 2 * (10000 + handshakeResendTimeoutMs + 1) := by
  have hrun : (ClientRun.sampleStart.bind fun s₀ =>
      (ClientRun.next .debug s₀ (.timeouts 2001 fun _ => false)).map fun s =>
        (s₀.core.config.handshakeTimeoutMs, s₀.core.rtoTimer, s.core.config.handshakeTimeoutMs,
          s.produced)) = some (10000, some 2000, 10000, []) := by rfl
  obtain ⟨s₀, hstart, hrun⟩ := Option.bind_eq_some_iff.mp hrun
  obtain ⟨s, hnext, hrun⟩ := Option.map_eq_some_iff.mp hrun
  simp only [Prod.mk.injEq] at hrun
  obtain ⟨htimeout₀, htimer₀, htimeout, hproduced⟩ := hrun
  have hinit : Initial .debug ⟨s₀, 0⟩ :=
    ⟨ClientRun.sampleStart_initial hstart, by rw [htimeout₀]; norm_num, rfl⟩
  have hstep : Step .debug ⟨s₀, 0⟩ (.timeouts 2001 fun _ => false) ⟨s, 2001⟩ :=
    ⟨trivial, Nat.zero_le _, show 2001 < 2 ^ 62 by norm_num, ClientRun.next_step hnext, rfl⟩
  have run : Run (system .debug) ([] ++ [(⟨s₀, 0⟩, .timeouts 2001 fun _ => false)]) ⟨s, 2001⟩ :=
    .step (.init hinit) hstep
  have hprompt : ∀ q ∈ [] ++ [((⟨s₀, 0⟩ : State),
      (ClientRun.Action.timeouts 2001 fun _ => false))], Prompt 1 q.1 q.2 := by
    intro q hq state deadlineMs hstate htimer
    simp only [List.nil_append, List.mem_singleton] at hq
    subst hq
    cases htimer₀.symm.trans htimer
    exact le_rfl
  rcases attempt_ends run with ⟨event, more, hsettled, -⟩ |
    ⟨state, deadlineMs, -, htimer, hsent, hdeadline⟩
  · cases hproduced.symm.trans hsettled
  · have hdeadline := hdeadline 1 hprompt
    rw [htimeout] at hsent hdeadline
    exact ⟨_, _, run, rfl, deadlineMs, htimer, hsent, hdeadline⟩

end Sample

end Redpine.ClientSafety
