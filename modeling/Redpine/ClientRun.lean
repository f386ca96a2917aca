import Redpine.SessionEvents
import Redpine.Transition

/-! The runs of a client: any frames, timeouts and calls of the user, in any order. What a
step can do depends on the state of the client alone, and a client whose connection has
ended only says farewell. -/
namespace Redpine.ClientRun
open Machine Buffer Wire Endpoint Transition Client

/-- The core, the events that the user has taken from it, all frames sent, and whether
`disconnect` has been called on an active endpoint. -/
structure State where
  core : ClientCore
  polled : List Event
  sent : List Bytes
  disconnected : Bool

inductive Action
  | frame (frameBytes : Bytes) (nowMs : ℕ) (nonces : ℕ → Bool)
  | timeouts (nowMs : ℕ) (nonces : ℕ → Bool)
  | send (packetBytes : Bytes) (mode : SendMode) (nowMs : ℕ) (nonces : ℕ → Bool)
  | enqueue (packetBytes : Bytes) (mode : SendMode) (nowMs : ℕ)
  | flush (nowMs : ℕ) (nonces : ℕ → Bool)
  | disconnect (nowMs : ℕ)
  | poll

/-- All events produced so far. -/
def State.produced (s : State) : List Event := s.polled ++ s.core.events

def hasActiveEndpoint : Client.State → Bool
  | .active e => decide (e.stateId = .active)
  | _ => false

def Initial (bd : Build) (s : State) : Prop :=
  ∃ config localNonce core frames,
    ClientCore.connectWithConfig bd config localNonce = .ok (core, frames) ∧
      s = ⟨core, [], frames, false⟩

inductive Step (bd : Build) : State → Action → State → Prop
  | frame {s : State} {frameBytes : Bytes} {nowMs : ℕ} {nonces : ℕ → Bool} {core : ClientCore}
      {frames : List Bytes}
      (h : s.core.handleFrame bd nonces frameBytes nowMs = .ok (core, frames)) :
      Step bd s (.frame frameBytes nowMs nonces)
        { s with core := core, sent := s.sent ++ frames }
  | timeouts {s : State} {nowMs : ℕ} {nonces : ℕ → Bool} {core : ClientCore}
      {frames : List Bytes}
      (h : s.core.processTimeouts bd nonces nowMs = .ok (core, frames)) :
      Step bd s (.timeouts nowMs nonces) { s with core := core, sent := s.sent ++ frames }
  | send {s : State} {packetBytes : Bytes} {mode : SendMode} {nowMs : ℕ} {nonces : ℕ → Bool}
      {core : ClientCore} {frames : List Bytes}
      (h : s.core.send bd nonces packetBytes mode nowMs = .ok (core, frames)) :
      Step bd s (.send packetBytes mode nowMs nonces)
        { s with core := core, sent := s.sent ++ frames }
  | enqueue {s : State} {packetBytes : Bytes} {mode : SendMode} {nowMs : ℕ} {core : ClientCore}
      {frames : List Bytes}
      (h : s.core.enqueue bd packetBytes mode nowMs = .ok (core, frames)) :
      Step bd s (.enqueue packetBytes mode nowMs)
        { s with core := core, sent := s.sent ++ frames }
  | flush {s : State} {nowMs : ℕ} {nonces : ℕ → Bool} {core : ClientCore} {frames : List Bytes}
      (h : s.core.flush bd nonces nowMs = .ok (core, frames)) :
      Step bd s (.flush nowMs nonces) { s with core := core, sent := s.sent ++ frames }
  | disconnect {s : State} {nowMs : ℕ} {core : ClientCore} {frames : List Bytes}
      (h : s.core.disconnect bd nowMs = .ok (core, frames)) :
      Step bd s (.disconnect nowMs)
        { s with
          core := core
          sent := s.sent ++ frames
          disconnected := s.disconnected || hasActiveEndpoint s.core.state }
  | poll {s : State} {event : Event} {events : List Event}
      (h : s.core.events = event :: events) :
      Step bd s .poll
        { s with core := { s.core with events := events }, polled := s.polled ++ [event] }

def system (bd : Build) : System State Action := ⟨Initial bd, Step bd⟩

/-- A client starts with checked settings, in a handshake, with its first request sent. -/
lemma fresh_of_initial {bd : Build} {s : State} (h : Initial bd s) :
    ∃ config localNonce frame, config.validate bd = .ok () ∧
      writeHandshakeAlpha bd ⟨protocolId, localNonce⟩ Client.frameSizeMax = .ok frame ∧
      s = ⟨⟨config, .handshake ⟨.alpha, config.handshakeTimeoutMs, config.handshakeTimeoutMs, [],
        frame, localNonce⟩, some handshakeResendTimeoutMs, []⟩, [], [frame], false⟩ := by
  obtain ⟨config, localNonce, core, frames, hconnect, rfl⟩ := h
  obtain ⟨_, hvalidate, hconnect⟩ := bind_eq_ok.mp hconnect
  obtain ⟨frame, hwrite, hconnect⟩ := bind_eq_ok.mp hconnect
  cases hconnect
  exact ⟨config, localNonce, frame, hvalidate, hwrite, rfl⟩

/-- The call on the core that an action stands for. -/
def coreCall (bd : Build) (core : ClientCore) : Action → Exec (ClientCore × List Bytes)
  | .frame frameBytes nowMs nonces => core.handleFrame bd nonces frameBytes nowMs
  | .timeouts nowMs nonces => core.processTimeouts bd nonces nowMs
  | .send packetBytes mode nowMs nonces => core.send bd nonces packetBytes mode nowMs
  | .enqueue packetBytes mode nowMs => core.enqueue bd packetBytes mode nowMs
  | .flush nowMs nonces => core.flush bd nonces nowMs
  | .disconnect nowMs => core.disconnect bd nowMs
  | .poll => .ok ({ core with events := core.events.tail }, [])

/-- The step that an action leads to, if the call returns. -/
def next (bd : Build) (s : State) (a : Action) : Option State :=
  match a, coreCall bd s.core a with
  | .disconnect _, .ok (core, frames) =>
      some ⟨core, s.polled, s.sent ++ frames, s.disconnected || hasActiveEndpoint s.core.state⟩
  | .poll, .ok (core, _) =>
      s.core.events.head?.map fun event => ⟨core, s.polled ++ [event], s.sent, s.disconnected⟩
  | _, .ok (core, frames) => some ⟨core, s.polled, s.sent ++ frames, s.disconnected⟩
  | _, .error _ => none

lemma next_step {bd : Build} {s s' : State} {a : Action} (h : next bd s a = some s') :
    Step bd s a s' := by
  unfold next at h
  cases hcall : coreCall bd s.core a with
  | error e =>
    rw [hcall] at h
    cases a <;> cases h
  | ok r =>
    rw [hcall] at h
    cases a with
    | frame frameBytes nowMs nonces => cases h; exact .frame hcall
    | timeouts nowMs nonces => cases h; exact .timeouts hcall
    | send packetBytes mode nowMs nonces => cases h; exact .send hcall
    | enqueue packetBytes mode nowMs => cases h; exact .enqueue hcall
    | flush nowMs nonces => cases h; exact .flush hcall
    | disconnect nowMs => cases h; exact .disconnect hcall
    | poll =>
      cases hcall
      cases hevents : s.core.events with
      | nil => simp [hevents] at h
      | cons event events =>
        simp only [hevents, List.head?_cons, Option.map_some, Option.some.injEq] at h
        subst h
        exact .poll hevents

section HostCalls
variable {core : ClientCore} {calls : List HostCall}

lemma foldl_hostCall (calls : List HostCall) (core : ClientCore) :
    (calls.foldl ClientCore.hostCall core).state = core.state ∧
      (calls.foldl ClientCore.hostCall core).config = core.config ∧
      (calls.foldl ClientCore.hostCall core).events = core.events ++ eventsOf calls := by
  induction calls generalizing core with
  | nil => simp [eventsOf]
  | cons call calls ih =>
    obtain ⟨hstate, hconfig, hevents⟩ := ih (core.hostCall call)
    rw [List.foldl_cons, hstate, hconfig, hevents]
    cases call <;> simp [ClientCore.hostCall, eventsOf]

@[simp] lemma withEndpoint_state (core : ClientCore) (e : Endpoint) (calls : List HostCall) :
    (core.withEndpoint e calls).1.state = .active e := (foldl_hostCall calls _).1

@[simp] lemma withEndpoint_events (core : ClientCore) (e : Endpoint) (calls : List HostCall) :
    (core.withEndpoint e calls).1.events = core.events ++ eventsOf calls :=
  (foldl_hostCall calls _).2.2

@[simp] lemma withEndpoint_frames (core : ClientCore) (e : Endpoint) (calls : List HostCall) :
    (core.withEndpoint e calls).2 = sentFrames calls := rfl

end HostCalls

/-- What a call on a client can do to its state, with the events and the frames it produces. -/
inductive CoreStep (bd : Build) : Client.State → List Event → List Bytes → Client.State → Prop
  | handshake {state state' : HandshakeState} {frames : List Bytes} :
      CoreStep bd (.handshake state) [] frames (.handshake state')
  | fail {state : HandshakeState} (kind : ErrorKind) :
      CoreStep bd (.handshake state) [.error kind] [] .quiescent
  | activate {state : HandshakeState} {e : Endpoint} {calls : List HostCall}
      (hsound : e.Sound bd) (hactive : e.stateId = .active)
      (hnonces : e.localNonce = 0 ∧ e.remoteNonce = 0)
      (hcalls : ∀ call ∈ calls, IsTransport call) :
      CoreStep bd (.handshake state) [.connect] (sentFrames calls) (.active e)
  | endpoint {e e' : Endpoint} {input : Input} {calls : List HostCall} {nowMs : ℕ}
      (hinput : input ≠ .init) (heffect : Effect bd nowMs e input calls e')
      (hsound : e'.Sound bd) (halive : e'.stateId = .zombie → e.stateId = .zombie) :
      CoreStep bd (.active e) (eventsOf calls) (sentFrames calls) (.active e')
  | terminate {e e' : Endpoint} {calls : List HostCall} {nowMs : ℕ}
      (heffect : Effect bd nowMs e .rtoTimer calls e') (halive : e.stateId ≠ .zombie)
      (hzombie : e'.stateId = .zombie) :
      CoreStep bd (.active e) (eventsOf calls) (sentFrames calls) .quiescent

/-- The steps on the core that one call takes. -/
inductive CoreRun (bd : Build) : Client.State → List Event → List Bytes → Client.State → Prop
  | refl (s : Client.State) : CoreRun bd s [] [] s
  | step {s s₁ s₂ : Client.State} {events events' : List Event} {frames frames' : List Bytes}
      (h : CoreStep bd s events frames s₁) (rest : CoreRun bd s₁ events' frames' s₂) :
      CoreRun bd s (events ++ events') (frames ++ frames') s₂

lemma CoreStep.run {bd : Build} {s s' : Client.State} {events : List Event}
    {frames : List Bytes} (h : CoreStep bd s events frames s') : CoreRun bd s events frames s' := by
  have hrun := CoreRun.step h (.refl s')
  rwa [List.append_nil, List.append_nil] at hrun

/-- The core takes such steps, and appends the events to its queue. -/
def Runs (bd : Build) (core : ClientCore) (frames : List Bytes) (core' : ClientCore) : Prop :=
  ∃ events, core'.events = core.events ++ events ∧ CoreRun bd core.state events frames core'.state

def StateSound (bd : Build) : Client.State → Prop
  | .active e => e.Sound bd
  | _ => True

section Calls
variable {bd : Build} {core core' : ClientCore} {frames : List Bytes} {nowMs : ℕ}
  {nonces : ℕ → Bool} {e e' : Endpoint} {input : Input} {calls : List HostCall}

lemma Runs.idle (h : (core, ([] : List Bytes)) = (core', frames)) : Runs bd core frames core' := by
  cases h
  exact ⟨[], by simp, .refl _⟩

lemma Runs.of_events_eq {core₁ : ClientCore} (h : Runs bd core₁ frames core')
    (hevents : core₁.events = core.events) (hstate : core₁.state = core.state) :
    Runs bd core frames core' := by
  obtain ⟨events, happend, hrun⟩ := h
  rw [hevents] at happend
  rw [hstate] at hrun
  exact ⟨events, happend, hrun⟩

lemma Runs.handshake {state state' : HandshakeState} (hs : core.state = .handshake state)
    (hs' : core'.state = .handshake state') (hevents : core'.events = core.events) :
    Runs bd core frames core' := by
  refine ⟨[], by rw [hevents, List.append_nil], ?_⟩
  rw [hs, hs']
  exact CoreStep.handshake.run

lemma Runs.fail {state : HandshakeState} (hs : core.state = .handshake state) (kind : ErrorKind) :
    Runs bd core [] (core.fail kind) := by
  refine ⟨[.error kind], rfl, ?_⟩
  rw [hs]
  exact (CoreStep.fail kind).run

/-- A call on the endpoint other than the timer. -/
lemma Runs.endpoint (hs : core.state = .active e) (hsound : e.Sound bd) (hinit : input ≠ .init)
    (htimer : input ≠ .rtoTimer) (hok : e.perform bd nonces input nowMs = .ok (e', calls)) :
    Runs bd core (core.withEndpoint e' calls).2 (core.withEndpoint e' calls).1 := by
  obtain ⟨heffect, hsound'⟩ := hsound.perform hok
  refine ⟨eventsOf calls, withEndpoint_events _ _ _, ?_⟩
  rw [hs, withEndpoint_state, withEndpoint_frames]
  refine (CoreStep.endpoint hinit heffect hsound' fun hzombie => ?_).run
  by_contra halive
  exact heffect.outline.zombie_of halive htimer hzombie

/-- What `process_timeouts` does: nothing before the deadline, then what the state asks for. -/
inductive Fires (bd : Build) (nonces : ℕ → Bool) (core : ClientCore) (nowMs : ℕ) :
    List Bytes → ClientCore → Prop
  | idle : Fires bd nonces core nowMs [] core
  | expired {state : HandshakeState} (hs : core.state = .handshake state) :
      Fires bd nonces core nowMs [] (ClientCore.fail { core with rtoTimer := none } .timeout)
  | resend {state : HandshakeState} {deadlineMs timeMs : ℕ} (hs : core.state = .handshake state)
      (htimer : core.rtoTimer = some deadlineMs) (hdue : deadlineMs ≤ nowMs)
      (hleft : nowMs < state.timeoutTimeMs)
      (htime : checkedAdd bd 64 nowMs handshakeResendTimeoutMs = .ok timeMs) :
      Fires bd nonces core nowMs [state.frame] { core with rtoTimer := some timeMs }
  | continued {e e' : Endpoint} {calls : List HostCall} (hs : core.state = .active e)
      (hok : e.handleRtoTimer bd nonces nowMs = .ok (e', calls, .continue)) :
      Fires bd nonces core nowMs (sentFrames calls)
        (ClientCore.withEndpoint { core with rtoTimer := none } e' calls).1
  | terminated {e e' : Endpoint} {calls : List HostCall} (hs : core.state = .active e)
      (hok : e.handleRtoTimer bd nonces nowMs = .ok (e', calls, .terminate)) :
      Fires bd nonces core nowMs (sentFrames calls)
        { (ClientCore.withEndpoint { core with rtoTimer := none } e' calls).1 with
          state := .quiescent }
  | quiescent (hs : core.state = .quiescent) :
      Fires bd nonces core nowMs [] { core with rtoTimer := none }

lemma processTimeouts_fires (h : core.processTimeouts bd nonces nowMs = .ok (core', frames)) :
    Fires bd nonces core nowMs frames core' := by
  unfold ClientCore.processTimeouts at h
  cases htimer : core.rtoTimer with
  | none =>
    rw [htimer] at h
    cases h
    exact .idle
  | some deadlineMs =>
    rw [htimer] at h
    dsimp only at h
    by_cases hdue : deadlineMs ≤ nowMs
    · rw [if_pos hdue] at h
      unfold ClientCore.processTimeout at h
      cases hs : core.state with
      | handshake state =>
        rw [hs] at h
        dsimp only at h
        by_cases hexpired : state.timeoutTimeMs ≤ nowMs
        · rw [if_pos hexpired] at h
          cases h
          exact .expired hs
        · rw [if_neg hexpired] at h
          obtain ⟨timeMs, htime, h⟩ := bind_eq_ok.mp h
          cases h
          have hfires : Fires bd nonces core nowMs _ _ :=
            .resend hs htimer hdue (not_le.mp hexpired) htime
          rwa [hs] at hfires
      | active e =>
        rw [hs] at h
        obtain ⟨⟨e', calls, action⟩, hok, h⟩ := bind_eq_ok.mp h
        cases action with
        | «continue» =>
          cases h
          exact .continued hs hok
        | terminate =>
          cases h
          exact .terminated hs hok
      | quiescent =>
        rw [hs] at h
        cases h
        have hfires : Fires bd nonces core nowMs _ _ := .quiescent hs
        rwa [hs] at hfires
    · rw [if_neg hdue] at h
      cases h
      exact .idle

lemma processTimeouts_runs (hsound : StateSound bd core.state)
    (h : core.processTimeouts bd nonces nowMs = .ok (core', frames)) :
    Runs bd core frames core' := by
  cases processTimeouts_fires h with
  | idle => exact .idle rfl
  | expired hs =>
    have hruns : Runs bd { core with rtoTimer := none } _ _ := .fail hs .timeout
    exact hruns.of_events_eq rfl rfl
  | resend hs => exact .handshake hs hs rfl
  | @continued e e' calls hs hok =>
    rw [hs] at hsound
    obtain ⟨heffect, hsound', haction⟩ := Sound.handleRtoTimer hsound hok
    refine ⟨eventsOf calls, withEndpoint_events _ e' calls, ?_⟩
    rw [hs, withEndpoint_state]
    refine (CoreStep.endpoint (by simp) heffect hsound' fun hzombie => ?_).run
    by_contra halive
    cases haction.mpr ⟨halive, hzombie⟩
  | @terminated e e' calls hs hok =>
    rw [hs] at hsound
    obtain ⟨heffect, hsound', haction⟩ := Sound.handleRtoTimer hsound hok
    obtain ⟨halive, hzombie⟩ := haction.mp rfl
    refine ⟨eventsOf calls, withEndpoint_events _ e' calls, ?_⟩
    rw [hs]
    exact (CoreStep.terminate heffect halive hzombie).run
  | quiescent hs => exact ⟨[], (List.append_nil _).symm, .refl _⟩

/-- An answer to the first request is ignored, or the second request follows. -/
lemma handleHandshakeAlphaAck_cases {payloadBytes : Bytes}
    (h : core.handleHandshakeAlphaAck bd payloadBytes nowMs = .ok (core', frames)) :
    (core, ([] : List Bytes)) = (core', frames) ∨ ∃ state frame,
      core.state = .handshake state ∧ state.phase = .alpha ∧
      readPayload HandshakeAlphaAckFrame bd payloadBytes = .ok (some frame) ∧
      frame.clientNonce = state.localNonce ∧
      core.requestBeta bd state frame nowMs = .ok (core', frames) := by
  unfold ClientCore.handleHandshakeAlphaAck at h
  cases hs : core.state with
  | handshake state =>
    rw [hs] at h
    dsimp only at h
    by_cases hphase : state.phase = .alpha
    · rw [if_pos hphase] at h
      obtain ⟨frame, hread, h⟩ := bind_eq_ok.mp h
      cases frame with
      | none => exact .inl (Except.ok.inj h)
      | some frame =>
        dsimp only at h
        by_cases hvalid : frame.clientNonce = state.localNonce ∧
            connectionParamsCompatible localParams frame.serverParams
        · rw [if_pos hvalid] at h
          exact .inr ⟨state, frame, rfl, hphase, hread, hvalid.1, h⟩
        · rw [if_neg hvalid] at h
          exact .inl (Except.ok.inj h)
    · rw [if_neg hphase] at h
      exact .inl (Except.ok.inj h)
  | active e =>
    rw [hs] at h
    exact .inl (Except.ok.inj h)
  | quiescent =>
    rw [hs] at h
    exact .inl (Except.ok.inj h)

lemma requestBeta_cases {state : HandshakeState} {frame : HandshakeAlphaAckFrame}
    (h : core.requestBeta bd state frame nowMs = .ok (core', frames)) :
    ∃ timeoutTimeMs timeMs betaBytes,
      checkedAdd bd 64 nowMs state.timeoutMs = .ok timeoutTimeMs ∧
      checkedAdd bd 64 nowMs handshakeResendTimeoutMs = .ok timeMs ∧
      SimpleFrameWrite.writeBoxed bd (HandshakeBetaFrame.mk localParams frame.clientNonce
        frame.serverNonce frame.serverTimestamp frame.serverMac) = .ok betaBytes ∧
      core' = { core with
        state := .handshake
          { state with phase := .beta, timeoutTimeMs := timeoutTimeMs, frame := betaBytes }
        rtoTimer := some timeMs } ∧
      frames = [betaBytes] := by
  unfold ClientCore.requestBeta at h
  obtain ⟨timeoutTimeMs, htimeout, h⟩ := bind_eq_ok.mp h
  obtain ⟨timeMs, htime, h⟩ := bind_eq_ok.mp h
  obtain ⟨betaBytes, hwrite, h⟩ := bind_eq_ok.mp h
  cases h
  exact ⟨timeoutTimeMs, timeMs, betaBytes, htimeout, htime, hwrite, rfl, rfl⟩

lemma handleHandshakeAlphaAck_runs {payloadBytes : Bytes}
    (h : core.handleHandshakeAlphaAck bd payloadBytes nowMs = .ok (core', frames)) :
    Runs bd core frames core' := by
  rcases handleHandshakeAlphaAck_cases h with hidle | ⟨state, frame, hs, -, -, -, hrequest⟩
  · exact .idle hidle
  · obtain ⟨timeoutTimeMs, timeMs, betaBytes, -, -, -, rfl, rfl⟩ := requestBeta_cases hrequest
    exact .handshake hs rfl rfl

/-- Packets queued before the endpoint existed leave the connection as it is. -/
lemma enqueueAll_spec {packets : List (Bytes × SendMode)} (hsound : e.Sound bd)
    (h : ClientCore.enqueueAll bd e nowMs packets = .ok e') :
    e'.Sound bd ∧ e'.stateId = e.stateId ∧ e'.localNonce = e.localNonce ∧
      e'.remoteNonce = e.remoteNonce := by
  induction packets generalizing e with
  | nil =>
    cases h
    exact ⟨hsound, rfl, rfl, rfl⟩
  | cons packet packets ih =>
    obtain ⟨packetBytes, mode⟩ := packet
    obtain ⟨e₁, henqueue, hrest⟩ := bind_eq_ok.mp h
    obtain ⟨heffect, hsound₁, hstate⟩ := hsound.enqueue henqueue
    have hnonces := heffect.nonces
    obtain ⟨hsound', hstate', hlocal, hremote⟩ := ih hsound₁ hrest
    exact ⟨hsound', hstate'.trans hstate, hlocal.trans hnonces.localNonce_eq,
      hremote.trans hnonces.remoteNonce_eq⟩

lemma toPrio_accepted {config : ChannelBalanceConfig} {prioConfig : Prio.Config}
    (h : config.toPrio bd = .ok prioConfig) (timeoutTimeMs : ℕ) :
    Endpoint.Config.Accepted bd ⟨timeoutTimeMs, prioConfig⟩ := ⟨_, _, h⟩

/-- The endpoint of a client that is now connected: made, initialized, and given the packets
queued up, which it sends. -/
lemma activate_cases {state : HandshakeState}
    (h : core.activate bd nonces state nowMs = .ok (core', frames)) :
    ∃ prioConfig e₀ e₁ e₂ flushCalls,
      core.config.channelBalance.toPrio bd = .ok prioConfig ∧
      Endpoint.new ⟨core.config.connectionTimeoutMs, prioConfig⟩ = .ok e₀ ∧
      e₀.perform bd nonces .init nowMs = .ok ({ e₀ with stateId := .active }, [.onConnect]) ∧
      ClientCore.enqueueAll bd { e₀ with stateId := .active } nowMs state.packetBuffer = .ok e₁ ∧
      e₁.perform bd nonces .flush nowMs = .ok (e₂, flushCalls) ∧
      ClientCore.withEndpoint { core with rtoTimer := none } e₂ (.onConnect :: flushCalls) =
        (core', frames) := by
  obtain ⟨prioConfig, hprio, hcreate⟩ := bind_eq_ok.mp h
  obtain ⟨e₀, hnew, hstart⟩ := bind_eq_ok.mp hcreate
  obtain ⟨⟨e, initCalls⟩, hinit, hfill⟩ := bind_eq_ok.mp hstart
  obtain ⟨e₁, henqueue, hdrain⟩ := bind_eq_ok.mp hfill
  obtain ⟨⟨e₂, flushCalls⟩, hflush, hreturn⟩ := bind_eq_ok.mp hdrain
  have hperform : e₀.perform bd nonces .init nowMs = .ok (e, initCalls) := hinit
  obtain ⟨_, -, hinit⟩ := bind_eq_ok.mp hinit
  cases hinit
  exact ⟨prioConfig, e₀, e₁, e₂, flushCalls, hprio, hnew, hperform, henqueue, hflush,
    Except.ok.inj hreturn⟩

lemma activate_runs {state : HandshakeState} (hs : core.state = .handshake state)
    (h : core.activate bd nonces state nowMs = .ok (core', frames)) :
    Runs bd core frames core' := by
  obtain ⟨prioConfig, e₀, e₁, e₂, flushCalls, hprio, hnew, hinit, henqueue, hflush, hwith⟩ :=
    activate_cases h
  have hsound₀ : e₀.Sound bd := new_isSound (toPrio_accepted hprio _) hnew
  have hfresh := new_fresh hnew
  obtain ⟨hsound₁, hstate₁, hlocal₁, hremote₁⟩ :=
    enqueueAll_spec (hsound₀.perform hinit).2 henqueue
  obtain ⟨heffect, hsound₂⟩ := hsound₁.perform hflush
  have hnonces := heffect.nonces
  have htransport : e₂.stateId = .active ∧ ∀ call ∈ flushCalls, IsTransport call := by
    cases heffect with
    | flush hs' hrun => exact ⟨hrun.sendOnly.stateId_eq.trans hs', hrun.isTransport⟩
    | flushIgnored hs' => exact absurd hstate₁ hs'
  obtain rfl : _ = core' := congrArg Prod.fst hwith
  obtain rfl : _ = frames := congrArg Prod.snd hwith
  refine ⟨[.connect], ?_, ?_⟩
  · rw [withEndpoint_events]
    exact congrArg (fun events => core.events ++ Client.Event.connect :: events)
      (eventsOf_transport htransport.2)
  · rw [hs, withEndpoint_state]
    refine (CoreStep.activate hsound₂ htransport.1 ⟨?_, ?_⟩ htransport.2).run
    · rw [hnonces.localNonce_eq, hlocal₁]
      exact hfresh.localNonce_eq
    · rw [hnonces.remoteNonce_eq, hremote₁]
      exact hfresh.remoteNonce_eq

/-- An answer to the second request is ignored, or it ends the handshake. -/
lemma handleHandshakeBetaAck_cases {payloadBytes : Bytes}
    (h : core.handleHandshakeBetaAck bd nonces payloadBytes nowMs = .ok (core', frames)) :
    (core, ([] : List Bytes)) = (core', frames) ∨ ∃ state error,
      core.state = .handshake state ∧ state.phase = .beta ∧
      readPayload HandshakeBetaAckFrame bd payloadBytes = .ok (some ⟨error, state.localNonce⟩) ∧
      (error = none ∧ core.activate bd nonces state nowMs = .ok (core', frames) ∨
        ∃ kind, error = some kind ∧
          (core.fail (ClientCore.errorKindOf kind), ([] : List Bytes)) = (core', frames)) := by
  unfold ClientCore.handleHandshakeBetaAck at h
  cases hs : core.state with
  | handshake state =>
    rw [hs] at h
    dsimp only at h
    by_cases hphase : state.phase = .beta
    · rw [if_pos hphase] at h
      obtain ⟨frame, hread, h⟩ := bind_eq_ok.mp h
      cases frame with
      | none => exact .inl (Except.ok.inj h)
      | some frame =>
        obtain ⟨error, clientNonce⟩ := frame
        dsimp only at h
        by_cases hnonce : clientNonce = state.localNonce
        · rw [if_pos hnonce] at h
          refine .inr ⟨state, error, rfl, hphase, hnonce ▸ hread, ?_⟩
          cases error with
          | none => exact .inl ⟨rfl, h⟩
          | some kind => exact .inr ⟨kind, rfl, Except.ok.inj h⟩
        · rw [if_neg hnonce] at h
          exact .inl (Except.ok.inj h)
    · rw [if_neg hphase] at h
      exact .inl (Except.ok.inj h)
  | active e =>
    rw [hs] at h
    exact .inl (Except.ok.inj h)
  | quiescent =>
    rw [hs] at h
    exact .inl (Except.ok.inj h)

lemma handleHandshakeBetaAck_runs {payloadBytes : Bytes}
    (h : core.handleHandshakeBetaAck bd nonces payloadBytes nowMs = .ok (core', frames)) :
    Runs bd core frames core' := by
  rcases handleHandshakeBetaAck_cases h with hidle |
    ⟨state, error, hs, -, -, ⟨-, hactivate⟩ | ⟨kind, -, hfail⟩⟩
  · exact .idle hidle
  · exact activate_runs hs hactivate
  · cases hfail
    exact .fail hs _

/-- The call is passed on to the endpoint of a connected client, and ignored otherwise. -/
def Performs (bd : Build) (nonces : ℕ → Bool) (core : ClientCore) (input : Input) (nowMs : ℕ)
    (frames : List Bytes) (core' : ClientCore) : Prop :=
  (core, ([] : List Bytes)) = (core', frames) ∨ ∃ e e' calls, core.state = .active e ∧
    e.perform bd nonces input nowMs = .ok (e', calls) ∧
    core.withEndpoint e' calls = (core', frames)

lemma handleFrameOther_performs {frameType : FrameType} {payloadBytes : Bytes}
    (h : core.handleFrameOther bd nonces frameType payloadBytes nowMs = .ok (core', frames)) :
    Performs bd nonces core (.frame frameType payloadBytes) nowMs frames core' := by
  unfold ClientCore.handleFrameOther at h
  cases hs : core.state with
  | active e =>
    rw [hs] at h
    obtain ⟨⟨e', calls⟩, hok, h⟩ := bind_eq_ok.mp h
    exact .inr ⟨e, e', calls, hs, hok, Except.ok.inj h⟩
  | _ =>
    rw [hs] at h
    exact .inl (Except.ok.inj h)

lemma flush_performs (h : core.flush bd nonces nowMs = .ok (core', frames)) :
    Performs bd nonces core .flush nowMs frames core' := by
  unfold ClientCore.flush at h
  cases hs : core.state with
  | active e =>
    rw [hs] at h
    obtain ⟨⟨e', calls⟩, hok, h⟩ := bind_eq_ok.mp h
    exact .inr ⟨e, e', calls, hs, hok, Except.ok.inj h⟩
  | _ =>
    rw [hs] at h
    exact .inl (Except.ok.inj h)

lemma disconnect_performs (h : core.disconnect bd nowMs = .ok (core', frames)) :
    Performs bd (fun _ => false) core .disconnect nowMs frames core' := by
  unfold ClientCore.disconnect at h
  cases hs : core.state with
  | active e =>
    rw [hs] at h
    obtain ⟨⟨e', calls⟩, hok, h⟩ := bind_eq_ok.mp h
    exact .inr ⟨e, e', calls, hs, hok, Except.ok.inj h⟩
  | _ =>
    rw [hs] at h
    exact .inl (Except.ok.inj h)

lemma Performs.runs (h : Performs bd nonces core input nowMs frames core')
    (hsound : StateSound bd core.state) (hinit : input ≠ .init) (htimer : input ≠ .rtoTimer) :
    Runs bd core frames core' := by
  rcases h with hidle | ⟨e, e', calls, hs, hok, hcore⟩
  · exact .idle hidle
  · rw [hs] at hsound
    cases hcore
    exact .endpoint hs hsound hinit htimer hok

/-- A frame is ignored, or it has a known type and the right checksum and is handled. -/
lemma handleFrame_cases {frameBytes : Bytes}
    (h : core.handleFrame bd nonces frameBytes nowMs = .ok (core', frames)) :
    (core, ([] : List Bytes)) = (core', frames) ∨ ∃ frameType payloadBytes,
      readType bd frameBytes = .ok (some frameType) ∧ payload bd frameBytes = .ok payloadBytes ∧
      core.dispatchFrame bd nonces frameType payloadBytes nowMs = .ok (core', frames) := by
  unfold ClientCore.handleFrame at h
  by_cases hsize : verifyMinimumSize frameBytes = true
  · rw [if_pos hsize] at h
    obtain ⟨frameType, htype, h⟩ := bind_eq_ok.mp h
    cases frameType with
    | none => exact .inl (Except.ok.inj h)
    | some frameType =>
      obtain ⟨valid, -, h⟩ := bind_eq_ok.mp h
      by_cases hvalid : valid = true
      · rw [if_pos hvalid] at h
        obtain ⟨payloadBytes, hpayload, h⟩ := bind_eq_ok.mp h
        exact .inr ⟨frameType, payloadBytes, htype, hpayload, h⟩
      · rw [if_neg hvalid] at h
        exact .inl (Except.ok.inj h)
  · rw [if_neg hsize] at h
    exact .inl (Except.ok.inj h)

lemma handleFrame_runs {frameBytes : Bytes} (hsound : StateSound bd core.state)
    (h : core.handleFrame bd nonces frameBytes nowMs = .ok (core', frames)) :
    Runs bd core frames core' := by
  rcases handleFrame_cases h with hidle | ⟨frameType, payloadBytes, -, -, hdispatch⟩
  · exact .idle hidle
  · unfold ClientCore.dispatchFrame at hdispatch
    cases frameType with
    | handshakeAlphaAck => exact handleHandshakeAlphaAck_runs hdispatch
    | handshakeBetaAck => exact handleHandshakeBetaAck_runs hdispatch
    | _ => exact (handleFrameOther_performs hdispatch).runs hsound (by simp) (by simp)

/-- What a packet of the user leads to. Nothing is sent yet. -/
lemma enqueue_cases {packetBytes : Bytes} {mode : SendMode}
    (h : core.enqueue bd packetBytes mode nowMs = .ok (core', frames)) :
    frames = [] ∧ ((∃ state, core.state = .handshake state ∧
        core' = core.buffer state packetBytes mode) ∨
      (∃ e e', core.state = .active e ∧ e.enqueue bd packetBytes mode nowMs = .ok e' ∧
        core' = { core with state := .active e' }) ∨
      core.state = .quiescent ∧ core' = core) := by
  unfold ClientCore.enqueue at h
  cases hs : core.state with
  | handshake state =>
    rw [hs] at h
    cases h
    exact ⟨rfl, .inl ⟨state, rfl, rfl⟩⟩
  | active e =>
    rw [hs] at h
    obtain ⟨e', hok, h⟩ := bind_eq_ok.mp h
    cases h
    exact ⟨rfl, .inr (.inl ⟨e, e', rfl, hok, rfl⟩)⟩
  | quiescent =>
    rw [hs] at h
    cases h
    exact ⟨rfl, .inr (.inr ⟨rfl, rfl⟩)⟩

lemma enqueue_runs {packetBytes : Bytes} {mode : SendMode} (hsound : StateSound bd core.state)
    (h : core.enqueue bd packetBytes mode nowMs = .ok (core', frames)) :
    Runs bd core frames core' ∧ StateSound bd core'.state := by
  obtain ⟨rfl, ⟨state, hs, rfl⟩ | ⟨e, e', hs, hok, rfl⟩ | ⟨hs, rfl⟩⟩ := enqueue_cases h
  · exact ⟨.handshake hs rfl rfl, trivial⟩
  · rw [hs] at hsound
    obtain ⟨heffect, hsound', hstate⟩ := Sound.enqueue hsound hok
    refine ⟨⟨[], (List.append_nil _).symm, ?_⟩, hsound'⟩
    rw [hs]
    exact (CoreStep.endpoint (by simp) heffect hsound' fun hzombie => hstate ▸ hzombie).run
  · exact ⟨.idle rfl, hsound⟩

/-- `send` is `enqueue` followed by `flush`. -/
lemma send_eq (bd : Build) (nonces : ℕ → Bool) (core : ClientCore) (packetBytes : Bytes)
    (mode : SendMode) (nowMs : ℕ) : core.send bd nonces packetBytes mode nowMs =
      core.enqueue bd packetBytes mode nowMs >>= fun res => res.1.flush bd nonces nowMs := by
  unfold ClientCore.send ClientCore.enqueue
  cases hs : core.state with
  | handshake state => rfl
  | active e =>
    dsimp only
    cases e.enqueue bd packetBytes mode nowMs with
    | error _ => rfl
    | ok e' => rfl
  | quiescent =>
    dsimp only [ok_bind]
    unfold ClientCore.flush
    rw [hs]

lemma CoreStep.sound {s s' : Client.State} {events : List Event}
    (h : CoreStep bd s events frames s') : StateSound bd s' := by
  cases h with
  | activate hsound hactive hnonces hcalls => exact hsound
  | endpoint hinput heffect hsound halive => exact hsound
  | _ => trivial

lemma CoreRun.trans {s₁ s₂ s₃ : Client.State} {events events' : List Event}
    {frames frames' : List Bytes} (h : CoreRun bd s₁ events frames s₂)
    (h' : CoreRun bd s₂ events' frames' s₃) :
    CoreRun bd s₁ (events ++ events') (frames ++ frames') s₃ := by
  induction h with
  | refl s => exact h'
  | step hstep rest ih =>
    rw [List.append_assoc, List.append_assoc]
    exact .step hstep (ih h')

lemma send_runs {packetBytes : Bytes} {mode : SendMode} (hsound : StateSound bd core.state)
    (h : core.send bd nonces packetBytes mode nowMs = .ok (core', frames)) :
    Runs bd core frames core' := by
  rw [send_eq] at h
  obtain ⟨⟨core₁, frames₁⟩, henqueue, hflush⟩ := bind_eq_ok.mp h
  obtain ⟨hnone, -⟩ := enqueue_cases henqueue
  obtain ⟨⟨events₁, hevents₁, hrun₁⟩, hsound₁⟩ := enqueue_runs hsound henqueue
  obtain ⟨events₂, hevents₂, hrun₂⟩ := (flush_performs hflush).runs hsound₁ (by simp) (by simp)
  refine ⟨events₁ ++ events₂, by rw [hevents₂, hevents₁, List.append_assoc], ?_⟩
  have hrun := hrun₁.trans hrun₂
  rwa [hnone, List.nil_append] at hrun

end Calls

section Invariants
variable {bd : Build}

/-- A property of the state of a client, of the events it has produced and of the frames it
has sent that every single step on the core keeps. -/
def KeptBySteps (bd : Build) (keep : Client.State → List Event → List Bytes → Prop) : Prop :=
  ∀ s events frames s' events' frames', StateSound bd s → keep s events frames →
    CoreStep bd s events' frames' s' → keep s' (events ++ events') (frames ++ frames')

lemma CoreRun.keeps {keep : Client.State → List Event → List Bytes → Prop}
    (hkeep : KeptBySteps bd keep) {s s' : Client.State} {events events' : List Event}
    {frames frames' : List Bytes} (hsound : StateSound bd s) (h : keep s events frames)
    (hrun : CoreRun bd s events' frames' s') :
    StateSound bd s' ∧ keep s' (events ++ events') (frames ++ frames') := by
  induction hrun generalizing events frames with
  | refl s =>
    rw [List.append_nil, List.append_nil]
    exact ⟨hsound, h⟩
  | step hstep rest ih =>
    rw [← List.append_assoc, ← List.append_assoc]
    exact ih hstep.sound (hkeep _ _ _ _ _ _ hsound h hstep)

lemma Step.keeps {keep : Client.State → List Event → List Bytes → Prop}
    (hkeep : KeptBySteps bd keep) {s s' : State} {a : Action}
    (hsound : StateSound bd s.core.state) (h : keep s.core.state s.produced s.sent)
    (hstep : Step bd s a s') :
    StateSound bd s'.core.state ∧ keep s'.core.state s'.produced s'.sent := by
  have hruns : ∀ {core : ClientCore} {frames : List Bytes}, Runs bd s.core frames core →
      StateSound bd core.state ∧ keep core.state (s.polled ++ core.events) (s.sent ++ frames) := by
    rintro core frames ⟨events, hevents, hrun⟩
    rw [hevents, ← List.append_assoc]
    exact hrun.keeps hkeep hsound h
  cases hstep with
  | frame hok => exact hruns (handleFrame_runs hsound hok)
  | timeouts hok => exact hruns (processTimeouts_runs hsound hok)
  | send hok => exact hruns (send_runs hsound hok)
  | enqueue hok => exact hruns (enqueue_runs hsound hok).1
  | flush hok => exact hruns ((flush_performs hok).runs hsound (by simp) (by simp))
  | disconnect hok => exact hruns ((disconnect_performs hok).runs hsound (by simp) (by simp))
  | @poll event events hevents =>
    refine ⟨hsound, ?_⟩
    unfold State.produced at h ⊢
    rw [hevents] at h
    rw [List.append_assoc]
    exact h

/-- The rule for properties of whole runs. -/
lemma reachable_keeps {keep : Client.State → List Event → List Bytes → Prop}
    (hkeep : KeptBySteps bd keep)
    (hinit : ∀ state frames, keep (.handshake state) [] frames) {s : State}
    (hs : Reachable (system bd) s) :
    StateSound bd s.core.state ∧ keep s.core.state s.produced s.sent := by
  have hrule := @Reachable.invariant _ _ (system bd)
    fun s => StateSound bd s.core.state ∧ keep s.core.state s.produced s.sent
  refine hrule (fun s h => ?_) (fun s a s' h hstep => Step.keeps hkeep h.1 h.2 hstep) hs
  obtain ⟨config, localNonce, frame, -, -, rfl⟩ := fresh_of_initial h
  exact ⟨trivial, hinit _ _⟩

end Invariants

end Redpine.ClientRun
