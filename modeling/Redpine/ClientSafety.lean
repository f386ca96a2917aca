import Redpine.ClientLifecycle
import Redpine.EndpointTotal
import Redpine.SimpleFrames
import Redpine.WireTotal

/-! No datagram and no order of calls makes a client fail, from the first request of its
handshake to the end of its connection. -/
namespace Redpine.ClientSafety
open Machine Buffer Wire Endpoint Transition Client EndpointHost

/-- A client, and the time of the latest call. -/
structure State where
  client : ClientRun.State
  nowMs : ℕ

abbrev Action := ClientRun.Action

/-- The time at which an action is taken. -/
def timeOf (nowMs : ℕ) : Action → ℕ
  | .frame _ timeMs _ => timeMs
  | .timeouts timeMs _ => timeMs
  | .send _ _ timeMs _ => timeMs
  | .enqueue _ _ timeMs => timeMs
  | .flush timeMs _ => timeMs
  | .disconnect timeMs => timeMs
  | .poll => nowMs

/-- A datagram fits into the buffer it is received in, and no packet is empty. -/
def Allowed (s : State) : Action → Prop
  | .frame frameBytes _ _ => frameBytes.length ≤ Client.frameSizeMax
  | .send packetBytes _ _ _ => packetBytes ≠ []
  | .enqueue packetBytes _ _ => packetBytes ≠ []
  | .poll => s.client.core.events ≠ []
  | _ => True

/-- The timeout of the handshake can be added to any time. -/
def Initial (bd : Build) (s : State) : Prop :=
  ClientRun.Initial bd s.client ∧ s.client.core.config.handshakeTimeoutMs < 2 ^ 62 ∧ s.nowMs = 0

/-- An action at a time: the clock does not go back. -/
structure Step (bd : Build) (s : State) (a : Action) (s' : State) : Prop where
  allowed : Allowed s a
  clock : s.nowMs ≤ timeOf s.nowMs a
  clock_lt : timeOf s.nowMs a < 2 ^ 62
  step : ClientRun.Step bd s.client a s'.client
  nowMs_eq : s'.nowMs = timeOf s.nowMs a

def system (bd : Build) : System State Action := ⟨Initial bd, Step bd⟩

/-- What keeps a client from failing, in each of its states. -/
def StateSafe (bd : Build) (timer : Option ℕ) (nowMs : ℕ) : Client.State → Prop
  | .handshake state => state.timeoutMs < 2 ^ 62 ∧ ∀ packet ∈ state.packetBuffer, packet.1 ≠ []
  | .active e => e.Healthy bd nowMs ∧ Ready e timer
  | .quiescent => True

structure CoreSafe (bd : Build) (core : ClientCore) (nowMs : ℕ) : Prop where
  priorities : ∃ prioConfig, core.config.channelBalance.toPrio bd = .ok prioConfig
  state : StateSafe bd core.rtoTimer nowMs core.state

/-- The call returns and leaves the client safe. -/
def SafeCall (bd : Build) (nowMs : ℕ) (result : Exec (ClientCore × List Bytes)) : Prop :=
  ∃ core frames, result = .ok (core, frames) ∧ CoreSafe bd core nowMs

section HostCalls
variable {core : ClientCore} {calls : List HostCall}

lemma foldl_hostCall_rtoTimer :
    (calls.foldl ClientCore.hostCall core).rtoTimer = timerCalls core.rtoTimer calls := by
  induction calls generalizing core with
  | nil => rfl
  | cons call calls ih =>
    rw [List.foldl_cons, ih, timerCalls_cons]
    cases call <;> rfl

lemma withEndpoint_config (e : Endpoint) :
    (core.withEndpoint e calls).1.config = core.config :=
  (ClientRun.foldl_hostCall calls _).2.1

end HostCalls

section Config
variable {bd : Build} {core core' : ClientCore} {frames : List Bytes} {nowMs : ℕ}
  {nonces : ℕ → Bool} {input : Input}

lemma config_of_idle (h : (core, ([] : List Bytes)) = (core', frames)) :
    core'.config = core.config := by
  cases h
  rfl

lemma config_of_withEndpoint {e : Endpoint} {calls : List HostCall}
    (h : core.withEndpoint e calls = (core', frames)) : core'.config = core.config := by
  cases h
  exact withEndpoint_config e

lemma processTimeouts_config (h : core.processTimeouts bd nonces nowMs = .ok (core', frames)) :
    core'.config = core.config := by
  cases ClientRun.processTimeouts_fires h with
  | @continued e e' calls hs hok => exact withEndpoint_config e'
  | @terminated e e' calls hs hok =>
    have hwith : (ClientCore.withEndpoint { core with rtoTimer := none } e' calls).1.config =
        core.config := withEndpoint_config e'
    exact hwith
  | _ => rfl

lemma handleHandshakeAlphaAck_config {payloadBytes : Bytes}
    (h : core.handleHandshakeAlphaAck bd payloadBytes nowMs = .ok (core', frames)) :
    core'.config = core.config := by
  rcases ClientRun.handleHandshakeAlphaAck_cases h with hidle | ⟨_, _, -, -, -, -, hrequest⟩
  · exact config_of_idle hidle
  · obtain ⟨_, _, _, -, -, -, rfl, -⟩ := ClientRun.requestBeta_cases hrequest
    rfl

lemma handleHandshakeBetaAck_config {payloadBytes : Bytes}
    (h : core.handleHandshakeBetaAck bd nonces payloadBytes nowMs = .ok (core', frames)) :
    core'.config = core.config := by
  rcases ClientRun.handleHandshakeBetaAck_cases h with hidle |
    ⟨_, _, -, -, -, ⟨-, hactivate⟩ | ⟨_, -, hfail⟩⟩
  · exact config_of_idle hidle
  · obtain ⟨_, _, _, e, flushCalls, -, -, -, -, -, hwith⟩ := ClientRun.activate_cases hactivate
    have hconfig : core'.config = ({ core with rtoTimer := none } : ClientCore).config :=
      config_of_withEndpoint hwith
    exact hconfig
  · cases hfail
    rfl

lemma Performs.config (h : ClientRun.Performs bd nonces core input nowMs frames core') :
    core'.config = core.config := by
  rcases h with hidle | ⟨_, _, _, -, -, hcore⟩
  · exact config_of_idle hidle
  · exact config_of_withEndpoint hcore

lemma handleFrame_config {frameBytes : Bytes}
    (h : core.handleFrame bd nonces frameBytes nowMs = .ok (core', frames)) :
    core'.config = core.config := by
  rcases ClientRun.handleFrame_cases h with hidle | ⟨frameType, payloadBytes, -, -, hdispatch⟩
  · exact config_of_idle hidle
  · unfold ClientCore.dispatchFrame at hdispatch
    cases frameType with
    | handshakeAlphaAck => exact handleHandshakeAlphaAck_config hdispatch
    | handshakeBetaAck => exact handleHandshakeBetaAck_config hdispatch
    | _ => exact Performs.config (ClientRun.handleFrameOther_performs hdispatch)

lemma enqueue_config {packetBytes : Bytes} {mode : SendMode}
    (h : core.enqueue bd packetBytes mode nowMs = .ok (core', frames)) :
    core'.config = core.config := by
  obtain ⟨-, ⟨_, -, rfl⟩ | ⟨_, _, -, -, rfl⟩ | ⟨-, rfl⟩⟩ := ClientRun.enqueue_cases h <;> rfl

/-- The configuration of a client is never changed. -/
lemma coreCall_config {a : Action} (h : ClientRun.coreCall bd core a = .ok (core', frames)) :
    core'.config = core.config := by
  cases a with
  | frame frameBytes nowMs nonces => exact handleFrame_config h
  | timeouts nowMs nonces => exact processTimeouts_config h
  | send packetBytes mode nowMs nonces =>
    have hsend := (ClientRun.send_eq bd nonces core packetBytes mode nowMs).symm.trans h
    obtain ⟨⟨core₁, frames₁⟩, henqueue, hflush⟩ := bind_eq_ok.mp hsend
    exact (Performs.config (ClientRun.flush_performs hflush)).trans (enqueue_config henqueue)
  | enqueue packetBytes mode nowMs => exact enqueue_config h
  | flush nowMs nonces => exact Performs.config (ClientRun.flush_performs h)
  | disconnect nowMs => exact Performs.config (ClientRun.disconnect_performs h)
  | poll =>
    cases h
    rfl

end Config

section Calls
variable {bd : Build} {core : ClientCore} {nowMs : ℕ} {e e' : Endpoint} {calls : List HostCall}
  {input : Input}

lemma CoreSafe.later (h : CoreSafe bd core nowMs) {nowMs' : ℕ} (hle : nowMs ≤ nowMs') :
    CoreSafe bd core nowMs' := by
  refine ⟨h.priorities, ?_⟩
  have hstate := h.state
  unfold StateSafe at hstate ⊢
  cases hs : core.state with
  | handshake state => simpa [hs] using hstate
  | active e =>
    simp only [hs] at hstate
    exact ⟨hstate.1.later hle, hstate.2⟩
  | quiescent => trivial

lemma CoreSafe.idle (h : CoreSafe bd core nowMs) : SafeCall bd nowMs (.ok (core, [])) :=
  ⟨core, [], rfl, h⟩

/-- The endpoint is called, and its host follows. -/
lemma CoreSafe.withEndpoint (h : CoreSafe bd core nowMs) (hhealthy : e.Healthy bd nowMs)
    (hready : Ready e (timerCalls core.rtoTimer calls)) :
    CoreSafe bd (core.withEndpoint e calls).1 nowMs := by
  refine ⟨?_, ?_⟩
  · rw [withEndpoint_config]
    exact h.priorities
  · rw [ClientRun.withEndpoint_state]
    refine ⟨hhealthy, ?_⟩
    change Ready e (calls.foldl ClientCore.hostCall { core with state := .active e }).rtoTimer
    rwa [foldl_hostCall_rtoTimer]

/-- A call on the endpoint other than its timer. -/
lemma CoreSafe.called (h : CoreSafe bd core nowMs) (hs : core.state = .active e)
    (hlt : nowMs < 2 ^ 62) (heffect : Effect bd nowMs e input calls e') (hinit : input ≠ .init)
    (htimer : input ≠ .rtoTimer) (hallowed : EndpointSafety.Allowed input) :
    CoreSafe bd (core.withEndpoint e' calls).1 nowMs := by
  have hstate := h.state
  rw [hs] at hstate
  obtain ⟨hhealthy, hready⟩ := hstate
  exact h.withEndpoint (hhealthy.effect heffect hallowed hlt)
    (hready.effect heffect hhealthy.sound hinit htimer)

lemma CoreSafe.active (h : CoreSafe bd core nowMs) (hs : core.state = .active e) :
    e.Healthy bd nowMs ∧ Ready e core.rtoTimer := by
  have hstate := h.state
  rwa [hs] at hstate

lemma CoreSafe.handshake (h : CoreSafe bd core nowMs) {state : HandshakeState}
    (hs : core.state = .handshake state) :
    state.timeoutMs < 2 ^ 62 ∧ ∀ packet ∈ state.packetBuffer, packet.1 ≠ [] := by
  have hstate := h.state
  rwa [hs] at hstate

lemma CoreSafe.fail (h : CoreSafe bd core nowMs) (kind : ErrorKind) :
    CoreSafe bd (core.fail kind) nowMs := ⟨h.priorities, trivial⟩

theorem processTimeouts_safe (h : CoreSafe bd core nowMs) (hlt : nowMs < 2 ^ 62)
    (nonces : ℕ → Bool) : SafeCall bd nowMs (core.processTimeouts bd nonces nowMs) := by
  unfold ClientCore.processTimeouts
  cases htimer : core.rtoTimer with
  | none => exact h.idle
  | some timeoutMs =>
    dsimp only
    by_cases htime : timeoutMs ≤ nowMs
    · rw [if_pos htime]
      unfold ClientCore.processTimeout
      cases hs : core.state with
      | handshake state =>
        dsimp only
        by_cases hexpired : state.timeoutTimeMs ≤ nowMs
        · rw [if_pos hexpired]
          exact ⟨_, _, rfl, h.priorities, trivial⟩
        · rw [if_neg hexpired, checkedAdd_of_lt (by rw [handshakeResendTimeoutMs]; omega)]
          exact ⟨_, _, rfl, h.priorities, h.handshake hs⟩
      | active e =>
        obtain ⟨hhealthy, hready⟩ := h.active hs
        rw [htimer] at hready
        have hdue := hready.due htime
        obtain ⟨⟨e', calls, action⟩, hok⟩ := hhealthy.handleRtoTimer_total hdue hlt nonces
        obtain ⟨heffect, -, -⟩ := hhealthy.sound.handleRtoTimer hok
        have hcore : CoreSafe bd (ClientCore.withEndpoint { core with rtoTimer := none } e'
            calls).1 nowMs := by
          have hidle : CoreSafe bd { core with rtoTimer := none, state := .quiescent } nowMs :=
            ⟨h.priorities, trivial⟩
          exact hidle.withEndpoint (hhealthy.effect heffect trivial hlt) (hdue.fired heffect hlt _)
        dsimp only
        rw [hok, ok_bind]
        cases action with
        | «continue» => exact ⟨_, _, rfl, hcore⟩
        | terminate => exact ⟨_, _, rfl, hcore.priorities, trivial⟩
      | quiescent => exact ⟨_, _, rfl, h.priorities, by simp [StateSafe]⟩
    · rw [if_neg htime]
      exact h.idle

lemma requestBeta_safe (h : CoreSafe bd core nowMs) (hlt : nowMs < 2 ^ 62)
    {state : HandshakeState} (hs : core.state = .handshake state) (frame : HandshakeAlphaAckFrame) :
    SafeCall bd nowMs (core.requestBeta bd state frame nowMs) := by
  obtain ⟨htimeout, hpackets⟩ := h.handshake hs
  have hwrite : ∀ beta : HandshakeBetaFrame,
      ∃ frameBytes, SimpleFrameWrite.writeBoxed bd beta = .ok frameBytes :=
    fun beta => ⟨_, writeBoxed_eq_frame (t := .handshakeBeta) bd beta⟩
  unfold ClientCore.requestBeta
  rw [checkedAdd_of_lt (by omega), ok_bind,
    checkedAdd_of_lt (by rw [handshakeResendTimeoutMs]; omega), ok_bind]
  obtain ⟨frameBytes, hbytes⟩ := hwrite ⟨localParams, frame.clientNonce, frame.serverNonce,
    frame.serverTimestamp, frame.serverMac⟩
  dsimp only
  rw [hbytes]
  exact ⟨_, _, rfl, h.priorities, htimeout, hpackets⟩

end Calls

section Frames
variable {bd : Build} {core : ClientCore} {nowMs : ℕ} {nonces : ℕ → Bool}

lemma handleHandshakeAlphaAck_safe (h : CoreSafe bd core nowMs) (hlt : nowMs < 2 ^ 62)
    (payloadBytes : Bytes) :
    SafeCall bd nowMs (core.handleHandshakeAlphaAck bd payloadBytes nowMs) := by
  unfold ClientCore.handleHandshakeAlphaAck
  cases hs : core.state with
  | handshake state =>
    dsimp only
    by_cases hphase : state.phase = .alpha
    · obtain ⟨frame, hread⟩ := readPayload_total HandshakeAlphaAckFrame bd payloadBytes
      rw [if_pos hphase, hread, ok_bind]
      cases frame with
      | none => exact h.idle
      | some frame =>
        dsimp only
        by_cases hvalid : frame.clientNonce = state.localNonce ∧
            connectionParamsCompatible localParams frame.serverParams
        · rw [if_pos hvalid]
          exact requestBeta_safe h hlt hs frame
        · rw [if_neg hvalid]
          exact h.idle
    · rw [if_neg hphase]
      exact h.idle
  | active e => exact h.idle
  | quiescent => exact h.idle

/-- The packets queued up during the handshake are passed on. -/
lemma enqueueAll_total {e : Endpoint} (h : e.Healthy bd nowMs) (hs : e.stateId = .active)
    (hidle : e.rtoTimerState = none) (hlt : nowMs < 2 ^ 62) {packets : List (Bytes × SendMode)}
    (hpackets : ∀ packet ∈ packets, packet.1 ≠ []) :
    ∃ e', ClientCore.enqueueAll bd e nowMs packets = .ok e' ∧ e'.Healthy bd nowMs ∧
      e'.stateId = .active ∧ e'.rtoTimerState = none := by
  induction packets generalizing e with
  | nil => exact ⟨e, rfl, h, hs, hidle⟩
  | cons packet packets ih =>
    obtain ⟨packetBytes, mode⟩ := packet
    have hne : packetBytes ≠ [] := hpackets _ List.mem_cons_self
    obtain ⟨e₁, henqueue⟩ := h.enqueue_total hlt hne mode
    obtain ⟨heffect, -, -⟩ := h.sound.enqueue henqueue
    have hkept : e₁.stateId = .active ∧ e₁.rtoTimerState = none := by
      cases heffect with
      | enqueue hs' hqueue => exact ⟨hs, hidle⟩
      | enqueueIgnored hs' => exact ⟨hs, hidle⟩
    obtain ⟨e', hrest, hend⟩ := ih (h.effect heffect hne hlt) hkept.1 hkept.2
      fun q hq => hpackets q (List.mem_cons_of_mem _ hq)
    refine ⟨e', ?_, hend⟩
    unfold ClientCore.enqueueAll
    rw [henqueue, ok_bind, hrest]

lemma activate_safe (h : CoreSafe bd core nowMs) (hlt : nowMs < 2 ^ 62) {state : HandshakeState}
    (hs : core.state = .handshake state) :
    SafeCall bd nowMs (core.activate bd nonces state nowMs) := by
  obtain ⟨prioConfig, hprio⟩ := h.priorities
  obtain ⟨-, hpackets⟩ := h.handshake hs
  obtain ⟨e₀, hnew⟩ := new_total ⟨core.config.connectionTimeoutMs, prioConfig⟩
  have hfresh := new_fresh hnew
  have hhealthy := (new_healthy (ClientRun.toPrio_accepted hprio _) hnew nowMs).activated
  have hpre : e₀.stateId = .preInit := hfresh.stateId_eq
  obtain ⟨e₁, henqueue, hhealthy₁, hactive₁, hidle₁⟩ :=
    enqueueAll_total hhealthy rfl hfresh.rtoTimerState_eq hlt hpackets
  obtain ⟨⟨e₂, flushCalls⟩, hflush⟩ := hhealthy₁.flush_total hlt nonces
  have hperform : e₁.perform bd nonces .flush nowMs = .ok (e₂, flushCalls) := hflush
  have heffect := (hhealthy₁.sound.perform hperform).1
  have hready : Ready e₁ none := .of_active hactive₁ (by rw [hidle₁]; exact inStep_none)
  have hready₂ := hready.effect heffect hhealthy₁.sound (by simp) (by simp)
  have hcore : CoreSafe bd { core with rtoTimer := none, state := .quiescent } nowMs :=
    ⟨h.priorities, trivial⟩
  unfold ClientCore.activate Endpoint.init
  rw [hprio, ok_bind, hnew, ok_bind, debugAssert_true hpre, ok_bind]
  dsimp only
  simp only [pure_eq_ok, ok_bind]
  rw [henqueue, ok_bind, hflush, ok_bind]
  have hready₃ : Ready e₂ (timerCalls none (HostCall.onConnect :: flushCalls)) := hready₂
  exact ⟨_, _, rfl, hcore.withEndpoint (hhealthy₁.effect heffect trivial hlt) hready₃⟩

lemma handleHandshakeBetaAck_safe (h : CoreSafe bd core nowMs) (hlt : nowMs < 2 ^ 62)
    (payloadBytes : Bytes) :
    SafeCall bd nowMs (core.handleHandshakeBetaAck bd nonces payloadBytes nowMs) := by
  unfold ClientCore.handleHandshakeBetaAck
  cases hs : core.state with
  | handshake state =>
    dsimp only
    by_cases hphase : state.phase = .beta
    · obtain ⟨frame, hread⟩ := readPayload_total HandshakeBetaAckFrame bd payloadBytes
      rw [if_pos hphase, hread, ok_bind]
      cases frame with
      | none => exact h.idle
      | some frame =>
        dsimp only
        by_cases hnonce : frame.clientNonce = state.localNonce
        · rw [if_pos hnonce]
          cases frame.error with
          | none => exact activate_safe h hlt hs
          | some kind => exact ⟨_, _, rfl, h.fail _⟩
        · rw [if_neg hnonce]
          exact h.idle
    · rw [if_neg hphase]
      exact h.idle
  | active e => exact h.idle
  | quiescent => exact h.idle

lemma handleFrameOther_safe (h : CoreSafe bd core nowMs) (hlt : nowMs < 2 ^ 62)
    (frameType : FrameType) {payloadBytes : Bytes}
    (hlen : payloadBytes.length ≤ EndpointSafety.payloadSizeMax) :
    SafeCall bd nowMs (core.handleFrameOther bd nonces frameType payloadBytes nowMs) := by
  unfold ClientCore.handleFrameOther
  cases hs : core.state with
  | handshake state => exact h.idle
  | active e =>
    obtain ⟨hhealthy, -⟩ := h.active hs
    obtain ⟨⟨e', calls⟩, hok⟩ := hhealthy.handleFrame_total hlt nonces frameType hlen
    have hperform : e.perform bd nonces (.frame frameType payloadBytes) nowMs = .ok (e', calls) :=
      hok
    dsimp only
    rw [hok]
    exact ⟨_, _, rfl, h.called hs hlt (hhealthy.sound.perform hperform).1 (by simp) (by simp) hlen⟩
  | quiescent => exact h.idle

/-- A datagram is handled, whatever it consists of. -/
theorem handleFrame_safe (h : CoreSafe bd core nowMs) (hlt : nowMs < 2 ^ 62) {frameBytes : Bytes}
    (hlen : frameBytes.length ≤ Client.frameSizeMax) :
    SafeCall bd nowMs (core.handleFrame bd nonces frameBytes nowMs) := by
  unfold ClientCore.handleFrame
  by_cases hsize : verifyMinimumSize frameBytes = true
  · have hmin := le_length_of_verify hsize
    obtain ⟨frameType, htype⟩ := readType_total bd hsize
    rw [if_pos hsize, htype, ok_bind]
    cases frameType with
    | none => exact h.idle
    | some frameType =>
      have hfour : 4 ≤ frameBytes.length := by omega
      obtain ⟨valid, hvalid⟩ := verifyCrc_total bd hfour
      dsimp only
      rw [hvalid, ok_bind]
      cases valid with
      | false => exact h.idle
      | true =>
        obtain ⟨payloadBytes, hpayload, hlength⟩ := payload_total bd hsize
        have hfits : payloadBytes.length ≤ EndpointSafety.payloadSizeMax := by
          rw [Client.frameSizeMax] at hlen
          rw [EndpointSafety.payloadSizeMax]
          omega
        rw [if_pos rfl, hpayload, ok_bind]
        unfold ClientCore.dispatchFrame
        cases frameType with
        | handshakeAlphaAck => exact handleHandshakeAlphaAck_safe h hlt payloadBytes
        | handshakeBetaAck => exact handleHandshakeBetaAck_safe h hlt payloadBytes
        | _ => exact handleFrameOther_safe h hlt _ hfits
  · rw [if_neg hsize]
    exact h.idle

end Frames

section Calls
variable {bd : Build} {core : ClientCore} {nowMs : ℕ} {nonces : ℕ → Bool}

lemma enqueue_safe (h : CoreSafe bd core nowMs) (hlt : nowMs < 2 ^ 62) {packetBytes : Bytes}
    (hne : packetBytes ≠ []) (mode : SendMode) :
    SafeCall bd nowMs (core.enqueue bd packetBytes mode nowMs) := by
  unfold ClientCore.enqueue
  cases hs : core.state with
  | handshake state =>
    obtain ⟨htimeout, hpackets⟩ := h.handshake hs
    refine ⟨_, _, rfl, h.priorities, htimeout, fun packet hpacket => ?_⟩
    rcases List.mem_append.mp hpacket with hpacket | hpacket
    · exact hpackets packet hpacket
    · rw [List.mem_singleton.mp hpacket]
      exact hne
  | active e =>
    obtain ⟨hhealthy, hready⟩ := h.active hs
    obtain ⟨e', henqueue⟩ := hhealthy.enqueue_total hlt hne mode
    obtain ⟨heffect, -, -⟩ := hhealthy.sound.enqueue henqueue
    dsimp only
    rw [henqueue]
    exact ⟨_, _, rfl, h.priorities, hhealthy.effect heffect hne hlt,
      hready.effect heffect hhealthy.sound (by simp) (by simp)⟩
  | quiescent => exact h.idle

lemma flush_safe (h : CoreSafe bd core nowMs) (hlt : nowMs < 2 ^ 62) (nonces : ℕ → Bool) :
    SafeCall bd nowMs (core.flush bd nonces nowMs) := by
  unfold ClientCore.flush
  cases hs : core.state with
  | handshake state => exact h.idle
  | active e =>
    obtain ⟨hhealthy, -⟩ := h.active hs
    obtain ⟨⟨e', calls⟩, hok⟩ := hhealthy.flush_total hlt nonces
    have hperform : e.perform bd nonces .flush nowMs = .ok (e', calls) := hok
    dsimp only
    rw [hok]
    exact ⟨_, _, rfl, h.called hs hlt (hhealthy.sound.perform hperform).1 (by simp) (by simp)
      trivial⟩
  | quiescent => exact h.idle

lemma send_safe (h : CoreSafe bd core nowMs) (hlt : nowMs < 2 ^ 62) {packetBytes : Bytes}
    (hne : packetBytes ≠ []) (mode : SendMode) :
    SafeCall bd nowMs (core.send bd nonces packetBytes mode nowMs) := by
  obtain ⟨core₁, frames₁, henqueue, h₁⟩ := enqueue_safe h hlt hne mode
  obtain ⟨core₂, frames₂, hflush, h₂⟩ := flush_safe h₁ hlt nonces
  refine ⟨core₂, frames₂, ?_, h₂⟩
  rw [ClientRun.send_eq, henqueue, ok_bind]
  exact hflush

lemma disconnect_safe (h : CoreSafe bd core nowMs) (hlt : nowMs < 2 ^ 62) :
    SafeCall bd nowMs (core.disconnect bd nowMs) := by
  unfold ClientCore.disconnect
  cases hs : core.state with
  | handshake state => exact h.idle
  | active e =>
    obtain ⟨hhealthy, -⟩ := h.active hs
    obtain ⟨⟨e', calls⟩, hok⟩ := hhealthy.disconnect_total hlt
    have hperform : e.perform bd (fun _ => false) .disconnect nowMs = .ok (e', calls) := hok
    dsimp only
    rw [hok]
    exact ⟨_, _, rfl, h.called hs hlt (hhealthy.sound.perform hperform).1 (by simp) (by simp)
      trivial⟩
  | quiescent => exact h.idle

end Calls

section Run
variable {bd : Build} {s s' : State} {a : Action}

/-- Each action is a call on the core that returns, and after it the core is safe. -/
theorem coreCall_safe {core : ClientCore} (h : CoreSafe bd core s.nowMs) (ha : Allowed s a)
    (hclock : s.nowMs ≤ timeOf s.nowMs a) (hlt : timeOf s.nowMs a < 2 ^ 62) :
    SafeCall bd (timeOf s.nowMs a) (ClientRun.coreCall bd core a) := by
  have h := h.later hclock
  cases a with
  | frame frameBytes timeMs nonces => exact handleFrame_safe h hlt ha
  | timeouts timeMs nonces => exact processTimeouts_safe h hlt nonces
  | send packetBytes mode timeMs nonces => exact send_safe h hlt ha mode
  | enqueue packetBytes mode timeMs => exact enqueue_safe h hlt ha mode
  | flush timeMs nonces => exact flush_safe h hlt nonces
  | disconnect timeMs => exact disconnect_safe h hlt
  | poll => exact ⟨_, _, rfl, h.priorities, h.state⟩

lemma initial_priorities {s : ClientRun.State} (h : ClientRun.Initial bd s) :
    ∃ prioConfig, s.core.config.channelBalance.toPrio bd = .ok prioConfig := by
  obtain ⟨config, localNonce, frame, hvalidate, -, rfl⟩ := ClientRun.fresh_of_initial h
  obtain ⟨_, -, hvalidate⟩ := bind_eq_ok.mp hvalidate
  obtain ⟨_, -, hvalidate⟩ := bind_eq_ok.mp hvalidate
  obtain ⟨prioConfig, hprio, -⟩ := bind_eq_ok.mp hvalidate
  exact ⟨prioConfig, hprio⟩

lemma initial_safe (h : Initial bd s) : CoreSafe bd s.client.core s.nowMs := by
  obtain ⟨hclient, htimeout, -⟩ := h
  have hprio := initial_priorities hclient
  obtain ⟨config, localNonce, frame, -, -, hfresh⟩ := ClientRun.fresh_of_initial hclient
  rw [hfresh] at htimeout hprio ⊢
  exact ⟨hprio, htimeout, by simp⟩

/-- What a step of the client does to its core, and what it sends. -/
lemma coreCall_of_step {s s' : ClientRun.State} (h : ClientRun.Step bd s a s') :
    ∃ frames, ClientRun.coreCall bd s.core a = .ok (s'.core, frames) ∧
      s'.sent = s.sent ++ frames := by
  cases h with
  | frame hok => exact ⟨_, hok, rfl⟩
  | timeouts hok => exact ⟨_, hok, rfl⟩
  | send hok => exact ⟨_, hok, rfl⟩
  | enqueue hok => exact ⟨_, hok, rfl⟩
  | flush hok => exact ⟨_, hok, rfl⟩
  | disconnect hok => exact ⟨_, hok, rfl⟩
  | poll hevents =>
    refine ⟨[], ?_, (List.append_nil _).symm⟩
    unfold ClientRun.coreCall
    rw [hevents]
    rfl

/-- The weights of the channels are those that have been checked when the client was made. -/
lemma priorities_reachable {s : ClientRun.State} (hs : Reachable (ClientRun.system bd) s) :
    ∃ prioConfig, s.core.config.channelBalance.toPrio bd = .ok prioConfig := by
  induction hs using Reachable.induct with
  | init h => exact initial_priorities h
  | step hs hstep ih =>
    obtain ⟨frames, hok, -⟩ := coreCall_of_step hstep
    rwa [coreCall_config hok]

theorem safe_reachable (hs : Reachable (system bd) s) : CoreSafe bd s.client.core s.nowMs := by
  have hrule := @Reachable.invariant _ _ (system bd) fun s => CoreSafe bd s.client.core s.nowMs
  refine hrule (fun s h => initial_safe h) (fun s a s' h hstep => ?_) hs
  obtain ⟨core, frames, hok, hsafe⟩ := coreCall_safe h hstep.allowed hstep.clock hstep.clock_lt
  obtain ⟨frames', hok', -⟩ := coreCall_of_step hstep.step
  cases hok.symm.trans hok'
  rw [hstep.nowMs_eq]
  exact hsafe

/-- In any run, whatever the datagrams and whatever the order of the calls, the next call
returns: no panic, no failed assertion, no overflow, no access out of range and no loop that
outruns its bound. -/
theorem client_returns (hs : Reachable (system bd) s) (ha : Allowed s a)
    (hclock : s.nowMs ≤ timeOf s.nowMs a) (hlt : timeOf s.nowMs a < 2 ^ 62) :
    ∃ s', Step bd s a s' := by
  obtain ⟨core, frames, hok, -⟩ := coreCall_safe (safe_reachable hs) ha hclock hlt
  cases a with
  | frame frameBytes timeMs nonces => exact ⟨⟨_, timeMs⟩, ha, hclock, hlt, .frame hok, rfl⟩
  | timeouts timeMs nonces => exact ⟨⟨_, timeMs⟩, ha, hclock, hlt, .timeouts hok, rfl⟩
  | send packetBytes mode timeMs nonces => exact ⟨⟨_, timeMs⟩, ha, hclock, hlt, .send hok, rfl⟩
  | enqueue packetBytes mode timeMs => exact ⟨⟨_, timeMs⟩, ha, hclock, hlt, .enqueue hok, rfl⟩
  | flush timeMs nonces => exact ⟨⟨_, timeMs⟩, ha, hclock, hlt, .flush hok, rfl⟩
  | disconnect timeMs => exact ⟨⟨_, timeMs⟩, ha, hclock, hlt, .disconnect hok, rfl⟩
  | poll =>
    obtain ⟨event, events, hevents⟩ := List.exists_cons_of_ne_nil ha
    exact ⟨⟨_, s.nowMs⟩, ha, hclock, hlt, .poll hevents, rfl⟩

end Run

section Sample

/-- A client that has just connected is sent a datagram of garbage. -/
theorem client_returns_garbage : ∃ s s', Reachable (system .debug) s ∧
    ClientRun.hasActiveEndpoint s.client.core.state = true ∧
    Step .debug s (.frame (List.replicate 1472 0xFF) 9 fun _ => false) s' := by
  have hrun : (ClientRun.sampleStart.bind fun s₀ =>
      (ClientRun.next .debug s₀ ClientRun.sampleAnswers[0]).bind fun s₁ =>
        (ClientRun.next .debug s₁ ClientRun.sampleAnswers[1]).map fun s₂ =>
          (s₀.core.config.handshakeTimeoutMs, ClientRun.hasActiveEndpoint s₂.core.state)) =
      some (10000, true) := by decide +kernel
  obtain ⟨s₀, hstart, hrun⟩ := Option.bind_eq_some_iff.mp hrun
  obtain ⟨s₁, hfirst, hrun⟩ := Option.bind_eq_some_iff.mp hrun
  obtain ⟨s₂, hsecond, hrun⟩ := Option.map_eq_some_iff.mp hrun
  obtain ⟨htimeout, hactive⟩ := Prod.mk.inj hrun
  have hinit : Initial .debug ⟨s₀, 0⟩ :=
    ⟨ClientRun.sampleStart_initial hstart, by rw [htimeout]; norm_num, rfl⟩
  have hanswered : Step .debug ⟨s₀, 0⟩ ClientRun.sampleAnswers[0] ⟨s₁, 3⟩ :=
    ⟨(frameOf_length _ _).le.trans (by decide), Nat.zero_le _, show 3 < 2 ^ 62 by norm_num,
      ClientRun.next_step hfirst, rfl⟩
  have hconnected : Step .debug ⟨s₁, 3⟩ ClientRun.sampleAnswers[1] ⟨s₂, 4⟩ :=
    ⟨(frameOf_length _ _).le.trans (by decide), show 3 ≤ 4 by norm_num,
      show 4 < 2 ^ 62 by norm_num, ClientRun.next_step hsecond, rfl⟩
  have hs : Reachable (system .debug) ⟨s₂, 4⟩ :=
    ((Reachable.init hinit).step hanswered).step hconnected
  obtain ⟨s', hstep⟩ := client_returns hs
    (a := .frame (List.replicate 1472 0xFF) 9 fun _ => false) (List.length_replicate).le
    (show 4 ≤ 9 by norm_num) (show 9 < 2 ^ 62 by norm_num)
  exact ⟨_, s', hs, hactive, hstep⟩

end Sample

end Redpine.ClientSafety
