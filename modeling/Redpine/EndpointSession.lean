import Redpine.EndpointStep

/-! The state of a connection. A call on an endpoint is summarized by what it does to the
state of the connection and by the calls the host is answered with. -/
namespace Redpine
open Machine Buffer Wire

/-- The connection is being closed or is over. -/
def StateId.Ended (s : StateId) : Prop := s = .closing ∨ s = .closed ∨ s = .zombie

lemma StateId.ended_of_ne {s : StateId} (hpre : s ≠ .preInit) (hactive : s ≠ .active) :
    s.Ended := by
  cases s <;> simp_all [StateId.Ended]

namespace Endpoint

/-- What a call does to the state of the connection, and the calls it is answered with. -/
inductive Outline (bd : Build) (e : Endpoint) : Input → StateId → List HostCall → Prop
  | init : Outline bd e .init .active [.onConnect]
  | quiet {input : Input} (hinit : input ≠ .init)
      (hdisconnect : input = .disconnect → e.stateId ≠ .active)
      (htimer : input = .rtoTimer → e.stateId = .preInit ∨ e.stateId = .zombie) :
      Outline bd e input e.stateId []
  | stream {input : Input} {calls : List HostCall} (hs : e.stateId = .active)
      (hinit : input ≠ .init) (hdisconnect : input ≠ .disconnect)
      (hcalls : ∀ call ∈ calls, IsTransport call ∨ IsReceive call) :
      Outline bd e input .active calls
  | disconnect {timeMs : ℕ} (hs : e.stateId = .active) :
      Outline bd e .disconnect .closing [.setRtoTimer timeMs, .sendFrame e.closeFrame]
  | close {payloadBytes : Bytes} {timeMs : ℕ} (hs : e.stateId = .active ∨ e.stateId = .closing)
      (hvalid : e.validateCloseFrame bd payloadBytes = .ok true) :
      Outline bd e (.frame .close payloadBytes) .closed
        [.sendFrame e.closeAckFrame, .onDisconnect, .setRtoTimer timeMs]
  | closeAck {payloadBytes : Bytes} {timeMs : ℕ} (hs : e.stateId = .closing)
      (hvalid : e.validateCloseAckFrame bd payloadBytes = .ok true) :
      Outline bd e (.frame .closeAck payloadBytes) .closed [.onDisconnect, .setRtoTimer timeMs]
  | closeAgain {payloadBytes : Bytes} (hs : e.stateId = .closed)
      (hvalid : e.validateCloseFrame bd payloadBytes = .ok true) :
      Outline bd e (.frame .close payloadBytes) .closed [.sendFrame e.closeAckFrame]
  | timeout (hs : e.stateId = .active ∨ e.stateId = .closing) :
      Outline bd e .rtoTimer .zombie [.onTimeout]
  | resendClose {timeMs : ℕ} (hs : e.stateId = .closing) :
      Outline bd e .rtoTimer .closing [.setRtoTimer timeMs, .sendFrame e.closeFrame]
  | destroyed (hs : e.stateId = .closed) : Outline bd e .rtoTimer .zombie []

section Effects
variable {bd : Build} {e e' : Endpoint} {nowMs : ℕ} {input : Input} {calls : List HostCall}

lemma Effect.outline (h : Effect bd nowMs e input calls e') :
    Outline bd e input e'.stateId calls := by
  cases h with
  | init hs => exact .init
  | enqueue hs hqueue => exact .quiet (by simp) (by simp) (by simp)
  | enqueueIgnored hs => exact .quiet (by simp) (by simp) (by simp)
  | flush hs hflush =>
    rw [hflush.sendOnly.stateId_eq, hs]
    exact .stream hs (by simp) (by simp) fun call hcall => .inl (hflush.isTransport call hcall)
  | flushIgnored hs => exact .quiet (by simp) (by simp) (by simp)
  | disconnect hs htime => exact .disconnect hs
  | disconnectIgnored hs => exact .quiet (by simp) (fun _ => hs) (by simp)
  | stream hs hrun =>
    rw [hrun.session.stateId_eq, hs]
    exact .stream hs (by simp) (by simp) hrun.calls_cases
  | sync hs hrun =>
    rw [hrun.session.stateId_eq, hs]
    exact .stream hs (by simp) (by simp) hrun.calls_cases
  | close hs hvalid htime => exact .close hs hvalid
  | closeAck hs hvalid htime => exact .closeAck hs hvalid
  | closeAgain hs hvalid =>
    rw [hs]
    exact .closeAgain hs hvalid
  | frameIgnored hs => exact .quiet (by simp) (by simp) (by simp)
  | timeout hs htimer hsum htimeout => exact .timeout hs
  | resend hs htimer hback hcc hflush =>
    rw [hflush.sendOnly.stateId_eq.trans hs]
    refine .stream hs (by simp) (by simp) fun call hcall => .inl ?_
    rcases List.mem_cons.mp hcall with rfl | hcall
    · exact .inr (.inl ⟨_, rfl⟩)
    · rcases List.mem_cons.mp hcall with rfl | hcall
      · exact .inl ⟨_, rfl⟩
      · exact hflush.isTransport call hcall
  | resendClose hs htimer hback =>
    rw [show (e.rearmed _ _).stateId = .closing from hs]
    exact .resendClose hs
  | destroyed hs => exact .destroyed hs
  | timerIgnored hs => exact .quiet (by simp) (by simp) fun _ => hs

/-- The configuration and the nonces of a connection never change. -/
structure SameNonces (e e' : Endpoint) : Prop where
  config_eq : e'.config = e.config
  localNonce_eq : e'.localNonce = e.localNonce
  remoteNonce_eq : e'.remoteNonce = e.remoteNonce

lemma SameNonces.trans {e'' : Endpoint} (h : SameNonces e e') (h' : SameNonces e' e'') :
    SameNonces e e'' :=
  ⟨h'.1.trans h.1, h'.2.trans h.2, h'.3.trans h.3⟩

lemma SameSession.nonces (h : SameSession e e') : SameNonces e e' :=
  ⟨h.config_eq, h.localNonce_eq, h.remoteNonce_eq⟩

lemma Effect.nonces (h : Effect bd nowMs e input calls e') : SameNonces e e' := by
  cases h with
  | flush hs hflush => exact hflush.sendOnly.session.nonces
  | stream hs hrun => exact hrun.session.nonces
  | sync hs hrun => exact hrun.session.nonces
  | resend hs htimer hback hcc hflush =>
    have h := hflush.sendOnly.session.nonces
    exact ⟨h.1, h.2, h.3⟩
  | _ => exact ⟨rfl, rfl, rfl⟩

end Effects

/-- The sending half is sound, whatever the clock says. -/
def Sound (bd : Build) (e : Endpoint) : Prop := ∃ v, e.Sender bd False 0 v

section Sound
variable {bd : Build} {e e' : Endpoint} {nowMs : ℕ} {nonces : ℕ → Bool} {input : Input}
  {calls : List HostCall}

lemma new_isSound {config : Config} (hconfig : config.Accepted bd)
    (h : Endpoint.new config = .ok e) : e.Sound bd := ⟨_, new_sender bd False 0 hconfig h⟩

lemma Sound.perform (h : e.Sound bd) (hok : e.perform bd nonces input nowMs = .ok (e', calls)) :
    Effect bd nowMs e input calls e' ∧ e'.Sound bd := by
  obtain ⟨v, hsender⟩ := h
  have hsender : e.Sender bd False nowMs v := hsender.later False.elim
  have heffect := hsender.perform False.elim hok
  obtain ⟨v', hsender'⟩ := heffect.sender hsender False.elim False.elim
  exact ⟨heffect, v', hsender'.later False.elim⟩

lemma Sound.enqueue {packetBytes : Bytes} {mode : SendMode} (h : e.Sound bd)
    (hok : e.enqueue bd packetBytes mode nowMs = .ok e') :
    Effect bd nowMs e (.enqueue packetBytes mode) [] e' ∧ e'.Sound bd ∧
      e'.stateId = e.stateId := by
  have hperform : e.perform bd (fun _ => false) (.enqueue packetBytes mode) nowMs =
      .ok (e', []) := bind_eq_ok.mpr ⟨e', hok, rfl⟩
  obtain ⟨heffect, hsound⟩ := h.perform hperform
  refine ⟨heffect, hsound, ?_⟩
  cases heffect with
  | enqueue hs hqueue => rfl
  | enqueueIgnored hs => rfl

lemma Sound.handleRtoTimer {action : TimeoutAction} (h : e.Sound bd)
    (hok : e.handleRtoTimer bd nonces nowMs = .ok (e', calls, action)) :
    Effect bd nowMs e .rtoTimer calls e' ∧ e'.Sound bd ∧
      (action = .terminate ↔ e.stateId ≠ .zombie ∧ e'.stateId = .zombie) := by
  obtain ⟨v, hsender⟩ := h
  have hsender : e.Sender bd False nowMs v := hsender.later False.elim
  obtain ⟨heffect, haction⟩ := hsender.handleRtoTimer False.elim hok
  obtain ⟨v', hsender'⟩ := heffect.sender hsender False.elim False.elim
  exact ⟨heffect, ⟨v', hsender'.later False.elim⟩, haction⟩

/-- Frames with an ack or a segment are passed on to `handle_stream_frame`. -/
lemma StreamRun.handled {frameType : FrameType} {payloadBytes : Bytes} {e₁ : Endpoint}
    {calls₁ : List HostCall} (hrun : StreamRun bd nowMs e frameType payloadBytes calls₁ e₁)
    (hs : e.stateId = .active)
    (hok : e.perform bd nonces (.frame frameType payloadBytes) nowMs = .ok (e', calls)) :
    e.handleStreamFrame bd nonces frameType payloadBytes nowMs = .ok (e', calls) := by
  have hparts : ∃ parts, streamParts frameType = .ok parts := by
    cases hrun with
    | truncated hparts => exact ⟨_, hparts⟩
    | run hparts => exact ⟨_, hparts⟩
  obtain ⟨parts, hparts⟩ := hparts
  have hok : e.handleFrame bd nonces frameType payloadBytes nowMs = .ok (e', calls) := hok
  unfold Endpoint.handleFrame at hok
  simp only [hs] at hok
  cases frameType <;> first | exact hok | cases hparts

end Sound

/-- A frame that requests or acknowledges the end of a connection. -/
def IsCloseFrame (frameBytes : Bytes) : Prop :=
  (∃ obj : CloseFrame, frameBytes = frameOf .close (LawfulBlock.encode obj)) ∨
    ∃ obj : CloseAckFrame, frameBytes = frameOf .closeAck (LawfulBlock.encode obj)

lemma closeFrame_isCloseFrame (e : Endpoint) : IsCloseFrame e.closeFrame := .inl ⟨_, rfl⟩

lemma closeAckFrame_isCloseFrame (e : Endpoint) : IsCloseFrame e.closeAckFrame := .inr ⟨_, rfl⟩

/-- A call of an endpoint that has been disconnected, on either side. -/
def IsFarewell : HostCall → Prop
  | .sendFrame frameBytes => IsCloseFrame frameBytes
  | .onConnect | .onReceive _ _ => False
  | _ => True

section Outline
variable {bd : Build} {e : Endpoint} {input : Input} {s' : StateId} {calls : List HostCall}

/-- A connection that has ended stays so, and says nothing but that it has. -/
lemma Outline.ended (h : Outline bd e input s' calls) (hended : e.stateId.Ended)
    (hinit : input ≠ .init) : s'.Ended ∧ ∀ call ∈ calls, IsFarewell call := by
  have hactive : e.stateId ≠ .active := by
    rintro hs
    rw [hs] at hended
    simp [StateId.Ended] at hended
  cases h with
  | init => exact absurd rfl hinit
  | quiet hinit hdisconnect htimer => exact ⟨hended, by simp⟩
  | stream hs hinit hdisconnect hcalls => exact absurd hs hactive
  | disconnect hs => exact absurd hs hactive
  | close hs hvalid => exact ⟨.inr (.inl rfl), by simp [IsFarewell, closeAckFrame_isCloseFrame]⟩
  | closeAck hs hvalid => exact ⟨.inr (.inl rfl), by simp [IsFarewell]⟩
  | closeAgain hs hvalid =>
    exact ⟨.inr (.inl rfl), by simp [IsFarewell, closeAckFrame_isCloseFrame]⟩
  | timeout hs => exact ⟨.inr (.inr rfl), by simp [IsFarewell]⟩
  | resendClose hs => exact ⟨.inl rfl, by simp [IsFarewell, closeFrame_isCloseFrame]⟩
  | destroyed hs => exact ⟨.inr (.inr rfl), by simp⟩

lemma Outline.zombie (h : Outline bd e input s' calls) (hs : e.stateId = .zombie)
    (hinit : input ≠ .init) : s' = .zombie ∧ calls = [] := by
  cases h with
  | init => exact absurd rfl hinit
  | quiet hinit hdisconnect htimer => exact ⟨hs, rfl⟩
  | stream hs' hinit hdisconnect hcalls => simp [hs] at hs'
  | disconnect hs' => simp [hs] at hs'
  | close hs' hvalid => simp [hs] at hs'
  | closeAck hs' hvalid => simp [hs] at hs'
  | closeAgain hs' hvalid => simp [hs] at hs'
  | timeout hs' => simp [hs] at hs'
  | resendClose hs' => simp [hs] at hs'
  | destroyed hs' => simp [hs] at hs'

lemma Outline.ne_preInit (h : Outline bd e input s' calls) (hs : e.stateId ≠ .preInit) :
    s' ≠ .preInit := by
  cases h with
  | quiet hinit hdisconnect htimer => exact hs
  | _ => simp

/-- An endpoint is activated by its initialization only. -/
lemma Outline.active_of (h : Outline bd e input s' calls) (hs : s' = .active)
    (hinit : input ≠ .init) : e.stateId = .active := by
  cases h with
  | init => exact absurd rfl hinit
  | quiet hinit' hdisconnect htimer => exact hs
  | stream hs' hinit' hdisconnect hcalls => exact hs'
  | _ => cases hs

/-- Only the timer ends the life of an endpoint. -/
lemma Outline.zombie_of (h : Outline bd e input s' calls) (hs : e.stateId ≠ .zombie)
    (hinput : input ≠ .rtoTimer) : s' ≠ .zombie := by
  cases h with
  | quiet hinit hdisconnect htimer => exact hs
  | timeout hs' => exact absurd rfl hinput
  | destroyed hs' => exact absurd rfl hinput
  | _ => simp

end Outline

end Endpoint

end Redpine
