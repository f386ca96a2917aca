import Redpine.ClientRun
import Redpine.WireRoundTrip

/-! The life of a client: the order of its events, and what is left of it once its
connection has ended. -/
namespace Redpine.ClientRun
open Machine Buffer Wire Endpoint Transition Client

/-- The events of a client: its handshake fails, or it has a session, or it is still trying. -/
def IsHistory (events : List Client.Event) : Prop :=
  events = [] ∨ (∃ kind, events = [.error kind]) ∨ IsSession events

/-- What a client has produced in each of its states. -/
def ClientLived : Client.State → List Client.Event → Prop
  | .handshake _, events => events = []
  | .active e, events => e.stateId ≠ .preInit ∧ e.stateId ≠ .zombie ∧ Lived e.stateId events
  | .quiescent, events => (∃ kind, events = [.error kind]) ∨ Lived .zombie events

/-- The handshake has been left behind, and the endpoint, if there is one, has ended. -/
def HasEnded : Client.State → Prop
  | .handshake _ => False
  | .active e => e.stateId.Ended
  | .quiescent => True

section Lifecycle
variable {bd : Build} {s s' : State} {a : Action}

lemma clientLived_kept : KeptBySteps bd fun state events _ => ClientLived state events := by
  intro state events frames state' events' frames' hsound h hstep
  cases hstep with
  | handshake => exact (List.append_nil events).trans h
  | fail kind =>
    obtain rfl : events = [] := h
    exact .inl ⟨kind, rfl⟩
  | activate hsound' hactive hnonces hcalls =>
    obtain rfl : events = [] := h
    refine ⟨by simp [hactive], by simp [hactive], ?_⟩
    rw [hactive]
    exact ⟨[], rfl⟩
  | endpoint hinput heffect hsound' halive =>
    obtain ⟨hinit, hzombie, hlived⟩ := h
    have houtline := heffect.outline
    exact ⟨houtline.ne_preInit hinit, mt halive hzombie,
      hlived.step houtline fun heq => absurd heq hinput⟩
  | terminate heffect halive hzombie =>
    obtain ⟨hinit, -, hlived⟩ := h
    have houtline := heffect.outline
    rw [hzombie] at houtline
    exact .inr (hlived.step houtline fun heq => by cases heq)

lemma clientLived (hs : Reachable (system bd) s) :
    StateSound bd s.core.state ∧ ClientLived s.core.state s.produced :=
  reachable_keeps clientLived_kept (fun _ _ => rfl) hs

/-- The client has ended in this way, with these events and frames, and since then has
received nothing and sent nothing but the frames that close the connection. -/
def Farewell (events₀ : List Client.Event) (frames₀ : List Bytes) (state : Client.State)
    (events : List Client.Event) (frames : List Bytes) : Prop :=
  HasEnded state ∧
    (∃ more, events = events₀ ++ more ∧ ∀ event ∈ more, ¬ IsReceived event) ∧
    ∃ more, frames = frames₀ ++ more ∧ ∀ frame ∈ more, IsCloseFrame frame

lemma farewell_kept (events₀ : List Client.Event) (frames₀ : List Bytes) :
    KeptBySteps bd (Farewell events₀ frames₀) := by
  intro state events frames state' events' frames' hsound h hstep
  obtain ⟨hended, ⟨moreEvents, rfl, hevents⟩, moreFrames, rfl, hframes⟩ := h
  have hextend : ∀ calls : List HostCall, (∀ call ∈ calls, IsFarewell call) →
      HasEnded state' → events' = eventsOf calls → frames' = sentFrames calls →
      Farewell events₀ frames₀ state' (events₀ ++ moreEvents ++ events')
        (frames₀ ++ moreFrames ++ frames') := by
    rintro calls hcalls hended' rfl rfl
    refine ⟨hended', ⟨moreEvents ++ eventsOf calls, List.append_assoc .., fun event hevent => ?_⟩,
      moreFrames ++ sentFrames calls, List.append_assoc .., fun frame hframe => ?_⟩
    · rcases List.mem_append.mp hevent with hevent | hevent
      · exact hevents event hevent
      · exact eventsOf_farewell hcalls event hevent
    · rcases List.mem_append.mp hframe with hframe | hframe
      · exact hframes frame hframe
      · exact sentFrames_farewell hcalls frame hframe
  cases hstep with
  | handshake => exact hended.elim
  | fail kind => exact hended.elim
  | activate hsound' hactive hnonces hcalls => exact hended.elim
  | endpoint hinput heffect hsound' halive =>
    obtain ⟨hended', hcalls⟩ := heffect.outline.ended hended hinput
    exact hextend _ hcalls hended' rfl rfl
  | terminate heffect halive hzombie =>
    obtain ⟨-, hcalls⟩ := heffect.outline.ended hended (by simp)
    exact hextend _ hcalls trivial rfl rfl

/-- A client whose connection has ended receives nothing more, and only closes. -/
lemma HasEnded.continues (hs : Reachable (system bd) s) (hended : HasEnded s.core.state)
    (h : Continues (system bd) s s') :
    Farewell s.produced s.sent s'.core.state s'.produced s'.sent := by
  have hrule := @Continues.invariant _ _ (system bd)
    (fun t => StateSound bd t.core.state ∧
      Farewell s.produced s.sent t.core.state t.produced t.sent) _ _ h
  have hstart : Farewell s.produced s.sent s.core.state s.produced s.sent :=
    ⟨hended, ⟨[], by simp⟩, [], by simp⟩
  exact (hrule ⟨(clientLived hs).1, hstart⟩ fun t a t' ht hstep =>
    Step.keeps (farewell_kept _ _) ht.1 ht.2 hstep).2

lemma silent_kept (events₀ : List Client.Event) (frames₀ : List Bytes) :
    KeptBySteps bd fun state events frames =>
      state = .quiescent ∧ events = events₀ ∧ frames = frames₀ := by
  rintro _ events frames state' events' frames' hsound ⟨rfl, -, -⟩ hstep
  cases hstep

/-- A quiescent client does nothing. -/
lemma quiescent_continues (hs : Reachable (system bd) s) (hquiescent : s.core.state = .quiescent)
    (h : Continues (system bd) s s') : s'.produced = s.produced ∧ s'.sent = s.sent := by
  have hrule := @Continues.invariant _ _ (system bd)
    (fun t => StateSound bd t.core.state ∧
      t.core.state = .quiescent ∧ t.produced = s.produced ∧ t.sent = s.sent) _ _ h
  exact (hrule ⟨(clientLived hs).1, hquiescent, rfl, rfl⟩ fun t a t' ht hstep =>
    Step.keeps (silent_kept _ _) ht.1 ht.2 hstep).2.2

/-- Disconnecting leaves the handshake as it is, and ends everything else. -/
lemma hasEnded_of_disconnect {core core' : ClientCore} {frames : List Bytes} {nowMs : ℕ}
    (hsound : StateSound bd core.state) (h : core.disconnect bd nowMs = .ok (core', frames))
    (hstate : ∀ state, core.state ≠ .handshake state)
    (hpre : ∀ e, core.state = .active e → e.stateId ≠ .preInit) : HasEnded core'.state := by
  unfold ClientCore.disconnect at h
  cases hs : core.state with
  | handshake state => exact absurd hs (hstate state)
  | active e =>
    rw [hs] at h hsound
    obtain ⟨⟨e', calls⟩, hok, h⟩ := bind_eq_ok.mp h
    cases h
    have hperform : e.perform bd (fun _ => false) .disconnect nowMs = .ok (e', calls) := hok
    have heffect := (Sound.perform hsound hperform).1
    change HasEnded (core.withEndpoint e' calls).1.state
    rw [withEndpoint_state]
    cases heffect with
    | disconnect hactive htime => exact .inl rfl
    | disconnectIgnored hactive => exact StateId.ended_of_ne (hpre e hs) hactive
  | quiescent =>
    rw [hs] at h
    cases h
    rw [hs]
    trivial

lemma ne_preInit (hs : Reachable (system bd) s) :
    ∀ e, s.core.state = .active e → e.stateId ≠ .preInit := by
  intro e he
  have h := (clientLived hs).2
  rw [he] at h
  exact h.1

lemma hasEnded_of_disconnected (hs : Reachable (system bd) s) (h : s.disconnected = true) :
    HasEnded s.core.state := by
  induction hs using Reachable.induct with
  | init hinit =>
    obtain ⟨_, _, _, _, _, rfl⟩ := hinit
    cases h
  | @step s s' a hs hstep ih =>
    have hkept : s.disconnected = true → HasEnded s'.core.state := fun hd =>
      (HasEnded.continues hs (ih hd) (.single ⟨a, hstep⟩)).1
    cases hstep with
    | @disconnect nowMs core frames hok =>
      cases hd : s.disconnected with
      | true => exact hkept hd
      | false =>
        dsimp only at h
        rw [hd, Bool.false_or] at h
        refine hasEnded_of_disconnect (clientLived hs).1 hok ?_ (ne_preInit hs)
        rintro state hstate
        rw [hstate] at h
        cases h
    | _ => exact hkept h

lemma hasEnded_of_terminal (hs : Reachable (system bd) s) {event : Client.Event}
    (hevent : event ∈ s.produced) (hterminal : IsTerminal event) : HasEnded s.core.state := by
  have h := (clientLived hs).2
  cases hstate : s.core.state with
  | handshake state =>
    rw [hstate] at h
    have hnil : s.produced = [] := h
    rw [hnil] at hevent
    cases hevent
  | active e =>
    rw [hstate] at h
    exact h.2.2.ended_of_terminal hevent hterminal
  | quiescent => trivial

lemma produced_isHistory (hs : Reachable (system bd) s) : IsHistory s.produced := by
  have h := (clientLived hs).2
  cases hstate : s.core.state with
  | handshake state =>
    rw [hstate] at h
    exact .inl h
  | active e =>
    rw [hstate] at h
    exact h.2.2.isSession.imp_right .inr
  | quiescent =>
    rw [hstate] at h
    rcases h with h | h
    · exact .inr (.inl h)
    · exact h.isSession.imp_right .inr

/-- A frame that closes the connection carries no segment. -/
lemma closeFrame_not_segment {frameBytes : Bytes} (h : IsCloseFrame frameBytes) :
    readType bd frameBytes ≠ .ok (some .streamSegment) ∧
      readType bd frameBytes ≠ .ok (some .streamSegmentAck) := by
  rcases h with ⟨obj, rfl⟩ | ⟨obj, rfl⟩
  · rw [readType_frameOf]
    simp
  · rw [readType_frameOf]
    simp

end Lifecycle

/-- Once `disconnect` has returned, whatever happens, the client receives nothing and sends
no segment. -/
def HonoursDisconnect (bd : Build) (s : State) : Prop :=
  ∀ nowMs s₁ s₂, Step bd s (.disconnect nowMs) s₁ → Continues (system bd) s₁ s₂ →
    (∃ more, s₂.produced = s₁.produced ++ more ∧ ∀ event ∈ more, ¬ IsReceived event) ∧
      ∃ more, s₂.sent = s₁.sent ++ more ∧ ∀ frame ∈ more,
        readType bd frame ≠ .ok (some .streamSegment) ∧
          readType bd frame ≠ .ok (some .streamSegmentAck)

/-- A client that is past its handshake honours `disconnect`. -/
theorem honoursDisconnect_of_past {bd : Build} {s : State} (hs : Reachable (system bd) s)
    (hpast : ∀ state, s.core.state ≠ .handshake state) : HonoursDisconnect bd s := by
  intro nowMs s₁ s₂ hstep hcontinues
  have hended : HasEnded s₁.core.state := by
    cases hstep with
    | disconnect hok => exact hasEnded_of_disconnect (clientLived hs).1 hok hpast (ne_preInit hs)
  obtain ⟨-, hevents, more, hmore, hframes⟩ :=
    HasEnded.continues (hs.step hstep) hended hcontinues
  exact ⟨hevents, more, hmore, fun frame hframe => closeFrame_not_segment (hframes frame hframe)⟩

section Sample

/-- A client of the default configuration that has drawn the nonce 7. -/
def sampleStart : Option State :=
  (ClientCore.connectWithConfig .debug default 7).toOption.map fun r => ⟨r.1, [], r.2, false⟩

/-- The answers of a server to the two requests, and a packet of one byte. -/
def sampleAnswers : List Action :=
  [.frame (frameOf .handshakeAlphaAck (handshakeBytes localParams 7 9 0 0)) 3 fun _ => false,
    .frame (frameOf .handshakeBetaAck (LawfulBlock.encode (HandshakeBetaAckFrame.mk none 7))) 4
      fun _ => false]

def samplePacket : Action :=
  .frame (frameOf .streamSegment (LawfulBlock.encode (StreamSegmentHeader.mk 0 false) ++
    encodeDatagram ⟨0, false, true, true, [5]⟩)) 5 fun _ => false

lemma sampleStart_initial {s : State} (h : sampleStart = some s) : Initial .debug s := by
  obtain ⟨r, hconnect, rfl⟩ := toOption_map_eq_some.mp h
  exact ⟨_, _, _, _, hconnect, rfl⟩

lemma sampleStart_reachable {s : State} (h : sampleStart = some s) :
    Reachable (system .debug) s := .init (sampleStart_initial h)

/-- A client that is disconnected during the handshake connects all the same, sends the
packet it was given before, and receives one. -/
theorem handshake_ignores_disconnect :
    ∃ s, Reachable (system .debug) s ∧ ¬ HonoursDisconnect .debug s := by
  have hrun : (sampleStart.bind fun s₀ =>
      (next .debug s₀ (.send [1, 2, 3] .reliable 1 fun _ => false)).bind fun s =>
        (next .debug s (.disconnect 2)).bind fun s₁ =>
          (replay (next .debug) s₁ (sampleAnswers ++ [samplePacket])).map fun s₂ =>
            (s₁.produced, s₂.produced)) = some ([], [.connect, .receive [5]]) := by decide +kernel
  obtain ⟨s₀, hstart, hrun⟩ := Option.bind_eq_some_iff.mp hrun
  obtain ⟨s, hsend, hrun⟩ := Option.bind_eq_some_iff.mp hrun
  obtain ⟨s₁, hdisconnect, hrun⟩ := Option.bind_eq_some_iff.mp hrun
  obtain ⟨s₂, hreplay, hproduced⟩ := Option.map_eq_some_iff.mp hrun
  have hs : Reachable (system .debug) s := (sampleStart_reachable hstart).step (next_step hsend)
  refine ⟨s, hs, fun hhonours => ?_⟩
  have hcontinues : Continues (system .debug) s₁ s₂ :=
    replay_continues (fun _ _ _ => next_step) hreplay
  obtain ⟨⟨more, hmore, hnone⟩, -⟩ := hhonours 2 s₁ s₂ (next_step hdisconnect) hcontinues
  obtain ⟨h₁, h₂⟩ := Prod.mk.inj hproduced
  rw [h₁, h₂, List.nil_append] at hmore
  exact hnone (.receive [5]) (by rw [← hmore]; simp) ⟨[5], rfl⟩

/-- A client that is disconnected once it is connected ignores the packet. -/
theorem honoursDisconnect_of_past_active :
    ∃ s s₁ s₂, Reachable (system .debug) s ∧ Step .debug s (.disconnect 5) s₁ ∧
      Continues (system .debug) s₁ s₂ ∧ s₂.produced = [.connect] ∧
      ∃ more, s₂.produced = s₁.produced ++ more ∧ ∀ event ∈ more, ¬ IsReceived event := by
  have hrun : (sampleStart.bind fun s₀ =>
      (replay (next .debug) s₀ sampleAnswers).bind fun s =>
        (next .debug s (.disconnect 5)).bind fun s₁ =>
          (replay (next .debug) s₁ [samplePacket]).map fun s₂ =>
            (hasActiveEndpoint s.core.state, s₂.produced)) = some (true, [.connect]) := by
    decide +kernel
  obtain ⟨s₀, hstart, hrun⟩ := Option.bind_eq_some_iff.mp hrun
  obtain ⟨s, hanswers, hrun⟩ := Option.bind_eq_some_iff.mp hrun
  obtain ⟨s₁, hdisconnect, hrun⟩ := Option.bind_eq_some_iff.mp hrun
  obtain ⟨s₂, hreplay, hrun⟩ := Option.map_eq_some_iff.mp hrun
  obtain ⟨hactive, hproduced⟩ := Prod.mk.inj hrun
  have hs : Reachable (system .debug) s :=
    (sampleStart_reachable hstart).continues (replay_continues (fun _ _ _ => next_step) hanswers)
  have hcontinues : Continues (system .debug) s₁ s₂ :=
    replay_continues (fun _ _ _ => next_step) hreplay
  have hpast : ∀ state, s.core.state ≠ .handshake state := by
    intro state hstate
    rw [hstate] at hactive
    cases hactive
  have hstep := next_step hdisconnect
  exact ⟨s, s₁, s₂, hs, hstep, hcontinues, hproduced,
    (honoursDisconnect_of_past hs hpast 5 s₁ s₂ hstep hcontinues).1⟩

end Sample

end Redpine.ClientRun
